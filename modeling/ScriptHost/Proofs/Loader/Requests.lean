import ScriptHost.Loader.Require
import ScriptHost.Proofs.Loader.Canonical

/-!
# Requests and what they keep

A host asks for files, and the files that run ask for more. A search takes the first path that is a
file (`searchIn_eq`), so a request leads to a file or to none (`Request.target?`), and what becomes
of it is told case by case (`Request.Met`). What a step keeps, a script keeps
(`Script.exec_induction`), and a request with all that runs for it (`requireWithin_induction`): no
key and no event is forgotten (`extends_requireWithin`), and no file runs twice
(`LoadState.RanOnce.exec`).
-/

set_option autoImplicit false

namespace ScriptHost.Loader

open FileTree (pathOf)

/-! ## The search -/

/-- The search takes the first path that is a file. When there is none, it has tried them all. -/
theorem searchIn_eq (t : FileTree) (identity : Path) (searched directories : List Path) :
    searchIn t identity searched directories =
      match (directories.map (·.join identity)).find? t.isFile with
      | some path => .ok path
      | none => .error (.moduleNotFound identity (searched ++ directories.map (·.join identity))) := by
  induction directories generalizing searched with
  | nil => rw [searchIn, List.map_nil, List.find?_nil, List.append_nil]
  | cons directory rest ih =>
      rw [searchIn, List.map_cons]
      cases hfile : t.isFile (directory.join identity) with
      | true => rw [if_pos rfl, List.find?_cons_of_pos hfile]
      | false =>
          -- the path joins those tried before, in front of those still to be tried
          rw [if_neg Bool.false_ne_true, ih, List.find?_cons_of_neg (by simp [hfile]),
            List.append_assoc, List.singleton_append]

section

variable {t : FileTree} {c : LoaderConfig} {identity path : Path} {caller : Option Path}
  {e : LoadError}

theorem isFile_of_resolve (h : resolve t c identity caller = .ok path) : t.isFile path = true := by
  rw [resolve, searchIn_eq] at h
  split at h
  · rename_i found hfound
    cases h
    exact List.find?_some hfound
  · cases h

theorem exists_searched_of_resolve (h : resolve t c identity caller = .error e) :
    ∃ searched, e = .moduleNotFound identity searched := by
  rw [resolve, searchIn_eq] at h
  split at h
  · cases h
  · cases h
    exact ⟨_, rfl⟩

end

/-! ## One request -/

/-- A request: the settings it goes by, the file it asks for and who asks. -/
structure Request where
  config : LoaderConfig
  file : Path
  caller : Option Path

/-- Puts a request to something that meets requests. -/
def Request.put (q : Request) (meet : Requester) (s : LoadState) :
    Option (Except LoadError Bool × LoadState) :=
  meet q.config q.file q.caller s

/-- The file that a request leads to. -/
def Request.target? (t : FileTree) (q : Request) : Option Path :=
  match identity? q.config q.file with
  | none => none
  | some identity => (resolve t q.config identity q.caller).toOption

/-- The state in which a file runs: it is remembered, and it has been handed to the runtime. -/
def LoadState.handOver (t : FileTree) (s : LoadState) (path : Path) : LoadState :=
  (s.mark (loadedKey t path)).record (.executed path)

/-- The answer for a file that has run. -/
def ranAnswer (path : Path) (r : Outcome) : Except LoadError Bool :=
  (r.mapError (.execution path)).map fun _ => true

/-- What becomes of a request, where `meet` meets the requests of the file. -/
inductive Request.Met (t : FileTree) (run : Runtime) (meet : Requester) (q : Request)
    (s : LoadState) : Option (Except LoadError Bool × LoadState) → Prop
  | missing {name : Path} {searched : List Path} (htarget : q.target? t = none) :
      Met t run meet q s (some (.error (.moduleNotFound name searched), s))
  | known {path : Path} (htarget : q.target? t = some path)
      (hknown : s.contains (loadedKey t path) = true) :
      Met t run meet q s (some (.ok false, s))
  | unreadable {path : Path} {e : FileError} (htarget : q.target? t = some path)
      (hnew : s.contains (loadedKey t path) = false) (hread : t.read path = .error e) :
      Met t run meet q s (some (.error (.unreadable path e), s.mark (loadedKey t path)))
  | handed {path : Path} {source : String} (htarget : q.target? t = some path)
      (hnew : s.contains (loadedKey t path) = false) (hread : t.read path = .ok source) :
      Met t run meet q s
        (((run q.config path source).exec meet (s.handOver t path)).map fun (r, s) =>
          (ranAnswer path r, s))

theorem Request.met (t : FileTree) (run : Runtime) (depth : Nat) (q : Request) (s : LoadState) :
    q.Met t run (requireWithin t run depth) s (q.put (requireWithin t run (depth + 1)) s) := by
  unfold put
  rw [requireWithin]
  cases hidentity : identity? q.config q.file with
  | none => exact .missing (by rw [target?, hidentity])
  | some identity =>
      dsimp only
      cases hresolve : resolve t q.config identity q.caller with
      | error e =>
          have htarget : q.target? t = none := by
            rw [target?, hidentity]
            show (resolve t q.config identity q.caller).toOption = none
            rw [hresolve]
            rfl
          obtain ⟨searched, rfl⟩ := exists_searched_of_resolve hresolve
          exact .missing htarget
      | ok path =>
          have htarget : q.target? t = some path := by
            rw [target?, hidentity]
            show (resolve t q.config identity q.caller).toOption = some path
            rw [hresolve]
            rfl
          dsimp only
          cases hcontains : s.contains (loadedKey t path) with
          | true => exact .known htarget hcontains
          | false =>
              rw [if_neg Bool.false_ne_true, loadWith]
              cases hread : t.read path with
              | error e => exact .unreadable htarget hcontains hread
              | ok source =>
                  dsimp only
                  rw [Option.map_map]
                  exact .handed htarget hcontains hread

/-- A request leads to a file only. -/
theorem Request.isFile_of_target {t : FileTree} {q : Request} {path : Path}
    (h : q.target? t = some path) : t.isFile path = true := by
  unfold target? at h
  split at h
  · cases h
  · rename_i identity _
    cases hresolve : resolve t q.config identity q.caller with
    | error e =>
        rw [hresolve] at h
        cases h
    | ok found =>
        rw [hresolve] at h
        cases h
        exact isFile_of_resolve hresolve

/-! ## What a run keeps -/

/-- A relation between the state before and the state after holds of a whole script, if it does
of each of its steps. -/
theorem Script.exec_induction {R : LoadState → LoadState → Prop} (hrefl : ∀ s, R s s)
    (htrans : ∀ {s s' s''}, R s s' → R s' s'' → R s s'')
    (hnote : ∀ s line, R s (s.record (.note line))) {meet : Requester}
    (hmeet : ∀ {q : Request} {s a s'}, q.put meet s = some (a, s') → R s s')
    {script : Script} {s s' : LoadState} {r : Outcome}
    (h : script.exec meet s = some (r, s')) : R s s' := by
  induction script generalizing s with
  | done result =>
      cases h
      exact hrefl _
  | note line next ih => exact htrans (hnote s line) (ih h)
  | consult next ih => exact ih s.events h
  | require config request caller next ih =>
      obtain ⟨⟨a, s₁⟩, hput, hnext⟩ := Option.bind_eq_some_iff.mp h
      have hfirst : R s s₁ := hmeet (q := ⟨config, request, caller⟩) hput
      exact htrans hfirst (ih a hnext)

/-- A relation between the state before and the state after holds of every request, if it does of
each step that a request and the files it runs can make. -/
theorem requireWithin_induction {R : LoadState → LoadState → Prop} {t : FileTree} {run : Runtime}
    (hrefl : ∀ s, R s s) (htrans : ∀ {s s' s''}, R s s' → R s' s'' → R s s'')
    (hnote : ∀ s line, R s (s.record (.note line)))
    (hmark : ∀ {path s}, t.isFile path = true → s.contains (loadedKey t path) = false →
      R s (s.mark (loadedKey t path)))
    (hhand : ∀ {path s}, t.isFile path = true → s.contains (loadedKey t path) = false →
      R s (s.handOver t path))
    (depth : Nat) {q : Request} {s s' : LoadState} {a : Except LoadError Bool}
    (h : q.put (requireWithin t run depth) s = some (a, s')) : R s s' := by
  induction depth generalizing q s s' a with
  | zero => cases h
  | succ depth ih =>
      have hmet := q.met t run depth s
      rw [h] at hmet
      generalize hanswer : some (a, s') = answer at hmet
      cases hmet with
      | missing htarget => cases hanswer; exact hrefl s
      | known htarget hknown => cases hanswer; exact hrefl s
      | unreadable htarget hnew hread =>
          cases hanswer
          exact hmark (q.isFile_of_target htarget) hnew
      | handed htarget hnew hread =>
          obtain ⟨⟨r, s₁⟩, hexec, heq⟩ := Option.map_eq_some_iff.mp hanswer.symm
          cases heq
          exact htrans (hhand (q.isFile_of_target htarget) hnew)
            (Script.exec_induction hrefl htrans hnote ih hexec)

/-! ### Keys and events stay -/

/-- Nothing is forgotten: neither a key nor an event. -/
structure LoadState.Extends (s s' : LoadState) : Prop where
  keys : ∀ key, s.contains key = true → s'.contains key = true
  events : ∃ later, s'.events = later ++ s.events

namespace LoadState

theorem Extends.refl (s : LoadState) : s.Extends s := ⟨fun _ h => h, [], rfl⟩

theorem Extends.trans {s s' s'' : LoadState} (h : s.Extends s') (h' : s'.Extends s'') :
    s.Extends s'' := by
  obtain ⟨later, hlater⟩ := h.events
  obtain ⟨last, hlast⟩ := h'.events
  refine ⟨fun key hkey => h'.keys key (h.keys key hkey), last ++ later, ?_⟩
  rw [hlast, hlater, List.append_assoc]

@[simp] theorem contains_record (s : LoadState) (e : Event) (key : Path) :
    (s.record e).contains key = s.contains key := rfl

@[simp] theorem events_mark (s : LoadState) (key : Path) : (s.mark key).events = s.events := by
  unfold mark
  split <;> rfl

/-- Keys count as the same when they are alike. -/
theorem contains_congr (s : LoadState) {key other : Path} (h : key.alike other = true) :
    s.contains key = s.contains other := by
  have hsame : key.alike = other.alike := by
    funext p
    rw [Path.alike, Path.alike, eq_of_beq h]
  rw [contains, contains, hsame]

/-- Marking adds one key, as keys are compared. -/
theorem contains_mark (s : LoadState) (key other : Path) :
    (s.mark key).contains other = true
      ↔ s.contains other = true ∨ other.alike key = true := by
  unfold mark
  by_cases hkey : s.contains key = true
  · rw [if_pos hkey]
    refine ⟨.inl, ?_⟩
    rintro (h | h)
    · exact h
    · rwa [s.contains_congr h]
  · rw [if_neg hkey, contains, List.any_cons, Bool.or_eq_true, Or.comm]
    rfl

theorem Extends.record (s : LoadState) (e : Event) : s.Extends (s.record e) :=
  ⟨fun _ h => h, [e], rfl⟩

theorem Extends.mark (s : LoadState) (key : Path) : s.Extends (s.mark key) :=
  ⟨fun other h => (s.contains_mark key other).mpr (.inl h), [], s.events_mark key⟩

theorem Extends.handOver (t : FileTree) (s : LoadState) (path : Path) :
    s.Extends (s.handOver t path) :=
  (Extends.mark s (loadedKey t path)).trans (Extends.record _ (.executed path))

end LoadState

theorem extends_requireWithin {t : FileTree} {run : Runtime} {depth : Nat} {q : Request}
    {s s' : LoadState} {a : Except LoadError Bool}
    (h : q.put (requireWithin t run depth) s = some (a, s')) : s.Extends s' :=
  requireWithin_induction .refl .trans (fun s line => .record s (.note line))
    (fun _ _ => .mark _ _) (fun _ _ => .handOver t _ _) depth h

theorem Script.extends_exec {t : FileTree} {run : Runtime} {depth : Nat} {script : Script}
    {s s' : LoadState} {r : Outcome}
    (h : script.exec (requireWithin t run depth) s = some (r, s')) : s.Extends s' :=
  Script.exec_induction .refl .trans (fun s line => .record s (.note line))
    extends_requireWithin h

/-! ### A file runs once -/

/-- The paths that were handed to the runtime, the latest first. -/
def LoadState.executed (s : LoadState) : List Path :=
  s.events.filterMap fun
    | .executed path => some path
    | .note _ => none

/-- No file has run twice, and each that has run is remembered. -/
structure LoadState.RanOnce (t : FileTree) (s : LoadState) : Prop where
  nodup : (s.executed.map t.location?).Nodup
  known : ∀ path ∈ s.executed, ∃ here, t.location? path = some here ∧
    s.contains (pathOf here) = true

namespace LoadState.RanOnce

variable {t : FileTree}

theorem empty (t : FileTree) : LoadState.empty.RanOnce t :=
  ⟨List.nodup_nil, fun _ h => absurd h List.not_mem_nil⟩

theorem of_extends {s s' : LoadState} (h : s.RanOnce t) (hs : s.Extends s')
    (hexecuted : s'.executed = s.executed) : s'.RanOnce t := by
  refine ⟨hexecuted ▸ h.nodup, ?_⟩
  intro path hpath
  obtain ⟨here, hhere, hknown⟩ := h.known path (hexecuted ▸ hpath)
  exact ⟨here, hhere, hs.keys _ hknown⟩

theorem mark {s : LoadState} (h : s.RanOnce t) (key : Path) : (s.mark key).RanOnce t :=
  h.of_extends (.mark s key) (by rw [executed, executed, events_mark])

/-- A file that is not remembered has not run, so it may run now. -/
theorem handOver {s : LoadState} (h : s.RanOnce t) {path : Path} (hfile : t.isFile path = true)
    (hnew : s.contains (loadedKey t path) = false) : (s.handOver t path).RanOnce t := by
  obtain ⟨here, content, hhere, -⟩ := FileTree.exists_location_of_isFile hfile
  have hkey : loadedKey t path = pathOf here := loadedKey_of_location hhere
  have hexecuted : (s.handOver t path).executed = path :: s.executed := by
    rw [LoadState.handOver, executed, record, events_mark]
    rfl
  have hextends := Extends.handOver t s path
  constructor
  · rw [hexecuted, List.map_cons, List.nodup_cons]
    refine ⟨?_, h.nodup⟩
    intro hmem
    obtain ⟨other, hother, hsame⟩ := List.mem_map.mp hmem
    obtain ⟨there, hthere, hknown⟩ := h.known other hother
    rw [hhere, hthere, Option.some.injEq] at hsame
    rw [hkey, ← hsame, hknown] at hnew
    cases hnew
  · intro other hother
    rw [hexecuted] at hother
    rcases List.mem_cons.mp hother with rfl | hbefore
    · refine ⟨here, hhere, ?_⟩
      rw [LoadState.handOver, contains_record, contains_mark, hkey]
      exact .inr (by rw [Path.alike, beq_self_eq_true])
    · obtain ⟨there, hthere, hknown⟩ := h.known other hbefore
      exact ⟨there, hthere, hextends.keys _ hknown⟩

theorem exec {run : Runtime} {depth : Nat} {script : Script} {s s' : LoadState} {r : Outcome}
    (hs : s.RanOnce t) (h : script.exec (requireWithin t run depth) s = some (r, s')) :
    s'.RanOnce t := by
  refine Script.exec_induction (R := fun s s' => s.RanOnce t → s'.RanOnce t)
    (fun _ h => h) (fun h h' hs => h' (h hs))
    (fun s line h => h.of_extends (.record s (.note line)) rfl) ?_ h hs
  intro q s a s' hput
  exact requireWithin_induction (R := fun s s' => s.RanOnce t → s'.RanOnce t)
    (fun _ h => h) (fun h h' hs => h' (h hs))
    (fun s line h => h.of_extends (.record s (.note line)) rfl)
    (fun _ _ h => h.mark _) (fun hfile hnew h => h.handOver hfile hnew) depth hput

end LoadState.RanOnce

end ScriptHost.Loader
