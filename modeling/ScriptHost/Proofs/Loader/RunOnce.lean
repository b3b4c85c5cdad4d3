import ScriptHost.Loader.LineScript
import ScriptHost.Proofs.Loader.Requests

/-!
# Every request is met, and every file runs once

The files that are not remembered bound how deep files run inside each other
(`exists_requireWithin`), so every request is met, and a greater depth changes nothing
(`exists_answer`).

The requests of a run are listed in the order in which they are made, each with the state that it
finds (`requestsOf`); those made while a file runs stand behind the request for it. A state
remembers exactly the files that the requests before it led to (`accounts_momentsWithin`). Main
statement: `require_runs_once`.
-/

set_option autoImplicit false

namespace ScriptHost.Loader

open FileTree (pathOf)

/-! ## Enough depth

Every file inside another one has just been remembered, so the number of files that are not
remembered bounds the depth. -/

/-- Whether an entry is a file that is not remembered. -/
def LoadState.lacks (s : LoadState) (e : Location × FileEntry) : Bool :=
  match e.2 with
  | .file _ => !s.contains (pathOf e.1)
  | _ => false

/-- The number of files that are not remembered. -/
def FileTree.unloaded (t : FileTree) (s : LoadState) : Nat := t.entries.countP s.lacks

theorem FileTree.unloaded_le_fileCount (t : FileTree) (s : LoadState) :
    t.unloaded s ≤ t.fileCount := by
  refine List.countP_mono_left ?_
  rintro ⟨here, entry⟩ - h
  cases entry with
  | file content => rfl
  | directory => cases h
  | link target => cases h

theorem LoadState.Extends.lacks {s s' : LoadState} (h : s.Extends s') {e : Location × FileEntry}
    (he : s'.lacks e = true) : s.lacks e = true := by
  obtain ⟨here, entry⟩ := e
  cases entry with
  | file content =>
      show (!s.contains (pathOf here)) = true
      cases hkey : s.contains (pathOf here) with
      | false => rfl
      | true =>
          have hlacks : (!s'.contains (pathOf here)) = true := he
          rw [h.keys _ hkey] at hlacks
          exact hlacks
  | directory => cases he
  | link target => cases he

theorem FileTree.unloaded_le_of_extends (t : FileTree) {s s' : LoadState} (h : s.Extends s') :
    t.unloaded s' ≤ t.unloaded s :=
  List.countP_mono_left fun _ _ he => h.lacks he

/-- A count goes down when one of those that counted no longer does. -/
theorem countP_lt_countP {α : Type} {p q : α → Bool} {xs : List α}
    (hpq : ∀ x ∈ xs, q x = true → p x = true) {x : α} (hx : x ∈ xs) (hp : p x = true)
    (hq : q x = false) : xs.countP q < xs.countP p := by
  obtain ⟨before, after, rfl⟩ := List.append_of_mem hx
  have hbefore : before.countP q ≤ before.countP p :=
    List.countP_mono_left fun y hy => hpq y (List.mem_append_left _ hy)
  have hafter : after.countP q ≤ after.countP p :=
    List.countP_mono_left fun y hy =>
      hpq y (List.mem_append_right _ (List.mem_cons_of_mem _ hy))
  rw [List.countP_append, List.countP_append, List.countP_cons_of_pos hp,
    List.countP_cons_of_neg (by rw [hq]; exact Bool.false_ne_true)]
  omega

theorem FileTree.unloaded_handOver_lt {t : FileTree} {s : LoadState} {path : Path}
    (hfile : t.isFile path = true) (hnew : s.contains (loadedKey t path) = false) :
    t.unloaded (s.handOver t path) < t.unloaded s := by
  obtain ⟨here, content, hhere, hentry⟩ := exists_location_of_isFile hfile
  have hkey : loadedKey t path = pathOf here := loadedKey_of_location hhere
  refine countP_lt_countP (fun e _ he => (LoadState.Extends.handOver t s path).lacks he) hentry
    ?_ ?_
  · show (!s.contains (pathOf here)) = true
    rw [← hkey, hnew]
    rfl
  · show (!(s.handOver t path).contains (pathOf here)) = false
    have hself : (s.handOver t path).contains (pathOf here) = true := by
      rw [LoadState.handOver, LoadState.contains_record, LoadState.contains_mark, hkey]
      exact .inr (by rw [Path.alike, beq_self_eq_true])
    rw [hself]
    rfl

theorem Script.exists_exec {t : FileTree} {run : Runtime} {depth : Nat}
    (hmeet : ∀ (q : Request) (s : LoadState), t.unloaded s < depth →
      ∃ r, q.put (requireWithin t run depth) s = some r)
    (script : Script) {s : LoadState} (hs : t.unloaded s < depth) :
    ∃ r, script.exec (requireWithin t run depth) s = some r := by
  induction script generalizing s with
  | done result => exact ⟨_, rfl⟩
  | note line next ih => exact ih (s := s.record (.note line)) hs
  | consult next ih => exact ih s.events hs
  | require config request caller next ih =>
      obtain ⟨⟨a, s'⟩, hput⟩ := hmeet ⟨config, request, caller⟩ s hs
      have hless := t.unloaded_le_of_extends (extends_requireWithin hput)
      obtain ⟨r, hr⟩ := ih a (s := s') (by omega)
      exact ⟨r, Option.bind_eq_some_iff.mpr ⟨(a, s'), hput, hr⟩⟩

/-- A request is met, if the depth exceeds the number of files that are not remembered. -/
theorem exists_requireWithin {t : FileTree} {run : Runtime} {depth : Nat} (q : Request)
    {s : LoadState} (hs : t.unloaded s < depth) :
    ∃ r, q.put (requireWithin t run depth) s = some r := by
  induction depth generalizing q s with
  | zero => exact absurd hs (Nat.not_lt_zero _)
  | succ depth ih =>
      have hmet := q.met t run depth s
      generalize q.put (requireWithin t run (depth + 1)) s = answer at hmet
      cases hmet with
      | missing htarget => exact ⟨_, rfl⟩
      | known htarget hknown => exact ⟨_, rfl⟩
      | unreadable htarget hnew hread => exact ⟨_, rfl⟩
      | @handed path source htarget hnew hread =>
          have hless := FileTree.unloaded_handOver_lt (q.isFile_of_target htarget) hnew
          have hdeep : t.unloaded (s.handOver t path) < depth := by omega
          obtain ⟨r, hr⟩ := Script.exists_exec (fun q s hs => ih q hs)
            (run q.config path source) hdeep
          rw [hr]
          exact ⟨_, rfl⟩

/-! ### The depth is of no account -/

theorem Script.exec_mono {meet meet' : Requester}
    (h : ∀ (q : Request) s r, q.put meet s = some r → q.put meet' s = some r) (script : Script)
    {s : LoadState} {r : Outcome × LoadState} (hr : script.exec meet s = some r) :
    script.exec meet' s = some r := by
  induction script generalizing s with
  | done result => exact hr
  | note line next ih => exact ih hr
  | consult next ih => exact ih s.events hr
  | require config request caller next ih =>
      obtain ⟨⟨a, s'⟩, hput, hnext⟩ := Option.bind_eq_some_iff.mp hr
      exact Option.bind_eq_some_iff.mpr
        ⟨(a, s'), h ⟨config, request, caller⟩ s _ hput, ih a hnext⟩

theorem requireWithin_succ {t : FileTree} {run : Runtime} {depth : Nat} {q : Request}
    {s : LoadState} {r : Except LoadError Bool × LoadState}
    (h : q.put (requireWithin t run depth) s = some r) :
    q.put (requireWithin t run (depth + 1)) s = some r := by
  induction depth generalizing q s r with
  | zero => cases h
  | succ depth ih =>
      unfold Request.put at h ⊢
      rw [requireWithin] at h ⊢
      cases hidentity : identity? q.config q.file with
      | none => rwa [hidentity] at h
      | some identity =>
          simp only [hidentity] at h ⊢
          cases hresolve : resolve t q.config identity q.caller with
          | error e => rwa [hresolve] at h
          | ok path =>
              simp only [hresolve] at h ⊢
              split
              · rwa [if_pos ‹_›] at h
              · rw [if_neg ‹_›] at h
                unfold loadWith at h ⊢
                cases hread : t.read path with
                | error e => rwa [hread] at h
                | ok source =>
                    -- the file is the only one that makes requests of its own
                    simp only [hread, Option.map_map] at h ⊢
                    obtain ⟨r₁, hexec, hr₁⟩ := Option.map_eq_some_iff.mp h
                    exact Option.map_eq_some_iff.mpr
                      ⟨r₁, Script.exec_mono (fun q s r => ih) _ hexec, hr₁⟩

theorem requireWithin_mono {t : FileTree} {run : Runtime} {m n : Nat} (hmn : m ≤ n) {q : Request}
    {s : LoadState} {r : Except LoadError Bool × LoadState}
    (h : q.put (requireWithin t run m) s = some r) : q.put (requireWithin t run n) s = some r := by
  induction hmn with
  | refl => exact h
  | step _ ih => exact requireWithin_succ ih

/-- Every request is met, and by every depth from the bound on in the same way. -/
theorem exists_answer (t : FileTree) (run : Runtime) (q : Request) (s : LoadState) :
    ∃ a s', ∀ depth, depthBound t ≤ depth → q.put (requireWithin t run depth) s = some (a, s') := by
  have hbound : t.unloaded s < depthBound t :=
    Nat.lt_succ_of_le (t.unloaded_le_fileCount s)
  have hmet : ∃ r, q.put (requireWithin t run (depthBound t)) s = some r :=
    exists_requireWithin q hbound
  obtain ⟨⟨a, s'⟩, h⟩ := hmet
  exact ⟨a, s', fun depth hdepth => requireWithin_mono hdepth h⟩

/-! ## The requests of a run -/

/-- A request in a run, with the state that it finds. -/
structure Moment where
  request : Request
  state : LoadState

/-- The path and the script of the file that a request hands to the runtime, if it does. -/
def Moment.script? (t : FileTree) (run : Runtime) (m : Moment) : Option (Path × Script) :=
  match m.request.target? t with
  | none => none
  | some path =>
    if m.state.contains (loadedKey t path) then none
    else
      match t.read path with
      | .error _ => none
      | .ok source => some (path, run m.request.config path source)

/-- The request hands nothing over: it leads to no file, or to one that cannot be read or is
remembered. -/
def Moment.IsIdle (t : FileTree) (m : Moment) : Prop :=
  ∀ path source, m.request.target? t = some path → t.read path = .ok source →
    m.state.contains (loadedKey t path) = true

namespace Moment

variable {t : FileTree} {run : Runtime} {m : Moment} {path : Path}

theorem isIdle_of_missing (htarget : m.request.target? t = none) : m.IsIdle t := by
  intro path source hpath
  rw [htarget] at hpath
  cases hpath

theorem isIdle_of_known (htarget : m.request.target? t = some path)
    (hknown : m.state.contains (loadedKey t path) = true) : m.IsIdle t := by
  intro other source hother _
  rw [htarget] at hother
  cases hother
  exact hknown

theorem isIdle_of_unreadable (htarget : m.request.target? t = some path) {e : FileError}
    (hread : t.read path = .error e) : m.IsIdle t := by
  intro other source hother hsource
  rw [htarget] at hother
  cases hother
  rw [hread] at hsource
  cases hsource

theorem IsIdle.script? (h : m.IsIdle t) : m.script? t run = none := by
  rw [Moment.script?]
  cases htarget : m.request.target? t with
  | none => rfl
  | some path =>
      dsimp only
      cases hread : t.read path with
      | error e => exact ite_self none
      | ok source => exact if_pos (h path source htarget hread)

theorem script?_of_read {source : String} (htarget : m.request.target? t = some path)
    (hnew : m.state.contains (loadedKey t path) = false) (hread : t.read path = .ok source) :
    m.script? t run = some (path, run m.request.config path source) := by
  rw [script?, htarget]
  dsimp only
  rw [hnew, if_neg Bool.false_ne_true, hread]

end Moment

/-- The requests that a script makes, in order; behind each one stand those that are made while it
is met, which `inner` gives. -/
def Script.moments (meet : Requester) (inner : Moment → List Moment) :
    Script → LoadState → List Moment
  | .done _, _ => []
  | .note line next, s => moments meet inner next (s.record (.note line))
  | .consult next, s => moments meet inner (next s.events) s
  | .require config file caller next, s =>
    inner ⟨⟨config, file, caller⟩, s⟩ ++
      match meet config file caller s with
      | none => []
      | some (a, s) => moments meet inner (next a) s

/-- A request and all that are made while it is met, in order. -/
def momentsWithin (t : FileTree) (run : Runtime) : Nat → Moment → List Moment
  | 0, _ => []
  | depth + 1, m =>
    m :: match m.script? t run with
      | none => []
      | some (path, script) =>
        script.moments (requireWithin t run depth) (momentsWithin t run depth)
          (m.state.handOver t path)

/-- The requests of the run of a host, which asks for files as a script does. -/
def requestsOf (t : FileTree) (run : Runtime) (host : Script) : List Moment :=
  host.moments (require t run) (momentsWithin t run (depthBound t)) .empty

/-! ## What a run keeps of its requests

A state may be described by the requests that have been made before it. What each step of a run
keeps of such a description, a whole run keeps (`Described`), and then it holds of the state that
any of the requests finds (`Along`). -/

/-- Each of some items finds a state that `K` describes by the items before it. -/
def Along {α : Type} (state : α → LoadState) (K : List α → LoadState → Prop) :
    List α → List α → Prop
  | _, [] => True
  | before, x :: rest => K before (state x) ∧ Along state K (before ++ [x]) rest

theorem along_append {α : Type} {state : α → LoadState} {K : List α → LoadState → Prop}
    {before xs ys : List α} :
    Along state K before (xs ++ ys) ↔
      Along state K before xs ∧ Along state K (before ++ xs) ys := by
  induction xs generalizing before with
  | nil =>
      rw [List.nil_append, List.append_nil]
      exact ⟨fun h => ⟨trivial, h⟩, fun h => h.2⟩
  | cons x xs ih =>
      rw [List.cons_append, Along, Along, ih, and_assoc, List.append_assoc]
      rfl

theorem Along.at {α : Type} {state : α → LoadState} {K : List α → LoadState → Prop}
    {before xs after : List α} {x : α} (h : Along state K before (xs ++ x :: after)) :
    K (before ++ xs) (state x) :=
  (along_append.mp h).2.1

/-- No step of a run on a tree of files makes the description `K` untrue. -/
structure Kept (t : FileTree) (K : List Moment → LoadState → Prop) : Prop where
  record : ∀ {before : List Moment} {s : LoadState} (e : Event), K before s →
    K before (s.record e)
  missing : ∀ {before : List Moment} {m : Moment}, K before m.state →
    m.request.target? t = none → K (before ++ [m]) m.state
  known : ∀ {before : List Moment} {m : Moment} {path : Path}, K before m.state →
    m.request.target? t = some path → m.state.contains (loadedKey t path) = true →
    K (before ++ [m]) m.state
  opened : ∀ {before : List Moment} {m : Moment} {path : Path}, K before m.state →
    m.request.target? t = some path → m.state.contains (loadedKey t path) = false →
    K (before ++ [m]) (m.state.mark (loadedKey t path))

/-- The requests `ms` that follow on those in `before` find states that `K` describes, and it
describes the state `s` behind them. -/
structure Described (K : List Moment → LoadState → Prop) (before ms : List Moment)
    (s : LoadState) : Prop where
  along : Along Moment.state K before ms
  last : K (before ++ ms) s

section Described

variable {t : FileTree} {K : List Moment → LoadState → Prop} {before : List Moment}

theorem Described.append {ms ms' : List Moment} {s s' : LoadState} (h : Described K before ms s)
    (h' : Described K (before ++ ms) ms' s') : Described K before (ms ++ ms') s' := by
  refine ⟨along_append.mpr ⟨h.along, h'.along⟩, ?_⟩
  have hlast := h'.last
  rwa [List.append_assoc] at hlast

theorem Described.single {m : Moment} {s : LoadState} (hm : K before m.state)
    (hs : K (before ++ [m]) s) : Described K before [m] s :=
  ⟨⟨hm, trivial⟩, hs⟩

theorem Script.described_moments
    (hrecord : ∀ {before : List Moment} {s : LoadState} (e : Event), K before s →
      K before (s.record e))
    {meet : Requester} {inner : Moment → List Moment}
    (hinner : ∀ (q : Request) (s : LoadState) (before : List Moment) {a s'},
      K before s → q.put meet s = some (a, s') → Described K before (inner ⟨q, s⟩) s')
    (script : Script) {s s' : LoadState} {r : Outcome} (hs : K before s)
    (h : script.exec meet s = some (r, s')) :
    Described K before (script.moments meet inner s) s' := by
  induction script generalizing s before with
  | done result =>
      cases h
      refine ⟨trivial, ?_⟩
      rwa [moments, List.append_nil]
  | note line next ih => exact ih (hrecord (.note line) hs) h
  | consult next ih => exact ih s.events hs h
  | require config file caller next ih =>
      obtain ⟨⟨a, s₁⟩, hput, hnext⟩ := Option.bind_eq_some_iff.mp h
      have hfirst := hinner ⟨config, file, caller⟩ s before hs hput
      rw [moments, hput]
      exact hfirst.append (ih a hfirst.last hnext)

theorem described_momentsWithin (hK : Kept t K) (run : Runtime) (depth : Nat) (q : Request)
    (s : LoadState) (before : List Moment) {a : Except LoadError Bool} {s' : LoadState}
    (hs : K before s) (h : q.put (requireWithin t run depth) s = some (a, s')) :
    Described K before (momentsWithin t run depth ⟨q, s⟩) s' := by
  induction depth generalizing q s before a s' with
  | zero => cases h
  | succ depth ih =>
      have hmet := q.met t run depth s
      rw [h] at hmet
      generalize hanswer : some (a, s') = answer at hmet
      rw [momentsWithin]
      cases hmet with
      | missing htarget =>
          cases hanswer
          rw [(Moment.isIdle_of_missing (m := ⟨q, s⟩) htarget).script?]
          exact .single hs (hK.missing (m := ⟨q, s⟩) hs htarget)
      | known htarget hknown =>
          cases hanswer
          rw [(Moment.isIdle_of_known (m := ⟨q, s⟩) htarget hknown).script?]
          exact .single hs (hK.known (m := ⟨q, s⟩) hs htarget hknown)
      | unreadable htarget hnew hread =>
          cases hanswer
          rw [(Moment.isIdle_of_unreadable (m := ⟨q, s⟩) htarget hread).script?]
          exact .single hs (hK.opened (m := ⟨q, s⟩) hs htarget hnew)
      | @handed path source htarget hnew hread =>
          obtain ⟨⟨r, s₁⟩, hexec, heq⟩ := Option.map_eq_some_iff.mp hanswer.symm
          cases heq
          rw [Moment.script?_of_read (m := ⟨q, s⟩) htarget hnew hread]
          have hhand : K (before ++ [⟨q, s⟩]) (s.handOver t path) :=
            hK.record (.executed path) (hK.opened (m := ⟨q, s⟩) hs htarget hnew)
          have hrest := Script.described_moments hK.record
            (fun q s before _ _ hs h => ih q s before hs h) (run q.config path source) hhand hexec
          exact (Described.single hs hhand).append hrest

end Described

/-! ## What is remembered -/

/-- The location of the file that a request leads to. -/
def Moment.location? (t : FileTree) (m : Moment) : Option Location :=
  (m.request.target? t).bind t.location?

/-- A state remembers the files that some requests led to, and no others. -/
def LoadState.Remembers (t : FileTree) (s : LoadState) (ms : List Moment) : Prop :=
  ∀ here, IsProper here → (s.contains (pathOf here) = true ↔ ∃ m ∈ ms, m.location? t = some here)

/-- Every request finds a state that remembers the files of the requests before it. -/
def InOrder (t : FileTree) : List Moment → List Moment → Prop
  | _, [] => True
  | before, m :: rest => m.state.Remembers t before ∧ InOrder t (before ++ [m]) rest

theorem inOrder_iff_along {t : FileTree} {before ms : List Moment} :
    InOrder t before ms ↔ Along Moment.state (fun before s => s.Remembers t before) before ms := by
  induction ms generalizing before with
  | nil => exact Iff.rfl
  | cons m ms ih => exact and_congr_right fun _ => ih

theorem remembers_of_inOrder {t : FileTree} {before ms after : List Moment} {m : Moment}
    (h : InOrder t before (ms ++ m :: after)) : m.state.Remembers t (before ++ ms) :=
  (inOrder_iff_along.mp h).at

theorem LoadState.remembers_empty (t : FileTree) : LoadState.empty.Remembers t [] := by
  intro here _
  constructor
  · intro h
    cases h
  · rintro ⟨m, hm, -⟩
    exact absurd hm List.not_mem_nil

namespace LoadState.Remembers

variable {t : FileTree} {s : LoadState} {before : List Moment} {m : Moment}

/-- A request that leads to no file leaves nothing to remember. -/
theorem of_location_none (h : s.Remembers t before) (hm : m.location? t = none) :
    s.Remembers t (before ++ [m]) := by
  intro there hthere
  rw [h there hthere]
  constructor
  · rintro ⟨m', hmem, hm'⟩
    exact ⟨m', List.mem_append_left _ hmem, hm'⟩
  · rintro ⟨m', hmem, hm'⟩
    rcases List.mem_append.mp hmem with hbefore | hlast
    · exact ⟨m', hbefore, hm'⟩
    · rw [List.mem_singleton.mp hlast, hm] at hm'
      cases hm'

/-- The file that a request leads to is remembered from then on, and nothing else is. -/
theorem mark (ht : IsProper t.home) (h : s.Remembers t before) {path : Path}
    (htarget : m.request.target? t = some path) :
    (s.mark (loadedKey t path)).Remembers t (before ++ [m]) := by
  obtain ⟨here, content, hhere, -⟩ :=
    FileTree.exists_location_of_isFile (m.request.isFile_of_target htarget)
  have hlocation : m.location? t = some here := by
    rw [Moment.location?, htarget, Option.bind_some, hhere]
  have hproper : IsProper here := FileTree.isProper_of_location ht hhere
  intro there hthere
  rw [loadedKey_of_location hhere, contains_mark, h there hthere,
    FileTree.alike_pathOf_iff hthere hproper]
  constructor
  · rintro (⟨m', hmem, hm'⟩ | rfl)
    · exact ⟨m', List.mem_append_left _ hmem, hm'⟩
    · exact ⟨m, List.mem_append_right _ List.mem_cons_self, hlocation⟩
  · rintro ⟨m', hmem, hm'⟩
    rcases List.mem_append.mp hmem with hbefore | hlast
    · exact .inl ⟨m', hbefore, hm'⟩
    · rw [List.mem_singleton.mp hlast, hlocation] at hm'
      exact .inr (Option.some.inj hm').symm

/-- A file that is remembered stays the only one that the request could add. -/
theorem of_known (ht : IsProper t.home) (h : s.Remembers t before) {path : Path}
    (htarget : m.request.target? t = some path) (hknown : s.contains (loadedKey t path) = true) :
    s.Remembers t (before ++ [m]) := by
  have hmark := h.mark ht htarget
  rwa [LoadState.mark, if_pos hknown] at hmark

theorem kept (ht : IsProper t.home) : Kept t fun before s => s.Remembers t before where
  record _ hs := hs
  missing hs htarget := hs.of_location_none (by rw [Moment.location?, htarget, Option.bind_none])
  known hs htarget hknown := hs.of_known ht htarget hknown
  opened hs htarget _ := hs.mark ht htarget

/-- Whether the file of a request is remembered tells whether an earlier one led to it. -/
theorem contains_iff (ht : IsProper t.home) (h : s.Remembers t before) {path : Path}
    (htarget : m.request.target? t = some path) :
    s.contains (loadedKey t path) = true
      ↔ ∃ here, m.location? t = some here ∧ ∃ m' ∈ before, m'.location? t = some here := by
  obtain ⟨here, content, hhere, -⟩ :=
    FileTree.exists_location_of_isFile (m.request.isFile_of_target htarget)
  have hlocation : m.location? t = some here := by
    rw [Moment.location?, htarget, Option.bind_some, hhere]
  rw [loadedKey_of_location hhere, h here (FileTree.isProper_of_location ht hhere), hlocation]
  constructor
  · rintro ⟨m', hmem, hm'⟩
    exact ⟨here, rfl, m', hmem, hm'⟩
  · rintro ⟨there, heq, m', hmem, hm'⟩
    cases heq
    exact ⟨m', hmem, hm'⟩

end LoadState.Remembers

/-! ## A run as the list of its requests -/

/-- The requests `ms` that follow on those in `before` stand in order, and `s` is the state behind
them. -/
structure Accounts (t : FileTree) (before ms : List Moment) (s : LoadState) : Prop where
  inOrder : InOrder t before ms
  remembers : s.Remembers t (before ++ ms)

theorem accounts_iff_described {t : FileTree} {before ms : List Moment} {s : LoadState} :
    Accounts t before ms s ↔ Described (fun before s => s.Remembers t before) before ms s :=
  ⟨fun h => ⟨inOrder_iff_along.mp h.inOrder, h.remembers⟩,
    fun h => ⟨inOrder_iff_along.mpr h.along, h.last⟩⟩

theorem Script.accounts_moments {t : FileTree} {meet : Requester} {inner : Moment → List Moment}
    (hinner : ∀ (q : Request) (s : LoadState) (before : List Moment) {a s'},
      s.Remembers t before → q.put meet s = some (a, s') → Accounts t before (inner ⟨q, s⟩) s')
    (script : Script) {s s' : LoadState} {before : List Moment} {r : Outcome}
    (hs : s.Remembers t before) (h : script.exec meet s = some (r, s')) :
    Accounts t before (script.moments meet inner s) s' :=
  accounts_iff_described.mpr <| Script.described_moments (fun _ hs => hs)
    (fun q s before _ _ hs hput => accounts_iff_described.mp (hinner q s before hs hput)) script hs h

theorem accounts_momentsWithin {t : FileTree} (ht : IsProper t.home) (run : Runtime) (depth : Nat)
    (q : Request) (s : LoadState) (before : List Moment) {a : Except LoadError Bool}
    {s' : LoadState} (hs : s.Remembers t before)
    (h : q.put (requireWithin t run depth) s = some (a, s')) :
    Accounts t before (momentsWithin t run depth ⟨q, s⟩) s' :=
  accounts_iff_described.mpr
    (described_momentsWithin (LoadState.Remembers.kept ht) run depth q s before hs h)

/-! ## Handing over -/

/-- The first thing that happens while a request is met is that a path is handed to the
runtime. -/
def Moment.HandsOver (m : Moment) (path : Path) (s' : LoadState) : Prop :=
  ∃ later, s'.events = later ++ .executed path :: m.state.events

theorem Moment.not_handsOver {m : Moment} {s' : LoadState} (h : s'.events = m.state.events)
    (path : Path) : ¬ m.HandsOver path s' := by
  rintro ⟨later, hlater⟩
  have hlength := congrArg List.length (h.symm.trans hlater)
  rw [List.length_append, List.length_cons] at hlength
  omega

theorem Moment.HandsOver.unique {m : Moment} {s' : LoadState} {path other : Path}
    (h : m.HandsOver path s') (h' : m.HandsOver other s') : path = other := by
  obtain ⟨later, hlater⟩ := h
  obtain ⟨later', hlater'⟩ := h'
  have heq := hlater.symm.trans hlater'
  have hlength := congrArg List.length heq
  simp only [List.length_append, List.length_cons] at hlength
  have htail := List.append_inj_right heq (by omega)
  cases htail
  rfl

theorem Moment.handsOver_of_extends {t : FileTree} {m : Moment} {s' : LoadState} {path : Path}
    (h : (m.state.handOver t path).Extends s') : m.HandsOver path s' := by
  obtain ⟨later, hlater⟩ := h.events
  refine ⟨later, hlater.trans ?_⟩
  rw [LoadState.handOver, LoadState.record, LoadState.events_mark]

/-- Whether an answer says that the file has run. -/
def SaysRun (a : Except LoadError Bool) : Prop :=
  a = .ok true ∨ ∃ path e, a = .error (.execution path e)

theorem saysRun_ranAnswer (path : Path) (r : Outcome) : SaysRun (ranAnswer path r) := by
  cases r with
  | ok v => exact .inl rfl
  | error e => exact .inr ⟨path, e, rfl⟩

/-- How a request is met that `before` stand before: `a` is the answer, `s'` the state behind. -/
structure Moment.Settled (t : FileTree) (before : List Moment) (m : Moment)
    (a : Except LoadError Bool) (s' : LoadState) : Prop where
  /-- No key is lost. -/
  keys : ∀ key, m.state.contains key = true → s'.contains key = true
  /-- The answer says that the file has run exactly when this request handed it over. -/
  saysRun_iff : SaysRun a ↔ ∃ path, m.HandsOver path s'
  /-- The request hands over the file that it leads to, if that can be read and is new. -/
  handsOver_iff : ∀ path, m.HandsOver path s' ↔
    m.request.target? t = some path ∧ (∃ source, t.read path = .ok source) ∧
      m.state.contains (loadedKey t path) = false
  /-- The request is turned down exactly when one before it led to the same file. -/
  known_iff : a = .ok false ↔
    ∃ here, m.location? t = some here ∧ ∃ m' ∈ before, m'.location? t = some here

/-- A request that hands nothing over is settled when its answer does not say otherwise. -/
theorem Moment.IsIdle.settled {t : FileTree} {before : List Moment} {m : Moment}
    {a : Except LoadError Bool} {s' : LoadState} (hidle : m.IsIdle t)
    (hs : m.state.Extends s') (hevents : s'.events = m.state.events) (hsilent : ¬ SaysRun a)
    (hknown : a = .ok false ↔
      ∃ here, m.location? t = some here ∧ ∃ m' ∈ before, m'.location? t = some here) :
    m.Settled t before a s' := by
  have hnone : ∀ path, ¬ m.HandsOver path s' := m.not_handsOver hevents
  refine ⟨hs.keys, ⟨fun h => absurd h hsilent, ?_⟩, fun path => ⟨?_, ?_⟩, hknown⟩
  · rintro ⟨path, hhand⟩
    exact absurd hhand (hnone path)
  · exact fun hhand => absurd hhand (hnone path)
  · rintro ⟨htarget, ⟨source, hread⟩, hnew⟩
    rw [hidle path source htarget hread] at hnew
    cases hnew

theorem Moment.settled {t : FileTree} (ht : IsProper t.home) {run : Runtime} {depth : Nat}
    {before : List Moment} {m : Moment} (hm : m.state.Remembers t before)
    {a : Except LoadError Bool} {s' : LoadState}
    (h : m.request.put (requireWithin t run (depth + 1)) m.state = some (a, s')) :
    m.Settled t before a s' := by
  have hextends := extends_requireWithin h
  -- a new file is none that an earlier request led to
  have hfirst : ∀ {path}, m.request.target? t = some path →
      m.state.contains (loadedKey t path) = false →
      ¬ ∃ here, m.location? t = some here ∧ ∃ m' ∈ before, m'.location? t = some here := by
    intro path htarget hnew hearlier
    rw [(hm.contains_iff ht htarget).mpr hearlier] at hnew
    cases hnew
  have hmet := m.request.met t run depth m.state
  rw [h] at hmet
  generalize hanswer : some (a, s') = answer at hmet
  cases hmet with
  | missing htarget =>
      cases hanswer
      refine (isIdle_of_missing htarget).settled hextends rfl ?_ ⟨fun hfalse => ?_, ?_⟩
      · rintro (hran | ⟨_, _, hran⟩) <;> cases hran
      · cases hfalse
      · rintro ⟨here, hhere, -⟩
        rw [location?, htarget] at hhere
        cases hhere
  | known htarget hknown =>
      cases hanswer
      refine (isIdle_of_known htarget hknown).settled hextends rfl ?_ ⟨fun _ => ?_, fun _ => rfl⟩
      · rintro (hran | ⟨_, _, hran⟩) <;> cases hran
      · exact (hm.contains_iff ht htarget).mp hknown
  | unreadable htarget hnew hread =>
      cases hanswer
      refine (isIdle_of_unreadable htarget hread).settled hextends (m.state.events_mark _) ?_
        ⟨fun hfalse => ?_, fun hearlier => absurd hearlier (hfirst htarget hnew)⟩
      · rintro (hran | ⟨_, _, hran⟩) <;> cases hran
      · cases hfalse
  | @handed path source htarget hnew hread =>
      obtain ⟨⟨r, s₁⟩, hexec, heq⟩ := Option.map_eq_some_iff.mp hanswer.symm
      cases heq
      have hhand : m.HandsOver path s' := m.handsOver_of_extends (Script.extends_exec hexec)
      refine ⟨hextends.keys, ⟨fun _ => ⟨path, hhand⟩, fun _ => saysRun_ranAnswer path r⟩,
        fun other => ⟨fun hother => ?_, ?_⟩,
        ⟨fun hfalse => ?_, fun hearlier => absurd hearlier (hfirst htarget hnew)⟩⟩
      · rw [hother.unique hhand]
        exact ⟨htarget, ⟨source, hread⟩, hnew⟩
      · rintro ⟨hother, -⟩
        rw [htarget] at hother
        cases hother
        exact hhand
      · cases r <;> cases hfalse

/-- Every run comes to an end, whatever the host and the files ask for, and no file runs twice in
it. Every request of the run is met, by every depth from the bound on in the same way, and it runs
its file exactly when the file can be read and no request before it led there. -/
theorem require_runs_once {t : FileTree} (ht : IsProper t.home) (run : Runtime) (host : Script) :
    ∃ result s, host.exec (require t run) .empty = some (result, s) ∧
      (s.executed.map t.location?).Nodup ∧
      ∀ before m after, requestsOf t run host = before ++ m :: after →
        ∃ a s', (∀ depth, depthBound t ≤ depth →
            m.request.put (requireWithin t run depth) m.state = some (a, s')) ∧
          m.Settled t before a s' := by
  have hmeet : ∀ (q : Request) (s : LoadState), t.unloaded s < depthBound t →
      ∃ r, q.put (requireWithin t run (depthBound t)) s = some r :=
    fun q s hs => exists_requireWithin q hs
  have hbound : t.unloaded .empty < depthBound t :=
    Nat.lt_succ_of_le (t.unloaded_le_fileCount .empty)
  obtain ⟨⟨result, s⟩, hexec⟩ := Script.exists_exec hmeet host hbound
  refine ⟨result, s, hexec, ((LoadState.RanOnce.empty t).exec hexec).nodup, ?_⟩
  intro before m after hrequests
  have haccounts : Accounts t [] (requestsOf t run host) s :=
    Script.accounts_moments (fun q s before _ _ => accounts_momentsWithin ht run _ q s before) host
      (LoadState.remembers_empty t) hexec
  have horder : InOrder t [] (before ++ m :: after) := hrequests ▸ haccounts.inOrder
  have hremembers : m.state.Remembers t before := remembers_of_inOrder horder
  obtain ⟨a, s', hanswer⟩ := exists_answer t run m.request m.state
  exact ⟨a, s', hanswer, m.settled ht hremembers (hanswer _ (Nat.le_refl _))⟩

/-- Two files that ask for each other, the second of which fails after that. -/
def quarrel : FileTree where
  home := ["home".toList]
  entries :=
    [(["home".toList, "a.js".toList], .file "require b".toUTF8),
     (["home".toList, "b.js".toList], .file "require a\nfail".toUTF8)]

/-- A host that asks for the first file, and then for the second one by another way. -/
def quarrelHost : Script :=
  .require ⟨[.ofString "."], "js"⟩ (.ofString "a") none fun _ =>
    .require ⟨[.ofString "", .ofString "/home/"], "js"⟩ (.ofString "b.txt") none fun _ =>
      .done (.ok .undefined)

theorem quarrel_runs_once :
    IsProper quarrel.home ∧ (requestsOf quarrel LineScript.runtime quarrelHost).length = 4 ∧
      ∃ result s, quarrelHost.exec (require quarrel LineScript.runtime) .empty = some (result, s) ∧
        s.executed = [.ofString "./b.js", .ofString "./a.js"] ∧
        (s.executed.map quarrel.location?).Nodup := by
  have hhome : IsProper quarrel.home := by
    intro name hname
    rw [List.mem_singleton.mp hname]
    exact ⟨by decide, by decide, by decide, by decide⟩
  have hexecuted : (quarrelHost.exec (require quarrel LineScript.runtime) .empty).map
      (fun r => r.2.executed) = some [.ofString "./b.js", .ofString "./a.js"] := by
    decide +kernel
  obtain ⟨result, s, hexec, hnodup, -⟩ :=
    require_runs_once hhome LineScript.runtime quarrelHost
  rw [hexec] at hexecuted
  exact ⟨hhome, by decide +kernel, result, s, hexec, Option.some.inj hexecuted, hnodup⟩

end ScriptHost.Loader
