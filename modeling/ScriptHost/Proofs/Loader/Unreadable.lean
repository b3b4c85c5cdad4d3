import ScriptHost.Proofs.Loader.RunOnce

/-!
# Files that could not be read

Files may be asked for in several rounds, between which the tree of files, the runtime and the
settings may change, while what is remembered stays (`callsOf`). A request for a file that is not
remembered marks it (`Call.Opens`), and then hands it to the runtime (`Call.Runs`) or fails to read
it (`Call.Spoils`); no other request marks anything, so the keys that are remembered are those that
some request has opened (`LoadState.Explained`, `traced_callsOf`).

So a request is turned down when a request before it has run its file, and also when one before it
could not read it. Main statement: `calls_accounted`.
-/

set_option autoImplicit false

namespace ScriptHost.Loader

/-! ## Rounds of requests -/

/-- A host that asks for files, with the tree of files that it finds and the runtime. -/
structure Round where
  tree : FileTree
  run : Runtime
  host : Script

/-- A request in some rounds, with the tree of files and the runtime of its round. -/
structure Call where
  tree : FileTree
  run : Runtime
  moment : Moment

/-- The state that a request finds. -/
def Call.state (c : Call) : LoadState := c.moment.state

/-- The requests of a round, in order, those made while a file runs behind the request for it. -/
def Round.calls (r : Round) (s : LoadState) : List Call :=
  (r.host.moments (require r.tree r.run) (momentsWithin r.tree r.run (depthBound r.tree)) s).map
    (Call.mk r.tree r.run)

/-- The state behind a round. -/
def Round.after? (r : Round) (s : LoadState) : Option LoadState :=
  (r.host.exec (require r.tree r.run) s).map Prod.snd

/-- The state behind some rounds. -/
def afterRounds? : List Round → LoadState → Option LoadState
  | [], s => some s
  | r :: rest, s => (r.after? s).bind (afterRounds? rest)

/-- The requests of some rounds, in order. -/
def callsOf : List Round → LoadState → List Call
  | [], _ => []
  | r :: rest, s => r.calls s ++ ((r.after? s).map (callsOf rest)).getD []

theorem Round.exists_after (r : Round) (s : LoadState) : ∃ s', r.after? s = some s' := by
  have hmeet : ∀ (q : Request) (s : LoadState), r.tree.unloaded s < depthBound r.tree →
      ∃ met, q.put (requireWithin r.tree r.run (depthBound r.tree)) s = some met :=
    fun q s hs => exists_requireWithin q hs
  obtain ⟨⟨result, s'⟩, hexec⟩ := Script.exists_exec hmeet r.host (s := s)
    (Nat.lt_succ_of_le (r.tree.unloaded_le_fileCount s))
  refine ⟨s', ?_⟩
  rw [after?, require, hexec]
  rfl

/-- Every round comes to an end. -/
theorem exists_afterRounds (rounds : List Round) (s : LoadState) :
    ∃ s', afterRounds? rounds s = some s' := by
  induction rounds generalizing s with
  | nil => exact ⟨s, rfl⟩
  | cons r rest ih =>
      obtain ⟨s₁, hs₁⟩ := r.exists_after s
      obtain ⟨s', hs'⟩ := ih s₁
      refine ⟨s', ?_⟩
      rw [afterRounds?, hs₁, Option.bind_some, hs']

/-! ## What becomes of a call -/

namespace Call

/-- The answer to a request, and the state behind it. -/
def Answers (c : Call) (a : Except LoadError Bool) (s' : LoadState) : Prop :=
  ∃ depth, c.moment.request.put (requireWithin c.tree c.run depth) c.state = some (a, s')

/-- The key of the file that a request leads to. -/
def key? (c : Call) : Option Path := (c.moment.request.target? c.tree).map (loadedKey c.tree)

/-- The request leads to the file of a key, and the key is not remembered. -/
def Opens (c : Call) (key : Path) : Prop :=
  (∃ k, c.key? = some k ∧ key.alike k = true) ∧ c.state.contains key = false

/-- The request hands the file of a key to the runtime. -/
def Runs (c : Call) (key : Path) : Prop :=
  ∃ a s' path, c.Answers a s' ∧ c.moment.HandsOver path s' ∧
    key.alike (loadedKey c.tree path) = true

/-- The request fails because the file of a key cannot be read. -/
def Spoils (c : Call) (key : Path) : Prop :=
  ∃ path e s', c.Answers (.error (.unreadable path e)) s' ∧
    key.alike (loadedKey c.tree path) = true

/-- What is answered does not depend on the depth. -/
theorem Answers.unique {c : Call} {a a' : Except LoadError Bool} {s s' : LoadState}
    (h : c.Answers a s) (h' : c.Answers a' s') : a = a' ∧ s = s' := by
  obtain ⟨depth, h⟩ := h
  obtain ⟨depth', h'⟩ := h'
  have hsame := (requireWithin_mono (Nat.le_max_left depth depth') h).symm.trans
    (requireWithin_mono (Nat.le_max_right depth depth') h')
  cases hsame
  exact ⟨rfl, rfl⟩

theorem exists_answers (c : Call) : ∃ a s', c.Answers a s' := by
  obtain ⟨a, s', h⟩ := exists_answer c.tree c.run c.moment.request c.state
  exact ⟨a, s', depthBound c.tree, h _ (Nat.le_refl _)⟩

/-- The ways in which a request is answered. -/
inductive Outcomes (c : Call) : Except LoadError Bool → LoadState → Prop
  | missing {name : Path} {searched : List Path} (hkey : c.key? = none) :
      Outcomes c (.error (.moduleNotFound name searched)) c.state
  | known {key : Path} (hkey : c.key? = some key) (hknown : c.state.contains key = true) :
      Outcomes c (.ok false) c.state
  | unreadable {path : Path} {e : FileError} (hkey : c.key? = some (loadedKey c.tree path))
      (hnew : c.state.contains (loadedKey c.tree path) = false) :
      Outcomes c (.error (.unreadable path e)) (c.state.mark (loadedKey c.tree path))
  | handed {path : Path} {r : Outcome} {s' : LoadState}
      (hkey : c.key? = some (loadedKey c.tree path))
      (hnew : c.state.contains (loadedKey c.tree path) = false)
      (hhand : c.moment.HandsOver path s') : Outcomes c (ranAnswer path r) s'

theorem Answers.outcomes {c : Call} {a : Except LoadError Bool} {s' : LoadState}
    (h : c.Answers a s') : c.Outcomes a s' := by
  obtain ⟨depth, h⟩ := h
  cases depth with
  | zero => cases h
  | succ depth =>
      have hmet := c.moment.request.met c.tree c.run depth c.state
      rw [h] at hmet
      generalize hanswer : some (a, s') = answer at hmet
      cases hmet with
      | missing htarget =>
          cases hanswer
          exact .missing (by rw [key?, htarget]; rfl)
      | known htarget hknown =>
          cases hanswer
          exact .known (by rw [key?, htarget]; rfl) hknown
      | unreadable htarget hnew hread =>
          cases hanswer
          exact .unreadable (by rw [key?, htarget]; rfl) hnew
      | handed htarget hnew hread =>
          obtain ⟨⟨r, s₁⟩, hexec, heq⟩ := Option.map_eq_some_iff.mp hanswer.symm
          cases heq
          exact .handed (by rw [key?, htarget]; rfl) hnew
            (Moment.handsOver_of_extends (Script.extends_exec hexec))

variable {c : Call} {key : Path}

/-- A request that cannot read its file marks it and does nothing else. -/
theorem Answers.of_unreadable {path : Path} {e : FileError} {s' : LoadState}
    (h : c.Answers (.error (.unreadable path e)) s') :
    c.key? = some (loadedKey c.tree path) ∧
      c.state.contains (loadedKey c.tree path) = false ∧
        s' = c.state.mark (loadedKey c.tree path) := by
  generalize ha : Except.error (LoadError.unreadable path e) = a at h
  cases h.outcomes with
  | missing hkey => cases ha
  | known hkey hknown => cases ha
  | unreadable hkey hnew =>
      cases ha
      exact ⟨hkey, hnew, rfl⟩
  | @handed other r _ hkey hnew hhand => cases r <;> cases ha

/-- A request hands over the file that it leads to, when its key is not remembered. -/
theorem Answers.of_handsOver {a : Except LoadError Bool} {s' : LoadState} {path : Path}
    (h : c.Answers a s') (hhand : c.moment.HandsOver path s') :
    c.key? = some (loadedKey c.tree path) ∧
      c.state.contains (loadedKey c.tree path) = false ∧ ∃ r, a = ranAnswer path r := by
  cases h.outcomes with
  | missing hkey => exact absurd hhand (Moment.not_handsOver rfl path)
  | known hkey hknown => exact absurd hhand (Moment.not_handsOver rfl path)
  | unreadable hkey hnew =>
      exact absurd hhand (Moment.not_handsOver (c.state.events_mark _) path)
  | @handed other r _ hkey hnew hhand' =>
      cases hhand.unique hhand'
      exact ⟨hkey, hnew, r, rfl⟩

theorem Runs.opens (h : c.Runs key) : c.Opens key := by
  obtain ⟨a, s', path, hanswer, hhand, halike⟩ := h
  obtain ⟨hkey, hnew, -⟩ := hanswer.of_handsOver hhand
  exact ⟨⟨_, hkey, halike⟩, by rw [c.state.contains_congr halike, hnew]⟩

theorem Spoils.opens (h : c.Spoils key) : c.Opens key := by
  obtain ⟨path, e, s', hanswer, halike⟩ := h
  obtain ⟨hkey, hnew, -⟩ := hanswer.of_unreadable
  exact ⟨⟨_, hkey, halike⟩, by rw [c.state.contains_congr halike, hnew]⟩

/-- A request that opens a file either runs it or cannot read it. -/
theorem opens_iff : c.Opens key ↔ c.Runs key ∨ c.Spoils key := by
  constructor
  · rintro ⟨⟨k, hk, halike⟩, hnew⟩
    obtain ⟨a, s', hanswer⟩ := c.exists_answers
    cases hanswer.outcomes with
    | missing hkey =>
        rw [hk] at hkey
        cases hkey
    | known hkey hknown =>
        cases hk.symm.trans hkey
        rw [c.state.contains_congr halike, hknown] at hnew
        cases hnew
    | unreadable hkey _ =>
        cases hk.symm.trans hkey
        exact .inr ⟨_, _, _, hanswer, halike⟩
    | handed hkey _ hhand =>
        cases hk.symm.trans hkey
        exact .inl ⟨_, _, _, hanswer, hhand, halike⟩
  · rintro (h | h)
    · exact h.opens
    · exact h.opens

/-- No request does both. -/
theorem Runs.not_spoils {other : Path} (h : c.Runs key) : ¬ c.Spoils other := by
  obtain ⟨a, s', path, hanswer, hhand, -⟩ := h
  rintro ⟨path', e, s'', hfail, -⟩
  obtain ⟨-, rfl⟩ := hanswer.unique hfail
  obtain ⟨-, -, rfl⟩ := hfail.of_unreadable
  exact Moment.not_handsOver (c.state.events_mark _) path hhand

end Call

/-! ## The keys that are remembered -/

/-- The keys that a state remembers are those that some requests have opened. -/
def LoadState.Explained (before : List Call) (s : LoadState) : Prop :=
  ∀ key, s.contains key = true ↔ ∃ c ∈ before, c.Opens key

namespace LoadState.Explained

variable {s s' : LoadState} {before : List Call}

theorem empty : LoadState.Explained [] .empty := by
  intro key
  constructor
  · intro h
    cases h
  · rintro ⟨c, hc, -⟩
    exact absurd hc List.not_mem_nil

/-- One more request adds the keys that it opens. -/
theorem append {c : Call} (h : s.Explained before)
    (hs : ∀ key, s'.contains key = true ↔ s.contains key = true ∨ c.Opens key) :
    s'.Explained (before ++ [c]) := by
  intro key
  rw [hs key, h key]
  constructor
  · rintro (⟨c', hc', hopens⟩ | hopens)
    · exact ⟨c', List.mem_append_left _ hc', hopens⟩
    · exact ⟨c, List.mem_append_right _ List.mem_cons_self, hopens⟩
  · rintro ⟨c', hc', hopens⟩
    rcases List.mem_append.mp hc' with hbefore | hlast
    · exact .inl ⟨c', hbefore, hopens⟩
    · cases List.mem_singleton.mp hlast
      exact .inr hopens

/-- A request that opens nothing adds no key. -/
theorem append_idle {c : Call} (h : s.Explained before) (hc : ∀ key, ¬ c.Opens key) :
    s.Explained (before ++ [c]) :=
  h.append fun key => ⟨.inl, fun hkey => hkey.resolve_right (hc key)⟩

theorem kept (t : FileTree) (run : Runtime) (before : List Call) :
    Kept t fun ms s => s.Explained (before ++ ms.map (Call.mk t run)) where
  record _ hs := hs
  missing {ms m} hs htarget := by
    rw [List.map_append, ← List.append_assoc]
    refine hs.append_idle ?_
    rintro key ⟨⟨k, hk, -⟩, -⟩
    rw [Call.key?, htarget] at hk
    cases hk
  known {ms m path} hs htarget hknown := by
    rw [List.map_append, ← List.append_assoc]
    -- the key of the file is remembered, so the request opens none
    refine hs.append_idle ?_
    rintro key ⟨⟨k, hk, halike⟩, hnew⟩
    rw [Call.key?, htarget] at hk
    cases hk
    have hsame : m.state.contains key = m.state.contains (loadedKey t path) :=
      m.state.contains_congr halike
    rw [Call.state, hsame, hknown] at hnew
    cases hnew
  opened {ms m path} hs htarget hnew := by
    rw [List.map_append, ← List.append_assoc]
    refine hs.append fun key => ?_
    have hkey : (Call.mk t run m).key? = some (loadedKey t path) := by
      rw [Call.key?, htarget]
      rfl
    -- a key that is alike is new as well, and the request opens it
    rw [LoadState.contains_mark]
    constructor
    · rintro (hold | halike)
      · exact .inl hold
      · exact .inr ⟨⟨_, hkey, halike⟩, (m.state.contains_congr halike).trans hnew⟩
    · rintro (hold | ⟨⟨k, hk, halike⟩, -⟩)
      · exact .inl hold
      · cases hkey.symm.trans hk
        exact .inr halike

end LoadState.Explained

/-- The requests `calls` that follow on those in `before` find states whose keys are explained by
the requests before. -/
abbrev Traced (before calls : List Call) : Prop :=
  Along Call.state (fun before s => s.Explained before) before calls

theorem traced_map {t : FileTree} {run : Runtime} {before : List Call} {ms ms' : List Moment}
    (h : Along Moment.state (fun ms s => s.Explained (before ++ ms.map (Call.mk t run))) ms ms') :
    Traced (before ++ ms.map (Call.mk t run)) (ms'.map (Call.mk t run)) := by
  induction ms' generalizing ms with
  | nil => trivial
  | cons m rest ih =>
      refine ⟨h.1, ?_⟩
      have hrest := ih h.2
      rwa [List.map_append, ← List.append_assoc] at hrest

theorem Round.traced_calls (r : Round) {s s' : LoadState} {before : List Call}
    (hs : s.Explained before) (h : r.after? s = some s') :
    Traced before (r.calls s) ∧ s'.Explained (before ++ r.calls s) := by
  obtain ⟨⟨result, s₁⟩, hexec, rfl⟩ := Option.map_eq_some_iff.mp h
  -- the round starts with none of its own requests behind those of the rounds before it
  have hkept := LoadState.Explained.kept r.tree r.run before
  have hs' : s.Explained (before ++ [].map (Call.mk r.tree r.run)) := by
    rwa [List.map_nil, List.append_nil]
  have hmoments := Script.described_moments
    (K := fun ms s => s.Explained (before ++ ms.map (Call.mk r.tree r.run))) hkept.record
    (fun q s ms _ _ => described_momentsWithin hkept r.run _ q s ms) r.host hs' hexec
  have htraced := traced_map hmoments.along
  rw [List.map_nil, List.append_nil] at htraced
  exact ⟨htraced, hmoments.last⟩

theorem traced_callsOf (rounds : List Round) {s : LoadState} {before : List Call}
    (hs : s.Explained before) : Traced before (callsOf rounds s) := by
  induction rounds generalizing s before with
  | nil => trivial
  | cons r rest ih =>
      obtain ⟨s', hs'⟩ := r.exists_after s
      obtain ⟨hfirst, hlast⟩ := r.traced_calls hs hs'
      rw [callsOf, hs']
      exact along_append.mpr ⟨hfirst, ih hlast⟩

/-- A key is opened by one request at most. -/
theorem Traced.eq_of_opens {before calls : List Call} (h : Traced before calls) {c c' : Call}
    (hc : c ∈ calls) (hc' : c' ∈ calls) {key : Path} (hopens : c.Opens key)
    (hopens' : c'.Opens key) : c = c' := by
  induction calls generalizing before with
  | nil => exact absurd hc List.not_mem_nil
  | cons first rest ih =>
      -- what the first request opens is remembered from then on
      have hlater : first.Opens key → ∀ later ∈ rest, ¬ later.Opens key := by
        intro hfirst later hmem hlater
        obtain ⟨ys, zs, rfl⟩ := List.append_of_mem hmem
        have hexplained : later.state.Explained (before ++ [first] ++ ys) := Along.at h.2
        have hknown := (hexplained key).mpr ⟨first, by simp, hfirst⟩
        rw [hlater.2] at hknown
        cases hknown
      rcases List.mem_cons.mp hc with rfl | hrest
      · rcases List.mem_cons.mp hc' with rfl | hrest'
        · rfl
        · exact absurd hopens' (hlater hopens c' hrest')
      · rcases List.mem_cons.mp hc' with rfl | hrest'
        · exact absurd hopens (hlater hopens' c hrest)
        · exact ih h.2 hrest hrest'

/-! ## Requests that are turned down -/

/-- What becomes of a request that those in `before` stand before: `a` is the answer, `s'` the
state behind. -/
structure Call.Accounted (before : List Call) (c : Call) (a : Except LoadError Bool)
    (s' : LoadState) : Prop where
  /-- The request is turned down exactly when one before it has run its file or failed to read
  it. -/
  turnedDown_iff : a = .ok false ↔
    ∃ key, c.key? = some key ∧ ∃ c' ∈ before, c'.Runs key ∨ c'.Spoils key
  /-- When it is turned down, its file has run before, unless one before it failed to read the
  file. -/
  ranBefore_iff : (a = .ok false → ∃ key, c.key? = some key ∧ ∃ c' ∈ before, c'.Runs key) ↔
    ∀ key, c.key? = some key → ∀ c' ∈ before, ¬ c'.Spoils key
  /-- A request that fails before anything is executed leaves what is remembered as it was, unless
  it failed to read the file. -/
  keepsLoaded_iff : (∃ e, a = .error e) → (∀ path, ¬ c.moment.HandsOver path s') →
    (s'.loaded = c.state.loaded ↔ ∀ path e, a ≠ .error (.unreadable path e))

theorem LoadState.loaded_mark {s : LoadState} {key : Path} (h : s.contains key = false) :
    (s.mark key).loaded = key :: s.loaded := by
  rw [mark, h, if_neg Bool.false_ne_true]

/-- A request is turned down exactly when the key of its file is remembered. -/
theorem Call.Answers.known_iff {c : Call} {a : Except LoadError Bool} {s' : LoadState}
    (h : c.Answers a s') :
    a = .ok false ↔ ∃ key, c.key? = some key ∧ c.state.contains key = true := by
  have hnew_iff : ∀ {key}, c.key? = some key → c.state.contains key = false → a ≠ .ok false →
      (a = .ok false ↔ ∃ key, c.key? = some key ∧ c.state.contains key = true) := by
    intro key hkey hnew hother
    refine ⟨fun hturned => absurd hturned hother, ?_⟩
    rintro ⟨key', hkey', hknown⟩
    cases hkey.symm.trans hkey'
    rw [hnew] at hknown
    cases hknown
  cases h.outcomes with
  | missing hkey =>
      constructor
      · intro hturned
        cases hturned
      · rintro ⟨key, hkey', -⟩
        cases hkey.symm.trans hkey'
  | known hkey hknown => exact ⟨fun _ => ⟨_, hkey, hknown⟩, fun _ => rfl⟩
  | unreadable hkey hnew => exact hnew_iff hkey hnew nofun
  | @handed path r _ hkey hnew hhand => exact hnew_iff hkey hnew (by cases r <;> exact nofun)

theorem Call.Answers.turnedDown_iff {before : List Call} {c : Call} {a : Except LoadError Bool}
    {s' : LoadState} (hs : c.state.Explained before) (h : c.Answers a s') :
    a = .ok false ↔ ∃ key, c.key? = some key ∧ ∃ c' ∈ before, c'.Runs key ∨ c'.Spoils key := by
  rw [h.known_iff]
  refine exists_congr fun key => and_congr_right fun _ => ?_
  simp only [hs key, Call.opens_iff]

theorem Call.Answers.ranBefore_iff {before : List Call} {c : Call} {a : Except LoadError Bool}
    {s' : LoadState} (hbefore : Traced [] before) (hs : c.state.Explained before)
    (h : c.Answers a s') :
    (a = .ok false → ∃ key, c.key? = some key ∧ ∃ c' ∈ before, c'.Runs key) ↔
      ∀ key, c.key? = some key → ∀ c' ∈ before, ¬ c'.Spoils key := by
  constructor
  · intro hran key hkey c' hmem hspoils
    have hturned := (h.turnedDown_iff hs).mpr ⟨key, hkey, c', hmem, .inr hspoils⟩
    obtain ⟨key', hkey', c'', hmem', hruns⟩ := hran hturned
    cases hkey.symm.trans hkey'
    -- one request would both have run the file and have failed to read it
    cases hbefore.eq_of_opens hmem hmem' hspoils.opens hruns.opens
    exact hruns.not_spoils hspoils
  · intro hnone hturned
    obtain ⟨key, hkey, c', hmem, hruns | hspoils⟩ := (h.turnedDown_iff hs).mp hturned
    · exact ⟨key, hkey, c', hmem, hruns⟩
    · exact absurd hspoils (hnone key hkey c' hmem)

theorem Call.Answers.keepsLoaded_iff {c : Call} {a : Except LoadError Bool} {s' : LoadState}
    (h : c.Answers a s') (herror : ∃ e, a = .error e)
    (hidle : ∀ path, ¬ c.moment.HandsOver path s') :
    s'.loaded = c.state.loaded ↔ ∀ path e, a ≠ .error (.unreadable path e) := by
  obtain ⟨e, rfl⟩ := herror
  generalize ha : Except.error e = a at h
  cases h.outcomes with
  | missing hkey => exact ⟨fun _ _ _ => nofun, fun _ => rfl⟩
  | known hkey hknown => cases ha
  | @unreadable path e hkey hnew =>
      -- the mark was set before the file was read, and it stays
      rw [LoadState.loaded_mark hnew]
      constructor
      · intro hsame
        have hlength := congrArg List.length hsame
        rw [List.length_cons] at hlength
        omega
      · exact fun hnone => absurd rfl (hnone path e)
  | handed hkey hnew hhand => exact absurd hhand (hidle _)

/-- Every round of requests comes to an end, whatever the trees of files, the runtimes and the
hosts, and a request is turned down exactly when one before it has run its file or failed to read
it. So it is turned down after its file has run, and a request that fails before anything is
executed leaves what is remembered as it was, exactly when no reading has failed. -/
theorem calls_accounted (rounds : List Round) :
    (∃ s, afterRounds? rounds .empty = some s) ∧
      ∀ before c after, callsOf rounds .empty = before ++ c :: after →
        ∃ a s', c.Answers a s' ∧ c.Accounted before a s' := by
  refine ⟨exists_afterRounds rounds .empty, ?_⟩
  intro before c after hcalls
  have htraced : Traced [] (before ++ c :: after) := hcalls ▸ traced_callsOf rounds .empty
  have hexplained : c.state.Explained before := htraced.at
  have hbefore : Traced [] before := (along_append.mp htraced).1
  obtain ⟨a, s', hanswer⟩ := c.exists_answers
  exact ⟨a, s', hanswer, hanswer.turnedDown_iff hexplained,
    hanswer.ranBefore_iff hbefore hexplained, hanswer.keepsLoaded_iff⟩

/-- A tree of one file with some content. -/
def oneFile (content : ByteArray) : FileTree where
  home := ["home".toList]
  entries := [(["home".toList, "a.js".toList], .file content)]

/-- The file with a byte that is no text. -/
def garbled : FileTree := oneFile ⟨#[0xff]⟩

/-- A host that asks for the file a number of times, whatever the answers. -/
def askTimes : Nat → Script
  | 0 => .done (.ok .undefined)
  | n + 1 => .require ⟨[.ofString "."], "js"⟩ (.ofString "a") none fun _ => askTimes n

/-- The file cannot be read in the first round. -/
def mendedRounds : List Round :=
  [⟨garbled, LineScript.runtime, askTimes 1⟩,
    ⟨oneFile "return 1".toUTF8, LineScript.runtime, askTimes 1⟩]

/-- A file that could not be read and is mended stays turned down. -/
theorem mended_accounted :
    ∃ first second s', callsOf mendedRounds .empty = [first] ++ second :: [] ∧
      second.tree.isFile (.ofString "./a.js") = true ∧ second.Answers (.ok false) s' ∧
        second.Accounted [first] (.ok false) s' := by
  have hcalls : ∃ first second, callsOf mendedRounds .empty = [first] ++ second :: [] ∧
      second.tree.isFile (.ofString "./a.js") = true ∧ ∃ s', second.Answers (.ok false) s' :=
    ⟨_, _, rfl, rfl, _, 1, rfl⟩
  obtain ⟨first, second, hcalls, hfile, s', hturned⟩ := hcalls
  obtain ⟨-, hall⟩ := calls_accounted mendedRounds
  obtain ⟨a, s'', hanswer, haccounted⟩ := hall [first] second [] hcalls
  obtain ⟨rfl, rfl⟩ := hanswer.unique hturned
  exact ⟨first, second, _, hcalls, hfile, hturned, haccounted⟩

/-- A file that cannot be read is not executed, and yet turned down when it is asked for again. -/
theorem garbled_turnedDown :
    ∃ first second s,
      callsOf [⟨garbled, LineScript.runtime, askTimes 2⟩] .empty = [first, second] ∧
        first.Answers (.error (.unreadable (.ofString "./a.js") .notText)) s ∧
        (∀ path, ¬ first.moment.HandsOver path s) ∧ s.loaded ≠ first.state.loaded ∧
        second.Answers (.ok false) s ∧ s.executed = [] := by
  refine ⟨_, _, LoadState.empty.mark (.ofString "/home/a.js"), rfl, ⟨1, rfl⟩, ?_, ?_, ⟨1, rfl⟩, rfl⟩
  · exact Moment.not_handsOver rfl
  · decide

end ScriptHost.Loader
