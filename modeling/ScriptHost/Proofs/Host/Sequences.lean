import ScriptHost.Proofs.Host.Failures
import ScriptHost.Proofs.Host.MemberFunctions

/-!
# Sequences of values

The sequence of an object is made by lookups, one after the other: of its elements if it has a
length, otherwise of its members if it lists any. `Program.Makes` says what a program returns and
which entries it makes itself on the way, and `Action.Gathers` that lookups one after the other all
give a value. A program goes through lookups in turn (`Action.InTurn`) if it gives what they give,
and fails with the first that fails, in the store that this one leaves and after no other entries
than those of the lookups up to it.

Main statement: for each value, what its sequence is (`Store.toSequence_elementwise`).
-/

set_option autoImplicit false

namespace ScriptHost

/-! ## What programs make -/

theorem Store.enter_mono {m n : Nat} (hmn : m ≤ n) {e : Entry} {s : Store} {r : e.Reply × Store}
    (h : Store.enter m e s = some r) : Store.enter n e s = some r := by
  induction hmn with
  | refl => exact h
  | step _ ih => exact Store.enter_succ ih

namespace Program

variable {α β : Type} {p : Program α} {s s' : Store} {a : α} {own : List Entry}

/-- The entries that a program makes itself are the same at every depth at which it comes to an
end. -/
theorem ownEntries_mono {m n : Nat} (hmn : m ≤ n) {r : α × Store} (h : p.runIn m s = some r) :
    p.ownEntries n s = p.ownEntries m s := by
  induction p generalizing s with
  | done a => rfl
  | query q next ih => exact ih (s.answer q).1 h
  | enter e next ih =>
      obtain ⟨⟨b, s₁⟩, hfirst, hnext⟩ := Option.bind_eq_some_iff.mp h
      rw [ownEntries, ownEntries, entries, entries, hfirst, Store.enter_mono hmn hfirst]
      exact congrArg _ (ih b hnext)

/-- The entries of programs in sequence are those of the first and then those of the second. -/
theorem ownEntries_bind {depth : Nat} {f : α → Program β} {s₁ : Store}
    (h : p.runIn depth s = some (a, s₁)) :
    (bind p f).ownEntries depth s = p.ownEntries depth s ++ (f a).ownEntries depth s₁ := by
  induction p generalizing s with
  | done b =>
      cases h
      rfl
  | query q next ih => exact ih (s.answer q).1 h
  | enter e next ih =>
      obtain ⟨⟨b, s₂⟩, hfirst, hnext⟩ := Option.bind_eq_some_iff.mp h
      rw [bind, ownEntries, ownEntries, entries, entries, hfirst]
      exact congrArg _ (ih b hnext)

/-- The program, run in the first store, makes some entries itself, in order, returns the result
and leaves the second store behind. -/
def Makes (p : Program α) (s : Store) (own : List Entry) (a : α) (s' : Store) : Prop :=
  ∃ depth, p.runIn depth s = some (a, s') ∧ p.ownEntries depth s = own

theorem Makes.returns (h : p.Makes s own a s') : p.Returns s a s' := by
  obtain ⟨depth, hrun, _⟩ := h
  exact ⟨depth, hrun⟩

theorem makes_done_iff {b : α} : (done b).Makes s own a s' ↔ own = [] ∧ a = b ∧ s' = s := by
  constructor
  · rintro ⟨depth, hrun, hown⟩
    cases hrun
    exact ⟨hown.symm, rfl, rfl⟩
  · rintro ⟨rfl, rfl, rfl⟩
    exact ⟨0, rfl, rfl⟩

/-- Programs in sequence make their entries one after the other. -/
theorem makes_bind_iff {f : α → Program β} {b : β} :
    (bind p f).Makes s own b s'
      ↔ ∃ a s₁ own₁ own₂, p.Makes s own₁ a s₁ ∧ (f a).Makes s₁ own₂ b s' ∧ own = own₁ ++ own₂ := by
  constructor
  · rintro ⟨depth, hrun, rfl⟩
    obtain ⟨a, s₁, hfirst, hnext⟩ := runIn_bind_eq_some_iff.mp hrun
    exact ⟨a, s₁, _, _, ⟨depth, hfirst, rfl⟩, ⟨depth, hnext, rfl⟩, ownEntries_bind hfirst⟩
  · rintro ⟨a, s₁, _, _, ⟨m, hm, rfl⟩, ⟨n, hn, rfl⟩, rfl⟩
    have hfirst := runIn_mono (Nat.le_max_left m n) hm
    have hnext := runIn_mono (Nat.le_max_right m n) hn
    refine ⟨max m n, runIn_bind_eq_some_iff.mpr ⟨a, s₁, hfirst, hnext⟩, ?_⟩
    rw [ownEntries_bind hfirst, ownEntries_mono (Nat.le_max_left m n) hm,
      ownEntries_mono (Nat.le_max_right m n) hn]

/-- A program that ends in a function of a result makes the entries that lead to the result. -/
theorem makes_bind_done_iff {f : α → β} {b : β} :
    (bind p fun a => done (f a)).Makes s own b s' ↔ ∃ a, p.Makes s own a s' ∧ b = f a := by
  rw [makes_bind_iff]
  constructor
  · rintro ⟨a, s₁, own₁, own₂, hp, hdone, rfl⟩
    obtain ⟨rfl, rfl, rfl⟩ := makes_done_iff.mp hdone
    exact ⟨a, (List.append_nil own₁).symm ▸ hp, rfl⟩
  · rintro ⟨a, hp, rfl⟩
    exact ⟨a, s', own, [], hp, makes_done_iff.mpr ⟨rfl, rfl, rfl⟩, (List.append_nil own).symm⟩

theorem Makes.unique (h : p.Makes s own a s') {own' : List Entry} {b : α} {s'' : Store}
    (h' : p.Makes s own' b s'') : own' = own ∧ b = a ∧ s'' = s' := by
  obtain ⟨hresult, hstore⟩ := h.returns.unique h'.returns
  obtain ⟨m, hm, rfl⟩ := h
  obtain ⟨n, hn, rfl⟩ := h'
  refine ⟨?_, hresult, hstore⟩
  rw [← ownEntries_mono (Nat.le_max_left m n) hm, ownEntries_mono (Nat.le_max_right m n) hn]

/-- Behind a program that makes no entries, all entries are those of what follows. -/
theorem Makes.makes_bind_iff {s₁ : Store} (h : p.Makes s [] a s₁) {f : α → Program β} {b : β} :
    (bind p f).Makes s own b s' ↔ (f a).Makes s₁ own b s' := by
  rw [Program.makes_bind_iff]
  constructor
  · rintro ⟨a', s₂, own₁, own₂, hfirst, hnext, rfl⟩
    obtain ⟨rfl, rfl, rfl⟩ := h.unique hfirst
    exact hnext
  · exact fun hnext => ⟨a, s₁, [], own, h, hnext, rfl⟩

end Program

/-! ## Lookups in turn -/

namespace Action

variable {α β : Type} {s s₁ s' : Store} {own : List Entry}

/-- An action after another one is not begun when the first fails. -/
theorem makes_bind_iff {p : Action α} {f : α → Action β} {result : Except HostError β} :
    (p >>= f).run.Makes s own result s'
      ↔ ∃ r s₁ own₁ own₂, p.run.Makes s own₁ r s₁
        ∧ (match r with
          | .ok a => (f a).run
          | .error e => .done (.error e)).Makes s₁ own₂ result s'
        ∧ own = own₁ ++ own₂ := by
  refine (Program.makes_bind_iff (p := p.run)).trans (exists_congr fun r => ?_)
  cases r <;> exact Iff.rfl

theorem makes_bind_pure_iff {p : Action α} {f : α → β} {result : Except HostError β} :
    (do let a ← p; return f a : Action β).run.Makes s own result s'
      ↔ ∃ r, p.run.Makes s own r s' ∧ result = r.map f := by
  have hrun : (do let a ← p; return f a : Action β).run
      = Program.bind p.run fun r => .done (r.map f) :=
    congrArg (Program.bind p.run) (funext fun r => by cases r <;> rfl)
  rw [hrun]
  exact Program.makes_bind_done_iff

/-- Lookups that are made one after the other and all give something: the entries that they make,
what they give, and the store that the last one leaves. -/
inductive Gathers (lookup : α → Action β) :
    List α → Store → List Entry → List β → Store → Prop
  | nil {s : Store} : Gathers lookup [] s [] [] s
  | cons {a : α} {as : List α} {s s₁ s' : Store} {own own' : List Entry} {b : β} {bs : List β}
      (h : (lookup a).run.Makes s own (.ok b) s₁) (hrest : Gathers lookup as s₁ own' bs s') :
      Gathers lookup (a :: as) s (own ++ own') (b :: bs) s'

variable {lookup : α → Action β} {as : List α} {bs : List β}

theorem Gathers.length_eq (h : Gathers lookup as s own bs s') : bs.length = as.length := by
  induction h with
  | nil => rfl
  | cons _ _ ih => rw [List.length_cons, List.length_cons, ih]

/-- Lookups of which one fails behind others that give something: the entries that they make up to
this one, its error, and the store that it leaves. -/
def FailsFirst (lookup : α → Action β) (as : List α) (s : Store) (own : List Entry) (e : HostError)
    (s' : Store) : Prop :=
  ∃ before a after own₁ bs s₁ own₂, as = before ++ a :: after
    ∧ Gathers lookup before s own₁ bs s₁
    ∧ (lookup a).run.Makes s₁ own₂ (.error e) s' ∧ own = own₁ ++ own₂

/-- Each lookup that is made when all before it give something comes to an end. -/
def EachEnds (lookup : α → Action β) (as : List α) (s : Store) : Prop :=
  ∀ (before : List α) {a : α} {after : List α}, as = before ++ a :: after →
    ∀ {own : List Entry} {bs : List β} {s₁ : Store}, Gathers lookup before s own bs s₁ →
      ∃ own' r s', (lookup a).run.Makes s₁ own' r s'

/-- An action, run in the first store, gives what some lookups give that are made one after the
other from the second store on, and fails with the first that fails. -/
structure InTurn (p : Action (List β)) (s : Store) (lookup : α → Action β) (as : List α)
    (s₁ : Store) : Prop where
  /-- It succeeds just when all lookups give something. -/
  ok_iff {own : List Entry} {bs : List β} {s' : Store} :
    p.run.Makes s own (.ok bs) s' ↔ Gathers lookup as s₁ own bs s'
  length_eq {own : List Entry} {bs : List β} {s' : Store} (h : p.run.Makes s own (.ok bs) s') :
    bs.length = as.length
  /-- The error is that of the first lookup that fails, and no lookup behind it is made. -/
  error_iff {own : List Entry} {e : HostError} {s' : Store} :
    p.run.Makes s own (.error e) s' ↔ FailsFirst lookup as s₁ own e s'
  /-- It comes to an end unless a lookup does not. -/
  ends (h : EachEnds lookup as s₁) : ∃ own result s', p.run.Makes s own result s'

/-- Behind the first of some lookups nothing is done if it fails, and otherwise the others are
made. -/
theorem makes_mapM_cons_iff {a : α} {result : Except HostError (List β)} :
    ((a :: as).mapM lookup).run.Makes s own result s'
      ↔ ∃ r s₁ own₁ own₂, (lookup a).run.Makes s own₁ r s₁ ∧ own = own₁ ++ own₂
        ∧ match r with
          | .error e => own₂ = [] ∧ result = .error e ∧ s' = s₁
          | .ok b => ∃ rest, (as.mapM lookup).run.Makes s₁ own₂ rest s'
              ∧ result = rest.map (b :: ·) := by
  rw [List.mapM_cons, makes_bind_iff]
  refine exists_congr fun r => exists_congr fun s₁ => exists_congr fun own₁ =>
    exists_congr fun own₂ => and_congr_right fun _ => and_comm.trans (and_congr_right fun _ => ?_)
  cases r with
  | error e => exact Program.makes_done_iff
  | ok b => exact makes_bind_pure_iff

theorem makes_mapM_ok_iff :
    (as.mapM lookup).run.Makes s own (.ok bs) s' ↔ Gathers lookup as s own bs s' := by
  induction as generalizing s own bs with
  | nil =>
      constructor
      · intro h
        obtain ⟨rfl, heq, rfl⟩ := Program.makes_done_iff.mp h
        cases heq
        exact .nil
      · rintro ⟨⟩
        exact Program.makes_done_iff.mpr ⟨rfl, rfl, rfl⟩
  | cons a as ih =>
      rw [makes_mapM_cons_iff]
      constructor
      · rintro ⟨r, s₁, own₁, own₂, hfirst, rfl, hrest⟩
        cases r with
        | error e =>
            obtain ⟨_, heq, _⟩ := hrest
            cases heq
        | ok b =>
            obtain ⟨rest, hothers, heq⟩ := hrest
            cases rest with
            | error e => cases heq
            | ok bs =>
                cases heq
                exact .cons hfirst (ih.mp hothers)
      · rintro (_ | ⟨hfirst, hothers⟩)
        exact ⟨_, _, _, _, hfirst, rfl, _, ih.mpr hothers, rfl⟩

theorem makes_mapM_error_iff {e : HostError} :
    (as.mapM lookup).run.Makes s own (.error e) s' ↔ FailsFirst lookup as s own e s' := by
  induction as generalizing s own with
  | nil =>
      constructor
      · intro h
        obtain ⟨_, heq, _⟩ := Program.makes_done_iff.mp h
        cases heq
      · rintro ⟨before, a, after, _, _, _, _, heq, _⟩
        cases before <;> cases heq
  | cons a as ih =>
      rw [makes_mapM_cons_iff]
      -- the lookup that fails is the first one, or stands among the others
      constructor
      · rintro ⟨r, s₁, own₁, own₂, hfirst, rfl, hrest⟩
        cases r with
        | error e' =>
            obtain ⟨rfl, heq, rfl⟩ := hrest
            cases heq
            exact ⟨[], a, as, [], [], s, own₁, rfl, .nil, hfirst, List.append_nil own₁⟩
        | ok b =>
            obtain ⟨rest, hothers, heq⟩ := hrest
            cases rest with
            | ok bs => cases heq
            | error e' =>
                cases heq
                obtain ⟨before, a', after, own₃, bs, s₂, own₄, rfl, hbefore, hfails, rfl⟩ :=
                  ih.mp hothers
                exact ⟨a :: before, a', after, _, _, s₂, own₄, rfl, .cons hfirst hbefore, hfails,
                  (List.append_assoc ..).symm⟩
      · rintro ⟨before, a', after, own₁, bs, s₁, own₂, heq, hbefore, hfails, rfl⟩
        cases hbefore with
        | nil =>
            cases heq
            exact ⟨.error e, s', own₂, [], hfails, (List.append_nil own₂).symm, rfl, rfl, rfl⟩
        | cons hfirst hbefore =>
            cases heq
            exact ⟨_, _, _, _, hfirst, List.append_assoc .., .error e,
              ih.mpr ⟨_, a', after, _, _, s₁, own₂, rfl, hbefore, hfails, rfl⟩, rfl⟩

theorem EachEnds.makes_mapM (h : EachEnds lookup as s) :
    ∃ own result s', (as.mapM lookup).run.Makes s own result s' := by
  induction as generalizing s with
  | nil => exact ⟨_, _, _, Program.makes_done_iff.mpr ⟨rfl, rfl, rfl⟩⟩
  | cons a as ih =>
      simp only [makes_mapM_cons_iff]
      obtain ⟨own, r, s₁, hfirst⟩ := h [] rfl .nil
      cases r with
      | error e => exact ⟨_, _, _, _, _, own, [], hfirst, rfl, rfl, rfl, rfl⟩
      | ok b =>
          have hrest : EachEnds lookup as s₁ := by
            rintro before a' after rfl own' bs s₂ hbefore
            exact h (a :: before) rfl (.cons hfirst hbefore)
          obtain ⟨own', rest, s', hothers⟩ := ih hrest
          exact ⟨_, _, _, _, _, own, own', hfirst, rfl, rest, hothers, rfl⟩

/-- What does the same as mapping a lookup over a list goes through the lookups in turn. -/
theorem inTurn_of_makes_iff {p : Action (List β)}
    (h : ∀ {own : List Entry} {result : Except HostError (List β)} {s' : Store},
      p.run.Makes s own result s' ↔ (as.mapM lookup).run.Makes s₁ own result s') :
    p.InTurn s lookup as s₁ where
  ok_iff := h.trans makes_mapM_ok_iff
  length_eq := fun hp => (makes_mapM_ok_iff.mp (h.mp hp)).length_eq
  error_iff := h.trans makes_mapM_error_iff
  ends := fun hends => by
    obtain ⟨own, result, s', hmakes⟩ := hends.makes_mapM
    exact ⟨own, result, s', h.mpr hmakes⟩

end Action

/-! ## Elements -/

/-- Reading an element of an object. -/
def elementOf (o : ObjectId) (index : Nat) : Action Value :=
  Action.ofProgram (.run (.operate o (.element index)))

theorem elementsFrom_eq_mapM (o : ObjectId) (index count : Nat) :
    elementsFrom o index count = (List.range' index count).mapM (elementOf o) := by
  induction count generalizing index with
  | zero => rfl
  | succ count ih =>
      rw [elementsFrom, List.range'_succ, List.mapM_cons, ih]
      rfl

/-! ## Members -/

/-- The pair of a name and the member with the name. -/
def memberPair (o : ObjectId) (name : String) : Action Value := do
  let value ← Action.ofProgram (member o name)
  return .array [.string name, value]

theorem makes_memberPair_iff {o : ObjectId} {name : String} {s s' : Store} {own : List Entry}
    {result : Outcome} :
    (memberPair o name).run.Makes s own result s'
      ↔ ∃ r, (member o name).Makes s own r s'
        ∧ result = r.map fun value => .array [.string name, value] :=
  Action.makes_bind_pure_iff

namespace Cursor

variable {c c' : Cursor} {s s₁ s' : Store} {own : List Entry} {o : ObjectId}

theorem makes_advance_end_iff (h : c.names[c.position]? = none)
    {r : Except HostError (Option Member) × Cursor} :
    c.advance.Makes s own r s' ↔ own = [] ∧ r = (.ok none, c) ∧ s' = s := by
  rw [advance, h]
  exact Program.makes_done_iff

/-- With values, a step makes the entries that looking up the member of the next name makes. -/
theorem makes_advance_pair_iff {symbol : SymbolId} (h : c.names[c.position]? = some symbol)
    (hsource : c.source = some o) {r : Except HostError (Option Member) × Cursor} :
    c.advance.Makes s own r s'
      ↔ ∃ result, (member o (s.symbolText symbol)).Makes s own result s'
        ∧ r = (result.map fun value => some (.pair symbol value), c.passed) := by
  rw [advance, h]
  show (Program.bind (c.item symbol) _).Makes s own r s' ↔ _
  rw [item, hsource]
  show (Program.bind (Program.bind (member o (s.symbolText symbol)) _) _).Makes s own r s' ↔ _
  rw [Program.bind_assoc]
  refine Program.makes_bind_done_iff.trans (exists_congr fun result => and_congr_right fun _ => ?_)
  cases result <;> exact Iff.rfl

/-- What is done behind a step that is made for pairs: after a failure and at the end nothing, and
otherwise the pairs of the steps behind it are made, with the pair of this step in front. -/
theorem makes_pairs_succ_iff {steps : Nat} {result : Except HostError (List Value)} :
    (c.pairs (steps + 1)).run.Makes s own result s'
      ↔ ∃ r c' s₁ own₁ own₂, c.advance.Makes s own₁ (r, c') s₁ ∧ own = own₁ ++ own₂
        ∧ match r with
          | .error e => own₂ = [] ∧ result = .error e ∧ s' = s₁
          | .ok none => own₂ = [] ∧ result = .ok [] ∧ s' = s₁
          | .ok (some (.name _)) => (c'.pairs steps).run.Makes s₁ own₂ result s'
          | .ok (some (.pair symbol value)) => ∃ rest, (c'.pairs steps).run.Makes s₁ own₂ rest s'
              ∧ result = rest.map (.array [.string (s₁.symbolText symbol), value] :: ·) := by
  rw [Cursor.pairs, Action.run_lift_bind, Program.makes_bind_iff, Prod.exists]
  refine exists_congr fun r => exists_congr fun c' => exists_congr fun s₁ =>
    exists_congr fun own₁ => exists_congr fun own₂ => and_congr_right fun _ =>
      and_comm.trans (and_congr_right fun _ => ?_)
  rcases r with e | (_ | (symbol | ⟨symbol, value⟩))
  · exact Program.makes_done_iff
  · exact Program.makes_done_iff
  · exact Iff.rfl
  · exact Action.makes_bind_pure_iff

/-- The pairs for the names that are left are looked up one after the other. -/
theorem makes_pairs_iff (hsource : c.source = some o) {texts : List String}
    (hspells : s.Spells (c.names.drop c.position) texts)
    {result : Except HostError (List Value)} :
    (c.pairs texts.length).run.Makes s own result s'
      ↔ (texts.mapM (memberPair o)).run.Makes s own result s' := by
  induction texts generalizing c s own result with
  | nil => exact Iff.rfl
  | cons text texts ih =>
      obtain ⟨symbol, hfirst, htext⟩ := hspells.exists_getElem? (k := 0) rfl
      have hnext : c.names[c.position]? = some symbol := by rwa [List.getElem?_drop] at hfirst
      have hadvance : ∀ {own r s₁}, c.advance.Makes s own r s₁
          ↔ ∃ value, (member o text).Makes s own value s₁
            ∧ r = (value.map fun v => some (.pair symbol v), c.passed) :=
        htext ▸ makes_advance_pair_iff hnext hsource
      -- the symbol still stands for the text when the value has been looked up
      have hlater : ∀ {own value s₁}, (member o text).Makes s own value s₁ →
          s₁.symbolText symbol = text ∧ ∀ {own result},
            (c.passed.pairs texts.length).run.Makes s₁ own result s'
              ↔ (texts.mapM (memberPair o)).run.Makes s₁ own result s' := by
        intro own value s₁ hmember
        obtain ⟨log, hevolves⟩ := hmember.returns.evolves
        have hpassed : c.passed.source = some o := hsource
        exact ⟨(hevolves.spells hspells).symbolText_eq hfirst rfl,
          ih hpassed (spells_passed hspells hevolves)⟩
      rw [List.length_cons, makes_pairs_succ_iff, Action.makes_mapM_cons_iff]
      constructor
      · rintro ⟨r, c', s₁, own₁, own₂, hstep, rfl, hrest⟩
        obtain ⟨value, hmember, heq⟩ := hadvance.mp hstep
        have hpair := makes_memberPair_iff.mpr ⟨_, hmember, rfl⟩
        cases heq
        cases value with
        | error e => exact ⟨_, s₁, own₁, own₂, hpair, rfl, hrest⟩
        | ok v =>
            obtain ⟨rest, hpairs, rfl⟩ := hrest
            obtain ⟨hspelled, hsame⟩ := hlater hmember
            exact ⟨_, s₁, own₁, own₂, hpair, rfl, rest, hsame.mp hpairs, by rw [hspelled]⟩
      · rintro ⟨r, s₁, own₁, own₂, hpair, rfl, hrest⟩
        obtain ⟨value, hmember, rfl⟩ := makes_memberPair_iff.mp hpair
        have hstep := hadvance.mpr ⟨_, hmember, rfl⟩
        cases value with
        | error e => exact ⟨_, _, s₁, own₁, own₂, hstep, rfl, hrest⟩
        | ok v =>
            obtain ⟨rest, hmap, rfl⟩ := hrest
            obtain ⟨hspelled, hsame⟩ := hlater hmember
            exact ⟨_, _, s₁, own₁, own₂, hstep, rfl, rest, hsame.mpr hmap, by rw [hspelled]⟩

/-- The loop that makes steps until one gives nothing, and takes the pairs; a failure ends it. -/
inductive Loops : Cursor → Store → List Entry → Except HostError (List Value) → Store → Prop
  | ends {c c' : Cursor} {s s' : Store} {own : List Entry}
      (h : c.advance.Makes s own (.ok none, c') s') : Loops c s own (.ok []) s'
  | fails {c c' : Cursor} {s s' : Store} {own : List Entry} {e : HostError}
      (h : c.advance.Makes s own (.error e, c') s') : Loops c s own (.error e) s'
  | name {c c' : Cursor} {s s₁ s' : Store} {own own' : List Entry} {symbol : SymbolId}
      {result : Except HostError (List Value)}
      (h : c.advance.Makes s own (.ok (some (.name symbol)), c') s₁)
      (hrest : Loops c' s₁ own' result s') : Loops c s (own ++ own') result s'
  | pair {c c' : Cursor} {s s₁ s' : Store} {own own' : List Entry} {symbol : SymbolId}
      {value : Value} {result : Except HostError (List Value)}
      (h : c.advance.Makes s own (.ok (some (.pair symbol value)), c') s₁)
      (hrest : Loops c' s₁ own' result s') :
      Loops c s (own ++ own')
        (result.map (.array [.string (s₁.symbolText symbol), value] :: ·)) s'

/-- A step gives nothing when no names are left, and otherwise leaves one fewer. -/
theorem remaining_of_advance {r : Except HostError (Option Member)}
    (h : c.advance.Makes s own (r, c') s') :
    (c.remaining = 0 ∧ own = [] ∧ r = .ok none ∧ s' = s)
      ∨ (c.remaining = c'.remaining + 1 ∧ r ≠ .ok none) := by
  cases hname : c.names[c.position]? with
  | none =>
      obtain ⟨rfl, heq, rfl⟩ := (makes_advance_end_iff hname).mp h
      have hend : c.length ≤ c.position := List.getElem?_eq_none_iff.mp hname
      exact .inl ⟨Nat.sub_eq_zero_of_le hend, rfl, (Prod.mk.inj heq).1, rfl⟩
  | some symbol =>
      obtain ⟨depth, hrun, _⟩ := h
      obtain ⟨hgives, rfl⟩ := gives_of_advance hrun
      obtain ⟨hlt, _⟩ := List.getElem?_eq_some_iff.mp hname
      have hleft : c.position < c.length := hlt
      rw [if_pos hleft]
      refine .inr ⟨?_, ?_⟩
      · show c.length - c.position = c.length - (c.position + 1) + 1
        omega
      · rintro rfl
        rw [Gives, hname] at hgives
        cases hsource : c.source <;> simp [hsource] at hgives

/-- The loop makes a step for each name that is left, and then comes to its end. -/
theorem loops_iff_makes_pairs {result : Except HostError (List Value)} :
    c.Loops s own result s' ↔ (c.pairs c.remaining).run.Makes s own result s' := by
  -- a step gives nothing just when no names are left, so the bound never ends the loop early
  constructor
  · intro h
    induction h with
    | ends h =>
        rcases remaining_of_advance h with ⟨hzero, rfl, _, rfl⟩ | ⟨_, hne⟩
        · rw [hzero]
          exact Program.makes_done_iff.mpr ⟨rfl, rfl, rfl⟩
        · exact absurd rfl hne
    | fails h =>
        rcases remaining_of_advance h with ⟨_, _, hend, _⟩ | ⟨hsucc, _⟩
        · cases hend
        · rw [hsucc]
          exact makes_pairs_succ_iff.mpr
            ⟨_, _, _, _, [], h, (List.append_nil _).symm, rfl, rfl, rfl⟩
    | name h _ ih =>
        rcases remaining_of_advance h with ⟨_, _, hend, _⟩ | ⟨hsucc, _⟩
        · cases hend
        · rw [hsucc]
          exact makes_pairs_succ_iff.mpr ⟨_, _, _, _, _, h, rfl, ih⟩
    | pair h _ ih =>
        rcases remaining_of_advance h with ⟨_, _, hend, _⟩ | ⟨hsucc, _⟩
        · cases hend
        · rw [hsucc]
          exact makes_pairs_succ_iff.mpr ⟨_, _, _, _, _, h, rfl, _, ih, rfl⟩
  · intro h
    generalize hsteps : c.remaining = steps at h
    induction steps generalizing c s own result with
    | zero =>
        obtain ⟨rfl, rfl, rfl⟩ := Program.makes_done_iff.mp h
        have hend : c.names[c.position]? = none :=
          List.getElem?_eq_none_iff.mpr (Nat.le_of_sub_eq_zero hsteps)
        exact .ends ((makes_advance_end_iff hend).mpr ⟨rfl, rfl, rfl⟩)
    | succ steps ih =>
        obtain ⟨r, c', s₁, own₁, own₂, hstep, rfl, hrest⟩ := makes_pairs_succ_iff.mp h
        rcases remaining_of_advance hstep with ⟨hzero, _⟩ | ⟨hsucc, hne⟩
        · omega
        · have hleft : c'.remaining = steps := by omega
          rcases r with e | (_ | (symbol | ⟨symbol, value⟩))
          · obtain ⟨rfl, rfl, rfl⟩ := hrest
            rw [List.append_nil]
            exact .fails hstep
          · exact absurd rfl hne
          · exact .name hstep (ih hleft hrest)
          · obtain ⟨rest, hpairs, rfl⟩ := hrest
            exact .pair hstep (ih hleft hpairs)

end Cursor

/-! ## Sequences -/

theorem Profile.lists_eq_false_iff {p : Profile} :
    p.lists = false ↔ p.ownProperties = none ∧ p.keys = none ∧ p.methods = none := by
  simp [lists, and_assoc]

namespace Store

theorem ownEntries_internAll (t : TableId) (texts : List String) (depth : Nat) (s : Store) :
    (Cursor.internAll t texts).ownEntries depth s = [] := by
  induction texts generalizing s with
  | nil => rfl
  | cons text texts ih =>
      obtain ⟨symbols, s', hrun, _⟩ := Cursor.runIn_internAll t texts (s.intern t text).2
      show (Program.bind (Cursor.internAll t texts) _).ownEntries depth (s.intern t text).2 = []
      rw [Program.ownEntries_bind (hrun depth), ih]
      rfl

/-- A cursor over the members of an object can be had without an entry and without a change of an
object. It stands at the beginning of the names that the object lists. -/
theorem exists_makes_begin (s : Store) (t : TableId) (o : ObjectId) :
    ∃ c₀ s₁, (Cursor.begin t (.object o) false).Makes s [] c₀ s₁ ∧ s₁.objects = s.objects
      ∧ c₀.position = 0 ∧ c₀.source = some o ∧ s₁.Spells c₀.names (s.profile o).names := by
  obtain ⟨c₀, s₁, ⟨depth, hbegin⟩, hrest⟩ := s.exists_begin_object t o
  obtain ⟨symbols, s₂, hrun, _⟩ := Cursor.runIn_internAll t (s.profile o).names s
  refine ⟨c₀, s₁, ⟨depth, hbegin, ?_⟩, hrest⟩
  show (Program.bind (Cursor.internAll t (s.profile o).names) _).ownEntries depth s = []
  rw [Program.ownEntries_bind (hrun depth), ownEntries_internAll]
  rfl

variable {s : Store} {o : ObjectId}

theorem makes_ask_profile (s : Store) (o : ObjectId) :
    (Program.ask (.profile o)).Makes s [] (s.profile o) s := ⟨0, rfl, rfl⟩

/-- An object with a length is read element by element. -/
theorem inTurn_elements {count : Nat} (h : (s.profile o).length = some count) :
    (toSequence (.object o)).InTurn s (elementOf o) (List.range count) s := by
  refine Action.inTurn_of_makes_iff ?_
  intro own result s'
  rw [toSequence, Action.run_lift_bind, (s.makes_ask_profile o).makes_bind_iff, h,
    List.range_eq_range', ← elementsFrom_eq_mapM]

/-- An object without a length that lists anything is read in the steps of a cursor. -/
theorem makes_toSequence_iff_pairs (hlength : (s.profile o).length = none)
    (hlists : (s.profile o).lists = true) {c₀ : Cursor} {s₁ : Store}
    (hbegin : (Cursor.begin .common (.object o) false).Makes s [] c₀ s₁) {own : List Entry}
    {result : Except HostError (List Value)} {s' : Store} :
    (toSequence (.object o)).run.Makes s own result s'
      ↔ (c₀.pairs c₀.length).run.Makes s₁ own result s' := by
  rw [toSequence, Action.run_lift_bind, (s.makes_ask_profile o).makes_bind_iff, hlength,
    if_pos hlists, Action.run_lift_bind, hbegin.makes_bind_iff]

/-- An object without a length that lists nothing is no sequence. -/
theorem makes_toSequence_of_none (hlength : (s.profile o).length = none)
    (hlists : (s.profile o).lists = false) :
    (toSequence (.object o)).run.Makes s []
      (.error (.typeMismatch "iterable" (s.profile o).className)) s := by
  rw [toSequence, Action.run_lift_bind, (s.makes_ask_profile o).makes_bind_iff, hlength, hlists]
  exact Program.makes_done_iff.mpr ⟨rfl, rfl, rfl⟩

/-- For each value, what its sequence is. An array gives its items, and null and undefined give
nothing. An object with a length goes through its elements in turn, and one without a length that
can tell own properties, keys or methods goes through the pairs of the names that it lists and
their members, in a loop that ends. All else is no sequence, and is refused without an entry. -/
theorem toSequence_elementwise (s : Store) (v : Value) :
    match v with
    | .array items => (toSequence v).run.Makes s [] (.ok items) s
    | .null => (toSequence v).run.Makes s [] (.ok []) s
    | .undefined => (toSequence v).run.Makes s [] (.ok []) s
    | .object o =>
      match (s.profile o).length with
      | some count => (toSequence v).InTurn s (elementOf o) (List.range count) s
      | none =>
        if (s.profile o).ownProperties = none ∧ (s.profile o).keys = none
            ∧ (s.profile o).methods = none then
          (toSequence v).run.Makes s []
            (.error (.typeMismatch "iterable" (s.profile o).className)) s
        else
          ∃ listing c₀ s₁, s.Lists v listing
            ∧ (Cursor.begin .common v false).Makes s [] c₀ s₁ ∧ s₁.objects = s.objects
            ∧ (toSequence v).InTurn s (memberPair o) listing s₁
            ∧ ∀ {own result s'},
              (toSequence v).run.Makes s own result s' ↔ c₀.Loops s₁ own result s'
    | _ => (toSequence v).run.Makes s []
        (.error (.typeMismatch "iterable" (v.typeName fun _ => false))) s := by
  cases v with
  | object o =>
      show match (s.profile o).length with
        | some _ => _
        | none => _
      cases hlength : (s.profile o).length with
      | some count => exact inTurn_elements hlength
      | none =>
          show if _ then _ else _
          split
          · rename_i hnone
            exact makes_toSequence_of_none hlength (Profile.lists_eq_false_iff.mpr hnone)
          · rename_i hsome
            have hlists : (s.profile o).lists = true := by
              rw [← Bool.not_eq_false, Profile.lists_eq_false_iff]
              exact hsome
            obtain ⟨c₀, s₁, hbegin, hobjects, hzero, hsource, hspells⟩ :=
              s.exists_makes_begin .common o
            have hpairs := @makes_toSequence_iff_pairs s o hlength hlists c₀ s₁ hbegin
            have hleft : c₀.remaining = c₀.length := by rw [Cursor.remaining, hzero, Nat.sub_zero]
            have hcount : c₀.length = (s.profile o).names.length := hspells.length_eq
            have hall : s₁.Spells (c₀.names.drop c₀.position) (s.profile o).names := by
              rwa [hzero]
            refine ⟨_, c₀, s₁, lists_object_iff.mpr rfl, hbegin, hobjects,
              Action.inTurn_of_makes_iff ?_, ?_⟩
            · intro own result s'
              rw [hpairs, hcount]
              exact Cursor.makes_pairs_iff hsource hall
            · intro own result s'
              rw [hpairs, Cursor.loops_iff_makes_pairs, hleft]
  | _ => exact Program.makes_done_iff.mpr ⟨rfl, rfl, rfl⟩

/-- The sequence of an object with a property that cannot be read fails with the error of the
property. The name behind it is not looked up, although it has been before. A record, which cannot
tell its own properties, gives the pairs of its keys and then those of its methods, a name that is
both standing twice. -/
theorem toSequence_faulty_and_marked :
    (∃ s₁ s', (toSequence (.object ⟨0⟩)).run.Makes (empty.addObject Cursor.faulty).2
          [.operate ⟨0⟩ (.get "a"), .operate ⟨0⟩ (.get "b")] (.error (.failed "lost")) s'
        ∧ Action.FailsFirst (memberPair ⟨0⟩) ["a", "b", "a"] s₁
          [.operate ⟨0⟩ (.get "a"), .operate ⟨0⟩ (.get "b")] (.failed "lost") s')
      ∧ ∃ s₁ s' own, (marked.profile ⟨0⟩).ownProperties = none
        ∧ (toSequence (.object ⟨0⟩)).run.Makes marked own
          (.ok (asPairs [("count", .int 1), ("mark", .int 3), ("mark", .int 3)])) s'
        ∧ Action.Gathers (memberPair ⟨0⟩) ["count", "mark", "mark"] s₁ own
          (asPairs [("count", .int 1), ("mark", .int 3), ("mark", .int 3)]) s' := by
  constructor
  · obtain ⟨listing, _, s₁, hlists, _, _, hturn, _⟩ :=
      toSequence_elementwise (empty.addObject Cursor.faulty).2 (.object ⟨0⟩)
    have hlisting : listing = ["a", "b", "a"] := lists_object_iff.mp hlists
    have hmakes : (toSequence (.object ⟨0⟩)).run.Makes (empty.addObject Cursor.faulty).2
        [.operate ⟨0⟩ (.get "a"), .operate ⟨0⟩ (.get "b")] (.error (.failed "lost")) _ :=
      ⟨1, rfl, rfl⟩
    exact ⟨s₁, _, hmakes, hlisting ▸ hturn.error_iff.mp hmakes⟩
  · obtain ⟨listing, _, s₁, hlists, _, _, hturn, _⟩ := toSequence_elementwise marked (.object ⟨0⟩)
    have hlisting : listing = ["count", "mark", "mark"] := lists_object_iff.mp hlists
    have hmakes : (toSequence (.object ⟨0⟩)).run.Makes marked _
        (.ok (asPairs [("count", .int 1), ("mark", .int 3), ("mark", .int 3)])) _ := ⟨1, rfl, rfl⟩
    exact ⟨s₁, _, _, rfl, hmakes, hlisting ▸ hturn.ok_iff.mp hmakes⟩

end Store

end ScriptHost
