import ScriptHost.Proofs.Host.Evolution

/-!
# Results of programs

`Program.Returns` says that a program, run in a store, comes to an end, and with which result and
which store; how deep its code enters other code is left out. There is at most one such end
(`Program.Returns.unique`), programs in sequence return one after the other
(`Program.returns_bind_iff`), and entering code returns what the code returns
(`Program.returns_run_iff`). Two programs agree in a store if they return the same there
(`Program.Agree`).
-/

set_option autoImplicit false

namespace ScriptHost

namespace Program

variable {α β : Type} {p q r : Program α} {s s' : Store} {a : α}

/-- The program, run in the first store, returns the result and leaves the second store behind. -/
def Returns (p : Program α) (s : Store) (a : α) (s' : Store) : Prop :=
  ∃ depth, p.runIn depth s = some (a, s')

theorem Returns.evolves (h : p.Returns s a s') : ∃ log, s.Evolves log s' := by
  obtain ⟨depth, hrun⟩ := h
  exact ⟨_, evolves_of_runIn hrun⟩

theorem Returns.unique (h : p.Returns s a s') {b : α} {s'' : Store} (h' : p.Returns s b s'') :
    b = a ∧ s'' = s' := by
  obtain ⟨m, hm⟩ := h
  obtain ⟨n, hn⟩ := h'
  have hdeep := runIn_mono (Nat.le_max_left m n) hm
  rw [runIn_mono (Nat.le_max_right m n) hn] at hdeep
  exact Prod.mk.inj (Option.some.inj hdeep)

theorem returns_done (a : α) (s : Store) : (done a).Returns s a s := ⟨0, rfl⟩

/-- Programs in sequence run one after the other. -/
theorem runIn_bind_eq_some_iff {depth : Nat} {f : α → Program β} {r : β × Store} :
    (bind p f).runIn depth s = some r
      ↔ ∃ a s₁, p.runIn depth s = some (a, s₁) ∧ (f a).runIn depth s₁ = some r := by
  rw [runIn_bind, Option.bind_eq_some_iff]
  exact Prod.exists

/-- Programs in sequence return one after the other. -/
theorem returns_bind_iff {f : α → Program β} {b : β} :
    (bind p f).Returns s b s' ↔ ∃ a s₁, p.Returns s a s₁ ∧ (f a).Returns s₁ b s' := by
  constructor
  · rintro ⟨depth, hrun⟩
    obtain ⟨a, s₁, hfirst, hnext⟩ := runIn_bind_eq_some_iff.mp hrun
    exact ⟨a, s₁, ⟨depth, hfirst⟩, ⟨depth, hnext⟩⟩
  · rintro ⟨a, s₁, ⟨m, hm⟩, ⟨n, hn⟩⟩
    exact ⟨max m n, runIn_bind_eq_some_iff.mpr ⟨a, s₁, runIn_mono (Nat.le_max_left m n) hm,
      runIn_mono (Nat.le_max_right m n) hn⟩⟩

/-- Entering code returns what the code behind the entry returns. -/
theorem returns_run_iff {e : Entry} {a : e.Reply} :
    (run e).Returns s a s' ↔ (s.start e).1.Returns (s.start e).2 a s' := by
  constructor
  · rintro ⟨depth, hrun⟩
    cases depth with
    | zero => cases hrun
    | succ depth =>
        rw [runIn_run] at hrun
        exact ⟨depth, hrun⟩
  · rintro ⟨depth, hrun⟩
    refine ⟨depth + 1, ?_⟩
    rw [runIn_run]
    exact hrun

/-- Two programs agree in a store: each returns if the other does, with the same result, and leaves
the same store behind. -/
def Agree (p q : Program α) (s : Store) : Prop :=
  ∀ a s', p.Returns s a s' ↔ q.Returns s a s'

theorem Agree.symm (h : p.Agree q s) : q.Agree p s := fun a s' => (h a s').symm

theorem Agree.trans (h : p.Agree q s) (h' : q.Agree r s) : p.Agree r s :=
  fun a s' => (h a s').trans (h' a s')

theorem agree_of_runIn_eq (h : ∀ depth, p.runIn depth s = q.runIn depth s) : p.Agree q s :=
  fun a s' => exists_congr fun depth => by rw [h depth]

/-- Entering code that leaves the store as it is agrees with the code. -/
theorem agree_run {e : Entry} {p : Program e.Reply} (h : s.start e = (p, s)) :
    (run e).Agree p s := by
  intro a s'
  rw [returns_run_iff, h]

end Program

/-- A program within an action comes before the rest of the action. -/
theorem Action.run_lift_bind {α β : Type} (p : Program α) (f : α → Action β) :
    (liftM p >>= f : Action β).run = Program.bind p fun a => (f a).run :=
  ExceptT.run_bind_lift p f

/-- Actions in sequence return one after the other if the first does not fail. -/
theorem Action.returns_bind {α β : Type} {p : Action α} {f : α → Action β} {s s₁ s' : Store} {a : α}
    {result : Except HostError β} (h : p.run.Returns s (.ok a) s₁)
    (h' : (f a).run.Returns s₁ result s') : (p >>= f).run.Returns s result s' :=
  Program.returns_bind_iff.mpr ⟨_, _, h, h'⟩

end ScriptHost
