import Mathlib.Data.List.Forall2
import ScriptHost.Proofs.Number.Equality

/-!
# Equality of values

Two numbers are compared as numbers, whichever of them is an integer (`equal_of_numbers`), two
arrays item by item (`equal_array_iff`), and any other value is equal to itself alone
(`equal_iff_of_isPlain`). A fact about values is proved along these three kinds (`induction_on`).

Main statement: equality is symmetric and transitive, and a value is equal to itself exactly if no
NaN occurs in it (`Value.equal_isPartialEquivalence`).
-/

set_option autoImplicit false

namespace ScriptHost.Value

open Number Number.Binary64

/-! ## Three kinds of values -/

/-- Whether the value is neither a number nor an array. -/
def isPlain : Value → Bool
  | int _ => false
  | float _ => false
  | array _ => false
  | _ => true

/-- A fact holds of all values if it does of numbers, of plain values, and of an array whenever it
does of the items. -/
theorem induction_on {P : Value → Prop} (v : Value)
    (number : ∀ (v : Value) (x : Binary64), v.number? = some x → P v)
    (array : ∀ items : List Value, (∀ v ∈ items, P v) → P (array items))
    (plain : ∀ v : Value, v.isPlain = true → P v) : P v :=
  match v with
  | .int i => number _ _ rfl
  | .float x => number _ _ rfl
  | .array items => array items fun v _ => induction_on v number array plain
  | .undefined => plain _ rfl
  | .null => plain _ rfl
  | .bool _ => plain _ rfl
  | .string _ => plain _ rfl
  | .symbol _ => plain _ rfl
  | .function _ => plain _ rfl
  | .object _ => plain _ rfl
termination_by sizeOf v

variable {a b c : Value} {x y : Binary64}

/-! ## Equality, kind by kind -/

/-- Numbers are compared as numbers, integers included. -/
theorem equal_of_numbers (ha : a.number? = some x) (hb : b.number? = some y) :
    a.equal b = x.same y := by
  cases a with
  | int i =>
      obtain rfl := Option.some.inj ha
      cases b with
      | int j =>
          obtain rfl := Option.some.inj hb
          rw [Bool.eq_iff_iff, same_ofInt32_iff, equal, beq_iff_eq]
      | float y =>
          obtain rfl := Option.some.inj hb
          rw [equal]
      | _ => cases hb
  | float x =>
      obtain rfl := Option.some.inj ha
      cases b with
      | int j =>
          obtain rfl := Option.some.inj hb
          rw [equal, same_comm]
      | float y =>
          obtain rfl := Option.some.inj hb
          rw [equal]
      | _ => cases hb
  | _ => cases ha

/-- What is equal to a number is a number. -/
theorem exists_number_of_equal (ha : a.number? = some x) (h : a.equal b = true) :
    ∃ y, b.number? = some y ∧ x.same y = true := by
  have hnumber : ∃ y, b.number? = some y := by
    cases b with
    | int j => exact ⟨_, rfl⟩
    | float y => exact ⟨_, rfl⟩
    | _ =>
        cases a with
        | int i => cases h
        | float x => cases h
        | _ => cases ha
  obtain ⟨y, hb⟩ := hnumber
  exact ⟨y, hb, equal_of_numbers ha hb ▸ h⟩

theorem equalAll_iff {as bs : List Value} :
    equalAll as bs = true ↔ List.Forall₂ (fun a b => a.equal b = true) as bs := by
  induction as generalizing bs with
  | nil => cases bs <;> simp [equalAll]
  | cons a as ih => cases bs <;> simp [equalAll, ih]

/-- What is equal to an array is an array with equal items. -/
theorem equal_array_iff {as : List Value} :
    (array as).equal b = true
      ↔ ∃ bs, b = array bs ∧ List.Forall₂ (fun a b => a.equal b = true) as bs := by
  cases b with
  | array bs => simp [equal, equalAll_iff]
  | _ => simp [equal]

/-- A plain value is equal to itself alone. -/
theorem equal_iff_of_isPlain (ha : a.isPlain = true) : a.equal b = true ↔ a = b := by
  cases a with
  | int i => cases ha
  | float x => cases ha
  | array as => cases ha
  | _ => cases b <;> simp [equal]

/-! ## A partial equivalence -/

theorem equal_symm (h : a.equal b = true) : b.equal a = true := by
  induction a using induction_on generalizing b with
  | number a x ha =>
      obtain ⟨y, hb, hsame⟩ := exists_number_of_equal ha h
      rw [equal_of_numbers hb ha, same_comm, hsame]
  | array as ih =>
      obtain ⟨bs, rfl, hitems⟩ := equal_array_iff.mp h
      clear h
      -- along the pairs of items; the hypothesis about the items goes with the rest of them
      refine equal_array_iff.mpr ⟨as, rfl, ?_⟩
      induction hitems with
      | nil => exact .nil
      | cons hab _ ihitems =>
          exact .cons (ih _ List.mem_cons_self hab)
            (ihitems fun v hv => ih v (List.mem_cons_of_mem _ hv))
  | plain a ha =>
      obtain rfl := (equal_iff_of_isPlain ha).mp h
      exact h

theorem equal_trans (hab : a.equal b = true) (hbc : b.equal c = true) : a.equal c = true := by
  induction a using induction_on generalizing b c with
  | number a x ha =>
      obtain ⟨y, hb, hxy⟩ := exists_number_of_equal ha hab
      obtain ⟨z, hc, hyz⟩ := exists_number_of_equal hb hbc
      rw [equal_of_numbers ha hc, same_trans hxy hyz]
  | array as ih =>
      obtain ⟨bs, rfl, hitems⟩ := equal_array_iff.mp hab
      obtain ⟨cs, rfl, hitems'⟩ := equal_array_iff.mp hbc
      clear hab hbc
      refine equal_array_iff.mpr ⟨cs, rfl, ?_⟩
      induction hitems generalizing cs with
      | nil =>
          cases hitems'
          exact .nil
      | cons hab _ ihitems =>
          cases hitems' with
          | cons hbc hitems' =>
              exact .cons (ih _ List.mem_cons_self hab hbc)
                (ihitems (fun v hv => ih v (List.mem_cons_of_mem _ hv)) _ hitems')
  | plain a ha =>
      obtain rfl := (equal_iff_of_isPlain ha).mp hab
      exact hbc

/-- A NaN occurs in a value: the value is one, or it is an array and one occurs in an item. -/
inductive HasNaN : Value → Prop
  | self {x : Binary64} (h : x.isNaN = true) : HasNaN (float x)
  | item {items : List Value} {v : Value} (hv : v ∈ items) (h : HasNaN v) : HasNaN (array items)

theorem hasNaN_iff_of_number (ha : a.number? = some x) : a.HasNaN ↔ x.isNaN = true := by
  cases a with
  | int i =>
      obtain rfl := Option.some.inj ha
      rw [isNaN_ofInt32]
      exact ⟨nofun, nofun⟩
  | float y =>
      obtain rfl := Option.some.inj ha
      exact ⟨fun h => by cases h; assumption, .self⟩
  | _ => cases ha

theorem hasNaN_array_iff {items : List Value} :
    (array items).HasNaN ↔ ∃ v ∈ items, v.HasNaN := by
  constructor
  · intro h
    cases h with
    | item hv h => exact ⟨_, hv, h⟩
  · rintro ⟨v, hv, h⟩
    exact .item hv h

/-- Only a NaN, in whatever depth, keeps a value from being equal to itself. -/
theorem equal_self_iff : a.equal a = true ↔ ¬ a.HasNaN := by
  induction a using induction_on with
  | number a x ha =>
      rw [equal_of_numbers ha ha, same_self_iff, hasNaN_iff_of_number ha, Bool.not_eq_true]
  | array items ih =>
      have hself : (array items).equal (array items) = true ↔ ∀ v ∈ items, v.equal v = true := by
        rw [equal, equalAll_iff, List.forall₂_same]
      rw [hself, hasNaN_array_iff, not_exists]
      exact forall_congr' fun v =>
        (imp_congr_right fun hv => ih v hv).trans (not_and.symm)
  | plain a ha =>
      refine iff_of_true ((equal_iff_of_isPlain ha).mpr rfl) ?_
      intro h
      cases h <;> cases ha

/-- Equality of values is a partial equivalence, and a value is outside of it exactly if a NaN
occurs in the value. -/
theorem equal_isPartialEquivalence (a b c : Value) :
    (a.equal b = true → b.equal a = true)
      ∧ (a.equal b = true → b.equal c = true → a.equal c = true)
      ∧ (a.equal a = true ↔ ¬ a.HasNaN) :=
  ⟨equal_symm, equal_trans, equal_self_iff⟩

/-- Integers and numbers, and both zeros, meet inside of arrays, and a NaN in the depth keeps an
array from being equal to itself. -/
theorem equal_nestedNumbers :
    (array [int 1, array [float ⟨0x8000000000000000⟩, symbol ⟨3⟩]]).equal
        (array [float ⟨0x3FF0000000000000⟩, array [float ⟨0⟩, symbol ⟨3⟩]]) = true
      ∧ (array [float ⟨0x3FF0000000000000⟩, array [float ⟨0⟩, symbol ⟨3⟩]]).equal
        (array [int 1, array [float ⟨0x8000000000000000⟩, symbol ⟨3⟩]]) = true
      ∧ (array [float ⟨0x3FF0000000000000⟩, array [float ⟨0⟩, symbol ⟨3⟩]]).equal
        (array [int 1, array [int 0, symbol ⟨3⟩]]) = true
      ∧ (array [int 1, array [float ⟨0x8000000000000000⟩, symbol ⟨3⟩]]).equal
        (array [int 1, array [int 0, symbol ⟨3⟩]]) = true
      ∧ ¬ (array [int 1, array [float ⟨0x7FF8000000000000⟩]]).equal
        (array [int 1, array [float ⟨0x7FF8000000000000⟩]]) = true := by
  have hfirst : (array [int 1, array [float ⟨0x8000000000000000⟩, symbol ⟨3⟩]]).equal
      (array [float ⟨0x3FF0000000000000⟩, array [float ⟨0⟩, symbol ⟨3⟩]]) = true := by decide
  have hsecond : (array [float ⟨0x3FF0000000000000⟩, array [float ⟨0⟩, symbol ⟨3⟩]]).equal
      (array [int 1, array [int 0, symbol ⟨3⟩]]) = true := by decide
  obtain ⟨hsymm, htrans, -⟩ := equal_isPartialEquivalence
    (array [int 1, array [float ⟨0x8000000000000000⟩, symbol ⟨3⟩]])
    (array [float ⟨0x3FF0000000000000⟩, array [float ⟨0⟩, symbol ⟨3⟩]])
    (array [int 1, array [int 0, symbol ⟨3⟩]])
  have hnan : (array [int 1, array [float ⟨0x7FF8000000000000⟩]]).HasNaN :=
    .item (List.mem_cons_of_mem _ List.mem_cons_self) (.item List.mem_cons_self (.self (by decide)))
  refine ⟨hfirst, hsymm hfirst, hsecond, htrans hfirst hsecond, ?_⟩
  exact fun h => (equal_isPartialEquivalence _ (int 1) (int 1)).2.2.mp h hnan

end ScriptHost.Value
