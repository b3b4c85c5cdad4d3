/-!
# Nesting depth

How many statement lists enclose a place in a program. The program itself is at depth 0, and
each enclosing block adds one. Depths are compared as numbers.

Convention: a depth is a machine word. Behind the last one (`Depth.last`) comes the depth of the
program again, so a statement about depths further in says that it does not get there. How much
room a text takes is of no account, although no machine has room for the blanks of most depths.
-/

set_option autoImplicit false

namespace ScriptHost.Tree

/-- The number of statement lists around a place. -/
structure Depth where
  level : UInt64
  deriving DecidableEq

namespace Depth

/-- The depth of the program itself. -/
def top : Depth := ⟨0⟩

/-- The largest depth. -/
def last : Depth := ⟨18446744073709551615⟩

/-- Whether this is the depth of the program itself. -/
def isTop (d : Depth) : Bool := d.level == 0

/-- The depth of the statements of a list that sits at `d`. -/
def nested (d : Depth) : Depth := ⟨d.level + 1⟩

/-- The depth at which a statement list has to sit to be a block, at least. -/
def atLeastBlock (d : Depth) : Depth := ⟨max d.level 1⟩

/-- The blanks in front of a statement: two for each level below the first. Their number is a
machine word as well. -/
def indent (d : Depth) : List Char :=
  List.replicate ((d.atLeastBlock.level - 1) * 2).toNat ' '

instance : LT Depth := ⟨fun a b => a.level < b.level⟩

instance (a b : Depth) : Decidable (a < b) := inferInstanceAs (Decidable (a.level < b.level))

instance : Inhabited Depth := ⟨top⟩

theorem eq_of_toNat_level_eq {d e : Depth} (h : d.level.toNat = e.level.toNat) : d = e :=
  congrArg Depth.mk (UInt64.toNat_inj.mp h)

theorem isTop_eq_false_iff {d : Depth} : d.isTop = false ↔ 1 ≤ d.level.toNat := by
  rw [isTop, beq_eq_false_iff_ne, Ne, ← UInt64.toNat_inj, Nat.one_le_iff_ne_zero]
  rfl

theorem toNat_level_atLeastBlock (d : Depth) :
    d.atLeastBlock.level.toNat = max d.level.toNat 1 := by
  show (if d.level ≤ 1 then 1 else d.level).toNat = _
  by_cases h : d.level ≤ 1
  · rw [if_pos h]
    exact (Nat.max_eq_right (UInt64.le_iff_toNat_le.mp h)).symm
  · have hlevel : ¬ d.level.toNat ≤ 1 := fun hle => h (UInt64.le_iff_toNat_le.mpr hle)
    rw [if_neg h, Nat.max_eq_left (Nat.le_of_not_le hlevel)]

@[simp] theorem isTop_atLeastBlock (d : Depth) : d.atLeastBlock.isTop = false := by
  rw [isTop_eq_false_iff, toNat_level_atLeastBlock]
  exact Nat.le_max_right d.level.toNat 1

/-- Below the top, a branch sits at the depth of the statement it belongs to. -/
theorem atLeastBlock_of_isTop {d : Depth} (h : d.isTop = false) : d.atLeastBlock = d := by
  apply eq_of_toNat_level_eq
  rw [toNat_level_atLeastBlock]
  exact Nat.max_eq_left (isTop_eq_false_iff.mp h)

/-- Before the last depth, the next one is one level further in. -/
theorem toNat_level_nested {d : Depth} (h : d.level.toNat + 1 < UInt64.size) :
    d.nested.level.toNat = d.level.toNat + 1 := by
  rw [nested, UInt64.toNat_add]
  exact Nat.mod_eq_of_lt h

example : last.nested = top := rfl

theorem isTop_nested {d : Depth} (h : d.level.toNat + 1 < UInt64.size) : d.nested.isTop = false := by
  rw [isTop_eq_false_iff, toNat_level_nested h]
  exact Nat.le_add_left 1 d.level.toNat

theorem indent_eq_replicate {d : Depth} (h : d.isTop = false) :
    d.indent = List.replicate ((d.level.toNat - 1) * 2 % UInt64.size) ' ' := by
  have hle : (1 : UInt64) ≤ d.level := UInt64.le_iff_toNat_le.mpr (isTop_eq_false_iff.mp h)
  rw [indent, atLeastBlock_of_isTop h, UInt64.toNat_mul, UInt64.toNat_sub_of_le d.level 1 hle]
  rfl

end Depth

end ScriptHost.Tree
