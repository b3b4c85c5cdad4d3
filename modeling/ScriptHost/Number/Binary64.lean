/-!
# Binary floating point numbers of 64 bits

A number is its bit pattern: a sign, eleven bits of exponent and 52 bits of fraction. Everything
is computed from the pattern in exact arithmetic. A finite number is
`± significand · 2 ^ scale`.

`same` is numeric equality: a NaN equals nothing and the two zeros are equal. `ofInt` is exact
for all integers of at most 53 bits. `integer?` gives the value of a number that is an integer.
Two functions tell decimals that are out of range: `overflows` looks at the exact value and
`productOverflows` at the product of two rounded factors.
-/

set_option autoImplicit false

namespace ScriptHost.Number

/-- A floating point number of 64 bits. -/
structure Binary64 where
  bits : UInt64
  deriving DecidableEq

namespace Binary64

/-! ## The parts of the pattern -/

/-- Whether the sign bit is set. -/
def negative (x : Binary64) : Bool := decide (Nat.pow 2 63 ≤ x.bits.toNat)

/-- The eleven bits of the exponent. -/
def exponentField (x : Binary64) : Nat := x.bits.toNat / Nat.pow 2 52 % Nat.pow 2 11

/-- The 52 bits of the fraction. -/
def fractionField (x : Binary64) : Nat := x.bits.toNat % Nat.pow 2 52

/-- Whether the pattern is no number. -/
def isNaN (x : Binary64) : Bool := x.exponentField == 2047 && x.fractionField != 0

/-- Whether the pattern is one of the infinities. -/
def isInfinite (x : Binary64) : Bool := x.exponentField == 2047 && x.fractionField == 0

/-- Whether the pattern is one of the zeros. -/
def isZero (x : Binary64) : Bool := x.exponentField == 0 && x.fractionField == 0

/-- The integer that is scaled by a power of two, for a finite number. -/
def significand (x : Binary64) : Nat :=
  if x.exponentField = 0 then x.fractionField else x.fractionField + Nat.pow 2 52

/-- The power of two that scales the significand. -/
def scale (x : Binary64) : Int := (max x.exponentField 1 : Nat) - 1075

/-! ## Equality -/

/-- Numeric equality. -/
def same (a b : Binary64) : Bool :=
  !a.isNaN && !b.isNaN && (a == b || a.isZero && b.isZero)

theorem same_self_iff (a : Binary64) : same a a = true ↔ a.isNaN = false := by
  simp [same]

theorem same_comm (a b : Binary64) : same a b = same b a := by
  simp only [same, Bool.and_comm (x := !a.isNaN), Bool.and_comm (x := a.isZero), Bool.beq_comm]

/-! ## Integers -/

/-- The number equal to an integer of at most 53 bits. -/
def ofInt (i : Int) : Binary64 :=
  let n := i.natAbs
  if n = 0 then ⟨0⟩
  else
    let k := n.log2
    ⟨UInt64.ofNat
      ((if i < 0 then Nat.pow 2 63 else 0) + (k + 1023) * Nat.pow 2 52
        + (n - Nat.pow 2 k) * Nat.pow 2 (52 - k))⟩

/-- The number equal to a 32-bit integer. -/
def ofInt32 (i : Int32) : Binary64 := ofInt i.toInt

/-- The value of a finite number that is an integer. -/
def integer? (x : Binary64) : Option Int :=
  if x.exponentField = 2047 then none
  else
    let magnitude : Option Nat :=
      if 0 ≤ x.scale then some (x.significand * Nat.pow 2 x.scale.toNat)
      else if x.significand % Nat.pow 2 (-x.scale).toNat = 0 then
        some (x.significand / Nat.pow 2 (-x.scale).toNat)
      else none
    magnitude.map fun n => if x.negative then -(n : Int) else (n : Int)

/-! ## Decimals out of range -/

/-- The least integer that rounds to no finite number. -/
def overflowBound : Nat := Nat.pow 2 1024 - Nat.pow 2 970

/-- Whether `digits · 10 ^ exponent` is too large to round to a finite number. Decimals far from
the limit are decided by their number of digits alone. -/
def overflows (digits : Nat) (exponent : Int) : Bool :=
  let places : Int := (Nat.toDigits 10 digits).length + exponent
  if digits = 0 || places < 300 then false
  else if 320 < places then true
  else
    decide (overflowBound * Nat.pow 10 (-exponent).toNat ≤ digits * Nat.pow 10 exponent.toNat)

/-- The integer of 53 significant bits that is nearest to an integer; of two equally near ones,
that with the even significand. -/
def nearest (n : Nat) : Nat :=
  if n < Nat.pow 2 53 then n
  else
    let unit := Nat.pow 2 (n.log2 - 52)
    let low := n / unit
    let rest := n % unit
    if 2 * rest < unit || 2 * rest = unit && low % 2 = 0 then low * unit else (low + 1) * unit

/-- Whether the product of the number nearest to `significand` and the number nearest to
`10 ^ exponent` is too large to round to a finite number. No power of ten above the 308th is
finite, and a quotient never grows. -/
def productOverflows (significand : Nat) (exponent : Int) : Bool :=
  if significand = 0 || exponent < 0 then false
  else if 308 < exponent then true
  else decide (overflowBound ≤ nearest significand * nearest (Nat.pow 10 exponent.toNat))

end Binary64

end ScriptHost.Number
