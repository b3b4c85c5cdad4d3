import Mathlib.Algebra.Order.Field.Power
import Mathlib.Algebra.Order.Field.Rat
import Mathlib.Tactic.Positivity
import ScriptHost.Host.Text

/-!
# Integers as texts

The value of a finite number is a rational (`Binary64.value`), and `Binary64.integer?` finds it
when it is an integer (`Binary64.integer?_eq_some_iff`). The text of such a number below `10 ^ 21`
is the numeral of the nearest integer of 64 bits (`Binary64.text_of_value`), and different integers
have different numerals (`int_repr_injective`).

Main statement: a number below the limit is converted to the numeral of its value exactly when the
value is an integer of 64 bits, and two such numbers with different values share a text exactly
when both values reach the same end of that range (`Value.text_float_eq_numeral_iff`). Some do
(`Value.text_float_beyond_int64`).
-/

set_option autoImplicit false

namespace ScriptHost

namespace Number

/-! ## Numerals -/

theorem nat_repr_injective : Function.Injective Nat.repr := by
  intro a b h
  have hdigits : Nat.toDigits 10 a = Nat.toDigits 10 b := by
    rw [← Nat.toList_repr, h, Nat.toList_repr]
  calc
    a = Nat.ofDigitChars 10 (Nat.toDigits 10 a) 0 := Nat.ofDigitChars_ten_toDigits.symm
    _ = Nat.ofDigitChars 10 (Nat.toDigits 10 b) 0 := by rw [hdigits]
    _ = b := Nat.ofDigitChars_ten_toDigits

/-- The numeral of a natural number starts with a digit, so with no sign. -/
theorem nat_repr_ne_minus (a b : ℕ) : a.repr ≠ "-" ++ b.repr := by
  intro h
  have hdigits : Nat.toDigits 10 a = '-' :: Nat.toDigits 10 b := by
    have hlists := congrArg String.toList h
    rwa [String.toList_append, Nat.toList_repr, Nat.toList_repr] at hlists
  have hminus : '-' ∈ Nat.toDigits 10 a := hdigits ▸ List.mem_cons_self
  have hdigit : '-'.isDigit = true := Nat.isDigit_of_mem_toDigits (by decide) (by decide) hminus
  cases hdigit

/-- Different integers have different numerals. -/
theorem int_repr_injective : Function.Injective Int.repr := by
  intro a b h
  rw [Int.repr_eq_if, Int.repr_eq_if] at h
  split at h <;> split at h
  · have habs := nat_repr_injective h
    omega
  · exact absurd h (nat_repr_ne_minus _ _)
  · exact absurd h.symm (nat_repr_ne_minus _ _)
  · have habs := nat_repr_injective ((String.append_right_inj "-").mp h)
    omega

namespace Binary64

variable {x : Binary64} {n : ℤ}

/-! ## The value of a number -/

/-- The number is neither an infinity nor a NaN. -/
def IsFinite (x : Binary64) : Prop := x.exponentField ≠ 2047

/-- The distance of a finite number from zero. -/
def magnitude (x : Binary64) : ℚ := x.significand * 2 ^ x.scale

/-- The exact value of a finite number. -/
def value (x : Binary64) : ℚ := if x.negative then -x.magnitude else x.magnitude

theorem magnitude_nonneg (x : Binary64) : 0 ≤ x.magnitude := by
  unfold magnitude
  positivity

theorem IsFinite.isNaN (hx : x.IsFinite) : x.isNaN = false := by
  rw [Binary64.isNaN, beq_false_of_ne hx, Bool.false_and]

theorem IsFinite.isInfinite (hx : x.IsFinite) : x.isInfinite = false := by
  rw [Binary64.isInfinite, beq_false_of_ne hx, Bool.false_and]

/-- An integer scaled by a power of two, up or down, is an integer if the scaling leaves no
fraction. -/
theorem scaled_eq_some_iff (m : ℕ) (q : ℤ) (k : ℕ) :
    (if 0 ≤ q then some (m * Nat.pow 2 q.toNat)
      else if m % Nat.pow 2 (-q).toNat = 0 then some (m / Nat.pow 2 (-q).toNat)
      else none) = some k ↔ (m : ℚ) * 2 ^ q = k := by
  by_cases hq : 0 ≤ q
  · obtain ⟨e, rfl⟩ := Int.eq_ofNat_of_zero_le hq
    rw [if_pos hq, Option.some.injEq, Int.toNat_natCast, zpow_natCast, Nat.pow_eq]
    exact_mod_cast Iff.rfl
  · obtain ⟨e, he⟩ := Int.eq_ofNat_of_zero_le (show 0 ≤ -q by omega)
    obtain rfl : q = -(e : ℤ) := by omega
    have hproduct : (m : ℚ) * 2 ^ (-(e : ℤ)) = k ↔ m = k * 2 ^ e := by
      rw [zpow_neg, zpow_natCast, ← div_eq_mul_inv, div_eq_iff (by positivity)]
      exact_mod_cast Iff.rfl
    rw [if_neg hq, neg_neg, Int.toNat_natCast, Nat.pow_eq, hproduct]
    constructor
    · intro h
      split at h
      · rename_i hmod
        rw [← Option.some.inj h, Nat.div_mul_cancel (Nat.dvd_of_mod_eq_zero hmod)]
      · cases h
    · rintro rfl
      rw [if_pos (Nat.mul_mod_left k (2 ^ e)), Nat.mul_div_cancel k (Nat.two_pow_pos e)]

/-- The integer of a number is its magnitude with its sign. -/
theorem integer?_eq_some_iff_exists :
    x.integer? = some n ↔
      x.IsFinite ∧ ∃ k : ℕ, x.magnitude = k ∧ (if x.negative then -(k : ℤ) else k) = n := by
  unfold integer?
  by_cases hfinite : x.exponentField = 2047
  · rw [if_pos hfinite]
    constructor
    · intro h
      cases h
    · rintro ⟨h, -⟩
      exact absurd hfinite h
  · have hx : x.IsFinite := hfinite
    rw [if_neg hfinite, and_iff_right hx]
    simp only [Option.map_eq_some_iff, Option.bind_eq_bind, Option.bind_eq_some_iff,
      scaled_eq_some_iff]
    constructor
    · rintro ⟨_, ⟨k, hk, ⟨⟩⟩, hn⟩
      exact ⟨k, hk, hn⟩
    · rintro ⟨k, hk, hn⟩
      exact ⟨k, ⟨k, hk, rfl⟩, hn⟩

/-- A finite number has an integer exactly when its value is that integer. -/
theorem integer?_eq_some_iff : x.integer? = some n ↔ x.IsFinite ∧ x.value = n := by
  have hnonneg := x.magnitude_nonneg
  rw [integer?_eq_some_iff_exists, value]
  refine and_congr_right fun _ => ?_
  cases x.negative with
  | false =>
      constructor
      · rintro ⟨k, hk, rfl⟩
        exact hk
      · intro (hvalue : x.magnitude = n)
        have hn : 0 ≤ n := by exact_mod_cast hvalue ▸ hnonneg
        obtain ⟨k, rfl⟩ := Int.eq_ofNat_of_zero_le hn
        exact ⟨k, hvalue, rfl⟩
  | true =>
      constructor
      · rintro ⟨k, hk, rfl⟩
        show -x.magnitude = ((-(k : ℤ) : ℤ) : ℚ)
        rw [hk, Int.cast_neg, Int.cast_natCast]
      · intro (hvalue : -x.magnitude = n)
        have hneg : x.magnitude = ((-n : ℤ) : ℚ) := by rw [Int.cast_neg, ← hvalue, neg_neg]
        have hn : 0 ≤ -n := by exact_mod_cast hneg ▸ hnonneg
        obtain ⟨k, hk⟩ := Int.eq_ofNat_of_zero_le hn
        refine ⟨k, by rw [hneg, hk, Int.cast_natCast], ?_⟩
        show -(k : ℤ) = n
        rw [← hk, neg_neg]

/-! ## Integers of 64 bits -/

theorem minValue_toInt : Int64.minValue.toInt = -2 ^ 63 := rfl

theorem maxValue_toInt : Int64.maxValue.toInt = 2 ^ 63 - 1 := rfl

theorem clampInt64_eq_self_iff (n : ℤ) : clampInt64 n = n ↔ -2 ^ 63 ≤ n ∧ n < 2 ^ 63 := by
  rw [clampInt64, minValue_toInt, maxValue_toInt]
  omega

/-- Two integers have the same nearest integer of 64 bits if they are the same, or both reach the
same end. -/
theorem clampInt64_eq_iff (n m : ℤ) :
    clampInt64 n = clampInt64 m ↔ n = m ∨ 2 ^ 63 - 1 ≤ min n m ∨ max n m ≤ -2 ^ 63 := by
  rw [clampInt64, clampInt64, minValue_toInt, maxValue_toInt]
  omega

/-! ## Texts -/

/-- The text of an integer below the limit goes through an integer of 64 bits. -/
theorem text_of_value (hx : x.IsFinite) (hvalue : x.value = n) (hn : n.natAbs < 10 ^ 21) :
    x.text = toString (clampInt64 n) := by
  have hinteger : x.integer? = some n := integer?_eq_some_iff.mpr ⟨hx, hvalue⟩
  rw [text, hx.isNaN, hx.isInfinite, if_neg Bool.false_ne_true, if_neg Bool.false_ne_true,
    hinteger]
  exact if_pos hn

end Binary64

end Number

namespace Value

open Number Number.Binary64

theorem text_float (x : Binary64) : (Value.float x).text = .done x.text := rfl

theorem text_float_inj {x y : Binary64} :
    (Value.float x).text = (Value.float y).text ↔ x.text = y.text := by
  rw [text_float, text_float, Program.done.injEq]

/-- Let the value of a number be an integer below `10 ^ 21`. The number is converted to the numeral
of that integer exactly when it is one of 64 bits. Another such number has the same text exactly
when it has the same value, or when both values reach the same end of the integers of 64 bits. -/
theorem text_float_eq_numeral_iff {x : Binary64} {n : ℤ} (hx : x.IsFinite) (hvalue : x.value = n)
    (hn : n.natAbs < 10 ^ 21) :
    ((Value.float x).text = .done (toString n) ↔ -2 ^ 63 ≤ n ∧ n < 2 ^ 63)
      ∧ ∀ {y : Binary64} {m : ℤ}, y.IsFinite → y.value = m → m.natAbs < 10 ^ 21 →
          ((Value.float x).text = (Value.float y).text
            ↔ n = m ∨ 2 ^ 63 - 1 ≤ min n m ∨ max n m ≤ -2 ^ 63) := by
  have htext := text_of_value hx hvalue hn
  constructor
  · rw [text_float, Program.done.injEq, htext, ← clampInt64_eq_self_iff]
    exact int_repr_injective.eq_iff
  · intro y m hy hvalue' hm
    rw [text_float_inj, htext, text_of_value hy hvalue' hm, ← clampInt64_eq_iff]
    exact int_repr_injective.eq_iff

/-- The least integer of 64 bits is converted to its numeral, and the integer of twice its value is
converted to the same text. -/
theorem text_float_least_int64 :
    (Value.float ⟨0xC3E0000000000000⟩).text = .done (toString (-2 ^ 63 : ℤ))
      ∧ (Value.float ⟨0xC3E0000000000000⟩).text = (Value.float ⟨0xC3F0000000000000⟩).text := by
  have hleast : (⟨0xC3E0000000000000⟩ : Binary64).integer? = some (-2 ^ 63) := by decide
  have htwice : (⟨0xC3F0000000000000⟩ : Binary64).integer? = some (-2 ^ 64) := by decide
  obtain ⟨hx, hvalue⟩ := integer?_eq_some_iff.mp hleast
  obtain ⟨hy, hvalue'⟩ := integer?_eq_some_iff.mp htwice
  obtain ⟨hnumeral, hsame⟩ := text_float_eq_numeral_iff hx hvalue (by decide)
  exact ⟨hnumeral.mpr (by decide), (hsame hy hvalue' (by decide)).mpr (by decide)⟩

/-- The number `2 ^ 64`. -/
def twoPow64 : Binary64 := ⟨0x43F0000000000000⟩

/-- The number `2 ^ 65`. -/
def twoPow65 : Binary64 := ⟨0x4400000000000000⟩

/-- Two integers above the 64-bit range share a text, which is not the numeral of the first. -/
theorem text_float_beyond_int64 :
    twoPow64.IsFinite ∧ twoPow64.value = ((2 ^ 64 : ℤ) : ℚ)
      ∧ twoPow65.IsFinite ∧ twoPow65.value = ((2 ^ 65 : ℤ) : ℚ) ∧ (2 ^ 65 : ℤ).natAbs < 10 ^ 21
      ∧ (Value.float twoPow64).text = .done "9223372036854775807"
      ∧ (Value.float twoPow64).text ≠ .done (toString (2 ^ 64 : ℤ))
      ∧ (Value.float twoPow64).text = (Value.float twoPow65).text := by
  have hfirst : twoPow64.integer? = some (2 ^ 64) := by decide
  have hsecond : twoPow65.integer? = some (2 ^ 65) := by decide
  obtain ⟨hx, hvalue⟩ := integer?_eq_some_iff.mp hfirst
  obtain ⟨hy, hvalue'⟩ := integer?_eq_some_iff.mp hsecond
  have htext := text_of_value hx hvalue (by decide)
  have htext' := text_of_value hy hvalue' (by decide)
  refine ⟨hx, hvalue, hy, hvalue', by decide, congrArg Program.done htext, ?_,
    text_float_inj.mpr (htext.trans htext'.symm)⟩
  rw [text_float, htext, ne_eq, Program.done.injEq]
  exact int_repr_injective.ne (by decide)

end Value

end ScriptHost
