import ScriptHost.Proofs.Number.Integers

/-!
# Equality of numbers

Numeric equality is symmetric and transitive, and it leaves out a NaN alone
(`Binary64.same_iff`, `Binary64.same_trans`). Equal numbers have the same integer and the same text
(`Binary64.integer?_eq_of_same`, `Binary64.text_eq_of_same`). The number that is made of an integer
of at most 53 bits has that integer as its value (`Binary64.integer?_ofInt`), so 32-bit integers
are equal as numbers only if they are the same (`Binary64.same_ofInt32_iff`), and their texts are
their numerals (`Binary64.text_of_same_ofInt32`).
-/

set_option autoImplicit false

namespace ScriptHost.Number.Binary64

variable {x y z : Binary64}

/-! ## Numeric equality -/

theorem same_iff : x.same y = true ↔
    x.isNaN = false ∧ y.isNaN = false ∧ (x = y ∨ x.isZero = true ∧ y.isZero = true) := by
  simp only [same, Bool.and_eq_true, Bool.or_eq_true, Bool.not_eq_true', beq_iff_eq, and_assoc]

theorem same_trans (hxy : x.same y = true) (hyz : y.same z = true) : x.same z = true := by
  obtain ⟨hx, -, hxy⟩ := same_iff.mp hxy
  obtain ⟨-, hz, hyz⟩ := same_iff.mp hyz
  refine same_iff.mpr ⟨hx, hz, ?_⟩
  rcases hxy with rfl | ⟨hxzero, hyzero⟩
  · exact hyz
  · rcases hyz with rfl | ⟨-, hzzero⟩
    · exact .inr ⟨hxzero, hyzero⟩
    · exact .inr ⟨hxzero, hzzero⟩

/-- The value of both zeros is the integer 0. -/
theorem integer?_of_isZero (h : x.isZero = true) : x.integer? = some 0 := by
  rw [isZero, Bool.and_eq_true, beq_iff_eq, beq_iff_eq] at h
  obtain ⟨hexponent, hfraction⟩ := h
  have hfinite : x.IsFinite := by
    rw [IsFinite, hexponent]
    decide
  have hmagnitude : x.magnitude = (0 : ℕ) := by
    rw [magnitude, significand, if_pos hexponent, hfraction, Nat.cast_zero, zero_mul]
  refine integer?_eq_some_iff_exists.mpr ⟨hfinite, 0, hmagnitude, ?_⟩
  split <;> rfl

theorem integer?_eq_of_same (h : x.same y = true) : x.integer? = y.integer? := by
  obtain ⟨-, -, rfl | ⟨hx, hy⟩⟩ := same_iff.mp h
  · rfl
  · rw [integer?_of_isZero hx, integer?_of_isZero hy]

/-- The text of a number whose integer is known, below the limit. -/
theorem text_of_integer? {n : ℤ} (h : x.integer? = some n) (hn : n.natAbs < 10 ^ 21) :
    x.text = toString (clampInt64 n) := by
  obtain ⟨hfinite, hvalue⟩ := integer?_eq_some_iff.mp h
  exact text_of_value hfinite hvalue hn

/-- Equal numbers have the same text. -/
theorem text_eq_of_same (h : x.same y = true) : x.text = y.text := by
  obtain ⟨-, -, rfl | ⟨hx, hy⟩⟩ := same_iff.mp h
  · rfl
  · rw [text_of_integer? (integer?_of_isZero hx) (by decide),
      text_of_integer? (integer?_of_isZero hy) (by decide)]

/-! ## Patterns put together from their parts -/

/-- The pattern with a sign, an exponent and a fraction. -/
def ofParts (negative : Bool) (exponent fraction : ℕ) : Binary64 :=
  ⟨UInt64.ofNat ((if negative then Nat.pow 2 63 else 0) + exponent * Nat.pow 2 52 + fraction)⟩

section Parts

variable {exponent fraction : ℕ} (negative : Bool) (he : exponent < 2048)
  (hf : fraction < 2 ^ 52)

include he hf

theorem toNat_bits_ofParts :
    (ofParts negative exponent fraction).bits.toNat
      = (if negative then 2 ^ 63 else 0) + exponent * 2 ^ 52 + fraction := by
  rw [ofParts, UInt64.toNat_ofNat', Nat.pow_eq, Nat.pow_eq]
  apply Nat.mod_eq_of_lt
  split <;> omega

theorem negative_ofParts : (ofParts negative exponent fraction).negative = negative := by
  rw [Binary64.negative, toNat_bits_ofParts negative he hf, Nat.pow_eq]
  cases negative with
  | false => exact decide_eq_false (by simp only [Bool.false_eq_true, if_false]; omega)
  | true => exact decide_eq_true (by simp only [if_true]; omega)

theorem exponentField_ofParts : (ofParts negative exponent fraction).exponentField = exponent := by
  rw [exponentField, toNat_bits_ofParts negative he hf, Nat.pow_eq, Nat.pow_eq]
  split <;> omega

theorem fractionField_ofParts : (ofParts negative exponent fraction).fractionField = fraction := by
  rw [fractionField, toNat_bits_ofParts negative he hf, Nat.pow_eq]
  split <;> omega

end Parts

/-! ## Integers as numbers -/

/-- A number that is not 0, with its leading bit at place `k`, is put together from its sign, the
place and the bits behind the leading one. -/
theorem ofInt_eq_ofParts {i : ℤ} (hi : i ≠ 0) :
    ofInt i = ofParts (decide (i < 0)) (i.natAbs.log2 + 1023)
      ((i.natAbs - 2 ^ i.natAbs.log2) * 2 ^ (52 - i.natAbs.log2)) := by
  have habs : i.natAbs ≠ 0 := Int.natAbs_ne_zero.mpr hi
  simp only [ofInt, ofParts, if_neg habs, decide_eq_true_eq, Nat.pow_eq]

/-- The bits behind the leading one fill the fraction up to its full width. -/
theorem fraction_of_log2 {n : ℕ} (hn : n ≠ 0) (hsmall : n < 2 ^ 53) :
    n.log2 ≤ 52 ∧ (n - 2 ^ n.log2) * 2 ^ (52 - n.log2) < 2 ^ 52
      ∧ (n - 2 ^ n.log2) * 2 ^ (52 - n.log2) + 2 ^ 52 = n * 2 ^ (52 - n.log2) := by
  have hlog : n.log2 < 53 := (Nat.log2_lt hn).mpr hsmall
  have hlow : 2 ^ n.log2 ≤ n := Nat.log2_self_le hn
  have hhigh : n < 2 ^ (n.log2 + 1) := Nat.lt_log2_self
  have hwidth : 2 ^ n.log2 * 2 ^ (52 - n.log2) = 2 ^ 52 := by
    rw [← pow_add, Nat.add_sub_cancel' (by omega)]
  have hrest : n - 2 ^ n.log2 < 2 ^ n.log2 := by
    rw [pow_succ] at hhigh
    omega
  refine ⟨by omega, ?_, ?_⟩
  · rw [← hwidth]
    exact Nat.mul_lt_mul_of_pos_right hrest (Nat.two_pow_pos _)
  · rw [← hwidth, ← Nat.add_mul, Nat.sub_add_cancel hlow]

/-- The number made of an integer of at most 53 bits has that integer as its value. -/
theorem integer?_ofInt {i : ℤ} (h : i.natAbs < 2 ^ 53) : (ofInt i).integer? = some i := by
  by_cases hi : i = 0
  · subst hi
    exact integer?_of_isZero (by decide)
  · obtain ⟨hlog, hfraction, hsum⟩ := fraction_of_log2 (Int.natAbs_ne_zero.mpr hi) h
    have he : i.natAbs.log2 + 1023 < 2048 := by omega
    rw [ofInt_eq_ofParts hi, integer?_eq_some_iff_exists, negative_ofParts _ he hfraction]
    refine ⟨?_, i.natAbs, ?_, ?_⟩
    · rw [IsFinite, exponentField_ofParts _ he hfraction]
      omega
    · -- the significand is the integer, shifted as far to the left as the scale shifts it back
      have hscale : (((i.natAbs.log2 + 1023) ⊔ 1 : ℕ) : ℤ) - 1075
          = -((52 - i.natAbs.log2 : ℕ) : ℤ) := by omega
      rw [magnitude, significand, scale, exponentField_ofParts _ he hfraction,
        fractionField_ofParts _ he hfraction, if_neg (by omega), Nat.pow_eq, hsum, hscale,
        zpow_neg, zpow_natCast, Nat.cast_mul, Nat.cast_pow, Nat.cast_ofNat]
      exact mul_inv_cancel_right₀ (pow_ne_zero _ two_ne_zero) _
    · by_cases hneg : i < 0
      · rw [if_pos (decide_eq_true hneg)]
        omega
      · rw [if_neg (by simpa using hneg)]
        omega

/-! ## Integers of 32 bits -/

theorem natAbs_toInt_le (i : Int32) : i.toInt.natAbs ≤ 2 ^ 31 := by
  have hlow := i.le_toInt
  have hhigh := i.toInt_lt
  omega

theorem integer?_ofInt32 (i : Int32) : (ofInt32 i).integer? = some i.toInt :=
  integer?_ofInt (Nat.lt_of_le_of_lt (natAbs_toInt_le i) (by decide))

theorem isNaN_ofInt32 (i : Int32) : (ofInt32 i).isNaN = false :=
  (integer?_eq_some_iff.mp (integer?_ofInt32 i)).1.isNaN

/-- Integers of 32 bits are equal as numbers exactly if they are the same. -/
theorem same_ofInt32_iff {i j : Int32} : (ofInt32 i).same (ofInt32 j) = true ↔ i = j := by
  constructor
  · intro h
    have hinteger := integer?_eq_of_same h
    rw [integer?_ofInt32, integer?_ofInt32] at hinteger
    exact Int32.toInt_inj.mp (Option.some.inj hinteger)
  · rintro rfl
    exact (same_self_iff _).mpr (isNaN_ofInt32 i)

/-- The text of a number that is equal to an integer of 32 bits is the numeral of the integer. -/
theorem text_of_same_ofInt32 {i : Int32} (h : (ofInt32 i).same x = true) :
    x.text = toString i.toInt := by
  have hinteger : x.integer? = some i.toInt := by rw [← integer?_eq_of_same h, integer?_ofInt32]
  have hsmall := natAbs_toInt_le i
  have hrange : -2 ^ 63 ≤ i.toInt ∧ i.toInt < 2 ^ 63 := by omega
  rw [text_of_integer? hinteger (by omega), (clampInt64_eq_self_iff _).mpr hrange]

end ScriptHost.Number.Binary64
