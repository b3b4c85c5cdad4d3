/-!
# Hexadecimal numerals

Lower case digits are written and both cases are read.
-/

set_option autoImplicit false

namespace ScriptHost.Text.Hex

/-- The digit for `n < 16`. -/
def digit (n : Nat) : Char := if n < 10 then Char.ofNat (48 + n) else Char.ofNat (87 + n)

/-- The value of a digit, of either case. -/
def value? (c : Char) : Option Nat :=
  if '0' ≤ c ∧ c ≤ '9' then some (c.toNat - 48)
  else if 'a' ≤ c ∧ c ≤ 'f' then some (c.toNat - 87)
  else if 'A' ≤ c ∧ c ≤ 'F' then some (c.toNat - 55)
  else none

/-- The last `width` digits of `n`, the most significant first. -/
def write : Nat → Nat → List Char
  | 0, _ => []
  | width + 1, n => write width (n / 16) ++ [digit (n % 16)]

/-- The number written by digits, the most significant first; none when a character is no digit
or there is none at all. -/
def read? : List Char → Option Nat
  | [] => none
  | cs => cs.foldlM (fun n c => (value? c).map (n * 16 + ·)) 0

theorem value?_digit {n : Nat} (h : n < 16) : value? (digit n) = some n := by
  have : ∀ k : Fin 16, value? (digit k) = some k.val := by decide
  exact this ⟨n, h⟩

@[simp] theorem length_write (width n : Nat) : (write width n).length = width := by
  induction width generalizing n with
  | zero => rfl
  | succ width ih => simp [write, ih]

end ScriptHost.Text.Hex
