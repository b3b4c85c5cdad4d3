import ScriptHost.Host.Routine
import ScriptHost.Proofs.Host.Results
import ScriptHost.Proofs.Value.Equality

/-!
# Texts of equal values

An integer is converted to the text of the number that is equal to it
(`Value.text_of_number`), so the conversion of a value is the same program for all values that are
equal to it (`Value.text_eq_of_equal`). Main statement: in any store, the conversions of equal
values agree, whatever the objects do on the way (`Value.text_agree_of_equal`).
-/

set_option autoImplicit false

namespace ScriptHost

namespace Value

open Number Number.Binary64

variable {a b : Value}

/-- A number is converted as such, integers included. -/
theorem text_of_number {x : Binary64} (h : a.number? = some x) : a.text = .done x.text := by
  cases a with
  | int i =>
      obtain rfl := Option.some.inj h
      rw [text_of_same_ofInt32 (same_ofInt32_iff.mpr rfl), text]
  | float y =>
      obtain rfl := Option.some.inj h
      rw [text]
  | _ => cases h

theorem isNothing_of_number {x : Binary64} (h : a.number? = some x) : a.isNothing = false := by
  cases a with
  | int i => rfl
  | float y => rfl
  | _ => cases h

/-- Of two equal values, both leave their place in an array empty or neither does. -/
theorem isNothing_eq_of_equal (h : a.equal b = true) : a.isNothing = b.isNothing := by
  induction a using induction_on with
  | number a x ha =>
      obtain ⟨y, hb, -⟩ := exists_number_of_equal ha h
      rw [isNothing_of_number ha, isNothing_of_number hb]
  | array as =>
      obtain ⟨bs, rfl, -⟩ := equal_array_iff.mp h
      rfl
  | plain a ha => rw [(equal_iff_of_isPlain ha).mp h]

/-- The conversion to text tells no value from those that are equal to it. -/
theorem text_eq_of_equal (h : a.equal b = true) : a.text = b.text := by
  induction a using induction_on generalizing b with
  | number a x ha =>
      obtain ⟨y, hb, hsame⟩ := exists_number_of_equal ha h
      rw [text_of_number ha, text_of_number hb, text_eq_of_same hsame]
  | array as ih =>
      obtain ⟨bs, rfl, hitems⟩ := equal_array_iff.mp h
      have htexts : texts as = texts bs := by
        clear h
        induction hitems with
        | nil => rfl
        | cons hab _ ihitems =>
            rw [texts, texts, isNothing_eq_of_equal hab, ih _ List.mem_cons_self hab,
              ihitems fun v hv => ih v (List.mem_cons_of_mem _ hv)]
      rw [text, text, htexts]
  | plain a ha => rw [(equal_iff_of_isPlain ha).mp h]

/-- In any store, the conversions of equal values agree: each comes to an end if the other does,
with the same text, and leaves the same store behind. -/
theorem text_agree_of_equal (h : a.equal b = true) (s : Store) : a.text.Agree b.text s := by
  rw [text_eq_of_equal h]
  exact fun _ _ => Iff.rfl

end Value

/-- A class whose method `toString` counts how often it is called. -/
def Class.ticker : Class :=
  ((ofName "Ticker").field "ticks" (.int 0)).method "toString" (Routine.method (.add "ticks"))

/-- A record that changes while it is converted has the same text next to an integer and next to
the number that is equal to it. -/
theorem Value.text_agree_ticker :
    (Value.array [.object ⟨0⟩, .int 1, .null, .object ⟨0⟩]).equal
        (.array [.object ⟨0⟩, .float ⟨0x3FF0000000000000⟩, .null, .object ⟨0⟩]) = true
      ∧ ∃ s, (Value.array [.object ⟨0⟩, .int 1, .null, .object ⟨0⟩]).text.Returns
            (Store.empty.addObject Class.ticker.instantiate).2 "1,1,,2" s
          ∧ (Value.array
              [.object ⟨0⟩, .float ⟨0x3FF0000000000000⟩, .null, .object ⟨0⟩]).text.Returns
            (Store.empty.addObject Class.ticker.instantiate).2 "1,1,,2" s := by
  have hequal : (Value.array [.object ⟨0⟩, .int 1, .null, .object ⟨0⟩]).equal
      (.array [.object ⟨0⟩, .float ⟨0x3FF0000000000000⟩, .null, .object ⟨0⟩]) = true := by decide
  have hreturns : ∃ s, (Value.array [.object ⟨0⟩, .int 1, .null, .object ⟨0⟩]).text.Returns
      (Store.empty.addObject Class.ticker.instantiate).2 "1,1,,2" s := ⟨_, 3, rfl⟩
  obtain ⟨s, hreturns⟩ := hreturns
  exact ⟨hequal, s, hreturns, (text_agree_of_equal hequal _ _ _).mp hreturns⟩

end ScriptHost
