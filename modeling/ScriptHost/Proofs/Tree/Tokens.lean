import Mathlib.Data.List.Chain
import ScriptHost.Proofs.Tree.Word
import ScriptHost.Text.Hex

/-!
# Text as tokens

A text is cut from the left into words, number literals, string literals and single other
characters, each as long as it can be (`tokens`). Punctuation is not put together into longer
operators, which makes no difference to where the literals are.

Main statements: tokens that are put side by side are read back if none of them can be taken for
the beginning of a longer one (`tokens_flatMap`). Where the only ones that can are a whole number
in front of a point and a point in front of a number, the number literals are read back just if
there is no such place (`numerals_flatMap_iff`).
-/

set_option autoImplicit false

namespace ScriptHost.Tree

/-! ## Literals -/

/-- Whether a character can stand in a word of source text. Beyond ASCII every character counts. -/
def isNameChar (c : Char) : Bool := isWordChar c || 128 ≤ c.toNat

/-- Whether a character can begin an exponent. -/
def isExponentMark (c : Char) : Bool := c == 'e' || c == 'E'

/-- Whether a character is a hexadecimal digit. -/
def isHexDigit (c : Char) : Bool := (Text.Hex.value? c).isSome

/-- The digits in front of a text. -/
def digits (cs : List Char) : List Char := cs.takeWhile Char.isDigit

/-- The exponent in front of a text: a mark, perhaps a sign, and digits. Empty if there is none. -/
def exponent : List Char → List Char
  | e :: s :: cs =>
    if isExponentMark e && isSign s && cs.head?.any Char.isDigit then e :: s :: digits cs
    else if isExponentMark e && s.isDigit then e :: digits (s :: cs)
    else []
  | _ => []

/-- The fraction in front of a text: a point and digits, which may be missing. Empty if there is no
point. -/
def fraction : List Char → List Char
  | '.' :: cs => '.' :: digits cs
  | _ => []

/-- The decimal literal in front of a text: digits, perhaps a fraction, and perhaps an exponent. It
may begin with the fraction if that has digits. Empty if there is none. -/
def decimal (cs : List Char) : List Char :=
  let rest := cs.dropWhile Char.isDigit
  if (digits cs).isEmpty && (fraction rest).length ≤ 1 then []
  else digits cs ++ fraction rest ++ exponent (rest.drop (fraction rest).length)

/-- The hexadecimal literal in front of a text. Empty if there is none. -/
def hexadecimal : List Char → List Char
  | z :: x :: cs =>
    if z == '0' && (x == 'x' || x == 'X') && cs.head?.any isHexDigit then
      z :: x :: cs.takeWhile isHexDigit
    else []
  | _ => []

/-- The number literal in front of a text. Empty if there is none. -/
def numeral (cs : List Char) : List Char :=
  if (hexadecimal cs).isEmpty then decimal cs else hexadecimal cs

/-- What of a text belongs to a string literal that a quote has opened: all up to the next such
quote that no backslash stands in front of, or to the end. -/
def inString (quote : Char) : List Char → List Char
  | [] => []
  | '\\' :: c :: cs => '\\' :: c :: inString quote cs
  | c :: cs => if c = quote then [c] else c :: inString quote cs

/-! ## Tokens -/

/-- A token of source text. -/
inductive Token where
  | word (text : List Char)
  /-- A number literal. -/
  | numeral (text : List Char)
  /-- A string literal with its quotes. -/
  | string (text : List Char)
  /-- Any other character. -/
  | mark (c : Char)
  deriving DecidableEq

namespace Token

/-- The text of a token. -/
def text : Token → List Char
  | word text => text
  | numeral text => text
  | string text => text
  | mark c => [c]

/-- The text of a number literal. -/
def numeral? : Token → Option (List Char)
  | numeral text => some text
  | _ => none

end Token

/-- The token in front of a text that begins with a character. -/
def firstToken (c : Char) (cs : List Char) : Token :=
  if !(numeral (c :: cs)).isEmpty then .numeral (numeral (c :: cs))
  else if isNameChar c then .word (c :: cs.takeWhile isNameChar)
  else if c = '"' ∨ c = '\x27' then .string (c :: inString c cs)
  else .mark c

/-- The tokens of a text, of which some characters in front belong to a token already read. -/
def tokensBehind : Nat → List Char → List Token
  | _, [] => []
  | behind + 1, _ :: cs => tokensBehind behind cs
  | 0, c :: cs => firstToken c cs :: tokensBehind ((firstToken c cs).text.length - 1) cs

/-- The tokens of a text. -/
def tokens (cs : List Char) : List Token := tokensBehind 0 cs

/-- The number literals of a text. -/
def numerals (cs : List Char) : List (List Char) := (tokens cs).filterMap Token.numeral?

/-- A point belongs to the digits in front of it, and otherwise to those behind it. -/
example : tokens "1.x.5e3 a.b".toList
    = [.numeral "1.".toList, .word "x".toList, .numeral ".5e3".toList, .mark ' ',
      .word "a".toList, .mark '.', .word "b".toList] := by
  decide

/-! ## Cutting loses nothing -/

theorem isPrefix_digits (cs : List Char) : digits cs <+: cs := List.takeWhile_prefix _

theorem isPrefix_exponent (cs : List Char) : exponent cs <+: cs := by
  fun_cases exponent cs with
  | case1 e s cs =>
      exact (List.prefix_cons_inj e).mpr ((List.prefix_cons_inj s).mpr (isPrefix_digits cs))
  | case2 e s cs => exact (List.prefix_cons_inj e).mpr (isPrefix_digits (s :: cs))
  | case3 => exact List.nil_prefix
  | case4 => exact List.nil_prefix

theorem isPrefix_fraction (cs : List Char) : fraction cs <+: cs := by
  fun_cases fraction cs with
  | case1 cs => exact (List.prefix_cons_inj '.').mpr (isPrefix_digits cs)
  | case2 => exact List.nil_prefix

theorem isPrefix_decimal (cs : List Char) : decimal cs <+: cs := by
  rw [decimal]
  split
  · exact List.nil_prefix
  · have hexponent := isPrefix_exponent
      ((cs.dropWhile Char.isDigit).drop (fraction (cs.dropWhile Char.isDigit)).length)
    have hall := (List.prefix_append_right_inj (digits cs)).mpr
      ((List.prefix_append_right_inj (fraction (cs.dropWhile Char.isDigit))).mpr hexponent)
    rwa [List.prefix_iff_eq_append.mp (isPrefix_fraction _), digits,
      List.takeWhile_append_dropWhile, ← List.append_assoc] at hall

theorem isPrefix_hexadecimal (cs : List Char) : hexadecimal cs <+: cs := by
  fun_cases hexadecimal cs with
  | case1 z x cs =>
      exact (List.prefix_cons_inj z).mpr ((List.prefix_cons_inj x).mpr (List.takeWhile_prefix _))
  | case2 => exact List.nil_prefix
  | case3 => exact List.nil_prefix

theorem isPrefix_numeral (cs : List Char) : numeral cs <+: cs := by
  rw [numeral]
  split
  · exact isPrefix_decimal cs
  · exact isPrefix_hexadecimal cs

theorem isPrefix_inString (quote : Char) (cs : List Char) : inString quote cs <+: cs := by
  fun_induction inString quote cs with
  | case1 => exact List.nil_prefix
  | case2 c cs ih => exact (List.prefix_cons_inj '\\').mpr ((List.prefix_cons_inj c).mpr ih)
  | case3 cs _ => exact (List.prefix_cons_inj quote).mpr List.nil_prefix
  | case4 c cs _ _ ih => exact (List.prefix_cons_inj c).mpr ih

/-- The first token of a text is its first character, with some that stand behind it. -/
theorem exists_text_firstToken (c : Char) (cs : List Char) :
    ∃ before rest, cs = before ++ rest ∧ (firstToken c cs).text = c :: before := by
  have hprefix : (firstToken c cs).text <+: c :: cs ∧ (firstToken c cs).text ≠ [] := by
    fun_cases firstToken c cs with
    | case1 h =>
        refine ⟨isPrefix_numeral _, ?_⟩
        intro hnil
        simp [Token.text] at hnil
        simp [hnil] at h
    | case2 =>
        exact ⟨(List.prefix_cons_inj c).mpr (List.takeWhile_prefix _), List.cons_ne_nil _ _⟩
    | case3 => exact ⟨(List.prefix_cons_inj c).mpr (isPrefix_inString c cs), List.cons_ne_nil _ _⟩
    | case4 => exact ⟨(List.prefix_cons_inj c).mpr List.nil_prefix, List.cons_ne_nil _ _⟩
  obtain ⟨⟨rest, hrest⟩, hne⟩ := hprefix
  obtain ⟨x, before, hx⟩ := List.exists_cons_of_ne_nil hne
  rw [hx, List.cons_append, List.cons.injEq] at hrest
  exact ⟨before, rest, hrest.2.symm, by rw [hx, hrest.1]⟩

theorem tokensBehind_eq (behind : Nat) (cs : List Char) :
    tokensBehind behind cs = tokens (cs.drop behind) := by
  induction cs generalizing behind with
  | nil => rw [List.drop_nil]; cases behind <;> rfl
  | cons c cs ih =>
      cases behind with
      | zero => rfl
      | succ behind => exact ih behind

theorem tokens_nil : tokens [] = [] := rfl

/-- A text is read token by token. -/
theorem tokens_cons_append {c : Char} {before rest : List Char}
    (h : (firstToken c (before ++ rest)).text = c :: before) :
    tokens (c :: (before ++ rest)) = firstToken c (before ++ rest) :: tokens rest := by
  show firstToken c (before ++ rest)
    :: tokensBehind ((firstToken c (before ++ rest)).text.length - 1) (before ++ rest) = _
  rw [tokensBehind_eq, h, List.length_cons, Nat.add_sub_cancel, List.drop_left]

/-- The tokens of a text are the text. -/
theorem flatMap_text_tokens : ∀ cs : List Char, (tokens cs).flatMap Token.text = cs
  | [] => rfl
  | c :: cs => by
      obtain ⟨before, rest, hcs, htext⟩ := exists_text_firstToken c cs
      have hlt : rest.length < (c :: cs).length := by
        rw [hcs, List.length_cons, List.length_append]
        omega
      have hrest := flatMap_text_tokens rest
      subst hcs
      rw [tokens_cons_append htext, List.flatMap_cons, htext, hrest, List.cons_append]
termination_by cs => cs.length

/-! ## Literals as they are written -/

/-- Whether a text is the fraction of a decimal literal: a point and digits, or nothing. -/
def isFraction : List Char → Bool
  | [] => true
  | c :: ds => c == '.' && !ds.isEmpty && ds.all Char.isDigit

/-- Whether a text is the exponent of a decimal literal: a mark, perhaps a sign, and digits, or
nothing. -/
def isExponent : List Char → Bool
  | [] => true
  | [_] => false
  | e :: s :: ds =>
    isExponentMark e && ds.all Char.isDigit && (s.isDigit || isSign s && !ds.isEmpty)

/-- Whether a text is a decimal literal: digits, perhaps a fraction, and perhaps an exponent. -/
def isDecimal (w : List Char) : Bool :=
  let rest := w.dropWhile Char.isDigit
  !(digits w).isEmpty && isFraction (rest.takeWhile (!isExponentMark ·))
    && isExponent (rest.dropWhile (!isExponentMark ·))

/-- Whether a text is one word: name characters, with no digit in front. -/
def isName (w : List Char) : Bool := w.all isNameChar && w.head?.any (!·.isDigit)

/-- Whether a text is the inside of a string literal that needs no escapes. -/
def isPlainString (w : List Char) : Bool := w.all fun c => c != '"' && c != '\\'

namespace Token

/-- Whether a token is one of those that are written. -/
def isWritten : Token → Bool
  | word w => isName w
  | numeral w => isDecimal w
  | string w => w == '"' :: w.tail.dropLast ++ ['"'] && isPlainString w.tail.dropLast
  | mark c => !isNameChar c && c != '"' && c != '\x27'

/-- Whether a token ends in front of a character. -/
def endsBefore (c : Char) : Token → Bool
  | word _ => !isNameChar c
  | numeral w => !isNameChar c && !(c == '.' && w.all Char.isDigit)
  | string _ => true
  | mark m => !(m == '.' && c.isDigit)

/-- Whether two tokens stay two when they are put side by side. -/
def apart (t u : Token) : Bool := u.text.head?.all (endsBefore · t)

/-- Whether a point stands between two tokens that one of them would be read with: a whole number in
front of a point, or a point in front of a number. -/
def sharesPoint : Token → Token → Bool
  | numeral w, mark c => c == '.' && w.all Char.isDigit
  | mark c, numeral _ => c == '.'
  | _, _ => false

end Token

theorem isNameChar_of_isDigit {c : Char} (h : c.isDigit = true) : isNameChar c = true := by
  simp [isNameChar, isWordChar, Char.isAlphanum, h]

theorem isNameChar_of_isExponentMark {c : Char} (h : isExponentMark c = true) :
    isNameChar c = true := by
  simp only [isExponentMark, Bool.or_eq_true, beq_iff_eq] at h
  rcases h with rfl | rfl <;> decide

/-- Characters of one kind, and a text behind them that does not begin with another one of it. -/
theorem span_append {p : Char → Bool} {w : List Char} (h : w.all p = true) {rest : List Char}
    (hrest : rest.head?.any p = false) :
    (w ++ rest).takeWhile p = w ∧ (w ++ rest).dropWhile p = rest := by
  rw [List.all_eq_true] at h
  rw [List.takeWhile_append_of_pos h, List.dropWhile_append_of_pos h]
  cases rest with
  | nil => simp
  | cons c rest =>
      have hc : p c = false := hrest
      simp [hc]

/-- The digits in front of a text that does not begin with a digit. -/
theorem digits_append {ds : List Char} (h : ds.all Char.isDigit = true) {rest : List Char}
    (hrest : rest.head?.any Char.isDigit = false) :
    digits (ds ++ rest) = ds ∧ (ds ++ rest).dropWhile Char.isDigit = rest :=
  span_append h hrest

theorem digits_eq_nil {cs : List Char} (h : cs.head?.any Char.isDigit = false) :
    digits cs = [] ∧ cs.dropWhile Char.isDigit = cs := by
  have hsplit : digits ([] ++ cs) = [] ∧ ([] ++ cs).dropWhile Char.isDigit = cs :=
    digits_append rfl h
  exact hsplit

/-- What begins with an exponent, or with no name character, does not begin with a digit. -/
theorem head?_power_append {power : List Char} (h : isExponent power = true) {rest : List Char}
    (hrest : rest.head?.any isNameChar = false) :
    (power ++ rest).head?.any Char.isDigit = false := by
  fun_cases isExponent power with
  | case1 =>
      cases rest with
      | nil => rfl
      | cons c rest =>
          have hc : isNameChar c = false := hrest
          exact Bool.eq_false_iff.mpr fun hdigit =>
            Bool.eq_false_iff.mp hc (isNameChar_of_isDigit hdigit)
  | case2 => cases h
  | case3 e s ds =>
      simp only [isExponent, isExponentMark, Bool.and_eq_true, Bool.or_eq_true, beq_iff_eq] at h
      rcases h.1.1 with rfl | rfl <;> rfl

theorem exponent_eq_nil {rest : List Char} (h : rest.head?.any isNameChar = false) :
    exponent rest = [] := by
  cases rest with
  | nil => rfl
  | cons e rest =>
      have hmark : isExponentMark e = false :=
        Bool.eq_false_iff.mpr fun hmark =>
          Bool.eq_false_iff.mp h (isNameChar_of_isExponentMark hmark)
      cases rest with
      | nil => rfl
      | cons s rest => simp [exponent, hmark]

theorem exponent_append {power : List Char} (h : isExponent power = true) {rest : List Char}
    (hrest : rest.head?.any isNameChar = false) : exponent (power ++ rest) = power := by
  have hdigit : rest.head?.any Char.isDigit = false :=
    show ([] ++ rest).head?.any Char.isDigit = false from head?_power_append rfl hrest
  fun_cases isExponent power with
  | case1 => exact exponent_eq_nil hrest
  | case2 => cases h
  | case3 e s ds =>
      simp only [isExponent, Bool.and_eq_true, Bool.or_eq_true] at h
      obtain ⟨⟨hmark, hds⟩, hs⟩ := h
      rcases hs with hs | ⟨hsign, hne⟩
      · have hsds : (s :: ds).all Char.isDigit = true := by rw [List.all_cons, hs, hds]; rfl
        have hsign : isSign s = false := by
          rw [isSign_eq_false]
          constructor <;> rintro rfl <;> exact absurd hs (by decide)
        have hrun := (digits_append hsds hdigit).1
        rw [List.cons_append] at hrun
        simp [exponent, hmark, hs, hsign, hrun]
      · obtain ⟨c, ds, rfl⟩ := List.exists_cons_of_ne_nil (by simpa using hne)
        have hc := (List.all_cons ▸ hds : (c.isDigit && ds.all Char.isDigit) = true)
        have hrun := (digits_append hds hdigit).1
        rw [List.cons_append] at hrun
        simp only [Bool.and_eq_true] at hc
        simp [exponent, hmark, hsign, hc.1, hrun]

theorem parts_of_isDecimal {w : List Char} (h : isDecimal w = true) :
    ∃ whole part power, w = whole ++ (part ++ power) ∧ whole ≠ [] ∧ whole.all Char.isDigit = true
      ∧ isFraction part = true ∧ isExponent power = true := by
  simp only [isDecimal, Bool.and_eq_true, Bool.not_eq_true', List.isEmpty_eq_false_iff] at h
  obtain ⟨⟨hwhole, hpart⟩, hpower⟩ := h
  refine ⟨_, _, _, ?_, hwhole, List.all_takeWhile, hpart, hpower⟩
  rw [List.takeWhile_append_dropWhile, digits, List.takeWhile_append_dropWhile]

theorem fraction_append {part : List Char} (h : isFraction part = true) {rest : List Char}
    (hdigit : rest.head?.any Char.isDigit = false) (hpoint : part = [] → rest.head? ≠ some '.') :
    fraction (part ++ rest) = part := by
  cases part with
  | nil =>
      rw [List.nil_append]
      fun_cases fraction rest with
      | case1 => exact absurd rfl (hpoint rfl)
      | case2 => rfl
  | cons c ds =>
      simp only [isFraction, Bool.and_eq_true, beq_iff_eq] at h
      obtain ⟨⟨rfl, _⟩, hds⟩ := h
      exact congrArg _ (digits_append hds hdigit).1

/-- A decimal literal is read in front of a text that cannot be taken for more of it. -/
theorem decimal_append {w : List Char} (h : isDecimal w = true) {rest : List Char}
    (hrest : rest.head?.all (Token.endsBefore · (.numeral w)) = true) :
    decimal (w ++ rest) = w := by
  obtain ⟨whole, part, power, rfl, hne, hwhole, hpart, hpower⟩ := parts_of_isDecimal h
  have hname : rest.head?.any isNameChar = false := by
    cases rest with
    | nil => rfl
    | cons c rest =>
        simp only [List.head?_cons, Option.all_some, Token.endsBefore, Bool.and_eq_true,
          Bool.not_eq_true'] at hrest
        exact hrest.1
  have hafter := head?_power_append hpower hname
  -- without a fraction and an exponent the literal is whole, and then no point follows
  have hpoint : part = [] → (power ++ rest).head? ≠ some '.' := by
    rintro rfl hhead
    fun_cases isExponent power with
    | case1 =>
        rw [List.nil_append] at hhead
        rw [hhead] at hrest
        simp [Token.endsBefore, hwhole] at hrest
    | case2 => cases hpower
    | case3 e s ds =>
        cases hhead
        simp [isExponent, isExponentMark] at hpower
  have hfirst : (part ++ (power ++ rest)).head?.any Char.isDigit = false := by
    cases part with
    | nil => exact hafter
    | cons c ds =>
        simp only [isFraction, Bool.and_eq_true, beq_iff_eq] at hpart
        rw [hpart.1.1]
        rfl
  obtain ⟨hdigits, hdrop⟩ := digits_append hwhole hfirst
  have hempty : whole.isEmpty = false := by simpa using hne
  rw [decimal, List.append_assoc, List.append_assoc, hdigits, hdrop,
    fraction_append hpart hafter hpoint, hempty, List.drop_left, exponent_append hpower hname,
    ← List.append_assoc]
  rfl

/-- The letter of hexadecimal literals stands in no decimal literal. -/
theorem not_mem_of_isDecimal {w : List Char} (h : isDecimal w = true) {x : Char}
    (hx : x = 'x' ∨ x = 'X') : x ∉ w := by
  have hdigit : x.isDigit = false := by rcases hx with rfl | rfl <;> decide
  have hdigits : ∀ {ds : List Char}, ds.all Char.isDigit = true → x ∉ ds := fun hds hmem =>
    Bool.eq_false_iff.mp hdigit (List.all_eq_true.mp hds x hmem)
  obtain ⟨whole, part, power, rfl, _, hwhole, hpart, hpower⟩ := parts_of_isDecimal h
  rw [List.mem_append, List.mem_append, not_or, not_or]
  refine ⟨hdigits hwhole, ?_, ?_⟩
  · cases part with
    | nil => exact List.not_mem_nil
    | cons c ds =>
        simp only [isFraction, Bool.and_eq_true, beq_iff_eq] at hpart
        rw [List.mem_cons, not_or, hpart.1.1]
        exact ⟨by rcases hx with rfl | rfl <;> decide, hdigits hpart.2⟩
  · fun_cases isExponent power with
    | case1 => exact List.not_mem_nil
    | case2 => cases hpower
    | case3 e s ds =>
        simp only [isExponent, Bool.and_eq_true, Bool.or_eq_true] at hpower
        obtain ⟨⟨hmark, hds⟩, hs⟩ := hpower
        rw [List.mem_cons, List.mem_cons, not_or, not_or]
        refine ⟨?_, ?_, hdigits hds⟩
        · rintro rfl
          rcases hx with rfl | rfl <;> exact absurd hmark (by decide)
        · rintro rfl
          have hsign : isSign x = false := by rcases hx with rfl | rfl <;> decide
          simp [hdigit, hsign] at hs

theorem hexadecimal_eq_nil {cs : List Char}
    (h : ∀ x : Char, x = 'x' ∨ x = 'X' → cs.tail.head? ≠ some x) : hexadecimal cs = [] := by
  fun_cases hexadecimal cs with
  | case1 z x cs hx =>
      simp only [Bool.and_eq_true, Bool.or_eq_true, beq_iff_eq] at hx
      exact absurd rfl (h x hx.1.2)
  | case2 => rfl
  | case3 => rfl

/-- A decimal literal is the number literal in front of a text that cannot be taken for more of
it. -/
theorem numeral_append {w : List Char} (h : isDecimal w = true) {rest : List Char}
    (hrest : rest.head?.all (Token.endsBefore · (.numeral w)) = true) :
    numeral (w ++ rest) = w := by
  have hhex : hexadecimal (w ++ rest) = [] := by
    refine hexadecimal_eq_nil fun x hx hhead => ?_
    have hw := not_mem_of_isDecimal h hx
    cases w with
    | nil => cases h
    | cons c w =>
        rw [List.cons_append, List.tail_cons] at hhead
        cases w with
        | nil =>
            rw [List.nil_append] at hhead
            rw [hhead] at hrest
            rcases hx with rfl | rfl <;> simp [Token.endsBefore, isNameChar, isWordChar] at hrest
        | cons c' w =>
            cases hhead
            exact hw (.tail _ (.head _))
  rw [numeral, hhex]
  exact decimal_append h hrest

/-- What begins with neither a digit nor a point with a digit behind it is no number literal. -/
theorem numeral_eq_nil {c : Char} (hc : c.isDigit = false) {cs : List Char}
    (hpoint : c = '.' → cs.head?.any Char.isDigit = false) : numeral (c :: cs) = [] := by
  have hzero : c ≠ '0' := by
    rintro rfl
    exact absurd hc (by decide)
  have hhex : hexadecimal (c :: cs) = [] := by cases cs <;> simp [hexadecimal, hzero]
  have hfraction : (fraction (c :: cs)).length ≤ 1 := by
    by_cases h : c = '.'
    · subst h
      rw [fraction, (digits_eq_nil (hpoint rfl)).1]
      exact Nat.le_refl 1
    · rw [fraction.eq_2 _ fun cs' heq => h (List.cons.inj heq).1]
      exact Nat.zero_le 1
  have hnone : digits (c :: cs) = [] ∧ _ := digits_eq_nil hc
  rw [numeral, hhex, decimal, hnone.1, hnone.2, decide_eq_true hfraction]
  rfl

theorem inString_append {quote : Char} (hquote : quote ≠ '\\') {body : List Char}
    (h : ∀ c ∈ body, c ≠ quote ∧ c ≠ '\\') (rest : List Char) :
    inString quote (body ++ quote :: rest) = body ++ [quote] := by
  have hplain : ∀ {c : Char} (cs : List Char), c ≠ '\\' →
      inString quote (c :: cs) = if c = quote then [c] else c :: inString quote cs := by
    intro c cs hc
    rw [inString.eq_3 _ _ _ fun c' cs' hc' _ => hc hc']
  induction body with
  | nil => rw [List.nil_append, hplain rest hquote, if_pos rfl]; rfl
  | cons c body ih =>
      rw [List.forall_mem_cons] at h
      rw [List.cons_append, hplain _ h.1.2, if_neg h.1.1, ih h.2, List.cons_append]

/-- A written token is the first token of a text that begins with it and goes on with what cannot be
taken for more of it. -/
theorem firstToken_append {t : Token} (h : t.isWritten = true) {rest : List Char}
    (hrest : rest.head?.all (Token.endsBefore · t) = true) :
    ∃ c before, t.text = c :: before ∧ firstToken c (before ++ rest) = t := by
  cases t with
  | word w =>
      simp only [Token.isWritten, isName, Bool.and_eq_true] at h
      cases w with
      | nil => exact absurd h.2 (by decide)
      | cons c w =>
          have hc : c.isDigit = false := by simpa using h.2
          rw [List.all_cons, Bool.and_eq_true] at h
          have hpoint : c ≠ '.' := by
            rintro rfl
            exact absurd h.1.1 (by decide)
          have hend : rest.head?.any isNameChar = false := by
            cases rest with
            | nil => rfl
            | cons x rest => simpa [Token.endsBefore] using hrest
          refine ⟨c, w, rfl, ?_⟩
          rw [firstToken, numeral_eq_nil hc fun heq => absurd heq hpoint,
            (span_append h.1.2 hend).1]
          exact if_pos h.1.1
  | numeral w =>
      have hnumeral := numeral_append h hrest
      cases w with
      | nil => cases h
      | cons c w =>
          refine ⟨c, w, rfl, ?_⟩
          rw [List.cons_append] at hnumeral
          rw [firstToken, hnumeral]
          rfl
  | string w =>
      simp only [Token.isWritten, Bool.and_eq_true, beq_iff_eq] at h
      obtain ⟨hw, hplain⟩ := h
      generalize w.tail.dropLast = body at hw hplain
      subst hw
      have hbody : ∀ c ∈ body, c ≠ '"' ∧ c ≠ '\\' := by simpa [isPlainString] using hplain
      refine ⟨'"', body ++ ['"'], rfl, ?_⟩
      have hread := inString_append (by decide) hbody rest
      rw [List.append_assoc, List.singleton_append, firstToken,
        numeral_eq_nil (by decide) fun heq => absurd heq (by decide), hread]
      rfl
  | mark c =>
      simp only [Token.isWritten, Bool.and_eq_true, Bool.not_eq_true', bne_iff_ne] at h
      obtain ⟨⟨hname, hdouble⟩, hsingle⟩ := h
      have hdigit : c.isDigit = false :=
        Bool.eq_false_iff.mpr fun hc => Bool.eq_false_iff.mp hname (isNameChar_of_isDigit hc)
      have hpoint : c = '.' → rest.head?.any Char.isDigit = false := by
        rintro rfl
        cases rest with
        | nil => rfl
        | cons x rest => simpa [Token.endsBefore] using hrest
      refine ⟨c, [], rfl, ?_⟩
      rw [List.nil_append, firstToken, numeral_eq_nil hdigit hpoint, hname,
        if_neg (not_or.mpr ⟨hdouble, hsingle⟩)]
      rfl

theorem tokens_append {t : Token} (h : t.isWritten = true) {rest : List Char}
    (hrest : rest.head?.all (Token.endsBefore · t) = true) :
    tokens (t.text ++ rest) = t :: tokens rest := by
  obtain ⟨c, before, htext, hfirst⟩ := firstToken_append h hrest
  rw [htext, List.cons_append, tokens_cons_append (by rw [hfirst, htext]), hfirst]

/-! ## Tokens side by side -/

namespace Token

theorem exists_text_of_isWritten {t : Token} (h : t.isWritten = true) :
    ∃ c before, t.text = c :: before := by
  obtain ⟨c, before, htext, _⟩ := firstToken_append h
    (show ([] : List Char).head?.all (endsBefore · t) = true from rfl)
  exact ⟨c, before, htext⟩

/-- A number literal begins with a digit. -/
theorem exists_digit_of_isDecimal {w : List Char} (h : isDecimal w = true) :
    ∃ c before, w = c :: before ∧ c.isDigit = true := by
  obtain ⟨whole, part, power, rfl, hne, hwhole, _, _⟩ := parts_of_isDecimal h
  obtain ⟨c, whole, rfl⟩ := List.exists_cons_of_ne_nil hne
  rw [List.all_cons, Bool.and_eq_true] at hwhole
  exact ⟨c, _, rfl, hwhole.1⟩

theorem head?_flatMap_text {u : Token} (hu : u.isWritten = true) (us : List Token) :
    ((u :: us).flatMap text).head? = u.text.head? := by
  obtain ⟨c, before, htext⟩ := exists_text_of_isWritten hu
  rw [List.flatMap_cons, htext]
  rfl

/-- A token that stays apart from the next is read back in front of it. -/
theorem tokens_cons_flatMap {t : Token} (ht : t.isWritten = true) {us : List Token}
    (hus : ∀ u ∈ us, u.isWritten = true) (h : ∀ u ∈ us.head?, t.apart u = true) :
    tokens ((t :: us).flatMap text) = t :: tokens (us.flatMap text) := by
  rw [List.flatMap_cons]
  refine tokens_append ht ?_
  cases us with
  | nil => rfl
  | cons u us =>
      rw [head?_flatMap_text (hus u List.mem_cons_self)]
      exact h u rfl

end Token

open Token (apart sharesPoint)

/-- Tokens side by side are read back if each stays apart from the next. -/
theorem tokens_flatMap {ts : List Token} (hts : ∀ t ∈ ts, t.isWritten = true)
    (h : ts.IsChain (apart · ·)) : tokens (ts.flatMap Token.text) = ts := by
  induction ts with
  | nil => rfl
  | cons t ts ih =>
      rw [List.forall_mem_cons] at hts
      rw [List.isChain_cons] at h
      rw [Token.tokens_cons_flatMap hts.1 hts.2 h.1, ih hts.2 h.2]

/-- What begins like a number literal has it as its first. -/
theorem head?_numerals {c : Char} {cs : List Char} (h : numeral (c :: cs) ≠ []) :
    (numerals (c :: cs)).head? = some (numeral (c :: cs)) := by
  have hfirst : firstToken c cs = .numeral (numeral (c :: cs)) := by
    rw [firstToken]
    exact if_pos (by simpa using h)
  have hcons : numerals (c :: cs) = numeral (c :: cs) :: _ := List.filterMap_cons_some (by
    rw [hfirst]
    rfl)
  rw [hcons, List.head?_cons]

/-- Digits in front of a point are read with the point. -/
theorem head?_numerals_whole {w : List Char} (hne : w ≠ []) (hw : w.all Char.isDigit = true)
    (rest : List Char) : ∃ more, (numerals (w ++ '.' :: rest)).head? = some (w ++ '.' :: more) := by
  obtain ⟨c, w, rfl⟩ := List.exists_cons_of_ne_nil hne
  have hhex : hexadecimal (c :: w ++ '.' :: rest) = [] := by
    refine hexadecimal_eq_nil fun x hx hhead => ?_
    cases w with
    | nil =>
        cases hhead
        rcases hx with hx | hx <;> exact absurd hx (by decide)
    | cons c' w =>
        cases hhead
        simp only [List.all_cons, Bool.and_eq_true] at hw
        rcases hx with rfl | rfl <;> exact absurd hw.2.1 (by decide)
  obtain ⟨hdigits, hrest⟩ := digits_append hw
    (show ('.' :: rest).head?.any Char.isDigit = false from rfl)
  have hnumeral : ∃ more, numeral (c :: w ++ '.' :: rest) = c :: w ++ '.' :: more := by
    rw [numeral, hhex, decimal, hdigits, hrest]
    exact ⟨_, List.append_assoc _ _ _⟩
  obtain ⟨more, hmore⟩ := hnumeral
  have hsome : numeral (c :: w ++ '.' :: rest) ≠ [] := by
    rw [hmore]
    exact List.cons_ne_nil _ _
  exact ⟨more, hmore ▸ head?_numerals hsome⟩

/-- A point in front of a digit is read with the digit. -/
theorem head?_numerals_point {c : Char} (hc : c.isDigit = true) (rest : List Char) :
    ∃ more, (numerals ('.' :: c :: rest)).head? = some ('.' :: more) := by
  have hnumeral : ∃ more, numeral ('.' :: c :: rest) = '.' :: more := by
    have hhex : hexadecimal ('.' :: c :: rest) = [] := by simp [hexadecimal]
    have hdigits : digits (c :: rest) = c :: digits rest := List.takeWhile_cons_of_pos hc
    have hpoint : digits ('.' :: c :: rest) = [] := List.takeWhile_cons_of_neg (by decide)
    have hfraction : fraction ('.' :: c :: rest) = '.' :: c :: digits rest := congrArg _ hdigits
    rw [numeral, hhex, decimal, List.dropWhile_cons_of_neg (by decide), hpoint, hfraction]
    exact ⟨_, rfl⟩
  obtain ⟨more, hmore⟩ := hnumeral
  have hsome : numeral ('.' :: c :: rest) ≠ [] := by
    rw [hmore]
    exact List.cons_ne_nil _ _
  exact ⟨more, hmore ▸ head?_numerals hsome⟩

namespace Token

/-- Tokens that share a point do not leave the first number literal as it is. -/
theorem head?_numerals_ne {t u : Token} (ht : t.isWritten = true) (hu : u.isWritten = true)
    (h : t.sharesPoint u = true) (us : List Token) :
    (numerals ((t :: u :: us).flatMap text)).head? ≠ ((t :: u :: us).filterMap numeral?).head? := by
  rw [List.flatMap_cons, List.flatMap_cons]
  fun_cases sharesPoint t u with
  | case1 w c =>
      simp only [sharesPoint, Bool.and_eq_true, beq_iff_eq] at h
      obtain ⟨x, before, hw, _⟩ := exists_digit_of_isDecimal ht
      obtain ⟨more, hmore⟩ := head?_numerals_whole (hw ▸ List.cons_ne_nil x before) h.2
        (us.flatMap text)
      intro heq
      rw [h.1] at heq
      have hsame : some (w ++ '.' :: more) = some w := hmore.symm.trans heq
      simp at hsame
  | case2 c w =>
      simp only [sharesPoint, beq_iff_eq] at h
      obtain ⟨x, before, rfl, hx⟩ := exists_digit_of_isDecimal hu
      obtain ⟨more, hmore⟩ := head?_numerals_point hx (before ++ us.flatMap text)
      intro heq
      rw [h] at heq
      have hsame : some ('.' :: more) = some (x :: before) := hmore.symm.trans heq
      cases hsame
      exact absurd hx (by decide)
  | case3 _ _ hwhole hpoint =>
      rw [sharesPoint.eq_3 _ _ hwhole hpoint] at h
      cases h

end Token

/-- Where tokens side by side can only be read together over a point that they share, their number
literals are read back just if no two of them share one. -/
theorem numerals_flatMap_iff {ts : List Token} (hts : ∀ t ∈ ts, t.isWritten = true)
    (h : ts.IsChain fun t u => t.apart u = true ∨ t.sharesPoint u = true) :
    numerals (ts.flatMap Token.text) = ts.filterMap Token.numeral?
      ↔ ts.IsChain fun t u => t.apart u = true := by
  constructor
  · intro heq
    induction ts with
    | nil => exact .nil
    | cons t ts ih =>
        rw [List.forall_mem_cons] at hts
        rw [List.isChain_cons] at h
        have hnext : ∀ u ∈ ts.head?, t.apart u = true := by
          intro u hu
          refine (h.1 u hu).resolve_right fun hshares => ?_
          cases ts with
          | nil => cases hu
          | cons v ts =>
              cases hu
              exact Token.head?_numerals_ne hts.1 (hts.2 _ List.mem_cons_self) hshares ts
                (congrArg List.head? heq)
        have hrest : numerals (ts.flatMap Token.text) = ts.filterMap Token.numeral? := by
          rw [numerals, Token.tokens_cons_flatMap hts.1 hts.2 hnext] at heq
          cases ht : t.numeral? with
          | none => rwa [List.filterMap_cons_none ht, List.filterMap_cons_none ht] at heq
          | some w =>
              rw [List.filterMap_cons_some ht, List.filterMap_cons_some ht] at heq
              exact (List.cons.inj heq).2
        exact List.isChain_cons.mpr ⟨hnext, ih hts.2 h.2 hrest⟩
  · intro hapart
    rw [numerals, tokens_flatMap hts hapart]

end ScriptHost.Tree
