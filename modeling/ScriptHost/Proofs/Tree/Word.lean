import ScriptHost.Tree.Print

/-!
# Words, fixed text and lists, read back

Parts of readers for printed text. A reader takes a text and returns what stands in front of it
together with the text behind, or nothing. The lemmas say that a part is read back from its
printed form, whatever stands behind, as long as the text behind cannot be taken for more of it:
`identifier?_append` for identifiers, `strip?_append` for fixed text and `bracketed?_commas` for
lists in brackets.
-/

set_option autoImplicit false

namespace ScriptHost.Tree

/-- A reader takes what it reads from the front of a text and leaves the text behind. -/
abbrev Reader (α : Type) := List Char → Option (α × List Char)

/-! ## Words -/

/-- Whether a character can stand in an identifier. -/
def isWordChar (c : Char) : Bool := c.isAlphanum || c == '_' || c == '$'

/-- The words that are part of the printed language. -/
def keywords : List String :=
  ["var", "new", "function", "break", "continue", "null", "true", "false", "this", "do", "while",
    "for", "in", "if", "else", "try", "catch", "finally", "return", "throw", "delete", "typeof",
    "void", "instanceof"]

/-- An identifier: letters, digits, `_` and `$`, with no digit in front, and no keyword. -/
structure IsIdentifier (s : String) : Prop where
  word : s.toList.all isWordChar = true
  start : s.toList.head?.any (!·.isDigit) = true
  free : s ∉ keywords

instance (s : String) : Decidable (IsIdentifier s) :=
  decidable_of_iff (s.toList.all isWordChar = true ∧ s.toList.head?.any (!·.isDigit) = true ∧
      s ∉ keywords)
    ⟨fun ⟨hword, hstart, hfree⟩ => ⟨hword, hstart, hfree⟩,
      fun h => ⟨h.word, h.start, h.free⟩⟩

/-- The word in front of a text, which may be empty, and the text behind it. -/
def splitWord (cs : List Char) : List Char × List Char :=
  (cs.takeWhile isWordChar, cs.dropWhile isWordChar)

/-- Whether a word in front of this text ends there. -/
def endsWord (cs : List Char) : Bool := !cs.head?.any isWordChar

theorem endsWord_append {before : List Char} (h : before.head?.any (!isWordChar ·) = true)
    (cs : List Char) : endsWord (before ++ cs) = true := by
  cases before with
  | nil => exact absurd h (by decide)
  | cons c before => exact h

theorem splitWord_of_endsWord {cs : List Char} (h : endsWord cs = true) :
    splitWord cs = ([], cs) := by
  cases cs with
  | nil => rfl
  | cons c cs =>
      have hc : isWordChar c = false := by simpa [endsWord] using h
      rw [splitWord, List.takeWhile_cons_of_neg (by simp [hc]),
        List.dropWhile_cons_of_neg (by simp [hc])]

theorem splitWord_append {w : List Char} (hw : w.all isWordChar = true) {cs : List Char}
    (hcs : endsWord cs = true) : splitWord (w ++ cs) = (w, cs) := by
  have htail := splitWord_of_endsWord hcs
  rw [splitWord, Prod.mk.injEq] at htail
  rw [List.all_eq_true] at hw
  rw [splitWord, List.takeWhile_append_of_pos hw, List.dropWhile_append_of_pos hw, htail.1,
    htail.2, List.append_nil]

/-- Reads an identifier. -/
def identifier? : Reader String := fun cs =>
  let (w, rest) := splitWord cs
  if IsIdentifier (String.ofList w) then some (String.ofList w, rest) else none

theorem identifier?_append {s : String} (h : IsIdentifier s) {cs : List Char}
    (hcs : endsWord cs = true) : identifier? (s.toList ++ cs) = some (s, cs) := by
  rw [identifier?, splitWord_append h.word hcs]
  show (if IsIdentifier (String.ofList s.toList) then _ else _) = _
  rw [String.ofList_toList, if_pos h]

theorem IsIdentifier.exists_cons {s : String} (h : IsIdentifier s) :
    ∃ c cs, s.toList = c :: cs ∧ isWordChar c = true ∧ c.isDigit = false := by
  have hword := h.word
  have hstart := h.start
  cases hs : s.toList with
  | nil =>
      rw [hs] at hstart
      exact absurd hstart (by decide)
  | cons c cs =>
      rw [hs, List.all_cons, Bool.and_eq_true] at hword
      rw [hs, List.head?_cons, Option.any_some, Bool.not_eq_true'] at hstart
      exact ⟨c, cs, rfl, hword.1, hstart⟩

/-! ## Fixed text -/

/-- The text behind a fixed beginning. -/
def strip? : List Char → List Char → Option (List Char)
  | [], cs => some cs
  | _ :: _, [] => none
  | b :: before, c :: cs => if b = c then strip? before cs else none

@[simp] theorem strip?_append (before cs : List Char) : strip? before (before ++ cs) = some cs := by
  induction before with
  | nil => rw [List.nil_append, strip?]
  | cons b before ih => rw [List.cons_append, strip?, if_pos rfl, ih]

theorem eq_append_of_strip? {before cs rest : List Char} (h : strip? before cs = some rest) :
    cs = before ++ rest := by
  fun_induction strip? before cs with
  | case1 cs => rw [Option.some.inj h, List.nil_append]
  | case2 => exact absurd h (by simp)
  | case3 c before cs ih => rw [ih h, List.cons_append]
  | case4 => exact absurd h (by simp)

theorem strip?_eq_none {b : Char} {cs : List Char} (h : cs.head?.any (· != b) = true)
    (before : List Char) : strip? (b :: before) cs = none := by
  cases cs with
  | nil => rfl
  | cons c cs =>
      rw [List.head?_cons, Option.any_some, bne_iff_ne] at h
      rw [strip?, if_neg (Ne.symm h)]

/-- The text in front of a character, and the text behind it. -/
def splitUntil (c : Char) (cs : List Char) : List Char × List Char :=
  (cs.takeWhile (· != c), (cs.dropWhile (· != c)).tail)

theorem splitUntil_append {c : Char} {before : List Char} (h : c ∉ before) (cs : List Char) :
    splitUntil c (before ++ c :: cs) = (before, cs) := by
  have hbefore : ∀ x ∈ before, (x != c) = true := by
    intro x hx
    rw [bne_iff_ne]
    exact fun hxc => h (hxc ▸ hx)
  rw [splitUntil, List.takeWhile_append_of_pos hbefore, List.dropWhile_append_of_pos hbefore,
    List.takeWhile_cons_of_neg (by simp), List.dropWhile_cons_of_neg (by simp), List.append_nil,
    List.tail_cons]

/-! ## Lists -/

/-- Reads items with a comma and a blank between them, at least one and at most as many as the
first argument says. -/
def commas? {α : Type} (item? : Reader α) : Nat → Reader (List α)
  | 0, _ => none
  | limit + 1, cs => do
    let (x, cs) ← item? cs
    match strip? [',', ' '] cs with
    | none => some ([x], cs)
    | some cs =>
      let (xs, cs) ← commas? item? limit cs
      some (x :: xs, cs)

/-- Reads a list of any length, but at least one item. -/
def commaList? {α : Type} (item? : Reader α) : Reader (List α) := fun cs =>
  commas? item? cs.length cs

/-- Reads a list of any length up to its closing bracket. -/
def bracketed? {α : Type} (item? : Reader α) (close : Char) : Reader (List α) := fun cs =>
  match strip? [close] cs with
  | some cs => some ([], cs)
  | none => do
    let (xs, cs) ← commaList? item? cs
    let cs ← strip? [close] cs
    some (xs, cs)

section

variable {α β : Type} {item? : Reader β} {write : α → List Char} {value : α → β}

/-- Items with commas between them are read back in front of a text that begins with no comma. -/
theorem commas?_commas {items : List α} (hne : items ≠ [])
    (h : ∀ x ∈ items, ∀ cs, endsWord cs = true → item? (write x ++ cs) = some (value x, cs))
    {limit : Nat} (hlimit : items.length ≤ limit) {cs : List Char} (hcs : endsWord cs = true)
    (hcomma : cs.head?.any (· != ',') = true) :
    commas? item? limit (commas (items.map write) ++ cs) = some (items.map value, cs) := by
  induction items generalizing limit with
  | nil => exact absurd rfl hne
  | cons x items ih =>
      obtain ⟨limit, rfl⟩ : ∃ n, limit = n + 1 := ⟨limit - 1, by simp at hlimit; omega⟩
      rw [List.forall_mem_cons] at h
      cases items with
      | nil =>
          rw [List.map_singleton, commas, List.intercalate_singleton, commas?, h.1 cs hcs]
          simp only [Option.bind_eq_bind, Option.bind_some, strip?_eq_none hcomma,
            List.map_singleton]
      | cons y items =>
          have hrest := ih (List.cons_ne_nil y items) h.2 (by simpa using hlimit)
          rw [commas, List.map_cons] at hrest
          rw [commas, List.map_cons, List.map_cons, List.intercalate_cons_cons, List.append_assoc,
            List.append_assoc, commas?, h.1 _ rfl]
          simp only [Option.bind_eq_bind, Option.bind_some, strip?_append, hrest, List.map_cons]

theorem length_le_length_commas {texts : List (List Char)} (h : ∀ t ∈ texts, t ≠ []) :
    texts.length ≤ (commas texts).length := by
  induction texts with
  | nil => exact Nat.zero_le _
  | cons t texts ih =>
      rw [List.forall_mem_cons] at h
      have ht := List.length_pos_iff.mpr h.1
      have hrest := ih h.2
      cases texts with
      | nil =>
          rw [commas, List.intercalate_singleton]
          exact ht
      | cons t' texts =>
          rw [commas] at hrest
          rw [commas, List.intercalate_cons_cons]
          simp only [List.length_append, List.length_cons] at hrest ⊢
          omega

theorem head?_commas_cons {text : List Char} (h : text ≠ []) (texts : List (List Char))
    (cs : List Char) : (commas (text :: texts) ++ cs).head? = text.head? := by
  obtain ⟨c, text, rfl⟩ := List.exists_cons_of_ne_nil h
  cases texts with
  | nil =>
      rw [commas, List.intercalate_singleton, List.cons_append, List.head?_cons, List.head?_cons]
  | cons t texts =>
      rw [commas, List.intercalate_cons_cons, List.append_assoc, List.append_assoc,
        List.cons_append, List.head?_cons, List.head?_cons]

theorem commaList?_commas {items : List α} (hne : items ≠ [])
    (h : ∀ x ∈ items, ∀ cs, endsWord cs = true → item? (write x ++ cs) = some (value x, cs))
    (hwrite : ∀ x ∈ items, write x ≠ []) {cs : List Char} (hcs : endsWord cs = true)
    (hcomma : cs.head?.any (· != ',') = true) :
    commaList? item? (commas (items.map write) ++ cs) = some (items.map value, cs) := by
  have htexts : (items.map write).length ≤ (commas (items.map write)).length := by
    refine length_le_length_commas fun t ht => ?_
    obtain ⟨x, hx, rfl⟩ := List.mem_map.mp ht
    exact hwrite x hx
  rw [List.length_map] at htexts
  have hlimit : items.length ≤ (commas (items.map write) ++ cs).length := by
    rw [List.length_append]
    omega
  exact commas?_commas hne h hlimit hcs hcomma

/-- A list in brackets is read back when no item begins with the closing bracket. -/
theorem bracketed?_commas {items : List α} {close : Char}
    (h : ∀ x ∈ items, ∀ cs, endsWord cs = true → item? (write x ++ cs) = some (value x, cs))
    (hfirst : ∀ x ∈ items, (write x).head?.any (· != close) = true)
    (hclose : isWordChar close = false) (hcomma : close ≠ ',') (cs : List Char) :
    bracketed? item? close (commas (items.map write) ++ close :: cs)
      = some (items.map value, cs) := by
  cases items with
  | nil =>
      rw [bracketed?, List.map_nil]
      show (match strip? [close] ([close] ++ cs) with | some cs => _ | none => _) = _
      rw [strip?_append]
      rfl
  | cons x items =>
      have hwrite : ∀ y ∈ x :: items, write y ≠ [] := by
        intro y hy hnil
        exact absurd (hfirst y hy) (by simp [hnil])
      -- the list begins as its first item does
      have hnone : strip? [close] (commas ((x :: items).map write) ++ close :: cs) = none := by
        refine strip?_eq_none ?_ []
        rw [List.map_cons, head?_commas_cons (hwrite x List.mem_cons_self)]
        exact hfirst x List.mem_cons_self
      have hend : endsWord (close :: cs) = true := by simp [endsWord, hclose]
      have hread := commaList?_commas (List.cons_ne_nil x items) h hwrite hend (by simp [hcomma])
      rw [bracketed?, hnone]
      simp only [Option.bind_eq_bind, Option.bind_some, hread]
      show (strip? [close] ([close] ++ cs)).bind _ = _
      rw [strip?_append]
      rfl

end

/-! ## Parts that may be missing -/

/-- Reads an item that may be missing. -/
def optional? {α : Type} (item? : Reader α) : Reader (Option α) := fun cs =>
  match item? cs with
  | none => some (none, cs)
  | some (x, cs) => some (some x, cs)

/-- Reads an item that stands behind a fixed text, where both may be missing. -/
def clause? {α : Type} (before : List Char) (item? : Reader α) : Reader (Option α) := fun cs =>
  match strip? before cs with
  | none => some (none, cs)
  | some cs => do
    let (x, cs) ← item? cs
    some (some x, cs)

theorem clause?_none {α : Type} {before : List Char} (item? : Reader α) {cs : List Char}
    (h : strip? before cs = none) : clause? before item? cs = some (none, cs) := by
  rw [clause?, h]

theorem clause?_some {α : Type} (before : List Char) {item? : Reader α} {cs rest : List Char}
    {x : α} (h : item? cs = some (x, rest)) :
    clause? before item? (before ++ cs) = some (some x, rest) := by
  rw [clause?, strip?_append]
  simp only [h, Option.bind_eq_bind, Option.bind_some]

end ScriptHost.Tree
