import ScriptHost.Proofs.Tree.Canonical
import ScriptHost.Proofs.Tree.Word

/-!
# Reading expressions back

Printing does not look at precedence, so `a + b * c` is the text of two trees. Where the operands
of every operator are primaries, that is names, literals and whatever stands in parentheses, the
text gives the tree back.

Convention: a primary is read up to the end of its last word, an expression up to a closing
bracket or the end of the text (`endsExpression`). An expression is a `Lead`, if there is one,
then a primary, then what follows the primary; the text shows which, because no primary begins
with a lead (`lead?_print`). Main statement: `Node.renderAt_eq_iff`.
-/

set_option autoImplicit false

namespace ScriptHost.Tree

/-! ## Primaries and expressions -/

/-- A number as written: digits, at least one. -/
structure IsNumeral (s : String) : Prop where
  digits : s.toList.all Char.isDigit = true
  nonempty : s.toList ≠ []

/-- The words that are values. -/
def Word.values : List Word := [.thisValue, .nullValue, .trueValue, .falseValue]

namespace Node

mutual

/-- The operands of operators. -/
inductive IsPrimary : Node → Prop
  | ident {s : String} (h : IsIdentifier s) : IsPrimary (ident s)
  | number {s : String} (h : IsNumeral s) : IsPrimary (number s)
  | string {s : String} (h : '"' ∉ s.toList) : IsPrimary (string s)
  | word {w : Word} (h : w ∈ Word.values) : IsPrimary (word w)
  | parens {e : Node} (h : IsExpression e) : IsPrimary (single .parens e)

/-- Expressions in which every operand is a primary. -/
inductive IsExpression : Node → Prop
  | primary {p : Node} (h : IsPrimary p) : IsExpression p
  | unary (o : UnaryOperator) {p : Node} (h : IsPrimary p) : IsExpression (unary o p)
  | deletes {p : Node} (h : IsPrimary p) : IsExpression (single .deletes p)
  | update (o : UpdateOperator) {p : Node} (h : IsPrimary p) : IsExpression (update o p)
  | operation (o : BinaryOperator) {p q : Node} (hp : IsPrimary p) (hq : IsPrimary q) :
      IsExpression (operation o p q)
  | ternary {c p q : Node} (hc : IsPrimary c) (hp : IsPrimary p) (hq : IsPrimary q) :
      IsExpression (ternary c p q)
  | subscript {p e : Node} (hp : IsPrimary p) (he : IsExpression e) :
      IsExpression (pair .subscript p e)
  | member {s : String} {p : Node} (hs : IsIdentifier s) (hp : IsPrimary p) :
      IsExpression (pair .member (.ident s) p)
  | apply (k : ApplyKind) {p : Node} {arguments : List Node} (hp : IsPrimary p)
      (harguments : ∀ a ∈ arguments, IsPrimary a) : IsExpression (apply k p arguments)
  | arrayLiteral {items : List Node} (hitems : ∀ a ∈ items, IsPrimary a) :
      IsExpression (list .arrayLiteral items)

end

end Node

/-! ## What stands in front of an operand -/

/-- What an expression may have in front of its first operand. -/
inductive Lead where
  | operator (operator : UnaryOperator)
  | deletes
  | construct
  | bracket
  deriving DecidableEq

/-- The text in front of the operand. -/
def Lead.text : Lead → List Char
  | operator o => o.text.toList
  | deletes => "delete ".toList
  | construct => "new ".toList
  | bracket => ['[']

/-- Every lead, the signs that are written twice before those that are written once. -/
def leads : List Lead :=
  [.operator .typeOf, .operator .void, .operator .increment, .operator .decrement,
    .operator .plus, .operator .negate, .operator .not, .operator .bitwiseNot, .deletes,
    .construct, .bracket]

/-- Reads the first lead that stands in front of a text. -/
def lead? : Reader Lead := fun cs =>
  leads.findSome? fun l => (strip? l.text cs).map (l, ·)

theorem lead?_text (l : Lead) {cs : List Char} (h : cs.head?.any isSign = false) :
    lead? (l.text ++ cs) = some (l, cs) := by
  cases l with
  | operator o =>
      cases cs with
      | nil => cases o <;> rfl
      | cons c cs =>
          rw [List.head?_cons, Option.any_some, isSign_eq_false] at h
          -- only a sign written once could be taken for another lead, the one written twice
          cases o with
          | negate =>
              have hhead : (c :: cs).head?.any (· != '-') = true := by simp [h.2]
              have hnone : strip? (Lead.operator .decrement).text ('-' :: c :: cs) = none :=
                strip?_eq_none hhead []
              show leads.findSome? (fun l => (strip? l.text ('-' :: c :: cs)).map (l, ·)) = _
              simp only [leads, List.findSome?_cons, hnone]
              rfl
          | plus =>
              have hhead : (c :: cs).head?.any (· != '+') = true := by simp [h.1]
              have hnone : strip? (Lead.operator .increment).text ('+' :: c :: cs) = none :=
                strip?_eq_none hhead []
              show leads.findSome? (fun l => (strip? l.text ('+' :: c :: cs)).map (l, ·)) = _
              simp only [leads, List.findSome?_cons, hnone]
              rfl
          | _ => rfl
  | _ => rfl

/-- The words that leads begin with; a lead that is no word begins with the empty one. -/
def leadWords : List String := ["", "typeof", "void", "delete", "new"]

theorem splitWord_lead_mem (l : Lead) (cs : List Char) :
    String.ofList (splitWord (l.text ++ cs)).1 ∈ leadWords := by
  cases l with
  | operator o => cases o <;> exact List.mem_of_elem_eq_true rfl
  | _ => exact List.mem_of_elem_eq_true rfl

/-- A word that is not the word of a lead has no lead in front. -/
theorem lead?_word {s : String} (hword : s.toList.all isWordChar = true) (hs : s ∉ leadWords)
    {cs : List Char} (hcs : endsWord cs = true) : lead? (s.toList ++ cs) = none := by
  rw [lead?, List.findSome?_eq_none_iff]
  intro l _
  cases hl : strip? l.text (s.toList ++ cs) with
  | none => rfl
  | some rest =>
      -- both texts are the same, so they begin with the same word
      have hmem := splitWord_lead_mem l rest
      rw [← eq_append_of_strip? hl, splitWord_append hword hcs, String.ofList_toList] at hmem
      exact absurd hmem hs

/-! ## What stands behind an operand -/

/-- Whether an expression in front of this text ends there. -/
def endsExpression (cs : List Char) : Bool := cs.head?.all [')', ']'].contains

theorem endsExpression_cons {c : Char} {cs : List Char} (h : endsExpression (c :: cs) = true) :
    c = ')' ∨ c = ']' := by
  rw [endsExpression, List.head?_cons, Option.all_some, List.contains_iff_mem] at h
  simpa only [List.mem_cons, List.not_mem_nil, or_false] using h

namespace Node

/-! ## The reader -/

/-- The primary that is one word. -/
def ofWord (w : List Char) : Node :=
  match Word.values.find? (·.text.toList == w) with
  | some value => word value
  | none => if w.head?.any Char.isDigit then number (String.ofList w) else ident (String.ofList w)

section

variable (inner? : Reader Node)

/-- Reads a primary, given a reader for what stands in parentheses. -/
def primary? : Reader Node
  | '(' :: cs => do
    let (e, cs) ← inner? cs
    let cs ← strip? [')'] cs
    some (single .parens e, cs)
  | '"' :: cs =>
    let (s, cs) := splitUntil '"' cs
    some (string (String.ofList s), cs)
  | cs =>
    let (w, cs) := splitWord cs
    some (ofWord w, cs)

/-- Reads the operator and the operands behind the first operand `p` and a blank. -/
def operands? (p : Node) : Reader Node := fun cs =>
  let (o, cs) := splitUntil ' ' cs
  if o = ['?'] then do
    let (q, cs) ← primary? inner? cs
    let cs ← strip? " : ".toList cs
    let (r, cs) ← primary? inner? cs
    some (ternary p q r, cs)
  else do
    let o ← BinaryOperator.ofText? (String.ofList o)
    let (q, cs) ← primary? inner? cs
    some (operation o p q, cs)

/-- Reads what stands behind the first operand `p`. -/
def suffix? (p : Node) : Reader Node
  | '+' :: '+' :: cs => some (update .increment p, cs)
  | '-' :: '-' :: cs => some (update .decrement p, cs)
  | ' ' :: cs => operands? inner? p cs
  | '[' :: cs => do
    let (e, cs) ← inner? cs
    let cs ← strip? [']'] cs
    some (pair .subscript p e, cs)
  | '.' :: cs => do
    let (s, cs) ← identifier? cs
    some (pair .member (ident s) p, cs)
  | '(' :: cs => do
    let (arguments, cs) ← bracketed? (primary? inner?) ')' cs
    some (apply .call p arguments, cs)
  | cs => some (p, cs)

/-- Reads an expression, given a reader for what stands in brackets. -/
def readExpression : Reader Node := fun cs =>
  match lead? cs with
  | some (.operator o, cs) => do
    let (p, cs) ← primary? inner? cs
    some (unary o p, cs)
  | some (.deletes, cs) => do
    let (p, cs) ← primary? inner? cs
    some (single .deletes p, cs)
  | some (.construct, cs) => do
    let (p, cs) ← primary? inner? cs
    let cs ← strip? ['('] cs
    let (arguments, cs) ← bracketed? (primary? inner?) ')' cs
    some (apply .construct p arguments, cs)
  | some (.bracket, cs) => do
    let (items, cs) ← bracketed? (primary? inner?) ']' cs
    some (list .arrayLiteral items, cs)
  | none => do
    let (p, cs) ← primary? inner? cs
    suffix? inner? p cs

end

/-- Reads an expression with brackets nested up to a limit. -/
def expression? : Nat → Reader Node
  | 0 => fun _ => none
  | limit + 1 => readExpression (expression? limit)

/-! ## Primaries are read back -/

theorem ofWord_ident {s : String} (h : IsIdentifier s) : ofWord s.toList = ident s := by
  have hvalues : Word.values.find? (·.text.toList == s.toList) = none := by
    rw [List.find?_eq_none]
    intro v hv hvs
    rw [beq_iff_eq, String.toList_inj] at hvs
    have hkeyword : ∀ w ∈ Word.values, w.text ∈ keywords := by decide
    exact h.free (hvs ▸ hkeyword v hv)
  have hstart : s.toList.head?.any Char.isDigit = false := by
    obtain ⟨c, cs, hs, -, hc⟩ := h.exists_cons
    rw [hs, List.head?_cons, Option.any_some, hc]
  rw [ofWord, hvalues]
  simp only [hstart, Bool.false_eq_true, if_false, String.ofList_toList]

theorem ofWord_number {s : String} (h : IsNumeral s) : ofWord s.toList = number s := by
  have hvalues : Word.values.find? (·.text.toList == s.toList) = none := by
    rw [List.find?_eq_none]
    intro v hv hvs
    rw [beq_iff_eq] at hvs
    have hletters : ∀ w ∈ Word.values, w.text.toList.all Char.isDigit = false := by decide
    have hdigits := h.digits
    rw [← hvs, hletters v hv] at hdigits
    exact absurd hdigits (by decide)
  have hstart : s.toList.head?.any Char.isDigit = true := by
    obtain ⟨c, cs, hs⟩ := List.exists_cons_of_ne_nil h.nonempty
    have hdigits := h.digits
    rw [hs, List.all_cons, Bool.and_eq_true] at hdigits
    rw [hs, List.head?_cons, Option.any_some, hdigits.1]
  rw [ofWord, hvalues]
  simp only [hstart, if_true, String.ofList_toList]

theorem ofWord_value {w : Word} (h : w ∈ Word.values) : ofWord w.text.toList = word w := by
  revert w
  decide

/-- A primary is one word, which begins no lead, or it has its own first character. -/
theorem IsPrimary.print_cases {p : Node} (h : IsPrimary p) (d : Depth) :
    (∃ s : String, print d p = s.toList ∧ s.toList.all isWordChar = true ∧ s ∉ leadWords ∧
        ofWord s.toList = p.canonical) ∨
      (∃ s : String, p = Node.string s ∧ '"' ∉ s.toList) ∨
      ∃ e, p = single .parens e ∧ IsExpression e := by
  have hleads : ∀ s ∈ leadWords, s = "" ∨ s ∈ keywords := by decide
  cases h with
  | @ident s h =>
      refine .inl ⟨s, rfl, h.word, fun hs => ?_, ofWord_ident h⟩
      rcases hleads s hs with rfl | hkeyword
      · exact absurd h.start (by decide)
      · exact h.free hkeyword
  | @number s h =>
      have hletters : ∀ t ∈ leadWords, t = "" ∨ t.toList.all Char.isDigit = false := by decide
      refine .inl ⟨s, rfl, ?_, fun hs => ?_, ofWord_number h⟩
      · rw [List.all_eq_true]
        intro c hc
        rw [isWordChar, Char.isAlphanum, List.all_eq_true.mp h.digits c hc]
        simp
      · rcases hletters s hs with rfl | hdigits
        · exact h.nonempty rfl
        · exact absurd h.digits (by simp [hdigits])
  | string h => exact .inr (.inl ⟨_, rfl, h⟩)
  | @word w h =>
      have hwords : ∀ v ∈ Word.values, v.text.toList.all isWordChar = true ∧
          v.text ∉ leadWords := by decide
      exact .inl ⟨w.text, rfl, (hwords w h).1, (hwords w h).2, ofWord_value h⟩
  | parens h => exact .inr (.inr ⟨_, rfl, h⟩)

/-- Whether a primary can begin with a character. -/
def startsPrimary (c : Char) : Bool := isWordChar c || c == '"' || c == '('

theorem IsPrimary.exists_cons {p : Node} (h : IsPrimary p) (d : Depth) :
    ∃ c cs, print d p = c :: cs ∧ startsPrimary c = true := by
  rcases h.print_cases d with ⟨s, hs, hword, hlead, -⟩ | ⟨s, rfl, -⟩ | ⟨e, rfl, -⟩
  · rw [hs]
    cases hcs : s.toList with
    | nil =>
        rw [String.toList_eq_nil_iff] at hcs
        exact absurd (hcs ▸ hlead) (by decide)
    | cons c cs =>
        rw [hcs, List.all_cons, Bool.and_eq_true] at hword
        exact ⟨c, cs, rfl, by rw [startsPrimary, hword.1]; rfl⟩
  · exact ⟨'"', s.toList ++ ['"'], rfl, rfl⟩
  · exact ⟨'(', print d e ++ [')'], rfl, rfl⟩

theorem IsPrimary.head?_print {p : Node} (h : IsPrimary p) (d : Depth) (cs : List Char) :
    (print d p ++ cs).head?.any isSign = false := by
  obtain ⟨c, text, hc, hstart⟩ := h.exists_cons d
  rw [hc, List.cons_append, List.head?_cons, Option.any_some, isSign_eq_false]
  constructor
  · rintro rfl
    exact absurd hstart (by decide)
  · rintro rfl
    exact absurd hstart (by decide)

/-- No primary begins with a lead. -/
theorem IsPrimary.lead?_print {p : Node} (h : IsPrimary p) (d : Depth) {cs : List Char}
    (hcs : endsWord cs = true) : lead? (print d p ++ cs) = none := by
  rcases h.print_cases d with ⟨s, hs, hword, hlead, -⟩ | ⟨s, rfl, -⟩ | ⟨e, rfl, -⟩
  · rw [hs, lead?_word hword hlead hcs]
  · rfl
  · rfl

/-! ## Expressions are read back -/

theorem primary?_cons (inner? : Reader Node) {c : Char} (h : isWordChar c = true)
    (cs : List Char) :
    primary? inner? (c :: cs)
      = some (ofWord (splitWord (c :: cs)).1, (splitWord (c :: cs)).2) := by
  rw [primary?]
  · intro text htext
    rw [(List.cons.inj htext).1] at h
    exact absurd h (by decide)
  · intro text htext
    rw [(List.cons.inj htext).1] at h
    exact absurd h (by decide)

/-- A reader reads back the expressions up to a size, in front of a closing bracket or the end of
the text. -/
def ReadsBack (d : Depth) (size : Nat) (read? : Reader Node) : Prop :=
  ∀ e, IsExpression e → sizeOf e ≤ size → ∀ cs, endsExpression cs = true →
    read? (print d e ++ cs) = some (e.canonical, cs)

section

variable {d : Depth} {size : Nat} {inner? : Reader Node}

theorem ReadsBack.primary?_print (h : ReadsBack d size inner?) {p : Node} (hp : IsPrimary p)
    (hsize : sizeOf p ≤ size + 1) {cs : List Char} (hcs : endsWord cs = true) :
    primary? inner? (print d p ++ cs) = some (p.canonical, cs) := by
  rcases hp.print_cases d with ⟨s, hs, hword, hlead, hnode⟩ | ⟨s, rfl, hquote⟩ | ⟨e, rfl, he⟩
  -- a word
  · rw [hs, ← hnode]
    cases hw : s.toList with
    | nil =>
        rw [String.toList_eq_nil_iff] at hw
        exact absurd (hw ▸ hlead) (by decide)
    | cons c w =>
        have hsplit := splitWord_append hword hcs
        rw [hw, List.all_cons, Bool.and_eq_true] at hword
        rw [hw, List.cons_append] at hsplit
        rw [List.cons_append, primary?_cons inner? hword.1, hsplit]
  -- a string, read up to its second quote
  · show primary? inner? ('"' :: (s.toList ++ ['"']) ++ cs) = _
    rw [List.cons_append, List.append_assoc, primary?, List.singleton_append,
      splitUntil_append hquote]
    show some (string (String.ofList s.toList), cs) = _
    rw [String.ofList_toList]
    rfl
  -- parentheses, in front of which the inner reader stops
  · have hinner : sizeOf e ≤ size := by
      simp only [single.sizeOf_spec] at hsize
      omega
    show primary? inner? (['('] ++ print d e ++ [')'] ++ cs) = _
    rw [List.append_assoc, List.append_assoc, List.singleton_append, primary?,
      h e he hinner _ rfl]
    simp only [Option.bind_eq_bind, Option.bind_some, strip?_append, canonical]

/-- Primaries with commas between them are read back up to their closing bracket. -/
theorem ReadsBack.bracketed?_print (h : ReadsBack d size inner?) {items : List Node}
    (hitems : ∀ a ∈ items, IsPrimary a) (hsize : sizeOf items ≤ size + 1) (close : Char)
    (hclose : startsPrimary close = false) (hcomma : close ≠ ',') (cs : List Char) :
    bracketed? (primary? inner?) close (commas (items.map (print d)) ++ close :: cs)
      = some (items.map canonical, cs) := by
  have hword : isWordChar close = false := by
    rw [startsPrimary, Bool.or_eq_false_iff, Bool.or_eq_false_iff] at hclose
    exact hclose.1.1
  refine bracketed?_commas ?_ ?_ hword hcomma cs
  · intro a ha rest hrest
    have hlt := List.sizeOf_lt_of_mem ha
    exact h.primary?_print (hitems a ha) (by omega) hrest
  · intro a ha
    obtain ⟨c, text, hc, hstart⟩ := (hitems a ha).exists_cons d
    rw [hc, List.head?_cons, Option.any_some, bne_iff_ne]
    rintro rfl
    exact absurd hstart (by simp [hclose])

/-- A primary with no lead in front is the first operand. -/
theorem ReadsBack.readExpression_print (h : ReadsBack d size inner?) {p : Node}
    (hp : IsPrimary p) (hsize : sizeOf p ≤ size + 1) {cs : List Char}
    (hcs : endsWord cs = true) :
    readExpression inner? (print d p ++ cs) = suffix? inner? p.canonical cs := by
  rw [readExpression, hp.lead?_print d hcs]
  simp only [h.primary?_print hp hsize hcs, Option.bind_eq_bind, Option.bind_some]

theorem suffix?_end (p : Node) {cs : List Char} (hcs : endsExpression cs = true) :
    suffix? inner? p cs = some (p, cs) := by
  cases cs with
  | nil => rfl
  | cons c cs =>
      rcases endsExpression_cons hcs with rfl | rfl
      · rfl
      · rfl

theorem ReadsBack.operands?_operation (h : ReadsBack d size inner?) (p : Node)
    (o : BinaryOperator) {q : Node} (hq : IsPrimary q) (hsize : sizeOf q ≤ size + 1)
    {cs : List Char} (hcs : endsWord cs = true) :
    operands? inner? p (o.text.toList ++ ' ' :: (print d q ++ cs))
      = some (operation o.canonical p q.canonical, cs) := by
  have hblank : ' ' ∉ o.text.toList := by cases o <;> decide
  have hternary : o.text.toList ≠ ['?'] := by cases o <;> decide
  rw [operands?, splitUntil_append hblank]
  show (if o.text.toList = ['?'] then _ else _) = _
  rw [if_neg hternary, String.ofList_toList, BinaryOperator.ofText?_text]
  simp only [h.primary?_print hq hsize hcs, Option.bind_eq_bind, Option.bind_some]

theorem ReadsBack.operands?_ternary (h : ReadsBack d size inner?) (p : Node) {q r : Node}
    (hq : IsPrimary q) (hqsize : sizeOf q ≤ size + 1) (hr : IsPrimary r)
    (hrsize : sizeOf r ≤ size + 1) {cs : List Char} (hcs : endsWord cs = true) :
    operands? inner? p (['?'] ++ ' ' :: (print d q ++ (" : ".toList ++ (print d r ++ cs))))
      = some (ternary p q.canonical r.canonical, cs) := by
  rw [operands?, splitUntil_append (by decide)]
  show (primary? inner? (print d q ++ (" : ".toList ++ (print d r ++ cs)))).bind _ = _
  rw [h.primary?_print hq hqsize rfl]
  simp only [Option.bind_eq_bind, Option.bind_some, strip?_append,
    h.primary?_print hr hrsize hcs]

theorem endsWord_of_endsExpression {cs : List Char} (h : endsExpression cs = true) :
    endsWord cs = true := by
  cases cs with
  | nil => rfl
  | cons c cs =>
      rcases endsExpression_cons h with rfl | rfl
      · rfl
      · rfl

/-- One more level of brackets is read back. -/
theorem ReadsBack.step (h : ReadsBack d size inner?) :
    ReadsBack d (size + 1) (readExpression inner?) := by
  intro e he hsize cs hcs
  have hword := endsWord_of_endsExpression hcs
  -- primaries may have the full size, and the inner reader is for what stands in their brackets
  cases he with
  | primary hp => rw [h.readExpression_print hp hsize hword, suffix?_end _ hcs]
  | @unary o p hp =>
      rw [unary.sizeOf_spec] at hsize
      -- a primary begins with no sign, so no blank is needed in front of it
      have hspacing : spacing o.text.toList (print d p) = [] := by
        have hsign := hp.head?_print d []
        rw [List.append_nil] at hsign
        rw [spacing, hsign, Bool.and_false, if_neg (by decide)]
      have hlead : lead? (o.text.toList ++ (print d p ++ cs)) = some (.operator o, _) :=
        lead?_text (.operator o) (hp.head?_print d cs)
      rw [print_unary, hspacing, List.append_nil, List.append_assoc, readExpression, hlead]
      simp only [h.primary?_print hp (by omega) hword, Option.bind_eq_bind, Option.bind_some,
        canonical]
  | @deletes p hp =>
      rw [single.sizeOf_spec] at hsize
      have hlead : lead? ("delete ".toList ++ (print d p ++ cs)) = some (.deletes, _) :=
        lead?_text .deletes (hp.head?_print d cs)
      rw [print_single, SingleKind.write_deletes, List.append_assoc, readExpression, hlead]
      simp only [h.primary?_print hp (by omega) hword, Option.bind_eq_bind, Option.bind_some,
        canonical]
  | @update o p hp =>
      rw [update.sizeOf_spec] at hsize
      have hsigns : endsWord (o.text.toList ++ cs) = true := by cases o <;> rfl
      rw [print_update, List.append_assoc, h.readExpression_print hp (by omega) hsigns, canonical]
      cases o <;> rfl
  | @operation o p q hp hq =>
      simp only [operation, binary.sizeOf_spec, Option.some.sizeOf_spec] at hsize
      rw [operation, print_binary, printClause_some, printClause_some, List.nil_append,
        List.nil_append, List.append_assoc, List.append_assoc, List.append_assoc,
        List.append_assoc, h.readExpression_print hp (by omega) rfl]
      exact h.operands?_operation _ o hq (by omega) hword
  | @ternary c p q hc hp hq =>
      rw [ternary.sizeOf_spec] at hsize
      rw [print_ternary, List.append_assoc, List.append_assoc, List.append_assoc,
        List.append_assoc, h.readExpression_print hc (by omega) rfl]
      exact h.operands?_ternary _ hp (by omega) hq (by omega) hword
  | @subscript p e hp he =>
      rw [pair.sizeOf_spec] at hsize
      rw [print_subscript, List.append_assoc, List.append_assoc, List.append_assoc,
        h.readExpression_print hp (by omega) rfl, List.singleton_append, suffix?,
        h e he (by omega) _ rfl]
      simp only [Option.bind_eq_bind, Option.bind_some, strip?_append, canonical]
  | @member s p hs hp =>
      rw [pair.sizeOf_spec] at hsize
      rw [print_member, List.append_assoc, List.append_assoc,
        h.readExpression_print hp (by omega) rfl, List.singleton_append, suffix?, print_ident,
        identifier?_append hs hword]
      rfl
  | @apply k p arguments hp harguments =>
      rw [apply.sizeOf_spec] at hsize
      have hlist := h.bracketed?_print harguments (by omega) ')' rfl (by decide) cs
      cases k with
      | call =>
          rw [print_apply, ApplyKind.write_call, List.append_assoc, List.append_assoc,
            List.append_assoc, h.readExpression_print hp (by omega) rfl, List.singleton_append,
            List.singleton_append, suffix?, hlist]
          simp only [Option.bind_eq_bind, Option.bind_some, canonical, canonicalEach_eq_map]
      | construct =>
          have hlead : lead? ("new ".toList ++ (print d p ++ ('(' ::
              (commas (arguments.map (print d)) ++ ')' :: cs)))) = some (.construct, _) :=
            lead?_text .construct (hp.head?_print d _)
          rw [print_apply, ApplyKind.write_construct, List.append_assoc, List.append_assoc,
            List.append_assoc, List.append_assoc, List.singleton_append, List.singleton_append,
            readExpression, hlead]
          have hend : endsWord ('(' :: (commas (arguments.map (print d)) ++ ')' :: cs)) = true :=
            rfl
          have hcallee := h.primary?_print hp (by omega) hend
          have hopen : strip? ['('] ('(' :: (commas (arguments.map (print d)) ++ ')' :: cs))
              = some (commas (arguments.map (print d)) ++ ')' :: cs) := strip?_append ['('] _
          simp only [hcallee, hopen, hlist, Option.bind_eq_bind, Option.bind_some, canonical,
            canonicalEach_eq_map]
  | @arrayLiteral items hitems =>
      rw [list.sizeOf_spec] at hsize
      have hlist := h.bracketed?_print hitems (by omega) ']' rfl (by decide) cs
      have hlead : lead? ('[' :: (commas (items.map (print d)) ++ ']' :: cs))
          = some (.bracket, _) := rfl
      rw [print_arrayLiteral, List.append_assoc, List.append_assoc, List.singleton_append,
        List.singleton_append, readExpression, hlead]
      simp only [hlist, Option.bind_eq_bind, Option.bind_some, canonical, canonicalEach_eq_map]

end

theorem readsBack_expression? (d : Depth) (limit : Nat) :
    ReadsBack d limit (expression? limit) := by
  induction limit with
  | zero =>
      intro e _ hsize
      cases e <;> simp at hsize
  | succ limit ih => exact ih.step

/-- An expression is read back from its text. -/
theorem expression?_print {e : Node} (he : IsExpression e) (d : Depth) {limit : Nat}
    (hlimit : sizeOf e ≤ limit) : expression? limit (print d e) = some (e.canonical, []) := by
  have h := readsBack_expression? d limit e he hlimit [] rfl
  rwa [List.append_nil] at h

/-! ## Grouping -/

/-- Two expressions have one text exactly when they are one tree, up to operators with one
text. -/
theorem renderAt_eq_iff {e₁ e₂ : Node} (h₁ : IsExpression e₁) (h₂ : IsExpression e₂)
    (d : Depth) : e₁.renderAt d = e₂.renderAt d ↔ e₁.canonical = e₂.canonical := by
  constructor
  · intro h
    have htext : print d e₁ = print d e₂ := String.ofList_injective h
    have hread := expression?_print h₁ d (Nat.le_max_left (sizeOf e₁) (sizeOf e₂))
    rw [htext, expression?_print h₂ d (Nat.le_max_right _ _), Option.some.injEq,
      Prod.mk.injEq] at hread
    exact hread.1.symm
  · intro h
    have htext : print d e₁ = print d e₂ :=
      calc print d e₁ = print d e₁.canonical := (print_canonical e₁ d).symm
        _ = print d e₂.canonical := by rw [h]
        _ = print d e₂ := print_canonical e₂ d
    rw [renderAt, renderAt, htext]

/-- `a - (b = c)` with either assignment. -/
def assigned (o : BinaryOperator) : Node :=
  operation .subtract (ident "a") (single .parens (operation o (ident "b") (ident "c")))

/-- `(a - b) = c`. -/
def subtracted : Node :=
  operation .assignExpr (single .parens (operation .subtract (ident "a") (ident "b"))) (ident "c")

theorem isExpression_assigned (o : BinaryOperator) : IsExpression (assigned o) :=
  .operation _ (.ident (by decide))
    (.parens (.operation o (.ident (by decide)) (.ident (by decide))))

theorem isExpression_subtracted : IsExpression subtracted :=
  .operation _
    (.parens (.operation _ (.ident (by decide)) (.ident (by decide)))) (.ident (by decide))

/-- The text does not say which assignment it is, but what is grouped. -/
theorem renderAt_assigned :
    IsExpression (assigned .assign) ∧ IsExpression (assigned .assignExpr) ∧
      IsExpression subtracted ∧
      (assigned .assign).renderAt .top = (assigned .assignExpr).renderAt .top ∧
      (assigned .assign).renderAt .top ≠ subtracted.renderAt .top := by
  refine ⟨isExpression_assigned _, isExpression_assigned _, isExpression_subtracted, ?_, ?_⟩
  · exact (renderAt_eq_iff (isExpression_assigned _) (isExpression_assigned _) .top).mpr rfl
  · rw [Ne, renderAt_eq_iff (isExpression_assigned _) isExpression_subtracted .top]
    decide

end Node

end ScriptHost.Tree
