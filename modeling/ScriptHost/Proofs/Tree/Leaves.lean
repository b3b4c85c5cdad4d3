import ScriptHost.Proofs.Tree.Pieces

/-!
# What a text shows of its leaves

The printer writes lower case letters, blanks, line breaks and punctuation of its own, and no
other characters (`isFiller`). What stands in a text besides filler is then the text that its
leaves and the names of its functions hold (`Node.heldText`), and the opening braces of its blocks
and object literals (`Node.opensBrace`), each of them once and in the order of the text
(`Node.kept_print`). Main statement: the capitals, digits and underscores of a text are those of
its leaves and function names, in order (`Node.filter_renderAt`).
-/

set_option autoImplicit false

namespace ScriptHost.Tree

/-! ## Filler -/

/-- The blanks and the punctuation that the printer writes of its own, the opening brace apart. -/
def punctuation : List Char :=
  [' ', '\n', '"', '(', ')', '[', ']', '\x7d', ';', ',', '.', ':', '?', '=', '!', '<', '>', '&',
    '|', '+', '-', '*', '/', '%', '^', '~']

/-- Whether the printer may have written a character of its own. -/
def isFiller (c : Char) : Bool := c.isLower || punctuation.contains c

/-- What is left of a text without the filler. -/
def kept (text : List Char) : List Char := text.filter fun c => !isFiller c

@[simp] theorem kept_nil : kept [] = [] := rfl

theorem kept_append (a b : List Char) : kept (a ++ b) = kept a ++ kept b := List.filter_append ..

theorem kept_flatMap {α : Type} (f : α → List Char) (parts : List α) :
    kept (parts.flatMap f) = parts.flatMap fun part => kept (f part) := List.filter_flatMap ..

theorem kept_eq_nil {text : List Char} (h : text.all isFiller = true) : kept text = [] := by
  rw [kept, List.filter_eq_nil_iff]
  intro c hc
  simp [List.all_eq_true.mp h c hc]

@[simp] theorem kept_indent (d : Depth) : kept d.indent = [] := by
  apply kept_eq_nil
  rw [Depth.indent, List.all_replicate]
  simp [show isFiller ' ' = true by decide]

@[simp] theorem kept_closing (body : Node) (text : List Char) : kept (closing body text) = [] := by
  apply kept_eq_nil
  rw [closing]
  split <;> decide

@[simp] theorem kept_spacing (operator operand : List Char) :
    kept (spacing operator operand) = [] := by
  apply kept_eq_nil
  rw [spacing]
  split <;> decide

@[simp] theorem kept_word (w : Word) : kept w.text.toList = [] :=
  kept_eq_nil (by cases w <;> decide)

@[simp] theorem kept_unary (o : UnaryOperator) : kept o.text.toList = [] :=
  kept_eq_nil (by cases o <;> decide)

@[simp] theorem kept_update (o : UpdateOperator) : kept o.text.toList = [] :=
  kept_eq_nil (by cases o <;> decide)

@[simp] theorem kept_binary (o : BinaryOperator) : kept o.text.toList = [] :=
  kept_eq_nil (by cases o <;> decide)

/-! ## What a node adds -/

namespace Node

/-- The text that a node holds: a leaf as it was written, the name of a function. -/
@[simp] def heldText : Node → List Char
  | leaf _ text => text.toList
  | function (some name) _ _ => name.toList
  | _ => []

/-- Whether the text of a node at depth `d` begins with a brace of its own: a statement list below
the top and every object literal. -/
@[simp] def opensBrace (d : Depth) : Node → Bool
  | list .statements _ => !d.isTop
  | list .objectLiteral _ => true
  | _ => false

/-- What a node itself adds to the text, filler apart. -/
@[simp] def mark (d : Depth) (n : Node) : List Char :=
  (if n.opensBrace d then ['\x7b'] else []) ++ n.heldText

end Node

namespace Piece

/-- What is left of a piece without the filler, when it is a tree. -/
def keptSubtree : Piece → List Char
  | subtree d n => kept (n.print d)
  | _ => []

@[simp] theorem keptSubtree_own (text : List Char) : (own text).keptSubtree = [] := rfl

@[simp] theorem keptSubtree_given (text : String) : (given text).keptSubtree = [] := rfl

@[simp] theorem keptSubtree_subtree (d : Depth) (n : Node) :
    (subtree d n).keptSubtree = kept (n.print d) := rfl

@[simp] theorem kept_commas (d : Depth) (items : List Node) :
    (commas d items).flatMap (fun p => kept p.print) = (commas d items).flatMap keptSubtree := by
  rw [flatMap_commas, flatMap_commas, print_own, kept_eq_nil (by decide)]
  rfl

@[simp] theorem kept_lines (d : Depth) (items : List Node) :
    (lines d items).flatMap (fun p => kept p.print) = (lines d items).flatMap keptSubtree := by
  rw [flatMap_lines, flatMap_lines]
  simp (disch := decide) [kept_eq_nil]

@[simp] theorem kept_clause (d : Depth) (before : List Char) (o : Option Node)
    (h : kept before = []) :
    (clause d before o).flatMap (fun p => kept p.print)
      = (clause d before o).flatMap keptSubtree := by
  cases o with
  | none => rfl
  | some n => simp [clause, h]

end Piece

theorem ListKind.kept_pieces (d : Depth) (items : List Node) (k : ListKind) :
    (k.pieces d items).flatMap (fun p => kept p.print)
      = kept (Node.mark d (.list k items)) ++ (k.pieces d items).flatMap Piece.keptSubtree := by
  cases k with
  | statements =>
      rw [ListKind.pieces]
      cases htop : d.isTop with
      | true => simp [htop]
      | false =>
          have hopen : kept ['\x7b', '\n'] = kept ['\x7b'] := by decide
          have hclose : kept ['\n', '\x7d'] = [] := by decide
          simp [htop, hopen, hclose]
  | objectLiteral =>
      cases items with
      | nil => exact show kept ['\x7b', '\x7d'] ++ [] = kept ['\x7b'] by decide
      | cons n items =>
          have hopen : kept ['\x7b', ' '] = kept ['\x7b'] := by decide
          have hclose : kept [' ', '\x7d'] = [] := by decide
          simp [ListKind.pieces, hopen, hclose]
  | declaration => simp (disch := decide) [ListKind.pieces, kept_eq_nil]
  | arrayLiteral => simp (disch := decide) [ListKind.pieces, kept_eq_nil]
  | commaList => simp [ListKind.pieces]

namespace Node

/-- Without the filler, the pieces of a node are what the node itself adds, and then its trees. -/
theorem kept_pieces (d : Depth) (n : Node) :
    (n.pieces d).flatMap (fun p => kept p.print)
      = kept (n.mark d) ++ (n.pieces d).flatMap Piece.keptSubtree := by
  cases n with
  | leaf k text => cases k <;> simp (disch := decide) [pieces, LeafKind.pieces, kept_eq_nil]
  | word w => simp [pieces]
  | list k items => exact k.kept_pieces d items
  | apply k callee arguments =>
      cases k <;> simp (disch := decide) [pieces, ApplyKind.pieces, kept_eq_nil]
  | function name parameters body => cases name <;> simp (disch := decide) [pieces, kept_eq_nil]
  | pair k left right => cases k <;> simp (disch := decide) [pieces, kept_eq_nil]
  | single k value => cases k <;> simp (disch := decide) [pieces, SingleKind.pieces, kept_eq_nil]
  | unary o value => simp [pieces]
  | update o value => simp [pieces]
  | binary o left right => simp (disch := decide) [pieces, kept_eq_nil]
  | ternary condition left right => simp (disch := decide) [pieces, kept_eq_nil]
  | returns value => simp (disch := decide) [pieces, kept_eq_nil]
  | ifElse condition body otherwise =>
      have hbefore : kept (closing body (print d.atLeastBlock body) ++ " else ".toList) = [] := by
        rw [kept_append, kept_closing, kept_eq_nil (by decide)]
        rfl
      rw [pieces, List.flatMap_append, List.flatMap_append, Piece.kept_clause _ _ _ hbefore]
      simp (disch := decide) [kept_eq_nil]
  | forLoop init test step body => simp (disch := decide) [pieces, kept_eq_nil]
  | forIn left right body => simp (disch := decide) [pieces, kept_eq_nil]
  | tryCatch body parameter handler finalizer =>
      cases handler <;> simp (disch := decide) [pieces, kept_eq_nil]

/-- Without the filler, the text of a tree is what its nodes add, in the order of the text. -/
theorem kept_print (d : Depth) (n : Node) :
    kept (n.print d) = (n.printed d).flatMap fun p => kept (p.2.mark p.1) := by
  induction d, n using pieces_induction with
  | step d n ih =>
      -- the node's own characters stand in front, and the trees inside add what their nodes do
      have hsubtree : ∀ p ∈ n.pieces d,
          p.keptSubtree = p.printed.flatMap fun q => kept (q.2.mark q.1) := by
        intro p hp
        cases p with
        | own text => rfl
        | given text => rfl
        | subtree e m => exact ih e m hp
      rw [print_eq_flatMap, printed_eq_cons, kept_flatMap, kept_pieces, List.flatMap_cons,
        List.flatMap_assoc]
      rw [List.flatMap_def, List.map_congr_left hsubtree, ← List.flatMap_def]

end Node

/-! ## Capitals, digits and underscores -/

/-- Whether a character is an ASCII capital, a digit or the underscore. -/
def isLabelChar (c : Char) : Bool := c.isUpper || c.isDigit || c == '_'

theorem isLabelChar_of_isLower {c : Char} (h : c.isLower = true) : isLabelChar c = false := by
  have hlower : 97 ≤ c.val.toNat := by
    have hbounds : (decide (c.val ≥ 97) && decide (c.val ≤ 122)) = true := h
    exact UInt32.le_iff_toNat_le.mp (of_decide_eq_true (Bool.and_eq_true_iff.mp hbounds).1)
  have hupper : c.isUpper = false := by
    refine decide_eq_false fun hc => ?_
    exact absurd (UInt32.le_iff_toNat_le.mp hc.2) (by show ¬ c.val.toNat ≤ 90; omega)
  have hdigit : c.isDigit = false := by
    rw [Char.isDigit, Bool.and_eq_false_iff, decide_eq_false_iff_not, decide_eq_false_iff_not]
    exact .inr fun hc => absurd (UInt32.le_iff_toNat_le.mp hc) (by show ¬ c.val.toNat ≤ 57; omega)
  have hscore : c ≠ '_' := by
    rintro rfl
    exact absurd h (by decide)
  rw [isLabelChar, hupper, hdigit, Bool.false_or, Bool.false_or]
  exact beq_eq_false_iff_ne.mpr hscore

theorem isFiller_of_isLabelChar {c : Char} (h : isLabelChar c = true) : isFiller c = false := by
  have hpunctuation : punctuation.any isLabelChar = false := by decide
  rw [isFiller, Bool.or_eq_false_iff, Bool.eq_false_iff, Bool.eq_false_iff]
  constructor
  · intro hlower
    rw [isLabelChar_of_isLower hlower] at h
    exact absurd h (by decide)
  · exact fun hmem => List.any_eq_false.mp hpunctuation c (List.contains_iff_mem.mp hmem) h

theorem filter_kept (text : List Char) :
    (kept text).filter isLabelChar = text.filter isLabelChar := by
  rw [kept, List.filter_filter]
  apply List.filter_congr
  intro c _
  cases h : isLabelChar c with
  | false => rfl
  | true => rw [isFiller_of_isLabelChar h]; rfl

namespace Node

theorem filter_mark (d : Depth) (n : Node) :
    (n.mark d).filter isLabelChar = n.heldText.filter isLabelChar := by
  have hbrace : ['\x7b'].filter isLabelChar = [] := by decide
  rw [mark, List.filter_append]
  split
  · rw [hbrace, List.nil_append]
  · rfl

/-- Printing loses, doubles and reorders nothing: the capitals, digits and underscores of a text
are those of its leaves and function names, each once, in the order in which they are printed. -/
theorem filter_renderAt (n : Node) (d : Depth) :
    (n.renderAt d).toList.filter isLabelChar
      = (n.printed d).flatMap fun p => p.2.heldText.filter isLabelChar := by
  rw [renderAt, String.toList_ofList, ← filter_kept, kept_print, List.filter_flatMap]
  simp only [filter_kept, filter_mark]

/-- A member access shows its object first, and a handler that is missing hides its parameter. -/
example :
    (program [pair .member (ident "B1") (ident "A_0"),
      tryCatch (program []) (some (ident "E")) none none]).render.toList.filter isLabelChar
      = "A_0B1".toList := by
  decide

end Node

end ScriptHost.Tree
