import ScriptHost.Proofs.Tree.Printed

/-!
# The text of a node, piece by piece

The text of a node is made of characters of the printer, of text that the node holds, and of the
texts of the trees inside it, which stand one behind the other (`Node.pieces`). Both the text and
the list of the nodes that it shows are put together from the pieces (`Node.print_eq_flatMap`,
`Node.printed_eq_cons`). A fact about all texts is then proved node by node, where the facts about
the trees inside are given (`Node.pieces_induction`).
-/

set_option autoImplicit false

namespace ScriptHost.Tree

/-! ## Lists with separators -/

/-- What is made of each element of a list, when separators stand between its parts. -/
theorem flatMap_intercalate {α β : Type} (f : α → List β) (sep : List α) (parts : List (List α)) :
    (List.intercalate sep parts).flatMap f
      = List.intercalate (sep.flatMap f) (parts.map (List.flatMap f)) := by
  induction parts with
  | nil => rfl
  | cons part parts ih =>
      cases parts with
      | nil => simp
      | cons next parts =>
          rw [List.intercalate_cons_cons, List.flatMap_append, List.flatMap_append, ih]
          simp only [List.map_cons, List.intercalate_cons_cons]

theorem mem_intercalate_map {α β : Type} {sep : List α} {f : β → List α} {items : List β} {x : α}
    (hsep : x ∉ sep) : x ∈ List.intercalate sep (items.map f) ↔ ∃ y ∈ items, x ∈ f y := by
  induction items with
  | nil => simp
  | cons y items ih =>
      cases items with
      | nil => simp
      | cons next items =>
          rw [List.map_cons, List.map_cons, List.intercalate_cons_cons, ← List.map_cons,
            List.append_assoc, List.mem_append, List.mem_append, ih]
          simp [hsep]

theorem intercalate_nil {α : Type} (parts : List (List α)) :
    List.intercalate [] parts = parts.flatten := by
  induction parts with
  | nil => rfl
  | cons part parts ih =>
      cases parts with
      | nil => simp
      | cons next parts =>
          rw [List.intercalate_cons_cons, ih, List.append_nil]
          rfl

/-! ## Pieces -/

/-- A piece of the text of a node: characters of the printer, text that the node holds, or a tree
at its depth. -/
inductive Piece where
  | own (text : List Char)
  | given (text : String)
  | subtree (depth : Depth) (node : Node)

namespace Piece

/-- The text of a piece. -/
def print : Piece → List Char
  | own text => text
  | given text => text.toList
  | subtree d n => n.print d

/-- The nodes that the text of a piece shows. -/
def printed : Piece → List (Depth × Node)
  | own _ => []
  | given _ => []
  | subtree d n => n.printed d

@[simp] theorem print_own (text : List Char) : (own text).print = text := rfl

@[simp] theorem print_given (text : String) : (given text).print = text.toList := rfl

@[simp] theorem print_subtree (d : Depth) (n : Node) : (subtree d n).print = n.print d := rfl

@[simp] theorem printed_own (text : List Char) : (own text).printed = [] := rfl

@[simp] theorem printed_given (text : String) : (given text).printed = [] := rfl

@[simp] theorem printed_subtree (d : Depth) (n : Node) : (subtree d n).printed = n.printed d := rfl

/-! ### Lists of pieces -/

/-- Trees with a comma and a blank between them. -/
def commas (d : Depth) (items : List Node) : List Piece :=
  List.intercalate [own [',', ' ']] (items.map fun n => [subtree d n])

/-- Statements, one to a line, each behind its indentation and in front of its semicolon. -/
def lines (d : Depth) (items : List Node) : List Piece :=
  List.intercalate [own ['\n']] (items.map fun n => [own d.indent, subtree d n, own [';']])

/-- A tree that may be missing, behind `before`. -/
def clause (d : Depth) (before : List Char) : Option Node → List Piece
  | none => []
  | some n => [own before, subtree d n]

theorem flatMap_commas {β : Type} (f : Piece → List β) (d : Depth) (items : List Node) :
    (commas d items).flatMap f
      = List.intercalate (f (own [',', ' '])) (items.map fun n => f (subtree d n)) := by
  rw [commas, flatMap_intercalate, List.map_map]
  simp [Function.comp_def]

theorem flatMap_lines {β : Type} (f : Piece → List β) (d : Depth) (items : List Node) :
    (lines d items).flatMap f
      = List.intercalate (f (own ['\n']))
          (items.map fun n => f (own d.indent) ++ f (subtree d n) ++ f (own [';'])) := by
  rw [lines, flatMap_intercalate, List.map_map]
  simp [Function.comp_def]

@[simp] theorem print_commas (d : Depth) (items : List Node) :
    (commas d items).flatMap print = Tree.commas (items.map (Node.print d)) :=
  flatMap_commas print d items

@[simp] theorem print_lines (d : Depth) (items : List Node) :
    (lines d items).flatMap print = Tree.lines d (items.map (Node.print d)) := by
  rw [flatMap_lines, Tree.lines, List.map_map]
  rfl

@[simp] theorem print_clause (d : Depth) (before : List Char) (o : Option Node) :
    (clause d before o).flatMap print = Node.printClause d before o := by
  cases o <;> simp [clause]

@[simp] theorem printed_commas (d : Depth) (items : List Node) :
    (commas d items).flatMap printed = items.flatMap (Node.printed d) := by
  rw [flatMap_commas, printed_own, intercalate_nil, List.flatMap_def]
  rfl

@[simp] theorem printed_lines (d : Depth) (items : List Node) :
    (lines d items).flatMap printed = items.flatMap (Node.printed d) := by
  rw [flatMap_lines, printed_own, intercalate_nil]
  simp [List.flatMap_def]

@[simp] theorem printed_clause (d : Depth) (before : List Char) (o : Option Node) :
    (clause d before o).flatMap printed = Node.printedOption d o := by
  cases o <;> simp [clause, Node.printedOption]

@[simp] theorem subtree_mem_commas {d e : Depth} {items : List Node} {m : Node} :
    subtree e m ∈ commas d items ↔ e = d ∧ m ∈ items := by
  rw [commas, mem_intercalate_map (by simp)]
  simp only [List.mem_singleton, subtree.injEq]
  exact ⟨fun ⟨_, hn, he, hm⟩ => ⟨he, hm ▸ hn⟩, fun ⟨he, hm⟩ => ⟨m, hm, he, rfl⟩⟩

@[simp] theorem subtree_mem_lines {d e : Depth} {items : List Node} {m : Node} :
    subtree e m ∈ lines d items ↔ e = d ∧ m ∈ items := by
  rw [lines, mem_intercalate_map (by simp)]
  simp only [List.mem_cons, reduceCtorEq, subtree.injEq, List.not_mem_nil, or_false, false_or]
  exact ⟨fun ⟨_, hn, he, hm⟩ => ⟨he, hm ▸ hn⟩, fun ⟨he, hm⟩ => ⟨m, hm, he, rfl⟩⟩

@[simp] theorem subtree_mem_clause {d e : Depth} {before : List Char} {o : Option Node} {m : Node} :
    subtree e m ∈ clause d before o ↔ e = d ∧ o = some m := by
  cases o <;> simp [clause, eq_comm]

end Piece

open Piece (own given subtree clause)

/-! ## The pieces of each kind of node -/

/-- The pieces of a text as it was written. -/
def LeafKind.pieces (text : String) : LeafKind → List Piece
  | .string => [own ['"'], given text, own ['"']]
  | _ => [given text]

/-- The pieces of a list that sits at depth `d`. -/
def ListKind.pieces (d : Depth) (items : List Node) : ListKind → List Piece
  | .statements =>
    if d.isTop then Piece.lines d.nested items
    else own ['\x7b', '\n'] :: Piece.lines d.nested items ++ [own ['\n', '\x7d']]
  | .declaration => own "var ".toList :: Piece.commas d items
  | .arrayLiteral => own ['['] :: Piece.commas d items ++ [own [']']]
  | .objectLiteral =>
    if items.isEmpty then [own ['\x7b', '\x7d']]
    else own ['\x7b', ' '] :: Piece.commas d items ++ [own [' ', '\x7d']]
  | .commaList => Piece.commas d items

/-- The pieces of a callee and its arguments. -/
def ApplyKind.pieces (d : Depth) (callee : Node) (arguments : List Node) : ApplyKind → List Piece
  | .call => subtree d callee :: own ['('] :: Piece.commas d arguments ++ [own [')']]
  | .construct =>
    own "new ".toList :: subtree d callee :: own ['('] :: Piece.commas d arguments ++ [own [')']]

/-- The pieces around one node. -/
def SingleKind.pieces (d : Depth) (value : Node) : SingleKind → List Piece
  | .throws => [own "throw ".toList, subtree d value]
  | .deletes => [own "delete ".toList, subtree d value]
  | .parens => [own ['('], subtree d value, own [')']]

namespace Node

/-- The pieces of the text of a node that sits at depth `d`. -/
def pieces (d : Depth) : Node → List Piece
  | leaf k text => k.pieces text
  | word w => [own w.text.toList]
  | list k items => k.pieces d items
  | apply k callee arguments => k.pieces d callee arguments
  | function none parameters body =>
    own "function(".toList :: Piece.commas d parameters
      ++ [own [')', ' '], subtree d.atLeastBlock body]
  | function (some name) parameters body =>
    own "function ".toList :: given name :: own ['('] :: Piece.commas d parameters
      ++ [own [')', ' '], subtree d.atLeastBlock body]
  | pair .property key value => [subtree d key, own [':', ' '], subtree d value]
  | pair .subscript object index => [subtree d object, own ['['], subtree d index, own [']']]
  | pair .member name object => [subtree d object, own ['.'], subtree d name]
  | pair .doWhile body condition =>
    [own "do ".toList, subtree d.atLeastBlock body, own (closing body (print d.atLeastBlock body)),
      own " while(".toList, subtree d condition, own [')']]
  | pair .whileDo condition body =>
    [own "while(".toList, subtree d condition, own [')', ' '], subtree d.atLeastBlock body]
  | single k value => k.pieces d value
  | unary o value =>
    [own o.text.toList, own (spacing o.text.toList (print d value)), subtree d value]
  | update o value => [subtree d value, own o.text.toList]
  | binary o left right =>
    clause d [] left ++ [own [' '], own o.text.toList, own [' ']] ++ clause d [] right
  | ternary condition left right =>
    [subtree d condition, own " ? ".toList, subtree d left, own " : ".toList, subtree d right]
  | returns value => own "return".toList :: clause d [' '] value
  | ifElse condition body otherwise =>
    [own "if(".toList, subtree d condition, own [')', ' '], subtree d.atLeastBlock body]
      ++ clause d.atLeastBlock (closing body (print d.atLeastBlock body) ++ " else ".toList)
        otherwise
  | forLoop init test step body =>
    own "for(".toList :: clause d [] init ++ own [';', ' '] :: clause d [] test
      ++ own [';', ' '] :: clause d [] step ++ [own [')', ' '], subtree d.atLeastBlock body]
  | forIn left right body =>
    [own "for(".toList, subtree d left, own " in ".toList, subtree d right, own [')', ' '],
      subtree d.atLeastBlock body]
  | tryCatch body _ none finalizer =>
    [own "try ".toList, subtree d.atLeastBlock body]
      ++ clause d.atLeastBlock " finally ".toList finalizer
  | tryCatch body parameter (some handler) finalizer =>
    [own "try ".toList, subtree d.atLeastBlock body, own " catch(".toList] ++ clause d [] parameter
      ++ [own [')', ' '], subtree d.atLeastBlock handler]
      ++ clause d.atLeastBlock " finally ".toList finalizer

end Node

theorem ListKind.print_pieces (d : Depth) (items : List Node) (k : ListKind) :
    (k.pieces d items).flatMap Piece.print = Node.print d (.list k items) := by
  rw [Node.print_list]
  cases k with
  | statements =>
      rw [ListKind.write_statements, ListKind.pieces]
      cases h : d.isTop with
      | true => simp [block_of_isTop h, ListKind.itemDepth]
      | false => simp [block_of_isTop_eq_false h, ListKind.itemDepth]
  | objectLiteral =>
      cases items with
      | nil => rfl
      | cons n items =>
          rw [List.map_cons, ListKind.write_objectLiteral_cons]
          simp [ListKind.pieces, ListKind.itemDepth]
  | declaration => simp [ListKind.pieces, ListKind.write_declaration, ListKind.itemDepth]
  | arrayLiteral => simp [ListKind.pieces, ListKind.write_arrayLiteral, ListKind.itemDepth]
  | commaList => simp [ListKind.pieces, ListKind.write_commaList, ListKind.itemDepth]

theorem ListKind.printed_pieces (d : Depth) (items : List Node) (k : ListKind) :
    (k.pieces d items).flatMap Piece.printed = items.flatMap (Node.printed (k.itemDepth d)) := by
  cases k with
  | statements =>
      rw [ListKind.pieces]
      cases d.isTop <;> simp [ListKind.itemDepth]
  | objectLiteral => cases items <;> simp [ListKind.pieces, ListKind.itemDepth]
  | declaration => simp [ListKind.pieces, ListKind.itemDepth]
  | arrayLiteral => simp [ListKind.pieces, ListKind.itemDepth]
  | commaList => simp [ListKind.pieces, ListKind.itemDepth]

namespace Node

/-- The text of a node is the texts of its pieces. -/
theorem print_eq_flatMap (d : Depth) (n : Node) : n.print d = (n.pieces d).flatMap Piece.print := by
  cases n with
  | leaf k text =>
      rw [print_leaf]
      cases k <;> simp [pieces, LeafKind.pieces, LeafKind.write]
  | word w =>
      rw [print_word, pieces]
      simp
  | list k items => exact (k.print_pieces d items).symm
  | apply k callee arguments =>
      rw [print_apply, pieces]
      cases k with
      | call =>
          rw [ApplyKind.write_call, ApplyKind.pieces]
          simp
      | construct =>
          rw [ApplyKind.write_construct, ApplyKind.pieces]
          simp
  | function name parameters body =>
      cases name with
      | none =>
          rw [print_function_none, pieces]
          simp
      | some name =>
          rw [print_function_some, pieces]
          simp
  | pair k left right =>
      cases k with
      | property =>
          rw [print_property, pieces]
          simp
      | subscript =>
          rw [print_subscript, pieces]
          simp
      | member =>
          rw [print_member, pieces]
          simp
      | doWhile =>
          rw [print_doWhile, pieces]
          simp
      | whileDo =>
          rw [print_whileDo, pieces]
          simp
  | single k value =>
      rw [print_single, pieces]
      cases k with
      | throws =>
          rw [SingleKind.write_throws, SingleKind.pieces]
          simp
      | deletes =>
          rw [SingleKind.write_deletes, SingleKind.pieces]
          simp
      | parens =>
          rw [SingleKind.write_parens, SingleKind.pieces]
          simp
  | unary o value =>
      rw [print_unary, pieces]
      simp
  | update o value =>
      rw [print_update, pieces]
      simp
  | binary o left right =>
      rw [print_binary, pieces]
      simp
  | ternary condition left right =>
      rw [print_ternary, pieces]
      simp
  | returns value =>
      rw [print_returns, pieces]
      simp
  | ifElse condition body otherwise =>
      rw [print_ifElse, pieces]
      simp
  | forLoop init test step body =>
      rw [print_forLoop, pieces]
      simp
  | forIn left right body =>
      rw [print_forIn, pieces]
      simp
  | tryCatch body parameter handler finalizer =>
      rw [print_tryCatch]
      cases handler with
      | none =>
          rw [pieces]
          simp
      | some handler =>
          rw [pieces]
          simp

/-- A text shows its node, and then the nodes that its pieces show. -/
theorem printed_eq_cons (d : Depth) (n : Node) :
    n.printed d = (d, n) :: (n.pieces d).flatMap Piece.printed := by
  cases n with
  | leaf k text => cases k <;> simp [pieces, LeafKind.pieces, printed]
  | word w => simp [pieces, printed]
  | list k items => simp [pieces, printed, ListKind.printed_pieces]
  | apply k callee arguments => cases k <;> simp [pieces, ApplyKind.pieces, printed]
  | function name parameters body => cases name <;> simp [pieces, printed]
  | pair k left right =>
      cases k with
      | property =>
          rw [printed, pieces]
          simp
      | subscript =>
          rw [printed, pieces]
          simp
      | member =>
          rw [printed, pieces]
          simp
      | doWhile =>
          rw [printed, pieces]
          simp
      | whileDo =>
          rw [printed, pieces]
          simp
  | single k value => cases k <;> simp [pieces, SingleKind.pieces, printed]
  | unary o value => simp [pieces, printed]
  | update o value => simp [pieces, printed]
  | binary o left right => simp [pieces, printed]
  | ternary condition left right => simp [pieces, printed]
  | returns value => simp [pieces, printed]
  | ifElse condition body otherwise => simp [pieces, printed]
  | forLoop init test step body => simp [pieces, printed]
  | forIn left right body => simp [pieces, printed]
  | tryCatch body parameter handler finalizer =>
      cases handler <;> simp [pieces, printed, printedOption]

/-! ## Induction along the text -/

theorem of_subtree_mem_listPieces {d e : Depth} {k : ListKind} {items : List Node} {m : Node}
    (h : subtree e m ∈ k.pieces d items) : e = k.itemDepth d ∧ m ∈ items := by
  cases k with
  | statements =>
      cases htop : d.isTop <;> simpa [ListKind.pieces, ListKind.itemDepth, htop] using h
  | objectLiteral =>
      cases items with
      | nil => simp [ListKind.pieces] at h
      | cons n items => simpa [ListKind.pieces, ListKind.itemDepth] using h
  | declaration => simpa [ListKind.pieces, ListKind.itemDepth] using h
  | arrayLiteral => simpa [ListKind.pieces, ListKind.itemDepth] using h
  | commaList => simpa [ListKind.pieces, ListKind.itemDepth] using h

/-- The tree `m` at depth `e` is smaller than `n` at depth `d`, and stands inside it: one level
further in and with one list less around its own ones, or at the depth of `n` or of its
branches. -/
structure Inside (d : Depth) (n : Node) (e : Depth) (m : Node) : Prop where
  size : sizeOf m < sizeOf n
  levels : (e = d.nested ∧ m.nesting + 1 ≤ n.nesting) ∨
    ((e = d ∨ e = d.atLeastBlock) ∧ m.nesting ≤ n.nesting)

namespace Inside

variable {d : Depth} {n m : Node}

theorem here (hsize : sizeOf m < sizeOf n) (hnesting : m.nesting ≤ n.nesting) : Inside d n d m :=
  ⟨hsize, .inr ⟨.inl rfl, hnesting⟩⟩

theorem branch (hsize : sizeOf m < sizeOf n) (hnesting : m.nesting ≤ n.nesting) :
    Inside d n d.atLeastBlock m :=
  ⟨hsize, .inr ⟨.inr rfl, hnesting⟩⟩

theorem item {k : ListKind} {items : List Node} (h : m ∈ items) :
    Inside d (list k items) (k.itemDepth d) m := by
  have hlist := List.sizeOf_lt_of_mem h
  have hnesting := nesting_le_nestingEach h
  have hsize : sizeOf m < sizeOf (list k items) := by
    simp only [list.sizeOf_spec]
    omega
  cases k with
  | statements => exact ⟨hsize, .inl ⟨rfl, Nat.add_le_add_right hnesting 1⟩⟩
  | _ => exact .here hsize hnesting

end Inside

theorem inside_of_subtree_mem_pieces {d e : Depth} {n m : Node} (h : subtree e m ∈ n.pieces d) :
    Inside d n e m := by
  cases n with
  | leaf k text => cases k <;> simp [pieces, LeafKind.pieces] at h
  | word w => simp [pieces] at h
  | list k items =>
      obtain ⟨rfl, hmem⟩ := of_subtree_mem_listPieces h
      exact .item hmem
  | apply k callee arguments =>
      have hm : (e = d ∧ m = callee) ∨ (e = d ∧ m ∈ arguments) := by
        cases k <;> simpa [pieces, ApplyKind.pieces] using h
      rcases hm with ⟨rfl, rfl⟩ | ⟨rfl, hmem⟩
      · exact .here (by simp only [apply.sizeOf_spec]; omega) (Nat.le_max_left ..)
      · have hsize := List.sizeOf_lt_of_mem hmem
        have hnesting := nesting_le_nestingEach hmem
        exact .here (by simp only [apply.sizeOf_spec]; omega) (by simp only [nesting]; omega)
  | function name parameters body =>
      have hm : (e = d ∧ m ∈ parameters) ∨ (e = d.atLeastBlock ∧ m = body) := by
        cases name <;> simpa [pieces] using h
      rcases hm with ⟨rfl, hmem⟩ | ⟨rfl, rfl⟩
      · have hsize := List.sizeOf_lt_of_mem hmem
        have hnesting := nesting_le_nestingEach hmem
        exact .here (by simp only [function.sizeOf_spec]; omega) (by simp only [nesting]; omega)
      · exact .branch (by simp only [function.sizeOf_spec]; omega) (Nat.le_max_right ..)
  | pair k left right =>
      -- which of the two is the body depends on the kind, and is of no account here
      have hm : (e = d ∨ e = d.atLeastBlock) ∧ (m = left ∨ m = right) := by
        cases k <;> simp [pieces] at h <;> grind
      have hsize : sizeOf m < sizeOf (pair k left right) := by
        rcases hm.2 with rfl | rfl <;> simp only [pair.sizeOf_spec] <;> omega
      have hnesting : m.nesting ≤ (pair k left right).nesting := by
        rcases hm.2 with rfl | rfl <;> simp only [nesting] <;> omega
      exact ⟨hsize, .inr ⟨hm.1, hnesting⟩⟩
  | single k value =>
      obtain ⟨rfl, rfl⟩ : e = d ∧ m = value := by
        cases k <;> simpa [pieces, SingleKind.pieces] using h
      exact .here (by simp only [single.sizeOf_spec]; omega) (Nat.le_refl _)
  | unary o value =>
      obtain ⟨rfl, rfl⟩ : e = d ∧ m = value := by simpa [pieces] using h
      exact .here (by simp only [unary.sizeOf_spec]; omega) (Nat.le_refl _)
  | update o value =>
      obtain ⟨rfl, rfl⟩ : e = d ∧ m = value := by simpa [pieces] using h
      exact .here (by simp only [update.sizeOf_spec]; omega) (Nat.le_refl _)
  | binary o left right =>
      have hm : e = d ∧ (left = some m ∨ right = some m) := by
        simpa [pieces, and_or_left] using h
      rcases hm with ⟨rfl, rfl | rfl⟩ <;>
        exact .here (by simp only [binary.sizeOf_spec, Option.some.sizeOf_spec]; omega)
          (by simp only [nesting, nestingOption]; omega)
  | ternary condition left right =>
      have hm : e = d ∧ (m = condition ∨ m = left ∨ m = right) := by
        simpa [pieces, and_or_left] using h
      rcases hm with ⟨rfl, rfl | rfl | rfl⟩ <;>
        exact .here (by simp only [ternary.sizeOf_spec]; omega) (by simp only [nesting]; omega)
  | returns value =>
      obtain ⟨rfl, rfl⟩ : e = d ∧ value = some m := by simpa [pieces] using h
      exact .here (by simp only [returns.sizeOf_spec, Option.some.sizeOf_spec]; omega)
        (Nat.le_refl _)
  | ifElse condition body otherwise =>
      have hm : (e = d ∧ m = condition) ∨ (e = d.atLeastBlock ∧ (m = body ∨ otherwise = some m)) := by
        simpa [pieces, and_or_left] using h
      rcases hm with ⟨rfl, rfl⟩ | ⟨rfl, rfl | rfl⟩
      · exact .here (by simp only [ifElse.sizeOf_spec]; omega) (by simp only [nesting]; omega)
      · exact .branch (by simp only [ifElse.sizeOf_spec]; omega) (by simp only [nesting]; omega)
      · exact .branch (by simp only [ifElse.sizeOf_spec, Option.some.sizeOf_spec]; omega)
          (by simp only [nesting, nestingOption]; omega)
  | forLoop init test step body =>
      have hm : (e = d ∧ (init = some m ∨ test = some m ∨ step = some m)) ∨
          (e = d.atLeastBlock ∧ m = body) := by
        simpa [pieces, and_or_left, or_assoc] using h
      rcases hm with ⟨rfl, hheader⟩ | ⟨rfl, rfl⟩
      · rcases hheader with rfl | rfl | rfl <;>
          exact .here (by simp only [forLoop.sizeOf_spec, Option.some.sizeOf_spec]; omega)
            (by simp only [nesting, nestingOption]; omega)
      · exact .branch (by simp only [forLoop.sizeOf_spec]; omega) (by simp only [nesting]; omega)
  | forIn left right body =>
      have hm : (e = d ∧ (m = left ∨ m = right)) ∨ (e = d.atLeastBlock ∧ m = body) := by
        simpa [pieces, and_or_left, or_assoc] using h
      rcases hm with ⟨rfl, rfl | rfl⟩ | ⟨rfl, rfl⟩
      · exact .here (by simp only [forIn.sizeOf_spec]; omega) (by simp only [nesting]; omega)
      · exact .here (by simp only [forIn.sizeOf_spec]; omega) (by simp only [nesting]; omega)
      · exact .branch (by simp only [forIn.sizeOf_spec]; omega) (by simp only [nesting]; omega)
  | tryCatch body parameter handler finalizer =>
      cases handler with
      | none =>
          have hm : e = d.atLeastBlock ∧ (m = body ∨ finalizer = some m) := by
            simpa [pieces, and_or_left] using h
          rcases hm with ⟨rfl, rfl | rfl⟩ <;>
            exact .branch (by simp only [tryCatch.sizeOf_spec, Option.some.sizeOf_spec]; omega)
              (by simp only [nesting, nestingOption]; omega)
      | some handler =>
          have hm : (e = d ∧ parameter = some m) ∨
              e = d.atLeastBlock ∧ (m = body ∨ m = handler ∨ finalizer = some m) := by
            simp only [pieces, List.mem_append, List.mem_cons, Piece.subtree_mem_clause] at h
            grind
          rcases hm with ⟨rfl, rfl⟩ | ⟨rfl, hm⟩
          · exact .here (by simp only [tryCatch.sizeOf_spec, Option.some.sizeOf_spec]; omega)
              (by simp only [nesting, nestingOption, Option.isSome_some, if_true]; omega)
          · rcases hm with rfl | rfl | rfl <;>
              exact .branch (by simp only [tryCatch.sizeOf_spec, Option.some.sizeOf_spec]; omega)
                (by simp only [nesting, nestingOption]; omega)

/-- The statement lists of a tree inside a node have braces when those of the node do. -/
theorem Inside.braces {d e : Depth} {n m : Node} (h : Inside d n e m) (hd : d.Braces n.nesting) :
    e.Braces m.nesting := by
  rcases h.levels with ⟨rfl, hle⟩ | ⟨rfl | rfl, hle⟩
  · exact (hd.mono hle).2
  · exact hd.mono hle
  · exact (hd.mono hle).atLeastBlock

/-- A property of trees at their depths holds of all of them when it holds of every tree whose
pieces have it. -/
theorem pieces_induction {P : Depth → Node → Prop}
    (step : ∀ d n, (∀ e m, subtree e m ∈ n.pieces d → P e m) → P d n) (d : Depth) (n : Node) :
    P d n :=
  step d n fun e m _ => pieces_induction step e m
termination_by sizeOf n
decreasing_by exact (inside_of_subtree_mem_pieces ‹_›).size

end Node

end ScriptHost.Tree
