import ScriptHost.Tree.Depth
import ScriptHost.Tree.Node

/-!
# Source text of a tree

`Node.print` writes a tree as source text for the depth it sits at. The text follows the
structure of the tree and nothing else: there is no analysis of precedence, so grouping shows
only where the tree has a `parens` node.

Three choices look at text already printed. A body in front of `else` or `while` gets a closing
semicolon unless it is a block or its text ends in one (`closing`); a sign in front of an operand
that begins with a sign is kept apart from it (`spacing`); and a statement list has braces unless
it is the program itself.
-/

set_option autoImplicit false

namespace ScriptHost.Tree

/-! ## Pieces of text -/

/-- The word as it stands in source text. The two jumps bring a semicolon along. -/
def Word.text : Word → String
  | .breakOut => "break;"
  | .continueOn => "continue;"
  | .nullValue => "null"
  | .trueValue => "true"
  | .falseValue => "false"
  | .thisValue => "this"

/-- A piece of text as it stands in source text: only a string literal has its quotes added. -/
def LeafKind.write : LeafKind → List Char → List Char
  | .string, text => '"' :: text ++ ['"']
  | _, text => text

/-- Whether a character is a sign. -/
def isSign (c : Char) : Bool := c == '+' || c == '-'

theorem isSign_eq_false {c : Char} : isSign c = false ↔ c ≠ '+' ∧ c ≠ '-' := by
  simp [isSign]

/-- The blank between an operator and its operand, present when a sign would meet a sign. -/
def spacing (operator operand : List Char) : List Char :=
  if operator.getLast?.any isSign && operand.head?.any isSign then [' '] else []

/-- The semicolon between a body and the word behind it, absent when the body is a block or its
text ends in a semicolon. -/
def closing (body : Node) (text : List Char) : List Char :=
  if body.isStatements || text.getLast? == some ';' then [] else [';']

/-- Texts with a comma and a blank between them. -/
def commas (texts : List (List Char)) : List Char := List.intercalate [',', ' '] texts

/-- Statements, one to a line, each behind its indentation and in front of its semicolon. -/
def lines (d : Depth) (texts : List (List Char)) : List Char :=
  List.intercalate ['\n'] (texts.map fun text => d.indent ++ text ++ [';'])

/-- The statements of a list that sits at depth `d`, in braces unless `d` is the top. -/
def block (d : Depth) (texts : List (List Char)) : List Char :=
  if d.isTop then lines d.nested texts
  else ['\x7b', '\n'] ++ lines d.nested texts ++ ['\n', '\x7d']

theorem block_of_isTop {d : Depth} (h : d.isTop = true) (texts : List (List Char)) :
    block d texts = lines d.nested texts := if_pos h

theorem block_of_isTop_eq_false {d : Depth} (h : d.isTop = false) (texts : List (List Char)) :
    block d texts = ['\x7b', '\n'] ++ lines d.nested texts ++ ['\n', '\x7d'] := by
  rw [block, h, if_neg (by decide)]

/-- The depth of the items of a list that sits at `d`: only statements go one level down. -/
def ListKind.itemDepth (d : Depth) : ListKind → Depth
  | .statements => d.nested
  | _ => d

/-- The texts of the items of a list that sits at depth `d`, put together. -/
def ListKind.write (d : Depth) (texts : List (List Char)) : ListKind → List Char
  | .statements => block d texts
  | .declaration => "var ".toList ++ commas texts
  | .arrayLiteral => ['['] ++ commas texts ++ [']']
  | .objectLiteral =>
    if texts.isEmpty then ['\x7b', '\x7d']
    else ['\x7b', ' '] ++ commas texts ++ [' ', '\x7d']
  | .commaList => commas texts

/-- A callee and its arguments, put together. -/
def ApplyKind.write (callee : List Char) (arguments : List (List Char)) : ApplyKind → List Char
  | .call => callee ++ ['('] ++ commas arguments ++ [')']
  | .construct => "new ".toList ++ callee ++ ['('] ++ commas arguments ++ [')']

/-- The text around one node. -/
def SingleKind.write (value : List Char) : SingleKind → List Char
  | .throws => "throw ".toList ++ value
  | .deletes => "delete ".toList ++ value
  | .parens => ['('] ++ value ++ [')']

theorem ListKind.write_statements (d : Depth) (texts : List (List Char)) :
    ListKind.statements.write d texts = block d texts := rfl

theorem ListKind.write_declaration (d : Depth) (texts : List (List Char)) :
    ListKind.declaration.write d texts = "var ".toList ++ commas texts := rfl

theorem ListKind.write_arrayLiteral (d : Depth) (texts : List (List Char)) :
    ListKind.arrayLiteral.write d texts = ['['] ++ commas texts ++ [']'] := rfl

theorem ListKind.write_objectLiteral_nil (d : Depth) :
    ListKind.objectLiteral.write d [] = ['\x7b', '\x7d'] := rfl

theorem ListKind.write_objectLiteral_cons (d : Depth) (text : List Char)
    (texts : List (List Char)) :
    ListKind.objectLiteral.write d (text :: texts)
      = ['\x7b', ' '] ++ commas (text :: texts) ++ [' ', '\x7d'] := rfl

theorem ListKind.write_commaList (d : Depth) (texts : List (List Char)) :
    ListKind.commaList.write d texts = commas texts := rfl

theorem ApplyKind.write_call (callee : List Char) (arguments : List (List Char)) :
    ApplyKind.call.write callee arguments = callee ++ ['('] ++ commas arguments ++ [')'] := rfl

theorem ApplyKind.write_construct (callee : List Char) (arguments : List (List Char)) :
    ApplyKind.construct.write callee arguments
      = "new ".toList ++ callee ++ ['('] ++ commas arguments ++ [')'] := rfl

theorem SingleKind.write_throws (value : List Char) :
    SingleKind.throws.write value = "throw ".toList ++ value := rfl

theorem SingleKind.write_deletes (value : List Char) :
    SingleKind.deletes.write value = "delete ".toList ++ value := rfl

theorem SingleKind.write_parens (value : List Char) :
    SingleKind.parens.write value = ['('] ++ value ++ [')'] := rfl

/-! ## Trees -/

namespace Node

mutual

/-- The source text of a tree that sits at depth `d`. The bodies of loops, branches, guarded
bodies and functions sit at least one level down, so that a statement list there is a block. -/
def print (d : Depth) : Node → List Char
  | leaf k text => k.write text.toList
  | word w => w.text.toList
  | list k items => k.write d (printEach (k.itemDepth d) items)
  | apply k callee arguments => k.write (print d callee) (printEach d arguments)
  | function name parameters body =>
    "function".toList ++ (match name with | none => [] | some n => ' ' :: n.toList) ++ ['(']
      ++ commas (printEach d parameters) ++ [')', ' '] ++ print d.atLeastBlock body
  | pair .property key value => print d key ++ [':', ' '] ++ print d value
  | pair .subscript object index => print d object ++ ['['] ++ print d index ++ [']']
  | pair .member name object => print d object ++ ['.'] ++ print d name
  | pair .doWhile body condition =>
    let text := print d.atLeastBlock body
    "do ".toList ++ text ++ closing body text ++ " while(".toList ++ print d condition ++ [')']
  | pair .whileDo condition body =>
    "while(".toList ++ print d condition ++ [')', ' '] ++ print d.atLeastBlock body
  | single k value => k.write (print d value)
  | unary o value =>
    let text := print d value
    o.text.toList ++ spacing o.text.toList text ++ text
  | update o value => print d value ++ o.text.toList
  | binary o left right =>
    printClause d [] left ++ [' '] ++ o.text.toList ++ [' '] ++ printClause d [] right
  | ternary condition left right =>
    print d condition ++ " ? ".toList ++ print d left ++ " : ".toList ++ print d right
  | returns value => "return".toList ++ printClause d [' '] value
  | ifElse condition body otherwise =>
    let text := print d.atLeastBlock body
    "if(".toList ++ print d condition ++ [')', ' '] ++ text
      ++ printClause d.atLeastBlock (closing body text ++ " else ".toList) otherwise
  | forLoop init test step body =>
    "for(".toList ++ printClause d [] init ++ [';', ' '] ++ printClause d [] test ++ [';', ' ']
      ++ printClause d [] step ++ [')', ' '] ++ print d.atLeastBlock body
  | forIn left right body =>
    "for(".toList ++ print d left ++ " in ".toList ++ print d right ++ [')', ' ']
      ++ print d.atLeastBlock body
  | tryCatch body parameter handler finalizer =>
    "try ".toList ++ print d.atLeastBlock body
      ++ printClause d.atLeastBlock
        (" catch(".toList ++ printClause d [] parameter ++ [')', ' ']) handler
      ++ printClause d.atLeastBlock " finally ".toList finalizer

/-- The source texts of the nodes of a list, all at depth `d`. -/
def printEach (d : Depth) : List Node → List (List Char)
  | [] => []
  | n :: rest => print d n :: printEach d rest

/-- The source text of a node that may be missing, behind `before`; no text when it is. -/
def printClause (d : Depth) (before : List Char) : Option Node → List Char
  | none => []
  | some n => before ++ print d n

end

@[simp] theorem printEach_eq_map (d : Depth) (items : List Node) :
    printEach d items = items.map (print d) := by
  induction items with
  | nil => rfl
  | cons n rest ih => simp [printEach, ih]

@[simp] theorem printClause_none (d : Depth) (before : List Char) :
    printClause d before none = [] := rfl

@[simp] theorem printClause_some (d : Depth) (before : List Char) (n : Node) :
    printClause d before (some n) = before ++ print d n := rfl

/-! ### The text of each kind of node -/

theorem print_leaf (d : Depth) (k : LeafKind) (text : String) :
    print d (leaf k text) = k.write text.toList := rfl

theorem print_ident (d : Depth) (text : String) : print d (ident text) = text.toList := rfl

theorem print_word (d : Depth) (w : Word) : print d (word w) = w.text.toList := rfl

theorem print_list (d : Depth) (k : ListKind) (items : List Node) :
    print d (list k items) = k.write d (items.map (print (k.itemDepth d))) := by
  rw [← printEach_eq_map]
  rfl

theorem print_statements (d : Depth) (items : List Node) :
    print d (list .statements items) = block d (items.map (print d.nested)) :=
  print_list d .statements items

theorem print_declaration (d : Depth) (items : List Node) :
    print d (list .declaration items) = "var ".toList ++ commas (items.map (print d)) :=
  print_list d .declaration items

theorem print_arrayLiteral (d : Depth) (items : List Node) :
    print d (list .arrayLiteral items) = ['['] ++ commas (items.map (print d)) ++ [']'] :=
  print_list d .arrayLiteral items

theorem print_apply (d : Depth) (k : ApplyKind) (callee : Node) (arguments : List Node) :
    print d (apply k callee arguments) = k.write (print d callee) (arguments.map (print d)) := by
  rw [← printEach_eq_map]
  rfl

theorem print_function_none (d : Depth) (parameters : List Node) (body : Node) :
    print d (function none parameters body)
      = "function".toList ++ ['('] ++ commas (parameters.map (print d)) ++ [')', ' ']
        ++ print d.atLeastBlock body := by
  rw [← printEach_eq_map]
  rfl

theorem print_function_some (d : Depth) (name : String) (parameters : List Node) (body : Node) :
    print d (function (some name) parameters body)
      = "function ".toList ++ name.toList ++ ['('] ++ commas (parameters.map (print d))
        ++ [')', ' '] ++ print d.atLeastBlock body := by
  rw [← printEach_eq_map]
  rfl

theorem print_property (d : Depth) (key value : Node) :
    print d (pair .property key value) = print d key ++ [':', ' '] ++ print d value := rfl

theorem print_subscript (d : Depth) (object index : Node) :
    print d (pair .subscript object index)
      = print d object ++ ['['] ++ print d index ++ [']'] := rfl

theorem print_member (d : Depth) (name object : Node) :
    print d (pair .member name object) = print d object ++ ['.'] ++ print d name := rfl

theorem print_doWhile (d : Depth) (body condition : Node) :
    print d (pair .doWhile body condition)
      = "do ".toList ++ print d.atLeastBlock body ++ closing body (print d.atLeastBlock body)
        ++ " while(".toList ++ print d condition ++ [')'] := rfl

theorem print_whileDo (d : Depth) (condition body : Node) :
    print d (pair .whileDo condition body)
      = "while(".toList ++ print d condition ++ [')', ' '] ++ print d.atLeastBlock body := rfl

theorem print_single (d : Depth) (k : SingleKind) (value : Node) :
    print d (single k value) = k.write (print d value) := rfl

theorem print_unary (d : Depth) (o : UnaryOperator) (value : Node) :
    print d (unary o value)
      = o.text.toList ++ spacing o.text.toList (print d value) ++ print d value := rfl

theorem print_update (d : Depth) (o : UpdateOperator) (value : Node) :
    print d (update o value) = print d value ++ o.text.toList := rfl

theorem print_binary (d : Depth) (o : BinaryOperator) (left right : Option Node) :
    print d (binary o left right)
      = printClause d [] left ++ [' '] ++ o.text.toList ++ [' '] ++ printClause d [] right := rfl

theorem print_ternary (d : Depth) (condition left right : Node) :
    print d (ternary condition left right)
      = print d condition ++ " ? ".toList ++ print d left ++ " : ".toList ++ print d right := rfl

theorem print_returns (d : Depth) (value : Option Node) :
    print d (returns value) = "return".toList ++ printClause d [' '] value := rfl

theorem print_ifElse (d : Depth) (condition body : Node) (otherwise : Option Node) :
    print d (ifElse condition body otherwise)
      = "if(".toList ++ print d condition ++ [')', ' '] ++ print d.atLeastBlock body
        ++ printClause d.atLeastBlock
          (closing body (print d.atLeastBlock body) ++ " else ".toList) otherwise := rfl

theorem print_forLoop (d : Depth) (init test step : Option Node) (body : Node) :
    print d (forLoop init test step body)
      = "for(".toList ++ printClause d [] init ++ [';', ' '] ++ printClause d [] test
        ++ [';', ' '] ++ printClause d [] step ++ [')', ' '] ++ print d.atLeastBlock body := rfl

theorem print_forIn (d : Depth) (left right body : Node) :
    print d (forIn left right body)
      = "for(".toList ++ print d left ++ " in ".toList ++ print d right ++ [')', ' ']
        ++ print d.atLeastBlock body := rfl

theorem print_tryCatch (d : Depth) (body : Node) (parameter handler finalizer : Option Node) :
    print d (tryCatch body parameter handler finalizer)
      = "try ".toList ++ print d.atLeastBlock body
        ++ printClause d.atLeastBlock
          (" catch(".toList ++ printClause d [] parameter ++ [')', ' ']) handler
        ++ printClause d.atLeastBlock " finally ".toList finalizer := rfl

/-- The source text of a tree that sits at a given depth. -/
def renderAt (n : Node) (d : Depth) : String := String.ofList (n.print d)

/-- The source text of a tree as a program. -/
def render (n : Node) : String := n.renderAt .top

end Node

end ScriptHost.Tree
