import ScriptHost.Tree.Operator

/-!
# Syntax trees

A tree of script statements and expressions. Nodes of one shape share a constructor and differ
in a small enumeration (`LeafKind`, `Word`, `ListKind`, …); `Node.kind` gives the kind of a node,
of which there are 35 (`Kind.all`), and kinds are known by name (`Kind.ofName?_name`). Equality of
trees is decidable.
-/

set_option autoImplicit false

namespace ScriptHost.Tree

/-! ## Kinds of nodes, shape by shape -/

/-- Nodes that hold a piece of text: an identifier, a number as written, the inside of a string
literal, a regular expression with its slashes. -/
inductive LeafKind where
  | name
  | number
  | string
  | regexp
  deriving DecidableEq

/-- Nodes that are one word. -/
inductive Word where
  | breakOut
  | continueOn
  | nullValue
  | trueValue
  | falseValue
  | thisValue
  deriving DecidableEq

/-- Nodes that are a list of nodes: a block or program, a declaration, the two literals, and
expressions joined by commas. -/
inductive ListKind where
  | statements
  | declaration
  | arrayLiteral
  | objectLiteral
  | commaList
  deriving DecidableEq

/-- Nodes that apply a callee to arguments. -/
inductive ApplyKind where
  | call
  | construct
  deriving DecidableEq

/-- Nodes made of two nodes. A `property` is key and value; a `subscript` is object and index; a
`member` is the property's name and then the object; `doWhile` is body and condition, `whileDo`
condition and body. -/
inductive PairKind where
  | property
  | subscript
  | member
  | doWhile
  | whileDo
  deriving DecidableEq

/-- Nodes around one node. -/
inductive SingleKind where
  | throws
  | deletes
  | parens
  deriving DecidableEq

/-- The kinds of nodes. -/
inductive Kind where
  | leaf (kind : LeafKind)
  | word (word : Word)
  | list (kind : ListKind)
  | apply (kind : ApplyKind)
  | function
  | pair (kind : PairKind)
  | single (kind : SingleKind)
  | unary
  | update
  | binary
  | ternary
  | returns
  | ifElse
  | forLoop
  | forIn
  | tryCatch
  deriving DecidableEq

namespace Kind

/-- Every kind. -/
def all : List Kind :=
  [list .statements, list .declaration, list .arrayLiteral, list .objectLiteral, pair .property,
    list .commaList, apply .call, apply .construct, function, leaf .name, leaf .number,
    leaf .string, leaf .regexp, word .breakOut, word .continueOn, word .nullValue,
    word .trueValue, word .falseValue, word .thisValue, pair .subscript, pair .member,
    pair .doWhile, pair .whileDo, forLoop, forIn, ifElse, tryCatch, ternary, returns,
    single .throws, single .deletes, single .parens, unary, update, binary]

/-- The name under which a kind is stored. -/
def name : Kind → String
  | list .statements => "SourceElements"
  | list .declaration => "VarStatement"
  | list .arrayLiteral => "ArrayLiteral"
  | list .objectLiteral => "ObjectLiteral"
  | pair .property => "Property"
  | list .commaList => "Comma"
  | apply .call => "FunctionCall"
  | apply .construct => "New"
  | function => "Function"
  | leaf .name => "Name"
  | leaf .number => "Number"
  | leaf .string => "String"
  | leaf .regexp => "Regexp"
  | word .breakOut => "Break"
  | word .continueOn => "Continue"
  | word .nullValue => "Null"
  | word .trueValue => "True"
  | word .falseValue => "False"
  | word .thisValue => "This"
  | pair .subscript => "BracketAccess"
  | pair .member => "DotAccessor"
  | pair .doWhile => "DoWhile"
  | pair .whileDo => "While"
  | forLoop => "For"
  | forIn => "ForIn"
  | ifElse => "If"
  | tryCatch => "Try"
  | ternary => "Ternary"
  | returns => "Return"
  | single .throws => "Throw"
  | single .deletes => "Delete"
  | single .parens => "Parenthesis"
  | unary => "Unary"
  | update => "Postfix"
  | binary => "Binary"

/-- The kind stored under a name. -/
def ofName? (s : String) : Option Kind := all.find? (·.name == s)

theorem mem_all : ∀ k : Kind, k ∈ all
  | leaf k => by cases k <;> decide
  | word w => by cases w <;> decide
  | list k => by cases k <;> decide
  | apply k => by cases k <;> decide
  | pair k => by cases k <;> decide
  | single k => by cases k <;> decide
  | function | unary | update | binary | ternary | returns | ifElse | forLoop | forIn
  | tryCatch => by decide

theorem ofName?_name : ∀ k : Kind, ofName? k.name = some k
  | leaf k => by cases k <;> decide
  | word w => by cases w <;> decide
  | list k => by cases k <;> decide
  | apply k => by cases k <;> decide
  | pair k => by cases k <;> decide
  | single k => by cases k <;> decide
  | function | unary | update | binary | ternary | returns | ifElse | forLoop | forIn
  | tryCatch => by decide

end Kind

/-! ## Nodes -/

/-- A syntax tree. -/
inductive Node where
  /-- A piece of text as it was written. -/
  | leaf (kind : LeafKind) (text : String)
  /-- One word. -/
  | word (word : Word)
  /-- A list of nodes. -/
  | list (kind : ListKind) (items : List Node)
  /-- A callee and its arguments. -/
  | apply (kind : ApplyKind) (callee : Node) (arguments : List Node)
  /-- A function with or without a name. -/
  | function (name : Option String) (parameters : List Node) (body : Node)
  /-- Two nodes. -/
  | pair (kind : PairKind) (left right : Node)
  /-- One node with something around it. -/
  | single (kind : SingleKind) (value : Node)
  /-- An operator before its operand. -/
  | unary (operator : UnaryOperator) (value : Node)
  /-- An operator behind its operand. -/
  | update (operator : UpdateOperator) (value : Node)
  /-- An operator between its operands, either of which may be missing. -/
  | binary (operator : BinaryOperator) (left right : Option Node)
  /-- The conditional expression. -/
  | ternary (condition left right : Node)
  /-- A return, with or without a value. -/
  | returns (value : Option Node)
  /-- A conditional statement with or without an else branch. -/
  | ifElse (condition body : Node) (otherwise : Option Node)
  /-- A counting loop; each part of its header may be missing. -/
  | forLoop (init test update : Option Node) (body : Node)
  /-- A loop over the names of an object. -/
  | forIn (left right body : Node)
  /-- A guarded body. The handler's parameter is of use only when there is a handler. -/
  | tryCatch (body : Node) (parameter handler finalizer : Option Node)

namespace Node

/-- The kind of a node. -/
def kind : Node → Kind
  | leaf k _ => .leaf k
  | word w => .word w
  | list k _ => .list k
  | apply k _ _ => .apply k
  | function _ _ _ => .function
  | pair k _ _ => .pair k
  | single k _ => .single k
  | unary _ _ => .unary
  | update _ _ => .update
  | binary _ _ _ => .binary
  | ternary _ _ _ => .ternary
  | returns _ => .returns
  | ifElse _ _ _ => .ifElse
  | forLoop _ _ _ _ => .forLoop
  | forIn _ _ _ => .forIn
  | tryCatch _ _ _ _ => .tryCatch

/-- A statement list: a program at the top, a block inside. -/
def isStatements (n : Node) : Bool := n.kind == .list .statements

theorem isStatements_iff {n : Node} :
    n.isStatements = true ↔ ∃ items, n = list .statements items := by
  rw [isStatements, beq_iff_eq]
  constructor
  · intro h
    cases n with
    | list k items => exact ⟨items, by rw [Kind.list.inj h]⟩
    | _ => exact absurd h Kind.noConfusion
  · rintro ⟨items, rfl⟩
    rfl

/-! ### Building trees -/

/-- A statement list. -/
def program (items : List Node) : Node := .list .statements items

/-- A declaration. -/
def declare (items : List Node) : Node := .list .declaration items

/-- An identifier. -/
def ident (text : String) : Node := .leaf .name text

/-- A number as written. -/
def number (text : String) : Node := .leaf .number text

/-- A string literal, given without its quotes. -/
def string (text : String) : Node := .leaf .string text

/-- A call. -/
def call (callee : Node) (arguments : List Node) : Node := .apply .call callee arguments

/-- An operator between two operands. -/
def operation (o : BinaryOperator) (left right : Node) : Node := .binary o (some left) (some right)

/-! ### Equality -/

mutual

/-- Whether two trees are the same. -/
def same : Node → Node → Bool
  | leaf k s, leaf k' s' => k == k' && s == s'
  | word w, word w' => w == w'
  | list k xs, list k' xs' => k == k' && sameAll xs xs'
  | apply k f xs, apply k' f' xs' => k == k' && same f f' && sameAll xs xs'
  | function n ps b, function n' ps' b' => n == n' && sameAll ps ps' && same b b'
  | pair k a b, pair k' a' b' => k == k' && same a a' && same b b'
  | single k a, single k' a' => k == k' && same a a'
  | unary o a, unary o' a' => o == o' && same a a'
  | update o a, update o' a' => o == o' && same a a'
  | binary o a b, binary o' a' b' => o == o' && sameOption a a' && sameOption b b'
  | ternary c a b, ternary c' a' b' => same c c' && same a a' && same b b'
  | returns a, returns a' => sameOption a a'
  | ifElse c a b, ifElse c' a' b' => same c c' && same a a' && sameOption b b'
  | forLoop i t u b, forLoop i' t' u' b' =>
    sameOption i i' && sameOption t t' && sameOption u u' && same b b'
  | forIn a b c, forIn a' b' c' => same a a' && same b b' && same c c'
  | tryCatch b p h f, tryCatch b' p' h' f' =>
    same b b' && sameOption p p' && sameOption h h' && sameOption f f'
  | _, _ => false

/-- Whether two lists of trees are the same. -/
def sameAll : List Node → List Node → Bool
  | [], [] => true
  | a :: as, b :: bs => same a b && sameAll as bs
  | _, _ => false

/-- Whether two optional trees are the same. -/
def sameOption : Option Node → Option Node → Bool
  | none, none => true
  | some a, some b => same a b
  | _, _ => false

end

mutual

theorem same_iff : ∀ a b : Node, same a b = true ↔ a = b
  | leaf _ _, b => by cases b <;> simp [same]
  | word _, b => by cases b <;> simp [same]
  | list _ xs, b => by cases b <;> simp [same, sameAll_iff xs]
  | apply _ f xs, b => by cases b <;> simp [same, same_iff f, sameAll_iff xs, and_assoc]
  | function _ ps c, b => by cases b <;> simp [same, same_iff c, sameAll_iff ps, and_assoc]
  | pair _ x y, b => by cases b <;> simp [same, same_iff x, same_iff y, and_assoc]
  | single _ x, b => by cases b <;> simp [same, same_iff x]
  | unary _ x, b => by cases b <;> simp [same, same_iff x]
  | update _ x, b => by cases b <;> simp [same, same_iff x]
  | binary _ x y, b => by
    cases b <;> simp [same, sameOption_iff x, sameOption_iff y, and_assoc]
  | ternary c x y, b => by
    cases b <;> simp [same, same_iff c, same_iff x, same_iff y, and_assoc]
  | returns x, b => by cases b <;> simp [same, sameOption_iff x]
  | ifElse c x y, b => by
    cases b <;> simp [same, same_iff c, same_iff x, sameOption_iff y, and_assoc]
  | forLoop i t u c, b => by
    cases b <;>
      simp [same, sameOption_iff i, sameOption_iff t, sameOption_iff u, same_iff c, and_assoc]
  | forIn x y z, b => by
    cases b <;> simp [same, same_iff x, same_iff y, same_iff z, and_assoc]
  | tryCatch c p h f, b => by
    cases b <;>
      simp [same, same_iff c, sameOption_iff p, sameOption_iff h, sameOption_iff f, and_assoc]

theorem sameAll_iff : ∀ as bs : List Node, sameAll as bs = true ↔ as = bs
  | [], bs => by cases bs <;> simp [sameAll]
  | a :: as, bs => by cases bs <;> simp [sameAll, same_iff a, sameAll_iff as]

theorem sameOption_iff : ∀ a b : Option Node, sameOption a b = true ↔ a = b
  | none, b => by cases b <;> simp [sameOption]
  | some a, b => by cases b <;> simp [sameOption, same_iff a]

end

instance : DecidableEq Node := fun a b => decidable_of_iff (same a b = true) (same_iff a b)

end Node

end ScriptHost.Tree
