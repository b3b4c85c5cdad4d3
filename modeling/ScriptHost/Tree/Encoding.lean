import ScriptHost.Json.Reader
import ScriptHost.Tree.Node

/-!
# Trees as JSON

A node is written as an object with its kind under `kind` and then its fields in the order of
`Kind.fields`; a missing part is written as null and an operator by its name.

Reading (`Node.decode?`) accepts more spellings than writing produces. A node may be an object
with its keys in any order, with further keys, and without the fields that may be missing; or an
array of the kind and all fields in order. The kind is given by its name or, below the root, by
its index in `Kind.all`. An operator may be an object whose only key is its name, with the value
null or, inside a node, an empty object. The kind, and each field of the kind, may stand only once
in an object. The text of a tree (`Node.ofText?`) may be nested to a limit.
-/

set_option autoImplicit false

namespace ScriptHost.Tree

/-! ## Writing -/

/-- The keys of the fields of a kind, in order. -/
def Kind.fields : Kind → List String
  | .leaf _ => ["value"]
  | .word _ => []
  | .list _ => ["value"]
  | .apply _ => ["callee", "arguments"]
  | .function => ["name", "arguments", "body"]
  | .pair _ => ["left", "right"]
  | .single _ => ["value"]
  | .unary => ["operator", "value"]
  | .update => ["operator", "value"]
  | .binary => ["operator", "left", "right"]
  | .ternary => ["condition", "left", "right"]
  | .returns => ["value"]
  | .ifElse => ["condition", "then", "otherwise"]
  | .forLoop => ["init", "test", "update", "body"]
  | .forIn => ["left", "right", "body"]
  | .tryCatch => ["body", "catch_param", "catch_body", "finally"]

/-- A node of a kind as JSON, given the values of its fields in order. -/
def Kind.wrap (k : Kind) (values : List Json) : Json :=
  .object (("kind", .string k.name) :: k.fields.zip values)

namespace Node

/-- A name that may be missing as JSON. -/
def encodeName : Option String → Json
  | none => .null
  | some n => .string n

mutual

/-- A node as JSON. -/
def encode : Node → Json
  | leaf k text => (Kind.leaf k).wrap [.string text]
  | word w => (Kind.word w).wrap []
  | list k items => (Kind.list k).wrap [.array (encodeAll items)]
  | apply k callee arguments => (Kind.apply k).wrap [encode callee, .array (encodeAll arguments)]
  | function name parameters body =>
    Kind.function.wrap [encodeName name, .array (encodeAll parameters), encode body]
  | pair k left right => (Kind.pair k).wrap [encode left, encode right]
  | single k value => (Kind.single k).wrap [encode value]
  | unary o value => Kind.unary.wrap [.string o.name, encode value]
  | update o value => Kind.update.wrap [.string o.name, encode value]
  | binary o left right =>
    Kind.binary.wrap [.string o.name, encodeOption left, encodeOption right]
  | ternary condition left right =>
    Kind.ternary.wrap [encode condition, encode left, encode right]
  | returns value => Kind.returns.wrap [encodeOption value]
  | ifElse condition body otherwise =>
    Kind.ifElse.wrap [encode condition, encode body, encodeOption otherwise]
  | forLoop init test step body =>
    Kind.forLoop.wrap [encodeOption init, encodeOption test, encodeOption step, encode body]
  | forIn left right body => Kind.forIn.wrap [encode left, encode right, encode body]
  | tryCatch body parameter handler finalizer =>
    Kind.tryCatch.wrap
      [encode body, encodeOption parameter, encodeOption handler, encodeOption finalizer]

/-- The nodes of a list as JSON. -/
def encodeAll : List Node → List Json
  | [] => []
  | n :: rest => encode n :: encodeAll rest

/-- A node that may be missing as JSON. -/
def encodeOption : Option Node → Json
  | none => .null
  | some n => encode n

end

/-- The JSON text of a node. -/
def toJson (n : Node) : String := n.encode.compact

end Node

/-! ## Reading -/

/-- What a JSON value can be read as, apart from the value itself: a node, or a list of nodes. -/
structure Reading where
  json : Json
  node : Option Node
  nodes : Option (List Node)

/-- The name of an operator, which may be the only key of an object with the value null. -/
def operatorName? : Json → Option String
  | .string s => some s
  | .object [(s, .null)] => some s
  | _ => none

namespace Reading

/-- A text. -/
def text? (r : Reading) : Option String := r.json.text?

/-- The name of an operator inside a node, which may also be the only key of an object with an
empty object as its value. -/
def operator? (r : Reading) : Option String :=
  match r.json with
  | .object [(s, .object [])] => some s
  | json => operatorName? json

/-- Reads a field that may be missing or null. -/
def optional? {α : Type} (read : Reading → Option α) : Option Reading → Option (Option α)
  | none => some none
  | some r => if r.json.isNull then some none else (read r).map some

end Reading

/-- The node of a kind whose fields, in order, are read from what stands in them. A field that is
missing altogether is none. -/
def Node.ofFields? : Kind → List (Option Reading) → Option Node
  | .leaf k, [some value] => return .leaf k (← value.text?)
  | .word w, [] => some (.word w)
  | .list k, [some value] => return .list k (← value.nodes)
  | .apply k, [some callee, some arguments] =>
    return .apply k (← callee.node) (← arguments.nodes)
  | .function, [name, some parameters, some body] =>
    return .function (← Reading.optional? Reading.text? name) (← parameters.nodes) (← body.node)
  | .pair k, [some left, some right] => return .pair k (← left.node) (← right.node)
  | .single k, [some value] => return .single k (← value.node)
  | .unary, [some operator, some value] =>
    return .unary (← operator.operator?.bind UnaryOperator.ofName?) (← value.node)
  | .update, [some operator, some value] =>
    return .update (← operator.operator?.bind UpdateOperator.ofName?) (← value.node)
  | .binary, [some operator, left, right] =>
    return .binary (← operator.operator?.bind BinaryOperator.ofName?)
      (← Reading.optional? Reading.node left) (← Reading.optional? Reading.node right)
  | .ternary, [some condition, some left, some right] =>
    return .ternary (← condition.node) (← left.node) (← right.node)
  | .returns, [value] => return .returns (← Reading.optional? Reading.node value)
  | .ifElse, [some condition, some body, otherwise] =>
    return .ifElse (← condition.node) (← body.node) (← Reading.optional? Reading.node otherwise)
  | .forLoop, [init, test, step, some body] =>
    return .forLoop (← Reading.optional? Reading.node init) (← Reading.optional? Reading.node test)
      (← Reading.optional? Reading.node step) (← body.node)
  | .forIn, [some left, some right, some body] =>
    return .forIn (← left.node) (← right.node) (← body.node)
  | .tryCatch, [some body, parameter, handler, finalizer] =>
    return .tryCatch (← body.node) (← Reading.optional? Reading.node parameter)
      (← Reading.optional? Reading.node handler) (← Reading.optional? Reading.node finalizer)
  | _, _ => none

/-- The value of a key that stands once; `some none` when it does not stand at all, and none when
it stands more than once. -/
def single? {α : Type} (key : String) (members : List (String × α)) : Option (Option α) :=
  match members.filter (·.1 == key) with
  | [] => some none
  | [m] => some (some m.2)
  | _ => none

/-- The kind that a value stands for: a name, or an index. -/
def Kind.ofTag? : Json → Option Kind
  | .string s => ofName? s
  | tag => tag.nat?.bind (all[·]?)

/-- The node written as an object with these members. -/
def Node.ofMembers? (members : List (String × Reading)) : Option Node := do
  let tag ← (← single? "kind" members)
  let kind ← Kind.ofTag? tag.json
  Node.ofFields? kind (← kind.fields.mapM (single? · members))

/-- The node written as an array of these items. -/
def Node.ofItems? : List Reading → Option Node
  | [] => none
  | tag :: values => do
    let kind ← Kind.ofTag? tag.json
    guard (values.length == kind.fields.length)
    Node.ofFields? kind (values.map some)

mutual

/-- Everything that a JSON value can be read as. Parts are read once, before what holds them. -/
def Reading.of : Json → Reading
  | .array items =>
    let readings := Reading.ofItems items
    { json := .array items
      node := Node.ofItems? readings
      nodes := readings.mapM Reading.node }
  | .object members =>
    { json := .object members
      node := Node.ofMembers? (Reading.ofMembers members)
      nodes := none }
  | json => { json, node := none, nodes := none }

/-- The readings of the items of an array. -/
def Reading.ofItems : List Json → List Reading
  | [] => []
  | item :: rest => Reading.of item :: Reading.ofItems rest

/-- The readings of the members of an object. -/
def Reading.ofMembers : List (String × Json) → List (String × Reading)
  | [] => []
  | (key, value) :: rest => (key, Reading.of value) :: Reading.ofMembers rest

end

/-- The value that stands for the kind of a node. -/
def tag? : Json → Option Json
  | .array items => items.head?
  | .object members => (single? "kind" members).join
  | _ => none

/-- The tree that a JSON value writes. The kind of the root has to be a name. -/
def Node.decode? (json : Json) : Option Node := do
  let _ ← (tag? json).bind Json.text?
  (Reading.of json).node

/-- The depth to which the text of a tree may be nested. -/
def Node.nestingLimit : Nat := 127

/-- The tree that a text writes. -/
def Node.ofText? (text : String) : Option Node :=
  (Json.parseWithin? nestingLimit text).bind decode?

end ScriptHost.Tree
