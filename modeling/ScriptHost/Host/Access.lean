import ScriptHost.Host.Store

/-!
# Access to members

What a script means by touching a member of an object (`Access.classify`), and doing it
(`dispatch`). A name that ends in `=` with a single argument is a write to the name before the
sign, even when the whole name is a method. A name that is no member is left to the script,
unless it ends in `=`.
-/

set_option autoImplicit false

namespace ScriptHost

/-- What touching a member means. -/
inductive Access where
  /-- Give the value of the property. -/
  | read (name : String)
  /-- Give the property the single argument. -/
  | write (name : String)
  /-- Call the method with the arguments. -/
  | call (name : String)
  /-- The object has no such member. -/
  | unresolved
  deriving DecidableEq

/-- The name before the sign of assignment at its end. -/
def assigned? (name : String) : Option String :=
  if name.toList.getLast? = some '=' then some (String.ofList name.toList.dropLast) else none

/-- What is meant by touching a member with a number of arguments, where `kind` is what the
object says of the name as written. -/
def Access.classify (name : String) (kind : Option MemberKind) (count : Nat) : Access :=
  match assigned? name, kind with
  | none, none => .unresolved
  | none, some .function => .call name
  | none, some .data => if count = 0 then .read name else .call name
  | some target, kind =>
    if count = 1 then .write target
    else if kind = some .function then .call name
    else if count = 0 then .read name
    else .call name

/-- The name of a member reads as a value: properties are read, a method becomes a new function
bound to the object, and what is no member is undefined. -/
def member (o : ObjectId) (name : String) : Program Outcome :=
  .bind (.ask (.profile o)) fun p =>
    match p.memberKind name with
    | some .data => .run (.operate o (.get name))
    | some .function => .bind (.ask (.bind o name)) fun f => .done (.ok (.function f))
    | none => .done (.ok .undefined)

/-- Does to an object, whose class has a name, what touching a member means. -/
def Access.carryOut (o : ObjectId) (className name : String) (arguments : List Value) :
    Access → Action Value
  | unresolved => Action.fail (.memberNotFound className name)
  | read property => Action.ofProgram (.run (.operate o (.get property)))
  | write property => do
    let value := arguments.getLast?.getD .undefined
    let _ ← Action.ofProgram (.run (.operate o (.set property value)))
    return value
  | call method => Action.ofProgram (.run (.operate o (.callMethod method arguments)))

/-- Arguments with a block behind them, which counts as one. -/
def withBlock (arguments : List Value) (block : Option FunctionId) : List Value :=
  arguments ++ block.toList.map Value.function

/-- Touches a member of an object, with arguments and perhaps a block. -/
def dispatch (o : ObjectId) (name : String) (arguments : List Value)
    (block : Option FunctionId) : Action Value := do
  let arguments := withBlock arguments block
  let p ← Program.ask (.profile o)
  (Access.classify name (p.memberKind name) arguments.length).carryOut o p.className name arguments

/-- Calls a value. An object is called with `receiver` as its receiver. -/
def invoke (v receiver : Value) (arguments : List Value) : Action Value :=
  match v with
  | .function f => Action.ofProgram (.run (.call f arguments))
  | .object o => do
    let p ← Program.ask (.profile o)
    if p.callable then Action.ofProgram (.run (.operate o (.call receiver arguments)))
    else Action.fail (.notCallable (v.typeName fun _ => false))
  | _ => Action.fail (.notCallable (v.typeName fun _ => false))

end ScriptHost
