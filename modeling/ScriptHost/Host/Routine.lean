import ScriptHost.Host.Sheet
import ScriptHost.Value.Convert

/-!
# Routines

Ready-made code for functions, methods and calls of objects. A routine sees its arguments, the
instance it belongs to (a plain function has none) and, when an object is called, the receiver.
-/

set_option autoImplicit false

namespace ScriptHost

/-- The conversion of a value to a typed piece of data, as an action. -/
def Shape.extract (t : Shape) (v : Value) : Action t.Carrier :=
  match t.read v with
  | .ok a => pure a
  | .error m =>
    match m.got with
    | .object o => do
      let p ← Program.ask (.profile o)
      Action.fail (m.toError fun _ => p.callable)
    | _ => Action.fail (m.toError fun _ => false)

/-- Ready-made code. -/
inductive Routine where
  /-- All arguments. -/
  | arguments
  /-- The number of arguments. -/
  | count
  /-- One argument, or undefined. -/
  | argument (index : Nat)
  /-- A value fixed in advance. -/
  | constant (value : Value)
  /-- An error fixed in advance. -/
  | error (error : HostError)
  /-- A property of the instance. -/
  | get (name : String)
  /-- Writes the first argument to a property of the instance and returns it. -/
  | set (name : String)
  /-- Adds the first argument, or one, to a property of the instance, and returns the sum. -/
  | add (name : String)
  /-- Calls a method of the instance with the arguments. -/
  | call (name : String)
  /-- The receiver. -/
  | receiver
  /-- Calls the last argument with the arguments before it. -/
  | yield
  /-- The sum of the arguments, which have to be integers. -/
  | sum
  /-- The text of the instance. -/
  | display

namespace Routine

/-- The instance, which a plain function does not have. -/
def instance? : Option ObjectId → Action ObjectId
  | some o => pure o
  | none => Action.fail (.failed "no this")

/-- An operation of the instance. -/
def onInstance (self : Option ObjectId) (operation : Operation) : Action Value := do
  let o ← instance? self
  Action.ofProgram (.run (.operate o operation))

/-- The code of a routine. -/
def run (self : Option ObjectId) (receiver : Value) (arguments : List Value) :
    Routine → Action Value
  | .arguments => pure (.array arguments)
  | count => pure (.int (Int32.ofInt arguments.length))
  | argument index => pure ((arguments[index]?).getD .undefined)
  | constant value => pure value
  | error e => Action.fail e
  | get name => onInstance self (.get name)
  | set name => do
    let value := arguments.head?.getD .undefined
    let _ ← onInstance self (.set name value)
    return value
  | add name => do
    let step := (arguments.head?.bind Value.int?).getD 1
    let current ← onInstance self (.get name)
    let next := Value.int (current.int?.getD 0 + step)
    let _ ← onInstance self (.set name next)
    return next
  | call name => onInstance self (.callMethod name arguments)
  | .receiver => pure receiver
  | yield =>
    match arguments.getLast? with
    | some (.function f) => Action.ofProgram (.run (.call f arguments.dropLast))
    | _ => Action.fail (.badArgument "no block given")
  | sum => do
    let total ← arguments.foldlM (fun (total : Int32) v => do
      let i : Int32 ← Shape.extract .int v
      return total + i) 0
    return .int total
  | display => do
    let o ← instance? self
    let text ← Program.run (.text o)
    return .string text

/-- The routine as the code of a plain function. -/
def body (r : Routine) : List Value → Program Outcome := fun arguments =>
  (r.run none .undefined arguments).run

/-- The routine as the code of a method. -/
def method (r : Routine) : Method := fun self arguments =>
  (r.run (some self) .undefined arguments).run

/-- The routine as the code of a call. -/
def handler (r : Routine) : Handler := fun self receiver arguments =>
  (r.run (some self) receiver arguments).run

end Routine

end ScriptHost
