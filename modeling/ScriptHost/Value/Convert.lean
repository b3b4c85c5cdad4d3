import ScriptHost.Host.Error

/-!
# Conversion between values and typed data

A `Shape` is a type of host data that values can be converted from and to: `Shape.Carrier` is the
type itself, `Shape.write` makes a value of it and `Shape.read` reads one back. An integer reads
as a number of any kind, nothing is widened otherwise, and an optional reads null and undefined as
absent.
-/

set_option autoImplicit false

namespace ScriptHost

open Number (Binary64)

/-- The types of host data that values can be converted from and to. -/
inductive Shape where
  | value
  | bool
  | int
  | float
  | string
  | symbol
  | function
  | object
  | list (item : Shape)
  | option (item : Shape)
  deriving DecidableEq

namespace Shape

/-- The host data of a shape. -/
def Carrier : Shape → Type
  | value => Value
  | bool => Bool
  | int => Int32
  | float => Binary64
  | string => String
  | symbol => SymbolId
  | function => FunctionId
  | object => ObjectId
  | list item => List item.Carrier
  | option item => Option item.Carrier

/-- The value for a piece of host data. -/
def write : (t : Shape) → t.Carrier → Value
  | value, v => v
  | bool, b => .bool b
  | int, i => .int i
  | float, x => .float x
  | string, s => .string s
  | symbol, s => .symbol s
  | function, f => .function f
  | object, o => .object o
  | list item, xs => .array (xs.map item.write)
  | option _, none => .null
  | option item, some x => item.write x

/-- What was wanted, and the value that was found instead. -/
def wanted {α : Type} (expected : String) (got : Value) : Option α → Except Mismatch α
  | some a => .ok a
  | none => .error ⟨expected, got⟩

/-- The piece of host data that a value holds. Of the items of an array the first that does not
fit is reported. -/
def read : (t : Shape) → Value → Except Mismatch t.Carrier
  | value, v => .ok v
  | bool, v => wanted "boolean" v v.bool?
  | int, v => wanted "integer" v v.int?
  | float, v => wanted "number" v v.number?
  | string, v => wanted "string" v v.string?
  | symbol, v => wanted "symbol" v v.symbol?
  | function, v => wanted "function" v v.function?
  | object, v => wanted "object" v v.object?
  | list item, v => do
    let items ← wanted "array" v v.items?
    items.mapM item.read
  | option item, v => if v.isNothing then .ok none else (item.read v).map some

end Shape

end ScriptHost
