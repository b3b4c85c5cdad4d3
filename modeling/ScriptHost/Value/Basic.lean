import ScriptHost.Number.Binary64

/-!
# Values

What a script sees. Symbols, functions and host objects are values by identity: a value holds
the number under which a store keeps the thing itself, and two such values are equal when they
are the same thing. `Value.equal` is the equality of scripts, in which an integer may equal a
floating point number and a NaN equals nothing.
-/

set_option autoImplicit false

namespace ScriptHost

open Number (Binary64)

/-- The identity of a symbol. -/
structure SymbolId where
  index : Nat
  deriving DecidableEq

/-- The identity of a function. -/
structure FunctionId where
  index : Nat
  deriving DecidableEq

/-- The identity of a host object. -/
structure ObjectId where
  index : Nat
  deriving DecidableEq

/-- A value as scripts see it. -/
inductive Value where
  | undefined
  | null
  | bool (value : Bool)
  | int (value : Int32)
  | float (value : Binary64)
  | string (text : String)
  | symbol (symbol : SymbolId)
  | array (items : List Value)
  | function (function : FunctionId)
  | object (object : ObjectId)

namespace Value

instance : Inhabited Value := ⟨undefined⟩

/-! ## What a value is -/

/-- Whether the value is undefined. -/
def isUndefined : Value → Bool
  | undefined => true
  | _ => false

/-- Whether the value is null. -/
def isNull : Value → Bool
  | null => true
  | _ => false

/-- Whether the value stands for the absence of one. -/
def isNothing (v : Value) : Bool := v.isUndefined || v.isNull

/-- A truth value. -/
def bool? : Value → Option Bool
  | bool b => some b
  | _ => none

/-- An integer. -/
def int? : Value → Option Int32
  | int i => some i
  | _ => none

/-- A number; an integer is one too. -/
def number? : Value → Option Binary64
  | int i => some (Binary64.ofInt32 i)
  | float x => some x
  | _ => none

/-- A string. -/
def string? : Value → Option String
  | string s => some s
  | _ => none

/-- A symbol. -/
def symbol? : Value → Option SymbolId
  | symbol s => some s
  | _ => none

/-- The items of an array. -/
def items? : Value → Option (List Value)
  | array items => some items
  | _ => none

/-- A function. -/
def function? : Value → Option FunctionId
  | function f => some f
  | _ => none

/-- A host object. -/
def object? : Value → Option ObjectId
  | object o => some o
  | _ => none

/-- The name of the value's type in the script language, where `callable` tells which host
objects can be called. -/
def typeName (callable : ObjectId → Bool) : Value → String
  | undefined => "undefined"
  | null => "object"
  | bool _ => "boolean"
  | int _ => "number"
  | float _ => "number"
  | string _ => "string"
  | symbol _ => "symbol"
  | array _ => "object"
  | function _ => "function"
  | object o => if callable o then "function" else "object"

/-! ## Equality -/

mutual

/-- Equality of values. Arrays are equal item by item. -/
def equal : Value → Value → Bool
  | undefined, undefined => true
  | null, null => true
  | bool a, bool b => a == b
  | int a, int b => a == b
  | float a, float b => a.same b
  | int a, float b => (Binary64.ofInt32 a).same b
  | float a, int b => (Binary64.ofInt32 b).same a
  | string a, string b => a == b
  | symbol a, symbol b => a == b
  | array as, array bs => equalAll as bs
  | function a, function b => a == b
  | object a, object b => a == b
  | _, _ => false

/-- Equality of lists of values. -/
def equalAll : List Value → List Value → Bool
  | [], [] => true
  | a :: as, b :: bs => equal a b && equalAll as bs
  | _, _ => false

end

/-- Whether two symbols, two functions or two objects are the same thing; none for any other
two values. -/
def sameThing? : Value → Value → Option Bool
  | symbol a, symbol b => some (a == b)
  | function a, function b => some (a == b)
  | object a, object b => some (a == b)
  | _, _ => none

end Value

end ScriptHost
