import ScriptHost.Host.Store
import ScriptHost.Number.Shortest
import ScriptHost.Text.Quoted

/-!
# Texts of values

`Value.text` is the conversion of a value to a string that scripts see. It is a program, since an
object may run a method for it. `Store.inspect` is the text for people who look into a store; it
shows the kind of each value, quotes strings and runs nothing.
-/

set_option autoImplicit false

namespace ScriptHost

/-! ## Conversion to a string -/

/-- The text of a function. -/
def functionText (name : String) : String :=
  "function " ++ name ++ "() \x7b [native code] \x7d"

namespace Value

mutual

/-- The text of a value. The items of an array are joined by commas. -/
def text : Value → Program String
  | undefined => .done "undefined"
  | null => .done "null"
  | bool b => .done (if b then "true" else "false")
  | int i => .done (toString i.toInt)
  | float x => .done x.text
  | string s => .done s
  | symbol s => .ask (.symbolText s)
  | array items => .bind (texts items) fun ts => .done (",".intercalate ts)
  | function f => .bind (.ask (.functionName f)) fun name => .done (functionText name)
  | object o => .run (.text o)

/-- The texts of the items of an array, one after the other. Null and undefined leave their
place empty. -/
def texts : List Value → Program (List String)
  | [] => .done []
  | v :: rest =>
    .bind (if v.isNothing then .done "" else text v) fun t =>
      .bind (texts rest) fun ts => .done (t :: ts)

end

end Value

/-! ## Inspection -/

namespace Store

/-- The text of a symbol as an identifier. -/
def inspectSymbol (s : Store) (symbol : SymbolId) : String := ":" ++ s.symbolText symbol

/-- A symbol, shown as the thing itself. -/
def showSymbol (s : Store) (symbol : SymbolId) : String :=
  "Symbol(" ++ Text.quoted (s.symbolText symbol) ++ ")"

/-- A function, shown as the thing itself. -/
def showFunction (s : Store) (f : FunctionId) : String :=
  "HostFunction(" ++ Text.quoted (s.function f).name ++ ")"

/-- An object, shown as the thing itself. -/
def showObject (s : Store) (o : ObjectId) : String :=
  "BridgedValue(" ++ (s.profile o).className ++ ")"

mutual

/-- A value with its kind. -/
def inspect (s : Store) : Value → String
  | .undefined => "Value::Undefined"
  | .null => "Value::Null"
  | .bool b => "Value::Bool(" ++ (if b then "true" else "false") ++ ")"
  | .int i => "Value::Int(" ++ toString i.toInt ++ ")"
  | .float x => "Value::Float(" ++ x.digits ++ ")"
  | .string t => "Value::String(" ++ Text.quoted t ++ ")"
  | .symbol symbol => "Value::Symbol(" ++ s.inspectSymbol symbol ++ ")"
  | .array items => "Value::Array([" ++ ", ".intercalate (inspectAll s items) ++ "])"
  | .function f => "Value::Function(" ++ Text.quoted (s.function f).name ++ ")"
  | .object o => "Value::Object(" ++ (s.profile o).className ++ ")"

/-- The items of an array with their kinds. -/
def inspectAll (s : Store) : List Value → List String
  | [] => []
  | v :: rest => inspect s v :: inspectAll s rest

end

/-- A symbol, function or object within a value, shown as the thing itself. -/
def inspectThing (s : Store) : Value → String
  | .symbol symbol => s.showSymbol symbol ++ " " ++ s.inspectSymbol symbol
  | .function f => s.showFunction f
  | .object o => s.showObject o
  | _ => ""

/-- The name of a value's type in the script language. -/
def typeName (s : Store) (v : Value) : String := v.typeName s.callable

end Store

end ScriptHost
