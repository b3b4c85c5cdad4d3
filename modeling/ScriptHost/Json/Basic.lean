import ScriptHost.Text.Hex

/-!
# JSON values

A JSON value keeps what a reader can tell apart: the members of an object are a list, in the order
they were written and with repeated keys kept, and a number is its text. `Json.print` writes the
compact form, without blanks. `Json.nesting` is the depth to which containers stand inside one
another.
-/

set_option autoImplicit false

namespace ScriptHost

/-- A JSON value. -/
inductive Json where
  | null
  | bool (value : Bool)
  /-- A number, as it was written. -/
  | number (text : String)
  | string (text : String)
  | array (items : List Json)
  /-- The members in their order; keys may repeat. -/
  | object (members : List (String × Json))

namespace Json

/-! ## The compact form -/

/-- A character inside a JSON string: quotes, backslashes and control characters are escaped and
all others stand for themselves. -/
def escape (c : Char) : List Char :=
  if c = '"' then ['\\', '"']
  else if c = '\\' then ['\\', '\\']
  else if c = '\x08' then ['\\', 'b']
  else if c = '\x0c' then ['\\', 'f']
  else if c = '\n' then ['\\', 'n']
  else if c = '\r' then ['\\', 'r']
  else if c = '\t' then ['\\', 't']
  else if c.toNat < 32 then ['\\', 'u'] ++ Text.Hex.write 4 c.toNat
  else [c]

/-- A text as a JSON string. -/
def quote (text : List Char) : List Char := '"' :: text.flatMap escape ++ ['"']

mutual

/-- The compact form of a value. -/
def print : Json → List Char
  | null => "null".toList
  | bool true => "true".toList
  | bool false => "false".toList
  | number text => text.toList
  | string text => quote text.toList
  | array items => ['['] ++ List.intercalate [','] (printItems items) ++ [']']
  | object members =>
    ['\x7b'] ++ List.intercalate [','] (printMembers members) ++ ['\x7d']

/-- The compact forms of the items of an array. -/
def printItems : List Json → List (List Char)
  | [] => []
  | item :: rest => print item :: printItems rest

/-- The compact forms of the members of an object. -/
def printMembers : List (String × Json) → List (List Char)
  | [] => []
  | (key, value) :: rest => (quote key.toList ++ [':'] ++ print value) :: printMembers rest

end

/-- The compact text of a value. -/
def compact (j : Json) : String := String.ofList j.print

/-! ## Looking at a value -/

/-- The value of the last member with a key. -/
def get? (key : String) : Json → Option Json
  | object members => (members.reverse.find? (·.1 == key)).map (·.2)
  | _ => none

/-- The text of a string. -/
def text? : Json → Option String
  | string text => some text
  | _ => none

/-- The items of an array. -/
def items? : Json → Option (List Json)
  | array items => some items
  | _ => none

/-- Whether the value is null. -/
def isNull : Json → Bool
  | null => true
  | _ => false

mutual

/-- How many containers stand inside one another. -/
def nesting : Json → Nat
  | array items => nestingItems items + 1
  | object members => nestingMembers members + 1
  | _ => 0

/-- The deepest nesting among the items of an array. -/
def nestingItems : List Json → Nat
  | [] => 0
  | item :: rest => max (nesting item) (nestingItems rest)

/-- The deepest nesting among the values of an object. -/
def nestingMembers : List (String × Json) → Nat
  | [] => 0
  | (_, value) :: rest => max (nesting value) (nestingMembers rest)

end

/-- An integer, written in decimal. -/
def ofInt (i : Int) : Json := number (toString i)

end Json

end ScriptHost
