import ScriptHost.Entries

/-!
# TOML values

What a TOML document can say. Numbers that are not integers, dates and times are kept as they were
written.
-/

set_option autoImplicit false

namespace ScriptHost

/-- A TOML value. -/
inductive Toml where
  | string (text : String)
  | integer (value : Int)
  | float (text : String)
  | boolean (value : Bool)
  /-- A date, a time or both. -/
  | moment (text : String)
  | array (items : List Toml)
  | table (entries : List (String × Toml))

namespace Toml

/-- The text of a string. -/
def text? : Toml → Option String
  | string text => some text
  | _ => none

/-- The items of an array. -/
def items? : Toml → Option (List Toml)
  | array items => some items
  | _ => none

end Toml

end ScriptHost
