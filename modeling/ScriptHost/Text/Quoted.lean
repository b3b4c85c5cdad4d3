import ScriptHost.Text.Unprintable

/-!
# Quoted text

A text between double quotes, in which every character can be seen: quotes and backslashes, the
characters with a letter of their own, and characters without a shape of their own are escaped.
-/

set_option autoImplicit false

namespace ScriptHost.Text

/-- A character inside quoted text. -/
def escape (c : Char) : List Char :=
  if c = '"' then ['\\', '"']
  else if c = '\\' then ['\\', '\\']
  else if c = '\n' then ['\\', 'n']
  else if c = '\r' then ['\\', 'r']
  else if c = '\t' then ['\\', 't']
  else if c = '\x00' then ['\\', '0']
  else if isExtending c || isUnprintable c then
    ['\\', 'u', '\x7b'] ++ Nat.toDigits 16 c.toNat ++ ['\x7d']
  else [c]

/-- A text in quotes. -/
def quoted (text : String) : String :=
  String.ofList ('"' :: text.toList.flatMap escape ++ ['"'])

end ScriptHost.Text
