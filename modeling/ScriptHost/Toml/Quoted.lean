import ScriptHost.Text.Hex

/-!
# Strings in TOML

Four kinds of strings: between double quotes, where a backslash starts an escape, and between
single quotes, where nothing is special; each on one line, or on many between three quotes. Each
reader takes the text behind the opening quotes and gives the string and what follows the closing
ones. Up to two quotes may stand in front of three closing ones. A line end inside a string is a
line feed, and one right behind three opening quotes is left out.
-/

set_option autoImplicit false

namespace ScriptHost.Toml

/-- The blanks inside a line. -/
def isBlank (c : Char) : Bool := c == ' ' || c == '\t'

/-- Whether a character may stand for itself on a line: no control character but the tab. -/
def isPlain (c : Char) : Bool := c == '\t' || (32 ≤ c.toNat && c.toNat != 127)

/-- The character that a one-letter escape stands for. -/
def unescape? (c : Char) : Option Char :=
  if c = 'b' then some '\x08'
  else if c = 't' then some '\t'
  else if c = 'n' then some '\n'
  else if c = 'f' then some '\x0c'
  else if c = 'r' then some '\r'
  else if c = '"' then some '"'
  else if c = '\\' then some '\\'
  else none

/-- The character of a code point in hexadecimal digits. -/
def scalar? (digits : List Char) : Option Char := do
  let n ← Text.Hex.read? digits
  guard (n < 0xD800 || (0xDFFF < n && n < 0x110000))
  return Char.ofNat n

/-- Puts a character in front of a string that has been read. -/
def push (c : Char) (r : List Char × List Char) : List Char × List Char := (c :: r.1, r.2)

/-- The rest of a string in double quotes. -/
def basic? : List Char → Option (List Char × List Char)
  | [] => none
  | '"' :: rest => some ([], rest)
  | '\\' :: 'u' :: a :: b :: c :: d :: rest => do
    let e ← scalar? [a, b, c, d]
    return push e (← basic? rest)
  | '\\' :: 'U' :: a :: b :: c :: d :: e :: f :: g :: h :: rest => do
    let e ← scalar? [a, b, c, d, e, f, g, h]
    return push e (← basic? rest)
  | '\\' :: c :: rest => do
    let e ← unescape? c
    return push e (← basic? rest)
  | c :: rest => if isPlain c && c != '\\' then (basic? rest).map (push c) else none

/-- The rest of a string in single quotes. -/
def literal? : List Char → Option (List Char × List Char)
  | [] => none
  | '\'' :: rest => some ([], rest)
  | c :: rest => if isPlain c then (literal? rest).map (push c) else none

/-- Whether a line ends behind its blanks. -/
def endsLine (cs : List Char) : Bool :=
  match cs.dropWhile isBlank with
  | '\n' :: _ => true
  | '\r' :: '\n' :: _ => true
  | _ => false

/-- The rest of a string of many lines in double quotes. With `skipping`, blanks and line ends are
left out up to the next other character, as they are behind a backslash at the end of a line. -/
def multiBasic? (skipping : Bool) : List Char → Option (List Char × List Char)
  | [] => none
  | '"' :: '"' :: '"' :: '"' :: '"' :: rest => some (['"', '"'], rest)
  | '"' :: '"' :: '"' :: '"' :: rest => some (['"'], rest)
  | '"' :: '"' :: '"' :: rest => some ([], rest)
  | '\\' :: 'u' :: a :: b :: c :: d :: rest => do
    let e ← scalar? [a, b, c, d]
    return push e (← multiBasic? false rest)
  | '\\' :: 'U' :: a :: b :: c :: d :: e :: f :: g :: h :: rest => do
    let e ← scalar? [a, b, c, d, e, f, g, h]
    return push e (← multiBasic? false rest)
  | '\\' :: c :: rest =>
    if endsLine (c :: rest) then
      match c, rest with
      | '\r', '\n' :: rest => multiBasic? true rest
      | _, rest => multiBasic? true rest
    else do
      let e ← unescape? c
      return push e (← multiBasic? false rest)
  | '\r' :: '\n' :: rest =>
    if skipping then multiBasic? true rest else (multiBasic? false rest).map (push '\n')
  | c :: rest =>
    if skipping && (isBlank c || c == '\n') then multiBasic? true rest
    else if (isPlain c && c != '\\') || c == '\n' then (multiBasic? false rest).map (push c)
    else none

/-- The rest of a string of many lines in single quotes. -/
def multiLiteral? : List Char → Option (List Char × List Char)
  | [] => none
  | '\'' :: '\'' :: '\'' :: '\'' :: '\'' :: rest => some (['\'', '\''], rest)
  | '\'' :: '\'' :: '\'' :: '\'' :: rest => some (['\''], rest)
  | '\'' :: '\'' :: '\'' :: rest => some ([], rest)
  | '\r' :: '\n' :: rest => (multiLiteral? rest).map (push '\n')
  | c :: rest => if isPlain c || c == '\n' then (multiLiteral? rest).map (push c) else none

/-- A text without a line end at its front. -/
def dropLineEnd : List Char → List Char
  | '\n' :: rest => rest
  | '\r' :: '\n' :: rest => rest
  | cs => cs

/-- Takes a string of one line off the front. -/
def quotedLine? : List Char → Option (String × List Char)
  | '"' :: rest => (basic? rest).map fun r => (String.ofList r.1, r.2)
  | '\'' :: rest => (literal? rest).map fun r => (String.ofList r.1, r.2)
  | _ => none

/-- Takes a string off the front. -/
def quoted? : List Char → Option (String × List Char)
  | '"' :: '"' :: '"' :: rest =>
    (multiBasic? false (dropLineEnd rest)).map fun r => (String.ofList r.1, r.2)
  | '\'' :: '\'' :: '\'' :: rest =>
    (multiLiteral? (dropLineEnd rest)).map fun r => (String.ofList r.1, r.2)
  | cs => quotedLine? cs

end ScriptHost.Toml
