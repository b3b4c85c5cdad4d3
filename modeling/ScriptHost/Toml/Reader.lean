import ScriptHost.Toml.Draft
import ScriptHost.Toml.Quoted
import ScriptHost.Toml.Scalar

/-!
# Reading TOML

A document is a sequence of lines: headers of tables, keys with values, and blank lines, each with
a comment at its end if need be. Arrays may go over several lines and inline tables may not. Each
reader takes its part off the front of the text and gives what follows. Brackets nest at most
`nestingLimit - 1` deep, and a dotted key has no more parts than that. The readers of values are
given a bound for the number of their steps, which the number of characters left is.
-/

set_option autoImplicit false

namespace ScriptHost.Toml

/-! ## Blanks and comments -/

/-- A text without the blanks at its front. -/
def skipBlanks (cs : List Char) : List Char := cs.dropWhile isBlank

/-- A text behind the blanks, comments and line ends at its front. -/
def skipLines (comment : Bool) : List Char → Option (List Char)
  | [] => some []
  | '\n' :: rest => skipLines false rest
  | '\r' :: '\n' :: rest => skipLines false rest
  | c :: rest =>
    if comment then (if isPlain c then skipLines true rest else none)
    else if isBlank c then skipLines false rest
    else if c = '#' then skipLines true rest
    else some (c :: rest)

/-- Behind a header or a value: the text of the next line, with nothing but blanks and a comment
before it. -/
def endLine (comment : Bool) : List Char → Option (List Char)
  | [] => some []
  | '\n' :: rest => some rest
  | '\r' :: '\n' :: rest => some rest
  | c :: rest =>
    if comment then (if isPlain c then endLine true rest else none)
    else if isBlank c then endLine false rest
    else if c = '#' then endLine true rest
    else none

/-! ## Keys -/

/-- The characters of a key without quotes. -/
def isKeyChar (c : Char) : Bool := c.isAlphanum || c == '_' || c == '-'

/-- A key without dots. -/
def simpleKey? (cs : List Char) : Option (String × List Char) :=
  match cs with
  | '"' :: _ => quotedLine? cs
  | '\'' :: _ => quotedLine? cs
  | _ =>
    let run := cs.takeWhile isKeyChar
    if run.isEmpty then none else some (String.ofList run, cs.dropWhile isKeyChar)

/-- The first depth of nesting that is refused. -/
def nestingLimit : Nat := 80

/-- The parts of a dotted key as the path to its table and its name there, with room for a number
of parts. -/
def keyParts? : Nat → List Char → Option ((List String × String) × List Char)
  | 0, _ => none
  | room + 1, cs => do
    let (name, cs) ← simpleKey? (skipBlanks cs)
    match skipBlanks cs with
    | '.' :: rest => do
      let ((path, last), rest) ← keyParts? room rest
      return ((name :: path, last), rest)
    | rest => return (([], name), rest)

/-- A key as the path to its table and its name there. -/
def key? : List Char → Option ((List String × String) × List Char) :=
  keyParts? (nestingLimit - 1)

/-! ## Values -/

mutual

/-- A value, with room for a number of brackets inside one another. -/
def readValue? : Nat → Nat → List Char → Option (Toml × List Char)
  | 0, _, _ => none
  | bound + 1, room, cs =>
    match cs with
    | '"' :: _ => (quoted? cs).map fun (s, rest) => (string s, rest)
    | '\'' :: _ => (quoted? cs).map fun (s, rest) => (string s, rest)
    | '[' :: rest =>
      match room with
      | 0 => none
      | room + 1 => (readItems? bound room rest).map fun (items, rest) => (array items, rest)
    | '\x7b' :: rest =>
      match room with
      | 0 => none
      | room + 1 =>
        match skipBlanks rest with
        | '\x7d' :: rest => some (table [], rest)
        | rest => do
          let (pairs, rest) ← readPairs? bound room rest
          return (← Draft.ofPairs pairs, rest)
    | _ =>
      let (run, rest) := splitScalar cs
      (ofScalar? run).map fun v => (v, rest)

/-- The items of an array, up to its closing bracket. -/
def readItems? : Nat → Nat → List Char → Option (List Toml × List Char)
  | 0, _, _ => none
  | bound + 1, room, cs => do
    match ← skipLines false cs with
    | ']' :: rest => return ([], rest)
    | rest =>
      let (v, rest) ← readValue? bound room rest
      match ← skipLines false rest with
      | ']' :: rest => return ([v], rest)
      | ',' :: rest =>
        let (vs, rest) ← readItems? bound room rest
        return (v :: vs, rest)
      | _ => none

/-- The keys and values of an inline table, of which there is at least one, up to its closing
brace. -/
def readPairs? :
    Nat → Nat → List Char → Option (List ((List String × String) × Toml) × List Char)
  | 0, _, _ => none
  | bound + 1, room, cs => do
    let (key, rest) ← key? cs
    match rest with
    | '=' :: rest =>
      let (v, rest) ← readValue? bound room (skipBlanks rest)
      match skipBlanks rest with
      | '\x7d' :: rest => return ([(key, v)], rest)
      | ',' :: rest =>
        let (pairs, rest) ← readPairs? bound room rest
        return ((key, v) :: pairs, rest)
      | _ => none
    | _ => none

end

/-! ## Documents -/

/-- What a line of a document says. -/
inductive Line where
  /-- The header of a table. -/
  | header (path : List String) (key : String)
  /-- The header of an element of an array of tables. -/
  | element (path : List String) (key : String)
  | assignment (path : List String) (key : String) (value : Toml)

/-- A line that is neither blank nor only a comment, and the text of the next one. -/
def line? (cs : List Char) : Option (Line × List Char) :=
  match cs with
  | '[' :: '[' :: rest => do
    let ((path, key), rest) ← key? rest
    match rest with
    | ']' :: ']' :: rest => return (.element path key, ← endLine false rest)
    | _ => none
  | '[' :: rest => do
    let ((path, key), rest) ← key? rest
    match rest with
    | ']' :: rest => return (.header path key, ← endLine false rest)
    | _ => none
  | _ => do
    let ((path, key), rest) ← key? cs
    match rest with
    | '=' :: rest =>
      let (v, rest) ← readValue? (rest.length + 1) (nestingLimit - 1) (skipBlanks rest)
      return (.assignment path key v, ← endLine false rest)
    | _ => none

/-- The lines of a document. -/
def lines? : Nat → List Char → Option (List Line)
  | 0, _ => none
  | bound + 1, cs => do
    match ← skipLines false cs with
    | [] => return []
    | cs =>
      let (line, rest) ← line? cs
      return line :: (← lines? bound rest)

/-- The document so far, and the header that keys belong to. -/
abbrev Progress := Drafts × List String

/-- Takes one more line into a document. -/
def Progress.add (p : Progress) : Line → Option Progress
  | .header path key => do
    let entries ← Draft.defineTable path key p.1
    return (entries, path ++ [key])
  | .element path key => do
    let entries ← Draft.addTable path key p.1
    return (entries, path ++ [key])
  | .assignment path key v => do
    let entries ← Draft.assignIn p.2 path key v p.1
    return (entries, p.2)

/-- A text without a byte order mark at its front. -/
def dropMark : List Char → List Char
  | '\ufeff' :: rest => rest
  | cs => cs

/-- The entries of the document that a text writes. -/
def parse? (text : String) : Option (List (String × Toml)) := do
  let cs := dropMark text.toList
  let lines ← lines? (cs.length + 1) cs
  let (entries, _) ← lines.foldlM Progress.add ([], [])
  return Draft.finishEntries entries

end ScriptHost.Toml
