/-!
# Paths

A path is a text; a slash separates its pieces and, at the front, makes it absolute. What a path
means is its list of components (`Path.components`): empty pieces and `.` are left out, except for
a `.` at the front of a relative path. Two paths are alike when their components are.

Taking a path apart and joining two keeps the text as it was written: `Path.parent?` only cuts at
the end, and `Path.join` puts a slash between.
-/

set_option autoImplicit false

namespace ScriptHost.Loader

/-- A path, as it was written. -/
structure Path where
  text : List Char
  deriving DecidableEq

/-- A step of a path. -/
inductive Component where
  /-- The slash at the front. -/
  | root
  /-- A `.` at the front. -/
  | here
  /-- A `..`. -/
  | up
  | name (text : List Char)
  deriving DecidableEq

/-- A component as it stands in a path. -/
def Component.text : Component → List Char
  | .root => ['/']
  | .here => ['.']
  | .up => ['.', '.']
  | .name text => text

/-- The number of bytes of a text in UTF-8. -/
def byteSize (text : List Char) : Nat := text.foldr (fun c size => c.utf8Size + size) 0

/-- The texts between the slashes. -/
def pieces : List Char → List (List Char)
  | [] => [[]]
  | c :: rest =>
    if c = '/' then [] :: pieces rest
    else match pieces rest with
      | [] => [[c]]
      | piece :: others => (c :: piece) :: others

/-- Texts with slashes between them. -/
def joinPieces (ps : List (List Char)) : List Char := List.intercalate ['/'] ps

/-- Whether a piece leads nowhere. -/
def isIdle (piece : List Char) : Bool := piece == [] || piece == ['.']

/-- The component that a piece behind the front stands for. -/
def Component.ofPiece? (piece : List Char) : Option Component :=
  if isIdle piece then none
  else if piece = ['.', '.'] then some .up
  else some (.name piece)

namespace Path

/-- The path with a text. -/
def ofString (s : String) : Path := ⟨s.toList⟩

instance : ToString Path := ⟨fun p => String.ofList p.text⟩

/-- The path without a text. -/
def empty : Path := ⟨[]⟩

/-- Whether a path starts with a slash. -/
def isAbsolute (p : Path) : Bool := p.text.head? == some '/'

/-- The component at the front that is not made from a piece. -/
def front? (p : Path) : Option Component :=
  if p.isAbsolute then some .root
  else if (pieces p.text).head? = some ['.'] then some .here
  else none

/-- The text behind the front. -/
def body (p : Path) : List Char := if p.front?.isSome then p.text.drop 1 else p.text

/-- The steps of a path. -/
def components (p : Path) : List Component :=
  p.front?.toList ++ (pieces p.body).filterMap Component.ofPiece?

/-- Whether two paths have the same components. -/
def alike (p q : Path) : Bool := p.components == q.components

/-- The path without its last component; none when there is no component, or only the root. -/
def parent? (p : Path) : Option Path :=
  match (pieces p.body).reverse.dropWhile isIdle with
  | _ :: rest =>
    some ⟨(p.front?.map Component.text).getD []
      ++ joinPieces (rest.dropWhile isIdle).reverse⟩
  | [] => if p.front? = some .here then some empty else none

/-- The name of the file that a path leads to. -/
def fileName? (p : Path) : Option (List Char) :=
  match p.components.getLast? with
  | some (.name text) => some text
  | _ => none

/-- A path in front of another one. An absolute path stands for itself. -/
def join (p q : Path) : Path :=
  if q.isAbsolute then q
  else if p.text = [] || p.text.getLast? = some '/' then ⟨p.text ++ q.text⟩
  else ⟨p.text ++ ['/'] ++ q.text⟩

/-- The path made of components. -/
def ofComponents (cs : List Component) : Path := cs.foldl (fun p c => p.join ⟨c.text⟩) empty

end Path

/-- A file name without its extension, which is what follows its last dot. A dot at the front
starts no extension. -/
def stem (name : List Char) : List Char :=
  match name.reverse.dropWhile (· != '.') with
  | [] => name
  | [_] => name
  | _ :: rest => rest.reverse

end ScriptHost.Loader
