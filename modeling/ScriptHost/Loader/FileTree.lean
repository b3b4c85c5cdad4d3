import ScriptHost.Loader.Path

/-!
# A tree of files

A finite tree of files, directories and symbolic links below the top directory `/`. Relative paths
are seen from one directory of the tree, its home; the home and the directories above it always
stand. Looking up a path (`FileTree.find`) goes piece by piece: each piece is looked up in the
directory reached so far, a link is replaced by its target, and `..` leads to the directory above
the one reached, whatever the path says. The top is above itself. A path of too many bytes leads
nowhere, and neither does one with a null character or one that leads through too many links.
-/

set_option autoImplicit false

namespace ScriptHost.Loader

/-- What can go wrong with a file. -/
inductive FileError where
  | notFound
  | notDirectory
  | isDirectory
  | nameTooLong
  | tooManyLinks
  | nullInPath
  | notText
  deriving DecidableEq

/-- The text of a file error. -/
def FileError.message : FileError → String
  | .notFound => "No such file or directory (os error 2)"
  | .notDirectory => "Not a directory (os error 20)"
  | .isDirectory => "Is a directory (os error 21)"
  | .nameTooLong => "File name too long (os error 36)"
  | .tooManyLinks => "Too many levels of symbolic links (os error 40)"
  | .nullInPath => "file name contained an unexpected NUL byte"
  | .notText => "stream did not contain valid UTF-8"

/-- What stands at a location. -/
inductive FileEntry where
  | file (content : ByteArray)
  | directory
  | link (target : Path)

/-- The names on the way from the top of a tree. -/
abbrev Location := List (List Char)

/-- Where a look-up has come to. -/
inductive Place where
  /-- A location where something stands. -/
  | taken (location : Location)
  /-- A location in a directory where nothing stands. -/
  | vacant (location : Location)

/-- A tree of files. -/
structure FileTree where
  /-- The directory that relative paths are seen from. -/
  home : Location
  /-- What stands elsewhere than on the way to the home. -/
  entries : List (Location × FileEntry)

namespace FileTree

/-- What stands at a location. -/
def entry? (t : FileTree) (here : Location) : Option FileEntry :=
  if here.isPrefixOf t.home then some .directory else t.entries.lookup here

/-! ## Looking up paths -/

/-- The number of bytes that a name has at most. -/
def maxNameBytes : Nat := 255

/-- The number of bytes that a path has at most. -/
def maxPathBytes : Nat := 4095

/-- The number of links that a look-up follows at most. -/
def maxLinks : Nat := 40

/-- The place of a name in a directory where it does not stand: nothing can be behind it. -/
def missing (here : Location) (name : List Char) (rest : List (List Char)) :
    Except FileError Place :=
  if maxNameBytes < byteSize name then .error .nameTooLong
  else if rest = [] then .ok (.vacant (here ++ [name]))
  else .error .notFound

/-- How a link in a directory is followed: the directory, the target and the pieces behind. -/
abbrev Follow := Location → Path → List (List Char) → Except FileError Place

/-- Goes piece by piece from a place. -/
def walk (t : FileTree) (follow : Follow) : Place → List (List Char) → Except FileError Place
  | place, [] => .ok place
  | .vacant _, _ :: _ => .error .notFound
  | .taken here, piece :: rest =>
    match t.entry? here with
    | some .directory =>
      if isIdle piece then walk t follow (.taken here) rest
      else if piece = ['.', '.'] then walk t follow (.taken here.dropLast) rest
      else
        match t.entry? (here ++ [piece]) with
        | none => missing here piece rest
        | some (.link target) => follow here target rest
        | some _ => walk t follow (.taken (here ++ [piece])) rest
    | some (.file _) => .error .notDirectory
    | _ => .error .notFound

/-- Where a path starts that is seen from a directory. -/
def origin (here : Location) (p : Path) : Place :=
  .taken (if p.isAbsolute then [] else here)

/-- Goes piece by piece from a place and follows at most a number of links. -/
def walkLinks (t : FileTree) : Nat → Place → List (List Char) → Except FileError Place
  | 0 => t.walk fun _ _ _ => .error .tooManyLinks
  | links + 1 => t.walk fun here target rest =>
    walkLinks t links (origin here target) (pieces target.text ++ rest)

/-- The place that a path leads to, whatever the length of its text. -/
def trace (t : FileTree) (p : Path) : Except FileError Place :=
  if p = .empty then .error .notFound else t.walkLinks maxLinks (origin t.home p) (pieces p.text)

/-- The place that a path leads to. -/
def find (t : FileTree) (p : Path) : Except FileError Place :=
  if '\x00' ∈ p.text then .error .nullInPath
  else if maxPathBytes < byteSize p.text then .error .nameTooLong
  else t.trace p

/-- What stands at the place that a path leads to. -/
def look (t : FileTree) (p : Path) : Except FileError FileEntry := do
  match ← t.find p with
  | .vacant _ => throw .notFound
  | .taken here =>
    match t.entry? here with
    | some entry => return entry
    | none => throw .notFound

/-- Whether a path leads to a file. -/
def isFile (t : FileTree) (p : Path) : Bool :=
  match t.look p with
  | .ok (.file _) => true
  | _ => false

/-- The text of the file that a path leads to. -/
def read (t : FileTree) (p : Path) : Except FileError String := do
  match ← t.look p with
  | .file content =>
    match String.fromUTF8? content with
    | some text => return text
    | none => throw .notText
  | _ => throw .isDirectory

/-- The absolute path of a location. -/
def pathOf (here : Location) : Path := .ofComponents (.root :: here.map .name)

/-- The one path, free of links, of what a path leads to. It is found one piece after the other,
so the length of the path does not matter. -/
def canonical? (t : FileTree) (p : Path) : Option Path :=
  match t.trace p with
  | .ok (.taken here) => some (pathOf here)
  | _ => none

/-- The number of files. -/
def fileCount (t : FileTree) : Nat :=
  t.entries.countP fun e => match e.2 with
    | .file _ => true
    | _ => false

/-! ## Changing the tree -/

/-- Puts an entry at a location, in place of what stands there. -/
def set (t : FileTree) (here : Location) (entry : FileEntry) : FileTree :=
  { t with entries := (here, entry) :: t.entries.filter (·.1 != here) }

/-- The tree with the missing directories made that pieces lead through from a place, as far as
they can be made: a name that is a link stays one. -/
def makeAlong : FileTree → Place → List (List Char) → FileTree
  | t, _, [] => t
  | t, place, piece :: rest =>
    match t.walkLinks 0 place [piece], t.walkLinks maxLinks place [piece] with
    | .ok (.vacant here), _ => makeAlong (t.set here .directory) (.taken here) rest
    | _, .ok next => makeAlong t next rest
    | _, .error _ => t

/-- The tree with the missing directories made that a path leads through. -/
def makeDirectories (t : FileTree) (p : Path) : FileTree :=
  t.makeAlong (origin t.home p) (pieces p.text)

/-- The location of the last name of a path. -/
def locationOf? (t : FileTree) (p : Path) : Option Location := do
  let directory ← p.parent?
  let name ← p.fileName?
  if directory = .empty then return t.home ++ [name]
  match t.find directory with
  | .ok (.taken here) =>
    match t.entry? here with
    | some .directory => return here ++ [name]
    | _ => none
  | _ => none

/-- Puts an entry at a path. Missing directories on the way are made. A file may be put in place
of another one, also through links that lead to nothing yet. Nothing else changes where the entry
cannot stand. -/
def put (t : FileTree) (p : Path) : FileEntry → FileTree
  | .directory => t.makeDirectories p
  | .link target =>
    let t := (p.parent?.map t.makeDirectories).getD t
    match t.locationOf? p with
    | some here => if (t.entry? here).isNone then t.set here (.link target) else t
    | none => t
  | .file content =>
    let t := (p.parent?.map t.makeDirectories).getD t
    match t.find p with
    | .ok (.vacant here) => t.set here (.file content)
    | .ok (.taken here) =>
      match t.entry? here with
      | some (.file _) => t.set here (.file content)
      | _ => t
    | _ => t

/-- Takes away what stands at a path, and all that stands below. -/
def remove (t : FileTree) (p : Path) : FileTree :=
  match t.locationOf? p with
  | some here => { t with entries := t.entries.filter fun e => !here.isPrefixOf e.1 }
  | none => t

end FileTree

end ScriptHost.Loader
