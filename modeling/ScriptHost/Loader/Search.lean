import ScriptHost.Host.Error
import ScriptHost.Loader.Config

/-!
# Finding the file of a request

A request names a file, perhaps with an extension and perhaps with a directory. Its identity is
the name that files are searched under (`identity?`): the directory without `.`, and the name with
the extension of the configuration. The search goes through the directory of the caller and then
through the configured directories, in order.
-/

set_option autoImplicit false

namespace ScriptHost.Loader

/-- Why a file was not loaded. -/
inductive LoadError where
  /-- No directory holds the file. -/
  | moduleNotFound (name : Path) (searched : List Path)
  /-- The file cannot be read. -/
  | unreadable (path : Path) (error : FileError)
  /-- Running the file failed. -/
  | execution (path : Path) (error : HostError)

namespace LoadError

/-- The paths that were tried, as a text. -/
def describeSearch (searched : List Path) : String :=
  if searched.isEmpty then "(no directories)" else ", ".intercalate (searched.map toString)

/-- The text of a load error. -/
def message : LoadError → String
  | moduleNotFound name searched =>
    "Cannot find module '" ++ toString name ++ "'. Searched: " ++ describeSearch searched
  | unreadable path error => "Failed to read " ++ toString path ++ ": " ++ error.message
  | execution path error => "Error executing " ++ toString path ++ ": " ++ error.message

/-- The name of the kind of a load error. -/
def kindName : LoadError → String
  | moduleNotFound _ _ => "ModuleNotFound"
  | unreadable _ _ => "Io"
  | execution _ _ => "Execution"

end LoadError

/-- The name that the file of a request is searched under; none when the request names no file. -/
def identity? (c : LoaderConfig) (request : Path) : Option Path :=
  request.fileName?.map fun name =>
    (Path.ofComponents (request.components.dropLast.filter (· != .here))).join
      ⟨stem name ++ '.' :: c.extension.toList⟩

/-- Looks for a file in some directories, one after the other; `searched` are the paths tried
before. -/
def searchIn (t : FileTree) (identity : Path) (searched : List Path) :
    List Path → Except LoadError Path
  | [] => .error (.moduleNotFound identity searched)
  | directory :: rest =>
    let path := directory.join identity
    if t.isFile path then .ok path else searchIn t identity (searched ++ [path]) rest

/-- The file of an identity: first the directory of the caller is searched, if there is one, and
then the configured directories. -/
def resolve (t : FileTree) (c : LoaderConfig) (identity : Path) (caller : Option Path) :
    Except LoadError Path :=
  searchIn t identity [] ((caller.bind Path.parent?).toList ++ c.loadPath)

/-- The path under which a file is remembered as loaded: its canonical path when it has one. -/
def loadedKey (t : FileTree) (path : Path) : Path := (t.canonical? path).getD path

end ScriptHost.Loader
