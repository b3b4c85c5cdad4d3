import ScriptHost.Loader.FileTree
import ScriptHost.Text.Blank

/-!
# Configuration of a loader

Where a loader looks for files and which extension they have. `LoaderConfig.normalize` is applied
to every configuration that comes from outside: it takes blanks and then leading dots off the
extension, which must not be empty, and drops empty directories.
-/

set_option autoImplicit false

namespace ScriptHost.Loader

/-- The settings of a loader. -/
structure LoaderConfig where
  /-- The directories to search, in order. -/
  loadPath : List Path
  /-- The extension of script files, without its dot. -/
  extension : String
  deriving DecidableEq

/-- Why a configuration is refused. -/
inductive ConfigError where
  /-- The file cannot be read. -/
  | unreadable (error : FileError)
  /-- The text is no configuration. -/
  | malformed
  /-- A setting makes no sense. -/
  | invalid (reason : String)
  deriving DecidableEq

/-- The text of a configuration error. -/
def ConfigError.message : ConfigError → String
  | .unreadable error => "Failed to read config file: " ++ error.message
  | .malformed => "Failed to parse config"
  | .invalid reason => "Invalid config: " ++ reason

namespace LoaderConfig

/-- The extension that is used when none is given. -/
def defaultExtension : String := "js"

/-- The settings that are used when none are given. -/
def standard : LoaderConfig := ⟨[], defaultExtension⟩

instance : Inhabited LoaderConfig := ⟨standard⟩

/-- An extension without blanks around it and dots in front. -/
def bareExtension (extension : List Char) : List Char :=
  (Text.trim extension).dropWhile (· == '.')

/-- The settings in the form in which they are used. -/
def normalize (c : LoaderConfig) : Except ConfigError LoaderConfig :=
  let extension := bareExtension c.extension.toList
  if extension = [] then .error (.invalid "extension cannot be empty")
  else .ok ⟨c.loadPath.filter (·.text != []), String.ofList extension⟩

/-- The texts between the colons. -/
def splitColons : List Char → List (List Char)
  | [] => [[]]
  | c :: rest =>
    if c = ':' then [] :: splitColons rest
    else match splitColons rest with
      | [] => [[c]]
      | part :: others => (c :: part) :: others

/-- The directories of a list of paths in one text. -/
def splitPaths (list : String) : List Path := (splitColons list.toList).map Path.mk

/-- The settings with directories put in front and with another extension. -/
def override (c : LoaderConfig) (loadPath extension : Option String) :
    Except ConfigError LoaderConfig :=
  normalize
    ⟨(loadPath.map splitPaths).getD [] ++ c.loadPath, extension.getD c.extension⟩

/-- The settings with every relative directory seen from another directory. -/
def rebase (c : LoaderConfig) (base : Path) : LoaderConfig :=
  { c with loadPath := c.loadPath.map base.join }

end LoaderConfig

end ScriptHost.Loader
