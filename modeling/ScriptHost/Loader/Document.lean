import ScriptHost.Loader.Config
import ScriptHost.Toml.Reader

/-!
# Configuration documents

The settings of a loader stand in a TOML document, in the table `loader`: `load_path`, an array of
strings, and `extension`, a string. A setting that is missing has its standard value, and other
keys are of no account. The settings may also be given as an array in this order, of which the
end may be missing; a date or time there sets nothing.
-/

set_option autoImplicit false

namespace ScriptHost.Loader.LoaderConfig

/-- The directories of a search path. -/
def loadPathOf? (v : Toml) : Option (List Path) := do
  let items ← v.items?
  items.mapM fun item => item.text?.map Path.ofString

/-- A setting that may be missing. -/
def setting? {α : Type} (read : Toml → Option α) (standard : α) : Option Toml → Option α
  | none => some standard
  | some v => read v

/-- The settings that a value gives. -/
def ofToml? : Toml → Option LoaderConfig
  | .table entries => do
    let loadPath ← setting? loadPathOf? [] (Entries.find? "load_path" entries)
    let extension ← setting? Toml.text? defaultExtension (Entries.find? "extension" entries)
    return ⟨loadPath, extension⟩
  | .array items => do
    let loadPath ← setting? loadPathOf? [] items[0]?
    let extension ← setting? Toml.text? defaultExtension items[1]?
    return ⟨loadPath, extension⟩
  | .moment _ => some standard
  | _ => none

/-- The settings in the text of a document, as they stand there. -/
def ofDocument? (text : String) : Option LoaderConfig := do
  let entries ← Toml.parse? text
  setting? ofToml? standard (Entries.find? "loader" entries)

/-- The settings in the text of a document. -/
def parse (text : String) : Except ConfigError LoaderConfig :=
  match ofDocument? text with
  | some c => c.normalize
  | none => .error .malformed

/-- The settings in a file. Relative directories are seen from the directory of the file. -/
def ofFile (t : FileTree) (path : Path) : Except ConfigError LoaderConfig :=
  match t.read path with
  | .error e => .error (.unreadable e)
  | .ok text =>
    (parse text).map fun c =>
      match path.parent? with
      | some base => c.rebase base
      | none => c

end ScriptHost.Loader.LoaderConfig
