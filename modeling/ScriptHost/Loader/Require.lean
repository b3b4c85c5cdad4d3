import ScriptHost.Loader.Search

/-!
# Loading files

A loader hands the text of a file to a runtime. What the runtime does with it is a `Script`,
which may itself ask for files, and which may go by what has happened before. `require` runs a
file unless it has been loaded: a file is remembered before it runs, so that files that ask for
each other run once each, and it stays remembered when it fails.

Each file that runs inside another one has just been remembered, so the files of a tree bound the
depth of the nesting.
-/

set_option autoImplicit false

namespace ScriptHost.Loader

/-- Something worth telling about a run. -/
inductive Event where
  /-- A file was handed to the runtime. -/
  | executed (path : Path)
  /-- The runtime wrote a line. -/
  | note (line : String)

/-- What a runtime does with a file. -/
inductive Script where
  /-- The file has run. -/
  | done (result : Outcome)
  /-- A line is written to the transcript. -/
  | note (line : String) (next : Script)
  /-- What has happened so far is looked at, the latest first. -/
  | consult (next : List Event → Script)
  /-- A file is asked for, by way of some configuration and on behalf of some caller. -/
  | require (config : LoaderConfig) (request : Path) (caller : Option Path)
      (next : Except LoadError Bool → Script)

/-- What becomes of a file, given the configuration it was found with, its path and its text. -/
abbrev Runtime := LoaderConfig → Path → String → Script

/-- What is remembered while files are loaded. -/
structure LoadState where
  /-- The keys of the files that have been loaded, no two alike, the latest first. -/
  loaded : List Path
  /-- What has happened, the latest first. -/
  events : List Event

namespace LoadState

/-- Nothing has been loaded. -/
def empty : LoadState := ⟨[], []⟩

/-- Whether a key is remembered. -/
def contains (s : LoadState) (key : Path) : Bool := s.loaded.any key.alike

/-- Remembers a key. -/
def mark (s : LoadState) (key : Path) : LoadState :=
  if s.contains key then s else { s with loaded := key :: s.loaded }

/-- Adds to what has happened. -/
def record (s : LoadState) (e : Event) : LoadState := { s with events := e :: s.events }

/-- The lines that have been written, in order. -/
def lines (s : LoadState) : List String :=
  s.events.reverse.filterMap fun
    | .note line => some line
    | .executed _ => none

end LoadState

/-- How a request is met: whether a file ran, or why none could. -/
abbrev Requester :=
  LoaderConfig → Path → Option Path → LoadState → Option (Except LoadError Bool × LoadState)

/-- Runs a script, with a given way to meet its requests. -/
def Script.exec (meet : Requester) : Script → LoadState → Option (Outcome × LoadState)
  | .done result, s => some (result, s)
  | .note line next, s => exec meet next (s.record (.note line))
  | .consult next, s => exec meet (next s.events) s
  | .require config request caller next, s =>
    (meet config request caller s).bind fun (r, s) => exec meet (next r) s

/-- Reads a file and runs it, whether or not it has been loaded. -/
def loadWith (meet : Requester) (t : FileTree) (run : Runtime) (c : LoaderConfig) (path : Path)
    (s : LoadState) : Option (Except LoadError Value × LoadState) :=
  match t.read path with
  | .error e => some (.error (.unreadable path e), s)
  | .ok source =>
    ((run c path source).exec meet (s.record (.executed path))).map fun (r, s) =>
      (r.mapError (.execution path), s)

/-- Meets a request, down to a depth of files inside each other: finds the file, and runs it
unless it has been loaded. -/
def requireWithin (t : FileTree) (run : Runtime) : Nat → Requester
  | 0, _, _, _, _ => none
  | depth + 1, c, request, caller, s =>
    match identity? c request with
    | none => some (.error (.moduleNotFound request []), s)
    | some identity =>
      match resolve t c identity caller with
      | .error e => some (.error e, s)
      | .ok path =>
        let key := loadedKey t path
        if s.contains key then some (.ok false, s)
        else
          (loadWith (requireWithin t run depth) t run c path (s.mark key)).map fun (r, s) =>
            (r.map fun _ => true, s)

/-- The depth that no run can exceed. -/
def depthBound (t : FileTree) : Nat := t.fileCount + 1

/-- Meets a request. -/
def require (t : FileTree) (run : Runtime) : Requester := requireWithin t run (depthBound t)

/-- Reads a file and runs it, whether or not it has been loaded. -/
def load (t : FileTree) (run : Runtime) (c : LoaderConfig) (path : Path) (s : LoadState) :
    Option (Except LoadError Value × LoadState) :=
  loadWith (require t run) t run c path s

end ScriptHost.Loader
