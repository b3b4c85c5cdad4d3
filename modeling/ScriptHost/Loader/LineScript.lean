import ScriptHost.Loader.Require

/-!
# A runtime for scripts of plain lines

The simplest runtime: a script is a list of lines, and a line is a word and what follows it. A
line can ask for another file, try to, end the script with a text or make it fail; other lines do
nothing. The transcript tells when a script starts and when it reaches its end.
-/

set_option autoImplicit false

namespace ScriptHost.Loader.LineScript

/-- The lines of a text, each with its line feed, if it has one. -/
def rawLines : List Char → List (List Char)
  | [] => []
  | c :: rest =>
    if c = '\n' then [c] :: rawLines rest
    else match rawLines rest with
      | [] => [[c]]
      | line :: others => (c :: line) :: others

/-- A line without its end, which is a line feed or a carriage return and a line feed. -/
def chomp (line : List Char) : List Char :=
  match line.reverse with
  | '\n' :: '\r' :: rest => rest.reverse
  | '\n' :: rest => rest.reverse
  | _ => line

/-- The word at the front of a line, and what follows the blank behind it. -/
def splitWord (line : List Char) : String × String :=
  (String.ofList (line.takeWhile (· != ' ')), String.ofList (line.dropWhile (· != ' ')).tail)

/-- The lines of a script as words with what follows them. -/
def commands (source : String) : List (String × String) :=
  (rawLines source.toList).map fun line => splitWord (chomp line)

/-- What a script does from one of its lines on. -/
def follow (c : LoaderConfig) (path : Path) : List (String × String) → Script
  | [] => .note ("end " ++ toString path) (.done (.ok .undefined))
  | (word, rest) :: more =>
    if word = "fail" then .done (.error (.failed (toString path ++ " failed")))
    else if word = "notcallable" then .done (.error (.notCallable rest))
    else if word = "missing" then .done (.error (.memberNotFound rest "m"))
    else if word = "return" then .done (.ok (.string rest))
    else if word = "require" then
      .require c (.ofString rest) (some path) fun
        | .ok _ => follow c path more
        | .error e => .done (.error (.failed e.message))
    else if word = "try" then
      .require c (.ofString rest) (some path) fun r =>
        let result := match r with
          | .ok true => "true"
          | .ok false => "false"
          | .error e => e.kindName
        .note ("try " ++ rest ++ " " ++ result) (follow c path more)
    else follow c path more

/-- The runtime. -/
def runtime : Runtime := fun c path source =>
  .note ("run " ++ toString path) (follow c path (commands source))

end ScriptHost.Loader.LineScript
