import ScriptHost.Host.Error

/-!
# Programs over a store

The code of host functions and methods, as data. A program is either done with a result, or asks
the store something (`Query`), or enters other code (`Entry`): a function, an operation of an
object, an object's conversion to text or the code that sets up a new object. What a program cannot
do is look into an object: objects are reached through their operations alone.

The code that a program can make objects and functions of is not part of the program. It is told by
its number (`Make`), together with what the new code captures (`Captured`), so a program can make
things that make more of their kind.

Programs that may fail with a `HostError` are written in `Action`.
-/

set_option autoImplicit false

namespace ScriptHost

/-! ## Objects as seen from outside -/

/-- What a member of an object is. -/
inductive MemberKind where
  /-- A property with a value. -/
  | data
  /-- A method. -/
  | function
  deriving DecidableEq

/-- What an object says of itself at a moment. A listing or a length that the object does not
support is none. -/
structure Profile where
  className : String
  memberKind : String → Option MemberKind
  ownProperties : Option (List String)
  keys : Option (List String)
  methods : Option (List String)
  length : Option Nat
  callable : Bool

namespace Profile

/-- The names that an iteration visits: the object's own properties if it lists them, otherwise
its keys and then its methods. -/
def names (p : Profile) : List String :=
  match p.ownProperties with
  | some names => names
  | none => p.keys.getD [] ++ p.methods.getD []

/-- Whether the object can list anything. -/
def lists (p : Profile) : Bool :=
  p.ownProperties.isSome || p.keys.isSome || p.methods.isSome

/-- An object without a name, members and listings. -/
def absent : Profile where
  className := ""
  memberKind := fun _ => none
  ownProperties := none
  keys := none
  methods := none
  length := none
  callable := false

end Profile

/-- What can be done to an object. -/
inductive Operation where
  /-- Read a property. -/
  | get (name : String)
  /-- Write a property; the result is undefined. -/
  | set (name : String) (value : Value)
  /-- Call a method. -/
  | callMethod (name : String) (arguments : List Value)
  /-- Call the object itself. -/
  | call (receiver : Value) (arguments : List Value)
  /-- Read an element. -/
  | element (index : Nat)

/-! ## Programs -/

/-- The identity of a symbol table. -/
structure TableId where
  index : Nat
  deriving DecidableEq

/-- The table that every part of a program shares. -/
def TableId.common : TableId := ⟨0⟩

/-- The number of code that objects or functions can be made of. -/
structure Make where
  index : Nat
  deriving DecidableEq

/-- What new code takes with it of the program that makes it. -/
structure Captured where
  values : List Value
  tables : List TableId

/-- A question that the store answers at once. -/
inductive Query where
  | profile (object : ObjectId)
  | symbolText (symbol : SymbolId)
  | functionName (function : FunctionId)
  /-- The symbol for a text in a table. -/
  | intern (table : TableId) (text : String)
  /-- Whether a table has a text. -/
  | contains (table : TableId) (text : String)
  /-- How many texts a table has. -/
  | size (table : TableId)
  /-- A new function that calls a method of an object. -/
  | bind (object : ObjectId) (method : String)
  /-- A new function of some code. -/
  | newFunction (make : Make) (captured : Captured)
  /-- A new table. -/
  | newTable

/-- The answer to a question. -/
@[reducible] def Query.Reply : Query → Type
  | profile _ => Profile
  | symbolText _ => String
  | functionName _ => String
  | intern _ _ => SymbolId
  | contains _ _ => Bool
  | size _ => Nat
  | bind _ _ => FunctionId
  | newFunction _ _ => FunctionId
  | newTable => TableId

/-- Other code that a program enters. -/
inductive Entry where
  | call (function : FunctionId) (arguments : List Value)
  | operate (object : ObjectId) (operation : Operation)
  /-- The conversion of an object to text. -/
  | text (object : ObjectId)
  /-- The code that sets up a new object. -/
  | create (make : Make) (captured : Captured)
  /-- The code that sets up a new object of the make of another one. -/
  | instantiate (like : ObjectId)

/-- What entered code returns. -/
@[reducible] def Entry.Reply : Entry → Type
  | call _ _ => Outcome
  | operate _ _ => Outcome
  | text _ => String
  | create _ _ => ObjectId
  | instantiate _ => ObjectId

/-- A program with a result. -/
inductive Program (α : Type) where
  | done (result : α)
  | query (q : Query) (next : q.Reply → Program α)
  | enter (e : Entry) (next : e.Reply → Program α)

namespace Program

variable {α β γ : Type}

/-- One program after another. -/
def bind : Program α → (α → Program β) → Program β
  | done a, f => f a
  | query q next, f => query q fun r => bind (next r) f
  | enter e next, f => enter e fun r => bind (next r) f

instance : Monad Program where
  pure := done
  bind := bind

/-- The program that asks one question. -/
def ask (q : Query) : Program q.Reply := query q done

/-- The program that enters other code. -/
def run (e : Entry) : Program e.Reply := enter e done

theorem bind_done (p : Program α) : bind p done = p := by
  induction p with
  | done a => rfl
  | query q next ih => exact congrArg (query q) (funext ih)
  | enter e next ih => exact congrArg (enter e) (funext ih)

theorem bind_assoc (p : Program α) (f : α → Program β) (g : β → Program γ) :
    bind (bind p f) g = bind p fun a => bind (f a) g := by
  induction p with
  | done a => rfl
  | query q next ih => exact congrArg (query q) (funext ih)
  | enter e next ih => exact congrArg (enter e) (funext ih)

instance : LawfulMonad Program :=
  LawfulMonad.mk' Program bind_done (fun _ _ => rfl) bind_assoc

end Program

/-- A program that may fail with an error. -/
abbrev Action (α : Type) := ExceptT HostError Program α

namespace Action

/-- The action that enters code with an outcome. -/
def ofProgram {α : Type} (p : Program (Except HostError α)) : Action α := ExceptT.mk p

/-- Fails with an error. -/
def fail {α : Type} (e : HostError) : Action α := ExceptT.mk (.done (.error e))

end Action

end ScriptHost
