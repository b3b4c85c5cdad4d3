import ScriptHost.Value.Basic

/-!
# Errors of host operations

The ways in which touching a host value can fail, and their messages. A conversion that finds a
value of the wrong type says which type it wanted and which value it found (`Mismatch`); the error
names the type of that value.
-/

set_option autoImplicit false

namespace ScriptHost

/-- Why an operation on a host value failed. -/
inductive HostError where
  /-- The member is neither a property nor a method of the receiver. -/
  | memberNotFound (receiver member : String)
  /-- The value cannot be called. -/
  | notCallable (what : String)
  /-- A value of another type was wanted. -/
  | typeMismatch (expected got : String)
  /-- An argument was refused. -/
  | badArgument (reason : String)
  /-- A host function failed. -/
  | failed (reason : String)
  deriving DecidableEq

/-- The result of an operation on a host value. -/
abbrev Outcome := Except HostError Value

namespace HostError

/-- The text of an error. -/
def message : HostError → String
  | memberNotFound receiver member => "undefined member \x60" ++ member ++ "\x60 for " ++ receiver
  | notCallable what => what ++ " is not callable"
  | typeMismatch expected got => "Type mismatch: expected " ++ expected ++ ", got " ++ got
  | badArgument reason => "Argument error: " ++ reason
  | failed reason => reason

/-- Whether a member was not found. -/
def isMemberNotFound : HostError → Bool
  | memberNotFound _ _ => true
  | _ => false

end HostError

/-- A value that is not of the wanted type. -/
structure Mismatch where
  expected : String
  got : Value

/-- The error that reports a mismatch. -/
def Mismatch.toError (callable : ObjectId → Bool) (m : Mismatch) : HostError :=
  .typeMismatch m.expected (m.got.typeName callable)

end ScriptHost
