import ScriptHost.Host.Record

/-!
# Objects given by a sheet

An object whose answers are written down in advance: its members, its listings, its length and
elements, its text and what a call does. Only the members can change: a write turns a member into
a property with a value. What the sheet leaves open is answered as by an object that does not
support it.
-/

set_option autoImplicit false

namespace ScriptHost

/-- A member of a sheet. -/
inductive SheetMember where
  /-- A property with a value. -/
  | data (value : Value)
  /-- A property that cannot be read. -/
  | broken (error : HostError)
  | method (body : Method)

/-- The answers of an object. -/
structure Sheet where
  className : String
  /-- The first member with a name is the one that counts. -/
  members : Entries SheetMember
  readOnly : Bool
  ownProperties : Option (List String)
  keys : Option (List String)
  methods : Option (List String)
  length : Option Nat
  elements : Option (List Outcome)
  handler : Option Handler
  display : Option String

namespace Sheet

/-- The member with a name: a property that has been written, or else the one on the sheet. -/
def member? (t : Sheet) (d : Data) (name : String) : Option SheetMember :=
  match d.named.find? name with
  | some value => some (.data value)
  | none => t.members.find? name

/-- What a member is. -/
def memberKind (t : Sheet) (d : Data) (name : String) : Option MemberKind :=
  (t.member? d name).map fun
    | .method _ => .function
    | _ => .data

/-- What the object says of itself. -/
def profile (t : Sheet) (d : Data) : Profile where
  className := t.className
  memberKind := t.memberKind d
  ownProperties := t.ownProperties
  keys := t.keys
  methods := t.methods
  length := t.length
  callable := t.handler.isSome

/-- What an operation does to the object. -/
def handle (t : Sheet) (self : ObjectId) (d : Data) : Operation → Data × Program Outcome
  | .get name =>
    match t.member? d name with
    | some (.data value) => (d, .done (.ok value))
    | some (.broken error) => (d, .done (.error error))
    | _ => (d, .done (.ok .undefined))
  | .set name value =>
    if t.readOnly then (d, .done (.error (.badArgument (name ++ " is read-only"))))
    else ({ d with named := d.named.put name value }, .done (.ok .undefined))
  | .callMethod name arguments =>
    match t.member? d name with
    | some (.method body) => (d, body self arguments)
    | _ => (d, .done (.error (.memberNotFound t.className name)))
  | .call receiver arguments =>
    match t.handler with
    | some handler => (d, handler self receiver arguments)
    | none => (d, .done (.error (unsupported t.className (.call receiver arguments))))
  | .element index =>
    match t.elements with
    | some elements => (d, .done ((elements[index]?).getD (.ok .undefined)))
    | none => (d, .done (.error (unsupported t.className (.element index))))

/-- How the object behaves. -/
def interface (t : Sheet) : Interface :=
  ⟨⟨[], []⟩, fun _ => t.profile, t.handle,
    fun _ _ => .done (t.display.getD (plainText t.className))⟩

/-- A new object with the sheet's answers. -/
def instantiate (t : Sheet) : Object := ⟨t.interface, ⟨[], []⟩⟩

end Sheet

end ScriptHost
