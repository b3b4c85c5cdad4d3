import ScriptHost.Host.Text

/-!
# Classes and records

A class declares fields with their initial values, methods, and perhaps what a call of an
instance does. A record is an instance: an object whose slots hold the declared fields in order,
and whose named data holds the properties that were written without being declared. A property,
declared or not, hides a method of the same name from reading. A call takes the property when it
holds a function, and the method otherwise.
-/

set_option autoImplicit false

namespace ScriptHost

/-! ## Declarations -/

/-- Names with what was declared for them, in the order in which the names were first declared. A
table of places says where a name stands, in both lists. -/
structure Declarations (α : Type) where
  names : List String
  items : List α
  places : Entries Nat
  length_items : items.length = names.length
  nodup_names : names.Nodup
  find?_places (name : String) (i : Nat) :
    places.find? name = some i ↔ names[i]? = some name

namespace Declarations

variable {α : Type}

/-- Nothing has been declared. -/
def empty : Declarations α where
  names := []
  items := []
  places := []
  length_items := rfl
  nodup_names := List.nodup_nil
  find?_places := by simp [Entries.find?]

/-- The place of a name. -/
def place? (t : Declarations α) (name : String) : Option Nat := t.places.find? name

/-- What was declared for a name. -/
def item? (t : Declarations α) (name : String) : Option α :=
  (t.place? name).bind fun i => t.items[i]?

theorem place?_eq_some_iff (t : Declarations α) (name : String) (i : Nat) :
    t.place? name = some i ↔ t.names[i]? = some name :=
  t.find?_places name i

theorem place?_lt {t : Declarations α} {name : String} {i : Nat} (h : t.place? name = some i) :
    i < t.names.length := by
  obtain ⟨hi, _⟩ := List.getElem?_eq_some_iff.mp ((t.place?_eq_some_iff name i).mp h)
  exact hi

theorem place?_eq_none_iff (t : Declarations α) (name : String) :
    t.place? name = none ↔ name ∉ t.names := by
  constructor
  · intro h hmem
    obtain ⟨i, hi⟩ := List.getElem?_of_mem hmem
    rw [← t.place?_eq_some_iff, h] at hi
    cases hi
  · intro hmem
    cases hplace : t.place? name with
    | none => rfl
    | some i =>
        exact absurd (List.mem_of_getElem? ((t.place?_eq_some_iff name i).mp hplace)) hmem

/-- A table of the places of names stays one when a new name is put behind the others. -/
theorem find?_put_length {names : List String} {places : Entries Nat}
    (hplaces : ∀ name i, places.find? name = some i ↔ names[i]? = some name) {name : String}
    (hname : name ∉ names) (other : String) (i : Nat) :
    (places.put name names.length).find? other = some i
      ↔ (names ++ [name])[i]? = some other := by
  by_cases hother : other = name
  · subst hother
    rw [Entries.find?_put_self, Option.some.injEq]
    constructor
    · rintro rfl
      exact List.getElem?_concat_length
    · intro hi
      rcases Nat.lt_trichotomy i names.length with hlt | heq | hgt
      · rw [List.getElem?_append_left hlt] at hi
        exact absurd (List.mem_of_getElem? hi) hname
      · exact heq.symm
      · rw [List.getElem?_eq_none (by simp only [List.length_append, List.length_singleton]; omega)]
          at hi
        cases hi
  · rw [Entries.find?_put_of_ne hother, hplaces]
    rcases Nat.lt_trichotomy i names.length with hlt | rfl | hgt
    · rw [List.getElem?_append_left hlt]
    · rw [List.getElem?_concat_length, List.getElem?_eq_none (Nat.le_refl _), Option.some.injEq]
      exact ⟨fun h => (by cases h), fun h => absurd h.symm hother⟩
    · rw [List.getElem?_eq_none (Nat.le_of_lt hgt), List.getElem?_eq_none]
      simp only [List.length_append, List.length_singleton]
      omega

/-- Declares a name that has no place yet, behind all others. -/
def append (t : Declarations α) (name : String) (item : α) (h : name ∉ t.names) :
    Declarations α where
  names := t.names ++ [name]
  items := t.items ++ [item]
  places := t.places.put name t.names.length
  length_items := by simp [t.length_items]
  nodup_names := by
    refine List.nodup_append.mpr ⟨t.nodup_names, by simp, ?_⟩
    intro a ha b hb
    rw [List.mem_singleton] at hb
    rintro rfl
    exact h (hb ▸ ha)
  find?_places := find?_put_length t.find?_places h

/-- Declares a name. Declaring it again changes what it stands for and keeps the place. -/
def declare (t : Declarations α) (name : String) (item : α) : Declarations α :=
  match h : t.place? name with
  | some i => { t with items := t.items.set i item, length_items := by simp [t.length_items] }
  | none => t.append name item ((t.place?_eq_none_iff name).mp h)

end Declarations

/-- The code of a method: the instance it belongs to and the arguments. -/
abbrev Method := ObjectId → List Value → Program Outcome

/-- The code of a call: the instance, the receiver and the arguments. -/
abbrev Handler := ObjectId → Value → List Value → Program Outcome

/-! ## Classes -/

/-- What the instances of a class have in common. -/
structure Class where
  name : String
  fields : Declarations Value
  methods : Declarations Method
  handler : Option Handler

namespace Class

/-- The class that declares nothing. -/
def ofName (name : String) : Class := ⟨name, .empty, .empty, none⟩

/-- Declares a field. Declaring it again changes the initial value and keeps the place. -/
def field (c : Class) (name : String) (initial : Value) : Class :=
  { c with fields := c.fields.declare name initial }

/-- Declares a method. Declaring it again changes the code and keeps the place. -/
def method (c : Class) (name : String) (body : Method) : Class :=
  { c with methods := c.methods.declare name body }

/-- Declares what a call of an instance does. -/
def onCall (c : Class) (handler : Handler) : Class := { c with handler := some handler }

/-- The place of a declared field. -/
def fieldIndex? (c : Class) (name : String) : Option Nat := c.fields.place? name

/-- The place of a method. -/
def methodIndex? (c : Class) (name : String) : Option Nat := c.methods.place? name

/-- The names of the declared fields in order. -/
def fieldNames (c : Class) : List String := c.fields.names

/-- The names of the methods in order. -/
def methodNames (c : Class) : List String := c.methods.names

/-- The data of a new instance. -/
def initialData (c : Class) : Data := ⟨c.fields.items, []⟩

/-! ## The data of a record -/

/-- The value of a property, declared or not. -/
def property? (c : Class) (d : Data) (name : String) : Option Value :=
  match c.fieldIndex? name with
  | some i => d.slots[i]?
  | none => d.named.find? name

/-- The data after a property has been written: a declared one in its slot, any other under its
name. -/
def write (c : Class) (d : Data) (name : String) (value : Value) : Data :=
  match c.fieldIndex? name with
  | some i => { d with slots := d.slots.set i value }
  | none => { d with named := d.named.put name value }

/-- The names of the properties: the declared ones and then the others. -/
def propertyNames (c : Class) (d : Data) : List String := c.fieldNames ++ d.named.keys

/-- What a member of a record is. Properties come before methods. -/
def memberKind (c : Class) (d : Data) (name : String) : Option MemberKind :=
  if (c.fieldIndex? name).isSome || d.named.contains name then some .data
  else if (c.methodIndex? name).isSome then some .function
  else none

/-- What a record says of itself. -/
def profile (c : Class) (d : Data) : Profile where
  className := c.name
  memberKind := c.memberKind d
  ownProperties := none
  keys := some (c.propertyNames d)
  methods := some c.methodNames
  length := none
  callable := c.handler.isSome

/-- The call of a member: a property that holds a function, or else the method. -/
def callMember (c : Class) (self : ObjectId) (d : Data) (name : String)
    (arguments : List Value) : Program Outcome :=
  match c.property? d name with
  | some (.function f) => .run (.call f arguments)
  | _ =>
    match c.methods.item? name with
    | some body => body self arguments
    | none => .done (.error (.memberNotFound c.name name))

/-- What an operation does to a record. -/
def handle (c : Class) (self : ObjectId) (d : Data) : Operation → Data × Program Outcome
  | .get name => (d, .done (.ok ((c.property? d name).getD .undefined)))
  | .set name value => (c.write d name value, .done (.ok .undefined))
  | .callMethod name arguments => (d, c.callMember self d name arguments)
  | .call receiver arguments =>
    match c.handler with
    | some handler => (d, handler self receiver arguments)
    | none => (d, .done (.error (unsupported c.name (.call receiver arguments))))
  | .element index => (d, .done (.error (unsupported c.name (.element index))))

/-- The text of a record: what its method `toString` returns, if the class has one and the call
goes through. -/
def text (c : Class) (self : ObjectId) (d : Data) : Program String :=
  if (c.methodIndex? "toString").isSome then do
    match ← c.callMember self d "toString" [] with
    | .ok v => v.text
    | .error _ => return plainText c.name
  else return plainText c.name

/-- How the records of a class behave. -/
def interface (c : Class) : Interface :=
  ⟨c.initialData, fun _ => c.profile, c.handle, c.text⟩

/-- A new instance. -/
def instantiate (c : Class) : Object := ⟨c.interface, c.initialData⟩

end Class

end ScriptHost
