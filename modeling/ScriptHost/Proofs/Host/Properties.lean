import ScriptHost.Host.Record
import ScriptHost.Proofs.Entries
import ScriptHost.Proofs.Host.Evolution

/-!
# The properties of a record

A record keeps what its class declares in slots and everything else by name. Taken together these
are entries, the declared names first (`Class.entries`). For data that fits the class the two
storages never disagree: reading, writing and listing are `find?`, `put` and `keys` of the entries.

Main statement: whatever happens to a store, a record in it is the ordered map that the
declarations and the writes to the record make (`Class.properties_of_evolves`).
-/

set_option autoImplicit false

namespace ScriptHost

/-! ## Declarations -/

namespace Declarations

variable {α : Type}

/-- The names with what was declared for them. -/
def entries (t : Declarations α) : Entries α := t.names.zip t.items

theorem keys_entries (t : Declarations α) : t.entries.keys = t.names :=
  Entries.keys_zip t.length_items

theorem not_mem_keys_entries {t : Declarations α} {name : String} (h : t.place? name = none) :
    name ∉ t.entries.keys := by
  rw [keys_entries]
  exact (t.place?_eq_none_iff name).mp h

theorem isSome_place?_iff (t : Declarations α) (name : String) :
    (t.place? name).isSome = true ↔ name ∈ t.names := by
  rw [Option.isSome_iff_ne_none, Ne, place?_eq_none_iff, Classical.not_not]

theorem find?_entries_of_place? {t : Declarations α} {name : String} {i : Nat}
    (h : t.place? name = some i) : t.entries.find? name = t.items[i]? :=
  Entries.find?_zip t.nodup_names t.length_items ((t.place?_eq_some_iff name i).mp h)

theorem item?_eq_find? (t : Declarations α) (name : String) :
    t.item? name = t.entries.find? name := by
  cases hplace : t.place? name with
  | none =>
      rw [item?, hplace, Entries.find?_eq_none_iff.mpr (not_mem_keys_entries hplace)]
      rfl
  | some i =>
      rw [item?, hplace, find?_entries_of_place? hplace]
      rfl

/-- Declaring a name puts it among the entries. -/
theorem entries_declare (t : Declarations α) (name : String) (item : α) :
    (t.declare name item).entries = t.entries.put name item := by
  unfold declare
  split
  · rename_i i hplace
    exact (Entries.put_zip t.nodup_names t.length_items
      ((t.place?_eq_some_iff name i).mp hplace) item).symm
  · rename_i hplace
    show (t.names ++ [name]).zip (t.items ++ [item]) = _
    rw [List.zip_append t.length_items.symm,
      Entries.put_of_not_mem (not_mem_keys_entries hplace)]
    rfl

end Declarations

/-- What can be declared for a class. -/
inductive Declaration where
  | field (name : String) (initial : Value)
  | method (name : String) (body : Method)
  /-- What a call of an instance does. -/
  | callable (handler : Handler)

/-- The field of a declaration, with its initial value. -/
def Declaration.field? : Declaration → Option (String × Value)
  | field name initial => some (name, initial)
  | _ => none

/-- The method of a declaration, with its code. -/
def Declaration.method? : Declaration → Option (String × Method)
  | method name body => some (name, body)
  | _ => none

/-- The fields in some declarations, with their initial values, as often as they are declared. -/
def fieldsOf (ds : List Declaration) : List (String × Value) := ds.filterMap Declaration.field?

/-- The methods in some declarations, as often as they are declared. -/
def methodsOf (ds : List Declaration) : List (String × Method) := ds.filterMap Declaration.method?

namespace Class

/-- The class with one more declaration. -/
def declare (c : Class) : Declaration → Class
  | .field name initial => c.field name initial
  | .method name body => c.method name body
  | .callable handler => c.onCall handler

/-- The class that some declarations make. -/
def ofDeclarations (name : String) (ds : List Declaration) : Class :=
  ds.foldl declare (ofName name)

theorem entries_fields_declare (c : Class) (d : Declaration) :
    (c.declare d).fields.entries = c.fields.entries.puts d.field?.toList := by
  cases d with
  | field name initial => exact c.fields.entries_declare name initial
  | _ => rfl

theorem entries_methods_declare (c : Class) (d : Declaration) :
    (c.declare d).methods.entries = c.methods.entries.puts d.method?.toList := by
  cases d with
  | method name body => exact c.methods.entries_declare name body
  | _ => rfl

theorem entries_fields_ofDeclarations (name : String) (ds : List Declaration) :
    (ofDeclarations name ds).fields.entries = Entries.puts [] (fieldsOf ds) :=
  (Entries.view_foldl (fun _ => True) (fun c : Class => c.fields.entries) declare
    Declaration.field? (fun c d _ => ⟨trivial, c.entries_fields_declare d⟩) ds trivial).2

theorem entries_methods_ofDeclarations (name : String) (ds : List Declaration) :
    (ofDeclarations name ds).methods.entries = Entries.puts [] (methodsOf ds) :=
  (Entries.view_foldl (fun _ => True) (fun c : Class => c.methods.entries) declare
    Declaration.method? (fun c d _ => ⟨trivial, c.entries_methods_declare d⟩) ds trivial).2

/-- What a class has for a method is what was declared last. -/
theorem item?_methods_ofDeclarations (name : String) (ds : List Declaration) (method : String) :
    (ofDeclarations name ds).methods.item? method = Entries.lastValue? method (methodsOf ds) := by
  rw [Declarations.item?_eq_find?, entries_methods_ofDeclarations, Entries.find?_puts]
  exact Option.or_none

/-! ## Data that fits a class -/

/-- The data that an instance of a class can hold. -/
structure Fits (c : Class) (d : Data) : Prop where
  length_slots : d.slots.length = c.fieldNames.length
  /-- What the class declares is never kept by name. -/
  undeclared : ∀ name ∈ d.named.keys, name ∉ c.fieldNames

/-- The properties with their values: the declared ones and then the others. -/
def entries (c : Class) (d : Data) : Entries Value := c.fieldNames.zip d.slots ++ d.named

theorem fits_initialData (c : Class) : c.Fits c.initialData where
  length_slots := c.fields.length_items
  undeclared := by
    intro name hname
    cases hname

theorem entries_initialData (c : Class) : c.entries c.initialData = c.fields.entries :=
  List.append_nil _

variable {c : Class} {d : Data}

theorem Fits.keys_slots (h : c.Fits d) :
    Entries.keys (c.fieldNames.zip d.slots) = c.fieldNames :=
  Entries.keys_zip h.length_slots

theorem Fits.not_mem_keys_slots (h : c.Fits d) {name : String} (hi : c.fieldIndex? name = none) :
    name ∉ Entries.keys (c.fieldNames.zip d.slots) := by
  rw [h.keys_slots]
  exact (c.fields.place?_eq_none_iff name).mp hi

theorem Fits.lt_length_slots (h : c.Fits d) {name : String} {i : Nat}
    (hi : c.fieldIndex? name = some i) : i < d.slots.length := by
  rw [h.length_slots]
  exact Declarations.place?_lt hi

/-- The names of the properties are the keys. -/
theorem Fits.propertyNames_eq (h : c.Fits d) : c.propertyNames d = (c.entries d).keys := by
  rw [propertyNames, entries, Entries.keys_append, h.keys_slots]

/-- What a member is can be told from the listings. -/
theorem memberKind_eq_of_names (c : Class) (d : Data) (name : String) :
    c.memberKind d name
      = if name ∈ c.propertyNames d then some .data
        else if name ∈ c.methodNames then some .function else none := by
  have hproperty : ((c.fieldIndex? name).isSome || d.named.contains name) = true
      ↔ name ∈ c.propertyNames d := by
    rw [Bool.or_eq_true, fieldIndex?, Declarations.isSome_place?_iff, Entries.contains_iff,
      propertyNames, List.mem_append]
    rfl
  have hmethod : (c.methodIndex? name).isSome = true ↔ name ∈ c.methodNames :=
    c.methods.isSome_place?_iff name
  simp only [memberKind, hproperty, hmethod]

/-- Reading a property finds it among the entries. -/
theorem Fits.property?_eq (h : c.Fits d) (name : String) :
    c.property? d name = (c.entries d).find? name := by
  rw [property?, entries, Entries.find?_append]
  cases hindex : c.fieldIndex? name with
  | none =>
      rw [Entries.find?_eq_none_iff.mpr (h.not_mem_keys_slots hindex)]
      rfl
  | some i =>
      have hfind : Entries.find? name (c.fieldNames.zip d.slots) = d.slots[i]? :=
        Entries.find?_zip c.fields.nodup_names h.length_slots
          ((c.fields.place?_eq_some_iff name i).mp hindex)
      show d.slots[i]? = _
      rw [hfind, List.getElem?_eq_getElem (h.lt_length_slots hindex), Option.some_or]

/-- Writing a property puts it among the entries. -/
theorem Fits.entries_write (h : c.Fits d) (name : String) (value : Value) :
    c.entries (c.write d name value) = (c.entries d).put name value := by
  rw [write, entries, entries]
  cases hindex : c.fieldIndex? name with
  | none => rw [Entries.put_append_of_not_mem (h.not_mem_keys_slots hindex)]
  | some i =>
      have hplace : c.fieldNames[i]? = some name := (c.fields.place?_eq_some_iff name i).mp hindex
      have hname : name ∈ Entries.keys (c.fieldNames.zip d.slots) := by
        rw [h.keys_slots]
        exact List.mem_of_getElem? hplace
      have hput : Entries.put name value (c.fieldNames.zip d.slots)
          = c.fieldNames.zip (d.slots.set i value) :=
        Entries.put_zip c.fields.nodup_names h.length_slots hplace value
      rw [Entries.put_append_of_mem hname, hput]

theorem Fits.write (h : c.Fits d) (name : String) (value : Value) :
    c.Fits (c.write d name value) := by
  rw [Class.write]
  cases hindex : c.fieldIndex? name with
  | none =>
      refine ⟨h.length_slots, ?_⟩
      intro other hother
      rw [Entries.keys_put] at hother
      split at hother
      · exact h.undeclared other hother
      · rcases List.mem_append.mp hother with hold | hnew
        · exact h.undeclared other hold
        · rw [List.mem_singleton.mp hnew]
          exact (c.fields.place?_eq_none_iff name).mp hindex
  | some i => exact ⟨by rw [List.length_set, h.length_slots], h.undeclared⟩

end Class

/-! ## Declared and written properties as one map -/

/-- The data is the ordered map that declared and then written properties make: the value that
was written last counts, otherwise the one that was declared last; the declared names stand first,
each name stands once and in the order of its first appearance. -/
structure Class.IsMap (c : Class) (d : Data) (declared written : List (String × Value)) :
    Prop where
  property?_eq (name : String) :
    c.property? d name
      = (Entries.lastValue? name written).or (Entries.lastValue? name declared)
  propertyNames_eq :
    c.propertyNames d
      = (declared.map (·.1)).eraseDups
        ++ ((written.map (·.1)).removeAll (declared.map (·.1))).eraseDups
  nodup : (c.propertyNames d).Nodup

/-- No place that a class has for a name is behind the end of the lists in which it is looked
up. -/
structure Class.InRange (c : Class) (d : Data) : Prop where
  field {name : String} {i : Nat} (h : c.fieldIndex? name = some i) :
    i < c.fields.items.length ∧ i < d.slots.length
  method {name : String} {i : Nat} (h : c.methodIndex? name = some i) :
    i < c.methods.items.length

theorem Declarations.lt_length_items {α : Type} {t : Declarations α} {name : String} {i : Nat}
    (h : t.place? name = some i) : i < t.items.length := by
  rw [t.length_items]
  exact place?_lt h

namespace Class

variable {c : Class} {d : Data}

theorem Fits.inRange (h : c.Fits d) : c.InRange d where
  field := fun hi => ⟨Declarations.lt_length_items hi, h.lt_length_slots hi⟩
  method := Declarations.lt_length_items

theorem Fits.isMap (h : c.Fits d) {declared written : List (String × Value)}
    (hd : c.entries d = (Entries.puts [] declared).puts written) :
    c.IsMap d declared written := by
  have hdeclared : (Entries.puts [] declared).keys = (declared.map (·.1)).eraseDups :=
    Entries.keys_puts (show Entries.keys [] = ([] : List String).eraseDups from rfl) declared
  have hempty : (Entries.keys ([] : Entries Value)).Nodup := List.nodup_nil
  refine ⟨?_, ?_, ?_⟩
  · intro name
    rw [h.property?_eq, hd, Entries.find?_puts, Entries.find?_puts]
    exact congrArg _ Option.or_none
  · rw [h.propertyNames_eq, hd, Entries.keys_puts hdeclared, List.eraseDups_append]
  · rw [h.propertyNames_eq, hd]
    exact Entries.nodup_keys_puts (Entries.nodup_keys_puts hempty declared) written

/-- A write changes the value of one property and keeps the values of all others. -/
theorem Fits.property?_write (h : c.Fits d) (name : String) (value : Value) (other : String) :
    c.property? (c.write d name value) other
      = if other = name then some value else c.property? d other := by
  rw [(h.write name value).property?_eq, h.entries_write, h.property?_eq]
  split
  · rename_i heq
    rw [heq, Entries.find?_put_self]
  · rename_i hne
    exact Entries.find?_put_of_ne hne value _

end Class

/-! ## Operations on a record -/

/-- The property that an operation writes, with its value. -/
def Operation.write? : Operation → Option (String × Value)
  | .set name value => some (name, value)
  | _ => none

/-- The properties that some entries write to an object, in order. -/
def writesTo (o : ObjectId) (log : List Entry) : List (String × Value) :=
  (log.filterMap (Entry.operation? o)).filterMap Operation.write?

namespace Class

/-- An operation puts what it writes among the entries, and does nothing else to the data. -/
theorem Fits.handle {c : Class} {d : Data} (h : c.Fits d) (self : ObjectId) (op : Operation) :
    c.Fits (c.handle self d op).1
      ∧ c.entries (c.handle self d op).1 = (c.entries d).puts op.write?.toList := by
  cases op with
  | set name value => exact ⟨h.write name value, h.entries_write name value⟩
  | call receiver arguments =>
      rw [Class.handle]
      split <;> exact ⟨h, rfl⟩
  | _ => exact ⟨h, rfl⟩

/-- A new instance, after some operations on it, has what was declared and then what was
written. -/
theorem entries_dataAfter (c : Class) (o : ObjectId) (log : List Entry) :
    c.Fits (c.instantiate.dataAfter o (log.filterMap (Entry.operation? o)))
      ∧ c.entries (c.instantiate.dataAfter o (log.filterMap (Entry.operation? o)))
          = c.fields.entries.puts (writesTo o log) := by
  rw [← entries_initialData]
  exact Entries.view_foldl c.Fits c.entries (fun d op => (c.handle o d op).1) Operation.write?
    (fun d op h => h.handle o op) _ c.fits_initialData

end Class

/-- An object of a store is an instance of a class with some data. -/
def Store.IsRecord (s : Store) (o : ObjectId) (c : Class) (d : Data) : Prop :=
  s.objects[o.index]? = some ⟨c.interface, d⟩

/-- A write to a property of a record gives the property its value. It changes no other property
of the record and no other object of the store, and an instance that is created afterward has the
data of a new one. -/
structure Store.WritesOnly (s : Store) (o : ObjectId) (c : Class) (d : Data) (name : String)
    (value : Value) : Prop where
  isRecord : (s.start (.operate o (.set name value))).2.IsRecord o c (c.write d name value)
  property?_eq (other : String) :
    c.property? (c.write d name value) other
      = if other = name then some value else c.property? d other
  objects_eq {other : ObjectId} (h : other ≠ o) :
    (s.start (.operate o (.set name value))).2.objects[other.index]? = s.objects[other.index]?
  created (c' : Class) :
    ((s.start (.operate o (.set name value))).2.addObject c'.instantiate).2.IsRecord
      (s.addObject c'.instantiate).1 c' c'.initialData

namespace Store

variable {s : Store} {o : ObjectId} {c : Class} {d : Data}

theorem isRecord_addObject (s : Store) (c : Class) :
    (s.addObject c.instantiate).2.IsRecord (s.addObject c.instantiate).1 c c.initialData :=
  List.getElem?_concat_length

/-- A record is the same in every store with the same objects. -/
theorem IsRecord.of_objects_eq (h : s.IsRecord o c d) {s' : Store}
    (hobjects : s'.objects = s.objects) : s'.IsRecord o c d := by
  rw [IsRecord, hobjects, h]

/-- Reading a property of a record gives its value and changes nothing. -/
theorem IsRecord.start_get (h : s.IsRecord o c d) (name : String) :
    s.start (.operate o (.get name))
      = (.done (.ok ((c.property? d name).getD .undefined)), s) :=
  start_operate_of_keeps h rfl

/-- A call of a member of a record changes nothing before the code of the member runs. -/
theorem IsRecord.start_callMethod (h : s.IsRecord o c d) (name : String)
    (arguments : List Value) :
    s.start (.operate o (.callMethod name arguments)) = (c.callMember o d name arguments, s) :=
  start_operate_of_keeps h rfl

theorem IsRecord.writesOnly (h : s.IsRecord o c d) (hd : c.Fits d) (name : String)
    (value : Value) : s.WritesOnly o c d name value where
  isRecord := getElem?_objects_operate h (.set name value)
  property?_eq := hd.property?_write name value
  objects_eq := fun hother => getElem?_setData_of_ne hother s _
  created := by
    intro c'
    have hlength : (s.start (.operate o (.set name value))).2.objects.length = s.objects.length :=
      List.length_modify ..
    have hnew := isRecord_addObject (s.start (.operate o (.set name value))).2 c'
    rw [addObject, hlength] at hnew
    exact hnew

end Store

/-- Whatever happens to a store after an instance of a class has been created in it, the instance
is the map that the declared fields and the writes to it make. Reading a property gives its value
and changes nothing, the keys are the names of the map, no place is out of range, and one more
write changes one property of this instance alone. -/
theorem Class.properties_of_evolves {className : String} {ds : List Declaration} {c : Class}
    (hc : c = ofDeclarations className ds) {s s₀ s' : Store} {o : ObjectId}
    (hnew : s.addObject c.instantiate = (o, s₀)) {log : List Entry} (h : s₀.Evolves log s') :
    ∃ d, s'.IsRecord o c d
      ∧ c.IsMap d (fieldsOf ds) (writesTo o log)
      ∧ (∀ name, s'.start (.operate o (.get name))
          = (.done (.ok ((c.property? d name).getD .undefined)), s'))
      ∧ (s'.profile o).keys = some (c.propertyNames d)
      ∧ c.InRange d
      ∧ ∀ name value, s'.WritesOnly o c d name value := by
  cases hnew
  -- the data is a fold over the operations in the log, and each puts what it writes
  have hrecord : s'.IsRecord ⟨s.objects.length⟩ c _ :=
    h.getElem?_objects (s.isRecord_addObject c)
  obtain ⟨hfits, hentries⟩ := c.entries_dataAfter ⟨s.objects.length⟩ log
  have hfields : c.fields.entries = Entries.puts [] (fieldsOf ds) := by
    rw [hc, entries_fields_ofDeclarations]
  rw [hfields] at hentries
  refine ⟨_, hrecord, hfits.isMap hentries, hrecord.start_get, ?_, hfits.inRange,
    hrecord.writesOnly hfits⟩
  rw [Store.profile_eq hrecord]
  rfl

/-- A class that declares a field twice and has a method that writes a property. -/
def Class.counter : Class :=
  ofDeclarations "Counter"
    [.field "count" (.int 0),
      .method "mark" fun self _ => .run (.operate self (.set "marked" (.bool true))),
      .field "count" (.int 1), .callable fun _ receiver _ => .done (.ok receiver)]

/-- A new counter, after a value has been written over its method `mark`. -/
def Store.marked : Store :=
  ((Store.empty.addObject Class.counter.instantiate).2.start
    (.operate ⟨0⟩ (.set "mark" (.int 3)))).2

/-- Writes a field from outside, and then a property from inside a method. -/
def Class.countAndMark : Program Outcome :=
  .bind (.run (.operate ⟨0⟩ (.set "count" (.int 7)))) fun _ =>
    .run (.operate ⟨0⟩ (.callMethod "mark" []))

/-- Both values stand over the declared ones, and the name that is not declared comes last. -/
theorem Class.properties_of_counter :
    ∃ (s' : Store) (d : Data),
      countAndMark.runIn 2 (Store.empty.addObject counter.instantiate).2
          = some (.ok .undefined, s')
        ∧ s'.IsRecord ⟨0⟩ counter d
        ∧ counter.IsMap d [("count", .int 0), ("count", .int 1)]
            [("count", .int 7), ("marked", .bool true)]
        ∧ counter.property? d "count" = some (.int 7)
        ∧ counter.propertyNames d = ["count", "marked"] := by
  have hrun := Option.some_get
    (x := countAndMark.runIn 2 (Store.empty.addObject counter.instantiate).2) rfl
  obtain ⟨d, hrecord, hmap, _⟩ :=
    properties_of_evolves (c := counter) rfl rfl (Program.evolves_of_runIn hrun.symm)
  refine ⟨_, d, hrun.symm, hrecord, hmap, ?_, ?_⟩
  · exact hmap.property?_eq "count"
  · exact hmap.propertyNames_eq

end ScriptHost
