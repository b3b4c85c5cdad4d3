import Mathlib.Data.List.Forall2
import ScriptHost.Proofs.Tree.Encoding

/-!
# The spellings of a tree

A tree may be written as JSON in more ways than `Node.encode` does: the members of an object may
stand in any order and among others, a part that is missing may be left out, an operator may be an
object, and an array of the kind and all fields may take the place of the object. `Node.SpelledBy`
says so node by node. Main statement: each of these spellings is read as the tree
(`Node.decode?_of_spelledBy`).
-/

set_option autoImplicit false

namespace ScriptHost.Tree

/-! ## What may stand in a field -/

/-- The members of an object with some keys and values, where a key without a value is left out. -/
def present {α : Type} : List String → List (Option α) → List (String × α)
  | key :: keys, some value :: values => (key, value) :: present keys values
  | _ :: keys, none :: values => present keys values
  | _, _ => []

namespace Kind

/-- The spellings of a node of a kind, given what may stand in its fields: objects in which the
kind and the fields that are not left out stand in any order, among members with other keys, and
arrays of the kind and all fields. -/
def SpelledBy (k : Kind) (fields : List (Option Json → Prop)) : Json → Prop
  | .object members =>
    ∃ values extra, List.Forall₂ (fun field value => field value) fields values ∧
      (∀ m ∈ extra, m.1 ≠ "kind" ∧ m.1 ∉ k.fields) ∧
      members.Perm (("kind", .string k.name) :: present k.fields values ++ extra)
  | .array items =>
    ∃ values, List.Forall₂ (fun field value => field (some value)) fields values ∧
      items = .string k.name :: values
  | _ => False

end Kind

namespace Field

/-- A field that has to be there. -/
def required (spelled : Json → Prop) (value : Option Json) : Prop :=
  ∃ json, value = some json ∧ spelled json

/-- A field with nothing in it, which may be left out or null. -/
def missing (value : Option Json) : Prop := value = none ∨ value = some .null

/-- A text. -/
def text (s : String) (json : Json) : Prop := json = .string s

/-- A name that may be missing. -/
def name : Option String → Option Json → Prop
  | none => missing
  | some s => required (text s)

/-- The name of an operator, or an object with the name as its key and null as its value. -/
def operator (name : String) (json : Json) : Prop :=
  json = .string name ∨ json = .object [(name, .null)]

/-- A list. -/
def list (spelled : List Json → Prop) (json : Json) : Prop :=
  ∃ items, json = .array items ∧ spelled items

end Field

namespace Node

mutual

/-- The spellings of a node. -/
def SpelledBy : Node → Json → Prop
  | leaf k text => (Kind.leaf k).SpelledBy [Field.required (Field.text text)]
  | word w => (Kind.word w).SpelledBy []
  | list k items => (Kind.list k).SpelledBy [Field.required (Field.list (EachSpelledBy items))]
  | apply k callee arguments =>
    (Kind.apply k).SpelledBy
      [Field.required (SpelledBy callee), Field.required (Field.list (EachSpelledBy arguments))]
  | function name parameters body =>
    Kind.function.SpelledBy
      [Field.name name, Field.required (Field.list (EachSpelledBy parameters)),
        Field.required (SpelledBy body)]
  | pair k left right =>
    (Kind.pair k).SpelledBy [Field.required (SpelledBy left), Field.required (SpelledBy right)]
  | single k value => (Kind.single k).SpelledBy [Field.required (SpelledBy value)]
  | unary o value =>
    Kind.unary.SpelledBy [Field.required (Field.operator o.name), Field.required (SpelledBy value)]
  | update o value =>
    Kind.update.SpelledBy [Field.required (Field.operator o.name), Field.required (SpelledBy value)]
  | binary o left right =>
    Kind.binary.SpelledBy
      [Field.required (Field.operator o.name), OptionSpelledBy left, OptionSpelledBy right]
  | ternary condition left right =>
    Kind.ternary.SpelledBy
      [Field.required (SpelledBy condition), Field.required (SpelledBy left),
        Field.required (SpelledBy right)]
  | returns value => Kind.returns.SpelledBy [OptionSpelledBy value]
  | ifElse condition body otherwise =>
    Kind.ifElse.SpelledBy
      [Field.required (SpelledBy condition), Field.required (SpelledBy body),
        OptionSpelledBy otherwise]
  | forLoop init test step body =>
    Kind.forLoop.SpelledBy
      [OptionSpelledBy init, OptionSpelledBy test, OptionSpelledBy step,
        Field.required (SpelledBy body)]
  | forIn left right body =>
    Kind.forIn.SpelledBy
      [Field.required (SpelledBy left), Field.required (SpelledBy right),
        Field.required (SpelledBy body)]
  | tryCatch body parameter handler finalizer =>
    Kind.tryCatch.SpelledBy
      [Field.required (SpelledBy body), OptionSpelledBy parameter, OptionSpelledBy handler,
        OptionSpelledBy finalizer]

/-- The spellings of the nodes of a list. -/
def EachSpelledBy : List Node → List Json → Prop
  | [] => fun values => values = []
  | n :: rest => fun values => ∃ json more, values = json :: more ∧ SpelledBy n json ∧
      EachSpelledBy rest more

/-- What may stand in the field of a node that may be missing. -/
def OptionSpelledBy : Option Node → Option Json → Prop
  | none => Field.missing
  | some n => Field.required (SpelledBy n)

end

end Node

/-! ## Finding the fields -/

theorem single?_perm {α : Type} {members others : List (String × α)} (h : members.Perm others)
    (key : String) : single? key members = single? key others := by
  have hfilter := h.filter (·.1 == key)
  rw [single?, single?]
  generalize members.filter (·.1 == key) = found at hfilter ⊢
  generalize others.filter (·.1 == key) = found' at hfilter ⊢
  rcases found with _ | ⟨m, _ | ⟨m', rest⟩⟩
  · rw [List.nil_perm.mp hfilter]
  · rw [List.singleton_perm.mp hfilter]
  · -- where one list has more than one member, the other has as many
    rcases found' with _ | ⟨_, _ | _⟩
    · cases hfilter.length_eq
    · cases hfilter.length_eq
    · rfl

theorem single?_of_not_mem {α : Type} {key : String} {members : List (String × α)}
    (h : key ∉ members.map (·.1)) : single? key members = some none := by
  have hfilter : members.filter (·.1 == key) = [] := by
    refine List.filter_eq_nil_iff.mpr fun m hm hkey => h ?_
    rw [← beq_iff_eq.mp hkey]
    exact List.mem_map_of_mem hm
  rw [single?, hfilter]

theorem map_present {α β : Type} (f : α → β) (keys : List String) (values : List (Option α)) :
    (present keys values).map (fun m => (m.1, f m.2))
      = present keys (values.map (Option.map f)) := by
  induction keys generalizing values with
  | nil => cases values <;> rfl
  | cons key keys ih =>
      cases values with
      | nil => rfl
      | cons value values =>
          cases value with
          | none => exact ih values
          | some value => exact congrArg _ (ih values)

theorem present_map_some {α : Type} (keys : List String) (values : List α) :
    present keys (values.map some) = keys.zip values := by
  induction keys generalizing values with
  | nil => cases values <;> rfl
  | cons key keys ih =>
      cases values with
      | nil => rfl
      | cons value values => exact congrArg _ (ih values)

theorem mem_of_mem_keys_present {α : Type} {keys : List String} {values : List (Option α)}
    {key : String} (h : key ∈ (present keys values).map (·.1)) : key ∈ keys := by
  induction keys generalizing values with
  | nil => cases values <;> cases h
  | cons k keys ih =>
      cases values with
      | nil => cases h
      | cons value values =>
          cases value with
          | none => exact List.mem_cons_of_mem k (ih h)
          | some value =>
              rcases List.mem_cons.mp h with rfl | h
              · exact List.mem_cons_self
              · exact List.mem_cons_of_mem k (ih h)

/-- Among members with other keys, keys that stand once each have their values, and those that are
left out have none. -/
theorem mapM_single?_present {α : Type} {keys : List String} (hkeys : keys.Nodup)
    {values : List (Option α)} (hlength : values.length = keys.length)
    {before after : List (String × α)} (hbefore : ∀ key ∈ keys, key ∉ before.map (·.1))
    (hafter : ∀ key ∈ keys, key ∉ after.map (·.1)) :
    keys.mapM (single? · (before ++ (present keys values ++ after))) = some values := by
  induction keys generalizing values before with
  | nil =>
      rw [List.length_eq_zero_iff.mp hlength]
      rfl
  | cons key keys ih =>
      obtain ⟨hkey, hkeys⟩ := List.nodup_cons.mp hkeys
      rw [List.forall_mem_cons] at hbefore hafter
      cases values with
      | nil => cases hlength
      | cons value values =>
          rw [List.length_cons, List.length_cons, Nat.add_right_cancel_iff] at hlength
          have hother : key ∉ (present keys values ++ after).map (·.1) := by
            rw [List.map_append, List.mem_append, not_or]
            exact ⟨fun h => hkey (mem_of_mem_keys_present h), hafter.1⟩
          rw [List.mapM_cons]
          cases value with
          | none =>
              have hnone : key ∉ (before ++ (present keys values ++ after)).map (·.1) := by
                rw [List.map_append, List.mem_append, not_or]
                exact ⟨hbefore.1, hother⟩
              rw [present, single?_of_not_mem hnone, ih hkeys hlength hbefore.2 hafter.2]
              rfl
          | some value =>
              have hrest : keys.mapM (single? · (before ++ [(key, value)]
                  ++ (present keys values ++ after))) = some values := by
                refine ih hkeys hlength (fun k hk => ?_) hafter.2
                rw [List.map_append, List.mem_append, List.map_singleton, List.mem_singleton,
                  not_or]
                have hne : k ≠ key := fun h => hkey (h ▸ hk)
                exact ⟨hbefore.2 k hk, hne⟩
              rw [List.append_assoc, List.singleton_append] at hrest
              rw [present, List.cons_append, single?_append_cons hbefore.1 hother, hrest]
              rfl

/-! ### Members in any order -/

section

variable {α : Type} {k : Kind} {members extra : List (String × α)} {values : List (Option α)}
  {tag : α}

theorem single?_kind_of_perm (hextra : ∀ m ∈ extra, m.1 ≠ "kind" ∧ m.1 ∉ k.fields)
    (hperm : members.Perm (("kind", tag) :: present k.fields values ++ extra)) :
    single? "kind" members = some (some tag) := by
  have hother : "kind" ∉ (present k.fields values ++ extra).map (·.1) := by
    rw [List.map_append, List.mem_append, not_or]
    refine ⟨fun h => Kind.ne_kind_of_mem_fields (mem_of_mem_keys_present h) rfl, fun h => ?_⟩
    obtain ⟨m, hm, hkey⟩ := List.mem_map.mp h
    exact (hextra m hm).1 hkey
  rw [single?_perm hperm]
  have hbefore : "kind" ∉ ([] : List (String × α)).map (·.1) := List.not_mem_nil
  exact single?_append_cons hbefore hother tag

theorem mapM_single?_of_perm (hextra : ∀ m ∈ extra, m.1 ≠ "kind" ∧ m.1 ∉ k.fields)
    (hperm : members.Perm (("kind", tag) :: present k.fields values ++ extra))
    (hlength : values.length = k.fields.length) :
    k.fields.mapM (single? · members) = some values := by
  have hsame : (single? · members)
      = (single? · ([("kind", tag)] ++ (present k.fields values ++ extra))) :=
    funext (single?_perm hperm)
  rw [hsame]
  refine mapM_single?_present k.nodup_fields hlength (fun key hkey => ?_) fun key hkey h => ?_
  · rw [List.map_singleton, List.mem_singleton]
    exact Kind.ne_kind_of_mem_fields hkey
  · obtain ⟨m, hm, rfl⟩ := List.mem_map.mp h
    exact (hextra m hm).2 hkey

end

/-! ## Reading a spelling -/

theorem Reading.ofItems_eq_map (items : List Json) :
    Reading.ofItems items = items.map Reading.of := by
  induction items with
  | nil => rfl
  | cons item items ih => rw [Reading.ofItems, ih, List.map_cons]

namespace Kind.SpelledBy

variable {k : Kind} {fields : List (Option Json → Prop)} {json : Json}

/-- A spelling of a node is read field by field. -/
theorem exists_values (h : k.SpelledBy fields json) (hlength : fields.length = k.fields.length) :
    ∃ values, List.Forall₂ (fun field value => field value) fields values ∧
      (Reading.of json).node = Node.ofFields? k (values.map (Option.map Reading.of)) := by
  cases json with
  | object members =>
      obtain ⟨values, extra, hvalues, hextra, hperm⟩ := h
      refine ⟨values, hvalues, ?_⟩
      have hread : (Reading.ofMembers members).Perm (("kind", Reading.of (.string k.name))
          :: present k.fields (values.map (Option.map Reading.of))
          ++ Reading.ofMembers extra) := by
        have hmap := hperm.map fun m : String × Json => (m.1, Reading.of m.2)
        rwa [List.map_append, List.map_cons, map_present, ← Reading.ofMembers_eq_map,
          ← Reading.ofMembers_eq_map] at hmap
      have hkeys : ∀ m ∈ Reading.ofMembers extra, m.1 ≠ "kind" ∧ m.1 ∉ k.fields := by
        rw [Reading.ofMembers_eq_map, List.forall_mem_map]
        exact hextra
      have hall : (values.map (Option.map Reading.of)).length = k.fields.length := by
        rw [List.length_map, ← hvalues.length_eq, hlength]
      show Node.ofMembers? (Reading.ofMembers members) = _
      rw [Node.ofMembers?, single?_kind_of_perm hkeys hread]
      show (Kind.ofTag? (Reading.of (.string k.name)).json).bind _ = _
      rw [Reading.json_of, Kind.ofTag?, Kind.ofName?_name, Option.bind_some,
        mapM_single?_of_perm hkeys hread hall]
      rfl
  | array items =>
      obtain ⟨values, hvalues, rfl⟩ := h
      refine ⟨values.map some, ?_, ?_⟩
      · rwa [List.forall₂_map_right_iff]
      · have hall : (Reading.ofItems values).length = k.fields.length := by
          rw [Reading.ofItems_eq_map, List.length_map, ← hvalues.length_eq, hlength]
        show (Kind.ofTag? (Reading.of (.string k.name)).json).bind _ = _
        rw [Reading.json_of, Kind.ofTag?, Kind.ofName?_name, Option.bind_some, hall]
        simp only [beq_self_eq_true, guard, if_true, Reading.ofItems_eq_map, List.map_map]
        rfl
  | null | bool | number | string => cases h

/-- A spelling says its kind by name. -/
theorem tag?_eq (h : k.SpelledBy fields json) : tag? json = some (.string k.name) := by
  cases json with
  | object members =>
      obtain ⟨values, extra, _, hextra, hperm⟩ := h
      rw [tag?, single?_kind_of_perm hextra hperm]
      rfl
  | array items =>
      obtain ⟨values, _, rfl⟩ := h
      rfl
  | null | bool | number | string => cases h

theorem isNull_eq (h : k.SpelledBy fields json) : json.isNull = false := by
  cases json with
  | null => cases h
  | _ => rfl

end Kind.SpelledBy

/-! ### What stands in the fields -/

theorem Field.optional?_of_name {name : Option String} {value : Option Json}
    (h : Field.name name value) :
    Reading.optional? Reading.text? (value.map Reading.of) = some name := by
  cases name with
  | none => rcases h with rfl | rfl <;> rfl
  | some s =>
      obtain ⟨_, rfl, rfl⟩ := h
      rfl

theorem Field.operator?_of_operator {name : String} {json : Json} (h : Field.operator name json) :
    (Reading.of json).operator? = some name := by
  rcases h with rfl | rfl <;> rfl

namespace Node

theorem isNull_of_spelledBy {n : Node} {json : Json} (h : n.SpelledBy json) :
    json.isNull = false := by
  cases n <;> rw [SpelledBy] at h <;> exact h.isNull_eq

theorem tag?_of_spelledBy {n : Node} {json : Json} (h : n.SpelledBy json) :
    tag? json = some (.string n.kind.name) := by
  cases n <;> rw [SpelledBy] at h <;> exact h.tag?_eq

mutual

theorem node_of_spelledBy : ∀ (n : Node) (json : Json), n.SpelledBy json →
    (Reading.of json).node = some n
  | leaf k text, json, h => by
      rw [SpelledBy] at h
      obtain ⟨_, _ | ⟨⟨_, rfl, rfl⟩, ⟨⟩⟩, hnode⟩ := h.exists_values rfl
      rw [hnode]
      rfl
  | word w, json, h => by
      rw [SpelledBy] at h
      obtain ⟨_, ⟨⟩, hnode⟩ := h.exists_values rfl
      rw [hnode]
      rfl
  | list k items, json, h => by
      rw [SpelledBy] at h
      obtain ⟨_, _ | ⟨⟨_, rfl, values, rfl, hitems⟩, ⟨⟩⟩, hnode⟩ := h.exists_values rfl
      rw [hnode]
      simp [ofFields?, nodes_of_eachSpelledBy items values hitems]
  | apply k callee arguments, json, h => by
      rw [SpelledBy] at h
      obtain ⟨_, _ | ⟨⟨first, rfl, hcallee⟩, _ | ⟨⟨_, rfl, values, rfl, harguments⟩, ⟨⟩⟩⟩, hnode⟩ :=
        h.exists_values rfl
      rw [hnode]
      simp [ofFields?, node_of_spelledBy callee first hcallee,
        nodes_of_eachSpelledBy arguments values harguments]
  | function name parameters body, json, h => by
      rw [SpelledBy] at h
      obtain ⟨_, _ | ⟨hname, _ | ⟨⟨_, rfl, values, rfl, hparameters⟩, _ | ⟨⟨last, rfl, hbody⟩,
        ⟨⟩⟩⟩⟩, hnode⟩ := h.exists_values rfl
      rw [hnode]
      simp [ofFields?, Field.optional?_of_name hname,
        nodes_of_eachSpelledBy parameters values hparameters, node_of_spelledBy body last hbody]
  | pair k left right, json, h => by
      rw [SpelledBy] at h
      obtain ⟨_, _ | ⟨⟨first, rfl, hleft⟩, _ | ⟨⟨second, rfl, hright⟩, ⟨⟩⟩⟩, hnode⟩ :=
        h.exists_values rfl
      rw [hnode]
      simp [ofFields?, node_of_spelledBy left first hleft, node_of_spelledBy right second hright]
  | single k value, json, h => by
      rw [SpelledBy] at h
      obtain ⟨_, _ | ⟨⟨first, rfl, hvalue⟩, ⟨⟩⟩, hnode⟩ := h.exists_values rfl
      rw [hnode]
      simp [ofFields?, node_of_spelledBy value first hvalue]
  | unary o value, json, h => by
      rw [SpelledBy] at h
      obtain ⟨_, _ | ⟨⟨name, rfl, ho⟩, _ | ⟨⟨second, rfl, hvalue⟩, ⟨⟩⟩⟩, hnode⟩ :=
        h.exists_values rfl
      rw [hnode]
      simp [ofFields?, Field.operator?_of_operator ho, UnaryOperator.ofName?_name,
        node_of_spelledBy value second hvalue]
  | update o value, json, h => by
      rw [SpelledBy] at h
      obtain ⟨_, _ | ⟨⟨name, rfl, ho⟩, _ | ⟨⟨second, rfl, hvalue⟩, ⟨⟩⟩⟩, hnode⟩ :=
        h.exists_values rfl
      rw [hnode]
      simp [ofFields?, Field.operator?_of_operator ho, UpdateOperator.ofName?_name,
        node_of_spelledBy value second hvalue]
  | binary o left right, json, h => by
      rw [SpelledBy] at h
      obtain ⟨_, _ | ⟨⟨name, rfl, ho⟩, _ | ⟨hleft, _ | ⟨hright, ⟨⟩⟩⟩⟩, hnode⟩ :=
        h.exists_values rfl
      rw [hnode]
      simp [ofFields?, Field.operator?_of_operator ho, BinaryOperator.ofName?_name,
        optional?_of_optionSpelledBy left _ hleft, optional?_of_optionSpelledBy right _ hright]
  | ternary condition left right, json, h => by
      rw [SpelledBy] at h
      obtain ⟨_, _ | ⟨⟨first, rfl, hcondition⟩, _ | ⟨⟨second, rfl, hleft⟩, _ | ⟨⟨third, rfl,
        hright⟩, ⟨⟩⟩⟩⟩, hnode⟩ := h.exists_values rfl
      rw [hnode]
      simp [ofFields?, node_of_spelledBy condition first hcondition,
        node_of_spelledBy left second hleft, node_of_spelledBy right third hright]
  | returns value, json, h => by
      rw [SpelledBy] at h
      obtain ⟨_, _ | ⟨hvalue, ⟨⟩⟩, hnode⟩ := h.exists_values rfl
      rw [hnode]
      simp [ofFields?, optional?_of_optionSpelledBy value _ hvalue]
  | ifElse condition body otherwise, json, h => by
      rw [SpelledBy] at h
      obtain ⟨_, _ | ⟨⟨first, rfl, hcondition⟩, _ | ⟨⟨second, rfl, hbody⟩, _ | ⟨hotherwise,
        ⟨⟩⟩⟩⟩, hnode⟩ := h.exists_values rfl
      rw [hnode]
      simp [ofFields?, node_of_spelledBy condition first hcondition,
        node_of_spelledBy body second hbody, optional?_of_optionSpelledBy otherwise _ hotherwise]
  | forLoop init test step body, json, h => by
      rw [SpelledBy] at h
      obtain ⟨_, _ | ⟨hinit, _ | ⟨htest, _ | ⟨hstep, _ | ⟨⟨last, rfl, hbody⟩, ⟨⟩⟩⟩⟩⟩, hnode⟩ :=
        h.exists_values rfl
      rw [hnode]
      simp [ofFields?, optional?_of_optionSpelledBy init _ hinit,
        optional?_of_optionSpelledBy test _ htest, optional?_of_optionSpelledBy step _ hstep,
        node_of_spelledBy body last hbody]
  | forIn left right body, json, h => by
      rw [SpelledBy] at h
      obtain ⟨_, _ | ⟨⟨first, rfl, hleft⟩, _ | ⟨⟨second, rfl, hright⟩, _ | ⟨⟨third, rfl, hbody⟩,
        ⟨⟩⟩⟩⟩, hnode⟩ := h.exists_values rfl
      rw [hnode]
      simp [ofFields?, node_of_spelledBy left first hleft, node_of_spelledBy right second hright,
        node_of_spelledBy body third hbody]
  | tryCatch body parameter handler finalizer, json, h => by
      rw [SpelledBy] at h
      obtain ⟨_, _ | ⟨⟨first, rfl, hbody⟩, _ | ⟨hparameter, _ | ⟨hhandler, _ | ⟨hfinalizer,
        ⟨⟩⟩⟩⟩⟩, hnode⟩ := h.exists_values rfl
      rw [hnode]
      simp [ofFields?, node_of_spelledBy body first hbody,
        optional?_of_optionSpelledBy parameter _ hparameter,
        optional?_of_optionSpelledBy handler _ hhandler,
        optional?_of_optionSpelledBy finalizer _ hfinalizer]

theorem nodes_of_eachSpelledBy : ∀ (items : List Node) (values : List Json),
    EachSpelledBy items values → (Reading.of (.array values)).nodes = some items
  | [], values, h => by
      rw [EachSpelledBy] at h
      subst h
      rfl
  | n :: rest, values, h => by
      rw [EachSpelledBy] at h
      obtain ⟨json, more, rfl, hn, hrest⟩ := h
      have hmore : (Reading.ofItems more).mapM Reading.node = some rest :=
        nodes_of_eachSpelledBy rest more hrest
      show (Reading.ofItems (json :: more)).mapM Reading.node = _
      rw [Reading.ofItems, List.mapM_cons, node_of_spelledBy n json hn, hmore]
      rfl

theorem optional?_of_optionSpelledBy : ∀ (o : Option Node) (value : Option Json),
    OptionSpelledBy o value →
      Reading.optional? Reading.node (value.map Reading.of) = some o
  | none, value, h => by
      rw [OptionSpelledBy] at h
      rcases h with rfl | rfl <;> rfl
  | some n, value, h => by
      rw [OptionSpelledBy] at h
      obtain ⟨json, rfl, hn⟩ := h
      rw [Option.map_some, Reading.optional?, Reading.json_of, isNull_of_spelledBy hn,
        if_neg (by decide), node_of_spelledBy n json hn]
      rfl

end

/-! ### Writing is a spelling -/

theorem spelledBy_wrap {k : Kind} {fields : List (Option Json → Prop)} {values : List Json}
    (h : List.Forall₂ (fun field value => field (some value)) fields values) :
    k.SpelledBy fields (k.wrap values) := by
  refine ⟨values.map some, [], ?_, List.forall_mem_nil _, ?_⟩
  · rwa [List.forall₂_map_right_iff]
  · rw [present_map_some, List.append_nil]

theorem name_encodeName (name : Option String) : Field.name name (some (encodeName name)) := by
  cases name with
  | none => exact .inr rfl
  | some s => exact ⟨_, rfl, rfl⟩

mutual

/-- The JSON that a tree is written as is one of its spellings. -/
theorem spelledBy_encode : ∀ n : Node, n.SpelledBy n.encode
  | leaf k text => by
      rw [SpelledBy, encode]
      exact spelledBy_wrap (.cons ⟨_, rfl, rfl⟩ .nil)
  | word w => by
      rw [SpelledBy, encode]
      exact spelledBy_wrap .nil
  | list k items => by
      rw [SpelledBy, encode]
      exact spelledBy_wrap (.cons ⟨_, rfl, _, rfl, eachSpelledBy_encodeAll items⟩ .nil)
  | apply k callee arguments => by
      rw [SpelledBy, encode]
      exact spelledBy_wrap (.cons ⟨_, rfl, spelledBy_encode callee⟩
        (.cons ⟨_, rfl, _, rfl, eachSpelledBy_encodeAll arguments⟩ .nil))
  | function name parameters body => by
      rw [SpelledBy, encode]
      exact spelledBy_wrap (.cons (name_encodeName name)
        (.cons ⟨_, rfl, _, rfl, eachSpelledBy_encodeAll parameters⟩
          (.cons ⟨_, rfl, spelledBy_encode body⟩ .nil)))
  | pair k left right => by
      rw [SpelledBy, encode]
      exact spelledBy_wrap (.cons ⟨_, rfl, spelledBy_encode left⟩
        (.cons ⟨_, rfl, spelledBy_encode right⟩ .nil))
  | single k value => by
      rw [SpelledBy, encode]
      exact spelledBy_wrap (.cons ⟨_, rfl, spelledBy_encode value⟩ .nil)
  | unary o value => by
      rw [SpelledBy, encode]
      exact spelledBy_wrap (.cons ⟨_, rfl, .inl rfl⟩
        (.cons ⟨_, rfl, spelledBy_encode value⟩ .nil))
  | update o value => by
      rw [SpelledBy, encode]
      exact spelledBy_wrap (.cons ⟨_, rfl, .inl rfl⟩
        (.cons ⟨_, rfl, spelledBy_encode value⟩ .nil))
  | binary o left right => by
      rw [SpelledBy, encode]
      exact spelledBy_wrap (.cons ⟨_, rfl, .inl rfl⟩ (.cons (optionSpelledBy_encodeOption left)
        (.cons (optionSpelledBy_encodeOption right) .nil)))
  | ternary condition left right => by
      rw [SpelledBy, encode]
      exact spelledBy_wrap (.cons ⟨_, rfl, spelledBy_encode condition⟩
        (.cons ⟨_, rfl, spelledBy_encode left⟩ (.cons ⟨_, rfl, spelledBy_encode right⟩ .nil)))
  | returns value => by
      rw [SpelledBy, encode]
      exact spelledBy_wrap (.cons (optionSpelledBy_encodeOption value) .nil)
  | ifElse condition body otherwise => by
      rw [SpelledBy, encode]
      exact spelledBy_wrap (.cons ⟨_, rfl, spelledBy_encode condition⟩
        (.cons ⟨_, rfl, spelledBy_encode body⟩
          (.cons (optionSpelledBy_encodeOption otherwise) .nil)))
  | forLoop init test step body => by
      rw [SpelledBy, encode]
      exact spelledBy_wrap (.cons (optionSpelledBy_encodeOption init)
        (.cons (optionSpelledBy_encodeOption test) (.cons (optionSpelledBy_encodeOption step)
          (.cons ⟨_, rfl, spelledBy_encode body⟩ .nil))))
  | forIn left right body => by
      rw [SpelledBy, encode]
      exact spelledBy_wrap (.cons ⟨_, rfl, spelledBy_encode left⟩
        (.cons ⟨_, rfl, spelledBy_encode right⟩ (.cons ⟨_, rfl, spelledBy_encode body⟩ .nil)))
  | tryCatch body parameter handler finalizer => by
      rw [SpelledBy, encode]
      exact spelledBy_wrap (.cons ⟨_, rfl, spelledBy_encode body⟩
        (.cons (optionSpelledBy_encodeOption parameter)
          (.cons (optionSpelledBy_encodeOption handler)
            (.cons (optionSpelledBy_encodeOption finalizer) .nil))))

theorem eachSpelledBy_encodeAll : ∀ items : List Node, EachSpelledBy items (encodeAll items)
  | [] => by
      rw [EachSpelledBy, encodeAll]
  | n :: rest => by
      rw [EachSpelledBy, encodeAll]
      exact ⟨_, _, rfl, spelledBy_encode n, eachSpelledBy_encodeAll rest⟩

theorem optionSpelledBy_encodeOption : ∀ o : Option Node,
    OptionSpelledBy o (some (encodeOption o))
  | none => by
      rw [OptionSpelledBy]
      exact .inr rfl
  | some n => by
      rw [OptionSpelledBy]
      exact ⟨_, rfl, spelledBy_encode n⟩

end

/-- Every spelling of a tree is read as the tree. -/
theorem decode?_of_spelledBy {n : Node} {json : Json} (h : n.SpelledBy json) :
    decode? json = some n := by
  rw [decode?, tag?_of_spelledBy h, node_of_spelledBy n json h]
  rfl

/-- A function that returns nothing: its members out of order, its name left out, its body an array,
and in the return a member too many and the value left out. -/
def plainFunction : Json :=
  .object [("body", .array [.string "SourceElements", .array [.object [("line", .bool true),
    ("kind", .string "Return")]]]), ("kind", .string "Function"), ("arguments", .array [])]

theorem plainFunction_spelling :
    (function none [] (program [returns none])).SpelledBy plainFunction := by
  have hreturn : SpelledBy (returns none)
      (.object [("line", .bool true), ("kind", .string "Return")]) := by
    rw [SpelledBy]
    exact ⟨[none], [("line", .bool true)], .cons (.inl rfl) .nil, by decide, .swap _ _ _⟩
  have hbody : SpelledBy (program [returns none]) (.array [.string "SourceElements", .array [.object
      [("line", .bool true), ("kind", .string "Return")]]]) := by
    rw [program, SpelledBy]
    exact ⟨_, .cons ⟨_, rfl, _, rfl, _, _, rfl, hreturn, rfl⟩ .nil, rfl⟩
  rw [SpelledBy]
  exact ⟨[none, some (.array []), some _], [], .cons (.inl rfl) (.cons ⟨_, rfl, _, rfl, rfl⟩
    (.cons ⟨_, rfl, hbody⟩ .nil)), List.forall_mem_nil _, (List.perm_append_singleton _ _).symm⟩

/-- An operator may be an object. -/
theorem decode?_negated_plainFunction :
    (unary .negate (function none [] (program [returns none]))).SpelledBy
        (.object [("value", plainFunction), ("kind", .string "Unary"),
          ("operator", .object [("Negate", .null)])]) ∧
      decode? (.object [("value", plainFunction), ("kind", .string "Unary"),
        ("operator", .object [("Negate", .null)])])
        = some (unary .negate (function none [] (program [returns none]))) := by
  have h : (unary .negate (function none [] (program [returns none]))).SpelledBy
      (.object [("value", plainFunction), ("kind", .string "Unary"),
        ("operator", .object [("Negate", .null)])]) := by
    rw [SpelledBy]
    exact ⟨[some (.object [("Negate", .null)]), some plainFunction], [],
      .cons ⟨_, rfl, .inr rfl⟩ (.cons ⟨_, rfl, plainFunction_spelling⟩ .nil),
      List.forall_mem_nil _, (List.perm_append_singleton _ _).symm⟩
  exact ⟨h, decode?_of_spelledBy h⟩

end Node

end ScriptHost.Tree
