import ScriptHost.Proofs.Json.Compact
import ScriptHost.Tree.Encoding

/-!
# Reading back the JSON of a tree

Main statement: the JSON text of a tree is read as the tree (`Node.decode?_parse?_toJson`). Two
facts meet in it. The text is read as the JSON value it was made from, because the values of trees
hold no numbers (`Node.isSpelled_encode`); and decoding undoes encoding (`Node.decode?_encode`),
because among the keys of a node each field of its kind stands once, and so does the kind.
-/

set_option autoImplicit false

namespace ScriptHost.Tree

/-! ## Keys -/

/-- A key that stands at one place only. -/
theorem single?_append_cons {α : Type} {key : String} {before after : List (String × α)}
    (hbefore : key ∉ before.map (·.1)) (hafter : key ∉ after.map (·.1)) (value : α) :
    single? key (before ++ (key, value) :: after) = some (some value) := by
  have hnone : ∀ members : List (String × α), key ∉ members.map (·.1) →
      members.filter (·.1 == key) = [] := by
    intro members hmembers
    refine List.filter_eq_nil_iff.mpr fun m hm => ?_
    rw [beq_iff_eq]
    exact fun h => hmembers (h ▸ List.mem_map_of_mem hm)
  have hfilter : (before ++ (key, value) :: after).filter (·.1 == key) = [(key, value)] := by
    rw [List.filter_append, List.filter_cons, hnone before hbefore, hnone after hafter,
      beq_self_eq_true, if_pos rfl, List.nil_append]
  rw [single?, hfilter]

/-- Keys that stand once each, in front of their values, have these values. -/
theorem mapM_single?_zip {α : Type} {keys : List String} (hkeys : keys.Nodup) {values : List α}
    (hlength : values.length = keys.length) {before : List (String × α)}
    (hbefore : ∀ key ∈ keys, key ∉ before.map (·.1)) :
    keys.mapM (single? · (before ++ keys.zip values)) = some (values.map some) := by
  induction keys generalizing values before with
  | nil =>
      rw [List.length_eq_zero_iff.mp hlength]
      rfl
  | cons key keys ih =>
      obtain ⟨hkey, hkeys⟩ := List.nodup_cons.mp hkeys
      cases values with
      | nil => cases hlength
      | cons value values =>
          have hlength : values.length = keys.length := Nat.succ.inj hlength
          have hafter : key ∉ (keys.zip values).map (·.1) := by
            rw [List.map_fst_zip (Nat.le_of_eq hlength.symm)]
            exact hkey
          have hfirst : single? key (before ++ (key, value) :: keys.zip values)
              = some (some value) :=
            single?_append_cons (hbefore key List.mem_cons_self) hafter value
          have hrest : keys.mapM (single? · (before ++ [(key, value)] ++ keys.zip values))
              = some (values.map some) := by
            refine ih hkeys hlength fun other hother => ?_
            rw [List.map_append, List.mem_append, List.map_singleton, List.mem_singleton, not_or]
            have hne : other ≠ key := fun h => hkey (h ▸ hother)
            exact ⟨hbefore other (List.mem_cons_of_mem key hother), hne⟩
          rw [List.append_assoc, List.singleton_append] at hrest
          rw [List.zip_cons_cons, List.mapM_cons, hfirst, hrest]
          rfl

theorem Kind.nodup_fields : ∀ k : Kind, k.fields.Nodup
  | .leaf _ | .word _ | .list _ | .apply _ | .function | .pair _ | .single _ | .unary | .update
  | .binary | .ternary | .returns | .ifElse | .forLoop | .forIn | .tryCatch => by
    simp only [fields]
    decide

theorem Kind.ne_kind_of_mem_fields {k : Kind} {key : String} (h : key ∈ k.fields) :
    key ≠ "kind" := by
  rintro rfl
  revert h
  cases k <;> simp only [fields] <;> decide

/-! ## Readings -/

@[simp] theorem Reading.json_of (json : Json) : (Reading.of json).json = json := by
  cases json <;> rfl

theorem Reading.ofMembers_eq_map (members : List (String × Json)) :
    Reading.ofMembers members = members.map fun m => (m.1, Reading.of m.2) := by
  induction members with
  | nil => rfl
  | cons m members ih => rw [Reading.ofMembers, ih, List.map_cons]

/-- The fields of a kind stand behind the kind, which is found in front of them. -/
theorem single?_kind {α : Type} {k : Kind} {values : List α} (h : values.length = k.fields.length)
    (tag : α) : single? "kind" (("kind", tag) :: k.fields.zip values) = some (some tag) := by
  have hother : "kind" ∉ (k.fields.zip values).map (·.1) := by
    rw [List.map_fst_zip (Nat.le_of_eq h.symm)]
    exact fun hmem => Kind.ne_kind_of_mem_fields hmem rfl
  have hbefore : "kind" ∉ ([] : List (String × α)).map (·.1) := List.not_mem_nil
  exact single?_append_cons hbefore hother tag

/-- An object with the keys of a kind is read field by field. -/
theorem Reading.node_wrap (k : Kind) {values : List Json} (h : values.length = k.fields.length) :
    (Reading.of (k.wrap values)).node
      = Node.ofFields? k ((values.map Reading.of).map some) := by
  have hlength : (values.map Reading.of).length = k.fields.length := by rw [List.length_map, h]
  have hmembers : Reading.ofMembers (("kind", .string k.name) :: k.fields.zip values)
      = ("kind", Reading.of (.string k.name)) :: k.fields.zip (values.map Reading.of) := by
    rw [ofMembers_eq_map, List.map_cons, List.zip_map_right]
    rfl
  have hfields : k.fields.mapM (single? · ([("kind", Reading.of (.string k.name))]
      ++ k.fields.zip (values.map Reading.of))) = some ((values.map Reading.of).map some) := by
    refine mapM_single?_zip k.nodup_fields hlength fun key hkey => ?_
    rw [List.map_singleton, List.mem_singleton]
    exact Kind.ne_kind_of_mem_fields hkey
  rw [List.singleton_append] at hfields
  show Node.ofMembers? (Reading.ofMembers (("kind", .string k.name) :: k.fields.zip values)) = _
  rw [hmembers, Node.ofMembers?, single?_kind hlength]
  show (Kind.ofTag? (Reading.of (.string k.name)).json).bind _ = _
  rw [json_of, Kind.ofTag?, Kind.ofName?_name, Option.bind_some, hfields]
  rfl

@[simp] theorem Reading.text?_of_string (text : String) :
    (Reading.of (.string text)).text? = some text := rfl

@[simp] theorem Reading.operator?_of_string (name : String) :
    (Reading.of (.string name)).operator? = some name := rfl

/-! ## Decoding undoes encoding -/

namespace Node

theorem optional?_of_encodeName (name : Option String) :
    Reading.optional? Reading.text? (some (Reading.of (encodeName name))) = some name := by
  cases name <;> rfl

/-- A node is written as an object with its kind and then the fields of the kind. -/
theorem exists_encode_eq_wrap (n : Node) :
    ∃ values, values.length = n.kind.fields.length ∧ n.encode = n.kind.wrap values := by
  cases n <;> exact ⟨_, rfl, by rw [encode]; rfl⟩

theorem isNull_encode (n : Node) : n.encode.isNull = false := by
  obtain ⟨values, _, hn⟩ := n.exists_encode_eq_wrap
  rw [hn]
  rfl

mutual

theorem node_of_encode : ∀ n : Node, (Reading.of n.encode).node = some n
  | leaf k text => by
      rw [encode, Reading.node_wrap _ rfl]
      simp [ofFields?]
  | word w => by
      rw [encode, Reading.node_wrap _ rfl]
      simp [ofFields?]
  | list k items => by
      rw [encode, Reading.node_wrap _ rfl]
      simp [ofFields?, nodes_of_encodeAll items]
  | apply k callee arguments => by
      rw [encode, Reading.node_wrap _ rfl]
      simp [ofFields?, node_of_encode callee, nodes_of_encodeAll arguments]
  | function name parameters body => by
      rw [encode, Reading.node_wrap _ rfl]
      simp [ofFields?, optional?_of_encodeName, nodes_of_encodeAll parameters, node_of_encode body]
  | pair k left right => by
      rw [encode, Reading.node_wrap _ rfl]
      simp [ofFields?, node_of_encode left, node_of_encode right]
  | single k value => by
      rw [encode, Reading.node_wrap _ rfl]
      simp [ofFields?, node_of_encode value]
  | unary o value => by
      rw [encode, Reading.node_wrap _ rfl]
      simp [ofFields?, UnaryOperator.ofName?_name, node_of_encode value]
  | update o value => by
      rw [encode, Reading.node_wrap _ rfl]
      simp [ofFields?, UpdateOperator.ofName?_name, node_of_encode value]
  | binary o left right => by
      rw [encode, Reading.node_wrap _ rfl]
      simp [ofFields?, BinaryOperator.ofName?_name, optional?_of_encodeOption left,
        optional?_of_encodeOption right]
  | ternary condition left right => by
      rw [encode, Reading.node_wrap _ rfl]
      simp [ofFields?, node_of_encode condition, node_of_encode left, node_of_encode right]
  | returns value => by
      rw [encode, Reading.node_wrap _ rfl]
      simp [ofFields?, optional?_of_encodeOption value]
  | ifElse condition body otherwise => by
      rw [encode, Reading.node_wrap _ rfl]
      simp [ofFields?, node_of_encode condition, node_of_encode body,
        optional?_of_encodeOption otherwise]
  | forLoop init test step body => by
      rw [encode, Reading.node_wrap _ rfl]
      simp [ofFields?, optional?_of_encodeOption init, optional?_of_encodeOption test,
        optional?_of_encodeOption step, node_of_encode body]
  | forIn left right body => by
      rw [encode, Reading.node_wrap _ rfl]
      simp [ofFields?, node_of_encode left, node_of_encode right, node_of_encode body]
  | tryCatch body parameter handler finalizer => by
      rw [encode, Reading.node_wrap _ rfl]
      simp [ofFields?, node_of_encode body, optional?_of_encodeOption parameter,
        optional?_of_encodeOption handler, optional?_of_encodeOption finalizer]

theorem nodes_of_encodeAll : ∀ items : List Node,
    (Reading.of (.array (encodeAll items))).nodes = some items
  | [] => rfl
  | n :: rest => by
      have hrest : (Reading.ofItems (encodeAll rest)).mapM Reading.node = some rest :=
        nodes_of_encodeAll rest
      show (Reading.ofItems (encode n :: encodeAll rest)).mapM Reading.node = _
      rw [Reading.ofItems, List.mapM_cons, node_of_encode n, hrest]
      rfl

theorem optional?_of_encodeOption : ∀ o : Option Node,
    Reading.optional? Reading.node (some (Reading.of (encodeOption o))) = some o
  | none => rfl
  | some n => by
      rw [encodeOption, Reading.optional?, Reading.json_of, isNull_encode, if_neg (by decide),
        node_of_encode n]
      rfl

end

/-- Decoding undoes encoding. -/
theorem decode?_encode (n : Node) : decode? n.encode = some n := by
  have htag : tag? n.encode = some (.string n.kind.name) := by
    obtain ⟨values, hlength, hn⟩ := n.exists_encode_eq_wrap
    rw [hn]
    show (single? "kind" (("kind", Json.string n.kind.name) :: n.kind.fields.zip values)).join = _
    rw [single?_kind hlength]
    rfl
  rw [decode?, htag, node_of_encode]
  rfl

/-! ## The text of a tree -/

theorem membersAreSpelled_zip (keys : List String) {values : List Json}
    (h : Json.AreSpelled values) : Json.MembersAreSpelled (keys.zip values) := by
  induction keys generalizing values with
  | nil => trivial
  | cons key keys ih =>
      cases values with
      | nil => trivial
      | cons value values => exact ⟨h.1, ih h.2⟩

theorem isSpelled_wrap (k : Kind) {values : List Json} (h : Json.AreSpelled values) :
    (k.wrap values).IsSpelled :=
  ⟨trivial, membersAreSpelled_zip k.fields h⟩

theorem isSpelled_encodeName (name : Option String) : (encodeName name).IsSpelled := by
  cases name <;> trivial

mutual

/-- The JSON of a tree holds no number. -/
theorem isSpelled_encode : ∀ n : Node, n.encode.IsSpelled
  | leaf k text => by
      rw [encode]
      exact isSpelled_wrap _ ⟨trivial, trivial⟩
  | word w => by
      rw [encode]
      exact isSpelled_wrap _ trivial
  | list k items => by
      rw [encode]
      exact isSpelled_wrap _ ⟨areSpelled_encodeAll items, trivial⟩
  | apply k callee arguments => by
      rw [encode]
      exact isSpelled_wrap _ ⟨isSpelled_encode callee, areSpelled_encodeAll arguments, trivial⟩
  | function name parameters body => by
      rw [encode]
      exact isSpelled_wrap _ ⟨isSpelled_encodeName name, areSpelled_encodeAll parameters,
        isSpelled_encode body, trivial⟩
  | pair k left right => by
      rw [encode]
      exact isSpelled_wrap _ ⟨isSpelled_encode left, isSpelled_encode right, trivial⟩
  | single k value => by
      rw [encode]
      exact isSpelled_wrap _ ⟨isSpelled_encode value, trivial⟩
  | unary o value => by
      rw [encode]
      exact isSpelled_wrap _ ⟨trivial, isSpelled_encode value, trivial⟩
  | update o value => by
      rw [encode]
      exact isSpelled_wrap _ ⟨trivial, isSpelled_encode value, trivial⟩
  | binary o left right => by
      rw [encode]
      exact isSpelled_wrap _ ⟨trivial, isSpelled_encodeOption left, isSpelled_encodeOption right,
        trivial⟩
  | ternary condition left right => by
      rw [encode]
      exact isSpelled_wrap _ ⟨isSpelled_encode condition, isSpelled_encode left,
        isSpelled_encode right, trivial⟩
  | returns value => by
      rw [encode]
      exact isSpelled_wrap _ ⟨isSpelled_encodeOption value, trivial⟩
  | ifElse condition body otherwise => by
      rw [encode]
      exact isSpelled_wrap _ ⟨isSpelled_encode condition, isSpelled_encode body,
        isSpelled_encodeOption otherwise, trivial⟩
  | forLoop init test step body => by
      rw [encode]
      exact isSpelled_wrap _ ⟨isSpelled_encodeOption init, isSpelled_encodeOption test,
        isSpelled_encodeOption step, isSpelled_encode body, trivial⟩
  | forIn left right body => by
      rw [encode]
      exact isSpelled_wrap _ ⟨isSpelled_encode left, isSpelled_encode right, isSpelled_encode body,
        trivial⟩
  | tryCatch body parameter handler finalizer => by
      rw [encode]
      exact isSpelled_wrap _ ⟨isSpelled_encode body, isSpelled_encodeOption parameter,
        isSpelled_encodeOption handler, isSpelled_encodeOption finalizer, trivial⟩

theorem areSpelled_encodeAll : ∀ items : List Node, Json.AreSpelled (encodeAll items)
  | [] => trivial
  | n :: rest => ⟨isSpelled_encode n, areSpelled_encodeAll rest⟩

theorem isSpelled_encodeOption : ∀ o : Option Node, (encodeOption o).IsSpelled
  | none => trivial
  | some n => isSpelled_encode n

end

/-- The JSON text of a tree is read as the JSON of the tree. -/
theorem parse?_toJson (n : Node) : Json.parse? n.toJson = some n.encode :=
  Json.parse?_compact n.isSpelled_encode

/-- Reading the JSON text of a tree, without a limit to its nesting, gives the tree. -/
theorem decode?_parse?_toJson (n : Node) : (Json.parse? n.toJson).bind decode? = some n := by
  rw [parse?_toJson, Option.bind_some, decode?_encode]

end Node

end ScriptHost.Tree
