import ScriptHost.Host.Sequence
import ScriptHost.Proofs.Host.Assignment
import ScriptHost.Proofs.Host.Iteration
import ScriptHost.Proofs.Host.Results
import ScriptHost.Proofs.Host.Shadowing

/-!
# Functions that stand for members

A script gets a function for a member of a record in three ways (`Store.Obtains`): it reads the
member, it iterates over the record, or it makes the record a sequence. A method comes out as a
new function that is bound to the record and goes through the record when it is called; a property
that holds a function comes out as that function.

Main statement: whichever way a function was obtained, calling it agrees with calling the member
and with touching it, and a function that is bound goes on to agree with a call of the member
whatever is written to the record (`Store.IsRecord.routesAgree`).
-/

set_option autoImplicit false

namespace ScriptHost

/-! ## Ways to a function -/

/-- In the first store a function for a member of an object can be obtained, which leads to the
second store. -/
inductive Store.Obtains (s : Store) (o : ObjectId) (name : String) : FunctionId → Store → Prop
  /-- The member is read. -/
  | read {f : FunctionId} {s' : Store} (h : (member o name).Returns s (.ok (.function f)) s') :
      Obtains s o name f s'
  /-- An iteration over the object, with values, makes the step past the name. -/
  | step {cur cur' : Cursor} {symbol : SymbolId} {f : FunctionId} {s' : Store}
      (hsource : cur.source = some o) (hnext : cur.names[cur.position]? = some symbol)
      (htext : s.symbolText symbol = name)
      (h : cur.advance.Returns s (.ok (some (.pair symbol (.function f))), cur') s') :
      Obtains s o name f s'
  /-- The object is made a sequence, in which the function stands with the name. -/
  | sequence {vs : List Value} {f : FunctionId} {s' : Store}
      (h : (toSequence (.object o)).run.Returns s (.ok vs) s')
      (hmem : Value.array [.string name, .function f] ∈ vs) : Obtains s o name f s'

/-- Every way leads to a function for a member of an object. -/
structure Store.GivesFunction (s : Store) (o : ObjectId) (name : String) : Prop where
  read : ∃ f s', (member o name).Returns s (.ok (.function f)) s'
  step {cur : Cursor} (hsource : cur.source = some o) {symbol : SymbolId}
    (hnext : cur.names[cur.position]? = some symbol) (htext : s.symbolText symbol = name) :
    ∃ f s', cur.advance.Returns s (.ok (some (.pair symbol (.function f))), cur.passed) s'
  /-- An iteration that is begun now, and not disturbed, comes to the name. -/
  reached (t : TableId) : ∃ c₀ s₀ results cur s' symbol,
    (Cursor.begin t (.object o) false).Returns s c₀ s₀ ∧ c₀.Follows s₀ results cur s'
      ∧ s'.objects = s.objects ∧ cur.source = some o
      ∧ cur.names[cur.position]? = some symbol ∧ s'.symbolText symbol = name
  /-- The name stands in the sequence, and each time with a function. -/
  sequence : ∃ vs s', (toSequence (.object o)).run.Returns s (.ok vs) s'
    ∧ (∃ f, Value.array [.string name, .function f] ∈ vs)
    ∧ ∀ value, Value.array [.string name, value] ∈ vs → ∃ f, value = .function f

/-- Calling a function agrees with calling a member of an object, and with touching the member with
arguments, or without any if it is a method. -/
structure Store.CallsMember (s : Store) (o : ObjectId) (name : String) (f : FunctionId) :
    Prop where
  call (arguments : List Value) :
    (Program.run (.call f arguments)).Agree (.run (.operate o (.callMethod name arguments))) s
  dispatch {arguments : List Value} {block : Option FunctionId}
    (h : withBlock arguments block ≠ [] ∨ (s.profile o).memberKind name = some .function) :
    (Program.run (.call f (withBlock arguments block))).Agree
      (dispatch o name arguments block).run s

/-- From a store on, a function stands for a member of a record with some data: all calls agree as
long as the record has the data, and if the member is a method, calling the function agrees with
calling the member in any store from then on. -/
structure Store.StandsFor (s : Store) (o : ObjectId) (c : Class) (d : Data) (name : String)
    (f : FunctionId) : Prop where
  callsMember {log : List Entry} {s' : Store} (h : s.Evolves log s') (hrecord : s'.IsRecord o c d) :
    s'.CallsMember o name f
  call_later (hkind : c.memberKind d name = some .function) {log : List Entry} {s' : Store}
    (h : s.Evolves log s') (arguments : List Value) :
    (Program.run (.call f arguments)).Agree (.run (.operate o (.callMethod name arguments))) s'

/-! ## What a member reads as -/

/-- What a member of a record can read as in a store: a property as its value, a method as a
function that is bound to it, and anything else as undefined. -/
def Class.ReadsAs (c : Class) (d : Data) (s : Store) (o : ObjectId) (name : String)
    (value : Value) : Prop :=
  match c.memberKind d name with
  | some .data => value = (c.property? d name).getD .undefined
  | some .function =>
    ∃ f, value = .function f ∧ s.functions[f.index]? = some (Store.boundMethod o name)
  | none => value = .undefined

namespace Class.ReadsAs

variable {c : Class} {d : Data} {s s' : Store} {o : ObjectId} {name : String} {value : Value}
  {f : FunctionId}

/-- What was read stays right. -/
theorem evolves (h : c.ReadsAs d s o name value) {log : List Entry} (hs : s.Evolves log s') :
    c.ReadsAs d s' o name value := by
  unfold ReadsAs at h ⊢
  split at h
  · exact h
  · obtain ⟨f, hvalue, hf⟩ := h
    exact ⟨f, hvalue, hs.getElem?_functions hf⟩
  · exact h

/-- A member that reads as a function is a property that holds it, or a method that it is bound
to. -/
theorem function_cases (h : c.ReadsAs d s o name (.function f)) :
    c.memberKind d name = some .data ∧ c.property? d name = some (.function f)
      ∨ c.memberKind d name = some .function
        ∧ s.functions[f.index]? = some (Store.boundMethod o name) := by
  unfold ReadsAs at h
  split at h
  · rename_i hkind
    cases hproperty : c.property? d name with
    | none =>
        rw [hproperty] at h
        cases h
    | some value =>
        rw [hproperty] at h
        exact .inl ⟨hkind, congrArg some h.symm⟩
  · rename_i hkind
    obtain ⟨g, hg, hf⟩ := h
    cases hg
    exact .inr ⟨hkind, hf⟩
  · cases h

theorem memberKind_ne_none (h : c.ReadsAs d s o name (.function f)) :
    c.memberKind d name ≠ none := by
  intro hnone
  rw [ReadsAs, hnone] at h
  cases h

/-- A member that reads as a function does so in every store in which the record has the data. -/
theorem exists_function (h : c.ReadsAs d s o name (.function f))
    (h' : c.ReadsAs d s' o name value) : ∃ g, value = .function g := by
  unfold ReadsAs at h'
  rcases h.function_cases with ⟨hkind, hproperty⟩ | ⟨hkind, _⟩
  · rw [hkind, hproperty] at h'
    exact ⟨f, h'⟩
  · rw [hkind] at h'
    obtain ⟨g, hg, _⟩ := h'
    exact ⟨g, hg⟩

end Class.ReadsAs

/-! ## Calls -/

section Calls

variable {c : Class} {d : Data} {s : Store} {o : ObjectId} {name : String} {f : FunctionId}

/-- Calling a bound function agrees with calling the method. -/
theorem Store.agree_call_bound (h : s.functions[f.index]? = some (boundMethod o name))
    (arguments : List Value) :
    (Program.run (.call f arguments)).Agree (.run (.operate o (.callMethod name arguments))) s := by
  refine Program.agree_run (e := .call f arguments) ?_
  rw [start, function, h]
  rfl

/-- Calling a function that a property holds agrees with calling the property. -/
theorem Store.IsRecord.agree_call_property (h : s.IsRecord o c d)
    (hproperty : c.property? d name = some (.function f)) (arguments : List Value) :
    (Program.run (.call f arguments)).Agree (.run (.operate o (.callMethod name arguments))) s := by
  have hcall := h.start_callMethod name arguments
  rw [Class.callMember, hproperty] at hcall
  exact (Program.agree_run hcall).symm

theorem Class.ReadsAs.callsMember (hread : c.ReadsAs d s o name (.function f))
    (h : s.IsRecord o c d) (hname : assigned? name = none) : s.CallsMember o name f := by
  have hcall : ∀ arguments, (Program.run (.call f arguments)).Agree
      (.run (.operate o (.callMethod name arguments))) s := by
    rcases hread.function_cases with ⟨_, hproperty⟩ | ⟨_, hf⟩
    · exact h.agree_call_property hproperty
    · exact Store.agree_call_bound hf
  have hkind : (s.profile o).memberKind name = some .data
      ∨ (s.profile o).memberKind name = some .function := by
    rw [h.memberKind_eq]
    exact hread.function_cases.imp And.left And.left
  refine ⟨hcall, ?_⟩
  intro arguments block harguments
  have htouch : (s.profile o).memberKind name = some .function
      ∨ (s.profile o).memberKind name = some .data ∧ withBlock arguments block ≠ [] := by
    rcases hkind with hdata | hfunction
    · exact harguments.symm.imp_right fun h => ⟨hdata, h⟩
    · exact .inl hfunction
  exact (hcall _).trans
    (Program.agree_of_runIn_eq fun depth => (dispatch_runIn_of_call hname htouch depth).symm)

theorem Class.ReadsAs.standsFor (hread : c.ReadsAs d s o name (.function f))
    (hname : assigned? name = none) : s.StandsFor o c d name f where
  callsMember := fun h hrecord => (hread.evolves h).callsMember hrecord hname
  call_later := by
    intro hkind log s' h arguments
    rcases hread.function_cases with ⟨hdata, _⟩ | ⟨_, hf⟩
    · rw [hkind] at hdata
      cases hdata
    · exact Store.agree_call_bound (h.getElem?_functions hf) arguments

end Calls

/-! ## What the ways give -/

namespace Store

variable {c : Class} {d : Data} {s : Store} {o : ObjectId}

/-- A member of a record can always be read. No object changes. -/
theorem IsRecord.exists_member (h : s.IsRecord o c d) (name : String) :
    ∃ value s', (member o name).Returns s (.ok value) s' ∧ s'.objects = s.objects
      ∧ c.ReadsAs d s' o name value := by
  have hrun := h.runIn_member_eq name 1
  cases hkind : c.memberKind d name with
  | none =>
      rw [hkind] at hrun
      exact ⟨_, _, ⟨1, hrun⟩, rfl, by rw [Class.ReadsAs, hkind]⟩
  | some kind =>
      cases kind with
      | data =>
          rw [hkind] at hrun
          exact ⟨_, _, ⟨1, hrun⟩, rfl, by rw [Class.ReadsAs, hkind]⟩
      | function =>
          rw [hkind] at hrun
          refine ⟨_, _, ⟨1, hrun⟩, rfl, ?_⟩
          rw [Class.ReadsAs, hkind]
          exact ⟨_, rfl, List.getElem?_concat_length⟩

/-- A step of an iteration over a record with values can always be made, and gives what the member
of the next name reads as. No object changes. -/
theorem IsRecord.exists_advance (h : s.IsRecord o c d) {cur : Cursor} (hsource : cur.source = some o)
    {symbol : SymbolId} (hnext : cur.names[cur.position]? = some symbol) :
    ∃ value s', cur.advance.Returns s (.ok (some (.pair symbol value)), cur.passed) s'
      ∧ s'.objects = s.objects ∧ c.ReadsAs d s' o (s.symbolText symbol) value := by
  obtain ⟨value, s', ⟨depth, hmember⟩, hobjects, hreadsAs⟩ := h.exists_member (s.symbolText symbol)
  refine ⟨value, s', ⟨depth, ?_⟩, hobjects, hreadsAs⟩
  rw [Cursor.runIn_advance_pair hnext hsource, hmember]
  rfl

/-- The symbols for a listing can be had without a change of an object. -/
theorem objects_internAll (t : TableId) (texts : List String) {s s' : Store}
    {symbols : List SymbolId} (h : (Cursor.internAll t texts).Returns s symbols s') :
    s'.objects = s.objects := by
  induction texts generalizing s symbols with
  | nil =>
      obtain ⟨_, rfl⟩ := (Program.returns_done _ _).unique h
      rfl
  | cons text texts ih =>
      obtain ⟨symbol, s₁, ⟨_, hask⟩, hrest⟩ := Program.returns_bind_iff.mp h
      obtain ⟨others, s₂, hothers, hdone⟩ := Program.returns_bind_iff.mp hrest
      obtain ⟨_, rfl⟩ := (Program.returns_done _ _).unique hdone
      cases hask
      rw [ih hothers]
      exact s.objects_answer (.intern t text)

/-- An iteration over an object can always be begun. No object changes. -/
theorem exists_begin_object (s : Store) (t : TableId) (o : ObjectId) :
    ∃ cur s', (Cursor.begin t (.object o) false).Returns s cur s' ∧ s'.objects = s.objects
      ∧ cur.position = 0 ∧ cur.source = some o ∧ s'.Spells cur.names (s.profile o).names := by
  obtain ⟨cur, s', listing, hlists, hrun, hzero, hsource, hspells⟩ :=
    Cursor.exists_begin t (.object o) false s
  rw [lists_object_iff.mp hlists] at hspells
  have hbegin := hrun 0
  rw [Cursor.runIn_begin_object] at hbegin
  obtain ⟨⟨names, s₁⟩, hnames, heq⟩ := Option.map_eq_some_iff.mp hbegin
  cases heq
  exact ⟨_, s', ⟨0, hrun 0⟩, objects_internAll t _ ⟨0, hnames⟩, hzero, hsource, hspells⟩

/-- An iteration over a record, not disturbed, comes to each of its places. -/
theorem IsRecord.exists_follows (h : s.IsRecord o c d) {c₀ : Cursor} (hsource : c₀.source = some o)
    (hzero : c₀.position = 0) {k : Nat} (hk : k ≤ c₀.length) :
    ∃ results cur s', c₀.Follows s results cur s' ∧ s'.objects = s.objects ∧ cur.position = k := by
  induction k with
  | zero => exact ⟨[], c₀, s, .start, rfl, hzero⟩
  | succ k ih =>
      obtain ⟨results, cur, s₁, hfollows, hobjects, hposition⟩ := ih (Nat.le_of_succ_le hk)
      have hcontinues := hfollows.continues hzero
      have hnext : cur.names[cur.position]? = some c₀.names[k] := by
        rw [hcontinues.names_eq, hposition, List.getElem?_eq_getElem hk]
      have hrecord := h.of_objects_eq hobjects
      obtain ⟨value, s', ⟨depth, hstep⟩, hstepObjects, _⟩ :=
        hrecord.exists_advance (hcontinues.source_eq.trans hsource) hnext
      exact ⟨_, _, s', hfollows.step hstep, hstepObjects.trans hobjects,
        congrArg (· + 1) hposition⟩

/-- A step that gives a name with a value puts them in front of the other pairs. -/
theorem returns_pairs_succ {cur cur' : Cursor} {symbol : SymbolId} {value : Value} {s₁ s' : Store}
    (hstep : cur.advance.Returns s (.ok (some (.pair symbol value)), cur') s₁) {steps : Nat}
    {vs : List Value} (hrest : (cur'.pairs steps).run.Returns s₁ (.ok vs) s') :
    (cur.pairs (steps + 1)).run.Returns s
      (.ok (.array [.string (s₁.symbolText symbol), value] :: vs)) s' := by
  rw [Cursor.pairs, Action.run_lift_bind]
  refine Program.returns_bind_iff.mpr ⟨_, _, hstep, ?_⟩
  show (liftM (Program.ask (.symbolText symbol)) >>= fun text => cur'.pairs steps >>= fun rest =>
    pure (Value.array [.string text, value] :: rest) : Action (List Value)).run.Returns s₁ _ s'
  rw [Action.run_lift_bind]
  refine Program.returns_bind_iff.mpr ⟨_, _, ⟨0, rfl⟩, ?_⟩
  exact Action.returns_bind hrest (Program.returns_done _ _)

/-- Names with values, as the pairs of a sequence. -/
def asPairs (es : Entries Value) : List Value := es.map fun e => .array [.string e.1, e.2]

/-- The pairs for the names that are left can always be had: each name with what its member reads
as. No object changes. -/
theorem IsRecord.exists_pairs (h : s.IsRecord o c d) {cur : Cursor} (hsource : cur.source = some o)
    {texts : List String} (hspells : s.Spells (cur.names.drop cur.position) texts) :
    ∃ (es : Entries Value) (s' : Store),
      (cur.pairs texts.length).run.Returns s (.ok (asPairs es)) s' ∧ s'.objects = s.objects
        ∧ es.keys = texts ∧ ∀ e ∈ es, c.ReadsAs d s' o e.1 e.2 := by
  induction texts generalizing cur s with
  | nil => exact ⟨[], s, Program.returns_done _ _, rfl, rfl, fun e he => nomatch he⟩
  | cons text texts ih =>
      obtain ⟨symbol, hfirst, htext⟩ := hspells.exists_getElem? (k := 0) rfl
      have hnext : cur.names[cur.position]? = some symbol := by rwa [List.getElem?_drop] at hfirst
      -- the first value is read before the others are, and what was read stays right
      obtain ⟨value, s₁, hstep, hobjects, hreadsAs⟩ := h.exists_advance hsource hnext
      obtain ⟨log, hevolves⟩ := hstep.evolves
      have hrecord := h.of_objects_eq hobjects
      have hpassed : cur.passed.source = some o := hsource
      obtain ⟨es, s', hpairs, hobjects', hkeys, hvalues⟩ :=
        ih hrecord hpassed (Cursor.spells_passed hspells hevolves)
      have hall := returns_pairs_succ hstep hpairs
      rw [(hevolves.spells hspells).symbolText_eq hfirst rfl] at hall
      obtain ⟨log', hevolves'⟩ := hpairs.evolves
      refine ⟨(text, value) :: es, s', hall, hobjects'.trans hobjects, ?_, ?_⟩
      · rw [Entries.keys_cons, hkeys]
      · intro e he
        rcases List.mem_cons.mp he with rfl | he
        · exact (htext ▸ hreadsAs).evolves hevolves'
        · exact hvalues e he

/-- A record can always be made a sequence: its names in order, each with what its member reads as.
No object changes. -/
theorem IsRecord.exists_sequence (h : s.IsRecord o c d) :
    ∃ (es : Entries Value) (s' : Store),
      (toSequence (.object o)).run.Returns s (.ok (asPairs es)) s' ∧ s'.objects = s.objects
        ∧ es.keys = (s.profile o).names ∧ ∀ e ∈ es, c.ReadsAs d s' o e.1 e.2 := by
  obtain ⟨cur, s₁, hbegin, hobjects, hzero, hsource, hspells⟩ := s.exists_begin_object .common o
  have hleft : s₁.Spells (cur.names.drop cur.position) (s.profile o).names := by rwa [hzero]
  obtain ⟨es, s', hpairs, hobjects', hmembers⟩ :=
    (h.of_objects_eq hobjects).exists_pairs hsource hleft
  refine ⟨es, s', ?_, hobjects'.trans hobjects, hmembers⟩
  have hlength : (s.profile o).length = none := by
    rw [profile_eq h]
    rfl
  have hlists : (s.profile o).lists = true := by
    rw [profile_eq h]
    rfl
  have hcount : cur.length = (s.profile o).names.length := hspells.length_eq
  rw [toSequence, Action.run_lift_bind]
  refine Program.returns_bind_iff.mpr ⟨s.profile o, s, ⟨0, rfl⟩, ?_⟩
  rw [hlength, if_pos hlists, Action.run_lift_bind]
  refine Program.returns_bind_iff.mpr ⟨cur, s₁, hbegin, ?_⟩
  rwa [hcount]

theorem mem_asPairs_iff {es : Entries Value} {name : String} {value : Value} :
    Value.array [.string name, value] ∈ asPairs es ↔ (name, value) ∈ es := by
  rw [asPairs, List.mem_map]
  constructor
  · rintro ⟨⟨name', value'⟩, hmem, heq⟩
    cases heq
    exact hmem
  · exact fun hmem => ⟨(name, value), hmem, rfl⟩

/-- What is a member of a record is among the names that an iteration visits. -/
theorem IsRecord.mem_names (h : s.IsRecord o c d) {name : String}
    (hkind : c.memberKind d name ≠ none) : name ∈ (s.profile o).names := by
  rw [profile_eq h]
  show name ∈ c.propertyNames d ++ c.methodNames
  rw [c.memberKind_eq_of_names] at hkind
  rw [List.mem_append]
  split at hkind
  · rename_i hproperty
    exact .inl hproperty
  · split at hkind
    · rename_i hmethod
      exact .inr hmethod
    · exact absurd rfl hkind

/-- If a member reads as a function in one store, then every way leads to a function for it in each
store in which the record has the data. -/
theorem IsRecord.givesFunction (h : s.IsRecord o c d) {name : String} {f : FunctionId} {s' : Store}
    (hread : c.ReadsAs d s' o name (.function f)) : s.GivesFunction o name where
  read := by
    obtain ⟨value, s₁, hmember, _, hreadsAs⟩ := h.exists_member name
    obtain ⟨g, rfl⟩ := hread.exists_function hreadsAs
    exact ⟨g, s₁, hmember⟩
  step := by
    rintro cur hsource symbol hnext rfl
    obtain ⟨value, s₁, hstep, _, hreadsAs⟩ := h.exists_advance hsource hnext
    obtain ⟨g, rfl⟩ := hread.exists_function hreadsAs
    exact ⟨g, s₁, hstep⟩
  reached := by
    intro t
    obtain ⟨c₀, s₀, hbegin, hobjects, hzero, hsource, hspells⟩ := s.exists_begin_object t o
    have hrecord := h.of_objects_eq hobjects
    obtain ⟨k, hk⟩ := List.getElem?_of_mem (h.mem_names hread.memberKind_ne_none)
    obtain ⟨symbol, hsymbol, _⟩ := hspells.exists_getElem? hk
    obtain ⟨hlt, _⟩ := List.getElem?_eq_some_iff.mp hsymbol
    obtain ⟨results, cur, s₁, hfollows, hsame, hposition⟩ :=
      hrecord.exists_follows hsource hzero (Nat.le_of_lt hlt)
    have hcontinues := hfollows.continues hzero
    have hnext : cur.names[cur.position]? = some symbol := by
      rw [hcontinues.names_eq, hposition, hsymbol]
    obtain ⟨log, hevolves⟩ := hfollows.evolves
    exact ⟨c₀, s₀, results, cur, s₁, symbol, hbegin, hfollows, hsame.trans hobjects,
      hcontinues.source_eq.trans hsource, hnext, (hevolves.spells hspells).symbolText_eq hsymbol hk⟩
  sequence := by
    obtain ⟨es, s₁, hsequence, _, hkeys, hvalues⟩ := h.exists_sequence
    have hfunction : ∀ value, Value.array [.string name, value] ∈ asPairs es →
        ∃ g, value = .function g :=
      fun value hmem => hread.exists_function (hvalues _ (mem_asPairs_iff.mp hmem))
    have hname : name ∈ es.keys := hkeys ▸ h.mem_names hread.memberKind_ne_none
    obtain ⟨⟨_, value⟩, hmem, rfl⟩ := List.mem_map.mp hname
    obtain ⟨g, rfl⟩ := hfunction value (mem_asPairs_iff.mpr hmem)
    exact ⟨asPairs es, s₁, hsequence, ⟨g, mem_asPairs_iff.mpr hmem⟩, hfunction⟩

/-- What is obtained for a member of a record is what the member reads as. No object changes. -/
theorem IsRecord.readsAs_of_obtains (h : s.IsRecord o c d) {name : String} {f : FunctionId}
    {s' : Store} (hobtains : s.Obtains o name f s') :
    s'.objects = s.objects ∧ (∃ log, s.Evolves log s') ∧ c.ReadsAs d s' o name (.function f) := by
  cases hobtains with
  | read hread =>
      obtain ⟨value, s₁, hmember, hobjects, hreadsAs⟩ := h.exists_member name
      obtain ⟨hvalue, rfl⟩ := hmember.unique hread
      cases hvalue
      exact ⟨hobjects, hread.evolves, hreadsAs⟩
  | step hsource hnext htext hstep =>
      obtain ⟨value, s₁, hadvance, hobjects, hreadsAs⟩ := h.exists_advance hsource hnext
      obtain ⟨hvalue, rfl⟩ := hadvance.unique hstep
      cases hvalue
      exact ⟨hobjects, hstep.evolves, htext ▸ hreadsAs⟩
  | sequence hsequence hmem =>
      obtain ⟨es, s₁, hexists, hobjects, _, hvalues⟩ := h.exists_sequence
      obtain ⟨hvalue, rfl⟩ := hexists.unique hsequence
      cases hvalue
      exact ⟨hobjects, hsequence.evolves, hvalues _ (mem_asPairs_iff.mp hmem)⟩

/-- Let a member of a record, under a name without the sign of assignment, read as a function. Then
in every store in which the record has the same data, every way leads to a function for the
member. Whichever is obtained, no object changes on the way, and the function stands for the member
from then on. -/
theorem IsRecord.routesAgree (h : s.IsRecord o c d) {name : String}
    (hname : assigned? name = none) {f : FunctionId} {s' : Store}
    (hread : (member o name).Returns s (.ok (.function f)) s') {s₁ : Store}
    (h₁ : s₁.IsRecord o c d) :
    s₁.GivesFunction o name
      ∧ ∀ g s₂, s₁.Obtains o name g s₂ →
        s₂.objects = s₁.objects ∧ (∃ log, s₁.Evolves log s₂) ∧ s₂.StandsFor o c d name g := by
  obtain ⟨_, _, hreadsAs⟩ := h.readsAs_of_obtains (.read hread)
  refine ⟨h₁.givesFunction hreadsAs, ?_⟩
  intro g s₂ hobtains
  obtain ⟨hobjects, hevolves, hstands⟩ := h₁.readsAs_of_obtains hobtains
  exact ⟨hobjects, hevolves, hstands.standsFor hname⟩

/-- A store with a new counter. -/
def counting : Store := (Store.empty.addObject Class.counter.instantiate).2

/-- The method of the counter is read and then taken from the sequence that the counter makes, and
a value is written over it. Before the write, calls of the two functions return the same and leave
the same store behind, and after it, the first function still agrees with calling the member. -/
theorem routesAgree_counting :
    ∃ s₁ s₂ s₃, (member ⟨0⟩ "mark").Returns counting (.ok (.function ⟨0⟩)) s₁
      ∧ (toSequence (.object ⟨0⟩)).run.Returns s₁
          (.ok [.array [.string "count", .int 1], .array [.string "mark", .function ⟨1⟩]]) s₂
      ∧ s₂.CallsMember ⟨0⟩ "mark" ⟨0⟩ ∧ s₂.CallsMember ⟨0⟩ "mark" ⟨1⟩
      ∧ (Program.run (.call ⟨0⟩ [])).Returns s₂ (.ok .undefined) s₃
      ∧ (Program.run (.call ⟨1⟩ [])).Returns s₂ (.ok .undefined) s₃
      ∧ (Program.run (.call ⟨0⟩ [])).Agree (.run (.operate ⟨0⟩ (.callMethod "mark" [])))
          (s₂.start (.operate ⟨0⟩ (.set "mark" (.int 3)))).2 := by
  have hrecord : counting.IsRecord ⟨0⟩ Class.counter Class.counter.initialData := rfl
  have hread : (member ⟨0⟩ "mark").Returns counting (.ok (.function ⟨0⟩))
      (counting.addFunction (boundMethod ⟨0⟩ "mark")).2 := ⟨0, rfl⟩
  have hrecord₁ : (counting.addFunction (boundMethod ⟨0⟩ "mark")).2.IsRecord ⟨0⟩ Class.counter
      Class.counter.initialData := rfl
  obtain ⟨s₂, s₃, hsequence, hcall⟩ : ∃ s₂ s₃, (toSequence (.object ⟨0⟩)).run.Returns
        (counting.addFunction (boundMethod ⟨0⟩ "mark")).2
        (.ok [.array [.string "count", .int 1], .array [.string "mark", .function ⟨1⟩]]) s₂
      ∧ (Program.run (.operate ⟨0⟩ (.callMethod "mark" []))).Returns s₂ (.ok .undefined) s₃ :=
    ⟨_, _, ⟨1, rfl⟩, 2, rfl⟩
  obtain ⟨_, _, hfirst⟩ := (hrecord.routesAgree rfl hread hrecord).2 _ _ (.read hread)
  obtain ⟨hobjects, ⟨log, hevolves⟩, hsecond⟩ := (hrecord.routesAgree rfl hread hrecord₁).2 _ _
    (.sequence hsequence (.tail _ (.head _)))
  have hrecord₂ := hrecord₁.of_objects_eq hobjects
  have hcalls₀ := hfirst.callsMember hevolves hrecord₂
  have hcalls₁ := hsecond.callsMember .rest hrecord₂
  exact ⟨_, s₂, s₃, hread, hsequence, hcalls₀, hcalls₁, (hcalls₀.call [] _ _).mpr hcall,
    (hcalls₁.call [] _ _).mpr hcall, hfirst.call_later rfl (hevolves.start _) []⟩

end Store

end ScriptHost
