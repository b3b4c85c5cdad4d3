import ScriptHost.Proofs.Host.MemberFunctions

/-!
# What a record lists

A record finds what a member is through tables of places, and lists its members from lists of names,
its properties first and then all methods. Both agree, whatever happens to the record
(`Profile.ListsMembers`), and what is listed stays listed (`Profile.Keeps`). So an iteration with
values and the sequence of a record come to every member, and come twice to a method that a property
hides, with the value of the property both times. The same names are listed by an object that stands
for a record and hands everything on to it (`Store.IsRecord.lists_standIn_iff`).

Main statement: `Store.listing_of_evolves`.
-/

set_option autoImplicit false

namespace ScriptHost

/-! ## Agreement of listing and resolution -/

/-- The listings of a profile agree with what it says of members: each list has a name once, the
properties are what stands among the keys, and the methods what stands among the methods only. -/
structure Profile.ListsMembers (p : Profile) (keys methods : List String) : Prop where
  keys_eq : p.keys = some keys
  methods_eq : p.methods = some methods
  nodup_keys : keys.Nodup
  nodup_methods : methods.Nodup
  data_iff (name : String) : p.memberKind name = some .data ↔ name ∈ keys
  function_iff (name : String) :
    p.memberKind name = some .function ↔ name ∈ methods ∧ name ∉ keys
  none_iff (name : String) : p.memberKind name = none ↔ name ∉ keys ∧ name ∉ methods

/-- A later profile lists what the first one lists, and properties have stayed properties. -/
structure Profile.Keeps (p later : Profile) : Prop where
  keys {keys : List String} (h : p.keys = some keys) : ∃ more, later.keys = some (keys ++ more)
  methods_eq : later.methods = p.methods
  data {name : String} (h : p.memberKind name = some .data) : later.memberKind name = some .data

/-- A list of names has all members, those twice that are properties and stand among the methods,
and the others once. -/
structure Profile.Covers (p : Profile) (methods names : List String) : Prop where
  mem_iff (name : String) : name ∈ names ↔ p.memberKind name ≠ none
  count_le (name : String) : names.count name ≤ 2
  count_eq_two_iff (name : String) :
    names.count name = 2 ↔ name ∈ methods ∧ p.memberKind name = some .data

theorem Profile.ListsMembers.covers {p : Profile} {keys methods : List String}
    (h : p.ListsMembers keys methods) : p.Covers methods (keys ++ methods) where
  mem_iff := by
    intro name
    rw [Ne, h.none_iff, List.mem_append]
    by_cases hkey : name ∈ keys <;> simp [hkey]
  count_le := by
    intro name
    rw [List.count_append, h.nodup_keys.count, h.nodup_methods.count]
    split <;> split <;> omega
  count_eq_two_iff := by
    intro name
    rw [List.count_append, h.nodup_keys.count, h.nodup_methods.count, h.data_iff]
    split <;> split <;> simp [*]

/-! ## Records -/

/-- If the member is a property of the object, the value is the one that reading it gives. -/
def Store.ReadsData (s : Store) (o : ObjectId) (name : String) (value : Value) : Prop :=
  (s.profile o).memberKind name = some .data →
    (Program.run (.operate o (.get name))).Returns s (.ok value) s

theorem Entries.exists_keys_puts {α : Type} (es : Entries α) (kvs : List (String × α)) :
    ∃ more, (es.puts kvs).keys = es.keys ++ more := by
  induction kvs generalizing es with
  | nil => exact ⟨[], (List.append_nil _).symm⟩
  | cons kv kvs ih =>
      obtain ⟨more, hmore⟩ := ih (es.put kv.1 kv.2)
      show ∃ more, ((es.put kv.1 kv.2).puts kvs).keys = es.keys ++ more
      rw [hmore, keys_put]
      split
      · exact ⟨more, rfl⟩
      · exact ⟨kv.1 :: more, List.append_assoc ..⟩

theorem Class.memberKind_eq_data_iff {c : Class} {d : Data} {name : String} :
    c.memberKind d name = some .data ↔ name ∈ c.propertyNames d := by
  rw [c.memberKind_eq_of_names]
  split
  · simp [*]
  · split <;> simp [*]

/-- An instance, whatever has been done to it, has each of its properties once in its list. -/
theorem Class.nodup_propertyNames_dataAfter (c : Class) (o : ObjectId) (log : List Entry) :
    (c.propertyNames
      (c.instantiate.dataAfter o (log.filterMap (Entry.operation? o)))).Nodup := by
  obtain ⟨hfits, hentries⟩ := c.entries_dataAfter o log
  have hdeclared : c.fields.entries.keys.Nodup := c.fields.keys_entries ▸ c.fields.nodup_names
  rw [hfits.propertyNames_eq, hentries]
  exact Entries.nodup_keys_puts hdeclared _

namespace Store

variable {s s' : Store} {o : ObjectId} {c : Class} {d : Data}

/-- A record stays a record, and the properties that are new are listed behind the others. -/
theorem IsRecord.evolves (h : s.IsRecord o c d) (hd : c.Fits d) {log : List Entry}
    (hs : s.Evolves log s') :
    ∃ d' more, s'.IsRecord o c d' ∧ c.Fits d'
      ∧ c.propertyNames d' = c.propertyNames d ++ more := by
  -- each operation puts what it writes among the entries
  obtain ⟨hfits, hentries⟩ := Entries.view_foldl c.Fits c.entries
    (fun d op => (c.handle o d op).1) Operation.write? (fun _ op h => h.handle o op)
    (log.filterMap (Entry.operation? o)) hd
  obtain ⟨more, hmore⟩ := Entries.exists_keys_puts (c.entries d) (writesTo o log)
  refine ⟨_, more, hs.getElem?_objects h, hfits, hfits.propertyNames_eq.trans ?_⟩
  rw [hd.propertyNames_eq, ← hmore]
  exact congrArg Entries.keys hentries

theorem IsRecord.listsMembers (h : s.IsRecord o c d) (hnodup : (c.propertyNames d).Nodup) :
    (s.profile o).ListsMembers (c.propertyNames d) c.methodNames := by
  rw [profile_eq h]
  refine ⟨rfl, rfl, hnodup, c.methods.nodup_names, fun _ => Class.memberKind_eq_data_iff, ?_, ?_⟩
  all_goals
    intro name
    show c.memberKind d name = _ ↔ _
    rw [c.memberKind_eq_of_names]
    by_cases hproperty : name ∈ c.propertyNames d
    · simp [hproperty]
    · by_cases hmethod : name ∈ c.methodNames <;> simp [hproperty, hmethod]

theorem IsRecord.keeps (h : s.IsRecord o c d) (hd : c.Fits d) {log : List Entry}
    (hs : s.Evolves log s') : (s.profile o).Keeps (s'.profile o) := by
  obtain ⟨d', more, hrecord, _, hnames⟩ := h.evolves hd hs
  rw [profile_eq h, profile_eq hrecord]
  refine ⟨?_, rfl, ?_⟩
  · rintro keys hkeys
    cases hkeys
    exact ⟨more, congrArg some hnames⟩
  · intro name hdata
    have hmem : name ∈ c.propertyNames d := Class.memberKind_eq_data_iff.mp hdata
    exact Class.memberKind_eq_data_iff.mpr (hnames ▸ List.mem_append_left more hmem)

/-- What a member reads as is its value if it is a property, before and after it is read. -/
theorem IsRecord.readsData (h : s.IsRecord o c d) {name : String} {value : Value}
    (hread : c.ReadsAs d s' o name value) : s.ReadsData o name value := by
  intro hkind
  rw [h.memberKind_eq] at hkind
  rw [Class.ReadsAs, hkind] at hread
  rw [hread, Program.returns_run_iff, h.start_get]
  exact Program.returns_done _ _

end Store

/-! ## Iterations over a record -/

/-- An iteration with values over an object, whatever happens meanwhile, comes to all names of a
list: the steps give them in their order, each with what its member reads as at that moment, and
nothing behind the last name, and it can always go on. -/
structure Cursor.Visits (c₀ : Cursor) (s₀ : Store) (o : ObjectId) (names : List String) :
    Prop where
  gives {results : List (Except HostError (Option Member))} {cur : Cursor} {s : Store}
    (h : c₀.Follows s₀ results cur s) {k : Nat} (hk : k < results.length) {name : String}
    (hname : names[k]? = some name) :
    ∃ symbol value s₁ log log', results[k]? = some (.ok (some (.pair symbol value)))
      ∧ s.symbolText symbol = name
      ∧ s₀.Evolves log s₁ ∧ s₁.Evolves log' s ∧ s₁.ReadsData o name value
  ends {results : List (Except HostError (Option Member))} {cur : Cursor} {s : Store}
    (h : c₀.Follows s₀ results cur s) {k : Nat} (hk : names.length ≤ k)
    {result : Except HostError (Option Member)} (hresult : results[k]? = some result) :
    result = .ok none
  advance {results : List (Except HostError (Option Member))} {cur : Cursor} {s : Store}
    (h : c₀.Follows s₀ results cur s) : ∃ result cur' s', cur.advance.Returns s (result, cur') s'

section Iterations

variable {s₀ s : Store} {o : ObjectId} {c : Class} {d : Data} {c₀ cur : Cursor}
  {names : List String} {results : List (Except HostError (Option Member))}

/-- The step behind the results so far comes to the symbol in its place. -/
theorem Cursor.Follows.next_eq (h : c₀.Follows s₀ results cur s) (hzero : c₀.position = 0)
    {symbol : SymbolId} (hsymbol : c₀.names[results.length]? = some symbol) :
    cur.names[cur.position]? = some symbol := by
  have hcontinues := h.continues hzero
  obtain ⟨hlt, _⟩ := List.getElem?_eq_some_iff.mp hsymbol
  have hlength : results.length ≤ cur.length := by
    rw [Cursor.length, hcontinues.names_eq]
    exact Nat.le_of_lt hlt
  rw [hcontinues.position_eq, Nat.min_eq_left hlength, hcontinues.names_eq, hsymbol]

namespace Store.IsRecord

/-- In an iteration over a record, whatever happens meanwhile, a result is its name with what the
member read as at that moment. -/
theorem gives_of_follows (hrecord : s₀.IsRecord o c d) (hd : c.Fits d) (hzero : c₀.position = 0)
    (hsource : c₀.source = some o) (h : c₀.Follows s₀ results cur s) {k : Nat}
    (hk : k < results.length) {symbol : SymbolId} (hsymbol : c₀.names[k]? = some symbol) :
    ∃ value s₁ log log', results[k]? = some (.ok (some (.pair symbol value)))
      ∧ s₀.Evolves log s₁ ∧ s₁.Evolves log' s ∧ s₁.ReadsData o (s₁.symbolText symbol) value := by
  -- a result that is there stays right, and a new one is read from the record as it is by now
  induction h with
  | start => cases hk
  | @meanwhile results cur s s' log h hs ih =>
      obtain ⟨value, s₁, log₁, log₂, hresult, hbefore, hafter, hread⟩ := ih hk
      exact ⟨value, s₁, log₁, _, hresult, hbefore, hafter.trans hs, hread⟩
  | @step results cur cur' s s' depth result h hstep ih =>
      have hafter := Program.evolves_of_runIn hstep
      rw [List.length_append, List.length_singleton] at hk
      rcases Nat.lt_or_eq_of_le (Nat.le_of_lt_succ hk) with hlt | rfl
      · obtain ⟨value, s₁, log₁, log₂, hresult, hbefore, hbetween, hread⟩ := ih hlt
        rw [List.getElem?_append_left hlt]
        exact ⟨value, s₁, log₁, _, hresult, hbefore, hbetween.trans hafter, hread⟩
      · obtain ⟨log, hlog⟩ := h.evolves
        obtain ⟨_, _, hnow, _⟩ := hrecord.evolves hd hlog
        obtain ⟨value, s₂, hadvance, _, hread⟩ := hnow.exists_advance
          ((h.continues hzero).source_eq.trans hsource) (h.next_eq hzero hsymbol)
        obtain ⟨hresult, _⟩ := hadvance.unique ⟨depth, hstep⟩
        rw [List.getElem?_concat_length, (Prod.mk.inj hresult).1]
        exact ⟨value, s, log, _, rfl, hlog, hafter, hnow.readsData hread⟩

/-- An iteration over a record can always go on. -/
theorem exists_advance_of_follows (hrecord : s₀.IsRecord o c d) (hd : c.Fits d)
    (hzero : c₀.position = 0) (hsource : c₀.source = some o) (h : c₀.Follows s₀ results cur s) :
    ∃ result cur' s', cur.advance.Returns s (result, cur') s' := by
  obtain ⟨log, hlog⟩ := h.evolves
  obtain ⟨_, _, hnow, _⟩ := hrecord.evolves hd hlog
  cases hnext : cur.names[cur.position]? with
  | none => exact ⟨_, _, s, 0, Cursor.runIn_advance_end hnext 0 s⟩
  | some symbol =>
      obtain ⟨_, s', hadvance, _⟩ :=
        hnow.exists_advance ((h.continues hzero).source_eq.trans hsource) hnext
      exact ⟨_, _, s', hadvance⟩

theorem visits (hrecord : s₀.IsRecord o c d) (hd : c.Fits d) (hzero : c₀.position = 0)
    (hsource : c₀.source = some o) (hspells : s₀.Spells c₀.names names) :
    c₀.Visits s₀ o names where
  gives := by
    intro results cur s h k hk name hname
    obtain ⟨symbol, hsymbol, _⟩ := hspells.exists_getElem? hname
    obtain ⟨value, s₁, log, log', hresult, hbefore, hafter, hread⟩ :=
      hrecord.gives_of_follows hd hzero hsource h hk hsymbol
    have hspelled := hbefore.spells hspells
    rw [hspelled.symbolText_eq hsymbol hname] at hread
    exact ⟨symbol, value, s₁, log, log', hresult,
      (hafter.spells hspelled).symbolText_eq hsymbol hname, hbefore, hafter, hread⟩
  ends := by
    intro results cur s h k hk result hresult
    have hcontinues := h.continues hzero
    have hend : cur.names[k]? = none := by
      rw [hcontinues.names_eq]
      exact List.getElem?_eq_none (hspells.length_eq ▸ hk)
    have hgives := hcontinues.gives k result hresult
    rwa [Cursor.Gives, hend] at hgives
  advance := hrecord.exists_advance_of_follows hd hzero hsource

end Store.IsRecord

end Iterations

/-! ## What records list -/

/-- Whatever happens to a store after an instance of a class has been created in it, what the
instance lists agrees with what its members are, and stays listed. Its sequence and each iteration
with values that is begun by then come to every member, twice to a method that a property hides and
once to any other, each time with the value of the property if there is one. -/
theorem Store.listing_of_evolves (c : Class) {s s₀ s' : Store} {o : ObjectId}
    (hnew : s.addObject c.instantiate = (o, s₀)) {log : List Entry} (h : s₀.Evolves log s') :
    ∃ keys methods, (s'.profile o).ListsMembers keys methods
      ∧ (s'.profile o).Covers methods (keys ++ methods)
      ∧ (∀ {log' : List Entry} {s'' : Store}, s'.Evolves log' s'' →
          (s'.profile o).Keeps (s''.profile o))
      ∧ (∃ es s'', (toSequence (.object o)).run.Returns s' (.ok (asPairs es)) s''
          ∧ es.keys = keys ++ methods ∧ ∀ e ∈ es, s'.ReadsData o e.1 e.2)
      ∧ ∀ t, ∃ c₀ s₁ log', (Cursor.begin t (.object o) false).Returns s' c₀ s₁
          ∧ s'.Evolves log' s₁ ∧ s₁.profile o = s'.profile o
          ∧ c₀.Visits s₁ o (keys ++ methods) := by
  cases hnew
  have hrecord : s'.IsRecord ⟨s.objects.length⟩ c _ := h.getElem?_objects (s.isRecord_addObject c)
  obtain ⟨hfits, _⟩ := c.entries_dataAfter ⟨s.objects.length⟩ log
  have hlists := hrecord.listsMembers (c.nodup_propertyNames_dataAfter ⟨s.objects.length⟩ log)
  have hnames : (s'.profile ⟨s.objects.length⟩).names = _ ++ c.methodNames :=
    congrArg Profile.names (profile_eq hrecord)
  refine ⟨_, _, hlists, hlists.covers, hrecord.keeps hfits, ?_, ?_⟩
  · obtain ⟨es, s'', hsequence, _, hkeys, hvalues⟩ := hrecord.exists_sequence
    exact ⟨es, s'', hsequence, hkeys.trans hnames, fun e he => hrecord.readsData (hvalues e he)⟩
  · intro t
    obtain ⟨c₀, s₁, hbegin, hobjects, hzero, hsource, hspells⟩ :=
      s'.exists_begin_object t ⟨s.objects.length⟩
    obtain ⟨log', hlog'⟩ := hbegin.evolves
    have hrecord₁ := hrecord.of_objects_eq hobjects
    refine ⟨c₀, s₁, log', hbegin, hlog', ?_, ?_⟩
    · rw [profile_eq hrecord₁, profile_eq hrecord]
      rfl
    · exact hrecord₁.visits hfits hzero hsource (hnames ▸ hspells)

/-- After a value has been written over the method of a counter, its name is listed as a property
and as a method, and stands twice in the sequence, with the value both times. -/
theorem Store.listing_counting :
    ∃ s', counting.Evolves [.operate ⟨0⟩ (.set "mark" (.int 7))] s'
      ∧ (s'.profile ⟨0⟩).ListsMembers ["count", "mark"] ["mark"]
      ∧ (s'.profile ⟨0⟩).Covers ["mark"] ["count", "mark", "mark"]
      ∧ (∃ s'', (toSequence (.object ⟨0⟩)).run.Returns s'
          (.ok (asPairs [("count", .int 1), ("mark", .int 7), ("mark", .int 7)])) s'')
      ∧ ∃ c₀ s₁, (Cursor.begin .common (.object ⟨0⟩) false).Returns s' c₀ s₁
          ∧ c₀.Visits s₁ ⟨0⟩ ["count", "mark", "mark"] := by
  have hevolves : counting.Evolves [.operate ⟨0⟩ (.set "mark" (.int 7))] _ :=
    Store.Evolves.rest.start (.operate ⟨0⟩ (.set "mark" (.int 7)))
  obtain ⟨keys, methods, hlists, hcovers, _, _, hiterates⟩ :=
    Store.listing_of_evolves Class.counter (s := Store.empty) rfl hevolves
  have hkeys := hlists.keys_eq
  have hmethods := hlists.methods_eq
  cases hkeys
  cases hmethods
  obtain ⟨c₀, s₁, _, hbegin, _, _, hvisits⟩ := hiterates .common
  exact ⟨_, hevolves, hlists, hcovers, ⟨_, 1, rfl⟩, c₀, s₁, hbegin, hvisits⟩

/-! ## Objects that stand for records -/

/-- An object that stands for another one: it says of itself what the other one says, and hands on
what is done to it. -/
def Object.standIn (target : ObjectId) : Object where
  interface :=
    { fresh := ⟨[], []⟩
      profile := fun seen _ => seen.profile target
      handle := fun _ d op => (d, .run (.operate target op))
      text := fun _ _ => .run (.text target) }
  data := ⟨[], []⟩

/-- What stands for a record says what the record says, in any store. -/
theorem Store.IsRecord.profile_standIn {s : Store} {target : ObjectId} {c : Class} {d : Data}
    (hrecord : s.IsRecord target c d) {o : ObjectId}
    (h : s.objects[o.index]? = some (.standIn target)) : s.profile o = s.profile target := by
  obtain ⟨depth, hdepth⟩ : ∃ depth, s.objects.length = depth + 1 :=
    Nat.exists_eq_add_one.mpr (Nat.zero_lt_of_lt (List.getElem?_eq_some_iff.mp h).1)
  rw [profile_eq h, profile_eq hrecord]
  show s.profileAt s.objects.length target = c.profile d
  rw [hdepth, profileAt, object_eq hrecord]
  rfl

/-- What stands for a record lists the names that the record lists. -/
theorem Store.IsRecord.lists_standIn_iff {s : Store} {target : ObjectId} {c : Class} {d : Data}
    (hrecord : s.IsRecord target c d) {o : ObjectId}
    (h : s.objects[o.index]? = some (.standIn target)) {names : List String} :
    s.Lists (.object o) names ↔ s.Lists (.object target) names := by
  rw [lists_object_iff, lists_object_iff, hrecord.profile_standIn h]

end ScriptHost
