import ScriptHost.Host.Store

/-!
# What can happen to a store

A store changes in small steps: it answers a question, other code is entered, or something new is
put in. `Store.Evolves` says that one store comes about from another, and lists the entries on the
way. Every run of a program is of this kind (`Program.evolves_of_runIn`), and so is all that a
host does between runs.

Main statements: an object keeps its interface, and its data is what the operations on it, one
after the other, make of the data it had (`Store.Evolves.getElem?_objects`); a function keeps its
code (`Store.Evolves.getElem?_functions`) and a symbol its text (`Store.Evolves.getElem?_symbols`).
-/

set_option autoImplicit false

namespace ScriptHost

namespace Store

/-- The second store can come about from the first, with the entries into other code on the way in
their order. -/
inductive Evolves (s : Store) : List Entry → Store → Prop
  | rest : Evolves s [] s
  | answer {log : List Entry} {s' : Store} (q : Query) (h : Evolves s log s') :
      Evolves s log (s'.answer q).2
  | start {log : List Entry} {s' : Store} (e : Entry) (h : Evolves s log s') :
      Evolves s (log ++ [e]) (s'.start e).2
  | addObject {log : List Entry} {s' : Store} (o : Object) (h : Evolves s log s') :
      Evolves s log (s'.addObject o).2
  | addFunction {log : List Entry} {s' : Store} (f : Function) (h : Evolves s log s') :
      Evolves s log (s'.addFunction f).2
  | addTable {log : List Entry} {s' : Store} (h : Evolves s log s') :
      Evolves s log s'.addTable.2

theorem Evolves.trans {s s' s'' : Store} {log log' : List Entry} (h : s.Evolves log s')
    (h' : s'.Evolves log' s'') : s.Evolves (log ++ log') s'' := by
  induction h' with
  | rest => rwa [List.append_nil]
  | answer q _ ih => exact ih.answer q
  | start e _ ih =>
      rw [← List.append_assoc]
      exact ih.start e
  | addObject o _ ih => exact ih.addObject o
  | addFunction f _ ih => exact ih.addFunction f
  | addTable _ ih => exact ih.addTable

end Store

/-! ## Runs of programs -/

/-- The entries that a program makes, in order; behind each one stand those that are made in it,
which `inner` gives. -/
def Program.entries {α : Type} (enter : Runner) (inner : Entry → Store → List Entry) :
    Program α → Store → List Entry
  | .done _, _ => []
  | .query q next, s => entries enter inner (next (s.answer q).1) (s.answer q).2
  | .enter e next, s =>
    e :: inner e s ++
      match enter e s with
      | none => []
      | some (r, s) => entries enter inner (next r) s

/-- The entries that are made in an entry, in order. -/
def Store.entriesIn : Nat → Entry → Store → List Entry
  | 0, _, _ => []
  | depth + 1, e, s =>
    (s.start e).1.entries (Store.enter depth) (Store.entriesIn depth) (s.start e).2

/-- The entries of a run of a program, in order. -/
def Program.trace {α : Type} (depth : Nat) (p : Program α) (s : Store) : List Entry :=
  p.entries (Store.enter depth) (Store.entriesIn depth) s

theorem Program.evolves_of_exec {α : Type} {enter : Runner} {inner : Entry → Store → List Entry}
    (henter : ∀ {e s r s'}, enter e s = some (r, s') → s.Evolves (e :: inner e s) s')
    (p : Program α) {s s' : Store} {a : α} (h : p.exec enter s = some (a, s')) :
    s.Evolves (p.entries enter inner s) s' := by
  induction p generalizing s with
  | done b =>
      cases h
      exact .rest
  | query q next ih =>
      have hanswer : s.Evolves [] (s.answer q).2 := Store.Evolves.rest.answer q
      exact hanswer.trans (ih (s.answer q).1 h)
  | enter e next ih =>
      -- what is entered comes first, with all that it enters, and the rest of the program behind it
      obtain ⟨⟨r, s₁⟩, hfirst, hnext⟩ := Option.bind_eq_some_iff.mp h
      rw [entries, hfirst]
      exact (henter hfirst).trans (ih r hnext)

theorem Store.evolves_of_enter (depth : Nat) {e : Entry} {s s' : Store} {r : e.Reply}
    (h : Store.enter depth e s = some (r, s')) :
    s.Evolves (e :: Store.entriesIn depth e s) s' := by
  induction depth generalizing e s s' r with
  | zero => cases h
  | succ depth ih =>
      have hstart : s.Evolves [e] (s.start e).2 := Store.Evolves.rest.start e
      exact hstart.trans (Program.evolves_of_exec ih (s.start e).1 h)

/-- A run of a program changes the store by the entries of its trace. -/
theorem Program.evolves_of_runIn {α : Type} {depth : Nat} {p : Program α} {s s' : Store} {a : α}
    (h : p.runIn depth s = some (a, s')) : s.Evolves (p.trace depth s) s' :=
  evolves_of_exec (Store.evolves_of_enter depth) p h

theorem Program.runIn_bind {α β : Type} (depth : Nat) (p : Program α) (f : α → Program β)
    (s : Store) :
    (bind p f).runIn depth s = (p.runIn depth s).bind fun (a, s) => (f a).runIn depth s :=
  exec_bind (Store.enter depth) p f s

/-- The program that enters other code runs the code, one level deeper. -/
theorem Program.runIn_run (depth : Nat) (e : Entry) (s : Store) :
    (run e).runIn (depth + 1) s = (s.start e).1.runIn depth (s.start e).2 :=
  Option.bind_fun_some _

theorem Program.trace_run (depth : Nat) (e : Entry) (s : Store) :
    (run e).trace (depth + 1) s = e :: (s.start e).1.trace depth (s.start e).2 := by
  have hend : ∀ r : Option (e.Reply × Store),
      (match r with
        | none => []
        | some (a, s) => entries (Store.enter (depth + 1)) (Store.entriesIn (depth + 1))
            (done a) s) = ([] : List Entry) := by
    rintro (_ | ⟨a, s⟩) <;> rfl
  rw [run, trace, entries, hend, List.append_nil]
  rfl

/-! ## Objects -/

/-- What an entry does to an object, if it operates on it. -/
def Entry.operation? (o : ObjectId) : Entry → Option Operation
  | .operate other op => if other = o then some op else none
  | _ => none

theorem Entry.eq_operate_of_operation? {o : ObjectId} {e : Entry} {op : Operation}
    (h : e.operation? o = some op) : e = .operate o op := by
  cases e with
  | operate other op' =>
      rw [operation?] at h
      split at h
      · rename_i hother
        rw [hother, Option.some.inj h]
      · cases h
  | _ => cases h

/-- The data of an object after some operations, one after the other. -/
def Object.dataAfter (object : Object) (self : ObjectId) (operations : List Operation) : Data :=
  operations.foldl (fun d op => (object.interface.handle self d op).1) object.data

namespace Store

theorem objects_answer (s : Store) (q : Query) : (s.answer q).2.objects = s.objects := by
  cases q with
  | intern t text =>
      show (s.intern t text).2.objects = s.objects
      unfold intern
      split <;> rfl
  | _ => rfl

theorem object_eq {s : Store} {o : ObjectId} {object : Object}
    (h : s.objects[o.index]? = some object) : s.object o = object := by
  rw [Store.object, h]
  rfl

theorem profile_eq {s : Store} {o : ObjectId} {object : Object}
    (h : s.objects[o.index]? = some object) :
    s.profile o = object.interface.profile s.outlook object.data := by
  rw [Store.profile, object_eq h]

/-- Giving an object the data it has changes nothing. -/
theorem setData_of_eq {s : Store} {o : ObjectId} {object : Object}
    (h : s.objects[o.index]? = some object) : s.setData o object.data = s := by
  have hobjects : s.objects.modify o.index (fun other => { other with data := object.data })
      = s.objects := by
    refine List.ext_getElem? fun i => ?_
    by_cases hi : o.index = i
    · rw [← hi, List.getElem?_modify_eq, h]
      rfl
    · rw [List.getElem?_modify_ne _ _ hi]
  rw [setData, hobjects]

/-- Giving an object other data leaves all others as they are. -/
theorem getElem?_setData_of_ne {o other : ObjectId} (h : other ≠ o) (s : Store) (d : Data) :
    (s.setData o d).objects[other.index]? = s.objects[other.index]? := by
  have hindex : o.index ≠ other.index := by
    intro heq
    cases o
    cases other
    exact h (congrArg ObjectId.mk heq.symm)
  show (s.objects.modify o.index _)[other.index]? = _
  rw [List.getElem?_modify_ne _ _ hindex]

/-- An operation that keeps the data of its object changes nothing. -/
theorem start_operate_of_keeps {s : Store} {o : ObjectId} {object : Object}
    (h : s.objects[o.index]? = some object) {op : Operation}
    (hkeeps : (object.interface.handle o object.data op).1 = object.data) :
    s.start (.operate o op) = ((object.interface.handle o object.data op).2, s) := by
  rw [start, object_eq h]
  show (_, s.setData o (object.interface.handle o object.data op).1) = _
  rw [hkeeps, setData_of_eq h]

/-- An object that is there stays when another one is put in. -/
theorem getElem?_addObject {s : Store} {o : ObjectId} {object : Object}
    (h : s.objects[o.index]? = some object) (new : Object) :
    (s.addObject new).2.objects[o.index]? = some object := by
  obtain ⟨hlt, _⟩ := List.getElem?_eq_some_iff.mp h
  show (s.objects ++ [new])[o.index]? = _
  rw [List.getElem?_append_left hlt, h]

/-- An entry that does not operate on an object leaves it as it is. -/
theorem getElem?_objects_start_of_none {s : Store} {o : ObjectId} {object : Object}
    (hobject : s.objects[o.index]? = some object) {e : Entry} (h : e.operation? o = none) :
    (s.start e).2.objects[o.index]? = some object := by
  cases e with
  | call f arguments => exact hobject
  | text other => exact hobject
  | create make captured => exact getElem?_addObject hobject _
  | instantiate like =>
      rw [start]
      split
      · exact getElem?_addObject hobject _
      · exact hobject
  | operate other op =>
      have hne : o ≠ other := by
        rintro rfl
        rw [Entry.operation?, if_pos rfl] at h
        cases h
      exact (getElem?_setData_of_ne hne s _).trans hobject

/-- An operation changes the data of its object as the interface says. -/
theorem getElem?_objects_operate {s : Store} {o : ObjectId} {object : Object}
    (h : s.objects[o.index]? = some object) (op : Operation) :
    (s.start (.operate o op)).2.objects[o.index]?
      = some ⟨object.interface, (object.interface.handle o object.data op).1⟩ := by
  show (s.objects.modify o.index _)[o.index]? = _
  rw [List.getElem?_modify_eq, h, object_eq h]
  rfl

/-- An object keeps its interface, and its data is what the operations on it made of it. -/
theorem Evolves.getElem?_objects {s s' : Store} {log : List Entry} (h : s.Evolves log s')
    {o : ObjectId} {object : Object} (hobject : s.objects[o.index]? = some object) :
    s'.objects[o.index]?
      = some ⟨object.interface, object.dataAfter o (log.filterMap (Entry.operation? o))⟩ := by
  -- only an operation on the object itself adds to what has been done to it
  induction h with
  | rest => exact hobject
  | answer q _ ih => rw [objects_answer, ih]
  | @start log s' e _ ih =>
      cases hop : e.operation? o with
      | none => rw [getElem?_objects_start_of_none ih hop, List.filterMap_append,
          List.filterMap_cons_none hop, List.filterMap_nil, List.append_nil]
      | some op =>
          have he := Entry.eq_operate_of_operation? hop
          rw [he] at hop ⊢
          rw [getElem?_objects_operate ih, List.filterMap_append, List.filterMap_cons_some hop,
            Object.dataAfter, Object.dataAfter, List.foldl_append]
          rfl
  | addObject new _ ih => exact getElem?_addObject ih new
  | addFunction f _ ih => exact ih
  | addTable _ ih => exact ih

/-! ## Functions -/

theorem functions_prefix_answer (s : Store) (q : Query) :
    s.functions <+: (s.answer q).2.functions := by
  cases q with
  | intern t text =>
      show s.functions <+: (s.intern t text).2.functions
      unfold intern
      split <;> exact List.prefix_rfl
  | bind o method => exact List.prefix_append s.functions [boundMethod o method]
  | newFunction make captured =>
      exact List.prefix_append s.functions [s.library.function make captured]
  | _ => exact List.prefix_rfl

/-- Entering code changes objects alone. -/
theorem exists_objects_start_eq (s : Store) (e : Entry) :
    ∃ objects, (s.start e).2 = { s with objects } := by
  cases e with
  | instantiate like =>
      rw [start]
      split <;> exact ⟨_, rfl⟩
  | _ => exact ⟨_, rfl⟩

theorem functions_start (s : Store) (e : Entry) : (s.start e).2.functions = s.functions := by
  obtain ⟨objects, h⟩ := s.exists_objects_start_eq e
  rw [h]

theorem symbols_start (s : Store) (e : Entry) : (s.start e).2.symbols = s.symbols := by
  obtain ⟨objects, h⟩ := s.exists_objects_start_eq e
  rw [h]

/-- New functions come behind the ones there are. -/
theorem Evolves.functions_prefix {s s' : Store} {log : List Entry} (h : s.Evolves log s') :
    s.functions <+: s'.functions := by
  induction h with
  | rest => exact List.prefix_rfl
  | @answer log s' q _ ih => exact ih.trans (s'.functions_prefix_answer q)
  | @start log s' e _ ih => rwa [s'.functions_start e]
  | addObject o _ ih => exact ih
  | @addFunction log s' f _ ih => exact ih.trans (List.prefix_append s'.functions [f])
  | addTable _ ih => exact ih

/-- A function keeps its code. -/
theorem Evolves.getElem?_functions {s s' : Store} {log : List Entry} (h : s.Evolves log s')
    {i : Nat} {f : Function} (hi : s.functions[i]? = some f) : s'.functions[i]? = some f := by
  obtain ⟨hlt, rfl⟩ := List.getElem?_eq_some_iff.mp hi
  exact List.prefix_iff_getElem?.mp h.functions_prefix i hlt

/-! ## Symbols -/

theorem symbols_prefix_answer (s : Store) (q : Query) : s.symbols <+: (s.answer q).2.symbols := by
  cases q with
  | intern t text =>
      show s.symbols <+: (s.intern t text).2.symbols
      unfold intern
      split
      · exact List.prefix_rfl
      · exact List.prefix_append s.symbols [text]
  | _ => exact List.prefix_rfl

/-- New symbols come behind the ones there are. -/
theorem Evolves.symbols_prefix {s s' : Store} {log : List Entry} (h : s.Evolves log s') :
    s.symbols <+: s'.symbols := by
  induction h with
  | rest => exact List.prefix_rfl
  | @answer log s' q _ ih => exact ih.trans (s'.symbols_prefix_answer q)
  | @start log s' e _ ih => rwa [s'.symbols_start e]
  | addObject o _ ih => exact ih
  | addFunction f _ ih => exact ih
  | addTable _ ih => exact ih

/-- A symbol keeps its text. -/
theorem Evolves.getElem?_symbols {s s' : Store} {log : List Entry} (h : s.Evolves log s') {i : Nat}
    {text : String} (hi : s.symbols[i]? = some text) : s'.symbols[i]? = some text := by
  obtain ⟨hlt, rfl⟩ := List.getElem?_eq_some_iff.mp hi
  exact List.prefix_iff_getElem?.mp h.symbols_prefix i hlt

/-- What a table has for a text is a symbol with the text. -/
theorem getElem?_symbols_of_find? {s : Store} {t : TableId} {text : String} {symbol : SymbolId}
    (h : (s.table t).find? text = some symbol) : s.symbols[symbol.index]? = some text := by
  unfold table at h
  cases htable : s.tables[t.index]? with
  | none =>
      rw [htable] at h
      cases h
  | some table =>
      rw [htable] at h
      exact s.sound table (List.mem_of_getElem? htable) text symbol h

/-- The symbol for a text has the text. -/
theorem getElem?_symbols_intern (s : Store) (t : TableId) (text : String) :
    (s.intern t text).2.symbols[(s.intern t text).1.index]? = some text := by
  unfold intern
  split
  · rename_i symbol hfind
    exact getElem?_symbols_of_find? hfind
  · exact List.getElem?_concat_length

end Store

end ScriptHost
