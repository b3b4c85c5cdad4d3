import ScriptHost.Entries
import ScriptHost.Host.Program

/-!
# The store

Everything that has an identity lives in a store: objects, functions and symbols, each at its
number, and the symbol tables. Nothing is ever taken out, so an identity stays good. The tables of
a store are sound: what a table has for a text is a symbol with that text.

An object is an interface and the data it holds. Only the interface looks at the data: it tells
what the object says of itself, and how an operation changes the data and which program then
gives the result. What an object says of itself may depend on all that there is in the store
(`Surroundings`), on other objects too, as when an object stands for another one. It is assumed
that saying so has no effect. Objects that see each other in a circle would never come to an answer;
wherever they do not, `Store.profile` is the answer (`Store.RankedBy.profile_eq`).

A store also has the code that the programs in it can make objects and functions of (`Library`).

`Program.runIn` runs a program in a store. It counts how deep code enters other code and gives up,
with none, at a given depth; a deeper limit never changes an answer that was reached
(`runIn_mono`).
-/

set_option autoImplicit false

namespace ScriptHost

/-! ## What a store holds -/

/-- The values that an object holds, by position and by name. -/
structure Data where
  slots : List Value
  named : Entries Value

/-- Texts with their symbols. -/
abbrev SymbolTable := Entries SymbolId

/-- What an object sees of a store: what all objects say of themselves and hold, the names of the
functions, the texts of the symbols, and the tables. -/
structure Surroundings where
  profile : ObjectId → Profile
  data : ObjectId → Data
  functionName : FunctionId → String
  symbolText : SymbolId → String
  table : TableId → SymbolTable

/-- How objects of one make behave. -/
structure Interface where
  /-- The data of a new object. -/
  fresh : Data
  /-- What the object says of itself, by what it sees and what it holds. -/
  profile : Surroundings → Data → Profile
  /-- The object's data after an operation has been taken, and the program that gives the
  result. -/
  handle : ObjectId → Data → Operation → Data × Program Outcome
  /-- The program that converts the object to text. -/
  text : ObjectId → Data → Program String

/-- A host object. -/
structure Object where
  interface : Interface
  data : Data

/-- A host function. -/
structure Function where
  name : String
  body : List Value → Program Outcome

/-- The code that programs can make objects and functions of. -/
structure Library where
  object : Make → Captured → Object
  function : Make → Captured → Function

/-- A table is sound for the texts of the symbols if each text in it stands at a symbol with that
text. -/
def SymbolTable.Sound (symbols : List String) (table : SymbolTable) : Prop :=
  ∀ text symbol, Entries.find? text table = some symbol → symbols[symbol.index]? = some text

/-- Everything that has an identity. -/
structure Store where
  objects : List Object
  functions : List Function
  /-- The texts of the symbols. -/
  symbols : List String
  tables : List SymbolTable
  library : Library
  sound : ∀ table ∈ tables, table.Sound symbols

namespace SymbolTable

theorem sound_nil (symbols : List String) : Sound symbols [] := by
  intro text symbol h
  cases h

/-- A table is sound for more symbols than before. -/
theorem Sound.append {symbols : List String} {table : SymbolTable} (h : table.Sound symbols)
    (text : String) : table.Sound (symbols ++ [text]) := by
  intro other symbol hfind
  have hold : symbols[symbol.index]? = some other := h other symbol hfind
  obtain ⟨hlt, _⟩ := List.getElem?_eq_some_iff.mp hold
  rw [List.getElem?_append_left hlt, hold]

/-- A table stays sound when a new symbol is put into it. -/
theorem Sound.put {symbols : List String} {table : SymbolTable} (h : table.Sound symbols)
    (text : String) : Sound (symbols ++ [text]) (Entries.put text ⟨symbols.length⟩ table) := by
  intro other symbol hfind
  by_cases hother : other = text
  · rw [hother, Entries.find?_put_self, Option.some.injEq] at hfind
    rw [← hfind, hother]
    exact List.getElem?_concat_length
  · rw [Entries.find?_put_of_ne hother] at hfind
    exact h.append text other symbol hfind

end SymbolTable

/-- The text of an object that has none of its own. -/
def plainText (className : String) : String := "[object " ++ className ++ "]"

/-- The error of an operation that objects of a class do not support, for calls and for access to
elements. -/
def unsupported (className : String) : Operation → HostError
  | .element _ => .typeMismatch "indexable" className
  | _ => .notCallable className

/-- An object without members. -/
def Object.absent : Object where
  interface :=
    { fresh := ⟨[], []⟩
      profile := fun _ _ => .absent
      handle := fun _ d op => (d, .done (.error (unsupported "" op)))
      text := fun _ _ => .done (plainText "") }
  data := ⟨[], []⟩

/-- A function that does nothing. -/
def Function.absent : Function := ⟨"", fun _ => .done (.ok .undefined)⟩

/-- The library without any code of its own. -/
def Library.none : Library := ⟨fun _ _ => .absent, fun _ _ => .absent⟩

/-- A new object of the make of another one. -/
def Object.sibling (o : Object) : Object := ⟨o.interface, o.interface.fresh⟩

namespace Store

/-- The store with nothing in it but an empty common table. -/
def empty (library : Library := .none) : Store where
  objects := []
  functions := []
  symbols := []
  tables := [[]]
  library := library
  sound := by
    intro table htable
    rw [List.mem_singleton.mp htable]
    exact SymbolTable.sound_nil []

/-! ## Objects -/

/-- The object with an identity. -/
def object (s : Store) (o : ObjectId) : Object := (s.objects[o.index]?).getD .absent

/-- Puts an object in. -/
def addObject (s : Store) (o : Object) : ObjectId × Store :=
  (⟨s.objects.length⟩, { s with objects := s.objects ++ [o] })

/-- Gives an object other data. -/
def setData (s : Store) (o : ObjectId) (d : Data) : Store :=
  { s with objects := s.objects.modify o.index fun object => { object with data := d } }

/-! ## Functions -/

/-- The function with an identity. -/
def function (s : Store) (f : FunctionId) : Function := (s.functions[f.index]?).getD .absent

/-- Puts a function in. -/
def addFunction (s : Store) (f : Function) : FunctionId × Store :=
  (⟨s.functions.length⟩, { s with functions := s.functions ++ [f] })

/-- The function that calls a method of an object. -/
def boundMethod (o : ObjectId) (method : String) : Function :=
  ⟨method, fun arguments => .run (.operate o (.callMethod method arguments))⟩

/-! ## Symbols -/

/-- The text of a symbol. -/
def symbolText (s : Store) (symbol : SymbolId) : String := (s.symbols[symbol.index]?).getD ""

/-- The table with an identity. -/
def table (s : Store) (t : TableId) : SymbolTable := (s.tables[t.index]?).getD []

theorem sound_addTable (s : Store) : ∀ table ∈ s.tables ++ [[]], table.Sound s.symbols := by
  intro table htable
  rcases List.mem_append.mp htable with hold | hnew
  · exact s.sound table hold
  · rw [List.mem_singleton.mp hnew]
    exact SymbolTable.sound_nil s.symbols

/-- Puts an empty table in. -/
def addTable (s : Store) : TableId × Store :=
  (⟨s.tables.length⟩, { s with tables := s.tables ++ [[]], sound := s.sound_addTable })

theorem sound_intern (s : Store) (i : Nat) (text : String) :
    ∀ table ∈ s.tables.modify i (Entries.put text ⟨s.symbols.length⟩),
      table.Sound (s.symbols ++ [text]) := by
  intro table htable
  obtain ⟨j, hj⟩ := List.getElem?_of_mem htable
  by_cases hij : i = j
  · rw [hij, List.getElem?_modify_eq] at hj
    obtain ⟨old, hold, rfl⟩ := Option.map_eq_some_iff.mp hj
    exact (s.sound old (List.mem_of_getElem? hold)).put text
  · rw [List.getElem?_modify_ne _ _ hij] at hj
    exact (s.sound table (List.mem_of_getElem? hj)).append text

/-- The symbol for a text in a table: the one the table has, or a new one. -/
def intern (s : Store) (t : TableId) (text : String) : SymbolId × Store :=
  match Entries.find? text (s.table t) with
  | some symbol => (symbol, s)
  | none =>
    let symbol : SymbolId := ⟨s.symbols.length⟩
    (symbol,
      { s with
        symbols := s.symbols ++ [text]
        tables := s.tables.modify t.index (Entries.put text symbol)
        sound := s.sound_intern t.index text })

/-! ## What objects say of themselves -/

/-- What an object sees, when `profile` tells what the objects say of themselves. -/
def surroundings (s : Store) (profile : ObjectId → Profile) : Surroundings where
  profile := profile
  data o := (s.object o).data
  functionName f := (s.function f).name
  symbolText := s.symbolText
  table := s.table

/-- What an object says of itself, when objects see other objects down to a depth. -/
def profileAt (s : Store) : Nat → ObjectId → Profile
  | 0, _ => .absent
  | depth + 1, o =>
    (s.object o).interface.profile (s.surroundings (s.profileAt depth)) (s.object o).data

/-- What the objects of a store see of it. Where none see each other in a circle, they see each
other no deeper than there are objects. -/
def outlook (s : Store) : Surroundings := s.surroundings (s.profileAt s.objects.length)

/-- What an object says of itself. -/
def profile (s : Store) (o : ObjectId) : Profile :=
  (s.object o).interface.profile s.outlook (s.object o).data

/-- Whether an object can be called. -/
def callable (s : Store) (o : ObjectId) : Bool := (s.profile o).callable

/-- What an object says of itself only depends on what objects of lower rank say. -/
def RankedBy (s : Store) (rank : ObjectId → Nat) : Prop :=
  ∀ o p p', (∀ other, rank other < rank o → p other = p' other) →
    (s.object o).interface.profile (s.surroundings p) (s.object o).data
      = (s.object o).interface.profile (s.surroundings p') (s.object o).data

/-- Below the rank of an object it makes no difference how deep objects see each other. -/
theorem RankedBy.profileAt_eq {s : Store} {rank : ObjectId → Nat} (h : s.RankedBy rank)
    {o : ObjectId} {m n : Nat} (hm : rank o < m) (hn : rank o < n) :
    s.profileAt m o = s.profileAt n o := by
  induction m generalizing n o with
  | zero => exact absurd hm (Nat.not_lt_zero _)
  | succ m ih =>
    cases n with
    | zero => exact absurd hn (Nat.not_lt_zero _)
    | succ n =>
      exact h o _ _ fun other hother =>
        ih (Nat.lt_of_lt_of_le hother (Nat.le_of_lt_succ hm))
          (Nat.lt_of_lt_of_le hother (Nat.le_of_lt_succ hn))

/-- Where no objects see each other in a circle, an object sees the other ones as what they say of
themselves. -/
theorem RankedBy.profile_eq {s : Store} {rank : ObjectId → Nat} (h : s.RankedBy rank)
    (hrank : ∀ o, rank o ≤ s.objects.length) (o : ObjectId) :
    s.profile o
      = (s.object o).interface.profile (s.surroundings s.profile) (s.object o).data := by
  refine h o _ _ fun other hother => ?_
  exact h.profileAt_eq (Nat.lt_of_lt_of_le hother (hrank o)) (Nat.lt_succ_of_le (hrank other))

/-! ## Running programs -/

/-- Answers a question. -/
def answer (s : Store) : (q : Query) → q.Reply × Store
  | .profile o => (s.profile o, s)
  | .symbolText symbol => (s.symbolText symbol, s)
  | .functionName f => ((s.function f).name, s)
  | .intern t text => s.intern t text
  | .contains t text => ((s.table t).contains text, s)
  | .size t => ((s.table t).length, s)
  | .bind o method => s.addFunction (boundMethod o method)
  | .newFunction make captured => s.addFunction (s.library.function make captured)
  | .newTable => s.addTable

/-- The program behind an entry, and the store it runs in. -/
def start (s : Store) : (e : Entry) → Program e.Reply × Store
  | .call f arguments => ((s.function f).body arguments, s)
  | .operate o operation =>
    let object := s.object o
    let (d, p) := object.interface.handle o object.data operation
    (p, s.setData o d)
  | .text o => ((s.object o).interface.text o (s.object o).data, s)
  | .create make captured =>
    let (o, s) := s.addObject (s.library.object make captured)
    (.done o, s)
  | .instantiate like =>
    match s.objects[like.index]? with
    | some object =>
      let (o, s) := s.addObject object.sibling
      (.done o, s)
    | none => (.done like, s)

end Store

/-- How entered code is run. -/
abbrev Runner := (e : Entry) → Store → Option (e.Reply × Store)

/-- Runs a program, with a given way to run the code it enters. -/
def Program.exec {α : Type} (enter : Runner) : Program α → Store → Option (α × Store)
  | .done a, s => some (a, s)
  | .query q next, s =>
    let (r, s) := s.answer q
    exec enter (next r) s
  | .enter e next, s => (enter e s).bind fun (r, s) => exec enter (next r) s

/-- Runs entered code, down to a depth of entries. -/
def Store.enter : Nat → Runner
  | 0, _, _ => none
  | depth + 1, e, s =>
    let (p, s) := s.start e
    p.exec (enter depth) s

/-- Runs a program in a store, down to a depth of entries. -/
def Program.runIn {α : Type} (depth : Nat) (p : Program α) (s : Store) : Option (α × Store) :=
  p.exec (Store.enter depth) s

namespace Program

variable {α β : Type}

theorem exec_bind (enter : Runner) (p : Program α) (f : α → Program β) (s : Store) :
    (bind p f).exec enter s = (p.exec enter s).bind fun (a, s) => (f a).exec enter s := by
  induction p generalizing s with
  | done a => rfl
  | query q next ih => exact ih _ _
  | enter e next ih =>
    simp only [bind, exec, Option.bind_assoc]
    exact congrArg _ (funext fun r => ih r.1 r.2)

/-- Running entered code for longer keeps the answers of a program. -/
theorem exec_mono {enter enter' : Runner}
    (h : ∀ e s r, enter e s = some r → enter' e s = some r) (p : Program α) {s : Store}
    {r : α × Store} (hp : p.exec enter s = some r) : p.exec enter' s = some r := by
  induction p generalizing s with
  | done a => exact hp
  | query q next ih => exact ih _ hp
  | enter e next ih =>
    obtain ⟨a, ha, hr⟩ := Option.bind_eq_some_iff.1 hp
    exact Option.bind_eq_some_iff.2 ⟨a, h e s a ha, ih a.1 hr⟩

end Program

theorem Store.enter_succ {depth : Nat} {e : Entry} {s : Store} {r : e.Reply × Store}
    (h : Store.enter depth e s = some r) : Store.enter (depth + 1) e s = some r := by
  induction depth generalizing e s with
  | zero => simp [Store.enter] at h
  | succ depth ih => exact Program.exec_mono (fun _ _ _ => ih) _ h

theorem Program.runIn_mono {α : Type} {p : Program α} {s : Store} {r : α × Store} {m n : Nat}
    (hmn : m ≤ n) (h : p.runIn m s = some r) : p.runIn n s = some r := by
  induction hmn with
  | refl => exact h
  | step _ ih => exact Program.exec_mono (fun _ _ _ => Store.enter_succ) p ih

end ScriptHost
