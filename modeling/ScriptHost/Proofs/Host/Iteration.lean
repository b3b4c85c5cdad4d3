import ScriptHost.Host.Cursor
import ScriptHost.Host.Sheet
import ScriptHost.Proofs.Host.Properties

/-!
# Iteration while the store changes

The names that a cursor hands out are fixed when it is made; the values are looked up step by
step, in the store as it is by then. `Cursor.Follows` describes all that can happen to a cursor
and the store around it: steps of the cursor, and between them any change of the store.

Main statement: at any moment the cursor stands behind as many names as steps have been made, the
results so far are those of the names in their order, and the next step evaluates the member of the
next name in the present store (`Cursor.iterates_begin`).
-/

set_option autoImplicit false

namespace ScriptHost

/-! ## Names that a value lists -/

/-- A value lists some names: an object its own properties if it can tell them, and otherwise its
keys and then its methods, of which it may be able to tell neither; any other value lists nothing.
A name stands in the list as often as the object tells it. -/
inductive Store.Lists (s : Store) : Value → List String → Prop
  | ownProperties {o : ObjectId} {names : List String}
      (h : (s.profile o).ownProperties = some names) : Lists s (.object o) names
  | keysAndMethods {o : ObjectId} (h : (s.profile o).ownProperties = none) :
      Lists s (.object o) ((s.profile o).keys.getD [] ++ (s.profile o).methods.getD [])
  | nothing {v : Value} (h : v.object? = none) : Lists s v []

/-- An iteration over an object visits the names that the object lists. -/
theorem Store.lists_object_iff {s : Store} {o : ObjectId} {names : List String} :
    s.Lists (.object o) names ↔ names = (s.profile o).names := by
  unfold Profile.names
  constructor
  · intro h
    cases h with
    | ownProperties h => rw [h]
    | keysAndMethods h => rw [h]
    | nothing h => cases h
  · rintro rfl
    split
    · rename_i names h
      exact .ownProperties h
    · rename_i h
      exact .keysAndMethods h

/-! ## Symbols for a list of texts -/

/-- The symbols stand for the texts, one by one. -/
def Store.Spells (s : Store) (symbols : List SymbolId) (texts : List String) : Prop :=
  symbols.map (fun symbol => s.symbols[symbol.index]?) = texts.map some

namespace Store

variable {s s' : Store} {symbols : List SymbolId} {texts : List String}

theorem Spells.length_eq (h : s.Spells symbols texts) : symbols.length = texts.length := by
  have hlength := congrArg List.length h
  rwa [List.length_map, List.length_map] at hlength

theorem Spells.map_symbolText (h : s.Spells symbols texts) : symbols.map s.symbolText = texts := by
  have htexts := congrArg (List.map fun text? : Option String => text?.getD "") h
  rw [List.map_map, List.map_map] at htexts
  exact htexts.trans (List.map_id texts)

/-- At the place of a text stands a symbol for it. -/
theorem Spells.exists_getElem? (h : s.Spells symbols texts) {k : Nat} {text : String}
    (hk : texts[k]? = some text) :
    ∃ symbol, symbols[k]? = some symbol ∧ s.symbolText symbol = text := by
  rw [← h.map_symbolText, List.getElem?_map] at hk
  exact Option.map_eq_some_iff.mp hk

/-- At the place of a symbol stands its text. -/
theorem Spells.getElem?_texts (h : s.Spells symbols texts) {k : Nat} {symbol : SymbolId}
    (hk : symbols[k]? = some symbol) : texts[k]? = some (s.symbolText symbol) := by
  rw [← h.map_symbolText, List.getElem?_map, hk]
  rfl

theorem Spells.symbolText_eq (h : s.Spells symbols texts) {k : Nat} {symbol : SymbolId}
    (hk : symbols[k]? = some symbol) {text : String} (htext : texts[k]? = some text) :
    s.symbolText symbol = text := by
  have hspelled := h.getElem?_texts hk
  rw [htext] at hspelled
  exact (Option.some.inj hspelled).symm

theorem Spells.drop (h : s.Spells symbols texts) (k : Nat) :
    s.Spells (symbols.drop k) (texts.drop k) := by
  rw [Spells, List.map_drop, List.map_drop, h]

/-- Symbols go on standing for the same texts. -/
theorem Evolves.spells {log : List Entry} (h : s.Evolves log s') (hs : s.Spells symbols texts) :
    s'.Spells symbols texts := by
  refine Eq.trans (List.map_congr_left fun symbol hsymbol => ?_) hs
  have hmem : s.symbols[symbol.index]? ∈ texts.map some := hs ▸ List.mem_map_of_mem hsymbol
  obtain ⟨text, _, htext⟩ := List.mem_map.mp hmem
  rw [← htext]
  exact h.getElem?_symbols htext.symm

end Store

namespace Cursor

/-- The symbols for some texts can always be had, and they stand for the texts. -/
theorem runIn_internAll (t : TableId) (texts : List String) (s : Store) :
    ∃ symbols s', (∀ depth, (internAll t texts).runIn depth s = some (symbols, s'))
      ∧ s.Evolves [] s' ∧ s'.Spells symbols texts := by
  induction texts generalizing s with
  | nil => exact ⟨[], s, fun _ => rfl, .rest, rfl⟩
  | cons text texts ih =>
      have hfirst : s.Evolves [] (s.intern t text).2 := Store.Evolves.rest.answer (.intern t text)
      obtain ⟨symbols, s', hrun, hevolves, hspells⟩ := ih (s.intern t text).2
      refine ⟨(s.intern t text).1 :: symbols, s', ?_, hfirst.trans hevolves, ?_⟩
      · intro depth
        show (Program.bind (internAll t texts) _).runIn depth (s.intern t text).2 = _
        rw [Program.runIn_bind, hrun]
        rfl
      · rw [Store.Spells, List.map_cons, List.map_cons, hspells,
          hevolves.getElem?_symbols (s.getElem?_symbols_intern t text)]

/-! ## Steps -/

variable {c : Cursor}

/-- At the end, a step gives nothing and changes nothing. -/
theorem runIn_advance_end (h : c.names[c.position]? = none) (depth : Nat) (s : Store) :
    c.advance.runIn depth s = some ((.ok none, c), s) := by
  rw [advance, h]
  rfl

/-- Without values, a step gives the next name and goes past it. -/
theorem runIn_advance_name {name : SymbolId} (h : c.names[c.position]? = some name)
    (hsource : c.source = none) (depth : Nat) (s : Store) :
    c.advance.runIn depth s = some ((.ok (some (.name name)), c.passed), s) := by
  rw [advance, h]
  show (Program.bind (c.item name) _).runIn depth s = _
  rw [item, hsource]
  rfl

/-- With values, a step looks up the member of the next name and goes past the name, whether or not
there is a value. -/
theorem runIn_advance_pair {name : SymbolId} (h : c.names[c.position]? = some name) {o : ObjectId}
    (hsource : c.source = some o) (depth : Nat) (s : Store) :
    c.advance.runIn depth s
      = ((member o (s.symbolText name)).runIn depth s).map fun (value, s') =>
          ((value.map fun v => some (.pair name v), c.passed), s') := by
  rw [advance, h]
  show (Program.bind (c.item name) _).runIn depth s = _
  rw [item, hsource, Program.runIn_bind]
  show ((Program.bind (member o (s.symbolText name)) _).runIn depth s).bind _ = _
  rw [Program.runIn_bind]
  cases (member o (s.symbolText name)).runIn depth s with
  | none => rfl
  | some answer =>
      obtain ⟨value, s'⟩ := answer
      cases value <;> rfl

/-- Behind a name, the symbols that are left stand for the texts behind its text. -/
theorem spells_passed {s s' : Store} {text : String} {texts : List String}
    (h : s.Spells (c.names.drop c.position) (text :: texts)) {log : List Entry}
    (hs : s.Evolves log s') : s'.Spells (c.passed.names.drop c.passed.position) texts := by
  have hdrop := hs.spells (h.drop 1)
  rwa [List.drop_drop] at hdrop

/-- What the step behind `k` names may give: with a name left, the name or, with values, the name
with a value or an error in its place; otherwise nothing. -/
def Gives (c : Cursor) (k : Nat) (result : Except HostError (Option Member)) : Prop :=
  match c.names[k]?, c.source with
  | none, _ => result = .ok none
  | some name, none => result = .ok (some (.name name))
  | some name, some _ =>
    (∃ value, result = .ok (some (.pair name value))) ∨ ∃ e, result = .error e

/-- A step gives what its place allows, and goes past one name if there is one. -/
theorem gives_of_advance {depth : Nat} {s s' : Store} {result : Except HostError (Option Member)}
    {c' : Cursor} (h : c.advance.runIn depth s = some ((result, c'), s')) :
    c.Gives c.position result ∧ c' = if c.position < c.length then c.passed else c := by
  rw [Gives]
  cases hname : c.names[c.position]? with
  | none =>
      rw [runIn_advance_end hname] at h
      cases h
      exact ⟨rfl, (if_neg (Nat.not_lt.mpr (List.getElem?_eq_none_iff.mp hname))).symm⟩
  | some name =>
      obtain ⟨hlt, _⟩ := List.getElem?_eq_some_iff.mp hname
      rw [if_pos (show c.position < c.length from hlt)]
      cases hsource : c.source with
      | none =>
          rw [runIn_advance_name hname hsource] at h
          cases h
          exact ⟨rfl, rfl⟩
      | some o =>
          rw [runIn_advance_pair hname hsource] at h
          obtain ⟨⟨value, s₁⟩, _, heq⟩ := Option.map_eq_some_iff.mp h
          cases heq
          cases value with
          | ok value => exact ⟨.inl ⟨value, rfl⟩, rfl⟩
          | error e => exact ⟨.inr ⟨e, rfl⟩, rfl⟩

/-! ## Iterations -/

/-- What can come about from a cursor in a store, with the results of the steps made on the way:
the store changes in any way, or the cursor makes a step. -/
inductive Follows (c₀ : Cursor) (s₀ : Store) :
    List (Except HostError (Option Member)) → Cursor → Store → Prop
  | start : Follows c₀ s₀ [] c₀ s₀
  | meanwhile {results : List (Except HostError (Option Member))} {c : Cursor} {s s' : Store}
      {log : List Entry} (h : Follows c₀ s₀ results c s) (hs : s.Evolves log s') :
      Follows c₀ s₀ results c s'
  | step {results : List (Except HostError (Option Member))} {c c' : Cursor} {s s' : Store}
      {depth : Nat} {result : Except HostError (Option Member)} (h : Follows c₀ s₀ results c s)
      (hstep : c.advance.runIn depth s = some ((result, c'), s')) :
      Follows c₀ s₀ (results ++ [result]) c' s'

variable {c₀ : Cursor} {s₀ s : Store} {results : List (Except HostError (Option Member))}

theorem Follows.evolves (h : c₀.Follows s₀ results c s) : ∃ log, s₀.Evolves log s := by
  induction h with
  | start => exact ⟨[], .rest⟩
  | meanwhile _ hs ih =>
      obtain ⟨log, hlog⟩ := ih
      exact ⟨_, hlog.trans hs⟩
  | step _ hstep ih =>
      obtain ⟨log, hlog⟩ := ih
      exact ⟨_, hlog.trans (Program.evolves_of_runIn hstep)⟩

/-- A step that comes to an end can be made. -/
theorem Follows.advance (h : c₀.Follows s₀ results c s) (depth : Nat)
    (hends : (c.advance.runIn depth s).isSome = true) :
    c₀.Follows s₀ (results ++ [((c.advance.runIn depth s).get hends).1.1])
      ((c.advance.runIn depth s).get hends).1.2 ((c.advance.runIn depth s).get hends).2 :=
  h.step (Option.some_get hends).symm

/-- What a cursor at its beginning has become after some steps: its names and its source are the
same, it is behind one name for each step as long as there are names, and each step has given what
its place allows. -/
structure Continues (c₀ : Cursor) (results : List (Except HostError (Option Member)))
    (c : Cursor) : Prop where
  names_eq : c.names = c₀.names
  source_eq : c.source = c₀.source
  position_eq : c.position = min results.length c.length
  gives (k : Nat) (result : Except HostError (Option Member)) (h : results[k]? = some result) :
    c.Gives k result

theorem Continues.position_le (h : c₀.Continues results c) : c.position ≤ c.length := by
  rw [h.position_eq]
  exact Nat.min_le_right _ _

/-- What the next step gives counts as the result behind all others, also at the end. -/
theorem Continues.gives_next (h : c₀.Continues results c)
    {result : Except HostError (Option Member)} (hresult : c.Gives c.position result) :
    c.Gives results.length result := by
  have hplace : c.names[results.length]? = c.names[c.position]? := by
    rw [h.position_eq]
    rcases Nat.le_total results.length c.length with hle | hge
    · rw [Nat.min_eq_left hle]
    · have hend : c.names[c.length]? = none := List.getElem?_eq_none (Nat.le_refl _)
      rw [Nat.min_eq_right hge, List.getElem?_eq_none hge, hend]
  rwa [Gives, hplace]

theorem Continues.advance (h : c₀.Continues results c) {depth : Nat} {s' : Store}
    {result : Except HostError (Option Member)} {c' : Cursor}
    (hstep : c.advance.runIn depth s = some ((result, c'), s')) :
    c₀.Continues (results ++ [result]) c' := by
  obtain ⟨hresult, hc'⟩ := gives_of_advance hstep
  -- names and source do not change, so what is right for `c` is right for `c'`
  have hgives : ∀ k r, (results ++ [result])[k]? = some r → c.Gives k r := by
    intro k r hk
    rcases Nat.lt_trichotomy k results.length with hlt | rfl | hgt
    · rw [List.getElem?_append_left hlt] at hk
      exact h.gives k r hk
    · rw [List.getElem?_concat_length, Option.some.injEq] at hk
      exact hk ▸ h.gives_next hresult
    · have hend : (results ++ [result]).length ≤ k := by
        rw [List.length_append, List.length_singleton]
        omega
      rw [List.getElem?_eq_none hend] at hk
      cases hk
  have hposition := h.position_eq
  by_cases hlt : c.position < c.length
  · rw [if_pos hlt] at hc'
    subst hc'
    refine ⟨h.names_eq, h.source_eq, ?_, hgives⟩
    show c.position + 1 = min (results ++ [result]).length c.length
    rw [List.length_append, List.length_singleton]
    omega
  · rw [if_neg hlt] at hc'
    subst hc'
    refine ⟨h.names_eq, h.source_eq, ?_, hgives⟩
    rw [List.length_append, List.length_singleton]
    omega

theorem Follows.continues (h : c₀.Follows s₀ results c s) (hstart : c₀.position = 0) :
    c₀.Continues results c := by
  induction h with
  | start =>
      refine ⟨rfl, rfl, by rw [hstart, List.length_nil, Nat.zero_min], ?_⟩
      intro k result hk
      cases hk
  | meanwhile _ _ ih => exact ih
  | step _ hstep ih => exact ih.advance hstep

theorem Follows.position_le (h : c₀.Follows s₀ results c s) : c₀.position ≤ c.position := by
  induction h with
  | start => exact Nat.le_refl _
  | meanwhile _ _ ih => exact ih
  | step _ hstep ih =>
      obtain ⟨_, hc'⟩ := gives_of_advance hstep
      refine Nat.le_trans ih ?_
      rw [hc']
      split
      · exact Nat.le_succ _
      · exact Nat.le_refl _

/-- What holds at a moment of an iteration over a listing of names, after some steps with their
results. -/
structure Iterates (c : Cursor) (listing : List String)
    (results : List (Except HostError (Option Member))) (s : Store) : Prop where
  /-- The names are the listing, each as often as it stands there. -/
  names_eq : c.names.map s.symbolText = listing
  /-- Each step so far went past one name, and the steps behind the last name past none. -/
  position_eq : c.position = min results.length listing.length
  position_le : c.position ≤ c.length
  hasNext_iff : c.hasNext = true ↔ c.position < c.length
  position_add_remaining : c.position + c.remaining = c.length
  /-- The results are those of the names in their order, and nothing behind the last name. -/
  gives (k : Nat) (result : Except HostError (Option Member)) (h : results[k]? = some result) :
    c.Gives k result
  /-- From the end on, steps give nothing and change nothing. -/
  runIn_advance_end (h : listing.length ≤ results.length) (depth : Nat) :
    c.advance.runIn depth s = some ((.ok none, c), s)
  /-- Without values, the next step gives the next name. -/
  runIn_advance_name (hsource : c.source = none) {name : SymbolId}
    (h : c.names[c.position]? = some name) (depth : Nat) :
    c.advance.runIn depth s = some ((.ok (some (.name name)), c.passed), s)
  /-- With values, the next step evaluates the member of the next name as things are now. -/
  runIn_advance_pair {o : ObjectId} (hsource : c.source = some o) {name : SymbolId}
    (h : c.names[c.position]? = some name) {text : String}
    (htext : listing[c.position]? = some text) (depth : Nat) :
    c.advance.runIn depth s
      = ((member o text).runIn depth s).map fun (value, s') =>
          ((value.map fun v => some (.pair name v), c.passed), s')
  /-- The place is never taken back. -/
  position_mono {results' : List (Except HostError (Option Member))} {c' : Cursor} {s' : Store}
    (h : c.Follows s results' c' s') : c.position ≤ c'.position

theorem Continues.iterates (h : c₀.Continues results c) {listing : List String}
    (hnames : s.Spells c.names listing) : c.Iterates listing results s where
  names_eq := hnames.map_symbolText
  position_eq := by
    rw [← hnames.length_eq]
    exact h.position_eq
  position_le := h.position_le
  hasNext_iff := decide_eq_true_iff
  position_add_remaining := Nat.add_sub_of_le h.position_le
  gives := h.gives
  runIn_advance_end := by
    intro hend depth
    have hposition : c.position = c.length := by
      rw [h.position_eq]
      exact Nat.min_eq_right (Nat.le_trans (Nat.le_of_eq hnames.length_eq) hend)
    refine Cursor.runIn_advance_end (List.getElem?_eq_none ?_) depth s
    exact Nat.le_of_eq hposition.symm
  runIn_advance_name := fun hsource _ hname depth =>
    Cursor.runIn_advance_name hname hsource depth s
  runIn_advance_pair := by
    intro o hsource name hname text htext depth
    rw [Cursor.runIn_advance_pair hname hsource, hnames.symbolText_eq hname htext]
  position_mono := Follows.position_le

/-- A cursor over an object takes the symbols for the names that the object lists now. -/
theorem runIn_begin_object (t : TableId) (o : ObjectId) (namesOnly : Bool) (depth : Nat)
    (s : Store) :
    (begin t (.object o) namesOnly).runIn depth s
      = ((internAll t (s.profile o).names).runIn depth s).map fun (names, s') =>
          (⟨names, 0, if namesOnly then none else some o⟩, s') := by
  show (Program.bind (internAll t (s.profile o).names) _).runIn depth s = _
  rw [Program.runIn_bind]
  cases (internAll t (s.profile o).names).runIn depth s <;> rfl

/-- A cursor can be made for every value. It stands in front of the names that the value lists. -/
theorem exists_begin (t : TableId) (v : Value) (namesOnly : Bool) (s : Store) :
    ∃ c₀ s₀ listing, s.Lists v listing
      ∧ (∀ depth, (begin t v namesOnly).runIn depth s = some (c₀, s₀))
      ∧ c₀.position = 0
      ∧ c₀.source = (if namesOnly then none else v.object?)
      ∧ s₀.Spells c₀.names listing := by
  cases v with
  | object o =>
      obtain ⟨symbols, s₀, hrun, _, hspells⟩ := runIn_internAll t (s.profile o).names s
      refine ⟨⟨symbols, 0, if namesOnly then none else some o⟩, s₀, _,
        Store.lists_object_iff.mpr rfl, ?_, rfl, rfl, hspells⟩
      intro depth
      rw [runIn_begin_object, hrun]
      rfl
  | _ =>
      exact ⟨overNames [], s, [], .nothing rfl, fun _ => rfl, rfl, by cases namesOnly <;> rfl, rfl⟩

/-- A cursor can be made for every value. Whatever happens afterward to the cursor and the store, it
iterates over the names that the value listed when the cursor was made. -/
theorem iterates_begin (t : TableId) (v : Value) (namesOnly : Bool) (s : Store) :
    ∃ c₀ s₀ listing, s.Lists v listing
      ∧ (∀ depth, (begin t v namesOnly).runIn depth s = some (c₀, s₀))
      ∧ ∀ results c s', c₀.Follows s₀ results c s' →
        c.source = (if namesOnly then none else v.object?)
          ∧ c.Iterates listing results s' := by
  obtain ⟨c₀, s₀, listing, hlists, hrun, hzero, hsource, hspells⟩ := exists_begin t v namesOnly s
  refine ⟨c₀, s₀, listing, hlists, hrun, ?_⟩
  intro results c s' h
  have hcontinues := h.continues hzero
  obtain ⟨log, hlog⟩ := h.evolves
  refine ⟨hcontinues.source_eq.trans hsource, hcontinues.iterates ?_⟩
  rw [hcontinues.names_eq]
  exact hlog.spells hspells

/-- An object that lists a name twice and has a property that cannot be read. -/
def faulty : Object :=
  Sheet.instantiate
    { className := "Faulty"
      members := [("a", .data (.int 1)), ("b", .broken (.failed "lost"))]
      readOnly := false
      ownProperties := some ["a", "b", "a"]
      keys := none
      methods := none
      length := none
      elements := none
      handler := none
      display := none }

/-- The results of four steps over the object, with a write before the third. -/
def faultyResults : List (Except HostError (Option Member)) :=
  [.ok (some (.pair ⟨0⟩ (.int 1))), .error (.failed "lost"), .ok (some (.pair ⟨0⟩ (.int 9))),
    .ok none]

/-- The results of four steps over a counter after a value has been written over its method, with
another write before the second. -/
def markedResults : List (Except HostError (Option Member)) :=
  [.ok (some (.pair ⟨0⟩ (.int 1))), .ok (some (.pair ⟨1⟩ (.int 9))),
    .ok (some (.pair ⟨1⟩ (.int 9))), .ok none]

/-- The name that cannot be read is passed once, and the name that is listed twice comes with its
value at either step. A record, which cannot tell its own properties, is iterated over by its keys
and then its methods, and the method behind the property comes with the value of the property. -/
theorem iterates_faulty_and_marked :
    (∃ c₀ s₀ c s, (begin .common (.object ⟨0⟩) false).runIn 0 (Store.empty.addObject faulty).2
          = some (c₀, s₀)
        ∧ c₀.Follows s₀ faultyResults c s
        ∧ c.Iterates ["a", "b", "a"] faultyResults s
        ∧ c.position = 3)
      ∧ ∃ c₀ s₀ c s, (begin .common (.object ⟨0⟩) false).runIn 0 Store.marked = some (c₀, s₀)
        ∧ (Store.marked.profile ⟨0⟩).ownProperties = none
        ∧ c₀.Follows s₀ markedResults c s
        ∧ c.Iterates ["count", "mark", "mark"] markedResults s := by
  constructor
  · obtain ⟨c₀, s₀, listing, hlists, hrun, hiterates⟩ :=
      iterates_begin .common (.object ⟨0⟩) false (Store.empty.addObject faulty).2
    have hlisting : listing = ["a", "b", "a"] := Store.lists_object_iff.mp hlists
    have hbegin := hrun 0
    cases hbegin
    have hstart : Follows ⟨[⟨0⟩, ⟨1⟩, ⟨0⟩], 0, some ⟨0⟩⟩
        (((Store.empty.addObject faulty).2.intern .common "a").2.intern .common "b").2 [] _ _ :=
      .start
    have htwo := (hstart.advance 1 rfl).advance 1 rfl
    have hwritten := htwo.meanwhile (Store.Evolves.rest.start (.operate ⟨0⟩ (.set "a" (.int 9))))
    have hfour := (hwritten.advance 1 rfl).advance 1 rfl
    obtain ⟨_, hmoment⟩ := hiterates faultyResults _ _ hfour
    exact ⟨_, _, _, _, rfl, hfour, hlisting ▸ hmoment, rfl⟩
  · obtain ⟨c₀, s₀, listing, hlists, hrun, hiterates⟩ :=
      iterates_begin .common (.object ⟨0⟩) false Store.marked
    have hlisting : listing = ["count", "mark", "mark"] := Store.lists_object_iff.mp hlists
    have hbegin := hrun 0
    cases hbegin
    have hstart : Follows ⟨[⟨0⟩, ⟨1⟩, ⟨1⟩], 0, some ⟨0⟩⟩
        ((Store.marked.intern .common "count").2.intern .common "mark").2 [] _ _ := .start
    have hone := hstart.advance 1 rfl
    have hwritten := hone.meanwhile (Store.Evolves.rest.start (.operate ⟨0⟩ (.set "mark" (.int 9))))
    have hfour := ((hwritten.advance 1 rfl).advance 1 rfl).advance 1 rfl
    obtain ⟨_, hmoment⟩ := hiterates markedResults _ _ hfour
    exact ⟨_, _, _, _, rfl, rfl, hfour, hlisting ▸ hmoment⟩

end Cursor

end ScriptHost
