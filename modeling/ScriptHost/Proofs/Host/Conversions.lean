import Mathlib.Data.Finset.Card
import Mathlib.Data.Set.Finite.Basic
import Mathlib.Logic.Relation
import Mathlib.Order.OrderDual
import Mathlib.Order.WellFounded
import ScriptHost.Proofs.Host.Properties
import ScriptHost.Proofs.Host.Results

/-!
# When conversion to text comes to an end

The conversion of an array asks for the conversions of its items, and that of a record for the
conversion of what its method `toString` returns, in the store that is left by then
(`Conversion.Asks`). Nothing in a record keeps the method from returning the record itself.

Main statement: a conversion comes to an end exactly when every call of `toString` on its way
returns and no chain of conversions that ask for each other goes on forever; there is no such chain
if the conversion comes to finitely many objects and none of them is converted while its own
conversion is under way (`Store.HoldsRecords.text_returns_iff`). A method that makes another record
each time shows that finitely many are needed (`Store.springs_without_text`).
-/

set_option autoImplicit false

namespace ScriptHost

/-! ## What a run leaves as it is -/

/-- A relation between the store before and the store after holds of the run of a program, if it
does of each answer and of each piece of code that is entered. -/
theorem Program.exec_induction {R : Store → Store → Prop} (hrefl : ∀ s, R s s)
    (htrans : ∀ {s s' s''}, R s s' → R s' s'' → R s s'') (hanswer : ∀ s q, R s (s.answer q).2)
    {enter : Runner} (henter : ∀ {e s r s'}, enter e s = some (r, s') → R s s') {α : Type}
    {p : Program α} {s s' : Store} {a : α} (h : p.exec enter s = some (a, s')) : R s s' := by
  induction p generalizing s with
  | done b =>
      cases h
      exact hrefl _
  | query q next ih => exact htrans (hanswer s q) (ih _ h)
  | enter e next ih =>
      obtain ⟨⟨r, s₁⟩, hfirst, hnext⟩ := Option.bind_eq_some_iff.mp h
      exact htrans (henter hfirst) (ih r hnext)

theorem Store.enter_induction {R : Store → Store → Prop} (hrefl : ∀ s, R s s)
    (htrans : ∀ {s s' s''}, R s s' → R s' s'' → R s s'') (hanswer : ∀ s q, R s (s.answer q).2)
    (hstart : ∀ s e, R s (s.start e).2) (depth : Nat) {e : Entry} {s s' : Store} {r : e.Reply}
    (h : Store.enter depth e s = some (r, s')) : R s s' := by
  induction depth generalizing e s s' r with
  | zero => cases h
  | succ depth ih => exact htrans (hstart s e) (Program.exec_induction hrefl htrans hanswer ih h)

theorem Store.library_answer (s : Store) (q : Query) : (s.answer q).2.library = s.library := by
  cases q with
  | intern t text =>
      show (s.intern t text).2.library = s.library
      unfold intern
      split <;> rfl
  | _ => rfl

/-- All objects of a store are records, and so are those that the programs in it can make. -/
structure Store.HoldsRecords (s : Store) : Prop where
  object {object : Object} (h : object ∈ s.objects) : ∃ c : Class, object.interface = c.interface
  library (make : Make) (captured : Captured) :
    ∃ c : Class, (s.library.object make captured).interface = c.interface

namespace Store.HoldsRecords

variable {s : Store}

theorem exists_isRecord (hs : s.HoldsRecords) {o : ObjectId} {object : Object}
    (h : s.objects[o.index]? = some object) : ∃ c d, s.IsRecord o c d := by
  obtain ⟨c, hc⟩ := hs.object (List.mem_of_getElem? h)
  refine ⟨c, object.data, ?_⟩
  rw [IsRecord, h, ← hc]

theorem addObject (hs : s.HoldsRecords) {new : Object}
    (hnew : ∃ c : Class, new.interface = c.interface) : (s.addObject new).2.HoldsRecords where
  object := by
    intro object hobject
    rcases List.mem_append.mp hobject with hold | hlast
    · exact hs.object hold
    · rw [List.mem_singleton.mp hlast]
      exact hnew
  library := hs.library

theorem setData (hs : s.HoldsRecords) (o : ObjectId) (d : Data) : (s.setData o d).HoldsRecords where
  object := by
    intro object hobject
    obtain ⟨i, hi⟩ := List.getElem?_of_mem hobject
    change (s.objects.modify o.index _)[i]? = _ at hi
    rw [List.getElem?_modify] at hi
    obtain ⟨old, hold, rfl⟩ := Option.map_eq_some_iff.mp hi
    obtain ⟨c, hc⟩ := hs.object (List.mem_of_getElem? hold)
    refine ⟨c, ?_⟩
    rw [← hc]
    split <;> rfl
  library := hs.library

theorem answer (hs : s.HoldsRecords) (q : Query) : (s.answer q).2.HoldsRecords where
  object := fun hobject => hs.object (s.objects_answer q ▸ hobject)
  library := by
    rw [s.library_answer q]
    exact hs.library

/-- Entered code makes records only, of the library or of the make of a record. -/
theorem start (hs : s.HoldsRecords) (e : Entry) : (s.start e).2.HoldsRecords := by
  cases e with
  | call f arguments => exact hs
  | text o => exact hs
  | operate o op => exact hs.setData o _
  | create make captured => exact hs.addObject (hs.library make captured)
  | instantiate like =>
      rw [Store.start]
      split
      · rename_i object hobject
        obtain ⟨c, hc⟩ := hs.object (List.mem_of_getElem? hobject)
        have hnew : object.sibling.interface = c.interface := hc
        exact hs.addObject ⟨c, hnew⟩
      · exact hs

end Store.HoldsRecords

/-- A run in a store of records leaves a store of records behind. -/
theorem Program.Returns.holdsRecords {α : Type} {p : Program α} {s s' : Store} {a : α}
    (h : p.Returns s a s') : s.HoldsRecords → s'.HoldsRecords := by
  obtain ⟨depth, hrun⟩ := h
  have henter : ∀ {e : Entry} {s s' : Store} {r : e.Reply},
      Store.enter depth e s = some (r, s') → s.HoldsRecords → s'.HoldsRecords :=
    Store.enter_induction (R := fun s s' => s.HoldsRecords → s'.HoldsRecords) (fun _ hs => hs)
      (fun h h' hs => h' (h hs)) (fun _ q hs => hs.answer q) (fun _ e hs => hs.start e) depth
  exact exec_induction (R := fun s s' => s.HoldsRecords → s'.HoldsRecords) (fun _ hs => hs)
    (fun h h' hs => h' (h hs)) (fun _ q hs => hs.answer q) henter hrun

/-! ## Conversions that ask for conversions -/

/-- A value that is to be converted to text in a store. -/
abbrev Conversion := Store × Value

/-- A record converts itself by its method `toString`. -/
def Class.HasText (c : Class) : Prop := (c.methodIndex? "toString").isSome = true

/-- One conversion asks for another one. -/
inductive Conversion.Asks : Conversion → Conversion → Prop
  /-- An array has its items converted, one after the other, all but null and undefined. -/
  | item {s s' : Store} {before after : List Value} {v : Value} {ts : List String}
      (hbefore : (Value.texts before).Returns s ts s') (hv : v.isNothing = false) :
      Asks (s, .array (before ++ v :: after)) (s', v)
  /-- A record has converted what its method `toString` returns. -/
  | result {s s' : Store} {o : ObjectId} {c : Class} {d : Data} {v : Value}
      (hrecord : s.IsRecord o c d) (htext : c.HasText)
      (hcall : (c.callMember o d "toString" []).Returns s (.ok v) s') :
      Asks (s, .object o) (s', v)

/-- Some chain of conversions that ask for each other starts here and goes on forever. -/
def Conversion.Endless (x : Conversion) : Prop :=
  ∃ chain : Nat → Conversion, chain 0 = x ∧ ∀ n, (chain n).Asks (chain (n + 1))

theorem Conversion.not_acc_iff {x : Conversion} :
    ¬ Acc (fun y x : Conversion => x.Asks y) x ↔ x.Endless :=
  not_acc_iff_exists_descending_chain

namespace Class

variable {c : Class} {o : ObjectId} {d : Data}

/-- The text of a record that has a method for it. -/
theorem text_of_hasText (h : c.HasText) :
    c.text o d = .bind (c.callMember o d "toString" []) fun r =>
      match r with
      | .ok v => v.text
      | .error _ => .done (plainText c.name) := by
  rw [text]
  exact if_pos h

theorem text_of_not_hasText (h : ¬ c.HasText) : c.text o d = .done (plainText c.name) := by
  rw [text]
  exact if_neg h

end Class

/-- The conversion of a record runs the text of its class. -/
theorem Store.IsRecord.start_text {s : Store} {o : ObjectId} {c : Class} {d : Data}
    (h : s.IsRecord o c d) : s.start (.text o) = (c.text o d, s) := by
  rw [start, object_eq h]
  rfl

/-! ## A conversion that ends -/

/-- The conversion comes to an end, down to a depth of entries. -/
def Conversion.EndsWithin (depth : Nat) (x : Conversion) : Prop :=
  ∃ r, x.2.text.runIn depth x.1 = some r

/-- The conversion comes to an end. -/
def Conversion.Ends (x : Conversion) : Prop := ∃ t s', x.2.text.Returns x.1 t s'

theorem Conversion.ends_iff {x : Conversion} : x.Ends ↔ ∃ depth, x.EndsWithin depth := by
  constructor
  · rintro ⟨t, s', depth, hrun⟩
    exact ⟨depth, (t, s'), hrun⟩
  · rintro ⟨depth, ⟨t, s'⟩, hrun⟩
    exact ⟨t, s', depth, hrun⟩

/-- When the items of an array have been converted, each was, behind the ones before it. -/
theorem Value.exists_runIn_item {depth : Nat} {before after : List Value} {v : Value} {s : Store}
    {r : List String × Store} (h : (texts (before ++ v :: after)).runIn depth s = some r)
    (hv : v.isNothing = false) :
    ∃ ts s₁ r', (texts before).runIn depth s = some (ts, s₁) ∧
      (text v).runIn depth s₁ = some r' := by
  induction before generalizing s r with
  | nil =>
      rw [List.nil_append, texts, hv, Program.runIn_bind_eq_some_iff] at h
      obtain ⟨t, s₁, hfirst, -⟩ := h
      exact ⟨[], s, (t, s₁), rfl, hfirst⟩
  | cons first before ih =>
      rw [List.cons_append, texts, Program.runIn_bind_eq_some_iff] at h
      obtain ⟨t, s₁, hfirst, hrest⟩ := h
      obtain ⟨ts', s', hrest, -⟩ := Program.runIn_bind_eq_some_iff.mp hrest
      obtain ⟨ts, s₂, r', hbefore, hitem⟩ := ih hrest
      refine ⟨t :: ts, s₂, r', ?_, hitem⟩
      rw [texts, Program.runIn_bind_eq_some_iff]
      exact ⟨t, s₁, hfirst, Program.runIn_bind_eq_some_iff.mpr ⟨ts, s₂, hbefore, rfl⟩⟩

theorem Value.sizeOf_item_lt (before after : List Value) (v : Value) :
    sizeOf v < sizeOf (Value.array (before ++ v :: after)) := by
  have hlt : sizeOf v < sizeOf (before ++ v :: after) :=
    List.sizeOf_lt_of_mem (List.mem_append_right before List.mem_cons_self)
  rw [array.sizeOf_spec]
  omega

/-- What a conversion asks for ends with it, less deep or as part of the value. -/
theorem Conversion.Asks.endsWithin {x y : Conversion} (h : x.Asks y) {depth : Nat}
    (hx : x.EndsWithin depth) :
    (∃ less, less < depth ∧ y.EndsWithin less) ∨
      y.EndsWithin depth ∧ sizeOf y.2 < sizeOf x.2 := by
  obtain ⟨r, hrun⟩ := hx
  cases h with
  | @item s s' before after v ts hbefore hv =>
      rw [Value.text, Program.runIn_bind_eq_some_iff] at hrun
      obtain ⟨ts₁, s₂, hitems, -⟩ := hrun
      obtain ⟨ts', s₁, r', hfirst, hitem⟩ := Value.exists_runIn_item hitems hv
      obtain ⟨-, rfl⟩ := hbefore.unique ⟨depth, hfirst⟩
      exact .inr ⟨⟨r', hitem⟩, Value.sizeOf_item_lt before after v⟩
  | @result s s' o c d v hrecord htext hcall =>
      cases depth with
      | zero => cases hrun
      | succ depth =>
          rw [Value.text, Program.runIn_run, hrecord.start_text, Class.text_of_hasText htext,
            Program.runIn_bind_eq_some_iff] at hrun
          obtain ⟨a, s₁, hfirst, hnext⟩ := hrun
          obtain ⟨rfl, rfl⟩ := hcall.unique ⟨depth, hfirst⟩
          exact .inl ⟨depth, Nat.lt_succ_self depth, r, hnext⟩

/-- A conversion that ends asks for no endless chain. -/
theorem Conversion.acc_of_endsWithin {depth : Nat} {x : Conversion} (h : x.EndsWithin depth) :
    Acc (fun y x => x.Asks y) x := by
  induction depth using Nat.strong_induction_on generalizing x with
  | _ depth ihdepth =>
      induction hsize : sizeOf x.2 using Nat.strong_induction_on generalizing x with
      | _ size ihsize =>
          refine Acc.intro x fun y hy => ?_
          -- a result is converted less deep, an item as deep but smaller
          rcases hy.endsWithin h with ⟨less, hless, hends⟩ | ⟨hends, hlt⟩
          · exact ihdepth less hless hends
          · exact ihsize (sizeOf y.2) (hsize ▸ hlt) hends rfl

theorem Conversion.Asks.ends {x y : Conversion} (h : x.Asks y) (hx : x.Ends) : y.Ends := by
  obtain ⟨depth, hx⟩ := Conversion.ends_iff.mp hx
  rcases h.endsWithin hx with ⟨less, -, hy⟩ | ⟨hy, -⟩
  · exact Conversion.ends_iff.mpr ⟨less, hy⟩
  · exact Conversion.ends_iff.mpr ⟨depth, hy⟩

/-- Every call of `toString` that a conversion comes to returns. -/
def Conversion.CallsReturn (x : Conversion) : Prop :=
  ∀ s o, Relation.ReflTransGen Asks x (s, .object o) → ∀ c d, s.IsRecord o c d → c.HasText →
    ∃ r s', (c.callMember o d "toString" []).Returns s r s'

theorem Conversion.CallsReturn.of_asks {x y : Conversion} (h : x.CallsReturn) (hy : x.Asks y) :
    y.CallsReturn :=
  fun s o hreach => h s o (.head hy hreach)

theorem Conversion.Ends.of_reaches {x y : Conversion} (hx : x.Ends)
    (hreach : Relation.ReflTransGen Asks x y) : y.Ends := by
  induction hreach with
  | refl => exact hx
  | tail _ hasks ih => exact hasks.ends ih

/-- The conversion of a record ends when the text of its class returns. -/
theorem Store.IsRecord.ends_text_iff {s : Store} {o : ObjectId} {c : Class} {d : Data}
    (hrecord : s.IsRecord o c d) :
    Conversion.Ends (s, .object o) ↔ ∃ t s', (c.text o d).Returns s t s' := by
  refine exists_congr fun t => exists_congr fun s' => ?_
  rw [Value.text, Program.returns_run_iff, hrecord.start_text]

theorem Conversion.Ends.callsReturn {x : Conversion} (hx : x.Ends) : x.CallsReturn := by
  intro s o hreach c d hrecord htext
  obtain ⟨t, s', hreturns⟩ := hrecord.ends_text_iff.mp (hx.of_reaches hreach)
  rw [Class.text_of_hasText htext, Program.returns_bind_iff] at hreturns
  obtain ⟨r, s₁, hcall, -⟩ := hreturns
  exact ⟨r, s₁, hcall⟩

/-! ## A conversion without an endless chain -/

/-- One more item of an array is converted behind the others. -/
theorem Value.returns_texts_concat {before : List Value} {v : Value} {s s₁ s₂ : Store}
    {ts : List String} {t : String} (hbefore : (texts before).Returns s ts s₁)
    (hitem : (if v.isNothing then Program.done "" else text v).Returns s₁ t s₂) :
    (texts (before ++ [v])).Returns s (ts ++ [t]) s₂ := by
  induction before generalizing s s₁ ts with
  | nil =>
      obtain ⟨rfl, rfl⟩ := hbefore.unique (Program.returns_done [] s)
      rw [List.nil_append, texts, Program.returns_bind_iff]
      exact ⟨t, s₂, hitem, Program.returns_bind_iff.mpr
        ⟨[], s₂, Program.returns_done [] s₂, Program.returns_done [t] s₂⟩⟩
  | cons first before ih =>
      rw [texts, Program.returns_bind_iff] at hbefore
      obtain ⟨t₁, s', hfirst, hrest⟩ := hbefore
      obtain ⟨ts', s'', hbefore, hdone⟩ := Program.returns_bind_iff.mp hrest
      obtain ⟨rfl, rfl⟩ := (Program.returns_done _ s'').unique hdone
      rw [List.cons_append, texts, Program.returns_bind_iff]
      exact ⟨t₁, s', hfirst, Program.returns_bind_iff.mpr
        ⟨ts' ++ [t], s₂, ih hbefore hitem, Program.returns_done _ s₂⟩⟩

/-- The items of an array are converted, if each conversion that the array asks for ends. -/
theorem Value.exists_returns_texts {s : Store} {items : List Value}
    (h : ∀ y, Conversion.Asks (s, .array items) y → y.Ends) :
    ∃ ts s', (texts items).Returns s ts s' := by
  -- the items in front have been converted, and the induction is on those that are left
  have hleft : ∀ (after before : List Value) (ts : List String) (s₁ : Store),
      items = before ++ after → (texts before).Returns s ts s₁ →
        ∃ ts' s', (texts items).Returns s ts' s' := by
    intro after
    induction after with
    | nil =>
        rintro before ts s₁ rfl hbefore
        rw [List.append_nil]
        exact ⟨ts, s₁, hbefore⟩
    | cons v after ih =>
        rintro before ts s₁ rfl hbefore
        have hitem : ∃ t s₂,
            (if v.isNothing then Program.done "" else text v).Returns s₁ t s₂ := by
          cases hv : v.isNothing with
          | true => exact ⟨"", s₁, Program.returns_done "" s₁⟩
          | false => exact h (s₁, v) (.item hbefore hv)
        obtain ⟨t, s₂, hitem⟩ := hitem
        exact ih (before ++ [v]) (ts ++ [t]) s₂ (by rw [List.append_assoc, List.singleton_append])
          (returns_texts_concat hbefore hitem)
  exact hleft items [] [] s rfl (Program.returns_done [] s)

/-- A record is converted, if its `toString` returns and each conversion that it asks for ends. -/
theorem Store.IsRecord.ends_text {s : Store} {o : ObjectId} {c : Class} {d : Data}
    (hrecord : s.IsRecord o c d)
    (hcall : c.HasText → ∃ r s', (c.callMember o d "toString" []).Returns s r s')
    (h : ∀ y, Conversion.Asks (s, .object o) y → y.Ends) : Conversion.Ends (s, .object o) := by
  rw [hrecord.ends_text_iff]
  by_cases htext : c.HasText
  · obtain ⟨r, s₁, hreturns⟩ := hcall htext
    rw [Class.text_of_hasText htext]
    cases r with
    | error e =>
        exact ⟨_, s₁, Program.returns_bind_iff.mpr
          ⟨.error e, s₁, hreturns, Program.returns_done _ s₁⟩⟩
    | ok v =>
        obtain ⟨t, s', hnext⟩ := h (s₁, v) (.result hrecord htext hreturns)
        exact ⟨t, s', Program.returns_bind_iff.mpr ⟨.ok v, s₁, hreturns, hnext⟩⟩
  · rw [Class.text_of_not_hasText htext]
    exact ⟨_, s, Program.returns_done _ s⟩

theorem Conversion.Asks.holdsRecords {x y : Conversion} (h : x.Asks y)
    (hx : x.1.HoldsRecords) : y.1.HoldsRecords := by
  cases h with
  | item hbefore hv => exact hbefore.holdsRecords hx
  | result hrecord htext hcall => exact hcall.holdsRecords hx

theorem Conversion.ends_of_acc {x : Conversion} (hacc : Acc (fun y x => x.Asks y) x)
    (hx : x.1.HoldsRecords) (hcalls : x.CallsReturn) : x.Ends := by
  induction hacc with
  | intro x _ ih =>
      have hnext : ∀ y, x.Asks y → y.Ends := fun y hy =>
        ih y hy (hy.holdsRecords hx) (hcalls.of_asks hy)
      obtain ⟨s, v⟩ := x
      cases v with
      | array items =>
          obtain ⟨ts, s', hitems⟩ := Value.exists_returns_texts hnext
          refine ⟨",".intercalate ts, s', ?_⟩
          rw [Value.text, Program.returns_bind_iff]
          exact ⟨ts, s', hitems, Program.returns_done _ s'⟩
      | object o =>
          cases hobject : s.objects[o.index]? with
          | none =>
              have hstart : s.start (.text o) = (.done (plainText ""), s) := by
                rw [Store.start, Store.object, hobject]
                rfl
              refine ⟨plainText "", s, ?_⟩
              rw [Value.text, Program.returns_run_iff, hstart]
              exact Program.returns_done _ s
          | some object =>
              obtain ⟨c, d, hrecord⟩ := hx.exists_isRecord hobject
              exact hrecord.ends_text (hcalls s o .refl c d hrecord) hnext
      -- any other value has a text without entering other code
      | _ => exact ⟨_, s, 0, rfl⟩

/-! ## Objects that are under way

While an object is converted, the conversions that it asks for leave it alone. So each object that
is come to is a new one, and if those are finitely many, they bound the chain. -/

/-- The conversion comes to the conversion of an object. -/
def Conversion.ComesTo (x : Conversion) (o : ObjectId) : Prop :=
  ∃ s, Relation.ReflTransGen Asks x (s, .object o)

/-- No object is converted while its own conversion is under way. -/
def Conversion.LoopFree (x : Conversion) : Prop :=
  ∀ s o s', Relation.ReflTransGen Asks x (s, .object o) →
    ¬ Relation.TransGen Asks (s, .object o) (s', .object o)

/-- The conversion of an object has been asked for by `x`, and it has asked for `y`. -/
def Conversion.UnderWay (x : Conversion) (o : ObjectId) (y : Conversion) : Prop :=
  ∃ s, Relation.ReflTransGen Asks x (s, .object o) ∧ Relation.TransGen Asks (s, .object o) y

namespace Conversion

variable {x y z : Conversion} {s : Store} {o : ObjectId}

/-- An object is under way in all that is asked for behind it. -/
theorem UnderWay.tail (h : x.UnderWay o y) (hz : y.Asks z) : x.UnderWay o z := by
  obtain ⟨s, hreach, htrans⟩ := h
  exact ⟨s, hreach, htrans.tail hz⟩

theorem underWay_of_asks (hreach : Relation.ReflTransGen Asks x (s, .object o))
    (hz : Asks (s, .object o) z) : x.UnderWay o z :=
  ⟨s, hreach, .single hz⟩

theorem LoopFree.not_underWay (hx : x.LoopFree) : ¬ x.UnderWay o (s, .object o) := by
  rintro ⟨s₀, hreach, htrans⟩
  exact hx s₀ o s hreach htrans

/-- A conversion is the start of no endless chain when all objects that are come to, but some, are
under way. -/
theorem LoopFree.acc_of_free (hx : x.LoopFree) (free : Finset ObjectId)
    (hreach : Relation.ReflTransGen Asks x y)
    (hfree : ∀ o, x.ComesTo o → o ∉ free → x.UnderWay o y) :
    Acc (fun y x => x.Asks y) y := by
  -- an object that is come to is no longer free; an item leaves the free ones as they are
  induction free using Finset.strongInduction generalizing y with
  | H free ihfree =>
      induction hsize : sizeOf y.2 using Nat.strong_induction_on generalizing y with
      | _ size ihsize =>
          refine Acc.intro y fun z hz => ?_
          have hunder : ∀ o, x.ComesTo o → o ∉ free → x.UnderWay o z :=
            fun o ho hmem => (hfree o ho hmem).tail hz
          cases hz with
          | @item s s' before after v ts hbefore hv =>
              refine ihsize (sizeOf v) ?_ (hreach.tail (.item hbefore hv)) hunder rfl
              exact hsize ▸ Value.sizeOf_item_lt before after v
          | @result s s' o c d v hrecord htext hcall =>
              have hasks : Asks (s, .object o) (s', v) := .result hrecord htext hcall
              have hmem : o ∈ free := by
                by_contra hnot
                exact hx.not_underWay (hfree o ⟨s, hreach⟩ hnot)
              refine ihfree (free.erase o) (Finset.erase_ssubset hmem) (hreach.tail hasks) ?_
              intro other hother hnot
              by_cases heq : other = o
              · exact heq ▸ underWay_of_asks hreach hasks
              · exact hunder other hother fun hfree => hnot (Finset.mem_erase.mpr ⟨heq, hfree⟩)

end Conversion

theorem Conversion.LoopFree.acc {x : Conversion} (hx : x.LoopFree)
    (hfinite : {o | x.ComesTo o}.Finite) : Acc (fun y x => x.Asks y) x :=
  hx.acc_of_free hfinite.toFinset .refl
    fun _ ho hnot => absurd (hfinite.mem_toFinset.mpr ho) hnot

/-- There is no loop when each conversion that is come to only asks for conversions of values of
lower rank. -/
theorem Conversion.loopFree_of_rank {α : Type} [Preorder α] {x : Conversion} (rank : Value → α)
    (h : ∀ y z, Relation.ReflTransGen Asks x y → y.Asks z → rank z.2 < rank y.2) : x.LoopFree := by
  intro s o s' hreach htrans
  have hlower : ∀ {z}, Relation.TransGen Asks (s, .object o) z →
      rank z.2 < rank (.object o) := by
    intro z hz
    induction hz with
    | single hasks => exact h _ _ hreach hasks
    | tail hbefore hasks ih => exact (h _ _ (hreach.trans hbefore.to_reflTransGen) hasks).trans ih
  exact absurd (hlower htrans) (lt_irrefl _)

/-! ## Records that stand for another value -/

/-- A class whose records are converted as what their field holds. -/
def Class.mirror : Class :=
  ofDeclarations "Mirror"
    [.field "image" .undefined,
      .method "toString" fun self _ => .run (.operate self (.get "image"))]

/-- A record of that class, with its image. -/
def Object.mirror (image : Value) : Object := ⟨Class.mirror.interface, ⟨[image], []⟩⟩

/-- Programs can make such records of what they capture. -/
def Library.mirrors : Library where
  object _ captured := .mirror (captured.values.headD .undefined)
  function _ _ := .absent

/-- The store with a record of that class for each value. -/
def Store.mirrors (images : List Value) : Store :=
  { Store.empty .mirrors with objects := images.map Object.mirror }

namespace Store

variable {images : List Value} {o : ObjectId} {image : Value}

theorem holdsRecords_mirrors (images : List Value) : (mirrors images).HoldsRecords where
  object := by
    intro object hobject
    obtain ⟨image, -, rfl⟩ := List.mem_map.mp hobject
    exact ⟨Class.mirror, rfl⟩
  library := fun _ _ => ⟨Class.mirror, rfl⟩

theorem isRecord_mirrors (h : images[o.index]? = some image) :
    (mirrors images).IsRecord o Class.mirror ⟨[image], []⟩ := by
  show (images.map Object.mirror)[o.index]? = _
  rw [List.getElem?_map, h]
  rfl

/-- The method of a record in such a store reads the field and does nothing else. -/
theorem returns_toString_mirrors (h : images[o.index]? = some image) :
    (Class.mirror.callMember o ⟨[image], []⟩ "toString" []).Returns (mirrors images) (.ok image)
      (mirrors images) := by
  show (Program.run (.operate o (.get "image"))).Returns _ _ _
  rw [Program.returns_run_iff, (isRecord_mirrors h).start_get]
  exact Program.returns_done _ _

/-- How a record calls its members can be told from the object. -/
theorem IsRecord.callMember_eq {s : Store} {c c' : Class} {d d' : Data} (h : s.IsRecord o c d)
    (h' : s.IsRecord o c' d') (name : String) (arguments : List Value) :
    c.callMember o d name arguments = c'.callMember o d' name arguments := by
  have hstart := h.start_callMethod name arguments
  rw [h'.start_callMethod] at hstart
  exact (congrArg Prod.fst hstart).symm

/-- Every record in such a store has an image, and its method returns that. -/
theorem exists_returns_mirrors {c : Class} {d : Data} (hrecord : (mirrors images).IsRecord o c d) :
    ∃ image, images[o.index]? = some image ∧
      (c.callMember o d "toString" []).Returns (mirrors images) (.ok image) (mirrors images) := by
  have hmap : (images.map Object.mirror)[o.index]? = _ := hrecord
  rw [List.getElem?_map] at hmap
  obtain ⟨image, himage, -⟩ := Option.map_eq_some_iff.mp hmap
  refine ⟨image, himage, ?_⟩
  rw [hrecord.callMember_eq (isRecord_mirrors himage)]
  exact returns_toString_mirrors himage

/-- A record in such a store has its image converted, and the store stays as it is. -/
theorem asks_mirrors_iff {y : Conversion} :
    Conversion.Asks (mirrors images, .object o) y ↔
      ∃ image, images[o.index]? = some image ∧ y = (mirrors images, image) := by
  constructor
  · intro h
    cases h with
    | result hrecord htext hcall =>
        obtain ⟨image, himage, hreturns⟩ := exists_returns_mirrors hrecord
        obtain ⟨hvalue, rfl⟩ := hreturns.unique hcall
        cases hvalue
        exact ⟨_, himage, rfl⟩
  · rintro ⟨image, himage, rfl⟩
    exact .result (isRecord_mirrors himage) rfl (returns_toString_mirrors himage)

end Store

/-! ## Conversions that end -/

/-- In a store of records the conversion of a value to text comes to an end exactly when every call
of `toString` that it comes to returns, and no chain of conversions that ask for each other goes on
forever. No chain does if the conversion comes to finitely many objects, those included that are
made on the way, and none of them is converted while its own conversion is under way. -/
theorem Store.HoldsRecords.text_returns_iff {s : Store} (hs : s.HoldsRecords) (v : Value) :
    ((∃ t s', v.text.Returns s t s') ↔
        Conversion.CallsReturn (s, v) ∧ ¬ Conversion.Endless (s, v)) ∧
      (Conversion.CallsReturn (s, v) → Conversion.LoopFree (s, v) →
        {o | Conversion.ComesTo (s, v) o}.Finite → ∃ t s', v.text.Returns s t s') := by
  refine ⟨⟨fun hends => ?_, ?_⟩,
    fun hcalls hloop hfinite => Conversion.ends_of_acc (hloop.acc hfinite) hs hcalls⟩
  · have hx : Conversion.Ends (s, v) := hends
    obtain ⟨depth, hdepth⟩ := Conversion.ends_iff.mp hx
    exact ⟨hx.callsReturn,
      fun hendless => Conversion.not_acc_iff.mpr hendless (Conversion.acc_of_endsWithin hdepth)⟩
  · rintro ⟨hcalls, hfinite⟩
    have hacc : Acc (fun y x : Conversion => x.Asks y) (s, v) := by
      by_contra hnot
      exact hfinite (Conversion.not_acc_iff.mp hnot)
    exact Conversion.ends_of_acc hacc hs hcalls

/-- A record whose image is a record whose image is an array. -/
def Store.twoMirrors : Store := mirrors [.object ⟨1⟩, .array [.int 7]]

/-- The values that are converted when the first record is. -/
def Store.mirrored : List Value := [.object ⟨0⟩, .object ⟨1⟩, .array [.int 7], .int 7]

/-- How many conversions are asked for behind one of those values. -/
def Value.mirrorRank : Value → Nat
  | .object o => 3 - o.index
  | .array _ => 1
  | _ => 0

theorem Store.asks_twoMirrors {v : Value} {y : Conversion} (hv : v ∈ mirrored)
    (h : Conversion.Asks (twoMirrors, v) y) :
    y.1 = twoMirrors ∧ y.2 ∈ mirrored ∧ y.2.mirrorRank < v.mirrorRank := by
  simp only [mirrored, List.mem_cons, List.not_mem_nil, or_false] at hv ⊢
  rcases hv with rfl | rfl | rfl | rfl
  · obtain ⟨image, himage, rfl⟩ := asks_mirrors_iff.mp h
    cases himage
    exact ⟨rfl, .inr (.inl rfl), by decide⟩
  · obtain ⟨image, himage, rfl⟩ := asks_mirrors_iff.mp h
    cases himage
    exact ⟨rfl, .inr (.inr (.inl rfl)), by decide⟩
  · generalize harray : Value.array [.int 7] = v at h
    cases h with
    | result => cases harray
    | @item s s' before after v ts hbefore hv =>
        have hsingle : before = [] ∧ v = .int 7 := by
          cases before with
          | nil =>
              cases harray
              exact ⟨rfl, rfl⟩
          | cons first before =>
              have hlength := congrArg List.length (Value.array.inj harray)
              simp at hlength
        obtain ⟨rfl, rfl⟩ := hsingle
        obtain ⟨-, rfl⟩ := hbefore.unique (Program.returns_done [] _)
        exact ⟨rfl, .inr (.inr (.inr rfl)), by cases harray; exact Nat.zero_lt_one⟩
  · cases h

theorem Store.reaches_twoMirrors {y : Conversion}
    (h : Relation.ReflTransGen Conversion.Asks (twoMirrors, .object ⟨0⟩) y) :
    y.1 = twoMirrors ∧ y.2 ∈ mirrored := by
  induction h with
  | refl => exact ⟨rfl, List.mem_cons_self⟩
  | @tail y z _ hasks ih =>
      obtain ⟨s, v⟩ := y
      obtain ⟨rfl, hv⟩ := ih
      obtain ⟨hs, hmem, -⟩ := asks_twoMirrors hv hasks
      exact ⟨hs, hmem⟩

/-- The first record has a text, by way of the second one. -/
theorem Store.text_returns_twoMirrors :
    twoMirrors.HoldsRecords ∧ Conversion.CallsReturn (twoMirrors, .object ⟨0⟩) ∧
      Conversion.LoopFree (twoMirrors, .object ⟨0⟩) ∧
        {o | Conversion.ComesTo (twoMirrors, .object ⟨0⟩) o}.Finite ∧
          ∃ t s', (Value.text (.object ⟨0⟩)).Returns twoMirrors t s' := by
  have hrecords : twoMirrors.HoldsRecords := holdsRecords_mirrors _
  have hcalls : Conversion.CallsReturn (twoMirrors, .object ⟨0⟩) := by
    intro s o hreach c d hrecord _
    obtain ⟨rfl, -⟩ := reaches_twoMirrors hreach
    obtain ⟨image, -, hreturns⟩ := exists_returns_mirrors hrecord
    exact ⟨_, _, hreturns⟩
  have hloop : Conversion.LoopFree (twoMirrors, .object ⟨0⟩) := by
    refine Conversion.loopFree_of_rank Value.mirrorRank fun y z hreach hasks => ?_
    obtain ⟨s, v⟩ := y
    obtain ⟨rfl, hv⟩ := reaches_twoMirrors hreach
    obtain ⟨-, -, hrank⟩ := asks_twoMirrors hv hasks
    exact hrank
  have hfinite : {o | Conversion.ComesTo (twoMirrors, .object ⟨0⟩) o}.Finite := by
    refine Set.Finite.subset (Set.toFinite {⟨0⟩, ⟨1⟩}) fun o ho => ?_
    obtain ⟨s, hreach⟩ := ho
    obtain ⟨-, hmem⟩ := reaches_twoMirrors hreach
    simpa [mirrored] using hmem
  exact ⟨hrecords, hcalls, hloop, hfinite, (hrecords.text_returns_iff _).2 hcalls hloop hfinite⟩

/-- A record that is its own image is never converted, although its method just reads a field. -/
theorem Class.mirror_without_text :
    (∃ log, (Store.empty .mirrors).Evolves log (Store.mirrors [.object ⟨0⟩])) ∧
      (Store.mirrors [.object ⟨0⟩]).HoldsRecords ∧
      (∀ o c d, (Store.mirrors [.object ⟨0⟩]).IsRecord o c d →
        (c.callMember o d "toString" []).runIn 1 (Store.mirrors [.object ⟨0⟩])
            = some (.ok (.object ⟨0⟩), Store.mirrors [.object ⟨0⟩]) ∧
          (c.callMember o d "toString" []).trace 1 (Store.mirrors [.object ⟨0⟩])
            = [.operate o (.get "image")]) ∧
      ∀ depth, (Value.text (.object ⟨0⟩)).runIn depth (Store.mirrors [.object ⟨0⟩]) = none := by
  refine ⟨⟨[.operate ⟨0⟩ (.set "image" (.object ⟨0⟩))], ?_⟩, Store.holdsRecords_mirrors _, ?_, ?_⟩
  · have hcreated : (Store.empty .mirrors).Evolves []
        ((Store.empty .mirrors).addObject mirror.instantiate).2 :=
      .addObject mirror.instantiate .rest
    exact hcreated.start (.operate ⟨0⟩ (.set "image" (.object ⟨0⟩)))
  · intro o c d hrecord
    obtain ⟨image, himage, -⟩ := Store.exists_returns_mirrors hrecord
    obtain ⟨hlt, -⟩ := List.getElem?_eq_some_iff.mp himage
    obtain ⟨_ | i⟩ := o
    · rw [hrecord.callMember_eq (Store.isRecord_mirrors himage)]
      cases himage
      exact ⟨rfl, rfl⟩
    · exact absurd hlt (by simp)
  · intro depth
    let x : Conversion := (Store.mirrors [.object ⟨0⟩], .object ⟨0⟩)
    -- the conversion of the record asks for itself
    have hloop : x.Asks x := Store.asks_mirrors_iff.mpr ⟨.object ⟨0⟩, rfl, rfl⟩
    have hendless : x.Endless := ⟨fun _ => x, rfl, fun _ => hloop⟩
    cases hrun : (Value.text (.object ⟨0⟩)).runIn depth (Store.mirrors [.object ⟨0⟩]) with
    | none => rfl
    | some r =>
        have hends : x.EndsWithin depth := ⟨r, hrun⟩
        exact absurd (Conversion.acc_of_endsWithin hends) (Conversion.not_acc_iff.mpr hendless)

/-! ## Records that make new ones -/

/-- Makes another instance and returns it. -/
def Class.renew : Method := fun self _ =>
  .bind (.run (.instantiate self)) fun o => .done (.ok (.object o))

/-- A class whose records are converted as a new record of the class. -/
def Class.spring : Class := ofDeclarations "Spring" [.method "toString" renew]

/-- The store with a number of records of that class. -/
def Store.springs (count : Nat) : Store :=
  { Store.empty .mirrors with objects := List.replicate count Class.spring.instantiate }

namespace Store

variable {count : Nat} {o : ObjectId}

theorem holdsRecords_springs (count : Nat) : (springs count).HoldsRecords where
  object := by
    intro object hobject
    rw [List.eq_of_mem_replicate hobject]
    exact ⟨Class.spring, rfl⟩
  library := fun _ _ => ⟨Class.mirror, rfl⟩

theorem isRecord_springs (h : o.index < count) :
    (springs count).IsRecord o Class.spring ⟨[], []⟩ := by
  show (List.replicate count Class.spring.instantiate)[o.index]? = _
  rw [List.getElem?_replicate, if_pos h]
  rfl

/-- The method makes a record and returns it. -/
theorem returns_toString_springs (h : o.index < count) {c : Class} {d : Data}
    (hrecord : (springs count).IsRecord o c d) :
    (c.callMember o d "toString" []).Returns (springs count) (.ok (.object ⟨count⟩))
      (springs (count + 1)) := by
  have hstart : (springs count).start (.instantiate o) = (.done ⟨count⟩, springs (count + 1)) := by
    have hlength : (springs count).objects.length = count := List.length_replicate
    rw [start, isRecord_springs h]
    show (Program.done (ObjectId.mk (springs count).objects.length), _) = _
    rw [hlength, springs, springs, List.replicate_succ']
    rfl
  rw [hrecord.callMember_eq (isRecord_springs h)]
  show (Class.renew o []).Returns _ _ _
  rw [Class.renew, Program.returns_bind_iff]
  refine ⟨⟨count⟩, springs (count + 1), ?_, Program.returns_done _ _⟩
  rw [Program.returns_run_iff, hstart]
  exact Program.returns_done _ _

/-- A record asks for the conversion of the next one, which is not there before. -/
theorem asks_springs_iff (h : o.index < count) {y : Conversion} :
    Conversion.Asks (springs count, .object o) y ↔
      y = (springs (count + 1), .object ⟨count⟩) := by
  constructor
  · intro hasks
    cases hasks with
    | result hrecord htext hcall =>
        obtain ⟨hvalue, rfl⟩ := (returns_toString_springs h hrecord).unique hcall
        cases hvalue
        rfl
  · rintro rfl
    exact .result (isRecord_springs h) rfl (returns_toString_springs h (isRecord_springs h))

theorem reaches_springs {y : Conversion}
    (h : Relation.ReflTransGen Conversion.Asks (springs 1, .object ⟨0⟩) y) :
    ∃ count, y = (springs (count + 1), .object ⟨count⟩) := by
  induction h with
  | refl => exact ⟨0, rfl⟩
  | tail _ hasks ih =>
      obtain ⟨count, rfl⟩ := ih
      exact ⟨count + 1, (asks_springs_iff (Nat.lt_succ_self count)).mp hasks⟩

/-- Without a loop, and with a method that returns each time, a record that makes a new one is
never converted: the objects that the conversion comes to have no end. -/
theorem springs_without_text :
    (springs 1).HoldsRecords ∧ Conversion.CallsReturn (springs 1, .object ⟨0⟩) ∧
      Conversion.LoopFree (springs 1, .object ⟨0⟩) ∧
        ¬ ∃ t s', (Value.text (.object ⟨0⟩)).Returns (springs 1) t s' := by
  refine ⟨holdsRecords_springs 1, ?_, ?_, fun hends => ?_⟩
  · intro s o hreach c d hrecord _
    obtain ⟨count, heq⟩ := reaches_springs hreach
    cases heq
    exact ⟨_, _, returns_toString_springs (Nat.lt_succ_self count) hrecord⟩
  · -- the records that are come to have higher and higher numbers
    refine Conversion.loopFree_of_rank (α := Natᵒᵈ)
      (fun v => OrderDual.toDual ((v.object?.map ObjectId.index).getD 0)) fun y z hreach hasks => ?_
    obtain ⟨count, rfl⟩ := reaches_springs hreach
    rw [(asks_springs_iff (Nat.lt_succ_self count)).mp hasks]
    exact Nat.lt_succ_self count
  · let x : Conversion := (springs 1, .object ⟨0⟩)
    have hendless : x.Endless := ⟨fun n => (springs (n + 1), .object ⟨n⟩), rfl,
      fun n => (asks_springs_iff (Nat.lt_succ_self n)).mpr rfl⟩
    obtain ⟨depth, hdepth⟩ := Conversion.ends_iff.mp (show x.Ends from hends)
    exact Conversion.not_acc_iff.mpr hendless (Conversion.acc_of_endsWithin hdepth)

end Store

end ScriptHost
