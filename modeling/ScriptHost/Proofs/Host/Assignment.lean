import ScriptHost.Host.Access
import ScriptHost.Proofs.Host.Properties

/-!
# Assignment to properties

A script assigns to a property by touching its name followed by the sign of assignment
(`Store.Writes`), and reads it by touching the name without arguments (`Store.Reads`). For a
record the two obey the laws of a store (`Store.KeepsWrites`), whatever the name is and whatever
stood under it before. The laws come from those of the data of a record: what is written is read,
the later write counts, writing back changes nothing, and writes to different properties commute
up to the order in which new names are listed.

Main statement: every record of every store that can come about obeys the laws
(`Class.keepsWrites_of_evolves`).
-/

set_option autoImplicit false

namespace ScriptHost

/-! ## Names with the sign of assignment -/

theorem assigned?_append_sign (name : String) : assigned? (name ++ "=") = some name := by
  have hchars : (name ++ "=").toList = name.toList ++ ['='] := String.toList_append
  rw [assigned?, hchars, List.getLast?_concat, if_pos rfl, List.dropLast_concat,
    String.ofList_toList]

namespace Access

/-- A name with the sign of assignment and one argument is a write, whatever the object says of
it. -/
theorem classify_write (name : String) (kind : Option MemberKind) :
    classify (name ++ "=") kind 1 = .write name := by
  unfold classify
  rw [assigned?_append_sign]
  rfl

/-- Without arguments, what is no method is read, also when its name ends in the sign of
assignment; only a name without the sign that is no member at all is left to the script. -/
theorem classify_nil {name : String} {kind : Option MemberKind} (h : kind ≠ some .function) :
    classify name kind 0
      = if kind = none ∧ assigned? name = none then .unresolved else .read name := by
  unfold classify
  cases kind with
  | none => cases assigned? name <;> rfl
  | some kind =>
      cases kind with
      | data => cases assigned? name <;> rfl
      | function => exact absurd rfl h

end Access

/-! ## The data of a record -/

namespace Class

variable {c : Class} {d : Data}

/-- A property is what a member is whenever it has a value. -/
theorem Fits.memberKind_eq (h : c.Fits d) (name : String) :
    c.memberKind d name
      = if (c.property? d name).isSome then some .data
        else if (c.methodIndex? name).isSome then some .function else none := by
  have hisSome : ((c.fieldIndex? name).isSome || d.named.contains name)
      = (c.property? d name).isSome := by
    rw [property?]
    cases hindex : c.fieldIndex? name with
    | none => rfl
    | some i =>
        show true = (d.slots[i]?).isSome
        rw [List.getElem?_eq_getElem (h.lt_length_slots hindex)]
        rfl
  rw [memberKind, hisSome]

theorem Fits.isSome_property? (h : c.Fits d) {name : String}
    (hkind : c.memberKind d name = some .data) : ∃ value, c.property? d name = some value := by
  rw [h.memberKind_eq] at hkind
  split at hkind
  · rename_i hsome
    exact Option.isSome_iff_exists.mp hsome
  · split at hkind <;> cases hkind

/-- The later of two writes to a property counts. -/
theorem write_write (c : Class) (d : Data) (name : String) (v w : Value) :
    c.write (c.write d name v) name w = c.write d name w := by
  unfold write
  cases c.fieldIndex? name with
  | none => simp only [Entries.put_put]
  | some i => simp only [List.set_set]

/-- Writing the value that a property has changes nothing. -/
theorem write_property? {name : String} {v : Value} (h : c.property? d name = some v) :
    c.write d name v = d := by
  unfold write
  unfold property? at h
  cases hindex : c.fieldIndex? name with
  | none =>
      rw [hindex] at h
      simp only [Entries.put_of_find? h]
  | some i =>
      rw [hindex] at h
      obtain ⟨hi, rfl⟩ := List.getElem?_eq_some_iff.mp h
      simp only [List.set_getElem_self]

/-- Writes to two properties commute for everything that is read. -/
theorem Fits.property?_write_comm (h : c.Fits d) {n m : String} (hne : n ≠ m) (v w : Value)
    (other : String) :
    c.property? (c.write (c.write d n v) m w) other
      = c.property? (c.write (c.write d m w) n v) other := by
  rw [(h.write n v).property?_write, h.property?_write, (h.write m w).property?_write,
    h.property?_write]
  by_cases hn : other = n
  · rw [if_pos hn, if_neg (hn ▸ hne), if_pos hn]
  · rw [if_neg hn, if_neg hn]

end Class

/-! ## Writing and reading from a script -/

namespace Store

/-- Touching the name followed by the sign of assignment, with one argument, which may be a block,
returns the argument and leads to the second store. -/
def Writes (s : Store) (o : ObjectId) (name : String) (value : Value) (s' : Store) : Prop :=
  ∀ (depth : Nat) {arguments : List Value} {block : Option FunctionId},
    withBlock arguments block = [value] →
      (dispatch o (name ++ "=") arguments block).run.runIn (depth + 1) s = some (.ok value, s')

/-- Touching the name without arguments returns the value and leaves the store as it is. -/
def Reads (s : Store) (o : ObjectId) (name : String) (value : Value) : Prop :=
  ∀ depth : Nat, (dispatch o name [] none).run.runIn (depth + 1) s = some (.ok value, s)

/-- No read of an object tells two stores apart: its names stand for members of the same kind, the
members read as the same values, and touching a name without arguments has the same result unless
the name is a method. -/
structure ReadsLike (s s' : Store) (o : ObjectId) : Prop where
  memberKind_eq (name : String) : (s.profile o).memberKind name = (s'.profile o).memberKind name
  member_eq (name : String) (depth : Nat) :
    ((member o name).runIn depth s).map Prod.fst = ((member o name).runIn depth s').map Prod.fst
  dispatch_eq {name : String} (h : (s.profile o).memberKind name ≠ some .function) (depth : Nat) :
    ((dispatch o name [] none).run.runIn depth s).map Prod.fst
      = ((dispatch o name [] none).run.runIn depth s').map Prod.fst

/-- Writes to the properties of an object, and reads of them, obey the laws of a store. -/
structure KeepsWrites (s : Store) (o : ObjectId) : Prop where
  /-- What was written is read. -/
  written (name : String) (value : Value) :
    ∃ s', s.Writes o name value s' ∧ s'.Reads o name value
  /-- The later write counts. -/
  overwritten (name : String) (v w : Value) :
    ∃ s₁ s₂, s.Writes o name v s₁ ∧ s₁.Writes o name w s₂ ∧ s.Writes o name w s₂
  /-- Writing back what a property reads as changes nothing. -/
  writtenBack {name : String} (h : (s.profile o).memberKind name = some .data) :
    ∃ value, s.Reads o name value ∧ s.Writes o name value s
  /-- After writes to different properties, in either order, every record reads alike. -/
  commute {n m : String} (h : n ≠ m) (v w : Value) :
    ∃ s₁ s₁₂ s₂ s₂₁, s.Writes o n v s₁ ∧ s₁.Writes o m w s₁₂ ∧ s.Writes o m w s₂ ∧
      s₂.Writes o n v s₂₁ ∧
      ∀ {other : ObjectId} {c : Class} {d : Data}, s.IsRecord other c d → s₁₂.ReadsLike s₂₁ other

variable {s : Store} {o : ObjectId} {c : Class} {d : Data}

/-! ### Records -/

theorem IsRecord.setData (h : s.IsRecord o c d) (d' : Data) : (s.setData o d').IsRecord o c d' := by
  show (s.objects.modify o.index _)[o.index]? = _
  rw [List.getElem?_modify_eq, h]
  rfl

theorem setData_setData (s : Store) (o : ObjectId) (d d' : Data) :
    (s.setData o d).setData o d' = s.setData o d' := by
  have hobjects : (s.objects.modify o.index fun object => { object with data := d }).modify o.index
      (fun object => { object with data := d' })
      = s.objects.modify o.index fun object => { object with data := d' } :=
    List.modify_modify_eq ..
  rw [setData, setData, setData, hobjects]

theorem IsRecord.memberKind_eq (h : s.IsRecord o c d) (name : String) :
    (s.profile o).memberKind name = c.memberKind d name := by
  rw [profile_eq h]
  rfl

/-! ### Touching a property of a record -/

theorem runIn_dispatch (s : Store) (o : ObjectId) (name : String) (arguments : List Value)
    (block : Option FunctionId) (depth : Nat) :
    (dispatch o name arguments block).run.runIn depth s
      = ((Access.classify name ((s.profile o).memberKind name)
          (withBlock arguments block).length).carryOut o (s.profile o).className name
            (withBlock arguments block)).run.runIn depth s := rfl

theorem IsRecord.start_set (h : s.IsRecord o c d) (name : String) (value : Value) :
    s.start (.operate o (.set name value))
      = (.done (.ok .undefined), s.setData o (c.write d name value)) := by
  rw [start, object_eq h]
  rfl

/-- A write to a record returns the value and changes the data of the record. -/
theorem IsRecord.writes (h : s.IsRecord o c d) (name : String) (value : Value) :
    s.Writes o name value (s.setData o (c.write d name value)) := by
  intro depth arguments block hvalue
  rw [runIn_dispatch, hvalue, List.length_singleton, Access.classify_write]
  show (Program.bind (Program.run (.operate o (.set name value))) _).runIn (depth + 1) s = _
  rw [Program.runIn_bind, Program.runIn_run, h.start_set]
  rfl

theorem IsRecord.runIn_get (h : s.IsRecord o c d) (name : String) (depth : Nat) :
    (Program.run (.operate o (.get name))).runIn depth s
      = if depth = 0 then none else some (.ok ((c.property? d name).getD .undefined), s) := by
  cases depth with
  | zero => rfl
  | succ depth =>
      rw [Program.runIn_run, h.start_get, if_neg (Nat.succ_ne_zero depth)]
      rfl

/-- A property of a record reads as its value. -/
theorem IsRecord.reads (h : s.IsRecord o c d) (hd : c.Fits d) {name : String} {value : Value}
    (hvalue : c.property? d name = some value) : s.Reads o name value := by
  intro depth
  have hkind : (s.profile o).memberKind name = some .data := by
    rw [h.memberKind_eq, hd.memberKind_eq, hvalue]
    rfl
  have hread : Access.classify name (some .data) 0 = .read name :=
    (Access.classify_nil (by decide)).trans (if_neg (by simp))
  show ((Access.classify name ((s.profile o).memberKind name) 0).carryOut _ _ _ _).run.runIn _ s = _
  rw [hkind, hread]
  show (Program.run (.operate o (.get name))).runIn (depth + 1) s = _
  rw [h.runIn_get, if_neg (Nat.succ_ne_zero depth), hvalue]
  rfl

/-! ### What reads tell -/

/-- Reading a member of a record: a property gives its value, a method a new function and anything
else undefined. -/
theorem IsRecord.runIn_member_eq (h : s.IsRecord o c d) (name : String) (depth : Nat) :
    (member o name).runIn depth s
      = match c.memberKind d name with
        | some .data =>
          if depth = 0 then none else some (.ok ((c.property? d name).getD .undefined), s)
        | some .function =>
          some (.ok (.function ⟨s.functions.length⟩), (s.addFunction (boundMethod o name)).2)
        | none => some (.ok .undefined, s) := by
  show (match (s.profile o).memberKind name with
    | some .data => Program.run (.operate o (.get name))
    | some .function => .bind (.ask (.bind o name)) fun f => .done (.ok (.function f))
    | none => .done (.ok .undefined) : Program Outcome).runIn depth s = _
  rw [h.memberKind_eq]
  cases c.memberKind d name with
  | none => rfl
  | some kind =>
      cases kind with
      | data => exact h.runIn_get name depth
      | function => rfl

/-- What a member of a record reads as. -/
theorem IsRecord.runIn_member (h : s.IsRecord o c d) (name : String) (depth : Nat) :
    ((member o name).runIn depth s).map Prod.fst
      = match c.memberKind d name with
        | some .data =>
          if depth = 0 then none else some (.ok ((c.property? d name).getD .undefined))
        | some .function => some (.ok (.function ⟨s.functions.length⟩))
        | none => some (.ok .undefined) := by
  rw [h.runIn_member_eq]
  cases c.memberKind d name with
  | none => rfl
  | some kind =>
      cases kind with
      | data =>
          show Option.map Prod.fst (if depth = 0 then none else _) = _
          split <;> rfl
      | function => rfl

/-- What touching a name of a record without arguments gives, unless it is a method. -/
theorem IsRecord.runIn_dispatch_nil (h : s.IsRecord o c d) {name : String}
    (hkind : c.memberKind d name ≠ some .function) (depth : Nat) :
    ((dispatch o name [] none).run.runIn depth s).map Prod.fst
      = if c.memberKind d name = none ∧ assigned? name = none then
          some (.error (.memberNotFound c.name name))
        else if depth = 0 then none
        else some (.ok ((c.property? d name).getD .undefined)) := by
  show (((Access.classify name ((s.profile o).memberKind name) 0).carryOut o
    (s.profile o).className name []).run.runIn depth s).map Prod.fst = _
  have hclass : (s.profile o).className = c.name := by
    rw [profile_eq h]
    rfl
  rw [h.memberKind_eq, hclass, Access.classify_nil hkind]
  split
  · rfl
  · show ((Program.run (.operate o (.get name))).runIn depth s).map Prod.fst = _
    rw [h.runIn_get]
    split <;> rfl

/-- Two stores in which a record has the same properties read alike. -/
theorem IsRecord.readsLike {s' : Store} {d' : Data} (h : s.IsRecord o c d)
    (h' : s'.IsRecord o c d') (hkind : ∀ name, c.memberKind d name = c.memberKind d' name)
    (hvalue : ∀ name, c.property? d name = c.property? d' name)
    (hfunctions : s.functions = s'.functions) : s.ReadsLike s' o where
  memberKind_eq := by
    intro name
    rw [h.memberKind_eq, h'.memberKind_eq, hkind]
  member_eq := by
    intro name depth
    rw [h.runIn_member, h'.runIn_member, hkind, hvalue, hfunctions]
  dispatch_eq := by
    intro name hname depth
    rw [h.memberKind_eq] at hname
    rw [h.runIn_dispatch_nil hname, h'.runIn_dispatch_nil (hkind name ▸ hname), hkind, hvalue]

/-! ## The laws -/

/-- A record whose data fits its class obeys the laws of a store. -/
theorem IsRecord.keepsWrites (h : s.IsRecord o c d) (hd : c.Fits d) : s.KeepsWrites o where
  written := by
    intro name value
    refine ⟨_, h.writes name value, ?_⟩
    refine (h.setData _).reads (hd.write name value) ?_
    rw [hd.property?_write, if_pos rfl]
  overwritten := by
    intro name v w
    have hsecond := (h.setData (c.write d name v)).writes name w
    rw [setData_setData, c.write_write] at hsecond
    exact ⟨_, _, h.writes name v, hsecond, h.writes name w⟩
  writtenBack := by
    intro name hkind
    rw [h.memberKind_eq] at hkind
    obtain ⟨value, hvalue⟩ := hd.isSome_property? hkind
    have hsame : s.setData o d = s := setData_of_eq h
    have hwrites := h.writes name value
    rw [Class.write_property? hvalue, hsame] at hwrites
    exact ⟨value, h.reads hd hvalue, hwrites⟩
  commute := by
    intro n m hne v w
    have hn := h.setData (c.write d n v)
    have hm := h.setData (c.write d m w)
    refine ⟨_, _, _, _, h.writes n v, hn.writes m w, h.writes m w, hm.writes n v, ?_⟩
    rw [setData_setData, setData_setData]
    -- the order in which new names are listed differs, and reads look names up
    intro other c' d' hother
    by_cases heq : other = o
    · subst heq
      have hcomm := hd.property?_write_comm hne v w
      refine (h.setData _).readsLike (h.setData _) ?_ hcomm rfl
      intro name
      rw [((hd.write n v).write m w).memberKind_eq, ((hd.write m w).write n v).memberKind_eq,
        hcomm]
    · have hkept : ∀ d'', (s.setData o d'').IsRecord other c' d' := by
        intro d''
        rw [IsRecord, getElem?_setData_of_ne heq]
        exact hother
      exact (hkept _).readsLike (hkept _) (fun _ => rfl) (fun _ => rfl) rfl

end Store

/-- Whatever happens to a store after an instance of a class has been created in it, writes to the
instance and reads of it obey the laws of a store: for all names, those that end in the sign of
assignment included, and whatever stood under the name before. -/
theorem Class.keepsWrites_of_evolves (c : Class) {s s₀ s' : Store} {o : ObjectId}
    (hnew : s.addObject c.instantiate = (o, s₀)) {log : List Entry} (h : s₀.Evolves log s') :
    s'.KeepsWrites o := by
  cases hnew
  have hrecord : s'.IsRecord ⟨s.objects.length⟩ c _ := h.getElem?_objects (s.isRecord_addObject c)
  exact hrecord.keepsWrites (c.entries_dataAfter ⟨s.objects.length⟩ log).1

/-- The value over the method is a property, and a function that is written as a block under a name
that ends in the sign itself is read back. -/
theorem Store.keepsWrites_marked :
    (Store.empty.addObject Class.counter.instantiate).2.Evolves
        [.operate ⟨0⟩ (.set "mark" (.int 3))] Store.marked
      ∧ (Store.marked.profile ⟨0⟩).memberKind "mark" = some .data
      ∧ Store.marked.KeepsWrites ⟨0⟩
      ∧ ∃ s, (dispatch ⟨0⟩ "count==" [] (some ⟨5⟩)).run.runIn 1 Store.marked
            = some (.ok (.function ⟨5⟩), s)
          ∧ (dispatch ⟨0⟩ "count=" [] none).run.runIn 1 s = some (.ok (.function ⟨5⟩), s) := by
  have hevolves : (Store.empty.addObject Class.counter.instantiate).2.Evolves
      [.operate ⟨0⟩ (.set "mark" (.int 3))] Store.marked := Store.Evolves.rest.start _
  have hlaws : Store.marked.KeepsWrites ⟨0⟩ :=
    Class.counter.keepsWrites_of_evolves (s := Store.empty) rfl hevolves
  obtain ⟨s, hwrites, hreads⟩ := hlaws.written "count=" (.function ⟨5⟩)
  exact ⟨hevolves, rfl, hlaws, s, hwrites 0 rfl, hreads 0⟩

end ScriptHost
