import Mathlib.Data.List.Basic
import ScriptHost.Host.Sheet
import ScriptHost.Proofs.Host.Assignment
import ScriptHost.Proofs.Host.Results
import ScriptHost.Proofs.Host.Shadowing

/-!
# What a touched member does, and how it fails

Touching a member of an object performs one operation of the object, or none
(`Access.operation?`): none exactly when the name is no member and has no sign of assignment behind
it. What comes back is what the operation gave, its error included; only a write hands back the
written value (`Access.run_carryOut`).

Main statement: for an object whose reads and writes have no effect when they fail, touching a
member relays that operation, and when it fails without a function having been run, every object
is as it was (`Store.dispatch_relays`).
-/

set_option autoImplicit false

namespace ScriptHost

/-! ## Names with the sign of assignment -/

theorem assigned?_eq_some_iff {name target : String} :
    assigned? name = some target ↔ name = target ++ "=" := by
  constructor
  · intro h
    unfold assigned? at h
    split at h
    · rename_i hlast
      rw [← Option.some.inj h, ← String.toList_inj, String.toList_append, String.toList_ofList]
      exact (List.dropLast_append_getLast? '=' hlast).symm
    · cases h
  · rintro rfl
    exact assigned?_append_sign target

theorem assigned?_eq_none_iff {name : String} :
    assigned? name = none ↔ ∀ target, name ≠ target ++ "=" := by
  rw [Option.eq_none_iff_forall_ne_some]
  exact forall_congr' fun target => not_congr assigned?_eq_some_iff

/-! ## The operation that is performed -/

/-- The operation that an access performs with some arguments. -/
def Access.operation? (arguments : List Value) : Access → Option Operation
  | unresolved => none
  | read name => some (.get name)
  | write name => some (.set name (arguments.getLast?.getD .undefined))
  | call name => some (.callMethod name arguments)

/-- What is handed back for the result of an operation: the written value for a write, and
otherwise the result itself. -/
def Operation.handBack : Operation → Value → Value
  | .set _ value, _ => value
  | _, result => result

/-- The operations that touching a name with some arguments can mean, where `kind` is what the
object says of the name. -/
inductive Operation.Touches (name : String) (kind : Option MemberKind) (arguments : List Value) :
    Operation → Prop
  | get (hkind : kind ≠ some .function) (harguments : arguments = []) :
      Touches name kind arguments (.get name)
  | set {target : String} {value : Value} (hname : name = target ++ "=")
      (harguments : arguments = [value]) : Touches name kind arguments (.set target value)
  | callMethod (h : kind = some .function ∨ arguments ≠ []) :
      Touches name kind arguments (.callMethod name arguments)

namespace Access

/-- The operation of an access comes back with its own errors, and with what it hands back if it
goes through. -/
theorem run_carryOut {access : Access} {arguments : List Value} {op : Operation}
    (h : access.operation? arguments = some op) (o : ObjectId) (className name : String) :
    (access.carryOut o className name arguments).run
      = .bind (.run (.operate o op)) fun r => .done (r.map op.handBack) := by
  have hsame : ∀ r : Outcome, r.map (fun v => v) = r := by rintro (_ | _) <;> rfl
  cases access with
  | unresolved => cases h
  | read property =>
      cases h
      exact congrArg (Program.enter _) (funext fun r => congrArg Program.done (hsame r).symm)
  | write property =>
      cases h
      exact congrArg (Program.enter _) (funext fun r => by cases r <;> rfl)
  | call method =>
      cases h
      exact congrArg (Program.enter _) (funext fun r => congrArg Program.done (hsame r).symm)

variable {name : String} {kind : Option MemberKind} {count : Nat}

/-- What touching a name with a number of arguments can mean, and when. -/
inductive Means (name : String) (kind : Option MemberKind) (count : Nat) : Access → Prop
  | unresolved (hname : assigned? name = none) (hkind : kind = none) :
      Means name kind count .unresolved
  | write {target : String} (hname : assigned? name = some target) (hcount : count = 1) :
      Means name kind count (.write target)
  | read (hresolved : ¬ (assigned? name = none ∧ kind = none)) (hkind : kind ≠ some .function)
      (hcount : count = 0) : Means name kind count (.read name)
  | call (hresolved : ¬ (assigned? name = none ∧ kind = none))
      (h : kind = some .function ∨ count ≠ 0) : Means name kind count (.call name)

theorem means_classify (name : String) (kind : Option MemberKind) (count : Nat) :
    Means name kind count (classify name kind count) := by
  unfold classify
  cases hname : assigned? name with
  | none =>
      rcases kind with _ | _ | _
      · exact .unresolved hname rfl
      · have hresolved : ¬ (assigned? name = none ∧ some MemberKind.data = none) := nofun
        show Means _ _ _ (if count = 0 then read name else call name)
        split
        · exact .read hresolved nofun ‹_›
        · exact .call hresolved (.inr ‹_›)
      · exact .call nofun (.inl rfl)
  | some target =>
      have hresolved : ¬ (assigned? name = none ∧ kind = none) := by
        rintro ⟨hnone, -⟩
        cases hname.symm.trans hnone
      -- with the sign of assignment, the number of arguments is looked at before the kind
      show Means _ _ _ (if count = 1 then write target
        else if kind = some .function then call name
        else if count = 0 then read name
        else call name)
      split
      · exact .write hname ‹_›
      · split
        · exact .call hresolved (.inl ‹_›)
        · split
          · exact .read hresolved ‹_› ‹_›
          · exact .call hresolved (.inr ‹_›)

variable {arguments : List Value}

theorem touches_of_operation? {op : Operation}
    (h : (classify name kind arguments.length).operation? arguments = some op) :
    op.Touches name kind arguments := by
  have hmeans := means_classify name kind arguments.length
  generalize classify name kind arguments.length = access at h hmeans
  cases hmeans with
  | unresolved => cases h
  | @write target hname hcount =>
      obtain ⟨value, rfl⟩ := List.length_eq_one_iff.mp hcount
      cases h
      exact .set (assigned?_eq_some_iff.mp hname) rfl
  | read _ hkind hcount =>
      cases h
      exact .get hkind (List.length_eq_zero_iff.mp hcount)
  | call _ hcall =>
      cases h
      exact .callMethod (hcall.imp_right (mt List.length_eq_zero_iff.mpr))

/-- Nothing is done for a name exactly if it is no member and has no sign of assignment. -/
theorem operation?_eq_none_iff :
    (classify name kind arguments.length).operation? arguments = none
      ↔ kind = none ∧ ∀ target, name ≠ target ++ "=" := by
  rw [← assigned?_eq_none_iff]
  have hmeans := means_classify name kind arguments.length
  generalize classify name kind arguments.length = access at hmeans
  cases hmeans with
  | unresolved hname hkind => exact iff_of_true rfl ⟨hkind, hname⟩
  | write hname => exact iff_of_false nofun fun h => nomatch hname.symm.trans h.2
  | read hresolved => exact iff_of_false nofun fun h => hresolved h.symm
  | call hresolved => exact iff_of_false nofun fun h => hresolved h.symm

/-- A write is done exactly for a name with the sign of assignment and a single argument. -/
theorem operation?_eq_set_iff {target : String} {value : Value} :
    (classify name kind arguments.length).operation? arguments = some (.set target value)
      ↔ name = target ++ "=" ∧ arguments = [value] := by
  constructor
  · intro h
    cases touches_of_operation? h with
    | set hname harguments => exact ⟨hname, harguments⟩
  · rintro ⟨rfl, rfl⟩
    rw [List.length_singleton, classify_write]
    rfl

end Access

/-! ## What a program does itself -/

namespace Program

variable {α : Type}

/-- The entries that a program makes itself, in order, without those that are made in them. -/
def ownEntries (depth : Nat) (p : Program α) (s : Store) : List Entry :=
  p.entries (Store.enter depth) (fun _ _ => []) s

theorem ownEntries_run_bind_done {β : Type} (depth : Nat) (e : Entry) (f : e.Reply → β)
    (s : Store) : (bind (run e) fun r => done (f r)).ownEntries depth s = [e] := by
  show (enter e fun r => done (f r)).entries (Store.enter depth) (fun _ _ => []) s = [e]
  rw [entries]
  cases Store.enter depth e s <;> rfl

/-- A program that enters no code leaves all objects as they are: the answers to its questions
change none. -/
theorem objects_eq_of_ownEntries {depth : Nat} {p : Program α} {s s' : Store} {a : α}
    (hentries : p.ownEntries depth s = []) (hrun : p.runIn depth s = some (a, s')) :
    s'.objects = s.objects := by
  induction p generalizing s with
  | done b =>
      cases hrun
      rfl
  | query q next ih => rw [ih (s.answer q).1 hentries hrun, Store.objects_answer]
  | enter e next =>
      rw [ownEntries, entries] at hentries
      cases hentries

end Program

namespace Store

/-- Whenever the operation fails, every object is as it was. -/
def FailsIdly (s : Store) (o : ObjectId) (op : Operation) : Prop :=
  ∀ (e : HostError) (s' : Store), (Program.run (.operate o op)).Returns s (.error e) s' →
    s'.objects = s.objects

/-- Calling a method of an object runs no function: the object does not change of its own, and what
gives the result enters no code, not even to set up another object. -/
structure RunsNoFunction (s : Store) (o : ObjectId) (method : String) (arguments : List Value) :
    Prop where
  objects_eq : (s.start (.operate o (.callMethod method arguments))).2.objects = s.objects
  ownEntries_eq (depth : Nat) :
    (s.start (.operate o (.callMethod method arguments))).1.ownEntries depth
      (s.start (.operate o (.callMethod method arguments))).2 = []

/-- A program that touches a name of an object with some arguments performs one operation of the
object, or none, and relays what comes of it. -/
structure Relays (s : Store) (o : ObjectId) (name : String) (arguments : List Value)
    (p : Program Outcome) (performed : Option Operation) : Prop where
  /-- The operation is all that is entered. -/
  ownEntries_eq (depth : Nat) : p.ownEntries depth s = performed.toList.map (Entry.operate o)
  touches {op : Operation} (h : performed = some op) :
    op.Touches name ((s.profile o).memberKind name) arguments
  eq_none_iff :
    performed = none ↔ (s.profile o).memberKind name = none ∧ ∀ target, name ≠ target ++ "="
  eq_set_iff (target : String) (value : Value) :
    performed = some (.set target value) ↔ name = target ++ "=" ∧ arguments = [value]
  notFound (h : performed = none) (depth : Nat) :
    p.runIn depth s = some (.error (.memberNotFound (s.profile o).className name), s)
  ok_iff {op : Operation} (h : performed = some op) {v : Value} {s' : Store} :
    p.Returns s (.ok v) s'
      ↔ ∃ r, (Program.run (.operate o op)).Returns s (.ok r) s' ∧ op.handBack r = v
  error_iff {op : Operation} (h : performed = some op) {e : HostError} {s' : Store} :
    p.Returns s (.error e) s' ↔ (Program.run (.operate o op)).Returns s (.error e) s'
  /-- A failure without a function having been run has no effect. -/
  objects_eq {e : HostError} {s' : Store} (h : p.Returns s (.error e) s')
    (hcall : ∀ method arguments, performed = some (.callMethod method arguments) →
      s.RunsNoFunction o method arguments) : s'.objects = s.objects

end Store

theorem Program.returns_bind_map_iff {p : Program Outcome} {f : Value → Value} {s s' : Store}
    {result : Outcome} :
    (bind p fun r => .done (r.map f)).Returns s result s'
      ↔ ∃ r, p.Returns s r s' ∧ r.map f = result := by
  rw [returns_bind_iff]
  constructor
  · rintro ⟨r, s₁, hp, hdone⟩
    obtain ⟨rfl, rfl⟩ := (returns_done (r.map f) s₁).unique hdone
    exact ⟨r, hp, rfl⟩
  · rintro ⟨r, hp, rfl⟩
    exact ⟨r, s', hp, returns_done _ s'⟩

namespace Store

variable {s : Store} {o : ObjectId}

theorem RunsNoFunction.objects_eq_of_returns {method : String} {arguments : List Value}
    (h : s.RunsNoFunction o method arguments) {result : Outcome} {s' : Store}
    (hreturns : (Program.run (.operate o (.callMethod method arguments))).Returns s result s') :
    s'.objects = s.objects := by
  obtain ⟨depth, hrun⟩ := Program.returns_run_iff.mp hreturns
  rw [Program.objects_eq_of_ownEntries (h.ownEntries_eq depth) hrun, h.objects_eq]

theorem runsNoFunction_of_start {method : String} {arguments : List Value} {r : Outcome}
    (h : s.start (.operate o (.callMethod method arguments)) = (.done r, s)) :
    s.RunsNoFunction o method arguments := by
  refine ⟨by rw [h], fun depth => ?_⟩
  rw [h]
  rfl

/-- An operation whose result is there at once fails without an effect if the object keeps its data
with each error. -/
theorem failsIdly_of_done {object : Object} (h : s.objects[o.index]? = some object)
    {op : Operation} {r : Outcome} (hdone : (object.interface.handle o object.data op).2 = .done r)
    (hkeeps : ∀ e, r = .error e → (object.interface.handle o object.data op).1 = object.data) :
    s.FailsIdly o op := by
  intro e s' hreturns
  have hstart : s.start (.operate o op)
      = (.done r, s.setData o (object.interface.handle o object.data op).1) := by
    rw [start, object_eq h, ← hdone]
  rw [Program.returns_run_iff, hstart] at hreturns
  obtain ⟨hr, rfl⟩ := (Program.returns_done r _).unique hreturns
  rw [hkeeps e hr.symm, setData_of_eq h]

/-! ### Records -/

/-- Under a name for which a record has neither a property with a function nor a method, a call runs
no function. -/
theorem IsRecord.runsNoFunction {c : Class} {d : Data} (h : s.IsRecord o c d) {name : String}
    (hproperty : ∀ f, c.property? d name ≠ some (.function f)) (hmethod : name ∉ c.methodNames)
    (arguments : List Value) : s.RunsNoFunction o name arguments := by
  have hitem : c.methods.item? name = none := by
    rw [Declarations.item?, (c.methods.place?_eq_none_iff name).mpr hmethod]
    rfl
  have hstart : s.start (.operate o (.callMethod name arguments))
      = (.done (.error (.memberNotFound c.name name)), s) := by
    rw [h.start_callMethod, Class.callMember_of_data hproperty, hitem]
  exact runsNoFunction_of_start hstart

/-! ### Objects given by a sheet -/

/-- An object of a store is given by a sheet and has some data. -/
def IsSheet (s : Store) (o : ObjectId) (t : Sheet) (d : Data) : Prop :=
  s.objects[o.index]? = some ⟨t.interface, d⟩

variable {t : Sheet} {d : Data}

theorem IsSheet.failsIdly_get (h : s.IsSheet o t d) (name : String) :
    s.FailsIdly o (.get name) := by
  have hhandle : ∃ r, t.handle o d (.get name) = (d, .done r) := by
    rw [Sheet.handle]
    split <;> exact ⟨_, rfl⟩
  obtain ⟨r, hr⟩ := hhandle
  exact failsIdly_of_done h (congrArg Prod.snd hr) fun _ _ => congrArg Prod.fst hr

theorem IsSheet.failsIdly_set (h : s.IsSheet o t d) (name : String) (value : Value) :
    s.FailsIdly o (.set name value) := by
  cases hreadOnly : t.readOnly with
  | true =>
      have hhandle : t.handle o d (.set name value)
          = (d, .done (.error (.badArgument (name ++ " is read-only")))) := by
        rw [Sheet.handle, hreadOnly]
        rfl
      exact failsIdly_of_done h (congrArg Prod.snd hhandle) fun _ _ => congrArg Prod.fst hhandle
  | false =>
      have hhandle : t.handle o d (.set name value)
          = ({ d with named := d.named.put name value }, .done (.ok .undefined)) := by
        rw [Sheet.handle, hreadOnly]
        rfl
      exact failsIdly_of_done h (congrArg Prod.snd hhandle) nofun

/-- A call of a member that is no method runs no function. -/
theorem IsSheet.runsNoFunction (h : s.IsSheet o t d) {name : String}
    (hmember : ∀ body, t.member? d name ≠ some (.method body)) (arguments : List Value) :
    s.RunsNoFunction o name arguments := by
  have hhandle : t.handle o d (.callMethod name arguments)
      = (d, .done (.error (.memberNotFound t.className name))) := by
    rw [Sheet.handle]
    split
    · rename_i body hbody
      exact absurd hbody (hmember body)
    · rfl
  have hstart : s.start (.operate o (.callMethod name arguments))
      = (.done (.error (.memberNotFound t.className name)), s) := by
    rw [start_operate_of_keeps h (congrArg Prod.fst hhandle)]
    exact congrArg (·, s) (congrArg Prod.snd hhandle)
  exact runsNoFunction_of_start hstart

end Store

/-! ## Touching a member -/

theorem Access.run_carryOut_of_none {access : Access} {arguments : List Value}
    (h : access.operation? arguments = none) (o : ObjectId) (className name : String) :
    (access.carryOut o className name arguments).run
      = .done (.error (.memberNotFound className name)) := by
  cases access with
  | unresolved => rfl
  | _ => cases h

namespace Store

/-- The operation that touching a name of an object with some arguments performs. -/
def touched? (s : Store) (o : ObjectId) (name : String) (arguments : List Value) :
    Option Operation :=
  (Access.classify name ((s.profile o).memberKind name) arguments.length).operation? arguments

section Dispatch

variable (s : Store) (o : ObjectId) (name : String) (arguments : List Value)
  (block : Option FunctionId)

/-- Touching a name enters the operation that it performs, and nothing else. -/
theorem ownEntries_dispatch (depth : Nat) :
    (dispatch o name arguments block).run.ownEntries depth s
      = (s.touched? o name (withBlock arguments block)).toList.map (Entry.operate o) := by
  show ((Access.classify name ((s.profile o).memberKind name)
    (withBlock arguments block).length).carryOut o (s.profile o).className name
      (withBlock arguments block)).run.ownEntries depth s = _
  cases h : s.touched? o name (withBlock arguments block) with
  | none =>
      rw [Access.run_carryOut_of_none h]
      rfl
  | some op =>
      rw [Access.run_carryOut h, Program.ownEntries_run_bind_done]
      rfl

variable {s o name arguments block}

theorem runIn_dispatch_of_none (h : s.touched? o name (withBlock arguments block) = none)
    (depth : Nat) :
    (dispatch o name arguments block).run.runIn depth s
      = some (.error (.memberNotFound (s.profile o).className name), s) := by
  rw [runIn_dispatch, Access.run_carryOut_of_none h]
  rfl

theorem returns_dispatch_iff {op : Operation}
    (h : s.touched? o name (withBlock arguments block) = some op) {result : Outcome} {s' : Store} :
    (dispatch o name arguments block).run.Returns s result s'
      ↔ ∃ r, (Program.run (.operate o op)).Returns s r s' ∧ r.map op.handBack = result := by
  rw [← Program.returns_bind_map_iff, ← Access.run_carryOut h o (s.profile o).className name]
  exact Program.agree_of_runIn_eq (runIn_dispatch s o name arguments block) result s'

theorem returns_dispatch_ok_iff {op : Operation}
    (h : s.touched? o name (withBlock arguments block) = some op) {v : Value} {s' : Store} :
    (dispatch o name arguments block).run.Returns s (.ok v) s'
      ↔ ∃ r, (Program.run (.operate o op)).Returns s (.ok r) s' ∧ op.handBack r = v := by
  rw [returns_dispatch_iff h]
  constructor
  · rintro ⟨_ | r, hr, hmap⟩
    · cases hmap
    · exact ⟨r, hr, Except.ok.inj hmap⟩
  · rintro ⟨r, hr, rfl⟩
    exact ⟨_, hr, rfl⟩

theorem returns_dispatch_error_iff {op : Operation}
    (h : s.touched? o name (withBlock arguments block) = some op) {e : HostError} {s' : Store} :
    (dispatch o name arguments block).run.Returns s (.error e) s'
      ↔ (Program.run (.operate o op)).Returns s (.error e) s' := by
  rw [returns_dispatch_iff h]
  constructor
  · rintro ⟨_ | r, hr, hmap⟩
    · cases hmap
      exact hr
    · cases hmap
  · intro hr
    exact ⟨_, hr, rfl⟩

end Dispatch

/-- Let the reads and writes of an object have no effect when they fail. Touching a name of it
relays one operation of the object, or none, and a failure without a function having been run has
no effect. A call of a record runs no function unless a property holds one under the name or the
class has a method of that name. -/
theorem dispatch_relays (s : Store) (o : ObjectId) (hget : ∀ name, s.FailsIdly o (.get name))
    (hset : ∀ name value, s.FailsIdly o (.set name value)) (name : String)
    (arguments : List Value) (block : Option FunctionId) :
    (∃ performed, s.Relays o name (withBlock arguments block)
        (dispatch o name arguments block).run performed)
      ∧ ∀ {c d}, s.IsRecord o c d → (∀ f, c.property? d name ≠ some (.function f)) →
          name ∉ c.methodNames → ∀ arguments, s.RunsNoFunction o name arguments := by
  refine ⟨⟨s.touched? o name (withBlock arguments block), ?_⟩,
    fun hrecord hproperty hmethod => hrecord.runsNoFunction hproperty hmethod⟩
  refine
    { ownEntries_eq := ownEntries_dispatch s o name arguments block
      touches := Access.touches_of_operation?
      eq_none_iff := Access.operation?_eq_none_iff
      eq_set_iff := fun target value => Access.operation?_eq_set_iff
      notFound := runIn_dispatch_of_none
      ok_iff := returns_dispatch_ok_iff
      error_iff := returns_dispatch_error_iff
      objects_eq := ?_ }
  intro e s' h hcall
  -- the failure is that of the operation, and each of the three kinds has its own reason
  cases hperformed : s.touched? o name (withBlock arguments block) with
  | none =>
      obtain ⟨-, rfl⟩ := h.unique ⟨0, runIn_dispatch_of_none hperformed 0⟩
      rfl
  | some op =>
      have hfails := (returns_dispatch_error_iff hperformed).mp h
      cases Access.touches_of_operation? hperformed with
      | get => exact hget _ _ _ hfails
      | set => exact hset _ _ _ _ hfails
      | callMethod => exact (hcall _ _ hperformed).objects_eq_of_returns hfails

end Store

/-- An object that cannot be written, with a property that cannot be read. -/
def Sheet.sealed : Sheet where
  className := "Sealed"
  members := [("size", .broken (.failed "no size")), ("mark", .data (.int 3))]
  readOnly := true
  ownProperties := none
  keys := none
  methods := none
  length := none
  elements := none
  handler := none
  display := none

/-- A store with the object in it. -/
def Store.sealed : Store := (Store.empty.addObject Sheet.sealed.instantiate).2

/-- Reading, writing and calling the object fail, each with an error of its own, and no object
changes. -/
theorem Store.dispatch_sealed :
    (∀ name, Store.sealed.FailsIdly ⟨0⟩ (.get name))
      ∧ (∀ name value, Store.sealed.FailsIdly ⟨0⟩ (.set name value))
      ∧ (∃ s, (dispatch ⟨0⟩ "size" [] none).run.Returns Store.sealed
          (.error (.failed "no size")) s ∧ s.objects = Store.sealed.objects)
      ∧ (∃ s, (dispatch ⟨0⟩ "size==" [.int 1] none).run.Returns Store.sealed
          (.error (.badArgument "size= is read-only")) s ∧ s.objects = Store.sealed.objects)
      ∧ ∃ s, (dispatch ⟨0⟩ "mark" [] (some ⟨5⟩)).run.Returns Store.sealed
          (.error (.memberNotFound "Sealed" "mark")) s ∧ s.objects = Store.sealed.objects := by
  have hsheet : Store.sealed.IsSheet ⟨0⟩ .sealed ⟨[], []⟩ := rfl
  have hmember : ∀ body, Sheet.sealed.member? ⟨[], []⟩ "mark" ≠ some (.method body) := nofun
  have hread : (dispatch ⟨0⟩ "size" [] none).run.Returns Store.sealed
      (.error (.failed "no size")) Store.sealed := ⟨1, rfl⟩
  have hwrite : (dispatch ⟨0⟩ "size==" [.int 1] none).run.Returns Store.sealed
      (.error (.badArgument "size= is read-only")) Store.sealed := ⟨1, rfl⟩
  have hcall : (dispatch ⟨0⟩ "mark" [] (some ⟨5⟩)).run.Returns Store.sealed
      (.error (.memberNotFound "Sealed" "mark")) Store.sealed := ⟨1, rfl⟩
  have hrelays := Store.sealed.dispatch_relays ⟨0⟩ hsheet.failsIdly_get hsheet.failsIdly_set
  refine ⟨hsheet.failsIdly_get, hsheet.failsIdly_set, ⟨_, hread, ?_⟩, ⟨_, hwrite, ?_⟩,
    ⟨_, hcall, ?_⟩⟩
  · obtain ⟨⟨performed, h⟩, -⟩ := hrelays "size" [] none
    refine h.objects_eq hread fun method arguments hperformed => ?_
    cases h.touches hperformed with
    | callMethod hfunction => exact absurd hfunction (by rintro (⟨⟨⟩⟩ | hnil); exact hnil rfl)
  · obtain ⟨⟨performed, h⟩, -⟩ := hrelays "size==" [.int 1] none
    have hset : performed = some (.set "size=" (.int 1)) :=
      (h.eq_set_iff "size=" (.int 1)).mpr ⟨rfl, rfl⟩
    refine h.objects_eq hwrite fun method arguments hperformed => ?_
    cases hset.symm.trans hperformed
  · obtain ⟨⟨performed, h⟩, -⟩ := hrelays "mark" [] (some ⟨5⟩)
    refine h.objects_eq hcall fun method arguments hperformed => ?_
    cases h.touches hperformed with
    | callMethod => exact hsheet.runsNoFunction hmember _

end ScriptHost
