import ScriptHost.Host.Access
import ScriptHost.Proofs.Host.Properties

/-!
# Properties and methods of one name

A property and a method of a record can have the same name: both can be declared, and a property
can be written over a method at any time. What is read under the name is always the property.

Main statement: a call that finds a property without a function goes past it, runs the method
that was declared last and fails only if there is none (`Store.IsRecord.call_past_data`). The
property hides the method from reading and not from calls (`call_of_hidden_method`).
-/

set_option autoImplicit false

namespace ScriptHost

namespace Class

theorem name_ofDeclarations (name : String) (ds : List Declaration) :
    (ofDeclarations name ds).name = name := by
  have hfold : ∀ c : Class, (ds.foldl declare c).name = c.name := by
    induction ds with
    | nil => exact fun _ => rfl
    | cons d ds ih =>
        intro c
        rw [List.foldl_cons, ih]
        cases d <;> rfl
  exact hfold _

/-- The call of a member that is no function goes to the method of the name. -/
theorem callMember_of_data {c : Class} {d : Data} {name : String}
    (hvalue : ∀ f, c.property? d name ≠ some (.function f)) (self : ObjectId)
    (arguments : List Value) :
    c.callMember self d name arguments
      = match c.methods.item? name with
        | some body => body self arguments
        | none => .done (.error (.memberNotFound c.name name)) := by
  rw [callMember]
  split
  · rename_i f hf
    exact absurd hf (hvalue f)
  · rfl

end Class

/-- Under a name without the sign of assignment, touching a method, or a property with arguments,
is a call. -/
theorem Access.classify_call {name : String} (hname : assigned? name = none)
    {kind : Option MemberKind} {count : Nat}
    (h : kind = some .function ∨ kind = some .data ∧ count ≠ 0) :
    classify name kind count = .call name := by
  unfold classify
  rw [hname]
  rcases h with rfl | ⟨rfl, hcount⟩
  · rfl
  · exact if_neg hcount

/-- What is touched in the sense of a call runs as a call of the member. -/
theorem dispatch_runIn_of_call {s : Store} {o : ObjectId} {name : String}
    (hname : assigned? name = none) {arguments : List Value} {block : Option FunctionId}
    (h : (s.profile o).memberKind name = some .function
      ∨ (s.profile o).memberKind name = some .data ∧ withBlock arguments block ≠ [])
    (depth : Nat) :
    (dispatch o name arguments block).run.runIn depth s
      = (Program.run (.operate o (.callMethod name (withBlock arguments block)))).runIn depth s := by
  have hcall : Access.classify name ((s.profile o).memberKind name)
      (withBlock arguments block).length = .call name :=
    Access.classify_call hname (h.imp_right fun ⟨hkind, harguments⟩ =>
      ⟨hkind, mt List.length_eq_zero_iff.mp harguments⟩)
  show ((Access.classify name ((s.profile o).memberKind name)
    (withBlock arguments block).length).carryOut o (s.profile o).className name
      (withBlock arguments block)).run.runIn depth s = _
  rw [hcall]
  rfl

/-- Touching a property with arguments runs as a call of the member. -/
theorem dispatch_runIn_of_data {s : Store} {o : ObjectId} {name : String}
    (hkind : (s.profile o).memberKind name = some .data) (hname : assigned? name = none)
    {arguments : List Value} {block : Option FunctionId}
    (harguments : withBlock arguments block ≠ []) (depth : Nat) :
    (dispatch o name arguments block).run.runIn depth s
      = (Program.run (.operate o (.callMethod name (withBlock arguments block)))).runIn depth s :=
  dispatch_runIn_of_call hname (.inr ⟨hkind, harguments⟩) depth

/-- Calling a member and touching it with arguments fails, as for an object of the class without
such a member. No other code is entered and the store stays as it is. -/
structure Store.RefusesCalls (s : Store) (o : ObjectId) (className name : String) : Prop where
  call (depth : Nat) (arguments : List Value) :
    (Program.run (.operate o (.callMethod name arguments))).runIn (depth + 1) s
      = some (.error (.memberNotFound className name), s)
  trace_call (depth : Nat) (arguments : List Value) :
    (Program.run (.operate o (.callMethod name arguments))).trace (depth + 1) s
      = [.operate o (.callMethod name arguments)]
  dispatch (hname : assigned? name = none) (depth : Nat) {arguments : List Value}
    {block : Option FunctionId} (harguments : withBlock arguments block ≠ []) :
    (dispatch o name arguments block).run.runIn (depth + 1) s
      = some (.error (.memberNotFound className name), s)

/-- Calling a member and touching it with arguments runs some code, in the store as it is. -/
structure Store.CallsRun (s : Store) (o : ObjectId) (name : String) (body : Method) : Prop where
  call (depth : Nat) (arguments : List Value) :
    (Program.run (.operate o (.callMethod name arguments))).runIn (depth + 1) s
      = (body o arguments).runIn depth s
  dispatch (hname : assigned? name = none) (depth : Nat) {arguments : List Value}
    {block : Option FunctionId} (harguments : withBlock arguments block ≠ []) :
    (dispatch o name arguments block).run.runIn (depth + 1) s
      = (body o (withBlock arguments block)).runIn depth s

/-- Let a property of a record hold no function. Its name refuses calls if the class declares no
method of the name; otherwise calls go past the property and run the code that was declared
last. -/
theorem Store.IsRecord.call_past_data {className : String} {ds : List Declaration} {s : Store}
    {o : ObjectId} {d : Data} (h : s.IsRecord o (.ofDeclarations className ds) d) {name : String}
    (hkind : (s.profile o).memberKind name = some .data)
    (hvalue : ∀ f, (Class.ofDeclarations className ds).property? d name ≠ some (.function f)) :
    (name ∉ (methodsOf ds).map (·.1) → s.RefusesCalls o className name)
      ∧ ∀ body, Entries.lastValue? name (methodsOf ds) = some body → s.CallsRun o name body := by
  have hstart : ∀ arguments, s.start (.operate o (.callMethod name arguments))
      = (match Entries.lastValue? name (methodsOf ds) with
          | some body => body o arguments
          | none => .done (.error (.memberNotFound className name)), s) := by
    intro arguments
    rw [h.start_callMethod, Class.callMember_of_data hvalue, Class.item?_methods_ofDeclarations,
      Class.name_ofDeclarations]
  constructor
  · intro hname
    rw [Entries.lastValue?_eq_none_iff.mpr hname] at hstart
    have hcall : ∀ depth arguments,
        (Program.run (.operate o (.callMethod name arguments))).runIn (depth + 1) s
          = some (.error (.memberNotFound className name), s) := by
      intro depth arguments
      rw [Program.runIn_run, hstart]
      rfl
    refine ⟨hcall, ?_, ?_⟩
    · intro depth arguments
      rw [Program.trace_run, hstart]
      rfl
    · intro hsign depth arguments block harguments
      rw [dispatch_runIn_of_data hkind hsign harguments, hcall]
  · intro body hbody
    rw [hbody] at hstart
    have hcall : ∀ depth arguments,
        (Program.run (.operate o (.callMethod name arguments))).runIn (depth + 1) s
          = (body o arguments).runIn depth s := by
      intro depth arguments
      rw [Program.runIn_run, hstart]
    refine ⟨hcall, ?_⟩
    intro hsign depth arguments block harguments
    rw [dispatch_runIn_of_data hkind hsign harguments, hcall]

/-- A class with one method, which returns its arguments. -/
def Class.echo : Class :=
  ofDeclarations "Echo" [.method "bar" fun _ arguments => .done (.ok (.array arguments))]

/-- A new record of the class, after `bar` and `baz` have been written to it. -/
def Store.echoing : Store :=
  (((Store.empty.addObject Class.echo.instantiate).2.start
    (.operate ⟨0⟩ (.set "bar" (.int 7)))).2.start (.operate ⟨0⟩ (.set "baz" (.int 8)))).2

/-- Under the name without a method, nothing can be called; under the other one, the method
runs. -/
theorem Store.call_past_baz :
    Store.echoing.IsRecord ⟨0⟩ Class.echo ⟨[], [("bar", .int 7), ("baz", .int 8)]⟩
      ∧ Store.echoing.RefusesCalls ⟨0⟩ "Echo" "baz"
      ∧ (Program.run (.operate ⟨0⟩ (.callMethod "bar" [.int 1]))).runIn 1 Store.echoing
          = some (.ok (.array [.int 1]), Store.echoing) := by
  have hrecord : Store.echoing.IsRecord ⟨0⟩ Class.echo ⟨[], [("bar", .int 7), ("baz", .int 8)]⟩ :=
    rfl
  have hbaz : ∀ f, Class.echo.property? ⟨[], [("bar", .int 7), ("baz", .int 8)]⟩ "baz"
      ≠ some (.function f) := fun f h => nomatch h
  have hbar : ∀ f, Class.echo.property? ⟨[], [("bar", .int 7), ("baz", .int 8)]⟩ "bar"
      ≠ some (.function f) := fun f h => nomatch h
  have hruns := (hrecord.call_past_data rfl hbar).2 _ rfl
  exact ⟨hrecord, (hrecord.call_past_data rfl hbaz).1 (by decide), hruns.call 0 [.int 1]⟩

/-- After `bar=` has written an integer over the method `bar`, the name is a data property and
reads as the integer, and yet it does not refuse calls: they run the method. -/
theorem call_of_hidden_method :
    ∃ s, (dispatch ⟨0⟩ "bar=" [.int 7] none).run.runIn 1
          (Store.empty.addObject Class.echo.instantiate).2 = some (.ok (.int 7), s)
      ∧ (s.profile ⟨0⟩).memberKind "bar" = some .data
      ∧ (dispatch ⟨0⟩ "bar" [] none).run.runIn 1 s = some (.ok (.int 7), s)
      ∧ (dispatch ⟨0⟩ "bar" [.int 1] none).run.runIn 1 s = some (.ok (.array [.int 1]), s)
      ∧ (Program.run (.operate ⟨0⟩ (.callMethod "bar" [.int 1]))).runIn 1 s
          = some (.ok (.array [.int 1]), s)
      ∧ ¬ s.RefusesCalls ⟨0⟩ "Echo" "bar" :=
  ⟨_, rfl, rfl, rfl, rfl, rfl, fun h => nomatch h.call 0 [.int 1]⟩

end ScriptHost
