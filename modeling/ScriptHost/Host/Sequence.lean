import ScriptHost.Host.Cursor

/-!
# Values as sequences

The list of values that a value stands for: the items of an array, the elements of an object with
a length, the members of an object that lists them as pairs of name and value, and nothing for
null and undefined. No other value is a sequence.
-/

set_option autoImplicit false

namespace ScriptHost

/-- The elements of an object from an index on, as many as given. -/
def elementsFrom (o : ObjectId) : Nat → Nat → Action (List Value)
  | _, 0 => pure []
  | index, count + 1 => do
    let v ← Action.ofProgram (.run (.operate o (.element index)))
    let vs ← elementsFrom o (index + 1) count
    return v :: vs

/-- The pairs of name and value that a cursor gives in a number of steps. -/
def Cursor.pairs : Nat → Cursor → Action (List Value)
  | 0, _ => pure []
  | steps + 1, c => do
    let (result, c) ← c.advance
    match result with
    | .error e => Action.fail e
    | .ok none => return []
    | .ok (some (.name _)) => pairs steps c
    | .ok (some (.pair name value)) =>
      let text ← Program.ask (.symbolText name)
      let rest ← pairs steps c
      return .array [.string text, value] :: rest

/-- The error of a value that is no sequence. -/
def notIterable (what : String) : HostError := .typeMismatch "iterable" what

/-- The sequence that a value stands for. -/
def toSequence (v : Value) : Action (List Value) :=
  match v with
  | .array items => pure items
  | .null => pure []
  | .undefined => pure []
  | .object o => do
    let p ← Program.ask (.profile o)
    match p.length with
    | some count => elementsFrom o 0 count
    | none =>
      if p.lists then
        let c ← Cursor.begin .common v false
        c.pairs c.length
      else Action.fail (notIterable p.className)
  | _ => Action.fail (notIterable (v.typeName fun _ => false))

end ScriptHost
