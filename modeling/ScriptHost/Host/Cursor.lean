import ScriptHost.Host.Access
import ScriptHost.Host.Text

/-!
# Iteration over the members of an object

A cursor takes the names of an object's members when it is made and hands them out one at a time.
With a source, each name comes with the value that the member has at that moment. A step goes
past its name before it looks at the value, so a value that cannot be read is reported once.
-/

set_option autoImplicit false

namespace ScriptHost

/-- What a step of an iteration gives. -/
inductive Member where
  | name (symbol : SymbolId)
  | pair (symbol : SymbolId) (value : Value)

/-- The name of a step. -/
def Member.symbol : Member → SymbolId
  | .name symbol => symbol
  | .pair symbol _ => symbol

/-- A place in a list of names. -/
structure Cursor where
  names : List SymbolId
  /-- How many names have been handed out. -/
  position : Nat
  /-- The object whose values come with the names. -/
  source : Option ObjectId

namespace Cursor

/-- The cursor in front of a list of names, without values. -/
def overNames (names : List SymbolId) : Cursor := ⟨names, 0, none⟩

/-- The symbols for texts in a table, one after the other. -/
def internAll (table : TableId) : List String → Program (List SymbolId)
  | [] => .done []
  | text :: rest =>
    .bind (.ask (.intern table text)) fun symbol =>
      .bind (internAll table rest) fun symbols => .done (symbol :: symbols)

/-- The cursor in front of the members of a value, with values unless only names are wanted. A
value that is no host object has none. -/
def begin (table : TableId) (v : Value) (namesOnly : Bool) : Program Cursor :=
  match v with
  | .object o =>
    .bind (.ask (.profile o)) fun p =>
      .bind (internAll table p.names) fun names =>
        .done ⟨names, 0, if namesOnly then none else some o⟩
  | _ => .done (overNames [])

/-- The number of names. -/
def length (c : Cursor) : Nat := c.names.length

/-- Whether names are left. -/
def hasNext (c : Cursor) : Bool := decide (c.position < c.length)

/-- How many names are left. -/
def remaining (c : Cursor) : Nat := c.length - c.position

/-- The cursor behind its next name. -/
def passed (c : Cursor) : Cursor := { c with position := c.position + 1 }

/-- What a name gives: the name alone, or the name with the value of the member at this moment. -/
def item (c : Cursor) (name : SymbolId) : Program (Except HostError Member) :=
  match c.source with
  | none => .done (.ok (.name name))
  | some o =>
    .bind (.ask (.symbolText name)) fun text =>
      .bind (member o text) fun value => .done (value.map (.pair name))

/-- A step: what the next name gives, or none at the end. The cursor afterward is behind the name,
whether or not the value could be read. -/
def advance (c : Cursor) : Program (Except HostError (Option Member) × Cursor) :=
  match c.names[c.position]? with
  | none => .done (.ok none, c)
  | some name => .bind (c.item name) fun result => .done (result.map some, c.passed)

end Cursor

/-- A cursor, shown with its names, its place and its source. -/
def Store.inspectCursor (s : Store) (c : Cursor) : String :=
  "IterationCursor \x7b items: [" ++ ", ".intercalate (c.names.map s.showSymbol)
    ++ "], index: " ++ toString c.position ++ ", source: "
    ++ (match c.source with
      | none => "None"
      | some o => "Some(" ++ s.showObject o ++ ")")
    ++ " \x7d"

end ScriptHost
