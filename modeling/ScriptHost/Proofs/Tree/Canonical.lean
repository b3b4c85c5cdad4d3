import ScriptHost.Tree.Print

/-!
# Trees up to operators of one text

Two operators may share a text (`BinaryOperator.text_assignExpr`), so a text can give back a tree
only up to such a choice. `Node.canonical` takes the same operator for all of one text;
printing does not see the difference (`Node.print_canonical`).
-/

set_option autoImplicit false

namespace ScriptHost.Tree

namespace BinaryOperator

/-- The operator that stands for all those with the same text. -/
def canonical : BinaryOperator → BinaryOperator
  | assignExpr => assign
  | o => o

/-- The first operator with a given text. -/
def ofText? (s : String) : Option BinaryOperator := all.find? (·.text == s)

theorem text_canonical (o : BinaryOperator) : o.canonical.text = o.text := by
  cases o with
  | assignExpr => exact text_assignExpr.symm
  | _ => rfl

theorem ofText?_text (o : BinaryOperator) : ofText? o.text = some o.canonical := by
  cases o <;> decide

end BinaryOperator

namespace Node

mutual

/-- The tree with a canonical operator in each place. -/
def canonical : Node → Node
  | leaf k text => leaf k text
  | word w => word w
  | list k items => list k (canonicalEach items)
  | apply k callee arguments => apply k (canonical callee) (canonicalEach arguments)
  | function name parameters body => function name (canonicalEach parameters) (canonical body)
  | pair k left right => pair k (canonical left) (canonical right)
  | single k value => single k (canonical value)
  | unary o value => unary o (canonical value)
  | update o value => update o (canonical value)
  | binary o left right => binary o.canonical (canonicalOption left) (canonicalOption right)
  | ternary condition left right =>
    ternary (canonical condition) (canonical left) (canonical right)
  | returns value => returns (canonicalOption value)
  | ifElse condition body otherwise =>
    ifElse (canonical condition) (canonical body) (canonicalOption otherwise)
  | forLoop init test step body =>
    forLoop (canonicalOption init) (canonicalOption test) (canonicalOption step) (canonical body)
  | forIn left right body => forIn (canonical left) (canonical right) (canonical body)
  | tryCatch body parameter handler finalizer =>
    tryCatch (canonical body) (canonicalOption parameter) (canonicalOption handler)
      (canonicalOption finalizer)

/-- The trees of a list with a canonical operator in each place. -/
def canonicalEach : List Node → List Node
  | [] => []
  | n :: rest => canonical n :: canonicalEach rest

/-- A tree that may be missing, with a canonical operator in each place. -/
def canonicalOption : Option Node → Option Node
  | none => none
  | some n => some (canonical n)

end

@[simp] theorem canonicalEach_eq_map (items : List Node) :
    canonicalEach items = items.map canonical := by
  induction items with
  | nil => rfl
  | cons n rest ih => simp [canonicalEach, ih]

theorem isStatements_canonical (n : Node) : n.canonical.isStatements = n.isStatements := by
  cases n <;> rfl

theorem closing_canonical (body : Node) (text : List Char) :
    closing body.canonical text = closing body text := by
  rw [closing, closing, isStatements_canonical]

mutual

/-- A tree and its canonical form have the same text. -/
theorem print_canonical : ∀ (n : Node) (d : Depth), print d n.canonical = print d n
  | leaf _ _, _ => rfl
  | word _, _ => rfl
  | list k items, d => by
      rw [canonical, print_list, print_list, map_print_canonical]
  | apply k callee arguments, d => by
      rw [canonical, print_apply, print_apply, print_canonical callee, map_print_canonical]
  | function none parameters body, d => by
      rw [canonical, print_function_none, print_function_none, print_canonical body,
        map_print_canonical]
  | function (some name) parameters body, d => by
      rw [canonical, print_function_some, print_function_some, print_canonical body,
        map_print_canonical]
  | pair .property key value, d => by
      rw [canonical, print_property, print_property, print_canonical key, print_canonical value]
  | pair .subscript object index, d => by
      rw [canonical, print_subscript, print_subscript, print_canonical object,
        print_canonical index]
  | pair .member name object, d => by
      rw [canonical, print_member, print_member, print_canonical name, print_canonical object]
  | pair .doWhile body condition, d => by
      rw [canonical, print_doWhile, print_doWhile, print_canonical body, closing_canonical,
        print_canonical condition]
  | pair .whileDo condition body, d => by
      rw [canonical, print_whileDo, print_whileDo, print_canonical condition,
        print_canonical body]
  | single k value, d => by
      rw [canonical, print_single, print_single, print_canonical value]
  | unary o value, d => by
      rw [canonical, print_unary, print_unary, print_canonical value]
  | update o value, d => by
      rw [canonical, print_update, print_update, print_canonical value]
  | binary o left right, d => by
      rw [canonical, print_binary, print_binary, printClause_canonical, printClause_canonical,
        BinaryOperator.text_canonical]
  | ternary condition left right, d => by
      rw [canonical, print_ternary, print_ternary, print_canonical condition,
        print_canonical left, print_canonical right]
  | returns value, d => by
      rw [canonical, print_returns, print_returns, printClause_canonical]
  | ifElse condition body otherwise, d => by
      rw [canonical, print_ifElse, print_ifElse, print_canonical condition, print_canonical body,
        closing_canonical, printClause_canonical]
  | forLoop init test step body, d => by
      rw [canonical, print_forLoop, print_forLoop, printClause_canonical init,
        printClause_canonical test, printClause_canonical step, print_canonical body]
  | forIn left right body, d => by
      rw [canonical, print_forIn, print_forIn, print_canonical left, print_canonical right,
        print_canonical body]
  | tryCatch body parameter handler finalizer, d => by
      rw [canonical, print_tryCatch, print_tryCatch, print_canonical body,
        printClause_canonical parameter, printClause_canonical handler,
        printClause_canonical finalizer]

theorem map_print_canonical : ∀ (items : List Node) (d : Depth),
    (canonicalEach items).map (print d) = items.map (print d)
  | [], _ => rfl
  | n :: rest, d => by
      rw [canonicalEach, List.map_cons, List.map_cons, print_canonical n,
        map_print_canonical rest]

theorem printClause_canonical : ∀ (n : Option Node) (d : Depth) (before : List Char),
    printClause d before (canonicalOption n) = printClause d before n
  | none, _, _ => rfl
  | some n, d, before => by
      rw [canonicalOption, printClause_some, printClause_some, print_canonical n]

end

end Node

end ScriptHost.Tree
