import ScriptHost.Tree.Print

/-!
# Branches in front of a word

The branch in front of `else` and the body in front of `while` are followed by a semicolon unless
they are closed already: because their text ends in one, or because they end in a braced block
(`Node.endsInBlock`, `Node.isClosed`). The printer looks at the node itself and at the last
character only. Main statement: the text is right for exactly the branches that are statement
lists whenever they end in a block (`Node.print_branch_iff`); a loop, a conditional or a guarded
body that ends in a block gets a semicolon too many (`Node.render_loop_before_else`).
-/

set_option autoImplicit false

namespace ScriptHost.Tree

theorem getLast?_block {d : Depth} (h : d.isTop = false) (texts : List (List Char)) :
    (block d texts).getLast? = some '\x7d' := by
  rw [block_of_isTop_eq_false h, List.getLast?_append]
  rfl

theorem getLast?_append_of_eq_some {text : List Char} {c : Char} (h : text.getLast? = some c)
    (before : List Char) : (before ++ text).getLast? = some c := by
  rw [List.getLast?_append, h, Option.some_or]

namespace Node

/-! ## Closed branches -/

/-- Whether a statement ends in a braced block: a statement list does, and a loop, a conditional
or a guarded body does when the last of its printed bodies does. -/
def endsInBlock : Node → Bool
  | list .statements _ => true
  | pair .whileDo _ body => endsInBlock body
  | forLoop _ _ _ body => endsInBlock body
  | forIn _ _ body => endsInBlock body
  | ifElse _ body none => endsInBlock body
  | ifElse _ _ (some otherwise) => endsInBlock otherwise
  | tryCatch body _ none none => endsInBlock body
  | tryCatch _ _ (some handler) none => endsInBlock handler
  | tryCatch _ _ _ (some finalizer) => endsInBlock finalizer
  | _ => false

/-- Whether a statement at depth `d` needs no semicolon to be complete. -/
def isClosed (d : Depth) (n : Node) : Bool :=
  (n.print d).getLast? == some ';' || n.endsInBlock

/-- The text of a statement at depth `d`, completed by a semicolon unless it is closed. -/
def completed (d : Depth) (n : Node) : List Char :=
  n.print d ++ if n.isClosed d then [] else [';']

/-- Below the top, a statement that ends in a block ends in a closing brace. -/
theorem getLast?_print_of_endsInBlock {n : Node} (h : n.endsInBlock = true) {d : Depth}
    (hd : d.isTop = false) : (n.print d).getLast? = some '\x7d' := by
  fun_induction endsInBlock n generalizing d with
  | case1 items =>
      rw [print_list, ListKind.write_statements]
      exact getLast?_block hd _
  | case2 condition body ih =>
      rw [print_whileDo]
      exact getLast?_append_of_eq_some (ih h d.isTop_atLeastBlock) _
  | case3 init test step body ih =>
      rw [print_forLoop]
      exact getLast?_append_of_eq_some (ih h d.isTop_atLeastBlock) _
  | case4 left right body ih =>
      rw [print_forIn]
      exact getLast?_append_of_eq_some (ih h d.isTop_atLeastBlock) _
  | case5 condition body ih =>
      rw [print_ifElse, printClause_none, List.append_nil]
      exact getLast?_append_of_eq_some (ih h d.isTop_atLeastBlock) _
  | case6 condition body otherwise ih =>
      rw [print_ifElse, printClause_some, ← List.append_assoc]
      exact getLast?_append_of_eq_some (ih h d.isTop_atLeastBlock) _
  | case7 body parameter ih =>
      rw [print_tryCatch, printClause_none, printClause_none, List.append_nil, List.append_nil]
      exact getLast?_append_of_eq_some (ih h d.isTop_atLeastBlock) _
  | case8 body parameter handler ih =>
      rw [print_tryCatch, printClause_some, printClause_none, List.append_nil,
        ← List.append_assoc]
      exact getLast?_append_of_eq_some (ih h d.isTop_atLeastBlock) _
  | case9 body parameter handler finalizer ih =>
      rw [print_tryCatch, printClause_some d.atLeastBlock " finally ".toList, ← List.append_assoc]
      exact getLast?_append_of_eq_some (ih h d.isTop_atLeastBlock) _
  | case10 => exact absurd h (by decide)

theorem endsInBlock_of_isStatements {n : Node} (h : n.isStatements = true) :
    n.endsInBlock = true := by
  obtain ⟨items, rfl⟩ := isStatements_iff.mp h
  rfl

/-! ## What the printer adds -/

/-- The printer's semicolon is the right one for exactly the branches that are statement lists
whenever they end in a block. -/
theorem closing_eq_iff (d : Depth) (body : Node) :
    closing body (body.print d.atLeastBlock)
        = (if body.isClosed d.atLeastBlock then [] else [';'])
      ↔ (body.endsInBlock = true → body.isStatements = true) := by
  rw [closing, isClosed]
  cases hblock : body.endsInBlock with
  | false =>
      -- a statement list ends in a block, so only the last character decides
      have hlist : body.isStatements = false := by
        rw [Bool.eq_false_iff]
        exact fun h => Bool.eq_false_iff.mp hblock (endsInBlock_of_isStatements h)
      rw [hlist, Bool.false_or, Bool.or_false]
      exact ⟨fun _ h => absurd h (by decide), fun _ => rfl⟩
  | true =>
      have hlast := getLast?_print_of_endsInBlock hblock d.isTop_atLeastBlock
      rw [hlast, Bool.or_true, if_pos rfl]
      cases body.isStatements <;> decide

/-- A conditional with an else branch and a loop that tests at its end have their first branch as
one complete statement, exactly when that branch is a statement list or does not end in a
block. -/
theorem print_branch_iff (d : Depth) (condition body otherwise : Node) :
    (print d (ifElse condition body (some otherwise))
        = "if(".toList ++ print d condition ++ [')', ' '] ++ completed d.atLeastBlock body
          ++ " else ".toList ++ print d.atLeastBlock otherwise
      ↔ (body.endsInBlock = true → body.isStatements = true)) ∧
    (print d (pair .doWhile body condition)
        = "do ".toList ++ completed d.atLeastBlock body ++ " while(".toList ++ print d condition
          ++ [')']
      ↔ (body.endsInBlock = true → body.isStatements = true)) := by
  rw [← closing_eq_iff d body, print_ifElse, printClause_some, print_doWhile, completed]
  constructor
  · simp only [List.append_assoc, List.append_cancel_left_eq]
    exact List.append_left_inj _
  · simp only [List.append_assoc, List.append_cancel_left_eq]
    exact List.append_left_inj _

/-- A loop around a block is closed, and the printer closes it once more. -/
theorem render_loop_before_else :
    isClosed Depth.top.atLeastBlock (pair .whileDo (ident "x") (program [])) = true ∧
      (ifElse (ident "c") (pair .whileDo (ident "x") (program [])) (some (ident "y"))).render
        = "if(c) while(x) \x7b\n\n\x7d; else y" := by
  decide

end Node

end ScriptHost.Tree
