import ScriptHost.Proofs.Tree.Branches

/-!
# The conditional that an else branch belongs to

A loop ends in its body and a conditional in the last branch it has (`Enclosure`). When a statement
ends in this way in a conditional without an else branch, an else branch may stand in two places:
behind the whole statement, if that is the branch of another conditional, or at the conditional
inside. The printer never puts a branch in braces. So the trees differ in print only by the
semicolon in front of `else`, which depends on what the branch looks like from outside.

Main statement: the two texts differ exactly when the branch in front of the else branch is a
statement list, which brings its own braces (`Node.renderAt_else_eq_iff`). All other branches give
one text for both trees (`Node.render_dangling_else`).
-/

set_option autoImplicit false

namespace ScriptHost.Tree

/-- A statement with a place for the statement that it ends in. -/
inductive Enclosure where
  | whileDo (condition : Node)
  | forLoop (init test step : Option Node)
  | forIn (left right : Node)
  /-- A conditional with nothing but its first branch. -/
  | thenBranch (condition : Node)
  | elseBranch (condition body : Node)

namespace Enclosure

/-- The statement that ends in a given one. -/
def around (n : Node) : Enclosure → Node
  | whileDo condition => .pair .whileDo condition n
  | forLoop init test step => .forLoop init test step n
  | forIn left right => .forIn left right n
  | thenBranch condition => .ifElse condition n none
  | elseBranch condition body => .ifElse condition body (some n)

/-- The statement that ends in a given one through a chain of others, the outermost first. -/
def chain (es : List Enclosure) (n : Node) : Node := es.foldr (fun e n => e.around n) n

end Enclosure

namespace Node

open Enclosure (around chain)

/-! ## The text of a chain -/

/-- The text of a statement that ends in another one has the text of that one at its end, and what
stands before does not depend on it. -/
theorem exists_print_around {d : Depth} (hd : d.isTop = false) (e : Enclosure) :
    ∃ before, ∀ n, print d (e.around n) = before ++ print d n := by
  have hbody : d.atLeastBlock = d := Depth.atLeastBlock_of_isTop hd
  cases e with
  | whileDo condition =>
      refine ⟨"while(".toList ++ print d condition ++ [')', ' '], fun n => ?_⟩
      rw [around, print_whileDo, hbody]
  | forLoop init test step =>
      refine ⟨"for(".toList ++ printClause d [] init ++ [';', ' '] ++ printClause d [] test
        ++ [';', ' '] ++ printClause d [] step ++ [')', ' '], fun n => ?_⟩
      rw [around, print_forLoop, hbody]
  | forIn left right =>
      refine ⟨"for(".toList ++ print d left ++ " in ".toList ++ print d right ++ [')', ' '],
        fun n => ?_⟩
      rw [around, print_forIn, hbody]
  | thenBranch condition =>
      refine ⟨"if(".toList ++ print d condition ++ [')', ' '], fun n => ?_⟩
      rw [around, print_ifElse, printClause_none, List.append_nil, hbody]
  | elseBranch condition body =>
      refine ⟨"if(".toList ++ print d condition ++ [')', ' '] ++ print d body
        ++ (closing body (print d body) ++ " else ".toList), fun n => ?_⟩
      rw [around, print_ifElse, printClause_some, hbody, ← List.append_assoc _ _ (print d n)]

theorem exists_print_chain {d : Depth} (hd : d.isTop = false) (es : List Enclosure) :
    ∃ before, ∀ n, print d (chain es n) = before ++ print d n := by
  induction es with
  | nil => exact ⟨[], fun n => rfl⟩
  | cons e es ih =>
      obtain ⟨outer, houter⟩ := exists_print_around hd e
      obtain ⟨inner, hinner⟩ := ih
      refine ⟨outer ++ inner, fun n => ?_⟩
      rw [List.append_assoc, ← hinner]
      exact houter (chain es n)

theorem isStatements_chain (es : List Enclosure) (condition body : Node) (otherwise : Option Node) :
    (chain es (ifElse condition body otherwise)).isStatements = false := by
  cases es with
  | nil => rfl
  | cons e es => cases e <;> rfl

/-! ## The semicolon in front of the else branch -/

/-- The semicolon behind a branch that is no statement list. -/
theorem closing_of_isStatements {n : Node} (h : n.isStatements = false) (text : List Char) :
    closing n text = if text.getLast? = some ';' then [] else [';'] := by
  rw [closing, h, Bool.false_or]
  simp only [beq_iff_eq]

/-- A blank in front of a text does not make it end in a semicolon. -/
theorem getLast?_append_blank (before text : List Char) :
    (before ++ [' '] ++ text).getLast? = some ';' ↔ text.getLast? = some ';' := by
  rw [List.getLast?_append, List.getLast?_concat]
  cases text.getLast? with
  | none => decide
  | some c => rfl

/-- A statement that ends in a conditional without an else branch gets a semicolon exactly when the
text of the inner branch does not end in one. -/
theorem closing_chain {d : Depth} (hd : d.isTop = false) (es : List Enclosure)
    (condition body : Node) :
    closing (chain es (ifElse condition body none)) (print d (chain es (ifElse condition body none)))
      = if (print d body).getLast? = some ';' then [] else [';'] := by
  obtain ⟨before, hbefore⟩ := exists_print_chain hd es
  have hblank : print d (chain es (ifElse condition body none))
      = before ++ ("if(".toList ++ print d condition ++ [')']) ++ [' '] ++ print d body := by
    rw [hbefore, print_ifElse, printClause_none, Depth.atLeastBlock_of_isTop hd]
    simp only [List.append_assoc, List.append_nil, List.cons_append, List.nil_append]
  rw [closing_of_isStatements (isStatements_chain es condition body none), hblank]
  simp only [getLast?_append_blank]

/-- The text of a statement list in a branch never ends in a semicolon, so it is the one branch for
which the printer's choice depends on where the else branch belongs. -/
theorem closing_eq_iff_isStatements {d : Depth} (hd : d.isTop = false) (body : Node) :
    (if (print d body).getLast? = some ';' then [] else [';']) = closing body (print d body)
      ↔ body.isStatements = false := by
  cases hlist : body.isStatements with
  | false => exact ⟨fun _ => rfl, fun _ => (closing_of_isStatements hlist _).symm⟩
  | true =>
      have hlast := getLast?_print_of_endsInBlock (endsInBlock_of_isStatements hlist) hd
      rw [hlast, closing, hlist, Bool.true_or]
      decide

/-! ## Two places for an else branch -/

/-- Let a branch end in a conditional without an else branch, through any chain of statements. The
else branch behind it and the else branch at the conditional inside give one text, unless the
branch in front of the inner place is a statement list. -/
theorem renderAt_else_eq_iff (d : Depth) (es : List Enclosure)
    (outer inner body otherwise : Node) :
    (ifElse outer (chain es (ifElse inner body none)) (some otherwise)).renderAt d
        = (ifElse outer (chain es (ifElse inner body (some otherwise))) none).renderAt d
      ↔ body.isStatements = false := by
  have hd : d.atLeastBlock.isTop = false := d.isTop_atLeastBlock
  have hdepth : d.atLeastBlock.atLeastBlock = d.atLeastBlock := Depth.atLeastBlock_of_isTop hd
  obtain ⟨before, hbefore⟩ := exists_print_chain hd es
  rw [← closing_eq_iff_isStatements hd body, renderAt, renderAt, String.ofList_inj, print_ifElse,
    print_ifElse, printClause_some, printClause_none, closing_chain hd, hbefore, hbefore,
    print_ifElse, print_ifElse, printClause_some, printClause_none, hdepth]
  simp only [List.append_assoc, List.append_cancel_left_eq, List.append_nil]
  exact List.append_left_inj _

/-- The else branch of the outer conditional and the one of the conditional in the loop. -/
theorem render_dangling_else :
    (ifElse (ident "a") (pair .whileDo (ident "x") (ifElse (ident "b") (ident "s") none))
        (some (ident "t"))).render
      = (ifElse (ident "a")
          (pair .whileDo (ident "x") (ifElse (ident "b") (ident "s") (some (ident "t"))))
          none).render := by
  decide

end Node

end ScriptHost.Tree
