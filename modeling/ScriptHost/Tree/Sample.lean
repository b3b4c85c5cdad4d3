import ScriptHost.Tree.Node

/-!
# Trees of any size

Two families of programs built from one statement, for measuring: `Node.wide n` has `n` statements
side by side and `Node.deep n` has `n` blocks inside each other.
-/

set_option autoImplicit false

namespace ScriptHost.Tree.Node

/-- The declaration `var vi = i * f("arg")`. -/
def sampleStatement (i : Nat) : Node :=
  declare [operation .assign (ident ("v" ++ toString i))
    (operation .multiply (number (toString i)) (call (ident "f") [string "arg"]))]

/-- The program of the first `n` sample statements. -/
def wide (n : Nat) : Node := program ((List.range n).map sampleStatement)

/-- The first sample statement, wrapped `n` times in a block behind a sample statement. -/
def deep (n : Nat) : Node :=
  (List.range n).foldl (fun inner i => program [sampleStatement i, inner])
    (program [sampleStatement 0])

end ScriptHost.Tree.Node
