import ScriptHost.Tree.Print

/-!
# The nodes that reach the text

`Node.printed d n` lists the nodes that the text of `n` at depth `d` shows, each with the depth it
is printed at. A node stands in front of its parts, and the parts stand in the order of the text;
so a member access lists its object before its name. The parameter of a handler that is missing is
the one part that is not printed.

`Node.nesting n` counts the statement lists that stand one inside the other in the text. The depths
begin again behind the last one, so whether all these lists are blocks depends on where the tree
sits (`Depth.Braces`).
-/

set_option autoImplicit false

namespace ScriptHost.Tree

namespace Node

mutual

/-- The nodes that the text of a tree at depth `d` shows, with their depths, in the order in which
their texts begin. -/
def printed (d : Depth) : Node → List (Depth × Node)
  | leaf k text => [(d, leaf k text)]
  | word w => [(d, word w)]
  | list k items => (d, list k items) :: printedEach (k.itemDepth d) items
  | apply k callee arguments =>
    (d, apply k callee arguments) :: (printed d callee ++ printedEach d arguments)
  | function name parameters body =>
    (d, function name parameters body) ::
      (printedEach d parameters ++ printed d.atLeastBlock body)
  | pair .property key value =>
    (d, pair .property key value) :: (printed d key ++ printed d value)
  | pair .subscript object index =>
    (d, pair .subscript object index) :: (printed d object ++ printed d index)
  | pair .member name object =>
    (d, pair .member name object) :: (printed d object ++ printed d name)
  | pair .doWhile body condition =>
    (d, pair .doWhile body condition) ::
      (printed d.atLeastBlock body ++ printed d condition)
  | pair .whileDo condition body =>
    (d, pair .whileDo condition body) ::
      (printed d condition ++ printed d.atLeastBlock body)
  | single k value => (d, single k value) :: printed d value
  | unary o value => (d, unary o value) :: printed d value
  | update o value => (d, update o value) :: printed d value
  | binary o left right =>
    (d, binary o left right) :: (printedOption d left ++ printedOption d right)
  | ternary condition left right =>
    (d, ternary condition left right) ::
      (printed d condition ++ printed d left ++ printed d right)
  | returns value => (d, returns value) :: printedOption d value
  | ifElse condition body otherwise =>
    (d, ifElse condition body otherwise) ::
      (printed d condition ++ printed d.atLeastBlock body
        ++ printedOption d.atLeastBlock otherwise)
  | forLoop init test step body =>
    (d, forLoop init test step body) ::
      (printedOption d init ++ printedOption d test ++ printedOption d step
        ++ printed d.atLeastBlock body)
  | forIn left right body =>
    (d, forIn left right body) ::
      (printed d left ++ printed d right ++ printed d.atLeastBlock body)
  | tryCatch body parameter handler finalizer =>
    (d, tryCatch body parameter handler finalizer) ::
      (printed d.atLeastBlock body
        ++ (if handler.isSome then printedOption d parameter else [])
        ++ printedOption d.atLeastBlock handler ++ printedOption d.atLeastBlock finalizer)

/-- The nodes shown by the texts of a list of trees at depth `d`. -/
def printedEach (d : Depth) : List Node → List (Depth × Node)
  | [] => []
  | n :: rest => printed d n ++ printedEach d rest

/-- The nodes shown by the text of a tree that may be missing. -/
def printedOption (d : Depth) : Option Node → List (Depth × Node)
  | none => []
  | some n => printed d n

end

@[simp] theorem printedEach_eq_flatMap (d : Depth) (items : List Node) :
    printedEach d items = items.flatMap (printed d) := by
  induction items with
  | nil => rfl
  | cons n rest ih => simp [printedEach, ih]

end Node

/-! ## Lists inside lists -/

/-- How many levels the items of a list stand below it. -/
def ListKind.levels : ListKind → Nat
  | .statements => 1
  | _ => 0

namespace Node

mutual

/-- The largest number of statement lists that stand one inside the other in the text of a tree. -/
def nesting : Node → Nat
  | leaf _ _ => 0
  | word _ => 0
  | list k items => nestingEach items + k.levels
  | apply _ callee arguments => max (nesting callee) (nestingEach arguments)
  | function _ parameters body => max (nestingEach parameters) (nesting body)
  | pair _ left right => max (nesting left) (nesting right)
  | single _ value => nesting value
  | unary _ value => nesting value
  | update _ value => nesting value
  | binary _ left right => max (nestingOption left) (nestingOption right)
  | ternary condition left right => max (nesting condition) (max (nesting left) (nesting right))
  | returns value => nestingOption value
  | ifElse condition body otherwise =>
    max (nesting condition) (max (nesting body) (nestingOption otherwise))
  | forLoop init test step body =>
    max (max (nestingOption init) (nestingOption test)) (max (nestingOption step) (nesting body))
  | forIn left right body => max (nesting left) (max (nesting right) (nesting body))
  | tryCatch body parameter handler finalizer =>
    max (max (nesting body) (if handler.isSome then nestingOption parameter else 0))
      (max (nestingOption handler) (nestingOption finalizer))

/-- The nesting of the trees of a list, at most. -/
def nestingEach : List Node → Nat
  | [] => 0
  | n :: rest => max (nesting n) (nestingEach rest)

/-- The nesting of a tree that may be missing. -/
def nestingOption : Option Node → Nat
  | none => 0
  | some n => nesting n

end

theorem nesting_le_nestingEach {items : List Node} {n : Node} (h : n ∈ items) :
    n.nesting ≤ nestingEach items := by
  induction items with
  | nil => exact absurd h List.not_mem_nil
  | cons m items ih =>
      rw [nestingEach]
      rcases List.mem_cons.mp h with rfl | h
      · exact Nat.le_max_left ..
      · exact Nat.le_trans (ih h) (Nat.le_max_right ..)

theorem nesting_statements (items : List Node) :
    (list .statements items).nesting = nestingEach items + 1 := rfl

end Node

namespace Depth

/-- Of `n` statement lists one inside the other, the outermost at depth `d`, each has braces. -/
def Braces : Depth → Nat → Prop
  | _, 0 => True
  | d, n + 1 => d.isTop = false ∧ d.nested.Braces n

variable {d : Depth} {m n : Nat}

theorem Braces.mono (h : d.Braces n) (hle : m ≤ n) : d.Braces m := by
  induction m generalizing d n with
  | zero => trivial
  | succ m ih =>
      cases n with
      | zero => exact absurd hle (Nat.not_succ_le_zero m)
      | succ n => exact ⟨h.1, ih h.2 (Nat.le_of_succ_le_succ hle)⟩

/-- No list sits at the top when the depths do not begin again on the way in. -/
theorem braces_of_le (hd : d.isTop = false) (h : d.level.toNat + n ≤ UInt64.size) : d.Braces n := by
  induction n generalizing d with
  | zero => trivial
  | succ n ih =>
      refine ⟨hd, ?_⟩
      -- the innermost list may sit at the last depth, since nothing has to follow it
      cases n with
      | zero => trivial
      | succ n =>
          have hnext : d.level.toNat + 1 < UInt64.size := by omega
          refine ih (isTop_nested hnext) ?_
          rw [toNat_level_nested hnext]
          omega

/-- The statements of a list may be lists themselves, at the top as well. -/
theorem braces_nested (h : d.level.toNat + (n + 1) ≤ UInt64.size) : d.nested.Braces n := by
  cases n with
  | zero => trivial
  | succ n =>
      have hnext : d.level.toNat + 1 < UInt64.size := by omega
      refine braces_of_le (isTop_nested hnext) ?_
      rw [toNat_level_nested hnext]
      omega

theorem Braces.atLeastBlock (h : d.Braces n) : d.atLeastBlock.Braces n := by
  cases n with
  | zero => trivial
  | succ n => rwa [atLeastBlock_of_isTop h.1]

end Depth

end ScriptHost.Tree
