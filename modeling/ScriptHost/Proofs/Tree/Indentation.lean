import ScriptHost.Proofs.Tree.Layout
import ScriptHost.Proofs.Tree.Pieces

/-!
# The text of a tree one level further in

Below the top level, the depth of a tree shows in its text only as indentation. Main statement: one
level further in, a text has the same rows, but for two more blanks in front of those rows that
begin a statement of a statement list (`Node.rows_renderAt_nested`), unless the depths or the
numbers of blanks begin again on the way in, as they do at the last depth
(`Node.rows_renderAt_last`).

The texts of a tree at depth `d` and at the depths further in, up to a limit, are filled in from one
layout, which marks the line breaks in front of the statements (`Node.laid`). It is put together
piece by piece.
-/

set_option autoImplicit false

namespace ScriptHost.Tree

open Piece (own given subtree clause)

/-! ## Rows that begin a statement -/

/-- The tree `n` at depth `d` is among some pieces, with `i` line breaks in front of it. -/
inductive Piece.Stands (d : Depth) (n : Node) : List Piece → Nat → Prop where
  | here (ps : List Piece) : Stands d n (subtree d n :: ps) 0
  | behind (p : Piece) {ps : List Piece} {i : Nat} (h : Stands d n ps i) :
      Stands d n (p :: ps) (breaks p.print + i)

/-- Row `i` of the text of a tree at depth `d` begins a statement of a statement list, of the tree
itself or of one inside it. -/
inductive Node.Begins : Depth → Node → Nat → Prop where
  | statement {d e : Depth} {items : List Node} {m : Node} {i : Nat}
      (h : Piece.Stands e m ((list .statements items).pieces d) i) :
      Begins d (list .statements items) i
  | inside {d e : Depth} {n m : Node} {i j : Nat} (h : Piece.Stands e m (n.pieces d) i)
      (hm : Begins e m j) : Begins d n (i + j)

/-! ## Further in -/

namespace Piece

/-- A piece, with its tree `k` levels further in. -/
def deeper (k : Nat) : Piece → Piece
  | own text => own text
  | given text => given text
  | subtree d n => subtree (d.deeper k) n

@[simp] theorem deeper_own (k : Nat) (text : List Char) : (own text).deeper k = own text := rfl

@[simp] theorem deeper_given (k : Nat) (text : String) : (given text).deeper k = given text := rfl

@[simp] theorem deeper_subtree (k : Nat) (d : Depth) (n : Node) :
    (subtree d n).deeper k = subtree (d.deeper k) n := rfl

@[simp] theorem map_deeper_commas (k : Nat) (d : Depth) (items : List Node) :
    (commas d items).map (deeper k) = commas (d.deeper k) items := by
  rw [List.map_eq_flatMap, flatMap_commas]
  rfl

@[simp] theorem map_deeper_clause (k : Nat) (d : Depth) (before : List Char) (o : Option Node) :
    (clause d before o).map (deeper k) = clause (d.deeper k) before o := by
  cases o <;> rfl

end Piece

/-- At the depths from `d` up to `limit` levels further in, the text of `n` is filled in from one
layout, which marks the rows that begin a statement with depths that have the property `P`. -/
def Node.Laid (limit : Nat) (P : Depth → Prop) (d : Depth) (n : Node) : Prop :=
  Fits limit P (fun k => n.print (d.deeper k)) fun k i => n.Begins (d.deeper k) i

namespace Node

/-- Further in, a node has the same pieces, each further in: its choices come out the same. -/
theorem pieces_deeper {limit k : Nat} {P : Depth → Prop} {d : Depth} {n : Node} (hk : k ≤ limit)
    (hd : d.isTop = false) (hd' : (d.deeper k).isTop = false) (hn : n.isStatements = false)
    (h : ∀ e m, subtree e m ∈ n.pieces d → m.Laid limit P e) :
    n.pieces (d.deeper k) = (n.pieces d).map (Piece.deeper k) := by
  have hblock : d.atLeastBlock = d := Depth.atLeastBlock_of_isTop hd
  have hblock' : (d.deeper k).atLeastBlock = d.deeper k := Depth.atLeastBlock_of_isTop hd'
  cases n with
  | leaf kind text => cases kind <;> rfl
  | word w => rfl
  | list kind items =>
      cases kind with
      | statements => exact absurd hn (by simp [isStatements, kind])
      | objectLiteral => cases items <;> simp [pieces, ListKind.pieces]
      | declaration => simp [pieces, ListKind.pieces]
      | arrayLiteral => simp [pieces, ListKind.pieces]
      | commaList => simp [pieces, ListKind.pieces]
  | apply kind callee arguments => cases kind <;> simp [pieces, ApplyKind.pieces]
  | function name parameters body => cases name <;> simp [pieces, hblock, hblock']
  | pair kind left right =>
      cases kind with
      | doWhile =>
          have hleft := (h d left (by simp [pieces, hblock])).closing_eq left hk
          simp only [Depth.deeper_zero] at hleft
          simp [pieces, hblock, hblock', hleft]
      | whileDo => simp [pieces, hblock, hblock']
      | property => simp [pieces]
      | subscript => simp [pieces]
      | member => simp [pieces]
  | single kind value => cases kind <;> simp [pieces, SingleKind.pieces]
  | unary o value =>
      have hvalue := (h d value (by simp [pieces])).spacing_eq o.text.toList hk
      simp only [Depth.deeper_zero] at hvalue
      simp [pieces, hvalue]
  | update o value => simp [pieces]
  | binary o left right => simp [pieces]
  | ternary condition left right => simp [pieces]
  | returns value => simp [pieces]
  | ifElse condition body otherwise =>
      have hbody := (h d body (by simp [pieces, hblock])).closing_eq body hk
      simp only [Depth.deeper_zero] at hbody
      simp [pieces, hblock, hblock', hbody]
  | forLoop init test step body => simp [pieces, hblock, hblock']
  | forIn left right body => simp [pieces, hblock, hblock']
  | tryCatch body parameter handler finalizer =>
      cases handler <;> simp [pieces, hblock, hblock']

end Node

/-! ## The rows that begin a statement, piece by piece -/

namespace Piece

variable {limit : Nat} {P : Depth → Prop} {starts : Depth → Node → Nat → Prop}

/-- Row `i` of the text of some pieces is among the rows `starts` of one of the trees in them. -/
def Spread (starts : Depth → Node → Nat → Prop) (ps : List Piece) (i : Nat) : Prop :=
  ∃ d n a b, Stands d n ps a ∧ starts d n b ∧ i = a + b

theorem not_spread_nil (i : Nat) : ¬ Spread starts [] i := by
  rintro ⟨_, _, _, _, h, -⟩
  cases h

theorem spread_cons (p : Piece) (ps : List Piece) (i : Nat) :
    Spread starts (p :: ps) i
      ↔ Spread starts [p] i ∨ ∃ j, Spread starts ps j ∧ i = breaks p.print + j := by
  constructor
  · rintro ⟨d, n, a, b, h, hn, rfl⟩
    cases h with
    | here => exact .inl ⟨d, n, 0, b, .here [], hn, rfl⟩
    | behind _ h => exact .inr ⟨_, ⟨d, n, _, b, h, hn, rfl⟩, Nat.add_assoc _ _ _⟩
  · rintro (⟨d, n, a, b, h, hn, rfl⟩ | ⟨_, ⟨d, n, a, b, h, hn, rfl⟩, rfl⟩)
    · cases h with
      | here => exact ⟨d, n, 0, b, .here ps, hn, rfl⟩
      | behind _ h => cases h
    · exact ⟨d, n, _, b, .behind p h, hn, (Nat.add_assoc _ _ _).symm⟩

theorem not_spread_of_ne {p : Piece} (hp : ∀ d n, p ≠ subtree d n) (i : Nat) :
    ¬ Spread starts [p] i := by
  rintro ⟨d, n, _, _, h, -⟩
  cases h with
  | here => exact hp d n rfl
  | behind _ h => cases h

theorem spread_subtree (d : Depth) (n : Node) (i : Nat) :
    Spread starts [subtree d n] i ↔ starts d n i := by
  constructor
  · rintro ⟨e, m, a, b, h, hm, rfl⟩
    cases h with
    | here => rwa [Nat.zero_add]
    | behind _ h => cases h
  · exact fun h => ⟨d, n, 0, i, .here [], h, (Nat.zero_add i).symm⟩

theorem spread_own_cons (t : List Char) (ps : List Piece) (i : Nat) :
    Spread starts (own t :: ps) i ↔ ∃ j, Spread starts ps j ∧ i = breaks t + j := by
  rw [spread_cons, or_iff_right (not_spread_of_ne (by simp) i), print_own]

theorem spread_subtree_cons (d : Depth) (n : Node) (ps : List Piece) (i : Nat) :
    Spread starts (subtree d n :: ps) i
      ↔ starts d n i ∨ ∃ j, Spread starts ps j ∧ i = breaks (n.print d) + j := by
  rw [spread_cons, spread_subtree, print_subtree]

theorem spread_append (ps qs : List Piece) (i : Nat) :
    Spread starts (ps ++ qs) i
      ↔ Spread starts ps i ∨ ∃ j, Spread starts qs j ∧ i = breaks (ps.flatMap print) + j := by
  induction ps generalizing i with
  | nil => simp [not_spread_nil]
  | cons p ps ih =>
      rw [List.cons_append, spread_cons, spread_cons p ps, List.flatMap_cons, breaks_append]
      simp only [ih]
      grind

/-- The texts of a family of pieces fit the rows `starts` of the trees in them. -/
def FitsPieces (limit : Nat) (P : Depth → Prop) (starts : Depth → Node → Nat → Prop)
    (ps : Nat → List Piece) : Prop :=
  Fits limit P (fun k => (ps k).flatMap print) fun k i => Spread starts (ps k) i

namespace FitsPieces

variable {ps qs : Nat → List Piece}

theorem append (h : FitsPieces limit P starts ps) (h' : FitsPieces limit P starts qs) :
    FitsPieces limit P starts fun k => ps k ++ qs k :=
  (Fits.append h h').congr (fun _ _ => List.flatMap_append) fun k _ i =>
    spread_append (ps k) (qs k) i

theorem own (t : List Char) : FitsPieces limit P starts fun _ => [own t] :=
  (Fits.const t).congr (fun _ _ => by simp) fun _ _ i =>
    iff_of_false (not_spread_of_ne (by simp) i) id

theorem given (t : String) : FitsPieces limit P starts fun _ => [given t] :=
  (Fits.const t.toList).congr (fun _ _ => by simp) fun _ _ i =>
    iff_of_false (not_spread_of_ne (by simp) i) id

theorem nil : FitsPieces limit P starts fun _ => [] :=
  (Fits.const []).congr (fun _ _ => rfl) fun _ _ i => iff_of_false (not_spread_nil i) id

theorem subtree {d : Depth} {n : Node}
    (h : Fits limit P (fun k => n.print (d.deeper k)) fun k i => starts (d.deeper k) n i) :
    FitsPieces limit P starts fun k => [subtree (d.deeper k) n] :=
  h.congr (fun _ _ => by simp) fun _ _ i => spread_subtree _ n i

/-- Pieces fit when the trees in them do. -/
theorem map_deeper {ps : List Piece}
    (h : ∀ d n, Piece.subtree d n ∈ ps →
      Fits limit P (fun k => n.print (d.deeper k)) fun k i => starts (d.deeper k) n i) :
    FitsPieces limit P starts fun k => ps.map (Piece.deeper k) := by
  induction ps with
  | nil => exact nil
  | cons p ps ih =>
      have hps := ih fun d n hmem => h d n (.tail p hmem)
      cases p with
      | own t => exact (own t).append hps
      | given t => exact (given t).append hps
      | subtree d n => exact (subtree (h d n (.head ps))).append hps

/-- Families fit one behind the other. -/
theorem flatMap {α : Type} {items : List α} {write : Nat → α → List Piece}
    (h : ∀ x ∈ items, FitsPieces limit P starts fun k => write k x) :
    FitsPieces limit P starts fun k => items.flatMap (write k) := by
  induction items with
  | nil => exact nil
  | cons x items ih =>
      rw [List.forall_mem_cons] at h
      exact h.1.append (ih h.2)

end FitsPieces

end Piece

open Piece (Spread FitsPieces)

/-! ## Every tree has a layout -/

/-- Row `i` begins the tree itself, which is a statement, or a statement inside it. -/
def Node.Opens (d : Depth) (n : Node) (i : Nat) : Prop := i = 0 ∨ n.Begins d i

/-- The pieces of a statement, with the line break in front of it. -/
def Piece.statement (d : Depth) (n : Node) : List Piece :=
  [own ['\n'], own d.indent, subtree d n, own [';']]

namespace Node

theorem begins_iff {n : Node} (hn : n.isStatements = false) (d : Depth) (i : Nat) :
    n.Begins d i ↔ Spread Begins (n.pieces d) i := by
  constructor
  · intro h
    cases h with
    | statement h => exact absurd hn (by simp [isStatements, kind])
    | inside h hm => exact ⟨_, _, _, _, h, hm, rfl⟩
  · rintro ⟨e, m, a, b, h, hm, rfl⟩
    exact .inside h hm

theorem begins_statements (d : Depth) (items : List Node) (i : Nat) :
    (list .statements items).Begins d i ↔ Spread Opens ((list .statements items).pieces d) i := by
  constructor
  · intro h
    cases h with
    | statement h => exact ⟨_, _, _, 0, h, .inl rfl, rfl⟩
    | inside h hm => exact ⟨_, _, _, _, h, .inr hm, rfl⟩
  · rintro ⟨e, m, a, b, h, rfl | hm, rfl⟩
    · exact .statement h
    · exact .inside h hm

end Node

/-- The line break in front of a statement is a marked one. -/
theorem Piece.FitsPieces.statement {limit : Nat} {P : Depth → Prop} {d : Depth} {n : Node}
    (hd : P d) (h : n.Laid limit P d) :
    FitsPieces limit P Node.Opens fun k => Piece.statement (d.deeper k) n := by
  refine ((Fits.lineBreak hd).append (h.append (.const [';']))).congr (fun k _ => ?_) fun k _ i => ?_
  · simp [Piece.statement]
  · simp [Piece.statement, Piece.spread_own_cons, Piece.spread_subtree_cons, Piece.not_spread_nil,
      Node.Opens]

/-- Statements with a line break in front of the first one: each has one in front of it. -/
theorem Piece.cons_lines (d : Depth) {items : List Node} (h : items ≠ []) :
    own ['\n'] :: Piece.lines d items = items.flatMap (Piece.statement d) := by
  induction items with
  | nil => exact absurd rfl h
  | cons n items ih =>
      cases items with
      | nil => rfl
      | cons m items =>
          rw [List.flatMap_cons, ← ih (List.cons_ne_nil m items)]
          simp only [Piece.lines, List.map_cons, List.intercalate_cons_cons]
          rfl

namespace Node

theorem laid_statements {limit : Nat} {P : Depth → Prop} {d : Depth} (hd : d.isTop = false)
    (hlevel : d.level.toNat + limit < UInt64.size) (hP : P d.nested) {items : List Node}
    (h : ∀ m ∈ items, m.Laid limit P d.nested) : (list .statements items).Laid limit P d := by
  have hpieces (k : Nat) (hk : k ≤ limit) : (list .statements items).pieces (d.deeper k)
      = own ['\x7b', '\n'] :: Piece.lines (d.nested.deeper k) items ++ [own ['\n', '\x7d']] := by
    have htop : (d.deeper k).isTop = false := Depth.isTop_deeper hd (by omega)
    simp [pieces, ListKind.pieces, htop, Depth.nested_deeper]
  suffices hfits : FitsPieces limit P Opens fun k =>
      own ['\x7b', '\n'] :: Piece.lines (d.nested.deeper k) items ++ [own ['\n', '\x7d']] from
    hfits.congr (fun k hk => by rw [print_eq_flatMap, hpieces k hk]) fun k hk i => by
      rw [begins_statements, hpieces k hk]
  cases items with
  | nil => exact (FitsPieces.own ['\x7b', '\n']).append (.own ['\n', '\x7d'])
  | cons m items =>
      have hlines (k : Nat) := Piece.cons_lines (d.nested.deeper k) (List.cons_ne_nil m items)
      have hmarked : FitsPieces limit P Opens fun k =>
          [own ['\x7b']] ++ (m :: items).flatMap (Piece.statement (d.nested.deeper k))
            ++ [own ['\n', '\x7d']] :=
        ((FitsPieces.own ['\x7b']).append (.flatMap fun n hn => .statement hP (h n hn))).append
          (.own ['\n', '\x7d'])
      simp only [← hlines] at hmarked
      -- The line break behind the brace is the one in front of the first statement.
      have hopen : breaks ['\x7b'] = 0 := rfl
      have hbreak : breaks ['\x7b', '\n'] = 1 := rfl
      exact hmarked.congr (fun k _ => by simp) fun k _ i => by
        simp [Piece.spread_own_cons, hopen, hbreak]

/-- Below the top level every tree has a layout, as far as the depths do not begin again. Its marks
are the depths of the statements inside. -/
theorem laid {limit : Nat} {P : Depth → Prop} (d : Depth) (n : Node) : d.isTop = false →
    d.level.toNat + limit + n.nesting < UInt64.size →
    (∀ e : Depth, d.level.toNat < e.level.toNat → e.level.toNat ≤ d.level.toNat + n.nesting → P e) →
    n.Laid limit P d := by
  -- The trees inside have layouts, so what their texts begin and end with is known at every depth
  -- (`pieces_deeper`), and the layouts of the pieces are put one behind the other.
  induction d, n using pieces_induction with
  | step d n ih =>
      intro hd hlevel hP
      have hsub : ∀ e m, subtree e m ∈ n.pieces d → m.Laid limit P e := by
        intro e m hmem
        have hinside := inside_of_subtree_mem_pieces hmem
        rcases hinside.levels with ⟨rfl, hle⟩ | ⟨he, hle⟩
        · -- one level further in, and one list less to come: the sum of both stays below the bound
          have hnext : d.level.toNat + 1 < UInt64.size := by omega
          have hnested := Depth.toNat_level_nested hnext
          refine ih _ m hmem (Depth.isTop_nested hnext) (by omega) fun e hlt hle' => ?_
          exact hP e (by omega) (by omega)
        · obtain rfl : e = d := by rwa [Depth.atLeastBlock_of_isTop hd, or_self] at he
          exact ih e m hmem hd (by omega) fun e' hlt hle' => hP e' hlt (by omega)
      -- Statement lists are the only nodes with indentation among their own pieces.
      cases hn : n.isStatements with
      | true =>
          obtain ⟨items, rfl⟩ := isStatements_iff.mp hn
          rw [nesting_statements] at hlevel hP
          have hnested := Depth.toNat_level_nested (d := d) (by omega)
          refine laid_statements hd (by omega) (hP _ (by omega) (by omega)) fun m hm => hsub _ m ?_
          simpa [pieces, ListKind.pieces, hd] using hm
      | false =>
          have hpieces (k : Nat) (hk : k ≤ limit) :=
            pieces_deeper hk hd (Depth.isTop_deeper hd (by omega)) hn hsub
          refine (FitsPieces.map_deeper hsub).congr (fun k hk => ?_) fun k hk i => ?_
          · rw [print_eq_flatMap, hpieces k hk]
          · rw [begins_iff hn, hpieces k hk]

end Node

/-! ## The rows at two depths -/

namespace Depth

variable {d : Depth} {n : Nat}

/-- When the numbers of blanks do not begin again within `n + 1` levels, the depths do not. -/
theorem level_lt_of_blanks (h : 2 * d.level.toNat % UInt64.size + 2 * (n + 1) < UInt64.size) :
    d.level.toNat + 1 + n < UInt64.size := by
  have hd := d.level.toNat_lt_size
  rw [show UInt64.size = 18446744073709551616 from rfl] at h hd ⊢
  omega

/-- When the numbers of blanks do not begin again, a statement has two more of them one level
further in. -/
theorem indent_nested_of_blanks
    (h : 2 * d.level.toNat % UInt64.size + 2 * (n + 1) < UInt64.size) {e : Depth}
    (hlt : d.level.toNat < e.level.toNat) (hle : e.level.toNat ≤ d.level.toNat + n) :
    e.nested.indent = ' ' :: ' ' :: e.indent := by
  have hlevel := level_lt_of_blanks h
  have hnext : e.level.toNat + 1 < UInt64.size := by omega
  have htop : e.isTop = false := isTop_eq_false_iff.mpr (by omega)
  have hcount : (e.level.toNat + 1 - 1) * 2 % UInt64.size
      = (e.level.toNat - 1) * 2 % UInt64.size + 2 := by
    rw [show UInt64.size = 18446744073709551616 from rfl] at h ⊢
    omega
  rw [indent_eq_replicate (isTop_nested hnext), toNat_level_nested hnext, hcount,
    indent_eq_replicate htop]
  rfl

end Depth

namespace Node

/-- The rows of a tree at the depths from `d` up to `limit` levels further in. -/
theorem exists_rows_renderAt (n : Node) (limit : Nat) {P : Depth → Prop} {d : Depth}
    (hd : d.isTop = false) (hlevel : d.level.toNat + limit + n.nesting < UInt64.size)
    (hP : ∀ e : Depth, d.level.toNat < e.level.toNat →
      e.level.toNat ≤ d.level.toNat + n.nesting → P e) :
    ∃ (first : List Char) (rest : List (Option Depth × List Char)),
      (∀ e row, (some e, row) ∈ rest → P e) ∧ ∀ k ≤ limit,
        rows (n.renderAt (d.deeper k)) = first :: rest.map (Layout.indentRow k) ∧
        ∀ i, n.Begins (d.deeper k) i ↔ Layout.MarkedRow rest i := by
  obtain ⟨L, hdepths, hL⟩ := laid d n hd hlevel hP
  obtain ⟨first, rest, hrows, hmarked, hmarks⟩ := L.exists_rows
  refine ⟨first, rest, fun e row hrow => hdepths e (hmarks e row hrow), fun k hk => ⟨?_, fun i => ?_⟩⟩
  · rw [rows, renderAt, String.toList_ofList, ← hrows, ← (hL k hk).1]
  · exact ((hL k hk).2 i).trans (hmarked i)

/-- Without the blanks in front of its rows, a text is the same at every depth below the top level
from which the depths do not begin again. -/
theorem map_dropWhile_rows (n : Node) {d : Depth} (hd : 1 ≤ d.level.toNat)
    (hlevel : d.level.toNat + n.nesting < UInt64.size) :
    (rows (n.renderAt d)).map (List.dropWhile (· == ' '))
      = (rows (n.renderAt ⟨1⟩)).map (List.dropWhile (· == ' ')) := by
  have hone : (⟨1⟩ : Depth).level.toNat = 1 := rfl
  obtain ⟨first, rest, -, hrows⟩ := n.exists_rows_renderAt (d.level.toNat - 1)
    (P := fun _ => True) (d := ⟨1⟩) rfl (by omega) (fun _ _ _ => trivial)
  have hdepth : Depth.deeper ⟨1⟩ (d.level.toNat - 1) = d := by
    apply Depth.eq_of_toNat_level_eq
    rw [Depth.toNat_level_deeper (by omega), hone]
    omega
  have hhere := (hrows _ (Nat.le_refl _)).1
  have hfirst := (hrows 0 (Nat.zero_le _)).1
  rw [hdepth] at hhere
  rw [Depth.deeper_zero] at hfirst
  rw [hhere, hfirst]
  simp [Function.comp_def, Layout.dropWhile_indentRow]

/-- One level further in, a text below the top level has the same rows, but for two more blanks in
front of each row that begins a statement of a statement list, when the numbers of blanks do not
begin again on the way in. The texts at all depths below the top level are the same up to the blanks
in front of their rows, when the depths do not begin again on the way in. -/
theorem rows_renderAt_nested (n : Node) {d : Depth} (hd : 1 ≤ d.level.toNat)
    (hblanks : 2 * d.level.toNat % UInt64.size + 2 * (n.nesting + 1) < UInt64.size) :
    (rows (n.renderAt d.nested)).length = (rows (n.renderAt d)).length ∧
    (∀ i, n.Begins d i ↔ ∃ row, (rows (n.renderAt d))[i]? = some row ∧
      (rows (n.renderAt d.nested))[i]? = some (' ' :: ' ' :: row)) ∧
    (∀ i, ¬ n.Begins d i → (rows (n.renderAt d.nested))[i]? = (rows (n.renderAt d))[i]?) ∧
    (∀ i, n.Begins d.nested i ↔ n.Begins d i) ∧
    ∀ e : Depth, 1 ≤ e.level.toNat → e.level.toNat + n.nesting < UInt64.size →
      (rows (n.renderAt e)).map (List.dropWhile (· == ' '))
        = (rows (n.renderAt d)).map (List.dropWhile (· == ' ')) := by
  have hlevel : d.level.toNat + 1 + n.nesting < UInt64.size := Depth.level_lt_of_blanks hblanks
  have hindent : ∀ e : Depth, d.level.toNat < e.level.toNat →
      e.level.toNat ≤ d.level.toNat + n.nesting → e.nested.indent = ' ' :: ' ' :: e.indent :=
    fun e hlt hle => Depth.indent_nested_of_blanks hblanks hlt hle
  obtain ⟨first, rest, hdepths, hrows⟩ :=
    n.exists_rows_renderAt 1 (Depth.isTop_eq_false_iff.mpr hd) hlevel hindent
  obtain ⟨hhere, hmarked⟩ := hrows 0 (Nat.zero_le 1)
  obtain ⟨hnested, hmarked'⟩ := hrows 1 (Nat.le_refl 1)
  rw [Depth.deeper_zero] at hhere hmarked
  rw [Depth.deeper_one] at hnested hmarked'
  refine ⟨?_, fun i => ?_, fun i hi => ?_, fun i => ?_, fun e he helevel => ?_⟩
  · simp [hhere, hnested]
  · rw [hhere, hnested, hmarked, Layout.markedRow_iff hdepths]
  · rw [hhere, hnested]
    exact Layout.getElem?_of_not_markedRow fun h => hi ((hmarked i).mpr h)
  · exact (hmarked' i).trans (hmarked i).symm
  · rw [map_dropWhile_rows n he helevel, map_dropWhile_rows n hd (by omega)]

/-- A name over two rows, a conditional around a block, and a block without statements. -/
def layered : Node :=
  program
    [ident "a\n  b", ifElse (ident "c") (program [ident "d"]) (some (word .breakOut)), program []]

/-- The rows that begin the statements move, in the inner block too, and the second row of the name
stays. -/
theorem rows_renderAt_layered :
    1 ≤ (⟨1⟩ : Depth).level.toNat ∧
    2 * (⟨1⟩ : Depth).level.toNat % UInt64.size + 2 * (layered.nesting + 1) < UInt64.size ∧
    rows (layered.renderAt ⟨1⟩)
      = ["\x7b", "  a", "  b;", "  if(c) \x7b", "    d;", "\x7d else break;;", "  \x7b",
          "", "\x7d;", "\x7d"].map String.toList ∧
    rows (layered.renderAt ⟨2⟩)
      = ["\x7b", "    a", "  b;", "    if(c) \x7b", "      d;", "\x7d else break;;", "    \x7b",
          "", "\x7d;", "\x7d"].map String.toList ∧
    layered.Begins ⟨1⟩ 4 ∧ ¬ layered.Begins ⟨1⟩ 2 ∧
    (rows (layered.renderAt ⟨7⟩)).map (List.dropWhile (· == ' '))
      = (rows (layered.renderAt ⟨1⟩)).map (List.dropWhile (· == ' ')) := by
  have hd : 1 ≤ (⟨1⟩ : Depth).level.toNat := by decide
  have hblanks : 2 * (⟨1⟩ : Depth).level.toNat % UInt64.size + 2 * (layered.nesting + 1)
      < UInt64.size := by
    decide
  obtain ⟨-, hbegins, -, -, hsame⟩ := rows_renderAt_nested layered hd hblanks
  refine ⟨hd, hblanks, by decide, by decide,
    (hbegins 4).mpr ⟨"    d;".toList, by decide, by decide⟩, ?_, hsame ⟨7⟩ (by decide) (by decide)⟩
  intro h
  obtain ⟨row, hhere, hnested⟩ := (hbegins 2).mp h
  have hsame : (rows (layered.renderAt (Depth.nested ⟨1⟩)))[2]?
      = (rows (layered.renderAt ⟨1⟩))[2]? := by
    decide
  exact Layout.ne_indented row (Option.some.inj (hhere.symm.trans (hsame.symm.trans hnested)))

/-- At the last depth the depths begin again: a list inside a list has no braces there, and fewer
rows than at the first depth of a block. -/
theorem rows_renderAt_last :
    1 ≤ Depth.last.level.toNat ∧ 1 ≤ (⟨1⟩ : Depth).level.toNat ∧
    (rows ((program [program [ident "a"]]).renderAt .last)).map (List.dropWhile (· == ' '))
      ≠ (rows ((program [program [ident "a"]]).renderAt ⟨1⟩)).map
          (List.dropWhile (· == ' ')) := by
  decide

end Node

end ScriptHost.Tree
