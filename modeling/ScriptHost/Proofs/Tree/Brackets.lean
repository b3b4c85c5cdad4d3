import ScriptHost.Proofs.Tree.Leaves

/-!
# Brackets

Words that are balanced over the three pairs of brackets (`Balanced`), and a reader that keeps the
brackets still to be closed on a stack (`scan`); a word is balanced exactly when the reader comes
to its end with the stack it began with (`balanced_iff_scan`). The characters that the printer
writes of its own are balanced node by node (`Node.balanced_pieces`), so a text is balanced when the
texts of its leaves and its function names have no brackets. Main statement: that, and how many
braces are opened (`Node.balanced_renderAt`). The braces of the lists are counted for the depths
from which no list comes to sit at the top again; at the last depth one does
(`Node.count_braces_last`).
-/

set_option autoImplicit false

namespace ScriptHost.Tree

/-! ## Balanced words -/

/-- The pairs of brackets. -/
def brackets : List (Char × Char) := [('(', ')'), ('[', ']'), ('\x7b', '\x7d')]

/-- Whether a character is one of a pair of brackets. -/
def isBracket (c : Char) : Bool := brackets.any fun pair => c == pair.1 || c == pair.2

/-- The words in which every bracket has its partner. -/
inductive Balanced : List Char → Prop
  | plain {text : List Char} (h : text.any isBracket = false) : Balanced text
  | append {a b : List Char} (ha : Balanced a) (hb : Balanced b) : Balanced (a ++ b)
  | enclosed {l r : Char} {text : List Char} (hpair : (l, r) ∈ brackets) (h : Balanced text) :
      Balanced (l :: text ++ [r])

namespace Balanced

theorem nil : Balanced [] := .plain rfl

theorem parens {text : List Char} (h : Balanced text) : Balanced ('(' :: text ++ [')']) :=
  .enclosed (by decide) h

theorem square {text : List Char} (h : Balanced text) : Balanced ('[' :: text ++ [']']) :=
  .enclosed (by decide) h

theorem braces {text : List Char} (h : Balanced text) : Balanced ('\x7b' :: text ++ ['\x7d']) :=
  .enclosed (by decide) h

theorem intercalate {sep : List Char} {parts : List (List Char)} (hsep : Balanced sep)
    (h : ∀ part ∈ parts, Balanced part) : Balanced (List.intercalate sep parts) := by
  induction parts with
  | nil => exact .nil
  | cons part parts ih =>
      rw [List.forall_mem_cons] at h
      cases parts with
      | nil => simpa using h.1
      | cons next parts =>
          rw [List.intercalate_cons_cons]
          exact (h.1.append hsep).append (ih h.2)

end Balanced

/-! ## Reading brackets -/

/-- Reads one character; `expected` are the closing brackets that are still to come. -/
def readBracket (expected : List Char) (c : Char) : Option (List Char) :=
  match brackets.lookup c with
  | some partner => some (partner :: expected)
  | none =>
    if isBracket c then if expected.head? = some c then some expected.tail else none
    else some expected

/-- Reads a word. -/
def scan (expected text : List Char) : Option (List Char) := text.foldlM readBracket expected

theorem scan_cons (expected : List Char) (c : Char) (text : List Char) :
    scan expected (c :: text) = (readBracket expected c).bind fun next => scan next text := rfl

theorem scan_append (expected a b : List Char) :
    scan expected (a ++ b) = (scan expected a).bind fun next => scan next b :=
  List.foldlM_append ..

theorem readBracket_plain {c : Char} (h : isBracket c = false) (expected : List Char) :
    readBracket expected c = some expected := by
  have hlookup : brackets.lookup c = none := by
    rw [List.lookup_eq_none_iff]
    intro pair hpair
    have hne := List.any_eq_false.mp h pair hpair
    simp only [Bool.or_eq_true, not_or] at hne
    exact bne_iff_ne.mpr (by simpa using hne.1)
  rw [readBracket, hlookup, h]
  rfl

theorem scan_plain {text : List Char} (h : text.any isBracket = false) (expected : List Char) :
    scan expected text = some expected := by
  induction text with
  | nil => rfl
  | cons c text ih =>
      rw [List.any_cons, Bool.or_eq_false_iff] at h
      rw [scan_cons, readBracket_plain h.1, Option.bind_some, ih h.2]

theorem readBracket_open {l r : Char} (h : (l, r) ∈ brackets) (expected : List Char) :
    readBracket expected l = some (r :: expected) := by
  simp only [brackets, List.mem_cons, Prod.mk.injEq, List.not_mem_nil, or_false] at h
  rcases h with ⟨rfl, rfl⟩ | ⟨rfl, rfl⟩ | ⟨rfl, rfl⟩ <;> rfl

theorem readBracket_close {l r : Char} (h : (l, r) ∈ brackets) (expected : List Char) :
    readBracket (r :: expected) r = some expected := by
  simp only [brackets, List.mem_cons, Prod.mk.injEq, List.not_mem_nil, or_false] at h
  rcases h with ⟨rfl, rfl⟩ | ⟨rfl, rfl⟩ | ⟨rfl, rfl⟩ <;> rfl

/-- Reading a balanced word closes what it opens, and nothing else. -/
theorem Balanced.scan_eq {text : List Char} (h : Balanced text) (expected : List Char) :
    scan expected text = some expected := by
  induction h generalizing expected with
  | plain h => exact scan_plain h expected
  | append ha hb iha ihb => rw [scan_append, iha, Option.bind_some, ihb]
  | enclosed hpair h ih =>
      rw [List.cons_append, scan_cons, readBracket_open hpair, Option.bind_some, scan_append, ih,
        Option.bind_some, scan_cons, readBracket_close hpair]
      rfl

/-- A word that closes the brackets of a stack, one behind the other, with balanced words
between them. -/
def Closes : List Char → List Char → Prop
  | [], text => Balanced text
  | next :: rest, text => ∃ a b, text = a ++ next :: b ∧ Balanced a ∧ Closes rest b

theorem Closes.prepend {expected a b : List Char} (ha : Balanced a) (hb : Closes expected b) :
    Closes expected (a ++ b) := by
  cases expected with
  | nil => exact ha.append hb
  | cons next rest =>
      obtain ⟨c, e, rfl, hc, he⟩ := hb
      exact ⟨a ++ c, e, (List.append_assoc ..).symm, ha.append hc, he⟩

/-- A character that is read is plain, opens a pair, or closes the innermost one. -/
theorem readBracket_cases {expected after : List Char} {c : Char}
    (h : readBracket expected c = some after) :
    (isBracket c = false ∧ after = expected) ∨
      (∃ r, (c, r) ∈ brackets ∧ after = r :: expected) ∨ expected = c :: after := by
  rw [readBracket] at h
  cases hlookup : brackets.lookup c with
  | some partner =>
      rw [hlookup] at h
      obtain ⟨before, behind, hsplit, _⟩ := List.lookup_eq_some_iff.mp hlookup
      have hmem : (c, partner) ∈ brackets := by
        rw [hsplit]
        exact List.mem_append_right before List.mem_cons_self
      exact .inr (.inl ⟨partner, hmem, (Option.some.inj h).symm⟩)
  | none =>
      simp only [hlookup] at h
      split at h
      · rename_i hbracket
        split at h
        · rename_i hhead
          obtain ⟨rest, rfl⟩ := List.head?_eq_some_iff.mp hhead
          exact .inr (.inr (congrArg _ (Option.some.inj h)))
        · exact absurd h (by simp)
      · rename_i hplain
        exact .inl ⟨Bool.eq_false_iff.mpr hplain, (Option.some.inj h).symm⟩

theorem closes_of_scan {expected text : List Char} (h : scan expected text = some []) :
    Closes expected text := by
  -- what follows a character closes the stack that the character leaves
  induction text generalizing expected with
  | nil =>
      obtain rfl : expected = [] := Option.some.inj h
      exact .nil
  | cons c text ih =>
      rw [scan_cons, Option.bind_eq_some_iff] at h
      obtain ⟨after, hread, hrest⟩ := h
      have hclosed := ih hrest
      rcases readBracket_cases hread with ⟨hplain, rfl⟩ | ⟨r, hpair, rfl⟩ | rfl
      · have hc : Balanced [c] := .plain (by simpa using hplain)
        exact hclosed.prepend hc
      · -- the bracket is closed further on, and what follows closes the rest
        obtain ⟨a, b, rfl, ha, hb⟩ := hclosed
        rw [List.append_cons, ← List.cons_append, ← List.cons_append]
        exact hb.prepend (.enclosed hpair ha)
      · exact ⟨[], text, rfl, .nil, hclosed⟩

theorem balanced_iff_scan {text : List Char} : Balanced text ↔ scan [] text = some [] :=
  ⟨fun h => h.scan_eq [], closes_of_scan⟩

instance (text : List Char) : Decidable (Balanced text) :=
  decidable_of_iff (scan [] text = some []) balanced_iff_scan.symm

example : Balanced "f(a[0]) ".toList ∧ ¬ Balanced "(]".toList ∧ ¬ Balanced "([)]".toList := by
  decide

theorem balanced_indent (d : Depth) : Balanced d.indent := by
  apply Balanced.plain
  rw [Depth.indent, List.any_replicate]
  split <;> decide

theorem balanced_closing (body : Node) (text : List Char) : Balanced (closing body text) := by
  rw [closing]
  split <;> decide

theorem balanced_spacing (operator operand : List Char) : Balanced (spacing operator operand) := by
  rw [spacing]
  split <;> decide

/-! ## The brackets of the printer -/

namespace Piece

/-- The characters of a piece that are not those of a tree. -/
def ownText : Piece → List Char
  | own text => text
  | given text => text.toList
  | subtree _ _ => []

@[simp] theorem ownText_clause (d : Depth) (o : Option Node) :
    (clause d [] o).flatMap ownText = [] := by
  cases o <;> rfl

theorem balanced_commas (d : Depth) (items : List Node) :
    Balanced ((commas d items).flatMap ownText) := by
  rw [flatMap_commas]
  apply Balanced.intercalate (show Balanced [',', ' '] by decide)
  intro part hpart
  obtain ⟨n, _, rfl⟩ := List.mem_map.mp hpart
  exact .nil

theorem balanced_lines (d : Depth) (items : List Node) :
    Balanced ((lines d items).flatMap ownText) := by
  rw [flatMap_lines]
  apply Balanced.intercalate (show Balanced ['\n'] by decide)
  intro part hpart
  obtain ⟨n, _, rfl⟩ := List.mem_map.mp hpart
  exact ((balanced_indent d).append .nil).append (show Balanced [';'] by decide)

theorem balanced_clause (d : Depth) {before : List Char} (h : Balanced before) (o : Option Node) :
    Balanced ((clause d before o).flatMap ownText) := by
  cases o with
  | none => exact .nil
  | some n => simpa [clause, ownText] using h

/-- To the reader of brackets, trees with balanced texts are as good as absent. -/
theorem scan_flatMap {pieces : List Piece}
    (hsubtree : ∀ d n, subtree d n ∈ pieces → Balanced (n.print d)) (expected : List Char) :
    scan expected (pieces.flatMap print) = scan expected (pieces.flatMap ownText) := by
  induction pieces generalizing expected with
  | nil => rfl
  | cons p pieces ih =>
      have hrest : ∀ d n, subtree d n ∈ pieces → Balanced (n.print d) :=
        fun d n hn => hsubtree d n (List.mem_cons_of_mem p hn)
      have hfirst : scan expected p.print = scan expected p.ownText := by
        cases p with
        | own text => rfl
        | given text => rfl
        | subtree d n => exact (hsubtree d n List.mem_cons_self).scan_eq expected
      rw [List.flatMap_cons, List.flatMap_cons, scan_append, scan_append, hfirst]
      exact congrArg _ (funext (ih hrest))

/-- Pieces whose trees have balanced texts are balanced when their other characters are. -/
theorem balanced_flatMap {pieces : List Piece} (h : Balanced (pieces.flatMap ownText))
    (hsubtree : ∀ d n, subtree d n ∈ pieces → Balanced (n.print d)) :
    Balanced (pieces.flatMap print) := by
  rw [balanced_iff_scan, scan_flatMap hsubtree, ← balanced_iff_scan]
  exact h

end Piece

theorem ListKind.balanced_pieces (d : Depth) (items : List Node) (k : ListKind) :
    Balanced ((k.pieces d items).flatMap Piece.ownText) := by
  have hcommas := Piece.balanced_commas d items
  cases k with
  | statements =>
      have hlines := Piece.balanced_lines d.nested items
      have hline : Balanced ['\n'] := by decide
      rw [ListKind.pieces]
      cases d.isTop with
      | true => exact hlines
      | false => simpa [Piece.ownText] using ((hline.append hlines).append hline).braces
  | declaration =>
      have hword : Balanced "var ".toList := by decide
      exact hword.append hcommas
  | arrayLiteral => simpa [ListKind.pieces, Piece.ownText] using hcommas.square
  | objectLiteral =>
      have hblank : Balanced [' '] := by decide
      cases items with
      | nil => exact show Balanced ['\x7b', '\x7d'] by decide
      | cons n items =>
          simpa [ListKind.pieces, Piece.ownText]
            using ((hblank.append hcommas).append hblank).braces
  | commaList => exact hcommas

namespace Node

/-- The characters that the printer writes of its own for a node are balanced around the text that
the node holds. -/
theorem balanced_pieces (d : Depth) (n : Node) (h : n.heldText.any isBracket = false) :
    Balanced ((n.pieces d).flatMap Piece.ownText) := by
  cases n with
  | leaf k text =>
      have htext : Balanced text.toList := .plain h
      have hquote : Balanced ['"'] := by decide
      cases k with
      | string => simpa [pieces, LeafKind.pieces, Piece.ownText]
          using (hquote.append htext).append hquote
      | _ => simpa [pieces, LeafKind.pieces, Piece.ownText] using htext
  | word w =>
      have hword : Balanced w.text.toList := by cases w <;> decide
      simpa [pieces, Piece.ownText] using hword
  | list k items => exact k.balanced_pieces d items
  | apply k callee arguments =>
      have hlist := (Piece.balanced_commas d arguments).parens
      have hword : Balanced "new ".toList := by decide
      cases k with
      | call => simpa [pieces, ApplyKind.pieces, Piece.ownText] using hlist
      | construct => simpa [pieces, ApplyKind.pieces, Piece.ownText] using hword.append hlist
  | function name parameters body =>
      have hlist := (Piece.balanced_commas d parameters).parens
      have hblank : Balanced [' '] := by decide
      cases name with
      | none =>
          have hword : Balanced "function".toList := by decide
          simpa [pieces, Piece.ownText] using (hword.append hlist).append hblank
      | some name =>
          have hword : Balanced "function ".toList := by decide
          have hname : Balanced name.toList := .plain h
          simpa [pieces, Piece.ownText] using ((hword.append hname).append hlist).append hblank
  | pair k left right =>
      cases k with
      | doWhile =>
          have hword : Balanced "do ".toList := by decide
          have hcondition : Balanced " while()".toList := by decide
          have hclosing := balanced_closing left (print d.atLeastBlock left)
          simpa [pieces, Piece.ownText] using (hword.append hclosing).append hcondition
      | _ => exact balanced_iff_scan.mpr rfl
  | single k value => cases k <;> exact balanced_iff_scan.mpr rfl
  | unary o value =>
      have hword : Balanced o.text.toList := by cases o <;> decide
      simpa [pieces, Piece.ownText]
        using hword.append (balanced_spacing o.text.toList (print d value))
  | update o value =>
      have hword : Balanced o.text.toList := by cases o <;> decide
      simpa [pieces, Piece.ownText] using hword
  | binary o left right =>
      have hblank : Balanced [' '] := by decide
      have hword : Balanced o.text.toList := by cases o <;> decide
      simpa [pieces, Piece.ownText] using (hblank.append hword).append hblank
  | ternary condition left right => exact balanced_iff_scan.mpr rfl
  | returns value =>
      have hword : Balanced "return".toList := by decide
      have hblank : Balanced [' '] := by decide
      exact hword.append (Piece.balanced_clause d hblank value)
  | ifElse condition body otherwise =>
      have hcondition : Balanced "if() ".toList := by decide
      have hword : Balanced " else ".toList := by decide
      have hclosing := balanced_closing body (print d.atLeastBlock body)
      have hotherwise := Piece.balanced_clause d.atLeastBlock (hclosing.append hword) otherwise
      rw [pieces, List.flatMap_append]
      exact hcondition.append hotherwise
  | forLoop init test step body =>
      have hheader : Balanced "for(; ; ) ".toList := by decide
      simpa [pieces, Piece.ownText] using hheader
  | forIn left right body => exact balanced_iff_scan.mpr rfl
  | tryCatch body parameter handler finalizer =>
      have hword : Balanced " finally ".toList := by decide
      have hfinalizer := Piece.balanced_clause d.atLeastBlock hword finalizer
      cases handler with
      | none =>
          have hbody : Balanced "try ".toList := by decide
          simpa [pieces, Piece.ownText] using hbody.append hfinalizer
      | some handler =>
          have hbodies : Balanced "try  catch() ".toList := by decide
          simpa [pieces, Piece.ownText] using hbodies.append hfinalizer

/-- A tree whose leaves and function names have no brackets has a balanced text. -/
theorem balanced_print (d : Depth) (n : Node) :
    (∀ p ∈ n.printed d, p.2.heldText.any isBracket = false) → Balanced (n.print d) := by
  induction d, n using pieces_induction with
  | step d n ih =>
      intro h
      rw [printed_eq_cons, List.forall_mem_cons] at h
      rw [print_eq_flatMap]
      refine Piece.balanced_flatMap (balanced_pieces d n h.1) fun e m hm => ih e m hm fun p hp => ?_
      exact h.2 p (List.mem_flatMap.mpr ⟨_, hm, hp⟩)

/-! ## Opening braces -/

/-- No statement list in a text is at the top when they all have braces. -/
theorem isTop_of_mem_printed (d : Depth) (n : Node) :
    d.Braces n.nesting → ∀ p ∈ n.printed d, p.2.isStatements = true → p.1.isTop = false := by
  induction d, n using pieces_induction with
  | step d n ih =>
      intro hd p hp hlist
      rw [printed_eq_cons, List.mem_cons] at hp
      rcases hp with rfl | hp
      · obtain ⟨items, rfl⟩ := isStatements_iff.mp hlist
        exact hd.1
      · obtain ⟨piece, hpiece, hp⟩ := List.mem_flatMap.mp hp
        cases piece with
        | own text => exact absurd hp List.not_mem_nil
        | given text => exact absurd hp List.not_mem_nil
        | subtree e m =>
            have hinside := inside_of_subtree_mem_pieces hpiece
            exact ih e m hpiece (hinside.braces hd) p hp hlist

/-- Whether a node is an object literal. -/
def isObjectLiteral (n : Node) : Bool := n.kind == .list .objectLiteral

theorem opensBrace_of_isTop_eq_false {d : Depth} {n : Node}
    (h : n.isStatements = true → d.isTop = false) :
    n.opensBrace d = (n.isStatements || n.isObjectLiteral) := by
  cases n with
  | list k items =>
      cases k with
      | statements => exact congrArg Bool.not (h rfl)
      | _ => rfl
  | _ => rfl

theorem isObjectLiteral_of_isStatements {n : Node} (h : n.isStatements = true) :
    n.isObjectLiteral = false := by
  obtain ⟨items, rfl⟩ := isStatements_iff.mp h
  rfl

theorem countP_opensBrace {l : List (Depth × Node)}
    (h : ∀ p ∈ l, p.2.isStatements = true → p.1.isTop = false) :
    l.countP (fun p => p.2.opensBrace p.1)
      = l.countP (fun p => p.2.isStatements) + l.countP fun p => p.2.isObjectLiteral := by
  induction l with
  | nil => rfl
  | cons p l ih =>
      rw [List.forall_mem_cons] at h
      rw [List.countP_cons, List.countP_cons, List.countP_cons, ih h.2,
        opensBrace_of_isTop_eq_false h.1]
      cases hs : p.2.isStatements with
      | true =>
          rw [isObjectLiteral_of_isStatements hs]
          simp
          omega
      | false =>
          simp only [Bool.false_or, Bool.false_eq_true, if_false]
          omega

theorem count_mark {d : Depth} {n : Node} (h : n.heldText.any isBracket = false) :
    (kept (n.mark d)).count '\x7b' = if n.opensBrace d then 1 else 0 := by
  have hheld : n.heldText.count '\x7b' = 0 :=
    List.count_eq_zero.mpr fun hc => List.any_eq_false.mp h _ hc (by decide)
  rw [kept, List.count_filter (by decide), mark, List.count_append, hheld]
  split <;> rfl

/-- A text has one opening brace for each node that opens one. -/
theorem count_print {d : Depth} {n : Node}
    (h : ∀ p ∈ n.printed d, p.2.heldText.any isBracket = false) :
    (n.print d).count '\x7b' = (n.printed d).countP fun p => p.2.opensBrace p.1 := by
  have hkept : (n.print d).count '\x7b' = (kept (n.print d)).count '\x7b' := by
    rw [kept, List.count_filter (by decide)]
  rw [hkept, kept_print]
  generalize n.printed d = l at h
  induction l with
  | nil => rfl
  | cons p l ih =>
      rw [List.forall_mem_cons] at h
      rw [List.flatMap_cons, List.count_append, ih h.2, count_mark h.1, List.countP_cons,
        Nat.add_comm]

/-- The text of a tree whose leaves and function names have no brackets is balanced. Below the top
it opens a brace for each statement list and each object literal that it shows; at the top a
program has no braces of its own. The braces are counted as long as the depths do not begin again
on the way in. -/
theorem balanced_renderAt (n : Node) (d : Depth)
    (h : ∀ p ∈ n.printed d, p.2.heldText.any isBracket = false) :
    Balanced (n.renderAt d).toList ∧
    (d.level.toNat + n.nesting ≤ UInt64.size →
      (d.isTop = false →
        (n.renderAt d).toList.count '\x7b'
          = (n.printed d).countP (fun p => p.2.isStatements)
            + (n.printed d).countP fun p => p.2.isObjectLiteral) ∧
      (d.isTop = true → n.isStatements = true →
        (n.renderAt d).toList.count '\x7b' + 1
          = (n.printed d).countP (fun p => p.2.isStatements)
            + (n.printed d).countP fun p => p.2.isObjectLiteral)) := by
  rw [renderAt, String.toList_ofList]
  refine ⟨balanced_print d n h, fun hlevel => ⟨fun hd => ?_, fun hd hn => ?_⟩⟩
  · have hbraces := Depth.braces_of_le hd hlevel
    rw [count_print h, countP_opensBrace (isTop_of_mem_printed d n hbraces)]
  · obtain ⟨items, rfl⟩ := isStatements_iff.mp hn
    have hbraces : d.nested.Braces (nestingEach items) := Depth.braces_nested hlevel
    have hitems : ∀ p ∈ items.flatMap (printed d.nested),
        p.2.isStatements = true → p.1.isTop = false := by
      intro p hp
      obtain ⟨item, hitem, hp⟩ := List.mem_flatMap.mp hp
      exact isTop_of_mem_printed d.nested item (hbraces.mono (nesting_le_nestingEach hitem)) p hp
    -- the program itself counts as a statement list and has no brace
    have hroot : (list .statements items).opensBrace d = false := congrArg Bool.not hd
    have hliteral : (list .statements items).isObjectLiteral = false := rfl
    have hprinted : (list .statements items).printed d
        = (d, list .statements items) :: items.flatMap (printed d.nested) := by
      rw [printed, printedEach_eq_flatMap]
      rfl
    rw [count_print h, hprinted, List.countP_cons, List.countP_cons, List.countP_cons,
      countP_opensBrace hitems, hroot, hn, hliteral]
    simp
    omega

/-- Blocks within blocks, a function, an index, and an object literal in a handler. -/
def nestedBlocks : Node :=
  program
    [ifElse (ident "a")
      (program [tryCatch (program []) (some (ident "e"))
        (some (program [list .objectLiteral [pair .property (ident "k") (number "1")]])) none])
      (some (word .breakOut)),
      function none [ident "x"] (program [pair .subscript (ident "x") (list .objectLiteral [])])]

theorem balanced_nestedBlocks :
    (∀ p ∈ nestedBlocks.printed .top, p.2.heldText.any isBracket = false) ∧
    (∀ p ∈ nestedBlocks.printed Depth.top.nested, p.2.heldText.any isBracket = false) ∧
    Depth.top.level.toNat + nestedBlocks.nesting ≤ UInt64.size ∧
    Depth.top.nested.level.toNat + nestedBlocks.nesting ≤ UInt64.size ∧
    Balanced (nestedBlocks.renderAt .top).toList ∧
    (nestedBlocks.renderAt .top).toList.count '\x7b' + 1 = 7 ∧
    (nestedBlocks.renderAt Depth.top.nested).toList.count '\x7b' = 7 := by
  have htop : ∀ p ∈ nestedBlocks.printed .top, p.2.heldText.any isBracket = false := by
    decide
  have hblock : ∀ p ∈ nestedBlocks.printed Depth.top.nested,
      p.2.heldText.any isBracket = false := by
    decide
  have hlevel : Depth.top.level.toNat + nestedBlocks.nesting ≤ UInt64.size := by decide
  have hlevel' : Depth.top.nested.level.toNat + nestedBlocks.nesting ≤ UInt64.size := by decide
  obtain ⟨hbalanced, hcount⟩ := balanced_renderAt nestedBlocks .top htop
  obtain ⟨-, hcount'⟩ := balanced_renderAt nestedBlocks Depth.top.nested hblock
  exact ⟨htop, hblock, hlevel, hlevel', hbalanced, ((hcount hlevel).2 rfl rfl).trans (by decide),
    ((hcount' hlevel').1 rfl).trans (by decide)⟩

/-- At the last depth the depths begin again: a list inside a list has no braces there, so that one
brace is opened for two lists. -/
theorem count_braces_last :
    (∀ p ∈ (program [program [ident "a"]]).printed .last, p.2.heldText.any isBracket = false) ∧
    Depth.last.isTop = false ∧
    ((program [program [ident "a"]]).renderAt .last).toList.count '\x7b' = 1 ∧
    ((program [program [ident "a"]]).printed .last).countP (fun p => p.2.isStatements)
      + ((program [program [ident "a"]]).printed .last).countP (fun p => p.2.isObjectLiteral)
        = 2 := by
  decide

end Node

end ScriptHost.Tree
