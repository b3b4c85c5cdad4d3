import ScriptHost.Proofs.Tree.Pieces
import ScriptHost.Proofs.Tree.Tokens

/-!
# Number literals in the text of a tree

The text of a tree consists of the words and marks of the printer and of the texts that the tree
holds (`Node.lexemes`). Next to a tree the printer puts marks that belong to no word and no literal,
with one exception: nothing keeps the point of a member access apart from a number. So the number
literals of the text are the numbers of the tree just if no member access has a number at its point.
Main statement: `Node.numerals_renderAt_iff`.
-/

set_option autoImplicit false

namespace ScriptHost.Tree

/-! ## What a tree holds -/

/-- The token that a piece of text is meant to be. -/
def LeafKind.token (text : List Char) : LeafKind → Token
  | .number => .numeral text
  | .string => .string ('"' :: text ++ ['"'])
  | _ => .word text

/-- Whether a token is a number literal of digits alone. -/
def Token.isWhole : Token → Bool
  | numeral w => w.all Char.isDigit
  | _ => false

namespace Node

/-- Whether the text that a node holds itself is what its kind says: an identifier, a decimal
literal, the inside of a string literal without quotes and escapes. Regular expressions do not
count. -/
def isLexical : Node → Bool
  | leaf .name text => isName text.toList
  | leaf .number text => isDecimal text.toList
  | leaf .string text => isPlainString text.toList
  | leaf .regexp _ => false
  | function (some name) _ _ => isName name.toList
  | _ => true

/-- The text of a number. -/
def numberText? : Node → Option (List Char)
  | leaf .number text => some text.toList
  | _ => none

/-- Whether a node is a member access with a number at its point: an object whose text ends in a
literal of digits alone, or a name whose text begins with a digit. -/
def meetsNumber (d : Depth) : Node → Bool
  | pair .member name object =>
    (tokens (object.print d)).getLast?.any Token.isWhole || (name.print d).head?.any Char.isDigit
  | _ => false

end Node

/-! ## Marks between tokens -/

namespace Token

/-- Whether a token is a mark that is never read together with its neighbours. -/
def seals : Token → Bool
  | mark c => c != '.' && !isNameChar c
  | _ => false

theorem endsBefore_of_seals {t : Token} (h : t.seals = true) (c : Char) :
    t.endsBefore c = true := by
  cases t with
  | mark m =>
      simp only [seals, Bool.and_eq_true, bne_iff_ne] at h
      simp [endsBefore, h.1]
  | _ => cases h

theorem apart_of_seals_left {t : Token} (h : t.seals = true) (u : Token) : t.apart u = true :=
  Option.all_eq_true_iff_get _ _ |>.mpr fun _ => endsBefore_of_seals h _

theorem apart_of_seals_right {u : Token} (h : u.seals = true) (t : Token) : t.apart u = true := by
  cases u with
  | mark c =>
      simp only [seals, Bool.and_eq_true, bne_iff_ne, Bool.not_eq_true'] at h
      have hdigit : c.isDigit = false :=
        Bool.eq_false_iff.mpr fun hc => Bool.eq_false_iff.mp h.2 (isNameChar_of_isDigit hc)
      cases t <;> simp [apart, text, endsBefore, h, hdigit]
  | _ => cases h

/-- Whether a mark stands on one side of the place between two tokens. -/
def sealed (t u : Token) : Bool := t.seals || u.seals

theorem apart_of_sealed {t u : Token} (h : t.sealed u = true) : t.apart u = true := by
  rcases Bool.or_eq_true_iff.mp h with ht | hu
  · exact apart_of_seals_left ht u
  · exact apart_of_seals_right hu t

/-- Whether a token is a word or a mark of the printer. -/
def isPlain (t : Token) : Bool := t.isWritten && t.numeral?.isNone

end Token

/-! ## Pieces with marks around their trees -/

namespace Piece

/-- The tokens of a piece, with a nameless word for a tree. -/
def outline : Piece → List Token
  | own text => tokens text
  | given text => [.word text.toList]
  | subtree _ _ => [.word []]

/-- Whether a piece is a tree, a name, or words and marks. -/
def isPlain : Piece → Bool
  | own text => (tokens text).all Token.isPlain
  | given text => isName text.toList
  | subtree _ _ => true

theorem isPlain_own (text : List Char) : (own text).isPlain = (tokens text).all Token.isPlain := rfl

/-- Words and marks, names and trees, with a mark at each place where two of them meet. -/
structure Framed (pieces : List Piece) : Prop where
  plain : pieces.all isPlain = true
  sealed : (pieces.flatMap outline).IsChain (Token.sealed · ·)

/-- Whether a text is words and marks with marks between the words. -/
def isFrame (text : List Char) : Bool :=
  (tokens text).all Token.isPlain && decide ((tokens text).IsChain (Token.sealed · ·))

/-- Whether a text begins with a mark. -/
def opens (text : List Char) : Bool := (tokens text).head?.any Token.seals

/-- Whether a text ends in a mark. -/
def closes (text : List Char) : Bool := (tokens text).getLast?.any Token.seals

theorem framed_append_iff {before behind : List Piece}
    (h : ∀ t ∈ (before.flatMap outline).getLast?, ∀ u ∈ (behind.flatMap outline).head?,
      t.sealed u = true) :
    Framed (before ++ behind) ↔ Framed before ∧ Framed behind := by
  constructor
  · rintro ⟨hplain, hsealed⟩
    rw [List.all_append, Bool.and_eq_true] at hplain
    rw [List.flatMap_append, List.isChain_append] at hsealed
    exact ⟨⟨hplain.1, hsealed.1⟩, ⟨hplain.2, hsealed.2.1⟩⟩
  · rintro ⟨⟨hplain, hsealed⟩, ⟨hplain', hsealed'⟩⟩
    refine ⟨?_, ?_⟩
    · rw [List.all_append, hplain, hplain', Bool.and_self]
    · rw [List.flatMap_append]
      exact List.isChain_append.mpr ⟨hsealed, hsealed', h⟩

@[simp] theorem framed_nil : Framed [] := ⟨rfl, .nil⟩

@[simp] theorem framed_subtree (d : Depth) (n : Node) : Framed [subtree d n] :=
  ⟨rfl, .singleton _⟩

@[simp] theorem framed_own {text : List Char} (h : isFrame text = true) : Framed [own text] := by
  rw [isFrame, Bool.and_eq_true, decide_eq_true_iff] at h
  exact ⟨by simpa [isPlain_own] using h.1, by simpa [outline] using h.2⟩

@[simp] theorem framed_own_nil (behind : List Piece) :
    Framed (own [] :: behind) ↔ Framed behind := by
  have happend : Framed ([own []] ++ behind) ↔ Framed [own []] ∧ Framed behind :=
    framed_append_iff nofun
  exact happend.trans (and_iff_right (framed_own rfl))

@[simp] theorem framed_append_own {text : List Char} (h : opens text = true)
    (before behind : List Piece) :
    Framed (before ++ own text :: behind) ↔ Framed before ∧ Framed (own text :: behind) := by
  obtain ⟨u, hhead, hu⟩ := (Option.any_eq_true _ _).mp h
  refine framed_append_iff fun t _ u' hu' => ?_
  rw [List.flatMap_cons, outline, List.head?_append, hhead] at hu'
  cases hu'
  exact Bool.or_eq_true_iff.mpr (.inr hu)

theorem framed_subtree_empty (d : Depth) (n : Node) : Framed [subtree d n, own []] :=
  ⟨rfl, .singleton _⟩

@[simp] theorem framed_subtree_own {text : List Char} (h : opens text = true) (d : Depth) (n : Node)
    (behind : List Piece) :
    Framed (subtree d n :: own text :: behind) ↔ Framed (own text :: behind) :=
  (framed_append_own h [subtree d n] behind).trans (and_iff_right (framed_subtree d n))

@[simp] theorem framed_given_own {text : String} (htext : isName text.toList = true)
    {next : List Char} (h : opens next = true) (behind : List Piece) :
    Framed (given text :: own next :: behind) ↔ Framed (own next :: behind) := by
  have hgiven : Framed [given text] := ⟨by simpa [isPlain] using htext, .singleton _⟩
  exact (framed_append_own h [given text] behind).trans (and_iff_right hgiven)

@[simp] theorem framed_own_own {text next : List Char} (htext : isFrame text = true)
    (h : opens next = true) (behind : List Piece) :
    Framed (own text :: own next :: behind) ↔ Framed (own next :: behind) :=
  (framed_append_own h [own text] behind).trans (and_iff_right (framed_own htext))

@[simp] theorem framed_own_cons {text : List Char} (h : isFrame text = true)
    (hcloses : closes text = true) (behind : List Piece) :
    Framed (own text :: behind) ↔ Framed behind := by
  obtain ⟨t, hlast, ht⟩ := (Option.any_eq_true _ _).mp hcloses
  have happend : Framed ([own text] ++ behind) ↔ Framed [own text] ∧ Framed behind := by
    refine framed_append_iff fun t' ht' u _ => ?_
    rw [List.flatMap_singleton, outline, hlast] at ht'
    cases ht'
    exact Bool.or_eq_true_iff.mpr (.inl ht)
  exact happend.trans (and_iff_right (framed_own h))

@[simp] theorem framed_commas (d : Depth) (items : List Node) : Framed (commas d items) := by
  induction items with
  | nil => exact framed_nil
  | cons n items ih =>
      cases items with
      | nil => exact framed_subtree d n
      | cons next items =>
          show Framed (subtree d n :: own [',', ' '] :: commas d (next :: items))
          rw [framed_subtree_own (by decide), framed_own_cons (by decide) (by decide)]
          exact ih

theorem framed_blank_cons (text : List Char) (behind : List Piece) :
    Framed (own (' ' :: text) :: behind) ↔ Framed (own text :: behind) := by
  have hblank : ∀ cs, tokens (' ' :: cs) = .mark ' ' :: tokens cs := fun cs =>
    tokens_append (t := .mark ' ') (by decide)
      ((Option.all_eq_true _ _).mpr fun c _ => Token.endsBefore_of_seals (by decide) c)
  have hsplit : Framed (own (' ' :: text) :: behind)
      ↔ Framed (own [' '] :: own text :: behind) := by
    constructor <;> rintro ⟨hplain, hsealed⟩ <;>
      exact ⟨by simpa [isPlain_own, hblank, tokens_nil, and_assoc] using hplain,
        by simpa [outline, hblank, tokens_nil] using hsealed⟩
  exact hsplit.trans (framed_own_cons (by decide) (by decide) _)

@[simp] theorem framed_indent_cons (d : Depth) (behind : List Piece) :
    Framed (own d.indent :: behind) ↔ Framed behind := by
  rw [Depth.indent]
  induction ((d.atLeastBlock.level - 1) * 2).toNat with
  | zero => exact framed_own_nil behind
  | succ count ih => exact (framed_blank_cons _ behind).trans ih

@[simp] theorem framed_lines (d : Depth) (items : List Node) : Framed (lines d items) := by
  induction items with
  | nil => exact framed_nil
  | cons n items ih =>
      cases items with
      | nil =>
          show Framed [own d.indent, subtree d n, own [';']]
          rw [framed_indent_cons, framed_subtree_own (by decide)]
          exact framed_own (by decide)
      | cons next items =>
          show Framed (own d.indent :: subtree d n :: own [';'] :: own ['\n']
            :: lines d (next :: items))
          rw [framed_indent_cons, framed_subtree_own (by decide),
            framed_own_cons (by decide) (by decide), framed_own_cons (by decide) (by decide)]
          exact ih

@[simp] theorem framed_clause (d : Depth) (o : Option Node) : Framed (clause d [] o) := by
  cases o with
  | none => exact framed_nil
  | some n => exact (framed_own_nil _).mpr (framed_subtree d n)

/-- A part that may be missing is framed with the text in front of it. -/
theorem framed_append_clause {before : List Char} (hopens : opens before = true)
    (hframe : isFrame before = true) (hcloses : closes before = true) {pieces : List Piece}
    (h : Framed pieces) (d : Depth) (o : Option Node) : Framed (pieces ++ clause d before o) := by
  cases o with
  | none => rwa [clause, List.append_nil]
  | some n =>
      rw [clause, framed_append_own hopens, framed_own_cons hframe hcloses]
      exact ⟨h, framed_subtree d n⟩

end Piece

open Piece (own given subtree clause Framed)

/-! ## Each kind of node -/

theorem ListKind.framed_pieces (d : Depth) (items : List Node) (k : ListKind) :
    Framed (k.pieces d items) := by
  cases k with
  | statements =>
      rw [ListKind.pieces]
      cases d.isTop <;> simp (disch := decide)
  | objectLiteral => cases items <;> simp (disch := decide) [ListKind.pieces]
  | declaration => simp (disch := decide) [ListKind.pieces]
  | arrayLiteral => simp (disch := decide) [ListKind.pieces]
  | commaList => simp [ListKind.pieces]

/-- The semicolon in front of a word may be missing, where the word brings a mark along. -/
@[simp] theorem framed_subtree_closing {next : List Char} (h : Piece.opens next = true) (d : Depth)
    (n body : Node) (text : List Char) (behind : List Piece) :
    Framed (subtree d n :: own (closing body text) :: own next :: behind)
      ↔ Framed (own next :: behind) := by
  have hsplit := Piece.framed_append_own h [subtree d n, own (closing body text)] behind
  refine hsplit.trans (and_iff_right ?_)
  rw [closing]
  split
  · exact Piece.framed_subtree_empty d n
  · simp (disch := decide)

@[simp] theorem framed_spacing_cons (operator operand : List Char) (behind : List Piece) :
    Framed (own (spacing operator operand) :: behind) ↔ Framed behind := by
  rw [spacing]
  split <;> simp (disch := decide)

namespace Node

/-- The trees inside a node stand between marks, unless the node is a member access. -/
theorem framed_pieces {n : Node} (h : n.isLexical = true) (hleaf : ∀ k text, n ≠ leaf k text)
    (hmember : ∀ name object, n ≠ pair .member name object) (d : Depth) :
    Framed (n.pieces d) := by
  cases n with
  | leaf k text => exact absurd rfl (hleaf k text)
  | word w =>
      rw [pieces]
      exact Piece.framed_own (by cases w <;> decide)
  | list k items => exact k.framed_pieces d items
  | apply k callee arguments => cases k <;> simp (disch := decide) [pieces, ApplyKind.pieces]
  | function name parameters body =>
      cases name with
      | none => simp (disch := decide) [pieces]
      | some name =>
          have hname : isName name.toList = true := h
          rw [pieces]
          simp (disch := first | exact hname | decide)
  | pair k left right =>
      cases k with
      | property => simp (disch := decide) [pieces]
      | subscript => simp (disch := decide) [pieces]
      | member => exact absurd rfl (hmember left right)
      | doWhile => simp (disch := decide) [pieces]
      | whileDo => simp (disch := decide) [pieces]
  | single k value => cases k <;> simp (disch := decide) [pieces, SingleKind.pieces]
  | unary o value => cases o <;> simp (disch := decide) [pieces, UnaryOperator.text]
  | update o value => cases o <;> simp (disch := decide) [pieces, UpdateOperator.text]
  | binary o left right =>
      have ho : Piece.isFrame o.text.toList = true := by cases o <;> decide
      rw [pieces]
      simp (disch := first | exact ho | decide)
  | ternary condition left right => simp (disch := decide) [pieces]
  | returns value =>
      show Framed ([own "return".toList] ++ clause d [' '] value)
      exact Piece.framed_append_clause (by decide) (by decide) (by decide)
        (Piece.framed_own (by decide)) d value
  | ifElse condition body otherwise =>
      have helse : Piece.opens (closing body (print d.atLeastBlock body) ++ " else ".toList) = true
          ∧ Piece.isFrame (closing body (print d.atLeastBlock body) ++ " else ".toList) = true
          ∧ Piece.closes (closing body (print d.atLeastBlock body) ++ " else ".toList) = true := by
        rw [closing]
        split <;> decide
      rw [pieces]
      exact Piece.framed_append_clause helse.1 helse.2.1 helse.2.2 (by simp (disch := decide)) _ _
  | forLoop init test step body => simp (disch := decide) [pieces]
  | forIn left right body => simp (disch := decide) [pieces]
  | tryCatch body parameter handler finalizer =>
      have hfinalizer : ∀ {pieces}, Framed pieces →
          Framed (pieces ++ clause d.atLeastBlock " finally ".toList finalizer) :=
        fun h => Piece.framed_append_clause (by decide) (by decide) (by decide) h _ _
      cases handler with
      | none =>
          rw [pieces]
          exact hfinalizer (by simp (disch := decide))
      | some handler =>
          rw [pieces]
          exact hfinalizer (by simp (disch := decide))

end Node

/-! ## The tokens of a tree -/

namespace Node

/-- The tokens that the text of a tree is meant to be. -/
def lexemes (d : Depth) : Node → List Token
  | leaf k text => [k.token text.toList]
  | n => (n.pieces d).attach.flatMap fun
    | ⟨own text, _⟩ => tokens text
    | ⟨given text, _⟩ => [.word text.toList]
    | ⟨subtree e m, _⟩ => m.lexemes e
termination_by n => sizeOf n
decreasing_by exact (inside_of_subtree_mem_pieces ‹_›).size

end Node

/-- The tokens that the text of a piece is meant to be. -/
def Piece.lexemes : Piece → List Token
  | own text => tokens text
  | given text => [.word text.toList]
  | subtree d n => n.lexemes d

namespace Node

theorem lexemes_leaf (d : Depth) (k : LeafKind) (text : String) :
    (leaf k text).lexemes d = [k.token text.toList] := by
  rw [lexemes]

theorem lexemes_eq_flatMap {n : Node} (hleaf : ∀ k text, n ≠ leaf k text) (d : Depth) :
    n.lexemes d = (n.pieces d).flatMap Piece.lexemes := by
  have hattach := List.flatMap_map Subtype.val Piece.lexemes (n.pieces d).attach
  rw [List.attach_map_subtype_val] at hattach
  rw [lexemes.eq_2 _ _ hleaf, hattach]
  congr 1
  funext ⟨p, _⟩
  cases p <;> rfl

/-- A property of trees at their depths holds of all of them when it holds of the leaves and of
every other tree whose pieces have it. -/
theorem leaf_induction {P : Depth → Node → Prop} (leaf : ∀ d k text, P d (leaf k text))
    (inner : ∀ d n, (∀ k text, n ≠ .leaf k text) → (∀ e m, subtree e m ∈ n.pieces d → P e m) →
      P d n) (d : Depth) (n : Node) : P d n := by
  induction d, n using pieces_induction with
  | step d n ih =>
      by_cases hleaf : ∀ k text, n ≠ .leaf k text
      · exact inner d n hleaf ih
      · simp only [not_forall, not_not] at hleaf
        obtain ⟨k, text, rfl⟩ := hleaf
        exact leaf d k text

/-- A text shows its own node, and what the trees inside show. -/
theorem forall_printed_iff {P : Depth × Node → Prop} (d : Depth) (n : Node) :
    (∀ p ∈ n.printed d, P p)
      ↔ P (d, n) ∧ ∀ e m, subtree e m ∈ n.pieces d → ∀ p ∈ m.printed e, P p := by
  rw [printed_eq_cons, List.forall_mem_cons]
  simp only [List.mem_flatMap]
  refine and_congr_right fun _ => ⟨fun h e m hm p hp => h p ⟨_, hm, hp⟩, ?_⟩
  rintro h p ⟨piece, hpiece, hp⟩
  cases piece with
  | own text => cases hp
  | given text => cases hp
  | subtree e m => exact h e m hpiece p hp

/-- The tokens of a tree are its text. -/
theorem flatMap_text_lexemes (d : Depth) (n : Node) :
    (n.lexemes d).flatMap Token.text = n.print d := by
  induction d, n using leaf_induction with
  | leaf d k text =>
      rw [lexemes_leaf, print_leaf]
      cases k <;> simp [LeafKind.token, LeafKind.write, Token.text]
  | inner d n hleaf ih =>
      rw [lexemes_eq_flatMap hleaf, print_eq_flatMap, List.flatMap_assoc]
      refine List.flatMap_congr fun p hp => ?_
      cases p with
      | own text => exact flatMap_text_tokens text
      | given text => exact List.append_nil _
      | subtree e m => exact ih e m hp

theorem plain_pieces {n : Node} (h : n.isLexical = true) (hleaf : ∀ k text, n ≠ leaf k text)
    (d : Depth) : ∀ p ∈ n.pieces d, p.isPlain = true := by
  by_cases hmember : ∀ name object, n ≠ pair .member name object
  · exact List.all_eq_true.mp (framed_pieces h hleaf hmember d).plain
  · simp only [not_forall, not_not] at hmember
    obtain ⟨name, object, rfl⟩ := hmember
    exact List.all_eq_true.mp rfl

/-- The tokens of a tree are written ones. -/
theorem isWritten_of_mem_lexemes (d : Depth) (n : Node)
    (h : ∀ p ∈ n.printed d, p.2.isLexical = true) : ∀ t ∈ n.lexemes d, t.isWritten = true := by
  induction d, n using leaf_induction with
  | leaf d k text =>
      have hlexical := h _ List.mem_cons_self
      rw [lexemes_leaf, List.forall_mem_singleton]
      cases k with
      | name => exact hlexical
      | number => exact hlexical
      | string => simpa [LeafKind.token, Token.isWritten, isLexical] using hlexical
      | regexp => cases hlexical
  | inner d n hleaf ih =>
      rw [forall_printed_iff] at h
      intro t ht
      rw [lexemes_eq_flatMap hleaf, List.mem_flatMap] at ht
      obtain ⟨p, hp, ht⟩ := ht
      have hplain := plain_pieces h.1 hleaf d p hp
      cases p with
      | own text => exact (Bool.and_eq_true_iff.mp (List.all_eq_true.mp hplain t ht)).1
      | given text =>
          rw [List.mem_singleton.mp ht]
          exact hplain
      | subtree e m => exact ih e m hp (h.2 e m hp) t ht

/-- The number literals among the tokens of a tree are the numbers that its text shows. -/
theorem filterMap_numeral?_lexemes (d : Depth) (n : Node)
    (h : ∀ p ∈ n.printed d, p.2.isLexical = true) :
    (n.lexemes d).filterMap Token.numeral? = (n.printed d).filterMap (·.2.numberText?) := by
  induction d, n using leaf_induction with
  | leaf d k text =>
      rw [lexemes_leaf]
      cases k <;> rfl
  | inner d n hleaf ih =>
      rw [forall_printed_iff] at h
      have hnone : n.numberText? = none := by
        cases n with
        | leaf k text => exact absurd rfl (hleaf k text)
        | _ => rfl
      have hprinted : (n.printed d).filterMap (·.2.numberText?)
          = ((n.pieces d).flatMap Piece.printed).filterMap (·.2.numberText?) := by
        rw [printed_eq_cons]
        exact List.filterMap_cons_none hnone
      rw [lexemes_eq_flatMap hleaf, hprinted, List.filterMap_flatMap, List.filterMap_flatMap]
      refine List.flatMap_congr fun p hp => ?_
      have hplain := plain_pieces h.1 hleaf d p hp
      cases p with
      | own text =>
          refine List.filterMap_eq_nil_iff.mpr fun t ht => ?_
          exact Option.isNone_iff_eq_none.mp
            (Bool.and_eq_true_iff.mp (List.all_eq_true.mp hplain t ht)).2
      | given text => rfl
      | subtree e m => exact ih e m hp (h.2 e m hp)

end Node

/-! ## Which tokens meet -/

namespace Piece

/-- A mark in front of pieces stays in front when the trees get their tokens. -/
theorem seals_head {pieces : List Piece}
    (h : ∀ u ∈ (pieces.flatMap outline).head?, u.seals = true) :
    ∀ u ∈ (pieces.flatMap lexemes).head?, u.seals = true := by
  induction pieces with
  | nil => exact h
  | cons p pieces ih =>
      rw [List.flatMap_cons] at h ⊢
      cases p with
      | own text =>
          rw [outline] at h
          rw [lexemes]
          cases htokens : tokens text with
          | nil =>
              rw [htokens] at h
              exact ih h
          | cons t ts =>
              rw [htokens] at h
              exact h
      | given text => exact absurd (h _ rfl) (by simp [Token.seals])
      | subtree d n => exact absurd (h _ rfl) (by simp [Token.seals])

theorem sealed_meet {p : Piece} {pieces : List Piece}
    (h : ∀ t ∈ p.outline.getLast?, ∀ u ∈ (pieces.flatMap outline).head?, t.sealed u = true) :
    ∀ t ∈ p.lexemes.getLast?, ∀ u ∈ (pieces.flatMap lexemes).head?, t.sealed u = true := by
  intro t ht u hu
  by_cases hseals : t.seals = true
  · exact Bool.or_eq_true_iff.mpr (.inl hseals)
  -- the last token of the outline is no mark either
  obtain ⟨t', ht', hseals'⟩ : ∃ t' ∈ p.outline.getLast?, t'.seals = false := by
    cases p with
    | own text => exact ⟨t, ht, Bool.eq_false_iff.mpr hseals⟩
    | given text => exact ⟨_, rfl, rfl⟩
    | subtree d n => exact ⟨_, rfl, rfl⟩
  refine Bool.or_eq_true_iff.mpr (.inr (seals_head (fun v hv => ?_) u hu))
  have hmeet := h t' ht' v hv
  rwa [Token.sealed, hseals', Bool.false_or] at hmeet

section

variable {R : Token → Token → Prop}

/-- Between framed pieces nothing meets that a mark does not keep apart. -/
theorem isChain_lexemes_iff (hR : ∀ t u, t.sealed u = true → R t u) {pieces : List Piece}
    (hsealed : (pieces.flatMap outline).IsChain (Token.sealed · ·)) :
    (pieces.flatMap lexemes).IsChain R
      ↔ ∀ d n, subtree d n ∈ pieces → (n.lexemes d).IsChain R := by
  induction pieces with
  | nil => simp
  | cons p pieces ih =>
      rw [List.flatMap_cons, List.isChain_append] at hsealed
      obtain ⟨hfirst, hrest, hmeet⟩ := hsealed
      have hfirst : p.lexemes.IsChain R ↔ ∀ d n, p = subtree d n → (n.lexemes d).IsChain R := by
        cases p with
        | own text => simpa [lexemes] using show (tokens text).IsChain R from hfirst.imp hR
        | given text => simp [lexemes]
        | subtree d n => simp [lexemes]
      rw [List.flatMap_cons, List.isChain_append, hfirst, ih hrest]
      constructor
      · rintro ⟨hp, hpieces, _⟩ d n hmem
        rcases List.mem_cons.mp hmem with heq | hmem
        · exact hp d n heq.symm
        · exact hpieces d n hmem
      · intro hall
        refine ⟨fun d n heq => hall d n (heq ▸ List.mem_cons_self), ?_, ?_⟩
        · exact fun d n hmem => hall d n (List.mem_cons_of_mem p hmem)
        · exact fun t ht u hu => hR t u (sealed_meet hmeet t ht u hu)

end

end Piece

namespace Node

theorem lexemes_member (d : Depth) (name object : Node) :
    (pair .member name object).lexemes d = object.lexemes d ++ .mark '.' :: name.lexemes d := by
  rw [lexemes_eq_flatMap (fun _ _ h => by cases h), pieces]
  simp only [List.flatMap_cons, List.flatMap_nil, List.append_nil]
  rfl

theorem forall_subtree_member_iff {P : Depth → Node → Prop} (d : Depth) (name object : Node) :
    (∀ e m, subtree e m ∈ (pair .member name object).pieces d → P e m)
      ↔ P d object ∧ P d name := by
  simp [pieces, or_imp, forall_and]

section

variable {R : Token → Token → Prop}

theorem isChain_lexemes_member_iff (d : Depth) (name object : Node) :
    ((pair .member name object).lexemes d).IsChain R
      ↔ (object.lexemes d).IsChain R ∧ (name.lexemes d).IsChain R
        ∧ (∀ t ∈ (object.lexemes d).getLast?, R t (.mark '.'))
        ∧ ∀ u ∈ (name.lexemes d).head?, R (.mark '.') u := by
  rw [lexemes_member, List.isChain_append, List.isChain_cons]
  simp only [List.head?_cons, Option.mem_def, Option.some.injEq, forall_eq']
  constructor
  · rintro ⟨hobject, ⟨hhead, hname⟩, hlast⟩
    exact ⟨hobject, hname, hlast, hhead⟩
  · rintro ⟨hobject, hname, hlast, hhead⟩
    exact ⟨hobject, ⟨hhead, hname⟩, hlast⟩

theorem isChain_lexemes_iff (hR : ∀ t u, t.sealed u = true → R t u) {n : Node}
    (h : n.isLexical = true) (hleaf : ∀ k text, n ≠ leaf k text)
    (hmember : ∀ name object, n ≠ pair .member name object) (d : Depth) :
    (n.lexemes d).IsChain R ↔ ∀ e m, subtree e m ∈ n.pieces d → (m.lexemes e).IsChain R := by
  rw [lexemes_eq_flatMap hleaf]
  exact Piece.isChain_lexemes_iff hR (framed_pieces h hleaf hmember d).sealed

end

end Node

namespace Token

/-- In front of a point a token is kept apart, unless it is a whole number. -/
theorem apart_point_iff (t : Token) : t.apart (.mark '.') = true ↔ t.isWhole = false := by
  cases t <;> simp [apart, text, endsBefore, isWhole, isNameChar, isWordChar]

/-- Behind a point a token is kept apart, unless it begins with a digit. -/
theorem point_apart_iff (u : Token) :
    apart (.mark '.') u = true ↔ u.text.head?.any Char.isDigit = false := by
  rw [apart]
  cases u.text.head? <;> simp [endsBefore]

theorem sharesPoint_of_isWhole {t : Token} (h : t.isWhole = true) :
    t.sharesPoint (.mark '.') = true := by
  cases t with
  | numeral w => simpa [sharesPoint, isWhole] using h
  | _ => cases h

/-- Of the tokens that are written only number literals begin with a digit. -/
theorem sharesPoint_of_isDigit {u : Token} (hu : u.isWritten = true)
    (h : u.text.head?.any Char.isDigit = true) : sharesPoint (.mark '.') u = true := by
  cases u with
  | word w =>
      simp only [isWritten, isName, Bool.and_eq_true] at hu
      cases w with
      | nil => cases h
      | cons c w => simp_all [text]
  | numeral w => rfl
  | string w =>
      simp only [isWritten, Bool.and_eq_true, beq_iff_eq] at hu
      rw [text, hu.1] at h
      cases h
  | mark c =>
      simp only [isWritten, Bool.and_eq_true, Bool.not_eq_true'] at hu
      exact absurd (isNameChar_of_isDigit h) (Bool.eq_false_iff.mp hu.1.1)

end Token

namespace Node

theorem meetsNumber_eq_false {n : Node} (hmember : ∀ name object, n ≠ pair .member name object)
    (d : Depth) : n.meetsNumber d = false := by
  rw [meetsNumber.eq_2 _ _ hmember]

/-- Where the tokens of a tree are not kept apart they share a point. -/
theorem isChain_sharesPoint (d : Depth) (n : Node)
    (h : ∀ p ∈ n.printed d, p.2.isLexical = true) :
    (n.lexemes d).IsChain fun t u => t.apart u = true ∨ t.sharesPoint u = true := by
  induction d, n using leaf_induction with
  | leaf d k text =>
      rw [lexemes_leaf]
      exact .singleton _
  | inner d n hleaf ih =>
      rw [forall_printed_iff] at h
      have hsubtree := fun e m hm => ih e m hm (h.2 e m hm)
      by_cases hmember : ∀ name object, n ≠ pair .member name object
      · exact (isChain_lexemes_iff (fun _ _ hsealed => .inl (Token.apart_of_sealed hsealed)) h.1
          hleaf hmember d).mpr hsubtree
      · simp only [not_forall, not_not] at hmember
        obtain ⟨name, object, rfl⟩ := hmember
        rw [forall_subtree_member_iff] at h hsubtree
        refine (isChain_lexemes_member_iff d name object).mpr
          ⟨hsubtree.1, hsubtree.2, fun t _ => ?_, fun u hu => ?_⟩
        · cases hwhole : t.isWhole with
          | false => exact .inl ((Token.apart_point_iff t).mpr hwhole)
          | true => exact .inr (Token.sharesPoint_of_isWhole hwhole)
        · have hwritten := isWritten_of_mem_lexemes d name h.2.2 u (List.mem_of_mem_head? hu)
          cases hdigit : u.text.head?.any Char.isDigit with
          | false => exact .inl ((Token.point_apart_iff u).mpr hdigit)
          | true => exact .inr (Token.sharesPoint_of_isDigit hwritten hdigit)

/-- A point is kept apart from the tokens of an object if these do not end in a whole number. -/
theorem forall_getLast?_apart_iff {d : Depth} {object : Node}
    (h : ∀ p ∈ object.printed d, p.2.isLexical = true)
    (happart : (object.lexemes d).IsChain fun t u => t.apart u = true) :
    (∀ t ∈ (object.lexemes d).getLast?, t.apart (.mark '.') = true)
      ↔ (tokens (object.print d)).getLast?.any Token.isWhole = false := by
  have hread := tokens_flatMap (isWritten_of_mem_lexemes d object h) happart
  rw [flatMap_text_lexemes] at hread
  rw [hread, Option.any_eq_false]
  exact forall₂_congr fun t _ => Token.apart_point_iff t

/-- A point is kept apart from the tokens of a name if its text does not begin with a digit. -/
theorem forall_head?_apart_iff {d : Depth} {name : Node}
    (h : ∀ p ∈ name.printed d, p.2.isLexical = true) :
    (∀ u ∈ (name.lexemes d).head?, Token.apart (.mark '.') u = true)
      ↔ (name.print d).head?.any Char.isDigit = false := by
  rw [← flatMap_text_lexemes]
  have hwritten := isWritten_of_mem_lexemes d name h
  cases hlexemes : name.lexemes d with
  | nil => simp
  | cons u us =>
      rw [hlexemes] at hwritten
      rw [Token.head?_flatMap_text (hwritten u List.mem_cons_self), ← Token.point_apart_iff]
      simp

/-- The tokens of a tree are kept apart just if no member access has a number at its point. -/
theorem isChain_apart_iff (d : Depth) (n : Node)
    (h : ∀ p ∈ n.printed d, p.2.isLexical = true) :
    ((n.lexemes d).IsChain fun t u => t.apart u = true)
      ↔ ∀ p ∈ n.printed d, p.2.meetsNumber p.1 = false := by
  induction d, n using leaf_induction with
  | leaf d k text =>
      rw [lexemes_leaf]
      simp [printed, meetsNumber]
  | inner d n hleaf ih =>
      rw [forall_printed_iff] at h
      have hsubtree := fun e m hm => ih e m hm (h.2 e m hm)
      rw [forall_printed_iff]
      by_cases hmember : ∀ name object, n ≠ pair .member name object
      · rw [isChain_lexemes_iff (fun _ _ hsealed => Token.apart_of_sealed hsealed) h.1
          hleaf hmember d, and_iff_right (meetsNumber_eq_false hmember d)]
        exact forall₃_congr hsubtree
      · simp only [not_forall, not_not] at hmember
        obtain ⟨name, object, rfl⟩ := hmember
        rw [forall_subtree_member_iff] at h hsubtree
        rw [isChain_lexemes_member_iff, forall_subtree_member_iff, forall_head?_apart_iff h.2.2,
          hsubtree.2]
        constructor
        · rintro ⟨hobject, hname, hlast, hhead⟩
          have hwhole := (forall_getLast?_apart_iff h.2.1 hobject).mp hlast
          exact ⟨Bool.or_eq_false_iff.mpr ⟨hwhole, hhead⟩, hsubtree.1.mp hobject, hname⟩
        · rintro ⟨hpoint, hobject, hname⟩
          obtain ⟨hwhole, hhead⟩ := Bool.or_eq_false_iff.mp hpoint
          have hobject := hsubtree.1.mpr hobject
          exact ⟨hobject, hname, (forall_getLast?_apart_iff h.2.1 hobject).mpr hwhole, hhead⟩

/-- Where names are identifiers, numbers decimal literals and strings free of quotes and escapes,
the number literals of a text are the numbers of the tree in their order, just if no member access
that the text shows has a number at its point. -/
theorem numerals_renderAt_iff (n : Node) (d : Depth)
    (h : ∀ p ∈ n.printed d, p.2.isLexical = true) :
    numerals (n.renderAt d).toList = (n.printed d).filterMap (fun p => p.2.numberText?)
      ↔ ∀ p ∈ n.printed d, p.2.meetsNumber p.1 = false := by
  have hiff := numerals_flatMap_iff (isWritten_of_mem_lexemes d n h) (isChain_sharesPoint d n h)
  rw [flatMap_text_lexemes, filterMap_numeral?_lexemes d n h, isChain_apart_iff d n h] at hiff
  rwa [renderAt, String.toList_ofList]

/-- Brackets keep a number and the point behind it apart, and a fraction does so too. -/
theorem numerals_render_parens :
    (∀ p ∈ (list .commaList [pair .member (ident "x") (single .parens (number "1")),
        pair .member (ident "y") (number "2.5")]).printed .top, p.2.isLexical = true) ∧
      numerals ((list .commaList [pair .member (ident "x") (single .parens (number "1")),
        pair .member (ident "y") (number "2.5")]).renderAt .top).toList
        = ["1".toList, "2.5".toList] := by
  have hlexical : ∀ p ∈ (list .commaList [pair .member (ident "x") (single .parens (number "1")),
      pair .member (ident "y") (number "2.5")]).printed .top, p.2.isLexical = true := by
    decide
  refine ⟨hlexical, ?_⟩
  exact (numerals_renderAt_iff _ .top hlexical).mpr (by decide)

/-- A whole number takes the point of a member access. -/
theorem numerals_render_point :
    (∀ p ∈ (pair .member (ident "x") (number "1")).printed .top, p.2.isLexical = true) ∧
      ((pair .member (ident "x") (number "1")).printed .top).filterMap
        (fun p => p.2.numberText?) = ["1".toList] ∧
      (pair .member (ident "x") (number "1")).renderAt .top = "1.x" ∧
      numerals ((pair .member (ident "x") (number "1")).renderAt .top).toList = ["1.".toList] := by
  decide

end Node

end ScriptHost.Tree
