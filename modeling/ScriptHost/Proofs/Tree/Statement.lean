import ScriptHost.Proofs.Tree.Printed
import ScriptHost.Proofs.Tree.Word

/-!
# Reading statements back

The text of a program whose loops, conditionals, guarded bodies and functions have blocks as
their bodies gives the program back: its blocks, its headers and the parts that are missing.

Convention: a statement is read up to the semicolon behind it, which every statement of a list
has, and a block up to its closing brace. A statement begins with the word that says what it is
(`Opening`), or it is an identifier; the indentation of a line is skipped. Every list inside has to
have its braces (`Depth.Braces`), and at the last depth one does not (`Node.renderAt_last_eq`). Main
statement: `Node.IsBlock.renderAt_inj`.
-/

set_option autoImplicit false

namespace ScriptHost.Tree

namespace Node

/-! ## Statements -/

/-- An identifier. -/
inductive IsName : Node → Prop
  | ident {s : String} (h : IsIdentifier s) : IsName (ident s)

mutual

/-- Statement lists. -/
inductive IsBlock : Node → Prop
  | statements {items : List Node} (h : ∀ s ∈ items, IsStatement s) :
      IsBlock (list .statements items)

/-- Conditionals with a block as branch; the other branch may be missing, a block or one more
conditional. -/
inductive IsConditional : Node → Prop
  | alone {c body : Node} (hc : IsName c) (hbody : IsBlock body) :
      IsConditional (ifElse c body none)
  | block {c body otherwise : Node} (hc : IsName c) (hbody : IsBlock body)
      (hotherwise : IsBlock otherwise) : IsConditional (ifElse c body (some otherwise))
  | chain {c body otherwise : Node} (hc : IsName c) (hbody : IsBlock body)
      (hotherwise : IsConditional otherwise) : IsConditional (ifElse c body (some otherwise))

/-- Statements with a block wherever there is a body. -/
inductive IsStatement : Node → Prop
  | name {n : Node} (h : IsName n) : IsStatement n
  | declaration {items : List Node} (hne : items ≠ []) (h : ∀ n ∈ items, IsName n) :
      IsStatement (list .declaration items)
  | returns {value : Option Node} (h : ∀ n ∈ value, IsName n) : IsStatement (returns value)
  | throws {n : Node} (h : IsName n) : IsStatement (single .throws n)
  | breakOut : IsStatement (word .breakOut)
  | continueOn : IsStatement (word .continueOn)
  | block {b : Node} (h : IsBlock b) : IsStatement b
  | conditional {n : Node} (h : IsConditional n) : IsStatement n
  | whileDo {c body : Node} (hc : IsName c) (hbody : IsBlock body) :
      IsStatement (pair .whileDo c body)
  | doWhile {c body : Node} (hc : IsName c) (hbody : IsBlock body) :
      IsStatement (pair .doWhile body c)
  | forLoop {init test step : Option Node} {body : Node} (hinit : ∀ n ∈ init, IsName n)
      (htest : ∀ n ∈ test, IsName n) (hstep : ∀ n ∈ step, IsName n) (hbody : IsBlock body) :
      IsStatement (forLoop init test step body)
  | forIn {left right body : Node} (hleft : IsName left) (hright : IsName right)
      (hbody : IsBlock body) : IsStatement (forIn left right body)
  | unhandled {body : Node} {finalizer : Option Node} (hbody : IsBlock body)
      (hfinalizer : ∀ b ∈ finalizer, IsBlock b) :
      IsStatement (tryCatch body none none finalizer)
  | handled {body p handler : Node} {finalizer : Option Node} (hbody : IsBlock body)
      (hp : IsName p) (hhandler : IsBlock handler) (hfinalizer : ∀ b ∈ finalizer, IsBlock b) :
      IsStatement (tryCatch body (some p) (some handler) finalizer)
  | function {name : Option String} {parameters : List Node} {body : Node}
      (hname : ∀ s ∈ name, IsIdentifier s) (hparameters : ∀ p ∈ parameters, IsName p)
      (hbody : IsBlock body) : IsStatement (function name parameters body)

end

end Node

/-! ## The words in front -/

/-- What a statement may begin with, other than an identifier. -/
inductive Opening where
  | block
  | declaration
  | returns
  | throws
  | breakOut
  | continueOn
  | conditional
  | whileDo
  | doWhile
  | loop
  | guarded
  | function
  deriving DecidableEq

namespace Opening

/-- The word in front of the statement; a block has none. -/
def word : Opening → String
  | block => ""
  | declaration => "var"
  | returns => "return"
  | throws => "throw"
  | breakOut => "break"
  | continueOn => "continue"
  | conditional => "if"
  | whileDo => "while"
  | doWhile => "do"
  | loop => "for"
  | guarded => "try"
  | function => "function"

/-- Every opening. -/
def all : List Opening :=
  [block, declaration, returns, throws, breakOut, continueOn, conditional, whileDo, doWhile, loop,
    guarded, function]

/-- The opening with a given word. -/
def ofWord? (s : String) : Option Opening := all.find? (·.word == s)

theorem ofWord?_word (o : Opening) : ofWord? o.word = some o := by cases o <;> decide

theorem all_isWordChar_word (o : Opening) : o.word.toList.all isWordChar = true := by
  cases o <;> decide

theorem ofWord?_of_isIdentifier {s : String} (h : IsIdentifier s) : ofWord? s = none := by
  rw [ofWord?, List.find?_eq_none]
  intro o _ ho
  have hwords : ∀ x ∈ all, x.word = "" ∨ x.word ∈ keywords := by decide
  rw [beq_iff_eq] at ho
  rcases hwords o ‹_› with hempty | hkeyword
  · rw [hempty] at ho
    exact absurd (ho ▸ h.start) (by decide)
  · exact h.free (ho ▸ hkeyword)

end Opening

namespace Node

/-! ## The reader -/

/-- Reads an identifier. -/
def name? : Reader Node := fun cs => do
  let (s, cs) ← identifier? cs
  some (ident s, cs)

/-- Reads the lines of a block, at most as many as the first argument says. -/
def lines? (statement? : Reader Node) : Nat → Reader (List Node)
  | 0, cs => some ([], cs)
  | limit + 1, cs =>
    match statement? (cs.dropWhile (· == ' ')) with
    | none => some ([], cs)
    | some (s, cs) => do
      let cs ← strip? [';', '\n'] cs
      let (rest, cs) ← lines? statement? limit cs
      some (s :: rest, cs)

section

variable (inner? : Reader Node)

/-- Reads a block, given a reader for its statements. A block without statements has an empty
line. -/
def block? : Reader Node := fun cs => do
  let cs ← strip? ['\x7b', '\n'] cs
  let (items, cs) ← lines? inner? cs.length cs
  let cs ← strip? (if items.isEmpty then ['\n', '\x7d'] else ['\x7d']) cs
  some (list .statements items, cs)

/-- Reads a name in parentheses and the block behind it. -/
def header? : Reader (Node × Node) := fun cs => do
  let cs ← strip? ['('] cs
  let (c, cs) ← name? cs
  let cs ← strip? [')', ' '] cs
  let (body, cs) ← block? inner? cs
  some ((c, body), cs)

/-- Reads the other two parts of the header of a counting loop and its body. -/
def steps? (init : Option Node) : Reader Node := fun cs => do
  let cs ← strip? [';', ' '] cs
  let (test, cs) ← optional? name? cs
  let cs ← strip? [';', ' '] cs
  let (step, cs) ← optional? name? cs
  let cs ← strip? [')', ' '] cs
  let (body, cs) ← block? inner? cs
  some (forLoop init test step body, cs)

/-- Reads what stands behind the word of an opening. -/
def behind? : Opening → Reader Node
  | .block, cs => block? inner? cs
  | .declaration, cs => do
    let cs ← strip? [' '] cs
    let (items, cs) ← commaList? name? cs
    some (list .declaration items, cs)
  | .returns, cs => do
    let (value, cs) ← clause? [' '] name? cs
    some (returns value, cs)
  | .throws, cs => do
    let cs ← strip? [' '] cs
    let (n, cs) ← name? cs
    some (single .throws n, cs)
  | .breakOut, cs => do
    let cs ← strip? [';'] cs
    some (word .breakOut, cs)
  | .continueOn, cs => do
    let cs ← strip? [';'] cs
    some (word .continueOn, cs)
  | .conditional, cs => do
    let ((c, body), cs) ← header? inner? cs
    let (otherwise, cs) ← clause? " else ".toList inner? cs
    some (ifElse c body otherwise, cs)
  | .whileDo, cs => do
    let ((c, body), cs) ← header? inner? cs
    some (pair .whileDo c body, cs)
  | .doWhile, cs => do
    let cs ← strip? [' '] cs
    let (body, cs) ← block? inner? cs
    let cs ← strip? " while(".toList cs
    let (c, cs) ← name? cs
    let cs ← strip? [')'] cs
    some (pair .doWhile body c, cs)
  | .loop, cs => do
    let cs ← strip? ['('] cs
    let (left, cs) ← optional? name? cs
    match left, strip? " in ".toList cs with
    | some left, some cs => do
      let (right, cs) ← name? cs
      let cs ← strip? [')', ' '] cs
      let (body, cs) ← block? inner? cs
      some (forIn left right body, cs)
    | init, _ => steps? inner? init cs
  | .guarded, cs => do
    let cs ← strip? [' '] cs
    let (body, cs) ← block? inner? cs
    let (handled, cs) ← clause? " catch".toList (header? inner?) cs
    let (finalizer, cs) ← clause? " finally ".toList (block? inner?) cs
    some (tryCatch body (handled.map Prod.fst) (handled.map Prod.snd) finalizer, cs)
  | .function, cs => do
    let (name, cs) ← clause? [' '] identifier? cs
    let cs ← strip? ['('] cs
    let (parameters, cs) ← bracketed? name? ')' cs
    let cs ← strip? [' '] cs
    let (body, cs) ← block? inner? cs
    some (function name parameters body, cs)

/-- Reads a statement, given a reader for the statements inside it. -/
def readStatement : Reader Node := fun cs =>
  let (w, rest) := splitWord cs
  match Opening.ofWord? (String.ofList w) with
  | some o => behind? inner? o rest
  | none => name? cs

end

/-- Reads a statement with blocks nested up to a limit. -/
def statement? : Nat → Reader Node
  | 0 => fun _ => none
  | limit + 1 => readStatement (statement? limit)

/-! ## Names are read back -/

theorem name?_print {n : Node} (h : IsName n) (d : Depth) {cs : List Char}
    (hcs : endsWord cs = true) : name? (print d n ++ cs) = some (n, cs) := by
  cases h with
  | ident h => rw [print_ident, name?, identifier?_append h hcs]; rfl

theorem IsName.exists_cons {n : Node} (h : IsName n) (d : Depth) :
    ∃ c cs, print d n = c :: cs ∧ isWordChar c = true := by
  cases h with
  | @ident s h =>
      obtain ⟨c, cs, hs, hc, -⟩ := h.exists_cons
      exact ⟨c, cs, hs, hc⟩

theorem name?_print_append {n : Node} (h : IsName n) (d : Depth) {before : List Char}
    (hbefore : before.head?.any (!isWordChar ·) = true) (cs : List Char) :
    name? (print d n ++ (before ++ cs)) = some (n, before ++ cs) :=
  name?_print h d (endsWord_append hbefore cs)

/-- A name that may be missing is read back in front of a text that begins with no word. -/
theorem optional?_print_append {n : Option Node} (h : ∀ m ∈ n, IsName m) (d : Depth)
    {before : List Char} (hbefore : before.head?.any (!isWordChar ·) = true) (cs : List Char) :
    optional? name? (printClause d [] n ++ (before ++ cs)) = some (n, before ++ cs) := by
  have hend := endsWord_append hbefore cs
  cases n with
  | none =>
      have hnone : name? (before ++ cs) = none := by
        rw [name?, identifier?, splitWord_of_endsWord hend]
        rfl
      rw [printClause_none, List.nil_append, optional?, hnone]
  | some n =>
      rw [printClause_some, List.nil_append, optional?, name?_print (h n rfl) d hend]

theorem commaList?_print {items : List Node} (hne : items ≠ []) (h : ∀ n ∈ items, IsName n)
    (d : Depth) (cs : List Char) :
    commaList? name? (commas (items.map (print d)) ++ ';' :: cs) = some (items, ';' :: cs) := by
  have hread : commaList? name? (commas (items.map (print d)) ++ ';' :: cs)
      = some (items.map id, ';' :: cs) := by
    refine commaList?_commas hne ?_ ?_ rfl rfl
    · intro n hn rest hrest
      exact name?_print (h n hn) d hrest
    · intro n hn
      obtain ⟨c, text, hc, -⟩ := (h n hn).exists_cons d
      rw [hc]
      exact List.cons_ne_nil c text
  rwa [List.map_id] at hread

theorem parameters?_print {items : List Node} (h : ∀ n ∈ items, IsName n) (d : Depth)
    (cs : List Char) :
    bracketed? name? ')' (commas (items.map (print d)) ++ ')' :: cs) = some (items, cs) := by
  have hread : bracketed? name? ')' (commas (items.map (print d)) ++ ')' :: cs)
      = some (items.map id, cs) := by
    refine bracketed?_commas ?_ ?_ rfl (by decide) cs
    · intro n hn rest hrest
      exact name?_print (h n hn) d hrest
    · intro n hn
      obtain ⟨c, text, hc, hword⟩ := (h n hn).exists_cons d
      rw [hc, List.head?_cons, Option.any_some, bne_iff_ne]
      rintro rfl
      exact absurd hword (by decide)
  rwa [List.map_id] at hread

/-! ## Blocks are read back -/

/-- Statements, each with its semicolon and the end of its line. -/
def ended (d : Depth) (texts : List (List Char)) : List Char :=
  texts.flatMap fun text => d.indent ++ text ++ [';', '\n']

theorem length_le_length_ended (d : Depth) (texts : List (List Char)) :
    texts.length ≤ (ended d texts).length := by
  induction texts with
  | nil => exact Nat.zero_le _
  | cons text texts ih =>
      rw [ended] at ih
      rw [ended, List.flatMap_cons, List.length_append, List.length_append, List.length_cons]
      simp only [List.length_cons]
      omega

theorem lines_append_newline (d : Depth) {texts : List (List Char)} (h : texts ≠ []) :
    lines d texts ++ ['\n'] = ended d texts := by
  induction texts with
  | nil => exact absurd rfl h
  | cons text texts ih =>
      cases texts with
      | nil => simp [lines, ended]
      | cons t texts =>
          have hrest := ih (List.cons_ne_nil t texts)
          rw [lines, List.map_cons] at hrest
          rw [lines, List.map_cons, List.map_cons, List.intercalate_cons_cons, List.append_assoc,
            List.append_assoc, hrest]
          simp [ended]

/-- No statement begins with a blank; a list has its brace in front. -/
theorem IsStatement.head?_print {s : Node} (h : IsStatement s) {d : Depth}
    (hd : d.Braces s.nesting) (cs : List Char) :
    (print d s ++ cs).head?.all (· != ' ') = true := by
  cases h with
  | name h =>
      obtain ⟨c, text, hc, hword⟩ := h.exists_cons d
      rw [hc, List.cons_append, List.head?_cons, Option.all_some, bne_iff_ne]
      rintro rfl
      exact absurd hword (by decide)
  | block h =>
      cases h with
      | statements h =>
          rw [print_statements, block_of_isTop_eq_false hd.1]
          rfl
  | conditional h => cases h <;> rfl
  | @function name => cases name <;> rfl
  | _ => rfl

theorem dropWhile_indent_append (d : Depth) {cs : List Char}
    (h : cs.head?.all (· != ' ') = true) : (d.indent ++ cs).dropWhile (· == ' ') = cs := by
  have hblanks : ∀ c ∈ d.indent, (c == ' ') = true := by
    intro c hc
    rw [beq_iff_eq]
    exact List.eq_of_mem_replicate hc
  rw [List.dropWhile_append_of_pos hblanks]
  cases cs with
  | nil => rfl
  | cons c cs =>
      rw [List.head?_cons, Option.all_some, bne_iff_ne] at h
      exact List.dropWhile_cons_of_neg (by simp [h])

/-- A reader reads back the statements up to a size, where their lists have braces and in front of
their semicolon, and reads no statement at the end of a block. -/
structure ReadsStatements (size : Nat) (read? : Reader Node) : Prop where
  statement : ∀ s, IsStatement s → sizeOf s ≤ size → ∀ d : Depth, d.Braces s.nesting → ∀ cs,
    read? (print d s ++ ';' :: cs) = some (s, ';' :: cs)
  stop : ∀ c ∈ ['\n', '\x7d'], ∀ cs, read? (c :: cs) = none

section

variable {size : Nat} {inner? : Reader Node}

theorem ReadsStatements.lines?_stop (h : ReadsStatements size inner?) {c : Char}
    (hc : c ∈ ['\n', '\x7d']) (limit : Nat) (cs : List Char) :
    lines? inner? limit (c :: cs) = some ([], c :: cs) := by
  cases limit with
  | zero => rfl
  | succ limit =>
      have hblank : ¬ (c == ' ') = true := by
        rw [beq_iff_eq]
        rintro rfl
        exact absurd hc (by decide)
      rw [lines?, List.dropWhile_cons_of_neg (p := (· == ' ')) hblank, h.stop c hc]

theorem ReadsStatements.lines?_ended (h : ReadsStatements size inner?) {items : List Node}
    (hitems : ∀ s ∈ items, IsStatement s) (hsize : ∀ s ∈ items, sizeOf s ≤ size) {d : Depth}
    (hd : ∀ s ∈ items, d.Braces s.nesting) {limit : Nat} (hlimit : items.length ≤ limit) (cs : List Char) :
    lines? inner? limit (ended d (items.map (print d)) ++ '\x7d' :: cs)
      = some (items, '\x7d' :: cs) := by
  induction items generalizing limit with
  | nil => exact h.lines?_stop (by decide) limit cs
  | cons s items ih =>
      -- every line takes one from the limit
      obtain ⟨limit, rfl⟩ : ∃ n, limit = n + 1 := ⟨limit - 1, by simp at hlimit; omega⟩
      rw [List.forall_mem_cons] at hitems hsize hd
      have hrest := ih hitems.2 hsize.2 hd.2 (by simpa using hlimit)
      have htext : ended d ((s :: items).map (print d)) ++ '\x7d' :: cs
          = d.indent ++ (print d s ++ ';' :: '\n' ::
            (ended d (items.map (print d)) ++ '\x7d' :: cs)) := by
        rw [ended, ended, List.map_cons, List.flatMap_cons]
        simp only [List.append_assoc, List.cons_append, List.nil_append]
      have hnewline : strip? [';', '\n'] (';' :: '\n' ::
          (ended d (items.map (print d)) ++ '\x7d' :: cs))
            = some (ended d (items.map (print d)) ++ '\x7d' :: cs) := strip?_append [';', '\n'] _
      rw [htext, lines?, dropWhile_indent_append d (hitems.1.head?_print hd.1 _),
        h.statement s hitems.1 hsize.1 d hd.1]
      simp only [hnewline, hrest, Option.bind_eq_bind, Option.bind_some]

/-- Statements in braces are read back, whatever their indentation. -/
theorem ReadsStatements.block?_braces (h : ReadsStatements size inner?) {items : List Node}
    (hitems : ∀ s ∈ items, IsStatement s) (hsize : sizeOf items ≤ size + 1) {d : Depth}
    (hd : d.Braces (nestingEach items)) (cs : List Char) :
    block? inner? (['\x7b', '\n'] ++ lines d (items.map (print d)) ++ ['\n', '\x7d'] ++ cs)
      = some (list .statements items, cs) := by
  rw [List.append_assoc, List.append_assoc, block?, strip?_append]
  cases items with
  | nil =>
      have hstop : lines? inner? (['\n', '\x7d'] ++ cs).length (['\n', '\x7d'] ++ cs)
          = some ([], ['\n', '\x7d'] ++ cs) := h.lines?_stop (by decide) _ _
      rw [List.map_nil, lines, List.map_nil, List.intercalate_nil, List.nil_append]
      simp only [hstop, List.isEmpty_nil, if_true, strip?_append, Option.bind_eq_bind,
        Option.bind_some]
  | cons s items =>
      -- the end of line in front of the brace belongs to the last statement
      have hended := lines_append_newline d (List.cons_ne_nil (print d s) (items.map (print d)))
      have hlines : lines d ((s :: items).map (print d)) ++ (['\n', '\x7d'] ++ cs)
          = ended d ((s :: items).map (print d)) ++ '\x7d' :: cs := by
        rw [List.map_cons, ← hended, List.append_assoc]
        rfl
      have hlimit : (s :: items).length
          ≤ (ended d ((s :: items).map (print d)) ++ '\x7d' :: cs).length := by
        have hended := length_le_length_ended d ((s :: items).map (print d))
        rw [List.length_map] at hended
        rw [List.length_append]
        omega
      have hmem : ∀ t ∈ s :: items, sizeOf t ≤ size := by
        intro t ht
        have hlt := List.sizeOf_lt_of_mem ht
        omega
      have hbraces : ∀ t ∈ s :: items, d.Braces t.nesting :=
        fun t ht => hd.mono (nesting_le_nestingEach ht)
      have hclose : strip? ['\x7d'] ('\x7d' :: cs) = some cs := strip?_append ['\x7d'] cs
      rw [hlines]
      simp only [h.lines?_ended hitems hmem hbraces hlimit cs, List.isEmpty_cons,
        Bool.false_eq_true, if_false, hclose, Option.bind_eq_bind, Option.bind_some]

theorem ReadsStatements.block?_print (h : ReadsStatements size inner?) {b : Node}
    (hb : IsBlock b) (hsize : sizeOf b ≤ size + 1) {d : Depth} (hd : d.Braces b.nesting)
    (cs : List Char) : block? inner? (print d b ++ cs) = some (b, cs) := by
  cases hb with
  | @statements items h' =>
      rw [list.sizeOf_spec] at hsize
      rw [print_statements, block_of_isTop_eq_false hd.1]
      exact h.block?_braces h' (by omega) hd.2 cs

/-! ## Statements are read back -/

theorem closing_of_isBlock {b : Node} (h : IsBlock b) (text : List Char) : closing b text = [] := by
  cases h with
  | statements h => rfl

theorem readStatement_opening (inner? : Reader Node) (o : Opening) {cs : List Char}
    (hcs : endsWord cs = true) :
    readStatement inner? (o.word.toList ++ cs) = behind? inner? o cs := by
  rw [readStatement, splitWord_append o.all_isWordChar_word hcs]
  simp only [String.ofList_toList, Opening.ofWord?_word]

theorem readStatement_name (inner? : Reader Node) {n : Node} (h : IsName n) (d : Depth)
    {cs : List Char} (hcs : endsWord cs = true) :
    readStatement inner? (print d n ++ cs) = some (n, cs) := by
  cases h with
  | @ident s h =>
      rw [print_ident, readStatement, splitWord_append h.word hcs]
      simp only [String.ofList_toList, Opening.ofWord?_of_isIdentifier h]
      exact name?_print (.ident h) d hcs

theorem readStatement_declaration (inner? : Reader Node) {items : List Node} (hne : items ≠ [])
    (hitems : ∀ n ∈ items, IsName n) (d : Depth) (cs : List Char) :
    readStatement inner? (print d (list .declaration items) ++ ';' :: cs)
      = some (list .declaration items, ';' :: cs) := by
  have htext : print d (list .declaration items) ++ ';' :: cs
      = Opening.declaration.word.toList ++ ([' '] ++ (commas (items.map (print d))
        ++ ';' :: cs)) := by
    rw [print_declaration]
    simp only [List.append_assoc]
    rfl
  rw [htext, readStatement_opening inner? .declaration rfl, behind?]
  simp only [strip?_append, commaList?_print hne hitems, Option.bind_eq_bind, Option.bind_some]

theorem readStatement_returns (inner? : Reader Node) {value : Option Node}
    (hvalue : ∀ n ∈ value, IsName n) (d : Depth) (cs : List Char) :
    readStatement inner? (print d (returns value) ++ ';' :: cs)
      = some (returns value, ';' :: cs) := by
  have htext : print d (returns value) ++ ';' :: cs
      = Opening.returns.word.toList ++ (printClause d [' '] value ++ ';' :: cs) := by
    rw [print_returns, List.append_assoc]
    rfl
  cases value with
  | none =>
      rw [htext, readStatement_opening inner? .returns rfl]
      rfl
  | some n =>
      have hread : clause? [' '] name? ([' '] ++ (print d n ++ ';' :: cs))
          = some (some n, ';' :: cs) := clause?_some _ (name?_print (hvalue n rfl) d rfl)
      rw [htext, printClause_some, List.append_assoc, readStatement_opening inner? .returns rfl,
        behind?, hread]
      rfl

theorem readStatement_throws (inner? : Reader Node) {n : Node} (hn : IsName n) (d : Depth)
    (cs : List Char) :
    readStatement inner? (print d (single .throws n) ++ ';' :: cs)
      = some (single .throws n, ';' :: cs) := by
  have htext : print d (single .throws n) ++ ';' :: cs
      = Opening.throws.word.toList ++ ([' '] ++ (print d n ++ ([';'] ++ cs))) := by
    rw [print_single, SingleKind.write_throws]
    simp only [List.append_assoc]
    rfl
  rw [htext, readStatement_opening inner? .throws rfl, behind?]
  simp (disch := decide) only [strip?_append, name?_print_append hn, Option.bind_eq_bind,
    Option.bind_some]
  rfl

theorem ReadsStatements.header?_print (h : ReadsStatements size inner?) {c body : Node}
    (hc : IsName c) (hbody : IsBlock body) (hsize : sizeOf body ≤ size + 1) {d : Depth}
    (hd : d.Braces body.nesting) (cs : List Char) :
    header? inner? (['('] ++ (print d c ++ ([')', ' '] ++ (print d.atLeastBlock body ++ cs))))
      = some ((c, body), cs) := by
  have hname : name? (print d c ++ ([')', ' '] ++ (print d.atLeastBlock body ++ cs)))
      = some (c, _) := name?_print hc d rfl
  have hblock := h.block?_print hbody hsize hd.atLeastBlock cs
  rw [header?]
  simp only [strip?_append, hname, hblock, Option.bind_eq_bind, Option.bind_some]

theorem ReadsStatements.clause?_block (h : ReadsStatements size inner?) {b : Option Node}
    (hb : ∀ n ∈ b, IsBlock n) (hsize : sizeOf b ≤ size + 1) {d : Depth}
    (hd : d.Braces (nestingOption b)) (cs : List Char) :
    clause? " finally ".toList (block? inner?)
        (printClause d.atLeastBlock " finally ".toList b ++ ';' :: cs)
      = some (b, ';' :: cs) := by
  cases b with
  | none => exact clause?_none _ rfl
  | some n =>
      rw [Option.some.sizeOf_spec] at hsize
      rw [printClause_some, List.append_assoc]
      exact clause?_some _ (h.block?_print (hb n rfl) (by omega) hd.atLeastBlock _)

/-- A conditional is read back, with or without a second branch. -/
theorem ReadsStatements.conditional (h : ReadsStatements size inner?) {c body : Node}
    (hc : IsName c) (hbody : IsBlock body) {otherwise : Option Node}
    (hotherwise : ∀ n ∈ otherwise, IsStatement n)
    (hsize : sizeOf (ifElse c body otherwise) ≤ size + 1) {d : Depth}
    (hd : d.Braces (ifElse c body otherwise).nesting) (cs : List Char) :
    readStatement inner? (print d (ifElse c body otherwise) ++ ';' :: cs)
      = some (ifElse c body otherwise, ';' :: cs) := by
  rw [ifElse.sizeOf_spec] at hsize
  rw [nesting] at hd
  have hbraces : d.Braces body.nesting := hd.mono (by omega)
  have hbraces' : d.Braces (nestingOption otherwise) := hd.mono (by omega)
  have htext : print d (ifElse c body otherwise) ++ ';' :: cs
      = Opening.conditional.word.toList ++ (['('] ++ (print d c ++ ([')', ' '] ++
        (print d.atLeastBlock body ++
          (printClause d.atLeastBlock " else ".toList otherwise ++ ';' :: cs))))) := by
    rw [print_ifElse, closing_of_isBlock hbody, List.nil_append]
    simp only [List.append_assoc]
    rfl
  have helse : clause? " else ".toList inner?
      (printClause d.atLeastBlock " else ".toList otherwise ++ ';' :: cs)
        = some (otherwise, ';' :: cs) := by
    cases otherwise with
    | none => exact clause?_none _ rfl
    | some n =>
        rw [Option.some.sizeOf_spec] at hsize
        rw [printClause_some, List.append_assoc]
        exact clause?_some _
          (h.statement n (hotherwise n rfl) (by omega) _ hbraces'.atLeastBlock cs)
  rw [htext, readStatement_opening inner? .conditional rfl, behind?]
  simp only [h.header?_print hc hbody (by omega) hbraces, helse, Option.bind_eq_bind, Option.bind_some]

theorem ReadsStatements.forLoop (h : ReadsStatements size inner?) {init test step : Option Node}
    {body : Node} (hinit : ∀ n ∈ init, IsName n) (htest : ∀ n ∈ test, IsName n)
    (hstep : ∀ n ∈ step, IsName n) (hbody : IsBlock body) (hsize : sizeOf body ≤ size + 1)
    {d : Depth} (hd : d.Braces body.nesting) (cs : List Char) :
    readStatement inner? (print d (forLoop init test step body) ++ ';' :: cs)
      = some (forLoop init test step body, ';' :: cs) := by
  have htext : print d (Node.forLoop init test step body) ++ ';' :: cs
      = Opening.loop.word.toList ++ (['('] ++ (printClause d [] init ++ ([';', ' '] ++
        (printClause d [] test ++ ([';', ' '] ++ (printClause d [] step ++ ([')', ' '] ++
          (print d.atLeastBlock body ++ ';' :: cs)))))))) := by
    rw [print_forLoop]
    simp only [List.append_assoc]
    rfl
  have hsteps : steps? inner? init ([';', ' '] ++ (printClause d [] test ++ ([';', ' '] ++
      (printClause d [] step ++ ([')', ' '] ++ (print d.atLeastBlock body ++ ';' :: cs))))))
        = some (Node.forLoop init test step body, ';' :: cs) := by
    have hblock := h.block?_print hbody hsize hd.atLeastBlock (';' :: cs)
    rw [steps?]
    simp (disch := decide) only [strip?_append, optional?_print_append htest,
      optional?_print_append hstep, hblock,
      Option.bind_eq_bind, Option.bind_some]
  -- the semicolon shows that this is a counting loop, with or without a first part
  have hnone : ∀ rest, strip? " in ".toList ([';', ' '] ++ rest) = none := fun _ => rfl
  rw [htext, readStatement_opening inner? .loop rfl, behind?]
  simp (disch := decide) only [strip?_append, optional?_print_append hinit, hnone,
    Option.bind_eq_bind, Option.bind_some]
  cases init with
  | none => exact hsteps
  | some init => exact hsteps

theorem ReadsStatements.forIn (h : ReadsStatements size inner?) {left right body : Node}
    (hleft : IsName left) (hright : IsName right) (hbody : IsBlock body)
    (hsize : sizeOf body ≤ size + 1) {d : Depth} (hd : d.Braces body.nesting) (cs : List Char) :
    readStatement inner? (print d (forIn left right body) ++ ';' :: cs)
      = some (forIn left right body, ';' :: cs) := by
  have htext : print d (Node.forIn left right body) ++ ';' :: cs
      = Opening.loop.word.toList ++ (['('] ++ (printClause d [] (some left) ++ (" in ".toList ++
        (print d right ++ ([')', ' '] ++ (print d.atLeastBlock body ++ ';' :: cs)))))) := by
    rw [print_forIn]
    simp only [List.append_assoc]
    rfl
  have hsome : ∀ n ∈ some left, IsName n := by
    intro n hn
    rwa [← Option.some.inj hn]
  have hblock := h.block?_print hbody hsize hd.atLeastBlock (';' :: cs)
  rw [htext, readStatement_opening inner? .loop rfl, behind?]
  simp (disch := decide) only [strip?_append, optional?_print_append hsome,
    name?_print_append hright, hblock,
    Option.bind_eq_bind, Option.bind_some]

theorem ReadsStatements.clause?_handler (h : ReadsStatements size inner?)
    {handled : Option (Node × Node)} (hhandled : ∀ p ∈ handled, IsName p.1 ∧ IsBlock p.2)
    (hsize : sizeOf (handled.map Prod.snd) ≤ size + 1) {d : Depth}
    (hd : d.Braces (nestingOption (handled.map Prod.snd))) {cs : List Char}
    (hcs : strip? " catch".toList cs = none) :
    clause? " catch".toList (header? inner?)
        (printClause d.atLeastBlock
          (" catch(".toList ++ printClause d [] (handled.map Prod.fst) ++ [')', ' '])
          (handled.map Prod.snd) ++ cs)
      = some (handled, cs) := by
  cases handled with
  | none => exact clause?_none _ hcs
  | some p =>
      obtain ⟨hp, hhandler⟩ := hhandled p rfl
      rw [Option.map_some, Option.some.sizeOf_spec] at hsize
      have hheader := h.header?_print hp hhandler (by omega) hd cs
      rw [Option.map_some, Option.map_some, printClause_some, printClause_some, List.nil_append]
      simp only [List.append_assoc]
      exact clause?_some _ hheader

theorem ReadsStatements.tryCatch (h : ReadsStatements size inner?) {body : Node}
    (handled : Option (Node × Node)) {finalizer : Option Node} (hbody : IsBlock body)
    (hhandled : ∀ p ∈ handled, IsName p.1 ∧ IsBlock p.2) (hfinalizer : ∀ b ∈ finalizer, IsBlock b)
    (hsize : sizeOf (tryCatch body (handled.map Prod.fst) (handled.map Prod.snd) finalizer)
      ≤ size + 1) {d : Depth}
    (hd : d.Braces (tryCatch body (handled.map Prod.fst) (handled.map Prod.snd) finalizer).nesting)
    (cs : List Char) :
    readStatement inner? (print d (tryCatch body (handled.map Prod.fst) (handled.map Prod.snd)
        finalizer) ++ ';' :: cs)
      = some (tryCatch body (handled.map Prod.fst) (handled.map Prod.snd) finalizer,
          ';' :: cs) := by
  rw [tryCatch.sizeOf_spec] at hsize
  rw [nesting] at hd
  have hbraces : d.Braces body.nesting := hd.mono (by omega)
  have hhandler : d.Braces (nestingOption (handled.map Prod.snd)) := hd.mono (by omega)
  have hfinally : d.Braces (nestingOption finalizer) := hd.mono (by omega)
  have htext : print d (Node.tryCatch body (handled.map Prod.fst) (handled.map Prod.snd)
      finalizer) ++ ';' :: cs
        = Opening.guarded.word.toList ++ ([' '] ++ (print d.atLeastBlock body ++
          (printClause d.atLeastBlock
            (" catch(".toList ++ printClause d [] (handled.map Prod.fst) ++ [')', ' '])
            (handled.map Prod.snd) ++
              (printClause d.atLeastBlock " finally ".toList finalizer ++ ';' :: cs)))) := by
    rw [print_tryCatch]
    simp only [List.append_assoc]
    rfl
  -- both clauses begin with a blank, and their first letters tell them apart
  have hcatch : strip? " catch".toList
      (printClause d.atLeastBlock " finally ".toList finalizer ++ ';' :: cs) = none := by
    cases finalizer with
    | none => rfl
    | some b => rfl
  have hblock := fun rest => h.block?_print hbody (by omega) hbraces.atLeastBlock rest
  rw [htext, readStatement_opening inner? .guarded rfl, behind?]
  simp only [strip?_append, hblock, h.clause?_handler hhandled (by omega) hhandler hcatch,
    h.clause?_block hfinalizer (by omega) hfinally cs, Option.bind_eq_bind, Option.bind_some]

theorem ReadsStatements.function (h : ReadsStatements size inner?) {name : Option String}
    {parameters : List Node} {body : Node} (hname : ∀ s ∈ name, IsIdentifier s)
    (hparameters : ∀ p ∈ parameters, IsName p) (hbody : IsBlock body)
    (hsize : sizeOf body ≤ size + 1) {d : Depth} (hd : d.Braces body.nesting) (cs : List Char) :
    readStatement inner? (print d (function name parameters body) ++ ';' :: cs)
      = some (function name parameters body, ';' :: cs) := by
  have hblock := h.block?_print hbody hsize hd.atLeastBlock (';' :: cs)
  have hlist := parameters?_print hparameters d ([' '] ++ (print d.atLeastBlock body ++ ';' :: cs))
  cases name with
  | none =>
      have htext : print d (Node.function none parameters body) ++ ';' :: cs
          = Opening.function.word.toList ++ (['('] ++ (commas (parameters.map (print d)) ++
            ')' :: ([' '] ++ (print d.atLeastBlock body ++ ';' :: cs)))) := by
        rw [print_function_none]
        simp only [List.append_assoc]
        rfl
      have hnone : ∀ rest, clause? [' '] identifier? (['('] ++ rest) = some (none, ['('] ++ rest) :=
        fun _ => clause?_none _ rfl
      rw [htext, readStatement_opening inner? .function rfl, behind?]
      simp only [hnone, strip?_append, hlist, hblock, Option.bind_eq_bind, Option.bind_some]
  | some s =>
      have htext : print d (Node.function (some s) parameters body) ++ ';' :: cs
          = Opening.function.word.toList ++ ([' '] ++ (s.toList ++ (['('] ++
            (commas (parameters.map (print d)) ++
              ')' :: ([' '] ++ (print d.atLeastBlock body ++ ';' :: cs)))))) := by
        rw [print_function_some]
        simp only [List.append_assoc]
        rfl
      have hsome : ∀ rest, clause? [' '] identifier? ([' '] ++ (s.toList ++ (['('] ++ rest)))
          = some (some s, ['('] ++ rest) :=
        fun _ => clause?_some _ (identifier?_append (hname s rfl) rfl)
      rw [htext, readStatement_opening inner? .function rfl, behind?]
      simp only [hsome, strip?_append, hlist, hblock, Option.bind_eq_bind, Option.bind_some]

theorem ReadsStatements.whileDo (h : ReadsStatements size inner?) {c body : Node}
    (hc : IsName c) (hbody : IsBlock body) (hsize : sizeOf body ≤ size + 1) {d : Depth}
    (hd : d.Braces body.nesting) (cs : List Char) :
    readStatement inner? (print d (pair .whileDo c body) ++ ';' :: cs)
      = some (pair .whileDo c body, ';' :: cs) := by
  have htext : print d (pair .whileDo c body) ++ ';' :: cs
      = Opening.whileDo.word.toList ++ (['('] ++ (print d c ++ ([')', ' '] ++
        (print d.atLeastBlock body ++ ';' :: cs)))) := by
    rw [print_whileDo]
    simp only [List.append_assoc]
    rfl
  rw [htext, readStatement_opening inner? .whileDo rfl, behind?]
  simp only [h.header?_print hc hbody hsize hd, Option.bind_eq_bind, Option.bind_some]

theorem ReadsStatements.doWhile (h : ReadsStatements size inner?) {c body : Node}
    (hc : IsName c) (hbody : IsBlock body) (hsize : sizeOf body ≤ size + 1) {d : Depth}
    (hd : d.Braces body.nesting) (cs : List Char) :
    readStatement inner? (print d (pair .doWhile body c) ++ ';' :: cs)
      = some (pair .doWhile body c, ';' :: cs) := by
  have htext : print d (pair .doWhile body c) ++ ';' :: cs
      = Opening.doWhile.word.toList ++ ([' '] ++ (print d.atLeastBlock body ++
        (" while(".toList ++ (print d c ++ ([')'] ++ ';' :: cs))))) := by
    rw [print_doWhile, closing_of_isBlock hbody, List.append_nil]
    simp only [List.append_assoc]
    rfl
  have hblock := fun rest => h.block?_print hbody hsize hd.atLeastBlock rest
  rw [htext, readStatement_opening inner? .doWhile rfl, behind?]
  simp (disch := decide) only [strip?_append, hblock, name?_print_append hc, Option.bind_eq_bind,
    Option.bind_some]

theorem ReadsStatements.block (h : ReadsStatements size inner?) {b : Node} (hb : IsBlock b)
    (hsize : sizeOf b ≤ size + 1) {d : Depth} (hd : d.Braces b.nesting) (cs : List Char) :
    readStatement inner? (print d b ++ cs) = some (b, cs) := by
  -- the word in front of a block is the empty one
  have hend : endsWord (print d b ++ cs) = true := by
    cases hb with
    | statements hb =>
        rw [print_statements, block_of_isTop_eq_false hd.1]
        rfl
  have hread := readStatement_opening inner? .block hend
  rw [show Opening.block.word.toList = [] from rfl, List.nil_append] at hread
  rw [hread, behind?, h.block?_print hb hsize hd]

/-- One more level of blocks is read back. -/
theorem ReadsStatements.step (h : ReadsStatements size inner?) :
    ReadsStatements (size + 1) (readStatement inner?) where
  stop := by
    intro c hc cs
    simp only [List.mem_cons, List.not_mem_nil, or_false] at hc
    rcases hc with rfl | rfl
    · rfl
    · rfl
  statement := by
    intro s hs hsize d hd cs
    cases hs with
    | name hn => exact readStatement_name inner? hn d rfl
    | declaration hne hitems => exact readStatement_declaration inner? hne hitems d cs
    | returns hvalue => exact readStatement_returns inner? hvalue d cs
    | throws hn => exact readStatement_throws inner? hn d cs
    | breakOut =>
        show readStatement inner? (Opening.breakOut.word.toList ++ ([';'] ++ ';' :: cs)) = _
        rw [readStatement_opening inner? .breakOut rfl, behind?, strip?_append]
        rfl
    | continueOn =>
        show readStatement inner? (Opening.continueOn.word.toList ++ ([';'] ++ ';' :: cs)) = _
        rw [readStatement_opening inner? .continueOn rfl, behind?, strip?_append]
        rfl
    | block hb => exact h.block hb hsize hd _
    | conditional hn =>
        cases hn with
        | alone hc hbody =>
            refine h.conditional hc hbody ?_ hsize hd cs
            intro n hn
            exact absurd hn (by simp)
        | block hc hbody hotherwise =>
            refine h.conditional hc hbody ?_ hsize hd cs
            intro n hn
            exact .block (Option.some.inj hn ▸ hotherwise)
        | chain hc hbody hotherwise =>
            refine h.conditional hc hbody ?_ hsize hd cs
            intro n hn
            exact .conditional (Option.some.inj hn ▸ hotherwise)
    | whileDo hc hbody =>
        rw [pair.sizeOf_spec] at hsize
        exact h.whileDo hc hbody (by omega) (hd.mono (Nat.le_max_right ..)) cs
    | doWhile hc hbody =>
        rw [pair.sizeOf_spec] at hsize
        exact h.doWhile hc hbody (by omega) (hd.mono (Nat.le_max_left ..)) cs
    | forLoop hinit htest hstep hbody =>
        rw [forLoop.sizeOf_spec] at hsize
        rw [nesting] at hd
        exact h.forLoop hinit htest hstep hbody (by omega) (hd.mono (by omega)) cs
    | forIn hleft hright hbody =>
        rw [forIn.sizeOf_spec] at hsize
        rw [nesting] at hd
        exact h.forIn hleft hright hbody (by omega) (hd.mono (by omega)) cs
    | unhandled hbody hfinalizer =>
        exact h.tryCatch none hbody (fun p hp => absurd hp (by simp)) hfinalizer hsize hd cs
    | @handled body p handler finalizer hbody hp hhandler hfinalizer =>
        refine h.tryCatch (some (p, handler)) hbody ?_ hfinalizer hsize hd cs
        intro q hq
        rw [← Option.some.inj hq]
        exact ⟨hp, hhandler⟩
    | function hname hparameters hbody =>
        rw [function.sizeOf_spec] at hsize
        exact h.function hname hparameters hbody (by omega) (hd.mono (Nat.le_max_right ..)) cs

end

theorem readsStatements_statement? (limit : Nat) : ReadsStatements limit (statement? limit) := by
  induction limit with
  | zero =>
      refine ⟨fun s _ hsize => ?_, fun _ _ _ => rfl⟩
      cases s <;> simp at hsize
  | succ limit ih => exact ih.step

/-! ## Programs -/

/-- Two statement lists have one text only when they are one tree, at every depth from which the
depths do not begin again on the way in. -/
theorem IsBlock.renderAt_inj {p q : Node} (hp : IsBlock p) (hq : IsBlock q) {d : Depth}
    (hpd : d.level.toNat + p.nesting ≤ UInt64.size) (hqd : d.level.toNat + q.nesting ≤ UInt64.size) :
    p.renderAt d = q.renderAt d ↔ p = q := by
  refine ⟨fun h => ?_, fun h => by rw [h]⟩
  have htext : print d p = print d q := String.ofList_injective h
  cases hp with
  | @statements xs hxs =>
      cases hq with
      | @statements ys hys =>
          -- the program itself has no braces, but the text between them is the same
          have hlines : lines d.nested (xs.map (print d.nested))
              = lines d.nested (ys.map (print d.nested)) := by
            rw [print_statements, print_statements] at htext
            cases hd : d.isTop with
            | true => rwa [block_of_isTop hd, block_of_isTop hd] at htext
            | false =>
                rw [block_of_isTop_eq_false hd, block_of_isTop_eq_false hd,
                  List.append_left_inj, List.append_right_inj] at htext
                exact htext
          have hreads := readsStatements_statement? (max (sizeOf xs) (sizeOf ys))
          have hleft := hreads.block?_braces hxs (by omega) (Depth.braces_nested hpd) []
          have hright := hreads.block?_braces hys (by omega) (Depth.braces_nested hqd) []
          rw [hlines, hright, Option.some.injEq, Prod.mk.injEq] at hleft
          exact hleft.1.symm

/-- A conditional with a second branch. -/
def branching (otherwise : Node) : Node :=
  program [ifElse (ident "a") (program [word .breakOut]) (some otherwise)]

/-- A conditional with one branch. -/
def guard : Node := ifElse (ident "b") (program []) none

theorem isConditional_guard : IsConditional guard :=
  .alone (.ident (by decide)) (.statements (by simp))

theorem isBlock_breakOut : IsBlock (program [word .breakOut]) :=
  .statements (by rw [List.forall_mem_singleton]; exact .breakOut)

/-- A conditional as the second branch has another text than the block around it. -/
theorem render_branching :
    IsBlock (branching guard) ∧ IsBlock (branching (program [guard])) ∧
      Depth.top.level.toNat + (branching guard).nesting ≤ UInt64.size ∧
      Depth.top.level.toNat + (branching (program [guard])).nesting ≤ UInt64.size ∧
      (branching guard).render ≠ (branching (program [guard])).render := by
  have hchain : IsBlock (branching guard) := .statements (by
    rw [List.forall_mem_singleton]
    exact .conditional (.chain (.ident (by decide)) isBlock_breakOut isConditional_guard))
  have hblock : IsBlock (branching (program [guard])) := .statements (by
    rw [List.forall_mem_singleton]
    refine .conditional (.block (.ident (by decide)) isBlock_breakOut (.statements ?_))
    rw [List.forall_mem_singleton]
    exact .conditional isConditional_guard)
  have hlevel : Depth.top.level.toNat + (branching guard).nesting ≤ UInt64.size := by decide
  have hlevel' : Depth.top.level.toNat + (branching (program [guard])).nesting ≤ UInt64.size := by
    decide
  refine ⟨hchain, hblock, hlevel, hlevel', ?_⟩
  rw [render, render, Ne, hchain.renderAt_inj hblock hlevel hlevel']
  decide

/-- At the last depth the depths begin again: a list inside a list has no braces there, and its
text does not tell where it begins. -/
theorem renderAt_last_eq :
    IsBlock (program [program [ident "a", ident "b"]]) ∧
      IsBlock (program [ident "a", program [ident "b"]]) ∧
      (program [program [ident "a", ident "b"]]).renderAt .last
        = (program [ident "a", program [ident "b"]]).renderAt .last ∧
      program [program [ident "a", ident "b"]] ≠ program [ident "a", program [ident "b"]] := by
  have ha : IsStatement (ident "a") := .name (.ident (by decide))
  have hb : IsStatement (ident "b") := .name (.ident (by decide))
  have hinner : IsStatement (program [ident "a", ident "b"]) :=
    .block (.statements (by simp [ha, hb]))
  have hinner' : IsStatement (program [ident "b"]) := .block (.statements (by simp [hb]))
  exact ⟨.statements (by simp [hinner]), .statements (by simp [ha, hinner']), by decide, by decide⟩

end Node

end ScriptHost.Tree
