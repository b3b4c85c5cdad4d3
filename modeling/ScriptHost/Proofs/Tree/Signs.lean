import ScriptHost.Proofs.Tree.Printed

/-!
# Signs stay apart

The sign tokens of a text are read from the left with the longest match: two equal signs in a row
are one token (`scanSigns`). The sign tokens of a tree are those of its operators and of its leaf
texts, in print order (`Node.signs`). Main statement: reading the text of a tree gives the tokens
of the tree (`Node.scanSigns_renderAt`), so no two of them meet to form another.

The induction needs more than that: the text of a tree reads the same whatever stands behind it
(`Node.scanSigns_print`). It may end in a sign, but then the pair that the sign belongs to is
complete.
-/

set_option autoImplicit false

namespace ScriptHost.Tree

/-! ## Reading signs -/

/-- A sign token. -/
inductive Sign where
  | plus
  | minus
  | increment
  | decrement
  deriving DecidableEq

/-- The sign tokens of a text: each run of signs is cut from the left, a pair of equal signs
before a single one. -/
def scanSigns : List Char → List Sign
  | '+' :: '+' :: text => .increment :: scanSigns text
  | '-' :: '-' :: text => .decrement :: scanSigns text
  | '+' :: text => .plus :: scanSigns text
  | '-' :: text => .minus :: scanSigns text
  | _ :: text => scanSigns text
  | [] => []

/-- Whether a sign at the end of one text meets a sign at the front of the next. -/
def signsMeet (before text : List Char) : Bool :=
  before.getLast?.any isSign && text.head?.any isSign

theorem spacing_eq (operator operand : List Char) :
    spacing operator operand = if signsMeet operator operand then [' '] else [] := rfl

theorem scanSigns_cons {c : Char} (h : isSign c = false) (text : List Char) :
    scanSigns (c :: text) = scanSigns text := by
  obtain ⟨hplus, hminus⟩ := isSign_eq_false.mp h
  simp [scanSigns, hplus, hminus]

theorem scanSigns_plus {text : List Char} (h : text.head? ≠ some '+') :
    scanSigns ('+' :: text) = .plus :: scanSigns text := by
  cases text with
  | nil => rfl
  | cons c text =>
      have hc : c ≠ '+' := fun hc => h (by rw [hc]; rfl)
      simp [scanSigns, hc]

theorem scanSigns_minus {text : List Char} (h : text.head? ≠ some '-') :
    scanSigns ('-' :: text) = .minus :: scanSigns text := by
  cases text with
  | nil => rfl
  | cons c text =>
      have hc : c ≠ '-' := fun hc => h (by rw [hc]; rfl)
      simp [scanSigns, hc]

theorem signsMeet_tail {c : Char} {before text : List Char}
    (h : signsMeet (c :: before) text = false) : signsMeet before text = false := by
  cases before with
  | nil => rfl
  | cons c' before => rw [signsMeet, List.getLast?_cons_cons] at h; exact h

/-- A sign that pairs with nothing in its own text pairs with nothing behind it. -/
theorem head?_append_ne {c : Char} (hc : isSign c = true) {before text : List Char}
    (h : signsMeet (c :: before) text = false) (hne : ∀ rest, before = c :: rest → False) :
    (before ++ text).head? ≠ some c := by
  cases before with
  | nil =>
      intro htext
      rw [List.nil_append] at htext
      simp [signsMeet, htext, hc] at h
  | cons c' before =>
      intro hhead
      rw [List.cons_append, List.head?_cons, Option.some.injEq] at hhead
      exact hne before (by rw [hhead])

/-- Texts whose signs do not meet are read one after the other. -/
theorem scanSigns_append {before text : List Char} (h : signsMeet before text = false) :
    scanSigns (before ++ text) = scanSigns before ++ scanSigns text := by
  fun_induction scanSigns before with
  | case1 before ih =>
      show .increment :: scanSigns (before ++ text) = _
      rw [ih (signsMeet_tail (signsMeet_tail h)), List.cons_append]
  | case2 before ih =>
      show .decrement :: scanSigns (before ++ text) = _
      rw [ih (signsMeet_tail (signsMeet_tail h)), List.cons_append]
  | case3 before hne ih =>
      rw [List.cons_append, scanSigns_plus (head?_append_ne (by decide) h hne),
        ih (signsMeet_tail h), List.cons_append]
  | case4 before hne ih =>
      rw [List.cons_append, scanSigns_minus (head?_append_ne (by decide) h hne),
        ih (signsMeet_tail h), List.cons_append]
  | case5 c before _ _ hplus hminus ih =>
      rw [List.cons_append, scanSigns_cons (isSign_eq_false.mpr ⟨hplus, hminus⟩),
        ih (signsMeet_tail h)]
  | case6 => rfl

/-- A text without signs is read over. -/
theorem scanSigns_plain {before : List Char} (h : before.all (!isSign ·) = true)
    (text : List Char) : scanSigns (before ++ text) = scanSigns text := by
  induction before with
  | nil => rfl
  | cons c before ih =>
      simp only [List.all_cons, Bool.and_eq_true, Bool.not_eq_true'] at h
      rw [List.cons_append, scanSigns_cons h.1, ih h.2]

/-- Parts with a separator between them are read one after another. -/
theorem scanSigns_intercalate {α : Type} {sep : List Char} {write : α → List Char}
    {signs : α → List Sign} (hsep : sep.all (!isSign ·) = true) (parts : List α)
    (h : ∀ x ∈ parts, ∀ text, scanSigns (write x ++ text) = signs x ++ scanSigns text)
    (text : List Char) :
    scanSigns (List.intercalate sep (parts.map write) ++ text)
      = parts.flatMap signs ++ scanSigns text := by
  induction parts with
  | nil => rfl
  | cons x parts ih =>
      rw [List.forall_mem_cons] at h
      cases parts with
      | nil => simpa using h.1 text
      | cons y parts =>
          rw [List.map_cons, List.map_cons, List.intercalate_cons_cons, ← List.map_cons,
            List.append_assoc, List.append_assoc, h.1, scanSigns_plain hsep, ih h.2,
            List.flatMap_cons (x := x), List.append_assoc]

/-! ## The signs of a tree -/

/-- The sign token of an operator before its operand. -/
def UnaryOperator.signs : UnaryOperator → List Sign
  | .negate => [.minus]
  | .plus => [.plus]
  | .increment => [.increment]
  | .decrement => [.decrement]
  | .typeOf | .void | .not | .bitwiseNot => []

/-- The sign token of an operator behind its operand. -/
def UpdateOperator.signs : UpdateOperator → List Sign
  | .increment => [.increment]
  | .decrement => [.decrement]

/-- The sign token of an operator between its operands: one if its text begins with a sign. -/
def BinaryOperator.signs (o : BinaryOperator) : List Sign :=
  match o.text.toList with
  | '+' :: _ => [.plus]
  | '-' :: _ => [.minus]
  | _ => []

/-- The sign tokens of a name that may be missing. -/
def nameSigns : Option String → List Sign
  | none => []
  | some n => scanSigns n.toList

namespace Node

mutual

/-- The sign tokens of the nodes that the text of a tree shows, in print order. -/
def signs : Node → List Sign
  | leaf _ text => scanSigns text.toList
  | word _ => []
  | list _ items => signsEach items
  | apply _ callee arguments => signs callee ++ signsEach arguments
  | function name parameters body => nameSigns name ++ signsEach parameters ++ signs body
  | pair .member name object => signs object ++ signs name
  | pair _ left right => signs left ++ signs right
  | single _ value => signs value
  | unary o value => o.signs ++ signs value
  | update o value => signs value ++ o.signs
  | binary o left right => signsOption left ++ o.signs ++ signsOption right
  | ternary condition left right => signs condition ++ signs left ++ signs right
  | returns value => signsOption value
  | ifElse condition body otherwise => signs condition ++ signs body ++ signsOption otherwise
  | forLoop init test step body =>
    signsOption init ++ signsOption test ++ signsOption step ++ signs body
  | forIn left right body => signs left ++ signs right ++ signs body
  | tryCatch body parameter handler finalizer =>
    signs body ++ (if handler.isSome then signsOption parameter else []) ++ signsOption handler
      ++ signsOption finalizer

/-- The sign tokens of the nodes of a list. -/
def signsEach : List Node → List Sign
  | [] => []
  | n :: rest => signs n ++ signsEach rest

/-- The sign tokens of a node that may be missing. -/
def signsOption : Option Node → List Sign
  | none => []
  | some n => signs n

end

@[simp] theorem signsEach_eq_flatMap (items : List Node) :
    signsEach items = items.flatMap signs := by
  induction items with
  | nil => rfl
  | cons n rest ih => simp [signsEach, ih]

end Node

/-! ## Operators, leaves and lists in front of a text -/

theorem scanSigns_unary (o : UnaryOperator) {operand : List Char} (hne : operand ≠ [])
    (text : List Char) :
    scanSigns (o.text.toList ++ (spacing o.text.toList operand ++ (operand ++ text)))
      = o.signs ++ scanSigns (operand ++ text) := by
  have hsigns : scanSigns o.text.toList = o.signs := by cases o <;> decide
  rw [spacing_eq]
  cases h : signsMeet o.text.toList operand with
  | true =>
      rw [if_pos rfl, scanSigns_append (by simp [signsMeet, isSign]), hsigns,
        scanSigns_plain (by decide)]
  | false =>
      obtain ⟨c, operand, rfl⟩ := List.exists_cons_of_ne_nil hne
      have hmeet : signsMeet o.text.toList (c :: operand ++ text) = false := h
      rw [if_neg (by decide), List.nil_append, scanSigns_append hmeet, hsigns]

theorem scanSigns_update (o : UpdateOperator) (text : List Char) :
    scanSigns (o.text.toList ++ text) = o.signs ++ scanSigns text := by
  cases o <;> rfl

theorem scanSigns_binary (o : BinaryOperator) (text : List Char) :
    scanSigns ([' '] ++ (o.text.toList ++ ([' '] ++ text))) = o.signs ++ scanSigns text := by
  have hsigns : scanSigns o.text.toList = o.signs := by cases o <;> decide
  rw [scanSigns_plain (by decide), scanSigns_append (by simp [signsMeet, isSign]), hsigns,
    scanSigns_plain (by decide)]

theorem scanSigns_leaf (k : LeafKind) {written : List Char}
    (h : written.getLast?.any isSign = false) (text : List Char) :
    scanSigns (k.write written ++ text) = scanSigns written ++ scanSigns text := by
  have hmeet : ∀ text, signsMeet written text = false := fun text => by
    rw [signsMeet, h, Bool.false_and]
  cases k with
  | string =>
      show scanSigns (['"'] ++ (written ++ ['"'] ++ text)) = _
      rw [scanSigns_plain (by decide), List.append_assoc, scanSigns_append (hmeet _),
        scanSigns_plain (by decide)]
  | name | number | regexp => exact scanSigns_append (hmeet text)

theorem scanSigns_name (name : String) (text : List Char) :
    scanSigns (name.toList ++ (['('] ++ text)) = scanSigns name.toList ++ scanSigns text := by
  rw [scanSigns_append (by simp [signsMeet, isSign]), scanSigns_plain (by decide)]

theorem all_indent (d : Depth) : d.indent.all (!isSign ·) = true := by
  rw [List.all_eq_true]
  intro c hc
  rw [Depth.indent, List.mem_replicate] at hc
  rw [hc.2]
  decide

theorem all_closing (body : Node) (written : List Char) :
    (closing body written ++ " else ".toList).all (!isSign ·) = true := by
  unfold closing
  split <;> decide

theorem scanSigns_closing (body : Node) (written text : List Char) :
    scanSigns (closing body written ++ text) = scanSigns text := by
  unfold closing
  split <;> rfl

namespace Node

theorem scanSigns_lines (d : Depth) (items : List Node)
    (h : ∀ n ∈ items, ∀ text, scanSigns (n.print d ++ text) = n.signs ++ scanSigns text)
    (text : List Char) :
    scanSigns (lines d (items.map (print d)) ++ text) = items.flatMap signs ++ scanSigns text := by
  rw [lines, List.map_map]
  refine scanSigns_intercalate (by decide) items (fun n hn text => ?_) text
  show scanSigns (d.indent ++ n.print d ++ [';'] ++ text) = _
  rw [List.append_assoc, List.append_assoc, scanSigns_plain (all_indent d), h n hn,
    scanSigns_plain (by decide)]

theorem scanSigns_list (d : Depth) (k : ListKind) (items : List Node)
    (h : ∀ n ∈ items, ∀ text,
      scanSigns (n.print (k.itemDepth d) ++ text) = n.signs ++ scanSigns text)
    (text : List Char) :
    scanSigns (k.write d (items.map (print (k.itemDepth d))) ++ text)
      = items.flatMap signs ++ scanSigns text := by
  have hcommas : ∀ text, scanSigns (commas (items.map (print (k.itemDepth d))) ++ text)
      = items.flatMap signs ++ scanSigns text :=
    scanSigns_intercalate (by decide) items h
  cases k with
  | statements =>
      rw [ListKind.write_statements, block]
      split
      · exact scanSigns_lines d.nested items h text
      · rw [List.append_assoc, List.append_assoc, scanSigns_plain (by decide)]
        exact scanSigns_lines d.nested items h _
  | declaration =>
      rw [ListKind.write_declaration, List.append_assoc, scanSigns_plain (by decide), hcommas]
  | arrayLiteral =>
      rw [ListKind.write_arrayLiteral, List.append_assoc, List.append_assoc,
        scanSigns_plain (by decide), hcommas, scanSigns_plain (by decide)]
  | objectLiteral =>
      cases items with
      | nil => rw [List.map_nil, ListKind.write_objectLiteral_nil, scanSigns_plain (by decide)]; rfl
      | cons n items =>
          rw [List.map_cons, ListKind.write_objectLiteral_cons, ← List.map_cons, List.append_assoc,
            List.append_assoc, scanSigns_plain (by decide), hcommas, scanSigns_plain (by decide)]
  | commaList => rw [ListKind.write_commaList, hcommas]

/-! ## Every tree -/

/-- A leaf that does not end in a sign, an operator in front of an operand that is not empty, or
any other node. -/
def keepsSigns (d : Depth) : Node → Bool
  | leaf _ text => !text.toList.getLast?.any isSign
  | unary _ value => !(value.print d).isEmpty
  | _ => true

theorem keepsSigns_leaf (d : Depth) (k : LeafKind) (s : String) :
    keepsSigns d (leaf k s) = !s.toList.getLast?.any isSign := rfl

theorem keepsSigns_unary (d : Depth) (o : UnaryOperator) (value : Node) :
    keepsSigns d (unary o value) = !(value.print d).isEmpty := rfl

mutual

/-- Whatever stands behind it, the text of a tree reads as the signs of the tree. -/
theorem scanSigns_print : ∀ (n : Node) (d : Depth),
    (∀ p ∈ n.printed d, p.2.keepsSigns p.1 = true) →
    ∀ text, scanSigns (n.print d ++ text) = n.signs ++ scanSigns text
  | leaf k s, d, h, text => by
      rw [printed, List.forall_mem_singleton, keepsSigns_leaf, Bool.not_eq_true'] at h
      simp only [print_leaf, signs, scanSigns_leaf k h]
  | word w, d, _, text => by
      have hplain : w.text.toList.all (!isSign ·) = true := by cases w <;> decide
      simp only [print_word, signs, scanSigns_plain hplain, List.nil_append]
  | list k items, d, h, text => by
      rw [printed, List.forall_mem_cons, printedEach_eq_flatMap] at h
      simp only [print_list, signs, signsEach_eq_flatMap,
        scanSigns_list d k items (scanSigns_printEach items _ h.2)]
  | apply k callee arguments, d, h, text => by
      rw [printed, List.forall_mem_cons, List.forall_mem_append, printedEach_eq_flatMap] at h
      have hcallee := scanSigns_print callee d h.2.1
      have harguments : ∀ text, scanSigns (commas (arguments.map (print d)) ++ text)
          = arguments.flatMap signs ++ scanSigns text :=
        scanSigns_intercalate (by decide) arguments (scanSigns_printEach arguments d h.2.2)
      cases k <;>
        simp (disch := decide) only [print_apply, signs, signsEach_eq_flatMap,
          ApplyKind.write_call, ApplyKind.write_construct, List.append_assoc, scanSigns_plain,
          hcallee, harguments]
  | function name parameters body, d, h, text => by
      rw [printed, List.forall_mem_cons, List.forall_mem_append, printedEach_eq_flatMap] at h
      have hparameters : ∀ text, scanSigns (commas (parameters.map (print d)) ++ text)
          = parameters.flatMap signs ++ scanSigns text :=
        scanSigns_intercalate (by decide) parameters (scanSigns_printEach parameters d h.2.1)
      have hbody := scanSigns_print body d.atLeastBlock h.2.2
      cases name with
      | none =>
          simp (disch := decide) only [print_function_none, signs, signsEach_eq_flatMap, nameSigns,
            List.append_assoc, scanSigns_plain, hparameters, hbody, List.nil_append]
      | some name =>
          simp (disch := decide) only [print_function_some, signs, signsEach_eq_flatMap, nameSigns,
            List.append_assoc, scanSigns_plain, scanSigns_name, hparameters, hbody]
  | pair .property key value, d, h, text => by
      rw [printed, List.forall_mem_cons, List.forall_mem_append] at h
      simp (disch := decide) only [print_property, signs, List.append_assoc, scanSigns_plain,
        scanSigns_print key d h.2.1, scanSigns_print value d h.2.2]
  | pair .subscript object index, d, h, text => by
      rw [printed, List.forall_mem_cons, List.forall_mem_append] at h
      simp (disch := decide) only [print_subscript, signs, List.append_assoc, scanSigns_plain,
        scanSigns_print object d h.2.1, scanSigns_print index d h.2.2]
  | pair .member name object, d, h, text => by
      rw [printed, List.forall_mem_cons, List.forall_mem_append] at h
      simp (disch := decide) only [print_member, signs, List.append_assoc, scanSigns_plain,
        scanSigns_print object d h.2.1, scanSigns_print name d h.2.2]
  | pair .doWhile body condition, d, h, text => by
      rw [printed, List.forall_mem_cons, List.forall_mem_append] at h
      simp (disch := decide) only [print_doWhile, signs, List.append_assoc, scanSigns_plain,
        scanSigns_print body d.atLeastBlock h.2.1, scanSigns_closing,
        scanSigns_print condition d h.2.2]
  | pair .whileDo condition body, d, h, text => by
      rw [printed, List.forall_mem_cons, List.forall_mem_append] at h
      simp (disch := decide) only [print_whileDo, signs, List.append_assoc, scanSigns_plain,
        scanSigns_print condition d h.2.1, scanSigns_print body d.atLeastBlock h.2.2]
  | single k value, d, h, text => by
      rw [printed, List.forall_mem_cons] at h
      cases k <;>
        simp (disch := decide) only [print_single, signs, SingleKind.write_throws,
          SingleKind.write_deletes, SingleKind.write_parens, List.append_assoc, scanSigns_plain,
          scanSigns_print value d h.2]
  | unary o value, d, h, text => by
      rw [printed, List.forall_mem_cons] at h
      have hne : value.print d ≠ [] := by
        have := h.1
        rw [keepsSigns_unary, Bool.not_eq_true', List.isEmpty_eq_false_iff] at this
        exact this
      simp only [print_unary, signs, List.append_assoc, scanSigns_unary o hne,
        scanSigns_print value d h.2]
  | update o value, d, h, text => by
      rw [printed, List.forall_mem_cons] at h
      simp only [print_update, signs, List.append_assoc, scanSigns_print value d h.2,
        scanSigns_update]
  | binary o left right, d, h, text => by
      rw [printed, List.forall_mem_cons, List.forall_mem_append] at h
      have hleft := scanSigns_printClause left d [] (by decide) h.2.1
      have hright := scanSigns_printClause right d [] (by decide) h.2.2
      simp only [print_binary, signs, List.append_assoc, hleft, scanSigns_binary, hright]
  | ternary condition left right, d, h, text => by
      rw [printed, List.forall_mem_cons, List.forall_mem_append, List.forall_mem_append] at h
      simp (disch := decide) only [print_ternary, signs, List.append_assoc, scanSigns_plain,
        scanSigns_print condition d h.2.1.1, scanSigns_print left d h.2.1.2,
        scanSigns_print right d h.2.2]
  | returns value, d, h, text => by
      rw [printed, List.forall_mem_cons] at h
      have hvalue := scanSigns_printClause value d [' '] (by decide) h.2
      simp (disch := decide) only [print_returns, signs, List.append_assoc, scanSigns_plain, hvalue]
  | ifElse condition body otherwise, d, h, text => by
      rw [printed, List.forall_mem_cons, List.forall_mem_append, List.forall_mem_append] at h
      have hotherwise := scanSigns_printClause otherwise d.atLeastBlock _
        (all_closing body (body.print d.atLeastBlock)) h.2.2
      simp (disch := decide) only [print_ifElse, signs, List.append_assoc, scanSigns_plain,
        scanSigns_print condition d h.2.1.1, scanSigns_print body d.atLeastBlock h.2.1.2,
        hotherwise]
  | forLoop init test step body, d, h, text => by
      rw [printed, List.forall_mem_cons, List.forall_mem_append, List.forall_mem_append,
        List.forall_mem_append] at h
      have hinit := scanSigns_printClause init d [] (by decide) h.2.1.1.1
      have htest := scanSigns_printClause test d [] (by decide) h.2.1.1.2
      have hstep := scanSigns_printClause step d [] (by decide) h.2.1.2
      simp (disch := decide) only [print_forLoop, signs, List.append_assoc, scanSigns_plain, hinit,
        htest, hstep, scanSigns_print body d.atLeastBlock h.2.2]
  | forIn left right body, d, h, text => by
      rw [printed, List.forall_mem_cons, List.forall_mem_append, List.forall_mem_append] at h
      simp (disch := decide) only [print_forIn, signs, List.append_assoc, scanSigns_plain,
        scanSigns_print left d h.2.1.1, scanSigns_print right d h.2.1.2,
        scanSigns_print body d.atLeastBlock h.2.2]
  | tryCatch body parameter handler finalizer, d, h, text => by
      rw [printed, List.forall_mem_cons, List.forall_mem_append, List.forall_mem_append,
        List.forall_mem_append] at h
      have hbody := scanSigns_print body d.atLeastBlock h.2.1.1.1
      have hfinalizer := scanSigns_printClause finalizer d.atLeastBlock " finally ".toList
        (by decide) h.2.2
      cases handler with
      | none =>
          simp (disch := decide) only [print_tryCatch, signs, List.append_assoc, scanSigns_plain,
            hbody, hfinalizer, printClause_none, signsOption, Option.isSome_none, if_false,
            List.nil_append, Bool.false_eq_true]
      | some handler =>
          have hparameter := scanSigns_printClause parameter d [] (by decide) h.2.1.1.2
          have hhandler := scanSigns_print handler d.atLeastBlock h.2.1.2
          simp (disch := decide) only [print_tryCatch, signs, List.append_assoc, scanSigns_plain,
            hbody, hfinalizer, printClause_some, signsOption, Option.isSome_some, if_true,
            hparameter, hhandler]

theorem scanSigns_printEach : ∀ (items : List Node) (d : Depth),
    (∀ p ∈ items.flatMap (printed d), p.2.keepsSigns p.1 = true) →
    ∀ n ∈ items, ∀ text, scanSigns (n.print d ++ text) = n.signs ++ scanSigns text
  | [], _, _ => fun _ hn => absurd hn List.not_mem_nil
  | n :: rest, d, h => by
      rw [List.flatMap_cons, List.forall_mem_append] at h
      rw [List.forall_mem_cons]
      exact ⟨scanSigns_print n d h.1, scanSigns_printEach rest d h.2⟩

theorem scanSigns_printClause : ∀ (o : Option Node) (d : Depth) (before : List Char),
    before.all (!isSign ·) = true →
    (∀ p ∈ printedOption d o, p.2.keepsSigns p.1 = true) →
    ∀ text, scanSigns (printClause d before o ++ text) = signsOption o ++ scanSigns text
  | none, _, _, _, _, _ => rfl
  | some n, d, before, hb, h, text => by
      rw [printClause_some, signsOption, List.append_assoc, scanSigns_plain hb,
        scanSigns_print n d h]

end

/-- The signs in the text of a tree are the signs of the tree, when no leaf ends in a sign and no
operator has an empty operand behind it. -/
theorem scanSigns_renderAt (n : Node) (d : Depth)
    (h : ∀ p ∈ n.printed d, p.2.keepsSigns p.1 = true) :
    scanSigns (n.renderAt d).toList = n.signs := by
  have := scanSigns_print n d h []
  rwa [List.append_nil, scanSigns, List.append_nil, ← String.toList_ofList (l := n.print d)] at this

/-- A run of operators on both sides of `x`, and a number with a sign of its own. -/
def signRuns : Node :=
  operation .subtract
    (unary .negate (unary .negate (update .increment (update .increment (ident "x")))))
    (unary .plus (number "-1"))

theorem scanSigns_signRuns :
    (∀ p ∈ signRuns.printed .top, p.2.keepsSigns p.1 = true) ∧
      signRuns.render = "- -x++++ - + -1" ∧
      scanSigns signRuns.render.toList
        = [.minus, .minus, .increment, .increment, .minus, .plus, .minus] :=
  ⟨by decide, by decide, scanSigns_renderAt signRuns .top (by decide)⟩

end Node

end ScriptHost.Tree
