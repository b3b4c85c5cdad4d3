import Mathlib.Algebra.Group.Nat.Defs
import ScriptHost.Json.Reader

/-!
# Reading the compact form

The compact form of a value is read back as the value (`Json.parse?_compact`), whatever its strings
hold and to any nesting. The one condition is on numbers: each has to be a word that reads as that
number (`Json.IsSpelled`).

A word is complete only when something behind it ends it, so the state behind a value depends on
what kind of value it was. `Reader.Leads` speaks of the state after the word has been settled, and
every separator settles a word (`Reader.feed_of_endsWord`).
-/

set_option autoImplicit false

namespace ScriptHost.Json

/-! ## Spelled values -/

mutual

/-- Each number in a value is one word and reads as that number. -/
def IsSpelled : Json → Prop
  | null => True
  | bool _ => True
  | number text => text.toList.all (!endsWord ·) = true ∧ ofWord? text.toList = some (number text)
  | string _ => True
  | array items => AreSpelled items
  | object members => MembersAreSpelled members

/-- Each number in the items of an array is one word and reads as that number. -/
def AreSpelled : List Json → Prop
  | [] => True
  | item :: rest => IsSpelled item ∧ AreSpelled rest

/-- Each number in the members of an object is one word and reads as that number. -/
def MembersAreSpelled : List (String × Json) → Prop
  | [] => True
  | (_, value) :: rest => IsSpelled value ∧ MembersAreSpelled rest

end

namespace Reader

theorem run_append (r : Reader) (cs cs' : List Char) :
    r.run (cs ++ cs') = (r.run cs).bind (·.run cs') :=
  List.foldlM_append

theorem run_cons (r : Reader) (c : Char) (cs : List Char) :
    r.run (c :: cs) = (r.feed c).bind (·.run cs) :=
  List.foldlM_cons

theorem run_singleton (r : Reader) (c : Char) : r.run [c] = r.feed c := by
  rw [run_cons]
  exact Option.bind_fun_some _

/-! ### One character in each mode -/

theorem feed_between (m : Machine) (c : Char) :
    feed ⟨m, .between⟩ c = start ⟨m, .between⟩ c := rfl

theorem feed_word (m : Machine) (read : List Char) (c : Char) :
    feed ⟨m, .word read⟩ c
      = if endsWord c then (settle ⟨m, .word read⟩).bind (·.start c)
        else some ⟨m, .word (c :: read)⟩ := rfl

theorem feed_text (m : Machine) (read : List Char) (c : Char) :
    feed ⟨m, .text read⟩ c
      = if c = '"' then hand m .between (some (.text read.reverse))
        else if c = '\\' then some ⟨m, .escape read⟩
        else if c.toNat < 32 then none
        else some ⟨m, .text (c :: read)⟩ := rfl

theorem feed_escape (m : Machine) (read : List Char) (c : Char) :
    feed ⟨m, .escape read⟩ c
      = if c = 'u' then some ⟨m, .unit read none 3 0⟩
        else (unescape? c).map fun e => ⟨m, .text (e :: read)⟩ := rfl

theorem feed_unit_digit {c : Char} {d : Nat} (h : Text.Hex.value? c = some d) (m : Machine)
    (read : List Char) (high : Option Nat) (left value : Nat) :
    feed ⟨m, .unit read high (left + 1) value⟩ c
      = some ⟨m, .unit read high left (value * 16 + d)⟩ := by
  rw [feed]
  simp only [h]

theorem feed_unit_last {c : Char} {d : Nat} (h : Text.Hex.value? c = some d) (m : Machine)
    (read : List Char) (high : Option Nat) (value : Nat) :
    feed ⟨m, .unit read high 0 value⟩ c
      = (Mode.ofUnit? read high (value * 16 + d)).map fun mode => ⟨m, mode⟩ := by
  rw [feed]
  simp only [h]

theorem settle_word (m : Machine) (read : List Char) :
    settle ⟨m, .word read⟩ = (m.take (.word read.reverse)).map fun m => ⟨m, .between⟩ := rfl

/-! ## Strings -/

/-- The digits of a code unit, but for the last one, are gathered into a value. -/
theorem run_unit_write (m : Machine) (read : List Char) (high : Option Nat) (width left n : Nat)
    (value : Nat) :
    (⟨m, .unit read high (width + left) value⟩ : Reader).run (Text.Hex.write width n)
      = some ⟨m, .unit read high left (value * 16 ^ width + n % 16 ^ width)⟩ := by
  induction width generalizing left n with
  | zero =>
      rw [Nat.zero_add, Nat.pow_zero, Nat.mul_one, Nat.mod_one, Nat.add_zero]
      rfl
  | succ width ih =>
      have hlast : (value * 16 ^ width + n / 16 % 16 ^ width) * 16 + n % 16
          = value * 16 ^ (width + 1) + n % 16 ^ (width + 1) := by
        rw [Nat.pow_succ', Nat.mod_mul, Nat.add_mul, Nat.mul_left_comm value 16 (16 ^ width),
          Nat.mul_comm 16 (value * 16 ^ width), Nat.mul_comm (n / 16 % 16 ^ width) 16]
        omega
      have hdigit : Text.Hex.value? (Text.Hex.digit (n % 16)) = some (n % 16) :=
        Text.Hex.value?_digit (Nat.mod_lt n (by decide))
      rw [Text.Hex.write, run_append, Nat.add_right_comm, Nat.add_assoc, ih, Option.bind_some,
        run_singleton, feed_unit_digit hdigit, hlast]

/-- A character is escaped by a letter, by its code unit, or not at all. -/
theorem escape_cases (c : Char) :
    (∃ e, escape c = ['\\', e] ∧ e ≠ 'u' ∧ unescape? e = some c)
      ∨ (c.toNat < 32 ∧ escape c = ['\\', 'u'] ++ Text.Hex.write 4 c.toNat)
      ∨ (escape c = [c] ∧ c ≠ '"' ∧ c ≠ '\\' ∧ ¬ c.toNat < 32) := by
  unfold escape
  -- seven characters have a letter of their own
  iterate 7
    split
    · rename_i h
      exact .inl ⟨_, rfl, by decide, by rw [h]; rfl⟩
  split
  · rename_i h
    exact .inr (.inl ⟨h, rfl⟩)
  · rename_i hquote hbackslash _ _ _ _ _ hcontrol
    exact .inr (.inr ⟨rfl, hquote, hbackslash, hcontrol⟩)

/-- A code unit below the surrogates is a character. -/
theorem Mode.ofUnit?_of_lt (read : List Char) {unit : Nat} (h : unit < 0xD800) :
    Mode.ofUnit? read none unit = some (.text (Char.ofNat unit :: read)) := by
  simp only [Mode.ofUnit?]
  rw [if_neg (by omega), if_neg (by omega)]

/-- Reading the escape of a character inside a string adds the character. -/
theorem run_escape (m : Machine) (read : List Char) (c : Char) :
    (⟨m, .text read⟩ : Reader).run (escape c) = some ⟨m, .text (c :: read)⟩ := by
  rcases escape_cases c with ⟨e, he, hu, hc⟩ | ⟨hcontrol, he⟩ | ⟨he, hquote, hbackslash, hcontrol⟩
  · rw [he, run_cons]
    show (⟨m, .escape read⟩ : Reader).run [e] = _
    rw [run_singleton, feed_escape, if_neg hu, hc]
    rfl
  · have hmod : c.toNat / 16 % 16 ^ 3 * 16 + c.toNat % 16 = c.toNat := by omega
    have hdigit : Text.Hex.value? (Text.Hex.digit (c.toNat % 16)) = some (c.toNat % 16) :=
      Text.Hex.value?_digit (Nat.mod_lt _ (by decide))
    rw [he]
    show (⟨m, .unit read none (3 + 0) 0⟩ : Reader).run
      (Text.Hex.write 3 (c.toNat / 16) ++ [Text.Hex.digit (c.toNat % 16)]) = _
    rw [run_append, run_unit_write, Option.bind_some, run_singleton, feed_unit_last hdigit,
      Nat.zero_mul, Nat.zero_add, hmod, Mode.ofUnit?_of_lt read (by omega), Char.ofNat_toNat]
    rfl
  · rw [he, run_singleton, feed_text, if_neg hquote, if_neg hbackslash, if_neg hcontrol]

theorem run_flatMap_escape (m : Machine) (read text : List Char) :
    (⟨m, .text read⟩ : Reader).run (text.flatMap escape)
      = some ⟨m, .text (text.reverse ++ read)⟩ := by
  induction text generalizing read with
  | nil => rfl
  | cons c text ih =>
      rw [List.flatMap_cons, run_append, run_escape, Option.bind_some, ih, List.reverse_cons,
        List.append_assoc, List.singleton_append]

/-- A string in quotes is one token. -/
theorem run_quote (m : Machine) (text : List Char) :
    (⟨m, .between⟩ : Reader).run (quote text)
      = (m.take (.text text)).map fun m => ⟨m, .between⟩ := by
  rw [quote, List.cons_append, run_cons]
  show (⟨m, .text []⟩ : Reader).run (text.flatMap escape ++ ['"']) = _
  rw [run_append, run_flatMap_escape, Option.bind_some, run_singleton, feed_text, if_pos rfl,
    List.append_nil, List.reverse_reverse]
  rfl

/-! ## Words and separators -/

/-- A separator behind a state between tokens, or behind a word, settles the word first. -/
theorem feed_of_endsWord {r : Reader} {m : Machine} (h : r.settle = some ⟨m, .between⟩) {c : Char}
    (hc : endsWord c = true) : r.feed c = (⟨m, .between⟩ : Reader).start c := by
  obtain ⟨machine, mode⟩ := r
  cases mode with
  | between =>
      cases h
      rfl
  | word read =>
      rw [feed_word, if_pos hc, h]
      rfl
  | _ => cases h

/-- The rest of a word is gathered. -/
theorem run_word (m : Machine) (read : List Char) {cs : List Char}
    (h : cs.all (!endsWord ·) = true) :
    (⟨m, .word read⟩ : Reader).run cs = some ⟨m, .word (cs.reverse ++ read)⟩ := by
  induction cs generalizing read with
  | nil => rfl
  | cons c cs ih =>
      rw [List.all_cons, Bool.and_eq_true, Bool.not_eq_true'] at h
      rw [run_cons, feed_word, if_neg (ne_true_of_eq_false h.1), Option.bind_some, ih _ h.2,
        List.reverse_cons, List.append_assoc, List.singleton_append]

/-- A character that ends no word begins one. -/
theorem start_of_endsWord_eq_false (m : Machine) {c : Char} (h : endsWord c = false) :
    (⟨m, .between⟩ : Reader).feed c = some ⟨m, .word [c]⟩ := by
  rw [endsWord, Bool.or_eq_false_iff, Bool.or_eq_false_iff, Option.isSome_eq_false_iff,
    Option.isNone_iff_eq_none, beq_eq_false_iff_ne] at h
  obtain ⟨⟨hblank, hquote⟩, hpunctuation⟩ := h
  rw [feed, start, Mode.start, hblank, if_neg hquote, hpunctuation]
  rfl

/-- Between tokens, a text leads from one state of the machine to another. A word at the end of
the text counts as complete. -/
def Leads (m : Machine) (cs : List Char) (m' : Machine) : Prop :=
  ((⟨m, .between⟩ : Reader).run cs).bind settle = some ⟨m', .between⟩

theorem Leads.of_run {m m' : Machine} {cs : List Char}
    (h : (⟨m, .between⟩ : Reader).run cs = some ⟨m', .between⟩) : Leads m cs m' := by
  rw [Leads, h]
  rfl

/-- A word is one token. -/
theorem Leads.of_word {m m' : Machine} {c : Char} {cs : List Char}
    (hword : (c :: cs).all (!endsWord ·) = true) (h : m.take (.word (c :: cs)) = some m') :
    Leads m (c :: cs) m' := by
  rw [List.all_cons, Bool.and_eq_true, Bool.not_eq_true'] at hword
  rw [Leads, run_cons, start_of_endsWord_eq_false m hword.1, Option.bind_some, run_word m _ hword.2,
    Option.bind_some, settle_word, List.reverse_append, List.reverse_reverse,
    List.reverse_singleton, List.singleton_append, h]
  rfl

/-- One text behind another, where nothing of the first is left open. -/
theorem Leads.of_append {m m' m'' : Machine} {cs cs' : List Char}
    (h : (⟨m, .between⟩ : Reader).run cs = some ⟨m', .between⟩) (h' : Leads m' cs' m'') :
    Leads m (cs ++ cs') m'' := by
  rw [Leads, run_append, h, Option.bind_some, h']

/-- A punctuation mark is a token of its own. -/
theorem start_of_punctuation {c : Char} {t : Token} (h : punctuation? c = some t) (m : Machine) :
    (⟨m, .between⟩ : Reader).start c = (m.take t).map fun m => ⟨m, .between⟩ := by
  unfold punctuation? at h
  iterate 6
    split at h
    · rename_i hc
      cases h
      rw [hc]
      rfl
  cases h

/-- A punctuation mark completes what stands in front of it. -/
theorem Leads.run_concat {m m' m'' : Machine} {cs : List Char} (h : Leads m cs m') {c : Char}
    {t : Token} (hc : punctuation? c = some t) (hm : m'.take t = some m'') :
    (⟨m, .between⟩ : Reader).run (cs ++ [c]) = some ⟨m'', .between⟩ := by
  obtain ⟨r, hr, hsettle⟩ := Option.bind_eq_some_iff.mp h
  have hends : endsWord c = true := by rw [endsWord, hc, Option.isSome_some, Bool.or_true]
  rw [run_append, hr, Option.bind_some, run_singleton, feed_of_endsWord hsettle hends,
    start_of_punctuation hc, hm, Option.map_some]

theorem run_punctuation {m m' : Machine} {c : Char} {t : Token} (hc : punctuation? c = some t)
    (hm : m.take t = some m') : (⟨m, .between⟩ : Reader).run [c] = some ⟨m', .between⟩ := by
  rw [run_singleton, feed_between, start_of_punctuation hc, hm, Option.map_some]

end Reader

/-! ## Values and keys -/

/-- Whether a value may come next. -/
def Expect.IsValue : Expect → Prop
  | .value => True
  | .first => True
  | _ => False

/-- Whether a key may come next. -/
def Expect.IsKey : Expect → Prop
  | .key => True
  | .firstKey => True
  | _ => False

namespace Machine

variable {m m' : Machine}

theorem take_text (h : m.expect.IsValue) (cs : List Char) :
    m.take (.text cs) = deliver (.string (String.ofList cs)) m.frames := by
  obtain ⟨frames, expect⟩ := m
  cases expect with
  | value => rfl
  | first => rfl
  | _ => exact absurd h id

theorem take_word (h : m.expect.IsValue) (cs : List Char) :
    m.take (.word cs) = (ofWord? cs).bind (deliver · m.frames) := by
  obtain ⟨frames, expect⟩ := m
  cases expect with
  | value => rfl
  | first => rfl
  | _ => exact absurd h id

theorem take_openArray (h : m.expect.IsValue) :
    m.take .openArray = some ⟨.array [] :: m.frames, .first⟩ := by
  obtain ⟨frames, expect⟩ := m
  cases expect with
  | value => rfl
  | first => rfl
  | _ => exact absurd h id

theorem take_openObject (h : m.expect.IsValue) :
    m.take .openObject = some ⟨.object [] :: m.frames, .firstKey⟩ := by
  obtain ⟨frames, expect⟩ := m
  cases expect with
  | value => rfl
  | first => rfl
  | _ => exact absurd h id

theorem take_key {expect : Expect} (h : expect.IsKey) (read : List (String × Json))
    (frames : List Frame) (cs : List Char) :
    take ⟨.object read :: frames, expect⟩ (.text cs)
      = some ⟨.member read (String.ofList cs) :: frames, .colon⟩ := by
  cases expect with
  | key => rfl
  | firstKey => rfl
  | _ => exact absurd h id

end Machine

namespace Reader

variable {m m' : Machine}

theorem leads_text (h : m.expect.IsValue) (text : String)
    (hm : Machine.deliver (.string text) m.frames = some m') : Leads m (quote text.toList) m' := by
  refine Leads.of_run ?_
  rw [run_quote, Machine.take_text h, String.ofList_toList, hm, Option.map_some]

theorem leads_word (h : m.expect.IsValue) {cs : List Char} (hcs : cs.all (!endsWord ·) = true)
    {value : Json} (hvalue : ofWord? cs = some value)
    (hm : Machine.deliver value m.frames = some m') : Leads m cs m' := by
  cases cs with
  | nil => cases hvalue
  | cons c cs =>
      refine Leads.of_word hcs ?_
      rw [Machine.take_word h, hvalue, Option.bind_some, hm]

/-- A key and its colon. -/
theorem run_key {expect : Expect} (h : expect.IsKey) (read : List (String × Json))
    (frames : List Frame) (key : String) :
    (⟨⟨.object read :: frames, expect⟩, .between⟩ : Reader).run (quote key.toList ++ [':'])
      = some ⟨⟨.member read key :: frames, .value⟩, .between⟩ := by
  rw [run_append, run_quote, Machine.take_key h, String.ofList_toList, Option.map_some,
    Option.bind_some]
  exact run_punctuation rfl rfl

theorem run_openArray (h : m.expect.IsValue) :
    (⟨m, .between⟩ : Reader).run ['['] = some ⟨⟨.array [] :: m.frames, .first⟩, .between⟩ :=
  run_punctuation rfl (Machine.take_openArray h)

theorem run_openObject (h : m.expect.IsValue) :
    (⟨m, .between⟩ : Reader).run ['\x7b'] = some ⟨⟨.object [] :: m.frames, .firstKey⟩, .between⟩ :=
  run_punctuation rfl (Machine.take_openObject h)

/-! ## The compact form -/

mutual

/-- Where a value may come next, its compact form brings it in. -/
theorem leads_print : ∀ {j : Json}, j.IsSpelled → ∀ {m m' : Machine}, m.expect.IsValue →
    Machine.deliver j m.frames = some m' → Leads m j.print m'
  | null, _, _, _, h, hm => leads_word h (by decide) rfl hm
  | bool true, _, _, _, h, hm => leads_word h (by decide) rfl hm
  | bool false, _, _, _, h, hm => leads_word h (by decide) rfl hm
  | number _, hspelled, _, _, h, hm => leads_word h hspelled.1 hspelled.2 hm
  | string text, _, _, _, h, hm => leads_text h text hm
  | array [], _, _, _, h, hm => .of_run ((Leads.of_run (run_openArray h)).run_concat rfl hm)
  | array (item :: rest), hspelled, m, m', h, hm => by
      have hitems := leads_printItems hspelled (List.cons_ne_nil item rest) m.frames []
        .first trivial
      refine .of_run ((Leads.of_append (run_openArray h) hitems).run_concat rfl ?_)
      show Machine.deliver (array ((item :: rest).reverse ++ []).reverse) m.frames = some m'
      rw [List.append_nil, List.reverse_reverse, hm]
  | object [], _, _, _, h, hm => .of_run ((Leads.of_run (run_openObject h)).run_concat rfl hm)
  | object (member :: rest), hspelled, m, m', h, hm => by
      have hmembers := leads_printMembers hspelled (List.cons_ne_nil member rest) m.frames []
        .firstKey trivial
      refine .of_run ((Leads.of_append (run_openObject h) hmembers).run_concat rfl ?_)
      show Machine.deliver (object ((member :: rest).reverse ++ []).reverse) m.frames = some m'
      rw [List.append_nil, List.reverse_reverse, hm]

/-- The items of an array, with commas between them, go into the array one after the other. -/
theorem leads_printItems : ∀ {items : List Json}, AreSpelled items → items ≠ [] →
    ∀ (frames : List Frame) (read : List Json) (expect : Expect), expect.IsValue →
      Leads ⟨.array read :: frames, expect⟩ (List.intercalate [','] (printItems items))
        ⟨.array (items.reverse ++ read) :: frames, .next⟩
  | [], _, hne, _, _, _, _ => absurd rfl hne
  | [item], hspelled, _, frames, read, _, h => by
      rw [printItems, printItems, List.intercalate_singleton]
      exact leads_print hspelled.1 h rfl
  | item :: next :: rest, hspelled, _, frames, read, expect, h => by
      have hfirst : Leads ⟨.array read :: frames, expect⟩ item.print
          ⟨.array (item :: read) :: frames, .next⟩ := leads_print hspelled.1 h rfl
      have hrest := leads_printItems hspelled.2 (List.cons_ne_nil next rest) frames (item :: read)
        .value trivial
      rw [List.append_cons, ← List.reverse_cons] at hrest
      rw [printItems, printItems, List.intercalate_cons_cons]
      exact .of_append (hfirst.run_concat rfl rfl) hrest

/-- The members of an object, with commas between them, go into the object one after the other. -/
theorem leads_printMembers : ∀ {members : List (String × Json)}, MembersAreSpelled members →
    members ≠ [] →
    ∀ (frames : List Frame) (read : List (String × Json)) (expect : Expect), expect.IsKey →
      Leads ⟨.object read :: frames, expect⟩ (List.intercalate [','] (printMembers members))
        ⟨.object (members.reverse ++ read) :: frames, .next⟩
  | [], _, hne, _, _, _, _ => absurd rfl hne
  | [(key, value)], hspelled, _, frames, read, _, h => by
      rw [printMembers, printMembers, List.intercalate_singleton]
      exact .of_append (run_key h read frames key) (leads_print hspelled.1 trivial rfl)
  | (key, value) :: next :: rest, hspelled, _, frames, read, expect, h => by
      have hfirst : Leads ⟨.object read :: frames, expect⟩
          (quote key.toList ++ [':'] ++ value.print)
          ⟨.object ((key, value) :: read) :: frames, .next⟩ :=
        .of_append (run_key h read frames key) (leads_print hspelled.1 trivial rfl)
      have hrest := leads_printMembers hspelled.2 (List.cons_ne_nil next rest) frames
        ((key, value) :: read) .key trivial
      rw [List.append_cons, ← List.reverse_cons] at hrest
      rw [printMembers, printMembers, List.intercalate_cons_cons]
      exact .of_append (hfirst.run_concat rfl rfl) hrest

end

end Reader

/-- The compact text of a value is read as the value. -/
theorem parse?_compact {j : Json} (h : j.IsSpelled) : parse? j.compact = some j := by
  have hleads : Reader.Leads ⟨[], .value⟩ j.print ⟨[], .done j⟩ := Reader.leads_print h trivial rfl
  obtain ⟨r, hrun, hsettle⟩ := Option.bind_eq_some_iff.mp hleads
  rw [parse?, compact, String.toList_ofList, read?, Reader.init, hrun, Option.bind_some,
    Reader.result?, hsettle]

end ScriptHost.Json
