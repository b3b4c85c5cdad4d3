import ScriptHost.Tree.Print

/-!
# Texts with marked line breaks

A `Layout` is a text in which some line breaks are marked with a depth. It is filled in for `k` levels
further in: behind each marked line break stand the blanks of its depth, `k` levels further in. Its
rows are the same for every `k`, but for the blanks in front of those behind a marked line break
(`Layout.exists_rows`).

A family of texts, one for each `k` up to a limit, fits the rows that its layout marks (`Fits`).
Families are put one behind the other (`Fits.append`), and the choices of the printer that look at a
text come out the same for every `k` (`Fits.closing_eq`, `Fits.spacing_eq`).
-/

set_option autoImplicit false

namespace ScriptHost.Tree

/-! ## Rows -/

/-- The rows of a text, without the line breaks between them. -/
def rows (text : String) : List (List Char) := text.toList.splitOn '\n'

/-- The number of line breaks in a text. -/
def breaks (text : List Char) : Nat := text.count '\n'

@[simp] theorem breaks_nil : breaks [] = 0 := rfl

@[simp] theorem breaks_append (before text : List Char) :
    breaks (before ++ text) = breaks before + breaks text := List.count_append

@[simp] theorem breaks_cons_lineBreak (text : List Char) :
    breaks ('\n' :: text) = 1 + breaks text :=
  breaks_append ['\n'] text

/-! ## Further in -/

namespace Depth

/-- The depth `k` levels further in. -/
def deeper (d : Depth) (k : Nat) : Depth := ⟨d.level + UInt64.ofNat k⟩

@[simp] theorem deeper_zero (d : Depth) : d.deeper 0 = d :=
  congrArg mk (UInt64.add_zero d.level)

theorem deeper_one (d : Depth) : d.deeper 1 = d.nested := rfl

theorem nested_deeper (d : Depth) (k : Nat) : (d.deeper k).nested = d.nested.deeper k := by
  rw [nested, deeper, deeper, nested, UInt64.add_assoc, UInt64.add_comm (.ofNat k),
    ← UInt64.add_assoc]

variable {d : Depth} {k : Nat}

theorem toNat_level_deeper (h : d.level.toNat + k < UInt64.size) :
    (d.deeper k).level.toNat = d.level.toNat + k := by
  have hk : k < UInt64.size := Nat.lt_of_le_of_lt (Nat.le_add_left k d.level.toNat) h
  rw [deeper, UInt64.toNat_add, UInt64.toNat_ofNat_of_lt' hk]
  exact Nat.mod_eq_of_lt h

theorem isTop_deeper (hd : d.isTop = false) (h : d.level.toNat + k < UInt64.size) :
    (d.deeper k).isTop = false := by
  rw [isTop_eq_false_iff] at hd ⊢
  rw [toNat_level_deeper h]
  omega

theorem eq_blank_of_mem_indent {c : Char} (h : c ∈ d.indent) : c = ' ' := List.eq_of_mem_replicate h

@[simp] theorem breaks_indent (d : Depth) : breaks d.indent = 0 :=
  List.count_eq_zero.mpr fun h => absurd (eq_blank_of_mem_indent h) (by decide)

end Depth

/-! ## Layouts -/

/-- A text in which some line breaks are marked: `.inr d` is one in front of a statement at
depth `d`. -/
abbrev Layout := List (Char ⊕ Depth)

namespace Layout

/-- The text of a layout with its statements `k` levels further in. -/
def text (k : Nat) : Layout → List Char
  | [] => []
  | .inl c :: L => c :: text k L
  | .inr d :: L => '\n' :: ((d.deeper k).indent ++ text k L)

/-- Row `i` stands behind a marked line break. -/
def Marks : Layout → Nat → Prop
  | [], _ => False
  | .inl c :: L, i => ∃ j, Marks L j ∧ i = breaks [c] + j
  | .inr _ :: L, i => i = 1 ∨ ∃ j, Marks L j ∧ i = 1 + j

@[simp] theorem text_map_inl (k : Nat) (t : List Char) : text k (t.map .inl) = t := by
  induction t with
  | nil => rfl
  | cons c t ih => rw [List.map_cons, text, ih]

@[simp] theorem text_append (k : Nat) (L M : Layout) : text k (L ++ M) = text k L ++ text k M := by
  induction L with
  | nil => rfl
  | cons x L ih => cases x <;> simp [text, ih]

theorem not_marks_map_inl (t : List Char) (i : Nat) : ¬ Marks (t.map .inl) i := by
  induction t generalizing i with
  | nil => exact id
  | cons c t ih => exact fun ⟨j, hj, _⟩ => ih j hj

/-- The blanks bring no line break along, so the rows behind a layout keep their numbers. -/
theorem marks_append (k : Nat) (L M : Layout) (i : Nat) :
    Marks (L ++ M) i ↔ Marks L i ∨ ∃ j, Marks M j ∧ i = breaks (text k L) + j := by
  induction L generalizing i with
  | nil => simp [Marks, text]
  | cons x L ih =>
      cases x with
      | inl c =>
          have hbreaks : breaks (c :: text k L) = breaks [c] + breaks (text k L) :=
            breaks_append [c] _
          simp only [List.cons_append, Marks, text, ih, hbreaks, or_and_right, exists_or]
          grind
      | inr d =>
          have hbreaks : breaks ('\n' :: ((d.deeper k).indent ++ text k L))
              = 1 + breaks (text k L) := by simp
          simp only [List.cons_append, Marks, text, ih, hbreaks, or_and_right, exists_or]
          grind

/-- A marked line break is no semicolon, and the blanks behind it are none either. -/
theorem getLast?_text_eq_semicolon (k : Nat) (L : Layout) :
    (text k L).getLast? = some ';' ↔ L.getLast? = some (.inl ';') := by
  rcases L.eq_nil_or_concat with rfl | ⟨L, x, rfl⟩
  · simp [text]
  · cases x with
    | inl c => simp [text]
    | inr d =>
        have hblank : List.getLast? ('\n' :: (d.deeper k).indent) ≠ some ';' := by
          intro h
          rcases List.mem_cons.mp (List.mem_of_getLast? h) with h | h
          · exact absurd h (by decide)
          · exact absurd (Depth.eq_blank_of_mem_indent h) (by decide)
        simpa [text] using hblank

/-- The first character of a layout's text. -/
theorem head?_text (k : Nat) (L : Layout) :
    (text k L).head? = L.head?.map fun x => x.elim id fun _ => '\n' := by
  cases L with
  | nil => rfl
  | cons x L => cases x <;> rfl

/-! ### The rows of a layout -/

/-- A row, `k` levels further in: with blanks in front if it stands behind a marked line break. -/
def indentRow (k : Nat) : Option Depth × List Char → List Char
  | (some d, row) => (d.deeper k).indent ++ row
  | (none, row) => row

theorem splitOn_blanks (n : Nat) (t : List Char) :
    (List.replicate n ' ' ++ t).splitOn '\n'
      = (t.splitOn '\n').modifyHead (List.replicate n ' ' ++ ·) := by
  induction n with
  | zero => cases h : t.splitOn '\n' <;> simp [h]
  | succ n ih =>
      rw [List.replicate_succ, List.cons_append, List.splitOn_cons_eq_if_modifyHead,
        if_neg (by decide), ih, List.modifyHead_modifyHead]
      rfl

/-- Row `i` is one of those behind the first row that stand behind a marked line break. -/
def MarkedRow (rest : List (Option Depth × List Char)) (i : Nat) : Prop :=
  ∃ j d row, i = j + 1 ∧ rest[j]? = some (some d, row)

theorem markedRow_cons (mark : Option Depth) (row : List Char)
    (rest : List (Option Depth × List Char)) (i : Nat) :
    MarkedRow ((mark, row) :: rest) i
      ↔ (mark.isSome = true ∧ i = 1) ∨ ∃ j, MarkedRow rest j ∧ i = 1 + j := by
  constructor
  · rintro ⟨j, d, row, rfl, hrow⟩
    cases j with
    | zero => exact .inl ⟨by simp_all, rfl⟩
    | succ j => exact .inr ⟨j + 1, ⟨j, d, row, rfl, hrow⟩, Nat.add_comm _ 1⟩
  · rintro (⟨hmark, rfl⟩ | ⟨_, ⟨j, d, row, rfl, hrow⟩, rfl⟩)
    · obtain ⟨d, rfl⟩ := Option.isSome_iff_exists.mp hmark
      exact ⟨0, d, row, rfl, rfl⟩
    · exact ⟨j + 1, d, row, Nat.add_comm 1 _, hrow⟩

/-- The first row of a layout, and the rows behind it, each with its mark if it stands behind a
marked line break. -/
theorem exists_rows (L : Layout) :
    ∃ (first : List Char) (rest : List (Option Depth × List Char)),
      (∀ k, (text k L).splitOn '\n' = first :: rest.map (indentRow k)) ∧
      (∀ i, Marks L i ↔ MarkedRow rest i) ∧
      ∀ d row, (some d, row) ∈ rest → .inr d ∈ L := by
  induction L with
  | nil => exact ⟨[], [], fun _ => rfl, by simp [Marks, MarkedRow], by simp⟩
  | cons x L ih =>
      obtain ⟨first, rest, htext, hmarks, hdepths⟩ := ih
      have hbehind : ∀ d row, (some d, row) ∈ rest → .inr d ∈ x :: L :=
        fun d row hrow => List.mem_cons_of_mem x (hdepths d row hrow)
      -- What was the first row begins behind a line break, marked or not; any other character goes
      -- to the front of it.
      cases x with
      | inr d =>
          refine ⟨[], (some d, first) :: rest, fun k => ?_, fun i => ?_, fun e row hrow => ?_⟩
          · rw [text, List.splitOn_cons_eq_if_modifyHead, if_pos (by decide), Depth.indent,
              splitOn_blanks, htext]
            rfl
          · simp [Marks, markedRow_cons, hmarks]
          · rcases List.mem_cons.mp hrow with heq | hrow
            · cases heq
              exact List.mem_cons_self
            · exact hbehind e row hrow
      | inl c =>
          by_cases hc : c = '\n'
          · subst hc
            refine ⟨[], (none, first) :: rest, fun k => ?_, fun i => ?_, fun e row hrow => ?_⟩
            · rw [text, List.splitOn_cons_eq_if_modifyHead, if_pos (by decide), htext]
              rfl
            · simp [Marks, markedRow_cons, hmarks, breaks]
            · exact hbehind e row (by simpa using hrow)
          · refine ⟨c :: first, rest, fun k => ?_, fun i => ?_, hbehind⟩
            · rw [text, List.splitOn_cons_eq_if_modifyHead, if_neg (by simpa using hc), htext]
              rfl
            · simp [Marks, hmarks, breaks, hc]

/-- The blanks in front of a row do not show once blanks are left out. -/
theorem dropWhile_indentRow (k : Nat) (row : Option Depth × List Char) :
    (indentRow k row).dropWhile (· == ' ') = row.2.dropWhile (· == ' ') := by
  obtain ⟨mark, row⟩ := row
  cases mark with
  | none => rfl
  | some d => simp [indentRow, Depth.indent]

theorem ne_indented (row : List Char) : row ≠ ' ' :: ' ' :: row := by
  intro h
  have hlength := congrArg List.length h
  simp only [List.length_cons] at hlength
  omega

section

variable {first : List Char} {rest : List (Option Depth × List Char)} {i : Nat}

/-- When the marks have two more blanks one level further in, a row is marked exactly when it has. -/
theorem markedRow_iff
    (hdeeper : ∀ d row, (some d, row) ∈ rest → d.nested.indent = ' ' :: ' ' :: d.indent) :
    MarkedRow rest i ↔ ∃ row, (first :: rest.map (indentRow 0))[i]? = some row ∧
      (first :: rest.map (indentRow 1))[i]? = some (' ' :: ' ' :: row) := by
  constructor
  · rintro ⟨j, d, row, rfl, hrow⟩
    have hindent := hdeeper d row (List.mem_of_getElem? hrow)
    exact ⟨d.indent ++ row, by simp [hrow, indentRow],
      by simp [hrow, indentRow, Depth.deeper_one, hindent]⟩
  · rintro ⟨row, hzero, hone⟩
    cases i with
    | zero =>
        -- the first row stays, and is not itself with blanks in front
        rw [List.getElem?_cons_zero, Option.some.injEq] at hzero hone
        exact absurd (hzero.symm.trans hone) (ne_indented row)
    | succ j =>
        simp only [List.getElem?_cons_succ, List.getElem?_map, Option.map_eq_some_iff] at hzero hone
        obtain ⟨⟨mark, row'⟩, hj, rfl⟩ := hzero
        obtain ⟨_, hj', hone⟩ := hone
        obtain rfl := Option.some.inj (hj.symm.trans hj')
        cases mark with
        | some d => exact ⟨j, d, row', rfl, hj⟩
        | none => exact absurd hone (ne_indented row')

/-- Every other row stays. -/
theorem getElem?_of_not_markedRow (h : ¬ MarkedRow rest i) :
    (first :: rest.map (indentRow 1))[i]? = (first :: rest.map (indentRow 0))[i]? := by
  cases i with
  | zero => rfl
  | succ j =>
      simp only [List.getElem?_cons_succ, List.getElem?_map]
      cases hj : rest[j]? with
      | none => rfl
      | some row =>
          obtain ⟨mark, row⟩ := row
          cases mark with
          | some d => exact absurd ⟨j, d, row, rfl, hj⟩ h
          | none => rfl

end

end Layout

/-! ## Texts at many depths -/

/-- The texts for `k` up to `limit` are one layout, `k` levels further in; its marks have the property
`P`, and the rows that it marks are those of `starts`. -/
def Fits (limit : Nat) (P : Depth → Prop) (text : Nat → List Char) (starts : Nat → Nat → Prop) :
    Prop :=
  ∃ L : Layout, (∀ d, .inr d ∈ L → P d) ∧
    ∀ k ≤ limit, text k = L.text k ∧ ∀ i, starts k i ↔ L.Marks i

namespace Fits

variable {limit : Nat} {P : Depth → Prop} {text next : Nat → List Char}
  {starts starts' : Nat → Nat → Prop}

theorem congr (h : Fits limit P text starts) (htext : ∀ k ≤ limit, next k = text k)
    (hstarts : ∀ k ≤ limit, ∀ i, starts' k i ↔ starts k i) : Fits limit P next starts' := by
  obtain ⟨L, hP, hL⟩ := h
  refine ⟨L, hP, fun k hk => ⟨(htext k hk).trans (hL k hk).1, fun i => ?_⟩⟩
  exact (hstarts k hk i).trans ((hL k hk).2 i)

/-- A text that is the same for every `k` marks nothing. -/
theorem const (t : List Char) : Fits limit P (fun _ => t) fun _ _ => False := by
  refine ⟨t.map .inl, fun d hd => absurd hd (by simp), fun k _ => ⟨?_, fun i => ?_⟩⟩
  · exact (Layout.text_map_inl k t).symm
  · exact iff_of_false id (Layout.not_marks_map_inl t i)

/-- A line break with the blanks of a statement behind it marks the row that it begins. -/
theorem lineBreak {d : Depth} (hd : P d) :
    Fits limit P (fun k => '\n' :: (d.deeper k).indent) fun _ i => i = 1 := by
  refine ⟨[.inr d], fun e he => ?_, fun k _ => by simp [Layout.text, Layout.Marks]⟩
  cases List.mem_singleton.mp he
  exact hd

theorem append (h : Fits limit P text starts) (h' : Fits limit P next starts') :
    Fits limit P (fun k => text k ++ next k)
      fun k i => starts k i ∨ ∃ j, starts' k j ∧ i = breaks (text k) + j := by
  obtain ⟨L, hP, hL⟩ := h
  obtain ⟨M, hP', hM⟩ := h'
  refine ⟨L ++ M, fun d hd => ?_, fun k hk => ⟨?_, fun i => ?_⟩⟩
  · exact (List.mem_append.mp hd).elim (hP d) (hP' d)
  · rw [Layout.text_append, ← (hL k hk).1, ← (hM k hk).1]
  · simp only [Layout.marks_append k, (hL k hk).2, (hM k hk).2, (hL k hk).1]

/-! ### The choices that look at a text -/

variable {k : Nat}

/-- Whether a text ends in a semicolon does not depend on the blanks. -/
theorem closing_eq (h : Fits limit P text starts) (body : Node) (hk : k ≤ limit) :
    closing body (text k) = closing body (text 0) := by
  obtain ⟨L, -, hL⟩ := h
  have hlast : ((L.text k).getLast? == some ';') = ((L.text 0).getLast? == some ';') := by
    rw [Bool.eq_iff_iff, beq_iff_eq, beq_iff_eq, Layout.getLast?_text_eq_semicolon,
      Layout.getLast?_text_eq_semicolon]
  rw [closing, closing, (hL k hk).1, (hL 0 (Nat.zero_le limit)).1, hlast]

/-- Whether a text begins with a sign does not depend on the blanks. -/
theorem spacing_eq (h : Fits limit P text starts) (operator : List Char) (hk : k ≤ limit) :
    spacing operator (text k) = spacing operator (text 0) := by
  obtain ⟨L, -, hL⟩ := h
  rw [spacing, spacing, (hL k hk).1, (hL 0 (Nat.zero_le limit)).1, Layout.head?_text,
    Layout.head?_text]

end Fits

end ScriptHost.Tree
