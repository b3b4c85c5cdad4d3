import ScriptHost.Loader.Path

/-!
# The way of a path

Behind its front a path goes a way: the pieces of its text that are neither empty nor `.`, each a
name or `..` (`Path.way`). Together with the front it is the list of components
(`Path.components_eq`).

Whether a path is absolute and which way it goes is told for each operation on paths: joining two
puts their ways one behind the other (`Path.way_join`), a path that is made of steps goes these
steps and no others (`Path.ofWay_eq`), and the path without its last step has the same front and
the rest of the way (`Path.exists_parent`).
-/

set_option autoImplicit false

namespace ScriptHost.Loader

/-! ## Names and pieces -/

/-- What a file can be called in its directory. -/
structure IsName (name : List Char) : Prop where
  ne_nil : name ≠ []
  ne_here : name ≠ ['.']
  ne_up : name ≠ ['.', '.']
  no_slash : '/' ∉ name

theorem exists_pieces_eq_cons (text : List Char) :
    ∃ piece others, pieces text = piece :: others := by
  cases text with
  | nil => exact ⟨[], [], rfl⟩
  | cons c text =>
      rw [pieces]
      split
      · exact ⟨[], pieces text, rfl⟩
      · split
        · exact ⟨[c], [], rfl⟩
        · rename_i piece others _
          exact ⟨c :: piece, others, rfl⟩

theorem pieces_append_slash (text rest : List Char) :
    pieces (text ++ '/' :: rest) = pieces text ++ pieces rest := by
  induction text with
  | nil => rfl
  | cons c text ih =>
      rw [List.cons_append, pieces, pieces]
      by_cases hc : c = '/'
      · rw [if_pos hc, if_pos hc, ih, List.cons_append]
      · obtain ⟨piece, others, hpieces⟩ := exists_pieces_eq_cons text
        rw [if_neg hc, if_neg hc, ih, hpieces]
        rfl

theorem pieces_of_no_slash {name : List Char} (h : '/' ∉ name) : pieces name = [name] := by
  induction name with
  | nil => rfl
  | cons c name ih =>
      have hc : c ≠ '/' := fun hc => h (hc ▸ List.mem_cons_self)
      have hname : '/' ∉ name := fun hmem => h (List.mem_cons_of_mem c hmem)
      rw [pieces, if_neg hc, ih hname]

theorem no_slash_of_mem_pieces {text piece : List Char} (h : piece ∈ pieces text) :
    '/' ∉ piece := by
  induction text generalizing piece with
  | nil =>
      rw [pieces, List.mem_singleton] at h
      rw [h]
      exact List.not_mem_nil
  | cons c text ih =>
      rw [pieces] at h
      by_cases hc : c = '/'
      · rw [if_pos hc] at h
        rcases List.mem_cons.mp h with rfl | hrest
        · exact List.not_mem_nil
        · exact ih hrest
      · rw [if_neg hc] at h
        obtain ⟨first, others, hpieces⟩ := exists_pieces_eq_cons text
        rw [hpieces] at h ih
        rcases List.mem_cons.mp h with rfl | hrest
        · intro hslash
          rcases List.mem_cons.mp hslash with heq | hmem
          · exact hc heq.symm
          · exact ih List.mem_cons_self hmem
        · exact ih (List.mem_cons_of_mem first hrest)

theorem IsName.of_piece {piece : List Char} (hslash : '/' ∉ piece) (hidle : ¬ isIdle piece = true)
    (hup : piece ≠ ['.', '.']) : IsName piece := by
  have hne : ¬ (piece = [] ∨ piece = ['.']) := by
    simpa only [isIdle, Bool.or_eq_true, beq_iff_eq] using hidle
  exact ⟨fun h => hne (.inl h), fun h => hne (.inr h), hup, hslash⟩

theorem IsName.ofPiece? {name : List Char} (h : IsName name) :
    Component.ofPiece? name = some (.name name) := by
  have hidle : ¬ isIdle name = true := by
    rw [isIdle, Bool.or_eq_true, beq_iff_eq, beq_iff_eq]
    rintro (hnil | hhere)
    · exact h.ne_nil hnil
    · exact h.ne_here hhere
  rw [Component.ofPiece?, if_neg hidle, if_neg h.ne_up]

/-! ### Slashes between pieces -/

theorem joinPieces_singleton (piece : List Char) : joinPieces [piece] = piece :=
  List.intercalate_singleton

theorem joinPieces_cons_cons (piece next : List Char) (others : List (List Char)) :
    joinPieces (piece :: next :: others) = piece ++ '/' :: joinPieces (next :: others) := by
  rw [joinPieces, List.intercalate_cons_cons, List.append_assoc]
  rfl

theorem joinPieces_append {ps qs : List (List Char)} (hps : ps ≠ []) (hqs : qs ≠ []) :
    joinPieces (ps ++ qs) = joinPieces ps ++ '/' :: joinPieces qs := by
  induction ps with
  | nil => exact absurd rfl hps
  | cons piece ps ih =>
      cases ps with
      | nil =>
          obtain ⟨next, others, rfl⟩ := List.exists_cons_of_ne_nil hqs
          rw [joinPieces_singleton]
          exact joinPieces_cons_cons piece next others
      | cons next others =>
          have hrest := ih (List.cons_ne_nil next others)
          rw [List.cons_append, List.cons_append, joinPieces_cons_cons, joinPieces_cons_cons,
            ← List.cons_append, hrest, List.append_assoc]
          rfl

theorem joinPieces_pieces (text : List Char) : joinPieces (pieces text) = text := by
  induction text with
  | nil => rfl
  | cons c text ih =>
      obtain ⟨piece, others, hpieces⟩ := exists_pieces_eq_cons text
      rw [hpieces] at ih
      rw [pieces, hpieces]
      split
      · rename_i hc
        rw [joinPieces_cons_cons, ih, hc]
        rfl
      · cases others with
        | nil => exact congrArg (List.cons c) ih
        | cons next others =>
            rw [joinPieces_cons_cons] at ih
            show joinPieces ((c :: piece) :: next :: others) = c :: text
            rw [joinPieces_cons_cons, List.cons_append, ih]

theorem pieces_joinPieces {ps : List (List Char)} (hne : ps ≠ [])
    (hslash : ∀ piece ∈ ps, '/' ∉ piece) : pieces (joinPieces ps) = ps := by
  induction ps with
  | nil => exact absurd rfl hne
  | cons piece ps ih =>
      have hpiece : pieces piece = [piece] := pieces_of_no_slash (hslash piece List.mem_cons_self)
      cases ps with
      | nil => rwa [joinPieces_singleton]
      | cons next others =>
          rw [joinPieces_cons_cons, pieces_append_slash, hpiece,
            ih (List.cons_ne_nil next others) fun p hp => hslash p (List.mem_cons_of_mem piece hp)]
          rfl

/-! ## Steps -/

/-- A component that stands for a piece of text: a name or `..`. -/
def Component.IsStep : Component → Prop
  | .up => True
  | .name text => IsName text
  | _ => False

theorem Component.IsStep.of_ofPiece? {piece : List Char} {c : Component} (hslash : '/' ∉ piece)
    (h : Component.ofPiece? piece = some c) : c.IsStep ∧ c.text = piece := by
  rw [ofPiece?] at h
  split at h
  · cases h
  · split at h
    · rename_i hup
      cases h
      exact ⟨trivial, hup.symm⟩
    · rename_i hidle hup
      cases h
      exact ⟨.of_piece hslash hidle hup, rfl⟩

theorem Component.IsStep.ofPiece?_text {c : Component} (h : c.IsStep) :
    Component.ofPiece? c.text = some c := by
  cases c with
  | root => cases h
  | here => cases h
  | up => rfl
  | name text => exact IsName.ofPiece? h

theorem Component.IsStep.no_slash {c : Component} (h : c.IsStep) : '/' ∉ c.text := by
  cases c with
  | root => cases h
  | here => cases h
  | up => decide
  | name text => exact IsName.no_slash h

theorem ofPiece?_eq_none_iff {piece : List Char} :
    Component.ofPiece? piece = none ↔ isIdle piece = true := by
  rw [Component.ofPiece?]
  constructor
  · intro h
    split at h
    · assumption
    · split at h <;> cases h
  · exact fun h => if_pos h

theorem filterMap_ofPiece?_idle {ps : List (List Char)} (h : ∀ piece ∈ ps, isIdle piece = true) :
    ps.filterMap Component.ofPiece? = [] :=
  List.filterMap_eq_nil_iff.mpr fun piece hpiece => ofPiece?_eq_none_iff.mpr (h piece hpiece)

namespace Path

/-- The steps behind the front of a path. -/
def way (p : Path) : List Component := (pieces p.text).filterMap Component.ofPiece?

theorem isStep_of_mem_way {p : Path} {c : Component} (h : c ∈ p.way) : c.IsStep := by
  obtain ⟨piece, hpiece, hc⟩ := List.mem_filterMap.mp h
  exact (Component.IsStep.of_ofPiece? (no_slash_of_mem_pieces hpiece) hc).1

theorem isName_of_way {p : Path} {directories : List Component} {name : List Char}
    (h : p.way = directories ++ [.name name]) : IsName name := by
  have hstep : Component.IsStep (.name name) :=
    isStep_of_mem_way (h ▸ List.mem_append_right directories List.mem_cons_self)
  exact hstep

theorem way_append_slash (before after : List Char) :
    way ⟨before ++ '/' :: after⟩ = way ⟨before⟩ ++ way ⟨after⟩ := by
  rw [way, way, way, ← List.filterMap_append, ← pieces_append_slash]

theorem way_concat_slash (before : List Char) : way ⟨before ++ ['/']⟩ = way ⟨before⟩ :=
  (way_append_slash before []).trans (List.append_nil _)

theorem way_step {c : Component} (h : c.IsStep) : way ⟨c.text⟩ = [c] := by
  rw [way, pieces_of_no_slash h.no_slash, List.filterMap_cons_some h.ofPiece?_text,
    List.filterMap_nil]

theorem way_joinPieces {ps : List (List Char)} (hslash : ∀ piece ∈ ps, '/' ∉ piece) :
    way ⟨joinPieces ps⟩ = ps.filterMap Component.ofPiece? := by
  cases ps with
  | nil => rfl
  | cons piece ps => rw [way, pieces_joinPieces (List.cons_ne_nil piece ps) hslash]

/-! ## The front -/

theorem exists_text_of_isAbsolute {p : Path} (h : p.isAbsolute = true) :
    ∃ body, p = ⟨'/' :: body⟩ := by
  obtain ⟨text⟩ := p
  rw [isAbsolute, beq_iff_eq] at h
  obtain ⟨body, rfl⟩ := List.head?_eq_some_iff.mp h
  exact ⟨body, rfl⟩

theorem isAbsolute_iff {p : Path} : p.isAbsolute = true ↔ p.front? = some .root := by
  unfold front?
  constructor
  · exact fun h => if_pos h
  · intro h
    split at h
    · assumption
    · split at h <;> cases h

theorem isAbsolute_of_front {p q : Path} (h : p.front? = q.front?) :
    p.isAbsolute = q.isAbsolute := by
  rw [Bool.eq_iff_iff, isAbsolute_iff, isAbsolute_iff, h]

/-- The three ways in which a path can begin: with a slash, with a `.` that is a whole piece, or
with a step. -/
theorem front_cases (p : Path) :
    (p.front? = some .root ∧ p.text = '/' :: p.body) ∨
      (p.front? = some .here ∧ p.text = '.' :: p.body ∧
        (p.body = [] ∨ ∃ rest, p.body = '/' :: rest)) ∨
      (p.front? = none ∧ p.text = p.body) := by
  obtain ⟨text⟩ := p
  cases hfront : front? ⟨text⟩ with
  | none => exact .inr (.inr ⟨rfl, by rw [body, hfront]; rfl⟩)
  | some c =>
      have hbody : body ⟨text⟩ = text.drop 1 := by rw [body, hfront]; rfl
      rw [hbody]
      unfold front? at hfront
      split at hfront
      · rename_i habsolute
        obtain ⟨rest, heq⟩ := exists_text_of_isAbsolute habsolute
        cases heq
        cases hfront
        exact .inl ⟨rfl, rfl⟩
      · split at hfront
        · rename_i hhere
          cases hfront
          obtain ⟨others, hpieces⟩ := List.head?_eq_some_iff.mp hhere
          have htext : joinPieces (['.'] :: others) = text := hpieces ▸ joinPieces_pieces text
          refine .inr (.inl ?_)
          cases others with
          | nil =>
              subst htext
              exact ⟨rfl, rfl, .inl rfl⟩
          | cons next others =>
              rw [joinPieces_cons_cons] at htext
              subst htext
              exact ⟨rfl, rfl, .inr ⟨_, rfl⟩⟩
        · cases hfront

/-- A path starts with the text of its front. -/
theorem text_eq (p : Path) : p.text = (p.front?.map Component.text).getD [] ++ p.body := by
  rcases p.front_cases with ⟨hfront, htext⟩ | ⟨hfront, htext, -⟩ | ⟨hfront, htext⟩
  all_goals rw [hfront]; exact htext

theorem way_body (p : Path) : (pieces p.body).filterMap Component.ofPiece? = p.way := by
  -- the front is an idle piece of the text, or the slash behind an empty one
  rcases p.front_cases with ⟨-, htext⟩ | ⟨-, htext, hbody | ⟨rest, hbody⟩⟩ | ⟨-, htext⟩
  · rw [way, htext]
    rfl
  · rw [way, htext, hbody]
    rfl
  · rw [way, htext, hbody]
    rfl
  · rw [way, htext]

/-- The components of a path are its front and its way. -/
theorem components_eq (p : Path) : p.components = p.front?.toList ++ p.way := by
  rw [components, way_body]

theorem fileName?_eq_some_iff {p : Path} {name : List Char} :
    p.fileName? = some name ↔ ∃ directory, p.way = directory ++ [.name name] := by
  have hlast : p.fileName? = some name ↔ p.components.getLast? = some (.name name) := by
    unfold fileName?
    split
    · rename_i text hlast
      rw [hlast, Option.some.injEq, Option.some.injEq, Component.name.injEq]
    · rename_i hother
      refine ⟨nofun, fun h => absurd h (hother name)⟩
  rw [hlast, components_eq, List.getLast?_append]
  constructor
  · intro h
    cases hway : p.way.getLast? with
    | none =>
        rw [hway, Option.none_or] at h
        -- the front is no name
        rcases p.front_cases with ⟨hfront, -⟩ | ⟨hfront, -⟩ | ⟨hfront, -⟩
        all_goals rw [hfront] at h; cases h
    | some c =>
        rw [hway, Option.some_or] at h
        cases h
        exact List.getLast?_eq_some_iff.mp hway
  · rintro ⟨directory, hway⟩
    rw [hway, List.getLast?_concat, Option.some_or]

/-- What stands behind a slash is no part of the front. -/
theorem front?_append_slash {before : List Char} (h : before ≠ []) (after : List Char) :
    front? ⟨before ++ '/' :: after⟩ = front? ⟨before⟩ := by
  obtain ⟨c, before, rfl⟩ := List.exists_cons_of_ne_nil h
  obtain ⟨piece, others, hpieces⟩ := exists_pieces_eq_cons (c :: before)
  rw [front?, front?, pieces_append_slash, hpieces]
  rfl

theorem front?_append_slash_congr (before after after' : List Char) :
    front? ⟨before ++ '/' :: after⟩ = front? ⟨before ++ '/' :: after'⟩ := by
  by_cases h : before = []
  · rw [h]
    rfl
  · rw [front?_append_slash h, front?_append_slash h]

theorem isAbsolute_append_slash (before after after' : List Char) :
    isAbsolute ⟨before ++ '/' :: after⟩ = isAbsolute ⟨before ++ '/' :: after'⟩ :=
  isAbsolute_of_front (front?_append_slash_congr before after after')

theorem isAbsolute_step {c : Component} (h : c.IsStep) : isAbsolute ⟨c.text⟩ = false := by
  rw [isAbsolute, beq_eq_false_iff_ne]
  exact fun hhead => h.no_slash (List.mem_of_head? hhead)

/-- A step has no front of its own. -/
theorem front?_step {c : Component} (h : c.IsStep) : front? ⟨c.text⟩ = none := by
  have hdot : ¬ (pieces c.text).head? = some ['.'] := by
    rw [pieces_of_no_slash h.no_slash]
    intro hhead
    have hnone : Component.ofPiece? c.text = none := by
      rw [Option.some.inj hhead]
      rfl
    rw [h.ofPiece?_text] at hnone
    cases hnone
  rw [front?, isAbsolute_step h, if_neg Bool.false_ne_true, if_neg hdot]

/-! ## Joining -/

/-- A relative path behind another one stands behind a slash, which may be the last character of
the other. -/
theorem join_cases {q : Path} (hq : q.isAbsolute = false) (p : Path) :
    (p.text = [] ∧ p.join q = q) ∨
      ∃ before, (p.text = before ∧ before ≠ [] ∨ p.text = before ++ ['/']) ∧
        p.join q = ⟨before ++ '/' :: q.text⟩ := by
  rw [join, hq, if_neg Bool.false_ne_true]
  by_cases hempty : p.text = []
  · exact .inl ⟨hempty, by rw [hempty]; rfl⟩
  · refine .inr ?_
    by_cases hlast : p.text.getLast? = some '/'
    · obtain ⟨before, hbefore⟩ := List.getLast?_eq_some_iff.mp hlast
      refine ⟨before, .inr hbefore, ?_⟩
      rw [if_pos (by rw [hlast]; simp), hbefore, List.append_assoc]
      rfl
    · refine ⟨p.text, .inl ⟨rfl, hempty⟩, ?_⟩
      rw [if_neg (by simp [hempty, hlast]), List.append_assoc]
      rfl

/-- The way of two paths joined is the one way and then the other. -/
theorem way_join {q : Path} (hq : q.isAbsolute = false) (p : Path) :
    (p.join q).way = p.way ++ q.way := by
  rcases join_cases hq p with ⟨htext, hjoin⟩ | ⟨before, htext, hjoin⟩
  · have hway : p.way = [] := by
      rw [way, htext]
      rfl
    rw [hjoin, hway, List.nil_append]
  · have hway : p.way = way ⟨before⟩ := by
      rcases htext with ⟨htext, -⟩ | htext
      · rw [way, htext]
        rfl
      · rw [way, htext]
        exact way_concat_slash before
    rw [hjoin, way_append_slash, hway]

/-- A path that a step is put behind keeps its front. -/
theorem front?_join_step {c : Component} (h : c.IsStep) (p : Path) :
    (p.join ⟨c.text⟩).front? = p.front? := by
  obtain ⟨text⟩ := p
  rcases join_cases (isAbsolute_step h) ⟨text⟩ with ⟨htext, hjoin⟩ | ⟨before, htext, hjoin⟩
  · cases htext
    rw [hjoin, front?_step h]
    rfl
  · rw [hjoin]
    rcases htext with ⟨htext, hne⟩ | htext
    · cases htext
      exact front?_append_slash hne c.text
    · cases htext
      exact front?_append_slash_congr before c.text []

theorem way_join_step {c : Component} (h : c.IsStep) (p : Path) :
    (p.join ⟨c.text⟩).way = p.way ++ [c] := by
  rw [way_join (isAbsolute_step h), way_step h]

theorem foldl_join {cs : List Component} (hcs : ∀ c ∈ cs, c.IsStep) (p : Path) :
    (cs.foldl (fun p c => p.join ⟨c.text⟩) p).front? = p.front? ∧
      (cs.foldl (fun p c => p.join ⟨c.text⟩) p).way = p.way ++ cs := by
  induction cs generalizing p with
  | nil => exact ⟨rfl, (List.append_nil _).symm⟩
  | cons c cs ih =>
      have hc : c.IsStep := hcs c List.mem_cons_self
      have hrest : ∀ step ∈ cs, step.IsStep :=
        fun step hstep => hcs step (List.mem_cons_of_mem c hstep)
      obtain ⟨hfront, hway⟩ := ih hrest (p.join ⟨c.text⟩)
      rw [List.foldl_cons, hfront, hway, front?_join_step hc, way_join_step hc, List.append_assoc]
      exact ⟨rfl, rfl⟩

/-- The front of a path that is made anew: the top or none. -/
def newFront (absolute : Bool) : List Component := if absolute then [.root] else []

/-- The path that goes a way, from the top or not. -/
def ofWay (absolute : Bool) (cs : List Component) : Path := ofComponents (newFront absolute ++ cs)

theorem ofWay_concat (absolute : Bool) (cs : List Component) (c : Component) :
    ofWay absolute (cs ++ [c]) = (ofWay absolute cs).join ⟨c.text⟩ := by
  rw [ofWay, ofWay, ofComponents, ofComponents, ← List.append_assoc, List.foldl_append]
  rfl

theorem ofWay_eq {cs : List Component} (hcs : ∀ c ∈ cs, c.IsStep) (absolute : Bool) :
    (ofWay absolute cs).isAbsolute = absolute ∧ (ofWay absolute cs).way = cs ∧
      (ofWay absolute cs).components = newFront absolute ++ cs := by
  have hfold : ∃ p : Path, ofWay absolute cs = cs.foldl (fun p c => p.join ⟨c.text⟩) p ∧
      p.front?.toList = newFront absolute ∧ p.isAbsolute = absolute ∧ p.way = [] := by
    -- joined to the empty path, the root stands for itself
    cases absolute with
    | false => exact ⟨empty, rfl, rfl, rfl, rfl⟩
    | true => exact ⟨⟨['/']⟩, rfl, rfl, rfl, rfl⟩
  obtain ⟨p, heq, hfront, habsolute, hway⟩ := hfold
  obtain ⟨hfold, hsteps⟩ := foldl_join hcs p
  rw [components_eq, heq, isAbsolute_of_front hfold, habsolute, hfold, hfront, hsteps, hway]
  exact ⟨rfl, rfl, rfl⟩

/-! ## The path without its last component -/

/-- Behind the last step of a way there are only idle pieces. -/
theorem exists_last_piece {ps : List (List Char)} {directory : List Component} {c : Component}
    (h : ps.filterMap Component.ofPiece? = directory ++ [c]) :
    ∃ before piece idle, ps = before ++ piece :: idle ∧ Component.ofPiece? piece = some c ∧
      ∀ other ∈ idle, isIdle other = true := by
  obtain ⟨before, behind, rfl, -, hbehind⟩ := List.filterMap_eq_append_iff.mp h
  obtain ⟨skipped, piece, idle, rfl, -, hpiece, hidle⟩ := List.filterMap_eq_cons_iff.mp hbehind
  refine ⟨before ++ skipped, piece, idle, by rw [List.append_assoc], hpiece, ?_⟩
  intro other hother
  exact ofPiece?_eq_none_iff.mp (List.filterMap_eq_nil_iff.mp hidle other hother)

theorem dropWhile_isIdle {idle : List (List Char)} (hidle : ∀ other ∈ idle, isIdle other = true)
    {piece : List Char} {c : Component} (hpiece : Component.ofPiece? piece = some c)
    (rest : List (List Char)) : (idle ++ piece :: rest).dropWhile isIdle = piece :: rest := by
  rw [List.dropWhile_append_of_pos hidle]
  refine List.dropWhile_cons_of_neg fun h => ?_
  rw [ofPiece?_eq_none_iff.mpr h] at hpiece
  cases hpiece

/-- The text of the path without its last step ends before the idle pieces in front of that
step. -/
theorem exists_parent_pieces {p : Path} {directory : List Component} {c : Component}
    (h : p.way = directory ++ [c]) :
    ∃ kept cut, pieces p.body = kept ++ cut ∧ cut.filterMap Component.ofPiece? = [c] ∧
      p.parent? = some ⟨(p.front?.map Component.text).getD [] ++ joinPieces kept⟩ := by
  obtain ⟨before, piece, idle, hpieces, hpiece, hidle⟩ :=
    exists_last_piece ((way_body p).trans h)
  refine ⟨(before.reverse.dropWhile isIdle).reverse,
    (before.reverse.takeWhile isIdle).reverse ++ piece :: idle, ?_, ?_, ?_⟩
  · rw [hpieces, ← List.append_assoc, ← List.reverse_append, List.takeWhile_append_dropWhile,
      List.reverse_reverse]
  · have hskipped : ∀ other ∈ (before.reverse.takeWhile isIdle).reverse, isIdle other = true :=
      fun other hother =>
        List.all_eq_true.mp List.all_takeWhile other (List.mem_reverse.mp hother)
    rw [List.filterMap_append, filterMap_ofPiece?_idle hskipped, List.filterMap_cons_some hpiece,
      filterMap_ofPiece?_idle hidle]
    rfl
  · rw [parent?, hpieces, List.reverse_append, List.reverse_cons, List.append_assoc,
      List.singleton_append,
      dropWhile_isIdle (fun other hother => hidle other (List.mem_reverse.mp hother)) hpiece]

/-- The path without its last step keeps its front and the rest of its way. -/
theorem exists_parent {p : Path} {directory : List Component} {c : Component}
    (h : p.way = directory ++ [c]) :
    ∃ q, p.parent? = some q ∧ q.front? = p.front? ∧ q.way = directory := by
  obtain ⟨kept, cut, hpieces, hcut, hparent⟩ := exists_parent_pieces h
  refine ⟨_, hparent, ?_⟩
  have hslash : ∀ piece ∈ cut, '/' ∉ piece := fun piece hpiece =>
    no_slash_of_mem_pieces (hpieces ▸ List.mem_append_right kept hpiece)
  by_cases hkept : kept = []
  · -- the step was the first one, and the front is left
    have hdirectory : directory = [] := by
      have hway := (way_body p).trans h
      rw [hpieces, hkept, List.nil_append, hcut] at hway
      exact (List.append_cancel_right hway).symm
    rw [hkept, hdirectory]
    rcases p.front_cases with ⟨hfront, -⟩ | ⟨hfront, -⟩ | ⟨hfront, -⟩
    all_goals rw [hfront]; exact ⟨rfl, rfl⟩
  · -- the text goes on behind a slash with what is cut off
    have hne : cut ≠ [] := by
      rintro rfl
      cases hcut
    have htext : p.text
        = ((p.front?.map Component.text).getD [] ++ joinPieces kept) ++ '/' :: joinPieces cut := by
      rw [List.append_assoc, ← joinPieces_append hkept hne, ← hpieces, joinPieces_pieces]
      exact p.text_eq
    have hbefore : (p.front?.map Component.text).getD [] ++ joinPieces kept ≠ [] := by
      intro hnil
      rw [hnil] at htext
      have hroot : p.front? = some .root := by
        rw [← isAbsolute_iff, isAbsolute, htext]
        rfl
      rw [hroot] at hnil
      cases hnil
    constructor
    · have hfront := front?_append_slash hbefore (joinPieces cut)
      rw [← htext] at hfront
      exact hfront.symm
    · have hway : directory ++ [c]
          = way ⟨(p.front?.map Component.text).getD [] ++ joinPieces kept⟩ ++ [c] := by
        rw [← h, ← hcut, ← way_joinPieces hslash, ← way_append_slash, ← htext]
      exact (List.append_cancel_right hway).symm

end Path

end ScriptHost.Loader
