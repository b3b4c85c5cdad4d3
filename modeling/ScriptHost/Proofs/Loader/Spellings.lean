import Mathlib.Logic.Relation
import ScriptHost.Proofs.Loader.Requests
import ScriptHost.Proofs.Loader.Ways

/-!
# Spellings of a request

A request can be spelled in many ways: slashes may be repeated or stand at the end, `.` may stand
anywhere but in front of the slash at the front, and the file may have any extension (`Respells`,
`IsSpelling`). What all spellings have in common is whether they start from the top, the
directories on the way and the stem of the file (`Path.gist?`, `Path.isSpelling_iff`).

The identity of a request is made from just that (`identity?_eq_map_gist?`). Main statement: it is
its own identity, the requests that have it are the spellings of the request, and all of them lead
to the same file (`identity?_isCanonicalName`).
-/

set_option autoImplicit false

namespace ScriptHost.Loader

/-! ## Stems and extensions -/

/-- What a file can have for an extension, without the dot in front. -/
structure IsExtension (extension : List Char) : Prop where
  ne_nil : extension ≠ []
  no_dot : '.' ∉ extension
  no_slash : '/' ∉ extension

/-- A stem is the whole name, or what stands before the last dot. -/
theorem stem_cases (name : List Char) :
    stem name = name ∨ stem name ≠ [] ∧ ∃ extension, name = stem name ++ '.' :: extension := by
  have hsplit : name.reverse.takeWhile (· != '.') ++ name.reverse.dropWhile (· != '.')
      = name.reverse := List.takeWhile_append_dropWhile
  have hhead := List.head?_dropWhile_not (· != '.') name.reverse
  unfold stem
  split
  · exact .inl rfl
  · exact .inl rfl
  · rename_i c rest hlong hdrop
    rw [hdrop] at hsplit hhead
    -- the name is read from its end, up to the last dot
    have hdot : c = '.' := by simpa using hhead
    refine .inr ⟨List.reverse_ne_nil_iff.mpr hlong,
      (name.reverse.takeWhile (· != '.')).reverse, ?_⟩
    have hname := congrArg List.reverse hsplit
    rw [List.reverse_reverse, List.reverse_append, List.reverse_cons, hdot,
      List.append_assoc] at hname
    exact hname.symm

theorem stem_append_extension {s extension : List Char} (hs : s ≠ []) (h : '.' ∉ extension) :
    stem (s ++ '.' :: extension) = s := by
  have hreverse : (s ++ '.' :: extension).reverse = extension.reverse ++ '.' :: s.reverse := by
    rw [List.reverse_append, List.reverse_cons, List.append_assoc, List.singleton_append]
  have hdrop : (extension.reverse ++ '.' :: s.reverse).dropWhile (· != '.') = '.' :: s.reverse := by
    rw [List.dropWhile_append_of_pos]
    · rfl
    · intro c hc
      rw [bne_iff_ne]
      rintro rfl
      exact h (List.mem_reverse.mp hc)
  obtain ⟨c, rest, hrest⟩ := List.exists_cons_of_ne_nil (List.reverse_ne_nil_iff.mpr hs)
  rw [stem, hreverse, hdrop, hrest]
  show (c :: rest).reverse = s
  rw [← hrest, List.reverse_reverse]

theorem stem_ne_nil {name : List Char} (h : name ≠ []) : stem name ≠ [] := by
  rcases stem_cases name with hstem | ⟨hne, -⟩
  · rwa [hstem]
  · exact hne

theorem mem_of_mem_stem {name : List Char} {c : Char} (h : c ∈ stem name) : c ∈ name := by
  rcases stem_cases name with hstem | ⟨-, extension, hname⟩
  · rwa [hstem] at h
  · rw [hname]
    exact List.mem_append_left _ h

/-- A name with another extension is a name. -/
theorem IsName.stem_append {name extension : List Char} (hname : IsName name)
    (h : IsExtension extension) : IsName (stem name ++ '.' :: extension) := by
  obtain ⟨c, rest, hstem⟩ := List.exists_cons_of_ne_nil (stem_ne_nil hname.ne_nil)
  obtain ⟨d, others, rfl⟩ := List.exists_cons_of_ne_nil h.ne_nil
  have hlong : 2 < (stem name ++ '.' :: d :: others).length := by
    rw [hstem, List.length_append, List.length_cons, List.length_cons, List.length_cons]
    omega
  refine ⟨fun heq => ?_, fun heq => ?_, fun heq => ?_, fun hslash => ?_⟩
  · exact absurd hlong (by rw [heq]; decide)
  · exact absurd hlong (by rw [heq]; decide)
  · exact absurd hlong (by rw [heq]; decide)
  · rcases List.mem_append.mp hslash with hmem | hmem
    · exact hname.no_slash (mem_of_mem_stem hmem)
    · rcases List.mem_cons.mp hmem with heq | hmem
      · cases heq
      · exact h.no_slash hmem

/-! ## What a request asks for -/

/-- What a request asks for, however it is spelled: whether it starts from the top, the directories
on the way, and the stem of the file. -/
structure Gist where
  absolute : Bool
  directories : List Component
  stem : List Char

/-- The path of what a request asks for, with an extension. -/
def Gist.path (g : Gist) (extension : List Char) : Path :=
  .ofWay g.absolute (g.directories ++ [.name (g.stem ++ '.' :: extension)])

namespace Path

/-- What a request asks for; nothing when it names no file. -/
def gist? (p : Path) : Option Gist :=
  p.fileName?.map fun name => ⟨p.isAbsolute, p.way.dropLast, stem name⟩

theorem gist?_of_way {p : Path} {directories : List Component} {name : List Char}
    (h : p.way = directories ++ [.name name]) :
    p.gist? = some ⟨p.isAbsolute, directories, stem name⟩ := by
  rw [gist?, fileName?_eq_some_iff.mpr ⟨directories, h⟩, h, List.dropLast_concat]
  rfl

theorem exists_way_of_gist? {p : Path} {g : Gist} (h : p.gist? = some g) :
    ∃ name, p.way = g.directories ++ [.name name] ∧ stem name = g.stem ∧
      p.isAbsolute = g.absolute := by
  obtain ⟨name, hname, rfl⟩ := Option.map_eq_some_iff.mp h
  obtain ⟨directories, hway⟩ := fileName?_eq_some_iff.mp hname
  exact ⟨name, by rw [hway, List.dropLast_concat], rfl, rfl⟩

theorem gist?_congr {p q : Path} (habsolute : p.isAbsolute = q.isAbsolute)
    (hway : p.way = q.way) : p.gist? = q.gist? := by
  have hname : p.fileName? = q.fileName? :=
    Option.ext fun name => by rw [fileName?_eq_some_iff, fileName?_eq_some_iff, hway]
  rw [gist?, gist?, hname, habsolute, hway]

/-- The directories of a path, without a `.` at the front. -/
theorem filter_dropLast_components {p : Path} {directories : List Component} {c : Component}
    (h : p.way = directories ++ [c]) :
    p.components.dropLast.filter (· != .here) = newFront p.isAbsolute ++ directories := by
  have hsteps : directories.filter (· != .here) = directories := by
    refine List.filter_eq_self.mpr fun step hstep => ?_
    have hway : step ∈ p.way := h ▸ List.mem_append_left _ hstep
    rw [bne_iff_ne]
    rintro rfl
    exact isStep_of_mem_way hway
  have hfront : p.front?.toList.filter (· != .here) = newFront p.isAbsolute := by
    cases habsolute : p.isAbsolute with
    | true =>
        rw [isAbsolute_iff.mp habsolute]
        rfl
    | false =>
        rcases p.front_cases with ⟨hroot, -⟩ | ⟨hhere, -⟩ | ⟨hnone, -⟩
        · rw [isAbsolute_iff.mpr hroot] at habsolute
          cases habsolute
        · rw [hhere]
          rfl
        · rw [hnone]
          rfl
  rw [components_eq, h, ← List.append_assoc, List.dropLast_concat, List.filter_append, hfront,
    hsteps]

end Path

/-- The identity of a request is made from what it asks for. -/
theorem identity?_eq_map_gist? (c : LoaderConfig) (p : Path) :
    identity? c p = p.gist?.map (·.path c.extension.toList) := by
  cases hname : p.fileName? with
  | none =>
      rw [identity?, Path.gist?, hname]
      rfl
  | some name =>
      obtain ⟨directories, hway⟩ := Path.fileName?_eq_some_iff.mp hname
      rw [identity?, hname, Path.gist?_of_way hway, Option.map_some, Option.map_some,
        Path.filter_dropLast_components hway, Gist.path, Path.ofWay_concat]
      rfl

variable {c : LoaderConfig} {p i : Path}

/-- The identity has the front and the directories of the request. -/
theorem exists_way_of_identity? (hc : IsExtension c.extension.toList)
    (h : identity? c p = some i) :
    ∃ directories name, p.way = directories ++ [.name name] ∧ IsName name ∧
      i.way = directories ++ [.name (stem name ++ '.' :: c.extension.toList)] ∧
      i.isAbsolute = p.isAbsolute ∧ i.components = Path.newFront p.isAbsolute ++ i.way := by
  rw [identity?_eq_map_gist?] at h
  obtain ⟨g, hgist, rfl⟩ := Option.map_eq_some_iff.mp h
  obtain ⟨name, hway, hstem, habsolute⟩ := Path.exists_way_of_gist? hgist
  have hname : IsName name := Path.isName_of_way hway
  have hnew : ∀ step ∈ g.directories ++ [.name (stem name ++ '.' :: c.extension.toList)],
      step.IsStep := by
    intro step hstep
    rcases List.mem_append.mp hstep with hmem | hmem
    · exact Path.isStep_of_mem_way (hway ▸ List.mem_append_left _ hmem)
    · rw [List.mem_singleton.mp hmem]
      exact hname.stem_append hc
  obtain ⟨hfront, hsame, hcomponents⟩ := Path.ofWay_eq hnew g.absolute
  rw [Gist.path, ← hstem, hsame, habsolute]
  exact ⟨g.directories, name, hway, hname, rfl, hfront, hcomponents⟩

/-- The identity of a request asks for what the request asks for. -/
theorem gist?_of_identity? (hc : IsExtension c.extension.toList) (h : identity? c p = some i) :
    i.gist? = p.gist? := by
  obtain ⟨directories, name, hway, hname, hsame, hfront, -⟩ := exists_way_of_identity? hc h
  rw [Path.gist?_of_way hway, Path.gist?_of_way hsame, hfront,
    stem_append_extension (stem_ne_nil hname.ne_nil) hc.no_dot]

/-- The requests with one identity are those that ask for the same. -/
theorem identity?_eq_some_iff (hc : IsExtension c.extension.toList) (h : identity? c p = some i)
    (q : Path) : identity? c q = some i ↔ q.gist? = p.gist? := by
  constructor
  · intro hq
    rw [← gist?_of_identity? hc h, ← gist?_of_identity? hc hq]
  · intro hq
    rw [← h, identity?_eq_map_gist?, identity?_eq_map_gist?, hq]

/-! ## Spellings -/

/-- One step from a spelling of a request to another one. -/
inductive Respells : Path → Path → Prop
  /-- A slash is repeated. -/
  | slash (before after : List Char) :
      Respells ⟨before ++ '/' :: after⟩ ⟨before ++ '/' :: '/' :: after⟩
  /-- A slash is put at the end. -/
  | slashAtEnd {before : List Char} (h : before ≠ []) : Respells ⟨before⟩ ⟨before ++ ['/']⟩
  /-- A `.` is put behind a slash. -/
  | dot (before after : List Char) :
      Respells ⟨before ++ '/' :: after⟩ ⟨before ++ '/' :: '.' :: '/' :: after⟩
  /-- A `.` is put at the end, behind a slash. -/
  | dotAtEnd (before : List Char) : Respells ⟨before ++ ['/']⟩ ⟨before ++ ['/', '.']⟩
  /-- A `.` is put at the front of a relative path. -/
  | dotAtFront {text : List Char} (h : (⟨text⟩ : Path).isAbsolute = false) :
      Respells ⟨text⟩ ⟨'.' :: '/' :: text⟩
  /-- The file name gets an extension, or another one. -/
  | extension {before name extension : List Char}
      (hbefore : before = [] ∨ ∃ directory, before = directory ++ ['/']) (hname : IsName name)
      (h : IsExtension extension) :
      Respells ⟨before ++ name⟩ ⟨before ++ (stem name ++ '.' :: extension)⟩

/-- Whether a path becomes another one by such steps, there and back. -/
def IsSpelling (p q : Path) : Prop := Relation.EqvGen Respells p q

theorem Respells.isSpelling {p q : Path} (h : Respells p q) : IsSpelling p q := .rel p q h

namespace IsSpelling

variable {p q r : Path}

theorem refl (p : Path) : IsSpelling p p := Relation.EqvGen.refl p

theorem symm (h : IsSpelling p q) : IsSpelling q p := Relation.EqvGen.symm p q h

theorem trans (h : IsSpelling p q) (h' : IsSpelling q r) : IsSpelling p r :=
  Relation.EqvGen.trans p q r h h'

end IsSpelling

namespace Path

theorem way_slash (after : List Char) : way ⟨'/' :: after⟩ = way ⟨after⟩ := rfl

theorem way_dot (after : List Char) : way ⟨'.' :: '/' :: after⟩ = way ⟨after⟩ :=
  way_append_slash ['.'] after

/-- A name that is all of a text or stands behind its last slash is the last step. -/
theorem way_append_name {before name : List Char}
    (hbefore : before = [] ∨ ∃ directory, before = directory ++ ['/']) (hname : IsName name) :
    way ⟨before ++ name⟩ = way ⟨before⟩ ++ [.name name] := by
  have hstep : way ⟨name⟩ = [.name name] := way_step (c := .name name) hname
  rcases hbefore with rfl | ⟨directory, rfl⟩
  · exact hstep
  · rw [List.append_assoc, List.singleton_append, way_append_slash, hstep, way_concat_slash]

theorem isAbsolute_append_name {before name other : List Char}
    (hbefore : before = [] ∨ ∃ directory, before = directory ++ ['/']) (hname : IsName name)
    (hother : IsName other) : isAbsolute ⟨before ++ name⟩ = isAbsolute ⟨before ++ other⟩ := by
  rcases hbefore with rfl | ⟨directory, rfl⟩
  · exact (isAbsolute_step (c := .name name) hname).trans
      (isAbsolute_step (c := .name other) hother).symm
  · rw [List.append_assoc, List.append_assoc]
    exact isAbsolute_append_slash directory name other

end Path

/-- A step from one spelling to another keeps what is asked for. -/
theorem gist?_of_respells {p q : Path} (h : Respells p q) : p.gist? = q.gist? := by
  -- only the last kind of step changes the way, and it keeps the stem
  cases h with
  | slash before after =>
      refine Path.gist?_congr (Path.isAbsolute_append_slash before after _) ?_
      rw [Path.way_append_slash, Path.way_append_slash, Path.way_slash]
  | @slashAtEnd before h =>
      refine Path.gist?_congr (Path.isAbsolute_of_front (Path.front?_append_slash h []).symm) ?_
      exact (Path.way_concat_slash before).symm
  | dot before after =>
      refine Path.gist?_congr (Path.isAbsolute_append_slash before after _) ?_
      rw [Path.way_append_slash, Path.way_append_slash, Path.way_dot]
  | dotAtEnd before =>
      refine Path.gist?_congr (Path.isAbsolute_append_slash before [] _) ?_
      rw [Path.way_concat_slash, Path.way_append_slash]
      exact (List.append_nil _).symm
  | @dotAtFront text h =>
      refine Path.gist?_congr h ?_
      exact (Path.way_dot text).symm
  | @extension before name extension hbefore hname h =>
      have hnew : IsName (stem name ++ '.' :: extension) := hname.stem_append h
      rw [Path.gist?_of_way (Path.way_append_name hbefore hname),
        Path.gist?_of_way (Path.way_append_name hbefore hnew),
        Path.isAbsolute_append_name hbefore hname hnew,
        stem_append_extension (stem_ne_nil hname.ne_nil) h.no_dot]

theorem gist?_of_isSpelling {p q : Path} (h : IsSpelling p q) : p.gist? = q.gist? := by
  induction h with
  | rel p q hstep => exact gist?_of_respells hstep
  | refl p => rfl
  | symm p q _ ih => exact ih.symm
  | trans p q r _ _ ih ih' => exact ih.trans ih'

/-! ### The plainest spelling -/

/-- The text of a way. -/
def wayText (cs : List Component) : List Char := joinPieces (cs.map Component.text)

theorem wayText_singleton (c : Component) : wayText [c] = c.text := joinPieces_singleton c.text

theorem wayText_append {cs ds : List Component} (hcs : cs ≠ []) (hds : ds ≠ []) :
    wayText (cs ++ ds) = wayText cs ++ '/' :: wayText ds := by
  rw [wayText, List.map_append]
  exact joinPieces_append (fun h => hcs (List.map_eq_nil_iff.mp h))
    fun h => hds (List.map_eq_nil_iff.mp h)

/-- Nothing but a slash may stand in front of a way that goes on behind a step. -/
theorem isSpelling_wayText_cons (before : List Char) (c : Component) (cs : List Component) :
    IsSpelling ⟨before ++ '/' :: (c.text ++ '/' :: wayText cs)⟩
      ⟨before ++ '/' :: wayText (c :: cs)⟩ := by
  by_cases hcs : cs = []
  · -- only the slash behind the step is left
    have hne : before ++ '/' :: c.text ≠ [] :=
      List.append_ne_nil_of_right_ne_nil _ (List.cons_ne_nil '/' c.text)
    have hstep := (Respells.slashAtEnd hne).isSpelling.symm
    rw [List.append_assoc] at hstep
    rw [hcs, wayText_singleton]
    exact hstep
  · have htext := wayText_append (List.cons_ne_nil c []) hcs
    rw [wayText_singleton] at htext
    rw [← htext]
    exact .refl _

/-- Behind a slash, idle pieces make no difference. -/
theorem isSpelling_wayText {ps : List (List Char)} (hps : ps ≠ [])
    (hslash : ∀ piece ∈ ps, '/' ∉ piece) (before : List Char) :
    IsSpelling ⟨before ++ '/' :: joinPieces ps⟩
      ⟨before ++ '/' :: wayText (ps.filterMap Component.ofPiece?)⟩ := by
  induction ps generalizing before with
  | nil => exact absurd rfl hps
  | cons piece ps ih =>
      have hrest : ∀ piece ∈ ps, '/' ∉ piece := fun p hp => hslash p (List.mem_cons_of_mem piece hp)
      cases hpiece : Component.ofPiece? piece with
      | none =>
          -- the piece goes, and so does the slash behind it
          have hidle : piece = [] ∨ piece = ['.'] := by
            simpa only [isIdle, Bool.or_eq_true, beq_iff_eq] using ofPiece?_eq_none_iff.mp hpiece
          rw [List.filterMap_cons_none hpiece]
          cases ps with
          | nil =>
              rw [joinPieces_singleton]
              rcases hidle with rfl | rfl
              · exact .refl _
              · exact (Respells.dotAtEnd before).isSpelling.symm
          | cons next others =>
              have hbehind := ih (List.cons_ne_nil next others) hrest before
              rw [joinPieces_cons_cons]
              rcases hidle with rfl | rfl
              · exact (Respells.slash before _).isSpelling.symm.trans hbehind
              · exact (Respells.dot before _).isSpelling.symm.trans hbehind
      | some c =>
          have htext : c.text = piece :=
            (Component.IsStep.of_ofPiece? (hslash piece List.mem_cons_self) hpiece).2
          rw [List.filterMap_cons_some hpiece, ← htext]
          cases ps with
          | nil => exact .refl _
          | cons next others =>
              have hbehind := ih (List.cons_ne_nil next others) hrest (before ++ '/' :: c.text)
              rw [List.append_assoc, List.append_assoc] at hbehind
              rw [joinPieces_cons_cons]
              exact hbehind.trans (isSpelling_wayText_cons before c _)

namespace Path

/-- The spelling of a path without idle pieces, but for a `.` at the front of a relative one. -/
def plain (p : Path) : Path := ⟨(if p.isAbsolute then [] else ['.']) ++ '/' :: wayText p.way⟩

theorem isSpelling_plain (p : Path) : IsSpelling p p.plain := by
  obtain ⟨text⟩ := p
  have hbehind : ∀ before rest : List Char,
      IsSpelling ⟨before ++ '/' :: rest⟩ ⟨before ++ '/' :: wayText (way ⟨rest⟩)⟩ := by
    intro before rest
    obtain ⟨piece, others, hpieces⟩ := exists_pieces_eq_cons rest
    have h := isSpelling_wayText (by rw [hpieces]; exact List.cons_ne_nil piece others)
      (fun _ => no_slash_of_mem_pieces) before
    rwa [joinPieces_pieces] at h
  rw [plain]
  cases habsolute : isAbsolute ⟨text⟩ with
  | true =>
      obtain ⟨rest, heq⟩ := exists_text_of_isAbsolute habsolute
      cases heq
      exact hbehind [] rest
  | false =>
      -- with a `.` in front, all pieces of a relative path stand behind a slash
      exact (Respells.dotAtFront habsolute).isSpelling.trans (hbehind ['.'] text)

theorem exists_wayText_concat (directories : List Component) :
    ∃ before, ∀ c : Component, '/' :: wayText (directories ++ [c]) = before ++ '/' :: c.text := by
  cases directories with
  | nil => exact ⟨[], fun c => by rw [List.nil_append, wayText_singleton]; rfl⟩
  | cons d ds =>
      refine ⟨'/' :: wayText (d :: ds), fun c => ?_⟩
      rw [wayText_append (List.cons_ne_nil d ds) (List.cons_ne_nil c []), wayText_singleton]
      rfl

/-- The plainest spelling ends in a slash and the file name, and what stands before them depends on
the directories alone. -/
theorem exists_plain_eq (absolute : Bool) (directories : List Component) :
    ∃ before, ∀ (p : Path) (name : List Char), p.isAbsolute = absolute →
      p.way = directories ++ [.name name] → p.plain = ⟨(before ++ ['/']) ++ name⟩ := by
  obtain ⟨before, hbefore⟩ := exists_wayText_concat directories
  refine ⟨(if absolute then [] else ['.']) ++ before, ?_⟩
  intro p name habsolute hway
  rw [plain, hway, hbefore, habsolute, ← List.append_assoc, List.append_cons]
  rfl

theorem isSpelling_of_gist? {p q : Path} {g : Gist} (hp : p.gist? = some g)
    (hq : q.gist? = some g) : IsSpelling p q := by
  obtain ⟨before, hplain⟩ := exists_plain_eq g.absolute g.directories
  -- the plainest spellings have the same text when the stem gets one fixed extension
  have key : ∀ {r : Path}, r.gist? = some g →
      IsSpelling r ⟨(before ++ ['/']) ++ (g.stem ++ ['.', 'x'])⟩ := by
    intro r hr
    obtain ⟨name, hway, hstem, habsolute⟩ := exists_way_of_gist? hr
    have hx : IsExtension ['x'] := ⟨by decide, by decide, by decide⟩
    have hstep : Respells r.plain ⟨(before ++ ['/']) ++ (stem name ++ ['.', 'x'])⟩ := by
      rw [hplain r name habsolute hway]
      exact .extension (.inr ⟨before, rfl⟩) (isName_of_way hway) hx
    rw [← hstem]
    exact (isSpelling_plain r).trans hstep.isSpelling
  exact (key hp).trans (key hq).symm

/-- The spellings of a request that names a file are the requests that ask for the same. -/
theorem isSpelling_iff {p : Path} {g : Gist} (h : p.gist? = some g) (q : Path) :
    IsSpelling p q ↔ q.gist? = p.gist? := by
  constructor
  · exact fun hq => (gist?_of_isSpelling hq).symm
  · exact fun hq => isSpelling_of_gist? h (hq.trans h)

/-- The path with another file name. -/
def withFileName (p : Path) (name : List Char) : Path := (p.parent?.getD p).join ⟨name⟩

theorem gist?_withFileName {p : Path} {directories : List Component} {c : Component}
    (hway : p.way = directories ++ [c]) {name : List Char} (hname : IsName name) :
    (p.withFileName name).gist? = some ⟨p.isAbsolute, directories, stem name⟩ := by
  obtain ⟨parent, hparent, hfront, hdirectories⟩ := exists_parent hway
  have hstep : Component.IsStep (.name name) := hname
  have hjoin : p.withFileName name = parent.join ⟨(Component.name name).text⟩ := by
    rw [withFileName, hparent]
    rfl
  have habsolute : (parent.join ⟨(Component.name name).text⟩).isAbsolute = p.isAbsolute :=
    isAbsolute_of_front ((front?_join_step hstep parent).trans hfront)
  have hsame : (parent.join ⟨(Component.name name).text⟩).way = directories ++ [.name name] := by
    rw [way_join_step hstep, hdirectories]
  rw [hjoin, gist?_of_way hsame, habsolute]

end Path

/-! ## Canonical names -/

/-- The identity says all about what becomes of a request. -/
theorem put_congr {c : LoaderConfig} {p q : Path} (h : identity? c q = identity? c p)
    {i : Path} (hi : identity? c p = some i) (t : FileTree) (run : Runtime) (depth : Nat)
    (caller : Option Path) (s : LoadState) :
    Request.put ⟨c, q, caller⟩ (requireWithin t run depth) s
      = Request.put ⟨c, p, caller⟩ (requireWithin t run depth) s := by
  cases depth with
  | zero => rfl
  | succ depth => simp only [Request.put, requireWithin, h, hi]

/-- What makes `i` the canonical name of the file that the request `p` asks for. -/
structure IsCanonicalName (c : LoaderConfig) (p i : Path) : Prop where
  /-- It is the name of what it asks for itself. -/
  own : identity? c i = some i
  /-- It goes the way of the request, with every `..` but without a `.`, and has the stem of the
  file with the configured extension. -/
  components : ∃ name, p.fileName? = some name ∧
    i.components = p.components.dropLast.filter (· != .here)
      ++ [.name (stem name ++ '.' :: c.extension.toList)]
  /-- It starts from the top if the request does. -/
  isAbsolute : i.isAbsolute = p.isAbsolute
  /-- It is the name also with any extension in the place of that of the request. -/
  extension : ∀ name e, p.fileName? = some name → IsExtension e →
    identity? c (p.withFileName (stem name ++ '.' :: e)) = some i
  /-- It is the name of the spellings of the request, and of no other requests. -/
  spelling : ∀ q, identity? c q = some i ↔ IsSpelling p q
  /-- With all spellings, a caller comes to the same file. -/
  sameFile : ∀ q caller t, IsSpelling p q →
    Request.target? t ⟨c, q, caller⟩ = Request.target? t ⟨c, p, caller⟩
  /-- All spellings are met in the same way. -/
  sameAnswer : ∀ q caller t run depth s, IsSpelling p q →
    Request.put ⟨c, q, caller⟩ (requireWithin t run depth) s
      = Request.put ⟨c, p, caller⟩ (requireWithin t run depth) s

/-- The identity of a request is canonical, whatever the extension that is configured. -/
theorem identity?_isCanonicalName {c : LoaderConfig} (hc : IsExtension c.extension.toList)
    {p i : Path} (h : identity? c p = some i) : IsCanonicalName c p i := by
  obtain ⟨directories, name, hway, hname, hsame, habsolute, hcomponents⟩ :=
    exists_way_of_identity? hc h
  have hgist := Path.gist?_of_way hway
  have hfile : p.fileName? = some name := Path.fileName?_eq_some_iff.mpr ⟨directories, hway⟩
  have hspelling : ∀ q, identity? c q = some i ↔ IsSpelling p q := fun q => by
    rw [identity?_eq_some_iff hc h, Path.isSpelling_iff hgist]
  refine ⟨?_, ⟨name, hfile, ?_⟩, habsolute, ?_, hspelling, ?_, ?_⟩
  · exact (identity?_eq_some_iff hc h i).mpr (gist?_of_identity? hc h)
  · rw [hcomponents, hsame, Path.filter_dropLast_components hway, List.append_assoc]
  · intro other e hother he
    cases hfile.symm.trans hother
    rw [identity?_eq_some_iff hc h, Path.gist?_withFileName hway (hname.stem_append he),
      stem_append_extension (stem_ne_nil hname.ne_nil) he.no_dot, hgist]
  · intro q caller t hq
    rw [Request.target?, Request.target?, (hspelling q).mpr hq, h]
  · intro q caller t run depth s hq
    exact put_congr (((hspelling q).mpr hq).trans h.symm) h t run depth caller s

/-- A hidden file with two extensions, of which the last one is replaced; the `..` stays. -/
theorem isCanonicalName_hiddenArchive :
    IsExtension "js".toList ∧
      identity? ⟨[], "js"⟩ (.ofString "/lib//../x/./.util.tar.gz/.")
        = some (.ofString "/lib/../x/.util.tar.js") ∧
        IsCanonicalName ⟨[], "js"⟩ (.ofString "/lib//../x/./.util.tar.gz/.")
          (.ofString "/lib/../x/.util.tar.js") := by
  have hjs : IsExtension "js".toList := ⟨by decide, by decide, by decide⟩
  have hidentity : identity? ⟨[], "js"⟩ (.ofString "/lib//../x/./.util.tar.gz/.")
      = some (.ofString "/lib/../x/.util.tar.js") := by decide
  exact ⟨hjs, hidentity, identity?_isCanonicalName hjs hidentity⟩

end ScriptHost.Loader
