import ScriptHost.Loader.Document

/-!
# Settings that stay as they are

Settings are normalised when they are read, and again when they are overridden. They stay the same
exactly when they are normal (`LoaderConfig.normalize_eq_self_iff`), and what `normalize` gives is
normal but for one thing: the extension may start with a blank, which stood behind a dot.

Main statement: what `normalize` gives is normal, and stays the same when it is normalised again,
exactly when no blank stands behind the dots at the front of the extension; the same holds of
settings from a document and from a file, when they are overridden by nothing
(`LoaderConfig.stable_iff`). Otherwise they change, or are refused after all
(`LoaderConfig.unstable_extensions`).
-/

set_option autoImplicit false

namespace ScriptHost

/-! ## Texts without blanks at their ends -/

namespace Text

/-- No blank stands at the front. -/
def StartsPlain (cs : List Char) : Prop := ∀ c ∈ cs.head?, isBlank c = false

/-- No blank stands at the end. -/
def EndsPlain (cs : List Char) : Prop := ∀ c ∈ cs.getLast?, isBlank c = false

/-- All characters are blanks. -/
def AllBlank (cs : List Char) : Prop := ∀ c ∈ cs, isBlank c = true

theorem StartsPlain.append {cs : List Char} (h : StartsPlain cs) (hne : cs ≠ [])
    (behind : List Char) : StartsPlain (cs ++ behind) := by
  obtain ⟨c, cs, rfl⟩ := List.exists_cons_of_ne_nil hne
  exact h

theorem EndsPlain.append {cs : List Char} (h : EndsPlain cs) (hne : cs ≠ [])
    (front : List Char) : EndsPlain (front ++ cs) := by
  intro c hc
  rw [List.getLast?_append, List.getLast?_eq_some_getLast hne, Option.some_or] at hc
  exact h c (by rwa [List.getLast?_eq_some_getLast hne])

theorem startsPlain_dropWhile (cs : List Char) : StartsPlain (cs.dropWhile isBlank) := by
  intro c hc
  have hhead := List.head?_dropWhile_not isBlank cs
  rw [Option.mem_def.mp hc] at hhead
  exact hhead

theorem dropWhile_eq_self {cs : List Char} (h : StartsPlain cs) : cs.dropWhile isBlank = cs := by
  cases cs with
  | nil => rfl
  | cons c cs => exact List.dropWhile_cons_of_neg (by rw [h c rfl]; exact Bool.false_ne_true)

theorem dropWhile_append {blanks cs : List Char} (hblanks : AllBlank blanks)
    (h : StartsPlain cs) : (blanks ++ cs).dropWhile isBlank = cs := by
  rw [List.dropWhile_append_of_pos hblanks, dropWhile_eq_self h]

theorem endsPlain_trim (cs : List Char) : EndsPlain (trim cs) := by
  intro c hc
  rw [trim, List.getLast?_reverse] at hc
  exact startsPlain_dropWhile _ c hc

theorem allBlank_takeWhile (cs : List Char) : AllBlank (cs.takeWhile isBlank) :=
  List.all_eq_true.mp List.all_takeWhile

/-- Behind the blanks at the front stands the trimmed text, and then blanks. -/
theorem exists_dropWhile_eq (cs : List Char) :
    ∃ after, cs.dropWhile isBlank = trim cs ++ after ∧ AllBlank after := by
  refine ⟨((cs.dropWhile isBlank).reverse.takeWhile isBlank).reverse, ?_, ?_⟩
  · rw [trim, ← List.reverse_append, List.takeWhile_append_dropWhile, List.reverse_reverse]
  · exact fun c hc => allBlank_takeWhile _ c (List.mem_reverse.mp hc)

/-- A text is its trimmed text between blanks. -/
theorem exists_eq_trim (cs : List Char) :
    ∃ before after, cs = before ++ trim cs ++ after ∧ AllBlank before ∧ AllBlank after := by
  obtain ⟨after, hdrop, hafter⟩ := exists_dropWhile_eq cs
  refine ⟨cs.takeWhile isBlank, after, ?_, allBlank_takeWhile cs, hafter⟩
  rw [List.append_assoc, ← hdrop, List.takeWhile_append_dropWhile]

theorem startsPlain_trim (cs : List Char) : StartsPlain (trim cs) := by
  obtain ⟨after, hdrop, -⟩ := exists_dropWhile_eq cs
  intro c hc
  refine startsPlain_dropWhile cs c ?_
  rw [hdrop, List.head?_append, Option.mem_def.mp hc]
  rfl

/-- Trimming takes off the blanks at both ends and nothing else. -/
theorem trim_append {before cs after : List Char} (hbefore : AllBlank before)
    (hafter : AllBlank after) (hne : cs ≠ []) (hfront : StartsPlain cs) (hback : EndsPlain cs) :
    trim (before ++ cs ++ after) = cs := by
  have hend : StartsPlain cs.reverse := by
    intro c hc
    rw [List.head?_reverse] at hc
    exact hback c hc
  have hreverse : AllBlank after.reverse := fun c hc => hafter c (List.mem_reverse.mp hc)
  rw [trim, List.append_assoc, dropWhile_append hbefore (hfront.append hne after), List.reverse_append,
    dropWhile_append hreverse hend, List.reverse_reverse]

/-- A text stays the same exactly when no blank stands at its ends. -/
theorem trim_eq_self_iff (cs : List Char) : trim cs = cs ↔ StartsPlain cs ∧ EndsPlain cs := by
  constructor
  · intro h
    exact ⟨h ▸ startsPlain_trim cs, h ▸ endsPlain_trim cs⟩
  · rintro ⟨hfront, hback⟩
    cases cs with
    | nil => rfl
    | cons c cs =>
        have hnil : AllBlank [] := fun c hc => absurd hc List.not_mem_nil
        have := trim_append hnil hnil (List.cons_ne_nil c cs) hfront hback
        rwa [List.append_nil] at this

end Text

namespace Loader

open Text

/-! ## Normal settings -/

namespace LoaderConfig

/-- The settings are normal but for a blank that may stand at the front of the extension. -/
structure IsUsable (c : LoaderConfig) : Prop where
  ne_nil : c.extension.toList ≠ []
  dotless : c.extension.toList.head? ≠ some '.'
  endsPlain : EndsPlain c.extension.toList
  directories : ∀ directory ∈ c.loadPath, directory.text ≠ []

/-- The settings are normal: the extension is not empty, starts with no dot and has no blank at
either end, and no directory is empty. -/
structure IsNormal (c : LoaderConfig) : Prop extends c.IsUsable where
  startsPlain : StartsPlain c.extension.toList

/-- Behind white space, if there is any, and dots at the front stands white space again, and then
something else. -/
def HidesBlank (text : List Char) : Prop :=
  ∃ before dots blank rest, text = before ++ dots ++ blank :: rest ∧ AllBlank before ∧ dots ≠ [] ∧
    (∀ c ∈ dots, c = '.') ∧ isBlank blank = true ∧ ∃ c ∈ rest, isBlank c = false

theorem normalize_eq_ok_iff {c c' : LoaderConfig} :
    c.normalize = .ok c' ↔ bareExtension c.extension.toList ≠ [] ∧
      c' = ⟨c.loadPath.filter (·.text != []), String.ofList (bareExtension c.extension.toList)⟩ := by
  unfold normalize
  dsimp only
  split
  · rename_i hempty
    constructor
    · intro h
      cases h
    · rintro ⟨hne, -⟩
      exact absurd hempty hne
  · rename_i hne
    rw [and_iff_right hne, Except.ok.injEq, eq_comm]

theorem bareExtension_eq_self {text : List Char} (hdot : text.head? ≠ some '.')
    (hfront : StartsPlain text) (hback : EndsPlain text) : bareExtension text = text := by
  rw [bareExtension, (trim_eq_self_iff text).mpr ⟨hfront, hback⟩]
  cases text with
  | nil => rfl
  | cons c text =>
      refine List.dropWhile_cons_of_neg ?_
      rw [beq_iff_eq]
      rintro rfl
      exact hdot rfl

theorem head?_bareExtension (text : List Char) : (bareExtension text).head? ≠ some '.' := by
  intro h
  have hhead := List.head?_dropWhile_not (· == '.') (trim text)
  rw [bareExtension] at h
  rw [h] at hhead
  cases hhead

/-- The dots that are taken off stand in front of the rest. -/
theorem exists_trim_eq (text : List Char) :
    ∃ dots, trim text = dots ++ bareExtension text ∧ ∀ c ∈ dots, c = '.' := by
  refine ⟨(trim text).takeWhile (· == '.'), List.takeWhile_append_dropWhile.symm, ?_⟩
  intro c hc
  exact beq_iff_eq.mp (List.all_eq_true.mp List.all_takeWhile c hc)

theorem endsPlain_bareExtension (text : List Char) : EndsPlain (bareExtension text) := by
  obtain ⟨dots, hdots, -⟩ := exists_trim_eq text
  intro c hc
  refine endsPlain_trim text c ?_
  rw [hdots, List.getLast?_append, Option.mem_def.mp hc]
  rfl

/-- What `normalize` gives can be used. -/
theorem isUsable_of_normalize {c c' : LoaderConfig} (h : c.normalize = .ok c') : c'.IsUsable := by
  obtain ⟨hne, rfl⟩ := normalize_eq_ok_iff.mp h
  constructor
  · rwa [String.toList_ofList]
  · rw [String.toList_ofList]
    exact head?_bareExtension _
  · rw [String.toList_ofList]
    exact endsPlain_bareExtension _
  · intro directory hdirectory
    exact bne_iff_ne.mp (List.mem_filter.mp hdirectory).2

/-- An extension that loses nothing starts with no blank: it would be longer than what is left of
it. -/
theorem startsPlain_of_bareExtension_eq {text : List Char} (h : bareExtension text = text) :
    StartsPlain text := by
  obtain ⟨before, after, htext, -, -⟩ := exists_eq_trim text
  obtain ⟨dots, hdots, -⟩ := exists_trim_eq text
  have hlength := congrArg List.length htext
  rw [hdots, h] at hlength
  simp only [List.length_append] at hlength
  have hnone : dots = [] := List.eq_nil_of_length_eq_zero (by omega)
  rw [hnone, h, List.nil_append] at hdots
  rw [← hdots]
  exact startsPlain_trim text

/-- Settings stay as they are exactly when they are normal. -/
theorem normalize_eq_self_iff {c : LoaderConfig} : c.normalize = .ok c ↔ c.IsNormal := by
  constructor
  · intro h
    refine ⟨isUsable_of_normalize h, startsPlain_of_bareExtension_eq ?_⟩
    obtain ⟨-, heq⟩ := normalize_eq_ok_iff.mp h
    have hextension := congrArg (String.toList ∘ LoaderConfig.extension) heq
    exact (hextension.trans String.toList_ofList).symm
  · intro h
    have hbare := bareExtension_eq_self h.dotless h.startsPlain h.endsPlain
    refine normalize_eq_ok_iff.mpr ⟨by rw [hbare]; exact h.ne_nil, ?_⟩
    rw [hbare, String.ofList_toList, List.filter_eq_self.mpr]
    exact fun directory hdirectory => bne_iff_ne.mpr (h.directories directory hdirectory)

/-! ## Blanks behind dots -/

/-- A hidden blank is what the extension starts with when the dots are gone. -/
theorem HidesBlank.exists_bareExtension {text : List Char} (h : HidesBlank text) :
    ∃ blank rest, bareExtension text = blank :: rest ∧ isBlank blank = true := by
  obtain ⟨before, dots, blank, rest, rfl, hbefore, hne, hdots, hblank, plain, hmem, hplain⟩ := h
  -- the rest does not vanish when it is trimmed, since something in it is no blank
  obtain ⟨behind, after, hrest, hbehind, hafter⟩ := exists_eq_trim rest
  have htrim : trim rest ≠ [] := by
    intro hnil
    rw [hrest, hnil, List.append_nil] at hmem
    have hall : isBlank plain = true := (List.mem_append.mp hmem).elim (hbehind _) (hafter _)
    rw [hplain] at hall
    cases hall
  have hwhole : before ++ dots ++ blank :: rest
      = before ++ (dots ++ (blank :: behind ++ trim rest)) ++ after := by
    calc
      before ++ dots ++ blank :: rest
          = before ++ dots ++ blank :: (behind ++ trim rest ++ after) := by rw [← hrest]
      _ = before ++ (dots ++ (blank :: behind ++ trim rest)) ++ after := by
          simp only [List.append_assoc, List.cons_append]
  have hstarts : StartsPlain (dots ++ (blank :: behind ++ trim rest)) := by
    obtain ⟨dot, dots, rfl⟩ := List.exists_cons_of_ne_nil hne
    rintro _ ⟨⟩
    rw [hdots dot List.mem_cons_self]
    rfl
  have hends : EndsPlain (dots ++ (blank :: behind ++ trim rest)) := by
    rw [← List.append_assoc]
    exact (endsPlain_trim rest).append htrim _
  have hnonempty : dots ++ (blank :: behind ++ trim rest) ≠ [] :=
    List.append_ne_nil_of_left_ne_nil hne _
  refine ⟨blank, behind ++ trim rest, ?_, hblank⟩
  rw [bareExtension, hwhole, trim_append hbefore hafter hnonempty hstarts hends,
    List.dropWhile_append_of_pos fun c hc => beq_iff_eq.mpr (hdots c hc), List.cons_append]
  refine List.dropWhile_cons_of_neg ?_
  rw [beq_iff_eq]
  rintro rfl
  cases hblank

/-- An extension that starts with a blank when the dots are gone has hidden it. -/
theorem hidesBlank_of_bareExtension {text : List Char} {blank : Char} {rest : List Char}
    (h : bareExtension text = blank :: rest) (hblank : isBlank blank = true) : HidesBlank text := by
  obtain ⟨before, after, htext, hbefore, hafter⟩ := exists_eq_trim text
  obtain ⟨dots, htrim, hdots⟩ := exists_trim_eq text
  rw [h] at htrim
  have hends : EndsPlain (blank :: rest) := h ▸ endsPlain_bareExtension text
  refine ⟨before, dots, blank, rest ++ after, ?_, hbefore, ?_, hdots, hblank, ?_⟩
  · rw [htrim] at htext
    rw [htext]
    simp only [List.append_assoc, List.cons_append]
  · -- without dots the trimmed text itself would start with the blank
    rintro rfl
    have hplain : isBlank blank = false := startsPlain_trim text blank (by rw [htrim]; rfl)
    rw [hblank] at hplain
    cases hplain
  · rcases List.eq_nil_or_concat rest with rfl | ⟨others, c, rfl⟩
    · have hplain : isBlank blank = false := hends blank rfl
      rw [hblank] at hplain
      cases hplain
    · refine ⟨c, ?_, hends c ?_⟩
      · rw [List.concat_eq_append]
        exact List.mem_append_left _ (List.mem_append_right _ List.mem_cons_self)
      · rw [List.concat_eq_append, ← List.cons_append, List.getLast?_concat]
        rfl

theorem startsPlain_bareExtension_iff {text : List Char} :
    StartsPlain (bareExtension text) ↔ ¬ HidesBlank text := by
  constructor
  · intro hplain hhides
    obtain ⟨blank, rest, hbare, hblank⟩ := hhides.exists_bareExtension
    rw [hplain blank (by rw [hbare]; rfl)] at hblank
    cases hblank
  · intro hhides c hc
    obtain ⟨rest, hbare⟩ := List.head?_eq_some_iff.mp hc
    cases hblank : isBlank c with
    | false => rfl
    | true => exact absurd (hidesBlank_of_bareExtension hbare hblank) hhides

/-- What `normalize` gives is normal exactly when the extension hid no blank. -/
theorem isNormal_iff_of_normalize {c c' : LoaderConfig} (h : c.normalize = .ok c') :
    c'.IsNormal ↔ ¬ HidesBlank c.extension.toList := by
  have husable := isUsable_of_normalize h
  obtain ⟨-, rfl⟩ := normalize_eq_ok_iff.mp h
  rw [← startsPlain_bareExtension_iff]
  constructor
  · intro hnormal
    have hplain := hnormal.startsPlain
    rwa [String.toList_ofList] at hplain
  · intro hplain
    refine ⟨husable, ?_⟩
    rwa [String.toList_ofList]

/-! ## Settings from outside -/

theorem text_join_ne_nil (base : Path) {directory : Path} (h : directory.text ≠ []) :
    (base.join directory).text ≠ [] := by
  unfold Path.join
  split
  · exact h
  · split
    · exact List.append_ne_nil_of_right_ne_nil _ h
    · exact List.append_ne_nil_of_right_ne_nil _ h

/-- Directories that are seen from elsewhere make no difference to whether settings are normal. -/
theorem isNormal_rebase_iff {c : LoaderConfig} (h : c.IsUsable) (base : Path) :
    (c.rebase base).IsNormal ↔ c.IsNormal := by
  constructor
  · exact fun hnormal => ⟨h, hnormal.startsPlain⟩
  · intro hnormal
    refine ⟨⟨h.ne_nil, h.dotless, h.endsPlain, ?_⟩, hnormal.startsPlain⟩
    intro directory hdirectory
    obtain ⟨old, hold, rfl⟩ := List.mem_map.mp hdirectory
    exact text_join_ne_nil base (h.directories old hold)

/-- Settings in a file are those in its text, with directories seen from the directory of the
file. -/
theorem exists_ofFile {t : FileTree} {path : Path} {text : String} (hread : t.read path = .ok text)
    {c' : LoaderConfig} (hparse : parse text = .ok c') (husable : c'.IsUsable) :
    ∃ c'', ofFile t path = .ok c'' ∧ c''.extension = c'.extension
      ∧ (c''.IsNormal ↔ c'.IsNormal) := by
  rw [ofFile, hread]
  dsimp only
  rw [hparse]
  cases hparent : path.parent? with
  | none => exact ⟨c', rfl, rfl, Iff.rfl⟩
  | some base => exact ⟨c'.rebase base, rfl, rfl, isNormal_rebase_iff husable base⟩

/-- What `normalize` gives can be used. It is normal, and stays the same when it is normalised
again, exactly when the extension hid no blank. Settings that were read from a document or from a
file stay the same under the same condition when they are overridden by nothing. -/
theorem stable_iff {c c' : LoaderConfig} (h : c.normalize = .ok c') :
    c'.IsUsable ∧ (c'.IsNormal ↔ ¬ HidesBlank c.extension.toList)
      ∧ (c'.normalize = .ok c' ↔ ¬ HidesBlank c.extension.toList)
      ∧ ∀ text, ofDocument? text = some c →
          parse text = .ok c' ∧ (c'.override none none = .ok c' ↔ ¬ HidesBlank c.extension.toList)
            ∧ ∀ (t : FileTree) path, t.read path = .ok text →
              ∃ c'', ofFile t path = .ok c'' ∧ c''.extension = c'.extension
                ∧ (c''.override none none = .ok c'' ↔ ¬ HidesBlank c.extension.toList) := by
  have husable := isUsable_of_normalize h
  have hnormal := isNormal_iff_of_normalize h
  have hstable : c'.normalize = .ok c' ↔ ¬ HidesBlank c.extension.toList :=
    normalize_eq_self_iff.trans hnormal
  refine ⟨husable, hnormal, hstable, fun text htext => ?_⟩
  have hparse : parse text = .ok c' := by rw [parse, htext, ← h]
  refine ⟨hparse, hstable, fun t path hread => ?_⟩
  obtain ⟨c'', hfile, hextension, hsame⟩ := exists_ofFile hread hparse husable
  exact ⟨c'', hfile, hextension, normalize_eq_self_iff.trans (hsame.trans hnormal)⟩

/-- A document with blanks and dots around an extension, and with an empty directory. -/
def sharedDocument : String :=
  "[loader]\nload_path = [\"lib\", \"\"]\nextension = \" ..js \""

/-- The document in a file. -/
def sharedTree : FileTree where
  home := ["home".toList]
  entries := [(["home".toList, "conf".toList], .directory),
    (["home".toList, "conf".toList, "loader.toml".toList], .file sharedDocument.toUTF8)]

theorem stable_shared :
    (⟨[.ofString "lib", .ofString ""], " ..js "⟩ : LoaderConfig).normalize
        = .ok ⟨[.ofString "lib"], "js"⟩
      ∧ (⟨[.ofString "lib"], "js"⟩ : LoaderConfig).normalize = .ok ⟨[.ofString "lib"], "js"⟩
      ∧ ∃ c, ofFile sharedTree (.ofString "conf/loader.toml") = .ok c ∧ c.extension = "js"
        ∧ c.override none none = .ok c := by
  have h : (⟨[.ofString "lib", .ofString ""], " ..js "⟩ : LoaderConfig).normalize
      = .ok ⟨[.ofString "lib"], "js"⟩ := rfl
  have hagain : (⟨[.ofString "lib"], "js"⟩ : LoaderConfig).normalize
      = .ok ⟨[.ofString "lib"], "js"⟩ := rfl
  have hread : sharedTree.read (.ofString "conf/loader.toml") = .ok sharedDocument := rfl
  have hdocument : ofDocument? sharedDocument
      = some ⟨[.ofString "lib", .ofString ""], " ..js "⟩ := by decide +kernel
  obtain ⟨-, -, hstable, houtside⟩ := stable_iff h
  obtain ⟨-, -, hfile⟩ := houtside sharedDocument hdocument
  obtain ⟨c, hc, hextension, hoverride⟩ := hfile sharedTree (.ofString "conf/loader.toml") hread
  exact ⟨h, hagain, c, hc, hextension, hoverride.mpr (hstable.mp hagain)⟩

/-- A blank behind a dot comes to the front. Normalised again, the settings change, or are
refused. -/
theorem unstable_extensions :
    (⟨[], ". js"⟩ : LoaderConfig).normalize = .ok ⟨[], " js"⟩
      ∧ (⟨[], " js"⟩ : LoaderConfig).override none none = .ok ⟨[], "js"⟩
      ∧ parse "[loader]\nextension = \". .\"" = .ok ⟨[], " ."⟩
      ∧ (⟨[], " ."⟩ : LoaderConfig).override none none
          = .error (.invalid "extension cannot be empty") := by
  have hdocument : ofDocument? "[loader]\nextension = \". .\"" = some ⟨[], ". ."⟩ := by
    decide +kernel
  refine ⟨rfl, rfl, ?_, rfl⟩
  rw [parse, hdocument]
  rfl

end LoaderConfig

end Loader

end ScriptHost
