import ScriptHost.Loader.Search
import ScriptHost.Proofs.Loader.Ways

/-!
# One key for one file

A file is remembered under the absolute path of its location. The file that a path leads to has
such a location (`FileTree.exists_location_of_isFile`), and its key is the path of that location
(`loadedKey_of_location`). Main statement: the keys of two locations are alike exactly when the
locations are the same (`FileTree.alike_pathOf_iff`), as long as every name on the way is the name
of a file: not empty, not `.` or `..`, and without a slash (`IsName`). A look-up only goes to such
locations when the home of the tree is one (`FileTree.isProper_of_location`).
-/

set_option autoImplicit false

namespace ScriptHost.Loader

/-! ## The path of a location -/

/-- A location with names of files on the way. -/
def IsProper (here : Location) : Prop := ∀ name ∈ here, IsName name

namespace FileTree

theorem components_pathOf {here : Location} (h : IsProper here) :
    (pathOf here).components = .root :: here.map .name := by
  have hsteps : ∀ step ∈ here.map Component.name, step.IsStep := by
    intro step hstep
    obtain ⟨name, hname, rfl⟩ := List.mem_map.mp hstep
    exact h name hname
  exact (Path.ofWay_eq hsteps true).2.2

/-- Locations with alike paths are the same. -/
theorem alike_pathOf_iff {here there : Location} (hhere : IsProper here)
    (hthere : IsProper there) : (pathOf here).alike (pathOf there) = true ↔ here = there := by
  rw [Path.alike, beq_iff_eq, components_pathOf hhere, components_pathOf hthere, List.cons.injEq]
  constructor
  · rintro ⟨-, hmap⟩
    exact (List.map_inj_right fun _ _ hname => Component.name.inj hname).mp hmap
  · rintro rfl
    exact ⟨rfl, rfl⟩

/-! ## Where a look-up goes -/

/-- A look-up along pieces from a proper location comes to a proper one, if it does so behind
every link. -/
theorem isProper_of_walk {t : FileTree} {follow : Follow}
    (hfollow : ∀ {here target rest there}, IsProper here → (∀ piece ∈ rest, '/' ∉ piece) →
      follow here target rest = .ok (.taken there) → IsProper there)
    {place : Place} {rest : List (List Char)} {there : Location}
    (hplace : ∀ here, place = .taken here → IsProper here) (hrest : ∀ piece ∈ rest, '/' ∉ piece)
    (h : t.walk follow place rest = .ok (.taken there)) : IsProper there := by
  fun_induction walk t follow place rest with
  | case1 place =>
      cases h
      exact hplace there rfl
  | case2 => cases h
  | case3 here piece rest hentry hidle ih =>
      exact ih hplace (fun p hp => hrest p (List.mem_cons_of_mem _ hp)) h
  | case4 here rest hentry hidle ih =>
      refine ih ?_ (fun p hp => hrest p (List.mem_cons_of_mem _ hp)) h
      rintro _ ⟨⟩
      exact fun name hname => hplace here rfl name ((List.dropLast_sublist here).subset hname)
  | case5 here piece rest hentry hidle hup hnext =>
      unfold missing at h
      split at h
      · cases h
      · split at h <;> cases h
  | case6 here piece rest hentry hidle hup target hnext =>
      exact hfollow (hplace here rfl) (fun p hp => hrest p (List.mem_cons_of_mem _ hp)) h
  | case7 here piece rest hentry hidle hup entry hlink hnext ih =>
      refine ih ?_ (fun p hp => hrest p (List.mem_cons_of_mem _ hp)) h
      rintro _ ⟨⟩
      have hname : IsName piece := .of_piece (hrest piece List.mem_cons_self) hidle hup
      intro name hmem
      rcases List.mem_append.mp hmem with hbefore | hlast
      · exact hplace here rfl name hbefore
      · rw [List.mem_singleton.mp hlast]
        exact hname
  | case8 => cases h
  | case9 => cases h

theorem isProper_of_walkLinks {t : FileTree} (links : Nat) {place : Place}
    {rest : List (List Char)} {there : Location}
    (hplace : ∀ here, place = .taken here → IsProper here) (hrest : ∀ piece ∈ rest, '/' ∉ piece)
    (h : t.walkLinks links place rest = .ok (.taken there)) : IsProper there := by
  induction links generalizing place rest there with
  | zero =>
      rw [walkLinks] at h
      exact isProper_of_walk (fun _ _ hfollow => by cases hfollow) hplace hrest h
  | succ links ih =>
      rw [walkLinks] at h
      refine isProper_of_walk ?_ hplace hrest h
      intro here target behind there hhere hbehind hfollow
      refine ih ?_ ?_ hfollow
      · -- a link leads on from the directory it stands in, or from the top
        unfold origin
        split
        · rintro _ ⟨⟩
          exact fun name hname => absurd hname List.not_mem_nil
        · rintro _ ⟨⟩
          exact hhere
      · intro piece hpiece
        rcases List.mem_append.mp hpiece with htarget | hlater
        · exact no_slash_of_mem_pieces htarget
        · exact hbehind piece hlater

/-- The location of what a path leads to. -/
def location? (t : FileTree) (p : Path) : Option Location :=
  match t.find p with
  | .ok (.taken here) => some here
  | _ => none

theorem find_of_location {t : FileTree} {p : Path} {here : Location}
    (h : t.location? p = some here) : t.find p = .ok (.taken here) := by
  unfold location? at h
  split at h
  · rename_i hfind
    cases h
    exact hfind
  · cases h

theorem trace_of_find {t : FileTree} {p : Path} {place : Place} (h : t.find p = .ok place) :
    t.trace p = .ok place := by
  unfold find at h
  split at h
  · cases h
  · split at h
    · cases h
    · exact h

/-- A tree whose home has names of files on the way has no other locations. -/
theorem isProper_of_location {t : FileTree} (ht : IsProper t.home) {p : Path} {here : Location}
    (h : t.location? p = some here) : IsProper here := by
  have htrace := trace_of_find (find_of_location h)
  unfold trace at htrace
  split at htrace
  · cases htrace
  · refine isProper_of_walkLinks maxLinks ?_ (fun _ => no_slash_of_mem_pieces) htrace
    unfold origin
    split
    · rintro _ ⟨⟩
      exact fun name hname => absurd hname List.not_mem_nil
    · rintro _ ⟨⟩
      exact ht

theorem look_eq_ok_iff {t : FileTree} {p : Path} {entry : FileEntry} :
    t.look p = .ok entry ↔ ∃ here, t.location? p = some here ∧ t.entry? here = some entry := by
  rw [look, location?]
  cases hfind : t.find p with
  | error e =>
      refine ⟨fun h => ?_, ?_⟩
      · cases h
      · rintro ⟨here, h, -⟩
        cases h
  | ok place =>
      cases place with
      | vacant here =>
          refine ⟨fun h => ?_, ?_⟩
          · cases h
          · rintro ⟨here, h, -⟩
            cases h
      | taken here =>
          simp only [bind, Except.bind, pure, Except.pure, Option.some.injEq]
          constructor
          · intro h
            refine ⟨here, rfl, ?_⟩
            split at h
            · rename_i found hfound
              cases h
              exact hfound
            · cases h
          · rintro ⟨_, rfl, hentry⟩
            rw [hentry]

/-- A path leads to a file, and not to a directory or nowhere. -/
def HoldsFile (t : FileTree) (p : Path) : Prop :=
  ∃ here content, t.location? p = some here ∧ t.entry? here = some (.file content)

theorem isFile_iff {t : FileTree} {p : Path} : t.isFile p = true ↔ t.HoldsFile p := by
  unfold isFile
  constructor
  · intro h
    split at h
    · rename_i content hlook
      obtain ⟨here, hhere, hentry⟩ := look_eq_ok_iff.mp hlook
      exact ⟨here, content, hhere, hentry⟩
    · cases h
  · rintro ⟨here, content, hhere, hentry⟩
    rw [look_eq_ok_iff.mpr ⟨here, hhere, hentry⟩]

/-- A file stands in the tree, at a location of its own. -/
theorem exists_location_of_isFile {t : FileTree} {p : Path} (h : t.isFile p = true) :
    ∃ here content, t.location? p = some here ∧ (here, FileEntry.file content) ∈ t.entries := by
  obtain ⟨here, content, hhere, hentry⟩ := isFile_iff.mp h
  refine ⟨here, content, hhere, ?_⟩
  unfold entry? at hentry
  split at hentry
  · cases hentry
  · obtain ⟨before, after, hentries, -⟩ := List.lookup_eq_some_iff.mp hentry
    rw [hentries]
    exact List.mem_append_right before List.mem_cons_self

end FileTree

/-- What a path leads to is remembered under the path of its location. -/
theorem loadedKey_of_location {t : FileTree} {p : Path} {here : Location}
    (h : t.location? p = some here) : loadedKey t p = FileTree.pathOf here := by
  rw [loadedKey, FileTree.canonical?, FileTree.trace_of_find (FileTree.find_of_location h)]
  rfl

end ScriptHost.Loader
