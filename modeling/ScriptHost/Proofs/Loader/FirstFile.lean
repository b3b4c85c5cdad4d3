import ScriptHost.Proofs.Loader.RunOnce

/-!
# The first file of a search

The candidates of a request are the path beside its caller and those in the configured directories
(`Request.Candidates`). A request works on the first of them that leads to a file
(`Request.WorksOn`): it is turned down, or it marks the file, reads it and runs it. What the other
candidates lead to is of no account, be it directories or files that stand later. When no candidate
leads to a file, all of them are listed, and nothing else happens.

Main statement: `require_takes_first`.
-/

set_option autoImplicit false

namespace ScriptHost.Loader

/-! ## The first file among some paths -/

/-- A list holds a first file, or none. -/
theorem FileTree.first_or_none (t : FileTree) (paths : List Path) :
    (∀ p ∈ paths, ¬ t.HoldsFile p) ∨
      ∃ before path after, paths = before ++ path :: after ∧ (∀ p ∈ before, ¬ t.HoldsFile p) ∧
        t.HoldsFile path := by
  cases hfind : paths.find? t.isFile with
  | none =>
      refine .inl fun p hp hfile => ?_
      exact List.find?_eq_none.mp hfind p hp (isFile_iff.mpr hfile)
  | some path =>
      obtain ⟨hpath, before, after, hpaths, hbefore⟩ := List.find?_eq_some_iff_append.mp hfind
      refine .inr ⟨before, path, after, hpaths, ?_, isFile_iff.mp hpath⟩
      intro p hp hfile
      have hnot := hbefore p hp
      rw [isFile_iff.mpr hfile] at hnot
      cases hnot

/-- The paths that a request may mean under an identity: in the directory of its caller, when the
caller has one, and then in each of the configured directories. -/
inductive Request.Candidates (q : Request) (identity : Path) : List Path → Prop
  | beside {caller directory : Path} (hcaller : q.caller = some caller)
      (hdirectory : caller.parent? = some directory) :
      Candidates q identity
        (directory.join identity :: q.config.loadPath.map fun directory => directory.join identity)
  | configured (h : ∀ caller, q.caller = some caller → caller.parent? = none) :
      Candidates q identity (q.config.loadPath.map fun directory => directory.join identity)

namespace Request.Candidates

variable {t : FileTree} {q : Request} {identity : Path} {paths : List Path}

/-- The search goes through the candidates and takes the first file. -/
theorem resolve_eq (h : q.Candidates identity paths) :
    resolve t q.config identity q.caller = match paths.find? t.isFile with
      | some path => .ok path
      | none => .error (.moduleNotFound identity paths) := by
  rw [resolve, searchIn_eq]
  cases h with
  | beside hcaller hdirectory =>
      rw [hcaller, Option.bind_some, hdirectory]
      rfl
  | configured h =>
      have hnone : q.caller.bind Path.parent? = none := Option.bind_eq_none_iff.mpr h
      rw [hnone]
      rfl

theorem resolve_of_first (h : q.Candidates identity paths) {before after : List Path} {path : Path}
    (hpaths : paths = before ++ path :: after) (hbefore : ∀ p ∈ before, ¬ t.HoldsFile p)
    (hpath : t.HoldsFile path) : resolve t q.config identity q.caller = .ok path := by
  have hfirst : paths.find? t.isFile = some path := by
    refine List.find?_eq_some_iff_append.mpr
      ⟨FileTree.isFile_iff.mpr hpath, before, after, hpaths, fun p hp => ?_⟩
    rw [Bool.not_eq_true', ← Bool.not_eq_true, FileTree.isFile_iff]
    exact hbefore p hp
  rw [h.resolve_eq, hfirst]

theorem resolve_of_none (h : q.Candidates identity paths) (hnone : ∀ p ∈ paths, ¬ t.HoldsFile p) :
    resolve t q.config identity q.caller = .error (.moduleNotFound identity paths) := by
  have hfind : paths.find? t.isFile = none :=
    List.find?_eq_none.mpr fun p hp hfile => hnone p hp (FileTree.isFile_iff.mp hfile)
  rw [h.resolve_eq, hfind]

theorem exists_candidates (q : Request) (identity : Path) : ∃ paths, q.Candidates identity paths := by
  cases hparent : q.caller.bind Path.parent? with
  | none => exact ⟨_, .configured (Option.bind_eq_none_iff.mp hparent)⟩
  | some directory =>
      obtain ⟨caller, hcaller, hdirectory⟩ := Option.bind_eq_some_iff.mp hparent
      exact ⟨_, .beside hcaller hdirectory⟩

/-- A request has one list of candidates. -/
theorem eq_of_candidates {others : List Path} (h : q.Candidates identity paths)
    (h' : q.Candidates identity others) : paths = others := by
  -- whether there is a directory of the caller is the same for both lists
  cases h with
  | beside hcaller hdirectory =>
      cases h' with
      | beside hcaller' hdirectory' =>
          cases hcaller.symm.trans hcaller'
          cases hdirectory.symm.trans hdirectory'
          rfl
      | configured h' => exact absurd (hdirectory.symm.trans (h' _ hcaller)) (by simp)
  | configured h =>
      cases h' with
      | beside hcaller hdirectory => exact absurd (hdirectory.symm.trans (h _ hcaller)) (by simp)
      | configured h' => rfl

end Request.Candidates

/-! ## What becomes of a request -/

namespace Request

variable {t : FileTree} {run : Runtime} {q : Request} {s s' : LoadState}
  {a : Except LoadError Bool}

/-- What becomes of a request that works on a file: `a` is the answer, `s'` the state behind. -/
inductive WorksOn (t : FileTree) (run : Runtime) (q : Request) (s : LoadState) (path : Path) :
    Except LoadError Bool → LoadState → Prop
  /-- The file is remembered, and nothing happens. -/
  | known (hknown : s.contains (loadedKey t path) = true) : WorksOn t run q s path (.ok false) s
  /-- The file is marked, and cannot be read. -/
  | unreadable {e : FileError} (hnew : s.contains (loadedKey t path) = false)
      (hread : t.read path = .error e) :
      WorksOn t run q s path (.error (.unreadable path e)) (s.mark (loadedKey t path))
  /-- The file is marked, and its text goes to the runtime. -/
  | ran {source : String} {r : Outcome} {s' : LoadState}
      (hnew : s.contains (loadedKey t path) = false) (hread : t.read path = .ok source)
      (hexec : (run q.config path source).exec (require t run) (s.handOver t path) = some (r, s')) :
      WorksOn t run q s path (ranAnswer path r) s'

theorem WorksOn.ne_moduleNotFound {path name : Path} {searched : List Path}
    (h : q.WorksOn t run s path a s') : a ≠ .error (.moduleNotFound name searched) := by
  cases h with
  | known hknown => exact nofun
  | unreadable hnew hread => exact nofun
  | @ran source r _ hnew hread hexec => cases r <;> exact nofun

/-- The file that a request leads to is the one that it works on. -/
theorem worksOn_of_target {path : Path} (htarget : q.target? t = some path)
    (h : q.put (require t run) s = some (a, s')) : q.WorksOn t run s path a s' := by
  have hmet := q.met t run t.fileCount s
  have hput : q.put (requireWithin t run (t.fileCount + 1)) s = some (a, s') := h
  rw [hput] at hmet
  generalize hanswer : some (a, s') = answer at hmet
  cases hmet with
  | missing hmissing =>
      rw [htarget] at hmissing
      cases hmissing
  | known hknown hcontains =>
      cases htarget.symm.trans hknown
      cases hanswer
      exact .known hcontains
  | unreadable hunreadable hnew hread =>
      cases htarget.symm.trans hunreadable
      cases hanswer
      exact .unreadable hnew hread
  | handed hhanded hnew hread =>
      cases htarget.symm.trans hhanded
      obtain ⟨⟨r, s₁⟩, hexec, heq⟩ := Option.map_eq_some_iff.mp hanswer.symm
      cases heq
      -- the requests of the file have a little less depth, which is of no account
      exact .ran hnew hread (Script.exec_mono (fun _ _ _ => requireWithin_succ) _ hexec)

/-- A request that names no file. -/
theorem put_of_unnamed (t : FileTree) (run : Runtime) (s : LoadState)
    (h : q.file.fileName? = none) :
    q.put (require t run) s = some (.error (.moduleNotFound q.file []), s) := by
  have hidentity : identity? q.config q.file = none := by
    rw [identity?, h]
    rfl
  rw [put, require, depthBound, requireWithin, hidentity]

/-- A request that has no file among its candidates. -/
theorem put_of_none (run : Runtime) (s : LoadState) {identity : Path} {paths : List Path}
    (hidentity : identity? q.config q.file = some identity) (hpaths : q.Candidates identity paths)
    (h : ∀ p ∈ paths, ¬ t.HoldsFile p) :
    q.put (require t run) s = some (.error (.moduleNotFound identity paths), s) := by
  simp only [put, require, depthBound, requireWithin, hidentity, hpaths.resolve_of_none h]

/-- What becomes of a request that is searched for under `identity` among some paths. -/
structure Searched (t : FileTree) (run : Runtime) (q : Request) (s : LoadState) (identity : Path)
    (paths : List Path) (a : Except LoadError Bool) (s' : LoadState) : Prop where
  /-- The request works on the first path that is a file, whatever the others are. -/
  worksOn : ∀ before path after, paths = before ++ path :: after →
    (∀ p ∈ before, ¬ t.HoldsFile p) → t.HoldsFile path → q.WorksOn t run s path a s'
  /-- It is not found exactly when no path is a file. -/
  notFound_iff : (∃ name searched, a = .error (.moduleNotFound name searched)) ↔
    ∀ p ∈ paths, ¬ t.HoldsFile p
  /-- Then all the paths are listed in order, and nothing happens. -/
  notFound : (∃ name searched, a = .error (.moduleNotFound name searched)) →
    a = .error (.moduleNotFound identity paths) ∧ s' = s

theorem searched {identity : Path} {paths : List Path}
    (hidentity : identity? q.config q.file = some identity) (hpaths : q.Candidates identity paths)
    (h : q.put (require t run) s = some (a, s')) : q.Searched t run s identity paths a s' := by
  have hnone : (∀ p ∈ paths, ¬ t.HoldsFile p) →
      a = .error (.moduleNotFound identity paths) ∧ s' = s := by
    intro hnofile
    have hput := h.symm.trans (put_of_none run s hidentity hpaths hnofile)
    cases hput
    exact ⟨rfl, rfl⟩
  have hworksOn : ∀ before path after, paths = before ++ path :: after →
      (∀ p ∈ before, ¬ t.HoldsFile p) → t.HoldsFile path → q.WorksOn t run s path a s' := by
    intro before path after hsplit hbefore hpath
    refine worksOn_of_target ?_ h
    rw [target?, hidentity]
    show (resolve t q.config identity q.caller).toOption = some path
    rw [hpaths.resolve_of_first hsplit hbefore hpath]
    rfl
  have hiff : (∃ name searched, a = .error (.moduleNotFound name searched)) ↔
      ∀ p ∈ paths, ¬ t.HoldsFile p := by
    constructor
    · rintro ⟨name, searched, hmissing⟩
      -- had there been a file, the request would have worked on the first one
      rcases t.first_or_none paths with hnofile | ⟨before, path, after, hsplit, hbefore, hpath⟩
      · exact hnofile
      · have hran := hworksOn before path after hsplit hbefore hpath
        exact absurd hmissing hran.ne_moduleNotFound
    · exact fun hnofile => ⟨_, _, (hnone hnofile).1⟩
  exact ⟨hworksOn, hiff, fun hmissing => hnone (hiff.mp hmissing)⟩

end Request

/-- Every request is answered, whatever the tree of files, the runtime and what has been loaded. A
request that names a file has candidates, first the one beside its caller and then those in the
configured directories. It works on the first of them that is a file, and is not found when there is
none; it lists its candidates then. A request that names no file is not found either, and has none
to list. Nothing happens in both cases. -/
theorem require_takes_first (t : FileTree) (run : Runtime) (q : Request) (s : LoadState) :
    ∃ a s', q.put (require t run) s = some (a, s') ∧
      (q.file.fileName? = none → a = .error (.moduleNotFound q.file []) ∧ s' = s) ∧
      ∀ name, q.file.fileName? = some name →
        ∃ identity paths, identity? q.config q.file = some identity ∧
          q.Candidates identity paths ∧ q.Searched t run s identity paths a s' := by
  obtain ⟨a, s', hanswer⟩ := exists_answer t run q s
  have hput : q.put (require t run) s = some (a, s') := hanswer (depthBound t) (Nat.le_refl _)
  refine ⟨a, s', hput, ?_, ?_⟩
  · intro hname
    have hsame := hput.symm.trans (Request.put_of_unnamed t run s hname)
    cases hsame
    exact ⟨rfl, rfl⟩
  · intro name hname
    obtain ⟨identity, hidentity⟩ : ∃ identity, identity? q.config q.file = some identity := by
      rw [identity?, hname]
      exact ⟨_, rfl⟩
    obtain ⟨paths, hpaths⟩ := Request.Candidates.exists_candidates q identity
    exact ⟨identity, paths, hidentity, hpaths, Request.searched hidentity hpaths hput⟩

/-- Three directories with something under one name: a directory, a file and another file. -/
def shelves : FileTree where
  home := ["home".toList]
  entries :=
    [(["home".toList, "app".toList], .directory),
     (["home".toList, "app".toList, "m.js".toList], .directory),
     (["home".toList, "lib".toList], .directory),
     (["home".toList, "lib".toList, "m.js".toList], .file "return 1".toUTF8),
     (["home".toList, "more".toList], .directory),
     (["home".toList, "more".toList, "m.js".toList], .file "fail".toUTF8)]

/-- A request from a file in the first directory. -/
def shelfRequest : Request where
  config := ⟨[.ofString "lib", .ofString "more/"], "js"⟩
  file := .ofString "m.coffee"
  caller := some (.ofString "app/main.js")

/-- The same request from a file in the second directory, which is not configured. -/
def besideRequest : Request where
  config := ⟨[.ofString "app", .ofString "more/"], "js"⟩
  file := .ofString "m.coffee"
  caller := some (.ofString "lib/main.js")

/-- From the first directory, the directory of the name is skipped, and the second file does not
run. From the second one, the file beside the caller comes before all others. -/
theorem takes_first_shelves :
    (∃ a s', shelfRequest.put (require shelves LineScript.runtime) .empty = some (a, s') ∧
      shelfRequest.WorksOn shelves LineScript.runtime .empty (.ofString "lib/m.js") a s' ∧
      s'.executed = [.ofString "lib/m.js"]) ∧
    ∃ a s', besideRequest.put (require shelves LineScript.runtime) .empty = some (a, s') ∧
      besideRequest.WorksOn shelves LineScript.runtime .empty (.ofString "lib/m.js") a s' ∧
      s'.executed = [.ofString "lib/m.js"] := by
  have hname : (Path.ofString "m.coffee").fileName? = some "m.coffee".toList := by decide
  have hfile : shelves.HoldsFile (.ofString "lib/m.js") :=
    FileTree.isFile_iff.mp (by decide +kernel)
  constructor
  · have hexecuted : (shelfRequest.put (require shelves LineScript.runtime) .empty).map
        (fun r => r.2.executed) = some [.ofString "lib/m.js"] := by
      decide +kernel
    obtain ⟨a, s', hput, -, hnamed⟩ :=
      require_takes_first shelves LineScript.runtime shelfRequest .empty
    obtain ⟨identity, paths, hidentity, hpaths, hsearched⟩ := hnamed _ hname
    obtain rfl : identity = .ofString "m.js" := Option.some.inj (hidentity.symm.trans (by decide))
    have happ : (Path.ofString "app/main.js").parent? = some (.ofString "app") := by decide
    obtain rfl := hpaths.eq_of_candidates (.beside rfl happ)
    have hworksOn := hsearched.worksOn [.ofString "app/m.js"] (.ofString "lib/m.js")
      [.ofString "more/m.js"] (by decide)
      (fun p hp => by
        rw [List.mem_singleton.mp hp, ← FileTree.isFile_iff]
        decide +kernel)
      hfile
    rw [hput] at hexecuted
    exact ⟨a, s', hput, hworksOn, Option.some.inj hexecuted⟩
  · have hexecuted : (besideRequest.put (require shelves LineScript.runtime) .empty).map
        (fun r => r.2.executed) = some [.ofString "lib/m.js"] := by
      decide +kernel
    obtain ⟨a, s', hput, -, hnamed⟩ :=
      require_takes_first shelves LineScript.runtime besideRequest .empty
    obtain ⟨identity, paths, hidentity, hpaths, hsearched⟩ := hnamed _ hname
    obtain rfl : identity = .ofString "m.js" := Option.some.inj (hidentity.symm.trans (by decide))
    have hlib : (Path.ofString "lib/main.js").parent? = some (.ofString "lib") := by decide
    obtain rfl := hpaths.eq_of_candidates (.beside rfl hlib)
    have hworksOn := hsearched.worksOn [] (.ofString "lib/m.js")
      [.ofString "app/m.js", .ofString "more/m.js"] (by decide) (by simp) hfile
    rw [hput] at hexecuted
    exact ⟨a, s', hput, hworksOn, Option.some.inj hexecuted⟩

end ScriptHost.Loader
