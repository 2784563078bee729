/-
Where a keyboard is looked for.

A path is tried as it stands and then, if it is relative, in the directory of keyboards
(`Resolved`).  What is found in the directory is there, so looking for it once more finds it at
once, even if the directory is a relative path itself (`resolve_resolve`).  The commands read the
file that was found, so they miss a file only if it is in neither place (`resolve_finds`).
-/
import KeyLayout.Proofs.Command.Agreement
import KeyLayout.Proofs.FileTree.Walk

namespace KeyLayout

open FilePath

namespace FileTree

variable {files : FileTree} {path : FilePath}

theorem ne_empty_of_exists? (h : files.exists? path = true) : path ≠ "" := by
  rintro rfl
  have hlocate : files.locate "" = .error .notFound := rfl
  rw [exists?, lookup, hlocate] at h
  cases h

/-- A file that is not found when it is read is not there. -/
theorem exists?_of_read (h : files.read path = .error .notFound) : files.exists? path = false := by
  rw [read] at h
  rw [exists?]
  cases hlookup : files.lookup path with
  | error e => rfl
  | ok entry =>
    rw [hlookup] at h
    cases entry with
    | directory => cases h
    | link => cases h
    | file id =>
      dsimp only at h
      split at h <;> cases h

end FileTree

namespace Config

variable {config : Config} {files : FileTree} {path found : FilePath}

/-- The ways in which a path is resolved. -/
inductive Resolved (config : Config) (files : FileTree) (path : FilePath) : FilePath → Prop
  /-- The path is not tried anywhere else. -/
  | given (h : files.exists? path = true ∨ path = "" ∨ isAbsolute path = true) :
    Resolved config files path path
  | inDirectory {directory : FilePath} (hmissing : files.exists? path = false) (hne : path ≠ "")
      (hrelative : isAbsolute path = false) (hdirectory : config.keyboardsDir = some directory)
      (hexists : files.exists? (join directory path) = true) :
    Resolved config files path (join directory path)
  | nowhere (hmissing : files.exists? path = false)
      (hnot : ∀ directory, config.keyboardsDir = some directory →
        files.exists? (join directory path) = false) :
    Resolved config files path path

theorem resolve_of_given (h : files.exists? path = true ∨ path = "" ∨ isAbsolute path = true) :
    config.resolve files path = path := by
  rw [resolve, if_pos]
  rcases h with h | rfl | h <;> simp [*]

theorem resolved (config : Config) (files : FileTree) (path : FilePath) :
    Resolved config files path (config.resolve files path) := by
  by_cases hgiven : files.exists? path = true ∨ path = "" ∨ isAbsolute path = true
  · rw [resolve_of_given hgiven]
    exact .given hgiven
  simp only [not_or, Bool.not_eq_true] at hgiven
  obtain ⟨hmissing, hne, hrelative⟩ := hgiven
  have htried : ¬(path.isEmpty || isAbsolute path || files.exists? path) = true := by
    simp [hne, hrelative, hmissing]
  rw [resolve, if_neg htried]
  cases hdirectory : config.keyboardsDir with
  | none => exact .nowhere hmissing fun directory h => by simp [hdirectory] at h
  | some directory =>
    dsimp only
    split
    · exact .inDirectory hmissing hne hrelative hdirectory ‹_›
    · rename_i hnot
      refine .nowhere hmissing fun other hother => ?_
      obtain rfl : directory = other := Option.some_inj.mp (hdirectory.symm.trans hother)
      simpa using hnot

/-- A path stands for itself or for a path in the directory of keyboards. -/
theorem Resolved.eq_or (h : Resolved config files path found) :
    found = path ∨ ∃ directory, config.keyboardsDir = some directory ∧
      found = join directory path := by
  cases h with
  | given => exact .inl rfl
  | inDirectory _ _ _ hdirectory _ => exact .inr ⟨_, hdirectory, rfl⟩
  | nowhere => exact .inl rfl

theorem Resolved.exists?_iff (h : Resolved config files path found) :
    files.exists? found = true ↔
      (path ≠ "" ∧ files.exists? path = true) ∨
      (path ≠ "" ∧ isAbsolute path = false ∧ ∃ directory, config.keyboardsDir = some directory ∧
        files.exists? (join directory path) = true) := by
  cases h with
  | given h =>
    constructor
    · exact fun hexists => .inl ⟨FileTree.ne_empty_of_exists? hexists, hexists⟩
    · rintro (⟨-, hexists⟩ | ⟨hpath, hrelative, -⟩)
      · exact hexists
      · simpa [hpath, hrelative] using h
  | inDirectory _ hpath hrelative hdirectory hexists =>
    exact iff_of_true hexists (.inr ⟨hpath, hrelative, _, hdirectory, hexists⟩)
  | nowhere hmissing hnot =>
    refine iff_of_false (by simp [hmissing]) ?_
    rintro (⟨-, hexists⟩ | ⟨-, -, directory, hdirectory, hexists⟩)
    · simp [hmissing] at hexists
    · simp [hnot directory hdirectory] at hexists

theorem Resolved.there_or_same (h : Resolved config files path found) :
    files.exists? found = true ∨ found = path := by
  cases h with
  | given => exact .inr rfl
  | inDirectory _ _ _ _ hexists => exact .inl hexists
  | nowhere => exact .inr rfl

/-- What has been found is found again: either it is there, or it is the path itself. -/
theorem resolve_resolve (config : Config) (files : FileTree) (path : FilePath) :
    config.resolve files (config.resolve files path) = config.resolve files path := by
  rcases (resolved config files path).there_or_same with hexists | hsame
  · exact resolve_of_given (.inl hexists)
  · rw [hsame, hsame]

/-- If a path leads nowhere even after it is resolved, there is nothing under it and nothing under
it in the directory of keyboards. -/
theorem missing_of_resolve (hpath : path ≠ "")
    (h : files.exists? (config.resolve files path) = false) :
    files.exists? path = false ∧ ∀ directory, config.keyboardsDir = some directory →
      files.exists? (join directory path) = false := by
  have hnone := mt (resolved config files path).exists?_iff.mpr (by simp [h])
  rw [not_or] at hnone
  obtain ⟨hhere, hthere⟩ := hnone
  have hmissing : files.exists? path = false :=
    Bool.eq_false_iff.mpr fun hexists => hhere ⟨hpath, hexists⟩
  refine ⟨hmissing, fun directory hdirectory => Bool.eq_false_iff.mpr fun hexists => ?_⟩
  cases habsolute : isAbsolute path with
  | false => exact hthere ⟨hpath, habsolute, directory, hdirectory, hexists⟩
  | true =>
    -- an absolute path is the same in any directory
    rw [join, habsolute, Bool.true_or, if_pos rfl, hmissing] at hexists
    cases hexists

end Config

/-- The failure of a keyboard whose definition file is not there tells the path, which is not
empty. -/
theorem Keyboard.read_of_missing {files : FileTree} {path named : FilePath} {catalog : Catalog}
    (h : (load files path catalog).1.failure = some (.load (.unreadable named .notFound))) :
    named = path ∧ path ≠ "" ∧ files.read path = .error .notFound := by
  have hload : (Definition.load files path).1 = .error (.unreadable named .notFound) := by
    rcases load_cases files path catalog with ⟨d, dimensions, -, hvalid, hk⟩ |
        ⟨d, defect, -, -, hk⟩ | ⟨e, he, hk⟩
    · rw [hk, build_failure hvalid] at h
      cases h
    · rw [hk] at h
      cases h
    · rw [hk] at h
      cases h
      exact he
  rw [Definition.load] at hload
  by_cases hpath : path = ""
  · simp [hpath] at hload
  rw [if_neg (by simpa using hpath)] at hload
  cases hread : files.read path with
  | error cause =>
    rw [hread] at hload
    cases hload
    exact ⟨rfl, hpath, rfl⟩
  | ok text =>
    rw [hread] at hload
    dsimp only at hload
    split at hload <;> cases hload

/-- **A keyboard is looked for under its path and then in the directory of keyboards.**  The path
that is found stands for a file or directory exactly when there is one under the path, or under a
relative path in the directory; a path that leads somewhere, an empty one and an absolute one are
taken as they stand; and what has been found is found again.  `compile` and `validate` report on the
keyboard in the file that was found, so they miss the file only if it is in neither place. -/
theorem Config.resolve_finds (config : Config) (files : FileTree) (path : FilePath) :
    let found := config.resolve files path
    (found = path ∨ ∃ directory, config.keyboardsDir = some directory ∧
      found = join directory path) ∧
    (files.exists? found = true ↔ (path ≠ "" ∧ files.exists? path = true) ∨
      (path ≠ "" ∧ isAbsolute path = false ∧ ∃ directory, config.keyboardsDir = some directory ∧
        files.exists? (join directory path) = true)) ∧
    (files.exists? path = true ∨ path = "" ∨ isAbsolute path = true → found = path) ∧
    config.resolve files found = found ∧
    ∀ tables log file, config.catalogs files = .ok (tables, log) → file.getD "" = path →
      let k := (Keyboard.load files found tables.catalog).1
      (∀ json, (Command.run files config (.compile file json)).output =
        if json then
          match k.summaryJson found with
          | .ok summary => Command.printed summary
          | .error _ => ""
        else endLines (k.summaryLines found)) ∧
      (∀ json strict, (Command.run files config (.validate file json strict)).output =
        if json then Command.printed k.verdictJson else endLines k.verdictLines) ∧
      ∀ named, k.failure = some (.load (.unreadable named .notFound)) →
        named = found ∧ files.exists? path = false ∧
          ∀ directory, config.keyboardsDir = some directory →
            files.exists? (join directory path) = false := by
  intro found
  have h : Resolved config files path found := resolved config files path
  refine ⟨h.eq_or, h.exists?_iff, resolve_of_given, resolve_resolve config files path, ?_⟩
  rintro tables log file hcatalogs rfl k
  refine ⟨fun json => ?_, fun json strict => ?_, fun named hfailure => ?_⟩
  · cases json with
    | false =>
      obtain ⟨log', hrun⟩ := Command.run_compile_text hcatalogs file
      rw [hrun]
      rfl
    | true =>
      obtain ⟨log', hrun⟩ := Command.run_compile_json hcatalogs file
      have hsummary : (Command.keyboard files config file tables).summaryJson
          (config.resolve files (file.getD "")) = k.summaryJson found := rfl
      rw [hrun, hsummary, if_pos rfl]
      cases k.summaryJson found <;> rfl
  · obtain ⟨log', hrun⟩ := Command.run_validate hcatalogs file json strict
    rw [hrun]
    rfl
  · obtain ⟨hnamed, hne, hread⟩ := Keyboard.read_of_missing hfailure
    have hpath : file.getD "" ≠ "" := by
      intro hempty
      exact hne ((resolve_of_given (.inr (.inl hempty))).trans hempty)
    exact ⟨hnamed, missing_of_resolve hpath (FileTree.exists?_of_read hread)⟩

/-- A keyboard in a directory that is given by a relative path, and one that is nowhere. -/
theorem Config.resolve_finds_relative_directory :
    let files : FileTree := ⟨["home"], [(["home", "my", "a.json"], .file 0),
      (["home", "my"], .directory)], [(0, "\x7b\x7d")], none⟩
    let config : Config := ⟨some "my/.", none, none, false⟩
    let missing := (Keyboard.load files "b.json" CatalogTables.builtin.catalog).1
    config.resolve files "a.json" = "my/./a.json" ∧ files.exists? "my/./a.json" = true ∧
      config.resolve files "my/./a.json" = "my/./a.json" ∧
      config.resolve files "my/a.json" = "my/a.json" ∧
      missing.failure = some (.load (.unreadable "b.json" .notFound)) ∧
      files.exists? "b.json" = false ∧ files.exists? "my/./b.json" = false := by
  intro files config missing
  have hfound : config.resolve files "a.json" = "my/./a.json" := by decide +kernel
  have hplain : files.exists? "my/a.json" = true := by decide +kernel
  have hnowhere : config.resolve files "b.json" = "b.json" := by decide +kernel
  have hfailure : missing.failure = some (.load (.unreadable "b.json" .notFound)) := by
    decide +kernel
  obtain ⟨-, hexists, -, hagain, -⟩ := resolve_finds config files "a.json"
  obtain ⟨-, -, hgiven, -, -⟩ := resolve_finds config files "my/a.json"
  obtain ⟨-, -, -, -, hcommands⟩ := resolve_finds config files "b.json"
  obtain ⟨-, -, hmissing⟩ := hcommands .builtin [] (some "b.json") rfl rfl
  rw [hfound] at hexists hagain
  rw [hnowhere] at hmissing
  obtain ⟨-, hhere, hthere⟩ := hmissing "b.json" hfailure
  exact ⟨hfound, hexists.mpr (.inr ⟨by decide, by decide, _, rfl, by decide +kernel⟩), hagain,
    hgiven (.inl hplain), hfailure, hhere, hthere "my/." rfl⟩

end KeyLayout
