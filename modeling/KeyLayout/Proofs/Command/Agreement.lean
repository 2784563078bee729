/-
The commands `compile` and `validate` agree.

Both load the same keyboard (`run_compile`, `run_validate`), or fail because there are no catalogs
to load it with.  What they print and how they end is then determined by the failure and the issues
of that keyboard (`Agreement`): the failure is shown by both in the same words, and each issue of
the one is a warning of the other, at the anchor of a key that has it.  A message may hold line
ends, since labels may; as text it is nevertheless printed on one line (`Finding.line_toList`).

In one case they part: a grid that leads to a path that is no text cannot be printed as JSON, and
`compile` fails then, while `validate` prints no grid (`compile_fails_iff`).
-/
import KeyLayout.Command.Line
import KeyLayout.Proofs.Key.Link
import KeyLayout.Proofs.Keyboard.Issues
import KeyLayout.Proofs.Keyboard.Record

namespace KeyLayout

/-! ### Messages -/

/-- A text on one line, with blanks for all parts of line ends. -/
def Text.oneLine (s : String) : String := s.map fun c => if c = '\r' ∨ c = '\n' then ' ' else c

theorem Text.line_of_forall {text : List Char} (h : ∀ c ∈ text, c ≠ '\r' ∧ c ≠ '\n') : Line text where
  no_end hmem := (h _ hmem).2 rfl
  no_return hlast := (h _ (List.mem_of_getLast? hlast)).1 rfl

theorem Text.forall_oneLine (s : String) : ∀ c ∈ (oneLine s).toList, c ≠ '\r' ∧ c ≠ '\n' := by
  intro c hc
  rw [oneLine, String.toList_map] at hc
  obtain ⟨d, -, rfl⟩ := List.mem_map.mp hc
  split
  · decide
  · rename_i h
    exact not_or.mp h

theorem Finding.line_eq (f : Finding) :
    f.line = (if f.severity = .error then "  ✗ " else "  ⚠ ") ++ Text.oneLine f.message := by
  obtain ⟨severity, message, anchor⟩ := f
  cases severity <;> rfl

/-- A message is printed on one line, whatever characters are in it. -/
theorem Finding.line_toList (f : Finding) : Text.Line f.line.toList := by
  have hsigns : ∀ sign ∈ ["  ✗ ", "  ⚠ "],
      sign.toList.all (fun c => c ≠ '\r' ∧ c ≠ '\n') = true := by decide
  refine Text.line_of_forall fun c hc => ?_
  rw [line_eq, String.toList_append, List.mem_append] at hc
  rcases hc with hsign | hmessage
  · refine of_decide_eq_true (List.all_eq_true.mp (hsigns _ ?_) c hsign)
    split <;> simp
  · exact Text.forall_oneLine _ c hmessage

/-- The message about a failure, as JSON. -/
def Failure.messageJson (f : Failure) : Json.Value :=
  .record [("severity", .text "error"), ("message", .text s!"{f.heading}: {f.detail}")]

/-- The message about an issue, as JSON. -/
def KeyIssue.messageJson (issue : KeyIssue) : Json.Value :=
  .record [
    ("severity", .text "warning"),
    ("message", .text issue.text),
    ("position", .record [("row", .int issue.anchor.row), ("col", .int issue.anchor.col)])]

namespace Keyboard

/-- The member for the failure, if there is one. -/
def failureMember (k : Keyboard) : List (String × Json.Value) :=
  k.failure.toList.map fun f =>
    ("failure", .record [("heading", .text f.heading), ("detail", .text f.detail)])

variable (k : Keyboard)

theorem findings_eq_nil_iff : k.findings = [] ↔ k.failure = none ∧ k.issues = [] := by
  rw [findings, List.append_eq_nil_iff, Option.toList_eq_nil_iff, Option.map_eq_none_iff,
    List.map_eq_nil_iff]

theorem isErrorScreen_iff : k.isErrorScreen = true ↔ k.failure ≠ none :=
  Option.isSome_iff_ne_none

theorem summaryJson_eq (path : FilePath) :
    k.summaryJson path = k.grid.toJson.map fun grid => .record (
      [("file", .text path.display), ("shift_aware", .bool k.shiftAware)] ++ k.failureMember ++
      [("issues", .list (k.issues.map fun issue => .text issue.text)), ("grid", grid)]) := by
  rw [summaryJson, failureMember]
  cases k.grid.toJson with
  | error cause => rfl
  | ok grid => cases k.failure <;> rfl

theorem verdictJson_eq :
    k.verdictJson = .record ([("valid", .bool (decide (k.failure = none)))] ++ k.failureMember ++
      [("messages", .list
        (k.failure.toList.map Failure.messageJson ++ k.issues.map KeyIssue.messageJson))]) := by
  have hmessages : k.findings.map Finding.toJson =
      k.failure.toList.map Failure.messageJson ++ k.issues.map KeyIssue.messageJson := by
    rw [findings, List.map_append, List.map_map]
    cases k.failure <;> rfl
  rw [verdictJson, hmessages, failureMember, isErrorScreen]
  cases k.failure <;> rfl

/-- The lines for the failure and for the issues, if there are any. -/
def messageLines : List String :=
  (k.failure.toList.map fun f => "  ✗ " ++ Text.oneLine s!"{f.heading}: {f.detail}") ++
    k.issues.map fun issue => "  ⚠ " ++ Text.oneLine issue.text

theorem map_line_findings : k.findings.map Finding.line = k.messageLines := by
  have hwarning : k.issues.map (Finding.line ∘ KeyIssue.finding) =
      k.issues.map fun issue => "  ⚠ " ++ Text.oneLine issue.text :=
    List.map_congr_left fun issue _ => issue.finding.line_eq
  rw [findings, List.map_append, List.map_map, hwarning, messageLines]
  cases k.failure <;> rfl

theorem verdictLines_eq :
    k.verdictLines =
      (if k.failure = none then "✓ Validation passed" else "✗ Validation failed") ::
        if k.messageLines = [] then [] else "" :: "Issues:" :: k.messageLines := by
  rw [verdictLines, isErrorScreen, ← map_line_findings]
  rcases k.findings with _ | ⟨f, findings⟩ <;> cases k.failure <;> rfl

theorem verdictLines_ne_nil : k.verdictLines ≠ [] := by
  rw [verdictLines_eq]
  exact List.cons_ne_nil _ _

theorem summaryLines_ne_nil (path : FilePath) : k.summaryLines path ≠ [] := by
  simp [summaryLines]

/-- What is printed has exactly the lines of the verdict. -/
theorem lines_verdict :
    (Text.lines (endLines k.verdictLines).toList).map String.ofList = k.verdictLines := by
  have hlines : ∀ line ∈ k.verdictLines.map String.toList, Text.Line line := by
    rw [List.forall_mem_map, verdictLines_eq, ← map_line_findings, List.forall_mem_cons]
    constructor
    · split <;> exact ⟨by decide, by decide⟩
    · split
      · simp
      · rw [List.forall_mem_cons, List.forall_mem_cons, List.forall_mem_map]
        exact ⟨⟨by decide, by decide⟩, ⟨by decide, by decide⟩, fun f _ => f.line_toList⟩
  rw [Command.toList_endLines, Text.lines_written hlines, List.map_map]
  simp only [Function.comp_def, String.ofList_toList, List.map_id']

/-- Without a failure, the issues are what the keys of the definition have lost, key by key, and
each issue stands at the anchor of its key. -/
theorem load_issues {files : FileTree} {path : FilePath} {catalog : Catalog}
    (h : (load files path catalog).1.failure = none) :
    ∃ d, (Definition.load files path).1 = .ok d ∧
      (load files path catalog).1.issues = d.specs.flatMap (load files path catalog).1.losses ∧
      ∀ spec ∈ d.specs, ((load files path catalog).1.grid.at? spec.anchor).isSome ∧
        ∀ issue ∈ (load files path catalog).1.losses spec, issue.anchor = spec.anchor := by
  rcases load_cases files path catalog with ⟨d, dimensions, hload, hvalid, hk⟩ |
      ⟨d, defect, -, -, hk⟩ | ⟨e, -, hk⟩
  · -- in a valid definition no key is displaced, so each one still stands at its anchor
    refine ⟨d, hload, ?_⟩
    rw [hk]
    refine ⟨issues_eq_losses hvalid path catalog, fun spec hspec => ?_⟩
    have hat := build_at? hvalid path catalog hspec
    refine ⟨Option.isSome_of_eq_some hat, fun issue hissue => ?_⟩
    rw [losses, hat] at hissue
    exact KeySpec.anchor_of_mem_losses hissue
  · rw [hk] at h
    cases h
  · rw [hk] at h
    cases h

/-- A failure leaves no issues. -/
theorem load_issues_of_failure {files : FileTree} {path : FilePath} {catalog : Catalog}
    (h : (load files path catalog).1.failure ≠ none) :
    (load files path catalog).1.issues = [] := by
  obtain ⟨f, hf⟩ := Option.ne_none_iff_exists'.mp h
  exact (shows_of_failure hf).issues

end Keyboard

/-! ### The two commands -/

/-- The exit code of a command that judges a keyboard. -/
theorem Command.exitCode_objection (k : Keyboard) (path : FilePath) (strict : Bool) (output : String)
    (log : Log) :
    (CommandOutcome.mk output (objection k path strict) log).exitCode =
      if k.failure ≠ none ∨ strict = true ∧ k.issues ≠ [] then 1 else 0 := by
  rw [CommandOutcome.exitCode, objection]
  by_cases hfailure : k.failure = none
  · have hscreen : ¬k.isErrorScreen = true := fun h => k.isErrorScreen_iff.mp h hfailure
    -- without a failure, all findings are about issues
    have hwarnings : (strict && !k.findings.isEmpty) = true ↔ strict = true ∧ k.issues ≠ [] := by
      rw [Bool.and_eq_true, Bool.not_eq_true', List.isEmpty_eq_false_iff, ne_eq,
        Keyboard.findings_eq_nil_iff, and_iff_right hfailure]
    rw [if_neg hscreen]
    by_cases hstrict : strict = true ∧ k.issues ≠ []
    · rw [if_pos (hwarnings.mpr hstrict), if_pos (.inr hstrict)]
      rfl
    · rw [if_neg (mt hwarnings.mp hstrict), if_neg (not_or.mpr ⟨not_not_intro hfailure, hstrict⟩)]
  · rw [if_pos (k.isErrorScreen_iff.mpr hfailure), if_pos (.inl hfailure)]
    rfl

theorem endLines_ne_empty {lines : List String} (h : lines ≠ []) : endLines lines ≠ "" := by
  obtain ⟨line, lines, rfl⟩ := List.exists_cons_of_ne_nil h
  intro hempty
  have hlist := congrArg String.toList hempty
  rw [Command.toList_endLines] at hlist
  simp at hlist

namespace Command

theorem printed_ne_empty (v : Json.Value) : printed v ≠ "" := by
  intro h
  have hlist := congrArg String.toList h
  rw [printed, String.toList_append] at hlist
  simp at hlist

/-- The keyboard that both commands load, with the tables of the configured catalogs. -/
def keyboard (files : FileTree) (config : Config) (file : Option FilePath) (tables : CatalogTables) :
    Keyboard :=
  (Keyboard.load files (config.resolve files (file.getD "")) tables.catalog).1

/-- How `compile` and `validate` treat one keyboard. -/
structure Agreement (files : FileTree) (config : Config) (file : Option FilePath) (k : Keyboard) :
    Prop where
  compile_exitCode : ∀ json, (json = true → ∃ grid, k.grid.toJson = .ok grid) →
    (run files config (.compile file json)).exitCode = 0
  /-- A grid that cannot be written is a failure of its own. -/
  compile_unwritable : ∀ cause, k.grid.toJson = .error cause →
    (run files config (.compile file true)).output = "" ∧
      (run files config (.compile file true)).error = some (.unwritable cause)
  validate_exitCode : ∀ json strict, (run files config (.validate file json strict)).exitCode =
    if k.failure ≠ none ∨ strict = true ∧ k.issues ≠ [] then 1 else 0
  compile_json : ∀ grid, k.grid.toJson = .ok grid →
    (run files config (.compile file true)).output = printed (.record (
      [("file", .text (config.resolve files (file.getD "")).display),
        ("shift_aware", .bool k.shiftAware)] ++ k.failureMember ++
      [("issues", .list (k.issues.map fun issue => .text issue.text)), ("grid", grid)]))
  validate_json : ∀ strict, (run files config (.validate file true strict)).output =
    printed (.record ([("valid", .bool (decide (k.failure = none)))] ++ k.failureMember ++
      [("messages", .list
        (k.failure.toList.map Failure.messageJson ++ k.issues.map KeyIssue.messageJson))]))
  /-- The first line tells the verdict; each message has a line of its own. -/
  validate_lines : ∀ strict,
    (Text.lines (run files config (.validate file false strict)).output.toList).map String.ofList =
      (if k.failure = none then "✓ Validation passed" else "✗ Validation failed") ::
        if k.messageLines = [] then [] else "" :: "Issues:" :: k.messageLines
  /-- The issues are those of the keys, and stand at their anchors. -/
  issues : k.failure = none → ∃ d,
    (Definition.load files (config.resolve files (file.getD ""))).1 = .ok d ∧
      k.issues = d.specs.flatMap k.losses ∧
      ∀ spec ∈ d.specs, (k.grid.at? spec.anchor).isSome ∧
        ∀ issue ∈ k.losses spec, issue.anchor = spec.anchor
  no_issues : k.failure ≠ none → k.issues = []

variable {files : FileTree} {config : Config}

section

variable {tables : CatalogTables} {log : Log} (h : config.catalogs files = .ok (tables, log))
  (file : Option FilePath)
include h

theorem loadKeyboard_of_catalogs : ∃ log', loadKeyboard files config file =
    .ok (config.resolve files (file.getD ""), keyboard files config file tables, log') := by
  rw [loadKeyboard, h]
  exact ⟨_, rfl⟩

theorem run_compile_text : ∃ log', run files config (.compile file false) =
    ⟨endLines ((keyboard files config file tables).summaryLines
      (config.resolve files (file.getD ""))), none, log'⟩ := by
  obtain ⟨log', hload⟩ := loadKeyboard_of_catalogs h file
  rw [run, hload]
  exact ⟨_, rfl⟩

theorem run_compile_json : ∃ log', run files config (.compile file true) =
    match (keyboard files config file tables).summaryJson (config.resolve files (file.getD "")) with
    | .error cause => ⟨"", some (.unwritable cause), log'⟩
    | .ok summary => ⟨printed summary, none, log'⟩ := by
  obtain ⟨log', hload⟩ := loadKeyboard_of_catalogs h file
  rw [run, hload]
  exact ⟨_, rfl⟩

theorem run_compile_unwritable {cause : WriteError}
    (hgrid : (keyboard files config file tables).grid.toJson = .error cause) :
    ∃ log', run files config (.compile file true) = ⟨"", some (.unwritable cause), log'⟩ := by
  obtain ⟨log', hrun⟩ := run_compile_json h file
  rw [Keyboard.summaryJson_eq, hgrid] at hrun
  exact ⟨log', hrun⟩

theorem run_compile_written {grid : Json.Value}
    (hgrid : (keyboard files config file tables).grid.toJson = .ok grid) :
    ∃ log', run files config (.compile file true) = ⟨printed (.record (
      [("file", .text (config.resolve files (file.getD "")).display),
        ("shift_aware", .bool (keyboard files config file tables).shiftAware)] ++
        (keyboard files config file tables).failureMember ++
      [("issues", .list ((keyboard files config file tables).issues.map fun issue =>
        .text issue.text)), ("grid", grid)])), none, log'⟩ := by
  obtain ⟨log', hrun⟩ := run_compile_json h file
  rw [Keyboard.summaryJson_eq, hgrid] at hrun
  exact ⟨log', hrun⟩

theorem run_validate (json strict : Bool) : ∃ log', run files config (.validate file json strict) =
    ⟨if json then printed (keyboard files config file tables).verdictJson
      else endLines (keyboard files config file tables).verdictLines,
      objection (keyboard files config file tables) (config.resolve files (file.getD "")) strict,
      log'⟩ := by
  obtain ⟨log', hload⟩ := loadKeyboard_of_catalogs h file
  rw [run, hload]
  exact ⟨_, rfl⟩

theorem agreement : Agreement files config file (keyboard files config file tables) where
  compile_exitCode json hjson := by
    cases json with
    | false =>
      obtain ⟨log', hrun⟩ := run_compile_text h file
      rw [hrun]
      rfl
    | true =>
      obtain ⟨grid, hgrid⟩ := hjson rfl
      obtain ⟨log', hrun⟩ := run_compile_written h file hgrid
      rw [hrun]
      rfl
  compile_unwritable cause hgrid := by
    obtain ⟨log', hrun⟩ := run_compile_unwritable h file hgrid
    rw [hrun]
    exact ⟨rfl, rfl⟩
  validate_exitCode json strict := by
    obtain ⟨log', hrun⟩ := run_validate h file json strict
    rw [hrun]
    exact exitCode_objection _ _ _ _ _
  compile_json grid hgrid := by
    obtain ⟨log', hrun⟩ := run_compile_written h file hgrid
    rw [hrun]
  validate_json strict := by
    obtain ⟨log', hrun⟩ := run_validate h file true strict
    rw [hrun, ← Keyboard.verdictJson_eq]
    rfl
  validate_lines strict := by
    obtain ⟨log', hrun⟩ := run_validate h file false strict
    rw [hrun, ← Keyboard.verdictLines_eq]
    exact Keyboard.lines_verdict _
  issues := Keyboard.load_issues
  no_issues := Keyboard.load_issues_of_failure

end

section

variable {file : Option FilePath} {k : Keyboard} (h : Agreement files config file k) (json : Bool)
include h

/-- Issues alone are no reason to fail. -/
theorem Agreement.exitCode_of_failure_eq_none (hfailure : k.failure = none) :
    (run files config (.validate file json false)).exitCode = 0 := by
  rw [h.validate_exitCode, if_neg]
  rintro (hne | ⟨hstrict, -⟩)
  · exact hne hfailure
  · cases hstrict

/-- If it is strict, `validate` fails with every issue. -/
theorem Agreement.exitCode_strict (hissues : k.issues ≠ []) :
    (run files config (.validate file json true)).exitCode = 1 := by
  rw [h.validate_exitCode, if_pos (.inr ⟨rfl, hissues⟩)]

end

/-- A keyboard from a path that is a text leads only to such paths. -/
theorem load_files_isText {path : FilePath} {catalog : Catalog} (hpath : path.IsText) :
    ∀ target ∈ (Keyboard.load files path catalog).1.grid.files, target.IsText := by
  intro target htarget
  rcases Keyboard.load_cases files path catalog with ⟨d, dimensions, -, -, hk⟩ |
      ⟨d, defect, -, -, hk⟩ | ⟨e, -, hk⟩
  · rw [hk] at htarget
    exact Keyboard.build_files_isText catalog hpath target htarget
  · rw [hk, Keyboard.ofFailure_grid, KeyGrid.errorScreen_files] at htarget
    cases htarget
  · rw [hk, Keyboard.ofFailure_grid, KeyGrid.errorScreen_files] at htarget
    cases htarget

theorem resolve_isText {path : FilePath} (hdirectory : ∀ directory ∈ config.keyboardsDir,
    directory.IsText) (hpath : path.IsText) : (config.resolve files path).IsText := by
  rw [Config.resolve]
  split
  · exact hpath
  · split
    · exact hpath
    · have hjoin := FilePath.isText_join (hdirectory _ ‹_›) hpath
      dsimp only
      split
      · exact hjoin
      · exact hpath

/-- The catalogs that are configured cannot be loaded. -/
def NoCatalogs (files : FileTree) (config : Config) : Prop := ∃ e, config.catalogs files = .error e

/-- The keyboard leads to a path that is no text. -/
def Unwritable (files : FileTree) (config : Config) (file : Option FilePath) : Prop :=
  ∃ tables log, config.catalogs files = .ok (tables, log) ∧
    ∃ target ∈ (keyboard files config file tables).grid.files, ¬target.IsText

section

variable {file : Option FilePath} {json strict : Bool}

theorem not_noCatalogs {tables : CatalogTables} {log : Log}
    (h : config.catalogs files = .ok (tables, log)) : ¬NoCatalogs files config := by
  rintro ⟨e, he⟩
  cases h.symm.trans he

/-- Only the catalogs keep `validate` from a judgement. -/
theorem validate_fails_iff :
    ((run files config (.validate file json strict)).exitCode = 2 ↔ NoCatalogs files config) ∧
      ((run files config (.validate file json strict)).output = "" ↔ NoCatalogs files config) := by
  rcases hcatalogs : config.catalogs files with e | ⟨tables, log⟩
  · rw [run, loadKeyboard, hcatalogs]
    exact ⟨iff_of_true rfl ⟨e, hcatalogs⟩, iff_of_true rfl ⟨e, hcatalogs⟩⟩
  · refine ⟨iff_of_false ?_ (not_noCatalogs hcatalogs), iff_of_false ?_ (not_noCatalogs hcatalogs)⟩
    · rw [(agreement hcatalogs file).validate_exitCode]
      split <;> decide
    · obtain ⟨log', hrun⟩ := run_validate hcatalogs file json strict
      rw [hrun]
      dsimp only
      split
      · exact printed_ne_empty _
      · exact endLines_ne_empty (Keyboard.verdictLines_ne_nil _)

/-- What keeps `compile` from printing is the catalogs or, as JSON, a path that is no text. -/
theorem compile_fails_iff :
    ((run files config (.compile file json)).exitCode = 2 ↔
      NoCatalogs files config ∨ json = true ∧ Unwritable files config file) ∧
    ((run files config (.compile file json)).output = "" ↔
      NoCatalogs files config ∨ json = true ∧ Unwritable files config file) := by
  rcases hcatalogs : config.catalogs files with e | ⟨tables, log⟩
  · rw [run, loadKeyboard, hcatalogs]
    exact ⟨iff_of_true rfl (.inl ⟨e, hcatalogs⟩), iff_of_true rfl (.inl ⟨e, hcatalogs⟩)⟩
  have hunwritable : Unwritable files config file ↔
      ¬∃ grid, (keyboard files config file tables).grid.toJson = .ok grid := by
    rw [KeyGrid.exists_toJson_iff]
    simp only [not_forall, exists_prop]
    constructor
    · rintro ⟨tables', log', h, htarget⟩
      cases hcatalogs.symm.trans h
      exact htarget
    · intro htarget
      exact ⟨tables, log, hcatalogs, htarget⟩
  rw [or_iff_right (not_noCatalogs hcatalogs), hunwritable]
  have hagree := agreement hcatalogs file
  cases json with
  | false =>
    refine ⟨iff_of_false ?_ (by simp), iff_of_false ?_ (by simp)⟩
    · rw [hagree.compile_exitCode false (by simp)]
      decide
    · obtain ⟨log', hrun⟩ := run_compile_text hcatalogs file
      rw [hrun]
      exact endLines_ne_empty (Keyboard.summaryLines_ne_nil _ _)
  | true =>
    rcases hgrid : (keyboard files config file tables).grid.toJson with cause | grid
    · obtain ⟨log', hrun⟩ := run_compile_unwritable hcatalogs file hgrid
      rw [hrun]
      exact ⟨iff_of_true rfl (by simp), iff_of_true rfl (by simp)⟩
    · obtain ⟨log', hrun⟩ := run_compile_written hcatalogs file hgrid
      rw [hrun]
      have hexit : (0 : Nat) ≠ 2 := by decide
      exact ⟨iff_of_false hexit (by simp), iff_of_false (printed_ne_empty _) (by simp)⟩

end

/-- **The commands `compile` and `validate` agree.**  `validate` fails with exit code 2 and prints
nothing exactly when the configured catalogs cannot be loaded.  So does `compile`, but for one case:
as JSON it also fails when the keyboard leads to a path that is no text, which does not happen if
the file and the directory of keyboards have paths that are texts.  Otherwise `compile` succeeds,
and `validate` tells by its exit code, in any format, whether the keyboard has a failure or,
strictly, an issue; what they print about the failure and about the issues is the same.  A file
without a name is refused on the command line of both. -/
theorem compile_agrees_with_validate (files : FileTree) (config : Config) (file : Option FilePath) :
    (∀ json strict,
      ((run files config (.validate file json strict)).exitCode = 2 ↔ NoCatalogs files config) ∧
      ((run files config (.validate file json strict)).output = "" ↔ NoCatalogs files config)) ∧
    (∀ json,
      ((run files config (.compile file json)).exitCode = 2 ↔
        NoCatalogs files config ∨ json = true ∧ Unwritable files config file) ∧
      ((run files config (.compile file json)).output = "" ↔
        NoCatalogs files config ∨ json = true ∧ Unwritable files config file)) ∧
    ((∀ directory ∈ config.keyboardsDir, directory.IsText) → (∀ path ∈ file, path.IsText) →
      ¬Unwritable files config file) ∧
    (∀ tables log, config.catalogs files = .ok (tables, log) →
      Agreement files config file (keyboard files config file tables)) ∧
    ∀ home, ∀ name ∈ ["compile", "validate"],
      answerArguments files home [name, ""] = ⟨2, "", none, some (.usage .emptyFile), []⟩ := by
  refine ⟨fun _ _ => validate_fails_iff, fun _ => compile_fails_iff, fun hdirectory hfile => ?_,
    fun _ _ h => agreement h file, fun home name hname => ?_⟩
  · rintro ⟨tables, log, -, target, htarget, htext⟩
    have hpath : (file.getD "").IsText := by
      cases file with
      | none => exact RawText.isText_ofString ""
      | some path => exact hfile path rfl
    exact htext (load_files_isText (resolve_isText hdirectory hpath) target htarget)
  · have hrefused : ∀ name ∈ ["compile", "validate"],
        Invocation.ofArguments [name, ""] = .error .emptyFile := by decide +kernel
    rw [answerArguments, hrefused name hname]

/-- A key with an unknown symbol is a warning, with which `validate` fails if it is strict. -/
theorem compile_agrees_with_validate_unknown_symbol :
    let text := "\x7b\"Grid\":\x7b\"rows\":1,\"cols\":1\x7d,\"Keys\":\x7b\"TextKeys\":" ++
      "[\x7b\"text\":\"a\",\"symbol\":\"Star\"\x7d]\x7d\x7d"
    let files : FileTree := ⟨["home"], [(["home", "a.json"], .file 0)], [(0, text)], none⟩
    let path : FilePath := "a.json"
    let k := keyboard files .initial (some path) .builtin
    Config.initial.catalogs files = .ok (.builtin, []) ∧ k.failure = none ∧
      k.issues = [.unknownSymbol "Star" ⟨0, 0⟩] ∧
      (run files .initial (.compile (some path) true)).exitCode = 0 ∧
      (run files .initial (.validate (some path) true false)).exitCode = 0 ∧
      (run files .initial (.validate (some path) true true)).exitCode = 1 := by
  intro text files path k
  have hcatalogs : Config.initial.catalogs files = .ok (.builtin, []) := rfl
  obtain ⟨-, -, hwritable, hagree, -⟩ :=
    compile_agrees_with_validate files .initial (some path)
  have h : Agreement files .initial (some path) k := hagree .builtin [] hcatalogs
  obtain ⟨hfailure, hissues⟩ : k.failure = none ∧ k.issues = [.unknownSymbol "Star" ⟨0, 0⟩] := by
    decide +kernel
  have hsome : k.issues ≠ [] := hissues ▸ List.cons_ne_nil _ _
  have hwritable := hwritable nofun (by rintro _ ⟨⟩; exact RawText.isText_ofString _)
  have hgrid : ∃ grid, k.grid.toJson = .ok grid := by
    refine KeyGrid.exists_toJson_iff.mpr fun target htarget => ?_
    by_contra htext
    exact hwritable ⟨.builtin, [], hcatalogs, target, htarget, htext⟩
  exact ⟨hcatalogs, hfailure, hissues, h.compile_exitCode true fun _ => hgrid,
    h.exitCode_of_failure_eq_none true hfailure, h.exitCode_strict true hsome⟩

/-- From a directory with a name that is no text, a key leads to a file: `validate` finds nothing
wrong with it, and `compile` prints it as text, but as JSON it fails and prints nothing.  With an
empty name for the file, `compile` fails as well. -/
theorem compile_breaks :
    let text := "\x7b\"Grid\":\x7b\"rows\":1,\"cols\":1\x7d,\"Keys\":\x7b\"ChangeKeyboardKeys\":" ++
      "[\x7b\"destinationKeyboard\":\"x.json\"\x7d]\x7d\x7d"
    let directory : RawText := ⟨[0x64, 0xFF]⟩
    let files : FileTree := ⟨["home"], [(["home", directory], .directory),
      (["home", directory, "k.json"], .file 0)], [(0, text)], none⟩
    let path : FilePath := FilePath.join directory "k.json"
    Config.initial.catalogs files = .ok (.builtin, []) ∧
      (run files .initial (.validate (some path) true true)).exitCode = 0 ∧
      (run files .initial (.compile (some path) false)).exitCode = 0 ∧
      (run files .initial (.compile (some path) true)).exitCode = 2 ∧
      (run files .initial (.compile (some path) true)).output = "" ∧
      (answerArguments files "home" ["compile", ""]).exitCode = 2 ∧
      (answerArguments files "home" ["compile", ""]).output = "" := by
  intro text directory files path
  refine ⟨rfl, ?_⟩
  decide +kernel

end Command

end KeyLayout
