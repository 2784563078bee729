/-
The lines of a summary.

A summary lists the keys under one heading and the issues under another.  It quotes labels and the
texts that keys type, and it prints some other texts as they are (`Keyboard.bareTexts`): names of
symbols, paths to other keyboards, and what a key is called in an issue.  A line of the summary has
a line end in it only if a bare text has one (`Placement.unbroken_summary`,
`KeyIssue.unbroken_text`).  So a reader who goes by lines finds one line for each key and each
issue exactly when no bare text has a line end (`Keyboard.listed_iff`).
-/
import KeyLayout.Proofs.Key.Link
import KeyLayout.Proofs.Keyboard.Issues
import KeyLayout.Proofs.Keyboard.Load
import KeyLayout.Proofs.Text.Unbroken

namespace KeyLayout

open Text

/-! ### What is printed as it is -/

/-- The texts in what a key does that a summary does not quote. -/
def KeyValue.bareTexts : KeyValue → List String
  | navigate (.file path) _ => [path.display]
  | _ => []

/-- The texts of a key that a summary does not quote. -/
def Key.bareTexts (key : Key) : List String :=
  (key.symbol.map Symbol.name).toList ++ key.value.bareTexts

/-- The texts in an issue that a summary does not quote. -/
def KeyIssue.bareTexts : KeyIssue → List String
  | unknownSymbol name _ => [name]
  | incomplete _ identifier _ _ => identifier.toList

/-- The texts of a keyboard that a summary does not quote. -/
def Keyboard.bareTexts (k : Keyboard) : List String :=
  k.grid.placements.flatMap (·.key.bareTexts) ++ k.issues.flatMap KeyIssue.bareTexts

@[simp] theorem Cell.unbroken_text (c : Cell) : Unbroken c.text := by
  unfold Cell.text
  simp +decide

@[simp] theorem SizingClass.unbroken_name (c : SizingClass) : Unbroken c.name := by
  cases c <;> decide +kernel

@[simp] theorem BuiltinKeyboard.unbroken_name (k : BuiltinKeyboard) : Unbroken k.name := by
  cases k <;> decide +kernel

@[simp] theorem KeyFunction.unbroken_name (f : KeyFunction) : Unbroken f.name := by
  cases f <;> decide +kernel

@[simp] theorem MissingPart.unbroken_reason (missing : MissingPart) : Unbroken missing.reason := by
  cases missing <;> decide +kernel

@[simp] theorem KeySpec.unbroken_category (spec : KeySpec) : Unbroken spec.category := by
  have h : ∀ word ∈ ["ActionKeys", "TextKeys", "ChangeKeyboardKeys", "PluginKeys"],
      Unbroken word := by decide +kernel
  cases spec <;> exact h _ (by simp [KeySpec.category])

@[simp] theorem Failure.unbroken_heading (f : Failure) : Unbroken f.heading := by
  have h : ∀ heading ∈ ["Error loading file", "Invalid keyboard file",
      "Incorrect grid definition", "Duplicate row/column values for keys"],
      Unbroken heading := by decide +kernel
  rcases f with e | d
  · exact h _ (by simp [heading])
  · cases d <;> exact h _ (by simp [heading, Defect.heading])

@[simp] theorem KeyText.unbroken_summary (text : KeyText) : Unbroken text.summary := by
  unfold KeyText.summary
  cases text <;> simp +decide

theorem KeyValue.unbroken_summary (value : KeyValue) :
    Unbroken value.summary ↔ ∀ text ∈ value.bareTexts, Unbroken text := by
  unfold KeyValue.summary
  cases value with
  | navigate target replace =>
    cases target <;> cases replace <;> simp +decide [bareTexts, Target.text]
  | function f => simp +decide [bareTexts]
  | text s => simp +decide [bareTexts]
  | plugin snippet => simp +decide [bareTexts]
  | back => simp +decide
  | empty => simp +decide

/-- A key is shown without a line end if there is none in its bare texts. -/
theorem Placement.unbroken_summary (p : Placement) :
    Unbroken p.summary ↔ ∀ text ∈ p.key.bareTexts, Unbroken text := by
  have hvalue := p.key.value.unbroken_summary
  unfold Placement.summary
  cases hsymbol : p.key.symbol <;> simp +decide [Key.bareTexts, hvalue, hsymbol]

/-- An issue about a key of a definition is told without a line end if there is none in its bare
texts. -/
theorem KeyIssue.unbroken_text {issue : KeyIssue} {spec : KeySpec} {key : Key}
    (h : issue ∈ spec.losses key) :
    Unbroken issue.text ↔ ∀ text ∈ issue.bareTexts, Unbroken text := by
  unfold KeyIssue.text
  cases issue with
  | unknownSymbol name anchor => simp +decide [bareTexts]
  | incomplete category identifier anchor missing =>
    obtain ⟨-, rfl, -⟩ := KeySpec.incomplete_mem_losses.mp h
    cases identifier <;> simp +decide [bareTexts]

/-! ### How the lines end -/

/-- A text whose end is not a part of a line end. -/
def Text.Ended (s : String) : Prop := s.toList ≠ [] ∧ s.toList.getLast? ≠ some '\r'

instance (s : String) : Decidable (Ended s) :=
  inferInstanceAs (Decidable (s.toList ≠ [] ∧ s.toList.getLast? ≠ some '\r'))

theorem Text.Ended.append {t : String} (h : Ended t) (s : String) : Ended (s ++ t) := by
  rw [Ended, String.toList_append, List.getLast?_append, List.getLast?_eq_some_getLast h.1,
    Option.some_or, ← List.getLast?_eq_some_getLast h.1]
  exact ⟨List.append_ne_nil_of_right_ne_nil _ h.1, h.2⟩

theorem Text.ended_quoted (s : String) : Ended (quoted s) := by
  rw [Ended, quoted, String.toList_ofList, ← List.cons_append, List.getLast?_concat]
  exact ⟨by simp, by decide⟩

theorem KeyValue.ended_summary (value : KeyValue) : Ended value.summary := by
  have hwords : ∀ word ∈ ["plugin", "back", "-"], Ended word := by decide
  unfold KeyValue.summary
  cases value with
  | function f =>
    refine Ended.append ?_ _
    cases f <;> decide +kernel
  | text s => exact (ended_quoted s).append _
  | navigate target replace => exact Ended.append (by decide) _
  | plugin snippet => exact hwords _ (by simp)
  | back => exact hwords _ (by simp)
  | empty => exact hwords _ (by simp)

theorem Placement.ended_summary (p : Placement) : Ended p.summary := by
  unfold Placement.summary
  exact (p.key.value.ended_summary.append _).append _

theorem KeyIssue.ended_text (issue : KeyIssue) : Ended issue.text := by
  unfold KeyIssue.text
  cases issue with
  | unknownSymbol name anchor =>
    refine Ended.append ?_ _
    unfold Cell.text
    exact Ended.append (by decide) _
  | incomplete category identifier anchor missing =>
    refine Ended.append ?_ _
    cases missing <;> decide +kernel

/-- A written line as it is read again. -/
def Text.shown (line : String) : String := String.ofList (dropReturn line.toList)

theorem Text.shown_of_ended {line : String} (h : Ended line) : shown line = line := by
  rw [shown, dropReturn]
  split
  · exact absurd ‹_› h.2
  · exact String.ofList_toList

/-- Lines without line ends are read again one by one. -/
theorem Text.lines_endLines {written : List String} (h : ∀ line ∈ written, Unbroken line) :
    (lines (endLines written).toList).map String.ofList = written.map shown := by
  rw [Command.toList_endLines, lines_flatMap, List.map_map, List.map_map]
  · rfl
  · rwa [List.forall_mem_map]

/-! ### The lines below a heading -/

/-- The lines below a heading, up to a blank line. -/
def linesBelow (heading : String) (lines : List String) : List String :=
  ((lines.dropWhile (· ≠ heading)).drop 1).takeWhile (· ≠ "")

section linesBelow

variable {heading : String} {lines : List String}

theorem linesBelow_subset : linesBelow heading lines ⊆ lines :=
  ((List.takeWhile_sublist _).trans ((List.drop_sublist _ _).trans
    (List.dropWhile_sublist _))).subset

theorem linesBelow_of_not_mem (h : heading ∉ lines) : linesBelow heading lines = [] := by
  have hdrop : lines.dropWhile (· ≠ heading) = [] := by
    rw [List.dropWhile_eq_nil_iff]
    exact fun line hline => decide_eq_true fun heq => h (heq ▸ hline)
  rw [linesBelow, hdrop]
  rfl

theorem linesBelow_append {front listed behind : List String} (hfront : heading ∉ front)
    (hlisted : "" ∉ listed) (hbehind : ∀ line ∈ behind.head?, line = "") :
    linesBelow heading (front ++ heading :: (listed ++ behind)) = listed := by
  have hdrop : (front ++ heading :: (listed ++ behind)).dropWhile (· ≠ heading) =
      heading :: (listed ++ behind) := by
    rw [List.dropWhile_append_of_pos, List.dropWhile_cons_of_neg (by simp)]
    exact fun line hline => decide_eq_true fun heq => hfront (heq ▸ hline)
  rw [linesBelow, hdrop, List.drop_one, List.tail_cons, List.takeWhile_append_of_pos]
  · cases behind with
    | nil => exact List.append_nil listed
    | cons line behind =>
      rw [hbehind line rfl, List.takeWhile_cons_of_neg (by simp), List.append_nil]
  · exact fun line hline => decide_eq_true fun heq => hlisted (heq ▸ hline)

end linesBelow

/-! ### The lines of a summary -/

namespace Keyboard

/-- How the lines begin that are neither blank nor a heading. -/
def openings : List String := ["Keyboard: ", "✗ ", "  ", "Grid: ", "Shift aware: ", "Border: "]

/-- A line that begins in one of these ways. -/
def Opened (line : String) : Prop := ∃ opening ∈ openings, opening.toList <+: line.toList

theorem opened {opening : String} (h : opening ∈ openings) (rest : String) :
    Opened (opening ++ rest) :=
  ⟨opening, h, by rw [String.toList_append]; exact List.prefix_append _ _⟩

theorem Opened.append {line : String} (h : Opened line) (rest : String) :
    Opened (line ++ rest) := by
  obtain ⟨opening, hmem, hprefix⟩ := h
  refine ⟨opening, hmem, ?_⟩
  rw [String.toList_append]
  exact hprefix.trans (List.prefix_append _ _)

theorem Opened.shown {line : String} (h : Opened line) : Opened (Text.shown line) := by
  obtain ⟨opening, hmem, rest, hrest⟩ := h
  have hreturn : ∀ opening ∈ openings, '\r' ∉ opening.toList := by decide
  refine ⟨opening, hmem, ?_⟩
  rw [Text.shown, String.toList_ofList, ← hrest, dropReturn_append (hreturn opening hmem)]
  exact List.prefix_append _ _

theorem Opened.ne {line : String} (h : Opened line) :
    line ≠ "" ∧ line ≠ "Keys:" ∧ line ≠ "Issues:" := by
  have hother : ∀ other ∈ ["", "Keys:", "Issues:"], ∀ opening ∈ openings,
      ¬opening.toList <+: other.toList := by decide
  obtain ⟨opening, hmem, hprefix⟩ := h
  refine ⟨?_, ?_, ?_⟩ <;> rintro rfl <;> exact hother _ (by simp) opening hmem hprefix

variable (k : Keyboard) {path : FilePath}

/-- The lines of a summary above the keys. -/
def frontLines (path : FilePath) : List String :=
  let shift := if k.shiftAware then "yes" else "no"
  [s!"Keyboard: {path}"] ++ failureLines k.failure ++
  [s!"Grid: {k.grid.rows} rows x {k.grid.cols} columns ({k.grid.panelSummary})",
    s!"Shift aware: {shift}"] ++
  borderLines k.grid.border

/-- The lines of a summary for the keys. -/
def keyLines : List String := k.grid.placements.map fun p => s!"  {p.summary}"

/-- The lines of a summary for the issues. -/
def listedIssues : List String := k.issues.map fun issue => s!"  ⚠ {issue.text}"

theorem summaryLines_eq (path : FilePath) :
    k.summaryLines path = k.frontLines path ++ "" :: "Keys:" :: (k.keyLines ++
      if k.issues = [] then [] else "" :: "Issues:" :: k.listedIssues) := by
  rw [summaryLines, frontLines, keyLines, listedIssues]
  cases k.issues <;> simp [issueLines]

theorem of_mem_frontLines (hpath : Unbroken path.display) {line : String} (h : line ∈ k.frontLines path) :
    Unbroken line ∧ Opened line := by
  have hopened : ∀ opening ∈ openings, ∀ rest, Opened (opening ++ rest) := fun _ => opened
  simp only [frontLines, List.mem_append, List.mem_cons, List.not_mem_nil, or_false] at h
  rcases h with ((rfl | hfailure) | rfl | rfl) | hborder
  · exact ⟨by simp +decide [hpath], hopened _ (by decide) _⟩
  · cases hf : k.failure with
    | none => simp [hf, failureLines] at hfailure
    | some f =>
      rw [hf, failureLines, List.mem_cons, List.mem_map] at hfailure
      rcases hfailure with rfl | ⟨line, hline, rfl⟩
      · exact ⟨by simp +decide, hopened _ (by decide) _⟩
      · have hend := no_end_of_mem_lines hline
        exact ⟨by simp +decide [hend], hopened _ (by decide) _⟩
  · refine ⟨?_, ?_⟩
    · unfold KeyGrid.panelSummary
      split
      · split <;> simp +decide
      · simp +decide
    · exact (((((hopened "Grid: " (by decide) _).append _).append _).append _).append _).append _
  · refine ⟨?_, hopened _ (by decide) _⟩
    cases k.shiftAware <;> simp +decide
  · cases hb : k.grid.border with
    | none => simp [hb, borderLines] at hborder
    | some t =>
      rw [hb, borderLines, List.mem_singleton] at hborder
      rw [hborder]
      unfold Thickness.text
      exact ⟨by simp +decide, hopened _ (by decide) _⟩

theorem opened_of_mem_keyLines {line : String} (h : line ∈ k.keyLines) : Opened line := by
  obtain ⟨p, -, rfl⟩ := List.mem_map.mp h
  exact opened (by decide) _

theorem opened_of_mem_listedIssues {line : String} (h : line ∈ k.listedIssues) : Opened line := by
  obtain ⟨issue, -, rfl⟩ := List.mem_map.mp h
  exact Opened.append ⟨"  ", by decide, by decide⟩ _

theorem map_shown_keyLines : k.keyLines.map shown = k.keyLines := by
  rw [keyLines, List.map_map]
  exact List.map_congr_left fun p _ => shown_of_ended (p.ended_summary.append _)

theorem map_shown_listedIssues : k.listedIssues.map shown = k.listedIssues := by
  rw [listedIssues, List.map_map]
  exact List.map_congr_left fun issue _ => shown_of_ended (issue.ended_text.append _)

/-- What a reader finds who goes by lines: below each heading there is a line for each entry. -/
structure Listed (lines : List String) : Prop where
  keys : linesBelow "Keys:" lines = k.grid.placements.map fun p => s!"  {p.summary}"
  issues : linesBelow "Issues:" lines = k.issues.map fun issue => s!"  ⚠ {issue.text}"

/-- The lines of a summary, as they are written, are a line for each entry. -/
theorem listed_summaryLines (hpath : Unbroken path.display) :
    k.Listed ((k.summaryLines path).map shown) := by
  have hlines : (k.summaryLines path).map shown =
      (k.frontLines path).map shown ++ "" :: "Keys:" :: (k.keyLines ++
        if k.issues = [] then [] else "" :: "Issues:" :: k.listedIssues) := by
    have hblank : shown "" = "" := by decide
    have hkeys : shown "Keys:" = "Keys:" := by decide
    have hissues : shown "Issues:" = "Issues:" := by decide
    rw [summaryLines_eq]
    split_ifs <;>
      simp [hblank, hkeys, hissues, map_shown_keyLines, map_shown_listedIssues]
  have hfront : ∀ line ∈ (k.frontLines path).map shown, Opened line := by
    rw [List.forall_mem_map]
    exact fun line hline => (k.of_mem_frontLines hpath hline).2.shown
  have hblank : "" ∉ k.keyLines := fun h => (k.opened_of_mem_keyLines h).ne.1 rfl
  rw [hlines]
  constructor
  · rw [List.append_cons]
    refine linesBelow_append ?_ hblank ?_
    · rw [List.mem_append, List.mem_singleton, not_or]
      exact ⟨fun h => (hfront _ h).ne.2.1 rfl, by decide⟩
    · split_ifs <;> simp
  · -- neither the lines above the keys nor those for the keys are the heading of the issues
    have hother : "Issues:" ∉ (k.frontLines path).map shown ++ "" :: "Keys:" :: k.keyLines := by
      simp only [List.mem_append, List.mem_cons, not_or]
      exact ⟨fun h => (hfront _ h).ne.2.2 rfl, by decide, by decide,
        fun h => (k.opened_of_mem_keyLines h).ne.2.2 rfl⟩
    by_cases hissues : k.issues = []
    · rw [if_pos hissues, List.append_nil, linesBelow_of_not_mem hother, hissues]
      rfl
    · have hlisted : "" ∉ k.listedIssues := fun h => (k.opened_of_mem_listedIssues h).ne.1 rfl
      have hsplit : (k.frontLines path).map shown ++ "" :: "Keys:" :: (k.keyLines ++
            "" :: "Issues:" :: k.listedIssues) =
          ((k.frontLines path).map shown ++ "" :: "Keys:" :: k.keyLines ++ [""]) ++
            "Issues:" :: (k.listedIssues ++ []) := by simp
      rw [if_neg hissues, hsplit]
      refine linesBelow_append ?_ hlisted (by simp)
      rw [List.mem_append, List.mem_singleton, not_or]
      exact ⟨hother, by decide⟩

/-- Every issue of a keyboard from a definition file is a loss of a key. -/
theorem exists_of_mem_load_issues {files : FileTree} {source : FilePath} {catalog : Catalog}
    {issue : KeyIssue} (h : issue ∈ (load files source catalog).1.issues) :
    ∃ (spec : KeySpec) (key : Key), issue ∈ spec.losses key := by
  rcases load_cases files source catalog with ⟨d, dimensions, -, hvalidate, hk⟩ |
      ⟨d, defect, -, -, hk⟩ | ⟨e, -, hk⟩
  · rw [hk, build_issues hvalidate, List.mem_flatMap] at h
    obtain ⟨spec, -, hissue⟩ := h
    rw [KeySpec.finish_issues] at hissue
    exact ⟨spec, _, hissue⟩
  · rw [hk] at h
    cases h
  · rw [hk] at h
    cases h

theorem load_ordered (files : FileTree) (source : FilePath) (catalog : Catalog) :
    KeyGrid.Ordered (load files source catalog).1.grid.placements := by
  rcases load_cases files source catalog with ⟨d, dimensions, -, hvalidate, hk⟩ |
      ⟨d, defect, -, -, hk⟩ | ⟨e, -, hk⟩
  · rw [hk]
    exact (build_valid hvalidate source catalog).ordered
  · rw [hk, ofFailure_grid]
    exact (KeyGrid.errorScreen_reflects _ _ _ _).ordered
  · rw [hk, ofFailure_grid]
    exact (KeyGrid.errorScreen_reflects _ _ _ _).ordered

/-- The lines of a summary have no line ends in them if keys and issues are told without. -/
theorem unbroken_of_mem_summaryLines (hpath : Unbroken path.display)
    (hkeys : ∀ p ∈ k.grid.placements, Unbroken p.summary)
    (hissues : ∀ issue ∈ k.issues, Unbroken issue.text) {line : String}
    (h : line ∈ k.summaryLines path) : Unbroken line := by
  have hkey : ∀ line ∈ k.keyLines, Unbroken line := by
    rw [keyLines, List.forall_mem_map]
    intro p hp
    simp +decide [hkeys p hp]
  have hissue : ∀ line ∈ k.listedIssues, Unbroken line := by
    rw [listedIssues, List.forall_mem_map]
    intro issue hmem
    simp +decide [hissues issue hmem]
  have hwords : Unbroken "" ∧ Unbroken "Keys:" ∧ Unbroken "Issues:" := by decide
  rw [summaryLines_eq] at h
  split_ifs at h <;> simp only [List.mem_append, List.mem_cons, List.not_mem_nil, or_false] at h
  · rcases h with hfront | rfl | rfl | h
    · exact (k.of_mem_frontLines hpath hfront).1
    · exact hwords.1
    · exact hwords.2.1
    · exact hkey line h
  · rcases h with hfront | rfl | rfl | h | rfl | rfl | h
    · exact (k.of_mem_frontLines hpath hfront).1
    · exact hwords.1
    · exact hwords.2.1
    · exact hkey line h
    · exact hwords.1
    · exact hwords.2.2
    · exact hissue line h

/-- Keys and issues have one line each exactly when they are told without line ends. -/
theorem listed_iff (hpath : Unbroken path.display) :
    k.Listed ((Text.lines (endLines (k.summaryLines path)).toList).map String.ofList) ↔
      (∀ p ∈ k.grid.placements, Unbroken p.summary) ∧
        ∀ issue ∈ k.issues, Unbroken issue.text := by
  constructor
  · intro hlisted
    -- whatever stands below a heading is a line of a text, so it has no line end
    have hline : ∀ heading, ∀ line ∈ linesBelow heading
        ((Text.lines (endLines (k.summaryLines path)).toList).map String.ofList),
        Unbroken line := by
      intro heading line hline
      obtain ⟨chars, hchars, rfl⟩ := List.mem_map.mp (linesBelow_subset hline)
      exact unbroken_ofList.mpr (no_end_of_mem_lines hchars)
    constructor
    · intro p hp
      have hp' := hline _ _ (hlisted.keys ▸ List.mem_map_of_mem hp)
      exact (unbroken_append.mp hp').2
    · intro issue hissue
      have hissue' := hline _ _ (hlisted.issues ▸ List.mem_map_of_mem hissue)
      exact (unbroken_append.mp hissue').2
  · rintro ⟨hkeys, hissues⟩
    rw [lines_endLines fun line => k.unbroken_of_mem_summaryLines hpath hkeys hissues]
    exact k.listed_summaryLines hpath

/-- **A summary has one line for each key and each issue exactly when no bare text has a line
end.**  The keys are listed in the order of their anchors and the issues in their own order. -/
theorem summary_listed (files : FileTree) (source : FilePath) (catalog : Catalog) {path : FilePath}
    (hpath : '\n' ∉ path.display.toList) :
    let k := (load files source catalog).1
    let lines := (Text.lines (endLines (k.summaryLines path)).toList).map String.ofList
    KeyGrid.Ordered k.grid.placements ∧
      (k.Listed lines ↔ ∀ text ∈ k.bareTexts, '\n' ∉ text.toList) := by
  intro k lines
  have hkeys : (∀ p ∈ k.grid.placements, Unbroken p.summary) ↔
      ∀ text ∈ k.grid.placements.flatMap (·.key.bareTexts), Unbroken text := by
    simp only [List.forall_mem_flatMap, Placement.unbroken_summary]
  have hissues : (∀ issue ∈ k.issues, Unbroken issue.text) ↔
      ∀ text ∈ k.issues.flatMap KeyIssue.bareTexts, Unbroken text := by
    rw [List.forall_mem_flatMap]
    refine forall₂_congr fun issue hissue => ?_
    obtain ⟨spec, key, hloss⟩ := exists_of_mem_load_issues hissue
    exact KeyIssue.unbroken_text hloss
  refine ⟨load_ordered files source catalog, ?_⟩
  rw [k.listed_iff hpath, hkeys, hissues, bareTexts, List.forall_mem_append]
  rfl

/-- Labels and texts with line ends take one line each. -/
theorem summary_listed_quoted :
    let text := "\x7b\"Grid\":\x7b\"rows\":1,\"cols\":2\x7d,\"Keys\":\x7b\"TextKeys\":[" ++
      "\x7b\"label\":\"a\\nb\",\"text\":\"c\\r\\n\\nd\"\x7d," ++
      "\x7b\"col\":1,\"symbol\":\"x\"\x7d]\x7d\x7d"
    let path : FilePath := "k.json"
    let files : FileTree := ⟨["home"], [(["home", path], .file 0)], [(0, text)], none⟩
    let k := (load files path CatalogTables.empty.catalog).1
    let lines := (Text.lines (endLines (k.summaryLines path)).toList).map String.ofList
    '\n' ∉ path.display.toList ∧ k.Listed lines ∧ linesBelow "Keys:" lines =
      ["  (0, 0) 1x1 Text \"a\\nb\" -> text \"c\\r\\n\\nd\"", "  (0, 1) 1x1 None  -> -"] := by
  intro text path files k lines
  have hpath : '\n' ∉ path.display.toList := by decide
  obtain ⟨-, hlisted⟩ := summary_listed files path CatalogTables.empty.catalog hpath
  have hbare : ∀ text ∈ k.bareTexts, '\n' ∉ text.toList := by decide +kernel
  have hlines := hlisted.mpr hbare
  exact ⟨hpath, hlines, hlines.keys.trans (by decide +kernel)⟩

/-- The name of a symbol and a path with a line end take two lines each. -/
theorem summary_broken :
    let text := "\x7b\"Grid\":\x7b\"rows\":1,\"cols\":1\x7d," ++
      "\"Keys\":\x7b\"ChangeKeyboardKeys\":[" ++
      "\x7b\"symbol\":\"a\\nb\",\"destinationKeyboard\":\"c\\nd\"\x7d]\x7d\x7d"
    let files : FileTree := ⟨["home"], [(["home", "k.json"], .file 0)], [(0, text)], none⟩
    let k := (load files "k.json" CatalogTables.builtin.catalog).1
    let lines := (Text.lines (endLines (k.summaryLines "k.json")).toList).map String.ofList
    k.grid.placements.length = 1 ∧
      linesBelow "Keys:" lines = ["  (0, 0) 1x1 None  -> navigate c", "d (replace)"] ∧
      k.issues.length = 1 ∧
      linesBelow "Issues:" lines = ["  ⚠ Could not resolve symbol 'a", "b' for key at (0, 0)"] ∧
      ¬k.Listed lines := by
  intro text files k lines
  have hkeys : linesBelow "Keys:" lines =
      ["  (0, 0) 1x1 None  -> navigate c", "d (replace)"] := by decide +kernel
  have hcount : k.grid.placements.length = 1 := by decide +kernel
  refine ⟨hcount, hkeys, by decide +kernel, by decide +kernel, fun hlisted => ?_⟩
  have hlength := congrArg List.length (hkeys.symm.trans hlisted.keys)
  rw [List.length_map, hcount] at hlength
  exact absurd hlength (by decide)

end Keyboard

end KeyLayout
