/-
The issues of a keyboard account for what its keys have lost.

The issues and the keys come out of one run over the definition, but they can be checked
against each other: `Keyboard.losses` looks up where a key was placed and compares it with
its definition, and the issues are the losses of all keys in their order.  Since no two keys
have one anchor, an issue at an anchor is about the key that stands there.

* `mem_issues_iff`: to which key an issue belongs;
* `warnings_eq`: the warnings in the log are the issues;
* `build_accounts`: the account for a valid definition.
-/
import KeyLayout.Proofs.Key.Losses
import KeyLayout.Proofs.Keyboard.Build

namespace KeyLayout

namespace Keyboard

/-- What a key has lost on its way to its place on the keyboard. -/
def losses (k : Keyboard) (spec : KeySpec) : List KeyIssue :=
  match k.grid.at? spec.anchor with
  | some p => spec.losses p.key
  | none => []

section

variable {d : Definition} {dimensions : Dimensions} (h : d.validate = .ok dimensions)
  (path : FilePath) (catalog : Catalog)
include h

/-- Where a key of a valid definition is found. -/
theorem build_at? {spec : KeySpec} (hspec : spec ∈ d.specs) :
    (build d path catalog).1.grid.at? spec.anchor =
      some (placement (.forFile catalog.symbol? path d.flags.symbolMargin) spec) := by
  obtain ⟨-, -, -, -, hnodup⟩ := Definition.validate_eq_ok_iff.mp h
  rw [build_grid h]
  exact at?_after _ _ _ hnodup hspec

theorem build_issues :
    (build d path catalog).1.issues = d.specs.flatMap fun spec =>
      (spec.finish (.forFile catalog.symbol? path d.flags.symbolMargin)).issues := by
  rw [← after_issues _ dimensions d.flags, build, h]
  rfl

/-- The issues are the losses of the keys, key by key. -/
theorem issues_eq_losses :
    (build d path catalog).1.issues = d.specs.flatMap (build d path catalog).1.losses := by
  rw [build_issues h]
  refine List.flatMap_congr fun spec hspec => ?_
  rw [losses, build_at? h path catalog hspec, KeySpec.finish_issues]
  rfl

/-- What the log of a valid definition consists of. -/
theorem build_log : ∃ summary, (build d path catalog).2 =
    (KeyGrid.forDefinition dimensions d.flags).2 ++
      (build d path catalog).1.issues.map warning ++ [⟨.debug, summary⟩] := by
  obtain ⟨-, -, -, -, hnodup⟩ := Definition.validate_eq_ok_iff.mp h
  rw [build, h]
  refine ⟨_, congrArg (· ++ [_]) (after_log _ dimensions d.flags hnodup)⟩

/-- A key does nothing on the keyboard exactly when its definition lacks a part. -/
theorem empty_iff {spec : KeySpec} (hspec : spec ∈ d.specs) {p : Placement}
    (hp : (build d path catalog).1.grid.at? spec.anchor = some p) :
    p.key.value = .empty ↔ spec.missing? ≠ none := by
  rw [build_at? h path catalog hspec, Option.some_inj] at hp
  rw [← hp]
  exact KeySpec.finish_value_eq_empty_iff

theorem warnings_eq :
    (build d path catalog).2.filter (·.level = .warn) =
      (build d path catalog).1.issues.map fun issue => ⟨.warn, issue.text⟩ := by
  obtain ⟨summary, hlog⟩ := build_log h path catalog
  have hborder : (KeyGrid.forDefinition dimensions d.flags).2.filter (·.level = .warn) = [] := by
    rw [List.filter_eq_nil_iff]
    intro e he
    simp [level_of_mem_forDefinition he]
  have hissues : ((build d path catalog).1.issues.map warning).filter (·.level = .warn) =
      (build d path catalog).1.issues.map warning := by
    rw [List.filter_eq_self]
    intro e he
    obtain ⟨issue, -, rfl⟩ := List.mem_map.mp he
    rfl
  rw [hlog, List.filter_append, List.filter_append, hborder, hissues]
  simp [warning]

/-- An issue at the anchor of a key is a loss of that key. -/
theorem mem_issues_iff {spec : KeySpec} (hspec : spec ∈ d.specs) {p : Placement}
    (hp : (build d path catalog).1.grid.at? spec.anchor = some p) {issue : KeyIssue}
    (hissue : issue.anchor = spec.anchor) :
    issue ∈ (build d path catalog).1.issues ↔ issue ∈ spec.losses p.key := by
  obtain ⟨-, -, -, -, hnodup⟩ := Definition.validate_eq_ok_iff.mp h
  have hlosses : (build d path catalog).1.losses spec = spec.losses p.key := by
    rw [losses, hp]
  rw [issues_eq_losses h, List.mem_flatMap, ← hlosses]
  constructor
  · rintro ⟨other, hother, hmem⟩
    -- the other key has the same anchor, so it is this key
    have hanchor : other.anchor = spec.anchor := by
      rw [losses, build_at? h path catalog hother] at hmem
      rw [← hissue, KeySpec.anchor_of_mem_losses hmem]
    rwa [List.inj_on_of_nodup_map hnodup hother hspec hanchor] at hmem
  · exact fun hmem => ⟨spec, hspec, hmem⟩

end

/-- How the issues and the log account for the keys of a definition. -/
structure Accounts (d : Definition) (k : Keyboard) (log : Log) : Prop where
  /-- The issues are those of the keys in their order; each key has at most one about its symbol,
  and then at most one about its value. -/
  issues : k.issues = d.specs.flatMap fun spec =>
    match k.grid.at? spec.anchor with
    | some p => (spec.lostSymbol? p.key).toList ++ (spec.lostValue? p.key).toList
    | none => []
  placed : ∀ spec ∈ d.specs, (k.grid.at? spec.anchor).isSome
  unknownSymbol : ∀ spec ∈ d.specs, ∀ p, k.grid.at? spec.anchor = some p → ∀ name,
    .unknownSymbol name spec.anchor ∈ k.issues ↔
      spec.frame.symbol = some name ∧ p.key.symbol = none
  incomplete : ∀ spec ∈ d.specs, ∀ p, k.grid.at? spec.anchor = some p → ∀ category identifier,
    (∃ part, .incomplete category identifier spec.anchor part ∈ k.issues) ↔
      category = spec.category ∧ identifier = (spec.frame.label <|> spec.frame.symbol) ∧
        p.key.value = .empty
  /-- The keys that do nothing are those whose definition lacks a part. -/
  empty : ∀ spec ∈ d.specs, ∀ p, k.grid.at? spec.anchor = some p →
    (p.key.value = .empty ↔ spec.missing? ≠ none)
  warnings : log.filter (·.level = .warn) = k.issues.map fun issue => ⟨.warn, issue.text⟩

/-- **The issues of a keyboard account for what its keys have lost**: every symbol and every value
that a key of a valid definition names or should have, and does not have on the grid, is an issue
of that key, there are no other issues, and the warnings in the log are the issues. -/
theorem build_accounts {d : Definition} {dimensions : Dimensions} (h : d.validate = .ok dimensions)
    (path : FilePath) (catalog : Catalog) :
    Accounts d (build d path catalog).1 (build d path catalog).2 where
  issues := issues_eq_losses h path catalog
  placed spec hspec := by
    rw [build_at? h path catalog hspec]
    rfl
  unknownSymbol spec hspec p hp name := by
    rw [mem_issues_iff h path catalog hspec hp rfl, KeySpec.unknownSymbol_mem_losses,
      and_iff_right rfl]
  incomplete spec hspec p hp category identifier := by
    have hempty := empty_iff h path catalog hspec hp
    have hmem : ∀ part, .incomplete category identifier spec.anchor part ∈
        (build d path catalog).1.issues ↔ category = spec.category ∧
          identifier = (spec.frame.label <|> spec.frame.symbol) ∧ spec.missing? = some part ∧
          p.key.value = .empty := by
      intro part
      rw [mem_issues_iff h path catalog hspec hp rfl, KeySpec.incomplete_mem_losses,
        and_iff_right rfl]
    simp only [hmem]
    constructor
    · rintro ⟨part, hcategory, hidentifier, -, hvalue⟩
      exact ⟨hcategory, hidentifier, hvalue⟩
    · rintro ⟨hcategory, hidentifier, hvalue⟩
      obtain ⟨part, hpart⟩ := Option.ne_none_iff_exists'.mp (hempty.mp hvalue)
      exact ⟨part, hcategory, hidentifier, hpart, hvalue⟩
  empty spec hspec p hp := empty_iff h path catalog hspec hp
  warnings := warnings_eq h path catalog

/-- A key whose symbol is unknown and whose destination is missing, behind one that is whole. -/
theorem build_accounts_link_without_destination :
    let whole : ActionKey := ⟨{ KeyFrame.blank with col := 1 }, some .escape⟩
    let bare : LinkKey := ⟨{ KeyFrame.blank with row := -3, symbol := some "Star" }, none, false⟩
    let d : Definition := ⟨some ⟨1, 2⟩, ⟨false, false, none, none⟩, some ⟨[whole], [], [bare], []⟩⟩
    let k := (build d "home.json" CatalogTables.builtin.catalog).1
    d.validate = .ok ⟨1, 2⟩ ∧
      k.issues = [.unknownSymbol "Star" ⟨-3, 0⟩,
        .incomplete "ChangeKeyboardKeys" (some "Star") ⟨-3, 0⟩ .destination] := by
  intro whole bare d k
  have hvalid : d.validate = .ok ⟨1, 2⟩ := by decide
  have h := build_accounts hvalid "home.json" CatalogTables.builtin.catalog
  exact ⟨hvalid, h.issues.trans (by decide +kernel)⟩

end Keyboard

end KeyLayout
