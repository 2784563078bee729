/-
What a key has lost, told from the key as it stands on the grid.

A key can lose its symbol, when no catalog knows it, and it can lose its value, when its
definition lacks the part that makes it act (`KeySpec.missing?`).  `KeySpec.losses` compares
the definition of a key with the finished key and lists what is gone; finishing a key reports
exactly that (`KeySpec.finish_issues`).
-/
import KeyLayout.Keyboard.Finding
import KeyLayout.Proofs.Key.Finish

namespace KeyLayout

namespace KeySpec

/-- The part that the definition of a key lacks. -/
def missing? : KeySpec → Option MissingPart
  | action key => if key.action = none then some .action else none
  | text key => if key.text = none then some .text else none
  | link key => if key.destination = none then some .destination else none
  | plugin key => if key.plugin = none ∨ key.method = none then some .pluginNames else none

/-- The issue of a key that names a symbol but has none. -/
def lostSymbol? (spec : KeySpec) (key : Key) : Option KeyIssue :=
  if key.symbol = none then spec.frame.symbol.map fun name => .unknownSymbol name spec.anchor
  else none

/-- The issue of a key that does nothing. -/
def lostValue? (spec : KeySpec) (key : Key) : Option KeyIssue :=
  if key.value = .empty then
    spec.missing?.map
      (.incomplete spec.category (spec.frame.label <|> spec.frame.symbol) spec.anchor)
  else none

/-- What a key has lost: first its symbol, then its value. -/
def losses (spec : KeySpec) (key : Key) : List KeyIssue :=
  (spec.lostSymbol? key).toList ++ (spec.lostValue? key).toList

variable {setting : KeySetting} {spec : KeySpec} {key : Key} {issue : KeyIssue}

theorem lostSymbol?_eq_some_iff :
    spec.lostSymbol? key = some issue ↔
      key.symbol = none ∧ ∃ name, spec.frame.symbol = some name ∧
        issue = .unknownSymbol name spec.anchor := by
  rw [lostSymbol?]
  by_cases h : key.symbol = none
  · rw [if_pos h, Option.map_eq_some_iff, and_iff_right h]
    simp only [eq_comm]
  · simp [h]

theorem lostValue?_eq_some_iff :
    spec.lostValue? key = some issue ↔
      key.value = .empty ∧ ∃ part, spec.missing? = some part ∧
        issue = .incomplete spec.category (spec.frame.label <|> spec.frame.symbol) spec.anchor
          part := by
  rw [lostValue?]
  by_cases h : key.value = .empty
  · rw [if_pos h, Option.map_eq_some_iff, and_iff_right h]
    simp only [eq_comm]
  · simp [h]

theorem mem_losses :
    issue ∈ spec.losses key ↔
      spec.lostSymbol? key = some issue ∨ spec.lostValue? key = some issue := by
  rw [losses, List.mem_append, Option.mem_toList, Option.mem_toList]

theorem unknownSymbol_mem_losses {name : String} {anchor : Cell} :
    .unknownSymbol name anchor ∈ spec.losses key ↔
      anchor = spec.anchor ∧ spec.frame.symbol = some name ∧ key.symbol = none := by
  rw [mem_losses, lostSymbol?_eq_some_iff, lostValue?_eq_some_iff]
  constructor
  · rintro (⟨hkey, name, hname, ⟨⟩⟩ | ⟨-, part, -, ⟨⟩⟩)
    exact ⟨rfl, hname, hkey⟩
  · rintro ⟨rfl, hname, hkey⟩
    exact .inl ⟨hkey, name, hname, rfl⟩

theorem incomplete_mem_losses {category : String} {identifier : Option String} {anchor : Cell}
    {part : MissingPart} :
    .incomplete category identifier anchor part ∈ spec.losses key ↔
      anchor = spec.anchor ∧ category = spec.category ∧
        identifier = (spec.frame.label <|> spec.frame.symbol) ∧ spec.missing? = some part ∧
        key.value = .empty := by
  rw [mem_losses, lostSymbol?_eq_some_iff, lostValue?_eq_some_iff]
  constructor
  · rintro (⟨-, name, -, ⟨⟩⟩ | ⟨hkey, part, hpart, ⟨⟩⟩)
    exact ⟨rfl, rfl, rfl, hpart, hkey⟩
  · rintro ⟨rfl, rfl, rfl, hpart, hkey⟩
    exact .inr ⟨hkey, part, hpart, rfl⟩

theorem anchor_of_mem_losses (h : issue ∈ spec.losses key) : issue.anchor = spec.anchor := by
  cases issue with
  | unknownSymbol name anchor => exact (unknownSymbol_mem_losses.mp h).1
  | incomplete category identifier anchor part => exact (incomplete_mem_losses.mp h).1

/-- A key acts unless its definition lacks a part. -/
theorem value_cases (setting : KeySetting) (spec : KeySpec) :
    (∃ value, spec.value setting = .ok value ∧ value ≠ .empty ∧ spec.missing? = none) ∨
    ∃ part, spec.value setting = .error part ∧ spec.missing? = some part := by
  cases spec with
  | action key => rcases h : key.action with _ | f <;> simp [value, missing?, h]
  | text key => rcases h : key.text with _ | s <;> simp [value, missing?, h]
  | link key => rcases h : key.destination with _ | s <;> simp [value, missing?, h]
  | plugin key =>
    rcases hp : key.plugin with _ | p <;> rcases hm : key.method with _ | m <;>
      simp [value, missing?, hp, hm]

/-- A finished key does nothing exactly when its definition lacks a part. -/
theorem finish_value_eq_empty_iff :
    (spec.finish setting).key.value = .empty ↔ spec.missing? ≠ none := by
  rw [finish_value, valueOrEmpty]
  rcases value_cases setting spec with ⟨value, hvalue, hne, hmissing⟩ | ⟨part, hvalue, hmissing⟩
  · simp [hvalue, hne, hmissing]
  · simp [hvalue, hmissing]

theorem finish_symbol :
    (spec.finish setting).key.symbol = spec.frame.symbol.bind setting.symbol? := by
  rw [finish_key, KeyFrame.finish, KeyFrame.findSymbol]
  rcases spec.frame.symbol with _ | name
  · rfl
  · rcases h : setting.symbol? name with _ | symbol <;> simp [h]

/-- Finishing a key reports what the finished key has lost. -/
theorem finish_issues : (spec.finish setting).issues = spec.losses (spec.finish setting).key := by
  have hsymbol : (spec.lostSymbol? (spec.finish setting).key).toList =
      (spec.frame.findSymbol setting).2 := by
    rw [lostSymbol?, finish_symbol, KeyFrame.findSymbol]
    rcases spec.frame.symbol with _ | name
    · rfl
    · rcases h : setting.symbol? name with _ | symbol <;> simp [h, KeySpec.anchor]
  rw [losses, hsymbol, lostValue?]
  rcases value_cases setting spec with ⟨value, hvalue, -, hmissing⟩ | ⟨part, hvalue, hmissing⟩
  · rw [if_neg (mt finish_value_eq_empty_iff.mp fun hne => hne hmissing), finish, hvalue]
    exact (List.append_nil _).symm
  · rw [if_pos (finish_value_eq_empty_iff.mpr (by simp [hmissing])), hmissing, finish, hvalue]
    rfl

end KeySpec

end KeyLayout
