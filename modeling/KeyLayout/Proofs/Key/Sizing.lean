/-
Sizing classes and what keys show.

A table tells which class goes with a symbol and with text (`SizingClass.Tabled`).  A finished key
shows the symbol that was found and the text that was chosen among its labels, but its class is
taken from the labels that it was given.  The two are the same except for one way to label a key:
with one of the two shift labels and no other (`KeyFrame.LoneShift`).  Such a key shows no text,
and has the class of a key with a single letter (`sizingClass_of_loneShift`).  All other keys have
the class that the table gives to what they show (`finish_sizing`).
-/
import KeyLayout.Proofs.Key.Losses

namespace KeyLayout

/-- The texts that are shown on a key. -/
def KeyText.shown : KeyText → List String
  | blank => []
  | plain text => [text]
  | shifted up down => [up, down]

theorem KeyText.isSingleLetter_iff (text : KeyText) :
    text.isSingleLetter = true ↔ ∀ s ∈ text.shown, s.length ≤ 1 := by
  cases text <;> simp [isSingleLetter, short, shown, String.length_toList]

/-- The table of sizing classes: a row for a symbol with and without text, two for text alone,
which may be longer than one character, and one for neither. -/
inductive SizingClass.Tabled (hasSymbol hasText : Prop) (texts : List String) : SizingClass → Prop
  | symbolAndText (symbol : hasSymbol) (text : hasText) :
      Tabled hasSymbol hasText texts .symbolAndText
  | symbol (symbol : hasSymbol) (text : ¬hasText) : Tabled hasSymbol hasText texts .symbol
  | singleLetter (symbol : ¬hasSymbol) (text : hasText) (short : ∀ s ∈ texts, s.length ≤ 1) :
      Tabled hasSymbol hasText texts .singleLetter
  | text (symbol : ¬hasSymbol) (text : hasText) (long : ∃ s ∈ texts, 1 < s.length) :
      Tabled hasSymbol hasText texts .text
  | none (symbol : ¬hasSymbol) (text : ¬hasText) : Tabled hasSymbol hasText texts .none

namespace SizingClass

variable {hasSymbol hasText : Prop} {texts : List String} {c c' : SizingClass}

/-- The table has one row for each key. -/
theorem Tabled.unique (h : Tabled hasSymbol hasText texts c)
    (h' : Tabled hasSymbol hasText texts c') : c = c' := by
  cases h with
  | symbolAndText hs ht => cases h' <;> first | rfl | contradiction
  | symbol hs ht => cases h' <;> first | rfl | contradiction
  | none hs ht => cases h' <;> first | rfl | contradiction
  | singleLetter hs ht hshort =>
    cases h' with
    | singleLetter => rfl
    | text _ _ hlong =>
      obtain ⟨s, hs, hlong⟩ := hlong
      exact absurd (hshort s hs) (Nat.not_le.mpr hlong)
    | _ => contradiction
  | text hs ht hlong =>
    cases h' with
    | text => rfl
    | singleLetter _ _ hshort =>
      obtain ⟨s, hs, hlong⟩ := hlong
      exact absurd (hshort s hs) (Nat.not_le.mpr hlong)
    | _ => contradiction

/-- The rows for keys without text. -/
theorem Tabled.symbol_or_none (h : Tabled hasSymbol hasText texts c) (ht : ¬hasText) :
    c = .symbol ∨ c = .none := by
  cases h with
  | symbol => exact .inl rfl
  | none => exact .inr rfl
  | _ => contradiction

/-- Classes are chosen by the table. -/
theorem classify_tabled (symbol text : Bool) (shown : KeyText) :
    Tabled (symbol = true) (text = true) shown.shown
      (classify symbol text shown.isSingleLetter) := by
  have hshort := shown.isSingleLetter_iff
  cases symbol <;> cases text
  · exact .none Bool.false_ne_true Bool.false_ne_true
  · cases hsingle : shown.isSingleLetter with
    | true => exact .singleLetter Bool.false_ne_true rfl (hshort.mp hsingle)
    | false =>
      refine .text Bool.false_ne_true rfl (Classical.byContradiction fun hnone => ?_)
      refine Bool.false_ne_true (hsingle.symm.trans (hshort.mpr fun s hs => ?_))
      exact Nat.not_lt.mp fun hlong => hnone ⟨s, hs, hlong⟩
  · exact .symbol rfl Bool.false_ne_true
  · exact .symbolAndText rfl rfl

theorem classify_eq_iff {symbol text : Bool} {shown : KeyText} :
    classify symbol text shown.isSingleLetter = c ↔
      Tabled (symbol = true) (text = true) shown.shown c := by
  refine ⟨fun h => h ▸ classify_tabled symbol text shown, fun h => ?_⟩
  exact (classify_tabled symbol text shown).unique h

/-- Text always makes a difference to the class. -/
theorem classify_text_inj {symbol text text' single : Bool} :
    classify symbol text single = classify symbol text' single ↔ text = text' := by
  revert symbol text text' single
  decide

end SizingClass

/-- A key has the class that the table gives to what it shows. -/
def Key.WellSized (key : Key) : Prop :=
  SizingClass.Tabled (key.symbol ≠ none) (key.text ≠ .blank) key.text.shown key.sizingClass

theorem Key.wellSized_iff (key : Key) :
    key.WellSized ↔
      .classify key.symbol.isSome (decide (key.text ≠ .blank)) key.text.isSingleLetter =
        key.sizingClass := by
  rw [SizingClass.classify_eq_iff, Key.WellSized, Option.isSome_iff_ne_none, decide_eq_true_iff]

namespace KeyFrame

/-- One of the two shift labels is given, and no other label. -/
def LoneShift (f : KeyFrame) : Prop :=
  f.label = none ∧ f.shiftUpLabel.isSome ≠ f.shiftDownLabel.isSome

instance (f : KeyFrame) : Decidable f.LoneShift :=
  inferInstanceAs (Decidable (f.label = none ∧ f.shiftUpLabel.isSome ≠ f.shiftDownLabel.isSome))

/-- The labels that are shown: both shift labels if they are given, or else the plain label. -/
def shownLabels (f : KeyFrame) : List String :=
  match f.shiftUpLabel, f.shiftDownLabel with
  | some up, some down => [up, down]
  | _, _ => f.label.toList

theorem keyText_shown (f : KeyFrame) : f.keyText.shown = f.shownLabels.map Label.normalize := by
  obtain ⟨_, _, _, _, label, up, down, _⟩ := f
  cases up <;> cases down <;> cases label <;> rfl

/-- A key shows text exactly if it has labels, unless that is a lone shift label. -/
theorem hasLabel_eq_iff (f : KeyFrame) :
    decide (f.keyText ≠ .blank) = f.hasLabel ↔ ¬f.LoneShift := by
  obtain ⟨_, _, _, _, label, up, down, _⟩ := f
  cases up <;> cases down <;> cases label <;> simp [keyText, hasLabel, LoneShift]

variable {f : KeyFrame}

theorem LoneShift.hasLabel (h : f.LoneShift) : f.hasLabel = true := by
  obtain ⟨hlabel, hshift⟩ := h
  rw [KeyFrame.hasLabel, hlabel]
  cases hup : f.shiftUpLabel <;> cases hdown : f.shiftDownLabel <;> simp_all

theorem LoneShift.keyText (h : f.LoneShift) : f.keyText = .blank := by
  have hshown := mt f.hasLabel_eq_iff.mp (not_not_intro h)
  rw [h.hasLabel, decide_eq_true_iff] at hshown
  exact Classical.not_not.mp hshown

end KeyFrame

namespace KeySpec

variable (setting : KeySetting) (spec : KeySpec)

theorem finish_text : (spec.finish setting).key.text = spec.frame.keyText := by
  rw [finish_key]
  rfl

/-- The class is taken from the symbol that was found and from the labels that were given. -/
theorem finish_sizingClass : (spec.finish setting).key.sizingClass =
    .classify (spec.finish setting).key.symbol.isSome spec.frame.hasLabel
      spec.frame.keyText.isSingleLetter := by
  rw [finish_key]
  rfl

theorem finish_wellSized_iff :
    (spec.finish setting).key.WellSized ↔ ¬spec.frame.LoneShift := by
  -- the class of the key and the class in the table differ at most in whether there is text
  rw [Key.wellSized_iff, finish_sizingClass, finish_text, SizingClass.classify_text_inj]
  exact spec.frame.hasLabel_eq_iff

variable {spec}

/-- A lone shift label counts as text though it is not shown. -/
theorem sizingClass_of_loneShift (h : spec.frame.LoneShift) :
    (spec.finish setting).key.text = .blank ∧
      (spec.finish setting).key.sizingClass =
        if (spec.finish setting).key.symbol = none then .singleLetter else .symbolAndText := by
  refine ⟨(finish_text setting spec).trans h.keyText, ?_⟩
  rw [finish_sizingClass, h.hasLabel, h.keyText]
  cases (spec.finish setting).key.symbol <;> rfl

/-- **A key has the size of what it shows, unless it has a lone shift label.**  What it shows is
the symbol that is found for its name, and its two shift labels or else its plain label, with line
ends for their escapes.  So a key that shows no text has a class for keys without text.  But a key
with a lone shift label, which shows no text either, is sized as if it showed a single letter. -/
theorem finish_sizing (setting : KeySetting) (spec : KeySpec) :
    let key := (spec.finish setting).key
    key.symbol = spec.frame.symbol.bind setting.symbol? ∧
      key.text.shown = spec.frame.shownLabels.map Label.normalize ∧
      (key.WellSized ↔ ¬spec.frame.LoneShift) ∧
      (key.text = .blank → ¬spec.frame.LoneShift →
        key.sizingClass = .symbol ∨ key.sizingClass = .none) ∧
      (spec.frame.LoneShift → key.text = .blank ∧
        key.sizingClass = if key.symbol = none then .singleLetter else .symbolAndText) := by
  intro key
  have hsized : key.WellSized ↔ ¬spec.frame.LoneShift := finish_wellSized_iff setting spec
  refine ⟨finish_symbol, ?_, hsized, fun hblank hlone => ?_, sizingClass_of_loneShift setting⟩
  · rw [finish_text, KeyFrame.keyText_shown]
  · exact (hsized.mpr hlone).symbol_or_none (not_not_intro hblank)

/-- A key with an unknown symbol and the label `q` for shift being released, and one that has
`Q` for shift being held as well. -/
theorem finish_sizing_shift_labels :
    let lone : KeyFrame := { KeyFrame.blank with shiftUpLabel := some "q", symbol := some "Q" }
    let both : KeyFrame := { lone with shiftDownLabel := some "Q" }
    let setting : KeySetting := ⟨fun _ => none, "", none⟩
    lone.LoneShift ∧ ((text ⟨lone, none⟩).finish setting).key.sizingClass = .singleLetter ∧
      ¬both.LoneShift ∧ ((text ⟨both, none⟩).finish setting).key.WellSized := by
  intro lone both setting
  have hlone : lone.LoneShift := by decide
  have hboth : ¬both.LoneShift := by decide
  obtain ⟨-, -, -, -, hclass⟩ := finish_sizing setting (text ⟨lone, none⟩)
  obtain ⟨-, -, hsized, -, -⟩ := finish_sizing setting (text ⟨both, none⟩)
  exact ⟨hlone, (hclass hlone).2, hboth, hsized.mpr hboth⟩

/-- A text key whose only label is for shift being released shows nothing, and still its class is
not the one of the table. -/
theorem finish_lone_shift_label :
    let frame : KeyFrame := { KeyFrame.blank with shiftUpLabel := some "q" }
    let key := ((text ⟨frame, some "q"⟩).finish ⟨fun _ => none, "", none⟩).key
    key.symbol = none ∧ key.text = .blank ∧ key.sizingClass = .singleLetter ∧ ¬key.WellSized := by
  intro frame key
  refine ⟨rfl, rfl, rfl, fun hsized => ?_⟩
  cases hsized with
  | singleLetter _ hshown => exact hshown rfl

end KeySpec

end KeyLayout
