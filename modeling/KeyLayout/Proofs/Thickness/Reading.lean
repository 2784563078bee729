/-
Which texts are thicknesses.

A text is cut at its commas.  Its parts are the edges if they are numbers and there are one, two or
four of them (`ofText_eq_ok_iff`); otherwise the first part that is no number is refused, and only a
text whose parts are all numbers is refused for how many they are (`ofText_eq_error_iff`).  A
thickness is read as it was written (`ofText_text`).
-/
import KeyLayout.Thickness
import KeyLayout.Proofs.Decimal.Plain
import KeyLayout.Proofs.Decimal.RoundTrip
import KeyLayout.Proofs.Text.Pieces
import KeyLayout.Proofs.Text.Trim

namespace KeyLayout.Thickness

open Decimal Text

/-! ### Components -/

/-- A part that is a number between white space. -/
def Component (part : List Char) (x : Float) : Prop :=
  ∃ core, Trimmed part core ∧ readNumeral core = .ok x

def IsNumber (part : List Char) : Prop := ∃ x, Component part x

/-- The first part that is no number, and why it is none. -/
inductive FirstRefused : List (List Char) → Error → Prop
  | here {part core cause} (parts : List (List Char)) (trimmed : Trimmed part core)
    (refused : readNumeral core = .error cause) :
    FirstRefused (part :: parts) (.component (String.ofList core) cause)
  | there {part parts e} (number : IsNumber part) (behind : FirstRefused parts e) :
    FirstRefused (part :: parts) e

variable {part : List Char} {parts : List (List Char)} {x : Float} {xs : List Float} {e : Error}

theorem readComponent_eq_ok_iff : readComponent part = .ok x ↔ Component part x := by
  constructor
  · intro h
    rw [readComponent] at h
    split at h
    · cases h
      exact ⟨_, trimmed_trim part, ‹_›⟩
    · cases h
  · rintro ⟨core, htrimmed, hread⟩
    rw [readComponent, htrimmed.trim_eq, hread]

theorem readComponent_eq_error_iff : readComponent part = .error e ↔
    ∃ core cause, Trimmed part core ∧ readNumeral core = .error cause ∧
      e = .component (String.ofList core) cause := by
  constructor
  · intro h
    rw [readComponent] at h
    split at h
    · cases h
    · cases h
      exact ⟨_, _, trimmed_trim part, ‹_›, rfl⟩
  · rintro ⟨core, cause, htrimmed, hread, rfl⟩
    rw [readComponent, htrimmed.trim_eq, hread]

/-- Components are read if each of them is a number. -/
theorem readComponents_eq_ok_iff :
    readComponents parts = .ok xs ↔ List.Forall₂ Component parts xs := by
  induction parts generalizing xs with
  | nil => rw [readComponents, List.forall₂_nil_left_iff, Except.ok.injEq, eq_comm]
  | cons part parts ih =>
    rw [readComponents, List.forall₂_cons_left_iff]
    simp only [← ih, ← readComponent_eq_ok_iff]
    cases readComponent part with
    | error e => simp
    | ok x => cases readComponents parts <;> simp [Except.map, eq_comm]

/-- Reading stops at the first component that is no number. -/
theorem readComponents_eq_error_iff :
    readComponents parts = .error e ↔ FirstRefused parts e := by
  induction parts with
  | nil => exact ⟨nofun, nofun⟩
  | cons part parts ih =>
    rw [readComponents]
    cases hpart : readComponent part with
    | error e' =>
      constructor
      · rintro ⟨⟩
        obtain ⟨core, cause, htrimmed, hread, rfl⟩ := readComponent_eq_error_iff.mp hpart
        exact .here parts htrimmed hread
      · rintro (⟨_, htrimmed, hread⟩ | ⟨⟨x, hx⟩, -⟩)
        · rw [readComponent_eq_error_iff.mpr ⟨_, _, htrimmed, hread, rfl⟩] at hpart
          cases hpart
          rfl
        · rw [readComponent_eq_ok_iff.mpr hx] at hpart
          cases hpart
    | ok x =>
      have hnumber : IsNumber part := ⟨x, readComponent_eq_ok_iff.mp hpart⟩
      have hrest : (readComponents parts).map (x :: ·) = .error e ↔
          readComponents parts = .error e := by
        cases readComponents parts <;> simp [Except.map]
      rw [hrest, ih]
      constructor
      · exact .there hnumber
      · rintro (⟨_, htrimmed, hread⟩ | ⟨-, hbehind⟩)
        · rw [readComponent_eq_error_iff.mpr ⟨_, _, htrimmed, hread, rfl⟩] at hpart
          cases hpart
        · exact hbehind

theorem exists_components_iff :
    (∃ xs, List.Forall₂ Component parts xs) ↔ ∀ part ∈ parts, IsNumber part := by
  induction parts with
  | nil => simp
  | cons part parts ih =>
    rw [List.forall_mem_cons, ← ih]
    constructor
    · rintro ⟨_, hx | ⟨hx, hxs⟩⟩
      exact ⟨⟨_, hx⟩, _, hxs⟩
    · rintro ⟨⟨x, hx⟩, xs, hxs⟩
      exact ⟨x :: xs, .cons hx hxs⟩

/-! ### Edges -/

/-- The edges that are given by one, two or four numbers. -/
inductive Edges : List Float → Thickness → Prop
  | all (x : Float) : Edges [x] ⟨x, x, x, x⟩
  | pairs (horizontal vertical : Float) :
    Edges [horizontal, vertical] ⟨horizontal, vertical, horizontal, vertical⟩
  | each (left top right bottom : Float) :
    Edges [left, top, right, bottom] ⟨left, top, right, bottom⟩

theorem exists_edges_iff : (∃ t, Edges xs t) ↔ xs.length ∈ [1, 2, 4] := by
  constructor
  · rintro ⟨t, hedges⟩
    cases hedges <;> simp
  · intro h
    rcases xs with _ | ⟨a, _ | ⟨b, _ | ⟨c, _ | ⟨d, _ | ⟨_, _⟩⟩⟩⟩⟩
    · simp at h
    · exact ⟨_, .all a⟩
    · exact ⟨_, .pairs a b⟩
    · simp at h
    · exact ⟨_, .each a b c d⟩
    · simp at h

/-- Why a text with these parts is no thickness. -/
inductive Refused (text : String) (parts : List (List Char)) : Error → Prop
  | component {e : Error} (first : FirstRefused parts e) : Refused text parts e
  | count (numbers : ∀ part ∈ parts, IsNumber part) (length : parts.length ∉ [1, 2, 4]) :
    Refused text parts (.count text)

section text

variable {text : String} (hcut : Cut ',' text.toList parts)
include hcut

theorem ofText_eq_ok_iff {t : Thickness} :
    ofText text = .ok t ↔ ∃ xs, List.Forall₂ Component parts xs ∧ Edges xs t := by
  constructor
  · intro h
    rw [ofText, pieces_eq_iff.mpr hcut] at h
    split at h
    · cases h
    · cases h
      exact ⟨_, readComponents_eq_ok_iff.mp ‹_›, .all _⟩
    · cases h
      exact ⟨_, readComponents_eq_ok_iff.mp ‹_›, .pairs _ _⟩
    · cases h
      exact ⟨_, readComponents_eq_ok_iff.mp ‹_›, .each _ _ _ _⟩
    · cases h
  · rintro ⟨xs, hxs, hedges⟩
    rw [ofText, pieces_eq_iff.mpr hcut, readComponents_eq_ok_iff.mpr hxs]
    cases hedges <;> rfl

theorem exists_ofText_iff : (∃ t, ofText text = .ok t) ↔
    parts.length ∈ [1, 2, 4] ∧ ∀ part ∈ parts, IsNumber part := by
  simp only [ofText_eq_ok_iff hcut]
  constructor
  · rintro ⟨t, xs, hxs, hedges⟩
    exact ⟨hxs.length_eq ▸ exists_edges_iff.mp ⟨t, hedges⟩, exists_components_iff.mp ⟨xs, hxs⟩⟩
  · rintro ⟨hlength, hnumbers⟩
    obtain ⟨xs, hxs⟩ := exists_components_iff.mpr hnumbers
    obtain ⟨t, hedges⟩ := exists_edges_iff.mpr (hxs.length_eq ▸ hlength)
    exact ⟨t, xs, hxs, hedges⟩

theorem ofText_eq_error_iff {e : Error} : ofText text = .error e ↔ Refused text parts e := by
  constructor
  · intro h
    rw [ofText, pieces_eq_iff.mpr hcut] at h
    split at h
    · cases h
      exact .component (readComponents_eq_error_iff.mp ‹_›)
    · cases h
    · cases h
    · cases h
    · -- there are numbers, but no edges are made of them
      rename_i xs hall hpairs heach hread
      have hxs := readComponents_eq_ok_iff.mp hread
      cases h
      refine .count (exists_components_iff.mp ⟨xs, hxs⟩) fun hlength => ?_
      obtain ⟨t, hedges⟩ := exists_edges_iff.mpr (hxs.length_eq ▸ hlength)
      cases hedges with
      | all => exact hall _ rfl
      | pairs => exact hpairs _ _ rfl
      | each => exact heach _ _ _ _ rfl
  · rintro (hfirst | ⟨hnumbers, hlength⟩)
    · rw [ofText, pieces_eq_iff.mpr hcut, readComponents_eq_error_iff.mpr hfirst]
    · obtain ⟨xs, hxs⟩ := exists_components_iff.mpr hnumbers
      rw [hxs.length_eq] at hlength
      rw [ofText, pieces_eq_iff.mpr hcut, readComponents_eq_ok_iff.mpr hxs]
      split <;> simp_all

end text

/-! ### Reading what was written -/

theorem isBlank_of_isPlain {c : Char} (h : IsPlain c) : isBlank c = false := by
  rcases h with hdigit | hother
  · have hrange := isDigit_iff.mp hdigit
    simp only [isBlank]
    grind
  · simp only [List.mem_cons, List.not_mem_nil, or_false] at hother
    rcases hother with rfl | rfl | rfl | rfl | rfl | rfl | rfl <;> decide

theorem comma_not_mem_plain (x : Float) : ',' ∉ (plain x).toList :=
  fun hc => absurd (mem_plain hc) (by unfold IsPlain; decide)

theorem component_plain (h : x.isNaN = false) : Component (plain x).toList x :=
  ⟨_, trimmed_self fun _ hc => isBlank_of_isPlain (mem_plain hc), readNumeral_plain h⟩

theorem cut_text (t : Thickness) : Cut ',' t.text.toList
    [(plain t.left).toList, (plain t.top).toList, (plain t.right).toList,
      (plain t.bottom).toList] where
  nonempty := List.cons_ne_nil _ _
  no_sep := by
    simp only [List.forall_mem_cons]
    exact ⟨comma_not_mem_plain _, comma_not_mem_plain _, comma_not_mem_plain _,
      comma_not_mem_plain _, nofun⟩
  joined := by
    simp only [Thickness.text, joinWith, String.toList_append, List.append_assoc]
    rfl

theorem ofText_text {t : Thickness}
    (h : ∀ x ∈ [t.left, t.top, t.right, t.bottom], x.isNaN = false) : ofText t.text = .ok t := by
  simp only [List.forall_mem_cons] at h
  obtain ⟨hleft, htop, hright, hbottom, -⟩ := h
  exact (ofText_eq_ok_iff (cut_text t)).mpr ⟨[t.left, t.top, t.right, t.bottom],
    .cons (component_plain hleft) (.cons (component_plain htop) (.cons (component_plain hright)
      (.cons (component_plain hbottom) .nil))), .each _ _ _ _⟩

/-- **A text is a thickness exactly if it has one, two or four parts and all of them are numbers.**
Otherwise the first part that is no number is named, and the whole text only if there is none.  A
thickness is read as it was written. -/
theorem ofText_characterized :
    (∀ text : String, ∃ parts, Cut ',' text.toList parts ∧
      ((∃ t, ofText text = .ok t) ↔ parts.length ∈ [1, 2, 4] ∧ ∀ part ∈ parts, IsNumber part) ∧
      (∀ t, ofText text = .ok t ↔ ∃ xs, List.Forall₂ Component parts xs ∧ Edges xs t) ∧
      ∀ e, ofText text = .error e ↔ Refused text parts e) ∧
    ∀ t : Thickness, (∀ x ∈ [t.left, t.top, t.right, t.bottom], x.isNaN = false) →
      ofText t.text = .ok t := by
  refine ⟨fun text => ?_, fun t => ofText_text⟩
  have hcut : Cut ',' text.toList (pieces ',' text.toList) := pieces_eq_iff.mp rfl
  exact ⟨_, hcut, exists_ofText_iff hcut, fun t => ofText_eq_ok_iff hcut,
    fun e => ofText_eq_error_iff hcut⟩

theorem ofText_characterized_negative_zero :
    text ⟨-0.0, 0.1, 1e21, 1.0 / 0.0⟩ = "-0,0.1,1000000000000000000000,inf" ∧
      (∀ x ∈ [(-0.0 : Float), 0.1, 1e21, 1.0 / 0.0], x.isNaN = false) ∧
      ofText (text ⟨-0.0, 0.1, 1e21, 1.0 / 0.0⟩) = .ok ⟨-0.0, 0.1, 1e21, 1.0 / 0.0⟩ :=
  ⟨by decide +kernel, by decide +kernel, ofText_characterized.2 _ (by decide +kernel)⟩

end KeyLayout.Thickness
