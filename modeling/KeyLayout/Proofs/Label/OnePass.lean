/-
Escapes of line ends in one pass.

A label is made of escapes and of other characters, and one pass from left to right finds out
which (`Part.scan`).  Replacing first the long escapes and then the short ones writes a line end
for every escape of that pass, and leaves the other characters as they are (`breakLines_scan`).
For no long escape begins inside a short one, and the line ends that are written for the long
escapes stand between the characters on both sides of them.

No short escape is left (`not_infix_breakLines`), so a label whose lines are broken has nothing
more to break.
-/
import KeyLayout.Label
import KeyLayout.Proofs.Text.Pieces

namespace KeyLayout.Label

open Text

/-- What a label is made of. -/
inductive Part
  | longBreak
  | shortBreak
  | other (c : Char)
deriving DecidableEq

namespace Part

/-- How a part is written in a definition. -/
def written : Part → List Char
  | longBreak => Label.longBreak
  | shortBreak => Label.shortBreak
  | other c => [c]

/-- How a part is shown on a key. -/
def shown : Part → List Char
  | longBreak => lineEnd
  | shortBreak => lineEnd
  | other c => [c]

/-- The parts of a label from left to right; where an escape begins, it is a part, and the long
escape goes first. -/
def scan : List Char → List Part
  | '\\' :: 'r' :: '\\' :: 'n' :: rest => longBreak :: scan rest
  | '\\' :: 'n' :: rest => shortBreak :: scan rest
  | c :: rest => other c :: scan rest
  | [] => []

end Part

variable {label rest : List Char} {c : Char}

theorem shortBreak_prefix_cons_iff :
    shortBreak <+: c :: rest ↔ c = '\\' ∧ rest.head? = some 'n' := by
  rw [shortBreak, List.cons_prefix_cons]
  cases rest with
  | nil => simp
  | cons next rest => simp [eq_comm]

theorem shortBreak_infix_of_longBreak (h : longBreak <+: label) : shortBreak <:+: label :=
  List.IsInfix.trans ⟨['\\', 'r'], [], rfl⟩ h.isInfix

/-- A label is empty, or it begins with one of the escapes or else with another character. -/
theorem escapes_induction {motive : List Char → Prop} (nil : motive [])
    (long : ∀ rest, motive rest → motive (longBreak ++ rest))
    (short : ∀ rest, motive rest → motive (shortBreak ++ rest))
    (other : ∀ c rest, ¬longBreak <+: c :: rest → ¬shortBreak <+: c :: rest →
      motive rest → motive (c :: rest)) (label : List Char) : motive label := by
  fun_induction Part.scan label with
  | case1 rest ih => exact long rest ih
  | case2 rest ih => exact short rest ih
  | case3 c rest hlong hshort ih =>
    refine other c rest ?_ ?_ ih
    · rintro ⟨behind, hbehind⟩
      cases hbehind
      exact hlong behind rfl rfl
    · rintro ⟨behind, hbehind⟩
      cases hbehind
      exact hshort behind rfl rfl
  | case4 => exact nil

theorem scan_cons (hlong : ¬longBreak <+: c :: rest) (hshort : ¬shortBreak <+: c :: rest) :
    Part.scan (c :: rest) = .other c :: Part.scan rest := by
  rw [Part.scan]
  · rintro behind rfl rfl
    exact hlong (List.prefix_append _ behind)
  · rintro behind rfl rfl
    exact hshort (List.prefix_append _ behind)

/-- Nothing is lost between the parts of a label. -/
theorem flatMap_written_scan (label : List Char) :
    (Part.scan label).flatMap Part.written = label := by
  induction label using escapes_induction with
  | nil => rfl
  | long rest ih => exact congrArg (longBreak ++ ·) ih
  | short rest ih => exact congrArg (shortBreak ++ ·) ih
  | other c rest hlong hshort ih =>
    rw [scan_cons hlong hshort, List.flatMap_cons, ih]
    rfl

/-! ### Both replacements -/

/-- No `n` comes to the front when long escapes are replaced. -/
theorem head?_replaceAll_longBreak
    (h : (replaceAll longBreak lineEnd label).head? = some 'n') : label.head? = some 'n' := by
  cases label with
  | nil => cases h
  | cons c rest =>
    by_cases hlong : longBreak <+: c :: rest
    · obtain ⟨behind, hbehind⟩ := hlong
      rw [← hbehind, replaceAll_append (by decide)] at h
      cases h
    · rwa [replaceAll_cons hlong] at h

theorem breakLines_longBreak (rest : List Char) :
    breakLines (longBreak ++ rest) = '\n' :: breakLines rest := by
  have hend : ¬shortBreak <+: '\n' :: replaceAll longBreak lineEnd rest := by
    simp [shortBreak_prefix_cons_iff]
  rw [breakLines, replaceAll_append (by decide)]
  exact replaceAll_cons hend lineEnd

theorem breakLines_shortBreak (rest : List Char) :
    breakLines (shortBreak ++ rest) = '\n' :: breakLines rest := by
  -- neither of the two letters begins a long escape
  have hback : ¬longBreak <+: '\\' :: 'n' :: rest := by simp [longBreak]
  have hletter : ¬longBreak <+: 'n' :: rest := by simp [longBreak]
  have hlong : replaceAll longBreak lineEnd (shortBreak ++ rest) =
      shortBreak ++ replaceAll longBreak lineEnd rest :=
    (replaceAll_cons hback lineEnd).trans (congrArg _ (replaceAll_cons hletter lineEnd))
  rw [breakLines, hlong, replaceAll_append (by decide)]
  rfl

theorem breakLines_cons (hlong : ¬longBreak <+: c :: rest) (hshort : ¬shortBreak <+: c :: rest) :
    breakLines (c :: rest) = c :: breakLines rest := by
  -- behind a backslash, an `n` would have to be there before the long escapes are replaced
  have hshort' : ¬shortBreak <+: c :: replaceAll longBreak lineEnd rest := by
    rw [shortBreak_prefix_cons_iff] at hshort ⊢
    exact fun h => hshort ⟨h.1, head?_replaceAll_longBreak h.2⟩
  rw [breakLines, replaceAll_cons hlong]
  exact replaceAll_cons hshort' lineEnd

/-- The two replacements give the parts that one pass finds, with line ends for the escapes. -/
theorem breakLines_scan (label : List Char) :
    breakLines label = (Part.scan label).flatMap Part.shown := by
  induction label using escapes_induction with
  | nil => rfl
  | long rest ih => exact (breakLines_longBreak rest).trans (congrArg (lineEnd ++ ·) ih)
  | short rest ih => exact (breakLines_shortBreak rest).trans (congrArg (lineEnd ++ ·) ih)
  | other c rest hlong hshort ih =>
    rw [breakLines_cons hlong hshort, scan_cons hlong hshort, ih]
    rfl

/-! ### What is left -/

/-- No `n` comes to the front when lines are broken. -/
theorem head?_breakLines (h : (breakLines label).head? = some 'n') : label.head? = some 'n' := by
  cases label using escapes_induction with
  | nil => cases h
  | long rest =>
    rw [breakLines_longBreak] at h
    cases h
  | short rest =>
    rw [breakLines_shortBreak] at h
    cases h
  | other c rest hlong hshort => rwa [breakLines_cons hlong hshort] at h

theorem not_infix_breakLines (label : List Char) : ¬shortBreak <:+: breakLines label := by
  have hend : ∀ shown, ¬shortBreak <:+: shown → ¬shortBreak <:+: '\n' :: shown := by
    intro shown hshown hinside
    rcases List.infix_cons_iff.mp hinside with h | h
    · exact absurd (shortBreak_prefix_cons_iff.mp h).1 (by decide)
    · exact hshown h
  induction label using escapes_induction with
  | nil => decide
  | long rest ih =>
    rw [breakLines_longBreak]
    exact hend _ ih
  | short rest ih =>
    rw [breakLines_shortBreak]
    exact hend _ ih
  | other c rest hlong hshort ih =>
    rw [breakLines_cons hlong hshort, List.infix_cons_iff]
    rintro (h | h)
    · rw [shortBreak_prefix_cons_iff] at h hshort
      exact hshort ⟨h.1, head?_breakLines h.2⟩
    · exact ih h

/-- Where there is no short escape, there is nothing to break. -/
theorem breakLines_of_not_infix (h : ¬shortBreak <:+: label) : breakLines label = label := by
  induction label with
  | nil => rfl
  | cons c rest ih =>
    have hshort : ¬shortBreak <+: c :: rest := fun hfront => h hfront.isInfix
    have hlong : ¬longBreak <+: c :: rest := fun hfront =>
      h (shortBreak_infix_of_longBreak hfront)
    have hrest : ¬shortBreak <:+: rest := fun hinside =>
      h (hinside.trans (List.suffix_cons c rest).isInfix)
    rw [breakLines_cons hlong hshort, ih hrest]

/-- **Breaking the lines of a label takes one pass.**  The label is made of escapes and of other
characters, as one pass from left to right finds them; what is shown has a line end for every
escape and all the other characters, in their order.  No backslash with an `n` behind it is left,
and so nothing changes when lines are broken once more. -/
theorem normalize_one_pass (label : String) :
    let parts := Part.scan label.toList
    parts.flatMap Part.written = label.toList ∧
      (normalize label).toList = parts.flatMap Part.shown ∧
      ¬shortBreak <:+: (normalize label).toList ∧
      normalize (normalize label) = normalize label := by
  intro parts
  have hshown : (normalize label).toList = breakLines label.toList := String.toList_ofList
  have hleft := not_infix_breakLines label.toList
  refine ⟨flatMap_written_scan _, ?_, ?_, ?_⟩
  · rw [hshown, breakLines_scan]
  · rwa [hshown]
  · rw [normalize, hshown, breakLines_of_not_infix hleft, normalize]

/-- Backslashes before an escape are shown, and so are the letters of an escape that breaks off. -/
example : normalize "\\\\r\\n\\\\n\\r\\" = "\\\n\\\n\\r\\" := by decide

end KeyLayout.Label
