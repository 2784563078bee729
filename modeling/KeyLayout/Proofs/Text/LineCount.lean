/-
How many lines there are, and how wide they are.

A word belongs on the line with the index `⌊count / width⌋`, where the width is the length of the
whole line divided by 3½ (`lineIndex_eq_floor`).  The count grows from word to word, so there are
at most as many lines as there are indexes from the first word's to the last word's
(`Laid.length_le`), and as many as that if no word is wider than a line (`Laid.le_length`).  Words
on the same line have counts that differ by less than the width (`count_sub_lt`), and that bounds
the line.

The main statement is `wrap_line_count`.
-/
import Mathlib.Algebra.Order.Floor.Semifield
import Mathlib.Data.List.TakeWhile
import Mathlib.Data.Rat.Floor
import Mathlib.Tactic.Linarith
import KeyLayout.Proofs.Text.Wrap

namespace KeyLayout.Text

variable {length count : ℕ} {words : List (List Char)} {lines : List WrappedLine}

/-! ### The index of a line -/

/-- The width that is meant for lines. -/
def targetWidth (length : ℕ) : ℚ := length / (7 / 2)

theorem targetWidth_pos (h : 0 < length) : 0 < targetWidth length := by
  have hlength : (0 : ℚ) < length := by exact_mod_cast h
  exact div_pos hlength (by norm_num)

theorem lineIndex_eq_floor (length count : ℕ) :
    lineIndex length count = ⌊(count : ℚ) / targetWidth length⌋₊ := by
  have hquotient : (count : ℚ) / targetWidth length =
      ((7 * count : ℕ) : ℚ) / ((2 * length : ℕ) : ℚ) := by
    rw [targetWidth]
    push_cast
    ring
  rw [hquotient, Nat.floor_div_eq_div, lineIndex]

theorem lineIndex_mono (length : ℕ) : Monotone (lineIndex length) :=
  fun _ _ h => Nat.div_le_div_right (Nat.mul_le_mul_left 7 h)

/-- Counts on the same line are closer to each other than the line is wide. -/
theorem count_sub_lt {count' : ℕ} (hlength : 0 < length)
    (h : lineIndex length count = lineIndex length count') :
    (count' : ℚ) - count < targetWidth length := by
  have hpos := targetWidth_pos hlength
  rw [lineIndex_eq_floor, lineIndex_eq_floor] at h
  have hlow := Nat.floor_le (div_nonneg (Nat.cast_nonneg count) hpos.le)
  have hhigh := Nat.lt_floor_add_one ((count' : ℚ) / targetWidth length)
  rw [← h] at hhigh
  rw [← div_lt_one hpos, sub_div]
  linarith

/-- A word that fits leads to the same line or to the next one. -/
theorem lineIndex_add_le {width : ℕ} (hlength : 0 < length)
    (h : (width : ℚ) ≤ targetWidth length) :
    lineIndex length (count + width) ≤ lineIndex length count + 1 := by
  have hpos := targetWidth_pos hlength
  have hquotient : ((count + width : ℕ) : ℚ) / targetWidth length ≤
      (count : ℚ) / targetWidth length + 1 := by
    rw [Nat.cast_add, add_div]
    gcongr
    exact (div_le_one hpos).mpr h
  rw [lineIndex_eq_floor, lineIndex_eq_floor,
    ← Nat.floor_add_one (div_nonneg (Nat.cast_nonneg count) hpos.le)]
  exact Nat.floor_mono hquotient

/-! ### Counting lines -/

/-- The words of a line have one space more than the line. -/
theorem charCount_eq (h : words ≠ []) : charCount words = (joinWith [' '] words).length + 1 := by
  induction words with
  | nil => exact absurd rfl h
  | cons word words ih =>
    cases words with
    | nil => rfl
    | cons next words =>
      rw [charCount_cons, ih (List.cons_ne_nil _ _), joinWith_cons_cons, List.length_append,
        List.length_cons]
      omega

theorem charCount_append (words more : List (List Char)) :
    charCount (words ++ more) = charCount words + charCount more := by
  induction words with
  | nil => simp
  | cons word words ih => simp only [List.cons_append, charCount_cons, ih, Nat.add_assoc]

/-- The words of lines. -/
def allWords (lines : List WrappedLine) : List (List Char) := (lines.map (·.words)).flatten

/-- Words that fit on a line with the space behind them. -/
def Fit (length : ℕ) (words : List (List Char)) : Prop :=
  ∀ word ∈ words, (word.length + 1 : ℚ) ≤ targetWidth length

/-- The next line has a higher index. -/
theorem Laid.index_lt {next : WrappedLine} (h : Laid length count (next :: lines))
    (hne : next.index ≠ lineIndex length count) : lineIndex length count < next.index := by
  cases h with
  | line hfirst =>
    rw [← hfirst] at hne ⊢
    exact lt_of_le_of_ne (lineIndex_mono length (Nat.le_add_right _ _)) (Ne.symm hne)

theorem Laid.le_index {first : WrappedLine} (h : Laid length 0 (first :: lines)) :
    lineIndex length 1 ≤ first.index := by
  cases h with
  | line hfirst =>
    rw [← hfirst]
    exact lineIndex_mono length (by omega)

/-- The next line has the next index if its first word fits. -/
theorem Laid.index_le {next : WrappedLine} (h : Laid length count (next :: lines))
    (hlength : 0 < length) (hfit : Fit length (allWords (next :: lines))) :
    next.index ≤ lineIndex length count + 1 := by
  cases h with
  | line hfirst =>
    have hword := hfit _ List.mem_cons_self
    rw [← hfirst]
    exact lineIndex_add_le hlength (by exact_mod_cast hword)

/-- There are at most as many lines as indexes. -/
theorem Laid.length_le {line : WrappedLine} (h : Laid length count (line :: lines)) :
    lines.length + line.index ≤
      lineIndex length (count + charCount (allWords (line :: lines))) := by
  induction lines generalizing count line with
  | nil =>
    cases h with
    | line _ hlast =>
      rw [← hlast]
      simp [allWords]
  | cons next lines ih =>
    cases h with
    | @line _ index _ _ _ _ hlast hnext hrest =>
      have hlt := hrest.index_lt (hlast ▸ hnext next rfl)
      have hmore := ih hrest
      rw [hlast] at hlt
      rw [Nat.add_assoc, ← charCount_append] at hmore
      calc (next :: lines).length + index ≤ lines.length + next.index := by
            rw [List.length_cons]
            omega
        _ ≤ _ := hmore

/-- There are as many lines as indexes if all words fit. -/
theorem Laid.le_length {line : WrappedLine} (h : Laid length count (line :: lines))
    (hlength : 0 < length) (hfit : Fit length (allWords (line :: lines))) :
    lineIndex length (count + charCount (allWords (line :: lines))) ≤
      lines.length + line.index := by
  induction lines generalizing count line with
  | nil =>
    cases h with
    | line _ hlast =>
      rw [← hlast]
      simp [allWords]
  | cons next lines ih =>
    cases h with
    | @line _ index _ _ _ _ hlast hnext hrest =>
      have hfit' : Fit length (allWords (next :: lines)) :=
        fun word hword => hfit word (List.mem_append_right _ hword)
      have hle := hrest.index_le hlength hfit'
      have hmore := ih hrest hfit'
      rw [hlast] at hle
      rw [Nat.add_assoc, ← charCount_append] at hmore
      calc _ ≤ lines.length + next.index := hmore
        _ ≤ (next :: lines).length + index := by
            rw [List.length_cons]
            omega

/-! ### The width of lines -/

theorem takeWhile_joinWith {word : List Char} (h : ' ' ∉ word) (words : List (List Char)) :
    (joinWith [' '] (word :: words)).takeWhile (· ≠ ' ') = word := by
  have hword : ∀ c ∈ word, decide (c ≠ ' ') = true :=
    fun c hc => decide_eq_true (ne_of_mem_of_not_mem hc h)
  cases words with
  | nil => exact List.takeWhile_eq_self_iff.mpr hword
  | cons next words =>
    rw [joinWith_cons_cons, List.takeWhile_append_of_pos hword,
      List.takeWhile_cons_of_neg (by simp), List.append_nil]

/-- Behind its first word a line is shorter than the width. -/
theorem Laid.length_lt (h : Laid length count lines) (hlength : 0 < length) {line : WrappedLine}
    (hline : line ∈ lines) : ∃ word words, line.words = word :: words ∧
      ((joinWith [' '] line.words).length : ℚ) < targetWidth length + word.length := by
  induction h with
  | nil => cases hline
  | @line count index word words lines hfirst hlast _ _ ih =>
    rcases List.mem_cons.mp hline with rfl | hline
    · have hclose := count_sub_lt hlength (hfirst.trans hlast.symm)
      rw [charCount_eq (List.cons_ne_nil _ _)] at hclose
      push_cast at hclose
      exact ⟨word, words, rfl, by linarith⟩
    · exact ih hline

/-! ### The lines that are shown -/

/-- The whole line, with a space behind it, ends four indexes behind its first character. -/
theorem lineIndex_last_le (hlength : 0 < length) :
    lineIndex length (length + 1) ≤ lineIndex length 1 + 4 := by
  have hpos : 0 < 2 * length := by omega
  -- four indexes more take `8 * length` more, and there is only `7 * length` more
  rw [lineIndex, lineIndex, ← Nat.add_mul_div_right _ _ hpos]
  exact Nat.div_le_div_right (by omega)

/-- The whole line, with a space behind it, ends on the fourth line if it is not too short. -/
theorem lineIndex_last (h : 8 ≤ length) : lineIndex length (length + 1) = 3 := by
  rw [lineIndex, Nat.div_eq_iff (by omega)]
  omega

/-- The index of the first line tells the number of lines. -/
theorem exists_first_index {line : List Char} (hlength : 0 < line.length) :
    ∃ index, lineIndex line.length 1 ≤ index ∧
      (wrapped line).length + index ≤ lineIndex line.length (line.length + 1) + 1 ∧
      (Fit line.length (pieces ' ' line) → index ≤ 1 ∧
        lineIndex line.length (line.length + 1) + 1 ≤ (wrapped line).length + index) := by
  have hlaid := groupWords_laid line.length 0 (pieces ' ' line)
  have hwords : allWords (groupWords line.length 0 (pieces ' ' line)) = pieces ' ' line :=
    flatten_wordLines line
  have hcount : charCount (pieces ' ' line) = line.length + 1 := by
    rw [charCount_eq (pieces_ne_nil ' ' line), joinWith_pieces]
  have hwrapped : (wrapped line).length = (groupWords line.length 0 (pieces ' ' line)).length := by
    rw [wrapped, wordLines, List.length_map, List.length_map]
  cases hgroups : groupWords line.length 0 (pieces ' ' line) with
  | nil =>
    rw [hgroups] at hwords
    exact absurd hwords.symm (pieces_ne_nil ' ' line)
  | cons first rest =>
    rw [hgroups] at hlaid hwords hwrapped
    have hle := hlaid.length_le
    rw [hwords, hcount, Nat.zero_add] at hle
    rw [hwrapped, List.length_cons]
    refine ⟨first.index, hlaid.le_index, by omega, fun hfit => ?_⟩
    rw [← hwords] at hfit
    have hge := hlaid.le_length hlength hfit
    rw [hwords, hcount, Nat.zero_add] at hge
    -- nothing stands before the first line, so its index is at most one
    have hfirst : first.index ≤ 0 + 1 := by
      have hzero : lineIndex line.length 0 = 0 := Nat.zero_div _
      exact hzero ▸ hlaid.index_le hlength hfit
    exact ⟨hfirst, by omega⟩

/-- A line that is shown is wider than meant by less than its first word. -/
theorem length_wrapped_lt {line shown : List Char} (hlength : 0 < line.length)
    (hshown : shown ∈ wrapped line) : (shown.length : ℚ) <
      targetWidth line.length + (shown.takeWhile (· ≠ ' ')).length := by
  rw [wrapped, wordLines, List.map_map] at hshown
  obtain ⟨wrappedLine, hmem, rfl⟩ := List.mem_map.mp hshown
  obtain ⟨word, words, hwords, hlt⟩ := (groupWords_laid _ _ _).length_lt hlength hmem
  have hword : word ∈ pieces ' ' line := by
    rw [← flatten_wordLines line]
    exact List.mem_flatten.mpr
      ⟨_, List.mem_map_of_mem hmem, hwords ▸ List.mem_cons_self⟩
  change ((joinWith [' '] wrappedLine.words).length : ℚ) <
    _ + (((joinWith [' '] wrappedLine.words).takeWhile (· ≠ ' ')).length : ℚ)
  rw [hwords, takeWhile_joinWith (not_mem_of_mem_pieces hword)]
  rwa [hwords] at hlt

/-- **Wrapping gives three or four lines of about the same width.**  There are never more than
five lines, and more than four only for a line of less than eight characters; there are three
or four if no word is wider than a line is meant to be.  A line is wider than that by less than
its first word. -/
theorem wrap_line_count {line text : List Char} (h : FirstLine line text) (hne : line ≠ []) :
    let lines := pieces '\n' (wrap text)
    lines.length ≤ 5 ∧ (8 ≤ line.length → lines.length ≤ 4) ∧
      (8 ≤ line.length →
        (∀ word ∈ pieces ' ' line, (word.length + 1 : ℚ) ≤ targetWidth line.length) →
        lines.length = 3 ∨ lines.length = 4) ∧
      ∀ shown ∈ lines, (shown.length : ℚ) <
        targetWidth line.length + (shown.takeWhile (· ≠ ' ')).length := by
  intro lines
  have hlength : 0 < line.length := List.length_pos_iff.mpr hne
  have hlines : lines = wrapped line := by
    rw [← h.eq]
    exact pieces_wrap text
  obtain ⟨index, hfirst, hle, hfits⟩ := exists_first_index hlength
  rw [hlines]
  refine ⟨?_, fun hlong => ?_, fun hlong hfit => ?_, fun shown => length_wrapped_lt hlength⟩
  · have hlast := lineIndex_last_le hlength
    omega
  · have hlast := lineIndex_last hlong
    omega
  · have hlast := lineIndex_last hlong
    obtain ⟨hindex, hge⟩ := hfits hfit
    omega

/-- A line of six words that fit, with another line behind it. -/
theorem wrap_line_count_six_words :
    let line := "abcd abcd abcd abcd abcd abcd".toList
    let text := "abcd abcd abcd abcd abcd abcd\r\nabcd".toList
    FirstLine line text ∧ line ≠ [] ∧ 8 ≤ line.length ∧
      (∀ word ∈ pieces ' ' line, (word.length + 1 : ℚ) ≤ targetWidth line.length) ∧
      ((pieces '\n' (wrap text)).length = 3 ∨ (pieces '\n' (wrap text)).length = 4) := by
  intro line text
  have hline : FirstLine line text := firstLine_eq_iff.mp (by decide)
  have hne : line ≠ [] := by decide
  have hlong : 8 ≤ line.length := by decide
  have hfit : ∀ word ∈ pieces ' ' line, (word.length + 1 : ℚ) ≤ targetWidth line.length := by
    decide +kernel
  exact ⟨hline, hne, hlong, hfit, (wrap_line_count hline hne).2.2.1 hlong hfit⟩

/-- Seven spaces are too short a line for three or four lines. -/
example : (pieces '\n' (wrap (List.replicate 7 ' '))).length = 5 := by decide

end KeyLayout.Text
