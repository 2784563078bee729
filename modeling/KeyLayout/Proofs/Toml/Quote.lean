/-
Reading what was quoted.

Whatever form a text was written in, reading it gives the text and stops right behind it
(`readText?_quote`).

* On one line a reader takes the text character by character (`readLine_basicText`,
  `readLine_literal`).
* Between triple quotes it has to tell quotes of the text from those that close it.  What is
  written there is taken apart into characters, escapes and pairs of quotes at most (`Block`), so
  three quotes in a row stand at the end only (`Block.readLines`).
-/
import Mathlib.Data.List.TakeWhile
import Mathlib.Tactic.SplitIfs
import KeyLayout.Toml.Lexeme
import KeyLayout.Toml.Writer

namespace KeyLayout.Toml

open Document

/-- A character in front of a text that is read. -/
def pushChar (c : Char) (r : Except Break (List Char × List Char)) :
    Except Break (List Char × List Char) :=
  r.map fun (text, rest) => (c :: text, rest)

/-! ### Characters between quotation marks -/

/-- A character that may stand for itself on a line. -/
structure Plain (c : Char) : Prop where
  not_control : isControl c = false
  ne_backslash : c ≠ '\\'

/-- What stands behind a backslash for a character. -/
def Escapes (multiline : Bool) (c : Char) (behind : List Char) : Prop :=
  ∀ more, escape? multiline (behind ++ more) = some ⟨[c], behind.length⟩

/-- How a character is written between quotation marks. -/
inductive WrittenAs (multiline : Bool) (quotes : Nat) (c : Char) : List Char → Prop
  | plain (hc : Plain c) (hquote : c ≠ '"') : WrittenAs multiline quotes c [c]
  | quote (hc : c = '"') (hmultiline : multiline = true) (hquotes : quotes < 2) :
      WrittenAs multiline quotes c ['"']
  | newline (hc : c = '\n') (hmultiline : multiline = true) : WrittenAs multiline quotes c ['\n']
  | escape {behind : List Char} (h : Escapes multiline c behind) :
      WrittenAs multiline quotes c ('\\' :: behind)

theorem codeEscape?_digits {digits : List Char} {c : Char}
    (hnumber : Text.hexNumber? 0 digits = some c.toNat) (more : List Char) :
    codeEscape? digits.length (digits ++ more) = some ⟨[c], digits.length + 1⟩ := by
  have hvalid : c.toNat.isValidChar := c.valid
  rw [codeEscape?, Text.leadingHex?, List.take_left]
  simp [hnumber, Text.character?, hvalid]

/-- The digits of a code point below 128. -/
theorem hexEscape_digits : ∀ n < 128,
    let digits := (Text.hexDigits n).map Char.toUpper
    let padded := List.replicate (4 - digits.length) '0' ++ digits
    padded.length = 4 ∧ Text.hexNumber? 0 padded = some n := by
  decide

theorem hexEscape_escapes {c : Char} (hc : c.toNat < 128) (multiline : Bool) :
    ∃ behind, hexEscape c = '\\' :: behind ∧ Escapes multiline c behind := by
  obtain ⟨hlength, hnumber⟩ := hexEscape_digits c.toNat hc
  refine ⟨_, rfl, fun more => ?_⟩
  have hcode := codeEscape?_digits hnumber more
  rw [hlength] at hcode
  rw [List.cons_append, escape?, hcode, List.length_cons, hlength]

theorem isControl_of_needsEscape {c : Char} (h : needsEscape c = false) (hne : c ≠ '\n') :
    isControl c = false := by
  simp only [needsEscape, isControl, Bool.or_eq_false_iff, Bool.and_eq_false_iff,
    bne_eq_false_iff_eq] at h ⊢
  exact ⟨h.1.elim (fun h => h.elim .inl .inr) (fun h => absurd h hne), h.2⟩

theorem toNat_of_needsEscape {c : Char} (h : needsEscape c = true) : c.toNat < 128 := by
  simp only [needsEscape, Bool.or_eq_true, Bool.and_eq_true, decide_eq_true_eq, beq_iff_eq] at h
  omega

theorem basicChar_writtenAs (multiline : Bool) (quotes : Nat) (c : Char) :
    WrittenAs multiline quotes c (basicChar multiline quotes c) := by
  rw [basicChar]
  split_ifs with hquote hmultiline hfew hfew hslash htab hnewline hmultiline hb hf hr hneeds
  · exact .quote hquote hmultiline hfew
  · subst hquote
    exact .escape fun more => rfl
  · exact absurd hfew (Nat.not_lt_zero _)
  · subst hquote
    exact .escape fun more => rfl
  · subst hslash
    exact .escape fun more => rfl
  · subst htab
    exact .escape fun more => rfl
  · exact .newline hnewline hmultiline
  · subst hnewline
    exact .escape fun more => rfl
  · subst hb
    exact .escape fun more => rfl
  · subst hf
    exact .escape fun more => rfl
  · subst hr
    exact .escape fun more => rfl
  · obtain ⟨behind, hwritten, hescapes⟩ := hexEscape_escapes (toNat_of_needsEscape hneeds) multiline
    rw [hwritten]
    exact .escape hescapes
  · have hcontrol := isControl_of_needsEscape (Bool.eq_false_iff.mpr hneeds) hnewline
    exact .plain ⟨hcontrol, hslash⟩ hquote

/-! ### Texts on one line -/

/-- What belongs to an escape is passed over. -/
theorem readLine_skip (quote : Char) (skipped more : List Char) :
    readLine quote skipped.length (skipped ++ more) = readLine quote 0 more := by
  induction skipped with
  | nil => rfl
  | cons c skipped ih => exact ih

theorem readLine_plain {quote c : Char} (hcontrol : isControl c = false) (hquote : c ≠ quote)
    (hslash : c = '\\' → quote ≠ '"') (more : List Char) :
    readLine quote 0 (c :: more) = pushChar c (readLine quote 0 more) := by
  rw [readLine, if_neg hquote, if_neg fun h => hslash h.1 h.2, hcontrol]
  rfl

theorem readLine_basicChar (quotes : Nat) (c : Char) (more : List Char) :
    readLine '"' 0 (basicChar false quotes c ++ more) = pushChar c (readLine '"' 0 more) := by
  have hwritten := basicChar_writtenAs false quotes c
  generalize basicChar false quotes c = written at hwritten ⊢
  cases hwritten with
  | plain hc hquote => exact readLine_plain hc.not_control hquote (absurd · hc.ne_backslash) more
  | quote _ hmultiline => cases hmultiline
  | newline _ hmultiline => cases hmultiline
  | @escape behind h =>
    rw [List.cons_append, readLine, if_neg (by decide), if_pos ⟨rfl, rfl⟩, h more]
    dsimp only
    rw [readLine_skip]
    rfl

theorem readLine_basicText (text : List Char) (quotes : Nat) (rest : List Char) :
    readLine '"' 0 (basicText false quotes text ++ '"' :: rest) = .ok (text, rest) := by
  induction text generalizing quotes with
  | nil => rfl
  | cons c text ih =>
    rw [basicText, List.append_assoc, readLine_basicChar, ih]
    rfl

theorem readLine_literal {text : List Char} (hquote : '\'' ∉ text)
    (hcontrol : ∀ c ∈ text, isControl c = false) (rest : List Char) :
    readLine '\'' 0 (text ++ '\'' :: rest) = .ok (text, rest) := by
  induction text with
  | nil => rfl
  | cons c text ih =>
    rw [List.mem_cons, not_or] at hquote
    rw [List.cons_append, readLine_plain (hcontrol c List.mem_cons_self) (Ne.symm hquote.1)
      (fun _ => by decide), ih hquote.2 fun d hd => hcontrol d (List.mem_cons_of_mem _ hd)]
    rfl

/-! ### Texts of several lines -/

/-- What stands between triple quotes, taken apart. -/
inductive Block (quote : Char) : List Char → List Char → Prop
  | nil : Block quote [] []
  | plain {c : Char} {text written : List Char} (hcontrol : isControl c = false)
      (hquote : c ≠ quote) (hslash : c = '\\' → quote ≠ '"') (h : Block quote text written) :
      Block quote (c :: text) (c :: written)
  | newline {text written : List Char} (h : Block quote text written) :
      Block quote ('\n' :: text) ('\n' :: written)
  | escape {c : Char} {behind text written : List Char} (hquote : quote = '"')
      (hescapes : Escapes true c behind) (h : Block quote text written) :
      Block quote (c :: text) ('\\' :: behind ++ written)
  /-- Quotes of the text itself, two of them at most. -/
  | quotes {n : Nat} {text written : List Char} (hn : n ≤ 2) (h : Block quote text written)
      (hnext : written.head? ≠ some quote) :
      Block quote (List.replicate n quote ++ text) (List.replicate n quote ++ written)

/-- The two characters that quote texts. -/
def IsQuote (quote : Char) : Prop := quote = '"' ∨ quote = '\''

theorem IsQuote.not_control {quote : Char} (h : IsQuote quote) : isControl quote = false := by
  rcases h with rfl | rfl <;> decide

theorem quoteRun_replicate {quote : Char} {n : Nat} (hn : n ≤ 5) {rest : List Char}
    (hrest : rest.head? ≠ some quote) :
    quoteRun quote (List.replicate n quote ++ rest) = n := by
  have htake : (List.replicate n quote ++ rest).take 5 =
      List.replicate n quote ++ rest.take (5 - n) := by
    rw [List.take_append, List.length_replicate, List.take_of_length_le (by simpa using hn)]
  have hstop : (rest.take (5 - n)).takeWhile (· = quote) = [] := by
    cases rest with
    | nil => simp
    | cons c rest =>
      have hc : c ≠ quote := fun h => hrest (congrArg some h)
      cases 5 - n with
      | zero => rfl
      | succ m => simp [hc]
  rw [quoteRun, htake, List.takeWhile_append_of_pos (by simp), hstop]
  simp

theorem readLines_skip (quote : Char) (skipped more : List Char) :
    readLines quote skipped.length (skipped ++ more) = readLines quote 0 more := by
  induction skipped with
  | nil => rfl
  | cons c skipped ih => exact ih

/-- Three quotes close the text; those before them are part of it. -/
theorem readLines_close {quote : Char} {n : Nat} (hn : n ≤ 2) {rest : List Char}
    (hrest : rest.head? ≠ some quote) :
    readLines quote 0 (List.replicate (n + 3) quote ++ rest) =
      .ok (List.replicate n quote, rest) := by
  have hrun := quoteRun_replicate (show n + 3 ≤ 5 by omega) hrest
  have hdrop : (List.replicate (n + 3) quote ++ rest).drop (n + 3) = rest :=
    List.drop_left' (List.length_replicate ..)
  rw [List.replicate_succ, List.cons_append] at hrun hdrop ⊢
  rw [readLines]
  dsimp only
  rw [hrun, if_pos (by omega), hdrop, Nat.add_sub_cancel]

theorem takeLineEnd?_of_ne {c : Char} (hend : c ≠ '\n') (hreturn : c ≠ '\r') (more : List Char) :
    takeLineEnd? (c :: more) = none := by
  rw [takeLineEnd?.eq_def]
  split
  · rename_i heq
    exact absurd (List.cons.inj heq).1 hend
  · rename_i heq
    exact absurd (List.cons.inj heq).1 hreturn
  · rfl

theorem takeLineEnd?_of_not_control {c : Char} (hcontrol : isControl c = false)
    (more : List Char) : takeLineEnd? (c :: more) = none := by
  refine takeLineEnd?_of_ne ?_ ?_ more
  · rintro rfl
    exact absurd hcontrol (by decide)
  · rintro rfl
    exact absurd hcontrol (by decide)

/-- A character with few quotes in front is none of those that close the text. -/
theorem readLines_cons {quote c : Char} {more : List Char} (hrun : quoteRun quote (c :: more) < 3)
    (hcontrol : isControl c = false) (hslash : c = '\\' → quote ≠ '"') :
    readLines quote 0 (c :: more) = pushChar c (readLines quote 0 more) := by
  rw [readLines]
  dsimp only
  rw [if_neg (by omega), if_neg fun h => hslash h.1 h.2, takeLineEnd?_of_not_control hcontrol,
    hcontrol]
  rfl

theorem quoteRun_of_ne {quote c : Char} (h : c ≠ quote) (more : List Char) :
    quoteRun quote (c :: more) = 0 := by
  have hhead : (c :: more).head? ≠ some quote := by simpa using h
  exact quoteRun_replicate (Nat.zero_le 5) hhead

theorem readLines_newline {quote : Char} (hquote : IsQuote quote) (more : List Char) :
    readLines quote 0 ('\n' :: more) = pushChar '\n' (readLines quote 0 more) := by
  have hne : '\n' ≠ quote := by rcases hquote with rfl | rfl <;> decide
  rw [readLines]
  dsimp only
  rw [quoteRun_of_ne hne, if_neg (by decide), if_neg (by simp), takeLineEnd?]
  dsimp only
  rw [Nat.sub_self]
  rfl

theorem readLines_escape {c : Char} {behind : List Char} (h : Escapes true c behind)
    (more : List Char) :
    readLines '"' 0 ('\\' :: behind ++ more) = pushChar c (readLines '"' 0 more) := by
  rw [List.cons_append, readLines]
  dsimp only
  rw [quoteRun_of_ne (by decide), if_neg (by decide), if_pos ⟨rfl, rfl⟩, h more]
  dsimp only
  rw [readLines_skip]
  rfl

/-- One or two quotes are part of the text. -/
theorem readLines_quotes {quote : Char} (hquote : IsQuote quote) {n : Nat} (hn : n ≤ 2)
    {more : List Char} (hmore : more.head? ≠ some quote) {text rest : List Char}
    (h : readLines quote 0 more = .ok (text, rest)) :
    readLines quote 0 (List.replicate n quote ++ more) =
      .ok (List.replicate n quote ++ text, rest) := by
  induction n with
  | zero => exact h
  | succ n ih =>
    have hrun := quoteRun_replicate (show n + 1 ≤ 5 by omega) hmore
    have hslash : quote = '\\' → quote ≠ '"' := by rcases hquote with rfl | rfl <;> decide
    rw [List.replicate_succ, List.cons_append] at hrun ⊢
    rw [readLines_cons (by omega) hquote.not_control hslash, ih (by omega)]
    rfl

theorem Block.text_eq_nil {quote : Char} {text written : List Char} (h : Block quote text written)
    (hwritten : written = []) : text = [] := by
  induction h with
  | nil => rfl
  | plain | newline | escape => cases hwritten
  | quotes _ _ _ ih =>
    obtain ⟨hquotes, hmore⟩ := List.append_eq_nil_iff.mp hwritten
    rw [hquotes, ih hmore, List.append_nil]

/-- What stands between triple quotes is read to its end. -/
theorem Block.readLines {quote : Char} (hquote : IsQuote quote) {text written : List Char}
    (h : Block quote text written) {rest : List Char} (hrest : rest.head? ≠ some quote) :
    readLines quote 0 (written ++ (List.replicate 3 quote ++ rest)) = .ok (text, rest) := by
  -- along the parts; quotes at the very end run into those that close the text
  induction h with
  | nil => exact readLines_close (Nat.zero_le 2) hrest
  | plain hcontrol hne hslash _ ih =>
    have hrun := quoteRun_of_ne hne
    rw [List.cons_append, readLines_cons (by rw [hrun]; decide) hcontrol hslash, ih]
    rfl
  | newline _ ih =>
    rw [List.cons_append, readLines_newline hquote, ih]
    rfl
  | escape hq hescapes _ ih =>
    subst hq
    rw [List.append_assoc, readLines_escape hescapes, ih]
    rfl
  | @quotes n text written hn hblock hnext ih =>
    cases written with
    | nil =>
      rw [hblock.text_eq_nil rfl, List.append_nil, ← List.append_assoc,
        List.replicate_append_replicate]
      exact readLines_close hn hrest
    | cons d written =>
      rw [List.append_assoc]
      exact readLines_quotes hquote hn (by simpa using hnext) ih

/-- At most `n` quotes stand in front of what can be taken apart. -/
def Led (quote : Char) (n : Nat) (text written : List Char) : Prop :=
  ∃ k ≤ n, ∃ text' written', text = List.replicate k quote ++ text' ∧
    written = List.replicate k quote ++ written' ∧ Block quote text' written' ∧
    written'.head? ≠ some quote

section led

variable {quote : Char} {n : Nat} {text written : List Char}

theorem Led.block (h : Led quote n text written) (hn : n ≤ 2) : Block quote text written := by
  obtain ⟨k, hk, text', written', rfl, rfl, hblock, hnext⟩ := h
  exact .quotes (hk.trans hn) hblock hnext

theorem Led.of_block (h : Block quote text written) (hnext : written.head? ≠ some quote) :
    Led quote n text written :=
  ⟨0, Nat.zero_le n, text, written, rfl, rfl, h, hnext⟩

theorem Led.cons (h : Led quote n text written) :
    Led quote (n + 1) (quote :: text) (quote :: written) := by
  obtain ⟨k, hk, text', written', rfl, rfl, hblock, hnext⟩ := h
  exact ⟨k + 1, Nat.succ_le_succ hk, text', written', rfl, rfl, hblock, hnext⟩

end led

/-- Behind some quotes already, only so many more are written without an escape that there are
two of them. -/
theorem basicText_led (text : List Char) {quotes : Nat} (hquotes : quotes ≤ 2) :
    Led '"' (2 - quotes) text (basicText true quotes text) := by
  induction text generalizing quotes with
  | nil => exact .of_block .nil nofun
  | cons c text ih =>
    rw [basicText]
    have hwritten := basicChar_writtenAs true quotes c
    generalize basicChar true quotes c = written at hwritten ⊢
    have hmore : written ≠ ['"'] → Block '"' text
        (basicText true (if written = ['"'] then quotes + 1 else 0) text) := by
      intro hne
      rw [if_neg hne]
      exact (ih (Nat.zero_le 2)).block le_rfl
    cases hwritten with
    | plain hc hquote =>
      have hne : [c] ≠ ['"'] := by simpa using hquote
      exact .of_block (.plain hc.not_control hquote (absurd · hc.ne_backslash) (hmore hne))
        (by simpa using hquote)
    | newline hc _ =>
      subst hc
      exact .of_block (.newline (hmore (by decide))) (by simp)
    | escape h => exact .of_block (.escape rfl h (hmore (by simp))) (by simp)
    | quote hc _ hfew =>
      subst hc
      have hrest : 2 - quotes = 2 - (quotes + 1) + 1 := by omega
      rw [if_pos rfl, hrest]
      exact (ih (by omega)).cons

theorem le_longestRun (c : Char) (current : Nat) (text : List Char) :
    current ≤ longestRun c current text := by
  induction text generalizing current with
  | nil => exact le_rfl
  | cons d text ih =>
    rw [longestRun]
    split_ifs
    · exact (Nat.le_succ current).trans (ih (current + 1))
    · exact Nat.le_max_left _ _

theorem longestRun_pos {c : Char} {text : List Char} (h : c ∈ text) (current : Nat) :
    0 < longestRun c current text := by
  induction text generalizing current with
  | nil => cases h
  | cons d text ih =>
    rw [longestRun]
    split_ifs with hd
    · exact (Nat.succ_pos current).trans_le (le_longestRun c (current + 1) text)
    · have hrest : c ∈ text := (List.mem_cons.mp h).resolve_left (Ne.symm hd)
      exact (ih hrest 0).trans_le (Nat.le_max_right _ _)

/-- A text without control characters and with no three apostrophes in a row stands for itself. -/
theorem literal_led {text : List Char} (hcontrol : ∀ c ∈ text, needsEscape c = false)
    {current : Nat} (hrun : longestRun '\'' current text ≤ 2) :
    Led '\'' (2 - current) text text := by
  induction text generalizing current with
  | nil => exact .of_block .nil nofun
  | cons c text ih =>
    have hmore := fun d hd => hcontrol d (List.mem_cons_of_mem c hd)
    rw [longestRun] at hrun
    split_ifs at hrun with hc
    · subst hc
      have hfew := le_longestRun '\'' (current + 1) text
      have hrest : 2 - current = 2 - (current + 1) + 1 := by omega
      rw [hrest]
      exact (ih hmore hrun).cons
    · have hblock := (ih hmore (show longestRun '\'' 0 text ≤ 2 by omega)).block le_rfl
      by_cases hnewline : c = '\n'
      · subst hnewline
        exact .of_block (.newline hblock) (by simp)
      · have hplain := isControl_of_needsEscape (hcontrol c List.mem_cons_self) hnewline
        exact .of_block (.plain hplain hc (fun _ => by decide) hblock) (by simpa using hc)

/-! ### All forms -/

/-- A text in apostrophes has no need for an escape, no apostrophe and no line end. -/
theorem Form.of_eq_literal {text : List Char} (h : Form.of text = .literal) :
    (∀ c ∈ text, needsEscape c = false) ∧ '\'' ∉ text ∧ '\n' ∉ text := by
  rw [Form.of] at h
  split_ifs at h with hbasic hliteral
  simp only [Bool.and_eq_true, Bool.not_eq_true', List.any_eq_false, beq_iff_eq] at hliteral
  obtain ⟨⟨hcontrol, hruns⟩, hnewline⟩ := hliteral
  refine ⟨fun c hc => by simpa using hcontrol c hc, fun hquote => ?_, by simpa using hnewline⟩
  exact absurd hruns (longestRun_pos hquote 0).ne'

/-- A text in triple apostrophes has no need for an escape and never three apostrophes in a row. -/
theorem Form.of_eq_multilineLiteral {text : List Char} (h : Form.of text = .multilineLiteral) :
    (∀ c ∈ text, needsEscape c = false) ∧ longestRun '\'' 0 text ≤ 2 := by
  rw [Form.of] at h
  split_ifs at h with hbasic hliteral hmultilineBasic hmultilineLiteral
  simp only [Bool.and_eq_true, Bool.not_eq_true', List.any_eq_false, decide_eq_true_eq]
    at hmultilineLiteral
  exact ⟨fun c hc => by simpa using hmultilineLiteral.1 c hc, hmultilineLiteral.2⟩

/-- What can be taken apart starts with a line end only if the text does. -/
theorem Block.takeLineEnd?_eq_none {quote : Char} (hquote : IsQuote quote)
    {text written : List Char} (h : Block quote text written) (hnewline : '\n' ∉ text)
    (rest : List Char) : takeLineEnd? (written ++ quote :: rest) = none := by
  induction h with
  | nil => exact takeLineEnd?_of_not_control hquote.not_control rest
  | plain hcontrol => exact takeLineEnd?_of_not_control hcontrol _
  | newline => exact absurd List.mem_cons_self hnewline
  | escape => exact takeLineEnd?_of_not_control (by decide) _
  | @quotes n text written _ _ _ ih =>
    cases n with
    | zero => exact ih hnewline
    | succ n => exact takeLineEnd?_of_not_control hquote.not_control _

/-- A block is read after the line end in front of it, if it has several lines. -/
theorem readBlock_block {quote : Char} (hquote : IsQuote quote) {text written : List Char}
    (h : Block quote text written) {rest : List Char} (hrest : rest.head? ≠ some quote) :
    readBlock quote ((if text.contains '\n' then ['\n'] else []) ++
      (written ++ (List.replicate 3 quote ++ rest))) = .ok (text, rest) := by
  rw [readBlock]
  by_cases hnewline : '\n' ∈ text
  · rw [if_pos (by simpa using hnewline)]
    exact h.readLines hquote hrest
  · rw [if_neg (by simpa using hnewline), List.nil_append, List.replicate_succ, List.cons_append,
      h.takeLineEnd?_eq_none hquote hnewline]
    exact h.readLines hquote hrest

theorem readText?_line {quote : Char} (hquote : IsQuote quote) {more : List Char}
    (hmore : ∀ rest, more ≠ quote :: quote :: rest) :
    readText? (quote :: more) = some (readLine quote 0 more) := by
  rw [readText?.eq_def]
  rcases hquote with rfl | rfl <;> split <;> simp_all

theorem readText?_block {quote : Char} (hquote : IsQuote quote) (more : List Char) :
    readText? (List.replicate 3 quote ++ more) = some (readBlock quote more) := by
  rcases hquote with rfl | rfl <;> rfl

/-- A text on one line does not look as if it was one of several. -/
theorem ne_tripled {quote : Char} {written rest : List Char} (hwritten : written.head? ≠ some quote)
    (hrest : rest.head? ≠ some quote) (more : List Char) :
    written ++ quote :: rest ≠ quote :: quote :: more := by
  intro h
  cases written with
  | nil =>
    obtain rfl := (List.cons.inj h).2
    exact hrest rfl
  | cons c written => exact hwritten (congrArg some (List.cons.inj h).1)

theorem basicText_head (text : List Char) : (basicText false 0 text).head? ≠ some '"' := by
  cases text with
  | nil => nofun
  | cons c text =>
    rw [basicText]
    have hwritten := basicChar_writtenAs false 0 c
    generalize basicChar false 0 c = written at hwritten ⊢
    cases hwritten with
    | plain _ hquote => simpa using hquote
    | quote _ hmultiline => cases hmultiline
    | newline _ hmultiline => cases hmultiline
    | escape => simp

/-- Whatever form a text is written in, it is read back. -/
theorem readText?_quote (s : String) {rest : List Char} (hquotation : rest.head? ≠ some '"')
    (hapostrophe : rest.head? ≠ some '\'') :
    readText? ((quote s).toList ++ rest) = some (.ok (s.toList, rest)) := by
  rw [quote, String.toList_ofList]
  cases hform : Form.of s.toList with
  | basic =>
    have hread := readText?_line (.inl rfl) (ne_tripled (basicText_head s.toList) hquotation)
    rw [readLine_basicText] at hread
    simpa [Form.delimiter] using hread
  | literal =>
    obtain ⟨hcontrol, hquote, hnewline⟩ := Form.of_eq_literal hform
    have hhead : s.toList.head? ≠ some '\'' := fun h => hquote (List.mem_of_head? h)
    have hread := readText?_line (.inr rfl) (ne_tripled hhead hapostrophe)
    rw [readLine_literal hquote fun c hc => isControl_of_needsEscape (hcontrol c hc)
      (ne_of_mem_of_not_mem hc hnewline)] at hread
    simpa [Form.delimiter] using hread
  | multilineBasic =>
    have hblock := (basicText_led s.toList (Nat.zero_le 2)).block le_rfl
    have hread := readText?_block (.inl rfl) ((if s.toList.contains '\n' then ['\n'] else []) ++
      (basicText true 0 s.toList ++ (List.replicate 3 '"' ++ rest)))
    rw [readBlock_block (.inl rfl) hblock hquotation] at hread
    simpa [Form.delimiter] using hread
  | multilineLiteral =>
    obtain ⟨hcontrol, hruns⟩ := Form.of_eq_multilineLiteral hform
    have hblock := (literal_led hcontrol hruns).block le_rfl
    have hread := readText?_block (.inr rfl) ((if s.toList.contains '\n' then ['\n'] else []) ++
      (s.toList ++ (List.replicate 3 '\'' ++ rest)))
    rw [readBlock_block (.inr rfl) hblock hapostrophe] at hread
    simpa [Form.delimiter] using hread

end KeyLayout.Toml
