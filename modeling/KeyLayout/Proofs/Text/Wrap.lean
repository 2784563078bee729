/-
Wrapping keeps the first line.

The first line of a text is told by `FirstLine`.  Its words are put on lines in their order, and
no line stays empty (`Laid`).  So the lines make up the first line again when they are put
together with spaces (`joinWith_wrapped`), and they are what wrapping shows (`pieces_wrap`).
Wrapping does nothing but to change some spaces into line ends (`unwrap_wrap`).
-/
import KeyLayout.Proofs.Text.Pieces
import KeyLayout.Text.Wrap

namespace KeyLayout.Text

/-! ### The first line -/

/-- `FirstLine line text`: the line is what stands before the first `\n` of the text, without a
carriage return right before that `\n`; a text without `\n` is a line as it stands. -/
inductive FirstLine : List Char → List Char → Prop
  | whole {line : List Char} (h : '\n' ∉ line) : FirstLine line line
  | ended {line : List Char} (h : '\n' ∉ line) (hreturn : line.getLast? ≠ some '\r')
      (rest : List Char) : FirstLine line (line ++ '\n' :: rest)
  | returned {line : List Char} (h : '\n' ∉ line) (rest : List Char) :
      FirstLine line (line ++ '\r' :: '\n' :: rest)

theorem FirstLine.no_end {line text : List Char} (h : FirstLine line text) : '\n' ∉ line := by
  cases h with
  | whole h => exact h
  | ended h => exact h
  | returned h => exact h

/-- What stands behind a line end does not count. -/
theorem firstLine_append {before piece : List Char} {more : List (List Char)}
    (h : pieces '\n' before = piece :: more) (rest : List Char) :
    firstLine (before ++ '\n' :: rest) = dropReturn piece := by
  obtain ⟨next, later, hrest⟩ := List.exists_cons_of_ne_nil (pieces_ne_nil '\n' rest)
  rw [firstLine, pieces_append_sep, h, hrest]
  cases more <;> rfl

theorem FirstLine.eq {line text : List Char} (h : FirstLine line text) :
    firstLine text = line := by
  cases h with
  | whole h => rw [firstLine, pieces_of_not_mem h]
  | ended h hreturn rest =>
    rw [firstLine_append (pieces_of_not_mem h), dropReturn_of_line ⟨h, hreturn⟩]
  | returned h rest =>
    have hbefore : '\n' ∉ line ++ ['\r'] := by simp [h]
    have hsplit : line ++ '\r' :: '\n' :: rest = (line ++ ['\r']) ++ '\n' :: rest := by simp
    rw [hsplit, firstLine_append (pieces_of_not_mem hbefore), dropReturn, List.getLast?_concat]
    exact List.dropLast_concat

theorem firstLine_spec (text : List Char) : FirstLine (firstLine text) text := by
  obtain ⟨line, h⟩ : ∃ line, FirstLine line text := by
    by_cases hend : '\n' ∈ text
    · obtain ⟨before, rest, rfl, hbefore⟩ := List.eq_append_cons_of_mem hend
      by_cases hreturn : before.getLast? = some '\r'
      · obtain ⟨line, rfl⟩ := List.getLast?_eq_some_iff.mp hreturn
        rw [List.append_assoc]
        exact ⟨line, .returned (fun h => hbefore (List.mem_append_left _ h)) rest⟩
      · exact ⟨before, .ended hbefore hreturn rest⟩
    · exact ⟨text, .whole hend⟩
  rwa [h.eq]

theorem firstLine_eq_iff {line text : List Char} : firstLine text = line ↔ FirstLine line text :=
  ⟨fun h => h ▸ firstLine_spec text, FirstLine.eq⟩

/-! ### Words on lines -/

/-- The characters of words, with a space behind each of them. -/
def charCount : List (List Char) → Nat
  | [] => 0
  | word :: words => word.length + 1 + charCount words

@[simp] theorem charCount_nil : charCount [] = 0 := rfl

@[simp] theorem charCount_cons (word : List Char) (words : List (List Char)) :
    charCount (word :: words) = word.length + 1 + charCount words := rfl

/-- Lines are as they should be when `count` characters stand before them: each of them has a word,
its first and its last word belong there, and the next line has another index. -/
inductive Laid (length : Nat) : Nat → List WrappedLine → Prop
  | nil (count : Nat) : Laid length count []
  | line {count index : Nat} {word : List Char} {words : List (List Char)}
      {lines : List WrappedLine} (hfirst : lineIndex length (count + (word.length + 1)) = index)
      (hlast : lineIndex length (count + charCount (word :: words)) = index)
      (hnext : ∀ next ∈ lines.head?, next.index ≠ index)
      (hrest : Laid length (count + charCount (word :: words)) lines) :
      Laid length count (⟨index, word :: words⟩ :: lines)

theorem laid_cons {length count : Nat} {word : List Char} {lines : List WrappedLine}
    (h : Laid length (count + (word.length + 1)) lines) : Laid length count
      (WrappedLine.cons (lineIndex length (count + (word.length + 1))) word lines) := by
  cases h with
  | nil => exact .line rfl rfl nofun (.nil _)
  | @line _ index _ words lines hfirst hlast hnext hrest =>
    rw [WrappedLine.cons]
    split
    -- the word goes in front of the line that follows, or on a line of its own
    · rename_i hsame
      have hcount := Nat.add_assoc count (word.length + 1)
      rw [hcount] at hlast hrest
      exact .line rfl (hlast.trans hsame) (hsame ▸ hnext) hrest
    · rename_i hother
      exact .line rfl rfl (fun next hmem => Option.some.inj hmem ▸ hother)
        (.line hfirst hlast hnext hrest)

/-- Words are put on lines as they should be. -/
theorem groupWords_laid (length count : Nat) (words : List (List Char)) :
    Laid length count (groupWords length count words) := by
  induction words generalizing count with
  | nil => exact .nil count
  | cons word words ih => exact laid_cons (ih _)

theorem Laid.words_ne_nil {length count : Nat} {lines : List WrappedLine}
    (h : Laid length count lines) : [] ∉ lines.map (·.words) := by
  induction h with
  | nil => exact List.not_mem_nil
  | line _ _ _ _ ih => simpa using ih

theorem flatten_words_cons (index : Nat) (word : List Char) (lines : List WrappedLine) :
    ((WrappedLine.cons index word lines).map (·.words)).flatten =
      word :: (lines.map (·.words)).flatten := by
  cases lines with
  | nil => rfl
  | cons line lines =>
    rw [WrappedLine.cons]
    split <;> rfl

/-- The words on the lines are all the words, in their order. -/
theorem flatten_words_groupWords (length count : Nat) (words : List (List Char)) :
    ((groupWords length count words).map (·.words)).flatten = words := by
  induction words generalizing count with
  | nil => rfl
  | cons word words ih => exact (flatten_words_cons _ word _).trans (congrArg _ (ih _))

/-! ### The lines that are shown -/

/-- The words of a line, put on lines. -/
def wordLines (line : List Char) : List (List (List Char)) :=
  (groupWords line.length 0 (pieces ' ' line)).map (·.words)

theorem flatten_wordLines (line : List Char) : (wordLines line).flatten = pieces ' ' line :=
  flatten_words_groupWords _ _ _

theorem wordLines_ne_nil (line : List Char) : wordLines line ≠ [] := by
  intro hnil
  have hwords := flatten_wordLines line
  rw [hnil] at hwords
  exact pieces_ne_nil ' ' line hwords.symm

/-- The lines into which a line is broken. -/
def wrapped (line : List Char) : List (List Char) := (wordLines line).map (joinWith [' '])

theorem wrap_eq (text : List Char) : wrap text = joinWith ['\n'] (wrapped (firstLine text)) := by
  rw [wrap, wrapped, wordLines, List.map_map]
  rfl

/-- Put together with spaces the lines make up the line that was broken. -/
theorem joinWith_wrapped (line : List Char) : joinWith [' '] (wrapped line) = line := by
  have hwords : [] ∉ wordLines line := (groupWords_laid _ _ _).words_ne_nil
  rw [wrapped, joinWith_flatten hwords, flatten_wordLines, joinWith_pieces]

theorem no_end_wrapped {line text : List Char} (h : '\n' ∉ line) (htext : text ∈ wrapped line) :
    '\n' ∉ text := by
  rw [← joinWith_wrapped line] at h
  exact fun hend => h (subset_joinWith htext hend)

/-- Wrapping shows exactly these lines. -/
theorem pieces_wrap (text : List Char) : pieces '\n' (wrap text) = wrapped (firstLine text) := by
  have hne : wrapped (firstLine text) ≠ [] := by simpa [wrapped] using wordLines_ne_nil _
  rw [wrap_eq, pieces_joinWith hne]
  exact fun line hline => no_end_wrapped (firstLine_spec text).no_end hline

/-- A text with a space for every line end. -/
def unwrap (text : List Char) : List Char := text.map fun c => if c = '\n' then ' ' else c

theorem unwrap_of_no_end {text : List Char} (h : '\n' ∉ text) : unwrap text = text := by
  have hsame : ∀ c ∈ text, (if c = '\n' then ' ' else c) = c :=
    fun c hc => if_neg (ne_of_mem_of_not_mem hc h)
  rw [unwrap, List.map_congr_left hsame, List.map_id']

theorem unwrap_append_end (before behind : List Char) :
    unwrap (before ++ '\n' :: behind) = unwrap before ++ ' ' :: unwrap behind :=
  List.map_append

theorem unwrap_joinWith {texts : List (List Char)} (h : ∀ text ∈ texts, '\n' ∉ text) :
    unwrap (joinWith ['\n'] texts) = joinWith [' '] texts := by
  induction texts with
  | nil => rfl
  | cons text texts ih =>
    have htext := unwrap_of_no_end (h text List.mem_cons_self)
    cases texts with
    | nil => exact htext
    | cons next texts =>
      rw [joinWith_cons_cons, joinWith_cons_cons, unwrap_append_end, htext,
        ih fun text hmem => h text (List.mem_cons_of_mem _ hmem)]

/-- Wrapping only changes spaces of the first line into line ends. -/
theorem unwrap_wrap (text : List Char) : unwrap (wrap text) = firstLine text := by
  rw [wrap_eq, unwrap_joinWith fun line => no_end_wrapped (firstLine_spec text).no_end,
    joinWith_wrapped]

end KeyLayout.Text
