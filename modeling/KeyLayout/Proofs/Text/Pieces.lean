/-
Pieces of a text.

Cutting a text that has a separator in it cuts what stands before the separator and what
stands behind it (`pieces_append_sep`), and putting the pieces together again gives the
text back (`joinWith_pieces`).  Texts without separators are the pieces of what they are put
together to (`pieces_joinWith`), and no others are (`pieces_eq_iff`); it does not matter in how
many steps that is done (`joinWith_flatten`).  Lines that are written one after the other are
the lines of what is written (`lines_written`).

Replacing goes through a text once: at the pattern it writes the replacement and goes on behind
the pattern (`replaceAll_append`), anywhere else it copies a character (`replaceAll_cons`).
-/
import KeyLayout.Text.Pieces

namespace KeyLayout.Text

section joining

variable {α : Type} {sep : α}

theorem joinWith_cons_cons (piece next : List α) (more : List (List α)) :
    joinWith [sep] (piece :: next :: more) = piece ++ sep :: joinWith [sep] (next :: more) := by
  rw [joinWith, List.append_assoc]
  · rfl
  · simp

theorem joinWith_append {texts more : List (List α)} (htexts : texts ≠ []) (hmore : more ≠ []) :
    joinWith [sep] (texts ++ more) = joinWith [sep] texts ++ sep :: joinWith [sep] more := by
  obtain ⟨next, more, rfl⟩ := List.exists_cons_of_ne_nil hmore
  induction texts with
  | nil => exact absurd rfl htexts
  | cons text texts ih =>
    cases texts with
    | nil => exact joinWith_cons_cons text next more
    | cons text' texts =>
      rw [List.cons_append, List.cons_append, joinWith_cons_cons, ← List.cons_append,
        ih (List.cons_ne_nil _ _), joinWith_cons_cons, List.append_assoc, List.cons_append]

/-- Texts may be put together in groups first. -/
theorem joinWith_flatten {groups : List (List (List α))} (h : [] ∉ groups) :
    joinWith [sep] (groups.map (joinWith [sep])) = joinWith [sep] groups.flatten := by
  induction groups with
  | nil => rfl
  | cons group groups ih =>
    rw [List.mem_cons, not_or] at h
    cases groups with
    | nil => simp [joinWith]
    | cons next groups =>
      have hnext : (next :: groups).flatten ≠ [] := by
        rw [List.mem_cons, not_or] at h
        simp [Ne.symm h.2.1]
      rw [List.flatten_cons, joinWith_append (Ne.symm h.1) hnext, ← ih h.2]
      exact joinWith_cons_cons _ _ _

/-- Every text is part of what the texts are put together to. -/
theorem subset_joinWith {texts : List (List α)} {text : List α} (h : text ∈ texts) :
    text ⊆ joinWith [sep] texts := by
  obtain ⟨before, behind, rfl⟩ := List.append_of_mem h
  have hbehind : text ⊆ joinWith [sep] (text :: behind) := by
    cases behind with
    | nil => exact List.Subset.refl text
    | cons next behind =>
      rw [joinWith_cons_cons]
      exact List.subset_append_left _ _
  cases before with
  | nil => exact hbehind
  | cons first before =>
    rw [joinWith_append (List.cons_ne_nil _ _) (List.cons_ne_nil _ _)]
    exact fun c hc => List.mem_append_right _ (List.mem_cons_of_mem _ (hbehind hc))

end joining

section cutting

variable {α : Type} [DecidableEq α] {sep : α}

theorem pieces_cons_sep (rest : List α) : pieces sep (sep :: rest) = [] :: pieces sep rest := by
  rw [pieces, if_pos rfl]

theorem pieces_ne_nil (sep : α) (text : List α) : pieces sep text ≠ [] := by
  cases text with
  | nil => simp [pieces]
  | cons c rest =>
    rw [pieces]
    split
    · simp
    · split <;> simp

/-- A character that is no separator belongs to the first piece. -/
theorem pieces_cons_of_ne {c : α} (h : c ≠ sep) {text piece : List α}
    {more : List (List α)} (hpieces : pieces sep text = piece :: more) :
    pieces sep (c :: text) = (c :: piece) :: more := by
  rw [pieces, if_neg h, hpieces]

theorem pieces_of_not_mem {text : List α} (h : sep ∉ text) : pieces sep text = [text] := by
  induction text with
  | nil => rfl
  | cons c rest ih =>
    rw [List.mem_cons, not_or] at h
    exact pieces_cons_of_ne (Ne.symm h.1) (ih h.2)

theorem pieces_append_sep (text rest : List α) :
    pieces sep (text ++ sep :: rest) = pieces sep text ++ pieces sep rest := by
  induction text with
  | nil => exact pieces_cons_sep rest
  | cons c text ih =>
    by_cases hc : c = sep
    · rw [hc, List.cons_append, pieces_cons_sep, pieces_cons_sep, ih, List.cons_append]
    · obtain ⟨piece, more, hpieces⟩ := List.exists_cons_of_ne_nil (pieces_ne_nil sep text)
      rw [hpieces, List.cons_append] at ih
      rw [List.cons_append, pieces_cons_of_ne hc ih, pieces_cons_of_ne hc hpieces, List.cons_append]

theorem joinWith_pieces (text : List α) : joinWith [sep] (pieces sep text) = text := by
  induction text with
  | nil => rfl
  | cons c rest ih =>
    obtain ⟨piece, more, hpieces⟩ := List.exists_cons_of_ne_nil (pieces_ne_nil sep rest)
    rw [hpieces] at ih
    by_cases hc : c = sep
    · rw [hc, pieces_cons_sep, hpieces, joinWith_cons_cons, ih, List.nil_append]
    · rw [pieces_cons_of_ne hc hpieces]
      cases more with
      | nil => simpa [joinWith] using ih
      | cons next more =>
        rw [joinWith_cons_cons] at ih ⊢
        rw [List.cons_append, ih]

/-- No piece has a separator in it. -/
theorem not_mem_of_mem_pieces {text piece : List α} (h : piece ∈ pieces sep text) :
    sep ∉ piece := by
  induction text generalizing piece with
  | nil =>
    rw [pieces, List.mem_singleton] at h
    simp [h]
  | cons c rest ih =>
    by_cases hc : c = sep
    · rw [hc, pieces_cons_sep] at h
      rcases List.mem_cons.mp h with rfl | h
      · exact List.not_mem_nil
      · exact ih h
    · obtain ⟨first, more, hpieces⟩ := List.exists_cons_of_ne_nil (pieces_ne_nil sep rest)
      rw [pieces_cons_of_ne hc hpieces] at h
      rcases List.mem_cons.mp h with rfl | h
      · have hfirst : sep ∉ first := ih (hpieces ▸ List.mem_cons_self)
        simp [Ne.symm hc, hfirst]
      · exact ih (hpieces ▸ List.mem_cons_of_mem first h)

/-- Cutting undoes putting together. -/
theorem pieces_joinWith {texts : List (List α)} (hne : texts ≠ [])
    (h : ∀ text ∈ texts, sep ∉ text) : pieces sep (joinWith [sep] texts) = texts := by
  induction texts with
  | nil => exact absurd rfl hne
  | cons text more ih =>
    have htext := h text List.mem_cons_self
    cases more with
    | nil => exact pieces_of_not_mem htext
    | cons next more =>
      rw [joinWith_cons_cons, pieces_append_sep, pieces_of_not_mem htext,
        ih (List.cons_ne_nil _ _) fun text hmem => h text (List.mem_cons_of_mem _ hmem)]
      rfl

/-- The parts of a text between its separators. -/
structure Cut (sep : α) (text : List α) (parts : List (List α)) : Prop where
  nonempty : parts ≠ []
  no_sep : ∀ part ∈ parts, sep ∉ part
  joined : joinWith [sep] parts = text

theorem pieces_eq_iff {text : List α} {parts : List (List α)} :
    pieces sep text = parts ↔ Cut sep text parts := by
  constructor
  · rintro rfl
    exact ⟨pieces_ne_nil sep text, fun _ => not_mem_of_mem_pieces, joinWith_pieces text⟩
  · rintro ⟨hne, hparts, rfl⟩
    exact pieces_joinWith hne hparts

end cutting

/-! ### Lines -/

/-- A line that is no more than it looks: it has no line end and no part of one at its end. -/
structure Line (text : List Char) : Prop where
  no_end : '\n' ∉ text
  no_return : text.getLast? ≠ some '\r'

theorem dropReturn_of_line {text : List Char} (h : Line text) : dropReturn text = text := by
  rw [dropReturn]
  split
  · exact absurd ‹_› h.no_return
  · rfl

/-- Lines without line ends are written as one line each; a carriage return at the end of a line is
taken for a part of the line end. -/
theorem lines_flatMap {written : List (List Char)} (h : ∀ line ∈ written, '\n' ∉ line) :
    lines (written.flatMap fun line => line ++ ['\n']) = written.map dropReturn := by
  induction written with
  | nil => rfl
  | cons line written ih =>
    have hpieces : pieces '\n' ((line :: written).flatMap fun line => line ++ ['\n']) =
        line :: pieces '\n' (written.flatMap fun line => line ++ ['\n']) := by
      rw [List.flatMap_cons, List.append_assoc, List.singleton_append, pieces_append_sep,
        pieces_of_not_mem (h line List.mem_cons_self), List.singleton_append]
    have hmore := ih fun other hother => h other (List.mem_cons_of_mem _ hother)
    rw [lines] at hmore ⊢
    rw [hpieces, lines.go, hmore, List.map_cons]
    exact pieces_ne_nil _ _

/-- Lines that are written with a line end behind each of them are the lines of the text. -/
theorem lines_written {written : List (List Char)} (h : ∀ line ∈ written, Line line) :
    lines (written.flatMap fun line => line ++ ['\n']) = written := by
  rw [lines_flatMap fun line hline => (h line hline).no_end,
    List.map_congr_left fun line hline => dropReturn_of_line (h line hline), List.map_id']

/-! ### Replacing -/

section replacing

variable {pattern : List Char}

/-- What is left of a match is passed over. -/
theorem replaceFrom_eq_drop (pattern replacement : List Char) (skip : Nat) (text : List Char) :
    replaceFrom pattern replacement skip text =
      replaceAll pattern replacement (text.drop skip) := by
  induction skip generalizing text with
  | zero => rfl
  | succ skip ih =>
    cases text with
    | nil => rfl
    | cons c rest =>
      rw [replaceFrom, ih]
      rfl

/-- At the pattern the replacement is written, and it goes on behind the pattern. -/
theorem replaceAll_append (hne : pattern ≠ []) (replacement rest : List Char) :
    replaceAll pattern replacement (pattern ++ rest) =
      replacement ++ replaceAll pattern replacement rest := by
  obtain ⟨c, tail, rfl⟩ := List.exists_cons_of_ne_nil hne
  have hmatch : (c :: tail).isPrefixOf (c :: (tail ++ rest)) = true :=
    List.isPrefixOf_iff_prefix.mpr (List.prefix_append _ _)
  rw [replaceAll, List.cons_append, replaceFrom, if_pos hmatch, replaceFrom_eq_drop]
  simp

/-- Where the pattern does not begin, a character is copied. -/
theorem replaceAll_cons {c : Char} {rest : List Char} (h : ¬pattern <+: c :: rest)
    (replacement : List Char) : replaceAll pattern replacement (c :: rest) =
      c :: replaceAll pattern replacement rest := by
  rw [replaceAll, replaceFrom, if_neg (mt List.isPrefixOf_iff_prefix.mp h)]
  rfl

end replacing

end KeyLayout.Text
