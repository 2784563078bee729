/-
The parent of a path.

What means nothing at the end of a path is its `Slack`: slashes, each alone or with a single
dot behind it.  Every other path ends in a part that means something (`Ends`), with slack
behind it.  Taking that part away, together with the slack on both sides of it, leaves the
parent (`ParentOf`).

* `parent?_eq_none_iff`: paths without a parent are slack altogether;
* `parent?_eq_some_iff`: which parent any other path has;
* `UpFrom`: where the parents of a path lead to, one after the other;
* `beside_iff`: a path that starts from where another file is;
* `isText_beside`: it is a text if the path of the other file is one.
-/
import KeyLayout.FilePath
import KeyLayout.Proofs.Text.Pieces
import KeyLayout.Proofs.Text.Raw

namespace KeyLayout.FilePath

open Text

/-- What means nothing at the end of a path. -/
inductive Slack : List UInt8 → Prop
  | nil : Slack []
  | slash {rest : List UInt8} (h : Slack rest) : Slack (slash :: rest)
  | dot {rest : List UInt8} (h : Slack rest) : Slack (slash :: dot :: rest)

/-- A part of a path that means something behind a slash. -/
structure Meaningful (name : List UInt8) : Prop where
  ne_nil : name ≠ []
  no_slash : slash ∉ name
  ne_dot : name ≠ [dot]

/-- A path that ends in a part that means something; a dot does so only when it stands alone. -/
inductive Ends : List UInt8 → Prop
  | alone {name : List UInt8} (hne : name ≠ []) (hslash : slash ∉ name) : Ends name
  | behind {front name : List UInt8} (hname : Meaningful name) : Ends (front ++ slash :: name)

/-- `ParentOf parent path`: the parent is the path without its last part and the slack around
that part; of a root with its slack, one slash stays. -/
inductive ParentOf : List UInt8 → List UInt8 → Prop
  | alone {name tail : List UInt8} (hne : name ≠ []) (hslash : slash ∉ name) (htail : Slack tail) :
      ParentOf [] (name ++ tail)
  | root {gap name tail : List UInt8} (hgap : Slack gap) (hname : Meaningful name)
      (htail : Slack tail) : ParentOf [slash] (gap ++ slash :: name ++ tail)
  | below {parent gap name tail : List UInt8} (hparent : Ends parent) (hgap : Slack gap)
      (hname : Meaningful name) (htail : Slack tail) :
      ParentOf parent (parent ++ gap ++ slash :: name ++ tail)

/-! ### Parts -/

/-- The parts of a path that is given by its bytes. -/
def partsOf (text : List UInt8) : List Part := partsFrom [] true (Text.pieces slash text)

theorem partsFrom_cons (before : List UInt8) (first : Bool) (name : List UInt8)
    (names : List (List UInt8)) :
    partsFrom before first (name :: names) =
      (if name.isEmpty || (name == [dot] && !first) then [] else [⟨name, before ++ name⟩]) ++
        partsFrom (before ++ name ++ [slash]) false names := by
  rw [partsFrom]
  split <;> rfl

theorem partsFrom_append (before : List UInt8) (first : Bool) {names : List (List UInt8)}
    (h : names ≠ []) (more : List (List UInt8)) :
    partsFrom before first (names ++ more) = partsFrom before first names ++
      partsFrom (before ++ joinWith [slash] names ++ [slash]) false more := by
  induction names generalizing before first with
  | nil => exact absurd rfl h
  | cons name names ih =>
    have hrest : partsFrom (before ++ name ++ [slash]) false (names ++ more) =
        partsFrom (before ++ name ++ [slash]) false names ++
          partsFrom (before ++ joinWith [slash] (name :: names) ++ [slash]) false more := by
      cases names with
      | nil => rfl
      | cons next names =>
        rw [ih _ _ (List.cons_ne_nil _ _), joinWith_cons_cons]
        simp
    rw [List.cons_append, partsFrom_cons, partsFrom_cons, hrest]
    exact (List.append_assoc _ _ _).symm

theorem partsOf_append_slash (front rest : List UInt8) :
    partsOf (front ++ slash :: rest) =
      partsOf front ++ partsFrom (front ++ [slash]) false (Text.pieces slash rest) := by
  rw [partsOf, pieces_append_sep, partsFrom_append _ _ (pieces_ne_nil _ front), joinWith_pieces]
  rfl

/-- A last part that means something is one more part. -/
theorem partsOf_behind (front : List UInt8) {name : List UInt8} (h : Meaningful name) :
    partsOf (front ++ slash :: name) = partsOf front ++ [⟨name, front ++ slash :: name⟩] := by
  rw [partsOf_append_slash, pieces_of_not_mem h.no_slash, partsFrom_cons, if_neg, partsFrom]
  · simp
  · simp [h.ne_nil, h.ne_dot]

theorem partsOf_alone {name : List UInt8} (hne : name ≠ []) (hslash : slash ∉ name) :
    partsOf name = [⟨name, name⟩] := by
  rw [partsOf, pieces_of_not_mem hslash, partsFrom_cons, if_neg, partsFrom]
  · rfl
  · simp [hne]

/-- Slack adds no parts. -/
theorem partsOf_slack (text : List UInt8) {tail : List UInt8} (h : Slack tail) :
    partsOf (text ++ tail) = partsOf text := by
  induction h generalizing text with
  | nil => rw [List.append_nil]
  | @slash rest _ ih =>
    have hone : partsOf (text ++ [slash]) = partsOf text := by
      rw [partsOf_append_slash]
      exact List.append_nil _
    rw [← List.singleton_append, ← List.append_assoc, ih, hone]
  | @dot rest _ ih =>
    have hone : partsOf (text ++ [slash, dot]) = partsOf text := by
      rw [partsOf_append_slash]
      exact List.append_nil _
    have hsplit : text ++ slash :: dot :: rest = text ++ [slash, dot] ++ rest := by simp
    rw [hsplit, ih, hone]

theorem Slack.partsOf {text : List UInt8} (h : Slack text) : partsOf text = [] :=
  partsOf_slack [] h

theorem Ends.partsOf {text : List UInt8} (h : Ends text) :
    ∃ before name, partsOf text = before ++ [⟨name, text⟩] := by
  cases h with
  | alone hne hslash => exact ⟨[], _, partsOf_alone hne hslash⟩
  | behind hname => exact ⟨_, _, partsOf_behind _ hname⟩

/-! ### The two kinds of paths -/

theorem Slack.append {text rest : List UInt8} (h : Slack text) (hrest : Slack rest) :
    Slack (text ++ rest) := by
  induction h with
  | nil => exact hrest
  | slash _ ih => exact .slash ih
  | dot _ ih => exact .dot ih

/-- A text with a slash can be cut at its last slash. -/
theorem exists_last_slash {text : List UInt8} (h : slash ∈ text) :
    ∃ front name, text = front ++ slash :: name ∧ slash ∉ name := by
  obtain ⟨back, front, hsplit, hback⟩ := List.eq_append_cons_of_mem (List.mem_reverse.mpr h)
  refine ⟨front.reverse, back.reverse, ?_, by simpa using hback⟩
  rw [← List.reverse_reverse text, hsplit, List.reverse_append, List.reverse_cons,
    List.append_assoc, List.singleton_append]

/-- A path is slack altogether, or it ends in a part with slack behind it. -/
theorem slack_or_ends (text : List UInt8) :
    Slack text ∨ ∃ front tail, text = front ++ tail ∧ Ends front ∧ Slack tail := by
  induction hn : text.length using Nat.strongRecOn generalizing text with
  | _ n ih =>
    subst hn
    by_cases hslash : slash ∈ text
    · obtain ⟨front, name, rfl, hname⟩ := exists_last_slash hslash
      by_cases hmeaning : name = [] ∨ name = [dot]
      · -- the text before the last slash decides
        have hslack : Slack (slash :: name) := by
          rcases hmeaning with rfl | rfl
          · exact .slash .nil
          · exact .dot .nil
        rcases ih front.length (by simp) front rfl with hfront | ⟨front, tail, rfl, hends, htail⟩
        · exact .inl (hfront.append hslack)
        · exact .inr ⟨front, _, List.append_assoc _ _ _, hends, htail.append hslack⟩
      · rw [not_or] at hmeaning
        exact .inr ⟨_, [], (List.append_nil _).symm,
          .behind ⟨hmeaning.1, hname, hmeaning.2⟩, .nil⟩
    · rcases Decidable.em (text = []) with rfl | hne
      · exact .inl .nil
      · exact .inr ⟨text, [], (List.append_nil _).symm, .alone hne hslash, .nil⟩

/-- A path is slack altogether, or it has a parent. -/
theorem slack_or_exists_parent (text : List UInt8) :
    Slack text ∨ ∃ parent, ParentOf parent text := by
  rcases slack_or_ends text with h | ⟨path, tail, rfl, hpath, htail⟩
  · exact .inl h
  · refine .inr ?_
    cases hpath with
    | alone hne hslash => exact ⟨[], .alone hne hslash htail⟩
    | @behind front name hname =>
      rcases slack_or_ends front with hgap | ⟨parent, gap, rfl, hparent, hgap⟩
      · exact ⟨[slash], .root hgap hname htail⟩
      · exact ⟨parent, .below hparent hgap hname htail⟩

/-! ### The parent -/

theorem parent?_of_slack {path : FilePath} (h : Slack path.bytes) : parent? path = none := by
  have hparts : parts path = [] := h.partsOf
  rw [parent?, hparts]
  rfl

theorem isAbsolute_of_slack {path : FilePath} {gap rest : List UInt8} (hgap : Slack gap)
    (hpath : path.bytes = gap ++ slash :: rest) : isAbsolute path = true := by
  rw [isAbsolute, hpath]
  cases hgap <;> rfl

theorem isAbsolute_of_alone {path : FilePath} {name tail : List UInt8} (hne : name ≠ [])
    (hslash : slash ∉ name) (hpath : path.bytes = name ++ tail) : isAbsolute path = false := by
  rw [isAbsolute, hpath]
  obtain ⟨c, rest, rfl⟩ := List.exists_cons_of_ne_nil hne
  simp only [List.mem_cons, not_or] at hslash
  simpa using Ne.symm hslash.1

theorem ParentOf.parent? {parent path : List UInt8} (h : ParentOf parent path) :
    parent? ⟨path⟩ = some ⟨parent⟩ := by
  cases h with
  | @alone name tail hne hslash htail =>
    have hparts : parts ⟨name ++ tail⟩ = [⟨name, name⟩] :=
      (partsOf_slack name htail).trans (partsOf_alone hne hslash)
    rw [FilePath.parent?, hparts, isAbsolute_of_alone hne hslash rfl]
    rfl
  | @root gap name tail hgap hname htail =>
    have hparts : parts ⟨gap ++ slash :: name ++ tail⟩ = [⟨name, gap ++ slash :: name⟩] := by
      refine (partsOf_slack _ htail).trans ?_
      rw [partsOf_behind gap hname, hgap.partsOf, List.nil_append]
    have habsolute : isAbsolute ⟨gap ++ slash :: name ++ tail⟩ = true :=
      isAbsolute_of_slack hgap (List.append_assoc gap (slash :: name) tail)
    rw [FilePath.parent?, hparts, habsolute]
    rfl
  | @below parent gap name tail hparent hgap hname htail =>
    obtain ⟨before, last, hends⟩ := hparent.partsOf
    have hparts : parts ⟨parent ++ gap ++ slash :: name ++ tail⟩ =
        before ++ [⟨last, parent⟩] ++ [⟨name, parent ++ gap ++ slash :: name⟩] := by
      refine (partsOf_slack _ htail).trans ?_
      rw [partsOf_behind _ hname, partsOf_slack parent hgap, hends]
    rw [FilePath.parent?, hparts]
    simp

theorem parent?_eq_some_iff {path parent : FilePath} :
    parent? path = some parent ↔ ParentOf parent.bytes path.bytes := by
  constructor
  · intro h
    rcases slack_or_exists_parent path.bytes with hslack | ⟨other, hother⟩
    · rw [parent?_of_slack hslack] at h
      cases h
    · have hpath := hother.parent?
      rw [h, Option.some_inj] at hpath
      rwa [hpath]
  · exact ParentOf.parent?

theorem parent?_eq_none_iff {path : FilePath} : parent? path = none ↔ Slack path.bytes := by
  constructor
  · intro h
    rcases slack_or_exists_parent path.bytes with hslack | ⟨parent, hparent⟩
    · exact hslack
    · have hpath := hparent.parent?
      rw [h] at hpath
      cases hpath
  · exact parent?_of_slack

theorem ParentOf.unique {parent other path : List UInt8} (h : ParentOf parent path)
    (hother : ParentOf other path) : parent = other := by
  have hparent := h.parent?
  rw [hother.parent?, Option.some_inj] at hparent
  exact (congrArg RawText.bytes hparent).symm

example : parent? "a/./b//./" = some "a" := by decide

/-! ### Going up -/

/-- `UpFrom path above`: going up from the path, from parent to parent, leads to the other path. -/
inductive UpFrom : FilePath → FilePath → Prop
  | here (path : FilePath) : UpFrom path path
  | parent {path parent above : FilePath} (h : parent? path = some parent)
      (hmore : UpFrom parent above) : UpFrom path above

theorem trimEnd_of_last {path : FilePath} {c : UInt8} (h : path.bytes.getLast? = some c)
    (hc : c ≠ slash) : trimEnd path = path := by
  obtain ⟨before, hpath⟩ := List.getLast?_eq_some_iff.mp h
  have hlast : ((before ++ [c]).reverse.dropWhile (· == slash)).reverse = before ++ [c] := by
    rw [List.reverse_append, List.reverse_singleton, List.singleton_append,
      List.dropWhile_cons_of_neg (by simpa using hc)]
    simp
  rw [trimEnd, hpath, hlast]
  split
  · simp_all
  · rw [← hpath]

/-! ### Beside a file -/

/-- `Beside path name file`: `file` is what `name` stands for in the directory of the file at
`path`. -/
inductive Beside (path name : FilePath) : FilePath → Prop
  | absolute (h : name.bytes.head? = some slash) : Beside path name name
  /-- The file is in no directory that its path mentions. -/
  | alone (h : ∀ parent, ParentOf parent path.bytes → parent = []) : Beside path name name
  | behindSlash {parent : List UInt8} (hname : name.bytes.head? ≠ some slash)
      (hparent : ParentOf parent path.bytes) (hslash : parent.getLast? = some slash) :
      Beside path name ⟨parent ++ name.bytes⟩
  | behind {parent : List UInt8} (hname : name.bytes.head? ≠ some slash)
      (hparent : ParentOf parent path.bytes) (hne : parent ≠ [])
      (hslash : parent.getLast? ≠ some slash) :
      Beside path name ⟨parent ++ slash :: name.bytes⟩

variable {path name file : FilePath}

theorem join_of_absolute (h : name.bytes.head? = some slash) (base : FilePath) :
    join base name = name := by
  rw [join, isAbsolute, h]
  rfl

theorem join_empty (name : FilePath) : join "" name = name := by
  have hempty : RawText.isEmpty "" = true := rfl
  simp [join, hempty]

theorem join_of_relative {base : List UInt8} (h : name.bytes.head? ≠ some slash) (hne : base ≠ []) :
    join ⟨base⟩ name =
      ⟨base ++ if base.getLast? = some slash then name.bytes else slash :: name.bytes⟩ := by
  have habsolute : isAbsolute name = false := by simpa [isAbsolute] using h
  have hempty : RawText.isEmpty ⟨base⟩ = false := by simpa [RawText.isEmpty] using hne
  rw [join, habsolute, hempty]
  by_cases hslash : base.getLast? = some slash <;> simp [hslash]

theorem Beside.eq_join (h : Beside path name file) : file = join ((parent? path).getD "") name := by
  cases h with
  | absolute h => exact (join_of_absolute h _).symm
  | alone h =>
    have hparent : (parent? path).getD "" = "" := by
      rcases hpath : parent? path with _ | parent
      · rfl
      · exact congrArg RawText.mk (h _ (parent?_eq_some_iff.mp hpath))
    rw [hparent, join_empty]
  | @behindSlash parent hname hparent hslash =>
    have hne : parent ≠ [] := by
      rintro rfl
      cases hslash
    have hpath := hparent.parent?
    rw [hpath, Option.getD_some, join_of_relative hname hne, if_pos hslash]
  | @behind parent hname hparent hne hslash =>
    have hpath := hparent.parent?
    rw [hpath, Option.getD_some, join_of_relative hname hne, if_neg hslash]

theorem beside_join (path name : FilePath) :
    Beside path name (join ((parent? path).getD "") name) := by
  by_cases hname : name.bytes.head? = some slash
  · rw [join_of_absolute hname]
    exact .absolute hname
  rcases hpath : parent? path with _ | parent
  · rw [Option.getD_none, join_empty]
    refine .alone fun parent hparent => ?_
    have hsome := hparent.parent?
    rw [hpath] at hsome
    cases hsome
  have hparent := parent?_eq_some_iff.mp hpath
  rw [Option.getD_some]
  by_cases hne : parent.bytes = []
  · obtain rfl : parent = "" := congrArg RawText.mk hne
    rw [join_empty]
    exact .alone fun other hother => hother.unique hparent
  · rw [join_of_relative hname hne]
    split
    · rename_i hslash
      exact .behindSlash hname hparent hslash
    · rename_i hslash
      exact .behind hname hparent hne hslash

/-- A path that starts from a file is joined to the parent of the file, if there is one. -/
theorem beside_iff : Beside path name file ↔ file = join ((parent? path).getD "") name := by
  constructor
  · exact Beside.eq_join
  · rintro rfl
    exact beside_join path name

/-! ### Paths that are texts -/

theorem written_eq_ok {s : String} : path.written = .ok s ↔ path = .ofString s := by
  rw [FilePath.written, ← RawText.text?_eq_some_iff]
  cases path.text? <;> simp

theorem isText_parent {parent : FilePath} (hpath : path.IsText) (h : parent? path = some parent) :
    parent.IsText := by
  have hparent := parent?_eq_some_iff.mp h
  obtain ⟨bytes⟩ := path
  obtain ⟨parent⟩ := parent
  cases hparent with
  | alone => exact RawText.isText_ofString ""
  | root => exact RawText.isText_ofString "/"
  | @below _ gap name tail _ hgap =>
    -- a slash stands right behind the parent
    cases hgap with
    | nil | slash | dot => exact .of_append (b := slash) rfl (by simpa using hpath)

theorem isText_join {base : FilePath} (hbase : base.IsText) (hname : name.IsText) :
    (join base name).IsText := by
  rw [join]
  split
  · exact hname
  · split
    · exact hbase.append hname
    · exact hbase.append ((RawText.isText_ofString "/").append hname)

/-- What a text stands for in the directory of a file is a text if the path of the file is. -/
theorem isText_beside (hpath : path.IsText) (hname : name.IsText) :
    (join ((parent? path).getD "") name).IsText := by
  refine isText_join ?_ hname
  rcases h : parent? path with _ | parent
  · exact RawText.isText_ofString ""
  · exact isText_parent hpath h

end KeyLayout.FilePath
