/-
Reading tables that were written one after the other.

A table is written as its header and a line for each of its entries (`Group`), and tables are
separated by an empty line.  Tables of different names whose lines give different keys are read
as what was written (`tree_documentText`).  The reader is followed line by line: `Leads` says
where it gets from some point of a document, and each kind of line has a lemma
(`Leads.header`, `Leads.line`, `Leads.newline`).
-/
import Mathlib.Data.List.TakeDrop
import Mathlib.Data.List.TakeWhile
import KeyLayout.Proofs.Document.Holding
import KeyLayout.Proofs.Text.Pieces
import KeyLayout.Proofs.Toml.Quote
import KeyLayout.Toml.Reader

namespace KeyLayout.Toml

open Document

/-- A key that needs no quotes. -/
structure BareKey (name : List Char) : Prop where
  ne_nil : name ≠ []
  bare : ∀ c ∈ name, inBareKey c = true

theorem bareKey_iff {name : List Char} :
    (!name.isEmpty && name.all inBareKey) = true ↔ BareKey name := by
  simp only [Bool.and_eq_true, Bool.not_eq_true', List.isEmpty_eq_false_iff, List.all_eq_true]
  exact ⟨fun h => ⟨h.1, h.2⟩, fun h => ⟨h.1, h.2⟩⟩

instance (name : List Char) : Decidable (BareKey name) := decidable_of_iff _ bareKey_iff

/-- A line that gives a value to a key. -/
structure Line where
  name : String
  value : List Char
  node : Node

def Line.text (line : Line) : List Char :=
  line.name.toList ++ ' ' :: '=' :: ' ' :: (line.value ++ ['\n'])

/-- The value of a line is read up to the end of the line. -/
structure Line.Reads (line : Line) : Prop where
  name : BareKey line.name.toList
  start : ∀ rest, skipSpace (line.value ++ rest) = line.value ++ rest
  value : ∀ bound rest, readValue (bound + 1) depthLimit (line.value ++ '\n' :: rest) =
    .ok (line.node, '\n' :: rest)

/-- A table with its name and its lines. -/
structure Group where
  name : String
  lines : List Line

def Group.text (group : Group) : List Char :=
  '[' :: (group.name.toList ++ ']' :: '\n' :: group.lines.flatMap Line.text)

structure Group.Reads (group : Group) : Prop where
  name : BareKey group.name.toList
  lines : ∀ line ∈ group.lines, line.Reads
  nodup : (group.lines.map Line.name).Nodup

/-- Tables with an empty line between neighbours. -/
def documentText (groups : List Group) : List Char :=
  Text.joinWith ['\n'] (groups.map Group.text)

/-! ### Keys -/

variable {name rest text : List Char} {p : Progress} {node : Node} {c : Char}

theorem skipSpace_of_ne (hspace : c ≠ ' ') (htab : c ≠ '\t') (rest : List Char) :
    skipSpace (c :: rest) = c :: rest := by
  simp [skipSpace, hspace, htab]

theorem skipSpace_bare (hc : inBareKey c = true) (rest : List Char) :
    skipSpace (c :: rest) = c :: rest := by
  refine skipSpace_of_ne ?_ ?_ rest
  · rintro rfl
    exact absurd hc (by decide)
  · rintro rfl
    exact absurd hc (by decide)

theorem readKey_bare (hname : BareKey name) (hc : inBareKey c = false) (rest : List Char) :
    readKey (name ++ c :: rest) = .ok (String.ofList name, c :: rest) := by
  have hspan : (name ++ c :: rest).span inBareKey = (name, c :: rest) := by
    rw [List.span_eq_takeWhile_dropWhile, List.takeWhile_append_of_pos hname.bare,
      List.dropWhile_append_of_pos hname.bare, List.takeWhile_cons_of_neg (by simp [hc]),
      List.dropWhile_cons_of_neg (by simp [hc]), List.append_nil]
  obtain ⟨d, more, rfl⟩ := List.exists_cons_of_ne_nil hname.ne_nil
  have hd := hname.bare d List.mem_cons_self
  rw [readKey.eq_def]
  split
  · rename_i heq
    cases heq
    exact absurd hd (by decide)
  · rename_i heq
    cases heq
    exact absurd hd (by decide)
  · rw [hspan]
    rfl

/-- A bare key without a dot behind it is a whole path. -/
theorem readPath_bare (hname : BareKey name) (hc : inBareKey c = false)
    (hnext : ∀ more, skipSpace (c :: rest) ≠ '.' :: more) :
    readPath (name ++ c :: rest) =
      .ok (⟨[], String.ofList name⟩, skipSpace (c :: rest)) := by
  have hstart : skipSpace (name ++ c :: rest) = name ++ c :: rest := by
    obtain ⟨d, more, rfl⟩ := List.exists_cons_of_ne_nil hname.ne_nil
    exact skipSpace_bare (hname.bare d List.mem_cons_self) _
  rw [readPath, readPathWithin, hstart, readKey_bare hname hc, ok_bind]
  dsimp only
  split
  · exact absurd ‹_› (hnext _)
  · rfl

/-! ### Lines -/

/-- From some point of a document the reader gets to a node. -/
def Leads (p : Progress) (text : List Char) (node : Node) : Prop :=
  ∀ bound, text.length < bound → readDocument bound p text = .ok node

theorem Leads.nil (p : Progress) : Leads p [] p.entries.node := by
  intro bound hbound
  obtain ⟨bound, rfl⟩ := Nat.exists_eq_add_of_lt hbound
  rw [readDocument]
  rfl

/-- An empty line means nothing. -/
theorem Leads.newline (h : Leads p text node) : Leads p ('\n' :: text) node := by
  intro bound hbound
  rw [← h bound (by simp at hbound; omega)]
  cases bound with
  | zero => exact absurd hbound (Nat.not_lt_zero _)
  | succ bound => rfl

theorem skipComment_of_ne (hcomment : c ≠ '#') (rest : List Char) :
    skipComment (c :: rest) = .ok (c :: rest) := by
  rw [skipComment.eq_def]
  split
  · rename_i heq
    exact absurd (List.cons.inj heq).1 hcomment
  · rfl

/-- A character with which an expression may start. -/
def Starts (c : Char) : Prop := c = '[' ∨ inBareKey c = true

theorem skipGap_starts (hc : Starts c) (rest : List Char) :
    skipGap (c :: rest) = .ok (c :: rest) := by
  have hne : ∀ d, ¬ Starts d → c ≠ d := fun d hd h => hd (h ▸ hc)
  rw [skipGap, skipLines, skipSpace_of_ne (hne ' ' (by simp +decide [Starts]))
    (hne '\t' (by simp +decide [Starts])), skipComment_of_ne (hne '#' (by simp +decide [Starts])),
    ok_bind, takeLineEnd?_of_ne (hne '\n' (by simp +decide [Starts]))
      (hne '\r' (by simp +decide [Starts]))]
  rfl

theorem openHeader_of_openTable {name : String} {entries : Entries}
    (h : p.entries.openTable [] name = some entries) (rest : List Char) :
    openHeader p ⟨[], name⟩ false rest = .ok ⟨entries, [name]⟩ := by
  simp [openHeader, h]

theorem readHeader_bare {entries : Entries} (hname : BareKey name)
    (hopen : p.entries.openTable [] (String.ofList name) = some entries) (rest : List Char) :
    readHeader p ('[' :: (name ++ ']' :: rest)) = .ok (⟨entries, [String.ofList name]⟩, rest) := by
  have hpath : readPath (name ++ ']' :: rest) = .ok (⟨[], String.ofList name⟩, ']' :: rest) :=
    readPath_bare hname (by decide) (by simp [skipSpace])
  obtain ⟨d, more, rfl⟩ := List.exists_cons_of_ne_nil hname.ne_nil
  have hd : d ≠ '[' := by
    rintro rfl
    exact absurd (hname.bare _ List.mem_cons_self) (by decide)
  rw [List.cons_append] at hpath ⊢
  rw [readHeader]
  · rw [hpath, ok_bind]
    exact congrArg (· >>= fun p => pure (p, rest)) (openHeader_of_openTable hopen rest)
  · simpa using hd

theorem Leads.header {entries : Entries} (hname : BareKey name)
    (hopen : p.entries.openTable [] (String.ofList name) = some entries)
    (h : Leads ⟨entries, [String.ofList name]⟩ rest node) :
    Leads p ('[' :: (name ++ ']' :: '\n' :: rest)) node := by
  intro bound hbound
  cases bound with
  | zero => exact absurd hbound (Nat.not_lt_zero _)
  | succ bound =>
    rw [readDocument, skipGap_starts (.inl rfl), ok_bind]
    dsimp only
    rw [readHeader_bare hname hopen, ok_bind]
    refine h bound ?_
    simp at hbound
    omega

theorem readEntry_line {line : Line} {entries : Entries} (hline : line.Reads)
    (hput : p.entries.under (Entries.putAt [] line.name line.node) p.opened = some entries)
    (rest : List Char) :
    readEntry p (line.text ++ rest) = .ok (⟨entries, p.opened⟩, '\n' :: rest) := by
  have htext : line.text ++ rest =
      line.name.toList ++ ' ' :: '=' :: ' ' :: (line.value ++ '\n' :: rest) := by
    simp [Line.text]
  have hkeys : readKeys (line.text ++ rest) =
      .ok (⟨[], line.name⟩, line.value ++ '\n' :: rest) := by
    have hpath := readPath_bare hline.name (show inBareKey ' ' = false by decide)
      (show ∀ more, skipSpace (' ' :: '=' :: ' ' :: (line.value ++ '\n' :: rest)) ≠ '.' :: more by
        simp [skipSpace])
    rw [readKeys, htext, hpath, ok_bind, String.ofList_toList]
    exact congrArg (fun rest => Except.ok (_, rest)) (hline.start _)
  rw [readEntry, hkeys, ok_bind]
  dsimp only
  rw [hline.value, ok_bind]
  dsimp only
  rw [hput]
  rfl

theorem Leads.line {line : Line} {entries : Entries} (hline : line.Reads)
    (hput : p.entries.under (Entries.putAt [] line.name line.node) p.opened = some entries)
    (h : Leads ⟨entries, p.opened⟩ rest node) : Leads p (line.text ++ rest) node := by
  intro bound hbound
  have hentry := readEntry_line hline hput rest
  have hlength : rest.length < (line.text ++ rest).length := by
    simp [Line.text]
    omega
  obtain ⟨c, more, hname⟩ := List.exists_cons_of_ne_nil hline.name.ne_nil
  have hc : inBareKey c = true := hline.name.bare c (hname ▸ List.mem_cons_self)
  obtain ⟨tail, htail⟩ : ∃ tail, line.text ++ rest = c :: tail := by
    rw [Line.text, hname]
    exact ⟨_, rfl⟩
  cases bound with
  | zero => exact absurd hbound (Nat.not_lt_zero _)
  | succ bound =>
    rw [htail] at hentry ⊢
    rw [readDocument, skipGap_starts (.inr hc), ok_bind]
    split
    · cases ‹_›
    · rename_i heq
      cases heq
      exact absurd hc (by decide)
    · rw [hentry, ok_bind]
      refine h bound ?_
      omega

/-! ### Values -/

/-- A line for a text. -/
def Line.ofText (name s : String) : Line := ⟨name, (quote s).toList, .ofScalar (.text s)⟩

/-- A line for a truth value. -/
def Line.ofBool (name : String) (b : Bool) : Line :=
  ⟨name, (toString b).toList, .ofScalar (.bool b)⟩

theorem quote_starts (s : String) : ∃ c more, (quote s).toList = c :: more ∧ IsQuote c := by
  rw [quote, String.toList_ofList]
  cases Form.of s.toList with
  | basic => exact ⟨'"', _, rfl, .inl rfl⟩
  | literal => exact ⟨'\'', _, rfl, .inr rfl⟩
  | multilineBasic => exact ⟨'"', _, rfl, .inl rfl⟩
  | multilineLiteral => exact ⟨'\'', _, rfl, .inr rfl⟩

theorem readValue_quote (bound depth : Nat) (s : String) (rest : List Char) :
    readValue (bound + 1) depth ((quote s).toList ++ '\n' :: rest) =
      .ok (.ofScalar (.text s), '\n' :: rest) := by
  have hread : readText? ((quote s).toList ++ '\n' :: rest) = some (.ok (s.toList, '\n' :: rest)) :=
    readText?_quote s (by simp) (by simp)
  obtain ⟨c, more, hquote, hc⟩ := quote_starts s
  rw [hquote, List.cons_append] at hread ⊢
  have hbracket : c ≠ '[' := by rcases hc with rfl | rfl <;> decide
  have hbrace : c ≠ '\x7b' := by rcases hc with rfl | rfl <;> decide
  rw [readValue]
  · rw [hread]
    change Except.ok (Node.ofScalar (.text (String.ofList s.toList)), '\n' :: rest) = _
    rw [String.ofList_toList]
  all_goals simp [hbracket, hbrace]

theorem Line.ofText_reads {name : String} (hname : BareKey name.toList) (s : String) :
    (ofText name s).Reads where
  name := hname
  start rest := by
    obtain ⟨c, more, hquote, hc⟩ := quote_starts s
    rw [ofText, hquote, List.cons_append]
    rcases hc with rfl | rfl <;> rfl
  value bound rest := by
    dsimp only [ofText]
    exact readValue_quote bound depthLimit s rest

theorem Line.ofBool_reads {name : String} (hname : BareKey name.toList) (b : Bool) :
    (ofBool name b).Reads where
  name := hname
  start rest := by cases b <;> rfl
  value bound rest := by cases b <;> rfl

/-! ### Tables -/

/-- The entries that lines make. -/
def lineEntries (lines : List Line) : Entries := lines.map fun line => (line.name, .value line.node)

/-- The entries that tables with headers make. -/
def groupEntries (groups : List Group) : Entries :=
  groups.map fun group => (group.name, .table .header (lineEntries group.lines))

section tables

variable {before : Entries} {key : String} {done more : List Line}

theorem not_mem_of_nodup_append {α : Type} {name : α → String} {xs ys : List α} {x : α}
    (h : ((xs ++ x :: ys).map name).Nodup) : name x ∉ xs.map name := by
  rw [List.map_append, List.map_cons] at h
  exact fun hmem => (List.nodup_append.mp h).2.2 _ hmem _ List.mem_cons_self rfl

/-- What stands under a new name is put at the end. -/
theorem change_append {entries : Entries} (h : key ∉ entries.map Prod.fst)
    (f : Option Entry → Option Entry) (more : Entries) :
    (entries ++ more).change key f = (more.change key f).map (entries ++ ·) := by
  induction entries with
  | nil => simp
  | cons entry entries ih =>
    rw [List.map_cons, List.mem_cons, not_or] at h
    obtain ⟨other, held⟩ := entry
    rw [List.cons_append, Entries.change, if_neg (Ne.symm h.1), ih h.2, Option.map_map]
    rfl

theorem under_line (hkey : key ∉ before.map Prod.fst) {line : Line}
    (hline : line.name ∉ done.map Line.name) :
    Entries.under (Entries.putAt [] line.name line.node) [key]
      (before ++ [(key, .table .header (lineEntries done))]) =
        some (before ++ [(key, .table .header (lineEntries (done ++ [line])))]) := by
  have hdone : line.name ∉ (lineEntries done).map Prod.fst := by
    simpa [lineEntries, Function.comp_def] using hline
  have hput : Entries.put line.name line.node (lineEntries done) =
      some (lineEntries (done ++ [line])) := by
    rw [Entries.put, ← List.append_nil (lineEntries done), change_append hdone]
    simp [Entries.change, lineEntries]
  rw [Entries.under, change_append hkey]
  simp [Entries.change, Entries.under, Entries.putAt, hput]

/-- Lines add their entries to the table that is open. -/
theorem Leads.lines (hkey : key ∉ before.map Prod.fst) (hreads : ∀ line ∈ more, line.Reads)
    (hnodup : ((done ++ more).map Line.name).Nodup)
    (h : Leads ⟨before ++ [(key, .table .header (lineEntries (done ++ more)))], [key]⟩ rest node) :
    Leads ⟨before ++ [(key, .table .header (lineEntries done))], [key]⟩
      (more.flatMap Line.text ++ rest) node := by
  induction more generalizing done with
  | nil => simpa using h
  | cons line more ih =>
    have hline : line.name ∉ done.map Line.name := not_mem_of_nodup_append hnodup
    have hsplit : done ++ line :: more = done ++ [line] ++ more := by simp
    rw [hsplit] at hnodup h
    rw [List.flatMap_cons, List.append_assoc]
    exact .line (hreads line List.mem_cons_self) (under_line hkey hline)
      (ih (fun l hl => hreads l (List.mem_cons_of_mem _ hl)) hnodup h)

/-- A table adds its entries under its name. -/
theorem Leads.group {groups : List Group} {group : Group} {opened : List String}
    (hgroup : group.Reads) (hname : group.name ∉ groups.map Group.name)
    (h : Leads ⟨groupEntries (groups ++ [group]), [group.name]⟩ rest node) :
    Leads ⟨groupEntries groups, opened⟩ (group.text ++ rest) node := by
  have hkey : group.name ∉ (groupEntries groups).map Prod.fst := by
    simpa [groupEntries, Function.comp_def] using hname
  have hopen : Entries.openTable [] group.name (groupEntries groups) =
      some (groupEntries groups ++ [(group.name, .table .header (lineEntries []))]) := by
    rw [Entries.openTable, Entries.under, ← List.append_nil (groupEntries groups),
      change_append hkey]
    simp [Entries.change, lineEntries]
  have hlines : Leads ⟨groupEntries groups ++ [(group.name, .table .header (lineEntries []))],
      [group.name]⟩ (group.lines.flatMap Line.text ++ rest) node := by
    refine .lines hkey hgroup.lines hgroup.nodup ?_
    simpa [groupEntries] using h
  have htext : group.text ++ rest =
      '[' :: (group.name.toList ++ ']' :: '\n' :: (group.lines.flatMap Line.text ++ rest)) := by
    simp [Group.text]
  rw [htext]
  exact .header hgroup.name (by rwa [String.ofList_toList]) (by rwa [String.ofList_toList])

theorem Leads.groups {done groups : List Group} (hreads : ∀ group ∈ groups, group.Reads)
    (hnodup : ((done ++ groups).map Group.name).Nodup) (opened : List String) :
    Leads ⟨groupEntries done, opened⟩ (documentText groups)
      (groupEntries (done ++ groups)).node := by
  induction groups generalizing done opened with
  | nil =>
    rw [List.append_nil]
    exact .nil _
  | cons group groups ih =>
    have hname : group.name ∉ done.map Group.name := not_mem_of_nodup_append hnodup
    have hsplit : done ++ group :: groups = done ++ [group] ++ groups := by simp
    rw [hsplit] at hnodup ⊢
    have hmore := ih (fun g hg => hreads g (List.mem_cons_of_mem _ hg)) hnodup [group.name]
    have hgroup := hreads group List.mem_cons_self
    cases groups with
    | nil =>
      rw [documentText, List.map_singleton, Text.joinWith, ← List.append_nil group.text]
      exact .group hgroup hname hmore
    | cons next groups =>
      rw [documentText, List.map_cons, List.map_cons, Text.joinWith_cons_cons]
      exact .group hgroup hname hmore.newline

end tables

/-- Tables that were written one after the other are read as they were written. -/
theorem tree_documentText {groups : List Group} (hreads : ∀ group ∈ groups, group.Reads)
    (hnodup : (groups.map Group.name).Nodup) :
    tree (documentText groups) = .ok (groupEntries groups).node := by
  have hall : (([] ++ groups).map Group.name).Nodup := hnodup
  have hleads := Leads.groups hreads hall []
  have hread := hleads _ (Nat.lt_succ_self _)
  have hmark : ∀ rest, documentText groups ≠ '\ufeff' :: rest := by
    cases groups with
    | nil => simp [documentText, Text.joinWith]
    | cons group groups => cases groups <;> simp [documentText, Text.joinWith, Group.text]
  rw [tree.eq_def]
  dsimp only
  split
  · exact absurd ‹_› (hmark _)
  · exact hread

theorem entryNodes_lines (lines : List Line) :
    entryNodes (lineEntries lines) = lines.map fun line => (line.name, line.node) := by
  induction lines with
  | nil => rfl
  | cons line lines ih => exact congrArg (_ :: ·) ih

/-- Tables as a node. -/
theorem node_groups (groups : List Group) : (groupEntries groups).node =
    .ofMembers (groups.map fun group => (group.name,
      .ofMembers (group.lines.map fun line => (line.name, line.node)) .withEmpty)) .withEmpty := by
  have hnodes : entryNodes (groupEntries groups) = groups.map fun group => (group.name,
      .ofMembers (group.lines.map fun line => (line.name, line.node)) .withEmpty) := by
    induction groups with
    | nil => rfl
    | cons group groups ih =>
      rw [List.map_cons, ← ih, ← entryNodes_lines]
      rfl
  rw [Entries.node, hnodes]

end KeyLayout.Toml
