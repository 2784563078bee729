/-
Reading what was written.

`Reads text v` says that the reader turns a text, whatever follows it, into a node that
stands for the value `v`, and stops right behind the text.  It holds of the written form of
every value that can be read (`reads_write`), for any spacing that consists of space.  Lists
and objects are followed part by part: the parts lie between the brackets and commas that
`nextItem` and `nextMember` look for.

A whole document then gives the value it was written from (`document_write`).

Whatever the text is, what holds of its scalars and passes from parts to the whole holds of the
document (`document_of_parts`); so the integers that are read have sixty-four bits
(`document_tame`) and no value has a tag (`document_bare`).
-/
import KeyLayout.Proofs.Document.Shape
import KeyLayout.Proofs.Json.Text

namespace KeyLayout.Json

open KeyLayout.Document KeyLayout.Decimal

/-- A text that may stand between the parts of a document. -/
def Blank (text : List Char) : Prop := ∀ c ∈ text, isSpace c = true

theorem Blank.nil : Blank [] := fun _ hc => absurd hc List.not_mem_nil

/-- Only space is put between the parts. -/
structure Spacing.Blank (sp : Spacing) : Prop where
  lineBreak : ∀ depth, Json.Blank (sp.lineBreak depth)
  gap : Json.Blank sp.gap

theorem Spacing.blank_none : Spacing.none.Blank :=
  ⟨fun depth c hc => by simp [Spacing.none] at hc, fun c hc => by simp [Spacing.none] at hc⟩

theorem Spacing.blank_lines : Spacing.lines.Blank := by
  refine ⟨fun depth c hc => ?_, fun c hc => ?_⟩
  · rcases List.mem_cons.mp hc with rfl | hc
    · decide
    · obtain rfl := List.eq_of_mem_replicate hc
      decide
  · obtain rfl := List.mem_singleton.mp hc
    decide

section Space

variable {space : List Char}

theorem skipSpace_blank (hspace : Blank space) (rest : List Char) (place : Offset) :
    skipSpace place (space ++ rest) = skipSpace (place + space.length) rest := by
  induction space generalizing place with
  | nil => rfl
  | cons c space ih =>
    rw [List.cons_append, skipSpace, if_pos (hspace c List.mem_cons_self),
      ih fun c hc => hspace c (List.mem_cons_of_mem _ hc), List.length_cons, Nat.add_right_comm,
      Nat.add_assoc]

theorem skipSpace_stop {c : Char} (hc : isSpace c = false) (rest : List Char) (place : Offset) :
    skipSpace place (c :: rest) = ⟨place, c :: rest⟩ := by
  rw [skipSpace, hc, if_neg Bool.false_ne_true]

theorem Cursor.skipSpace_blank {c : Char} (hspace : Blank space) (hc : isSpace c = false)
    (rest : List Char) (place : Offset) :
    Cursor.skipSpace ⟨place, space ++ c :: rest⟩ = ⟨place + space.length, c :: rest⟩ := by
  rw [Cursor.skipSpace, Json.skipSpace_blank hspace, skipSpace_stop hc]

theorem Cursor.skipSpace_stop {c : Char} (hc : isSpace c = false) (rest : List Char)
    (place : Offset) : Cursor.skipSpace ⟨place, c :: rest⟩ = ⟨place, c :: rest⟩ :=
  Json.skipSpace_stop hc rest place

/-- Space in front of a value changes nothing but places. -/
theorem readNode_blank {c : Char} (hspace : Blank space) (hc : isSpace c = false) (bound : Nat)
    (rest : List Char) (place : Offset) :
    readNode (bound + 1) ⟨place, space ++ c :: rest⟩ =
      readNode (bound + 1) ⟨place + space.length, c :: rest⟩ := by
  rw [readNode, readNode, Cursor.skipSpace_blank hspace hc, Cursor.skipSpace_stop hc]

theorem EndsNumber.of_isSpace {c : Char} (hc : isSpace c = true) (rest : List Char) :
    EndsNumber (c :: rest) := by
  have hcases : ((c = ' ' ∨ c = '\n') ∨ c = '\t') ∨ c = '\r' := by simpa [isSpace] using hc
  rcases hcases with ((rfl | rfl) | rfl) | rfl <;> exact .cons (by decide) rest

theorem EndsNumber.blank_append (hspace : Blank space) {rest : List Char} (hrest : EndsNumber rest) :
    EndsNumber (space ++ rest) := by
  rcases space with _ | ⟨c, space⟩
  · exact hrest
  · exact .of_isSpace (hspace c List.mem_cons_self) _

end Space

/-- A text that the reader turns into a node for a value, whatever follows it. -/
structure Reads (text : List Char) (v : Value) : Prop where
  head : ∃ c more, text = c :: more ∧ isSpace c = false ∧ c ≠ ']'
  node : ∀ (bound : Nat) (place : Offset) (rest : List Char), text.length ≤ bound + 1 →
    EndsNumber rest →
    ∃ node stop, readNode (bound + 1) ⟨place, text ++ rest⟩ = (node, some ⟨stop, rest⟩) ∧
      node.Holds v

theorem Reads.length_pos {text : List Char} {v : Value} (h : Reads text v) : 0 < text.length := by
  obtain ⟨c, more, rfl, -⟩ := h.head
  exact Nat.succ_pos _

/-- The same with space in front of the text. -/
theorem Reads.run {text space rest : List Char} {v : Value} {bound : Nat} (h : Reads text v)
    (hspace : Blank space) (hbound : text.length ≤ bound) (hrest : EndsNumber rest)
    (place : Offset) :
    ∃ node stop, readNode bound ⟨place, space ++ (text ++ rest)⟩ = (node, some ⟨stop, rest⟩) ∧
      node.Holds v := by
  obtain ⟨c, more, rfl, hc, _⟩ := h.head
  obtain ⟨bound, rfl⟩ : ∃ b, bound = b + 1 :=
    Nat.exists_eq_succ_of_ne_zero (by rw [List.length_cons] at hbound; omega)
  rw [List.cons_append, readNode_blank hspace hc, ← List.cons_append]
  exact h.node bound (place + space.length) rest hbound hrest

section Scalars

theorem reads_null : Reads ['n', 'u', 'l', 'l'] .null where
  head := ⟨'n', _, rfl, by decide, by decide⟩
  node _ _ _ _ _ := ⟨_, _, rfl, .null⟩

theorem reads_true : Reads ['t', 'r', 'u', 'e'] (.bool true) where
  head := ⟨'t', _, rfl, by decide, by decide⟩
  node _ _ _ _ _ := ⟨_, _, rfl, .bool⟩

theorem reads_false : Reads ['f', 'a', 'l', 's', 'e'] (.bool false) where
  head := ⟨'f', _, rfl, by decide, by decide⟩
  node _ _ _ _ _ := ⟨_, _, rfl, .bool⟩

/-- What a number starts with is not mistaken for anything else. -/
theorem number_start {c : Char} (hc : c = '-' ∨ isDigit c = true) :
    isSpace c = false ∧ c ≠ '"' ∧ c ≠ ']' := by
  have hne : ∀ d, isDigit d = false → d ≠ '-' → c ≠ d := by
    rintro d hdigit hminus rfl
    rcases hc with rfl | hc
    · exact hminus rfl
    · simp [hdigit] at hc
  refine ⟨?_, hne _ (by decide) (by decide), hne _ (by decide) (by decide)⟩
  simp [isSpace, hne ' ' (by decide) (by decide), hne '\n' (by decide) (by decide),
    hne '\t' (by decide) (by decide), hne '\r' (by decide) (by decide)]

theorem readNode_number {c : Char} (hc : c = '-' ∨ isDigit c = true) (bound : Nat)
    (place : Offset) (rest : List Char) :
    readNode (bound + 1) ⟨place, c :: rest⟩ = readNumber ⟨place, c :: rest⟩ := by
  obtain ⟨hspace, hquote, _⟩ := number_start hc
  have hstart : (decide (c = '-') || isDigit c) = true := by simpa using hc
  rw [readNode, Cursor.skipSpace_stop hspace]
  dsimp only
  rw [if_neg hquote, if_pos hstart]

/-- A text that is read as a number. -/
theorem reads_number {text : List Char} {x : Scalar} {v : Value}
    (hnode : ∀ span, (Node.scalar x none span).Holds v)
    (h : ∀ (place : Offset) (rest : List Char), EndsNumber rest →
      ∃ span stop, readNumber ⟨place, text ++ rest⟩ = (.scalar x none span, some ⟨stop, rest⟩)) :
    Reads text v := by
  obtain ⟨_, _, halone⟩ := h 0 [] .nil
  obtain ⟨c, hc, hstart⟩ := readNumber_head halone
  rw [List.append_nil] at hc
  obtain ⟨more, rfl⟩ := List.head?_eq_some_iff.mp hc
  constructor
  · obtain ⟨hspace, _, hbracket⟩ := number_start hstart
    exact ⟨c, more, rfl, hspace, hbracket⟩
  · intro bound place rest _ hrest
    obtain ⟨span, stop, hread⟩ := h place rest hrest
    exact ⟨_, stop, (readNode_number hstart bound place _).trans hread, hnode span⟩

theorem reads_intText {n : Int} (hn : fitsBits 64 n = true) : Reads (intText n) (.int n) :=
  reads_number (fun _ => .int) fun place _ hrest => readNumber_intText hn hrest place

theorem reads_floatText {x : Float} (hx : ReadsBack x) : Reads (floatText x) (.float x) := by
  obtain ⟨span, stop, halone⟩ := hx
  exact reads_number (fun _ => .float) fun place _ hrest => readNumber_append halone hrest place

theorem quote_append (s : String) (rest : List Char) :
    quote s ++ rest = '"' :: (s.toList.flatMap quoteChar ++ '"' :: rest) := by
  simp [quote]

theorem reads_quote (s : String) : Reads (quote s) (.text s) where
  head := ⟨'"', _, rfl, by decide, by decide⟩
  node bound place rest _ _ := by
    obtain ⟨stop, hread⟩ := readText_quote s.toList rest (place + 1)
    refine ⟨.scalar (.text s) none (some ⟨place, stop⟩), stop, ?_, .text⟩
    rw [quote_append, readNode, Cursor.skipSpace_stop (by decide)]
    simp [readQuoted, hread]

end Scalars

section Items

variable {space : List Char} {c : Char}

theorem nextItem_end (hspace : Blank space) (rest : List Char) (place : Offset) (first : Bool) :
    nextItem ⟨place, space ++ ']' :: rest⟩ first =
      .inl (.closed (some (place + space.length + 1)), some ⟨place + space.length + 1, rest⟩) := by
  rw [nextItem, Cursor.skipSpace_blank hspace (by decide)]
  rfl

theorem nextItem_first (hspace : Blank space) (hc : isSpace c = false) (hbracket : c ≠ ']')
    (rest : List Char) (place : Offset) :
    nextItem ⟨place, space ++ c :: rest⟩ true = .inr ⟨place + space.length, c :: rest⟩ := by
  rw [nextItem, Cursor.skipSpace_blank hspace hc]
  simp [hbracket]

theorem nextItem_comma (hspace : Blank space) (hc : isSpace c = false) (hbracket : c ≠ ']')
    (rest : List Char) (place : Offset) :
    nextItem ⟨place, ',' :: (space ++ c :: rest)⟩ false =
      .inr ⟨place + 1 + space.length, c :: rest⟩ := by
  rw [nextItem, Cursor.skipSpace_stop (by decide)]
  simp [Cursor.advance, Cursor.skipSpace_blank hspace hc, hbracket]

/-- From a cursor on, items for some values are read up to the end of their list. -/
def ReadsItems (bound : Nat) (c : Cursor) (first : Bool) (vs : List Value) (left : List Char) :
    Prop :=
  ∃ items stop after, readItems bound c first = (items, .closed stop, some ⟨after, left⟩) ∧
    ItemsHold items vs

theorem ReadsItems.nil (hspace : Blank space) (bound : Nat) (rest : List Char) (place : Offset)
    (first : Bool) : ReadsItems (bound + 1) ⟨place, space ++ ']' :: rest⟩ first [] rest :=
  ⟨[], _, _, by rw [readItems, nextItem_end hspace], .nil⟩

theorem ReadsItems.cons {text rest left : List Char} {v : Value} {vs : List Value} {bound : Nat}
    {start : Cursor} {first : Bool} {place : Offset} (h : Reads text v)
    (hbound : text.length ≤ bound) (hnext : nextItem start first = .inr ⟨place, text ++ rest⟩)
    (hrest : EndsNumber rest) (hmore : ∀ place, ReadsItems bound ⟨place, rest⟩ false vs left) :
    ReadsItems (bound + 1) start first (v :: vs) left := by
  obtain ⟨node, stop, hnode, hholds⟩ := h.run .nil hbound hrest place
  obtain ⟨items, stop', after, hitems, hvs⟩ := hmore stop
  refine ⟨(afterItem (some ⟨stop, rest⟩), node) :: items, stop', after, ?_, .cons hholds hvs⟩
  rw [List.nil_append] at hnode
  rw [readItems, hnext]
  dsimp only
  rw [hnode]
  dsimp only
  rw [hitems]

end Items

theorem ReadsItems.node {bound : Nat} {place : Offset} {body left : List Char} {vs : List Value}
    (h : ReadsItems bound ⟨place + 1, body⟩ true vs left) :
    ∃ node stop, readNode (bound + 1) ⟨place, '[' :: body⟩ = (node, some ⟨stop, left⟩) ∧
      node.Holds (.list vs) := by
  obtain ⟨items, stop, after, hitems, hvs⟩ := h
  refine ⟨.list (some place) items (.closed stop) true, after, ?_, .list hvs⟩
  rw [readNode, Cursor.skipSpace_stop (by decide)]
  simp [isDigit, Cursor.advance, hitems]

section Lists

variable {sp : Spacing} {depth : Nat}

/-- The items of a list that are still to come, and the bracket behind them. -/
def restOfList (sp : Spacing) (depth : Nat) (vs : List Value) (rest : List Char) : List Char :=
  writeItems sp (depth + 1) vs ++ (sp.lineBreak depth ++ ']' :: rest)

theorem restOfList_ends (hsp : sp.Blank) (vs : List Value) (rest : List Char) :
    EndsNumber (restOfList sp depth vs rest) := by
  rcases vs with _ | ⟨v, vs⟩
  · exact .blank_append (hsp.lineBreak _) (.cons (by decide) _)
  · exact .cons (by decide) _

theorem nextItem_restOfList (hsp : sp.Blank) {v : Value} (h : Reads (write sp (depth + 1) v) v)
    (vs : List Value) (place : Offset) (rest : List Char) :
    nextItem ⟨place, restOfList sp depth (v :: vs) rest⟩ false =
      .inr ⟨place + 1 + (sp.lineBreak (depth + 1)).length,
        write sp (depth + 1) v ++ restOfList sp depth vs rest⟩ := by
  obtain ⟨c, more, hhead, hc, hbracket⟩ := h.head
  rw [restOfList, writeItems, restOfList, hhead]
  simp only [List.cons_append, List.append_assoc]
  exact nextItem_comma (hsp.lineBreak _) hc hbracket _ place

theorem write_list_cons (v : Value) (vs : List Value) (rest : List Char) :
    write sp depth (.list (v :: vs)) ++ rest = '[' :: (sp.lineBreak (depth + 1) ++
      (write sp (depth + 1) v ++ restOfList sp depth vs rest)) := by
  simp [write, restOfList]

theorem nextItem_write (hsp : sp.Blank) {v : Value} (h : Reads (write sp (depth + 1) v) v)
    (vs : List Value) (place : Offset) (rest : List Char) :
    nextItem ⟨place, sp.lineBreak (depth + 1) ++
        (write sp (depth + 1) v ++ restOfList sp depth vs rest)⟩ true =
      .inr ⟨place + (sp.lineBreak (depth + 1)).length,
        write sp (depth + 1) v ++ restOfList sp depth vs rest⟩ := by
  obtain ⟨c, more, hhead, hc, hbracket⟩ := h.head
  rw [hhead]
  exact nextItem_first (hsp.lineBreak _) hc hbracket _ _

theorem readsItems_write (hsp : sp.Blank) {vs : List Value}
    (h : ∀ v ∈ vs, Reads (write sp (depth + 1) v) v) {bound : Nat}
    (hbound : (writeItems sp (depth + 1) vs).length < bound) (place : Offset) (rest : List Char) :
    ReadsItems bound ⟨place, restOfList sp depth vs rest⟩ false vs rest := by
  induction vs generalizing bound place with
  | nil =>
    obtain ⟨bound, rfl⟩ := Nat.exists_eq_add_of_lt hbound
    exact .nil (hsp.lineBreak _) _ rest place false
  | cons v vs ih =>
    obtain ⟨bound, rfl⟩ : ∃ b, bound = b + 1 := Nat.exists_eq_succ_of_ne_zero (by omega)
    have hv := h v List.mem_cons_self
    simp only [writeItems, List.length_cons, List.length_append] at hbound
    exact .cons hv (by omega) (nextItem_restOfList hsp hv vs place rest)
      (restOfList_ends hsp vs rest)
      (ih (fun v hv => h v (List.mem_cons_of_mem _ hv)) (by omega))

/-- The written form of a list is read if its items are. -/
theorem reads_list (hsp : sp.Blank) {vs : List Value}
    (h : ∀ v ∈ vs, Reads (write sp (depth + 1) v) v) :
    Reads (write sp depth (.list vs)) (.list vs) := by
  rcases vs with _ | ⟨v, vs⟩
  -- an empty list stays on one line, whatever the spacing is
  · constructor
    · exact ⟨'[', _, rfl, by decide, by decide⟩
    · intro bound place rest hbound _
      obtain ⟨bound, rfl⟩ := Nat.exists_eq_add_of_lt (Nat.lt_of_succ_le (Nat.le_of_succ_le_succ hbound))
      exact (ReadsItems.nil .nil _ rest (place + 1) true).node
  · constructor
    · exact ⟨'[', _, rfl, by decide, by decide⟩
    · intro bound place rest hbound _
      have hv := h v List.mem_cons_self
      have hlength : 0 < (write sp (depth + 1) v).length := hv.length_pos
      simp only [write, List.length_cons, List.length_append] at hbound
      -- the bound covers the brackets besides the items
      obtain ⟨bound, rfl⟩ : ∃ b, bound = b + 1 := Nat.exists_eq_succ_of_ne_zero (by omega)
      rw [write_list_cons]
      exact (ReadsItems.cons hv (by omega) (nextItem_write hsp hv vs _ rest)
        (restOfList_ends hsp vs rest)
        (readsItems_write hsp (fun v hv => h v (List.mem_cons_of_mem _ hv)) (by omega) · rest)).node

end Lists

section Members

variable {space : List Char}

theorem nextMember_end (hspace : Blank space) (rest : List Char) (place : Offset) (first : Bool) :
    nextMember ⟨place, space ++ '\x7d' :: rest⟩ first =
      .inl (.closed (some (place + space.length + 1)), some ⟨place + space.length + 1, rest⟩) := by
  rw [nextMember, Cursor.skipSpace_blank hspace (by decide)]
  rfl

theorem nextMember_first (hspace : Blank space) (rest : List Char) (place : Offset) :
    nextMember ⟨place, space ++ '"' :: rest⟩ true = .inr ⟨place + space.length, '"' :: rest⟩ := by
  rw [nextMember, Cursor.skipSpace_blank hspace (by decide)]
  rfl

theorem nextMember_comma (hspace : Blank space) (rest : List Char) (place : Offset) :
    nextMember ⟨place, ',' :: (space ++ '"' :: rest)⟩ false =
      .inr ⟨place + 1 + space.length, '"' :: rest⟩ := by
  rw [nextMember, Cursor.skipSpace_stop (by decide)]
  simp [Cursor.advance, Cursor.skipSpace_blank hspace (show isSpace '"' = false by decide)]

theorem readName_quote (name : String) (place : Offset) (rest : List Char) :
    ∃ stop, readName ⟨place, quote name ++ rest⟩ = .ok (name, none, ⟨stop, rest⟩) := by
  obtain ⟨stop, hread⟩ := readText_quote name.toList rest (place + 1)
  exact ⟨stop, by rw [quote_append]; simp [readName, hread]⟩

theorem valueStart_colon (colon : Offset) (rest : List Char) :
    valueStart ⟨colon, ':' :: rest⟩ = .ok ⟨colon + 1, rest⟩ := by
  rw [valueStart, Cursor.skipSpace_stop (by decide)]
  rfl

/-- From a cursor on, members for some named values are read up to the end of their object. -/
def ReadsMembers (bound : Nat) (c : Cursor) (first : Bool) (fields : Fields) (left : List Char) :
    Prop :=
  ∃ members stop after,
    readMembers bound c first = (members, .closed stop, some ⟨after, left⟩) ∧
      MembersHold members fields

theorem ReadsMembers.nil (hspace : Blank space) (bound : Nat) (rest : List Char) (place : Offset)
    (first : Bool) : ReadsMembers (bound + 1) ⟨place, space ++ '\x7d' :: rest⟩ first [] rest := by
  refine ⟨[], some (place + space.length + 1), place + space.length + 1, ?_, .nil⟩
  rw [readMembers, nextMember_end hspace]
  cases first <;> rfl

theorem ReadsMembers.cons {text gap rest left : List Char} {name : String} {v : Value}
    {fields : Fields} {bound : Nat} {start : Cursor} {first : Bool} {place : Offset}
    (h : Reads text v) (hgap : Blank gap) (hbound : text.length ≤ bound)
    (hnext : nextMember start first =
      .inr ⟨place, quote name ++ ':' :: (gap ++ (text ++ rest))⟩)
    (hrest : EndsNumber rest)
    (hmore : ∀ place, ReadsMembers bound ⟨place, rest⟩ false fields left) :
    ReadsMembers (bound + 1) start first ((name, v) :: fields) left := by
  obtain ⟨colon, hname⟩ := readName_quote name place (':' :: (gap ++ (text ++ rest)))
  obtain ⟨node, stop, hnode, hholds⟩ := h.run hgap hbound hrest (colon + 1)
  obtain ⟨members, stop', after, hmembers, hfields⟩ := hmore stop
  have hvalue := valueStart_colon colon (gap ++ (text ++ rest))
  let key : MemberKey := ⟨name, true, none, some colon,
    some (settledInRecord ⟨colon, ':' :: (gap ++ (text ++ rest))⟩),
    some (settledInRecord ⟨stop, rest⟩)⟩
  have hkey : key.Names name := ⟨rfl, rfl, rfl⟩
  refine ⟨(key, node) :: members, stop', after, ?_, .cons hkey hholds hfields⟩
  rw [readMembers, hnext]
  dsimp only
  rw [hname]
  dsimp only
  rw [hvalue]
  dsimp only
  rw [hnode]
  dsimp only
  rw [hmembers]

theorem ReadsMembers.node {bound : Nat} {place : Offset} {body left : List Char} {fields : Fields}
    (h : ReadsMembers bound ⟨place + 1, body⟩ true fields left) :
    ∃ node stop, readNode (bound + 1) ⟨place, '\x7b' :: body⟩ = (node, some ⟨stop, left⟩) ∧
      node.Holds (.record fields) := by
  obtain ⟨members, stop, after, hmembers, hfields⟩ := h
  refine ⟨.record (some place) members (.closed stop) .withNull, after, ?_, .record hfields⟩
  rw [readNode, Cursor.skipSpace_stop (by decide)]
  simp [isDigit, Cursor.advance, hmembers]

end Members

section Records

variable {sp : Spacing} {depth : Nat}

/-- The members of an object that are still to come, and the bracket behind them. -/
def restOfRecord (sp : Spacing) (depth : Nat) (fields : Fields) (rest : List Char) : List Char :=
  writeMembers sp (depth + 1) fields ++ (sp.lineBreak depth ++ '\x7d' :: rest)

theorem restOfRecord_ends (hsp : sp.Blank) (fields : Fields) (rest : List Char) :
    EndsNumber (restOfRecord sp depth fields rest) := by
  rcases fields with _ | ⟨⟨name, v⟩, fields⟩
  · exact .blank_append (hsp.lineBreak _) (.cons (by decide) _)
  · exact .cons (by decide) _

theorem nextMember_restOfRecord (hsp : sp.Blank) (name : String) (v : Value) (fields : Fields)
    (place : Offset) (rest : List Char) :
    nextMember ⟨place, restOfRecord sp depth ((name, v) :: fields) rest⟩ false =
      .inr ⟨place + 1 + (sp.lineBreak (depth + 1)).length,
        quote name ++ ':' :: (sp.gap ++
          (write sp (depth + 1) v ++ restOfRecord sp depth fields rest))⟩ := by
  rw [restOfRecord, writeMembers, restOfRecord, quote]
  simp only [List.cons_append, List.append_assoc]
  exact nextMember_comma (hsp.lineBreak _) _ place

theorem write_record_cons (name : String) (v : Value) (fields : Fields) (rest : List Char) :
    write sp depth (.record ((name, v) :: fields)) ++ rest =
      '\x7b' :: (sp.lineBreak (depth + 1) ++ (quote name ++ ':' :: (sp.gap ++
        (write sp (depth + 1) v ++ restOfRecord sp depth fields rest)))) := by
  simp [write, restOfRecord]

theorem nextMember_write (hsp : sp.Blank) (name : String) (more : List Char) (place : Offset) :
    nextMember ⟨place, sp.lineBreak (depth + 1) ++ (quote name ++ more)⟩ true =
      .inr ⟨place + (sp.lineBreak (depth + 1)).length, quote name ++ more⟩ := by
  rw [quote]
  exact nextMember_first (hsp.lineBreak _) _ _

theorem readsMembers_write (hsp : sp.Blank) {fields : Fields}
    (h : ∀ m ∈ fields, Reads (write sp (depth + 1) m.2) m.2) {bound : Nat}
    (hbound : (writeMembers sp (depth + 1) fields).length < bound) (place : Offset)
    (rest : List Char) :
    ReadsMembers bound ⟨place, restOfRecord sp depth fields rest⟩ false fields rest := by
  induction fields generalizing bound place with
  | nil =>
    obtain ⟨bound, rfl⟩ := Nat.exists_eq_add_of_lt hbound
    exact .nil (hsp.lineBreak _) _ rest place false
  | cons m fields ih =>
    obtain ⟨name, v⟩ := m
    obtain ⟨bound, rfl⟩ : ∃ b, bound = b + 1 := Nat.exists_eq_succ_of_ne_zero (by omega)
    simp only [writeMembers, List.length_cons, List.length_append] at hbound
    exact .cons (h _ List.mem_cons_self) hsp.gap (by dsimp only; omega)
      (nextMember_restOfRecord hsp name v fields place rest) (restOfRecord_ends hsp fields rest)
      (ih (fun m hm => h m (List.mem_cons_of_mem _ hm)) (by omega))

/-- The written form of an object is read if its members are. -/
theorem reads_record (hsp : sp.Blank) {fields : Fields}
    (h : ∀ m ∈ fields, Reads (write sp (depth + 1) m.2) m.2) :
    Reads (write sp depth (.record fields)) (.record fields) := by
  rcases fields with _ | ⟨⟨name, v⟩, fields⟩
  · constructor
    · exact ⟨'\x7b', _, rfl, by decide, by decide⟩
    · intro bound place rest hbound _
      obtain ⟨bound, rfl⟩ := Nat.exists_eq_add_of_lt (Nat.lt_of_succ_le (Nat.le_of_succ_le_succ hbound))
      exact (ReadsMembers.nil .nil _ rest (place + 1) true).node
  · constructor
    · exact ⟨'\x7b', _, rfl, by decide, by decide⟩
    · intro bound place rest hbound _
      have hlength : 0 < (quote name).length := Nat.succ_pos _
      simp only [write, List.length_cons, List.length_append] at hbound
      obtain ⟨bound, rfl⟩ : ∃ b, bound = b + 1 := Nat.exists_eq_succ_of_ne_zero (by omega)
      rw [write_record_cons]
      exact (ReadsMembers.cons (h _ List.mem_cons_self) hsp.gap (by dsimp only; omega)
        (nextMember_write hsp name _ _) (restOfRecord_ends hsp fields rest)
        (readsMembers_write hsp (fun m hm => h m (List.mem_cons_of_mem _ hm)) (by omega) · rest)).node

end Records

/-- Every value that can be read is read from its written form. -/
theorem reads_write {sp : Spacing} (hsp : sp.Blank) {v : Value} (hv : v.Readable) (depth : Nat) :
    Reads (write sp depth v) v := by
  -- along the structure of the value; the depth only changes the spacing
  induction hv generalizing depth with
  | null => exact reads_null
  | bool b =>
    cases b
    · exact reads_false
    · exact reads_true
  | int hn => exact reads_intText hn
  | float hx => exact reads_floatText hx
  | text s => exact reads_quote s
  | list _ ih => exact reads_list hsp fun v hv => ih v hv (depth + 1)
  | record _ ih => exact reads_record hsp fun m hm => ih m hm (depth + 1)

/-- A value that is written with nothing but space behind it is the whole document. -/
theorem document_write_blank {sp : Spacing} (hsp : sp.Blank) {v : Value} (hv : v.Readable)
    {tail : List Char} (htail : Blank tail) :
    ∃ node, document (String.ofList (write sp 0 v ++ tail)) = ⟨node, none⟩ ∧ node.Holds v := by
  have hbound : (write sp 0 v).length ≤ 2 * (write sp 0 v ++ tail).length + 2 := by
    rw [List.length_append]
    omega
  have hends : EndsNumber tail := by
    rw [← List.append_nil tail]
    exact .blank_append htail .nil
  obtain ⟨node, stop, hnode, hholds⟩ := (reads_write hsp hv 0).run .nil hbound hends 0
  refine ⟨node, ?_, hholds⟩
  have hover : Cursor.skipSpace ⟨stop, tail⟩ = ⟨stop + tail.length, []⟩ := by
    have hblank := skipSpace_blank htail [] stop
    rw [List.append_nil] at hblank
    exact hblank
  rw [List.nil_append] at hnode
  rw [document, String.toList_ofList]
  dsimp only
  rw [hnode]
  dsimp only
  rw [hover]
  rfl

/-- A value that is written alone is the whole document. -/
theorem document_write {sp : Spacing} (hsp : sp.Blank) {v : Value} (hv : v.Readable) :
    ∃ node, document (String.ofList (write sp 0 v)) = ⟨node, none⟩ ∧ node.Holds v := by
  simpa using document_write_blank hsp hv .nil

/-- Reading a value that was written on several lines is reading a node that stands for it. -/
theorem read_pretty {v : Value} (hv : v.Readable) :
    ∃ node : Node, node.Holds v ∧ ∀ {α : Type} (reading : Reading α),
      read reading (pretty v) = reading depthLimit node := by
  obtain ⟨node, hdocument, hholds⟩ := document_write Spacing.blank_lines hv
  refine ⟨node, hholds, fun reading => ?_⟩
  rw [read, pretty, hdocument, Whole.read]
  cases reading depthLimit node <;> rfl

section Parts

theorem scalar_fitsBits {parts : NumberParts} {stop : Offset} {n : Int}
    (h : parts.scalar stop = .ok (.int n)) : fitsBits 64 n = true := by
  have hrange : ∀ m : Int, -(2 : Int) ^ 63 ≤ m → m < 2 ^ 64 → fitsBits 64 m = true := by
    intro m hlow hhigh
    simpa [fitsBits] using ⟨hlow, hhigh⟩
  rw [NumberParts.scalar] at h
  split at h
  · rename_i hint
    have hmax : ofDigits parts.whole ≤ maxWord := by
      simp only [Bool.and_eq_true, decide_eq_true_eq] at hint
      exact hint.2
    simp only [maxWord, Nat.pow_eq] at hmax
    split_ifs at h with _ hsmall
    · cases h
      exact hrange _ (by omega) (by omega)
    · cases h
      have hbounds : 0 < ofDigits parts.whole ∧ ofDigits parts.whole ≤ 2 ^ 63 := by
        simpa using hsmall
      exact hrange _ (by omega) (by omega)
    · cases h
  · rcases hdouble : parts.double stop with e | x
    · simp [hdouble, Except.map] at h
    · simp [hdouble, Except.map] at h

variable {P : Node → Prop} (hbroken : ∀ b, P (.broken b))
  (hscalar : ∀ value span, (∀ n, value = .int n → fitsBits 64 n = true) →
    P (.scalar value none span))
  (hlist : ∀ start items close asRecord, (∀ item ∈ items, P item.2) →
    P (.list start items close asRecord))
  (hrecord : ∀ start members close form, (∀ m ∈ members, m.1.isText = true ∧ P m.2) →
    P (.record start members close form))

include hbroken hscalar

theorem readNumber_of_parts (c : Cursor) : P (readNumber c).1 := by
  rw [readNumber]
  rcases scanNumber c with e | ⟨parts, after⟩
  · exact hbroken _
  dsimp only
  rcases hvalue : parts.scalar after.place with e | v
  · exact hbroken _
  · refine hscalar _ _ fun n hn => ?_
    subst hn
    exact scalar_fitsBits hvalue

theorem readQuoted_of_parts (c : Cursor) : P (readQuoted c).1 := by
  rw [readQuoted]
  split
  · exact hscalar _ _ (by simp)
  · split <;> exact hbroken _

theorem readWord_of_parts (c : Cursor) {value : Scalar} (hvalue : ∀ n, value ≠ .int n)
    (tail : List Char) : P (readWord c value tail).1 := by
  rw [readWord]
  split
  · exact hscalar _ _ fun n hn => absurd hn (hvalue n)
  · exact hbroken _

include hlist hrecord

/-- What holds of all values without parts, and passes from the parts of a value to the value, holds
of everything that is read.  Integers have sixty-four bits, a scalar is read as what it is, and
names are texts. -/
theorem read_of_parts (bound : Nat) :
    (∀ c, P (readNode bound c).1) ∧
    (∀ c first, ∀ item ∈ (readItems bound c first).1, P item.2) ∧
    ∀ c first, ∀ m ∈ (readMembers bound c first).1, m.1.isText = true ∧ P m.2 := by
  -- the three functions call each other with the bound before
  induction bound with
  | zero => exact ⟨fun c => hbroken _, by simp [readItems], by simp [readMembers]⟩
  | succ bound ih =>
    obtain ⟨hnode, hitems, hmembers⟩ := ih
    refine ⟨fun c => ?_, fun c first => ?_, fun c first => ?_⟩
    · rw [readNode]
      split
      · exact hbroken _
      split_ifs
      · exact readQuoted_of_parts hbroken hscalar _
      · exact readNumber_of_parts hbroken hscalar _
      · exact readWord_of_parts hbroken hscalar _ (by simp) _
      · exact readWord_of_parts hbroken hscalar _ (by simp) _
      · exact readWord_of_parts hbroken hscalar _ (by simp) _
      · exact hlist _ _ _ _ (hitems _ true)
      · exact hrecord _ _ _ _ (hmembers _ true)
      · exact hbroken _
    · rw [readItems]
      split
      · simp
      rename_i next _
      dsimp only
      split
      · rintro item (_ | ⟨_, ⟨⟩⟩)
        exact hnode next
      · rintro item (_ | ⟨_, hitem⟩)
        · exact hnode next
        · exact hitems _ false item hitem
    · rw [readMembers]
      split
      · split <;> simp
      split
      · simp
      dsimp only
      split
      · -- behind a name without a colon nothing is read
        rintro m (_ | ⟨_, ⟨⟩⟩)
        exact ⟨rfl, hbroken _⟩
      rename_i value _
      split
      · rintro m (_ | ⟨_, ⟨⟩⟩)
        exact ⟨rfl, hnode value⟩
      · rintro m (_ | ⟨_, hm⟩)
        · exact ⟨rfl, hnode value⟩
        · exact hmembers _ false m hm

theorem document_of_parts (text : String) : P (document text).root :=
  (read_of_parts hbroken hscalar hlist hrecord (2 * text.toList.length + 2)).1 ⟨0, text.toList⟩

omit hbroken hscalar hlist hrecord

/-- Whatever the text is, its integers have sixty-four bits. -/
theorem document_tame (text : String) : (document text).root.Tame :=
  document_of_parts (fun _ => .broken) (fun _ _ h => .scalar h) (fun _ _ _ _ h => .list h)
    (fun _ _ _ _ h => .record fun m hm => (h m hm).2) text

/-- No value of a JSON text has a tag. -/
theorem document_bare (text : String) : (document text).root.bare = (document text).root :=
  document_of_parts (P := fun node => node.bare = node) (fun _ => rfl) (fun _ _ _ => rfl)
    (fun _ _ _ _ _ => rfl) (fun _ _ _ _ _ => rfl) text

/-- What a reading ensures of tame nodes holds of whatever is read from a text. -/
theorem read_ensures {α : Type} {reading : Reading α} {P : α → Prop}
    (h : reading.Ensures Node.Tame depthLimit P) {text : String} {x : α}
    (hx : read reading text = .ok x) : P x := by
  obtain ⟨y, hy, hrest⟩ := bind_eq_ok.mp hx
  split at hrest
  · simp [throw, throwThe, MonadExceptOf.throw] at hrest
  · obtain rfl := pure_eq_ok.mp hrest
    exact h depthLimit _ y (Nat.le_refl _) (document_tame text) hy

end Parts

end KeyLayout.Json
