/-
What a written text says.

A value that is written is a text with the meaning of that value (`source_written`), for any
spacing that consists of space.  This is shown along the reader's own walk: `Says text v` holds of
a text that is read as `v`, whatever follows it, and has a source with the meaning of `v`.  Of the
doubles it has to be known that their written form is read at all.
-/
import KeyLayout.Proofs.Json.Meaning
import KeyLayout.Proofs.Json.Reader

namespace KeyLayout.Json

open KeyLayout.Document KeyLayout.Decimal

/-- A text that is read as a value and says what the value means, whatever follows it. -/
structure Says (text : List Char) (v : Value) : Prop extends Reads text v where
  source : ∀ (bound : Nat) (place : Offset) (rest : List Char), text.length ≤ bound + 1 →
    EndsNumber rest →
    ∃ s stop, sourceNode (bound + 1) ⟨place, text ++ rest⟩ = some (s, ⟨stop, rest⟩) ∧
      s.meaning = v.meaning

/-- The same with space in front of the text. -/
theorem Says.run {text space rest : List Char} {v : Value} {bound : Nat} (h : Says text v)
    (hspace : Blank space) (hbound : text.length ≤ bound) (hrest : EndsNumber rest)
    (place : Offset) :
    ∃ s stop, sourceNode bound ⟨place, space ++ (text ++ rest)⟩ = some (s, ⟨stop, rest⟩) ∧
      s.meaning = v.meaning := by
  obtain ⟨bound, rfl⟩ : ∃ b, bound = b + 1 :=
    Nat.exists_eq_succ_of_ne_zero (by have hlength := h.length_pos; omega)
  obtain ⟨c, more, rfl, hc, -⟩ := h.head
  have hblank : sourceNode (bound + 1) ⟨place, space ++ (c :: more ++ rest)⟩ =
      sourceNode (bound + 1) ⟨place + space.length, c :: more ++ rest⟩ := by
    rw [List.cons_append, sourceNode, sourceNode, Cursor.skipSpace_blank hspace hc,
      Cursor.skipSpace_stop hc]
  rw [hblank]
  exact h.source bound (place + space.length) rest hbound hrest

section scalars

theorem says_null : Says ['n', 'u', 'l', 'l'] .null where
  toReads := reads_null
  source _ _ _ _ _ := ⟨.null, _, rfl, by rw [Source.meaning, Value.meaning]⟩

theorem says_true : Says ['t', 'r', 'u', 'e'] (.bool true) where
  toReads := reads_true
  source _ _ _ _ _ := ⟨.bool true, _, rfl, by rw [Source.meaning, Value.meaning]⟩

theorem says_false : Says ['f', 'a', 'l', 's', 'e'] (.bool false) where
  toReads := reads_false
  source _ _ _ _ _ := ⟨.bool false, _, rfl, by rw [Source.meaning, Value.meaning]⟩

theorem says_quote (s : String) : Says (quote s) (.text s) where
  toReads := reads_quote s
  source bound place rest _ _ := by
    obtain ⟨stop, hread⟩ := readText_quote s.toList rest (place + 1)
    refine ⟨.text s, stop, ?_, by rw [Source.meaning, Value.meaning]⟩
    rw [quote_append, sourceNode, Cursor.skipSpace_stop (by decide)]
    simp [sourceText, hread]

/-- The number does not depend on where its digits stand. -/
theorem NumberParts.value_moveTo (n : NumberParts) (start : Offset) :
    (n.moveTo start).value = n.value := by
  obtain ⟨negative, whole, fraction, power⟩ := n
  cases power <;> rfl

/-- A text that is read as a number says the number that is scanned. -/
theorem says_number {text : List Char} {x : Scalar} {v : Value} {span : Option Span} {stop : Offset}
    (h : Reads text v) (hread : readNumber ⟨0, text⟩ = (.scalar x none span, some ⟨stop, []⟩))
    (hvalue : ∀ n : NumberParts, scanNumber ⟨0, text⟩ = .ok (n, ⟨stop, []⟩) →
      n.scalar stop = .ok x → v.meaning = .number n.value) : Says text v where
  toReads := h
  source bound place rest _ hrest := by
    -- the digits are the same here as when the text stands alone
    obtain ⟨n, hscan, hscalar⟩ := scan_of_readNumber hread
    obtain ⟨start, stop', hscan'⟩ := scanNumber_append hscan hrest place
    refine ⟨.number (n.moveTo start), stop', ?_, ?_⟩
    · obtain ⟨c, hc, hstart⟩ := readNumber_head hread
      obtain ⟨more, rfl⟩ := List.head?_eq_some_iff.mp hc
      obtain ⟨hspace, hquote, -⟩ := number_start hstart
      have hnumber : (decide (c = '-') || isDigit c) = true := by simpa using hstart
      rw [List.cons_append, sourceNode, Cursor.skipSpace_stop hspace]
      dsimp only
      rw [if_neg hquote, if_pos hnumber, sourceNumber, ← List.cons_append, hscan']
      rfl
    · rw [Source.meaning, NumberParts.value_moveTo, hvalue n hscan hscalar]

theorem says_intText {n : Int} (hn : fitsBits 64 n = true) : Says (intText n) (.int n) := by
  obtain ⟨span, stop, hread⟩ := readNumber_intText hn .nil 0
  rw [List.append_nil] at hread
  refine says_number (reads_intText hn) hread fun parts _ hscalar => ?_
  rcases NumberParts.scalar_cases hscalar with ⟨m, hm, -, hvalue⟩ | ⟨x, hx, -⟩
  · obtain rfl := Scalar.int.inj hm
    rw [Value.meaning, hvalue]
  · cases hx

theorem says_floatText {x : Float} (hx : ReadsBack x) : Says (floatText x) (.float x) := by
  obtain ⟨span, stop, hread⟩ := id hx
  refine says_number (reads_floatText hx) hread fun n hscan _ => meaning_float.mpr ?_
  rw [written?, hscan]

end scalars

section items

/-- From a cursor on, there are items that say what some values mean, up to the end of their
list. -/
def SaysItems (bound : Nat) (c : Cursor) (first : Bool) (vs : List Value) (left : List Char) :
    Prop :=
  ∃ items after, sourceItems bound c first = some (items, ⟨after, left⟩) ∧
    sourceItemMeanings items = itemMeanings vs

theorem SaysItems.nil {space : List Char} (hspace : Blank space) (bound : Nat) (rest : List Char)
    (place : Offset) (first : Bool) :
    SaysItems (bound + 1) ⟨place, space ++ ']' :: rest⟩ first [] rest :=
  ⟨[], _, by rw [sourceItems, nextItem_end hspace]; rfl, by rw [sourceItemMeanings, itemMeanings]⟩

theorem SaysItems.cons {text rest left : List Char} {v : Value} {vs : List Value} {bound : Nat}
    {start : Cursor} {first : Bool} {place : Offset} (h : Says text v)
    (hbound : text.length ≤ bound) (hnext : nextItem start first = .inr ⟨place, text ++ rest⟩)
    (hrest : EndsNumber rest) (hmore : ∀ place, SaysItems bound ⟨place, rest⟩ false vs left) :
    SaysItems (bound + 1) start first (v :: vs) left := by
  obtain ⟨s, stop, hsource, hmeaning⟩ := h.run .nil hbound hrest place
  obtain ⟨items, after, hitems, hmeanings⟩ := hmore stop
  rw [List.nil_append] at hsource
  refine ⟨s :: items, after, ?_, ?_⟩
  · rw [sourceItems, hnext]
    simp only [hsource, hitems, Option.bind_eq_bind, Option.bind_some, Option.pure_def]
  · rw [sourceItemMeanings, itemMeanings, hmeaning, hmeanings]

theorem SaysItems.node {bound : Nat} {place : Offset} {body left : List Char} {vs : List Value}
    (h : SaysItems bound ⟨place + 1, body⟩ true vs left) :
    ∃ s stop, sourceNode (bound + 1) ⟨place, '[' :: body⟩ = some (s, ⟨stop, left⟩) ∧
      s.meaning = (Value.list vs).meaning := by
  obtain ⟨items, after, hitems, hmeanings⟩ := h
  refine ⟨.list items, after, ?_, by rw [Source.meaning, Value.meaning, hmeanings]⟩
  rw [sourceNode, Cursor.skipSpace_stop (by decide)]
  simp [isDigit, Cursor.advance, hitems]

variable {sp : Spacing} {depth : Nat}

theorem saysItems_write (hsp : sp.Blank) {vs : List Value}
    (h : ∀ v ∈ vs, Says (write sp (depth + 1) v) v) {bound : Nat}
    (hbound : (writeItems sp (depth + 1) vs).length < bound) (place : Offset) (rest : List Char) :
    SaysItems bound ⟨place, restOfList sp depth vs rest⟩ false vs rest := by
  induction vs generalizing bound place with
  | nil =>
    obtain ⟨bound, rfl⟩ := Nat.exists_eq_add_of_lt hbound
    exact .nil (hsp.lineBreak _) _ rest place false
  | cons v vs ih =>
    obtain ⟨bound, rfl⟩ : ∃ b, bound = b + 1 := Nat.exists_eq_succ_of_ne_zero (by omega)
    have hv := h v List.mem_cons_self
    simp only [writeItems, List.length_cons, List.length_append] at hbound
    exact .cons hv (by omega) (nextItem_restOfList hsp hv.toReads vs place rest)
      (restOfList_ends hsp vs rest)
      (ih (fun v hv => h v (List.mem_cons_of_mem _ hv)) (by omega))

/-- The written form of a list says what the list means if its items do. -/
theorem says_list (hsp : sp.Blank) {vs : List Value}
    (h : ∀ v ∈ vs, Says (write sp (depth + 1) v) v) :
    Says (write sp depth (.list vs)) (.list vs) where
  toReads := reads_list hsp fun v hv => (h v hv).toReads
  source bound place rest hbound _ := by
    rcases vs with _ | ⟨v, vs⟩
    · obtain ⟨bound, rfl⟩ := Nat.exists_eq_add_of_lt (Nat.lt_of_succ_le (Nat.le_of_succ_le_succ hbound))
      exact (SaysItems.nil .nil _ rest (place + 1) true).node
    · have hv := h v List.mem_cons_self
      have hlength := hv.length_pos
      simp only [write, List.length_cons, List.length_append] at hbound
      -- the bound covers the brackets besides the items
      obtain ⟨bound, rfl⟩ : ∃ b, bound = b + 1 := Nat.exists_eq_succ_of_ne_zero (by omega)
      rw [write_list_cons]
      exact (SaysItems.cons hv (by omega) (nextItem_write hsp hv.toReads vs _ rest)
        (restOfList_ends hsp vs rest)
        (saysItems_write hsp (fun v hv => h v (List.mem_cons_of_mem _ hv)) (by omega) · rest)).node

end items

section members

/-- From a cursor on, there are members that say what some named values mean, up to the end of their
object. -/
def SaysMembers (bound : Nat) (c : Cursor) (first : Bool) (fields : Fields) (left : List Char) :
    Prop :=
  ∃ members after, sourceMembers bound c first = some (members, ⟨after, left⟩) ∧
    sourceMemberMeanings members = memberMeanings fields

theorem SaysMembers.nil {space : List Char} (hspace : Blank space) (bound : Nat) (rest : List Char)
    (place : Offset) (first : Bool) :
    SaysMembers (bound + 1) ⟨place, space ++ '\x7d' :: rest⟩ first [] rest :=
  ⟨[], _, by rw [sourceMembers, nextMember_end hspace]; rfl,
    by rw [sourceMemberMeanings, memberMeanings]⟩

theorem SaysMembers.cons {text gap rest left : List Char} {name : String} {v : Value}
    {fields : Fields} {bound : Nat} {start : Cursor} {first : Bool} {place : Offset}
    (h : Says text v) (hgap : Blank gap) (hbound : text.length ≤ bound)
    (hnext : nextMember start first =
      .inr ⟨place, quote name ++ ':' :: (gap ++ (text ++ rest))⟩)
    (hrest : EndsNumber rest)
    (hmore : ∀ place, SaysMembers bound ⟨place, rest⟩ false fields left) :
    SaysMembers (bound + 1) start first ((name, v) :: fields) left := by
  obtain ⟨colon, hname⟩ := readName_quote name place (':' :: (gap ++ (text ++ rest)))
  obtain ⟨s, stop, hsource, hmeaning⟩ := h.run hgap hbound hrest (colon + 1)
  obtain ⟨members, after, hmembers, hmeanings⟩ := hmore stop
  have hvalue := valueStart_colon colon (gap ++ (text ++ rest))
  refine ⟨(name, s) :: members, after, ?_, ?_⟩
  · rw [sourceMembers, hnext]
    dsimp only
    rw [hname]
    dsimp only
    rw [hvalue]
    simp only [hsource, hmembers, Option.bind_eq_bind, Option.bind_some, Option.pure_def]
  · rw [sourceMemberMeanings, memberMeanings, hmeaning, hmeanings]

theorem SaysMembers.node {bound : Nat} {place : Offset} {body left : List Char} {fields : Fields}
    (h : SaysMembers bound ⟨place + 1, body⟩ true fields left) :
    ∃ s stop, sourceNode (bound + 1) ⟨place, '\x7b' :: body⟩ = some (s, ⟨stop, left⟩) ∧
      s.meaning = (Value.record fields).meaning := by
  obtain ⟨members, after, hmembers, hmeanings⟩ := h
  refine ⟨.record members, after, ?_, by rw [Source.meaning, Value.meaning, hmeanings]⟩
  rw [sourceNode, Cursor.skipSpace_stop (by decide)]
  simp [isDigit, Cursor.advance, hmembers]

variable {sp : Spacing} {depth : Nat}

theorem saysMembers_write (hsp : sp.Blank) {fields : Fields}
    (h : ∀ m ∈ fields, Says (write sp (depth + 1) m.2) m.2) {bound : Nat}
    (hbound : (writeMembers sp (depth + 1) fields).length < bound) (place : Offset)
    (rest : List Char) :
    SaysMembers bound ⟨place, restOfRecord sp depth fields rest⟩ false fields rest := by
  induction fields generalizing bound place with
  | nil =>
    obtain ⟨bound, rfl⟩ := Nat.exists_eq_add_of_lt hbound
    exact .nil (hsp.lineBreak _) _ rest place false
  | cons m fields ih =>
    obtain ⟨name, v⟩ := m
    obtain ⟨bound, rfl⟩ : ∃ b, bound = b + 1 := Nat.exists_eq_succ_of_ne_zero (by omega)
    simp only [writeMembers, List.length_cons, List.length_append] at hbound
    exact .cons (h _ List.mem_cons_self) hsp.gap (by dsimp only; omega)
      (nextMember_restOfRecord hsp name v fields place rest) (restOfRecord_ends hsp fields rest)
      (ih (fun m hm => h m (List.mem_cons_of_mem _ hm)) (by omega))

/-- The written form of an object says what the object means if its members do. -/
theorem says_record (hsp : sp.Blank) {fields : Fields}
    (h : ∀ m ∈ fields, Says (write sp (depth + 1) m.2) m.2) :
    Says (write sp depth (.record fields)) (.record fields) where
  toReads := reads_record hsp fun m hm => (h m hm).toReads
  source bound place rest hbound _ := by
    rcases fields with _ | ⟨⟨name, v⟩, fields⟩
    · obtain ⟨bound, rfl⟩ := Nat.exists_eq_add_of_lt (Nat.lt_of_succ_le (Nat.le_of_succ_le_succ hbound))
      exact (SaysMembers.nil .nil _ rest (place + 1) true).node
    · have hlength : 0 < (quote name).length := Nat.succ_pos _
      simp only [write, List.length_cons, List.length_append] at hbound
      obtain ⟨bound, rfl⟩ : ∃ b, bound = b + 1 := Nat.exists_eq_succ_of_ne_zero (by omega)
      rw [write_record_cons]
      exact (SaysMembers.cons (h _ List.mem_cons_self) hsp.gap (by dsimp only; omega)
        (nextMember_write hsp name _ _) (restOfRecord_ends hsp fields rest)
        (saysMembers_write hsp (fun m hm => h m (List.mem_cons_of_mem _ hm)) (by omega) · rest)).node

end members

/-- Every value that can be read is written as a text with its meaning. -/
theorem says_write {sp : Spacing} (hsp : sp.Blank) {v : Value} (hv : v.Readable) (depth : Nat) :
    Says (write sp depth v) v := by
  -- along the structure of the value; the depth only changes the spacing
  induction hv generalizing depth with
  | null => exact says_null
  | bool b =>
    cases b
    · exact says_false
    · exact says_true
  | int hn => exact says_intText hn
  | float hx => exact says_floatText hx
  | text s => exact says_quote s
  | list _ ih => exact says_list hsp fun v hv => ih v hv (depth + 1)
  | record _ ih => exact says_record hsp fun m hm => ih m hm (depth + 1)

/-- **A value that is written alone is a text with its meaning.** -/
theorem source_written {sp : Spacing} (hsp : sp.Blank) {v : Value} (hv : v.Readable) :
    ∃ s, source (String.ofList (write sp 0 v)) = some s ∧ s.meaning = v.meaning := by
  have hbound : (write sp 0 v).length ≤ 2 * (write sp 0 v).length + 2 := by omega
  obtain ⟨s, stop, hsource, hmeaning⟩ := (says_write hsp hv 0).run .nil hbound .nil 0
  rw [List.nil_append, List.append_nil] at hsource
  refine ⟨s, ?_, hmeaning⟩
  rw [source, String.toList_ofList, hsource]
  rfl

end KeyLayout.Json
