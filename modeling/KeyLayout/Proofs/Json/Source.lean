/-
What stands in a JSON text.

The source of a value is the value as it stands in a text: numbers digit by digit, and the members
of an object in the order of the text, with repeated names.  What a reader makes of it is another
matter (`Source.value?`): numbers are cut to sixty-four bits or become doubles, and of repeated
names the last one counts.

Every text that is read as some value has a source, and the value is what a reader makes of it
(`source_of_read`).
-/
import Mathlib.Tactic.SplitIfs
import KeyLayout.Proofs.Document.Denoting
import KeyLayout.Proofs.Json.Number

namespace KeyLayout.Document

open KeyLayout.Json (Value Fields)

/-! ### Reading any value -/

variable {depth : Nat}

/-- A member that is read under a name as some value. -/
structure MemberReads (depth : Nat) (m : MemberKey × Node) (named : String × Value) : Prop where
  flaw : m.1.flaw = none
  name : m.1.text = named.1
  value : Reading.value depth m.2 = .ok named.2

theorem items_value {items held : List (After × Node)} {vs : List Value}
    (hheld : detachItems depth items = .ok held) (hvs : itemsToValues held = .ok vs) :
    List.Forall₂ (fun item v => Reading.value depth item.2 = .ok v) items vs := by
  induction items generalizing held vs with
  | nil =>
    cases hheld
    cases hvs
    exact .nil
  | cons item items ih =>
    obtain ⟨after, node⟩ := item
    obtain ⟨node', hnode, h⟩ := bind_eq_ok.mp (detachItems.eq_2 .. ▸ hheld)
    obtain ⟨rest, hrest, h⟩ := bind_eq_ok.mp h
    obtain rfl := pure_eq_ok.mp h
    obtain ⟨v, hv, hvs⟩ := bind_eq_ok.mp (itemsToValues.eq_2 .. ▸ hvs)
    obtain ⟨vs', hvs', hvs⟩ := bind_eq_ok.mp hvs
    obtain rfl := pure_eq_ok.mp hvs
    exact .cons (bind_eq_ok.mpr ⟨node', hnode, hv⟩) (ih hrest hvs')

theorem members_value {members held : List (MemberKey × Node)} {before fields : Fields}
    (hheld : detachMembers depth members = .ok held)
    (hfields : membersToFields held before = .ok fields) :
    ∃ entries, List.Forall₂ (MemberReads depth) members entries ∧
      fields = entries.foldl (fun fields m => fields.insert m.1 m.2) before := by
  induction members generalizing held before with
  | nil =>
    cases hheld
    cases hfields
    exact ⟨[], .nil, rfl⟩
  | cons m members ih =>
    obtain ⟨key, node⟩ := m
    obtain ⟨name, hname, h⟩ := bind_eq_ok.mp (detachMembers.eq_2 .. ▸ hheld)
    obtain ⟨node', hnode, h⟩ := bind_eq_ok.mp h
    obtain ⟨rest, hrest, h⟩ := bind_eq_ok.mp h
    obtain rfl := pure_eq_ok.mp h
    obtain ⟨v, hv, hmore⟩ := membersToFields_cons hfields
    obtain ⟨entries, hentries, rfl⟩ := ih hrest hmore
    have hflaw : key.flaw = none := by
      rw [MemberKey.name] at hname
      split at hname
      · cases hname
      · assumption
    exact ⟨(key.text, v) :: entries,
      .cons ⟨hflaw, rfl, bind_eq_ok.mpr ⟨node', hnode, hv⟩⟩ hentries, rfl⟩

/-- A list is read item by item. -/
theorem Reading.value_list_eq_ok {start : Option Offset} {items : List (After × Node)}
    {close : Close} {asRecord : Bool} {v : Value}
    (h : Reading.value depth (.list start items close asRecord) = .ok v) :
    ∃ vs stop, v = .list vs ∧ close = .closed stop ∧
      List.Forall₂ (fun item v => Reading.value (depth - 1) item.2 = .ok v) items vs := by
  obtain ⟨node, hnode, hv⟩ := bind_eq_ok.mp h
  rw [Node.detach] at hnode
  obtain ⟨depth', hdepth, hnode⟩ := bind_eq_ok.mp hnode
  obtain ⟨-, rfl⟩ := descend_eq_ok.mp hdepth
  obtain ⟨held, hheld, hnode⟩ := bind_eq_ok.mp hnode
  obtain ⟨stop, hclose, hnode⟩ := bind_eq_ok.mp hnode
  obtain rfl := pure_eq_ok.mp hnode
  rw [Node.toValue] at hv
  obtain ⟨vs, hvs, hv⟩ := bind_eq_ok.mp hv
  obtain rfl := pure_eq_ok.mp hv
  exact ⟨vs, stop, rfl, Close.finish_eq_ok.mp hclose, items_value hheld hvs⟩

/-- A record is read member by member. -/
theorem Reading.value_record_eq_ok {start : Option Offset} {members : List (MemberKey × Node)}
    {close : Close} {form : VariantForm} {v : Value}
    (h : Reading.value depth (.record start members close form) = .ok v) :
    ∃ entries stop, v = .record (Fields.ofMembers entries) ∧ close = .closed stop ∧
      List.Forall₂ (MemberReads (depth - 1)) members entries := by
  obtain ⟨node, hnode, hv⟩ := bind_eq_ok.mp h
  rw [Node.detach] at hnode
  obtain ⟨depth', hdepth, hnode⟩ := bind_eq_ok.mp hnode
  obtain ⟨-, rfl⟩ := descend_eq_ok.mp hdepth
  obtain ⟨held, hheld, hnode⟩ := bind_eq_ok.mp hnode
  obtain ⟨stop, hclose, hnode⟩ := bind_eq_ok.mp hnode
  obtain rfl := pure_eq_ok.mp hnode
  rw [Node.toValue] at hv
  obtain ⟨fields, hfields, hv⟩ := bind_eq_ok.mp hv
  obtain rfl := pure_eq_ok.mp hv
  obtain ⟨entries, hentries, rfl⟩ := members_value hheld hfields
  exact ⟨entries, stop, rfl, Close.finish_eq_ok.mp hclose, hentries⟩

end KeyLayout.Document

namespace KeyLayout.Json

open KeyLayout.Document

/-- A value as it stands in a text. -/
inductive Source where
  | null
  | bool (b : Bool)
  | number (n : NumberParts)
  | text (s : String)
  | list (items : List Source)
  | record (members : List (String × Source))

/-! ### What stands in a text -/

/-- A word that stands for a value. -/
def sourceWord (c : Cursor) (s : Source) (tail : List Char) : Option (Source × Cursor) :=
  match scanWord (c.place + 1) tail (c.rest.drop 1) with
  | .ok after => some (s, after)
  | .error _ => none

def sourceNumber (c : Cursor) : Option (Source × Cursor) :=
  match scanNumber c with
  | .ok (n, after) => some (.number n, after)
  | .error _ => none

def sourceText (c : Cursor) : Option (Source × Cursor) :=
  match readText .plain (c.place + 1) (c.rest.drop 1) with
  | .ok (text, after) => some (.text (String.ofList text), after)
  | .error _ => none

mutual

/-- The source of a value, and the place behind it. -/
def sourceNode : Nat → Cursor → Option (Source × Cursor)
  | 0, _ => none
  | bound + 1, c =>
    let c := c.skipSpace
    match c.rest with
    | [] => none
    | ch :: _ =>
      if ch = '"' then sourceText c
      else if ch = '-' || Decimal.isDigit ch then sourceNumber c
      else if ch = 'n' then sourceWord c .null ['u', 'l', 'l']
      else if ch = 't' then sourceWord c (.bool true) ['r', 'u', 'e']
      else if ch = 'f' then sourceWord c (.bool false) ['a', 'l', 's', 'e']
      else if ch = '[' then do
        let (items, after) ← sourceItems bound c.advance true
        return (.list items, after)
      else if ch = '\x7b' then do
        let (members, after) ← sourceMembers bound c.advance true
        return (.record members, after)
      else none

def sourceItems : Nat → Cursor → Bool → Option (List Source × Cursor)
  | 0, _, _ => none
  | bound + 1, c, first =>
    match nextItem c first with
    | .inl (_, after) => after.map fun c => ([], c)
    | .inr c => do
      let (s, c) ← sourceNode bound c
      let (items, c) ← sourceItems bound c false
      return (s :: items, c)

def sourceMembers : Nat → Cursor → Bool → Option (List (String × Source) × Cursor)
  | 0, _, _ => none
  | bound + 1, c, first =>
    match nextMember c first with
    | .inl (_, after) => after.map fun c => ([], c)
    | .inr c =>
      match readName c with
      | .error _ => none
      | .ok (_, some _, _) => none
      | .ok (name, none, c) =>
        match valueStart c with
        | .error _ => none
        | .ok c => do
          let (s, c) ← sourceNode bound c
          let (members, c) ← sourceMembers bound c false
          return ((name, s) :: members, c)

end

/-- The source of the value that a text consists of. -/
def source (text : String) : Option Source :=
  match sourceNode (2 * text.toList.length + 2) ⟨0, text.toList⟩ with
  | some (s, c) => if c.skipSpace.rest.isEmpty then some s else none
  | none => none

/-! ### What a reader makes of it -/

mutual

/-- The value that is read. -/
def Source.value? : Source → Option Value
  | .null => some .null
  | .bool b => some (.bool b)
  | .number n => (n.scalar 0).toOption.map Scalar.toValue
  | .text s => some (.text s)
  | .list items => (itemValues? items).map .list
  | .record members =>
    (memberValues? members).map fun entries => .record (Fields.ofMembers entries)

def itemValues? : List Source → Option (List Value)
  | [] => some []
  | s :: items => do return (← s.value?) :: (← itemValues? items)

def memberValues? : List (String × Source) → Option (List (String × Value))
  | [] => some []
  | (name, s) :: members => do return (name, ← s.value?) :: (← memberValues? members)

end

/-! ### Agreement with the reader -/

variable {c : Cursor} {depth : Nat} {v : Value}

/-- What a reader makes of a part of a text agrees with what stands there. -/
structure Agrees (v : Value) (after : Option Cursor) (found : Option (Source × Cursor)) : Prop where
  found : ∃ s stop, after = some stop ∧ found = some (s, stop) ∧ s.value? = some v

theorem agrees_word {s : Source} {value : Scalar} {tail : List Char}
    (hvalue : s.value? = some value.toValue)
    (h : Reading.value depth (readWord c value tail).1 = .ok v) :
    Agrees v (readWord c value tail).2 (sourceWord c s tail) := by
  rw [readWord, sourceWord] at *
  cases hscan : scanWord (c.place + 1) tail (c.rest.drop 1) with
  | error e =>
    rw [hscan] at h
    cases h
  | ok after =>
    rw [hscan] at h
    cases h
    exact ⟨s, after, rfl, rfl, hvalue⟩

/-- Where a number ends matters only for complaints. -/
theorem NumberParts.scalar_stop {n : NumberParts} {stop : Offset} {x : Scalar}
    (h : n.scalar stop = .ok x) : n.scalar 0 = .ok x := by
  obtain ⟨negative, whole, fraction, power⟩ := n
  cases power with
  | none => exact scalar_moveTo h 0 0
  | some p => exact scalar_moveTo h p.start 0

theorem agrees_number (h : Reading.value depth (readNumber c).1 = .ok v) :
    Agrees v (readNumber c).2 (sourceNumber c) := by
  rw [readNumber, sourceNumber] at *
  cases hscan : scanNumber c with
  | error e =>
    rw [hscan] at h
    cases h
  | ok found =>
    obtain ⟨n, after⟩ := found
    rw [hscan] at h
    dsimp only at h ⊢
    cases hscalar : n.scalar after.place with
    | error e =>
      rw [hscalar] at h
      cases h
    | ok x =>
      rw [hscalar] at h
      cases h
      refine ⟨.number n, after, rfl, rfl, ?_⟩
      rw [Source.value?, NumberParts.scalar_stop hscalar]
      rfl

theorem agrees_text (h : Reading.value depth (readQuoted c).1 = .ok v) :
    Agrees v (readQuoted c).2 (sourceText c) := by
  rw [readQuoted, sourceText] at *
  cases hread : readText .plain (c.place + 1) (c.rest.drop 1) with
  | error e =>
    rw [hread] at h
    dsimp only at h
    split at h <;> cases h
  | ok found =>
    obtain ⟨text, after⟩ := found
    rw [hread] at h
    cases h
    exact ⟨.text (String.ofList text), after, rfl, rfl, rfl⟩

/-- Behind a list or an object that ends, the text can be followed. -/
theorem nextItem_closed {first : Bool} {stop : Option Offset} {after : Option Cursor}
    (h : nextItem c first = .inl (.closed stop, after)) : ∃ next, after = some next := by
  rw [nextItem] at h
  dsimp only at h
  split at h
  · cases h
  split_ifs at h
  · cases h
    exact ⟨_, rfl⟩
  · split at h <;> cases h
  · cases h

theorem nextMember_closed {first : Bool} {stop : Option Offset} {after : Option Cursor}
    (h : nextMember c first = .inl (.closed stop, after)) : ∃ next, after = some next := by
  rw [nextMember] at h
  dsimp only at h
  split at h
  · cases h
  split_ifs at h
  · cases h
    exact ⟨_, rfl⟩
  · cases h
  · split at h <;> cases h
  · cases h

theorem closed_of_named {close : Close} {node : Node} {stop : Option Offset}
    (h : Close.named close node = .closed stop) : close = .closed stop := by
  cases close with
  | closed => exact h
  | cut => cases h

/-- What is read with some bound agrees with its source, for each of the three functions that call
each other. -/
structure AgreesAt (bound : Nat) : Prop where
  node : ∀ {c depth v}, Reading.value depth (readNode bound c).1 = .ok v →
    Agrees v (readNode bound c).2 (sourceNode bound c)
  items : ∀ {c first depth vs stop}, (readItems bound c first).2.1 = .closed stop →
    List.Forall₂ (fun item v => Reading.value depth item.2 = .ok v) (readItems bound c first).1 vs →
    ∃ items after, (readItems bound c first).2.2 = some after ∧
      sourceItems bound c first = some (items, after) ∧ itemValues? items = some vs
  members : ∀ {c first depth entries stop}, (readMembers bound c first).2.1 = .closed stop →
    List.Forall₂ (MemberReads depth) (readMembers bound c first).1 entries →
    ∃ members after, (readMembers bound c first).2.2 = some after ∧
      sourceMembers bound c first = some (members, after) ∧ memberValues? members = some entries

section steps

variable {bound : Nat} {first : Bool} {stop : Option Offset} (ih : AgreesAt bound)

include ih

theorem agrees_node (h : Reading.value depth (readNode (bound + 1) c).1 = .ok v) :
    Agrees v (readNode (bound + 1) c).2 (sourceNode (bound + 1) c) := by
  rw [readNode] at h ⊢
  rw [sourceNode]
  dsimp only at h ⊢
  cases hrest : c.skipSpace.rest with
  | nil =>
    rw [hrest] at h
    cases h
  | cons ch rest =>
    rw [hrest] at h
    dsimp only at h ⊢
    split_ifs at h ⊢
    · exact agrees_text h
    · exact agrees_number h
    · exact agrees_word (by rw [Source.value?]; rfl) h
    · exact agrees_word (by rw [Source.value?]; rfl) h
    · exact agrees_word (by rw [Source.value?]; rfl) h
    · obtain ⟨vs, stop, rfl, hclose, hvs⟩ := Reading.value_list_eq_ok h
      obtain ⟨items, after, hafter, hsource, hvalues⟩ := ih.items hclose hvs
      refine ⟨.list items, after, hafter, ?_, ?_⟩
      · rw [hsource]
        rfl
      · rw [Source.value?, hvalues]
        rfl
    · obtain ⟨entries, stop, rfl, hclose, hentries⟩ := Reading.value_record_eq_ok h
      obtain ⟨members, after, hafter, hsource, hvalues⟩ := ih.members hclose hentries
      refine ⟨.record members, after, hafter, ?_, ?_⟩
      · rw [hsource]
        rfl
      · rw [Source.value?, hvalues]
        rfl
    · cases h

theorem agrees_items {vs : List Value}
    (hclose : (readItems (bound + 1) c first).2.1 = .closed stop)
    (h : List.Forall₂ (fun item v => Reading.value depth item.2 = .ok v)
      (readItems (bound + 1) c first).1 vs) :
    ∃ items after, (readItems (bound + 1) c first).2.2 = some after ∧
      sourceItems (bound + 1) c first = some (items, after) ∧ itemValues? items = some vs := by
  rw [readItems] at h hclose ⊢
  rw [sourceItems]
  cases hnext : nextItem c first with
  | inl found =>
    obtain ⟨close, after⟩ := found
    rw [hnext] at h hclose
    obtain rfl : close = .closed stop := hclose
    obtain ⟨next, rfl⟩ := nextItem_closed hnext
    cases h
    exact ⟨[], next, rfl, rfl, by rw [itemValues?]⟩
  | inr next =>
    rw [hnext] at h hclose
    dsimp only at h hclose ⊢
    cases hafter : (readNode bound next).2 with
    | none =>
      -- such an item has no value
      rw [hafter] at h
      cases h with
      | cons hitem _ =>
        obtain ⟨_, _, hsome, -⟩ := (ih.node hitem).found
        rw [hafter] at hsome
        cases hsome
    | some behind =>
      rw [hafter] at h hclose
      cases h with
      | cons hitem hrest =>
        obtain ⟨s, stop', hsome, hsource, hvalue⟩ := (ih.node hitem).found
        obtain rfl : behind = stop' := Option.some.inj (hafter.symm.trans hsome)
        obtain ⟨items, after, hafter', hsources, hvalues⟩ := ih.items hclose hrest
        refine ⟨s :: items, after, hafter', ?_, ?_⟩
        · simp only [hsource, hsources, Option.bind_eq_bind, Option.bind_some, Option.pure_def]
        · rw [itemValues?, hvalue, hvalues]
          rfl

theorem agrees_members {entries : List (String × Value)}
    (hclose : (readMembers (bound + 1) c first).2.1 = .closed stop)
    (h : List.Forall₂ (MemberReads depth) (readMembers (bound + 1) c first).1 entries) :
    ∃ members after, (readMembers (bound + 1) c first).2.2 = some after ∧
      sourceMembers (bound + 1) c first = some (members, after) ∧
      memberValues? members = some entries := by
  rw [readMembers] at h hclose ⊢
  rw [sourceMembers]
  cases hnext : nextMember c first with
  | inl found =>
    obtain ⟨close, after⟩ := found
    rw [hnext] at h hclose
    dsimp only at h hclose ⊢
    obtain rfl : close = .closed stop := by
      cases first with
      | false => exact hclose
      | true => exact closed_of_named hclose
    obtain ⟨next, rfl⟩ := nextMember_closed hnext
    obtain rfl : entries = [] := by
      cases first <;> cases h <;> rfl
    refine ⟨[], next, ?_, rfl, by rw [memberValues?]⟩
    cases first <;> rfl
  | inr next =>
    rw [hnext] at h hclose
    dsimp only at h hclose ⊢
    cases hname : readName next with
    | error e =>
      rw [hname] at hclose
      cases hclose
    | ok found =>
      obtain ⟨name, flaw, behind⟩ := found
      rw [hname] at h hclose
      dsimp only at h hclose ⊢
      cases hstart : valueStart behind with
      | error e =>
        rw [hstart] at h
        cases h with
        | cons hmember _ => cases hmember.value
      | ok start =>
        rw [hstart] at h hclose
        dsimp only at h hclose ⊢
        cases hafter : (readNode bound start).2 with
        | none =>
          rw [hafter] at h
          cases h with
          | cons hmember _ =>
            obtain ⟨_, _, hsome, -⟩ := (ih.node hmember.value).found
            rw [hafter] at hsome
            cases hsome
        | some behind' =>
          rw [hafter] at h hclose
          cases h with
          | @cons _ named _ entries hmember hrest =>
            obtain ⟨other, v⟩ := named
            obtain rfl : flaw = none := hmember.flaw
            obtain rfl : name = other := hmember.name
            obtain ⟨s, stop', hsome, hsource, hvalue⟩ := (ih.node hmember.value).found
            obtain rfl : behind' = stop' := Option.some.inj (hafter.symm.trans hsome)
            obtain ⟨members, after, hafter', hsources, hvalues⟩ := ih.members hclose hrest
            refine ⟨(name, s) :: members, after, hafter', ?_, ?_⟩
            · simp only [hstart, hsource, hsources, Option.bind_eq_bind, Option.bind_some,
                Option.pure_def]
            · rw [memberValues?, hvalue, hvalues]
              rfl

end steps

theorem agreesAt (bound : Nat) : AgreesAt bound := by
  -- the three functions call each other with the bound before
  induction bound with
  | zero => exact ⟨nofun, nofun, nofun⟩
  | succ bound ih => exact ⟨agrees_node ih, agrees_items ih, agrees_members ih⟩

/-- A text that is read as a value has a source, and the value is what a reader makes of it. -/
theorem source_of_read {text : String} (h : read Reading.value text = .ok v) :
    ∃ s, source text = some s ∧ s.value? = some v := by
  obtain ⟨hroot, htrailing⟩ := Whole.read_eq_ok.mp h
  rw [document] at hroot htrailing
  obtain ⟨s, stop, hafter, hsource, hvalue⟩ :=
    ((agreesAt (2 * text.toList.length + 2)).node hroot).found
  dsimp only at htrailing
  rw [hafter] at htrailing
  refine ⟨s, ?_, hvalue⟩
  rw [source, hsource]
  dsimp only at htrailing ⊢
  split_ifs at htrailing ⊢
  rfl

end KeyLayout.Json
