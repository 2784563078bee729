/-
Changing parts of a document.

Here a node is changed by a function that knows what it is read as: the members of a record
that no slot answers to are dropped (`Node.keep`), and the values of the other members, or the
items of a list, are changed one by one (`Shape.mapParts`, `Node.mapEach`).  What is read from
the changed node follows from what was read before (`Reading.Follows`).
-/
import KeyLayout.Proofs.Document.Alike

namespace KeyLayout.Document

variable {α τ β : Type}

/-! ### The functions -/

namespace Node

/-- Changes the members of a record. -/
def mapMembers (f : List Member → List Member) : Node → Node
  | .record start members close form => .record start (f members) close form
  | .tagged variant node held => .tagged variant (node.mapMembers f) held
  | node => node

/-- Changes the items of a list. -/
def mapItems (f : List Item → List Item) : Node → Node
  | .list start items close asRecord => .list start (f items) close asRecord
  | .tagged variant node held => .tagged variant (node.mapItems f) held
  | node => node

/-- Keeps the members of a record that have certain names. -/
def keep (p : String → Bool) : Node → Node := mapMembers (List.filter (p ·.1.text))

/-- Changes every item of a list, which is known by its index. -/
def mapEach (f : Nat → Node → Node) : Node → Node :=
  mapItems (List.mapIdx fun index item => (item.1, f index item.2))

variable {f : List Member → List Member} {g : List Item → List Item}

@[simp] theorem bare_mapMembers (node : Node) :
    (node.mapMembers f).bare = node.bare.mapMembers f := by
  cases node <;> rfl

@[simp] theorem bare_mapItems (node : Node) : (node.mapItems g).bare = node.bare.mapItems g := by
  cases node <;> rfl

/-- A value that is left out stays so. -/
theorem leftOut_mapMembers {node : Node} (h : Reading.LeftOut node) :
    Reading.LeftOut (node.mapMembers f) := by
  obtain ⟨span, hbare⟩ := h
  refine ⟨span, ?_⟩
  rw [bare_mapMembers, hbare]
  rfl

theorem leftOut_mapItems {node : Node} (h : Reading.LeftOut node) :
    Reading.LeftOut (node.mapItems g) := by
  obtain ⟨span, hbare⟩ := h
  refine ⟨span, ?_⟩
  rw [bare_mapItems, hbare]
  rfl

/-- Whether a node has no parts. -/
def isPlain : Node → Bool
  | .scalar _ _ _ => true
  | .broken _ => true
  | _ => false

/-- A function that changes only nodes with parts, and leaves them nodes with parts. -/
structure KeepsPlain (f : Node → Node) : Prop where
  plain {node : Node} (h : node.isPlain = true) : f node = node
  parts {node : Node} (h : node.isPlain = false) : (f node).isPlain = false

theorem keepsPlain_mapMembers : KeepsPlain (mapMembers f) := by
  constructor <;> intro node h <;> cases node <;> first | rfl | cases h

theorem keepsPlain_mapItems : KeepsPlain (mapItems g) := by
  constructor <;> intro node h <;> cases node <;> first | rfl | cases h

theorem KeepsPlain.comp {f g : Node → Node} (hf : KeepsPlain f) (hg : KeepsPlain g) :
    KeepsPlain fun node => f (g node) := by
  constructor
  · intro node h
    rw [hg.plain h, hf.plain h]
  · intro node h
    exact hf.parts (hg.parts h)

end Node

namespace Shape

/-- Changes the value of a member in the way of the slot that answers to its name. -/
def mapPart (shape : Shape τ) (inner : String → Node → Node) (m : Member) : Member :=
  match shape.slot? m.1.text with
  | some slot => (m.1, inner slot.name m.2)
  | none => m

/-- Changes the items of a list that fill some slots. -/
def mapSlots (inner : String → Node → Node) : List (Slot τ) → List Item → List Item
  | slot :: slots, (after, node) :: items =>
    (after, inner slot.name node) :: mapSlots inner slots items
  | _, items => items

/-- Changes the values in a record, each in the way of its slot. -/
def mapParts (shape : Shape τ) (inner : String → Node → Node) (node : Node) : Node :=
  (node.mapMembers (List.map (shape.mapPart inner))).mapItems (mapSlots inner shape.slots)

theorem keepsPlain_mapParts (shape : Shape τ) (inner : String → Node → Node) :
    Node.KeepsPlain (shape.mapParts inner) :=
  Node.keepsPlain_mapItems.comp Node.keepsPlain_mapMembers

/-- Whether a slot answers to a name. -/
def declares (shape : Shape τ) (name : String) : Bool := (shape.slot? name).isSome

end Shape

/-- Whether a slot of the record or of its base answers to a name. -/
def FlatShape.declares (shape : FlatShape τ β) (name : String) : Bool :=
  shape.own.declares name || shape.base.declares name

/-! ### What is read from the changed node -/

/-- From the changed node, what was read before is read with a change. -/
def Reading.Follows (f : Node → Node) (e : α → α) (read : Reading α) : Prop :=
  ∀ ⦃depth node x⦄, read depth node = .ok x → read depth (f node) = .ok (e x)

/-- From the changed node, a record that is changed is filled to the filled record with a
change. -/
def Slot.Follows (f : Node → Node) (e : τ → τ) (slot : Slot τ) : Prop :=
  ∀ ⦃depth node r r'⦄, slot.fill depth node r = .ok r' → slot.fill depth (f node) (e r) = .ok (e r')

/-- A reader of an option takes a node with parts for a value. -/
theorem Reading.optional_of_parts {read : Reading α} {depth : Nat} {node : Node}
    (h : node.isPlain = false) : Reading.optional read depth node = (read depth node).map some := by
  cases node <;> first | rfl | cases h

namespace Reading.Follows

variable {read : Reading α} {f : Node → Node} {e : α → α}

theorem refl (read : Reading α) : read.Follows (fun node => node) fun x => x :=
  fun _ _ _ h => h

theorem optional (h : read.Follows f e) (hf : Node.KeepsPlain f) :
    (Reading.optional read).Follows f (Option.map e) := by
  intro depth node o ho
  cases hplain : node.isPlain with
  | true =>
    rw [optional_eq_ok] at ho ⊢
    rcases ho with ⟨hnull, rfl⟩ | ⟨hnull, hbreaks, x, hx, rfl⟩
    · rw [hf.plain hplain]
      exact .inl ⟨hnull, rfl⟩
    · have hx' := h hx
      rw [hf.plain hplain] at hx' ⊢
      exact .inr ⟨hnull, hbreaks, e x, hx', rfl⟩
  | false =>
    rw [optional_of_parts hplain] at ho
    rw [optional_of_parts (hf.parts hplain)]
    obtain ⟨x, hx, rfl⟩ := map_eq_ok.mp ho
    exact map_eq_ok.mpr ⟨e x, h hx, rfl⟩

/-- The items of a list may be changed in different ways. -/
theorem list {f : Nat → Node → Node} {e : Nat → α → α}
    (h : ∀ index, read.Follows (f index) (e index)) :
    (Reading.list read).Follows (Node.mapEach f) (List.mapIdx e) := by
  intro depth node xs hxs
  rcases list_eq_ok.mp hxs with ⟨start, items, stop, asRecord, hbare, hdepth, hitems⟩ |
    ⟨hleft, rfl⟩
  · have hitems' : List.Forall₂ (fun item x => read (depth - 1) item.2 = .ok x)
        (items.mapIdx fun index item => (item.1, f index item.2)) (xs.mapIdx e) := by
      rw [List.forall₂_iff_get] at hitems ⊢
      obtain ⟨hlength, hget⟩ := hitems
      refine ⟨by simpa using hlength, fun i hi hi' => ?_⟩
      simp only [List.get_eq_getElem, List.getElem_mapIdx]
      exact h i (hget i (by simpa using hi) (by simpa using hi'))
    refine list_eq_ok.mpr (.inl ⟨start, _, stop, asRecord, ?_, hdepth, hitems'⟩)
    rw [Node.mapEach, Node.bare_mapItems, hbare]
    rfl
  · exact list_eq_ok.mpr (.inr ⟨Node.leftOut_mapItems hleft, rfl⟩)

/-- The items of a list may be changed in one way that is not seen. -/
theorem list_same (h : read.Follows f id) :
    (Reading.list read).Follows (Node.mapEach fun _ => f) id := by
  intro depth node xs hxs
  have hsame : xs.mapIdx (fun _ => id) = xs := List.ext_getElem (by simp) (by simp)
  have hmap := Follows.list (fun _ => h) hxs
  rwa [hsame] at hmap

end Reading.Follows

theorem Slot.of_follows {read : Reading α} {f : Node → Node} {e : α → α} {e' : τ → τ}
    (h : read.Follows f e) {name : String} {presence : Presence} {set : τ → α → τ}
    (hset : ∀ r x, set (e' r) (e x) = e' (set r x)) :
    (Slot.of name presence read set).Follows f e' := by
  intro depth node r r' hr
  obtain ⟨x, hx, rfl⟩ := map_eq_ok.mp hr
  exact map_eq_ok.mpr ⟨e x, h hx, hset r x⟩

namespace Shape

variable {shape : Shape τ} {depth : Nat} {inner : String → Node → Node} {e : τ → τ}

/-- Members that no slot answers to can be dropped. -/
theorem takeMembers_filter {members : List Member} {s s' : τ × List String}
    (hs : shape.takeMembers depth members s = .ok s') :
    shape.takeMembers depth (members.filter (shape.declares ·.1.text)) s = .ok s' := by
  induction members generalizing s with
  | nil => exact hs
  | cons m members ih =>
    obtain ⟨next, hnext, hrest⟩ := takeMembers_cons_eq_ok.mp hs
    obtain ⟨-, ⟨hslot, -, rfl⟩ | ⟨slot, r, hslot, -, -, rfl⟩⟩ := step_eq_ok.mp hnext
    · rw [List.filter_cons_of_neg (by simp [declares, hslot])]
      exact ih hrest
    · rw [List.filter_cons_of_pos (by simp [declares, hslot])]
      exact takeMembers_cons_eq_ok.mpr ⟨_, hnext, ih hrest⟩

theorem read_follows_keep : shape.read.Follows (Node.keep shape.declares) id := by
  intro depth node r hr
  rcases read_eq_ok.mp hr with ⟨start, members, stop, form, hbare, hdepth, hr⟩ |
    ⟨start, items, close, hbare, hdepth, hr⟩ | ⟨hleft, hr⟩
  · obtain ⟨-, state, hstate, hcomplete, rfl⟩ := ofMembers_eq_ok.mp hr
    refine read_eq_ok.mpr (.inl ⟨start, _, stop, form, ?_, hdepth,
      ofMembers_eq_ok.mpr ⟨⟨stop, rfl⟩, state, takeMembers_filter hstate, hcomplete, rfl⟩⟩)
    rw [Node.keep, Node.bare_mapMembers, hbare]
    rfl
  · refine read_eq_ok.mpr (.inr (.inl ⟨start, items, close, ?_, hdepth, hr⟩))
    rw [Node.keep, Node.bare_mapMembers, hbare]
    rfl
  · exact read_eq_ok.mpr (.inr (.inr ⟨Node.leftOut_mapMembers hleft, hr⟩))

section mapParts

variable (hslots : ∀ slot ∈ shape.slots, slot.Follows (inner slot.name) e)
include hslots

theorem step_mapPart {s s' : τ × List String} {m : Member}
    (hs : shape.step depth s m.1 m.2 = .ok s') :
    shape.step depth (e s.1, s.2) (shape.mapPart inner m).1 (shape.mapPart inner m).2 =
      .ok (e s'.1, s'.2) := by
  obtain ⟨hflaw, ⟨hslot, hskip, rfl⟩ | ⟨slot, r, hslot, hseen, hfill, rfl⟩⟩ := step_eq_ok.mp hs
  · have hm : shape.mapPart inner m = m := by rw [mapPart, hslot]
    rw [hm]
    exact step_eq_ok.mpr ⟨hflaw, .inl ⟨hslot, hskip, rfl⟩⟩
  · have hm : shape.mapPart inner m = (m.1, inner slot.name m.2) := by rw [mapPart, hslot]
    rw [hm]
    exact step_eq_ok.mpr
      ⟨hflaw, .inr ⟨slot, e r, hslot, hseen, hslots slot (slot?_mem hslot) hfill, rfl⟩⟩

theorem takeMembers_mapPart {members : List Member} {s s' : τ × List String}
    (hs : shape.takeMembers depth members s = .ok s') :
    shape.takeMembers depth (members.map (shape.mapPart inner)) (e s.1, s.2) =
      .ok (e s'.1, s'.2) := by
  induction members generalizing s with
  | nil =>
    cases hs
    rfl
  | cons m members ih =>
    obtain ⟨next, hnext, hs⟩ := takeMembers_cons_eq_ok.mp hs
    exact takeMembers_cons_eq_ok.mpr ⟨_, step_mapPart hslots hnext, ih hs⟩

theorem ofMembers_mapPart (hblank : e shape.blank = shape.blank) {members : List Member}
    {close : Close} {r : τ} (hr : shape.ofMembers depth members close = .ok r) :
    shape.ofMembers depth (members.map (shape.mapPart inner)) close = .ok (e r) := by
  obtain ⟨hclose, state, hstate, hcomplete, rfl⟩ := ofMembers_eq_ok.mp hr
  have hstate' := takeMembers_mapPart hslots hstate
  rw [hblank] at hstate'
  exact ofMembers_eq_ok.mpr ⟨hclose, _, hstate', hcomplete, rfl⟩

omit hslots in
theorem takeItems_mapSlots {slots : List (Slot τ)}
    (hslots : ∀ slot ∈ slots, slot.Follows (inner slot.name) e) {close : Close} {index : Nat}
    {items : List Item} {notLast : Option Complaint} {r r' : τ}
    (hr : shape.takeItems depth close index slots items notLast r = .ok r') :
    shape.takeItems depth close index slots (mapSlots inner slots items) notLast (e r) =
      .ok (e r') := by
  induction slots generalizing index items notLast r with
  | nil =>
    rcases notLast with _ | c
    · cases hr
      cases items <;> rfl
    · cases hr
  | cons slot slots ih =>
    have hrest : ∀ slot ∈ slots, slot.Follows (inner slot.name) e := fun slot hslot =>
      hslots slot (List.mem_cons_of_mem _ hslot)
    rcases items with _ | ⟨⟨after, node⟩, items⟩
    · obtain ⟨stop, hstop, hr⟩ := bind_eq_ok.mp hr
      refine bind_eq_ok.mpr ⟨stop, hstop, ?_⟩
      split at hr
      · rw [if_pos ‹_›]
        have hnil : mapSlots inner slots [] = [] := by cases slots <;> rfl
        have := ih hrest hr
        rwa [hnil] at this
      · cases hr
    · obtain ⟨next, hnext, hr⟩ := bind_eq_ok.mp hr
      have hfill := hslots slot List.mem_cons_self (locate_eq_ok.mp hnext)
      exact bind_eq_ok.mpr ⟨e next, locate_eq_ok.mpr hfill, ih hrest hr⟩

/-- A record follows the changes of its parts. -/
theorem read_follows_mapParts (hblank : e shape.blank = shape.blank) :
    shape.read.Follows (shape.mapParts inner) e := by
  intro depth node r hr
  rcases read_eq_ok.mp hr with ⟨start, members, stop, form, hbare, hdepth, hr⟩ |
    ⟨start, items, close, hbare, hdepth, hr⟩ | ⟨hleft, hr⟩
  · refine read_eq_ok.mpr (.inl ⟨start, _, stop, form, ?_, hdepth,
      ofMembers_mapPart hslots hblank hr⟩)
    rw [mapParts, Node.bare_mapItems, Node.bare_mapMembers, hbare]
    rfl
  · have hitems := takeItems_mapSlots hslots hr
    rw [hblank] at hitems
    refine read_eq_ok.mpr (.inr (.inl ⟨start, _, close, ?_, hdepth, hitems⟩))
    rw [mapParts, Node.bare_mapItems, Node.bare_mapMembers, hbare]
    rfl
  · refine read_eq_ok.mpr (.inr (.inr ⟨Node.leftOut_mapItems (Node.leftOut_mapMembers hleft), ?_⟩))
    exact ofMembers_mapPart hslots hblank hr

end mapParts

end Shape

namespace FlatShape

variable {shape : FlatShape τ β} {depth : Nat} {e : τ → τ}

/-- Of fewer members less is held back. -/
theorem detachMembers_filter (p : String → Bool) {members held : List Member}
    (h : detachMembers depth members = .ok held) :
    detachMembers depth (members.filter (p ·.1.text)) = .ok (held.filter (p ·.1.text)) := by
  rw [detachMembers_eq_ok] at h ⊢
  refine List.rel_filter (fun m m' hm => ?_) h
  show p m.1.text = true ↔ p m'.1.text = true
  rw [hm.key, MemberKey.detach]

/-- From the declared members alone a record is read with nothing left over to be assembled. -/
theorem read_follows_keep
    (hassemble : ∀ ⦃base others r x⦄, shape.assemble base others r = .ok x →
      shape.assemble base [] r = .ok (e x)) :
    shape.read.Follows (Node.keep shape.declares) e := by
  intro depth node r hr
  rcases read_eq_ok.mp hr with ⟨start, members, stop, form, hbare, hdepth, state, held, htaken,
    hheld, hr⟩ | ⟨hleft, hr⟩
  · obtain ⟨base, hbase, hr⟩ := assembled_eq_ok.mp hr
    -- all of the record's own members are kept, and of those held back the base's
    have hown : (members.filter (shape.declares ·.1.text)).filter shape.isOwn =
        members.filter shape.isOwn := by
      rw [List.filter_filter]
      refine List.filter_congr fun m _ => ?_
      rw [declares, Shape.declares, isOwn]
      cases (shape.own.slot? m.1.text).isSome <;> rfl
    have hothers : (members.filter (shape.declares ·.1.text)).filter (!shape.isOwn ·) =
        (members.filter (!shape.isOwn ·)).filter (shape.base.declares ·.1.text) := by
      rw [List.filter_filter, List.filter_filter]
      refine List.filter_congr fun m _ => ?_
      rw [declares, Shape.declares, isOwn]
      cases (shape.own.slot? m.1.text).isSome <;> simp
    have hheld' := detachMembers_filter shape.base.declares hheld
    have hassembled : shape.assembled (depth - 1) state.1 (held.filter shape.isBase) =
        .ok (e r) := by
      have hbaseOnly :
          (held.filter shape.isBase).filter shape.isBase = held.filter shape.isBase := by
        simp [List.filter_filter]
      have hrest : (held.filter shape.isBase).filter (!shape.isBase ·) = [] := by
        simp [List.filter_filter]
      refine assembled_eq_ok.mpr ⟨base, ?_, ?_⟩
      · rw [hbaseOnly]
        exact hbase
      · rw [hrest]
        exact hassemble hr
    refine read_eq_ok.mpr (.inl ⟨start, members.filter (shape.declares ·.1.text), stop, form, ?_,
      hdepth, state, held.filter shape.isBase, ?_, ?_, hassembled⟩)
    · rw [Node.keep, Node.bare_mapMembers, hbare]
      rfl
    · rw [hown]
      exact htaken
    · rw [hothers]
      exact hheld'
  · obtain ⟨base, hbase, hr⟩ := assembled_eq_ok.mp hr
    have hassembled : shape.assembled depth shape.own.blank [] = .ok (e r) :=
      assembled_eq_ok.mpr ⟨base, hbase, hassemble hr⟩
    exact read_eq_ok.mpr (.inr ⟨Node.leftOut_mapMembers hleft, hassembled⟩)

end FlatShape

end KeyLayout.Document
