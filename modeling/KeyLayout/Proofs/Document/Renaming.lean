/-
Other names for the same members.

A reading is blind to a change of the node if it reads the same from the changed node, or
complains in the same way (`Reading.Blind`).  A record with a base among its members is blind to
new names that belong to the same slots as the old ones (`FlatShape.read_blind_rename`), and a
record is blind to changes of its parts to which the slots are blind (`Shape.read_blind_mapParts`).
-/
import KeyLayout.Proofs.Document.Parts

namespace KeyLayout.Document

variable {α τ β : Type}

/-- The change of a node makes no difference. -/
def Reading.Blind (f : Node → Node) (read : Reading α) : Prop :=
  ∀ depth node, read depth (f node) = read depth node

/-- The change of a node makes no difference to what a slot is filled with. -/
def Slot.Blind (f : Node → Node) (slot : Slot τ) : Prop :=
  ∀ r, Reading.Blind f fun depth node => slot.fill depth node r

/-- A member under a new name. -/
def Member.rename (f : String → String) (m : Member) : Member :=
  ({ m.1 with text := f m.1.text }, m.2)

/-- Gives the members of a record new names. -/
def Node.rename (f : String → String) : Node → Node := mapMembers (List.map (Member.rename f))

namespace Node

variable {f : List Member → List Member} {g : List Item → List Item} {expected : String}

/-- A complaint about the kind of a node does not go into its parts. -/
theorem mismatch_mapMembers :
    ∀ node : Node, (node.mapMembers f).mismatch expected = node.mismatch expected
  | .scalar _ _ _ => rfl
  | .broken _ => rfl
  | .list _ _ _ _ => rfl
  | .record _ _ _ _ => rfl
  | .tagged _ node _ => mismatch_mapMembers node

theorem mismatch_mapItems :
    ∀ node : Node, (node.mapItems g).mismatch expected = node.mismatch expected
  | .scalar _ _ _ => rfl
  | .broken _ => rfl
  | .list _ _ _ _ => rfl
  | .record _ _ _ _ => rfl
  | .tagged _ node _ => mismatch_mapItems node

end Node

namespace Reading.Blind

variable {read : Reading α} {f : Node → Node}

theorem refl (read : Reading α) : read.Blind id := fun _ _ => rfl

theorem optional (h : read.Blind f) (hf : Node.KeepsPlain f) : (Reading.optional read).Blind f := by
  intro depth node
  cases hplain : node.isPlain with
  | true => rw [hf.plain hplain]
  | false => rw [optional_of_parts (hf.parts hplain), optional_of_parts hplain, h]

theorem items (h : read.Blind f) (depth : Nat) (items : List Item) :
    Reading.items read depth (items.mapIdx fun _ item => (item.1, f item.2)) =
      Reading.items read depth items := by
  induction items with
  | nil => rfl
  | cons item items ih => rw [List.mapIdx_cons, Reading.items, Reading.items, h, ih]

theorem list (h : read.Blind f) : (Reading.list read).Blind (Node.mapEach fun _ => f) := by
  intro depth node
  rw [Reading.list, Reading.list, Node.mapEach, Node.bare_mapItems]
  generalize node.bare = node
  cases node with
  | list start items close asRecord =>
    simp only [Node.mapItems, h.items]
  | tagged variant node held =>
    simp only [Node.mapItems, Node.mismatch, Node.mismatch_mapItems]
  | _ => rfl

end Reading.Blind

theorem Slot.of_blind {read : Reading α} {f : Node → Node} (h : read.Blind f) {name : String}
    {presence : Presence} {set : τ → α → τ} : (Slot.of name presence read set).Blind f := by
  intro r depth node
  simp only [Slot.of, h depth node]

/-- Members can be changed if no step sees the change. -/
theorem Shape.takeMembers_map {shape : Shape τ} {depth : Nat} {g : Member → Member}
    (hstep : ∀ state m, shape.step depth state (g m).1 (g m).2 = shape.step depth state m.1 m.2)
    (members : List Member) (state : τ × List String) :
    shape.takeMembers depth (members.map g) state = shape.takeMembers depth members state := by
  induction members generalizing state with
  | nil => rfl
  | cons m members ih => rw [List.map_cons, takeMembers, takeMembers, hstep, funext ih]

/-! ### Changes of the parts of a record -/

namespace Shape

variable {shape : Shape τ} {inner : String → Node → Node}
  (hslots : ∀ slot ∈ shape.slots, slot.Blind (inner slot.name))
include hslots

theorem step_mapPart_blind {depth : Nat} (state : τ × List String) (m : Member) :
    shape.step depth state (shape.mapPart inner m).1 (shape.mapPart inner m).2 =
      shape.step depth state m.1 m.2 := by
  rw [mapPart]
  cases hslot : shape.slot? m.1.text with
  | none => rfl
  | some slot =>
    have hfill (r : τ) : slot.fill depth (inner slot.name m.2) r = slot.fill depth m.2 r :=
      hslots slot (slot?_mem hslot) r depth m.2
    rw [step, step, MemberKey.name]
    cases m.1.flaw with
    | some c => rfl
    | none => simp only [ok_bind, hslot, hfill]

omit hslots in
theorem takeItems_mapSlots_blind {depth : Nat} {close : Close} {slots : List (Slot τ)}
    (hslots : ∀ slot ∈ slots, slot.Blind (inner slot.name)) (index : Nat) (items : List Item)
    (notLast : Option Complaint) (r : τ) :
    shape.takeItems depth close index slots (mapSlots inner slots items) notLast r =
      shape.takeItems depth close index slots items notLast r := by
  induction slots generalizing index items notLast r with
  | nil => cases items <;> rfl
  | cons slot slots ih =>
    rcases items with _ | ⟨⟨after, node⟩, items⟩
    · rfl
    · have hfill : slot.fill depth (inner slot.name node) r = slot.fill depth node r :=
        hslots slot List.mem_cons_self r depth node
      have hrest := ih fun slot hslot => hslots slot (List.mem_cons_of_mem _ hslot)
      rw [mapSlots, takeItems, takeItems, hfill]
      simp only [hrest]

/-- A record is blind to changes of its parts to which its slots are. -/
theorem read_blind_mapParts : shape.read.Blind (shape.mapParts inner) := by
  intro depth node
  rw [read, read, mapParts, Node.bare_mapItems, Node.bare_mapMembers]
  generalize node.bare = node
  cases node with
  | record start members close form =>
    simp only [Node.mapMembers, Node.mapItems, ofMembers,
      takeMembers_map (step_mapPart_blind hslots)]
  | list start items close asRecord =>
    cases asRecord with
    | true => simp only [Node.mapMembers, Node.mapItems, takeItems_mapSlots_blind hslots]
    | false => rfl
  | tagged variant node held =>
    simp only [Node.mapMembers, Node.mapItems, Node.mismatch, Node.mismatch_mapItems,
      Node.mismatch_mapMembers]
  | _ => rfl

end Shape

/-! ### New names -/

namespace Shape

variable {shape : Shape τ} {f : String → String} {depth : Nat}
  (hf : ∀ name, shape.slot? (f name) = shape.slot? name)
include hf

theorem step_rename (state : τ × List String) (m : Member) :
    shape.step depth state (Member.rename f m).1 (Member.rename f m).2 =
      shape.step depth state m.1 m.2 := by
  rw [step, step, MemberKey.name, MemberKey.name, Member.rename]
  cases m.1.flaw with
  | some c => rfl
  | none => simp only [ok_bind, hf]

theorem ofMembers_rename (members : List Member) (close : Close) :
    shape.ofMembers depth (members.map (Member.rename f)) close =
      shape.ofMembers depth members close := by
  rw [ofMembers, ofMembers, takeMembers_map (step_rename hf)]

end Shape

namespace FlatShape

/-- New names that belong to the same slots as the old ones; a name that belongs to none is not
replaced. -/
structure Synonyms (shape : FlatShape τ β) (f : String → String) : Prop where
  own (name : String) : shape.own.slot? (f name) = shape.own.slot? name
  base (name : String) : shape.base.slot? (f name) = shape.base.slot? name
  other (name : String) (hown : shape.own.slot? name = none)
    (hbase : shape.base.slot? name = none) : f name = name

variable {shape : FlatShape τ β} {f : String → String} {depth : Nat}

/-- What is held back is none of the record's own members. -/
theorem takeMembers_others {members held : List Member} {state state' : τ × List String}
    (h : shape.takeMembers depth members state = .ok (state', held)) :
    ∀ m ∈ held, shape.own.slot? m.1.text = none := by
  obtain ⟨pairs, hmembers, rfl, hpairs⟩ :=
    exists_pairs (detachMembers_eq_ok.mp (takeMembers_eq_ok.mp h).2)
  intro m hm
  obtain ⟨p, hp, rfl⟩ := List.mem_map.mp hm
  have hother : p.1 ∈ members.filter (!shape.isOwn ·) := hmembers ▸ List.mem_map_of_mem hp
  rw [(hpairs p hp).key, MemberKey.detach]
  simpa [isOwn] using (List.mem_filter.mp hother).2

variable (hf : shape.Synonyms f)
include hf

/-- What is held back is held back under its new name. -/
theorem takeMembers_rename (members : List Member) (state : τ × List String) :
    shape.takeMembers depth (members.map (Member.rename f)) state =
      (shape.takeMembers depth members state).map fun taken =>
        (taken.1, taken.2.map (Member.rename f)) := by
  induction members generalizing state with
  | nil => rfl
  | cons m members ih =>
    obtain ⟨key, node⟩ := m
    have hstep : shape.own.step depth state { key with text := f key.text } node =
        shape.own.step depth state key node := Shape.step_rename hf.own state (key, node)
    rw [List.map_cons, Member.rename, takeMembers, takeMembers, MemberKey.name, MemberKey.name]
    cases key.flaw with
    | some c => rfl
    | none =>
      simp only [ok_bind, hf.own, hstep, ih]
      cases shape.own.slot? key.text with
      | some slot => cases shape.own.step depth state key node <;> rfl
      | none =>
        cases node.detach depth with
        | error c => rfl
        | ok node => cases shape.takeMembers depth members state <;> rfl

theorem assembled_rename {held : List Member} (hheld : ∀ m ∈ held, shape.own.slot? m.1.text = none)
    (record : τ) :
    shape.assembled depth record (held.map (Member.rename f)) =
      shape.assembled depth record held := by
  have hbase : shape.isBase ∘ Member.rename f = shape.isBase := by
    funext m
    rw [Function.comp_apply, isBase, isBase, Member.rename, hf.base]
  have hmine : (held.map (Member.rename f)).filter shape.isBase =
      (held.filter shape.isBase).map (Member.rename f) := by
    rw [List.filter_map, hbase]
  -- what is left over belongs to no slot and keeps its name
  have hothers : (held.map (Member.rename f)).filter (!shape.isBase ·) =
      held.filter (!shape.isBase ·) := by
    have hnot : (!shape.isBase ·) ∘ Member.rename f = (!shape.isBase ·) :=
      funext fun m => congrArg Bool.not (congrFun hbase m)
    rw [List.filter_map, hnot]
    refine (List.map_congr_left fun m hm => ?_).trans (List.map_id _)
    obtain ⟨hmem, hother⟩ := List.mem_filter.mp hm
    have hname : f m.1.text = m.1.text :=
      hf.other m.1.text (hheld m hmem) (by simpa [isBase] using hother)
    rw [Member.rename, hname]
    rfl
  have hofMembers : shape.base.ofMembers depth ((held.filter shape.isBase).map (Member.rename f))
      (.closed none) = shape.base.ofMembers depth (held.filter shape.isBase) (.closed none) :=
    Shape.ofMembers_rename hf.base _ _
  show (shape.base.ofMembers depth ((held.map (Member.rename f)).filter shape.isBase) (.closed none)
    >>= fun base => shape.assemble base
      ((held.map (Member.rename f)).filter (!shape.isBase ·)) record) = _
  rw [hmine, hofMembers, hothers]
  rfl

/-- **New names are as good as the old ones.** -/
theorem read_blind_rename : shape.read.Blind (Node.rename f) := by
  intro depth node
  rw [read, read, Node.rename, Node.bare_mapMembers]
  generalize node.bare = node
  cases node with
  | record start members close form =>
    simp only [Node.mapMembers, takeMembers_rename hf]
    cases descend depth start with
    | error c => rfl
    | ok depth =>
      rw [ok_bind, ok_bind]
      cases htaken : shape.takeMembers depth members (shape.own.blank, []) with
      | error c => rfl
      | ok taken =>
        have hothers : ∀ m ∈ taken.2, shape.own.slot? m.1.text = none := takeMembers_others htaken
        rw [Except.map, ok_bind, ok_bind, assembled_rename hf hothers]
  | tagged variant node held =>
    simp only [Node.mapMembers, Node.mismatch, Node.mismatch_mapMembers]
  | _ => rfl

end FlatShape

end KeyLayout.Document
