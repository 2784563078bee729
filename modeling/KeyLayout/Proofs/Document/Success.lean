/-
When a value is read.

For each reader that is put together from others there is one equivalence that says what it
takes for a value to be read: `optional_eq_ok`, `list_eq_ok`, `Shape.read_eq_ok`,
`FlatShape.read_eq_ok`.  Complaints and places are left out of them, so whatever only moves
places or changes what would be complained about can be followed through all readers.
-/
import Mathlib.Data.List.Forall2
import KeyLayout.Proofs.Document.Shape

namespace KeyLayout.Document

/-- A member of a record. -/
abbrev Member := MemberKey × Node

/-- An item of a list. -/
abbrev Item := After × Node

theorem MemberKey.name_eq_ok {key : MemberKey} {name : String} :
    key.name = .ok name ↔ key.flaw = none ∧ key.text = name := by
  rw [MemberKey.name]
  cases key.flaw <;> simp

theorem Close.finish_eq_ok {close : Close} {stop : Option Offset} :
    close.finish = .ok stop ↔ close = .closed stop := by
  cases close <;> simp [Close.finish]

/-- Whether a reader of an option takes a node for `null`. -/
def Node.isNull : Node → Bool
  | .scalar .null _ _ => true
  | _ => false

/-- Whether a node goes wrong as `null` does. -/
def Node.breaksAsNull : Node → Bool
  | .broken b => b.startsNull
  | _ => false

namespace Reading

variable {α : Type} {read : Reading α} {depth : Nat} {node : Node}

theorem bool_eq_ok {b : Bool} :
    bool depth node = .ok b ↔ ∃ raw span, node.bare = .scalar (.bool b) raw span := by
  rw [bool]
  constructor
  · intro h
    split at h
    · rename_i hbare
      cases h
      exact ⟨_, _, hbare⟩
    · cases h
  · rintro ⟨raw, span, hbare⟩
    simp only [hbare]

theorem int32_eq_ok {n : Int} :
    int32 depth node = .ok n ↔ (∃ raw span, node.bare = .scalar (.int n) raw span) ∧
      -2147483648 ≤ n ∧ n ≤ 2147483647 := by
  rw [int32]
  constructor
  · intro h
    split at h
    · rename_i hbare
      split at h
      · cases h
        exact ⟨⟨_, _, hbare⟩, ‹_›⟩
      · cases h
    · cases h
  · rintro ⟨⟨raw, span, hbare⟩, hn⟩
    simp only [hbare, if_pos hn]

theorem text_eq_ok {s : String} :
    text depth node = .ok s ↔ (∃ raw span, node.bare = .scalar (.text s) raw span) ∨
      ∃ value span, (∀ s, value ≠ .text s) ∧ node.bare = .scalar value (some s) span := by
  rw [text, textAs]
  constructor
  · intro h
    split at h
    · rename_i hbare
      cases h
      exact .inl ⟨_, _, hbare⟩
    · rename_i value _ _ htext hbare
      cases h
      exact .inr ⟨value, _, htext, hbare⟩
    · cases h
  · rintro (⟨raw, span, hbare⟩ | ⟨value, span, htext, hbare⟩)
    · simp only [hbare]
    · cases value <;> simp_all

theorem optional_eq_ok {o : Option α} :
    optional read depth node = .ok o ↔ (node.isNull = true ∧ o = none) ∨
      (node.isNull = false ∧ node.breaksAsNull = false ∧
        ∃ x, read depth node = .ok x ∧ some x = o) := by
  rw [optional.eq_def]
  split
  · constructor
    · rintro ⟨⟩
      exact .inl ⟨rfl, rfl⟩
    · rintro (⟨-, rfl⟩ | ⟨⟨⟩, -⟩)
      rfl
  · rename_i b
    cases hb : b.startsNull <;> simp [Node.isNull, Node.breaksAsNull, hb, map_eq_ok]
  · rename_i hnull hbroken
    have hisNull : node.isNull = false := by
      rw [Node.isNull.eq_def]
      split
      · exact absurd rfl (hnull _ _)
      · rfl
    have hbreaks : node.breaksAsNull = false := by
      rw [Node.breaksAsNull.eq_def]
      split
      · exact absurd rfl (hbroken _)
      · rfl
    simp [hisNull, hbreaks, map_eq_ok]

theorem items_eq_ok {items : List Item} {xs : List α} :
    Reading.items read depth items = .ok xs ↔
      List.Forall₂ (fun item x => read depth item.2 = .ok x) items xs := by
  induction items generalizing xs with
  | nil =>
    rw [Reading.items, Except.ok.injEq, List.forall₂_nil_left_iff]
    exact eq_comm
  | cons item items ih =>
    rw [Reading.items, List.forall₂_cons_left_iff]
    constructor
    · intro h
      obtain ⟨x, hx, h⟩ := bind_eq_ok.mp h
      obtain ⟨rest, hrest, h⟩ := bind_eq_ok.mp h
      obtain rfl := pure_eq_ok.mp h
      exact ⟨x, rest, locate_eq_ok.mp hx, ih.mp hrest, rfl⟩
    · rintro ⟨x, rest, hx, hrest, rfl⟩
      rw [locate_eq_ok.mpr hx, ok_bind, ih.mpr hrest]
      rfl

/-- A value that is left out, without even a word for it. -/
def LeftOut (node : Node) : Prop := ∃ span, node.bare = .scalar .null (some "") span

theorem list_eq_ok {xs : List α} :
    list read depth node = .ok xs ↔
      (∃ start items stop asRecord, node.bare = .list start items (.closed stop) asRecord ∧
        1 < depth ∧ List.Forall₂ (fun item x => read (depth - 1) item.2 = .ok x) items xs) ∨
      (LeftOut node ∧ xs = []) := by
  rw [list]
  constructor
  · intro h
    split at h
    case h_1 hbare =>
      obtain ⟨depth', hdescend, h⟩ := bind_eq_ok.mp h
      obtain ⟨hdepth, rfl⟩ := descend_eq_ok.mp hdescend
      obtain ⟨ys, hys, h⟩ := bind_eq_ok.mp h
      obtain ⟨stop, hstop, h⟩ := bind_eq_ok.mp h
      obtain rfl := pure_eq_ok.mp h
      obtain rfl := Close.finish_eq_ok.mp hstop
      exact .inl ⟨_, _, _, _, hbare, hdepth, items_eq_ok.mp hys⟩
    case h_2 hbare =>
      cases h
      exact .inr ⟨⟨_, hbare⟩, rfl⟩
    case h_3 => cases h
  · rintro (⟨start, items, stop, asRecord, hbare, hdepth, hitems⟩ | ⟨⟨span, hbare⟩, rfl⟩)
    · simp only [hbare]
      rw [descend_eq_ok.mpr ⟨hdepth, rfl⟩, ok_bind, items_eq_ok.mpr hitems]
      rfl
    · simp only [hbare]

/-- Nothing stands where a variant has no content. -/
theorem unit_eq_ok : unit depth node = .ok () ↔ ∃ raw span, node.bare = .scalar .null raw span := by
  rw [unit]
  constructor
  · intro h
    split at h
    · rename_i hbare
      exact ⟨_, _, hbare⟩
    · cases h
  · rintro ⟨raw, span, hbare⟩
    simp only [hbare]

end Reading

theorem findVariant_eq_ok {α : Type} {variants : List (Variant α)} {name : String}
    {place : Option Offset} {v : Variant α} :
    findVariant variants name place = .ok v ↔ variants.find? (·.name == name) = some v := by
  rw [findVariant]
  cases variants.find? (·.name == name) <;> simp

theorem endOfVariant_eq_ok {settled : Option Offset} {more : List Member} {close : Close} :
    endOfVariant settled more close = .ok () ↔ more = [] ∧ ∃ stop, close = .closed stop := by
  rw [endOfVariant.eq_def]
  cases more <;> cases close <;> simp

namespace Shape

variable {τ : Type} {shape : Shape τ} {depth : Nat}

/-- What it takes to take a member: its name can be read, and either no slot answers to it and
its value can be skipped, or a slot does that is not filled yet. -/
theorem step_eq_ok {state state' : τ × List String} {key : MemberKey} {node : Node} :
    shape.step depth state key node = .ok state' ↔ key.flaw = none ∧
      ((shape.slot? key.text = none ∧ node.skip = .ok () ∧ state' = state) ∨
        ∃ slot r, shape.slot? key.text = some slot ∧ slot.name ∉ state.2 ∧
          slot.fill depth node state.1 = .ok r ∧ state' = (r, slot.name :: state.2)) := by
  rw [step]
  constructor
  · intro h
    obtain ⟨name, hname, h⟩ := bind_eq_ok.mp h
    obtain ⟨hflaw, rfl⟩ := MemberKey.name_eq_ok.mp hname
    refine ⟨hflaw, ?_⟩
    split at h
    case h_1 hslot =>
      obtain ⟨_, hskip, h⟩ := bind_eq_ok.mp h
      obtain rfl := pure_eq_ok.mp h
      exact .inl ⟨hslot, hskip, rfl⟩
    case h_2 slot hslot =>
      split at h
      · simp [throw, throwThe, MonadExceptOf.throw] at h
      · rename_i hseen
        obtain ⟨r, hr, h⟩ := bind_eq_ok.mp h
        obtain rfl := pure_eq_ok.mp h
        exact .inr ⟨slot, r, hslot, by simpa using hseen, locate_eq_ok.mp hr, rfl⟩
  · rintro ⟨hflaw, ⟨hslot, hskip, rfl⟩ | ⟨slot, r, hslot, hseen, hr, rfl⟩⟩
    · rw [MemberKey.name_eq_ok.mpr ⟨hflaw, rfl⟩, ok_bind, hslot]
      dsimp only
      rw [hskip]
      rfl
    · rw [MemberKey.name_eq_ok.mpr ⟨hflaw, rfl⟩, ok_bind, hslot]
      dsimp only
      rw [if_neg (by simpa using hseen), locate_eq_ok.mpr hr]
      rfl

/-- The members are taken one after the other. -/
theorem takeMembers_eq_foldlM (members : List Member) (state : τ × List String) :
    shape.takeMembers depth members state =
      members.foldlM (fun state m => shape.step depth state m.1 m.2) state := by
  induction members generalizing state with
  | nil => rfl
  | cons m members ih => rw [takeMembers, List.foldlM_cons, funext ih]

theorem takeMembers_cons_eq_ok {m : Member} {members : List Member}
    {state state' : τ × List String} :
    shape.takeMembers depth (m :: members) state = .ok state' ↔
      ∃ next, shape.step depth state m.1 m.2 = .ok next ∧
        shape.takeMembers depth members next = .ok state' := by
  rw [takeMembers, bind_eq_ok]

/-- Every slot that a record has to have is filled. -/
def Complete (shape : Shape τ) (seen : List String) : Prop :=
  ∀ slot ∈ shape.slots, slot.presence = .required → slot.name ∈ seen

theorem complete_eq_ok_iff {state : τ × List String} {stop : Option Offset} {r : τ} :
    shape.complete state stop = .ok r ↔ shape.Complete state.2 ∧ state.1 = r := by
  rw [complete]
  split
  · rename_i slot hslot
    have hmissing := List.find?_some hslot
    simp only [Bool.and_eq_true, beq_iff_eq, Bool.not_eq_true', List.contains_eq_mem,
      decide_eq_false_iff_not] at hmissing
    refine iff_of_false (by simp) fun h => ?_
    exact hmissing.2 (h.1 slot (List.mem_of_find?_eq_some hslot) hmissing.1)
  · rename_i hall
    rw [List.find?_eq_none] at hall
    have hcomplete : shape.Complete state.2 := by
      intro slot hslot hrequired
      simpa [hrequired] using hall slot hslot
    rw [Except.ok.injEq]
    exact (and_iff_right hcomplete).symm

theorem ofMembers_eq_ok {members : List Member} {close : Close} {r : τ} :
    shape.ofMembers depth members close = .ok r ↔ (∃ stop, close = .closed stop) ∧
      ∃ state, shape.takeMembers depth members (shape.blank, []) = .ok state ∧
        shape.Complete state.2 ∧ state.1 = r := by
  rw [ofMembers]
  constructor
  · intro h
    obtain ⟨state, hstate, h⟩ := bind_eq_ok.mp h
    obtain ⟨stop, hstop, h⟩ := bind_eq_ok.mp h
    exact ⟨⟨stop, Close.finish_eq_ok.mp hstop⟩, state, hstate, complete_eq_ok_iff.mp h⟩
  · rintro ⟨⟨stop, rfl⟩, state, hstate, hcomplete⟩
    rw [hstate, ok_bind, Close.finish, ok_bind]
    exact complete_eq_ok_iff.mpr hcomplete

/-- A record is read from its members, from the items of a list, or from nothing at all. -/
theorem read_eq_ok {node : Node} {r : τ} :
    shape.read depth node = .ok r ↔
      (∃ start members stop form, node.bare = .record start members (.closed stop) form ∧
        1 < depth ∧ shape.ofMembers (depth - 1) members (.closed stop) = .ok r) ∨
      (∃ start items close, node.bare = .list start items close true ∧ 1 < depth ∧
        shape.takeItems (depth - 1) close 0 shape.slots items none shape.blank = .ok r) ∨
      (Reading.LeftOut node ∧ shape.ofMembers depth [] (.closed none) = .ok r) := by
  rw [read]
  constructor
  · intro h
    split at h
    case h_1 hbare =>
      obtain ⟨depth', hdescend, h⟩ := bind_eq_ok.mp h
      obtain ⟨hdepth, rfl⟩ := descend_eq_ok.mp hdescend
      obtain ⟨⟨stop, rfl⟩, -⟩ := ofMembers_eq_ok.mp h
      exact .inl ⟨_, _, _, _, hbare, hdepth, h⟩
    case h_2 hbare =>
      obtain ⟨depth', hdescend, h⟩ := bind_eq_ok.mp h
      obtain ⟨hdepth, rfl⟩ := descend_eq_ok.mp hdescend
      exact .inr (.inl ⟨_, _, _, hbare, hdepth, h⟩)
    case h_3 hbare => exact .inr (.inr ⟨⟨_, hbare⟩, h⟩)
    case h_4 => cases h
  · rintro (⟨start, members, stop, form, hbare, hdepth, h⟩ |
      ⟨start, items, close, hbare, hdepth, h⟩ | ⟨⟨span, hbare⟩, h⟩)
    · simp only [hbare]
      rw [descend_eq_ok.mpr ⟨hdepth, rfl⟩, ok_bind, h]
    · simp only [hbare]
      rw [descend_eq_ok.mpr ⟨hdepth, rfl⟩, ok_bind, h]
    · simp only [hbare]
      exact h

end Shape

namespace FlatShape

variable {τ β : Type} {shape : FlatShape τ β} {depth : Nat}

/-- Whether a member is one of the record's own. -/
def isOwn (shape : FlatShape τ β) (m : Member) : Bool := (shape.own.slot? m.1.text).isSome

/-- Whether a member that is held back is one of the base. -/
def isBase (shape : FlatShape τ β) (m : Member) : Bool := (shape.base.slot? m.1.text).isSome

/-- The record takes its own members and holds back the others, each in their order. -/
theorem takeMembers_eq_ok {members held : List Member} {state state' : τ × List String} :
    shape.takeMembers depth members state = .ok (state', held) ↔
      shape.own.takeMembers depth (members.filter shape.isOwn) state = .ok state' ∧
        detachMembers depth (members.filter (!shape.isOwn ·)) = .ok held := by
  induction members generalizing state held with
  | nil => simp [takeMembers, Shape.takeMembers, detachMembers]
  | cons m members ih =>
    obtain ⟨key, node⟩ := m
    rw [takeMembers]
    rcases hslot : shape.own.slot? key.text with _ | slot
    · have hown : shape.isOwn (key, node) = false := by simp [isOwn, hslot]
      rw [List.filter_cons_of_neg (by simp [hown]), List.filter_cons_of_pos (by simp [hown]),
        detachMembers]
      constructor
      · intro h
        obtain ⟨name, hname, h⟩ := bind_eq_ok.mp h
        obtain ⟨-, rfl⟩ := MemberKey.name_eq_ok.mp hname
        rw [hslot] at h
        obtain ⟨node', hnode, h⟩ := bind_eq_ok.mp h
        obtain ⟨⟨state₁, rest⟩, hrest, h⟩ := bind_eq_ok.mp h
        obtain ⟨rfl, rfl⟩ := Prod.mk.inj (pure_eq_ok.mp h)
        obtain ⟨htaken, hheld⟩ := ih.mp hrest
        refine ⟨htaken, ?_⟩
        rw [hname, ok_bind, hnode, ok_bind, hheld]
        rfl
      · rintro ⟨htaken, h⟩
        obtain ⟨name, hname, h⟩ := bind_eq_ok.mp h
        obtain ⟨-, rfl⟩ := MemberKey.name_eq_ok.mp hname
        obtain ⟨node', hnode, h⟩ := bind_eq_ok.mp h
        obtain ⟨rest, hrest, h⟩ := bind_eq_ok.mp h
        obtain rfl := pure_eq_ok.mp h
        rw [hname, ok_bind, hslot]
        dsimp only
        rw [hnode, ok_bind, ih.mpr ⟨htaken, hrest⟩]
        rfl
    · have hown : shape.isOwn (key, node) = true := by simp [isOwn, hslot]
      rw [List.filter_cons_of_pos hown, List.filter_cons_of_neg (by simp [hown]),
        Shape.takeMembers_cons_eq_ok]
      constructor
      · intro h
        obtain ⟨name, hname, h⟩ := bind_eq_ok.mp h
        obtain ⟨-, rfl⟩ := MemberKey.name_eq_ok.mp hname
        rw [hslot] at h
        obtain ⟨next, hnext, h⟩ := bind_eq_ok.mp h
        obtain ⟨htaken, hheld⟩ := ih.mp h
        exact ⟨⟨next, hnext, htaken⟩, hheld⟩
      · rintro ⟨⟨next, hnext, htaken⟩, hheld⟩
        have hflaw := (Shape.step_eq_ok.mp hnext).1
        rw [MemberKey.name_eq_ok.mpr ⟨hflaw, rfl⟩, ok_bind, hslot]
        dsimp only
        rw [hnext, ok_bind]
        exact ih.mpr ⟨htaken, hheld⟩

theorem assembled_eq_ok {record r : τ} {held : List Member} :
    shape.assembled depth record held = .ok r ↔
      ∃ base, shape.base.ofMembers depth (held.filter shape.isBase) (.closed none) = .ok base ∧
        shape.assemble base (held.filter (!shape.isBase ·)) record = .ok r := by
  rw [assembled]
  exact bind_eq_ok

/-- A record is read from its own members, and from those held back its base and the rest. -/
theorem read_eq_ok {node : Node} {r : τ} :
    shape.read depth node = .ok r ↔
      (∃ start members stop form, node.bare = .record start members (.closed stop) form ∧
        1 < depth ∧ ∃ state held,
          shape.own.takeMembers (depth - 1) (members.filter shape.isOwn) (shape.own.blank, []) =
            .ok state ∧
          detachMembers (depth - 1) (members.filter (!shape.isOwn ·)) = .ok held ∧
          shape.assembled (depth - 1) state.1 held = .ok r) ∨
      (Reading.LeftOut node ∧ shape.assembled depth shape.own.blank [] = .ok r) := by
  rw [read]
  constructor
  · intro h
    split at h
    case h_1 hbare =>
      obtain ⟨depth', hdescend, h⟩ := bind_eq_ok.mp h
      obtain ⟨hdepth, rfl⟩ := descend_eq_ok.mp hdescend
      obtain ⟨⟨state, held⟩, hstate, h⟩ := bind_eq_ok.mp h
      obtain ⟨stop, hstop, h⟩ := bind_eq_ok.mp h
      obtain rfl := Close.finish_eq_ok.mp hstop
      obtain ⟨htaken, hheld⟩ := takeMembers_eq_ok.mp hstate
      exact .inl ⟨_, _, _, _, hbare, hdepth, state, held, htaken, hheld, locate_eq_ok.mp h⟩
    case h_2 hbare => exact .inr ⟨⟨_, hbare⟩, h⟩
    case h_3 => cases h
  · rintro (⟨start, members, stop, form, hbare, hdepth, state, held, htaken, hheld, h⟩ |
      ⟨⟨span, hbare⟩, h⟩)
    · simp only [hbare]
      rw [descend_eq_ok.mpr ⟨hdepth, rfl⟩, ok_bind, takeMembers_eq_ok.mpr ⟨htaken, hheld⟩,
        ok_bind, Close.finish, ok_bind]
      exact locate_eq_ok.mpr h
    · simp only [hbare]
      exact h

end FlatShape

theorem Whole.read_eq_ok {α : Type} {reading : Reading α} {depth : Nat} {d : Whole} {x : α} :
    d.read reading depth = .ok x ↔ reading depth d.root = .ok x ∧ d.trailing = none := by
  rw [Whole.read, bind_eq_ok]
  cases d.trailing with
  | none => simp [pure_eq_ok]
  | some c => simp [throw, throwThe, MonadExceptOf.throw]

end KeyLayout.Document
