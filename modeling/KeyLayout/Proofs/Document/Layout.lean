/-
Reading does not depend on layout.

What is read from a node of a JSON document is read from every node that is alike
(`Reading.IgnoresLayout`).  For scalars there is nothing to it; an option, a list and a record
ignore layout if their parts do.  For the members of a record two things come together: each
member is read as its counterpart is, and two members that pass each other fill different
slots, which commute (`Shape.Commutes`).
-/
import Mathlib.Data.List.Pairwise
import KeyLayout.Proofs.Document.Alike
import KeyLayout.Thickness.Record

namespace KeyLayout.Document

variable {α τ β : Type}

/-- What is read from a node is read from all nodes that are alike. -/
def Reading.IgnoresLayout (read : Reading α) : Prop :=
  ∀ ⦃depth node node' x⦄, node.Alike node' → read depth node = .ok x → read depth node' = .ok x

/-- A slot is filled in the same way from nodes that are alike. -/
def Slot.IgnoresLayout (slot : Slot τ) : Prop :=
  ∀ r, Reading.IgnoresLayout fun depth node => slot.fill depth node r

namespace Reading

variable {read : Reading α}

theorem bool_ignoresLayout : bool.IgnoresLayout := by
  intro depth node node' b h hb
  obtain ⟨raw, span, hbare⟩ := bool_eq_ok.mp hb
  obtain ⟨-, span', hbare'⟩ := h.bare_scalar hbare
  exact bool_eq_ok.mpr ⟨none, span', hbare'⟩

theorem int32_ignoresLayout : int32.IgnoresLayout := by
  intro depth node node' n h hn
  obtain ⟨⟨raw, span, hbare⟩, hbits⟩ := int32_eq_ok.mp hn
  obtain ⟨-, span', hbare'⟩ := h.bare_scalar hbare
  exact int32_eq_ok.mpr ⟨⟨none, span', hbare'⟩, hbits⟩

theorem text_ignoresLayout : text.IgnoresLayout := by
  intro depth node node' s h hs
  rcases text_eq_ok.mp hs with ⟨raw, span, hbare⟩ | ⟨value, span, -, hbare⟩
  · obtain ⟨-, span', hbare'⟩ := h.bare_scalar hbare
    exact text_eq_ok.mpr (.inl ⟨none, span', hbare'⟩)
  · cases (h.bare_scalar hbare).1

/-- A thickness is read from what is held back of its node, and a scalar is held back as it is. -/
theorem thickness_ignoresLayout : thickness.IgnoresLayout := by
  intro depth node node' t h ht
  rw [thickness] at ht ⊢
  obtain ⟨m, hm, ht⟩ := bind_eq_ok.mp ht
  obtain ⟨m', hm', hkin⟩ := h.detach hm
  rw [hm', ok_bind]
  cases hkin.alike with
  | scalar value span span' => cases value <;> exact ht
  | skipped => cases ht
  | list => cases ht
  | record => cases ht

theorem IgnoresLayout.optional (h : read.IgnoresLayout) : (optional read).IgnoresLayout := by
  intro depth node node' o hnode ho
  rw [optional_eq_ok] at ho ⊢
  rw [hnode.isNull, hnode.breaksAsNull]
  rcases ho with hnull | ⟨hnull, hbreaks, x, hx, ho⟩
  · exact .inl hnull
  · exact .inr ⟨hnull, hbreaks, x, h hnode hx, ho⟩

theorem IgnoresLayout.list (h : read.IgnoresLayout) : (list read).IgnoresLayout := by
  intro depth node node' xs hnode hxs
  rcases list_eq_ok.mp hxs with ⟨start, items, stop, asRecord, hbare, hdepth, hitems⟩ | ⟨hleft, -⟩
  · obtain ⟨start', items', stop', hbare', hitems'⟩ := hnode.bare_list hbare
    refine list_eq_ok.mpr (.inl ⟨start', items', stop', asRecord, hbare', hdepth, ?_⟩)
    clear hbare hbare' hxs
    induction hitems' generalizing xs with
    | nil => exact hitems
    | cons hab _ ih =>
      cases hitems with
      | cons hx hitems => exact .cons (h hab.2 hx) (ih hitems)
  · exact absurd hleft hnode.not_leftOut

/-- The name of a value is read from a text, or from a record of one member that holds `null`. -/
theorem named_ignoresLayout (values : List α) (name : α → String) :
    (named values name).IgnoresLayout := by
  intro depth node node' x h hx
  cases h with
  | scalar value span span' =>
    cases value with
    | text s =>
      obtain ⟨v, hv, hx⟩ := bind_eq_ok.mp hx
      exact bind_eq_ok.mpr ⟨v, findVariant_eq_ok.mpr (findVariant_eq_ok.mp hv), hx⟩
    | _ => cases hx
  | skipped => cases hx
  | list => cases hx
  | @record start start' stop stop' members members' pairs hleft hkey hnode hright =>
    have hmembers : MembersAlike Node.Alike members members' :=
      .of_shuffled hleft (forall₂_pairs fun p hp => ⟨hkey p hp, hnode p hp⟩) hright
    obtain ⟨depth', hdescend, hx⟩ := bind_eq_ok.mp hx
    obtain ⟨hdepth, rfl⟩ := descend_eq_ok.mp hdescend
    rcases members with _ | ⟨⟨key, node⟩, more⟩
    · cases hx
    obtain ⟨text, htext, hx⟩ := bind_eq_ok.mp hx
    obtain ⟨v, hv, hx⟩ := bind_eq_ok.mp hx
    obtain ⟨y, hy, hx⟩ := bind_eq_ok.mp hx
    obtain ⟨⟨⟩, hend, hx⟩ := bind_eq_ok.mp hx
    obtain rfl := pure_eq_ok.mp hx
    obtain ⟨rfl, -⟩ := endOfVariant_eq_ok.mp hend
    obtain ⟨⟨key', node'⟩, rfl, hkeys, hnodes⟩ := hmembers.singleton
    have hname : key'.name = .ok text := by
      obtain ⟨hflaw, rfl⟩ := MemberKey.name_eq_ok.mp htext
      exact MemberKey.name_eq_ok.mpr ⟨hkeys.flaw.mp hflaw, hkeys.text.symm⟩
    have hheld : v.content.held .withNull (depth - 1) node' = .ok y := by
      -- the value itself comes from the name
      obtain ⟨z, -, rfl⟩ := List.mem_map.mp (List.mem_of_find?_eq_some (findVariant_eq_ok.mp hv))
      obtain ⟨⟨⟩, hnull, rfl⟩ := map_eq_ok.mp hy
      have hunit : unit (depth - 1) node = .ok () := hnull
      obtain ⟨raw, span, hbare⟩ := unit_eq_ok.mp hunit
      obtain ⟨-, span', hbare'⟩ := hnodes.bare_scalar hbare
      have hunit' : unit (depth - 1) node' = .ok () := unit_eq_ok.mpr ⟨none, span', hbare'⟩
      exact map_eq_ok.mpr ⟨(), hunit', rfl⟩
    refine bind_eq_ok.mpr ⟨_, descend_eq_ok.mpr ⟨hdepth, rfl⟩, bind_eq_ok.mpr ⟨text, hname, ?_⟩⟩
    refine bind_eq_ok.mpr ⟨v, findVariant_eq_ok.mpr (findVariant_eq_ok.mp hv), ?_⟩
    have hend' : endOfVariant key'.valueSettled [] (.closed stop') = .ok () :=
      endOfVariant_eq_ok.mpr ⟨rfl, stop', rfl⟩
    exact bind_eq_ok.mpr ⟨y, hheld, bind_eq_ok.mpr ⟨(), hend', rfl⟩⟩

end Reading

/-! ### Records -/

theorem Slot.of_ignoresLayout {read : Reading α} (h : read.IgnoresLayout) {name : String}
    {presence : Presence} {set : τ → α → τ} :
    (Slot.of name presence read set).IgnoresLayout := by
  intro r depth node node' r' hnode hr
  obtain ⟨x, hx, rfl⟩ := map_eq_ok.mp hr
  exact map_eq_ok.mpr ⟨x, h hnode hx, rfl⟩

theorem Slot.IgnoresLayout.alias {slot : Slot τ} (h : slot.IgnoresLayout) (name : String) :
    (slot.alias name).IgnoresLayout := h

/-- Two slots can be filled in either order. -/
def Slot.Commutes (s t : Slot τ) : Prop :=
  ∀ depth node node' r r', (s.fill depth node r >>= t.fill depth node') = .ok r' ↔
    (t.fill depth node' r >>= s.fill depth node) = .ok r'

instance : Std.Symm (@Slot.Commutes τ) :=
  ⟨fun _ _ h depth node node' r r' => (h depth node' node r r').symm⟩

/-- Slots that set different parts of a record commute. -/
theorem Slot.commutes_of_set {s t : Slot τ} {read : Reading α} {read' : Reading β}
    {set : τ → α → τ} {set' : τ → β → τ}
    (hs : ∀ depth node r, s.fill depth node r = (read depth node).map (set r))
    (ht : ∀ depth node r, t.fill depth node r = (read' depth node).map (set' r))
    (hset : ∀ r x y, set' (set r x) y = set (set' r y) x) : s.Commutes t := by
  intro depth node node' r r'
  rw [hs, ht, bind_eq_ok, bind_eq_ok]
  constructor
  · rintro ⟨_, hfirst, hsecond⟩
    obtain ⟨x, hx, rfl⟩ := map_eq_ok.mp hfirst
    rw [ht] at hsecond
    obtain ⟨y, hy, rfl⟩ := map_eq_ok.mp hsecond
    refine ⟨set' r y, map_eq_ok.mpr ⟨y, hy, rfl⟩, ?_⟩
    rw [hs, hset]
    exact map_eq_ok.mpr ⟨x, hx, rfl⟩
  · rintro ⟨_, hfirst, hsecond⟩
    obtain ⟨y, hy, rfl⟩ := map_eq_ok.mp hfirst
    rw [hs] at hsecond
    obtain ⟨x, hx, rfl⟩ := map_eq_ok.mp hsecond
    refine ⟨set r x, map_eq_ok.mpr ⟨x, hx, rfl⟩, ?_⟩
    rw [ht, ← hset]
    exact map_eq_ok.mpr ⟨y, hy, rfl⟩

namespace Shape

variable {shape : Shape τ} {depth : Nat}

/-- Any two slots of a record commute. -/
def Commutes (shape : Shape τ) : Prop := shape.slots.Pairwise Slot.Commutes

theorem Commutes.of_mem (h : shape.Commutes) {s t : Slot τ} (hs : s ∈ shape.slots)
    (ht : t ∈ shape.slots) (hne : s.name ≠ t.name) : s.Commutes t :=
  List.Pairwise.forall h hs ht fun heq => hne (heq ▸ rfl)

/-- States with the same record in which the same slots are filled. -/
def Same (s t : τ × List String) : Prop := s.1 = t.1 ∧ s.2.Perm t.2

theorem step_same {s t s' : τ × List String} {m : Member} (h : Same s t)
    (hs : shape.step depth s m.1 m.2 = .ok s') :
    ∃ t', shape.step depth t m.1 m.2 = .ok t' ∧ Same s' t' := by
  obtain ⟨hflaw, ⟨hslot, hskip, rfl⟩ | ⟨slot, r, hslot, hseen, hfill, rfl⟩⟩ := step_eq_ok.mp hs
  · exact ⟨t, step_eq_ok.mpr ⟨hflaw, .inl ⟨hslot, hskip, rfl⟩⟩, h⟩
  · refine ⟨(r, slot.name :: t.2), step_eq_ok.mpr ⟨hflaw, .inr ⟨slot, r, hslot, ?_, ?_, rfl⟩⟩,
      rfl, h.2.cons _⟩
    · rwa [← h.2.mem_iff]
    · rwa [← h.1]

/-- Two members in a row can be taken the other way round. -/
theorem step_swap (hcommutes : shape.Commutes) {s s₁ s₂ : τ × List String} {a b : Member}
    (ha : shape.step depth s a.1 a.2 = .ok s₁) (hb : shape.step depth s₁ b.1 b.2 = .ok s₂) :
    ∃ t₁ t₂, shape.step depth s b.1 b.2 = .ok t₁ ∧ shape.step depth t₁ a.1 a.2 = .ok t₂ ∧
      Same s₂ t₂ := by
  obtain ⟨hflaw, ⟨hslot, hskip, rfl⟩ | ⟨slot, r, hslot, hseen, hfill, rfl⟩⟩ := step_eq_ok.mp ha
  · exact ⟨s₂, s₂, hb, step_eq_ok.mpr ⟨hflaw, .inl ⟨hslot, hskip, rfl⟩⟩, rfl, .refl _⟩
  obtain ⟨hflaw', ⟨hslot', hskip', rfl⟩ | ⟨slot', r', hslot', hseen', hfill', rfl⟩⟩ :=
    step_eq_ok.mp hb
  · exact ⟨s, _, step_eq_ok.mpr ⟨hflaw', .inl ⟨hslot', hskip', rfl⟩⟩, ha, rfl, .refl _⟩
  -- the second slot is not the one that is already filled, so they commute
  rw [List.mem_cons, not_or] at hseen'
  obtain ⟨hne, hfree⟩ := hseen'
  have hcommute := hcommutes.of_mem (slot?_mem hslot) (slot?_mem hslot') (Ne.symm hne)
  obtain ⟨q, hq, hr'⟩ := bind_eq_ok.mp
    ((hcommute depth a.2 b.2 s.1 r').mp (bind_eq_ok.mpr ⟨r, hfill, hfill'⟩))
  refine ⟨(q, slot'.name :: s.2), (r', slot.name :: slot'.name :: s.2),
    step_eq_ok.mpr ⟨hflaw', .inr ⟨slot', q, hslot', hfree, hq, rfl⟩⟩,
    step_eq_ok.mpr ⟨hflaw, .inr ⟨slot, r', hslot, ?_, hr', rfl⟩⟩, rfl, .swap _ _ _⟩
  exact List.not_mem_cons_of_ne_of_not_mem (Ne.symm hne) hseen

/-- Members are taken one by one as their counterparts are. -/
theorem takeMembers_forall₂ (hslots : ∀ slot ∈ shape.slots, slot.IgnoresLayout)
    {members members' : List Member}
    (h : List.Forall₂ (fun a b => a.1.Alike b.1 ∧ Node.Alike a.2 b.2) members members')
    {s s' : τ × List String} (hs : shape.takeMembers depth members s = .ok s') :
    shape.takeMembers depth members' s = .ok s' := by
  induction h generalizing s with
  | nil => exact hs
  | @cons a b _ _ hab _ ih =>
    obtain ⟨next, hnext, hs⟩ := takeMembers_cons_eq_ok.mp hs
    refine takeMembers_cons_eq_ok.mpr ⟨next, ?_, ih hs⟩
    rw [step_eq_ok, hab.1.text, hab.1.flaw] at hnext
    rw [step_eq_ok]
    obtain ⟨hflaw, ⟨hslot, hskip, rfl⟩ | ⟨slot, r, hslot, hseen, hfill, rfl⟩⟩ := hnext
    · exact ⟨hflaw, .inl ⟨hslot, hab.2.skip hskip, rfl⟩⟩
    · exact ⟨hflaw, .inr ⟨slot, r, hslot, hseen, hslots slot (slot?_mem hslot) _ hab.2 hfill, rfl⟩⟩

/-- The same members in another layout are taken to the same record. -/
theorem takeMembers_alike (hslots : ∀ slot ∈ shape.slots, slot.IgnoresLayout)
    (hcommutes : shape.Commutes) {members members' : List Member}
    (h : MembersAlike Node.Alike members members') {s s' : τ × List String}
    (hs : shape.takeMembers depth members s = .ok s') :
    ∃ t', shape.takeMembers depth members' s = .ok t' ∧ Same s' t' := by
  obtain ⟨ordered, hshuffled, hordered⟩ := h
  rw [takeMembers_eq_foldlM] at hs
  obtain ⟨t', ht', hsame⟩ := hshuffled.foldlM (R := Same) (G := fun _ => True)
    (f := fun state m => shape.step depth state m.1 m.2) (fun _ => ⟨rfl, .refl _⟩)
    (fun h h' => ⟨h.1.trans h'.1, h.2.trans h'.2⟩) step_same
    (fun _ _ _ => step_swap hcommutes) (fun _ _ => trivial) hs
  rw [← takeMembers_eq_foldlM] at ht'
  exact ⟨t', takeMembers_forall₂ hslots hordered ht', hsame⟩

theorem ofMembers_alike (hslots : ∀ slot ∈ shape.slots, slot.IgnoresLayout)
    (hcommutes : shape.Commutes) {members members' : List Member}
    (h : MembersAlike Node.Alike members members') {close : Close} {stop : Option Offset} {r : τ}
    (hr : shape.ofMembers depth members close = .ok r) :
    shape.ofMembers depth members' (.closed stop) = .ok r := by
  obtain ⟨-, state, hstate, hcomplete, rfl⟩ := ofMembers_eq_ok.mp hr
  obtain ⟨state', hstate', hsame⟩ := takeMembers_alike hslots hcommutes h hstate
  refine ofMembers_eq_ok.mpr ⟨⟨stop, rfl⟩, state', hstate', fun slot hslot hrequired => ?_,
    hsame.1.symm⟩
  exact hsame.2.mem_iff.mp (hcomplete slot hslot hrequired)

/-- The slots are filled from the items of a list as from their counterparts. -/
theorem takeItems_alike {slots : List (Slot τ)} (hslots : ∀ slot ∈ slots, slot.IgnoresLayout)
    {items items' : List Item} (h : ItemsAlike Node.Alike items items') {close : Close}
    {stop : Option Offset} {index : Nat} {notLast notLast' : Option Complaint}
    (hlast : notLast = none ↔ notLast' = none) {r r' : τ}
    (hr : shape.takeItems depth close index slots items notLast r = .ok r') :
    shape.takeItems depth (.closed stop) index slots items' notLast' r = .ok r' := by
  induction slots generalizing index items items' notLast notLast' r with
  | nil =>
    rcases notLast with _ | c
    · obtain rfl := hlast.mp rfl
      exact hr
    · cases hr
  | cons slot slots ih =>
    have hrest : ∀ slot ∈ slots, slot.IgnoresLayout := fun slot hslot =>
      hslots slot (List.mem_cons_of_mem _ hslot)
    cases h with
    | nil =>
      obtain ⟨stop', _, hr⟩ := bind_eq_ok.mp hr
      refine bind_eq_ok.mpr ⟨stop, rfl, ?_⟩
      split at hr
      · rw [if_pos ‹_›]
        exact ih hrest .nil Iff.rfl hr
      · cases hr
    | cons hab h =>
      obtain ⟨next, hnext, hr⟩ := bind_eq_ok.mp hr
      have hfill := hslots slot List.mem_cons_self r hab.2 (locate_eq_ok.mp hnext)
      exact bind_eq_ok.mpr ⟨next, locate_eq_ok.mpr hfill, ih hrest h hab.1 hr⟩

/-- **A record ignores layout** if its slots do and any two of them commute. -/
theorem read_ignoresLayout (hslots : ∀ slot ∈ shape.slots, slot.IgnoresLayout)
    (hcommutes : shape.Commutes) : shape.read.IgnoresLayout := by
  intro depth node node' r h hr
  rcases read_eq_ok.mp hr with ⟨start, members, stop, form, hbare, hdepth, hr⟩ |
    ⟨start, items, close, hbare, hdepth, hr⟩ | ⟨hleft, -⟩
  · obtain ⟨-, start', members', stop', hbare', hmembers⟩ := h.bare_record hbare
    exact read_eq_ok.mpr (.inl ⟨_, _, _, _, hbare', hdepth,
      ofMembers_alike hslots hcommutes hmembers hr⟩)
  · obtain ⟨start', items', stop', hbare', hitems⟩ := h.bare_list hbare
    exact read_eq_ok.mpr (.inr (.inl ⟨_, _, _, hbare', hdepth,
      takeItems_alike hslots hitems Iff.rfl hr⟩))
  · exact absurd hleft h.not_leftOut

end Shape

namespace FlatShape

variable {shape : FlatShape τ β}

/-- The members that belong neither to the record nor to its base are taken over in any layout. -/
def AssemblesAlike (shape : FlatShape τ β) : Prop :=
  ∀ ⦃base : β⦄ ⦃others others' : List Member⦄ ⦃r x : τ⦄, MembersAlike Node.Kin others others' →
    (∀ m ∈ others, m.1.flaw = none) → shape.assemble base others r = .ok x →
    shape.assemble base others' r = .ok x

/-- **A record with a base among its members ignores layout** if both parts do. -/
theorem read_ignoresLayout (hown : ∀ slot ∈ shape.own.slots, slot.IgnoresLayout)
    (hbase : ∀ slot ∈ shape.base.slots, slot.IgnoresLayout) (hownCommutes : shape.own.Commutes)
    (hbaseCommutes : shape.base.Commutes) (hassemble : shape.AssemblesAlike) :
    shape.read.IgnoresLayout := by
  intro depth node node' r h hr
  rcases read_eq_ok.mp hr with
    ⟨start, members, stop, form, hbare, hdepth, state, held, htaken, hheld, hr⟩ | ⟨hleft, -⟩
  · obtain ⟨-, start', members', stop', hbare', hmembers⟩ := h.bare_record hbare
    have hownMembers := hmembers.filter fun name => (shape.own.slot? name).isSome
    have hotherMembers := hmembers.filter fun name => !(shape.own.slot? name).isSome
    obtain ⟨state', htaken', hsame⟩ :=
      Shape.takeMembers_alike hown hownCommutes hownMembers htaken
    obtain ⟨held', hheld', hkin⟩ := hotherMembers.detach (fun hn hm => hn.detach hm) hheld
    obtain ⟨base, hbaseRead, hr⟩ := assembled_eq_ok.mp hr
    have hbaseMembers := (hkin.filter fun name => (shape.base.slot? name).isSome).imp
      fun _ _ hkin => hkin.alike
    have hothers := hkin.filter fun name => !(shape.base.slot? name).isSome
    have hflaw : ∀ m ∈ held.filter (!shape.isBase ·), m.1.flaw = none := fun m hm =>
      detachMembers_flaw hheld m (List.mem_of_mem_filter hm)
    refine read_eq_ok.mpr (.inl ⟨_, _, _, _, hbare', hdepth, state', held', htaken', hheld',
      assembled_eq_ok.mpr ⟨base, ?_, ?_⟩⟩)
    · exact Shape.ofMembers_alike hbase hbaseCommutes hbaseMembers hbaseRead
    · rw [← hsame.1]
      exact hassemble hothers hflaw hr
  · exact absurd hleft h.not_leftOut

end FlatShape

/-- Documents whose values are alike, and which both end there or both do not. -/
structure Whole.Alike (a b : Whole) : Prop where
  root : a.root.Alike b.root
  trailing : a.trailing = none ↔ b.trailing = none

theorem Whole.Alike.read {a b : Whole} (h : a.Alike b) {read : Reading α}
    (hread : read.IgnoresLayout) {depth : Nat} {x : α} :
    a.read read depth = .ok x ↔ b.read read depth = .ok x := by
  rw [Whole.read_eq_ok, Whole.read_eq_ok, h.trailing]
  exact and_congr_left fun _ => ⟨hread h.root, hread h.root.symm⟩

end KeyLayout.Document
