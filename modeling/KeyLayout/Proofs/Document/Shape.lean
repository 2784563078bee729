/-
What every record that is read has in common.

A property of a record that every slot keeps holds of every record that is read
(`Shape.read_ensures`), and one that all variants of a choice have holds of whichever is read
(`Reading.variant_ensures`).  It may rest on something that is known of the nodes, and on the
number of levels that may be opened.

A record whose base stands among its members is read from its own members and from those it
holds back (`FlatShape.read_cases`).  What is held back answers to none of its own slots and
stands for values that open few enough levels (`FlatShape.takeMembers_held`).
-/
import KeyLayout.Document.Reading
import KeyLayout.Proofs.Document.Keeping

namespace KeyLayout.Document

open KeyLayout.Json (Value Fields optionalMember)

/-- Whatever is read has a property, as long as the node has another one and no more than `limit`
levels may be opened. -/
def Reading.Ensures {α : Type} (N : Node → Prop) (limit : Nat) (read : Reading α) (P : α → Prop) :
    Prop :=
  ∀ depth node x, depth ≤ limit → N node → read depth node = .ok x → P x

/-- Filling the slot keeps a property of the record. -/
def Slot.Preserves {τ : Type} (N : Node → Prop) (limit : Nat) (slot : Slot τ) (P : τ → Prop) :
    Prop :=
  ∀ r, P r → Reading.Ensures N limit (fun depth node => slot.fill depth node r) P

/-- All names that a slot answers to. -/
def Slot.names {τ : Type} (slot : Slot τ) : List String := slot.name :: slot.aliases

section Ensures

variable {α τ : Type} {N : Node → Prop} {limit : Nat}

theorem Reading.Ensures.trivial (read : Reading α) (limit : Nat) : read.Ensures N limit fun _ => True :=
  fun _ _ _ _ _ _ => True.intro

theorem Reading.int32_ensures :
    Reading.int32.Ensures N limit fun n => -2147483648 ≤ n ∧ n ≤ 2147483647 := by
  intro depth node n _ _ h
  rw [Reading.int32] at h
  split at h
  · split at h
    · cases h
      assumption
    · simp at h
  · simp at h

theorem Reading.Ensures.optional {read : Reading α} {P : α → Prop} (h : read.Ensures N limit P) :
    (Reading.optional read).Ensures N limit fun o => ∀ x ∈ o, P x := by
  intro depth node o hdepth hnode ho
  have hsome : (read depth node).map some = .ok o → ∀ x ∈ o, P x := by
    intro ho x hx
    obtain ⟨y, hy, rfl⟩ := map_eq_ok.mp ho
    obtain rfl := Option.some.inj hx
    exact h depth node y hdepth hnode hy
  rw [Reading.optional.eq_def] at ho
  split at ho
  · cases ho
    simp
  · split at ho
    · simp at ho
    · exact hsome ho
  · exact hsome ho

theorem Reading.items_ensures {read : Reading α} {P : α → Prop} (h : read.Ensures N limit P)
    {depth : Nat} (hdepth : depth ≤ limit) {items : List (After × Node)}
    (hitems : ∀ item ∈ items, N item.2) {xs : List α} (hxs : Reading.items read depth items = .ok xs) :
    ∀ x ∈ xs, P x := by
  induction items generalizing xs with
  | nil =>
    cases hxs
    simp
  | cons item items ih =>
    obtain ⟨x, hx, hxs⟩ := bind_eq_ok.mp hxs
    obtain ⟨xs', hxs', hxs⟩ := bind_eq_ok.mp hxs
    obtain rfl := pure_eq_ok.mp hxs
    rintro y (_ | ⟨_, hy⟩)
    · exact h depth item.2 x hdepth (hitems item List.mem_cons_self) (locate_eq_ok.mp hx)
    · exact ih (fun item hitem => hitems item (List.mem_cons_of_mem _ hitem)) hxs' y hy

theorem Reading.Ensures.mono {read : Reading α} {P : α → Prop} (h : read.Ensures N limit P)
    {limit' : Nat} (hle : limit' ≤ limit) : read.Ensures N limit' P :=
  fun depth node x hdepth hnode hx => h depth node x (hdepth.trans hle) hnode hx

/-- A list opens one level itself. -/
theorem Reading.Ensures.list_succ {read : Reading α} {P : α → Prop}
    (h : read.Ensures Node.Tame limit P) :
    (Reading.list read).Ensures Node.Tame (limit + 1) fun xs => ∀ x ∈ xs, P x := by
  intro depth node xs hdepth hnode hxs
  have hbare := hnode.bare
  rw [Reading.list] at hxs
  split at hxs
  case h_1 heq =>
    rw [heq] at hbare
    obtain ⟨depth', hdescend, hxs⟩ := bind_eq_ok.mp hxs
    obtain ⟨ys, hys, hxs⟩ := bind_eq_ok.mp hxs
    obtain ⟨_, _, hxs⟩ := bind_eq_ok.mp hxs
    obtain rfl := pure_eq_ok.mp hxs
    obtain ⟨_, rfl⟩ := descend_eq_ok.mp hdescend
    cases hbare with
    | list hitems => exact items_ensures h (by omega) hitems hys
  case h_2 =>
    cases hxs
    simp
  case h_3 => simp at hxs

theorem Reading.Ensures.list {read : Reading α} {P : α → Prop}
    (h : read.Ensures Node.Tame limit P) :
    (Reading.list read).Ensures Node.Tame limit fun xs => ∀ x ∈ xs, P x :=
  h.list_succ.mono (Nat.le_succ limit)

theorem Slot.of_preserves {name : String} {presence : Presence} {read : Reading α}
    {set : τ → α → τ} {P : τ → Prop} {Q : α → Prop} (hread : read.Ensures N limit Q)
    (hset : ∀ r x, P r → Q x → P (set r x)) :
    (Slot.of name presence read set).Preserves N limit P := by
  intro r hr depth node r' hdepth hnode h
  obtain ⟨x, hx, rfl⟩ := map_eq_ok.mp h
  exact hset r x hr (hread depth node x hdepth hnode hx)

theorem Slot.Preserves.alias {slot : Slot τ} {P : τ → Prop} (h : slot.Preserves N limit P)
    (name : String) : (slot.alias name).Preserves N limit P := h

namespace Shape

variable {shape : Shape τ} {P : τ → Prop} {depth : Nat}

/-- No slot answers to a name that none of them has. -/
theorem slot?_eq_none {name : String} :
    shape.slot? name = none ↔ name ∉ shape.slots.flatMap Slot.names := by
  simp [slot?, Slot.answers, Slot.names, List.find?_eq_none]

theorem slot?_mem {name : String} {slot : Slot τ} (h : shape.slot? name = some slot) :
    slot ∈ shape.slots := List.mem_of_find?_eq_some h

theorem step_preserves (hslots : ∀ slot ∈ shape.slots, slot.Preserves N limit P)
    (hdepth : depth ≤ limit) {key : MemberKey} {node : Node} (hnode : N node)
    {state state' : τ × List String} (hstate : P state.1)
    (h : shape.step depth state key node = .ok state') : P state'.1 := by
  obtain ⟨name, _, h⟩ := bind_eq_ok.mp h
  split at h
  · obtain ⟨_, _, h⟩ := bind_eq_ok.mp h
    obtain rfl := pure_eq_ok.mp h
    exact hstate
  · rename_i slot hslot
    split at h
    · simp [throw, throwThe, MonadExceptOf.throw] at h
    · obtain ⟨r, hr, h⟩ := bind_eq_ok.mp h
      obtain rfl := pure_eq_ok.mp h
      exact hslots slot (slot?_mem hslot) _ hstate depth node r hdepth hnode (locate_eq_ok.mp hr)

theorem takeMembers_preserves (hslots : ∀ slot ∈ shape.slots, slot.Preserves N limit P)
    (hdepth : depth ≤ limit) {members : List (MemberKey × Node)} (hmembers : ∀ m ∈ members, N m.2)
    {state state' : τ × List String} (hstate : P state.1)
    (h : shape.takeMembers depth members state = .ok state') : P state'.1 := by
  induction members generalizing state with
  | nil =>
    cases h
    exact hstate
  | cons m members ih =>
    obtain ⟨key, node⟩ := m
    obtain ⟨next, hnext, h⟩ := bind_eq_ok.mp h
    have hnode : N node := hmembers _ List.mem_cons_self
    exact ih (fun m hm => hmembers m (List.mem_cons_of_mem _ hm))
      (step_preserves hslots hdepth hnode hstate hnext) h

theorem complete_eq_ok {state : τ × List String} {stop : Option Offset} {r : τ}
    (h : shape.complete state stop = .ok r) : r = state.1 := by
  rw [complete] at h
  split at h
  · simp at h
  · exact (Except.ok.inj h).symm

theorem ofMembers_preserves (hslots : ∀ slot ∈ shape.slots, slot.Preserves N limit P)
    (hblank : P shape.blank) (hdepth : depth ≤ limit) {members : List (MemberKey × Node)}
    (hmembers : ∀ m ∈ members, N m.2) {close : Close} {r : τ}
    (h : shape.ofMembers depth members close = .ok r) : P r := by
  obtain ⟨state, hstate, h⟩ := bind_eq_ok.mp h
  obtain ⟨stop, _, h⟩ := bind_eq_ok.mp h
  exact complete_eq_ok h ▸ takeMembers_preserves hslots hdepth hmembers hblank hstate

theorem takeItems_preserves {slots : List (Slot τ)}
    (hslots : ∀ slot ∈ slots, slot.Preserves N limit P) (hdepth : depth ≤ limit) {close : Close}
    {index : Nat} {items : List (After × Node)} (hitems : ∀ item ∈ items, N item.2)
    {notLast : Option Complaint} {r r' : τ} (hr : P r)
    (h : shape.takeItems depth close index slots items notLast r = .ok r') : P r' := by
  induction slots generalizing index items notLast r with
  | nil =>
    rcases notLast with _ | c
    · cases h
      exact hr
    · cases h
  | cons slot slots ih =>
    have hrest : ∀ slot ∈ slots, slot.Preserves N limit P := fun slot hslot =>
      hslots slot (List.mem_cons_of_mem _ hslot)
    rcases items with _ | ⟨⟨after, node⟩, items⟩
    -- a list that is too short leaves the other slots as they are
    · obtain ⟨stop, _, h⟩ := bind_eq_ok.mp h
      split at h
      · exact ih hrest (by simp) hr h
      · simp at h
    · obtain ⟨next, hnext, h⟩ := bind_eq_ok.mp h
      have hnode : N node := hitems _ List.mem_cons_self
      have hnext' := hslots slot List.mem_cons_self r hr depth node next hdepth hnode
        (locate_eq_ok.mp hnext)
      exact ih hrest (fun item hitem => hitems item (List.mem_cons_of_mem _ hitem)) hnext' h

/-- A property that every slot keeps holds of every record that is read, which opens one level
itself. -/
theorem read_ensures_succ (hslots : ∀ slot ∈ shape.slots, slot.Preserves Node.Tame limit P)
    (hblank : P shape.blank) : shape.read.Ensures Node.Tame (limit + 1) P := by
  intro depth node r hdepth hnode h
  have hbare := hnode.bare
  rw [read] at h
  split at h
  case h_1 heq =>
    rw [heq] at hbare
    obtain ⟨depth', hdescend, h⟩ := bind_eq_ok.mp h
    obtain ⟨_, rfl⟩ := descend_eq_ok.mp hdescend
    cases hbare with
    | record hmembers => exact ofMembers_preserves hslots hblank (by omega) hmembers h
  case h_2 heq =>
    rw [heq] at hbare
    obtain ⟨depth', hdescend, h⟩ := bind_eq_ok.mp h
    obtain ⟨_, rfl⟩ := descend_eq_ok.mp hdescend
    cases hbare with
    | list hitems => exact takeItems_preserves hslots (by omega) hitems hblank h
  case h_3 =>
    obtain ⟨state, hstate, h⟩ := bind_eq_ok.mp h
    obtain ⟨stop, _, h⟩ := bind_eq_ok.mp h
    cases hstate
    exact complete_eq_ok h ▸ hblank
  case h_4 => simp at h

theorem read_ensures (hslots : ∀ slot ∈ shape.slots, slot.Preserves Node.Tame limit P)
    (hblank : P shape.blank) : shape.read.Ensures Node.Tame limit P :=
  (read_ensures_succ hslots hblank).mono (Nat.le_succ limit)

end Shape

/-! ### Variants -/

/-- Whatever a variant holds has a property. -/
def Content.Ensures (N : Node → Prop) (limit : Nat) (P : α → Prop) : Content α → Prop
  | .nothing x => P x
  | .value read => read.Ensures N limit P
  | .fields read => read.Ensures N limit P

variable {P : α → Prop} {content : Content α} {depth : Nat} {node : Node} {x : α}

theorem Content.Ensures.bare (h : content.Ensures N limit P) (hx : content.bare = .ok x) : P x := by
  cases content with
  | nothing y =>
    cases hx
    exact h
  | value | fields => cases hx

theorem Content.Ensures.held (h : content.Ensures N limit P) (hdepth : depth ≤ limit)
    (hnode : N node) {form : VariantForm} (hx : content.held form depth node = .ok x) : P x := by
  cases content with
  | nothing y =>
    obtain ⟨-, -, rfl⟩ := map_eq_ok.mp hx
    exact h
  | value read => exact h depth node x hdepth hnode hx
  | fields read => exact h depth node x hdepth hnode hx

theorem mem_of_findVariant {variants : List (Variant α)} {name : String} {place : Option Offset}
    {v : Variant α} (h : findVariant variants name place = .ok v) : v ∈ variants := by
  rw [findVariant] at h
  split at h
  · cases h
    exact List.mem_of_find?_eq_some ‹_›
  · cases h

/-- A property that all variants have holds of whatever is read. -/
theorem Reading.variant_ensures {variants : List (Variant α)}
    (h : ∀ v ∈ variants, v.content.Ensures Node.Tame limit P) :
    (variant variants).Ensures Node.Tame limit P := by
  have huntagged : (untaggedVariant variants).Ensures Node.Tame limit P := by
    intro depth node x hdepth hnode hx
    rw [untaggedVariant.eq_def] at hx
    split at hx
    case h_1 | h_2 =>
      obtain ⟨v, hv, hx⟩ := bind_eq_ok.mp hx
      exact (h v (mem_of_findVariant hv)).bare hx
    case h_8 =>
      obtain ⟨depth', hdescend, hx⟩ := bind_eq_ok.mp hx
      obtain ⟨-, rfl⟩ := descend_eq_ok.mp hdescend
      split at hx
      case h_3 =>
        obtain ⟨name, -, hx⟩ := bind_eq_ok.mp hx
        obtain ⟨v, hv, hx⟩ := bind_eq_ok.mp hx
        obtain ⟨y, hy, hx⟩ := bind_eq_ok.mp hx
        obtain ⟨-, -, hx⟩ := bind_eq_ok.mp hx
        obtain rfl := pure_eq_ok.mp hx
        cases hnode with
        | record hmembers =>
          exact (h v (mem_of_findVariant hv)).held (by omega) (hmembers _ List.mem_cons_self) hy
      all_goals cases hx
    all_goals cases hx
  intro depth node x hdepth hnode hx
  rw [variant.eq_def] at hx
  split at hx
  · obtain ⟨v, hv, hx⟩ := bind_eq_ok.mp hx
    cases hnode with
    | tagged hnode => exact (h v (mem_of_findVariant hv)).held hdepth hnode hx
  · exact huntagged depth _ x hdepth hnode.bare hx

end Ensures

namespace FlatShape

variable {τ β : Type} {shape : FlatShape τ β} {depth : Nat}

theorem takeMembers_held {members held : List (MemberKey × Node)} {state state' : τ × List String}
    (hmembers : ∀ m ∈ members, m.2.Tame)
    (h : shape.takeMembers depth members state = .ok (state', held)) :
    ∀ m ∈ held, shape.own.slot? m.1.text = none ∧ m.2.Keeps depth := by
  induction members generalizing state held with
  | nil =>
    cases h
    simp
  | cons m members ih =>
    obtain ⟨key, node⟩ := m
    have hrest : ∀ m ∈ members, m.2.Tame := fun m hm => hmembers m (List.mem_cons_of_mem _ hm)
    obtain ⟨name, hname, h⟩ := bind_eq_ok.mp h
    split at h
    · obtain ⟨next, _, h⟩ := bind_eq_ok.mp h
      exact ih hrest h
    · rename_i hslot
      obtain ⟨node', hnode', h⟩ := bind_eq_ok.mp h
      obtain ⟨⟨state₁, held₁⟩, hheld, h⟩ := bind_eq_ok.mp h
      obtain ⟨rfl, rfl⟩ := Prod.mk.inj (pure_eq_ok.mp h)
      rintro m (_ | ⟨_, hm⟩)
      -- what is held back is known by its name, which is without flaw
      · refine ⟨?_, (hmembers _ List.mem_cons_self).detach hnode'⟩
        rw [MemberKey.name] at hname
        split at hname
        · simp at hname
        · exact Except.ok.inj hname ▸ hslot
      · exact ih hrest hheld m hm

/-- A record that is read, put together from its parts. -/
theorem read_cases {node : Node} {r : τ} (hnode : node.Tame) (h : shape.read depth node = .ok r) :
    ∃ (record : τ) (held : List (MemberKey × Node)) (base : β),
      (∀ m ∈ held, shape.own.slot? m.1.text = none ∧ m.2.Keeps (depth - 1)) ∧
      shape.base.ofMembers (depth - 1) (held.filter fun m => (shape.base.slot? m.1.text).isSome)
        (.closed none) = .ok base ∧
      shape.assemble base (held.filter fun m => !(shape.base.slot? m.1.text).isSome) record =
        .ok r := by
  have hbare := hnode.bare
  rw [read] at h
  split at h
  case h_1 heq =>
    rw [heq] at hbare
    obtain ⟨depth', hdescend, h⟩ := bind_eq_ok.mp h
    obtain ⟨_, rfl⟩ := descend_eq_ok.mp hdescend
    obtain ⟨⟨state, held⟩, hstate, h⟩ := bind_eq_ok.mp h
    obtain ⟨stop, _, h⟩ := bind_eq_ok.mp h
    obtain ⟨base, hbase, h⟩ := bind_eq_ok.mp (locate_eq_ok.mp h)
    cases hbare with
    | record hmembers => exact ⟨state.1, held, base, takeMembers_held hmembers hstate, hbase, h⟩
  case h_2 =>
    obtain ⟨base, hbase, h⟩ := bind_eq_ok.mp h
    exact ⟨shape.own.blank, [], base, by simp, hbase, h⟩
  case h_3 => simp at h

end FlatShape

end KeyLayout.Document
