/-
Reading the members that a record was written with.

A record is written slot by slot, and what is missing is left out.  `Shape.Fills` says that
the values written for some slots, one after the other, fill those slots in turn.  From a
node that stands for the written members the record is then read (`Shape.ofMembers_fills`).

A record whose base stands among its members takes its own members and holds back the others
(`FlatShape.takeMembers_holds`).  Its base is read from those that the base knows, and the
rest is handed on (`FlatShape.read_fills`).
-/
import KeyLayout.Document.Reading
import KeyLayout.Proofs.Document.Holding

namespace KeyLayout.Document

open KeyLayout.Json (Value Fields optionalMember)

section Readings

variable {node : Node} {depth : Nat}

theorem Reading.int32_holds {n : Int} (h : node.Holds (.int n))
    (hn : -2147483648 ≤ n ∧ n ≤ 2147483647) : Reading.int32 depth node = .ok n := by
  cases h
  exact if_pos hn

theorem Reading.text_holds {s : String} (h : node.Holds (.text s)) :
    Reading.text depth node = .ok s := by
  cases h
  rfl

/-- Of a value that is there the option is read. -/
theorem Reading.optional_holds {α : Type} {read : Reading α} {v : Value} {x : α}
    (h : node.Holds v) (hv : v ≠ .null) (hread : read depth node = .ok x) :
    Reading.optional read depth node = .ok (some x) := by
  cases h
  case null => exact absurd rfl hv
  all_goals rw [Reading.optional, hread] <;> simp [Except.map]

theorem Slot.of_fill {α τ : Type} {read : Reading α} {name : String} {presence : Presence}
    {set : τ → α → τ} {x : α} {r next : τ} (h : read depth node = .ok x) (hset : set r x = next) :
    (Slot.of name presence read set).fill depth node r = .ok next := by
  rw [Slot.of, ← hset]
  dsimp only
  rw [h]
  rfl

/-- A further name does not change how a slot is filled. -/
theorem Slot.alias_fill {τ : Type} (slot : Slot τ) (name : String) :
    (slot.alias name).fill = slot.fill := rfl

end Readings

namespace MembersHold

variable {members : List (MemberKey × Node)} {fields : Fields}

theorem filter (h : MembersHold members fields) (p : String → Bool) :
    MembersHold (members.filter fun m => p m.1.text) (fields.filter fun m => p m.1) := by
  induction fields generalizing members with
  | nil =>
    cases h
    exact .nil
  | cons m fields ih =>
    obtain ⟨name, v⟩ := m
    cases h with
    | cons hkey hnode h =>
      by_cases hp : p name = true
      · rw [List.filter_cons_of_pos (by simpa [hkey.text] using hp), List.filter_cons_of_pos (by simpa using hp)]
        exact .cons hkey hnode (ih h)
      · rw [List.filter_cons_of_neg (by simpa [hkey.text] using hp), List.filter_cons_of_neg (by simpa using hp)]
        exact ih h

theorem append {more : List (MemberKey × Node)} {moreFields : Fields}
    (h : MembersHold members fields) (hmore : MembersHold more moreFields) :
    MembersHold (members ++ more) (fields ++ moreFields) := by
  induction fields generalizing members with
  | nil =>
    cases h
    exact hmore
  | cons m fields ih =>
    cases h with
    | cons hkey hnode h => exact .cons hkey hnode (ih h)

/-- Members are the same when their names are taken for texts. -/
theorem asTexts (h : MembersHold members fields) :
    MembersHold (members.map fun (key, node) => ({ key with isText := true }, node)) fields := by
  induction fields generalizing members with
  | nil =>
    cases h
    exact .nil
  | cons m fields ih =>
    cases h with
    | cons hkey hnode h => exact .cons ⟨hkey.text, rfl, hkey.flaw⟩ hnode (ih h)

end MembersHold

namespace Shape

variable {τ : Type} {shape : Shape τ} {depth : Nat}

/-- Values that may be missing fill some slots one after the other. -/
inductive Fills (shape : Shape τ) (depth : Nat) :
    List (Slot τ) → τ → List (Option (String × Value)) → τ → Prop
  | nil {r : τ} : Fills shape depth [] r [] r
  | cons {slot : Slot τ} {slots : List (Slot τ)} {r next last : τ} (o : Option Value)
      {entries : List (Option (String × Value))} (hslot : shape.slot? slot.name = some slot)
      (hfill : ∀ v ∈ o, ∀ node : Node, node.Holds v → slot.fill depth node r = .ok next)
      (hnone : o = none → next = r) (h : Fills shape depth slots next entries last) :
      Fills shape depth (slot :: slots) r (optionalMember slot.name o :: entries) last

/-- A slot for an integer is filled from its written form. -/
theorem Fills.int {slot : Slot τ} {slots : List (Slot τ)} {r last : τ} {n : Int}
    {entries : List (Option (String × Value))} (next : τ)
    (hslot : shape.slot? slot.name = some slot) (hn : -2147483648 ≤ n ∧ n ≤ 2147483647)
    (hfill : ∀ depth node, Reading.int32 depth node = .ok n → slot.fill depth node r = .ok next)
    (h : Fills shape depth slots next entries last) :
    Fills shape depth (slot :: slots) r (some (slot.name, .int n) :: entries) last := by
  refine .cons (some (.int n)) hslot ?_ (by simp) h
  rintro v ⟨⟩ node hnode
  exact hfill depth node (Reading.int32_holds hnode hn)

/-- A slot for a text that may be missing is filled from its written form. -/
theorem Fills.text {slot : Slot τ} {slots : List (Slot τ)} {r last : τ}
    {entries : List (Option (String × Value))} (o : Option String) (next : τ)
    (hslot : shape.slot? slot.name = some slot)
    (hfill : ∀ depth node, Reading.optional Reading.text depth node = .ok o →
      slot.fill depth node r = .ok next)
    (hnone : o = none → next = r) (h : Fills shape depth slots next entries last) :
    Fills shape depth (slot :: slots) r (optionalMember slot.name (o.map .text) :: entries) last := by
  refine .cons (o.map .text) hslot ?_ (fun ho => hnone (Option.map_eq_none_iff.mp ho)) h
  intro v hv node hnode
  obtain ⟨s, rfl, rfl⟩ := Option.map_eq_some_iff.mp hv
  exact hfill depth node (Reading.optional_holds hnode (by simp) (Reading.text_holds hnode))

theorem Fills.declared {slots : List (Slot τ)} {r last : τ}
    {entries : List (Option (String × Value))} (h : Fills shape depth slots r entries last) :
    ∀ m ∈ entries.filterMap id, (shape.slot? m.1).isSome = true := by
  induction h with
  | nil => simp
  | cons o hslot _ _ _ ih =>
    cases o with
    | none => exact ih
    | some v =>
      rintro m (_ | ⟨_, hm⟩)
      · exact hslot ▸ rfl
      · exact ih m hm

/-- The names that are written are those of slots, in their order. -/
theorem Fills.names_sublist {slots : List (Slot τ)} {r last : τ}
    {entries : List (Option (String × Value))} (h : Fills shape depth slots r entries last) :
    ((entries.filterMap id).map Prod.fst).Sublist (slots.map Slot.name) := by
  induction h with
  | nil => exact .slnil
  | cons o _ _ _ _ ih =>
    cases o with
    | none => exact ih.cons _
    | some v => exact ih.cons_cons _

theorem step_slot {slot : Slot τ} {name : String} {key : MemberKey} {node : Node} {r next : τ}
    {seen : List String} (hkey : key.Names name) (hslot : shape.slot? name = some slot)
    (hseen : slot.name ∉ seen) (hfill : slot.fill depth node r = .ok next) :
    shape.step depth (r, seen) key node = .ok (next, slot.name :: seen) := by
  have hseen' : seen.contains slot.name = false := by simpa using hseen
  rw [step, hkey.name, ok_bind, hslot]
  dsimp only
  rw [hseen', if_neg Bool.false_ne_true, hfill]
  rfl

/-- No later slot has the name that a slot takes. -/
theorem unseen_cons {slot : Slot τ} {slots : List (Slot τ)} {seen : List String}
    (hnodup : ((slot :: slots).map Slot.name).Nodup)
    (hseen : ∀ other ∈ slot :: slots, other.name ∉ seen) :
    ∀ other ∈ slots, other.name ∉ slot.name :: seen := by
  intro other hother hmem
  rcases List.mem_cons.mp hmem with heq | hmem
  · exact (List.nodup_cons.mp hnodup).1 (heq ▸ List.mem_map_of_mem hother)
  · exact hseen other (List.mem_cons_of_mem _ hother) hmem

theorem takeMembers_fills {slots : List (Slot τ)} {r last : τ}
    {entries : List (Option (String × Value))} (h : Fills shape depth slots r entries last)
    (hnodup : (slots.map Slot.name).Nodup) (seen : List String)
    (hseen : ∀ slot ∈ slots, slot.name ∉ seen) {members : List (MemberKey × Node)}
    (hmembers : MembersHold members (entries.filterMap id)) :
    shape.takeMembers depth members (r, seen) =
      .ok (last, ((entries.filterMap id).map Prod.fst).reverse ++ seen) := by
  induction h generalizing seen members with
  | nil =>
    cases hmembers
    rfl
  | @cons slot slots r next last o entries hslot hfill hnone h ih =>
    have hrest : (slots.map Slot.name).Nodup := (List.nodup_cons.mp hnodup).2
    cases o with
    | none =>
      exact hnone rfl ▸ ih hrest seen (fun other hother => hseen other (List.mem_cons_of_mem _ hother))
        hmembers
    | some v =>
      cases hmembers with
      | cons hkey hnode hmembers =>
        have htake := ih hrest _ (unseen_cons hnodup hseen) hmembers
        rw [takeMembers, step_slot hkey hslot (hseen slot List.mem_cons_self)
          (hfill v rfl _ hnode), ok_bind, htake]
        simp [optionalMember]

/-- From the members that were written for all slots the record is read, if those that are required
are among them. -/
theorem ofMembers_fills {last : τ} {entries : List (Option (String × Value))}
    (h : Fills shape depth shape.slots shape.blank entries last)
    (hnodup : (shape.slots.map Slot.name).Nodup)
    (hpresence : ∀ slot ∈ shape.slots, slot.presence = .required →
      slot.name ∈ (entries.filterMap id).map Prod.fst)
    {members : List (MemberKey × Node)} (hmembers : MembersHold members (entries.filterMap id))
    (stop : Option Offset) : shape.ofMembers depth members (.closed stop) = .ok last := by
  have htake := takeMembers_fills h hnodup [] (by simp) hmembers
  generalize hseen : ((entries.filterMap id).map Prod.fst).reverse ++ [] = seen at htake
  have hcomplete : shape.slots.find? (fun s => s.presence == .required && !seen.contains s.name) =
      none := by
    rw [List.find?_eq_none]
    intro slot hslot
    by_cases hrequired : slot.presence = .required
    · have hmem : seen.contains slot.name = true := by
        rw [List.contains_iff_mem, ← hseen, List.append_nil, List.mem_reverse]
        exact hpresence slot hslot hrequired
      rw [hmem]
      simp
    · simp [hrequired]
  rw [ofMembers, htake, ok_bind, Close.finish, ok_bind, complete, hcomplete]

end Shape

namespace FlatShape

variable {τ β : Type} {shape : FlatShape τ β} {depth : Nat}

/-- A record takes the members that are its own and holds back the others. -/
theorem takeMembers_holds {members : List (MemberKey × Node)} {fields : Fields}
    (h : MembersHold members fields)
    (hkept : ∀ m ∈ fields, shape.own.slot? m.1 = none → m.2.Kept depth)
    {state last : τ × List String}
    (hown : shape.own.takeMembers depth
      (members.filter fun m => (shape.own.slot? m.1.text).isSome) state = .ok last) :
    ∃ held, MembersHold held (fields.filter fun m => !(shape.own.slot? m.1).isSome) ∧
      shape.takeMembers depth members state = .ok (last, held) := by
  induction fields generalizing members state with
  | nil =>
    cases h
    cases hown
    exact ⟨[], .nil, rfl⟩
  | cons m fields ih =>
    obtain ⟨name, v⟩ := m
    cases h with
    | @cons key _ node _ members _ hkey hnode h =>
      have hrest : ∀ m ∈ fields, shape.own.slot? m.1 = none → m.2.Kept depth := fun m hm =>
        hkept m (List.mem_cons_of_mem _ hm)
      rcases hslot : shape.own.slot? name with _ | slot
      · rw [List.filter_cons_of_neg (by simp [hkey.text, hslot])] at hown
        obtain ⟨held, hheld, htake⟩ := ih h hrest hown
        obtain ⟨node', hdetach, hnode'⟩ := hnode.detach (hkept _ List.mem_cons_self hslot)
        refine ⟨(key.detach, node') :: held, ?_, ?_⟩
        · rw [List.filter_cons_of_pos (by simp [hslot])]
          exact .cons hkey.detach hnode' hheld
        · rw [takeMembers, hkey.name, ok_bind, hslot]
          dsimp only
          rw [hdetach, ok_bind, htake]
          rfl
      · rw [List.filter_cons_of_pos (by simp [hkey.text, hslot])] at hown
        obtain ⟨next, hnext, hown⟩ := bind_eq_ok.mp hown
        obtain ⟨held, hheld, htake⟩ := ih h hrest hown
        refine ⟨held, ?_, ?_⟩
        · rw [List.filter_cons_of_neg (by simp [hslot])]
          exact hheld
        · rw [takeMembers, hkey.name, ok_bind, hslot]
          dsimp only
          rw [hnext, ok_bind, htake]

/-- Members that were written one kind after the other are told apart by their names. -/
theorem filter_written (own base : String → Bool) {written mine others : Fields}
    (hwritten : ∀ m ∈ written, own m.1 = false ∧ base m.1 = true)
    (hmine : ∀ m ∈ mine, own m.1 = true)
    (hothers : ∀ m ∈ others, own m.1 = false ∧ base m.1 = false) :
    (written ++ mine ++ others).filter (fun m => own m.1) = mine ∧
    (written ++ mine ++ others).filter (fun m => !own m.1) = written ++ others ∧
    (written ++ others).filter (fun m => base m.1) = written ∧
    (written ++ others).filter (fun m => !base m.1) = others := by
  have hall : ∀ {p : String × Value → Bool} {fields : Fields}, (∀ m ∈ fields, p m = true) →
      fields.filter p = fields := List.filter_eq_self.mpr
  have hnone : ∀ {p : String × Value → Bool} {fields : Fields}, (∀ m ∈ fields, p m = false) →
      fields.filter p = [] := fun h => List.filter_eq_nil_iff.mpr fun m hm => by simp [h m hm]
  simp only [List.filter_append]
  refine ⟨?_, ?_, ?_, ?_⟩
  · rw [hnone fun m hm => (hwritten m hm).1, hall hmine, hnone fun m hm => (hothers m hm).1]
    simp
  · rw [hall fun m hm => by simp [hwritten m hm], hnone fun m hm => by simp [hmine m hm],
      hall fun m hm => by simp [hothers m hm]]
    simp
  · rw [hall fun m hm => (hwritten m hm).2, hnone fun m hm => (hothers m hm).2]
    simp
  · rw [hnone fun m hm => by simp [hwritten m hm], hall fun m hm => by simp [hothers m hm]]
    simp

/-- A record whose base stands among its members is read from the members that were written for its
base, for itself, and for neither. -/
theorem read_fills {record : τ} {frame : β} {baseEntries ownEntries : List (Option (String × Value))}
    {others : Fields} {node : Node}
    (hbase : Shape.Fills shape.base (depth - 1) shape.base.slots shape.base.blank baseEntries frame)
    (hbaseNames : (shape.base.slots.map Slot.name).Nodup)
    (hpresence : ∀ slot ∈ shape.base.slots, slot.presence ≠ .required)
    (hown : Shape.Fills shape.own (depth - 1) shape.own.slots shape.own.blank ownEntries record)
    (hownNames : (shape.own.slots.map Slot.name).Nodup)
    (hapart : ∀ m ∈ baseEntries.filterMap id, shape.own.slot? m.1 = none)
    (hothers : ∀ m ∈ others, shape.own.slot? m.1 = none ∧ shape.base.slot? m.1 = none)
    (hdepth : 1 < depth)
    (hkept : ∀ m ∈ baseEntries.filterMap id ++ others, m.2.Kept (depth - 1))
    (hnode : node.Holds
      (.record ((baseEntries ++ ownEntries ++ others.map some).filterMap id))) :
    ∃ held place, MembersHold held others ∧
      shape.read depth node = locate place (shape.assemble frame held record) := by
  have hfields : (baseEntries ++ ownEntries ++ others.map some).filterMap id =
      baseEntries.filterMap id ++ ownEntries.filterMap id ++ others := by simp
  rw [hfields] at hnode
  obtain ⟨hmine, hheld, hbaseHeld, hothersHeld⟩ :=
    filter_written (fun name => (shape.own.slot? name).isSome)
      (fun name => (shape.base.slot? name).isSome)
      (fun m hm => ⟨by simp [hapart m hm], hbase.declared m hm⟩) hown.declared
      (fun m hm => by simp [hothers m hm])
  cases hnode with
  | @record start stop members _ hmembers =>
    -- its own members fill its slots, and everything else is held back
    have hownMembers := hmembers.filter fun name => (shape.own.slot? name).isSome
    rw [hmine] at hownMembers
    have htake := Shape.takeMembers_fills hown hownNames [] (by simp) hownMembers
    have hkept' : ∀ m ∈ baseEntries.filterMap id ++ ownEntries.filterMap id ++ others,
        shape.own.slot? m.1 = none → m.2.Kept (depth - 1) := by
      intro m hm hslot
      refine hkept m ?_
      rcases List.mem_append.mp hm with hm | hm
      · rcases List.mem_append.mp hm with hm | hm
        · exact List.mem_append_left _ hm
        · have hdeclared := hown.declared m hm
          simp [hslot] at hdeclared
      · exact List.mem_append_right _ hm
    obtain ⟨held, hholds, hread⟩ := takeMembers_holds hmembers hkept' htake
    rw [hheld] at hholds
    -- of what is held back, the base takes the members that it knows
    have hbaseMembers := hholds.filter fun name => (shape.base.slot? name).isSome
    have hotherMembers := hholds.filter fun name => !(shape.base.slot? name).isSome
    rw [hbaseHeld] at hbaseMembers
    rw [hothersHeld] at hotherMembers
    refine ⟨_, stop, hotherMembers, ?_⟩
    have hframe := Shape.ofMembers_fills hbase hbaseNames
      (fun slot hslot h => absurd h (hpresence slot hslot)) hbaseMembers none
    rw [read, Node.bare]
    · dsimp only
      rw [descend_eq_ok.mpr ⟨hdepth, rfl⟩, ok_bind, hread, ok_bind, Close.finish, ok_bind, assembled,
        hframe, ok_bind]
    · simp

end FlatShape

end KeyLayout.Document
