/-
The object that a record denotes.

`Reading.value` takes whatever stands there: a record becomes an object, in which the last of
several members of one name counts (`Fields.lookup_ofMembers`).  A record of some shape can be
compared with that object slot by slot.  If filling a slot changes only what is written under the
name of that slot (`Slot.Writes`), then reading the members takes at most one member for each slot,
and what is written for the slot afterwards is the value of that member (`takeMembers_took`).  The
same holds of a record whose base stands among its members, and the members that it knows nothing
of are handed on (`FlatShape.read_took`).
-/
import Mathlib.Data.List.Induction
import Mathlib.Data.List.Nodup
import Mathlib.Data.List.Pairwise
import KeyLayout.Proofs.Document.Parts

namespace KeyLayout.Json

/-- The value, unless it is `null`. -/
def Value.nonNull? : Value → Option Value
  | .null => none
  | v => some v

theorem lookup_cons {α : Type} (name other : String) (value : α) (members : List (String × α)) :
    ((other, value) :: members).lookup name =
      if name = other then some value else members.lookup name := by
  rw [List.lookup_cons]
  by_cases h : name = other <;> simp [h, beq_eq_false_iff_ne.mpr]

theorem Value.eq_of_nonNull? {v w : Value} (h : v.nonNull? = some w) : v = w := by
  cases v with
  | null => cases h
  | _ => exact Option.some_inj.mp h

/-- What a name stands for among some members; of several members of one name the last one
counts. -/
def lastNamed {α : Type} (name : String) (members : List (String × α)) : Option α :=
  (members.filter (·.1 = name)).getLast?.map Prod.snd

section lastNamed

variable {α : Type} {name : String} {members : List (String × α)}

theorem lastNamed_concat (m : String × α) :
    lastNamed name (members ++ [m]) = if m.1 = name then some m.2 else lastNamed name members := by
  rw [lastNamed, List.filter_append]
  by_cases hm : m.1 = name
  · simp [hm]
  · simp [hm, lastNamed]

theorem lastNamed_cons (m : String × α) :
    lastNamed name (m :: members) =
      (lastNamed name members).or (if m.1 = name then some m.2 else none) := by
  rw [lastNamed, lastNamed, List.filter_cons]
  by_cases hm : m.1 = name
  · rw [if_pos (decide_eq_true hm), if_pos hm, List.getLast?_cons]
    cases (members.filter (·.1 = name)).getLast? <;> rfl
  · rw [if_neg (by simpa using hm), if_neg hm, Option.or_none]

theorem lastNamed_map {β : Type} (f : α → β) :
    lastNamed name (members.map fun m => (m.1, f m.2)) = (lastNamed name members).map f := by
  induction members with
  | nil => rfl
  | cons m members ih =>
    rw [List.map_cons, lastNamed_cons, lastNamed_cons, ih]
    by_cases hm : m.1 = name
    · rw [if_pos hm, if_pos hm]
      cases lastNamed name members <;> rfl
    · rw [if_neg hm, if_neg hm, Option.or_none, Option.or_none]

theorem mem_of_lastNamed {v : α} (h : lastNamed name members = some v) : (name, v) ∈ members := by
  obtain ⟨m, hm, rfl⟩ := Option.map_eq_some_iff.mp h
  obtain ⟨hmem, hname⟩ := List.mem_filter.mp (List.mem_of_getLast? hm)
  rw [← of_decide_eq_true hname]
  exact hmem

/-- Members of the same names whose values are related: what a name stands for is related. -/
theorem lastNamed_rel {β : Type} {R : α → β → Prop} {entries : List (String × β)}
    (h : List.Forall₂ (fun m named => m.1 = named.1 ∧ R m.2 named.2) members entries) :
    Option.Rel R (lastNamed name members) (lastNamed name entries) := by
  induction h with
  | nil => exact .none
  | @cons m named members entries hm _ ih =>
    rw [lastNamed_cons, lastNamed_cons, ← hm.1]
    generalize lastNamed name members = before at ih ⊢
    generalize lastNamed name entries = after at ih ⊢
    cases ih with
    | some hlast => exact .some hlast
    | none =>
      by_cases hname : m.1 = name
      · rw [if_pos hname, if_pos hname]
        exact .some hm.2
      · rw [if_neg hname, if_neg hname]
        exact .none

/-- Members of other names do not matter. -/
theorem lastNamed_filter {p : String → Bool} (hp : p name = true) :
    lastNamed name (members.filter (p ·.1)) = lastNamed name members := by
  rw [lastNamed, List.filter_filter, lastNamed]
  congr 2
  refine List.filter_congr fun m _ => ?_
  by_cases hm : m.1 = name <;> simp [hm, hp]

/-- Where no two members have one name, the last member of a name is the only one. -/
theorem lastNamed_of_nodup (h : (members.map Prod.fst).Nodup) :
    lastNamed name members = members.lookup name := by
  induction members with
  | nil => rfl
  | cons m members ih =>
    obtain ⟨other, v⟩ := m
    obtain ⟨hnot, hnodup⟩ := List.nodup_cons.mp h
    rw [lookup_cons, ← ih hnodup, lastNamed, List.filter_cons]
    by_cases hother : name = other
    · have hnone : members.filter (·.1 = name) = [] := by
        refine List.filter_eq_nil_iff.mpr fun m hm hname => hnot ?_
        exact List.mem_map.mpr ⟨m, hm, (of_decide_eq_true hname).trans hother⟩
      rw [if_pos hother, if_pos (decide_eq_true hother.symm), hnone]
      rfl
    · rw [if_neg hother, if_neg (by simpa using Ne.symm hother), lastNamed]

end lastNamed

namespace Fields

theorem lookup_insert (fields : Fields) (name other : String) (value : Value) :
    (fields.insert name value).lookup other =
      if other = name then some value else fields.lookup other := by
  fun_induction insert name value fields with
  | case1 => rw [lookup_cons]
  | case2 held rest =>
    rw [lookup_cons, lookup_cons]
    split <;> rfl
  | case3 head held rest hne hlt => rw [lookup_cons]
  | case4 head held rest hne hlt ih =>
    rw [lookup_cons, lookup_cons, ih]
    by_cases h : other = head
    · have hother : ¬other = name := fun heq => hne (heq.symm.trans h)
      rw [if_pos h, if_neg hother, if_pos h]
    · rw [if_neg h, if_neg h]

/-- The object with some members. -/
def ofMembers (members : List (String × Value)) : Fields :=
  members.foldl (fun fields m => fields.insert m.1 m.2) []

theorem ofMembers_concat (members : List (String × Value)) (m : String × Value) :
    ofMembers (members ++ [m]) = (ofMembers members).insert m.1 m.2 := by
  rw [ofMembers, List.foldl_append]
  rfl

theorem lookup_ofMembers (name : String) (members : List (String × Value)) :
    (ofMembers members).lookup name = lastNamed name members := by
  induction members using List.reverseRecOn with
  | nil => rfl
  | append_singleton members m ih =>
    rw [ofMembers_concat, lookup_insert, ih, lastNamed_concat]
    simp only [eq_comm]

theorem ascending_ofMembers (members : List (String × Value)) : Ascending (ofMembers members) := by
  induction members using List.reverseRecOn with
  | nil => exact .nil
  | append_singleton members m ih =>
    rw [ofMembers_concat]
    exact ih.insert

/-- In an object no name is repeated. -/
theorem Ascending.names_nodup {fields : Fields} (h : fields.Ascending) :
    (fields.map Prod.fst).Nodup :=
  List.pairwise_map.mpr (h.imp fun hlt => ne_of_lt hlt)

theorem lastNamed_ofMembers (name : String) (members : List (String × Value)) :
    lastNamed name (ofMembers members) = lastNamed name members := by
  rw [lastNamed_of_nodup (ascending_ofMembers members).names_nodup, lookup_ofMembers]

end Fields

end KeyLayout.Json

namespace KeyLayout.Document

open KeyLayout.Json (Value Fields lastNamed)

/-! ### Literal nodes -/

/-- The node has no tag, and if it is a scalar it is read as what it is. -/
def Node.Literal : Node → Prop
  | .scalar _ raw _ => raw = none
  | .tagged _ _ _ => False
  | _ => True

theorem Node.Literal.bare {node : Node} (h : node.Literal) : node.bare = node := by
  cases node with
  | tagged => exact h.elim
  | _ => rfl

theorem Node.Literal.not_leftOut {node : Node} (h : node.Literal) : ¬Reading.LeftOut node := by
  rintro ⟨span, hnode⟩
  rw [h.bare] at hnode
  rw [hnode] at h
  cases h

/-- What is held back of a literal node is literal. -/
theorem Node.Literal.detach {node node' : Node} {depth : Nat} (h : node.Literal)
    (hdetach : node.detach depth = .ok node') : node'.Literal := by
  cases node with
  | scalar value raw span =>
    cases hdetach
    rfl
  | broken b => cases hdetach
  | list start items close asRecord =>
    rw [Node.detach] at hdetach
    obtain ⟨_, -, hdetach⟩ := bind_eq_ok.mp hdetach
    obtain ⟨_, -, hdetach⟩ := bind_eq_ok.mp hdetach
    obtain ⟨_, -, hdetach⟩ := bind_eq_ok.mp hdetach
    obtain rfl := pure_eq_ok.mp hdetach
    trivial
  | record start members close form =>
    rw [Node.detach] at hdetach
    obtain ⟨_, -, hdetach⟩ := bind_eq_ok.mp hdetach
    obtain ⟨_, -, hdetach⟩ := bind_eq_ok.mp hdetach
    obtain ⟨_, -, hdetach⟩ := bind_eq_ok.mp hdetach
    obtain rfl := pure_eq_ok.mp hdetach
    trivial
  | tagged => exact h.elim

/-! ### Values of members -/

/-- Any value. -/
def Reading.value : Reading Value
  | depth, node => do (← node.detach depth).toValue

/-- A member has a name without flaw and stands for a value. -/
structure Member.Denotes (depth : Nat) (m : Member) (named : String × Value) : Prop where
  flaw : m.1.flaw = none
  isText : m.1.isText = true
  name : m.1.text = named.1
  literal : m.2.Literal
  value : Reading.value depth m.2 = .ok named.2

/-- The named value of a member, as far as scalars are concerned. -/
structure Member.Shows (m : Member) (named : String × Value) : Prop where
  name : m.1.text = named.1
  literal : m.2.Literal
  value : ∀ value span, m.2 = .scalar value none span → named.2 = value.toValue

theorem Member.Denotes.shows {depth : Nat} {m : Member} {named : String × Value}
    (h : m.Denotes depth named) : m.Shows named where
  name := h.name
  literal := h.literal
  value value span hscalar := by
    have hvalue := h.value
    rw [hscalar] at hvalue
    exact (Except.ok.inj hvalue).symm

/-- What is held back of a member shows the same value, and stands for it. -/
theorem Member.Denotes.detach {depth : Nat} {m : Member} {named : String × Value}
    (h : m.Denotes depth named) : ∃ held : Member, Detaches depth m held ∧
      held.Shows named ∧ held.1.isText = true ∧ held.2.toValue = .ok named.2 := by
  obtain ⟨node, hnode, hvalue⟩ := bind_eq_ok.mp h.value
  refine ⟨(m.1.detach, node), ⟨h.flaw, rfl, hnode⟩, ⟨h.name, h.literal.detach hnode, ?_⟩,
    h.isText, hvalue⟩
  rintro value span rfl
  exact (Except.ok.inj hvalue).symm

/-- Members and their named values are chosen by name alike. -/
theorem forall₂_filter {R : Member → String × Value → Prop} {members : List Member}
    {entries : List (String × Value)} (hR : ∀ {m named}, R m named → m.1.text = named.1)
    (h : List.Forall₂ R members entries) (p : String → Bool) :
    List.Forall₂ R (members.filter (p ·.1.text)) (entries.filter (p ·.1)) := by
  refine List.rel_filter (fun m named hm => ?_) h
  show p m.1.text = true ↔ p named.1 = true
  rw [hR hm]

/-- Members that make an object stand for values. -/
theorem exists_value_of_toFields {members : List Member} {before fields : Fields}
    (h : membersToFields members before = .ok fields) : ∀ m ∈ members, ∃ v, m.2.toValue = .ok v := by
  induction members generalizing before with
  | nil => simp
  | cons m members ih =>
    obtain ⟨v, hv, h⟩ := membersToFields_cons h
    exact List.forall_mem_cons.mpr ⟨⟨v, hv⟩, ih h⟩

/-- Names that are texts can be taken for texts. -/
theorem map_asText {members : List Member} (h : ∀ m ∈ members, m.1.isText = true) :
    members.map (fun (key, node) => ({ key with isText := true }, node)) = members := by
  refine (List.map_congr_left fun m hm => ?_).trans (List.map_id _)
  obtain ⟨⟨text, isText, flaw, stop, settled, valueSettled⟩, node⟩ := m
  obtain rfl : isText = true := h _ hm
  rfl

/-- What is held back of members stands for an object with their values. -/
theorem exists_toFields {depth : Nat} {members : List Member} {entries : List (String × Value)}
    (h : List.Forall₂ (Member.Denotes depth) members entries) :
    ∃ held, detachMembers depth members = .ok held ∧ (∀ m ∈ held, m.1.isText = true) ∧
      List.Forall₂ Member.Shows held entries ∧ ∀ before, membersToFields held before =
        .ok (entries.foldl (fun fields m => fields.insert m.1 m.2) before) := by
  induction h with
  | nil => exact ⟨[], rfl, by simp, .nil, fun before => rfl⟩
  | @cons m named members entries hm _ ih =>
    obtain ⟨held, hheld, htexts, hshows, hfields⟩ := ih
    obtain ⟨first, hdetach, hshow, htext, hvalue⟩ := hm.detach
    refine ⟨first :: held, ?_, List.forall_mem_cons.mpr ⟨htext, htexts⟩, .cons hshow hshows,
      fun before => ?_⟩
    · rw [detachMembers_eq_ok] at hheld ⊢
      exact .cons hdetach hheld
    · have hfirst : membersToFields [first] before = .ok (before.insert named.1 named.2) :=
        membersToFields_singleton.mpr ⟨htext, named.2, hvalue, hshow.name ▸ rfl⟩
      rw [membersToFields_cons_eq, hfirst, ok_bind, hfields, List.foldl_cons]

theorem Reading.value_record {depth : Nat} {start stop : Option Offset} {members : List Member}
    {form : VariantForm} {entries : List (String × Value)} (hdepth : 1 < depth)
    (h : List.Forall₂ (Member.Denotes (depth - 1)) members entries) :
    value depth (.record start members (.closed stop) form) =
      .ok (.record (Fields.ofMembers entries)) := by
  obtain ⟨held, hheld, -, -, hfields⟩ := exists_toFields h
  have hdetach : (Node.record start members (.closed stop) form).detach depth =
      .ok (.record none held (.closed none) form) := by
    rw [Node.detach, descend_eq_ok.mpr ⟨hdepth, rfl⟩, ok_bind, hheld]
    rfl
  rw [value, hdetach, ok_bind, Node.toValue, hfields]
  rfl

/-- A node that was read without flaw from the written form of a value denotes that value. -/
theorem Node.Holds.value_eq {node : Node} {v : Value} {depth : Nat} (h : node.Holds v)
    (hkept : v.Kept depth) : node.Literal ∧ Reading.value depth node = .ok v := by
  obtain ⟨node', hdetach, hholds⟩ := h.detach hkept
  refine ⟨?_, ?_⟩
  · cases h <;> trivial
  · rw [Reading.value, hdetach, ok_bind, hholds.toValue hkept]

theorem MembersHold.denotes {members : List Member} {fields : List (String × Value)} {depth : Nat}
    (h : MembersHold members fields) (hkept : ∀ m ∈ fields, m.2.Kept depth) :
    List.Forall₂ (Member.Denotes depth) members fields := by
  induction fields generalizing members with
  | nil =>
    cases h
    exact .nil
  | cons m fields ih =>
    obtain ⟨hfirst, hrest⟩ := List.forall_mem_cons.mp hkept
    cases h with
    | cons hkey hnode h =>
      obtain ⟨hliteral, hvalue⟩ := hnode.value_eq hfirst
      exact .cons ⟨hkey.flaw, hkey.isText, hkey.text, hliteral, hvalue⟩ (ih h hrest)

/-! ### What is written for a slot -/

section Writes

variable {τ : Type} {written : String → τ → Option Value}

/-- What is written under the name of the slot is the value that filled it, unless that is `null`;
nothing else that is written changes. -/
structure Slot.Writes (slot : Slot τ) (written : String → τ → Option Value) : Prop where
  own : ∀ {depth node r r'}, node.Literal → slot.fill depth node r = .ok r' →
    ∃ value span, node = .scalar value none span ∧
      written slot.name r' = value.toValue.nonNull?
  other : ∀ {depth node r r' name}, slot.fill depth node r = .ok r' → name ≠ slot.name →
    written name r' = written name r

theorem Slot.of_int32_writes {name : String} {presence : Presence} {set : τ → Int → τ}
    (hown : ∀ r n, written name (set r n) = some (.int n))
    (hother : ∀ r n other, other ≠ name → written other (set r n) = written other r) :
    (Slot.of name presence Reading.int32 set).Writes written where
  own hnode h := by
    obtain ⟨n, hn, rfl⟩ := map_eq_ok.mp h
    obtain ⟨⟨raw, span, hscalar⟩, -⟩ := Reading.int32_eq_ok.mp hn
    rw [hnode.bare] at hscalar
    rw [hscalar] at hnode
    obtain rfl : raw = none := hnode
    exact ⟨.int n, span, hscalar, hown _ n⟩
  other h hne := by
    obtain ⟨n, -, rfl⟩ := map_eq_ok.mp h
    exact hother _ n _ hne

theorem Slot.of_text_writes {name : String} {presence : Presence} {set : τ → Option String → τ}
    (hown : ∀ r o, written name (set r o) = o.map .text)
    (hother : ∀ r o other, other ≠ name → written other (set r o) = written other r) :
    (Slot.of name presence (Reading.optional Reading.text) set).Writes written where
  own {depth node r r'} hnode h := by
    obtain ⟨o, ho, rfl⟩ := map_eq_ok.mp h
    rcases Reading.optional_eq_ok.mp ho with ⟨hnull, rfl⟩ | ⟨-, -, s, hs, rfl⟩
    · cases node with
      | scalar value raw span =>
        obtain rfl : raw = none := hnode
        cases value with
        | null => exact ⟨.null, span, rfl, hown _ none⟩
        | _ => cases hnull
      | _ => cases hnull
    · rcases Reading.text_eq_ok.mp hs with ⟨raw, span, hscalar⟩ | ⟨value, span, -, hscalar⟩
      · rw [hnode.bare] at hscalar
        rw [hscalar] at hnode
        obtain rfl : raw = none := hnode
        exact ⟨.text s, span, hscalar, hown _ (some s)⟩
      · rw [hnode.bare] at hscalar
        rw [hscalar] at hnode
        cases hnode
  other h hne := by
    obtain ⟨o, -, rfl⟩ := map_eq_ok.mp h
    exact hother _ o _ hne

theorem Slot.Writes.alias {slot : Slot τ} (h : slot.Writes written) (name : String) :
    (slot.alias name).Writes written := ⟨h.own, h.other⟩

/-- Of some members at most one has a name of a slot; if there is one, it tells what is written for
the slot, and otherwise that stays as it is. -/
def Took (names : List String) (entries : List (String × Value)) (before after : Option Value) :
    Prop :=
  (entries.filter (·.1 ∈ names) = [] ∧ after = before) ∨
    ∃ m, entries.filter (·.1 ∈ names) = [m] ∧ after = m.2.nonNull?

theorem Took.of_filter {names : List String} {entries : List (String × Value)}
    {before after : Option Value} {p : String → Bool} (hp : ∀ name ∈ names, p name = true)
    (h : Took names (entries.filter (p ·.1)) before after) : Took names entries before after := by
  have hfilter : (entries.filter (p ·.1)).filter (·.1 ∈ names) = entries.filter (·.1 ∈ names) := by
    rw [List.filter_filter]
    refine List.filter_congr fun m _ => ?_
    by_cases hm : m.1 ∈ names
    · simp [hm, hp m.1 hm]
    · simp [hm]
  rwa [Took, hfilter] at h

/-- What a member that was taken is for the object that the members make. -/
theorem Took.cases {names : List String} {entries : List (String × Value)}
    {before after : Option Value} (h : Took names entries before after) :
    ((∀ name ∈ names, lastNamed name entries = none) ∧ after = before) ∨
    ∃ m : String × Value, m.1 ∈ names ∧ after = m.2.nonNull? ∧
      ∀ name ∈ names, lastNamed name entries = if m.1 = name then some m.2 else none := by
  have hlast : ∀ name ∈ names,
      lastNamed name entries = lastNamed name (entries.filter (·.1 ∈ names)) :=
    fun name hname => (Json.lastNamed_filter (p := (· ∈ names)) (decide_eq_true hname)).symm
  rcases h with ⟨hnone, hafter⟩ | ⟨m, hone, hafter⟩
  · refine .inl ⟨fun name hname => ?_, hafter⟩
    rw [hlast name hname, hnone]
    rfl
  · have hm : m ∈ entries.filter (·.1 ∈ names) := hone ▸ List.mem_singleton_self m
    refine .inr ⟨m, of_decide_eq_true (List.mem_filter.mp hm).2, hafter, fun name hname => ?_⟩
    rw [hlast name hname, hone, ← List.nil_append [m], Json.lastNamed_concat]
    rfl

section lookup

variable {name other : String} {entries : List (String × Value)}

/-- An integer is written as the object has it, or else as it is by default. -/
theorem Took.lookup_int {n standard : Int}
    (h : Took [name] entries (some (.int standard)) (some (.int n))) :
    some (Value.int n) = some (((Fields.ofMembers entries).lookup name).getD (.int standard)) := by
  rw [Fields.lookup_ofMembers]
  rcases h.cases with ⟨hnone, hafter⟩ | ⟨m, hm, hafter, hlast⟩
  · rw [hnone name (List.mem_singleton_self name)]
    exact hafter
  · rw [hlast name (List.mem_singleton_self name), if_pos (List.mem_singleton.mp hm),
      Value.eq_of_nonNull? hafter.symm, Option.getD_some]

/-- What may be missing is written as the object has it, unless that is `null`. -/
theorem Took.lookup_optional {after : Option Value} (h : Took [name] entries none after) :
    after = ((Fields.ofMembers entries).lookup name).bind Value.nonNull? := by
  rw [Fields.lookup_ofMembers]
  rcases h.cases with ⟨hnone, hafter⟩ | ⟨m, hm, hafter, hlast⟩
  · rw [hnone name (List.mem_singleton_self name)]
    exact hafter
  · rw [hlast name (List.mem_singleton_self name), if_pos (List.mem_singleton.mp hm)]
    exact hafter

/-- A slot with two names is written under the first one, whichever of them the object has. -/
theorem Took.lookup_alias {after : Option Value} (hne : name ≠ other)
    (h : Took [name, other] entries none after) :
    ((Fields.ofMembers entries).lookup name = none ∨
      (Fields.ofMembers entries).lookup other = none) ∧
      after = (((Fields.ofMembers entries).lookup name).or
        ((Fields.ofMembers entries).lookup other)).bind Value.nonNull? := by
  have hname : name ∈ [name, other] := List.mem_cons_self
  have hother : other ∈ [name, other] := List.mem_cons_of_mem _ List.mem_cons_self
  rw [Fields.lookup_ofMembers, Fields.lookup_ofMembers]
  rcases h.cases with ⟨hnone, hafter⟩ | ⟨m, hm, hafter, hlast⟩
  · rw [hnone name hname, hnone other hother]
    exact ⟨.inl rfl, hafter⟩
  · rw [hlast name hname, hlast other hother]
    rcases List.mem_pair.mp hm with heq | heq
    · rw [if_pos heq, if_neg (heq ▸ hne)]
      exact ⟨.inr rfl, hafter⟩
    · rw [if_neg (heq ▸ hne.symm), if_pos heq]
      exact ⟨.inl rfl, hafter⟩

end lookup

namespace Shape

variable {shape : Shape τ} {depth : Nat}

/-- No two slots answer to one name. -/
theorem slot_unique (hnames : (shape.slots.flatMap Slot.names).Nodup) {slot slot' : Slot τ}
    (hslot : slot ∈ shape.slots) (hslot' : slot' ∈ shape.slots) {name : String}
    (hname : name ∈ slot.names) (hname' : name ∈ slot'.names) : slot = slot' := by
  by_contra hne
  have hsymm : Std.Symm (Function.onFun List.Disjoint (@Slot.names τ)) :=
    ⟨fun _ _ h _ hb ha => h ha hb⟩
  exact (List.nodup_flatMap.mp hnames).2.forall hslot hslot' hne hname hname'

theorem mem_names_of_slot? {slot : Slot τ} {name : String} (h : shape.slot? name = some slot) :
    slot ∈ shape.slots ∧ name ∈ slot.names := by
  refine ⟨slot?_mem h, ?_⟩
  have hanswers := List.find?_some h
  simpa [Slot.answers, Slot.names] using hanswers

theorem declares_of_mem {slot : Slot τ} (hslot : slot ∈ shape.slots) {name : String}
    (hname : name ∈ slot.names) : shape.declares name = true := by
  rw [declares, Option.isSome_iff_ne_none, ne_eq, slot?_eq_none]
  exact not_not_intro (List.mem_flatMap.mpr ⟨slot, hslot, hname⟩)

/-- Members that are taken have a name without flaw, and fill the slots that they belong to. -/
theorem exists_fill {members : List Member} {state state' : τ × List String}
    (h : shape.takeMembers depth members state = .ok state') {m : Member} (hm : m ∈ members)
    {slot : Slot τ} (hslot : shape.slot? m.1.text = some slot) :
    m.1.flaw = none ∧ ∃ r r', slot.fill depth m.2 r = .ok r' := by
  induction members generalizing state with
  | nil => cases hm
  | cons m' members ih =>
    obtain ⟨next, hnext, h⟩ := takeMembers_cons_eq_ok.mp h
    rcases List.mem_cons.mp hm with rfl | hm
    · obtain ⟨hflaw, ⟨hnone, -⟩ | ⟨slot', r, hslot', -, hfill, -⟩⟩ := step_eq_ok.mp hnext
      · rw [hslot] at hnone
        cases hnone
      · rw [hslot] at hslot'
        obtain rfl := Option.some_inj.mp hslot'
        exact ⟨hflaw, state.1, r, hfill⟩
    · exact ih h hm

/-- One member at most is taken for a slot, and it tells what is written for the slot. -/
theorem takeMembers_took (hslots : ∀ slot ∈ shape.slots, slot.Writes written)
    (hnames : (shape.slots.flatMap Slot.names).Nodup) {members : List Member}
    {entries : List (String × Value)} (hshows : List.Forall₂ Member.Shows members entries)
    {state state' : τ × List String}
    (h : shape.takeMembers depth members state = .ok state') {slot : Slot τ}
    (hslot : slot ∈ shape.slots) :
    Took slot.names entries (written slot.name state.1) (written slot.name state'.1) ∧
      (slot.name ∈ state.2 → entries.filter (·.1 ∈ slot.names) = []) := by
  induction hshows generalizing state with
  | nil =>
    cases h
    exact ⟨.inl ⟨rfl, rfl⟩, fun _ => rfl⟩
  | @cons m named members entries hm _ ih =>
    obtain ⟨next, hnext, h⟩ := takeMembers_cons_eq_ok.mp h
    obtain ⟨hrest, hseen⟩ := ih h
    obtain ⟨-, ⟨hnone, -, rfl⟩ | ⟨slot', r, hslot', hfresh, hfill, rfl⟩⟩ := step_eq_ok.mp hnext
    · -- no slot takes the member, this one neither
      have hother : named.1 ∉ slot.names := by
        intro hname
        rw [slot?_eq_none, hm.name] at hnone
        exact hnone (List.mem_flatMap.mpr ⟨slot, hslot, hname⟩)
      rw [List.filter_cons_of_neg (by simpa using hother), Took,
        List.filter_cons_of_neg (by simpa using hother)]
      exact ⟨hrest, hseen⟩
    · obtain ⟨hmem', hname'⟩ := mem_names_of_slot? hslot'
      rw [hm.name] at hname'
      by_cases hname : named.1 ∈ slot.names
      · obtain rfl := slot_unique hnames hslot hmem' hname hname'
        obtain ⟨value, span, hnode, hwritten⟩ :=
          (hslots slot hslot).own hm.literal hfill
        -- the slot is filled now, so no other member is taken for it
        have hover := hseen List.mem_cons_self
        have hfilter : (named :: entries).filter (·.1 ∈ slot.names) = [named] := by
          rw [List.filter_cons_of_pos (by simpa using hname), hover]
        refine ⟨.inr ⟨named, hfilter, ?_⟩, fun hmem => absurd hmem hfresh⟩
        rcases hrest with ⟨-, hlast⟩ | ⟨m', hm', -⟩
        · rw [hlast, hwritten, hm.value _ _ hnode]
        · rw [hover] at hm'
          cases hm'
      · have hne : slot.name ≠ slot'.name := by
          intro heq
          have hself : slot.name ∈ slot.names := List.mem_cons_self
          have hself' : slot.name ∈ slot'.names := heq ▸ List.mem_cons_self
          obtain rfl := slot_unique hnames hslot hmem' hself hself'
          exact hname hname'
        rw [List.filter_cons_of_neg (by simpa using hname), Took,
          List.filter_cons_of_neg (by simpa using hname)]
        refine ⟨?_, fun hmem => hseen (List.mem_cons_of_mem _ hmem)⟩
        rw [← (hslots slot' hmem').other hfill hne]
        exact hrest

end Shape

end Writes

/-! ### A record with a base -/

theorem exists_right {α β : Type} {R : α → β → Prop} {l : List α} {l' : List β}
    (h : List.Forall₂ R l l') : ∀ a ∈ l, ∃ b ∈ l', R a b := by
  induction h with
  | nil => simp
  | @cons a b l l' hab _ ih =>
    refine List.forall_mem_cons.mpr ⟨⟨b, List.mem_cons_self, hab⟩, fun c hc => ?_⟩
    obtain ⟨d, hd, hcd⟩ := ih c hc
    exact ⟨d, List.mem_cons_of_mem _ hd, hcd⟩

theorem exists_forall₂ {α β : Type} {R : α → β → Prop} {l : List α} (h : ∀ a ∈ l, ∃ b, R a b) :
    ∃ l', List.Forall₂ R l l' := by
  induction l with
  | nil => exact ⟨[], .nil⟩
  | cons a l ih =>
    obtain ⟨⟨b, hb⟩, hrest⟩ := List.forall_mem_cons.mp h
    obtain ⟨l', hl'⟩ := ih hrest
    exact ⟨b :: l', .cons hb hl'⟩

namespace FlatShape

variable {τ β : Type} {shape : FlatShape τ β} {depth : Nat} {written : String → τ → Option Value}
  {writtenBase : String → β → Option Value}

/-- Every member of a record that is read denotes a value: its own ones and those of the base are
scalars, and the others are taken for values when the record is assembled. -/
theorem exists_denotes (hown : ∀ slot ∈ shape.own.slots, slot.Writes written)
    (hbase : ∀ slot ∈ shape.base.slots, slot.Writes writtenBase) {members held : List Member}
    {own own' : τ × List String} {base base' : β × List String}
    (hmembers : ∀ m ∈ members, m.1.isText = true ∧ m.2.Literal)
    (htaken : shape.own.takeMembers depth (members.filter shape.isOwn) own = .ok own')
    (hheld : detachMembers depth (members.filter (!shape.isOwn ·)) = .ok held)
    (htakenBase : shape.base.takeMembers depth (held.filter shape.isBase) base = .ok base')
    (hothers : ∀ m ∈ held.filter (!shape.isBase ·), ∃ v, m.2.toValue = .ok v) :
    ∃ entries, List.Forall₂ (Member.Denotes depth) members entries := by
  refine exists_forall₂ fun m hm => ?_
  obtain ⟨htext, hliteral⟩ := hmembers m hm
  cases hisOwn : shape.isOwn m with
  | true =>
    obtain ⟨slot, hslot⟩ := Option.isSome_iff_exists.mp hisOwn
    obtain ⟨hflaw, r, r', hfill⟩ :=
      Shape.exists_fill htaken (List.mem_filter.mpr ⟨hm, hisOwn⟩) hslot
    obtain ⟨value, span, hscalar, -⟩ := (hown slot (Shape.slot?_mem hslot)).own hliteral hfill
    exact ⟨(m.1.text, value.toValue), hflaw, htext, rfl, hliteral, by rw [hscalar]; rfl⟩
  | false =>
    -- the base and what is left see only what is held back of the member
    obtain ⟨m', hm', hdetach⟩ := exists_right (detachMembers_eq_ok.mp hheld) m
      (List.mem_filter.mpr ⟨hm, by rw [hisOwn]; rfl⟩)
    have hvalue : ∃ v, m'.2.toValue = .ok v := by
      cases hisBase : shape.isBase m' with
      | true =>
        obtain ⟨slot, hslot⟩ := Option.isSome_iff_exists.mp hisBase
        obtain ⟨-, r, r', hfill⟩ :=
          Shape.exists_fill htakenBase (List.mem_filter.mpr ⟨hm', hisBase⟩) hslot
        obtain ⟨value, span, hscalar, -⟩ :=
          (hbase slot (Shape.slot?_mem hslot)).own (hliteral.detach hdetach.node) hfill
        exact ⟨value.toValue, by rw [hscalar]; rfl⟩
      | false => exact hothers m' (List.mem_filter.mpr ⟨hm', by rw [hisBase]; rfl⟩)
    obtain ⟨v, hv⟩ := hvalue
    exact ⟨(m.1.text, v), hdetach.flaw, htext, rfl, hliteral,
      bind_eq_ok.mpr ⟨m'.2, hdetach.node, hv⟩⟩

/-- A record with a base is read from an object: one member at most is taken for each slot of the
record and of its base, and it tells what is written for the slot; the other members make an
object of their own. -/
theorem read_took (hown : ∀ slot ∈ shape.own.slots, slot.Writes written)
    (hbase : ∀ slot ∈ shape.base.slots, slot.Writes writtenBase)
    (hnames : (shape.own.slots.flatMap Slot.names ++ shape.base.slots.flatMap Slot.names).Nodup)
    (hassemble : ∀ {base held record r}, shape.assemble base held record = .ok r →
      ∀ m ∈ held, ∃ v, m.2.toValue = .ok v)
    {node : Node} (hnode : node.Literal)
    (hmembers : ∀ {start members close form}, node = .record start members close form →
      ∀ m ∈ members, m.1.isText = true ∧ m.2.Literal)
    {r : τ} (h : shape.read depth node = .ok r) :
    ∃ entries record base held,
      Reading.value depth node = .ok (.record (Fields.ofMembers entries)) ∧
      (∀ slot ∈ shape.own.slots, Took slot.names entries
        (written slot.name shape.own.blank) (written slot.name record)) ∧
      (∀ slot ∈ shape.base.slots, Took slot.names entries
        (writtenBase slot.name shape.base.blank) (writtenBase slot.name base)) ∧
      (∀ m ∈ held, m.1.isText = true) ∧
      membersToFields held [] = .ok (Fields.ofMembers (entries.filter (!shape.declares ·.1))) ∧
      shape.assemble base held record = .ok r := by
  obtain ⟨hownNames, hbaseNames, hdisjoint⟩ := List.nodup_append.mp hnames
  rcases read_eq_ok.mp h with ⟨start, members, stop, form, hbare, hdepth, state, held, htaken,
    hheld, hr⟩ | ⟨hleft, -⟩
  swap
  · exact absurd hleft hnode.not_leftOut
  rw [hnode.bare] at hbare
  obtain ⟨base, hbaseRead, hr⟩ := assembled_eq_ok.mp hr
  obtain ⟨-, state', htakenBase, -, rfl⟩ := Shape.ofMembers_eq_ok.mp hbaseRead
  obtain ⟨entries, hentries⟩ := exists_denotes hown hbase (hmembers hbare) htaken hheld htakenBase
    (hassemble hr)
  have hpart := forall₂_filter Member.Denotes.name hentries
  obtain ⟨held', hheld', htexts, hshows, -⟩ := exists_toFields (hpart (!shape.own.declares ·))
  obtain rfl : held = held' := Except.ok.inj (hheld.symm.trans hheld')
  refine ⟨entries, state.1, state'.1, held.filter (!shape.isBase ·), ?_, fun slot hslot => ?_,
    fun slot hslot => ?_, fun m hm => htexts m (List.mem_of_mem_filter hm), ?_, hr⟩
  · rw [hbare]
    exact Reading.value_record hdepth hentries
  · have hmine := (hpart shape.own.declares).imp fun _ _ hm => hm.shows
    refine (Shape.takeMembers_took hown hownNames hmine htaken hslot).1.of_filter fun name hname => ?_
    exact Shape.declares_of_mem hslot hname
  · -- what the base takes was held back before
    have hmine := forall₂_filter Member.Shows.name hshows shape.base.declares
    have htook := (Shape.takeMembers_took hbase hbaseNames hmine htakenBase hslot).1
    have hheldBack := htook.of_filter fun name hname => Shape.declares_of_mem hslot hname
    refine hheldBack.of_filter (p := (!shape.own.declares ·)) fun name hname => ?_
    have hname : name ∈ shape.base.slots.flatMap Slot.names :=
      List.mem_flatMap.mpr ⟨slot, hslot, hname⟩
    have hnone : shape.own.slot? name = none :=
      Shape.slot?_eq_none.mpr fun hmem => hdisjoint name hmem name hname rfl
    simp [Shape.declares, hnone]
  · have hothers := detachMembers_filter (!shape.base.declares ·) hheld
    obtain ⟨rest, hrest, -, -, hfields⟩ :=
      exists_toFields (forall₂_filter Member.Denotes.name (hpart (!shape.own.declares ·))
        (!shape.base.declares ·))
    obtain rfl := Except.ok.inj (hrest.symm.trans hothers)
    have hboth : (entries.filter (!shape.own.declares ·.1)).filter (!shape.base.declares ·.1) =
        entries.filter (!shape.declares ·.1) := by
      rw [List.filter_filter]
      refine List.filter_congr fun m _ => ?_
      rw [FlatShape.declares, Bool.not_or, Bool.and_comm]
    rw [hboth] at hfields
    exact hfields []

end FlatShape

end KeyLayout.Document
