/-
Documents that differ in layout only.

Two nodes of JSON documents are `Alike` when they differ in the places of their parts and in
the order of members: the members of both records can be put into one order, in which they
are alike one by one.  On the way there no member passes another one of the same name
(`Shuffled`); when all names of a record differ, that leaves every order
(`Node.Alike.of_perm`).  A value that can only be skipped is alike to any other such value.

A reader that skips a node can skip all nodes that are alike (`Alike.skip`).  A reader that
holds a node back gets nodes that are alike again and stand for the same value
(`Alike.detach`).
-/
import KeyLayout.Proofs.Document.Success

namespace KeyLayout.Document

open KeyLayout.Json (Value Fields)

/-! ### Members in another order -/

/-- Names that differ, as far as they can be read. -/
def MemberKey.Apart (a b : MemberKey) : Prop := a.flaw = none → b.flaw = none → a.text ≠ b.text

theorem MemberKey.Apart.symm {a b : MemberKey} (h : a.Apart b) : b.Apart a :=
  fun hb ha e => h ha hb e.symm

/-- The same members in another order, in which those of one name follow each other as before. -/
inductive Shuffled : List Member → List Member → Prop
  | nil : Shuffled [] []
  | cons (m : Member) {members members' : List Member} (h : Shuffled members members') :
      Shuffled (m :: members) (m :: members')
  | swap {a b : Member} (hapart : a.1.Apart b.1) (members : List Member) :
      Shuffled (a :: b :: members) (b :: a :: members)
  | trans {first second third : List Member} (h : Shuffled first second)
      (h' : Shuffled second third) : Shuffled first third

namespace Shuffled

variable {members members' : List Member}

theorem refl (members : List Member) : Shuffled members members := by
  induction members with
  | nil => exact .nil
  | cons m members ih => exact .cons m ih

theorem symm (h : Shuffled members members') : Shuffled members' members := by
  induction h with
  | nil => exact .nil
  | cons m _ ih => exact .cons m ih
  | swap hapart members => exact .swap hapart.symm members
  | trans _ _ ih ih' => exact .trans ih' ih

theorem perm (h : Shuffled members members') : members.Perm members' := by
  induction h with
  | nil => exact .nil
  | cons m _ ih => exact ih.cons m
  | @swap a b _ members => exact .swap b a members
  | trans _ _ ih ih' => exact ih.trans ih'

/-- Members with different names can be put into any order. -/
theorem of_perm (h : members.Perm members')
    (hapart : members.Pairwise fun a b => a.1.Apart b.1) : Shuffled members members' := by
  induction h with
  | nil => exact .nil
  | cons m _ ih => exact .cons m (ih (List.pairwise_cons.mp hapart).2)
  | swap a b members =>
    have hab := (List.pairwise_cons.mp hapart).1 a List.mem_cons_self
    exact .swap hab members
  | trans h _ ih ih' =>
    refine .trans (ih hapart) (ih' ?_)
    exact (h.pairwise_iff fun hab => hab.symm).mp hapart

theorem filter (h : Shuffled members members') (p : Member → Bool) :
    Shuffled (members.filter p) (members'.filter p) := by
  induction h with
  | nil => exact .nil
  | cons m _ ih =>
    by_cases hm : p m = true
    · rw [List.filter_cons_of_pos hm, List.filter_cons_of_pos hm]
      exact .cons m ih
    · rw [List.filter_cons_of_neg hm, List.filter_cons_of_neg hm]
      exact ih
  | @swap a b hapart members =>
    by_cases ha : p a = true <;> by_cases hb : p b = true <;> simp only [List.filter_cons, ha, hb]
    · exact .swap hapart _
    all_goals exact .refl _
  | trans _ _ ih ih' => exact .trans ih ih'

/-- Members may be changed one by one, if their names stay. -/
theorem map {f : Member → Member}
    (hf : ∀ m, (f m).1.text = m.1.text ∧ (f m).1.flaw = m.1.flaw) (h : Shuffled members members') :
    Shuffled (members.map f) (members'.map f) := by
  induction h with
  | nil => exact .nil
  | cons m _ ih => exact .cons (f m) ih
  | @swap a b hapart members =>
    refine .swap (fun ha hb => ?_) _
    rw [(hf a).2] at ha
    rw [(hf b).2] at hb
    rw [(hf a).1, (hf b).1]
    exact hapart ha hb
  | trans _ _ ih ih' => exact .trans ih ih'

/-- Whatever is known of the members one by one is known of them in the other order, if it keeps
names apart. -/
theorem forall₂ {R : Member → Member → Prop} (hR : ∀ {a b c d}, R a c → R b d →
    a.1.Apart b.1 → c.1.Apart d.1) (h : Shuffled members members') {others : List Member}
    (hothers : List.Forall₂ R members others) :
    ∃ others', List.Forall₂ R members' others' ∧ Shuffled others others' := by
  induction h generalizing others with
  | nil =>
    cases hothers
    exact ⟨[], .nil, .nil⟩
  | cons m _ ih =>
    cases hothers with
    | cons hm hothers =>
      obtain ⟨others', hothers', hshuffled⟩ := ih hothers
      exact ⟨_, .cons hm hothers', .cons _ hshuffled⟩
  | swap hapart members =>
    rcases hothers with _ | ⟨ha, _ | ⟨hb, hothers⟩⟩
    exact ⟨_, .cons hb (.cons ha hothers), .swap (hR ha hb hapart) _⟩
  | trans _ _ ih ih' =>
    obtain ⟨second, hsecond, hfirst⟩ := ih hothers
    obtain ⟨third, hthird, hlast⟩ := ih' hsecond
    exact ⟨third, hthird, .trans hfirst hlast⟩

/-- A run over members succeeds in another order as well, and comes to the same, if steps that
follow each other do so the other way round. -/
theorem foldlM {S : Type} {f : S → Member → Except Complaint S} {R : S → S → Prop}
    {G : Member → Prop} (hrefl : ∀ s, R s s)
    (htrans : ∀ {s t u}, R s t → R t u → R s u)
    (hstep : ∀ {s t m s'}, R s t → f s m = .ok s' → ∃ t', f t m = .ok t' ∧ R s' t')
    (hswap : ∀ {a b s s₁ s₂}, G a → G b → a.1.Apart b.1 → f s a = .ok s₁ →
      f s₁ b = .ok s₂ → ∃ t₁ t₂, f s b = .ok t₁ ∧ f t₁ a = .ok t₂ ∧ R s₂ t₂)
    (h : Shuffled members members') (hmembers : ∀ m ∈ members, G m) {s s' : S}
    (hs : members.foldlM f s = .ok s') :
    ∃ t', members'.foldlM f s = .ok t' ∧ R s' t' := by
  -- a run from a state that is the same comes to the same
  have hcongr : ∀ {members : List Member} {s t s' : S}, R s t →
      members.foldlM f s = .ok s' → ∃ t', members.foldlM f t = .ok t' ∧ R s' t' := by
    intro members
    induction members with
    | nil =>
      rintro s t s' hsame ⟨⟩
      exact ⟨t, rfl, hsame⟩
    | cons m members ih =>
      intro s t s' hsame hs
      rw [List.foldlM_cons] at hs
      obtain ⟨s₁, hs₁, hs⟩ := bind_eq_ok.mp hs
      obtain ⟨t₁, ht₁, hsame₁⟩ := hstep hsame hs₁
      obtain ⟨t', ht', hsame'⟩ := ih hsame₁ hs
      refine ⟨t', ?_, hsame'⟩
      rw [List.foldlM_cons, ht₁, ok_bind, ht']
  induction h generalizing s s' with
  | nil => exact ⟨s', hs, hrefl s'⟩
  | cons m _ ih =>
    rw [List.foldlM_cons] at hs
    obtain ⟨s₁, hs₁, hs⟩ := bind_eq_ok.mp hs
    obtain ⟨t', ht', hsame⟩ := ih (fun m hm => hmembers m (List.mem_cons_of_mem _ hm)) hs
    refine ⟨t', ?_, hsame⟩
    rw [List.foldlM_cons, hs₁, ok_bind, ht']
  | @swap a b hapart members =>
    rw [List.foldlM_cons] at hs
    obtain ⟨s₁, hs₁, hs⟩ := bind_eq_ok.mp hs
    rw [List.foldlM_cons] at hs
    obtain ⟨s₂, hs₂, hs⟩ := bind_eq_ok.mp hs
    obtain ⟨t₁, t₂, ht₁, ht₂, hsame⟩ := hswap (hmembers a List.mem_cons_self)
      (hmembers b (List.mem_cons_of_mem _ List.mem_cons_self)) hapart hs₁ hs₂
    obtain ⟨t', ht', hsame'⟩ := hcongr hsame hs
    refine ⟨t', ?_, hsame'⟩
    rw [List.foldlM_cons, ht₁, ok_bind, List.foldlM_cons, ht₂, ok_bind, ht']
  | trans h _ ih ih' =>
    obtain ⟨t, ht, hsame⟩ := ih hmembers hs
    obtain ⟨t', ht', hsame'⟩ := ih' (fun m hm => hmembers m (h.perm.mem_iff.mpr hm)) ht
    exact ⟨t', ht', htrans hsame hsame'⟩

end Shuffled

/-! ### Nodes that are alike -/

/-- Names that are the same but for their places, and for what is wrong with them. -/
structure MemberKey.Alike (a b : MemberKey) : Prop where
  text : a.text = b.text
  isText : a.isText = b.isText
  flaw : a.flaw = none ↔ b.flaw = none

/-- Two ways for a list to go on, both of which let it end here or both do not. -/
def After.Alike (a b : After) : Prop := a.notLast = none ↔ b.notLast = none

/-- Nodes of JSON documents that differ in their places and in the order of members. -/
inductive Node.Alike : Node → Node → Prop
  | scalar (value : Scalar) (span span' : Option Span) :
      Node.Alike (.scalar value none span) (.scalar value none span')
  | skipped {b b' : Broken} (hnull : b.startsNull = b'.startsNull) (h : b.skip = none)
      (h' : b'.skip = none) : Node.Alike (.broken b) (.broken b')
  | list {start start' stop stop' : Option Offset} (pairs : List (Item × Item))
      (hafter : ∀ p ∈ pairs, p.1.1.Alike p.2.1) (hnode : ∀ p ∈ pairs, Node.Alike p.1.2 p.2.2) :
      Node.Alike (.list start (pairs.map Prod.fst) (.closed stop) true)
        (.list start' (pairs.map Prod.snd) (.closed stop') true)
  | record {start start' stop stop' : Option Offset} {members members' : List Member}
      (pairs : List (Member × Member)) (hleft : Shuffled members (pairs.map Prod.fst))
      (hkey : ∀ p ∈ pairs, p.1.1.Alike p.2.1) (hnode : ∀ p ∈ pairs, Node.Alike p.1.2 p.2.2)
      (hright : Shuffled (pairs.map Prod.snd) members') :
      Node.Alike (.record start members (.closed stop) .withNull)
        (.record start' members' (.closed stop') .withNull)

theorem MemberKey.Alike.symm {a b : MemberKey} (h : a.Alike b) : b.Alike a :=
  ⟨h.text.symm, h.isText.symm, h.flaw.symm⟩

/-- Items that are related one by one. -/
def ItemsAlike (R : Node → Node → Prop) (items items' : List Item) : Prop :=
  List.Forall₂ (fun a b => a.1.Alike b.1 ∧ R a.2 b.2) items items'

/-- Members that are related one by one in the order of the second record. -/
def MembersAlike (R : Node → Node → Prop) (members members' : List Member) : Prop :=
  ∃ ordered, Shuffled members ordered ∧
    List.Forall₂ (fun a b => a.1.Alike b.1 ∧ R a.2 b.2) ordered members'

theorem MemberKey.Alike.apart {a b c d : MemberKey} (hac : a.Alike c) (hbd : b.Alike d)
    (h : a.Apart b) : c.Apart d := by
  intro hc hd
  rw [← hac.text, ← hbd.text]
  exact h (hac.flaw.mpr hc) (hbd.flaw.mpr hd)

theorem forall₂_pairs {α : Type} {R : α → α → Prop} {pairs : List (α × α)}
    (h : ∀ p ∈ pairs, R p.1 p.2) : List.Forall₂ R (pairs.map Prod.fst) (pairs.map Prod.snd) := by
  rw [List.forall₂_map_left_iff, List.forall₂_map_right_iff, List.forall₂_same]
  exact h

theorem exists_pairs {α : Type} {R : α → α → Prop} {l l' : List α} (h : List.Forall₂ R l l') :
    ∃ pairs : List (α × α), l = pairs.map Prod.fst ∧ l' = pairs.map Prod.snd ∧
      ∀ p ∈ pairs, R p.1 p.2 := by
  induction h with
  | nil => exact ⟨[], rfl, rfl, by simp⟩
  | @cons a b l l' hab _ ih =>
    obtain ⟨pairs, rfl, rfl, hpairs⟩ := ih
    exact ⟨(a, b) :: pairs, rfl, rfl, List.forall_mem_cons.mpr ⟨hab, hpairs⟩⟩

section members

variable {R R' : Node → Node → Prop} {members members' ordered ordered' : List Member}

/-- Two orders on the way are as good as one. -/
theorem MembersAlike.of_shuffled (hleft : Shuffled members ordered)
    (h : List.Forall₂ (fun a b => a.1.Alike b.1 ∧ R a.2 b.2) ordered ordered')
    (hright : Shuffled ordered' members') : MembersAlike R members members' := by
  have hflip := hright.forall₂ (R := fun b a => a.1.Alike b.1 ∧ R a.2 b.2)
    (fun hac hbd => hac.1.symm.apart hbd.1.symm) h.flip
  obtain ⟨others, hothers, hshuffled⟩ := hflip
  exact ⟨others, .trans hleft hshuffled, hothers.flip⟩

theorem MembersAlike.imp (hR : ∀ n n', R n n' → R' n n') (h : MembersAlike R members members') :
    MembersAlike R' members members' := by
  obtain ⟨ordered, hshuffled, hordered⟩ := h
  exact ⟨ordered, hshuffled, hordered.imp fun _ _ hab => ⟨hab.1, hR _ _ hab.2⟩⟩

theorem ItemsAlike.imp {items items' : List Item} (hR : ∀ n n', R n n' → R' n n')
    (h : ItemsAlike R items items') : ItemsAlike R' items items' :=
  List.Forall₂.imp (fun _ _ hab => ⟨hab.1, hR _ _ hab.2⟩) h

/-- Members are picked by their names on both sides. -/
theorem MembersAlike.filter (h : MembersAlike R members members') (p : String → Bool) :
    MembersAlike R (members.filter (p ·.1.text)) (members'.filter (p ·.1.text)) := by
  obtain ⟨ordered, hshuffled, hordered⟩ := h
  refine ⟨_, hshuffled.filter _, List.rel_filter (fun a b hab => ?_) hordered⟩
  show p a.1.text = true ↔ p b.1.text = true
  rw [hab.1.text]

/-- The names of all members may be taken for texts. -/
theorem MembersAlike.asTexts (h : MembersAlike R members members') :
    MembersAlike R (members.map fun (key, node) => ({ key with isText := true }, node))
      (members'.map fun (key, node) => ({ key with isText := true }, node)) := by
  obtain ⟨ordered, hshuffled, hordered⟩ := h
  refine ⟨_, hshuffled.map fun m => ⟨rfl, rfl⟩, ?_⟩
  rw [List.forall₂_map_left_iff, List.forall₂_map_right_iff]
  exact hordered.imp fun a b hab => ⟨⟨hab.1.text, rfl, hab.1.flaw⟩, hab.2⟩

theorem MembersAlike.singleton {m : Member} (h : MembersAlike R [m] members') :
    ∃ m', members' = [m'] ∧ m.1.Alike m'.1 ∧ R m.2 m'.2 := by
  obtain ⟨ordered, hshuffled, hordered⟩ := h
  obtain rfl : ordered = [m] := List.perm_singleton.mp hshuffled.perm.symm
  rcases hordered with _ | ⟨hm, _ | _⟩
  exact ⟨_, rfl, hm⟩

/-- Each member on the right has one to which it is related. -/
theorem MembersAlike.exists_left (h : MembersAlike R members members') :
    ∀ m' ∈ members', ∃ m ∈ members, m.1.Alike m'.1 ∧ R m.2 m'.2 := by
  obtain ⟨ordered, hshuffled, hordered⟩ := h
  intro m' hm'
  obtain ⟨pairs, rfl, rfl, hpairs⟩ := exists_pairs hordered
  obtain ⟨p, hp, rfl⟩ := List.mem_map.mp hm'
  exact ⟨p.1, hshuffled.perm.mem_iff.mpr (List.mem_map_of_mem hp), hpairs p hp⟩

end members

namespace Node.Alike

variable {start start' stop stop' : Option Offset}

theorem of_items {items items' : List Item} (h : ItemsAlike Node.Alike items items') :
    Node.Alike (.list start items (.closed stop) true)
      (.list start' items' (.closed stop') true) := by
  obtain ⟨pairs, rfl, rfl, hpairs⟩ := exists_pairs h
  exact .list pairs (fun p hp => (hpairs p hp).1) fun p hp => (hpairs p hp).2

theorem of_members {members members' : List Member}
    (h : MembersAlike Node.Alike members members') :
    Node.Alike (.record start members (.closed stop) .withNull)
      (.record start' members' (.closed stop') .withNull) := by
  obtain ⟨ordered, hshuffled, hordered⟩ := h
  obtain ⟨pairs, rfl, rfl, hpairs⟩ := exists_pairs hordered
  exact .record pairs hshuffled (fun p hp => (hpairs p hp).1) (fun p hp => (hpairs p hp).2)
    (.refl _)

/-- The members of a record may stand in any order, if their names differ. -/
theorem of_perm {members members' : List Member} (hperm : members.Perm members')
    (hapart : members.Pairwise fun a b => a.1.Apart b.1)
    (hself : ∀ m ∈ members, m.2.Alike m.2) :
    Node.Alike (.record start members (.closed stop) .withNull)
      (.record start' members' (.closed stop') .withNull) := by
  refine of_members ⟨members', .of_perm hperm hapart, List.forall₂_same.mpr fun m hm => ?_⟩
  exact ⟨⟨rfl, rfl, Iff.rfl⟩, hself m (hperm.mem_iff.mpr hm)⟩

/-- To show something of all nodes that are alike, it may be taken for granted of their parts. -/
@[elab_as_elim]
theorem induct {motive : (node node' : Node) → node.Alike node' → Prop}
    (scalar : ∀ value span span', motive _ _ (.scalar value span span'))
    (skipped : ∀ b b' hnull h h', motive _ _ (@Node.Alike.skipped b b' hnull h h'))
    (list : ∀ start start' stop stop' items items',
      (h : ItemsAlike Node.Alike items items') →
      ItemsAlike (fun n n' => ∃ h, motive n n' h) items items' →
      motive (.list start items (.closed stop) true) (.list start' items' (.closed stop') true)
        (of_items h))
    (record : ∀ start start' stop stop' members members',
      (h : MembersAlike Node.Alike members members') →
      MembersAlike (fun n n' => ∃ h, motive n n' h) members members' →
      motive (.record start members (.closed stop) .withNull)
        (.record start' members' (.closed stop') .withNull) (of_members h))
    {node node' : Node} (h : node.Alike node') : motive node node' h := by
  induction h with
  | scalar value span span' => exact scalar value span span'
  | skipped hnull h h' => exact skipped _ _ hnull h h'
  | list pairs hafter hnode ih =>
    exact list _ _ _ _ _ _ (forall₂_pairs fun p hp => ⟨hafter p hp, hnode p hp⟩)
      (forall₂_pairs fun p hp => ⟨hafter p hp, hnode p hp, ih p hp⟩)
  | record pairs hleft hkey hnode hright ih =>
    exact record _ _ _ _ _ _
      (.of_shuffled hleft (forall₂_pairs fun p hp => ⟨hkey p hp, hnode p hp⟩) hright)
      (.of_shuffled hleft (forall₂_pairs fun p hp => ⟨hkey p hp, hnode p hp, ih p hp⟩) hright)

section bare

variable {node node' : Node} (h : node.Alike node')
include h

/-! What a node is, the other one is too. -/

theorem isNull : node'.isNull = node.isNull := by
  cases h with
  | scalar value => cases value <;> rfl
  | _ => rfl

theorem breaksAsNull : node'.breaksAsNull = node.breaksAsNull := by
  cases h with
  | skipped hnull => exact hnull.symm
  | _ => rfl

theorem bare_scalar {value : Scalar} {raw : Option String} {span : Option Span}
    (hbare : node.bare = .scalar value raw span) :
    raw = none ∧ ∃ span', node'.bare = .scalar value none span' := by
  cases h with
  | scalar =>
    cases hbare
    exact ⟨rfl, _, rfl⟩
  | _ => cases hbare

theorem bare_list {start : Option Offset} {items : List Item} {close : Close} {asRecord : Bool}
    (hbare : node.bare = .list start items close asRecord) :
    ∃ start' items' stop', node'.bare = .list start' items' (.closed stop') asRecord ∧
      ItemsAlike Node.Alike items items' := by
  cases h with
  | list pairs hafter hnode =>
    cases hbare
    exact ⟨_, _, _, rfl, forall₂_pairs fun p hp => ⟨hafter p hp, hnode p hp⟩⟩
  | _ => cases hbare

theorem bare_record {start : Option Offset} {members : List Member} {close : Close}
    {form : VariantForm} (hbare : node.bare = .record start members close form) :
    form = .withNull ∧ ∃ start' members' stop',
      node'.bare = .record start' members' (.closed stop') .withNull ∧
        MembersAlike Node.Alike members members' := by
  cases h with
  | record pairs hleft hkey hnode hright =>
    cases hbare
    exact ⟨rfl, _, _, _, rfl,
      .of_shuffled hleft (forall₂_pairs fun p hp => ⟨hkey p hp, hnode p hp⟩) hright⟩
  | _ => cases hbare

/-- A JSON document has a word for every value. -/
theorem not_leftOut : ¬Reading.LeftOut node := by
  rintro ⟨span, hbare⟩
  cases (h.bare_scalar hbare).1

end bare

theorem symm {node node' : Node} (h : node.Alike node') : node'.Alike node := by
  induction h with
  | scalar value span span' => exact .scalar value span' span
  | skipped hnull h h' => exact .skipped hnull.symm h' h
  | list pairs hafter _ ih =>
    refine of_items (List.Forall₂.flip (forall₂_pairs fun p hp => ⟨?_, ih p hp⟩))
    exact (hafter p hp).symm
  | record pairs hleft hkey _ hright ih =>
    refine of_members (.of_shuffled hright.symm (List.Forall₂.flip (forall₂_pairs
      fun p hp => ⟨?_, ih p hp⟩)) hleft.symm)
    exact (hkey p hp).symm

end Node.Alike

/-! ### Skipping -/

theorem skipItems_eq_ok {items : List Item} :
    skipItems items = .ok () ↔ ∀ item ∈ items, item.2.skip = .ok () := by
  induction items with
  | nil => simp [skipItems]
  | cons item items ih =>
    rw [skipItems, bind_eq_ok, List.forall_mem_cons, ← ih]
    constructor
    · rintro ⟨⟨⟩, hnode, hitems⟩
      exact ⟨hnode, hitems⟩
    · rintro ⟨hnode, hitems⟩
      exact ⟨(), hnode, hitems⟩

theorem skipMembers_eq_ok {members : List Member} :
    skipMembers members = .ok () ↔ ∀ m ∈ members, m.2.skip = .ok () := by
  induction members with
  | nil => simp [skipMembers]
  | cons m members ih =>
    rw [skipMembers, bind_eq_ok, List.forall_mem_cons, ← ih]
    constructor
    · rintro ⟨⟨⟩, hnode, hmembers⟩
      exact ⟨hnode, hmembers⟩
    · rintro ⟨hnode, hmembers⟩
      exact ⟨(), hnode, hmembers⟩

/-- What can be skipped in one layout can be skipped in any other. -/
theorem Node.Alike.skip {node node' : Node} (h : node.Alike node') (hskip : node.skip = .ok ()) :
    node'.skip = .ok () := by
  induction h using Node.Alike.induct with
  | scalar => rfl
  | skipped b b' hnull h h' => rw [Node.skip, h']
  | list start start' stop stop' items items' h ih =>
    rw [Node.skip, bind_eq_ok] at hskip ⊢
    obtain ⟨⟨⟩, hitems, -⟩ := hskip
    refine ⟨(), skipItems_eq_ok.mpr fun item' hitem' => ?_, rfl⟩
    rw [skipItems_eq_ok] at hitems
    obtain ⟨pairs, rfl, rfl, hpairs⟩ := exists_pairs ih
    obtain ⟨p, hp, rfl⟩ := List.mem_map.mp hitem'
    obtain ⟨-, -, hnode⟩ := hpairs p hp
    exact hnode (hitems p.1 (List.mem_map_of_mem hp))
  | record start start' stop stop' members members' h ih =>
    rw [Node.skip, bind_eq_ok] at hskip ⊢
    obtain ⟨⟨⟩, hmembers, -⟩ := hskip
    refine ⟨(), skipMembers_eq_ok.mpr fun m' hm' => ?_, rfl⟩
    rw [skipMembers_eq_ok] at hmembers
    obtain ⟨m, hm, -, -, hnode⟩ := ih.exists_left m' hm'
    exact hnode (hmembers m hm)

/-! ### Holding back -/

/-- Nodes that are alike and stand for the same value. -/
structure Node.Kin (node node' : Node) : Prop where
  alike : node.Alike node'
  value : ∀ v, node.toValue = .ok v → node'.toValue = .ok v

/-- A member and what is held back of it. -/
structure Detaches (depth : Nat) (m held : Member) : Prop where
  flaw : m.1.flaw = none
  key : held.1 = m.1.detach
  node : m.2.detach depth = .ok held.2

theorem detachMembers_eq_ok {depth : Nat} {members held : List Member} :
    detachMembers depth members = .ok held ↔ List.Forall₂ (Detaches depth) members held := by
  induction members generalizing held with
  | nil =>
    rw [detachMembers, Except.ok.injEq, List.forall₂_nil_left_iff]
    exact eq_comm
  | cons m members ih =>
    obtain ⟨key, node⟩ := m
    rw [detachMembers, List.forall₂_cons_left_iff]
    constructor
    · intro h
      obtain ⟨name, hname, h⟩ := bind_eq_ok.mp h
      obtain ⟨node', hnode, h⟩ := bind_eq_ok.mp h
      obtain ⟨rest, hrest, h⟩ := bind_eq_ok.mp h
      obtain rfl := pure_eq_ok.mp h
      exact ⟨_, _, ⟨(MemberKey.name_eq_ok.mp hname).1, rfl, hnode⟩, ih.mp hrest, rfl⟩
    · rintro ⟨⟨key', node'⟩, rest, ⟨hflaw, rfl, hnode⟩, hrest, rfl⟩
      rw [MemberKey.name_eq_ok.mpr ⟨hflaw, rfl⟩, ok_bind, hnode, ok_bind, ih.mpr hrest]
      rfl

theorem Detaches.apart {depth : Nat} {a b c d : Member} (hac : Detaches depth a c)
    (hbd : Detaches depth b d) (h : a.1.Apart b.1) : c.1.Apart d.1 := by
  intro _ _
  rw [hac.key, hbd.key]
  exact h hac.flaw hbd.flaw

/-- Members held back one by one are related one by one. -/
theorem forall₂_detaches {R R' : Node → Node → Prop} {depth : Nat}
    (hR : ∀ {n n' m}, R n n' → n.detach depth = .ok m → ∃ m', n'.detach depth = .ok m' ∧ R' m m')
    {members members' held : List Member}
    (h : List.Forall₂ (fun a b => a.1.Alike b.1 ∧ R a.2 b.2) members members')
    (hheld : List.Forall₂ (Detaches depth) members held) :
    ∃ held', List.Forall₂ (Detaches depth) members' held' ∧
      List.Forall₂ (fun a b => a.1.Alike b.1 ∧ R' a.2 b.2) held held' := by
  induction h generalizing held with
  | nil =>
    cases hheld
    exact ⟨[], .nil, .nil⟩
  | @cons a b _ _ hab _ ih =>
    cases hheld with
    | @cons _ c _ _ hac hheld =>
      obtain ⟨held', hheld', hrest⟩ := ih hheld
      obtain ⟨m', hm', hrelated⟩ := hR hab.2 hac.node
      have hkey : c.1.Alike b.1.detach := by
        rw [hac.key]
        exact ⟨hab.1.text, hab.1.isText, Iff.rfl⟩
      exact ⟨(b.1.detach, m') :: held', .cons ⟨hab.1.flaw.mp hac.flaw, rfl, hm'⟩ hheld',
        .cons ⟨hkey, hrelated⟩ hrest⟩

/-- Members held back in one layout are related to those held back in another. -/
theorem MembersAlike.detach {R R' : Node → Node → Prop} {depth : Nat}
    (hR : ∀ {n n' m}, R n n' → n.detach depth = .ok m → ∃ m', n'.detach depth = .ok m' ∧ R' m m')
    {members members' held : List Member} (h : MembersAlike R members members')
    (hheld : detachMembers depth members = .ok held) :
    ∃ held', detachMembers depth members' = .ok held' ∧ MembersAlike R' held held' := by
  obtain ⟨ordered, hshuffled, hordered⟩ := h
  obtain ⟨others, hothers, hshuffled'⟩ :=
    hshuffled.forall₂ Detaches.apart (detachMembers_eq_ok.mp hheld)
  obtain ⟨held', hheld', hrest⟩ := forall₂_detaches hR hordered hothers
  exact ⟨held', detachMembers_eq_ok.mpr hheld', others, hshuffled', hrest⟩

theorem detachMembers_flaw {depth : Nat} {members held : List Member}
    (h : detachMembers depth members = .ok held) : ∀ m ∈ held, m.1.flaw = none := by
  have hforall := detachMembers_eq_ok.mp h
  clear h
  induction hforall with
  | nil => simp
  | cons hm _ ih =>
    refine List.forall_mem_cons.mpr ⟨?_, ih⟩
    rw [hm.key]
    rfl

/-! ### Members as the fields of an object -/

theorem membersToFields_singleton {key : MemberKey} {node : Node} {before fields : Fields} :
    membersToFields [(key, node)] before = .ok fields ↔ key.isText = true ∧
      ∃ v, node.toValue = .ok v ∧ before.insert key.text v = fields := by
  rw [membersToFields]
  cases key.isText
  · simp [throw, throwThe, MonadExceptOf.throw, bind, Except.bind]
  · simp only [Bool.not_true, Bool.false_eq_true, if_false, bind_eq_ok, membersToFields,
      Except.ok.injEq, true_and]

/-- The members of a record are put into the object one after the other. -/
theorem membersToFields_cons_eq (m : Member) (members : List Member) (before : Fields) :
    membersToFields (m :: members) before =
      membersToFields [m] before >>= membersToFields members := by
  obtain ⟨key, node⟩ := m
  rw [membersToFields, membersToFields]
  cases key.isText
  · rfl
  · simp only [Bool.not_true, Bool.false_eq_true, if_false]
    cases node.toValue <;> rfl

theorem membersToFields_eq_foldlM (members : List Member) (before : Fields) :
    membersToFields members before =
      members.foldlM (fun fields m => membersToFields [m] fields) before := by
  induction members generalizing before with
  | nil => rfl
  | cons m members ih => rw [membersToFields_cons_eq, List.foldlM_cons, funext ih]

section toFields

variable {R : Node → Node → Prop}
  (hR : ∀ {n n'}, R n n' → ∀ v, n.toValue = .ok v → n'.toValue = .ok v)
  {members members' : List Member} {before fields : Fields}

/-- In another order, only names that differ pass each other. -/
theorem Shuffled.toFields (h : Shuffled members members') (hflaw : ∀ m ∈ members, m.1.flaw = none)
    (hfields : membersToFields members before = .ok fields) :
    membersToFields members' before = .ok fields := by
  rw [membersToFields_eq_foldlM] at hfields ⊢
  have hrun := h.foldlM (fun _ => rfl) Eq.trans (fun hsame hs => ⟨_, hsame ▸ hs, rfl⟩)
    (fun {a b s s₁ s₂} ha hb hapart hs₁ hs₂ => ?_) hflaw hfields
  · obtain ⟨fields', hfields', rfl⟩ := hrun
    exact hfields'
  · obtain ⟨hatext, va, hva, rfl⟩ := membersToFields_singleton.mp hs₁
    obtain ⟨hbtext, vb, hvb, rfl⟩ := membersToFields_singleton.mp hs₂
    exact ⟨_, _, membersToFields_singleton.mpr ⟨hbtext, vb, hvb, rfl⟩,
      membersToFields_singleton.mpr ⟨hatext, va, hva, rfl⟩, Fields.insert_comm (hapart ha hb)⟩

include hR

theorem forall₂_toFields
    (h : List.Forall₂ (fun a b => a.1.Alike b.1 ∧ R a.2 b.2) members members')
    (hfields : membersToFields members before = .ok fields) :
    membersToFields members' before = .ok fields := by
  induction h generalizing before with
  | nil => exact hfields
  | @cons a b _ _ hab _ ih =>
    rw [membersToFields_cons_eq, bind_eq_ok] at hfields ⊢
    obtain ⟨next, hnext, hfields⟩ := hfields
    obtain ⟨htext, v, hv, rfl⟩ := membersToFields_singleton.mp hnext
    refine ⟨_, membersToFields_singleton.mpr ⟨hab.1.isText ▸ htext, v, hR hab.2 v hv, ?_⟩,
      ih hfields⟩
    rw [hab.1.text]

/-- Members that stand for the same values make the same object in any layout. -/
theorem MembersAlike.toFields (h : MembersAlike R members members')
    (hflaw : ∀ m ∈ members, m.1.flaw = none)
    (hfields : membersToFields members before = .ok fields) :
    membersToFields members' before = .ok fields := by
  obtain ⟨ordered, hshuffled, hordered⟩ := h
  exact forall₂_toFields hR hordered (hshuffled.toFields hflaw hfields)

end toFields

/-! ### Holding back a node -/

theorem ItemsAlike.detach {R R' : Node → Node → Prop} {depth : Nat}
    (hR : ∀ {n n' m}, R n n' → n.detach depth = .ok m → ∃ m', n'.detach depth = .ok m' ∧ R' m m')
    {items items' held : List Item} (h : ItemsAlike R items items')
    (hheld : detachItems depth items = .ok held) :
    ∃ held', detachItems depth items' = .ok held' ∧ ItemsAlike R' held held' := by
  induction h generalizing held with
  | nil =>
    rw [detachItems, Except.ok.injEq] at hheld
    exact ⟨[], rfl, hheld ▸ .nil⟩
  | cons hab _ ih =>
    rw [detachItems] at hheld
    obtain ⟨node, hnode, hheld⟩ := bind_eq_ok.mp hheld
    obtain ⟨rest, hrest, hheld⟩ := bind_eq_ok.mp hheld
    obtain rfl := pure_eq_ok.mp hheld
    obtain ⟨node', hnode', hrelated⟩ := hR hab.2 hnode
    obtain ⟨rest', hrest', hitems⟩ := ih hrest
    refine ⟨(⟨none, none⟩, node') :: rest', ?_, .cons ⟨Iff.rfl, hrelated⟩ hitems⟩
    rw [detachItems, hnode', ok_bind, hrest']
    rfl

theorem ItemsAlike.toValues {R : Node → Node → Prop}
    (hR : ∀ {n n'}, R n n' → ∀ v, n.toValue = .ok v → n'.toValue = .ok v)
    {items items' : List Item} (h : ItemsAlike R items items') {vs : List Value}
    (hvs : itemsToValues items = .ok vs) : itemsToValues items' = .ok vs := by
  induction h generalizing vs with
  | nil => exact hvs
  | cons hab _ ih =>
    rw [itemsToValues] at hvs ⊢
    obtain ⟨v, hv, hvs⟩ := bind_eq_ok.mp hvs
    obtain ⟨rest, hrest, hvs⟩ := bind_eq_ok.mp hvs
    rw [hR hab.2 v hv, ok_bind, ih hrest, ok_bind, hvs]

/-- What is held back in one layout can be held back in any other, and stands for the same. -/
theorem Node.Alike.detach {node node' m : Node} (h : node.Alike node') {depth : Nat}
    (hm : node.detach depth = .ok m) : ∃ m', node'.detach depth = .ok m' ∧ m.Kin m' := by
  induction h using Node.Alike.induct generalizing depth m with
  | scalar value span span' =>
    rw [Node.detach, Except.ok.injEq] at hm
    subst hm
    exact ⟨_, rfl, .scalar value none none, fun _ hv => hv⟩
  | skipped b b' hnull h h' => simp [Node.detach] at hm
  | list start start' stop stop' items items' h ih =>
    rw [Node.detach] at hm
    obtain ⟨depth', hdepth, hm⟩ := bind_eq_ok.mp hm
    obtain ⟨hlt, rfl⟩ := descend_eq_ok.mp hdepth
    obtain ⟨held, hheld, hm⟩ := bind_eq_ok.mp hm
    obtain rfl := pure_eq_ok.mp hm
    obtain ⟨held', hheld', hitems⟩ := ih.detach (fun hn hm => hn.2 hm) hheld
    refine ⟨.list none held' (.closed none) true, ?_, .of_items ?_, fun v hv => ?_⟩
    · rw [Node.detach, descend_eq_ok.mpr ⟨hlt, rfl⟩, ok_bind, hheld']
      rfl
    · exact hitems.imp fun _ _ hkin => hkin.alike
    · rw [Node.toValue] at hv ⊢
      obtain ⟨vs, hvs, hv⟩ := bind_eq_ok.mp hv
      rw [hitems.toValues Node.Kin.value hvs, ok_bind, hv]
  | record start start' stop stop' members members' h ih =>
    rw [Node.detach] at hm
    obtain ⟨depth', hdepth, hm⟩ := bind_eq_ok.mp hm
    obtain ⟨hlt, rfl⟩ := descend_eq_ok.mp hdepth
    obtain ⟨held, hheld, hm⟩ := bind_eq_ok.mp hm
    obtain rfl := pure_eq_ok.mp hm
    obtain ⟨held', hheld', hmembers⟩ := ih.detach (fun hn hm => hn.2 hm) hheld
    refine ⟨.record none held' (.closed none) .withNull, ?_, .of_members ?_, fun v hv => ?_⟩
    · rw [Node.detach, descend_eq_ok.mpr ⟨hlt, rfl⟩, ok_bind, hheld']
      rfl
    · exact hmembers.imp fun _ _ hkin => hkin.alike
    · rw [Node.toValue] at hv ⊢
      obtain ⟨fields, hfields, hv⟩ := bind_eq_ok.mp hv
      rw [hmembers.toFields Node.Kin.value (detachMembers_flaw hheld) hfields, ok_bind, hv]

end KeyLayout.Document
