/-
Nodes that stand for JSON values.

`Node.Holds` says that a node was read without any flaw from the written form of a value;
the places do not matter.  A reader that holds such a node back and turns it into a value
later gets that value (`Holds.detach`, `Holds.toValue`), if the value does not open too many
levels and its members ascend.
-/
import KeyLayout.Proofs.Json.Value

namespace KeyLayout.Document

open KeyLayout.Json (Value Fields)
open KeyLayout.Decimal (fitsBits)

theorem ok_bind {α β ε : Type} (a : α) (f : α → Except ε β) :
    ((.ok a : Except ε α) >>= f) = f a := rfl

theorem bind_eq_ok {α β ε : Type} {x : Except ε α} {f : α → Except ε β} {b : β} :
    (x >>= f) = .ok b ↔ ∃ a, x = .ok a ∧ f a = .ok b := by
  cases x <;> simp [bind, Except.bind]

theorem map_eq_ok {α β ε : Type} {x : Except ε α} {f : α → β} {b : β} :
    x.map f = .ok b ↔ ∃ a, x = .ok a ∧ f a = b := by
  cases x <;> simp [Except.map]

theorem pure_eq_ok {α ε : Type} {a b : α} : (pure a : Except ε α) = .ok b ↔ a = b := by
  simp [pure, Except.pure]

/-- When all of a list can be taken through a function, some function without failures does it. -/
theorem mapM_eq_ok {α β ε : Type} {f : α → Except ε β} {xs : List α} {ys : List β} [Inhabited β] :
    xs.mapM f = .ok ys ↔ ∃ g : α → β, ys = xs.map g ∧ ∀ x ∈ xs, f x = .ok (g x) := by
  induction xs generalizing ys with
  | nil => simp [pure, Except.pure, eq_comm]
  | cons x xs ih =>
    rw [List.mapM_cons, bind_eq_ok]
    constructor
    · rintro ⟨y, hy, h⟩
      obtain ⟨rest, hrest, h⟩ := bind_eq_ok.mp h
      obtain rfl := pure_eq_ok.mp h
      obtain ⟨g, rfl, hg⟩ := ih.mp hrest
      have hsome : ∀ x' ∈ x :: xs, ∃ y, f x' = .ok y := by
        rintro x' (_ | ⟨_, hx'⟩)
        · exact ⟨y, hy⟩
        · exact ⟨g x', hg x' hx'⟩
      choose! g' hg' using hsome
      refine ⟨g', ?_, hg'⟩
      have hfirst : y = g' x := Except.ok.inj (hy.symm.trans (hg' x List.mem_cons_self))
      rw [List.map_cons, ← hfirst]
      congr 1
      refine List.map_congr_left fun x' hx' => ?_
      exact Except.ok.inj ((hg x' hx').symm.trans (hg' x' (List.mem_cons_of_mem x hx')))
    · rintro ⟨g, rfl, hg⟩
      have hrest := ih.mpr ⟨g, rfl, fun x' hx' => hg x' (List.mem_cons_of_mem x hx')⟩
      exact ⟨g x, hg x List.mem_cons_self, bind_eq_ok.mpr ⟨_, hrest, rfl⟩⟩

theorem locate_eq_ok {α : Type} {place : Option Offset} {r : Except Complaint α} {x : α} :
    locate place r = .ok x ↔ r = .ok x := by
  rcases r with ⟨cause, _ | p⟩ | y <;> simp [locate]

theorem descend_eq_ok {depth depth' : Nat} {start : Option Offset} :
    descend depth start = .ok depth' ↔ 1 < depth ∧ depth' = depth - 1 := by
  rw [descend]
  split
  · simp
    omega
  · simp
    omega

/-- The key of a member was written as a text without flaw. -/
structure MemberKey.Names (key : MemberKey) (name : String) : Prop where
  text : key.text = name
  isText : key.isText = true
  flaw : key.flaw = none

mutual

/-- A node without flaw that stands for a value. -/
inductive Node.Holds : Node → Value → Prop
  | null {span : Option Span} : Node.Holds (.scalar .null none span) .null
  | bool {b : Bool} {span : Option Span} : Node.Holds (.scalar (.bool b) none span) (.bool b)
  | int {n : Int} {span : Option Span} : Node.Holds (.scalar (.int n) none span) (.int n)
  | float {x : Float} {span : Option Span} : Node.Holds (.scalar (.float x) none span) (.float x)
  | text {s : String} {span : Option Span} : Node.Holds (.scalar (.text s) none span) (.text s)
  | list {start stop : Option Offset} {items : List (After × Node)} {vs : List Value}
      (h : ItemsHold items vs) : Node.Holds (.list start items (.closed stop) true) (.list vs)
  | record {start stop : Option Offset} {members : List (MemberKey × Node)} {fields : Fields}
      (h : MembersHold members fields) :
      Node.Holds (.record start members (.closed stop) .withNull) (.record fields)

/-- The items of a list stand for values one by one. -/
inductive ItemsHold : List (After × Node) → List Value → Prop
  | nil : ItemsHold [] []
  | cons {after : After} {node : Node} {v : Value} {items : List (After × Node)}
      {vs : List Value} (hnode : node.Holds v) (h : ItemsHold items vs) :
      ItemsHold ((after, node) :: items) (v :: vs)

/-- The members of a record stand for named values one by one. -/
inductive MembersHold : List (MemberKey × Node) → Fields → Prop
  | nil : MembersHold [] []
  | cons {key : MemberKey} {name : String} {node : Node} {v : Value}
      {members : List (MemberKey × Node)} {fields : Fields} (hkey : key.Names name)
      (hnode : node.Holds v) (h : MembersHold members fields) :
      MembersHold ((key, node) :: members) ((name, v) :: fields)

end

theorem MemberKey.Names.name {key : MemberKey} {name : String} (h : key.Names name) :
    key.name = .ok name := by
  rw [MemberKey.name, h.flaw, h.text]

theorem MemberKey.Names.detach {key : MemberKey} {name : String} (h : key.Names name) :
    key.detach.Names name :=
  ⟨h.text, h.isText, rfl⟩

section Detach

variable {depth : Nat} {node : Node} {v : Value}

theorem ItemsHold.detach {items : List (After × Node)} {vs : List Value} (h : ItemsHold items vs)
    (hdetach : ∀ v ∈ vs, ∀ node : Node, node.Holds v →
      ∃ node', node.detach depth = .ok node' ∧ node'.Holds v) :
    ∃ items', detachItems depth items = .ok items' ∧ ItemsHold items' vs := by
  induction vs generalizing items with
  | nil =>
    cases h
    exact ⟨[], rfl, .nil⟩
  | cons v vs ih =>
    cases h with
    | cons hnode h =>
      obtain ⟨node', hok, hnode'⟩ := hdetach v List.mem_cons_self _ hnode
      obtain ⟨items', hoks, h'⟩ := ih h fun v hv => hdetach v (List.mem_cons_of_mem _ hv)
      refine ⟨(⟨none, none⟩, node') :: items', ?_, .cons hnode' h'⟩
      rw [detachItems, hok, ok_bind, hoks]
      rfl

theorem MembersHold.detach {members : List (MemberKey × Node)} {fields : Fields}
    (h : MembersHold members fields)
    (hdetach : ∀ m ∈ fields, ∀ node : Node, node.Holds m.2 →
      ∃ node', node.detach depth = .ok node' ∧ node'.Holds m.2) :
    ∃ members', detachMembers depth members = .ok members' ∧ MembersHold members' fields := by
  induction fields generalizing members with
  | nil =>
    cases h
    exact ⟨[], rfl, .nil⟩
  | cons m fields ih =>
    cases h with
    | cons hkey hnode h =>
      obtain ⟨node', hok, hnode'⟩ := hdetach _ List.mem_cons_self _ hnode
      obtain ⟨members', hoks, h'⟩ := ih h fun m hm => hdetach m (List.mem_cons_of_mem _ hm)
      refine ⟨(_, node') :: members', ?_, .cons hkey.detach hnode' h'⟩
      rw [detachMembers, hkey.name, ok_bind, hok, ok_bind, hoks]
      rfl

/-- A reader can hold the node back if the value opens few enough levels. -/
theorem Node.Holds.detach (hkept : v.Kept depth) (h : node.Holds v) :
    ∃ node', node.detach depth = .ok node' ∧ node'.Holds v := by
  -- along the value, which tells what the node is
  induction hkept generalizing node with
  | null => cases h; exact ⟨_, rfl, .null⟩
  | bool b => cases h; exact ⟨_, rfl, .bool⟩
  | int hn => cases h; exact ⟨_, rfl, .int⟩
  | float hx => cases h; exact ⟨_, rfl, .float⟩
  | text s => cases h; exact ⟨_, rfl, .text⟩
  | list hdepth _ ih =>
    cases h with
    | list h =>
      obtain ⟨items', hok, h'⟩ := h.detach fun v hv node => ih v hv
      refine ⟨.list none items' (.closed none) true, ?_, .list h'⟩
      rw [Node.detach, descend_eq_ok.mpr ⟨hdepth, rfl⟩, ok_bind, hok]
      rfl
  | record hdepth _ _ ih =>
    cases h with
    | record h =>
      obtain ⟨members', hok, h'⟩ := h.detach fun m hm node => ih m hm
      refine ⟨.record none members' (.closed none) .withNull, ?_, .record h'⟩
      rw [Node.detach, descend_eq_ok.mpr ⟨hdepth, rfl⟩, ok_bind, hok]
      rfl

end Detach

section ToValue

variable {depth : Nat} {node : Node} {v : Value}

theorem ItemsHold.toValues {items : List (After × Node)} {vs : List Value} (h : ItemsHold items vs)
    (hvalue : ∀ v ∈ vs, ∀ node : Node, node.Holds v → node.toValue = .ok v) :
    itemsToValues items = .ok vs := by
  induction vs generalizing items with
  | nil =>
    cases h
    rfl
  | cons v vs ih =>
    cases h with
    | cons hnode h =>
      rw [itemsToValues, hvalue v List.mem_cons_self _ hnode, ok_bind,
        ih h fun v hv => hvalue v (List.mem_cons_of_mem _ hv)]
      rfl

/-- Members in ascending order are taken over in that order. -/
theorem MembersHold.toFields {members : List (MemberKey × Node)} {fields : Fields}
    (h : MembersHold members fields) (before : Fields) (hnames : Fields.Ascending (before ++ fields))
    (hvalue : ∀ m ∈ fields, ∀ node : Node, node.Holds m.2 → node.toValue = .ok m.2) :
    membersToFields members before = .ok (before ++ fields) := by
  induction fields generalizing members before with
  | nil =>
    cases h
    rw [membersToFields, List.append_nil]
  | cons m fields ih =>
    cases h with
    | @cons key name node v members _ hkey hnode h =>
      -- the next name is behind all names so far, so its member is put at the end
      have hlast : ∀ m ∈ before, m.1 < name := fun m hm =>
        (List.pairwise_append.mp hnames).2.2 m hm _ List.mem_cons_self
      have happend : before ++ (name, v) :: fields = (before ++ [(name, v)]) ++ fields := by simp
      have hrest := ih h _ (happend ▸ hnames) fun m hm => hvalue m (List.mem_cons_of_mem _ hm)
      rw [happend, ← hrest, ← Fields.insert_eq_append hlast]
      simp [membersToFields, hkey.isText, hkey.text, hvalue _ List.mem_cons_self _ hnode, ok_bind]

/-- The value that a node stands for is got back from it. -/
theorem Node.Holds.toValue (hkept : v.Kept depth) (h : node.Holds v) : node.toValue = .ok v := by
  induction hkept generalizing node with
  | null => cases h; rfl
  | bool b => cases h; rfl
  | int hn => cases h; rfl
  | float hx =>
    cases h
    rw [Node.toValue, Scalar.toValue, if_pos hx]
  | text s => cases h; rfl
  | list _ _ ih =>
    cases h with
    | list h =>
      rw [Node.toValue, h.toValues fun v hv node => ih v hv]
      rfl
  | record _ hnames _ ih =>
    cases h with
    | record h =>
      rw [Node.toValue, h.toFields [] hnames fun m hm node => ih m hm]
      rfl

end ToValue

end KeyLayout.Document
