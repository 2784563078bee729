/-
Values that survive being written and read again.

* `Fields.Ascending` is the order in which the members of an object stand; it is kept by
  `Fields.insert`, which only ever adds the member it is given;
* `Value.Kept` describes the values that a reader gives who may open a number of levels:
  integers have sixty-four bits, other numbers are finite, members ascend;
* `Value.Readable` describes the values whose written form can be read: of a
  floating-point number this has to be asked one by one, as `ReadsBack`;
* `Value.same` decides whether two values are equal.
-/
import Mathlib.Data.String.Basic
import KeyLayout.Proofs.Json.Number

namespace KeyLayout.Json

open KeyLayout.Decimal

/-- The names of members ascend, so no two of them are the same. -/
def Fields.Ascending (fields : Fields) : Prop := fields.Pairwise fun a b => a.1 < b.1

namespace Fields

variable {fields : Fields} {name : String} {value : Value} {member : String × Value}

theorem mem_insert (h : member ∈ insert name value fields) :
    member = (name, value) ∨ member ∈ fields := by
  fun_induction insert name value fields with
  | case1 => simpa using h
  | case2 held rest =>
    rcases List.mem_cons.mp h with hhead | hrest
    · exact .inl hhead
    · exact .inr (List.mem_cons_of_mem _ hrest)
  | case3 other held rest hne hlt => exact List.mem_cons.mp h
  | case4 other held rest hne hlt ih =>
    rcases List.mem_cons.mp h with hhead | hrest
    · exact .inr (hhead ▸ List.mem_cons_self)
    · exact (ih hrest).imp_right (List.mem_cons_of_mem _)

theorem Ascending.insert (h : Ascending fields) : Ascending (fields.insert name value) := by
  fun_induction Fields.insert name value fields with
  | case1 => exact List.pairwise_singleton _ _
  | case2 held rest =>
    rw [Ascending, List.pairwise_cons] at h ⊢
    exact h
  | case3 other held rest hne hlt =>
    have htail := List.pairwise_cons.mp h
    refine List.pairwise_cons.mpr ⟨fun m hm => ?_, h⟩
    rcases List.mem_cons.mp hm with rfl | hm
    · exact hlt
    · exact hlt.trans (htail.1 m hm)
  | case4 other held rest hne hlt ih =>
    -- what is inserted further on is still behind the first member
    have htail := List.pairwise_cons.mp h
    have hother : other < name := lt_of_le_of_ne (not_lt.mp hlt) (Ne.symm hne)
    refine List.pairwise_cons.mpr ⟨fun m hm => ?_, ih htail.2⟩
    rcases mem_insert hm with rfl | hm
    · exact hother
    · exact htail.1 m hm

/-- Members of different names can be put into an object in either order. -/
theorem insert_comm {other : String} {value' : Value} (hne : name ≠ other) :
    (fields.insert name value).insert other value' =
      (fields.insert other value').insert name value := by
  -- of the two names, one is the lesser; the other case is this one from right to left
  wlog hlt : name < other generalizing name other value value'
  · exact (this hne.symm (lt_of_le_of_ne (not_lt.mp hlt) hne.symm)).symm
  induction fields with
  | nil => simp [insert, hne, hne.symm, hlt, hlt.not_gt]
  | cons m fields ih =>
    obtain ⟨head, held⟩ := m
    rcases lt_trichotomy name head with h | rfl | h
    · rcases lt_trichotomy other head with h' | rfl | h'
      · simp [insert, hne, hne.symm, hlt, hlt.not_gt, h, h.ne, h', h'.ne]
      · simp [insert, hne, hne.symm, hlt, hlt.not_gt]
      · simp [insert, hne.symm, hlt.not_gt, h, h.ne, h'.ne', h'.not_gt]
    · simp [insert, hne.symm, hlt.not_gt]
    · have h' : head < other := h.trans hlt
      simp [insert, h.ne', h.not_gt, h'.ne', h'.not_gt, ih]

/-- A member whose name comes after all others is put at the end. -/
theorem insert_eq_append (h : ∀ m ∈ fields, m.1 < name) :
    fields.insert name value = fields ++ [(name, value)] := by
  induction fields with
  | nil => rfl
  | cons m fields ih =>
    obtain ⟨other, held⟩ := m
    have hother : other < name := h _ List.mem_cons_self
    rw [Fields.insert, if_neg hother.ne', if_neg hother.not_gt,
      ih fun m hm => h m (List.mem_cons_of_mem _ hm), List.cons_append]

end Fields

namespace Value

/-- The value `part` is the given one or is nested in it at some depth. -/
inductive Contains (part : Value) : Value → Prop
  | self : Contains part part
  | item {v : Value} {items : List Value} (hv : v ∈ items) (h : Contains part v) :
      Contains part (.list items)
  | member {m : String × Value} {members : List (String × Value)} (hm : m ∈ members)
      (h : Contains part m.2) : Contains part (.record members)

section contains

variable {part : Value}

@[simp] theorem contains_null : Contains part .null ↔ part = .null :=
  ⟨by rintro ⟨⟩; rfl, by rintro rfl; exact .self⟩

@[simp] theorem contains_bool {b : Bool} : Contains part (.bool b) ↔ part = .bool b :=
  ⟨by rintro ⟨⟩; rfl, by rintro rfl; exact .self⟩

@[simp] theorem contains_int {n : Int} : Contains part (.int n) ↔ part = .int n :=
  ⟨by rintro ⟨⟩; rfl, by rintro rfl; exact .self⟩

@[simp] theorem contains_float {x : Float} : Contains part (.float x) ↔ part = .float x :=
  ⟨by rintro ⟨⟩; rfl, by rintro rfl; exact .self⟩

@[simp] theorem contains_text {s : String} : Contains part (.text s) ↔ part = .text s :=
  ⟨by rintro ⟨⟩; rfl, by rintro rfl; exact .self⟩

@[simp] theorem contains_list {items : List Value} (h : part ≠ .list items) :
    Contains part (.list items) ↔ ∃ v ∈ items, Contains part v := by
  constructor
  · rintro (_ | ⟨hv, hpart⟩)
    · exact absurd rfl h
    · exact ⟨_, hv, hpart⟩
  · rintro ⟨v, hv, hpart⟩
    exact .item hv hpart

@[simp] theorem contains_record {members : List (String × Value)} (h : part ≠ .record members) :
    Contains part (.record members) ↔ ∃ m ∈ members, Contains part m.2 := by
  constructor
  · rintro (_ | _ | ⟨hm, hpart⟩)
    · exact absurd rfl h
    · exact ⟨_, hm, hpart⟩
  · rintro ⟨m, hm, hpart⟩
    exact .member hm hpart

end contains

/-- What a reader gives that may open fewer than `depth` levels. -/
inductive Kept : Nat → Value → Prop
  | null {depth : Nat} : Kept depth .null
  | bool {depth : Nat} (b : Bool) : Kept depth (.bool b)
  | int {depth : Nat} {n : Int} (hn : fitsBits 64 n = true) : Kept depth (.int n)
  | float {depth : Nat} {x : Float} (hx : x.isFinite = true) : Kept depth (.float x)
  | text {depth : Nat} (s : String) : Kept depth (.text s)
  | list {depth : Nat} {items : List Value} (hdepth : 1 < depth)
      (hitems : ∀ v ∈ items, Kept (depth - 1) v) : Kept depth (.list items)
  | record {depth : Nat} {members : List (String × Value)} (hdepth : 1 < depth)
      (hnames : Fields.Ascending members) (hmembers : ∀ m ∈ members, Kept (depth - 1) m.2) :
      Kept depth (.record members)

/-- A value whose written form can be read. -/
inductive Readable : Value → Prop
  | null : Readable .null
  | bool (b : Bool) : Readable (.bool b)
  | int {n : Int} (hn : fitsBits 64 n = true) : Readable (.int n)
  | float {x : Float} (hx : ReadsBack x) : Readable (.float x)
  | text (s : String) : Readable (.text s)
  | list {items : List Value} (hitems : ∀ v ∈ items, Readable v) : Readable (.list items)
  | record {members : List (String × Value)} (hmembers : ∀ m ∈ members, Readable m.2) :
      Readable (.record members)

variable {v : Value} {depth depth' : Nat}

/-- What fits into some levels fits into more. -/
theorem Kept.mono (h : Kept depth v) (hle : depth ≤ depth') : Kept depth' v := by
  induction h generalizing depth' with
  | null => exact .null
  | bool b => exact .bool b
  | int hn => exact .int hn
  | float hx => exact .float hx
  | text s => exact .text s
  | list hdepth _ ih => exact .list (by omega) fun v hv => ih v hv (by omega)
  | record hdepth hnames _ ih =>
    exact .record (by omega) hnames fun m hm => ih m hm (by omega)

/-- A value that was read can be written and read, as far as its floating-point numbers can. -/
theorem Kept.readable (h : Kept depth v) (hfloats : ∀ x, Contains (.float x) v → ReadsBack x) :
    Readable v := by
  induction h with
  | null => exact .null
  | bool b => exact .bool b
  | int hn => exact .int hn
  | float hx => exact .float (hfloats _ .self)
  | text s => exact .text s
  | list _ _ ih =>
    exact .list fun v hv => ih v hv fun x hx => hfloats x (.item hv hx)
  | record _ _ _ ih =>
    exact .record fun m hm => ih m hm fun x hx => hfloats x (.member hm hx)

end Value

/-! ### Equality of values can be decided -/

mutual

/-- Whether two values are the same. -/
def Value.same : Value → Value → Bool
  | .null, .null => true
  | .bool a, .bool b => a = b
  | .int m, .int n => m = n
  | .float x, .float y => x = y
  | .text s, .text t => s = t
  | .list vs, .list ws => sameItems vs ws
  | .record ms, .record ns => sameMembers ms ns
  | _, _ => false

/-- Whether two lists of values are the same. -/
def sameItems : List Value → List Value → Bool
  | [], [] => true
  | v :: vs, w :: ws => v.same w && sameItems vs ws
  | _, _ => false

/-- Whether two lists of named values are the same. -/
def sameMembers : Fields → Fields → Bool
  | [], [] => true
  | (name, v) :: ms, (other, w) :: ns => name = other && v.same w && sameMembers ms ns
  | _, _ => false

end

mutual

theorem Value.same_iff : ∀ v w : Value, v.same w = true ↔ v = w
  | .null, w => by cases w <;> simp [Value.same]
  | .bool b, w => by cases w <;> simp [Value.same]
  | .int n, w => by cases w <;> simp [Value.same]
  | .float x, w => by cases w <;> simp [Value.same]
  | .text s, w => by cases w <;> simp [Value.same]
  | .list vs, w => by
    cases w <;> simp [Value.same, sameItems_iff vs]
  | .record ms, w => by
    cases w <;> simp [Value.same, sameMembers_iff ms]

theorem sameItems_iff : ∀ vs ws : List Value, sameItems vs ws = true ↔ vs = ws
  | [], ws => by cases ws <;> simp [sameItems]
  | v :: vs, ws => by
    rcases ws with _ | ⟨w, ws⟩
    · simp [sameItems]
    · rw [sameItems, Bool.and_eq_true, v.same_iff w, sameItems_iff vs ws, List.cons.injEq]

theorem sameMembers_iff : ∀ ms ns : Fields, sameMembers ms ns = true ↔ ms = ns
  | [], ns => by cases ns <;> simp [sameMembers]
  | (name, v) :: ms, ns => by
    rcases ns with _ | ⟨⟨other, w⟩, ns⟩
    · simp [sameMembers]
    · rw [sameMembers, Bool.and_eq_true, Bool.and_eq_true, decide_eq_true_eq, v.same_iff w,
        sameMembers_iff ms ns, List.cons.injEq, Prod.mk.injEq]

end

instance : DecidableEq Value := fun v w => decidable_of_iff _ (v.same_iff w)

end KeyLayout.Json
