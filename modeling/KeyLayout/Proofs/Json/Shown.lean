/-
Values as their written form shows them.

A number that is not finite is written as `null`, so two values can have one written form.
`Value.shown` is the value that the text shows: it is written the same way (`write_shown`),
and it can be read if the numbers that are printed can (`shown_readable`).
-/
import KeyLayout.Proofs.Json.Reader

namespace KeyLayout.Json

open KeyLayout.Document KeyLayout.Decimal

mutual

/-- The value with `null` in place of every number that has no written form. -/
def Value.shown : Value → Value
  | .float x => if (marked? x).isSome then .float x else .null
  | .list items => .list (shownItems items)
  | .record members => .record (shownMembers members)
  | v => v

def shownItems : List Value → List Value
  | [] => []
  | v :: items => v.shown :: shownItems items

def shownMembers : Fields → Fields
  | [] => []
  | (name, v) :: members => (name, v.shown) :: shownMembers members

end

theorem shown_float {x : Float} (hx : (marked? x).isSome) : (Value.float x).shown = .float x := by
  rw [Value.shown, if_pos hx]

theorem shownItems_eq (items : List Value) : shownItems items = items.map Value.shown := by
  induction items with
  | nil => rfl
  | cons v items ih => rw [shownItems, ih, List.map_cons]

theorem shown_list {α : Type} (toJson : α → Value) (xs : List α) :
    (Value.list (xs.map toJson)).shown = .list (xs.map fun x => (toJson x).shown) := by
  rw [Value.shown, shownItems_eq, List.map_map]
  rfl

section write

variable (sp : Spacing)

mutual

theorem write_shown (depth : Nat) : ∀ v : Value, write sp depth v.shown = write sp depth v
  | .null | .bool _ | .int _ | .text _ => rfl
  | .float x => by
    rw [Value.shown]
    split_ifs with hx
    · rfl
    · rw [Option.not_isSome_iff_eq_none] at hx
      rw [write, write, floatText, hx]
  | .list [] => rfl
  | .list (v :: items) => by
    rw [Value.shown, shownItems, write, write, write_shown (depth + 1) v,
      writeItems_shown (depth + 1) items]
  | .record [] => rfl
  | .record ((name, v) :: members) => by
    rw [Value.shown, shownMembers, write, write, write_shown (depth + 1) v,
      writeMembers_shown (depth + 1) members]

theorem writeItems_shown (depth : Nat) :
    ∀ items : List Value, writeItems sp depth (shownItems items) = writeItems sp depth items
  | [] => rfl
  | v :: items => by
    rw [shownItems, writeItems, writeItems, write_shown depth v, writeItems_shown depth items]

theorem writeMembers_shown (depth : Nat) :
    ∀ members : Fields, writeMembers sp depth (shownMembers members) = writeMembers sp depth members
  | [] => rfl
  | (name, v) :: members => by
    rw [shownMembers, writeMembers, writeMembers, write_shown depth v,
      writeMembers_shown depth members]

end

end write

/-- What of a value has to be known so that its written form can be read: its integers have
sixty-four bits, and its numbers are read back the same if they are printed. -/
structure Value.Printable (v : Value) : Prop where
  int : ∀ n, Contains (.int n) v → fitsBits 64 n = true
  float : ∀ x, Contains (.float x) v → (marked? x).isSome → ReadsBack x

theorem Value.Printable.item {v : Value} {items : List Value} (h : Printable (.list items))
    (hv : v ∈ items) : v.Printable :=
  ⟨fun n hn => h.int n (.item hv hn), fun x hx => h.float x (.item hv hx)⟩

theorem Value.Printable.member {m : String × Value} {members : Fields}
    (h : Printable (.record members)) (hm : m ∈ members) : m.2.Printable :=
  ⟨fun n hn => h.int n (.member hm hn), fun x hx => h.float x (.member hm hx)⟩

mutual

theorem shown_readable : ∀ {v : Value}, v.Printable → v.shown.Readable
  | .null, _ => .null
  | .bool b, _ => .bool b
  | .int n, h => .int (h.int n .self)
  | .text s, _ => .text s
  | .float x, h => by
    rw [Value.shown]
    split_ifs with hx
    · exact .float (h.float x .self hx)
    · exact .null
  | .list _, h => .list (shownItems_readable fun _ hv => h.item hv)
  | .record _, h => .record (shownMembers_readable fun _ hm => h.member hm)

theorem shownItems_readable : ∀ {items : List Value}, (∀ v ∈ items, v.Printable) →
    ∀ v ∈ shownItems items, v.Readable
  | [], _ => by simp [shownItems]
  | v :: items, h => by
    rw [shownItems, List.forall_mem_cons]
    rw [List.forall_mem_cons] at h
    exact ⟨shown_readable h.1, shownItems_readable h.2⟩

theorem shownMembers_readable : ∀ {members : Fields}, (∀ m ∈ members, m.2.Printable) →
    ∀ m ∈ shownMembers members, m.2.Readable
  | [], _ => by simp [shownMembers]
  | (name, v) :: members, h => by
    rw [shownMembers, List.forall_mem_cons]
    rw [List.forall_mem_cons] at h
    exact ⟨shown_readable h.1, shownMembers_readable h.2⟩

end

/-- Reading a value that was written is reading a node that stands for what is shown of it. -/
theorem read_written {sp : Spacing} (hsp : sp.Blank) {v : Value} (hv : v.Printable) :
    ∃ node : Node, node.Holds v.shown ∧ ∀ {α : Type} (reading : Reading α),
      read reading (String.ofList (write sp 0 v)) = reading depthLimit node := by
  obtain ⟨node, hdocument, hholds⟩ := document_write hsp (shown_readable hv)
  refine ⟨node, hholds, fun reading => ?_⟩
  rw [read, ← write_shown, hdocument, Whole.read]
  cases reading depthLimit node <;> rfl

end KeyLayout.Json
