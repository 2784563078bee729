/-
The frame of a key in its written form.

Positions and spans that are read have thirty-two bits (`KeyFrame.Fits`), and from the
members that a frame is written with the same frame is read (`KeyFrame.fills`).  A key of any
category is read from the members of its frame and its own (`KeyFrame.gives_key`).
-/
import KeyLayout.Definition.Record
import KeyLayout.Proofs.Document.Rereading
import KeyLayout.Proofs.Document.Shape

namespace KeyLayout.KeyFrame

open Document Json

/-- Positions and spans have thirty-two bits. -/
structure Fits (f : KeyFrame) : Prop where
  row : -2147483648 ≤ f.row ∧ f.row ≤ 2147483647
  col : -2147483648 ≤ f.col ∧ f.col ≤ 2147483647
  width : -2147483648 ≤ f.width ∧ f.width ≤ 2147483647
  height : -2147483648 ≤ f.height ∧ f.height ≤ 2147483647

theorem fits_blank : blank.Fits := ⟨by decide, by decide, by decide, by decide⟩

theorem slots_preserve (N : Node → Prop) (limit : Nat) :
    ∀ slot ∈ shape.slots, slot.Preserves N limit Fits := by
  have hint := @Reading.int32_ensures N limit
  have htext := Reading.Ensures.trivial (N := N) (Reading.optional Reading.text) limit
  simp only [shape, List.forall_mem_cons]
  refine ⟨?_, ?_, ?_, ?_, ?_, ?_, ?_, .alias ?_ _, by simp⟩
  · exact Slot.of_preserves hint fun f n hf hn => ⟨hn, hf.col, hf.width, hf.height⟩
  · exact Slot.of_preserves hint fun f n hf hn => ⟨hf.row, hn, hf.width, hf.height⟩
  · exact Slot.of_preserves hint fun f n hf hn => ⟨hf.row, hf.col, hn, hf.height⟩
  · exact Slot.of_preserves hint fun f n hf hn => ⟨hf.row, hf.col, hf.width, hn⟩
  all_goals
    exact Slot.of_preserves htext fun f _ hf _ => ⟨hf.row, hf.col, hf.width, hf.height⟩

theorem slot_names_nodup : (shape.slots.map Slot.name).Nodup := by
  decide

theorem slots_not_required : ∀ slot ∈ shape.slots, slot.presence ≠ .required := by
  simp [shape, Slot.of, Slot.alias]

/-- The members that a frame is written with fill all its slots. -/
theorem fills {f : KeyFrame} (hf : f.Fits) (depth : Nat) :
    Shape.Fills shape depth shape.slots shape.blank f.members f := by
  -- the frame as it is filled, slot after slot
  refine .int ⟨f.row, 0, 1, 1, none, none, none, none⟩ rfl hf.row
    (fun _ _ h => Slot.of_fill h rfl) ?_
  refine .int ⟨f.row, f.col, 1, 1, none, none, none, none⟩ rfl hf.col
    (fun _ _ h => Slot.of_fill h rfl) ?_
  refine .int ⟨f.row, f.col, f.width, 1, none, none, none, none⟩ rfl hf.width
    (fun _ _ h => Slot.of_fill h rfl) ?_
  refine .int ⟨f.row, f.col, f.width, f.height, none, none, none, none⟩ rfl hf.height
    (fun _ _ h => Slot.of_fill h rfl) ?_
  refine .text f.label ⟨f.row, f.col, f.width, f.height, f.label, none, none, none⟩ rfl
    (fun _ _ h => Slot.of_fill h rfl) (by rintro h; rw [h]) ?_
  refine .text f.shiftUpLabel
    ⟨f.row, f.col, f.width, f.height, f.label, f.shiftUpLabel, none, none⟩ rfl
    (fun _ _ h => Slot.of_fill h rfl) (by rintro h; rw [h]) ?_
  refine .text f.shiftDownLabel
    ⟨f.row, f.col, f.width, f.height, f.label, f.shiftUpLabel, f.shiftDownLabel, none⟩ rfl
    (fun _ _ h => Slot.of_fill h rfl) (by rintro h; rw [h]) ?_
  refine .text f.symbol f rfl (fun depth node h => ?_) (by rintro h; rw [← h]) .nil
  rw [Slot.alias_fill]
  exact Slot.of_fill h rfl

theorem fitsBits_of_int32 {n : Int} (hn : -2147483648 ≤ n ∧ n ≤ 2147483647) :
    Decimal.fitsBits 64 n = true := by
  have hwide : -(2 : Int) ^ 63 ≤ n ∧ n < 2 ^ 64 := by omega
  simpa [Decimal.fitsBits] using hwide

/-- A text that may be missing is written as a text. -/
theorem optionalText_cases (name : String) (o : Option String) :
    ∀ m ∈ optionalMember name (o.map Value.text), ∃ s, m.2 = .text s := by
  rcases o with _ | s
  · rintro m ⟨⟩
  · rintro m ⟨⟩
    exact ⟨s, rfl⟩

/-- Every member of a frame is an integer of thirty-two bits or a text. -/
theorem members_cases {f : KeyFrame} (hf : f.Fits) :
    ∀ m ∈ f.members.filterMap id,
      (∃ n, m.2 = .int n ∧ Decimal.fitsBits 64 n = true) ∨ ∃ s, m.2 = .text s := by
  have hall : ∀ o ∈ f.members, ∀ m ∈ o,
      (∃ n, m.2 = .int n ∧ Decimal.fitsBits 64 n = true) ∨ ∃ s, m.2 = .text s := by
    simp only [members, List.forall_mem_cons]
    refine ⟨?_, ?_, ?_, ?_, ?_, ?_, ?_, ?_, by simp⟩
    · rintro m ⟨⟩
      exact .inl ⟨f.row, rfl, fitsBits_of_int32 hf.row⟩
    · rintro m ⟨⟩
      exact .inl ⟨f.col, rfl, fitsBits_of_int32 hf.col⟩
    · rintro m ⟨⟩
      exact .inl ⟨f.width, rfl, fitsBits_of_int32 hf.width⟩
    · rintro m ⟨⟩
      exact .inl ⟨f.height, rfl, fitsBits_of_int32 hf.height⟩
    all_goals exact fun m hm => .inr (optionalText_cases _ _ m hm)
  intro m hm
  obtain ⟨o, ho, hsome⟩ := List.mem_filterMap.mp hm
  exact hall o ho m hsome

theorem members_kept {f : KeyFrame} (hf : f.Fits) (depth : Nat) :
    ∀ m ∈ f.members.filterMap id, m.2.Kept depth := by
  intro m hm
  obtain ⟨n, hv, hn⟩ | ⟨s, hv⟩ := members_cases hf m hm
  · exact hv ▸ .int hn
  · exact hv ▸ .text s

theorem members_readable {f : KeyFrame} (hf : f.Fits) :
    ∀ m ∈ f.members.filterMap id, m.2.Readable := by
  intro m hm
  obtain ⟨n, hv, hn⟩ | ⟨s, hv⟩ := members_cases hf m hm
  · exact hv ▸ .int hn
  · exact hv ▸ .text s

theorem optionalText_readable (name : String) (o : Option String) :
    ∀ m ∈ optionalMember name (o.map Value.text), m.2.Readable := by
  intro m hm
  obtain ⟨s, hv⟩ := optionalText_cases name o m hm
  exact hv ▸ .text s

/-- The written form of a key can be read if that of its own members can. -/
theorem readable_key {f : KeyFrame} (hf : f.Fits) {ownEntries : List (Option (String × Value))}
    (hown : ∀ o ∈ ownEntries, ∀ m ∈ o, m.2.Readable) :
    (Value.ofMembers (f.members ++ ownEntries)).Readable := by
  refine .record fun m hm => ?_
  rw [List.filterMap_append, List.mem_append] at hm
  rcases hm with hframe | hm
  · exact members_readable hf m hframe
  · obtain ⟨o, ho, hsome⟩ := List.mem_filterMap.mp hm
    exact hown o ho m hsome

/-- A key that shares no name with a frame takes none of the frame's members for its own. -/
theorem members_apart {τ : Type} {own : Shape τ}
    (hnames : ∀ name ∈ shape.slots.flatMap Slot.names, name ∉ own.slots.flatMap Slot.names)
    {f : KeyFrame} (hf : f.Fits) : ∀ m ∈ f.members.filterMap id, own.slot? m.1 = none := by
  intro m hm
  have hdeclared := (fills hf 0).declared m hm
  refine Shape.slot?_eq_none.mpr (hnames _ ?_)
  by_contra hname
  have hnone : shape.slot? m.1 = none := Shape.slot?_eq_none.mpr hname
  rw [hnone] at hdeclared
  cases hdeclared

/-- A key is read from the members that were written for its frame, for itself, and for neither. -/
theorem gives_key {τ : Type} {key : FlatShape τ KeyFrame} (hbase : key.base = shape) {f : KeyFrame}
    (hf : f.Fits) {record k : τ} {ownEntries : List (Option (String × Value))} {others : Fields}
    {levels : Nat} (hlevels : 0 < levels)
    (hown : ∀ depth, 0 < depth →
      Shape.Fills key.own depth key.own.slots key.own.blank ownEntries record)
    (hownNames : (key.own.slots.map Slot.name).Nodup)
    (hnames : ∀ name ∈ shape.slots.flatMap Slot.names, name ∉ key.own.slots.flatMap Slot.names)
    (hothers : ∀ m ∈ others, key.own.slot? m.1 = none ∧ shape.slot? m.1 = none)
    (hkept : ∀ m ∈ others, m.2.Kept levels)
    (hassemble : ∀ held, MembersHold held others → key.assemble f held record = .ok k) :
    key.read.Gives levels
      (.record ((f.members ++ ownEntries ++ others.map some).filterMap id)) k := by
  obtain ⟨own, base, assemble⟩ := key
  obtain rfl : base = shape := hbase
  refine Reading.Gives.flat (fills hf) slot_names_nodup slots_not_required hown hownNames
    (members_apart hnames hf) hothers hlevels (fun m hm => ?_) hassemble
  rcases List.mem_append.mp hm with hm | hm
  · exact members_kept hf levels m hm
  · exact hkept m hm

/-- The same for a key of which nothing else is known. -/
theorem gives_own {τ : Type} {key : FlatShape τ KeyFrame} (hbase : key.base = shape) {f : KeyFrame}
    (hf : f.Fits) {record k : τ} {ownEntries : List (Option (String × Value))}
    (hown : ∀ depth, 0 < depth →
      Shape.Fills key.own depth key.own.slots key.own.blank ownEntries record)
    (hownNames : (key.own.slots.map Slot.name).Nodup)
    (hnames : ∀ name ∈ shape.slots.flatMap Slot.names, name ∉ key.own.slots.flatMap Slot.names)
    (hassemble : ∀ held, key.assemble f held record = .ok k) :
    key.read.Gives 1 (Value.ofMembers (f.members ++ ownEntries)) k := by
  have hnothing : ∀ m ∈ ([] : Fields), key.own.slot? m.1 = none ∧ shape.slot? m.1 = none := by simp
  have hgives := gives_key hbase hf Nat.one_pos hown hownNames hnames hnothing (by simp)
    fun held _ => hassemble held
  rwa [List.map_nil, List.append_nil] at hgives

end KeyLayout.KeyFrame
