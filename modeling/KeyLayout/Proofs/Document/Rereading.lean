/-
Reading what was written, part by part.

`Reading.Gives` says that a value is read from every node that stands for some written form,
and `Reading.Refuses` that reading fails there with a certain cause.  Both need levels that
may be opened.  What is read from the whole follows from what is read from its parts:

* a list gives its items, and is refused when one of them is (`Gives.list`, `Refuses.list`);
* a variant is read from its bare name or from its name and its content (`gives_bare`,
  `Gives.tagged`);
* a record whose members stand in the order of its slots is read slot by slot
  (`Gives.record`), up to the first that is refused (`Refuses.record`).
-/
import Mathlib.Data.List.Nodup
import KeyLayout.Proofs.Document.Filling

namespace KeyLayout.Document

open KeyLayout.Json (Value Fields optionalMember)

/-- From every node that stands for `v`, `x` is read, if more than `levels` levels may be opened. -/
def Reading.Gives {α : Type} (read : Reading α) (levels : Nat) (v : Value) (x : α) : Prop :=
  ∀ depth node, levels < depth → node.Holds v → read depth node = .ok x

/-- Every node that stands for `v` is refused for one cause, if more than `levels` levels may be
opened. -/
def Reading.Refuses {α : Type} (read : Reading α) (levels : Nat) (v : Value) (cause : Cause) :
    Prop :=
  ∀ depth node, levels < depth → node.Holds v → ∃ place, read depth node = .error ⟨cause, place⟩

/-- A complaint keeps its cause when it gets a place. -/
theorem locate_error (α : Type) (place : Option Offset) (cause : Cause) (known : Option Offset) :
    ∃ place', (locate place (.error ⟨cause, known⟩) : Except Complaint α) =
      .error ⟨cause, place'⟩ := by
  cases known with
  | none => exact ⟨place, rfl⟩
  | some p => exact ⟨some p, rfl⟩

theorem error_bind {α β ε : Type} (e : ε) (f : α → Except ε β) :
    ((.error e : Except ε α) >>= f) = .error e := rfl

/-- A name that no two of some values share tells them apart. -/
theorem find?_name_eq_some_iff {α : Type} {values : List α} {name : α → String} {s : String}
    {x : α} (hnodup : (values.map name).Nodup) :
    values.find? (name · == s) = some x ↔ x ∈ values ∧ name x = s := by
  constructor
  · intro h
    exact ⟨List.mem_of_find?_eq_some h, by simpa using List.find?_some h⟩
  · rintro ⟨hx, rfl⟩
    have hsome : (values.find? (name · == name x)).isSome := by
      rw [List.find?_isSome]
      exact ⟨x, hx, beq_self_eq_true _⟩
    obtain ⟨y, hy⟩ := Option.isSome_iff_exists.mp hsome
    have hname : name y = name x := by simpa using List.find?_some hy
    rw [hy, List.inj_on_of_nodup_map hnodup (List.mem_of_find?_eq_some hy) hx hname]

namespace Reading

variable {α β : Type} {read : Reading α} {levels levels' : Nat} {v : Value} {x : α} {cause : Cause}

theorem Gives.mono (h : read.Gives levels v x) (hle : levels ≤ levels') : read.Gives levels' v x :=
  fun depth node hdepth hnode => h depth node (by omega) hnode

theorem Gives.map (h : read.Gives levels v x) (f : α → β) :
    Gives (fun depth node => (read depth node).map f) levels v (f x) := by
  intro depth node hdepth hnode
  dsimp only
  rw [h depth node hdepth hnode]
  rfl

/-! ### Scalars and options -/

theorem gives_bool (b : Bool) : bool.Gives 0 (.bool b) b := by
  rintro depth node - ⟨⟩
  rfl

theorem gives_int32 {n : Int} (hn : -2147483648 ≤ n ∧ n ≤ 2147483647) : int32.Gives 0 (.int n) n :=
  fun _ _ _ hnode => int32_holds hnode hn

theorem gives_float (x : Float) : float.Gives 0 (.float x) x := by
  rintro depth node - ⟨⟩
  rfl

theorem gives_text (s : String) : text.Gives 0 (.text s) s := fun _ _ _ hnode => text_holds hnode

theorem gives_path (s : String) : path.Gives 0 (.text s) s := by
  rintro depth node - ⟨⟩
  rfl

theorem gives_none : (optional read).Gives 0 .null none := by
  rintro depth node - ⟨⟩
  rfl

theorem Gives.optional (h : read.Gives levels v x) (hv : v ≠ .null) :
    (optional read).Gives levels v (some x) :=
  fun depth node hdepth hnode => optional_holds hnode hv (h depth node hdepth hnode)

theorem Refuses.optional (h : read.Refuses levels v cause) (hv : v ≠ .null) :
    (optional read).Refuses levels v cause := by
  intro depth node hdepth hnode
  obtain ⟨place, hread⟩ := h depth node hdepth hnode
  refine ⟨place, ?_⟩
  cases hnode
  case null => exact absurd rfl hv
  all_goals rw [Reading.optional, hread] <;> simp [Except.map]

/-! ### Lists -/

section list

variable {toJson : α → Value} {xs : List α}

theorem items_gives (h : ∀ x ∈ xs, read.Gives levels (toJson x) x) {depth : Nat}
    (hdepth : levels < depth) {items : List (After × Node)}
    (hitems : ItemsHold items (xs.map toJson)) : Reading.items read depth items = .ok xs := by
  induction xs generalizing items with
  | nil =>
    cases hitems
    rfl
  | cons x xs ih =>
    cases hitems with
    | cons hnode hitems =>
      rw [items, h x List.mem_cons_self depth _ hdepth hnode,
        ih (fun x hx => h x (List.mem_cons_of_mem _ hx)) hitems]
      rfl

theorem Gives.list (h : ∀ x ∈ xs, read.Gives levels (toJson x) x) :
    (list read).Gives (levels + 1) (.list (xs.map toJson)) xs := by
  rintro depth node hdepth ⟨⟩
  case list start stop items hitems =>
    have hread := items_gives h (show levels < depth - 1 by omega) hitems
    rw [Reading.list, Node.bare]
    · dsimp only
      rw [descend_eq_ok.mpr ⟨by omega, rfl⟩, ok_bind, hread]
      rfl
    · simp

/-- Reading stops at the first item that is refused. -/
theorem items_refuses
    (h : ∀ x ∈ xs, read.Gives levels (toJson x) x ∨ read.Refuses levels (toJson x) cause)
    (hrefused : ∃ x ∈ xs, read.Refuses levels (toJson x) cause) {depth : Nat}
    (hdepth : levels < depth) {items : List (After × Node)}
    (hitems : ItemsHold items (xs.map toJson)) :
    ∃ place, Reading.items read depth items = .error ⟨cause, place⟩ := by
  induction xs generalizing items with
  | nil => simp at hrefused
  | cons x xs ih =>
    cases hitems with
    | @cons after node _ items _ hnode hitems =>
      have hfirst : read.Refuses levels (toJson x) cause →
          ∃ place, Reading.items read depth ((after, node) :: items) = .error ⟨cause, place⟩ := by
        intro hx
        obtain ⟨known, hread⟩ := hx depth node hdepth hnode
        obtain ⟨place, hplace⟩ := locate_error α after.settled cause known
        refine ⟨place, ?_⟩
        rw [Reading.items, hread, hplace, error_bind]
      rcases h x List.mem_cons_self with hgives | hx
      · obtain ⟨y, hy, hrefused⟩ := hrefused
        rcases List.mem_cons.mp hy with rfl | hy
        · exact hfirst hrefused
        · obtain ⟨place, hplace⟩ :=
            ih (fun x hx => h x (List.mem_cons_of_mem _ hx)) ⟨y, hy, hrefused⟩ hitems
          refine ⟨place, ?_⟩
          rw [Reading.items, hgives depth node hdepth hnode, hplace]
          rfl
      · exact hfirst hx

theorem Refuses.list
    (h : ∀ x ∈ xs, read.Gives levels (toJson x) x ∨ read.Refuses levels (toJson x) cause)
    (hrefused : ∃ x ∈ xs, read.Refuses levels (toJson x) cause) :
    (list read).Refuses (levels + 1) (.list (xs.map toJson)) cause := by
  rintro depth node hdepth ⟨⟩
  case list start stop items hitems =>
    obtain ⟨place, hread⟩ := items_refuses h hrefused (show levels < depth - 1 by omega) hitems
    refine ⟨place, ?_⟩
    rw [Reading.list, Node.bare]
    · dsimp only
      rw [descend_eq_ok.mpr ⟨by omega, rfl⟩, ok_bind, hread, error_bind]
    · simp

end list

/-! ### Variants -/

section variants

variable {variants : List (Variant α)} {name : String}

theorem gives_bare (h : variants.find? (·.name == name) = some ⟨name, .nothing x⟩) :
    (variant variants).Gives levels (.text name) x := by
  rintro depth node - ⟨⟩
  rw [variant, Node.bare, untaggedVariant, findVariant, h]
  · rfl
  all_goals simp

theorem Gives.tagged {content : Content α}
    (hfind : variants.find? (·.name == name) = some ⟨name, content⟩)
    (h : Gives (fun depth node => content.held .withNull depth node) levels v x)
    (hlevels : levels < levels') : (variant variants).Gives levels' (.record [(name, v)]) x := by
  rintro depth node hdepth ⟨⟩
  case record start stop members hmembers =>
    rcases hmembers with _ | ⟨hkey, hnode, ⟨⟩⟩
    have hread := h (depth - 1) _ (by omega) hnode
    dsimp only at hread
    rw [variant, Node.bare, untaggedVariant, descend_eq_ok.mpr ⟨by omega, rfl⟩, ok_bind]
    · dsimp only
      rw [hkey.name, ok_bind, findVariant, hfind]
      dsimp only [ok_bind]
      rw [hread]
      rfl
    all_goals simp

theorem gives_named {values : List α} {name : α → String} (hnodup : (values.map name).Nodup)
    (hx : x ∈ values) : (named values name).Gives 0 (.text (name x)) x := by
  refine gives_bare ?_
  rw [List.find?_map, Function.comp_def, (find?_name_eq_some_iff hnodup).mpr ⟨hx, rfl⟩]
  rfl

end variants

end Reading

/-! ### Records -/

namespace Shape

variable {τ α : Type} {shape : Shape τ} {levels depth : Nat} {cause : Cause}

section slots

variable {name : String} {presence : Presence} {read : Reading α} {set : τ → α → τ}
  {set' : τ → Option α → τ} {slots : List (Slot τ)} {r : τ} {v : Value}

/-- A slot is filled by what its reading gives. -/
theorem Fills.of {x : α} {last : τ} {entries : List (Option (String × Value))}
    (hslot : shape.slot? name = some (Slot.of name presence read set))
    (hread : read.Gives levels v x) (hdepth : levels < depth)
    (h : Fills shape depth slots (set r x) entries last) :
    Fills shape depth (Slot.of name presence read set :: slots) r (some (name, v) :: entries)
      last := by
  refine .cons (some v) hslot ?_ (by simp) h
  rintro v ⟨⟩ node hnode
  exact Slot.of_fill (hread depth node hdepth hnode) rfl

/-- A slot for a value that may be missing is filled by what the reading of the value gives. -/
theorem Fills.option {toJson : α → Value} (o : Option α) {last : τ}
    {entries : List (Option (String × Value))}
    (hslot : shape.slot? name = some (Slot.of name presence (Reading.optional read) set'))
    (hread : ∀ x ∈ o, read.Gives levels (toJson x) x) (hvalue : ∀ x, toJson x ≠ .null)
    (hdepth : levels < depth) (hnone : o = none → set' r o = r)
    (h : Fills shape depth slots (set' r o) entries last) :
    Fills shape depth (Slot.of name presence (Reading.optional read) set' :: slots) r
      (optionalMember name (o.map toJson) :: entries) last := by
  refine .cons (o.map toJson) hslot ?_ (fun ho => hnone (Option.map_eq_none_iff.mp ho)) h
  intro v hv node hnode
  obtain ⟨x, rfl, rfl⟩ := Option.map_eq_some_iff.mp hv
  have hx := hread x rfl depth node hdepth hnode
  exact Slot.of_fill (Reading.optional_holds hnode (hvalue x) hx) rfl

/-- Members fill some slots one after the other, up to one that is refused. -/
inductive Fails (shape : Shape τ) (depth : Nat) (cause : Cause) :
    List (Slot τ) → τ → Fields → Prop
  | here {slot : Slot τ} {slots : List (Slot τ)} {r : τ} {v : Value} {fields : Fields}
      (hslot : shape.slot? slot.name = some slot)
      (hfill : ∀ node : Node, node.Holds v →
        ∃ place, slot.fill depth node r = .error ⟨cause, place⟩) :
      Fails shape depth cause (slot :: slots) r ((slot.name, v) :: fields)
  | later {slot : Slot τ} {slots : List (Slot τ)} {r next : τ} {v : Value} {fields : Fields}
      (hslot : shape.slot? slot.name = some slot)
      (hfill : ∀ node : Node, node.Holds v → slot.fill depth node r = .ok next)
      (h : Fails shape depth cause slots next fields) :
      Fails shape depth cause (slot :: slots) r ((slot.name, v) :: fields)

theorem Fails.of {fields : Fields}
    (hslot : shape.slot? name = some (Slot.of name presence read set))
    (hread : read.Refuses levels v cause) (hdepth : levels < depth) :
    Fails shape depth cause (Slot.of name presence read set :: slots) r ((name, v) :: fields) := by
  refine .here hslot fun node hnode => ?_
  obtain ⟨place, hplace⟩ := hread depth node hdepth hnode
  refine ⟨place, ?_⟩
  rw [Slot.of]
  dsimp only
  rw [hplace]
  rfl

theorem Fails.after {x : α} {fields : Fields}
    (hslot : shape.slot? name = some (Slot.of name presence read set))
    (hread : read.Gives levels v x) (hdepth : levels < depth)
    (h : Fails shape depth cause slots (set r x) fields) :
    Fails shape depth cause (Slot.of name presence read set :: slots) r ((name, v) :: fields) :=
  .later hslot (fun node hnode => Slot.of_fill (hread depth node hdepth hnode) rfl) h

end slots

/-- The members are taken up to the one that is refused. -/
theorem takeMembers_fails {slots : List (Slot τ)} {r : τ} {fields : Fields}
    (h : Fails shape depth cause slots r fields) (hnodup : (slots.map Slot.name).Nodup)
    (seen : List String) (hseen : ∀ slot ∈ slots, slot.name ∉ seen)
    {members : List (MemberKey × Node)} (hmembers : MembersHold members fields) :
    ∃ place, shape.takeMembers depth members (r, seen) = .error ⟨cause, place⟩ := by
  induction h generalizing seen members with
  | @here slot slots r v fields hslot hfill =>
    cases hmembers with
    | @cons key _ node _ members _ hkey hnode hmembers =>
      obtain ⟨known, hknown⟩ := hfill node hnode
      obtain ⟨place, hplace⟩ := locate_error τ key.valueSettled cause known
      have hunseen : seen.contains slot.name = false := by simpa using hseen slot List.mem_cons_self
      refine ⟨place, ?_⟩
      rw [takeMembers, step, hkey.name, ok_bind, hslot]
      dsimp only
      rw [hunseen, if_neg Bool.false_ne_true, hknown, hplace, error_bind, error_bind]
  | @later slot slots r next v fields hslot hfill h ih =>
    cases hmembers with
    | cons hkey hnode hmembers =>
      obtain ⟨place, hplace⟩ :=
        ih (List.nodup_cons.mp hnodup).2 _ (unseen_cons hnodup hseen) hmembers
      refine ⟨place, ?_⟩
      rw [takeMembers, step_slot hkey hslot (hseen slot List.mem_cons_self) (hfill _ hnode),
        ok_bind, hplace]

end Shape

namespace Reading

variable {τ : Type} {shape : Shape τ} {levels : Nat} {fields : Fields} {cause : Cause}

/-- A record is read from the members that were written for its slots; some may be left out. -/
theorem Gives.ofMembers {last : τ} {entries : List (Option (String × Value))}
    (hnodup : (shape.slots.map Slot.name).Nodup)
    (hpresence : ∀ slot ∈ shape.slots, slot.presence = .required →
      slot.name ∈ (entries.filterMap id).map Prod.fst)
    (h : ∀ depth, levels < depth → Shape.Fills shape depth shape.slots shape.blank entries last) :
    shape.read.Gives (levels + 1) (.ofMembers entries) last := by
  rintro depth node hdepth ⟨⟩
  case record start stop members hmembers =>
    have hread := Shape.ofMembers_fills (h (depth - 1) (by omega)) hnodup hpresence hmembers stop
    rw [Shape.read, Node.bare]
    · dsimp only
      rw [descend_eq_ok.mpr ⟨by omega, rfl⟩, ok_bind, hread]
    · simp

/-- A record is read from the members that were written for its slots. -/
theorem Gives.record {last : τ} (hnames : fields.map Prod.fst = shape.slots.map Slot.name)
    (hnodup : (shape.slots.map Slot.name).Nodup)
    (h : ∀ depth, levels < depth →
      Shape.Fills shape depth shape.slots shape.blank (fields.map some) last) :
    shape.read.Gives (levels + 1) (.record fields) last := by
  have hfields : (fields.map some).filterMap id = fields := by simp
  have hgives := Gives.ofMembers hnodup ?_ h
  · rwa [Value.ofMembers, hfields] at hgives
  · intro slot hslot _
    rw [hfields, hnames]
    exact List.mem_map_of_mem hslot

/-- A record whose base stands among its members is read from the members that were written for its
base, for itself, and for neither. -/
theorem Gives.flat {β : Type} {shape : FlatShape τ β} {frame : β} {record k : τ}
    {baseEntries ownEntries : List (Option (String × Value))} {others : Fields}
    (hbase : ∀ depth,
      Shape.Fills shape.base depth shape.base.slots shape.base.blank baseEntries frame)
    (hbaseNames : (shape.base.slots.map Slot.name).Nodup)
    (hpresence : ∀ slot ∈ shape.base.slots, slot.presence ≠ .required)
    (hown : ∀ depth, 0 < depth →
      Shape.Fills shape.own depth shape.own.slots shape.own.blank ownEntries record)
    (hownNames : (shape.own.slots.map Slot.name).Nodup)
    (hapart : ∀ m ∈ baseEntries.filterMap id, shape.own.slot? m.1 = none)
    (hothers : ∀ m ∈ others, shape.own.slot? m.1 = none ∧ shape.base.slot? m.1 = none)
    (hlevels : 0 < levels) (hkept : ∀ m ∈ baseEntries.filterMap id ++ others, m.2.Kept levels)
    (hassemble : ∀ held, MembersHold held others → shape.assemble frame held record = .ok k) :
    shape.read.Gives levels
      (.record ((baseEntries ++ ownEntries ++ others.map some).filterMap id)) k := by
  intro depth node hdepth hnode
  obtain ⟨held, place, hheld, hread⟩ := FlatShape.read_fills (hbase (depth - 1)) hbaseNames
    hpresence (hown (depth - 1) (by omega)) hownNames hapart hothers (by omega)
    (fun m hm => (hkept m hm).mono (by omega)) hnode
  rw [hread, hassemble held hheld]
  rfl

/-- A record is refused with its first member that is. -/
theorem Refuses.record (hnodup : (shape.slots.map Slot.name).Nodup)
    (h : ∀ depth, levels < depth → Shape.Fails shape depth cause shape.slots shape.blank fields) :
    shape.read.Refuses (levels + 1) (.record fields) cause := by
  rintro depth node hdepth ⟨⟩
  case record start stop members hmembers =>
    obtain ⟨place, hplace⟩ :=
      Shape.takeMembers_fails (h (depth - 1) (by omega)) hnodup [] (by simp) hmembers
    refine ⟨place, ?_⟩
    rw [Shape.read, Node.bare]
    · dsimp only
      rw [descend_eq_ok.mpr ⟨by omega, rfl⟩, ok_bind, Shape.ofMembers, hplace, error_bind]
    · simp

end Reading

end KeyLayout.Document
