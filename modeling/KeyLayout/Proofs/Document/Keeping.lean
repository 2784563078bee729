/-
What a reader can get out of a node.

A reader that holds a node back and turns it into a value later gets a value that opens no
more levels than the reader may, whatever the node is (`Node.Tame.detach`).  All that is
asked of the node is that its integers have sixty-four bits.  For records this is a fact
about every member that is taken over (`membersToFields_forall`), together with the order
in which the members stand (`membersToFields_ascending`).
-/
import KeyLayout.Proofs.Document.Holding

namespace KeyLayout.Document

open KeyLayout.Json (Value Fields)
open KeyLayout.Decimal (fitsBits)

/-- All integers of a node have sixty-four bits. -/
inductive Node.Tame : Node → Prop
  | scalar {value : Scalar} {raw : Option String} {span : Option Span}
      (h : ∀ n, value = .int n → fitsBits 64 n = true) : Node.Tame (.scalar value raw span)
  | broken {b : Broken} : Node.Tame (.broken b)
  | list {start : Option Offset} {items : List (After × Node)} {close : Close} {asRecord : Bool}
      (h : ∀ item ∈ items, Node.Tame item.2) : Node.Tame (.list start items close asRecord)
  | record {start : Option Offset} {members : List (MemberKey × Node)} {close : Close}
      {form : VariantForm} (h : ∀ m ∈ members, Node.Tame m.2) :
      Node.Tame (.record start members close form)
  | tagged {variant : Option String} {node held : Node} (hnode : node.Tame) (hheld : held.Tame) :
      Node.Tame (.tagged variant node held)

/-- Every value that the node stands for opens fewer than `depth` levels. -/
def Node.Keeps (depth : Nat) (node : Node) : Prop := ∀ v, node.toValue = .ok v → v.Kept depth

theorem Node.Tame.bare {node : Node} (h : node.Tame) : node.bare.Tame := by
  cases h with
  | tagged hnode _ => exact hnode
  | scalar h => exact .scalar h
  | broken => exact .broken
  | list h => exact .list h
  | record h => exact .record h

section Members

variable {members : List (MemberKey × Node)} {before fields : Fields}

theorem membersToFields_cons {key : MemberKey} {node : Node}
    (h : membersToFields ((key, node) :: members) before = .ok fields) :
    ∃ v, node.toValue = .ok v ∧
      membersToFields members (before.insert key.text v) = .ok fields := by
  rw [membersToFields] at h
  split at h
  · simp [throw, throwThe, MonadExceptOf.throw, bind, Except.bind] at h
  · exact bind_eq_ok.mp h

/-- What holds of every member that is taken over holds of the result. -/
theorem membersToFields_forall {P : String × Value → Prop} (hbefore : ∀ m ∈ before, P m)
    (hmembers : ∀ m ∈ members, ∀ v, m.2.toValue = .ok v → P (m.1.text, v))
    (h : membersToFields members before = .ok fields) : ∀ m ∈ fields, P m := by
  induction members generalizing before with
  | nil =>
    rw [membersToFields, Except.ok.injEq] at h
    exact h ▸ hbefore
  | cons m members ih =>
    obtain ⟨key, node⟩ := m
    obtain ⟨v, hv, h⟩ := membersToFields_cons h
    refine ih (fun m hm => ?_) (fun m hm => hmembers m (List.mem_cons_of_mem _ hm)) h
    rcases Fields.mem_insert hm with rfl | hm
    · exact hmembers _ List.mem_cons_self v hv
    · exact hbefore m hm

theorem membersToFields_ascending (hbefore : before.Ascending)
    (h : membersToFields members before = .ok fields) : fields.Ascending := by
  induction members generalizing before with
  | nil =>
    rw [membersToFields, Except.ok.injEq] at h
    exact h ▸ hbefore
  | cons m members ih =>
    obtain ⟨key, node⟩ := m
    obtain ⟨v, _, h⟩ := membersToFields_cons h
    exact ih hbefore.insert h

end Members

section Detach

variable {depth : Nat}

theorem detachItems_keeps {items items' : List (After × Node)} {vs : List Value}
    (hitems : ∀ item ∈ items, ∀ node, item.2.detach depth = .ok node → node.Keeps depth)
    (h : detachItems depth items = .ok items') (hvs : itemsToValues items' = .ok vs) :
    ∀ v ∈ vs, v.Kept depth := by
  induction items generalizing items' vs with
  | nil =>
    rw [detachItems, Except.ok.injEq] at h
    subst h
    rw [itemsToValues, Except.ok.injEq] at hvs
    simp [← hvs]
  | cons item items ih =>
    obtain ⟨after, node⟩ := item
    obtain ⟨node', hnode, h⟩ := bind_eq_ok.mp (detachItems.eq_2 .. ▸ h)
    obtain ⟨rest, hrest, h⟩ := bind_eq_ok.mp h
    obtain rfl := pure_eq_ok.mp h
    obtain ⟨v, hv, hvs⟩ := bind_eq_ok.mp (itemsToValues.eq_2 .. ▸ hvs)
    obtain ⟨vs', hvs', hvs⟩ := bind_eq_ok.mp hvs
    obtain rfl := pure_eq_ok.mp hvs
    rintro w (_ | ⟨_, hw⟩)
    · exact hitems _ List.mem_cons_self node' hnode _ hv
    · exact ih (fun item hitem => hitems item (List.mem_cons_of_mem _ hitem)) hrest hvs' w hw

theorem detachMembers_keeps {members members' : List (MemberKey × Node)}
    (hmembers : ∀ m ∈ members, ∀ node, m.2.detach depth = .ok node → node.Keeps depth)
    (h : detachMembers depth members = .ok members') : ∀ m ∈ members', m.2.Keeps depth := by
  induction members generalizing members' with
  | nil =>
    rw [detachMembers, Except.ok.injEq] at h
    simp [← h]
  | cons m members ih =>
    obtain ⟨key, node⟩ := m
    obtain ⟨_, _, h⟩ := bind_eq_ok.mp (detachMembers.eq_2 .. ▸ h)
    obtain ⟨node', hnode, h⟩ := bind_eq_ok.mp h
    obtain ⟨rest, hrest, h⟩ := bind_eq_ok.mp h
    obtain rfl := pure_eq_ok.mp h
    rintro m (_ | ⟨_, hm⟩)
    · exact hmembers _ List.mem_cons_self node' hnode
    · exact ih (fun m hm => hmembers m (List.mem_cons_of_mem _ hm)) hrest m hm

/-- What is held back stands for values that open few enough levels. -/
theorem Node.Tame.detach {node node' : Node} (htame : node.Tame)
    (h : node.detach depth = .ok node') : node'.Keeps depth := by
  induction htame generalizing depth node' with
  | @scalar value raw span hint =>
    rw [Node.detach, Except.ok.injEq] at h
    subst h
    rintro v hv
    rw [Node.toValue, Except.ok.injEq] at hv
    subst hv
    -- a number that is not finite becomes null
    rcases value with _ | b | n | x | s
    · exact .null
    · exact .bool b
    · exact .int (hint n rfl)
    · rw [Scalar.toValue]
      split
      · exact .float ‹_›
      · exact .null
    · exact .text s
  | broken => simp [Node.detach] at h
  | list _ ih =>
    rw [Node.detach] at h
    obtain ⟨depth', hdepth, h⟩ := bind_eq_ok.mp h
    obtain ⟨hlt, rfl⟩ := descend_eq_ok.mp hdepth
    obtain ⟨items', hitems, h⟩ := bind_eq_ok.mp h
    obtain ⟨_, _, h⟩ := bind_eq_ok.mp h
    obtain rfl := pure_eq_ok.mp h
    intro v hv
    rw [Node.toValue] at hv
    obtain ⟨vs, hvs, hv⟩ := bind_eq_ok.mp hv
    obtain rfl := pure_eq_ok.mp hv
    exact .list hlt (detachItems_keeps (fun item hitem node => ih item hitem) hitems hvs)
  | record _ ih =>
    rw [Node.detach] at h
    obtain ⟨depth', hdepth, h⟩ := bind_eq_ok.mp h
    obtain ⟨hlt, rfl⟩ := descend_eq_ok.mp hdepth
    obtain ⟨members', hmembers, h⟩ := bind_eq_ok.mp h
    obtain ⟨_, _, h⟩ := bind_eq_ok.mp h
    obtain rfl := pure_eq_ok.mp h
    intro v hv
    rw [Node.toValue] at hv
    obtain ⟨fields, hfields, hv⟩ := bind_eq_ok.mp hv
    obtain rfl := pure_eq_ok.mp hv
    have hkeeps := detachMembers_keeps (fun m hm node => ih m hm) hmembers
    exact .record hlt (membersToFields_ascending List.Pairwise.nil hfields)
      (membersToFields_forall (by simp) (fun m hm => hkeeps m hm) hfields)
  | tagged _ _ _ ih => exact ih (by simpa [Node.detach] using h)

end Detach

end KeyLayout.Document
