/-
Finding out whether two nodes are alike.

`Node.agrees` runs through both nodes at once and looks up the counterpart of every member by
its name.  Whenever it answers yes, the nodes are alike (`Node.alike_of_agrees`), so for texts
that are given it can be computed that they differ in layout only.
-/
import KeyLayout.Proofs.Document.Alike

namespace KeyLayout.Document

mutual

/-- Whether two nodes differ at most in their places and in the order of members. -/
def Node.agrees : Node → Node → Bool
  | .scalar value none _, .scalar value' none _ => value == value'
  | .broken b, .broken b' => b.startsNull == b'.startsNull && b.skip.isNone && b'.skip.isNone
  | .list _ items (.closed _) true, .list _ items' (.closed _) true => itemsAgree items items'
  | .record _ members (.closed _) .withNull, .record _ members' (.closed _) .withNull =>
    membersAgree members members'
  | _, _ => false

/-- Whether the items of two lists agree one by one. -/
def itemsAgree : List Item → List Item → Bool
  | [], [] => true
  | (after, node) :: items, (after', node') :: items' =>
    after.notLast.isNone == after'.notLast.isNone && node.agrees node' && itemsAgree items items'
  | _, _ => false

/-- Whether every member agrees with the first one on the other side that has its name and is not
taken yet. -/
def membersAgree : List Member → List Member → Bool
  | [], members' => members'.isEmpty
  | (key, node) :: members, members' =>
    match members'.find? fun m => m.1.text == key.text with
    | none => false
    | some (key', node') =>
      key.isText == key'.isText && key.flaw.isNone == key'.flaw.isNone && node.agrees node' &&
        membersAgree members (members'.eraseP fun m => m.1.text == key.text)

end

/-- The first member of a name can be put in front of all others. -/
theorem Shuffled.of_find? {members : List Member} {name : String} {m : Member}
    (h : members.find? (fun m => m.1.text == name) = some m) :
    Shuffled (m :: members.eraseP fun m => m.1.text == name) members := by
  induction members with
  | nil => cases h
  | cons a members ih =>
    have hm : m.1.text = name := by simpa using List.find?_some h
    by_cases ha : a.1.text = name
    · rw [List.find?_cons_of_pos (by simpa using ha), Option.some.injEq] at h
      rw [List.eraseP_cons_of_pos (by simpa using ha), h]
      exact .refl _
    · rw [List.find?_cons_of_neg (by simpa using ha)] at h
      rw [List.eraseP_cons_of_neg (by simpa using ha)]
      have hapart : m.1.Apart a.1 := fun _ _ heq => ha (heq ▸ hm)
      exact .trans (.swap hapart _) (.cons a (ih h))

theorem MembersAlike.cons {R : Node → Node → Prop} {m m' : Member}
    {members members' all : List Member} (hkey : m.1.Alike m'.1) (hnode : R m.2 m'.2) (h : MembersAlike R members members')
    (hall : Shuffled (m' :: members') all) : MembersAlike R (m :: members) all := by
  obtain ⟨ordered, hshuffled, hordered⟩ := h
  have hcons : List.Forall₂ (fun a b => a.1.Alike b.1 ∧ R a.2 b.2) (m :: ordered)
      (m' :: members') := .cons ⟨hkey, hnode⟩ hordered
  exact .of_shuffled (.cons m hshuffled) hcons hall

theorem isNone_beq {α β : Type} {o : Option α} {o' : Option β} :
    (o.isNone == o'.isNone) = true ↔ (o = none ↔ o' = none) := by
  cases o <;> cases o' <;> simp

theorem agrees_sound :
    (∀ node node' : Node, node.agrees node' = true → node.Alike node') ∧
      (∀ members members' : List Member, membersAgree members members' = true →
        MembersAlike Node.Alike members members') ∧
      ∀ items items' : List Item, itemsAgree items items' = true →
        ItemsAlike Node.Alike items items' := by
  -- along the run of the check
  refine Node.agrees.mutual_induct _ _ _ ?scalar ?broken ?list ?record ?other ?noItem ?item
    ?otherItems ?noMember ?missing ?member
  case scalar =>
    intro value span value' span' h
    rw [Node.agrees, beq_iff_eq] at h
    exact h ▸ .scalar value span span'
  case broken =>
    intro b b' h
    simp only [Node.agrees, Bool.and_eq_true, beq_iff_eq, Option.isNone_iff_eq_none] at h
    exact .skipped h.1.1 h.1.2 h.2
  case list =>
    intro start items stop start' items' stop' ih h
    exact .of_items (ih h)
  case record =>
    intro start members stop start' members' stop' ih h
    exact .of_members (ih h)
  case other =>
    intro node node' hscalar hbroken hlist hrecord h
    rw [Node.agrees] at h
    · cases h
    all_goals assumption
  case noItem => exact fun _ => .nil
  case item =>
    intro after node items after' node' items' ihnode ihitems h
    simp only [itemsAgree, Bool.and_eq_true] at h
    exact .cons ⟨isNone_beq.mp h.1.1, ihnode h.1.2⟩ (ihitems h.2)
  case otherItems =>
    intro items items' hnil hcons h
    rw [itemsAgree] at h
    · cases h
    all_goals assumption
  case noMember =>
    intro members' h
    rw [membersAgree, List.isEmpty_iff] at h
    subst h
    exact ⟨[], .nil, .nil⟩
  case missing =>
    intro key node members members' hfind h
    rw [membersAgree, hfind] at h
    cases h
  case member =>
    intro key node members members' key' node' hfind ihnode ihmembers h
    rw [membersAgree, hfind] at h
    simp only [Bool.and_eq_true, beq_iff_eq] at h
    obtain ⟨⟨⟨hisText, hflaw⟩, hnode⟩, hrest⟩ := h
    have htext : key'.text = key.text := by simpa using List.find?_some hfind
    have hkey : key.Alike key' := ⟨htext.symm, hisText, isNone_beq.mp (beq_iff_eq.mpr hflaw)⟩
    exact (ihmembers hrest).cons hkey (ihnode hnode) (.of_find? hfind)

/-- **Nodes that agree are alike.** -/
theorem Node.alike_of_agrees {node node' : Node} (h : node.agrees node' = true) :
    node.Alike node' := agrees_sound.1 node node' h

end KeyLayout.Document
