/-
A definition does not depend on the layout of its text.

Every record of a definition ignores layout: its slots fill different parts of it, and a plugin
key puts the members that it keeps into an ascending list, whatever their order was.

A member that no slot answers to is not seen at all, except in a plugin key, which keeps it.
`Definition.declaredPart` drops all other members of a document, and those of chosen plugin keys
too; from what is left the same definition is read, in which the chosen keys keep nothing
(`Definition.read_follows_declaredPart`).
-/
import KeyLayout.Definition.Format
import KeyLayout.Proofs.Definition.Plugin
import KeyLayout.Proofs.Document.Agreement
import KeyLayout.Proofs.Document.Layout
import KeyLayout.Proofs.Document.Parts

namespace KeyLayout

open Document Json

/-! ### The order of members -/

theorem KeyFrame.slots_ignoreLayout : ∀ slot ∈ KeyFrame.shape.slots, slot.IgnoresLayout := by
  simp only [KeyFrame.shape, List.forall_mem_cons]
  refine ⟨?_, ?_, ?_, ?_, ?_, ?_, ?_, .alias ?_ _, by simp⟩
  iterate 4 exact Slot.of_ignoresLayout Reading.int32_ignoresLayout
  all_goals exact Slot.of_ignoresLayout Reading.text_ignoresLayout.optional

theorem KeyFrame.slots_commute : KeyFrame.shape.Commutes := by
  rw [Shape.Commutes, KeyFrame.shape]
  simp only [List.pairwise_cons, List.forall_mem_cons]
  and_intros
  all_goals try exact Slot.commutes_of_set (fun _ _ _ => rfl) (fun _ _ _ => rfl) fun _ _ _ => rfl
  all_goals simp

theorem ActionKey.read_ignoresLayout : ActionKey.shape.read.IgnoresLayout := by
  refine FlatShape.read_ignoresLayout ?_ KeyFrame.slots_ignoreLayout ?_ KeyFrame.slots_commute
    fun _ _ _ _ _ _ _ h => h
  · simp only [ActionKey.shape, List.forall_mem_singleton]
    exact Slot.of_ignoresLayout (Reading.named_ignoresLayout _ _).optional
  · exact List.pairwise_singleton _ _

theorem TextKey.read_ignoresLayout : TextKey.shape.read.IgnoresLayout := by
  refine FlatShape.read_ignoresLayout ?_ KeyFrame.slots_ignoreLayout ?_ KeyFrame.slots_commute
    fun _ _ _ _ _ _ _ h => h
  · simp only [TextKey.shape, List.forall_mem_singleton]
    exact Slot.of_ignoresLayout Reading.text_ignoresLayout.optional
  · exact List.pairwise_singleton _ _

theorem LinkKey.read_ignoresLayout : LinkKey.shape.read.IgnoresLayout := by
  refine FlatShape.read_ignoresLayout ?_ KeyFrame.slots_ignoreLayout ?_ KeyFrame.slots_commute
    fun _ _ _ _ _ _ _ h => h
  · simp only [LinkKey.shape, List.forall_mem_cons]
    refine ⟨.alias ?_ _, ?_, by simp⟩
    · exact Slot.of_ignoresLayout Reading.text_ignoresLayout.optional
    · exact Slot.of_ignoresLayout Reading.bool_ignoresLayout
  · refine List.pairwise_pair.mpr ?_
    exact Slot.commutes_of_set (fun _ _ _ => rfl) (fun _ _ _ => rfl) fun _ _ _ => rfl

/-- What a plugin key keeps is put in order, so it does not matter in which order it stood. -/
theorem PluginKey.assemblesAlike : PluginKey.shape.AssemblesAlike := by
  intro frame others others' k k' hothers hflaw h
  obtain ⟨extra, hextra, h⟩ := bind_eq_ok.mp h
  have htexts := hothers.asTexts
  refine bind_eq_ok.mpr ⟨extra, ?_, h⟩
  refine htexts.toFields Node.Kin.value (fun m hm => ?_) hextra
  obtain ⟨other, hother, rfl⟩ := List.mem_map.mp hm
  exact hflaw other hother

theorem PluginKey.read_ignoresLayout : PluginKey.shape.read.IgnoresLayout := by
  refine FlatShape.read_ignoresLayout ?_ KeyFrame.slots_ignoreLayout ?_ KeyFrame.slots_commute
    PluginKey.assemblesAlike
  · simp only [PluginKey.shape, List.forall_mem_cons]
    refine ⟨?_, ?_, by simp⟩ <;> exact Slot.of_ignoresLayout Reading.text_ignoresLayout.optional
  · refine List.pairwise_pair.mpr ?_
    exact Slot.commutes_of_set (fun _ _ _ => rfl) (fun _ _ _ => rfl) fun _ _ _ => rfl

theorem Dimensions.read_ignoresLayout : Dimensions.shape.read.IgnoresLayout := by
  refine Shape.read_ignoresLayout ?_ ?_
  · simp only [Dimensions.shape, List.forall_mem_cons]
    refine ⟨?_, ?_, by simp⟩ <;> exact Slot.of_ignoresLayout Reading.int32_ignoresLayout
  · refine List.pairwise_pair.mpr ?_
    exact Slot.commutes_of_set (fun _ _ _ => rfl) (fun _ _ _ => rfl) fun _ _ _ => rfl

theorem KeySet.read_ignoresLayout : KeySet.shape.read.IgnoresLayout := by
  refine Shape.read_ignoresLayout ?_ ?_
  · simp only [KeySet.shape, List.forall_mem_cons]
    refine ⟨?_, ?_, ?_, ?_, by simp⟩
    · exact Slot.of_ignoresLayout ActionKey.read_ignoresLayout.list
    · exact Slot.of_ignoresLayout TextKey.read_ignoresLayout.list
    · exact Slot.of_ignoresLayout LinkKey.read_ignoresLayout.list
    · exact Slot.of_ignoresLayout PluginKey.read_ignoresLayout.list
  · rw [Shape.Commutes, KeySet.shape]
    simp only [List.pairwise_cons, List.forall_mem_cons]
    and_intros
    all_goals try exact Slot.commutes_of_set (fun _ _ _ => rfl) (fun _ _ _ => rfl) fun _ _ _ => rfl
    all_goals simp

theorem Definition.read_ignoresLayout : Definition.shape.read.IgnoresLayout := by
  refine Shape.read_ignoresLayout ?_ ?_
  · simp only [Definition.shape, List.forall_mem_cons]
    refine ⟨?_, ?_, ?_, ?_, ?_, ?_, by simp⟩
    · exact Slot.of_ignoresLayout Dimensions.read_ignoresLayout.optional
    · exact Slot.of_ignoresLayout Reading.bool_ignoresLayout
    · exact Slot.of_ignoresLayout Reading.bool_ignoresLayout
    · exact Slot.of_ignoresLayout Reading.thickness_ignoresLayout.optional
    · exact Slot.of_ignoresLayout Reading.thickness_ignoresLayout.optional
    · exact Slot.of_ignoresLayout KeySet.read_ignoresLayout.optional
  · rw [Shape.Commutes, Definition.shape]
    simp only [List.pairwise_cons, List.forall_mem_cons]
    and_intros
    all_goals try exact Slot.commutes_of_set (fun _ _ _ => rfl) (fun _ _ _ => rfl) fun _ _ _ => rfl
    all_goals simp

/-! ### Members that are not declared -/

/-- A key set without what the chosen plugin keys keep. -/
def KeySet.withoutExtra (chosen : Nat → Bool) (keys : KeySet) : KeySet :=
  { keys with
    plugin := keys.plugin.mapIdx fun index k => if chosen index then { k with extra := [] } else k }

def Definition.withoutExtra (chosen : Nat → Bool) (d : Definition) : Definition :=
  { d with keys := d.keys.map (KeySet.withoutExtra chosen) }

theorem Definition.withoutExtra_none (d : Definition) : d.withoutExtra (fun _ => false) = d := by
  have hsame (keys : List PluginKey) : keys.mapIdx (fun _ k => k) = keys :=
    List.ext_getElem (by simp) (by simp)
  obtain ⟨dimensions, flags, _ | keys⟩ := d
  · rfl
  · simp [Definition.withoutExtra, KeySet.withoutExtra, hsame]

/-- The part of a key set that is declared: undeclared members are dropped, those of a plugin key
only if it is chosen. -/
def KeySet.declaredPart (chosen : Nat → Bool) (node : Node) : Node :=
  KeySet.shape.mapParts (fun name =>
    match name with
    | "ActionKeys" => Node.mapEach fun _ => Node.keep ActionKey.shape.declares
    | "TextKeys" => Node.mapEach fun _ => Node.keep TextKey.shape.declares
    | "ChangeKeyboardKeys" => Node.mapEach fun _ => Node.keep LinkKey.shape.declares
    | "PluginKeys" => Node.mapEach fun index =>
      if chosen index then Node.keep PluginKey.shape.declares else id
    | _ => id) (node.keep KeySet.shape.declares)

/-- The part of a definition that is declared. -/
def Definition.declaredPart (chosen : Nat → Bool) (node : Node) : Node :=
  Definition.shape.mapParts (fun name =>
    match name with
    | "Grid" => Node.keep Dimensions.shape.declares
    | "Keys" => KeySet.declaredPart chosen
    | _ => id) (node.keep Definition.shape.declares)

variable (chosen : Nat → Bool)

theorem ActionKey.read_follows_keep :
    ActionKey.shape.read.Follows (Node.keep ActionKey.shape.declares) id :=
  FlatShape.read_follows_keep fun _ _ _ _ h => h

theorem TextKey.read_follows_keep :
    TextKey.shape.read.Follows (Node.keep TextKey.shape.declares) id :=
  FlatShape.read_follows_keep fun _ _ _ _ h => h

theorem LinkKey.read_follows_keep :
    LinkKey.shape.read.Follows (Node.keep LinkKey.shape.declares) id :=
  FlatShape.read_follows_keep fun _ _ _ _ h => h

/-- Without its undeclared members a plugin key keeps nothing. -/
theorem PluginKey.read_follows_keep :
    PluginKey.shape.read.Follows (Node.keep PluginKey.shape.declares)
      fun k => { k with extra := [] } := by
  refine FlatShape.read_follows_keep fun frame others k k' h => ?_
  obtain ⟨extra, -, h⟩ := bind_eq_ok.mp h
  obtain rfl := pure_eq_ok.mp h
  rfl

theorem KeySet.read_follows_declaredPart :
    KeySet.shape.read.Follows (KeySet.declaredPart chosen) (KeySet.withoutExtra chosen) := by
  intro depth node keys h
  refine Shape.read_follows_mapParts (e := KeySet.withoutExtra chosen) ?_ rfl
    (Shape.read_follows_keep h)
  simp only [KeySet.shape, List.forall_mem_cons]
  refine ⟨?_, ?_, ?_, ?_, by simp⟩
  · exact Slot.of_follows (.list_same ActionKey.read_follows_keep) fun _ _ => rfl
  · exact Slot.of_follows (.list_same TextKey.read_follows_keep) fun _ _ => rfl
  · exact Slot.of_follows (.list_same LinkKey.read_follows_keep) fun _ _ => rfl
  · refine Slot.of_follows (.list fun index => ?_) fun _ _ => rfl
    cases chosen index with
    | false => exact .refl _
    | true => exact PluginKey.read_follows_keep

/-- **Undeclared members are not seen**, except by the plugin keys that keep them. -/
theorem Definition.read_follows_declaredPart :
    Definition.shape.read.Follows (Definition.declaredPart chosen)
      (Definition.withoutExtra chosen) := by
  intro depth node d h
  refine Shape.read_follows_mapParts (e := Definition.withoutExtra chosen) ?_ rfl
    (Shape.read_follows_keep h)
  have hsame {α : Type} (read : Reading α) : read.Follows id id := .refl read
  simp only [Definition.shape, List.forall_mem_cons]
  refine ⟨?_, ?_, ?_, ?_, ?_, ?_, by simp⟩
  · refine Slot.of_follows (Reading.Follows.optional Shape.read_follows_keep
      Node.keepsPlain_mapMembers) fun d size => ?_
    rw [Option.map_id]
    rfl
  · exact Slot.of_follows (hsame _) fun _ _ => rfl
  · exact Slot.of_follows (hsame _) fun _ _ => rfl
  · exact Slot.of_follows (hsame _) fun _ _ => rfl
  · exact Slot.of_follows (hsame _) fun _ _ => rfl
  · have hplain : Node.KeepsPlain (KeySet.declaredPart chosen) :=
      (Shape.keepsPlain_mapParts _ _).comp Node.keepsPlain_mapMembers
    exact Slot.of_follows ((KeySet.read_follows_declaredPart chosen).optional hplain) fun _ _ => rfl

/-! ### Texts -/

/-- **A definition does not depend on the layout of its text.**  Of two texts that differ in
nothing but the order of members, both are a definition or none is, and it is the same one.  Two
texts that are definitions and differ in undeclared members besides give the same definition, up to
what those plugin keys keep among whose members they differ. -/
theorem DefinitionFormat.read_layout (text text' : String) :
    ((Json.document text).Alike (Json.document text') →
      ∀ d, DefinitionFormat.json.read text = .ok d ↔ DefinitionFormat.json.read text' = .ok d) ∧
    ∀ d d', DefinitionFormat.json.read text = .ok d → DefinitionFormat.json.read text' = .ok d' →
      ((Definition.declaredPart (fun _ => false) (Json.document text).root).Alike
        (Definition.declaredPart (fun _ => false) (Json.document text').root) → d = d') ∧
      ∀ chosen : Nat → Bool,
        (Definition.declaredPart chosen (Json.document text).root).Alike
          (Definition.declaredPart chosen (Json.document text').root) →
        d.withoutExtra chosen = d'.withoutExtra chosen := by
  have hdeclared (chosen : Nat → Bool) (d d' : Definition)
      (hd : DefinitionFormat.json.read text = .ok d)
      (hd' : DefinitionFormat.json.read text' = .ok d')
      (halike : (Definition.declaredPart chosen (Json.document text).root).Alike
        (Definition.declaredPart chosen (Json.document text').root)) :
      d.withoutExtra chosen = d'.withoutExtra chosen := by
    have hpart := Definition.read_follows_declaredPart chosen (Whole.read_eq_ok.mp hd).1
    have hpart' := Definition.read_follows_declaredPart chosen (Whole.read_eq_ok.mp hd').1
    have hsame := Definition.read_ignoresLayout halike hpart
    rw [hpart'] at hsame
    exact (Except.ok.inj hsame).symm
  refine ⟨fun halike d => halike.read Definition.read_ignoresLayout, fun d d' hd hd' => ⟨?_, ?_⟩⟩
  · intro halike
    have hsame := hdeclared (fun _ => false) d d' hd hd' halike
    rwa [Definition.withoutExtra_none, Definition.withoutExtra_none] at hsame
  · intro chosen halike
    exact hdeclared chosen d d' hd hd' halike

/-- A text with a plugin key, and three others: with the members in another order, with an
undeclared member in the root, and with another member for the plugin. -/
theorem DefinitionFormat.read_layout_plugin_key :
    let text :=
      "\x7b\"Grid\":\x7b\x7d,\"Keys\":\x7b\"PluginKeys\":[\x7b\"col\":1,\"a\":2\x7d]\x7d\x7d"
    let reordered :=
      "\x7b\"Keys\":\x7b\"PluginKeys\":[\x7b\"a\":2,\"col\":1\x7d]\x7d,\"Grid\":\x7b\x7d\x7d"
    let noted := "\x7b\"grid\":0," ++
      "\"Grid\":\x7b\x7d,\"Keys\":\x7b\"PluginKeys\":[\x7b\"col\":1,\"a\":2\x7d]\x7d\x7d"
    let extended :=
      "\x7b\"Grid\":\x7b\x7d,\"Keys\":\x7b\"PluginKeys\":[\x7b\"col\":1,\"b\":[]\x7d]\x7d\x7d"
    let d (extra : Fields) : Definition :=
      ⟨some ⟨0, 0⟩, ⟨false, false, none, none⟩,
        some ⟨[], [], [], [⟨{ KeyFrame.blank with col := 1 }, none, none, extra⟩]⟩⟩
    DefinitionFormat.json.read text = .ok (d [("a", .int 2)]) ∧
      DefinitionFormat.json.read reordered = .ok (d [("a", .int 2)]) ∧
      (∃ d', DefinitionFormat.json.read noted = .ok d' ∧ d [("a", .int 2)] = d') ∧
      ∃ d', DefinitionFormat.json.read extended = .ok d' ∧
        (d [("a", .int 2)]).withoutExtra (fun _ => true) = d'.withoutExtra fun _ => true := by
  intro text reordered noted extended d
  have hread : DefinitionFormat.json.read text = .ok (d [("a", .int 2)]) := by decide +kernel
  have hnoted : DefinitionFormat.json.read noted = .ok (d [("a", .int 2)]) := by decide +kernel
  have hextended : DefinitionFormat.json.read extended = .ok (d [("b", .list [])]) := by
    decide +kernel
  have halike : (Json.document text).Alike (Json.document reordered) :=
    ⟨Node.alike_of_agrees (by decide +kernel), by decide +kernel⟩
  refine ⟨hread, ((DefinitionFormat.read_layout text reordered).1 halike _).mp hread,
    ⟨_, hnoted, ?_⟩, _, hextended, ?_⟩
  · refine ((DefinitionFormat.read_layout text noted).2 _ _ hread hnoted).1 ?_
    exact Node.alike_of_agrees (by decide +kernel)
  · refine ((DefinitionFormat.read_layout text extended).2 _ _ hread hextended).2 (fun _ => true) ?_
    exact Node.alike_of_agrees (by decide +kernel)

end KeyLayout
