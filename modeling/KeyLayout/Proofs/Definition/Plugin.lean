/-
Plugin keys and the snippets that plugins are called with.

A plugin key that is read from a document is `Sound`: none of the members that it keeps for
the plugin has a name that the key itself knows, in any of its spellings, and their values
are such that they can be written and read again.  The snippet of a sound key is read as that
very key (`PluginKey.ofSnippet_snippet`).  What is asked besides concerns only the
floating-point numbers among the members that are kept.
-/
import KeyLayout.Definition.Format
import KeyLayout.Proofs.Definition.Frame
import KeyLayout.Proofs.Json.Reader

namespace KeyLayout

open Document Json

deriving instance DecidableEq for PluginKey, KeySet, Definition

namespace PluginKey

/-- The names of members that a plugin key does not keep for the plugin, in every spelling. -/
def declaredNames : List String :=
  shape.own.slots.flatMap Slot.names ++ shape.base.slots.flatMap Slot.names

example : declaredNames = ["pluginName", "methodName", "row", "col", "width", "height", "label",
    "shiftUpLabel", "shiftDownLabel", "symbol", "symbolName"] := rfl

theorem not_declared {name : String} :
    name ∉ declaredNames ↔ shape.own.slot? name = none ∧ shape.base.slot? name = none := by
  rw [declaredNames, List.mem_append, not_or, Shape.slot?_eq_none, Shape.slot?_eq_none]

/-- What holds of every plugin key that is read from a document. -/
structure Sound (k : PluginKey) : Prop where
  frame : k.frame.Fits
  names : ∀ m ∈ k.extra, m.1 ∉ declaredNames
  ascending : Fields.Ascending k.extra
  kept : ∀ m ∈ k.extra, m.2.Kept (depthLimit - 1)

/-- What a plugin key keeps was held back by it and then not taken by its frame. -/
theorem read_extra {depth : Nat} {node : Node} {k : PluginKey} (hnode : node.Tame)
    (h : shape.read depth node = .ok k) :
    Fields.Ascending k.extra ∧ ∀ m ∈ k.extra, m.1 ∉ declaredNames ∧ m.2.Kept (depth - 1) := by
  obtain ⟨record, held, frame, hheld, -, h⟩ := FlatShape.read_cases hnode h
  obtain ⟨extra, hextra, h⟩ := bind_eq_ok.mp h
  obtain rfl := pure_eq_ok.mp h
  refine ⟨membersToFields_ascending List.Pairwise.nil hextra, ?_⟩
  refine membersToFields_forall (by simp) (fun m hm v hv => ?_) hextra
  obtain ⟨⟨key, other⟩, hother, rfl⟩ := List.mem_map.mp hm
  obtain ⟨hmem, hbase⟩ := List.mem_filter.mp hother
  obtain ⟨hown, hkeeps⟩ := hheld _ hmem
  exact ⟨not_declared.mpr ⟨hown, by simpa using hbase⟩, hkeeps v hv⟩

/-- Every plugin key that is read is sound. -/
theorem read_sound : shape.read.Ensures Node.Tame depthLimit Sound := by
  intro depth node k hdepth hnode h
  obtain ⟨hascending, hextra⟩ := read_extra hnode h
  obtain ⟨record, held, frame, -, hframe, h⟩ := FlatShape.read_cases hnode h
  obtain ⟨extra, -, h⟩ := bind_eq_ok.mp h
  obtain rfl := pure_eq_ok.mp h
  have hfits := Shape.ofMembers_preserves (KeyFrame.slots_preserve (fun _ => True) depthLimit)
    KeyFrame.fits_blank (by omega) (by simp) hframe
  exact ⟨hfits, fun m hm => (hextra m hm).1, hascending,
    fun m hm => (hextra m hm).2.mono (by omega)⟩

variable {k : PluginKey}

/-- The members that a plugin key has besides its frame and what it keeps. -/
def ownMembers (k : PluginKey) : List (Option (String × Value)) :=
  [optionalMember "pluginName" (k.plugin.map .text),
    optionalMember "methodName" (k.method.map .text)]

theorem toJson_eq (k : PluginKey) :
    k.toJson = .record ((k.frame.members ++ k.ownMembers ++ k.extra.map some).filterMap id) := rfl

/-- The names that are written fill the slots of the key itself. -/
theorem own_fills (k : PluginKey) (depth : Nat) :
    Shape.Fills shape.own depth shape.own.slots shape.own.blank k.ownMembers
      ⟨.blank, k.plugin, k.method, []⟩ := by
  refine .text k.plugin ⟨.blank, k.plugin, none, []⟩ rfl (fun _ _ h => Slot.of_fill h rfl)
    (by rintro h; rw [h]; rfl) ?_
  exact .text k.method _ rfl (fun _ _ h => Slot.of_fill h rfl) (by rintro h; rw [h]) .nil

/-- What is kept for the plugin is taken over from the members that are left. -/
theorem assemble_holds (hk : k.Sound) {frame : KeyFrame} {held : List (MemberKey × Node)}
    (hheld : MembersHold held k.extra) (record : PluginKey) :
    shape.assemble frame held record = .ok { record with frame := frame, extra := k.extra } := by
  have hvalue : ∀ m ∈ k.extra, ∀ node : Node, node.Holds m.2 → node.toValue = .ok m.2 :=
    fun m hm _ hnode => hnode.toValue (hk.kept m hm)
  have hextra := hheld.asTexts.toFields [] hk.ascending hvalue
  rw [shape]
  dsimp only
  rw [hextra]
  rfl

/-- The written form of a sound key can be read. -/
theorem toJson_readable (hk : k.Sound)
    (hfloats : ∀ m ∈ k.extra, ∀ x, Value.Contains (.float x) m.2 → ReadsBack x) :
    k.toJson.Readable := by
  rw [toJson, List.append_assoc]
  refine KeyFrame.readable_key hk.frame fun o ho => ?_
  rcases List.mem_append.mp ho with hown | hextra
  · rcases List.mem_pair.mp hown with rfl | rfl
    · exact KeyFrame.optionalText_readable "pluginName" k.plugin
    · exact KeyFrame.optionalText_readable "methodName" k.method
  · obtain ⟨m, hm, rfl⟩ := List.mem_map.mp hextra
    rintro _ ⟨⟩
    exact (hk.kept m hm).readable (hfloats m hm)

/-- A sound key is read from its written form, if what it keeps opens few enough levels. -/
theorem gives (hk : k.Sound) {levels : Nat} (hlevels : 0 < levels)
    (hkept : ∀ m ∈ k.extra, m.2.Kept levels) : shape.read.Gives levels k.toJson k := by
  rw [toJson_eq]
  exact KeyFrame.gives_key rfl hk.frame hlevels (fun depth _ => own_fills k depth) (by decide)
    (by decide) (fun m hm => not_declared.mp (hk.names m hm)) hkept
    fun held hheld => assemble_holds hk hheld _

/-- A snippet is read as the key that it was made from. -/
theorem ofSnippet_snippet (hk : k.Sound)
    (hfloats : ∀ m ∈ k.extra, ∀ x, Value.Contains (.float x) m.2 → ReadsBack x) :
    ofSnippet k.snippet = .ok k := by
  obtain ⟨node, hholds, hread⟩ := read_pretty (toJson_readable hk hfloats)
  rw [ofSnippet, snippet, hread]
  exact gives hk (by decide) hk.kept depthLimit node (by decide) hholds

end PluginKey

/-- Every plugin key of the category that is read is sound. -/
theorem KeySet.read_sound :
    KeySet.shape.read.Ensures Node.Tame depthLimit fun keys => ∀ k ∈ keys.plugin, k.Sound := by
  refine Shape.read_ensures ?_ (by simp [shape, empty])
  simp only [shape, List.forall_mem_cons]
  refine ⟨?_, ?_, ?_, ?_, by simp⟩
  · exact Slot.of_preserves (.trivial _ _) fun keys _ hkeys _ => hkeys
  · exact Slot.of_preserves (.trivial _ _) fun keys _ hkeys _ => hkeys
  · exact Slot.of_preserves (.trivial _ _) fun keys _ hkeys _ => hkeys
  · exact Slot.of_preserves PluginKey.read_sound.list fun keys plugin _ hplugin => hplugin

/-- Every plugin key of a definition that is read is sound. -/
theorem Definition.read_sound :
    Definition.shape.read.Ensures Node.Tame depthLimit
      fun d => ∀ keys ∈ d.keys, ∀ k ∈ keys.plugin, k.Sound := by
  refine Shape.read_ensures ?_ (by simp [shape])
  simp only [shape, List.forall_mem_cons]
  refine ⟨?_, ?_, ?_, ?_, ?_, ?_, by simp⟩
  iterate 5 exact Slot.of_preserves (.trivial _ _) fun d _ hd _ => hd
  exact Slot.of_preserves KeySet.read_sound.optional fun d keys _ hkeys => hkeys

end KeyLayout
