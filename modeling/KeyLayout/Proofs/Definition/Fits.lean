/-
The integers of a definition.

Dimensions, positions and spans have thirty-two bits in a definition file.  A definition as
such promises nothing, so where the bits matter, it is asked to fit (`Definition.Fits`).
Every definition that is read from a JSON text does (`Definition.fits_of_read`).
-/
import KeyLayout.Proofs.Definition.Plugin

namespace KeyLayout

open Document Json

/-- Both dimensions have thirty-two bits. -/
structure Dimensions.Fits (size : Dimensions) : Prop where
  rows : -2147483648 ≤ size.rows ∧ size.rows ≤ 2147483647
  cols : -2147483648 ≤ size.cols ∧ size.cols ≤ 2147483647

/-- The integers of a definition have thirty-two bits. -/
structure Definition.Fits (d : Definition) : Prop where
  dimensions : ∀ size ∈ d.dimensions, size.Fits
  frames : ∀ spec ∈ d.specs, spec.frame.Fits

theorem Dimensions.read_fits : Dimensions.shape.read.Ensures Node.Tame depthLimit Fits := by
  have hint := @Reading.int32_ensures Node.Tame depthLimit
  refine Shape.read_ensures ?_ ⟨by decide, by decide⟩
  simp only [shape, List.forall_mem_cons]
  refine ⟨?_, ?_, by simp⟩
  · exact Slot.of_preserves hint fun size n hsize hn => ⟨hn, hsize.cols⟩
  · exact Slot.of_preserves hint fun size n hsize hn => ⟨hsize.rows, hn⟩

/-- The frame that stands among the members of a key fits. -/
theorem frame_ensures {τ : Type} {shape : FlatShape τ KeyFrame} {frameOf : τ → KeyFrame}
    (hbase : shape.base = KeyFrame.shape)
    (hassemble : ∀ frame held record k, shape.assemble frame held record = .ok k →
      frameOf k = frame) :
    shape.read.Ensures Node.Tame depthLimit fun k => (frameOf k).Fits := by
  intro depth node k hdepth hnode h
  obtain ⟨record, held, frame, -, hframe, h⟩ := FlatShape.read_cases hnode h
  rw [hbase] at hframe
  rw [hassemble _ _ _ _ h]
  exact Shape.ofMembers_preserves (KeyFrame.slots_preserve (fun _ => True) depthLimit)
    KeyFrame.fits_blank (by omega) (by simp) hframe

/-- The frames of all keys fit. -/
structure KeySet.Fits (keys : KeySet) : Prop where
  action : ∀ k ∈ keys.action, k.frame.Fits
  text : ∀ k ∈ keys.text, k.frame.Fits
  link : ∀ k ∈ keys.link, k.frame.Fits
  plugin : ∀ k ∈ keys.plugin, k.frame.Fits

theorem KeySet.read_fits : KeySet.shape.read.Ensures Node.Tame depthLimit Fits := by
  have haction : ActionKey.shape.read.Ensures Node.Tame depthLimit fun k => k.frame.Fits :=
    frame_ensures rfl (by rintro frame held record k ⟨⟩; rfl)
  have htext : TextKey.shape.read.Ensures Node.Tame depthLimit fun k => k.frame.Fits :=
    frame_ensures rfl (by rintro frame held record k ⟨⟩; rfl)
  have hlink : LinkKey.shape.read.Ensures Node.Tame depthLimit fun k => k.frame.Fits :=
    frame_ensures rfl (by rintro frame held record k ⟨⟩; rfl)
  refine Shape.read_ensures ?_ ⟨by simp [shape, empty], by simp [shape, empty],
    by simp [shape, empty], by simp [shape, empty]⟩
  simp only [shape, List.forall_mem_cons]
  refine ⟨?_, ?_, ?_, ?_, by simp⟩
  · exact Slot.of_preserves haction.list fun keys _ h hkeys => ⟨hkeys, h.text, h.link, h.plugin⟩
  · exact Slot.of_preserves htext.list fun keys _ h hkeys => ⟨h.action, hkeys, h.link, h.plugin⟩
  · exact Slot.of_preserves hlink.list fun keys _ h hkeys => ⟨h.action, h.text, hkeys, h.plugin⟩
  · exact Slot.of_preserves PluginKey.read_sound.list fun keys _ h hkeys =>
      ⟨h.action, h.text, h.link, fun k hk => (hkeys k hk).frame⟩

theorem KeySet.Fits.frames {keys : KeySet} (h : keys.Fits) :
    ∀ spec ∈ keys.specs, spec.frame.Fits := by
  intro spec hspec
  simp only [specs, List.mem_append, List.mem_map] at hspec
  rcases hspec with ((⟨k, hk, rfl⟩ | ⟨k, hk, rfl⟩) | ⟨k, hk, rfl⟩) | ⟨k, hk, rfl⟩
  · exact h.action k hk
  · exact h.text k hk
  · exact h.link k hk
  · exact h.plugin k hk

namespace Definition

theorem read_fits : Definition.shape.read.Ensures Node.Tame depthLimit
    fun d => (∀ size ∈ d.dimensions, size.Fits) ∧ ∀ keys ∈ d.keys, keys.Fits := by
  refine Shape.read_ensures ?_ (by simp [shape])
  simp only [shape, List.forall_mem_cons]
  refine ⟨?_, ?_, ?_, ?_, ?_, ?_, by simp⟩
  · exact Slot.of_preserves Dimensions.read_fits.optional fun d _ hd hsize => ⟨hsize, hd.2⟩
  iterate 4 exact Slot.of_preserves (.trivial _ _) fun d _ hd _ => hd
  · exact Slot.of_preserves KeySet.read_fits.optional fun d _ hd hkeys => ⟨hd.1, hkeys⟩

/-- Every definition that is read fits. -/
theorem fits_of_read {text : String} {d : Definition}
    (h : DefinitionFormat.json.read text = .ok d) : d.Fits := by
  obtain ⟨hdimensions, hkeys⟩ := read_ensures read_fits h
  refine ⟨hdimensions, fun spec hspec => ?_⟩
  rw [specs] at hspec
  rcases hsome : d.keys with _ | keys
  · simp [hsome] at hspec
  · rw [hsome] at hspec
    exact (hkeys keys hsome).frames spec hspec

end Definition

end KeyLayout
