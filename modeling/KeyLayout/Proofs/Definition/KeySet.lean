/-
Key sets that are written and read again.

A key of each category is read from its written form: the members of its frame, its own, and for a
plugin key those that it keeps.  A key set that was read can be written and read, because what its
plugin keys keep stood at least two levels deep (`KeySet.read_rereadable`).

Two members have a second name, the symbol of a frame and the destination of a link key.  A
reader does not tell the names apart (`Definition.read_blind`).
-/
import KeyLayout.Proofs.Definition.Fits
import KeyLayout.Proofs.Definition.Layout
import KeyLayout.Proofs.Document.Renaming
import KeyLayout.Proofs.KeyGrid.Record

namespace KeyLayout

open Document Json

/-! ### Keys -/

namespace ActionKey

variable {k : ActionKey} (hk : k.frame.Fits)
include hk

theorem gives : shape.read.Gives 1 k.toJson k := by
  have hfills (depth : Nat) (hdepth : 0 < depth) :
      Shape.Fills shape.own depth shape.own.slots shape.own.blank
        [optionalMember "action" (k.action.map fun f => .text f.name)] ⟨.blank, k.action⟩ :=
    .option k.action rfl (fun f _ => KeyFunction.gives f) (fun _ => Value.noConfusion) hdepth
      (by rintro h; rw [h]; rfl) .nil
  exact KeyFrame.gives_own rfl hk hfills (by decide) (by decide) fun _ => rfl

theorem toJson_readable : k.toJson.Readable := by
  refine KeyFrame.readable_key hk fun o ho => ?_
  obtain rfl := List.mem_singleton.mp ho
  have htext := KeyFrame.optionalText_readable "action" (k.action.map KeyFunction.name)
  rwa [Option.map_map] at htext

end ActionKey

namespace TextKey

variable {k : TextKey} (hk : k.frame.Fits)
include hk

theorem gives : shape.read.Gives 1 k.toJson k := by
  have hfills (depth : Nat) (_ : 0 < depth) :
      Shape.Fills shape.own depth shape.own.slots shape.own.blank
        [optionalMember "text" (k.text.map .text)] ⟨.blank, k.text⟩ :=
    .text k.text _ rfl (fun _ _ h => Slot.of_fill h rfl) (by rintro h; rw [h]; rfl) .nil
  exact KeyFrame.gives_own rfl hk hfills (by decide) (by decide) fun _ => rfl

theorem toJson_readable : k.toJson.Readable := by
  refine KeyFrame.readable_key hk fun o ho => ?_
  obtain rfl := List.mem_singleton.mp ho
  exact KeyFrame.optionalText_readable "text" k.text

end TextKey

namespace LinkKey

variable {k : LinkKey} (hk : k.frame.Fits)
include hk

theorem gives : shape.read.Gives 1 k.toJson k := by
  have hfills (depth : Nat) (hdepth : 0 < depth) :
      Shape.Fills shape.own depth shape.own.slots shape.own.blank
        [optionalMember "destinationKeyboard" (k.destination.map .text),
          some ("returnToThisKeyboard", .bool k.returns)] ⟨.blank, k.destination, k.returns⟩ := by
    refine .text k.destination ⟨.blank, k.destination, false⟩ rfl (fun depth node h => ?_)
      (by rintro h; rw [h]; rfl) (.of rfl (Reading.gives_bool k.returns) hdepth .nil)
    rw [Slot.alias_fill]
    exact Slot.of_fill h rfl
  exact KeyFrame.gives_own rfl hk hfills (by decide) (by decide) fun _ => rfl

theorem toJson_readable : k.toJson.Readable := by
  refine KeyFrame.readable_key hk fun o ho => ?_
  rcases List.mem_pair.mp ho with rfl | rfl
  · exact KeyFrame.optionalText_readable "destinationKeyboard" k.destination
  · rintro m ⟨⟩
    exact .bool k.returns

end LinkKey

/-! ### Key sets -/

/-- What a key set that was read is like, as far as writing and reading it again depends on it. -/
structure KeySet.Rereadable (keys : KeySet) : Prop where
  fits : keys.Fits
  sound : ∀ k ∈ keys.plugin, k.Sound
  /-- What a plugin key keeps stood in a key, which stood in a list, which stood in a key set. -/
  kept : ∀ k ∈ keys.plugin, ∀ m ∈ k.extra, m.2.Kept (depthLimit - 3)

theorem PluginKey.read_kept (limit : Nat) :
    PluginKey.shape.read.Ensures Node.Tame limit fun k => ∀ m ∈ k.extra, m.2.Kept (limit - 1) :=
  fun _ _ _ hdepth hnode h m hm => ((read_extra hnode h).2 m hm).2.mono (by omega)

namespace KeySet

theorem read_kept : KeySet.shape.read.Ensures Node.Tame depthLimit
    fun keys => ∀ k ∈ keys.plugin, ∀ m ∈ k.extra, m.2.Kept (depthLimit - 3) := by
  have hplugin : (Reading.list PluginKey.shape.read).Ensures Node.Tame (depthLimit - 1)
      fun ks => ∀ k ∈ ks, ∀ m ∈ k.extra, m.2.Kept (depthLimit - 3) :=
    (PluginKey.read_kept (depthLimit - 2)).list_succ
  refine Shape.read_ensures_succ ?_ (by simp [shape, empty])
  simp only [shape, List.forall_mem_cons]
  refine ⟨?_, ?_, ?_, ?_, by simp⟩
  · exact Slot.of_preserves (.trivial _ _) fun keys _ hkeys _ => hkeys
  · exact Slot.of_preserves (.trivial _ _) fun keys _ hkeys _ => hkeys
  · exact Slot.of_preserves (.trivial _ _) fun keys _ hkeys _ => hkeys
  · exact Slot.of_preserves hplugin fun keys plugin _ hkept => hkept

theorem read_rereadable : KeySet.shape.read.Ensures Node.Tame depthLimit Rereadable :=
  fun depth node keys hdepth hnode h =>
    ⟨read_fits depth node keys hdepth hnode h, read_sound depth node keys hdepth hnode h,
      read_kept depth node keys hdepth hnode h⟩

variable {keys : KeySet} (hkeys : keys.Rereadable)
include hkeys

/-- A key set is read from its written form. -/
theorem gives : KeySet.shape.read.Gives (depthLimit - 1) keys.toJson keys := by
  have haction := Reading.Gives.list fun k hk => ActionKey.gives (hkeys.fits.action k hk)
  have htext := Reading.Gives.list fun k hk => TextKey.gives (hkeys.fits.text k hk)
  have hlink := Reading.Gives.list fun k hk => LinkKey.gives (hkeys.fits.link k hk)
  have hplugin := Reading.Gives.list fun k hk =>
    PluginKey.gives (hkeys.sound k hk) (by decide) (hkeys.kept k hk)
  refine Reading.Gives.record rfl (by decide) fun depth (hdepth : depthLimit - 2 < depth) => ?_
  rw [depthLimit] at hdepth
  exact .of rfl haction (by omega) <| .of rfl htext (by omega) <| .of rfl hlink (by omega) <|
    .of rfl hplugin hdepth .nil

theorem toJson_readable
    (hfloats : ∀ k ∈ keys.plugin, ∀ m ∈ k.extra, ∀ x, Value.Contains (.float x) m.2 → ReadsBack x) :
    keys.toJson.Readable := by
  have hlist {α : Type} {toJson : α → Value} {ks : List α} (h : ∀ k ∈ ks, (toJson k).Readable) :
      (Value.list (ks.map toJson)).Readable := by
    refine .list fun v hv => ?_
    obtain ⟨k, hk, rfl⟩ := List.mem_map.mp hv
    exact h k hk
  refine .record ?_
  simp only [List.forall_mem_cons]
  refine ⟨?_, ?_, ?_, ?_, by simp⟩
  · exact hlist fun k hk => ActionKey.toJson_readable (hkeys.fits.action k hk)
  · exact hlist fun k hk => TextKey.toJson_readable (hkeys.fits.text k hk)
  · exact hlist fun k hk => LinkKey.toJson_readable (hkeys.fits.link k hk)
  · exact hlist fun k hk => PluginKey.toJson_readable (hkeys.sound k hk) (hfloats k hk)

/-- **A key set that was read is read again from its written form**, in any spacing. -/
theorem read_write
    (hfloats : ∀ k ∈ keys.plugin, ∀ m ∈ k.extra, ∀ x, Value.Contains (.float x) m.2 → ReadsBack x)
    {sp : Spacing} (hsp : sp.Blank) :
    Json.read KeySet.shape.read (String.ofList (write sp 0 keys.toJson)) = .ok keys := by
  obtain ⟨node, hdocument, hholds⟩ := document_write hsp (toJson_readable hkeys hfloats)
  refine Whole.read_eq_ok.mpr ?_
  rw [hdocument]
  exact ⟨gives hkeys depthLimit node (by decide) hholds, rfl⟩

end KeySet

theorem Definition.read_rereadable :
    Definition.shape.read.Ensures Node.Tame depthLimit
      fun d => ∀ keys ∈ d.keys, keys.Rereadable := by
  refine Shape.read_ensures ?_ (by simp [shape])
  simp only [shape, List.forall_mem_cons]
  refine ⟨?_, ?_, ?_, ?_, ?_, ?_, by simp⟩
  iterate 5 exact Slot.of_preserves (.trivial _ _) fun d _ hd _ => hd
  exact Slot.of_preserves KeySet.read_rereadable.optional fun d keys _ hkeys => hkeys

/-! ### Second names -/

/-- The first name of a member of a frame. -/
def KeyFrame.primaryName : String → String
  | "symbolName" => "symbol"
  | name => name

/-- The first name of a member of a link key. -/
def LinkKey.primaryName : String → String
  | "destination" => "destinationKeyboard"
  | name => KeyFrame.primaryName name

/-- A key set in which all members have their first names. -/
def KeySet.primaryNames (node : Node) : Node :=
  KeySet.shape.mapParts (fun name =>
    match name with
    | "ChangeKeyboardKeys" => Node.mapEach fun _ => Node.rename LinkKey.primaryName
    | _ => Node.mapEach fun _ => Node.rename KeyFrame.primaryName) node

/-- A definition in which all members have their first names. -/
def Definition.primaryNames (node : Node) : Node :=
  Definition.shape.mapParts (fun name =>
    match name with
    | "Keys" => KeySet.primaryNames
    | _ => id) node

theorem KeyFrame.slot?_primaryName (name : String) :
    KeyFrame.shape.slot? (KeyFrame.primaryName name) = KeyFrame.shape.slot? name := by
  rw [primaryName.eq_def]
  split <;> rfl

/-- Keys that have no second names of their own are blind to those of their frames. -/
theorem KeyFrame.read_blind_key {τ : Type} {key : FlatShape τ KeyFrame}
    (hbase : key.base = KeyFrame.shape)
    (hown : ∀ name, key.own.slot? (KeyFrame.primaryName name) = key.own.slot? name) :
    key.read.Blind (Node.rename KeyFrame.primaryName) := by
  refine FlatShape.read_blind_rename ⟨hown, fun name => ?_, fun name _ hother => ?_⟩
  · rw [hbase]
    exact KeyFrame.slot?_primaryName name
  · rw [hbase] at hother
    rw [primaryName.eq_def]
    split
    · cases hother
    · rfl

theorem ActionKey.read_blind : ActionKey.shape.read.Blind (Node.rename KeyFrame.primaryName) := by
  refine KeyFrame.read_blind_key rfl fun name => ?_
  rw [KeyFrame.primaryName.eq_def]
  split <;> rfl

theorem TextKey.read_blind : TextKey.shape.read.Blind (Node.rename KeyFrame.primaryName) := by
  refine KeyFrame.read_blind_key rfl fun name => ?_
  rw [KeyFrame.primaryName.eq_def]
  split <;> rfl

theorem PluginKey.read_blind : PluginKey.shape.read.Blind (Node.rename KeyFrame.primaryName) := by
  refine KeyFrame.read_blind_key rfl fun name => ?_
  rw [KeyFrame.primaryName.eq_def]
  split <;> rfl

theorem LinkKey.read_blind : LinkKey.shape.read.Blind (Node.rename LinkKey.primaryName) := by
  refine FlatShape.read_blind_rename ⟨fun name => ?_, fun name => ?_, fun name hown hbase => ?_⟩
  · rw [primaryName.eq_def]
    split
    · rfl
    · rw [KeyFrame.primaryName.eq_def]
      split <;> rfl
  · rw [primaryName.eq_def]
    split
    · rfl
    · exact KeyFrame.slot?_primaryName name
  · rw [primaryName.eq_def]
    split
    · cases hown
    · rw [KeyFrame.primaryName.eq_def]
      split
      · cases hbase
      · rfl

theorem KeySet.read_blind : KeySet.shape.read.Blind KeySet.primaryNames := by
  refine Shape.read_blind_mapParts ?_
  simp only [KeySet.shape, List.forall_mem_cons]
  refine ⟨?_, ?_, ?_, ?_, by simp⟩
  · exact Slot.of_blind ActionKey.read_blind.list
  · exact Slot.of_blind TextKey.read_blind.list
  · exact Slot.of_blind LinkKey.read_blind.list
  · exact Slot.of_blind PluginKey.read_blind.list

/-- **Second names are as good as first names.** -/
theorem Definition.read_blind : Definition.shape.read.Blind Definition.primaryNames := by
  have hsame {α : Type} (read : Reading α) : read.Blind id := .refl read
  refine Shape.read_blind_mapParts ?_
  simp only [Definition.shape, List.forall_mem_cons]
  refine ⟨?_, ?_, ?_, ?_, ?_, ?_, by simp⟩
  iterate 5 exact Slot.of_blind (hsame _)
  exact Slot.of_blind (KeySet.read_blind.optional (Shape.keepsPlain_mapParts _ _))

/-! ### Texts -/

/-- A document in which all members have their first names. -/
def Definition.primaryDocument (d : Whole) : Whole :=
  { d with root := Definition.primaryNames d.root }

/-- **Key sets are written and read again without loss.**  The key set of a definition that is read
from a text is the one that is read from its own written form, in any spacing, provided that the
floating-point numbers which plugin keys keep are read back as they are written.  A text gives the
same key set, or is refused as well, if members in it have their other names. -/
theorem KeySet.read_back (text text' : String) :
    (∀ d keys, DefinitionFormat.json.read text = .ok d → d.keys = some keys →
      (∀ k ∈ keys.plugin, ∀ m ∈ k.extra, ∀ x, Value.Contains (.float x) m.2 → ReadsBack x) →
      ∀ sp : Spacing, sp.Blank →
        Json.read KeySet.shape.read (String.ofList (write sp 0 keys.toJson)) = .ok keys) ∧
    ((Definition.primaryDocument (Json.document text)).Alike
        (Definition.primaryDocument (Json.document text')) →
      ∀ d, DefinitionFormat.json.read text = .ok d ↔ DefinitionFormat.json.read text' = .ok d) := by
  constructor
  · intro d keys hread hkeys hfloats sp hsp
    have hrereadable : keys.Rereadable := read_ensures Definition.read_rereadable hread keys hkeys
    exact KeySet.read_write hrereadable hfloats hsp
  · intro halike d
    have hprimary (text : String) : DefinitionFormat.json.read text =
        (Definition.primaryDocument (Json.document text)).read Definition.shape.read
          depthLimit := by
      rw [Whole.read, Definition.primaryDocument]
      dsimp only
      rw [Definition.read_blind]
      rfl
    rw [hprimary text, hprimary text']
    exact halike.read Definition.read_ignoresLayout

/-- A link key with both second names and a plugin key that keeps a number with a point. -/
theorem KeySet.read_back_second_names :
    let text := "\x7b\"Keys\":\x7b\"ChangeKeyboardKeys\":" ++
      "[\x7b\"destination\":\"a\",\"symbolName\":\"s\"\x7d]," ++
      "\"PluginKeys\":[\x7b\"x\":2.5\x7d]\x7d\x7d"
    let text' := "\x7b\"Keys\":\x7b\"ChangeKeyboardKeys\":" ++
      "[\x7b\"destinationKeyboard\":\"a\",\"symbol\":\"s\"\x7d]," ++
      "\"PluginKeys\":[\x7b\"x\":2.5\x7d]\x7d\x7d"
    let link : LinkKey := ⟨{ KeyFrame.blank with symbol := some "s" }, some "a", false⟩
    let plugin : PluginKey := ⟨KeyFrame.blank, none, none, [("x", .float 2.5)]⟩
    let keys : KeySet := ⟨[], [], [link], [plugin]⟩
    let d : Definition := ⟨none, ⟨false, false, none, none⟩, some keys⟩
    DefinitionFormat.json.read text = .ok d ∧
      Json.read KeySet.shape.read (compact keys.toJson) = .ok keys ∧
      Json.read KeySet.shape.read (pretty keys.toJson) = .ok keys ∧
      DefinitionFormat.json.read text' = .ok d := by
  intro text text' link plugin keys d
  have hread : DefinitionFormat.json.read text = .ok d := by decide +kernel
  have hfloats : ∀ k ∈ keys.plugin, ∀ m ∈ k.extra, ∀ x, Value.Contains (.float x) m.2 →
      ReadsBack x := by
    intro k hk m hm x hx
    obtain rfl := List.mem_singleton.mp hk
    obtain rfl := List.mem_singleton.mp hm
    obtain rfl : x = 2.5 := by simpa using hx
    exact ⟨_, _, rfl⟩
  have hagain := (KeySet.read_back text text').1 d keys hread rfl hfloats
  have halike : (Definition.primaryDocument (Json.document text)).Alike
      (Definition.primaryDocument (Json.document text')) :=
    ⟨Node.alike_of_agrees (by decide +kernel), by decide +kernel⟩
  exact ⟨hread, hagain .none Spacing.blank_none, hagain .lines Spacing.blank_lines,
    ((KeySet.read_back text text').2 halike d).mp hread⟩

end KeyLayout
