/-
The snippet of a plugin key that was read from a text.

A snippet has the members of the object that was read, in a canonical form (`PluginKey.Canonical`):
position and span are always there, labels and names are left out where they are `null`, the symbol
has its first name, and whatever else was read is kept.  This is a matter of what is written
under each name (`PluginKey.lookup_object`).  For the names that a key knows it is told by the
slots (`written_slots`); all other names are those that are kept for the plugin (`lookup_kept`).

What the text itself said is another matter, because the numbers that are kept were read before.
Under the names that a key knows a snippet says the canonical form of what the text said; under
every other name it does so if and only if the numbers there survive being read
(`snippet_canonical`), which not all of them do (`snippet_rounded`).  Reading a snippet gives the
key back, so the snippet of that key is the same text again.
-/
import KeyLayout.Proofs.Definition.Plugin
import KeyLayout.Proofs.Json.Said

namespace KeyLayout

open Document Json
open Decimal (ofDigits)

section lookup

theorem lookup_cons_some (name other : String) (v : Value)
    (members : List (Option (String × Value))) :
    ((some (other, v) :: members).filterMap id).lookup name =
      if name = other then some v else (members.filterMap id).lookup name := by
  exact lookup_cons name other v _

theorem lookup_cons_optional (name other : String) (o : Option Value)
    (members : List (Option (String × Value))) :
    ((optionalMember other o :: members).filterMap id).lookup name =
      if name = other then o.or ((members.filterMap id).lookup name)
      else (members.filterMap id).lookup name := by
  cases o with
  | none =>
    have hnone : (optionalMember other none :: members).filterMap id = members.filterMap id := rfl
    rw [hnone, Option.none_or, ite_self]
  | some v =>
    exact lookup_cons_some name other v members

theorem lookup_eq_none {members : List (String × Value)} (h : name ∉ members.map Prod.fst) :
    members.lookup name = none := by
  rw [List.lookup_eq_none_iff]
  intro m hm
  rw [bne_iff_ne]
  rintro rfl
  exact h (List.mem_map_of_mem hm)

end lookup

namespace KeyFrame

/-- What a frame is written with under a name. -/
def written (name : String) (f : KeyFrame) : Option Value := (f.members.filterMap id).lookup name

theorem written_eq (name : String) (f : KeyFrame) :
    written name f =
      if name = "row" then some (.int f.row)
      else if name = "col" then some (.int f.col)
      else if name = "width" then some (.int f.width)
      else if name = "height" then some (.int f.height)
      else if name = "label" then f.label.map .text
      else if name = "shiftUpLabel" then f.shiftUpLabel.map .text
      else if name = "shiftDownLabel" then f.shiftDownLabel.map .text
      else if name = "symbol" then f.symbol.map .text
      else none := by
  simp only [written, members, lookup_cons_some, lookup_cons_optional, List.filterMap_nil,
    List.lookup_nil, Option.or_none]
  iterate 4 refine ite_congr rfl (fun _ => rfl) fun _ => ?_
  -- none of the names that follow is the one that was looked up
  iterate 3 refine ite_congr rfl (fun hname => by simp [hname]) fun _ => ?_
  rfl

theorem written_slots : ∀ slot ∈ shape.slots, slot.Writes written := by
  simp only [shape, List.forall_mem_cons]
  refine ⟨?_, ?_, ?_, ?_, ?_, ?_, ?_, .alias ?_ _, by simp⟩
  iterate 4
    exact Slot.of_int32_writes (fun f n => written_eq _ _)
      fun f n other hne => by simp only [written_eq, if_neg hne]
  all_goals
    exact Slot.of_text_writes (fun f o => written_eq _ _)
      fun f o other hne => by simp only [written_eq, if_neg hne]

end KeyFrame

namespace PluginKey

/-- What a plugin key is written with under a name, besides its frame and what it keeps. -/
def written (name : String) (k : PluginKey) : Option Value :=
  (k.ownMembers.filterMap id).lookup name

theorem written_eq (name : String) (k : PluginKey) :
    written name k =
      if name = "pluginName" then k.plugin.map .text
      else if name = "methodName" then k.method.map .text
      else none := by
  simp only [written, ownMembers, lookup_cons_optional, List.filterMap_nil, List.lookup_nil,
    Option.or_none]
  exact ite_congr rfl (fun hname => by simp [hname]) fun _ => rfl

theorem written_slots : ∀ slot ∈ shape.own.slots, slot.Writes written := by
  simp only [shape, List.forall_mem_cons]
  refine ⟨?_, ?_, by simp⟩ <;>
    exact Slot.of_text_writes (fun k o => written_eq _ _)
      fun k o other hne => by simp only [written_eq, if_neg hne]

variable {k : PluginKey}

/-! ### What is written under each name -/

/-- The members that a plugin key is written with. -/
def allMembers (k : PluginKey) : List (String × Value) :=
  (k.frame.members ++ k.ownMembers ++ k.extra.map some).filterMap id

theorem allMembers_eq (k : PluginKey) :
    k.allMembers = k.frame.members.filterMap id ++ k.ownMembers.filterMap id ++ k.extra := by
  simp [allMembers]

theorem names_sublist (hk : k.Sound) :
    ((k.ownMembers.filterMap id).map Prod.fst).Sublist (shape.own.slots.map Slot.name) ∧
      ((k.frame.members.filterMap id).map Prod.fst).Sublist (shape.base.slots.map Slot.name) :=
  ⟨(own_fills k 0).names_sublist, (KeyFrame.fills hk.frame 0).names_sublist⟩

theorem mem_declaredNames : ∀ name ∈ shape.base.slots.map Slot.name ++
    shape.own.slots.map Slot.name, name ∈ declaredNames := by decide

/-- No name is written twice. -/
theorem allMembers_nodup (hk : k.Sound) : (k.allMembers.map Prod.fst).Nodup := by
  obtain ⟨hown, hframe⟩ := names_sublist hk
  have hnames : ((k.frame.members.filterMap id).map Prod.fst ++
      (k.ownMembers.filterMap id).map Prod.fst).Sublist
      (shape.base.slots.map Slot.name ++ shape.own.slots.map Slot.name) := hframe.append hown
  rw [allMembers_eq, List.map_append, List.map_append]
  refine List.nodup_append.mpr ⟨hnames.nodup (by decide), ?_, ?_⟩
  · exact hk.ascending.names_nodup
  · -- a name that the key writes itself is not among those that it keeps
    rintro name hname _ hother rfl
    obtain ⟨m, hm, rfl⟩ := List.mem_map.mp hother
    exact hk.names m hm (mem_declaredNames _ (hnames.subset hname))

/-- The object that a plugin key is written as. -/
def object (k : PluginKey) : Fields := Fields.ofMembers k.allMembers

theorem lookup_object (hk : k.Sound) (name : String) :
    k.object.lookup name =
      ((k.frame.written name).or (k.written name)).or (k.extra.lookup name) := by
  rw [object, Fields.lookup_ofMembers, lastNamed_of_nodup (allMembers_nodup hk), allMembers_eq,
    List.lookup_append, List.lookup_append]
  rfl

theorem lookup_extra (hk : k.Sound) {name : String} (h : name ∈ declaredNames) :
    k.extra.lookup name = none := by
  refine lookup_eq_none fun hname => ?_
  obtain ⟨m, hm, rfl⟩ := List.mem_map.mp hname
  exact hk.names m hm h

/-- A name that the frame knows is written for the frame. -/
theorem lookup_frame (hk : k.Sound) {name : String}
    (h : name ∈ shape.base.slots.flatMap Slot.names) :
    k.object.lookup name = k.frame.written name := by
  have hapart : ∀ name ∈ shape.base.slots.flatMap Slot.names,
      name ≠ "pluginName" ∧ name ≠ "methodName" := by decide
  obtain ⟨hplugin, hmethod⟩ := hapart name h
  rw [lookup_object hk, lookup_extra hk (List.mem_append_right _ h), written_eq, if_neg hplugin,
    if_neg hmethod, Option.or_none, Option.or_none]

theorem lookup_own (hk : k.Sound) {name : String}
    (h : name ∈ shape.own.slots.flatMap Slot.names) : k.object.lookup name = written name k := by
  have hnone : k.frame.written name = none := by
    rcases List.mem_pair.mp h with rfl | rfl <;> exact KeyFrame.written_eq _ _
  rw [lookup_object hk, lookup_extra hk (List.mem_append_left _ h), hnone, Option.none_or,
    Option.or_none]

/-- A name that the key does not know is written as it was kept. -/
theorem lookup_kept (hk : k.Sound) {name : String} (h : name ∉ declaredNames) :
    k.object.lookup name = k.extra.lookup name := by
  obtain ⟨hown, hframe⟩ := names_sublist hk
  have hownNone : written name k = none := lookup_eq_none fun hname =>
    h (mem_declaredNames name (List.mem_append_right _ (hown.subset hname)))
  have hframeNone : k.frame.written name = none := lookup_eq_none fun hname =>
    h (mem_declaredNames name (List.mem_append_left _ (hframe.subset hname)))
  rw [lookup_object hk, hownNone, hframeNone, Option.none_or, Option.none_or]

/-- The canonical form of the object that a plugin key is read from.  It tells for every name what
is written under it. -/
structure Canonical (fields written : Fields) : Prop where
  position : ∀ name ∈ ["row", "col"],
    written.lookup name = some ((fields.lookup name).getD (.int 0))
  span : ∀ name ∈ ["width", "height"],
    written.lookup name = some ((fields.lookup name).getD (.int 1))
  optional : ∀ name ∈ ["label", "shiftUpLabel", "shiftDownLabel", "pluginName", "methodName"],
    written.lookup name = (fields.lookup name).bind Value.nonNull?
  /-- The symbol has one of its two names, and is written under the first one. -/
  symbol : (fields.lookup "symbol" = none ∨ fields.lookup "symbolName" = none) ∧
    written.lookup "symbol" =
      ((fields.lookup "symbol").or (fields.lookup "symbolName")).bind Value.nonNull? ∧
    written.lookup "symbolName" = none
  kept : ∀ name ∉ declaredNames, written.lookup name = fields.lookup name

/-- What a key is written with is the canonical form of the object that it was read from. -/
theorem canonical_of_took (hk : k.Sound) {entries : List (String × Value)}
    (hown : ∀ slot ∈ shape.own.slots, Took slot.names entries
      (written slot.name shape.own.blank) (written slot.name k))
    (hbase : ∀ slot ∈ shape.base.slots, Took slot.names entries
      (KeyFrame.written slot.name shape.base.blank) (KeyFrame.written slot.name k.frame))
    (hextra : k.extra = Fields.ofMembers (entries.filter (!shape.declares ·.1))) :
    Canonical (Fields.ofMembers entries) k.object := by
  have hint : ∀ {name : String} {n standard : Int},
      name ∈ shape.base.slots.flatMap Slot.names → k.frame.written name = some (.int n) →
      Took [name] entries (some (.int standard)) (k.frame.written name) →
      k.object.lookup name =
        some (((Fields.ofMembers entries).lookup name).getD (.int standard)) := by
    intro name n standard hname hwritten htook
    rw [lookup_frame hk hname, hwritten]
    exact Took.lookup_int (hwritten ▸ htook)
  simp only [shape, List.forall_mem_cons] at hown
  obtain ⟨hplugin, hmethod, -⟩ := hown
  simp only [shape, KeyFrame.shape, List.forall_mem_cons] at hbase
  obtain ⟨hrow, hcol, hwidth, hheight, hlabel, hup, hdown, hsymbol, -⟩ := hbase
  refine ⟨?_, ?_, ?_, ?_, fun name hname => ?_⟩
  · simp only [List.forall_mem_cons]
    exact ⟨hint (by decide) (KeyFrame.written_eq _ _) hrow,
      hint (by decide) (KeyFrame.written_eq _ _) hcol, by simp⟩
  · simp only [List.forall_mem_cons]
    exact ⟨hint (by decide) (KeyFrame.written_eq _ _) hwidth,
      hint (by decide) (KeyFrame.written_eq _ _) hheight, by simp⟩
  · simp only [List.forall_mem_cons]
    exact ⟨(lookup_frame hk (by decide)).trans hlabel.lookup_optional,
      (lookup_frame hk (by decide)).trans hup.lookup_optional,
      (lookup_frame hk (by decide)).trans hdown.lookup_optional,
      (lookup_own hk (by decide)).trans hplugin.lookup_optional,
      (lookup_own hk (by decide)).trans hmethod.lookup_optional, by simp⟩
  · obtain ⟨hone, hwritten⟩ := hsymbol.lookup_alias (by decide)
    -- nothing is ever written under the second name
    exact ⟨hone, (lookup_frame hk (by decide)).trans hwritten,
      (lookup_frame hk (by decide)).trans (KeyFrame.written_eq _ _)⟩
  · -- members of other names than this one are dropped, which does not change its last member
    have hdeclares : (!shape.declares name) = true := by
      obtain ⟨hownNone, hbaseNone⟩ := not_declared.mp hname
      simp [FlatShape.declares, Shape.declares, hownNone, hbaseNone]
    rw [lookup_kept hk hname, hextra, Fields.lookup_ofMembers, Fields.lookup_ofMembers]
    exact lastNamed_filter (p := (!shape.declares ·)) hdeclares

end PluginKey

/-! ### Snippets of keys that were read -/

/-- The nodes of a JSON text are literal. -/
theorem Json.document_literal (text : String) : (document text).root.Literal ∧
    ∀ {start members close form}, (document text).root = .record start members close form →
      ∀ m ∈ members, m.1.isText = true ∧ m.2.Literal := by
  refine document_of_parts (P := fun node => node.Literal ∧
    ∀ {start members close form}, node = .record start members close form →
      ∀ m ∈ members, m.1.isText = true ∧ m.2.Literal)
    (fun _ => ⟨trivial, by rintro _ _ _ _ ⟨⟩⟩) (fun _ _ _ => ⟨rfl, by rintro _ _ _ _ ⟨⟩⟩)
    (fun _ _ _ _ _ => ⟨trivial, by rintro _ _ _ _ ⟨⟩⟩) (fun _ _ _ _ h => ⟨trivial, ?_⟩) text
  rintro _ _ _ _ ⟨⟩ m hm
  exact ⟨(h m hm).1, (h m hm).2.1⟩

namespace PluginKey

variable {k : PluginKey}

theorem read_canonical {text : String} (h : ofSnippet text = .ok k) :
    ∃ fields, Json.read Reading.value text = .ok (.record fields) ∧
      Canonical fields k.object := by
  have hk : k.Sound := read_ensures read_sound h
  obtain ⟨hread, htrailing⟩ := Whole.read_eq_ok.mp h
  obtain ⟨hliteral, hmembers⟩ := Json.document_literal text
  -- members that neither the key nor its frame knows make an object, so they have values
  have hvalues : ∀ {base held record r}, shape.assemble base held record = .ok r →
      ∀ m ∈ held, ∃ v, m.2.toValue = .ok v := by
    intro base held record r hassemble m hm
    obtain ⟨extra, hextra, -⟩ := bind_eq_ok.mp hassemble
    exact exists_value_of_toFields hextra ({ m.1 with isText := true }, m.2)
      (List.mem_map.mpr ⟨m, hm, rfl⟩)
  obtain ⟨entries, record, frame, held, hvalue, hown, hbase, htexts, hfields, hassemble⟩ :=
    FlatShape.read_took written_slots KeyFrame.written_slots (by decide) hvalues hliteral hmembers
      hread
  obtain ⟨extra, hextra, hrest⟩ := bind_eq_ok.mp hassemble
  obtain rfl := pure_eq_ok.mp hrest
  rw [map_asText htexts, hfields] at hextra
  exact ⟨_, Whole.read_eq_ok.mpr ⟨hvalue, htrailing⟩,
    canonical_of_took hk hown hbase (Except.ok.inj hextra).symm⟩

theorem allMembers_kept (hk : k.Sound) : ∀ m ∈ k.allMembers, m.2.Kept (depthLimit - 1) := by
  intro m hm
  rw [allMembers_eq, List.mem_append, List.mem_append] at hm
  rcases hm with (hframe | hown) | hextra
  · exact KeyFrame.members_kept hk.frame _ m hframe
  · obtain ⟨o, ho, hm⟩ := List.mem_filterMap.mp hown
    obtain ⟨s, hv⟩ : ∃ s, m.2 = .text s := by
      rcases List.mem_pair.mp ho with rfl | rfl
      · exact KeyFrame.optionalText_cases _ k.plugin m hm
      · exact KeyFrame.optionalText_cases _ k.method m hm
    exact hv ▸ .text s
  · exact hk.kept m hextra

/-- The object that a snippet denotes. -/
theorem read_snippet (hk : k.Sound)
    (hfloats : ∀ m ∈ k.extra, ∀ x, Value.Contains (.float x) m.2 → ReadsBack x) :
    Json.read Reading.value k.snippet = .ok (.record k.object) := by
  obtain ⟨node, hholds, hread⟩ := read_pretty (toJson_readable hk hfloats)
  rw [snippet, hread]
  rw [toJson_eq] at hholds
  cases hholds with
  | record hmembers =>
    exact Reading.value_record (by decide) (hmembers.denotes (allMembers_kept hk))

/-! ### What a snippet says -/

/-- The canonical form of an object, name by name. -/
def canonicalForm (object : String → Option Meaning) (name : String) : Option Meaning :=
  if name ∈ ["row", "col"] then some ((object name).getD (.number 0))
  else if name ∈ ["width", "height"] then some ((object name).getD (.number 1))
  else if name ∈ ["label", "shiftUpLabel", "shiftDownLabel", "pluginName", "methodName"] then
    (object name).bind Meaning.nonNull?
  -- the symbol has two names, and is written under the first one
  else if name = "symbol" then
    ((object "symbol").or (object "symbolName")).bind Meaning.nonNull?
  else if name = "symbolName" then none
  else object name

/-- Under a name that the key knows, only integers and texts are written. -/
theorem plain_of_lookup (hk : k.Sound) {name : String} (hname : name ∈ declaredNames) {v : Value}
    (h : k.object.lookup name = some v) : v.Plain := by
  rcases List.mem_append.mp hname with hown | hframe
  · rw [lookup_own hk hown, written_eq] at h
    split_ifs at h
    all_goals
      obtain ⟨s, -, rfl⟩ := Option.map_eq_some_iff.mp h
      exact .text s
  · rw [lookup_frame hk hframe, KeyFrame.written_eq] at h
    split_ifs at h
    iterate 4
      · obtain rfl := Option.some_inj.mp h
        exact .int _
    all_goals
      obtain ⟨s, -, rfl⟩ := Option.map_eq_some_iff.mp h
      exact .text s

theorem declaredNames_cases : ∀ name ∈ declaredNames,
    name ∈ ["row", "col"] ∨ name ∈ ["width", "height"] ∨
      name ∈ ["label", "shiftUpLabel", "shiftDownLabel", "pluginName", "methodName"] ∨
      name = "symbol" ∨ name = "symbolName" := by decide

theorem plain_of_nonNull? {o : Option Value}
    (h : ∀ v, o.bind Value.nonNull? = some v → v.Plain) : ∀ v ∈ o, v.Plain := by
  rintro v rfl
  cases v with
  | null => exact .null
  | _ => exact h _ rfl

/-- What is read under a name that the key knows is an integer, a text or `null`. -/
theorem plain_of_canonical {fields written : Fields} (h : Canonical fields written)
    (hwritten : ∀ name ∈ declaredNames, ∀ v, written.lookup name = some v → v.Plain) :
    ∀ name ∈ declaredNames, ∀ v ∈ fields.lookup name, v.Plain := by
  have hgetD : ∀ {name standard v}, name ∈ declaredNames →
      written.lookup name = some ((fields.lookup name).getD standard) →
      v ∈ fields.lookup name → v.Plain := by
    intro name standard v hname hlookup hv
    refine hwritten name hname v ?_
    rw [hlookup, Option.mem_def.mp hv, Option.getD_some]
  obtain ⟨hone, hsymbol, -⟩ := h.symbol
  have hboth := plain_of_nonNull? (hsymbol ▸ hwritten "symbol" (by decide))
  intro name hname v hv
  rcases declaredNames_cases name hname with hgroup | hgroup | hgroup | rfl | rfl
  · exact hgetD hname (h.position name hgroup) hv
  · exact hgetD hname (h.span name hgroup) hv
  · exact plain_of_nonNull? (h.optional name hgroup ▸ hwritten name hname) v hv
  · exact hboth v (by rw [Option.mem_def.mp hv]; rfl)
  · rcases hone with hnone | hnone
    · exact hboth v (by rw [hnone, Option.none_or]; exact hv)
    · rw [hnone] at hv
      cases hv

/-- Under a name that the key knows, it is written as the canonical form says. -/
theorem meaning_of_canonical {fields written : Fields} (h : Canonical fields written)
    (hplain : ∀ name ∈ declaredNames, ∀ v ∈ fields.lookup name, v.Plain)
    {said : String → Option Meaning}
    (hsaid : ∀ name ∈ declaredNames, said name = (fields.lookup name).map Value.meaning) :
    ∀ name ∈ declaredNames, (written.lookup name).map Value.meaning = canonicalForm said name := by
  have hnonNull : ∀ {o : Option Value}, (∀ v ∈ o, v.Plain) →
      (o.bind Value.nonNull?).map Value.meaning =
        (o.map Value.meaning).bind Meaning.nonNull? := by
    intro o ho
    cases o with
    | none => rfl
    | some v => exact (ho v rfl).nonNull?_meaning.symm
  have hgetD : ∀ (o : Option Value) (n : ℤ), (some (o.getD (.int n))).map Value.meaning =
      some ((o.map Value.meaning).getD (.number n)) := by
    intro o n
    cases o with
    | none => rw [Option.getD_none, Option.map_some, Value.meaning]; rfl
    | some v => rfl
  intro name hname
  rw [canonicalForm]
  split_ifs with hposition hspan hoptional hsymbol hother
  · rw [h.position name hposition, hsaid name hname]
    exact_mod_cast hgetD _ 0
  · rw [h.span name hspan, hsaid name hname]
    exact_mod_cast hgetD _ 1
  · rw [h.optional name hoptional, hsaid name hname]
    exact hnonNull (hplain name hname)
  · subst hsymbol
    rw [h.symbol.2.1, hsaid "symbol" hname, hsaid "symbolName" (by decide), ← Option.map_or]
    refine hnonNull fun v hv => ?_
    rcases Option.or_eq_some_iff.mp hv with hv | ⟨-, hv⟩
    · exact hplain "symbol" hname v hv
    · exact hplain "symbolName" (by decide) v hv
  · rw [hother, h.symbol.2.2]
    rfl
  · rcases declaredNames_cases name hname with hgroup | hgroup | hgroup | hgroup | hgroup
    · exact absurd hgroup hposition
    · exact absurd hgroup hspan
    · exact absurd hgroup hoptional
    · exact absurd hgroup hsymbol
    · exact absurd hgroup hother

/-- Under a name that the key does not know, the canonical form says what the object says. -/
theorem canonicalForm_kept (object : String → Option Meaning) {name : String}
    (h : name ∉ declaredNames) : canonicalForm object name = object name := by
  have hposition : ∀ name ∈ ["row", "col"], name ∈ declaredNames := by decide
  have hspan : ∀ name ∈ ["width", "height"], name ∈ declaredNames := by decide
  have hoptional : ∀ name ∈ ["label", "shiftUpLabel", "shiftDownLabel", "pluginName",
    "methodName"], name ∈ declaredNames := by decide
  rw [canonicalForm, if_neg (mt (hposition name) h), if_neg (mt (hspan name) h),
    if_neg (mt (hoptional name) h)]
  have hsymbol : name ≠ "symbol" := by
    rintro rfl
    exact h (by decide)
  have hother : name ≠ "symbolName" := by
    rintro rfl
    exact h (by decide)
  rw [if_neg hsymbol, if_neg hother]

/-- The text of a snippet says what it is written with, name by name. -/
theorem source_snippet (hk : k.Sound)
    (hfloats : ∀ m ∈ k.extra, ∀ x, Value.Contains (.float x) m.2 → ReadsBack x) :
    ∃ written, Json.source k.snippet = some (.record written) ∧
      ∀ name, (lastNamed name written).map Source.meaning =
        (k.allMembers.lookup name).map Value.meaning := by
  obtain ⟨s, hsource, hmeaning⟩ := source_written Spacing.blank_lines (toJson_readable hk hfloats)
  have htoJson : k.toJson = .record k.allMembers := rfl
  rw [htoJson, Value.meaning] at hmeaning
  obtain ⟨written, rfl, hnames⟩ := Source.exists_record hmeaning
  refine ⟨written, hsource, fun name => ?_⟩
  rw [hnames, memberMeanings_eq, lastNamed_map, lastNamed_of_nodup (allMembers_nodup hk)]

/-- What a snippet that is written with these members hands back of a text with this source. -/
structure HandsBack (k : PluginKey) (source : List (String × Source)) (members : Fields) :
    Prop where
  snippet : k.snippet = pretty (.record members)
  names : (members.map Prod.fst).Nodup
  /-- The symbol had one of its two names. -/
  symbol : lastNamed "symbol" source = none ∨ lastNamed "symbolName" source = none
  /-- It is the canonical form of what the text said, as far as the numbers that are kept survive. -/
  meaning : ∀ name, (members.lookup name).map Value.meaning =
      canonicalForm (fun name => (lastNamed name source).map Source.meaning) name ↔
    (name ∉ declaredNames → ∀ s, lastNamed name source = some s → s.Survives)
  /-- Whether it survived or not, what is kept is what a reader made of it. -/
  kept : ∀ name ∉ declaredNames, members.lookup name = (lastNamed name source).bind Source.value?

/-- A snippet that says what it is written with, and is the same text again when it is read and
written. -/
structure Settled (k : PluginKey) (members : Fields) : Prop where
  said : ∃ written, Json.source k.snippet = some (.record written) ∧
    ∀ name, (lastNamed name written).map Source.meaning = (members.lookup name).map Value.meaning
  read : Json.read Reading.value k.snippet = .ok (.record (Fields.ofMembers members))
  key : ofSnippet k.snippet = .ok k
  again : (ofSnippet k.snippet).map snippet = .ok k.snippet

/-- The snippet of a key that was read from a text says the canonical form of what the text said, as
far as the numbers that it keeps survive being read; and the snippet of what is read from it is the
same text again. -/
theorem snippet_canonical {text : String} (h : ofSnippet text = .ok k) :
    ∃ source members, Json.source text = some (.record source) ∧ k.HandsBack source members ∧
      ((∀ m ∈ k.extra, ∀ x, Value.Contains (.float x) m.2 → ReadsBack x) →
        k.Settled members) := by
  have hk : k.Sound := read_ensures read_sound h
  obtain ⟨fields, hread, hcanonical⟩ := read_canonical h
  -- between the text and what was read stands the source of the text
  obtain ⟨s, hsource, hvalue⟩ := source_of_read hread
  obtain ⟨source, rfl, hrel⟩ := Source.value_record hvalue
  have hplain := plain_of_canonical hcanonical fun name hname v => plain_of_lookup hk hname
  have hmembers : ∀ name, k.allMembers.lookup name = k.object.lookup name := by
    intro name
    rw [object, Fields.lookup_ofMembers, lastNamed_of_nodup (allMembers_nodup hk)]
  refine ⟨source, k.allMembers, hsource, ⟨rfl, allMembers_nodup hk, ?_, fun name => ?_,
    fun name hname => ?_⟩, fun hfloats => ?_⟩
  · refine hcanonical.symbol.1.imp (fun hnone => ?_) fun hnone => ?_
    · exact eq_none_of_rel (hrel "symbol") hnone
    · exact eq_none_of_rel (hrel "symbolName") hnone
  · rw [hmembers]
    by_cases hname : name ∈ declaredNames
    · -- only integers and texts were read there, and those survive
      refine iff_of_true ?_ fun hnot => absurd hname hnot
      exact meaning_of_canonical hcanonical hplain
        (fun name hname => meaning_of_plain (hrel name) (hplain name hname)) name hname
    · rw [hcanonical.kept name hname, canonicalForm_kept _ hname, meaning_map_eq_iff (hrel name)]
      exact ⟨fun h _ => h, fun h => h hname⟩
  · rw [hmembers, hcanonical.kept name hname, eq_bind_of_rel (hrel name)]
  · have hback := ofSnippet_snippet hk hfloats
    exact ⟨source_snippet hk hfloats, read_snippet hk hfloats, hback, by rw [hback]; rfl⟩

/-- Repeated names, the other name of the symbol, `null`, and a nested number with a point. -/
theorem snippet_canonical_repeated_names :
    let text := "\x7b\"z\":1,\"symbolName\":\"s\",\"label\":null,\"col\":3," ++
      "\"z\":\x7b\"b\":null,\"a\":[2.5],\"b\":0\x7d,\"pluginName\":\"p\"\x7d"
    let kept : Value := .record [("a", .list [.float 2.5]), ("b", .int 0)]
    let key : PluginKey :=
      ⟨{ KeyFrame.blank with col := 3, symbol := some "s" }, some "p", none, [("z", kept)]⟩
    ofSnippet text = .ok key ∧
      ∃ source written, Json.source text = some (.record source) ∧
        Json.source key.snippet = some (.record written) ∧
        (∀ name, (lastNamed name written).map Source.meaning =
          canonicalForm (fun name => (lastNamed name source).map Source.meaning) name) ∧
        (ofSnippet key.snippet).map snippet = .ok key.snippet := by
  intro text kept key
  have hread : ofSnippet text = .ok key := by decide +kernel
  have hfloat : ReadsBack 2.5 := ⟨_, _, rfl⟩
  have hfloats : ∀ m ∈ key.extra, ∀ x, Value.Contains (.float x) m.2 → ReadsBack x := by
    intro m hm x hx
    obtain rfl := List.mem_singleton.mp hm
    rcases hx with _ | _ | ⟨hmember, hx⟩
    rcases List.mem_pair.mp hmember with rfl | rfl
    · rcases hx with _ | ⟨hitem, hx⟩
      obtain rfl := List.mem_singleton.mp hitem
      cases hx
      exact hfloat
    · cases hx
  have hsource : Json.source text = some (.record [("z", .number ⟨false, ['1'], none, none⟩),
      ("symbolName", .text "s"), ("label", .null), ("col", .number ⟨false, ['3'], none, none⟩),
      ("z", .record [("b", .null), ("a", .list [.number ⟨false, ['2'], some ['5'], none⟩]),
        ("b", .number ⟨false, ['0'], none, none⟩)]), ("pluginName", .text "p")]) := by
    subst text
    cbv
  have hdecimal : NumberParts.Survives ⟨false, ['2'], some ['5'], none⟩ := by
    have hscan : scanNumber ⟨0, floatText 2.5⟩ =
        .ok (⟨false, ['2'], some ['5'], none⟩, ⟨3, []⟩) := by decide +kernel
    exact .inr ⟨2.5, by decide +kernel, by rw [written?, hscan]⟩
  obtain ⟨source, members, htext, hhands, hsettled⟩ := snippet_canonical hread
  obtain rfl := Source.record.inj (Option.some_inj.mp (hsource.symm.trans htext))
  obtain ⟨written, hwritten, hsaid⟩ := (hsettled hfloats).said
  refine ⟨hread, _, written, hsource, hwritten, fun name => (hsaid name).trans
    ((hhands.meaning name).mpr fun hname s hs => ?_), (hsettled hfloats).again⟩
  have hword : ∀ {digit}, digit ∈ ['0', '1', '3'] →
      (Source.number ⟨false, [digit], none, none⟩).Survives := by
    intro digit hdigit
    refine .number (.inl (NumberParts.isWord_whole.mpr ?_))
    simp only [List.mem_cons, List.not_mem_nil, or_false] at hdigit
    rcases hdigit with rfl | rfl | rfl <;> decide
  have hmem := mem_of_lastNamed hs
  simp only [List.mem_cons, Prod.mk.injEq, List.not_mem_nil, or_false] at hmem
  rcases hmem with ⟨-, rfl⟩ | ⟨-, rfl⟩ | ⟨-, rfl⟩ | ⟨-, rfl⟩ | ⟨-, rfl⟩ | ⟨-, rfl⟩
  · exact hword (by decide)
  · exact .text "s"
  · exact .null
  · exact hword (by decide)
  · refine .record fun name s hs => ?_
    have hmem := mem_of_lastNamed hs
    simp only [List.mem_cons, Prod.mk.injEq, List.not_mem_nil, or_false] at hmem
    rcases hmem with ⟨-, rfl⟩ | ⟨-, rfl⟩ | ⟨-, rfl⟩
    · exact .null
    · exact .list (by simpa using .number hdecimal)
    · exact hword (by decide)
  · exact .text "p"

set_option maxRecDepth 8000 in
/-- An integer beyond sixty-four bits is kept for the plugin as a double, so another number is handed
back than the one that was written. -/
theorem snippet_rounded :
    let text := "\x7b\"pluginName\":\"p\",\"methodName\":\"m\",\"id\":18446744073709551617\x7d"
    ∃ key source written, ofSnippet text = .ok key ∧
      (∀ m ∈ key.extra, ∀ x, Value.Contains (.float x) m.2 → ReadsBack x) ∧
      Json.source text = some (.record source) ∧
      Json.source key.snippet = some (.record written) ∧ "id" ∉ declaredNames ∧
      (lastNamed "id" source).map Source.meaning = some (.number 18446744073709551617) ∧
      (lastNamed "id" written).map Source.meaning = some (.number 18446744073709552000) := by
  intro text
  let x : Float := 18446744073709551616.0
  let key : PluginKey := ⟨KeyFrame.blank, some "p", some "m", [("id", .float x)]⟩
  have hread : ofSnippet text = .ok key := by decide +kernel
  have hscan : scanNumber ⟨0, floatText x⟩ =
      .ok (⟨false, ['1'], some ['8', '4', '4', '6', '7', '4', '4', '0', '7', '3', '7', '0', '9',
        '5', '5', '2'], some ⟨false, ['1', '9'], 20⟩⟩, ⟨22, []⟩) := by decide +kernel
  have hfloats : ∀ m ∈ key.extra, ∀ y, Value.Contains (.float y) m.2 → ReadsBack y := by
    intro m hm y hy
    obtain rfl := List.mem_singleton.mp hm
    cases hy
    exact ⟨_, _, readNumber_of_scan hscan (by decide +kernel)⟩
  have hsource : Json.source text = some (.record [("pluginName", .text "p"),
      ("methodName", .text "m"),
      ("id", .number ⟨false, ['1', '8', '4', '4', '6', '7', '4', '4', '0', '7', '3', '7', '0', '9',
        '5', '5', '1', '6', '1', '7'], none, none⟩)]) := by
    subst text
    cbv
  have hlookup : key.allMembers.lookup "id" = some (.float x) := by decide +kernel
  obtain ⟨written, hwritten, hsaid⟩ := source_snippet (read_ensures read_sound hread) hfloats
  refine ⟨key, _, written, hread, hfloats, hsource, hwritten, by decide, ?_, ?_⟩
  · have hlast : ∀ {a b c : Source}, lastNamed "id" [("pluginName", a), ("methodName", b),
        ("id", c)] = some c := by
      intro a b c
      rfl
    rw [hlast, Option.map_some, Source.meaning, NumberParts.value_whole]
    have hwhole : wholeValue false ['1', '8', '4', '4', '6', '7', '4', '4', '0', '7', '3', '7', '0',
      '9', '5', '5', '1', '6', '1', '7'] = 18446744073709551617 := by decide +kernel
    rw [hwhole]
    norm_num
  · rw [hsaid, hlookup, Option.map_some, meaning_float.mpr]
    have hdigits : ofDigits ['1', '8', '4', '4', '6', '7', '4', '4', '0', '7', '3', '7', '0', '9',
      '5', '5', '2'] = 18446744073709552 := by decide +kernel
    have hpower : ofDigits ['1', '9'] = 19 := by decide
    rw [written?, hscan]
    norm_num [NumberParts.value, hdigits, hpower]

end PluginKey

end KeyLayout
