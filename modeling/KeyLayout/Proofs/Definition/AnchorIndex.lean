/-
Reporting conflicts from an index over the anchors.

To report conflicts in the order in which their anchors first appear, one walks over the keys once
and keeps two things in step (`AnchorIndex`): the list of the anchors met so far, and a hash map
that holds the keys of each of them.  At the end the list is walked, and each group is taken out of
the map.  After any keys, the list has their anchors, each once, and the map has a group for these
anchors and for no others (`AnchorIndex.Of`).  So there is a group for each anchor on the list when
its turn comes (`takeOut_eq`).

What is reported does not depend on how it is found: only one list of conflicts names the shared
anchors, as they first appear, with all their keys (`Report.unique`), and that is the list of
conflicts (`conflicts_report`).
-/
import KeyLayout.Proofs.Definition.Conflicts

namespace KeyLayout

open AnchorGroup (keysAt keysAt_concat keysAt_eq_nil length_keysAt eraseDups_concat
  nodup_eraseDups)

section Report

/-- What a list of conflicts should say about some keys: which anchors are shared, in the order in
which they first appear, and the names of all keys with such an anchor. -/
structure Report (specs : List KeySpec) (report : List Conflict) : Prop where
  anchors : ∀ a, a ∈ report.map Conflict.anchor ↔ 2 ≤ (specs.map KeySpec.anchor).count a
  firstMet : (report.map Conflict.anchor).Pairwise fun a b =>
    (specs.map KeySpec.anchor).idxOf a < (specs.map KeySpec.anchor).idxOf b
  keys : ∀ c ∈ report,
    c.keys = (specs.filter (·.anchor = c.anchor)).map fun spec => spec.identifier.getD ""

variable {specs : List KeySpec} {report report' : List Conflict}

theorem Report.anchors_nodup (h : Report specs report) : (report.map Conflict.anchor).Nodup := by
  refine h.firstMet.imp fun hlt heq => ?_
  exact Nat.lt_irrefl _ (heq ▸ hlt)

/-- Two reports on the same keys are the same. -/
theorem Report.unique (h : Report specs report) (h' : Report specs report') : report = report' := by
  have hperm : (report.map Conflict.anchor).Perm (report'.map Conflict.anchor) :=
    (List.perm_ext_iff_of_nodup h.anchors_nodup h'.anchors_nodup).mpr fun a =>
      (h.anchors a).trans (h'.anchors a).symm
  have hanchors : report.map Conflict.anchor = report'.map Conflict.anchor :=
    hperm.eq_of_pairwise (fun _ _ _ _ hab hba => absurd hab (Nat.lt_asymm hba)) h.firstMet
      h'.firstMet
  -- a conflict is determined by its anchor
  have hgiven : ∀ {l : List Conflict}, Report specs l →
      l = (l.map Conflict.anchor).map fun a => ⟨a, namesAt specs a⟩ := by
    intro l hl
    rw [List.map_map]
    refine (List.map_id l).symm.trans (List.map_congr_left fun c hc => ?_)
    exact congrArg (Conflict.mk c.anchor) (hl.keys c hc)
  rw [hgiven h, hgiven h', hanchors]

/-- Anchors stay in the order in which they first appear. -/
theorem eraseDups_firstMet (anchors : List Cell) :
    anchors.eraseDups.Pairwise fun a b => anchors.idxOf a < anchors.idxOf b := by
  induction anchors using List.reverseRecOn with
  | nil => exact List.Pairwise.nil
  | append_singleton anchors a ih =>
    have hkeep : ∀ b ∈ anchors.eraseDups, (anchors ++ [a]).idxOf b = anchors.idxOf b := by
      intro b hb
      rw [List.idxOf_append, if_pos (List.mem_eraseDups.mp hb)]
    have hold : anchors.eraseDups.Pairwise fun b c =>
        (anchors ++ [a]).idxOf b < (anchors ++ [a]).idxOf c := by
      refine ih.imp_of_mem fun hb hc hlt => ?_
      rwa [hkeep _ hb, hkeep _ hc]
    rw [eraseDups_concat]
    split
    · exact hold
    · rename_i hnew
      refine List.pairwise_append.mpr ⟨hold, List.pairwise_singleton _ _, fun b hb c hc => ?_⟩
      have hb' : anchors.idxOf b < anchors.length :=
        List.idxOf_lt_length_of_mem (List.mem_eraseDups.mp hb)
      rw [List.mem_singleton.mp hc, hkeep b hb, List.idxOf_append, if_neg hnew]
      omega

theorem report_conflicts (specs : List KeySpec) : Report specs (conflicts specs) where
  anchors a := by
    have hlength : (namesAt specs a).length = (specs.map KeySpec.anchor).count a := by
      rw [namesAt, List.length_map, length_keysAt]
    constructor
    · intro ha
      obtain ⟨c, hc, rfl⟩ := List.mem_map.mp ha
      obtain ⟨hshared, hkeys⟩ := mem_conflicts.mp hc
      rwa [hkeys, hlength] at hshared
    · intro hshared
      rw [← hlength] at hshared
      have hmem : ⟨a, namesAt specs a⟩ ∈ conflicts specs := mem_conflicts.mpr ⟨hshared, rfl⟩
      exact List.mem_map_of_mem hmem
  firstMet := by
    have hid : (Conflict.anchor ∘ fun a => ⟨a, namesAt specs a⟩) = id := rfl
    rw [conflicts_eq, List.map_map, hid, List.map_id]
    exact (eraseDups_firstMet _).filter _
  keys c hc := (mem_conflicts.mp hc).2

/-- The keys at different anchors, one anchor after the other. -/
theorem flatMap_keysAt_perm (specs : List KeySpec) {anchors : List Cell} (h : anchors.Nodup) :
    (anchors.flatMap (keysAt specs)).Perm (specs.filter (·.anchor ∈ anchors)) := by
  induction anchors with
  | nil => simp
  | cons a anchors ih =>
    obtain ⟨hnot, hnodup⟩ := List.nodup_cons.mp h
    have hsplit := List.filter_append_perm (·.anchor = a) (specs.filter (·.anchor ∈ a :: anchors))
    have hfirst : (specs.filter (·.anchor ∈ a :: anchors)).filter (·.anchor = a) =
        keysAt specs a := by
      rw [List.filter_filter, keysAt]
      refine List.filter_congr fun s _ => ?_
      by_cases hs : s.anchor = a <;> simp [hs]
    have hrest : (specs.filter (·.anchor ∈ a :: anchors)).filter (fun s => !decide (s.anchor = a)) =
        specs.filter (·.anchor ∈ anchors) := by
      rw [List.filter_filter]
      refine List.filter_congr fun s _ => ?_
      by_cases hs : s.anchor = a <;> simp [hs, hnot]
    rw [hfirst, hrest] at hsplit
    rw [List.flatMap_cons]
    exact ((ih hnodup).append_left _).trans hsplit

/-- A report names the keys that share their anchor, and no others. -/
theorem Report.keys_perm (h : Report specs report) :
    (report.flatMap Conflict.keys).Perm
      ((specs.filter fun spec => 2 ≤ (specs.map KeySpec.anchor).count spec.anchor).map
        fun spec => spec.identifier.getD "") := by
  have hkeys : report.flatMap Conflict.keys =
      ((report.map Conflict.anchor).flatMap (keysAt specs)).map
        fun spec => spec.identifier.getD "" := by
    rw [List.flatMap_map, List.map_flatMap]
    exact List.flatMap_congr fun c hc => h.keys c hc
  have hshared : specs.filter (·.anchor ∈ report.map Conflict.anchor) =
      specs.filter fun spec => 2 ≤ (specs.map KeySpec.anchor).count spec.anchor :=
    List.filter_congr fun s _ => decide_eq_decide.mpr (h.anchors s.anchor)
  rw [hkeys, ← hshared]
  exact (flatMap_keysAt_perm specs h.anchors_nodup).map _

end Report

instance : Hashable Cell := ⟨fun c => mixHash (hash c.row) (hash c.col)⟩

/-- The anchors met so far, in the order in which they were met, and the keys at each of them. -/
structure AnchorIndex where
  order : List Cell
  groups : Std.HashMap Cell (List KeySpec)

namespace AnchorIndex

/-- Adds a key to the group of its anchor.  An anchor without a group is put on the list and gets
one. -/
def add (index : AnchorIndex) (spec : KeySpec) : AnchorIndex :=
  match index.groups[spec.anchor]? with
  | some group => { index with groups := index.groups.insert spec.anchor (group ++ [spec]) }
  | none => ⟨index.order ++ [spec.anchor], index.groups.insert spec.anchor [spec]⟩

def ofSpecs (specs : List KeySpec) : AnchorIndex := specs.foldl add ⟨[], ∅⟩

/-- Takes the groups of some anchors out of the map, one after the other; `none` stands for an
anchor that has no group when its turn comes. -/
def takeOut (groups : Std.HashMap Cell (List KeySpec)) : List Cell → List (Option AnchorGroup)
  | [] => []
  | a :: order => (groups[a]?.map fun group => ⟨a, group⟩) :: takeOut (groups.erase a) order

/-- The conflicts that the index shows; anchors without a group are passed over. -/
def conflicts (index : AnchorIndex) : List Conflict :=
  (takeOut index.groups index.order).filterMap fun group => group.bind AnchorGroup.conflict?

/-- What the index holds after some keys: their anchors, each once, and for these anchors and no
others the group of their keys. -/
structure Of (specs : List KeySpec) (index : AnchorIndex) : Prop where
  order : index.order = (specs.map KeySpec.anchor).eraseDups
  groups : ∀ a, index.groups[a]? =
    if a ∈ specs.map KeySpec.anchor then some (keysAt specs a) else none

variable {specs : List KeySpec} {index : AnchorIndex}

theorem Of.add (h : Of specs index) (spec : KeySpec) : Of (specs ++ [spec]) (index.add spec) := by
  have hmem : ∀ a, a ∈ (specs ++ [spec]).map KeySpec.anchor ↔
      spec.anchor = a ∨ a ∈ specs.map KeySpec.anchor := by
    intro a
    rw [List.map_append, List.mem_append, or_comm, List.map_singleton, List.mem_singleton,
      eq_comm]
  -- whichever group is put at the anchor, the others stay as they are
  have hgroups : ∀ a, (index.groups.insert spec.anchor (keysAt specs spec.anchor ++ [spec]))[a]? =
      if a ∈ (specs ++ [spec]).map KeySpec.anchor then some (keysAt (specs ++ [spec]) a)
      else none := by
    intro a
    rw [Std.HashMap.getElem?_insert, keysAt_concat, h.groups]
    by_cases ha : spec.anchor = a
    · subst ha
      rw [if_pos (beq_self_eq_true _), if_pos ((hmem _).mpr (.inl rfl)), if_pos rfl]
    · simp only [hmem, beq_eq_false_iff_ne.mpr ha, ha, false_or, if_false, Bool.false_eq_true]
  have horder := eraseDups_concat (specs.map KeySpec.anchor) spec.anchor
  by_cases hmet : spec.anchor ∈ specs.map KeySpec.anchor
  · have hgroup := h.groups spec.anchor
    rw [if_pos hmet] at hgroup
    rw [if_pos hmet] at horder
    rw [AnchorIndex.add, hgroup]
    exact ⟨by rw [List.map_append, List.map_singleton, horder, h.order], hgroups⟩
  · have hgroup := h.groups spec.anchor
    rw [if_neg hmet] at hgroup
    rw [if_neg hmet] at horder
    rw [keysAt_eq_nil hmet] at hgroups
    rw [AnchorIndex.add, hgroup]
    exact ⟨by rw [List.map_append, List.map_singleton, horder, h.order], hgroups⟩

theorem of_ofSpecs (specs : List KeySpec) : Of specs (ofSpecs specs) := by
  induction specs using List.reverseRecOn with
  | nil => exact ⟨rfl, fun a => by simp [ofSpecs]⟩
  | append_singleton specs spec ih =>
    have hstep : ofSpecs (specs ++ [spec]) = (ofSpecs specs).add spec := by
      rw [ofSpecs, List.foldl_append]
      rfl
    rw [hstep]
    exact ih.add spec

/-- No group is missing when its turn comes, since no anchor comes twice. -/
theorem takeOut_eq {groups : Std.HashMap Cell (List KeySpec)} {keys : Cell → List KeySpec}
    {order : List Cell} (hnodup : order.Nodup) (hgroups : ∀ a ∈ order, groups[a]? = some (keys a)) :
    takeOut groups order = order.map fun a => some ⟨a, keys a⟩ := by
  induction order generalizing groups with
  | nil => rfl
  | cons a order ih =>
    obtain ⟨hnot, hnodup⟩ := List.nodup_cons.mp hnodup
    have hrest : ∀ b ∈ order, (groups.erase a)[b]? = some (keys b) := by
      intro b hb
      have hne : a ≠ b := fun heq => hnot (heq ▸ hb)
      rw [Std.HashMap.getElem?_erase, beq_eq_false_iff_ne.mpr hne]
      exact hgroups b (List.mem_cons_of_mem _ hb)
    rw [takeOut, hgroups a List.mem_cons_self, ih hnodup hrest]
    rfl

/-- What is taken out are the groups of the keys. -/
theorem Of.takeOut_eq (h : Of specs index) :
    takeOut index.groups index.order = (AnchorGroup.ofSpecs specs).map some := by
  rw [AnchorGroup.ofSpecs_eq, List.map_map, h.order]
  refine AnchorIndex.takeOut_eq (nodup_eraseDups _) fun a ha => ?_
  rw [h.groups, if_pos (List.mem_eraseDups.mp ha)]

theorem Of.conflicts_eq (h : Of specs index) : index.conflicts = KeyLayout.conflicts specs := by
  rw [conflicts, h.takeOut_eq, List.filterMap_map]
  rfl

end AnchorIndex

/-- **Conflicts are reported exactly and completely.**  The list of conflicts has the anchors that
occur at least twice, each once, in the order in which they first appear, with the names of all
their keys in order, and no other list has that.  All together it names the keys that share their
anchor, and no others.  The walk with a list and a hash map finds these conflicts, and finds a
group for every anchor on its list. -/
theorem conflicts_report (specs : List KeySpec) :
    (∀ report, Report specs report ↔ report = conflicts specs) ∧
      ((conflicts specs).flatMap Conflict.keys).Perm
        ((specs.filter fun spec => 2 ≤ (specs.map KeySpec.anchor).count spec.anchor).map
          fun spec => spec.identifier.getD "") ∧
      (AnchorIndex.ofSpecs specs).conflicts = conflicts specs ∧
      none ∉ AnchorIndex.takeOut (AnchorIndex.ofSpecs specs).groups
        (AnchorIndex.ofSpecs specs).order := by
  have hreport := report_conflicts specs
  have hindex := AnchorIndex.of_ofSpecs specs
  refine ⟨fun report => ⟨fun h => h.unique hreport, fun h => h ▸ hreport⟩, hreport.keys_perm,
    hindex.conflicts_eq, ?_⟩
  rw [hindex.takeOut_eq]
  intro hnone
  obtain ⟨group, -, hgroup⟩ := List.mem_map.mp hnone
  cases hgroup

end KeyLayout
