/-
Where a path leads in a tree, and where it leads once the tree has changed.

The walk along a path is described part by part, links included (`Leads`, `walk_eq_ok`).  It only
finds places that are `Reached`: all names above them are directories.  So in a tree that keeps the
directories and the links (`Keeps`) the path leads to the same name, whatever stands there now
(`locate_keeps`, `locateEntry_keeps`).

A path that ends in a link leads on along it, unless the link itself is meant: `own_of_locate` and
`locate_of_own` tell when that makes no difference.

What comes before the last part of a path leads to a directory, and the last part is looked up
there (`locateEntry_named`).  So with another extension the path leads to another name in the same
directory (`sibling_name`), in any tree in which the path itself does not lead elsewhere
(`sibling_moves`).
-/
import Mathlib.Tactic.SplitIfs
import KeyLayout.FileTree
import KeyLayout.Proofs.FilePath.Sibling

namespace KeyLayout.FileTree

open FilePath

variable {tree tree' : FileTree} {toEnd : Bool} {links : Nat} {place next reached : Place}
  {name other : FileName} {part : RawText} {parts : List RawText} {path : FilePath}

/-! ### What stands under a name -/

/-- What stands somewhere is no link. -/
def NoLink (entry : Option FileEntry) : Prop := ∀ target, entry ≠ some (.link target)

theorem isDirectory_above (h : name <+: tree.workingDirectory) :
    tree.named? name = some .directory := by
  unfold named?
  rw [if_pos (List.isPrefixOf_iff_prefix.mpr h)]

theorem named?_nil (tree : FileTree) : tree.named? [] = some .directory :=
  isDirectory_above List.nil_prefix

theorem not_above (h : tree.named? name ≠ some .directory) :
    ¬ name.isPrefixOf tree.workingDirectory = true :=
  fun hprefix => h (isDirectory_above (List.isPrefixOf_iff_prefix.mp hprefix))

theorem find?_filter_ne {α β : Type} [BEq α] [LawfulBEq α] {a b : α} {entries : List (α × β)}
    (h : b ≠ a) :
    (entries.filter (·.1 != a)).find? (·.1 == b) = entries.find? (·.1 == b) := by
  rw [List.find?_filter]
  congr 1
  funext entry
  by_cases hentry : entry.1 = b
  · simp [hentry, h]
  · simp [hentry]

/-- The entry of a name that is no directory may be replaced. -/
theorem named?_put (h : tree.named? name ≠ some .directory) (entry : FileEntry) (other : FileName) :
    named? (tree.put name entry) other =
      if other = name then some entry else tree.named? other := by
  by_cases hsame : other = name
  · subst hsame
    rw [if_pos rfl, named?, put, if_neg (not_above h), List.find?_cons_of_pos (by simp)]
    rfl
  · rw [if_neg hsame, named?, named?, put, List.find?_cons_of_neg (by simpa using Ne.symm hsame),
      find?_filter_ne hsame]

theorem named?_remove (h : tree.named? name ≠ some .directory) (other : FileName) :
    named? (tree.remove name) other = if other = name then none else tree.named? other := by
  by_cases hsame : other = name
  · subst hsame
    rw [if_pos rfl, named?, remove, if_neg (not_above h)]
    simp
  · rw [if_neg hsame, named?, named?, remove, find?_filter_ne hsame]

theorem content_setContent (tree : FileTree) (id : Nat) (content : RawText) (other : Nat) :
    (tree.setContent id content).content other =
      if other = id then content else tree.content other := by
  rw [FileTree.content, FileTree.content, setContent]
  by_cases hsame : other = id
  · subst hsame
    rw [if_pos rfl, List.find?_cons_of_pos (by simp)]
    rfl
  · rw [if_neg hsame, List.find?_cons_of_neg (by simpa using Ne.symm hsame), find?_filter_ne hsame]

theorem foldl_max_ge {ids : List Nat} {start n : Nat} (h : n ≤ start ∨ n ∈ ids) :
    n ≤ ids.foldl max start := by
  induction ids generalizing start with
  | nil => simpa using h
  | cons id ids ih =>
    refine ih ?_
    rcases h with h | h
    · exact .inl (Nat.le_trans h (Nat.le_max_left _ _))
    · rcases List.mem_cons.mp h with rfl | h
      · exact .inl (Nat.le_max_right _ _)
      · exact .inr h

/-- What is no directory is listed. -/
theorem mem_entries {entry : FileEntry} (h : tree.named? name = some entry)
    (hne : entry ≠ .directory) : (name, entry) ∈ tree.entries := by
  rw [named?] at h
  split at h
  · exact absurd (Option.some.inj h).symm hne
  · obtain ⟨⟨found, entry⟩, hfind, rfl⟩ := Option.map_eq_some_iff.mp h
    obtain rfl : found = name := by simpa using List.find?_some hfind
    exact List.mem_of_find?_eq_some hfind

/-- No file has the number that is given next. -/
theorem named?_ne_freshId (tree : FileTree) (name : FileName) :
    tree.named? name ≠ some (.file tree.freshId) := by
  intro h
  have hid : tree.freshId ∈ tree.entries.filterMap fun entry => entry.2.id? :=
    List.mem_filterMap.mpr ⟨_, mem_entries h nofun, rfl⟩
  have hle : tree.freshId ≤ (tree.entries.filterMap fun entry => entry.2.id?).foldl max 0 :=
    foldl_max_ge (.inr hid)
  exact Nat.not_succ_le_self _ hle

/-! ### Walks -/

/-- `Leads tree toEnd links place parts reached`: the parts lead from the one place to the other,
along at most so many links.  At the end a link is followed only if `toEnd` says so. -/
inductive Leads (tree : FileTree) (toEnd : Bool) : Nat → Place → List RawText → Place → Prop
  | here (links : Nat) (place : Place) : Leads tree toEnd links place [] place
  | step {links : Nat} {place next reached : Place} {part : RawText} {parts : List RawText}
      (hstep : tree.step place part = .ok next)
      (hstays : NoLink next.entry ∨ parts = [] ∧ toEnd = false)
      (hmore : Leads tree toEnd links next parts reached) :
      Leads tree toEnd links place (part :: parts) reached
  | link {links : Nat} {place next reached : Place} {part : RawText} {parts : List RawText}
      {target : FilePath} (hstep : tree.step place part = .ok next)
      (htarget : next.entry = some (.link target)) (hfollowed : parts = [] → toEnd = true)
      (hmore : Leads tree toEnd links (origin place.name target) (pieces target ++ parts) reached) :
      Leads tree toEnd (links + 1) place (part :: parts) reached

theorem walk_nil : tree.walk toEnd links place [] = .ok place := by
  cases links <;> rfl

theorem walk_cons_error {e : FileError} (h : tree.step place part = .error e) :
    tree.walk toEnd links place (part :: parts) = .error e := by
  cases links <;> simp [walk, walkToLink, h]

theorem walk_step (h : tree.step place part = .ok next)
    (hstays : NoLink next.entry ∨ parts = [] ∧ toEnd = false) :
    tree.walk toEnd links place (part :: parts) = tree.walk toEnd links next parts := by
  have hwalk : ∀ onward, tree.walkToLink toEnd onward place (part :: parts) =
      tree.walkToLink toEnd onward next parts := by
    intro onward
    rw [walkToLink, h]
    dsimp only
    split
    · rename_i target hlink
      rcases hstays with hno | ⟨rfl, rfl⟩
      · exact absurd hlink (hno target)
      · rfl
    · rfl
  cases links <;> exact hwalk _

/-- At a link the walk goes on from there. -/
theorem walkToLink_link {target : FilePath} (h : tree.step place part = .ok next)
    (htarget : next.entry = some (.link target)) (hfollowed : parts = [] → toEnd = true)
    (onward : FileName → FilePath → List RawText → Except FileError Place) :
    tree.walkToLink toEnd onward place (part :: parts) = onward place.name target parts := by
  have hcond : ¬ (parts.isEmpty && !toEnd) = true := by
    cases parts with
    | nil => simp [hfollowed rfl]
    | cons => simp
  rw [walkToLink, h]
  dsimp only
  rw [htarget]
  exact if_neg hcond

theorem leads_of_walk (h : tree.walk toEnd links place parts = .ok reached) :
    tree.Leads toEnd links place parts reached := by
  -- on the links that are left, and within that along the parts up to the next link
  induction links using Nat.strongRecOn generalizing place parts with
  | _ links ih =>
    induction parts generalizing place with
    | nil =>
      rw [walk_nil] at h
      cases h
      exact .here links _
    | cons part parts ihparts =>
      cases hstep : tree.step place part with
      | error e =>
        rw [walk_cons_error hstep] at h
        cases h
      | ok next =>
        by_cases hstays : NoLink next.entry ∨ parts = [] ∧ toEnd = false
        · rw [walk_step hstep hstays] at h
          exact .step hstep hstays (ihparts h)
        · -- the next place is a link that has to be followed
          rw [not_or, not_and, Bool.not_eq_false] at hstays
          obtain ⟨target, htarget⟩ : ∃ target, next.entry = some (.link target) := by
            simpa [NoLink] using hstays.1
          cases links with
          | zero =>
            rw [walk, walkToLink_link hstep htarget hstays.2] at h
            cases h
          | succ links =>
            rw [walk, walkToLink_link hstep htarget hstays.2] at h
            exact .link hstep htarget hstays.2 (ih links (Nat.lt_succ_self _) h)

theorem walk_eq_ok : tree.walk toEnd links place parts = .ok reached ↔
    tree.Leads toEnd links place parts reached := by
  refine ⟨leads_of_walk, fun h => ?_⟩
  induction h with
  | here => exact walk_nil
  | step hstep hstays _ ih => rw [walk_step hstep hstays, ih]
  | link hstep htarget hfollowed _ ih => rw [walk, walkToLink_link hstep htarget hfollowed, ih]

theorem Leads.unique {reached' : Place} (h : tree.Leads toEnd links place parts reached)
    (h' : tree.Leads toEnd links place parts reached') : reached = reached' := by
  have hwalk := walk_eq_ok.mpr h
  rw [walk_eq_ok.mpr h'] at hwalk
  exact (Except.ok.inj hwalk).symm

/-! ### Links at the end -/

/-- What is found along the last link is found, or the link itself is, if it is not followed. -/
theorem Leads.own (h : tree.Leads true links place parts reached) :
    ∃ own, tree.Leads false links place parts own ∧ (NoLink own.entry → own = reached) := by
  induction h with
  | here links place => exact ⟨place, .here links place, fun _ => rfl⟩
  | step hstep hstays _ ih =>
    obtain ⟨own, hown, hsame⟩ := ih
    exact ⟨own, .step hstep (.inl (hstays.resolve_right (by simp))) hown, hsame⟩
  | @link links place next reached part parts target hstep htarget _ _ ih =>
    cases parts with
    | nil =>
      -- the walk that does not follow the last link ends there
      refine ⟨next, .step hstep (.inr ⟨rfl, rfl⟩) (.here _ next), fun hno => ?_⟩
      exact absurd htarget (hno target)
    | cons behind parts =>
      obtain ⟨own, hown, hsame⟩ := ih
      exact ⟨own, .link hstep htarget nofun hown, hsame⟩

theorem Leads.to_end (h : tree.Leads false links place parts reached)
    (hno : NoLink reached.entry) : tree.Leads true links place parts reached := by
  induction h with
  | here => exact .here _ _
  | step hstep hstays hmore ih =>
    refine .step hstep (.inl ?_) (ih hno)
    rcases hstays with hstays | ⟨rfl, -⟩
    · exact hstays
    · cases hmore
      exact hno
  | link hstep htarget _ _ ih => exact .link hstep htarget (fun _ => rfl) (ih hno)

/-- The last part of a walk is looked up where the other ones lead. -/
theorem leads_concat {last : RawText} : tree.Leads false links place (parts ++ [last]) reached ↔
    ∃ above, tree.Leads true links place parts above ∧ tree.step above last = .ok reached := by
  constructor
  · intro h
    generalize hwhole : parts ++ [last] = whole at h
    induction h generalizing parts with
    | here => simp at hwhole
    | @step links place next reached part rest hstep hstays hmore ih =>
      cases parts with
      | nil =>
        obtain ⟨rfl, rfl⟩ := List.cons.inj hwhole
        cases hmore
        exact ⟨place, .here links place, hstep⟩
      | cons =>
        obtain ⟨rfl, rfl⟩ := List.cons.inj hwhole
        obtain ⟨above, habove, hlast⟩ := ih rfl
        exact ⟨above, .step hstep (.inl (hstays.resolve_right (by simp))) habove, hlast⟩
    | link hstep htarget hfollowed _ ih =>
      cases parts with
      | nil =>
        obtain ⟨rfl, rfl⟩ := List.cons.inj hwhole
        cases hfollowed rfl
      | cons =>
        -- the parts of the link are put in front, so the last part is still the same
        obtain ⟨rfl, rfl⟩ := List.cons.inj hwhole
        obtain ⟨above, habove, hlast⟩ := ih (List.append_assoc _ _ _)
        exact ⟨above, .link hstep htarget (fun _ => rfl) habove, hlast⟩
  · rintro ⟨above, habove, hlast⟩
    induction habove with
    | here => exact .step hlast (.inr ⟨rfl, rfl⟩) (.here _ _)
    | step hstep hstays _ ih => exact .step hstep (.inl (hstays.resolve_right (by simp))) (ih hlast)
    | link hstep htarget _ _ ih =>
      have hmore := ih hlast
      rw [List.append_assoc] at hmore
      exact .link hstep htarget (by simp) hmore

/-! ### Places -/

/-- A place that a walk can find. -/
structure Reached (tree : FileTree) (place : Place) : Prop where
  entry : place.entry = tree.named? place.name
  above : ∀ name, name <+: place.name → name ≠ place.name → tree.named? name = some .directory

theorem Reached.directory (h : tree.Reached place) (hentry : place.entry = some .directory) :
    ∀ name, name <+: place.name → tree.named? name = some .directory := by
  intro name hname
  by_cases hsame : name = place.name
  · rw [hsame, ← h.entry, hentry]
  · exact h.above name hname hsame

/-- A directory all of whose names are directories is reached. -/
theorem Reached.of_directory (h : ∀ other, other <+: name → tree.named? other = some .directory) :
    tree.Reached ⟨name, some .directory⟩ where
  entry := (h name (List.prefix_refl name)).symm
  above other hother _ := h other hother

theorem reached_origin (h : ∀ other, other <+: name → tree.named? other = some .directory)
    (path : FilePath) : tree.Reached (origin name path) := by
  refine .of_directory fun other hother => ?_
  split at hother
  · rw [List.prefix_nil.mp hother, named?_nil]
  · exact h other hother

theorem step_eq_ok (h : tree.step place part = .ok reached) :
    place.entry = some .directory ∧ (reached = place ∨
      reached = ⟨place.name.dropLast, some .directory⟩ ∨
      reached = ⟨place.name ++ [part], tree.named? (place.name ++ [part])⟩) := by
  rw [step] at h
  split at h
  · cases h
  · rename_i hentry
    refine ⟨hentry, ?_⟩
    split_ifs at h
    · exact .inl (Except.ok.inj h).symm
    · exact .inr (.inl (Except.ok.inj h).symm)
    · exact .inr (.inr (Except.ok.inj h).symm)
  · cases h

/-- One step reaches a place from a reached one. -/
theorem Reached.step (hplace : tree.Reached place) (h : tree.step place part = .ok reached) :
    tree.Reached reached := by
  obtain ⟨hentry, rfl | rfl | rfl⟩ := step_eq_ok h
  · exact hplace
  · exact .of_directory fun other hother =>
      hplace.directory hentry other (hother.trans (List.dropLast_prefix _))
  · refine ⟨rfl, fun other hother hne => ?_⟩
    rcases List.prefix_concat_iff.mp hother with hother | hother
    · exact absurd hother hne
    · exact hplace.directory hentry other hother

/-- The path of a link starts from a directory. -/
theorem Reached.origin (hplace : tree.Reached place) (h : tree.step place part = .ok next)
    (target : FilePath) : tree.Reached (origin place.name target) :=
  reached_origin (hplace.directory (step_eq_ok h).1) target

theorem Reached.leads (hplace : tree.Reached place)
    (h : tree.Leads toEnd links place parts reached) : tree.Reached reached := by
  induction h with
  | here => exact hplace
  | step hstep _ _ ih => exact ih (hplace.step hstep)
  | link hstep _ _ _ ih => exact ih (hplace.origin hstep _)

/-! ### Trees that keep the directories and the links -/

/-- Whatever is a directory in the one tree is one in the other, and both have the same links. -/
structure Keeps (tree tree' : FileTree) : Prop where
  workingDirectory : tree'.workingDirectory = tree.workingDirectory
  directory : ∀ name, tree.named? name = some .directory → tree'.named? name = some .directory
  link : ∀ name target,
    tree'.named? name = some (.link target) ↔ tree.named? name = some (.link target)

theorem Keeps.trans {tree'' : FileTree} (h : tree.Keeps tree') (h' : tree'.Keeps tree'') :
    tree.Keeps tree'' where
  workingDirectory := h'.workingDirectory.trans h.workingDirectory
  directory name hname := h'.directory name (h.directory name hname)
  link name target := (h'.link name target).trans (h.link name target)

/-- What is neither a directory nor a link may change, but not become a link. -/
theorem Keeps.of_others (hworking : tree'.workingDirectory = tree.workingDirectory)
    (h : ∀ name, tree'.named? name = tree.named? name ∨
      tree.named? name ≠ some .directory ∧ NoLink (tree.named? name) ∧ NoLink (tree'.named? name)) :
    tree.Keeps tree' where
  workingDirectory := hworking
  directory name hname := by
    rcases h name with hsame | ⟨hno, -, -⟩
    · rw [hsame, hname]
    · exact absurd hname hno
  link name target := by
    rcases h name with hsame | ⟨-, hno, hno'⟩
    · rw [hsame]
    · exact iff_of_false (hno' target) (hno target)

theorem Keeps.noLink (h : tree.Keeps tree') (hno : NoLink (tree.named? name)) :
    NoLink (tree'.named? name) :=
  fun target hentry => hno target ((h.link name target).mp hentry)

/-- A place as it is in another tree. -/
def Place.inside (place : Place) (tree : FileTree) : Place := ⟨place.name, tree.named? place.name⟩

theorem step_keeps (hkeeps : tree.Keeps tree') (hplace : tree.Reached place)
    (h : tree.step place part = .ok reached) :
    tree'.step (place.inside tree') part = .ok (reached.inside tree') := by
  obtain ⟨hentry, -⟩ := step_eq_ok h
  -- a step stays, goes up or goes down, and all three start from directories that are kept
  have hhere : tree'.named? place.name = some .directory :=
    hkeeps.directory _ (hplace.entry.symm.trans hentry)
  have hup : tree'.named? place.name.dropLast = some .directory :=
    hkeeps.directory _ (hplace.directory hentry _ (List.dropLast_prefix _))
  rw [step, hentry] at h
  rw [step, Place.inside, hhere]
  dsimp only at h ⊢
  split_ifs at h ⊢
  · cases h
    rw [Place.inside, hhere]
  · cases h
    rw [Place.inside, hup]
  · cases h
    rfl

theorem origin_inside (hkeeps : tree.Keeps tree') (target : FilePath)
    (h : tree.Reached (origin name target)) :
    (origin name target).inside tree' = origin name target := by
  have hentry : tree'.named? (origin name target).name = some .directory :=
    hkeeps.directory _ h.entry.symm
  rw [Place.inside, hentry]
  rfl

theorem Leads.keeps (hkeeps : tree.Keeps tree') (hplace : tree.Reached place)
    (h : tree.Leads toEnd links place parts reached) :
    tree'.Leads toEnd links (place.inside tree') parts (reached.inside tree') := by
  induction h with
  | here => exact .here _ _
  | step hstep hstays _ ih =>
    have hnext := hplace.step hstep
    refine .step (step_keeps hkeeps hplace hstep) ?_ (ih hnext)
    rw [hnext.entry] at hstays
    exact hstays.imp_left hkeeps.noLink
  | @link _ _ _ _ _ _ target hstep htarget hfollowed _ ih =>
    have hnext := hplace.step hstep
    have horigin := hplace.origin hstep target
    rw [hnext.entry] at htarget
    refine .link (step_keeps hkeeps hplace hstep) ((hkeeps.link _ _).mpr htarget) hfollowed ?_
    have hmore := ih horigin
    rwa [origin_inside hkeeps target horigin] at hmore

/-! ### Paths -/

theorem locate_eq_ok : tree.locate path = .ok place ↔ checkPath path = .ok () ∧
    tree.Leads true maxLinks (origin tree.workingDirectory path) (pieces path) place := by
  rw [locate, ← walk_eq_ok]
  cases checkPath path <;> simp

theorem locateEntry_eq_ok : tree.locateEntry path = .ok place ↔ checkPath path = .ok () ∧
    tree.Leads false maxLinks (origin tree.workingDirectory path) (pieces (trimEnd path)) place := by
  rw [locateEntry, ← walk_eq_ok]
  cases checkPath path <;> simp

/-- Where a path starts. -/
theorem reached_start (tree : FileTree) (path : FilePath) :
    tree.Reached (origin tree.workingDirectory path) :=
  reached_origin (fun _ => isDirectory_above) path

theorem Reached.of_locate (h : tree.locate path = .ok place) : tree.Reached place :=
  (reached_start tree path).leads (locate_eq_ok.mp h).2

theorem Reached.of_locateEntry (h : tree.locateEntry path = .ok place) : tree.Reached place :=
  (reached_start tree path).leads (locateEntry_eq_ok.mp h).2

theorem start_keeps (hkeeps : tree.Keeps tree') {place : Place}
    (h : tree.Leads toEnd links (origin tree.workingDirectory path) parts place) :
    tree'.Leads toEnd links (origin tree'.workingDirectory path) parts (place.inside tree') := by
  have hstart := reached_start tree path
  have hleads := h.keeps hkeeps hstart
  rwa [origin_inside hkeeps path hstart, ← hkeeps.workingDirectory] at hleads

/-- In a tree that keeps the directories and the links a path leads to the same name. -/
theorem locate_keeps (hkeeps : tree.Keeps tree') (h : tree.locate path = .ok place) :
    tree'.locate path = .ok (place.inside tree') := by
  obtain ⟨hcheck, hleads⟩ := locate_eq_ok.mp h
  exact locate_eq_ok.mpr ⟨hcheck, start_keeps hkeeps hleads⟩

theorem locateEntry_keeps (hkeeps : tree.Keeps tree') (h : tree.locateEntry path = .ok place) :
    tree'.locateEntry path = .ok (place.inside tree') := by
  obtain ⟨hcheck, hleads⟩ := locateEntry_eq_ok.mp h
  exact locateEntry_eq_ok.mpr ⟨hcheck, start_keeps hkeeps hleads⟩

/-- A path that leads somewhere ends in a name of its own there, or in a link. -/
theorem own_of_locate (htrim : trimEnd path = path) (h : tree.locate path = .ok place) :
    ∃ own, tree.locateEntry path = .ok own ∧ (NoLink own.entry → own = place) := by
  obtain ⟨hcheck, hleads⟩ := locate_eq_ok.mp h
  obtain ⟨own, hown, hsame⟩ := hleads.own
  exact ⟨own, locateEntry_eq_ok.mpr ⟨hcheck, htrim.symm ▸ hown⟩, hsame⟩

/-- A path that does not end in a link leads to its own name. -/
theorem locate_of_own (htrim : trimEnd path = path) (h : tree.locateEntry path = .ok place)
    (hno : NoLink place.entry) : tree.locate path = .ok place := by
  obtain ⟨hcheck, hleads⟩ := locateEntry_eq_ok.mp h
  exact locate_eq_ok.mpr ⟨hcheck, (htrim ▸ hleads).to_end hno⟩

/-! ### The last part of a path -/

section last

variable {front last : List UInt8}

/-- The place that the front of a path leads to. -/
def FrontLeads (tree : FileTree) (front : List UInt8) (above : Place) : Prop :=
  tree.Leads true maxLinks
    ⟨if front.head? == some slash then [] else tree.workingDirectory, some .directory⟩
    ((Text.pieces slash front).dropLast.map RawText.mk) above

theorem leads_front (hfront : Front front) (hlast : slash ∉ last)
    (habsolute : isAbsolute path = (front.head? == some slash)) :
    tree.Leads false maxLinks (origin tree.workingDirectory path) (pieces ⟨front ++ last⟩) place ↔
      ∃ above, tree.FrontLeads front above ∧ tree.step above ⟨last⟩ = .ok place := by
  rw [origin, habsolute, FilePath.pieces, pieces_front hfront hlast, List.map_append]
  exact leads_concat

/-- A step that does not lead to a directory is one to a name. -/
theorem isName_of_step (hslash : slash ∉ last) (h : tree.step place ⟨last⟩ = .ok reached)
    (hentry : reached.entry ≠ some .directory) : IsName last := by
  obtain ⟨hplace, -⟩ := step_eq_ok h
  rw [step, hplace] at h
  dsimp only at h
  split_ifs at h with hdot hdots
  · cases h
    exact absurd hplace hentry
  · cases h
    exact absurd rfl hentry
  · rw [not_or] at hdot
    refine ⟨⟨?_, hslash, ?_⟩, ?_⟩
    · rintro rfl
      exact hdot.1 rfl
    · rintro rfl
      exact hdot.2 rfl
    · rintro rfl
      exact hdots rfl

/-- A name is looked up in a directory. -/
theorem step_name (hlast : IsName last) : tree.step place ⟨last⟩ = .ok reached ↔
    place.entry = some .directory ∧ last.length ≤ maxNameBytes ∧
      reached = ⟨place.name ++ [⟨last⟩], tree.named? (place.name ++ [⟨last⟩])⟩ := by
  have hne : ∀ {bytes : List UInt8}, last ≠ bytes → (⟨last⟩ : RawText) ≠ ⟨bytes⟩ :=
    fun hne heq => hne (congrArg RawText.bytes heq)
  have hdot : ¬ ((⟨last⟩ : RawText) = "" ∨ (⟨last⟩ : RawText) = ".") :=
    not_or.mpr ⟨hne hlast.ne_nil, hne hlast.ne_dot⟩
  have hdots : (⟨last⟩ : RawText) ≠ ".." := hne hlast.ne_dots
  rw [step]
  split
  · simp_all
  · rename_i hentry
    rw [if_neg hdot, if_neg hdots]
    by_cases hlong : maxNameBytes < last.length
    · rw [if_pos hlong]
      exact iff_of_false nofun fun h => absurd h.2.1 (Nat.not_le.mpr hlong)
    · rw [if_neg hlong, Except.ok.injEq]
      exact ⟨fun h => ⟨hentry, Nat.not_lt.mp hlong, h.symm⟩, fun h => h.2.2.symm⟩
  · simp_all

/-- A path that does not lead to a directory ends in a name. -/
theorem exists_named (h : tree.locateEntry path = .ok place)
    (hentry : place.entry ≠ some .directory) : ∃ front last, Named path front last := by
  obtain ⟨-, hleads⟩ := locateEntry_eq_ok.mp h
  obtain ⟨front, last, hsplit, hfront, hlast⟩ := exists_front (trimEnd path).bytes
  have htrim : trimEnd path = ⟨front ++ last⟩ := congrArg RawText.mk hsplit
  rw [htrim, FilePath.pieces, pieces_front hfront hlast, List.map_append] at hleads
  obtain ⟨above, -, hstep⟩ := leads_concat.mp hleads
  exact ⟨front, last, hfront, isName_of_step hlast hstep hentry, htrim⟩

/-- A path that ends in a name is looked up in the directory that its front leads to. -/
theorem locateEntry_named (h : Named path front last) :
    tree.locateEntry path = .ok place ↔
      checkPath path = .ok () ∧ last.length ≤ maxNameBytes ∧ ∃ above, tree.FrontLeads front above ∧
        above.entry = some .directory ∧
        place = ⟨above.name ++ [⟨last⟩], tree.named? (above.name ++ [⟨last⟩])⟩ := by
  rw [locateEntry_eq_ok, h.trimEnd_eq, leads_front h.isFront h.isName.no_slash h.isAbsolute_eq]
  simp only [step_name h.isName]
  constructor
  · rintro ⟨hcheck, above, habove, hentry, hlong, hplace⟩
    exact ⟨hcheck, hlong, above, habove, hentry, hplace⟩
  · rintro ⟨hcheck, hlong, above, habove, hentry, hplace⟩
    exact ⟨hcheck, above, habove, hentry, hlong, hplace⟩

end last

/-! ### Another extension -/

section sibling

variable {extension : String} {here there there' : Place}

/-- A path that leads to no directory leads, with another extension, to another name. -/
theorem sibling_name (hdot : dot ∈ (RawText.ofString extension).bytes)
    (hslash : slash ∉ (RawText.ofString extension).bytes)
    (hlong : 2 ≤ (RawText.ofString extension).bytes.length)
    (hthere : tree.locateEntry path = .ok there) (hentry : there.entry ≠ some .directory)
    (hhere : tree.locateEntry (withExtension path extension) = .ok here) :
    here.name ≠ there.name := by
  obtain ⟨front, last, hnamed⟩ := exists_named hthere hentry
  obtain ⟨-, -, above, habove, -, rfl⟩ := (locateEntry_named hnamed).mp hthere
  obtain ⟨-, -, above', habove', -, rfl⟩ :=
    (locateEntry_named (hnamed.sibling hslash hlong)).mp hhere
  -- both names are in the same directory, and the stems of two names with a dot differ
  obtain rfl : above = above' := habove.unique habove'
  intro heq
  have hlast := (List.append_inj' heq rfl).2
  exact stem_append_ne hdot last (congrArg RawText.bytes (List.singleton_inj.mp hlast))

/-- A path that leads to the same name in another tree does so with another extension as well. -/
theorem sibling_moves (hslash : slash ∉ (RawText.ofString extension).bytes)
    (hlong : 2 ≤ (RawText.ofString extension).bytes.length)
    (hthere : tree.locateEntry path = .ok there) (hthere' : tree'.locateEntry path = .ok there')
    (hentry : there.entry ≠ some .directory) (hname : there'.name = there.name)
    (hhere : tree.locateEntry (withExtension path extension) = .ok here) :
    tree'.locateEntry (withExtension path extension) = .ok (here.inside tree') := by
  obtain ⟨front, last, hnamed⟩ := exists_named hthere hentry
  have hsibling := hnamed.sibling hslash hlong
  obtain ⟨-, -, above, habove, -, rfl⟩ := (locateEntry_named hnamed).mp hthere
  obtain ⟨-, -, above', habove', hentry', rfl⟩ := (locateEntry_named hnamed).mp hthere'
  obtain ⟨hcheck, hlast, between, hbetween, -, rfl⟩ := (locateEntry_named hsibling).mp hhere
  obtain rfl : above = between := habove.unique hbetween
  have habove_eq : above'.name = above.name := (List.append_inj' hname rfl).1
  refine (locateEntry_named hsibling).mpr ⟨hcheck, hlast, above', habove', hentry', ?_⟩
  rw [Place.inside, habove_eq]

end sibling

end KeyLayout.FileTree
