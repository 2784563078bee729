/-
What changes in a tree.

Making directories does not touch what was there before, even when it fails on the way, and all
that is new are directories on the way up from the path (`makeDirectories_makes`).  Writing changes
one file, that the path leads to, or makes it, and puts the text or its front into it
(`write_cases`).  Renaming either fails and changes nothing, or moves what is under the one name to
the other one (`rename_cases`).

A path is `Alone` if it is no link and its file has no other name.  A file that is written alone
beside another path and then moved to its place leaves everything else as it was (`Replaced`),
unless the one path leads to the other (`Apart`); that is never so where the path is no link
(`Alone.apart`), as in a tree without links (`LinkFree.alone`).
-/
import KeyLayout.Proofs.FileTree.Walk

namespace KeyLayout.FileTree

open FilePath

variable {tree tree' tree'' : FileTree} {name : FileName} {path : FilePath}

/-! ### New directories -/

/-- The other tree has at most some directories more, where nothing was before. -/
structure Grows (tree tree' : FileTree) : Prop where
  workingDirectory : tree'.workingDirectory = tree.workingDirectory
  entry : ∀ name, tree'.named? name = tree.named? name ∨
    tree.named? name = none ∧ tree'.named? name = some .directory
  content : ∀ id, tree'.content id = tree.content id

theorem Grows.refl (tree : FileTree) : tree.Grows tree := ⟨rfl, fun _ => .inl rfl, fun _ => rfl⟩

theorem Grows.trans (h : tree.Grows tree') (h' : tree'.Grows tree'') : tree.Grows tree'' where
  workingDirectory := h'.workingDirectory.trans h.workingDirectory
  entry name := by
    rcases h.entry name with hsame | ⟨hnone, hnew⟩
    · rw [← hsame]
      exact h'.entry name
    · refine .inr ⟨hnone, ?_⟩
      rcases h'.entry name with hsame | ⟨hnone', -⟩
      · rw [hsame, hnew]
      · rw [hnew] at hnone'
        cases hnone'
  content id := (h'.content id).trans (h.content id)

theorem Grows.keeps (h : tree.Grows tree') : tree.Keeps tree' := by
  refine .of_others h.workingDirectory fun name => ?_
  rcases h.entry name with hsame | ⟨hnone, hnew⟩
  · exact .inl hsame
  · simp [hnone, hnew, NoLink]

/-- What was there is the same as before. -/
theorem Grows.there (h : tree.Grows tree') {entry : FileEntry}
    (hentry : tree.named? name = some entry) :
    tree'.named? name = some entry := by
  rcases h.entry name with hsame | ⟨hnone, -⟩
  · rw [hsame, hentry]
  · rw [hentry] at hnone
    cases hnone

/-- What is there and is no directory was there before. -/
theorem Grows.was_there (h : tree.Grows tree') {entry : FileEntry} (hne : entry ≠ .directory)
    (hentry : tree'.named? name = some entry) : tree.named? name = some entry := by
  rcases h.entry name with hsame | ⟨-, hnew⟩
  · rw [← hsame, hentry]
  · rw [hentry] at hnew
    exact absurd (Option.some.inj hnew) hne

theorem Grows.put_directory (h : tree.named? name = none) :
    tree.Grows (tree.put name .directory) where
  workingDirectory := rfl
  entry other := by
    rw [named?_put (by simp [h])]
    by_cases hsame : other = name
    · rw [if_pos hsame, hsame]
      exact .inr ⟨h, rfl⟩
    · rw [if_neg hsame]
      exact .inl rfl
  content _ := rfl

/-- The other tree has at most some directories more, where the path leads and on the way up from
it. -/
structure Makes (tree : FileTree) (path : FilePath) (tree' : FileTree) : Prop
    extends tree.Grows tree' where
  made : ∀ name, tree'.named? name ≠ tree.named? name →
    ∃ above, UpFrom path above ∧ tree'.locateEntry above = .ok ⟨name, some .directory⟩

theorem Makes.refl (tree : FileTree) (path : FilePath) : tree.Makes path tree :=
  ⟨.refl tree, fun _ hne => absurd rfl hne⟩

theorem Makes.trans (h : tree.Makes path tree') (h' : tree'.Makes path tree'') :
    tree.Makes path tree'' where
  toGrows := h.toGrows.trans h'.toGrows
  made name hne := by
    by_cases hnew : tree'.named? name = tree.named? name
    · exact h'.made name (hnew ▸ hne)
    · -- what the first change made is still found along the same path after the second one
      obtain ⟨above, hup, hplace⟩ := h.made name hnew
      have hdirectory := (Reached.of_locateEntry hplace).entry
      refine ⟨above, hup, ?_⟩
      rw [locateEntry_keeps h'.keeps hplace, Place.inside, h'.keeps.directory name hdirectory.symm]

/-- Directories on the way up from the parent are on the way up from the path. -/
theorem Makes.of_parent {parent : FilePath} (hparent : parent? path = some parent)
    (h : tree.Makes parent tree') : tree.Makes path tree' where
  toGrows := h.toGrows
  made name hne := by
    obtain ⟨above, hup, hplace⟩ := h.made name hne
    exact ⟨above, .parent hparent hup, hplace⟩

/-- Making one directory fails and changes nothing, or there is a new directory. -/
theorem makeDirectory_makes (tree : FileTree) (path : FilePath) :
    tree.Makes path (tree.makeDirectory path).1 ∧
      ∀ e, (tree.makeDirectory path).2 = .error e → (tree.makeDirectory path).1 = tree := by
  rw [makeDirectory]
  cases hplace : tree.locateEntry path with
  | error e => exact ⟨.refl tree path, fun _ _ => rfl⟩
  | ok place =>
    dsimp only
    split
    · exact ⟨.refl tree path, fun _ _ => rfl⟩
    · rename_i hentry
      have hnone : tree.named? place.name = none :=
        (Reached.of_locateEntry hplace).entry.symm.trans hentry
      have hgrows := Grows.put_directory hnone
      have hput := named?_put (show tree.named? place.name ≠ some .directory by simp [hnone])
        .directory
      refine ⟨⟨hgrows, fun name hne => ?_⟩, nofun⟩
      by_cases hsame : name = place.name
      · refine ⟨path, .here path, ?_⟩
        rw [locateEntry_keeps hgrows.keeps hplace, Place.inside, hput, if_pos rfl, hsame]
      · rw [hput, if_neg hsame] at hne
        exact absurd rfl hne

theorem makeDirectoriesUpTo_makes (tree : FileTree) (path : FilePath) (bound : Nat) :
    tree.Makes path (tree.makeDirectoriesUpTo path bound).1 := by
  induction bound generalizing path with
  | zero => exact .refl tree path
  | succ bound ih =>
    obtain ⟨hmakes, hfails⟩ := makeDirectory_makes tree path
    rw [makeDirectoriesUpTo]
    split
    · exact .refl tree path
    split
    · rename_i hmade
      rwa [hmade] at hmakes
    · rename_i unchanged hmissing
      obtain rfl : unchanged = tree :=
        (congrArg Prod.fst hmissing).symm.trans (hfails _ (congrArg Prod.snd hmissing))
      split
      · exact .refl _ path
      -- the parent is made first, and then the directory is tried once more
      · rename_i parent hpath
        have hparent := (ih parent).of_parent hpath
        split
        · rename_i hmade
          rwa [hmade] at hparent
        · rename_i between hmade
          rw [hmade] at hparent
          have hagain := hparent.trans (makeDirectory_makes between path).1
          split
          · rename_i hmade'
            rwa [hmade'] at hagain
          · rename_i hmade'
            rwa [hmade'] at hagain
    · rename_i hmade
      rwa [hmade] at hmakes

/-- Whatever comes of it, making directories only adds directories on the way up from the path. -/
theorem makeDirectories_makes (tree : FileTree) (path : FilePath) :
    tree.Makes path (tree.makeDirectories path).1 :=
  makeDirectoriesUpTo_makes tree path _

/-! ### Writing -/

/-- The file with the number `id`, under the name `here` that the path leads to, is filled anew; it
may be a new one, and nothing else changes. -/
structure Written (tree : FileTree) (path : FilePath) (here : FileName) (id : Nat)
    (content : RawText) (tree' : FileTree) : Prop where
  leads : tree.locate path = .ok ⟨here, tree.named? here⟩
  file : tree.named? here = some (.file id) ∨
    tree.named? here = none ∧ ∀ name, tree.named? name ≠ some (.file id)
  workingDirectory : tree'.workingDirectory = tree.workingDirectory
  entry : ∀ name, tree'.named? name = if name = here then some (.file id) else tree.named? name
  content : ∀ other, tree'.content other = if other = id then content else tree.content other

/-- As much of a text as there is room for is put into a file. -/
theorem fill_cases (tree : FileTree) (id : Nat) (text : RawText) :
    ∃ n, (tree.fill id text).1 = tree.setContent id ⟨text.bytes.take n⟩ ∧
      ((tree.fill id text).2 = .ok () → (⟨text.bytes.take n⟩ : RawText) = text) := by
  have hwhole : (⟨text.bytes.take text.bytes.length⟩ : RawText) = text :=
    congrArg RawText.mk List.take_length
  rw [fill]
  split
  · exact ⟨text.bytes.length, by rw [hwhole], fun _ => hwhole⟩
  · split
    · exact ⟨text.bytes.length, by rw [hwhole], fun _ => hwhole⟩
    · exact ⟨_, rfl, nofun⟩

/-- Writing fails and changes nothing, or a file has the text or its front in it; it has the whole
text if writing succeeds. -/
theorem write_cases (tree : FileTree) (path : FilePath) (text : RawText) :
    (∃ e, tree.write path text = (tree, .error e)) ∨ ∃ here id n,
      Written tree path here id ⟨text.bytes.take n⟩ (tree.write path text).1 ∧
        ((tree.write path text).2 = .ok () → (⟨text.bytes.take n⟩ : RawText) = text) := by
  rw [write]
  cases hplace : tree.locate path with
  | error e => exact .inl ⟨e, rfl⟩
  | ok place =>
    obtain ⟨here, entry⟩ := place
    obtain rfl : entry = tree.named? here := (Reached.of_locate hplace).entry
    dsimp only
    split
    · rename_i hnone
      obtain ⟨n, hfill, hwhole⟩ := fill_cases (tree.put here (.file tree.freshId)) tree.freshId text
      refine .inr ⟨here, tree.freshId, n, ?_, hwhole⟩
      rw [hfill]
      exact ⟨hplace, .inr ⟨hnone, named?_ne_freshId tree⟩, rfl,
        named?_put (show tree.named? here ≠ some .directory by simp [hnone]) _,
        content_setContent (tree.put here _) _ _⟩
    · rename_i id hfile
      obtain ⟨n, hfill, hwhole⟩ := fill_cases tree id text
      refine .inr ⟨here, id, n, ?_, hwhole⟩
      rw [hfill]
      refine ⟨hplace, .inl hfile, rfl, fun name => ?_, content_setContent tree id _⟩
      split
      · rename_i hsame
        rw [hsame, ← hfile]
        rfl
      · rfl
    · exact .inl ⟨_, rfl⟩

section written

variable {here : FileName} {id : Nat} {content : RawText}

theorem Written.not_directory (h : Written tree path here id content tree') :
    tree.named? here ≠ some .directory := by
  rcases h.file with hfile | ⟨hnone, -⟩
  · simp [hfile]
  · simp [hnone]

theorem Written.noLink (h : Written tree path here id content tree') :
    NoLink (tree.named? here) := by
  rcases h.file with hfile | ⟨hnone, -⟩
  · simp [hfile, NoLink]
  · simp [hnone, NoLink]

/-- No other name has the file that is written, unless it had it before. -/
theorem Written.eq_here (h : Written tree path here id content tree')
    (hsingle : tree.named? here = some (.file id) → tree.named? name = some (.file id) →
      name = here) (hname : tree.named? name = some (.file id)) : name = here := by
  rcases h.file with hfile | ⟨-, hfresh⟩
  · exact hsingle hfile hname
  · exact absurd hname (hfresh name)

theorem Written.keeps (h : Written tree path here id content tree') : tree.Keeps tree' := by
  refine .of_others h.workingDirectory fun name => ?_
  by_cases hname : name = here
  · subst hname
    rw [h.entry, if_pos rfl]
    exact .inr ⟨h.not_directory, h.noLink, by simp [NoLink]⟩
  · rw [h.entry, if_neg hname]
    exact .inl rfl

/-- Seen from afterwards the tree has the same directories and links. -/
theorem Written.keeps_back (h : Written tree path here id content tree') : tree'.Keeps tree := by
  refine .of_others h.workingDirectory.symm fun name => ?_
  by_cases hname : name = here
  · subst hname
    rw [h.entry, if_pos rfl]
    exact .inr ⟨by simp, by simp [NoLink], h.noLink⟩
  · rw [h.entry, if_neg hname]
    exact .inl rfl

theorem Written.leads_there (h : Written tree path here id content tree') :
    tree'.locate path = .ok ⟨here, some (.file id)⟩ := by
  rw [locate_keeps h.keeps h.leads, Place.inside, h.entry, if_pos rfl]

end written

/-! ### Renaming -/

/-- Something is moved from one name to another, in place of what was there. -/
theorem named?_move {here there : FileName} (hhere : tree.named? here ≠ some .directory)
    (hthere : tree.named? there ≠ some .directory) (hne : here ≠ there) (entry : FileEntry)
    (name : FileName) : named? ((tree.remove here).put there entry) name =
      if name = there then some entry else if name = here then none else tree.named? name := by
  rw [named?_put, named?_remove hhere]
  rwa [named?_remove hhere, if_neg (Ne.symm hne)]

theorem trimEnd_of_not_endsInSlash (h : endsInSlash path = false) : trimEnd path = path := by
  rw [endsInSlash, beq_eq_false_iff_ne] at h
  cases hlast : path.bytes.getLast? with
  | none =>
    obtain rfl : path = "" := congrArg RawText.mk (List.getLast?_eq_none_iff.mp hlast)
    rfl
  | some c => exact trimEnd_of_last hlast fun hc => h (hlast.trans (congrArg some hc))

/-- Renaming fails and changes nothing, or it moves what is under the one name to the other one, in
place of anything but a directory; two names of one file both stay. -/
theorem rename_cases (tree : FileTree) (source target : FilePath) :
    (∃ e, tree.rename source target = (tree, .error e)) ∨
    ∃ here there entry, tree.locateEntry source = .ok here ∧ tree.locateEntry target = .ok there ∧
      here.entry = some entry ∧ entry ≠ .directory ∧ there.entry ≠ some .directory ∧
      trimEnd target = target ∧ tree.rename source target =
        (if here.entry = there.entry ∧ entry.id?.isSome then tree
          else (tree.remove here.name).put there.name entry, .ok ()) := by
  rw [rename]
  split
  · exact .inl ⟨_, rfl⟩
  · exact .inl ⟨_, rfl⟩
  · rename_i here there hhere hthere
    split
    · exact .inl ⟨_, rfl⟩
    split
    · exact .inl ⟨_, rfl⟩
    · exact .inl ⟨_, rfl⟩
    · rename_i entry hdirectory hentry
      split
      · exact .inl ⟨_, rfl⟩
      rename_i hslash
      split
      · exact .inl ⟨_, rfl⟩
      rename_i hfree
      rw [Bool.not_eq_true, Bool.or_eq_false_iff] at hslash
      refine .inr ⟨here, there, entry, hhere, hthere, hentry, ?_, hfree,
        trimEnd_of_not_endsInSlash hslash.2, ?_⟩
      · rintro rfl
        exact hdirectory rfl
      · split <;> rfl

/-! ### Questions -/

/-- What stands under a path is what stands under the name it leads to. -/
theorem lookup_eq_ok {entry : FileEntry} :
    tree.lookup path = .ok entry ↔ ∃ name, tree.locate path = .ok ⟨name, some entry⟩ := by
  rw [lookup]
  cases tree.locate path with
  | error e => simp
  | ok place =>
    obtain ⟨name, here⟩ := place
    cases here <;> simp

theorem Keeps.lookup (h : tree.Keeps tree') {place : Place} {entry : FileEntry}
    (hplace : tree.locate path = .ok place) (hentry : tree'.named? place.name = some entry) :
    tree'.lookup path = .ok entry := by
  refine lookup_eq_ok.mpr ⟨place.name, ?_⟩
  rw [locate_keeps h hplace, Place.inside, hentry]

theorem Grows.lookup (h : tree.Grows tree') {entry : FileEntry}
    (hpath : tree.lookup path = .ok entry) : tree'.lookup path = .ok entry := by
  obtain ⟨name, hplace⟩ := lookup_eq_ok.mp hpath
  exact h.keeps.lookup hplace (h.there (Reached.of_locate hplace).entry.symm)

theorem exists?_eq_false (h : tree.locate path = .ok ⟨name, none⟩) :
    tree.exists? path = false := by
  rw [exists?, lookup, h]

theorem read_eq_ok {id : Nat} {text : String} (h : tree.locate path = .ok ⟨name, some (.file id)⟩)
    (hcontent : tree.content id = text) : tree.read path = .ok text := by
  rw [FileTree.read, lookup_eq_ok.mpr ⟨name, h⟩]
  dsimp only
  rw [hcontent, RawText.text?_ofString]

/-- Whether a path leads to a file is decided by where it leads. -/
theorem isFile_iff : tree.isFile path = true ↔
    ∃ name id, tree.locate path = .ok ⟨name, some (.file id)⟩ := by
  have hlookup : tree.isFile path = true ↔ ∃ id, tree.lookup path = .ok (.file id) := by
    rw [isFile]
    split <;> simp_all
  rw [hlookup]
  simp only [lookup_eq_ok]
  exact exists_comm

theorem isDirectory_iff : tree.isDirectory path = true ↔
    ∃ name, tree.locate path = .ok ⟨name, some .directory⟩ := by
  have hlookup : tree.isDirectory path = true ↔ tree.lookup path = .ok .directory := by
    rw [isDirectory]
    split <;> simp_all
  rw [hlookup, lookup_eq_ok]

theorem Keeps.isDirectory (h : tree.Keeps tree') (hpath : tree.isDirectory path = true) :
    tree'.isDirectory path = true := by
  obtain ⟨name, hplace⟩ := isDirectory_iff.mp hpath
  have hentry := h.directory name (Reached.of_locate hplace).entry.symm
  refine isDirectory_iff.mpr ⟨name, ?_⟩
  rw [locate_keeps h hplace, Place.inside, hentry]

theorem Grows.isFile (h : tree.Grows tree') (hpath : tree.isFile path = true) :
    tree'.isFile path = true := by
  obtain ⟨name, id, hplace⟩ := isFile_iff.mp hpath
  have hentry := h.there (Reached.of_locate hplace).entry.symm
  refine isFile_iff.mpr ⟨name, id, ?_⟩
  rw [locate_keeps h.keeps hplace, Place.inside, hentry]

/-! ### Paths apart from each other -/

/-- The path does not end in a link. -/
def NoLinkAt (tree : FileTree) (path : FilePath) : Prop :=
  ∀ place, tree.locateEntry path = .ok place → NoLink place.entry

/-- A path that does not end in a link, and whose file has no other name. -/
structure Alone (tree : FileTree) (path : FilePath) : Prop where
  noLink : tree.NoLinkAt path
  single : ∀ place id, tree.locateEntry path = .ok place → place.entry = some (.file id) →
    ∀ name, tree.named? name = some (.file id) → name = place.name

/-- What is written under the source alone does not stand where the target leads, and the target is
not looked up along a link that stands under it. -/
structure Apart (tree : FileTree) (source target : FilePath) : Prop extends tree.Alone source where
  elsewhere : ∀ here there, tree.locateEntry source = .ok here → here.entry ≠ some .directory →
    tree.locate target = .ok there → there.name ≠ here.name
  stays : ∀ there, tree.locateEntry target = .ok there → there.entry ≠ some .directory →
    (tree.remove there.name).locateEntry target = .ok ⟨there.name, none⟩

/-- A path that leads to no directory has no slash at its end. -/
theorem trimEnd_of_locate {place : Place} (h : tree.locate path = .ok place)
    (hentry : place.entry ≠ some .directory) : trimEnd path = path := by
  obtain ⟨front, last, hsplit, hfront, hlast⟩ := exists_front path.bytes
  obtain rfl : path = ⟨front ++ last⟩ := congrArg RawText.mk hsplit
  by_cases hne : last = []
  · subst hne
    -- the last step stays in the directory before it
    obtain ⟨own, hown, hsame⟩ := (locate_eq_ok.mp h).2.own
    obtain ⟨above, -, hstep⟩ := (leads_front hfront hlast (isAbsolute_front hfront hlast)).mp hown
    have hdirectory : own.entry = some .directory :=
      Classical.not_not.mp fun hno => (isName_of_step hlast hstep hno).ne_nil rfl
    rw [← hsame (by simp [hdirectory, NoLink])] at hentry
    exact absurd hdirectory hentry
  · exact trimEnd_append front hne hlast

/-- Where a path that is no link leads is its own name. -/
theorem NoLinkAt.own (h : tree.NoLinkAt path) {place : Place} (hplace : tree.locate path = .ok place)
    (hentry : place.entry ≠ some .directory) : tree.locateEntry path = .ok place := by
  obtain ⟨own, hown, hsame⟩ := own_of_locate (trimEnd_of_locate hplace hentry) hplace
  rw [hown, hsame (h own hown)]

section written

variable {here : FileName} {id : Nat} {content : RawText}

/-- The file that is written has the name of the path. -/
theorem Alone.written (halone : tree.Alone path) (h : Written tree path here id content tree') :
    tree.locateEntry path = .ok ⟨here, tree.named? here⟩ ∧
      ∀ name, tree.named? name = some (.file id) → name = here := by
  have hown := halone.noLink.own h.leads h.not_directory
  exact ⟨hown, fun name => h.eq_here fun hfile => halone.single _ id hown hfile name⟩

theorem Written.alone (h : Written tree path here id content tree') (halone : tree.Alone path) :
    tree'.Alone path := by
  obtain ⟨hown, hsingle⟩ := halone.written h
  have hown' : tree'.locateEntry path = .ok ⟨here, some (.file id)⟩ := by
    rw [locateEntry_keeps h.keeps hown, Place.inside, h.entry, if_pos rfl]
  refine ⟨fun place hplace => ?_, fun place id' hplace hid name hname => ?_⟩
  · obtain rfl : ⟨here, some (.file id)⟩ = place := Except.ok.inj (hown'.symm.trans hplace)
    simp [NoLink]
  · obtain rfl : ⟨here, some (.file id)⟩ = place := Except.ok.inj (hown'.symm.trans hplace)
    obtain rfl : id = id' := FileEntry.file.inj (Option.some.inj hid)
    by_cases hsame : name = here
    · exact hsame
    · rw [h.entry, if_neg hsame] at hname
      exact hsingle name hname

end written

/-- What is left when a text was written beside a path and then moved to its place: the text is in
the file under the name `there`, nothing is under the name `here`, where it was written, and all
else is as before. -/
structure Replaced (tree : FileTree) (source target : FilePath) (text : RawText)
    (here there : FileName) (id : Nat) (tree' : FileTree) : Prop where
  leads : tree.locateEntry target = .ok ⟨there, tree.named? there⟩
  free : tree.named? there ≠ some .directory
  file : tree.named? here = some (.file id) ∨ tree.named? here = none
  single : ∀ name, tree.named? name = some (.file id) → name = here
  written : tree'.locate target = .ok ⟨there, some (.file id)⟩
  gone : tree'.locate source = .ok ⟨here, none⟩
  workingDirectory : tree'.workingDirectory = tree.workingDirectory
  entry : ∀ name, tree'.named? name =
    if name = there then some (.file id) else if name = here then none else tree.named? name
  content : ∀ other, tree'.content other = if other = id then text else tree.content other

section beside

variable {target : FilePath} {extension : String} {here there : FileName} {id : Nat} {text : RawText}
  (hdot : dot ∈ (RawText.ofString extension).bytes)
  (hslash : slash ∉ (RawText.ofString extension).bytes)
  (hlong : 2 ≤ (RawText.ofString extension).bytes.length)

include hdot hslash hlong

/-- Beside a path that is no link there is room for a file of its own. -/
theorem Alone.apart (halone : tree.Alone (withExtension target extension))
    (htarget : tree.NoLinkAt target) : tree.Apart (withExtension target extension) target where
  toAlone := halone
  elsewhere here there hhere hfree hthere hsame := by
    have hentry : there.entry ≠ some .directory := by
      rwa [(Reached.of_locate hthere).entry, hsame, ← (Reached.of_locateEntry hhere).entry]
    exact sibling_name hdot hslash hlong (htarget.own hthere hentry) hentry hhere hsame.symm
  stays there hthere hentry := by
    have hentry' : tree.named? there.name = there.entry := (Reached.of_locateEntry hthere).entry.symm
    have hremove := named?_remove (hentry' ▸ hentry)
    have hkeeps : tree.Keeps (tree.remove there.name) := by
      refine .of_others rfl fun name => ?_
      rw [hremove]
      by_cases hname : name = there.name
      · rw [if_pos hname, hname, hentry']
        exact .inr ⟨hentry, htarget there hthere, nofun⟩
      · rw [if_neg hname]
        exact .inl rfl
    rw [locateEntry_keeps hkeeps hthere, Place.inside, hremove, if_pos rfl]

/-- A file that was written alone is moved to its place. -/
theorem Alone.moved (halone : tree.Alone (withExtension target extension)) {written : FileTree}
    (hwrite : Written tree (withExtension target extension) here id text written)
    (hrename : written.rename (withExtension target extension) target = (tree', .ok ())) :
    ∃ there, tree.locateEntry target = .ok ⟨there, tree.named? there⟩ ∧
      tree.named? there ≠ some .directory ∧ here ≠ there ∧ trimEnd target = target ∧
      tree' = (written.remove here).put there (.file id) := by
  obtain ⟨hhere, hsingle⟩ := halone.written hwrite
  rcases rename_cases written (withExtension target extension) target with ⟨e, hfails⟩ |
      ⟨place, there, moved, hplace, hthere, hfile, -, hfree, htrim, hmoved⟩
  · rw [hrename] at hfails
    cases hfails
  -- what is moved is the file that was just written
  have hplace' := locateEntry_keeps hwrite.keeps hhere
  rw [Place.inside, hwrite.entry, if_pos rfl] at hplace'
  obtain rfl : ⟨here, some (.file id)⟩ = place := Except.ok.inj (hplace'.symm.trans hplace)
  obtain rfl : .file id = moved := Option.some.inj hfile
  have hne : here ≠ there.name := sibling_name hdot hslash hlong hthere hfree hplace
  have hentry : there.entry = tree.named? there.name := by
    rw [(Reached.of_locateEntry hthere).entry, hwrite.entry, if_neg (Ne.symm hne)]
  rw [hentry] at hfree hmoved
  have hother : ¬ (some (.file id) = tree.named? there.name ∧ (FileEntry.file id).id?.isSome) :=
    fun h => hne (hsingle there.name h.1.symm).symm
  rw [if_neg hother, hrename, Prod.mk.injEq] at hmoved
  exact ⟨there.name, locateEntry_keeps hwrite.keeps_back hthere, hfree, hne, htrim, hmoved.1⟩

/-- A file is replaced by one that is written beside it first. -/
theorem Apart.replaced (hapart : tree.Apart (withExtension target extension) target)
    {written : FileTree} (hwrite : Written tree (withExtension target extension) here id text written)
    (hrename : written.rename (withExtension target extension) target = (tree', .ok ())) :
    ∃ there, Replaced tree (withExtension target extension) target text here there id tree' := by
  -- the two names and what the tree looks like are known from the write and from the move
  obtain ⟨hhere, hsingle⟩ := hapart.written hwrite
  obtain ⟨there, hthere, hfree, hne, htrim, rfl⟩ := hapart.moved hdot hslash hlong hwrite hrename
  have hentry : ∀ name, named? ((written.remove here).put there (.file id)) name =
      if name = there then some (.file id) else if name = here then none else tree.named? name := by
    intro name
    rw [named?_move (by simp [hwrite.entry]) (by rwa [hwrite.entry, if_neg (Ne.symm hne)]) hne,
      hwrite.entry]
    split_ifs <;> rfl
  -- the target is still looked up in the same directory, and so is what was written beside it
  let bare := tree.remove there
  have hremove : ∀ name, bare.named? name = if name = there then none else tree.named? name :=
    named?_remove hfree
  have hkeeps : bare.Keeps ((written.remove here).put there (.file id)) := by
    refine .of_others hwrite.workingDirectory fun name => ?_
    rw [hentry, hremove]
    split_ifs with hthere hhere
    · simp [NoLink]
    · subst hhere
      exact .inr ⟨hwrite.not_directory, hwrite.noLink, by simp [NoLink]⟩
    · exact .inl rfl
  have hbare : bare.locateEntry target = .ok ⟨there, none⟩ := hapart.stays _ hthere hfree
  have hbeside := sibling_moves hslash hlong hthere hbare hfree rfl hhere
  have hwritten := locateEntry_keeps hkeeps hbare
  have hgone := locateEntry_keeps hkeeps hbeside
  rw [Place.inside, hentry, if_pos rfl] at hwritten
  rw [Place.inside, Place.inside, hentry, if_neg hne, if_pos rfl] at hgone
  have htrim' := trimEnd_of_locate hwrite.leads hwrite.not_directory
  exact ⟨there, hthere, hfree, hwrite.file.imp_right And.left, hsingle,
    locate_of_own htrim hwritten (by simp [NoLink]),
    locate_of_own htrim' hgone (by simp [NoLink]), hwrite.workingDirectory, hentry, hwrite.content⟩

end beside

section replaced

variable {source target : FilePath} {here there : FileName} {id : Nat} {text : RawText}

theorem Replaced.ne (h : Replaced tree source target text here there id tree') : here ≠ there := by
  intro hsame
  have hgone := (Reached.of_locate h.gone).entry
  rw [hsame, ← (Reached.of_locate h.written).entry] at hgone
  cases hgone

theorem Replaced.read (h : Replaced tree source target text here there id tree') {content : String}
    (htext : text = content) : tree'.read target = .ok content := by
  refine read_eq_ok h.written ?_
  rw [h.content, if_pos rfl, htext]

/-- Other files are still there, with the same in them. -/
theorem Replaced.other (h : Replaced tree source target text here there id tree') {entry : FileEntry}
    (hhere : name ≠ here) (hthere : name ≠ there) (hentry : tree.named? name = some entry) :
    tree'.named? name = some entry ∧
      ∀ other, entry = .file other → tree'.content other = tree.content other := by
  refine ⟨by rw [h.entry, if_neg hthere, if_neg hhere, hentry], ?_⟩
  rintro other rfl
  have hother : other ≠ id := by
    rintro rfl
    exact hhere (h.single name hentry)
  rw [h.content, if_neg hother]

/-- If it was no link that was replaced, all links are kept. -/
theorem Replaced.keeps (h : Replaced tree source target text here there id tree')
    (hlink : NoLink (tree.named? there)) : tree.Keeps tree' := by
  refine .of_others h.workingDirectory fun name => ?_
  rw [h.entry]
  split_ifs with hthere hhere
  · subst hthere
    exact .inr ⟨h.free, hlink, by simp [NoLink]⟩
  · subst hhere
    rcases h.file with hfile | hnone
    · simp [hfile, NoLink]
    · exact .inl hnone.symm
  · exact .inl rfl

/-- What was a file is still one, unless it was where the text was written first. -/
theorem Replaced.isFile (h : Replaced tree source target text here there id tree')
    (hkeeps : tree.Keeps tree') (hpath : tree.isFile path = true) :
    tree'.isFile path = true ↔ tree'.locate path ≠ tree'.locate source := by
  obtain ⟨name, held, hplace⟩ := isFile_iff.mp hpath
  have hheld : tree.named? name = some (.file held) := (Reached.of_locate hplace).entry.symm
  rw [isFile_iff, locate_keeps hkeeps hplace, h.gone, Place.inside, h.entry]
  by_cases hhere : name = here
  · subst hhere
    rw [if_neg h.ne, if_pos rfl]
    simp
  · rw [if_neg hhere, hheld]
    refine iff_of_true ?_ (by simp [hhere])
    split_ifs
    · exact ⟨name, id, rfl⟩
    · exact ⟨name, held, rfl⟩

end replaced

/-! ### Trees without links -/

/-- No name is a link, and no two names stand for one file. -/
structure LinkFree (tree : FileTree) : Prop where
  noLink : ∀ name, NoLink (tree.named? name)
  single : ∀ name other id, tree.named? name = some (.file id) →
    tree.named? other = some (.file id) → other = name

/-- It is enough to look at what is listed. -/
theorem LinkFree.of_entries
    (hfile : ∀ entry ∈ tree.entries, entry.2 = .directory ∨ entry.2.id?.isSome)
    (hsingle : ∀ entry ∈ tree.entries, ∀ other ∈ tree.entries, entry.2.id?.isSome →
      entry.2.id? = other.2.id? → other.1 = entry.1) : tree.LinkFree where
  noLink name target hlink := by
    rcases hfile _ (mem_entries hlink nofun) with hdirectory | hid
    · cases hdirectory
    · cases hid
  single name other id hname hother :=
    hsingle _ (mem_entries hname nofun) _ (mem_entries hother nofun) rfl rfl

theorem LinkFree.noLinkAt (h : tree.LinkFree) (path : FilePath) : tree.NoLinkAt path :=
  fun place hplace => (Reached.of_locateEntry hplace).entry ▸ h.noLink place.name

theorem LinkFree.alone (h : tree.LinkFree) (path : FilePath) : tree.Alone path where
  noLink := h.noLinkAt path
  single place id hplace hid name hname :=
    h.single place.name name id ((Reached.of_locateEntry hplace).entry.symm.trans hid) hname

theorem LinkFree.grows (h : tree.LinkFree) (hgrows : tree.Grows tree') : tree'.LinkFree where
  noLink name := hgrows.keeps.noLink (h.noLink name)
  single name other id hname hother :=
    h.single name other id (hgrows.was_there nofun hname) (hgrows.was_there nofun hother)

end KeyLayout.FileTree
