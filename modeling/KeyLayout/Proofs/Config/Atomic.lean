/-
Saving is all or nothing, as far as the file that is written first is apart.

A configuration that is not valid is not saved at all.  Otherwise directories above the path may
be made, a text is written beside the file, and then it is moved to its place.  When this breaks
off, the tree differs by new directories above the path and by what was written (`Abandoned`).

What is written goes wherever the path beside the file leads, along a link or into a file with
several names.  Only if it is alone there, and apart from the path that is meant, does a failure
spare what was under the path (`Spared`), and only then is the whole text there after a success,
with nothing left beside it and all else unchanged (`Completed`).

The main statement is `save_atomic`; what goes wrong along links is shown by `save_breaks`.
-/
import KeyLayout.Proofs.Config.SaveLoad

namespace KeyLayout.Config

open FilePath FileTree

variable {config : Config} {files left saved : FileTree} {path : FilePath} {text : String}
  {here there : FileName} {id : Nat} {content : RawText}

/-- A name that is the parent of the path, or further up. -/
def IsAbove (tree : FileTree) (path : FilePath) (name : FileName) : Prop :=
  ∃ parent above, parent? path = some parent ∧ UpFrom parent above ∧
    tree.locateEntry above = .ok ⟨name, some .directory⟩

/-- What is left of a tree when saving a configuration breaks off. -/
structure Abandoned (config : Config) (files : FileTree) (path : FilePath) (left : FileTree) :
    Prop where
  workingDirectory : left.workingDirectory = files.workingDirectory
  /-- A name has what it had before, or it is a new directory above the path, or a new file where
  the text was to be written first. -/
  names : ∀ name, left.named? name = files.named? name ∨ files.named? name = none ∧
    (IsAbove left path name ∨ ∃ id, left.locate (temporaryPath path) = .ok ⟨name, some (.file id)⟩)
  /-- A file has in it what it had before, or it has a front of the text. -/
  contents : ∀ id, left.content id = files.content id ∨ ∃ name text n,
    left.locate (temporaryPath path) = .ok ⟨name, some (.file id)⟩ ∧ config.toToml = .ok text ∧
      left.content id = ⟨(RawText.ofString text).bytes.take n⟩

/-- What was under the path is as it was, and the text was written under a name of its own. -/
structure Spared (files : FileTree) (path : FilePath) (left : FileTree) : Prop where
  target : ∀ entry, files.lookup path = .ok entry → left.lookup path = .ok entry ∧
    ∀ id, entry = .file id → left.content id = files.content id
  temporary : left.Alone (temporaryPath path)

/-- What a tree is like when a text was saved. -/
structure Completed (files : FileTree) (path : FilePath) (text : String) (saved : FileTree) :
    Prop where
  target : saved.read path = .ok text
  temporary : saved.exists? (temporaryPath path) = false
  /-- Everything else is still there, and all other files have the same in them. -/
  others : ∀ name entry, files.named? name = some entry →
    (saved.named? name = some entry ∧
      ∀ id, entry = .file id → saved.content id = files.content id) ∨
    (∃ id, saved.locate path = .ok ⟨name, some (.file id)⟩) ∨
    saved.locate (temporaryPath path) = .ok ⟨name, none⟩
  /-- Nothing is new but directories above the path. -/
  news : ∀ name, files.named? name = none → saved.named? name = none ∨
    IsAbove (makeParent files path).1 path name ∨
    ∃ id, saved.locate path = .ok ⟨name, some (.file id)⟩

/-! ### Breaking off -/

theorem IsAbove.keeps {tree tree' : FileTree} {name : FileName} (h : IsAbove tree path name)
    (hkeeps : tree.Keeps tree') : IsAbove tree' path name := by
  obtain ⟨parent, above, hparent, hup, hplace⟩ := h
  refine ⟨parent, above, hparent, hup, ?_⟩
  rw [locateEntry_keeps hkeeps hplace, Place.inside,
    hkeeps.directory name (Reached.of_locateEntry hplace).entry.symm]

/-- All that is new when directories were made is above the path. -/
theorem makeParent_names (files : FileTree) (path : FilePath) (name : FileName) :
    (makeParent files path).1.named? name = files.named? name ∨
      files.named? name = none ∧ IsAbove (makeParent files path).1 path name := by
  rcases makeParent_makes files path with hsame | ⟨parent, hparent, hmakes⟩
  · rw [hsame]
    exact .inl rfl
  · rcases hmakes.entry name with hsame | ⟨hnone, hnew⟩
    · exact .inl hsame
    · obtain ⟨above, hup, hplace⟩ := hmakes.made name (by simp [hnone, hnew])
      exact .inr ⟨hnone, parent, above, hparent, hup, hplace⟩

theorem abandoned_early (config : Config) (files : FileTree) (path : FilePath) :
    Abandoned config files path (makeParent files path).1 where
  workingDirectory := (makeParent_grows files path).workingDirectory
  names name := (makeParent_names files path name).imp_right (And.imp_right .inl)
  contents id := .inl ((makeParent_grows files path).content id)

theorem abandoned_late {n : Nat} (htext : config.toToml = .ok text)
    (h : Written (makeParent files path).1 (temporaryPath path) here id
      ⟨(RawText.ofString text).bytes.take n⟩ left) : Abandoned config files path left where
  workingDirectory := h.workingDirectory.trans (makeParent_grows files path).workingDirectory
  names name := by
    have hmade := makeParent_names files path name
    by_cases hname : name = here
    · subst hname
      rcases h.file with hfile | ⟨hnone, -⟩
      · -- the file was there before, since only directories were made
        have hwas : files.named? name = some (.file id) :=
          (makeParent_grows files path).was_there nofun hfile
        rw [h.entry, if_pos rfl, hwas]
        exact .inl rfl
      · refine .inr ⟨?_, .inr ⟨id, h.leads_there⟩⟩
        rcases hmade with hsame | ⟨hnone', -⟩
        · rw [← hsame, hnone]
        · exact hnone'
    · rw [h.entry, if_neg hname]
      exact hmade.imp_right (And.imp_right fun habove => .inl (habove.keeps h.keeps))
  contents other := by
    rw [h.content]
    by_cases hother : other = id
    · subst hother
      exact .inr ⟨here, text, n, h.leads_there, htext, if_pos rfl⟩
    · rw [if_neg hother]
      exact .inl ((makeParent_grows files path).content other)

theorem spared_early (halone : (makeParent files path).1.Alone (temporaryPath path)) :
    Spared files path (makeParent files path).1 where
  target _ hpath := ⟨(makeParent_grows files path).lookup hpath,
    fun id _ => (makeParent_grows files path).content id⟩
  temporary := halone

theorem spared_late (hapart : (makeParent files path).1.Apart (temporaryPath path) path)
    (h : Written (makeParent files path).1 (temporaryPath path) here id content left) :
    Spared files path left where
  target entry hpath := by
    obtain ⟨hhere, hsingle⟩ := hapart.written h
    obtain ⟨name, hplace⟩ := lookup_eq_ok.mp ((makeParent_grows files path).lookup hpath)
    have hentry := (Reached.of_locate hplace).entry
    -- the path leads to another name than the one that was written under, and to another file
    have hname : name ≠ here := hapart.elsewhere _ _ hhere h.not_directory hplace
    refine ⟨h.keeps.lookup hplace (by rw [h.entry, if_neg hname, ← hentry]), ?_⟩
    rintro other rfl
    have hother : other ≠ id := by
      rintro rfl
      exact hname (hsingle name hentry.symm)
    rw [h.content, if_neg hother, (makeParent_grows files path).content]
  temporary := h.alone hapart.toAlone

/-! ### Coming to the end -/

theorem completed_of_replaced
    (h : Replaced (makeParent files path).1 (temporaryPath path) path text here there id saved) :
    Completed files path text saved where
  target := h.read rfl
  temporary := exists?_eq_false h.gone
  others name entry hentry := by
    have hmade := (makeParent_grows files path).there hentry
    by_cases hthere : name = there
    · exact .inr (.inl ⟨id, hthere ▸ h.written⟩)
    by_cases hhere : name = here
    · exact .inr (.inr (hhere ▸ h.gone))
    obtain ⟨hsame, hcontent⟩ := h.other hhere hthere hmade
    refine .inl ⟨hsame, fun other hother => ?_⟩
    rw [hcontent other hother, (makeParent_grows files path).content]
  news name hnone := by
    by_cases hthere : name = there
    · exact .inr (.inr ⟨id, hthere ▸ h.written⟩)
    rw [h.entry, if_neg hthere]
    split
    · exact .inl rfl
    · rcases makeParent_names files path name with hsame | ⟨-, habove⟩
      · exact .inl (hsame.trans hnone)
      · exact .inr (.inl habove)

/-- **Saving is all or nothing, if the file that is written first is apart.**  An invalid
configuration changes nothing.  If saving fails otherwise, there are at most new directories above
the path, and a front of the text where the path beside it leads.  That path never leads to the name
that is meant.  Where the two are apart, and so in every tree without links, a failure leaves what
was under the path; and after a success the path has the whole text, nothing is left beside it, and
all other files are unchanged. -/
theorem save_atomic (config : Config) (files : FileTree) (path : FilePath) :
    let made := (makeParent files path).1
    let temporary := temporaryPath path
    (∀ e, config.check files = .error e → config.save files path = (files, .error e)) ∧
    (∀ left e, config.check files = .ok () → config.save files path = (left, .error e) →
      Abandoned config files path left ∧
      (made.Apart temporary path → Spared files path left)) ∧
    (∀ (tree : FileTree) (here there : Place), tree.locateEntry temporary = .ok here →
      tree.locateEntry path = .ok there → there.entry ≠ some .directory →
      here.name ≠ there.name) ∧
    (∀ saved, config.save files path = (saved, .ok ()) → made.Apart temporary path →
      ∃ text, config.toToml = .ok text ∧ Completed files path text saved) ∧
    (files.LinkFree → made.Apart temporary path) := by
  intro made temporary
  refine ⟨fun e hcheck => ?_, fun left e hcheck hsave => ?_,
    fun tree here there hhere hthere hentry => temporary_ne hthere hentry hhere,
    fun saved hsave hapart => ?_, fun hfree => ?_⟩
  · rw [save, hcheck]
  · have hended := save_ended config files path
    rw [hsave] at hended
    cases hended with
    | invalid hinvalid =>
      rw [hcheck] at hinvalid
      cases hinvalid
    | early =>
      exact ⟨abandoned_early config files path, fun hapart => spared_early hapart.toAlone⟩
    | late _ htext hwrite =>
      exact ⟨abandoned_late htext hwrite, fun hapart => spared_late hapart hwrite⟩
  · obtain ⟨text, here, there, id, htext, hreplaced⟩ := save_replaced hsave hapart
    exact ⟨text, htext, completed_of_replaced hreplaced⟩
  · have hmade : made.LinkFree := hfree.grows (makeParent_grows files path)
    exact apart_of_noLinkAt (hmade.alone temporary) (hmade.noLinkAt path)

/-- Three saves: a directory that the configuration names is missing; there is a directory in the
way; and the path leads along a link to another link, which is replaced by the file. -/
theorem save_atomic_three_saves :
    let files : FileTree := ⟨["home"], [(["home", "conf"], .directory),
      (["home", "conf.toml.tmp"], .file 0)], [(0, "old")], none⟩
    let linked : FileTree := ⟨["home"], [(["home", "conf"], .link "etc/."),
      (["home", "etc"], .directory), (["home", "etc", "c.toml"], .link "old.toml"),
      (["home", "etc", "old.toml"], .file 0)], [(0, "old")], none⟩
    let invalid : Config := ⟨some "missing", none, none, false⟩
    let config : Config := ⟨some "conf", none, none, true⟩
    let left := (config.save files "new/../conf").1
    let saved := (config.save linked "conf/c.toml").1
    invalid.save files "c.toml" = (files, .error (.noKeyboardsDir "missing")) ∧
      (config.save files "new/../conf").2 = .error (.notRenamed "new/../conf" .isDirectory) ∧
      Abandoned config files "new/../conf" left ∧ Spared files "new/../conf" left ∧
      left.isDirectory "new" = true ∧ left.isFile "conf.toml.tmp" = true ∧
      (["home", "etc", "c.toml.tmp"] : FileName) ≠ ["home", "etc", "c.toml"] ∧
      (config.save linked "conf/c.toml").2 = .ok () ∧
      ∃ text, config.toToml = .ok text ∧ Completed linked "conf/c.toml" text saved := by
  intro files linked invalid config left saved
  have hinvalid : invalid.check files = .error (.noKeyboardsDir "missing") := by decide +kernel
  have hcheck : config.check files = .ok () := by decide +kernel
  have hleft : config.save files "new/../conf" =
      (left, .error (.notRenamed "new/../conf" .isDirectory)) := by decide +kernel
  have hsaved : config.save linked "conf/c.toml" = (saved, .ok ()) := by decide +kernel
  have hmade : (makeParent linked "conf/c.toml").1 = linked := by decide +kernel
  have hhere : linked.locateEntry (temporaryPath "conf/c.toml") =
      .ok ⟨["home", "etc", "c.toml.tmp"], none⟩ := by decide +kernel
  have hthere : linked.locateEntry "conf/c.toml" =
      .ok ⟨["home", "etc", "c.toml"], some (.link "old.toml")⟩ := by decide +kernel
  have hfile : linked.locate "conf/c.toml" =
      .ok ⟨["home", "etc", "old.toml"], some (.file 0)⟩ := by decide +kernel
  have hstays : (linked.remove ["home", "etc", "c.toml"]).locateEntry "conf/c.toml" =
      .ok ⟨["home", "etc", "c.toml"], none⟩ := by decide +kernel
  have hapart : linked.Apart (temporaryPath "conf/c.toml") "conf/c.toml" := by
    refine ⟨⟨fun place hplace => ?_, fun place id hplace hid => ?_⟩,
      fun here there hplace _ hplace' => ?_, fun there hplace _ => ?_⟩
    · obtain rfl := Except.ok.inj (hhere.symm.trans hplace)
      nofun
    · obtain rfl := Except.ok.inj (hhere.symm.trans hplace)
      cases hid
    · obtain rfl := Except.ok.inj (hhere.symm.trans hplace)
      obtain rfl := Except.ok.inj (hfile.symm.trans hplace')
      decide
    · obtain rfl := Except.ok.inj (hthere.symm.trans hplace)
      exact hstays
  have hfree : files.LinkFree := .of_entries (by decide) (by decide)
  obtain ⟨hrefused, -⟩ := save_atomic invalid files "c.toml"
  obtain ⟨-, habandoned, -, -, hplain⟩ := save_atomic config files "new/../conf"
  obtain ⟨-, -, hbeside, hcompleted, -⟩ := save_atomic config linked "conf/c.toml"
  obtain ⟨hleft_abandoned, hspared⟩ := habandoned left _ hcheck hleft
  exact ⟨hrefused _ hinvalid, congrArg Prod.snd hleft, hleft_abandoned, hspared (hplain hfree),
    by decide +kernel, by decide +kernel, hbeside linked _ _ hhere hthere nofun,
    congrArg Prod.snd hsaved, hcompleted saved hsaved (hmade.symm ▸ hapart)⟩

/-- Saving succeeds, and then the path is a link to itself, if the file beside it is a link to it;
if that is another name of the same file, it is still there afterwards; if it is a link to any other
file, that one is overwritten.  And when the disk is full, a link beside the path lets a save that
fails spoil what was under the path.

Without any link, a save that fails can leave a directory where nothing was under the path. -/
theorem save_breaks :
    let entry : FileName × FileEntry := (["home", "config.toml"], .file 0)
    let temporary : FileName := ["home", "config.toml.tmp"]
    let save := fun files path => (Config.initial.save files path)
    let looped := save ⟨["home"], [entry, (temporary, .link "config.toml")], [(0, "old")], none⟩
      "config.toml"
    let doubled := save ⟨["home"], [entry, (temporary, .file 0)], [(0, "old")], none⟩ "config.toml"
    let led := save ⟨["home"], [entry, (temporary, .link "other"), (["home", "other"], .file 1)],
      [(0, "old"), (1, "kept")], none⟩ "config.toml"
    let full := save ⟨["home"], [entry, (temporary, .link "config.toml")], [(0, "old")], some 1⟩
      "config.toml"
    let bare : FileTree := ⟨["home"], [], [], none⟩
    let left := save bare "c.toml/../c.toml"
    (looped.2 = .ok () ∧ looped.1.read "config.toml" = .error .tooManyLinks) ∧
      (doubled.2 = .ok () ∧ doubled.1.exists? "config.toml.tmp" = true) ∧
      (led.2 = .ok () ∧ led.1.read "other" ≠ .ok "kept") ∧
      (full.2 = .error (.notWritten "config.toml.tmp" .noSpace) ∧
        full.1.read "config.toml" ≠ .ok "old") ∧
      bare.exists? "c.toml/../c.toml" = false ∧
      left.2 = .error (.notRenamed "c.toml/../c.toml" .isDirectory) ∧
      left.1.isDirectory "c.toml/../c.toml" = true := by
  decide +kernel

end KeyLayout.Config
