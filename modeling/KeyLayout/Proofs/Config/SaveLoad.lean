/-
Loading a configuration that was saved.

Saving goes through a few steps and can break off at each of them (`Ended`, `save_ended`).  Where the
file that is written first is `Apart` from the one that is meant, a save that succeeds changes
little in the tree (`save_replaced`): there may be more directories, there is the file itself, and
the file that was written before it is gone.

So the configuration is read from the file it was saved to (`read_saved`), and it can be loaded
from there if what it names is still there.  It is, unless the configuration names the file that was
overwritten and taken away (`load_save`).
-/
import KeyLayout.Proofs.Config.Written
import KeyLayout.Proofs.Document.Holding
import KeyLayout.Proofs.FileTree.Change

namespace KeyLayout.Config

open FilePath FileTree
open Document (bind_eq_ok ok_bind)

variable {config : Config} {files saved : FileTree} {path : FilePath}

/-! ### What a configuration names -/

/-- The file that a configuration names for one of the catalogs. -/
def catalogFile? (config : Config) : CatalogKind → Option FilePath
  | .symbols => config.symbolsFile
  | .strings => config.stringsFile

theorem checkKeyboardsDir_eq_ok {o : Option FilePath} :
    checkKeyboardsDir files o = .ok () ↔ ∀ directory ∈ o, files.isDirectory directory = true := by
  cases o with
  | none => simp [checkKeyboardsDir]
  | some directory => cases h : files.isDirectory directory <;> simp [checkKeyboardsDir, h]

theorem checkCatalogFile_eq_ok {kind : CatalogKind} {o : Option FilePath} :
    checkCatalogFile files kind o = .ok () ↔ ∀ file ∈ o, files.isFile file = true := by
  cases o with
  | none => simp [checkCatalogFile]
  | some file => cases h : files.isFile file <;> simp [checkCatalogFile, h]

theorem checkCatalogFile_eq_error (kind : CatalogKind) {o : Option FilePath}
    (h : ¬ ∀ file ∈ o, files.isFile file = true) :
    ∃ file ∈ o, files.isFile file = false ∧
      checkCatalogFile files kind o = .error (.noCatalogFile kind file) := by
  cases o with
  | none => exact absurd nofun h
  | some file =>
    cases hfile : files.isFile file with
    | false => exact ⟨file, rfl, hfile, by simp [checkCatalogFile, hfile]⟩
    | true => simp [hfile] at h

/-- A configuration is valid if its directory is one and its files are files. -/
theorem check_eq_ok : config.check files = .ok () ↔
    (∀ directory ∈ config.keyboardsDir, files.isDirectory directory = true) ∧
      ∀ kind, ∀ file ∈ config.catalogFile? kind, files.isFile file = true := by
  rw [check]
  constructor
  · intro h
    obtain ⟨⟨⟩, hdirectory, h⟩ := bind_eq_ok.mp h
    obtain ⟨⟨⟩, hsymbols, hstrings⟩ := bind_eq_ok.mp h
    refine ⟨checkKeyboardsDir_eq_ok.mp hdirectory, fun kind => ?_⟩
    cases kind with
    | symbols => exact checkCatalogFile_eq_ok.mp hsymbols
    | strings => exact checkCatalogFile_eq_ok.mp hstrings
  · rintro ⟨hdirectory, hfiles⟩
    have hsymbols : checkCatalogFile files .symbols config.symbolsFile = .ok () :=
      checkCatalogFile_eq_ok.mpr (hfiles .symbols)
    have hstrings : checkCatalogFile files .strings config.stringsFile = .ok () :=
      checkCatalogFile_eq_ok.mpr (hfiles .strings)
    rw [checkKeyboardsDir_eq_ok.mpr hdirectory, ok_bind, hsymbols, ok_bind, hstrings]

/-- Without one of its files a configuration is refused for one of them. -/
theorem check_eq_error
    (hdirectory : ∀ directory ∈ config.keyboardsDir, files.isDirectory directory = true)
    (h : ¬ ∀ kind, ∀ file ∈ config.catalogFile? kind, files.isFile file = true) :
    ∃ kind, ∃ file ∈ config.catalogFile? kind, files.isFile file = false ∧
      config.check files = .error (.noCatalogFile kind file) := by
  rw [check, checkKeyboardsDir_eq_ok.mpr hdirectory, ok_bind]
  by_cases hsymbols : ∀ file ∈ config.symbolsFile, files.isFile file = true
  · have hstrings : ¬ ∀ file ∈ config.stringsFile, files.isFile file = true := by
      intro hstrings
      refine h fun kind => ?_
      cases kind with
      | symbols => exact hsymbols
      | strings => exact hstrings
    obtain ⟨file, hfile, hnone, hcheck⟩ := checkCatalogFile_eq_error .strings hstrings
    refine ⟨.strings, file, hfile, hnone, ?_⟩
    rw [checkCatalogFile_eq_ok.mpr hsymbols, ok_bind, hcheck]
  · obtain ⟨file, hfile, hnone, hcheck⟩ := checkCatalogFile_eq_error .symbols hsymbols
    refine ⟨.symbols, file, hfile, hnone, ?_⟩
    rw [hcheck]
    rfl

/-! ### Saving -/

/-- At most the directories above the path are made. -/
theorem makeParent_makes (files : FileTree) (path : FilePath) :
    (makeParent files path).1 = files ∨ ∃ parent, parent? path = some parent ∧
      files.Makes parent (makeParent files path).1 := by
  rw [makeParent]
  split
  · exact .inl rfl
  · rename_i parent hpath
    split
    · exact .inl rfl
    · refine .inr ⟨parent, hpath, ?_⟩
      have hparent := makeDirectories_makes files parent
      split
      · rename_i hmade
        rwa [hmade] at hparent
      · rename_i hmade
        rwa [hmade] at hparent

theorem makeParent_grows (files : FileTree) (path : FilePath) :
    files.Grows (makeParent files path).1 := by
  rcases makeParent_makes files path with hsame | ⟨parent, -, hmakes⟩
  · rw [hsame]
    exact .refl files
  · exact hmakes.toGrows

/-- How saving a configuration can end. -/
inductive Ended (config : Config) (files : FileTree) (path : FilePath) :
    FileTree × Except ConfigError Unit → Prop
  | invalid {e : ConfigError} (hcheck : config.check files = .error e) :
      Ended config files path (files, .error e)
  /-- It breaks off before anything is written. -/
  | early (hcheck : config.check files = .ok ()) (e : ConfigError) :
      Ended config files path ((makeParent files path).1, .error e)
  /-- It breaks off when the text, or a part of it, is in a file beside the path. -/
  | late {text : String} {here : FileName} {id n : Nat} {left : FileTree}
      (hcheck : config.check files = .ok ()) (htext : config.toToml = .ok text)
      (hwrite : Written (makeParent files path).1 (temporaryPath path) here id
        ⟨(RawText.ofString text).bytes.take n⟩ left) (e : ConfigError) :
      Ended config files path (left, .error e)
  | done {text : String} {here : FileName} {id : Nat} {written saved : FileTree}
      (hcheck : config.check files = .ok ()) (htext : config.toToml = .ok text)
      (hwrite : Written (makeParent files path).1 (temporaryPath path) here id text written)
      (hrename : written.rename (temporaryPath path) path = (saved, .ok ())) :
      Ended config files path (saved, .ok ())

theorem save_ended (config : Config) (files : FileTree) (path : FilePath) :
    Ended config files path (config.save files path) := by
  rw [save]
  cases hcheck : config.check files with
  | error e => exact .invalid hcheck
  | ok =>
    have hearly : ∀ e, Ended config files path ((makeParent files path).1, .error e) :=
      .early hcheck
    dsimp only
    split
    · rename_i made e hmade
      rw [hmade] at hearly
      exact hearly e
    rename_i made hmade
    obtain rfl : (makeParent files path).1 = made := congrArg Prod.fst hmade
    cases htext : config.toToml with
    | error cause => exact hearly _
    | ok text =>
      dsimp only
      rcases write_cases (makeParent files path).1 (temporaryPath path) text with ⟨cause, hnot⟩ |
          ⟨here, id, n, hwrite, hwhole⟩
      · rw [hnot]
        exact hearly _
      split
      · rename_i left cause hleft
        rw [hleft] at hwrite
        exact .late hcheck htext hwrite _
      · rename_i written hwritten
        rw [hwritten] at hwrite hwhole
        rcases rename_cases written (temporaryPath path) path with ⟨cause, hnot⟩ |
            ⟨_, _, _, -, -, -, -, -, -, hrename⟩
        · rw [hnot]
          exact .late hcheck htext hwrite _
        · rw [hrename]
          rw [hwhole rfl] at hwrite
          exact .done hcheck htext hwrite hrename

/-- The steps of a save that succeeds. -/
theorem save_eq_ok (h : config.save files path = (saved, .ok ())) :
    config.check files = .ok () ∧ ∃ text here id written, config.toToml = .ok text ∧
      Written (makeParent files path).1 (temporaryPath path) here id text written ∧
      written.rename (temporaryPath path) path = (saved, .ok ()) := by
  have hended := save_ended config files path
  rw [h] at hended
  cases hended with
  | done hcheck htext hwrite hrename => exact ⟨hcheck, _, _, _, _, htext, hwrite, hrename⟩

/-- The path of the file that is written first leads to another name. -/
theorem temporary_ne {tree : FileTree} {here there : Place}
    (hthere : tree.locateEntry path = .ok there) (hentry : there.entry ≠ some .directory)
    (hhere : tree.locateEntry (temporaryPath path) = .ok here) : here.name ≠ there.name :=
  sibling_name (by decide) (by decide) (by decide) hthere hentry hhere

/-- A path that is no link is apart from a file that is alone beside it. -/
theorem apart_of_noLinkAt {tree : FileTree} (halone : tree.Alone (temporaryPath path))
    (hpath : tree.NoLinkAt path) : tree.Apart (temporaryPath path) path :=
  halone.apart (by decide) (by decide) (by decide) hpath

/-- A save makes directories and then replaces the file. -/
theorem save_replaced (h : config.save files path = (saved, .ok ()))
    (hapart : (makeParent files path).1.Apart (temporaryPath path) path) :
    ∃ text here there id, config.toToml = .ok text ∧
      Replaced (makeParent files path).1 (temporaryPath path) path text here there id saved := by
  obtain ⟨-, text, here, id, written, htext, hwrite, hrename⟩ := save_eq_ok h
  obtain ⟨there, hreplaced⟩ :=
    hapart.replaced (by decide) (by decide) (by decide) hwrite hrename
  exact ⟨text, here, there, id, htext, hreplaced⟩

/-! ### Loading -/

/-- A configuration is read from the file it was saved to. -/
theorem read_saved (h : config.save files path = (saved, .ok ()))
    (hapart : (makeParent files path).1.Apart (temporaryPath path) path) :
    read saved path = .ok config := by
  obtain ⟨text, here, there, id, htext, hreplaced⟩ := save_replaced h hapart
  have hexists : saved.exists? path = true := by simp [exists?, lookup, hreplaced.written]
  rw [Config.read, hexists, Bool.not_true, if_neg Bool.false_ne_true, hreplaced.read rfl]
  dsimp only
  rw [read_toToml htext]

/-- What was read is loaded if it is valid. -/
theorem load_of_read (h : read files path = .ok config) :
    (load files path = .ok config ↔ config.check files = .ok ()) ∧
      ∀ e, config.check files = .error e → load files path = .error e := by
  rw [load, h]
  dsimp only
  cases config.check files <;> simp

/-- **A configuration that was saved can be loaded again as long as it is valid there.**  In a tree
without links the file that is written first is alone beside the path, and the path is no link.  As
far as the two are apart, the configuration is read from the path, and loaded if everything it names
is still there.  If the path is no link either, it is loaded exactly if none of its files was where
it was written before it got its name; otherwise that file is missed. -/
theorem load_save (h : config.save files path = (saved, .ok ())) :
    let made := (makeParent files path).1
    (files.LinkFree → made.Alone (temporaryPath path) ∧ made.NoLinkAt path) ∧
    (made.Apart (temporaryPath path) path → read saved path = .ok config ∧
      (load saved path = .ok config ↔ config.check saved = .ok ())) ∧
    (made.Alone (temporaryPath path) → made.NoLinkAt path →
      (load saved path = .ok config ↔ ∀ kind, ∀ file ∈ config.catalogFile? kind,
        saved.locate file ≠ saved.locate (temporaryPath path)) ∧
      (load saved path = .ok config ∨ ∃ kind, ∃ file ∈ config.catalogFile? kind,
        saved.locate file = saved.locate (temporaryPath path) ∧
        load saved path = .error (.noCatalogFile kind file))) := by
  intro made
  have hgrows : files.Grows made := makeParent_grows files path
  refine ⟨fun hfree => ⟨(hfree.grows hgrows).alone _, (hfree.grows hgrows).noLinkAt _⟩,
    fun hapart => ⟨read_saved h hapart, (load_of_read (read_saved h hapart)).1⟩,
    fun halone hpath => ?_⟩
  have hapart := apart_of_noLinkAt halone hpath
  obtain ⟨hiff, hmissed⟩ := load_of_read (read_saved h hapart)
  obtain ⟨hdirectory, hfiles⟩ := check_eq_ok.mp (save_eq_ok h).1
  obtain ⟨text, here, there, id, htext, hreplaced⟩ := save_replaced h hapart
  have hkeeps : made.Keeps saved := hreplaced.keeps (hpath _ hreplaced.leads)
  have hdirectory' : ∀ directory ∈ config.keyboardsDir, saved.isDirectory directory = true :=
    fun directory hmem => (hgrows.keeps.trans hkeeps).isDirectory (hdirectory directory hmem)
  have hfile : ∀ kind, ∀ file ∈ config.catalogFile? kind, (saved.isFile file = true ↔
      saved.locate file ≠ saved.locate (temporaryPath path)) :=
    fun kind file hmem => hreplaced.isFile hkeeps (hgrows.isFile (hfiles kind file hmem))
  by_cases hall : ∀ kind, ∀ file ∈ config.catalogFile? kind, saved.isFile file = true
  · have hload := hiff.mpr (check_eq_ok.mpr ⟨hdirectory', hall⟩)
    exact ⟨iff_of_true hload fun kind file hmem => (hfile kind file hmem).mp (hall kind file hmem),
      .inl hload⟩
  · obtain ⟨kind, file, hmem, hnone, hcheck⟩ := check_eq_error hdirectory' hall
    have hsame : saved.locate file = saved.locate (temporaryPath path) :=
      Classical.not_not.mp (mt (hfile kind file hmem).mpr (by simp [hnone]))
    have hload := hmissed _ hcheck
    exact ⟨iff_of_false (by simp [hload]) fun hne => hne kind file hmem hsame,
      .inr ⟨kind, file, hmem, hsame, hload⟩⟩

/-- A configuration with a file in a directory that is only made when it is saved. -/
theorem load_save_new_directory :
    let files : FileTree := ⟨["home"], [(["home", "s.json"], .file 0)], [(0, "")], none⟩
    let config : Config := ⟨some ".", some "s.json", none, true⟩
    let saved := (config.save files "conf/./config.toml").1
    files.LinkFree ∧ (config.save files "conf/./config.toml").2 = .ok () ∧
      load saved "conf/./config.toml" = .ok config := by
  intro files config saved
  have hsave : config.save files "conf/./config.toml" = (saved, .ok ()) := by decide +kernel
  obtain ⟨hfree, -, hload⟩ := load_save hsave
  have hlinks : files.LinkFree := .of_entries (by decide) (by decide)
  obtain ⟨halone, hpath⟩ := hfree hlinks
  refine ⟨hlinks, congrArg Prod.snd hsave, (hload halone hpath).1.mpr ?_⟩
  rintro (_ | _) file hfile
  · obtain rfl : "s.json" = file := Option.some.inj hfile
    decide +kernel
  · cases hfile

/-- A file for symbols that stands where the configuration is written first is overwritten and
taken away, although saving succeeds. -/
theorem load_save_overwritten :
    let files : FileTree :=
      ⟨["home"], [(["home", "config.toml.tmp"], .file 0)], [(0, "\x7b\x7d")], none⟩
    let config : Config := ⟨none, some "config.toml.tmp", none, false⟩
    let saved := (config.save files "config.toml").1
    (config.save files "config.toml").2 = .ok () ∧ saved.exists? "config.toml.tmp" = false ∧
      load saved "config.toml" = .error (.noCatalogFile .symbols "config.toml.tmp") := by
  decide +kernel

end KeyLayout.Config
