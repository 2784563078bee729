/-
The detail of an error screen.

When a definition file cannot be read or parsed, the screen shows the first line of what was
said about it, wrapped into a few lines (`Failure.detail_load`).  Wrapping is faithful
(`wrap_first_line`): with a space for every line end the first line is back, and nothing behind
the first line matters.
-/
import KeyLayout.Proofs.Keyboard.Load
import KeyLayout.Proofs.Text.Wrap

namespace KeyLayout

open Text

theorem Failure.detail_load {e : LoadError} (h : e ≠ .noPath) :
    (Failure.load e).detail = String.ofList (wrap e.message.toList) := by
  cases e with
  | noPath => exact absurd rfl h
  | unreadable => rfl
  | malformed => rfl

namespace Keyboard

/-- The detail cell of a definition file that cannot be loaded. -/
theorem load_detail {files : FileTree} {path : FilePath} {catalog : Catalog} {e : LoadError}
    (hfailure : (load files path catalog).1.failure = some (.load e)) (he : e ≠ .noPath) :
    ((load files path catalog).1.grid.at? ⟨1, 0⟩).map (·.key.text) =
      some (.plain (String.ofList (wrap e.message.toList))) := by
  rw [(shows_of_failure hfailure).detail, Failure.detail_load he]

end Keyboard

/-- **Wrapping shows the first line and nothing else.**  With a space for every line end the
wrapped text is the first line; it is empty only if the first line is; and what stands behind a
line end of the text does not matter.  So the detail cell of a keyboard whose definition file
cannot be loaded shows the first line of what was said about the file. -/
theorem wrap_first_line (text : List Char) :
    FirstLine (unwrap (wrap text)) text ∧
      (wrap text = [] ↔ FirstLine [] text) ∧
      (∀ before rest other, text = before ++ '\n' :: rest →
        wrap (before ++ '\n' :: other) = wrap text) ∧
      ∀ files path catalog e, (Keyboard.load files path catalog).1.failure = some (.load e) →
        e ≠ .noPath → e.message.toList = text →
        ((Keyboard.load files path catalog).1.grid.at? ⟨1, 0⟩).map (·.key.text) =
          some (.plain (String.ofList (wrap text))) := by
  refine ⟨?_, ?_, ?_, ?_⟩
  · rw [unwrap_wrap]
    exact firstLine_spec text
  · rw [← firstLine_eq_iff, ← unwrap_wrap, unwrap, List.map_eq_nil_iff]
  · rintro before rest other rfl
    obtain ⟨piece, more, hpieces⟩ := List.exists_cons_of_ne_nil (pieces_ne_nil '\n' before)
    rw [wrap_eq, wrap_eq, firstLine_append hpieces, firstLine_append hpieces]
  · rintro files path catalog e hfailure he rfl
    exact Keyboard.load_detail hfailure he

/-- A file that breaks off, with a line end in its name. -/
theorem wrap_first_line_broken_off :
    let path : FilePath := "a  b\r\nc.json"
    let files : FileTree := ⟨["home"], [(["home", path], .file 0)], [(0, "\x7b")], none⟩
    let e : LoadError := .malformed path .json "EOF while parsing an object at line 1 column 1"
    let keyboard := (Keyboard.load files path ⟨fun _ => none, id⟩).1
    let before := "Failed to parse keyboard file a  b\r".toList
    keyboard.failure = some (.load e) ∧
      (keyboard.grid.at? ⟨1, 0⟩).map (·.key.text) =
        some (.plain "Failed\nto parse\nkeyboard\nfile a  b") ∧
      e.message.toList = before ++ '\n' ::
        "c.json as JSON: EOF while parsing an object at line 1 column 1".toList ∧
      wrap (before ++ '\n' :: "anything".toList) = wrap e.message.toList := by
  intro path files e keyboard before
  have hfailure : keyboard.failure = some (.load e) := by decide +kernel
  have hmessage : e.message.toList = before ++ '\n' ::
      "c.json as JSON: EOF while parsing an object at line 1 column 1".toList := by
    decide +kernel
  have hwrap : String.ofList (wrap e.message.toList) =
      "Failed\nto parse\nkeyboard\nfile a  b" := by decide +kernel
  obtain ⟨-, -, hbehind, hdetail⟩ := wrap_first_line e.message.toList
  exact ⟨hfailure, hwrap ▸ hdetail _ _ _ e hfailure nofun rfl, hmessage, hbehind _ _ _ hmessage⟩

end KeyLayout
