/-
Paths of files.

A path is a raw text whose parts are separated by slashes.  Empty parts and a single dot
mean nothing, except for a dot at the very start; two dots lead to the directory
above.  A path that starts with a slash is absolute.

* `parent?` drops the last part that means something, with all that follows it;
* `join` puts a path behind another one, unless it is absolute;
* `extension?` and `withExtension` look behind the last dot of the file name; a dot
  at the start of the name is no such dot.
-/
import KeyLayout.Text.Pieces
import KeyLayout.Text.Raw

namespace KeyLayout

abbrev FilePath := RawText

namespace FilePath

/-- The byte of a slash. -/
abbrev slash : UInt8 := 0x2F

/-- The byte of a dot. -/
abbrev dot : UInt8 := 0x2E

def isAbsolute (path : FilePath) : Bool := path.bytes.head? == some slash

/-- What stands between the slashes of a path. -/
def pieces (path : FilePath) : List RawText := (Text.pieces slash path.bytes).map RawText.mk

/-- A part of a path together with the bytes up to its end. -/
structure Part where
  name : List UInt8
  /-- The path up to the end of this part. -/
  upTo : List UInt8
deriving DecidableEq

/-- The parts that mean something; `before` is what stands before the text, and `first` says whether
nothing does. -/
def partsFrom (before : List UInt8) (first : Bool) : List (List UInt8) → List Part
  | [] => []
  | name :: more =>
    let upTo := before ++ name
    let rest := partsFrom (upTo ++ [slash]) false more
    -- a dot means something at the very front only
    if name.isEmpty || (name == [dot] && !first) then rest else ⟨name, upTo⟩ :: rest

/-- The parts of a path that mean something, a leading dot included. -/
def parts (path : FilePath) : List Part :=
  partsFrom [] true (Text.pieces slash path.bytes)

/-- The path without its last part; a path without parts has no parent. -/
def parent? (path : FilePath) : Option FilePath :=
  match (parts path).reverse with
  | [] => none
  | _ :: before =>
    match before with
    | part :: _ => some ⟨part.upTo⟩
    | [] => some (if isAbsolute path then "/" else "")

/-- The path without slashes at its end; of slashes alone, one stays. -/
def trimEnd (path : FilePath) : FilePath :=
  match (path.bytes.reverse.dropWhile (· == slash)).reverse with
  | [] => if isAbsolute path then "/" else ""
  | rest => ⟨rest⟩

/-- Puts `path` behind `base`. -/
def join (base path : FilePath) : FilePath :=
  if isAbsolute path || base.isEmpty then path
  else if base.bytes.getLast? == some slash then ⟨base.bytes ++ path.bytes⟩
  else ⟨base.bytes ++ slash :: path.bytes⟩

/-- The last part, if it is a name. -/
def filePart? (path : FilePath) : Option Part :=
  match (parts path).getLast? with
  | some part => if part.name == [dot] || part.name == [dot, dot] then none else some part
  | none => none

/-- The length of the name up to its last dot, if that is not at its start. -/
def stemLength? (name : List UInt8) : Option Nat :=
  let tail := (name.reverse.takeWhile (· != dot)).length
  if tail + 1 < name.length then some (name.length - tail - 1) else none

/-- What follows the last dot of the file name. -/
def extension? (path : FilePath) : Option RawText := do
  let part ← filePart? path
  let length ← stemLength? part.name
  return ⟨part.name.drop (length + 1)⟩

/-- The path with another extension; a path without a file name stays as it is. -/
def withExtension (path : FilePath) (extension : String) : FilePath :=
  match filePart? path with
  | none => path
  | some part =>
    let drop :=
      match stemLength? part.name with
      | some length => part.name.length - length
      | none => 0
    ⟨part.upTo.take (part.upTo.length - drop) ++ dot :: (RawText.ofString extension).bytes⟩

end FilePath

/-- Why a value cannot be written: a path that is no text has no written form. -/
inductive WriteError
  | notText
deriving DecidableEq

def WriteError.message : WriteError → String
  | notText => "path contains invalid UTF-8 characters"

/-- The text of a path, to be written. -/
def FilePath.written (path : FilePath) : Except WriteError String :=
  match path.text? with
  | some s => .ok s
  | none => .error .notText

end KeyLayout
