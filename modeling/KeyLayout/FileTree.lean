/-
Files and directories as a value.

A tree says for every absolute name, given as the list of its parts from the root on, what stands
under it: a directory, a file, or a symbolic link.  The root is always a directory, and so is every
directory on the way to the working directory.  A file has a number, and what it holds is kept
under that number; so several names may stand for the same file.

* `locate` follows a path to the name it stands for: each part needs a directory before it, two
  dots lead upwards, and a symbolic link leads on along its own path; `locateEntry` does not follow
  a link that the path ends in;
* `read` gives the text of a file, `exists?`, `isFile` and `isDirectory` ask about a path;
* `write`, `makeDirectories` and `rename` give the changed tree, also when they fail: what was done
  before a failure stays.

Every failure is one of a few causes, with the wording of the operating system.
-/
import KeyLayout.FilePath

namespace KeyLayout

/-- What stands under a name. -/
inductive FileEntry
  | directory
  /-- A file by its number; it may have other names as well. -/
  | file (id : Nat)
  /-- A symbolic link, which stands for what its path leads to. -/
  | link (target : FilePath)
deriving DecidableEq

/-- The number of an entry that is a file. -/
def FileEntry.id? : FileEntry → Option Nat
  | file id => some id
  | _ => none

/-- Why a file cannot be used. -/
inductive FileError
  | notFound
  | busy
  | alreadyExists
  | notDirectory
  | isDirectory
  | noSpace
  | nameTooLong
  | tooManyLinks
  | notText
  | zeroByte
deriving DecidableEq

def FileError.message : FileError → String
  | notFound => "No such file or directory (os error 2)"
  | busy => "Device or resource busy (os error 16)"
  | alreadyExists => "File exists (os error 17)"
  | notDirectory => "Not a directory (os error 20)"
  | isDirectory => "Is a directory (os error 21)"
  | noSpace => "No space left on device (os error 28)"
  | nameTooLong => "File name too long (os error 36)"
  | tooManyLinks => "Too many levels of symbolic links (os error 40)"
  | notText => "stream did not contain valid UTF-8"
  | zeroByte => "file name contained an unexpected NUL byte"

/-- An absolute name: its parts from the root on. -/
abbrev FileName := List RawText

/-- Files and directories, and the working directory. -/
structure FileTree where
  workingDirectory : FileName
  entries : List (FileName × FileEntry)
  /-- What is in the files, by number. -/
  contents : List (Nat × RawText)
  /-- The bytes that can be written into a file before the disk is full, if they are limited. -/
  room : Option Nat
deriving DecidableEq

namespace FileTree

def named? (tree : FileTree) (name : FileName) : Option FileEntry :=
  -- the working directory and those above it are always there
  if name.isPrefixOf tree.workingDirectory then some .directory
  else (tree.entries.find? (·.1 == name)).map Prod.snd

/-- The tree with another entry under a name. -/
def put (tree : FileTree) (name : FileName) (entry : FileEntry) : FileTree :=
  { tree with entries := (name, entry) :: tree.entries.filter (·.1 != name) }

def remove (tree : FileTree) (name : FileName) : FileTree :=
  { tree with entries := tree.entries.filter (·.1 != name) }

/-- What is in a file; nothing was written yet into a file of an unknown number. -/
def content (tree : FileTree) (id : Nat) : RawText :=
  ((tree.contents.find? (·.1 == id)).map Prod.snd).getD ""

/-- The tree with something else in a file. -/
def setContent (tree : FileTree) (id : Nat) (content : RawText) : FileTree :=
  { tree with contents := (id, content) :: tree.contents.filter (·.1 != id) }

/-- A number that no file has yet. -/
def freshId (tree : FileTree) : Nat :=
  (tree.entries.filterMap fun entry => entry.2.id?).foldl max 0 + 1

/-! ### Paths -/

/-- The longest name of a file, in bytes. -/
def maxNameBytes : Nat := 255

/-- The length, in bytes, from which on a path is too long. -/
def maxPathBytes : Nat := 4096

/-- How many links are followed on the way along one path. -/
def maxLinks : Nat := 40

/-- What a path leads to: a name, and what stands there. -/
structure Place where
  name : FileName
  entry : Option FileEntry
deriving DecidableEq

/-- Where a path starts that is found in a directory. -/
def origin (directory : FileName) (path : FilePath) : Place :=
  ⟨if FilePath.isAbsolute path then [] else directory, some .directory⟩

/-- One step along a path. -/
def step (tree : FileTree) (place : Place) (part : RawText) : Except FileError Place :=
  match place.entry with
  | none => .error .notFound
  | some .directory =>
    if part = "" ∨ part = "." then .ok place
    -- above the root is the root
    else if part = ".." then .ok ⟨place.name.dropLast, some .directory⟩
    else if maxNameBytes < part.bytes.length then .error .nameTooLong
    else .ok ⟨place.name ++ [part], tree.named? (place.name ++ [part])⟩
  | some _ => .error .notDirectory

/-- Follows the parts of a path up to the first link. `onward` goes on from there, given the
directory and the path of the link and the parts behind it; at the end of the path it does so only
if `toEnd` says that the last link is to be followed. -/
def walkToLink (tree : FileTree) (toEnd : Bool)
    (onward : FileName → FilePath → List RawText → Except FileError Place) (place : Place) :
    List RawText → Except FileError Place
  | [] => .ok place
  | part :: parts =>
    match tree.step place part with
    | .error e => .error e
    | .ok next =>
      match next.entry with
      | some (.link target) =>
        if parts.isEmpty && !toEnd then .ok next else onward place.name target parts
      | _ => tree.walkToLink toEnd onward next parts

/-- Follows the parts of a path and up to so many links on it. -/
def walk (tree : FileTree) (toEnd : Bool) : Nat → Place → List RawText → Except FileError Place
  | 0 => tree.walkToLink toEnd fun _ _ _ => .error .tooManyLinks
  | links + 1 => tree.walkToLink toEnd fun directory target parts =>
    tree.walk toEnd links (origin directory target) (FilePath.pieces target ++ parts)

/-- Some paths are refused before they are followed. -/
def checkPath (path : FilePath) : Except FileError Unit :=
  if path.bytes.contains 0 then .error .zeroByte
  else if path.isEmpty then .error .notFound
  else if maxPathBytes ≤ path.bytes.length then .error .nameTooLong
  else .ok ()

/-- The name a path stands for, and what stands there, if anything does. -/
def locate (tree : FileTree) (path : FilePath) : Except FileError Place :=
  match checkPath path with
  | .error e => .error e
  | .ok () => tree.walk true maxLinks (origin tree.workingDirectory path) (FilePath.pieces path)

/-- Where a path leads, but a link that it ends in is not followed. Slashes at the end of the path
do not matter. -/
def locateEntry (tree : FileTree) (path : FilePath) : Except FileError Place :=
  match checkPath path with
  | .error e => .error e
  | .ok () => tree.walk false maxLinks (origin tree.workingDirectory path)
      (FilePath.pieces (FilePath.trimEnd path))

/-- What stands under a path. -/
def lookup (tree : FileTree) (path : FilePath) : Except FileError FileEntry :=
  match tree.locate path with
  | .error e => .error e
  | .ok place =>
    match place.entry with
    | none => .error .notFound
    | some entry => .ok entry

def read (tree : FileTree) (path : FilePath) : Except FileError String :=
  match tree.lookup path with
  | .error e => .error e
  | .ok (.file id) =>
    match (tree.content id).text? with
    | some text => .ok text
    | none => .error .notText
  | .ok _ => .error .isDirectory

/-- Whether a path leads anywhere. -/
def exists? (tree : FileTree) (path : FilePath) : Bool :=
  match tree.lookup path with
  | .ok _ => true
  | .error _ => false

def isDirectory (tree : FileTree) (path : FilePath) : Bool :=
  match tree.lookup path with
  | .ok .directory => true
  | _ => false

def isFile (tree : FileTree) (path : FilePath) : Bool :=
  match tree.lookup path with
  | .ok (.file _) => true
  | _ => false

/-! ### Changes -/

/-- Puts a text into a file, or as much of it as there is room for. -/
def fill (tree : FileTree) (id : Nat) (text : RawText) : FileTree × Except FileError Unit :=
  match tree.room with
  | none => (tree.setContent id text, .ok ())
  | some room =>
    if text.bytes.length ≤ room then (tree.setContent id text, .ok ())
    else (tree.setContent id ⟨text.bytes.take room⟩, .error .noSpace)

/-- Writes a file, in place of what was in it; where nothing is, a file is made first. -/
def write (tree : FileTree) (path : FilePath) (text : RawText) : FileTree × Except FileError Unit :=
  match tree.locate path with
  | .error e => (tree, .error e)
  | .ok place =>
    match place.entry with
    | none => (tree.put place.name (.file tree.freshId)).fill tree.freshId text
    | some (.file id) => tree.fill id text
    | some _ => (tree, .error .isDirectory)

/-- Makes one directory. -/
def makeDirectory (tree : FileTree) (path : FilePath) : FileTree × Except FileError Unit :=
  match tree.locateEntry path with
  | .error e => (tree, .error e)
  | .ok place =>
    match place.entry with
    | some _ => (tree, .error .alreadyExists)
    | none => (tree.put place.name .directory, .ok ())

/-- Makes a directory and, before it, those on the way that are missing; `bound` is the number of
levels to go up. -/
def makeDirectoriesUpTo (tree : FileTree) (path : FilePath) :
    Nat → FileTree × Except FileError Unit
  | 0 => (tree, .error .notFound)
  | bound + 1 =>
    if path.isEmpty then (tree, .ok ())
    else
      match tree.makeDirectory path with
      | (tree, .ok ()) => (tree, .ok ())
      | (tree, .error .notFound) =>
        match FilePath.parent? path with
        | none => (tree, .error .notFound)
        | some parent =>
          match tree.makeDirectoriesUpTo parent bound with
          | (tree, .error e) => (tree, .error e)
          | (tree, .ok ()) =>
            match tree.makeDirectory path with
            | (tree, .ok ()) => (tree, .ok ())
            | (tree, .error e) => (tree, if tree.isDirectory path then .ok () else .error e)
      | (tree, .error e) => (tree, if tree.isDirectory path then .ok () else .error e)

/-- Makes a directory and those on the way that are missing. Those that were made stay, even if a
later one fails. -/
def makeDirectories (tree : FileTree) (path : FilePath) : FileTree × Except FileError Unit :=
  tree.makeDirectoriesUpTo path (path.bytes.length + 1)

/-- Whether a path ends in a slash. -/
def endsInSlash (path : FilePath) : Bool := path.bytes.getLast? == some FilePath.slash

/-- Whether the last part of a path is a name, and not a dot, two dots or the root. -/
def endsInName (path : FilePath) : Bool :=
  match (FilePath.pieces (FilePath.trimEnd path)).getLast? with
  | some part => part ≠ "" && part ≠ "." && part ≠ ".."
  | none => false

/-- Gives a file or a link another name, in place of a file or link that has it; two names of one
file are left as they are. Directories are not renamed here. -/
def rename (tree : FileTree) (source target : FilePath) : FileTree × Except FileError Unit :=
  match tree.locateEntry source, tree.locateEntry target with
  | .error e, _ => (tree, .error e)
  | _, .error e => (tree, .error e)
  | .ok here, .ok there =>
    if !endsInName source || !endsInName target then (tree, .error .busy)
    else
      match here.entry with
      | none => (tree, .error .notFound)
      | some .directory => (tree, .error .isDirectory)
      | some entry =>
        -- only a directory may be called by a path that ends in a slash
        if endsInSlash source || endsInSlash target then (tree, .error .notDirectory)
        else if there.entry = some .directory then (tree, .error .isDirectory)
        else if here.entry = there.entry ∧ entry.id?.isSome then (tree, .ok ())
        else ((tree.remove here.name).put there.name entry, .ok ())

end FileTree

end KeyLayout
