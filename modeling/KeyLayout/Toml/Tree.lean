/-
The tables of a TOML document.

A table comes to be in one of three ways: by a header of its own, on the way to another
header, or on the way to a key that is given with dots.  How it came to be decides what
may still be added to it:

* a header names a table once, unless it was only on the way before;
* dotted keys add to tables that dotted keys have made, and to no others;
* a header in double brackets adds a further table to a list of tables;
* a value never changes.

`Entries.under` goes down a path and changes the table that is there.
-/
import KeyLayout.Document.Scan

namespace KeyLayout.Toml

open Document

/-- How a table came to be. -/
inductive Origin
  | header
  /-- On the way to a header. -/
  | passed
  /-- On the way to a dotted key. -/
  | dotted
deriving DecidableEq

/-- What stands under a name. -/
inductive Entry where
  | value (node : Node)
  | table (origin : Origin) (entries : List (String × Entry))
  /-- A list of tables, the last one first. -/
  | tables (elements : List (List (String × Entry)))

/-- The entries of a table, in the order of the document. -/
abbrev Entries := List (String × Entry)

namespace Entries

/-- Changes what stands under a name, or puts something there. -/
def change (name : String) (f : Option Entry → Option Entry) : Entries → Option Entries
  | [] => (f none).map fun entry => [(name, entry)]
  | (other, entry) :: rest =>
    if other = name then (f (some entry)).map fun entry => (other, entry) :: rest
    else (change name f rest).map ((other, entry) :: ·)

/-- Goes down the path of a header and changes the table there. -/
def under (f : Entries → Option Entries) : List String → Entries → Option Entries
  | [], entries => f entries
  | name :: path, entries =>
    entries.change name fun
      -- tables on the way need no header of their own
      | none => (under f path []).map (.table .passed)
      | some (.table origin inner) => (under f path inner).map (.table origin)
      | some (.tables (inner :: others)) =>
        (under f path inner).map fun inner => .tables (inner :: others)
      | some (.tables []) => none
      | some (.value _) => none

/-- Goes down dotted keys, of which `name` is the next, and changes the table there. -/
def underDotted (f : Entries → Option Entries) (name : String) :
    List String → Entries → Option Entries
  | [], entries =>
    entries.change name fun
      -- dotted keys add to tables that dotted keys have made, and to no others
      | none => (f []).map (.table .dotted)
      | some (.table .dotted inner) => (f inner).map (.table .dotted)
      | some _ => none
  | next :: path, entries =>
    entries.change name fun
      | none => (underDotted f next path []).map (.table .dotted)
      | some (.table .header _) => none
      | some (.table origin inner) => (underDotted f next path inner).map (.table origin)
      | some (.tables (inner :: others)) =>
        (underDotted f next path inner).map fun inner => .tables (inner :: others)
      | some (.tables []) => none
      | some (.value _) => none

/-- Puts a value under a new name. -/
def put (name : String) (node : Node) (entries : Entries) : Option Entries :=
  entries.change name fun
    | none => some (.value node)
    | some _ => none

/-- Puts a value where keys with dots lead. -/
def putAt (front : List String) (last : String) (node : Node) (entries : Entries) :
    Option Entries :=
  match front with
  | [] => entries.put last node
  | name :: path => underDotted (put last node) name path entries

/-- Opens the table of a header. -/
def openTable (front : List String) (last : String) (entries : Entries) : Option Entries :=
  under (change last fun
    | none => some (.table .header [])
    -- its header comes late, but it is the first
    | some (.table .passed inner) => some (.table .header inner)
    | some _ => none) front entries

/-- Opens a further table of a list of tables. -/
def openElement (front : List String) (last : String) (entries : Entries) : Option Entries :=
  under (change last fun
    | none => some (.tables [[]])
    | some (.tables elements) => some (.tables ([] :: elements))
    | some _ => none) front entries

end Entries

mutual

/-- An entry as a node. -/
def Entry.node : Entry → Node
  | .value node => node
  | .table _ entries => .ofMembers (entryNodes entries) .withEmpty
  | .tables elements => .ofItems (elementNodes elements).reverse

def entryNodes : List (String × Entry) → List (String × Node)
  | [] => []
  | (name, entry) :: rest => (name, entry.node) :: entryNodes rest

/-- The tables of a list. -/
def elementNodes : List (List (String × Entry)) → List Node
  | [] => []
  | entries :: rest => .ofMembers (entryNodes entries) .withEmpty :: elementNodes rest

end

/-- A whole table as a node. -/
def Entries.node (entries : Entries) : Node := .ofMembers (entryNodes entries) .withEmpty

end KeyLayout.Toml
