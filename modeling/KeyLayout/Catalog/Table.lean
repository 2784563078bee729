/-
Tables from names to texts.

A table holds one text for each name.  Its entries ascend by name, so two tables with
the same content are equal.
-/
namespace KeyLayout

/-- A table from names to texts. -/
structure Table where
  entries : List (String × String)
deriving DecidableEq

namespace Table

def empty : Table := ⟨[]⟩

/-- Puts an entry at its place among ascending entries; an entry of the same name is replaced. -/
def insertEntry (name text : String) : List (String × String) → List (String × String)
  | [] => [(name, text)]
  | (other, held) :: rest =>
    if name = other then (name, text) :: rest
    else if name < other then (name, text) :: (other, held) :: rest
    else (other, held) :: insertEntry name text rest

/-- The table with another text for a name. -/
def insert (table : Table) (name text : String) : Table :=
  ⟨insertEntry name text table.entries⟩

/-- The table with further entries; of two entries of one name the later one counts. -/
def insertAll (table : Table) (entries : List (String × String)) : Table :=
  entries.foldl (fun table (name, text) => table.insert name text) table

def ofList (entries : List (String × String)) : Table := empty.insertAll entries

def find? (table : Table) (name : String) : Option String :=
  (table.entries.find? (·.1 == name)).map Prod.snd

def size (table : Table) : Nat := table.entries.length

end Table

end KeyLayout
