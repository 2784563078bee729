/-
Reading YAML documents.

A text is taken in as a whole: its layout gives tokens, the tokens give a tree, and the
tree gives the nodes that typed values are read from.  A text without any document
stands for a record without members.
-/
import KeyLayout.Yaml.Layout
import KeyLayout.Yaml.Meaning

namespace KeyLayout.Yaml

open Document

/-- The levels of lists and records that a value that is read may have. -/
def depthLimit : Nat := 129

def tree (text : List Char) : Except Break Node := do
  match ← Tree.ofTokens (← tokens text) with
  | some tree => return tree.node
  | none => return .record none [] (.closed none) .never

def read {α : Type} (reading : Reading α) (text : String) : Except Complaint α :=
  readTree reading depthLimit text.toList (tree text.toList)

end KeyLayout.Yaml
