/-
What is to be said about a keyboard.

A keyboard that could not be built gives one error, and every issue of a key gives a
warning at the cell of the key.
-/
import KeyLayout.Keyboard

namespace KeyLayout

/-- How bad a finding is. -/
inductive Severity
  | error
  | warning
deriving DecidableEq

def Severity.name : Severity → String
  | error => "error"
  | warning => "warning"

/-- Something to be said about a keyboard. -/
structure Finding where
  severity : Severity
  message : String
  anchor : Option Cell
deriving DecidableEq

/-- The cell of the key that an issue is about. -/
def KeyIssue.anchor : KeyIssue → Cell
  | unknownSymbol _ anchor => anchor
  | incomplete _ _ anchor _ => anchor

/-- The warning for an issue. -/
def KeyIssue.finding (issue : KeyIssue) : Finding := ⟨.warning, issue.text, some issue.anchor⟩

/-- The error for a failure. -/
def Failure.finding (f : Failure) : Finding := ⟨.error, s!"{f.heading}: {f.detail}", none⟩

/-- Everything there is to be said about a keyboard, errors first. -/
def Keyboard.findings (k : Keyboard) : List Finding :=
  (k.failure.map Failure.finding).toList ++ k.issues.map KeyIssue.finding

end KeyLayout
