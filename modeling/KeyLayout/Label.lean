/-
Texts shown on keys.

A label is written on one line in a definition file; where it is to be broken the
file spells out a line end as an escape, `\n` or `\r\n` in letters.  `breakLines`
turns these escapes into line ends: first every four-letter escape, then every
two-letter one that is left.
-/
import KeyLayout.Text.Pieces

namespace KeyLayout.Label

/-- The escape of two letters, `\n`. -/
def shortBreak : List Char := ['\\', 'n']

/-- The escape of four letters, `\r\n`. -/
def longBreak : List Char := ['\\', 'r', '\\', 'n']

/-- Turns the line-end escapes of a label into line ends. -/
def breakLines (label : List Char) : List Char :=
  Text.replaceAll shortBreak Text.lineEnd (Text.replaceAll longBreak Text.lineEnd label)

/-- `breakLines` on strings. -/
def normalize (label : String) : String :=
  String.ofList (breakLines label.toList)

end KeyLayout.Label
