/-
Breaking one line into about three.

Only the first line of a text is kept.  Its words are counted through, each with the
space after it, and the count tells on which line a word belongs: with lines of `M`
characters, a word is on line `i` when the count behind it is in `i·M … (i+1)·M`.
`M` is the length of the whole line divided by 3½, so there are three or four lines
unless words are too long for them.

* `groupWords` puts neighbours on the same line together;
* `wrap` puts the lines together again.
-/
import KeyLayout.Text.Pieces

namespace KeyLayout.Text

/-- The line for a word behind which `count` of all `length` characters are used up: `count /
(length / 3½)`. -/
def lineIndex (length count : Nat) : Nat := 7 * count / (2 * length)

/-- The words of one line. -/
structure WrappedLine where
  index : Nat
  words : List (List Char)
deriving DecidableEq

/-- Puts a word in front of lines that follow it. -/
def WrappedLine.cons (index : Nat) (word : List Char) : List WrappedLine → List WrappedLine
  | [] => [⟨index, [word]⟩]
  | line :: more =>
    if line.index = index then ⟨index, word :: line.words⟩ :: more
    else ⟨index, [word]⟩ :: line :: more

/-- Puts words on lines; `count` characters stand before them. -/
def groupWords (length count : Nat) : List (List Char) → List WrappedLine
  | [] => []
  | word :: words =>
    let count := count + word.length + 1
    WrappedLine.cons (lineIndex length count) word (groupWords length count words)

/-- The first line of a text, broken into about three lines. -/
def wrap (text : List Char) : List Char :=
  let line := firstLine text
  joinWith lineEnd ((groupWords line.length 0 (pieces ' ' line)).map fun l => joinWith [' '] l.words)

end KeyLayout.Text
