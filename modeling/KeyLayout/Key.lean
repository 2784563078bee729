/-
A key as it is shown and as it acts.

A finished key holds its text, its symbol, the spans of the cells it covers, and
what it does.  Keys with similar content belong to one sizing class, so that all of
them can be drawn in one size; the class depends on whether there is a symbol,
whether there is text, and whether all text is a single letter.
-/
import KeyLayout.BuiltinKeyboard
import KeyLayout.FilePath
import KeyLayout.KeyFunction
import KeyLayout.Thickness

namespace KeyLayout

/-- A symbol: its name and its outline in path notation. -/
structure Symbol where
  name : String
  pathData : String
deriving DecidableEq

inductive KeyText
  | blank
  | plain (text : String)
  /-- One text while shift is released and one while it is held. -/
  | shifted (up down : String)
deriving DecidableEq

namespace KeyText

/-- Whether a text has at most one character. -/
def short (text : String) : Bool := text.toList.length ≤ 1

/-- Whether every text on the key has at most one character. -/
def isSingleLetter : KeyText → Bool
  | blank => true
  | plain text => short text
  | shifted up down => short up && short down

/-- The text that is shown first. -/
def display : KeyText → Option String
  | blank => none
  | plain text => some text
  | shifted up _ => some up

end KeyText

/-- Keys of one class are drawn in one size. -/
inductive SizingClass
  | singleLetter
  | text
  | symbol
  | symbolAndText
  | none
deriving DecidableEq

namespace SizingClass

/-- The class of a key; whether the text is a single letter matters only where
there is no symbol. -/
def classify (hasSymbol hasText single : Bool) : SizingClass :=
  match hasSymbol, hasText with
  | true, true => symbolAndText
  | true, false => symbol
  | false, true => if single then singleLetter else text
  | false, false => none

def name : SizingClass → String
  | singleLetter => "SingleLetter"
  | text => "Text"
  | symbol => "Symbol"
  | symbolAndText => "SymbolAndText"
  | none => "None"

/-- All classes, in the order in which messages list them. -/
def all : List SizingClass := [singleLetter, text, symbol, symbolAndText, none]

end SizingClass

/-- Where a key leads to. -/
inductive Target
  | builtin (keyboard : BuiltinKeyboard)
  /-- A definition file. -/
  | file (path : FilePath)
deriving DecidableEq

/-- How listings call a target. -/
def Target.text : Target → String
  | builtin keyboard => keyboard.name
  | file path => path.display

/-- What a key does. -/
inductive KeyValue
  | function (f : KeyFunction)
  | text (s : String)
  /-- Leads to another keyboard, in place of this one or on top of it. -/
  | navigate (target : Target) (replaceCurrent : Bool)
  /-- Calls a plugin with the definition of the key. -/
  | plugin (snippet : String)
  /-- Returns to the keyboard before this one. -/
  | back
  | empty
deriving DecidableEq

/-- A finished key. -/
structure Key where
  text : KeyText
  symbol : Option Symbol
  symbolMargin : Option Thickness
  sizingClass : SizingClass
  rowSpan : Int
  colSpan : Int
  value : KeyValue
deriving DecidableEq

namespace Key

/-- A key over `rowSpan` by `colSpan` cells that shows `text` and does nothing. -/
def inert (text : KeyText) (rowSpan colSpan : Int) : Key :=
  ⟨text, none, none, .none, rowSpan, colSpan, .empty⟩

end Key

end KeyLayout
