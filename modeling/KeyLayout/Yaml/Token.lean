/-
The tokens of a YAML document.

Besides marks and scalars there are tokens for what is not written: where a list or a
record begins and ends by its indentation alone, and that what comes next is the name of
a member.
-/
import KeyLayout.Document.Scan

namespace KeyLayout.Yaml

/-- How a scalar is written. -/
inductive Style
  | plain
  | quoted
  | literal
  | folded
deriving DecidableEq

/-- What a token is. -/
inductive TokenKind
  | version (major minor : Nat)
  | tagPrefix (handle start : String)
  | documentStart
  | documentEnd
  | blockList
  | blockRecord
  | blockEnd
  | openBracket
  | closeBracket
  | openBrace
  | closeBrace
  | comma
  /-- The dash before an item. -/
  | dash
  /-- What comes next is the name of a member. -/
  | name
  /-- What comes next is the value of a member. -/
  | value
  | alias (name : String)
  | anchor (name : String)
  | tag (handle suffix : String)
  | scalar (text : String) (style : Style)
  | streamEnd
deriving DecidableEq

/-- A token and the text from there on. -/
structure Token where
  kind : TokenKind
  rest : List Char
deriving DecidableEq

/-- Tokens, the last one first, so that the next can be put in front. -/
structure Tokens where
  reversed : List Token
  count : Nat
deriving DecidableEq

namespace Tokens

def empty : Tokens := ⟨[], 0⟩

/-- Adds a token at the end. -/
def push (tokens : Tokens) (token : Token) : Tokens := ⟨token :: tokens.reversed, tokens.count + 1⟩

/-- Adds a token so that `index` tokens stand before it. -/
def insert (tokens : Tokens) (index : Nat) (token : Token) : Tokens :=
  ⟨tokens.reversed.insertIdx (tokens.count - index) token, tokens.count + 1⟩

def toList (tokens : Tokens) : List Token := tokens.reversed.reverse

end Tokens

end KeyLayout.Yaml
