/-
Text in double quotes, as messages and listings show it.

Quotes, backslashes and the common control characters are escaped by a backslash;
every other character that would not be seen is written as its code point in
braces.  All the rest, of any script, stands for itself.
-/
import KeyLayout.Text.Hexadecimal
import KeyLayout.Text.Hidden

namespace KeyLayout.Text

/-- The code point of a character, in braces. -/
def codePoint (c : Char) : List Char :=
  '\\' :: 'u' :: '\x7b' :: (hexDigits c.toNat ++ ['\x7d'])

/-- One character inside quotes. -/
def quotedChar (c : Char) : List Char :=
  if c = '\x00' then ['\\', '0']
  else if c = '\t' then ['\\', 't']
  else if c = '\r' then ['\\', 'r']
  else if c = '\n' then ['\\', 'n']
  else if c = '\\' then ['\\', '\\']
  else if c = '"' then ['\\', '"']
  else if isHidden c then codePoint c
  else [c]

/-- A text in double quotes. -/
def quoted (text : String) : String :=
  String.ofList ('"' :: (text.toList.flatMap quotedChar ++ ['"']))

end KeyLayout.Text
