/-
Keyboards that come with the application.

A key that leads to another keyboard names either one of these or a definition file.
Names are compared letter by letter, so a name in other case is a file.
-/
namespace KeyLayout

/-- A keyboard that needs no definition file. -/
inductive BuiltinKeyboard
  | alpha
  /-- Full-screen alphabetic keyboard for conversation mode. -/
  | conversationAlpha
  | conversationConfirm
  | conversationNumericAndSymbols
  | diacritics1
  | diacritics2
  | diacritics3
  /-- Selector listing user keyboard files. -/
  | dynamicKeyboardSelector
  | language
  | menu
  | minimised
  | mouse
  | numericAndSymbols1
  | numericAndSymbols2
  | numericAndSymbols3
  /-- Physical key emulation. -/
  | physicalKeys
  | simplifiedAlpha
  | sizeAndPosition
  | voice
  | webBrowsing
deriving DecidableEq

namespace BuiltinKeyboard

/-- How definition files spell the keyboard. -/
def name : BuiltinKeyboard → String
  | alpha => "Alpha"
  | conversationAlpha => "ConversationAlpha"
  | conversationConfirm => "ConversationConfirm"
  | conversationNumericAndSymbols => "ConversationNumericAndSymbols"
  | diacritics1 => "Diacritics1"
  | diacritics2 => "Diacritics2"
  | diacritics3 => "Diacritics3"
  | dynamicKeyboardSelector => "DynamicKeyboardSelector"
  | language => "Language"
  | menu => "Menu"
  | minimised => "Minimised"
  | mouse => "Mouse"
  | numericAndSymbols1 => "NumericAndSymbols1"
  | numericAndSymbols2 => "NumericAndSymbols2"
  | numericAndSymbols3 => "NumericAndSymbols3"
  | physicalKeys => "PhysicalKeys"
  | simplifiedAlpha => "SimplifiedAlpha"
  | sizeAndPosition => "SizeAndPosition"
  | voice => "Voice"
  | webBrowsing => "WebBrowsing"

/-- All keyboards, in the order in which they are listed. -/
def all : List BuiltinKeyboard := [
  .alpha, .conversationAlpha, .conversationConfirm, .conversationNumericAndSymbols, .diacritics1,
  .diacritics2, .diacritics3, .dynamicKeyboardSelector, .language, .menu, .minimised, .mouse,
  .numericAndSymbols1, .numericAndSymbols2, .numericAndSymbols3, .physicalKeys, .simplifiedAlpha,
  .sizeAndPosition, .voice, .webBrowsing]

def ofName? (name : String) : Option BuiltinKeyboard := all.find? (·.name == name)

end BuiltinKeyboard

end KeyLayout
