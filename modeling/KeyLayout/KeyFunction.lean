/-
Functions a key can trigger.

A definition file names a function exactly as it is listed here, and knows no other
spelling.
-/
namespace KeyLayout

/-- A function that an action key triggers. -/
inductive KeyFunction
  /-- Add current phrase to the dictionary. -/
  | addToDictionary
  | leftAlt
  | arrowDown
  | arrowLeft
  | arrowRight
  | arrowUp
  /-- Leave the current keyboard and return to the previous one. -/
  | backFromKeyboard
  /-- Delete the previous word. -/
  | backMany
  /-- Delete the previous character. -/
  | backOne
  | calibrate
  | clearScratchpad
  | collapseDock
  | copy
  | leftCtrl
  | cut
  | decreaseDwellTime
  | delete
  | endKey
  | enter
  | escape
  | expandDock
  | home
  | increaseDwellTime
  | lock
  | managementConsole
  | minimise
  /-- Show more suggestions. -/
  | moreKey
  | nextSuggestions
  | pgDn
  | pgUp
  | paste
  | pause
  | previousSuggestions
  /-- Exit the application. -/
  | quit
  | restart
  | selectVoice
  | leftShift
  | sleep
  | speak
  /-- Add a space. -/
  | space
  | tab
  /-- Toggle case. -/
  | toggleCaseOfPreviousCharacter
  | undo
  /-- Windows/Super key. -/
  | leftWin
deriving DecidableEq

namespace KeyFunction

/-- How definition files spell the function. -/
def name : KeyFunction → String
  | addToDictionary => "AddToDictionary"
  | leftAlt => "LeftAlt"
  | arrowDown => "ArrowDown"
  | arrowLeft => "ArrowLeft"
  | arrowRight => "ArrowRight"
  | arrowUp => "ArrowUp"
  | backFromKeyboard => "BackFromKeyboard"
  | backMany => "BackMany"
  | backOne => "BackOne"
  | calibrate => "Calibrate"
  | clearScratchpad => "ClearScratchpad"
  | collapseDock => "CollapseDock"
  | copy => "Copy"
  | leftCtrl => "LeftCtrl"
  | cut => "Cut"
  | decreaseDwellTime => "DecreaseDwellTime"
  | delete => "Delete"
  | endKey => "End"
  | enter => "Enter"
  | escape => "Escape"
  | expandDock => "ExpandDock"
  | home => "Home"
  | increaseDwellTime => "IncreaseDwellTime"
  | lock => "Lock"
  | managementConsole => "ManagementConsole"
  | minimise => "Minimise"
  | moreKey => "MoreKey"
  | nextSuggestions => "NextSuggestions"
  | pgDn => "PgDn"
  | pgUp => "PgUp"
  | paste => "Paste"
  | pause => "Pause"
  | previousSuggestions => "PreviousSuggestions"
  | quit => "Quit"
  | restart => "Restart"
  | selectVoice => "SelectVoice"
  | leftShift => "LeftShift"
  | sleep => "Sleep"
  | speak => "Speak"
  | space => "Space"
  | tab => "Tab"
  | toggleCaseOfPreviousCharacter => "ToggleCaseOfPreviousCharacter"
  | undo => "Undo"
  | leftWin => "LeftWin"

/-- All functions, in the order in which messages list them. -/
def all : List KeyFunction := [
  .addToDictionary, .leftAlt, .arrowDown, .arrowLeft, .arrowRight, .arrowUp, .backFromKeyboard,
  .backMany, .backOne, .calibrate, .clearScratchpad, .collapseDock, .copy, .leftCtrl, .cut,
  .decreaseDwellTime, .delete, .endKey, .enter, .escape, .expandDock, .home, .increaseDwellTime,
  .lock, .managementConsole, .minimise, .moreKey, .nextSuggestions, .pgDn, .pgUp, .paste, .pause,
  .previousSuggestions, .quit, .restart, .selectVoice, .leftShift, .sleep, .speak, .space, .tab,
  .toggleCaseOfPreviousCharacter, .undo, .leftWin]

end KeyFunction

end KeyLayout
