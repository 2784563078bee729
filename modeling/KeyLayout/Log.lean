/-
Events that are logged on the way to a result.

A computation that logs gives its result together with its events, in the order in
which they happened.
-/
namespace KeyLayout

/-- How important an event is. -/
inductive LogLevel
  | debug
  | info
  | warn
  | error
deriving DecidableEq

def LogLevel.text : LogLevel → String
  | debug => "DEBUG"
  | info => "INFO"
  | warn => "WARN"
  | error => "ERROR"

structure LogEvent where
  level : LogLevel
  message : String
deriving DecidableEq

def LogEvent.text (e : LogEvent) : String := e.level.text ++ " " ++ e.message

/-- Events in the order in which they happened. -/
abbrev Log := List LogEvent

end KeyLayout
