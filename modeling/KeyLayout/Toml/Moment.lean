/-
Dates and times.

A moment is a date, a time, or both, and then possibly the offset of its zone.  It is
read from one word, in which a `T` or a single space parts the date from the time, and
it is written again in one form: with a `T`, without needless digits behind the point,
and with a `Z` where it was read.  Seconds that are left out are zero.
-/
import KeyLayout.Decimal.Notation
import KeyLayout.Decimal.Numeral

namespace KeyLayout.Toml

open Decimal

structure Date where
  year : Nat
  month : Nat
  day : Nat
deriving DecidableEq

structure Time where
  hour : Nat
  minute : Nat
  second : Nat
  /-- The digits behind the point. -/
  fraction : List Char
deriving DecidableEq

/-- How far a zone is from the zero meridian. -/
inductive Zone
  | zero
  | shifted (minutes : Int)
deriving DecidableEq

/-- A date, a time, or both. -/
inductive Moment
  | date (d : Date)
  | time (t : Time)
  | both (d : Date) (t : Time) (zone : Option Zone)
deriving DecidableEq

/-- The number of days of a month. -/
def daysIn (year month : Nat) : Nat :=
  let leap := year % 4 = 0 ∧ (year % 100 ≠ 0 ∨ year % 400 = 0)
  if month = 2 then (if leap then 29 else 28)
  else if month = 4 ∨ month = 6 ∨ month = 9 ∨ month = 11 then 30
  else 31

/-- Takes a number of exactly `count` digits. -/
def takeNumber? (count : Nat) (text : List Char) : Option (Nat × List Char) :=
  let digits := text.take count
  if digits.length = count && digits.all isDigit then some (ofDigits digits, text.drop count)
  else none

/-- Takes one of some characters. -/
def takeChar? (wanted : List Char) : List Char → Option (List Char)
  | c :: rest => if wanted.contains c then some rest else none
  | [] => none

def takeDate? (text : List Char) : Option (Date × List Char) := do
  let (year, rest) ← takeNumber? 4 text
  let (month, rest) ← takeNumber? 2 (← takeChar? ['-'] rest)
  let (day, rest) ← takeNumber? 2 (← takeChar? ['-'] rest)
  if 1 ≤ month ∧ month ≤ 12 ∧ 1 ≤ day ∧ day ≤ daysIn year month then
    return (⟨year, month, day⟩, rest)
  else none

/-- Takes the digits behind a point; without a point there are none. -/
def takeFraction? : List Char → Option (List Char × List Char)
  | '.' :: rest =>
    let (digits, rest) := spanDigits rest
    if digits.isEmpty then none else some (digits, rest)
  | rest => some ([], rest)

def takeTime? (text : List Char) : Option (Time × List Char) := do
  let (hour, rest) ← takeNumber? 2 text
  let (minute, rest) ← takeNumber? 2 (← takeChar? [':'] rest)
  if 23 < hour ∨ 59 < minute then none
  else
    match takeChar? [':'] rest with
    | none => return (⟨hour, minute, 0, []⟩, rest)
    | some rest =>
      let (second, rest) ← takeNumber? 2 rest
      let (fraction, rest) ← takeFraction? rest
      if 60 < second then none else return (⟨hour, minute, second, fraction⟩, rest)

def takeZone? (text : List Char) : Option (Option Zone × List Char) :=
  match text with
  | [] => some (none, [])
  | c :: rest =>
    if c = 'Z' ∨ c = 'z' then some (some .zero, rest)
    else if c = '+' ∨ c = '-' then do
      let (hour, rest) ← takeNumber? 2 rest
      let (minute, rest) ← takeNumber? 2 (← takeChar? [':'] rest)
      let minutes : Int := hour * 60 + minute
      if 23 < hour ∨ 59 < minute then none
      else return (some (.shifted (if c = '-' then -minutes else minutes)), rest)
    else none

/-- Reads a moment that is the whole text. -/
def Moment.ofText? (text : List Char) : Option Moment :=
  match takeDate? text with
  | some (d, []) => some (.date d)
  | some (d, rest) => do
    let (t, rest) ← takeTime? (← takeChar? ['T', 't', ' '] rest)
    let (zone, rest) ← takeZone? rest
    if rest.isEmpty then return .both d t zone else none
  | none => do
    let (t, rest) ← takeTime? text
    if rest.isEmpty then return .time t else none

/-- A number with at least `count` digits. -/
def padded (count n : Nat) : String :=
  let digits := digitsOf n
  String.ofList (List.replicate (count - digits.length) '0' ++ digits)

def Date.text (d : Date) : String := s!"{padded 4 d.year}-{padded 2 d.month}-{padded 2 d.day}"

/-- The nine digits behind the point that count, without zeros at the end. -/
def shortFraction (digits : List Char) : List Char :=
  ((digits.take 9).reverse.dropWhile (· = '0')).reverse

def Time.text (t : Time) : String :=
  let digits := shortFraction t.fraction
  let tail := if digits.isEmpty then "" else "." ++ String.ofList digits
  s!"{padded 2 t.hour}:{padded 2 t.minute}:{padded 2 t.second}{tail}"

def Zone.text : Zone → String
  | zero => "Z"
  | shifted minutes =>
    let n := minutes.natAbs
    (if minutes < 0 then "-" else "+") ++ s!"{padded 2 (n / 60)}:{padded 2 (n % 60)}"

def Moment.text : Moment → String
  | date d => d.text
  | time t => t.text
  | both d t zone => s!"{d.text}T{t.text}" ++ (zone.map Zone.text).getD ""

end KeyLayout.Toml
