/-
Reading a decimal numeral as the nearest double.

A numeral is a sign, digits with at most one point among them and at least one
digit in all, and a power of ten; or one of the words `inf`, `infinity` and `nan`
in any case.  The value is rounded once, to the nearest double.

* `Numeral` holds the parts, `Numeral.toFloat` is their value;
* `readNumeral` reads exactly the whole of a text, or says why it cannot.
-/
namespace KeyLayout.Decimal

def isDigit (c : Char) : Bool := '0' ≤ c && c ≤ '9'

def digitValue (c : Char) : Nat := c.toNat - '0'.toNat

/-- The number that a row of digits stands for. -/
def ofDigits (digits : List Char) : Nat :=
  digits.foldl (fun n c => n * 10 + digitValue c) 0

/-- Whether some number of bits can hold an integer, with a sign or without. -/
def fitsBits (bits : Nat) (n : Int) : Bool :=
  -(Int.ofNat (Nat.pow 2 (bits - 1))) ≤ n && n < Int.ofNat (Nat.pow 2 bits)

/-- The row of digits at the front of a text, and what follows it. -/
def spanDigits (text : List Char) : List Char × List Char := text.span isDigit

/-- A decimal numeral taken apart. -/
structure Numeral where
  negative : Bool
  whole : List Char
  fraction : List Char
  exponent : Int
deriving DecidableEq

/-- The nearest double. An exponent far outside the range of doubles is cut off first, which does
not change the result. -/
def Numeral.toFloat (n : Numeral) : Float :=
  let digits := ofDigits (n.whole ++ n.fraction)
  let power := n.exponent - (n.fraction.length : Int)
  let length := ((n.whole ++ n.fraction).length : Int)
  let magnitude : Float :=
    if digits == 0 then 0.0
    else if 400 < power then 1.0 / 0.0
    else if power < -(400 + length) then 0.0
    else Float.ofScientific digits (decide (power < 0)) power.natAbs
  if n.negative then -magnitude else magnitude

inductive NumeralError
  | empty
  | malformed
deriving DecidableEq

def NumeralError.message : NumeralError → String
  | .empty => "cannot parse float from empty string"
  | .malformed => "invalid float literal"

/-- A sign at the front; `true` stands for minus. -/
def takeSign : List Char → Bool × List Char
  | '-' :: rest => (true, rest)
  | '+' :: rest => (false, rest)
  | text => (false, text)

/-- The power of ten after `e`: a sign and at least one digit, to the end of the text. -/
def readPower (text : List Char) : Option Int :=
  let (negative, digits) := takeSign text
  if digits.isEmpty || !digits.all isDigit then none
  else
    let n : Int := ofDigits digits
    some (if negative then -n else n)

/-- The parts of an unsigned numeral that is the whole text. -/
def readUnsigned (negative : Bool) (text : List Char) : Option Numeral :=
  let (whole, rest) := spanDigits text
  let (fraction, rest) :=
    match rest with
    | '.' :: rest => spanDigits rest
    | _ => ([], rest)
  if whole.isEmpty && fraction.isEmpty then none
  else
    match rest with
    | [] => some ⟨negative, whole, fraction, 0⟩
    | c :: power =>
      if c == 'e' || c == 'E' then
        (readPower power).map fun e => ⟨negative, whole, fraction, e⟩
      else none

/-- Reads a text that is a numeral as the nearest double. -/
def readNumeral (text : List Char) : Except NumeralError Float :=
  if text.isEmpty then .error .empty
  else
    let (negative, rest) := takeSign text
    let word := String.ofList (rest.map Char.toLower)
    let give (x : Float) : Except NumeralError Float := .ok (if negative then -x else x)
    if word == "inf" || word == "infinity" then give (1.0 / 0.0)
    else if word == "nan" then give (0.0 / 0.0)
    else
      match readUnsigned negative rest with
      | some n => .ok n.toFloat
      | none => .error .malformed

end KeyLayout.Decimal
