/-
Numbers of a JSON document.

`scanNumber` takes a number apart; its form is the same for a reader and for one who
skips it, apart from what they call a number that the text ends in.  `NumberParts.scalar`
then gives it a value:

* without point and power it is an integer, as long as it fits into sixty-four bits,
  with a sign or without; only `-0` is not, because an integer has no negative zero;
* every other number becomes a double.  As many digits as fit into sixty-four bits
  are taken, and the power of ten is applied by one multiplication or division
  (`scaled`), so the last bit may differ from that of the nearest double.
-/
import KeyLayout.Json.Text
import KeyLayout.Document.Node

namespace KeyLayout.Json

open KeyLayout.Document KeyLayout.Decimal

/-- The power of ten of a number; `start` is the place of its first digit. -/
structure PowerParts where
  negative : Bool
  digits : List Char
  start : Offset
deriving DecidableEq

/-- A number taken apart. -/
structure NumberParts where
  negative : Bool
  whole : List Char
  fraction : Option (List Char)
  power : Option PowerParts
deriving DecidableEq

/-- Complaints about a number: for a reader, and for one who skips. -/
structure NumberComplaint where
  read : Complaint
  skip : Complaint
deriving DecidableEq

/-- A character stands where a digit has to; at the end of the text the two readers see different
things. -/
def noDigit (c : Cursor) : NumberComplaint :=
  match c.rest with
  | [] => ⟨.flaw .endBeforeValue c.place, .flaw .badNumber c.place⟩
  | _ => ⟨.flaw .badNumber (c.place + 1), .flaw .badNumber (c.place + 1)⟩

/-- The row of digits at a cursor. -/
def takeDigits (c : Cursor) : List Char × Cursor :=
  let (digits, rest) := spanDigits c.rest
  (digits, ⟨c.place + digits.length, rest⟩)

/-- The digits before the point: a zero alone, or a row that starts with no zero. -/
def scanWhole (c : Cursor) : Except NumberComplaint (List Char × Cursor) :=
  let (digits, after) := takeDigits c
  match digits with
  | [] => .error (noDigit c)
  | '0' :: _ :: _ => .error (noDigit ⟨c.place + 1, c.rest.drop 1⟩)
  | _ => .ok (digits, after)

/-- The digits after a point, if there is one. -/
def scanFraction (c : Cursor) : Except NumberComplaint (Option (List Char) × Cursor) :=
  match c.rest with
  | '.' :: rest =>
    let (digits, after) := takeDigits ⟨c.place + 1, rest⟩
    if digits.isEmpty then .error (noDigit after) else .ok (some digits, after)
  | _ => .ok (none, c)

/-- The power of ten, if there is one. -/
def scanPower (c : Cursor) : Except NumberComplaint (Option PowerParts × Cursor) :=
  match c.rest with
  | e :: rest =>
    if e = 'e' || e = 'E' then
      let (negative, digitsAt) : Bool × Cursor :=
        match rest with
        | '+' :: rest => (false, ⟨c.place + 2, rest⟩)
        | '-' :: rest => (true, ⟨c.place + 2, rest⟩)
        | _ => (false, ⟨c.place + 1, rest⟩)
      let (digits, after) := takeDigits digitsAt
      if digits.isEmpty then .error (noDigit digitsAt)
      else .ok (some ⟨negative, digits, digitsAt.place⟩, after)
    else .ok (none, c)
  | [] => .ok (none, c)

/-- Takes apart the number at a cursor. -/
def scanNumber (c : Cursor) : Except NumberComplaint (NumberParts × Cursor) := do
  let (negative, c) : Bool × Cursor :=
    match c.rest with
    | '-' :: rest => (true, ⟨c.place + 1, rest⟩)
    | _ => (false, c)
  let (whole, c) ← scanWhole c
  let (fraction, c) ← scanFraction c
  let (power, c) ← scanPower c
  return (⟨negative, whole, fraction, power⟩, c)

/-- The largest number of sixty-four bits. -/
def maxWord : Nat := Nat.pow 2 64 - 1

/-- Appends digits to a number as long as it fits into sixty-four bits; gives also the digits left
over. -/
def appendDigits (n : Nat) : List Char → Nat × List Char
  | [] => (n, [])
  | c :: digits =>
    let m := n * 10 + digitValue c
    if m ≤ maxWord then appendDigits m digits else (n, c :: digits)

/-- The number f · 10^e, by one multiplication or division; a power below 10^(-308) needs up to
three. -/
def scaled (f : Float) (e : Int) : Nat → Option Float
  | 0 => some 0.0
  | steps + 1 =>
    -- no double is that large a power; only a zero can be scaled by it
    if 308 < e then
      if f == 0.0 then some f else none
    else if 0 ≤ e then
      let x := f * Float.ofScientific 1 false e.toNat
      if x.isInf then none else some x
    else if -308 ≤ e then some (f / Float.ofScientific 1 false (-e).toNat)
    else if f == 0.0 then some f
    else scaled (f / Float.ofScientific 1 false 308) (e + 308) steps

/-- The largest power of ten that is taken as it stands. -/
def maxPower : Nat := Nat.pow 2 31 - 1

/-- How many digits of a power are read before it is larger than `maxPower`, if it gets there. -/
def powerOverflow (n : Nat) : List Char → Option Nat
  | [] => none
  | c :: digits =>
    let m := n * 10 + digitValue c
    if maxPower < m then some 1 else (powerOverflow m digits).map (· + 1)

/-- The double that a number with a point or a power, or with too many digits, stands for. -/
def NumberParts.double (n : NumberParts) (stop : Offset) : Except Complaint Float :=
  let (whole, surplus) := appendDigits 0 n.whole
  let (significand, left) := appendDigits whole (n.fraction.getD [])
  -- whole digits left over make the number larger, digits taken after the point make it smaller
  let shift : Int := surplus.length - (((n.fraction.getD []).length : Int) - left.length)
  let sign (x : Float) : Float := if n.negative then -x else x
  let give (e : Int) : Except Complaint Float :=
    match scaled (Float.ofNat significand) e 4 with
    | some x => .ok (sign x)
    | none => .error (.flaw .hugeNumber stop)
  match n.power with
  | none => give shift
  | some p =>
    match powerOverflow 0 p.digits with
    | some count =>
      -- a power out of range makes the number too large, or zero
      if significand ≠ 0 ∧ ¬p.negative then .error (.flaw .hugeNumber (p.start + count))
      else .ok (sign 0.0)
    | none =>
      let e : Int := ofDigits p.digits
      give (if p.negative then shift - e else shift + e)

/-- The value of a number that ends at `stop`. -/
def NumberParts.scalar (n : NumberParts) (stop : Offset) : Except Complaint Scalar :=
  let magnitude := ofDigits n.whole
  if n.fraction.isNone && n.power.isNone && magnitude ≤ maxWord then
    if !n.negative then .ok (.int magnitude)
    else if 0 < magnitude && magnitude ≤ Nat.pow 2 63 then .ok (.int (-magnitude))
    -- minus zero, or below the least integer of sixty-four bits
    else .ok (.float (-(Float.ofNat magnitude)))
  else (n.double stop).map .float

end KeyLayout.Json
