/-
How a number is written.

The digits are chosen in `Shortest`; here is only their layout.  A number is laid
out either with all its places (`positional`) or as one digit, a fraction and a
power of ten (`scientific`).  Two layouts are used:

* `plain` never uses a power of ten and writes whole numbers without a point;
* `marked` always shows that the number is not an integer, by `.0` or by a power
  of ten, and changes to powers of ten below 10^(-5) and from 10^16 on.
-/
import KeyLayout.Decimal.Shortest

namespace KeyLayout.Decimal

def digitsOf (n : Nat) : List Char := Nat.toDigits 10 n

/-- All places of k · 10^e; `whole` is put after a whole number. -/
def positional (whole : List Char) (d : Digits) : List Char :=
  let digits := digitsOf d.digits
  if 0 ≤ d.power then
    digits ++ List.replicate d.power.toNat '0' ++ whole
  else
    let places := (-d.power).toNat
    if digits.length ≤ places then
      '0' :: '.' :: (List.replicate (places - digits.length) '0' ++ digits)
    else
      digits.take (digits.length - places) ++ '.' :: digits.drop (digits.length - places)

/-- One digit, the others after a point, and a power of ten whose sign is always written. -/
def scientific (d : Digits) : List Char :=
  let digits := digitsOf d.digits
  let exponent := d.power + (digits.length : Int) - 1
  let fraction := digits.drop 1
  digits.take 1 ++ (if fraction.isEmpty then [] else '.' :: fraction)
    ++ 'e' :: (if exponent < 0 then '-' else '+') :: digitsOf exponent.natAbs

/-- Puts a minus sign in front of a negative number. -/
def signed (negative : Bool) (text : List Char) : List Char :=
  if negative then '-' :: text else text

/-- The exponent of the first digit: the number is at least 10 to this power and
below the next one. -/
def leadingPower (d : Digits) : Int :=
  d.power + ((digitsOf d.digits).length : Int) - 1

/-- The shortest text of a number with all its places and no point after a whole number. -/
def plain (x : Float) : String :=
  String.ofList <|
    match kindOf x with
    | .nan => ['N', 'a', 'N']
    | .infinite negative => signed negative ['i', 'n', 'f']
    | .zero negative => signed negative ['0']
    | .finite negative magnitude => signed negative (positional [] (shortest magnitude))

/-- The shortest text of a finite number that no integer is written with; other
numbers have none. -/
def marked? (x : Float) : Option String :=
  match kindOf x with
  | .nan | .infinite _ => none
  | .zero negative => some (String.ofList (signed negative ['0', '.', '0']))
  | .finite negative magnitude =>
    let d := shortest magnitude
    let power := leadingPower d
    let text := if -5 ≤ power && power < 16 then positional ['.', '0'] d else scientific d
    some (String.ofList (signed negative text))

end KeyLayout.Decimal
