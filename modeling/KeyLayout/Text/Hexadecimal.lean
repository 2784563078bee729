/-
Hexadecimal numbers and the characters they stand for.
-/
namespace KeyLayout.Text

/-- The hexadecimal digits of a number, in lower case. -/
def hexDigits (n : Nat) : List Char := Nat.toDigits 16 n

def hexValue? (c : Char) : Option Nat :=
  if '0' ≤ c && c ≤ '9' then some (c.toNat - '0'.toNat)
  else if 'a' ≤ c && c ≤ 'f' then some (c.toNat - 'a'.toNat + 10)
  else if 'A' ≤ c && c ≤ 'F' then some (c.toNat - 'A'.toNat + 10)
  else none

/-- The number that hexadecimal digits give; `value` is that of the digits before. -/
def hexNumber? (value : Nat) : List Char → Option Nat
  | [] => some value
  | c :: rest => (hexValue? c).bind fun d => hexNumber? (16 * value + d) rest

/-- The number that is written in exactly `count` hexadecimal digits at the front of a text. -/
def leadingHex? (count : Nat) (text : List Char) : Option Nat :=
  let digits := text.take count
  if digits.length = count then hexNumber? 0 digits else none

/-- The character of a code point; the numbers that only serve as halves of a pair have none. -/
def character? (n : Nat) : Option Char :=
  if n.isValidChar then some (Char.ofNat n) else none

/-- The character that two code units stand for, if they are the two halves of a pair. -/
def pairedCharacter? (high low : Nat) : Option Char :=
  if 0xD800 ≤ high ∧ high < 0xDC00 ∧ 0xDC00 ≤ low ∧ low < 0xE000 then
    character? (0x10000 + (high - 0xD800) * 0x400 + (low - 0xDC00))
  else none

end KeyLayout.Text
