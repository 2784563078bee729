/-
Scalars that are written as a bare word.

Such a word is a truth value, a number, or a moment.  Digits may be grouped by
underscores.  An integer may be hexadecimal, octal or binary; one that no machine
number holds is refused only when it is used.  A moment is read as a record with a
single member, its text.
-/
import KeyLayout.Decimal.Numeral
import KeyLayout.Document.Scan
import KeyLayout.Text.Hexadecimal
import KeyLayout.Toml.Moment

namespace KeyLayout.Toml

open Document

/-- Digits without the underscores that group them; an underscore needs digits on both sides. -/
def ungroup? (isDigit : Char → Bool) (text : List Char) : Option (List Char) :=
  let groups := Text.pieces '_' text
  if groups.all fun g => !g.isEmpty && g.all isDigit then some groups.flatten else none

/-- A value that is refused by every reader that looks at it. -/
def unusable : Node :=
  let complaint : Complaint := ⟨.flaw .hugeNumber, none⟩
  .broken ⟨complaint, some complaint, complaint, false⟩

/-- A value that is refused by every reader but one that skips it. -/
def skippable : Node :=
  let complaint : Complaint := ⟨.flaw .hugeNumber, none⟩
  .broken ⟨complaint, none, complaint, false⟩

/-- An integer. Up to 128 bits it can be skipped, up to 64 it can be used. -/
def integer (n : Int) : Node :=
  if Decimal.fitsBits 64 n then .ofScalar (.int n)
  else if Decimal.fitsBits 128 n then skippable
  else unusable

/-- The value of digits in some base. -/
def ofDigits (base : Nat) (digits : List Char) : Nat :=
  digits.foldl (fun n c => base * n + (Text.hexValue? c).getD 0) 0

/-- Whether a character is a digit in some base. -/
def isDigitIn (base : Nat) (c : Char) : Bool :=
  match Text.hexValue? c with
  | some d => d < base
  | none => false

/-- An integer in another base than ten. -/
def basedInteger? : List Char → Option Node
  | '0' :: 'x' :: digits => based 16 digits
  | '0' :: 'o' :: digits => based 8 digits
  | '0' :: 'b' :: digits => based 2 digits
  | _ => none
where
  /-- The digits behind the mark of the base. -/
  based (base : Nat) (digits : List Char) : Option Node :=
    (ungroup? (isDigitIn base) digits).map fun digits => integer (ofDigits base digits)

/-- The digits before the point; only a zero that stands alone may come first. -/
def wholeDigits? (text : List Char) : Option (List Char) := do
  let digits ← ungroup? Decimal.isDigit text
  if digits.head? = some '0' ∧ digits.length ≠ 1 then none else return digits

/-- The digits of an exponent with their sign. -/
def exponent? (text : List Char) : Option (List Char) :=
  match text with
  | '-' :: digits => (ungroup? Decimal.isDigit digits).map ('-' :: ·)
  | '+' :: digits => ungroup? Decimal.isDigit digits
  | digits => ungroup? Decimal.isDigit digits

/-- A decimal number without a sign, as an integer or as the text of a float. -/
def unsigned? (text : List Char) : Option (Nat ⊕ List Char) := do
  let (mantissa, power) := text.span fun c => c ≠ 'e' ∧ c ≠ 'E'
  let (whole, fraction) := mantissa.span (· ≠ '.')
  let digits ← wholeDigits? whole
  let point ←
    match fraction with
    | '.' :: fraction => (ungroup? Decimal.isDigit fraction).map ('.' :: ·)
    | _ => some []
  let tail ←
    match power with
    | _ :: power => (exponent? power).map ('e' :: ·)
    | [] => some []
  if point.isEmpty && tail.isEmpty then return .inl (Decimal.ofDigits digits)
  else return .inr (digits ++ point ++ tail)

/-- A number without a sign. -/
def number? (negative : Bool) (text : List Char) : Option Node :=
  let give (x : Float) : Node := .ofScalar (.float (if negative then -x else x))
  match text with
  | ['i', 'n', 'f'] => some (give (1.0 / 0.0))
  | ['n', 'a', 'n'] => some (give (0.0 / 0.0))
  | text =>
    match unsigned? text with
    | none => none
    | some (.inl n) => some (integer (if negative then -(n : Int) else n))
    | some (.inr numeral) =>
      match Decimal.readNumeral numeral with
      | .ok x => some (if x.isInf then unusable else give x)
      | .error _ => none

/-- The name under which a moment holds its text. -/
def momentName : String := "$__toml_private_datetime"

/-- What a bare word stands for. -/
def scalar? (word : List Char) : Option Node :=
  match word with
  | ['t', 'r', 'u', 'e'] => some (.ofScalar (.bool true))
  | ['f', 'a', 'l', 's', 'e'] => some (.ofScalar (.bool false))
  | word =>
    match Moment.ofText? word with
    | some m => some (.ofMembers [(momentName, .ofScalar (.text m.text))] .never)
    | none =>
      match basedInteger? word, word with
      | some node, _ => some node
      | none, '-' :: rest => number? true rest
      | none, '+' :: rest => number? false rest
      | none, word => number? false word

/-- Whether a character may stand in a bare word. -/
def inWord (c : Char) : Bool :=
  c.isAlphanum || c == '_' || c == '+' || c == '-' || c == '.' || c == ':'

/-- Splits off a bare word; a date and a time behind a single space are one word. -/
def spanWord (text : List Char) : List Char × List Char :=
  let (word, rest) := text.span inWord
  match takeDate? word, rest with
  | some (_, []), ' ' :: more =>
    let (time, after) := more.span inWord
    if (time.head?.map Decimal.isDigit).getD false then (word ++ ' ' :: time, after) else (word, rest)
  | _, _ => (word, rest)

def readWord (text : List Char) : Except Break (Node × List Char) :=
  let (word, rest) := spanWord text
  match scalar? word with
  | some node => .ok (node, rest)
  | none => .error ⟨.noValue, text⟩

end KeyLayout.Toml
