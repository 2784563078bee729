/-
The fewest decimal digits that identify a floating-point number.

A finite double is m · 2^q; the reals that round to it form an interval around it,
whose ends belong to it exactly when m is even.  Among all decimals k · 10^e in
that interval the ones with the largest e have the fewest digits, and of those we
take the one nearest to the number itself.  `shortest` finds it by walking down the
grids 10^e from one that is certainly too coarse; on each grid only the two
neighbours of the number have to be looked at.

* `Finite` is m · 2^q with the width of the gap below;
* `ofFloat` decodes a double;
* `shortest` gives the digits k and the power e.
-/
namespace KeyLayout.Decimal

/-- A positive number m · 2^q; below a power of two the gap to the next lower double is only half as
wide. -/
structure Finite where
  mantissa : Nat
  exponent : Int
  narrowBelow : Bool
deriving DecidableEq

/-- What a double stands for. -/
inductive Kind
  | nan
  | infinite (negative : Bool)
  | zero (negative : Bool)
  | finite (negative : Bool) (magnitude : Finite)
deriving DecidableEq

/-- Decodes the sixty-four bits of a double: sign, eleven bits of exponent,
fifty-two of fraction. -/
def kindOf (x : Float) : Kind :=
  let bits : Nat := x.toBits.toNat
  let hidden : Nat := Nat.pow 2 52
  let negative := bits / Nat.pow 2 63 == 1
  let biased : Nat := bits / hidden % Nat.pow 2 11
  let fraction : Nat := bits % hidden
  if biased == 2047 then
    if fraction == 0 then .infinite negative else .nan
  else if biased == 0 then
    if fraction == 0 then .zero negative
    -- below the least power the leading bit is no longer implied
    else .finite negative ⟨fraction, -1074, false⟩
  else
    .finite negative ⟨hidden + fraction, (biased : Int) - 1075, fraction == 0 && 1 < biased⟩

/-- A decimal k · 10^e. -/
structure Digits where
  digits : Nat
  power : Int
deriving DecidableEq

/-- The numerator of a power whose exponent may be negative. -/
def powUp (base : Nat) (e : Int) : Nat := Nat.pow base e.toNat

/-- The decimal on the grid 10^e that rounds to `x`, if there is one; of two the nearer, at a tie
the even one. -/
def onGrid (x : Finite) (e : Int) : Option Digits :=
  -- everything is multiplied by 4 · 2^(-q) · 10^(-e) as far as these are whole
  let scale := powUp 2 x.exponent * powUp 10 (-e)
  let grid := 4 * powUp 2 (-x.exponent) * powUp 10 e
  let value := 4 * x.mantissa * scale
  let low := (4 * x.mantissa - (if x.narrowBelow then 1 else 2)) * scale
  let high := (4 * x.mantissa + 2) * scale
  let within (k : Nat) : Bool :=
    let point := k * grid
    -- ties round to an even mantissa, which therefore owns both ends
    if x.mantissa % 2 == 0 then low ≤ point && point ≤ high else low < point && point < high
  let below := value / grid
  let above := below + 1
  match 0 < below && within below, within above with
  | true, true =>
    let toBelow := value - below * grid
    let toAbove := above * grid - value
    if toBelow < toAbove || (toBelow == toAbove && below % 2 == 0) then some ⟨below, e⟩
    else some ⟨above, e⟩
  | true, false => some ⟨below, e⟩
  | false, true => some ⟨above, e⟩
  | false, false => none

/-- Walks down the grids from 10^e, at most `steps` of them. -/
def searchDown (x : Finite) : Nat → Int → Option Digits
  | 0, _ => none
  | steps + 1, e =>
    match onGrid x e with
    | some d => some d
    | none => searchDown x steps (e - 1)

/-- A power of ten that is larger than the number: its binary logarithm times log 2, rounded up. -/
def coarsePower (x : Finite) : Int :=
  (((x.mantissa.log2 : Int) + 1 + x.exponent) * 30103) / 100000 + 1

/-- The fewest digits that identify the number; twenty grids are always enough, and past them the
exact value is given. -/
def shortest (x : Finite) : Digits :=
  match searchDown x 20 (coarsePower x) with
  | some d => d
  | none =>
    if 0 ≤ x.exponent then ⟨x.mantissa * powUp 2 x.exponent, 0⟩
    else ⟨x.mantissa * powUp 5 (-x.exponent), x.exponent⟩

end KeyLayout.Decimal
