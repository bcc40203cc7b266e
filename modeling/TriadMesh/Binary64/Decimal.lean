import TriadMesh.Binary64.Basic

/-!
# The shortest decimal of a float

`shortest` finds the coarsest power of ten of which some multiple rounds to the float, and of two such
multiples the nearer. All of it is exact arithmetic on half units, 2^-1075 each, because the numbers
that round to a float lie between the midpoints to its neighbors.
-/

namespace TriadMesh

/-- The number `significand * 10 ^ exponent`. -/
structure Decimal where
  significand : Nat
  exponent : Int
deriving DecidableEq, Inhabited

namespace Decimal

def digits (d : Decimal) : List Char := Nat.toDigits 10 d.significand

/-- The power of ten of the first digit. -/
def leadingExponent (d : Decimal) : Int := d.exponent + d.digits.length - 1

end Decimal

namespace Binary64

/-- The numerator and denominator of `halfUnits * 2^-1075 / 10^exponent`. -/
def gridRatio (halfUnits : Nat) (exponent : Int) : Nat × Nat :=
  if 0 ≤ exponent then (halfUnits, 10 ^ exponent.toNat * 2 ^ 1075)
  else (halfUnits * 10 ^ (-exponent).toNat, 2 ^ 1075)

/-- The multiple of `10 ^ exponent` that rounds to the float with code `c` and is nearest to it, if one
rounds to it. The midpoints themselves round to the even code. On an exact tie `tieUp` takes the greater. -/
def onGrid? (tieUp : Bool) (c : Nat) (exponent : Int) : Option Nat :=
  let value := gridRatio (2 * unitsOfCode c) exponent
  let low := (gridRatio (unitsOfCode (c - 1) + unitsOfCode c) exponent).1
  let high := (gridRatio (unitsOfCode c + unitsOfCode (c + 1)) exponent).1
  let below := value.1 / value.2
  let belowFits := low < below * value.2 || (low == below * value.2 && c % 2 == 0)
  let aboveFits := (below + 1) * value.2 < high || ((below + 1) * value.2 == high && c % 2 == 0)
  let rest := 2 * (value.1 % value.2)
  match belowFits, aboveFits with
  | false, false => none
  | true, false => some below
  | false, true => some (below + 1)
  | true, true =>
    if rest < value.2 then some below
    else if rest = value.2 then some (if tieUp then below + 1 else below + below % 2)
    else some (below + 1)

/-- Tries `steps` powers of ten downwards from `10 ^ exponent`. -/
def scanGrids (tieUp : Bool) (c : Nat) : Nat → Int → Decimal
  | 0, exponent => ⟨0, exponent⟩
  | steps + 1, exponent =>
    match onGrid? tieUp c exponent with
    | some n => ⟨n, exponent⟩
    | none => scanGrids tieUp c steps (exponent - 1)

/-- A power of ten that exceeds the magnitude with code `c`, at most two places above it. -/
def decimalCeiling (c : Nat) : Int :=
  ((unitsOfCode c).log2 + 1 - 1074 : Int) * 30103 / 100000 + 1

/-- The shortest decimal that rounds to the finite float with code `c`. Seventeen digits always do. -/
def shortest (tieUp : Bool) (c : Nat) : Decimal :=
  if c = 0 then ⟨0, 0⟩ else scanGrids tieUp c 22 (decimalCeiling c)

/-- The greatest power of ten that does not exceed `units`, searched downwards from `exponent`. -/
def leadingPower (units : Nat) : Nat → Int → Int
  | 0, exponent => exponent
  | steps + 1, exponent =>
    let ratio := gridRatio (2 * units) exponent
    if ratio.2 ≤ ratio.1 then exponent else leadingPower units steps (exponent - 1)

/-- The value with code `c` rounded to `places + 1` significant digits, a tie to the even digit. -/
def significant (places : Nat) (c : Nat) : Decimal :=
  if c = 0 then ⟨0, 0⟩
  else
    let units := unitsOfCode c
    let lead := leadingPower units 5 (decimalCeiling c)
    let ratio := gridRatio (2 * units) (lead - places)
    let n := divNearestEven ratio.1 ratio.2
    if n = 10 ^ (places + 1) then ⟨10 ^ places, lead + 1 - places⟩ else ⟨n, lead - places⟩

end Binary64

end TriadMesh
