import TriadMesh.Binary64.Basic

/-!
# Numbers of JSON

A numeral is the grammar's reading of a written number. As an integer it is exact; as a float it is
read quickly rather than correctly rounded: as many digits as fit 64 bits become a float, which is then
multiplied or divided by a float power of ten.
-/

namespace TriadMesh

structure Numeral where
  negative : Bool
  whole : List Char
  /-- The digits after the point, if there is one. -/
  fraction : Option (List Char)
  /-- The power of ten after the mark, if there is one. -/
  exponent : Option Int

namespace Numeral

def digit (c : Char) : Nat := c.toNat - '0'.toNat

/-- Reads what follows the mark of an exponent. -/
def exponentOf? (text : List Char) : Option Int :=
  let (neg, digits) := match text with
    | '-' :: rest => (true, rest)
    | '+' :: rest => (false, rest)
    | rest => (false, rest)
  if digits ≠ [] ∧ digits.all Char.isDigit then
    some (if neg then -(Nat.ofDigitChars 10 digits 0 : Int) else Nat.ofDigitChars 10 digits 0)
  else none

/-- Reads what follows the fraction: nothing, or an exponent. -/
def tail? (n : Numeral) : List Char → Option Numeral
  | [] => some n
  | mark :: rest =>
    if mark = 'e' ∨ mark = 'E' then (exponentOf? rest).map fun e => { n with exponent := some e } else none

/-- Reads an unsigned number: no leading zero, and a digit after the point. -/
def unsigned? (negative : Bool) (text : List Char) : Option Numeral :=
  let whole := text.takeWhile Char.isDigit
  let n : Numeral := ⟨negative, whole, none, none⟩
  if whole = [] ∨ (whole.head? = some '0' ∧ whole ≠ ['0']) then none
  else match text.dropWhile Char.isDigit with
    | '.' :: more =>
      if more.takeWhile Char.isDigit = [] then none
      else { n with fraction := some (more.takeWhile Char.isDigit) }.tail? (more.dropWhile Char.isDigit)
    | rest => n.tail? rest

def ofChars? : List Char → Option Numeral
  | '-' :: rest => unsigned? true rest
  | text => unsigned? false text

/-! ## Integers -/

/-- The integer written without point and exponent; minus zero, and what needs more than 64 bits, are
not integers. -/
def toInt? (n : Numeral) : Option Int :=
  if n.fraction.isSome ∨ n.exponent.isSome then none
  else
    let v := Nat.ofDigitChars 10 n.whole 0
    if n.negative then (if v = 0 ∨ 2 ^ 63 < v then none else some (-(v : Int)))
    else if v < 2 ^ 64 then some v else none

/-! ## Floats -/

/-- Takes up digits while the number stays below `2 ^ 64`: the number, and the digits left over. -/
def absorb (n : Nat) : List Char → Nat × List Char
  | [] => (n, [])
  | c :: rest => if 10 * n + digit c < 2 ^ 64 then absorb (10 * n + digit c) rest else (n, c :: rest)

/-- Ten to a power from 0 to 308, as a float. -/
def powerOfTen (e : Nat) : Binary64 := .ofDecimal false 1 e

/-- Brings a float to a power of ten. Powers below the least that floats can express are reached in
steps; a result that is too large is refused. -/
def scale? (x : Binary64) (e : Int) : Option Binary64 :=
  if 308 < e then (if x.isZero then some x else none)
  else if 0 ≤ e then
    let y := x * powerOfTen e.toNat
    if y.isInfinite then none else some y
  else if -308 ≤ e then some (x / powerOfTen (-e).toNat)
  else if x.isZero then some x
  else scale? (x / powerOfTen 308) (e + 308)
termination_by e.natAbs
decreasing_by omega

/-- The significand, and the power of ten it is to be brought to. -/
def parts (n : Numeral) : Nat × Int :=
  let (s, skipped) := absorb 0 n.whole
  let places := n.fraction.getD []
  let (t, left) := absorb s places
  (t, (skipped.length : Int) - (places.length - left.length : Nat) + n.exponent.getD 0)

/-- The float that a number stands for; `none` if it is too large. -/
def toFloat? (n : Numeral) : Option Binary64 :=
  match n.toInt? with
  | some i => some (.ofInt i)
  | none =>
    let (s, e) := n.parts
    (scale? (.ofInt s) e).map fun x => if n.negative then x.neg else x

end Numeral

end TriadMesh
