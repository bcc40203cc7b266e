/-!
# Floats of 64 bits

A float is its bit pattern, so a NaN keeps its sign and payload. A finite float is a multiple of the
least positive one, 2^-1074; that multiple is called its *units*. Every operation computes the exact
result in units and rounds it once, to the nearest float and on a tie to the one with an even code.
-/

namespace TriadMesh

-- A power with a natural exponent means the same whichever library is imported besides.
attribute [instance (high), default_instance 20000] instPowNat

/-- A float of the interchange format with one sign bit, eleven exponent bits and 52 fraction bits. -/
structure Binary64 where
  bits : UInt64
deriving DecidableEq, Inhabited

namespace Binary64

/-- The bits below the sign: exponent field and fraction as one number. It grows with the magnitude. -/
def code (x : Binary64) : Nat := x.bits.toNat % 2 ^ 63

def negative (x : Binary64) : Bool := decide (2 ^ 63 ≤ x.bits.toNat)

/-- The code of the infinities; the NaNs have greater codes. -/
def infinityCode : Nat := 2047 * 2 ^ 52

/-- The float of a sign and a code. -/
def ofCode (neg : Bool) (code : Nat) : Binary64 :=
  ⟨UInt64.ofNat ((if neg then 2 ^ 63 else 0) + code)⟩

def isNaN (x : Binary64) : Bool := decide (infinityCode < x.code)

def isFinite (x : Binary64) : Bool := decide (x.code < infinityCode)

def isInfinite (x : Binary64) : Bool := decide (x.code = infinityCode)

def isZero (x : Binary64) : Bool := decide (x.code = 0)

def nan : Binary64 := ⟨0x7ff8000000000000⟩

def infinity (neg : Bool) : Binary64 := ofCode neg infinityCode

def zero (neg : Bool) : Binary64 := ofCode neg 0

/-- Units of the float with a given code: the fraction alone below the least normal float, and the
fraction with its leading bit, scaled by the exponent field, from there on. -/
def unitsOfCode (c : Nat) : Nat :=
  if c < 2 ^ 52 then c else (2 ^ 52 + c % 2 ^ 52) * 2 ^ (c / 2 ^ 52 - 1)

/-- The magnitude of a finite float as a multiple of 2^-1074. -/
def units (x : Binary64) : Nat := unitsOfCode x.code

/-- The value of a finite float as a multiple of 2^-1074. -/
def signedUnits (x : Binary64) : Int := if x.negative then -(x.units : Int) else x.units

/-- The number of units in the value 1. -/
def unitsInOne : Nat := 2 ^ 1074

/-- The quotient rounded to the nearest natural number, a tie to the even one. -/
def divNearestEven (n d : Nat) : Nat :=
  if 2 * (n % d) < d ∨ (2 * (n % d) = d ∧ n / d % 2 = 0) then n / d else n / d + 1

/-- The code nearest to `num / den` units. The quotient is cut to 53 bits by a power of two; since a
code one exponent higher stands for twice the units, shift and rounded quotient simply add up, and a
carry out of the fraction lands in the exponent. -/
def codeOfRatio (num den : Nat) : Nat :=
  let shift := (num / den).log2 - 52
  min (shift * 2 ^ 52 + divNearestEven num (den * 2 ^ shift)) infinityCode

def ofRatio (neg : Bool) (num den : Nat) : Binary64 := ofCode neg (codeOfRatio num den)

def ofInt (n : Int) : Binary64 := ofRatio (decide (n < 0)) (n.natAbs * unitsInOne) 1

/-- The float nearest to `significand * 10 ^ exponent`. Exponents that are out of reach whatever the
significand are answered without computing the power. -/
def ofDecimal (neg : Bool) (significand : Nat) (exponent : Int) : Binary64 :=
  if significand = 0 then zero neg
  else if 400 < exponent then infinity neg
  else if exponent < -(400 + significand.log2) then zero neg
  else if 0 ≤ exponent then ofRatio neg (significand * 10 ^ exponent.toNat * unitsInOne) 1
  else ofRatio neg (significand * unitsInOne) (10 ^ (-exponent).toNat)

instance (n : Nat) : OfNat Binary64 n := ⟨ofInt n⟩

/-! ## Arithmetic -/

def neg (x : Binary64) : Binary64 := ofCode (!x.negative) x.code

def abs (x : Binary64) : Binary64 := ofCode false x.code

/-- The sum. An exact zero is positive unless both terms are negative. -/
def add (x y : Binary64) : Binary64 :=
  if x.isNaN || y.isNaN then nan
  else if x.isInfinite then
    if y.isInfinite && x.negative != y.negative then nan else x
  else if y.isInfinite then y
  else if x.signedUnits + y.signedUnits = 0 then zero (x.negative && y.negative)
  else ofRatio (decide (x.signedUnits + y.signedUnits < 0)) (x.signedUnits + y.signedUnits).natAbs 1

def sub (x y : Binary64) : Binary64 := add x y.neg

/-- The product; infinity times zero has no value. -/
def mul (x y : Binary64) : Binary64 :=
  if x.isNaN || y.isNaN then nan
  else if x.isInfinite || y.isInfinite then
    if x.isZero || y.isZero then nan else infinity (x.negative != y.negative)
  else ofRatio (x.negative != y.negative) (x.units * y.units) unitsInOne

/-- The quotient; zero by zero and infinity by infinity have no value. -/
def div (x y : Binary64) : Binary64 :=
  if x.isNaN || y.isNaN then nan
  else if x.isInfinite then
    if y.isInfinite then nan else infinity (x.negative != y.negative)
  else if y.isInfinite then zero (x.negative != y.negative)
  else if y.isZero then
    if x.isZero then nan else infinity (x.negative != y.negative)
  else ofRatio (x.negative != y.negative) (x.units * unitsInOne) y.units

instance : Neg Binary64 := ⟨neg⟩
instance : Add Binary64 := ⟨add⟩
instance : Sub Binary64 := ⟨sub⟩
instance : Mul Binary64 := ⟨mul⟩
instance : Div Binary64 := ⟨div⟩

/-! ## Comparison -/

/-- A number that orders the floats other than NaNs; both zeros have rank 0. -/
def rank (x : Binary64) : Int := if x.negative then -(x.code : Int) else x.code

/-- A NaN is not comparable, and the two zeros are equal. -/
instance : LE Binary64 := ⟨fun x y => x.isNaN = false ∧ y.isNaN = false ∧ x.rank ≤ y.rank⟩

instance : LT Binary64 := ⟨fun x y => x.isNaN = false ∧ y.isNaN = false ∧ x.rank < y.rank⟩

instance (x y : Binary64) : Decidable (x ≤ y) :=
  inferInstanceAs (Decidable (x.isNaN = false ∧ y.isNaN = false ∧ x.rank ≤ y.rank))

instance (x y : Binary64) : Decidable (x < y) :=
  inferInstanceAs (Decidable (x.isNaN = false ∧ y.isNaN = false ∧ x.rank < y.rank))

/-- Equality of values: no NaN equals anything, and the two zeros are equal. -/
def equals (x y : Binary64) : Bool := !x.isNaN && !y.isNaN && x.rank == y.rank

end Binary64

end TriadMesh
