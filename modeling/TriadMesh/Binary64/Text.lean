import TriadMesh.Binary64.Decimal

/-!
# Floats as text

One printer, `Style.render`, serves every text the program writes; a `Style` holds what a kind of text
decides for itself. `Binary64.ofText?` reads a float, correctly rounded.
-/

namespace TriadMesh.Binary64

/-- How a kind of text writes floats. -/
structure Style where
  /-- Of two equally near shortest decimals, take the greater instead of the even one. -/
  tieUp : Bool
  /-- The powers of ten of the first digit that are written without an exponent; `none` for all. -/
  positional : Option (Int × Int)
  /-- Integral values end in `.0`. -/
  fraction : Bool
  /-- Exponents that are not negative have a plus sign. -/
  plus : Bool
  nanText : String
  infinityText : String

/-- Error texts: never an exponent, and no fraction for integral values. -/
def Style.plain : Style := ⟨true, none, false, false, "NaN", "inf"⟩

/-- Inspection of a node: an exponent below 10^-4 and from 10^16 on. -/
def Style.inspect : Style := ⟨true, some (-4, 15), true, false, "NaN", "inf"⟩

/-- JSON: an exponent below 10^-5 and from 10^16 on, with a plus sign; it has no other numbers. -/
def Style.json : Style := ⟨false, some (-5, 15), true, true, "null", "null"⟩

/-- TOML: never an exponent, always a fraction. -/
def Style.toml : Style := ⟨true, none, true, false, "nan", "inf"⟩

/-- Digits with the decimal point where the exponent puts it. -/
def positionalText (fraction : Bool) (digits : List Char) (exponent : Int) : List Char :=
  if 0 ≤ exponent then
    digits ++ List.replicate exponent.toNat '0' ++ (if fraction then ['.', '0'] else [])
  else
    let places := (-exponent).toNat
    if places < digits.length then
      digits.take (digits.length - places) ++ '.' :: digits.drop (digits.length - places)
    else '0' :: '.' :: List.replicate (places - digits.length) '0' ++ digits

/-- An integer in decimal, with a plus sign if asked for. -/
def exponentText (plus : Bool) (e : Int) : List Char :=
  (if e < 0 then ['-'] else if plus then ['+'] else []) ++ Nat.toDigits 10 e.natAbs

/-- Digits with the point after the first and an exponent. -/
def scientificText (plus : Bool) (digits : List Char) (lead : Int) : List Char :=
  (match digits with
    | [] => []
    | [d] => [d]
    | d :: rest => d :: '.' :: rest) ++ 'e' :: exponentText plus lead

def Style.renderDecimal (s : Style) (d : Decimal) : List Char :=
  match s.positional with
  | none => positionalText s.fraction d.digits d.exponent
  | some (low, high) =>
    if low ≤ d.leadingExponent ∧ d.leadingExponent ≤ high then
      positionalText s.fraction d.digits d.exponent
    else scientificText s.plus d.digits d.leadingExponent

def Style.renderChars (s : Style) (x : Binary64) : List Char :=
  if x.isNaN then s.nanText.toList
  else if x.isInfinite then
    if x.negative && s.infinityText != s.nanText then '-' :: s.infinityText.toList else s.infinityText.toList
  else (if x.negative then ['-'] else []) ++ s.renderDecimal (shortest s.tieUp x.code)

def Style.render (s : Style) (x : Binary64) : String := String.ofList (s.renderChars x)

/-- Scientific notation with three places, the exact value rounded, a tie to the even digit. -/
def threePlaces (x : Binary64) : String :=
  if x.isNaN then "NaN"
  else
    (if x.negative then "-" else "") ++
      if x.isInfinite then "inf"
      else
        let d := significant 3 x.code
        if x.code = 0 then "0.000e0"
        else String.ofList (scientificText false d.digits d.leadingExponent)

/-! ## Reading -/

/-- Splits off an optional sign: whether it is a minus, and the rest. -/
def splitSign : List Char → Bool × List Char
  | '-' :: rest => (true, rest)
  | '+' :: rest => (false, rest)
  | rest => (false, rest)

/-- An exponent: `none` if the text is malformed, 0 if there is no text. -/
def exponentValue? : List Char → Option Int
  | [] => some 0
  | mark :: rest =>
    if mark = 'e' ∨ mark = 'E' then
      let (neg, digits) := splitSign rest
      if digits ≠ [] ∧ digits.all Char.isDigit then
        some (if neg then -(Nat.ofDigitChars 10 digits 0 : Int) else Nat.ofDigitChars 10 digits 0)
      else none
    else none

/-- Reads digits with an optional point and an optional exponent; at least one digit is needed. -/
def decimalOfText? (neg : Bool) (text : List Char) : Option Binary64 :=
  let whole := text.takeWhile Char.isDigit
  let rest := text.dropWhile Char.isDigit
  let (places, tail) := match rest with
    | '.' :: more => (more.takeWhile Char.isDigit, more.dropWhile Char.isDigit)
    | other => ([], other)
  if whole = [] ∧ places = [] then none
  else (exponentValue? tail).map fun e =>
    ofDecimal neg (Nat.ofDigitChars 10 (whole ++ places) 0) (e - places.length)

/-- Reads a float: a decimal, or `inf`, `infinity`, `nan` in any case, with an optional sign. A decimal
too large for a float gives an infinity. -/
def ofText? (text : List Char) : Option Binary64 :=
  let (neg, rest) := splitSign text
  let word := rest.map Char.toLower
  if word = "inf".toList ∨ word = "infinity".toList then some (infinity neg)
  else if word = "nan".toList then some (if neg then nan.neg else nan)
  else decimalOfText? neg rest

end TriadMesh.Binary64
