import TriadMesh.Text.HexDigit
import TriadMesh.Toml.Value

/-!
# Numbers, truth values and dates of TOML
-/

namespace TriadMesh.Toml

/-- Digits in which single underscores may stand between two digits, without the underscores. -/
def groups? (isDigit : Char → Bool) : List Char → Option (List Char)
  | [] => none
  | [c] => if isDigit c then some [c] else none
  | c :: '_' :: rest => if isDigit c then (groups? isDigit rest).map (c :: ·) else none
  | c :: rest => if isDigit c then (groups? isDigit rest).map (c :: ·) else none

/-- The number that digits stand for in a base up to sixteen. -/
def numberOf (base : Nat) (digits : List Char) : Nat :=
  digits.foldl (fun n c => base * n + (Text.hexValue? c).getD 0) 0

def integer? (n : Int) : Option Value := if -2 ^ 63 ≤ n ∧ n < 2 ^ 63 then some (.integer n) else none

/-- A whole number without leading zeros. -/
def whole? (text : List Char) : Option (List Char) :=
  match text with
  | ['0'] => some ['0']
  | '0' :: _ => none
  | _ => groups? Char.isDigit text

def isPart (c : Char) : Bool := c.isDigit || c == '_'

/-- The exponent of a float; 0 if there is none. -/
def exponent? : List Char → Option Int
  | [] => some 0
  | mark :: rest =>
    if mark = 'e' ∨ mark = 'E' then
      match rest with
      | '-' :: digits => (groups? Char.isDigit digits).map fun ds => -(Nat.ofDigitChars 10 ds 0 : Int)
      | '+' :: digits => (groups? Char.isDigit digits).map fun ds => (Nat.ofDigitChars 10 ds 0 : Int)
      | digits => (groups? Char.isDigit digits).map fun ds => (Nat.ofDigitChars 10 ds 0 : Int)
    else none

/-- The float of a decimal. One above the greatest float is refused. -/
def float? (neg : Bool) (whole places : List Char) (e : Int) : Option Value :=
  let x := Binary64.ofDecimal neg (Nat.ofDigitChars 10 (whole ++ places) 0) (e - places.length)
  if x = .infinity false then none else some (.float x)

/-- Reads a decimal after its sign. -/
def decimal? (neg : Bool) (text : List Char) : Option Value := do
  let whole ← whole? (text.takeWhile isPart)
  match text.dropWhile isPart with
  | [] => integer? (if neg then -(Nat.ofDigitChars 10 whole 0 : Int) else Nat.ofDigitChars 10 whole 0)
  | '.' :: rest =>
    let places ← groups? Char.isDigit (rest.takeWhile isPart)
    float? neg whole places (← exponent? (rest.dropWhile isPart))
  | rest => float? neg whole [] (← exponent? rest)

/-- Reads a number after its sign. -/
def signed? (neg : Bool) (text : List Char) : Option Value :=
  if text = ['i', 'n', 'f'] then some (.float (.infinity neg))
  else if text = ['n', 'a', 'n'] then some (.float (if neg then Binary64.nan.neg else .nan))
  else decimal? neg text

/-- Reads a truth value or a number from all its characters. -/
def word? : List Char → Option Value
  | ['t', 'r', 'u', 'e'] => some (.flag true)
  | ['f', 'a', 'l', 's', 'e'] => some (.flag false)
  | '0' :: 'x' :: rest => (groups? (fun c => (Text.hexValue? c).isSome) rest).bind fun ds => integer? (numberOf 16 ds)
  | '0' :: 'o' :: rest => (groups? (fun c => '0' ≤ c && c ≤ '7') rest).bind fun ds => integer? (numberOf 8 ds)
  | '0' :: 'b' :: rest => (groups? (fun c => c == '0' || c == '1') rest).bind fun ds => integer? (numberOf 2 ds)
  | '-' :: rest => signed? true rest
  | '+' :: rest => signed? false rest
  | text => signed? false text

/-- Whether a character can be part of a truth value or a number. -/
def isWordChar (c : Char) : Bool := c.isAlphanum || c == '_' || c == '.' || c == '+' || c == '-'

/-! ## Dates -/

/-- Reads two digits as a number between two bounds. -/
def twoDigits? (low high : Nat) : List Char → Option (Nat × List Char)
  | a :: b :: rest =>
    if a.isDigit && b.isDigit && low ≤ Nat.ofDigitChars 10 [a, b] 0 && Nat.ofDigitChars 10 [a, b] 0 ≤ high then
      some (Nat.ofDigitChars 10 [a, b] 0, rest)
    else none
  | _ => none

def expect? (c : Char) : List Char → Option (List Char)
  | d :: rest => if c = d then some rest else none
  | [] => none

def daysIn (year month : Nat) : Nat :=
  if month = 2 then (if year % 4 = 0 ∧ (year % 100 ≠ 0 ∨ year % 400 = 0) then 29 else 28)
  else if month = 4 ∨ month = 6 ∨ month = 9 ∨ month = 11 then 30 else 31

/-- Reads hours, minutes and seconds, and what follows the point if there is one. -/
def time? (text : List Char) : Option (List Char) := do
  let (_, rest) ← twoDigits? 0 23 text
  let (_, rest) ← twoDigits? 0 59 (← expect? ':' rest)
  let (_, rest) ← twoDigits? 0 60 (← expect? ':' rest)
  match rest with
  | '.' :: more => if more.takeWhile Char.isDigit = [] then none else some (more.dropWhile Char.isDigit)
  | _ => some rest

/-- Reads the offset from universal time, if there is one. -/
def offset? : List Char → Option (List Char)
  | 'Z' :: rest => some rest
  | 'z' :: rest => some rest
  | sign :: rest =>
    if sign = '+' ∨ sign = '-' then do
      let (_, rest) ← twoDigits? 0 23 rest
      let (_, rest) ← twoDigits? 0 59 (← expect? ':' rest)
      some rest
    else some (sign :: rest)
  | [] => some []

/-- Reads a day, and a time of day after a T or a blank if there is one. A blank that no hour with a
colon follows does not belong to the date. -/
def day? (text : List Char) : Option (List Char) := do
  let year := Nat.ofDigitChars 10 (text.take 4) 0
  let (month, rest) ← twoDigits? 1 12 (← expect? '-' (text.drop 4))
  let (_, rest) ← twoDigits? 1 (daysIn year month) (← expect? '-' rest)
  match rest with
  | mark :: a :: b :: ':' :: more =>
    if (mark = 'T' ∨ mark = 't' ∨ mark = ' ') ∧ a.isDigit ∧ b.isDigit then
      offset? (← time? (a :: b :: ':' :: more))
    else some rest
  | _ => some rest

/-- Reads a date or a time if the text begins like one: `none` if it does not, and otherwise what follows
it, if it is well formed. -/
def date? (text : List Char) : Option (Option (List Char)) :=
  match text with
  | a :: b :: ':' :: _ => if a.isDigit && b.isDigit then some (time? text) else none
  | a :: b :: c :: d :: '-' :: _ =>
    if a.isDigit && b.isDigit && c.isDigit && d.isDigit then some (day? text) else none
  | _ => none

/-- Reads a value that is neither a string nor has parts. -/
def scanScalar? (text : List Char) : Option (Value × List Char) :=
  match date? text with
  | some rest => rest.map fun r => (.date, r)
  | none => (word? (text.takeWhile isWordChar)).map fun v => (v, text.dropWhile isWordChar)

end TriadMesh.Toml
