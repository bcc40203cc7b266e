import TriadMesh.Binary64.Text
import TriadMesh.Text.HexDigit

/-!
# JSON values

A value keeps its numbers and strings as they are written, without reading them: whether a number is in
range, or an escape names a character, matters only where the value is used. `Json.compact` and
`Json.pretty` write a value out; `Json.ofFloat` and `Json.ofText` make the written forms.
-/

namespace TriadMesh

inductive Json where
  | null
  | bool (b : Bool)
  | number (raw : List Char)
  /-- A string: what stands between the quotes. -/
  | string (raw : List Char)
  | array (items : List Json)
  /-- The keys, as they stand between their quotes, with their values, in the order written. -/
  | object (members : List (List Char × Json))
deriving Inhabited

namespace Json

/-! ## Strings -/

def hexValue4? (a b c d : Char) : Option Nat := do
  return (((← Text.hexValue? a) * 16 + (← Text.hexValue? b)) * 16 + (← Text.hexValue? c)) * 16 +
    (← Text.hexValue? d)

/-- A character as it stands in a string. Only quotes, backslashes and control characters are escaped. -/
def escapeChar (c : Char) : List Char :=
  if c = '"' then ['\\', '"']
  else if c = '\\' then ['\\', '\\']
  else if c.toNat = 8 then ['\\', 'b']
  else if c.toNat = 9 then ['\\', 't']
  else if c.toNat = 10 then ['\\', 'n']
  else if c.toNat = 12 then ['\\', 'f']
  else if c.toNat = 13 then ['\\', 'r']
  else if c.toNat < 32 then ['\\', 'u', '0', '0', Text.hexDigit (c.toNat / 16), Text.hexDigit (c.toNat % 16)]
  else [c]

def escape (s : List Char) : List Char := s.flatMap escapeChar

/-- The character that a short escape stands for. -/
def shortEscape? (c : Char) : Option Char :=
  if c = '"' then some '"'
  else if c = '\\' then some '\\'
  else if c = '/' then some '/'
  else if c = 'b' then some (Char.ofNat 8)
  else if c = 'f' then some (Char.ofNat 12)
  else if c = 'n' then some '\n'
  else if c = 'r' then some '\r'
  else if c = 't' then some '\t'
  else none

/-- The text of a string. Code units outside the first plane come in pairs of escapes; a unit of a pair
that stands alone is no character. -/
def unescape? : List Char → Option (List Char)
  | [] => some []
  | '\\' :: 'u' :: a :: b :: c :: d :: rest =>
    match hexValue4? a b c d with
    | none => none
    | some u =>
      if u < 0xD800 ∨ 0xE000 ≤ u then (unescape? rest).map (Char.ofNat u :: ·)
      else if 0xDC00 ≤ u then none
      else match rest with
        | '\\' :: 'u' :: e :: f :: g :: h :: tail =>
          match hexValue4? e f g h with
          | none => none
          | some v =>
            if 0xDC00 ≤ v ∧ v < 0xE000 then
              (unescape? tail).map (Char.ofNat (0x10000 + (u - 0xD800) * 0x400 + (v - 0xDC00)) :: ·)
            else none
        | _ => none
  | '\\' :: c :: rest =>
    match shortEscape? c with
    | some e => (unescape? rest).map (e :: ·)
    | none => none
  | c :: rest => if c = '\\' then none else (unescape? rest).map (c :: ·)

def ofText (s : String) : Json := string (escape s.toList)

def key (s : String) : List Char := escape s.toList

/-! ## Numbers -/

/-- A float as a number, or `null` if it is not finite. -/
def ofFloat (x : Binary64) : Json :=
  if x.isFinite then number (Binary64.Style.json.renderChars x) else null

def ofNat (n : Nat) : Json := number (Nat.toDigits 10 n)

def ofInt (n : Int) : Json := number (if n < 0 then '-' :: Nat.toDigits 10 n.natAbs else Nat.toDigits 10 n.natAbs)

/-! ## Writing -/

def separated (separator : List Char) : List (List Char) → List Char
  | [] => []
  | [x] => x
  | x :: y :: rest => x ++ separator ++ separated separator (y :: rest)

mutual

def compactChars : Json → List Char
  | null => ['n', 'u', 'l', 'l']
  | bool true => ['t', 'r', 'u', 'e']
  | bool false => ['f', 'a', 'l', 's', 'e']
  | number raw => raw
  | string raw => '"' :: raw ++ ['"']
  | array items => '[' :: separated [','] (compactItems items) ++ [']']
  | object members => '\x7b' :: separated [','] (compactMembers members) ++ ['\x7d']

def compactItems : List Json → List (List Char)
  | [] => []
  | v :: rest => compactChars v :: compactItems rest

def compactMembers : List (List Char × Json) → List (List Char)
  | [] => []
  | (k, v) :: rest => ('"' :: k ++ '"' :: ':' :: compactChars v) :: compactMembers rest

end

def compact (v : Json) : String := String.ofList v.compactChars

/-- A line break with the indentation of a nesting depth, two blanks for each level. -/
def lineBreak (depth : Nat) : List Char := '\n' :: List.replicate (2 * depth) ' '

mutual

/-- The text of a value with every item and member on a line of its own. -/
def prettyChars (depth : Nat) : Json → List Char
  | array (v :: rest) =>
    '[' :: lineBreak (depth + 1) ++ separated (',' :: lineBreak (depth + 1)) (prettyItems (depth + 1) (v :: rest))
      ++ lineBreak depth ++ [']']
  | object (m :: rest) =>
    '\x7b' :: lineBreak (depth + 1)
      ++ separated (',' :: lineBreak (depth + 1)) (prettyMembers (depth + 1) (m :: rest))
      ++ lineBreak depth ++ ['\x7d']
  | v => compactChars v

def prettyItems (depth : Nat) : List Json → List (List Char)
  | [] => []
  | v :: rest => prettyChars depth v :: prettyItems depth rest

def prettyMembers (depth : Nat) : List (List Char × Json) → List (List Char)
  | [] => []
  | (k, v) :: rest => ('"' :: k ++ '"' :: ':' :: ' ' :: prettyChars depth v) :: prettyMembers depth rest

end

def pretty (v : Json) : String := String.ofList (v.prettyChars 0)

end Json

end TriadMesh
