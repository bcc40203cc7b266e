import TriadMesh.Json.Basic
import TriadMesh.Json.Numeral

/-!
# Reading JSON

`Json.parse?` reads a text as one value. Strings are checked for control characters and for the form of
their escapes, numbers for their grammar; what they mean is left open.
-/

namespace TriadMesh.Json

def skip : List Char → List Char
  | [] => []
  | c :: rest => if c = ' ' ∨ c = '\n' ∨ c = '\t' ∨ c = '\r' then skip rest else c :: rest

/-- Reads the rest of a string after its opening quote: what stands before the closing quote, and what
follows it. -/
def scanString : List Char → Option (List Char × List Char)
  | [] => none
  | '"' :: rest => some ([], rest)
  | '\\' :: 'u' :: a :: b :: c :: d :: rest =>
    if (hexValue4? a b c d).isSome then
      (scanString rest).map fun p => ('\\' :: 'u' :: a :: b :: c :: d :: p.1, p.2)
    else none
  | '\\' :: c :: rest =>
    if (shortEscape? c).isSome then (scanString rest).map fun p => ('\\' :: c :: p.1, p.2) else none
  | c :: rest => if c.toNat < 32 ∨ c = '\\' then none else (scanString rest).map fun p => (c :: p.1, p.2)

def isNumberChar (c : Char) : Bool := c.isDigit || c = '-' || c = '+' || c = '.' || c = 'e' || c = 'E'

/-- Reads a number: nothing that may follow one can be part of one. -/
def scanNumber (text : List Char) : Option (Json × List Char) :=
  if (Numeral.ofChars? (text.takeWhile isNumberChar)).isSome then
    some (number (text.takeWhile isNumberChar), text.dropWhile isNumberChar)
  else none

mutual

def scanValue : Nat → List Char → Option (Json × List Char)
  | 0, _ => none
  | fuel + 1, text =>
    match skip text with
    | 'n' :: 'u' :: 'l' :: 'l' :: rest => some (null, rest)
    | 't' :: 'r' :: 'u' :: 'e' :: rest => some (bool true, rest)
    | 'f' :: 'a' :: 'l' :: 's' :: 'e' :: rest => some (bool false, rest)
    | '"' :: rest => (scanString rest).map fun p => (string p.1, p.2)
    | '[' :: rest =>
      match skip rest with
      | ']' :: tail => some (array [], tail)
      | other => (scanItems fuel other).map fun p => (array p.1, p.2)
    | '\x7b' :: rest =>
      match skip rest with
      | '\x7d' :: tail => some (object [], tail)
      | other => (scanMembers fuel other).map fun p => (object p.1, p.2)
    | other => scanNumber other

/-- Reads the items of an array up to its bracket. -/
def scanItems : Nat → List Char → Option (List Json × List Char)
  | 0, _ => none
  | fuel + 1, text =>
    match scanValue fuel text with
    | none => none
    | some (v, rest) =>
      match skip rest with
      | ']' :: tail => some ([v], tail)
      | ',' :: tail => (scanItems fuel tail).map fun p => (v :: p.1, p.2)
      | _ => none

/-- Reads the members of an object up to its brace. -/
def scanMembers : Nat → List Char → Option (List (List Char × Json) × List Char)
  | 0, _ => none
  | fuel + 1, text =>
    match skip text with
    | '"' :: rest =>
      match scanString rest with
      | none => none
      | some (k, afterKey) =>
        match skip afterKey with
        | ':' :: afterColon =>
          match scanValue fuel afterColon with
          | none => none
          | some (v, afterValue) =>
            match skip afterValue with
            | '\x7d' :: tail => some ([(k, v)], tail)
            | ',' :: tail => (scanMembers fuel tail).map fun p => ((k, v) :: p.1, p.2)
            | _ => none
        | _ => none
    | _ => none

end

/-- Reads a text as one value with nothing but blanks around it. Each level of nesting, and each item,
takes up a character, so twice the length of the text bounds the calls. -/
def parseChars? (text : List Char) : Option Json :=
  match scanValue (2 * text.length + 2) text with
  | some (v, rest) => if skip rest = [] then some v else none
  | none => none

def parse? (text : String) : Option Json := parseChars? text.toList

end TriadMesh.Json
