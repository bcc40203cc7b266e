import TriadMesh.Toml.Document
import TriadMesh.Toml.Scalar
import TriadMesh.Toml.Text

/-!
# Reading TOML

`Toml.parse?` reads a document: the statements of its lines, and then the tables they make.
-/

namespace TriadMesh.Toml

/-- Arrays and inline tables may be nested less deep than this, and keys have fewer parts. -/
def nestingLimit : Nat := 80

/-- Skips a comment, if there is one; what stands in it must be plain. -/
def skipComment (text : List Char) : List Char :=
  match text with
  | '#' :: rest => rest.dropWhile isPlain
  | _ => text

/-- Skips the rest of a line: blanks, a comment, and the line break or the end of the text. -/
def endLine? (text : List Char) : Option (List Char) :=
  match skipComment (skipBlanks text) with
  | [] => some []
  | rest => lineBreak? rest

/-- Skips blanks, comments and line breaks. A comment ends with its line. -/
def skipLayout : Nat → List Char → Option (List Char)
  | 0, _ => none
  | fuel + 1, text =>
    match skipBlanks text with
    | '#' :: rest => (lineBreak? (rest.dropWhile isPlain)).bind (skipLayout fuel)
    | rest =>
      match lineBreak? rest with
      | some more => skipLayout fuel more
      | none => some rest

/-! ## Keys -/

def isBareChar (c : Char) : Bool := c.isAlphanum || c == '_' || c == '-'

def scanKeyPart? (text : List Char) : Option (String × List Char) :=
  match text with
  | '"' :: rest => (scanQuoted (rest.length + 1) rest).map fun p => (String.ofList p.1, p.2)
  | '\x27' :: rest => (scanLiteral rest).map fun p => (String.ofList p.1, p.2)
  | _ =>
    if text.takeWhile isBareChar = [] then none
    else some (String.ofList (text.takeWhile isBareChar), text.dropWhile isBareChar)

/-- Reads a key: its parts before the last, the last, and what follows. -/
def scanKeyParts : Nat → List Char → Option (List String × String × List Char)
  | 0, _ => none
  | fuel + 1, text =>
    match scanKeyPart? (skipBlanks text) with
    | none => none
    | some (part, rest) =>
      match skipBlanks rest with
      | '.' :: more => (scanKeyParts fuel more).map fun r => (part :: r.1, r.2)
      | other => some ([], part, other)

/-- Reads a key of fewer than `nestingLimit` parts. -/
def scanKey? (text : List Char) : Option (List String × String × List Char) :=
  (scanKeyParts (text.length + 1) text).bind fun r => if r.1.length + 1 < nestingLimit then some r else none

/-! ## Values -/

mutual

/-- Reads a value inside of `depth` arrays and inline tables. -/
def scanValue : Nat → Nat → List Char → Option (Value × List Char)
  | 0, _, _ => none
  | fuel + 1, depth, text =>
    match text with
    | '"' :: _ => (scanString? text).map fun p => (.text (String.ofList p.1), p.2)
    | '\x27' :: _ => (scanString? text).map fun p => (.text (String.ofList p.1), p.2)
    | '[' :: rest =>
      if depth + 1 < nestingLimit then (scanItems fuel (depth + 1) rest).map fun p => (.array p.1, p.2) else none
    | '\x7b' :: rest =>
      if depth + 1 < nestingLimit then
        match skipBlanks rest with
        | '\x7d' :: tail => some (.table [], tail)
        | _ => (scanPairs fuel (depth + 1) rest).bind fun p => (inlineTable? p.1).map fun v => (v, p.2)
      else none
    | _ => scanScalar? text

/-- Reads the items of an array up to its bracket. The last one may have a comma after it. -/
def scanItems : Nat → Nat → List Char → Option (List Value × List Char)
  | 0, _, _ => none
  | fuel + 1, depth, text =>
    match skipLayout (text.length + 1) text with
    | none => none
    | some (']' :: rest) => some ([], rest)
    | some start =>
      match scanValue fuel depth start with
      | none => none
      | some (v, afterValue) =>
        match skipLayout (afterValue.length + 1) afterValue with
        | some (']' :: rest) => some ([v], rest)
        | some (',' :: rest) => (scanItems fuel depth rest).map fun p => (v :: p.1, p.2)
        | _ => none

/-- Reads the pairs of an inline table up to its brace. The last one has no comma after it. -/
def scanPairs : Nat → Nat → List Char → Option (List (List String × String × Value) × List Char)
  | 0, _, _ => none
  | fuel + 1, depth, text =>
    match scanKey? text with
    | some (path, key, '=' :: afterKey) =>
      match scanValue fuel depth (skipBlanks afterKey) with
      | none => none
      | some (v, afterValue) =>
        match skipBlanks afterValue with
        | '\x7d' :: rest => some ([(path, key, v)], rest)
        | ',' :: rest => (scanPairs fuel depth rest).map fun p => ((path, key, v) :: p.1, p.2)
        | _ => none
    | _ => none

end

/-! ## Documents -/

/-- Reads a statement that stands at the beginning of a text, and the rest of its line. -/
def scanStatement? (text : List Char) : Option (Statement × List Char) :=
  match text with
  | '[' :: '[' :: rest =>
    match scanKey? rest with
    | some (path, key, ']' :: ']' :: tail) => (endLine? tail).map fun r => (.arrayHeader path key, r)
    | _ => none
  | '[' :: rest =>
    match scanKey? rest with
    | some (path, key, ']' :: tail) => (endLine? tail).map fun r => (.header path key, r)
    | _ => none
  | _ =>
    match scanKey? text with
    | some (path, key, '=' :: rest) =>
      match scanValue (2 * rest.length + 2) 0 (skipBlanks rest) with
      | some (v, tail) => (endLine? tail).map fun r => (.assign path key v, r)
      | none => none
    | _ => none

def scanStatements : Nat → List Char → Option (List Statement)
  | 0, _ => none
  | fuel + 1, text =>
    match skipBlanks text with
    | [] => some []
    | '#' :: rest => (endLine? ('#' :: rest)).bind (scanStatements fuel)
    | start =>
      match lineBreak? start with
      | some rest => scanStatements fuel rest
      | none =>
        match scanStatement? start with
        | some (s, rest) => (scanStatements fuel rest).map (s :: ·)
        | none => none

/-- Reads a document. A byte order mark may stand in front of it. -/
def parse? (text : String) : Option Value :=
  let chars := match text.toList with
    | '\uFEFF' :: rest => rest
    | other => other
  (scanStatements (chars.length + 1) chars).bind Document.ofStatements?

end TriadMesh.Toml
