import TriadMesh.Text.HexDigit

/-!
# Strings of TOML

Reading and writing of the four forms: quoted with escapes or literal, on one line or on several. The
writer takes the first form in a fixed order that can hold the text.
-/

namespace TriadMesh.Toml

/-- Whether a character may stand in a string or comment as it is: no control character but the tab. -/
def isPlain (c : Char) : Bool := c = '\t' || (32 ≤ c.toNat && c.toNat != 127)

def skipBlanks : List Char → List Char
  | [] => []
  | c :: rest => if c = ' ' ∨ c = '\t' then skipBlanks rest else c :: rest

/-- What follows a line break, if the text begins with one. -/
def lineBreak? : List Char → Option (List Char)
  | '\n' :: rest => some rest
  | '\r' :: '\n' :: rest => some rest
  | _ => none

def hexNumber? (digits : List Char) : Option Nat :=
  digits.foldlM (fun n c => (Text.hexValue? c).map (16 * n + ·)) 0

/-- The character with a number; surrogates and numbers out of range have none. -/
def scalar? (n : Nat) : Option Char :=
  if n < 0xD800 ∨ (0xE000 ≤ n ∧ n < 0x110000) then some (Char.ofNat n) else none

def escape? : List Char → Option (Char × List Char)
  | 'b' :: rest => some (Char.ofNat 8, rest)
  | 'f' :: rest => some (Char.ofNat 12, rest)
  | 'n' :: rest => some ('\n', rest)
  | 'r' :: rest => some ('\r', rest)
  | 't' :: rest => some ('\t', rest)
  | '\\' :: rest => some ('\\', rest)
  | '"' :: rest => some ('"', rest)
  | 'u' :: rest =>
    if rest.length < 4 then none
    else ((hexNumber? (rest.take 4)).bind scalar?).map fun c => (c, rest.drop 4)
  | 'U' :: rest =>
    if rest.length < 8 then none
    else ((hexNumber? (rest.take 8)).bind scalar?).map fun c => (c, rest.drop 8)
  | _ => none

def skipLines : Nat → List Char → List Char
  | 0, text => text
  | fuel + 1, text =>
    match skipBlanks text with
    | '\n' :: rest => skipLines fuel rest
    | '\r' :: '\n' :: rest => skipLines fuel rest
    | rest => rest

/-! ## Reading -/

/-- Reads a quoted string of one line after its quote. -/
def scanQuoted : Nat → List Char → Option (List Char × List Char)
  | 0, _ => none
  | _ + 1, [] => none
  | fuel + 1, c :: rest =>
    if c = '"' then some ([], rest)
    else if c = '\\' then
      match escape? rest with
      | some (e, tail) => (scanQuoted fuel tail).map fun p => (e :: p.1, p.2)
      | none => none
    else if isPlain c then (scanQuoted fuel rest).map fun p => (c :: p.1, p.2)
    else none

/-- Reads a literal string of one line after its quote. -/
def scanLiteral : List Char → Option (List Char × List Char)
  | [] => none
  | c :: rest =>
    if c = '\x27' then some ([], rest)
    else if isPlain c then (scanLiteral rest).map fun p => (c :: p.1, p.2)
    else none

/-- Looks for the three quotes that end a string of several lines; up to two more before them belong to
the text. -/
def closing? (quote : Char) : List Char → Option (List Char × List Char)
  | a :: b :: c :: rest =>
    if a = quote ∧ b = quote ∧ c = quote then
      match rest with
      | d :: e :: tail =>
        if d = quote ∧ e = quote then some ([quote, quote], tail)
        else if d = quote then some ([quote], e :: tail)
        else some ([], d :: e :: tail)
      | [d] => if d = quote then some ([quote], []) else some ([], [d])
      | [] => some ([], [])
    else none
  | _ => none

/-- Reads a quoted string of several lines after its quotes. A backslash at the end of a line skips to the
next character that is not blank. -/
def scanQuotedLines : Nat → List Char → Option (List Char × List Char)
  | 0, _ => none
  | fuel + 1, text =>
    match closing? '"' text with
    | some found => some found
    | none =>
      match lineBreak? text with
      | some rest => (scanQuotedLines fuel rest).map fun p => ('\n' :: p.1, p.2)
      | none =>
        match text with
        | [] => none
        | '\\' :: rest =>
          if (lineBreak? (skipBlanks rest)).isSome then scanQuotedLines fuel (skipLines rest.length rest)
          else match escape? rest with
            | some (e, tail) => (scanQuotedLines fuel tail).map fun p => (e :: p.1, p.2)
            | none => none
        | c :: rest =>
          if isPlain c then (scanQuotedLines fuel rest).map fun p => (c :: p.1, p.2) else none

/-- Reads a literal string of several lines after its quotes. -/
def scanLiteralLines : Nat → List Char → Option (List Char × List Char)
  | 0, _ => none
  | fuel + 1, text =>
    match closing? '\x27' text with
    | some found => some found
    | none =>
      match lineBreak? text with
      | some rest => (scanLiteralLines fuel rest).map fun p => ('\n' :: p.1, p.2)
      | none =>
        match text with
        | [] => none
        | c :: rest =>
          if isPlain c then (scanLiteralLines fuel rest).map fun p => (c :: p.1, p.2) else none

/-- A line break right after the opening quotes does not belong to the text. -/
def dropLineBreak (text : List Char) : List Char := (lineBreak? text).getD text

def scanString? : List Char → Option (List Char × List Char)
  | '"' :: '"' :: '"' :: rest => scanQuotedLines (rest.length + 1) (dropLineBreak rest)
  | '"' :: rest => scanQuoted (rest.length + 1) rest
  | '\x27' :: '\x27' :: '\x27' :: rest => scanLiteralLines (rest.length + 1) (dropLineBreak rest)
  | '\x27' :: rest => scanLiteral rest
  | _ => none

/-! ## Writing -/

/-- A control character that only an escape can express. -/
def needsEscape (c : Char) : Bool := (c.toNat < 32 && c != '\t' && c != '\n') || c.toNat == 127

def longestRun (quote : Char) (text : List Char) : Nat :=
  (text.foldl (fun (r : Nat × Nat) c =>
    let run := if c = quote then r.1 + 1 else 0
    (run, max r.2 run)) (0, 0)).2

/-- A character other than a quote as it stands in a quoted string, and whether that is an escape. -/
def quotedChar (lines : Bool) (c : Char) : List Char × Bool :=
  if c = '\t' then (['\\', 't'], true)
  else if c = '\n' then (if lines then (['\n'], false) else (['\\', 'n'], true))
  else if c = '\r' then (['\\', 'r'], true)
  else if c = '\\' then (['\\', '\\'], true)
  else if c.toNat = 8 then (['\\', 'b'], true)
  else if c.toNat = 12 then (['\\', 'f'], true)
  else if c.toNat < 32 ∨ c.toNat = 127 then
    (['\\', 'u', '0', '0', Text.upperHexDigit (c.toNat / 16), Text.upperHexDigit (c.toNat % 16)], true)
  else ([c], false)

/-- The text between the quotes. On several lines two quotes in a row may stand as they are; `run` counts
those since the last escape or other character. -/
def quotedBody (lines : Bool) : Nat → List Char → List Char
  | _, [] => []
  | run, c :: rest =>
    if c = '"' then
      if run < (if lines then 2 else 0) then '"' :: quotedBody lines (run + 1) rest
      else '\\' :: '"' :: quotedBody lines 0 rest
    else (quotedChar lines c).1 ++ quotedBody lines 0 rest

/-- The text of a string in the first form that can hold it. -/
def renderString (text : List Char) : List Char :=
  let control := text.any needsEscape
  let backslash := text.contains '\\'
  let newline := text.contains '\n'
  let double := longestRun '"' text
  let single := longestRun '\x27' text
  let opening := if newline then ['\n'] else []
  if !control && !backslash && double == 0 && !newline then '"' :: quotedBody false 0 text ++ ['"']
  else if !control && single == 0 && !newline then '\x27' :: text ++ ['\x27']
  else if !control && !backslash && double ≤ 2 then
    ['"', '"', '"'] ++ opening ++ quotedBody true 0 text ++ ['"', '"', '"']
  else if !control && single ≤ 2 then ['\x27', '\x27', '\x27'] ++ opening ++ text ++ ['\x27', '\x27', '\x27']
  else if newline then ['"', '"', '"'] ++ opening ++ quotedBody true 0 text ++ ['"', '"', '"']
  else '"' :: quotedBody false 0 text ++ ['"']

end TriadMesh.Toml
