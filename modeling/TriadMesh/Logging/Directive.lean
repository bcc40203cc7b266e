import TriadMesh.Record
import TriadMesh.Text.Alphanumeric

/-!
# Log directives

A list of directives says which records are shown. Its parts are separated by commas; each is a level, a
target, or `target[span\x7bfield\x7d]=level` with some of these left out. Blanks around a part are skipped in
order to find where its pieces begin, but the pieces themselves are cut out of the part with its blanks,
at the same byte offsets.
-/

namespace TriadMesh.Logging

/-- What is shown of a target: nothing, or the records of a level and of those above. -/
abbrev Threshold := Option Level

structure Directive where
  target : Option String
  span : Option String
  fields : List String
  threshold : Threshold
deriving DecidableEq

inductive DirectiveError where
  | malformed
  | badLevel
  /-- A piece would begin or end in the middle of a character. -/
  | splitCharacter
deriving DecidableEq

/-- Levels by name, in any case. -/
def thresholdOfName? (name : String) : Option Threshold :=
  match name with
  | "off" => some none
  | "error" => some (some .error)
  | "warn" => some (some .warn)
  | "info" => some (some .info)
  | "debug" => some (some .debug)
  | "trace" => some (some .trace)
  | _ => none

def thresholdOfNumber? : Nat → Option Threshold
  | 0 => some none
  | 1 => some (some .error)
  | 2 => some (some .warn)
  | 3 => some (some .info)
  | 4 => some (some .debug)
  | 5 => some (some .trace)
  | _ => none

/-- Reads a level: a number, possibly with a plus sign, or a name. -/
def threshold? (text : List Char) : Option Threshold :=
  let digits := match text with
    | '+' :: rest => rest
    | other => other
  if digits ≠ [] ∧ digits.all Char.isDigit then
    thresholdOfNumber? (Nat.ofDigitChars 10 digits 0)
  else thresholdOfName? (String.ofList (text.map Char.toLower))

/-- What follows the first bytes of a text; `none` if that is in the middle of a character. -/
def dropBytes? : Nat → List Char → Option (List Char)
  | 0, text => some text
  | _ + 1, [] => none
  | n + 1, c :: rest => if c.utf8Size ≤ n + 1 then dropBytes? (n + 1 - c.utf8Size) rest else none

/-- The first bytes of a text; `none` if they end in the middle of a character. -/
def takeBytes? (n : Nat) (text : List Char) : Option (List Char) :=
  (dropBytes? n text).map fun rest => text.take (text.length - rest.length)

/-- The piece of a part between two offsets. -/
def piece (part : List Char) (start stop : Nat) : Except DirectiveError (List Char) :=
  match (dropBytes? start part).bind (takeBytes? (stop - start)) with
  | some text => .ok text
  | none => .error .splitCharacter

/-- The piece of a part from an offset on. -/
def pieceFrom (part : List Char) (start : Nat) : Except DirectiveError (List Char) :=
  match dropBytes? start part with
  | some text => .ok text
  | none => .error .splitCharacter

/-- Where in a part the reader is. -/
inductive Place where
  | start
  /-- In a level or a target. -/
  | name
  | span (start : Nat)
  | field (start : Nat)
  | afterField
  | afterSpan
  | level (start : Nat)

/-- Whether a level or target may begin with a character. -/
def beginsName (c : Char) : Bool := c = '-' || c = ':' || c = '_' || Text.isAlphanumeric c

/-- Takes one character, which stands at the given offset. -/
def step (part : List Char) (d : Directive) (offset : Nat) (c : Char) :
    Place → Except DirectiveError (Directive × Place)
  | .start =>
    if c = '[' then .ok (d, .span (offset + 1))
    else if beginsName c then .ok (d, .name)
    else .error .malformed
  | .name =>
    if c = '=' then do return ({ d with target := some (String.ofList (← piece part 0 offset)) }, .level (offset + 1))
    else if c = '[' then do
      return ({ d with target := some (String.ofList (← piece part 0 offset)) }, .span (offset + 1))
    else .ok (d, .name)
  | .span start =>
    if c = ']' then do return ({ d with span := some (String.ofList (← piece part start offset)) }, .afterSpan)
    else if c = '\x7b' then do
      let text ← piece part start offset
      return ({ d with span := if text = [] then none else some (String.ofList text) }, .field (offset + 1))
    else .ok (d, .span start)
  | .field start =>
    if c = '\x7d' then do
      let text ← piece part start offset
      if text = [] then throw .malformed
      return ({ d with fields := d.fields ++ [String.ofList text] }, .afterField)
    else .ok (d, .field start)
  | .afterField => if c = ']' then .ok (d, .afterSpan) else .error .malformed
  | .afterSpan => if c = '=' then .ok (d, .level (offset + 1)) else .error .malformed
  | .level start => .ok (d, .level start)

def steps (part : List Char) : Nat → List Char → Directive × Place → Except DirectiveError (Directive × Place)
  | _, [], state => .ok state
  | offset, c :: rest, state => do
    steps part (offset + c.utf8Size) rest (← step part state.1 offset c state.2)

/-- Reads one part. A target without a level shows everything. -/
def parsePart (part : List Char) : Except DirectiveError Directive := do
  let (d, place) ← steps part 0 (Text.trim part) (⟨none, none, [], some .trace⟩, .start)
  match place with
  | .name =>
    match threshold? part with
    | some t => return { d with threshold := t }
    | none => return { d with target := some (String.ofList part) }
  | .level start =>
    let text ← pieceFrom part start
    if text = [] then return d
    match threshold? text with
    | some t => return { d with threshold := t }
    | none => throw .badLevel
  | .afterSpan => return d
  | _ => throw .malformed

def parts : List Char → List (List Char)
  | [] => [[]]
  | c :: rest =>
    match parts rest with
    | [] => [[c]]
    | first :: others => if c = ',' then [] :: first :: others else (c :: first) :: others

/-- Reads a list of directives; empty parts are skipped. -/
def parse (text : String) : Except DirectiveError (List Directive) :=
  ((parts text.toList).filter (· ≠ [])).mapM parsePart

inductive SetupError where
  | directive (e : DirectiveError)
  | alreadySet
deriving DecidableEq

def SetupError.message : SetupError → String
  | .directive .badLevel =>
    "Logging error: error parsing level filter: expected one of \"off\", \"error\", \"warn\", \"info\", \"debug\", " ++
      "\"trace\", or a number 0-5"
  | .directive _ => "Logging error: invalid filter directive"
  | .alreadySet => "Logging error: a global default trace dispatcher has already been set"

/-- The directives in force: those of the environment, unless they are missing or cannot be read, and
otherwise the configured level. -/
def chosen (environment : Option String) (level : String) : Except DirectiveError (List Directive) :=
  match environment.map parse with
  | some (.ok ds) => .ok ds
  | some (.error .splitCharacter) => .error .splitCharacter
  | _ => parse level

def setUp (alreadySet : Bool) (environment : Option String) (level : String) :
    Except SetupError (List Directive) :=
  match chosen environment level with
  | .error e => .error (.directive e)
  | .ok ds => if alreadySet then .error .alreadySet else .ok ds

/-- The record of a setup that failed where a failure is not fatal. -/
def skipRecord (e : SetupError) : Record :=
  ⟨.warn, "Logging initialization skipped", [("error", .text e.message)]⟩

end TriadMesh.Logging
