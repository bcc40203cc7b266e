import TriadMesh.Config.Schema
import TriadMesh.Json.Decode
import TriadMesh.Toml.Parser

/-!
# Configuration documents

A configuration is read from TOML and checked, or read from JSON as it is; it is written as TOML.
-/

namespace TriadMesh

inductive ConfigError where
  | invalid (v : Violation)
  /-- A number above the greatest that TOML can hold. -/
  | tooLarge
  | malformed
  | missingFile
  | notText
deriving DecidableEq

/-- The text of an error; nothing is said about where a document is malformed. -/
def ConfigError.message : ConfigError → String
  | .invalid v => "Configuration error: " ++ v.message
  | .tooLarge => "Configuration error: out-of-range value for u64 type"
  | .malformed => "Config parse error"
  | .missingFile => "IO error: No such file or directory (os error 2)"
  | .notText => "IO error: stream did not contain valid UTF-8"

namespace Config

/-- TOML has integers of 64 bits with a sign. -/
def tomlReader : Reader Toml.Value where
  fields? := Toml.Value.fields?
  float? := Toml.Value.toFloat?
  text? := Toml.Value.toText?
  count? := Toml.Value.toNat?
  flag? := Toml.Value.toBool?

def jsonReader : Reader Json where
  fields? := Json.fields? true
  float? := Json.toFloat?
  text? := Json.toText?
  count? := Json.toNatBelow? (2 ^ 64)
  flag? := Json.toBool?

def ofTomlUnchecked? (text : String) : Option Config := (Toml.parse? text).bind (read? tomlReader)

def ofToml (text : String) : Except ConfigError Config :=
  match ofTomlUnchecked? text with
  | none => .error .malformed
  | some c =>
    match c.violation? with
    | some v => .error (.invalid v)
    | none => .ok c

/-- Reads a configuration from the bytes of a file, or from a file that is missing. -/
def ofFile (bytes : Option Bytes) : Except ConfigError Config :=
  match bytes with
  | none => .error .missingFile
  | some b =>
    match String.fromUTF8? ⟨b.toArray⟩ with
    | none => .error .notText
    | some text => ofToml text

def ofJson? (v : Json) : Option Config := read? jsonReader v

/-! ## Writing -/

/-- The float style of TOML; a NaN has no sign there. -/
def floatText (x : Binary64) : List Char := Binary64.Style.toml.renderChars x

/-- The text of a setting's value, if TOML can hold it. -/
def Setting.render? (c : Config) : Setting → Option (List Char)
  | float _ get _ => some (floatText (get c))
  | text _ get _ => some (Toml.renderString (get c).toList)
  | count _ get _ => if get c < 2 ^ 63 then some (Nat.toDigits 10 (get c)) else none
  | flag _ get _ => some (if get c then ['t', 'r', 'u', 'e'] else ['f', 'a', 'l', 's', 'e'])

def renderSettings? (c : Config) : List Setting → Option (List Char)
  | [] => some []
  | s :: rest => do
    let value ← s.render? c
    let more ← renderSettings? c rest
    return s.key.toList ++ [' ', '=', ' '] ++ value ++ '\n' :: more

def Section.render? (c : Config) (s : Section) : Option (List Char) :=
  (renderSettings? c s.settings).map fun lines => '[' :: s.key.toList ++ ']' :: '\n' :: lines

/-- Sections, with a blank line between two of them. -/
def renderSections? (c : Config) : List Section → Option (List Char)
  | [] => some []
  | [s] => s.render? c
  | s :: rest => do
    let first ← s.render? c
    let more ← renderSections? c rest
    return first ++ '\n' :: more

def toToml (c : Config) : Except ConfigError String :=
  match renderSections? c schema with
  | some text => .ok (String.ofList text)
  | none => .error .tooLarge

end Config

end TriadMesh
