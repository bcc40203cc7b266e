import TriadMesh.Bytes.Basic
import TriadMesh.Text.HexDigit

/-!
# Hexadecimal text

Bytes are written with two lower case digits each. Reading works on the bytes of the text, takes digits
of either case, and names the first thing that is wrong: an odd length before any digit.
-/

namespace TriadMesh.Hex

def encodeByte (b : UInt8) : List Char := [Text.hexDigit (b.toNat / 16), Text.hexDigit (b.toNat % 16)]

def encodeChars (bytes : Bytes) : List Char := bytes.flatMap encodeByte

def encode (bytes : Bytes) : String := String.ofList (encodeChars bytes)

/-- The value of a digit, given as a byte of the text. -/
def digitValue? (b : UInt8) : Option Nat := Text.hexValue? (Char.ofNat b.toNat)

inductive Error where
  | oddLength
  | invalidDigit (byte : UInt8) (offset : Nat)
deriving DecidableEq

/-- Reads pairs of digits, the first of which stands at `offset`. -/
def decodePairs (offset : Nat) : Bytes → Except Error Bytes
  | high :: low :: rest =>
    match digitValue? high, digitValue? low with
    | none, _ => .error (.invalidDigit high offset)
    | some _, none => .error (.invalidDigit low (offset + 1))
    | some h, some l => (decodePairs (offset + 2) rest).map (UInt8.ofNat (16 * h + l) :: ·)
  | _ => .ok []

def decode (text : Bytes) : Except Error Bytes :=
  if text.length % 2 = 1 then .error .oddLength else decodePairs 0 text

end TriadMesh.Hex

namespace TriadMesh.Digest

def toHex (d : Digest) : String := Hex.encode d.toList

/-- The first 16 digits of a digest, for texts that people read. -/
def short (d : Digest) : String := String.ofList ((Hex.encodeChars d.toList).take 16)

end TriadMesh.Digest
