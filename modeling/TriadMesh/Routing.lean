import TriadMesh.Message.Basic
import TriadMesh.Text.Inspect

/-!
# Routing by distance

Node ids are placed at their hashes in a space of 256 bits, where the distance of two points is their
exclusive or, read as a number. A message for a point goes to the candidate nearest to it.
-/

namespace TriadMesh

inductive RouteKeyError where
  | notHex (text : String) (reason : Hex.Error)
  | wrongLength (bytes : Nat)
deriving DecidableEq

def Hex.Error.message : Hex.Error → String
  | .oddLength => "Odd number of digits"
  | .invalidDigit b offset =>
    "Invalid character " ++ Text.inspectSingle (Char.ofNat b.toNat) ++ " at position " ++ toString offset

def RouteKeyError.message : RouteKeyError → String
  | .notHex text reason => text ++ ": " ++ reason.message
  | .wrongLength n => s!"expected 32 bytes, got {n}"

namespace Digest

def ofHex (text : String) : Except RouteKeyError Digest :=
  match Hex.decode (Bytes.ofText text) with
  | .error reason => .error (.notHex text reason)
  | .ok bytes =>
    match ofList? bytes with
    | some d => .ok d
    | none => .error (.wrongLength bytes.length)

def inspect (d : Digest) : String := "GeometryKey(" ++ d.short ++ ")"

def xor (a b : Digest) : Digest := ⟨Vector.ofFn fun i => a.bytes[i] ^^^ b.bytes[i]⟩

end Digest

namespace Routing

/-- Where a node lies. -/
def position (s : Suite) (node : NodeId) : Digest := s.hash (Bytes.ofText node)

def distance (s : Suite) (target : Digest) (node : NodeId) : Nat := ((position s node).xor target).toNat

/-- Whether a candidate goes before another: it is nearer, or as near with a lesser id, byte by byte. -/
def before (s : Suite) (target : Digest) (a b : NodeId) : Bool :=
  decide (distance s target a < distance s target b) ||
    (decide (distance s target a = distance s target b) && decide (Bytes.ofText a < Bytes.ofText b))

/-- The first of several candidates; the earlier of two that are alike. -/
def closest (s : Suite) (target : Digest) : List NodeId → Option NodeId
  | [] => none
  | a :: rest =>
    match closest s target rest with
    | none => some a
    | some b => if before s target b a then some b else some a

end Routing

end TriadMesh
