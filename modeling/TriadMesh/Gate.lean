import TriadMesh.Binary64.Text
import TriadMesh.Message.Basic

/-!
# The gate

The first check that a message meets: its quality against a floor, before any cryptography, then the
shape of its key, the shape of its signature, and the signature itself. The first failure is reported.
-/

namespace TriadMesh

inductive Rejection where
  | belowFloor (vorticity floor : Binary64)
  | malformedKey (length : Nat)
  | malformedSignature (length : Nat)
  | invalidSignature
deriving DecidableEq

def Rejection.message : Rejection → String
  | .belowFloor v f =>
    "vorticity " ++ Binary64.Style.plain.render v ++ " below quality floor " ++ Binary64.Style.plain.render f
  | .malformedKey n => s!"malformed public key ({n} bytes)"
  | .malformedSignature n => s!"malformed signature ({n} bytes, expected 64)"
  | .invalidSignature => "signature does not verify against content"

structure Gate where
  floor : Binary64
deriving DecidableEq

namespace Gate

/-- Passes a message or names the first check that fails. A NaN is below every floor. -/
def check (s : Suite) (g : Gate) (m : Message) : Except Rejection Unit :=
  if ¬ g.floor ≤ m.vorticity then .error (.belowFloor m.vorticity g.floor)
  else if m.publicKey.length ≠ 32 ∨ s.decodesKey m.publicKey = false then .error (.malformedKey m.publicKey.length)
  else if m.signature.length ≠ 64 then .error (.malformedSignature m.signature.length)
  else if s.verify m.publicKey m.content m.signature then .ok ()
  else .error .invalidSignature

def verify (s : Suite) (g : Gate) (m : Message) : Bool := (g.check s m).isOk

end Gate

end TriadMesh
