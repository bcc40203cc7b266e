import TriadMesh.Message.Basic
import TriadMesh.Record

/-!
# Node keys

A node owns one key pair. It comes from a secret of 32 bytes, or is derived from a shared seed and the
node's id, the seed with its length in front so that no two pairs of seed and id give the same material.
-/

namespace TriadMesh

structure KeyPair where
  secret : Digest
  publicKey : Bytes
deriving DecidableEq

inductive KeyError where
  | invalidLength (length : Nat)
  | emptyNodeId
deriving DecidableEq

def KeyError.message : KeyError → String
  | .invalidLength n => s!"Invalid key length: {n} (expected 32)"
  | .emptyNodeId => "Key provisioning failed for node '': node id must not be empty"

namespace KeyPair

def ofSecret (s : Suite) (secret : Digest) : KeyPair := ⟨secret, s.publicKey secret⟩

def ofBytes (s : Suite) (secret : Bytes) : Except KeyError KeyPair :=
  match Digest.ofList? secret with
  | some d => .ok (ofSecret s d)
  | none => .error (.invalidLength secret.length)

/-- A short name for the public key in texts that people read. -/
def keyId (s : Suite) (k : KeyPair) : String := (s.hash k.publicKey).short

/-- What inspecting a key pair shows: never the secret. -/
def inspect (s : Suite) (k : KeyPair) : String :=
  "NodeKeys \x7b public_key_id: \"" ++ k.keyId s ++ "\", .. \x7d"

def signMessage (s : Suite) (k : KeyPair) (timestamp : Int64) (vorticity phase : Binary64) (content : Bytes) :
    Message :=
  ⟨timestamp, vorticity, phase, content, s.sign k.secret content, k.publicKey⟩

end KeyPair

def seededContext : String := "chronoflux-mesh 2024 seeded node key"

def seedMaterial (seed : Bytes) (node : NodeId) : Bytes := Bytes.prefixed seed ++ Bytes.ofText node

inductive KeySource where
  | secret (bytes : Bytes)
  | seeded (seed : Bytes) (node : NodeId)
deriving DecidableEq

namespace KeySource

def keys (s : Suite) : KeySource → Except KeyError KeyPair
  | secret bytes => KeyPair.ofBytes s bytes
  | seeded seed node =>
    if node = "" then .error .emptyNodeId
    else .ok (KeyPair.ofSecret s (s.deriveKey seededContext (seedMaterial seed node)))

/-- What is reported when a key pair has been obtained. -/
def records (s : Suite) (k : KeyPair) : KeySource → List Record
  | secret _ => []
  | seeded _ node => [⟨.debug, "Derived seeded node key", [("node_id", .text node), ("key_id", .text (k.keyId s))]⟩]

end KeySource

end TriadMesh
