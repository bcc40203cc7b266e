import TriadMesh.Binary64.Basic
import TriadMesh.Bytes.Hex
import TriadMesh.Crypto.Suite

/-!
# Messages

A message asserts a metric value at a point in time. Its signature covers the content alone; its id
covers every field, since the hashed encoding puts the length of each byte string in front of it.
-/

namespace TriadMesh

abbrev NodeId := String

structure Message where
  /-- Creation time in seconds. -/
  timestamp : Int64
  /-- The asserted metric value, which is also the message's quality. -/
  vorticity : Binary64
  phase : Binary64
  content : Bytes
  signature : Bytes
  publicKey : Bytes
deriving DecidableEq, Inhabited

namespace Message

def encoding (m : Message) : Bytes :=
  Bytes.littleEndian 8 m.timestamp.toUInt64.toNat ++
    Bytes.littleEndian 8 m.vorticity.bits.toNat ++
    Bytes.littleEndian 8 m.phase.bits.toNat ++
    Bytes.prefixed m.content ++ Bytes.prefixed m.signature ++ Bytes.prefixed m.publicKey

def id (m : Message) (s : Suite) : Digest := s.hash m.encoding

/-- Equality of the fields' values: two zeros are equal and no NaN equals anything. -/
def equals (m n : Message) : Bool :=
  m.timestamp == n.timestamp && m.vorticity.equals n.vorticity && m.phase.equals n.phase &&
    m.content == n.content && m.signature == n.signature && m.publicKey == n.publicKey

end Message

end TriadMesh
