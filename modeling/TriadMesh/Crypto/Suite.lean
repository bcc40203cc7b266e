import TriadMesh.Crypto.Blake3
import TriadMesh.Crypto.Ed25519

/-!
# The primitives a mesh runs on

A mesh needs a hash, a key derivation and a signature scheme, and nothing in its rules depends on which.
`Suite` collects them; `Suite.standard` is BLAKE3 with Ed25519.
-/

namespace TriadMesh

structure Suite where
  hash : Bytes → Digest
  /-- The secret that material gives under a context string. -/
  deriveKey : String → Bytes → Digest
  publicKey : Digest → Bytes
  sign : Digest → Bytes → Bytes
  decodesKey : Bytes → Bool
  /-- Whether content and a signature of 64 bytes belong together under a public key. -/
  verify : Bytes → Bytes → Bytes → Bool

def Suite.standard : Suite where
  hash := Blake3.hash
  deriveKey := Blake3.deriveKey
  publicKey secret := Ed25519.publicKey secret.toList
  sign secret content := Ed25519.sign secret.toList content
  decodesKey := Ed25519.decodesKey
  verify := Ed25519.verify

end TriadMesh
