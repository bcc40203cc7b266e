import TriadMesh.Crypto.Sha512

/-!
# Ed25519

Signatures over the twisted Edwards curve `-x² + y² = 1 + d x² y²` modulo `2^255 - 19`. Verification is
without cofactor: the point recomputed from the signature is encoded and compared with the signature's
bytes, so an encoding that is not canonical fails there, while keys are read leniently.
-/

namespace TriadMesh.Ed25519

/-- The field has this many elements. -/
def modulus : Nat := 2 ^ 255 - 19

def order : Nat := 2 ^ 252 + 27742317777372353535851937790883648493

def curveD : Nat := 37095705934669439343138083508754565189542113879843219016388785533085940283555

/-- The bits of a number below `2 ^ width`, the most significant first. -/
def bits : (width : Nat) → Nat → List Bool
  | 0, _ => []
  | width + 1, n => n.testBit width :: bits width n

/-- The power modulo `modulus`, for an exponent below `2 ^ 256`. -/
def power (base exponent : Nat) : Nat :=
  (bits 256 exponent).foldl
    (fun r bit => let s := r * r % modulus; if bit then s * base % modulus else s) 1

def subMod (a b : Nat) : Nat := (a + modulus - b) % modulus

def inverse (a : Nat) : Nat := power a (modulus - 2)

def rootOfMinusOne : Nat := 19681161376707505956807079304988542015446066515923890162744021073123829784752

/-- A point `(x / z, y / z)` with `t = x y / z`. -/
structure Point where
  x : Nat
  y : Nat
  z : Nat
  t : Nat

namespace Point

def neutral : Point := ⟨0, 1, 1, 0⟩

def base : Point :=
  let x := 15112221349535400772501151409588531511454012693041857206046113283949847762202
  let y := 46316835694926478169428394003475163141307993866256225615783033603165251855960
  ⟨x, y, 1, x * y % modulus⟩

/-- The sum, by the law that holds for all points. -/
def add (p q : Point) : Point :=
  let a := subMod p.y p.x * subMod q.y q.x % modulus
  let b := (p.y + p.x) * (q.y + q.x) % modulus
  let c := p.t * q.t % modulus * (2 * curveD) % modulus
  let d := 2 * p.z * q.z % modulus
  let e := subMod b a
  let f := subMod d c
  let g := (d + c) % modulus
  let h := (b + a) % modulus
  ⟨e * f % modulus, g * h % modulus, f * g % modulus, e * h % modulus⟩

def neg (p : Point) : Point := ⟨subMod 0 p.x, p.y, p.z, subMod 0 p.t⟩

/-- The multiple of a point by a number below `2 ^ 256`. -/
def scale (n : Nat) (p : Point) : Point :=
  (bits 256 n).foldl (fun r bit => let s := r.add r; if bit then s.add p else s) neutral

/-- The encoding: y in 32 bytes, the least significant first, with the parity of x in the top bit. -/
def encode (p : Point) : Bytes :=
  let zi := inverse p.z
  let x := p.x * zi % modulus
  let y := p.y * zi % modulus
  Bytes.littleEndian 32 (y + x % 2 * 2 ^ 255)

/-- The even square root of `u / v`, if there is one. -/
def sqrtRatio? (u v : Nat) : Option Nat :=
  let v3 := v * v % modulus * v % modulus
  let v7 := v3 * v3 % modulus * v % modulus
  let r := u * v3 % modulus * power (u * v7 % modulus) ((modulus - 5) / 8) % modulus
  let check := v * r % modulus * r % modulus
  let root? :=
    if check = u % modulus then some r
    else if check = subMod 0 (u % modulus) then some (r * rootOfMinusOne % modulus)
    else none
  root?.map fun root => if root % 2 = 0 then root else subMod 0 root

/-- Reads 32 bytes as a point. The number y is reduced, and a zero x may have its sign bit set. -/
def decode? (bytes : Bytes) : Option Point :=
  if bytes.length = 32 then
    let n := Bytes.ofLittleEndian bytes
    let y := n % 2 ^ 255 % modulus
    let yy := y * y % modulus
    (sqrtRatio? (subMod yy 1) ((curveD * yy + 1) % modulus)).map fun root =>
      let x := if n.testBit 255 then subMod 0 root else root
      ⟨x, y, 1, x * y % modulus⟩
  else none

end Point

/-- A digest of 64 bytes as a scalar. -/
def scalarOf (digest : Bytes) : Nat := Bytes.ofLittleEndian digest % order

/-- The secret scalar: the first half of the digest of the secret with its lowest three bits cleared and
its highest bit fixed. -/
def secretScalar (secret : Bytes) : Nat :=
  let n := Bytes.ofLittleEndian ((Sha512.hash secret).take 32)
  2 ^ 254 + n % 2 ^ 254 / 8 * 8

def publicKey (secret : Bytes) : Bytes := (Point.base.scale (secretScalar secret)).encode

/-- The signature of a message: 64 bytes, the encoded nonce point and the response. -/
def sign (secret message : Bytes) : Bytes :=
  let nonce := scalarOf (Sha512.hash ((Sha512.hash secret).drop 32 ++ message))
  let commitment := (Point.base.scale nonce).encode
  let challenge := scalarOf (Sha512.hash (commitment ++ publicKey secret ++ message))
  commitment ++ Bytes.littleEndian 32 ((nonce + challenge * secretScalar secret) % order)

def decodesKey (key : Bytes) : Bool := (Point.decode? key).isSome

/-- Whether a signature of 64 bytes over a message is valid under a key. The response must be less than
the order of the base point. -/
def verify (key message signature : Bytes) : Bool :=
  match Point.decode? key with
  | none => false
  | some a =>
    let commitment := signature.take 32
    let response := Bytes.ofLittleEndian (signature.drop 32)
    let challenge := scalarOf (Sha512.hash (commitment ++ key ++ message))
    decide (response < order) &&
      (((Point.base.scale response).add (a.neg.scale challenge)).encode == commitment)

end TriadMesh.Ed25519
