import TriadMesh.Bytes.Basic

/-!
# BLAKE3

The input is cut into chunks of 1024 bytes, the chunks are the leaves of a binary tree whose left
subtrees are full, and the root is compressed once more with its own flag. `hash` digests a byte
string; `deriveKey` digests key material under a context string.
-/

namespace TriadMesh.Blake3

/-- The state of the compression, and a block of input, as sixteen words. -/
abbrev Block := Vector UInt32 16

/-- What a node hands to its parent. -/
abbrev Chaining := Vector UInt32 8

def initial : Chaining :=
  #v[0x6A09E667, 0xBB67AE85, 0x3C6EF372, 0xA54FF53A, 0x510E527F, 0x9B05688C, 0x1F83D9AB, 0x5BE0CD19]

/-- Where each word of a block comes from in the next round. -/
def permutation : Vector (Fin 16) 16 := #v[2, 6, 3, 10, 7, 0, 4, 13, 1, 11, 12, 5, 9, 14, 15, 8]

def rotateRight (word count : UInt32) : UInt32 := (word >>> count) ||| (word <<< (32 - count))

/-- The quarter round: mixes two words of input into four words of the state. -/
def mix (s : Block) (a b c d : Fin 16) (x y : UInt32) : Block :=
  let a₁ := s[a] + s[b] + x
  let d₁ := rotateRight (s[d] ^^^ a₁) 16
  let c₁ := s[c] + d₁
  let b₁ := rotateRight (s[b] ^^^ c₁) 12
  let a₂ := a₁ + b₁ + y
  let d₂ := rotateRight (d₁ ^^^ a₂) 8
  let c₂ := c₁ + d₂
  let b₂ := rotateRight (b₁ ^^^ c₂) 7
  (((s.set a a₂).set b b₂).set c c₂).set d d₂

/-- One round: the columns, then the diagonals. -/
def round (s m : Block) : Block :=
  let s := mix s 0 4 8 12 m[0] m[1]
  let s := mix s 1 5 9 13 m[2] m[3]
  let s := mix s 2 6 10 14 m[4] m[5]
  let s := mix s 3 7 11 15 m[6] m[7]
  let s := mix s 0 5 10 15 m[8] m[9]
  let s := mix s 1 6 11 12 m[10] m[11]
  let s := mix s 2 7 8 13 m[12] m[13]
  mix s 3 4 9 14 m[14] m[15]

def permute (m : Block) : Block := Vector.ofFn fun i => m[permutation[i]]

/-- Runs `n` rounds, permuting the block between them. -/
def rounds : Nat → Block → Block → Block
  | 0, s, _ => s
  | n + 1, s, m => rounds n (round s m) (permute m)

/-- What remains to be compressed of a node, so that the root can be compressed in its own way. -/
structure Output where
  chaining : Chaining
  block : Block
  counter : UInt64
  length : UInt32
  flags : UInt32

def Output.compress (o : Output) : Chaining :=
  let state : Block := #v[o.chaining[0], o.chaining[1], o.chaining[2], o.chaining[3],
    o.chaining[4], o.chaining[5], o.chaining[6], o.chaining[7],
    initial[0], initial[1], initial[2], initial[3],
    o.counter.toUInt32, (o.counter >>> 32).toUInt32, o.length, o.flags]
  let final := rounds 7 state o.block
  Vector.ofFn fun i : Fin 8 => final[i.val] ^^^ final[i.val + 8]

def chunkStart : UInt32 := 1
def chunkEnd : UInt32 := 2
def parent : UInt32 := 4
def root : UInt32 := 8
def deriveContext : UInt32 := 32
def deriveMaterial : UInt32 := 64

/-- The words of up to 64 bytes, each little endian, filled up with zeros. -/
def blockOf (bytes : Bytes) : Block :=
  let a := bytes.toArray
  Vector.ofFn fun i : Fin 16 =>
    (a.getD (4 * i) 0).toUInt32 ||| (a.getD (4 * i + 1) 0).toUInt32 <<< 8 |||
      (a.getD (4 * i + 2) 0).toUInt32 <<< 16 ||| (a.getD (4 * i + 3) 0).toUInt32 <<< 24

/-- A chunk is a chain of blocks; the last one, which may be short, is left to be compressed. -/
def chunk (flags : UInt32) (counter : UInt64) (chaining : Chaining) (start : UInt32) (input : Bytes) : Output :=
  if _h : input.length ≤ 64 then
    ⟨chaining, blockOf input, counter, input.length.toUInt32, flags ||| start ||| chunkEnd⟩
  else
    let next := Output.compress ⟨chaining, blockOf (input.take 64), counter, 64, flags ||| start⟩
    chunk flags counter next 0 (input.drop 64)
termination_by input.length
decreasing_by simp only [List.length_drop]; omega

/-- The size of the left subtree: the greatest power of two of chunks that leaves something to the right. -/
def leftSize (size : Nat) : Nat := 2 ^ (size - 1).log2

/-- The subtree over some input whose first chunk has the number `first`. -/
def subtree (key : Chaining) (flags : UInt32) (first : Nat) (input : Bytes) : Output :=
  if h : input.length ≤ 1024 then chunk flags first.toUInt64 key chunkStart input
  else
    let size := leftSize input.length
    let left := (subtree key flags first (input.take size)).compress
    let right := (subtree key flags (first + size / 1024) (input.drop size)).compress
    ⟨key, Vector.ofFn fun i : Fin 16 => if h : i.val < 8 then left[i.val] else right[i.val - 8],
      0, 64, flags ||| parent⟩
termination_by input.length
decreasing_by
  · have : leftSize input.length < input.length := by
      have := Nat.log2_self_le (n := input.length - 1) (by omega)
      unfold leftSize; omega
    simp only [List.length_take]; omega
  · have : 0 < leftSize input.length := Nat.two_pow_pos _
    simp only [List.length_drop]; omega

/-- The words of the root, compressed with its flag. -/
def rootWords (key : Chaining) (flags : UInt32) (input : Bytes) : Chaining :=
  let o := subtree key flags 0 input
  Output.compress { o with counter := 0, flags := o.flags ||| root }

/-- The bytes of eight words, each little endian. -/
def digestOf (words : Chaining) : Digest :=
  ⟨Vector.ofFn fun i : Fin 32 =>
    (words.get ⟨i.val / 4, by omega⟩ >>> (8 * (i.val % 4)).toUInt32).toUInt8⟩

def hash (input : Bytes) : Digest := digestOf (rootWords initial 0 input)

/-- The key that BLAKE3 derives from material under a context string. -/
def deriveKey (context : String) (material : Bytes) : Digest :=
  digestOf (rootWords (rootWords initial deriveContext (Bytes.ofText context)) deriveMaterial material)

end TriadMesh.Blake3
