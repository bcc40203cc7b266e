import Std.Data.TreeSet.Lemmas

/-!
# Byte strings

Byte strings are lists of bytes. This module holds the numerals that hashes and messages are made of:
little and big endian, of a fixed width, and the 32-byte digest.
-/

namespace TriadMesh

-- A power with a natural exponent means the same whichever library is imported besides.
attribute [instance (high), default_instance 20000] instPowNat

abbrev Bytes := List UInt8

namespace Bytes

/-- The lowest `width` bytes of a number, the least significant first. -/
def littleEndian : (width : Nat) → Nat → Bytes
  | 0, _ => []
  | width + 1, n => UInt8.ofNat n :: littleEndian width (n / 256)

/-- The number whose bytes are given, the least significant first. -/
def ofLittleEndian (bytes : Bytes) : Nat :=
  bytes.foldr (fun b n => b.toNat + 256 * n) 0

/-- The number whose bytes are given, the most significant first. -/
def ofBigEndian (bytes : Bytes) : Nat := ofLittleEndian bytes.reverse

/-- The lowest `width` bytes of a number, the most significant first. -/
def bigEndian (width n : Nat) : Bytes := (littleEndian width n).reverse

def ofText (s : String) : Bytes := s.toUTF8.toList

/-- A byte string with its length in front, as eight bytes, the least significant first. -/
def prefixed (bytes : Bytes) : Bytes := littleEndian 8 bytes.length ++ bytes

theorem length_littleEndian (width n : Nat) : (littleEndian width n).length = width := by
  induction width generalizing n with
  | zero => rfl
  | succ width ih => simp [littleEndian, ih]

theorem ofLittleEndian_cons (b : UInt8) (bytes : Bytes) :
    ofLittleEndian (b :: bytes) = b.toNat + 256 * ofLittleEndian bytes := rfl

/-- Byte strings of one length are told apart by their numbers. -/
theorem eq_of_ofLittleEndian_eq {xs ys : Bytes} (hlen : xs.length = ys.length)
    (h : ofLittleEndian xs = ofLittleEndian ys) : xs = ys := by
  induction xs generalizing ys with
  | nil => cases ys with
    | nil => rfl
    | cons y ys => simp at hlen
  | cons x xs ih => cases ys with
    | nil => simp at hlen
    | cons y ys =>
      rw [ofLittleEndian_cons, ofLittleEndian_cons] at h
      have hx := x.toNat_lt
      have hy := y.toNat_lt
      have hxy : x = y := UInt8.toNat_inj.1 (by omega)
      rw [hxy, ih (by simpa using hlen) (by omega)]

theorem eq_of_ofBigEndian_eq {xs ys : Bytes} (hlen : xs.length = ys.length)
    (h : ofBigEndian xs = ofBigEndian ys) : xs = ys := by
  have := eq_of_ofLittleEndian_eq (by simpa using hlen) h
  simpa using this

end Bytes

/-- Thirty-two bytes: a hash, a message id, a secret, or a point of the routing space. -/
structure Digest where
  bytes : Vector UInt8 32
deriving DecidableEq, Inhabited

namespace Digest

def toList (d : Digest) : Bytes := d.bytes.toList

def ofList? (bytes : Bytes) : Option Digest :=
  if h : bytes.length = 32 then some ⟨⟨bytes.toArray, by simpa using h⟩⟩ else none

@[simp] theorem length_toList (d : Digest) : d.toList.length = 32 := by simp [toList]

/-- The digest as a number, its first byte the most significant. -/
def toNat (d : Digest) : Nat := Bytes.ofBigEndian d.toList

theorem toList_injective {a b : Digest} (h : a.toList = b.toList) : a = b := by
  obtain ⟨a⟩ := a
  obtain ⟨b⟩ := b
  simpa [toList, Vector.toList_inj] using h

theorem toNat_injective {a b : Digest} (h : a.toNat = b.toNat) : a = b :=
  toList_injective (Bytes.eq_of_ofBigEndian_eq (by simp) h)

/-- Digests are ordered as numbers. -/
instance : Ord Digest := ⟨fun a b => compare a.toNat b.toNat⟩

theorem compare_def (a b : Digest) : compare a b = compare a.toNat b.toNat := rfl

instance : Std.OrientedOrd Digest where
  eq_swap := fun {a b} => by rw [compare_def, compare_def]; exact Std.OrientedCmp.eq_swap

instance : Std.TransOrd Digest where
  isLE_trans := fun {a b c} h₁ h₂ => by
    rw [compare_def] at *
    exact Std.TransCmp.isLE_trans h₁ h₂

instance : Std.LawfulEqOrd Digest where
  eq_of_compare := fun h => toNat_injective (Std.LawfulEqOrd.eq_of_compare h)
  compare_self := Std.ReflCmp.compare_self

end Digest

end TriadMesh
