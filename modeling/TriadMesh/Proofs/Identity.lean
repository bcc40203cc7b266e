import Mathlib.Data.Set.Function
import TriadMesh.Proofs.Soundness

/-!
# What the id of a message tells

The encoding of a message can be read back field by field: the first three fields have a fixed width, and each
byte string has its length in front. So a hash that tells encodings apart gives one id to one message only, and
messages are told apart by the bits of their floats, not by the values.
-/

namespace TriadMesh

namespace Bytes

variable {xs ys s t : Bytes} {width m n : Nat}

theorem ofLittleEndian_littleEndian : ofLittleEndian (littleEndian width n) = n % 256 ^ width := by
  induction width generalizing n with
  | zero =>
    rw [Nat.pow_zero, Nat.mod_one]
    rfl
  | succ width ih =>
    have hpow : 256 ^ (width + 1) = 256 * 256 ^ width := Nat.pow_succ'
    rw [littleEndian, ofLittleEndian_cons, ih, UInt8.toNat_ofNat', hpow, Nat.mod_mul]

/-- A numeral tells the number, if it is wide enough. -/
theorem littleEndian_inj (hm : m < 256 ^ width) (hn : n < 256 ^ width)
    (h : littleEndian width m = littleEndian width n) : m = n := by
  have hvalue := congrArg ofLittleEndian h
  rwa [ofLittleEndian_littleEndian, ofLittleEndian_littleEndian, Nat.mod_eq_of_lt hm, Nat.mod_eq_of_lt hn] at hvalue

/-- Where numerals of one width begin two byte strings that are equal, the numbers and what follows are equal. -/
theorem littleEndian_append_inj (hm : m < 256 ^ width) (hn : n < 256 ^ width)
    (h : littleEndian width m ++ s = littleEndian width n ++ t) : m = n ∧ s = t := by
  have hlength : (littleEndian width m).length = (littleEndian width n).length := by
    rw [length_littleEndian, length_littleEndian]
  obtain ⟨hnumeral, hrest⟩ := List.append_inj h hlength
  exact ⟨littleEndian_inj hm hn hnumeral, hrest⟩

/-- The length in front of a byte string tells where it ends, whatever its bytes look like. -/
theorem prefixed_append_inj (hx : xs.length < 2 ^ 64) (hy : ys.length < 2 ^ 64)
    (h : prefixed xs ++ s = prefixed ys ++ t) : xs = ys ∧ s = t := by
  rw [prefixed, prefixed, List.append_assoc, List.append_assoc] at h
  obtain ⟨hlength, hrest⟩ := littleEndian_append_inj hx hy h
  exact List.append_inj hrest hlength

end Bytes

namespace Message

variable {a b : Message}

/-- The byte strings are short enough for eight bytes to hold their lengths. -/
structure Sized (m : Message) : Prop where
  content : m.content.length < 2 ^ 64
  signature : m.signature.length < 2 ^ 64
  publicKey : m.publicKey.length < 2 ^ 64

theorem eq_of_encoding_eq (ha : a.Sized) (hb : b.Sized) (h : a.encoding = b.encoding) : a = b := by
  have hword : ∀ x : UInt64, x.toNat < 256 ^ 8 := fun x => x.toNat_lt
  simp only [encoding, List.append_assoc] at h
  obtain ⟨htime, h⟩ := Bytes.littleEndian_append_inj (hword _) (hword _) h
  obtain ⟨hvorticity, h⟩ := Bytes.littleEndian_append_inj (hword _) (hword _) h
  obtain ⟨hphase, h⟩ := Bytes.littleEndian_append_inj (hword _) (hword _) h
  obtain ⟨hcontent, h⟩ := Bytes.prefixed_append_inj ha.content hb.content h
  obtain ⟨hsignature, h⟩ := Bytes.prefixed_append_inj ha.signature hb.signature h
  have hkey : Bytes.prefixed a.publicKey ++ [] = Bytes.prefixed b.publicKey ++ [] := by rw [h]
  obtain ⟨hkey, -⟩ := Bytes.prefixed_append_inj ha.publicKey hb.publicKey hkey
  obtain ⟨⟨_⟩, ⟨_⟩, ⟨_⟩, _, _, _⟩ := a
  obtain ⟨⟨_⟩, ⟨_⟩, ⟨_⟩, _, _, _⟩ := b
  cases UInt64.toNat_inj.1 htime
  cases UInt64.toNat_inj.1 hvorticity
  cases UInt64.toNat_inj.1 hphase
  cases hcontent
  cases hsignature
  cases hkey
  rfl

/-- What is hashed of two messages is the same exactly if all their fields are, the floats bit for bit. So where
the hash tells the two encodings apart, only a message itself has its id. -/
theorem encoding_eq_iff (ha : a.Sized) (hb : b.Sized) :
    (a.encoding = b.encoding ↔
      a.timestamp = b.timestamp ∧ a.vorticity.bits = b.vorticity.bits ∧ a.phase.bits = b.phase.bits ∧
        a.content = b.content ∧ a.signature = b.signature ∧ a.publicKey = b.publicKey) ∧
    ∀ s : Suite, Set.InjOn s.hash {a.encoding, b.encoding} → (a.id s = b.id s ↔ a = b) := by
  refine ⟨⟨?_, ?_⟩, fun s hs => ⟨fun hid => ?_, fun h => h ▸ rfl⟩⟩
  · intro h
    rw [eq_of_encoding_eq ha hb h]
    simp
  · rintro ⟨htime, hvorticity, hphase, hcontent, hsignature, hkey⟩
    rw [encoding, encoding, htime, hvorticity, hphase, hcontent, hsignature, hkey]
  · exact eq_of_encoding_eq ha hb (hs (Set.mem_insert _ _) (Set.mem_insert_of_mem _ rfl) hid)

/-- A claim of zero and one of minus zero have equal values and different ids. -/
theorem encoding_eq_iff_zeros :
    let a : Message := { Sample.message 1 with vorticity := .zero false }
    let b : Message := { Sample.message 1 with vorticity := .zero true }
    let s : Suite := { Sample.suite with hash := fun bytes => ⟨Vector.ofFn fun i => bytes.getD (i.val + 8) 0⟩ }
    a.Sized ∧ b.Sized ∧ Set.InjOn s.hash {a.encoding, b.encoding} ∧ a.equals b = true ∧
      a.encoding ≠ b.encoding ∧ a.id s ≠ b.id s := by
  intro a b s
  have ha : a.Sized := ⟨by decide, by decide, by decide⟩
  have hb : b.Sized := ⟨by decide, by decide, by decide⟩
  have hne : s.hash a.encoding ≠ s.hash b.encoding := by decide +kernel
  have hhash : Set.InjOn s.hash {a.encoding, b.encoding} := by
    rintro x (rfl | rfl) y (rfl | rfl) hxy
    · rfl
    · exact absurd hxy hne
    · exact absurd hxy.symm hne
    · rfl
  have hbits : a.vorticity.bits ≠ b.vorticity.bits := by decide
  obtain ⟨hencoding, hid⟩ := encoding_eq_iff ha hb
  refine ⟨ha, hb, hhash, by decide +kernel, fun h => hbits (hencoding.1 h).2.1, fun h => hbits ?_⟩
  rw [(hid s hhash).1 h]

end Message

end TriadMesh
