import TriadMesh.Gate
import TriadMesh.Keys
import TriadMesh.Proofs.Arithmetic

/-!
# The verdict of the gate

The gate makes its checks in a fixed order and reports the first that fails, so each verdict says which checks have
passed. None of them looks at the timestamp or the phase. What a key pair has signed has the right form, and its
vorticity alone decides on it.
-/

namespace TriadMesh

/-! ## The floor -/

namespace Binary64

variable {x y : Binary64}

theorem unitsOfCode_eq_zero_iff (c : Nat) : unitsOfCode c = 0 ↔ c = 0 :=
  unitsOfCode_strictMono.injective.eq_iff' unitsOfCode_zero

theorem signedUnits_le_iff (x y : Binary64) : x.signedUnits ≤ y.signedUnits ↔ x.rank ≤ y.rank := by
  have hxy : unitsOfCode x.code ≤ unitsOfCode y.code ↔ x.code ≤ y.code := unitsOfCode_strictMono.le_iff_le
  have hyx : unitsOfCode y.code ≤ unitsOfCode x.code ↔ y.code ≤ x.code := unitsOfCode_strictMono.le_iff_le
  have hx := unitsOfCode_eq_zero_iff x.code
  have hy := unitsOfCode_eq_zero_iff y.code
  rw [signedUnits, signedUnits, rank, rank, units, units]
  -- Codes and units are in the same order, and both zeros are alike, so only the signs are left to tell apart.
  cases x.negative with
  | true =>
    cases y.negative with
    | true =>
      rw [if_pos rfl, if_pos rfl, if_pos rfl, if_pos rfl]
      omega
    | false =>
      rw [if_pos rfl, if_neg Bool.false_ne_true, if_pos rfl, if_neg Bool.false_ne_true]
      omega
  | false =>
    cases y.negative with
    | true =>
      rw [if_neg Bool.false_ne_true, if_pos rfl, if_neg Bool.false_ne_true, if_pos rfl]
      omega
    | false =>
      rw [if_neg Bool.false_ne_true, if_neg Bool.false_ne_true, if_neg Bool.false_ne_true, if_neg Bool.false_ne_true]
      omega

/-- Floats are compared by their values, of which those of the infinities are beyond all others. A NaN has none. -/
theorem le_iff_signedUnits (x y : Binary64) :
    x ≤ y ↔ x.isNaN = false ∧ y.isNaN = false ∧ x.signedUnits ≤ y.signedUnits := by
  rw [signedUnits_le_iff]
  rfl

end Binary64

namespace Gate

variable {s : Suite} {g : Gate} {m : Message}

/-- The gate names the first of its checks that fails, and passes a message if none does. -/
structure Verdicts (s : Suite) (g : Gate) (m : Message) : Prop where
  belowFloor : ∀ v f, g.check s m = .error (.belowFloor v f) ↔
    ¬g.floor ≤ m.vorticity ∧ m.vorticity = v ∧ g.floor = f
  malformedKey : ∀ k, g.check s m = .error (.malformedKey k) ↔
    g.floor ≤ m.vorticity ∧ (m.publicKey.length ≠ 32 ∨ s.decodesKey m.publicKey = false) ∧
      m.publicKey.length = k
  malformedSignature : ∀ k, g.check s m = .error (.malformedSignature k) ↔
    g.floor ≤ m.vorticity ∧ m.publicKey.length = 32 ∧ s.decodesKey m.publicKey = true ∧
      m.signature.length ≠ 64 ∧ m.signature.length = k
  invalidSignature : g.check s m = .error .invalidSignature ↔
    g.floor ≤ m.vorticity ∧ m.publicKey.length = 32 ∧ s.decodesKey m.publicKey = true ∧
      m.signature.length = 64 ∧ s.verify m.publicKey m.content m.signature = false
  passes : g.check s m = .ok () ↔
    g.floor ≤ m.vorticity ∧ m.publicKey.length = 32 ∧ s.decodesKey m.publicKey = true ∧
      m.signature.length = 64 ∧ s.verify m.publicKey m.content m.signature = true

theorem check_cases (s : Suite) (g : Gate) (m : Message) :
    (¬g.floor ≤ m.vorticity ∧ g.check s m = .error (.belowFloor m.vorticity g.floor)) ∨
      (g.floor ≤ m.vorticity ∧ (m.publicKey.length ≠ 32 ∨ s.decodesKey m.publicKey = false) ∧
        g.check s m = .error (.malformedKey m.publicKey.length)) ∨
      (g.floor ≤ m.vorticity ∧ m.publicKey.length = 32 ∧ s.decodesKey m.publicKey = true ∧
        ((m.signature.length ≠ 64 ∧ g.check s m = .error (.malformedSignature m.signature.length)) ∨
          (m.signature.length = 64 ∧
            ((s.verify m.publicKey m.content m.signature = false ∧ g.check s m = .error .invalidSignature) ∨
              (s.verify m.publicKey m.content m.signature = true ∧ g.check s m = .ok ()))))) := by
  unfold check
  by_cases hfloor : g.floor ≤ m.vorticity
  case neg => exact .inl ⟨hfloor, if_pos hfloor⟩
  rw [if_neg (not_not.2 hfloor)]
  by_cases hkey : m.publicKey.length ≠ 32 ∨ s.decodesKey m.publicKey = false
  case pos => exact .inr (.inl ⟨hfloor, hkey, if_pos hkey⟩)
  rw [if_neg hkey]
  rw [not_or, not_not, Bool.not_eq_false] at hkey
  refine .inr (.inr ⟨hfloor, hkey.1, hkey.2, ?_⟩)
  by_cases hsignature : m.signature.length = 64
  case neg => exact .inl ⟨hsignature, if_pos hsignature⟩
  rw [if_neg (not_not.2 hsignature)]
  refine .inr ⟨hsignature, ?_⟩
  cases hverify : s.verify m.publicKey m.content m.signature with
  | false => exact .inl ⟨rfl, if_neg Bool.false_ne_true⟩
  | true => exact .inr ⟨rfl, if_pos rfl⟩

theorem verdicts (s : Suite) (g : Gate) (m : Message) : Verdicts s g m := by
  -- The verdict is known once the first check that fails is, and it excludes what the others ask for.
  rcases check_cases s g m with ⟨hfloor, h⟩ | ⟨hfloor, hkey, h⟩ | ⟨hfloor, hlength, hdecodes, hrest⟩
  case inl => constructor <;> simp [h, hfloor]
  case inr.inl =>
    have hnot : m.publicKey.length = 32 → s.decodesKey m.publicKey = true → False := by
      intro hlength hdecodes
      simp [hlength, hdecodes] at hkey
    constructor
    case malformedKey => simp [h, hfloor, hkey]
    case belowFloor => simp [h, hfloor]
    all_goals simp only [h, reduceCtorEq, Except.error.injEq, false_iff]
    case malformedSignature => exact fun k ⟨_, hlength, hdecodes, _⟩ => hnot hlength hdecodes
    case invalidSignature => exact fun ⟨_, hlength, hdecodes, _⟩ => hnot hlength hdecodes
    case passes => exact fun ⟨_, hlength, hdecodes, _⟩ => hnot hlength hdecodes
  case inr.inr =>
    rcases hrest with ⟨hsignature, h⟩ | ⟨hsignature, ⟨hverify, h⟩ | ⟨hverify, h⟩⟩
    · constructor <;> simp [h, hfloor, hlength, hdecodes, hsignature]
    · constructor <;> simp [h, hfloor, hlength, hdecodes, hsignature, hverify]
    · constructor <;> simp [h, hfloor, hlength, hdecodes, hsignature, hverify]

theorem verify_eq_true_iff : g.verify s m = true ↔ g.check s m = .ok () := by
  unfold verify
  cases g.check s m <;> simp [Except.isOk, Except.toBool]

/-- Timestamp and phase do not count, nor does the vorticity as long as it clears the floor. -/
theorem check_congr {timestamp : Int64} {vorticity phase : Binary64}
    (h : vorticity = m.vorticity ∨ g.floor ≤ m.vorticity ∧ g.floor ≤ vorticity) :
    g.check s { m with timestamp := timestamp, vorticity := vorticity, phase := phase } = g.check s m := by
  unfold check
  rcases h with rfl | ⟨hfloor, hfloor'⟩
  · rfl
  · rw [if_neg (not_not.2 hfloor), if_neg (not_not.2 hfloor')]

end Gate

/-! ## What a key pair signs -/

/-- Keys and signatures have the sizes that the gate asks for, and nothing is verified under a key that cannot be
decoded. -/
structure Suite.Regular (s : Suite) : Prop where
  publicKey : ∀ secret, (s.publicKey secret).length = 32
  sign : ∀ secret content, (s.sign secret content).length = 64
  decodes : ∀ key content signature, s.verify key content signature = true → s.decodesKey key = true

theorem Suite.regular_standard : Suite.standard.Regular where
  publicKey secret := Bytes.length_littleEndian 32 _
  sign secret content := by
    have hcommitment : ∀ p : Ed25519.Point, p.encode.length = 32 := fun p => Bytes.length_littleEndian 32 _
    simp only [Suite.standard, Ed25519.sign, List.length_append, hcommitment, Bytes.length_littleEndian]
  decodes key content signature h := by
    simp only [Suite.standard, Ed25519.verify, Ed25519.decodesKey] at h ⊢
    cases hkey : Ed25519.Point.decode? key with
    | none => simp [hkey] at h
    | some p => rfl

namespace KeyPair

variable {s : Suite}

theorem ofBytes_eq_ok {secret : Bytes} (h : secret.length = 32) :
    ∃ d : Digest, d.toList = secret ∧ ofBytes s secret = .ok (ofSecret s d) := by
  refine ⟨⟨⟨secret.toArray, by simpa using h⟩⟩, rfl, ?_⟩
  rw [ofBytes, Digest.ofList?, dif_pos h]

theorem check_signMessage (hs : s.Regular) {d : Digest} {content : Bytes}
    (haccepts : s.verify (s.publicKey d) content (s.sign d content) = true) (g : Gate) (timestamp : Int64)
    (vorticity phase : Binary64) :
    g.check s ((ofSecret s d).signMessage s timestamp vorticity phase content) = .ok () ↔ g.floor ≤ vorticity := by
  rw [(Gate.verdicts s g _).passes]
  exact and_iff_left ⟨hs.publicKey d, hs.decodes _ _ _ haccepts, hs.sign d content, haccepts⟩

end KeyPair

/-- The gate decides by its checks in their order, where a vorticity clears the floor if neither is a NaN and its value
is not less. The verdict looks at nothing but the content, the signature, the key and whether the floor is cleared.
Every secret of 32 bytes makes a key pair, and whatever it signs passes exactly if it clears the floor, provided that
the scheme accepts what it signs. -/
theorem gate_decides :
    (∀ s g m, Gate.Verdicts s g m ∧ (g.verify s m = true ↔ g.check s m = .ok ())) ∧
      (∀ x y : Binary64, x ≤ y ↔ x.isNaN = false ∧ y.isNaN = false ∧ x.signedUnits ≤ y.signedUnits) ∧
      (∀ s (g : Gate) (m : Message) timestamp vorticity phase,
        vorticity = m.vorticity ∨ g.floor ≤ m.vorticity ∧ g.floor ≤ vorticity →
          g.check s { m with timestamp := timestamp, vorticity := vorticity, phase := phase } = g.check s m) ∧
      ∀ s : Suite, s.Regular → ∀ secret : Bytes, secret.length = 32 →
        ∃ d : Digest, d.toList = secret ∧ KeyPair.ofBytes s secret = .ok (.ofSecret s d) ∧
          ∀ content, s.verify (s.publicKey d) content (s.sign d content) = true →
            ∀ (g : Gate) timestamp vorticity phase,
              g.check s ((KeyPair.ofSecret s d).signMessage s timestamp vorticity phase content) = .ok () ↔
                g.floor ≤ vorticity := by
  refine ⟨fun s g m => ⟨Gate.verdicts s g m, Gate.verify_eq_true_iff⟩, Binary64.le_iff_signedUnits,
    fun s g m timestamp vorticity phase h => Gate.check_congr h, fun s hs secret hlength => ?_⟩
  obtain ⟨d, hd, hkeys⟩ := KeyPair.ofBytes_eq_ok (s := s) hlength
  exact ⟨d, hd, hkeys, fun content haccepts => KeyPair.check_signMessage hs haccepts⟩

set_option maxRecDepth 100000 in
/-- Three bytes signed with Ed25519 under a secret of equal bytes pass a gate whose floor they clear. -/
theorem gate_decides_signed :
    ∃ k, KeyPair.ofBytes .standard (List.replicate 32 9) = .ok k ∧
      (⟨.ofDecimal false 7 (-1)⟩ : Gate).check .standard (k.signMessage .standard 5 1 0 [1, 2, 3]) = .ok () := by
  obtain ⟨d, hd, hkeys, hpasses⟩ :=
    gate_decides.2.2.2 .standard Suite.regular_standard (List.replicate 32 9) List.length_replicate
  obtain rfl : d = ⟨Vector.replicate 32 9⟩ := Digest.toList_injective (hd.trans (by decide))
  have haccepts : Suite.standard.verify (Suite.standard.publicKey ⟨Vector.replicate 32 9⟩) [1, 2, 3]
      (Suite.standard.sign ⟨Vector.replicate 32 9⟩ [1, 2, 3]) = true := by
    decide +kernel
  exact ⟨_, hkeys, (hpasses _ haccepts _ 5 1 0).2 (by decide +kernel)⟩

end TriadMesh
