import TriadMesh.Config.Basic

/-!
# Signs and codes

A float is its sign and its code. Of the floats that count as non-negative, only the negative zero has a sign. The
ranges of settings hold finite floats only.
-/

namespace TriadMesh.Binary64

variable {x : Binary64}

theorem ofCode_code (x : Binary64) : ofCode x.negative x.code = x := by
  obtain ⟨bits⟩ := x
  have hlt : bits.toNat < 2 ^ 64 := bits.toNat_lt
  have hsum : (if decide (2 ^ 63 ≤ bits.toNat) = true then 2 ^ 63 else 0) + bits.toNat % 2 ^ 63 = bits.toNat := by
    simp only [decide_eq_true_eq]
    split <;> omega
  rw [ofCode, negative, code, hsum, UInt64.ofNat_toNat]

theorem toNat_bits_ofCode (neg : Bool) {c : Nat} (hc : c < 2 ^ 63) :
    (ofCode neg c).bits.toNat = (if neg then 2 ^ 63 else 0) + c := by
  rw [ofCode, UInt64.toNat_ofNat']
  refine Nat.mod_eq_of_lt ?_
  split <;> omega

theorem code_ofCode (neg : Bool) {c : Nat} (hc : c < 2 ^ 63) : (ofCode neg c).code = c := by
  rw [code, toNat_bits_ofCode neg hc]
  split <;> omega

theorem negative_ofCode (neg : Bool) {c : Nat} (hc : c < 2 ^ 63) : (ofCode neg c).negative = neg := by
  rw [negative, toNat_bits_ofCode neg hc]
  cases neg with
  | true => exact decide_eq_true (Nat.le_add_right _ _)
  | false => exact decide_eq_false (by simpa using hc)

theorem neg_ofCode (neg : Bool) {c : Nat} (hc : c < 2 ^ 63) : (ofCode neg c).neg = ofCode (!neg) c := by
  rw [Binary64.neg, negative_ofCode neg hc, code_ofCode neg hc]

theorem not_isNaN_of_isFinite (h : x.isFinite = true) : x.isNaN = false ∧ x.isInfinite = false := by
  have hlt : x.code < infinityCode := of_decide_eq_true h
  exact ⟨decide_eq_false (by omega), decide_eq_false (by omega)⟩

theorem abs_of_positive (h : x.negative = false) : x.abs = x := by
  rw [abs, ← h, ofCode_code]

theorem eq_zero_of_isZero (h : x.isZero = true) : x = zero x.negative := by
  have hcode : x.code = 0 := of_decide_eq_true h
  rw [zero, ← hcode, ofCode_code]

theorem isZero_abs (h : x.isZero = true) : x.abs.isZero = true := by
  rw [eq_zero_of_isZero h]
  cases x.negative <;> decide

/-- A zero has no width. -/
theorem isFinite_double_of_isZero (h : x.isZero = true) : (x + x).isFinite = true := by
  rw [eq_zero_of_isZero h]
  cases x.negative <;> decide +kernel

theorem lt_of_rank {y : Binary64} (hx : x.isNaN = false) (hy : y.isNaN = false) (h : x.rank < y.rank) : x < y :=
  ⟨hx, hy, h⟩

/-- Numbers are ordered linearly. -/
theorem lt_iff_not_le {y : Binary64} (hx : x.isNaN = false) (hy : y.isNaN = false) : x < y ↔ ¬y ≤ x := by
  constructor
  · rintro ⟨-, -, hlt⟩ ⟨-, -, hle⟩
    omega
  · intro hnot
    exact ⟨hx, hy, Int.not_le.1 fun hge => hnot ⟨hy, hx, hge⟩⟩

theorem isNaN_of_inUnitInterval (h : Config.inUnitInterval x = true) : x.isNaN = false := by
  rw [Config.inUnitInterval, Bool.and_eq_true, decide_eq_true_eq, decide_eq_true_eq] at h
  exact h.2.1

theorem positive_or_zero (h : Config.isNonNegative x = true) : x.negative = false ∨ x.isZero = true := by
  rw [Config.isNonNegative, Bool.and_eq_true, Bool.not_eq_true', decide_eq_false_iff_not] at h
  obtain ⟨hfinite, hnot⟩ := h
  cases hsign : x.negative with
  | false => exact .inl rfl
  | true =>
    have hcode : x.code < infinityCode := of_decide_eq_true hfinite
    have hnan : x.isNaN = false := decide_eq_false (by omega)
    have hrank : x.rank = -(x.code : Int) := by
      rw [rank, hsign, if_pos rfl]
    have hzero : (0 : Binary64).isNaN = false ∧ (0 : Binary64).rank = 0 := by decide +kernel
    have hnotlt : ¬x.rank < 0 := fun hlt => hnot (lt_of_rank hnan hzero.1 (by rwa [hzero.2]))
    exact .inr (decide_eq_true (by omega))

theorem isFinite_of_inUnitInterval (h : Config.inUnitInterval x = true) : x.isFinite = true := by
  rw [Config.inUnitInterval, Bool.and_eq_true, decide_eq_true_eq, decide_eq_true_eq] at h
  obtain ⟨⟨-, -, hlow⟩, -, -, hhigh⟩ := h
  have hzero : (0 : Binary64).rank = 0 := by decide +kernel
  have hone : (1 : Binary64).rank < infinityCode := by decide +kernel
  have hcode : (x.code : Int) < infinityCode := by
    rw [hzero] at hlow
    generalize (1 : Binary64).rank = one at hhigh hone
    rw [rank] at hlow hhigh
    split at hlow <;> simp_all <;> omega
  exact decide_eq_true (Int.ofNat_lt.1 hcode)

end TriadMesh.Binary64

namespace TriadMesh.Config

theorem violation?_eq_none_iff {c : Config} : c.violation? = none ↔ ∀ p ∈ c.conditions, p.1 = true := by
  simp [violation?, List.find?_eq_none]

theorem check_eq_ok_iff {c : Config} : c.check = .ok () ↔ c.violation? = none := by
  unfold check
  split <;> simp_all

end TriadMesh.Config
