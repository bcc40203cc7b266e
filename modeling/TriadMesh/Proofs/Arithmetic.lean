import TriadMesh.Proofs.Rounding

/-!
# Operands of finite results

No operation makes a finite float out of an infinity or a NaN, division by an infinity apart. So what is known of a
result goes back to the operands, however many roundings lie in between. A square has no sign, and neither has a sum
or quotient of floats without one, be they NaNs or not.
-/

namespace TriadMesh.Binary64

variable {x y : Binary64}

/-! ## Codes and signs of results -/

theorem code_lt (x : Binary64) : x.code < 2 ^ 63 := Nat.mod_lt _ (by decide)

theorem code_neg (x : Binary64) : x.neg.code = x.code := code_ofCode _ x.code_lt

theorem negative_neg (x : Binary64) : x.neg.negative = !x.negative := negative_ofCode _ x.code_lt

theorem codeOfRatio_lt (num den : Nat) : codeOfRatio num den < 2 ^ 63 :=
  Nat.lt_of_le_of_lt (Nat.min_le_right _ _) (by decide)

theorem code_ofRatio (neg : Bool) (num den : Nat) : (ofRatio neg num den).code = codeOfRatio num den :=
  code_ofCode neg (codeOfRatio_lt num den)

theorem negative_ofRatio (neg : Bool) (num den : Nat) : (ofRatio neg num den).negative = neg :=
  negative_ofCode neg (codeOfRatio_lt num den)

theorem negative_zero (neg : Bool) : (zero neg).negative = neg := negative_ofCode neg (by decide)

theorem negative_infinity (neg : Bool) : (infinity neg).negative = neg := negative_ofCode neg (by decide)

theorem signedUnits_of_positive (h : x.negative = false) : x.signedUnits = x.units := by
  rw [signedUnits, h, if_neg Bool.false_ne_true]

theorem signedUnits_of_negative (h : x.negative = true) : x.signedUnits = -x.units := by
  rw [signedUnits, h, if_pos rfl]

theorem signedUnits_nonneg (hx : x.negative = false) : 0 ≤ x.signedUnits := by
  rw [signedUnits_of_positive hx]
  exact Int.natCast_nonneg _

theorem negative_add (hx : x.negative = false) (hy : y.negative = false) : (x + y).negative = false := by
  change (add x y).negative = false
  have hsum : decide (x.signedUnits + y.signedUnits < 0) = false :=
    decide_eq_false (Int.not_lt.2 (Int.add_nonneg (signedUnits_nonneg hx) (signedUnits_nonneg hy)))
  unfold add
  rw [hx, hy, hsum]
  split
  · rfl
  · split
    · split
      · rfl
      · exact hx
    · split
      · exact hy
      · split
        · exact negative_zero false
        · exact negative_ofRatio false _ _

theorem negative_mul_self (x : Binary64) : (x * x).negative = false := by
  change (mul x x).negative = false
  unfold mul
  rw [bne_self_eq_false]
  split
  · rfl
  · split
    · split
      · rfl
      · exact negative_infinity false
    · exact negative_ofRatio false _ _

theorem negative_div (hx : x.negative = false) (hy : y.negative = false) : (x / y).negative = false := by
  change (div x y).negative = false
  unfold div
  rw [hx, hy, bne_self_eq_false]
  split
  · rfl
  · split
    · split
      · rfl
      · exact negative_infinity false
    · split
      · exact negative_zero false
      · split
        · split
          · rfl
          · exact negative_infinity false
        · exact negative_ofRatio false _ _

/-! ## Operands -/

theorem isFinite_iff : x.isFinite = true ↔ x.isNaN = false ∧ x.isInfinite = false := by
  simp only [isFinite, isNaN, isInfinite, decide_eq_true_eq, decide_eq_false_iff_not]
  omega

theorem isFinite_ofRatio_iff {neg : Bool} {num den : Nat} :
    (ofRatio neg num den).isFinite = true ↔ codeOfRatio num den < infinityCode := by
  rw [isFinite, code_ofRatio, decide_eq_true_iff]

theorem isFinite_neg (x : Binary64) : x.neg.isFinite = x.isFinite := by rw [isFinite, code_neg, isFinite]

theorem not_isFinite_of_isInfinite (h : x.isInfinite = true) : x.isFinite = false := by
  rw [← Bool.not_eq_true, isFinite_iff, h]
  exact fun hfinite => Bool.noConfusion hfinite.2

theorem not_isFinite_infinity (neg : Bool) : (infinity neg).isFinite = false := by
  cases neg <;> decide

theorem isFinite_of_add (h : (x + y).isFinite = true) : x.isFinite = true ∧ y.isFinite = true := by
  change (add x y).isFinite = true at h
  unfold add at h
  split at h
  case isTrue => cases h
  case isFalse hnan =>
    obtain ⟨hxnan, hynan⟩ := Bool.or_eq_false_iff.1 (eq_false_of_ne_true hnan)
    split at h
    case isTrue hinf =>
      split at h
      · cases h
      · cases (not_isFinite_of_isInfinite hinf).symm.trans h
    case isFalse hxinf =>
      split at h
      case isTrue hinf => cases (not_isFinite_of_isInfinite hinf).symm.trans h
      case isFalse hyinf =>
        exact ⟨isFinite_iff.2 ⟨hxnan, eq_false_of_ne_true hxinf⟩, isFinite_iff.2 ⟨hynan, eq_false_of_ne_true hyinf⟩⟩

theorem isFinite_of_sub (h : (x - y).isFinite = true) : x.isFinite = true ∧ y.isFinite = true := by
  have hsum : (x + y.neg).isFinite = true := h
  rw [← isFinite_neg y]
  exact isFinite_of_add hsum

theorem isFinite_of_mul (h : (x * y).isFinite = true) : x.isFinite = true ∧ y.isFinite = true := by
  change (mul x y).isFinite = true at h
  unfold mul at h
  split at h
  case isTrue => cases h
  case isFalse hnan =>
    obtain ⟨hxnan, hynan⟩ := Bool.or_eq_false_iff.1 (eq_false_of_ne_true hnan)
    split at h
    case isTrue =>
      split at h
      · cases h
      · cases (not_isFinite_infinity _).symm.trans h
    case isFalse hinf =>
      obtain ⟨hxinf, hyinf⟩ := Bool.or_eq_false_iff.1 (eq_false_of_ne_true hinf)
      exact ⟨isFinite_iff.2 ⟨hxnan, hxinf⟩, isFinite_iff.2 ⟨hynan, hyinf⟩⟩

/-- The divisor may be infinite, but not the dividend. -/
theorem isFinite_of_div (h : (x / y).isFinite = true) : x.isFinite = true := by
  change (div x y).isFinite = true at h
  unfold div at h
  split at h
  case isTrue => cases h
  case isFalse hnan =>
    obtain ⟨hxnan, -⟩ := Bool.or_eq_false_iff.1 (eq_false_of_ne_true hnan)
    split at h
    case isTrue =>
      split at h
      · cases h
      · cases (not_isFinite_infinity _).symm.trans h
    case isFalse hinf => exact isFinite_iff.2 ⟨hxnan, eq_false_of_ne_true hinf⟩

theorem rank_le_code (x : Binary64) : x.rank ≤ x.code := by
  unfold rank
  split <;> omega

/-- Of a float without a sign, a finite upper bound is enough. -/
theorem isFinite_of_le (hx : x.negative = false) (hle : x ≤ y) (hy : y.isFinite = true) : x.isFinite = true := by
  obtain ⟨-, -, hrank⟩ := hle
  rw [rank, hx, if_neg Bool.noConfusion] at hrank
  have hcode : x.code ≤ y.code := Int.ofNat_le.1 (Int.le_trans hrank y.rank_le_code)
  exact decide_eq_true (Nat.lt_of_le_of_lt hcode (of_decide_eq_true hy))

theorem zero_le (hx : Config.isNonNegative x = true) : zero false ≤ x := by
  have hfinite : x.isFinite = true := (Bool.and_eq_true_iff.1 hx).1
  have hzero : (zero false).isNaN = false ∧ (zero false).rank = 0 := by decide
  refine ⟨hzero.1, (not_isNaN_of_isFinite hfinite).1, ?_⟩
  rw [hzero.2, rank]
  rcases positive_or_zero hx with hpositive | hcode
  · rw [hpositive, if_neg Bool.false_ne_true]
    exact Int.natCast_nonneg _
  · have hcode : x.code = 0 := of_decide_eq_true hcode
    rw [hcode]
    split <;> decide

/-! ## Exact sums -/

theorem add_eq (hx : x.isFinite = true) (hy : y.isFinite = true) :
    x + y = if x.signedUnits + y.signedUnits = 0 then zero (x.negative && y.negative)
      else ofRatio (decide (x.signedUnits + y.signedUnits < 0)) (x.signedUnits + y.signedUnits).natAbs 1 := by
  obtain ⟨hxn, hxi⟩ := not_isNaN_of_isFinite hx
  obtain ⟨hyn, hyi⟩ := not_isNaN_of_isFinite hy
  change add x y = _
  rw [add, hxn, hyn, hxi, hyi, Bool.or_self, if_neg Bool.false_ne_true, if_neg Bool.false_ne_true,
    if_neg Bool.false_ne_true]

theorem ofRatio_zero (neg : Bool) (den : Nat) : ofRatio neg 0 den = zero neg := by
  rw [ofRatio, codeOfRatio_zero, zero]

theorem signedUnits_neg (x : Binary64) : x.neg.signedUnits = -x.signedUnits := by
  have hunits : x.neg.units = x.units := by rw [units, code_neg, units]
  rw [signedUnits, signedUnits, negative_neg, hunits]
  cases x.negative with
  | false => rfl
  | true => exact (Int.neg_neg _).symm

/-- The sign of a difference does not matter where it is squared. -/
theorem sub_eq (hx : x.isFinite = true) (hy : y.isFinite = true) :
    ∃ neg, x - y = ofRatio neg (x.signedUnits - y.signedUnits).natAbs 1 := by
  have hsub : x - y = x + y.neg := rfl
  rw [hsub, add_eq hx ((isFinite_neg y).trans hy), signedUnits_neg, ← Int.sub_eq_add_neg]
  split
  case isTrue hzero => exact ⟨x.negative && y.neg.negative, by rw [hzero, Int.natAbs_zero, ofRatio_zero]⟩
  case isFalse => exact ⟨_, rfl⟩

theorem add_of_same_sign (hx : x.isFinite = true) (hy : y.isFinite = true) (hsign : y.negative = x.negative) :
    x + y = ofRatio x.negative (x.units + y.units) 1 := by
  rw [add_eq hx hy, hsign, Bool.and_self]
  cases hneg : x.negative with
  | false =>
    rw [signedUnits_of_positive hneg, signedUnits_of_positive (hsign.trans hneg), decide_eq_false (by omega),
      ← Int.natCast_add, Int.natAbs_natCast]
    split
    case isTrue hnone => rw [Int.ofNat_eq_zero.1 hnone, ofRatio_zero]
    case isFalse => rfl
  | true =>
    rw [signedUnits_of_negative hneg, signedUnits_of_negative (hsign.trans hneg), ← Int.neg_add, ← Int.natCast_add,
      Int.natAbs_neg, Int.natAbs_natCast]
    split
    case isTrue hnone => rw [Int.ofNat_eq_zero.1 (Int.neg_eq_zero.1 hnone), ofRatio_zero]
    case isFalse hsum => rw [decide_eq_true (by omega)]

end TriadMesh.Binary64
