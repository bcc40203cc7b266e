import TriadMesh.Proofs.Arithmetic
import TriadMesh.Proofs.Numeral

/-!
# A third of three times a float

Three times a significand has up to two bits too many. Cut to 53 bits it is off by one unit at most, and a third of it
is rounded back, except where the last of 55 bits is half of what is cut off: then it is off by two units, and a third
of it is nearer to the next float (`third_tripled`, `third_tripled_of_lopsided`).
-/

namespace TriadMesh.Binary64

variable {x y : Binary64} {s k c num : Nat}

/-! ## Significands -/

/-- The power of two by which the significand of a float is scaled. -/
def shift (x : Binary64) : Nat := x.code / 2 ^ 52 - 1

/-- The fraction of a float, with the leading bit from the least normal float on. -/
def significand (x : Binary64) : Nat := x.code - x.shift * 2 ^ 52

theorem code_eq (x : Binary64) : x.code = x.shift * 2 ^ 52 + x.significand := by
  rw [significand, shift]
  omega

theorem significand_lt (x : Binary64) : x.significand < 2 ^ 53 := by
  rw [significand, shift]
  omega

theorem isSignificand (x : Binary64) : IsSignificand x.shift x.significand := by
  rw [significand, shift]
  exact ⟨by omega, by omega⟩

theorem code_lt_of_isFinite (h : x.isFinite = true) : x.shift * 2 ^ 52 + x.significand < infinityCode := by
  rw [← code_eq]
  exact of_decide_eq_true h

theorem units_eq (x : Binary64) : x.units = x.significand * 2 ^ x.shift := by
  rw [units, code_eq, unitsOfCode_eq x.isSignificand]

/-- Three times the significand has 55 bits, of which the last two stand for half of the third last. -/
def Lopsided (x : Binary64) : Prop := 2 ^ 54 < 3 * x.significand ∧ x.significand % 4 = 2

instance (x : Binary64) : Decidable x.Lopsided := inferInstanceAs (Decidable (_ ∧ _))

/-! ## Three times a significand -/

/-- The bits that three times a significand has beyond 53. -/
def excess (k : Nat) : Nat := (3 * k).log2 - 52

/-- Three times a significand, rounded to 53 bits. -/
def tripled (k : Nat) : Nat := divNearestEven (3 * k) (2 ^ excess k) * 2 ^ excess k

theorem log2_mul_two_pow (h : num ≠ 0) (s : Nat) : (num * 2 ^ s).log2 = num.log2 + s := by
  have hlow := Nat.mul_le_mul_right (2 ^ s) (Nat.log2_self_le h)
  have hhigh := Nat.mul_lt_mul_of_pos_right (Nat.lt_log2_self (n := num)) (Nat.two_pow_pos s)
  rw [← Nat.pow_add] at hlow hhigh
  exact (Nat.log2_eq_iff (Nat.mul_ne_zero h (Nat.two_pow_pos s).ne')).2 ⟨hlow, Nat.add_right_comm _ 1 s ▸ hhigh⟩

theorem unitsOfCode_roundedCode (num : Nat) :
    unitsOfCode (roundedCode num 1) = divNearestEven num (2 ^ (num.log2 - 52)) * 2 ^ (num.log2 - 52) := by
  obtain ⟨hsig, -⟩ := isSignificand_divNearestEven Nat.one_pos (show num.log2 - 52 = (num / 1).log2 - 52 by
    rw [Nat.div_one])
  rw [Nat.one_mul] at hsig
  rw [roundedCode, Nat.div_one, Nat.one_mul, unitsOfCode_eq hsig]

/-- Rounding three times a float rounds three times its significand. -/
theorem unitsOfCode_roundedCode_triple (h : IsSignificand s k) :
    unitsOfCode (roundedCode (3 * (k * 2 ^ s)) 1) = tripled k * 2 ^ s := by
  rcases Nat.eq_zero_or_pos k with rfl | hk
  · rw [Nat.zero_mul, Nat.mul_zero, unitsOfCode_roundedCode, tripled, Nat.mul_zero, divNearestEven_zero,
      divNearestEven_zero, Nat.zero_mul, Nat.zero_mul, Nat.zero_mul]
  · have hshift : (3 * (k * 2 ^ s)).log2 - 52 = s + excess k := by
      rw [← Nat.mul_assoc, log2_mul_two_pow (by omega), excess]
      rcases h.normal with rfl | hnormal
      · omega
      · have := (Nat.le_log2 (by omega)).2 (show 2 ^ 52 ≤ 3 * k by omega)
        omega
    have hcut : divNearestEven (3 * (k * 2 ^ s)) (2 ^ (s + excess k)) = divNearestEven (3 * k) (2 ^ excess k) := by
      rw [Nat.pow_add, ← divNearestEven_mul_left (Nat.two_pow_pos s) (3 * k)]
      congr 1
      ring
    rw [unitsOfCode_roundedCode, hshift, hcut, tripled, Nat.pow_add]
    ring

theorem excess_cases (hk : k < 2 ^ 53) :
    excess k = 0 ∨ excess k = 1 ∧ 3 * k < 2 ^ 54 ∨ excess k = 2 ∧ 2 ^ 54 ≤ 3 * k := by
  rcases Nat.eq_zero_or_pos k with rfl | hpos
  · exact .inl rfl
  · have hne : 3 * k ≠ 0 := by omega
    have h54 := Nat.log2_lt hne (k := 54)
    have h55 := (Nat.log2_lt hne (k := 55)).2 (by omega)
    rw [excess]
    omega

/-- Off by one unit at most, and not at all where the last bits are zero. -/
theorem tripled_of_not_lopsided (hk : k < 2 ^ 53) (h : ¬(2 ^ 54 < 3 * k ∧ k % 4 = 2)) :
    tripled k ≤ 3 * k + 1 ∧ 3 * k ≤ tripled k + 1 ∧ (k % 4 = 0 → tripled k = 3 * k) := by
  rw [tripled, divNearestEven]
  rcases excess_cases hk with h0 | ⟨h1, hlt⟩ | ⟨h2, hge⟩
  · rw [h0]
    split <;> omega
  · rw [h1]
    split <;> omega
  · rw [h2]
    split <;> omega

theorem tripled_of_lopsided (hk : k < 2 ^ 53) (h : 2 ^ 54 < 3 * k) (hhalf : k % 4 = 2) :
    tripled k + 4 = 3 * k + if k % 8 = 2 then 6 else 2 := by
  rw [tripled, divNearestEven]
  rcases excess_cases hk with h0 | ⟨h1, hlt⟩ | ⟨h2, hge⟩
  · have := (Nat.le_log2 (show 3 * k ≠ 0 by omega)).2 (Nat.le_of_lt h)
    rw [excess] at h0
    omega
  · omega
  · rw [h2]
    split <;> split <;> omega

/-! ## Thirds -/

/-- What is less than half a unit away from a significand, in thirds. -/
theorem codeOfRatio_third {j w : Nat} (h : IsSignificand s j) (hj : j + 1 < 2 ^ 53)
    (hc : s * 2 ^ 52 + (j + 1) < infinityCode) (hlow : 6 * j + 3 < 2 * w) (hhigh : 2 * w < 6 * j + 9) :
    codeOfRatio (w * 2 ^ s) 3 = s * 2 ^ 52 + (j + 1) := by
  have hself : IsSignificand s (j + 1) := ⟨h.normal.imp_right fun h => by omega, by omega⟩
  have hpred : s * 2 ^ 52 + (j + 1) - 1 = s * 2 ^ 52 + j := by omega
  have hlow' := Nat.mul_lt_mul_of_pos_right hlow (Nat.two_pow_pos s)
  have hhigh' := Nat.mul_lt_mul_of_pos_right hhigh (Nat.two_pow_pos s)
  have hbelow : (unitsOfCode (s * 2 ^ 52 + (j + 1) - 1) + unitsOfCode (s * 2 ^ 52 + (j + 1))) * 3 <
      2 * (w * 2 ^ s) := by
    rw [hpred, unitsOfCode_eq h, unitsOfCode_eq hself]
    linarith
  have habove : 2 * (w * 2 ^ s) <
      (unitsOfCode (s * 2 ^ 52 + (j + 1)) + unitsOfCode (s * 2 ^ 52 + (j + 1) + 1)) * 3 := by
    rw [unitsOfCode_eq hself, unitsOfCode_succ hself hj]
    linarith
  refine (codeOfRatio_eq_iff (by omega) hc).2 ⟨Nat.le_of_lt hbelow, Nat.le_of_lt habove, fun htie => ?_⟩
  exact absurd htie (not_or.2 ⟨Nat.ne_of_gt hbelow, Nat.ne_of_lt habove⟩)

theorem third_tripled (h : IsSignificand s k) (hk : k < 2 ^ 53) (hc : s * 2 ^ 52 + k < infinityCode)
    (hlopsided : ¬(2 ^ 54 < 3 * k ∧ k % 4 = 2)) : codeOfRatio (tripled k * 2 ^ s) 3 = s * 2 ^ 52 + k := by
  obtain ⟨hhigh, hlow, hexact⟩ := tripled_of_not_lopsided hk hlopsided
  by_cases heq : tripled k = 3 * k
  · have hunits : tripled k * 2 ^ s = unitsOfCode (s * 2 ^ 52 + k) * 3 := by
      rw [heq, unitsOfCode_eq h]
      ring
    rw [hunits, codeOfRatio_units (by omega) hc]
  · -- The significand is not the least one, so the float below is one unit away.
    obtain ⟨j, rfl⟩ : ∃ j, k = j + 1 := ⟨k - 1, by omega⟩
    have hprev : IsSignificand s j := ⟨h.normal.imp_right fun h => by omega, by omega⟩
    exact codeOfRatio_third hprev hk hc (by omega) (by omega)

theorem third_tripled_of_lopsided (h : IsSignificand s k) (hk : k < 2 ^ 53) (hc : s * 2 ^ 52 + k < infinityCode)
    (hlarge : 2 ^ 54 < 3 * k) (hhalf : k % 4 = 2) :
    codeOfRatio (tripled k * 2 ^ s) 3 = s * 2 ^ 52 + if k % 8 = 2 then k + 1 else k - 1 := by
  have htripled := tripled_of_lopsided hk hlarge hhalf
  have hmax : infinityCode = 2047 * 2 ^ 52 := rfl
  split at htripled
  case isTrue hup =>
    rw [if_pos hup]
    exact codeOfRatio_third h (by omega) (by omega) (by omega) (by omega)
  case isFalse hdown =>
    obtain ⟨j, rfl⟩ : ∃ j, k = j + 2 := ⟨k - 2, by omega⟩
    have hprev : IsSignificand s j := ⟨h.normal.imp_right fun h => by omega, by omega⟩
    rw [if_neg hdown]
    exact codeOfRatio_third hprev (by omega) (by omega) (by omega) (by omega)

/-! ## Three times a float -/

/-- A sum that a float can hold is rounded to it. -/
theorem units_ofRatio {neg : Bool} {c : Nat} (h : (ofRatio neg (unitsOfCode c) 1).isFinite = true) :
    (ofRatio neg (unitsOfCode c) 1).units = unitsOfCode c := by
  have hexact := roundsTo_units Nat.one_pos c
  rw [Nat.mul_one] at hexact
  have hrounded := roundsTo_codeOfRatio Nat.one_pos (isFinite_ofRatio_iff.1 h)
  rw [units, code_ofRatio, hrounded.unique hexact Nat.one_pos]

theorem units_double (h : (x + x).isFinite = true) : (x + x).units = 2 * x.units ∧ (x + x).negative = x.negative := by
  obtain ⟨hx, -⟩ := isFinite_of_add h
  obtain ⟨c, hc⟩ := exists_unitsOfCode_eq (Nat.le_of_lt x.significand_lt) (x.shift + 1)
  have hunits : x.units + x.units = unitsOfCode c := by
    rw [hc, units_eq, Nat.pow_succ]
    ring
  rw [add_of_same_sign hx hx rfl, hunits] at h ⊢
  exact ⟨by rw [units_ofRatio h, ← hunits, Nat.two_mul], negative_ofRatio _ _ _⟩

theorem units_triple (h : (x + x + x).isFinite = true) :
    (x + x + x).units = tripled x.significand * 2 ^ x.shift ∧ (x + x + x).negative = x.negative := by
  obtain ⟨hdouble, hx⟩ := isFinite_of_add h
  obtain ⟨hunits, hsign⟩ := units_double hdouble
  have hsum : 2 * x.units + x.units = 3 * (x.significand * 2 ^ x.shift) := by
    rw [units_eq]
    ring
  rw [add_of_same_sign hdouble hx hsign.symm, hsign, hunits, hsum] at h ⊢
  refine ⟨?_, negative_ofRatio _ _ _⟩
  have hlt := isFinite_ofRatio_iff.1 h
  have hrounded : codeOfRatio (3 * (x.significand * 2 ^ x.shift)) 1 =
      roundedCode (3 * (x.significand * 2 ^ x.shift)) 1 := by
    rw [codeOfRatio_eq_min] at hlt ⊢
    omega
  rw [units, code_ofRatio, hrounded, unitsOfCode_roundedCode_triple x.isSignificand]

/-- Twice and three times a float can be added up if they are less than the midpoint behind the greatest float. -/
theorem isFinite_triple (hx : x.isFinite = true)
    (h : 2 * (3 * x.units) < unitsOfCode (infinityCode - 1) + unitsOfCode infinityCode) :
    (x + x + x).isFinite = true := by
  have hfinite : ∀ neg n, n ≤ 3 * x.units → (ofRatio neg n 1).isFinite = true := fun neg n hn =>
    isFinite_ofRatio_iff.2 (codeOfRatio_lt_infinityCode Nat.one_pos (by omega))
  have hdouble : (x + x).isFinite = true := by
    rw [add_of_same_sign hx hx rfl]
    exact hfinite _ _ (by omega)
  obtain ⟨hunits, hsign⟩ := units_double hdouble
  rw [add_of_same_sign hdouble hx hsign.symm, hunits]
  exact hfinite _ _ (by omega)

theorem div_three (hx : x.isFinite = true) : x / 3 = ofRatio x.negative x.units 3 := by
  have hthree : IsNat 3 3 := isNat_ofInt (by decide)
  have hzero : (3 : Binary64).isZero = false := by decide +kernel
  rw [div_eq hx hthree.finite hzero, hthree.positive, hthree.units, Bool.bne_false, ofRatio,
    codeOfRatio_mul_right unitsInOne_pos]
  rfl

end TriadMesh.Binary64
