import Mathlib.Data.Nat.Prime.Basic
import TriadMesh.Proofs.FiniteVote
import TriadMesh.Proofs.Tripling

/-!
# Three equal readings

The mean of three equal readings is the reading, unless the sum overflows or its rounding leads to a neighbor of the
reading. So a round of three equal readings may have a variance, the square of the gap to the neighbor, and may fail.
-/

namespace TriadMesh

namespace Binary64

variable {x : Binary64} {s : Nat}

/-- The neighbor to which a third of three times a lopsided float is rounded. -/
def beside (x : Binary64) : Binary64 :=
  ofCode x.negative (x.shift * 2 ^ 52 + if x.significand % 8 = 2 then x.significand + 1 else x.significand - 1)

/-- The square of the gap between a float and its neighbors. -/
def squaredGap (x : Binary64) : Binary64 := ofRatio false (2 ^ x.shift * 2 ^ x.shift) unitsInOne

theorem mul_self_eq (hx : x.isFinite = true) : x * x = ofRatio false (x.units * x.units) unitsInOne := by
  rw [mul_eq hx hx, bne_self_eq_false]

/-- A power of two among the floats has a significand that is one, so three times it is exact. -/
theorem not_lopsided_of_units (h : x.units = 2 ^ s) : ¬x.Lopsided := by
  rintro ⟨hlarge, -⟩
  have hdvd : x.significand ∣ 2 ^ s := by
    rw [← h, units_eq]
    exact Nat.dvd_mul_right _ _
  obtain ⟨j, -, hj⟩ := (Nat.dvd_prime_pow Nat.prime_two).1 hdvd
  have hlt := x.significand_lt
  rw [hj] at hlt hlarge
  have hle : j ≤ 52 := Nat.le_of_lt_succ ((Nat.pow_lt_pow_iff_right (by decide)).1 hlt)
  have := Nat.pow_le_pow_right (show 0 < 2 by decide) hle
  omega

/-- Finite, of the same sign, and one unit of the last place away. -/
theorem beside_spec (hx : x.isFinite = true) (h : x.Lopsided) :
    x.beside.isFinite = true ∧ x.beside.negative = x.negative ∧
      (x.beside.units = x.units + 2 ^ x.shift ∨ x.beside.units + 2 ^ x.shift = x.units) := by
  obtain ⟨hlarge, hhalf⟩ := h
  have hmax : infinityCode = 2047 * 2 ^ 52 := rfl
  have hcode := code_lt_of_isFinite hx
  have hsig := x.isSignificand
  have hlt := x.significand_lt
  have hunits := x.units_eq
  rw [beside]
  generalize hk : (if x.significand % 8 = 2 then x.significand + 1 else x.significand - 1) = k
  have hnear : k = x.significand + 1 ∨ k + 1 = x.significand := by
    split at hk <;> omega
  have hsig' : IsSignificand x.shift k := ⟨by omega, by omega⟩
  have hfinite' : x.shift * 2 ^ 52 + k < infinityCode := by omega
  have hcode' := code_ofCode x.negative (hfinite'.trans (show infinityCode < 2 ^ 63 by decide))
  refine ⟨decide_eq_true (hcode'.symm ▸ hfinite'), negative_ofCode _ (hfinite'.trans (by decide)), ?_⟩
  rw [units, hcode', unitsOfCode_eq hsig', hunits]
  rcases hnear with rfl | hpred
  · exact .inl (Nat.succ_mul _ _)
  · exact .inr (by rw [← hpred, Nat.succ_mul])

theorem beside_ne (hx : x.isFinite = true) (h : x.Lopsided) : x.beside ≠ x := by
  intro heq
  obtain ⟨-, -, hunits⟩ := beside_spec hx h
  have hpos := Nat.two_pow_pos x.shift
  rw [heq] at hunits
  omega

theorem gap_beside (hx : x.isFinite = true) (h : x.Lopsided) :
    (x - x.beside) * (x - x.beside) = x.squaredGap := by
  obtain ⟨hfinite, hsign, hunits⟩ := beside_spec hx h
  have hgap : (x.signedUnits - x.beside.signedUnits).natAbs = 2 ^ x.shift := by
    generalize 2 ^ x.shift = gap at hunits
    cases hneg : x.negative with
    | false =>
      rw [signedUnits_of_positive hneg, signedUnits_of_positive (hsign.trans hneg)]
      omega
    | true =>
      rw [signedUnits_of_negative hneg, signedUnits_of_negative (hsign.trans hneg)]
      omega
  obtain ⟨neg, hsub⟩ := sub_eq hx hfinite
  obtain ⟨c, hc⟩ := exists_unitsOfCode_eq (show 1 ≤ 2 ^ 53 by decide) x.shift
  rw [Nat.one_mul] at hc
  have hle : unitsOfCode c ≤ unitsOfCode x.code := by
    have hpos : 0 < x.significand := by
      have := h.1
      omega
    rw [hc, ← units, units_eq]
    exact Nat.le_mul_of_pos_left _ hpos
  have hcode : c < infinityCode :=
    Nat.lt_of_le_of_lt (unitsOfCode_strictMono.le_iff_le.1 hle) (of_decide_eq_true hx)
  have hexact := codeOfRatio_units Nat.one_pos hcode
  rw [hgap, ← hc] at hsub
  rw [Nat.mul_one] at hexact
  have hgapFinite : (x - x.beside).isFinite = true := by
    rwa [hsub, isFinite_ofRatio_iff, hexact]
  rw [mul_self_eq hgapFinite, squaredGap, hsub, units, code_ofRatio, hexact, hc]

theorem codeOfRatio_two_pow_of_small {j : Nat} (h : j < 1074) : codeOfRatio (2 ^ j) unitsInOne = 0 := by
  have hle : 2 * 2 ^ j ≤ unitsInOne := by
    obtain ⟨k, hk⟩ : ∃ k, 1074 = j + 1 + k := Nat.exists_eq_add_of_le h
    rw [← Nat.pow_succ', unitsInOne, hk, Nat.pow_add]
    exact Nat.le_mul_of_pos_right _ (Nat.two_pow_pos k)
  refine (codeOfRatio_eq_iff unitsInOne_pos (by decide)).2 ⟨?_, ?_, fun _ => rfl⟩
  · rw [Nat.zero_sub, unitsOfCode_zero, Nat.zero_mul]
    exact Nat.zero_le _
  · rw [unitsOfCode_zero, Nat.zero_add, Nat.zero_add, show unitsOfCode 1 = 1 from rfl, Nat.one_mul]
    exact hle

/-- A power of two is exact, if it is finite. -/
theorem ofRatio_two_pow_cases (s : Nat) :
    ofRatio false (2 ^ (s + 1074)) unitsInOne = infinity false ∨
      (ofRatio false (2 ^ (s + 1074)) unitsInOne).isFinite = true ∧ s < 2098 ∧
        (ofRatio false (2 ^ (s + 1074)) unitsInOne).units = 2 ^ s := by
  obtain ⟨c, hc⟩ := exists_unitsOfCode_eq (show 1 ≤ 2 ^ 53 by decide) s
  rw [Nat.one_mul] at hc
  have hpow : 2 ^ (s + 1074) = unitsOfCode c * unitsInOne := by rw [Nat.pow_add, hc, unitsInOne]
  have hscaled : ofRatio false (2 ^ (s + 1074)) unitsInOne = ofRatio false (unitsOfCode c) 1 := by
    rw [ofRatio, ofRatio, ← codeOfRatio_mul_right unitsInOne_pos _ 1, Nat.one_mul, hpow]
  rw [hscaled]
  by_cases hfinite : (ofRatio false (unitsOfCode c) 1).isFinite = true
  · right
    have hunits := units_ofRatio hfinite
    have hlt : unitsOfCode (ofRatio false (unitsOfCode c) 1).code < unitsOfCode infinityCode :=
      unitsOfCode_strictMono (of_decide_eq_true hfinite)
    have hmax : unitsOfCode infinityCode = 2 ^ 2098 := by decide +kernel
    rw [← units, hunits, hc, hmax] at hlt
    have hexponent := (Nat.pow_lt_pow_iff_right (by decide)).1 hlt
    exact ⟨hfinite, hexponent, hunits.trans hc⟩
  · left
    have hle := codeOfRatio_eq_min (unitsOfCode c) 1
    rw [isFinite_ofRatio_iff] at hfinite
    have hcode : codeOfRatio (unitsOfCode c) 1 = infinityCode := by omega
    rw [ofRatio, hcode, infinity]

/-- The square of a gap is a power of two with an even exponent, if it is neither too small nor too large. -/
theorem squaredGap_cases (x : Binary64) :
    x.squaredGap = zero false ∨ x.squaredGap = infinity false ∨
      x.squaredGap.isFinite = true ∧ ∃ s, s ≤ 2096 ∧ x.squaredGap.units = 2 ^ s := by
  rw [squaredGap, ← Nat.pow_add]
  by_cases hsmall : x.shift + x.shift < 1074
  · left
    rw [ofRatio, codeOfRatio_two_pow_of_small hsmall, zero]
  · right
    obtain ⟨s, hs⟩ : ∃ s, x.shift + x.shift = s + 1074 := ⟨x.shift + x.shift - 1074, by omega⟩
    rw [hs]
    refine (ofRatio_two_pow_cases s).imp_right fun hpower => ?_
    obtain ⟨hfinite, hlt, hunits⟩ := hpower
    exact ⟨hfinite, s, by omega, hunits⟩

end Binary64

namespace Triad

open Binary64

variable {r threshold : Binary64}

/-- Three readings that are all the same. -/
def unanimous (r : Binary64) : Triad Binary64 := ⟨r, r, r⟩

theorem mean_unanimous (h : (r + r + r).isFinite = true) :
    (unanimous r).mean = ofCode r.negative (codeOfRatio (tripled r.significand * 2 ^ r.shift) 3) := by
  obtain ⟨hunits, hsign⟩ := units_triple h
  have hmean : (unanimous r).mean = (r + r + r) / 3 := rfl
  rw [hmean, div_three h, hunits, hsign, ofRatio]

theorem mean_of_not_lopsided (h : (r + r + r).isFinite = true) (hlopsided : ¬r.Lopsided) : (unanimous r).mean = r := by
  have hcode := code_lt_of_isFinite (isFinite_of_add h).2
  rw [mean_unanimous h, third_tripled r.isSignificand r.significand_lt hcode hlopsided, ← code_eq, ofCode_code]

theorem mean_of_lopsided (h : (r + r + r).isFinite = true) (hlopsided : r.Lopsided) :
    (unanimous r).mean = r.beside := by
  have hcode := code_lt_of_isFinite (isFinite_of_add h).2
  rw [mean_unanimous h, third_tripled_of_lopsided r.isSignificand r.significand_lt hcode hlopsided.1 hlopsided.2,
    beside]

/-- The variance is the mean of three equal squares. -/
theorem variance_unanimous (r : Binary64) :
    (unanimous r).variance = (unanimous (deviation (unanimous r).mean r)).mean := rfl

theorem mean_squaredGap (r : Binary64) : (unanimous r.squaredGap).mean = r.squaredGap := by
  rcases r.squaredGap_cases with hzero | hinfinite | ⟨hfinite, s, hs, hunits⟩
  · rw [hzero]
    decide +kernel
  · rw [hinfinite]
    decide +kernel
  · refine mean_of_not_lopsided (isFinite_triple hfinite ?_) (not_lopsided_of_units hunits)
    have hmax : 2 * (3 * 2 ^ 2096) < unitsOfCode (infinityCode - 1) + unitsOfCode infinityCode := by decide +kernel
    have := Nat.pow_le_pow_right (show 0 < 2 by decide) hs
    rw [hunits]
    omega

theorem variance_of_not_lopsided (h : (r + r + r).isFinite = true) (hlopsided : ¬r.Lopsided) :
    (unanimous r).variance = zero false := by
  have hr := (isFinite_of_add h).2
  obtain ⟨neg, hsub⟩ := sub_eq hr hr
  rw [Int.sub_self, Int.natAbs_zero, ofRatio_zero] at hsub
  rw [variance_unanimous, mean_of_not_lopsided h hlopsided, deviation, hsub]
  cases neg <;> decide +kernel

theorem variance_of_lopsided (h : (r + r + r).isFinite = true) (hlopsided : r.Lopsided) :
    (unanimous r).variance = r.squaredGap := by
  rw [variance_unanimous, mean_of_lopsided h hlopsided, deviation, gap_beside (isFinite_of_add h).2 hlopsided,
    mean_squaredGap]

/-! ## Verdicts -/

theorem verdict_of_overflow (hthreshold : threshold.isFinite = true) (h : (r + r + r).isFinite = false) :
    ((unanimous r).evaluate threshold).verdict = (0, false) := by
  cases hpassed : ((unanimous r).evaluate threshold).passed with
  | false => exact Report.verdict_of_failed hpassed
  | true =>
    have hsum : (r + r + r).isFinite = true := isFinite_of_div (finite_of_passed hthreshold hpassed).mean
    cases h.symm.trans hsum

theorem verdict_of_not_lopsided (hthreshold : Config.isNonNegative threshold = true) (h : (r + r + r).isFinite = true)
    (hlopsided : ¬r.Lopsided) : ((unanimous r).evaluate threshold).verdict = (r, true) := by
  have hpassed : ((unanimous r).evaluate threshold).passed = true := by
    rw [evaluate, variance_of_not_lopsided h hlopsided]
    exact decide_eq_true (zero_le hthreshold)
  rw [Report.verdict_of_passed hpassed, evaluate, mean_of_not_lopsided h hlopsided]

theorem verdict_of_lopsided (h : (r + r + r).isFinite = true) (hlopsided : r.Lopsided) :
    ((unanimous r).evaluate threshold).verdict =
      if r.squaredGap ≤ threshold then (r.beside, true) else (0, false) := by
  rw [evaluate, variance_of_lopsided h hlopsided, mean_of_lopsided h hlopsided]
  by_cases hle : r.squaredGap ≤ threshold
  · rw [if_pos hle, Report.verdict, if_pos (decide_eq_true hle)]
  · rw [if_neg hle, Report.verdict, decide_eq_false hle, if_neg Bool.false_ne_true]

/-- Three equal readings agree on the value that they read exactly if their sum does not overflow and the reading is
not lopsided. With an overflow they never pass. From a lopsided reading they agree on its neighbor, if the square of
the gap does not exceed the threshold. -/
theorem unanimous_votes (r : Binary64) (hthreshold : Config.isNonNegative threshold = true) :
    (((unanimous r).evaluate threshold).verdict = (r, true) ↔ (r + r + r).isFinite = true ∧ ¬r.Lopsided) ∧
      ((r + r + r).isFinite = false → ((unanimous r).evaluate threshold).verdict = (0, false)) ∧
      ((r + r + r).isFinite = true → r.Lopsided → ((unanimous r).evaluate threshold).verdict =
        if r.squaredGap ≤ threshold then (r.beside, true) else (0, false)) := by
  have hoverflow := verdict_of_overflow (r := r) (Config.isFinite_of_isNonNegative hthreshold)
  refine ⟨⟨fun hverdict => ?_, ?_⟩, hoverflow, fun h hlopsided => verdict_of_lopsided h hlopsided⟩
  · cases hsum : (r + r + r).isFinite with
    | false =>
      rw [hoverflow hsum] at hverdict
      cases (Prod.mk.inj hverdict).2
    | true =>
      refine ⟨rfl, fun hlopsided => ?_⟩
      rw [verdict_of_lopsided hsum hlopsided] at hverdict
      split at hverdict
      · exact beside_ne (isFinite_of_add hsum).2 hlopsided (Prod.mk.inj hverdict).1
      · cases (Prod.mk.inj hverdict).2
  · rintro ⟨h, hlopsided⟩
    exact verdict_of_not_lopsided hthreshold h hlopsided

/-- With the default threshold, 0.85 is agreed on. -/
theorem unanimous_votes_default :
    Config.isNonNegative Config.default.varianceThreshold = true ∧
      ((unanimous (.ofDecimal false 85 (-2))).evaluate Config.default.varianceThreshold).verdict =
        (.ofDecimal false 85 (-2), true) := by
  have hthreshold : Config.isNonNegative Config.default.varianceThreshold = true := by decide +kernel
  obtain ⟨hiff, -, -⟩ := unanimous_votes (.ofDecimal false 85 (-2)) hthreshold
  exact ⟨hthreshold, hiff.2 (by decide +kernel)⟩

/-- Three nodes that all read 0.74 are found to disagree if no disagreement is allowed. -/
theorem not_unanimous_votes :
    ¬∀ r threshold : Binary64, r.isFinite = true → Config.isNonNegative threshold = true →
      (Triad.evaluate ⟨r, r, r⟩ threshold).verdict = (r, true) := by
  intro h
  have hagreed := h (.ofDecimal false 74 (-2)) (zero false) (by decide +kernel) (by decide +kernel)
  have hfailed : (Triad.evaluate ⟨.ofDecimal false 74 (-2), .ofDecimal false 74 (-2), .ofDecimal false 74 (-2)⟩
      (zero false)).passed = false := by decide +kernel
  rw [Report.verdict_of_failed hfailed] at hagreed
  cases (Prod.mk.inj hagreed).2

end Triad

end TriadMesh
