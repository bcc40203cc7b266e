import Mathlib.Algebra.BigOperators.Group.List.Basic
import Mathlib.Analysis.Real.Sqrt
import TriadMesh.Triad

/-!
# How far readings of an exact vote differ

Over the rationals the variance splits into what one reading adds and what the two others differ by, and again into the
differences of all pairs. From the first comes how far a round that passes lets its readings be from the mean and from
each other, from the second how close they must be for it to pass. Triads of the shapes `(2, -1, -1)`, `(1, 0, -1)` and
`(0, 0, 1)` come as near to these bounds as the rationals allow, so whichever node reports a wrong reading, it moves
the value that is agreed on by that much and no more.
-/

namespace TriadMesh.Triad

variable {t t' : Triad ℚ} {threshold c x y : ℚ}

def toList {α : Type} (t : Triad α) : List α := [t.alpha, t.beta, t.gamma]

theorem passed_iff : (t.evaluate threshold).passed = true ↔ t.variance ≤ threshold := decide_eq_true_iff

/-! ## The order of the readings -/

theorem mean_eq_sum (t : Triad ℚ) : t.mean = t.toList.sum / 3 := by
  simp only [mean, toList, List.sum_cons, List.sum_nil]
  ring

/-- The mean square less the square of the mean. -/
theorem variance_eq_sum (t : Triad ℚ) : t.variance = (t.toList.map (· ^ 2)).sum / 3 - t.mean ^ 2 := by
  simp only [variance, deviation, mean, toList, List.map_cons, List.map_nil, List.sum_cons, List.sum_nil]
  ring

theorem mean_eq_of_perm (h : t'.toList.Perm t.toList) : t'.mean = t.mean := by
  rw [mean_eq_sum, mean_eq_sum, h.sum_eq]

theorem variance_eq_of_perm (h : t'.toList.Perm t.toList) : t'.variance = t.variance := by
  rw [variance_eq_sum, variance_eq_sum, mean_eq_of_perm h, (h.map (· ^ 2)).sum_eq]

theorem verdict_eq_of_perm (h : t'.toList.Perm t.toList) (threshold : ℚ) :
    (t'.evaluate threshold).verdict = (t.evaluate threshold).verdict := by
  rw [Report.verdict, Report.verdict, evaluate, evaluate]
  dsimp only
  rw [mean_eq_of_perm h, variance_eq_of_perm h]

/-- The readings in the order in which each is followed by the next, and the last by the first. -/
def rotate {α : Type} (t : Triad α) : Triad α := ⟨t.beta, t.gamma, t.alpha⟩

theorem perm_rotate {α : Type} (t : Triad α) : t.rotate.toList.Perm t.toList :=
  List.perm_append_singleton t.alpha [t.beta, t.gamma]

/-- Any reading may be taken for the first one. -/
theorem exists_perm_alpha {r : ℚ} (h : r ∈ t.toList) : ∃ t' : Triad ℚ, t'.toList.Perm t.toList ∧ t'.alpha = r := by
  simp only [toList, List.mem_cons, List.not_mem_nil, or_false] at h
  rcases h with rfl | rfl | rfl
  · exact ⟨t, .rfl, rfl⟩
  · exact ⟨t.rotate, t.perm_rotate, rfl⟩
  · exact ⟨t.rotate.rotate, t.rotate.perm_rotate.trans t.perm_rotate, rfl⟩

/-! ## Bounds -/

/-- What the first reading adds to the variance, and what the two others do. -/
theorem six_mul_variance (t : Triad ℚ) :
    6 * t.variance = 3 * (t.alpha - t.mean) ^ 2 + (t.beta - t.gamma) ^ 2 := by
  simp only [variance, deviation, mean]
  ring

theorem nine_mul_variance (t : Triad ℚ) :
    9 * t.variance = (t.alpha - t.beta) ^ 2 + (t.beta - t.gamma) ^ 2 + (t.gamma - t.alpha) ^ 2 := by
  simp only [variance, deviation, mean]
  ring

theorem sq_sub_mean_le {r : ℚ} (hr : r ∈ t.toList) : (r - t.mean) ^ 2 ≤ 2 * t.variance := by
  obtain ⟨t', hperm, rfl⟩ := exists_perm_alpha hr
  have hsplit := six_mul_variance t'
  have hothers := sq_nonneg (t'.beta - t'.gamma)
  rw [← mean_eq_of_perm hperm, ← variance_eq_of_perm hperm]
  linarith

theorem sq_beta_sub_gamma_le (t : Triad ℚ) : (t.beta - t.gamma) ^ 2 ≤ 6 * t.variance := by
  have hsplit := six_mul_variance t
  have hfirst := sq_nonneg (t.alpha - t.mean)
  linarith

theorem sq_sub_le {p q : ℚ} (hp : p ∈ t.toList) (hq : q ∈ t.toList) : (p - q) ^ 2 ≤ 6 * t.variance := by
  have halpha : (t.beta - t.gamma) ^ 2 ≤ 6 * t.variance := sq_beta_sub_gamma_le t
  have hbeta : (t.gamma - t.alpha) ^ 2 ≤ 6 * t.variance :=
    variance_eq_of_perm t.perm_rotate ▸ sq_beta_sub_gamma_le t.rotate
  have hgamma : (t.alpha - t.beta) ^ 2 ≤ 6 * t.variance :=
    variance_eq_of_perm (t.rotate.perm_rotate.trans t.perm_rotate) ▸ sq_beta_sub_gamma_le t.rotate.rotate
  have hsame : 0 ≤ 6 * t.variance := (sq_nonneg _).trans halpha
  simp only [toList, List.mem_cons, List.not_mem_nil, or_false] at hp hq
  rcases hp with rfl | rfl | rfl <;> rcases hq with rfl | rfl | rfl
  all_goals linarith

/-- Some reading lies between the two others. Their difference is the sum of those to this one, which have one sign, so
its square is at least the sum of their squares. -/
theorem exists_nine_mul_variance_le (t : Triad ℚ) :
    ∃ p ∈ t.toList, ∃ q ∈ t.toList, 9 * t.variance ≤ 2 * (p - q) ^ 2 := by
  have hpairs := nine_mul_variance t
  obtain ⟨a, b, c⟩ := t
  have hbetween : 0 ≤ (a - b) * (b - c) ∨ 0 ≤ (b - c) * (c - a) ∨ 0 ≤ (c - a) * (a - b) := by
    by_contra! hnone
    obtain ⟨hb, hc, ha⟩ := hnone
    nlinarith [mul_pos_of_neg_of_neg hb hc, sq_nonneg (b - c)]
  simp only at hpairs
  rcases hbetween with hb | hc | ha
  · exact ⟨a, by simp [toList], c, by simp [toList], by linarith⟩
  · exact ⟨b, by simp [toList], a, by simp [toList], by linarith⟩
  · exact ⟨c, by simp [toList], b, by simp [toList], by linarith⟩

theorem variance_le_of_close (h : ∀ p ∈ t.toList, ∀ q ∈ t.toList, 2 * (p - q) ^ 2 ≤ 9 * threshold) :
    t.variance ≤ threshold := by
  obtain ⟨p, hp, q, hq, hwidest⟩ := exists_nine_mul_variance_le t
  have hclose := h p hp q hq
  linarith

/-! ## Readings that reach the bounds -/

theorem exists_sq_between (h : x < y) (hy : 0 < y) : ∃ a : ℚ, x < a ^ 2 ∧ a ^ 2 < y := by
  obtain ⟨a, -, hx, hy⟩ := exists_rat_pow_btwn (n := 2) (by decide) h hy
  exact ⟨a, by simpa using hx, by simpa using hy⟩

/-- One reading away from two that are equal. -/
theorem exists_far_from_mean (hthreshold : 0 < threshold) (hc : c < 2) :
    ∃ t : Triad ℚ, (t.evaluate threshold).passed = true ∧ ∃ r ∈ t.toList, c * threshold < (r - t.mean) ^ 2 := by
  obtain ⟨a, hlow, hhigh⟩ := exists_sq_between (x := c * threshold / 4) (y := threshold / 2)
    (by nlinarith) (by linarith)
  have hmean : (⟨2 * a, -a, -a⟩ : Triad ℚ).mean = 0 := by simp only [mean]; ring
  have hvariance : (⟨2 * a, -a, -a⟩ : Triad ℚ).variance = 2 * a ^ 2 := by simp only [variance, deviation, hmean]; ring
  refine ⟨⟨2 * a, -a, -a⟩, passed_iff.2 ?_, 2 * a, by simp [toList], ?_⟩
  · rw [hvariance]
    linarith
  · rw [hmean]
    linarith

/-- One reading in the middle between the two others. -/
theorem exists_far_apart (hthreshold : 0 < threshold) (hc : c < 6) :
    ∃ t : Triad ℚ, (t.evaluate threshold).passed = true ∧
      ∃ p ∈ t.toList, ∃ q ∈ t.toList, c * threshold < (p - q) ^ 2 := by
  obtain ⟨a, hlow, hhigh⟩ := exists_sq_between (x := c * threshold / 4) (y := 3 * threshold / 2)
    (by nlinarith) (by linarith)
  have hvariance : (⟨a, 0, -a⟩ : Triad ℚ).variance = 2 * a ^ 2 / 3 := by simp only [variance, deviation, mean]; ring
  refine ⟨⟨a, 0, -a⟩, passed_iff.2 ?_, a, by simp [toList], -a, by simp [toList], by linarith⟩
  rw [hvariance]
  linarith

/-- One reading away from two that are equal. -/
theorem exists_close_not_passed (hthreshold : 0 < threshold) (hc : 9 < c) :
    ∃ t : Triad ℚ, (∀ p ∈ t.toList, ∀ q ∈ t.toList, 2 * (p - q) ^ 2 ≤ c * threshold) ∧
      (t.evaluate threshold).passed = false := by
  obtain ⟨a, hlow, hhigh⟩ := exists_sq_between (x := 9 * threshold / 2) (y := c * threshold / 2)
    (by nlinarith) (by nlinarith)
  have hvariance : (⟨0, 0, a⟩ : Triad ℚ).variance = 2 * a ^ 2 / 9 := by simp only [variance, deviation, mean]; ring
  refine ⟨⟨0, 0, a⟩, fun p hp q hq => ?_, decide_eq_false ?_⟩
  · simp only [toList, List.mem_cons, List.not_mem_nil, or_false] at hp hq
    rcases hp with rfl | rfl | rfl <;> rcases hq with rfl | rfl | rfl
    all_goals nlinarith
  · rw [hvariance]
    linarith

/-- If a round passes, every reading is within the root of twice the threshold from the value agreed on, so the right
ones are, wherever a wrong one stands; and the square of the difference of any two is at most six times the threshold.
If twice this square is at most nine times the threshold for any two, the round passes. None of these constants can be
improved, whatever the threshold is if it is positive, and the order of the readings does not matter. -/
theorem vote_bounds :
    (∀ (t : Triad ℚ) (threshold : ℚ),
      ((t.evaluate threshold).passed = true →
        (t.evaluate threshold).verdict = (t.mean, true) ∧
        (∀ r ∈ t.toList, (r - t.mean) ^ 2 ≤ 2 * threshold ∧
          |((r : ℚ) : ℝ) - (t.mean : ℝ)| ≤ √(2 * (threshold : ℝ))) ∧
        ∀ p ∈ t.toList, ∀ q ∈ t.toList, (p - q) ^ 2 ≤ 6 * threshold) ∧
      ((∀ p ∈ t.toList, ∀ q ∈ t.toList, 2 * (p - q) ^ 2 ≤ 9 * threshold) →
        (t.evaluate threshold).passed = true) ∧
      ∀ t' : Triad ℚ, t'.toList.Perm t.toList →
        t'.mean = t.mean ∧ (t'.evaluate threshold).verdict = (t.evaluate threshold).verdict) ∧
    ∀ threshold c : ℚ, 0 < threshold →
      (c < 2 → ∃ t : Triad ℚ, (t.evaluate threshold).passed = true ∧
        ∃ r ∈ t.toList, c * threshold < (r - t.mean) ^ 2) ∧
      (c < 6 → ∃ t : Triad ℚ, (t.evaluate threshold).passed = true ∧
        ∃ p ∈ t.toList, ∃ q ∈ t.toList, c * threshold < (p - q) ^ 2) ∧
      (9 < c → ∃ t : Triad ℚ, (∀ p ∈ t.toList, ∀ q ∈ t.toList, 2 * (p - q) ^ 2 ≤ c * threshold) ∧
        (t.evaluate threshold).passed = false) := by
  refine ⟨fun t threshold => ⟨fun hpassed => ⟨if_pos hpassed, fun r hr => ?_, fun p hp q hq => ?_⟩, fun hclose => ?_,
    fun t' hperm => ⟨mean_eq_of_perm hperm, verdict_eq_of_perm hperm threshold⟩⟩, fun threshold c hthreshold =>
    ⟨exists_far_from_mean hthreshold, exists_far_apart hthreshold, exists_close_not_passed hthreshold⟩⟩
  · have hvariance := passed_iff.1 hpassed
    have hsquare : (r - t.mean) ^ 2 ≤ 2 * threshold := (sq_sub_mean_le hr).trans (by linarith)
    exact ⟨hsquare, Real.abs_le_sqrt (by exact_mod_cast hsquare)⟩
  · have hvariance := passed_iff.1 hpassed
    exact (sq_sub_le hp hq).trans (by linarith)
  · exact passed_iff.2 (variance_le_of_close hclose)

/-- At the threshold two, a first reading that just passes is two away from the value agreed on, and one that is three
away from the two others still passes; with ten in the place of nine, passing is no longer certain. -/
theorem vote_bounds_outlier :
    ((⟨2, -1, -1⟩ : Triad ℚ).evaluate 2).passed = true ∧ (⟨2, -1, -1⟩ : Triad ℚ).mean = 0 ∧
      |((2 : ℚ) : ℝ) - ((⟨2, -1, -1⟩ : Triad ℚ).mean : ℝ)| ≤ √(2 * ((2 : ℚ) : ℝ)) ∧
      ((⟨3, 0, 0⟩ : Triad ℚ).evaluate 2).passed = true ∧
      ∃ t : Triad ℚ, (∀ p ∈ t.toList, ∀ q ∈ t.toList, 2 * (p - q) ^ 2 ≤ 10 * 2) ∧ (t.evaluate 2).passed = false := by
  have hpassed : ((⟨2, -1, -1⟩ : Triad ℚ).evaluate 2).passed = true := by decide +kernel
  have hclose : ∀ p ∈ (⟨3, 0, 0⟩ : Triad ℚ).toList, ∀ q ∈ (⟨3, 0, 0⟩ : Triad ℚ).toList, 2 * (p - q) ^ 2 ≤ 9 * 2 := by
    decide +kernel
  obtain ⟨hvotes, hsharp⟩ := vote_bounds
  obtain ⟨-, hmean, -⟩ := (hvotes ⟨2, -1, -1⟩ 2).1 hpassed
  obtain ⟨-, hpasses, -⟩ := hvotes ⟨3, 0, 0⟩ 2
  obtain ⟨-, -, hfails⟩ := hsharp 2 10 (by norm_num)
  exact ⟨hpassed, by decide +kernel, (hmean 2 List.mem_cons_self).2, hpasses hclose, hfails (by norm_num)⟩

end TriadMesh.Triad
