import Mathlib.Algebra.Order.Field.Power
import Mathlib.Algebra.Order.Ring.Rat
import Mathlib.Tactic.NormNum
import Mathlib.Tactic.FieldSimp
import TriadMesh.Proofs.Rounding

/-!
# Shortest decimals

A grid whose step is no wider than the step between two floats has a point that rounds to the float. The scan begins
above the float and goes far enough down to meet such a grid, and the first grid with a point cannot be much finer
than the floats. So the shortest decimal is read as its float (`codeOfDecimal_shortest`), and its significand fits 64 bits
(`significand_shortest_lt`).
-/

namespace TriadMesh.Binary64

variable {c n : Nat} {e : Int} {tieUp : Bool}

/-! ## Decimals in units -/

/-- The code nearest to `n * 10 ^ e`. -/
def codeOfDecimal (n : Nat) (e : Int) : Nat := codeOfRatio (n * 10 ^ e.toNat * unitsInOne) (10 ^ (-e).toNat)

@[simp] theorem codeOfDecimal_zero (e : Int) : codeOfDecimal 0 e = 0 := by
  rw [codeOfDecimal, Nat.zero_mul, Nat.zero_mul, codeOfRatio_zero]

/-- Within the exponents that are not answered without computing the power. -/
theorem ofDecimal_eq (neg : Bool) (hlow : -400 ≤ e) (hhigh : e ≤ 400) :
    ofDecimal neg n e = ofCode neg (codeOfDecimal n e) := by
  unfold ofDecimal
  by_cases hn : n = 0
  · rw [if_pos hn, hn, codeOfDecimal_zero, zero]
  · rw [if_neg hn, if_neg (by omega), if_neg (by omega), codeOfDecimal]
    by_cases he : 0 ≤ e
    · have hneg : (-e).toNat = 0 := by omega
      rw [if_pos he, hneg, Nat.pow_zero, ofRatio]
    · have hpos : e.toNat = 0 := by omega
      rw [if_neg he, hpos, Nat.pow_zero, Nat.mul_one, ofRatio]

/-- Zeros at the end of the significand may be left out. -/
theorem codeOfDecimal_mul_pow (n j : Nat) (e : Int) : codeOfDecimal (n * 10 ^ j) (e - j) = codeOfDecimal n e := by
  have hpos : ∀ k, 0 < 10 ^ k := fun k => Nat.pow_pos (by omega)
  -- Both ratios, brought to the powers of ten that the other one has too many of.
  have hpow : 10 ^ j * 10 ^ (e - j).toNat * 10 ^ (-e).toNat = 10 ^ e.toNat * 10 ^ (-(e - j)).toNat := by
    rw [← Nat.pow_add, ← Nat.pow_add, ← Nat.pow_add]
    congr 1
    omega
  rw [codeOfDecimal, codeOfDecimal, ← codeOfRatio_mul_right (hpos (-e).toNat),
    ← codeOfRatio_mul_right (hpos (-(e - j)).toNat) _ (10 ^ (-e).toNat),
    Nat.mul_comm (10 ^ (-(e - j)).toNat)]
  have hnum : n * 10 ^ j * 10 ^ (e - j).toNat * unitsInOne * 10 ^ (-e).toNat =
      n * 10 ^ e.toNat * unitsInOne * 10 ^ (-(e - j)).toNat := by
    calc n * 10 ^ j * 10 ^ (e - j).toNat * unitsInOne * 10 ^ (-e).toNat
        = n * (10 ^ j * 10 ^ (e - j).toNat * 10 ^ (-e).toNat) * unitsInOne := by ring
      _ = n * 10 ^ e.toNat * unitsInOne * 10 ^ (-(e - j)).toNat := by
          rw [hpow]
          ring
  rw [hnum]

/-! ## Grids -/

theorem gridRatio_eq (h : Nat) (e : Int) :
    gridRatio h e = (h * 10 ^ (-e).toNat, 10 ^ e.toNat * (2 * unitsInOne)) := by
  have hunits : 2 ^ 1075 = 2 * unitsInOne := by decide +kernel
  unfold gridRatio
  rw [hunits]
  split
  · have hneg : (-e).toNat = 0 := by omega
    rw [hneg, Nat.pow_zero, Nat.mul_one]
  · have hpos : e.toNat = 0 := by omega
    rw [hpos, Nat.pow_zero, Nat.one_mul]

/-- The points below and above the float are the only candidates, and one of them is taken if it lies inside of the
midpoints, or on one and the code is even. -/
theorem onGrid?_cases (tieUp : Bool) (c : Nat) (e : Int) {step : Nat} (hstep : step = 10 ^ e.toNat * (2 * unitsInOne))
    {low high below : Nat} (hlow : low = (unitsOfCode (c - 1) + unitsOfCode c) * 10 ^ (-e).toNat)
    (hhigh : high = (unitsOfCode c + unitsOfCode (c + 1)) * 10 ^ (-e).toNat)
    (hbelow : below = 2 * unitsOfCode c * 10 ^ (-e).toNat / step) :
    (∃ n, onGrid? tieUp c e = some n ∧
      (n = below ∧ (low < n * step ∨ low = n * step ∧ c % 2 = 0) ∨
        n = below + 1 ∧ (n * step < high ∨ n * step = high ∧ c % 2 = 0))) ∨
    onGrid? tieUp c e = none ∧ below * step ≤ low ∧ high ≤ (below + 1) * step := by
  unfold onGrid?
  simp only [gridRatio_eq, ← hstep, ← hlow, ← hhigh, ← hbelow]
  split
  case h_1 hb ha =>
    simp only [Bool.or_eq_false_iff, decide_eq_false_iff_not, Bool.and_eq_false_iff, beq_eq_false_iff_ne] at hb ha
    exact .inr ⟨rfl, by omega, by omega⟩
  case h_2 hb ha =>
    simp only [Bool.or_eq_true, decide_eq_true_eq, Bool.and_eq_true, beq_iff_eq] at hb
    exact .inl ⟨below, rfl, .inl ⟨rfl, hb⟩⟩
  case h_3 hb ha =>
    simp only [Bool.or_eq_true, decide_eq_true_eq, Bool.and_eq_true, beq_iff_eq] at ha
    exact .inl ⟨below + 1, rfl, .inr ⟨rfl, ha⟩⟩
  case h_4 hb ha =>
    simp only [Bool.or_eq_true, decide_eq_true_eq, Bool.and_eq_true, beq_iff_eq] at hb ha
    have hboth : ∀ n, n = below ∨ n = below + 1 →
        n = below ∧ (low < n * step ∨ low = n * step ∧ c % 2 = 0) ∨
          n = below + 1 ∧ (n * step < high ∨ n * step = high ∧ c % 2 = 0) := by
      rintro n (rfl | rfl)
      · exact .inl ⟨rfl, hb⟩
      · exact .inr ⟨rfl, ha⟩
    left
    split
    · exact ⟨below, rfl, hboth _ (.inl rfl)⟩
    · split
      · refine ⟨_, rfl, hboth _ ?_⟩
        split <;> omega
      · exact ⟨below + 1, rfl, hboth _ (.inr rfl)⟩

/-- What is found on a grid rounds to the float. -/
theorem roundsTo_of_onGrid? (h : onGrid? tieUp c e = some n) :
    RoundsTo (n * 10 ^ e.toNat * unitsInOne) (10 ^ (-e).toNat) c := by
  have hm : 0 < 10 ^ (-e).toNat := Nat.pow_pos (by omega)
  have hstep : 0 < 10 ^ e.toNat * (2 * unitsInOne) :=
    Nat.mul_pos (Nat.pow_pos (by omega)) (Nat.mul_pos Nat.two_pos unitsInOne_pos)
  have hnum : 2 * (n * 10 ^ e.toNat * unitsInOne) = n * (10 ^ e.toNat * (2 * unitsInOne)) := by ring
  have hvalue := Nat.div_add_mod (2 * unitsOfCode c * 10 ^ (-e).toNat) (10 ^ e.toNat * (2 * unitsInOne))
  have hrest := Nat.mod_lt (2 * unitsOfCode c * 10 ^ (-e).toNat) hstep
  have hpred := Nat.mul_le_mul_right (10 ^ (-e).toNat) (unitsOfCode_pred_le c)
  have hsucc := Nat.mul_lt_mul_of_pos_right (unitsOfCode_lt_succ c) hm
  obtain ⟨n', hn', hcand⟩ | ⟨hnone, -⟩ := onGrid?_cases tieUp c e rfl rfl rfl rfl
  case inr => cases hnone.symm.trans h
  obtain rfl : n' = n := Option.some.inj (hn'.symm.trans h)
  generalize 10 ^ e.toNat * (2 * unitsInOne) = step at *
  rw [Nat.mul_assoc 2] at hvalue hrest hcand
  generalize 2 * (unitsOfCode c * 10 ^ (-e).toNat) / step = below at *
  have hcomm : step * below = below * step := Nat.mul_comm _ _
  have hnext : (below + 1) * step = below * step + step := Nat.succ_mul _ _
  rw [Nat.add_mul, Nat.add_mul] at hcand
  rcases hcand with ⟨rfl, hfits⟩ | ⟨rfl, hfits⟩
  all_goals
    refine ⟨?_, ?_, ?_⟩ <;> simp only [hnum, Nat.add_mul _ _ (10 ^ (-e).toNat)] <;> omega

/-- The step of the grid of `10 ^ e` is at most `2 ^ s` half units. -/
def Finer (e : Int) (s : Nat) : Prop := 10 ^ e.toNat * (2 * unitsInOne) ≤ 2 ^ s * 10 ^ (-e).toNat

/-- A grid with a step no wider than the step between floats has a point. -/
theorem Finer.exists_onGrid? {s k : Nat} (hfine : Finer e s) (hsig : IsSignificand s k) (hk : k < 2 ^ 53)
    (hc : 0 < s * 2 ^ 52 + k) (tieUp : Bool) : ∃ n, onGrid? tieUp (s * 2 ^ 52 + k) e = some n := by
  obtain ⟨n, hn, -⟩ | ⟨-, hlow, hhigh⟩ := onGrid?_cases tieUp (s * 2 ^ 52 + k) e rfl rfl rfl rfl
  · exact ⟨n, hn⟩
  · exfalso
    have hpred : unitsOfCode (s * 2 ^ 52 + k - 1) < k * 2 ^ s :=
      unitsOfCode_eq hsig ▸ unitsOfCode_strictMono (by omega)
    have hwide := Nat.mul_lt_mul_of_pos_right hpred (Nat.pow_pos (n := (-e).toNat) (show 0 < 10 by omega))
    unfold Finer at hfine
    rw [unitsOfCode_eq hsig] at hlow hhigh
    rw [unitsOfCode_succ hsig hk] at hhigh
    linarith

/-- The scan ends on a grid with a point, and all grids before are wider than the step between floats. -/
theorem scanGrids_spec {s k : Nat} (hsig : IsSignificand s k) (hk : k < 2 ^ 53) (hc : 0 < s * 2 ^ 52 + k)
    (tieUp : Bool) (steps : Nat) (hlast : Finer (e - steps) s) (hfirst : ¬Finer (e + 1) s) :
    ∃ n e', scanGrids tieUp (s * 2 ^ 52 + k) (steps + 1) e = ⟨n, e'⟩ ∧
      onGrid? tieUp (s * 2 ^ 52 + k) e' = some n ∧ e - steps ≤ e' ∧ ¬Finer (e' + 1) s := by
  induction steps generalizing e with
  | zero =>
    rw [Nat.cast_zero, Int.sub_zero] at hlast
    obtain ⟨n, hn⟩ := hlast.exists_onGrid? hsig hk hc tieUp
    exact ⟨n, e, by rw [scanGrids, hn], hn, by omega, hfirst⟩
  | succ steps ih =>
    rw [scanGrids]
    cases hgrid : onGrid? tieUp (s * 2 ^ 52 + k) e with
    | some n => exact ⟨n, e, rfl, hgrid, by omega, hfirst⟩
    | none =>
      -- A grid without a point is too coarse, which is the hypothesis for the next one.
      have hcoarse : ¬Finer e s := fun hfine => by
        obtain ⟨n, hn⟩ := hfine.exists_onGrid? hsig hk hc tieUp
        cases hgrid.symm.trans hn
      have hexp : e - ((steps + 1 : Nat) : Int) = e - 1 - (steps : Int) := by omega
      rw [hexp] at hlast
      obtain ⟨n, e', hscan, hn, hrange, hprev⟩ := ih (e := e - 1) hlast (by rwa [Int.sub_add_cancel])
      exact ⟨n, e', hscan, hn, by omega, hprev⟩

/-! ## Powers of ten and of two -/

theorem mul_pow_le_iff (e : Int) (s a : Nat) :
    10 ^ e.toNat * 2 ^ a ≤ 2 ^ s * 10 ^ (-e).toNat ↔ (10 : ℚ) ^ e ≤ 2 ^ ((s : Int) - a) := by
  have hten : (10 : ℚ) ^ e = 10 ^ e.toNat / 10 ^ (-e).toNat := by
    rw [← zpow_natCast, ← zpow_natCast, ← zpow_sub₀ (by norm_num)]
    congr 1
    omega
  rw [hten, zpow_sub₀ (by norm_num), zpow_natCast, zpow_natCast, div_le_div_iff₀ (by positivity) (by positivity)]
  exact_mod_cast Iff.rfl

theorem finer_iff {s : Nat} : Finer e s ↔ (10 : ℚ) ^ e ≤ 2 ^ ((s : Int) - 1075) := by
  have hunits : 2 * unitsInOne = 2 ^ 1075 := by decide +kernel
  rw [Finer, hunits]
  exact mul_pow_le_iff e s 1075

/-- If `2 ^ m` and `10 ^ k` are about the same, then so are powers of two and of ten with exponents in the ratio of
`m` and `k`. -/
theorem two_zpow_le_of {m k : Nat} {x y : ℤ} (hk : k ≠ 0) (hle : k * y ≤ m * x)
    (hpow : ((2 : ℚ) ^ m) ^ x ≤ (10 ^ k) ^ x) : (2 : ℚ) ^ y ≤ 10 ^ x := by
  have hroot : ((2 : ℚ) ^ y) ^ k ≤ (10 ^ x) ^ k := by
    calc ((2 : ℚ) ^ y) ^ k = 2 ^ ((k : ℤ) * y) := by rw [← zpow_natCast, ← zpow_mul, mul_comm]
      _ ≤ 2 ^ ((m : ℤ) * x) := zpow_le_zpow_right₀ (by norm_num) hle
      _ = (2 ^ m) ^ x := by rw [zpow_mul, zpow_natCast]
      _ ≤ (10 ^ k) ^ x := hpow
      _ = (10 ^ x) ^ k := by rw [← zpow_natCast, ← zpow_natCast, ← zpow_mul, ← zpow_mul, mul_comm]
  exact (pow_le_pow_iff_left₀ (by positivity) (by positivity) hk).1 hroot

/-- For powers above one `2 ^ 93 < 10 ^ 28` is used, and for those below one `10 ^ 3 < 2 ^ 10`. -/
theorem two_zpow_le_ten_zpow {x y : ℤ} (hpos : 0 ≤ x → 28 * y ≤ 93 * x) (hneg : x ≤ 0 → 3 * y ≤ 10 * x) :
    (2 : ℚ) ^ y ≤ 10 ^ x := by
  rcases le_total 0 x with hx | hx
  · exact two_zpow_le_of (m := 93) (k := 28) (by omega) (hpos hx) (zpow_le_zpow_left₀ hx (by norm_num) (by norm_num))
  · refine two_zpow_le_of (m := 10) (k := 3) (by omega) (hneg hx) ?_
    have hinv : ((10 : ℚ) ^ 3) ^ (-x) ≤ (2 ^ 10) ^ (-x) := zpow_le_zpow_left₀ (by omega) (by norm_num) (by norm_num)
    rw [zpow_neg, zpow_neg] at hinv
    exact (inv_le_inv₀ (by positivity) (by positivity)).1 hinv

theorem ten_zpow_le_two_zpow {x y : ℤ} (hpos : 0 ≤ x → 10 * x ≤ 3 * y) (hneg : x ≤ 0 → 93 * x ≤ 28 * y) :
    (10 : ℚ) ^ x ≤ 2 ^ y := by
  have hinv : (2 : ℚ) ^ (-y) ≤ 10 ^ (-x) := two_zpow_le_ten_zpow (fun h => by have := hneg (by omega); omega)
    fun h => by have := hpos (by omega); omega
  rw [zpow_neg, zpow_neg] at hinv
  exact (inv_le_inv₀ (by positivity) (by positivity)).1 hinv

/-- The scan begins on a grid that is too coarse, and the last of its 22 grids is fine enough. -/
theorem finer_decimalCeiling {s k : Nat} (hsig : IsSignificand s k) (hk : k < 2 ^ 53) (hc : 0 < s * 2 ^ 52 + k)
    (hfin : s * 2 ^ 52 + k < infinityCode) :
    Finer (decimalCeiling (s * 2 ^ 52 + k) - 21) s ∧ ¬Finer (decimalCeiling (s * 2 ^ 52 + k) + 1) s := by
  have hnormal := hsig.normal
  have hpos : 0 < k := by omega
  have hs : s ≤ 2045 := by
    unfold infinityCode at hfin
    omega
  have hne : k * 2 ^ s ≠ 0 := Nat.ne_of_gt (Nat.mul_pos hpos (Nat.two_pow_pos s))
  have hlow : s ≤ (k * 2 ^ s).log2 := (Nat.le_log2 hne).2 (Nat.le_mul_of_pos_left _ hpos)
  have hhigh : (k * 2 ^ s).log2 < 53 + s := by
    rw [Nat.log2_lt hne, Nat.pow_add]
    exact Nat.mul_lt_mul_of_pos_right hk (Nat.two_pow_pos s)
  rw [finer_iff, finer_iff, decimalCeiling, unitsOfCode_eq hsig, not_le]
  generalize (k * 2 ^ s).log2 = l at *
  constructor
  · refine ten_zpow_le_two_zpow ?_ ?_
    · omega
    · omega
  · have hlt : (2 : ℚ) ^ ((s : Int) - 1075) < 2 ^ ((s : Int) - 1074) := zpow_lt_zpow_right₀ (by norm_num) (by omega)
    refine hlt.trans_le (two_zpow_le_ten_zpow ?_ ?_)
    · omega
    · omega

/-! ## The shortest decimal -/

/-- A point is about as large as the float on every grid, so its significand is small unless the grid is fine. -/
theorem significand_lt_of_not_finer {s k : Nat} (hsig : IsSignificand s k) (hk : k < 2 ^ 53)
    (hcoarse : ¬Finer (e + 1) s)
    (hround : RoundsTo (n * 10 ^ e.toNat * unitsInOne) (10 ^ (-e).toNat) (s * 2 ^ 52 + k)) : n < 10 * 2 ^ 54 := by
  have hhigh := hround.high
  rw [unitsOfCode_eq hsig, unitsOfCode_succ hsig hk] at hhigh
  unfold Finer at hcoarse
  have hpow : 10 ^ (e + 1).toNat * 10 ^ (-e).toNat = 10 * (10 ^ e.toNat * 10 ^ (-(e + 1)).toNat) := by
    rw [← Nat.pow_add, ← Nat.pow_add, ← Nat.pow_succ']
    congr 1
    omega
  have hscaled : n * (10 ^ e.toNat * 10 ^ (-(e + 1)).toNat * (2 * unitsInOne)) <
      (2 * k + 1) * 10 * (10 ^ e.toNat * 10 ^ (-(e + 1)).toNat * (2 * unitsInOne)) := by
    calc n * (10 ^ e.toNat * 10 ^ (-(e + 1)).toNat * (2 * unitsInOne))
        = 2 * (n * 10 ^ e.toNat * unitsInOne) * 10 ^ (-(e + 1)).toNat := by ring
      _ ≤ (k * 2 ^ s + (k + 1) * 2 ^ s) * 10 ^ (-e).toNat * 10 ^ (-(e + 1)).toNat := Nat.mul_le_mul_right _ hhigh
      _ = (2 * k + 1) * 10 ^ (-e).toNat * (2 ^ s * 10 ^ (-(e + 1)).toNat) := by ring
      _ < (2 * k + 1) * 10 ^ (-e).toNat * (10 ^ (e + 1).toNat * (2 * unitsInOne)) :=
          Nat.mul_lt_mul_of_pos_left (Nat.lt_of_not_le hcoarse)
            (Nat.mul_pos (Nat.succ_pos _) (Nat.pow_pos (by omega)))
      _ = (2 * k + 1) * (10 ^ (e + 1).toNat * 10 ^ (-e).toNat) * (2 * unitsInOne) := by ring
      _ = (2 * k + 1) * 10 * (10 ^ e.toNat * 10 ^ (-(e + 1)).toNat * (2 * unitsInOne)) := by
          rw [hpow]
          ring
  have := Nat.lt_of_mul_lt_mul_right hscaled
  omega

/-- The shortest decimal of a float other than zero rounds to it; its significand and its exponent are bounded. -/
theorem shortest_spec (tieUp : Bool) (hc : 0 < c) (hfin : c < infinityCode) :
    ∃ n e, shortest tieUp c = ⟨n, e⟩ ∧ RoundsTo (n * 10 ^ e.toNat * unitsInOne) (10 ^ (-e).toNat) c ∧
      n < 10 * 2 ^ 54 ∧ decimalCeiling c - 21 ≤ e := by
  obtain ⟨s, k, hsig, hk, rfl⟩ := exists_significand c
  obtain ⟨hlast, hfirst⟩ := finer_decimalCeiling hsig hk hc hfin
  obtain ⟨n, e, hscan, hgrid, hrange, hcoarse⟩ := scanGrids_spec hsig hk hc tieUp 21 hlast hfirst
  have hround := roundsTo_of_onGrid? hgrid
  refine ⟨n, e, ?_, hround, significand_lt_of_not_finer hsig hk hcoarse hround, hrange⟩
  rw [shortest, if_neg (by omega), hscan]

theorem significand_shortest_lt (tieUp : Bool) (hfin : c < infinityCode) :
    (shortest tieUp c).significand < 10 * 2 ^ 54 := by
  rcases Nat.eq_zero_or_pos c with rfl | hc
  · rw [shortest, if_pos rfl]
    decide
  · obtain ⟨n, e, hd, -, hlt, -⟩ := shortest_spec tieUp hc hfin
    rw [hd]
    exact hlt

theorem codeOfDecimal_shortest (tieUp : Bool) (hfin : c < infinityCode) :
    codeOfDecimal (shortest tieUp c).significand (shortest tieUp c).exponent = c := by
  rcases Nat.eq_zero_or_pos c with rfl | hc
  · rw [shortest, if_pos rfl, codeOfDecimal_zero]
  · obtain ⟨n, e, hd, hround, -⟩ := shortest_spec tieUp hc hfin
    rw [hd]
    exact (codeOfRatio_eq_iff (Nat.pow_pos (by omega)) hfin).2 hround

theorem significand_shortest_pos (tieUp : Bool) (hc : 0 < c) (hfin : c < infinityCode) :
    0 < (shortest tieUp c).significand := by
  by_contra hzero
  have hcode := codeOfDecimal_shortest tieUp hfin
  rw [Nat.eq_zero_of_not_pos hzero, codeOfDecimal_zero] at hcode
  omega

/-- Only the zero with exponent zero has no significand. -/
theorem shortest_pos_or_zero (tieUp : Bool) (hfin : c < infinityCode) :
    0 < (shortest tieUp c).significand ∨ (shortest tieUp c).exponent = 0 := by
  rcases Nat.eq_zero_or_pos c with rfl | hpos
  · exact .inr rfl
  · exact .inl (significand_shortest_pos tieUp hpos hfin)

/-- A decimal other than zero that is a float at all is below the next power of two. -/
theorem exponent_le_of_codeOfDecimal_lt (hn : 0 < n) (h : codeOfDecimal n e < infinityCode) : e ≤ 308 := by
  by_contra hlarge
  have hle := le_of_codeOfRatio_lt (Nat.pow_pos (by omega)) h
  have hneg : (-e).toNat = 0 := by omega
  rw [hneg, Nat.pow_zero, Nat.mul_one] at hle
  have hge : ∀ k ≤ e.toNat, 10 ^ k * unitsInOne ≤ n * 10 ^ e.toNat * unitsInOne := fun k hk =>
    Nat.mul_le_mul_right _ ((Nat.pow_le_pow_right (by omega) hk).trans (Nat.le_mul_of_pos_left _ hn))
  have hbound : unitsOfCode infinityCode < 10 ^ 309 * unitsInOne := by decide +kernel
  exact absurd ((hge 309 (by omega)).trans hle) (Nat.not_le_of_lt hbound)

theorem exponent_shortest_mem (tieUp : Bool) (hfin : c < infinityCode) :
    -344 ≤ (shortest tieUp c).exponent ∧ (shortest tieUp c).exponent ≤ 308 := by
  rcases Nat.eq_zero_or_pos c with rfl | hc
  · rw [shortest, if_pos rfl]
    decide
  · obtain ⟨n, e, hd, -, -, hlow⟩ := shortest_spec tieUp hc hfin
    have hcode := codeOfDecimal_shortest tieUp hfin
    refine ⟨?_, exponent_le_of_codeOfDecimal_lt (significand_shortest_pos tieUp hc hfin) (hcode.symm ▸ hfin)⟩
    unfold decimalCeiling at hlow
    rw [hd]
    dsimp only
    omega

end TriadMesh.Binary64
