import Mathlib.Tactic.Linarith
import Mathlib.Tactic.Ring
import TriadMesh.Proofs.Binary64

/-!
# Rounding to the nearest float

The units of the floats grow with their codes. A ratio is rounded to a code exactly if it lies between the midpoints
to the neighbors of that code, and on a midpoint only if the code is even (`codeOfRatio_eq_iff`). All that is said
about rounded results here is derived from that.
-/

namespace TriadMesh.Binary64

variable {num den c c' : Nat}

/-! ## Units -/

/-- A significand of 53 bits, and the power of two that a code puts it to. The greatest one is already written with
the next power. -/
structure IsSignificand (shift significand : Nat) : Prop where
  normal : shift = 0 ∨ 2 ^ 52 ≤ significand
  le : significand ≤ 2 ^ 53

theorem unitsOfCode_eq {s k : Nat} (h : IsSignificand s k) : unitsOfCode (s * 2 ^ 52 + k) = k * 2 ^ s := by
  obtain ⟨hnormal, hle⟩ := h
  unfold unitsOfCode
  by_cases hk : k < 2 ^ 52
  · obtain rfl : s = 0 := by omega
    rw [if_pos (by omega)]
    omega
  · rw [if_neg (by omega)]
    rcases Nat.lt_or_eq_of_le hle with hlt | rfl
    · have hmod : (s * 2 ^ 52 + k) % 2 ^ 52 = k - 2 ^ 52 := by omega
      have hdiv : (s * 2 ^ 52 + k) / 2 ^ 52 - 1 = s := by omega
      rw [hmod, hdiv, Nat.add_sub_of_le (by omega)]
    · have hmod : (s * 2 ^ 52 + 2 ^ 53) % 2 ^ 52 = 0 := by omega
      have hdiv : (s * 2 ^ 52 + 2 ^ 53) / 2 ^ 52 - 1 = s + 1 := by omega
      rw [hmod, hdiv, Nat.pow_succ]
      ring

theorem exists_significand (c : Nat) : ∃ s k, IsSignificand s k ∧ k < 2 ^ 53 ∧ c = s * 2 ^ 52 + k := by
  refine ⟨c / 2 ^ 52 - 1, c - (c / 2 ^ 52 - 1) * 2 ^ 52, ⟨?_, ?_⟩, ?_, ?_⟩ <;> omega

theorem unitsOfCode_succ {s k : Nat} (h : IsSignificand s k) (hk : k < 2 ^ 53) :
    unitsOfCode (s * 2 ^ 52 + k + 1) = (k + 1) * 2 ^ s := by
  have hnext : IsSignificand s (k + 1) := ⟨h.normal.imp_right fun h => by omega, by omega⟩
  rw [Nat.add_assoc, unitsOfCode_eq hnext]

theorem unitsOfCode_lt_succ (c : Nat) : unitsOfCode c < unitsOfCode (c + 1) := by
  obtain ⟨s, k, h, hk, rfl⟩ := exists_significand c
  rw [unitsOfCode_eq h, unitsOfCode_succ h hk]
  exact Nat.mul_lt_mul_of_pos_right (Nat.lt_succ_self k) (Nat.two_pow_pos s)

theorem unitsOfCode_strictMono : StrictMono unitsOfCode := strictMono_nat_of_lt_succ unitsOfCode_lt_succ

theorem unitsInOne_pos : 0 < unitsInOne := by decide +kernel

@[simp] theorem unitsOfCode_zero : unitsOfCode 0 = 0 := rfl

theorem unitsOfCode_pred_le (c : Nat) : unitsOfCode (c - 1) ≤ unitsOfCode c :=
  unitsOfCode_strictMono.monotone (Nat.sub_le c 1)

/-- Of the numbers with 53 bits, every multiple by a power of two is a float. -/
theorem exists_unitsOfCode_eq {k : Nat} (hk : k ≤ 2 ^ 53) (s : Nat) : ∃ c, unitsOfCode c = k * 2 ^ s := by
  induction s generalizing k with
  | zero => exact ⟨0 * 2 ^ 52 + k, unitsOfCode_eq ⟨.inl rfl, hk⟩⟩
  | succ s ih =>
    by_cases hnormal : 2 ^ 52 ≤ k
    · exact ⟨(s + 1) * 2 ^ 52 + k, unitsOfCode_eq ⟨.inr hnormal, hk⟩⟩
    · obtain ⟨c, hc⟩ := ih (k := 2 * k) (by omega)
      exact ⟨c, by rw [hc, Nat.pow_succ]; ring⟩

/-! ## Midpoints -/

/-- The ratio lies between the midpoints to the neighbors of a code, and on one only if the code is even. -/
structure RoundsTo (num den c : Nat) : Prop where
  low : (unitsOfCode (c - 1) + unitsOfCode c) * den ≤ 2 * num
  high : 2 * num ≤ (unitsOfCode c + unitsOfCode (c + 1)) * den
  even : 2 * num = (unitsOfCode (c - 1) + unitsOfCode c) * den ∨
    2 * num = (unitsOfCode c + unitsOfCode (c + 1)) * den → c % 2 = 0

/-- The intervals of two codes meet in midpoints at most, which belong to the even one. -/
theorem RoundsTo.unique (h : RoundsTo num den c) (h' : RoundsTo num den c') (hden : 0 < den) : c = c' := by
  have hnot : ∀ {c c'}, RoundsTo num den c → RoundsTo num den c' → ¬c < c' := by
    intro c c' h h' hlt
    have hmono := unitsOfCode_strictMono.monotone
    have hsum : unitsOfCode c + unitsOfCode (c + 1) ≤ unitsOfCode (c' - 1) + unitsOfCode c' :=
      Nat.add_le_add (hmono (by omega)) (hmono hlt)
    have hmul := Nat.mul_le_mul_right den hsum
    have hlow := h'.low
    have hhigh := h.high
    have heven := h.even (.inr (by omega))
    have heven' := h'.even (.inl (by omega))
    have hsame : unitsOfCode c + unitsOfCode (c + 1) = unitsOfCode (c' - 1) + unitsOfCode c' :=
      Nat.eq_of_mul_eq_mul_right hden (by omega)
    have hfar : ¬c + 1 < c' := fun hfar => by
      have := unitsOfCode_strictMono hfar
      have := hmono (show c ≤ c' - 1 by omega)
      omega
    omega
  rcases Nat.lt_trichotomy c c' with hlt | heq | hgt
  · exact absurd hlt (hnot h h')
  · exact heq
  · exact absurd hgt (hnot h' h)

/-- The nearest natural number is at most one half away, and even if it is that far. -/
theorem divNearestEven_spec (n : Nat) {d : Nat} (hd : 0 < d) :
    (2 * divNearestEven n d * d ≤ 2 * n + d ∧ 2 * n ≤ 2 * divNearestEven n d * d + d) ∧
      (2 * divNearestEven n d * d = 2 * n + d ∨ 2 * n = 2 * divNearestEven n d * d + d →
        divNearestEven n d % 2 = 0) := by
  have hn : d * (n / d) + n % d = n := Nat.div_add_mod n d
  have hr : n % d < d := Nat.mod_lt n hd
  unfold divNearestEven
  split
  case isTrue h =>
    have hmul : 2 * (n / d) * d = 2 * (d * (n / d)) := by ring
    rw [hmul]
    omega
  case isFalse h =>
    have hmul : 2 * (n / d + 1) * d = 2 * (d * (n / d)) + 2 * d := by ring
    rw [hmul]
    omega

/-- The code nearest to a ratio, if codes had no end. -/
def roundedCode (num den : Nat) : Nat :=
  let shift := (num / den).log2 - 52
  shift * 2 ^ 52 + divNearestEven num (den * 2 ^ shift)

theorem codeOfRatio_eq_min (num den : Nat) : codeOfRatio num den = min (roundedCode num den) infinityCode := rfl

/-- The power of two is chosen so that 53 bits are left. -/
theorem isSignificand_divNearestEven (hden : 0 < den) {s : Nat} (hs : s = (num / den).log2 - 52) :
    IsSignificand s (divNearestEven num (den * 2 ^ s)) ∧ (0 < s → 2 ^ 52 * (den * 2 ^ s) ≤ num) := by
  have hd : 0 < den * 2 ^ s := Nat.mul_pos hden (Nat.two_pow_pos s)
  obtain ⟨⟨hlow, hhigh⟩, -⟩ := divNearestEven_spec num hd
  have hlt : num / den < 2 ^ (s + 53) :=
    Nat.lt_of_lt_of_le Nat.lt_log2_self (Nat.pow_le_pow_right (by omega) (by omega))
  have hnum : num < 2 ^ 53 * (den * 2 ^ s) := by
    have := (Nat.div_lt_iff_lt_mul hden).1 hlt
    rw [Nat.pow_add] at this
    linarith
  have hge : 0 < s → 2 ^ 52 * (den * 2 ^ s) ≤ num := by
    intro hpos
    have hne : num / den ≠ 0 := by
      intro h
      rw [h] at hs
      have : Nat.log2 0 = 0 := rfl
      omega
    have hpow : 2 ^ (s + 52) ≤ num / den :=
      (Nat.pow_le_pow_right (by omega) (by omega)).trans (Nat.log2_self_le hne)
    have := (Nat.le_div_iff_mul_le hden).1 hpow
    rw [Nat.pow_add] at this
    linarith
  refine ⟨⟨?_, ?_⟩, hge⟩
  · rcases Nat.eq_zero_or_pos s with h | h
    · exact .inl h
    · right
      by_contra hsmall
      have := hge h
      nlinarith
  · by_contra hlarge
    nlinarith

/-- Also the greatest significand has a next float, at least one step away. -/
theorem le_unitsOfCode_succ {s k : Nat} (h : IsSignificand s k) :
    (k + 1) * 2 ^ s ≤ unitsOfCode (s * 2 ^ 52 + k + 1) := by
  rcases Nat.lt_or_eq_of_le h.le with hk | rfl
  · exact Nat.le_of_eq (unitsOfCode_succ h hk).symm
  · have hcode : s * 2 ^ 52 + 2 ^ 53 + 1 = (s + 1) * 2 ^ 52 + (2 ^ 52 + 1) := by ring
    have hnext : IsSignificand (s + 1) (2 ^ 52 + 1) := ⟨.inr (by omega), by omega⟩
    have hpow : 2 ^ (s + 1) = 2 * 2 ^ s := Nat.pow_succ'
    rw [hcode, unitsOfCode_eq hnext, hpow]
    linarith [Nat.two_pow_pos s]

/-- A ratio at most half a step above a significand is no nearer to the next float. -/
theorem le_midpoint_above {s k : Nat} (hsig : IsSignificand s k) (h : 2 * num ≤ 2 * k * (den * 2 ^ s) + den * 2 ^ s) :
    2 * num ≤ (unitsOfCode (s * 2 ^ 52 + k) + unitsOfCode (s * 2 ^ 52 + k + 1)) * den ∧
      (2 * num = (unitsOfCode (s * 2 ^ 52 + k) + unitsOfCode (s * 2 ^ 52 + k + 1)) * den →
        2 * num = 2 * k * (den * 2 ^ s) + den * 2 ^ s) := by
  have hstep : 2 * k * (den * 2 ^ s) + den * 2 ^ s ≤
      (unitsOfCode (s * 2 ^ 52 + k) + unitsOfCode (s * 2 ^ 52 + k + 1)) * den := by
    have := Nat.mul_le_mul_right den (le_unitsOfCode_succ hsig)
    rw [unitsOfCode_eq hsig]
    linarith
  exact ⟨h.trans hstep, fun heq => by omega⟩

theorem midpoint_below (den : Nat) {s k : Nat} (hsig : IsSignificand s (k + 1)) (hleast : s = 0 ∨ 2 ^ 52 ≤ k) :
    (unitsOfCode (s * 2 ^ 52 + k) + unitsOfCode (s * 2 ^ 52 + (k + 1))) * den + den * 2 ^ s =
      2 * (k + 1) * (den * 2 ^ s) := by
  have hprev : IsSignificand s k := ⟨hleast, (Nat.le_succ k).trans hsig.le⟩
  rw [unitsOfCode_eq hprev, unitsOfCode_eq hsig]
  ring

theorem roundsTo_roundedCode (num : Nat) (hden : 0 < den) : RoundsTo num den (roundedCode num den) := by
  unfold roundedCode
  generalize hs : (num / den).log2 - 52 = s
  dsimp only
  have hd : 0 < den * 2 ^ s := Nat.mul_pos hden (Nat.two_pow_pos s)
  obtain ⟨⟨hbelow, habove⟩, htie⟩ := divNearestEven_spec num hd
  obtain ⟨hsig, hnormal⟩ := isSignificand_divNearestEven hden hs.symm
  generalize divNearestEven num (den * 2 ^ s) = k at *
  have hparity : (s * 2 ^ 52 + k) % 2 = k % 2 := by omega
  obtain ⟨hhigh, htieHigh⟩ := le_midpoint_above hsig habove
  have hlow : (unitsOfCode (s * 2 ^ 52 + k - 1) + unitsOfCode (s * 2 ^ 52 + k)) * den ≤ 2 * num ∧
      (2 * num = (unitsOfCode (s * 2 ^ 52 + k - 1) + unitsOfCode (s * 2 ^ 52 + k)) * den → k % 2 = 0) := by
    by_cases hfirst : k = 0 ∨ (0 < s ∧ k = 2 ^ 52)
    · -- At the least significand the lower neighbor may be nearer than a step, but the ratio is not below the float.
      have hk : k % 2 = 0 := by omega
      refine ⟨?_, fun _ => hk⟩
      rcases hfirst with rfl | ⟨hpos, rfl⟩
      · obtain rfl : s = 0 := by
          have := hsig.normal
          omega
        simp
      · have hpred := Nat.mul_le_mul_right den (unitsOfCode_pred_le (s * 2 ^ 52 + 2 ^ 52))
        have := hnormal hpos
        rw [Nat.add_mul]
        rw [unitsOfCode_eq hsig] at hpred ⊢
        linarith
    · obtain ⟨j, rfl⟩ : ∃ j, k = j + 1 := ⟨k - 1, by omega⟩
      have hcode : s * 2 ^ 52 + (j + 1) - 1 = s * 2 ^ 52 + j := by omega
      have hstep := midpoint_below den hsig (by have := hsig.normal; omega)
      rw [hcode]
      exact ⟨by omega, fun heq => htie (.inl (by omega))⟩
  exact ⟨hlow.1, hhigh, fun h => hparity.trans (h.elim hlow.2 fun heq => htie (.inr (htieHigh heq)))⟩

/-! ## Rounded ratios -/

theorem roundsTo_codeOfRatio (hden : 0 < den) (h : codeOfRatio num den < infinityCode) :
    RoundsTo num den (codeOfRatio num den) := by
  rw [codeOfRatio_eq_min] at h ⊢
  rw [Nat.min_eq_left (by omega)]
  exact roundsTo_roundedCode num hden

/-- A ratio is rounded to a float exactly if it lies between the midpoints to the neighbors, or on one of them and
the float has an even code. -/
theorem codeOfRatio_eq_iff (hden : 0 < den) (hc : c < infinityCode) :
    codeOfRatio num den = c ↔ RoundsTo num den c := by
  constructor
  · rintro rfl
    exact roundsTo_codeOfRatio hden hc
  · intro h
    rw [codeOfRatio_eq_min, (roundsTo_roundedCode num hden).unique h hden]
    exact Nat.min_eq_left (Nat.le_of_lt hc)

theorem divNearestEven_zero (d : Nat) : divNearestEven 0 d = 0 := by
  unfold divNearestEven
  rw [Nat.zero_mod, Nat.zero_div, if_pos (by omega)]

@[simp] theorem codeOfRatio_zero (den : Nat) : codeOfRatio 0 den = 0 := by
  rw [codeOfRatio_eq_min, roundedCode, divNearestEven_zero, Nat.zero_div]
  decide

/-- A ratio below the midpoint between the greatest float and the next power of two is not too large. -/
theorem codeOfRatio_lt_infinityCode (hden : 0 < den)
    (h : 2 * num < (unitsOfCode (infinityCode - 1) + unitsOfCode infinityCode) * den) :
    codeOfRatio num den < infinityCode := by
  rw [codeOfRatio_eq_min]
  have hlow := (roundsTo_roundedCode num hden).low
  by_contra hge
  have hcode : infinityCode ≤ roundedCode num den := by omega
  have hmono := unitsOfCode_strictMono.monotone
  have hsum : unitsOfCode (infinityCode - 1) + unitsOfCode infinityCode ≤
      unitsOfCode (roundedCode num den - 1) + unitsOfCode (roundedCode num den) :=
    Nat.add_le_add (hmono (by omega)) (hmono hcode)
  have := Nat.mul_le_mul_right den hsum
  omega

theorem le_of_codeOfRatio_lt (hden : 0 < den) (h : codeOfRatio num den < infinityCode) :
    num ≤ unitsOfCode infinityCode * den := by
  have hhigh := (roundsTo_codeOfRatio hden h).high
  have hmono := unitsOfCode_strictMono.monotone
  have hsum := Nat.mul_le_mul_right den (Nat.add_le_add (hmono (Nat.le_of_lt h)) (hmono (Nat.succ_le_of_lt h)))
  linarith

theorem divNearestEven_mul_left {k : Nat} (hk : 0 < k) (n d : Nat) :
    divNearestEven (k * n) (k * d) = divNearestEven n d := by
  have hlt : ∀ a b : Nat, k * a < k * b ↔ a < b := fun a b => Nat.mul_lt_mul_left hk
  have heq : ∀ a b : Nat, k * a = k * b ↔ a = b := fun a b => Nat.mul_right_inj (Nat.pos_iff_ne_zero.1 hk)
  simp only [divNearestEven, Nat.mul_mod_mul_left, Nat.mul_div_mul_left _ _ hk, Nat.mul_left_comm 2 k, hlt, heq]

theorem codeOfRatio_mul_left {k : Nat} (hk : 0 < k) (num den : Nat) :
    codeOfRatio (k * num) (k * den) = codeOfRatio num den := by
  rw [codeOfRatio, codeOfRatio, Nat.mul_div_mul_left _ _ hk, Nat.mul_assoc k, divNearestEven_mul_left hk]

theorem codeOfRatio_mul_right {k : Nat} (hk : 0 < k) (num den : Nat) :
    codeOfRatio (num * k) (den * k) = codeOfRatio num den := by
  rw [Nat.mul_comm num, Nat.mul_comm den, codeOfRatio_mul_left hk]

theorem roundsTo_units (hden : 0 < den) (c : Nat) : RoundsTo (unitsOfCode c * den) den c := by
  refine ⟨?_, ?_, ?_⟩
  · have := Nat.mul_le_mul_right den (unitsOfCode_pred_le c)
    linarith
  · have := Nat.mul_le_mul_right den (Nat.le_of_lt (unitsOfCode_lt_succ c))
    linarith
  · intro heq
    have hsame : unitsOfCode (c - 1) = unitsOfCode c ∨ unitsOfCode c = unitsOfCode (c + 1) :=
      heq.imp (fun h => Nat.eq_of_mul_eq_mul_right hden (by linarith))
        fun h => Nat.eq_of_mul_eq_mul_right hden (by linarith)
    have hpred := unitsOfCode_strictMono.injective.eq_iff (a := c - 1) (b := c)
    have hsucc := unitsOfCode_strictMono.injective.eq_iff (a := c) (b := c + 1)
    omega

/-- The value of a float is rounded to the float. -/
theorem codeOfRatio_units (hden : 0 < den) (hc : c < infinityCode) : codeOfRatio (unitsOfCode c * den) den = c :=
  (codeOfRatio_eq_iff hden hc).2 (roundsTo_units hden c)

/-- From the least normal float on, rounding up adds at most one part in `2 ^ 53`. -/
theorem units_codeOfRatio_le (hden : 0 < den) (h : codeOfRatio num den < infinityCode)
    (hnormal : 2 ^ 52 < codeOfRatio num den) :
    unitsOfCode (codeOfRatio num den) * den * 2 ^ 53 ≤ num * (2 ^ 53 + 1) := by
  have hlow := (roundsTo_codeOfRatio hden h).low
  obtain ⟨s, k, hsig, hk, hcode⟩ := exists_significand (codeOfRatio num den - 1)
  have hsucc : codeOfRatio num den = s * 2 ^ 52 + k + 1 := by omega
  rw [hsucc] at hlow ⊢
  rw [Nat.add_sub_cancel, unitsOfCode_eq hsig] at hlow
  rw [unitsOfCode_succ hsig hk] at hlow ⊢
  have hk' : 2 ^ 52 ≤ k := by
    have := hsig.normal
    omega
  have hD : 2 ^ 52 * (2 ^ s * den) ≤ k * (2 ^ s * den) := Nat.mul_le_mul_right _ hk'
  have hlow' : 2 * (k * (2 ^ s * den)) + 2 ^ s * den ≤ 2 * num := by linarith
  have hgoal : (k + 1) * 2 ^ s * den * 2 ^ 53 = 2 ^ 53 * (k * (2 ^ s * den)) + 2 ^ 53 * (2 ^ s * den) := by ring
  rw [hgoal]
  omega

end TriadMesh.Binary64
