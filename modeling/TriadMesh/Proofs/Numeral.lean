import TriadMesh.Json.Numeral
import TriadMesh.Proofs.DecimalText

/-!
# Numbers read quickly

A number is read with one rounding for its significand, one for the power of ten and one for their product or
quotient. With a significand up to `2 ^ 53` and a power up to `10 ^ 22` the first two are exact, so the number is
rounded once (`scale?_exact`). Otherwise the result may be off, but no shortest decimal of a float is refused
(`scale?_shortest_isSome`).
-/

namespace TriadMesh

namespace Binary64

variable {x y : Binary64} {j k : Nat}

/-! ## Products and quotients of finite floats -/

theorem mul_eq (hx : x.isFinite = true) (hy : y.isFinite = true) :
    x * y = ofRatio (x.negative != y.negative) (x.units * y.units) unitsInOne := by
  obtain ⟨hxn, hxi⟩ := not_isNaN_of_isFinite hx
  obtain ⟨hyn, hyi⟩ := not_isNaN_of_isFinite hy
  change mul x y = _
  rw [mul, hxn, hyn, hxi, hyi]
  rfl

theorem div_eq (hx : x.isFinite = true) (hy : y.isFinite = true) (hzero : y.isZero = false) :
    x / y = ofRatio (x.negative != y.negative) (x.units * unitsInOne) y.units := by
  obtain ⟨hxn, hxi⟩ := not_isNaN_of_isFinite hx
  obtain ⟨hyn, hyi⟩ := not_isNaN_of_isFinite hy
  change div x y = _
  rw [div, hxn, hyn, hxi, hyi, hzero]
  rfl

/-! ## Natural numbers as floats -/

/-- The float is a natural number. -/
structure IsNat (x : Binary64) (k : Nat) : Prop where
  positive : x.negative = false
  finite : x.isFinite = true
  units : x.units = k * unitsInOne

/-- A number with 53 bits, times a power of two, is a float if it is not too large. -/
theorem isNat_ofRatio {s : Nat} (hj : j ≤ 2 ^ 53) (hk : k = j * 2 ^ s) (hs : s ≤ 64) :
    IsNat (ofRatio false (k * unitsInOne) 1) k := by
  obtain ⟨c, hc⟩ := exists_unitsOfCode_eq hj (s + 1074)
  have hunits : unitsOfCode c = k * unitsInOne := by
    rw [hc, hk, unitsInOne, Nat.pow_add, Nat.mul_assoc]
  have hfin : c < infinityCode := by
    refine unitsOfCode_strictMono.lt_iff_lt.1 ?_
    have hbound : 2 ^ 53 * 2 ^ 64 * unitsInOne < unitsOfCode infinityCode := by decide +kernel
    refine Nat.lt_of_le_of_lt ?_ hbound
    rw [hunits, hk]
    exact Nat.mul_le_mul_right _ (Nat.mul_le_mul hj (Nat.pow_le_pow_right (by omega) hs))
  have hcode : ofRatio false (k * unitsInOne) 1 = ofCode false c := by
    rw [ofRatio, ← hunits, ← Nat.mul_one (unitsOfCode c), codeOfRatio_units Nat.one_pos hfin]
  have hlt : c < 2 ^ 63 := hfin.trans (by decide)
  rw [hcode]
  exact ⟨negative_ofCode false hlt, decide_eq_true ((code_ofCode false hlt).symm ▸ hfin),
    by rw [Binary64.units, code_ofCode false hlt, hunits]⟩

theorem IsNat.mul (hx : IsNat x j) (hy : IsNat y k) : x * y = ofCode false (codeOfRatio (j * k * unitsInOne) 1) := by
  have hunits : j * unitsInOne * (k * unitsInOne) = j * k * unitsInOne * unitsInOne := by ring
  rw [mul_eq hx.finite hy.finite, hx.positive, hy.positive, hx.units, hy.units, ofRatio, hunits,
    ← codeOfRatio_mul_right unitsInOne_pos _ 1, Nat.one_mul]
  rfl

theorem IsNat.div (hx : IsNat x j) (hy : IsNat y k) (hk : 0 < k) :
    x / y = ofCode false (codeOfRatio (j * unitsInOne) k) := by
  have hzero : y.isZero = false := by
    refine decide_eq_false fun hcode => ?_
    have hunits := hy.units
    rw [Binary64.units, hcode, unitsOfCode_zero] at hunits
    exact absurd hunits (Nat.ne_of_lt (Nat.mul_pos hk unitsInOne_pos))
  rw [div_eq hx.finite hy.finite hzero, hx.positive, hy.positive, hx.units, hy.units, ofRatio,
    codeOfRatio_mul_right unitsInOne_pos]
  rfl

theorem ofInt_natCast (k : Nat) : ofInt k = ofRatio false (k * unitsInOne) 1 := by
  have hneg : decide ((k : Int) < 0) = false := decide_eq_false (by omega)
  rw [ofInt, hneg, Int.natAbs_natCast]

theorem isNat_ofInt (hk : k ≤ 2 ^ 53) : IsNat (ofInt k) k := by
  rw [ofInt_natCast]
  exact isNat_ofRatio (s := 0) hk (Nat.mul_one k).symm (by omega)

/-- The rounding of `k` is not larger by more than one part in `2 ^ 53`. -/
structure Nearly (x : Binary64) (k : Nat) : Prop where
  positive : x.negative = false
  finite : x.isFinite = true
  units : x.units * 2 ^ 53 ≤ k * unitsInOne * (2 ^ 53 + 1)

theorem nearly_ofRatio {e : Nat} (hk : 0 < k) (hbound : k ≤ 10 ^ e) (he : e ≤ 308) :
    Nearly (ofRatio false (k * unitsInOne) 1) k := by
  have hfin : codeOfRatio (k * unitsInOne) 1 < infinityCode := by
    refine codeOfRatio_lt_infinityCode Nat.one_pos ?_
    have hmax : 2 * (10 ^ 308 * unitsInOne) < unitsOfCode (infinityCode - 1) + unitsOfCode infinityCode := by
      decide +kernel
    have hpow : ∀ a, e ≤ a → k * unitsInOne ≤ 10 ^ a * unitsInOne := fun a ha =>
      Nat.mul_le_mul_right _ (hbound.trans (Nat.pow_le_pow_right (by omega) ha))
    rw [Nat.mul_one]
    exact Nat.lt_of_le_of_lt (Nat.mul_le_mul_left 2 (hpow 308 he)) hmax
  have hlt : codeOfRatio (k * unitsInOne) 1 < 2 ^ 63 := hfin.trans (by decide)
  have hnormal : 2 ^ 52 < codeOfRatio (k * unitsInOne) 1 := by
    by_contra hle
    have hhigh := (roundsTo_codeOfRatio Nat.one_pos hfin).high
    have hmono := unitsOfCode_strictMono.monotone
    have hmin : unitsOfCode (2 ^ 52 + 1) < unitsInOne := by decide +kernel
    have h₁ := hmono (show codeOfRatio (k * unitsInOne) 1 ≤ 2 ^ 52 + 1 by omega)
    have h₂ := hmono (show codeOfRatio (k * unitsInOne) 1 + 1 ≤ 2 ^ 52 + 1 by omega)
    have := Nat.le_mul_of_pos_left unitsInOne hk
    omega
  refine ⟨negative_ofCode false hlt, decide_eq_true ((code_ofCode false hlt).symm ▸ hfin), ?_⟩
  have hle := units_codeOfRatio_le Nat.one_pos hfin hnormal
  rw [Nat.mul_one] at hle
  rw [Binary64.units, ofRatio, code_ofCode false hlt]
  exact hle

/-- The two roundings before a product do not make it infinite if the exact product is three floats below. -/
theorem Nearly.isInfinite_mul (hx : Nearly x j) (hy : Nearly y k)
    (hbound : 2 * (j * k * unitsInOne) ≤ unitsOfCode (infinityCode - 3) + unitsOfCode (infinityCode - 2)) :
    (x * y).isInfinite = false := by
  have hroom : (unitsOfCode (infinityCode - 3) + unitsOfCode (infinityCode - 2)) * (2 ^ 53 + 1) ^ 2 <
      (unitsOfCode (infinityCode - 1) + unitsOfCode infinityCode) * 2 ^ 106 := by decide +kernel
  have hscaled : 2 * (x.units * y.units) * 2 ^ 106 <
      (unitsOfCode (infinityCode - 1) + unitsOfCode infinityCode) * unitsInOne * 2 ^ 106 := by
    calc 2 * (x.units * y.units) * 2 ^ 106
        = 2 * ((x.units * 2 ^ 53) * (y.units * 2 ^ 53)) := by ring
      _ ≤ 2 * ((j * unitsInOne * (2 ^ 53 + 1)) * (k * unitsInOne * (2 ^ 53 + 1))) :=
          Nat.mul_le_mul_left 2 (Nat.mul_le_mul hx.units hy.units)
      _ = 2 * (j * k * unitsInOne) * (2 ^ 53 + 1) ^ 2 * unitsInOne := by ring
      _ ≤ (unitsOfCode (infinityCode - 3) + unitsOfCode (infinityCode - 2)) * (2 ^ 53 + 1) ^ 2 * unitsInOne :=
          Nat.mul_le_mul_right _ (Nat.mul_le_mul_right _ hbound)
      _ < (unitsOfCode (infinityCode - 1) + unitsOfCode infinityCode) * 2 ^ 106 * unitsInOne :=
          Nat.mul_lt_mul_of_pos_right hroom unitsInOne_pos
      _ = (unitsOfCode (infinityCode - 1) + unitsOfCode infinityCode) * unitsInOne * 2 ^ 106 := by ring
  have hfin := codeOfRatio_lt_infinityCode unitsInOne_pos (Nat.lt_of_mul_lt_mul_right hscaled)
  rw [mul_eq hx.finite hy.finite, ofRatio]
  exact decide_eq_false (by rw [code_ofCode _ (hfin.trans (by decide))]; omega)

end Binary64

namespace Numeral

open Binary64

variable {n : Numeral} {s : Nat} {e : Int} {x : Binary64}

/-! ## Powers of ten -/

theorem powerOfTen_eq {e : Nat} (he : e ≤ 308) : powerOfTen e = ofRatio false (10 ^ e * unitsInOne) 1 := by
  rw [powerOfTen, ofDecimal_eq false (by omega) (by omega), codeOfDecimal, ofRatio]
  have hneg : (-(e : Int)).toNat = 0 := by omega
  rw [Int.toNat_natCast, hneg, Nat.one_mul, Nat.pow_zero]

theorem isNat_powerOfTen {e : Nat} (he : e ≤ 22) : IsNat (powerOfTen e) (10 ^ e) := by
  rw [powerOfTen_eq (by omega)]
  refine isNat_ofRatio (j := 5 ^ e) (s := e) ?_ ?_ (by omega)
  · exact (Nat.pow_le_pow_right (by omega) he).trans (by decide)
  · rw [← Nat.mul_pow]

/-! ## Scaling -/

theorem scale?_of_nonneg (hlow : 0 ≤ e) (hhigh : e ≤ 308) :
    scale? x e = if (x * powerOfTen e.toNat).isInfinite then none else some (x * powerOfTen e.toNat) := by
  rw [scale?, if_neg (by omega), if_pos hlow]

theorem scale?_of_neg (hlow : -308 ≤ e) (hhigh : e < 0) : scale? x e = some (x / powerOfTen (-e).toNat) := by
  rw [scale?, if_neg (by omega), if_neg (by omega), if_pos hlow]

/-- No number is too large for a power of ten below one. -/
theorem isSome_scale?_of_neg (he : e < 0) : (scale? x e).isSome := by
  fun_induction scale? x e with
  | case1 => omega
  | case2 => omega
  | case3 => omega
  | case4 => omega
  | case5 => rfl
  | case6 => rfl
  | case7 x e _ _ _ _ ih => exact ih (by omega)

/-- A significand and a power of ten that are floats themselves are read with one rounding. -/
theorem scale?_exact (hs : s ≤ 2 ^ 53) (hlow : -22 ≤ e) (hhigh : e ≤ 22) (hfin : codeOfDecimal s e < infinityCode) :
    scale? (ofInt s) e = some (ofCode false (codeOfDecimal s e)) := by
  have hsig := isNat_ofInt hs
  by_cases he : 0 ≤ e
  · have hneg : (-e).toNat = 0 := by omega
    have hprod : ofInt s * powerOfTen e.toNat = ofCode false (codeOfDecimal s e) := by
      rw [hsig.mul (isNat_powerOfTen (by omega)), codeOfDecimal, hneg, Nat.pow_zero]
    have hlt : codeOfDecimal s e < 2 ^ 63 := hfin.trans (by decide)
    have hinf : (ofCode false (codeOfDecimal s e)).isInfinite = false :=
      decide_eq_false (by rw [code_ofCode false hlt]; omega)
    rw [scale?_of_nonneg he (by omega), hprod, hinf]
    rfl
  · have hpos : e.toNat = 0 := by omega
    rw [scale?_of_neg (by omega) (by omega), hsig.div (isNat_powerOfTen (by omega)) (Nat.pow_pos (by omega)),
      codeOfDecimal, hpos, Nat.pow_zero, Nat.mul_one]

/-- Three floats or more below the infinities nothing overflows. -/
theorem isSome_scale?_of_nonneg (hs : 0 < s) (hbound : s ≤ 10 ^ 18) (hlow : 0 ≤ e) (hhigh : e ≤ 308)
    (hfar : codeOfDecimal s e + 3 ≤ infinityCode) : (scale? (ofInt s) e).isSome := by
  have hround := (roundsTo_codeOfRatio (Nat.pow_pos (by omega)) (show codeOfDecimal s e < infinityCode by omega)).high
  have hneg : (-e).toNat = 0 := by omega
  have hmono := unitsOfCode_strictMono.monotone
  have hprod : (ofInt s * powerOfTen e.toNat).isInfinite = false := by
    have hx : Nearly (ofInt s) s := ofInt_natCast s ▸ nearly_ofRatio hs hbound (by omega)
    have hy : Nearly (powerOfTen e.toNat) (10 ^ e.toNat) := by
      rw [powerOfTen_eq (by omega)]
      exact nearly_ofRatio (Nat.pow_pos (by omega)) (Nat.le_refl _) (by omega)
    refine hx.isInfinite_mul hy ?_
    have h₁ := hmono (show codeOfDecimal s e ≤ infinityCode - 3 by omega)
    have h₂ := hmono (show codeOfDecimal s e + 1 ≤ infinityCode - 2 by omega)
    rw [hneg, Nat.pow_zero, Nat.mul_one] at hround
    rw [codeOfDecimal, hneg, Nat.pow_zero] at h₁ h₂
    omega
  rw [scale?_of_nonneg hlow hhigh, hprod]
  rfl

theorem isSome_scale?_shortest {c : Nat} (hfin : c < infinityCode) (hlow : 0 ≤ (shortest false c).exponent) :
    (scale? (ofInt (shortest false c).significand) (shortest false c).exponent).isSome := by
  rcases Nat.eq_zero_or_pos c with rfl | hpos
  · rw [shortest, if_pos rfl]
    exact Option.isSome_of_eq_some (scale?_exact (s := 0) (e := 0) (by omega) (by omega) (by omega) (by decide +kernel))
  have hcode := codeOfDecimal_shortest false hfin
  have hhigh := (exponent_shortest_mem false hfin).2
  have hsig : (shortest false c).significand ≤ 10 ^ 18 := (significand_shortest_lt false hfin).le.trans (by decide)
  -- The two greatest floats are nearer to the infinities than the bound asks, so their decimals are computed.
  by_cases htop : c = infinityCode - 1 ∨ c = infinityCode - 2
  · have hprod : (ofInt (shortest false c).significand * powerOfTen (shortest false c).exponent.toNat).isInfinite =
        false := by
      rcases htop with rfl | rfl <;> decide +kernel
    rw [scale?_of_nonneg hlow hhigh, hprod]
    rfl
  · have hs : 0 < (shortest false c).significand := significand_shortest_pos false hpos hfin
    exact isSome_scale?_of_nonneg hs hsig hlow hhigh (by omega)

/-! ## Significand and scale -/

/-- The digits before and after the point as one integer. -/
def significand (n : Numeral) : Nat := Nat.ofDigitChars 10 (n.whole ++ n.fraction.getD []) 0

/-- The power of ten that is left for the significand. -/
def scale (n : Numeral) : Int := n.exponent.getD 0 - ((n.fraction.getD []).length : Int)

/-- No digit is skipped that fits. -/
theorem absorb_eq {digits : List Char} {m : Nat} (hlt : Nat.ofDigitChars 10 digits m < 2 ^ 64) :
    absorb m digits = (Nat.ofDigitChars 10 digits m, []) := by
  induction digits generalizing m with
  | nil => rfl
  | cons c digits ih =>
    rw [Nat.ofDigitChars_cons] at hlt ⊢
    have hstep : 10 * m + digit c < 2 ^ 64 := by
      rw [Nat.ofDigitChars_eq_ofDigitChars_zero] at hlt
      have := Nat.le_mul_of_pos_left (10 * m + digit c) (Nat.pow_pos (n := digits.length) (show 0 < 10 by omega))
      unfold digit at this ⊢
      omega
    rw [absorb, if_pos hstep]
    exact ih hlt

theorem parts_eq (hlt : n.significand < 2 ^ 64) : n.parts = (n.significand, n.scale) := by
  unfold significand at hlt
  rw [Nat.ofDigitChars_append] at hlt
  have hwhole : Nat.ofDigitChars 10 n.whole 0 < 2 ^ 64 := by
    rw [Nat.ofDigitChars_eq_ofDigitChars_zero] at hlt
    have := Nat.le_mul_of_pos_left (Nat.ofDigitChars 10 n.whole 0)
      (Nat.pow_pos (n := (n.fraction.getD []).length) (show 0 < 10 by omega))
    omega
  rw [parts, absorb_eq hwhole]
  dsimp only
  rw [absorb_eq hlt, significand, scale, Nat.ofDigitChars_append]
  refine congrArg _ ?_
  rw [List.length_nil, Nat.sub_zero]
  omega

theorem toFloat?_eq (hint : n.toInt? = none) (hlt : n.significand < 2 ^ 64) :
    n.toFloat? = (scale? (ofInt n.significand) n.scale).map fun x => if n.negative then x.neg else x := by
  rw [toFloat?, hint, parts_eq hlt]

/-! ## The grammar -/

variable {whole places tail : List Char} {exponent : Option Int}

/-- What may stand behind the digits: nothing, or an exponent. -/
structure IsTail (tail : List Char) (exponent : Option Int) : Prop where
  head : ∀ c, tail.head? = some c → c.isDigit = false ∧ c ≠ '.'
  tail? : ∀ n : Numeral, n.exponent = none → n.tail? tail = some { n with exponent := exponent }

theorem isTail_nil : IsTail [] none where
  head c h := by cases h
  tail? n h := by
    obtain ⟨negative, whole, fraction, exponent⟩ := n
    cases h
    rfl

theorem exponentOf?_exponentText (e : Int) : exponentOf? (exponentText true e) = some e := by
  have hdigits := Decimal.isWhole_toDigits e.natAbs
  have hall : (Nat.toDigits 10 e.natAbs).all Char.isDigit := List.all_eq_true.2 hdigits.isDigit
  have hvalue : Nat.ofDigitChars 10 (Nat.toDigits 10 e.natAbs) 0 = e.natAbs := Nat.ofDigitChars_ten_toDigits
  have hgood : Nat.toDigits 10 e.natAbs ≠ [] ∧ (Nat.toDigits 10 e.natAbs).all Char.isDigit := ⟨hdigits.ne_nil, hall⟩
  unfold exponentText
  split
  case isTrue hneg =>
    rw [List.singleton_append, exponentOf?, if_pos hgood, if_pos rfl, hvalue]
    congr 1
    omega
  case isFalse hneg =>
    rw [if_pos rfl, List.singleton_append, exponentOf?, if_pos hgood, if_neg Bool.false_ne_true, hvalue]
    congr 1
    omega

theorem isTail_exponent (e : Int) : IsTail ('e' :: exponentText true e) (some e) where
  head c h := by
    cases h
    decide
  tail? n h := by
    rw [Numeral.tail?, if_pos (.inl rfl), exponentOf?_exponentText]
    rfl

theorem unsigned?_whole (negative : Bool) (hwhole : Decimal.IsWhole whole) (htail : IsTail tail exponent) :
    unsigned? negative (whole ++ tail) = some ⟨negative, whole, none, exponent⟩ := by
  have hhead := fun c h => (htail.head c h).1
  rw [unsigned?, Text.takeWhile_append_eq hwhole.isDigit hhead, Text.dropWhile_append_eq hwhole.isDigit hhead]
  dsimp only
  rw [if_neg hwhole.not_malformed]
  split
  · exact absurd rfl (htail.head '.' rfl).2
  · exact htail.tail? _ rfl

theorem unsigned?_places (negative : Bool) (hwhole : Decimal.IsWhole whole) (hplaces : ∀ c ∈ places, c.isDigit)
    (hne : places ≠ []) (htail : IsTail tail exponent) :
    unsigned? negative (whole ++ '.' :: (places ++ tail)) = some ⟨negative, whole, some places, exponent⟩ := by
  have hhead := fun c h => (htail.head c h).1
  have hpoint : ∀ c, ('.' :: (places ++ tail)).head? = some c → c.isDigit = false := by
    intro c h
    cases h
    decide
  rw [unsigned?, Text.takeWhile_append_eq hwhole.isDigit hpoint, Text.dropWhile_append_eq hwhole.isDigit hpoint]
  dsimp only
  rw [if_neg hwhole.not_malformed]
  change (if (places ++ tail).takeWhile Char.isDigit = [] then none else tail? _ _) = _
  rw [Text.takeWhile_append_eq hplaces hhead, Text.dropWhile_append_eq hplaces hhead, if_neg hne]
  exact htail.tail? _ rfl

/-- The numeral is the written form of a decimal. -/
structure Writes (n : Numeral) (negative : Bool) (d : Decimal) : Prop where
  negative : n.negative = negative
  toInt? : n.toInt? = none
  significand_lt : n.significand < max (d.significand + 1) (10 ^ 17)
  code : codeOfDecimal n.significand n.scale = codeOfDecimal d.significand d.exponent
  eq_of_nonneg : 0 ≤ n.scale → n.significand = d.significand ∧ n.scale = d.exponent

theorem writes_of_eq {negative : Bool} {d : Decimal} (hneg : n.negative = negative) (hint : n.toInt? = none)
    (hs : n.significand = d.significand) (he : n.scale = d.exponent) : n.Writes negative d where
  negative := hneg
  toInt? := hint
  significand_lt := by omega
  code := by rw [hs, he]
  eq_of_nonneg _ := ⟨hs, he⟩

theorem exists_writes_positional (negative : Bool) {d : Decimal} (hd : 0 < d.significand ∨ d.exponent = 0)
    (hlead : d.leadingExponent ≤ 15) :
    ∃ n, unsigned? negative (positionalText true d.digits d.exponent) = some n ∧ n.Writes negative d := by
  obtain ⟨whole, places, htext, hform⟩ := d.exists_positional hd
  refine ⟨⟨negative, whole, some places, none⟩, ?_, rfl, rfl, hform.value_lt (n := 16) (by omega), ?_, ?_⟩
  · have hread := unsigned?_places negative hform.isWhole hform.isDigit hform.ne_nil isTail_nil
    rwa [List.append_nil, ← htext] at hread
  · have hscale : (0 : Int) - (places.length : Int) = -(places.length : Int) := Int.zero_sub _
    rw [significand, scale, Option.getD_some, Option.getD_none, hscale]
    exact hform.codeOfDecimal_eq
  · intro hscale
    have := List.length_pos_of_ne_nil hform.ne_nil
    simp only [scale, Option.getD_none, Option.getD_some] at hscale
    omega

theorem exists_writes_scientific (negative : Bool) (d : Decimal) :
    ∃ n, unsigned? negative (scientificText true d.digits d.leadingExponent) = some n ∧ n.Writes negative d := by
  have hdigits : Decimal.IsWhole d.digits := Decimal.isWhole_toDigits d.significand
  have htail := isTail_exponent d.leadingExponent
  have hvalue := d.ofDigitChars_digits
  have hlead : d.leadingExponent = d.exponent + d.digits.length - 1 := rfl
  generalize d.leadingExponent = lead at *
  rcases hcase : d.digits with _ | ⟨first, rest⟩
  · exact absurd hcase hdigits.ne_nil
  rw [hcase] at hdigits hvalue hlead
  have hfirst : Decimal.IsWhole [first] := hdigits.take (k := 1) (by omega)
  rw [List.length_cons] at hlead
  by_cases hrest : rest = []
  · subst hrest
    refine ⟨⟨negative, [first], none, some lead⟩, unsigned?_whole negative hfirst htail,
      writes_of_eq rfl rfl hvalue ?_⟩
    rw [scale, Option.getD_some, Option.getD_none]
    simp only [List.length_nil] at hlead ⊢
    omega
  · have htext : scientificText true (first :: rest) lead =
        [first] ++ '.' :: (rest ++ 'e' :: exponentText true lead) := by
      obtain ⟨second, rest, rfl⟩ := List.exists_cons_of_ne_nil hrest
      rfl
    have hdigit : ∀ c ∈ rest, c.isDigit := fun c hc => hdigits.isDigit c (List.mem_cons_of_mem _ hc)
    refine ⟨⟨negative, [first], some rest, some lead⟩, htext ▸ unsigned?_places negative hfirst hdigit hrest htail,
      writes_of_eq rfl rfl hvalue ?_⟩
    rw [scale, Option.getD_some, Option.getD_some]
    omega

theorem exists_writes_renderDecimal (negative : Bool) {d : Decimal} (hd : 0 < d.significand ∨ d.exponent = 0) :
    ∃ n, unsigned? negative (Style.json.renderDecimal d) = some n ∧ n.Writes negative d := by
  unfold Style.renderDecimal
  change ∃ n, unsigned? negative (if -5 ≤ d.leadingExponent ∧ d.leadingExponent ≤ 15 then _ else _) = some n ∧ _
  split
  case isTrue hlead => exact exists_writes_positional negative hd hlead.2
  case isFalse => exact exists_writes_scientific negative d

/-- A sign in front of what is a number itself is read as the sign. -/
theorem ofChars?_sign (negative : Bool) {text : List Char} (h : unsigned? negative text = some n) :
    ofChars? ((if negative then ['-'] else []) ++ text) = some n := by
  cases negative with
  | true => exact h
  | false =>
    have hhead : ∀ rest, text ≠ '-' :: rest := by
      rintro rest rfl
      cases h
    rw [if_neg Bool.false_ne_true, List.nil_append, ofChars?]
    · exact h
    · exact hhead

/-- Every finite float is written as a number. -/
theorem exists_writes (hx : x.isFinite = true) :
    ∃ n, ofChars? (Style.json.renderChars x) = some n ∧ n.Writes x.negative (shortest false x.code) := by
  obtain ⟨n, hn, hwrites⟩ := exists_writes_renderDecimal x.negative (shortest_pos_or_zero false (of_decide_eq_true hx))
  exact ⟨n, Style.renderChars_of_isFinite Style.json hx ▸ ofChars?_sign x.negative hn, hwrites⟩

/-! ## Written floats are read -/

/-- The digits as one integer have 53 bits, and the power of ten left for them is a float. -/
def IsExact (n : Numeral) : Prop := n.significand ≤ 2 ^ 53 ∧ -22 ≤ n.scale ∧ n.scale ≤ 22

instance (n : Numeral) : Decidable n.IsExact :=
  inferInstanceAs (Decidable (n.significand ≤ 2 ^ 53 ∧ -22 ≤ n.scale ∧ n.scale ≤ 22))

variable {negative : Bool} {c : Nat}

theorem Writes.toFloat?_eq (h : n.Writes negative (shortest false c)) (hfin : c < infinityCode) :
    n.toFloat? = (scale? (ofInt n.significand) n.scale).map fun x => if n.negative then x.neg else x := by
  refine Numeral.toFloat?_eq h.toInt? (h.significand_lt.trans_le ?_)
  have := significand_shortest_lt false hfin
  omega

/-- No written float is refused. -/
theorem Writes.isSome_toFloat? (h : n.Writes negative (shortest false c)) (hfin : c < infinityCode) :
    n.toFloat?.isSome := by
  rw [h.toFloat?_eq hfin, Option.isSome_map]
  by_cases hneg : n.scale < 0
  · exact isSome_scale?_of_neg hneg
  · obtain ⟨hs, he⟩ := h.eq_of_nonneg (by omega)
    rw [hs, he]
    exact isSome_scale?_shortest hfin (by omega)

/-- With few digits and a small power of ten the float that was written is read. -/
theorem Writes.toFloat?_of_isExact (h : n.Writes x.negative (shortest false x.code)) (hx : x.isFinite = true)
    (hexact : n.IsExact) : n.toFloat? = some x := by
  have hfin : x.code < infinityCode := of_decide_eq_true hx
  have hcode : codeOfDecimal n.significand n.scale = x.code := h.code.trans (codeOfDecimal_shortest false hfin)
  obtain ⟨hs, hlow, hhigh⟩ := hexact
  rw [h.toFloat?_eq hfin, scale?_exact hs hlow hhigh (hcode ▸ hfin), hcode, h.negative, Option.map_some,
    neg_ofCode false (hfin.trans (by decide))]
  congr 1
  have hself := ofCode_code x
  cases hsign : x.negative <;> rw [hsign] at hself <;> exact hself

end Numeral

end TriadMesh
