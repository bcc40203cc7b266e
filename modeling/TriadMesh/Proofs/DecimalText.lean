import TriadMesh.Proofs.Shortest

/-!
# Decimals as text

A decimal is written with digits on both sides of a point, or with an exponent. Either way the digits together are
its significand with zeros behind it, and the power of ten left for them makes up for the zeros. Which format reads
the text, and how, does not matter here.
-/

namespace TriadMesh

/-! ## The front of a text -/

namespace Text

/-- What stands in front of the first character without a property. -/
theorem takeWhile_append_eq {p : Char → Bool} {text rest : List Char} (htext : ∀ c ∈ text, p c)
    (hrest : ∀ c, rest.head? = some c → p c = false) : (text ++ rest).takeWhile p = text := by
  rw [List.takeWhile_append_of_pos htext]
  cases rest with
  | nil => rw [List.takeWhile_nil, List.append_nil]
  | cons c rest => rw [List.takeWhile_cons_of_neg (by simp [hrest c rfl]), List.append_nil]

theorem dropWhile_append_eq {p : Char → Bool} {text rest : List Char} (htext : ∀ c ∈ text, p c)
    (hrest : ∀ c, rest.head? = some c → p c = false) : (text ++ rest).dropWhile p = rest := by
  rw [List.dropWhile_append_of_pos htext]
  cases rest with
  | nil => rfl
  | cons c rest => exact List.dropWhile_cons_of_neg (by simp [hrest c rfl])

end Text

namespace Decimal

variable {d : Decimal} {whole places : List Char}

/-! ## Digits -/

/-- The digits of a whole number: at least one, and no zero in front of another. -/
structure IsWhole (digits : List Char) : Prop where
  isDigit : ∀ c ∈ digits, c.isDigit
  ne_nil : digits ≠ []
  head : digits.head? = some '0' → digits = ['0']

theorem IsWhole.not_malformed (h : IsWhole whole) : ¬(whole = [] ∨ whole.head? = some '0' ∧ whole ≠ ['0']) := by
  rintro (hnil | ⟨hzero, hne⟩)
  · exact h.ne_nil hnil
  · exact hne (h.head hzero)

theorem head?_toDigits_ne {n : Nat} (hn : 0 < n) : (Nat.toDigits 10 n).head? ≠ some '0' := by
  induction n using Nat.strong_induction_on with
  | h n ih =>
    rw [Nat.toDigits_eq_if (by omega)]
    split
    · rw [List.head?_cons, ne_eq, Option.some.injEq, Nat.digitChar_eq_zero]
      omega
    · rw [List.head?_append_of_ne_nil _ Nat.toDigits_ne_nil]
      exact ih (n / 10) (by omega) (by omega)

theorem isWhole_toDigits (n : Nat) : IsWhole (Nat.toDigits 10 n) where
  isDigit c hc := Nat.isDigit_of_mem_toDigits (by omega) (by omega) hc
  ne_nil := Nat.toDigits_ne_nil
  head h := by
    rcases Nat.eq_zero_or_pos n with rfl | hn
    · exact Nat.toDigits_zero 10
    · exact absurd h (head?_toDigits_ne hn)

theorem IsWhole.take (h : IsWhole whole) {k : Nat} (hk : 0 < k) : IsWhole (whole.take k) where
  isDigit c hc := h.isDigit c (List.mem_of_mem_take hc)
  ne_nil hnil := by
    have := h.ne_nil
    rcases List.take_eq_nil_iff.1 hnil with rfl | hnil
    · omega
    · exact this hnil
  head hzero := by
    rw [List.head?_take, if_neg (by omega)] at hzero
    rw [h.head hzero]
    exact List.take_of_length_le hk

/-- Zeros may be put behind every number but zero. -/
theorem isWhole_append_zeros {n : Nat} (hn : 0 < n) (k : Nat) :
    IsWhole (Nat.toDigits 10 n ++ List.replicate k '0') where
  isDigit c hc := by
    rcases List.mem_append.1 hc with hc | hc
    · exact (isWhole_toDigits n).isDigit c hc
    · rw [List.eq_of_mem_replicate hc]
      decide
  ne_nil hnil := Nat.toDigits_ne_nil (List.append_eq_nil_iff.1 hnil).1
  head hzero := by
    rw [List.head?_append_of_ne_nil _ Nat.toDigits_ne_nil] at hzero
    exact absurd hzero (head?_toDigits_ne hn)

theorem ofDigitChars_append_zeros (digits : List Char) (k : Nat) :
    Nat.ofDigitChars 10 (digits ++ List.replicate k '0') 0 = Nat.ofDigitChars 10 digits 0 * 10 ^ k := by
  rw [Nat.ofDigitChars_append, Nat.ofDigitChars_replicate_zero, Nat.mul_comm]

theorem ofDigitChars_zeros_append (digits : List Char) (k : Nat) :
    Nat.ofDigitChars 10 (List.replicate k '0' ++ digits) 0 = Nat.ofDigitChars 10 digits 0 := by
  rw [Nat.ofDigitChars_append, Nat.ofDigitChars_replicate_zero, Nat.mul_zero]

/-! ## The positional form -/

/-- The digits before and after the point of a decimal. Zeros that they have more than its significand are made up
for by the place of the point. -/
structure Positional (d : Decimal) (whole places : List Char) : Prop where
  isWhole : IsWhole whole
  isDigit : ∀ c ∈ places, c.isDigit
  ne_nil : places ≠ []
  value : ∃ zeros : Nat, Nat.ofDigitChars 10 (whole ++ places) 0 = d.significand * 10 ^ zeros ∧
    -(places.length : Int) = d.exponent - zeros ∧ (zeros = 0 ∨ (zeros : Int) = d.exponent + 1)

theorem ofDigitChars_digits (d : Decimal) : Nat.ofDigitChars 10 d.digits 0 = d.significand :=
  Nat.ofDigitChars_ten_toDigits

theorem positional_of_nonneg (hd : 0 < d.significand ∨ d.exponent = 0) (he : 0 ≤ d.exponent) :
    Positional d (d.digits ++ List.replicate d.exponent.toNat '0') ['0'] where
  isWhole := by
    rcases hd with hpos | hzero
    · exact isWhole_append_zeros hpos _
    · rw [hzero]
      exact (List.append_nil _).symm ▸ isWhole_toDigits _
  isDigit := List.forall_mem_singleton.2 (by decide)
  ne_nil := by decide
  value := by
    refine ⟨d.exponent.toNat + 1, ?_, ?_, .inr (by omega)⟩
    · rw [List.append_assoc, ← List.replicate_succ', ofDigitChars_append_zeros, ofDigitChars_digits]
    · rw [List.length_singleton]
      omega

theorem positional_of_lt {k : Nat} (he : d.exponent = -k) (hk : 0 < k) (hlt : k < d.digits.length) :
    Positional d (d.digits.take (d.digits.length - k)) (d.digits.drop (d.digits.length - k)) where
  isWhole := (isWhole_toDigits _).take (by omega)
  isDigit c hc := (isWhole_toDigits _).isDigit c (List.mem_of_mem_drop hc)
  ne_nil := by
    rw [ne_eq, List.drop_eq_nil_iff]
    omega
  value := by
    refine ⟨0, ?_, ?_, .inl rfl⟩
    · rw [List.take_append_drop, ofDigitChars_digits, Nat.pow_zero, Nat.mul_one]
    · rw [List.length_drop]
      omega

theorem positional_of_ge {k : Nat} (he : d.exponent = -k) (hge : d.digits.length ≤ k) :
    Positional d ['0'] (List.replicate (k - d.digits.length) '0' ++ d.digits) where
  isWhole := ⟨List.forall_mem_singleton.2 (by decide), by decide, fun _ => rfl⟩
  isDigit c hc := by
    rcases List.mem_append.1 hc with hc | hc
    · rw [List.eq_of_mem_replicate hc]
      decide
    · exact (isWhole_toDigits _).isDigit c hc
  ne_nil hnil := Nat.toDigits_ne_nil (List.append_eq_nil_iff.1 hnil).2
  value := by
    refine ⟨0, ?_, ?_, .inl rfl⟩
    · rw [← List.append_assoc, ← List.replicate_one, List.replicate_append_replicate, ofDigitChars_zeros_append,
        ofDigitChars_digits, Nat.pow_zero, Nat.mul_one]
    · rw [List.length_append, List.length_replicate]
      omega

/-- Every decimal but a zero with an exponent has a positional form. -/
theorem exists_positional (d : Decimal) (hd : 0 < d.significand ∨ d.exponent = 0) :
    ∃ whole places, Binary64.positionalText true d.digits d.exponent = whole ++ '.' :: places ∧
      Positional d whole places := by
  unfold Binary64.positionalText
  split
  case isTrue he => exact ⟨_, _, rfl, positional_of_nonneg hd he⟩
  case isFalse he =>
    have hexp : d.exponent = -((-d.exponent).toNat : Int) := by omega
    dsimp only
    split
    case isTrue hlt => exact ⟨_, _, rfl, positional_of_lt hexp (by omega) hlt⟩
    case isFalse hge => exact ⟨_, _, rfl, positional_of_ge hexp (by omega)⟩

/-- The digits of the positional form are read as the decimal. -/
theorem Positional.codeOfDecimal_eq (h : Positional d whole places) :
    Binary64.codeOfDecimal (Nat.ofDigitChars 10 (whole ++ places) 0) (-(places.length : Int)) =
      Binary64.codeOfDecimal d.significand d.exponent := by
  obtain ⟨zeros, hvalue, hscale, -⟩ := h.value
  rw [hvalue, hscale, Binary64.codeOfDecimal_mul_pow]

/-- With a bounded first place the digits of the positional form make a bounded number. -/
theorem Positional.value_lt (h : Positional d whole places) {n : Nat} (hn : d.leadingExponent < n) :
    Nat.ofDigitChars 10 (whole ++ places) 0 < max (d.significand + 1) (10 ^ (n + 1)) := by
  obtain ⟨zeros, hvalue, -, rfl | hzeros⟩ := h.value
  · rw [hvalue, Nat.pow_zero, Nat.mul_one]
    omega
  · have hpos : 0 < d.digits.length := Nat.length_toDigits_pos
    have hlt : d.significand < 10 ^ d.digits.length :=
      (Nat.length_toDigits_le_iff (by omega) hpos).1 (Nat.le_refl _)
    have hlead : d.digits.length + zeros ≤ n + 1 := by
      unfold leadingExponent at hn
      omega
    refine Nat.lt_of_lt_of_le ?_ (Nat.le_max_right _ _)
    calc Nat.ofDigitChars 10 (whole ++ places) 0 = d.significand * 10 ^ zeros := hvalue
      _ < 10 ^ d.digits.length * 10 ^ zeros := Nat.mul_lt_mul_of_pos_right hlt (Nat.pow_pos (by omega))
      _ = 10 ^ (d.digits.length + zeros) := (Nat.pow_add ..).symm
      _ ≤ 10 ^ (n + 1) := Nat.pow_le_pow_right (by omega) hlead

end Decimal

/-- A finite float is written as its shortest decimal behind its sign. -/
theorem Binary64.Style.renderChars_of_isFinite (s : Style) {x : Binary64} (hx : x.isFinite = true) :
    s.renderChars x = (if x.negative then ['-'] else []) ++ s.renderDecimal (shortest s.tieUp x.code) := by
  obtain ⟨hnan, hinf⟩ := not_isNaN_of_isFinite hx
  rw [renderChars, hnan, hinf]
  rfl

end TriadMesh
