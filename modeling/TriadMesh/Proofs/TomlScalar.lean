import TriadMesh.Proofs.DecimalText
import TriadMesh.Toml.Scalar

/-!
# Numbers and truth values of TOML are read back

A finite float has a positional form, which is read as the float bit for bit, the sign of a zero included
(`scanScalar?_float`). A natural number that fits 63 bits is read as itself, and so are the truth values.
-/

namespace TriadMesh.Toml

open Binary64

variable {whole places digits rest text : List Char} {c : Char}

/-! ## Digits -/

theorem groups?_digits (hdigits : ∀ c ∈ digits, c.isDigit) (hne : digits ≠ []) :
    groups? Char.isDigit digits = some digits := by
  induction digits with
  | nil => exact absurd rfl hne
  | cons c digits ih =>
    have hc : c.isDigit = true := hdigits c List.mem_cons_self
    cases digits with
    | nil => rw [groups?, if_pos hc]
    | cons d digits =>
      have hd : d ≠ '_' := by
        rintro rfl
        exact absurd (hdigits '_' (List.mem_cons_of_mem c List.mem_cons_self)) (by decide)
      rw [groups?, if_pos hc, ih (fun e he => hdigits e (List.mem_cons_of_mem c he)) (List.cons_ne_nil d digits)]
      · rfl
      · rintro ⟨⟩
      · rintro rest heq
        exact hd (List.head_eq_of_cons_eq heq)

theorem whole?_of_isWhole (h : Decimal.IsWhole whole) : whole? whole = some whole := by
  unfold whole?
  split
  case h_1 => rfl
  case h_2 hne => exact (hne (List.cons.inj (h.head rfl)).2).elim
  case h_3 => exact groups?_digits h.isDigit h.ne_nil

theorem isPart_of_isDigit (h : c.isDigit = true) : isPart c = true := by
  rw [isPart, h, Bool.true_or]

theorem isWordChar_of_isDigit (h : c.isDigit = true) : isWordChar c = true := by
  simp [isWordChar, Char.isAlphanum, h]

/-- A text is no date if its digits end with a character that no date has there. -/
theorem date?_eq_none (digits : List Char) (hdigits : ∀ c ∈ digits, c.isDigit) (hc : c.isDigit = false)
    (hsep : digits ≠ [] → c ≠ ':' ∧ c ≠ '-') : date? (digits ++ c :: rest) = none := by
  have hcolon : ':'.isDigit = false := by decide
  have hdash : '-'.isDigit = false := by decide
  unfold date?
  split
  case h_1 heq =>
    rw [if_neg]
    rcases digits with _ | ⟨x, _ | ⟨y, _ | ⟨z, digits⟩⟩⟩ <;> simp_all
  case h_2 heq =>
    rw [if_neg]
    rcases digits with _ | ⟨x, _ | ⟨y, _ | ⟨z, _ | ⟨w, _ | ⟨v, digits⟩⟩⟩⟩⟩ <;> simp_all
  case h_3 => rfl

/-! ## Words -/

variable {tail : List Char} {v : Value} {negative : Bool}

/-- A word is followed by the end of its line. -/
theorem scanScalar?_of_word (hchars : ∀ c ∈ text, isWordChar c) (hdate : date? (text ++ '\n' :: rest) = none)
    (hword : word? text = some v) : scanScalar? (text ++ '\n' :: rest) = some (v, '\n' :: rest) := by
  have hbreak : ∀ c, ('\n' :: rest).head? = some c → isWordChar c = false := by
    rintro c ⟨⟩
    decide
  rw [scanScalar?, hdate]
  dsimp only
  rw [Text.takeWhile_append_eq hchars hbreak, Text.dropWhile_append_eq hchars hbreak, hword]
  rfl

/-- What may follow the whole part of a number. -/
structure IsRest (tail : List Char) : Prop where
  notPart : ∀ c, tail.head? = some c → isPart c = false
  notBase : ∀ c, tail.head? = some c → c ≠ 'x' ∧ c ≠ 'o' ∧ c ≠ 'b'

theorem isRest_nil : IsRest [] := ⟨by rintro c ⟨⟩, by rintro c ⟨⟩⟩

theorem isRest_point : IsRest ('.' :: places) := ⟨by rintro c ⟨⟩; decide, by rintro c ⟨⟩; decide⟩

theorem isDigit_of_cons_eq (hwhole : Decimal.IsWhole whole) (heq : whole ++ tail = c :: text) : c.isDigit = true := by
  obtain ⟨first, more, rfl⟩ := List.exists_cons_of_ne_nil hwhole.ne_nil
  obtain ⟨rfl, -⟩ := List.cons.inj heq
  exact hwhole.isDigit first List.mem_cons_self

theorem word?_of_isWhole (hwhole : Decimal.IsWhole whole) (htail : IsRest tail) :
    word? (whole ++ tail) = signed? false (whole ++ tail) := by
  have hbase : ∀ {c text}, whole ++ tail = '0' :: c :: text → c ≠ 'x' ∧ c ≠ 'o' ∧ c ≠ 'b' := by
    intro c text heq
    obtain ⟨first, more, rfl⟩ := List.exists_cons_of_ne_nil hwhole.ne_nil
    obtain ⟨rfl, hrest⟩ := List.cons.inj heq
    obtain rfl : more = [] := (List.cons.inj (hwhole.head rfl)).2
    have htext : tail = c :: text := hrest
    exact htail.notBase c (by rw [htext]; rfl)
  unfold word?
  split
  case h_1 heq => exact absurd (isDigit_of_cons_eq hwhole heq) (by decide)
  case h_2 heq => exact absurd (isDigit_of_cons_eq hwhole heq) (by decide)
  case h_3 heq => exact absurd rfl (hbase heq).1
  case h_4 heq => exact absurd rfl (hbase heq).2.1
  case h_5 heq => exact absurd rfl (hbase heq).2.2
  case h_6 heq => exact absurd (isDigit_of_cons_eq hwhole heq) (by decide)
  case h_7 heq => exact absurd (isDigit_of_cons_eq hwhole heq) (by decide)
  case h_8 => rfl

theorem signed?_of_isWhole (hwhole : Decimal.IsWhole whole) :
    signed? negative (whole ++ tail) = decimal? negative (whole ++ tail) := by
  unfold signed?
  rw [if_neg, if_neg]
  · exact fun heq => absurd (isDigit_of_cons_eq hwhole heq) (by decide)
  · exact fun heq => absurd (isDigit_of_cons_eq hwhole heq) (by decide)

theorem decimal?_integer (hwhole : Decimal.IsWhole whole) :
    decimal? negative whole =
      integer? (if negative then -(Nat.ofDigitChars 10 whole 0 : Int) else Nat.ofDigitChars 10 whole 0) := by
  have htake := Text.takeWhile_append_eq (fun c hc => isPart_of_isDigit (hwhole.isDigit c hc)) isRest_nil.notPart
  have hdrop := Text.dropWhile_append_eq (fun c hc => isPart_of_isDigit (hwhole.isDigit c hc)) isRest_nil.notPart
  rw [List.append_nil] at htake hdrop
  rw [decimal?, htake, hdrop, whole?_of_isWhole hwhole]
  rfl

theorem decimal?_point (hwhole : Decimal.IsWhole whole) (hplaces : ∀ c ∈ places, c.isDigit) (hne : places ≠ []) :
    decimal? negative (whole ++ '.' :: places) = float? negative whole places 0 := by
  have hpart : ∀ c ∈ places, isPart c := fun c hc => isPart_of_isDigit (hplaces c hc)
  have htake := Text.takeWhile_append_eq hpart isRest_nil.notPart
  have hdrop := Text.dropWhile_append_eq hpart isRest_nil.notPart
  rw [List.append_nil] at htake hdrop
  rw [decimal?, Text.takeWhile_append_eq (fun c hc => isPart_of_isDigit (hwhole.isDigit c hc)) isRest_point.notPart,
    Text.dropWhile_append_eq (fun c hc => isPart_of_isDigit (hwhole.isDigit c hc)) isRest_point.notPart,
    whole?_of_isWhole hwhole]
  change ((groups? Char.isDigit (places.takeWhile isPart)).bind fun ps =>
    (exponent? (places.dropWhile isPart)).bind fun e => float? negative whole ps e) = _
  rw [htake, hdrop, groups?_digits hplaces hne]
  rfl

/-! ## Written values -/

theorem float?_of_positional {d : Decimal} {x : Binary64} (hform : Decimal.Positional d whole places)
    (hx : x.isFinite = true) (hd : d = shortest true x.code) :
    float? x.negative whole places 0 = some (.float x) := by
  have hfin : x.code < infinityCode := of_decide_eq_true hx
  have hread : ofDecimal x.negative (Nat.ofDigitChars 10 (whole ++ places) 0) (0 - places.length) = x := by
    obtain ⟨hlow, -⟩ := exponent_shortest_mem true hfin
    have hcode := hform.codeOfDecimal_eq
    obtain ⟨zeros, -, hscale, hzeros⟩ := hform.value
    rw [← hd] at hlow
    rw [Int.zero_sub, ofDecimal_eq _ (by omega) (by omega), hcode, hd, codeOfDecimal_shortest true hfin, ofCode_code]
  have hne : x ≠ infinity false := by
    rintro rfl
    exact absurd hx (by decide)
  unfold float?
  dsimp only
  rw [hread, if_neg hne]

/-- A finite float is written with a sign, if it has one, and digits on both sides of a point. -/
theorem exists_positional_float {x : Binary64} (hx : x.isFinite = true) :
    ∃ whole places, Style.toml.renderChars x = (if x.negative then ['-'] else []) ++ (whole ++ '.' :: places) ∧
      Decimal.Positional (shortest true x.code) whole places := by
  obtain ⟨whole, places, htext, hform⟩ := (shortest true x.code).exists_positional
    (shortest_pos_or_zero true (of_decide_eq_true hx))
  exact ⟨whole, places, htext ▸ Style.renderChars_of_isFinite Style.toml hx, hform⟩

theorem isWordChar_of_positional {d : Decimal} (hform : Decimal.Positional d whole places) :
    ∀ c ∈ whole ++ '.' :: places, isWordChar c := by
  intro c hc
  rcases List.mem_append.1 hc with hc | hc
  · exact isWordChar_of_isDigit (hform.isWhole.isDigit c hc)
  · rcases List.mem_cons.1 hc with rfl | hc
    · decide
    · exact isWordChar_of_isDigit (hform.isDigit c hc)

theorem isWordChar_of_mem_float {x : Binary64} (hx : x.isFinite = true) :
    Style.toml.renderChars x ≠ [] ∧ ∀ c ∈ Style.toml.renderChars x, isWordChar c := by
  obtain ⟨whole, places, htext, hform⟩ := exists_positional_float hx
  have hword := isWordChar_of_positional hform
  rw [htext]
  cases x.negative with
  | true => exact ⟨List.cons_ne_nil _ _, List.forall_mem_cons.2 ⟨by decide, hword⟩⟩
  | false => exact ⟨List.append_ne_nil_of_left_ne_nil hform.isWhole.ne_nil _, hword⟩

/-- A finite float is read back bit for bit. -/
theorem scanScalar?_float {x : Binary64} (hx : x.isFinite = true) (rest : List Char) :
    scanScalar? (Style.toml.renderChars x ++ '\n' :: rest) = some (.float x, '\n' :: rest) := by
  obtain ⟨whole, places, htext, hform⟩ := exists_positional_float hx
  have hread := float?_of_positional hform hx rfl
  rw [← decimal?_point hform.isWhole hform.isDigit hform.ne_nil, ← signed?_of_isWhole hform.isWhole] at hread
  refine scanScalar?_of_word (isWordChar_of_mem_float hx).2 ?_ ?_ <;> rw [htext]
  · cases x.negative with
    | true => exact date?_eq_none [] nofun (by decide) fun h => absurd rfl h
    | false =>
      have hdate : date? (whole ++ '.' :: (places ++ '\n' :: rest)) = none :=
        date?_eq_none whole hform.isWhole.isDigit (by decide) fun _ => by decide
      simpa using hdate
  · cases hsign : x.negative with
    | true =>
      rw [hsign] at hread
      exact hread
    | false =>
      rw [hsign, ← word?_of_isWhole hform.isWhole isRest_point] at hread
      exact hread

theorem scanScalar?_count {n : Nat} (hn : n < 2 ^ 63) (rest : List Char) :
    scanScalar? (Nat.toDigits 10 n ++ '\n' :: rest) = some (.integer n, '\n' :: rest) := by
  have hwhole := Decimal.isWhole_toDigits n
  refine scanScalar?_of_word (fun c hc => isWordChar_of_isDigit (hwhole.isDigit c hc))
    (date?_eq_none _ hwhole.isDigit (by decide) fun _ => by decide) ?_
  have hword := word?_of_isWhole hwhole isRest_nil
  rw [List.append_nil] at hword
  have hsigned : signed? false (Nat.toDigits 10 n ++ []) = _ := signed?_of_isWhole hwhole
  rw [List.append_nil] at hsigned
  rw [hword, hsigned, decimal?_integer hwhole, if_neg Bool.false_ne_true, Nat.ofDigitChars_ten_toDigits, integer?,
    if_pos (by omega)]

theorem isWordChar_of_mem_flag (b : Bool) :
    ∀ c ∈ if b then ['t', 'r', 'u', 'e'] else ['f', 'a', 'l', 's', 'e'], isWordChar c := by
  cases b <;> exact List.all_eq_true.1 (by decide)

theorem scanScalar?_flag (b : Bool) (rest : List Char) :
    scanScalar? ((if b then ['t', 'r', 'u', 'e'] else ['f', 'a', 'l', 's', 'e']) ++ '\n' :: rest) =
      some (.flag b, '\n' :: rest) := by
  refine scanScalar?_of_word (isWordChar_of_mem_flag b) ?_ ?_ <;> cases b
  · exact date?_eq_none [] nofun (by decide) fun h => absurd rfl h
  · exact date?_eq_none [] nofun (by decide) fun h => absurd rfl h
  · rfl
  · rfl

end TriadMesh.Toml
