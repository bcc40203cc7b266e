import TriadMesh.Json.Decode
import TriadMesh.Proofs.Numeral

/-!
# Written values are read back

The compact text of a value is read as that value (`parse?_compact`), if its numbers and strings are written as the
grammar has them (`WellFormed`). Escaped texts, integers, byte strings and finite floats are.
-/

namespace TriadMesh.Json

/-! ## Strings -/

/-- What stands between two quotes is found there again. -/
def Scans (raw : List Char) : Prop := ∀ rest, scanString (raw ++ '"' :: rest) = some (raw, rest)

theorem hexValue?_hexDigit : ∀ n < 16, Text.hexValue? (Text.hexDigit n) = some n := by decide

theorem hexValue4?_hexDigit {n : Nat} (hn : n < 32) :
    hexValue4? '0' '0' (Text.hexDigit (n / 16)) (Text.hexDigit (n % 16)) = some n := by
  have hzero : Text.hexValue? '0' = some 0 := by decide
  rw [hexValue4?, hzero, hexValue?_hexDigit _ (by omega), hexValue?_hexDigit _ (by omega)]
  change some (((0 * 16 + 0) * 16 + n / 16) * 16 + n % 16) = some n
  congr 1
  omega

/-- What is written in place of a character is passed over as it is and read as the character. -/
structure Stands (raw : List Char) (c : Char) : Prop where
  scan : ∀ text, scanString (raw ++ text) = (scanString text).map fun p => (raw ++ p.1, p.2)
  read : ∀ text, unescape? (raw ++ text) = (unescape? text).map (c :: ·)

theorem stands_shortEscape {c e : Char} (he : e ≠ 'u') (h : shortEscape? e = some c) : Stands ['\\', e] c where
  scan text := by
    change scanString ('\\' :: e :: text) = _
    rw [scanString, h]
    · rfl
    · rintro a b c d rest heq
      exact absurd heq he
  read text := by
    change unescape? ('\\' :: e :: text) = _
    rw [unescape?, h]
    rintro a b c d rest heq
    exact absurd heq he

theorem stands_unicode {c : Char} (hc : c.toNat < 32) :
    Stands ['\\', 'u', '0', '0', Text.hexDigit (c.toNat / 16), Text.hexDigit (c.toNat % 16)] c where
  scan text := by
    change scanString ('\\' :: 'u' :: '0' :: '0' :: _ :: _ :: text) = _
    rw [scanString, hexValue4?_hexDigit hc]
    rfl
  read text := by
    change unescape? ('\\' :: 'u' :: '0' :: '0' :: _ :: _ :: text) = _
    rw [unescape?, hexValue4?_hexDigit hc]
    dsimp only
    rw [if_pos (by omega), Char.ofNat_toNat]

theorem stands_self {c : Char} (hquote : c ≠ '"') (hslash : c ≠ '\\') (hc : ¬c.toNat < 32) : Stands [c] c where
  scan text := by
    change scanString (c :: text) = _
    rw [scanString, if_neg (not_or_intro hc hslash)]
    · rfl
    · exact hquote
    · rintro a b d e rest heq
      exact absurd heq hslash
    · rintro d rest heq
      exact absurd heq hslash
  read text := by
    change unescape? (c :: text) = _
    rw [unescape?, if_neg hslash]
    · rintro a b d e rest heq
      exact absurd heq hslash
    · rintro d rest heq
      exact absurd heq hslash

theorem stands_escapeChar (c : Char) : Stands (escapeChar c) c := by
  have hcode : ∀ {n}, c.toNat = n → c = Char.ofNat n := fun h => h ▸ (Char.ofNat_toNat c).symm
  unfold escapeChar
  split_ifs with hquote hslash hb ht hn hf hr hcontrol
  · exact stands_shortEscape (by decide) (by rw [hquote]; rfl)
  · exact stands_shortEscape (by decide) (by rw [hslash]; rfl)
  · exact stands_shortEscape (by decide) (by rw [hcode hb]; rfl)
  · exact stands_shortEscape (by decide) (by rw [hcode ht]; rfl)
  · exact stands_shortEscape (by decide) (by rw [hcode hn]; rfl)
  · exact stands_shortEscape (by decide) (by rw [hcode hf]; rfl)
  · exact stands_shortEscape (by decide) (by rw [hcode hr]; rfl)
  · exact stands_unicode hcontrol
  · exact stands_self hquote hslash hcontrol

theorem scans_escape (s : List Char) : Scans (escape s) := by
  intro rest
  induction s with
  | nil => rfl
  | cons c s ih =>
    rw [escape, List.flatMap_cons, List.append_assoc, (stands_escapeChar c).scan, ← escape, ih]
    rfl

theorem unescape?_escape (s : List Char) : unescape? (escape s) = some s := by
  induction s with
  | nil => rfl
  | cons c s ih =>
    rw [escape, List.flatMap_cons, (stands_escapeChar c).read, ← escape, ih]
    rfl

/-! ## Numbers -/

theorem isNumberChar_of_isDigit {c : Char} (hc : c.isDigit = true) : isNumberChar c = true := by
  simp only [isNumberChar, hc, Bool.true_or]

theorem isNumberChar_of_digits {digits : List Char} (h : digits.all Char.isDigit = true) :
    ∀ c ∈ digits, isNumberChar c := fun c hc => isNumberChar_of_isDigit (List.all_eq_true.1 h c hc)

theorem isNumberChar_of_exponentOf? {text : List Char} (h : (Numeral.exponentOf? text).isSome) :
    ∀ c ∈ text, isNumberChar c := by
  have hdigits : ∀ {neg : Bool} {digits : List Char}, (if digits ≠ [] ∧ digits.all Char.isDigit then
      some (if neg then -(Nat.ofDigitChars 10 digits 0 : Int) else Nat.ofDigitChars 10 digits 0) else none).isSome →
      ∀ c ∈ digits, isNumberChar c := by
    intro neg digits h
    split at h
    case isTrue hall => exact isNumberChar_of_digits hall.2
    case isFalse => cases h
  unfold Numeral.exponentOf? at h
  dsimp only at h
  split at h
  · exact List.forall_mem_cons.2 ⟨by decide, hdigits h⟩
  · exact List.forall_mem_cons.2 ⟨by decide, hdigits h⟩
  · exact hdigits h

theorem isNumberChar_of_tail? {n : Numeral} {text : List Char} (h : (n.tail? text).isSome) :
    ∀ c ∈ text, isNumberChar c := by
  cases text with
  | nil => rintro c ⟨⟩
  | cons mark rest =>
    rw [Numeral.tail?] at h
    split at h
    case isFalse => cases h
    case isTrue hmark =>
      rw [Option.isSome_map] at h
      refine List.forall_mem_cons.2 ⟨?_, isNumberChar_of_exponentOf? h⟩
      rcases hmark with rfl | rfl <;> decide

theorem isNumberChar_of_unsigned? {negative : Bool} {text : List Char}
    (h : (Numeral.unsigned? negative text).isSome) : ∀ c ∈ text, isNumberChar c := by
  have hspan : ∀ text : List Char, (∀ c ∈ text.dropWhile Char.isDigit, isNumberChar c) →
      ∀ c ∈ text, isNumberChar c := by
    intro text hrest c hc
    rw [← List.takeWhile_append_dropWhile (p := Char.isDigit) (l := text)] at hc
    rcases List.mem_append.1 hc with hc | hc
    · exact isNumberChar_of_isDigit (List.all_eq_true.1 List.all_takeWhile c hc)
    · exact hrest c hc
  unfold Numeral.unsigned? at h
  dsimp only at h
  split at h
  case isTrue => cases h
  case isFalse =>
    apply hspan
    split at h
    case h_1 more heq =>
      rw [heq]
      refine List.forall_mem_cons.2 ⟨by decide, hspan more ?_⟩
      split at h
      case isTrue => cases h
      case isFalse => exact isNumberChar_of_tail? h
    case h_2 => exact isNumberChar_of_tail? h

/-- A number has no other characters than those that the reader collects for one. -/
theorem isNumberChar_of_ofChars? {raw : List Char} (h : (Numeral.ofChars? raw).isSome) :
    ∀ c ∈ raw, isNumberChar c := by
  unfold Numeral.ofChars? at h
  split at h
  · exact List.forall_mem_cons.2 ⟨by decide, isNumberChar_of_unsigned? h⟩
  · exact isNumberChar_of_unsigned? h

/-! ## Values -/

/-- Every number is one for the grammar, and every string ends at its quote. -/
inductive WellFormed : Json → Prop where
  | null : WellFormed null
  | bool (b : Bool) : WellFormed (bool b)
  | number {raw : List Char} (hreads : (Numeral.ofChars? raw).isSome) : WellFormed (number raw)
  | string {raw : List Char} (hscans : Scans raw) : WellFormed (string raw)
  | array {items : List Json} (hitems : ∀ v ∈ items, WellFormed v) : WellFormed (array items)
  | object {members : List (List Char × Json)} (hkeys : ∀ p ∈ members, Scans p.1)
      (hvalues : ∀ p ∈ members, WellFormed p.2) : WellFormed (object members)

variable {v : Json} {items : List Json} {members : List (List Char × Json)} {text rest : List Char} {fuel : Nat}

/-- A character that may begin a value. -/
def isStart (c : Char) : Bool :=
  isNumberChar c || c = 'n' || c = 't' || c = 'f' || c = '"' || c = '[' || c = '\x7b'

theorem skip_of_isStart {c : Char} (hc : isStart c = true) : skip (c :: text) = c :: text := by
  refine if_neg ?_
  rintro (rfl | rfl | rfl | rfl) <;> exact absurd hc (by decide)

theorem WellFormed.exists_start (h : v.WellFormed) : ∃ c text, v.compactChars = c :: text ∧ isStart c = true := by
  cases h with
  | null => exact ⟨_, _, rfl, by decide⟩
  | bool b => cases b <;> exact ⟨_, _, rfl, by decide⟩
  | @number raw hreads =>
    cases raw with
    | nil => cases hreads
    | cons c raw =>
      exact ⟨c, raw, rfl, by rw [isStart, isNumberChar_of_ofChars? hreads c List.mem_cons_self]; rfl⟩
  | string => exact ⟨_, _, rfl, by decide⟩
  | array => exact ⟨_, _, rfl, by decide⟩
  | object => exact ⟨_, _, rfl, by decide⟩

/-- What follows a value does not go on a number. -/
def Closed (rest : List Char) : Prop := ∀ c, rest.head? = some c → isNumberChar c = false

theorem scanValue_of_isNumberChar {c : Char} (hc : isNumberChar c = true) :
    scanValue (fuel + 1) (c :: text) = scanNumber (c :: text) := by
  have hskip : skip (c :: text) = c :: text := skip_of_isStart (by rw [isStart, hc]; rfl)
  rw [scanValue, hskip]
  split
  case h_7 => rfl
  all_goals
    rename_i heq
    cases heq
    exact absurd hc (by decide)

theorem scanValue_array {c : Char} (hc : isStart c = true) :
    scanValue (fuel + 1) ('[' :: c :: text) = (scanItems fuel (c :: text)).map fun p => (array p.1, p.2) := by
  rw [scanValue, skip_of_isStart (by decide)]
  simp only [skip_of_isStart hc]
  split
  case h_1 heq =>
    cases heq
    exact absurd hc (by decide)
  case h_2 => rfl

theorem scanValue_object :
    scanValue (fuel + 1) ('\x7b' :: '"' :: text) =
      (scanMembers fuel ('"' :: text)).map fun p => (object p.1, p.2) := rfl

theorem scanNumber_append {raw : List Char} (hreads : (Numeral.ofChars? raw).isSome) (hrest : Closed rest) :
    scanNumber (raw ++ rest) = some (number raw, rest) := by
  have hchars := isNumberChar_of_ofChars? hreads
  rw [scanNumber, Text.takeWhile_append_eq hchars hrest, Text.dropWhile_append_eq hchars hrest, if_pos hreads]

/-- The value is found at the front of a text, with fuel for twice its length. -/
def Found (v : Json) : Prop := ∀ fuel rest, 2 * v.compactChars.length ≤ fuel → Closed rest →
  scanValue fuel (v.compactChars ++ rest) = some (v, rest)

theorem closed_cons {c : Char} (hc : isNumberChar c = false) : Closed (c :: rest) := by
  rintro d hd
  cases hd
  exact hc

theorem scanItems_compact (hne : items ≠ []) (hfound : ∀ v ∈ items, v.Found)
    (hfuel : 2 * (separated [','] (compactItems items)).length + 1 ≤ fuel) :
    scanItems fuel (separated [','] (compactItems items) ++ ']' :: rest) = some (items, rest) := by
  -- Each item takes one unit of fuel, which its comma pays for, and leaves the others the fuel for their lengths.
  induction items generalizing fuel with
  | nil => exact absurd rfl hne
  | cons v items ih =>
    obtain ⟨fuel, rfl⟩ : ∃ k, fuel = k + 1 := ⟨fuel - 1, by omega⟩
    have hv := hfound v List.mem_cons_self
    cases items with
    | nil =>
      rw [compactItems, compactItems, separated] at hfuel ⊢
      rw [scanItems, hv fuel (']' :: rest) (by omega) (closed_cons (by decide))]
      rfl
    | cons w items =>
      rw [compactItems, compactItems, separated, ← compactItems] at hfuel ⊢
      simp only [List.length_append, List.length_singleton] at hfuel
      have hmore : scanItems fuel (separated [','] (compactItems (w :: items)) ++ ']' :: rest) = _ :=
        ih (List.cons_ne_nil w items) (fun u hu => hfound u (List.mem_cons_of_mem v hu)) (by omega)
      rw [List.append_assoc, List.append_assoc, List.singleton_append, scanItems,
        hv fuel _ (by omega) (closed_cons (by decide))]
      change (scanItems fuel _).map _ = _
      rw [hmore]
      rfl

/-- A member is read up to its value. -/
theorem scanMembers_cons {k : List Char} (hk : Scans k) (v : Json) (fuel : Nat) (rest : List Char) :
    scanMembers (fuel + 1) ('"' :: k ++ '"' :: ':' :: v.compactChars ++ rest) =
      match scanValue fuel (v.compactChars ++ rest) with
      | none => none
      | some (v, afterValue) =>
        match skip afterValue with
        | '\x7d' :: tail => some ([(k, v)], tail)
        | ',' :: tail => (scanMembers fuel tail).map fun p => ((k, v) :: p.1, p.2)
        | _ => none := by
  have htext : '"' :: k ++ '"' :: ':' :: v.compactChars ++ rest =
      '"' :: (k ++ '"' :: (':' :: (v.compactChars ++ rest))) := by
    simp only [List.cons_append, List.append_assoc]
  rw [htext, scanMembers, skip_of_isStart (by decide)]
  simp only [hk (':' :: (v.compactChars ++ rest))]
  rfl

theorem scanMembers_compact (hne : members ≠ []) (hkeys : ∀ p ∈ members, Scans p.1)
    (hfound : ∀ p ∈ members, p.2.Found)
    (hfuel : 2 * (separated [','] (compactMembers members)).length + 1 ≤ fuel) :
    scanMembers fuel (separated [','] (compactMembers members) ++ '\x7d' :: rest) = some (members, rest) := by
  induction members generalizing fuel with
  | nil => exact absurd rfl hne
  | cons p members ih =>
    obtain ⟨k, v⟩ := p
    obtain ⟨fuel, rfl⟩ : ∃ k, fuel = k + 1 := ⟨fuel - 1, by omega⟩
    have hk : Scans k := hkeys (k, v) List.mem_cons_self
    have hv : v.Found := hfound (k, v) List.mem_cons_self
    rcases members with _ | ⟨⟨l, w⟩, members⟩
    · rw [compactMembers, compactMembers, separated] at hfuel ⊢
      simp only [List.length_append, List.length_cons] at hfuel
      rw [scanMembers_cons hk, hv fuel _ (by omega) (closed_cons (by decide))]
      rfl
    · rw [compactMembers, compactMembers, separated, ← compactMembers] at hfuel ⊢
      simp only [List.length_append, List.length_cons, List.length_nil] at hfuel
      have hmore : scanMembers fuel (separated [','] (compactMembers ((l, w) :: members)) ++ '\x7d' :: rest) = _ :=
        ih (List.cons_ne_nil (l, w) members) (fun p hp => hkeys p (List.mem_cons_of_mem _ hp))
          (fun p hp => hfound p (List.mem_cons_of_mem _ hp)) (by omega)
      rw [List.append_assoc, List.append_assoc, List.singleton_append, scanMembers_cons hk,
        hv fuel _ (by omega) (closed_cons (by decide))]
      change (scanMembers fuel _).map _ = _
      rw [hmore]
      rfl

theorem found_number {raw : List Char} (hreads : (Numeral.ofChars? raw).isSome) : (number raw).Found := by
  intro fuel rest hfuel hrest
  rw [compactChars] at hfuel ⊢
  cases raw with
  | nil => cases hreads
  | cons c raw =>
    obtain ⟨fuel, rfl⟩ : ∃ k, fuel = k + 1 := ⟨fuel - 1, by simp at hfuel; omega⟩
    rw [List.cons_append, scanValue_of_isNumberChar (isNumberChar_of_ofChars? hreads c List.mem_cons_self),
      ← List.cons_append]
    exact scanNumber_append hreads hrest

theorem found_string {raw : List Char} (hscans : Scans raw) : (string raw).Found := by
  rintro (_ | fuel) rest hfuel -
  · cases hfuel
  · have htext : compactChars (.string raw) ++ rest = '"' :: (raw ++ '"' :: rest) := by
      simp [compactChars]
    rw [htext, scanValue, skip_of_isStart (by decide)]
    change (scanString _).map _ = _
    rw [hscans]
    rfl

theorem found_array (hitems : ∀ v ∈ items, v.WellFormed) (hfound : ∀ v ∈ items, v.Found) : (array items).Found := by
  rintro (_ | fuel) rest hfuel -
  · cases hfuel
  · have htext : compactChars (.array items) ++ rest =
        '[' :: (separated [','] (compactItems items) ++ ']' :: rest) := by
      simp [compactChars]
    rw [htext]
    cases items with
    | nil => rfl
    | cons v items =>
      simp only [compactChars, List.length_cons, List.length_append] at hfuel
      have hread : scanItems fuel (separated [','] (compactItems (v :: items)) ++ ']' :: rest) = _ :=
        scanItems_compact (List.cons_ne_nil v items) hfound (by omega)
      obtain ⟨c, text, hhead, hstart⟩ := (hitems v List.mem_cons_self).exists_start
      obtain ⟨more, hmore⟩ : ∃ more, separated [','] (compactItems (v :: items)) ++ ']' :: rest = c :: more := by
        cases items <;> simp [compactItems, separated, hhead]
      rw [hmore] at hread ⊢
      rw [scanValue_array hstart, hread]
      rfl

theorem found_object (hkeys : ∀ p ∈ members, Scans p.1) (hfound : ∀ p ∈ members, p.2.Found) :
    (object members).Found := by
  rintro (_ | fuel) rest hfuel -
  · cases hfuel
  · have htext : compactChars (.object members) ++ rest =
        '\x7b' :: (separated [','] (compactMembers members) ++ '\x7d' :: rest) := by
      simp [compactChars]
    rw [htext]
    cases members with
    | nil => rfl
    | cons p members =>
      simp only [compactChars, List.length_cons, List.length_append] at hfuel
      have hread : scanMembers fuel (separated [','] (compactMembers (p :: members)) ++ '\x7d' :: rest) = _ :=
        scanMembers_compact (List.cons_ne_nil p members) hkeys hfound (by omega)
      obtain ⟨more, hmore⟩ : ∃ more,
          separated [','] (compactMembers (p :: members)) ++ '\x7d' :: rest = '"' :: more := by
        cases members <;> simp [compactMembers, separated]
      rw [hmore] at hread ⊢
      rw [scanValue_object, hread]
      rfl

/-- The text of a well-formed value is read as the value, whatever follows. -/
theorem WellFormed.found (h : v.WellFormed) : v.Found := by
  induction h with
  | null =>
    rintro (_ | fuel) rest hfuel -
    · cases hfuel
    · rfl
  | bool b =>
    rintro (_ | fuel) rest hfuel -
    · cases b <;> cases hfuel
    · cases b <;> rfl
  | number hreads => exact found_number hreads
  | string hscans => exact found_string hscans
  | array hitems ih => exact found_array hitems ih
  | object hkeys _ ih => exact found_object hkeys ih

theorem WellFormed.parse?_compact (h : v.WellFormed) : parse? v.compact = some v := by
  rw [parse?, compact, String.toList_ofList, parseChars?]
  have hfound := h.found (2 * v.compactChars.length + 2) [] (by omega) (by rintro c ⟨⟩)
  rw [List.append_nil] at hfound
  rw [hfound]
  rfl

/-! ## Written integers, floats and byte strings -/

theorem ofChars?_ofInt (n : Int) :
    Numeral.ofChars? (if n < 0 then '-' :: Nat.toDigits 10 n.natAbs else Nat.toDigits 10 n.natAbs) =
      some ⟨decide (n < 0), Nat.toDigits 10 n.natAbs, none, none⟩ := by
  have hread := Numeral.unsigned?_whole (decide (n < 0)) (Decimal.isWhole_toDigits n.natAbs) Numeral.isTail_nil
  rw [List.append_nil] at hread
  have hsign := Numeral.ofChars?_sign _ hread
  by_cases hn : n < 0
  · rw [if_pos hn]
    simpa [hn] using hsign
  · rw [if_neg hn]
    simpa [hn] using hsign

/-- An integer that fits 64 bits, with a sign or without, is read as itself. -/
theorem toInt?_ofInt {n : Int} (hlow : -2 ^ 63 ≤ n) (hhigh : n < 2 ^ 64) : (ofInt n).toInt? = some n := by
  rw [ofInt, toInt?, ofChars?_ofInt, Option.bind_some, Numeral.toInt?]
  simp only [Option.isSome_none, Bool.false_eq_true, or_self, if_false, Nat.ofDigitChars_ten_toDigits,
    decide_eq_true_eq]
  split
  · rw [if_neg (by omega)]
    congr 1
    omega
  · rw [if_pos (by omega)]
    congr 1
    omega

theorem wellFormed_ofInt (n : Int) : (ofInt n).WellFormed :=
  .number (by rw [ofChars?_ofInt]; rfl)

theorem ofNat_eq_ofInt (n : Nat) : ofNat n = ofInt n := by
  rw [ofNat, ofInt, if_neg (by omega), Int.natAbs_natCast]

theorem toNatBelow?_ofNat {bound n : Nat} (hn : n < bound) (hbound : bound ≤ 2 ^ 64) :
    (ofNat n).toNatBelow? bound = some n := by
  rw [toNatBelow?, ofNat_eq_ofInt, toInt?_ofInt (by omega) (by omega)]
  exact if_pos hn

theorem wellFormed_ofBytes (bytes : Bytes) : (ofBytes bytes).WellFormed := by
  refine .array fun v hv => ?_
  obtain ⟨b, -, rfl⟩ := List.mem_map.1 hv
  rw [ofNat_eq_ofInt]
  exact wellFormed_ofInt _

theorem toBytes?_ofBytes (bytes : Bytes) : (ofBytes bytes).toBytes? = some bytes := by
  have hbyte : ∀ b : UInt8, ((ofNat b.toNat).toNatBelow? 256).map UInt8.ofNat = some b := by
    intro b
    rw [toNatBelow?_ofNat b.toNat_lt (by omega), Option.map_some, UInt8.ofNat_toNat]
  change (bytes.map fun b => ofNat b.toNat).mapM _ = some bytes
  induction bytes with
  | nil => rfl
  | cons b bytes ih => rw [List.map_cons, List.mapM_cons, hbyte, ih]; rfl

theorem wellFormed_ofFloat (x : Binary64) : (ofFloat x).WellFormed := by
  unfold ofFloat
  split
  case isTrue hx =>
    obtain ⟨n, hn, -⟩ := Numeral.exists_writes hx
    exact .number (by rw [hn]; rfl)
  case isFalse => exact .null

/-- A float is read back if it is finite; all others are written as no number at all. -/
theorem isSome_toFloat?_ofFloat (x : Binary64) : (ofFloat x).toFloat?.isSome = x.isFinite := by
  unfold ofFloat
  split
  case isTrue hx =>
    obtain ⟨n, hn, hwrites⟩ := Numeral.exists_writes hx
    rw [toFloat?, hn, Option.bind_some, hwrites.isSome_toFloat? (of_decide_eq_true hx), hx]
  case isFalse hx =>
    rw [Bool.not_eq_true] at hx
    rw [hx]
    rfl

/-! ## Records -/

theorem unescape?_key (name : String) : unescape? (key name) = some name.toList := unescape?_escape _

theorem namedMembers?_zip (names : List String) (values : List Json) :
    namedMembers? ((names.map key).zip values) = some (names.zip values) := by
  induction names generalizing values with
  | nil => rfl
  | cons name names ih =>
    cases values with
    | nil => rfl
    | cons v values =>
      rw [List.map_cons, List.zip_cons_cons, List.zip_cons_cons, namedMembers?, unescape?_key, ih]
      dsimp only
      rw [String.ofList_toList]

/-- Of names that are all different each one is found with its value. -/
theorem single?_of_mem {named : List (String × Json)} (hnodup : (named.map (·.1)).Nodup) {name : String}
    (h : (name, v) ∈ named) : single? named name = some (some v) := by
  have hfilter : named.filter (·.1 == name) = [(name, v)] := by
    induction named with
    | nil => cases h
    | cons p named ih =>
      rw [List.map_cons, List.nodup_cons] at hnodup
      rcases List.mem_cons.1 h with rfl | h
      · rw [List.filter_cons_of_pos (p := fun q : String × Json => q.1 == name) (beq_self_eq_true name)]
        congr 1
        refine List.filter_eq_nil_iff.2 fun q hq heq => hnodup.1 ?_
        exact List.mem_map.2 ⟨q, hq, eq_of_beq heq⟩
      · have hne : p.1 ≠ name := fun heq => hnodup.1 (List.mem_map.2 ⟨(name, v), h, heq.symm⟩)
        rw [List.filter_cons_of_neg (by simpa using hne), ih hnodup.2 h]
  rw [single?, hfilter]

/-- An object with one member for each field is a record of its values. -/
theorem fields?_zip (lenient : Bool) {names : List String} {values : List Json} (hnodup : names.Nodup)
    (hlength : names.length = values.length) :
    fields? lenient names (object ((names.map key).zip values)) = some (values.map some) := by
  have hnames : (names.zip values).map (·.1) = names := List.map_fst_zip (Nat.le_of_eq hlength)
  have hall : ∀ p ∈ names.zip values, single? (names.zip values) p.1 = some (some p.2) := fun p hp =>
    single?_of_mem (hnames.symm ▸ hnodup) hp
  rw [fields?, namedMembers?_zip]
  change names.mapM (single? (names.zip values)) = _
  generalize single? (names.zip values) = lookup at hall
  clear hnodup hnames
  induction names generalizing values with
  | nil => cases values with
    | nil => rfl
    | cons => cases hlength
  | cons name names ih => cases values with
    | nil => cases hlength
    | cons v values =>
      have hfirst : lookup name = some (some v) := hall (name, v) List.mem_cons_self
      rw [List.mapM_cons, hfirst, ih (Nat.succ.inj hlength) fun p hp => hall p (List.mem_cons_of_mem _ hp)]
      rfl

end TriadMesh.Json

namespace TriadMesh.Binary64

/-- The float is written as a number with few digits and a small power of ten: the digits as one integer have 53 bits,
and the power of ten left for that integer is from -22 to 22. -/
def IsShort (x : Binary64) : Prop :=
  ∃ n, Numeral.ofChars? (Style.json.renderChars x) = some n ∧ n.IsExact

instance (x : Binary64) : Decidable x.IsShort :=
  decidable_of_iff ((Numeral.ofChars? (Style.json.renderChars x)).any fun n => decide n.IsExact) (by
    rw [Option.any_eq_true]
    simp only [decide_eq_true_eq, IsShort])

theorem IsShort.isFinite {x : Binary64} (h : x.IsShort) : x.isFinite = true := by
  obtain ⟨n, hn, -⟩ := h
  by_contra hx
  have hnull : Style.json.renderChars x = "null".toList := by
    have hcode : ¬x.code < infinityCode := fun hlt => hx (decide_eq_true hlt)
    unfold Style.renderChars
    by_cases hnan : x.isNaN = true
    · rw [if_pos hnan]
      rfl
    · have hinf : x.isInfinite = true := by
        have : ¬infinityCode < x.code := fun hlt => hnan (decide_eq_true hlt)
        exact decide_eq_true (by omega)
      rw [if_neg hnan, if_pos hinf]
      cases x.negative <;> rfl
  rw [hnull] at hn
  cases hn

/-- A float that is written shortly is read back bit for bit. -/
theorem IsShort.toFloat?_ofFloat {x : Binary64} (h : x.IsShort) : (Json.ofFloat x).toFloat? = some x := by
  have hx := h.isFinite
  obtain ⟨n, hn, hexact⟩ := h
  obtain ⟨n', hn', hwrites⟩ := Numeral.exists_writes hx
  obtain rfl : n = n' := Option.some.inj (hn.symm.trans hn')
  rw [Json.ofFloat, if_pos hx, Json.toFloat?, hn, Option.bind_some, hwrites.toFloat?_of_isExact hx hexact]

end TriadMesh.Binary64
