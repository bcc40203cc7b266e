import TriadMesh.Proofs.JsonText
import TriadMesh.Proofs.Routing

/-!
# Points of the routing space as text

A text is read as a point exactly if it consists of 64 digits, and its lower case is the text of that point. Reading
works on bytes, but a text has the same digits in it whether it is looked at as characters or as bytes, as no byte of a
character outside of ASCII is a digit. What is wrong with any other text is the first that applies of three things
(`hex_keys`).
-/

namespace TriadMesh

variable {text front rest : Bytes} {b : UInt8} {c : Char} {s : String} {chars : List Char}

/-! ## Digits -/

namespace Text

/-- A hexadecimal digit of either case. -/
def IsHexDigit (c : Char) : Prop := '0' ≤ c ∧ c ≤ '9' ∨ 'a' ≤ c ∧ c ≤ 'f' ∨ 'A' ≤ c ∧ c ≤ 'F'

instance (c : Char) : Decidable (IsHexDigit c) :=
  inferInstanceAs (Decidable ('0' ≤ c ∧ c ≤ '9' ∨ 'a' ≤ c ∧ c ≤ 'f' ∨ 'A' ≤ c ∧ c ≤ 'F'))

theorem isSome_hexValue?_iff : (hexValue? c).isSome ↔ IsHexDigit c := by
  unfold hexValue? IsHexDigit
  split
  case isTrue h => exact iff_of_true rfl (.inl h)
  case isFalse hdigit =>
    split
    case isTrue h => exact iff_of_true rfl (.inr (.inl h))
    case isFalse hlower =>
      split
      case isTrue h => exact iff_of_true rfl (.inr (.inr h))
      case isFalse hupper =>
        refine iff_of_false Bool.false_ne_true ?_
        rintro (h | h | h)
        · exact hdigit h
        · exact hlower h
        · exact hupper h

theorem IsHexDigit.toNat_lt (h : IsHexDigit c) : c.toNat < 128 := by
  have hle : ∀ d : Char, d.toNat < 128 → c ≤ d → c.toNat < 128 := fun d hd hcd =>
    Nat.lt_of_le_of_lt (UInt32.le_iff_toNat_le.1 hcd) hd
  rcases h with ⟨-, h⟩ | ⟨-, h⟩ | ⟨-, h⟩
  · exact hle '9' (by decide) h
  · exact hle 'f' (by decide) h
  · exact hle 'F' (by decide) h

/-- A digit is in lower case the digit of its value. -/
theorem hexDigit_of_hexValue? {n : Nat} (h : hexValue? c = some n) : n < 16 ∧ hexDigit n = c.toLower := by
  have hall : ∀ k < 128, ∀ n ∈ hexValue? (Char.ofNat k), n < 16 ∧ hexDigit n = (Char.ofNat k).toLower := by
    decide +kernel
  have hdigit : IsHexDigit c := isSome_hexValue?_iff.1 (Option.isSome_iff_exists.2 ⟨n, h⟩)
  have hc := hall c.toNat hdigit.toNat_lt
  rw [Char.ofNat_toNat] at hc
  exact hc n h

theorem isHexDigit_hexDigit : ∀ n < 16, IsHexDigit (hexDigit n) := by decide

end Text

/-! ## Characters and bytes -/

namespace Bytes

theorem ofText_eq_flatMap (s : String) : ofText s = s.toList.flatMap String.utf8EncodeChar := by
  rw [ofText, ByteArray.toList, toList_loop, List.drop_zero, List.reverse_nil, List.nil_append, String.toUTF8,
    ← String.utf8Encode_toList, List.utf8Encode, List.data_toByteArray]

theorem utf8EncodeChar_of_lt (h : c.toNat < 128) : String.utf8EncodeChar c = [UInt8.ofNat c.toNat] := by
  unfold String.utf8EncodeChar
  exact if_pos (Nat.le_of_lt_succ h)

theorem ofText_ofList (h : ∀ c ∈ chars, c.toNat < 128) :
    ofText (String.ofList chars) = chars.map fun c => UInt8.ofNat c.toNat := by
  rw [ofText_eq_flatMap, String.toList_ofList]
  induction chars with
  | nil => rfl
  | cons c chars ih =>
    rw [List.forall_mem_cons] at h
    rw [List.flatMap_cons, utf8EncodeChar_of_lt h.1, ih h.2]
    rfl

end Bytes

namespace Hex

/-- A byte that is a digit. -/
def IsDigit (b : UInt8) : Prop := Text.IsHexDigit (Char.ofNat b.toNat)

instance (b : UInt8) : Decidable (IsDigit b) := inferInstanceAs (Decidable (Text.IsHexDigit (Char.ofNat b.toNat)))

theorem char_of_lt (h : c.toNat < 128) : Char.ofNat (UInt8.ofNat c.toNat).toNat = c := by
  rw [UInt8.toNat_ofNat_of_lt' (Nat.lt_trans h (by decide)), Char.ofNat_toNat]

theorem digitValue?_eq_none_iff : digitValue? b = none ↔ ¬IsDigit b := by
  rw [← Option.not_isSome_iff_eq_none, digitValue?, Text.isSome_hexValue?_iff, IsDigit]

/-- A byte of a character outside of ASCII is no digit. -/
theorem not_isDigit_of_ge (h : 128 ≤ b.toNat) : ¬IsDigit b := by
  have hall : ∀ k < 256, 128 ≤ k → ¬Text.IsHexDigit (Char.ofNat k) := by decide +kernel
  exact hall b.toNat b.toNat_lt h

/-- A character is a digit exactly if all its bytes are. -/
theorem isDigit_utf8EncodeChar_iff : (∀ b ∈ String.utf8EncodeChar c, IsDigit b) ↔ Text.IsHexDigit c := by
  by_cases hc : c.toNat < 128
  · rw [Bytes.utf8EncodeChar_of_lt hc, List.forall_mem_singleton, IsDigit, char_of_lt hc]
  · refine iff_of_false ?_ fun h => hc h.toNat_lt
    intro hdigits
    obtain ⟨b, hb, hge⟩ : ∃ b ∈ String.utf8EncodeChar c, 128 ≤ b.toNat := by
      have hc' : ¬c.val.toNat ≤ 127 := fun hle => hc (Nat.lt_succ_of_le hle)
      unfold String.utf8EncodeChar
      simp only [if_neg hc']
      split
      · exact ⟨_, List.mem_cons_self, by simp; omega⟩
      · split
        · exact ⟨_, List.mem_cons_self, by simp; omega⟩
        · exact ⟨_, List.mem_cons_self, by simp; omega⟩
    exact not_isDigit_of_ge hge (hdigits b hb)

theorem isDigit_ofText_iff : (∀ b ∈ Bytes.ofText s, IsDigit b) ↔ ∀ c ∈ s.toList, Text.IsHexDigit c := by
  rw [Bytes.ofText_eq_flatMap, List.forall_mem_flatMap]
  exact forall₂_congr fun c _ => isDigit_utf8EncodeChar_iff

/-- A text of digits has one byte for each character. -/
theorem ofText_of_digits (h : ∀ c ∈ s.toList, Text.IsHexDigit c) :
    Bytes.ofText s = s.toList.map fun c => UInt8.ofNat c.toNat := by
  rw [← Bytes.ofText_ofList fun c hc => (h c hc).toNat_lt, String.ofList_toList]

/-! ## Writing and reading bytes -/

theorem isHexDigit_encodeByte (b : UInt8) : ∀ c ∈ encodeByte b, Text.IsHexDigit c := by
  have hb := b.toNat_lt
  rw [encodeByte, List.forall_mem_cons, List.forall_mem_singleton]
  exact ⟨Text.isHexDigit_hexDigit _ (by omega), Text.isHexDigit_hexDigit _ (by omega)⟩

theorem isHexDigit_encodeChars (bytes : Bytes) : ∀ c ∈ encodeChars bytes, Text.IsHexDigit c :=
  List.forall_mem_flatMap.2 fun b _ => isHexDigit_encodeByte b

theorem length_encodeChars (bytes : Bytes) : (encodeChars bytes).length = 2 * bytes.length := by
  induction bytes with
  | nil => rfl
  | cons b bytes ih =>
    rw [encodeChars, List.flatMap_cons, List.length_append, ← encodeChars, ih, List.length_cons, encodeByte]
    simp only [List.length_cons, List.length_nil]
    omega

theorem decodePairs_encodeChars (bytes : Bytes) (offset : Nat) :
    decodePairs offset ((encodeChars bytes).map fun c => UInt8.ofNat c.toNat) = .ok bytes := by
  induction bytes generalizing offset with
  | nil => rfl
  | cons b bytes ih =>
    have hb := b.toNat_lt
    have hdigit : ∀ n < 16, digitValue? (UInt8.ofNat (Text.hexDigit n).toNat) = some n := by
      intro n hn
      rw [digitValue?, char_of_lt (Text.isHexDigit_hexDigit n hn).toNat_lt, Json.hexValue?_hexDigit n hn]
    have hbyte : UInt8.ofNat (16 * (b.toNat / 16) + b.toNat % 16) = b := by
      rw [Nat.div_add_mod, UInt8.ofNat_toNat]
    rw [encodeChars, List.flatMap_cons, ← encodeChars, encodeByte, List.map_append, List.map_cons, List.map_cons,
      List.map_nil, List.cons_append, List.cons_append, List.nil_append, decodePairs, hdigit _ (by omega),
      hdigit _ (by omega)]
    dsimp only
    rw [ih, hbyte]
    rfl

/-- Pairs of digits are read as bytes, and written again they are in lower case. -/
theorem decodePairs_of_digits (heven : text.length % 2 = 0) (hdigits : ∀ b ∈ text, IsDigit b) (offset : Nat) :
    ∃ bytes, decodePairs offset text = .ok bytes ∧
      encodeChars bytes = text.map fun b => (Char.ofNat b.toNat).toLower := by
  induction offset, text using decodePairs.induct with
  | case1 offset high low rest hhigh => exact absurd (hdigits high (by simp)) (digitValue?_eq_none_iff.1 hhigh)
  | case2 offset high low rest h hlow hhigh => exact absurd (hdigits low (by simp)) (digitValue?_eq_none_iff.1 hlow)
  | case3 offset high low rest h l hlow hhigh ih =>
    rw [List.forall_mem_cons, List.forall_mem_cons] at hdigits
    obtain ⟨bytes, hread, hwritten⟩ := ih (by rw [List.length_cons, List.length_cons] at heven; omega) hdigits.2.2
    obtain ⟨hh, hhchar⟩ := Text.hexDigit_of_hexValue? hhigh
    obtain ⟨hl, hlchar⟩ := Text.hexDigit_of_hexValue? hlow
    have hvalue : (UInt8.ofNat (16 * h + l)).toNat = 16 * h + l := UInt8.toNat_ofNat_of_lt' (by rw [UInt8.size]; omega)
    have hbyte : encodeByte (UInt8.ofNat (16 * h + l)) = [Text.hexDigit h, Text.hexDigit l] := by
      rw [encodeByte, hvalue, show (16 * h + l) / 16 = h by omega, show (16 * h + l) % 16 = l by omega]
    refine ⟨UInt8.ofNat (16 * h + l) :: bytes, ?_, ?_⟩
    · rw [decodePairs, hhigh, hlow]
      dsimp only
      rw [hread]
      rfl
    · rw [encodeChars, List.flatMap_cons, ← encodeChars, hwritten, hbyte, hhchar, hlchar]
      rfl
  | case4 text offset hshort =>
    match text, heven with
    | [], _ => exact ⟨[], rfl, rfl⟩
    | high :: low :: rest, _ => exact (hshort high low rest rfl).elim

/-- The first byte that is no digit is the one that is told of. -/
theorem decodePairs_of_invalid (heven : text.length % 2 = 0) (htext : text = front ++ b :: rest)
    (hfront : ∀ a ∈ front, IsDigit a) (hb : ¬IsDigit b) (offset : Nat) :
    decodePairs offset text = .error (.invalidDigit b (offset + front.length)) := by
  induction offset, text using decodePairs.induct generalizing front with
  | case1 offset high low tail hhigh =>
    cases front with
    | nil =>
      cases htext
      rw [decodePairs, hhigh]
      rfl
    | cons a front =>
      obtain ⟨rfl, -⟩ : high = a ∧ low :: tail = front ++ b :: rest := by simpa using htext
      exact absurd (hfront high List.mem_cons_self) (digitValue?_eq_none_iff.1 hhigh)
  | case2 offset high low tail h hlow hhigh =>
    match front with
    | [] =>
      cases htext
      rw [digitValue?_eq_none_iff.2 hb] at hhigh
      cases hhigh
    | [a] =>
      cases htext
      rw [decodePairs, hhigh, hlow]
      rfl
    | a :: a' :: front =>
      obtain ⟨-, rfl, -⟩ : high = a ∧ low = a' ∧ tail = front ++ b :: rest := by simpa using htext
      exact absurd (hfront low (by simp)) (digitValue?_eq_none_iff.1 hlow)
  | case3 offset high low tail h l hlow hhigh ih =>
    match front with
    | [] =>
      cases htext
      rw [digitValue?_eq_none_iff.2 hb] at hhigh
      cases hhigh
    | [a] =>
      cases htext
      rw [digitValue?_eq_none_iff.2 hb] at hlow
      cases hlow
    | a :: a' :: front =>
      obtain ⟨-, -, rfl⟩ : high = a ∧ low = a' ∧ tail = front ++ b :: rest := by simpa using htext
      rw [List.forall_mem_cons, List.forall_mem_cons] at hfront
      have hrest := ih (by rw [List.length_cons, List.length_cons] at heven; omega) rfl hfront.2.2
      rw [decodePairs, hhigh, hlow]
      dsimp only
      rw [hrest, List.length_cons, List.length_cons, Nat.add_right_comm offset, Nat.add_assoc offset]
      rfl
  | case4 text offset hshort =>
    match text, heven with
    | [], _ => cases front <;> cases htext
    | high :: low :: tail, _ => exact (hshort high low tail rfl).elim

end Hex

namespace Digest

variable {d : Digest} {e : RouteKeyError}

/-- What is wrong with a text that is no point: its length is odd, or there is a first byte that is no digit, or the
number of its bytes is wrong. An earlier fault hides the later ones. -/
inductive Misspelt (s : String) : RouteKeyError → Prop where
  | oddLength (hodd : (Bytes.ofText s).length % 2 = 1) : Misspelt s (.notHex s .oddLength)
  | invalidDigit {front rest : Bytes} {b : UInt8} (heven : (Bytes.ofText s).length % 2 = 0)
      (htext : Bytes.ofText s = front ++ b :: rest) (hfront : ∀ a ∈ front, Hex.IsDigit a) (hb : ¬Hex.IsDigit b) :
      Misspelt s (.notHex s (.invalidDigit b front.length))
  | wrongLength (heven : (Bytes.ofText s).length % 2 = 0) (hdigits : ∀ b ∈ Bytes.ofText s, Hex.IsDigit b)
      (hlength : (Bytes.ofText s).length ≠ 64) : Misspelt s (.wrongLength ((Bytes.ofText s).length / 2))

theorem exists_ofList? {bytes : Bytes} (h : bytes.length = 32) : ∃ d, ofList? bytes = some d ∧ d.toList = bytes := by
  rw [ofList?, dif_pos h]
  exact ⟨_, rfl, rfl⟩

theorem ofList?_toList (d : Digest) : ofList? d.toList = some d := by
  obtain ⟨d', hd', hlist⟩ := exists_ofList? d.length_toList
  rw [hd', toList_injective hlist]

theorem ofList?_of_length_ne {bytes : Bytes} (h : bytes.length ≠ 32) : ofList? bytes = none := dif_neg h

/-- The text of a point is read as the point. -/
theorem ofHex_toHex (d : Digest) : ofHex d.toHex = .ok d := by
  have hbytes : Bytes.ofText d.toHex = (Hex.encodeChars d.toList).map fun c => UInt8.ofNat c.toNat :=
    Bytes.ofText_ofList fun c hc => (Hex.isHexDigit_encodeChars d.toList c hc).toNat_lt
  have hdecode : Hex.decode (Bytes.ofText d.toHex) = .ok d.toList := by
    rw [Hex.decode, hbytes, if_neg (by rw [List.length_map, Hex.length_encodeChars]; omega),
      Hex.decodePairs_encodeChars]
  rw [ofHex, hdecode]
  dsimp only
  rw [ofList?_toList]

/-- Sixty-four digits are read as a point, the text of which is their lower case. -/
theorem exists_ofHex (hlength : s.length = 64) (hdigits : ∀ c ∈ s.toList, Text.IsHexDigit c) :
    ∃ d, ofHex s = .ok d ∧ d.toHex = s.toLower := by
  have hbytes := Hex.ofText_of_digits hdigits
  have heven : (Bytes.ofText s).length % 2 = 0 := by rw [hbytes, List.length_map, String.length_toList, hlength]
  obtain ⟨bytes, hread, hwritten⟩ := Hex.decodePairs_of_digits heven (Hex.isDigit_ofText_iff.2 hdigits) 0
  have hchars : Hex.encodeChars bytes = s.toList.map Char.toLower := by
    rw [hwritten, hbytes, List.map_map]
    exact List.map_congr_left fun c hc => congrArg Char.toLower (Hex.char_of_lt (hdigits c hc).toNat_lt)
  have hcount : bytes.length = 32 := by
    have hsame := congrArg List.length hchars
    rw [Hex.length_encodeChars, List.length_map, String.length_toList, hlength] at hsame
    omega
  obtain ⟨d, hd, hlist⟩ := exists_ofList? hcount
  refine ⟨d, ?_, ?_⟩
  · rw [ofHex, Hex.decode, if_neg (by omega), hread]
    dsimp only
    rw [hd]
  · have hlower : s.toLower.toList = s.toList.map Char.toLower := String.toList_map
    rw [toHex, Hex.encode, hlist, hchars, ← hlower, String.ofList_toList]

/-- The fault of a text is what is told of it. -/
theorem Misspelt.ofHex_eq (h : Misspelt s e) : ofHex s = .error e := by
  cases h with
  | oddLength hodd => rw [ofHex, Hex.decode, if_pos hodd]
  | invalidDigit heven htext hfront hb =>
    rw [ofHex, Hex.decode, if_neg (by omega), Hex.decodePairs_of_invalid heven htext hfront hb, Nat.zero_add]
  | wrongLength heven hdigits hlength =>
    obtain ⟨bytes, hread, hwritten⟩ := Hex.decodePairs_of_digits heven hdigits 0
    have hcount := congrArg List.length hwritten
    rw [Hex.length_encodeChars, List.length_map] at hcount
    rw [ofHex, Hex.decode, if_neg (by omega), hread]
    dsimp only
    rw [ofList?_of_length_ne (by omega), show bytes.length = (Bytes.ofText s).length / 2 by omega]

/-- There is a fault in any text that does not consist of 64 digits. -/
theorem exists_misspelt (h : ¬(s.length = 64 ∧ ∀ c ∈ s.toList, Text.IsHexDigit c)) : ∃ e, Misspelt s e := by
  by_cases hodd : (Bytes.ofText s).length % 2 = 1
  · exact ⟨_, .oddLength hodd⟩
  have heven : (Bytes.ofText s).length % 2 = 0 := by omega
  by_cases hdigits : ∀ b ∈ Bytes.ofText s, Hex.IsDigit b
  · refine ⟨_, .wrongLength heven hdigits fun hlength => h ?_⟩
    have hchars := Hex.isDigit_ofText_iff.1 hdigits
    rw [Hex.ofText_of_digits hchars, List.length_map, String.length_toList] at hlength
    exact ⟨hlength, hchars⟩
  · obtain ⟨b, hfind⟩ : ∃ b, (Bytes.ofText s).find? (fun a => decide ¬Hex.IsDigit a) = some b := by
      rw [← Option.isSome_iff_exists, List.find?_isSome]
      simpa using hdigits
    obtain ⟨hb, front, rest, htext, hfront⟩ := List.find?_eq_some_iff_append.1 hfind
    exact ⟨_, .invalidDigit heven htext (fun a ha => by simpa using hfront a ha) (of_decide_eq_true hb)⟩

theorem ofHex_cases (s : String) :
    ((s.length = 64 ∧ ∀ c ∈ s.toList, Text.IsHexDigit c) ∧ ∃ d, ofHex s = .ok d ∧ d.toHex = s.toLower) ∨
      ¬(s.length = 64 ∧ ∀ c ∈ s.toList, Text.IsHexDigit c) ∧ ∃ e, ofHex s = .error e ∧ Misspelt s e := by
  by_cases h : s.length = 64 ∧ ∀ c ∈ s.toList, Text.IsHexDigit c
  · exact .inl ⟨h, exists_ofHex h.1 h.2⟩
  · obtain ⟨e, he⟩ := exists_misspelt h
    exact .inr ⟨h, e, he.ofHex_eq, he⟩

/-- A text is read as a point exactly if it consists of 64 digits of either case. A point is read back from its text,
and the text of a point that was read is the lower case of what was read. Of any other text the first fault is told. -/
theorem hex_keys (s : String) :
    ((∃ d, ofHex s = .ok d) ↔ s.length = 64 ∧ ∀ c ∈ s.toList, Text.IsHexDigit c) ∧
      (∀ d : Digest, ofHex d.toHex = .ok d) ∧
      (∀ d, ofHex s = .ok d → d.toHex = s.toLower) ∧
      ∀ e, ofHex s = .error e ↔ Misspelt s e := by
  rcases ofHex_cases s with ⟨hdigits, d, hd, hlower⟩ | ⟨hdigits, e, he, hmisspelt⟩
  · refine ⟨iff_of_true ⟨d, hd⟩ hdigits, ofHex_toHex, ?_, fun e => ⟨?_, Misspelt.ofHex_eq⟩⟩
    · intro d' hd'
      cases hd.symm.trans hd'
      exact hlower
    · intro he
      cases hd.symm.trans he
  · refine ⟨iff_of_false ?_ hdigits, ofHex_toHex, ?_, fun e' => ⟨?_, Misspelt.ofHex_eq⟩⟩
    · rintro ⟨d, hd⟩
      cases he.symm.trans hd
    · intro d hd
      cases he.symm.trans hd
    · intro he'
      cases he.symm.trans he'
      exact hmisspelt

/-- Of three faults the first is told: the second byte is no digit, nor are the two of the last character, and four
bytes are too few. -/
example : ofHex "0né" = .error (.notHex "0né" (.invalidDigit 110 1)) := by decide +kernel

end Digest

end TriadMesh
