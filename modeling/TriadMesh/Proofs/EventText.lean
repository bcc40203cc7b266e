import TriadMesh.Mesh.Json
import TriadMesh.Proofs.Arithmetic
import TriadMesh.Proofs.JsonText

/-!
# Events survive JSON

The text of an event is always read back, with the same node and the same kind. A value that is no number is lost. Any
other one comes back finite and with its sign, and as itself if it is written with few digits and a small power of ten
(`event_survival`).
-/

namespace TriadMesh

/-! ## Floats that are read -/

namespace Binary64

variable {x y : Binary64}

/-- A finite float without a sign. -/
structure Plain (x : Binary64) : Prop where
  finite : x.isFinite = true
  positive : x.negative = false

theorem not_isNaN_ofRatio (neg : Bool) (num den : Nat) : (ofRatio neg num den).isNaN = false := by
  refine decide_eq_false ?_
  rw [code_ofRatio, codeOfRatio_eq_min]
  omega

/-- A product of finite floats is no NaN, so it is finite or infinite. -/
theorem Plain.mul (hx : x.Plain) (hy : y.Plain) (hbound : (x * y).isInfinite = false) : (x * y).Plain := by
  have hmul := mul_eq hx.finite hy.finite
  refine ⟨isFinite_iff.2 ⟨?_, hbound⟩, ?_⟩
  · rw [hmul, not_isNaN_ofRatio]
  · rw [hmul, negative_ofRatio, hx.positive, hy.positive, bne_self_eq_false]

/-- No quotient by one or more is too large. -/
theorem Plain.div (hx : x.Plain) (hy : y.Plain) (hone : unitsInOne ≤ y.units) : (x / y).Plain := by
  have hzero : y.isZero = false := by
    refine decide_eq_false fun hcode => ?_
    rw [units, hcode, unitsOfCode_zero] at hone
    exact absurd unitsInOne_pos (by omega)
  have hdiv := div_eq hx.finite hy.finite hzero
  refine ⟨?_, ?_⟩
  · have hcode : x.code < infinityCode := of_decide_eq_true hx.finite
    have hunits : x.units ≤ unitsOfCode (infinityCode - 1) :=
      unitsOfCode_strictMono.monotone (show x.code ≤ infinityCode - 1 by omega)
    have htop : unitsOfCode (infinityCode - 1) < unitsOfCode infinityCode := unitsOfCode_strictMono (by decide)
    rw [hdiv, isFinite_ofRatio_iff]
    refine codeOfRatio_lt_infinityCode (Nat.lt_of_lt_of_le unitsInOne_pos hone) ?_
    calc 2 * (x.units * unitsInOne) = 2 * x.units * unitsInOne := (Nat.mul_assoc _ _ _).symm
      _ < (unitsOfCode (infinityCode - 1) + unitsOfCode infinityCode) * unitsInOne :=
        Nat.mul_lt_mul_of_pos_right (by omega) unitsInOne_pos
      _ ≤ (unitsOfCode (infinityCode - 1) + unitsOfCode infinityCode) * y.units := Nat.mul_le_mul_left _ hone
  · rw [hdiv, negative_ofRatio, hx.positive, hy.positive, bne_self_eq_false]

/-- What is not less than one is not rounded to less. -/
theorem unitsInOne_le_units {k : Nat} (hk : 0 < k) (hfin : codeOfRatio (k * unitsInOne) 1 < infinityCode) :
    unitsInOne ≤ unitsOfCode (codeOfRatio (k * unitsInOne) 1) := by
  have hone : unitsOfCode (1023 * 2 ^ 52) = unitsInOne := by decide +kernel
  have hhigh := (roundsTo_codeOfRatio Nat.one_pos hfin).high
  generalize codeOfRatio (k * unitsInOne) 1 = r at hhigh ⊢
  by_contra hlt
  have hr : r < 1023 * 2 ^ 52 := unitsOfCode_strictMono.lt_iff_lt.1 (by omega)
  have hsucc : unitsOfCode (r + 1) ≤ unitsOfCode (1023 * 2 ^ 52) := unitsOfCode_strictMono.monotone hr
  have := Nat.le_mul_of_pos_left unitsInOne hk
  omega

end Binary64

namespace Numeral

open Binary64

variable {x y : Binary64} {e : Int} {n : Numeral} {c : Nat} {negative : Bool}

theorem plain_ofRatio {k j : Nat} (hk : 0 < k) (hbound : k ≤ 10 ^ j) (hj : j ≤ 308) :
    (ofRatio false (k * unitsInOne) 1).Plain ∧ unitsInOne ≤ (ofRatio false (k * unitsInOne) 1).units := by
  have hnearly := nearly_ofRatio hk hbound hj
  refine ⟨⟨hnearly.finite, hnearly.positive⟩, ?_⟩
  rw [units, code_ofRatio]
  exact unitsInOne_le_units hk (isFinite_ofRatio_iff.1 hnearly.finite)

theorem plain_powerOfTen {j : Nat} (hj : j ≤ 308) : (powerOfTen j).Plain ∧ unitsInOne ≤ (powerOfTen j).units := by
  rw [powerOfTen_eq hj]
  exact plain_ofRatio (Nat.pow_pos (by omega)) (Nat.le_refl _) hj

theorem plain_ofInt {s : Nat} (hs : s ≤ 10 ^ 20) : (ofInt s).Plain := by
  rcases Nat.eq_zero_or_pos s with rfl | hpos
  · exact ⟨by decide +kernel, by decide +kernel⟩
  · rw [ofInt_natCast]
    exact (plain_ofRatio hpos hs (by omega)).1

/-- A float that is brought to a power of ten is still finite, if it is not refused. -/
theorem plain_scale? (hx : x.Plain) (h : scale? x e = some y) : y.Plain := by
  fun_induction scale? x e with
  | case1 x e _ _ =>
    cases h
    exact hx
  | case2 => cases h
  | case3 => cases h
  | case4 x e hhigh hlow product hfinite =>
    rw [← Option.some.inj h]
    exact hx.mul (plain_powerOfTen (by omega)).1 (eq_false_of_ne_true hfinite)
  | case5 x e hhigh hneg hlow =>
    cases h
    obtain ⟨hpower, hone⟩ := plain_powerOfTen (j := (-e).toNat) (by omega)
    exact hx.div hpower hone
  | case6 =>
    cases h
    exact hx
  | case7 x e _ _ _ _ ih =>
    obtain ⟨hpower, hone⟩ := plain_powerOfTen (j := 308) (by omega)
    exact ih (hx.div hpower hone) h

/-- Of a written float the sign is read and a finite magnitude. -/
theorem Writes.isFinite_toFloat? (h : n.Writes negative (shortest false c)) (hfin : c < infinityCode)
    (hy : n.toFloat? = some y) : y.isFinite = true ∧ y.negative = negative := by
  rw [h.toFloat?_eq hfin] at hy
  obtain ⟨z, hz, rfl⟩ := Option.map_eq_some_iff.1 hy
  have hsig : n.significand ≤ 10 ^ 20 := by
    have hlt := h.significand_lt
    have := significand_shortest_lt false hfin
    omega
  have hplain := plain_scale? (plain_ofInt hsig) hz
  rw [← h.negative]
  cases n.negative with
  | false => exact ⟨hplain.finite, hplain.positive⟩
  | true =>
    rw [if_pos rfl, isFinite_neg, negative_neg, hplain.positive]
    exact ⟨hplain.finite, rfl⟩

end Numeral

theorem Binary64.isFinite_toFloat?_ofFloat {x y : Binary64} (h : (Json.ofFloat x).toFloat? = some y) :
    y.isFinite = true ∧ y.negative = x.negative := by
  unfold Json.ofFloat at h
  split at h
  case isTrue hx =>
    obtain ⟨n, hn, hwrites⟩ := Numeral.exists_writes hx
    rw [Json.toFloat?, hn, Option.bind_some] at h
    exact hwrites.isFinite_toFloat? (of_decide_eq_true hx) h
  case isFalse => cases h

/-! ## Events -/

namespace Event

variable (e : Event)

theorem ofName?_name (kind : EventKind) : EventKind.ofName? kind.name = some kind := by
  cases kind <;> decide

theorem toText?_ofText (s : String) : (Json.ofText s).toText? = some s := by
  rw [Json.ofText, Json.toText?, Json.unescape?_escape, Option.map_some, String.ofList_toList]

theorem kindOf?_ofText (kind : EventKind) : kindOf? (.ofText kind.name) = some kind := by
  rw [kindOf?, toText?_ofText, Option.bind_some, ofName?_name]
  exact fun _ h => Json.noConfusion h

theorem wellFormed_toJson : e.toJson.WellFormed := by
  refine .object ?_ ?_
  · intro p hp
    obtain ⟨name, -, hname⟩ := List.mem_map.1 (List.of_mem_zip hp).1
    exact hname ▸ Json.scans_escape _
  · intro p hp
    have hvalue := (List.of_mem_zip hp).2
    simp only [List.mem_cons, List.not_mem_nil, or_false] at hvalue
    rcases hvalue with h | h | h <;> rw [h]
    · exact .string (Json.scans_escape _)
    · exact .string (Json.scans_escape _)
    · cases e.value with
      | none => exact .null
      | some x => exact Json.wellFormed_ofFloat x

/-- Any text is a node, also one with quotes, backslashes or control characters in it, and the text of the event is that
of the value. -/
theorem parse?_compact_toJson : Json.parse? e.toJson.compact = some e.toJson :=
  e.wellFormed_toJson.parse?_compact

/-- What is read in place of a value: nothing for a float that is no number. -/
def readBack (value : Option Binary64) : Option Binary64 := value.bind fun x => (Json.ofFloat x).toFloat?

theorem valueOf?_ofFloat (x : Binary64) : valueOf? (some (.ofFloat x)) = some (Json.ofFloat x).toFloat? := by
  have hread := Json.isSome_toFloat?_ofFloat x
  unfold Json.ofFloat at hread ⊢
  split
  case isTrue hx =>
    rw [if_pos hx, hx] at hread
    obtain ⟨y, hy⟩ := Option.isSome_iff_exists.1 hread
    rw [hy, valueOf?, hy]
    · rfl
    · exact fun h => nomatch h
  case isFalse => rfl

/-- Only the value of an event may come back as another. -/
theorem ofJson?_toJson : ofJson? e.toJson = some { e with value := readBack e.value } := by
  rw [ofJson?, toJson, Json.fields?_zip false (by decide) rfl]
  simp only [List.map_cons, List.map_nil, toText?_ofText, kindOf?_ofText]
  obtain ⟨node, kind, value⟩ := e
  cases value with
  | none => rfl
  | some x =>
    dsimp only
    rw [valueOf?_ofFloat]
    rfl

theorem readBack_eq_none_iff (value : Option Binary64) :
    readBack value = none ↔ value = none ∨ ∃ x, value = some x ∧ x.isFinite = false := by
  cases value with
  | none => exact iff_of_true rfl (.inl rfl)
  | some x =>
    have hread := Json.isSome_toFloat?_ofFloat x
    rw [readBack, Option.bind_some, ← Option.not_isSome_iff_eq_none, hread]
    simp

/-- Reads an event from a text. -/
def ofText? (text : String) : Option Event := (Json.parse? text).bind ofJson?

/-- The text of an event is a value, and it is read as an event with the same node and the same kind. Its value is lost
exactly if it is no number; otherwise it is finite, has the same sign, and is the same if it is written shortly. -/
theorem event_survival :
    Json.parse? e.toJson.compact = some e.toJson ∧
      ∃ e', ofText? e.toJson.compact = some e' ∧ e'.node = e.node ∧ e'.kind = e.kind ∧
        (e'.value = none ↔ e.value = none ∨ ∃ x, e.value = some x ∧ x.isFinite = false) ∧
        ∀ y, e'.value = some y → ∃ x, e.value = some x ∧ y.isFinite = true ∧ y.negative = x.negative ∧
          (x.IsShort → y = x) := by
  refine ⟨e.parse?_compact_toJson, { e with value := readBack e.value }, ?_, rfl, rfl, readBack_eq_none_iff e.value, ?_⟩
  · rw [ofText?, parse?_compact_toJson, Option.bind_some, ofJson?_toJson]
  · intro y hy
    obtain ⟨x, hx, hread⟩ := Option.bind_eq_some_iff.1 hy
    obtain ⟨hfinite, hsign⟩ := Binary64.isFinite_toFloat?_ofFloat hread
    refine ⟨x, hx, hfinite, hsign, fun hshort => ?_⟩
    exact Option.some.inj (hread.symm.trans hshort.toFloat?_ofFloat)

/-- An infinity is lost, and what would end a string does not. -/
example : ofText? (toJson ⟨"a\"\\\n\x01é", .duplicate, some (.infinity true)⟩).compact =
    some ⟨"a\"\\\n\x01é", .duplicate, none⟩ := by decide +kernel

end Event

end TriadMesh
