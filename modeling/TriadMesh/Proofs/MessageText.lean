import TriadMesh.Message.Json
import TriadMesh.Proofs.JsonText

/-!
# Messages survive JSON

The text of a message is read back exactly if both floats are finite. All fields but the floats come back as they
were; a float may be off, but not one that is written with few digits and a small power of ten. So a message with two
such floats comes back as itself, with the same id (`json_survival`).
-/

namespace TriadMesh.Message

variable (m : Message)

theorem wellFormed_toJson : m.toJson.WellFormed := by
  refine .object ?_ ?_
  · intro p hp
    obtain ⟨name, -, hname⟩ := List.mem_map.1 (List.of_mem_zip hp).1
    exact hname ▸ Json.scans_escape _
  · intro p hp
    have hvalue := (List.of_mem_zip hp).2
    simp only [List.mem_cons, List.not_mem_nil, or_false] at hvalue
    rcases hvalue with h | h | h | h | h | h <;> rw [h]
    · exact Json.wellFormed_ofInt _
    · exact Json.wellFormed_ofFloat _
    · exact Json.wellFormed_ofFloat _
    all_goals exact Json.wellFormed_ofBytes _

/-- Also with floats that are no numbers the text is that of the value. -/
theorem parse?_compact_toJson : Json.parse? m.toJson.compact = some m.toJson :=
  m.wellFormed_toJson.parse?_compact

theorem timestampOf?_ofInt (t : Int64) : timestampOf? (.ofInt t.toInt) = some t := by
  have hlow := t.le_toInt
  have hhigh := t.toInt_lt
  rw [timestampOf?, Json.toInt?_ofInt (by omega) (by omega), Option.bind_some, if_pos ⟨hlow, hhigh⟩, Int64.ofInt_toInt]

/-- Only the floats of a message may come back as others. -/
theorem ofJson?_toJson : ofJson? m.toJson = do
    let x ← (Json.ofFloat m.vorticity).toFloat?
    let p ← (Json.ofFloat m.phase).toFloat?
    return { m with vorticity := x, phase := p } := by
  rw [ofJson?, toJson, Json.fields?_zip false (by decide) rfl]
  simp only [List.map_cons, List.map_nil, timestampOf?_ofInt, Json.toBytes?_ofBytes]
  cases (Json.ofFloat m.vorticity).toFloat? <;> cases (Json.ofFloat m.phase).toFloat? <;> rfl

/-- Reads a message from a text. -/
def ofText? (text : String) : Option Message := (Json.parse? text).bind ofJson?

/-- The text of a message is a value, and it is read as a message exactly if both floats are finite. What is read
differs from the message in the floats at most, and it is the message if they are written shortly. -/
theorem json_survival :
    Json.parse? m.toJson.compact = some m.toJson ∧
      ((ofText? m.toJson.compact).isSome ↔ m.vorticity.isFinite ∧ m.phase.isFinite) ∧
      (∀ n, ofText? m.toJson.compact = some n →
        n.timestamp = m.timestamp ∧ n.content = m.content ∧ n.signature = m.signature ∧
          n.publicKey = m.publicKey ∧ (m.vorticity.IsShort → n.vorticity = m.vorticity) ∧
          (m.phase.IsShort → n.phase = m.phase)) ∧
      (m.vorticity.IsShort → m.phase.IsShort →
        ∃ n, ofText? m.toJson.compact = some n ∧ n = m ∧ ∀ s : Suite, n.id s = m.id s) := by
  have hread : ofText? m.toJson.compact = ofJson? m.toJson := by
    rw [ofText?, parse?_compact_toJson, Option.bind_some]
  have hx := Json.isSome_toFloat?_ofFloat m.vorticity
  have hp := Json.isSome_toFloat?_ofFloat m.phase
  rw [hread, ofJson?_toJson]
  refine ⟨m.parse?_compact_toJson, ?_, ?_, ?_⟩
  · rw [← hx, ← hp]
    cases (Json.ofFloat m.vorticity).toFloat? <;> cases (Json.ofFloat m.phase).toFloat? <;> simp
  · intro n hn
    obtain ⟨x, hvorticity, hn⟩ := Option.bind_eq_some_iff.1 hn
    obtain ⟨p, hphase, hn⟩ := Option.bind_eq_some_iff.1 hn
    cases hn
    refine ⟨rfl, rfl, rfl, rfl, fun hshort => ?_, fun hshort => ?_⟩
    · exact Option.some.inj (hvorticity.symm.trans hshort.toFloat?_ofFloat)
    · exact Option.some.inj (hphase.symm.trans hshort.toFloat?_ofFloat)
  · intro hvorticity hphase
    rw [hvorticity.toFloat?_ofFloat, hphase.toFloat?_ofFloat]
    exact ⟨m, rfl, rfl, fun _ => rfl⟩

/-- A reading of 0.74 and a phase of minus zero are written shortly, so such a message survives. -/
theorem json_survival_minus_zero :
    ofText? (toJson ⟨-1, .ofDecimal false 74 (-2), .zero true, [255], [], [0]⟩).compact =
      some ⟨-1, .ofDecimal false 74 (-2), .zero true, [255], [], [0]⟩ := by
  obtain ⟨n, hn, rfl, -⟩ := (json_survival ⟨-1, .ofDecimal false 74 (-2), .zero true, [255], [], [0]⟩).2.2.2
    (by decide +kernel) (by decide +kernel)
  exact hn

end TriadMesh.Message
