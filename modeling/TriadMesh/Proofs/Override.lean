import TriadMesh.Proofs.ConfigText

/-!
# Partial configuration documents

A document may leave out any section and any field, and hold anything else besides. What it names is taken up, and all
else keeps its default; then the ranges are checked, and the first that fails is told. The order of sections and keys
makes no difference (`partial_documents`).
-/

namespace TriadMesh

namespace Toml

/-- The value that stands first under a key. -/
def lookup (entries : List (String × Value)) (key : String) : Option Value := (entries.find? (·.1 == key)).map (·.2)

/-- The same value, but for the order of keys in its tables, at whatever depth these lie. -/
inductive Value.Reordered : Value → Value → Prop
  | refl (v : Value) : Reordered v v
  | array {items items' : List Value} (h : List.Forall₂ Reordered items items') :
      Reordered (.array items) (.array items')
  | table {entries mid entries' : List (String × Value)} (hperm : entries.Perm mid)
      (hkeys : mid.map (·.1) = entries'.map (·.1)) (h : List.Forall₂ Reordered (mid.map (·.2)) (entries'.map (·.2))) :
      Reordered (.table entries) (.table entries')

/-- The value that a table has under a key. -/
def Value.field? (key : String) : Value → Option Value
  | .table entries => lookup entries key
  | _ => none

variable {entries mid entries' : List (String × Value)} {key : String} {v w : Value}

theorem lookup_eq_some_iff (hnodup : (entries.map (·.1)).Nodup) : lookup entries key = some v ↔ (key, v) ∈ entries := by
  constructor
  · intro hfind
    obtain ⟨⟨k, w⟩, hentry, rfl⟩ := Option.map_eq_some_iff.1 hfind
    have hkey := List.find?_some hentry
    obtain rfl : k = key := eq_of_beq hkey
    exact List.mem_of_find?_eq_some hentry
  · intro hmem
    rw [lookup, find?_of_mem hnodup hmem]
    rfl

theorem lookup_of_perm (hperm : entries.Perm mid) (hnodup : (entries.map (·.1)).Nodup) :
    lookup mid key = lookup entries key := by
  refine Option.ext fun v => ?_
  rw [lookup_eq_some_iff hnodup, lookup_eq_some_iff ((hperm.map _).nodup_iff.1 hnodup)]
  exact hperm.mem_iff.symm

theorem rel_lookup {R : Value → Value → Prop} (hkeys : entries.map (·.1) = entries'.map (·.1))
    (h : List.Forall₂ R (entries.map (·.2)) (entries'.map (·.2))) :
    Option.Rel R (lookup entries key) (lookup entries' key) := by
  induction entries generalizing entries' with
  | nil =>
    obtain rfl : entries' = [] := List.map_eq_nil_iff.1 hkeys.symm
    exact .none
  | cons p entries ih =>
    cases entries' with
    | nil => cases hkeys
    | cons q entries' =>
      obtain ⟨hkey, hkeys⟩ : p.1 = q.1 ∧ entries.map (·.1) = entries'.map (·.1) := List.cons_eq_cons.1 hkeys
      obtain ⟨hvalue, hvalues⟩ := List.forall₂_cons.1 h
      have hrest := ih hkeys hvalues
      unfold lookup at hrest ⊢
      rw [List.find?_cons, List.find?_cons, ← hkey]
      cases hfirst : p.1 == key with
      | true => exact .some hvalue
      | false => exact hrest

/-- Under each key of a reordered table stands the reordered value. -/
theorem Value.Reordered.field? (h : v.Reordered w) (hv : v.Proper) :
    Option.Rel Reordered (v.field? key) (w.field? key) := by
  cases h with
  | refl =>
    cases v.field? key with
    | none => exact .none
    | some u => exact .some (.refl u)
  | array => exact .none
  | table hperm hkeys hvalues =>
    cases hv with
    | table hnodup =>
      change Option.Rel Reordered (lookup _ key) (lookup _ key)
      rw [← lookup_of_perm hperm hnodup]
      exact rel_lookup hkeys hvalues

end Toml

namespace Config

open Toml

variable {doc doc' : List (String × Value)} {part key : String} {v w : Value} {c d : Config} {s : Setting}

/-! ## Documents -/

/-- The document has the value under the key, in the section of the given name. -/
def Names (doc : List (String × Value)) (part key : String) (v : Value) : Prop :=
  ∃ fields, (part, .table fields) ∈ doc ∧ (key, v) ∈ fields

inductive Kind where
  | number | text | count | flag

/-- The value is of the right kind. An integer will do where a number is wanted, and counts are not negative. -/
def Kind.admits : Kind → Value → Bool
  | .number, .float _ | .number, .integer _ | .text, .text _ | .flag, .flag _ => true
  | .count, .integer n => decide (0 ≤ n)
  | _, _ => false

/-- A known field: its section, its key, and what its values are. -/
structure Field where
  part : String
  key : String
  kind : Kind

def knownSections : List String := ["gate", "tmr", "gossip", "sensor", "logging"]

def knownFields : List Field :=
  [⟨"gate", "quality_floor", .number⟩, ⟨"tmr", "variance_threshold", .number⟩, ⟨"tmr", "metric", .text⟩,
   ⟨"gossip", "cardinal_threshold", .number⟩, ⟨"gossip", "queue_capacity", .count⟩,
   ⟨"gossip", "max_in_flight", .count⟩, ⟨"gossip", "seen_capacity", .count⟩, ⟨"gossip", "relay_accepted", .flag⟩,
   ⟨"sensor", "noise_amplitude", .number⟩, ⟨"logging", "level", .text⟩, ⟨"logging", "json", .flag⟩]

/-- A document in which known sections are tables and known fields have values of the right kind. Nothing needs to be
there, and anything may be there that is not known. -/
structure IsPartial (doc : List (String × Value)) : Prop where
  tables : ∀ p ∈ doc, p.1 ∈ knownSections → ∃ fields, p.2 = .table fields
  fields : ∀ f ∈ knownFields, ∀ v, Names doc f.part f.key v → f.kind.admits v

/-- What a setting is: what the document names for it, or the default if it names nothing. -/
def Takes {α : Type} (doc : List (String × Value)) (part key : String) (read : Value → Option α) (fallback value : α) :
    Prop :=
  (∃ v, Names doc part key v ∧ read v = some value) ∨ (∀ v, ¬Names doc part key v) ∧ value = fallback

/-- The configuration is the default one but for what the document names. -/
structure Overrides (doc : List (String × Value)) (c : Config) : Prop where
  qualityFloor : Takes doc "gate" "quality_floor" Value.toFloat? default.qualityFloor c.qualityFloor
  varianceThreshold : Takes doc "tmr" "variance_threshold" Value.toFloat? default.varianceThreshold c.varianceThreshold
  metric : Takes doc "tmr" "metric" Value.toText? default.metric c.metric
  cardinalThreshold :
    Takes doc "gossip" "cardinal_threshold" Value.toFloat? default.cardinalThreshold c.cardinalThreshold
  queueCapacity : Takes doc "gossip" "queue_capacity" Value.toNat? default.queueCapacity c.queueCapacity
  maxInFlight : Takes doc "gossip" "max_in_flight" Value.toNat? default.maxInFlight c.maxInFlight
  seenCapacity : Takes doc "gossip" "seen_capacity" Value.toNat? default.seenCapacity c.seenCapacity
  relayAccepted : Takes doc "gossip" "relay_accepted" Value.toBool? default.relayAccepted c.relayAccepted
  noiseAmplitude : Takes doc "sensor" "noise_amplitude" Value.toFloat? default.noiseAmplitude c.noiseAmplitude
  level : Takes doc "logging" "level" Value.toText? default.level c.level
  json : Takes doc "logging" "json" Value.toBool? default.json c.json

/-- The ranges of the settings, under their names and in the order in which they are checked. -/
def ranges (c : Config) : List (String × Prop) :=
  [("gate.quality_floor", 0 ≤ c.qualityFloor ∧ c.qualityFloor ≤ 1),
   ("gossip.cardinal_threshold", 0 ≤ c.cardinalThreshold ∧ c.cardinalThreshold ≤ 1),
   ("tmr.variance_threshold", c.varianceThreshold.isFinite = true ∧ ¬c.varianceThreshold < 0),
   ("tmr.metric", c.metric ≠ ""),
   ("sensor.noise_amplitude", c.noiseAmplitude.isFinite = true ∧ ¬c.noiseAmplitude < 0),
   ("gossip.queue_capacity", 0 < c.queueCapacity),
   ("gossip.max_in_flight", 0 < c.maxInFlight),
   ("gossip.seen_capacity", 0 < c.seenCapacity)]

/-! ## Reading -/

/-- The value that is found for a field. -/
def given (doc : List (String × Value)) (part key : String) : Option Value := (lookup doc part).bind (Value.field? key)

/-- The configuration with what was found for the setting. -/
def Setting.takeUp (found : Option Value) (c : Config) : Setting → Config
  | .float _ get set => set ((found.bind Value.toFloat?).getD (get c)) c
  | .text _ get set => set ((found.bind Value.toText?).getD (get c)) c
  | .count _ get set => set ((found.bind Value.toNat?).getD (get c)) c
  | .flag _ get set => set ((found.bind Value.toBool?).getD (get c)) c

def Setting.kind : Setting → Kind
  | .float _ _ _ => .number
  | .text _ _ _ => .text
  | .count _ _ _ => .count
  | .flag _ _ _ => .flag

/-- Setting what is there already changes nothing. -/
def Setting.IsLawful : Setting → Prop
  | .float _ get set => ∀ c, set (get c) c = c
  | .text _ get set => ∀ c, set (get c) c = c
  | .count _ get set => ∀ c, set (get c) c = c
  | .flag _ get set => ∀ c, set (get c) c = c

theorem Setting.IsLawful.takeUp_none (h : s.IsLawful) (c : Config) : s.takeUp none c = c := by
  cases s <;> exact h c

theorem Setting.read?_of_admits (h : s.kind.admits v) (c : Config) :
    s.read? tomlReader v c = some (s.takeUp (some v) c) := by
  cases s with
  | float | text | flag => cases v <;> first | rfl | exact nomatch h
  | count =>
    cases v with
    | integer n =>
      obtain ⟨k, rfl⟩ := Int.eq_ofNat_of_zero_le (of_decide_eq_true h)
      rfl
    | text | float | flag | date | array | table => exact nomatch h

theorem readSettings?_none (settings : List Setting) (c : Config) :
    readSettings? tomlReader (settings.zip (settings.map fun _ => none)) c = some c := by
  induction settings with
  | nil => rfl
  | cons t settings ih => exact ih

theorem readSettings?_takeUp {settings : List Setting} {found : String → Option Value}
    (hlawful : ∀ t ∈ settings, t.IsLawful) (hadmits : ∀ t ∈ settings, ∀ v, found t.key = some v → t.kind.admits v)
    (c : Config) :
    readSettings? tomlReader (settings.zip (settings.map fun t => found t.key)) c =
      some (settings.foldl (fun d t => t.takeUp (found t.key) d) c) := by
  induction settings generalizing c with
  | nil => rfl
  | cons t settings ih =>
    rw [List.forall_mem_cons] at hlawful hadmits
    rw [List.map_cons, List.zip_cons_cons, List.foldl_cons]
    cases hfound : found t.key with
    | none =>
      rw [readSettings?, hlawful.1.takeUp_none]
      exact ih hlawful.2 hadmits.2 c
    | some v =>
      rw [readSettings?, Setting.read?_of_admits (hadmits.1 v hfound)]
      exact ih hlawful.2 hadmits.2 _

/-- The section is a table if it is there, and what stands in it under the key of a setting is of the setting's kind. -/
structure Section.Suits (doc : List (String × Value)) (s : Section) : Prop where
  table : ∀ v, lookup doc s.key = some v → ∃ fields, v = .table fields
  admits : ∀ t ∈ s.settings, ∀ v, given doc s.key t.key = some v → t.kind.admits v
  lawful : ∀ t ∈ s.settings, t.IsLawful

theorem readSections?_takeUp {sections : List Section} (h : ∀ s ∈ sections, s.Suits doc) (c : Config) :
    readSections? tomlReader (sections.zip (sections.map fun s => lookup doc s.key)) c =
      some (sections.foldl (fun d s => s.settings.foldl (fun d t => t.takeUp (given doc s.key t.key) d) d) c) := by
  induction sections generalizing c with
  | nil => rfl
  | cons s sections ih =>
    rw [List.forall_mem_cons] at h
    rw [List.map_cons, List.zip_cons_cons, List.foldl_cons]
    have hsettings := readSettings?_takeUp h.1.lawful h.1.admits c
    cases hfound : lookup doc s.key with
    | none =>
      -- A section that is not there leaves its settings as they are, as if it were an empty table.
      have hgiven : ∀ key, given doc s.key key = none := fun key => by rw [given, hfound, Option.bind_none]
      simp only [hgiven, readSettings?_none, Option.some.injEq] at hsettings ⊢
      rw [readSections?, ← hsettings]
      exact ih h.2 c
    | some v =>
      obtain ⟨fields, rfl⟩ := h.1.table v hfound
      have hgiven : ∀ key, given doc s.key key = lookup fields key := fun key => by
        rw [given, hfound, Option.bind_some, Value.field?]
      simp only [hgiven] at hsettings ⊢
      rw [readSections?]
      change (readSettings? tomlReader (s.settings.zip ((s.settings.map Setting.key).map (lookup fields))) c >>= _) = _
      rw [List.map_map]
      change (readSettings? tomlReader (s.settings.zip (s.settings.map fun t => lookup fields t.key)) c >>= _) = _
      rw [hsettings]
      exact ih h.2 _

/-! ## The schema -/

theorem isLawful_of_mem_schema : ∀ s ∈ schema, ∀ t ∈ s.settings, t.IsLawful := by
  simp [schema, Setting.IsLawful]

/-- The known fields are those of the schema. -/
theorem mem_knownFields : ∀ s ∈ schema, ∀ t ∈ s.settings, ⟨s.key, t.key, t.kind⟩ ∈ knownFields := by
  simp [schema, knownFields, Setting.key, Setting.kind]

theorem mem_knownSections : ∀ s ∈ schema, s.key ∈ knownSections := by decide

/-- The default configuration with what is found for each setting. -/
def taken (doc : List (String × Value)) : Config where
  qualityFloor := ((given doc "gate" "quality_floor").bind Value.toFloat?).getD default.qualityFloor
  varianceThreshold := ((given doc "tmr" "variance_threshold").bind Value.toFloat?).getD default.varianceThreshold
  metric := ((given doc "tmr" "metric").bind Value.toText?).getD default.metric
  cardinalThreshold := ((given doc "gossip" "cardinal_threshold").bind Value.toFloat?).getD default.cardinalThreshold
  queueCapacity := ((given doc "gossip" "queue_capacity").bind Value.toNat?).getD default.queueCapacity
  maxInFlight := ((given doc "gossip" "max_in_flight").bind Value.toNat?).getD default.maxInFlight
  seenCapacity := ((given doc "gossip" "seen_capacity").bind Value.toNat?).getD default.seenCapacity
  relayAccepted := ((given doc "gossip" "relay_accepted").bind Value.toBool?).getD default.relayAccepted
  noiseAmplitude := ((given doc "sensor" "noise_amplitude").bind Value.toFloat?).getD default.noiseAmplitude
  level := ((given doc "logging" "level").bind Value.toText?).getD default.level
  json := ((given doc "logging" "json").bind Value.toBool?).getD default.json

theorem foldl_takeUp_schema (doc : List (String × Value)) :
    schema.foldl (fun d s => s.settings.foldl (fun d t => t.takeUp (given doc s.key t.key) d) d) default = taken doc :=
  rfl

/-! ## Proper documents -/

theorem given_eq_some_iff (hdoc : (Value.table doc).Proper) : given doc part key = some v ↔ Names doc part key v := by
  cases hdoc with
  | table hkeys hentries =>
    have hfields : ∀ {fields}, (part, .table fields) ∈ doc → (fields.map (·.1)).Nodup := by
      intro fields hmem
      cases hentries _ hmem with
      | table hkeys => exact hkeys
    constructor
    · intro h
      obtain ⟨w, hfound, hfield⟩ := Option.bind_eq_some_iff.1 h
      have hmem := (lookup_eq_some_iff hkeys).1 hfound
      cases w with
      | table fields => exact ⟨fields, hmem, (lookup_eq_some_iff (hfields hmem)).1 hfield⟩
      | text | integer | float | flag | date | array => cases hfield
    · rintro ⟨fields, hmem, hfield⟩
      rw [given, (lookup_eq_some_iff hkeys).2 hmem]
      exact (lookup_eq_some_iff (hfields hmem)).2 hfield

theorem Names.unique (hdoc : (Value.table doc).Proper) (hv : Names doc part key v) (hw : Names doc part key w) :
    v = w :=
  Option.some.inj (((given_eq_some_iff hdoc).2 hv).symm.trans ((given_eq_some_iff hdoc).2 hw))

theorem IsPartial.suits (h : IsPartial doc) (hdoc : (Value.table doc).Proper) : ∀ s ∈ schema, s.Suits doc := by
  intro s hs
  refine ⟨fun v hfound => ?_, fun t ht v hgiven => ?_, isLawful_of_mem_schema s hs⟩
  · cases hdoc with
    | table hkeys => exact h.tables _ ((lookup_eq_some_iff hkeys).1 hfound) (mem_knownSections s hs)
  · exact h.fields _ (mem_knownFields s hs t ht) v ((given_eq_some_iff hdoc).1 hgiven)

/-- A partial document is read as what is taken from it. -/
theorem IsPartial.ofTomlUnchecked? {text : String} (h : IsPartial doc) (hparse : parse? text = some (.table doc)) :
    ofTomlUnchecked? text = some (taken doc) := by
  have hfields : tomlReader.fields? (schema.map Section.key) (.table doc) =
      some (schema.map fun s => lookup doc s.key) := congrArg some (List.map_map ..)
  rw [Config.ofTomlUnchecked?, hparse, Option.bind_some, read?, hfields, ← foldl_takeUp_schema]
  exact readSections?_takeUp (h.suits (proper_of_parse? hparse)) default

/-! ## Overriding -/

section Takes

variable {α : Type} {read : Value → Option α} {fallback x y : α}

theorem Takes.unique (hdoc : (Value.table doc).Proper) (hx : Takes doc part key read fallback x)
    (hy : Takes doc part key read fallback y) : x = y := by
  rcases hx with ⟨v, hv, hx⟩ | ⟨hnone, rfl⟩
  · rcases hy with ⟨w, hw, hy⟩ | ⟨hnone, -⟩
    · rw [← hv.unique hdoc hw, hx] at hy
      exact Option.some.inj hy
    · exact absurd hv (hnone v)
  · rcases hy with ⟨w, hw, -⟩ | ⟨-, rfl⟩
    · exact absurd hw (hnone w)
    · rfl

theorem takes_given (hdoc : (Value.table doc).Proper) (hread : ∀ v, Names doc part key v → (read v).isSome) :
    Takes doc part key read fallback (((given doc part key).bind read).getD fallback) := by
  cases hgiven : given doc part key with
  | none =>
    refine .inr ⟨fun v hv => ?_, rfl⟩
    rw [(given_eq_some_iff hdoc).2 hv] at hgiven
    cases hgiven
  | some v =>
    have hv := (given_eq_some_iff hdoc).1 hgiven
    obtain ⟨x, hx⟩ := Option.isSome_iff_exists.1 (hread v hv)
    refine .inl ⟨v, hv, ?_⟩
    rw [Option.bind_some, hx, Option.getD_some]

end Takes

/-- Whether a value can be read as one of a kind. -/
def Kind.reads : Kind → Value → Bool
  | .number, v => v.toFloat?.isSome
  | .text, v => v.toText?.isSome
  | .count, v => v.toNat?.isSome
  | .flag, v => v.toBool?.isSome

theorem Kind.reads_of_admits {kind : Kind} (h : kind.admits v) : kind.reads v := by
  cases kind with
  | number | text | flag => cases v <;> first | rfl | exact nomatch h
  | count =>
    cases v with
    | integer n =>
      obtain ⟨k, rfl⟩ := Int.eq_ofNat_of_zero_le (of_decide_eq_true h)
      rfl
    | text | float | flag | date | array | table => exact nomatch h

theorem IsPartial.overrides (h : IsPartial doc) (hdoc : (Value.table doc).Proper) : Overrides doc (taken doc) := by
  have hfields := h.fields
  simp only [knownFields, List.forall_mem_cons] at hfields
  obtain ⟨hquality, hvariance, hmetric, hcardinal, hqueue, hflight, hseen, hrelay, hnoise, hlevel, hjson, -⟩ := hfields
  exact
    { qualityFloor := takes_given hdoc fun v hv => Kind.reads_of_admits (hquality v hv)
      varianceThreshold := takes_given hdoc fun v hv => Kind.reads_of_admits (hvariance v hv)
      metric := takes_given hdoc fun v hv => Kind.reads_of_admits (hmetric v hv)
      cardinalThreshold := takes_given hdoc fun v hv => Kind.reads_of_admits (hcardinal v hv)
      queueCapacity := takes_given hdoc fun v hv => Kind.reads_of_admits (hqueue v hv)
      maxInFlight := takes_given hdoc fun v hv => Kind.reads_of_admits (hflight v hv)
      seenCapacity := takes_given hdoc fun v hv => Kind.reads_of_admits (hseen v hv)
      relayAccepted := takes_given hdoc fun v hv => Kind.reads_of_admits (hrelay v hv)
      noiseAmplitude := takes_given hdoc fun v hv => Kind.reads_of_admits (hnoise v hv)
      level := takes_given hdoc fun v hv => Kind.reads_of_admits (hlevel v hv)
      json := takes_given hdoc fun v hv => Kind.reads_of_admits (hjson v hv) }

theorem Overrides.unique (hdoc : (Value.table doc).Proper) (hc : Overrides doc c) (hd : Overrides doc d) : c = d := by
  cases c
  cases d
  congr
  · exact hc.qualityFloor.unique hdoc hd.qualityFloor
  · exact hc.varianceThreshold.unique hdoc hd.varianceThreshold
  · exact hc.metric.unique hdoc hd.metric
  · exact hc.cardinalThreshold.unique hdoc hd.cardinalThreshold
  · exact hc.queueCapacity.unique hdoc hd.queueCapacity
  · exact hc.maxInFlight.unique hdoc hd.maxInFlight
  · exact hc.seenCapacity.unique hdoc hd.seenCapacity
  · exact hc.relayAccepted.unique hdoc hd.relayAccepted
  · exact hc.noiseAmplitude.unique hdoc hd.noiseAmplitude
  · exact hc.level.unique hdoc hd.level
  · exact hc.json.unique hdoc hd.json

/-! ## The order of sections and keys -/

theorem Kind.eq_of_reordered {kind : Kind} (hv : kind.admits v) (h : v.Reordered w) : w = v := by
  cases h with
  | refl => rfl
  | array | table => cases kind <;> exact nomatch hv

theorem rel_given (h : (Value.table doc).Reordered (.table doc')) (hdoc : (Value.table doc).Proper) :
    Option.Rel Value.Reordered (given doc part key) (given doc' part key) := by
  have hsection : Option.Rel Value.Reordered (lookup doc part) (lookup doc' part) := h.field? hdoc
  unfold given
  cases hfound : lookup doc part with
  | none =>
    rw [hfound] at hsection
    generalize lookup doc' part = found' at hsection ⊢
    cases hsection
    exact .none
  | some v =>
    rw [hfound] at hsection
    generalize lookup doc' part = found' at hsection ⊢
    cases hsection with
    | some hvalue =>
      cases hdoc with
      | table hkeys hentries => exact hvalue.field? (hentries _ ((lookup_eq_some_iff hkeys).1 hfound))

/-- A reordered document is partial too, and the same is found in it. -/
theorem IsPartial.reordered (h : IsPartial doc) (hdoc : (Value.table doc).Proper) (hdoc' : (Value.table doc').Proper)
    (hsame : (Value.table doc).Reordered (.table doc')) : IsPartial doc' ∧ taken doc' = taken doc := by
  have hgiven : ∀ f ∈ knownFields, given doc' f.part f.key = given doc f.part f.key := by
    intro f hf
    have hrel : Option.Rel Value.Reordered (given doc f.part f.key) (given doc' f.part f.key) := rel_given hsame hdoc
    generalize given doc' f.part f.key = found' at hrel ⊢
    cases hfound : given doc f.part f.key with
    | none =>
      rw [hfound] at hrel
      cases hrel
      rfl
    | some v =>
      rw [hfound] at hrel
      cases hrel with
      | some hvalue =>
        rw [Kind.eq_of_reordered (h.fields f hf v ((given_eq_some_iff hdoc).1 hfound)) hvalue]
  refine ⟨⟨fun p hp hpart => ?_, fun f hf v hv => ?_⟩, ?_⟩
  · have hrel : Option.Rel Value.Reordered (lookup doc p.1) (lookup doc' p.1) := hsame.field? hdoc
    cases hdoc' with
    | table hkeys' =>
      rw [(lookup_eq_some_iff hkeys').2 hp] at hrel
      cases hfound : lookup doc p.1 with
      | none =>
        rw [hfound] at hrel
        cases hrel
      | some v =>
        rw [hfound] at hrel
        cases hdoc with
        | table hkeys =>
          obtain ⟨fields, rfl⟩ := h.tables _ ((lookup_eq_some_iff hkeys).1 hfound) hpart
          cases hrel with
          | some hvalue =>
            generalize p.2 = w at hvalue ⊢
            cases hvalue <;> exact ⟨_, rfl⟩
  · rw [← given_eq_some_iff hdoc', hgiven f hf, given_eq_some_iff hdoc] at hv
    exact h.fields f hf v hv
  · simp only [knownFields, List.forall_mem_cons] at hgiven
    simp only [taken, hgiven]

/-! ## Ranges -/

/-- A condition that is checked says what the range says, and what is told of it names the setting. -/
def Matches (r : String × Prop) (p : Bool × Violation) : Prop :=
  (r.2 ↔ p.1 = true) ∧ ∃ rest, p.2.message = r.1 ++ " must " ++ rest

theorem matches_unitInterval (name : String) (x : Binary64) :
    Matches (name, 0 ≤ x ∧ x ≤ 1) (inUnitInterval x, .outsideUnitInterval name x) := by
  refine ⟨?_, "lie in [0, 1], got " ++ Binary64.Style.plain.render x, ?_⟩
  · rw [inUnitInterval, Bool.and_eq_true, decide_eq_true_iff, decide_eq_true_iff]
  · rw [Violation.message, show " must lie in [0, 1], got " = " must " ++ "lie in [0, 1], got " from rfl]
    simp only [String.append_assoc]

theorem matches_nonNegative (name : String) (x : Binary64) :
    Matches (name, x.isFinite = true ∧ ¬x < 0) (isNonNegative x, .notNonNegative name x) := by
  refine ⟨?_, "be a non-negative finite number, got " ++ Binary64.Style.plain.render x, ?_⟩
  · rw [isNonNegative, Bool.and_eq_true, Bool.not_eq_true', decide_eq_false_iff_not]
  · rw [Violation.message, show " must be a non-negative finite number, got " =
      " must " ++ "be a non-negative finite number, got " from rfl]
    simp only [String.append_assoc]

theorem matches_capacity (name : String) (n : Nat) : Matches (name, 0 < n) (n != 0, .zeroCapacity name) := by
  refine ⟨?_, "be greater than zero", ?_⟩
  · rw [bne_iff_ne, Nat.pos_iff_ne_zero]
  · rw [Violation.message, String.append_assoc]
    rfl

theorem matches_metric (name : String) : Matches ("tmr.metric", name ≠ "") (name != "", .emptyMetric) :=
  ⟨bne_iff_ne.symm, "not be empty", rfl⟩

theorem matches_ranges (c : Config) : List.Forall₂ Matches c.ranges c.conditions :=
  .cons (matches_unitInterval _ _) <| .cons (matches_unitInterval _ _) <| .cons (matches_nonNegative _ _) <|
    .cons (matches_metric _) <| .cons (matches_nonNegative _ _) <| .cons (matches_capacity _ _) <|
      .cons (matches_capacity _ _) <| .cons (matches_capacity _ _) .nil

theorem forall_conditions {ranges : List (String × Prop)} {conditions : List (Bool × Violation)}
    (h : List.Forall₂ Matches ranges conditions) (hranges : ∀ r ∈ ranges, r.2) : ∀ p ∈ conditions, p.1 = true := by
  induction h with
  | nil => exact fun p hp => absurd hp List.not_mem_nil
  | cons hp _ ih =>
    rw [List.forall_mem_cons] at hranges ⊢
    exact ⟨hp.1.1 hranges.1, ih hranges.2⟩

variable {pre post : List (String × Prop)} {r : String × Prop} {conditions : List (Bool × Violation)}

theorem find?_conditions (h : List.Forall₂ Matches (pre ++ r :: post) conditions) (hpre : ∀ q ∈ pre, q.2) (hr : ¬r.2) :
    ∃ p, conditions.find? (fun p => !p.1) = some p ∧ ∃ rest, p.2.message = r.1 ++ " must " ++ rest := by
  induction pre generalizing conditions with
  | nil =>
    obtain ⟨p, rest, hp, -, rfl⟩ := List.forall₂_cons_left_iff.1 h
    exact ⟨p, List.find?_cons_of_pos (by simpa using fun hp' => hr (hp.1.2 hp')), hp.2⟩
  | cons q pre ih =>
    obtain ⟨p, rest, hp, hrest, rfl⟩ := List.forall₂_cons_left_iff.1 h
    rw [List.forall_mem_cons] at hpre
    rw [List.find?_cons_of_neg (by simpa using hp.1.1 hpre.1)]
    exact ih hrest hpre.2

/-- Of a configuration that was read, the first range that fails is told, and without one it is the answer. -/
theorem ofToml_of_ofTomlUnchecked? {text : String} (h : Config.ofTomlUnchecked? text = some c) :
    ((∀ r ∈ c.ranges, r.2) → ofToml text = .ok c) ∧
      ∀ pre r post, c.ranges = pre ++ r :: post → (∀ q ∈ pre, q.2) → ¬r.2 →
        ∃ v rest, ofToml text = .error (.invalid v) ∧ v.message = r.1 ++ " must " ++ rest := by
  constructor
  · intro hranges
    have hnone := violation?_eq_none_iff.2 (forall_conditions (matches_ranges c) hranges)
    rw [ofToml, h]
    dsimp only
    rw [hnone]
  · intro pre r post hsplit hpre hr
    obtain ⟨p, hfind, rest, hmessage⟩ := find?_conditions (hsplit ▸ matches_ranges c) hpre hr
    refine ⟨p.2, rest, ?_, hmessage⟩
    rw [ofToml, h]
    dsimp only
    rw [violation?, hfind]
    rfl

/-- Whatever a partial document names, and in whatever order, the configuration that is the default one but for that is
the answer if it is in range; otherwise the first range that fails is told. -/
theorem partial_documents {text : String} (hparse : parse? text = some (.table doc)) (hpartial : IsPartial doc) :
    ∃ c : Config, Overrides doc c ∧ (∀ d, Overrides doc d → d = c) ∧
      ((∀ r ∈ c.ranges, r.2) → ofToml text = .ok c) ∧
      (∀ pre r post, c.ranges = pre ++ r :: post → (∀ q ∈ pre, q.2) → ¬r.2 →
        ∃ v rest, ofToml text = .error (.invalid v) ∧ v.message = r.1 ++ " must " ++ rest) ∧
      ∀ text' doc', parse? text' = some (.table doc') → (Value.table doc).Reordered (.table doc') →
        ofToml text' = ofToml text := by
  have hdoc := proper_of_parse? hparse
  have hread := hpartial.ofTomlUnchecked? hparse
  have hoverrides := hpartial.overrides hdoc
  obtain ⟨hok, herror⟩ := ofToml_of_ofTomlUnchecked? hread
  refine ⟨taken doc, hoverrides, fun d hd => hd.unique hdoc hoverrides, hok, herror, ?_⟩
  intro text' doc' hparse' hsame
  obtain ⟨hpartial', htaken⟩ := hpartial.reordered hdoc (proper_of_parse? hparse') hsame
  rw [ofToml, ofToml, hread, hpartial'.ofTomlUnchecked? hparse', htaken]

/-- Sections out of order, with an integer for a float, and with a section and a key that are not known. -/
def mixedText : String :=
  "[gossip]\nseen_capacity = 8\nfanout = \"all\"\ncardinal_threshold = 1\n[mesh]\n[gate]\nquality_floor = 0.5\n"

def mixed : List (String × Value) :=
  [("gossip", .table [("seen_capacity", .integer 8), ("fanout", .text "all"), ("cardinal_threshold", .integer 1)]),
   ("mesh", .table []), ("gate", .table [("quality_floor", .float (.ofDecimal false 5 (-1)))])]

theorem parse?_mixedText : parse? mixedText = some (.table mixed) := by
  -- The text is read from its last line to its first.
  have hfloor : (Binary64.ofDecimal false 5 (-1)).isFinite = true := by decide +kernel
  have hgate := (yields_nil.assign (show IsBare "quality_floor" by decide) (reads_float hfloor)).header
    (show IsBare "gate" by decide)
  have hmesh := hgate.header (show IsBare "mesh" by decide)
  have hcardinal := hmesh.assign (show IsBare "cardinal_threshold" by decide) (reads_count (show 1 < 2 ^ 63 by decide))
  have hfanout := hcardinal.assign (show IsBare "fanout" by decide) (reads_text "all")
  have hseen := hfanout.assign (show IsBare "seen_capacity" by decide) (reads_count (show 8 < 2 ^ 63 by decide))
  have hgossip := hseen.header (show IsBare "gossip" by decide)
  refine ((congrArg parse? ?_).trans (parse?_of_yields (by decide) hgossip)).trans rfl
  decide +kernel

theorem isPartial_mixed : IsPartial mixed := by
  have hadmits : ∀ f ∈ knownFields, (given mixed f.part f.key).all f.kind.admits := by decide +kernel
  refine ⟨by simp [mixed, knownSections], fun f hf v hv => ?_⟩
  have hall := hadmits f hf
  rw [(given_eq_some_iff (proper_of_parse? parse?_mixedText)).2 hv] at hall
  exact hall

theorem partial_documents_mixed :
    parse? mixedText = some (.table mixed) ∧ IsPartial mixed ∧
      ofToml mixedText =
        .ok { default with qualityFloor := .ofDecimal false 5 (-1), cardinalThreshold := 1, seenCapacity := 8 } := by
  obtain ⟨c, -, hunique, hok, -⟩ := partial_documents parse?_mixedText isPartial_mixed
  have hc := hunique _ (isPartial_mixed.overrides (proper_of_parse? parse?_mixedText))
  refine ⟨parse?_mixedText, isPartial_mixed, ?_⟩
  rw [hok, ← hc]
  · exact congrArg _ (by decide +kernel)
  · rw [← hc]
    simp only [ranges, List.forall_mem_cons]
    exact ⟨by decide +kernel, by decide +kernel, by decide +kernel, by decide, by decide +kernel, by decide, by decide,
      by decide, fun _ h => absurd h List.not_mem_nil⟩

end Config

end TriadMesh
