import TriadMesh.Config.Basic

/-!
# The written form of configurations

Settings are grouped in sections, each with a key. The schema is stated once; reading works for every
format that has records, floats, texts, numbers and truth values, which a `Reader` collects.
-/

namespace TriadMesh.Config

/-- A setting: its key, and where it lies in a configuration. -/
inductive Setting where
  | float (key : String) (get : Config → Binary64) (set : Binary64 → Config → Config)
  | text (key : String) (get : Config → String) (set : String → Config → Config)
  | count (key : String) (get : Config → Nat) (set : Nat → Config → Config)
  | flag (key : String) (get : Config → Bool) (set : Bool → Config → Config)

def Setting.key : Setting → String
  | float k _ _ | text k _ _ | count k _ _ | flag k _ _ => k

structure Section where
  key : String
  settings : List Setting

/-- All sections with all settings, in the order in which they are written. -/
def schema : List Section :=
  [⟨"gate", [.float "quality_floor" (·.qualityFloor) fun v c => { c with qualityFloor := v }]⟩,
   ⟨"tmr", [.float "variance_threshold" (·.varianceThreshold) fun v c => { c with varianceThreshold := v },
     .text "metric" (·.metric) fun v c => { c with metric := v }]⟩,
   ⟨"gossip", [.float "cardinal_threshold" (·.cardinalThreshold) fun v c => { c with cardinalThreshold := v },
     .count "queue_capacity" (·.queueCapacity) fun v c => { c with queueCapacity := v },
     .count "max_in_flight" (·.maxInFlight) fun v c => { c with maxInFlight := v },
     .count "seen_capacity" (·.seenCapacity) fun v c => { c with seenCapacity := v },
     .flag "relay_accepted" (·.relayAccepted) fun v c => { c with relayAccepted := v }]⟩,
   ⟨"sensor", [.float "noise_amplitude" (·.noiseAmplitude) fun v c => { c with noiseAmplitude := v }]⟩,
   ⟨"logging", [.text "level" (·.level) fun v c => { c with level := v },
     .flag "json" (·.json) fun v c => { c with json := v }]⟩]

structure Reader (V : Type) where
  /-- The values of the named fields of a record, where there are any. -/
  fields? : List String → V → Option (List (Option V))
  float? : V → Option Binary64
  text? : V → Option String
  count? : V → Option Nat
  flag? : V → Option Bool

variable {V : Type}

def Setting.read? (r : Reader V) (v : V) (c : Config) : Setting → Option Config
  | float _ _ set => (r.float? v).map fun x => set x c
  | text _ _ set => (r.text? v).map fun x => set x c
  | count _ _ set => (r.count? v).map fun x => set x c
  | flag _ _ set => (r.flag? v).map fun x => set x c

/-- Reads the settings that have a value and leaves the others as they are. -/
def readSettings? (r : Reader V) : List (Setting × Option V) → Config → Option Config
  | [], c => some c
  | (_, none) :: rest, c => readSettings? r rest c
  | (s, some v) :: rest, c => (s.read? r v c).bind (readSettings? r rest)

/-- Reads the sections that have a value and leaves the others as they are. -/
def readSections? (r : Reader V) : List (Section × Option V) → Config → Option Config
  | [], c => some c
  | (_, none) :: rest, c => readSections? r rest c
  | (s, some v) :: rest, c => do
    let values ← r.fields? (s.settings.map Setting.key) v
    readSections? r rest (← readSettings? r (s.settings.zip values) c)

/-- Reads a configuration; what is not named keeps its default. -/
def read? (r : Reader V) (v : V) : Option Config := do
  let values ← r.fields? (schema.map Section.key) v
  readSections? r (schema.zip values) default

end TriadMesh.Config
