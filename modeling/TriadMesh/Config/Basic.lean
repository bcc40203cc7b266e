import TriadMesh.Binary64.Text

/-!
# Configuration

Eleven settings with defaults, and the ranges they must lie in. `check` reports the first setting that
is out of range, in a fixed order.
-/

namespace TriadMesh

structure Config where
  qualityFloor : Binary64
  varianceThreshold : Binary64
  /-- The metric that a triad measures on receipt. -/
  metric : String
  /-- The least coherence of a neighbor that messages are forwarded to. -/
  cardinalThreshold : Binary64
  queueCapacity : Nat
  maxInFlight : Nat
  /-- How many message ids a node remembers. -/
  seenCapacity : Nat
  /-- Whether accepted messages are forwarded in turn. -/
  relayAccepted : Bool
  /-- How far the readings of the default sensor stray from the coherence. -/
  noiseAmplitude : Binary64
  level : String
  json : Bool
deriving DecidableEq

inductive Violation where
  | outsideUnitInterval (setting : String) (value : Binary64)
  | notNonNegative (setting : String) (value : Binary64)
  | emptyMetric
  | zeroCapacity (setting : String)
deriving DecidableEq

def Violation.message : Violation → String
  | .outsideUnitInterval name x => name ++ " must lie in [0, 1], got " ++ Binary64.Style.plain.render x
  | .notNonNegative name x =>
    name ++ " must be a non-negative finite number, got " ++ Binary64.Style.plain.render x
  | .emptyMetric => "tmr.metric must not be empty"
  | .zeroCapacity name => name ++ " must be greater than zero"

namespace Config

def default : Config where
  qualityFloor := .ofDecimal false 7 (-1)
  varianceThreshold := .ofDecimal false 32 (-6)
  metric := "vorticity"
  cardinalThreshold := .ofDecimal false 72 (-2)
  queueCapacity := 1024
  maxInFlight := 16
  seenCapacity := 4096
  relayAccepted := false
  noiseAmplitude := .ofDecimal false 1 (-5)
  level := "info"
  json := false

instance : Inhabited Config := ⟨default⟩

/-- Equality of values: the two zeros are equal and a NaN makes configurations differ. -/
def equals (c d : Config) : Bool :=
  c.qualityFloor.equals d.qualityFloor && c.varianceThreshold.equals d.varianceThreshold &&
    c.metric == d.metric && c.cardinalThreshold.equals d.cardinalThreshold &&
    c.queueCapacity == d.queueCapacity && c.maxInFlight == d.maxInFlight &&
    c.seenCapacity == d.seenCapacity && c.relayAccepted == d.relayAccepted &&
    c.noiseAmplitude.equals d.noiseAmplitude && c.level == d.level && c.json == d.json

def inUnitInterval (x : Binary64) : Bool := decide (0 ≤ x) && decide (x ≤ 1)

def isNonNegative (x : Binary64) : Bool := x.isFinite && !decide (x < 0)

/-- The ranges, in the order in which they are checked: what is reported if a condition fails. -/
def conditions (c : Config) : List (Bool × Violation) :=
  [(inUnitInterval c.qualityFloor, .outsideUnitInterval "gate.quality_floor" c.qualityFloor),
   (inUnitInterval c.cardinalThreshold, .outsideUnitInterval "gossip.cardinal_threshold" c.cardinalThreshold),
   (isNonNegative c.varianceThreshold, .notNonNegative "tmr.variance_threshold" c.varianceThreshold),
   (c.metric != "", .emptyMetric),
   (isNonNegative c.noiseAmplitude, .notNonNegative "sensor.noise_amplitude" c.noiseAmplitude),
   (c.queueCapacity != 0, .zeroCapacity "gossip.queue_capacity"),
   (c.maxInFlight != 0, .zeroCapacity "gossip.max_in_flight"),
   (c.seenCapacity != 0, .zeroCapacity "gossip.seen_capacity")]

def violation? (c : Config) : Option Violation :=
  (c.conditions.find? fun p => !p.1).map (·.2)

def check (c : Config) : Except Violation Unit :=
  match c.violation? with
  | some v => .error v
  | none => .ok ()

end Config

end TriadMesh
