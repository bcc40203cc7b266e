import TriadMesh.Message.Basic

/-!
# Sensors

A sensor reads a named metric. It sees its own node and a tick, which counts the measurements taken so
far, so that noise and a changing world are functions of the tick; a sensor is deterministic if its
readings do not depend on it. A sensor may crash instead of giving a reading.
-/

namespace TriadMesh

structure Probe where
  node : NodeId
  coherence : Binary64
  metric : String
  tick : Nat

/-- A reading for each probe; `none` where the sensor crashes. -/
structure Sensor where
  read : Probe → Option Binary64

namespace Sensor

def fixed (value : Binary64) : Sensor := ⟨fun _ => some value⟩

def crashing : Sensor := ⟨fun _ => none⟩

/-- The node's coherence with noise added that does not exceed an amplitude. Noise cannot be drawn from
a range whose width is not finite; without amplitude there is no noise. -/
def noisy (amplitude : Binary64) (noise : Nat → Binary64) : Sensor :=
  ⟨fun p =>
    let a := amplitude.abs
    if a.isZero then some p.coherence
    else if (a + a).isFinite then
      let n := noise p.tick
      some (p.coherence + (if a ≤ n then a else if n ≤ a.neg then a.neg else n))
    else none⟩

/-- The coherence times a factor for one metric, and a fixed value for all others. -/
def scaled (metric : String) (factor other : Binary64) : Sensor :=
  ⟨fun p => some (if p.metric = metric then p.coherence * factor else other)⟩

def idLength : Sensor := ⟨fun p => some (.ofInt p.node.utf8ByteSize)⟩

end Sensor

end TriadMesh
