import TriadMesh.Mesh.Event
import TriadMesh.Mesh.Propagator
import TriadMesh.Mesh.Registry

/-!
# Meshes

A mesh is a registry of nodes, a gate, a propagator that carries messages from node to node, and what it
reports: counters, events and log records. Every operation is a function from one mesh to the next.
-/

namespace TriadMesh

/-- A message on its way from a node to one of its neighbors. -/
structure Forward where
  source : NodeId
  target : NodeId
  message : Message
deriving DecidableEq, Inhabited

structure Mesh where
  suite : Suite
  config : Config
  sink : Sink
  /-- The noise that default sensors add at each tick. -/
  noise : Nat → Binary64
  registry : Registry
  metrics : Metrics
  propagator : Propagator Forward
  tick : Nat
  events : List Event
  records : List Record

namespace Mesh

/-- A mesh without nodes. The configuration is checked first. -/
def start (s : Suite) (config : Config) (sink : Sink) (noise : Nat → Binary64) (runtime : Bool) : Outcome Mesh :=
  match config.violation? with
  | some v => .refused (.config (.invalid v))
  | none =>
    (Propagator.start runtime config.queueCapacity config.maxInFlight).map fun p =>
      ⟨s, config, sink, noise, .empty, .zero, p, 0, [], []⟩

def gate (m : Mesh) : Gate := ⟨m.config.qualityFloor⟩

def report (m : Mesh) (r : Record) : Mesh := { m with records := m.records ++ [r] }

def emit (m : Mesh) (node : NodeId) (kind : EventKind) (value : Option Binary64) : Mesh :=
  { m with
    metrics := m.metrics.count kind
    events := m.events ++ [⟨node, kind, value⟩]
    records := m.records ++ m.sink.records ⟨node, kind, value⟩ }

def update (m : Mesh) (id : NodeId) (f : Node → Node) : Mesh := { m with registry := m.registry.update id f }

/-- The neighbors that a node forwards to: coherent enough, and not the one to leave out. -/
def eligible (m : Mesh) (n : Node) (leaveOut : Option NodeId) : List NodeId :=
  ((m.registry.neighborsOf n).filter fun k =>
    decide (some k.id ≠ leaveOut) && decide (m.config.cardinalThreshold ≤ k.coherence)).map (·.id)

def announce (m : Mesh) (node : NodeId) (msg : Message) (count : Nat) : Mesh :=
  if count = 0 then m
  else
    { m with metrics := { m.metrics with forwarded := m.metrics.forwarded + count } }.emit node .propagated
      (some msg.vorticity)

def inFlight (m : Mesh) : Nat := m.propagator.inFlight

end Mesh

end TriadMesh
