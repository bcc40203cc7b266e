import TriadMesh.Mesh.Basic
import TriadMesh.Routing

/-!
# Building a mesh

Nodes are added and removed, linked, and given another coherence; a node measures, and routes by
distance. None of this touches a log or a memory of a node that stays.
-/

namespace TriadMesh.Mesh

def defaultSensor (m : Mesh) : Sensor := .noisy m.config.noiseAmplitude m.noise

def register (m : Mesh) (n : Node) : Except MeshError (Mesh × Node) := do
  let registry ← m.registry.insert n
  return ({ m with registry := registry }.report ⟨.debug, "Node registered", [("node_id", .text n.id)]⟩, n)

/-- Takes in a node, with an empty memory of the configured capacity. A capacity beyond the limit crashes, even if
the node would not be taken in. -/
def add (m : Mesh) (n : Node) : Outcome (Mesh × Node) :=
  match n.withSeenCapacity m.config.seenCapacity with
  | none => .crashed
  | some n => .ofExcept (m.register n)

def create (m : Mesh) (id : NodeId) (keys : KeyPair) (coherence : Binary64) (sensor : Sensor) :
    Outcome (Mesh × Node) :=
  match Node.new id keys coherence sensor with
  | .error e => .refused e
  | .ok n => m.add n

def obtainKeys (m : Mesh) (source : KeySource) : Mesh × Except KeyError KeyPair :=
  match source.keys m.suite with
  | .error e => (m, .error e)
  | .ok k => ({ m with records := m.records ++ source.records m.suite k }, .ok k)

/-- Takes in a new node whose keys are derived from a seed, with the default sensor. -/
def provision (m : Mesh) (seed : Bytes) (id : NodeId) (coherence : Binary64) : Mesh × Outcome Node :=
  match m.obtainKeys (.seeded seed id) with
  | (m, .error e) => (m, .refused (.signing e))
  | (m, .ok k) =>
    match m.create id k coherence m.defaultSensor with
    | .ok (m, n) => (m, .ok n)
    | other => (m, other.map Prod.snd)

def remove (m : Mesh) (id : NodeId) : Except MeshError (Mesh × Node) := do
  let (registry, n) ← m.registry.remove id
  return ({ m with registry := registry }.report ⟨.debug, "Node removed", [("node_id", .text id)]⟩, n)

/-- Makes one node a neighbor of another, and says whether it was none before. -/
def connect (m : Mesh) (source target : NodeId) : Except MeshError (Mesh × Bool) := do
  let (registry, isNew) ← m.registry.connect source target
  return ({ m with registry := registry }, isNew)

def link (m : Mesh) (a b : NodeId) : Except MeshError Mesh := do
  return { m with registry := ← m.registry.link a b }

def setCoherence (m : Mesh) (id : NodeId) (coherence : Binary64) : Except MeshError Mesh := do
  let n ← m.registry.get id
  let n ← n.setCoherence coherence
  return m.update id fun _ => n

def measure (m : Mesh) (id : NodeId) (metric : String) : Mesh × Outcome Binary64 :=
  match m.registry.get id with
  | .error e => (m, .refused e)
  | .ok n =>
    ({ m with tick := m.tick + 1 }, match n.measure metric m.tick with
      | some x => .ok x
      | none => .crashed)

/-- The neighbor of a node that is nearest to a point. -/
def route (m : Mesh) (id : NodeId) (target : Digest) : Except MeshError (Option NodeId) := do
  let n ← m.registry.get id
  return Routing.closest m.suite target n.neighbors

end TriadMesh.Mesh
