import TriadMesh.Mesh.Error
import TriadMesh.Mesh.SeenSet
import TriadMesh.Sensor
import TriadMesh.Triad

/-!
# Nodes

A node has its keys, its coherence, the ids of its neighbors, the messages it accepted and the ids of
those it has seen, and a sensor of its own.
-/

namespace TriadMesh

structure Node where
  id : NodeId
  keys : KeyPair
  coherence : Binary64
  /-- Neighbors in the order in which they were linked. -/
  neighbors : List NodeId
  /-- Accepted messages, the newest last. -/
  log : List Message
  seen : SeenSet
  sensor : Sensor

namespace Node

def defaultSeenCapacity : Nat := 4096

/-- A new node. Its coherence must lie between 0 and 1. -/
def new (id : NodeId) (keys : KeyPair) (coherence : Binary64) (sensor : Sensor) : Except MeshError Node :=
  if Config.inUnitInterval coherence then
    .ok ⟨id, keys, coherence, [], [], .empty defaultSeenCapacity, sensor⟩
  else .error (.invalidCoherence coherence)

/-- The node with another memory, an empty one; `none` if there cannot be room for it. -/
def withSeenCapacity (n : Node) (capacity : Nat) : Option Node :=
  (SeenSet.allocate capacity).map fun seen => { n with seen := seen }

def setCoherence (n : Node) (coherence : Binary64) : Except MeshError Node :=
  if Config.inUnitInterval coherence then .ok { n with coherence := coherence }
  else .error (.invalidCoherence coherence)

/-- The node's own reading of a metric; `none` if its sensor crashes. -/
def measure (n : Node) (metric : String) (tick : Nat) : Option Binary64 :=
  n.sensor.read ⟨n.id, n.coherence, metric, tick⟩

def signMessage (s : Suite) (n : Node) (timestamp : Int64) (vorticity phase : Binary64) (content : Bytes) : Message :=
  n.keys.signMessage s timestamp vorticity phase content

/-- Adds a neighbor at the end, and says whether it is new. -/
def addNeighbor (n : Node) (id : NodeId) : Node × Bool :=
  if id ∈ n.neighbors then (n, false) else ({ n with neighbors := n.neighbors ++ [id] }, true)

def removeNeighbor (n : Node) (id : NodeId) : Node := { n with neighbors := n.neighbors.filter (· != id) }

def append (n : Node) (m : Message) : Node := { n with log := n.log ++ [m] }

/-- Remembers a message, and says whether it is new. -/
def markSeen (n : Node) (id : Digest) : Node × Bool := ({ n with seen := (n.seen.insert id).1 }, (n.seen.insert id).2)

/-- Forgets a message, so that it can be tried again. -/
def forgetSeen (n : Node) (id : Digest) : Node := { n with seen := n.seen.erase id }

def hasSeen (n : Node) (id : Digest) : Bool := n.seen.contains id

def logContains (s : Suite) (n : Node) (id : Digest) : Bool := n.log.any fun m => m.id s == id

def inspect (n : Node) : String :=
  "MeshNode \x7b id: " ++ Text.inspect n.id ++ ", coherence: " ++ Binary64.Style.inspect.render n.coherence ++
    ", neighbors: [" ++ ", ".intercalate (n.neighbors.map Text.inspect) ++ "], log_len: " ++
    toString n.log.length ++ ", .. \x7d"

end Node

/-- Three nodes that vote, with the greatest variance with which they agree. -/
structure Validator where
  alpha : Node
  beta : Node
  gamma : Node
  threshold : Binary64

namespace Validator

def isDistinct (v : Validator) : Bool :=
  v.alpha.id != v.beta.id && v.alpha.id != v.gamma.id && v.beta.id != v.gamma.id

/-- The readings of the members, one after the other; `none` if a sensor crashes. -/
def snapshot (v : Validator) (metric : String) (tick : Nat) : Option (Triad Binary64) := do
  let a ← v.alpha.measure metric tick
  let b ← v.beta.measure metric (tick + 1)
  let c ← v.gamma.measure metric (tick + 2)
  return ⟨a, b, c⟩

def aliasWarning : String := "TMR triad aliases a node; fewer than 3 independent sources"

/-- What is reported before a round: that some members are one node. -/
def records (v : Validator) : List Record :=
  if v.isDistinct then []
  else [⟨.warn, aliasWarning,
    [("alpha", .text v.alpha.id), ("beta", .text v.beta.id), ("gamma", .text v.gamma.id)]⟩]

def assess (v : Validator) (metric : String) (tick : Nat) : Option (Report Binary64) :=
  (v.snapshot metric tick).map fun t => t.evaluate v.threshold

end Validator

end TriadMesh
