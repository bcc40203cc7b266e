import TriadMesh.Proofs.Reception
import TriadMesh.Proofs.Topology

/-!
# Runs of a mesh

A deployment is a mesh with what its callers hold: the gossips that still hand out their message, and the
nodes that were taken out. Its actions are the calls that a caller can make, a gossip in pieces, and what
the dispatcher does on its own, so a run may interleave all of them in any order. A node object lives as long
as its id stays registered: one that is built later under the same id is another.
-/

namespace TriadMesh

structure Deployment where
  mesh : Mesh
  fanouts : List Fanout
  /-- The nodes that were taken out, in the state in which they were. -/
  removed : List Node

inductive Action where
  | create (id : NodeId) (keys : KeyPair) (coherence : Binary64) (sensor : Sensor)
  /-- Takes in a node with derived keys and the default sensor. -/
  | provision (seed : Bytes) (id : NodeId) (coherence : Binary64)
  | remove (id : NodeId)
  | connect (source target : NodeId)
  | link (a b : NodeId)
  | setCoherence (id : NodeId) (coherence : Binary64)
  | measure (id : NodeId) (metric : String)
  | gossip (id : NodeId) (msg : Message)
  /-- A gossip hands its message to the next target, if the queue has room. -/
  | advance (k : Nat)
  | finish (k : Nat)
  | receive (id : NodeId) (msg : Message)
  | take
  /-- The forward that the dispatcher holds gets a permit. -/
  | launch
  /-- The delivery at a place among those that run is carried out. -/
  | deliver (i : Nat)

/-- Whether an action only builds or measures, and moves no message. -/
def Action.isStructural : Action → Bool
  | create .. | provision .. | remove _ | connect .. | link .. | setCoherence .. | measure .. => true
  | _ => false

namespace Deployment

/-- A mesh that nobody has used yet. -/
def ofMesh (m : Mesh) : Deployment := ⟨m, [], []⟩

def node? (d : Deployment) (i : NodeId) : Option Node := d.mesh.registry.find? i

/-- Takes over the mesh that a call gives, unless the call is refused. -/
def adopt (d : Deployment) : Except MeshError Mesh → Deployment
  | .ok m => { d with mesh := m }
  | .error _ => d

/-- Takes over the mesh with a new node, if there is one. -/
def welcome (d : Deployment) : Outcome (Mesh × Node) → Deployment
  | .ok (m, _) => { d with mesh := m }
  | _ => d

def withdraw (d : Deployment) : Except MeshError (Mesh × Node) → Deployment
  | .ok (m, n) => { d with mesh := m, removed := d.removed ++ [n] }
  | .error _ => d

def enter (d : Deployment) : Mesh × Except MeshError Fanout → Deployment
  | (m, .ok f) => { d with mesh := m, fanouts := d.fanouts ++ [f] }
  | (m, .error _) => { d with mesh := m }

/-- Keeps the gossip in the `k`-th place where it stands now, or drops it if it was refused. -/
def proceed (d : Deployment) (k : Nat) : Mesh × Outcome Fanout → Deployment
  | (m, .ok f) => { d with mesh := m, fanouts := d.fanouts.set k f }
  | (m, .waiting) => { d with mesh := m }
  | (m, _) => { d with mesh := m, fanouts := d.fanouts.eraseIdx k }

def conclude (d : Deployment) (k : Nat) (f : Fanout) : Deployment :=
  if f.remaining.isEmpty then { d with mesh := d.mesh.endGossip f, fanouts := d.fanouts.eraseIdx k } else d

def step (d : Deployment) : Action → Deployment
  | .create id keys coherence sensor => d.welcome (d.mesh.create id keys coherence sensor)
  | .provision seed id coherence => { d with mesh := (d.mesh.provision seed id coherence).1 }
  | .remove id => d.withdraw (d.mesh.remove id)
  | .connect source target => d.adopt ((d.mesh.connect source target).map Prod.fst)
  | .link a b => d.adopt (d.mesh.link a b)
  | .setCoherence id coherence => d.adopt (d.mesh.setCoherence id coherence)
  | .measure id metric => { d with mesh := (d.mesh.measure id metric).1 }
  | .gossip id msg => d.enter (d.mesh.beginGossip id msg)
  | .advance k => (d.fanouts[k]?).elim d fun f => d.proceed k (d.mesh.advance f)
  | .finish k => (d.fanouts[k]?).elim d (d.conclude k)
  | .receive id msg => { d with mesh := (d.mesh.receive id msg none).1 }
  | .take => { d with mesh := { d.mesh with propagator := d.mesh.propagator.take } }
  | .launch => { d with mesh := { d.mesh with propagator := d.mesh.propagator.launch } }
  | .deliver i => { d with mesh := d.mesh.deliver i }

def run (d : Deployment) (acts : List Action) : Deployment := acts.foldl step d

@[simp] theorem run_nil (d : Deployment) : d.run [] = d := rfl

@[simp] theorem run_cons (d : Deployment) (a : Action) (acts : List Action) :
    d.run (a :: acts) = (d.step a).run acts := rfl

theorem run_append (d : Deployment) (xs ys : List Action) : d.run (xs ++ ys) = (d.run xs).run ys :=
  List.foldl_append

/-- The deployments that a mesh can come to after its start. -/
inductive Reachable : Deployment → Prop where
  | start {s : Suite} {config : Config} {sink : Sink} {noise : Nat → Binary64} {runtime : Bool} {m : Mesh}
      (h : Mesh.start s config sink noise runtime = .ok m) : Reachable (ofMesh m)
  | step {d : Deployment} (h : Reachable d) (a : Action) : Reachable (d.step a)

theorem Reachable.run {d : Deployment} (h : Reachable d) (acts : List Action) : Reachable (d.run acts) := by
  induction acts generalizing d with
  | nil => exact h
  | cons a acts ih => exact ih (h.step a)

/-- The message that an action brings before a node, and the node's id. -/
def presents (d : Deployment) : Action → Option (NodeId × Message)
  | .gossip id msg => some (id, msg)
  | .receive id msg => some (id, msg)
  | .deliver i => d.mesh.propagator.running[i]?.map fun f => (f.target, f.message)
  | _ => none

def sensor? (d : Deployment) : Action → Option Sensor
  | .create _ _ _ sensor => some sensor
  | .provision .. => some d.mesh.defaultSensor
  | _ => none

/-- What an action that brings a message before a node leaves behind there. -/
def imprint (d : Deployment) (a : Action) (n : Node) (msg : Message) : Imprint :=
  match a with
  | .gossip _ _ => d.mesh.gossipImprint n msg
  | _ => (d.mesh.fate n msg).imprint

/-- What can become of the registry in one action, and which nodes are taken out. -/
inductive Evolves (d : Deployment) (a : Action) : Registry → List Node → Prop where
  | joined {n : Node} {s : Sensor} (hp : d.presents a = none) (hnew : d.mesh.registry.find? n.id = none)
      (hs : d.sensor? a = some s) (h : n.Fresh d.mesh.config.seenCapacity s) :
      Evolves d a (d.mesh.registry.push n hnew) []
  | left {id : NodeId} {n : Node} (ha : a = .remove id) (hn : d.node? id = some n) :
      Evolves d a (d.mesh.registry.without id) [n]
  | changed {g : Node → Node} (hp : d.presents a = none) (hid : ∀ n, (g n).id = n.id)
      (hg : ∀ n ∈ d.mesh.registry.nodes, n.Keeps (g n)) : Evolves d a (d.mesh.registry.map g) []
  | missed {i : NodeId} {msg : Message} (hp : d.presents a = some (i, msg)) (hn : d.node? i = none) :
      Evolves d a d.mesh.registry []
  | reached {i : NodeId} {msg : Message} {n : Node} (hp : d.presents a = some (i, msg))
      (hn : d.node? i = some n) :
      Evolves d a (d.mesh.registry.update i (Node.imprint (msg.id d.mesh.suite) msg (d.imprint a n msg))) []

/-- What can become of the node registered under an id in one action. -/
inductive Change (d : Deployment) (a : Action) (i : NodeId) : Option Node → Option Node → Prop where
  | absent : Change d a i none none
  | joined {n : Node} {s : Sensor} (hp : d.presents a = none) (hid : n.id = i) (hs : d.sensor? a = some s)
      (h : n.Fresh d.mesh.config.seenCapacity s) : Change d a i none (some n)
  | left {n : Node} (ha : a = .remove i) : Change d a i (some n) none
  | kept {n n' : Node} (hp : ∀ msg, d.presents a ≠ some (i, msg)) (h : n.Keeps n') :
      Change d a i (some n) (some n')
  | reached {n : Node} {msg : Message} (hp : d.presents a = some (i, msg)) :
      Change d a i (some n) (some (n.imprint (msg.id d.mesh.suite) msg (d.imprint a n msg)))

end Deployment

end TriadMesh
