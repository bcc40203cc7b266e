import TriadMesh.Config.Document
import TriadMesh.Gate
import TriadMesh.Keys
import TriadMesh.Routing

/-!
# Errors of a mesh

Each way in which an operation can be refused. None of them harms a node or the mesh.
-/

namespace TriadMesh

inductive MeshError where
  | authentication (r : Rejection)
  | consensus (variance threshold : Binary64)
  | insufficientTriad (node : NodeId) (neighbors : Nat)
  | duplicate (node : NodeId) (message : Digest)
  | nodeNotFound (node : NodeId)
  | duplicateNode (node : NodeId)
  | selfLink (node : NodeId)
  | invalidCoherence (value : Binary64)
  | queueFull
  | propagatorClosed
  | invalidRouteKey (e : RouteKeyError)
  /-- There is nothing that could carry out deliveries. -/
  | noRuntime
  | signing (e : KeyError)
  | config (e : ConfigError)
deriving DecidableEq

def MeshError.message : MeshError → String
  | .authentication r => "Authentication failed: " ++ r.message
  | .consensus v t =>
    "Consensus failed: variance " ++ Binary64.threePlaces v ++ " exceeds threshold " ++ Binary64.threePlaces t
  | .insufficientTriad id n => s!"Node {id} has {n} neighbor(s); a triad needs 2"
  | .duplicate id d => "Duplicate message " ++ d.short ++ " at node " ++ id
  | .nodeNotFound id => "Node not found: " ++ id
  | .duplicateNode id => "Node already registered: " ++ id
  | .selfLink id => s!"Node {id} cannot be its own neighbor"
  | .invalidCoherence x => "Coherence must lie in [0, 1], got " ++ Binary64.Style.plain.render x
  | .queueFull => "Gossip queue full"
  | .propagatorClosed => "Gossip propagator closed"
  | .invalidRouteKey e => "Invalid routing key: " ++ e.message
  | .noRuntime =>
    "Runtime error: there is no reactor running, must be called from the context of a Tokio 1.x runtime"
  | .signing e => "Signing error: " ++ e.message
  | .config e => "Core error: " ++ e.message

/-- What becomes of an operation: a value, a refusal, a crash in the middle of it, or that it still waits. -/
inductive Outcome (α : Type) where
  | ok (value : α)
  | refused (e : MeshError)
  | crashed
  | waiting
deriving DecidableEq

def Outcome.map {α β : Type} (f : α → β) : Outcome α → Outcome β
  | .ok a => .ok (f a)
  | .refused e => .refused e
  | .crashed => .crashed
  | .waiting => .waiting

def Outcome.ofExcept {α : Type} : Except MeshError α → Outcome α
  | .ok a => .ok a
  | .error e => .refused e

end TriadMesh
