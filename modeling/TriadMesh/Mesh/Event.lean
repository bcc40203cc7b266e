import TriadMesh.Message.Basic
import TriadMesh.Record

/-!
# Events and counters

Every outcome at a node is an event, which a sink is told of, and adds to a counter of its kind.
-/

namespace TriadMesh

/-- What happened to a message at a node. -/
inductive EventKind where
  /-- It passed every check and was logged. -/
  | accepted
  /-- It was forwarded to at least one neighbor. -/
  | propagated
  | consensusRejected
  | authenticationRejected
  | insufficientTriad
  | duplicate
deriving DecidableEq

namespace EventKind

def all : List EventKind :=
  [accepted, propagated, consensusRejected, authenticationRejected, insufficientTriad, duplicate]

def name : EventKind → String
  | accepted => "Accepted"
  | propagated => "Propagated"
  | consensusRejected => "ConsensusRejected"
  | authenticationRejected => "AuthenticationRejected"
  | insufficientTriad => "InsufficientTriad"
  | duplicate => "Duplicate"

def ofName? (s : String) : Option EventKind := all.find? (·.name == s)

end EventKind

structure Event where
  node : NodeId
  kind : EventKind
  /-- The value agreed on, the variance that was too great, or the vorticity claimed. -/
  value : Option Binary64
deriving DecidableEq

def Event.record (e : Event) : Record :=
  match e.kind with
  | .accepted => ⟨.info, "Message validated by TMR", ("node_id", .text e.node) :: floatField "consensus" e.value⟩
  | .consensusRejected =>
    ⟨.warn, "Consensus failed (possible Byzantine node)", ("node_id", .text e.node) :: floatField "variance" e.value⟩
  | kind =>
    ⟨.debug, "Mesh event",
      ("node_id", .text e.node) :: ("kind", .text kind.name) :: floatField "value" e.value⟩

/-- Who is told of events: the log, or a listener that gets the events themselves. -/
inductive Sink where
  | log
  | listener
deriving DecidableEq

def Sink.records : Sink → Event → List Record
  | log, e => [e.record]
  | listener, _ => []

structure Metrics where
  gossiped : Nat
  forwarded : Nat
  accepted : Nat
  authenticationRejected : Nat
  consensusRejected : Nat
  insufficientTriad : Nat
  duplicates : Nat
  relaysDropped : Nat
deriving DecidableEq, Inhabited

namespace Metrics

def zero : Metrics := ⟨0, 0, 0, 0, 0, 0, 0, 0⟩

def count (m : Metrics) : EventKind → Metrics
  | .accepted => { m with accepted := m.accepted + 1 }
  | .propagated => { m with gossiped := m.gossiped + 1 }
  | .consensusRejected => { m with consensusRejected := m.consensusRejected + 1 }
  | .authenticationRejected => { m with authenticationRejected := m.authenticationRejected + 1 }
  | .insufficientTriad => { m with insufficientTriad := m.insufficientTriad + 1 }
  | .duplicate => { m with duplicates := m.duplicates + 1 }

/-- The counters in the order in which they are written, with their names. -/
def named (m : Metrics) : List (String × Nat) :=
  [("gossiped", m.gossiped), ("forwarded", m.forwarded), ("accepted", m.accepted),
   ("authentication_rejected", m.authenticationRejected), ("consensus_rejected", m.consensusRejected),
   ("insufficient_triad", m.insufficientTriad), ("duplicates", m.duplicates), ("relays_dropped", m.relaysDropped)]

end Metrics

end TriadMesh
