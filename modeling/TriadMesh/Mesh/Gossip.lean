import TriadMesh.Mesh.Delivery

/-!
# Gossip

A message begins its way at a node, which logs it after flood control and the gate, without a vote, and
forwards it to every eligible neighbor. Where the queue is full the gossip waits, and deliveries go on
in between; a `Fanout` is a gossip at such a point.
-/

namespace TriadMesh

/-- A gossip that is handing out its message. -/
structure Fanout where
  source : NodeId
  message : Message
  targets : List NodeId
  remaining : List NodeId

namespace Mesh

/-- Begins a gossip: the node logs the message. -/
def beginGossip (m : Mesh) (id : NodeId) (msg : Message) : Mesh × Except MeshError Fanout :=
  match m.registry.get id with
  | .error e => (m, .error e)
  | .ok n =>
    match m.screen n msg with
    | (m, .error e) => (m, .error e)
    | (m, .ok ()) =>
      let m := (m.update id fun k => k.append msg).report ⟨.debug, "Message logged for gossip",
        [("node_id", .text id), ("message_id", .text (msg.id m.suite).short)]⟩
      let targets := m.eligible n none
      (m, .ok ⟨id, msg, targets, targets⟩)

/-- Hands the message to the next target, if there is room in the queue. -/
def advance (m : Mesh) (f : Fanout) : Mesh × Outcome Fanout :=
  match f.remaining with
  | [] => (m, .ok f)
  | target :: rest =>
    match m.propagator.submit ⟨f.source, target, f.message⟩ with
    | (p, outcome) => ({ m with propagator := p }, outcome.map fun () => { f with remaining := rest })

def endGossip (m : Mesh) (f : Fanout) : Mesh := m.announce f.source f.message f.targets.length

/-- Hands the message out to the end. Before it waits, everything in the queue is delivered, in so many
rounds at most; `steps` bounds the steps. -/
def fanOut (rounds : Nat) : (steps : Nat) → Mesh → Fanout → Mesh × Outcome (List NodeId)
  | 0, m, _ => (m, .waiting)
  | steps + 1, m, f =>
    if f.remaining.isEmpty then (m.endGossip f, .ok f.targets)
    else
      match m.advance f with
      | (m, .ok f) => fanOut rounds steps m f
      | (m, .refused e) => (m, .refused e)
      | (m, .crashed) => (m, .crashed)
      | (m, .waiting) => fanOut rounds steps (m.waitIdle rounds).1 f

/-- A message begins its way at a node. The answer names the neighbors it was handed to. Each takes two
steps at most, one of them to make room. -/
def gossip (m : Mesh) (rounds : Nat) (id : NodeId) (msg : Message) : Mesh × Outcome (List NodeId) :=
  match m.beginGossip id msg with
  | (m, .error e) => (m, .refused e)
  | (m, .ok f) => m.fanOut rounds (2 * f.targets.length + 1) f

end Mesh

end TriadMesh
