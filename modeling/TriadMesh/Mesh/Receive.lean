import TriadMesh.Mesh.Basic

/-!
# Receiving a message

A message that reaches a node passes flood control and the gate; then the node votes with its first two
neighbors on the configured metric, whatever the message claims. If the vote passes, the node logs the
message and may forward it in turn. A message that fails for want of neighbors or agreement is forgotten,
so that it can be tried again.
-/

namespace TriadMesh.Mesh

/-- Flood control, followed by the gate. The id stays remembered even if the gate refuses the message. -/
def screen (m : Mesh) (n : Node) (msg : Message) : Mesh × Except MeshError Unit :=
  let id := msg.id m.suite
  if n.hasSeen id then
    ((m.report ⟨.debug, "Duplicate message dropped",
        [("node_id", .text n.id), ("message_id", .text id.short)]⟩).emit n.id .duplicate none,
      .error (.duplicate n.id id))
  else
    let m := m.update n.id fun k => (k.markSeen id).1
    match m.gate.check m.suite msg with
    | .ok () => (m, .ok ())
    | .error r =>
      ((m.report ⟨.debug, "Message failed signature gate",
          [("node_id", .text n.id), ("message_id", .text id.short), ("rejection", .text r.message)]⟩).emit
          n.id .authenticationRejected (some msg.vorticity),
        .error (.authentication r))

/-- Queues a forward if there is room, and says whether there was; otherwise it is dropped. -/
def offer (m : Mesh) (f : Forward) : Mesh × Bool :=
  match m.propagator.trySubmit f with
  | (p, .ok ()) => ({ m with propagator := p }, true)
  | (p, .error e) =>
    ({ m with
        propagator := p
        metrics := { m.metrics with relaysDropped := m.metrics.relaysDropped + 1 } }.report
      ⟨.debug, "Relay dropped", [("node_id", .text f.source), ("error", .text e.message)]⟩, false)

/-- Queues as many forwards as there is room for, and counts them. -/
def offerAll (m : Mesh) : List Forward → Mesh × Nat
  | [] => (m, 0)
  | f :: rest =>
    let (m, queued) := m.offer f
    let (m, count) := m.offerAll rest
    (m, if queued then count + 1 else count)

/-- Forwards an accepted message to the eligible neighbors other than its sender. -/
def relay (m : Mesh) (n : Node) (msg : Message) (sender : Option NodeId) : Mesh :=
  let (m', count) := m.offerAll ((m.eligible n sender).map fun target => ⟨n.id, target, msg⟩)
  m'.announce n.id msg count

/-- The vote of three nodes on the configured metric; `none` if a sensor crashes. -/
def vote (m : Mesh) (a b c : Node) : Mesh × Option (Report Binary64) :=
  let v : Validator := ⟨a, b, c, m.config.varianceThreshold⟩
  ({ m with records := m.records ++ v.records, tick := m.tick + 3 }, v.assess m.config.metric m.tick)

def accept (m : Mesh) (n : Node) (msg : Message) (sender : Option NodeId) (r : Report Binary64) : Mesh :=
  let m := (m.update n.id fun k => k.append msg).emit n.id .accepted (some r.mean)
  if m.config.relayAccepted then m.relay n msg sender else m

def reject (m : Mesh) (n : Node) (msg : Message) (r : Report Binary64) : Mesh :=
  let id := msg.id m.suite
  ((m.update n.id fun k => k.forgetSeen id).report ⟨.warn, "Consensus failed",
      [("node_id", .text n.id), ("message_id", .text id.short), ("claimed", .float msg.vorticity),
       ("variance", .float r.variance)]⟩).emit n.id .consensusRejected (some r.variance)

def postpone (m : Mesh) (n : Node) (msg : Message) (neighbors : Nat) : Mesh :=
  ((m.update n.id fun k => k.forgetSeen (msg.id m.suite)).report ⟨.debug, "Insufficient neighbors for TMR",
      [("node_id", .text n.id), ("neighbors", .count neighbors)]⟩).emit n.id .insufficientTriad
    (some msg.vorticity)

/-- Decides on a message that has passed flood control and the gate. If a sensor crashes, the message
stays remembered. -/
def judge (m : Mesh) (n : Node) (msg : Message) (sender : Option NodeId) : Mesh × Outcome Binary64 :=
  match m.registry.neighborsOf n with
  | b :: c :: _ =>
    match m.vote n b c with
    | (m, none) => (m, .crashed)
    | (m, some r) =>
      if r.passed then (m.accept n msg sender r, .ok r.mean)
      else (m.reject n msg r, .refused (.consensus r.variance r.threshold))
  | few => (m.postpone n msg few.length, .refused (.insufficientTriad n.id few.length))

/-- A message reaches a node, from a neighbor or from outside. -/
def receive (m : Mesh) (id : NodeId) (msg : Message) (sender : Option NodeId) : Mesh × Outcome Binary64 :=
  match m.registry.get id with
  | .error e => (m, .refused e)
  | .ok n =>
    match m.screen n msg with
    | (m, .error e) => (m, .refused e)
    | (m, .ok ()) => m.judge n msg sender

end TriadMesh.Mesh
