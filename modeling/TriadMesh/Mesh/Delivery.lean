import TriadMesh.Mesh.Receive

/-!
# Deliveries

The propagator hands each forward to its target, which receives the message. Deliveries may end in any
order; `round` is the order of a mesh that does one thing at a time.
-/

namespace TriadMesh.Mesh

/-- Hands a forward to its target. Of a refusal only a log record is left, and of a crash nothing. -/
def handle (m : Mesh) (f : Forward) : Mesh :=
  match m.receive f.target f.message (some f.source) with
  | (m, .refused e) =>
    m.report ⟨.debug, "Forward not accepted",
      [("from", .text f.source), ("to", .text f.target), ("error", .text e.message)]⟩
  | (m, _) => m

/-- Carries out the delivery at a place among those that run. -/
def deliver (m : Mesh) (i : Nat) : Mesh :=
  match m.propagator.running[i]? with
  | none => m
  | some f =>
    let m := m.handle f
    { m with propagator := m.propagator.complete i }

def dispatch (m : Mesh) : Mesh := { m with propagator := m.propagator.dispatchAll }

/-- Carries out the first deliveries that run, one after the other. -/
def deliverFirst : Nat → Mesh → Mesh
  | 0, m => m
  | n + 1, m => deliverFirst n (m.deliver 0)

/-- One round: the dispatcher starts as many deliveries as there are permits, and all of them are carried
out in order. -/
def round (m : Mesh) : Mesh := deliverFirst m.dispatch.propagator.running.length m.dispatch

/-- Goes on until nothing is in flight, for so many rounds at most. -/
def waitIdle : Nat → Mesh → Mesh × Outcome Unit
  | 0, m => (m, if m.inFlight = 0 then .ok () else .waiting)
  | rounds + 1, m => if m.inFlight = 0 then (m, .ok ()) else waitIdle rounds m.round

def discardRecord (f : Forward) : Record :=
  ⟨.trace, "Handler gone, discarding forward", [("to", .text f.target)]⟩

/-- Takes down a mesh with no delivery under way: no node is left, what is queued is discarded, and the
dispatcher ends. -/
def drop (m : Mesh) : Mesh :=
  { m with
    registry := .empty
    propagator := m.propagator.dropHandler.drainAll.1.shutDown
    records := m.records ++ m.propagator.queued.map discardRecord ++ [⟨.debug, "Gossip dispatcher stopped", []⟩] }

end TriadMesh.Mesh
