import TriadMesh.Mesh.Error

/-!
# The propagator

Forwards wait in a bounded queue. A dispatcher takes them out in order; a forward it has taken waits for
one of a bounded number of permits and then is being delivered. The count of forwards in flight goes up
when one is submitted and down when its delivery has ended, however it ends.

The dispatcher has only a weak hold on the handler, and so it discards what it takes once the handler is gone.
What it has taken before has a strong hold until its delivery has ended.
-/

namespace TriadMesh

structure Propagator (α : Type) where
  capacity : Nat
  permits : Nat
  queued : List α
  /-- The forward that the dispatcher has taken and that waits for a permit. -/
  held : Option α
  running : List α
  inFlight : Nat
  /-- The owner of the handler has let go of it. -/
  ownerGone : Bool
  closed : Bool
deriving Inhabited

namespace Propagator

/-- The greatest size of a queue, and the greatest number of permits. -/
def sizeLimit : Nat := 2 ^ 61 - 1

/-- A propagator at rest; both sizes are at least one. -/
def empty {α : Type} (capacity maxInFlight : Nat) : Propagator α where
  capacity := max capacity 1
  permits := max maxInFlight 1
  queued := []
  held := none
  running := []
  inFlight := 0
  ownerGone := false
  closed := false

/-- Starts a propagator. It needs something that runs its deliveries, and sizes beyond the limit crash. -/
def start {α : Type} (runtime : Bool) (capacity maxInFlight : Nat) : Outcome (Propagator α) :=
  if !runtime then .refused .noRuntime
  else if sizeLimit < max capacity 1 ∨ sizeLimit < max maxInFlight 1 then .crashed
  else .ok (empty capacity maxInFlight)

variable {α : Type}

def hasRoom (p : Propagator α) : Bool := decide (p.queued.length < p.capacity)

def pending (p : Propagator α) : List α := p.running ++ p.held.toList ++ p.queued

def begin (p : Propagator α) : Propagator α := { p with inFlight := p.inFlight + 1 }

def finish (p : Propagator α) : Propagator α := { p with inFlight := p.inFlight - 1 }

/-- Puts a forward that has been counted at the end of the queue. -/
def enqueue (p : Propagator α) (x : α) : Propagator α := { p with queued := p.queued ++ [x] }

/-- Queues a forward without waiting. It is counted before the queue is asked. -/
def trySubmit (p : Propagator α) (x : α) : Propagator α × Except MeshError Unit :=
  let p := p.begin
  if p.closed then (p.finish, .error .propagatorClosed)
  else if p.hasRoom then (p.enqueue x, .ok ())
  else (p.finish, .error .queueFull)

/-- Queues a forward if there is room and otherwise waits. It is counted once it has a place. -/
def submit (p : Propagator α) (x : α) : Propagator α × Outcome Unit :=
  if p.closed then (p, .refused .propagatorClosed)
  else if p.hasRoom then (p.begin.enqueue x, .ok ())
  else (p, .waiting)

/-- Nobody is left to deliver to: the owner of the handler has let go of it, and so has each forward that was
taken. -/
def handlerGone (p : Propagator α) : Bool := p.ownerGone && p.held.isNone && p.running.isEmpty

/-- The dispatcher takes the front of the queue, if it holds nothing. With nobody to deliver to, the
forward is discarded. -/
def take (p : Propagator α) : Propagator α :=
  match p.held, p.queued with
  | none, x :: rest =>
    if p.handlerGone then { p with queued := rest }.finish else { p with queued := rest, held := some x }
  | _, _ => p

/-- The held forward gets a permit, if one is left. -/
def launch (p : Propagator α) : Propagator α :=
  match p.held with
  | some x => if p.running.length < p.permits then { p with held := none, running := p.running ++ [x] } else p
  | none => p

def complete (p : Propagator α) (i : Nat) : Propagator α := { p with running := p.running.eraseIdx i }.finish

/-- The dispatcher goes on until it waits for a permit or the queue is empty: `n` times it takes a
forward and sees to a permit. -/
def dispatch : Nat → Propagator α → Propagator α
  | 0, p => p.launch
  | n + 1, p => dispatch n p.launch.take

def dispatchAll (p : Propagator α) : Propagator α := dispatch p.queued.length p

/-- One round: the dispatcher goes on as far as it can, then everything that runs is delivered. -/
def round (p : Propagator α) : Propagator α × List α :=
  let p := p.dispatchAll
  (p.running.foldl (fun q _ => q.complete 0) p, p.running)

/-- `n` rounds, with what they deliver. -/
def drain : Nat → Propagator α → Propagator α × List α
  | 0, p => (p, [])
  | n + 1, p => ((drain n p.round.1).1, p.round.2 ++ (drain n p.round.1).2)

/-- Delivers everything, if a delivery submits nothing new: each round delivers a forward at least. -/
def drainAll (p : Propagator α) : Propagator α × List α := drain p.pending.length p

/-- The forwards that the dispatcher is going to discard: once the handler is gone, all that wait. -/
def discards (p : Propagator α) : List α := if p.handlerGone then p.queued else []

/-- The owner lets go of the handler. -/
def dropHandler (p : Propagator α) : Propagator α := { p with ownerGone := true }

/-- Ends the dispatcher. What waits is lost, and stays on the count. -/
def shutDown (p : Propagator α) : Propagator α := { p with queued := [], held := none, running := [], closed := true }

end Propagator

end TriadMesh
