import TriadMesh.Mesh.Gossip
import TriadMesh.Proofs.Propagator
import TriadMesh.Proofs.Registry
import TriadMesh.Proofs.SeenSet

/-!
# What a message does to a mesh

A message that reaches a node meets one of six fates, which depend on the node, its triad and the gate
alone. The fate fixes what stays behind at the node, what is emitted, what is answered and what is offered
to the queue; every other node and the rest of the mesh are left as they were.
-/

namespace TriadMesh

/-- What a message leaves behind at the node that it reaches. -/
inductive Imprint where
  | nothing
  | marked
  /-- Its id is remembered, and it is in the log. -/
  | logged
  /-- Its id has been remembered and forgotten. -/
  | withdrawn
deriving DecidableEq

/-- What a node that remembers a message with the id `d` still has to do to bear an imprint of it. -/
def Node.settle (d : Digest) (msg : Message) : Imprint → Node → Node
  | .nothing, n => n
  | .marked, n => n
  | .logged, n => n.append msg
  | .withdrawn, n => n.forgetSeen d

/-- The node with an imprint of a message, which has the id `d`. -/
def Node.imprint (d : Digest) (msg : Message) : Imprint → Node → Node
  | .nothing, n => n
  | i, n => (n.markSeen d).1.settle d msg i

namespace Node

variable (d : Digest) (msg : Message) (i : Imprint) (n : Node)

@[simp] theorem imprint_id : (n.imprint d msg i).id = n.id := by cases i <;> rfl

@[simp] theorem imprint_coherence : (n.imprint d msg i).coherence = n.coherence := by cases i <;> rfl

@[simp] theorem imprint_neighbors : (n.imprint d msg i).neighbors = n.neighbors := by cases i <;> rfl

@[simp] theorem imprint_sensor : (n.imprint d msg i).sensor = n.sensor := by cases i <;> rfl

theorem imprint_log : (n.imprint d msg i).log = if i = .logged then n.log ++ [msg] else n.log := by
  cases i <;> rfl

theorem imprint_capacity : (n.imprint d msg i).seen.capacity = n.seen.capacity := by
  cases i with
  | nothing => rfl
  | marked => exact SeenSet.capacity_insert _ _
  | logged => exact SeenSet.capacity_insert _ _
  | withdrawn => exact SeenSet.capacity_insert _ _

end Node

/-- What becomes of a message that reaches a node. -/
inductive Fate where
  | duplicate
  | refused (r : Rejection)
  | postponed (neighbors : Nat)
  | crashed
  | rejected (r : Report Binary64)
  | accepted (r : Report Binary64)

namespace Fate

def imprint : Fate → Imprint
  | duplicate => .nothing
  | refused _ => .marked
  | postponed _ => .withdrawn
  | crashed => .marked
  | rejected _ => .withdrawn
  | accepted _ => .logged

def event (n : Node) (msg : Message) : Fate → Option Event
  | duplicate => some ⟨n.id, .duplicate, none⟩
  | refused _ => some ⟨n.id, .authenticationRejected, some msg.vorticity⟩
  | postponed _ => some ⟨n.id, .insufficientTriad, some msg.vorticity⟩
  | crashed => none
  | rejected r => some ⟨n.id, .consensusRejected, some r.variance⟩
  | accepted r => some ⟨n.id, .accepted, some r.mean⟩

def outcome (n : Node) (d : Digest) : Fate → Outcome Binary64
  | duplicate => .refused (.duplicate n.id d)
  | refused r => .refused (.authentication r)
  | postponed k => .refused (.insufficientTriad n.id k)
  | crashed => .crashed
  | rejected r => .refused (.consensus r.variance r.threshold)
  | accepted r => .ok r.mean

end Fate

namespace Mesh

/-- The round that a node calls with two of its neighbors. -/
def round? (m : Mesh) (n b c : Node) : Option (Report Binary64) :=
  (⟨n, b, c, m.config.varianceThreshold⟩ : Validator).assess m.config.metric m.tick

/-- The fate of a message, whatever it says, at a node that does not remember it, if it passes the gate. -/
def ballot (m : Mesh) (n : Node) : Fate :=
  match m.registry.neighborsOf n with
  | b :: c :: _ =>
    match m.round? n b c with
    | none => .crashed
    | some r => if r.passed then .accepted r else .rejected r
  | few => .postponed few.length

/-- The fate of a message that a node does not let in. -/
def barred? (m : Mesh) (n : Node) (msg : Message) : Option Fate :=
  if n.hasSeen (msg.id m.suite) then some .duplicate
  else
    match m.gate.check m.suite msg with
    | .error r => some (.refused r)
    | .ok () => none

def fate (m : Mesh) (n : Node) (msg : Message) : Fate := (m.barred? n msg).getD (m.ballot n)

/-- The forwards that a node offers to the queue once it has accepted a message. -/
def relays (m : Mesh) (n : Node) (msg : Message) (sender : Option NodeId) : List Forward :=
  (m.eligible n sender).map fun target => ⟨n.id, target, msg⟩

/-- The forwards that a message with some fate makes a node offer to the queue. -/
def offers (m : Mesh) (n : Node) (msg : Message) (sender : Option NodeId) : Fate → List Forward
  | .accepted _ => if m.config.relayAccepted then m.relays n msg sender else []
  | _ => []

end Mesh

namespace Metrics

def counting (m : Metrics) : Option Event → Metrics
  | some e => m.count e.kind
  | none => m

/-- Counts a relay: how many forwards have been queued, and how many dropped. -/
def relayed (m : Metrics) (queued dropped : Nat) : Metrics :=
  { m with
    forwarded := m.forwarded + queued
    relaysDropped := m.relaysDropped + dropped
    gossiped := m.gossiped + min 1 queued }

@[simp] theorem relayed_zero (m : Metrics) : m.relayed 0 0 = m := rfl

end Metrics

namespace Mesh

/-- A mesh that a message has reached: the node `n` has changed by `g`, there was an event or none, and of
the forwards that were offered to the queue `taken` found room. -/
structure Reached (m : Mesh) (n : Node) (msg : Message) (g : Node → Node) (event : Option Event)
    (offered taken : List Forward) (m' : Mesh) : Prop where
  suite : m'.suite = m.suite
  config : m'.config = m.config
  registry : m'.registry = m.registry.update n.id g
  sublist : taken.Sublist offered
  propagator : m'.propagator = m.propagator.extend taken
  /-- Nothing is dropped that there is room for. -/
  complete : m.propagator.Fits offered → taken = offered
  metrics : m'.metrics = (m.metrics.counting event).relayed taken.length (offered.length - taken.length)
  events : m'.events = m.events ++ event.toList ++
    if taken.length = 0 then [] else [⟨n.id, .propagated, some msg.vorticity⟩]

/-! ## Queueing -/

/-- Eligibility looks at ids and coherences only. -/
theorem eligible_congr (m' m : Mesh) (n' n : Node) {g : Node → Node} (hg : ∀ k, (g k).id = k.id)
    (hc : ∀ k, (g k).coherence = k.coherence) (hn : n'.neighbors = n.neighbors)
    (hr : m'.registry = m.registry.map g) (hconfig : m'.config = m.config) (leaveOut : Option NodeId) :
    m'.eligible n' leaveOut = m.eligible n leaveOut := by
  have hneighbors : m'.registry.neighborsOf n' = (m.registry.neighborsOf n).map g := by
    rw [hr, ← Registry.neighborsOf_map hg, Registry.neighborsOf, Registry.neighborsOf, hn]
  simp only [eligible, hneighbors, hconfig, List.filter_map, List.map_map, Function.comp_def, hg, hc]

theorem eligible_of_update {m' m : Mesh} {id : NodeId} {f : Node → Node}
    (hr : m'.registry = m.registry.update id f)
    (hconfig : m'.config = m.config) (hid : ∀ k, (f k).id = k.id) (hc : ∀ k, (f k).coherence = k.coherence)
    (n : Node) (leaveOut : Option NodeId) : m'.eligible n leaveOut = m.eligible n leaveOut :=
  eligible_congr m' m n n (Registry.only_congr Node.id hid) (Registry.only_congr Node.coherence hc) rfl
    (hr.trans (Registry.update_eq_map hid)) hconfig leaveOut

/-- Some of the forwards that are offered find room, and the others are counted as dropped. -/
theorem offerAll_spec (m : Mesh) (fs : List Forward) :
    ∃ taken rs, taken.Sublist fs ∧ m.offerAll fs =
      ({ m with
          propagator := m.propagator.extend taken
          metrics := { m.metrics with relaysDropped := m.metrics.relaysDropped + (fs.length - taken.length) }
          records := rs }, taken.length) ∧ (m.propagator.Fits fs → taken = fs) := by
  induction fs generalizing m with
  | nil => exact ⟨[], m.records, List.Sublist.refl _, by simp [offerAll], fun _ => rfl⟩
  | cons f rest ih =>
    rcases Propagator.trySubmit_cases m.propagator f with hq | ⟨e, hq⟩
    · have hoffer : m.offer f = ({ m with propagator := m.propagator.extend [f] }, true) := by
        rw [offer, hq]
      obtain ⟨taken, rs, hsub, heq, hall⟩ := ih { m with propagator := m.propagator.extend [f] }
      refine ⟨f :: taken, rs, hsub.cons_cons f, ?_, fun hfits => congrArg (f :: ·) (hall hfits.extend_head)⟩
      simp only [offerAll, hoffer, heq, Propagator.extend_extend, List.cons_append, List.nil_append,
        List.length_cons, Nat.add_sub_add_right, if_true]
    · obtain ⟨rs₀, hoffer⟩ : ∃ rs₀, m.offer f =
          ({ m with
              metrics := { m.metrics with relaysDropped := m.metrics.relaysDropped + 1 }
              records := rs₀ }, false) := by
        rw [offer, hq]
        exact ⟨_, rfl⟩
      obtain ⟨taken, rs, hsub, heq, -⟩ := ih
        { m with
          metrics := { m.metrics with relaysDropped := m.metrics.relaysDropped + 1 }
          records := rs₀ }
      have hfull : m.propagator.Fits (f :: rest) → taken = f :: rest := fun hfits => by
        rw [hfits.trySubmit_head] at hq
        cases (Prod.ext_iff.1 hq).2
      refine ⟨taken, rs, hsub.cons f, ?_, hfull⟩
      have hlen := hsub.length_le
      have hdropped : m.metrics.relaysDropped + 1 + (rest.length - taken.length) =
          m.metrics.relaysDropped + ((f :: rest).length - taken.length) := by
        rw [List.length_cons]
        omega
      simp only [offerAll, hoffer, heq, hdropped, Bool.false_eq_true, if_false]

/-- Telling of forwards touches counters, events and log records alone. -/
theorem announce_eq (m : Mesh) (id : NodeId) (msg : Message) (count : Nat) :
    ∃ rs, m.announce id msg count =
      { m with
        metrics := m.metrics.relayed count 0
        events := m.events ++ if count = 0 then [] else [⟨id, .propagated, some msg.vorticity⟩]
        records := rs } := by
  by_cases h : count = 0
  · exact ⟨m.records, by simp [announce, h]⟩
  · have hmin : min 1 count = 1 := by omega
    refine ⟨m.records ++ m.sink.records ⟨id, .propagated, some msg.vorticity⟩, ?_⟩
    rw [announce, if_neg h, if_neg h, Metrics.relayed, hmin]
    rfl

/-- A relay queues some of its forwards, counts them, and tells of them if there are any. -/
theorem relay_spec (m : Mesh) (n : Node) (msg : Message) (sender : Option NodeId) :
    ∃ taken rs, taken.Sublist (m.relays n msg sender) ∧ m.relay n msg sender =
      { m with
        propagator := m.propagator.extend taken
        metrics := m.metrics.relayed taken.length ((m.relays n msg sender).length - taken.length)
        events := m.events ++ if taken.length = 0 then [] else [⟨n.id, .propagated, some msg.vorticity⟩]
        records := rs } ∧ (m.propagator.Fits (m.relays n msg sender) → taken = m.relays n msg sender) := by
  obtain ⟨taken, rs, hsub, heq, hall⟩ := offerAll_spec m (m.relays n msg sender)
  have hrelay : m.relay n msg sender =
      (m.offerAll (m.relays n msg sender)).1.announce n.id msg (m.offerAll (m.relays n msg sender)).2 := rfl
  rw [hrelay, heq]
  obtain ⟨rs', hannounce⟩ := announce_eq
    { m with
      propagator := m.propagator.extend taken
      metrics := { m.metrics with
        relaysDropped := m.metrics.relaysDropped + ((m.relays n msg sender).length - taken.length) }
      records := rs } n.id msg taken.length
  exact ⟨taken, rs', hsub, hannounce, hall⟩

/-! ## Reception -/

variable {m : Mesh} {n : Node} {msg : Message} {sender : Option NodeId}

/-- The mesh after a node has remembered a message. -/
def marked (m : Mesh) (n : Node) (msg : Message) : Mesh :=
  m.update n.id fun k => (k.markSeen (msg.id m.suite)).1

theorem screen_of_seen (h : n.hasSeen (msg.id m.suite) = true) :
    ∃ rs, m.screen n msg =
      ({ m.emit n.id .duplicate none with records := rs }, .error (.duplicate n.id (msg.id m.suite))) := by
  rw [screen, if_pos h]
  exact ⟨_, rfl⟩

theorem screen_of_refused {r : Rejection} (h : n.hasSeen (msg.id m.suite) = false)
    (hgate : m.gate.check m.suite msg = .error r) :
    ∃ rs, m.screen n msg =
      ({ (m.marked n msg).emit n.id .authenticationRejected (some msg.vorticity) with records := rs },
        .error (.authentication r)) := by
  rw [screen, if_neg (by simp [h])]
  dsimp only
  split
  case h_1 hok => cases hgate.symm.trans hok
  case h_2 r' herror =>
    cases hgate.symm.trans herror
    exact ⟨_, rfl⟩

theorem screen_of_passed (h : n.hasSeen (msg.id m.suite) = false)
    (hgate : m.gate.check m.suite msg = .ok ()) :
    m.screen n msg = (m.marked n msg, .ok ()) := by
  rw [screen, if_neg (by simp [h])]
  dsimp only
  split
  case h_1 => rfl
  case h_2 herror => cases hgate.symm.trans herror

/-- Remembering a message does not change how a node and its neighbors vote. -/
theorem ballot_marked : (m.marked n msg).ballot n = m.ballot n := by
  let mark := fun k : Node => (k.markSeen (msg.id m.suite)).1
  have hneighbors : (m.marked n msg).registry.neighborsOf n =
      (m.registry.neighborsOf n).map (Registry.only n.id mark) :=
    Registry.neighborsOf_update (f := mark) (fun _ => rfl) n
  have hmeasure : ∀ (k : Node) (metric : String) (tick : Nat),
      (Registry.only n.id mark k).measure metric tick = k.measure metric tick := by
    intro k metric tick
    exact Registry.only_congr (f := mark) (fun k => k.measure metric tick) (fun _ => rfl) k
  have hround : ∀ b c, (m.marked n msg).round? n (Registry.only n.id mark b) (Registry.only n.id mark c) =
      m.round? n b c := by
    intro b c
    simp only [round?, Validator.assess, Validator.snapshot, hmeasure]
    rfl
  unfold ballot
  rw [hneighbors]
  rcases m.registry.neighborsOf n with _ | ⟨b, _ | ⟨c, rest⟩⟩
  · rfl
  · rfl
  · simp only [List.map_cons, hround]

theorem Reached.of_marked {g : Node → Node} {e : Option Event} {offered taken : List Forward} {m' : Mesh}
    (h : Reached (m.marked n msg) n msg g e offered taken m') :
    Reached m n msg (fun k => g (k.markSeen (msg.id m.suite)).1) e offered taken m' where
  suite := h.suite
  config := h.config
  registry := h.registry.trans (Registry.update_update (g := g) fun _ => rfl)
  sublist := h.sublist
  propagator := h.propagator
  complete := h.complete
  metrics := h.metrics
  events := h.events

/-- A message that offers nothing to the queue. -/
theorem Reached.of_quiet {g : Node → Node} {e : Option Event} {m' : Mesh} (hsuite : m'.suite = m.suite)
    (hconfig : m'.config = m.config) (hregistry : m'.registry = m.registry.update n.id g)
    (hpropagator : m'.propagator = m.propagator) (hmetrics : m'.metrics = m.metrics.counting e)
    (hevents : m'.events = m.events ++ e.toList) : Reached m n msg g e [] [] m' where
  suite := hsuite
  config := hconfig
  registry := hregistry
  sublist := List.Sublist.refl _
  propagator := by rw [hpropagator, Propagator.extend_nil]
  complete := fun _ => rfl
  metrics := by rw [hmetrics, List.length_nil, Nat.sub_self, Metrics.relayed_zero]
  events := by rw [hevents, List.length_nil, if_pos rfl, List.append_nil]

/-- Where nothing is offered to the queue, it stays as it is, and nothing is counted as forwarded or dropped. -/
theorem Reached.quiet {g : Node → Node} {e : Option Event} {taken : List Forward} {m' : Mesh}
    (h : Reached m n msg g e [] taken m') :
    m'.propagator = m.propagator ∧ m'.metrics = m.metrics.counting e ∧ m'.events = m.events ++ e.toList := by
  obtain rfl : taken = [] := List.sublist_nil.1 h.sublist
  have hpropagator := h.propagator
  have hmetrics := h.metrics
  have hevents := h.events
  rw [Propagator.extend_nil] at hpropagator
  rw [List.length_nil, Nat.sub_self, Metrics.relayed_zero] at hmetrics
  rw [List.length_nil, if_pos rfl, List.append_nil] at hevents
  exact ⟨hpropagator, hmetrics, hevents⟩

/-- After a round that passed, the node logs the message and relays it if it is configured to. -/
theorem accept_spec (m : Mesh) (n : Node) (msg : Message) (sender : Option NodeId) (r : Report Binary64) :
    ∃ taken, Reached m n msg (fun k => k.append msg) (some ⟨n.id, .accepted, some r.mean⟩)
      (m.offers n msg sender (.accepted r)) taken (m.accept n msg sender r) := by
  let m₁ := (m.update n.id fun k => k.append msg).emit n.id .accepted (some r.mean)
  have haccept : m.accept n msg sender r = if m.config.relayAccepted then m₁.relay n msg sender else m₁ := rfl
  rw [haccept, offers]
  by_cases hrelay : m.config.relayAccepted = true
  · have hr : m₁.registry = m.registry.update n.id fun k => k.append msg := rfl
    have heligible : m₁.eligible n sender = m.eligible n sender :=
      eligible_of_update hr rfl (fun _ => rfl) (fun _ => rfl) n sender
    have hrelays : m₁.relays n msg sender = m.relays n msg sender := by
      rw [relays, relays, heligible]
    obtain ⟨taken, rs, hsub, heq, hall⟩ := relay_spec m₁ n msg sender
    rw [hrelays] at hsub heq hall
    refine ⟨taken, ?_⟩
    rw [if_pos hrelay, if_pos hrelay, heq]
    exact ⟨rfl, rfl, rfl, hsub, rfl, hall, rfl, rfl⟩
  · refine ⟨[], ?_⟩
    rw [if_neg hrelay, if_neg hrelay]
    exact .of_quiet rfl rfl rfl rfl rfl rfl

/-- What a message does that has passed flood control and the gate. -/
theorem judge_spec (m : Mesh) (n : Node) (msg : Message) (sender : Option NodeId) :
    (m.judge n msg sender).2 = (m.ballot n).outcome n (msg.id m.suite) ∧
      ∃ taken, Reached m n msg (Node.settle (msg.id m.suite) msg (m.ballot n).imprint) ((m.ballot n).event n msg)
        (m.offers n msg sender (m.ballot n)) taken (m.judge n msg sender).1 := by
  have hvoted : ∀ b c, ∃ rs, m.vote n b c = ({ m with records := rs, tick := m.tick + 3 }, m.round? n b c) :=
    fun b c => ⟨_, rfl⟩
  unfold judge ballot
  rcases m.registry.neighborsOf n with _ | ⟨b, _ | ⟨c, rest⟩⟩
  case nil => exact ⟨rfl, [], .of_quiet rfl rfl rfl rfl rfl rfl⟩
  case cons.nil => exact ⟨rfl, [], .of_quiet rfl rfl rfl rfl rfl rfl⟩
  case cons.cons =>
    obtain ⟨rs, hvote⟩ := hvoted b c
    simp only [hvote]
    cases hround : m.round? n b c with
    | none => exact ⟨rfl, [], .of_quiet rfl rfl Registry.update_id.symm rfl rfl (List.append_nil _).symm⟩
    | some r =>
      dsimp only
      by_cases hpassed : r.passed = true
      · obtain ⟨taken, h⟩ := accept_spec { m with records := rs, tick := m.tick + 3 } n msg sender r
        rw [if_pos hpassed, if_pos hpassed]
        exact ⟨rfl, taken, h.suite, h.config, h.registry, h.sublist, h.propagator, h.complete, h.metrics, h.events⟩
      · rw [if_neg hpassed, if_neg hpassed]
        exact ⟨rfl, [], .of_quiet rfl rfl rfl rfl rfl rfl⟩

/-- Remembering a message does not change which forwards a node offers. -/
theorem offers_marked (fate : Fate) :
    (m.marked n msg).offers n msg sender fate = m.offers n msg sender fate := by
  have hr : (m.marked n msg).registry = m.registry.update n.id fun k => (k.markSeen (msg.id m.suite)).1 := rfl
  have heligible : (m.marked n msg).eligible n sender = m.eligible n sender :=
    eligible_of_update hr rfl (fun _ => rfl) (fun _ => rfl) n sender
  cases fate with
  | accepted r =>
    rw [offers, offers, relays, relays, heligible]
    rfl
  | _ => rfl

theorem ballot_imprint_ne_nothing (m : Mesh) (n : Node) : (m.ballot n).imprint ≠ .nothing := by
  unfold ballot
  split
  · split
    · exact Imprint.noConfusion
    · split <;> exact Imprint.noConfusion
  · exact Imprint.noConfusion

theorem imprint_of_ne_nothing {d : Digest} {i : Imprint} (h : i ≠ .nothing) :
    Node.imprint d msg i = fun k => (k.markSeen d).1.settle d msg i := by
  cases i with
  | nothing => exact absurd rfl h
  | _ => rfl

theorem barred?_of_seen (h : n.hasSeen (msg.id m.suite) = true) : m.barred? n msg = some .duplicate := by
  rw [barred?, if_pos h]

theorem barred?_of_refused {r : Rejection} (h : n.hasSeen (msg.id m.suite) = false)
    (hgate : m.gate.check m.suite msg = .error r) : m.barred? n msg = some (.refused r) := by
  rw [barred?, if_neg (by simp [h]), hgate]

theorem barred?_eq_none_iff :
    m.barred? n msg = none ↔ n.hasSeen (msg.id m.suite) = false ∧ m.gate.check m.suite msg = .ok () := by
  unfold barred?
  cases n.hasSeen (msg.id m.suite) with
  | true => simp
  | false => cases m.gate.check m.suite msg <;> simp

/-- A message that a node does not let in is remembered if it is new, and reported. -/
theorem screen_of_barred {fate : Fate} (h : m.barred? n msg = some fate) :
    ∃ e, (m.screen n msg).2 = .error e ∧ fate.outcome n (msg.id m.suite) = .refused e ∧
      Reached m n msg (Node.imprint (msg.id m.suite) msg fate.imprint) (fate.event n msg) [] []
        (m.screen n msg).1 := by
  by_cases hseen : n.hasSeen (msg.id m.suite) = true
  · rw [barred?_of_seen hseen] at h
    obtain ⟨rs, hscreen⟩ := screen_of_seen hseen
    cases h
    rw [hscreen]
    exact ⟨_, rfl, rfl, .of_quiet rfl rfl Registry.update_id.symm rfl rfl rfl⟩
  · have hunseen : n.hasSeen (msg.id m.suite) = false := by simpa using hseen
    cases hgate : m.gate.check m.suite msg with
    | error r =>
      rw [barred?_of_refused hunseen hgate] at h
      obtain ⟨rs, hscreen⟩ := screen_of_refused hunseen hgate
      cases h
      rw [hscreen]
      exact ⟨_, rfl, rfl, .of_quiet rfl rfl rfl rfl rfl rfl⟩
    | ok =>
      rw [barred?_eq_none_iff.2 ⟨hunseen, hgate⟩] at h
      cases h

/-- What a message does that reaches a registered node. -/
theorem receive_spec {id : NodeId} (msg : Message) (sender : Option NodeId)
    (hn : m.registry.find? id = some n) :
    (m.receive id msg sender).2 = (m.fate n msg).outcome n (msg.id m.suite) ∧
      ∃ taken, Reached m n msg (Node.imprint (msg.id m.suite) msg (m.fate n msg).imprint)
        ((m.fate n msg).event n msg) (m.offers n msg sender (m.fate n msg)) taken
        (m.receive id msg sender).1 := by
  rw [receive, Registry.get_eq_ok_iff.2 hn, fate]
  dsimp only
  cases hbarred : m.barred? n msg with
  | some fate =>
    obtain ⟨e, herror, hout, h⟩ := screen_of_barred hbarred
    have hscreen : m.screen n msg = ((m.screen n msg).1, .error e) := Prod.ext rfl herror
    have hoffers : m.offers n msg sender fate = [] := by
      cases fate with
      | accepted r => cases hout
      | _ => rfl
    rw [hscreen, Option.getD_some, hoffers]
    exact ⟨hout.symm, [], h⟩
  | none =>
    obtain ⟨hunseen, hgate⟩ := barred?_eq_none_iff.1 hbarred
    obtain ⟨hout, taken, h⟩ := judge_spec (m.marked n msg) n msg sender
    rw [ballot_marked] at hout h
    rw [offers_marked] at h
    rw [screen_of_passed hunseen hgate, Option.getD_none,
      imprint_of_ne_nothing (ballot_imprint_ne_nothing m n)]
    exact ⟨hout, taken, h.of_marked⟩

theorem receive_of_unknown {id : NodeId} (h : m.registry.find? id = none) :
    m.receive id msg sender = (m, .refused (.nodeNotFound id)) := by
  rw [receive, Registry.get_of_find?_eq_none h]

/-! ## Beginning a gossip -/

/-- What a gossip leaves behind at the node where it begins. -/
def gossipImprint (m : Mesh) (n : Node) (msg : Message) : Imprint :=
  ((m.barred? n msg).map Fate.imprint).getD .logged

/-- A gossip logs its message without a vote, unless the node does not let it in. It queues nothing yet. -/
theorem beginGossip_spec {id : NodeId} (msg : Message) (hn : m.registry.find? id = some n) :
    Reached m n msg (Node.imprint (msg.id m.suite) msg (m.gossipImprint n msg))
        ((m.barred? n msg).bind fun fate => fate.event n msg) [] [] (m.beginGossip id msg).1 ∧
      match m.barred? n msg with
      | some fate => ∃ e, (m.beginGossip id msg).2 = .error e ∧ fate.outcome n (msg.id m.suite) = .refused e
      | none => (m.beginGossip id msg).2 = .ok ⟨id, msg, m.eligible n none, m.eligible n none⟩ := by
  rw [beginGossip, Registry.get_eq_ok_iff.2 hn, gossipImprint]
  dsimp only
  cases hbarred : m.barred? n msg with
  | some fate =>
    obtain ⟨e, herror, hout, h⟩ := screen_of_barred hbarred
    have hscreen : m.screen n msg = ((m.screen n msg).1, .error e) := Prod.ext rfl herror
    rw [hscreen]
    exact ⟨h, e, rfl, hout⟩
  | none =>
    obtain ⟨hunseen, hgate⟩ := barred?_eq_none_iff.1 hbarred
    rw [screen_of_passed hunseen hgate]
    dsimp only
    have hr : ((m.marked n msg).update id fun k => k.append msg).registry =
        m.registry.update n.id (Node.imprint (msg.id m.suite) msg .logged) := by
      rw [← Registry.id_of_find? hn]
      exact Registry.update_update fun _ => rfl
    have heligible : ((m.marked n msg).update id fun k => k.append msg).eligible n none = m.eligible n none :=
      eligible_of_update hr rfl (fun _ => rfl) (fun _ => rfl) n none
    refine ⟨.of_quiet rfl rfl hr rfl rfl (List.append_nil _).symm, ?_⟩
    rw [← heligible]
    rfl

theorem beginGossip_of_unknown {id : NodeId} (h : m.registry.find? id = none) :
    m.beginGossip id msg = (m, .error (.nodeNotFound id)) := by
  rw [beginGossip, Registry.get_of_find?_eq_none h]

end Mesh

end TriadMesh
