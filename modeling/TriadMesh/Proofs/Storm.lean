import Mathlib.Algebra.Group.Fin.Basic
import TriadMesh.Proofs.Coverage
import TriadMesh.Proofs.Drain

/-!
# Relay storms

A node has room for as many ids as the configuration says. As long as no more than that are pending, every node
takes each message in once at most, and relays come to an end. One id more is enough for a storm: in a ring the
messages push each other out of the memories, and each is new to every node whenever it comes round again.
-/

namespace TriadMesh

namespace Deployment

variable {d : Deployment} {i : NodeId} {n : Node}

/-! ## Enough memory -/

/-- All nodes remember as many ids as the configuration says. -/
theorem Reachable.capacity (h : Reachable d) (hn : d.node? i = some n) :
    n.seen.capacity = max d.mesh.config.seenCapacity 1 := by
  induction h generalizing i n with
  | start h =>
    rw [start_eq_ok h] at hn
    cases hn
  | @step d h a ih =>
    rw [(h.sound.effect a).settings.2]
    have hchange := h.sound.change a i
    rw [hn] at hchange
    generalize hbefore : d.node? i = before at hchange
    cases hchange with
    | joined hp hid hs hfresh => rw [hfresh.seen, SeenSet.capacity_empty]
    | kept hp hkeeps =>
      rw [hkeeps.seen]
      exact ih hbefore
    | reached hp =>
      rw [Node.imprint_capacity]
      exact ih hbefore

/-- If no more ids are pending than a node remembers, the mesh is drained by a bounded number of deliveries. -/
theorem drain_of_few_ids (h : Reachable d) (hfew : d.circulating.card ≤ d.mesh.config.seenCapacity) :
    Drains d (d.mesh.propagator.pending.length + d.circulating.card * d.links) := by
  refine h.drains fun i n hn => ?_
  rw [h.capacity hn]
  exact Nat.le_trans hfew (Nat.le_max_left _ _)

/-- In a triangle with room for one id, one message is drained. -/
theorem drain_of_few_ids_triangle :
    let d := (ofMesh Sample.mesh).run (Sample.triangle ++ Sample.handedOut 1)
    d.circulating.card ≤ d.mesh.config.seenCapacity ∧
      Drains d (d.mesh.propagator.pending.length + d.circulating.card * d.links) := by
  intro d
  have hreachable : Reachable d := (Reachable.start Sample.start_mesh).run _
  have hfew : d.circulating.card ≤ d.mesh.config.seenCapacity := by decide +kernel
  exact ⟨hfew, drain_of_few_ids hreachable hfew⟩

end Deployment

/-! ## One id too many -/

/-- A node holds the last ids of some messages, all but one of which it has room for. -/
structure Node.Lags (s : Suite) (msgs : List Message) (n : Node) : Prop where
  capacity : n.seen.capacity + 1 = msgs.length
  order : n.seen.order <:+ msgs.map fun msg => msg.id s

/-- A message that comes first among those that a node lags behind is new to it. Afterwards the message is the
last of them. -/
theorem Node.Lags.imprint {s : Suite} {msg : Message} {rest : List Message} {n : Node}
    (h : n.Lags s (msg :: rest)) (hnew : msg.id s ∉ rest.map fun msg => msg.id s) :
    n.hasSeen (msg.id s) = false ∧ (n.imprint (msg.id s) msg .logged).Lags s (rest ++ [msg]) := by
  have hcapacity := h.capacity
  rw [List.length_cons] at hcapacity
  have hroom : n.seen.capacity = (rest.map fun msg => msg.id s).length := by
    rw [List.length_map]
    omega
  obtain ⟨hunseen, horder⟩ := SeenSet.order_insert_of_suffix hroom hnew h.order
  refine ⟨hunseen, ?_, ?_⟩
  · rw [Node.imprint_capacity, List.length_append, List.length_singleton]
    omega
  · rw [List.map_append]
    exact horder

namespace Mesh

variable {k : ℕ} [NeZero k] {ring : Fin k → NodeId} {v : Binary64} {i : Fin k} {m m' : Mesh} {n : Node}
variable {msg : Message} {sent due : List Message}

/-- Nodes in a ring, each with the next and the one before as its only neighbors. They agree with each other and
relay what they accept. -/
structure Ringed (m : Mesh) (v : Binary64) (ring : Fin k → NodeId) : Prop where
  relaying : m.config.relayAccepted = true
  agreed : ((⟨v, v, v⟩ : Triad Binary64).evaluate m.config.varianceThreshold).passed = true
  apart : ∀ i, ring (i - 1) ≠ ring (i + 1)
  node : ∀ i, ∃ n, m.registry.find? (ring i) = some n ∧ n.neighbors.Perm [ring (i - 1), ring (i + 1)] ∧
    n.sensor = .fixed v ∧ m.config.cardinalThreshold ≤ n.coherence

theorem Ringed.neighbors (h : m.Ringed v ring) (hn : m.registry.find? (ring i) = some n) :
    n.neighbors.Perm [ring (i - 1), ring (i + 1)] := by
  obtain ⟨n', hn', hneighbors, -⟩ := h.node i
  cases hn.symm.trans hn'
  exact hneighbors

theorem Ringed.sensor (h : m.Ringed v ring) (hn : m.registry.find? (ring i) = some n) : n.sensor = .fixed v := by
  obtain ⟨n', hn', -, hsensor, -⟩ := h.node i
  cases hn.symm.trans hn'
  exact hsensor

theorem Ringed.neighborsOf (h : m.Ringed v ring) (hn : m.registry.find? (ring i) = some n) :
    ∃ b c, m.registry.find? (ring (i - 1)) = some b ∧ m.registry.find? (ring (i + 1)) = some c ∧
      (m.registry.neighborsOf n).Perm [b, c] := by
  obtain ⟨b, hb, -⟩ := h.node (i - 1)
  obtain ⟨c, hc, -⟩ := h.node (i + 1)
  have hneighbors := (h.neighbors hn).filterMap m.registry.find?
  exact ⟨b, c, hb, hc, by simpa [Registry.neighborsOf, hb, hc] using hneighbors⟩

/-- What comes from the node before is forwarded to the next one alone. -/
theorem Ringed.eligible (h : m.Ringed v ring) (hn : m.registry.find? (ring i) = some n) :
    m.eligible n (some (ring (i - 1))) = [ring (i + 1)] := by
  obtain ⟨b, c, hb, hc, hneighbors⟩ := h.neighborsOf hn
  have hsource : b.id = ring (i - 1) := Registry.id_of_find? hb
  have htarget : c.id = ring (i + 1) := Registry.id_of_find? hc
  have hne : ring (i + 1) ≠ ring (i - 1) := (h.apart i).symm
  have hcoherent : m.config.cardinalThreshold ≤ c.coherence := by
    obtain ⟨c', hc', -, -, hcoherent⟩ := h.node (i + 1)
    cases hc.symm.trans hc'
    exact hcoherent
  have honward : ([b, c].filter fun k => decide (some k.id ≠ some (ring (i - 1))) &&
      decide (m.config.cardinalThreshold ≤ k.coherence)).map (·.id) = [ring (i + 1)] := by
    simp [hsource, htarget, hne, hcoherent]
  rw [← List.perm_singleton, ← honward]
  exact (hneighbors.filter _).map _

theorem round?_of_fixed {b c : Node} (hn : n.sensor = .fixed v) (hb : b.sensor = .fixed v)
    (hc : c.sensor = .fixed v) :
    m.round? n b c = some ((⟨v, v, v⟩ : Triad Binary64).evaluate m.config.varianceThreshold) := by
  simp [round?, Validator.assess, Validator.snapshot, Node.measure, hn, hb, hc, Sensor.fixed]

/-- What a node of a ring takes in from the one before, it sends to the next. -/
theorem Ringed.accepts (h : m.Ringed v ring) (hn : m.registry.find? (ring i) = some n)
    (hunseen : n.hasSeen (msg.id m.suite) = false) (hgate : m.gate.check m.suite msg = .ok ()) :
    ∃ r, m.fate n msg = .accepted r ∧
      m.offers n msg (some (ring (i - 1))) (.accepted r) = [⟨ring i, ring (i + 1), msg⟩] := by
  obtain ⟨b, c, hb, hc, hneighbors⟩ := h.neighborsOf hn
  obtain ⟨x, y, hxy⟩ := List.length_eq_two.1 hneighbors.length_eq
  have hsensors : ∀ z ∈ [x, y], z.sensor = .fixed v := by
    intro z hz
    have hz' := hneighbors.subset (hxy ▸ hz)
    simp only [List.mem_cons, List.not_mem_nil, or_false] at hz'
    rcases hz' with rfl | rfl
    · exact h.sensor hb
    · exact h.sensor hc
  have hround := round?_of_fixed (m := m) (h.sensor hn) (hsensors x (by simp)) (hsensors y (by simp))
  refine ⟨_, fate_of_passed hunseen hgate hxy hround h.agreed, ?_⟩
  rw [offers, if_pos h.relaying, relays, h.eligible hn, Registry.id_of_find? hn]
  rfl

/-- Such a delivery changes the node alone, and queues the message for the next one. -/
theorem Ringed.deliver (h : m.Ringed v ring) (hn : m.registry.find? (ring i) = some n)
    (hunseen : n.hasSeen (msg.id m.suite) = false) (hgate : m.gate.check m.suite msg = .ok ())
    (hrunning : m.propagator.running[0]? = some ⟨ring (i - 1), ring i, msg⟩)
    (hfits : m.propagator.Fits [⟨ring i, ring (i + 1), msg⟩]) :
    (m.deliver 0).suite = m.suite ∧ (m.deliver 0).config = m.config ∧
      (m.deliver 0).registry = m.registry.update (ring i) (Node.imprint (msg.id m.suite) msg .logged) ∧
      (m.deliver 0).propagator = (m.propagator.extend [⟨ring i, ring (i + 1), msg⟩]).complete 0 := by
  obtain ⟨r, hfate, hoffers⟩ := h.accepts hn hunseen hgate
  obtain ⟨rs, hdeliver⟩ := Deployment.deliver_of_running hrunning
  obtain ⟨-, taken, hreached⟩ := receive_spec msg (some (ring (i - 1))) hn
  rw [hfate, hoffers] at hreached
  have htaken := hreached.complete hfits
  rw [hdeliver]
  refine ⟨hreached.suite, hreached.config, ?_, ?_⟩
  · refine hreached.registry.trans ?_
    rw [Registry.id_of_find? hn]
    rfl
  · rw [← htaken]
    exact congrArg (Propagator.complete · 0) hreached.propagator

/-- Taking in a message keeps a ring a ring. -/
theorem Ringed.of_imprint {j : NodeId} {d : Digest} (h : m.Ringed v ring) (hconfig : m'.config = m.config)
    (hregistry : m'.registry = m.registry.update j (Node.imprint d msg .logged)) : m'.Ringed v ring where
  relaying := by rw [hconfig, h.relaying]
  agreed := by rw [hconfig, h.agreed]
  apart := h.apart
  node := by
    intro i
    obtain ⟨n, hn, hneighbors, hsensor, hcoherent⟩ := h.node i
    let mark := Node.imprint d msg .logged
    refine ⟨Registry.only j mark n, ?_, ?_, ?_, ?_⟩
    · rw [hregistry, Registry.find?_update fun k => Node.imprint_id _ _ _ k, hn, Option.map_some]
    · rwa [Registry.only_congr (f := mark) Node.neighbors (fun k => Node.imprint_neighbors _ _ _ k)]
    · rwa [Registry.only_congr (f := mark) Node.sensor (fun k => Node.imprint_sensor _ _ _ k)]
    · rwa [hconfig, Registry.only_congr (f := mark) Node.coherence (fun k => Node.imprint_coherence _ _ _ k)]

/-- The forwards of some messages from a node to another. -/
def batch (source target : NodeId) (msgs : List Message) : List Forward :=
  msgs.map fun msg => ⟨source, target, msg⟩

/-- The messages `due` are about to be delivered to the node `ring i`, and the messages `sent` have been and are
queued for the next one. Every node lags behind what comes to it next. -/
structure Circling (m : Mesh) (v : Binary64) (ring : Fin k → NodeId) (i : Fin k) (sent due : List Message) :
    Prop where
  ringed : m.Ringed v ring
  passes : ∀ msg ∈ due ++ sent, m.gate.check m.suite msg = .ok ()
  distinct : ((due ++ sent).map fun msg => msg.id m.suite).Nodup
  live : m.propagator.Live
  permits : (due ++ sent).length ≤ m.propagator.permits
  capacity : (due ++ sent).length ≤ m.propagator.capacity
  running : m.propagator.running = batch (ring (i - 1)) (ring i) due
  held : m.propagator.held = none
  queued : m.propagator.queued = batch (ring i) (ring (i + 1)) sent
  here : ∀ n, m.registry.find? (ring i) = some n → n.Lags m.suite (due ++ sent)
  elsewhere : ∀ j n, ring j ≠ ring i → m.registry.find? (ring j) = some n → n.Lags m.suite (sent ++ due)

namespace Circling

/-- One delivery of a round: the first message due is new to the node, and goes on. -/
theorem deliver (h : m.Circling v ring i sent (msg :: due)) :
    (m.deliver 0).Circling v ring i (sent ++ [msg]) due := by
  obtain ⟨n, hn, -⟩ := h.ringed.node i
  have hdistinct := h.distinct
  rw [List.cons_append, List.map_cons, List.nodup_cons] at hdistinct
  obtain ⟨hunseen, hlags⟩ := (h.here n hn).imprint hdistinct.1
  have hrunning : m.propagator.running[0]? = some ⟨ring (i - 1), ring i, msg⟩ := by
    rw [h.running]
    rfl
  have hlength : (due ++ (sent ++ [msg])).length = (msg :: due ++ sent).length := by
    simp only [List.length_append, List.length_cons, List.length_nil]
    omega
  have hfits : m.propagator.Fits [⟨ring i, ring (i + 1), msg⟩] := by
    refine ⟨h.live.dispatching, ?_⟩
    have hcapacity := h.capacity
    rw [h.queued, batch, List.length_map, List.length_singleton]
    simp only [List.length_append, List.length_cons] at hcapacity
    omega
  obtain ⟨hsuite, hconfig, hregistry, hpropagator⟩ :=
    h.ringed.deliver hn hunseen (h.passes msg (by simp)) hrunning hfits
  have hturned : (due ++ (sent ++ [msg])).Perm (msg :: due ++ sent) := by
    rw [← List.append_assoc]
    exact List.perm_append_singleton msg (due ++ sent)
  have hgate : (m.deliver 0).gate = m.gate := by rw [gate, gate, hconfig]
  exact {
    ringed := h.ringed.of_imprint hconfig hregistry
    passes := by
      intro msg' hmsg'
      rw [hgate, hsuite]
      exact h.passes msg' (hturned.mem_iff.1 hmsg')
    distinct := by
      rw [hsuite]
      exact (hturned.map _).nodup_iff.2 h.distinct
    live := by
      rw [hpropagator]
      exact (h.live.extend _).complete (List.getElem?_eq_some_iff.1 hrunning).1
    permits := by
      rw [hpropagator, hlength]
      exact h.permits
    capacity := by
      rw [hpropagator, hlength]
      exact h.capacity
    running := by
      rw [hpropagator]
      simp only [Propagator.complete, Propagator.finish, Propagator.extend, h.running, batch, List.map_cons,
        List.eraseIdx_zero, List.tail_cons]
    held := by
      rw [hpropagator]
      exact h.held
    queued := by
      rw [hpropagator]
      simp only [Propagator.complete, Propagator.finish, Propagator.extend, h.queued, batch, List.map_append,
        List.map_cons, List.map_nil]
    here := by
      intro n' hn'
      rw [hregistry, Registry.find?_update_self (fun k => Node.imprint_id _ _ _ k) hn] at hn'
      cases hn'
      rw [hsuite, ← List.append_assoc]
      exact hlags
    elsewhere := by
      intro j n' hne hn'
      rw [hregistry, Registry.find?_update_of_ne (fun k => Node.imprint_id _ _ _ k) hne] at hn'
      rw [hsuite, List.append_assoc]
      exact h.elsewhere j n' hne hn' }

/-- A whole round of deliveries. -/
theorem deliverFirst (h : m.Circling v ring i sent due) :
    (Mesh.deliverFirst due.length m).Circling v ring i (sent ++ due) [] := by
  induction due generalizing m sent with
  | nil =>
    rw [List.append_nil]
    exact h
  | cons msg due ih =>
    rw [List.append_cons]
    exact ih h.deliver

/-- The dispatcher starts to deliver everything that has been sent on. -/
theorem dispatch (h : m.Circling v ring i sent []) : m.dispatch.Circling v ring (i + 1) [] sent := by
  have hpending : m.propagator.pending = batch (ring i) (ring (i + 1)) sent := by
    rw [Propagator.pending, h.running, h.held, h.queued]
    rfl
  have hpermits : m.propagator.pending.length ≤ m.propagator.permits := by
    rw [hpending, batch, List.length_map]
    exact h.permits
  have hdispatch : m.dispatch =
      { m with propagator := { m.propagator with running := m.propagator.pending, held := none, queued := [] } } := by
    rw [Mesh.dispatch, Propagator.dispatchAll_of_permits h.live.served hpermits]
  have hlags : ∀ j n, m.registry.find? (ring j) = some n → n.Lags m.suite sent := by
    intro j n hn
    by_cases hj : ring j = ring i
    · exact h.here n (hj ▸ hn)
    · simpa using h.elsewhere j n hj hn
  rw [hdispatch]
  exact {
    ringed := ⟨h.ringed.relaying, h.ringed.agreed, h.ringed.apart, h.ringed.node⟩
    passes := fun msg hmsg => h.passes msg (by simpa using hmsg)
    distinct := by simpa using h.distinct
    live := ⟨by rw [h.live.counted]; simp [Propagator.pending], h.live.dispatching, h.live.served⟩
    permits := by simpa using h.permits
    capacity := by simpa using h.capacity
    running := by rw [add_sub_cancel_right, hpending]
    held := rfl
    queued := rfl
    here := by simpa using hlags (i + 1)
    elsewhere := fun j n _ hn => by simpa using hlags j n hn }

/-- After a round the messages have come one node further. -/
theorem round (h : m.Circling v ring i sent []) : m.round.Circling v ring (i + 1) sent [] := by
  have hlength : m.dispatch.propagator.running.length = sent.length := by
    rw [h.dispatch.running, batch, List.length_map]
  rw [Mesh.round, hlength]
  exact h.dispatch.deliverFirst

theorem inFlight_ne_zero (h : m.Circling v ring i sent []) : m.inFlight ≠ 0 := by
  obtain ⟨n, hn, -⟩ := h.ringed.node i
  have hcapacity := (h.here n hn).capacity
  rw [inFlight, h.live.counted, Propagator.pending, h.queued, batch]
  simp only [List.nil_append, List.length_append, List.length_map] at hcapacity ⊢
  omega

/-- To wait for such a mesh never comes to an end. -/
theorem waitIdle (h : m.Circling v ring i sent []) (rounds : Nat) : (m.waitIdle rounds).2 = .waiting := by
  induction rounds generalizing m i with
  | zero =>
    rw [Mesh.waitIdle]
    exact if_neg h.inFlight_ne_zero
  | succ rounds ih =>
    rw [Mesh.waitIdle, if_neg h.inFlight_ne_zero]
    exact ih h.round

end Circling

end Mesh

namespace Sample

/-- Two messages begin at `a` while `c` is not coherent enough to be forwarded to. -/
def chase : List Action :=
  triangle ++ [.setCoherence "c" 0, .gossip "a" (message 1), .advance 0, .finish 0, .gossip "a" (message 2),
    .advance 0, .finish 0, .setCoherence "c" 1]

def ring : Fin 3 → NodeId
  | 0 => "a"
  | 1 => "b"
  | 2 => "c"

end Sample

namespace Deployment

/-- Both messages are new to `b`, and will be new to each node after it. -/
theorem circling_chase :
    ((ofMesh Sample.mesh).run Sample.chase).mesh.Circling 1 Sample.ring 0 [Sample.message 1, Sample.message 2] [] := by
  let d := (ofMesh Sample.mesh).run Sample.chase
  have hsound : Sound d := (sound_start Sample.start_mesh).run Sample.chase
  have hfitted : ∀ a ∈ Sample.chase, ∀ (e : Deployment) s, e.sensor? a = some s → s = .fixed 1 := by
    simp [Sample.chase, Sample.triangle, sensor?]
  have hsensors : ∀ i n, d.node? i = some n → n.sensor = .fixed 1 := by
    apply (sound_start Sample.start_mesh).sensors_run (P := fun s => s = .fixed 1)
    · intro i n hn
      cases hn
    · intro pre a post hsplit
      exact hfitted a (by simp [hsplit]) _
  have hnodes : ∀ i, ∃ n ∈ d.mesh.registry.nodes, n.id = Sample.ring i ∧
      n.neighbors.Perm [Sample.ring (i - 1), Sample.ring (i + 1)] ∧
      d.mesh.config.cardinalThreshold ≤ n.coherence := by decide +kernel
  have hmemory : ∀ n ∈ d.mesh.registry.nodes, n.seen.capacity + 1 = 2 ∧
      n.seen.order <:+ [Sample.message 1, Sample.message 2].map fun msg => msg.id d.mesh.suite := by
    decide +kernel
  have hlags : ∀ i n, d.node? i = some n → n.Lags d.mesh.suite [Sample.message 1, Sample.message 2] := by
    intro i n hn
    obtain ⟨hcapacity, horder⟩ := hmemory n (Registry.mem_nodes_of_find? hn)
    exact ⟨hcapacity, horder⟩
  change d.mesh.Circling 1 Sample.ring 0 [Sample.message 1, Sample.message 2] []
  exact {
    ringed := {
      relaying := by decide +kernel
      agreed := by decide +kernel
      apart := by decide
      node := by
        intro i
        obtain ⟨n, hn, hid, hneighbors, hcoherent⟩ := hnodes i
        have hfound : d.node? (Sample.ring i) = some n := node?_eq_some_iff.2 ⟨hn, hid⟩
        exact ⟨n, hfound, hneighbors, hsensors _ n hfound, hcoherent⟩ }
    passes := by decide +kernel
    distinct := by decide +kernel
    live := hsound.live
    permits := by decide +kernel
    capacity := by decide +kernel
    running := by decide +kernel
    held := by decide +kernel
    queued := by decide +kernel
    here := hlags _
    elsewhere := fun j n _ => hlags _ n }

/-- Where nodes remember one id, two messages go round a triangle forever. -/
theorem relay_storm :
    ¬∀ d : Deployment, Reachable d → d.mesh.config.relayAccepted = true →
      ∃ rounds, (d.mesh.waitIdle rounds).2 = .ok () := by
  intro hends
  have hreachable := (Reachable.start Sample.start_mesh).run Sample.chase
  obtain ⟨rounds, hended⟩ := hends _ hreachable circling_chase.ringed.relaying
  rw [circling_chase.waitIdle] at hended
  cases hended

end Deployment

end TriadMesh
