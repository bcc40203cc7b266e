import TriadMesh.Proofs.Coverage
import TriadMesh.Proofs.Drain
import TriadMesh.Proofs.Locality
import TriadMesh.Simulation.Run

/-!
# One message among three equal nodes

Three nodes, each a neighbor of the other two, measure one and the same coherence. So every vote on a message has the
same result, and who logs the message depends neither on the order of deliveries nor on relays. Each delivery uses up
one of at most four that there can be (`Playing.run`).
-/

namespace TriadMesh

theorem Node.hasSeen_withdrawn (n : Node) (d : Digest) (msg : Message) :
    (n.imprint d msg .withdrawn).hasSeen d = false := by
  have horder : (n.imprint d msg .withdrawn).seen.order = (n.seen.insert d).1.order.filter (· != d) :=
    SeenSet.order_erase _ d
  rw [hasSeen, ← Bool.not_eq_true, SeenSet.contains_iff, horder, List.mem_filter]
  simp

namespace Simulation

open Deployment

variable {s : Suite} {config : Config} {c : Binary64} {msg : Message} {d e : Deployment} {r : Registry} {m : Mesh}
  {n : Node} {i : NodeId} {L : Finset NodeId} {rest : List NodeId} {left : Nat} {a : Action} {acts : List Action}

/-! ## Three equal nodes -/

def others (i : NodeId) : List NodeId := nodeIds.filter (· != i)

/-- The neighbors that a node forwards to, if all nodes have the same coherence. -/
def targets (config : Config) (c : Binary64) (i : NodeId) (leaveOut : Option NodeId) : List NodeId :=
  if config.cardinalThreshold ≤ c then (others i).filter fun j => decide (some j ≠ leaveOut) else []

/-- The neighbors that the first node hands its message to. -/
def audience (config : Config) (c : Binary64) : List NodeId := targets config c "Alpha" none

/-- The vote of three nodes that all measure the same. -/
def unanimous (config : Config) (c : Binary64) : TriadMesh.Report Binary64 :=
  Triad.evaluate ⟨c, c, c⟩ config.varianceThreshold

/-- The lines of a report about three equal nodes. -/
def rows (c : Binary64) (alpha beta gamma : Nat) : List NodeReport :=
  [⟨"Alpha", c, alpha⟩, ⟨"Beta", c, beta⟩, ⟨"Gamma", c, gamma⟩]

/-- One of three equal nodes, which holds the message in its log and its memory, or in neither. -/
structure Standing (s : Suite) (c : Binary64) (msg : Message) (i : NodeId) (holds : Bool) (n : Node) : Prop where
  neighbors : n.neighbors = others i
  coherence : n.coherence = c
  reads : ∀ p, n.sensor.read p = some p.coherence
  log : n.log = if holds then [msg] else []
  seen : n.hasSeen (msg.id s) = holds

/-- Three equal nodes, of which those in `L` hold the message. -/
def Stand (s : Suite) (c : Binary64) (msg : Message) (L : Finset NodeId) (r : Registry) : Prop :=
  ∀ i ∈ nodeIds, ∃ n, r.find? i = some n ∧ Standing s c msg i (decide (i ∈ L)) n

theorem others_cases : ∀ i ∈ nodeIds, ∃ j ∈ nodeIds, ∃ k ∈ nodeIds, others i = [j, k] := by decide

theorem card_le (h : ∀ i ∈ L, i ∈ nodeIds) : L.card ≤ nodeIds.length := by
  have hsub : L ⊆ nodeIds.toFinset := fun i hi => List.mem_toFinset.2 (h i hi)
  exact (Finset.card_le_card hsub).trans (List.toFinset_card_le nodeIds)

theorem mem_nodeIds_of_mem_others {j : NodeId} (h : j ∈ others i) : j ∈ nodeIds := (List.mem_filter.1 h).1

theorem audience_of_le (h : config.cardinalThreshold ≤ c) : audience config c = ["Beta", "Gamma"] := by
  rw [audience, targets, if_pos h]
  decide

theorem audience_of_not_le (h : ¬config.cardinalThreshold ≤ c) : audience config c = [] := if_neg h

theorem mem_others_of_mem_targets {j : NodeId} {leaveOut : Option NodeId} (h : j ∈ targets config c i leaveOut) :
    j ∈ others i := by
  unfold targets at h
  split at h
  · exact (List.mem_filter.1 h).1
  · cases h

/-- A node relays to one other node at most: there are two of them, and it has the message from one. -/
theorem length_targets_le {j : NodeId} (hi : i ∈ nodeIds) (hj : j ∈ others i) :
    (targets config c i (some j)).length ≤ 1 := by
  have hall : ∀ i ∈ nodeIds, ∀ j ∈ others i, ((others i).filter fun k => decide (some k ≠ some j)).length ≤ 1 := by
    decide
  unfold targets
  split
  · exact hall i hi j hj
  · exact Nat.zero_le 1

theorem mem_others_symm : ∀ i ∈ nodeIds, ∀ j ∈ others i, i ∈ others j := by decide

theorem Standing.row {holds : Bool} (h : Standing s c msg i holds n) (hid : n.id = i) :
    (⟨n.id, n.coherence, n.log.length⟩ : NodeReport) = ⟨i, c, if holds then 1 else 0⟩ := by
  rw [hid, h.coherence, h.log]
  cases holds with
  | true => rfl
  | false => rfl

namespace Stand

variable (h : Stand s c msg L r)

include h

/-- The neighbors of a node are the other two, both of the same coherence, which they measure. -/
theorem neighborsOf (hi : i ∈ nodeIds) (hn : n.neighbors = others i) :
    ∃ b g, r.neighborsOf n = [b, g] ∧ others i = [b.id, g.id] ∧
      ∀ k ∈ [b, g], k.coherence = c ∧ ∀ p, k.sensor.read p = some p.coherence := by
  obtain ⟨j, hj, k, hk, hothers⟩ := others_cases i hi
  obtain ⟨b, hb, hbeta⟩ := h j hj
  obtain ⟨g, hg, hgamma⟩ := h k hk
  refine ⟨b, g, ?_, ?_, ?_⟩
  · rw [Registry.neighborsOf, hn, hothers, List.filterMap_cons_some hb, List.filterMap_cons_some hg,
      List.filterMap_nil]
  · rw [hothers, Registry.id_of_find? hb, Registry.id_of_find? hg]
  · simp only [List.forall_mem_cons]
    exact ⟨⟨hbeta.coherence, hbeta.reads⟩, ⟨hgamma.coherence, hgamma.reads⟩, fun _ hk => absurd hk List.not_mem_nil⟩

theorem ballot {holds : Bool} (hr : m.registry = r) (hconfig : m.config = config) (hi : i ∈ nodeIds)
    (hn : Standing s c msg i holds n) :
    m.ballot n = if (unanimous config c).passed then .accepted (unanimous config c)
      else .rejected (unanimous config c) := by
  obtain ⟨b, g, hneighbors, -, hequal⟩ := h.neighborsOf hi hn.neighbors
  simp only [List.forall_mem_cons] at hequal
  obtain ⟨⟨hbeta, hbreads⟩, ⟨hgamma, hgreads⟩, -⟩ := hequal
  have hround : m.round? n b g = some (unanimous config c) := by
    simp [Mesh.round?, Validator.assess, Validator.snapshot, Node.measure, hn.reads, hbreads, hgreads, hn.coherence,
      hbeta, hgamma, hconfig, unanimous]
  rw [Mesh.ballot, hr, hneighbors]
  dsimp only
  rw [hround]

theorem eligible {holds : Bool} (hr : m.registry = r) (hconfig : m.config = config) (hi : i ∈ nodeIds)
    (hn : Standing s c msg i holds n) (leaveOut : Option NodeId) :
    m.eligible n leaveOut = targets config c i leaveOut := by
  obtain ⟨b, g, hneighbors, hothers, hequal⟩ := h.neighborsOf hi hn.neighbors
  simp only [List.forall_mem_cons] at hequal
  obtain ⟨⟨hbeta, -⟩, ⟨hgamma, -⟩, -⟩ := hequal
  unfold Mesh.eligible targets
  rw [hr, hneighbors, hothers, hconfig]
  by_cases hcoherent : config.cardinalThreshold ≤ c
  · by_cases hb : some b.id = leaveOut <;> by_cases hg : some g.id = leaveOut <;>
      simp [hbeta, hgamma, hcoherent, hb, hg]
  · simp [hbeta, hgamma, hcoherent]

/-- One node changes, and the others are left as they were. -/
theorem update {L' : Finset NodeId} {g : Node → Node} (hid : ∀ k, (g k).id = k.id) (hn : r.find? i = some n)
    (hothers : ∀ j, j ≠ i → (j ∈ L' ↔ j ∈ L)) (hg : i ∈ nodeIds → Standing s c msg i (decide (i ∈ L')) (g n)) :
    Stand s c msg L' (r.update n.id g) := by
  intro j hj
  rw [Registry.id_of_find? hn]
  by_cases hji : j = i
  · subst hji
    exact ⟨g n, Registry.find?_update_self hid hn, hg hj⟩
  · obtain ⟨k, hk, hstanding⟩ := h j hj
    refine ⟨k, (Registry.find?_update_of_ne hid hji).trans hk, ?_⟩
    rwa [decide_eq_decide.2 (hothers j hji)]

theorem reported (hr : m.registry = r) (x : Digest) (reached : List NodeId) :
    (reportOf m x reached).nodes =
      rows c (if "Alpha" ∈ L then 1 else 0) (if "Beta" ∈ L then 1 else 0) (if "Gamma" ∈ L then 1 else 0) := by
  obtain ⟨a, ha, halpha⟩ := h "Alpha" (by decide)
  obtain ⟨b, hb, hbeta⟩ := h "Beta" (by decide)
  obtain ⟨g, hg, hgamma⟩ := h "Gamma" (by decide)
  rw [reportOf, nodeIds, hr, List.filterMap_cons_some ha, List.filterMap_cons_some hb,
    List.filterMap_cons_some hg, List.filterMap_nil, List.map_cons, List.map_cons, List.map_cons, List.map_nil,
    halpha.row (Registry.id_of_find? ha), hbeta.row (Registry.id_of_find? hb),
    hgamma.row (Registry.id_of_find? hg), rows]
  simp only [decide_eq_true_eq]

end Stand

theorem Standing.logged (h : Standing s c msg i false n) (hcapacity : 0 < n.seen.capacity) :
    Standing s c msg i true (n.imprint (msg.id s) msg .logged) where
  neighbors := (Node.imprint_neighbors _ _ _ n).trans h.neighbors
  coherence := (Node.imprint_coherence _ _ _ n).trans h.coherence
  reads p := by
    rw [Node.imprint_sensor]
    exact h.reads p
  log := by
    rw [Node.imprint_log, if_pos rfl, h.log]
    rfl
  seen := SeenSet.contains_insert_self _ hcapacity

theorem Standing.withdrawn (h : Standing s c msg i false n) :
    Standing s c msg i false (n.imprint (msg.id s) msg .withdrawn) where
  neighbors := (Node.imprint_neighbors _ _ _ n).trans h.neighbors
  coherence := (Node.imprint_coherence _ _ _ n).trans h.coherence
  reads p := by
    rw [Node.imprint_sensor]
    exact h.reads p
  log := by
    rw [Node.imprint_log, if_neg Imprint.noConfusion, h.log]
  seen := n.hasSeen_withdrawn _ msg

/-! ## The gossip of one message -/

/-- What a gossip of `msg` has made of a deployment `d` with three equal nodes: those in `L` hold the message, `rest`
has still to be handed it, and there are `left` deliveries at most to come. If the three agree, nobody rejects it, and
otherwise nobody but the first holds it. -/
structure Playing (d : Deployment) (c : Binary64) (msg : Message) (L : Finset NodeId) (rest : List NodeId) (left : Nat)
    (e : Deployment) : Prop where
  suite : e.mesh.suite = d.mesh.suite
  config : e.mesh.config = d.mesh.config
  nodes : Stand d.mesh.suite c msg L e.mesh.registry
  origin : "Alpha" ∈ L
  subset : ∀ i ∈ L, i ∈ nodeIds
  fanouts : ∃ sent, Handing d "Alpha" msg rest sent e.fanouts ∧
    sent + rest.length ≤ (audience d.mesh.config c).length
  remaining : ∀ i ∈ rest, i ∈ audience d.mesh.config c
  pending : ∀ f ∈ e.mesh.propagator.pending, f.message = msg ∧ f.target ∈ nodeIds ∧ f.source ∈ others f.target
  /-- A node that does not hold the message yet may relay it once. -/
  load : e.mesh.propagator.pending.length + rest.length + nodeIds.length ≤ left + L.card
  accepted : e.mesh.metrics.accepted + 1 = L.card
  agreed : (unanimous d.mesh.config c).passed = true → e.mesh.metrics.consensusRejected = 0 ∧
    ∀ i ∈ audience d.mesh.config c, i ∈ L ∨ (∃ f ∈ e.mesh.propagator.pending, f.target = i) ∨ i ∈ rest
  divided : (unanimous d.mesh.config c).passed = false → L = {"Alpha"} ∧
    (∀ f ∈ e.mesh.propagator.pending, f.target ≠ "Alpha") ∧
    e.mesh.metrics.consensusRejected + e.mesh.propagator.pending.length + rest.length =
      (audience d.mesh.config c).length
  quiet : audience d.mesh.config c = [] → e.mesh.propagator.pending = [] ∧ e.mesh.metrics = .zero

namespace Playing

theorem fate_of_mem (h : Playing d c msg L rest left e) (hi : i ∈ nodeIds) (hn : e.node? i = some n) (hmem : i ∈ L) :
    e.mesh.fate n msg = .duplicate := by
  obtain ⟨k, hk, hstanding⟩ := h.nodes i hi
  cases hk.symm.trans hn
  have hseen : n.hasSeen (msg.id e.mesh.suite) = true := by
    rw [h.suite, hstanding.seen, decide_eq_true hmem]
  rw [Mesh.fate, Mesh.barred?_of_seen hseen, Option.getD_some]

/-- What becomes of the message where it is new. -/
theorem fate_of_not_mem (h : Playing d c msg L rest left e) (hgate : d.mesh.gate.check d.mesh.suite msg = .ok ())
    (hi : i ∈ nodeIds) (hn : e.node? i = some n) (hmem : i ∉ L) :
    e.mesh.fate n msg = if (unanimous d.mesh.config c).passed then .accepted (unanimous d.mesh.config c)
      else .rejected (unanimous d.mesh.config c) := by
  obtain ⟨k, hk, hstanding⟩ := h.nodes i hi
  cases hk.symm.trans hn
  have hunseen : n.hasSeen (msg.id e.mesh.suite) = false := by
    rw [h.suite, hstanding.seen, decide_eq_false hmem]
  have hpasses : e.mesh.gate.check e.mesh.suite msg = .ok () := by
    rw [Mesh.gate, h.suite, h.config]
    exact hgate
  rw [Mesh.fate, Mesh.barred?_eq_none_iff.2 ⟨hunseen, hpasses⟩, Option.getD_none]
  exact h.nodes.ballot rfl h.config hi hstanding

/-- The dispatcher may move what is pending. -/
theorem of_pending (h : Playing d c msg L rest left e) {p : Propagator Forward}
    (hp : p.pending = e.mesh.propagator.pending) :
    Playing d c msg L rest left { e with mesh := { e.mesh with propagator := p } } where
  suite := h.suite
  config := h.config
  nodes := h.nodes
  origin := h.origin
  subset := h.subset
  fanouts := h.fanouts
  remaining := h.remaining
  pending := hp ▸ h.pending
  load := hp ▸ h.load
  accepted := h.accepted
  agreed := hp ▸ h.agreed
  divided := hp ▸ h.divided
  quiet := hp ▸ h.quiet

/-- A node that accepts the message relays it to one other node at most. -/
theorem relayed (h : Playing d c msg L rest left e) {f : Forward} {taken : List Forward} {v : TriadMesh.Report Binary64}
    (htarget : f.target ∈ nodeIds) (hsource : f.source ∈ others f.target) (hn : e.node? f.target = some n)
    (hsub : taken.Sublist (e.mesh.offers n msg (some f.source) (.accepted v))) :
    taken.length ≤ 1 ∧ ∀ g ∈ taken, g.message = msg ∧ g.target ∈ nodeIds ∧ g.source ∈ others g.target := by
  obtain ⟨k, hk, hstanding⟩ := h.nodes f.target htarget
  cases hk.symm.trans hn
  rw [Mesh.offers] at hsub
  split at hsub
  case isTrue =>
    rw [Mesh.relays, h.nodes.eligible rfl h.config htarget hstanding] at hsub
    constructor
    · have hlength := hsub.length_le
      rw [List.length_map] at hlength
      exact hlength.trans (length_targets_le htarget hsource)
    · intro g hg
      obtain ⟨b, hb, rfl⟩ := List.mem_map.1 (hsub.subset hg)
      have hother := mem_others_of_mem_targets hb
      refine ⟨rfl, mem_nodeIds_of_mem_others hother, ?_⟩
      rw [Registry.id_of_find? hn]
      exact mem_others_symm f.target htarget b hother
  case isFalse =>
    obtain rfl := List.sublist_nil.1 hsub
    exact ⟨Nat.zero_le 1, fun g hg => absurd hg List.not_mem_nil⟩

section Delivery

variable {k : Nat} {f : Forward} {taken : List Forward} (hf : e.mesh.propagator.running[k]? = some f)

include hf

/-- A delivery from which nothing follows uses up one of those that there can be. -/
theorem complete (h : Playing d c msg L rest left e) (hsuite : m.suite = e.mesh.suite)
    (hconfig : m.config = e.mesh.config) (hnodes : Stand d.mesh.suite c msg L m.registry)
    (hpropagator : m.propagator = e.mesh.propagator) (haccepted : m.metrics.accepted = e.mesh.metrics.accepted)
    (hagreed : (unanimous d.mesh.config c).passed = true →
      m.metrics.consensusRejected = e.mesh.metrics.consensusRejected ∧ f.target ∈ L)
    (hdivided : (unanimous d.mesh.config c).passed = false →
      m.metrics.consensusRejected = e.mesh.metrics.consensusRejected + 1) (rs : List Record) :
    ∃ left', left' + 1 ≤ left ∧ Playing d c msg L rest left'
      { e with mesh := { m with records := rs, propagator := m.propagator.complete k } } := by
  have hpending := Propagator.mem_pending_of_running hf
  have hlength := Propagator.length_pending_complete (List.getElem?_eq_some_iff.1 hf).1
  have hload := h.load
  have hcard := card_le h.subset
  refine ⟨left - 1, by omega, ?_⟩
  exact {
    suite := hsuite.trans h.suite
    config := hconfig.trans h.config
    nodes := hnodes
    origin := h.origin
    subset := h.subset
    fanouts := h.fanouts
    remaining := h.remaining
    pending := by
      intro g hg
      rw [hpropagator] at hg
      exact h.pending g (Propagator.mem_pending_of_mem_complete hg)
    load := by
      dsimp only
      rw [hpropagator]
      omega
    accepted := by
      dsimp only
      rw [haccepted]
      exact h.accepted
    agreed := by
      intro hpassed
      obtain ⟨hnone, hhanded⟩ := h.agreed hpassed
      obtain ⟨hrejected, hmem⟩ := hagreed hpassed
      dsimp only
      rw [hrejected, hpropagator]
      refine ⟨hnone, fun i hi => ?_⟩
      rcases hhanded i hi with hi | ⟨g, hg, hgi⟩ | hi
      · exact .inl hi
      · rcases Propagator.mem_pending_complete hf hg with rfl | hg
        · exact .inl (hgi ▸ hmem)
        · exact .inr (.inl ⟨g, hg, hgi⟩)
      · exact .inr (.inr hi)
    divided := by
      intro hpassed
      obtain ⟨hL, hnever, hcount⟩ := h.divided hpassed
      have hrejected := hdivided hpassed
      dsimp only
      rw [hpropagator]
      refine ⟨hL, fun g hg => hnever g (Propagator.mem_pending_of_mem_complete hg), ?_⟩
      omega
    quiet := by
      intro haudience
      rw [(h.quiet haudience).1] at hpending
      cases hpending }

variable (hn : e.node? f.target = some n)
variable (hreached : Mesh.Reached e.mesh n f.message
  (Node.imprint (f.message.id e.mesh.suite) f.message (e.mesh.fate n f.message).imprint)
  ((e.mesh.fate n f.message).event n f.message)
  (e.mesh.offers n f.message (some f.source) (e.mesh.fate n f.message)) taken m)

include hn hreached

/-- A node that holds the message takes note of it as a duplicate. -/
theorem deliver_of_mem (h : Playing d c msg L rest left e) (hmem : f.target ∈ L) (rs : List Record) :
    ∃ left', left' + 1 ≤ left ∧ Playing d c msg L rest left'
      { e with mesh := { m with records := rs, propagator := m.propagator.complete k } } := by
  have hpending := Propagator.mem_pending_of_running hf
  obtain ⟨hmsg, htarget, -⟩ := h.pending f hpending
  rw [hmsg, h.fate_of_mem htarget hn hmem] at hreached
  obtain ⟨hpropagator, hmetrics, -⟩ := Mesh.Reached.quiet hreached
  have hnodes : Stand d.mesh.suite c msg L m.registry := by
    rw [hreached.registry]
    exact Registry.update_id.symm ▸ h.nodes
  refine h.complete hf hreached.suite hreached.config hnodes hpropagator ?_ ?_ ?_ rs
  · rw [hmetrics]
    rfl
  · intro _
    rw [hmetrics]
    exact ⟨rfl, hmem⟩
  · intro hpassed
    obtain ⟨hL, hnever, -⟩ := h.divided hpassed
    exact absurd (Finset.mem_singleton.1 (hL ▸ hmem)) (hnever f hpending)

/-- Where they do not agree, another node rejects the message and forgets it. -/
theorem deliver_rejected (h : Playing d c msg L rest left e) (hgate : d.mesh.gate.check d.mesh.suite msg = .ok ())
    (hmem : f.target ∉ L) (hpassed : (unanimous d.mesh.config c).passed = false) (rs : List Record) :
    ∃ left', left' + 1 ≤ left ∧ Playing d c msg L rest left'
      { e with mesh := { m with records := rs, propagator := m.propagator.complete k } } := by
  obtain ⟨hmsg, htarget, -⟩ := h.pending f (Propagator.mem_pending_of_running hf)
  rw [hmsg, h.fate_of_not_mem hgate htarget hn hmem, if_neg (by rw [hpassed]; exact Bool.false_ne_true)] at hreached
  obtain ⟨k', hk', hstanding⟩ := h.nodes f.target htarget
  cases hk'.symm.trans hn
  obtain ⟨hpropagator, hmetrics, -⟩ := Mesh.Reached.quiet hreached
  have hnodes : Stand d.mesh.suite c msg L m.registry := by
    rw [hreached.registry, h.suite]
    refine h.nodes.update (fun j => Node.imprint_id _ _ _ j) hn (fun j _ => Iff.rfl) fun _ => ?_
    rw [decide_eq_false hmem] at hstanding ⊢
    exact hstanding.withdrawn
  refine h.complete hf hreached.suite hreached.config hnodes hpropagator ?_ ?_ ?_ rs
  · rw [hmetrics]
    rfl
  · exact fun hagreed => absurd (hagreed.symm.trans hpassed) Bool.noConfusion
  · intro _
    rw [hmetrics]
    rfl

/-- Where the three agree, another node logs the message, and relays it to one node at most. -/
theorem deliver_accepted (h : Playing d c msg L rest left e) (he : Sound e)
    (hgate : d.mesh.gate.check d.mesh.suite msg = .ok ()) (hmem : f.target ∉ L)
    (hpassed : (unanimous d.mesh.config c).passed = true) (rs : List Record) :
    ∃ left', left' + 1 ≤ left ∧ Playing d c msg (insert f.target L) rest left'
      { e with mesh := { m with records := rs, propagator := m.propagator.complete k } } := by
  have hpending := Propagator.mem_pending_of_running hf
  obtain ⟨hmsg, htarget, hsource⟩ := h.pending f hpending
  rw [hmsg, h.fate_of_not_mem hgate htarget hn hmem, if_pos hpassed] at hreached
  obtain ⟨k', hk', hstanding⟩ := h.nodes f.target htarget
  cases hk'.symm.trans hn
  rw [decide_eq_false hmem] at hstanding
  obtain ⟨htaken, hrelays⟩ := h.relayed htarget hsource hn hreached.sublist
  have hsubset : ∀ i ∈ insert f.target L, i ∈ nodeIds := by
    intro i hi
    rcases Finset.mem_insert.1 hi with rfl | hi
    · exact htarget
    · exact h.subset i hi
  have hcard : (insert f.target L).card = L.card + 1 := Finset.card_insert_of_notMem hmem
  have hbound := card_le hsubset
  have hmetrics : m.metrics.accepted = e.mesh.metrics.accepted + 1 ∧
      m.metrics.consensusRejected = e.mesh.metrics.consensusRejected := by
    rw [hreached.metrics]
    exact ⟨rfl, rfl⟩
  have hrunning : (e.mesh.propagator.extend taken).running[k]? = some f := hf
  have hlength : (m.propagator.complete k).pending.length + 1 = e.mesh.propagator.pending.length + taken.length := by
    rw [hreached.propagator, Propagator.length_pending_complete (List.getElem?_eq_some_iff.1 hrunning).1,
      Propagator.pending_extend, List.length_append]
  have hload := h.load
  refine ⟨left - 1, by omega, ?_⟩
  exact {
    suite := hreached.suite.trans h.suite
    config := hreached.config.trans h.config
    nodes := by
      dsimp only
      rw [hreached.registry, h.suite]
      refine h.nodes.update (fun j => Node.imprint_id _ _ _ j) hn (fun j hj => by simp [hj]) fun _ => ?_
      rw [decide_eq_true (Finset.mem_insert_self _ _)]
      exact hstanding.logged (he.roomy _ n hn)
    origin := Finset.mem_insert_of_mem h.origin
    subset := hsubset
    fanouts := h.fanouts
    remaining := h.remaining
    pending := by
      intro g hg
      have hg := Propagator.mem_pending_of_mem_complete hg
      rw [hreached.propagator, Propagator.pending_extend, List.mem_append] at hg
      exact hg.elim (h.pending g) (hrelays g)
    load := by
      dsimp only
      omega
    accepted := by
      have haccepted := h.accepted
      dsimp only
      omega
    agreed := by
      intro _
      obtain ⟨hnone, hhanded⟩ := h.agreed hpassed
      refine ⟨hmetrics.2.trans hnone, fun i hi => ?_⟩
      rcases hhanded i hi with hi | ⟨g, hg, hgi⟩ | hi
      · exact .inl (Finset.mem_insert_of_mem hi)
      · have hg' : g ∈ (e.mesh.propagator.extend taken).pending := by
          rw [Propagator.pending_extend]
          exact List.mem_append_left _ hg
        rcases Propagator.mem_pending_complete hrunning hg' with rfl | hg'
        · exact .inl (hgi ▸ Finset.mem_insert_self _ _)
        · refine .inr (.inl ⟨g, ?_, hgi⟩)
          dsimp only
          rwa [hreached.propagator]
      · exact .inr (.inr hi)
    divided := fun hfailed => absurd (hpassed.symm.trans hfailed) Bool.noConfusion
    quiet := by
      intro haudience
      rw [(h.quiet haudience).1] at hpending
      cases hpending }

end Delivery

/-- A delivery uses up one of those that there can be. -/
theorem deliver (h : Playing d c msg L rest left e) (he : Sound e)
    (hgate : d.mesh.gate.check d.mesh.suite msg = .ok ()) {k : Nat} {f : Forward} {taken : List Forward}
    (hf : e.mesh.propagator.running[k]? = some f) (hn : e.node? f.target = some n)
    (hreached : Mesh.Reached e.mesh n f.message
      (Node.imprint (f.message.id e.mesh.suite) f.message (e.mesh.fate n f.message).imprint)
      ((e.mesh.fate n f.message).event n f.message)
      (e.mesh.offers n f.message (some f.source) (e.mesh.fate n f.message)) taken m) (rs : List Record) :
    ∃ L left', left' + 1 ≤ left ∧ Playing d c msg L rest left'
      { e with mesh := { m with records := rs, propagator := m.propagator.complete k } } := by
  by_cases hmem : f.target ∈ L
  · obtain ⟨left', hleft, h'⟩ := h.deliver_of_mem hf hn hreached hmem rs
    exact ⟨L, left', hleft, h'⟩
  · cases hpassed : (unanimous d.mesh.config c).passed with
    | true =>
      obtain ⟨left', hleft, h'⟩ := h.deliver_accepted hf hn hreached he hgate hmem hpassed rs
      exact ⟨_, left', hleft, h'⟩
    | false =>
      obtain ⟨left', hleft, h'⟩ := h.deliver_rejected hf hn hreached hgate hmem hpassed rs
      exact ⟨L, left', hleft, h'⟩

theorem advance {target : NodeId} (h : Playing d c msg L (target :: rest) left e) {fs : List Fanout} {sent : Nat}
    (hfanouts : Handing d "Alpha" msg rest sent fs) (hsent : sent + rest.length ≤ (audience d.mesh.config c).length) :
    Playing d c msg L rest left
      { e with
        mesh := { e.mesh with propagator := e.mesh.propagator.extend [⟨"Alpha", target, msg⟩] }
        fanouts := fs } where
  suite := h.suite
  config := h.config
  nodes := h.nodes
  origin := h.origin
  subset := h.subset
  fanouts := ⟨sent, hfanouts, hsent⟩
  remaining := fun i hi => h.remaining i (List.mem_cons_of_mem target hi)
  pending := by
    intro f hf
    rw [Propagator.pending_extend, List.mem_append, List.mem_singleton] at hf
    rcases hf with hf | rfl
    · exact h.pending f hf
    · have hother := mem_others_of_mem_targets (h.remaining target List.mem_cons_self)
      exact ⟨rfl, mem_nodeIds_of_mem_others hother, mem_others_symm "Alpha" (by decide) target hother⟩
  load := by
    have hload := h.load
    rw [List.length_cons] at hload
    rw [Propagator.pending_extend, List.length_append, List.length_singleton]
    omega
  accepted := h.accepted
  agreed := by
    intro hpassed
    obtain ⟨hnone, hhanded⟩ := h.agreed hpassed
    refine ⟨hnone, fun i hi => ?_⟩
    rw [Propagator.pending_extend]
    rcases hhanded i hi with hi | ⟨f, hf, hfi⟩ | hi
    · exact .inl hi
    · exact .inr (.inl ⟨f, List.mem_append_left _ hf, hfi⟩)
    · rcases List.mem_cons.1 hi with rfl | hi
      · exact .inr (.inl ⟨_, List.mem_append_right _ (List.mem_singleton_self _), rfl⟩)
      · exact .inr (.inr hi)
  divided := by
    intro hpassed
    obtain ⟨hL, hnever, hcount⟩ := h.divided hpassed
    rw [List.length_cons] at hcount
    rw [Propagator.pending_extend, List.length_append, List.length_singleton]
    refine ⟨hL, fun f hf => ?_, by dsimp only; omega⟩
    rcases List.mem_append.1 hf with hf | hf
    · exact hnever f hf
    · rw [List.mem_singleton.1 hf]
      rintro rfl
      exact absurd (mem_others_of_mem_targets (h.remaining "Alpha" List.mem_cons_self)) (by decide)
  quiet := by
    intro haudience
    have htarget := h.remaining target List.mem_cons_self
    rw [haudience] at htarget
    cases htarget

theorem finish {sent : Nat} (h : Playing d c msg L [] left e) (hsent : sent ≤ (audience d.mesh.config c).length)
    (es : List Event) (rs : List Record) :
    Playing d c msg L [] left
      { e with
        mesh := { e.mesh with
          metrics := e.mesh.metrics.relayed sent 0
          events := es
          records := rs }
        fanouts := d.fanouts } where
  suite := h.suite
  config := h.config
  nodes := h.nodes
  origin := h.origin
  subset := h.subset
  fanouts := ⟨0, .done, Nat.zero_le _⟩
  remaining := h.remaining
  pending := h.pending
  load := h.load
  accepted := h.accepted
  agreed := h.agreed
  divided := h.divided
  quiet := by
    intro haudience
    obtain ⟨hpending, hmetrics⟩ := h.quiet haudience
    rw [haudience] at hsent
    obtain rfl : sent = 0 := Nat.le_zero.1 hsent
    exact ⟨hpending, hmetrics⟩

/-- The dispatcher goes on. -/
theorem serve (h : Playing d c msg L rest left e) (he : Sound e)
    (hgate : d.mesh.gate.check d.mesh.suite msg = .ok ()) (ha : serves a = true) :
    ∃ L left', left' + (delivered e a).length ≤ left ∧ Playing d c msg L rest left' (e.step a) := by
  have hservice := he.service ha
  generalize e.step a = e' at hservice ⊢
  cases hservice with
  | moved hp hdelivered hqueued hpending =>
    rw [hdelivered]
    exact ⟨L, left, Nat.le_refl _, h.of_pending hpending⟩
  | lost hf hn rs =>
    obtain ⟨-, htarget, -⟩ := h.pending _ (Propagator.mem_pending_of_running hf)
    obtain ⟨n, hn', -⟩ := h.nodes _ htarget
    cases hn.symm.trans hn'
  | @reached k f n taken m hf hn hreached rs =>
    obtain ⟨L', left', hleft, h'⟩ := h.deliver he hgate hf hn hreached rs
    refine ⟨L', left', ?_, h'⟩
    rwa [delivered, hf, Option.toList_some, List.length_singleton]

/-- The gossip goes on. -/
theorem hand (h : Playing d c msg L rest left e) (he : Sound e) (ha : carries d.fanouts.length a = true)
    (hserves : serves a = false) : ∃ rest', Playing d c msg L rest' left (e.step a) ∧ delivered e a = [] := by
  obtain ⟨sent, hhanding, hsent⟩ := h.fanouts
  have heffect := he.effect a
  cases a with
  | advance k =>
    generalize e.step (.advance k) = e' at heffect ⊢
    cases heffect with
    | structural hstructural => cases hstructural
    | idle hevolves => exact ⟨rest, h, rfl⟩
    | @advanced k f target rest' hk hrem =>
      obtain rfl : k = d.fanouts.length := beq_iff_eq.1 ha
      obtain ⟨all, rfl, hcount, hfanouts⟩ := hhanding.newest hk
      obtain rfl : rest = target :: rest' := hrem
      have hcount' : sent + 1 + rest'.length = all.length := by
        rw [List.length_cons] at hcount
        omega
      have hhanding' : Handing d "Alpha" msg rest' (sent + 1)
          (e.fanouts.set d.fanouts.length ⟨"Alpha", msg, all, rest'⟩) := by
        rw [hfanouts, List.set_append_right _ _ (Nat.le_refl _), Nat.sub_self, List.set_cons_zero]
        exact .open hcount'
      refine ⟨rest', h.advance hhanding' ?_, rfl⟩
      rw [List.length_cons] at hsent
      omega
  | finish k =>
    generalize e.step (.finish k) = e' at heffect ⊢
    cases heffect with
    | structural hstructural => cases hstructural
    | idle hevolves => exact ⟨rest, h, rfl⟩
    | @finished k f hk hrem rs =>
      obtain rfl : k = d.fanouts.length := beq_iff_eq.1 ha
      obtain ⟨all, rfl, hcount, hfanouts⟩ := hhanding.newest hk
      obtain rfl : rest = [] := hrem
      obtain rfl : sent = all.length := hcount
      rw [hfanouts, eraseIdx_newest]
      exact ⟨[], h.finish hsent _ rs, rfl⟩
  | take | launch | deliver => cases hserves
  | _ => cases ha

theorem step (h : Playing d c msg L rest left e) (he : Sound e)
    (hgate : d.mesh.gate.check d.mesh.suite msg = .ok ()) (ha : carries d.fanouts.length a = true) :
    ∃ L rest left', left' + (delivered e a).length ≤ left ∧ Playing d c msg L rest left' (e.step a) := by
  cases hserves : serves a with
  | true =>
    obtain ⟨L', left', hleft, h'⟩ := h.serve he hgate hserves
    exact ⟨L', rest, left', hleft, h'⟩
  | false =>
    obtain ⟨rest', h', hnone⟩ := h.hand he ha hserves
    exact ⟨L, rest', left, by rw [hnone, List.length_nil, Nat.add_zero], h'⟩

theorem run (h : Playing d c msg L rest left e) (he : Sound e)
    (hgate : d.mesh.gate.check d.mesh.suite msg = .ok ()) (hacts : ∀ a ∈ acts, carries d.fanouts.length a = true) :
    ∃ L rest left', left' + (along delivered e acts).length ≤ left ∧ Playing d c msg L rest left' (e.run acts) := by
  induction acts generalizing e L rest left with
  | nil => exact ⟨L, rest, left, Nat.le_refl _, h⟩
  | cons a acts ih =>
    rw [List.forall_mem_cons] at hacts
    obtain ⟨L', rest', left', hleft, h'⟩ := h.step he hgate hacts.1
    obtain ⟨L'', rest'', left'', hleft', h''⟩ := ih h' (he.step a) hacts.2
    refine ⟨L'', rest'', left'', ?_, h''⟩
    rw [along, List.length_append]
    omega

end Playing

end Simulation

end TriadMesh
