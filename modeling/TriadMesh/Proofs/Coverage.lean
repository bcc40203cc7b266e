import Mathlib.Data.Set.Card
import Mathlib.Logic.Relation
import TriadMesh.Proofs.Schedule
import TriadMesh.Proofs.Soundness

/-!
# How far a gossip comes

Where accepted messages are relayed and every vote passes, a gossip comes to each node that can be reached from
its origin, in whichever order its forwards are delivered. At any time, a neighbor of a node that has logged the
message has logged it too, or a forward to it is pending, or the gossip still has to hand it out. When nothing of this
is left, all of them are covered, as they are for a caller that gossips and then waits (`gossip_waitIdle_covers`).
-/

namespace TriadMesh

/-- A sensor whose readings do not depend on when it reads. -/
def Sensor.Deterministic (s : Sensor) : Prop := ∀ p t, s.read { p with tick := t } = s.read p

theorem Node.measure_of_deterministic {n : Node} (h : n.sensor.Deterministic) (metric : String) (t t' : Nat) :
    n.measure metric t = n.measure metric t' :=
  h ⟨n.id, n.coherence, metric, t'⟩ t

theorem Sensor.deterministic_fixed (x : Binary64) : (Sensor.fixed x).Deterministic := fun _ _ => rfl

namespace Deployment

/-- If every sensor that a run fits is deterministic, so are those of all nodes. -/
theorem Sound.deterministic_run {d : Deployment} (h : Sound d)
    (hd : ∀ i n, d.node? i = some n → n.sensor.Deterministic) (acts : List Action)
    (hacts : ∀ pre a post, acts = pre ++ a :: post → ∀ s, (d.run pre).sensor? a = some s → s.Deterministic) :
    ∀ i n, (d.run acts).node? i = some n → n.sensor.Deterministic :=
  h.sensors_run hd acts hacts

end Deployment

/-! ## Links -/

namespace Registry

variable {r : Registry} {A : Finset NodeId} {g : Node → Node} {a b i : NodeId} {n : Node}

def Linked (r : Registry) (a b : NodeId) : Prop := ∃ n, r.find? a = some n ∧ ∃ k ∈ r.neighborsOf n, k.id = b

def Reaches (r : Registry) : NodeId → NodeId → Prop := Relation.ReflTransGen r.Linked

theorem find?_of_mem_neighborsOf {k : Node} (h : k ∈ r.neighborsOf n) : r.find? k.id = some k := by
  obtain ⟨j, -, hk⟩ := List.mem_filterMap.1 h
  rwa [id_of_find? hk]

theorem Linked.registered (h : r.Linked a b) : (r.find? b).isSome = true := by
  obtain ⟨n, -, k, hk, rfl⟩ := h
  rw [find?_of_mem_neighborsOf hk]
  rfl

theorem Reaches.registered (h : r.Reaches a b) (ha : (r.find? a).isSome = true) :
    (r.find? b).isSome = true := by
  cases h with
  | refl => exact ha
  | tail _ hlink => exact hlink.registered

/-- The change at the nodes of a set. -/
def among (A : Finset NodeId) (g : Node → Node) (n : Node) : Node := if n.id ∈ A then g n else n

theorem among_of_mem (h : n.id ∈ A) : among A g n = g n := if_pos h

theorem among_of_not_mem (h : n.id ∉ A) : among A g n = n := if_neg h

theorem among_congr {α : Type} (field : Node → α) (hg : ∀ n, field (g n) = field n) (n : Node) :
    field (among A g n) = field n := by
  unfold among
  split
  · exact hg n
  · rfl

/-- The registry with a change at the nodes of a set. -/
def spread (r : Registry) (A : Finset NodeId) (g : Node → Node) : Registry := r.map (among A g)

theorem find?_spread (hg : ∀ n, (g n).id = n.id) : (r.spread A g).find? i = (r.find? i).map (among A g) :=
  find?_map (among_congr Node.id hg)

theorem update_eq_spread (hg : ∀ n, (g n).id = n.id) : r.update i g = r.spread {i} g := by
  rw [update_eq_map hg, spread]
  congr 1
  funext n
  simp [only, among]

theorem update_spread (hg : ∀ n, (g n).id = n.id) (hi : i ∉ A) :
    (r.spread A g).update i g = r.spread (A ∪ {i}) g := by
  rw [update_eq_map hg, spread, spread, map_map (among_congr Node.id hg) (only_congr Node.id hg)]
  congr 1
  funext n
  rw [Function.comp_apply]
  by_cases hni : n.id = i
  · have hA : n.id ∉ A := hni ▸ hi
    rw [among_of_not_mem hA, only_self hni, among_of_mem (by simp [hni])]
  · rw [only_of_ne (by rwa [among_congr Node.id hg])]
    by_cases hA : n.id ∈ A
    · rw [among_of_mem hA, among_of_mem (Finset.mem_union_left _ hA)]
    · rw [among_of_not_mem hA, among_of_not_mem (by simp [hni, hA])]

end Registry

namespace Mesh

variable {m : Mesh} {n : Node} {msg : Message}

theorem mem_eligible {leaveOut : Option NodeId} {b : NodeId} :
    b ∈ m.eligible n leaveOut ↔
      ∃ k ∈ m.registry.neighborsOf n, k.id = b ∧ some b ≠ leaveOut ∧
        m.config.cardinalThreshold ≤ k.coherence := by
  simp only [eligible, List.mem_map, List.mem_filter, Bool.and_eq_true, decide_eq_true_eq]
  constructor
  · rintro ⟨k, ⟨hk, hne, hcoherent⟩, rfl⟩
    exact ⟨k, hk, rfl, hne, hcoherent⟩
  · rintro ⟨k, hk, rfl, hne, hcoherent⟩
    exact ⟨k, ⟨hk, hne, hcoherent⟩, rfl⟩

/-- Whether a node and its first two neighbors agree. -/
def agrees (m : Mesh) (n : Node) : Bool :=
  match m.registry.neighborsOf n with
  | b :: c :: _ => (m.round? n b c).any (·.passed)
  | _ => false

theorem agrees_iff : m.agrees n = true ↔
    ∃ b c others r, m.registry.neighborsOf n = b :: c :: others ∧ m.round? n b c = some r ∧ r.passed = true := by
  unfold agrees
  constructor
  · intro h
    split at h
    case h_1 b c others hneighbors =>
      obtain ⟨r, hround, hpassed⟩ := (Option.any_eq_true _ _).1 h
      exact ⟨b, c, others, r, hneighbors, hround, hpassed⟩
    case h_2 => cases h
  · rintro ⟨b, c, others, r, hneighbors, hround, hpassed⟩
    rw [hneighbors]
    dsimp only
    rw [hround, Option.any_some, hpassed]

/-- A message that has passed the gate is accepted where it is new and the triad agrees. -/
theorem fate_of_passed {b c : Node} {rest : List Node} {r : Report Binary64}
    (hunseen : n.hasSeen (msg.id m.suite) = false) (hgate : m.gate.check m.suite msg = .ok ())
    (hneighbors : m.registry.neighborsOf n = b :: c :: rest) (hround : m.round? n b c = some r)
    (hpassed : r.passed = true) : m.fate n msg = .accepted r := by
  rw [fate, barred?_eq_none_iff.2 ⟨hunseen, hgate⟩, Option.getD_none, ballot, hneighbors]
  dsimp only
  rw [hround]
  exact if_pos hpassed

/-- A round of deterministic sensors has the same result at any time, and whatever the members have logged. -/
theorem round?_congr {m' : Mesh} {g : Node → Node} {b c : Node} (hconfig : m'.config = m.config)
    (hg : ∀ k metric t, (g k).measure metric t = Node.measure k metric t) (hn : n.sensor.Deterministic)
    (hb : b.sensor.Deterministic) (hc : c.sensor.Deterministic) : m'.round? n (g b) (g c) = m.round? n b c := by
  have ha := fun metric => Node.measure_of_deterministic hn metric m'.tick m.tick
  have hb := fun metric => Node.measure_of_deterministic hb metric (m'.tick + 1) (m.tick + 1)
  have hc := fun metric => Node.measure_of_deterministic hc metric (m'.tick + 2) (m.tick + 2)
  simp only [round?, Validator.assess, Validator.snapshot, hconfig, hg, ha, hb, hc]

end Mesh

namespace Deployment

variable {d e : Deployment} {o : NodeId} {msg : Message} {A : Finset NodeId} {rest : List NodeId} {sent : Nat}

/-- A message that a mesh at rest carries from `o` to every node that can be reached: it is new and passes the
gate, and wherever it can come to, coherence is high enough and the triad agrees whenever it votes. -/
structure Coverable (d : Deployment) (o : NodeId) (msg : Message) : Prop where
  relaying : d.mesh.config.relayAccepted = true
  idle : d.mesh.inFlight = 0
  origin : (d.node? o).isSome = true
  passes : d.mesh.gate.check d.mesh.suite msg = .ok ()
  unseen : ∀ i n, d.node? i = some n → n.hasSeen (msg.id d.mesh.suite) = false
  unlogged : ∀ i n, d.node? i = some n → ∀ k ∈ n.log, k.id d.mesh.suite ≠ msg.id d.mesh.suite
  coherent : ∀ i n, d.mesh.registry.Reaches o i → d.node? i = some n →
    d.mesh.config.cardinalThreshold ≤ n.coherence
  agreeing : ∀ i n, d.mesh.registry.Reaches o i → i ≠ o → d.node? i = some n → d.mesh.agrees n = true
  deterministic : ∀ i n, d.node? i = some n → n.sensor.Deterministic

/-- The gossip of `msg` from `o` among those of `d`: while it goes on, `sent` targets have got the message and
`rest` have not, and it is counted only when it ends. -/
inductive Handing (d : Deployment) (o : NodeId) (msg : Message) : List NodeId → Nat → List Fanout → Prop where
  | open {targets rest : List NodeId} {sent : Nat} (h : sent + rest.length = targets.length) :
      Handing d o msg rest sent (d.fanouts ++ [⟨o, msg, targets, rest⟩])
  | done : Handing d o msg [] 0 d.fanouts

/-- What a gossip of `msg` from `o` has made of a deployment `d`: the nodes in `A` have logged the message, and
everything that is pending carries it on. -/
structure Spreading (d : Deployment) (o : NodeId) (msg : Message) (A : Finset NodeId) (rest : List NodeId)
    (sent : Nat) (e : Deployment) : Prop where
  suite : e.mesh.suite = d.mesh.suite
  config : e.mesh.config = d.mesh.config
  registry : e.mesh.registry = d.mesh.registry.spread A (Node.imprint (msg.id d.mesh.suite) msg .logged)
  removed : e.removed = d.removed
  origin : o ∈ A
  reached : ∀ i ∈ A, d.mesh.registry.Reaches o i
  fanouts : Handing d o msg rest sent e.fanouts
  remaining : ∀ i ∈ rest, d.mesh.registry.Reaches o i
  pending : ∀ f ∈ e.mesh.propagator.pending, f.message = msg ∧ f.source ∈ A ∧ d.mesh.registry.Reaches o f.target
  closed : ∀ a ∈ A, ∀ b, d.mesh.registry.Linked a b →
    b ∈ A ∨ (∃ f ∈ e.mesh.propagator.pending, f.target = b) ∨ b ∈ rest
  dropped : e.mesh.metrics.relaysDropped = d.mesh.metrics.relaysDropped
  accepted : e.mesh.metrics.accepted + 1 = d.mesh.metrics.accepted + A.card
  counted : e.mesh.metrics.forwarded + sent + d.mesh.metrics.accepted + d.mesh.metrics.duplicates =
    d.mesh.metrics.forwarded + e.mesh.metrics.accepted + e.mesh.metrics.duplicates +
      e.mesh.propagator.pending.length

theorem Coverable.registered (hc : Coverable d o msg) {i : NodeId} (h : d.mesh.registry.Reaches o i) :
    ∃ n, d.node? i = some n :=
  Option.isSome_iff_exists.1 (h.registered hc.origin)

/-- Every neighbor of a node that can be reached is coherent enough to be forwarded to. -/
theorem Coverable.eligible (hc : Coverable d o msg) {a b : NodeId} {n : Node}
    (ha : d.mesh.registry.Reaches o a)
    (hn : d.node? a = some n) {k : Node} (hk : k ∈ d.mesh.registry.neighborsOf n) (hb : k.id = b)
    {leaveOut : Option NodeId} (hne : some b ≠ leaveOut) : b ∈ d.mesh.eligible n leaveOut := by
  have hlink : d.mesh.registry.Linked a b := ⟨n, hn, k, hk, hb⟩
  have hfind : d.node? b = some k := hb ▸ Registry.find?_of_mem_neighborsOf hk
  exact Mesh.mem_eligible.2 ⟨k, hk, hb, hne, hc.coherent b k (ha.tail hlink) hfind⟩

/-- A node that can be reached forwards only to nodes that can be reached. -/
theorem reaches_of_eligible {a b : NodeId} {n : Node} (ha : d.mesh.registry.Reaches o a)
    (hn : d.node? a = some n)
    {leaveOut : Option NodeId} (hb : b ∈ d.mesh.eligible n leaveOut) : d.mesh.registry.Reaches o b := by
  obtain ⟨k, hk, hid, -, -⟩ := Mesh.mem_eligible.1 hb
  exact ha.tail ⟨n, hn, k, hk, hid⟩

theorem Sound.pending_of_idle (h : Sound d) (hidle : d.mesh.inFlight = 0) :
    d.mesh.propagator.pending = [] := by
  rw [← List.length_eq_zero_iff, ← h.live.counted]
  exact hidle

theorem Coverable.spreading_start (hc : Coverable d o msg) (hsound : Sound d) :
    ∃ rest, Spreading d o msg {o} rest 0 (d.step (.gossip o msg)) := by
  obtain ⟨n, hn⟩ := Option.isSome_iff_exists.1 hc.origin
  have hbarred : d.mesh.barred? n msg = none := Mesh.barred?_eq_none_iff.2 ⟨hc.unseen o n hn, hc.passes⟩
  have hlogged : d.mesh.gossipImprint n msg = .logged := by rw [Mesh.gossipImprint, hbarred]; rfl
  obtain ⟨m, h, hstep⟩ := step_gossip msg hn
  rw [hlogged, hbarred] at h
  rw [if_pos hbarred] at hstep
  have hpending : m.propagator.pending = [] := by
    rw [h.propagator, Propagator.extend_nil, hsound.pending_of_idle hc.idle]
  refine ⟨d.mesh.eligible n none, ?_⟩
  rw [hstep]
  exact {
    suite := h.suite
    config := h.config
    registry := by
      rw [h.registry, Registry.id_of_find? hn]
      exact Registry.update_eq_spread fun k => Node.imprint_id _ _ _ k
    removed := rfl
    origin := Finset.mem_singleton_self o
    reached := by
      intro i hi
      rw [Finset.mem_singleton.1 hi]
      exact Relation.ReflTransGen.refl
    fanouts := .open (Nat.zero_add _)
    remaining := fun b hb => reaches_of_eligible Relation.ReflTransGen.refl hn hb
    pending := by
      intro f hf
      rw [hpending] at hf
      cases hf
    closed := by
      intro a ha b hlink
      rw [Finset.mem_singleton.1 ha] at hlink
      obtain ⟨k, hk, j, hj, hb⟩ := hlink
      rw [show d.mesh.registry.find? o = some n from hn] at hk
      cases hk
      exact .inr (.inr (hc.eligible Relation.ReflTransGen.refl hn hj hb (Option.some_ne_none b)))
    dropped := by rw [h.metrics]; rfl
    accepted := by rw [h.metrics]; rfl
    counted := by
      rw [hpending, h.metrics]
      simp only [Option.bind_none, Metrics.counting, Metrics.relayed, List.length_nil]
      omega }

namespace Spreading

variable {i : NodeId} {n : Node}

theorem node?_eq (h : Spreading d o msg A rest sent e) (i : NodeId) :
    e.node? i = (d.node? i).map (Registry.among A (Node.imprint (msg.id d.mesh.suite) msg .logged)) := by
  rw [node?, h.registry]
  exact Registry.find?_spread fun n => Node.imprint_id _ _ _ n

theorem node?_of_not_mem (h : Spreading d o msg A rest sent e) (hi : i ∉ A) : e.node? i = d.node? i := by
  rw [h.node?_eq]
  cases hn : d.node? i with
  | none => rfl
  | some n => rw [Option.map_some, Registry.among_of_not_mem (by rwa [Registry.id_of_find? hn])]

theorem node?_of_mem (h : Spreading d o msg A rest sent e) (hi : i ∈ A) (hn : d.node? i = some n) :
    e.node? i = some (n.imprint (msg.id d.mesh.suite) msg .logged) := by
  rw [h.node?_eq, hn, Option.map_some, Registry.among_of_mem (by rwa [Registry.id_of_find? hn])]

/-- Where the message has been logged, it is a duplicate. -/
theorem fate_of_mem (h : Spreading d o msg A rest sent e) (hc : Coverable d o msg) (hsound : Sound d)
    (hi : i ∈ A)
    (hn : e.node? i = some n) : e.mesh.fate n msg = .duplicate := by
  obtain ⟨k, hk⟩ := hc.registered (h.reached i hi)
  rw [h.node?_of_mem hi hk] at hn
  cases hn
  have hseen : (k.imprint (msg.id d.mesh.suite) msg .logged).hasSeen (msg.id e.mesh.suite) = true := by
    rw [h.suite]
    exact SeenSet.contains_insert_self _ (hsound.roomy i k hk)
  rw [Mesh.fate, Mesh.barred?_of_seen hseen, Option.getD_some]

/-- Anywhere else that it can come to, it is accepted. -/
theorem fate_of_not_mem (h : Spreading d o msg A rest sent e) (hc : Coverable d o msg) (hi : i ∉ A)
    (hreaches : d.mesh.registry.Reaches o i) (hn : d.node? i = some n) :
    ∃ r, e.mesh.fate n msg = .accepted r := by
  have hio : i ≠ o := fun hio => hi (hio ▸ h.origin)
  obtain ⟨b, c, others, r, hneighbors, hround, hpassed⟩ := Mesh.agrees_iff.1 (hc.agreeing i n hreaches hio hn)
  have hunseen : n.hasSeen (msg.id e.mesh.suite) = false := by
    rw [h.suite]
    exact hc.unseen i n hn
  have hgate : e.mesh.gate.check e.mesh.suite msg = .ok () := by
    rw [Mesh.gate, h.suite, h.config]
    exact hc.passes
  let mark := Registry.among A (Node.imprint (msg.id d.mesh.suite) msg .logged)
  have hneighbors' : e.mesh.registry.neighborsOf n = mark b :: mark c :: others.map mark := by
    have hids : ∀ k, (mark k).id = k.id := Registry.among_congr Node.id fun k => Node.imprint_id _ _ _ k
    have hmap : e.mesh.registry.neighborsOf n = (d.mesh.registry.neighborsOf n).map mark := by
      rw [h.registry]
      exact Registry.neighborsOf_map hids n
    rw [hmap, hneighbors]
    rfl
  have hdeterministic : ∀ k ∈ d.mesh.registry.neighborsOf n, k.sensor.Deterministic := fun k hk =>
    hc.deterministic k.id k (Registry.find?_of_mem_neighborsOf hk)
  have hround' : e.mesh.round? n (mark b) (mark c) = some r := by
    have hmeasure : ∀ k metric t, (mark k).measure metric t = Node.measure k metric t := by
      intro k metric t
      have hlogged : ∀ j : Node,
          (j.imprint (msg.id d.mesh.suite) msg .logged).measure metric t = j.measure metric t :=
        fun _ => rfl
      exact Registry.among_congr (fun j => j.measure metric t) hlogged k
    rw [Mesh.round?_congr h.config hmeasure (hc.deterministic i n hn) (hdeterministic b (by simp [hneighbors]))
      (hdeterministic c (by simp [hneighbors])), hround]
  exact ⟨r, Mesh.fate_of_passed hunseen hgate hneighbors' hround' hpassed⟩

theorem eligible_eq (h : Spreading d o msg A rest sent e) (n : Node) (leaveOut : Option NodeId) :
    e.mesh.eligible n leaveOut = d.mesh.eligible n leaveOut :=
  Mesh.eligible_congr e.mesh d.mesh n n (Registry.among_congr Node.id fun k => Node.imprint_id _ _ _ k)
    (Registry.among_congr Node.coherence fun k => Node.imprint_coherence _ _ _ k) rfl h.registry h.config leaveOut

/-- When a node has queued what it forwards, each of its neighbors has logged the message, as the one has that it
comes from, or a forward to it is pending. -/
theorem closed_of_delivered (h : Spreading d o msg A rest sent e) (hc : Coverable d o msg) {i : Nat} {f : Forward}
    {n : Node} (hf : e.mesh.propagator.running[i]? = some f) (hn : d.node? f.target = some n) {a b : NodeId}
    (ha : a ∈ A ∪ {f.target}) (hlink : d.mesh.registry.Linked a b) :
    b ∈ A ∪ {f.target} ∨
      (∃ g ∈ ((e.mesh.propagator.extend (d.mesh.relays n msg (some f.source))).complete i).pending,
        g.target = b) ∨ b ∈ rest := by
  obtain ⟨-, hsource, hreaches⟩ := h.pending f (Propagator.mem_pending_of_running hf)
  have hkept : ∀ g, g ∈ e.mesh.propagator.pending ++ d.mesh.relays n msg (some f.source) →
      g.target ∈ A ∪ {f.target} ∨ (∃ g' ∈ ((e.mesh.propagator.extend
        (d.mesh.relays n msg (some f.source))).complete i).pending, g'.target = g.target) ∨ g.target ∈ rest := by
    intro g hg
    rw [← Propagator.pending_extend] at hg
    have hrunning : (e.mesh.propagator.extend (d.mesh.relays n msg (some f.source))).running[i]? = some f := hf
    rcases Propagator.mem_pending_complete hrunning hg with rfl | hg
    · exact .inl (Finset.mem_union_right A (Finset.mem_singleton_self _))
    · exact .inr (.inl ⟨g, hg, rfl⟩)
  rcases Finset.mem_union.1 ha with ha | ha
  · rcases h.closed a ha b hlink with hb | ⟨g, hg, rfl⟩ | hb
    · exact .inl (Finset.mem_union_left _ hb)
    · exact hkept g (List.mem_append_left _ hg)
    · exact .inr (.inr hb)
  · rw [Finset.mem_singleton.1 ha] at hlink
    obtain ⟨k, hk, j, hj, hb⟩ := hlink
    rw [show d.mesh.registry.find? f.target = some n from hn] at hk
    cases hk
    by_cases hback : b = f.source
    · exact .inl (Finset.mem_union_left _ (hback ▸ hsource))
    · have heligible := hc.eligible hreaches hn hj hb (fun heq => hback (Option.some.inj heq))
      have hqueued : ⟨n.id, b, msg⟩ ∈ d.mesh.relays n msg (some f.source) := List.mem_map_of_mem heligible
      exact hkept _ (List.mem_append_right _ hqueued)

section Delivery

variable {k : Nat} {f : Forward} {taken : List Forward} {m : Mesh}
variable (hf : e.mesh.propagator.running[k]? = some f) (hn : e.node? f.target = some n)
variable (hreached : Mesh.Reached e.mesh n f.message
  (Node.imprint (f.message.id e.mesh.suite) f.message (e.mesh.fate n f.message).imprint)
  ((e.mesh.fate n f.message).event n f.message)
  (e.mesh.offers n f.message (some f.source) (e.mesh.fate n f.message)) taken m)

include hf hn hreached

/-- A delivery to a node that has logged the message is counted as a duplicate, and nothing else changes. -/
theorem deliver_of_mem (h : Spreading d o msg A rest sent e) (hc : Coverable d o msg) (hsound : Sound d)
    (hmem : f.target ∈ A) (rs : List Record) :
    Spreading d o msg A rest sent
      { e with mesh := { m with records := rs, propagator := m.propagator.complete k } } := by
  obtain ⟨hmsg, -, -⟩ := h.pending f (Propagator.mem_pending_of_running hf)
  rw [hmsg, h.fate_of_mem hc hsound hmem hn] at hreached
  obtain ⟨hpropagator, hmetrics, -⟩ := Mesh.Reached.quiet hreached
  replace hmetrics : m.metrics = e.mesh.metrics.count .duplicate := hmetrics
  have hlength := Propagator.length_pending_complete (List.getElem?_eq_some_iff.1 hf).1
  exact {
    suite := hreached.suite.trans h.suite
    config := hreached.config.trans h.config
    registry := hreached.registry.trans (Registry.update_id.trans h.registry)
    removed := h.removed
    origin := h.origin
    reached := h.reached
    fanouts := h.fanouts
    remaining := h.remaining
    pending := by
      intro g hg
      rw [hpropagator] at hg
      exact h.pending g (Propagator.mem_pending_of_mem_complete hg)
    closed := by
      intro a ha b hlink
      dsimp only
      rw [hpropagator]
      rcases h.closed a ha b hlink with hb | ⟨g, hg, hb⟩ | hb
      · exact .inl hb
      · rcases Propagator.mem_pending_complete hf hg with rfl | hg
        · exact .inl (hb ▸ hmem)
        · exact .inr (.inl ⟨g, hg, hb⟩)
      · exact .inr (.inr hb)
    dropped := by
      dsimp only
      rw [hmetrics]
      exact h.dropped
    accepted := by
      dsimp only
      rw [hmetrics]
      exact h.accepted
    counted := by
      have hcounted := h.counted
      dsimp only
      rw [hmetrics, hpropagator]
      simp only [Metrics.count]
      omega }

/-- A delivery to another node makes it log the message, and queues everything that it forwards if nothing is
dropped. -/
theorem accepted_of_not_mem (h : Spreading d o msg A rest sent e) (hc : Coverable d o msg) (hmem : f.target ∉ A)
    (hdropped : m.metrics.relaysDropped = d.mesh.metrics.relaysDropped) :
    d.node? f.target = some n ∧ taken = d.mesh.relays n msg (some f.source) ∧
      m.registry = d.mesh.registry.spread (A ∪ {f.target}) (Node.imprint (msg.id d.mesh.suite) msg .logged) ∧
      m.metrics = (e.mesh.metrics.count .accepted).relayed taken.length 0 := by
  obtain ⟨hmsg, -, hreaches⟩ := h.pending f (Propagator.mem_pending_of_running hf)
  rw [h.node?_of_not_mem hmem] at hn
  obtain ⟨r, hfate⟩ := h.fate_of_not_mem hc hmem hreaches hn
  have hoffers : e.mesh.offers n msg (some f.source) (.accepted r) = d.mesh.relays n msg (some f.source) := by
    rw [Mesh.offers, if_pos (by rw [h.config, hc.relaying]), Mesh.relays, h.eligible_eq, Mesh.relays]
  rw [hmsg, hfate, hoffers] at hreached
  have htaken : taken = d.mesh.relays n msg (some f.source) := by
    apply hreached.sublist.eq_of_length_le
    have hcount := hreached.metrics ▸ hdropped
    have hold := h.dropped
    simp only [Metrics.relayed, Metrics.counting, Fate.event, Metrics.count] at hcount
    omega
  refine ⟨hn, htaken, ?_, ?_⟩
  · rw [hreached.registry, h.registry, Registry.id_of_find? hn, h.suite]
    exact Registry.update_spread (fun k => Node.imprint_id _ _ _ k) hmem
  · rw [hreached.metrics, ← htaken, Nat.sub_self]
    rfl

theorem deliver_of_not_mem (h : Spreading d o msg A rest sent e) (hc : Coverable d o msg) (hmem : f.target ∉ A)
    (hdropped : m.metrics.relaysDropped = d.mesh.metrics.relaysDropped) (rs : List Record) :
    Spreading d o msg (A ∪ {f.target}) rest sent
      { e with mesh := { m with records := rs, propagator := m.propagator.complete k } } := by
  obtain ⟨hn', htaken, hregistry, hmetrics⟩ := h.accepted_of_not_mem hf hn hreached hc hmem hdropped
  obtain ⟨-, -, hreaches⟩ := h.pending f (Propagator.mem_pending_of_running hf)
  have hid : n.id = f.target := Registry.id_of_find? hn'
  have hcard : (A ∪ {f.target}).card = A.card + 1 := by
    rw [Finset.card_union_of_disjoint (Finset.disjoint_singleton_right.2 hmem), Finset.card_singleton]
  exact {
    suite := hreached.suite.trans h.suite
    config := hreached.config.trans h.config
    registry := hregistry
    removed := h.removed
    origin := Finset.mem_union_left _ h.origin
    reached := by
      intro j hj
      rcases Finset.mem_union.1 hj with hj | hj
      · exact h.reached j hj
      · rwa [Finset.mem_singleton.1 hj]
    fanouts := h.fanouts
    remaining := h.remaining
    pending := by
      intro g hg
      have hg := Propagator.mem_pending_of_mem_complete hg
      rw [hreached.propagator, Propagator.pending_extend, List.mem_append, htaken] at hg
      rcases hg with hg | hg
      · obtain ⟨hgmsg, hgsource, hgreaches⟩ := h.pending g hg
        exact ⟨hgmsg, Finset.mem_union_left _ hgsource, hgreaches⟩
      · obtain ⟨b, hb, rfl⟩ := List.mem_map.1 hg
        exact ⟨rfl, Finset.mem_union_right A (Finset.mem_singleton.2 hid), reaches_of_eligible hreaches hn' hb⟩
    closed := by
      intro a ha b hlink
      dsimp only
      rw [hreached.propagator, htaken]
      exact h.closed_of_delivered hc hf hn' ha hlink
    dropped := hdropped
    accepted := by
      have haccepted := h.accepted
      dsimp only
      rw [hmetrics, hcard]
      simp only [Metrics.relayed, Metrics.count]
      omega
    counted := by
      have hcounted := h.counted
      have hrunning : k < (e.mesh.propagator.extend taken).running.length := (List.getElem?_eq_some_iff.1 hf).1
      have hlength := Propagator.length_pending_complete hrunning
      rw [Propagator.pending_extend, List.length_append] at hlength
      dsimp only
      rw [hmetrics, hreached.propagator]
      simp only [Metrics.relayed, Metrics.count]
      omega }

end Delivery

/-- The dispatcher may move what is pending. -/
theorem of_pending (h : Spreading d o msg A rest sent e) {p : Propagator Forward}
    (hp : p.pending = e.mesh.propagator.pending) :
    Spreading d o msg A rest sent { e with mesh := { e.mesh with propagator := p } } where
  suite := h.suite
  config := h.config
  registry := h.registry
  removed := h.removed
  origin := h.origin
  reached := h.reached
  fanouts := h.fanouts
  remaining := h.remaining
  pending := hp ▸ h.pending
  closed := hp ▸ h.closed
  dropped := h.dropped
  accepted := h.accepted
  counted := hp ▸ h.counted

theorem advance {target : NodeId} (h : Spreading d o msg A (target :: rest) sent e) (fs : List Fanout)
    (hfanouts : Handing d o msg rest (sent + 1) fs) :
    Spreading d o msg A rest (sent + 1)
      { e with
        mesh := { e.mesh with propagator := e.mesh.propagator.extend [⟨o, target, msg⟩] }
        fanouts := fs } where
  suite := h.suite
  config := h.config
  registry := h.registry
  removed := h.removed
  origin := h.origin
  reached := h.reached
  fanouts := hfanouts
  remaining := fun i hi => h.remaining i (List.mem_cons_of_mem target hi)
  pending := by
    intro f hf
    rw [Propagator.pending_extend, List.mem_append, List.mem_singleton] at hf
    rcases hf with hf | rfl
    · exact h.pending f hf
    · exact ⟨rfl, h.origin, h.remaining target List.mem_cons_self⟩
  closed := by
    intro a ha b hlink
    rw [Propagator.pending_extend]
    rcases h.closed a ha b hlink with hb | ⟨f, hf, hb⟩ | hb
    · exact .inl hb
    · exact .inr (.inl ⟨f, List.mem_append_left _ hf, hb⟩)
    · rcases List.mem_cons.1 hb with rfl | hb
      · exact .inr (.inl ⟨_, List.mem_append_right _ (List.mem_singleton_self _), rfl⟩)
      · exact .inr (.inr hb)
  dropped := h.dropped
  accepted := h.accepted
  counted := by
    have hcounted := h.counted
    rw [Propagator.pending_extend, List.length_append, List.length_singleton]
    dsimp only
    omega

theorem finish (h : Spreading d o msg A [] sent e) (es : List Event) (rs : List Record) :
    Spreading d o msg A [] 0
      { e with
        mesh := { e.mesh with
          metrics := e.mesh.metrics.relayed sent 0
          events := es
          records := rs }
        fanouts := d.fanouts } where
  suite := h.suite
  config := h.config
  registry := h.registry
  removed := h.removed
  origin := h.origin
  reached := h.reached
  fanouts := .done
  remaining := h.remaining
  pending := h.pending
  closed := h.closed
  dropped := h.dropped
  accepted := h.accepted
  counted := h.counted

end Spreading

/-- The gossip in the place of the newest one is the one that is followed. -/
theorem Handing.newest {fs : List Fanout} {f : Fanout} (h : Handing d o msg rest sent fs)
    (hf : fs[d.fanouts.length]? = some f) :
    ∃ targets, f = ⟨o, msg, targets, rest⟩ ∧ sent + rest.length = targets.length ∧ fs = d.fanouts ++ [f] := by
  cases h with
  | «open» hsent =>
    rw [List.getElem?_concat_length] at hf
    cases hf
    exact ⟨_, rfl, hsent, rfl⟩
  | done => simp at hf

theorem Spreading.step (h : Spreading d o msg A rest sent e) (hc : Coverable d o msg) (hsound : Sound d)
    (he : Sound e) {a : Action} (ha : carries d.fanouts.length a = true)
    (hdropped : (e.step a).mesh.metrics.relaysDropped = d.mesh.metrics.relaysDropped) :
    ∃ A rest sent, Spreading d o msg A rest sent (e.step a) := by
  have heffect := he.effect a
  generalize e.step a = e' at heffect hdropped ⊢
  cases heffect with
  | structural hstructural hevolves rs t =>
    cases a with
    | advance j => cases hstructural
    | finish j => cases hstructural
    | take => cases hstructural
    | launch => cases hstructural
    | deliver i => cases hstructural
    | _ => cases ha
  | idle hevolves => exact ⟨A, rest, sent, h⟩
  | lost hf hn rs =>
    obtain ⟨-, -, hreaches⟩ := h.pending _ (Propagator.mem_pending_of_running hf)
    obtain ⟨n, hn'⟩ := hc.registered hreaches
    rw [h.node?_eq, hn'] at hn
    cases hn
  | @delivered i f n taken m hf hn hreached rs =>
    by_cases hmem : f.target ∈ A
    · exact ⟨A, rest, sent, h.deliver_of_mem hf hn hreached hc hsound hmem rs⟩
    · exact ⟨_, rest, sent, h.deliver_of_not_mem hf hn hreached hc hmem hdropped rs⟩
  | received hn hreached => cases ha
  | begun hn hreached => cases ha
  | @advanced k f target rest' hk hrem =>
    obtain rfl : k = d.fanouts.length := beq_iff_eq.1 ha
    obtain ⟨targets, rfl, hsent, hfanouts⟩ := h.fanouts.newest hk
    obtain rfl : rest = target :: rest' := hrem
    refine ⟨A, rest', sent + 1, h.advance _ ?_⟩
    have hsent' : sent + 1 + rest'.length = targets.length := by
      rw [List.length_cons] at hsent
      omega
    rw [hfanouts, List.set_append_right _ _ (Nat.le_refl _), Nat.sub_self, List.set_cons_zero]
    exact .open hsent'
  | @finished k f hk hrem rs =>
    obtain rfl : k = d.fanouts.length := beq_iff_eq.1 ha
    obtain ⟨targets, rfl, hsent, hfanouts⟩ := h.fanouts.newest hk
    obtain rfl : rest = [] := hrem
    obtain rfl : sent = targets.length := hsent
    rw [hfanouts, eraseIdx_newest]
    exact ⟨A, [], 0, h.finish _ rs⟩
  | took => exact ⟨A, rest, sent, h.of_pending (Propagator.pending_take he.live.served)⟩
  | launched => exact ⟨A, rest, sent, h.of_pending (Propagator.pending_launch _)⟩

theorem Effect.relaysDropped_le {a : Action} (h : Effect d a e) :
    d.mesh.metrics.relaysDropped ≤ e.mesh.metrics.relaysDropped := by
  have hreached : ∀ {n msg g event offered taken m}, Mesh.Reached d.mesh n msg g event offered taken m →
      d.mesh.metrics.relaysDropped ≤ m.metrics.relaysDropped := by
    intro n msg g event offered taken m h
    rw [h.metrics, Metrics.relayed]
    cases event with
    | none => exact Nat.le_add_right _ _
    | some event =>
      rw [Metrics.counting]
      cases event.kind <;> exact Nat.le_add_right _ _
  cases h with
  | delivered hf hn h rs =>
    have hle := hreached h
    exact hle
  | received hn h => exact hreached h
  | begun hn h => exact hreached h
  | _ => exact Nat.le_refl _

theorem Sound.relaysDropped_le_run (h : Sound d) (acts : List Action) :
    d.mesh.metrics.relaysDropped ≤ (d.run acts).mesh.metrics.relaysDropped := by
  induction acts generalizing d with
  | nil => exact Nat.le_refl _
  | cons a acts ih => exact Nat.le_trans (h.effect a).relaysDropped_le (ih (h.step a))

theorem Spreading.run (h : Spreading d o msg A rest sent e) (hc : Coverable d o msg) (hsound : Sound d)
    (he : Sound e) {acts : List Action} (hacts : ∀ a ∈ acts, carries d.fanouts.length a = true)
    (hdropped : (e.run acts).mesh.metrics.relaysDropped = d.mesh.metrics.relaysDropped) :
    ∃ A rest sent, Spreading d o msg A rest sent (e.run acts) := by
  induction acts generalizing e A rest sent with
  | nil => exact ⟨A, rest, sent, h⟩
  | cons a acts ih =>
    have hstep : (e.step a).mesh.metrics.relaysDropped = d.mesh.metrics.relaysDropped := by
      have hbefore := (he.effect a).relaysDropped_le
      have hafter := (he.step a).relaysDropped_le_run acts
      rw [run_cons] at hdropped
      have hnone := h.dropped
      omega
    obtain ⟨A', rest', sent', h'⟩ := h.step hc hsound he (hacts a List.mem_cons_self) hstep
    exact ih h' (he.step a) (fun b hb => hacts b (List.mem_cons_of_mem a hb)) hdropped

/-- When nothing is left to hand out or to deliver, the message has come as far as it can. -/
theorem Spreading.mem_iff (h : Spreading d o msg A [] sent e) (hidle : e.mesh.propagator.pending = [])
    (i : NodeId) :
    i ∈ A ↔ d.mesh.registry.Reaches o i := by
  constructor
  · exact h.reached i
  · intro hreaches
    induction hreaches with
    | refl => exact h.origin
    | tail hpath hlink ih =>
      rcases h.closed _ ih _ hlink with hb | ⟨f, hf, -⟩ | hb
      · exact hb
      · rw [hidle] at hf
        cases hf
      · cases hb

theorem Handing.ended {fs : List Fanout} (h : Handing d o msg rest sent fs) (hfs : fs = d.fanouts) :
    rest = [] ∧ sent = 0 := by
  cases h with
  | «open» hsent => simp at hfs
  | done => exact ⟨rfl, rfl⟩

/-- What a deployment `d` has become when a message from `o` has come as far as it can: each node that can be
reached has it in its log once, no other log has changed, acceptances have gone up by the number of the other
reached nodes, and duplicates by the forwards that were not accepted. -/
structure Covered (d : Deployment) (o : NodeId) (msg : Message) (e : Deployment) : Prop where
  reached : ∀ i n, d.node? i = some n → d.mesh.registry.Reaches o i → ∃ n', e.node? i = some n' ∧
    n'.log = n.log ++ [msg] ∧ (n'.log.countP fun k => k.id d.mesh.suite = msg.id d.mesh.suite) = 1
  unreached : ∀ i n, d.node? i = some n → ¬d.mesh.registry.Reaches o i →
    ∃ n', e.node? i = some n' ∧ n'.log = n.log
  absent : ∀ i, d.node? i = none → e.node? i = none
  removed : e.removed = d.removed
  accepted : e.mesh.metrics.accepted =
    d.mesh.metrics.accepted + ({i | d.mesh.registry.Reaches o i}.ncard - 1)
  duplicates : (e.mesh.metrics.duplicates : Int) - d.mesh.metrics.duplicates =
    ((e.mesh.metrics.forwarded : Int) - d.mesh.metrics.forwarded) -
      ((e.mesh.metrics.accepted : Int) - d.mesh.metrics.accepted)

theorem Spreading.covered (h : Spreading d o msg A [] 0 e) (hc : Coverable d o msg)
    (hidle : e.mesh.propagator.pending = []) : Covered d o msg e where
  reached := by
    intro i n hn hreaches
    refine ⟨_, h.node?_of_mem ((h.mem_iff hidle i).2 hreaches) hn, ?_⟩
    rw [Node.imprint_log, if_pos rfl, List.countP_append, List.countP_eq_zero.2]
    · simp
    · intro k hk
      simpa using hc.unlogged i n hn k hk
  unreached := by
    intro i n hn hunreached
    refine ⟨n, ?_, rfl⟩
    rw [h.node?_of_not_mem (fun hi => hunreached (h.reached i hi)), hn]
  absent := by
    intro i hn
    rw [h.node?_eq, hn]
    rfl
  removed := h.removed
  accepted := by
    have hset : {i | d.mesh.registry.Reaches o i} = (A : Set NodeId) := by
      ext i
      exact (h.mem_iff hidle i).symm
    have hcard : 0 < A.card := Finset.card_pos.2 ⟨o, h.origin⟩
    have haccepted := h.accepted
    rw [hset, Set.ncard_coe_finset]
    omega
  duplicates := by
    have hcounted := h.counted
    rw [hidle, List.length_nil] at hcounted
    omega

theorem Coverable.covered_run (hc : Coverable d o msg) (hsound : Sound d) {acts : List Action}
    (hacts : ∀ a ∈ acts, carries d.fanouts.length a = true)
    (hended : ((d.step (.gossip o msg)).run acts).fanouts = d.fanouts)
    (hidle : ((d.step (.gossip o msg)).run acts).mesh.inFlight = 0)
    (hdropped : ((d.step (.gossip o msg)).run acts).mesh.metrics.relaysDropped = d.mesh.metrics.relaysDropped) :
    Covered d o msg ((d.step (.gossip o msg)).run acts) := by
  have hbegun := hsound.step (.gossip o msg)
  obtain ⟨rest₀, hstart⟩ := hc.spreading_start hsound
  obtain ⟨A, rest, sent, hspread⟩ := hstart.run hc hsound hbegun hacts hdropped
  obtain ⟨rfl, rfl⟩ := hspread.fanouts.ended hended
  exact hspread.covered hc ((hbegun.run acts).pending_of_idle hidle)

/-- A gossip of a coverable message covers every node that can be reached from its origin, once it has ended and
everything that it has set off is delivered, in any order and without a relay dropped. -/
theorem gossip_covers (h : Reachable d) (hc : Coverable d o msg) {acts : List Action}
    (hacts : ∀ a ∈ acts, carries d.fanouts.length a = true)
    (hended : ((d.step (.gossip o msg)).run acts).fanouts = d.fanouts)
    (hidle : ((d.step (.gossip o msg)).run acts).mesh.inFlight = 0)
    (hdropped : ((d.step (.gossip o msg)).run acts).mesh.metrics.relaysDropped = d.mesh.metrics.relaysDropped) :
    Covered d o msg ((d.step (.gossip o msg)).run acts) :=
  hc.covered_run h.sound hacts hended hidle hdropped

/-- A message that is new to every node, where all nodes are coherent enough and agree with their neighbors, can
be carried to every node. -/
theorem coverable_of_nodes (hrelaying : d.mesh.config.relayAccepted = true)
    (hidle : d.mesh.inFlight = 0) (horigin : (d.node? o).isSome = true)
    (hpasses : d.mesh.gate.check d.mesh.suite msg = .ok ())
    (hnodes : ∀ n ∈ d.mesh.registry.nodes, n.hasSeen (msg.id d.mesh.suite) = false ∧
      (∀ k ∈ n.log, k.id d.mesh.suite ≠ msg.id d.mesh.suite) ∧ d.mesh.config.cardinalThreshold ≤ n.coherence ∧
      d.mesh.agrees n = true)
    (hdeterministic : ∀ i n, d.node? i = some n → n.sensor.Deterministic) : Coverable d o msg where
  relaying := hrelaying
  idle := hidle
  origin := horigin
  passes := hpasses
  unseen := fun _ n hn => (hnodes n (node?_eq_some_iff.1 hn).1).1
  unlogged := fun _ n hn => (hnodes n (node?_eq_some_iff.1 hn).1).2.1
  coherent := fun _ n _ hn => (hnodes n (node?_eq_some_iff.1 hn).1).2.2.1
  agreeing := fun _ n _ _ hn => (hnodes n (node?_eq_some_iff.1 hn).1).2.2.2
  deterministic := hdeterministic

/-- In a triangle a gossip comes to all three nodes, though two of its four forwards find it there already. -/
theorem gossip_covers_triangle :
    let d := (ofMesh Sample.mesh).run Sample.triangle
    let acts : List Action :=
      [.advance 0, .take, .launch, .deliver 0, .advance 0, .take, .launch, .take, .finish 0, .launch, .deliver 1,
       .deliver 0, .take, .launch, .deliver 0]
    Covered d "a" (Sample.message 1) ((d.step (.gossip "a" (Sample.message 1))).run acts) := by
  intro d acts
  have hreachable : Reachable d := (Reachable.start Sample.start_mesh).run Sample.triangle
  have hdeterministic : ∀ i n, d.node? i = some n → n.sensor.Deterministic := by
    apply (sound_start Sample.start_mesh).deterministic_run
    · intro i n hn
      cases hn
    · intro pre a post hsplit s hs
      have ha : a ∈ Sample.triangle := hsplit ▸ by simp
      simp only [Sample.triangle, List.mem_cons, List.not_mem_nil, or_false] at ha
      rcases ha with rfl | rfl | rfl | rfl | rfl | rfl
      all_goals cases hs
      all_goals exact Sensor.deterministic_fixed 1
  have hcoverable : Coverable d "a" (Sample.message 1) :=
    coverable_of_nodes (by decide +kernel) (by decide +kernel) (by decide +kernel) (by decide +kernel)
      (by decide +kernel) hdeterministic
  have hnone : d.fanouts = [] := List.length_eq_zero_iff.1 (by decide +kernel)
  have hended : ((d.step (.gossip "a" (Sample.message 1))).run acts).fanouts = [] :=
    List.length_eq_zero_iff.1 (by decide +kernel)
  have hacts : ∀ a ∈ acts, carries d.fanouts.length a = true := by
    rw [hnone]
    decide
  exact gossip_covers hreachable hcoverable hacts (hended.trans hnone.symm) (by decide +kernel)
    (by decide +kernel)

/-! ## A caller that waits -/

/-- A caller that gossips a coverable message and then waits until nothing is in flight needs no look at the order of
deliveries. If both calls end, and no relay was dropped meanwhile, every node that can be reached is covered. -/
theorem gossip_waitIdle_covers (h : Reachable d) (hc : Coverable d o msg) {rounds : Nat} {targets : List NodeId}
    (hgossip : (d.mesh.gossip rounds o msg).2 = .ok targets)
    (hidle : ((d.mesh.gossip rounds o msg).1.waitIdle rounds).2 = .ok ())
    (hdropped : ((d.mesh.gossip rounds o msg).1.waitIdle rounds).1.metrics.relaysDropped =
      d.mesh.metrics.relaysDropped) :
    ∃ e : Deployment, e.mesh = ((d.mesh.gossip rounds o msg).1.waitIdle rounds).1 ∧ Covered d o msg e := by
  -- Both calls together are one run, in which the dispatcher serves what the gossip has handed out.
  obtain ⟨acts, hacts, hmesh, hended⟩ := handsOut_gossip d rounds o msg
  obtain ⟨acts', hacts', hrun⟩ := dispatches_waitIdle ((d.step (.gossip o msg)).run acts) rounds
  rw [hmesh, ← run_append] at hrun
  have hcarries : ∀ a ∈ acts ++ acts', carries d.fanouts.length a = true := by
    intro a ha
    exact (List.mem_append.1 ha).elim (hacts a) fun ha => carries_of_serves (hacts' a ha)
  refine ⟨_, ?_, hc.covered_run h.sound hcarries ?_ ?_ ?_⟩
  · rw [hrun]
  · rw [hrun]
    exact hended targets hgossip
  · rw [hrun]
    exact waitIdle_ok hidle
  · rw [hrun]
    exact hdropped

end Deployment

end TriadMesh
