import Mathlib.Algebra.BigOperators.Ring.Finset
import Mathlib.Algebra.Order.BigOperators.Group.Finset
import TriadMesh.Proofs.Authenticity
import TriadMesh.Proofs.FloodControl
import TriadMesh.Proofs.Schedule

/-!
# Delivering what is pending

When nothing comes from outside, everything that is delivered carries one of the ids that are pending at the
start. A node with room for all of them never forgets one that it has taken in since, and so takes in and relays
each of them once at most. That bounds the number of deliveries.
-/

namespace TriadMesh

namespace Sample

/-- Nodes remember two ids. -/
def roomyConfig : Config := { config with seenCapacity := 2 }

def roomyMesh : Mesh := { mesh with config := roomyConfig }

theorem start_roomyMesh : Mesh.start suite roomyConfig .listener (fun _ => 0) true = .ok roomyMesh :=
  Deployment.start_of_valid suite .listener (fun _ => 0) (by decide +kernel) (by decide +kernel)
    (by decide +kernel)

/-- A gossip at `a` that hands its message to two neighbors. -/
def handedOut (k : UInt8) : List Action := [.gossip "a" (message k), .advance 0, .advance 0, .finish 0]

end Sample

/-- Whether a node that was reached goes on to remember the message. -/
def Imprint.remembers : Imprint → Bool
  | nothing => false
  | marked => true
  | logged => true
  | withdrawn => false

namespace Mesh

variable {m : Mesh} {n : Node} {msg : Message} {sender : Option NodeId}

theorem length_eligible_le (m : Mesh) (n : Node) (leaveOut : Option NodeId) :
    (m.eligible n leaveOut).length ≤ n.neighbors.length := by
  rw [eligible, List.length_map]
  exact Nat.le_trans (List.length_filter_le _ _) (List.length_filterMap_le _ _)

/-- Only an accepted message is offered to the queue, and to as many neighbors as there are at most. -/
theorem length_offers_le (fate : Fate) :
    (m.offers n msg sender fate).length ≤ if fate.imprint = .logged then n.neighbors.length else 0 := by
  cases fate with
  | accepted r =>
    have hlogged : (Fate.accepted r).imprint = .logged := rfl
    rw [offers, if_pos hlogged]
    split
    · rw [relays, List.length_map]
      exact m.length_eligible_le n sender
    · exact Nat.zero_le _
  | _ => exact Nat.zero_le _

theorem mem_offers {fate : Fate} {f : Forward} (h : f ∈ m.offers n msg sender fate) :
    fate.imprint = .logged ∧ f.source = n.id ∧ f.message = msg := by
  cases fate with
  | accepted r =>
    rw [offers] at h
    split at h
    · exact ⟨rfl, mem_relays h⟩
    · cases h
  | _ => cases h

end Mesh

namespace Deployment

variable {d e : Deployment} {a b : Action} {acts : List Action} {i : NodeId} {x : Digest} {f : Forward} {n : Node}
variable {A : Finset (NodeId × Digest)} {p : NodeId × Digest}

/-! ## What is counted -/

/-- The ids of the messages that are pending. -/
def circulating (d : Deployment) : Finset Digest :=
  (d.mesh.propagator.pending.map fun f => f.message.id d.mesh.suite).toFinset

def degree (d : Deployment) (i : NodeId) : Nat := (d.node? i).elim 0 fun n => n.neighbors.length

/-- The number of links of all nodes together. -/
def links (d : Deployment) : Nat := (d.mesh.registry.nodes.map fun n => n.neighbors.length).sum

/-- The forward that an action delivers. -/
def delivered (d : Deployment) : Action → List Forward
  | .deliver i => (d.mesh.propagator.running[i]?).toList
  | _ => []

/-- An action queues a message with the id `x` for neighbors of the node `i`. -/
def Relays (d : Deployment) (a : Action) (i : NodeId) (x : Digest) : Prop :=
  ∃ f ∈ d.enqueued a, f.source = i ∧ f.message.id d.mesh.suite = x

/-- The node and the id, if an action makes a node remember one. -/
def retained (d : Deployment) (a : Action) : Finset (NodeId × Digest) :=
  match d.presents a with
  | none => ∅
  | some (i, msg) =>
    (d.node? i).elim ∅ fun n =>
      if (d.imprint a n msg).remembers = true then {(i, msg.id d.mesh.suite)} else ∅

theorem retained_of_presents {msg : Message} (hp : d.presents a = some (i, msg)) (hn : d.node? i = some n) :
    d.retained a =
      if (d.imprint a n msg).remembers = true then {(i, msg.id d.mesh.suite)} else ∅ := by
  rw [retained, hp]
  dsimp only
  rw [hn, Option.elim_some]

theorem mem_retained : p ∈ d.retained a ↔ ∃ n msg, d.presents a = some (p.1, msg) ∧ d.node? p.1 = some n ∧
    (d.imprint a n msg).remembers = true ∧ msg.id d.mesh.suite = p.2 := by
  constructor
  · intro h
    cases hp : d.presents a with
    | none =>
      rw [retained, hp] at h
      exact absurd h (Finset.notMem_empty p)
    | some q =>
      obtain ⟨i, msg⟩ := q
      cases hn : d.node? i with
      | none =>
        rw [retained, hp] at h
        dsimp only at h
        rw [hn] at h
        exact absurd h (Finset.notMem_empty p)
      | some n =>
        rw [retained_of_presents hp hn] at h
        split at h
        case isTrue hremembers =>
          rw [Finset.mem_singleton.1 h]
          exact ⟨n, msg, rfl, hn, hremembers, rfl⟩
        case isFalse => exact absurd h (Finset.notMem_empty p)
  · rintro ⟨n, msg, hp, hn, hremembers, hid⟩
    rw [retained_of_presents hp hn, if_pos hremembers, Finset.mem_singleton, hid]

/-- A node remembers what it logs. -/
theorem Sound.retained_of_appends (h : Sound d) (happends : Appends d a i x) : (i, x) ∈ d.retained a := by
  obtain ⟨n, msg, hp, hn, hlogged, hid⟩ := h.logged_of_appends happends
  exact mem_retained.2 ⟨n, msg, hp, hn, by rw [hlogged]; rfl, hid⟩

/-! ## What the dispatcher does -/

/-- An action of the dispatcher moves forwards without delivering one, or delivers one to a node that is or is not
registered. -/
inductive Service (d : Deployment) : Action → Deployment → Prop where
  | moved {a : Action} {p : Propagator Forward} (hp : d.presents a = none) (hdelivered : d.delivered a = [])
      (hqueued : p.queued.length ≤ d.mesh.propagator.queued.length)
      (hpending : p.pending = d.mesh.propagator.pending) :
      Service d a { d with mesh := { d.mesh with propagator := p } }
  | lost {k : Nat} {f : Forward} (hf : d.mesh.propagator.running[k]? = some f) (hn : d.node? f.target = none)
      (rs : List Record) :
      Service d (.deliver k)
        { d with mesh := { d.mesh with records := rs, propagator := d.mesh.propagator.complete k } }
  | reached {k : Nat} {f : Forward} {n : Node} {taken : List Forward} {m : Mesh}
      (hf : d.mesh.propagator.running[k]? = some f) (hn : d.node? f.target = some n)
      (h : Mesh.Reached d.mesh n f.message
        (Node.imprint (f.message.id d.mesh.suite) f.message (d.mesh.fate n f.message).imprint)
        ((d.mesh.fate n f.message).event n f.message)
        (d.mesh.offers n f.message (some f.source) (d.mesh.fate n f.message)) taken m) (rs : List Record) :
      Service d (.deliver k) { d with mesh := { m with records := rs, propagator := m.propagator.complete k } }

theorem Sound.service (h : Sound d) (ha : serves a = true) : Service d a (d.step a) := by
  cases a with
  | take =>
    exact .moved rfl rfl (Effect.took.queued_le (fun _ _ => Action.noConfusion) (fun _ => Action.noConfusion)
      fun _ => Action.noConfusion) (Propagator.pending_take h.live.served)
  | launch =>
    exact .moved rfl rfl (Effect.launched.queued_le (fun _ _ => Action.noConfusion) (fun _ => Action.noConfusion)
      fun _ => Action.noConfusion) (Propagator.pending_launch _)
  | deliver k =>
    cases hf : d.mesh.propagator.running[k]? with
    | none =>
      rw [step_deliver_of_none hf]
      exact .moved (by rw [presents, hf, Option.map_none]) (by rw [delivered, hf]; rfl) (Nat.le_refl _) rfl
    | some f =>
      cases hn : d.node? f.target with
      | none =>
        obtain ⟨rs, hstep⟩ := step_deliver_of_unknown hf hn
        rw [hstep]
        exact .lost hf hn rs
      | some n =>
        obtain ⟨taken, m, rs, hreached, hstep⟩ := step_deliver hf hn
        rw [hstep]
        exact .reached hf hn hreached rs
  | _ => cases ha

/-- What a delivery that has reached its target puts into the queue. -/
theorem enqueued_of_reached {k : Nat} {taken : List Forward} {m : Mesh} {rs : List Record}
    (hstep : d.step a = { d with mesh := { m with records := rs, propagator := m.propagator.complete k } })
    (hpropagator : m.propagator = d.mesh.propagator.extend taken) : d.enqueued a = taken := by
  have hqueued : (d.step a).mesh.propagator.queued = d.mesh.propagator.queued ++ taken := by
    rw [hstep]
    dsimp only
    rw [hpropagator]
    rfl
  rw [enqueued, hqueued, List.drop_left]

/-- While only the dispatcher acts, a node remembers what it relays. -/
theorem Sound.retained_of_relays (h : Sound d) (ha : serves a = true) (hrelays : Relays d a i x) :
    (i, x) ∈ d.retained a := by
  obtain ⟨g, hg, hsource, hid⟩ := hrelays
  have hservice := h.service ha
  generalize hstep : d.step a = e at hservice
  cases hservice with
  | moved hp hdelivered hqueued hpending =>
    rw [enqueued, hstep, List.drop_of_length_le hqueued] at hg
    cases hg
  | @lost k f hf hn rs =>
    have hnone : d.enqueued (.deliver k) = [] := enqueued_of_reached hstep (Propagator.extend_nil _).symm
    rw [hnone] at hg
    cases hg
  | @reached k f n taken m hf hn hreached rs =>
    rw [enqueued_of_reached hstep hreached.propagator] at hg
    obtain ⟨hlogged, hsource', hmessage⟩ := Mesh.mem_offers (hreached.sublist.subset hg)
    have htarget : f.target = i := by rw [← hsource, hsource', Registry.id_of_find? hn]
    refine mem_retained.2 ⟨n, f.message, ?_, ?_, ?_, ?_⟩
    · rw [presents_deliver hf, htarget]
    · rw [← htarget]
      exact hn
    · have himprint : d.imprint (.deliver k) n f.message = .logged := hlogged
      rw [himprint]
      rfl
    · rw [← hmessage]
      exact hid

/-- The dispatcher leaves every list of neighbors as it is. -/
theorem Sound.neighbors_step (h : Sound d) (ha : serves a = true) (i : NodeId) :
    ((d.step a).node? i).map Node.neighbors = (d.node? i).map Node.neighbors := by
  have hservice := h.service ha
  generalize d.step a = e at hservice
  cases hservice with
  | moved hp hdelivered hqueued hpending => rfl
  | lost hf hn rs => rfl
  | @reached k f n taken m hf hn hreached rs =>
    let mark := Node.imprint (f.message.id d.mesh.suite) f.message (d.mesh.fate n f.message).imprint
    have hnode : m.registry.find? i = (d.node? i).map (Registry.only n.id mark) := by
      rw [hreached.registry]
      exact Registry.find?_update fun k => Node.imprint_id _ _ _ k
    rw [node?]
    dsimp only
    rw [hnode, Option.map_map]
    congr 1
    funext k
    exact Registry.only_congr Node.neighbors (fun k => Node.imprint_neighbors _ _ _ k) k

theorem Sound.node?_of_step (h : Sound d) (ha : serves a = true) {n' : Node}
    (hn' : (d.step a).node? i = some n') : ∃ n, d.node? i = some n := by
  have hneighbors := h.neighbors_step ha i
  rw [hn', Option.map_some] at hneighbors
  obtain ⟨n, hn, -⟩ := Option.map_eq_some_iff.1 hneighbors.symm
  exact ⟨n, hn⟩

theorem Sound.node?_step (h : Sound d) (ha : serves a = true) (hn : d.node? i = some n) :
    ∃ n', (d.step a).node? i = some n' := by
  have hneighbors := h.neighbors_step ha i
  rw [hn, Option.map_some] at hneighbors
  obtain ⟨n', hn', -⟩ := Option.map_eq_some_iff.1 hneighbors
  exact ⟨n', hn'⟩

/-- A node that is going to remember an id remembers it as the youngest one. -/
theorem Sound.guarded_of_retained (h : Sound d) (hp : p ∈ d.retained a) :
    ∃ n, (d.step a).node? p.1 = some n ∧ n.seen.Guarded p.2 ∅ := by
  obtain ⟨n, msg, hpresents, hn, hremembers, hid⟩ := mem_retained.1 hp
  refine ⟨_, h.node_reached hpresents hn, ?_⟩
  have hroomy := h.roomy p.1 n hn
  have hunseen : d.imprint a n msg ≠ .nothing → n.hasSeen p.2 = false := fun hsome =>
    hid ▸ unseen_of_imprint hsome
  rw [hid]
  cases himprint : d.imprint a n msg with
  | nothing =>
    rw [himprint] at hremembers
    cases hremembers
  | marked => exact SeenSet.guarded_insert_self (hunseen (by simp [himprint])) hroomy
  | logged => exact SeenSet.guarded_insert_self (hunseen (by simp [himprint])) hroomy
  | withdrawn =>
    rw [himprint] at hremembers
    cases hremembers

theorem sum_retained {msg : Message} (hp : d.presents a = some (i, msg)) (hn : d.node? i = some n)
    (hlogged : d.imprint a n msg = .logged) : ∑ p ∈ d.retained a, d.degree p.1 = n.neighbors.length := by
  have hremembers : (d.imprint a n msg).remembers = true := by rw [hlogged]; rfl
  rw [retained_of_presents hp hn, if_pos hremembers, Finset.sum_singleton, degree, hn, Option.elim_some]

/-- A delivery takes away one forward, and brings new ones only for a node that goes on to remember an id. -/
theorem Sound.delivered_step (h : Sound d) (ha : serves a = true) :
    (d.delivered a).length + (d.step a).mesh.propagator.pending.length ≤
      d.mesh.propagator.pending.length + ∑ p ∈ d.retained a, d.degree p.1 := by
  have hservice := h.service ha
  generalize d.step a = e at hservice
  cases hservice with
  | moved hp hdelivered hqueued hpending =>
    rw [hdelivered, hpending, List.length_nil]
    omega
  | lost hf hn rs =>
    have hlength := Propagator.length_pending_complete (List.getElem?_eq_some_iff.1 hf).1
    rw [delivered, hf, Option.toList_some, List.length_singleton]
    dsimp only
    omega
  | @reached k f n taken m hf hn hreached rs =>
    have hrunning : k < (d.mesh.propagator.extend taken).running.length := (List.getElem?_eq_some_iff.1 hf).1
    have hlength := Propagator.length_pending_complete hrunning
    rw [Propagator.pending_extend, List.length_append] at hlength
    have htaken : taken.length ≤ ∑ p ∈ d.retained (.deliver k), d.degree p.1 := by
      have hle := Nat.le_trans hreached.sublist.length_le (Mesh.length_offers_le _)
      by_cases hlogged : (d.mesh.fate n f.message).imprint = .logged
      · rw [if_pos hlogged] at hle
        rwa [sum_retained (presents_deliver hf) hn hlogged]
      · rw [if_neg hlogged] at hle
        omega
    rw [delivered, hf, Option.toList_some, List.length_singleton]
    dsimp only
    rw [hreached.propagator]
    omega

/-! ## Ids that stay -/

/-- What the dispatcher has made of a deployment `d`: everything that is pending carries an id that was pending at
the start, and for each pair in `A` the node remembers the id and will not forget it. -/
structure Confined (d : Deployment) (A : Finset (NodeId × Digest)) (e : Deployment) : Prop where
  suite : e.mesh.suite = d.mesh.suite
  neighbors : ∀ i, (e.node? i).map Node.neighbors = (d.node? i).map Node.neighbors
  roomy : ∀ i n, e.node? i = some n → d.circulating.card ≤ n.seen.capacity
  pending : ∀ f ∈ e.mesh.propagator.pending, f.message.id d.mesh.suite ∈ d.circulating
  kept : ∀ p ∈ A, p.2 ∈ d.circulating ∧ ∃ n, e.node? p.1 = some n ∧ n.seen.Guarded p.2 d.circulating

theorem mem_circulating (hf : f ∈ d.mesh.propagator.pending) : f.message.id d.mesh.suite ∈ d.circulating :=
  List.mem_toFinset.2 (List.mem_map_of_mem hf)

theorem confined_start (hroomy : ∀ i n, d.node? i = some n → d.circulating.card ≤ n.seen.capacity) :
    Confined d ∅ d where
  suite := rfl
  neighbors := fun _ => rfl
  roomy := hroomy
  pending := fun _ => mem_circulating
  kept := fun p hp => absurd hp (Finset.notMem_empty p)

namespace Confined

theorem degree_eq (h : Confined d A e) (i : NodeId) : e.degree i = d.degree i := by
  have hlengths := congrArg (Option.elim · 0 List.length) (h.neighbors i)
  simpa [degree, Option.elim_map, Function.comp_def] using hlengths

/-- A node that is going to remember an id has not been remembering it for good. -/
theorem not_mem_of_retained (h : Confined d A e) (hp : p ∈ e.retained a) : p ∉ A := by
  intro hA
  obtain ⟨n, msg, -, hn, hremembers, hid⟩ := mem_retained.1 hp
  obtain ⟨hcirculating, k, hk, hguarded⟩ := h.kept p hA
  rw [hn] at hk
  cases hk
  have hunseen : n.hasSeen (msg.id e.mesh.suite) = false := by
    apply unseen_of_imprint
    intro hnothing
    rw [hnothing] at hremembers
    cases hremembers
  rw [hid] at hunseen
  have hfull := hguarded.le_card hunseen
  have hroom := h.roomy p.1 n hn
  have hless := Finset.card_erase_lt_of_mem hcirculating
  omega

theorem presented (h : Confined d A e) (ha : serves a = true) {msg : Message}
    (hp : e.presents a = some (i, msg)) : msg.id d.mesh.suite ∈ d.circulating := by
  cases a with
  | deliver k =>
    obtain ⟨f, hf, heq⟩ := Option.map_eq_some_iff.1 hp
    cases heq
    exact h.pending f (Propagator.mem_pending_of_running hf)
  | take => cases hp
  | launch => cases hp
  | _ => cases ha

theorem recorded_subset (h : Confined d A e) (ha : serves a = true) (i : NodeId) :
    (recorded i e a).toFinset ⊆ d.circulating := by
  intro x hx
  have hx := Deployment.recorded_subset i e a (List.mem_toFinset.1 hx)
  rw [Deployment.presented] at hx
  split at hx
  case h_1 j msg hp =>
    split at hx
    · rw [List.mem_singleton.1 hx, h.suite]
      exact h.presented ha hp
    · cases hx
  case h_2 => cases hx

theorem retained_subset (h : Confined d A e) (ha : serves a = true) (hp : p ∈ e.retained a) :
    p.2 ∈ d.circulating := by
  obtain ⟨n, msg, hpresents, -, -, hid⟩ := mem_retained.1 hp
  rw [← hid, h.suite]
  exact h.presented ha hpresents

/-- The dispatcher adds those pairs to the ones that stay for which an action makes the node remember the id. -/
theorem step (h : Confined d A e) (he : Sound e) (ha : serves a = true) :
    Confined d (A ∪ e.retained a) (e.step a) where
  suite := (he.effect a).settings.1.trans h.suite
  neighbors i := (he.neighbors_step ha i).trans (h.neighbors i)
  roomy := by
    intro i n' hn'
    obtain ⟨n, hn⟩ := he.node?_of_step ha hn'
    rw [he.capacity_step hn hn']
    exact h.roomy i n hn
  pending := by
    intro f hf
    rcases he.pending_step a hf with hf | hf
    · exact h.pending f hf
    · have hid : f.message.id e.mesh.suite = f.message.id d.mesh.suite := by rw [h.suite]
      exact h.retained_subset ha (he.retained_of_relays ha ⟨f, hf, rfl, hid⟩)
  kept := by
    intro p hp
    rcases Finset.mem_union.1 hp with hp | hp
    · obtain ⟨hcirculating, n, hn, hguarded⟩ := h.kept p hp
      obtain ⟨n', hn'⟩ := he.node?_step ha hn
      have hguarded' := he.guarded_step hn hn' hguarded
      rw [Finset.union_eq_left.2 (h.recorded_subset ha p.1)] at hguarded'
      exact ⟨hcirculating, n', hn', hguarded'⟩
    · obtain ⟨n', hn', hguarded⟩ := he.guarded_of_retained hp
      exact ⟨h.retained_subset ha hp, n', hn', hguarded.mono (Finset.empty_subset _)⟩

/-- So a run of the dispatcher delivers as many forwards at most as were pending or belong to a pair that it has
added. -/
theorem run (h : Confined d A e) (he : Sound e) (hacts : ∀ a ∈ acts, serves a = true) :
    ∃ B, Disjoint A B ∧ Confined d (A ∪ B) (e.run acts) ∧
      (along delivered e acts).length + (e.run acts).mesh.propagator.pending.length ≤
        e.mesh.propagator.pending.length + ∑ p ∈ B, d.degree p.1 := by
  induction acts generalizing A e with
  | nil => exact ⟨∅, Finset.disjoint_empty_right A, by rwa [Finset.union_empty], by simp [along]⟩
  | cons a acts ih =>
    have ha := hacts a List.mem_cons_self
    obtain ⟨B, hdisjoint, hrun, hcount⟩ :=
      ih (h.step he ha) (he.step a) fun b hb => hacts b (List.mem_cons_of_mem a hb)
    obtain ⟨hleft, hright⟩ := Finset.disjoint_union_left.1 hdisjoint
    have hnew : Disjoint A (e.retained a) :=
      Finset.disjoint_right.2 fun p hp => h.not_mem_of_retained hp
    refine ⟨e.retained a ∪ B, Finset.disjoint_union_right.2 ⟨hnew, hleft⟩, ?_, ?_⟩
    · rwa [← Finset.union_assoc]
    · have hstep := he.delivered_step ha
      have hdegree : ∑ p ∈ e.retained a, e.degree p.1 = ∑ p ∈ e.retained a, d.degree p.1 :=
        Finset.sum_congr rfl fun p _ => h.degree_eq p.1
      rw [Finset.sum_union hright, along, List.length_append, run_cons]
      omega

/-- The pairs that stay are as many at most as there are nodes for each id. -/
theorem sum_degree_le (h : Confined d A e) :
    ∑ p ∈ A, d.degree p.1 ≤ d.circulating.card * d.links := by
  have hsub : A ⊆ d.mesh.registry.ids.toFinset ×ˢ d.circulating := by
    intro p hp
    obtain ⟨hcirculating, n, hn, -⟩ := h.kept p hp
    have hneighbors := h.neighbors p.1
    rw [hn, Option.map_some] at hneighbors
    obtain ⟨k, hk, -⟩ := Option.map_eq_some_iff.1 hneighbors.symm
    have hfound : (d.mesh.registry.find? p.1).isSome = true := Option.isSome_of_mem hk
    exact Finset.mem_product.2 ⟨List.mem_toFinset.2 (Registry.find?_isSome_iff.1 hfound), hcirculating⟩
  have hlinks : ∑ i ∈ d.mesh.registry.ids.toFinset, d.degree i = d.links := by
    rw [List.sum_toFinset _ (Registry.nodup_ids _), ← Registry.map_id_nodes, List.map_map, links]
    congr 1
    refine List.map_congr_left fun n hn => ?_
    have hfound : d.node? n.id = some n := node?_eq_some_iff.2 ⟨hn, rfl⟩
    rw [Function.comp_apply, degree, hfound, Option.elim_some]
  calc ∑ p ∈ A, d.degree p.1
      ≤ ∑ p ∈ d.mesh.registry.ids.toFinset ×ˢ d.circulating, d.degree p.1 := Finset.sum_le_sum_of_subset hsub
    _ = ∑ i ∈ d.mesh.registry.ids.toFinset, d.circulating.card * d.degree i := by
        rw [Finset.sum_product]
        exact Finset.sum_congr rfl fun i _ => Finset.sum_const_nat fun _ _ => rfl
    _ = d.circulating.card * d.links := by rw [← Finset.mul_sum, hlinks]

end Confined

/-! ## Waiting -/

/-- The dispatcher can bring the mesh of a deployment to `m`, and delivers at least `k` forwards on the way. -/
def Delivers (d : Deployment) (k : Nat) (m : Mesh) : Prop :=
  ∃ acts, (∀ a ∈ acts, serves a = true) ∧ d.run acts = { d with mesh := m } ∧
    k ≤ (along delivered d acts).length

theorem Dispatches.delivers {m : Mesh} (h : Dispatches d m) : Delivers d 0 m := by
  obtain ⟨acts, hserves, hrun⟩ := h
  exact ⟨acts, hserves, hrun, Nat.zero_le _⟩

theorem Delivers.trans {m m' : Mesh} {k k' : Nat} (h : Delivers d k m)
    (h' : Delivers { d with mesh := m } k' m') : Delivers d (k + k') m' := by
  obtain ⟨acts, hserves, hrun, hk⟩ := h
  obtain ⟨acts', hserves', hrun', hk'⟩ := h'
  refine ⟨acts ++ acts', ?_, ?_, ?_⟩
  · intro a ha
    exact (List.mem_append.1 ha).elim (hserves a) (hserves' a)
  · rw [run_append, hrun, hrun']
  · rw [along_append, hrun, List.length_append]
    exact Nat.add_le_add hk hk'

theorem Effect.sizes (h : Effect d a e) : e.mesh.propagator.capacity = d.mesh.propagator.capacity ∧
    e.mesh.propagator.permits = d.mesh.propagator.permits := by
  cases h with
  | delivered hf hn h rs =>
    dsimp only
    rw [h.propagator]
    exact ⟨rfl, rfl⟩
  | received hn h =>
    rw [h.propagator]
    exact ⟨rfl, rfl⟩
  | begun hn h =>
    rw [h.propagator]
    exact ⟨rfl, rfl⟩
  | took => exact ⟨Propagator.capacity_take _, Propagator.permits_take _⟩
  | launched => exact ⟨Propagator.capacity_launch _, Propagator.permits_launch _⟩
  | _ => exact ⟨rfl, rfl⟩

/-- There is always a place in the queue and a permit, though they may be taken. -/
theorem Reachable.sizes_pos (h : Reachable d) :
    0 < d.mesh.propagator.capacity ∧ 0 < d.mesh.propagator.permits := by
  induction h with
  | @start s config sink noise runtime m h =>
    rw [start_eq_ok h]
    exact ⟨Nat.lt_of_lt_of_le Nat.zero_lt_one (Nat.le_max_right config.queueCapacity 1),
      Nat.lt_of_lt_of_le Nat.zero_lt_one (Nat.le_max_right config.maxInFlight 1)⟩
  | step h a ih =>
    obtain ⟨hcapacity, hpermits⟩ := (h.sound.effect a).sizes
    rwa [hcapacity, hpermits]

theorem Reachable.pending_ne_nil (h : Reachable d) (hbusy : d.mesh.inFlight ≠ 0) :
    d.mesh.propagator.pending ≠ [] := by
  intro hnone
  apply hbusy
  rw [Mesh.inFlight, h.sound.live.counted, hnone, List.length_nil]

/-- A round delivers something if anything is pending. -/
theorem Reachable.delivers_round (h : Reachable d) (hbusy : d.mesh.inFlight ≠ 0) :
    Delivers d 1 d.mesh.round := by
  have hdispatch := (dispatches_dispatch d d.mesh.propagator.queued.length).delivers
  have hrunning : d.mesh.dispatch.propagator.running ≠ [] :=
    Propagator.running_dispatchAll (h.pending_ne_nil hbusy) h.sound.live.served h.sizes_pos.2
  obtain ⟨f, rest, hcons⟩ := List.exists_cons_of_ne_nil hrunning
  have hfirst : Delivers { d with mesh := d.mesh.dispatch } 1 (d.mesh.dispatch.deliver 0) :=
    ⟨[.deliver 0], by simp [serves], rfl, by simp [along, delivered, hcons]⟩
  have hround : d.mesh.round = Mesh.deliverFirst rest.length (d.mesh.dispatch.deliver 0) := by
    rw [Mesh.round, hcons, List.length_cons, Mesh.deliverFirst]
  rw [hround]
  have hrest := (dispatches_deliverFirst { d with mesh := d.mesh.dispatch.deliver 0 } rest.length).delivers
  exact hdispatch.trans (hfirst.trans hrest)

/-- To wait comes to an end, or delivers something in each round. -/
theorem Reachable.delivers_waitIdle (h : Reachable d) (rounds : Nat) :
    (d.mesh.waitIdle rounds).2 = .ok () ∨
      Delivers d rounds (d.mesh.waitIdle rounds).1 ∧ (d.mesh.waitIdle rounds).1.inFlight ≠ 0 := by
  induction rounds generalizing d with
  | zero =>
    rw [Mesh.waitIdle]
    by_cases hidle : d.mesh.inFlight = 0
    · exact .inl (if_pos hidle)
    · exact .inr ⟨(Dispatches.refl d).delivers, hidle⟩
  | succ rounds ih =>
    rw [Mesh.waitIdle]
    by_cases hidle : d.mesh.inFlight = 0
    · rw [if_pos hidle]
      exact .inl rfl
    · rw [if_neg hidle]
      have hround := h.delivers_round hidle
      obtain ⟨acts, -, hrun, -⟩ := id hround
      have hreachable : Reachable { d with mesh := d.mesh.round } := hrun ▸ h.run acts
      rcases ih hreachable with hended | ⟨hdelivers, hbusy⟩
      · exact .inl hended
      · refine .inr ⟨?_, hbusy⟩
        rw [Nat.add_comm]
        exact hround.trans hdelivers

/-! ## Handing out to the end -/

/-- Whatever the `k`-th gossip and the dispatcher do, to wait comes to an end in so many rounds. -/
def Waits (d : Deployment) (k rounds : Nat) : Prop :=
  ∀ acts, (∀ a ∈ acts, carries k a = true) → ((d.run acts).mesh.waitIdle rounds).2 = .ok ()

theorem Waits.run {k rounds : Nat} (h : Waits d k rounds) (hacts : ∀ a ∈ acts, carries k a = true) :
    Waits (d.run acts) k rounds := by
  intro acts' hacts'
  rw [← run_append]
  exact h (acts ++ acts') fun a ha => (List.mem_append.1 ha).elim (hacts a) (hacts' a)

theorem fanOut_of_through {m : Mesh} {f : Fanout} {rounds steps : Nat} (hrem : f.remaining = []) :
    m.fanOut rounds (steps + 1) f = (m.endGossip f, .ok f.targets) := by
  rw [Mesh.fanOut, if_pos (List.isEmpty_iff.2 hrem)]

theorem fanOut_of_room {m : Mesh} {f : Fanout} {target : NodeId} {rest : List NodeId} {rounds steps : Nat}
    (hopen : m.propagator.closed = false) (hroom : m.propagator.hasRoom = true) (hrem : f.remaining = target :: rest) :
    m.fanOut rounds (steps + 1) f =
      Mesh.fanOut rounds steps { m with propagator := m.propagator.extend [⟨f.source, target, f.message⟩] }
        { f with remaining := rest } := by
  rw [Mesh.fanOut, hrem, List.isEmpty_cons, if_neg Bool.false_ne_true, Mesh.advance, hrem]
  dsimp only
  rw [Propagator.submit_of_room hopen hroom _]
  rfl

theorem step_advance_of_room {k : Nat} {f : Fanout} {target : NodeId} {rest : List NodeId}
    (hopen : d.mesh.propagator.closed = false) (hroom : d.mesh.propagator.hasRoom = true)
    (hk : d.fanouts[k]? = some f) (hrem : f.remaining = target :: rest) :
    d.step (.advance k) =
      { d with
        mesh := { d.mesh with propagator := d.mesh.propagator.extend [⟨f.source, target, f.message⟩] }
        fanouts := d.fanouts.set k { f with remaining := rest } } := by
  rw [step, hk, Option.elim_some, Mesh.advance, hrem]
  dsimp only
  rw [Propagator.submit_of_room hopen hroom _]
  rfl

theorem fanOut_of_full {m : Mesh} {f : Fanout} {rounds steps : Nat} (hopen : m.propagator.closed = false)
    (hroom : ¬m.propagator.hasRoom = true) (hrem : f.remaining ≠ []) :
    m.fanOut rounds (steps + 1) f = Mesh.fanOut rounds steps (m.waitIdle rounds).1 f := by
  obtain ⟨target, rest, hrem⟩ := List.exists_cons_of_ne_nil hrem
  rw [Mesh.fanOut, hrem, List.isEmpty_cons, if_neg Bool.false_ne_true, Mesh.advance, hrem]
  dsimp only
  rw [Propagator.submit_of_full hopen hroom _]
  rfl

/-- Where waiting comes to an end, a gossip does: each target takes two steps at most, one of them to make room. -/
theorem Reachable.fanOut_ok {k rounds steps : Nat} {f : Fanout} (h : Reachable d) (hk : d.fanouts[k]? = some f)
    (hwaits : Waits d k rounds) (hsteps : 2 * f.remaining.length + 1 ≤ steps) :
    (d.mesh.fanOut rounds steps f).2 = .ok f.targets := by
  generalize hrem : f.remaining = rest at hsteps
  induction rest generalizing d f steps with
  | nil =>
    obtain ⟨steps, rfl⟩ := Nat.exists_eq_add_of_le' (Nat.le_trans (Nat.le_add_left 1 _) hsteps)
    rw [fanOut_of_through hrem]
  | cons target rest ih =>
    rw [List.length_cons] at hsteps
    have hroomy : ∀ {d : Deployment} {steps : Nat}, Reachable d → d.fanouts[k]? = some f → Waits d k rounds →
        d.mesh.propagator.hasRoom = true → 2 * rest.length + 1 ≤ steps →
        (d.mesh.fanOut rounds (steps + 1) f).2 = .ok f.targets := by
      intro d steps h hk hwaits hroom hsteps
      have hopen := h.sound.live.dispatching
      have hstep := step_advance_of_room hopen hroom hk hrem
      have hk' : (d.step (.advance k)).fanouts[k]? = some { f with remaining := rest } := by
        rw [hstep]
        exact List.getElem?_set_self (List.getElem?_eq_some_iff.1 hk).1
      have hwaits' : Waits (d.step (.advance k)) k rounds := by
        have hadvance : ∀ a ∈ [Action.advance k], carries k a = true := by simp [carries]
        exact hwaits.run hadvance
      have hrest := ih (h.step (.advance k)) hk' hwaits' rfl hsteps
      rw [hstep] at hrest
      rw [fanOut_of_room hopen hroom hrem]
      exact hrest
    obtain ⟨steps, rfl⟩ := Nat.exists_eq_add_of_le' (show 2 ≤ steps by omega)
    by_cases hroom : d.mesh.propagator.hasRoom = true
    · exact hroomy h hk hwaits hroom (by omega)
    · rw [fanOut_of_full h.sound.live.dispatching hroom (by rw [hrem]; exact List.cons_ne_nil _ _)]
      obtain ⟨acts, hserves, hrun⟩ := dispatches_waitIdle d rounds
      have hcarries : ∀ a ∈ acts, carries k a = true := fun a ha => carries_of_serves (hserves a ha)
      have h' := h.run acts
      have hwaits' := hwaits.run hcarries
      rw [hrun] at h' hwaits'
      refine hroomy h' hk hwaits' ?_ (by omega)
      -- Nothing is pending after a wait, so the queue is empty.
      have hidle : (d.mesh.waitIdle rounds).1.inFlight = 0 := waitIdle_ok (hwaits [] (by simp))
      have hnone := h'.sound.live.counted.symm.trans hidle
      have hqueued : (d.mesh.waitIdle rounds).1.propagator.queued.length = 0 := by
        dsimp only at hnone
        rw [Propagator.pending, List.length_append] at hnone
        omega
      have hcapacity := h'.sizes_pos.1
      rw [Propagator.hasRoom, hqueued]
      exact decide_eq_true hcapacity

/-! ## Draining -/

/-- However the dispatcher goes on from `d`, it carries out no more than `bound` deliveries, it can always start
another one as long as anything is pending, and waiting for the rest comes to an end. -/
structure Drains (d : Deployment) (bound : Nat) : Prop where
  bounded : ∀ acts, (∀ a ∈ acts, serves a = true) → (along delivered d acts).length ≤ bound
  unblocked : ∀ acts, (∀ a ∈ acts, serves a = true) → (d.run acts).mesh.inFlight ≠ 0 →
    ((d.run acts).run [.launch, .take, .launch]).mesh.propagator.running ≠ []
  ends : ∀ acts, (∀ a ∈ acts, serves a = true) → ((d.run acts).mesh.waitIdle bound).2 = .ok ()

/-- A run of the dispatcher keeps to the bound, with what is still pending counted in. -/
theorem Sound.delivered_run (h : Sound d)
    (hroomy : ∀ i n, d.node? i = some n → d.circulating.card ≤ n.seen.capacity)
    (hacts : ∀ a ∈ acts, serves a = true) :
    (along delivered d acts).length + (d.run acts).mesh.propagator.pending.length ≤
      d.mesh.propagator.pending.length + d.circulating.card * d.links := by
  obtain ⟨B, -, hconfined, hcount⟩ := (confined_start hroomy).run h hacts
  rw [Finset.empty_union] at hconfined
  have hsum := hconfined.sum_degree_le
  omega

/-- Nodes that have room for all ids that are pending drain the mesh. -/
theorem Reachable.drains (h : Reachable d)
    (hroomy : ∀ i n, d.node? i = some n → d.circulating.card ≤ n.seen.capacity) :
    Drains d (d.mesh.propagator.pending.length + d.circulating.card * d.links) where
  bounded := by
    intro acts hacts
    have hcount := h.sound.delivered_run hroomy hacts
    omega
  unblocked := by
    intro acts hacts hbusy
    have hrun := h.run acts
    exact Propagator.running_moves (hrun.pending_ne_nil hbusy) hrun.sound.live.served hrun.sizes_pos.2
  ends := by
    intro acts hacts
    rcases (h.run acts).delivers_waitIdle (d.mesh.propagator.pending.length + d.circulating.card * d.links)
      with hended | ⟨⟨acts', hacts', hrun, hmany⟩, hbusy⟩
    · exact hended
    -- Otherwise each round has delivered something, and something is still pending.
    · exfalso
      have hall : ∀ a ∈ acts ++ acts', serves a = true := fun a ha =>
        (List.mem_append.1 ha).elim (hacts a) (hacts' a)
      have hcount := h.sound.delivered_run hroomy hall
      have hpending := (h.run (acts ++ acts')).pending_ne_nil (by rw [run_append, hrun]; exact hbusy)
      have hpos := List.length_pos_iff.2 hpending
      rw [along_append, List.length_append] at hcount
      omega

/-- While the mesh is drained, no node appends or relays a message twice. -/
theorem Confined.once (h : Confined d ∅ d) (hd : Sound d) {pre mid : List Action}
    (hacts : ∀ c ∈ pre ++ a :: (mid ++ [b]), serves c = true) (hfirst : (i, x) ∈ (d.run pre).retained a) :
    (i, x) ∉ (d.run (pre ++ a :: mid)).retained b := by
  intro hagain
  have hbefore : ∀ c ∈ pre, serves c = true := fun c hc => hacts c (by simp [hc])
  have hbetween : ∀ c ∈ mid, serves c = true := fun c hc => hacts c (by simp [hc])
  obtain ⟨B, -, hpre, -⟩ := h.run hd hbefore
  have hstep := hpre.step (hd.run pre) (hacts a (by simp))
  obtain ⟨C, -, hmid, -⟩ := hstep.run ((hd.run pre).step a) hbetween
  rw [← run_cons, ← run_append] at hmid
  have hmem : (i, x) ∈ ∅ ∪ B ∪ (d.run pre).retained a ∪ C := by simp [hfirst]
  exact hmid.not_mem_of_retained hagain hmem

/-- Where each node has room for all ids that are pending beside those that it remembers, the mesh is drained by as
many deliveries at most as there are pending forwards and, for each id, links. Until then no node appends an id
twice, and none relays one twice. -/
theorem drain_bounded (h : Reachable d)
    (hroom : ∀ n ∈ d.mesh.registry.nodes, n.seen.order.length + d.circulating.card ≤ n.seen.capacity) :
    Drains d (d.mesh.propagator.pending.length + d.circulating.card * d.links) ∧
      ∀ pre a mid b, (∀ c ∈ pre ++ a :: (mid ++ [b]), serves c = true) → ∀ i x,
        ¬(Appends (d.run pre) a i x ∧ Appends (d.run (pre ++ a :: mid)) b i x) ∧
        ¬(Relays (d.run pre) a i x ∧ Relays (d.run (pre ++ a :: mid)) b i x) := by
  have hroomy : ∀ i n, d.node? i = some n → d.circulating.card ≤ n.seen.capacity := fun i n hn =>
    Nat.le_trans (Nat.le_add_left _ _) (hroom n (Registry.mem_nodes_of_find? hn))
  refine ⟨h.drains hroomy, ?_⟩
  intro pre a mid b hacts i x
  have honce := (confined_start hroomy).once (i := i) (x := x) h.sound hacts
  constructor
  · rintro ⟨hfirst, hagain⟩
    exact honce ((h.run pre).sound.retained_of_appends hfirst)
      ((h.run (pre ++ a :: mid)).sound.retained_of_appends hagain)
  · rintro ⟨hfirst, hagain⟩
    exact honce ((h.run pre).sound.retained_of_relays (hacts a (by simp)) hfirst)
      ((h.run (pre ++ a :: mid)).sound.retained_of_relays (hacts b (by simp)) hagain)

/-- In a triangle with room for two ids, two pending forwards of one message lead to eight deliveries at most. -/
theorem drain_bounded_triangle :
    let d := (ofMesh Sample.roomyMesh).run (Sample.triangle ++ Sample.handedOut 1)
    d.mesh.propagator.pending.length = 2 ∧ Drains d 8 := by
  intro d
  have hreachable : Reachable d := (Reachable.start Sample.start_roomyMesh).run _
  have hpending : d.mesh.propagator.pending.length = 2 := by decide +kernel
  have hids : d.circulating.card = 1 := by decide +kernel
  have hlinks : d.links = 6 := by decide +kernel
  have hdrains := (drain_bounded hreachable (by decide +kernel)).1
  rw [hpending, hids, hlinks] at hdrains
  exact ⟨hpending, hdrains⟩

end Deployment

end TriadMesh
