import TriadMesh.Proofs.Conservation
import TriadMesh.Proofs.Trio

/-!
# The end of a gossip among three equal nodes

There are four deliveries at most, and as long as something is left to do it can be done. So a gossip always comes to
its end, and then a report tells what the coherence of the nodes and the thresholds decide (`Ready.settles`).
-/

namespace TriadMesh.Simulation

open Deployment

variable {config : Config} {c : Binary64} {msg : Message} {d e : Deployment} {L : Finset NodeId} {rest : List NodeId}
  {left : Nat}

/-- Nothing is left to do of a gossip that has begun in `d`. -/
def Ended (d e : Deployment) : Prop := e.fanouts = d.fanouts ∧ e.mesh.inFlight = 0

/-- What a report has to say about the gossip among three equal nodes. -/
structure Correct (config : Config) (c : Binary64) (r : Report) : Prop where
  /-- To nodes that are not coherent enough nothing is forwarded. -/
  withheld : c < config.cardinalThreshold → r.forwardedTo = [] ∧ r.nodes = rows c 1 0 0 ∧ r.metrics = .zero
  forwarded : ¬c < config.cardinalThreshold → r.forwardedTo = ["Beta", "Gamma"]
  agreed : ¬c < config.cardinalThreshold → (unanimous config c).passed = true →
    r.nodes = rows c 1 1 1 ∧ r.metrics.accepted = 2 ∧ r.metrics.consensusRejected = 0
  divided : ¬c < config.cardinalThreshold → (unanimous config c).passed = false →
    r.nodes = rows c 1 0 0 ∧ r.metrics.accepted = 0 ∧ r.metrics.consensusRejected = 2

namespace Playing

/-- To wait comes to an end, since each round delivers something. -/
theorem waits (h : Playing d c msg L rest left e) (he : Reachable e)
    (hgate : d.mesh.gate.check d.mesh.suite msg = .ok ()) {rounds : Nat} (hrounds : left < rounds) :
    Waits e d.fanouts.length rounds := by
  intro acts hacts
  obtain ⟨L', rest', left', hleft, h'⟩ := h.run he.sound hgate hacts
  rcases (he.run acts).delivers_waitIdle rounds with hended | ⟨⟨more, hserves, -, hmany⟩, -⟩
  · exact hended
  · obtain ⟨-, -, left'', hleft', -⟩ :=
      h'.run (he.run acts).sound hgate fun a ha => carries_of_serves (hserves a ha)
    omega

/-- Where the gossip has come to its end, everything that the report says of it is decided. -/
theorem correct (h : Playing d c msg L rest left e) (he : Sound e) (hended : Ended d e)
    (hordered : c < d.mesh.config.cardinalThreshold ↔ ¬d.mesh.config.cardinalThreshold ≤ c) (x : Digest) :
    Correct d.mesh.config c (reportOf e.mesh x (audience d.mesh.config c)) := by
  obtain ⟨sent, hhanding, -⟩ := h.fanouts
  obtain ⟨rfl, -⟩ := hhanding.ended hended.1
  have hnone := he.pending_of_idle hended.2
  have haccepted := h.accepted
  have hnodes := h.nodes.reported rfl x (audience d.mesh.config c)
  have halone : L = {"Alpha"} → (reportOf e.mesh x (audience d.mesh.config c)).nodes = rows c 1 0 0 ∧
      e.mesh.metrics.accepted = 0 := by
    rintro rfl
    rw [Finset.card_singleton] at haccepted
    exact ⟨hnodes, by omega⟩
  exact {
    withheld := by
      intro hless
      have haudience := audience_of_not_le (hordered.1 hless)
      obtain ⟨-, hmetrics⟩ := h.quiet haudience
      rw [hmetrics, show Metrics.zero.accepted = 0 from rfl, Nat.zero_add] at haccepted
      obtain ⟨i, hL⟩ := Finset.card_eq_one.1 haccepted.symm
      have horigin := h.origin
      rw [hL, Finset.mem_singleton] at horigin
      subst horigin
      exact ⟨haudience, (halone hL).1, hmetrics⟩
    forwarded := fun hmany => audience_of_le (Decidable.not_not.1 fun hnot => hmany (hordered.2 hnot))
    agreed := by
      intro hmany hpassed
      have haudience := audience_of_le (Decidable.not_not.1 fun hnot => hmany (hordered.2 hnot))
      obtain ⟨hrejected, hhanded⟩ := h.agreed hpassed
      have hreached : ∀ i ∈ audience d.mesh.config c, i ∈ L := by
        intro i hi
        rcases hhanded i hi with hi | ⟨f, hf, -⟩ | hi
        · exact hi
        · rw [hnone] at hf
          cases hf
        · cases hi
      rw [haudience, List.forall_mem_cons, List.forall_mem_singleton] at hreached
      obtain rfl : L = nodeIds.toFinset := by
        refine Finset.Subset.antisymm (fun i hi => List.mem_toFinset.2 (h.subset i hi)) fun i hi => ?_
        have hi := List.mem_toFinset.1 hi
        simp only [nodeIds, List.mem_cons, List.not_mem_nil, or_false] at hi
        rcases hi with rfl | rfl | rfl
        · exact h.origin
        · exact hreached.1
        · exact hreached.2
      rw [show nodeIds.toFinset.card = 3 from by decide] at haccepted
      exact ⟨hnodes, Nat.succ.inj haccepted, hrejected⟩
    divided := by
      intro hmany hpassed
      have haudience := audience_of_le (Decidable.not_not.1 fun hnot => hmany (hordered.2 hnot))
      obtain ⟨hL, -, hcount⟩ := h.divided hpassed
      rw [hnone, haudience] at hcount
      exact ⟨(halone hL).1, (halone hL).2, hcount⟩ }

/-- The gossip can always be brought to its end. -/
theorem completes (h : Playing d c msg L rest left e) (he : Reachable e)
    (hgate : d.mesh.gate.check d.mesh.suite msg = .ok ()) :
    ∃ more, (∀ a ∈ more, carries d.fanouts.length a = true) ∧ Ended d (e.run more) := by
  have hwaits := h.waits he hgate (Nat.lt_succ_self left)
  obtain ⟨acts, hacts, hfanouts⟩ : ∃ acts, (∀ a ∈ acts, carries d.fanouts.length a = true) ∧
      (e.run acts).fanouts = d.fanouts := by
    obtain ⟨sent, hhanding, -⟩ := h.fanouts
    generalize hfs : e.fanouts = fs at hhanding
    cases hhanding with
    | done => exact ⟨[], by simp, hfs⟩
    | @«open» targets rest sent hsent =>
      have hk : e.fanouts[d.fanouts.length]? = some ⟨"Alpha", msg, targets, rest⟩ := by
        rw [hfs]
        exact List.getElem?_concat_length
      obtain ⟨acts, hacts⟩ := handsOut_fanOut (left + 1) (2 * rest.length + 1) hk
      refine ⟨acts, hacts.carries, ?_⟩
      rw [hacts.ended _ (he.fanOut_ok hk hwaits (Nat.le_refl _)), hfs, eraseIdx_newest]
  obtain ⟨more, hserves, hrun⟩ := dispatches_waitIdle (e.run acts) (left + 1)
  refine ⟨acts ++ more, ?_, ?_⟩
  · intro a ha
    exact (List.mem_append.1 ha).elim (hacts a) fun ha => carries_of_serves (hserves a ha)
  · rw [run_append, hrun]
    exact ⟨hfanouts, waitIdle_ok (hwaits acts hacts)⟩

end Playing

/-! ## From its beginning to its end -/

/-- Three equal nodes that have not met a message which passes the gate, in a mesh that has not been used yet. -/
structure Ready (d : Deployment) (c : Binary64) (msg : Message) : Prop where
  nodes : Stand d.mesh.suite c msg ∅ d.mesh.registry
  passes : d.mesh.gate.check d.mesh.suite msg = .ok ()
  idle : d.mesh.inFlight = 0
  unused : d.mesh.metrics = .zero
  ordered : c < d.mesh.config.cardinalThreshold ↔ ¬d.mesh.config.cardinalThreshold ≤ c

/-- However a deployment goes on with a gossip at its first node, it delivers no more than four forwards, can always
come to the end of the gossip, and reports what it has to as soon as it has. -/
structure Settles (d : Deployment) (c : Binary64) (msg : Message) : Prop where
  bounded : ∀ acts, (∀ a ∈ acts, carries d.fanouts.length a = true) →
    (along delivered (d.step (.gossip "Alpha" msg)) acts).length ≤ 4
  completes : ∀ acts, (∀ a ∈ acts, carries d.fanouts.length a = true) →
    ∃ more, (∀ a ∈ more, carries d.fanouts.length a = true) ∧
      Ended d ((d.step (.gossip "Alpha" msg)).run (acts ++ more))
  correct : ∀ acts, (∀ a ∈ acts, carries d.fanouts.length a = true) →
    Ended d ((d.step (.gossip "Alpha" msg)).run acts) →
      Correct d.mesh.config c (reportOf ((d.step (.gossip "Alpha" msg)).run acts).mesh (msg.id d.mesh.suite)
        ((d.begun (.gossip "Alpha" msg)).flatMap Fanout.targets))

namespace Ready

variable (h : Ready d c msg)

include h

theorem begins (hd : Sound d) :
    Playing d c msg {"Alpha"} (audience d.mesh.config c) 4 (d.step (.gossip "Alpha" msg)) ∧
      d.begun (.gossip "Alpha" msg) =
        [⟨"Alpha", msg, audience d.mesh.config c, audience d.mesh.config c⟩] := by
  obtain ⟨n, hn, hstanding⟩ := h.nodes "Alpha" (by decide)
  have hbarred : d.mesh.barred? n msg = none := Mesh.barred?_eq_none_iff.2 ⟨hstanding.seen, h.passes⟩
  have hlogged : d.mesh.gossipImprint n msg = .logged := by
    rw [Mesh.gossipImprint, hbarred]
    rfl
  obtain ⟨m, hreached, hstep⟩ := step_gossip msg hn
  rw [hlogged, hbarred] at hreached
  rw [if_pos hbarred, h.nodes.eligible rfl rfl (by decide) hstanding none] at hstep
  obtain ⟨hpropagator, hmetrics, -⟩ := hreached.quiet
  have hpending : m.propagator.pending = [] := by rw [hpropagator, hd.pending_of_idle h.idle]
  replace hmetrics : m.metrics = .zero := hmetrics.trans h.unused
  have haudience : (audience d.mesh.config c).length ≤ 2 := by
    by_cases hcoherent : d.mesh.config.cardinalThreshold ≤ c
    · rw [audience_of_le hcoherent]
      exact Nat.le_refl _
    · rw [audience_of_not_le hcoherent]
      exact Nat.zero_le _
  refine ⟨?_, by rw [begun, hstep, List.drop_left]; rfl⟩
  rw [hstep]
  exact {
    suite := hreached.suite
    config := hreached.config
    nodes := by
      dsimp only
      rw [hreached.registry]
      refine h.nodes.update (fun j => Node.imprint_id _ _ _ j) hn (fun j hj => by simp [hj]) fun _ => ?_
      exact hstanding.logged (hd.roomy _ n hn)
    origin := Finset.mem_singleton_self _
    subset := by
      intro i hi
      rw [Finset.mem_singleton.1 hi]
      decide
    fanouts := ⟨0, .open (Nat.zero_add _), Nat.le_of_eq (Nat.zero_add _)⟩
    remaining := fun i hi => hi
    pending := by
      intro f hf
      rw [hpending] at hf
      cases hf
    load := by
      rw [hpending, Finset.card_singleton, List.length_nil, Nat.zero_add]
      exact Nat.add_le_add_right haudience 3
    accepted := by
      rw [hmetrics]
      rfl
    agreed := by
      intro _
      rw [hmetrics]
      exact ⟨rfl, fun i hi => .inr (.inr hi)⟩
    divided := by
      intro _
      refine ⟨rfl, ?_, ?_⟩
      · rw [hpending]
        exact fun f hf => absurd hf List.not_mem_nil
      · rw [hpending, hmetrics]
        exact Nat.zero_add _
    quiet := fun _ => ⟨hpending, hmetrics⟩ }

/-- The gossip of one message among three equal nodes comes to the same end in any order. -/
theorem settles (hd : Reachable d) : Settles d c msg := by
  obtain ⟨hstart, hbegun⟩ := h.begins hd.sound
  have hreachable := hd.step (.gossip "Alpha" msg)
  exact {
    bounded := by
      intro acts hacts
      obtain ⟨-, -, left, hcount, -⟩ := hstart.run hreachable.sound h.passes hacts
      omega
    completes := by
      intro acts hacts
      obtain ⟨L, rest, left, -, hplaying⟩ := hstart.run hreachable.sound h.passes hacts
      obtain ⟨more, hmore, hended⟩ := hplaying.completes (hreachable.run acts) h.passes
      exact ⟨more, hmore, by rwa [run_append]⟩
    correct := by
      intro acts hacts hended
      obtain ⟨L, rest, left, -, hplaying⟩ := hstart.run hreachable.sound h.passes hacts
      rw [hbegun, List.flatMap_singleton]
      exact hplaying.correct (hreachable.run acts).sound hended h.ordered _ }

theorem gossip_ok (hd : Reachable d) :
    (d.mesh.gossip rounds "Alpha" msg).2 = .ok (audience d.mesh.config c) := by
  obtain ⟨hstart, hbegun⟩ := h.begins hd.sound
  have hreachable := hd.step (.gossip "Alpha" msg)
  have hwaits := hstart.waits hreachable h.passes (show 4 < rounds by decide)
  have hstep : d.step (.gossip "Alpha" msg) = d.enter (d.mesh.beginGossip "Alpha" msg) := rfl
  rw [Mesh.gossip]
  cases hbegin : d.mesh.beginGossip "Alpha" msg with
  | mk m answer =>
    rw [hbegin] at hstep
    cases answer with
    | error e =>
      rw [begun, hstep, enter, List.drop_length] at hbegun
      cases hbegun
    | ok f =>
      rw [begun, hstep, enter, List.drop_left] at hbegun
      cases hbegun
      have hk : (d.step (.gossip "Alpha" msg)).fanouts[d.fanouts.length]? =
          some ⟨"Alpha", msg, audience d.mesh.config c, audience d.mesh.config c⟩ := by
        rw [hstep, enter]
        exact List.getElem?_concat_length
      have hended := hreachable.fanOut_ok hk hwaits (Nat.le_refl _)
      rwa [hstep] at hended

/-- So does a mesh that carries the gossip to its end and waits. -/
theorem gossip_correct (hd : Reachable d) (x : Digest) :
    Correct d.mesh.config c
      (reportOf ((d.mesh.gossip rounds "Alpha" msg).1.waitIdle rounds).1 x (audience d.mesh.config c)) := by
  obtain ⟨hstart, -⟩ := h.begins hd.sound
  have hreachable := hd.step (.gossip "Alpha" msg)
  have hwaits := hstart.waits hreachable h.passes (show 4 < rounds by decide)
  obtain ⟨acts, hacts, hmesh, hended⟩ := handsOut_gossip d rounds "Alpha" msg
  obtain ⟨more, hserves, hrun⟩ := dispatches_waitIdle ((d.step (.gossip "Alpha" msg)).run acts) rounds
  have hidle := waitIdle_ok (hwaits acts hacts)
  have hcarries : ∀ a ∈ acts ++ more, carries d.fanouts.length a = true := fun a ha =>
    (List.mem_append.1 ha).elim (hacts a) fun ha => carries_of_serves (hserves a ha)
  rw [hmesh] at hidle
  rw [hmesh, ← run_append] at hrun
  obtain ⟨L, rest, left, -, hplaying⟩ := hstart.run hreachable.sound h.passes hcarries
  have hsound := (hreachable.run (acts ++ more)).sound
  rw [hrun] at hplaying hsound
  exact hplaying.correct hsound ⟨hended _ (h.gossip_ok hd), hidle⟩ h.ordered x

end Ready

end TriadMesh.Simulation
