import TriadMesh.Proofs.Crash
import TriadMesh.Proofs.Locality

/-!
# Votes that crash

A vote crashes if and only if one of its three sensors does. Nothing is logged or counted then, no other node changes,
and a delivery ends as any other. But the node still remembers the message, which it forgets where a vote fails or
cannot be held. So the message is answered as a duplicate from then on, until enough other ids have come after it.
-/

namespace TriadMesh

namespace Mesh

variable {m m' : Mesh} {n b c : Node} {msg : Message}

/-- One of three sensors that are read one after the other crashes. -/
def Unreadable (m : Mesh) (n b c : Node) : Prop :=
  n.measure m.config.metric m.tick = none ∨ b.measure m.config.metric (m.tick + 1) = none ∨
    c.measure m.config.metric (m.tick + 2) = none

theorem round?_eq_none_iff : m.round? n b c = none ↔ m.Unreadable n b c := by
  rw [round?, Validator.assess, Option.map_eq_none_iff, Validator.snapshot, Unreadable]
  cases n.measure m.config.metric m.tick with
  | none => simp
  | some x =>
    cases b.measure m.config.metric (m.tick + 1) with
    | none => simp
    | some y => cases c.measure m.config.metric (m.tick + 2) <;> simp

theorem ballot_eq_crashed_iff :
    m.ballot n = .crashed ↔ ∃ b c rest, m.registry.neighborsOf n = b :: c :: rest ∧ m.Unreadable n b c := by
  unfold ballot
  split
  case h_1 b c rest hneighbors =>
    have hcrashed : m.Unreadable n b c ↔
        ∃ b' c' rest', b :: c :: rest = b' :: c' :: rest' ∧ m.Unreadable n b' c' := by
      constructor
      · exact fun h => ⟨b, c, rest, rfl, h⟩
      · rintro ⟨b', c', rest', heq, h⟩
        cases heq
        exact h
    rw [hneighbors, ← hcrashed, ← round?_eq_none_iff]
    cases m.round? n b c with
    | none => simp
    | some r => cases hpassed : r.passed <;> simp [hpassed]
  case h_2 hfew =>
    constructor
    · exact Fate.noConfusion
    · rintro ⟨b, c, rest, hneighbors, -⟩
      exact absurd hneighbors (hfew b c rest)

theorem fate_eq_crashed_iff : m.fate n msg = .crashed ↔
    n.hasSeen (msg.id m.suite) = false ∧ m.gate.check m.suite msg = .ok () ∧ m.ballot n = .crashed := by
  constructor
  · intro hcrashed
    cases hbarred : m.barred? n msg with
    | some fate =>
      obtain ⟨e, -, hrefused, -⟩ := screen_of_barred hbarred
      rw [Mesh.fate, hbarred, Option.getD_some] at hcrashed
      rw [hcrashed] at hrefused
      cases hrefused
    | none =>
      obtain ⟨hunseen, hgate⟩ := barred?_eq_none_iff.1 hbarred
      exact ⟨hunseen, hgate, fate_eq_ballot hunseen hgate ▸ hcrashed⟩
  · rintro ⟨hunseen, hgate, hcrashed⟩
    rw [fate_eq_ballot hunseen hgate, hcrashed]

theorem Reached.of_crashed {sender : Option NodeId} {taken : List Forward}
    (h : Reached m n msg (Node.imprint (msg.id m.suite) msg Fate.crashed.imprint) (Fate.crashed.event n msg)
      (m.offers n msg sender .crashed) taken m') :
    m'.registry = (m.marked n msg).registry ∧ m'.propagator = m.propagator ∧ m'.metrics = m.metrics ∧
      m'.events = m.events := by
  have hoffers : m.offers n msg sender .crashed = [] := rfl
  rw [hoffers] at h
  obtain ⟨hpropagator, hmetrics, hevents⟩ := h.quiet
  exact ⟨h.registry, hpropagator, hmetrics, hevents.trans (List.append_nil _)⟩

end Mesh

namespace Deployment

variable {d : Deployment} {a a' : Action} {acts : List Action} {i : NodeId} {n b c : Node} {msg : Message}

/-! ## When a vote crashes -/

/-- A message that the node `n` lets in, though one of the three sensors that its vote needs crashes. -/
structure Misread (d : Deployment) (n b c : Node) (msg : Message) : Prop where
  unseen : n.hasSeen (msg.id d.mesh.suite) = false
  passes : d.mesh.gate.check d.mesh.suite msg = .ok ()
  neighbors : ∃ rest, n.neighbors = b.id :: c.id :: rest
  registered : d.node? b.id = some b ∧ d.node? c.id = some c
  unreadable : d.mesh.Unreadable n b c

theorem Misread.neighborsOf (h : d.Misread n b c msg) : ∃ rest, d.mesh.registry.neighborsOf n = b :: c :: rest := by
  obtain ⟨rest, hneighbors⟩ := h.neighbors
  obtain ⟨hb, hc⟩ := h.registered
  rw [node?] at hb hc
  exact ⟨rest.filterMap d.mesh.registry.find?, by simp [Registry.neighborsOf, hneighbors, hb, hc]⟩

theorem Reachable.fate_eq_crashed_iff (h : Reachable d) (hn : d.node? i = some n) :
    d.mesh.fate n msg = .crashed ↔ ∃ b c, d.Misread n b c msg := by
  rw [Mesh.fate_eq_crashed_iff, Mesh.ballot_eq_crashed_iff]
  constructor
  · rintro ⟨hunseen, hgate, b, c, rest, hneighbors, hunreadable⟩
    have htriad : d.mesh.triad? n = some ⟨n, b, c, d.mesh.config.varianceThreshold⟩ := by
      rw [Mesh.triad?, hneighbors]
    obtain ⟨-, hb, hc, hrest, -⟩ := h.triad hn htriad
    exact ⟨b, c, hunseen, hgate, hrest, ⟨hb, hc⟩, hunreadable⟩
  · rintro ⟨b, c, hmisread⟩
    obtain ⟨rest, hneighbors⟩ := hmisread.neighborsOf
    exact ⟨hmisread.unseen, hmisread.passes, b, c, rest, hneighbors, hmisread.unreadable⟩

theorem answer_eq_crashed_iff (hp : d.presents a = some (i, msg)) (ha : a ≠ .gossip i msg) :
    d.answer a = some .crashed ↔ ∃ n, d.node? i = some n ∧ d.mesh.fate n msg = .crashed := by
  constructor
  · intro ho
    obtain ⟨sender, hcrashed, -⟩ := received_of_answer hp ho
    cases hn : d.node? i with
    | none =>
      rw [Mesh.receive_of_unknown hn] at hcrashed
      cases hcrashed
    | some n =>
      rw [(Mesh.receive_spec msg sender hn).1] at hcrashed
      exact ⟨n, rfl, Mesh.outcome_eq_crashed hcrashed.symm⟩
  · rintro ⟨n, hn, hfate⟩
    rw [answer_of_presents hp ha hn, hfate]
    rfl

/-! ## What it leaves behind -/

/-- The state after a crashed vote is the one before it, but for what the node `n` remembers and for the delivery. -/
structure Abandoned (d : Deployment) (a : Action) (n : Node) (msg : Message) : Prop where
  target : (d.step a).node? n.id = some (n.markSeen (msg.id d.mesh.suite)).1
  others : ∀ j, j ≠ n.id → (d.step a).node? j = d.node? j
  ids : (d.step a).mesh.registry.ids = d.mesh.registry.ids
  metrics : (d.step a).mesh.metrics = d.mesh.metrics
  events : (d.step a).mesh.events = d.mesh.events
  removed : (d.step a).removed = d.removed
  fanouts : (d.step a).fanouts = d.fanouts
  received : (∀ k, a ≠ .deliver k) → (d.step a).mesh.propagator = d.mesh.propagator
  delivered : ∀ k, a = .deliver k → (d.step a).mesh.propagator = d.mesh.propagator.complete k ∧
    (d.step a).mesh.inFlight + 1 = d.mesh.inFlight

theorem Sound.quiet_of_crashed (h : Sound d) (hp : d.presents a = some (i, msg)) (ha : a ≠ .gossip i msg)
    (hn : d.node? i = some n) (hfate : d.mesh.fate n msg = .crashed) :
    (d.step a).mesh.metrics = d.mesh.metrics ∧ (d.step a).mesh.events = d.mesh.events ∧
      (d.step a).fanouts = d.fanouts ∧
      ((∀ k, a ≠ .deliver k) → (d.step a).mesh.propagator = d.mesh.propagator) ∧
      ∀ k, a = .deliver k → (d.step a).mesh.propagator = d.mesh.propagator.complete k ∧
        (d.step a).mesh.inFlight + 1 = d.mesh.inFlight := by
  cases a with
  | receive j msg' =>
    cases hp
    obtain ⟨taken, m', hreached, hstep⟩ := step_receive msg hn
    rw [hfate] at hreached
    obtain ⟨-, hpropagator, hmetrics, hevents⟩ := hreached.of_crashed
    rw [hstep]
    exact ⟨hmetrics, hevents, rfl, fun _ => hpropagator, fun k hk => Action.noConfusion hk⟩
  | deliver k =>
    obtain ⟨f, hf, hforward⟩ := Option.map_eq_some_iff.1 hp
    cases hforward
    obtain ⟨taken, m', rs, hreached, hstep⟩ := step_deliver hf hn
    rw [hfate] at hreached
    obtain ⟨-, hpropagator, hmetrics, hevents⟩ := hreached.of_crashed
    rw [hstep]
    refine ⟨hmetrics, hevents, rfl, fun hne => absurd rfl (hne k), fun k' hk' => ?_⟩
    cases hk'
    -- The forward was counted, so the count that is released is not cut off at zero.
    have hcount := Propagator.length_pending_complete (List.getElem?_eq_some_iff.1 hf).1
    have hcounted := h.live.counted
    have hone : d.mesh.propagator.inFlight - 1 + 1 = d.mesh.propagator.inFlight := by omega
    rw [Mesh.inFlight, hpropagator]
    exact ⟨rfl, hone⟩
  | gossip j msg' =>
    cases hp
    exact absurd rfl ha
  | _ => cases hp

theorem Sound.abandoned (h : Sound d) (hp : d.presents a = some (i, msg)) (ha : a ≠ .gossip i msg)
    (hn : d.node? i = some n) (hfate : d.mesh.fate n msg = .crashed) : d.Abandoned a n msg := by
  obtain ⟨hmetrics, hevents, hfanouts, hreceived, hdelivered⟩ := h.quiet_of_crashed hp ha hn hfate
  have htouches := h.touches hp
  have htarget := h.node_reached hp hn
  rw [imprint_eq_fate hp ha, hfate] at htarget
  rw [← Registry.id_of_find? hn] at htouches htarget
  exact ⟨htarget, htouches.others, htouches.ids, hmetrics, hevents, htouches.removed, hfanouts, hreceived,
    hdelivered⟩

/-- An id that a node has just recorded is remembered until as many others are recorded as there is room for. -/
theorem Sound.remembered_run {x : Digest} (h : Sound d) (hn : d.node? i = some n) (hguarded : n.seen.Guarded x ∅)
    (hstays : Stays i d acts)
    (hfew : ((along (Deployment.recorded i) d acts).toFinset.erase x).card < n.seen.capacity) :
    ∃ n', (d.run acts).node? i = some n' ∧ n'.hasSeen x = true := by
  obtain ⟨n', hn'⟩ := Option.isSome_iff_exists.1 hstays.isSome_run
  refine ⟨n', hn', ?_⟩
  by_contra hforgotten
  have hcard := (h.guarded_run hstays hn hn' hguarded).le_card (by simpa [Node.hasSeen] using hforgotten)
  rw [h.capacity_run hstays hn hn', Finset.empty_union] at hcard
  exact Nat.not_lt.2 hcard hfew

/-- A reception or delivery crashes if and only if the node lets the message in and one of the first three sensors,
its own and those of its first two neighbors, crashes. The state is as it was but that the delivery has ended and the
node remembers the message. So until as many other ids are newly recorded there as it has room for, any further try
is answered as a duplicate, whatever has become of the sensors. -/
theorem crashed_vote (h : Reachable d) (hp : d.presents a = some (i, msg)) (ha : a ≠ .gossip i msg) :
    (d.answer a = some .crashed ↔ ∃ n b c, d.node? i = some n ∧ d.Misread n b c msg) ∧
      ∀ n, d.node? i = some n → d.answer a = some .crashed → d.Abandoned a n msg ∧
        ∀ acts a', Stays i (d.step a) acts →
          ((along (recorded i) (d.step a) acts).toFinset.erase (msg.id d.mesh.suite)).card < n.seen.capacity →
          ((d.step a).run acts).presents a' = some (i, msg) → a' ≠ .gossip i msg →
          ((d.step a).run acts).answer a' = some (.refused (.duplicate i (msg.id d.mesh.suite))) := by
  constructor
  · rw [answer_eq_crashed_iff hp ha]
    constructor
    · rintro ⟨n, hn, hfate⟩
      obtain ⟨b, c, hmisread⟩ := (h.fate_eq_crashed_iff hn).1 hfate
      exact ⟨n, b, c, hn, hmisread⟩
    · rintro ⟨n, b, c, hn, hmisread⟩
      exact ⟨n, hn, (h.fate_eq_crashed_iff hn).2 ⟨b, c, hmisread⟩⟩
  · intro n hn ho
    obtain ⟨k, hk, hfate⟩ := (answer_eq_crashed_iff hp ha).1 ho
    cases hn.symm.trans hk
    have habandoned := h.sound.abandoned hp ha hn hfate
    refine ⟨habandoned, fun acts a' hstays hfew hp' ha' => ?_⟩
    -- The id is the newest one now, so only as many newer ones as there is room for can push it out.
    have hunseen := (Mesh.fate_eq_crashed_iff.1 hfate).1
    have hguarded : (n.markSeen (msg.id d.mesh.suite)).1.seen.Guarded (msg.id d.mesh.suite) ∅ :=
      SeenSet.guarded_insert_self hunseen (h.sound.roomy i n hn)
    have htarget := habandoned.target
    rw [Registry.id_of_find? hn] at htarget
    have hcapacity : (n.markSeen (msg.id d.mesh.suite)).1.seen.capacity = n.seen.capacity := SeenSet.capacity_insert _ _
    obtain ⟨n', hn', hseen⟩ := (h.step a).sound.remembered_run htarget hguarded hstays (hcapacity ▸ hfew)
    have hsuite : ((d.step a).run acts).mesh.suite = d.mesh.suite := (h.sound.settings_run (a :: acts)).1
    rw [← hsuite] at hseen ⊢
    rw [answer_of_presents hp' ha' hn', Mesh.fate_of_seen hseen, Fate.outcome, Registry.id_of_find? hn']

/-- Four nodes, the first of them with the second and the third as its neighbors. The sensor of the third crashes. -/
def faulty : Deployment :=
  (ofMesh Sample.mesh).run
    [.create "a" Sample.keys 1 (.fixed 1), .create "b" Sample.keys 1 (.fixed 1),
      .create "c" Sample.keys 1 .crashing, .create "d" Sample.keys 1 (.fixed 1), .link "a" "b", .link "a" "c"]

theorem reachable_faulty : Reachable faulty := (Reachable.start Sample.start_mesh).run _

theorem answer_faulty : faulty.answer (.receive "a" (Sample.message 1)) = some .crashed := by decide +kernel

/-- With a sound neighbor in the place of the faulty one the message is a duplicate all the same. -/
theorem crashed_vote_faulty :
    ((faulty.step (.receive "a" (Sample.message 1))).run [.remove "c", .link "a" "d"]).answer
      (.receive "a" (Sample.message 1)) =
        some (.refused (.duplicate "a" ((Sample.message 1).id faulty.mesh.suite))) := by
  have hroom : (faulty.node? "a").map (·.seen.capacity) = some 1 := by decide +kernel
  obtain ⟨n, hn, hcapacity⟩ := Option.map_eq_some_iff.1 hroom
  have hp : ∀ d : Deployment, d.presents (.receive "a" (Sample.message 1)) = some ("a", Sample.message 1) :=
    fun _ => rfl
  obtain ⟨-, hcrashed⟩ := crashed_vote reachable_faulty (hp faulty) (by simp)
  refine (hcrashed n hn answer_faulty).2 [.remove "c", .link "a" "d"] _ ?_ ?_ (hp _) (by simp)
  · decide +kernel
  · rw [hcapacity]
    decide +kernel

/-- A crash does not leave the message to be tried again. -/
theorem crash_not_forgotten :
    ¬∀ (d : Deployment) (a : Action) (i : NodeId) (msg : Message) (n' : Node), Reachable d →
      d.presents a = some (i, msg) → d.answer a = some .crashed → (d.step a).node? i = some n' →
        n'.hasSeen (msg.id d.mesh.suite) = false := by
  intro h
  have hremembered : ((faulty.step (.receive "a" (Sample.message 1))).node? "a").map
      (·.hasSeen ((Sample.message 1).id faulty.mesh.suite)) = some true := by
    decide +kernel
  obtain ⟨n', hn', hseen⟩ := Option.map_eq_some_iff.1 hremembered
  have hforgotten := h faulty _ "a" (Sample.message 1) n' reachable_faulty rfl answer_faulty hn'
  exact Bool.false_ne_true (hforgotten.symm.trans hseen)

end Deployment

end TriadMesh
