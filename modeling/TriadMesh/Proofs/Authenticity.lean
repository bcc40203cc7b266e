import TriadMesh.Proofs.Soundness

/-!
# Only what passes the gate is kept or handed on

A node logs a message only after the gate has let it through, and queues it for its neighbors only after it
has logged it. So the gate never refuses what the dispatcher delivers.
-/

namespace TriadMesh

namespace Mesh

variable {m : Mesh} {id : NodeId} {n : Node} {msg : Message}

/-- What a node makes of a message that it lets in, up to the relay, with the node itself if it goes on to
relay. -/
def weigh (m : Mesh) (n : Node) (msg : Message) : Mesh × Option Node :=
  match m.registry.neighborsOf n with
  | b :: c :: _ =>
    match m.vote n b c with
    | (m, none) => (m, none)
    | (m, some r) =>
      if r.passed then
        ((m.update n.id fun k => k.append msg).emit n.id .accepted (some r.mean),
          if m.config.relayAccepted then some n else none)
      else (m.reject n msg r, none)
  | few => (m.postpone n msg few.length, none)

/-- A reception up to its relay, with the node that goes on to relay the message. -/
def hear (m : Mesh) (id : NodeId) (msg : Message) : Mesh × Option Node :=
  match m.registry.get id with
  | .error _ => (m, none)
  | .ok n =>
    match m.screen n msg with
    | (m, .error _) => (m, none)
    | (m, .ok ()) => m.weigh n msg

theorem judge_eq_weigh (m : Mesh) (n : Node) (msg : Message) (sender : Option NodeId) :
    (m.judge n msg sender).1 =
      (m.weigh n msg).2.elim (m.weigh n msg).1 fun k => (m.weigh n msg).1.relay k msg sender := by
  unfold judge weigh
  rcases m.registry.neighborsOf n with _ | ⟨b, _ | ⟨c, rest⟩⟩
  · rfl
  · rfl
  · dsimp only
    rcases m.vote n b c with ⟨m₁, _ | r⟩
    · rfl
    · dsimp only
      unfold accept
      by_cases hpassed : r.passed = true
      · rw [if_pos hpassed, if_pos hpassed]
        dsimp only
        by_cases hrelay : m₁.config.relayAccepted = true
        · rw [if_pos hrelay]
          exact if_pos hrelay
        · rw [if_neg hrelay]
          exact if_neg hrelay
      · rw [if_neg hpassed, if_neg hpassed]
        rfl

/-- A relay is the last thing that a reception does. -/
theorem receive_eq_hear (m : Mesh) (id : NodeId) (msg : Message) (sender : Option NodeId) :
    (m.receive id msg sender).1 =
      (m.hear id msg).2.elim (m.hear id msg).1 fun k => (m.hear id msg).1.relay k msg sender := by
  unfold receive hear
  cases m.registry.get id with
  | error e => rfl
  | ok n =>
    dsimp only
    rcases m.screen n msg with ⟨m₁, e | ⟨⟩⟩
    · rfl
    · exact m₁.judge_eq_weigh n msg sender

theorem weigh_propagator (m : Mesh) (n : Node) (msg : Message) :
    (m.weigh n msg).1.propagator = m.propagator := by
  unfold weigh
  rcases m.registry.neighborsOf n with _ | ⟨b, _ | ⟨c, rest⟩⟩
  · rfl
  · rfl
  · have hvote : (m.vote n b c).1.propagator = m.propagator := rfl
    dsimp only
    generalize m.vote n b c = voted at hvote
    rcases voted with ⟨m₁, _ | r⟩
    · exact hvote
    · dsimp only
      split
      · exact hvote
      · exact hvote

/-- Up to its relay a reception queues nothing. -/
theorem hear_propagator (m : Mesh) (id : NodeId) (msg : Message) :
    (m.hear id msg).1.propagator = m.propagator := by
  unfold hear
  cases m.registry.get id with
  | error e => rfl
  | ok n =>
    dsimp only
    cases hbarred : m.barred? n msg with
    | some fate =>
      obtain ⟨e, herror, -, h⟩ := screen_of_barred hbarred
      have hscreen : m.screen n msg = ((m.screen n msg).1, .error e) := Prod.ext rfl herror
      rw [hscreen]
      exact h.propagator.trans (Propagator.extend_nil _)
    | none =>
      obtain ⟨hunseen, hgate⟩ := barred?_eq_none_iff.1 hbarred
      rw [screen_of_passed hunseen hgate]
      exact weigh_propagator _ _ _

theorem weigh_logged {k : Node} (h : (m.weigh n msg).2 = some k) :
    k = n ∧ (m.weigh n msg).1.registry = m.registry.update n.id fun j => j.append msg := by
  unfold weigh at h ⊢
  split at h
  case h_1 b c rest _ =>
    have hvote : (m.vote n b c).1.registry = m.registry := rfl
    generalize m.vote n b c = voted at h hvote ⊢
    rcases voted with ⟨m₁, _ | r⟩
    · cases h
    · dsimp only at h hvote ⊢
      by_cases hpassed : r.passed = true
      · rw [if_pos hpassed] at h ⊢
        by_cases hrelay : m₁.config.relayAccepted = true
        · rw [if_pos hrelay] at h
          cases h
          exact ⟨rfl, hvote ▸ rfl⟩
        · rw [if_neg hrelay] at h
          cases h
      · rw [if_neg hpassed] at h
        cases h
  case h_2 => cases h

/-- A node that goes on to relay a message has logged it after it has passed the gate. -/
theorem hear_logged {k : Node} (h : (m.hear id msg).2 = some k) :
    k.id = id ∧ m.gate.check m.suite msg = .ok () ∧
      ∃ j ∈ (m.hear id msg).1.registry.nodes, j.id = id ∧ msg ∈ j.log := by
  cases hfind : m.registry.find? id with
  | none =>
    rw [hear, Registry.get_of_find?_eq_none hfind] at h
    cases h
  | some n =>
    have hn := Registry.mem_nodes_of_find? hfind
    have hid : n.id = id := Registry.id_of_find? hfind
    rw [hear, Registry.get_eq_ok_iff.2 hfind] at h ⊢
    dsimp only at h ⊢
    cases hbarred : m.barred? n msg with
    | some fate =>
      obtain ⟨e, herror, -, -⟩ := screen_of_barred hbarred
      have hscreen : m.screen n msg = ((m.screen n msg).1, .error e) := Prod.ext rfl herror
      rw [hscreen] at h
      cases h
    | none =>
      obtain ⟨hunseen, hgate⟩ := barred?_eq_none_iff.1 hbarred
      rw [screen_of_passed hunseen hgate] at h ⊢
      obtain ⟨rfl, hregistry⟩ := weigh_logged h
      refine ⟨hid, hgate, (k.markSeen (msg.id m.suite)).1.append msg, ?_, hid, by simp [Node.append]⟩
      have hupdate : (m.marked k msg).registry.update k.id (fun j => j.append msg) =
          m.registry.update k.id fun j => (j.markSeen (msg.id m.suite)).1.append msg :=
        Registry.update_update fun _ => rfl
      have hkeeps : ∀ j : Node, ((j.markSeen (msg.id m.suite)).1.append msg).id = j.id := fun _ => rfl
      rw [hregistry, hupdate, Registry.nodes_update hkeeps]
      have hmem := List.mem_map_of_mem
        (f := Registry.only k.id fun j => (j.markSeen (msg.id m.suite)).1.append msg) hn
      rwa [Registry.only_self rfl] at hmem

theorem mem_relays {n : Node} {msg : Message} {sender : Option NodeId} {f : Forward}
    (h : f ∈ m.relays n msg sender) :
    f.source = n.id ∧ f.message = msg := by
  obtain ⟨target, -, rfl⟩ := List.mem_map.1 h
  exact ⟨rfl, rfl⟩

/-- A forward that a reception queues carries a message that has passed the gate and that its source has
logged by then. -/
theorem queued_receive {sender : Option NodeId} {f : Forward}
    (h : f ∈ (m.receive id msg sender).1.propagator.queued.drop m.propagator.queued.length) :
    m.gate.check m.suite f.message = .ok () ∧
      ∃ k ∈ (m.hear id msg).1.registry.nodes, k.id = f.source ∧ f.message ∈ k.log := by
  rw [receive_eq_hear] at h
  cases hheard : (m.hear id msg).2 with
  | none =>
    rw [hheard, Option.elim_none, hear_propagator, List.drop_length] at h
    cases h
  | some n =>
    obtain ⟨hid, hgate, k, hk, hkid, hlog⟩ := hear_logged hheard
    obtain ⟨taken, rs, hsub, hrelay, -⟩ := relay_spec (m.hear id msg).1 n msg sender
    have hqueued : ((m.hear id msg).1.relay n msg sender).propagator.queued = m.propagator.queued ++ taken := by
      rw [hrelay, hear_propagator]
      rfl
    rw [hheard, Option.elim_some, hqueued, List.drop_left] at h
    obtain ⟨hsource, rfl⟩ := mem_relays (hsub.subset h)
    exact ⟨hgate, k, hk, by rw [hkid, hsource, hid], hlog⟩

theorem barred?_ne_logged {n : Node} {fate : Fate} (h : m.barred? n msg = some fate) :
    fate.imprint ≠ .logged := by
  unfold barred? at h
  split at h
  · cases h
    exact Imprint.noConfusion
  · split at h
    · cases h
      exact Imprint.noConfusion
    · cases h

theorem ballot_ne_refused (m : Mesh) (n : Node) (r : Rejection) : m.ballot n ≠ .refused r := by
  unfold ballot
  split
  · split
    · exact Fate.noConfusion
    · split <;> exact Fate.noConfusion
  · exact Fate.noConfusion

/-- The gate refuses only what does not pass it. -/
theorem fate_ne_refused (hgate : m.gate.check m.suite msg = .ok ()) (n : Node) (r : Rejection) :
    m.fate n msg ≠ .refused r := by
  rw [fate, barred?, hgate]
  by_cases hseen : n.hasSeen (msg.id m.suite) = true
  · rw [if_pos hseen]
    exact Fate.noConfusion
  · rw [if_neg hseen]
    exact m.ballot_ne_refused n r

end Mesh

/-- Only a refusal is reported as one. -/
theorem Fate.event_kind_ne {n : Node} {msg : Message} {fate : Fate} (h : ∀ r, fate ≠ .refused r) {e : Event}
    (he : fate.event n msg = some e) : e.kind ≠ .authenticationRejected := by
  cases fate with
  | refused r => exact absurd rfl (h r)
  | crashed => cases he
  | _ =>
    cases he
    exact EventKind.noConfusion

theorem Fate.outcome_ne {n : Node} {d : Digest} {fate : Fate} (h : ∀ r, fate ≠ .refused r) (r : Rejection) :
    fate.outcome n d ≠ .refused (.authentication r) := by
  cases fate with
  | refused r => exact absurd rfl (h r)
  | _ => simp [outcome]

namespace Deployment

variable {d d' : Deployment} {a : Action} {f : Forward} {m : Mesh}

def enqueued (d : Deployment) (a : Action) : List Forward :=
  (d.step a).mesh.propagator.queued.drop d.mesh.propagator.queued.length

/-- The mesh at the moment at which an action begins to queue forwards. A reception is through up to its
relay by then; a gossip has logged its message in an earlier step. -/
def queueing (d : Deployment) : Action → Mesh
  | .receive i msg => (d.mesh.hear i msg).1
  | .deliver i => (d.mesh.propagator.running[i]?).elim d.mesh fun f => (d.mesh.hear f.target f.message).1
  | _ => d.mesh

/-- The node that a forward comes from, registered or taken out, has its message in the log. -/
def Vouched (nodes : List Node) (f : Forward) : Prop := ∃ n ∈ nodes, n.id = f.source ∧ f.message ∈ n.log

/-- Only a reception, a delivery or a gossip that goes on makes the queue longer. -/
theorem Effect.queued_le (h : Effect d a d') (hreceive : ∀ i msg, a ≠ .receive i msg)
    (hdeliver : ∀ i, a ≠ .deliver i) (hadvance : ∀ k, a ≠ .advance k) :
    d'.mesh.propagator.queued.length ≤ d.mesh.propagator.queued.length := by
  cases h with
  | structural ha h rs t => exact Nat.le_refl _
  | idle h => exact Nat.le_refl _
  | lost hf hn rs => exact absurd rfl (hdeliver _)
  | delivered hf hn h rs => exact absurd rfl (hdeliver _)
  | received hn h => exact absurd rfl (hreceive _ _)
  | begun hn h => exact Nat.le_of_eq (by rw [h.propagator, Propagator.extend_nil])
  | advanced hk hrem => exact absurd rfl (hadvance _)
  | finished hk hrem rs => exact Nat.le_refl _
  | took =>
    unfold Propagator.take
    split
    case h_1 x rest hheld hqueued =>
      rw [hqueued]
      split
      · simp [Propagator.finish]
      · simp
    case h_2 => exact Nat.le_refl _
  | launched =>
    unfold Propagator.launch
    split
    · split
      · exact Nat.le_refl _
      · exact Nat.le_refl _
    · exact Nat.le_refl _

/-- A forward is pending because it was so before or because it has just been queued. -/
theorem Sound.pending_step (h : Sound d) (a : Action) (hf : f ∈ (d.step a).mesh.propagator.pending) :
    f ∈ d.mesh.propagator.pending ∨ f ∈ d.enqueued a := by
  have hextended : ∀ taken, f ∈ (d.mesh.propagator.extend taken).pending →
      f ∈ d.mesh.propagator.pending ∨
        f ∈ (d.mesh.propagator.queued ++ taken).drop d.mesh.propagator.queued.length := by
    intro taken hf
    rw [Propagator.pending_extend, List.mem_append] at hf
    rwa [List.drop_left]
  have heffect := h.effect a
  rw [enqueued]
  generalize d.step a = d' at heffect hf ⊢
  cases heffect with
  | structural ha h rs t => exact .inl hf
  | idle h => exact .inl hf
  | lost hf' hn rs => exact .inl (Propagator.mem_pending_of_mem_complete hf)
  | @delivered i g n taken m hg hn hreached rs =>
    have hpending := Propagator.mem_pending_of_mem_complete hf
    have hcomplete : (m.propagator.complete i).queued = m.propagator.queued := rfl
    rw [hreached.propagator] at hpending
    dsimp only
    rw [hcomplete, hreached.propagator]
    exact hextended taken hpending
  | received hn hreached =>
    rw [hreached.propagator] at hf ⊢
    exact hextended _ hf
  | begun hn hreached =>
    rw [hreached.propagator] at hf ⊢
    exact hextended _ hf
  | advanced hk hrem => exact hextended _ hf
  | finished hk hrem rs => exact .inl hf
  | took =>
    rw [Propagator.pending_take h.live.served] at hf
    exact .inl hf
  | launched =>
    rw [Propagator.pending_launch] at hf
    exact .inl hf

theorem gate_of_logged {n : Node} {msg : Message} (h : d.imprint a n msg = .logged) :
    d.mesh.gate.check d.mesh.suite msg = .ok () := by
  cases hbarred : d.mesh.barred? n msg with
  | none => exact (Mesh.barred?_eq_none_iff.1 hbarred).2
  | some fate => exact absurd ((imprint_of_barred hbarred).symm.trans h) (Mesh.barred?_ne_logged hbarred)

/-- A deployment of the mesh `m` in which no node has logged, and no gossip or forward carries, what the gate
does not let through. -/
structure Authentic (m : Mesh) (d : Deployment) : Prop where
  suite : d.mesh.suite = m.suite
  config : d.mesh.config = m.config
  logs : ∀ n ∈ d.objects, ∀ msg ∈ n.log, m.gate.check m.suite msg = .ok ()
  fanouts : ∀ g ∈ d.fanouts, ∃ n ∈ d.objects, n.id = g.source ∧ g.message ∈ n.log
  pending : ∀ f ∈ d.mesh.propagator.pending, m.gate.check m.suite f.message = .ok ()

theorem Authentic.check (h : Authentic m d) (msg : Message) :
    d.mesh.gate.check d.mesh.suite msg = m.gate.check m.suite msg := by
  rw [Mesh.gate, Mesh.gate, h.suite, h.config]

/-- What an action queues has passed the gate, and was in the log of the node that it comes from when the
action began to queue it. -/
theorem Authentic.enqueued (h : Authentic m d) (hsound : Sound d) (hf : f ∈ d.enqueued a) :
    m.gate.check m.suite f.message = .ok () ∧ Vouched ((d.queueing a).registry.nodes ++ d.removed) f := by
  have hreceived : ∀ {i msg sender}, f ∈ (d.mesh.receive i msg sender).1.propagator.queued.drop
        d.mesh.propagator.queued.length →
      m.gate.check m.suite f.message = .ok () ∧
        Vouched ((d.mesh.hear i msg).1.registry.nodes ++ d.removed) f := by
    intro i msg sender hf
    obtain ⟨hgate, n, hn, hid, hlog⟩ := Mesh.queued_receive hf
    rw [h.check] at hgate
    exact ⟨hgate, n, List.mem_append_left _ hn, hid, hlog⟩
  have hquiet : (d.step a).mesh.propagator.queued.length ≤ d.mesh.propagator.queued.length →
      m.gate.check m.suite f.message = .ok () ∧ Vouched ((d.queueing a).registry.nodes ++ d.removed) f := by
    intro hle
    rw [Deployment.enqueued, List.drop_of_length_le hle] at hf
    cases hf
  cases a with
  | receive i msg => exact hreceived hf
  | deliver i =>
    cases hrunning : d.mesh.propagator.running[i]? with
    | none => exact hquiet (Nat.le_of_eq (by rw [step_deliver_of_none hrunning]))
    | some g =>
      obtain ⟨rs, hdeliver⟩ := deliver_of_running hrunning
      rw [queueing, hrunning]
      rw [Deployment.enqueued, step, hdeliver] at hf
      exact hreceived hf
  | advance k =>
    rcases step_advance (k := k) hsound.live.dispatching with hstep | ⟨g, target, rest, hk, hrem, hstep⟩
    · exact hquiet (Nat.le_of_eq (by rw [hstep]))
    · have hqueued : d.enqueued (.advance k) = [⟨g.source, target, g.message⟩] := by
        rw [Deployment.enqueued, hstep]
        exact List.drop_left
      rw [hqueued, List.mem_singleton] at hf
      subst hf
      obtain ⟨n, hn, hid, hlog⟩ := h.fanouts g (List.mem_of_getElem? hk)
      exact ⟨h.logs n hn _ hlog, n, hn, hid, hlog⟩
  | _ => exact hquiet ((hsound.effect _).queued_le (by simp) (by simp) (by simp))

theorem Effect.mem_fanouts (h : Effect d a d') {g : Fanout} (hg : g ∈ d'.fanouts) :
    (∃ g' ∈ d.fanouts, g.source = g'.source ∧ g.message = g'.message) ∨
      a = .gossip g.source g.message ∧ ∃ n, d.node? g.source = some n ∧ d.imprint a n g.message = .logged := by
  have hold : ∀ {g}, g ∈ d.fanouts → ∃ g' ∈ d.fanouts, g.source = g'.source ∧ g.message = g'.message :=
    fun hg => ⟨_, hg, rfl, rfl⟩
  cases h with
  | structural ha h rs t => exact .inl (hold hg)
  | idle h => exact .inl (hold hg)
  | lost hf hn rs => exact .inl (hold hg)
  | delivered hf hn h rs => exact .inl (hold hg)
  | received hn h => exact .inl (hold hg)
  | @begun i msg n m hn h =>
    rcases List.mem_append.1 hg with hg | hg
    · exact .inl (hold hg)
    · split at hg
      case isTrue hbarred =>
        rw [List.mem_singleton] at hg
        subst hg
        refine .inr ⟨rfl, n, hn, ?_⟩
        rw [imprint, Mesh.gossipImprint, hbarred, Option.map_none, Option.getD_none]
      case isFalse => cases hg
  | @advanced k g' target rest hk hrem =>
    rcases List.mem_or_eq_of_mem_set hg with hg | rfl
    · exact .inl (hold hg)
    · exact .inl ⟨g', List.mem_of_getElem? hk, rfl, rfl⟩
  | finished hk hrem rs => exact .inl (hold (List.mem_of_mem_eraseIdx hg))
  | took => exact .inl (hold hg)
  | launched => exact .inl (hold hg)

theorem Authentic.step (h : Authentic m d) (hsound : Sound d) (a : Action) : Authentic m (d.step a) := by
  have hsettings := (hsound.effect a).settings
  have hlogs : ∀ n ∈ (d.step a).objects, ∀ msg ∈ n.log, m.gate.check m.suite msg = .ok () := by
    intro n' hn' msg hmsg
    rcases hsound.objects_step a hn' with hlog | ⟨n, hn, hlog⟩ | ⟨n, msg', -, hn, hlogged, hlog⟩
    · rw [hlog] at hmsg
      cases hmsg
    · rw [hlog] at hmsg
      exact h.logs n hn msg hmsg
    · rw [hlog] at hmsg
      rcases List.mem_append.1 hmsg with hmsg | hmsg
      · exact h.logs n (List.mem_append_left _ (node?_eq_some_iff.1 hn).1) msg hmsg
      · rw [List.mem_singleton.1 hmsg, ← h.check]
        exact gate_of_logged hlogged
  have hfanouts : ∀ g ∈ (d.step a).fanouts, ∃ n ∈ (d.step a).objects, n.id = g.source ∧ g.message ∈ n.log := by
    intro g hg
    rcases (hsound.effect a).mem_fanouts hg with ⟨g', hg', hsource, hmessage⟩ | ⟨ha, n, hn, hlogged⟩
    · obtain ⟨n, hn, hid, hlog⟩ := h.fanouts g' hg'
      obtain ⟨n', hn', hid', hprefix⟩ := hsound.objects_grow a hn
      refine ⟨n', hn', ?_, ?_⟩
      · rw [hid', hid, hsource]
      · rw [hmessage]
        exact hprefix.subset hlog
    · have hp : d.presents a = some (g.source, g.message) := by rw [ha, presents]
      have hreached := hsound.node_reached hp hn
      rw [hlogged] at hreached
      have hmem := node?_eq_some_iff.1 hreached
      refine ⟨_, List.mem_append_left _ hmem.1, hmem.2, ?_⟩
      rw [Node.imprint_log, if_pos rfl]
      exact List.mem_append_right _ (List.mem_singleton_self _)
  have hpending : ∀ f ∈ (d.step a).mesh.propagator.pending, m.gate.check m.suite f.message = .ok () := by
    intro f hf
    rcases hsound.pending_step a hf with hf | hf
    · exact h.pending f hf
    · exact (h.enqueued hsound hf).1
  exact ⟨hsettings.1.trans h.suite, hsettings.2.trans h.config, hlogs, hfanouts, hpending⟩

theorem Authentic.run (h : Authentic m d) (hsound : Sound d) (acts : List Action) :
    Authentic m (d.run acts) := by
  induction acts generalizing d with
  | nil => exact h
  | cons a acts ih => exact ih (h.step hsound a) (hsound.step a)

def refusals (d : Deployment) : List Event := d.mesh.events.filter fun e => e.kind = .authenticationRejected

/-- Only a gossip or a reception from outside makes the gate refuse a message. -/
theorem Authentic.refusals_step (h : Authentic m d) (hsound : Sound d) (hgossip : ∀ i msg, a ≠ .gossip i msg)
    (hreceive : ∀ i msg, a ≠ .receive i msg) : (d.step a).refusals = d.refusals := by
  have hpropagated : ∀ (k : Nat) (e : Event), e.kind = .propagated →
      (if k = 0 then [] else [e]).filter (fun e => e.kind = .authenticationRejected) = [] := by
    intro k e he
    split
    · rfl
    · simp [he]
  have heffect := hsound.effect a
  generalize d.step a = d' at heffect
  cases heffect with
  | @delivered i f n taken m' hf hn hreached rs =>
    have hgate : d.mesh.gate.check d.mesh.suite f.message = .ok () := by
      rw [h.check]
      exact h.pending f (Propagator.mem_pending_of_running hf)
    have hquiet : (((d.mesh.fate n f.message).event n f.message).toList.filter fun e =>
        e.kind = .authenticationRejected) = [] := by
      rw [List.filter_eq_nil_iff]
      intro e he
      rw [decide_eq_true_eq]
      exact Fate.event_kind_ne (Mesh.fate_ne_refused hgate n) (Option.mem_toList.1 he)
    rw [refusals, hreached.events, List.filter_append, List.filter_append, hquiet, hpropagated _ _ rfl]
    simp [refusals]
  | received hn hreached => exact absurd rfl (hreceive _ _)
  | begun hn hreached => exact absurd rfl (hgossip _ _)
  | finished hk hrem rs =>
    rw [refusals, List.filter_append, hpropagated _ _ rfl, List.append_nil]
    rfl
  | _ => rfl

/-- Whatever is pending has been queued by some action of the run. -/
theorem Sound.pending_run (h : Sound d) (acts : List Action) (hf : f ∈ (d.run acts).mesh.propagator.pending) :
    f ∈ d.mesh.propagator.pending ∨
      ∃ pre a post, acts = pre ++ a :: post ∧ f ∈ (d.run pre).enqueued a := by
  induction acts generalizing d with
  | nil => exact .inl hf
  | cons a acts ih =>
    rcases ih (h.step a) hf with hf | ⟨pre, b, post, rfl, hqueued⟩
    · rcases h.pending_step a hf with hf | hf
      · exact .inl hf
      · exact .inr ⟨[], a, acts, rfl, hf⟩
    · exact .inr ⟨a :: pre, b, post, rfl, hqueued⟩

/-- The gate never refuses what the dispatcher delivers. -/
theorem Authentic.deliver (h : Authentic m d) {i : Nat} (hf : d.mesh.propagator.running[i]? = some f)
    (sender : Option NodeId) (r : Rejection) :
    (d.mesh.receive f.target f.message sender).2 ≠ .refused (.authentication r) := by
  cases hn : d.node? f.target with
  | none =>
    rw [Mesh.receive_of_unknown hn]
    simp
  | some n =>
    have hgate : d.mesh.gate.check d.mesh.suite f.message = .ok () := by
      rw [h.check]
      exact h.pending f (Propagator.mem_pending_of_running hf)
    rw [(Mesh.receive_spec f.message sender hn).1]
    exact Fate.outcome_ne (Mesh.fate_ne_refused hgate n) r

theorem authentic_start {s : Suite} {config : Config} {sink : Sink} {noise : Nat → Binary64} {runtime : Bool}
    (h : Mesh.start s config sink noise runtime = .ok m) : Authentic m (ofMesh m) := by
  rw [start_eq_ok h]
  refine ⟨rfl, rfl, ?_, ?_, ?_⟩
  · intro n hn
    cases hn
  · intro g hg
    cases hg
  · intro f hf
    cases hf

/-- At every state of every run, what is in a log has passed the gate, and what is pending has passed it and
was logged by the node that it comes from before it was queued. So the gate refuses no delivery, and only a
gossip or a reception from outside is reported as refused. -/
theorem authentic_run {s : Suite} {config : Config} {sink : Sink} {noise : Nat → Binary64} {runtime : Bool}
    (hm : Mesh.start s config sink noise runtime = .ok m) (acts : List Action) :
    let d := (ofMesh m).run acts
    (∀ n ∈ d.objects, ∀ msg ∈ n.log, m.gate.check m.suite msg = .ok ()) ∧
    (∀ f ∈ d.mesh.propagator.pending, m.gate.check m.suite f.message = .ok () ∧
      ∃ pre a post, acts = pre ++ a :: post ∧ f ∈ ((ofMesh m).run pre).enqueued a ∧
        Vouched ((((ofMesh m).run pre).queueing a).registry.nodes ++ ((ofMesh m).run pre).removed) f) ∧
    (∀ (i : Nat) (f : Forward), d.mesh.propagator.running[i]? = some f →
      ∀ r, (d.mesh.receive f.target f.message (some f.source)).2 ≠ .refused (.authentication r)) ∧
    (∀ a, (∀ i msg, a ≠ .gossip i msg) → (∀ i msg, a ≠ .receive i msg) → (d.step a).refusals = d.refusals) := by
  intro d
  have hsound : Sound (ofMesh m) := sound_start hm
  have hstart : Authentic m (ofMesh m) := authentic_start hm
  have hrun : ∀ acts, Sound ((ofMesh m).run acts) := fun acts => ((Reachable.start hm).run acts).sound
  have hauthentic : ∀ acts, Authentic m ((ofMesh m).run acts) := hstart.run hsound
  refine ⟨(hauthentic acts).logs, ?_, ?_, ?_⟩
  · intro f hf
    refine ⟨(hauthentic acts).pending f hf, ?_⟩
    rcases hsound.pending_run acts hf with hf | ⟨pre, a, post, hacts, hf⟩
    · rw [start_eq_ok hm] at hf
      cases hf
    · exact ⟨pre, a, post, hacts, hf, ((hauthentic pre).enqueued (hrun pre) hf).2⟩
  · intro i f hf r
    exact (hauthentic acts).deliver hf (some f.source) r
  · intro a hgossip hreceive
    exact (hauthentic acts).refusals_step (hrun acts) hgossip hreceive

/-- A relay is pending after a gossip has come to its first neighbor. -/
theorem authentic_run_triangle :
    let acts := Sample.triangle ++ [.gossip "a" (Sample.message 1), .advance 0, .take, .launch, .deliver 0]
    let d := (ofMesh Sample.mesh).run acts
    d.mesh.propagator.pending = [⟨"b", "c", Sample.message 1⟩] ∧
      (∀ n ∈ d.objects, ∀ msg ∈ n.log, Sample.mesh.gate.check Sample.suite msg = .ok ()) ∧
      ∃ pre a post, acts = pre ++ a :: post ∧
        ⟨"b", "c", Sample.message 1⟩ ∈ ((ofMesh Sample.mesh).run pre).enqueued a := by
  intro acts d
  have hpending : d.mesh.propagator.pending = [⟨"b", "c", Sample.message 1⟩] := by decide +kernel
  obtain ⟨hlogs, hforwards, -, -⟩ := authentic_run Sample.start_mesh acts
  obtain ⟨-, pre, a, post, hacts, hqueued, -⟩ := hforwards _ (hpending ▸ List.mem_singleton_self _)
  exact ⟨hpending, hlogs, pre, a, post, hacts, hqueued⟩

end Deployment

end TriadMesh
