import TriadMesh.Proofs.Coverage
import TriadMesh.Proofs.History
import TriadMesh.Proofs.Retry

/-!
# Votes of three different nodes

A validator takes whatever three nodes it is given. That a reception never gives it one node twice rests on the
registry: in every deployment a list of neighbors has no entry twice, not the node itself, and none that is not
registered (`Reachable.reflects`). So a round has three registered members, and a message is turned away for want of
neighbors exactly where the list has fewer than two entries.
-/

namespace TriadMesh

/-! ## Topology along a run -/

namespace Registry

variable {r : Registry} {h : List Entry} {n : Node}

/-- Changes that keep ids and neighbors do not show in the topology. -/
theorem Reflects.map (hr : Reflects r h) {g : Node → Node} (hid : ∀ n, (g n).id = n.id)
    (hneighbors : ∀ n ∈ r.nodes, (g n).neighbors = n.neighbors) : Reflects (r.map g) h := by
  refine ⟨nodup_ids _, hr.lives, hr.ordered, fun k hk => ?_⟩
  rw [nodes_map hid] at hk
  obtain ⟨n, hn, rfl⟩ := List.mem_map.1 hk
  have hl := hr.lined n hn
  refine ⟨?_, ?_, fun b => ?_, ?_⟩
  · rw [hneighbors n hn]
    exact hl.nodup
  · rw [hneighbors n hn, hid]
    exact hl.other
  · rw [hneighbors n hn, hid]
    exact hl.joined b
  · rw [hneighbors n hn, hid]
    exact hl.ordered

theorem Reflects.update (hr : Reflects r h) {f : Node → Node} (i : NodeId) (hid : ∀ n, (f n).id = n.id)
    (hneighbors : ∀ n, (f n).neighbors = n.neighbors) : Reflects (r.update i f) h := by
  rw [update_eq_map hid]
  exact hr.map (only_congr Node.id hid) fun n _ => only_congr Node.neighbors hneighbors n

end Registry

namespace Deployment

variable {d : Deployment} {a : Action} {i : NodeId} {msg : Message}

theorem reflects_create {m m' : Mesh} {id : NodeId} {keys : KeyPair} {coherence : Binary64} {sensor : Sensor} {n : Node}
    {h : List Registry.Entry} (hr : m.registry.Reflects h) (hcreate : m.create id keys coherence sensor = .ok (m', n)) :
    ∃ h', m'.registry.Reflects h' := by
  obtain ⟨hnew, rs, rfl⟩ := Mesh.create_eq_ok hcreate
  exact ⟨_, hr.push hnew rfl⟩

/-- An action that builds changes the topology as a call to the registry does, or not at all. -/
theorem reflects_structural (ha : a.isStructural = true) {h : List Registry.Entry}
    (hr : d.mesh.registry.Reflects h) : ∃ h', (d.step a).mesh.registry.Reflects h' := by
  have hcalled : ∀ c, (d.step a).mesh.registry = (d.mesh.registry.perform c).1 →
      ∃ h', (d.step a).mesh.registry.Reflects h' := fun c hstep => ⟨_, hstep ▸ hr.perform c⟩
  cases a with
  | create id keys coherence sensor =>
    rw [step]
    cases hcreate : d.mesh.create id keys coherence sensor with
    | ok p =>
      obtain ⟨m', n⟩ := p
      exact reflects_create hr hcreate
    | _ => exact ⟨h, hr⟩
  | provision seed id coherence =>
    rw [step]
    obtain ⟨rs, hsame | ⟨keys, n, hcreate⟩⟩ := d.mesh.provision_cases seed id coherence
    · rw [hsame]
      exact ⟨h, hr⟩
    · exact reflects_create (m := { d.mesh with records := rs }) hr hcreate
  | remove id =>
    refine hcalled (.remove id) ?_
    rw [step, Mesh.remove, Registry.perform]
    cases d.mesh.registry.remove id <;> rfl
  | connect source target =>
    refine hcalled (.connect source target) ?_
    rw [step, Mesh.connect, Registry.perform, Registry.join]
    cases d.mesh.registry.connect source target <;> rfl
  | link x y =>
    refine hcalled (.link x y) ?_
    rw [step, Mesh.link]
    cases hlink : d.mesh.registry.link x y with
    | error e =>
      have herror : d.mesh.registry.answer (.link x y) = .error e := by rw [Registry.answer, hlink]; rfl
      rw [Registry.perform_of_error herror]
      rfl
    | ok r =>
      rw [Registry.perform, hlink]
      rfl
  | setCoherence id coherence =>
    rw [step]
    cases hset : d.mesh.setCoherence id coherence with
    | error e => exact ⟨h, hr⟩
    | ok m =>
      rw [adopt, Mesh.setCoherence_eq_ok hset]
      exact ⟨h, hr.update id (fun _ => rfl) fun _ => rfl⟩
  | measure id metric =>
    refine ⟨h, ?_⟩
    rw [step, Mesh.measure]
    cases d.mesh.registry.get id <;> exact hr
  | _ => cases ha

theorem Sound.reflects_step (hsound : Sound d) (a : Action) {h : List Registry.Entry}
    (hr : d.mesh.registry.Reflects h) : ∃ h', (d.step a).mesh.registry.Reflects h' := by
  have hupdate : ∀ (i : NodeId) (x : Digest) (msg : Message) (imprint : Imprint),
      (d.mesh.registry.update i (Node.imprint x msg imprint)).Reflects h := fun i x msg imprint =>
    hr.update i (fun n => n.imprint_id x msg imprint) fun n => n.imprint_neighbors x msg imprint
  have heffect := hsound.effect a
  generalize hd : d.step a = d' at heffect
  cases heffect with
  | structural ha => exact hd ▸ reflects_structural ha hr
  | delivered hf hn hreached rs => exact ⟨h, hreached.registry ▸ hupdate _ _ _ _⟩
  | received hn hreached => exact ⟨h, hreached.registry ▸ hupdate _ _ _ _⟩
  | begun hn hreached => exact ⟨h, hreached.registry ▸ hupdate _ _ _ _⟩
  | _ => exact ⟨h, hr⟩

/-- Every deployment has the topology that some history of calls tells of. -/
theorem Reachable.reflects (hd : Reachable d) : ∃ h, d.mesh.registry.Reflects h := by
  induction hd with
  | start hm =>
    rw [start_eq_ok hm]
    exact ⟨[], .empty⟩
  | step hd a ih =>
    obtain ⟨h, hr⟩ := ih
    exact hd.sound.reflects_step a hr

end Deployment

/-! ## Rounds -/

/-- What a validator makes of the readings of its members. -/
def Validator.outcome (v : Validator) (metric : String) (tick : Nat) : Outcome Binary64 :=
  match v.assess metric tick with
  | none => .crashed
  | some r => if r.passed then .ok r.mean else .refused (.consensus r.variance r.threshold)

namespace Mesh

variable {m m' : Mesh} {n : Node} {i : NodeId} {msg : Message} {sender : Option NodeId}

/-- The validator that a node calls with its first two neighbors. -/
def triad? (m : Mesh) (n : Node) : Option Validator :=
  match m.registry.neighborsOf n with
  | b :: c :: _ => some ⟨n, b, c, m.config.varianceThreshold⟩
  | _ => none

/-- The validator of the round that a reception comes to, if it comes to one. -/
def roundOf? (m : Mesh) (i : NodeId) (msg : Message) : Option Validator :=
  (m.registry.find? i).bind fun n => if m.barred? n msg = none then m.triad? n else none

/-! ### Log records -/

/-- A mesh that has got log records, none of which warns of a validator without three members. -/
def Logs (m m' : Mesh) : Prop := ∃ rs, m'.records = m.records ++ rs ∧ ∀ r ∈ rs, r.text ≠ Validator.aliasWarning

theorem Logs.of_eq (h : m'.records = m.records) : m.Logs m' := ⟨[], by rw [h, List.append_nil], by simp⟩

theorem Logs.trans {m'' : Mesh} (h : m.Logs m') (h' : m'.Logs m'') : m.Logs m'' := by
  obtain ⟨rs, heq, hrs⟩ := h
  obtain ⟨rs', heq', hrs'⟩ := h'
  refine ⟨rs ++ rs', by rw [heq', heq, List.append_assoc], fun r hr => ?_⟩
  rcases List.mem_append.1 hr with hr | hr
  · exact hrs r hr
  · exact hrs' r hr

theorem Logs.report (h : m.Logs m') {r : Record} (hr : r.text ≠ Validator.aliasWarning) : m.Logs (m'.report r) :=
  h.trans ⟨[r], rfl, by simpa using hr⟩

theorem text_record_ne (e : Event) : e.record.text ≠ Validator.aliasWarning := by
  unfold Event.record
  split <;> simp [Validator.aliasWarning]

theorem Logs.emit (h : m.Logs m') (id : NodeId) (kind : EventKind) (value : Option Binary64) :
    m.Logs (m'.emit id kind value) := by
  refine h.trans ⟨m'.sink.records ⟨id, kind, value⟩, rfl, fun r hr => ?_⟩
  cases hsink : m'.sink with
  | log =>
    rw [hsink, Sink.records, List.mem_singleton] at hr
    exact hr ▸ text_record_ne _
  | listener =>
    rw [hsink] at hr
    cases hr

theorem logs_screen (m : Mesh) (n : Node) (msg : Message) : m.Logs (m.screen n msg).1 := by
  have hmarked : m.Logs (m.marked n msg) := .of_eq rfl
  have hrefl : m.Logs m := .of_eq rfl
  unfold screen
  dsimp only
  split
  · exact (hrefl.report (by simp [Validator.aliasWarning])).emit _ _ _
  · split
    · exact hmarked
    · exact (hmarked.report (by simp [Validator.aliasWarning])).emit _ _ _

theorem logs_offer (m : Mesh) (f : Forward) : m.Logs (m.offer f).1 := by
  unfold offer
  split
  · exact .of_eq rfl
  · exact .report (.of_eq rfl) (by simp [Validator.aliasWarning])

theorem logs_offerAll (m : Mesh) (fs : List Forward) : m.Logs (m.offerAll fs).1 := by
  induction fs generalizing m with
  | nil => exact .of_eq rfl
  | cons f rest ih => exact (m.logs_offer f).trans (ih _)

theorem logs_relay (m : Mesh) (n : Node) (msg : Message) (sender : Option NodeId) :
    m.Logs (m.relay n msg sender) := by
  have hoffered : m.Logs (m.offerAll (m.relays n msg sender)).1 := m.logs_offerAll _
  change m.Logs ((m.offerAll (m.relays n msg sender)).1.announce n.id msg (m.offerAll (m.relays n msg sender)).2)
  unfold announce
  split
  · exact hoffered
  · exact Logs.emit (hoffered.trans (.of_eq rfl)) _ _ _

theorem logs_accept (m : Mesh) (n : Node) (msg : Message) (sender : Option NodeId) (r : Report Binary64) :
    m.Logs (m.accept n msg sender r) := by
  have hlogged : m.Logs ((m.update n.id fun k => k.append msg).emit n.id .accepted (some r.mean)) :=
    Logs.emit (.of_eq rfl) _ _ _
  unfold accept
  dsimp only
  split
  · exact hlogged.trans (logs_relay _ n msg sender)
  · exact hlogged

/-- A vote of three different nodes is not warned of. -/
theorem logs_judge (h : ∀ v, m.triad? n = some v → v.isDistinct = true) (msg : Message) (sender : Option NodeId) :
    m.Logs (m.judge n msg sender).1 := by
  unfold judge
  unfold triad? at h
  split
  case h_1 b c rest hneighbors =>
    rw [hneighbors] at h
    have hrecords : (⟨n, b, c, m.config.varianceThreshold⟩ : Validator).records = [] := if_pos (h _ rfl)
    have hvoted : m.Logs (m.vote n b c).1 := .of_eq (by rw [vote, hrecords, List.append_nil])
    generalize m.vote n b c = voted at hvoted
    obtain ⟨m', _ | r⟩ := voted
    · exact hvoted
    · dsimp only
      split
      · exact hvoted.trans (logs_accept _ _ _ _ _)
      · exact Logs.emit (Logs.report (hvoted.trans (.of_eq rfl)) (by simp [Validator.aliasWarning])) _ _ _
  case h_2 few _ => exact Logs.emit (Logs.report (.of_eq rfl) (by simp [Validator.aliasWarning])) _ _ _

/-- Remembering a message does not change which nodes vote. -/
theorem triad?_marked (m : Mesh) (n : Node) (msg : Message) :
    let mark := Registry.only n.id fun k => (k.markSeen (msg.id m.suite)).1
    (m.marked n msg).triad? n = (m.triad? n).map fun v => { v with beta := mark v.beta, gamma := mark v.gamma } := by
  intro mark
  have hids : ∀ k, (mark k).id = k.id := Registry.only_congr Node.id fun _ => rfl
  have hneighbors : (m.marked n msg).registry.neighborsOf n = (m.registry.neighborsOf n).map mark :=
    Registry.neighborsOf_update (f := fun k => (k.markSeen (msg.id m.suite)).1) (fun _ => rfl) n
  unfold triad?
  rw [hneighbors]
  rcases m.registry.neighborsOf n with _ | ⟨b, _ | ⟨c, rest⟩⟩ <;> rfl

theorem isDistinct_marked (h : ∀ v, m.triad? n = some v → v.isDistinct = true) {v : Validator}
    (hv : (m.marked n msg).triad? n = some v) : v.isDistinct = true := by
  have hids : ∀ k, (Registry.only n.id (fun k => (k.markSeen (msg.id m.suite)).1) k).id = k.id :=
    Registry.only_congr Node.id fun _ => rfl
  rw [triad?_marked, Option.map_eq_some_iff] at hv
  obtain ⟨v, hv, rfl⟩ := hv
  rw [Validator.isDistinct, hids, hids]
  exact h v hv

/-- Where the triads of nodes are three different nodes, no reception warns of one that is not. -/
theorem logs_receive (h : ∀ n, m.registry.find? i = some n → ∀ v, m.triad? n = some v → v.isDistinct = true)
    (msg : Message) (sender : Option NodeId) : m.Logs (m.receive i msg sender).1 := by
  cases hn : m.registry.find? i with
  | none =>
    rw [receive_of_unknown hn]
    exact .of_eq rfl
  | some n =>
    rw [receive, Registry.get_eq_ok_iff.2 hn]
    dsimp only
    cases hbarred : m.barred? n msg with
    | some fate =>
      obtain ⟨e, herror, -, -⟩ := screen_of_barred hbarred
      have hscreen : m.screen n msg = ((m.screen n msg).1, .error e) := Prod.ext rfl herror
      rw [hscreen]
      exact m.logs_screen n msg
    | none =>
      obtain ⟨hunseen, hgate⟩ := barred?_eq_none_iff.1 hbarred
      rw [screen_of_passed hunseen hgate]
      have hmarked : m.Logs (m.marked n msg) := .of_eq rfl
      exact hmarked.trans (logs_judge (fun v => isDistinct_marked (h n hn)) msg sender)

/-! ### Measurements -/

theorem tick_relay (m : Mesh) (n : Node) (msg : Message) (sender : Option NodeId) :
    (m.relay n msg sender).tick = m.tick := by
  obtain ⟨taken, rs, -, heq, -⟩ := m.relay_spec n msg sender
  rw [heq]

theorem tick_accept (m : Mesh) (n : Node) (msg : Message) (sender : Option NodeId) (r : Report Binary64) :
    (m.accept n msg sender r).tick = m.tick := by
  unfold accept
  dsimp only
  split
  · exact tick_relay _ n msg sender
  · rfl

theorem tick_judge (m : Mesh) (n : Node) (msg : Message) (sender : Option NodeId) :
    (m.judge n msg sender).1.tick = m.tick + if (m.triad? n).isSome then 3 else 0 := by
  unfold judge triad?
  rcases m.registry.neighborsOf n with _ | ⟨b, _ | ⟨c, rest⟩⟩
  case nil => rfl
  case cons.nil => rfl
  case cons.cons =>
    have hvoted : (m.vote n b c).1.tick = m.tick + 3 := rfl
    dsimp only
    generalize m.vote n b c = voted at hvoted
    obtain ⟨m', _ | r⟩ := voted
    · exact hvoted
    · dsimp only
      split
      · exact (tick_accept _ _ _ _ _).trans hvoted
      · exact hvoted

/-- A reception measures three times if it comes to a round, and otherwise not at all. -/
theorem tick_receive (m : Mesh) (i : NodeId) (msg : Message) (sender : Option NodeId) :
    (m.receive i msg sender).1.tick = m.tick + if (m.roundOf? i msg).isSome then 3 else 0 := by
  unfold roundOf?
  cases hn : m.registry.find? i with
  | none =>
    rw [receive_of_unknown hn]
    rfl
  | some n =>
    rw [receive, Registry.get_eq_ok_iff.2 hn, Option.bind_some]
    dsimp only
    cases hbarred : m.barred? n msg with
    | some fate =>
      obtain ⟨e, herror, -, -⟩ := screen_of_barred hbarred
      have hscreen : m.screen n msg = ((m.screen n msg).1, .error e) := Prod.ext rfl herror
      have htick : (m.screen n msg).1.tick = m.tick := by
        unfold screen
        dsimp only
        split
        · rfl
        · split <;> rfl
      rw [hscreen, htick]
      rfl
    | none =>
      obtain ⟨hunseen, hgate⟩ := barred?_eq_none_iff.1 hbarred
      have hsame : ((m.marked n msg).triad? n).isSome = (m.triad? n).isSome := by
        rw [triad?_marked, Option.isSome_map]
      rw [screen_of_passed hunseen hgate, if_pos rfl, ← hsame]
      exact tick_judge _ n msg sender

/-! ### Answers -/

/-- A message that comes to a round is answered as the round is decided. -/
theorem receive_of_round {v : Validator} (h : m.roundOf? i msg = some v) (sender : Option NodeId) :
    (m.receive i msg sender).2 = v.outcome m.config.metric m.tick := by
  obtain ⟨n, hn, hv⟩ := Option.bind_eq_some_iff.1 h
  split at hv
  case isFalse => cases hv
  case isTrue hbarred =>
    unfold triad? at hv
    split at hv
    case h_1 b c rest hneighbors =>
      cases hv
      rw [(receive_spec msg sender hn).1, fate, hbarred, Option.getD_none, ballot, hneighbors, Validator.outcome]
      dsimp only [round?]
      cases Validator.assess ⟨n, b, c, m.config.varianceThreshold⟩ m.config.metric m.tick with
      | none => rfl
      | some r =>
        dsimp only
        cases r.passed <;> rfl
    case h_2 => cases hv

/-- A message is turned away for want of neighbors exactly if it has been let in and there are fewer than two. -/
theorem receive_eq_insufficient {j : NodeId} {k : Nat} :
    (m.receive i msg sender).2 = .refused (.insufficientTriad j k) ↔
      ∃ n, m.registry.find? i = some n ∧ m.barred? n msg = none ∧ (m.registry.neighborsOf n).length < 2 ∧ j = i ∧
        k = (m.registry.neighborsOf n).length := by
  cases hn : m.registry.find? i with
  | none =>
    rw [receive_of_unknown hn]
    simp
  | some n =>
    have hid : n.id = i := Registry.id_of_find? hn
    rw [(receive_spec msg sender hn).1, fate]
    cases hbarred : m.barred? n msg with
    | some fate =>
      have hne : ∀ k, fate ≠ .postponed k := by
        rintro k rfl
        unfold barred? at hbarred
        split at hbarred
        · cases hbarred
        · split at hbarred <;> cases hbarred
      cases fate with
      | postponed k => exact absurd rfl (hne k)
      | _ => simp [Fate.outcome, hbarred]
    | none =>
      rw [Option.getD_none, ballot]
      rcases hneighbors : m.registry.neighborsOf n with _ | ⟨b, _ | ⟨c, rest⟩⟩
      · simp [Fate.outcome, hid, hneighbors, hbarred, eq_comm]
      · simp [Fate.outcome, hid, hneighbors, hbarred, eq_comm]
      · dsimp only
        split
        · simp [Fate.outcome, hneighbors]
        · split <;> simp [Fate.outcome, hneighbors]

end Mesh

namespace Deployment

variable {d : Deployment} {a : Action} {i : NodeId} {msg : Message} {o : Outcome Binary64}

/-- A node that has two neighbors votes with the first two of its list, which are registered. No member of the
triad is another one. -/
theorem Reachable.triad (h : Reachable d) {n : Node} (hn : d.node? i = some n) {v : Validator}
    (hv : d.mesh.triad? n = some v) :
    v.alpha = n ∧ d.node? v.beta.id = some v.beta ∧ d.node? v.gamma.id = some v.gamma ∧
      (∃ rest, n.neighbors = v.beta.id :: v.gamma.id :: rest) ∧ v.isDistinct = true := by
  obtain ⟨entries, hr⟩ := h.reflects
  have hmem := Registry.mem_nodes_of_find? hn
  have hl := hr.lined n hmem
  obtain ⟨hids, -⟩ := hr.neighborsOf hmem
  unfold Mesh.triad? at hv
  split at hv
  case h_1 b c rest hneighbors =>
    cases hv
    have hb : b ∈ d.mesh.registry.neighborsOf n := by simp [hneighbors]
    have hc : c ∈ d.mesh.registry.neighborsOf n := by simp [hneighbors]
    rw [hneighbors, List.map_cons, List.map_cons] at hids
    refine ⟨rfl, Registry.find?_of_mem_neighborsOf hb, Registry.find?_of_mem_neighborsOf hc, ⟨_, hids.symm⟩, ?_⟩
    have hnodup := hl.nodup
    have hother := hl.other
    rw [← hids] at hnodup hother
    simp only [List.nodup_cons, List.mem_cons, not_or] at hnodup hother
    simp [Validator.isDistinct, hother.1, hother.2.1, hnodup.1.1]
  case h_2 => cases hv

/-- An answer is that of a reception, after which at most one more log record is written. -/
theorem received_of_answer (hp : d.presents a = some (i, msg)) (ho : d.answer a = some o) :
    ∃ sender, o = (d.mesh.receive i msg sender).2 ∧ (d.step a).mesh.tick = (d.mesh.receive i msg sender).1.tick ∧
      (d.mesh.receive i msg sender).1.Logs (d.step a).mesh := by
  cases a with
  | receive j msg' =>
    cases hp
    cases ho
    exact ⟨none, rfl, rfl, .of_eq rfl⟩
  | deliver k =>
    cases hf : d.mesh.propagator.running[k]? with
    | none =>
      rw [presents, hf] at hp
      cases hp
    | some f =>
      rw [presents, hf] at hp
      rw [answer, hf] at ho
      cases hp
      cases ho
      have hhandled : (d.mesh.handle f).tick = (d.mesh.receive f.target f.message (some f.source)).1.tick ∧
          (d.mesh.receive f.target f.message (some f.source)).1.Logs (d.mesh.handle f) := by
        unfold Mesh.handle
        generalize d.mesh.receive f.target f.message (some f.source) = received
        obtain ⟨m', o⟩ := received
        cases o with
        | refused e => exact ⟨rfl, Mesh.Logs.report (.of_eq rfl) (by simp [Validator.aliasWarning])⟩
        | _ => exact ⟨rfl, .of_eq rfl⟩
      refine ⟨some f.source, rfl, ?_⟩
      rw [step, Mesh.deliver, hf]
      exact ⟨hhandled.1, hhandled.2.trans (.of_eq rfl)⟩
  | _ => cases ho

/-- A reception or delivery comes to a round only with the node and the first two entries in its list of neighbors,
which are three different registered nodes; the round decides the answer, nobody else measures, and no warning of a
triad that is not distinct is logged. It answers that there are too few neighbors exactly if the message has been
let in at a node whose list has fewer than two entries, and tells how many. -/
theorem independent_triads (h : Reachable d) (hp : d.presents a = some (i, msg)) (ho : d.answer a = some o) :
    (∀ v, d.mesh.roundOf? i msg = some v →
      d.node? i = some v.alpha ∧ d.node? v.beta.id = some v.beta ∧ d.node? v.gamma.id = some v.gamma ∧
        (∃ rest, v.alpha.neighbors = v.beta.id :: v.gamma.id :: rest) ∧ v.isDistinct = true ∧
        o = v.outcome d.mesh.config.metric d.mesh.tick) ∧
    (d.step a).mesh.tick = d.mesh.tick + (if (d.mesh.roundOf? i msg).isSome then 3 else 0) ∧
    (∃ rs, (d.step a).mesh.records = d.mesh.records ++ rs ∧ ∀ r ∈ rs, r.text ≠ Validator.aliasWarning) ∧
    ∀ j k, o = .refused (.insufficientTriad j k) ↔
      ∃ n, d.node? i = some n ∧ d.mesh.barred? n msg = none ∧ n.neighbors.length < 2 ∧ j = i ∧
        k = n.neighbors.length := by
  obtain ⟨sender, rfl, htick, hlogs⟩ := received_of_answer hp ho
  refine ⟨fun v hv => ?_, ?_, ?_, fun j k => ?_⟩
  · obtain ⟨n, hn, htriad⟩ := Option.bind_eq_some_iff.1 hv
    split at htriad
    case isTrue hbarred =>
      obtain ⟨halpha, hbeta, hgamma, hneighbors, hdistinct⟩ := h.triad hn htriad
      rw [halpha]
      exact ⟨hn, hbeta, hgamma, hneighbors, hdistinct, Mesh.receive_of_round hv sender⟩
    case isFalse => cases htriad
  · rw [htick, Mesh.tick_receive]
  · have hdistinct : ∀ n, d.node? i = some n → ∀ v, d.mesh.triad? n = some v → v.isDistinct = true :=
      fun n hn v hv => (h.triad hn hv).2.2.2.2
    exact (Mesh.logs_receive hdistinct msg sender).trans hlogs
  · rw [Mesh.receive_eq_insufficient]
    obtain ⟨entries, hr⟩ := h.reflects
    refine exists_congr fun n => and_congr_right fun hn => ?_
    have hlength : (d.mesh.registry.neighborsOf n).length = n.neighbors.length := by
      rw [← (hr.neighborsOf (Registry.mem_nodes_of_find? hn)).1, List.length_map]
    rw [hlength]

/-- Three nodes, one of which has been taken out and built again. -/
def relinked : Deployment :=
  (ofMesh Sample.mesh).run
    (Sample.triangle ++ [.remove "b", .create "b" Sample.keys 1 (.fixed 1), .link "a" "b"])

theorem reachable_relinked : Reachable relinked := (Reachable.start Sample.start_mesh).run _

/-- The first two neighbors are now the third node and the new one. -/
theorem independent_triads_relinked :
    ∃ v, relinked.mesh.roundOf? "a" (Sample.message 1) = some v ∧ v.beta.id = "c" ∧ v.gamma.id = "b" ∧
      v.isDistinct = true ∧
      (relinked.step (.receive "a" (Sample.message 1))).mesh.tick = relinked.mesh.tick + 3 := by
  have ho : relinked.answer (.receive "a" (Sample.message 1)) = some (.ok 1) := by decide +kernel
  have hmembers : (relinked.mesh.roundOf? "a" (Sample.message 1)).map (fun v => (v.beta.id, v.gamma.id)) =
      some ("c", "b") := by decide +kernel
  obtain ⟨hround, htick, -, -⟩ := independent_triads reachable_relinked rfl ho
  obtain ⟨v, hv, hids⟩ := Option.map_eq_some_iff.1 hmembers
  obtain ⟨-, -, -, -, hdistinct, -⟩ := hround v hv
  obtain ⟨hbeta, hgamma⟩ := Prod.mk.inj hids
  rw [hv] at htick
  exact ⟨v, hv, hbeta, hgamma, hdistinct, htick⟩

end Deployment

end TriadMesh
