import TriadMesh.Proofs.Coverage
import TriadMesh.Proofs.Drain

/-!
# Where a logged message comes from

A forward is queued by a fan-out: its source has logged the message, and its target is a neighbor that is coherent
enough at that time, and not the one from which the message came. So a message that a delivery logs has come along a
trail of such fan-outs that begins with a call.
-/

namespace TriadMesh

namespace Mesh

theorem relayed_of_mem_offers {m : Mesh} {n : Node} {msg : Message} {sender : Option NodeId} {fate : Fate}
    {f : Forward} (h : f ∈ m.offers n msg sender fate) :
    m.config.relayAccepted = true ∧ f.target ∈ m.eligible n sender := by
  cases fate with
  | accepted r =>
    rw [offers] at h
    split at h
    case isTrue hrelay =>
      obtain ⟨target, htarget, rfl⟩ := List.mem_map.1 h
      exact ⟨hrelay, htarget⟩
    case isFalse => cases h
  | _ => cases h

end Mesh

namespace Deployment

variable {d : Deployment} {a : Action} {acts pre : List Action} {i j : NodeId} {n : Node} {msg : Message} {f : Forward}
variable {x : Nat} {via : List NodeId}

/-! ## Fan-outs -/

/-- The node from which an action brings a message, if it is not brought by a call. -/
def sender? (d : Deployment) : Action → Option NodeId
  | .deliver x => (d.mesh.propagator.running[x]?).map Forward.source
  | _ => none

/-- With an action the node `i` logs a message and sends it on to `j`, among others. -/
structure FansOut (d : Deployment) (a : Action) (i : NodeId) (msg : Message) (j : NodeId) : Prop where
  logs : Logs d a i msg
  begins : a = .gossip i msg ∨ d.mesh.config.relayAccepted = true
  neighbor : ∃ n, d.node? i = some n ∧ j ∈ n.neighbors
  coherent : ∃ k, d.node? j = some k ∧ d.mesh.config.cardinalThreshold ≤ k.coherence
  onward : d.sender? a ≠ some j

theorem Sound.fansOut (h : Sound d) (hp : d.presents a = some (i, msg)) (hn : d.node? i = some n)
    (hlogged : d.imprint a n msg = .logged) (hbegins : a = .gossip i msg ∨ d.mesh.config.relayAccepted = true)
    (hj : j ∈ d.mesh.eligible n (d.sender? a)) : FansOut d a i msg j := by
  obtain ⟨k, hk, hid, hne, hcoherent⟩ := Mesh.mem_eligible.1 hj
  have hfound := Registry.find?_of_mem_neighborsOf hk
  obtain ⟨j', hneighbor, hk'⟩ := List.mem_filterMap.1 hk
  rw [hid] at hfound
  have hsame : j' = j := by rw [← hid, Registry.id_of_find? hk']
  exact ⟨h.logs_iff.2 ⟨n, hp, hn, hlogged⟩, hbegins, ⟨n, hn, hsame ▸ hneighbor⟩, ⟨k, hfound, hcoherent⟩, hne.symm⟩

/-- A forward that becomes pending is part of a fan-out, or of a gossip that is still handing out its message. -/
theorem Sound.pending_from (h : Sound d) (a : Action) (hf : f ∈ (d.step a).mesh.propagator.pending) :
    f ∈ d.mesh.propagator.pending ∨ FansOut d a f.source f.message f.target ∨
      ∃ g ∈ d.fanouts, g.source = f.source ∧ g.message = f.message ∧ f.target ∈ g.remaining := by
  -- What a reception has queued is part of the fan-out that follows it.
  have hreached : ∀ {k msg} {n : Node} {sender : Option NodeId} {taken : List Forward} {p : Propagator Forward},
      d.presents a = some (k, msg) → d.node? k = some n → d.imprint a n msg = (d.mesh.fate n msg).imprint →
      d.sender? a = sender → taken ⊆ d.mesh.offers n msg sender (d.mesh.fate n msg) →
      p = d.mesh.propagator.extend taken → f ∈ p.pending →
      f ∈ d.mesh.propagator.pending ∨ FansOut d a f.source f.message f.target := by
    intro k msg n sender taken p hp hn himprint hsender hsub hpropagator hf
    rw [hpropagator, Propagator.pending_extend] at hf
    rcases List.mem_append.1 hf with hf | hf
    · exact .inl hf
    · obtain ⟨hlogged, hsource, hmessage⟩ := Mesh.mem_offers (hsub hf)
      obtain ⟨hrelay, htarget⟩ := Mesh.relayed_of_mem_offers (hsub hf)
      rw [hsource, hmessage, Registry.id_of_find? hn]
      exact .inr (h.fansOut hp hn (himprint.trans hlogged) (.inr hrelay) (hsender ▸ htarget))
  have heffect := h.effect a
  generalize d.step a = d' at heffect hf
  cases heffect with
  | structural ha h rs t => exact .inl hf
  | idle h => exact .inl hf
  | lost hrunning hn rs => exact .inl (Propagator.mem_pending_of_mem_complete hf)
  | delivered hrunning hn h rs =>
    have hsender : ∀ {x f}, d.mesh.propagator.running[x]? = some f → d.sender? (.deliver x) = some f.source := by
      intro x f hrunning
      rw [sender?, hrunning, Option.map_some]
    exact (hreached (presents_deliver hrunning) hn rfl (hsender hrunning) h.sublist.subset h.propagator
      (Propagator.mem_pending_of_mem_complete hf)).imp_right .inl
  | received hn h => exact (hreached rfl hn rfl rfl h.sublist.subset h.propagator hf).imp_right .inl
  | begun hn h =>
    rw [h.propagator, Propagator.extend_nil] at hf
    exact .inl hf
  | @advanced k g target rest hk hrem =>
    rw [Propagator.pending_extend] at hf
    rcases List.mem_append.1 hf with hf | hf
    · exact .inl hf
    · rw [List.mem_singleton] at hf
      subst hf
      exact .inr (.inr ⟨g, List.mem_of_getElem? hk, rfl, rfl, hrem ▸ List.mem_cons_self⟩)
  | finished hk hrem rs => exact .inl hf
  | took =>
    dsimp only at hf
    rw [Propagator.pending_take h.live.served] at hf
    exact .inl hf
  | launched =>
    dsimp only at hf
    rw [Propagator.pending_launch] at hf
    exact .inl hf

/-- What a gossip has to hand out is part of the fan-out with which it began. -/
theorem Sound.remaining_from (h : Sound d) (a : Action) {g : Fanout} (hg : g ∈ (d.step a).fanouts)
    (hj : j ∈ g.remaining) :
    (∃ g' ∈ d.fanouts, g'.source = g.source ∧ g'.message = g.message ∧ j ∈ g'.remaining) ∨
      FansOut d a g.source g.message j := by
  have hold : g ∈ d.fanouts →
      ∃ g' ∈ d.fanouts, g'.source = g.source ∧ g'.message = g.message ∧ j ∈ g'.remaining :=
    fun hg => ⟨g, hg, rfl, rfl, hj⟩
  have heffect := h.effect a
  generalize d.step a = d' at heffect hg
  cases heffect with
  | @begun k msg n m hn hreached =>
    rcases List.mem_append.1 hg with hg | hg
    · exact .inl (hold hg)
    · split at hg
      case isTrue hbarred =>
        rw [List.mem_singleton] at hg
        subst hg
        have hlogged : d.imprint (.gossip k msg) n msg = .logged := by
          rw [imprint, Mesh.gossipImprint, hbarred, Option.map_none, Option.getD_none]
        exact .inr (h.fansOut rfl hn hlogged (.inl rfl) hj)
      case isFalse => cases hg
  | @advanced k g' target rest hk hrem =>
    rcases List.mem_or_eq_of_mem_set hg with hg | rfl
    · exact .inl (hold hg)
    · exact .inl ⟨g', List.mem_of_getElem? hk, rfl, rfl, hrem ▸ List.mem_cons_of_mem target hj⟩
  | finished hk hrem rs => exact .inl (hold (List.mem_of_mem_eraseIdx hg))
  | _ => exact .inl (hold hg)

/-! ## Trails -/

/-- After `pre`, the action `a` logs a message at the node `i`. It has come along the nodes `via` since a call brought
it to the first of them: each sent it on to the next when it logged it, and the next logged it when that forward was
delivered. -/
inductive Trail (d : Deployment) (msg : Message) : List Action → Action → List NodeId → NodeId → Prop where
  | origin {pre : List Action} {a : Action} {i : NodeId} (hcall : a = .gossip i msg ∨ a = .receive i msg)
      (hlogs : (d.run pre).Logs a i msg) : Trail d msg pre a [] i
  | hop {pre mid : List Action} {a : Action} {via : List NodeId} {i j : NodeId} {x : Nat}
      (h : Trail d msg pre a via i) (hfans : (d.run pre).FansOut a i msg j)
      (hf : (d.run (pre ++ a :: mid)).mesh.propagator.running[x]? = some ⟨i, j, msg⟩)
      (hlogs : (d.run (pre ++ a :: mid)).Logs (.deliver x) j msg) :
      Trail d msg (pre ++ a :: mid) (.deliver x) (via ++ [i]) j

/-- At some time in a run, the node `i` has sent a message on to `j` that has come along a trail. -/
def Backed (d : Deployment) (acts : List Action) (i : NodeId) (msg : Message) (j : NodeId) : Prop :=
  ∃ pre a mid via, acts = pre ++ a :: mid ∧ Trail d msg pre a via i ∧ (d.run pre).FansOut a i msg j

theorem Backed.snoc (h : Backed d acts i msg j) (a : Action) : Backed d (acts ++ [a]) i msg j := by
  obtain ⟨pre, b, mid, via, rfl, htrail, hfans⟩ := h
  exact ⟨pre, b, mid ++ [a], via, by simp, htrail, hfans⟩

/-- Everything that is pending, or has to be handed out, is backed. -/
structure Sourced (d : Deployment) (acts : List Action) : Prop where
  pending : ∀ f ∈ (d.run acts).mesh.propagator.pending, Backed d acts f.source f.message f.target
  fanouts : ∀ g ∈ (d.run acts).fanouts, ∀ j ∈ g.remaining, Backed d acts g.source g.message j

/-- So whatever is logged has come along a trail. -/
theorem Sourced.trail (h : Sourced d acts) (hsound : Sound d) (hlogs : (d.run acts).Logs a i msg) :
    ∃ via, Trail d msg acts a via i ∧ ∀ x, a = .deliver x → via ≠ [] := by
  obtain ⟨n, hp, hn, hlogged⟩ := (hsound.run acts).logs_iff.1 hlogs
  cases a with
  | gossip k msg' =>
    cases hp
    exact ⟨[], .origin (.inl rfl) hlogs, fun x hx => by cases hx⟩
  | receive k msg' =>
    cases hp
    exact ⟨[], .origin (.inr rfl) hlogs, fun x hx => by cases hx⟩
  | deliver x =>
    obtain ⟨f, hf, hpair⟩ := Option.map_eq_some_iff.1 hp
    cases hpair
    obtain ⟨pre, b, mid, via, rfl, htrail, hfans⟩ := h.pending f (Propagator.mem_pending_of_running hf)
    exact ⟨via ++ [f.source], htrail.hop hfans hf hlogs, fun _ _ => by simp⟩
  | _ => cases hp

theorem Sourced.step (h : Sourced d acts) (hsound : Sound d) (a : Action) : Sourced d (acts ++ [a]) := by
  have hlast : d.run (acts ++ [a]) = (d.run acts).step a := run_append _ _ _
  have hnew : ∀ {i msg j}, (d.run acts).FansOut a i msg j → Backed d (acts ++ [a]) i msg j := by
    intro i msg j hfans
    obtain ⟨via, htrail, -⟩ := h.trail hsound hfans.logs
    exact ⟨acts, a, [], via, rfl, htrail, hfans⟩
  constructor
  · intro f hf
    rw [hlast] at hf
    rcases (hsound.run acts).pending_from a hf with hf | hfans | ⟨g, hg, hsource, hmessage, hremaining⟩
    · exact (h.pending f hf).snoc a
    · exact hnew hfans
    · have hbacked := (h.fanouts g hg f.target hremaining).snoc a
      rwa [hsource, hmessage] at hbacked
  · intro g hg j hj
    rw [hlast] at hg
    rcases (hsound.run acts).remaining_from a hg hj with ⟨g', hg', hsource, hmessage, hremaining⟩ | hfans
    · have hbacked := (h.fanouts g' hg' j hremaining).snoc a
      rwa [hsource, hmessage] at hbacked
    · exact hnew hfans

/-- Without relays a trail has one hop, and begins with a gossip. -/
theorem Trail.single (h : Trail d msg pre (.deliver x) via j) (hsound : Sound d)
    (hquiet : d.mesh.config.relayAccepted = false) :
    ∃ i before mid, via = [i] ∧ pre = before ++ .gossip i msg :: mid ∧
      (d.run before).Logs (.gossip i msg) i msg := by
  cases h with
  | origin hcall hlogs => rcases hcall with hcall | hcall <;> cases hcall
  | @hop before mid a via i _ _ h hfans hf hlogs =>
    rcases hfans.begins with rfl | hrelay
    · cases h with
      | origin hcall hlogs => exact ⟨i, before, mid, rfl, rfl, hlogs⟩
    · rw [(hsound.settings_run before).2, hquiet] at hrelay
      cases hrelay

theorem sourced_start {s : Suite} {config : Config} {sink : Sink} {noise : Nat → Binary64} {runtime : Bool} {m : Mesh}
    (hm : Mesh.start s config sink noise runtime = .ok m) (acts : List Action) : Sourced (ofMesh m) acts := by
  induction acts using List.reverseRecOn with
  | nil =>
    have hpending : (ofMesh m).mesh.propagator.pending = [] := by
      rw [start_eq_ok hm]
      rfl
    refine ⟨fun f hf => ?_, fun g hg => by cases hg⟩
    rw [run_nil, hpending] at hf
    cases hf
  | append_singleton acts a ih => exact ih.step (sound_start hm) a

/-! ## Nodes that nothing comes to -/

/-- In a run, no node that is registered under an id is coherent enough, and no call brings it a message. -/
structure Aloof (d : Deployment) (acts : List Action) (i : NodeId) : Prop where
  incoherent : ∀ pre post, acts = pre ++ post → ∀ n, (d.run pre).node? i = some n →
    ¬d.mesh.config.cardinalThreshold ≤ n.coherence
  uncalled : ∀ msg, .gossip i msg ∉ acts ∧ .receive i msg ∉ acts

theorem Aloof.init (h : Aloof d (acts ++ [a]) i) : Aloof d acts i where
  incoherent pre post hsplit := h.incoherent pre (post ++ [a]) (by rw [hsplit, List.append_assoc])
  uncalled msg :=
    ⟨fun hmem => (h.uncalled msg).1 (List.mem_append_left _ hmem),
      fun hmem => (h.uncalled msg).2 (List.mem_append_left _ hmem)⟩

theorem Aloof.not_presents (h : Aloof d (acts ++ [a]) i) (hsourced : Sourced d acts) (hsound : Sound d) :
    (d.run acts).presents a ≠ some (i, msg) := by
  intro hp
  cases a with
  | gossip k msg' =>
    cases hp
    exact (h.uncalled msg).1 (List.mem_append_right _ (List.mem_singleton_self _))
  | receive k msg' =>
    cases hp
    exact (h.uncalled msg).2 (List.mem_append_right _ (List.mem_singleton_self _))
  | deliver x =>
    obtain ⟨f, hf, hpair⟩ := Option.map_eq_some_iff.1 hp
    cases hpair
    obtain ⟨pre, b, mid, via, rfl, -, hfans⟩ := hsourced.pending f (Propagator.mem_pending_of_running hf)
    -- When the forward was queued, the node would have had to be coherent.
    obtain ⟨k, hk, hcoherent⟩ := hfans.coherent
    rw [(hsound.settings_run pre).2] at hcoherent
    exact h.incoherent pre (b :: mid ++ [.deliver x]) (by simp) k hk hcoherent
  | _ => cases hp

theorem Aloof.untouched (h : Aloof d acts i) (hsourced : ∀ acts, Sourced d acts) (hsound : Sound d)
    (hempty : d.objects = []) (hn : n ∈ (d.run acts).objects) (hid : n.id = i) :
    n.log = [] ∧ n.seen.order = [] := by
  induction acts using List.reverseRecOn generalizing n with
  | nil =>
    rw [run_nil, hempty] at hn
    cases hn
  | append_singleton acts a ih =>
    have he := hsound.run acts
    have hlast : d.run (acts ++ [a]) = (d.run acts).step a := run_append _ _ _
    have hregistered : ∀ k, (d.run acts).node? i = some k → k.log = [] ∧ k.seen.order = [] := fun k hk =>
      ih h.init (List.mem_append_left _ (node?_eq_some_iff.1 hk).1) (node?_eq_some_iff.1 hk).2
    obtain ⟨gone, hevolves, hgone⟩ := (he.effect a).evolves
    rw [hlast, objects, hgone] at hn
    rcases List.mem_append.1 hn with hn | hn
    · have hchange := he.change a i
      rw [node?_eq_some_iff.2 ⟨hn, hid⟩] at hchange
      generalize hbefore : (d.run acts).node? i = before at hchange
      cases hchange with
      | joined hp hid hs hfresh => exact ⟨hfresh.log, hfresh.seen ▸ rfl⟩
      | @kept k _ hp hkeeps =>
        rw [hkeeps.log, hkeeps.seen]
        exact hregistered k hbefore
      | reached hp => exact absurd hp (h.not_presents (hsourced acts) hsound)
    · rcases List.mem_append.1 hn with hn | hn
      · exact ih h.init (List.mem_append_right _ hn) hid
      · generalize ((d.run acts).step a).mesh.registry = r at hevolves
        cases hevolves with
        | @left id k ha hk =>
          rw [List.mem_singleton] at hn
          subst hn
          refine hregistered n ?_
          rwa [← hid, Registry.id_of_find? hk]
        | _ => cases hn

/-! ## Any run -/

/-- In any run, a message that a delivery logs has come along a trail of one hop or more, from a gossip by one hop where
nothing is relayed. So a node that is never coherent enough, and that no call brings a message, never logs or remembers
one. -/
theorem trail_of_logs {s : Suite} {config : Config} {sink : Sink} {noise : Nat → Binary64} {runtime : Bool} {m : Mesh}
    (hm : Mesh.start s config sink noise runtime = .ok m) (acts : List Action) :
    (∀ x j msg, ((ofMesh m).run acts).Logs (.deliver x) j msg →
      ∃ via, via ≠ [] ∧ Trail (ofMesh m) msg acts (.deliver x) via j ∧
        (config.relayAccepted = false →
          ∃ i pre mid, via = [i] ∧ acts = pre ++ .gossip i msg :: mid ∧
            ((ofMesh m).run pre).Logs (.gossip i msg) i msg)) ∧
    ∀ i, Aloof (ofMesh m) acts i →
      ∀ n ∈ ((ofMesh m).run acts).objects, n.id = i → n.log = [] ∧ n.seen.order = [] := by
  have hsound := sound_start hm
  have hstart := start_eq_ok hm
  constructor
  · intro x j msg hlogs
    obtain ⟨via, htrail, hlong⟩ := (sourced_start hm acts).trail hsound hlogs
    refine ⟨via, hlong x rfl, htrail, fun hquiet => htrail.single hsound ?_⟩
    rw [hstart]
    exact hquiet
  · intro i haloof n hn hid
    exact haloof.untouched (sourced_start hm) hsound (by rw [hstart]; rfl) hn hid

/-- In a triangle a gossip at `a` comes to `b`, and not to a fourth node without coherence. -/
theorem trail_of_logs_triangle :
    let acts := Sample.triangle ++
      [.create "d" Sample.keys 0 (.fixed 1), .link "a" "d", .gossip "a" (Sample.message 1), .advance 0, .take, .launch]
    (∃ via, via ≠ [] ∧ Trail (ofMesh Sample.mesh) (Sample.message 1) acts (.deliver 0) via "b") ∧
      ∃ n, ((ofMesh Sample.mesh).run acts).node? "d" = some n ∧ n.log = [] := by
  intro acts
  obtain ⟨htrails, hempty⟩ := trail_of_logs Sample.start_mesh acts
  constructor
  · have hlogs : ((ofMesh Sample.mesh).run acts).Logs (.deliver 0) "b" (Sample.message 1) := by
      have hbefore : (((ofMesh Sample.mesh).run acts).node? "b").map Node.log = some [] := by decide +kernel
      have hafter : ((((ofMesh Sample.mesh).run acts).step (.deliver 0)).node? "b").map Node.log =
          some [Sample.message 1] := by decide +kernel
      obtain ⟨n, hn, hlog⟩ := Option.map_eq_some_iff.1 hbefore
      obtain ⟨n', hn', hlog'⟩ := Option.map_eq_some_iff.1 hafter
      exact ⟨n, n', hn, hn', by rw [hlog, hlog', List.nil_append]⟩
    obtain ⟨via, hne, htrail, -⟩ := htrails 0 "b" (Sample.message 1) hlogs
    exact ⟨via, hne, htrail⟩
  · have haloof : Aloof (ofMesh Sample.mesh) acts "d" := by
      constructor
      · have hall : ∀ k ≤ acts.length, (((ofMesh Sample.mesh).run (acts.take k)).node? "d").all
            (fun n => ¬(ofMesh Sample.mesh).mesh.config.cardinalThreshold ≤ n.coherence) = true := by decide +kernel
        intro pre post hsplit n hn
        have hpre := hall pre.length (by rw [hsplit, List.length_append]; omega)
        rw [hsplit, List.take_left, hn, Option.all_some, decide_eq_true_eq] at hpre
        exact hpre
      · intro msg
        simp [acts, Sample.triangle]
    have hregistered : (((ofMesh Sample.mesh).run acts).node? "d").isSome = true := by decide +kernel
    obtain ⟨n, hn⟩ := Option.isSome_iff_exists.1 hregistered
    have hnode := node?_eq_some_iff.1 hn
    exact ⟨n, hn, (hempty "d" haloof n (List.mem_append_left _ hnode.1) hnode.2).1⟩

end Deployment

end TriadMesh
