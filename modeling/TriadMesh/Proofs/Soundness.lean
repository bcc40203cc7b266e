import TriadMesh.Proofs.Steps

/-!
# What holds after every run

In a deployment that a mesh can come to after its start, the propagator works and every memory has room for an id. The suite and the configuration never change, and of a node object,
registered or taken out, the log only grows.
-/

namespace TriadMesh.Deployment

variable {d d' : Deployment} {a : Action}

structure Sound (d : Deployment) : Prop where
  live : d.mesh.propagator.Live
  roomy : ∀ i n, d.node? i = some n → 0 < n.seen.capacity

theorem Effect.live (h : Effect d a d') (hlive : d.mesh.propagator.Live) : d'.mesh.propagator.Live := by
  cases h with
  | structural ha h rs t => exact hlive
  | idle h => exact hlive
  | lost hf hn rs => exact hlive.complete (List.getElem?_eq_some_iff.1 hf).1
  | @delivered i f n taken m hf hn h rs =>
    have hrun : i < m.propagator.running.length := by
      rw [h.propagator]
      exact (List.getElem?_eq_some_iff.1 hf).1
    refine Propagator.Live.complete ?_ hrun
    rw [h.propagator]
    exact hlive.extend taken
  | received hn h =>
    rw [h.propagator]
    exact hlive.extend _
  | begun hn h =>
    rw [h.propagator]
    exact hlive.extend _
  | advanced hk hrem => exact hlive.extend _
  | finished hk hrem rs => exact hlive
  | took => exact hlive.take
  | launched => exact hlive.launch

theorem Evolves.roomy {r : Registry} {gone : List Node} (h : Evolves d a r gone)
    (hroomy : ∀ i n, d.node? i = some n → 0 < n.seen.capacity) {i : NodeId} {n' : Node}
    (hn' : r.find? i = some n') :
    0 < n'.seen.capacity := by
  have hchange := h.change i
  rw [hn'] at hchange
  generalize hn : d.node? i = before at hchange
  cases hchange with
  | joined hp hid hs hfresh =>
    rw [hfresh.seen, SeenSet.capacity_empty]
    omega
  | kept hp hkeeps =>
    rw [hkeeps.seen]
    exact hroomy i _ hn
  | reached hp =>
    rw [Node.imprint_capacity]
    exact hroomy i _ hn

theorem Sound.effect (h : Sound d) (a : Action) : Effect d a (d.step a) :=
  effect_step h.live.dispatching a

theorem Sound.step (h : Sound d) (a : Action) : Sound (d.step a) := by
  obtain ⟨gone, hevolves, -⟩ := (h.effect a).evolves
  exact ⟨(h.effect a).live h.live, fun _ _ hn' => hevolves.roomy h.roomy hn'⟩

theorem Sound.run (h : Sound d) (acts : List Action) : Sound (d.run acts) := by
  induction acts generalizing d with
  | nil => exact h
  | cons a acts ih => exact ih (h.step a)

theorem start_eq_ok {s : Suite} {config : Config} {sink : Sink} {noise : Nat → Binary64} {runtime : Bool}
    {m : Mesh}
    (h : Mesh.start s config sink noise runtime = .ok m) :
    m = ⟨s, config, sink, noise, .empty, .zero, .empty config.queueCapacity config.maxInFlight, 0, [], []⟩ := by
  unfold Mesh.start at h
  split at h
  case h_1 => cases h
  case h_2 =>
    unfold Propagator.start at h
    split at h
    · cases h
    · split at h
      · cases h
      · cases h
        rfl

/-- A valid configuration with sizes within the limit starts a mesh. -/
theorem start_of_valid (s : Suite) {config : Config} (sink : Sink) (noise : Nat → Binary64)
    (hvalid : config.violation? = none) (hqueue : config.queueCapacity ≤ Propagator.sizeLimit)
    (hflight : config.maxInFlight ≤ Propagator.sizeLimit) :
    Mesh.start s config sink noise true =
      .ok ⟨s, config, sink, noise, .empty, .zero, .empty config.queueCapacity config.maxInFlight, 0, [], []⟩ := by
  have hsizes : ¬(Propagator.sizeLimit < max config.queueCapacity 1 ∨
      Propagator.sizeLimit < max config.maxInFlight 1) := by
    have hlimit : 1 ≤ Propagator.sizeLimit := by decide
    omega
  unfold Mesh.start
  split
  case h_1 v hv => cases hvalid.symm.trans hv
  case h_2 =>
    rw [Propagator.start, if_neg Bool.noConfusion, if_neg hsizes]
    rfl

theorem sound_start {s : Suite} {config : Config} {sink : Sink} {noise : Nat → Binary64} {runtime : Bool}
    {m : Mesh}
    (h : Mesh.start s config sink noise runtime = .ok m) : Sound (ofMesh m) := by
  rw [start_eq_ok h]
  exact ⟨Propagator.live_empty _ _, fun _ _ hn => by simp [ofMesh, node?] at hn⟩

theorem Reachable.sound (h : Reachable d) : Sound d := by
  induction h with
  | start h => exact sound_start h
  | step h a ih => exact ih.step a

theorem Sound.change (h : Sound d) (a : Action) (i : NodeId) :
    Change d a i (d.node? i) ((d.step a).node? i) := by
  obtain ⟨gone, hevolves, -⟩ := (h.effect a).evolves
  exact hevolves.change i

/-- A registered node bears the imprint of a message that is brought before it. -/
theorem Sound.node_reached {i : NodeId} {msg : Message} {n : Node} (h : Sound d)
    (hp : d.presents a = some (i, msg))
    (hn : d.node? i = some n) :
    (d.step a).node? i = some (n.imprint (msg.id d.mesh.suite) msg (d.imprint a n msg)) := by
  have hchange := h.change a i
  rw [hn] at hchange
  generalize (d.step a).node? i = after at hchange ⊢
  cases hchange with
  | left ha =>
    rw [ha] at hp
    cases hp
  | kept hkept hkeeps => exact absurd hp (hkept msg)
  | reached hp' =>
    rw [hp] at hp'
    cases hp'
    rfl

theorem node?_eq_some_iff {i : NodeId} {n : Node} :
    d.node? i = some n ↔ n ∈ d.mesh.registry.nodes ∧ n.id = i := by
  constructor
  · intro hn
    exact ⟨Registry.mem_nodes_of_find? hn, Registry.id_of_find? hn⟩
  · rintro ⟨hn, rfl⟩
    exact Registry.mem_nodes_iff.1 hn

/-! ## Settings -/

theorem Effect.settings (h : Effect d a d') :
    d'.mesh.suite = d.mesh.suite ∧ d'.mesh.config = d.mesh.config := by
  cases h with
  | delivered hf hn h rs => exact ⟨h.suite, h.config⟩
  | received hn h => exact ⟨h.suite, h.config⟩
  | begun hn h => exact ⟨h.suite, h.config⟩
  | _ => exact ⟨rfl, rfl⟩

theorem Sound.settings_run (h : Sound d) (acts : List Action) :
    (d.run acts).mesh.suite = d.mesh.suite ∧ (d.run acts).mesh.config = d.mesh.config := by
  induction acts generalizing d with
  | nil => exact ⟨rfl, rfl⟩
  | cons a acts ih =>
    obtain ⟨hsuite, hconfig⟩ := (h.effect a).settings
    obtain ⟨hsuite', hconfig'⟩ := ih (h.step a)
    exact ⟨hsuite'.trans hsuite, hconfig'.trans hconfig⟩

/-! ## Sensors -/

/-- What holds of the sensors that nodes have, and of each one that a run fits, holds of those of all nodes. -/
theorem Sound.sensors_run {P : Sensor → Prop} (h : Sound d) (hd : ∀ i n, d.node? i = some n → P n.sensor)
    (acts : List Action)
    (hacts : ∀ pre a post, acts = pre ++ a :: post → ∀ s, (d.run pre).sensor? a = some s → P s) :
    ∀ i n, (d.run acts).node? i = some n → P n.sensor := by
  induction acts generalizing d with
  | nil => exact hd
  | cons a acts ih =>
    refine ih (h.step a) ?_ fun pre b post hsplit => hacts (a :: pre) b post (congrArg (a :: ·) hsplit)
    intro i n hn
    have hchange := h.change a i
    rw [hn] at hchange
    generalize hbefore : d.node? i = before at hchange
    cases hchange with
    | joined hp hid hs hfresh =>
      rw [hfresh.sensor]
      exact hacts [] a acts rfl _ hs
    | kept hp hkeeps =>
      rw [hkeeps.sensor]
      exact hd i _ hbefore
    | reached hp =>
      rw [Node.imprint_sensor]
      exact hd i _ hbefore

/-! ## Node objects -/

/-- The node objects that have been taken in, those that have been taken out again too. -/
def objects (d : Deployment) : List Node := d.mesh.registry.nodes ++ d.removed

/-- No object is lost, and its log only grows. -/
theorem Sound.objects_grow (h : Sound d) (a : Action) {n : Node} (hn : n ∈ d.objects) :
    ∃ n' ∈ (d.step a).objects, n'.id = n.id ∧ n.log <+: n'.log := by
  obtain ⟨gone, hevolves, hremoved⟩ := (h.effect a).evolves
  rw [objects, hremoved]
  rcases List.mem_append.1 hn with hn | hn
  case inr => exact ⟨n, by simp [hn], rfl, List.prefix_refl _⟩
  generalize (d.step a).mesh.registry = r at hevolves
  cases hevolves with
  | joined hp hnew hs hfresh =>
    rw [Registry.nodes_push]
    exact ⟨n, by simp [hn], rfl, List.prefix_refl _⟩
  | @left id k ha hk =>
    by_cases hid : n.id = id
    · have hkn : d.node? id = some n := node?_eq_some_iff.2 ⟨hn, hid⟩
      rw [hk] at hkn
      cases hkn
      exact ⟨n, by simp, rfl, List.prefix_refl _⟩
    · have hstays : n.removeNeighbor id ∈ (d.mesh.registry.without id).nodes := by
        rw [Registry.nodes_without]
        exact List.mem_map_of_mem (List.mem_filter.2 ⟨hn, by simpa using hid⟩)
      exact ⟨n.removeNeighbor id, List.mem_append_left _ hstays, rfl, List.prefix_refl _⟩
  | @changed g hp hid hg =>
    have hkeeps := hg n hn
    rw [Registry.nodes_map hid]
    exact ⟨g n, List.mem_append_left _ (List.mem_map_of_mem hn), hkeeps.id, hkeeps.log.symm ▸ List.prefix_refl _⟩
  | missed hp hk => exact ⟨n, by simp [hn], rfl, List.prefix_refl _⟩
  | @reached i msg k hp hk =>
    let mark := Registry.only i (Node.imprint (msg.id d.mesh.suite) msg (d.imprint a k msg))
    rw [Registry.nodes_update fun k => Node.imprint_id _ _ _ k]
    refine ⟨mark n, List.mem_append_left _ (List.mem_map_of_mem hn),
      Registry.only_congr Node.id (fun k => Node.imprint_id _ _ _ k) n, ?_⟩
    by_cases hid : n.id = i
    · have hmark : mark n = n.imprint (msg.id d.mesh.suite) msg (d.imprint a k msg) := Registry.only_self hid
      rw [hmark, Node.imprint_log]
      split
      · exact List.prefix_append _ _
      · exact List.prefix_refl _
    · have hmark : mark n = n := Registry.only_of_ne hid
      exact hmark.symm ▸ List.prefix_refl _

/-- A log is empty, or what it was, or has got the message that an action has brought before its node. -/
theorem Sound.objects_step (h : Sound d) (a : Action) {n' : Node} (hn' : n' ∈ (d.step a).objects) :
    n'.log = [] ∨ (∃ n ∈ d.objects, n'.log = n.log) ∨
      ∃ n msg, d.presents a = some (n'.id, msg) ∧ d.node? n'.id = some n ∧ d.imprint a n msg = .logged ∧
        n'.log = n.log ++ [msg] := by
  obtain ⟨gone, hevolves, hremoved⟩ := (h.effect a).evolves
  rw [objects, hremoved, List.mem_append, List.mem_append] at hn'
  rcases hn' with hn' | hn' | hn'
  · have hchange := h.change a n'.id
    rw [node?_eq_some_iff.2 ⟨hn', rfl⟩] at hchange
    generalize hn : d.node? n'.id = before at hchange
    cases hchange with
    | joined hp hid hs hfresh => exact .inl hfresh.log
    | @kept n _ hp hkeeps =>
      exact .inr (.inl ⟨n, List.mem_append_left _ (node?_eq_some_iff.1 hn).1, hkeeps.log⟩)
    | @reached n msg hp =>
      rw [Node.imprint_id] at hp hn
      rw [Node.imprint_log, Node.imprint_id]
      by_cases hlogged : d.imprint a n msg = .logged
      · exact .inr (.inr ⟨n, msg, hp, rfl, hlogged, if_pos hlogged⟩)
      · exact .inr (.inl ⟨n, List.mem_append_left _ (node?_eq_some_iff.1 hn).1, if_neg hlogged⟩)
  · exact .inr (.inl ⟨n', List.mem_append_right _ hn', rfl⟩)
  · generalize (d.step a).mesh.registry = r at hevolves
    cases hevolves with
    | @left id n ha hn =>
      rw [List.mem_singleton] at hn'
      subst hn'
      exact .inr (.inl ⟨n', List.mem_append_left _ (node?_eq_some_iff.1 hn).1, rfl⟩)
    | _ => cases hn'

end TriadMesh.Deployment

/-! ## A mesh to compute with -/

namespace TriadMesh.Sample

/-- A suite without cryptography. The id of a message begins with its content. -/
def suite : Suite where
  hash b := ⟨Vector.ofFn fun i => b.getD (i.val + 32) 0⟩
  deriveKey _ _ := default
  publicKey secret := secret.toList
  sign _ _ := List.replicate 64 0
  decodesKey _ := true
  verify _ _ _ := true

def keys : KeyPair := ⟨default, List.replicate 32 0⟩

def message (n : UInt8) : Message := ⟨0, 1, 0, [n], List.replicate 64 0, List.replicate 32 0⟩

/-- Nodes remember one id only, and relay what they accept. -/
def config : Config := { Config.default with seenCapacity := 1, relayAccepted := true }

def mesh : Mesh :=
  ⟨suite, config, .listener, fun _ => 0, .empty, .zero, .empty config.queueCapacity config.maxInFlight, 0, [], []⟩

theorem start_mesh : Mesh.start suite config .listener (fun _ => 0) true = .ok mesh :=
  Deployment.start_of_valid suite .listener (fun _ => 0) (by decide +kernel) (by decide +kernel)
    (by decide +kernel)

/-- Three nodes that agree, each a neighbor of the others. -/
def triangle : List Action :=
  [.create "a" keys 1 (.fixed 1), .create "b" keys 1 (.fixed 1), .create "c" keys 1 (.fixed 1),
   .link "a" "b", .link "a" "c", .link "b" "c"]

end TriadMesh.Sample
