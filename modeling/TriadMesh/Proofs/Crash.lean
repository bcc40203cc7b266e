import TriadMesh.Proofs.Binary64
import TriadMesh.Proofs.Coverage

/-!
# Crashes

A mesh crashes at its start if a size is beyond the limit of the propagator, and where a node is built if the
capacity of its memory is beyond the limit of an allocation. Otherwise it crashes only where a sensor does, as it is
read for a vote or on its own. A default sensor crashes if and only if twice its amplitude overflows. So what a
configuration must allow for can be read off it, and a valid one need not.
-/

namespace TriadMesh

/-- A default sensor cannot draw from a range whose width is not finite. -/
theorem Sensor.read_noisy_eq_none_iff {amplitude : Binary64} {noise : Nat → Binary64} {p : Probe}
    (h : Config.isNonNegative amplitude = true) :
    (Sensor.noisy amplitude noise).read p = none ↔ (amplitude + amplitude).isFinite = false := by
  by_cases hzero : amplitude.isZero = true
  · simp [noisy, Binary64.isZero_abs hzero, Binary64.isFinite_double_of_isZero hzero]
  · have habs : amplitude.abs = amplitude :=
      Binary64.abs_of_positive ((Binary64.positive_or_zero h).resolve_right hzero)
    cases hfinite : (amplitude + amplitude).isFinite <;> simp [noisy, habs, hzero, hfinite]

theorem Outcome.map_eq_crashed_iff {α β : Type} {g : α → β} {o : Outcome α} : o.map g = .crashed ↔ o = .crashed := by
  cases o <;> simp [Outcome.map]

theorem Config.isNonNegative_noiseAmplitude {c : Config} (h : c.violation? = none) :
    isNonNegative c.noiseAmplitude = true :=
  violation?_eq_none_iff.1 h (isNonNegative c.noiseAmplitude, .notNonNegative "sensor.noise_amplitude" c.noiseAmplitude)
    (by simp [conditions])

theorem Validator.assess_ne_none {v : Validator} {metric : String} {t : Nat}
    (h : ∀ n ∈ [v.alpha, v.beta, v.gamma], ∀ p, n.sensor.read p ≠ none) : v.assess metric t ≠ none := by
  obtain ⟨a, ha⟩ := Option.ne_none_iff_exists'.1 (h v.alpha (by simp) ⟨v.alpha.id, v.alpha.coherence, metric, t⟩)
  obtain ⟨b, hb⟩ := Option.ne_none_iff_exists'.1 (h v.beta (by simp) ⟨v.beta.id, v.beta.coherence, metric, t + 1⟩)
  obtain ⟨c, hc⟩ := Option.ne_none_iff_exists'.1 (h v.gamma (by simp) ⟨v.gamma.id, v.gamma.coherence, metric, t + 2⟩)
  simp [assess, snapshot, Node.measure, ha, hb, hc]

namespace Mesh

variable {m : Mesh} {n : Node} {i : NodeId} {msg : Message} {sender : Option NodeId} {f : Fanout}

/-- Where a vote crashes, a sensor of a registered node does. -/
theorem ballot_ne_crashed (hn : n ∈ m.registry.nodes)
    (h : ∀ k ∈ m.registry.nodes, ∀ p, k.sensor.read p ≠ none) : m.ballot n ≠ .crashed := by
  unfold ballot
  split
  case h_1 b c rest hneighbors =>
    have hregistered : ∀ k ∈ m.registry.neighborsOf n, k ∈ m.registry.nodes := fun k hk =>
      Registry.mem_nodes_of_find? (Registry.find?_of_mem_neighborsOf hk)
    have hb := hregistered b (by simp [hneighbors])
    have hc := hregistered c (by simp [hneighbors])
    have hround : m.round? n b c ≠ none := by
      apply Validator.assess_ne_none
      intro k hk
      simp only [List.mem_cons, List.not_mem_nil, or_false] at hk
      rcases hk with rfl | rfl | rfl
      · exact h _ hn
      · exact h _ hb
      · exact h _ hc
    split
    case h_1 hnone => exact absurd hnone hround
    case h_2 => split <;> exact Fate.noConfusion
  case h_2 => exact Fate.noConfusion

theorem outcome_eq_crashed {fate : Fate} {d : Digest} (h : fate.outcome n d = .crashed) : fate = .crashed := by
  cases fate with
  | crashed => rfl
  | _ => cases h

/-- A message crashes only after it has passed the gate, and only if some sensor crashes. -/
theorem receive_ne_crashed (h : m.gate.check m.suite msg = .ok () →
      ∀ k ∈ m.registry.nodes, ∀ p, k.sensor.read p ≠ none) : (m.receive i msg sender).2 ≠ .crashed := by
  intro hcrash
  cases hn : m.registry.find? i with
  | none =>
    rw [receive_of_unknown hn] at hcrash
    cases hcrash
  | some n =>
    rw [(receive_spec msg sender hn).1, fate] at hcrash
    cases hbarred : m.barred? n msg with
    | some fate =>
      obtain ⟨e, -, hrefused, -⟩ := screen_of_barred hbarred
      rw [hbarred, Option.getD_some, hrefused] at hcrash
      cases hcrash
    | none =>
      rw [hbarred, Option.getD_none] at hcrash
      obtain ⟨-, hgate⟩ := barred?_eq_none_iff.1 hbarred
      exact ballot_ne_crashed (Registry.mem_nodes_of_find? hn) (h hgate) (outcome_eq_crashed hcrash)

/-- A vote crashes if the sensor of the node itself does. -/
theorem receive_crashed {b c : Node} {rest : List Node} (hn : m.registry.find? i = some n)
    (hunseen : n.hasSeen (msg.id m.suite) = false) (hgate : m.gate.check m.suite msg = .ok ())
    (hneighbors : m.registry.neighborsOf n = b :: c :: rest) (hcrashes : ∀ p, n.sensor.read p = none) :
    (m.receive i msg sender).2 = .crashed := by
  have hround : m.round? n b c = none := by
    simp [round?, Validator.assess, Validator.snapshot, Node.measure, hcrashes]
  have hballot : m.ballot n = .crashed := by
    rw [ballot, hneighbors]
    dsimp only
    rw [hround]
  rw [(receive_spec msg sender hn).1, fate, barred?_eq_none_iff.2 ⟨hunseen, hgate⟩, Option.getD_none, hballot]
  rfl

theorem advance_ne_crashed (m : Mesh) (f : Fanout) : (m.advance f).2 ≠ .crashed := by
  unfold advance
  split
  · simp
  case h_2 target rest hrest =>
    rcases m.propagator.submit_cases ⟨f.source, target, f.message⟩ with h | h | ⟨-, h⟩
    all_goals simp [h, Outcome.map]

theorem fanOut_ne_crashed (rounds steps : Nat) (m : Mesh) (f : Fanout) :
    (m.fanOut rounds steps f).2 ≠ .crashed := by
  induction steps generalizing m f with
  | zero => simp [fanOut]
  | succ steps ih =>
    have hadvance := m.advance_ne_crashed f
    rw [fanOut]
    split
    case isTrue => simp
    case isFalse =>
      split
      case h_1 => exact ih _ _
      case h_2 => simp
      case h_3 hcrash => simp [hcrash] at hadvance
      case h_4 => exact ih _ _

theorem provision_ne_crashed (seed : Bytes) (coherence : Binary64) (hroom : m.config.seenCapacity ≤ SeenSet.sizeLimit) :
    (m.provision seed i coherence).2 ≠ .crashed := by
  unfold provision obtainKeys
  cases (KeySource.seeded seed i).keys m.suite with
  | error e => simp
  | ok k =>
    dsimp only
    have hcreate : ∀ rs sensor, ({ m with records := rs } : Mesh).create i k coherence sensor ≠ .crashed :=
      fun rs sensor hcrash => Nat.not_lt_of_le hroom (create_eq_crashed_iff.1 hcrash).2
    split
    case h_1 => simp
    case h_2 =>
      rw [ne_eq, Outcome.map_eq_crashed_iff]
      exact hcreate _ _

/-- A gossip never crashes, as the votes that might crash are left to the deliveries. -/
theorem gossip_ne_crashed (m : Mesh) (rounds : Nat) (i : NodeId) (msg : Message) :
    (m.gossip rounds i msg).2 ≠ .crashed := by
  unfold gossip
  split
  · simp
  · exact fanOut_ne_crashed _ _ _ _

end Mesh

namespace Deployment

variable {d : Deployment} {s : Suite} {config : Config} {sink : Sink} {noise : Nat → Binary64} {m : Mesh}

/-- An action ends in a crash, of the call or of the delivery. All others answer with a value or a refusal. -/
def Crashes (d : Deployment) : Action → Prop
  | .create i keys coherence sensor => d.mesh.create i keys coherence sensor = .crashed
  | .provision seed i coherence => (d.mesh.provision seed i coherence).2 = .crashed
  | .measure i metric => (d.mesh.measure i metric).2 = .crashed
  | .gossip i msg => ∃ rounds, (d.mesh.gossip rounds i msg).2 = .crashed
  | .advance k => ∃ f, d.fanouts[k]? = some f ∧ (d.mesh.advance f).2 = .crashed
  | .receive i msg => (d.mesh.receive i msg none).2 = .crashed
  | .deliver k => ∃ f, d.mesh.propagator.running[k]? = some f ∧
      (d.mesh.receive f.target f.message (some f.source)).2 = .crashed
  | _ => False

/-- The nodes that a run creates have sensors of the configured amplitude, as those that it provisions do. -/
def OwnSensors (config : Config) (acts : List Action) : Prop :=
  ∀ i keys coherence sensor, .create i keys coherence sensor ∈ acts →
    ∃ noise, sensor = .noisy config.noiseAmplitude noise

/-- A mesh with this configuration starts, and however it is used, nothing crashes. Left out are the readings that a
caller takes of a sensor without a vote. -/
def Runs (s : Suite) (config : Config) (sink : Sink) (noise : Nat → Binary64) : Prop :=
  ∃ m, Mesh.start s config sink noise true = .ok m ∧
    ∀ acts, OwnSensors config acts → ∀ a, (∀ i metric, a ≠ .measure i metric) →
      ¬Crashes ((ofMesh m).run acts) a

/-- With room for the memories nothing crashes as long as no sensor does, or no message passes the gate. -/
theorem not_crashes {a : Action} (hmeasure : ∀ i metric, a ≠ .measure i metric)
    (hroom : d.mesh.config.seenCapacity ≤ SeenSet.sizeLimit)
    (h : ∀ msg, d.mesh.gate.check d.mesh.suite msg = .ok () →
      ∀ k ∈ d.mesh.registry.nodes, ∀ p, k.sensor.read p ≠ none) : ¬Crashes d a := by
  cases a with
  | create i keys coherence sensor =>
    exact fun hcrash => Nat.not_lt_of_le hroom (Mesh.create_eq_crashed_iff.1 hcrash).2
  | provision seed i coherence => exact Mesh.provision_ne_crashed seed coherence hroom
  | measure i metric => exact absurd rfl (hmeasure i metric)
  | gossip i msg =>
    rintro ⟨rounds, hcrash⟩
    exact d.mesh.gossip_ne_crashed rounds i msg hcrash
  | advance k =>
    rintro ⟨f, -, hcrash⟩
    exact d.mesh.advance_ne_crashed f hcrash
  | receive i msg => exact Mesh.receive_ne_crashed (h msg)
  | deliver k =>
    rintro ⟨f, -, hcrash⟩
    exact Mesh.receive_ne_crashed (h f.message) hcrash
  | _ => exact id

theorem OwnSensors.noisy (hstart : Mesh.start s config sink noise true = .ok m) {acts : List Action}
    (h : OwnSensors config acts) :
    ∀ i n, ((ofMesh m).run acts).node? i = some n → ∃ noise, n.sensor = .noisy config.noiseAmplitude noise := by
  have hsound := sound_start hstart
  have hm := start_eq_ok hstart
  apply hsound.sensors_run (P := fun sensor => ∃ noise, sensor = .noisy config.noiseAmplitude noise)
  · intro i n hn
    rw [hm] at hn
    cases hn
  · intro pre a post hsplit sensor hsensor
    cases a with
    | create i keys coherence sensor' =>
      cases hsensor
      exact h i keys coherence sensor (by simp [hsplit])
    | provision seed i coherence =>
      have hconfig : ((ofMesh m).run pre).mesh.config = config := by
        rw [(hsound.settings_run pre).2, ofMesh, hm]
      cases hsensor
      exact ⟨_, by rw [Mesh.defaultSensor, hconfig]⟩
    | _ => cases hsensor

theorem step_create_of_new {i : NodeId} (keys : KeyPair) {coherence : Binary64} (sensor : Sensor)
    (hcoherence : Config.inUnitInterval coherence = true) (hroom : d.mesh.config.seenCapacity ≤ SeenSet.sizeLimit)
    (hnew : d.node? i = none) :
    ∃ n, n.id = i ∧ n.Fresh d.mesh.config.seenCapacity sensor ∧
      (d.step (.create i keys coherence sensor)).mesh.registry.nodes = d.mesh.registry.nodes ++ [n] ∧
      (d.step (.create i keys coherence sensor)).mesh.config = d.mesh.config := by
  obtain ⟨rs, hcreate⟩ := Mesh.create_of_new keys sensor hcoherence hroom hnew
  refine ⟨d.mesh.newcomer i keys coherence sensor, rfl, ⟨rfl, rfl, rfl, rfl⟩, ?_⟩
  rw [step, hcreate]
  exact ⟨Registry.nodes_push (n := d.mesh.newcomer i keys coherence sensor) hnew, rfl⟩

/-- Nodes with new ids are all taken in, one after the other. -/
theorem run_create_of_new (keys : KeyPair) {coherence : Binary64} (sensor : Sensor) {ids : List NodeId}
    (hcoherence : Config.inUnitInterval coherence = true) (hroom : d.mesh.config.seenCapacity ≤ SeenSet.sizeLimit)
    (hids : (d.mesh.registry.ids ++ ids).Nodup) :
    ∃ ns, ns.map (·.id) = ids ∧ (∀ n ∈ ns, n.neighbors = [] ∧ n.seen.order = []) ∧
      (d.run (ids.map fun i => .create i keys coherence sensor)).mesh.registry.nodes =
        d.mesh.registry.nodes ++ ns := by
  induction ids generalizing d with
  | nil => exact ⟨[], rfl, by simp, (List.append_nil _).symm⟩
  | cons i ids ih =>
    obtain ⟨n, rfl, hfresh, hnodes, hconfig⟩ :=
      step_create_of_new keys sensor hcoherence hroom (Registry.find?_of_nodup hids)
    obtain ⟨ns, hns, hothers, hrest⟩ := ih (by rwa [hconfig]) (Registry.nodup_ids_append hnodes hids)
    refine ⟨n :: ns, by rw [List.map_cons, hns], ?_, ?_⟩
    · rw [List.forall_mem_cons]
      exact ⟨⟨hfresh.neighbors, by rw [hfresh.seen]; rfl⟩, hothers⟩
    · rw [List.map_cons, run_cons, hrest, hnodes, List.append_assoc]
      rfl

theorem step_connect_of_registered {source target : NodeId} (hne : source ≠ target)
    (hsource : (d.node? source).isSome = true) (htarget : (d.node? target).isSome = true) :
    (d.step (.connect source target)).mesh.registry.nodes =
      d.mesh.registry.nodes.map (Registry.only source fun k => (k.addNeighbor target).1) := by
  obtain ⟨n, hn⟩ := Option.isSome_iff_exists.1 hsource
  obtain ⟨n', hn'⟩ := Option.isSome_iff_exists.1 htarget
  rw [step, Mesh.connect, Registry.connect_of_registered hne hn hn']
  exact Registry.nodes_update fun k => (k.keeps_addNeighbor target).id

/-- Three nodes, the first of them with the other two as its neighbors. -/
def threesome (coherence : Binary64) (sensor : Sensor) : List Action :=
  [.create "a" ⟨default, []⟩ coherence sensor, .create "b" ⟨default, []⟩ coherence sensor,
    .create "c" ⟨default, []⟩ coherence sensor, .connect "a" "b", .connect "a" "c"]

theorem threesome_eq (coherence : Binary64) (sensor : Sensor) : threesome coherence sensor =
    (["a", "b", "c"].map fun i => .create i ⟨default, []⟩ coherence sensor) ++
      [.connect "a" "b", .connect "a" "c"] := rfl

/-- They come to be like this in any mesh without nodes. -/
theorem nodes_threesome {coherence : Binary64} (hunit : Config.inUnitInterval coherence = true)
    (hroom : d.mesh.config.seenCapacity ≤ SeenSet.sizeLimit) (hempty : d.mesh.registry = .empty) (sensor : Sensor) :
    ∃ a b c, (d.run (threesome coherence sensor)).mesh.registry.nodes = [a, b, c] ∧ a.id = "a" ∧ b.id = "b" ∧
      c.id = "c" ∧ a.neighbors = ["b", "c"] ∧ a.seen.order = [] := by
  have hids : (d.mesh.registry.ids ++ ["a", "b", "c"]).Nodup := by
    rw [hempty]
    decide
  obtain ⟨ns, hns, hfresh, hnodes⟩ := run_create_of_new ⟨default, []⟩ sensor hunit hroom hids
  obtain ⟨a, b, c, rfl, ha, hb, hc⟩ : ∃ a b c, ns = [a, b, c] ∧ a.id = "a" ∧ b.id = "b" ∧ c.id = "c" := by
    simpa [List.map_eq_cons_iff] using hns
  rw [hempty, Registry.nodes_empty, List.nil_append] at hnodes
  obtain ⟨hneighbors, hmemory⟩ := hfresh a List.mem_cons_self
  rw [threesome_eq, run_append]
  generalize d.run (["a", "b", "c"].map fun i => .create i ⟨default, []⟩ coherence sensor) = d₁ at hnodes ⊢
  -- Both connections change the first node only.
  have hfirst : ∀ (d : Deployment) (i : NodeId), d.node? i = d.mesh.registry.nodes.find? (·.id == i) :=
    fun d i => d.mesh.registry.find?_eq_find? i
  have hconnected : (d₁.step (.connect "a" "b")).mesh.registry.nodes = [(a.addNeighbor "b").1, b, c] := by
    rw [step_connect_of_registered (by decide) (by simp [hfirst, hnodes, ha])
      (by simp [hfirst, hnodes, ha, hb]), hnodes]
    simp [Registry.only, ha, hb, hc]
  have ha' : (a.addNeighbor "b").1.id = "a" := (a.keeps_addNeighbor "b").id.trans ha
  refine ⟨((a.addNeighbor "b").1.addNeighbor "c").1, b, c, ?_, ?_, hb, hc, ?_, ?_⟩
  · rw [run_cons, run_cons, run_nil, step_connect_of_registered (by decide) (by simp [hfirst, hconnected, ha'])
      (by simp [hfirst, hconnected, ha', hb, hc]), hconnected]
    simp [Registry.only, ha', hb, hc]
  · exact (Node.keeps_addNeighbor _ "c").id.trans ha'
  · simp [Node.addNeighbor, hneighbors]
  · rw [(Node.keeps_addNeighbor _ "c").seen, (a.keeps_addNeighbor "b").seen, hmemory]

theorem sizes_of_start {runtime : Bool} (h : Mesh.start s config sink noise runtime = .ok m) :
    config.queueCapacity ≤ Propagator.sizeLimit ∧ config.maxInFlight ≤ Propagator.sizeLimit := by
  unfold Mesh.start at h
  split at h
  case h_1 => cases h
  case h_2 =>
    unfold Propagator.start at h
    split at h
    · cases h
    · split at h
      · cases h
      case isFalse hsizes => omega

/-- If twice the amplitude overflows, a message that passes the gate makes three nodes with their own sensors
crash. -/
theorem exists_crash {coherence : Binary64} (hunit : Config.inUnitInterval coherence = true)
    (hstart : Mesh.start s config sink noise true = .ok m) (hroom : config.seenCapacity ≤ SeenSet.sizeLimit)
    (hoverflow : (config.noiseAmplitude + config.noiseAmplitude).isFinite = false)
    (hvalid : config.violation? = none) {msg : Message}
    (hpasses : (⟨config.qualityFloor⟩ : Gate).check s msg = .ok ()) :
    ∃ acts, OwnSensors config acts ∧ ∃ i, Crashes ((ofMesh m).run acts) (.receive i msg) := by
  have hm := start_eq_ok hstart
  have hempty : (ofMesh m).mesh.registry = .empty := by rw [ofMesh, hm]
  have hcapacity : (ofMesh m).mesh.config.seenCapacity ≤ SeenSet.sizeLimit := by rwa [ofMesh, hm]
  obtain ⟨n, b, c, hnodes, ha, hb, hc, hneighbors, hmemory⟩ :=
    nodes_threesome hunit hcapacity hempty (.noisy config.noiseAmplitude noise)
  have hown : OwnSensors config (threesome coherence (.noisy config.noiseAmplitude noise)) := by
    intro i keys coherence' sensor hmem
    simp only [threesome, List.mem_cons, List.not_mem_nil, or_false, Action.create.injEq, reduceCtorEq] at hmem
    rcases hmem with ⟨-, -, -, h⟩ | ⟨-, -, -, h⟩ | ⟨-, -, -, h⟩
    all_goals exact ⟨noise, h⟩
  generalize threesome coherence (.noisy config.noiseAmplitude noise) = acts at hnodes hown
  have hfirst : ∀ i, ((ofMesh m).run acts).mesh.registry.find? i = [n, b, c].find? (·.id == i) := fun i => by
    rw [Registry.find?_eq_find?, hnodes]
  have hn : ((ofMesh m).run acts).mesh.registry.find? "a" = some n := by simp [hfirst, ha]
  obtain ⟨noise', hsensor⟩ := hown.noisy hstart "a" n hn
  have hcrashes : ∀ p, n.sensor.read p = none := fun p => by
    rw [hsensor, Sensor.read_noisy_eq_none_iff (Config.isNonNegative_noiseAmplitude hvalid)]
    exact hoverflow
  obtain ⟨hsuite, hconfig⟩ := (sound_start hstart).settings_run acts
  have hgate : ((ofMesh m).run acts).mesh.gate.check ((ofMesh m).run acts).mesh.suite msg = .ok () := by
    rw [Mesh.gate, hsuite, hconfig, ofMesh, hm]
    exact hpasses
  have hunseen : n.hasSeen (msg.id ((ofMesh m).run acts).mesh.suite) = false := by
    rw [Node.hasSeen, ← Bool.not_eq_true, SeenSet.contains_iff, hmemory]
    exact List.not_mem_nil
  have htriad : ((ofMesh m).run acts).mesh.registry.neighborsOf n = [b, c] := by
    simp [Registry.neighborsOf, hneighbors, hfirst, ha, hb, hc]
  exact ⟨acts, hown, "a", Mesh.receive_crashed hn hunseen hgate htriad hcrashes⟩

/-- A valid configuration runs if and only if both sizes of the propagator and the capacity of the memories are within
their limits and, where any message passes the gate at all, twice the amplitude is finite. -/
theorem runs_iff (s : Suite) (sink : Sink) (noise : Nat → Binary64) (hvalid : config.violation? = none) :
    Runs s config sink noise ↔
      config.queueCapacity ≤ Propagator.sizeLimit ∧ config.maxInFlight ≤ Propagator.sizeLimit ∧
        config.seenCapacity ≤ SeenSet.sizeLimit ∧
        ((∃ msg, (⟨config.qualityFloor⟩ : Gate).check s msg = .ok ()) →
          (config.noiseAmplitude + config.noiseAmplitude).isFinite = true) := by
  constructor
  · rintro ⟨m, hstart, hcalm⟩
    obtain ⟨hqueue, hflight⟩ := sizes_of_start hstart
    have hm := start_eq_ok hstart
    have hunit : Config.inUnitInterval 0 = true := by decide +kernel
    have hroom : config.seenCapacity ≤ SeenSet.sizeLimit := by
      by_contra hsmall
      have hbeyond : SeenSet.sizeLimit < (ofMesh m).mesh.config.seenCapacity := by
        rw [ofMesh, hm]
        exact Nat.lt_of_not_le hsmall
      let sensor := Sensor.noisy config.noiseAmplitude noise
      exact hcalm [] (fun _ _ _ _ hmem => (List.not_mem_nil hmem).elim) (.create "a" ⟨default, []⟩ 0 sensor)
        (fun _ _ => Action.noConfusion) (Mesh.create_eq_crashed_iff.2 ⟨hunit, hbeyond⟩)
    refine ⟨hqueue, hflight, hroom, ?_⟩
    rintro ⟨msg, hpasses⟩
    by_contra hoverflow
    obtain ⟨acts, hown, i, hcrash⟩ :=
      exists_crash hunit hstart hroom (Bool.not_eq_true _ ▸ hoverflow) hvalid hpasses
    exact hcalm acts hown (.receive i msg) (fun _ _ => Action.noConfusion) hcrash
  · rintro ⟨hqueue, hflight, hroom, hfinite⟩
    have hstart := start_of_valid s sink noise hvalid hqueue hflight
    refine ⟨_, hstart, fun acts hown a hmeasure => ?_⟩
    obtain ⟨hsuite, hconfig⟩ := (sound_start hstart).settings_run acts
    apply not_crashes hmeasure
    · rw [hconfig]
      exact hroom
    · intro msg hgate k hk p hread
      rw [Mesh.gate, hsuite, hconfig] at hgate
      have hfound := node?_eq_some_iff.2 ⟨hk, rfl⟩
      obtain ⟨noise', hsensor⟩ := hown.noisy hstart k.id k hfound
      rw [hsensor, Sensor.read_noisy_eq_none_iff (Config.isNonNegative_noiseAmplitude hvalid)] at hread
      rw [hfinite ⟨msg, hgate⟩] at hread
      cases hread

/-- The defaults run. -/
theorem runs_iff_default :
    Config.default.violation? = none ∧ Runs Sample.suite Config.default .listener (fun _ => 0) := by
  have hvalid : Config.default.violation? = none := by decide +kernel
  exact ⟨hvalid, (runs_iff Sample.suite .listener (fun _ => 0) hvalid).2
    ⟨by decide +kernel, by decide +kernel, by decide +kernel, fun _ => by decide +kernel⟩⟩

/-- A queue may be valid and yet too long for the propagator. -/
theorem not_runs_valid :
    ¬∀ config : Config, config.violation? = none → ∀ s sink noise, Runs s config sink noise := by
  intro hruns
  let config := { Config.default with queueCapacity := Propagator.sizeLimit + 1 }
  obtain ⟨m, hstart, -⟩ := hruns config (by decide +kernel) Sample.suite .listener fun _ => 0
  have hqueue : Propagator.sizeLimit + 1 ≤ Propagator.sizeLimit := (sizes_of_start hstart).1
  omega

end Deployment

end TriadMesh
