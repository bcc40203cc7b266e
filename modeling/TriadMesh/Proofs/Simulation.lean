import TriadMesh.Proofs.Gate
import TriadMesh.Proofs.Settlement

/-!
# The outcome of the simulation

Without noise and without a node that lies, the simulation builds three equal nodes. So what it reports of its one
message depends on nothing but the coherence of the nodes and the two thresholds (`simulation_outcome`).
-/

namespace TriadMesh

theorem ok_of_bind {ε α β : Type} {x : Except ε α} {f : α → Except ε β} {b : β} (h : (x >>= f) = .ok b) :
    ∃ a, x = .ok a ∧ f a = .ok b := by
  cases x with
  | error e => cases h
  | ok a => exact ⟨a, rfl, h⟩

theorem Config.violation?_of_ofFile {bytes : Option Bytes} {c : Config} (h : ofFile bytes = .ok c) :
    c.violation? = none := by
  unfold ofFile at h
  split at h
  case h_1 => cases h
  case h_2 =>
    split at h
    case h_1 => cases h
    case h_2 =>
      unfold ofToml at h
      split at h
      case h_1 => cases h
      case h_2 =>
        split at h
        case h_1 => cases h
        case h_2 hvalid =>
          cases h
          exact hvalid

theorem ok_of_toOption {ε α : Type} {x : Except ε α} {a : α} (h : x.toOption = some a) : x = .ok a := by
  cases x with
  | error e => cases h
  | ok a' =>
    cases h
    rfl

namespace Sample

def noiselessConfig : Config := { Config.default with noiseAmplitude := 0 }

/-- A configuration that says nothing but that there is no noise. -/
def noiselessEnvironment : Simulation.Environment :=
  ⟨suite, none, fun _ => some (Bytes.ofText "[sensor]\nnoise_amplitude = 0\n"), 0, fun _ _ => 0⟩

def noiselessOptions : Simulation.Options := { Simulation.Options.default with config := some "noiseless.toml" }

theorem regular_suite : suite.Regular where
  publicKey _ := Vector.length_toList
  sign _ _ := List.length_replicate
  decodes _ _ _ _ := rfl

end Sample

namespace Mesh

variable {m : Mesh} {id : NodeId} {seed : Bytes} {coherence : Binary64}

/-- The node that is taken in for an id with keys derived from a seed. -/
def provisioned (m : Mesh) (seed : Bytes) (id : NodeId) (coherence : Binary64) : Node :=
  m.newcomer id (.ofSecret m.suite (m.suite.deriveKey seededContext (seedMaterial seed id))) coherence m.defaultSensor

theorem obtainKeys_seeded (m : Mesh) (seed : Bytes) (hid : id ≠ "") :
    ∃ rs, m.obtainKeys (.seeded seed id) =
      ({ m with records := rs },
        .ok (.ofSecret m.suite (m.suite.deriveKey seededContext (seedMaterial seed id)))) := by
  rw [obtainKeys, KeySource.keys, if_neg hid]
  exact ⟨_, rfl⟩

theorem provision_of_new (m : Mesh) (seed : Bytes) (hid : id ≠ "") (hunit : Config.inUnitInterval coherence = true)
    (hroom : m.config.seenCapacity ≤ SeenSet.sizeLimit) (hnew : m.registry.find? id = none) :
    ∃ r rs, r.nodes = m.registry.nodes ++ [m.provisioned seed id coherence] ∧
      m.provision seed id coherence =
        ({ m with registry := r, records := rs }, .ok (m.provisioned seed id coherence)) := by
  obtain ⟨rs, hkeys⟩ := m.obtainKeys_seeded seed hid
  rw [provision, hkeys]
  dsimp only
  obtain ⟨rs', hcreate⟩ := create_of_new (m := { m with records := rs }) _ _ hunit hroom hnew
  rw [hcreate]
  exact ⟨_, rs', Registry.nodes_push (n := m.provisioned seed id coherence) hnew, rfl⟩

/-- A node whose coherence is not from 0 to 1 is not taken in. -/
theorem provision_of_outside (m : Mesh) (seed : Bytes) (hid : id ≠ "")
    (hunit : ¬Config.inUnitInterval coherence = true) :
    (m.provision seed id coherence).2 = .refused (.invalidCoherence coherence) := by
  obtain ⟨rs, hkeys⟩ := m.obtainKeys_seeded seed hid
  rw [provision, hkeys]
  dsimp only
  rw [create_of_outside hunit]
  rfl

theorem link_of_registered {a b : NodeId} (hne : a ≠ b) (ha : a ∈ m.registry.ids) (hb : b ∈ m.registry.ids) :
    m.link a b = .ok
      ((m.update a fun k => (k.addNeighbor b).1).update b fun k => (k.addNeighbor a).1) := by
  have hid : ∀ k : Node, (k.addNeighbor b).1.id = k.id := fun k => (k.keeps_addNeighbor b).id
  obtain ⟨n, hn⟩ := Option.isSome_iff_exists.1 (Registry.find?_isSome_iff.2 ha)
  obtain ⟨n', hn'⟩ := Option.isSome_iff_exists.1 (Registry.find?_isSome_iff.2 hb)
  have hback := Registry.connect_of_registered (Ne.symm hne)
    ((Registry.find?_update_of_ne hid (Ne.symm hne)).trans hn') (Registry.find?_update_self hid hn)
  rw [link, Registry.link, Registry.connect_of_registered hne hn hn']
  simp only [bind, Except.bind, hback]
  rfl

end Mesh

namespace Simulation

open Deployment

variable {env : Environment} {o : Options} {config : Config} {m m' : Mesh} {r : Registry} {rs : List Record}
  {i : NodeId} {ids : List NodeId}

/-! ## Building -/

/-- A node of the simulation before it is linked. -/
def member (o : Options) (m : Mesh) (i : NodeId) : Node := m.provisioned (Bytes.ofText o.seed) i o.coherence

/-- The nodes of the simulation, each a neighbor of the other two. -/
def Triangle (o : Options) (m : Mesh) (r : Registry) : Prop :=
  r.nodes = nodeIds.map fun i => { member o m i with neighbors := others i }

theorem link_eq_ok {a b : NodeId} (h : link m a b = .ok m') : m.link a b = .ok m' := by
  rw [link] at h
  cases hlink : m.link a b with
  | error e =>
    rw [hlink] at h
    cases h
  | ok m₁ =>
    rw [hlink] at h
    cases h
    rfl

theorem link_of_registered {a b : NodeId} (hne : a ≠ b) (ha : a ∈ m.registry.ids) (hb : b ∈ m.registry.ids) :
    link m a b = .ok ((m.update a fun k => (k.addNeighbor b).1).update b fun k => (k.addNeighbor a).1) := by
  rw [link, Mesh.link_of_registered hne ha hb]
  rfl

section Honest

variable (hhonest : o.byzantine = false)

include hhonest

theorem addNode_eq : addNode o m i =
    ofOutcome ((m.provision (Bytes.ofText o.seed) i o.coherence).2.map
      fun _ => (m.provision (Bytes.ofText o.seed) i o.coherence).1) := by
  rw [addNode, hhonest, Bool.false_and, if_neg Bool.false_ne_true]

theorem addNodes_of_new (m : Mesh) (rs : List Record) (hunit : Config.inUnitInterval o.coherence = true)
    (hroom : m.config.seenCapacity ≤ SeenSet.sizeLimit) (hnames : ∀ i ∈ ids, i ≠ "") (hids : (r.ids ++ ids).Nodup) :
    ∃ r' rs', r'.nodes = r.nodes ++ ids.map (member o m) ∧
      ids.foldlM (addNode o) { m with registry := r, records := rs } =
        .ok { m with registry := r', records := rs' } := by
  induction ids generalizing r rs with
  | nil => exact ⟨r, rs, (List.append_nil _).symm, rfl⟩
  | cons i ids ih =>
    rw [List.forall_mem_cons] at hnames
    obtain ⟨r₁, rs₁, hnodes, hprovision⟩ := Mesh.provision_of_new { m with registry := r, records := rs }
      (Bytes.ofText o.seed) hnames.1 hunit hroom (Registry.find?_of_nodup hids)
    obtain ⟨r₂, rs₂, hnodes', hrest⟩ := ih rs₁ hnames.2 (Registry.nodup_ids_append hnodes hids)
    refine ⟨r₂, rs₂, ?_, ?_⟩
    · rw [hnodes', hnodes, List.append_assoc]
      rfl
    · rw [List.foldlM_cons, addNode_eq hhonest, hprovision]
      exact hrest

theorem build_ok (hunit : Config.inUnitInterval o.coherence = true)
    (hroom : m.config.seenCapacity ≤ SeenSet.sizeLimit) (hempty : m.registry = .empty) :
    ∃ r rs, Triangle o m r ∧ build o m = .ok { m with registry := r, records := rs } := by
  obtain ⟨r, rs, hnodes, hfold⟩ := addNodes_of_new hhonest m m.records hunit hroom
    (show ∀ i ∈ nodeIds, i ≠ "" by decide) (show (Registry.empty.ids ++ nodeIds).Nodup by decide)
  rw [← hempty] at hfold
  rw [Registry.nodes_empty, List.nil_append] at hnodes
  have hids : r.ids = nodeIds := by
    rw [← Registry.map_id_nodes, hnodes]
    rfl
  -- To link nodes leaves the ids as they are.
  have hmem : ∀ i ∈ nodeIds, i ∈ r.ids := fun i hi => hids.symm ▸ hi
  let m₁ : Mesh := { m with registry := r, records := rs }
  let m₂ := (m₁.update "Alpha" fun k => (k.addNeighbor "Beta").1).update "Beta" fun k => (k.addNeighbor "Alpha").1
  let m₃ := (m₂.update "Alpha" fun k => (k.addNeighbor "Gamma").1).update "Gamma" fun k => (k.addNeighbor "Alpha").1
  let m₄ := (m₃.update "Beta" fun k => (k.addNeighbor "Gamma").1).update "Gamma" fun k => (k.addNeighbor "Beta").1
  have h₁ : link m₁ "Alpha" "Beta" = .ok m₂ :=
    link_of_registered (by decide) (hmem _ (by decide)) (hmem _ (by decide))
  have h₂ : link m₂ "Alpha" "Gamma" = .ok m₃ :=
    link_of_registered (by decide) (hmem _ (by decide)) (hmem _ (by decide))
  have h₃ : link m₃ "Beta" "Gamma" = .ok m₄ :=
    link_of_registered (by decide) (hmem _ (by decide)) (hmem _ (by decide))
  refine ⟨m₄.registry, rs, ?_, ?_⟩
  · have hid : ∀ (i : NodeId) (k : Node), (k.addNeighbor i).1.id = k.id := fun i k => (k.keeps_addNeighbor i).id
    simp only [Triangle, m₄, m₃, m₂, m₁, Mesh.update, Registry.nodes_update (hid _), hnodes]
    rfl
  · simp only [build, hfold, bind, Except.bind]
    rw [h₁]
    simp only [h₂]
    exact h₃

theorem addNodes_run (h : ids.foldlM (addNode o) m = .ok m') :
    (ofMesh m).run (ids.map fun i => .provision (Bytes.ofText o.seed) i o.coherence) = ofMesh m' := by
  induction ids generalizing m with
  | nil =>
    cases h
    rfl
  | cons i ids ih =>
    rw [List.foldlM_cons, addNode_eq hhonest] at h
    rw [List.map_cons, run_cons, step, ofMesh]
    cases hprovision : m.provision (Bytes.ofText o.seed) i o.coherence with
    | mk m₁ answer =>
      rw [hprovision] at h
      cases answer with
      | ok n => exact ih h
      | _ => cases h

/-- To build the simulation takes nothing but actions. -/
theorem reachable_build (hm : Reachable (ofMesh m)) (h : build o m = .ok m') : Reachable (ofMesh m') := by
  have hlink : ∀ {m m' : Mesh} {a b : NodeId}, Reachable (ofMesh m) → link m a b = .ok m' → Reachable (ofMesh m') := by
    intro m m' a b hm h
    have hstep : (ofMesh m).step (.link a b) = ofMesh m' := by
      rw [step, ofMesh, link_eq_ok h]
      rfl
    exact hstep ▸ hm.step (.link a b)
  obtain ⟨m₁, hnodes, h⟩ := ok_of_bind h
  obtain ⟨m₂, h₁, h⟩ := ok_of_bind h
  obtain ⟨m₃, h₂, h₃⟩ := ok_of_bind h
  have hm₁ : Reachable (ofMesh m₁) := addNodes_run hhonest hnodes ▸ hm.run _
  exact hlink (hlink (hlink hm₁ h₁) h₂) h₃

/-- Without a coherence from 0 to 1 there is not even a first node. -/
theorem build_of_outside (hunit : ¬Config.inUnitInterval o.coherence = true) :
    build o m = .error (.mesh (.invalidCoherence o.coherence)) := by
  have hrefused := m.provision_of_outside (Bytes.ofText o.seed) (show "Alpha" ≠ "" by decide) hunit
  have hfirst : addNode o m "Alpha" = .error (.mesh (.invalidCoherence o.coherence)) := by
    rw [addNode_eq hhonest, hrefused]
    rfl
  rw [build, nodeIds, List.foldlM_cons, hfirst]
  rfl

end Honest

theorem Triangle.find? (h : Triangle o m r) : ∀ i ∈ nodeIds,
    r.find? i = some { member o m i with neighbors := others i } := by
  have hnodes : r.nodes = nodeIds.map fun i => { member o m i with neighbors := others i } := h
  rw [nodeIds, List.forall_mem_cons, List.forall_mem_cons, List.forall_mem_singleton]
  simp only [Registry.find?_eq_find?, hnodes]
  exact ⟨rfl, rfl, rfl⟩

/-- A sensor without noise reads the coherence. -/
theorem read_noisy_of_isZero {amplitude : Binary64} {noise : Nat → Binary64} (h : amplitude.isZero = true) (p : Probe) :
    (Sensor.noisy amplitude noise).read p = some p.coherence := by
  rw [Sensor.noisy]
  dsimp only
  rw [if_pos (Binary64.isZero_abs h)]

/-- Before the gossip the three nodes are equal. -/
theorem Triangle.stand (h : Triangle o m r) (s : Suite) (msg : Message)
    (hzero : m.config.noiseAmplitude.isZero = true) : Stand s o.coherence msg ∅ r := by
  intro i hi
  refine ⟨_, h.find? i hi, ?_⟩
  exact {
    neighbors := rfl
    coherence := rfl
    reads := read_noisy_of_isZero hzero
    log := by
      rw [decide_eq_false (Finset.notMem_empty i)]
      rfl
    seen := by
      rw [decide_eq_false (Finset.notMem_empty i)]
      rfl }

/-! ## Running -/

/-- What a run takes for granted besides its options: the log level can be read, the sensors are exact, the sizes are
within their limits, and the signature scheme accepts what it signs. That the sizes of keys and signatures are as they should
be holds of the standard suite (`Suite.regular_standard`). -/
structure Viable (env : Environment) (config : Config) : Prop where
  level : ∃ ds, Logging.setUp false env.directives config.level = .ok ds
  noiseless : config.noiseAmplitude.isZero = true
  queue : config.queueCapacity ≤ Propagator.sizeLimit
  flight : config.maxInFlight ≤ Propagator.sizeLimit
  memory : config.seenCapacity ≤ SeenSet.sizeLimit
  regular : env.suite.Regular
  accepts : ∀ secret content,
    env.suite.verify (env.suite.publicKey secret) content (env.suite.sign secret content) = true

/-- The mesh of a run before it has nodes. -/
def bare (env : Environment) (config : Config) : Mesh :=
  ⟨env.suite, config, .log, env.noise config.noiseAmplitude, .empty, .zero,
    .empty config.queueCapacity config.maxInFlight, 0, [], []⟩

/-- The message of a run. -/
def signed (env : Environment) (o : Options) : Message :=
  (KeyPair.ofSecret env.suite
    (env.suite.deriveKey seededContext (seedMaterial (Bytes.ofText o.seed) "Alpha"))).signMessage env.suite
      env.timestamp o.vorticity 0 (Bytes.ofText o.content)

/-- The configuration of a run has been checked. -/
theorem violation?_of_configuration (h : configuration env o = .ok config) : config.violation? = none := by
  have hread : ∀ {c : Config}, readConfig env o.config = .ok c → c.violation? = none := by
    intro c hc
    cases hpath : o.config with
    | none =>
      rw [hpath] at hc
      rw [← Except.ok.inj hc]
      decide +kernel
    | some path =>
      rw [hpath, readConfig] at hc
      cases hfile : Config.ofFile (env.file path) with
      | error e =>
        rw [hfile] at hc
        cases hc
      | ok c' =>
        rw [hfile] at hc
        cases hc
        exact Config.violation?_of_ofFile hfile
  unfold configuration at h
  cases hc : readConfig env o.config with
  | error e =>
    rw [hc] at h
    cases h
  | ok c =>
    rw [hc] at h
    cases h
    have hvalid := hread hc
    split
    · exact hvalid
    · exact hvalid

theorem start_bare (hconfig : configuration env o = .ok config) (hviable : Viable env config) :
    Mesh.start env.suite config .log (env.noise config.noiseAmplitude) true = .ok (bare env config) :=
  start_of_valid env.suite .log _ (violation?_of_configuration hconfig) hviable.queue hviable.flight

theorem run_eq (hconfig : configuration env o = .ok config) (hviable : Viable env config) :
    run env o = build o (bare env config) >>= play o env.timestamp := by
  obtain ⟨ds, hlevel⟩ := hviable.level
  rw [run, hconfig]
  dsimp only
  rw [hlevel]
  dsimp only
  rw [start_bare hconfig hviable]
  dsimp only
  cases build o (bare env config) with
  | error e => rfl
  | ok m => rfl

theorem message_built (hregistry : Triangle o (bare env config) m.registry) (hsuite : m.suite = env.suite) :
    message o env.timestamp m = .ok (signed env o) := by
  rw [message, Registry.get_eq_ok_iff.2 (hregistry.find? "Alpha" (by decide)), hsuite]
  rfl

/-- The three nodes are ready for a message that clears the floor. -/
theorem ready_built (hconfig : configuration env o = .ok config) (hviable : Viable env config)
    (hunit : Config.inUnitInterval o.coherence = true) (hfloor : config.qualityFloor ≤ o.vorticity)
    (hregistry : Triangle o (bare env config) r) (rs : List Record) :
    Ready (ofMesh { bare env config with registry := r, records := rs }) o.coherence (signed env o) := by
  have hranges := Config.violation?_eq_none_iff.1 (violation?_of_configuration hconfig)
  simp only [Config.conditions, List.forall_mem_cons] at hranges
  obtain ⟨-, hthreshold, -⟩ := hranges
  exact {
    nodes := hregistry.stand _ _ hviable.noiseless
    passes := (KeyPair.check_signMessage hviable.regular (hviable.accepts _ _) _ _ _ _).2 hfloor
    idle := rfl
    unused := rfl
    ordered := Binary64.lt_iff_not_le (Binary64.isNaN_of_inUnitInterval hunit)
      (Binary64.isNaN_of_inUnitInterval hthreshold) }

theorem play_of_ready {msg : Message} {c : Binary64} {timestamp : Int64} (hready : Ready (ofMesh m) c msg)
    (hm : Reachable (ofMesh m)) (hmessage : message o timestamp m = .ok msg) :
    ∃ r, play o timestamp m = .ok r ∧ Correct m.config c r := by
  have hok := hready.gossip_ok hm
  have hgossip : m.gossip rounds "Alpha" msg =
      ((m.gossip rounds "Alpha" msg).1, .ok (audience m.config c)) := Prod.ext rfl hok
  refine ⟨_, ?_, hready.gossip_correct hm (msg.id (m.gossip rounds "Alpha" msg).1.suite)⟩
  rw [play, hmessage]
  dsimp only
  rw [hgossip]
  rfl

/-- A message that does not clear the floor is refused by the gate of its own node. -/
theorem play_of_below (hviable : Viable env config) (hfloor : ¬config.qualityFloor ≤ o.vorticity)
    (hregistry : Triangle o (bare env config) r) (rs : List Record) :
    ∃ e, play o env.timestamp { bare env config with registry := r, records := rs } = .error (.mesh e) := by
  generalize hm : ({ bare env config with registry := r, records := rs } : Mesh) = m
  have hnode : m.registry.find? "Alpha" =
      some { member o (bare env config) "Alpha" with neighbors := others "Alpha" } := by
    rw [← hm]
    exact hregistry.find? "Alpha" (by decide)
  have hmessage : message o env.timestamp m = .ok (signed env o) := by
    rw [← hm]
    exact message_built hregistry rfl
  have hpasses : m.gate.check m.suite (signed env o) = .ok () ↔ config.qualityFloor ≤ o.vorticity := by
    rw [← hm]
    exact KeyPair.check_signMessage hviable.regular (hviable.accepts _ _) _ _ _ _
  cases hgate : m.gate.check m.suite (signed env o) with
  | ok u => exact absurd (hpasses.1 hgate) hfloor
  | error refusal =>
    have hbarred := Mesh.barred?_of_refused
      (n := { member o (bare env config) "Alpha" with neighbors := others "Alpha" }) rfl hgate
    obtain ⟨-, hanswer⟩ := Mesh.beginGossip_spec (signed env o) hnode
    rw [hbarred] at hanswer
    obtain ⟨e, herror, -⟩ := hanswer
    have hbegin : m.beginGossip "Alpha" (signed env o) = ((m.beginGossip "Alpha" (signed env o)).1, .error e) :=
      Prod.ext rfl herror
    refine ⟨e, ?_⟩
    rw [play, hmessage]
    dsimp only
    rw [Mesh.gossip, hbegin]

/-- The simulation without noise and without a node that lies. Given a coherence from 0 to 1 and a vorticity that clears
the floor, it succeeds with a correct report, and from the mesh that it builds any order of deliveries leads to a
correct report with four deliveries at most. Otherwise it fails. -/
theorem simulation_outcome (hconfig : configuration env o = .ok config) (hviable : Viable env config)
    (hhonest : o.byzantine = false) :
    (0 ≤ o.coherence ∧ o.coherence ≤ 1 ∧ config.qualityFloor ≤ o.vorticity →
      (∃ r, run env o = .ok r ∧ Correct config o.coherence r) ∧
      ∃ m₀ m msg, Mesh.start env.suite config .log (env.noise config.noiseAmplitude) true = .ok m₀ ∧
        build o m₀ = .ok m ∧ m.config = config ∧ message o env.timestamp m = .ok msg ∧
        Settles (ofMesh m) o.coherence msg) ∧
      (¬(0 ≤ o.coherence ∧ o.coherence ≤ 1 ∧ config.qualityFloor ≤ o.vorticity) →
        ∃ e, run env o = .error (.mesh e)) := by
  have hstart := start_bare hconfig hviable
  have hinterval : Config.inUnitInterval o.coherence = true ↔ 0 ≤ o.coherence ∧ o.coherence ≤ 1 := by
    rw [Config.inUnitInterval, Bool.and_eq_true, decide_eq_true_iff, decide_eq_true_iff]
  rw [run_eq hconfig hviable]
  by_cases hunit : Config.inUnitInterval o.coherence = true
  case neg =>
    rw [build_of_outside hhonest hunit]
    exact ⟨fun h => absurd (hinterval.2 ⟨h.1, h.2.1⟩) hunit, fun _ => ⟨_, rfl⟩⟩
  case pos =>
    obtain ⟨r, rs, hregistry, hbuild⟩ :=
      build_ok hhonest hunit hviable.memory (show (bare env config).registry = .empty from rfl)
    have hmessage : message o env.timestamp { bare env config with registry := r, records := rs } =
        .ok (signed env o) := message_built hregistry rfl
    have hreachable := reachable_build hhonest (Reachable.start hstart) hbuild
    rw [hbuild]
    constructor
    · rintro ⟨-, -, hfloor⟩
      have hready := ready_built hconfig hviable hunit hfloor hregistry rs
      obtain ⟨r, hplay, hcorrect⟩ := play_of_ready hready hreachable hmessage
      exact ⟨⟨r, hplay, hcorrect⟩, _, _, _, hstart, hbuild, rfl, hmessage, hready.settles hreachable⟩
    · intro hnot
      obtain ⟨hlow, hhigh⟩ := hinterval.1 hunit
      exact play_of_below hviable (fun hfloor => hnot ⟨hlow, hhigh, hfloor⟩) hregistry rs

/-- With the default options and thresholds, all three nodes have the message in the end, and two of them have accepted
it. -/
theorem simulation_outcome_default : ∃ r, run Sample.noiselessEnvironment Sample.noiselessOptions = .ok r ∧
    r.forwardedTo = ["Beta", "Gamma"] ∧ r.nodes = rows Sample.noiselessOptions.coherence 1 1 1 ∧
    r.metrics.accepted = 2 := by
  have hconfig : configuration Sample.noiselessEnvironment Sample.noiselessOptions = .ok Sample.noiselessConfig :=
    ok_of_toOption (by decide +kernel)
  have hlevel : (Logging.setUp false none Sample.noiselessConfig.level).toOption.isSome = true := by decide +kernel
  obtain ⟨ds, hds⟩ := Option.isSome_iff_exists.1 hlevel
  have hviable : Viable Sample.noiselessEnvironment Sample.noiselessConfig :=
    ⟨⟨ds, ok_of_toOption hds⟩, by decide +kernel, by decide +kernel, by decide +kernel, by decide +kernel,
      Sample.regular_suite, fun _ _ => rfl⟩
  obtain ⟨⟨r, hrun, hcorrect⟩, -⟩ := (simulation_outcome hconfig hviable rfl).1 (by decide +kernel)
  have hcoherent : ¬Sample.noiselessOptions.coherence < Sample.noiselessConfig.cardinalThreshold := by decide +kernel
  obtain ⟨hnodes, haccepted, -⟩ := hcorrect.agreed hcoherent (by decide +kernel)
  exact ⟨r, hrun, hcorrect.forwarded hcoherent, hnodes, haccepted⟩

end Simulation

end TriadMesh
