import TriadMesh.Mesh.Topology
import TriadMesh.Proofs.Registry
import TriadMesh.Proofs.SeenSet

/-!
# Changes of the topology

Taking in, taking out and linking nodes, and giving one another coherence, change neither the log nor the
memory of a registered node, and refused calls change nothing.
-/

namespace TriadMesh

/-- A node with the same id, log, memory and sensor. -/
structure Node.Keeps (n n' : Node) : Prop where
  id : n'.id = n.id
  log : n'.log = n.log
  seen : n'.seen = n.seen
  sensor : n'.sensor = n.sensor

theorem Node.Keeps.refl (n : Node) : n.Keeps n := ⟨rfl, rfl, rfl, rfl⟩

theorem Node.Keeps.trans {a b c : Node} (h : a.Keeps b) (h' : b.Keeps c) : a.Keeps c :=
  ⟨h'.id.trans h.id, h'.log.trans h.log, h'.seen.trans h.seen, h'.sensor.trans h.sensor⟩

theorem Node.keeps_addNeighbor (n : Node) (id : NodeId) : n.Keeps (n.addNeighbor id).1 := by
  unfold addNeighbor
  split <;> exact ⟨rfl, rfl, rfl, rfl⟩

theorem Node.keeps_removeNeighbor (n : Node) (id : NodeId) : n.Keeps (n.removeNeighbor id) :=
  ⟨rfl, rfl, rfl, rfl⟩

/-- A node that has neither sent nor received anything. -/
structure Node.Fresh (n : Node) (capacity : Nat) (sensor : Sensor) : Prop where
  log : n.log = []
  neighbors : n.neighbors = []
  seen : n.seen = .empty capacity
  sensor : n.sensor = sensor

namespace Registry

variable {r r' : Registry} {n : Node} {id k source target : NodeId}

theorem keeps_only {f : Node → Node} (hf : ∀ n : Node, n.Keeps (f n)) (id : NodeId) (n : Node) :
    n.Keeps (only id f n) := by
  by_cases h : n.id = id
  · rw [only_self h]
    exact hf n
  · rw [only_of_ne h]
    exact Node.Keeps.refl n

theorem insert_of_new (h : r.find? n.id = none) : r.insert n = .ok (r.push n h) :=
  dif_neg fun hc => find?_eq_none_iff.1 h (contains_iff.1 hc)

theorem insert_eq_ok (h : r.insert n = .ok r') : ∃ hnew : r.find? n.id = none, r' = r.push n hnew := by
  unfold insert at h
  split at h
  case isTrue => cases h
  case isFalse hc =>
    cases h
    exact ⟨_, rfl⟩

theorem remove_eq_ok (h : r.remove id = .ok (r', n)) : r.find? id = some n ∧ r' = r.without id := by
  unfold remove at h
  cases hget : r.get id with
  | error e =>
    rw [hget] at h
    cases h
  | ok n' =>
    rw [hget] at h
    cases h
    exact ⟨get_eq_ok_iff.1 hget, rfl⟩

theorem connect_eq_ok {isNew : Bool} (h : r.connect source target = .ok (r', isNew)) :
    r' = r.update source fun m => (m.addNeighbor target).1 := by
  unfold connect at h
  by_cases hself : source = target
  · rw [if_pos hself] at h
    cases h
  · rw [if_neg hself] at h
    cases hs : r.get source with
    | error e =>
      rw [hs] at h
      cases h
    | ok n =>
      cases ht : r.get target with
      | error e =>
        rw [hs, ht] at h
        cases h
      | ok n' =>
        rw [hs, ht] at h
        cases h
        rfl

theorem connect_of_registered {n' : Node} (hne : source ≠ target) (hsource : r.find? source = some n)
    (htarget : r.find? target = some n') :
    r.connect source target =
      .ok (r.update source fun m => (m.addNeighbor target).1, (n.addNeighbor target).2) := by
  rw [connect, if_neg hne, get_eq_ok_iff.2 hsource, get_eq_ok_iff.2 htarget]
  rfl

theorem link_eq_ok {a b : NodeId} (h : r.link a b = .ok r') :
    ∃ r₁ new₁ new₂, r.connect a b = .ok (r₁, new₁) ∧ r₁.connect b a = .ok (r', new₂) := by
  unfold link at h
  cases h₁ : r.connect a b with
  | error e =>
    rw [h₁] at h
    cases h
  | ok p =>
    rw [h₁] at h
    cases h₂ : p.1.connect b a with
    | error e =>
      simp only [bind, Except.bind, h₂] at h
      cases h
    | ok q =>
      simp only [bind, Except.bind, h₂] at h
      cases h
      exact ⟨p.1, p.2, q.2, rfl, h₂⟩

end Registry

namespace Mesh

variable {m m' : Mesh} {n : Node} {id : NodeId}

def newcomer (m : Mesh) (id : NodeId) (keys : KeyPair) (coherence : Binary64) (sensor : Sensor) : Node :=
  ⟨id, keys, coherence, [], [], .empty m.config.seenCapacity, sensor⟩

theorem register_of_new (hnew : m.registry.find? n.id = none) :
    ∃ rs, m.register n = .ok ({ m with registry := m.registry.push n hnew, records := rs }, n) := by
  rw [register, Registry.insert_of_new hnew]
  exact ⟨_, rfl⟩

theorem register_eq_ok {k : Node} (h : m.register n = .ok (m', k)) :
    ∃ hnew : m.registry.find? n.id = none, ∃ rs,
      m' = { m with registry := m.registry.push n hnew, records := rs } := by
  unfold register at h
  cases hinsert : m.registry.insert n with
  | error e =>
    rw [hinsert] at h
    cases h
  | ok r =>
    obtain ⟨hnew, rfl⟩ := Registry.insert_eq_ok hinsert
    rw [hinsert] at h
    cases h
    exact ⟨hnew, _, rfl⟩

section Create

variable {keys : KeyPair} {coherence : Binary64} {sensor : Sensor}

theorem create_of_outside (hunit : ¬Config.inUnitInterval coherence = true) :
    m.create id keys coherence sensor = .refused (.invalidCoherence coherence) := by
  unfold create Node.new
  rw [if_neg hunit]

theorem create_of_room (hunit : Config.inUnitInterval coherence = true)
    (hroom : m.config.seenCapacity ≤ SeenSet.sizeLimit) :
    m.create id keys coherence sensor = .ofExcept (m.register (m.newcomer id keys coherence sensor)) := by
  unfold create Node.new
  rw [if_pos hunit]
  dsimp only
  rw [add, Node.withSeenCapacity, SeenSet.allocate_of_le hroom]
  rfl

/-- Beyond the limit of its memory each node that could be created crashes. -/
theorem create_eq_crashed_iff : m.create id keys coherence sensor = .crashed ↔
    Config.inUnitInterval coherence = true ∧ SeenSet.sizeLimit < m.config.seenCapacity := by
  by_cases hunit : Config.inUnitInterval coherence = true
  · by_cases hroom : m.config.seenCapacity ≤ SeenSet.sizeLimit
    · rw [create_of_room hunit hroom]
      cases m.register (m.newcomer id keys coherence sensor) <;>
        simp [Outcome.ofExcept, Nat.not_lt_of_le hroom]
    · have hnone := SeenSet.allocate_eq_none_iff.2 (Nat.lt_of_not_le hroom)
      unfold create Node.new
      rw [if_pos hunit]
      simp [add, Node.withSeenCapacity, hnone, hunit, Nat.lt_of_not_le hroom]
  · rw [create_of_outside hunit]
    simp [hunit]

theorem create_of_new (keys : KeyPair) (sensor : Sensor) (hunit : Config.inUnitInterval coherence = true)
    (hroom : m.config.seenCapacity ≤ SeenSet.sizeLimit) (hnew : m.registry.find? id = none) :
    ∃ rs, m.create id keys coherence sensor =
      .ok ({ m with registry := m.registry.push (m.newcomer id keys coherence sensor) hnew, records := rs },
        m.newcomer id keys coherence sensor) := by
  obtain ⟨rs, hregister⟩ := register_of_new (n := m.newcomer id keys coherence sensor) hnew
  exact ⟨rs, by rw [create_of_room hunit hroom, hregister]; rfl⟩

theorem create_eq_ok (h : m.create id keys coherence sensor = .ok (m', n)) :
    ∃ hnew : m.registry.find? id = none, ∃ rs, m' =
      { m with registry := m.registry.push (m.newcomer id keys coherence sensor) hnew, records := rs } := by
  by_cases hunit : Config.inUnitInterval coherence = true
  · by_cases hroom : m.config.seenCapacity ≤ SeenSet.sizeLimit
    · rw [create_of_room hunit hroom] at h
      cases hregister : m.register (m.newcomer id keys coherence sensor) with
      | error e =>
        rw [hregister] at h
        cases h
      | ok p =>
        rw [hregister] at h
        cases h
        exact register_eq_ok hregister
    · rw [create_eq_crashed_iff.2 ⟨hunit, Nat.lt_of_not_le hroom⟩] at h
      cases h
  · rw [create_of_outside hunit] at h
    cases h

end Create

theorem remove_eq_ok (h : m.remove id = .ok (m', n)) :
    m.registry.find? id = some n ∧ ∃ rs, m' =
      { m with registry := m.registry.without id, records := rs } := by
  unfold remove at h
  cases hr : m.registry.remove id with
  | error e =>
    rw [hr] at h
    cases h
  | ok p =>
    rw [hr] at h
    obtain ⟨hn, hp⟩ := Registry.remove_eq_ok hr
    rw [← hp]
    cases h
    exact ⟨hn, _, rfl⟩

theorem connect_eq_ok {source target : NodeId} {isNew : Bool}
    (h : m.connect source target = .ok (m', isNew)) :
    m' = m.update source fun k => (k.addNeighbor target).1 := by
  unfold connect at h
  cases hr : m.registry.connect source target with
  | error e =>
    rw [hr] at h
    cases h
  | ok p =>
    rw [hr] at h
    cases h
    rw [Registry.connect_eq_ok hr]
    rfl

theorem link_eq_ok {a b : NodeId} (h : m.link a b = .ok m') :
    m' = (m.update a fun k => (k.addNeighbor b).1).update b fun k => (k.addNeighbor a).1 := by
  unfold link at h
  cases hr : m.registry.link a b with
  | error e =>
    rw [hr] at h
    cases h
  | ok r =>
    rw [hr] at h
    cases h
    obtain ⟨r₁, new₁, new₂, h₁, h₂⟩ := Registry.link_eq_ok hr
    rw [Registry.connect_eq_ok h₂, Registry.connect_eq_ok h₁]
    rfl

theorem setCoherence_eq_ok {coherence : Binary64} (h : m.setCoherence id coherence = .ok m') :
    m' = m.update id fun k => { k with coherence := coherence } := by
  unfold setCoherence at h
  cases hget : m.registry.get id with
  | error e =>
    rw [hget] at h
    cases h
  | ok n =>
    rw [hget] at h
    by_cases hc : Config.inUnitInterval coherence = true
    · simp only [bind, Except.bind, Node.setCoherence, if_pos hc] at h
      cases h
      have hreplaced := Registry.update_const (f := fun k => { k with coherence := coherence })
        (Registry.get_eq_ok_iff.1 hget)
      rw [Mesh.update, Mesh.update, hreplaced]
    · simp only [bind, Except.bind, Node.setCoherence, if_neg hc] at h
      cases h

/-- With keys that can be had, a node is taken in as by `create`, and otherwise only records are written. -/
theorem provision_cases (m : Mesh) (seed : Bytes) (id : NodeId) (coherence : Binary64) :
    ∃ rs, (m.provision seed id coherence).1 = { m with records := rs } ∨
      ∃ keys n, ({ m with records := rs } : Mesh).create id keys coherence m.defaultSensor =
        .ok ((m.provision seed id coherence).1, n) := by
  unfold provision obtainKeys
  cases (KeySource.seeded seed id).keys m.suite with
  | error e => exact ⟨m.records, .inl rfl⟩
  | ok k =>
    refine ⟨m.records ++ (KeySource.seeded seed id).records m.suite k, ?_⟩
    dsimp only
    cases hcreate : ({ m with records := m.records ++ (KeySource.seeded seed id).records m.suite k } : Mesh).create id k
        coherence { m with records := m.records ++ (KeySource.seeded seed id).records m.suite k }.defaultSensor with
    | ok p => exact .inr ⟨k, p.2, hcreate⟩
    | _ => exact .inl rfl

end Mesh

end TriadMesh
