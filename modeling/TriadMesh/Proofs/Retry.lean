import TriadMesh.Proofs.Soundness

/-!
# Messages that can be tried again

A message that fails for want of neighbors or agreement is forgotten, but its coming has pushed an id out of
a memory that was full. So such a failure leaves the memory as it was exactly if there was room.
-/

namespace TriadMesh

/-- A refusal after which the message can be tried again. -/
def Outcome.Retriable {α : Type} : Outcome α → Prop
  | .refused (.insufficientTriad _ _) => True
  | .refused (.consensus _ _) => True
  | _ => False

theorem Fate.imprint_of_retriable {fate : Fate} {n : Node} {x : Digest} (h : (fate.outcome n x).Retriable) :
    fate.imprint = .withdrawn := by
  cases fate with
  | postponed k => rfl
  | rejected r => rfl
  | _ => exact h.elim

namespace SeenSet

variable {s : SeenSet} {x : Digest}

/-- Remembering and forgetting an id leaves the memory as it was exactly if there was room for it. -/
theorem order_erase_insert_eq_iff (hx : s.contains x = false) (hcap : 0 < s.capacity) :
    ((s.insert x).1.erase x).order = s.order ↔ s.order.length < s.capacity := by
  rw [order_erase_insert hx hcap]
  constructor
  · intro h
    have hlength := congrArg List.length h
    have hbounded := s.bounded
    rw [List.length_drop] at hlength
    omega
  · intro hroom
    have hzero : s.order.length + 1 - s.capacity = 0 := by omega
    rw [hzero, List.drop_zero]

/-- Otherwise it loses its oldest id. -/
theorem order_erase_insert_of_full (hx : s.contains x = false) (hcap : 0 < s.capacity)
    (hfull : s.capacity ≤ s.order.length) : ((s.insert x).1.erase x).order = s.order.tail := by
  have hone : s.order.length + 1 - s.capacity = 1 := by
    have hbounded := s.bounded
    omega
  rw [order_erase_insert hx hcap, hone, List.drop_one]

end SeenSet

namespace Deployment

variable {d : Deployment} {a : Action} {i : NodeId} {msg : Message} {o : Outcome Binary64}

/-- What an action answers that makes a node receive a message. -/
def answer (d : Deployment) : Action → Option (Outcome Binary64)
  | .receive i msg => some (d.mesh.receive i msg none).2
  | .deliver i =>
    (d.mesh.propagator.running[i]?).map fun f => (d.mesh.receive f.target f.message (some f.source)).2
  | _ => none

/-- An answer that the message can be tried again comes from a registered node that has withdrawn it. -/
theorem withdrawn_of_retriable (hp : d.presents a = some (i, msg)) (ho : d.answer a = some o)
    (h : o.Retriable) :
    ∃ n, d.node? i = some n ∧ d.imprint a n msg = .withdrawn := by
  have hreceived : ∀ {i msg sender}, (d.mesh.receive i msg sender).2.Retriable →
      ∃ n, d.node? i = some n ∧ (d.mesh.fate n msg).imprint = .withdrawn := by
    intro i msg sender h
    cases hn : d.node? i with
    | none =>
      rw [Mesh.receive_of_unknown hn] at h
      exact h.elim
    | some n =>
      rw [(Mesh.receive_spec msg sender hn).1] at h
      exact ⟨n, rfl, Fate.imprint_of_retriable h⟩
  cases a with
  | receive j msg' =>
    cases hp
    cases ho
    exact hreceived h
  | deliver k =>
    cases hf : d.mesh.propagator.running[k]? with
    | none =>
      rw [presents, hf] at hp
      cases hp
    | some f =>
      rw [presents, hf] at hp
      rw [answer, hf] at ho
      cases hp
      cases ho
      exact hreceived h
  | _ => cases ho

/-- After a reception or a delivery that can be tried again, the node remembers what it did before, in the same
order, exactly if its memory had room for one more id. If it was full, its oldest id is lost. -/
theorem memory_after_retriable (h : Reachable d) (hp : d.presents a = some (i, msg))
    (ho : d.answer a = some o)
    (hretriable : o.Retriable) :
    ∃ n n', d.node? i = some n ∧ (d.step a).node? i = some n' ∧ n'.seen.capacity = n.seen.capacity ∧
      (n'.seen.order = n.seen.order ↔ n.seen.order.length < n.seen.capacity) ∧
      (n.seen.capacity ≤ n.seen.order.length → n'.seen.order = n.seen.order.tail) := by
  obtain ⟨n, hn, hwithdrawn⟩ := withdrawn_of_retriable hp ho hretriable
  have hunseen : n.seen.contains (msg.id d.mesh.suite) = false :=
    unseen_of_imprint (by rw [hwithdrawn]; exact Imprint.noConfusion)
  have hroomy := h.sound.roomy i n hn
  have hreached := h.sound.node_reached hp hn
  rw [hwithdrawn] at hreached
  exact ⟨n, _, hn, hreached, Node.imprint_capacity _ _ _ _, SeenSet.order_erase_insert_eq_iff hunseen hroomy,
    SeenSet.order_erase_insert_of_full hunseen hroomy⟩

/-- A node that has logged one message and has room for no other id. -/
def crowded : Deployment :=
  (ofMesh Sample.mesh).run [.create "a" Sample.keys 1 (.fixed 1), .gossip "a" (Sample.message 1)]

theorem reachable_crowded : Reachable crowded := (Reachable.start Sample.start_mesh).run _

theorem answer_crowded :
    crowded.answer (.receive "a" (Sample.message 2)) = some (.refused (.insufficientTriad "a" 0)) := by
  decide +kernel

theorem order_crowded :
    (crowded.node? "a").map (·.seen.order) = some [(Sample.message 1).id Sample.suite] := by
  decide +kernel

theorem memory_after_retriable_crowded :
    ∃ n', (crowded.step (.receive "a" (Sample.message 2))).node? "a" = some n' ∧ n'.seen.order = [] := by
  have hp : crowded.presents (.receive "a" (Sample.message 2)) = some ("a", Sample.message 2) := rfl
  obtain ⟨n, n', hn, hn', -, -, hfull⟩ := memory_after_retriable reachable_crowded hp answer_crowded trivial
  obtain ⟨k, hk, horder⟩ := Option.map_eq_some_iff.1 order_crowded
  have hroom : (crowded.node? "a").map (·.seen.capacity) = some 1 := by decide +kernel
  rw [hn] at hk hroom
  cases hk
  have hcapacity : n.seen.capacity = 1 := by simpa using hroom
  have hlength : n.seen.capacity ≤ n.seen.order.length := by
    rw [hcapacity, horder]
    exact Nat.le_refl 1
  refine ⟨n', hn', ?_⟩
  rw [hfull hlength, horder]
  rfl

/-- The memory is not always what it was: the message that the node has logged is forgotten. -/
theorem memory_not_kept :
    ¬∀ (d : Deployment) (a : Action) (i : NodeId) (msg : Message) (o : Outcome Binary64) (n n' : Node),
      Reachable d → d.presents a = some (i, msg) → d.answer a = some o → o.Retriable →
        d.node? i = some n → (d.step a).node? i = some n' → n'.seen.order = n.seen.order := by
  intro h
  obtain ⟨n, hn, horder⟩ := Option.map_eq_some_iff.1 order_crowded
  have hforgotten :
      ((crowded.step (.receive "a" (Sample.message 2))).node? "a").map (·.seen.order) = some [] := by
    decide +kernel
  obtain ⟨n', hn', horder'⟩ := Option.map_eq_some_iff.1 hforgotten
  have hkept := h crowded (.receive "a" (Sample.message 2)) "a" (Sample.message 2) _ n n' reachable_crowded rfl
    answer_crowded trivial hn hn'
  rw [horder, horder'] at hkept
  cases hkept

end Deployment

end TriadMesh
