import TriadMesh.Proofs.Deployment

/-!
# Doing one thing at a time

A mesh that waits until nothing is in flight, or that hands a message out to the end, goes through actions of the
dispatcher and of that one gossip. So what holds after every run holds of it too.
-/

namespace TriadMesh.Deployment

variable {d : Deployment} {m m' : Mesh} {k : Nat} {f : Fanout}

def serves : Action → Bool
  | .take => true
  | .launch => true
  | .deliver _ => true
  | _ => false

/-- Whether an action belongs to the `k`-th gossip or to the dispatcher. -/
def carries (k : Nat) : Action → Bool
  | .advance j => j == k
  | .finish j => j == k
  | .take => true
  | .launch => true
  | .deliver _ => true
  | _ => false

theorem carries_of_serves {a : Action} (h : serves a = true) : carries k a = true := by
  cases a with
  | take => rfl
  | launch => rfl
  | deliver i => rfl
  | _ => cases h

/-! ## Waiting -/

/-- The dispatcher can bring the mesh of a deployment to `m`. -/
def Dispatches (d : Deployment) (m : Mesh) : Prop :=
  ∃ acts, (∀ a ∈ acts, serves a = true) ∧ d.run acts = { d with mesh := m }

theorem Dispatches.refl (d : Deployment) : Dispatches d d.mesh :=
  ⟨[], by simp, rfl⟩

theorem Dispatches.trans (h : Dispatches d m) (h' : Dispatches { d with mesh := m } m') :
    Dispatches d m' := by
  obtain ⟨acts, hserves, hrun⟩ := h
  obtain ⟨acts', hserves', hrun'⟩ := h'
  refine ⟨acts ++ acts', ?_, ?_⟩
  · intro a ha
    exact (List.mem_append.1 ha).elim (hserves a) (hserves' a)
  · rw [run_append, hrun, hrun']

theorem dispatches_step {a : Action} (ha : serves a = true) (hstep : d.step a = { d with mesh := m }) :
    Dispatches d m := by
  refine ⟨[a], ?_, hstep⟩
  intro b hb
  rwa [List.mem_singleton.1 hb]

theorem dispatches_dispatch (d : Deployment) (n : Nat) :
    Dispatches d { d.mesh with propagator := d.mesh.propagator.dispatch n } := by
  induction n generalizing d with
  | zero => exact dispatches_step (a := .launch) rfl rfl
  | succ n ih =>
    have hlaunch := dispatches_step (d := d) (a := .launch) rfl rfl
    exact (hlaunch.trans (dispatches_step (a := .take) rfl rfl)).trans (ih _)

theorem dispatches_deliverFirst (d : Deployment) (n : Nat) : Dispatches d (Mesh.deliverFirst n d.mesh) := by
  induction n generalizing d with
  | zero => exact Dispatches.refl d
  | succ n ih => exact (dispatches_step (a := .deliver 0) rfl rfl).trans (ih { d with mesh := d.mesh.deliver 0 })

/-- To wait until nothing is in flight is left to the dispatcher alone. -/
theorem dispatches_waitIdle (d : Deployment) (rounds : Nat) : Dispatches d (d.mesh.waitIdle rounds).1 := by
  induction rounds generalizing d with
  | zero => exact Dispatches.refl d
  | succ rounds ih =>
    rw [Mesh.waitIdle]
    split
    · exact Dispatches.refl d
    · have hround : Dispatches d d.mesh.round :=
        (dispatches_dispatch d d.mesh.propagator.queued.length).trans (dispatches_deliverFirst _ _)
      exact hround.trans (ih { d with mesh := d.mesh.round })

theorem waitIdle_ok {rounds : Nat} (h : (m.waitIdle rounds).2 = .ok ()) :
    (m.waitIdle rounds).1.inFlight = 0 := by
  induction rounds generalizing m with
  | zero =>
    rw [Mesh.waitIdle] at h ⊢
    by_cases hidle : m.inFlight = 0
    · exact hidle
    · rw [if_neg hidle] at h
      cases h
  | succ rounds ih =>
    rw [Mesh.waitIdle] at h ⊢
    by_cases hidle : m.inFlight = 0
    · rw [if_pos hidle]
      exact hidle
    · rw [if_neg hidle] at h ⊢
      exact ih h

/-! ## Gossiping to the end -/

/-- What a gossip that has the `k`-th place makes of a deployment when it goes on to the end. -/
structure HandsOut (d : Deployment) (k : Nat) (m : Mesh) (outcome : Outcome (List NodeId))
    (acts : List Action) :
    Prop where
  carries : ∀ a ∈ acts, carries k a = true
  mesh : (d.run acts).mesh = m
  ended : ∀ targets, outcome = .ok targets → (d.run acts).fanouts = d.fanouts.eraseIdx k

theorem HandsOut.cons {a : Action} {acts : List Action} {outcome : Outcome (List NodeId)}
    (h : HandsOut (d.step a) k m outcome acts) (ha : Deployment.carries k a = true)
    (hfanouts : (d.step a).fanouts.eraseIdx k = d.fanouts.eraseIdx k) : HandsOut d k m outcome (a :: acts) where
  carries := by
    intro b hb
    rcases List.mem_cons.1 hb with rfl | hb
    · exact ha
    · exact h.carries b hb
  mesh := h.mesh
  ended := by
    intro targets houtcome
    rw [run_cons, h.ended targets houtcome, hfanouts]

theorem HandsOut.dispatched {acts : List Action} {outcome : Outcome (List NodeId)} (hm : Dispatches d m)
    (h : HandsOut { d with mesh := m } k m' outcome acts) : ∃ acts, HandsOut d k m' outcome acts := by
  obtain ⟨before, hserves, hrun⟩ := hm
  refine ⟨before ++ acts, ?_, ?_, ?_⟩
  · intro a ha
    exact (List.mem_append.1 ha).elim (fun ha => carries_of_serves (hserves a ha)) (h.carries a)
  · rw [run_append, hrun, h.mesh]
  · intro targets houtcome
    rw [run_append, hrun, h.ended targets houtcome]

theorem proceed_mesh (d : Deployment) (k : Nat) (m : Mesh) (outcome : Outcome Fanout) :
    (d.proceed k (m, outcome)).mesh = m := by
  cases outcome with
  | _ => rfl

theorem eraseIdx_newest (fs : List Fanout) (f : Fanout) : (fs ++ [f]).eraseIdx fs.length = fs := by
  rw [List.eraseIdx_append_of_length_le (Nat.le_refl _), Nat.sub_self, List.eraseIdx_cons_zero, List.append_nil]

/-- To hand a message out to the end takes actions of its gossip and of the dispatcher. -/
theorem handsOut_fanOut (rounds steps : Nat) (hk : d.fanouts[k]? = some f) :
    ∃ acts, HandsOut d k (d.mesh.fanOut rounds steps f).1 (d.mesh.fanOut rounds steps f).2 acts := by
  induction steps generalizing d f with
  | zero => exact ⟨[], by simp, rfl, fun _ h => by cases h⟩
  | succ steps ih =>
    rw [Mesh.fanOut]
    by_cases hrem : f.remaining.isEmpty = true
    · rw [if_pos hrem]
      have hstep : d.step (.finish k) =
          { d with mesh := d.mesh.endGossip f, fanouts := d.fanouts.eraseIdx k } := by
        rw [step, hk, Option.elim_some, conclude, if_pos hrem]
      refine ⟨[.finish k], by simp [carries], ?_, ?_⟩
      · rw [run_cons, run_nil, hstep]
      · intro targets _
        rw [run_cons, run_nil, hstep]
    · rw [if_neg hrem]
      have hstep : d.step (.advance k) = d.proceed k (d.mesh.advance f) := by rw [step, hk, Option.elim_some]
      have hadvance : carries k (.advance k) = true := beq_self_eq_true k
      have hlt : k < d.fanouts.length := (List.getElem?_eq_some_iff.1 hk).1
      cases h : d.mesh.advance f with
      | mk m outcome =>
        rw [h] at hstep
        have hmesh : (d.step (.advance k)).mesh = m := by rw [hstep, proceed_mesh]
        cases outcome with
        | ok f' =>
          have hk' : (d.step (.advance k)).fanouts[k]? = some f' := by
            rw [hstep, proceed]
            exact List.getElem?_set_self hlt
          obtain ⟨acts, hacts⟩ := ih hk'
          rw [hmesh] at hacts
          refine ⟨.advance k :: acts, hacts.cons hadvance ?_⟩
          rw [hstep, proceed]
          exact List.eraseIdx_set_eq
        | refused e => exact ⟨[.advance k], by simp [carries], hmesh, fun _ h => by cases h⟩
        | crashed => exact ⟨[.advance k], by simp [carries], hmesh, fun _ h => by cases h⟩
        | waiting =>
          rw [proceed] at hstep
          obtain ⟨acts, hacts⟩ := ih (d := { d with mesh := (m.waitIdle rounds).1 }) hk
          obtain ⟨acts', hacts'⟩ := hacts.dispatched (dispatches_waitIdle { d with mesh := m } rounds)
          rw [← hstep] at hacts'
          refine ⟨.advance k :: acts', hacts'.cons hadvance ?_⟩
          rw [hstep]

/-- A gossip that is carried to its end is a run, and leaves no gossip behind if it comes to an end. -/
theorem handsOut_gossip (d : Deployment) (rounds : Nat) (i : NodeId) (msg : Message) :
    ∃ acts, (∀ a ∈ acts, carries d.fanouts.length a = true) ∧
      ((d.step (.gossip i msg)).run acts).mesh = (d.mesh.gossip rounds i msg).1 ∧
      ∀ targets, (d.mesh.gossip rounds i msg).2 = .ok targets →
        ((d.step (.gossip i msg)).run acts).fanouts = d.fanouts := by
  rw [Mesh.gossip]
  have hstep : d.step (.gossip i msg) = d.enter (d.mesh.beginGossip i msg) := rfl
  cases h : d.mesh.beginGossip i msg with
  | mk m answer =>
    rw [h] at hstep
    cases answer with
    | error e =>
      rw [hstep]
      exact ⟨[], by simp, rfl, fun _ h => by cases h⟩
    | ok f =>
      have hk : (d.step (.gossip i msg)).fanouts[d.fanouts.length]? = some f := by
        rw [hstep, enter]
        exact List.getElem?_concat_length
      have hmesh : (d.step (.gossip i msg)).mesh = m := by rw [hstep]; rfl
      obtain ⟨acts, hacts⟩ := handsOut_fanOut rounds (2 * f.targets.length + 1) hk
      rw [hmesh] at hacts
      refine ⟨acts, hacts.carries, hacts.mesh, ?_⟩
      intro targets houtcome
      rw [hacts.ended targets houtcome, hstep, enter]
      exact eraseIdx_newest _ _

end TriadMesh.Deployment
