import TriadMesh.Proofs.Confluence
import TriadMesh.Proofs.Decision
import TriadMesh.Proofs.Schedule

/-!
# What a step can touch

A message that is brought before a node changes the memory and the log of that node alone, and its log gets the message
only where the call succeeds. Changes of the topology touch no log and no memory, and what is left of the mesh is done
without a change to any node. So the log of a node object only grows, also when the node has been taken out.
-/

namespace TriadMesh.Deployment

variable {d : Deployment} {a : Action} {acts : List Action} {i j : NodeId} {n n' : Node} {msg : Message}

/-! ## Calls that succeed -/

/-- What brings a message before a node ends with a value, if it ends. A gossip may have to wait for room in the
queue. -/
def Succeeds (d : Deployment) : Action → Prop
  | .gossip i msg => ∀ rounds, (∃ targets, (d.mesh.gossip rounds i msg).2 = .ok targets) ∨
      (d.mesh.gossip rounds i msg).2 = .waiting
  | a => ∃ x, d.answer a = some (.ok x)

theorem Sound.of_propagator {p : Propagator Forward} (h : Sound d) (hp : p.Live) :
    Sound { d with mesh := { d.mesh with propagator := p } } :=
  ⟨hp, h.roomy⟩

theorem Sound.dispatches {m : Mesh} (h : Sound d) (hm : Dispatches d m) : Sound { d with mesh := m } := by
  obtain ⟨acts, -, hrun⟩ := hm
  exact hrun ▸ h.run acts

theorem Sound.fanOut_cases (h : Sound d) (rounds steps : Nat) (f : Fanout) :
    (d.mesh.fanOut rounds steps f).2 = .ok f.targets ∨ (d.mesh.fanOut rounds steps f).2 = .waiting := by
  -- A gossip that waits goes on in the mesh that the dispatcher leaves, where the propagator is still not closed.
  induction steps generalizing d f with
  | zero => exact .inr rfl
  | succ steps ih =>
    rw [Mesh.fanOut]
    cases hrem : f.remaining with
    | nil => exact .inl rfl
    | cons target rest =>
      rw [List.isEmpty_cons, if_neg Bool.false_ne_true, Mesh.advance, hrem]
      dsimp only
      rcases d.mesh.propagator.submit_cases ⟨f.source, target, f.message⟩ with hq | hq | ⟨hclosed, -⟩
      · rw [hq]
        exact ih (h.of_propagator (h.live.extend _)) { f with remaining := rest }
      · rw [hq]
        exact ih (h.dispatches (dispatches_waitIdle d rounds)) f
      · rw [h.live.dispatching] at hclosed
        cases hclosed

theorem Fate.eq_accepted {fate : Fate} (h : fate.imprint = .logged) : ∃ r, fate = .accepted r := by
  cases fate with
  | accepted r => exact ⟨r, rfl⟩
  | _ => cases h

theorem Sound.succeeds (h : Sound d) (hp : d.presents a = some (i, msg)) (hn : d.node? i = some n)
    (hlogged : d.imprint a n msg = .logged) : d.Succeeds a := by
  have hanswered : a ≠ .gossip i msg → (d.mesh.fate n msg).imprint = .logged →
      ∃ x, d.answer a = some (.ok x) := by
    intro ha hfate
    obtain ⟨r, hr⟩ := Fate.eq_accepted hfate
    refine ⟨r.mean, ?_⟩
    rw [answer_of_presents hp ha hn, hr]
    rfl
  cases a with
  | receive j msg' =>
    cases hp
    exact hanswered Action.noConfusion hlogged
  | deliver k => exact hanswered Action.noConfusion hlogged
  | gossip j msg' =>
    cases hp
    have hgate : d.mesh.barred? n msg = none :=
      Mesh.barred?_eq_none_iff.2 ⟨unseen_of_logged hlogged, gate_of_logged hlogged⟩
    have hanswer := (Mesh.beginGossip_spec msg hn).2
    rw [hgate] at hanswer
    have hbegin : d.mesh.beginGossip i msg = ((d.mesh.beginGossip i msg).1, .ok _) := Prod.ext rfl hanswer
    -- The call goes on where the step ends.
    have hsound : Sound (d.step (.gossip i msg)) := h.step _
    rw [Deployment.step, hbegin, enter] at hsound
    intro rounds
    rw [Mesh.gossip, hbegin]
    exact (hsound.fanOut_cases rounds _ _).imp_left fun hok => ⟨_, hok⟩
  | _ => cases hp

/-! ## Messages -/

theorem Sound.registry_of_presents (h : Sound d) (hp : d.presents a = some (i, msg)) :
    (d.step a).removed = d.removed ∧
      (d.node? i = none ∧ (d.step a).mesh.registry = d.mesh.registry ∨
        ∃ n, d.node? i = some n ∧ (d.step a).mesh.registry =
          d.mesh.registry.update i (Node.imprint (msg.id d.mesh.suite) msg (d.imprint a n msg))) := by
  obtain ⟨gone, hevolves, hremoved⟩ := (h.effect a).evolves
  generalize (d.step a).mesh.registry = r at hevolves ⊢
  cases hevolves with
  | joined hp' => cases hp'.symm.trans hp
  | left ha => cases ha ▸ hp
  | changed hp' => cases hp'.symm.trans hp
  | missed hp' hn =>
    cases hp'.symm.trans hp
    exact ⟨hremoved.trans (List.append_nil _), .inl ⟨hn, rfl⟩⟩
  | reached hp' hn =>
    cases hp'.symm.trans hp
    exact ⟨hremoved.trans (List.append_nil _), .inr ⟨_, hn, rfl⟩⟩

/-- All that an action may change that brings the message `msg` before the node `i`. -/
structure Touches (d : Deployment) (a : Action) (i : NodeId) (msg : Message) : Prop where
  ids : (d.step a).mesh.registry.ids = d.mesh.registry.ids
  others : ∀ j, j ≠ i → (d.step a).node? j = d.node? j
  removed : (d.step a).removed = d.removed
  target : ∀ n, d.node? i = some n → ∃ n', (d.step a).node? i = some n' ∧ n.Alike n' ∧
    (n'.log = n.log ∨ n'.log = n.log ++ [msg] ∧ d.Succeeds a)

theorem Sound.touches (h : Sound d) (hp : d.presents a = some (i, msg)) : d.Touches a i msg := by
  have hid : ∀ n k, (Node.imprint (msg.id d.mesh.suite) msg (d.imprint a n msg) k).id = k.id :=
    fun n k => Node.imprint_id _ _ _ k
  obtain ⟨hremoved, ⟨hn, hr⟩ | ⟨k, hk, hr⟩⟩ := h.registry_of_presents hp
  · refine ⟨by rw [hr], fun j _ => by rw [node?, hr, node?], hremoved, fun n hn' => ?_⟩
    cases hn.symm.trans hn'
  · refine ⟨?_, fun j hj => ?_, hremoved, fun n hn => ?_⟩
    · rw [hr, Registry.ids_update]
    · rw [node?, hr]
      exact Registry.find?_update_of_ne (hid k) hj
    · refine ⟨_, h.node_reached hp hn, Node.alike_imprint _ _ _ n, ?_⟩
      rw [Node.imprint_log]
      split
      case isTrue hlogged => exact .inr ⟨rfl, h.succeeds hp hn hlogged⟩
      case isFalse => exact .inl rfl

/-! ## The topology -/

/-- Whether an action takes in a node, or changes a list of neighbors or a coherence. -/
def builds : Action → Bool
  | .create .. | .provision .. | .connect .. | .link .. | .setCoherence .. => true
  | _ => false

theorem structural_of_builds (ha : builds a = true) : a.isStructural = true := by
  cases a with
  | create | provision | connect | link | setCoherence => rfl
  | _ => cases ha

theorem Sound.keeps_of_builds (h : Sound d) (ha : builds a = true) :
    (d.step a).removed = d.removed ∧
      ∀ i n, d.node? i = some n → ∃ n', (d.step a).node? i = some n' ∧ n.Keeps n' := by
  have hnone : d.presents a = none := presents_of_structural (structural_of_builds ha)
  obtain ⟨gone, hevolves, hremoved⟩ := (h.effect a).evolves
  constructor
  · rw [hremoved]
    generalize (d.step a).mesh.registry = r at hevolves
    cases hevolves with
    | left ha' => cases ha' ▸ ha
    | _ => exact List.append_nil _
  · intro i n hn
    have hchange := h.change a i
    rw [hn] at hchange
    generalize (d.step a).node? i = after at hchange ⊢
    cases hchange with
    | left ha' => cases ha' ▸ ha
    | kept hp hkeeps => exact ⟨_, rfl, hkeeps⟩
    | reached hp => cases hnone.symm.trans hp

theorem step_remove_of_unknown (hn : d.node? i = none) : d.step (.remove i) = d := by
  rw [step, Mesh.remove, Registry.remove, Registry.get_of_find?_eq_none hn]
  rfl

/-- A node that is taken out is set aside as it is, and the others lose it as a neighbor. -/
theorem step_remove (hn : d.node? i = some n) :
    ∃ rs, d.step (.remove i) =
      { d with
        mesh := { d.mesh with
          registry := d.mesh.registry.without i
          records := rs }
        removed := d.removed ++ [n] } := by
  rw [step, Mesh.remove, Registry.remove, Registry.get_eq_ok_iff.2 hn]
  exact ⟨_, rfl⟩

theorem node?_step_remove (hn : d.node? i = some n) (hj : j ≠ i) :
    (d.step (.remove i)).node? j = (d.node? j).map (·.removeNeighbor i) := by
  obtain ⟨rs, hstep⟩ := step_remove hn
  rw [hstep, node?, node?, Registry.find?_without_of_ne hj]

/-! ## Everything else -/

theorem step_measure (i : NodeId) (metric : String) :
    (d.step (.measure i metric)).mesh.registry = d.mesh.registry ∧
      (d.step (.measure i metric)).removed = d.removed := by
  rw [step, Mesh.measure]
  cases d.mesh.registry.get i with
  | error e => exact ⟨rfl, rfl⟩
  | ok n => exact ⟨rfl, rfl⟩

theorem Sound.registry_of_others (h : Sound d) (hp : d.presents a = none) (hbuilds : builds a = false)
    (hremove : ∀ i, a ≠ .remove i) :
    (d.step a).mesh.registry = d.mesh.registry ∧ (d.step a).removed = d.removed := by
  cases hstructural : a.isStructural with
  | true =>
    cases a with
    | measure i metric => exact step_measure i metric
    | remove i => exact absurd rfl (hremove i)
    | create | provision | connect | link | setCoherence => cases hbuilds
    | _ => cases hstructural
  | false =>
    have heffect := h.effect a
    generalize d.step a = d' at heffect ⊢
    cases heffect with
    | structural ha => cases ha.symm.trans hstructural
    | lost hf => cases (presents_deliver hf).symm.trans hp
    | delivered hf => cases (presents_deliver hf).symm.trans hp
    | received => cases hp
    | begun => cases hp
    | _ => exact ⟨rfl, rfl⟩

/-! ## Node objects -/

/-- What has become of the node object that was registered under `i` after a run: it is registered still, or was taken
out and set aside. -/
inductive Later (d : Deployment) (i : NodeId) (acts : List Action) (n' : Node) : Prop where
  | registered (hstays : Stays i d acts) (hn' : (d.run acts).node? i = some n')
  | removed (pre post : List Action) (hacts : acts = pre ++ .remove i :: post) (hstays : Stays i d pre)
      (hplace : (d.run acts).removed[(d.run pre).removed.length]? = some n')

theorem Sound.removed_run (h : Sound d) (acts : List Action) : d.removed <+: (d.run acts).removed := by
  induction acts generalizing d with
  | nil => exact List.prefix_refl _
  | cons a acts ih =>
    obtain ⟨gone, -, hremoved⟩ := (h.effect a).evolves
    have hstep : d.removed <+: (d.step a).removed := hremoved ▸ List.prefix_append _ _
    exact hstep.trans (ih (h.step a))

theorem Sound.log_prefix (h : Sound d) (hstays : Stays i d acts) (hn : d.node? i = some n)
    (hn' : (d.run acts).node? i = some n') : n.log <+: n'.log := by
  induction acts generalizing d n with
  | nil =>
    cases hn.symm.trans hn'
    exact List.prefix_refl _
  | cons a acts ih =>
    obtain ⟨k, hk⟩ := Option.isSome_iff_exists.1 hstays.2.isSome
    have hstep : n.log <+: k.log := by
      rcases h.log_step hn hk with hlog | ⟨msg, hlog⟩
      · exact hlog ▸ List.prefix_refl _
      · exact hlog ▸ List.prefix_append _ _
    exact hstep.trans (ih (h.step a) hstays.2 hk hn')

theorem Stays.isSome_run (h : Stays i d acts) : ((d.run acts).node? i).isSome = true :=
  ((stays_append acts [] d).1 ((List.append_nil acts).symm ▸ h)).2

theorem Sound.removed_place (h : Sound d) (pre post : List Action) (hn : (d.run pre).node? i = some n) :
    (d.run (pre ++ .remove i :: post)).removed[(d.run pre).removed.length]? = some n := by
  obtain ⟨rs, hstep⟩ := step_remove hn
  have hgone : ((d.run pre).step (.remove i)).removed = (d.run pre).removed ++ [n] := by rw [hstep]
  obtain ⟨later, hlater⟩ := ((h.run pre).step (.remove i)).removed_run post
  rw [run_append, run_cons, ← hlater, hgone, List.append_assoc, List.getElem?_append_right (Nat.le_refl _),
    Nat.sub_self]
  rfl

theorem Later.cons (hn : (d.node? i).isSome = true) (h : Later (d.step a) i acts n') : Later d i (a :: acts) n' := by
  cases h with
  | registered hstays hn' => exact .registered ⟨hn, hstays⟩ hn'
  | removed pre post hacts hstays hplace =>
    exact .removed (a :: pre) post (congrArg (a :: ·) hacts) ⟨hn, hstays⟩ hplace

theorem Sound.exists_later (h : Sound d) (hn : d.node? i = some n) (acts : List Action) :
    ∃ n', Later d i acts n' := by
  induction acts generalizing d n with
  | nil => exact ⟨n, .registered (Option.isSome_of_mem hn) hn⟩
  | cons a acts ih =>
    have hsome : (d.node? i).isSome = true := Option.isSome_of_mem hn
    have hkept : ∀ k, (d.step a).node? i = some k → ∃ n', Later d i (a :: acts) n' := by
      intro k hk
      obtain ⟨n', hlater⟩ := ih (h.step a) hk
      exact ⟨n', hlater.cons hsome⟩
    have hchange := h.change a i
    rw [hn] at hchange
    generalize hafter : (d.step a).node? i = after at hchange
    cases hchange with
    | left ha =>
      -- Only here the object leaves the registry, and it stays what it is from now on.
      subst ha
      exact ⟨n, .removed [] acts rfl hsome (h.removed_place [] acts hn)⟩
    | kept => exact hkept _ hafter
    | reached => exact hkept _ hafter

theorem Sound.log_of_later (h : Sound d) (hn : d.node? i = some n) (hlater : Later d i acts n') : n.log <+: n'.log := by
  cases hlater with
  | registered hstays hn' => exact h.log_prefix hstays hn hn'
  | removed pre post hacts hstays hplace =>
    obtain ⟨k, hk⟩ := Option.isSome_iff_exists.1 hstays.isSome_run
    rw [hacts, h.removed_place pre post hk] at hplace
    cases hplace
    exact h.log_prefix hstays hn hk

/-! ## The result -/

/-- No node changes another, and no log is ever rewritten. -/
structure Apart (d : Deployment) : Prop where
  reached : ∀ a i msg, d.presents a = some (i, msg) → d.Touches a i msg
  /-- A gossip that is carried to its end is its beginning, which reaches a node, and other such actions. -/
  gossiped : ∀ rounds i msg, ∃ acts, (∀ a ∈ acts, carries d.fanouts.length a = true) ∧
    ((d.step (.gossip i msg)).run acts).mesh = (d.mesh.gossip rounds i msg).1
  built : ∀ a, builds a = true → (d.step a).removed = d.removed ∧
    ∀ i n, d.node? i = some n → ∃ n', (d.step a).node? i = some n' ∧ n.Keeps n'
  takenOut : ∀ i n, d.node? i = some n → (d.step (.remove i)).removed = d.removed ++ [n] ∧
    ∀ j, j ≠ i → (d.step (.remove i)).node? j = (d.node? j).map (·.removeNeighbor i)
  notTakenOut : ∀ i, d.node? i = none → d.step (.remove i) = d
  others : ∀ a, d.presents a = none → builds a = false → (∀ i, a ≠ .remove i) →
    (d.step a).mesh.registry = d.mesh.registry ∧ (d.step a).removed = d.removed
  logs : ∀ i n acts, d.node? i = some n →
    (∃ n', Later d i acts n') ∧ ∀ n', Later d i acts n' → n.log <+: n'.log

/-- In every deployment that a mesh can come to, whatever reaches a node touches the memory and the log of that node
alone; nothing else touches a memory or a log, not even of a node that is taken out; and along every run the log of a
node object is extended at its end only. -/
theorem nodes_apart (h : Reachable d) : Apart d where
  reached a i msg hp := h.sound.touches hp
  gossiped rounds i msg := by
    obtain ⟨acts, hcarries, hmesh, -⟩ := handsOut_gossip d rounds i msg
    exact ⟨acts, hcarries, hmesh⟩
  built a ha := h.sound.keeps_of_builds ha
  takenOut i n hn := by
    obtain ⟨rs, hstep⟩ := step_remove hn
    exact ⟨by rw [hstep], fun j hj => node?_step_remove hn hj⟩
  notTakenOut i hn := step_remove_of_unknown hn
  others a hp hbuilds hremove := h.sound.registry_of_others hp hbuilds hremove
  logs i n acts hn := ⟨h.sound.exists_later hn acts, fun n' hlater => h.sound.log_of_later hn hlater⟩

/-- In a triangle the first node logs a message and is taken out, and what is set aside begins with its log. Another
node takes its place. -/
theorem nodes_apart_triangle :
    let d := (ofMesh Sample.mesh).run (Sample.triangle ++ [.receive "a" (Sample.message 1)])
    let acts : List Action := [.receive "a" (Sample.message 2), .remove "a", .create "a" Sample.keys 1 (.fixed 1)]
    (∃ n, d.node? "a" = some n ∧ n.log = [Sample.message 1]) ∧
      (d.step (.receive "a" (Sample.message 2))).node? "b" = d.node? "b" ∧
      ∃ n', Later d "a" acts n' ∧ [Sample.message 1] <+: n'.log := by
  intro d acts
  have hapart : Apart d := nodes_apart ((Reachable.start Sample.start_mesh).run _)
  have hlog : (d.node? "a").map Node.log = some [Sample.message 1] := by decide +kernel
  obtain ⟨n, hn, hlog⟩ := Option.map_eq_some_iff.1 hlog
  refine ⟨⟨n, hn, hlog⟩, ?_, ?_⟩
  · exact (hapart.reached (.receive "a" (Sample.message 2)) "a" _ rfl).others "b" (by decide)
  · obtain ⟨⟨n', hlater⟩, hprefix⟩ := hapart.logs "a" n acts hn
    exact ⟨n', hlater, hlog ▸ hprefix n' hlater⟩

end TriadMesh.Deployment
