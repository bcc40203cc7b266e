import TriadMesh.Proofs.Deployment

/-!
# What one action does

Each action has one of a few effects (`effect_step`), and with that changes the registry in one of a few ways
(`Effect.evolves`) and so the node under each id (`Evolves.change`).
-/

namespace TriadMesh.Deployment

variable {d : Deployment} {a : Action}

theorem evolves_refl (hp : d.presents a = none) : Evolves d a d.mesh.registry [] := by
  have h := Evolves.changed (d := d) (a := a) (g := fun n => n) hp (fun _ => rfl) fun n _ => Node.Keeps.refl n
  rwa [Registry.map_id] at h

theorem evolves_update {i : NodeId} {f : Node → Node} (hp : d.presents a = none)
    (hf : ∀ n : Node, n.Keeps (f n)) :
    Evolves d a (d.mesh.registry.update i f) [] := by
  rw [Registry.update_eq_map fun n => (hf n).id]
  exact .changed hp (fun n => (Registry.keeps_only hf i n).id) fun n _ => Registry.keeps_only hf i n

theorem evolves_update_update {i j : NodeId} {f g : Node → Node} (hp : d.presents a = none)
    (hf : ∀ n : Node, n.Keeps (f n)) (hg : ∀ n : Node, n.Keeps (g n)) :
    Evolves d a ((d.mesh.registry.update i f).update j g) [] := by
  have hkeeps : ∀ n : Node, n.Keeps ((Registry.only j g ∘ Registry.only i f) n) := fun n =>
    (Registry.keeps_only hf i n).trans (Registry.keeps_only hg j _)
  rw [Registry.update_eq_map fun n => (hf n).id, Registry.update_eq_map fun n => (hg n).id,
    Registry.map_map (fun n => (Registry.keeps_only hf i n).id) fun n => (Registry.keeps_only hg j n).id]
  exact .changed hp (fun n => (hkeeps n).id) fun n _ => hkeeps n

theorem evolves_newcomer {i : NodeId} {s : Sensor} (keys : KeyPair) (coherence : Binary64)
    (hp : d.presents a = none) (hs : d.sensor? a = some s) (hnew : d.mesh.registry.find? i = none) :
    Evolves d a (d.mesh.registry.push (d.mesh.newcomer i keys coherence s) hnew) [] :=
  .joined hp _ hs ⟨rfl, rfl, rfl, rfl⟩

/-- A structural action touches the registry, the log records and the tick alone. -/
theorem step_structural (ha : a.isStructural = true) :
    ∃ r gone rs t, Evolves d a r gone ∧
      d.step a = ⟨{ d.mesh with registry := r, records := rs, tick := t }, d.fanouts, d.removed ++ gone⟩ := by
  have hsame : ∀ hp : d.presents a = none, ∀ rs t, ∃ r gone rs' t', Evolves d a r gone ∧
      (⟨{ d.mesh with records := rs, tick := t }, d.fanouts, d.removed⟩ : Deployment) =
        ⟨{ d.mesh with registry := r, records := rs', tick := t' }, d.fanouts, d.removed ++ gone⟩ :=
    fun hp rs t => ⟨_, [], rs, t, evolves_refl hp, by rw [List.append_nil]⟩
  cases a with
  | create id keys coherence sensor =>
    rw [step]
    cases h : d.mesh.create id keys coherence sensor with
    | ok p =>
      obtain ⟨hnew, rs, hm⟩ := Mesh.create_eq_ok (n := p.2) h
      refine ⟨_, [], rs, d.mesh.tick, evolves_newcomer keys coherence rfl rfl hnew, ?_⟩
      rw [List.append_nil, welcome, hm]
    | _ => exact hsame rfl _ _
  | provision seed id coherence =>
    rw [step]
    obtain ⟨rs, h | ⟨keys, n, h⟩⟩ := d.mesh.provision_cases seed id coherence
    · rw [h]
      exact hsame rfl _ _
    · obtain ⟨hnew, rs', hm⟩ := Mesh.create_eq_ok h
      refine ⟨_, [], rs', d.mesh.tick, evolves_newcomer keys coherence rfl rfl hnew, ?_⟩
      rw [List.append_nil, hm]
      rfl
  | remove id =>
    rw [step]
    cases h : d.mesh.remove id with
    | error e => exact hsame rfl _ _
    | ok p =>
      obtain ⟨hn, rs, hm⟩ := Mesh.remove_eq_ok (n := p.2) h
      refine ⟨_, [p.2], rs, d.mesh.tick, .left rfl hn, ?_⟩
      rw [withdraw, hm]
  | connect source target =>
    rw [step]
    cases h : d.mesh.connect source target with
    | error e => exact hsame rfl _ _
    | ok p =>
      refine ⟨_, [], d.mesh.records, d.mesh.tick,
        evolves_update (i := source) rfl fun n => n.keeps_addNeighbor target, ?_⟩
      rw [List.append_nil, Except.map, adopt, Mesh.connect_eq_ok h]
      rfl
  | link x y =>
    rw [step]
    cases h : d.mesh.link x y with
    | error e => exact hsame rfl _ _
    | ok m =>
      refine ⟨_, [], d.mesh.records, d.mesh.tick,
        evolves_update_update (i := x) (j := y) rfl (fun n => n.keeps_addNeighbor y)
          fun n => n.keeps_addNeighbor x, ?_⟩
      rw [List.append_nil, adopt, Mesh.link_eq_ok h]
      rfl
  | setCoherence id coherence =>
    rw [step]
    cases h : d.mesh.setCoherence id coherence with
    | error e => exact hsame rfl _ _
    | ok m =>
      refine ⟨_, [], d.mesh.records, d.mesh.tick,
        evolves_update (i := id) (f := fun n => { n with coherence := coherence }) rfl
          fun n => ⟨rfl, rfl, rfl, rfl⟩, ?_⟩
      rw [List.append_nil, adopt, Mesh.setCoherence_eq_ok h]
      rfl
  | measure id metric =>
    rw [step, Mesh.measure]
    cases d.mesh.registry.get id with
    | error e => exact hsame rfl _ _
    | ok n => exact hsame rfl _ _
  | _ => cases ha

/-! ## Actions that bring a message before a node -/

theorem step_receive {i : NodeId} {n : Node} (msg : Message) (hn : d.node? i = some n) :
    ∃ taken m', Mesh.Reached d.mesh n msg (Node.imprint (msg.id d.mesh.suite) msg (d.mesh.fate n msg).imprint)
        ((d.mesh.fate n msg).event n msg) (d.mesh.offers n msg none (d.mesh.fate n msg)) taken m' ∧
      d.step (.receive i msg) = { d with mesh := m' } := by
  obtain ⟨-, taken, h⟩ := Mesh.receive_spec msg none hn
  exact ⟨taken, _, h, rfl⟩

/-- Of a reception that a forward ends in, only a log record is left beside what it did. -/
theorem handle_eq (m : Mesh) (f : Forward) :
    ∃ rs, m.handle f = { (m.receive f.target f.message (some f.source)).1 with records := rs } := by
  unfold Mesh.handle
  cases m.receive f.target f.message (some f.source) with
  | mk m' o =>
    cases o with
    | refused e => exact ⟨_, rfl⟩
    | _ => exact ⟨_, rfl⟩

theorem deliver_of_running {m : Mesh} {i : Nat} {f : Forward} (hf : m.propagator.running[i]? = some f) :
    ∃ rs, m.deliver i =
      { (m.receive f.target f.message (some f.source)).1 with
        records := rs
        propagator := (m.receive f.target f.message (some f.source)).1.propagator.complete i } := by
  obtain ⟨rs, hhandle⟩ := handle_eq m f
  refine ⟨rs, ?_⟩
  rw [Mesh.deliver, hf]
  dsimp only
  rw [hhandle]

/-- A delivery to a registered node is a reception, after which the forward is no longer pending. -/
theorem step_deliver {i : Nat} {f : Forward} {n : Node} (hf : d.mesh.propagator.running[i]? = some f)
    (hn : d.node? f.target = some n) :
    ∃ taken m' rs, Mesh.Reached d.mesh n f.message
        (Node.imprint (f.message.id d.mesh.suite) f.message (d.mesh.fate n f.message).imprint)
        ((d.mesh.fate n f.message).event n f.message)
        (d.mesh.offers n f.message (some f.source) (d.mesh.fate n f.message)) taken m' ∧
      d.step (.deliver i) =
        { d with mesh := { m' with records := rs, propagator := m'.propagator.complete i } } := by
  obtain ⟨-, taken, h⟩ := Mesh.receive_spec f.message (some f.source) hn
  obtain ⟨rs, hdeliver⟩ := deliver_of_running hf
  exact ⟨taken, _, rs, h, by rw [step, hdeliver]⟩

theorem step_deliver_of_unknown {i : Nat} {f : Forward} (hf : d.mesh.propagator.running[i]? = some f)
    (hn : d.node? f.target = none) :
    ∃ rs, d.step (.deliver i) =
      { d with mesh := { d.mesh with records := rs, propagator := d.mesh.propagator.complete i } } := by
  obtain ⟨rs, hdeliver⟩ := deliver_of_running hf
  rw [Mesh.receive_of_unknown hn] at hdeliver
  exact ⟨rs, by rw [step, hdeliver]⟩

theorem step_deliver_of_none {i : Nat} (hf : d.mesh.propagator.running[i]? = none) :
    d.step (.deliver i) = d := by
  rw [step, Mesh.deliver, hf]

theorem step_gossip {i : NodeId} {n : Node} (msg : Message) (hn : d.node? i = some n) :
    ∃ m', Mesh.Reached d.mesh n msg (Node.imprint (msg.id d.mesh.suite) msg (d.mesh.gossipImprint n msg))
        ((d.mesh.barred? n msg).bind fun fate => fate.event n msg) [] [] m' ∧
      d.step (.gossip i msg) =
        ⟨m', d.fanouts ++ if d.mesh.barred? n msg = none then
          [⟨i, msg, d.mesh.eligible n none, d.mesh.eligible n none⟩] else [], d.removed⟩ := by
  obtain ⟨h, hanswer⟩ := Mesh.beginGossip_spec msg hn
  refine ⟨_, h, ?_⟩
  rw [step]
  cases hbarred : d.mesh.barred? n msg with
  | some fate =>
    rw [hbarred] at hanswer
    obtain ⟨e, herror, -⟩ := hanswer
    have hbegin : d.mesh.beginGossip i msg = ((d.mesh.beginGossip i msg).1, .error e) := Prod.ext rfl herror
    rw [hbegin, enter]
    simp
  | none =>
    rw [hbarred] at hanswer
    have hbegin : d.mesh.beginGossip i msg = ((d.mesh.beginGossip i msg).1,
        .ok ⟨i, msg, d.mesh.eligible n none, d.mesh.eligible n none⟩) := Prod.ext rfl hanswer
    rw [hbegin, enter]
    simp

theorem step_gossip_of_unknown {i : NodeId} {msg : Message} (hn : d.node? i = none) :
    d.step (.gossip i msg) = d := by
  rw [step, Mesh.beginGossip_of_unknown hn]
  rfl

theorem step_receive_of_unknown {i : NodeId} {msg : Message} (hn : d.node? i = none) :
    d.step (.receive i msg) = d := by
  rw [step, Mesh.receive_of_unknown hn]

/-! ## Handing out a message -/

/-- A gossip either queues a forward to its next target or stays where it is. -/
theorem step_advance {k : Nat} (hopen : d.mesh.propagator.closed = false) :
    d.step (.advance k) = d ∨
      ∃ f target rest, d.fanouts[k]? = some f ∧ f.remaining = target :: rest ∧
        d.step (.advance k) =
          { d with
            mesh := { d.mesh with propagator := d.mesh.propagator.extend [⟨f.source, target, f.message⟩] }
            fanouts := d.fanouts.set k { f with remaining := rest } } := by
  rw [step]
  cases hk : d.fanouts[k]? with
  | none => exact .inl rfl
  | some f =>
    rw [Option.elim_some, Mesh.advance]
    cases hrem : f.remaining with
    | nil =>
      refine .inl ?_
      obtain ⟨hlt, hget⟩ := List.getElem?_eq_some_iff.1 hk
      rw [proceed, ← hget, List.set_getElem_self]
    | cons target rest =>
      dsimp only
      rcases d.mesh.propagator.submit_cases ⟨f.source, target, f.message⟩ with hq | hq | ⟨hclosed, -⟩
      · refine .inr ⟨f, target, rest, rfl, hrem, ?_⟩
        rw [hq]
        rfl
      · refine .inl ?_
        rw [hq]
        rfl
      · rw [hopen] at hclosed
        cases hclosed

/-- A gossip that is through ends, and is counted if it had a target. -/
theorem step_finish {k : Nat} :
    d.step (.finish k) = d ∨
      ∃ f, d.fanouts[k]? = some f ∧ f.remaining = [] ∧
        d.step (.finish k) = { d with mesh := d.mesh.endGossip f, fanouts := d.fanouts.eraseIdx k } := by
  rw [step]
  cases hk : d.fanouts[k]? with
  | none => exact .inl rfl
  | some f =>
    rw [Option.elim_some, conclude]
    by_cases hrem : f.remaining.isEmpty = true
    · exact .inr ⟨f, rfl, List.isEmpty_iff.1 hrem, if_pos hrem⟩
    · exact .inl (if_neg hrem)

/-! ## Every action -/

inductive Effect (d : Deployment) : Action → Deployment → Prop where
  | structural {a : Action} {r : Registry} {gone : List Node} (ha : a.isStructural = true)
      (h : Evolves d a r gone) (rs : List Record) (t : Nat) :
      Effect d a ⟨{ d.mesh with registry := r, records := rs, tick := t }, d.fanouts, d.removed ++ gone⟩
  | idle {a : Action} (h : Evolves d a d.mesh.registry []) : Effect d a d
  | lost {i : Nat} {f : Forward} (hf : d.mesh.propagator.running[i]? = some f) (hn : d.node? f.target = none)
      (rs : List Record) :
      Effect d (.deliver i)
        { d with mesh := { d.mesh with records := rs, propagator := d.mesh.propagator.complete i } }
  | delivered {i : Nat} {f : Forward} {n : Node} {taken : List Forward} {m : Mesh}
      (hf : d.mesh.propagator.running[i]? = some f) (hn : d.node? f.target = some n)
      (h : Mesh.Reached d.mesh n f.message
        (Node.imprint (f.message.id d.mesh.suite) f.message (d.mesh.fate n f.message).imprint)
        ((d.mesh.fate n f.message).event n f.message)
        (d.mesh.offers n f.message (some f.source) (d.mesh.fate n f.message)) taken m) (rs : List Record) :
      Effect d (.deliver i) { d with mesh := { m with records := rs, propagator := m.propagator.complete i } }
  | received {i : NodeId} {msg : Message} {n : Node} {taken : List Forward} {m : Mesh} (hn : d.node? i = some n)
      (h : Mesh.Reached d.mesh n msg (Node.imprint (msg.id d.mesh.suite) msg (d.mesh.fate n msg).imprint)
        ((d.mesh.fate n msg).event n msg) (d.mesh.offers n msg none (d.mesh.fate n msg)) taken m) :
      Effect d (.receive i msg) { d with mesh := m }
  | begun {i : NodeId} {msg : Message} {n : Node} {m : Mesh} (hn : d.node? i = some n)
      (h : Mesh.Reached d.mesh n msg (Node.imprint (msg.id d.mesh.suite) msg (d.mesh.gossipImprint n msg))
        ((d.mesh.barred? n msg).bind fun fate => fate.event n msg) [] [] m) :
      Effect d (.gossip i msg) ⟨m, d.fanouts ++ if d.mesh.barred? n msg = none then
        [⟨i, msg, d.mesh.eligible n none, d.mesh.eligible n none⟩] else [], d.removed⟩
  | advanced {k : Nat} {f : Fanout} {target : NodeId} {rest : List NodeId} (hk : d.fanouts[k]? = some f)
      (hrem : f.remaining = target :: rest) :
      Effect d (.advance k)
        { d with
          mesh := { d.mesh with propagator := d.mesh.propagator.extend [⟨f.source, target, f.message⟩] }
          fanouts := d.fanouts.set k { f with remaining := rest } }
  | finished {k : Nat} {f : Fanout} (hk : d.fanouts[k]? = some f) (hrem : f.remaining = []) (rs : List Record) :
      Effect d (.finish k)
        { d with
          mesh := { d.mesh with
            metrics := d.mesh.metrics.relayed f.targets.length 0
            events := d.mesh.events ++
              if f.targets.length = 0 then [] else [⟨f.source, .propagated, some f.message.vorticity⟩]
            records := rs }
          fanouts := d.fanouts.eraseIdx k }
  | took : Effect d .take { d with mesh := { d.mesh with propagator := d.mesh.propagator.take } }
  | launched : Effect d .launch { d with mesh := { d.mesh with propagator := d.mesh.propagator.launch } }

theorem effect_step (hopen : d.mesh.propagator.closed = false) (a : Action) : Effect d a (d.step a) := by
  cases hstructural : a.isStructural with
  | true =>
    obtain ⟨r, gone, rs, t, h, hstep⟩ := step_structural hstructural
    rw [hstep]
    exact .structural hstructural h rs t
  | false =>
    cases a with
    | gossip i msg =>
      cases hn : d.node? i with
      | none =>
        rw [step_gossip_of_unknown hn]
        exact .idle (.missed rfl hn)
      | some n =>
        obtain ⟨m, h, hstep⟩ := step_gossip msg hn
        rw [hstep]
        exact .begun hn h
    | receive i msg =>
      cases hn : d.node? i with
      | none =>
        rw [step_receive_of_unknown hn]
        exact .idle (.missed rfl hn)
      | some n =>
        obtain ⟨taken, m, h, hstep⟩ := step_receive msg hn
        rw [hstep]
        exact .received hn h
    | deliver i =>
      cases hf : d.mesh.propagator.running[i]? with
      | none =>
        have hp : d.presents (.deliver i) = none := by rw [presents, hf, Option.map_none]
        rw [step_deliver_of_none hf]
        exact .idle (evolves_refl hp)
      | some f =>
        cases hn : d.node? f.target with
        | none =>
          obtain ⟨rs, hstep⟩ := step_deliver_of_unknown hf hn
          rw [hstep]
          exact .lost hf hn rs
        | some n =>
          obtain ⟨taken, m, rs, h, hstep⟩ := step_deliver hf hn
          rw [hstep]
          exact .delivered hf hn h rs
    | advance k =>
      rcases step_advance (k := k) hopen with hstep | ⟨f, target, rest, hk, hrem, hstep⟩
      · rw [hstep]
        exact .idle (evolves_refl rfl)
      · rw [hstep]
        exact .advanced hk hrem
    | finish k =>
      rcases step_finish (d := d) (k := k) with hstep | ⟨f, hk, hrem, hstep⟩
      · rw [hstep]
        exact .idle (evolves_refl rfl)
      · obtain ⟨rs, hend⟩ := Mesh.announce_eq d.mesh f.source f.message f.targets.length
        rw [hstep, Mesh.endGossip, hend]
        exact .finished hk hrem rs
    | take => exact .took
    | launch => exact .launched
    | _ => cases hstructural

/-! ## The registry and its nodes -/

/-- A message that is not let in leaves the same behind however it comes. -/
theorem imprint_of_barred {n : Node} {msg : Message} {fate : Fate} (h : d.mesh.barred? n msg = some fate) :
    d.imprint a n msg = fate.imprint := by
  unfold imprint
  split
  · rw [Mesh.gossipImprint, h, Option.map_some, Option.getD_some]
  · rw [Mesh.fate, h, Option.getD_some]

/-- A message that leaves something behind was not remembered. -/
theorem unseen_of_imprint {n : Node} {msg : Message} (h : d.imprint a n msg ≠ .nothing) :
    n.hasSeen (msg.id d.mesh.suite) = false := by
  cases hseen : n.hasSeen (msg.id d.mesh.suite) with
  | false => rfl
  | true => exact absurd (imprint_of_barred (Mesh.barred?_of_seen hseen)) h

theorem unseen_of_logged {n : Node} {msg : Message} (h : d.imprint a n msg = .logged) :
    n.hasSeen (msg.id d.mesh.suite) = false := by
  apply unseen_of_imprint
  rw [h]
  exact Imprint.noConfusion

theorem presents_deliver {i : Nat} {f : Forward} (hf : d.mesh.propagator.running[i]? = some f) :
    d.presents (.deliver i) = some (f.target, f.message) := by
  rw [presents, hf, Option.map_some]

theorem presents_of_structural (ha : a.isStructural = true) : d.presents a = none := by
  cases a with
  | create | provision | remove | connect | link | setCoherence | measure => rfl
  | _ => cases ha

/-- Every action changes the registry in one of a few ways. -/
theorem Effect.evolves {d' : Deployment} (h : Effect d a d') :
    ∃ gone, Evolves d a d'.mesh.registry gone ∧ d'.removed = d.removed ++ gone := by
  have hstay : d'.removed = d.removed → Evolves d a d'.mesh.registry [] →
      ∃ gone, Evolves d a d'.mesh.registry gone ∧ d'.removed = d.removed ++ gone := by
    intro hremoved h
    exact ⟨[], h, by rw [hremoved, List.append_nil]⟩
  cases h with
  | structural ha h rs t => exact ⟨_, h, rfl⟩
  | idle h => exact hstay rfl h
  | lost hf hn rs => exact hstay rfl (.missed (presents_deliver hf) hn)
  | delivered hf hn h rs =>
    refine hstay rfl ?_
    rw [h.registry, Registry.id_of_find? hn]
    exact .reached (presents_deliver hf) hn
  | received hn h =>
    refine hstay rfl ?_
    rw [h.registry, Registry.id_of_find? hn]
    exact .reached rfl hn
  | begun hn h =>
    refine hstay rfl ?_
    rw [h.registry, Registry.id_of_find? hn]
    exact .reached rfl hn
  | advanced hk hrem => exact hstay rfl (evolves_refl rfl)
  | finished hk hrem rs => exact hstay rfl (evolves_refl rfl)
  | took => exact hstay rfl (evolves_refl rfl)
  | launched => exact hstay rfl (evolves_refl rfl)

/-- Everything that one action can do to the node registered under an id. -/
theorem Evolves.change {r : Registry} {gone : List Node} (h : Evolves d a r gone) (i : NodeId) :
    Change d a i (d.node? i) (r.find? i) := by
  rw [node?]
  cases h with
  | @joined n s hp hnew hs hfresh =>
    rw [Registry.find?_push]
    cases hn : d.mesh.registry.find? i with
    | some n' =>
      exact .kept (fun msg => by simp [hp]) (Node.Keeps.refl n')
    | none =>
      by_cases hi : n.id = i
      · rw [if_pos hi, Option.none_or]
        exact .joined hp hi hs hfresh
      · rw [if_neg hi, Option.none_or]
        exact .absent
  | @left id n ha hn =>
    by_cases hi : i = id
    · subst hi
      rw [Registry.find?_without_self, show d.mesh.registry.find? i = some n from hn]
      exact .left ha
    · rw [Registry.find?_without_of_ne hi]
      cases hk : d.mesh.registry.find? i with
      | none => exact .absent
      | some k => exact .kept (fun msg => by simp [ha, presents]) (k.keeps_removeNeighbor id)
  | @changed g hp hid hg =>
    rw [Registry.find?_map hid]
    cases hn : d.mesh.registry.find? i with
    | none => exact .absent
    | some n => exact .kept (fun msg => by simp [hp]) (hg n (Registry.mem_nodes_of_find? hn))
  | @missed j msg hp hj =>
    cases hn : d.mesh.registry.find? i with
    | none => exact .absent
    | some n =>
      refine .kept (fun msg' hp' => ?_) (Node.Keeps.refl n)
      rw [hp] at hp'
      cases hp'
      rw [node?, hn] at hj
      cases hj
  | @reached j msg n hp hn =>
    have hid : ∀ k, (Node.imprint (msg.id d.mesh.suite) msg (d.imprint a n msg) k).id = k.id := fun k => by simp
    by_cases hi : i = j
    · subst hi
      rw [Registry.find?_update_self hid hn, show d.mesh.registry.find? i = some n from hn]
      exact .reached hp
    · rw [Registry.find?_update_of_ne hid hi]
      cases hk : d.mesh.registry.find? i with
      | none => exact .absent
      | some k =>
        refine .kept (fun msg' hp' => hi ?_) (Node.Keeps.refl k)
        rw [hp] at hp'
        cases hp'
        rfl

end TriadMesh.Deployment
