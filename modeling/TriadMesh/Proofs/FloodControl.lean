import Mathlib.Data.Finset.Card
import TriadMesh.Proofs.Soundness

/-!
# How strong flood control is

A node forgets an id that it has logged only when younger ones push it out, so it logs a message a second
time only if it has newly recorded, in between, as many other ids as it has room for.
-/

namespace TriadMesh

/-! ## Ids that guard another -/

namespace SeenSet

variable {s : SeenSet} {x y : Digest} {R T : Finset Digest}

/-- The ids of `R` tell what has become of `x`: it is remembered and all younger ids are in `R`, or `R` has as
many others as there is room for. -/
def Guarded (s : SeenSet) (x : Digest) (R : Finset Digest) : Prop :=
  (∃ older younger, s.order = older ++ x :: younger ∧ ∀ y ∈ younger, y ∈ R) ∨ s.capacity ≤ (R.erase x).card

theorem Guarded.mono (h : s.Guarded x R) (hsub : R ⊆ T) : s.Guarded x T := by
  rcases h with ⟨older, younger, horder, hyounger⟩ | hcard
  · exact .inl ⟨older, younger, horder, fun y hy => hsub (hyounger y hy)⟩
  · exact .inr (Nat.le_trans hcard (Finset.card_le_card (Finset.erase_subset_erase x hsub)))

theorem guarded_insert_self (hx : s.contains x = false) (hcap : 0 < s.capacity) :
    (s.insert x).1.Guarded x ∅ := by
  refine .inl ⟨s.order.drop (s.order.length + 1 - s.capacity), [], ?_, ?_⟩
  · rw [order_insert_of_pos hx hcap]
  · intro y hy
    cases hy

/-- What is guarded and not remembered has been pushed out. -/
theorem Guarded.le_card (h : s.Guarded x R) (hx : s.contains x = false) : s.capacity ≤ (R.erase x).card := by
  rcases h with ⟨older, younger, horder, -⟩ | hcard
  · exact absurd (horder ▸ List.mem_append_right older List.mem_cons_self) (not_mem_order hx)
  · exact hcard

/-- When the oldest id is pushed out, the younger ones and the new one are as many as there is room for. -/
theorem le_card_of_pushed_out {younger : List Digest} (horder : s.order = x :: younger)
    (hyounger : ∀ z ∈ younger, z ∈ R) (hnew : y ∉ s.order) (hfull : s.capacity ≤ s.order.length) :
    s.capacity ≤ ((R ∪ {y}).erase x).card := by
  have hnodup : (x :: younger).Nodup := horder ▸ s.nodup
  obtain ⟨hx, hnodupYounger⟩ := List.nodup_cons.1 hnodup
  rw [horder, List.mem_cons, not_or] at hnew
  obtain ⟨hne, hyYounger⟩ := hnew
  have hdistinct : (y :: younger).Nodup := List.nodup_cons.2 ⟨hyYounger, hnodupYounger⟩
  have hsub : (y :: younger).toFinset ⊆ (R ∪ {y}).erase x := by
    intro z hz
    rw [List.mem_toFinset, List.mem_cons] at hz
    rw [Finset.mem_erase]
    rcases hz with rfl | hz
    · exact ⟨hne, Finset.mem_union_right _ (Finset.mem_singleton_self _)⟩
    · refine ⟨?_, Finset.mem_union_left _ (hyounger z hz)⟩
      rintro rfl
      exact hx hz
  have hcard := Finset.card_le_card hsub
  rw [List.toFinset_card_of_nodup hdistinct, List.length_cons] at hcard
  rw [horder, List.length_cons] at hfull
  exact Nat.le_trans hfull hcard

/-- A new id pushes out the oldest one at most. If that is a guarded one, the ids that are younger than it
and the new one are as many as there is room for. -/
theorem Guarded.drop (h : s.Guarded x R) (hy : s.contains y = false) :
    (∃ older younger, s.order.drop (s.order.length + 1 - s.capacity) = older ++ x :: younger ∧
        ∀ z ∈ younger, z ∈ R ∪ {y}) ∨
      s.capacity ≤ ((R ∪ {y}).erase x).card := by
  rcases h with ⟨older, younger, horder, hyounger⟩ | hcard
  case inr =>
    have hsub : R.erase x ⊆ (R ∪ {y}).erase x := Finset.erase_subset_erase x Finset.subset_union_left
    exact .inr (Nat.le_trans hcard (Finset.card_le_card hsub))
  have hkept : ∀ z ∈ younger, z ∈ R ∪ {y} := fun z hz => Finset.mem_union_left _ (hyounger z hz)
  by_cases hfull : s.order.length < s.capacity
  · have hzero : s.order.length + 1 - s.capacity = 0 := by omega
    rw [hzero, List.drop_zero]
    exact .inl ⟨older, younger, horder, hkept⟩
  · have hlength : s.order.length = s.capacity := Nat.le_antisymm s.bounded (Nat.le_of_not_lt hfull)
    have hone : s.order.length + 1 - s.capacity = 1 := by omega
    cases older with
    | cons z older =>
      rw [hone, horder]
      exact .inl ⟨older, younger, rfl, hkept⟩
    | nil => exact .inr (le_card_of_pushed_out horder hyounger (not_mem_order hy) (Nat.le_of_not_lt hfull))

theorem Guarded.insert (h : s.Guarded x R) (hy : s.contains y = false) (hcap : 0 < s.capacity) :
    (s.insert y).1.Guarded x (R ∪ {y}) := by
  rcases h.drop hy with ⟨older, younger, hdrop, hyounger⟩ | hcard
  · refine .inl ⟨older, younger ++ [y], ?_, ?_⟩
    · rw [order_insert_of_pos hy hcap, hdrop, List.append_assoc, List.cons_append]
    · intro z hz
      rcases List.mem_append.1 hz with hz | hz
      · exact hyounger z hz
      · rw [List.mem_singleton.1 hz]
        exact Finset.mem_union_right R (Finset.mem_singleton_self y)
  · exact .inr (by rwa [capacity_insert])

/-- An id stays guarded when a new one is remembered and forgotten again. -/
theorem Guarded.insert_erase (h : s.Guarded x R) (hy : s.contains y = false) (hcap : 0 < s.capacity) :
    ((s.insert y).1.erase y).Guarded x (R ∪ {y}) := by
  rcases h.drop hy with ⟨older, younger, hdrop, hyounger⟩ | hcard
  · exact .inl ⟨older, younger, by rw [order_erase_insert hy hcap, hdrop], hyounger⟩
  · exact .inr (by rwa [capacity_erase, capacity_insert])

end SeenSet

/-! ## Runs -/

namespace Deployment

variable {d : Deployment} {a b : Action} {acts : List Action} {i : NodeId} {n n' : Node} {msg : Message}
variable {x : Digest} {R : Finset Digest}

/-- What each action of a run contributes, one after the other. -/
def along {α : Type} (f : Deployment → Action → List α) : Deployment → List Action → List α
  | _, [] => []
  | d, a :: acts => f d a ++ along f (d.step a) acts

theorem along_append {α : Type} (f : Deployment → Action → List α) (d : Deployment) (xs ys : List Action) :
    along f d (xs ++ ys) = along f d xs ++ along f (d.run xs) ys := by
  induction xs generalizing d with
  | nil => rfl
  | cons a xs ih => rw [List.cons_append, along, along, ih, run_cons, List.append_assoc]

theorem along_subset {α : Type} {f g : Deployment → Action → List α} (h : ∀ d a, f d a ⊆ g d a)
    (d : Deployment)
    (acts : List Action) : along f d acts ⊆ along g d acts := by
  induction acts generalizing d with
  | nil => exact List.Subset.refl _
  | cons a acts ih =>
    intro y hy
    rcases List.mem_append.1 hy with hy | hy
    · exact List.mem_append_left _ (h d a hy)
    · exact List.mem_append_right _ (ih (d.step a) hy)

/-- The id of a message that an action brings before the node `i`. -/
def presented (i : NodeId) (d : Deployment) (a : Action) : List Digest :=
  match d.presents a with
  | some (j, msg) => if j = i then [msg.id d.mesh.suite] else []
  | none => []

/-- The id that an action makes the node `i` newly record. -/
def recorded (i : NodeId) (d : Deployment) (a : Action) : List Digest :=
  (presented i d a).filter fun x => (d.node? i).any fun n => (n.markSeen x).2

/-- An action appends a message to the log of the node `i`. -/
def Logs (d : Deployment) (a : Action) (i : NodeId) (msg : Message) : Prop :=
  ∃ n n', d.node? i = some n ∧ (d.step a).node? i = some n' ∧ n'.log = n.log ++ [msg]

/-- An action logs a message with the id `x` at the node `i`. -/
def Appends (d : Deployment) (a : Action) (i : NodeId) (x : Digest) : Prop :=
  ∃ n n' msg, d.node? i = some n ∧ (d.step a).node? i = some n' ∧ n'.log = n.log ++ [msg] ∧
    msg.id d.mesh.suite = x

theorem appends_of_logs (log : List Message) (msg : Message) (hlog : (d.node? i).map Node.log = some log)
    (hlog' : ((d.step a).node? i).map Node.log = some (log ++ [msg])) (hid : msg.id d.mesh.suite = x) :
    Appends d a i x := by
  obtain ⟨n, hn, rfl⟩ := Option.map_eq_some_iff.1 hlog
  obtain ⟨n', hn', hlog'⟩ := Option.map_eq_some_iff.1 hlog'
  exact ⟨n, n', msg, hn, hn', hlog', hid⟩

/-- The node `i` is registered from the start to the end of a run, so that it is one and the same object. -/
def Stays (i : NodeId) : Deployment → List Action → Prop
  | d, [] => (d.node? i).isSome = true
  | d, a :: acts => (d.node? i).isSome = true ∧ Stays i (d.step a) acts

instance decidableStays (i : NodeId) : (d : Deployment) → (acts : List Action) → Decidable (Stays i d acts)
  | d, [] => inferInstanceAs (Decidable ((d.node? i).isSome = true))
  | d, a :: acts =>
    have := decidableStays i (d.step a) acts
    inferInstanceAs (Decidable ((d.node? i).isSome = true ∧ Stays i (d.step a) acts))

theorem presented_of_presents (hp : d.presents a = some (i, msg)) :
    presented i d a = [msg.id d.mesh.suite] := by
  rw [presented, hp]
  exact if_pos rfl

theorem recorded_subset (i : NodeId) (d : Deployment) (a : Action) : recorded i d a ⊆ presented i d a :=
  List.filter_sublist.subset

theorem recorded_of_unseen (hp : d.presents a = some (i, msg)) (hn : d.node? i = some n)
    (hunseen : n.hasSeen (msg.id d.mesh.suite) = false) : recorded i d a = [msg.id d.mesh.suite] := by
  have hmark : (n.markSeen (msg.id d.mesh.suite)).2 = true := by
    rw [Node.markSeen, SeenSet.insert_snd]
    simpa [Node.hasSeen] using hunseen
  rw [recorded, presented_of_presents hp, hn]
  simp [hmark]

theorem Stays.isSome (h : Stays i d acts) : (d.node? i).isSome = true := by
  cases acts with
  | nil => exact h
  | cons a acts => exact h.1

theorem stays_append (xs ys : List Action) (d : Deployment) :
    Stays i d (xs ++ ys) ↔ Stays i d xs ∧ Stays i (d.run xs) ys := by
  induction xs generalizing d with
  | nil =>
    constructor
    · exact fun h => ⟨h.isSome, h⟩
    · exact And.right
  | cons a xs ih => rw [List.cons_append, Stays, Stays, ih, run_cons, and_assoc]

theorem Sound.capacity_step (h : Sound d) (hn : d.node? i = some n) (hn' : (d.step a).node? i = some n') :
    n'.seen.capacity = n.seen.capacity := by
  have hchange := h.change a i
  rw [hn, hn'] at hchange
  cases hchange with
  | kept hp hkeeps => rw [hkeeps.seen]
  | reached hp => exact Node.imprint_capacity _ _ _ _

theorem Sound.capacity_run (h : Sound d) (hstays : Stays i d acts) (hn : d.node? i = some n)
    (hn' : (d.run acts).node? i = some n') : n'.seen.capacity = n.seen.capacity := by
  induction acts generalizing d n with
  | nil =>
    rw [run_nil, hn] at hn'
    cases hn'
    rfl
  | cons a acts ih =>
    obtain ⟨k, hk⟩ := Option.isSome_iff_exists.1 hstays.2.isSome
    rw [ih (h.step a) hstays.2 hk hn', h.capacity_step hn hk]

/-- One action leaves an id guarded by what has been recorded. -/
theorem Sound.guarded_step (h : Sound d) (hn : d.node? i = some n) (hn' : (d.step a).node? i = some n')
    (hguarded : n.seen.Guarded x R) : n'.seen.Guarded x (R ∪ (recorded i d a).toFinset) := by
  have hroomy := h.roomy i n hn
  have hchange := h.change a i
  rw [hn, hn'] at hchange
  cases hchange with
  | kept hp hkeeps =>
    rw [hkeeps.seen]
    exact hguarded.mono Finset.subset_union_left
  | @reached _ msg hp =>
    by_cases hnothing : d.imprint a n msg = .nothing
    · rw [hnothing]
      exact hguarded.mono Finset.subset_union_left
    · have hunseen := unseen_of_imprint hnothing
      rw [recorded_of_unseen hp hn hunseen, List.toFinset_cons, List.toFinset_nil, insert_empty_eq]
      cases himprint : d.imprint a n msg with
      | nothing => exact absurd himprint hnothing
      | marked => exact hguarded.insert hunseen hroomy
      | logged => exact hguarded.insert hunseen hroomy
      | withdrawn => exact hguarded.insert_erase hunseen hroomy

theorem Sound.guarded_run (h : Sound d) (hstays : Stays i d acts) (hn : d.node? i = some n)
    (hn' : (d.run acts).node? i = some n') (hguarded : n.seen.Guarded x R) :
    n'.seen.Guarded x (R ∪ (along (recorded i) d acts).toFinset) := by
  induction acts generalizing d n R with
  | nil =>
    rw [run_nil, hn] at hn'
    cases hn'
    exact hguarded.mono Finset.subset_union_left
  | cons a acts ih =>
    obtain ⟨k, hk⟩ := Option.isSome_iff_exists.1 hstays.2.isSome
    have hrun := ih (h.step a) hstays.2 hk hn' (h.guarded_step hn hk hguarded)
    rwa [along, List.toFinset_append, ← Finset.union_assoc]

/-- An action that logs a message brings it before a node that lets it in. -/
theorem Sound.logs_iff (h : Sound d) : Logs d a i msg ↔
    ∃ n, d.presents a = some (i, msg) ∧ d.node? i = some n ∧ d.imprint a n msg = .logged := by
  constructor
  · rintro ⟨n, n', hn, hn', hlog⟩
    have hchange := h.change a i
    rw [hn, hn'] at hchange
    cases hchange with
    | kept hp hkeeps =>
      rw [hkeeps.log] at hlog
      simp at hlog
    | @reached _ msg' hp =>
      rw [Node.imprint_log] at hlog
      by_cases hlogged : d.imprint a n msg' = .logged
      · rw [if_pos hlogged] at hlog
        have hmsg : msg' = msg := by simpa using hlog
        subst hmsg
        exact ⟨n, hp, hn, hlogged⟩
      · rw [if_neg hlogged] at hlog
        simp at hlog
  · rintro ⟨n, hp, hn, hlogged⟩
    refine ⟨n, _, hn, h.node_reached hp hn, ?_⟩
    rw [Node.imprint_log, if_pos hlogged]

theorem Sound.logged_of_appends (h : Sound d) (happends : Appends d a i x) :
    ∃ n msg, d.presents a = some (i, msg) ∧ d.node? i = some n ∧ d.imprint a n msg = .logged ∧
      msg.id d.mesh.suite = x := by
  obtain ⟨n, n', msg, hn, hn', hlog, hid⟩ := happends
  obtain ⟨k, hp, hk, hlogged⟩ := h.logs_iff.1 ⟨n, n', hn, hn', hlog⟩
  exact ⟨k, msg, hp, hk, hlogged, hid⟩

/-- Between two times at which a node logs an id, it newly records as many other ids as it has room for. -/
theorem Sound.capacity_le (h : Sound d) (hfirst : Appends d a i x) (hn : (d.step a).node? i = some n)
    (hstays : Stays i (d.step a) acts) (hagain : Appends ((d.step a).run acts) b i x) :
    n.seen.capacity ≤ ((along (recorded i) (d.step a) acts).toFinset.erase x).card := by
  obtain ⟨k, msg, hp, hk, hlogged, hid⟩ := h.logged_of_appends hfirst
  have hguarded : n.seen.Guarded x ∅ := by
    have hreached := h.node_reached hp hk
    rw [hlogged, hn] at hreached
    cases hreached
    rw [← hid]
    exact SeenSet.guarded_insert_self (unseen_of_logged hlogged) (h.roomy i k hk)
  obtain ⟨n', msg', -, hn', hlogged', hid'⟩ := ((h.step a).run acts).logged_of_appends hagain
  have hunseen := unseen_of_logged hlogged'
  rw [hid'] at hunseen
  have hcard := ((h.step a).guarded_run hstays hn hn' hguarded).le_card hunseen
  rwa [(h.step a).capacity_run hstays hn hn', Finset.empty_union] at hcard

theorem Sound.log_step (h : Sound d) (hn : d.node? i = some n) (hn' : (d.step a).node? i = some n') :
    n'.log = n.log ∨ ∃ msg, n'.log = n.log ++ [msg] := by
  have hchange := h.change a i
  rw [hn, hn'] at hchange
  cases hchange with
  | kept hp hkeeps => exact .inl hkeeps.log
  | reached hp =>
    rw [Node.imprint_log]
    split
    · exact .inr ⟨_, rfl⟩
    · exact .inl rfl

/-- What a log has got in a run was appended by some action of the run. -/
theorem Sound.appended_of_mem (h : Sound d) (hstays : Stays i d acts) (hn : d.node? i = some n)
    (hn' : (d.run acts).node? i = some n') (hmsg : msg ∈ n'.log) (hnew : msg ∉ n.log) :
    ∃ pre a post, acts = pre ++ a :: post ∧ Appends (d.run pre) a i (msg.id d.mesh.suite) := by
  induction acts generalizing d n with
  | nil =>
    rw [run_nil, hn] at hn'
    cases hn'
    exact absurd hmsg hnew
  | cons a acts ih =>
    obtain ⟨k, hk⟩ := Option.isSome_iff_exists.1 hstays.2.isSome
    by_cases hlogged : msg ∈ k.log
    · refine ⟨[], a, acts, rfl, n, k, msg, hn, hk, ?_, rfl⟩
      rcases h.log_step hn hk with hlog | ⟨msg', hlog⟩
      · exact absurd (hlog ▸ hlogged) hnew
      · rw [hlog, List.mem_append, List.mem_singleton] at hlogged
        rw [hlog, hlogged.resolve_left hnew]
    · obtain ⟨pre, b, post, rfl, happends⟩ := ih (h.step a) hstays.2 hk hn' hlogged
      rw [(h.effect a).settings.1] at happends
      exact ⟨a :: pre, b, post, rfl, happends⟩

/-- Up to the second time that a node logs an id, more ids have come before it than it has room for. -/
theorem Sound.capacity_lt (h : Sound d) {pre post : List Action} (hn : d.node? i = some n)
    (hstays : Stays i d (pre ++ a :: post)) (hfirst : Appends (d.run pre) a i x)
    (hagain : Appends (d.run (pre ++ a :: post)) b i x) :
    n.seen.capacity < (along (presented i) d (pre ++ a :: post ++ [b])).toFinset.card := by
  obtain ⟨hstaysPre, hstaysPost⟩ := (stays_append pre (a :: post) d).1 hstays
  obtain ⟨k, hk⟩ := Option.isSome_iff_exists.1 hstaysPost.isSome
  obtain ⟨k', hk'⟩ := Option.isSome_iff_exists.1 hstaysPost.2.isSome
  have hcapacity : k'.seen.capacity = n.seen.capacity := by
    rw [(h.run pre).capacity_step hk hk', h.capacity_run hstaysPre hn hk]
  rw [run_append, run_cons] at hagain
  have hmany := (h.run pre).capacity_le hfirst hk' hstaysPost.2 hagain
  rw [hcapacity] at hmany
  have hx : x ∈ (along (presented i) d (pre ++ a :: post ++ [b])).toFinset := by
    obtain ⟨j, msg, hp, -, -, hid⟩ := (h.run pre).logged_of_appends hfirst
    rw [List.mem_toFinset, List.append_assoc, along_append, List.cons_append, along,
      presented_of_presents hp, hid]
    simp
  have hrecorded : (along (recorded i) ((d.run pre).step a) post).toFinset ⊆
      (along (presented i) d (pre ++ a :: post ++ [b])).toFinset := by
    intro y hy
    have hy' := along_subset (recorded_subset i) _ _ (List.mem_toFinset.1 hy)
    rw [List.mem_toFinset, List.append_assoc, along_append, List.cons_append, along, along_append]
    simp [hy']
  have hfewer := Finset.card_le_card (Finset.erase_subset_erase x hrecorded)
  have hless := Finset.card_erase_lt_of_mem hx
  omega

/-- A node that has room for all ids that come before it logs none of them twice. -/
theorem Sound.nodup_log (h : Sound d) (hn : d.node? i = some n) (hempty : n.log = []) (hstays : Stays i d acts)
    (hfew : (along (presented i) d acts).toFinset.card ≤ n.seen.capacity)
    (hn' : (d.run acts).node? i = some n') : (n'.log.map (·.id d.mesh.suite)).Nodup := by
  induction acts using List.reverseRecOn generalizing n' with
  | nil =>
    rw [run_nil, hn] at hn'
    cases hn'
    rw [hempty]
    exact List.nodup_nil
  | append_singleton acts b ih =>
    obtain ⟨hbefore, hlast⟩ := (stays_append acts [b] d).1 hstays
    obtain ⟨k, hk⟩ := Option.isSome_iff_exists.1 hlast.isSome
    rw [run_append, run_cons, run_nil] at hn'
    have hsub : along (presented i) d acts ⊆ along (presented i) d (acts ++ [b]) := by
      rw [along_append]
      exact List.subset_append_left _ _
    have hfinset : (along (presented i) d acts).toFinset ⊆ (along (presented i) d (acts ++ [b])).toFinset := by
      intro y hy
      exact List.mem_toFinset.2 (hsub (List.mem_toFinset.1 hy))
    have hnodup := ih hbefore (Nat.le_trans (Finset.card_le_card hfinset) hfew) hk
    rcases (h.run acts).log_step hk hn' with hlog | ⟨msg, hlog⟩
    · rwa [hlog]
    · rw [hlog, List.map_append, List.map_singleton, ← List.concat_eq_append]
      refine hnodup.concat ?_
      -- If the id was in the log already, more ids have come than there is room for.
      intro htwice
      obtain ⟨msg', hmem, hid⟩ := List.mem_map.1 htwice
      obtain ⟨pre, a, post, rfl, hfirst⟩ := h.appended_of_mem hbefore hn hk hmem (by simp [hempty])
      have hsuite := (h.settings_run (pre ++ a :: post)).1
      have hagain : Appends (d.run (pre ++ a :: post)) b i (msg'.id d.mesh.suite) :=
        ⟨k, n', msg, hk, hn', hlog, by rw [hsuite, hid]⟩
      exact absurd hfew (Nat.not_le_of_lt (h.capacity_lt hn hbefore hfirst hagain))

/-- Of a node object with room for `c` ids, in any run: if it logs an id at one step and again at a later one, it
has newly recorded at least `c` different other ids in between. So if no more than `c` different ids ever come
before it, no two entries of its log have the same id. -/
theorem flood_control (h : Reachable d) (i : NodeId) :
    (∀ a n acts b x, Appends d a i x → (d.step a).node? i = some n → Stays i (d.step a) acts →
      Appends ((d.step a).run acts) b i x →
      n.seen.capacity ≤ ((along (recorded i) (d.step a) acts).toFinset.erase x).card) ∧
    (∀ a n acts n', d.node? i = none → (d.step a).node? i = some n → Stays i (d.step a) acts →
      (along (presented i) (d.step a) acts).toFinset.card ≤ n.seen.capacity →
      ((d.step a).run acts).node? i = some n' → (n'.log.map (·.id d.mesh.suite)).Nodup) := by
  constructor
  · intro a n acts b x hfirst hn hstays hagain
    exact h.sound.capacity_le hfirst hn hstays hagain
  · intro a n acts n' hnone hn hstays hfew hn'
    have hempty : n.log = [] := by
      have hchange := h.sound.change a i
      rw [hnone, hn] at hchange
      cases hchange with
      | joined hp hid hs hfresh => exact hfresh.log
    have hnodup := (h.step a).sound.nodup_log hn hempty hstays hfew hn'
    rwa [(h.sound.effect a).settings.1] at hnodup

/-- A node with room for one id logs a message again after it has logged another one, and none twice as long as
one is all that comes. -/
theorem flood_control_triangle :
    let d := (ofMesh Sample.mesh).run Sample.triangle
    let first := Action.gossip "a" (Sample.message 1)
    let between := [Action.gossip "a" (Sample.message 2)]
    let x := (Sample.message 1).id d.mesh.suite
    (d.Appends first "a" x ∧ ((d.step first).run between).Appends first "a" x ∧
      1 ≤ ((along (recorded "a") (d.step first) between).toFinset.erase x).card) ∧
    ∃ n, ((ofMesh Sample.mesh).run (Sample.triangle ++ [first, first])).node? "a" = some n ∧
      (n.log.map (·.id Sample.mesh.suite)).Nodup := by
  intro d first between x
  have hstart : Reachable (ofMesh Sample.mesh) := Reachable.start Sample.start_mesh
  have hreachable : Reachable d := hstart.run Sample.triangle
  have hfirst : d.Appends first "a" x :=
    appends_of_logs [] (Sample.message 1) (by decide +kernel) (by decide +kernel) rfl
  have hsuite : ((d.step first).run between).mesh.suite = d.mesh.suite := by
    rw [← run_cons]
    exact (hreachable.sound.settings_run _).1
  have hagain : ((d.step first).run between).Appends first "a" x :=
    appends_of_logs [Sample.message 1, Sample.message 2] (Sample.message 1) (by decide +kernel)
      (by decide +kernel) (by rw [hsuite])
  have hstays : Stays "a" (d.step first) between := by decide +kernel
  have hroom : ((d.step first).node? "a").map (·.seen.capacity) = some 1 := by decide +kernel
  obtain ⟨n, hn, hcapacity⟩ := Option.map_eq_some_iff.1 hroom
  have hcard := (flood_control hreachable "a").1 first n between first x hfirst hn hstays hagain
  rw [hcapacity] at hcard
  refine ⟨⟨hfirst, hagain, hcard⟩, ?_⟩
  let join := Action.create "a" Sample.keys 1 (.fixed 1)
  let later := Sample.triangle.tail ++ [first, first]
  have habsent : ((ofMesh Sample.mesh).node? "a").isNone = true := by decide +kernel
  have hjoined : (((ofMesh Sample.mesh).step join).node? "a").map (·.seen.capacity) = some 1 := by decide +kernel
  have hend : ((((ofMesh Sample.mesh).step join).run later).node? "a").isSome = true := by decide +kernel
  have hlater : Stays "a" ((ofMesh Sample.mesh).step join) later := by decide +kernel
  have hfew : (along (presented "a") ((ofMesh Sample.mesh).step join) later).toFinset.card ≤ 1 := by
    decide +kernel
  obtain ⟨k, hk, hkcapacity⟩ := Option.map_eq_some_iff.1 hjoined
  obtain ⟨k', hk'⟩ := Option.isSome_iff_exists.1 hend
  have hacts : Sample.triangle ++ [first, first] = join :: later := rfl
  rw [← hkcapacity] at hfew
  rw [hacts, run_cons]
  have hnone := Option.isNone_iff_eq_none.1 habsent
  exact ⟨k', hk', (flood_control hstart "a").2 join k later k' hnone hk hlater hfew hk'⟩

end Deployment

end TriadMesh
