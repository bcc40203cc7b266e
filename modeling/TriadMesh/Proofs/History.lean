import Mathlib.Data.List.Basic
import Mathlib.Data.List.Induction
import Mathlib.Data.Nat.Find
import TriadMesh.Proofs.Topology

/-!
# The topology as a history

Which nodes are registered and which are neighbors can be told from the calls that have succeeded. A node is
registered if it has not been removed since it was last inserted, and one node is a neighbor of another if it has
been connected to it since both were. All lists are in the order in which this happened.
-/

namespace TriadMesh.Registry

/-- A call that has succeeded. A link is two connections. -/
inductive Entry where
  | inserted (i : NodeId)
  | connected (source target : NodeId)
  | removed (i : NodeId)
deriving DecidableEq

/-! ## Reading a history

The time of an entry is its place in the history.
-/

/-- The node has not been removed since an insertion. -/
def Lives (h : List Entry) (i : NodeId) : Prop :=
  ∃ t : Nat, h[t]? = some (.inserted i) ∧ ∀ u : Nat, h[u]? = some (.removed i) → u < t

/-- The latest insertion of a node was at the time `t`. -/
def Latest (h : List Entry) (i : NodeId) (t : Nat) : Prop :=
  h[t]? = some (.inserted i) ∧ ∀ u, h[u]? = some (.inserted i) → u ≤ t

/-- One node was connected to another at the time `t`, after the latest insertions of both. -/
def Joined (h : List Entry) (a b : NodeId) (t : Nat) : Prop :=
  h[t]? = some (.connected a b) ∧ ∀ u, h[u]? = some (.inserted a) ∨ h[u]? = some (.inserted b) → u < t

/-- The first such connection was at the time `t`. -/
def FirstJoined (h : List Entry) (a b : NodeId) (t : Nat) : Prop :=
  Joined h a b t ∧ ∀ u, Joined h a b u → t ≤ u

variable {h : List Entry} {e e' : Entry} {i a b : NodeId} {t u : Nat}

theorem lt_of_entry (ht : h[t]? = some e) : t < h.length := (List.getElem?_eq_some_iff.1 ht).1

theorem entry_snoc : (h ++ [e])[t]? = some e' ↔ h[t]? = some e' ∨ t = h.length ∧ e = e' := by
  rcases Nat.lt_trichotomy t h.length with hlt | rfl | hgt
  · have hne : t ≠ h.length := Nat.ne_of_lt hlt
    simp [List.getElem?_append_left hlt, hne]
  · simp
  · have hnone : h[t]? = none := List.getElem?_eq_none (Nat.le_of_lt hgt)
    have hnone' : (h ++ [e])[t]? = none := by
      refine List.getElem?_eq_none ?_
      rw [List.length_append, List.length_singleton]
      omega
    rw [hnone, hnone']
    simp [Nat.ne_of_gt hgt]

theorem lives_snoc : Lives (h ++ [e]) i ↔ e = .inserted i ∨ Lives h i ∧ e ≠ .removed i := by
  simp only [Lives, entry_snoc]
  constructor
  · rintro ⟨t, ht | ⟨rfl, rfl⟩, hsince⟩
    · refine .inr ⟨⟨t, ht, fun u hu => hsince u (.inl hu)⟩, ?_⟩
      rintro rfl
      exact Nat.lt_asymm (lt_of_entry ht) (hsince _ (.inr ⟨rfl, rfl⟩))
    · exact .inl rfl
  · rintro (rfl | ⟨⟨t, ht, hsince⟩, hne⟩)
    · refine ⟨h.length, .inr ⟨rfl, rfl⟩, ?_⟩
      rintro u (hu | ⟨-, hu⟩)
      · exact lt_of_entry hu
      · cases hu
    · refine ⟨t, .inl ht, ?_⟩
      rintro u (hu | ⟨-, hu⟩)
      · exact hsince u hu
      · exact absurd hu hne

theorem latest_snoc : Latest (h ++ [e]) i t ↔ Latest h i t ∧ e ≠ .inserted i ∨ t = h.length ∧ e = .inserted i := by
  simp only [Latest, entry_snoc]
  constructor
  · rintro ⟨ht | ⟨rfl, rfl⟩, hlast⟩
    · refine .inl ⟨⟨ht, fun u hu => hlast u (.inl hu)⟩, ?_⟩
      rintro rfl
      exact Nat.not_lt.2 (hlast _ (.inr ⟨rfl, rfl⟩)) (lt_of_entry ht)
    · exact .inr ⟨rfl, rfl⟩
  · rintro (⟨⟨ht, hlast⟩, hne⟩ | ⟨rfl, rfl⟩)
    · refine ⟨.inl ht, ?_⟩
      rintro u (hu | ⟨-, hu⟩)
      · exact hlast u hu
      · exact absurd hu hne
    · refine ⟨.inr ⟨rfl, rfl⟩, ?_⟩
      rintro u (hu | ⟨rfl, -⟩)
      · exact Nat.le_of_lt (lt_of_entry hu)
      · exact Nat.le_refl _

theorem joined_snoc : Joined (h ++ [e]) a b t ↔
    Joined h a b t ∧ e ≠ .inserted a ∧ e ≠ .inserted b ∨ t = h.length ∧ e = .connected a b := by
  simp only [Joined, entry_snoc]
  constructor
  · rintro ⟨ht | ⟨rfl, rfl⟩, hsince⟩
    · refine .inl ⟨⟨ht, fun u hu => hsince u (hu.imp .inl .inl)⟩, ?_, ?_⟩
      · rintro rfl
        exact Nat.lt_asymm (lt_of_entry ht) (hsince _ (.inl (.inr ⟨rfl, rfl⟩)))
      · rintro rfl
        exact Nat.lt_asymm (lt_of_entry ht) (hsince _ (.inr (.inr ⟨rfl, rfl⟩)))
    · exact .inr ⟨rfl, rfl⟩
  · rintro (⟨⟨ht, hsince⟩, ha, hb⟩ | ⟨rfl, rfl⟩)
    · refine ⟨.inl ht, ?_⟩
      rintro u ((hu | ⟨-, hu⟩) | (hu | ⟨-, hu⟩))
      · exact hsince u (.inl hu)
      · exact absurd hu ha
      · exact hsince u (.inr hu)
      · exact absurd hu hb
    · refine ⟨.inr ⟨rfl, rfl⟩, ?_⟩
      rintro u ((hu | ⟨-, hu⟩) | (hu | ⟨-, hu⟩))
      · exact lt_of_entry hu
      · cases hu
      · exact lt_of_entry hu
      · cases hu

/-- A node that has been inserted has a latest insertion. -/
theorem exists_latest (ht : h[t]? = some (.inserted i)) : ∃ u, Latest h i u := by
  induction h using List.reverseRecOn generalizing t with
  | nil => cases ht
  | append_singleton h e ih =>
    by_cases he : e = .inserted i
    · exact ⟨h.length, latest_snoc.2 (.inr ⟨rfl, he⟩)⟩
    · obtain ⟨u, hu⟩ := ih ((entry_snoc.1 ht).resolve_right fun h => he h.2)
      exact ⟨u, latest_snoc.2 (.inl ⟨hu, he⟩)⟩

theorem Joined.exists_first (hj : Joined h a b t) : ∃ u, FirstJoined h a b u := by
  classical
  have hsome : ∃ u, Joined h a b u := ⟨t, hj⟩
  exact ⟨Nat.find hsome, Nat.find_spec hsome, fun u hu => Nat.find_min' hsome hu⟩

/-- A first connection stays the first one until one of its ends is inserted again. -/
theorem FirstJoined.snoc (hfirst : FirstJoined h a b t) (ha : e ≠ .inserted a) (hb : e ≠ .inserted b) :
    FirstJoined (h ++ [e]) a b t := by
  obtain ⟨ht, hmin⟩ := hfirst
  refine ⟨joined_snoc.2 (.inl ⟨ht, ha, hb⟩), fun u hu => ?_⟩
  rcases joined_snoc.1 hu with ⟨hu, -⟩ | ⟨rfl, -⟩
  · exact hmin u hu
  · exact Nat.le_of_lt (lt_of_entry ht.1)

/-! ## What a registry shows of it -/

variable {r r' : Registry} {n n' : Node}

/-- The neighbors of a node are the registered nodes that it has been joined to, in the order in which this
happened. -/
structure Lined (r : Registry) (h : List Entry) (n : Node) : Prop where
  nodup : n.neighbors.Nodup
  other : n.id ∉ n.neighbors
  joined : ∀ b, b ∈ n.neighbors ↔ b ∈ r.ids ∧ ∃ t, Joined h n.id b t
  ordered : n.neighbors.Pairwise fun b c => ∃ t u, FirstJoined h n.id b t ∧ FirstJoined h n.id c u ∧ t < u

/-- The registered nodes are those that live, in the order of their latest insertions. -/
structure Reflects (r : Registry) (h : List Entry) : Prop where
  nodup : r.ids.Nodup
  lives : ∀ i, i ∈ r.ids ↔ Lives h i
  ordered : r.ids.Pairwise fun i j => ∃ t u, Latest h i t ∧ Latest h j u ∧ t < u
  lined : ∀ n ∈ r.nodes, Lined r h n

/-- A node that has lost neighbors at most is still in line, if it has kept the right ones. -/
theorem Lined.snoc (hl : Lined r h n) (hid : n'.id = n.id) (hsub : n'.neighbors.Sublist n.neighbors)
    (hself : e ≠ .inserted n.id) (hneighbors : ∀ b ∈ n'.neighbors, e ≠ .inserted b)
    (hjoined : ∀ b, b ∈ n'.neighbors ↔ b ∈ r'.ids ∧ ∃ t, Joined (h ++ [e]) n.id b t) :
    Lined r' (h ++ [e]) n' where
  nodup := hl.nodup.sublist hsub
  other := by
    rw [hid]
    exact fun hmem => hl.other (hsub.subset hmem)
  joined := by rwa [hid]
  ordered := by
    rw [hid]
    refine (hl.ordered.sublist hsub).imp_of_mem ?_
    rintro b c hb hc ⟨t, u, ht, hu, hlt⟩
    exact ⟨t, u, ht.snoc hself (hneighbors b hb), hu.snoc hself (hneighbors c hc), hlt⟩

/-- A node that is connected to another one gets it as its last neighbor, unless it has it already. -/
theorem Lined.addNeighbor (hl : Lined r h n) (hids : r'.ids = r.ids) (hne : n.id ≠ b) (hb : b ∈ r.ids) :
    Lined r' (h ++ [.connected n.id b]) (n.addNeighbor b).1 := by
  have hjoined : ∀ c t, Joined (h ++ [.connected n.id b]) n.id c t ↔
      Joined h n.id c t ∨ t = h.length ∧ b = c := by
    intro c t
    simp [joined_snoc]
  by_cases hmem : b ∈ n.neighbors
  · rw [Node.addNeighbor, if_pos hmem]
    refine hl.snoc rfl (List.Sublist.refl _) Entry.noConfusion (fun _ _ => Entry.noConfusion) fun c => ?_
    rw [hids, hl.joined]
    constructor
    · rintro ⟨hc, t, ht⟩
      exact ⟨hc, t, (hjoined c t).2 (.inl ht)⟩
    · rintro ⟨hc, t, ht⟩
      rcases (hjoined c t).1 ht with ht | ⟨-, rfl⟩
      · exact ⟨hc, t, ht⟩
      · exact (hl.joined b).1 hmem
  · have hnever : ∀ t, ¬Joined h n.id b t := fun t ht => hmem ((hl.joined b).2 ⟨hb, t, ht⟩)
    rw [Node.addNeighbor, if_neg hmem]
    refine ⟨?_, ?_, fun c => ?_, ?_⟩
    · refine List.nodup_append.2 ⟨hl.nodup, List.pairwise_singleton _ _, ?_⟩
      rintro c hc d hd rfl
      exact hmem (List.mem_singleton.1 hd ▸ hc)
    · simp [hl.other, hne]
    · dsimp only
      rw [hids, List.mem_append, List.mem_singleton, hl.joined]
      constructor
      · rintro (⟨hc, t, ht⟩ | rfl)
        · exact ⟨hc, t, (hjoined c t).2 (.inl ht)⟩
        · exact ⟨hb, h.length, (hjoined c _).2 (.inr ⟨rfl, rfl⟩)⟩
      · rintro ⟨hc, t, ht⟩
        exact ((hjoined c t).1 ht).imp (fun ht => ⟨hc, t, ht⟩) fun h => h.2.symm
    · refine List.pairwise_append.2 ⟨?_, List.pairwise_singleton _ _, ?_⟩
      · refine hl.ordered.imp ?_
        rintro c d ⟨t, u, ht, hu, hlt⟩
        exact ⟨t, u, ht.snoc Entry.noConfusion Entry.noConfusion, hu.snoc Entry.noConfusion Entry.noConfusion, hlt⟩
      · intro c hc d hd
        cases List.mem_singleton.1 hd
        obtain ⟨-, s, hs⟩ := (hl.joined c).1 hc
        obtain ⟨t, ht⟩ := hs.exists_first
        refine ⟨t, h.length, ht.snoc Entry.noConfusion Entry.noConfusion, ⟨(hjoined b _).2 (.inr ⟨rfl, rfl⟩), ?_⟩,
          lt_of_entry ht.1.1⟩
        intro u hu
        exact Nat.le_of_eq (((hjoined b u).1 hu).resolve_left (hnever u)).1.symm

namespace Reflects

theorem empty : Reflects .empty [] where
  nodup := List.nodup_nil
  lives := by simp [ids, Registry.empty, Lives]
  ordered := List.Pairwise.nil
  lined := by simp

theorem push (hr : Reflects r h) (hnone : r.find? n.id = none) (hfresh : n.neighbors = []) :
    Reflects (r.push n hnone) (h ++ [.inserted n.id]) := by
  have hnew : n.id ∉ r.ids := find?_eq_none_iff.1 hnone
  have hids : (r.push n hnone).ids = r.ids ++ [n.id] := rfl
  have hne : ∀ i ∈ r.ids, Entry.inserted n.id ≠ .inserted i := by
    intro i hi heq
    cases heq
    exact hnew hi
  refine ⟨nodup_ids _, ?_, ?_, ?_⟩
  · intro i
    rw [hids, lives_snoc, List.mem_append, List.mem_singleton, hr.lives]
    simp [eq_comm, or_comm]
  · rw [hids, List.pairwise_append]
    refine ⟨?_, List.pairwise_singleton _ _, ?_⟩
    · refine hr.ordered.imp_of_mem ?_
      rintro i j hi hj ⟨t, u, ht, hu, hlt⟩
      exact ⟨t, u, latest_snoc.2 (.inl ⟨ht, hne i hi⟩), latest_snoc.2 (.inl ⟨hu, hne j hj⟩), hlt⟩
    · intro i hi j hj
      cases List.mem_singleton.1 hj
      obtain ⟨s, hs, -⟩ := (hr.lives i).1 hi
      obtain ⟨t, ht⟩ := exists_latest hs
      exact ⟨t, h.length, latest_snoc.2 (.inl ⟨ht, hne i hi⟩), latest_snoc.2 (.inr ⟨rfl, rfl⟩), lt_of_entry ht.1⟩
  · intro k hk
    rw [nodes_push, List.mem_append] at hk
    rcases hk with hk | hk
    · have hl := hr.lined k hk
      have hneighbors : ∀ b ∈ k.neighbors, Entry.inserted n.id ≠ .inserted b := fun b hb =>
        hne b ((hl.joined b).1 hb).1
      refine hl.snoc rfl (List.Sublist.refl _) (hne _ (mem_ids_of_mem hk)) hneighbors fun b => ?_
      rw [hids, List.mem_append, List.mem_singleton, hl.joined]
      constructor
      · rintro ⟨hb, t, ht⟩
        exact ⟨.inl hb, t, joined_snoc.2 (.inl ⟨ht, hne _ (mem_ids_of_mem hk), hne b hb⟩)⟩
      · rintro ⟨hb, t, ht⟩
        obtain ⟨ht, -, hbn⟩ := (joined_snoc.1 ht).resolve_right fun h => Entry.noConfusion h.2
        exact ⟨hb.resolve_right fun h => hbn (h ▸ rfl), t, ht⟩
    · cases List.mem_singleton.1 hk
      refine ⟨by simp [hfresh], by simp [hfresh], ?_, by simp [hfresh]⟩
      simp [hfresh, joined_snoc]

theorem connect (hr : Reflects r h) (hne : a ≠ b) (ha : a ∈ r.ids) (hb : b ∈ r.ids) :
    Reflects (r.update a fun n => (n.addNeighbor b).1) (h ++ [.connected a b]) := by
  have hids : (r.update a fun n => (n.addNeighbor b).1).ids = r.ids := ids_update
  refine ⟨nodup_ids _, ?_, ?_, ?_⟩
  · intro i
    simp [hids, lives_snoc, hr.lives]
  · simpa [hids, latest_snoc] using hr.ordered
  · intro k hk
    rw [nodes_update fun n => (n.keeps_addNeighbor b).id] at hk
    obtain ⟨n, hn, rfl⟩ := List.mem_map.1 hk
    have hl := hr.lined n hn
    by_cases hna : n.id = a
    · subst hna
      rw [only_self rfl]
      exact hl.addNeighbor hids hne hb
    · rw [only_of_ne hna]
      refine hl.snoc rfl (List.Sublist.refl _) Entry.noConfusion (fun _ _ => Entry.noConfusion) fun c => ?_
      simp [hids, hl.joined, joined_snoc, Ne.symm hna]

theorem without (hr : Reflects r h) : Reflects (r.without i) (h ++ [.removed i]) := by
  have hids : (r.without i).ids = r.ids.filter (· != i) := ids_without
  refine ⟨nodup_ids _, ?_, ?_, ?_⟩
  · intro j
    rw [hids, List.mem_filter, lives_snoc, hr.lives, bne_iff_ne]
    simp only [reduceCtorEq, false_or, ne_eq, Entry.removed.injEq, eq_comm (a := i)]
  · rw [hids]
    simpa [latest_snoc] using hr.ordered.filter _
  · intro k hk
    rw [nodes_without] at hk
    obtain ⟨n, hn, rfl⟩ := List.mem_map.1 hk
    have hl := hr.lined n (List.mem_filter.1 hn).1
    refine hl.snoc rfl List.filter_sublist Entry.noConfusion (fun _ _ => Entry.noConfusion) fun b => ?_
    rw [hids, Node.removeNeighbor, List.mem_filter, List.mem_filter, hl.joined]
    simp [joined_snoc, and_right_comm]

end Reflects

/-! ## Calls -/

/-- Calls that build a topology. Only a node without neighbors can be inserted. -/
inductive Call where
  | insert (n : Node) (fresh : n.neighbors = [])
  | connect (source target : NodeId)
  | link (a b : NodeId)
  | remove (i : NodeId)

/-- What a caller is told: nothing, or the error. -/
def answer (r : Registry) : Call → Except MeshError Unit
  | .insert n _ => (r.insert n).map fun _ => ()
  | .connect a b => (r.connect a b).map fun _ => ()
  | .link a b => (r.link a b).map fun _ => ()
  | .remove i => (r.remove i).map fun _ => ()

/-- One connection. If it is refused, nothing happens. -/
def join (r : Registry) (a b : NodeId) : Registry × List Entry :=
  match r.connect a b with
  | .ok (r', _) => (r', [.connected a b])
  | .error _ => (r, [])

/-- What a call makes of a registry, with what is entered into the history. Of a link that is refused, the first
half might stay. -/
def perform (r : Registry) : Call → Registry × List Entry
  | .insert n _ =>
    match r.insert n with
    | .ok r' => (r', [.inserted n.id])
    | .error _ => (r, [])
  | .connect a b => r.join a b
  | .link a b =>
    match r.link a b with
    | .ok r' => (r', [.connected a b, .connected b a])
    | .error _ => r.join a b
  | .remove i =>
    match r.remove i with
    | .ok (r', _) => (r', [.removed i])
    | .error _ => (r, [])

/-- The registry after some calls, with their history. -/
def replay (calls : List Call) : Registry × List Entry :=
  calls.foldl (fun p c => ((p.1.perform c).1, p.2 ++ (p.1.perform c).2)) (.empty, [])

/-- A connection succeeds if and only if its ends are different and registered. -/
theorem connect_cases (r : Registry) (a b : NodeId) :
    (∃ e, r.connect a b = .error e ∧ ¬(a ≠ b ∧ a ∈ r.ids ∧ b ∈ r.ids)) ∨
      ∃ n, a ≠ b ∧ r.find? a = some n ∧ b ∈ r.ids ∧
        r.connect a b = .ok (r.update a fun k => (k.addNeighbor b).1, (n.addNeighbor b).2) := by
  by_cases hne : a = b
  · exact .inl ⟨.selfLink a, by rw [connect, if_pos hne]; rfl, fun h => h.1 hne⟩
  · cases hsource : r.find? a with
    | none =>
      refine .inl ⟨.nodeNotFound a, ?_, fun h => find?_eq_none_iff.1 hsource h.2.1⟩
      rw [connect, if_neg hne, get_of_find?_eq_none hsource]
      rfl
    | some n =>
      cases htarget : r.find? b with
      | none =>
        refine .inl ⟨.nodeNotFound b, ?_, fun h => find?_eq_none_iff.1 htarget h.2.2⟩
        rw [connect, if_neg hne, get_eq_ok_iff.2 hsource, get_of_find?_eq_none htarget]
        rfl
      | some n' =>
        have hb : b ∈ r.ids := find?_isSome_iff.1 (by rw [htarget]; rfl)
        exact .inr ⟨n, hne, rfl, hb, connect_of_registered hne hsource htarget⟩

/-- After a connection, the one back cannot fail. -/
theorem connect_back {isNew : Bool} (hconnect : r.connect a b = .ok (r', isNew)) :
    ∃ r'' isNew', r'.connect b a = .ok (r'', isNew') := by
  rcases r.connect_cases a b with ⟨e, herror, -⟩ | ⟨n, hne, hn, hb, hok⟩
  · cases herror.symm.trans hconnect
  · cases hok.symm.trans hconnect
    have ha : a ∈ r.ids := find?_isSome_iff.1 (by rw [hn]; rfl)
    rcases (r.update a fun k => (k.addNeighbor b).1).connect_cases b a with ⟨-, -, hnot⟩ | ⟨n', -, -, -, hok'⟩
    · rw [ids_update] at hnot
      exact absurd ⟨hne.symm, hb, ha⟩ hnot
    · exact ⟨_, _, hok'⟩

theorem error_of_map {α β : Type} {x : Except MeshError α} {f : α → β} {e : MeshError}
    (h : x.map f = .error e) : x = .error e := by
  cases x with
  | error e' => exact congrArg Except.error (Except.error.inj h)
  | ok v => cases h

/-- A call that is refused changes nothing. -/
theorem perform_of_error {c : Call} {e : MeshError} (herror : r.answer c = .error e) : r.perform c = (r, []) := by
  cases c with
  | insert n fresh => rw [perform, error_of_map herror]
  | connect a b => rw [perform, join, error_of_map herror]
  | link a b =>
    have hlink := error_of_map herror
    -- The second half is not to blame, so the first one has been refused.
    cases hconnect : r.connect a b with
    | error e' => rw [perform, hlink, join, hconnect]
    | ok p =>
      obtain ⟨r'', isNew', hback⟩ := connect_back hconnect
      simp [link, hconnect, hback, bind, Except.bind, pure, Except.pure] at hlink
  | remove i => rw [perform, error_of_map herror]

/-- The answer to a connection tells whether the node has got a new neighbor. -/
theorem connect_isNew {isNew : Bool} (hconnect : r.connect a b = .ok (r', isNew)) :
    ∃ n n', r.find? a = some n ∧ r'.find? a = some n' ∧ (isNew = true ↔ b ∉ n.neighbors) ∧
      n'.neighbors = if isNew then n.neighbors ++ [b] else n.neighbors := by
  rcases r.connect_cases a b with ⟨e, herror, -⟩ | ⟨n, hne, hn, hb, hok⟩
  · cases herror.symm.trans hconnect
  · cases hok.symm.trans hconnect
    refine ⟨n, (n.addNeighbor b).1, hn, find?_update_self (fun k => (k.keeps_addNeighbor b).id) hn, ?_⟩
    by_cases hmem : b ∈ n.neighbors <;> simp [Node.addNeighbor, hmem]

namespace Reflects

/-- Every entry in a list of neighbors stands for a registered node. -/
theorem neighborsOf (hr : Reflects r h) (hn : n ∈ r.nodes) :
    (r.neighborsOf n).map Node.id = n.neighbors ∧ ∀ k ∈ r.neighborsOf n, k ∈ r.nodes := by
  have hfound : ∀ b ∈ n.neighbors, (r.find? b).map Node.id = some b := by
    intro b hb
    obtain ⟨hregistered, -⟩ := ((hr.lined n hn).joined b).1 hb
    obtain ⟨k, hk⟩ := Option.isSome_iff_exists.1 (find?_isSome_iff.2 hregistered)
    rw [hk, Option.map_some, id_of_find? hk]
  constructor
  · rw [Registry.neighborsOf, List.map_filterMap, List.filterMap_congr hfound, List.filterMap_some]
  · intro k hk
    obtain ⟨b, -, hb⟩ := List.mem_filterMap.1 hk
    exact mem_nodes_of_find? hb

theorem join (hr : Reflects r h) (a b : NodeId) : Reflects (r.join a b).1 (h ++ (r.join a b).2) := by
  rcases r.connect_cases a b with ⟨e, herror, -⟩ | ⟨n, hne, hn, hb, hok⟩
  · simpa [Registry.join, herror] using hr
  · have ha : a ∈ r.ids := find?_isSome_iff.1 (by rw [hn]; rfl)
    simpa [Registry.join, hok] using hr.connect hne ha hb

theorem perform (hr : Reflects r h) (c : Call) : Reflects (r.perform c).1 (h ++ (r.perform c).2) := by
  cases c with
  | insert n fresh =>
    cases hinsert : r.insert n with
    | error e => simpa [Registry.perform, hinsert] using hr
    | ok r' =>
      obtain ⟨hnew, rfl⟩ := insert_eq_ok hinsert
      simpa [Registry.perform, hinsert] using hr.push hnew fresh
  | connect a b => exact hr.join a b
  | link a b =>
    cases hlink : r.link a b with
    | error e => simpa [Registry.perform, hlink] using hr.join a b
    | ok r' =>
      obtain ⟨r₁, new₁, new₂, hconnect, hback⟩ := link_eq_ok hlink
      have hboth := (hr.join a b).join b a
      simpa [Registry.perform, Registry.join, hlink, hconnect, hback] using hboth
  | remove i =>
    cases hremove : r.remove i with
    | error e => simpa [Registry.perform, hremove] using hr
    | ok p =>
      obtain ⟨-, hp⟩ := remove_eq_ok (n := p.2) hremove
      simpa [Registry.perform, hremove, hp] using hr.without

end Reflects

theorem reflects_replay (calls : List Call) : Reflects (replay calls).1 (replay calls).2 := by
  have hfrom : ∀ p : Registry × List Entry, Reflects p.1 p.2 →
      Reflects (calls.foldl (fun p c => ((p.1.perform c).1, p.2 ++ (p.1.perform c).2)) p).1
        (calls.foldl (fun p c => ((p.1.perform c).1, p.2 ++ (p.1.perform c).2)) p).2 := by
    induction calls with
    | nil => exact fun p hp => hp
    | cons c calls ih => exact fun p hp => ih _ (hp.perform c)
  exact hfrom _ .empty

/-- After any calls, the table and the list of ids agree, and the registered nodes and their neighbors are those that
the history tells of, in the order in which it does. Each entry in a list of neighbors stands for a node. A connection
answers whether it has added one, and a call that is refused changes nothing. -/
theorem topology_of_history (calls : List Call) :
    let r := (replay calls).1
    (∀ i, i ∈ r.table ↔ i ∈ r.ids) ∧ (∀ i (n : Node), r.table[i]? = some n → n.id = i) ∧
      Reflects r (replay calls).2 ∧
      (∀ i n, r.find? i = some n ↔ n ∈ r.nodes ∧ n.id = i) ∧
      (∀ n ∈ r.nodes, (r.neighborsOf n).map Node.id = n.neighbors ∧ ∀ k ∈ r.neighborsOf n, k ∈ r.nodes) ∧
      (∀ a b r' isNew, r.connect a b = .ok (r', isNew) →
        ∃ n n', r.find? a = some n ∧ r'.find? a = some n' ∧ (isNew = true ↔ b ∉ n.neighbors) ∧
          n'.neighbors = if isNew then n.neighbors ++ [b] else n.neighbors) ∧
      ∀ c e, r.answer c = .error e → r.perform c = (r, []) := by
  intro r
  have hr : Reflects r (replay calls).2 := reflects_replay calls
  refine ⟨r.mem_table, r.id_eq, hr, fun i n => ⟨fun hn => ?_, ?_⟩, fun n hn => hr.neighborsOf hn,
    fun a b r' isNew => connect_isNew, fun c e => perform_of_error⟩
  · exact ⟨mem_nodes_of_find? hn, id_of_find? hn⟩
  · rintro ⟨hn, rfl⟩
    exact mem_nodes_iff.1 hn

end TriadMesh.Registry
