import Mathlib.Data.List.Basic
import TriadMesh.Mesh.Registry

/-!
# Changing the nodes of a registry

Read through its table in the order of its ids, a registry is a list of nodes, and to look up an id is to find the
first of them that has it. Most operations change registered nodes in place and never the id under which one is found.
Looking up a node, or the neighbors of one, then commutes with the change.
-/

namespace TriadMesh.Registry

variable {r r' : Registry} {id k : NodeId} {n : Node} {f g : Node → Node}

theorem id_of_find? (h : r.find? id = some n) : n.id = id := r.id_eq id n h

theorem nodup_ids (r : Registry) : r.ids.Nodup := r.nodup

theorem mem_nodes_iff : n ∈ r.nodes ↔ r.find? n.id = some n := by
  rw [nodes, List.mem_filterMap]
  constructor
  · rintro ⟨i, -, hi⟩
    rwa [id_of_find? hi]
  · exact fun h => ⟨n.id, find?_isSome_iff.1 (Option.isSome_of_eq_some h), h⟩

theorem mem_ids_of_mem (h : n ∈ r.nodes) : n.id ∈ r.ids :=
  find?_isSome_iff.1 (Option.isSome_of_eq_some (mem_nodes_iff.1 h))

theorem mem_nodes_of_find? (h : r.find? id = some n) : n ∈ r.nodes :=
  mem_nodes_iff.2 ((id_of_find? h).symm ▸ h)

theorem get_eq_ok_iff : r.get id = .ok n ↔ r.find? id = some n := by
  unfold get
  cases r.find? id <;> simp

theorem get_of_find?_eq_none (h : r.find? id = none) : r.get id = .error (.nodeNotFound id) := by
  rw [get, h]

/-- The table and the list of ids agree. -/
theorem map_id_nodes (r : Registry) : r.nodes.map (·.id) = r.ids := by
  have hall : ∀ i ∈ r.ids, (r.find? i).map (·.id) = some i := by
    intro i hi
    obtain ⟨n, hn⟩ := Option.isSome_iff_exists.1 (find?_isSome_iff.2 hi)
    rw [hn, Option.map_some, id_of_find? hn]
  rw [nodes, List.map_filterMap]
  exact (List.filterMap_congr hall).trans List.filterMap_some

/-! ## Equality -/

theorem ext_find? (hids : r.ids = r'.ids) (hfind : ∀ i, r.find? i = r'.find? i) : r = r' := by
  have htable : r.table = r'.table := Std.ExtTreeMap.ext_getElem? hfind
  obtain ⟨table, order⟩ := r
  obtain ⟨table', order'⟩ := r'
  obtain rfl : table = table' := htable
  obtain rfl : order = order' := hids
  rfl

theorem find?_eq_find? (r : Registry) (k : NodeId) : r.find? k = r.nodes.find? (·.id == k) := by
  cases hn : r.find? k with
  | none =>
    refine (List.find?_eq_none.2 fun n hn' hid => ?_).symm
    rw [← eq_of_beq hid, mem_nodes_iff.1 hn'] at hn
    cases hn
  | some n =>
    -- Where some node has the id at all, it is the registered one.
    cases hfirst : r.nodes.find? (·.id == k) with
    | none =>
      have hne := List.find?_eq_none.1 hfirst n (mem_nodes_of_find? hn)
      exact absurd (beq_iff_eq.2 (id_of_find? hn)) hne
    | some n' =>
      have hid : n'.id = k := by simpa using List.find?_some hfirst
      rw [← hn, ← hid, mem_nodes_iff.1 (List.mem_of_find?_eq_some hfirst)]

@[simp] theorem nodes_empty : empty.nodes = [] := rfl

@[simp] theorem find?_empty (k : NodeId) : empty.find? k = none := Std.ExtTreeMap.getElem?_empty

/-! ## Changing every node -/

/-- Changes all nodes, none of them in its id. -/
def map (r : Registry) (g : Node → Node) : Registry where
  table := r.table.map fun i n => { g n with id := i }
  order := r.order
  mem_table i := by rw [Std.ExtTreeMap.mem_map, r.mem_table]
  nodup := r.nodup
  id_eq i n h := by
    rw [Std.ExtTreeMap.getElem?_map] at h
    obtain ⟨k, -, rfl⟩ := Option.map_eq_some_iff.1 h
    rfl

theorem find?_map (hg : ∀ n, (g n).id = n.id) : (r.map g).find? k = (r.find? k).map g := by
  rw [find?, map, Std.ExtTreeMap.getElem?_map, ← find?]
  cases hn : r.find? k with
  | none => rfl
  | some n =>
    have hid : (g n).id = k := (hg n).trans (id_of_find? hn)
    rw [Option.map_some, Option.map_some, ← hid]

theorem nodes_map (hg : ∀ n, (g n).id = n.id) : (r.map g).nodes = r.nodes.map g := by
  rw [nodes, nodes, List.map_filterMap]
  exact List.filterMap_congr fun _ _ => find?_map hg

theorem map_map (hg : ∀ n, (g n).id = n.id) (hf : ∀ n, (f n).id = n.id) : (r.map g).map f = r.map (f ∘ g) := by
  have hgf : ∀ n, ((f ∘ g) n).id = n.id := fun n => (hf (g n)).trans (hg n)
  exact ext_find? rfl fun k => by rw [find?_map hf, find?_map hg, find?_map hgf, Option.map_map]

theorem map_id : r.map (fun n => n) = r :=
  ext_find? rfl fun k => by rw [find?_map fun _ => rfl, Option.map_id']

theorem neighborsOf_map (hg : ∀ n, (g n).id = n.id) (n : Node) :
    (r.map g).neighborsOf n = (r.neighborsOf n).map g := by
  simp only [neighborsOf, List.map_filterMap]
  congr 1
  funext k
  exact find?_map hg

theorem ids_update : (r.update id f).ids = r.ids := rfl

/-- The change that `update` makes at each node. -/
def only (id : NodeId) (f : Node → Node) (n : Node) : Node := if n.id == id then f n else n

theorem only_self (h : n.id = id) : only id f n = f n := by simp [only, h]

theorem only_of_ne (h : n.id ≠ id) : only id f n = n := by simp [only, h]

/-- What `f` keeps of a node, the change at one node keeps of every node. -/
theorem only_congr {α : Type} (field : Node → α) (hf : ∀ n, field (f n) = field n) (n : Node) :
    field (only id f n) = field n := by
  unfold only
  split
  · exact hf n
  · rfl

theorem find?_update_eq :
    (r.update id f).find? k = (r.find? k).map (only id fun n => { f n with id := id }) := by
  rw [find?, update, Std.ExtTreeMap.getElem?_modify, ← find?, ← find?]
  by_cases hk : id = k
  · rw [if_pos (Std.LawfulEqOrd.compare_eq_iff_eq.2 hk), ← hk]
    cases hn : r.find? id with
    | none => rfl
    | some n => rw [Option.map_some, Option.map_some, only_self (id_of_find? hn)]
  · rw [if_neg fun h => hk (Std.LawfulEqOrd.compare_eq_iff_eq.1 h)]
    cases hn : r.find? k with
    | none => rfl
    | some n => rw [Option.map_some, only_of_ne fun h => hk (h.symm.trans (id_of_find? hn))]

theorem only_update (hf : ∀ n, (f n).id = n.id) : only id (fun n => { f n with id := id }) = only id f := by
  funext n
  by_cases h : n.id = id
  · rw [only_self h, only_self h, ← h, ← hf n]
  · rw [only_of_ne h, only_of_ne h]

theorem find?_update (hf : ∀ n, (f n).id = n.id) : (r.update id f).find? k = (r.find? k).map (only id f) := by
  rw [find?_update_eq, only_update hf]

theorem update_eq_map (hf : ∀ n, (f n).id = n.id) : r.update id f = r.map (only id f) :=
  ext_find? rfl fun k => by rw [find?_update hf, find?_map (only_congr _ hf)]

theorem nodes_update (hf : ∀ n, (f n).id = n.id) : (r.update id f).nodes = r.nodes.map (only id f) := by
  rw [update_eq_map hf, nodes_map (only_congr _ hf)]

theorem neighborsOf_update (hf : ∀ n, (f n).id = n.id) (n : Node) :
    (r.update id f).neighborsOf n = (r.neighborsOf n).map (only id f) := by
  rw [update_eq_map hf, neighborsOf_map (only_congr _ hf)]

theorem find?_update_self (hf : ∀ n, (f n).id = n.id) (h : r.find? id = some n) :
    (r.update id f).find? id = some (f n) := by
  rw [find?_update hf, h, Option.map_some, only_self (id_of_find? h)]

theorem find?_update_of_ne (hf : ∀ n, (f n).id = n.id) (hne : k ≠ id) :
    (r.update id f).find? k = r.find? k := by
  rw [find?_update hf]
  cases h : r.find? k with
  | none => rfl
  | some n => rw [Option.map_some, only_of_ne (by rwa [id_of_find? h])]

theorem update_update (hf : ∀ n, (f n).id = n.id) : (r.update id f).update id g = r.update id (g ∘ f) := by
  refine ext_find? rfl fun k => ?_
  rw [find?_update_eq, find?_update hf, find?_update_eq, Option.map_map]
  congr 1
  funext n
  by_cases h : n.id = id
  · simp [only, h, hf]
  · simp [only, h]

/-- To put the changed node in the place of the registered one is to change that one. -/
theorem update_const (hn : r.find? id = some n) : (r.update id fun _ => f n) = r.update id f := by
  refine ext_find? rfl fun i => ?_
  rw [find?_update_eq, find?_update_eq]
  cases hk : r.find? i with
  | none => rfl
  | some k =>
    rw [Option.map_some, Option.map_some]
    by_cases hid : k.id = id
    · have hsame : k = n := by
        rw [← id_of_find? hk, hid, hn] at hk
        exact (Option.some.inj hk).symm
      rw [only_self hid, only_self hid, hsame]
    · rw [only_of_ne hid, only_of_ne hid]

theorem update_id : r.update id (fun n => n) = r := by
  refine ext_find? rfl fun k => ?_
  rw [find?_update fun _ => rfl]
  have honly : only id (fun n => n) = fun n => n := by
    funext n
    exact ite_self n
  rw [honly, Option.map_id']

/-! ## Taking in and taking out -/

theorem find?_push (h : r.find? n.id = none) :
    (r.push n h).find? k = (r.find? k).or (if n.id = k then some n else none) := by
  rw [find?, push, Std.ExtTreeMap.getElem?_insert, ← find?]
  simp only [Std.LawfulEqOrd.compare_eq_iff_eq]
  split
  case isTrue hk => rw [← hk, h, Option.none_or]
  case isFalse => rw [Option.or_none]

theorem nodes_push (h : r.find? n.id = none) : (r.push n h).nodes = r.nodes ++ [n] := by
  have hold : ∀ i ∈ r.ids, (r.push n h).find? i = r.find? i := by
    intro i hi
    obtain ⟨k, hk⟩ := Option.isSome_iff_exists.1 (find?_isSome_iff.2 hi)
    rw [find?_push, hk, Option.some_or]
  have hnew : (r.push n h).find? n.id = some n := by rw [find?_push, h, if_pos rfl, Option.none_or]
  calc (r.push n h).nodes = (r.ids ++ [n.id]).filterMap (r.push n h).find? := rfl
    _ = r.ids.filterMap (r.push n h).find? ++ [n] := by
      rw [List.filterMap_append, List.filterMap_cons_some hnew, List.filterMap_nil]
    _ = r.nodes ++ [n] := by rw [List.filterMap_congr hold]; rfl

/-- Of ids that are to be taken in one after the other the first is new. -/
theorem find?_of_nodup {rest : List NodeId} (h : (r.ids ++ id :: rest).Nodup) : r.find? id = none := by
  apply find?_eq_none_iff.2
  intro hmem
  rw [List.nodup_append] at h
  exact h.2.2 id hmem id List.mem_cons_self rfl

/-- And with the first node taken in, the other ids are new still. -/
theorem nodup_ids_append {rest : List NodeId} (hnodes : r'.nodes = r.nodes ++ [n])
    (h : (r.ids ++ n.id :: rest).Nodup) : (r'.ids ++ rest).Nodup := by
  rw [← map_id_nodes, hnodes, List.map_append, map_id_nodes, List.append_assoc]
  exact h

theorem find?_without_self : (r.without id).find? id = none := by
  rw [find?_eq_none_iff, ids, without]
  simp

theorem find?_without_of_ne (hne : k ≠ id) : (r.without id).find? k = (r.find? k).map (·.removeNeighbor id) := by
  have hcompare : ¬compare id k = .eq := fun h => hne (Std.LawfulEqOrd.compare_eq_iff_eq.1 h).symm
  rw [find?, without, Std.ExtTreeMap.getElem?_map, Std.ExtTreeMap.getElem?_erase, if_neg hcompare]
  rfl

theorem ids_without : (r.without id).ids = r.ids.filter (· != id) := rfl

theorem nodes_without : (r.without id).nodes = (r.nodes.filter (·.id != id)).map (·.removeNeighbor id) := by
  have hnodes : (r.without id).nodes = (r.ids.filter (· != id)).filterMap (r.without id).find? := rfl
  rw [hnodes, nodes, List.filterMap_filter, List.filter_filterMap, List.map_filterMap]
  refine List.filterMap_congr fun k _ => ?_
  by_cases hk : k = id
  · cases hn : r.find? k with
    | none => simp [hk]
    | some n => simp [hk, Option.filter, id_of_find? hn]
  · rw [if_pos (bne_iff_ne.2 hk), find?_without_of_ne hk]
    cases hn : r.find? k with
    | none => rfl
    | some n => simp [hk, Option.filter, id_of_find? hn]

end TriadMesh.Registry
