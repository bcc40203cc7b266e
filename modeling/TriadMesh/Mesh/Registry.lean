import Std.Data.ExtTreeMap.Lemmas
import TriadMesh.Mesh.Node

/-!
# The registry

The registry holds every node of a mesh under its id. A table finds the node for an id, and a list of the ids
tells in which order the nodes came. The type keeps the two in step. Neighbors are known by id, so a node that
is removed is taken off every list of neighbors.
-/

namespace TriadMesh

structure Registry where
  table : Std.ExtTreeMap NodeId Node compare
  order : List NodeId
  mem_table : ∀ i, i ∈ table ↔ i ∈ order
  nodup : order.Nodup
  id_eq : ∀ i (n : Node), table[i]? = some n → n.id = i

namespace Registry

variable {r : Registry} {id k : NodeId} {n : Node}

def empty : Registry where
  table := ∅
  order := []
  mem_table i := by simp
  nodup := List.nodup_nil
  id_eq i n h := by simp at h

/-- Ids in the order of insertion. -/
def ids (r : Registry) : List NodeId := r.order

def find? (r : Registry) (id : NodeId) : Option Node := r.table[id]?

def contains (r : Registry) (id : NodeId) : Bool := r.table.contains id

/-- The nodes in the order of insertion. -/
def nodes (r : Registry) : List Node := r.order.filterMap r.find?

/-- The node with an id, or the error that there is none. -/
def get (r : Registry) (id : NodeId) : Except MeshError Node :=
  match r.find? id with
  | some n => .ok n
  | none => .error (.nodeNotFound id)

theorem find?_isSome_iff : (r.find? id).isSome = true ↔ id ∈ r.ids := by
  rw [find?, ← Std.ExtTreeMap.mem_iff_isSome_getElem?, r.mem_table]
  rfl

theorem find?_eq_none_iff : r.find? id = none ↔ id ∉ r.ids := by
  rw [← find?_isSome_iff, Option.not_isSome_iff_eq_none]

theorem contains_iff : r.contains id = true ↔ id ∈ r.ids := r.mem_table id

/-- Changes the node with an id. The id itself never changes. -/
def update (r : Registry) (id : NodeId) (f : Node → Node) : Registry where
  table := r.table.modify id fun n => { f n with id := id }
  order := r.order
  mem_table i := by rw [Std.ExtTreeMap.mem_modify, r.mem_table]
  nodup := r.nodup
  id_eq i n h := by
    rw [Std.ExtTreeMap.getElem?_modify] at h
    split at h
    case isTrue hi =>
      obtain ⟨k, -, rfl⟩ := Option.map_eq_some_iff.1 h
      exact Std.LawfulEqOrd.compare_eq_iff_eq.1 hi
    case isFalse => exact r.id_eq i n h

theorem nodup_append (h : r.find? id = none) : (r.order ++ [id]).Nodup := by
  rw [List.nodup_append]
  refine ⟨r.nodup, by simp, fun a ha b hb hab => find?_eq_none_iff.1 h ?_⟩
  rw [List.mem_singleton] at hb
  exact hb ▸ hab ▸ ha

/-- Puts a node with a new id at the end. -/
def push (r : Registry) (n : Node) (h : r.find? n.id = none) : Registry where
  table := r.table.insert n.id n
  order := r.order ++ [n.id]
  mem_table i := by
    rw [Std.ExtTreeMap.mem_insert, Std.LawfulEqOrd.compare_eq_iff_eq, r.mem_table, List.mem_append,
      List.mem_singleton, or_comm, eq_comm]
  nodup := nodup_append h
  id_eq i k hk := by
    rw [Std.ExtTreeMap.getElem?_insert] at hk
    split at hk
    case isTrue hi =>
      obtain rfl := Option.some.inj hk
      exact Std.LawfulEqOrd.compare_eq_iff_eq.1 hi
    case isFalse => exact r.id_eq i k hk

/-- Takes in a node. Its id must be new. -/
def insert (r : Registry) (n : Node) : Except MeshError Registry :=
  if h : r.contains n.id = true then .error (.duplicateNode n.id)
  else .ok (r.push n (find?_eq_none_iff.2 fun hmem => h (contains_iff.2 hmem)))

/-- Makes one node a neighbor of another, and says whether it was none before. -/
def connect (r : Registry) (source target : NodeId) : Except MeshError (Registry × Bool) := do
  if source = target then throw (.selfLink source)
  let n ← r.get source
  let _ ← r.get target
  return (r.update source fun m => (m.addNeighbor target).1, (n.addNeighbor target).2)

def link (r : Registry) (a b : NodeId) : Except MeshError Registry := do
  let (r, _) ← r.connect a b
  let (r, _) ← r.connect b a
  return r

/-- The registry without a node. The node is off every list of neighbors. -/
def without (r : Registry) (id : NodeId) : Registry where
  table := (r.table.erase id).map fun _ n => n.removeNeighbor id
  order := r.order.filter (· != id)
  mem_table i := by
    rw [Std.ExtTreeMap.mem_map, Std.ExtTreeMap.mem_erase, r.mem_table, List.mem_filter, ne_eq,
      Std.LawfulEqOrd.compare_eq_iff_eq, and_comm]
    exact and_congr_right fun _ => by rw [bne_iff_ne]; exact ne_comm
  nodup := r.nodup.sublist List.filter_sublist
  id_eq i n h := by
    rw [Std.ExtTreeMap.getElem?_map, Std.ExtTreeMap.getElem?_erase] at h
    obtain ⟨k, hk, rfl⟩ := Option.map_eq_some_iff.1 h
    split at hk
    case isTrue => cases hk
    case isFalse => exact r.id_eq i k hk

/-- Takes out a node, and off every list of neighbors. -/
def remove (r : Registry) (id : NodeId) : Except MeshError (Registry × Node) := do
  let n ← r.get id
  return (r.without id, n)

/-- The registered neighbors of a node, in the order in which they were linked. -/
def neighborsOf (r : Registry) (n : Node) : List Node := n.neighbors.filterMap r.find?

end Registry

end TriadMesh
