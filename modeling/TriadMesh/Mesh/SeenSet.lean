import TriadMesh.Bytes.Basic

/-!
# Flood control memory

A node remembers the ids of the messages it has seen, up to a capacity; beyond it the oldest is dropped.
A set answers whether an id is remembered and a queue tells which is the oldest. The type keeps the two
in step.
-/

namespace TriadMesh

structure SeenSet where
  capacity : Nat
  ids : Std.TreeSet Digest compare
  order : List Digest
  mem_ids : ∀ d, d ∈ ids ↔ d ∈ order
  nodup : order.Nodup
  bounded : order.length ≤ capacity

namespace SeenSet

/-- An empty memory. It holds at least one id. -/
def empty (capacity : Nat) : SeenSet where
  capacity := max capacity 1
  ids := ∅
  order := []
  mem_ids d := by simp
  nodup := List.nodup_nil
  bounded := by simp

/-- The greatest capacity for which room can be asked for. The set has a power of two places, of which it uses seven
eighths. Each takes 33 bytes, and less than 2^63 can be asked for at once. -/
def sizeLimit : Nat := 7 * 2 ^ 54

/-- An empty memory, with room from the start for all that it may hold; `none` if so much room crashes. -/
def allocate (capacity : Nat) : Option SeenSet :=
  if max capacity 1 ≤ sizeLimit then some (empty capacity) else none

def contains (s : SeenSet) (d : Digest) : Bool := s.ids.contains d

theorem contains_iff {s : SeenSet} {d : Digest} : s.contains d = true ↔ d ∈ s.order := by
  rw [← s.mem_ids]; exact Iff.rfl

/-- Drops the oldest ids until no more than `capacity` are left. -/
def trim (capacity : Nat) : List Digest → Std.TreeSet Digest compare → List Digest × Std.TreeSet Digest compare
  | [], ids => ([], ids)
  | oldest :: rest, ids =>
    if capacity < (oldest :: rest).length then trim capacity rest (ids.erase oldest) else (oldest :: rest, ids)

theorem trim_mem {capacity : Nat} {order : List Digest} {ids : Std.TreeSet Digest compare}
    (hids : ∀ d, d ∈ ids ↔ d ∈ order) (hnodup : order.Nodup) (d : Digest) :
    d ∈ (trim capacity order ids).2 ↔ d ∈ (trim capacity order ids).1 := by
  induction order generalizing ids with
  | nil => exact hids d
  | cons oldest rest ih =>
    rw [trim]
    split
    · refine ih (fun e => ?_) hnodup.of_cons
      rw [Std.TreeSet.mem_erase, hids, ne_eq, Std.LawfulEqOrd.compare_eq_iff_eq, List.mem_cons]
      have hnot : oldest ∉ rest := (List.nodup_cons.1 hnodup).1
      constructor
      · rintro ⟨hne, rfl | he⟩
        · exact absurd rfl hne
        · exact he
      · exact fun he => ⟨fun h => hnot (h ▸ he), .inr he⟩
    · exact hids d

theorem trim_suffix (capacity : Nat) (order : List Digest) (ids : Std.TreeSet Digest compare) :
    (trim capacity order ids).1 <:+ order := by
  induction order generalizing ids with
  | nil => exact List.suffix_refl _
  | cons oldest rest ih =>
    rw [trim]
    split
    · exact (ih _).trans (List.suffix_cons _ _)
    · exact List.suffix_refl _

theorem trim_length_le (capacity : Nat) (order : List Digest) (ids : Std.TreeSet Digest compare) :
    (trim capacity order ids).1.length ≤ capacity := by
  induction order generalizing ids with
  | nil => simp [trim]
  | cons oldest rest ih =>
    rw [trim]
    split
    · exact ih _
    · exact Nat.le_of_not_lt (by assumption)

theorem mem_insert_iff {s : SeenSet} (d e : Digest) : e ∈ s.ids.insert d ↔ e ∈ s.order ++ [d] := by
  rw [Std.TreeSet.mem_insert, Std.LawfulEqOrd.compare_eq_iff_eq, s.mem_ids, List.mem_append,
    List.mem_singleton, or_comm, eq_comm]

theorem nodup_append {s : SeenSet} {d : Digest} (h : ¬ s.contains d = true) : (s.order ++ [d]).Nodup := by
  rw [contains_iff] at h
  rw [List.nodup_append]
  refine ⟨s.nodup, by simp, fun a ha b hb hab => h ?_⟩
  rw [List.mem_singleton] at hb
  exact hb ▸ hab ▸ ha

/-- Remembers an id, and says whether it is new. -/
def insert (s : SeenSet) (d : Digest) : SeenSet × Bool :=
  if h : s.contains d = true then (s, false)
  else
    ({ capacity := s.capacity
       ids := (trim s.capacity (s.order ++ [d]) (s.ids.insert d)).2
       order := (trim s.capacity (s.order ++ [d]) (s.ids.insert d)).1
       mem_ids := trim_mem (mem_insert_iff d) (nodup_append h)
       nodup := (nodup_append h).sublist (trim_suffix _ _ _).sublist
       bounded := trim_length_le _ _ _ }, true)

/-- Forgets an id; the others keep their order. -/
def erase (s : SeenSet) (d : Digest) : SeenSet where
  capacity := s.capacity
  ids := s.ids.erase d
  order := s.order.filter (· != d)
  mem_ids e := by
    rw [Std.TreeSet.mem_erase, s.mem_ids, List.mem_filter, ne_eq, Std.LawfulEqOrd.compare_eq_iff_eq, and_comm]
    exact and_congr_right fun _ => by rw [bne_iff_ne]; exact ne_comm
  nodup := s.nodup.sublist List.filter_sublist
  bounded := Nat.le_trans (List.length_filter_le _ _) s.bounded

end SeenSet

end TriadMesh
