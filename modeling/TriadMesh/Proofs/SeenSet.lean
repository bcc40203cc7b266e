import TriadMesh.Mesh.SeenSet

/-!
# The memory as a list

Seen through its queue, the memory is a bounded list: a new id goes to the end, and where the list has
become too long its front is cut off. An id that is remembered and forgotten again leaves a list that
was full without its oldest id.
-/

namespace TriadMesh.SeenSet

@[simp] theorem capacity_insert (s : SeenSet) (d : Digest) : (s.insert d).1.capacity = s.capacity := by
  unfold insert
  split <;> rfl

@[simp] theorem capacity_erase (s : SeenSet) (d : Digest) : (s.erase d).capacity = s.capacity := rfl

@[simp] theorem capacity_empty (capacity : Nat) : (empty capacity).capacity = max capacity 1 := rfl

theorem allocate_of_le {capacity : Nat} (h : capacity ≤ sizeLimit) : allocate capacity = some (empty capacity) :=
  if_pos (Nat.max_le.2 ⟨h, by decide⟩)

/-- There is room for a memory exactly up to the limit. -/
theorem allocate_eq_none_iff {capacity : Nat} : allocate capacity = none ↔ sizeLimit < capacity := by
  constructor
  · refine fun hnone => Nat.lt_of_not_le fun hroom => ?_
    rw [allocate_of_le hroom] at hnone
    cases hnone
  · exact fun h => if_neg fun hroom => Nat.not_lt_of_le (Nat.max_le.1 hroom).1 h

theorem trim_eq_drop (capacity : Nat) (order : List Digest) (ids : Std.TreeSet Digest compare) :
    (trim capacity order ids).1 = order.drop (order.length - capacity) := by
  induction order generalizing ids with
  | nil => simp [trim]
  | cons oldest rest ih =>
    rw [trim]
    by_cases hlong : capacity < (oldest :: rest).length
    · rw [if_pos hlong, ih]
      have hlen : (oldest :: rest).length - capacity = rest.length - capacity + 1 := by
        simp only [List.length_cons] at hlong ⊢
        omega
      rw [hlen, List.drop_succ_cons]
    · rw [if_neg hlong, Nat.sub_eq_zero_of_le (Nat.le_of_not_lt hlong), List.drop_zero]

theorem insert_of_contains {s : SeenSet} {d : Digest} (h : s.contains d = true) :
    s.insert d = (s, false) := by
  rw [insert, dif_pos h]

theorem insert_snd (s : SeenSet) (d : Digest) : (s.insert d).2 = !s.contains d := by
  unfold insert
  split <;> simp_all

/-- A new id goes to the end, and the oldest go until the list fits again. -/
theorem order_insert {s : SeenSet} {d : Digest} (h : s.contains d = false) :
    (s.insert d).1.order = (s.order ++ [d]).drop (s.order.length + 1 - s.capacity) := by
  rw [insert, dif_neg (by simp [h])]
  simp only [trim_eq_drop, List.length_append, List.length_singleton]

theorem order_erase (s : SeenSet) (d : Digest) : (s.erase d).order = s.order.filter (· != d) := rfl

theorem not_mem_order {s : SeenSet} {d : Digest} (h : s.contains d = false) : d ∉ s.order := by
  intro hmem
  rw [contains_iff.2 hmem] at h
  exact Bool.noConfusion h

/-- With room for one id at least, a new id is the newest afterwards. -/
theorem order_insert_of_pos {s : SeenSet} {d : Digest} (h : s.contains d = false) (hcap : 0 < s.capacity) :
    (s.insert d).1.order = s.order.drop (s.order.length + 1 - s.capacity) ++ [d] := by
  rw [order_insert h, List.drop_append_of_le_length (by omega)]

theorem contains_insert_self {s : SeenSet} (d : Digest) (hcap : 0 < s.capacity) :
    (s.insert d).1.contains d = true := by
  by_cases h : s.contains d = true
  · rw [insert_of_contains h]
    exact h
  · rw [contains_iff, order_insert_of_pos (by simpa using h) hcap]
    exact List.mem_append_right _ (List.mem_singleton_self d)

/-- An id that is remembered and at once forgotten leaves what its coming has not pushed out. -/
theorem order_erase_insert {s : SeenSet} {d : Digest} (h : s.contains d = false) (hcap : 0 < s.capacity) :
    ((s.insert d).1.erase d).order = s.order.drop (s.order.length + 1 - s.capacity) := by
  rw [order_erase, order_insert_of_pos h hcap, List.filter_append, List.filter_eq_self.2]
  · simp
  · intro e he
    rw [bne_iff_ne]
    rintro rfl
    exact not_mem_order h (List.mem_of_mem_drop he)

/-- A memory that holds the last of some ids, and has room for all but one of them, takes in the first one as
new and then holds the last of them in turned order. -/
theorem order_insert_of_suffix {s : SeenSet} {d : Digest} {ds : List Digest} (hcap : s.capacity = ds.length)
    (hnew : d ∉ ds) (h : s.order <:+ d :: ds) : s.contains d = false ∧ (s.insert d).1.order <:+ ds ++ [d] := by
  have hsuffix : s.order <:+ ds := by
    rcases List.suffix_cons_iff.1 h with hall | hrest
    · have hle := s.bounded
      rw [hall, List.length_cons] at hle
      omega
    · exact hrest
  have hunseen : s.contains d = false := by
    rw [← Bool.not_eq_true, contains_iff]
    exact fun hmem => hnew (hsuffix.subset hmem)
  refine ⟨hunseen, ?_⟩
  rw [order_insert hunseen]
  obtain ⟨front, hfront⟩ := hsuffix
  exact (List.drop_suffix _ _).trans ⟨front, by rw [← List.append_assoc, hfront]⟩

end TriadMesh.SeenSet
