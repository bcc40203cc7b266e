import TriadMesh.Proofs.SeenSet

/-!
# The memory and the list it stands for

A memory keeps its ids twice, in a set that answers and in a queue that ages, and edits the two one after the
other. Beside it stands a plain list with the oldest id in front. Whatever is asked of a memory, in any order, it
answers as the list does, and both its parts hold what the list holds: no id is stuck in the set, and none that has
been dropped is still answered for.
-/

namespace TriadMesh.SeenSet

variable {s : SeenSet} {d : Digest}

/-! ## Calls -/

/-- What can be asked of a memory. -/
inductive Call where
  | insert (d : Digest)
  | remove (d : Digest)
  | contains (d : Digest)

/-- One call of a memory, and its answer if it has one. -/
def call (s : SeenSet) : Call → SeenSet × Option Bool
  | .insert d => ((s.insert d).1, some (s.insert d).2)
  | .remove d => (s.erase d, none)
  | .contains d => (s, some (s.contains d))

/-- The same call of a list. An id that is there stays where it is. A new one goes to the end, and if the list is
then too long, the one in front is dropped. -/
def callList (capacity : Nat) (recent : List Digest) : Call → List Digest × Option Bool
  | .insert d =>
    if d ∈ recent then (recent, some false)
    else if capacity < (recent ++ [d]).length then ((recent ++ [d]).tail, some true)
    else (recent ++ [d], some true)
  | .remove d => (recent.erase d, none)
  | .contains d => (recent, some (decide (d ∈ recent)))

/-- Calls one after the other: what is left in the end, and all answers. -/
def runCalls {σ : Type} (step : σ → Call → σ × Option Bool) : σ → List Call → σ × List (Option Bool)
  | s, [] => (s, [])
  | s, c :: cs =>
    let rest := runCalls step (step s c).1 cs
    (rest.1, (step s c).2 :: rest.2)

/-! ## What a call does to the queue -/

theorem contains_eq_decide (s : SeenSet) (d : Digest) : s.contains d = decide (d ∈ s.order) := by
  rw [Bool.eq_iff_iff, contains_iff, decide_eq_true_iff]

@[simp] theorem capacity_call (s : SeenSet) (c : Call) : (s.call c).1.capacity = s.capacity := by
  cases c with
  | insert d => exact capacity_insert s d
  | remove d => exact capacity_erase s d
  | contains d => rfl

theorem order_insert_eq (s : SeenSet) (d : Digest) :
    ((s.insert d).1.order, some (s.insert d).2) = callList s.capacity s.order (.insert d) := by
  rw [callList, insert_snd, contains_eq_decide]
  by_cases hseen : d ∈ s.order
  · rw [if_pos hseen, insert_of_contains (contains_iff.2 hseen), decide_eq_true hseen, Bool.not_true]
  · have hunseen : s.contains d = false := by rw [contains_eq_decide, decide_eq_false hseen]
    rw [if_neg hseen, decide_eq_false hseen, Bool.not_false, order_insert hunseen, List.length_append,
      List.length_singleton]
    -- The queue of a memory is never longer than its capacity, so it is one id at most that is too many.
    have hbounded := s.bounded
    by_cases hlong : s.capacity < s.order.length + 1
    · have hone : s.order.length + 1 - s.capacity = 1 := by omega
      rw [if_pos hlong, hone, List.drop_one]
    · have hzero : s.order.length + 1 - s.capacity = 0 := by omega
      rw [if_neg hlong, hzero, List.drop_zero]

theorem order_call (s : SeenSet) (c : Call) :
    ((s.call c).1.order, (s.call c).2) = callList s.capacity s.order c := by
  cases c with
  | insert d => exact order_insert_eq s d
  | remove d => rw [call, callList, order_erase, s.nodup.erase_eq_filter]
  | contains d => rw [call, callList, contains_eq_decide]

theorem capacity_runCalls (s : SeenSet) (cs : List Call) : (runCalls call s cs).1.capacity = s.capacity := by
  induction cs generalizing s with
  | nil => rfl
  | cons c cs ih => rw [runCalls, ih, capacity_call]

theorem order_runCalls (s : SeenSet) (cs : List Call) :
    ((runCalls call s cs).1.order, (runCalls call s cs).2) = runCalls (callList s.capacity) s.order cs := by
  induction cs generalizing s with
  | nil => rfl
  | cons c cs ih =>
    have hrest := ih (s.call c).1
    rw [capacity_call] at hrest
    rw [runCalls, runCalls, ← order_call, ← hrest]

/-! ## The loop that drops ids -/

/-- From a queue and a set, the loop that drops the oldest id while there are too many ends with `result` after so
many rounds. -/
inductive Evicts (capacity : Nat) :
    Nat → List Digest → Std.TreeSet Digest compare → List Digest × Std.TreeSet Digest compare → Prop
  | done {order : List Digest} {ids : Std.TreeSet Digest compare} (hfits : ¬capacity < order.length) :
      Evicts capacity 0 order ids (order, ids)
  | round {rounds : Nat} {oldest : Digest} {rest : List Digest} {ids : Std.TreeSet Digest compare}
      {result : List Digest × Std.TreeSet Digest compare} (hlong : capacity < (oldest :: rest).length)
      (hrest : Evicts capacity rounds rest (ids.erase oldest) result) :
      Evicts capacity (rounds + 1) (oldest :: rest) ids result

variable {capacity rounds : Nat} {order : List Digest} {ids : Std.TreeSet Digest compare}
variable {result : List Digest × Std.TreeSet Digest compare}

theorem evicts_trim (capacity : Nat) (order : List Digest) (ids : Std.TreeSet Digest compare) :
    Evicts capacity (order.length - capacity) order ids (trim capacity order ids) := by
  induction order generalizing ids with
  | nil =>
    rw [List.length_nil, Nat.zero_sub, trim]
    exact .done (Nat.not_lt_zero capacity)
  | cons oldest rest ih =>
    rw [trim]
    by_cases hlong : capacity < (oldest :: rest).length
    · have hrounds : (oldest :: rest).length - capacity = rest.length - capacity + 1 := by
        rw [List.length_cons] at hlong ⊢
        omega
      rw [if_pos hlong, hrounds]
      exact .round hlong (ih _)
    · rw [if_neg hlong, Nat.sub_eq_zero_of_le (Nat.le_of_not_lt hlong)]
      exact .done hlong

/-- The loop can end in one way only, with one round for each id that is too many. -/
theorem evicts_iff :
    Evicts capacity rounds order ids result ↔
      rounds = order.length - capacity ∧ result = trim capacity order ids := by
  constructor
  · intro h
    induction h with
    | @done order ids hfits =>
      refine ⟨(Nat.sub_eq_zero_of_le (Nat.le_of_not_lt hfits)).symm, ?_⟩
      cases order with
      | nil => rfl
      | cons oldest rest => rw [trim, if_neg hfits]
    | @round rounds oldest rest ids result hlong hrest ih =>
      obtain ⟨hrounds, hresult⟩ := ih
      refine ⟨?_, by rw [trim, if_pos hlong, hresult]⟩
      rw [List.length_cons] at hlong ⊢
      omega
  · rintro ⟨rfl, rfl⟩
    exact evicts_trim capacity order ids

theorem evicts_insert (h : s.contains d = false) :
    Evicts s.capacity rounds (s.order ++ [d]) (s.ids.insert d) result ↔
      rounds = s.order.length + 1 - s.capacity ∧ result = ((s.insert d).1.order, (s.insert d).1.ids) := by
  rw [evicts_iff, List.length_append, List.length_singleton, insert, dif_neg (by simp [h])]

/-! ## Main statement -/

/-- Whatever has been asked of a new memory, it has answered as the list does, its queue is the list, and its set
holds the ids of the list, which are distinct and no more than there is room for. The insertion of one more new id
ends the loop after one round at most. -/
theorem memory_refines_list (capacity : Nat) (cs : List Call) :
    let s := (runCalls call (empty capacity) cs).1
    let recent := (runCalls (callList (max capacity 1)) [] cs).1
    (runCalls call (empty capacity) cs).2 = (runCalls (callList (max capacity 1)) [] cs).2 ∧
      s.order = recent ∧ (∀ d, d ∈ s.ids ↔ d ∈ recent) ∧ recent.Nodup ∧ recent.length ≤ max capacity 1 ∧
      ∀ d, d ∈ recent ∨
        ∃ most ≤ 1, ∀ rounds result,
          Evicts (max capacity 1) rounds (s.order ++ [d]) (s.ids.insert d) result ↔
            rounds = most ∧ result = ((s.insert d).1.order, (s.insert d).1.ids) := by
  intro s recent
  have hcapacity : s.capacity = max capacity 1 := capacity_runCalls _ cs
  obtain ⟨horder, hanswers⟩ := Prod.ext_iff.1 (order_runCalls (empty capacity) cs)
  have hrecent : s.order = recent := horder
  rw [← hrecent]
  refine ⟨hanswers, rfl, s.mem_ids, s.nodup, hcapacity ▸ s.bounded, fun d => ?_⟩
  rw [← contains_iff, ← hcapacity]
  by_cases hseen : s.contains d = true
  · exact .inl hseen
  · refine .inr ⟨s.order.length + 1 - s.capacity, ?_, fun rounds result => evicts_insert (by simpa using hseen)⟩
    have hbounded := s.bounded
    omega

/-- With room for two, the third id pushes out the first, and an id that was removed is new again. -/
example :
    let id (n : UInt8) : Digest := ⟨Vector.replicate 32 n⟩
    (runCalls call (empty 2) [.insert (id 1), .insert (id 2), .insert (id 1), .insert (id 3), .contains (id 1),
      .remove (id 2), .insert (id 2), .contains (id 3)]).2 =
        [some true, some true, some false, some true, some false, none, some true, some true] := by
  decide +kernel

end TriadMesh.SeenSet
