import Mathlib.Data.List.Perm.Basic
import TriadMesh.Mesh.Propagator

/-!
# The forwards of a propagator

The dispatcher moves forwards from the queue to a delivery without changing what is pending, or in which
order. Only a submission adds a forward, and only the end of a delivery takes one away, so the count of
forwards in flight is the number of pending ones.
-/

namespace TriadMesh.Propagator

variable {α : Type} {p : Propagator α}

theorem handlerGone_iff : p.handlerGone = true ↔ p.ownerGone = true ∧ p.held = none ∧ p.running = [] := by
  simp [handlerGone, and_assoc]

theorem handlerGone_of_owned (h : p.ownerGone = false) : p.handlerGone = false := by
  simp [handlerGone, h]

/-- A propagator at work: its count is right, its dispatcher goes on, and there is somebody to deliver to. -/
structure Live (p : Propagator α) : Prop where
  counted : p.inFlight = p.pending.length
  dispatching : p.closed = false
  served : p.ownerGone = false

theorem live_empty (capacity maxInFlight : Nat) : (empty capacity maxInFlight : Propagator α).Live :=
  ⟨rfl, rfl, rfl⟩

/-- The propagator with some forwards at the end of its queue, all of them counted. -/
def extend (p : Propagator α) (xs : List α) : Propagator α :=
  { p with queued := p.queued ++ xs, inFlight := p.inFlight + xs.length }

@[simp] theorem pending_extend (p : Propagator α) (xs : List α) :
    (p.extend xs).pending = p.pending ++ xs := by
  simp [pending, extend]

@[simp] theorem extend_nil (p : Propagator α) : p.extend [] = p := by
  simp [extend]

theorem extend_extend (p : Propagator α) (xs ys : List α) :
    (p.extend xs).extend ys = p.extend (xs ++ ys) := by
  simp [extend, Nat.add_assoc]

theorem Live.extend (h : p.Live) (xs : List α) : (p.extend xs).Live where
  counted := by rw [pending_extend, List.length_append, ← h.counted]; rfl
  dispatching := h.dispatching
  served := h.served

/-- A forward is queued, or the propagator is left as it was. -/
theorem trySubmit_cases (p : Propagator α) (x : α) :
    p.trySubmit x = (p.extend [x], .ok ()) ∨ ∃ e, p.trySubmit x = (p, .error e) := by
  have hback : p.begin.finish = p := rfl
  by_cases hclosed : p.closed = true
  · refine .inr ⟨.propagatorClosed, ?_⟩
    simp only [trySubmit]
    rw [if_pos (by exact hclosed), hback]
  · by_cases hroom : p.hasRoom = true
    · refine .inl ?_
      simp only [trySubmit]
      rw [if_neg (by exact hclosed), if_pos (by exact hroom)]
      rfl
    · refine .inr ⟨.queueFull, ?_⟩
      simp only [trySubmit]
      rw [if_neg (by exact hclosed), if_neg (by exact hroom), hback]

/-- The queue is open and has room for some forwards. -/
structure Fits (p : Propagator α) (xs : List α) : Prop where
  accepting : p.closed = false
  room : p.queued.length + xs.length ≤ p.capacity

theorem Fits.trySubmit_head {x : α} {xs : List α} (h : p.Fits (x :: xs)) :
    p.trySubmit x = (p.extend [x], .ok ()) := by
  have hopen : ¬p.begin.closed = true := by
    rw [Bool.not_eq_true]
    exact h.accepting
  have hroom : p.begin.hasRoom = true := by
    have hle := h.room
    rw [List.length_cons] at hle
    exact decide_eq_true (show p.queued.length < p.capacity by omega)
  simp only [trySubmit]
  rw [if_neg hopen, if_pos hroom]
  rfl

theorem Fits.extend_head {x : α} {xs : List α} (h : p.Fits (x :: xs)) : (p.extend [x]).Fits xs where
  accepting := h.accepting
  room := by
    have hle := h.room
    simp only [extend, List.length_append, List.length_cons, List.length_nil] at hle ⊢
    omega

/-- A submission queues the forward or, where it has to wait or is refused, changes nothing. -/
theorem submit_cases (p : Propagator α) (x : α) :
    p.submit x = (p.extend [x], .ok ()) ∨ p.submit x = (p, .waiting) ∨
      p.closed = true ∧ p.submit x = (p, .refused .propagatorClosed) := by
  unfold submit
  by_cases hclosed : p.closed = true
  · exact .inr (.inr ⟨hclosed, if_pos hclosed⟩)
  · rw [if_neg hclosed]
    by_cases hroom : p.hasRoom = true
    · exact .inl (if_pos hroom)
    · exact .inr (.inl (if_neg hroom))

theorem submit_of_room (hopen : p.closed = false) (hroom : p.hasRoom = true) (x : α) :
    p.submit x = (p.extend [x], .ok ()) := by
  rw [submit, if_neg (by rw [hopen]; exact Bool.noConfusion), if_pos hroom]
  rfl

theorem submit_of_full (hopen : p.closed = false) (hroom : ¬p.hasRoom = true) (x : α) :
    p.submit x = (p, .waiting) := by
  rw [submit, if_neg (by rw [hopen]; exact Bool.noConfusion), if_neg hroom]

theorem pending_take (h : p.ownerGone = false) : p.take.pending = p.pending := by
  unfold take
  split
  case h_1 hheld hqueued => simp [pending, handlerGone_of_owned h, hheld, hqueued]
  case h_2 => rfl

@[simp] theorem ownerGone_take (p : Propagator α) : p.take.ownerGone = p.ownerGone := by
  unfold take
  split
  · split <;> rfl
  · rfl

@[simp] theorem ownerGone_launch (p : Propagator α) : p.launch.ownerGone = p.ownerGone := by
  unfold launch
  split
  · split <;> rfl
  · rfl

theorem Live.take (h : p.Live) : p.take.Live where
  counted := by
    rw [pending_take h.served, ← h.counted]
    unfold Propagator.take
    split
    case h_1 => simp [handlerGone_of_owned h.served]
    case h_2 => rfl
  dispatching := by
    unfold Propagator.take
    split
    case h_1 => simpa [handlerGone_of_owned h.served] using h.dispatching
    case h_2 => exact h.dispatching
  served := (ownerGone_take p).trans h.served

theorem pending_launch (p : Propagator α) : p.launch.pending = p.pending := by
  unfold launch
  split
  case h_1 hheld =>
    split
    · simp [pending, hheld]
    · rfl
  case h_2 => rfl

theorem Live.launch (h : p.Live) : p.launch.Live where
  counted := by
    rw [pending_launch, ← h.counted]
    unfold Propagator.launch
    split
    · split <;> rfl
    · rfl
  dispatching := by
    unfold Propagator.launch
    split
    · split <;> exact h.dispatching
    · exact h.dispatching
  served := (ownerGone_launch p).trans h.served

theorem mem_pending_of_running {i : Nat} {x : α} (h : p.running[i]? = some x) : x ∈ p.pending := by
  simp only [pending, List.mem_append]
  exact .inl (.inl (List.mem_of_getElem? h))

/-- The end of a delivery takes one forward from those that are pending. -/
theorem pending_complete {i : Nat} (h : i < p.running.length) :
    (p.complete i).pending = p.pending.eraseIdx i := by
  rw [pending, pending, List.append_assoc, List.append_assoc, List.eraseIdx_append_of_lt_length h]
  rfl

theorem perm_pending_complete {i : Nat} {x : α} (hx : p.running[i]? = some x) :
    (x :: (p.complete i).pending).Perm p.pending := by
  obtain ⟨hlt, rfl⟩ := List.getElem?_eq_some_iff.1 hx
  have hpending : i < p.pending.length := by
    simp only [pending, List.length_append]
    omega
  have hat : p.pending[i] = p.running[i] := by
    simp only [pending, List.append_assoc]
    exact List.getElem_append_left hlt
  rw [pending_complete hlt, ← hat]
  exact List.getElem_cons_eraseIdx_perm hpending

theorem mem_pending_of_mem_complete {i : Nat} {x : α} (h : x ∈ (p.complete i).pending) : x ∈ p.pending := by
  simp only [pending, complete, finish, List.mem_append] at h ⊢
  exact h.imp_left (Or.imp_left List.mem_of_mem_eraseIdx)

theorem length_pending_complete {i : Nat} (h : i < p.running.length) :
    (p.complete i).pending.length + 1 = p.pending.length := by
  have hlt : i < p.pending.length := by
    simp only [pending, List.length_append]
    omega
  rw [pending_complete h, List.length_eraseIdx_of_lt hlt]
  omega

/-- The end of a delivery takes away no other forward. -/
theorem mem_pending_complete {i : Nat} {x y : α} (hy : p.running[i]? = some y) (hx : x ∈ p.pending) :
    x = y ∨ x ∈ (p.complete i).pending := by
  have hlt : i < p.running.length := (List.getElem?_eq_some_iff.1 hy).1
  have hat : p.pending[i]? = some y := by
    rw [pending, List.append_assoc, List.getElem?_append_left hlt, hy]
  obtain ⟨j, hj⟩ := List.mem_iff_getElem?.1 hx
  rw [pending_complete hlt, List.mem_eraseIdx_iff_getElem?]
  by_cases hji : j = i
  · rw [hji, hat] at hj
    exact .inl (Option.some.inj hj).symm
  · exact .inr ⟨j, hji, hj⟩

theorem Live.complete {i : Nat} (hp : p.Live) (h : i < p.running.length) : (p.complete i).Live where
  counted := by
    rw [pending_complete h, List.length_eraseIdx_of_lt, ← hp.counted]
    · rfl
    · simp only [pending, List.length_append]
      omega
  dispatching := hp.dispatching
  served := hp.served

/-! ## Getting on -/

@[simp] theorem permits_take (p : Propagator α) : p.take.permits = p.permits := by
  unfold take
  split
  · split <;> rfl
  · rfl

@[simp] theorem permits_launch (p : Propagator α) : p.launch.permits = p.permits := by
  unfold launch
  split
  · split <;> rfl
  · rfl

@[simp] theorem capacity_take (p : Propagator α) : p.take.capacity = p.capacity := by
  unfold take
  split
  · split <;> rfl
  · rfl

@[simp] theorem capacity_launch (p : Propagator α) : p.launch.capacity = p.capacity := by
  unfold launch
  split
  · split <;> rfl
  · rfl

@[simp] theorem running_take (p : Propagator α) : p.take.running = p.running := by
  unfold take
  split
  · split <;> rfl
  · rfl

theorem running_launch (h : p.running ≠ [] ∨ p.held ≠ none) (hpermits : 0 < p.permits) :
    p.launch.running ≠ [] := by
  unfold launch
  split
  case h_1 x hheld =>
    split
    · simp
    case isFalse hbusy =>
      intro hnone
      rw [hnone] at hbusy
      exact hbusy hpermits
  case h_2 hheld => exact h.resolve_right fun hne => hne hheld

theorem running_dispatch {n : Nat} (h : p.running ≠ [] ∨ p.held ≠ none) (hpermits : 0 < p.permits) :
    (dispatch n p).running ≠ [] := by
  induction n generalizing p with
  | zero => exact running_launch h hpermits
  | succ n ih =>
    refine ih (.inl ?_) (by simpa using hpermits)
    rw [running_take]
    exact running_launch h hpermits

theorem held_take {x : α} {rest : List α} (hheld : p.held = none) (hqueued : p.queued = x :: rest)
    (hserved : p.ownerGone = false) : p.take.held = some x := by
  simp [take, hheld, hqueued, handlerGone_of_owned hserved]

/-- What is pending has been taken from the queue, or the dispatcher is free to take it. -/
theorem taken_or_queued (h : p.pending ≠ []) :
    (p.running ≠ [] ∨ p.held ≠ none) ∨ p.launch = p ∧ p.held = none ∧ ∃ x rest, p.queued = x :: rest := by
  cases hheld : p.held with
  | some x => exact .inl (.inr (Option.some_ne_none x))
  | none =>
    cases hrunning : p.running with
    | cons x rest => exact .inl (.inl (List.cons_ne_nil x rest))
    | nil =>
      refine .inr ⟨by simp [launch, hheld], rfl, ?_⟩
      cases hqueued : p.queued with
      | cons x rest => exact ⟨x, rest, rfl⟩
      | nil => simp [pending, hrunning, hheld, hqueued] at h

/-- With something pending, the dispatcher starts a delivery unless one is running already. -/
theorem running_dispatchAll (h : p.pending ≠ []) (hserved : p.ownerGone = false)
    (hpermits : 0 < p.permits) : p.dispatchAll.running ≠ [] := by
  unfold dispatchAll
  rcases taken_or_queued h with htaken | ⟨hlaunch, hheld, x, rest, hqueued⟩
  · exact running_dispatch htaken hpermits
  · rw [hqueued, List.length_cons, dispatch, hlaunch]
    refine running_dispatch (.inr ?_) (by simpa using hpermits)
    rw [held_take hheld hqueued hserved]
    exact Option.some_ne_none x

theorem launch_of_permits (hpermits : p.pending.length ≤ p.permits) :
    p.launch = { p with running := p.running ++ p.held.toList, held := none } := by
  obtain ⟨capacity, permits, queued, held, running, inFlight, ownerGone, closed⟩ := p
  cases held with
  | none => simp [launch]
  | some x =>
    have hlt : running.length < permits := by
      simp only [pending, Option.toList_some, List.length_append, List.length_singleton] at hpermits
      omega
    simp [launch, hlt]

/-- With a permit for everything that is pending, the dispatcher starts all of it. -/
theorem dispatch_of_permits {n : Nat} (hqueued : p.queued.length = n) (hserved : p.ownerGone = false)
    (hpermits : p.pending.length ≤ p.permits) :
    dispatch n p = { p with running := p.pending, held := none, queued := [] } := by
  induction n generalizing p with
  | zero =>
    have hnone : p.queued = [] := List.length_eq_zero_iff.1 hqueued
    rw [dispatch, launch_of_permits hpermits, pending, hnone, List.append_nil]
  | succ n ih =>
    obtain ⟨x, rest, hcons⟩ := List.exists_cons_of_length_eq_add_one hqueued
    have htaken : p.launch.take =
        { p with running := p.running ++ p.held.toList, held := some x, queued := rest } := by
      rw [launch_of_permits hpermits]
      simp [take, handlerGone, hcons, hserved]
    have hpending : p.launch.take.pending = p.pending := by
      rw [htaken]
      simp [pending, hcons]
    have hrest : p.launch.take.queued.length = n := by
      rw [htaken]
      simpa [hcons] using hqueued
    have hstill : p.launch.take.ownerGone = false := by simpa using hserved
    rw [dispatch, ih hrest hstill (by rwa [hpending, permits_take, permits_launch]), hpending, htaken]

theorem dispatchAll_of_permits (hserved : p.ownerGone = false) (hpermits : p.pending.length ≤ p.permits) :
    p.dispatchAll = { p with running := p.pending, held := none, queued := [] } :=
  dispatch_of_permits rfl hserved hpermits

/-- Three moves of it are enough. -/
theorem running_moves (h : p.pending ≠ []) (hserved : p.ownerGone = false) (hpermits : 0 < p.permits) :
    p.launch.take.launch.running ≠ [] := by
  refine running_launch ?_ (by simpa using hpermits)
  rcases taken_or_queued h with htaken | ⟨hlaunch, hheld, x, rest, hqueued⟩
  · rw [running_take]
    exact .inl (running_launch htaken hpermits)
  · rw [hlaunch, held_take hheld hqueued hserved]
    exact .inr (Option.some_ne_none x)

end TriadMesh.Propagator
