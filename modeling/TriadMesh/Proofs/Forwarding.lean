import Mathlib.Data.List.Perm.Basic
import TriadMesh.Proofs.Propagator

/-!
# Every forward is settled once

A propagator hands over what it has accepted, in the order in which it came, or discards it once nobody is left
to deliver to. Until then a forward waits in the queue or with the dispatcher, so none is lost and none is settled
twice. Books that are kept along a run tell what has become of each.

The handler outlives its owner as long as a forward is held or being delivered. So forwards may still be handed
over after the owner has let go, until for once none is under way.
-/

namespace TriadMesh.Propagator

variable {α : Type} {p : Propagator α} {x : α}

/-! ## Moves -/

inductive Move (α : Type) where
  | submit (x : α)
  | trySubmit (x : α)
  /-- The dispatcher takes the front of the queue. -/
  | take
  /-- The held forward gets a permit and is handed to the handler. -/
  | launch
  /-- The delivery at a place among those that run comes to its end, or crashes. -/
  | finish (i : Nat) (crashed : Bool)
  /-- The owner lets go of the handler. What is held or being delivered has a hold of its own, and while it has, the
  dispatcher goes on as before. -/
  | drop

/-- Whether a move is one of the dispatcher or of a delivery, and needs nobody from outside. -/
def Move.isOwn : Move α → Bool
  | take | launch | finish .. => true
  | _ => false

variable {a : Move α}

/-- However a delivery ends, it gives back its permit and is no longer counted. -/
def step (p : Propagator α) : Move α → Propagator α
  | .submit x => (p.submit x).1
  | .trySubmit x => (p.trySubmit x).1
  | .take => p.take
  | .launch => p.launch
  | .finish i _ => if i < p.running.length then p.complete i else p
  | .drop => p.dropHandler

/-- The forward whose submission is answered with success. -/
def acceptedBy (p : Propagator α) : Move α → List α
  | .submit x => if (p.submit x).2 = .ok () then [x] else []
  | .trySubmit x => if (p.trySubmit x).2.isOk then [x] else []
  | _ => []

/-- The deliveries that begin. -/
def handedBy (p : Propagator α) (a : Move α) : List α := (p.step a).running.drop p.running.length

theorem ownerGone_step (p : Propagator α) (a : Move α) :
    (p.step a).ownerGone = true ↔ p.ownerGone = true ∨ a = .drop := by
  cases a with
  | submit x => rcases p.submit_cases x with h | h | ⟨-, h⟩ <;> simp [step, h, extend]
  | trySubmit x => rcases p.trySubmit_cases x with h | ⟨e, h⟩ <;> simp [step, h, extend]
  | take => simp [step]
  | launch => simp [step]
  | finish i crashed =>
    rw [step]
    split <;> simp [complete, finish]
  | drop => simp [step, dropHandler]

/-- What leaves the queue and is not held. -/
def discardedBy (p : Propagator α) (a : Move α) : List α :=
  if (p.step a).held.isSome then [] else p.queued.take (p.queued.length - (p.step a).queued.length)

def endedBy (p : Propagator α) : Move α → List α
  | .finish i _ => p.running[i]?.toList
  | _ => []

inductive Exit where
  | handed
  | discarded
deriving DecidableEq

def settledBy (p : Propagator α) (a : Move α) : List (Exit × α) :=
  (p.handedBy a).map (Exit.handed, ·) ++ (p.discardedBy a).map (Exit.discarded, ·)

/-- Everything that one move can do, with what it accepts, settles and ends. -/
inductive Turn (p : Propagator α) : Move α → Propagator α → List α → List (Exit × α) → List α → Prop where
  | idle {a : Move α} : Turn p a p [] [] []
  | accepted {a : Move α} {x : α} (ha : a.isOwn = false) (hroom : p.queued.length < p.capacity) :
      Turn p a (p.extend [x]) [x] [] []
  | held {x : α} {rest : List α} (hheld : p.held = none) (hqueued : p.queued = x :: rest)
      (hserved : p.handlerGone = false) : Turn p .take { p with queued := rest, held := some x } [] [] []
  | discarded {x : α} {rest : List α} (hheld : p.held = none) (hqueued : p.queued = x :: rest)
      (hgone : p.handlerGone = true) :
      Turn p .take { p with queued := rest, inFlight := p.inFlight - 1 } [] [(.discarded, x)] []
  | launched {x : α} (hheld : p.held = some x) (hpermit : p.running.length < p.permits) :
      Turn p .launch { p with held := none, running := p.running ++ [x] } [] [(.handed, x)] []
  | finished {i : Nat} {x : α} {crashed : Bool} (hx : p.running[i]? = some x) :
      Turn p (.finish i crashed) (p.complete i) [] [] [x]
  | dropped : Turn p .drop p.dropHandler [] [] []

theorem settledBy_of_unmoved (hrunning : (p.step a).running.length ≤ p.running.length)
    (hqueued : p.queued.length ≤ (p.step a).queued.length) : p.settledBy a = [] := by
  have hhanded : p.handedBy a = [] := List.drop_of_length_le hrunning
  have hdiscarded : p.discardedBy a = [] := by
    rw [discardedBy, Nat.sub_eq_zero_of_le hqueued, List.take_zero, ite_self]
  rw [settledBy, hhanded, hdiscarded]
  rfl

theorem settledBy_of_idle (hstep : p.step a = p) : p.settledBy a = [] :=
  settledBy_of_unmoved (Nat.le_of_eq (congrArg (fun q => q.running.length) hstep))
    (Nat.le_of_eq (congrArg (fun q => q.queued.length) hstep.symm))

theorem trySubmit_of_room (hopen : p.closed = false) (hroom : p.hasRoom = true) (x : α) :
    p.trySubmit x = (p.extend [x], .ok ()) := by
  have hfits : p.Fits [x] := ⟨hopen, Nat.succ_le_of_lt (of_decide_eq_true hroom)⟩
  exact hfits.trySubmit_head

theorem trySubmit_of_full (hroom : ¬p.hasRoom = true) (x : α) : ∃ e, p.trySubmit x = (p, .error e) := by
  unfold trySubmit
  dsimp only
  split
  · exact ⟨_, rfl⟩
  · exact ⟨_, if_neg hroom⟩

theorem turn_accepted (hroom : p.hasRoom = true) (ha : a.isOwn = false) (hstep : p.step a = p.extend [x])
    (haccepted : p.acceptedBy a = [x]) (hended : p.endedBy a = []) :
    Turn p a (p.step a) (p.acceptedBy a) (p.settledBy a) (p.endedBy a) := by
  have hsettled : p.settledBy a = [] :=
    settledBy_of_unmoved (by rw [hstep]; exact Nat.le_refl _) (by simp [hstep, extend])
  rw [hstep, haccepted, hsettled, hended]
  exact .accepted ha (of_decide_eq_true hroom)

theorem turn_idle (hstep : p.step a = p) (haccepted : p.acceptedBy a = []) (hended : p.endedBy a = []) :
    Turn p a (p.step a) (p.acceptedBy a) (p.settledBy a) (p.endedBy a) := by
  rw [settledBy_of_idle hstep, hstep, haccepted, hended]
  exact .idle

theorem turn_step (hopen : p.closed = false) (a : Move α) :
    Turn p a (p.step a) (p.acceptedBy a) (p.settledBy a) (p.endedBy a) := by
  cases a with
  | submit x =>
    by_cases hroom : p.hasRoom = true
    · have hsubmit := submit_of_room hopen hroom x
      exact turn_accepted hroom rfl (congrArg Prod.fst hsubmit) (by rw [acceptedBy, hsubmit]; rfl) rfl
    · have hsubmit := submit_of_full hopen hroom x
      exact turn_idle (congrArg Prod.fst hsubmit) (by rw [acceptedBy, hsubmit]; rfl) rfl
  | trySubmit x =>
    by_cases hroom : p.hasRoom = true
    · have hsubmit := trySubmit_of_room hopen hroom x
      exact turn_accepted hroom rfl (congrArg Prod.fst hsubmit) (by rw [acceptedBy, hsubmit]; rfl) rfl
    · obtain ⟨e, hsubmit⟩ := trySubmit_of_full hroom x
      exact turn_idle (congrArg Prod.fst hsubmit) (by rw [acceptedBy, hsubmit]; rfl) rfl
  | take =>
    cases hheld : p.held with
    | some x => exact turn_idle (by simp [step, take, hheld]) rfl rfl
    | none =>
      cases hqueued : p.queued with
      | nil => exact turn_idle (by simp [step, take, hheld, hqueued]) rfl rfl
      | cons x rest =>
        cases hgone : p.handlerGone with
        | false =>
          have hstep : p.step .take = { p with queued := rest, held := some x } := by
            simp [step, take, hheld, hqueued, hgone]
          have hsettled : p.settledBy .take = [] := by simp [settledBy, handedBy, discardedBy, hstep]
          rw [hstep, hsettled]
          exact .held hheld hqueued hgone
        | true =>
          have hstep : p.step .take = { p with queued := rest, inFlight := p.inFlight - 1 } := by
            simp [step, take, hheld, hqueued, hgone, finish]
          have hsettled : p.settledBy .take = [(.discarded, x)] := by
            simp [settledBy, handedBy, discardedBy, hstep, hheld, hqueued]
          rw [hstep, hsettled]
          exact .discarded hheld hqueued hgone
  | launch =>
    cases hheld : p.held with
    | none => exact turn_idle (by simp [step, launch, hheld]) rfl rfl
    | some x =>
      by_cases hpermit : p.running.length < p.permits
      · have hstep : p.step .launch = { p with held := none, running := p.running ++ [x] } := by
          simp [step, launch, hheld, hpermit]
        have hsettled : p.settledBy .launch = [(.handed, x)] := by
          simp [settledBy, handedBy, discardedBy, hstep]
        rw [hstep, hsettled]
        exact .launched hheld hpermit
      · exact turn_idle (by simp [step, launch, hheld, hpermit]) rfl rfl
  | finish i crashed =>
    cases hx : p.running[i]? with
    | none =>
      have hidle : p.step (.finish i crashed) = p := if_neg (Nat.not_lt_of_le (List.getElem?_eq_none_iff.1 hx))
      exact turn_idle hidle rfl (by rw [endedBy, hx]; rfl)
    | some x =>
      have hstep : p.step (.finish i crashed) = p.complete i := if_pos (List.getElem?_eq_some_iff.1 hx).1
      have hsettled : p.settledBy (.finish i crashed) = [] := by
        refine settledBy_of_unmoved ?_ ?_
        · rw [hstep]
          exact List.length_eraseIdx_le _ _
        · rw [hstep]
          exact Nat.le_refl _
      rw [hstep, hsettled, endedBy, hx]
      exact .finished hx
  | drop =>
    have hsettled : p.settledBy .drop = [] := settledBy_of_unmoved (Nat.le_refl _) (Nat.le_refl _)
    rw [hsettled]
    exact .dropped

/-! ## The count -/

/-- How often a move raises the count. -/
def raisings (p : Propagator α) : Move α → Nat
  | .submit x => (p.acceptedBy (.submit x)).length
  | .trySubmit _ => 1
  | .take | .launch | .finish .. | .drop => 0

/-- What a move finds the count to be when it lowers it. -/
def lowerings (p : Propagator α) : Move α → List Nat
  | .trySubmit x => if (p.trySubmit x).2.isOk then [] else [p.begin.inFlight]
  | .take => (p.discardedBy .take).map fun _ => p.inFlight
  | .finish i crashed => (p.endedBy (.finish i crashed)).map fun _ => p.inFlight
  | .submit _ | .launch | .drop => []

/-- Nothing is counted that is not pending, and the count is never lowered at zero. -/
structure Counts (p : Propagator α) : Prop where
  pending : p.inFlight = p.queued.length + p.held.toList.length + p.running.length
  idle : p.inFlight = 0 ↔ p.pending = []
  balance : ∀ a : Move α, (p.step a).inFlight + (p.lowerings a).length = p.inFlight + p.raisings a
  positive : ∀ a : Move α, ∀ k ∈ p.lowerings a, 0 < k

theorem discardedBy_eq (p : Propagator α) (a : Move α) :
    p.discardedBy a = ((p.settledBy a).filter (·.1 = .discarded)).map Prod.snd := by
  rw [settledBy, List.filter_append, List.filter_map, List.filter_map, List.filter_eq_nil_iff.2, List.filter_eq_self.2]
  · simp [Function.comp_def]
  · simp
  · simp

theorem balance_step (hopen : p.closed = false) (hcount : p.inFlight = p.pending.length) (a : Move α) :
    (p.step a).inFlight + (p.lowerings a).length = p.inFlight + p.raisings a ∧ ∀ k ∈ p.lowerings a, 0 < k := by
  have hlength : p.inFlight = p.running.length + p.held.toList.length + p.queued.length := by
    rw [hcount, pending, List.length_append, List.length_append]
  cases a with
  | submit x =>
    by_cases hroom : p.hasRoom = true
    · simp [step, lowerings, raisings, acceptedBy, submit_of_room hopen hroom x, extend]
    · simp [step, lowerings, raisings, acceptedBy, submit_of_full hopen hroom x]
  | trySubmit x =>
    by_cases hroom : p.hasRoom = true
    · simp [step, lowerings, raisings, trySubmit_of_room hopen hroom x, extend, Except.isOk, Except.toBool]
    · obtain ⟨e, hsubmit⟩ := trySubmit_of_full hroom x
      simp [step, lowerings, raisings, hsubmit, begin, Except.isOk, Except.toBool]
  | take =>
    have hturn := turn_step hopen (p := p) .take
    rw [lowerings, raisings, discardedBy_eq]
    generalize p.step .take = q, p.acceptedBy .take = ins, p.settledBy .take = outs, p.endedBy .take = ends at hturn
    cases hturn with
    | accepted ha hroom => cases ha
    | discarded hheld hqueued hgone =>
      have hpos : 0 < p.inFlight := by
        rw [hlength, hqueued, List.length_cons]
        omega
      simp
      omega
    | _ => simp
  | launch =>
    have hsame : p.launch.inFlight = p.inFlight := by
      unfold launch
      split
      · split <;> rfl
      · rfl
    exact ⟨hsame, by simp [lowerings]⟩
  | finish i crashed =>
    have hturn := turn_step hopen (p := p) (.finish i crashed)
    rw [lowerings, raisings]
    generalize p.step (.finish i crashed) = q, p.acceptedBy (.finish i crashed) = ins,
      p.settledBy (.finish i crashed) = outs, p.endedBy (.finish i crashed) = ends at hturn
    cases hturn with
    | idle => simp
    | accepted ha hroom => cases ha
    | finished hx =>
      have hpos : 0 < p.inFlight := by
        have hlt := (List.getElem?_eq_some_iff.1 hx).1
        omega
      simp [complete, finish]
      omega
  | drop => exact ⟨rfl, by simp [lowerings]⟩

theorem counts_of_pending (hopen : p.closed = false) (hcount : p.inFlight = p.pending.length) : Counts p where
  pending := by
    rw [hcount, Propagator.pending, List.length_append, List.length_append]
    omega
  idle := by rw [hcount, List.length_eq_zero_iff]
  balance a := (balance_step hopen hcount a).1
  positive a := (balance_step hopen hcount a).2

/-! ## Books -/

/-- A propagator with what has become of its forwards, in the order in which it happened. -/
structure Books (α : Type) where
  propagator : Propagator α
  accepted : List α
  settled : List (Exit × α)
  ended : List α

namespace Books

def start (capacity maxInFlight : Nat) : Books α := ⟨.empty capacity maxInFlight, [], [], []⟩

def move (b : Books α) (a : Move α) : Books α where
  propagator := b.propagator.step a
  accepted := b.accepted ++ b.propagator.acceptedBy a
  settled := b.settled ++ b.propagator.settledBy a
  ended := b.ended ++ b.propagator.endedBy a

def run (b : Books α) (moves : List (Move α)) : Books α := moves.foldl move b

def leaving (b : Books α) (e : Exit) : List α := (b.settled.filter (·.1 = e)).map Prod.snd

def handed (b : Books α) : List α := b.leaving .handed

def discarded (b : Books α) : List α := b.leaving .discarded

theorem run_append (b : Books α) (xs ys : List (Move α)) : b.run (xs ++ ys) = (b.run xs).run ys :=
  List.foldl_append

theorem leaving_move (b : Books α) (a : Move α) (e : Exit) :
    (b.move a).leaving e = b.leaving e ++ ((b.propagator.settledBy a).filter (·.1 = e)).map Prod.snd := by
  rw [leaving, leaving, move, List.filter_append, List.map_append]

/-- What holds at any time of the books of a propagator with these sizes. -/
structure Balanced (capacity maxInFlight : Nat) (b : Books α) : Prop where
  capacity : b.propagator.capacity = max capacity 1
  permits : b.propagator.permits = max maxInFlight 1
  dispatching : b.propagator.closed = false
  counted : b.propagator.inFlight = b.propagator.pending.length
  settled : b.accepted = b.settled.map Prod.snd ++ b.propagator.held.toList ++ b.propagator.queued
  handed : b.handed.Perm (b.ended ++ b.propagator.running)
  served : b.propagator.ownerGone = false → b.discarded = []
  queue : b.propagator.queued.length ≤ b.propagator.capacity
  running : b.propagator.running.length ≤ b.propagator.permits

variable {capacity maxInFlight : Nat} {b : Books α} {a : Move α}

theorem balanced_start : Balanced capacity maxInFlight (start capacity maxInFlight : Books α) where
  capacity := rfl
  permits := rfl
  dispatching := rfl
  counted := rfl
  settled := rfl
  handed := List.Perm.nil
  served := fun _ => rfl
  queue := Nat.zero_le _
  running := Nat.zero_le _

theorem Balanced.turn (h : Balanced capacity maxInFlight b) {q : Propagator α} {ins : List α}
    {outs : List (Exit × α)} {ends : List α} (hturn : Turn b.propagator a q ins outs ends) :
    Balanced capacity maxInFlight ⟨q, b.accepted ++ ins, b.settled ++ outs, b.ended ++ ends⟩ := by
  have hcounted := h.counted
  have hsettled := h.settled
  have hhanded := h.handed
  cases hturn with
  | idle =>
    simp only [List.append_nil]
    exact h
  | @accepted _ x ha hroom =>
    refine ⟨h.capacity, h.permits, h.dispatching, ?_, ?_, ?_, ?_, ?_, h.running⟩
    · rw [pending_extend, List.length_append, ← hcounted]
      rfl
    · rw [hsettled, List.append_nil, List.append_assoc]
      rfl
    · simp only [List.append_nil]
      exact hhanded
    · simp only [List.append_nil]
      exact h.served
    · simp only [extend, List.length_append, List.length_singleton]
      omega
  | @held x rest hheld hqueued hserved =>
    have hqueue := h.queue
    rw [hqueued, List.length_cons] at hqueue
    simp only [List.append_nil]
    refine ⟨h.capacity, h.permits, h.dispatching, ?_, ?_, hhanded, h.served, Nat.le_of_succ_le hqueue, h.running⟩
    · simp only [hcounted, pending, hheld, hqueued]
      simp
    · simp only [hsettled, hheld, hqueued]
      simp
  | @discarded x rest hheld hqueued hgone =>
    have hqueue := h.queue
    rw [hqueued, List.length_cons] at hqueue
    simp only [List.append_nil]
    refine ⟨h.capacity, h.permits, h.dispatching, ?_, ?_, ?_, ?_, Nat.le_of_succ_le hqueue, h.running⟩
    · simp only [hcounted, pending, hheld, hqueued]
      simp
    · simp only [hsettled, hheld, hqueued]
      simp
    · simpa [Books.handed, leaving] using hhanded
    · intro hserved
      exact absurd hserved (by simp [(handlerGone_iff.1 hgone).1])
  | @launched x hheld hpermit =>
    simp only [List.append_nil]
    refine ⟨h.capacity, h.permits, h.dispatching, ?_, ?_, ?_, ?_, h.queue, ?_⟩
    · simp only [hcounted, pending, hheld]
      simp
    · simp only [hsettled, hheld]
      simp
    · simpa [Books.handed, leaving, ← List.append_assoc] using hhanded.append_right [x]
    · simpa [Books.discarded, leaving] using h.served
    · simp only [List.length_append, List.length_singleton]
      omega
  | @finished i x crashed hx =>
    obtain ⟨hlt, hget⟩ := List.getElem?_eq_some_iff.1 hx
    simp only [List.append_nil]
    refine ⟨h.capacity, h.permits, h.dispatching, ?_, hsettled, ?_, h.served, h.queue, ?_⟩
    · have hlength := length_pending_complete hlt
      have hless : (b.propagator.complete i).inFlight = b.propagator.inFlight - 1 := rfl
      dsimp only
      omega
    · -- Deliveries end in any order, so here the books only agree up to order.
      have hrunning : (x :: b.propagator.running.eraseIdx i).Perm b.propagator.running := by
        rw [← hget]
        exact List.getElem_cons_eraseIdx_perm hlt
      rw [List.append_assoc]
      exact hhanded.trans (hrunning.symm.append_left b.ended)
    · exact Nat.le_trans (List.length_eraseIdx_le _ _) h.running
  | dropped =>
    simp only [List.append_nil]
    refine ⟨h.capacity, h.permits, h.dispatching, hcounted, hsettled, hhanded, ?_, h.queue, h.running⟩
    intro hserved
    cases hserved

theorem Balanced.move (h : Balanced capacity maxInFlight b) (a : Move α) :
    Balanced capacity maxInFlight (b.move a) :=
  h.turn (turn_step h.dispatching a)

theorem Balanced.run (h : Balanced capacity maxInFlight b) (moves : List (Move α)) :
    Balanced capacity maxInFlight (b.run moves) := by
  induction moves generalizing b with
  | nil => exact h
  | cons a moves ih => exact ih (h.move a)

/-- Once nobody is left to deliver to, that stays so, and no move hands anything over. -/
theorem Balanced.gone_move (h : Balanced capacity maxInFlight b) (hgone : b.propagator.handlerGone = true)
    (a : Move α) : (b.move a).propagator.handlerGone = true ∧ (b.move a).handed = b.handed := by
  obtain ⟨howner, hnone, hidle⟩ := handlerGone_iff.1 hgone
  have hturn := turn_step h.dispatching a
  rw [Books.handed, leaving_move, Books.move, handlerGone_iff]
  generalize b.propagator.step a = q, b.propagator.acceptedBy a = ins, b.propagator.settledBy a = outs,
    b.propagator.endedBy a = ends at hturn
  cases hturn with
  | held hheld hqueued hserved =>
    rw [hgone] at hserved
    cases hserved
  | launched hheld hpermit =>
    rw [hnone] at hheld
    cases hheld
  | finished hx =>
    rw [hidle] at hx
    cases hx
  | dropped => exact ⟨⟨rfl, hnone, hidle⟩, by simp [Books.handed]⟩
  | _ => exact ⟨⟨howner, hnone, hidle⟩, by simp [Books.handed]⟩

theorem Balanced.gone_run (h : Balanced capacity maxInFlight b) (hgone : b.propagator.handlerGone = true)
    (moves : List (Move α)) :
    (b.run moves).propagator.handlerGone = true ∧ (b.run moves).handed = b.handed := by
  induction moves generalizing b with
  | nil => exact ⟨hgone, rfl⟩
  | cons a moves ih =>
    obtain ⟨hstill, hsame⟩ := h.gone_move hgone a
    obtain ⟨hend, hhanded⟩ := ih (h.move a) hstill
    exact ⟨hend, hhanded.trans hsame⟩

/-- A move discards something exactly if it takes a forward that nobody is left to deliver to its target. -/
theorem Balanced.discardedBy_ne_nil (h : Balanced capacity maxInFlight b) :
    b.propagator.discardedBy a ≠ [] ↔
      a = .take ∧ b.propagator.handlerGone = true ∧ b.propagator.queued ≠ [] := by
  constructor
  · intro hne
    have hturn := turn_step h.dispatching a
    rw [discardedBy_eq] at hne
    generalize b.propagator.step a = q, b.propagator.acceptedBy a = ins, b.propagator.settledBy a = outs,
      b.propagator.endedBy a = ends at hturn hne
    cases hturn with
    | discarded hheld hqueued hgone => exact ⟨rfl, hgone, by simp [hqueued]⟩
    | _ => simp at hne
  · rintro ⟨rfl, hgone, hqueued⟩
    obtain ⟨x, rest, hcons⟩ := List.exists_cons_of_ne_nil hqueued
    have hheld := (handlerGone_iff.1 hgone).2.1
    simp [discardedBy, step, take, finish, hheld, hcons, hgone]

theorem ownerGone_run (b : Books α) (moves : List (Move α)) :
    (b.run moves).propagator.ownerGone = true ↔ b.propagator.ownerGone = true ∨ .drop ∈ moves := by
  induction moves generalizing b with
  | nil => simp [run]
  | cons a moves ih =>
    rw [run, List.foldl_cons, ← run, ih, List.mem_cons, ← or_assoc, @eq_comm _ Move.drop]
    exact or_congr_left (ownerGone_step b.propagator a)

end Books

/-! ## Getting on -/

/-- How much the dispatcher and the deliveries still have to do. -/
def load (p : Propagator α) : Nat := 3 * p.queued.length + 2 * p.held.toList.length + p.running.length

/-- Moves each of which changes something when it is made. -/
def Busy : Propagator α → List (Move α) → Prop
  | _, [] => True
  | p, a :: moves => p.step a ≠ p ∧ Busy (p.step a) moves

theorem load_step (hopen : p.closed = false) (ha : a.isOwn = true) (hmoves : p.step a ≠ p) :
    (p.step a).closed = false ∧ (p.step a).load < p.load := by
  have hturn := turn_step hopen a
  generalize p.step a = q, p.acceptedBy a = ins, p.settledBy a = outs, p.endedBy a = ends at hturn hmoves
  cases hturn with
  | idle => exact absurd rfl hmoves
  | accepted hfrom hroom =>
    rw [hfrom] at ha
    cases ha
  | held hheld hqueued hserved => exact ⟨hopen, by simp [load, hheld, hqueued]; omega⟩
  | discarded hheld hqueued hgone => exact ⟨hopen, by simp [load, hqueued]⟩
  | launched hheld hpermit => exact ⟨hopen, by simp [load, hheld]; omega⟩
  | finished hx =>
    have hlt := (List.getElem?_eq_some_iff.1 hx).1
    exact ⟨hopen, by simp [load, complete, finish, List.length_eraseIdx_of_lt hlt]; omega⟩
  | dropped => cases ha

theorem Busy.length_le (hopen : p.closed = false) {own : List (Move α)} (hown : ∀ a ∈ own, a.isOwn = true)
    (h : Busy p own) : own.length ≤ p.load := by
  induction own generalizing p with
  | nil => exact Nat.zero_le _
  | cons a own ih =>
    obtain ⟨hstill, hless⟩ := load_step hopen (hown a List.mem_cons_self) h.1
    have hle := ih hstill (fun a' ha' => hown a' (List.mem_cons_of_mem a ha')) h.2
    rw [List.length_cons]
    omega

theorem pending_of_stuck (hpermits : 0 < p.permits) (hstuck : ∀ a : Move α, a.isOwn = true → p.step a = p) :
    p.pending = [] := by
  -- A delivery that runs can end, so all permits are free for what is held, and then the queue can move.
  have hrunning : p.running = [] := by
    cases hcons : p.running with
    | nil => rfl
    | cons x rest =>
      have hsame := congrArg (List.length ∘ running) (hstuck (.finish 0 false) rfl)
      simp [step, complete, finish, hcons] at hsame
  have hheld : p.held = none := by
    cases hsome : p.held with
    | none => rfl
    | some x =>
      have hsame := congrArg held (hstuck .launch rfl)
      simp [step, launch, hsome, hrunning, hpermits] at hsame
  have hqueued : p.queued = [] := by
    cases hcons : p.queued with
    | nil => rfl
    | cons x rest =>
      have hsame := congrArg (List.length ∘ queued) (hstuck .take rfl)
      cases hgone : p.handlerGone
      all_goals simp [step, take, hheld, hcons, hgone, finish] at hsame
  rw [pending, hrunning, hheld, hqueued]
  rfl

/-! ## Any run -/

def spare (p : Propagator α) : Nat := p.permits - p.running.length

/-- Each accepted forward has been handed over or discarded, is held, or waits in the queue, and an earlier one is
never behind a later one. What was handed over is being delivered or has been, and what was refused has left nothing
behind. -/
structure Books.ExactlyOnce (b : Books α) : Prop where
  settled : b.accepted = b.settled.map Prod.snd ++ b.propagator.held.toList ++ b.propagator.queued
  handed : b.handed.Perm (b.ended ++ b.propagator.running)
  refused : ∀ x e, (b.propagator.trySubmit x).2 = .error e → b.move (.trySubmit x) = b
  done : b.propagator.pending = [] → b.accepted = b.settled.map Prod.snd

/-- The sizes are kept, and a delivery gives its permit back, also by a crash. -/
structure Bounded (capacity maxInFlight : Nat) (p : Propagator α) : Prop where
  queue : p.queued.length ≤ max capacity 1
  running : p.running.length ≤ max maxInFlight 1
  returned : ∀ i crashed, i < p.running.length → (p.step (.finish i crashed)).spare = p.spare + 1

/-- What leaves the queue is discarded if nobody is left to deliver to, and otherwise held to be handed over. That
point can be reached only after the owner has let go, and from it on nothing is handed over any more. -/
structure Books.Disposes (b : Books α) (moves : List (Move α)) : Prop where
  owner : (b.run moves).propagator.ownerGone = true ↔ .drop ∈ moves
  discarded : ∀ pre a post, moves = pre ++ a :: post →
    ((b.run pre).propagator.discardedBy a ≠ [] ↔
      a = .take ∧ (b.run pre).propagator.handlerGone = true ∧ (b.run pre).propagator.queued ≠ [])
  gone : ∀ pre post, moves = pre ++ post → (b.run pre).propagator.handlerGone = true →
    (b.run moves).propagator.handlerGone = true ∧ (b.run moves).handed = (b.run pre).handed

/-- The dispatcher and the deliveries come to an end on their own, and then nothing is pending. -/
structure Progresses (p : Propagator α) : Prop where
  busy : ∀ own : List (Move α), (∀ a ∈ own, a.isOwn = true) → Busy p own → own.length ≤ p.load
  stuck : (∀ a : Move α, a.isOwn = true → p.step a = p) → p.pending = []

namespace Books

variable {capacity maxInFlight : Nat} {b : Books α}

theorem Balanced.exactlyOnce (h : Balanced capacity maxInFlight b) : b.ExactlyOnce where
  settled := h.settled
  handed := h.handed
  refused := by
    intro x e herror
    have hroom : ¬b.propagator.hasRoom = true := by
      intro hroom
      rw [trySubmit_of_room h.dispatching hroom] at herror
      cases herror
    obtain ⟨e, hsubmit⟩ := trySubmit_of_full hroom x
    have hstep : b.propagator.step (.trySubmit x) = b.propagator := congrArg Prod.fst hsubmit
    have haccepted : b.propagator.acceptedBy (.trySubmit x) = [] := by
      rw [acceptedBy, hsubmit]
      rfl
    have hended : b.propagator.endedBy (.trySubmit x) = [] := rfl
    rw [Books.move, settledBy_of_idle hstep, hstep, haccepted, hended, List.append_nil, List.append_nil,
      List.append_nil]
  done := by
    intro hnone
    rw [pending, List.append_eq_nil_iff, List.append_eq_nil_iff] at hnone
    rw [h.settled, hnone.1.2, hnone.2, List.append_nil, List.append_nil]

theorem Balanced.bounded (h : Balanced capacity maxInFlight b) : Bounded capacity maxInFlight b.propagator where
  queue := h.capacity ▸ h.queue
  running := h.permits ▸ h.running
  returned := by
    intro i crashed hlt
    have hrunning := h.running
    have hlength : (b.propagator.complete i).running.length = b.propagator.running.length - 1 :=
      List.length_eraseIdx_of_lt hlt
    have hpermits : (b.propagator.complete i).permits = b.propagator.permits := rfl
    rw [step, if_pos hlt, spare, spare, hlength, hpermits]
    omega

theorem Balanced.progresses (h : Balanced capacity maxInFlight b) : Progresses b.propagator where
  busy _ hown hbusy := hbusy.length_le h.dispatching hown
  stuck hstuck := pending_of_stuck (by rw [h.permits]; omega) hstuck

theorem Balanced.disposes (h : Balanced capacity maxInFlight b) (hserved : b.propagator.ownerGone = false)
    (moves : List (Move α)) : Disposes b moves where
  owner := by simp [ownerGone_run, hserved]
  discarded pre a _ _ := (h.run pre).discardedBy_ne_nil
  gone := by
    rintro pre post rfl hgone
    rw [run_append]
    exact (h.run pre).gone_run hgone post

/-- In any run of a propagator each forward that is accepted is handed over once, or discarded once if nobody is
left to deliver to. The count of those in flight is right at any time and never lowered at zero, and the bounds on
the queue and on the deliveries are kept. -/
theorem settled_once (capacity maxInFlight : Nat) (moves : List (Move α)) :
    let b := (start capacity maxInFlight : Books α).run moves
    b.ExactlyOnce ∧ Counts b.propagator ∧ Bounded capacity maxInFlight b.propagator ∧ Progresses b.propagator ∧
      ((∀ a ∈ moves, a ≠ .drop) → b.discarded = []) ∧ Disposes (start capacity maxInFlight) moves := by
  intro b
  have hstart : Balanced capacity maxInFlight (start capacity maxInFlight : Books α) := balanced_start
  have hrun : Balanced capacity maxInFlight b := hstart.run moves
  refine ⟨hrun.exactlyOnce, counts_of_pending hrun.dispatching hrun.counted, hrun.bounded, hrun.progresses, ?_,
    hstart.disposes rfl moves⟩
  intro hkept
  refine hrun.served (Bool.eq_false_iff.2 fun hgone => ?_)
  rcases (ownerGone_run _ moves).1 hgone with hbefore | hdrop
  · exact Bool.noConfusion hbefore
  · exact hkept _ hdrop rfl

/-- A forward that is being delivered when the owner lets go keeps the handler for the one behind it. -/
example : ((start 2 2).run [.submit 1, .submit 2, .take, .launch, .drop, .take, .launch]).handed = [1, 2] := by decide

end Books

end TriadMesh.Propagator
