import TriadMesh.Proofs.Arithmetic
import TriadMesh.Proofs.Soundness

/-!
# Votes on whatever sensors report

A variance has no sign, so it is finite where a finite threshold bounds it. From there finiteness goes back through the
squares and differences to the mean and the readings. As every acceptance comes from a round that has passed, a mesh
with a valid configuration never accepts a value that is not finite.
-/

namespace TriadMesh

theorem Config.isFinite_of_isNonNegative {x : Binary64} (h : isNonNegative x = true) : x.isFinite = true :=
  (Bool.and_eq_true_iff.1 h).1

theorem Config.isNonNegative_varianceThreshold {c : Config} (h : c.violation? = none) :
    isNonNegative c.varianceThreshold = true :=
  violation?_eq_none_iff.1 h
    (isNonNegative c.varianceThreshold, .notNonNegative "tmr.variance_threshold" c.varianceThreshold)
    (by simp [conditions])

/-- A round in which nothing is infinite or not a number. -/
structure Report.Finite (r : Report Binary64) : Prop where
  alpha : r.readings.alpha.isFinite = true
  beta : r.readings.beta.isFinite = true
  gamma : r.readings.gamma.isFinite = true
  mean : r.mean.isFinite = true
  variance : r.variance.isFinite = true

namespace Triad

open Binary64

variable {t : Triad Binary64} {threshold : Binary64}

theorem negative_variance (t : Triad Binary64) : t.variance.negative = false := by
  have hthree : (3 : Binary64).negative = false := by decide +kernel
  have hsquare : ∀ r, (deviation t.mean r).negative = false := fun r => negative_mul_self (r - t.mean)
  exact negative_div (negative_add (negative_add (hsquare _) (hsquare _)) (hsquare _)) hthree

theorem isFinite_mean (h : t.variance.isFinite = true) : t.mean.isFinite = true := by
  have hsum := isFinite_of_add (isFinite_of_div h)
  have hdeviation := isFinite_of_mul (isFinite_of_add hsum.1).1
  exact (isFinite_of_sub hdeviation.1).2

theorem finite_of_passed (hthreshold : threshold.isFinite = true) (h : (t.evaluate threshold).passed = true) :
    (t.evaluate threshold).Finite := by
  have hvariance : t.variance.isFinite = true :=
    isFinite_of_le t.negative_variance (of_decide_eq_true h) hthreshold
  have hmean := isFinite_mean hvariance
  obtain ⟨htwo, hgamma⟩ := isFinite_of_add (isFinite_of_div hmean)
  obtain ⟨halpha, hbeta⟩ := isFinite_of_add htwo
  exact ⟨halpha, hbeta, hgamma, hmean, hvariance⟩

end Triad

theorem Report.verdict_of_passed {r : Report Binary64} (h : r.passed = true) : r.verdict = (r.mean, true) := if_pos h

theorem Report.verdict_of_failed {r : Report Binary64} (h : r.passed = false) : r.verdict = (0, false) := by
  rw [verdict, h, if_neg Bool.noConfusion]

/-! ## Accepted values -/

/-- The mean of three readings that have passed with this threshold. -/
def Agreed (threshold x : Binary64) : Prop :=
  ∃ t : Triad Binary64, (t.evaluate threshold).passed = true ∧ x = t.mean

theorem Agreed.isFinite {threshold x : Binary64} (h : Agreed threshold x) (hthreshold : threshold.isFinite = true) :
    x.isFinite = true := by
  obtain ⟨t, hpassed, rfl⟩ := h
  exact (Triad.finite_of_passed hthreshold hpassed).mean

namespace Mesh

variable {m : Mesh} {n : Node} {msg : Message} {r : Report Binary64}

theorem barred?_ne_accepted : m.barred? n msg ≠ some (.accepted r) := by
  unfold barred?
  split
  · exact fun h => Fate.noConfusion (Option.some.inj h)
  · split
    · exact fun h => Fate.noConfusion (Option.some.inj h)
    · exact nofun

theorem agreed_of_ballot (h : m.ballot n = .accepted r) : Agreed m.config.varianceThreshold r.mean := by
  unfold ballot at h
  split at h
  case h_1 b c rest hneighbors =>
    split at h
    case h_1 => cases h
    case h_2 r' hround =>
      split at h
      case isTrue hpassed =>
        cases h
        obtain ⟨t, -, rfl⟩ := Option.map_eq_some_iff.1 hround
        exact ⟨t, hpassed, rfl⟩
      case isFalse => cases h
  case h_2 => cases h

/-- Whatever accepts a message has voted. -/
theorem agreed_of_fate (h : m.fate n msg = .accepted r) : Agreed m.config.varianceThreshold r.mean := by
  unfold fate at h
  cases hbarred : m.barred? n msg with
  | some fate =>
    rw [hbarred, Option.getD_some] at h
    exact absurd (h ▸ hbarred) barred?_ne_accepted
  | none =>
    rw [hbarred, Option.getD_none] at h
    exact agreed_of_ballot h

theorem agreed_of_receive {i : NodeId} {sender : Option NodeId} {x : Binary64}
    (h : (m.receive i msg sender).2 = .ok x) : Agreed m.config.varianceThreshold x := by
  cases hn : m.registry.find? i with
  | none =>
    rw [receive_of_unknown hn] at h
    cases h
  | some n =>
    rw [(receive_spec msg sender hn).1] at h
    cases hfate : m.fate n msg with
    | accepted r =>
      rw [hfate] at h
      cases h
      exact agreed_of_fate hfate
    | _ =>
      rw [hfate] at h
      cases h

end Mesh

/-- An event that, if it tells of an acceptance, carries an agreed value. -/
def Event.Honest (threshold : Binary64) (e : Event) : Prop :=
  e.kind = .accepted → ∃ x, e.value = some x ∧ Agreed threshold x

namespace Mesh

variable {m : Mesh} {n : Node} {msg : Message}

theorem honest_of_fate {e : Event} (h : (m.fate n msg).event n msg = some e) : e.Honest m.config.varianceThreshold := by
  intro hkind
  cases hfate : m.fate n msg with
  | accepted r =>
    rw [hfate] at h
    cases h
    exact ⟨r.mean, rfl, agreed_of_fate hfate⟩
  | crashed =>
    rw [hfate] at h
    cases h
  | _ =>
    rw [hfate] at h
    cases h
    cases hkind

/-- Beside its own event, a reception emits at most that it has forwarded the message. -/
theorem Reached.honest {g : Node → Node} {event : Option Event} {offered taken : List Forward} {m' : Mesh}
    {threshold : Binary64} (h : Reached m n msg g event offered taken m') (hm : ∀ e ∈ m.events, e.Honest threshold)
    (hevent : ∀ e, event = some e → e.Honest threshold) : ∀ e ∈ m'.events, e.Honest threshold := by
  intro e he
  rw [h.events, List.mem_append, List.mem_append, Option.mem_toList] at he
  rcases he with (he | he) | he
  · exact hm e he
  · exact hevent e he
  · split at he
    · cases he
    · cases List.mem_singleton.1 he
      exact fun hkind => EventKind.noConfusion hkind

end Mesh

namespace Deployment

variable {d : Deployment} {a : Action}

theorem Effect.honest {d' : Deployment} (h : Effect d a d')
    (hd : ∀ e ∈ d.mesh.events, e.Honest d.mesh.config.varianceThreshold) :
    ∀ e ∈ d'.mesh.events, e.Honest d.mesh.config.varianceThreshold := by
  cases h with
  | delivered hf hn hreached rs => exact hreached.honest hd fun e he => Mesh.honest_of_fate he
  | received hn hreached => exact hreached.honest hd fun e he => Mesh.honest_of_fate he
  | @begun i msg n m hn hreached =>
    refine hreached.honest hd fun e he => ?_
    obtain ⟨fate, hbarred, hevent⟩ := Option.bind_eq_some_iff.1 he
    have hfate : (d.mesh.fate n msg).event n msg = some e := by rw [Mesh.fate, hbarred, Option.getD_some, hevent]
    exact Mesh.honest_of_fate hfate
  | @finished k f hk hrem rs =>
    intro e he
    rcases List.mem_append.1 he with he | he
    · exact hd e he
    · split at he
      · cases he
      · cases List.mem_singleton.1 he
        exact fun hkind => EventKind.noConfusion hkind
  | _ => exact hd

theorem Reachable.honest (h : Reachable d) : ∀ e ∈ d.mesh.events, e.Honest d.mesh.config.varianceThreshold := by
  induction h with
  | start hstart =>
    rw [start_eq_ok hstart]
    exact fun e he => absurd he List.not_mem_nil
  | step h a ih =>
    rw [(h.sound.effect a).settings.2]
    exact (h.sound.effect a).honest ih

theorem valid_of_start {s : Suite} {config : Config} {sink : Sink} {noise : Nat → Binary64} {runtime : Bool} {m : Mesh}
    (h : Mesh.start s config sink noise runtime = .ok m) : config.violation? = none := by
  unfold Mesh.start at h
  split at h
  case h_1 => cases h
  case h_2 hvalid => exact hvalid

/-- The configuration of a mesh has been checked at its start. -/
theorem Reachable.valid (h : Reachable d) : d.mesh.config.violation? = none := by
  induction h with
  | start hstart =>
    rw [start_eq_ok hstart]
    exact valid_of_start hstart
  | step h a ih => rw [(h.sound.effect a).settings.2, ih]

/-- A round that passes has only finite readings, a finite mean and a finite variance, and its verdict is the mean; one
that does not pass has the verdict zero. So whatever the sensors report, every value that a reception answers with and
every one that an acceptance is emitted with is finite. -/
theorem finite_votes :
    (∀ (t : Triad Binary64) (threshold : Binary64), Config.isNonNegative threshold = true →
      ((t.evaluate threshold).passed = true →
        (t.evaluate threshold).Finite ∧ (t.evaluate threshold).verdict = (t.mean, true)) ∧
      ((t.evaluate threshold).passed = false → (t.evaluate threshold).verdict = (0, false))) ∧
    ∀ d, Reachable d →
      (∀ e ∈ d.mesh.events, e.kind = .accepted → ∃ x, e.value = some x ∧ x.isFinite = true) ∧
      ∀ i msg sender x, (d.mesh.receive i msg sender).2 = .ok x → x.isFinite = true := by
  refine ⟨fun t threshold hthreshold => ⟨fun hpassed => ?_, Report.verdict_of_failed⟩, fun d hd => ?_⟩
  · exact ⟨Triad.finite_of_passed (Config.isFinite_of_isNonNegative hthreshold) hpassed,
      Report.verdict_of_passed hpassed⟩
  · have hthreshold : d.mesh.config.varianceThreshold.isFinite = true :=
      Config.isFinite_of_isNonNegative (Config.isNonNegative_varianceThreshold hd.valid)
    refine ⟨fun e he hkind => ?_, fun i msg sender x hx => (Mesh.agreed_of_receive hx).isFinite hthreshold⟩
    obtain ⟨x, hx, hagreed⟩ := hd.honest e he hkind
    exact ⟨x, hx, hagreed.isFinite hthreshold⟩

/-- Three readings that differ and pass, and a triangle whose first node has accepted a message. -/
theorem finite_votes_triangle :
    ((⟨1, 2, 3⟩ : Triad Binary64).evaluate 1).Finite ∧
      ∃ e ∈ ((ofMesh Sample.mesh).run (Sample.triangle ++ [.receive "a" (Sample.message 1)])).mesh.events,
        e.kind = .accepted ∧ ∃ x, e.value = some x ∧ x.isFinite = true := by
  obtain ⟨hrounds, hruns⟩ := finite_votes
  refine ⟨((hrounds ⟨1, 2, 3⟩ 1 (by decide +kernel)).1 (by decide +kernel)).1, ?_⟩
  have haccepted : (⟨"a", .accepted, some 1⟩ : Event) ∈
      ((ofMesh Sample.mesh).run (Sample.triangle ++ [.receive "a" (Sample.message 1)])).mesh.events := by
    decide +kernel
  obtain ⟨hevents, -⟩ := hruns _ ((Reachable.start Sample.start_mesh).run _)
  exact ⟨_, haccepted, rfl, hevents _ haccepted rfl⟩

end Deployment

end TriadMesh
