import Mathlib.Data.Nat.Bitwise
import TriadMesh.Proofs.Independence
import TriadMesh.Routing

/-!
# The nearest neighbor

The distance of two points is a number of 256 bits, and digests are in the same order as byte strings and as numbers.
Candidates are ordered by their distance and then by their ids, so no two different ones are alike, and the one that
comes first is the same however they are listed.
-/

namespace TriadMesh

/-! ## Bytes as numbers -/

namespace Bytes

variable {xs ys : Bytes}

theorem ofLittleEndian_append (xs ys : Bytes) :
    ofLittleEndian (xs ++ ys) = ofLittleEndian xs + 256 ^ xs.length * ofLittleEndian ys := by
  induction xs with
  | nil => simp [ofLittleEndian]
  | cons x xs ih =>
    rw [List.cons_append, ofLittleEndian_cons, ih, ofLittleEndian_cons, List.length_cons, Nat.pow_succ', Nat.mul_add,
      Nat.add_assoc, Nat.mul_assoc]

theorem ofBigEndian_cons (x : UInt8) (xs : Bytes) :
    ofBigEndian (x :: xs) = 256 ^ xs.length * x.toNat + ofBigEndian xs := by
  rw [ofBigEndian, List.reverse_cons, ofLittleEndian_append, List.length_reverse, Nat.add_comm]
  rfl

theorem ofBigEndian_lt (xs : Bytes) : ofBigEndian xs < 256 ^ xs.length := by
  induction xs with
  | nil => exact Nat.one_pos
  | cons x xs ih =>
    have hx := x.toNat_lt
    rw [ofBigEndian_cons, List.length_cons, Nat.pow_succ]
    have hfit : 256 ^ xs.length * x.toNat + 256 ^ xs.length ≤ 256 ^ xs.length * 256 := by
      rw [← Nat.mul_succ]
      exact Nat.mul_le_mul_left _ hx
    omega

theorem lt_iff_of_digits {p a b m n : Nat} (ha : a < p) (hb : b < p) :
    p * m + a < p * n + b ↔ m < n ∨ m = n ∧ a < b := by
  have hstep : ∀ {m n a b : Nat}, a < p → m < n → p * m + a < p * n + b := by
    intro m n a b ha hlt
    have hnext : p * (m + 1) ≤ p * n := Nat.mul_le_mul_left p hlt
    rw [Nat.mul_succ] at hnext
    omega
  rcases Nat.lt_trichotomy m n with hlt | rfl | hgt
  · exact iff_of_true (hstep ha hlt) (.inl hlt)
  · omega
  · have hless : p * n + b < p * m + a := hstep hb hgt
    omega

theorem lt_iff_ofBigEndian_lt (hlen : xs.length = ys.length) : xs < ys ↔ ofBigEndian xs < ofBigEndian ys := by
  induction xs generalizing ys with
  | nil =>
    cases ys with
    | nil => simp
    | cons y ys => simp at hlen
  | cons x xs ih =>
    cases ys with
    | nil => simp at hlen
    | cons y ys =>
      have hlen' : xs.length = ys.length := by simpa using hlen
      have hxs : ofBigEndian xs < 256 ^ ys.length := hlen' ▸ ofBigEndian_lt xs
      rw [List.cons_lt_cons_iff, ofBigEndian_cons, ofBigEndian_cons, hlen', lt_iff_of_digits hxs (ofBigEndian_lt ys),
        ih hlen', UInt8.lt_iff_toNat_lt, ← UInt8.toNat_inj]

theorem xor_digit {b c : Nat} (m n : Nat) (hb : b < 256) (hc : c < 256) :
    (b + 256 * m) ^^^ (c + 256 * n) = (b ^^^ c) + 256 * (m ^^^ n) := by
  have hdiv : ((b + 256 * m) ^^^ (c + 256 * n)) / 2 ^ 8 = m ^^^ n := by
    rw [Nat.xor_div_two_pow]
    congr 1 <;> omega
  have hmod : ((b + 256 * m) ^^^ (c + 256 * n)) % 2 ^ 8 = b ^^^ c := by
    rw [Nat.xor_mod_two_pow]
    congr 1 <;> omega
  omega

theorem ofLittleEndian_zipWith_xor (hlen : xs.length = ys.length) :
    ofLittleEndian (List.zipWith (· ^^^ ·) xs ys) = ofLittleEndian xs ^^^ ofLittleEndian ys := by
  induction xs generalizing ys with
  | nil =>
    cases ys with
    | nil => rfl
    | cons y ys => simp at hlen
  | cons x xs ih =>
    cases ys with
    | nil => simp at hlen
    | cons y ys =>
      rw [List.zipWith_cons_cons, ofLittleEndian_cons, ih (by simpa using hlen), UInt8.toNat_xor, ofLittleEndian_cons,
        ofLittleEndian_cons, xor_digit _ _ x.toNat_lt y.toNat_lt]

theorem toList_loop (b : ByteArray) (i : Nat) (acc : Bytes) :
    ByteArray.toList.loop b i acc = acc.reverse ++ b.data.toList.drop i := by
  induction i, acc using ByteArray.toList.loop.induct b with
  | case1 i acc hlt ih =>
    have hdrop : b.data.toList.drop i = b.data[i] :: b.data.toList.drop (i + 1) :=
      List.drop_eq_getElem_cons (by simpa using hlt)
    rw [ByteArray.toList.loop, if_pos hlt, ih, hdrop]
    simp [ByteArray.get!, hlt]
  | case2 i acc hge =>
    have hdrop : b.data.toList.drop i = [] := List.drop_of_length_le (by simpa using hge)
    rw [ByteArray.toList.loop, if_neg hge, hdrop, List.append_nil]

theorem ofText_injective {a b : String} (h : ofText a = ofText b) : a = b := by
  rw [ofText, ofText, ByteArray.toList, ByteArray.toList, toList_loop, toList_loop] at h
  exact String.toByteArray_inj.1 (ByteArray.ext (Array.toList_inj.1 h))

end Bytes

namespace Digest

theorem lt_iff_toNat_lt (a b : Digest) : a.toList < b.toList ↔ a.toNat < b.toNat :=
  Bytes.lt_iff_ofBigEndian_lt (by simp)

theorem toList_xor (a b : Digest) : (a.xor b).toList = List.zipWith (· ^^^ ·) a.toList b.toList := by
  apply List.ext_getElem
  · simp
  · intro i hi hi'
    simp [xor, toList]

theorem toNat_xor (a b : Digest) : (a.xor b).toNat = a.toNat ^^^ b.toNat := by
  rw [toNat, toList_xor, Bytes.ofBigEndian, List.reverse_zipWith (by simp), Bytes.ofLittleEndian_zipWith_xor (by simp)]
  rfl

end Digest

namespace Routing

variable {s : Suite} {target : Digest} {a b c : NodeId} {l l' : List NodeId}

/-! ## The order of candidates -/

theorem distance_eq (s : Suite) (target : Digest) (a : NodeId) :
    distance s target a = (position s a).toNat ^^^ target.toNat :=
  Digest.toNat_xor _ _

theorem distance_eq_zero_iff : distance s target a = 0 ↔ position s a = target := by
  rw [distance_eq, Nat.xor_eq_zero_iff]
  exact ⟨Digest.toNat_injective, congrArg Digest.toNat⟩

/-- A candidate is nearer than another, or as near with an id that is not greater, byte by byte. -/
def NoFarther (s : Suite) (target : Digest) (a b : NodeId) : Prop :=
  distance s target a < distance s target b ∨
    distance s target a = distance s target b ∧ Bytes.ofText a ≤ Bytes.ofText b

theorem before_eq_true_iff : before s target a b = true ↔ ¬NoFarther s target b a := by
  rw [before, NoFarther, Bool.or_eq_true, Bool.and_eq_true, decide_eq_true_iff, decide_eq_true_iff, decide_eq_true_iff,
    ← List.not_le]
  generalize distance s target a = m
  generalize distance s target b = n
  by_cases hle : Bytes.ofText b ≤ Bytes.ofText a
  · simp only [hle, not_true_eq_false, and_false, or_false, and_true]
    omega
  · simp only [hle, not_false_eq_true, and_true, and_false, or_false]
    omega

theorem NoFarther.refl (a : NodeId) : NoFarther s target a a := .inr ⟨rfl, List.le_refl _⟩

theorem NoFarther.trans (h : NoFarther s target a b) (h' : NoFarther s target b c) : NoFarther s target a c := by
  rcases h with hlt | ⟨heq, hle⟩
  · rcases h' with hlt' | ⟨heq', -⟩
    · exact .inl (Nat.lt_trans hlt hlt')
    · exact .inl (Nat.lt_of_lt_of_eq hlt heq')
  · rcases h' with hlt' | ⟨heq', hle'⟩
    · exact .inl (Nat.lt_of_le_of_lt (Nat.le_of_eq heq) hlt')
    · exact .inr ⟨heq.trans heq', List.le_trans hle hle'⟩

theorem NoFarther.total (a b : NodeId) : NoFarther s target a b ∨ NoFarther s target b a := by
  rcases Nat.lt_trichotomy (distance s target a) (distance s target b) with hlt | heq | hgt
  · exact .inl (.inl hlt)
  · rcases List.le_total (Bytes.ofText a) (Bytes.ofText b) with hle | hle
    · exact .inl (.inr ⟨heq, hle⟩)
    · exact .inr (.inr ⟨heq.symm, hle⟩)
  · exact .inr (.inl hgt)

theorem NoFarther.antisymm (h : NoFarther s target a b) (h' : NoFarther s target b a) : a = b := by
  rcases h with hlt | ⟨heq, hle⟩
  · rcases h' with hlt' | ⟨heq', -⟩
    · exact absurd hlt' (Nat.lt_asymm hlt)
    · exact absurd heq' (Nat.ne_of_gt hlt)
  · rcases h' with hlt' | ⟨-, hle'⟩
    · exact absurd heq (Nat.ne_of_gt hlt')
    · exact Bytes.ofText_injective (List.le_antisymm hle hle')

/-! ## The first candidate -/

theorem closest_eq_none_iff : closest s target l = none ↔ l = [] := by
  cases l with
  | nil => exact iff_of_true rfl rfl
  | cons a rest =>
    refine iff_of_false ?_ (List.cons_ne_nil a rest)
    rw [closest]
    split
    · simp
    · split <;> simp

theorem closest_nearest (h : closest s target l = some c) : c ∈ l ∧ ∀ x ∈ l, NoFarther s target c x := by
  -- The list is searched from its end: the first candidate is compared with the nearest of the others.
  induction l generalizing c with
  | nil => cases h
  | cons a rest ih =>
    rw [closest] at h
    cases hrest : closest s target rest with
    | none =>
      rw [closest_eq_none_iff.1 hrest] at h ⊢
      cases h
      simp [NoFarther.refl]
    | some b =>
      obtain ⟨hmem, hmin⟩ := ih hrest
      rw [hrest] at h
      dsimp only at h
      by_cases hbefore : before s target b a = true
      · have hcb : c = b := by rw [if_pos hbefore, Option.some.injEq] at h; exact h.symm
        have hba : NoFarther s target b a := (NoFarther.total b a).resolve_right (before_eq_true_iff.1 hbefore)
        rw [hcb]
        exact ⟨List.mem_cons_of_mem a hmem, List.forall_mem_cons.2 ⟨hba, hmin⟩⟩
      · have hca : c = a := by rw [if_neg hbefore, Option.some.injEq] at h; exact h.symm
        have hab : NoFarther s target a b := by
          rw [before_eq_true_iff, not_not] at hbefore
          exact hbefore
        rw [hca]
        exact ⟨List.mem_cons_self, List.forall_mem_cons.2 ⟨NoFarther.refl a, fun x hx => hab.trans (hmin x hx)⟩⟩

theorem closest_eq_some_iff : closest s target l = some c ↔ c ∈ l ∧ ∀ x ∈ l, NoFarther s target c x := by
  -- Two nearest candidates are no farther than each other, so they are one.
  refine ⟨closest_nearest, ?_⟩
  rintro ⟨hmem, hmin⟩
  cases hclosest : closest s target l with
  | none =>
    rw [closest_eq_none_iff.1 hclosest] at hmem
    cases hmem
  | some b =>
    obtain ⟨hb, hbmin⟩ := closest_nearest hclosest
    rw [(hbmin c hmem).antisymm (hmin b hb)]

theorem closest_congr (h : ∀ x, x ∈ l' ↔ x ∈ l) : closest s target l' = closest s target l := by
  apply Option.ext
  intro c
  simp only [closest_eq_some_iff, h]

/-- A candidate that lies at the target is chosen, if no other one does. -/
theorem closest_of_position (hmem : c ∈ l) (hposition : position s c = target)
    (hother : ∀ x ∈ l, position s x = position s c → x = c) : closest s target l = some c := by
  refine closest_eq_some_iff.2 ⟨hmem, fun x hx => ?_⟩
  have hzero : distance s target c = 0 := distance_eq_zero_iff.2 hposition
  by_cases hxc : x = c
  · exact hxc ▸ NoFarther.refl x
  · have hne : distance s target x ≠ 0 := by
      rw [Ne, distance_eq_zero_iff, ← hposition]
      exact fun h => hxc (hother x hx h)
    exact .inl (by omega)

/-- What is selected from a list of candidates. -/
structure Selects (s : Suite) (target : Digest) (l : List NodeId) : Prop where
  nobody : closest s target l = none ↔ l = []
  nearest : ∀ c, closest s target l = some c ↔ c ∈ l ∧ ∀ x ∈ l, NoFarther s target c x
  /-- Neither the order of the candidates counts nor how often they are listed. -/
  unordered : ∀ l', (∀ x, x ∈ l' ↔ x ∈ l) → closest s target l' = closest s target l
  targeted : ∀ c ∈ l, position s c = target → (∀ x ∈ l, position s x = position s c → x = c) →
    closest s target l = some c

theorem selects (s : Suite) (target : Digest) (l : List NodeId) : Selects s target l where
  nobody := closest_eq_none_iff
  nearest _ := closest_eq_some_iff
  unordered _ := closest_congr
  targeted _ := closest_of_position

end Routing

namespace Deployment

variable {d : Deployment} {i c : NodeId} {n : Node}

theorem Reachable.neighbor (h : Reachable d) (hn : d.node? i = some n) (hc : c ∈ n.neighbors) :
    c ≠ i ∧ (d.node? c).isSome = true := by
  obtain ⟨entries, hr⟩ := h.reflects
  have hl := hr.lined n (Registry.mem_nodes_of_find? hn)
  constructor
  · rintro rfl
    exact hl.other (Registry.id_of_find? hn ▸ hc)
  · exact Registry.find?_isSome_iff.2 ((hl.joined c).1 hc).1

/-- To whom a node routes: to the nearest one of its neighbors, if it has any. -/
structure Routes (d : Deployment) : Prop where
  registered : ∀ i n target, d.node? i = some n →
    ∃ r, d.mesh.route i target = .ok r ∧ (r = none ↔ n.neighbors = []) ∧ ∀ c, r = some c →
      c ∈ n.neighbors ∧ (∀ x ∈ n.neighbors, Routing.NoFarther d.mesh.suite target c x) ∧ c ≠ i ∧
        (d.node? c).isSome = true
  unknown : ∀ i target, d.node? i = none → d.mesh.route i target = .error (.nodeNotFound i)

theorem Reachable.routes (h : Reachable d) : d.Routes where
  registered i n target hn := by
    refine ⟨Routing.closest d.mesh.suite target n.neighbors, ?_, Routing.closest_eq_none_iff, fun c hc => ?_⟩
    · rw [Mesh.route, Registry.get_eq_ok_iff.2 hn]
      rfl
    · obtain ⟨hmem, hmin⟩ := Routing.closest_nearest hc
      exact ⟨hmem, hmin, h.neighbor hn hmem⟩
  unknown i target hn := by
    rw [Mesh.route, Registry.get_of_find?_eq_none hn]
    rfl

/-- The nearest candidate is selected from every list, whatever the hash is: the one with the least distance, which is
the exclusive or of two numbers and compared like the bytes of one, and among several of those the one with the least
id. In every deployment that a mesh can come to, a node routes to the one of its neighbors that is selected, so to
another registered node. -/
theorem nearest_selected :
    (∀ s target l, Routing.Selects s target l) ∧
      (∀ s target a, Routing.distance s target a = (Routing.position s a).toNat ^^^ target.toNat) ∧
      (∀ a b : Digest, a.toList < b.toList ↔ a.toNat < b.toNat) ∧
      ∀ d, Reachable d → Routes d :=
  ⟨Routing.selects, Routing.distance_eq, Digest.lt_iff_toNat_lt, fun _ h => h.routes⟩

/-- In a triangle a node routes to one of the other two. -/
theorem nearest_selected_triangle :
    let d := (ofMesh Sample.mesh).run Sample.triangle
    ∃ c, d.mesh.route "a" default = .ok (some c) ∧ c ∈ ["b", "c"] := by
  intro d
  have hroutes : Routes d := nearest_selected.2.2.2 d ((Reachable.start Sample.start_mesh).run _)
  have hlist : (d.node? "a").map Node.neighbors = some ["b", "c"] := by decide +kernel
  obtain ⟨n, hn, hlist⟩ := Option.map_eq_some_iff.1 hlist
  obtain ⟨r, hr, hnone, hsome⟩ := hroutes.registered "a" n default hn
  cases r with
  | none => simp [hlist] at hnone
  | some c => exact ⟨c, hr, hlist ▸ (hsome c rfl).1⟩

end Deployment

end TriadMesh
