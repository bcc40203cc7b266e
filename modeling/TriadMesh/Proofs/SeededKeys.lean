import TriadMesh.Proofs.Identity
import TriadMesh.Proofs.Routing

/-!
# Identities from a shared seed

The material of a node's key is the seed, with its length in front, and then the node's id. The length tells where
the seed ends, so the material tells seed and id apart even where one seed begins with another and the id goes on as
the longer seed does. What a key derivation that is injective on such material makes of it are different identities.
-/

namespace TriadMesh

variable {s : Suite} {seed seed' : Bytes} {node node' : NodeId}

theorem seedMaterial_eq_iff (hseed : seed.length < 2 ^ 64) (hseed' : seed'.length < 2 ^ 64) (node node' : NodeId) :
    seedMaterial seed node = seedMaterial seed' node' ↔ seed = seed' ∧ node = node' := by
  constructor
  · intro h
    obtain ⟨hseeds, htexts⟩ := Bytes.prefixed_append_inj hseed hseed' h
    exact ⟨hseeds, Bytes.ofText_injective htexts⟩
  · rintro ⟨rfl, rfl⟩
    rfl

namespace KeySource

theorem keys_seeded (seed : Bytes) (hnode : node ≠ "") :
    (seeded seed node).keys s = .ok (.ofSecret s (s.deriveKey seededContext (seedMaterial seed node))) :=
  if_neg hnode

theorem keys_seeded_eq_error_iff {e : KeyError} :
    (seeded seed node).keys s = .error e ↔ node = "" ∧ e = .emptyNodeId := by
  by_cases hnode : node = ""
  · rw [keys, if_pos hnode, Except.error.injEq, eq_comm]
    exact (and_iff_right hnode).symm
  · rw [keys_seeded seed hnode]
    simp [hnode]

end KeySource

/-- Neither derivation confuses the secrets and public keys that come from two pieces of material. -/
structure Suite.Separates (s : Suite) (a b : Bytes) : Prop where
  secrets : Set.InjOn (s.deriveKey seededContext) {a, b}
  publicKeys : Set.InjOn s.publicKey {s.deriveKey seededContext a, s.deriveKey seededContext b}

theorem Suite.Separates.publicKey_eq_iff {a b : Bytes} (h : s.Separates a b) :
    s.publicKey (s.deriveKey seededContext a) = s.publicKey (s.deriveKey seededContext b) ↔ a = b := by
  rw [h.publicKeys.eq_iff (Set.mem_insert _ _) (Set.mem_insert_of_mem _ rfl),
    h.secrets.eq_iff (Set.mem_insert _ _) (Set.mem_insert_of_mem _ rfl)]

/-- The material is the same exactly for the same seed and id. So where neither derivation confuses it, two nodes show
the same public key, or have the same key pair, only if they agree in seed and id. Every seed gives a key pair to
every id except the empty one. -/
theorem seeded_identities (hseed : seed.length < 2 ^ 64) (hseed' : seed'.length < 2 ^ 64) (hnode : node ≠ "")
    (hnode' : node' ≠ "") :
    (seedMaterial seed node = seedMaterial seed' node' ↔ seed = seed' ∧ node = node') ∧
      (∀ s : Suite, s.Separates (seedMaterial seed node) (seedMaterial seed' node') →
        ∃ k k', (KeySource.seeded seed node).keys s = .ok k ∧ (KeySource.seeded seed' node').keys s = .ok k' ∧
          (k.publicKey = k'.publicKey ↔ seed = seed' ∧ node = node') ∧ (k = k' ↔ seed = seed' ∧ node = node')) ∧
      ∀ (s : Suite) (seed : Bytes) (node : NodeId) (e : KeyError),
        (KeySource.seeded seed node).keys s = .error e ↔ node = "" ∧ e = .emptyNodeId := by
  have hmaterial := seedMaterial_eq_iff hseed hseed' node node'
  refine ⟨hmaterial, fun s hs => ?_, fun s seed node e => KeySource.keys_seeded_eq_error_iff⟩
  have hpublic := hs.publicKey_eq_iff.trans hmaterial
  refine ⟨_, _, KeySource.keys_seeded seed hnode, KeySource.keys_seeded seed' hnode', hpublic, ?_, ?_⟩
  · intro hpair
    exact hpublic.1 (congrArg KeyPair.publicKey hpair)
  · rintro ⟨rfl, rfl⟩
    rfl

set_option maxRecDepth 100000 in
/-- One seed begins with the other, and seed and id together are the same bytes. -/
theorem seeded_identities_run_on :
    Suite.standard.Separates (seedMaterial [97] "bc") (seedMaterial [97, 98] "c") ∧
      seedMaterial [97] "bc" ≠ seedMaterial [97, 98] "c" ∧
      ∃ k k', (KeySource.seeded [97] "bc").keys .standard = .ok k ∧
        (KeySource.seeded [97, 98] "c").keys .standard = .ok k' ∧ k.publicKey ≠ k'.publicKey := by
  have hpublic : Suite.standard.publicKey (Suite.standard.deriveKey seededContext (seedMaterial [97] "bc")) ≠
      Suite.standard.publicKey (Suite.standard.deriveKey seededContext (seedMaterial [97, 98] "c")) := by
    decide +kernel
  have hseparates : Suite.standard.Separates (seedMaterial [97] "bc") (seedMaterial [97, 98] "c") := by
    constructor
    · exact Set.injOn_pair.2 fun h => absurd (congrArg _ h) hpublic
    · exact Set.injOn_pair.2 fun h => absurd h hpublic
  have hseed : ([97] : Bytes).length < 2 ^ 64 := by decide
  have hseed' : ([97, 98] : Bytes).length < 2 ^ 64 := by decide
  obtain ⟨hmaterial, hkeys, -⟩ := seeded_identities hseed hseed' (show "bc" ≠ "" by decide) (show "c" ≠ "" by decide)
  obtain ⟨k, k', hk, hk', hsame, -⟩ := hkeys .standard hseparates
  have hnodes : "bc" ≠ "c" := by decide
  exact ⟨hseparates, fun h => hnodes (hmaterial.1 h).2, k, k', hk, hk', fun h => hnodes (hsame.1 h).2⟩

end TriadMesh
