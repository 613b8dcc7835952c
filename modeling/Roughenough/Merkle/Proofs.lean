/-
# `Roughenough.Merkle.Proofs` — Merkle proofs are sound and complete

Two statements about the tree as the server and the client use it.

    getPaths_complete      whatever a tree has been used for before it was
                           cleared, the paths it hands out lead to the root
                           that a fresh tree computes
    rootFromPaths_sound    a path that leads to the root is the path of a leaf,
                           or the hash has been broken on the inputs at hand

The hash is an arbitrary function.  "Broken" is said about the inputs that
were really hashed: `computeRootInputs` and `rootFromPathsInputs` list them.
-/
import Roughenough.Merkle.Tree

namespace Roughenough.Merkle

open Roughenough.Base Roughenough.Base.PaddedTree Roughenough.Protocol

namespace MerkleTree

variable {H : Bytes → Hash} {leaves : List Bytes}

/-! ## Soundness -/

/-- What the loop of `compute_root` hashes, from the level `cur` up. -/
def levelInputs (H : Bytes → Hash) : Nat → List Hash → List Bytes
  | fuel + 1, a :: b :: l =>
      pairInputs (padded (a :: b :: l)) ++
        levelInputs H fuel ((pairInputs (padded (a :: b :: l))).map H)
  | _, _ => []

/-- All that is hashed when `data` is pushed into `t` and the root is computed. -/
def computeRootInputs (H : Bytes → Hash) (t : MerkleTree) (data : List Bytes) : List Bytes :=
  data.map leafInput ++
    levelInputs H (t.pushLeaves H data).leaves.length (t.pushLeaves H data).leaves

/-- Every pair of the padded tree is hashed. -/
theorem mem_levelInputs (d k fuel : Nat) (hmany : ∀ j < d, 1 < count leaves.length (k + j))
    (hfuel : count leaves.length k ≤ fuel) (j : Nat) (hj : j < d) (u : Bytes)
    (hu : u ∈ (scheme H).inputs leaves (k + j + 1)) :
    u ∈ levelInputs H fuel ((scheme H).level leaves k (count leaves.length k)) := by
  induction d generalizing k fuel j with
  | zero => exact absurd hj (Nat.not_lt_zero j)
  | succ d ih =>
      have hk : 1 < count leaves.length k := hmany 0 (Nat.succ_pos d)
      have hcount : count leaves.length (k + 1) = (count leaves.length k + 1) / 2 := rfl
      have hpad : padded ((scheme H).level leaves k (count leaves.length k)) =
          fullLevel H leaves k := padded_level (.inl rfl)
      have hlen : ((scheme H).level leaves k (count leaves.length k)).length =
          count leaves.length k := Scheme.level_length k _
      match hlevel : (scheme H).level leaves k (count leaves.length k), fuel with
      | [], _ => rw [hlevel] at hlen; simp only [List.length_nil] at hlen; omega
      | [_], _ => rw [hlevel] at hlen; simp only [List.length_singleton] at hlen; omega
      | a :: b :: l, 0 => omega
      | a :: b :: l, fuel + 1 =>
          rw [hlevel] at hpad
          rw [levelInputs, hpad, hash_fullLevel, pairInputs_fullLevel]
          cases j with
          | zero => exact List.mem_append_left _ hu
          | succ j =>
              have hmany' : ∀ i < d, 1 < count leaves.length (k + 1 + i) := by
                intro i hi
                have := hmany (i + 1) (Nat.succ_lt_succ hi)
                rwa [Nat.add_assoc, Nat.add_comm 1 i]
              have hu' : u ∈ (scheme H).inputs leaves (k + 1 + j + 1) := by
                rwa [Nat.add_assoc k 1 j, Nat.add_comm 1 j]
              exact List.mem_append_right _
                (ih (k + 1) fuel hmany' (by omega) j (Nat.lt_of_succ_lt_succ hj) hu')

theorem inputs_subset {t : MerkleTree} (ht : t.leaves = []) (j : Nat)
    (hj : j ≤ Nat.clog 2 leaves.length) (u : Bytes) (hu : u ∈ (scheme H).inputs leaves j) :
    u ∈ computeRootInputs H t leaves := by
  have hleaves : (t.pushLeaves H leaves).leaves = (scheme H).level leaves 0 leaves.length := by
    rw [pushLeaves_leaves, ht, level_zero]
    rfl
  unfold computeRootInputs
  cases j with
  | zero => exact List.mem_append_left _ hu
  | succ j =>
      refine List.mem_append_right _ ?_
      rw [hleaves, Scheme.level_length]
      refine mem_levelInputs (Nat.clog 2 leaves.length) 0 _ ?_ (Nat.le_refl _) j hj u ?_
      · intro i hi
        rw [Nat.zero_add]
        exact one_lt_count hi
      · rwa [Nat.zero_add]

/-- The inputs of the two computations together. -/
def hashedInputs (H : Bytes → Hash) (t : MerkleTree) (leaves : List Bytes) (index : Nat)
    (initData : Bytes) (path : MerklePath) : List Bytes :=
  computeRootInputs H t leaves ++ rootFromPathsInputs H index initData path

/-- The hash is broken on these inputs: two of them collide, or one hashes to the padding
value. -/
def Broken (H : Bytes → Hash) (inputs : List Bytes) : Prop :=
  (∃ u ∈ inputs, ∃ v ∈ inputs, u ≠ v ∧ H u = H v) ∨ ∃ u ∈ inputs, H u = Octets.zero 32

/-- A path that leads to the root of an empty tree with these leaves pushed. -/
theorem leaf_of_root {t : MerkleTree} (hempty : t.leaves = []) (hn : 1 ≤ leaves.length)
    {index : Nat} {initData : Bytes} {path : MerklePath}
    (hroot : rootFromPaths H index initData path = (scheme H).root leaves) :
    Broken H (hashedInputs H t leaves index initData path) ∨
      (path.depth = Nat.clog 2 leaves.length ∧
        leaves[index % 2 ^ path.depth]? = some initData) := by
  by_cases hbroken : Broken H (hashedInputs H t leaves index initData path)
  · exact .inl hbroken
  -- it is not: the hash is faithful on all inputs, and the abstract tree is sound
  have hfaithful : (scheme H).Faithful (· ∈ hashedInputs H t leaves index initData path) := by
    refine ⟨fun {u v} hu hv huv => ?_, fun {u} hu huz => hbroken (.inr ⟨u, hu, huz⟩)⟩
    by_contra hdiff
    exact hbroken (.inl ⟨u, hu, v, hv, hdiff, huv⟩)
  rw [rootFromPaths, followPath_eq] at hroot
  have hsound := Scheme.climb_sound (scheme_separated H) hfaithful hn
    (List.mem_append_right _ List.mem_cons_self)
    (fun u hu => List.mem_append_right _ (List.mem_cons_of_mem _ (by rwa [followInputs_eq])))
    (fun j hj u hu => List.mem_append_left _ (inputs_subset hempty j hj u hu)) hroot
  rw [MerklePath.elements_length] at hsound
  exact .inr hsound

/-- Soundness: on an empty tree `compute_root` answers, and a path of any depth that leads to
its answer is the path of the leaf at `index % 2^depth` — unless two of the hashed inputs
collide or one of them hashes to the padding value. -/
theorem rootFromPaths_sound (H : Bytes → Hash) (t : MerkleTree) (ht : t.isEmpty = true)
    (leaves : List Bytes) (hne : leaves ≠ []) :
    ∃ root t', (computeRoot H (t.pushLeaves H leaves) : Outcome Empty (Hash × MerkleTree)) =
        .ok (root, t') ∧
      ∀ (index : Nat) (initData : Bytes) (path : MerklePath),
        rootFromPaths H index initData path = root →
          (∃ u ∈ hashedInputs H t leaves index initData path,
            ∃ v ∈ hashedInputs H t leaves index initData path, u ≠ v ∧ H u = H v) ∨
          (∃ u ∈ hashedInputs H t leaves index initData path, H u = Octets.zero 32) ∨
          (path.depth = Nat.clog 2 leaves.length ∧
            leaves[index % 2 ^ path.depth]? = some initData) := by
  have hempty : t.leaves = [] := List.isEmpty_iff.mp ht
  have hn : 1 ≤ leaves.length := List.length_pos_of_ne_nil hne
  obtain ⟨t', hrun, -⟩ := computeRoot_ok (ε := Empty) hn (holds_pushLeaves hempty leaves)
  refine ⟨_, t', hrun, ?_⟩
  intro index initData path hroot
  rcases leaf_of_root hempty hn hroot with (hcoll | hzero) | hleaf
  · exact .inl hcoll
  · exact .inr (.inl hzero)
  · exact .inr (.inr hleaf)

theorem rootFromPaths_sound_two_leaves :
    ∃ root t', (computeRoot (fun bs => Octets.fill 32 (UInt8.ofNat bs.length))
      (new.pushLeaves (fun bs => Octets.fill 32 (UInt8.ofNat bs.length)) [[1], [2, 3]]) :
        Outcome Empty (Hash × MerkleTree)) = .ok (root, t') := by
  obtain ⟨root, t', h, -⟩ := rootFromPaths_sound
    (fun bs => Octets.fill 32 (UInt8.ofNat bs.length)) new rfl [[1], [2, 3]] (by decide)
  exact ⟨root, t', h⟩

/-! ## Completeness -/

/-- The public operations of the tree. -/
inductive TreeOp where
  | reserve (numLeaves : Nat)
  | pushLeaf (data : Bytes)
  | computeRoot
  | getPaths (index : Nat)
  | clear

def TreeOp.apply (H : Bytes → Hash) (debug : Bool) (t : MerkleTree) :
    TreeOp → Outcome Empty MerkleTree
  | .reserve numLeaves => pure (t.reserve numLeaves)
  | .pushLeaf data => pure (t.pushLeaf H data)
  | .computeRoot => do
      let r ← MerkleTree.computeRoot H t
      pure r.2
  | .getPaths index => do
      let _ ← MerkleTree.getPaths (ε := Empty) debug t index
      pure t
  | .clear => pure t.clear

/-- A history of operations, first to last. -/
def runOps (H : Bytes → Hash) (debug : Bool) : List TreeOp → MerkleTree → Outcome Empty MerkleTree
  | [], t => pure t
  | op :: ops, t => do
      let t ← op.apply H debug t
      runOps H debug ops t

/-- `k` calls of `compute_root`, with their answers. -/
def computeRoots (H : Bytes → Hash) : Nat → MerkleTree → Outcome Empty (List Hash × MerkleTree)
  | 0, t => pure ([], t)
  | k + 1, t => do
      let (root, t) ← computeRoot H t
      let (roots, t) ← computeRoots H k t
      pure (root :: roots, t)

/-- A history that ends in `clear` leaves a tree without leaves. -/
theorem runOps_clear {debug : Bool} {ops : List TreeOp} {t t' : MerkleTree}
    (hend : ops.getLast? = some .clear) (hrun : runOps H debug ops t = .ok t') :
    t'.leaves = [] := by
  induction ops generalizing t with
  | nil => simp at hend
  | cons op ops ih =>
      rw [runOps, Outcome.bind_ok_iff] at hrun
      obtain ⟨t₁, hop, hrun⟩ := hrun
      cases ops with
      | nil =>
          rw [List.getLast?_singleton, Option.some.injEq] at hend
          subst hend
          cases hop
          cases hrun
          rfl
      | cons op' ops =>
          rw [List.getLast?_cons_cons] at hend
          exact ih hend hrun

/-- Every further call of `compute_root` gives the same root and the same lower levels. -/
theorem computeRoots_ok (hn : 1 ≤ leaves.length) (k : Nat) {t : MerkleTree}
    (ht : t.Holds H leaves) :
    ∃ t' stale, computeRoots H (k + 1) t =
        .ok (List.replicate (k + 1) ((scheme H).root leaves), t') ∧
      t'.Computed H leaves stale := by
  obtain ⟨t₁, hrun₁, hcomp₁⟩ := computeRoot_ok (ε := Empty) hn ht
  induction k generalizing t t₁ with
  | zero =>
      refine ⟨t₁, _, ?_, hcomp₁⟩
      rw [computeRoots, hrun₁]
      rfl
  | succ k ih =>
      obtain ⟨t₂, hrun₂, hcomp₂⟩ := computeRoot_ok (ε := Empty) hn (hcomp₁.holds hn)
      obtain ⟨t', stale, hrun, hcomp⟩ := ih (hcomp₁.holds hn) t₂ hrun₂ hcomp₂
      refine ⟨t', stale, ?_, hcomp⟩
      rw [computeRoots, hrun₁]
      show (computeRoots H (k + 1) t₁ >>= fun r => _) = _
      rw [hrun]
      rfl

/-- Completeness: after any history that ends in `clear` the tree is as good as new.  Every
call of `compute_root` returns the root of a fresh tree, and every leaf gets a path of depth
`⌈log₂ n⌉` that leads to it. -/
theorem getPaths_complete (H : Bytes → Hash) (debug : Bool) (history : List TreeOp)
    (t : MerkleTree) (hend : history = [] ∨ history.getLast? = some .clear)
    (hrun : runOps H debug history new = .ok t) (leaves : List Bytes)
    (hn : 1 ≤ leaves.length) (hmax : leaves.length ≤ 2 ^ 32) (k : Nat) (hk : 1 ≤ k) :
    ∃ root fresh t',
      computeRoot H (new.pushLeaves H leaves) = (.ok (root, fresh) : Outcome Empty _) ∧
      computeRoots H k (t.pushLeaves H leaves) = .ok (List.replicate k root, t') ∧
      ∀ (i : Nat) (leaf : Bytes), leaves[i]? = some leaf →
        ∃ path, getPaths debug t' i = (.ok path : Outcome Empty _) ∧
          path.depth = Nat.clog 2 leaves.length ∧ rootFromPaths H i leaf path = root := by
  have hempty : t.leaves = [] := by
    rcases hend with rfl | hend
    · cases hrun
      rfl
    · exact runOps_clear hend hrun
  obtain ⟨fresh, hfresh, -⟩ := computeRoot_ok (ε := Empty) hn (holds_pushLeaves (t := new) rfl leaves)
  obtain ⟨k, rfl⟩ : ∃ j, k = j + 1 := ⟨k - 1, by omega⟩
  obtain ⟨t', stale, hroots, hcomp⟩ := computeRoots_ok hn k (holds_pushLeaves hempty leaves)
  refine ⟨_, fresh, t', hfresh, hroots, ?_⟩
  intro i leaf hleaf
  have hi : i < leaves.length := (List.getElem?_eq_some_iff.mp hleaf).1
  have hfresh : MerklePath.default.numPaths = 0 := rfl
  obtain ⟨path, hpath, hnum, helem⟩ := getPathsTo_ok (ε := Empty) debug hfresh hcomp hi hmax
  exact ⟨path, hpath, hnum, rootFromPaths_proof hleaf helem⟩

/-- After a batch of one and a `clear`, three leaves, their root computed twice. -/
theorem getPaths_complete_reused :
    ∃ root t', computeRoots (fun bs => Octets.fill 32 (UInt8.ofNat bs.length)) 2
      ((new.pushLeaf (fun bs => Octets.fill 32 (UInt8.ofNat bs.length)) [9]).clear.pushLeaves
        (fun bs => Octets.fill 32 (UInt8.ofNat bs.length)) [[1], [2, 3], [4]]) =
          .ok ([root, root], t') := by
  obtain ⟨root, _, t', -, h, -⟩ := getPaths_complete
    (fun bs => Octets.fill 32 (UInt8.ofNat bs.length)) true [.pushLeaf [9], .clear] _
    (.inr rfl) rfl [[1], [2, 3], [4]] (by decide) (by decide) 2 (by decide)
  exact ⟨root, t', h⟩

end MerkleTree

end Roughenough.Merkle
