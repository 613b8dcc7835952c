/-
# `Roughenough.Merkle.Tree` — the Merkle tree of the server

`roughenough-merkle/src/lib.rs`.  The tree keeps one vector per level across
batches: `clear` empties the vectors and keeps them, `compute_root` pads the
levels in place and rebuilds the upper ones, and `get_paths_to` takes a
missing sibling for the sign that the root is reached.

The hash (the first 32 bytes of SHA-512) is an arbitrary function `H`.

`levels[0]` is `leaves` and `levels[1..]` is `upper`; the field `blank` says
that a tree without leaves has nothing above them either.  What `compute_root`
leaves behind is described by the padded tree of `Base.PaddedTree` over the
`scheme` below: see `computeRoot_ok`.
-/
import Mathlib.Algebra.Order.Ring.Nat
import Roughenough.Base.PaddedTree
import Roughenough.Protocol.Tags

namespace Roughenough.Merkle

open Roughenough.Base Roughenough.Base.PaddedTree Roughenough.Protocol

/-- `[u8; OUTPUT_LEN]`. -/
abbrev Hash := Octets 32

structure MerkleTree where
  leaves : List Hash
  upper : List (List Hash)
  blank : leaves = [] → ∀ l ∈ upper, l = []

def leafTweak : Bytes := [0x00]
def nodeTweak : Bytes := [0x01]

/-- What `hash_leaf` feeds to the hash. -/
def leafInput (leaf : Bytes) : Bytes := leafTweak ++ leaf

/-- What `hash_nodes` feeds to the hash. -/
def nodeInput (first second : Bytes) : Bytes := nodeTweak ++ (first ++ second)

namespace MerkleTree

variable (H : Bytes → Hash)

def hashLeaf (leaf : Bytes) : Hash := H (leafInput leaf)

/-- `MerkleTree::new`: one empty level. -/
def new : MerkleTree := ⟨[], [], fun _ _ hl => absurd hl List.not_mem_nil⟩

def levels (t : MerkleTree) : List (List Hash) := t.leaves :: t.upper

def isEmpty (t : MerkleTree) : Bool := t.leaves.isEmpty

def pushLeaf (t : MerkleTree) (data : Bytes) : MerkleTree where
  leaves := t.leaves ++ [hashLeaf H data]
  upper := t.upper
  blank h := absurd h (List.append_ne_nil_of_right_ne_nil _ (List.cons_ne_nil _ _))

/-- `max_levels` in `reserve`. -/
def maxLevels (numLeaves : Nat) : Nat :=
  if numLeaves = 2 ^ numLeaves.log2 then numLeaves.log2 + 1 else (numLeaves - 1).log2 + 2

/-- `reserve`: missing levels are added empty; capacity is not modelled. -/
def reserve (t : MerkleTree) (numLeaves : Nat) : MerkleTree :=
  if numLeaves = 0 then t
  else
    { leaves := t.leaves
      upper := t.upper ++ List.replicate (maxLevels numLeaves - t.levels.length) []
      blank := by
        intro h l hl
        rcases List.mem_append.mp hl with hl | hl
        · exact t.blank h l hl
        · exact List.eq_of_mem_replicate hl }

/-- `clear`: the levels stay, empty. -/
def clear (t : MerkleTree) : MerkleTree where
  leaves := []
  upper := t.upper.map fun _ => []
  blank := by
    intro _ l hl
    obtain ⟨_, -, rfl⟩ := List.mem_map.mp hl
    rfl

/-- A level of odd length gets a padding node. -/
def padded (l : List Hash) : List Hash := if l.length % 2 = 0 then l else l ++ [Octets.zero 32]

/-- What the inner loop of `compute_root` hashes, pair after pair. -/
def pairInputs : List Hash → List Bytes
  | a :: b :: l => nodeInput a.bytes b.bytes :: pairInputs l
  | _ => []

/-- The loop of `compute_root`, from the level `cur` with the levels `upper` above it: the
root, the level as the loop leaves it, and the levels above.  `node_count` is the length of
`cur`, which falls with every round, so it serves as the fuel. -/
def computeLevels {ε : Type} :
    Nat → List Hash → List (List Hash) → Outcome ε (Hash × List Hash × List (List Hash))
  | _, [], _ => .panic
  | _, [h], upper => .ok (h, [h], upper)
  | 0, _ :: _ :: _, _ => .panic
  | fuel + 1, a :: b :: l, upper => do
      let lower := padded (a :: b :: l)
      let (root, next, above) ← computeLevels fuel ((pairInputs lower).map H) upper.tail
      pure (root, lower, next :: above)

/-- `compute_root`: asserts that there is a leaf. -/
def computeRoot {ε : Type} (t : MerkleTree) : Outcome ε (Hash × MerkleTree) := do
  let (root, leaves, upper) ← computeLevels H t.leaves.length t.leaves t.upper
  if h : leaves = [] then .panic
  else pure (root, ⟨leaves, upper, fun h' => absurd h' h⟩)

/-- The loop of `get_paths_to`, over the levels from `level` on.  Running past the last
level is an index out of range. -/
def collectPath {ε : Type} : List (List Hash) → (index level : Nat) → MerklePath →
    Outcome ε MerklePath
  | [], _, _, _ => .panic
  | l :: later, index, level, path =>
      if l = [] then do
        Outcome.assert (level ≤ 32)
        pure path
      else
        match l[sibling index]? with
        | none => do
            Outcome.assert (level ≤ 32)
            pure path
        | some h => do
            let path ← path.pushElement h
            collectPath later (index / 2) (level + 1) path

/-- `get_paths_to`; the assertion on the path is a `debug_assert!`. -/
def getPathsTo {ε : Type} (debug : Bool) (t : MerkleTree) (index : Nat) (path : MerklePath) :
    Outcome ε MerklePath := do
  Outcome.assert (debug = true → path.isEmpty = true)
  collectPath t.levels index 0 path

def getPaths {ε : Type} (debug : Bool) (t : MerkleTree) (index : Nat) : Outcome ε MerklePath :=
  getPathsTo debug t index MerklePath.default

/-- One round of `root_from_paths`: what is hashed. -/
def stepInput (index : Nat) (hash path : Hash) : Bytes :=
  if index &&& 1 = 0 then nodeInput hash.bytes path.bytes else nodeInput path.bytes hash.bytes

/-- The loop of `root_from_paths`. -/
def followPath : Nat → Hash → List Hash → Hash
  | _, hash, [] => hash
  | index, hash, path :: later => followPath (index >>> 1) (H (stepInput index hash path)) later

def rootFromPaths (index : Nat) (initData : Bytes) (paths : MerklePath) : Hash :=
  followPath H index (hashLeaf H initData) paths.elements

/-- What the loop of `root_from_paths` hashes. -/
def followInputs : Nat → Hash → List Hash → List Bytes
  | _, _, [] => []
  | index, hash, path :: later =>
      stepInput index hash path :: followInputs (index >>> 1) (H (stepInput index hash path)) later

/-- All that `root_from_paths` hashes. -/
def rootFromPathsInputs (index : Nat) (initData : Bytes) (paths : MerklePath) : List Bytes :=
  leafInput initData :: followInputs H index (hashLeaf H initData) paths.elements

/-! ## The tree as a padded tree -/

def scheme : Scheme Hash Bytes Bytes where
  hash := H
  leafIn := leafInput
  nodeIn a b := nodeInput a.bytes b.bytes
  pad := Octets.zero 32

theorem scheme_separated : (scheme H).Separated where
  leaf_inj h := List.append_cancel_left h
  node_inj := by
    intro a b c d h
    have hbytes : a.bytes ++ b.bytes = c.bytes ++ d.bytes := List.append_cancel_left h
    have hlen : a.bytes.length = c.bytes.length := by rw [a.size_eq, c.size_eq]
    exact ⟨Octets.ext (List.append_inj_left hbytes hlen),
      Octets.ext (List.append_inj_right hbytes hlen)⟩
  leaf_ne_node := by
    intro x a b h
    have hhead : (0x00 : UInt8) = 0x01 := (List.cons.inj h).1
    exact absurd hhead (by decide)

variable {H}

theorem stepInput_eq (index : Nat) (hash path : Hash) :
    stepInput index hash path = (scheme H).pairIn index hash path := by
  unfold stepInput Scheme.pairIn
  rw [Nat.and_one_is_mod]
  rfl

theorem followPath_eq (index : Nat) (hash : Hash) (path : List Hash) :
    followPath H index hash path = (scheme H).climb index hash path := by
  induction path generalizing index hash with
  | nil => rfl
  | cons p path ih =>
      rw [followPath, Scheme.climb, stepInput_eq (H := H), Nat.shiftRight_one, ih]
      rfl

theorem followInputs_eq (index : Nat) (hash : Hash) (path : List Hash) :
    followInputs H index hash path = (scheme H).climbInputs index hash path := by
  induction path generalizing index hash with
  | nil => rfl
  | cons p path ih =>
      rw [followInputs, Scheme.climbInputs, stepInput_eq (H := H), Nat.shiftRight_one, ih]
      rfl

/-- Pairing up an even level. -/
theorem pairInputs_range (c : Nat) (f : Nat → Hash) :
    pairInputs ((List.range (2 * c)).map f) =
      (List.range c).map fun i => nodeInput (f (2 * i)).bytes (f (2 * i + 1)).bytes := by
  induction c generalizing f with
  | zero => rfl
  | succ c ih =>
      have hsucc : 2 * (c + 1) = 2 * c + 1 + 1 := by omega
      rw [hsucc, List.range_succ_eq_map, List.range_succ_eq_map, List.range_succ_eq_map]
      simp only [List.map_cons, List.map_map, pairInputs]
      rw [ih]
      rfl

variable {leaves : List Bytes}

/-- The values of a level that is already complete. -/
def fullLevel (H : Bytes → Hash) (leaves : List Bytes) (k : Nat) : List Hash :=
  (scheme H).level leaves k (2 * count leaves.length (k + 1))

theorem pairInputs_fullLevel (k : Nat) :
    pairInputs (fullLevel H leaves k) = (scheme H).inputs leaves (k + 1) :=
  pairInputs_range _ _

theorem hash_fullLevel (k : Nat) :
    (pairInputs (fullLevel H leaves k)).map H =
      (scheme H).level leaves (k + 1) (count leaves.length (k + 1)) := by
  rw [pairInputs_fullLevel, Scheme.inputs, Scheme.level, List.map_map]
  apply List.map_congr_left
  intro i hi
  exact (Scheme.node_succ (T := scheme H) (List.mem_range.mp hi)).symm

/-- Padding completes a level, and leaves a complete one alone: the node past the count is
the padding value. -/
theorem padded_level {k m : Nat} (hm : m = count leaves.length k ∨
    m = 2 * count leaves.length (k + 1)) :
    padded ((scheme H).level leaves k m) = fullLevel H leaves k := by
  have hcount : count leaves.length (k + 1) = (count leaves.length k + 1) / 2 := rfl
  unfold padded fullLevel
  rw [Scheme.level_length]
  by_cases heven : m % 2 = 0
  · have h2 : m = 2 * count leaves.length (k + 1) := by omega
    rw [if_pos heven, h2]
  · have hodd : m = count leaves.length k := by omega
    have h2 : 2 * count leaves.length (k + 1) = m + 1 := by omega
    have hpad : (scheme H).node leaves k m = Octets.zero 32 :=
      Scheme.node_pad (Nat.le_of_eq hodd.symm)
    rw [if_neg heven, h2, Scheme.level, Scheme.level, List.range_succ, List.map_append,
      List.map_singleton, hpad]

/-- The levels that are left behind: complete ones from `k` on, and the root `d` levels up. -/
def built (H : Bytes → Hash) (leaves : List Bytes) : (k d : Nat) → List (List Hash)
  | k, 0 => [[(scheme H).node leaves k 0]]
  | k, d + 1 => fullLevel H leaves k :: built H leaves (k + 1) d

/-- The loop of `compute_root`, from a level that holds the nodes of the padded tree: the
nodes themselves, or after an earlier call the nodes and their padding. -/
theorem computeLevels_ok {ε : Type} (d : Nat) (k m fuel : Nat) (upper : List (List Hash))
    (hmany : ∀ j < d, 1 < count leaves.length (k + j)) (hone : count leaves.length (k + d) = 1)
    (hm : m = count leaves.length k ∨
      (1 < count leaves.length k ∧ m = 2 * count leaves.length (k + 1))) (hfuel : m ≤ fuel) :
    ∃ first rest, (computeLevels H fuel ((scheme H).level leaves k m) upper :
        Outcome ε (Hash × List Hash × List (List Hash))) =
          .ok ((scheme H).node leaves (k + d) 0, first, rest) ∧
      first :: rest = built H leaves k d ++ upper.drop d ∧ first ≠ [] := by
  have hcount : count leaves.length (k + 1) = (count leaves.length k + 1) / 2 := rfl
  induction d generalizing k m fuel upper with
  | zero =>
      rw [Nat.add_zero] at hone ⊢
      have hm1 : m = 1 := by omega
      subst hm1
      refine ⟨[(scheme H).node leaves k 0], upper, ?_, rfl, List.cons_ne_nil _ _⟩
      cases fuel <;> rfl
  | succ d ih =>
      have hk : 1 < count leaves.length k := hmany 0 (Nat.succ_pos d)
      have hlen : ((scheme H).level leaves k m).length = m := Scheme.level_length k m
      have hpad : padded ((scheme H).level leaves k m) = fullLevel H leaves k :=
        padded_level (by omega)
      match hlevel : (scheme H).level leaves k m, fuel with
      | [], _ => rw [hlevel] at hlen; simp only [List.length_nil] at hlen; omega
      | [_], _ => rw [hlevel] at hlen; simp only [List.length_singleton] at hlen; omega
      | a :: b :: l, 0 => omega
      | a :: b :: l, fuel + 1 =>
          rw [hlevel] at hpad
          have hnode : k + 1 + d = k + (d + 1) := by omega
          obtain ⟨next, above, hrun, hbuilt, -⟩ :=
            ih (k + 1) (count leaves.length (k + 1)) fuel upper.tail
              (fun j hj => by
                have := hmany (j + 1) (Nat.succ_lt_succ hj)
                rwa [Nat.add_assoc, Nat.add_comm 1 j])
              (by rw [hnode]; exact hone) (.inl rfl) (by omega) rfl
          refine ⟨fullLevel H leaves k, next :: above, ?_, ?_, ?_⟩
          · rw [computeLevels, hpad, hash_fullLevel, hrun, ← hnode]
            rfl
          · rw [hbuilt, built, List.drop_tail]
            rfl
          · intro hnil
            have hfull : (fullLevel H leaves k).length = 2 * count leaves.length (k + 1) :=
              Scheme.level_length _ _
            rw [hnil, List.length_nil] at hfull
            omega

/-! ## Whole operations -/

/-- Pushing a list of leaves, first to last. -/
def pushLeaves (H : Bytes → Hash) (t : MerkleTree) (data : List Bytes) : MerkleTree :=
  data.foldl (pushLeaf H) t

theorem pushLeaves_leaves (t : MerkleTree) (data : List Bytes) :
    (t.pushLeaves H data).leaves = t.leaves ++ data.map (hashLeaf H) := by
  induction data generalizing t with
  | nil => exact (List.append_nil _).symm
  | cons x data ih =>
      show ((t.pushLeaf H x).pushLeaves H data).leaves = _
      rw [ih, pushLeaf, List.append_assoc]
      rfl

theorem level_zero (leaves : List Bytes) :
    (scheme H).level leaves 0 leaves.length = leaves.map (hashLeaf H) := by
  apply List.ext_getElem?
  intro i
  by_cases hi : i < leaves.length
  · have hleaf : leaves[i]? = some leaves[i] := List.getElem?_eq_getElem hi
    have hnode := Scheme.node_zero (T := scheme H) hleaf
    rw [Scheme.level, List.getElem?_map, List.getElem?_range hi, List.getElem?_map, hleaf]
    exact congrArg some hnode
  · rw [List.getElem?_eq_none, List.getElem?_eq_none]
    · rw [List.length_map]; omega
    · rw [Scheme.level_length]; omega

/-- The leaves of the tree are those of `leaves`, with the padding an earlier `compute_root`
has added, if any. -/
def Holds (H : Bytes → Hash) (t : MerkleTree) (leaves : List Bytes) : Prop :=
  ∃ m, t.leaves = (scheme H).level leaves 0 m ∧
    (m = leaves.length ∨ (1 < leaves.length ∧ m = 2 * count leaves.length 1))

/-- The levels of the tree are the padded tree of `leaves`, and then whatever is left over. -/
def Computed (H : Bytes → Hash) (t : MerkleTree) (leaves : List Bytes) (stale : List (List Hash)) :
    Prop :=
  t.levels = built H leaves 0 (Nat.clog 2 leaves.length) ++ stale

theorem holds_pushLeaves {t : MerkleTree} (ht : t.leaves = []) (leaves : List Bytes) :
    (t.pushLeaves H leaves).Holds H leaves :=
  ⟨leaves.length, by rw [pushLeaves_leaves, ht, level_zero]; rfl, .inl rfl⟩

theorem Computed.holds {t : MerkleTree} {stale : List (List Hash)} (hn : 1 ≤ leaves.length)
    (ht : t.Computed H leaves stale) : t.Holds H leaves := by
  cases hd : Nat.clog 2 leaves.length with
  | zero =>
      have hone : leaves.length = 1 := by
        have := count_clog hn
        rwa [hd] at this
      rw [Computed, hd] at ht
      exact ⟨1, (List.cons.inj ht).1, .inl hone.symm⟩
  | succ d =>
      have hmany : 1 < leaves.length := one_lt_count (n := leaves.length) (k := 0) (by omega)
      rw [Computed, hd] at ht
      exact ⟨_, (List.cons.inj ht).1, .inr ⟨hmany, rfl⟩⟩

/-- `compute_root` returns the root of the padded tree, and leaves its levels behind. -/
theorem computeRoot_ok {ε : Type} {t : MerkleTree} (hn : 1 ≤ leaves.length)
    (ht : t.Holds H leaves) :
    ∃ t', (computeRoot H t : Outcome ε (Hash × MerkleTree)) =
        .ok ((scheme H).root leaves, t') ∧
      t'.Computed H leaves (t.upper.drop (Nat.clog 2 leaves.length)) := by
  obtain ⟨m, hleaves, hm⟩ := ht
  have hmany : ∀ j < Nat.clog 2 leaves.length, 1 < count leaves.length (0 + j) := by
    intro j hj
    rw [Nat.zero_add]
    exact one_lt_count hj
  have hone : count leaves.length (0 + Nat.clog 2 leaves.length) = 1 := by
    rw [Nat.zero_add]
    exact count_clog hn
  have hfuel : m ≤ t.leaves.length := by
    rw [hleaves, Scheme.level_length]
  obtain ⟨first, rest, hrun, hbuilt, hne⟩ :=
    computeLevels_ok (ε := ε) (H := H) _ 0 m t.leaves.length t.upper hmany hone hm hfuel
  rw [← hleaves, Nat.zero_add] at hrun
  refine ⟨⟨first, rest, fun h => absurd h hne⟩, ?_, hbuilt⟩
  rw [computeRoot, hrun]
  exact dif_neg hne

/-- The sibling of a node is in its completed level. -/
theorem fullLevel_sibling {k i : Nat} (hi : i < count leaves.length k) :
    (fullLevel H leaves k)[sibling i]? = some ((scheme H).node leaves k (sibling i)) := by
  have hcount : count leaves.length (k + 1) = (count leaves.length k + 1) / 2 := rfl
  have hlt : sibling i < 2 * count leaves.length (k + 1) := by
    unfold sibling
    split <;> omega
  rw [fullLevel, Scheme.level, List.getElem?_map, List.getElem?_range hlt]
  rfl

theorem fullLevel_ne_nil {k i : Nat} (hi : i < count leaves.length k) :
    fullLevel H leaves k ≠ [] := by
  intro hnil
  have h := fullLevel_sibling (H := H) hi
  rw [hnil] at h
  exact absurd h (by simp)

/-- The loop of `get_paths_to` stops at the root, whatever is left over above it. -/
theorem collectPath_ok {ε : Type} {i : Nat} (hi : i < leaves.length)
    (stale : List (List Hash)) (d k : Nat) (path : MerklePath)
    (hmany : ∀ j < d, 1 < count leaves.length (k + j)) (hone : count leaves.length (k + d) = 1)
    (hroom : path.numPaths + d ≤ 32) (hlevel : k + d ≤ 32) :
    ∃ q : MerklePath, (collectPath (built H leaves k d ++ stale) (i / 2 ^ k) k path :
        Outcome ε MerklePath) = .ok q ∧ q.numPaths = path.numPaths + d ∧
      q.elements = path.elements ++ (scheme H).proof leaves i k d := by
  have hlt := ancestor_lt_count hi k
  induction d generalizing k path with
  | zero =>
      rw [Nat.add_zero] at hone hlevel
      rw [hone] at hlt
      have hzero : i / 2 ^ k = 0 := Nat.lt_one_iff.mp hlt
      have hassert : (Outcome.assert (k ≤ 32) : Outcome ε Unit) = .ok () :=
        Outcome.assert_ok_iff.mpr hlevel
      refine ⟨path, ?_, rfl, (List.append_nil _).symm⟩
      rw [hzero, built, List.cons_append, collectPath, if_neg (List.cons_ne_nil _ _)]
      show (Outcome.assert (k ≤ 32) >>= fun _ => pure path) = _
      rw [hassert]
      rfl
  | succ d ih =>
      have hnext : i / 2 ^ k / 2 = i / 2 ^ (k + 1) := by
        rw [Nat.div_div_eq_div_mul, ← Nat.pow_succ]
      have hsucc : k + 1 + d = k + (d + 1) := by omega
      obtain ⟨p, hpush, hnum, helem⟩ := MerklePath.pushElement_ok (ε := ε)
        ((scheme H).node leaves k (sibling (i / 2 ^ k))) (p := path) (by omega)
      obtain ⟨q, hrun, hqnum, hqelem⟩ := ih (k + 1) p
        (fun j hj => by
          have := hmany (j + 1) (Nat.succ_lt_succ hj)
          rwa [Nat.add_assoc, Nat.add_comm 1 j])
        (by rw [hsucc]; exact hone) (by omega) (by omega) (ancestor_lt_count hi (k + 1))
      refine ⟨q, ?_, by omega, ?_⟩
      · rw [built, List.cons_append, collectPath, if_neg (fullLevel_ne_nil hlt),
          fullLevel_sibling hlt]
        show (path.pushElement _ >>= fun path => collectPath _ _ _ path) = _
        rw [hpush, hnext]
        exact hrun
      · rw [hqelem, helem, List.append_assoc]
        rfl

/-- The path of a leaf: the siblings on its way up, for any tree of at most `2^32` leaves. -/
theorem getPathsTo_ok {ε : Type} {t : MerkleTree} {stale : List (List Hash)} {i : Nat}
    (debug : Bool) {path : MerklePath} (hpath : path.numPaths = 0)
    (ht : t.Computed H leaves stale) (hi : i < leaves.length) (hmax : leaves.length ≤ 2 ^ 32) :
    ∃ q : MerklePath, (getPathsTo debug t i path : Outcome ε MerklePath) = .ok q ∧
      q.numPaths = Nat.clog 2 leaves.length ∧
      q.elements = (scheme H).proof leaves i 0 (Nat.clog 2 leaves.length) := by
  have hdepth : Nat.clog 2 leaves.length ≤ 32 := Nat.clog_le_of_le_pow hmax
  have hmany : ∀ j < Nat.clog 2 leaves.length, 1 < count leaves.length (0 + j) := by
    intro j hj
    rw [Nat.zero_add]
    exact one_lt_count hj
  have hone : count leaves.length (0 + Nat.clog 2 leaves.length) = 1 := by
    rw [Nat.zero_add]
    exact count_clog (by omega)
  obtain ⟨q, hrun, hnum, helem⟩ := collectPath_ok (ε := ε) hi stale _ 0 path hmany hone
    (by omega) (by omega)
  have hempty : path.elements = [] :=
    List.eq_nil_of_length_eq_zero (by rw [MerklePath.elements_length, hpath])
  rw [Nat.pow_zero, Nat.div_one] at hrun
  rw [hempty, List.nil_append] at helem
  refine ⟨q, ?_, by omega, helem⟩
  have hassert : (Outcome.assert (debug = true → path.isEmpty = true) : Outcome ε Unit) = .ok () :=
    Outcome.assert_ok_iff.mpr fun _ => by simp [MerklePath.isEmpty, hpath]
  rw [getPathsTo, hassert, ht]
  exact hrun

/-- The proof for a leaf, followed from the leaf, leads to the root. -/
theorem rootFromPaths_proof {i : Nat} {x : Bytes} {p : MerklePath} (hx : leaves[i]? = some x)
    (hp : p.elements = (scheme H).proof leaves i 0 (Nat.clog 2 leaves.length)) :
    rootFromPaths H i x p = (scheme H).root leaves := by
  rw [rootFromPaths, followPath_eq, hp]
  exact Scheme.climb_leaf hx

end MerkleTree

end Roughenough.Merkle
