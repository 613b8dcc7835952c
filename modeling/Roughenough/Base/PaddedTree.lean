/-
# `Roughenough.Base.PaddedTree` — hash trees padded level by level

A binary hash tree over `n` leaves in which a level of odd length is completed
by one padding value before it is paired up.  The tree is not the perfect tree
over padded leaves: the padding value is inserted afresh on every level and is
not itself a hash.

    count n k        nodes of level `k`:  ⌈n / 2^k⌉
    node k i         value `i` of level `k`; the padding value past the count
    Nat.clog 2 n     the level of the root

A proof for leaf `i` is the list of siblings on the way up; `climb` recomputes
the root from it.  The two results are

    climb_proof      the honest proof leads to the root
    climb_sound      a proof that leads to the root is a proof for the leaf at
                     `i % 2^d`, if no two of the hashed inputs collide and
                     none hashes to the padding value

The hash is an arbitrary function (`Scheme.hash`); leaves and pairs enter it
through `leafIn` and `nodeIn`.  Nothing in this module is about Roughtime.
-/
import Mathlib.Algebra.Order.Ring.Nat
import Mathlib.Data.Nat.Log
import Mathlib.Data.List.Basic
import Mathlib.Data.List.Induction

namespace Roughenough.Base.PaddedTree

/-! ## Counting nodes -/

/-- The number of nodes of level `k`. -/
def count (n : Nat) : Nat → Nat
  | 0 => n
  | k + 1 => (count n k + 1) / 2

theorem count_le_iff (n m : Nat) : ∀ k, count n k ≤ m ↔ n ≤ m * 2 ^ k := by
  intro k
  induction k generalizing m with
  | zero => simp [count]
  | succ k ih =>
      have hpow : m * 2 ^ (k + 1) = 2 * m * 2 ^ k := by
        rw [Nat.pow_succ, Nat.mul_comm (2 ^ k) 2, ← Nat.mul_assoc, Nat.mul_comm m 2]
      rw [hpow, ← ih (2 * m), count]
      omega

theorem lt_count_iff (n i k : Nat) : i < count n k ↔ i * 2 ^ k < n := by
  have h := count_le_iff n i k
  omega

/-- The ancestor of a leaf on level `k` is a node of that level. -/
theorem ancestor_lt_count {n i : Nat} (h : i < n) (k : Nat) : i / 2 ^ k < count n k := by
  rw [lt_count_iff]
  exact Nat.lt_of_le_of_lt (Nat.div_mul_le_self i (2 ^ k)) h

theorem count_clog {n : Nat} (h : 1 ≤ n) : count n (Nat.clog 2 n) = 1 := by
  have hle : count n (Nat.clog 2 n) ≤ 1 := by
    rw [count_le_iff, Nat.one_mul]
    exact Nat.le_pow_clog (by decide) n
  have hpos : 0 < count n (Nat.clog 2 n) := by
    rw [lt_count_iff]
    omega
  omega

theorem one_lt_count {n k : Nat} (h : k < Nat.clog 2 n) : 1 < count n k := by
  rw [lt_count_iff, Nat.one_mul]
  exact (Nat.lt_clog_iff_pow_lt (by decide)).mp h

/-! ## Nodes -/

/-- How a tree hashes: the function, what it is applied to at a leaf and at a pair, and the
value that completes an odd level. -/
structure Scheme (α ι β : Type) where
  hash : ι → α
  leafIn : β → ι
  nodeIn : α → α → ι
  pad : α

namespace Scheme

variable {α ι β : Type} (T : Scheme α ι β) (leaves : List β)

/-- Value `i` of level `k`. -/
def node : Nat → Nat → α
  | 0, i =>
      match leaves[i]? with
      | some x => T.hash (T.leafIn x)
      | none => T.pad
  | k + 1, i =>
      if i < count leaves.length (k + 1) then
        T.hash (T.nodeIn (node k (2 * i)) (node k (2 * i + 1)))
      else T.pad

/-- The first `m` values of level `k`. -/
def level (k m : Nat) : List α := (List.range m).map (T.node leaves k)

/-- The inputs that are hashed for level `k`. -/
def inputs : Nat → List ι
  | 0 => leaves.map T.leafIn
  | k + 1 => (List.range (count leaves.length (k + 1))).map fun i =>
      T.nodeIn (T.node leaves k (2 * i)) (T.node leaves k (2 * i + 1))

/-- The value of the topmost node. -/
def root : α := T.node leaves (Nat.clog 2 leaves.length) 0

end Scheme

/-- The index next to `i`. -/
def sibling (i : Nat) : Nat := if i % 2 = 0 then i + 1 else i - 1

namespace Scheme

variable {α ι β : Type} (T : Scheme α ι β) (leaves : List β)

/-- `d` siblings met on the way up from leaf `i`, the first one on level `k`. -/
def proof (i : Nat) : (k d : Nat) → List α
  | _, 0 => []
  | k, d + 1 => T.node leaves k (sibling (i / 2 ^ k)) :: proof i (k + 1) d

/-- The two orders of a pair: `h` is on the left when the index is even. -/
def pairIn (i : Nat) (h p : α) : ι := if i % 2 = 0 then T.nodeIn h p else T.nodeIn p h

/-- The value reached from `h` along the proof. -/
def climb : Nat → α → List α → α
  | _, h, [] => h
  | i, h, p :: ps => climb (i / 2) (T.hash (T.pairIn i h p)) ps

/-- The inputs hashed on the way. -/
def climbInputs : Nat → α → List α → List ι
  | _, _, [] => []
  | i, h, p :: ps => T.pairIn i h p :: climbInputs (i / 2) (T.hash (T.pairIn i h p)) ps

variable {T leaves}

@[simp] theorem level_length (k m : Nat) : (T.level leaves k m).length = m := by simp [level]

theorem node_zero {i : Nat} {x : β} (h : leaves[i]? = some x) :
    T.node leaves 0 i = T.hash (T.leafIn x) := by
  simp only [node, h]

theorem node_succ {k i : Nat} (h : i < count leaves.length (k + 1)) :
    T.node leaves (k + 1) i =
      T.hash (T.nodeIn (T.node leaves k (2 * i)) (T.node leaves k (2 * i + 1))) := if_pos h

theorem node_pad {k i : Nat} (h : count leaves.length k ≤ i) : T.node leaves k i = T.pad := by
  cases k with
  | zero =>
      have hnone : leaves[i]? = none := List.getElem?_eq_none h
      simp only [node, hnone]
  | succ k => exact if_neg (Nat.not_lt.mpr h)

/-! ## Completeness -/

/-- One step up: a node and its sibling make their parent. -/
theorem hash_pairIn_sibling {k i : Nat} (h : i < count leaves.length k) :
    T.hash (T.pairIn i (T.node leaves k i) (T.node leaves k (sibling i))) =
      T.node leaves (k + 1) (i / 2) := by
  have hparent : i / 2 < count leaves.length (k + 1) := by
    simp only [count]
    omega
  rw [node_succ hparent, pairIn, sibling]
  by_cases heven : i % 2 = 0
  · have hl : 2 * (i / 2) = i := by omega
    rw [if_pos heven, if_pos heven, hl]
  · have hl : 2 * (i / 2) = i - 1 := by omega
    have hr : i - 1 + 1 = i := by omega
    rw [if_neg heven, if_neg heven, hl, hr]

theorem climb_proof {i : Nat} (h : i < leaves.length) (d k : Nat) :
    T.climb (i / 2 ^ k) (T.node leaves k (i / 2 ^ k)) (T.proof leaves i k d) =
      T.node leaves (k + d) (i / 2 ^ (k + d)) := by
  induction d generalizing k with
  | zero => rfl
  | succ d ih =>
      have hdiv : i / 2 ^ k / 2 = i / 2 ^ (k + 1) := by
        rw [Nat.div_div_eq_div_mul, ← Nat.pow_succ]
      have hstep := hash_pairIn_sibling (T := T) (ancestor_lt_count h k)
      rw [proof, climb, hstep, hdiv, ih (k + 1), Nat.add_right_comm k 1 d]
      rfl

/-- The honest proof for a leaf leads to the root. -/
theorem climb_leaf {i : Nat} {x : β} (h : leaves[i]? = some x) :
    T.climb i (T.hash (T.leafIn x)) (T.proof leaves i 0 (Nat.clog 2 leaves.length)) =
      T.root leaves := by
  have hi : i < leaves.length := (List.getElem?_eq_some_iff.mp h).1
  have hclimb := climb_proof (T := T) hi (Nat.clog 2 leaves.length) 0
  have htop : i / 2 ^ (0 + Nat.clog 2 leaves.length) = 0 := by
    apply Nat.div_eq_of_lt
    rw [Nat.zero_add]
    exact Nat.lt_of_lt_of_le hi (Nat.le_pow_clog (by decide) _)
  rw [htop, Nat.zero_add, Nat.pow_zero, Nat.div_one, node_zero h] at hclimb
  exact hclimb

theorem proof_length (i k d : Nat) : (T.proof leaves i k d).length = d := by
  induction d generalizing k with
  | zero => rfl
  | succ d ih => simp [proof, ih]

/-! ## Soundness -/

theorem climb_concat (i : Nat) (h p : α) (ps : List α) :
    T.climb i h (ps ++ [p]) = T.hash (T.pairIn (i / 2 ^ ps.length) (T.climb i h ps) p) := by
  induction ps generalizing i h with
  | nil => simp [climb]
  | cons q ps ih =>
      rw [List.cons_append, climb, ih, climb, Nat.div_div_eq_div_mul, List.length_cons,
        Nat.pow_succ, Nat.mul_comm 2]

/-- A climb looks at one bit of the index for each step. -/
theorem climb_mod (i : Nat) (h : α) (ps : List α) :
    T.climb (i % 2 ^ ps.length) h ps = T.climb i h ps := by
  induction ps generalizing i h with
  | nil => rfl
  | cons p ps ih =>
      have hbit : i % 2 ^ (ps.length + 1) % 2 = i % 2 :=
        Nat.mod_mod_of_dvd i (Dvd.intro_left (2 ^ ps.length) rfl)
      have hhalf : i % 2 ^ (ps.length + 1) / 2 = i / 2 % 2 ^ ps.length := by
        rw [Nat.pow_succ, Nat.mul_comm, Nat.mod_mul_right_div_self]
      rw [List.length_cons, climb, climb, hhalf, ih, pairIn, pairIn, hbit]

theorem climbInputs_concat (i : Nat) (h p : α) (ps : List α) :
    T.climbInputs i h (ps ++ [p]) =
      T.climbInputs i h ps ++ [T.pairIn (i / 2 ^ ps.length) (T.climb i h ps) p] := by
  induction ps generalizing i h with
  | nil => simp [climb, climbInputs]
  | cons q ps ih =>
      rw [List.cons_append, climbInputs, ih, climbInputs, climb, Nat.div_div_eq_div_mul,
        List.length_cons, Nat.pow_succ, Nat.mul_comm 2]
      rfl

theorem mem_inputs_zero {i : Nat} {x : β} (h : leaves[i]? = some x) :
    T.leafIn x ∈ T.inputs leaves 0 :=
  List.mem_map_of_mem (List.mem_of_getElem? h)

theorem mem_inputs_succ {k i : Nat} (h : i < count leaves.length (k + 1)) :
    T.nodeIn (T.node leaves k (2 * i)) (T.node leaves k (2 * i + 1)) ∈ T.inputs leaves (k + 1) :=
  List.mem_map.mpr ⟨i, List.mem_range.mpr h, rfl⟩

variable (T) in
/-- Among the inputs in `S` no two collide and none hashes to the padding value. -/
structure Faithful (S : ι → Prop) : Prop where
  inj : ∀ {u v}, S u → S v → T.hash u = T.hash v → u = v
  ne_pad : ∀ {u}, S u → T.hash u ≠ T.pad

variable (T) in
/-- Leaves and pairs are encoded without ambiguity. -/
structure Separated : Prop where
  leaf_inj : ∀ {x y}, T.leafIn x = T.leafIn y → x = y
  node_inj : ∀ {a b c d}, T.nodeIn a b = T.nodeIn c d → a = c ∧ b = d
  leaf_ne_node : ∀ {x a b}, T.leafIn x ≠ T.nodeIn a b

theorem Separated.leaf_ne_pair (hsep : T.Separated) {x : β} {i : Nat} {h p : α} :
    T.leafIn x ≠ T.pairIn i h p := by
  unfold pairIn
  split
  · exact hsep.leaf_ne_node
  · exact hsep.leaf_ne_node

/-- In an equal pair, `h` is the child on the side of its index. -/
theorem Separated.child_eq (hsep : T.Separated) {b pos : Nat} {h p : α} {f : Nat → α}
    (heq : T.pairIn b h p = T.nodeIn (f (2 * pos)) (f (2 * pos + 1))) :
    h = f (2 * pos + b % 2) := by
  unfold pairIn at heq
  rcases Nat.mod_two_eq_zero_or_one b with hb | hb
  · rw [if_pos hb] at heq
    rw [hb]
    exact (hsep.node_inj heq).1
  · rw [if_neg (by omega)] at heq
    rw [hb]
    exact (hsep.node_inj heq).2

/-- The index a proof of depth `k + 1` walks through, one bit at a time. -/
theorem index_step (i k pos : Nat) :
    (2 * pos + i / 2 ^ k % 2) * 2 ^ k + i % 2 ^ k = pos * 2 ^ (k + 1) + i % 2 ^ (k + 1) := by
  have hmod : i % 2 ^ (k + 1) = i % 2 ^ k + 2 ^ k * (i / 2 ^ k % 2) := by
    rw [Nat.pow_succ, Nat.mod_mul]
  rw [hmod, Nat.add_mul, Nat.pow_succ, Nat.mul_comm (2 ^ k) 2, ← Nat.mul_assoc pos 2,
    Nat.mul_comm 2 pos, Nat.mul_comm (i / 2 ^ k % 2)]
  omega

/-- What a climb from a leaf ends at is a hash of one of its inputs, so never the padding. -/
theorem climb_ne_pad {S : ι → Prop} (hS : T.Faithful S) {i : Nat} {x : β} (hx : S (T.leafIn x))
    (ps : List α) (hps : ∀ u ∈ T.climbInputs i (T.hash (T.leafIn x)) ps, S u) :
    T.climb i (T.hash (T.leafIn x)) ps ≠ T.pad := by
  cases ps using List.reverseRecOn with
  | nil => exact hS.ne_pad hx
  | append_singleton qs q =>
      rw [climbInputs_concat] at hps
      rw [climb_concat]
      exact hS.ne_pad (hps _ (List.mem_append_right _ List.mem_cons_self))

/-- Top-down: a proof whose end meets node `pos` of level `k` starts at a leaf below it.
The induction removes the last element of the proof and goes down one level. -/
theorem climb_eq_node (hsep : T.Separated) {S : ι → Prop} (hS : T.Faithful S) {i : Nat} {x : β}
    (hx : S (T.leafIn x)) (ps : List α) (k pos : Nat)
    (hps : ∀ u ∈ T.climbInputs i (T.hash (T.leafIn x)) ps, S u)
    (hin : ∀ j ≤ k, ∀ u ∈ T.inputs leaves j, S u) (hpos : pos < count leaves.length k)
    (heq : T.climb i (T.hash (T.leafIn x)) ps = T.node leaves k pos) :
    ps.length = k ∧ leaves[pos * 2 ^ k + i % 2 ^ k]? = some x := by
  induction ps using List.reverseRecOn generalizing k pos with
  | nil =>
      cases k with
      | zero =>
          have hleaf : leaves[pos]? = some leaves[pos] := List.getElem?_eq_getElem hpos
          rw [node_zero hleaf] at heq
          have hxy := hsep.leaf_inj (hS.inj hx (hin 0 (Nat.le_refl 0) _ (mem_inputs_zero hleaf)) heq)
          rw [Nat.pow_zero, Nat.mul_one, Nat.mod_one, Nat.add_zero, hxy]
          exact ⟨rfl, hleaf⟩
      | succ k =>
          -- a leaf cannot stand where the tree has an inner node
          rw [node_succ hpos] at heq
          have hmem := hin (k + 1) (Nat.le_refl _) _ (mem_inputs_succ hpos)
          exact absurd (hS.inj hx hmem heq) hsep.leaf_ne_node
  | append_singleton ps p ih =>
      rw [climbInputs_concat] at hps
      have hlast := hps _ (List.mem_append_right _ List.mem_cons_self)
      have hfirst : ∀ u ∈ T.climbInputs i (T.hash (T.leafIn x)) ps, S u :=
        fun u hu => hps u (List.mem_append_left _ hu)
      rw [climb_concat] at heq
      cases k with
      | zero =>
          -- an inner node cannot stand where the tree has a leaf
          have hleaf : leaves[pos]? = some leaves[pos] := List.getElem?_eq_getElem hpos
          rw [node_zero hleaf] at heq
          have hmem := hin 0 (Nat.le_refl 0) _ (mem_inputs_zero hleaf)
          exact absurd (hS.inj hlast hmem heq).symm hsep.leaf_ne_pair
      | succ k =>
          rw [node_succ hpos] at heq
          have hmem := hin (k + 1) (Nat.le_refl _) _ (mem_inputs_succ hpos)
          have hchild := hsep.child_eq (hS.inj hlast hmem heq)
          -- the child is a hash, so it is not one of the padding positions
          have hlt : 2 * pos + i / 2 ^ ps.length % 2 < count leaves.length k := by
            by_contra hge
            exact climb_ne_pad hS hx ps hfirst (hchild.trans (node_pad (Nat.not_lt.mp hge)))
          obtain ⟨hlen, hleaf⟩ :=
            ih k _ hfirst (fun j hj => hin j (Nat.le_succ_of_le hj)) hlt hchild
          rw [hlen, index_step] at hleaf
          exact ⟨by rw [List.length_append, hlen]; rfl, hleaf⟩

/-- A proof that leads to the root has the depth of the tree and starts at a real leaf. -/
theorem climb_sound (hsep : T.Separated) {S : ι → Prop} (hS : T.Faithful S)
    (hn : 1 ≤ leaves.length) {i : Nat} {x : β} {ps : List α} (hx : S (T.leafIn x))
    (hps : ∀ u ∈ T.climbInputs i (T.hash (T.leafIn x)) ps, S u)
    (hin : ∀ j ≤ Nat.clog 2 leaves.length, ∀ u ∈ T.inputs leaves j, S u)
    (heq : T.climb i (T.hash (T.leafIn x)) ps = T.root leaves) :
    ps.length = Nat.clog 2 leaves.length ∧ leaves[i % 2 ^ ps.length]? = some x := by
  have hpos : 0 < count leaves.length (Nat.clog 2 leaves.length) := by
    rw [count_clog hn]
    exact Nat.one_pos
  obtain ⟨hlen, hleaf⟩ := climb_eq_node hsep hS hx ps _ 0 hps hin hpos heq
  rw [Nat.zero_mul, Nat.zero_add, ← hlen] at hleaf
  exact ⟨hlen, hleaf⟩

end Scheme

end Roughenough.Base.PaddedTree
