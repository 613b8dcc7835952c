/-
# `Roughenough.Merkle.Incremental` — pushing leaves after a root

`compute_root` pads an odd level in place.  Above the leaves this is undone by
the next call, which builds these levels again; among the leaves it is not: the
padding node stays where it is, and the next leaf is pushed behind it.

    1 leaf                nothing is padded
    an even number        nothing is padded
    3, 5, 7, … leaves     a padding node stays among the leaves

As long as no leaf is pushed behind a padding node, every root is the root that
a fresh tree gives for the leaves so far, and every path leads to it.
-/
import Roughenough.Merkle.Proofs

namespace Roughenough.Merkle

open Roughenough.Base Roughenough.Base.PaddedTree Roughenough.Protocol

namespace MerkleTree

/-- The leaves that were pushed, first to last. -/
def pushed (ops : List TreeOp) : List Bytes :=
  ops.filterMap fun
    | .pushLeaf data => some data
    | _ => none

/-- Some root was computed of an odd number of leaves other than one. -/
def OddRoot (ops : List TreeOp) : Prop :=
  ∃ pre post, ops = pre ++ .computeRoot :: post ∧ (pushed pre).length % 2 = 1 ∧
    (pushed pre).length ≠ 1

/-- Leaves are pushed and roots computed, with a leaf before the first root, no more leaves than a
path has room for, and no leaf behind a padding node. -/
structure Orderly (ops : List TreeOp) : Prop where
  growing : ∀ op ∈ ops, op = .computeRoot ∨ ∃ data, op = .pushLeaf data
  rooted : ∀ pre post, ops = pre ++ .computeRoot :: post → 1 ≤ (pushed pre).length
  small : (pushed ops).length ≤ 2 ^ 32
  aligned : ∀ pre data post, ops = pre ++ .pushLeaf data :: post → ¬ OddRoot pre

/-- The next root is that of a fresh tree, and the path of every leaf leads to it. -/
def RootIsFresh (H : Bytes → Hash) (debug : Bool) (t : MerkleTree) (leaves : List Bytes) : Prop :=
  ∃ root t' fresh, (computeRoot H t : Call (Hash × MerkleTree)) = .ok (root, t') ∧
    computeRoot H (new.pushLeaves H leaves) = (.ok (root, fresh) : Call (Hash × MerkleTree)) ∧
    ∀ (i : Nat) (leaf : Bytes), leaves[i]? = some leaf →
      ∃ path, getPaths debug t' i = (.ok path : Call MerklePath) ∧
        rootFromPaths H i leaf path = root

section Growing

variable {H : Bytes → Hash} {debug : Bool} {ops : List TreeOp} {t : MerkleTree}
  {leaves : List Bytes}

theorem pushed_append (ops ops' : List TreeOp) :
    pushed (ops ++ ops') = pushed ops ++ pushed ops' := List.filterMap_append

theorem runOps_append (ops ops' : List TreeOp) (t : MerkleTree) :
    runOps H debug (ops ++ ops') t = (runOps H debug ops t >>= runOps H debug ops') := by
  induction ops generalizing t with
  | nil => rfl
  | cons op later ih =>
      rw [List.cons_append, runOps, runOps, bind_assoc]
      exact bind_congr fun t => ih t

/-! ## What is kept -/

theorem Orderly.start {later : List TreeOp} (h : Orderly (ops ++ later)) : Orderly ops := by
  refine ⟨fun o ho => h.growing o (List.mem_append_left _ ho), ?_, ?_, ?_⟩
  · rintro pre post rfl
    exact h.rooted pre (post ++ later) (List.append_assoc _ _ _)
  · have hlen := h.small
    rw [pushed_append, List.length_append] at hlen
    exact Nat.le_trans (Nat.le_add_right _ _) hlen
  · rintro pre data post rfl
    exact h.aligned pre data (post ++ later) (List.append_assoc _ _ _)

/-- The leaves without padding. -/
def Bare (H : Bytes → Hash) (t : MerkleTree) (leaves : List Bytes) : Prop :=
  t.leaves = leaves.map (hashLeaf H)

theorem Bare.holds (h : t.Bare H leaves) : t.Holds H leaves :=
  ⟨leaves.length, by rw [level_zero]; exact h, .inl rfl⟩

theorem Bare.pushLeaf (h : t.Bare H leaves) (data : Bytes) :
    (t.pushLeaf H data).Bare H (leaves ++ [data]) := by
  show t.leaves ++ [hashLeaf H data] = _
  rw [h, List.map_append]
  rfl

/-- A root of one leaf or of an even number of leaves adds nothing to them. -/
theorem Computed.bare {stale : List (List Hash)} (hn : 1 ≤ leaves.length)
    (heven : leaves.length = 1 ∨ leaves.length % 2 = 0) (h : t.Computed H leaves stale) :
    t.Bare H leaves := by
  obtain ⟨m, hleaves, hm⟩ := h.holds hn
  have hcount : count leaves.length 1 = (leaves.length + 1) / 2 := rfl
  have hm' : m = leaves.length := by omega
  rw [Bare, hleaves, hm', level_zero]

/-- After an orderly run the tree holds the leaves, and holds nothing else unless a root was
computed of an odd number. -/
theorem Orderly.run (h : Orderly ops) : ∃ t, runOps H debug ops new = .ok t ∧
    t.Holds H (pushed ops) ∧ (¬ OddRoot ops → t.Bare H (pushed ops)) := by
  induction ops using List.reverseRecOn with
  | nil =>
      have hbare : new.Bare H [] := rfl
      exact ⟨new, rfl, hbare.holds, fun _ => hbare⟩
  | append_singleton ops op ih =>
      obtain ⟨t, hrun, hholds, hbare⟩ := ih h.start
      rw [runOps_append, hrun, pushed_append]
      rcases h.growing op (List.mem_append_right _ List.mem_cons_self) with rfl | ⟨data, rfl⟩
      · have hn := h.rooted ops [] rfl
        obtain ⟨t', hroot, hcomputed⟩ := computeRoot_ok (ε := Empty) hn hholds
        have hstep : runOps H debug [.computeRoot] t = .ok t' := by
          show (MerkleTree.computeRoot H t >>= _) >>= _ = _
          rw [hroot]
          rfl
        have hsame : pushed ops ++ pushed [.computeRoot] = pushed ops := List.append_nil _
        rw [hsame]
        refine ⟨t', hstep, hcomputed.holds hn, fun hnot => hcomputed.bare hn ?_⟩
        by_contra hodd
        exact hnot ⟨ops, [], rfl, by omega, by omega⟩
      · have hnot := h.aligned ops data [] rfl
        have hpush := (hbare hnot).pushLeaf data
        exact ⟨t.pushLeaf H data, rfl, hpush.holds, fun _ => hpush⟩

theorem Holds.rootIsFresh (h : t.Holds H leaves) (hn : 1 ≤ leaves.length)
    (hmax : leaves.length ≤ 2 ^ 32) : RootIsFresh H debug t leaves := by
  obtain ⟨t', hroot, hcomputed⟩ := computeRoot_ok (ε := Empty) hn h
  obtain ⟨fresh, hfresh, -⟩ :=
    computeRoot_ok (ε := Empty) hn (holds_pushLeaves (t := new) rfl leaves)
  refine ⟨_, t', fresh, hroot, hfresh, ?_⟩
  intro i leaf hleaf
  have hi : i < leaves.length := (List.getElem?_eq_some_iff.mp hleaf).1
  have hempty : MerklePath.default.numPaths = 0 := rfl
  obtain ⟨path, hpath, -, helem⟩ := getPathsTo_ok (ε := Empty) debug hempty hcomputed hi hmax
  exact ⟨path, hpath, rootFromPaths_proof hleaf helem⟩

end Growing

/-- In an orderly run no call panics, and each root is that of a fresh tree. -/
theorem incremental_root (H : Bytes → Hash) (debug : Bool) (ops : List TreeOp)
    (h : Orderly ops) : (∃ t, runOps H debug ops new = .ok t) ∧
      ∀ pre post, ops = pre ++ .computeRoot :: post →
        ∃ t, runOps H debug pre new = .ok t ∧ RootIsFresh H debug t (pushed pre) := by
  obtain ⟨t, hrun, -⟩ : ∃ t, runOps H debug ops new = .ok t ∧ _ := h.run
  refine ⟨⟨t, hrun⟩, ?_⟩
  rintro pre post rfl
  have hpre : Orderly pre := h.start
  obtain ⟨t, hrun, hholds, -⟩ : ∃ t, runOps H debug pre new = .ok t ∧ _ := hpre.run
  exact ⟨t, hrun, hholds.rootIsFresh (h.rooted pre post rfl) hpre.small⟩

/-- A small hash that tells the leaves below apart. -/
def weakHash (bs : Bytes) : Hash := Octets.fill 32 (bs.getD 1 0 * 3 + bs.getD 33 0 * 5 + 7)

/-- Roots of one, of two and of four leaves. -/
theorem incremental_root_four : ∃ t, runOps weakHash true
    [.pushLeaf [1], .computeRoot, .pushLeaf [2], .computeRoot, .pushLeaf [3], .pushLeaf [4]] new =
      .ok t ∧ RootIsFresh weakHash true t [[1], [2], [3], [4]] := by
  let ops : List TreeOp := [.pushLeaf [1], .computeRoot, .pushLeaf [2], .computeRoot,
    .pushLeaf [3], .pushLeaf [4], .computeRoot]
  have hroots : ∀ pre post, ops = pre ++ .computeRoot :: post →
      (pushed pre).length = 1 ∨ (pushed pre).length = 2 ∨ (pushed pre).length = 4 := by
    intro pre post hops
    have htake : pre = ops.take pre.length := by rw [hops, List.take_left]
    have hget : ops[pre.length]? = some .computeRoot := by
      rw [hops, List.getElem?_append_right (Nat.le_refl _), Nat.sub_self]
      rfl
    rw [htake]
    revert hget
    generalize pre.length = n
    match n with
    | 0 => exact fun h => nomatch h
    | 1 => exact fun _ => .inl rfl
    | 2 => exact fun h => nomatch h
    | 3 => exact fun _ => .inr (.inl rfl)
    | 4 => exact fun h => nomatch h
    | 5 => exact fun h => nomatch h
    | 6 => exact fun _ => .inr (.inr rfl)
    | n + 7 => exact fun h => nomatch h
  have horderly : Orderly ops := by
    refine ⟨by simp [ops], ?_, by decide, ?_⟩
    · intro pre post hops
      rcases hroots pre post hops with h | h | h <;> omega
    · rintro pre data post hops ⟨pre', post', rfl, hodd, hne⟩
      rw [List.append_assoc] at hops
      rcases hroots pre' _ hops with h | h | h <;> omega
  exact (incremental_root weakHash true ops horderly).2 _ [] rfl

/-- Three leaves, a root, a fourth leaf: it is pushed behind the padding node of the first
root. -/
theorem incremental_root_padded : ∃ t, runOps weakHash true
    [.pushLeaf [1], .pushLeaf [2], .pushLeaf [3], .computeRoot, .pushLeaf [4]] new = .ok t ∧
      ¬ RootIsFresh weakHash true t [[1], [2], [3], [4]] := by
  refine ⟨_, rfl, ?_⟩
  rintro ⟨root, t', fresh, hroot, hfresh, -⟩
  have hfirst : (.ok (some 206) : Call (Option UInt8)) = .ok root.bytes.head? :=
    congrArg (fun x : Call (Hash × MerkleTree) => x >>= fun r => .ok r.1.bytes.head?) hroot
  have hsecond : (.ok (some 39) : Call (Option UInt8)) = .ok root.bytes.head? :=
    congrArg (fun x : Call (Hash × MerkleTree) => x >>= fun r => .ok r.1.bytes.head?) hfresh
  exact absurd (hfirst.trans hsecond.symm) (by decide)

end MerkleTree

end Roughenough.Merkle
