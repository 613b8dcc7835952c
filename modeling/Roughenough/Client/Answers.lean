/-
# `Roughenough.Client.Answers` — which request an accepted response answers

Three fields of a response say which request it is for: NONC, INDX and PATH.
The validator looks at the last two, through `root_from_paths`, and there at as
many bits of INDX as PATH has elements:

    draft-14    the leaf is the whole packet of the request
    draft-08    the leaf is its nonce

So it is the tree under ROOT that ties a response to the request, at the
position `INDX mod 2^d`.  The NONC of a response is not read.
-/
import Roughenough.Client.Runs
import Roughenough.Merkle.Proofs

namespace Roughenough.Client

open Roughenough.Base Roughenough.Protocol Roughenough.Merkle ResponseValidator MerkleTree

/-- The requests that the constructors make. -/
inductive Constructed : Nonce → Request → Prop
  | draft14 (nonce : Nonce) : Constructed nonce (.newDraft14 nonce)
  | draft14Srv (nonce : Nonce) (server : SrvCommitment) :
      Constructed nonce (.newDraft14WithServerCommitment nonce server)
  | draft08 (nonce : Nonce) : Constructed nonce (.newDraft08 nonce)

/-- A packet says which request it is. -/
theorem Constructed.fromFrame {nonce : Nonce} {request : Request}
    (h : Constructed nonce request) :
    Request.fromFrame (framed request.encode) = .ok request ∧ request.nonc = nonce := by
  cases h with
  | draft14 => exact ⟨Request.fromFrame_newDraft14 nonce, rfl⟩
  | draft14Srv server =>
      exact ⟨Request.fromFrame_newDraft14WithServerCommitment nonce server, rfl⟩
  | draft08 => exact ⟨Request.fromFrame_newDraft08 nonce, rfl⟩

/-- `leaf` stands at position `index mod 2^d` under `root`: the path leads from there to the root,
and if the root is the root of a batch then this is its leaf at that position, or the hash is
broken. -/
structure Answers (H : Bytes → Hash) (leaf : Bytes) (index : Nat) (path : MerklePath)
    (root : Hash) : Prop where
  position : rootFromPaths H (index % 2 ^ path.depth) leaf path = root
  batch : ∀ leaves t, leaves ≠ [] →
    (computeRoot H (new.pushLeaves H leaves) : Call (Hash × MerkleTree)) = .ok (root, t) →
      Broken H (hashedInputs H new leaves index leaf path) ∨
        (path.depth = Nat.clog 2 leaves.length ∧ leaves[index % 2 ^ path.depth]? = some leaf)

theorem answers_of_proof {H : Bytes → Hash} {leaf : Bytes} {index : Nat} {path : MerklePath}
    {root : Hash} (h : rootFromPaths H index leaf path = root) :
    Answers H leaf index path root := by
  refine ⟨?_, ?_⟩
  · have hdepth : path.depth = path.elements.length := (MerklePath.elements_length path).symm
    rw [← h, hdepth, rootFromPaths, rootFromPaths, followPath_eq, followPath_eq]
    exact PaddedTree.Scheme.climb_mod index _ _
  · intro leaves t hne hrun
    have hn : 1 ≤ leaves.length := List.length_pos_of_ne_nil hne
    obtain ⟨t', hroot, -⟩ := computeRoot_ok (ε := Empty) hn (holds_pushLeaves (t := new) rfl leaves)
    cases hroot.symm.trans hrun
    exact leaf_of_root rfl hn h

/-- An accepted draft-14 response answers the request by its whole packet, from which the request
and its nonce can be read; an accepted draft-08 response answers it by the nonce. -/
theorem accepted_answers (V : Verify) (H : Bytes → Hash) (v : ResponseValidator) (b : Bytes)
    (m : UInt64) (nonce : Nonce) (request : Request)
    (hrequest : Constructed nonce request) :
    (∀ r, Response.fromFrame b = .ok r →
      validateDraft14 V H v (framed request.encode) r b = .ok m →
        Answers H (framed request.encode) r.index.toNat r.path r.srep.merkleRoot ∧
          Request.fromFrame (framed request.encode) = .ok request ∧ request.nonc = nonce) ∧
    (∀ q r, ResponseDraft08.fromFrame b = .ok r → validateDraft08 V H v q r b = .ok m →
        Answers H (slice q 40 72) r.index.toNat r.path r.srep.merkleRoot ∧
          slice (framed (Request.newDraft08 nonce).encode) 40 72 = nonce.bytes) := by
  refine ⟨?_, ?_⟩
  · intro r _ hvalid
    obtain ⟨hv, -⟩ := validateDraft14_ok_iff.mp hvalid
    exact ⟨answers_of_proof hv.proof, hrequest.fromFrame⟩
  · intro q r _ hvalid
    obtain ⟨hv, -⟩ := validateDraft08_ok_iff.mp hvalid
    exact ⟨answers_of_proof hv.proof, Request.slice_newDraft08 nonce⟩

open Network MeasurementSequence

/-- The answers of two sample servers. -/
theorem accepted_answers_sample :
    Answers digest (framed (request14 none 0).encode) 0 (reply14 2000 none 0).path
        (reply14 2000 none 0).srep.merkleRoot ∧
      Answers digest (slice (framed (request08 none 0).encode) 40 72) 0
        (reply08 2000 none 0).path (reply08 2000 none 0).srep.merkleRoot := by
  obtain ⟨hparse14, hvalid14⟩ := reply14_valid 2000 none 0 (by decide) (by decide)
  obtain ⟨hparse08, hvalid08⟩ := reply08_valid 2000 none 0 (by decide) (by decide)
  have hrequest : Constructed (nonceAfter digest none (random 0)) (request14 none 0) :=
    .draft14Srv _ _
  exact ⟨((accepted_answers verify digest (newWithKey longTermKey) _ 2000 _ _ hrequest).1 _
      hparse14 hvalid14).1,
    ((accepted_answers verify digest (newWithKey longTermKey) _ 2000 _ _ hrequest).2 _ _
      hparse08 hvalid08).1⟩

/-- Answers without a PATH: one has the NONC of no request and an INDX of 1, the other an INDX of
1. -/
theorem accepted_not_canonical :
    (∃ nonce request b r, Constructed nonce request ∧ Response.fromFrame b = .ok r ∧
      validateDraft14 verify digest (newWithKey longTermKey) (framed request.encode) r b =
        .ok 2000 ∧ r.nonce ≠ nonce ∧ ¬ r.index.toNat < 2 ^ r.path.depth) ∧
    ∃ q b r, ResponseDraft08.fromFrame b = .ok r ∧
      validateDraft08 verify digest (newWithKey longTermKey) q r b = .ok 2000 ∧
        ¬ r.index.toNat < 2 ^ r.path.depth := by
  refine ⟨?_, ?_⟩
  · obtain ⟨hparse, hvalid⟩ := replyOf_valid_with .rfcDraft14 2000 (request14 none 0) (by decide)
      (by decide) (Octets.zero 32) 1
    exact ⟨_, _, _, _, .draft14Srv _ _, hparse, hvalid, by decide, by decide⟩
  · obtain ⟨hparse, hvalid⟩ := reply08_valid_with 2000 none 0 (by decide) (by decide) 1
    exact ⟨_, _, _, hparse, hvalid, by decide⟩

end Roughenough.Client
