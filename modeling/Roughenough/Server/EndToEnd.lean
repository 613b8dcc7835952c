/-
# `Roughenough.Server.EndToEnd` — what the server sends, the client accepts

The two halves of the repository meet here: the handler of
`Server.Requests`, after any run, and the validator of `Client.Validation`,
which knows the long-term public key and nothing else about the server.

    answer_valid14      the answer to one request of a batch is accepted
    answer_valid08      the same for draft-08
    process_then_validate_iff
                        every answer to a batch of 1 to 64 is accepted, exactly
                        when the handler gets as far as answering

Of the signature scheme only `Ed25519.Correct` is used; the hash is arbitrary.
-/
import Roughenough.Client.Reencode
import Roughenough.Server.Requests

namespace Roughenough.Server

open Roughenough.Base Roughenough.Base.PaddedTree Roughenough.Protocol Roughenough.Merkle
open Roughenough.Client ParseCursor ResponseValidator ResponseHandler

/-! ## One answer -/

section Answer

variable {E : Ed25519} {H : Bytes → Hash} {identity : LongTermIdentity} {leaves : List Bytes}

/-- The proof of a leaf fits a path, and is what the path is made of. -/
theorem elements_proofOf (hmax : leaves.length ≤ 64) (i : Nat) :
    (proofOf H leaves i).length ≤ 6 ∧
      (MerklePath.ofElements (proofOf H leaves i)).normalize.elements = proofOf H leaves i := by
  have hlen : (proofOf H leaves i).length ≤ 6 := by
    rw [proofOf, Scheme.proof_length]
    exact Nat.clog_le_of_le_pow hmax
  refine ⟨hlen, ?_⟩
  rw [MerklePath.normalize_elements]
  exact MerklePath.elements_ofElements (Nat.le_trans hlen (by decide))

theorem OnlineKeyDraft14.Issued.answer_built {key : OnlineKeyDraft14}
    (h : key.Issued E identity) (now : UInt64) (root : MerkleRoot) (proof : List Hash)
    (nonce : Nonce) (index : UInt32) : (key.answer E now root proof nonce index).Built := by
  have hsrep : key.templateSrep.Built := by
    rw [h.template_eq]
    exact template_built identity.version
  exact ⟨rfl, rfl, hsrep.offset_eq, hsrep.nonempty, hsrep.ascending⟩

theorem OnlineKeyDraft08.Issued.answer_built {key : OnlineKeyDraft08}
    (h : key.Issued E identity) (now : UInt64) (root : MerkleRoot) (proof : List Hash)
    (index : UInt32) : (key.answer E now root proof index).Built := by
  have hsrep : key.templateSrep.Built := by
    rw [h.template_eq]
    exact template_built
  have hanswer : (key.answer E now root proof index).srep.Built := hsrep
  exact ⟨rfl, hanswer.accepts (by decide)⟩

/-- The frame of an answer is shorter than a request. -/
theorem answer_length14 (key : OnlineKeyDraft14) (now : UInt64) (root : MerkleRoot)
    {proof : List Hash} (hproof : proof.length ≤ 6) (nonce : Nonce) (index : UInt32) :
    (framed (key.answer E now root proof nonce index).encode).length ≤ 1024 := by
  have hvers := key.templateSrep.supportedVersions.bounded
  have hnum : (MerklePath.ofElements proof).numPaths ≤ 6 :=
    Nat.le_trans (List.length_take_le' 32 proof) hproof
  have hlen : (key.answer E now root proof nonce index).encode.length =
      400 + 32 * (MerklePath.ofElements proof).numPaths +
        4 * key.templateSrep.supportedVersions.versions.length :=
    Response.encodeWith_length (SignedResponse.spells_values _)
  rw [framed_length, hlen]
  omega

theorem answer_length08 (key : OnlineKeyDraft08) (now : UInt64) (root : MerkleRoot)
    {proof : List Hash} (hproof : proof.length ≤ 6) (index : UInt32) :
    (framed (key.answer E now root proof index).encode).length ≤ 1024 := by
  have hnum : (MerklePath.ofElements proof).numPaths ≤ 6 :=
    Nat.le_trans (List.length_take_le' 32 proof) hproof
  have hlen : (key.answer E now root proof index).encode.length =
      340 + 32 * (MerklePath.ofElements proof).numPaths := ResponseDraft08.encodeWith_length _ _
  rw [framed_length, hlen]
  omega

/-- The answer of an issued key to the leaf at `i` is accepted by whoever knows the public key of
the identity, with the clock as its midpoint. -/
theorem answer_valid14 (hE : E.Correct) {key : OnlineKeyDraft14} (h : key.Issued E identity)
    {now : UInt64} (hmint : key.cert.delegation.minTime.toNat ≤ now.toNat)
    (hmaxt : now.toNat ≤ key.cert.delegation.maxTime.toNat) (hmax : leaves.length ≤ 64)
    {i : Nat} {x : Bytes} (hx : leaves[i]? = some x) (nonce : Nonce) :
    ∃ r, Response.fromFrame (framed (key.answer E now ((MerkleTree.scheme H).root leaves)
        (proofOf H leaves i) nonce (UInt32.ofNat i)).encode) = .ok r ∧ r.nonce = nonce ∧
      validateDraft14 E.verify H (newWithKey (identity.publicKey E)) x r
        (framed (key.answer E now ((MerkleTree.scheme H).root leaves) (proofOf H leaves i) nonce
          (UInt32.ofNat i)).encode) = .ok now := by
  have hbuilt := h.answer_built now ((MerkleTree.scheme H).root leaves) (proofOf H leaves i) nonce
    (UInt32.ofNat i)
  obtain ⟨hslice, hinside⟩ := srepSlice14_built hbuilt
  obtain ⟨-, -, hoffset, -⟩ := hbuilt.offsets
  have hi : i < leaves.length := (List.getElem?_eq_some_iff.mp hx).1
  have hindex : (UInt32.ofNat i).toNat = i :=
    UInt32.toNat_ofNat_of_lt' (by rw [UInt32.size]; omega)
  have hversion : key.templateSrep.version = identity.version := by
    rw [h.template_eq]
    rfl
  refine ⟨_, hbuilt.fromFrame, rfl, validateDraft14_ok_iff.mpr ⟨?_, rfl⟩⟩
  refine ⟨⟨?_, hmint, hmaxt, ?_⟩, ?_, ?_, ?_, hinside, ?_⟩
  · intro K hK
    cases hK
    show E.verify (E.publicKey identity.seed) (key.templateSrep.version.delePrefix ++ _) _ = true
    rw [hversion]
    show E.verify _ (_ ++ key.cert.delegation.encode) key.cert.signature = true
    rw [h.certifies.signed]
    exact hE _ _
  · show key.templateSrep.radius ≠ 0
    rw [h.template_eq]
    exact (by decide : SignedResponse.defaultRadiSeconds ≠ 0)
  · show key.templateSrep.supportedVersions.isSupported key.templateSrep.version = true
    rw [h.template_eq]
    cases identity.version with
    | rfcDraft08 => decide
    | rfcDraft14 => decide
  · show MerkleTree.rootFromPaths H (UInt32.ofNat i).toNat x _ = _
    rw [hindex]
    exact MerkleTree.rootFromPaths_proof hx (elements_proofOf hmax i).2
  · exact Nat.le.intro hoffset.symm
  · rw [hslice]
    have hspell : ∀ v : ProtocolVersion, v.srepPrefix = ProtocolVersion.rfcDraft14.srepPrefix := by
      intro v
      cases v <;> rfl
    show E.verify key.cert.delegation.publicKey (_ ++ _) _ = true
    rw [hspell, h.certifies.pubk]
    exact hE _ _

theorem answer_valid08 (hE : E.Correct) {key : OnlineKeyDraft08} (h : key.Issued E identity)
    {now : UInt64} (hmint : key.cert.delegation.minTime.toNat ≤ now.toNat)
    (hmaxt : now.toNat ≤ key.cert.delegation.maxTime.toNat) (hmax : leaves.length ≤ 64)
    {i : Nat} {x : Bytes} (hx : leaves[i]? = some x) (request : Bytes)
    (hlong : 72 ≤ request.length) (hleaf : slice request 40 72 = x) :
    ∃ r, ResponseDraft08.fromFrame (framed (key.answer E now ((MerkleTree.scheme H).root leaves)
        (proofOf H leaves i) (UInt32.ofNat i)).encode) = .ok r ∧
      validateDraft08 E.verify H (newWithKey (identity.publicKey E)) request r
        (framed (key.answer E now ((MerkleTree.scheme H).root leaves) (proofOf H leaves i)
          (UInt32.ofNat i)).encode) = .ok now := by
  have hbuilt := h.answer_built now ((MerkleTree.scheme H).root leaves) (proofOf H leaves i)
    (UInt32.ofNat i)
  obtain ⟨hslice, hinside⟩ := srepSlice08_built hbuilt
  obtain ⟨-, -, hoffset, -⟩ := hbuilt.offsets
  have hi : i < leaves.length := (List.getElem?_eq_some_iff.mp hx).1
  have hindex : (UInt32.ofNat i).toNat = i :=
    UInt32.toNat_ofNat_of_lt' (by rw [UInt32.size]; omega)
  refine ⟨_, hbuilt.fromFrame, validateDraft08_ok_iff.mpr ⟨?_, rfl⟩⟩
  refine ⟨⟨?_, hmint, hmaxt, ?_⟩, hlong, ?_, ?_, hinside, ?_⟩
  · intro K hK
    cases hK
    show E.verify _ (_ ++ key.cert.delegation.encode) key.cert.signature = true
    rw [h.certifies.signed]
    exact hE _ _
  · show key.templateSrep.radius ≠ 0
    rw [h.template_eq]
    exact (by decide : SignedResponseDraft08.defaultRadiSeconds ≠ 0)
  · show MerkleTree.rootFromPaths H (UInt32.ofNat i).toNat (slice request 40 72) _ = _
    rw [hindex, hleaf]
    exact MerkleTree.rootFromPaths_proof hx (elements_proofOf hmax i).2
  · exact Nat.le.intro hoffset.symm
  · rw [hslice]
    show E.verify key.cert.delegation.publicKey (_ ++ _) _ = true
    rw [h.certifies.pubk]
    exact hE _ _

theorem frames_getElem? (encode : List Hash → PendingRequest → UInt32 → Bytes)
    {requests : List PendingRequest} {i : Nat} {p : PendingRequest} (hp : requests[i]? = some p) :
    (frames H encode leaves requests 0)[i]? =
      some (p.srcAddr, framed (encode (proofOf H leaves i) p (UInt32.ofNat i))) := by
  unfold frames
  rw [List.getElem?_map, List.getElem?_zipIdx, hp, Nat.zero_add]
  rfl

theorem frames_length (encode : List Hash → PendingRequest → UInt32 → Bytes)
    (requests : List PendingRequest) :
    (frames H encode leaves requests 0).length = requests.length := by
  rw [frames, List.length_map, List.length_zipIdx]

end Answer

/-! ## Whole batches -/

section Batches

variable (E : Ed25519) (H : Bytes → Hash) (debug : Bool)

/-- Every request of the batch gets one frame, not longer than itself, that is read, carries its
nonce and is accepted with the clock as its time. -/
def Answered14 (h : ResponseHandler) (now : UInt64) (batch : List Datagram) : Prop :=
  ∃ outs h', h.processResponses E H debug now = .ok (outs, h') ∧ outs.length = batch.length ∧
    ∀ (i : Nat) (d : Datagram), batch[i]? = some d → ∃ frame r, outs[i]? = some (d.srcAddr, frame) ∧
      frame.length ≤ d.bytes.length ∧ Response.fromFrame frame = .ok r ∧
      r.nonce = d.request.nonc ∧
      validateDraft14 E.verify H (newWithKey (h.keySource.publicKey E)) d.bytes r frame = .ok now

/-- The same in draft-08, where a response has no nonce. -/
def Answered08 (h : ResponseHandler) (now : UInt64) (batch : List Datagram) : Prop :=
  ∃ outs h', h.processResponses E H debug now = .ok (outs, h') ∧ outs.length = batch.length ∧
    ∀ (i : Nat) (d : Datagram), batch[i]? = some d → ∃ frame r, outs[i]? = some (d.srcAddr, frame) ∧
      frame.length ≤ d.bytes.length ∧ ResponseDraft08.fromFrame frame = .ok r ∧
      validateDraft08 E.verify H (newWithKey (h.keySource.publicKey E)) d.bytes r frame = .ok now

variable {E H debug}

/-- What stands between a handler and its answers to a batch of `n`: in a debug build, the slot
of the histogram and the assertion on the certificate. -/
def Clear (debug : Bool) (h : ResponseHandler) (n : Nat) : Prop :=
  debug = true →
    (h.responseMetrics.batches n).toNat < 255 ∧ h.onlineKey.cert ≠ Certificate.default

variable {h : ResponseHandler} {batch : List Datagram}

theorem Holding.length_eq (hh : Holding E H h batch) : h.requests.length = batch.length := by
  rw [hh.requests, List.length_map]

/-- A handler that is not hindered answers the batch it holds. -/
theorem Holding.process_ok (hh : Holding E H h batch) (hpos : 1 ≤ batch.length)
    (hmax : batch.length ≤ 64) (hclear : Clear debug h batch.length) (now : UInt64) :
    ∃ h', h.processResponses E H debug now =
      .ok (answersTo E H h.onlineKey h.protocolVersion now batch, h') := by
  have hlen := hh.length_eq
  have hready : h.Ready debug := by
    refine ⟨by omega, ?_, fun hd => (hclear hd).2⟩
    rw [hlen]
    exact fun hd => (hclear hd).1
  have hne : h.requests ≠ [] := List.ne_nil_of_length_pos (by omega)
  obtain ⟨h', hrun⟩ := processResponses_ok now hh.sound hready hne hh.leaves
    (by rw [hlen, List.length_map])
  rw [hh.requests] at hrun
  exact ⟨h', hrun⟩

/-- And one that answered it was not hindered. -/
theorem Holding.clear_of_process (hh : Holding E H h batch) (hpos : 1 ≤ batch.length)
    (hmax : batch.length ≤ 64) {now : UInt64} {outs : List (SocketAddr × Bytes)}
    {h' : ResponseHandler} (hrun : h.processResponses E H debug now = .ok (outs, h')) :
    Clear debug h batch.length := by
  have hlen := hh.length_eq
  have hne : h.requests ≠ [] := List.ne_nil_of_length_pos (by omega)
  obtain ⟨hready, -⟩ := (processResponses_processed hh.sound hne hrun).ready hne (by omega)
  intro hd
  refine ⟨?_, hready.cert hd⟩
  rw [← hlen]
  exact hready.slot hd

theorem Holding.answered14 (hE : E.Correct) (hh : Holding E H h batch)
    (hversion : h.protocolVersion = .rfcDraft14) (hpos : 1 ≤ batch.length)
    (hmax : batch.length ≤ 64) (hclear : Clear debug h batch.length) {now : UInt64}
    (hmint : h.onlineKey.cert.delegation.minTime.toNat ≤ now.toNat)
    (hmaxt : now.toNat ≤ h.onlineKey.cert.delegation.maxTime.toNat) :
    Answered14 E H debug h now batch := by
  obtain ⟨h', hrun⟩ := hh.process_ok hpos hmax hclear now
  refine ⟨_, h', hrun, by rw [answersTo, OnlineKey.answers, frames_length, List.length_map], ?_⟩
  intro i d hd
  have hsound := hh.sound
  unfold Sound at hsound
  rw [hversion] at hsound ⊢
  cases honline : h.onlineKey with
  | draft08 key =>
      rw [honline] at hsound
      exact hsound.elim
  | draft14 key =>
      rw [honline] at hsound hmint hmaxt
      have hleaf : (batch.map (Datagram.leaf .rfcDraft14))[i]? = some d.bytes := by
        rw [List.getElem?_map, hd]
        rfl
      have hpending : (batch.map Datagram.pending)[i]? = some d.pending := by
        rw [List.getElem?_map, hd]
        rfl
      have hmax' : (batch.map (Datagram.leaf .rfcDraft14)).length ≤ 64 := by
        rw [List.length_map]
        exact hmax
      obtain ⟨r, hparse, hnonce, hvalid⟩ := answer_valid14 (H := H) hE hsound hmint hmaxt hmax'
        hleaf d.request.nonc
      refine ⟨_, r, frames_getElem? _ hpending, ?_, hparse, hnonce, hvalid⟩
      rw [Request.fromFrame_length d.accepted]
      exact answer_length14 key now _ (elements_proofOf hmax' i).1 _ _

theorem Holding.answered08 (hE : E.Correct) (hh : Holding E H h batch)
    (hversion : h.protocolVersion = .rfcDraft08)
    (hreq : ∀ d ∈ batch, ∃ nonce, d.bytes = framed (Request.newDraft08 nonce).encode)
    (hpos : 1 ≤ batch.length) (hmax : batch.length ≤ 64) (hclear : Clear debug h batch.length)
    {now : UInt64} (hmint : h.onlineKey.cert.delegation.minTime.toNat ≤ now.toNat)
    (hmaxt : now.toNat ≤ h.onlineKey.cert.delegation.maxTime.toNat) :
    Answered08 E H debug h now batch := by
  obtain ⟨h', hrun⟩ := hh.process_ok hpos hmax hclear now
  refine ⟨_, h', hrun, by rw [answersTo, OnlineKey.answers, frames_length, List.length_map], ?_⟩
  intro i d hd
  obtain ⟨nonce, hbytes⟩ := hreq d (List.mem_of_getElem? hd)
  -- the request that was parsed is the one that was built
  have hnonce : d.request.nonc = nonce := by
    have hparse := d.accepted
    rw [hbytes, Request.fromFrame_newDraft08] at hparse
    rw [← Outcome.ok.inj hparse]
    rfl
  have hsound := hh.sound
  unfold Sound at hsound
  rw [hversion] at hsound ⊢
  cases honline : h.onlineKey with
  | draft14 key =>
      rw [honline] at hsound
      exact hsound.elim
  | draft08 key =>
      rw [honline] at hsound hmint hmaxt
      have hleaf : (batch.map (Datagram.leaf .rfcDraft08))[i]? = some nonce.bytes := by
        rw [List.getElem?_map, hd, ← hnonce]
        rfl
      have hpending : (batch.map Datagram.pending)[i]? = some d.pending := by
        rw [List.getElem?_map, hd]
        rfl
      have hmax' : (batch.map (Datagram.leaf .rfcDraft08)).length ≤ 64 := by
        rw [List.length_map]
        exact hmax
      have hlong := Request.fromFrame_length d.accepted
      obtain ⟨r, hparse, hvalid⟩ := answer_valid08 (H := H) hE hsound hmint hmaxt hmax' hleaf
        d.bytes (by omega) (by rw [hbytes]; exact Request.slice_newDraft08 nonce)
      refine ⟨_, r, frames_getElem? _ hpending, ?_, hparse, hvalid⟩
      rw [hlong]
      exact answer_length08 key now _ (elements_proofOf hmax' i).1 _

/-- After any run, a batch of 1 to 64 accepted datagrams and a clock inside the delegation: every
request is answered and every answer accepted, exactly when a debug build finds the slot of the
histogram not full and a certificate that is not the default.  A release build always does. -/
theorem process_then_validate_iff (E : Ed25519) (hE : E.Correct) (H : Bytes → Hash) (debug : Bool)
    (c : Config) (events : List Event) (h : RequestHandler) (now : UInt64)
    (hrun : serve E H debug c events = .ok h) (hpos : 1 ≤ (openBatch events).length)
    (hmax : (openBatch events).length ≤ 64)
    (hmint : h.responder.onlineKey.cert.delegation.minTime.toNat ≤ now.toNat)
    (hmaxt : now.toNat ≤ h.responder.onlineKey.cert.delegation.maxTime.toNat) :
    (c.protocolVersion = .rfcDraft14 →
      (Answered14 E H debug h.responder now (openBatch events) ↔
        (debug = true →
          (h.responder.responseMetrics.batches (openBatch events).length).toNat < 255 ∧
            h.responder.onlineKey.cert ≠ Certificate.default))) ∧
    (c.protocolVersion = .rfcDraft08 →
      (∀ d ∈ openBatch events, ∃ nonce, d.bytes = framed (Request.newDraft08 nonce).encode) →
      (Answered08 E H debug h.responder now (openBatch events) ↔
        (debug = true →
          (h.responder.responseMetrics.batches (openBatch events).length).toNat < 255 ∧
            h.responder.onlineKey.cert ≠ Certificate.default))) := by
  obtain ⟨hh, -⟩ := serve_holding hrun
  obtain ⟨-, hversion⟩ := serve_settings hrun
  refine ⟨?_, ?_⟩
  · intro h14
    constructor
    · intro ⟨outs, h', hprocess, _⟩
      exact hh.clear_of_process hpos hmax hprocess
    · intro hclear
      exact hh.answered14 hE (hversion.trans h14) hpos hmax hclear hmint hmaxt
  · intro h08 hreq
    constructor
    · intro ⟨outs, h', hprocess, _⟩
      exact hh.clear_of_process hpos hmax hprocess
    · intro hclear
      exact hh.answered08 hE (hversion.trans h08) hreq hpos hmax hclear hmint hmaxt

end Batches

/-! ## The sample server -/

namespace Sample

/-- A certificate is good from 1000 to 4600. -/
def delegated (o : Call ResponseHandler) : Bool :=
  match o with
  | .ok r =>
      decide (r.onlineKey.cert.delegation.minTime = 1000 ∧
        r.onlineKey.cert.delegation.maxTime = 4600)
  | _ => false

theorem new_delegated :
    ∃ r, ResponseHandler.new ed25519 64 (keySource .rfcDraft14) .rfcDraft14
        (config .rfcDraft14).draw = .ok r ∧ r.onlineKey.cert ≠ Certificate.default ∧
      r.onlineKey.cert.delegation.minTime = 1000 ∧ r.onlineKey.cert.delegation.maxTime = 4600 := by
  obtain ⟨r, hnew, hcert⟩ := new_certified .rfcDraft14
  have hcheck : delegated (ResponseHandler.new ed25519 64 (keySource .rfcDraft14) .rfcDraft14
      (config .rfcDraft14).draw) = true := by
    decide +kernel
  rw [hnew] at hcheck
  exact ⟨r, hnew, hcert, of_decide_eq_true hcheck⟩

end Sample

open Sample

/-- One request to a fresh server, in a debug build: it is answered. -/
theorem process_then_validate_first :
    ∃ h, serve ed25519 digest true (config .rfcDraft14)
        [.collect datagram.bytes datagram.srcAddr] = .ok h ∧
      Answered14 ed25519 digest true h.responder 2000 [datagram] := by
  obtain ⟨r, hnew, hcert, hmint, hmaxt⟩ := new_delegated
  obtain ⟨-, hmetrics, m, hrun⟩ := serve_first (c := config .rfcDraft14) (H := digest)
    datagram hnew (by decide)
  have hbatch := openBatch_single datagram
  have hone : (openBatch [.collect datagram.bytes datagram.srcAddr]).length = 1 := by
    rw [hbatch]
    rfl
  have hiff := (process_then_validate_iff ed25519 ed25519_correct digest true
    (config .rfcDraft14) _ _ 2000 hrun (by rw [hone]) (by rw [hone]; decide)
    (by show r.onlineKey.cert.delegation.minTime.toNat ≤ _; rw [hmint]; decide)
    (by show _ ≤ r.onlineKey.cert.delegation.maxTime.toNat; rw [hmaxt]; decide)).1 rfl
  rw [hone, hbatch] at hiff
  refine ⟨_, hrun, hiff.mpr fun _ => ⟨?_, hcert⟩⟩
  show (r.responseMetrics.batches 1).toNat < 255
  rw [hmetrics]
  decide

/-- The 256th request in a row, each alone in its batch and the clock inside the delegation: the
debug build panics over it. -/
theorem flood_panics_unanswered :
    openBatch (flood datagram 2000) = [datagram] ∧
    ∃ h, serve ed25519 digest true (config .rfcDraft14) (flood datagram 2000) = .ok h ∧
      h.responder.onlineKey.cert.delegation.minTime.toNat ≤ 2000 ∧
      2000 ≤ h.responder.onlineKey.cert.delegation.maxTime.toNat ∧
      h.responder.processResponses ed25519 digest true 2000 = .panic ∧
      ¬ Answered14 ed25519 digest true h.responder 2000 [datagram] := by
  obtain ⟨r, hnew, hcert, hmint, hmaxt⟩ := new_delegated
  obtain ⟨h, hrun, hsame, hpanic⟩ :=
    flood_panics (H := digest) (config .rfcDraft14) datagram 2000 hnew (by decide) hcert
  refine ⟨openBatch_flood _ _, h, hrun, ?_, ?_, hpanic 2000, ?_⟩
  · rw [hsame, hmint]
    decide
  · rw [hsame, hmaxt]
    decide
  · intro ⟨outs, h', hprocess, _⟩
    rw [hpanic] at hprocess
    cases hprocess

end Roughenough.Server
