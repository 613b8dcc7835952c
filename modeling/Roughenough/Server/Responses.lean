/-
# `Roughenough.Server.Responses` — the response handler

`roughenough-server/src/responses.rs`, with `ResponseMetrics` of
`metrics/types.rs`.  The handler keeps one Merkle tree, one `MerklePath`, one
output buffer and one online key across batches and overwrites them in place.

The callback of `process_responses` becomes the list of what it was called
with.  A panic loses that list, as a worker that panics answers nobody else.

`debug` is the build: `debug_assert!` and the overflow checks of `+` are on in
a debug build and off in a release build.

The main result is `processResponses_ok`: whatever an earlier batch left in
the tree, the path and the buffers, the responses are

    frames … leaves requests

a function of the key, the clock and the batch alone.
-/
import Roughenough.Merkle.Tree
import Roughenough.Server.Keys

namespace Roughenough.Server

open Roughenough.Base Roughenough.Base.PaddedTree Roughenough.Protocol Roughenough.Merkle
open ParseCursor

/-! ## Metrics -/

/-- `num_responses` and `num_bytes_sent` are of `usize`, here `Nat`: an answer adds one, and its
length, and they are reset with every snapshot, so that on a 64-bit machine no worker comes near the
bound.  `batch_sizes` are bytes, and go around or panic as bytes do. -/
structure ResponseMetrics where
  numResponses : Nat
  numBytesSent : Nat
  batchSizes : Octets 64
  deriving DecidableEq

namespace ResponseMetrics

def maxBatchSize : Nat := 64

def default : ResponseMetrics := ⟨0, 0, Octets.zero 64⟩

/-- How many batches of `n` requests were counted. -/
def batches (m : ResponseMetrics) (n : Nat) : UInt8 := m.batchSizes.bytes.getD (n - 1) 0

/-- `add_batch_size`.  Outside 1..=64 there is no slot: `batch_size as usize - 1` underflows, or
the index is out of range.  The slot is a `u8`, and `+= 1` is checked in a debug build. -/
def addBatchSize (debug : Bool) (m : ResponseMetrics) (batchSize : UInt8) :
    Call ResponseMetrics := do
  Outcome.assert (debug = true → 0 < batchSize.toNat ∧ batchSize.toNat ≤ maxBatchSize)
  Outcome.assert (0 < batchSize.toNat ∧ batchSize.toNat ≤ m.batchSizes.bytes.length)
  Outcome.assert (debug = true → (m.batches batchSize.toNat).toNat < 255)
  pure
    { m with
      numResponses := m.numResponses + batchSize.toNat
      batchSizes :=
        ⟨m.batchSizes.bytes.set (batchSize.toNat - 1) (m.batches batchSize.toNat + 1), by
          rw [List.length_set, m.batchSizes.size_eq]⟩ }

def addBytesSent (m : ResponseMetrics) (numBytes : Nat) : ResponseMetrics :=
  { m with numBytesSent := m.numBytesSent + numBytes }

def resetMetrics (_ : ResponseMetrics) : ResponseMetrics := default

theorem addBatchSize_ok_iff {debug : Bool} {m m' : ResponseMetrics} {n : Nat}
    (h1 : 1 ≤ n) (h64 : n ≤ 64) : m.addBatchSize debug (UInt8.ofNat n) = .ok m' ↔
      (debug = true → (m.batches n).toNat < 255) ∧
        m' = { m with
          numResponses := m.numResponses + n
          batchSizes := ⟨m.batchSizes.bytes.set (n - 1) (m.batches n + 1), by
            rw [List.length_set, m.batchSizes.size_eq]⟩ } := by
  have hn : (UInt8.ofNat n).toNat = n := UInt8.toNat_ofNat_of_lt' (by rw [UInt8.size]; omega)
  simp only [addBatchSize, Outcome.bind_ok_iff, Outcome.assert_ok_iff,
    Outcome.pure_eq, Outcome.ok.injEq, hn, Octets.bytes_length]
  constructor
  · rintro ⟨_, _, _, _, _, hslot, hm⟩
    exact ⟨hslot, hm.symm⟩
  · rintro ⟨hslot, hm⟩
    exact ⟨(), fun _ => ⟨h1, h64⟩, (), ⟨h1, h64⟩, (), hslot, hm.symm⟩

/-- A debug build panics when the slot of a batch size is full. -/
theorem addBatchSize_full {m : ResponseMetrics} {n : Nat} (h1 : 1 ≤ n) (h64 : n ≤ 64)
    (hfull : m.batches n = 255) : m.addBatchSize true (UInt8.ofNat n) = .panic := by
  cases hrun : m.addBatchSize true (UInt8.ofNat n) with
  | ok m' =>
      have hslot := ((addBatchSize_ok_iff h1 h64).mp hrun).1 rfl
      rw [hfull] at hslot
      exact absurd hslot (by decide)
  | err e => exact e.elim
  | panic => rfl

end ResponseMetrics

/-! ## The handler -/

structure PendingRequest where
  request : Request
  srcAddr : SocketAddr
  deriving DecidableEq

inductive OnlineKey where
  | draft14 (key : OnlineKeyDraft14)
  | draft08 (key : OnlineKeyDraft08)
  deriving DecidableEq

structure ResponseHandler where
  batchSize : Nat
  merkleTree : MerkleTree
  merklePath : MerklePath
  keySource : KeySource
  onlineKey : OnlineKey
  responseMetrics : ResponseMetrics
  requests : List PendingRequest
  responseBuf : Octets 1024
  protocolVersion : ProtocolVersion

/-- An online key of the version the handler speaks. -/
def KeySource.makeOnlineKey (E : Ed25519) (source : KeySource) (version : ProtocolVersion)
    (draw : Draw) : Call OnlineKey :=
  match version with
  | .rfcDraft08 => do
      let key ← source.makeOnlineKeyDraft08 E draw
      pure (.draft08 key)
  | .rfcDraft14 => do
      let key ← source.makeOnlineKeyDraft14 E draw
      pure (.draft14 key)

/-- A response as the loops of `process_responses` see it: its `wire_size` and its `to_wire`,
for the path to its leaf, the request and the index. -/
abbrev Message := MerklePath → PendingRequest → UInt32 → Nat × Wire Unit

namespace ResponseHandler

variable (E : Ed25519) (H : Bytes → Hash)

def new (batchSize : UInt8) (keySource : KeySource) (protocolVersion : ProtocolVersion)
    (draw : Draw) : Call ResponseHandler := do
  let onlineKey ← keySource.makeOnlineKey E protocolVersion draw
  pure
    { batchSize := batchSize.toNat
      merkleTree := MerkleTree.new.reserve batchSize.toNat
      merklePath := MerklePath.default
      keySource := keySource
      onlineKey := onlineKey
      responseMetrics := ResponseMetrics.default
      requests := []
      responseBuf := Octets.zero 1024
      protocolVersion := protocolVersion }

/-- The leaf of a request: its nonce in draft-08, the whole datagram in draft-14. -/
def leafOf (version : ProtocolVersion) (requestBytes : Bytes) (request : Request) : Bytes :=
  match version with
  | .rfcDraft08 => request.nonc.bytes
  | .rfcDraft14 => requestBytes

def addRequest (debug : Bool) (h : ResponseHandler) (requestBytes : Bytes) (request : Request)
    (srcAddr : SocketAddr) : Call ResponseHandler := do
  Outcome.assert (debug = true → h.requests.length < h.batchSize)
  pure
    { h with
      merkleTree := h.merkleTree.pushLeaf H (leafOf h.protocolVersion requestBytes request)
      requests := h.requests ++ [⟨request, srcAddr⟩] }

def replaceOnlineKey (h : ResponseHandler) (draw : Draw) : Call ResponseHandler := do
  let onlineKey ← h.keySource.makeOnlineKey E h.protocolVersion draw
  pure { h with onlineKey := onlineKey }

/-- One round of the loops of `process_responses_draft14` and `process_responses_draft08`: what
the callback gets, and the handler after it. -/
def respond (debug : Bool) (message : Message) (index : Nat) (pending : PendingRequest)
    (h : ResponseHandler) : Call ((SocketAddr × Bytes) × ResponseHandler) := do
  let path ← h.merkleTree.getPathsTo debug index h.merklePath.clear
  let response := message path pending (UInt32.ofNat index)
  let responseBuf ← (inArray h.responseBuf (toFrame response.1 response.2)).expect
  let frameSize := response.1 + frameOverhead
  let frame ← sliceOrPanic responseBuf.bytes 0 frameSize
  pure ((pending.srcAddr, frame),
    { h with
      merklePath := path
      responseBuf := responseBuf
      responseMetrics := h.responseMetrics.addBytesSent frameSize })

/-- The loops: the requests from `index` on. -/
def respondAll (debug : Bool) (message : Message) :
    Nat → List PendingRequest → ResponseHandler →
      Call (List (SocketAddr × Bytes) × ResponseHandler)
  | _, [], h => pure ([], h)
  | index, pending :: later, h => do
      let (out, h) ← respond debug message index pending h
      let (outs, h) ← respondAll debug message (index + 1) later h
      pure (out :: outs, h)

/-- The tags common to all responses of a batch. -/
def responseCommon14 (cert : Certificate) (srep : SignedResponse) (sig : Signature) : Response :=
  ((Response.default.setCert cert).setSrep srep).setSig sig

def responseCommon08 (cert : Certificate) (srep : SignedResponseDraft08) (sig : Signature) :
    ResponseDraft08 :=
  ((ResponseDraft08.default.setCert cert).setSrep srep).setSig sig

def message14 (common : Response) : Message := fun path pending index =>
  let response := ((common.copyPath path).setNonc pending.request.nonc).setIndx index
  (response.wireSize, response.toWire)

def message08 (common : ResponseDraft08) : Message := fun path _ index =>
  let response := (common.copyPath path).setIndx index
  (response.wireSize, response.toWire)

def processResponsesDraft14 (debug : Bool) (now : UInt64) (h : ResponseHandler)
    (merkleRoot : MerkleRoot) : Call (List (SocketAddr × Bytes) × ResponseHandler) :=
  match h.onlineKey with
  | .draft14 key => do
      let cert ← key.getCert debug
      let ((srep, sig), key) ← key.makeSrep E now merkleRoot
      respondAll debug (message14 (responseCommon14 cert srep sig)) 0 h.requests
        { h with onlineKey := .draft14 key }
  | .draft08 _ => .panic

def processResponsesDraft08 (debug : Bool) (now : UInt64) (h : ResponseHandler)
    (merkleRoot : MerkleRoot) : Call (List (SocketAddr × Bytes) × ResponseHandler) :=
  match h.onlineKey with
  | .draft08 key => do
      let cert ← key.getCert debug
      let ((srep, sig), key) ← key.makeSrep E now merkleRoot
      respondAll debug (message08 (responseCommon08 cert srep sig)) 0 h.requests
        { h with onlineKey := .draft08 key }
  | .draft14 _ => .panic

def processResponses (debug : Bool) (now : UInt64) (h : ResponseHandler) :
    Call (List (SocketAddr × Bytes) × ResponseHandler) :=
  if h.requests = [] then pure ([], h)
  else do
    let metrics ← h.responseMetrics.addBatchSize debug (UInt8.ofNat h.requests.length)
    let (rootHash, tree) ← h.merkleTree.computeRoot H
    let h := { h with responseMetrics := metrics, merkleTree := tree }
    match h.protocolVersion with
    | .rfcDraft08 => processResponsesDraft08 E debug now h rootHash
    | .rfcDraft14 => processResponsesDraft14 E debug now h rootHash

def publicKey (h : ResponseHandler) : PublicKey :=
  match h.onlineKey with
  | .draft14 key => E.publicKey key.signer
  | .draft08 key => E.publicKey key.signer

def clear (h : ResponseHandler) : ResponseHandler :=
  { h with merkleTree := h.merkleTree.clear, requests := [] }

def resetMetrics (h : ResponseHandler) : ResponseHandler :=
  { h with responseMetrics := h.responseMetrics.resetMetrics }

/-! ## One batch -/

/-- The proof of leaf `i`. -/
def proofOf (leaves : List Bytes) (i : Nat) : List Hash :=
  (MerkleTree.scheme H).proof leaves i 0 (Nat.clog 2 leaves.length)

/-- What a batch is answered with: for the request at `i`, the frame of `encode` at the proof of
leaf `i`. -/
def frames (encode : List Hash → PendingRequest → UInt32 → Bytes) (leaves : List Bytes)
    (requests : List PendingRequest) (start : Nat) : List (SocketAddr × Bytes) :=
  (requests.zipIdx start).map fun (pending, i) =>
    (pending.srcAddr, framed (encode (proofOf H leaves i) pending (UInt32.ofNat i)))

/-- The messages are written as `encode` says, and fit the output buffer for a path of six. -/
structure Encodes (message : Message)
    (encode : List Hash → PendingRequest → UInt32 → Bytes) : Prop where
  writes : ∀ path pending i, Writes (message path pending i).2 (encode path.elements pending i)
  size : ∀ path pending i, (encode path.elements pending i).length = (message path pending i).1
  fits : ∀ path pending i, path.numPaths ≤ 6 → (message path pending i).1 ≤ 1012

/-- The loops leave everything but the path, the buffer and the count of bytes alone. -/
def Kept (h h' : ResponseHandler) : Prop :=
  ∃ path buf bytes, h' = { h with
    merklePath := path
    responseBuf := buf
    responseMetrics := { h.responseMetrics with numBytesSent := bytes } }

variable {E H}

theorem Kept.trans {h h' h'' : ResponseHandler} (h₁ : Kept h h') (h₂ : Kept h' h'') :
    Kept h h'' := by
  obtain ⟨_, _, _, rfl⟩ := h₁
  obtain ⟨path, buf, bytes, rfl⟩ := h₂
  exact ⟨path, buf, bytes, rfl⟩

variable {leaves : List Bytes} {stale : List (List Hash)} {message : Message}
  {encode : List Hash → PendingRequest → UInt32 → Bytes}

theorem respond_kept {debug : Bool} {index : Nat} {pending : PendingRequest}
    {h h' : ResponseHandler} {out : SocketAddr × Bytes}
    (hrun : respond debug message index pending h = .ok (out, h')) : Kept h h' := by
  simp only [respond, Outcome.bind_ok_iff, Outcome.pure_eq, Outcome.ok.injEq,
    Prod.mk.injEq] at hrun
  obtain ⟨path, -, buf, -, frame, -, -, rfl⟩ := hrun
  exact ⟨path, buf, _, rfl⟩

theorem respondAll_kept {debug : Bool} {start : Nat} {requests : List PendingRequest}
    {h h' : ResponseHandler} {outs : List (SocketAddr × Bytes)}
    (hrun : respondAll debug message start requests h = .ok (outs, h')) : Kept h h' := by
  induction requests generalizing start h outs with
  | nil =>
      cases hrun
      exact ⟨_, _, _, rfl⟩
  | cons pending later ih =>
      simp only [respondAll, Outcome.bind_ok_iff, Outcome.pure_eq, Outcome.ok.injEq,
        Prod.mk.injEq] at hrun
      obtain ⟨⟨out, h₁⟩, hfirst, ⟨outs', h₂⟩, hlater, -, rfl⟩ := hrun
      exact (respond_kept hfirst).trans (ih hlater)

/-- A message that fits the buffer is framed at its start. -/
theorem Encodes.framed_in (henc : Encodes message encode) (path : MerklePath)
    (pending : PendingRequest) (index : UInt32) (buf : Octets 1024)
    (hroom : (message path pending index).1 + frameOverhead ≤ 1024) :
    ∃ buf', inArray buf (toFrame (message path pending index).1 (message path pending index).2) =
        .ok buf' ∧
      slice buf'.bytes 0 ((message path pending index).1 + frameOverhead) =
        framed (encode path.elements pending index) := by
  have hsize := henc.size path pending index
  have hlen : (framed (encode path.elements pending index)).length =
      (message path pending index).1 + frameOverhead := by
    rw [framed_length, hsize, Nat.add_comm]
    rfl
  obtain ⟨buf', hbuf, htake⟩ := inArray_writes
    (toFrame_writes (henc.writes path pending index) hsize) buf (by rw [hlen]; exact hroom)
  refine ⟨buf', hbuf, ?_⟩
  rw [slice_zero_take, ← hlen]
  exact htake

/-- One round: the frame of the request at `index`, whatever was in the path and the buffer. -/
theorem respond_ok (debug : Bool) (henc : Encodes message encode) {h : ResponseHandler}
    (htree : h.merkleTree.Computed H leaves stale) (hmax : leaves.length ≤ 64) {index : Nat}
    (hi : index < leaves.length) (pending : PendingRequest) :
    ∃ h', respond debug message index pending h = .ok ((pending.srcAddr, framed (encode
      (proofOf H leaves index) pending (UInt32.ofNat index))), h') := by
  have hclear : h.merklePath.clear.numPaths = 0 := rfl
  obtain ⟨path, hpath, hnum, helem⟩ := MerkleTree.getPathsTo_ok (ε := Empty) debug hclear htree hi
    (Nat.le_trans hmax (by decide))
  have hdepth : path.numPaths ≤ 6 := by
    rw [hnum]
    exact Nat.clog_le_of_le_pow hmax
  have hproof : path.elements = proofOf H leaves index := helem
  have hroom : (message path pending (UInt32.ofNat index)).1 + frameOverhead ≤ 1024 :=
    Nat.add_le_add_right (henc.fits path pending (UInt32.ofNat index) hdepth) 12
  obtain ⟨buf, hbuf, hframe⟩ := henc.framed_in path pending (UInt32.ofNat index) h.responseBuf
    hroom
  rw [hproof] at hframe
  have hslice : (sliceOrPanic buf.bytes 0 ((message path pending (UInt32.ofNat index)).1 +
      frameOverhead) : Call Bytes) =
        .ok (framed (encode (proofOf H leaves index) pending (UInt32.ofNat index))) := by
    refine sliceOrPanic_ok_iff.mpr ⟨⟨Nat.zero_le _, ?_⟩, hframe⟩
    rw [buf.size_eq]
    exact hroom
  simp only [respond, hpath, Outcome.ok_bind, hbuf, Outcome.expect_ok, hslice, Outcome.pure_eq,
    Outcome.ok.injEq, Prod.mk.injEq, true_and, exists_eq']

/-- Whatever the size of the tree: a round that returns sends the frame of the request, with the
path that was found for it. -/
theorem respond_sent {debug : Bool} (henc : Encodes message encode) {index : Nat}
    {pending : PendingRequest} {h h' : ResponseHandler} {out : SocketAddr × Bytes}
    (hrun : respond debug message index pending h = .ok (out, h')) :
    ∃ proof, out = (pending.srcAddr, framed (encode proof pending (UInt32.ofNat index))) := by
  simp only [respond, Outcome.bind_ok_iff, Outcome.pure_eq, Outcome.ok.injEq, Prod.mk.injEq,
    sliceOrPanic_ok_iff] at hrun
  obtain ⟨path, -, buf, hbuf, frame, ⟨⟨-, hroom⟩, hslice⟩, rfl, -⟩ := hrun
  rw [buf.size_eq] at hroom
  obtain ⟨buf', hbuf', hframe⟩ := henc.framed_in path pending (UInt32.ofNat index) h.responseBuf
    hroom
  rw [hbuf'] at hbuf
  cases hbuf
  exact ⟨path.elements, Prod.ext rfl (hslice.symm.trans hframe)⟩

/-- The loop: one frame for every request, in order. -/
theorem respondAll_ok (debug : Bool) (henc : Encodes message encode)
    (hmax : leaves.length ≤ 64) (requests : List PendingRequest) {start : Nat}
    (hi : start + requests.length ≤ leaves.length) {h : ResponseHandler}
    (htree : h.merkleTree.Computed H leaves stale) :
    ∃ h', respondAll debug message start requests h =
      .ok (frames H encode leaves requests start, h') := by
  induction requests generalizing start h with
  | nil => exact ⟨h, rfl⟩
  | cons pending later ih =>
      rw [List.length_cons] at hi
      obtain ⟨h₁, hrun⟩ := respond_ok debug henc htree hmax (show start < _ by omega) pending
      obtain ⟨h₂, hlater⟩ : ∃ h₂, respondAll debug message (start + 1) later h₁ =
          .ok (frames H encode leaves later (start + 1), h₂) := by
        obtain ⟨path, buf, bytes, rfl⟩ := respond_kept hrun
        exact ih (by omega) htree
      refine ⟨h₂, ?_⟩
      rw [respondAll, hrun]
      show (respondAll debug message (start + 1) later h₁ >>= _) = _
      rw [hlater]
      rfl

/-- One frame of `encode` for every request, in order and to its source, each with some path. -/
structure Sent (encode : List Hash → PendingRequest → UInt32 → Bytes)
    (requests : List PendingRequest) (start : Nat) (outs : List (SocketAddr × Bytes)) : Prop where
  length_eq : outs.length = requests.length
  frame : ∀ i p, requests[i]? = some p →
    ∃ proof, outs[i]? = some (p.srcAddr, framed (encode proof p (UInt32.ofNat (start + i))))

theorem respondAll_sent {debug : Bool} (henc : Encodes message encode)
    {requests : List PendingRequest} {start : Nat} {h h' : ResponseHandler}
    {outs : List (SocketAddr × Bytes)}
    (hrun : respondAll debug message start requests h = .ok (outs, h')) :
    Sent encode requests start outs := by
  induction requests generalizing start h outs with
  | nil =>
      cases hrun
      exact ⟨rfl, fun i p hp => nomatch hp⟩
  | cons pending later ih =>
      simp only [respondAll, Outcome.bind_ok_iff, Outcome.pure_eq, Outcome.ok.injEq,
        Prod.mk.injEq] at hrun
      obtain ⟨⟨out, h₁⟩, hfirst, ⟨outs', h₂⟩, hlater, rfl, rfl⟩ := hrun
      have hsent := ih hlater
      refine ⟨congrArg (· + 1) hsent.length_eq, ?_⟩
      intro i p hp
      cases i with
      | zero =>
          cases hp
          obtain ⟨proof, rfl⟩ := respond_sent henc hfirst
          exact ⟨proof, rfl⟩
      | succ i =>
          obtain ⟨proof, hout⟩ := hsent.frame i p hp
          rw [Nat.add_right_comm start 1 i] at hout
          exact ⟨proof, hout⟩

theorem respond_metrics {debug : Bool} {index : Nat} {pending : PendingRequest}
    {h h' : ResponseHandler} {out : SocketAddr × Bytes}
    (hrun : respond debug message index pending h = .ok (out, h')) :
    h'.responseMetrics = h.responseMetrics.addBytesSent out.2.length := by
  simp only [respond, Outcome.bind_ok_iff, Outcome.pure_eq, Outcome.ok.injEq, Prod.mk.injEq,
    sliceOrPanic_ok_iff] at hrun
  obtain ⟨path, -, buf, -, frame, ⟨⟨-, hroom⟩, rfl⟩, rfl, rfl⟩ := hrun
  show _ = h.responseMetrics.addBytesSent (slice buf.bytes 0 _).length
  rw [slice_length hroom, Nat.sub_zero]

/-- Every request gets a frame, and every frame is counted with its size. -/
theorem respondAll_metrics {debug : Bool} {start : Nat} {requests : List PendingRequest}
    {h h' : ResponseHandler} {outs : List (SocketAddr × Bytes)}
    (hrun : respondAll debug message start requests h = .ok (outs, h')) :
    outs.length = requests.length ∧
      h'.responseMetrics = h.responseMetrics.addBytesSent (outs.map fun o => o.2.length).sum := by
  induction requests generalizing start h outs with
  | nil =>
      cases hrun
      exact ⟨rfl, rfl⟩
  | cons pending later ih =>
      simp only [respondAll, Outcome.bind_ok_iff, Outcome.pure_eq, Outcome.ok.injEq,
        Prod.mk.injEq] at hrun
      obtain ⟨⟨out, h₁⟩, hfirst, ⟨outs', h₂⟩, hlater, rfl, rfl⟩ := hrun
      obtain ⟨hlen, hmetrics⟩ := ih hlater
      refine ⟨congrArg (· + 1) hlen, ?_⟩
      rw [hmetrics, respond_metrics hfirst]
      simp only [ResponseMetrics.addBytesSent, List.map_cons, List.sum_cons, Nat.add_assoc]

end ResponseHandler

/-! ## The answers of an online key -/

section Answers

variable (E : Ed25519) (H : Bytes → Hash)

open ResponseHandler

/-- The response of a key to one request of a batch with the given root. -/
def OnlineKeyDraft14.answer (key : OnlineKeyDraft14) (now : UInt64) (root : MerkleRoot)
    (proof : List Hash) (nonce : Nonce) (index : UInt32) : Response :=
  let sig := E.sign key.signer
    (ProtocolVersion.rfcDraft14.srepPrefix ++ (key.srep now root).encode)
  (((responseCommon14 key.cert (key.srep now root) sig).setPath
    (MerklePath.ofElements proof)).setNonc nonce).setIndx index

def OnlineKeyDraft08.answer (key : OnlineKeyDraft08) (now : UInt64) (root : MerkleRoot)
    (proof : List Hash) (index : UInt32) : ResponseDraft08 :=
  let sig := E.sign key.signer
    (ProtocolVersion.rfcDraft08.srepPrefix ++ (key.srep now root).encode)
  ((responseCommon08 key.cert (key.srep now root) sig).setPath
    (MerklePath.ofElements proof)).setIndx index

def OnlineKey.encode (key : OnlineKey) (now : UInt64) (root : MerkleRoot) (proof : List Hash)
    (pending : PendingRequest) (index : UInt32) : Bytes :=
  match key with
  | .draft14 key => (key.answer E now root proof pending.request.nonc index).encode
  | .draft08 key => (key.answer E now root proof index).encode

/-- What a batch is answered with, as a function of the key, the clock and the batch. -/
def OnlineKey.answers (key : OnlineKey) (now : UInt64) (leaves : List Bytes)
    (requests : List PendingRequest) : List (SocketAddr × Bytes) :=
  frames H (key.encode E now ((MerkleTree.scheme H).root leaves)) leaves requests 0

def OnlineKey.cert : OnlineKey → Certificate
  | draft14 key => key.cert
  | draft08 key => key.cert

/-- The keys agree in all but their signing buffers. -/
def OnlineKey.Same : OnlineKey → OnlineKey → Prop
  | draft14 k, draft14 k' =>
      k.signer = k'.signer ∧ k.cert = k'.cert ∧ k.templateSrep = k'.templateSrep
  | draft08 k, draft08 k' =>
      k.signer = k'.signer ∧ k.cert = k'.cert ∧ k.templateSrep = k'.templateSrep
  | _, _ => False

def OnlineKey.Issued (identity : LongTermIdentity) : ProtocolVersion → OnlineKey → Prop
  | .rfcDraft14, draft14 key => key.Issued E identity
  | .rfcDraft08, draft08 key => key.Issued E identity
  | _, _ => False

variable {E H}

/-- The signing buffer does not show in the answers. -/
theorem OnlineKey.Same.encode_eq {k k' : OnlineKey} (h : k.Same k') :
    k.encode E = k'.encode E := by
  cases k with
  | draft14 k =>
      cases k' with
      | draft08 k' => exact h.elim
      | draft14 k' =>
          obtain ⟨signer, cert, template, buf⟩ := k
          obtain ⟨signer', cert', template', buf'⟩ := k'
          obtain ⟨rfl, rfl, rfl⟩ := h
          rfl
  | draft08 k =>
      cases k' with
      | draft14 k' => exact h.elim
      | draft08 k' =>
          obtain ⟨signer, cert, template, buf⟩ := k
          obtain ⟨signer', cert', template', buf'⟩ := k'
          obtain ⟨rfl, rfl, rfl⟩ := h
          rfl

theorem OnlineKey.Same.answers_eq {k k' : OnlineKey} (h : k.Same k') (now : UInt64)
    (leaves : List Bytes) (requests : List PendingRequest) :
    k.answers E H now leaves requests = k'.answers E H now leaves requests := by
  unfold answers
  rw [h.encode_eq]

theorem OnlineKey.Same.cert_eq {k k' : OnlineKey} (h : k.Same k') : k.cert = k'.cert := by
  cases k with
  | draft14 k =>
      cases k' with
      | draft14 k' => exact h.2.1
      | draft08 k' => exact h.elim
  | draft08 k =>
      cases k' with
      | draft14 k' => exact h.elim
      | draft08 k' => exact h.2.1

/-- Keys that agree were issued for the same version. -/
theorem OnlineKey.Same.version_eq {k k' : OnlineKey} (h : k.Same k')
    {identity identity' : LongTermIdentity} {version version' : ProtocolVersion}
    (hk : k.Issued E identity version) (hk' : k'.Issued E identity' version') :
    version = version' := by
  cases version <;> cases version' <;> cases k <;> cases k' <;>
    first | rfl | exact h.elim | exact hk.elim | exact hk'.elim

theorem KeySource.makeOnlineKey_ok (source : KeySource) (version : ProtocolVersion)
    (draw : Draw) : ∃ key, source.makeOnlineKey E version draw = .ok key ∧
      key.Issued E source.identity version := by
  cases version with
  | rfcDraft08 =>
      obtain ⟨key, hrun, hkey⟩ :=
        source.identity.makeOnlineKeyDraft08_ok (E := E) draw source.validityLength
      refine ⟨.draft08 key, ?_, hkey⟩
      show (source.identity.makeOnlineKeyDraft08 E draw source.validityLength >>= _) = _
      rw [hrun]
      rfl
  | rfcDraft14 =>
      obtain ⟨key, hrun, hkey⟩ :=
        source.identity.makeOnlineKeyDraft14_ok (E := E) draw source.validityLength
      refine ⟨.draft14 key, ?_, hkey⟩
      show (source.identity.makeOnlineKeyDraft14 E draw source.validityLength >>= _) = _
      rw [hrun]
      rfl

theorem LongTermIdentity.certify_delegation {identity : LongTermIdentity} {delePrefix : Bytes}
    {draw : Draw} {validityLength : Duration} {cert : Certificate}
    (h : identity.certify E delePrefix draw validityLength = .ok cert) : cert.delegation =
      Delegation.new (E.publicKey draw.signer) draw.now validityLength.secs.toNat := by
  simp only [certify, Outcome.bind_ok_iff, Outcome.pure_eq, Outcome.ok.injEq] at h
  obtain ⟨_, -, rfl⟩ := h
  rfl

/-- The certificate of a new key is for the pair that was drawn, from the clock on. -/
theorem KeySource.makeOnlineKey_delegation {source : KeySource} {version : ProtocolVersion}
    {draw : Draw} {key : OnlineKey} (h : source.makeOnlineKey E version draw = .ok key) :
    key.cert.delegation =
      Delegation.new (E.publicKey draw.signer) draw.now source.validityLength.secs.toNat := by
  cases version with
  | rfcDraft08 =>
      simp only [makeOnlineKey, makeOnlineKeyDraft08, LongTermIdentity.makeOnlineKeyDraft08,
        Outcome.bind_ok_iff, Outcome.pure_eq, Outcome.ok.injEq] at h
      obtain ⟨_, ⟨cert, hcert, rfl⟩, rfl⟩ := h
      exact LongTermIdentity.certify_delegation hcert
  | rfcDraft14 =>
      simp only [makeOnlineKey, makeOnlineKeyDraft14, LongTermIdentity.makeOnlineKeyDraft14,
        Outcome.bind_ok_iff, Outcome.pure_eq, Outcome.ok.injEq] at h
      obtain ⟨_, ⟨cert, hcert, rfl⟩, rfl⟩ := h
      exact LongTermIdentity.certify_delegation hcert

end Answers

namespace ResponseHandler

variable {E : Ed25519} {H : Bytes → Hash}

/-- The messages of draft-14 are written as the answers of the key. -/
theorem encodes14 (common : Response) (hpath : common.path = MerklePath.default) :
    Encodes (message14 common) fun proof pending index =>
      (((common.setPath (MerklePath.ofElements proof)).setNonc pending.request.nonc).setIndx
        index).encode := by
  have hcopy : ∀ path, common.copyPath path =
      common.setPath (MerklePath.ofElements path.elements) := by
    intro path
    unfold Response.copyPath Response.setPath
    rw [hpath, MerklePath.default_copyFrom]
  refine ⟨?_, ?_, ?_⟩
  · intro path pending i
    simp only [message14, hcopy]
    exact Response.toWire_writes _
  · intro path pending i
    simp only [message14, hcopy]
    exact Response.encode_length _
  · intro path pending i hle
    simp only [message14]
    have hv := common.srep.supportedVersions.bounded
    have hnum : (common.path.copyFrom path).numPaths ≤ 6 := hle
    have hsize : (((common.copyPath path).setNonc pending.request.nonc).setIndx i).wireSize =
        400 + 32 * (common.path.copyFrom path).numPaths +
          4 * common.srep.supportedVersions.versions.length := by
      rw [← Response.encode_length]
      exact Response.encodeWith_length (SignedResponse.spells_values _)
    omega

theorem encodes08 (common : ResponseDraft08) (hpath : common.path = MerklePath.default) :
    Encodes (message08 common) fun proof _ index =>
      ((common.setPath (MerklePath.ofElements proof)).setIndx index).encode := by
  have hcopy : ∀ path, common.copyPath path =
      common.setPath (MerklePath.ofElements path.elements) := by
    intro path
    unfold ResponseDraft08.copyPath ResponseDraft08.setPath
    rw [hpath, MerklePath.default_copyFrom]
  refine ⟨?_, ?_, ?_⟩
  · intro path pending i
    simp only [message08, hcopy]
    exact ResponseDraft08.toWire_writes _
  · intro path pending i
    simp only [message08, hcopy]
    exact ResponseDraft08.encode_length _
  · intro path pending i hle
    simp only [message08]
    have hnum : (common.path.copyFrom path).numPaths ≤ 6 := hle
    have hsize : ((common.copyPath path).setIndx i).wireSize =
        340 + 32 * (common.path.copyFrom path).numPaths := by
      rw [← ResponseDraft08.encode_length]
      exact ResponseDraft08.encodeWith_length _ _
    omega

/-- What every operation keeps: the key was issued by the key source, for the version the
handler speaks. -/
def Sound (E : Ed25519) (h : ResponseHandler) : Prop :=
  h.onlineKey.Issued E h.keySource.identity h.protocolVersion

/-- What no operation changes. -/
def settings (h : ResponseHandler) : Nat × KeySource × ProtocolVersion :=
  (h.batchSize, h.keySource, h.protocolVersion)

/-- When the handler can answer the batch it holds. -/
structure Ready (debug : Bool) (h : ResponseHandler) : Prop where
  small : h.requests.length ≤ 64
  slot : debug = true → (h.responseMetrics.batches h.requests.length).toNat < 255
  cert : debug = true → h.onlineKey.cert ≠ Certificate.default

/-- What a batch carries over: the settings, the key up to its buffer, the counted batches. -/
structure Carried (E : Ed25519) (h h' : ResponseHandler) : Prop where
  sound : h'.Sound E
  settings : h'.settings = h.settings
  same : h'.onlineKey.Same h.onlineKey
  counted : h'.responseMetrics.batchSizes = h.responseMetrics.batchSizes

theorem Kept.carried {h h₁ h' : ResponseHandler} (hkept : Kept h₁ h') (h₁c : Carried E h h₁) :
    Carried E h h' := by
  obtain ⟨path, buf, bytes, rfl⟩ := hkept
  exact ⟨h₁c.sound, h₁c.settings, h₁c.same, h₁c.counted⟩

section Process

variable {debug : Bool} {h : ResponseHandler} {leaves : List Bytes} {stale : List (List Hash)}

theorem processResponsesDraft14_ok (now : UInt64) (hsound : h.Sound E)
    (hversion : h.protocolVersion = .rfcDraft14)
    (hcert : debug = true → h.onlineKey.cert ≠ Certificate.default)
    (htree : h.merkleTree.Computed H leaves stale) (hlen : h.requests.length = leaves.length)
    (hmax : leaves.length ≤ 64) :
    ∃ h', h.processResponsesDraft14 E debug now ((MerkleTree.scheme H).root leaves) =
        .ok (h.onlineKey.answers E H now leaves h.requests, h') := by
  unfold Sound at hsound
  rw [hversion] at hsound
  unfold processResponsesDraft14
  cases honline : h.onlineKey with
  | draft08 key =>
      rw [honline] at hsound
      exact hsound.elim
  | draft14 key =>
      rw [honline] at hsound hcert
      obtain ⟨buf, hsrep, -⟩ :=
        OnlineKeyDraft14.makeSrep_ok hsound now ((MerkleTree.scheme H).root leaves)
      obtain ⟨h', hrun⟩ := respondAll_ok (H := H) debug
        (encodes14 (responseCommon14 key.cert _ _) rfl) hmax h.requests
        (show 0 + h.requests.length ≤ leaves.length by omega)
        (h := { h with onlineKey := .draft14 { key with signingBuf := buf } }) htree
      refine ⟨h', ?_⟩
      show (key.getCert debug >>= _) = _
      rw [OnlineKeyDraft14.getCert_ok_iff.mpr ⟨hcert, rfl⟩]
      show (key.makeSrep E now _ >>= _) = _
      rw [hsrep]
      exact hrun

theorem processResponsesDraft08_ok (now : UInt64) (hsound : h.Sound E)
    (hversion : h.protocolVersion = .rfcDraft08)
    (hcert : debug = true → h.onlineKey.cert ≠ Certificate.default)
    (htree : h.merkleTree.Computed H leaves stale) (hlen : h.requests.length = leaves.length)
    (hmax : leaves.length ≤ 64) :
    ∃ h', h.processResponsesDraft08 E debug now ((MerkleTree.scheme H).root leaves) =
        .ok (h.onlineKey.answers E H now leaves h.requests, h') := by
  unfold Sound at hsound
  rw [hversion] at hsound
  unfold processResponsesDraft08
  cases honline : h.onlineKey with
  | draft14 key =>
      rw [honline] at hsound
      exact hsound.elim
  | draft08 key =>
      rw [honline] at hsound hcert
      obtain ⟨buf, hsrep, -⟩ :=
        OnlineKeyDraft08.makeSrep_ok hsound now ((MerkleTree.scheme H).root leaves)
      obtain ⟨h', hrun⟩ := respondAll_ok (H := H) debug
        (encodes08 (responseCommon08 key.cert _ _) rfl) hmax h.requests
        (show 0 + h.requests.length ≤ leaves.length by omega)
        (h := { h with onlineKey := .draft08 { key with signingBuf := buf } }) htree
      refine ⟨h', ?_⟩
      show (key.getCert debug >>= _) = _
      rw [OnlineKeyDraft08.getCert_ok_iff.mpr ⟨hcert, rfl⟩]
      show (key.makeSrep E now _ >>= _) = _
      rw [hsrep]
      exact hrun

/-- A batch that the handler is ready for is answered as its key answers it, whatever earlier
batches left behind. -/
theorem processResponses_ok (now : UInt64) (hsound : h.Sound E) (hready : h.Ready debug)
    (hne : h.requests ≠ []) (hleaves : h.merkleTree.leaves = leaves.map (MerkleTree.hashLeaf H))
    (hlen : h.requests.length = leaves.length) :
    ∃ h', h.processResponses E H debug now =
        .ok (h.onlineKey.answers E H now leaves h.requests, h') := by
  have hpos : 1 ≤ h.requests.length := List.length_pos_of_ne_nil hne
  have hmax : leaves.length ≤ 64 := hlen ▸ hready.small
  have hmetrics := (ResponseMetrics.addBatchSize_ok_iff hpos hready.small).mpr
    ⟨hready.slot, rfl⟩
  have hholds : h.merkleTree.Holds H leaves :=
    ⟨leaves.length, by rw [hleaves, MerkleTree.level_zero], .inl rfl⟩
  obtain ⟨tree, hroot, htree⟩ := MerkleTree.computeRoot_ok (ε := Empty) (hlen ▸ hpos) hholds
  simp only [processResponses, if_neg hne, hmetrics, hroot, Outcome.ok_bind]
  unfold Sound at hsound
  cases hversion : h.protocolVersion with
  | rfcDraft08 =>
      rw [hversion] at hsound
      exact processResponsesDraft08_ok now hsound rfl hready.cert htree hlen hmax
  | rfcDraft14 =>
      rw [hversion] at hsound
      exact processResponsesDraft14_ok now hsound rfl hready.cert htree hlen hmax

/-- Whatever the size of the batch: if it was answered, the key is as good as it was, and it
passed the assertion on its certificate. -/
theorem processResponsesDraft14_carried {now : UInt64} {root : MerkleRoot}
    {outs : List (SocketAddr × Bytes)} {h' : ResponseHandler}
    (hrun : h.processResponsesDraft14 E debug now root = .ok (outs, h'))
    (hversion : h.protocolVersion = .rfcDraft14) (hsound : h.Sound E) :
    Carried E h h' ∧ (debug = true → h.onlineKey.cert ≠ Certificate.default) := by
  unfold Sound at hsound
  rw [hversion] at hsound
  unfold processResponsesDraft14 at hrun
  cases honline : h.onlineKey with
  | draft08 key =>
      rw [honline] at hsound
      exact hsound.elim
  | draft14 key =>
      rw [honline] at hsound
      obtain ⟨buf, hsrep, hissued⟩ := OnlineKeyDraft14.makeSrep_ok hsound now root
      simp only [honline, Outcome.bind_ok_iff, OnlineKeyDraft14.getCert_ok_iff, hsrep,
        Outcome.ok_bind] at hrun
      obtain ⟨_, ⟨hcert, rfl⟩, hrun⟩ := hrun
      refine ⟨(respondAll_kept hrun).carried ⟨?_, rfl, ?_, rfl⟩, hcert⟩
      · show OnlineKey.Issued E h.keySource.identity h.protocolVersion _
        rw [hversion]
        exact hissued
      · rw [honline]
        exact ⟨rfl, rfl, rfl⟩

theorem processResponsesDraft08_carried {now : UInt64} {root : MerkleRoot}
    {outs : List (SocketAddr × Bytes)} {h' : ResponseHandler}
    (hrun : h.processResponsesDraft08 E debug now root = .ok (outs, h'))
    (hversion : h.protocolVersion = .rfcDraft08) (hsound : h.Sound E) :
    Carried E h h' ∧ (debug = true → h.onlineKey.cert ≠ Certificate.default) := by
  unfold Sound at hsound
  rw [hversion] at hsound
  unfold processResponsesDraft08 at hrun
  cases honline : h.onlineKey with
  | draft14 key =>
      rw [honline] at hsound
      exact hsound.elim
  | draft08 key =>
      rw [honline] at hsound
      obtain ⟨buf, hsrep, hissued⟩ := OnlineKeyDraft08.makeSrep_ok hsound now root
      simp only [honline, Outcome.bind_ok_iff, OnlineKeyDraft08.getCert_ok_iff, hsrep,
        Outcome.ok_bind] at hrun
      obtain ⟨_, ⟨hcert, rfl⟩, hrun⟩ := hrun
      refine ⟨(respondAll_kept hrun).carried ⟨?_, rfl, ?_, rfl⟩, hcert⟩
      · show OnlineKey.Issued E h.keySource.identity h.protocolVersion _
        rw [hversion]
        exact hissued
      · rw [honline]
        exact ⟨rfl, rfl, rfl⟩

/-- Whatever the size of the batch: what was sent are answers of the key, with the root that was
computed. -/
theorem processResponses_sent {now : UInt64} {outs : List (SocketAddr × Bytes)}
    {h' : ResponseHandler} (hsound : h.Sound E)
    (hrun : h.processResponses E H debug now = .ok (outs, h')) :
    ∃ root, (h.requests ≠ [] →
        ∃ tree, (h.merkleTree.computeRoot H : Call (Hash × MerkleTree)) = .ok (root, tree)) ∧
      Sent (h.onlineKey.encode E now root) h.requests 0 outs := by
  by_cases hne : h.requests = []
  · rw [processResponses, if_pos hne] at hrun
    cases hrun
    rw [hne]
    exact ⟨Octets.zero 32, fun h => absurd rfl h, rfl, fun i p hp => nomatch hp⟩
  · simp only [processResponses, if_neg hne, Outcome.bind_ok_iff] at hrun
    obtain ⟨m, -, ⟨root, tree⟩, hroot, hrun⟩ := hrun
    refine ⟨root, fun _ => ⟨tree, hroot⟩, ?_⟩
    unfold Sound at hsound
    cases hversion : h.protocolVersion with
    | rfcDraft08 =>
        cases honline : h.onlineKey with
        | draft14 key =>
            rw [hversion, honline] at hsound
            exact hsound.elim
        | draft08 key =>
            rw [hversion, honline] at hsound
            obtain ⟨buf, hsrep, -⟩ := OnlineKeyDraft08.makeSrep_ok hsound now root
            simp only [hversion, processResponsesDraft08, honline, Outcome.bind_ok_iff,
              OnlineKeyDraft08.getCert_ok_iff, hsrep, Outcome.ok_bind] at hrun
            obtain ⟨_, ⟨-, rfl⟩, hrun⟩ := hrun
            exact respondAll_sent (encodes08 (responseCommon08 key.cert _ _) rfl) hrun
    | rfcDraft14 =>
        cases honline : h.onlineKey with
        | draft08 key =>
            rw [hversion, honline] at hsound
            exact hsound.elim
        | draft14 key =>
            rw [hversion, honline] at hsound
            obtain ⟨buf, hsrep, -⟩ := OnlineKeyDraft14.makeSrep_ok hsound now root
            simp only [hversion, processResponsesDraft14, honline, Outcome.bind_ok_iff,
              OnlineKeyDraft14.getCert_ok_iff, hsrep, Outcome.ok_bind] at hrun
            obtain ⟨_, ⟨-, rfl⟩, hrun⟩ := hrun
            exact respondAll_sent (encodes14 (responseCommon14 key.cert _ _) rfl) hrun

/-- A batch that was answered is counted once, and each of its frames with its size. -/
theorem processResponses_metrics {now : UInt64} {outs : List (SocketAddr × Bytes)}
    {h' : ResponseHandler} (hrun : h.processResponses E H debug now = .ok (outs, h')) :
    outs.length = h.requests.length ∧
      (h.requests = [] ∧ h'.responseMetrics = h.responseMetrics ∨
        h.requests ≠ [] ∧ ∃ m,
          h.responseMetrics.addBatchSize debug (UInt8.ofNat h.requests.length) = .ok m ∧
          h'.responseMetrics = m.addBytesSent (outs.map fun o => o.2.length).sum) := by
  by_cases hne : h.requests = []
  · rw [processResponses, if_pos hne] at hrun
    cases hrun
    exact ⟨by rw [hne]; rfl, .inl ⟨hne, rfl⟩⟩
  · simp only [processResponses, if_neg hne, Outcome.bind_ok_iff] at hrun
    obtain ⟨m, hm, ⟨root, tree⟩, -, hrun⟩ := hrun
    simp only at hrun
    have hall : outs.length = h.requests.length ∧
        h'.responseMetrics = m.addBytesSent (outs.map fun o => o.2.length).sum := by
      split at hrun
      · unfold processResponsesDraft08 at hrun
        split at hrun
        · simp only [Outcome.bind_ok_iff] at hrun
          obtain ⟨_, -, _, -, hrun⟩ := hrun
          exact respondAll_metrics hrun
        · cases hrun
      · unfold processResponsesDraft14 at hrun
        split at hrun
        · simp only [Outcome.bind_ok_iff] at hrun
          obtain ⟨_, -, _, -, hrun⟩ := hrun
          exact respondAll_metrics hrun
        · cases hrun
    exact ⟨hall.1, .inr ⟨hne, m, hm, hall.2⟩⟩

/-- What is known of a batch that was answered. -/
structure Processed (E : Ed25519) (debug : Bool) (h h' : ResponseHandler) : Prop where
  sound : h'.Sound E
  settings : h'.settings = h.settings
  same : h'.onlineKey.Same h.onlineKey
  counted : ∃ m, h.responseMetrics.addBatchSize debug (UInt8.ofNat h.requests.length) = .ok m ∧
    h'.responseMetrics.batchSizes = m.batchSizes
  cert : debug = true → h.onlineKey.cert ≠ Certificate.default

theorem processResponses_processed {now : UInt64} {outs : List (SocketAddr × Bytes)}
    {h' : ResponseHandler} (hsound : h.Sound E) (hne : h.requests ≠ [])
    (hrun : h.processResponses E H debug now = .ok (outs, h')) : Processed E debug h h' := by
  simp only [processResponses, if_neg hne, Outcome.bind_ok_iff] at hrun
  obtain ⟨m, hmetrics, ⟨root, tree⟩, -, hrun⟩ := hrun
  simp only at hrun
  unfold Sound at hsound
  cases hversion : h.protocolVersion with
  | rfcDraft08 =>
      rw [hversion] at hsound hrun
      have hsettings : h.settings = (h.batchSize, h.keySource, .rfcDraft08) := by
        rw [settings, hversion]
      obtain ⟨hcarried, hcert⟩ := processResponsesDraft08_carried hrun rfl hsound
      exact ⟨hcarried.sound, hcarried.settings.trans hsettings.symm, hcarried.same,
        ⟨m, hmetrics, hcarried.counted⟩, hcert⟩
  | rfcDraft14 =>
      rw [hversion] at hsound hrun
      have hsettings : h.settings = (h.batchSize, h.keySource, .rfcDraft14) := by
        rw [settings, hversion]
      obtain ⟨hcarried, hcert⟩ := processResponsesDraft14_carried hrun rfl hsound
      exact ⟨hcarried.sound, hcarried.settings.trans hsettings.symm, hcarried.same,
        ⟨m, hmetrics, hcarried.counted⟩, hcert⟩

/-- A batch of 1 to 64 requests that was answered is one the handler was ready for, and it is
counted. -/
theorem Processed.ready {h' : ResponseHandler} (hp : Processed E debug h h')
    (hne : h.requests ≠ []) (hmax : h.requests.length ≤ 64) :
    h.Ready debug ∧ h'.responseMetrics.batches h.requests.length =
      h.responseMetrics.batches h.requests.length + 1 := by
  have hpos : 1 ≤ h.requests.length := List.length_pos_of_ne_nil hne
  obtain ⟨m, hm, hcounted⟩ := hp.counted
  obtain ⟨hslot, rfl⟩ := (ResponseMetrics.addBatchSize_ok_iff hpos hmax).mp hm
  refine ⟨⟨hmax, hslot, hp.cert⟩, ?_⟩
  have hlt : h.requests.length - 1 < h.responseMetrics.batchSizes.bytes.length := by
    rw [h.responseMetrics.batchSizes.size_eq]
    omega
  have hset : ∀ x : UInt8, (h.responseMetrics.batchSizes.bytes.set
      (h.requests.length - 1) x).getD (h.requests.length - 1) 0 = x := by
    intro x
    rw [List.getD_eq_getElem?_getD, List.getElem?_set_self hlt]
    rfl
  show h'.responseMetrics.batchSizes.bytes.getD (h.requests.length - 1) 0 = _
  rw [hcounted]
  exact hset _

end Process

end ResponseHandler

end Roughenough.Server
