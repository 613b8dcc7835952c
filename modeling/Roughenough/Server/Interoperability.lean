/-
# `Roughenough.Server.Interoperability` — clients and servers of this repository

The other modules say what a client may believe about an answer that comes from
anywhere.  This one is about answers that come from the server: when are they
believed?

    Turn            a worker, after any run, takes datagrams and answers them
    Turn.Answers    a datagram of the turn, and what was sent for it
    Served          a query that was sent to a worker and heard its answer

A query that is served is a measurement exactly if client and worker speak the
same version and the clock of the worker is inside the delegation of its key
(`Served.query_iff`), and it measures that clock, to five seconds.  The rest of
the turn, the past of the worker and the build play no part.  By induction over
the chain of queries, for a whole run of the client against any number of
servers:

    run_measures_iff           the run returns exactly if all of its queries match
    honest_world_settled       and if the clocks are right, the first attempt of
                               the command line client is the last
-/
import Roughenough.Client.Retry
import Roughenough.Server.Accountability
import Roughenough.Server.Reflection
import Roughenough.Server.Rotation

namespace Roughenough.Server

open Roughenough.Base Roughenough.Protocol Roughenough.Merkle Roughenough.Client
open ResponseValidator MeasurementSequence

/-! ## A turn of a worker -/

/-- What `collect_request` makes of a datagram. -/
def acceptTaken (d : Bytes × SocketAddr) : Option Datagram :=
  accept (d.1.take NetworkHandler.recvBufferSize) d.2

/-- A worker takes datagrams from its socket, after any run, and answers them. -/
structure Turn (E : Ed25519) (H : Bytes → Hash) (debug : Bool) (l : Launch) where
  exchanges : List Exchange
  before : Loop
  sock : List Recv
  collected : Loop
  now : UInt64
  sent : Nat → Bool
  outs : List (SocketAddr × Bytes)
  answered : Loop
  runs : l.Runs E H debug exchanges before
  collects : Step E H debug before (.collect sock) collected
  generates : Step E H debug collected (.generate now sent outs) answered

theorem foldl_extend_taken (taken : List (Bytes × SocketAddr)) (batch : List Datagram) :
    (taken.map fun d => Event.collect (d.1.take NetworkHandler.recvBufferSize) d.2).foldl extend
      batch = batch ++ taken.filterMap acceptTaken := by
  induction taken generalizing batch with
  | nil => exact (List.append_nil batch).symm
  | cons d taken ih =>
      rw [List.map_cons, List.foldl_cons, ih, extend, List.append_assoc]
      show batch ++ ((acceptTaken d).toList ++ _) = _
      cases hd : acceptTaken d with
      | none => rw [List.filterMap_cons_none hd, Option.toList_none, List.nil_append]
      | some x => rw [List.filterMap_cons_some hd, Option.toList_some, List.singleton_append]

namespace Turn

variable {E : Ed25519} {H : Bytes → Hash} {debug : Bool} {l : Launch} (t : Turn E H debug l)

def taken : List (Bytes × SocketAddr) := NetworkHandler.taken l.args.batchSize.toNat t.sock

def batch : List Datagram := t.taken.filterMap acceptTaken

/-- The handler when it answers. -/
def handler : ResponseHandler := t.collected.worker.reqHandler.responder

/-- The clock is inside the delegation of the key. -/
def InTime : Prop :=
  t.handler.onlineKey.cert.delegation.minTime.toNat ≤ t.now.toNat ∧
    t.now.toNat ≤ t.handler.onlineKey.cert.delegation.maxTime.toNat

/-- A datagram that was taken, and what was sent in its place to its source. -/
def Answers (request packet : Bytes) : Prop :=
  ∃ front back source, t.taken = front ++ (request, source) :: back ∧
    t.outs[(front.filterMap acceptTaken).length]? = some (source, packet)

/-- Nothing is pending in front of a turn, so the batch is what was taken. -/
theorem holding : Holding E H t.handler t.batch := by
  have hruns := t.runs.step t.collects
  obtain ⟨hh, -⟩ := serve_holding hruns.refines.2
  have hidle : t.before.worker.reqHandler.responder.requests = [] := by
    refine t.runs.pending.2 ?_
    intro n result hphase
    have hcollects := t.collects
    generalize t.before = s at hcollects hphase
    generalize t.collected = s' at hcollects
    cases hcollects with
    | collect hcollect => cases hphase
  have hempty : openBatch (t.exchanges.flatMap (Exchange.events l.args.batchSize.toNat)) = [] := by
    have hmap := (serve_holding t.runs.refines.2).1.requests
    rw [hidle] at hmap
    exact List.map_eq_nil_iff.mp hmap.symm
  have hbatch : openBatch ((t.exchanges ++ [Exchange.collect t.sock]).flatMap
      (Exchange.events l.args.batchSize.toNat)) = t.batch := by
    rw [List.flatMap_append, List.flatMap_singleton, openBatch, List.foldl_append]
    show (t.taken.map _).foldl extend (openBatch _) = _
    rw [foldl_extend_taken, hempty]
    rfl
  rw [hbatch] at hh
  exact hh

theorem batch_length : t.batch.length ≤ 64 := by
  have hpending := (t.runs.step t.collects).pending.1
  have hlength : t.handler.requests.length = t.batch.length := t.holding.length_eq
  exact hlength ▸ Nat.le_trans hpending l.args.inRange.2

/-- The answers of the turn. -/
theorem outs_eq (hpos : 1 ≤ t.batch.length) :
    t.outs = answersTo E H t.handler.onlineKey l.args.protocol t.now t.batch := by
  have hh := t.holding
  have hversion : t.handler.protocolVersion = l.args.protocol :=
    (serve_settings (t.runs.step t.collects).refines.2).2
  obtain ⟨req, hreq⟩ : ∃ req, t.collected.worker.reqHandler.generateResponses E H debug t.now =
      .ok (t.outs, req) := by
    have hgenerates := t.generates
    generalize t.collected = s at hgenerates
    generalize t.answered = s' at hgenerates
    cases hgenerates with
    | generate hgen =>
        obtain ⟨req, hreq, -⟩ := Worker.generateResponses_ok_iff.mp hgen
        exact ⟨req, hreq⟩
  simp only [RequestHandler.generateResponses, Outcome.bind_ok_iff, Outcome.pure_eq,
    Outcome.ok.injEq, Prod.mk.injEq] at hreq
  obtain ⟨⟨outs, r⟩, hprocess, houts, -⟩ := hreq
  have hclear := hh.clear_of_process hpos t.batch_length hprocess
  obtain ⟨r', hanswers⟩ := hh.process_ok hpos t.batch_length hclear t.now
  obtain ⟨rfl, -⟩ := Prod.mk.inj (Outcome.ok.inj (hprocess.symm.trans hanswers))
  rw [← houts, hversion]

/-- A request that parses has a place in the batch, and in its place the answer of the key is sent
to its source. -/
theorem outs_getElem? {front back : List (Bytes × SocketAddr)} {request : Bytes}
    {source : SocketAddr} {r : Request} (htaken : t.taken = front ++ (request, source) :: back)
    (hr : Request.fromFrame request = .ok r) :
    ∃ d i, d.bytes = request ∧ t.batch[i]? = some d ∧
      i = (front.filterMap acceptTaken).length ∧ t.outs[i]? = some (source,
        framed (t.handler.onlineKey.encode E t.now
          ((MerkleTree.scheme H).root (t.batch.map (Datagram.leaf l.args.protocol)))
          (ResponseHandler.proofOf H (t.batch.map (Datagram.leaf l.args.protocol)) i) d.pending
          (UInt32.ofNat i))) := by
  have hlength : request.length = 1024 := Request.fromFrame_length hr
  have haccept : acceptTaken (request, source) = some ⟨request, source, r, hr⟩ := by
    have hwhole : request.take NetworkHandler.recvBufferSize = request :=
      List.take_of_length_le (Nat.le_of_eq hlength)
    show accept (request.take _) source = _
    rw [hwhole]
    exact accept_of_ok hr
  have hbatch : t.batch = front.filterMap acceptTaken ++
      ⟨request, source, r, hr⟩ :: back.filterMap acceptTaken := by
    rw [batch, htaken, List.filterMap_append, List.filterMap_cons_some haccept]
  have hget : t.batch[(front.filterMap acceptTaken).length]? =
      some ⟨request, source, r, hr⟩ := by
    rw [hbatch, List.getElem?_append_right (Nat.le_refl _), Nat.sub_self]
    rfl
  refine ⟨⟨request, source, r, hr⟩, _, rfl, hget, rfl, ?_⟩
  have hpos : 1 ≤ t.batch.length := Nat.succ_le_of_lt
    (Nat.lt_of_le_of_lt (Nat.zero_le _) (List.getElem?_eq_some_iff.mp hget).1)
  have hpending : (t.batch.map Datagram.pending)[(front.filterMap acceptTaken).length]? =
      some (Datagram.pending ⟨request, source, r, hr⟩) := by
    rw [List.getElem?_map, hget]
    rfl
  rw [t.outs_eq hpos, answersTo, OnlineKey.answers, frames_getElem? _ hpending]
  rfl

/-- What was sent for a request that parses. -/
theorem Answers.packet_eq {t : Turn E H debug l} {request packet : Bytes} {r : Request}
    (h : t.Answers request packet) (hr : Request.fromFrame request = .ok r) :
    ∃ d i, d.bytes = request ∧ t.batch[i]? = some d ∧
      packet = framed (t.handler.onlineKey.encode E t.now
        ((MerkleTree.scheme H).root (t.batch.map (Datagram.leaf l.args.protocol)))
        (ResponseHandler.proofOf H (t.batch.map (Datagram.leaf l.args.protocol)) i) d.pending
        (UInt32.ofNat i)) := by
  obtain ⟨front, back, source, htaken, hout⟩ := h
  obtain ⟨d, i, hbytes, hd, rfl, hsent⟩ := t.outs_getElem? htaken hr
  exact ⟨d, _, hbytes, hd, (Prod.mk.inj (Option.some.inj (hout.symm.trans hsent))).2⟩

/-- Every request that parses is answered in its turn. -/
theorem answers_of_taken {request : Bytes} {source : SocketAddr} {r : Request}
    (htaken : (request, source) ∈ t.taken) (hr : Request.fromFrame request = .ok r) :
    ∃ packet, t.Answers request packet := by
  obtain ⟨front, back, hsplit⟩ := List.append_of_mem htaken
  obtain ⟨d, i, -, -, rfl, hsent⟩ := t.outs_getElem? hsplit hr
  exact ⟨_, front, back, source, hsplit, hsent⟩

end Turn

/-! ## One answer -/

section Answer

variable {E : Ed25519} {H : Bytes → Hash} {identity : LongTermIdentity} {v : ResponseValidator}
  {request : Bytes}

/-- Whoever accepts an answer of a key believes the clock that was read, which is inside the
delegation of the key. -/
theorem answer_accepted14 {key : OnlineKeyDraft14} (h : key.Issued E identity) {now m : UInt64}
    {root : MerkleRoot} {proof : List Hash} {nonce : Nonce} {index : UInt32} {r : Response}
    (hparse : Response.fromFrame (framed (key.answer E now root proof nonce index).encode) = .ok r)
    (hvalid : validateDraft14 E.verify H v request r
      (framed (key.answer E now root proof nonce index).encode) = .ok m) :
    (key.cert.delegation.minTime.toNat ≤ now.toNat ∧
      now.toNat ≤ key.cert.delegation.maxTime.toNat) ∧ r.srep.midpoint = now ∧
      r.srep.radius = 5 := by
  have hread := (h.answer_built now root proof nonce index).fromFrame
  obtain rfl := Outcome.ok.inj (hparse.symm.trans hread)
  obtain ⟨hv, -⟩ := validateDraft14_ok_iff.mp hvalid
  refine ⟨⟨hv.cert.mint, hv.cert.maxt⟩, rfl, ?_⟩
  show key.templateSrep.radius = 5
  rw [h.template_eq]
  rfl

theorem answer_accepted08 {key : OnlineKeyDraft08} (h : key.Issued E identity) {now m : UInt64}
    {root : MerkleRoot} {proof : List Hash} {index : UInt32} {r : ResponseDraft08}
    (hparse : ResponseDraft08.fromFrame (framed (key.answer E now root proof index).encode) =
      .ok r)
    (hvalid : validateDraft08 E.verify H v request r
      (framed (key.answer E now root proof index).encode) = .ok m) :
    (key.cert.delegation.minTime.toNat ≤ now.toNat ∧
      now.toNat ≤ key.cert.delegation.maxTime.toNat) ∧ r.srep.midpoint = now ∧
      r.srep.radius = 5 := by
  have hread := (h.answer_built now root proof index).fromFrame
  obtain rfl := Outcome.ok.inj (hparse.symm.trans hread)
  obtain ⟨hv, -⟩ := validateDraft08_ok_iff.mp hvalid
  refine ⟨⟨hv.cert.mint, hv.cert.maxt⟩, rfl, ?_⟩
  show key.templateSrep.radius = 5
  rw [h.template_eq]
  rfl

end Answer

/-! ## One query -/

theorem makeRequest_fromFrame {client : Client} {nonce : Nonce} {request : Request}
    (h : makeRequest client nonce = .ok request) :
    Request.fromFrame (framed request.encode) = .ok request := by
  unfold makeRequest at h
  split at h
  · cases h
    exact Request.fromFrame_newDraft08 nonce
  · obtain ⟨srvCommit, -, hnew⟩ := Outcome.bind_ok_iff.mp h
    cases hnew
    exact Request.fromFrame_newDraft14WithServerCommitment nonce srvCommit

section Query

variable {E : Ed25519} {H : Bytes → Hash} {debug : Bool} {l : Launch} {t : Turn E H debug l}
  {client : Client} {prior : Option Response} {x : Client.Exchange} {request : Request}
  {nonce : Nonce} {packet : Bytes}

/-- The worker speaks the version of the client, and its clock is inside the delegation. -/
def Turn.Matches (t : Turn E H debug l) (client : Client) : Prop :=
  client.protocolVersion = l.args.protocol ∧ t.InTime

/-- A query that a worker with the key of the client took and answered, and that heard this. -/
structure Served (t : Turn E H debug l) (client : Client) (prior : Option Response)
    (x : Client.Exchange) : Prop where
  key : client.publicKey = some (l.keySource.publicKey E)
  sent : ∃ n, x.send = .ok n
  heard : ∃ request packet addr,
    makeRequest client (nonceAfter H prior x.random) = .ok request ∧
      t.Answers (framed request.encode) packet ∧ x.recv = .ok (packet, addr)

/-- The key of the worker was issued for its version by the identity of its key source. -/
theorem Turn.issued (t : Turn E H debug l) :
    t.handler.onlineKey.Issued E l.keySource.identity l.args.protocol :=
  serve_issued (t.runs.step t.collects).refines.2

theorem Turn.Answers.accepted (hE : E.Correct) (hmatch : t.Matches client)
    (hkey : client.publicKey = some (l.keySource.publicKey E))
    (hrequest : makeRequest client nonce = .ok request)
    (h : t.Answers (framed request.encode) packet) :
    ∃ r, acceptResponse E.verify H client (framed request.encode) packet = .ok r := by
  have hparse := makeRequest_fromFrame hrequest
  obtain ⟨d, i, hbytes, hd, rfl⟩ := h.packet_eq hparse
  obtain ⟨hversion, hmint, hmaxt⟩ := hmatch
  have hvalidator : client.validator = newWithKey (l.keySource.identity.publicKey E) := by
    rw [client.validator_eq, hkey]
    rfl
  have hmax : (t.batch.map (Datagram.leaf l.args.protocol)).length ≤ 64 := by
    rw [List.length_map]
    exact t.batch_length
  have hleaf : (t.batch.map (Datagram.leaf l.args.protocol))[i]? =
      some (d.leaf l.args.protocol) := by
    rw [List.getElem?_map, hd]
    rfl
  have hissued := t.issued
  rw [← hversion] at hissued hmax hleaf ⊢
  generalize t.handler.onlineKey = key at hissued hmint hmaxt ⊢
  cases hclient : client.protocolVersion with
  | rfcDraft08 =>
      rw [hclient] at hissued hmax hleaf
      cases key with
      | draft14 key => exact hissued.elim
      | draft08 key =>
          -- the leaf is the nonce of the request, and a draft-08 client asks in draft-08
          have hnew : request = Request.newDraft08 nonce := by
            unfold makeRequest at hrequest
            rw [hclient] at hrequest
            exact (Outcome.ok.inj hrequest).symm
          have hnonce : d.request.nonc = nonce := by
            have haccepted := d.accepted
            rw [hbytes, hparse, hnew] at haccepted
            rw [← Outcome.ok.inj haccepted]
            rfl
          have hlong := Request.fromFrame_length hparse
          obtain ⟨r, hread, hvalid⟩ := answer_valid08 (H := H) hE hissued hmint hmaxt hmax hleaf
            (framed request.encode) (by omega) (by
              show _ = d.request.nonc.bytes
              rw [hnonce, hnew]
              exact Request.slice_newDraft08 nonce)
          rw [← hvalidator] at hvalid
          exact ⟨_, acceptResponse_ok_iff.mpr (.inl ⟨hclient, r, t.now, hread, hvalid, rfl⟩)⟩
  | rfcDraft14 =>
      rw [hclient] at hissued hmax hleaf
      cases key with
      | draft08 key => exact hissued.elim
      | draft14 key =>
          obtain ⟨r, hread, -, hvalid⟩ := answer_valid14 (H := H) hE hissued hmint hmaxt hmax hleaf
            d.request.nonc
          rw [← hvalidator] at hvalid
          refine ⟨r, acceptResponse_ok_iff.mpr (.inr ⟨hclient, t.now, hread, ?_⟩)⟩
          rw [← hbytes]
          exact hvalid

theorem Turn.Answers.of_accepted {r : Response} (hrequest : makeRequest client nonce = .ok request)
    (h : t.Answers (framed request.encode) packet)
    (haccept : acceptResponse E.verify H client (framed request.encode) packet = .ok r) :
    t.Matches client ∧ r.srep.midpoint = t.now ∧ r.srep.radius = 5 := by
  obtain ⟨d, i, -, -, rfl⟩ := h.packet_eq (makeRequest_fromFrame hrequest)
  have hissued := t.issued
  -- a packet decodes in one version, that of the worker
  have hdecodes := hissued.decodes t.now
    ((MerkleTree.scheme H).root (t.batch.map (Datagram.leaf l.args.protocol)))
    (ResponseHandler.proofOf H (t.batch.map (Datagram.leaf l.args.protocol)) i) d.pending
    (UInt32.ofNat i)
  rcases acceptResponse_ok_iff.mp haccept with ⟨hclient, r, m, hparse, hvalid, rfl⟩ |
    ⟨hclient, m, hparse, hvalid⟩
  · have hversion : ProtocolVersion.rfcDraft08 = l.args.protocol :=
      Decodes.unique ⟨r, hparse⟩ hdecodes
    rw [← hversion] at hissued
    unfold Turn.Matches Turn.InTime
    rw [hclient, ← hversion]
    generalize t.handler.onlineKey = key at hissued hparse hvalid ⊢
    cases key with
    | draft14 key => exact hissued.elim
    | draft08 key =>
        obtain ⟨hwindow, hmidpoint, hradius⟩ := answer_accepted08 hissued hparse hvalid
        exact ⟨⟨rfl, hwindow⟩, hmidpoint, hradius⟩
  · have hversion : ProtocolVersion.rfcDraft14 = l.args.protocol :=
      Decodes.unique ⟨r, hparse⟩ hdecodes
    rw [← hversion] at hissued
    unfold Turn.Matches Turn.InTime
    rw [hclient, ← hversion]
    generalize t.handler.onlineKey = key at hissued hparse hvalid ⊢
    cases key with
    | draft08 key => exact hissued.elim
    | draft14 key =>
        obtain ⟨hwindow, hmidpoint, hradius⟩ := answer_accepted14 hissued hparse hvalid
        exact ⟨⟨rfl, hwindow⟩, hmidpoint, hradius⟩

/-- The buffer of the client holds any answer. -/
theorem Turn.Answers.take_bufSize (hrequest : makeRequest client nonce = .ok request)
    (h : t.Answers (framed request.encode) packet) : packet.take bufSize = packet := by
  obtain ⟨d, i, -, -, rfl⟩ := h.packet_eq (makeRequest_fromFrame hrequest)
  have hmax : (t.batch.map (Datagram.leaf l.args.protocol)).length ≤ 64 := by
    rw [List.length_map]
    exact t.batch_length
  refine List.take_of_length_le (Nat.le_trans ?_ (by decide : 608 ≤ bufSize))
  exact t.issued.encode_length_le t.now _ (elements_proofOf hmax i).1 d.pending _

/-- What a query that was served measures. -/
theorem Served.measures (h : Served t client prior x) {m : Measurement}
    (hquery : query E.verify H client prior x = .ok m) :
    t.Matches client ∧ m.midpoint = t.now ∧ m.radius = 5 := by
  obtain ⟨request, packet, addr, hrequest, hanswers, hrecv⟩ := h.heard
  have hq := query_ok hquery
  have hsame : request = m.request := by
    have hasked := hq.request
    rw [hq.nonce] at hasked
    exact Outcome.ok.inj (hrequest.symm.trans hasked)
  obtain ⟨packet', addr', hrecv', haccept⟩ := hq.received
  cases hrecv.symm.trans hrecv'
  rw [← hsame, hanswers.take_bufSize hrequest] at haccept
  exact hanswers.of_accepted hrequest haccept

/-- A query that was served is a measurement exactly if worker and client match. -/
theorem Served.query_iff (hE : E.Correct) (h : Served t client prior x) :
    (∃ m, query E.verify H client prior x = .ok m) ↔ t.Matches client := by
  constructor
  · rintro ⟨m, hquery⟩
    exact (h.measures hquery).1
  · intro hmatch
    obtain ⟨request, packet, addr, hrequest, hanswers, hrecv⟩ := h.heard
    obtain ⟨n, hsend⟩ := h.sent
    obtain ⟨r, haccept⟩ := hanswers.accepted hE hmatch h.key hrequest
    rw [← hanswers.take_bufSize hrequest] at haccept
    have hx : x = ⟨x.random, .ok n, .ok (packet, addr)⟩ := by
      rw [← hsend, ← hrecv]
    rw [hx]
    exact ⟨_, query_of_parts hrequest haccept⟩

end Query

/-! ## A run of the client -/

section Run

variable {E : Ed25519} {H : Bytes → Hash} {debug : Bool} {s : MeasurementSequence}
  {exchanges : Nat → Client.Exchange} {rounds : Nat} {l : Nat → Launch}

/-- Every query that the run gets to is served. -/
def ServedBy (t : ∀ k, Turn E H debug (l k)) (s : MeasurementSequence)
    (exchanges : Nat → Client.Exchange) (rounds : Nat) : Prop :=
  ∀ k client ms prior, (s.schedule rounds)[k]? = some client →
    s.after E.verify H exchanges rounds k = .ok (ms, prior) →
      Served (t k) client prior (exchanges k)

variable {t : ∀ k, Turn E H debug (l k)}

/-- One query more. -/
theorem after_succ_iff {k : Nat} {client : Client} {state : List Measurement × Option Response}
    (hclient : (s.schedule rounds)[k]? = some client) :
    s.after E.verify H exchanges rounds (k + 1) = .ok state ↔
      ∃ ms prior m, s.after E.verify H exchanges rounds k = .ok (ms, prior) ∧
        query E.verify H client prior (exchanges k) = .ok m ∧
        state = (ms ++ [m], some m.response) := by
  have hsplit : s.after E.verify H exchanges rounds (k + 1) =
      s.after E.verify H exchanges rounds k >>= fun state =>
        MeasurementSequence.step E.verify H exchanges state client := by
    unfold after
    rw [List.take_add_one, hclient, Option.toList_some, bind_assoc]
    refine bind_congr fun _ => ?_
    rw [List.foldlM_append]
    refine bind_congr fun _ => ?_
    rw [List.foldlM_cons]
    exact bind_pure _
  have hlength : ∀ {ms prior}, s.after E.verify H exchanges rounds k = .ok (ms, prior) →
      ms.length = k := by
    intro ms prior hafter
    have hlt := (List.getElem?_eq_some_iff.mp hclient).1
    rw [(after_chained hafter).2.length_eq, List.length_take]
    omega
  rw [hsplit, Outcome.bind_ok_iff]
  constructor
  · rintro ⟨⟨ms, prior⟩, hafter, hstep⟩
    obtain ⟨m, hquery, hm⟩ := Outcome.bind_ok_iff.mp hstep
    rw [hlength hafter] at hquery
    exact ⟨ms, prior, m, hafter, hquery, (Outcome.ok.inj hm).symm⟩
  · rintro ⟨ms, prior, m, hafter, hquery, rfl⟩
    refine ⟨(ms, prior), hafter, Outcome.bind_ok_iff.mpr ⟨m, ?_, rfl⟩⟩
    rw [hlength hafter]
    exact hquery

theorem requireKeys_ok (hkeys : ∀ client ∈ s.clients, client.publicKey ≠ none) :
    s.requireKeys = .ok () := by
  refine Outcome.forM_ok_iff.mpr ?_
  intro client hclient
  exact Outcome.failIf_ok_iff.mpr (hkeys client hclient)

/-- As far as the queries match, the run goes on. -/
theorem after_of_matches (hE : E.Correct)
    (hkeys : ∀ client ∈ s.clients, client.publicKey ≠ none)
    (hserved : ServedBy t s exchanges rounds) {n : Nat}
    (hmatch : ∀ k client, k < n → (s.schedule rounds)[k]? = some client →
      (t k).Matches client) (hn : n ≤ (s.schedule rounds).length) :
    ∃ state, s.after E.verify H exchanges rounds n = .ok state := by
  induction n with
  | zero =>
      refine ⟨([], none), ?_⟩
      unfold after
      rw [requireKeys_ok hkeys]
      rfl
  | succ n ih =>
      obtain ⟨⟨ms, prior⟩, hafter⟩ := ih (fun k client hk => hmatch k client (Nat.lt_succ_of_lt hk))
        (Nat.le_of_succ_le hn)
      have hclient := List.getElem?_eq_getElem hn
      obtain ⟨m, hquery⟩ := ((hserved n _ ms prior hclient hafter).query_iff hE).mpr
        (hmatch n _ (Nat.lt_succ_self n) hclient)
      exact ⟨_, (after_succ_iff hclient).mpr ⟨ms, prior, m, hafter, hquery, rfl⟩⟩

/-- Each measurement is the answer to a query that the run got to. -/
theorem after_asked {n : Nat} (hn : n ≤ (s.schedule rounds).length) {ms : List Measurement}
    {prior : Option Response} (hafter : s.after E.verify H exchanges rounds n = .ok (ms, prior)) :
    ms.length = n ∧ ∀ k m, ms[k]? = some m → ∃ client before prior',
      (s.schedule rounds)[k]? = some client ∧
        s.after E.verify H exchanges rounds k = .ok (before, prior') ∧
        query E.verify H client prior' (exchanges k) = .ok m := by
  induction n generalizing ms prior with
  | zero =>
      have hnone : ms = [] := by
        obtain ⟨u, -, hloop⟩ := Outcome.bind_ok_iff.mp hafter
        exact (Prod.mk.inj (Outcome.ok.inj hloop)).1.symm
      subst hnone
      exact ⟨rfl, fun k m hm => nomatch hm⟩
  | succ n ih =>
      have hclient := List.getElem?_eq_getElem hn
      obtain ⟨ms', prior', m, hbefore, hquery, hstate⟩ := (after_succ_iff hclient).mp hafter
      obtain ⟨rfl, -⟩ := Prod.mk.inj hstate
      obtain ⟨hlength, hasked⟩ := ih (Nat.le_of_succ_le hn) hbefore
      refine ⟨by rw [List.length_append, hlength]; rfl, ?_⟩
      intro k m' hm'
      rcases Nat.lt_trichotomy k ms'.length with hlt | heq | hgt
      · rw [List.getElem?_append_left hlt] at hm'
        exact hasked k m' hm'
      · rw [heq, List.getElem?_concat_length] at hm'
        obtain rfl := Option.some.inj hm'
        rw [heq, hlength]
        exact ⟨_, ms', prior', hclient, hbefore, hquery⟩
      · rw [List.getElem?_eq_none (by rw [List.length_append]; exact hgt)] at hm'
        cases hm'

/-- And it has measured their clocks. -/
theorem after_measures (hserved : ServedBy t s exchanges rounds) {n : Nat}
    (hn : n ≤ (s.schedule rounds).length) {ms : List Measurement} {prior : Option Response}
    (hafter : s.after E.verify H exchanges rounds n = .ok (ms, prior)) :
    ms.length = n ∧
      (∀ k client, k < n → (s.schedule rounds)[k]? = some client → (t k).Matches client) ∧
      ∀ k m, ms[k]? = some m → m.midpoint = (t k).now ∧ m.radius = 5 := by
  obtain ⟨hlength, hasked⟩ := after_asked hn hafter
  refine ⟨hlength, ?_, ?_⟩
  · intro k client hk hget
    obtain ⟨client', before, prior', hclient, hbefore, hquery⟩ :=
      hasked k _ (List.getElem?_eq_getElem (hlength ▸ hk))
    obtain rfl := Option.some.inj (hclient.symm.trans hget)
    exact ((hserved k _ before prior' hclient hbefore).measures hquery).1
  · intro k m hm
    obtain ⟨client, before, prior', hclient, hbefore, hquery⟩ := hasked k m hm
    exact ((hserved k client before prior' hclient hbefore).measures hquery).2

/-- A run of matching queries. -/
theorem run_of_matches (hE : E.Correct) (hkeys : ∀ client ∈ s.clients, client.publicKey ≠ none)
    (hserved : ServedBy t s exchanges rounds)
    (hmatch : ∀ k client, (s.schedule rounds)[k]? = some client → (t k).Matches client) :
    ∃ ms, s.run E.verify H exchanges rounds = .ok ms := by
  obtain ⟨⟨ms, prior⟩, hafter⟩ := after_of_matches hE hkeys hserved
    (fun k client _ hclient => hmatch k client hclient) (Nat.le_refl _)
  refine ⟨ms, ?_⟩
  rw [run_eq, hafter]
  rfl

theorem run_measures (hserved : ServedBy t s exchanges rounds) {ms : List Measurement}
    (hrun : s.run E.verify H exchanges rounds = .ok ms) :
    (∀ k client, (s.schedule rounds)[k]? = some client → (t k).Matches client) ∧
      ms.length = s.clients.length * rounds ∧
      ∀ k m, ms[k]? = some m → m.midpoint = (t k).now ∧ m.radius = 5 := by
  rw [run_eq] at hrun
  obtain ⟨⟨ms', prior⟩, hafter, hms⟩ := Outcome.bind_ok_iff.mp hrun
  obtain rfl : ms' = ms := Outcome.ok.inj hms
  obtain ⟨hlength, hmatch, hclocks⟩ := after_measures hserved (Nat.le_refl _) hafter
  refine ⟨?_, hlength.trans (schedule_length s rounds), hclocks⟩
  intro k client hclient
  exact hmatch k client (List.getElem?_eq_some_iff.mp hclient).1 hclient

end Run

/-- A run of the client, each query of which is taken and answered by a worker with the key of the
server that is asked, whatever else the worker has done and takes with it: the run returns exactly
if each worker speaks the version of its client and read its clock inside the delegation of its
key.  Then its measurements are these clocks, in order, with five seconds on both sides. -/
theorem run_measures_iff (E : Ed25519) (hE : E.Correct) (H : Bytes → Hash) (debug : Bool)
    (s : MeasurementSequence) (exchanges : Nat → Client.Exchange) (rounds : Nat)
    (l : Nat → Launch) (t : ∀ k, Turn E H debug (l k))
    (hkeys : ∀ client ∈ s.clients, client.publicKey ≠ none)
    (hserved : ServedBy t s exchanges rounds) :
    ((∃ ms, s.run E.verify H exchanges rounds = .ok ms) ↔
      ∀ k client, (s.schedule rounds)[k]? = some client → (t k).Matches client) ∧
    ∀ ms, s.run E.verify H exchanges rounds = .ok ms →
      ms.length = s.clients.length * rounds ∧
        ∀ k m, ms[k]? = some m → m.midpoint = (t k).now ∧ m.radius = 5 := by
  refine ⟨⟨?_, run_of_matches hE hkeys hserved⟩, fun ms hrun => (run_measures hserved hrun).2⟩
  rintro ⟨ms, hrun⟩
  exact (run_measures hserved hrun).1

/-! ## Three servers that listen -/

namespace Sample

/-- A worker of a release build with room for batches of 64. -/
def answering : Launch :=
  ⟨0, ⟨64, .rfcDraft14, 1, by decide⟩, keySource .rfcDraft14, (config .rfcDraft14).draw, 1000,
    .fromSecs 100000⟩

/-- A client that knows its key. -/
def asker : Client :=
  ClientBuilder.client digest
    { ClientBuilder.new address with publicKey := some (answering.keySource.publicKey ed25519) }

def askers : MeasurementSequence := ⟨[asker, asker, asker], by decide⟩

/-- At its first event, with a key for the time from 1000 to 4600. -/
theorem listening : ∃ exchanges s, answering.Runs ed25519 digest false exchanges s ∧
    s.phase = .collect 0 ∧
    s.worker.reqHandler.responder.onlineKey.cert.delegation.minTime = 1000 ∧
    s.worker.reqHandler.responder.onlineKey.cert.delegation.maxTime.toNat = 4600 := by
  obtain ⟨s₀, hstart⟩ := answering.start_release (E := ed25519)
  obtain ⟨hphase, hplan, -⟩ := Launch.start_ok (H := digest) hstart
  obtain ⟨w₀, phase⟩ := s₀
  cases hphase
  obtain ⟨⟨snapshot, key⟩, w₁, htop⟩ := w₀.loopTop_release (E := ed25519)
    ⟨1000, 1000, (config .rfcDraft14).draw, 0⟩
  have hrun : answering.Runs ed25519 digest false [] ⟨w₀, .top⟩ := ⟨_, hstart, .start⟩
  have hpoll : Step ed25519 digest false ⟨w₁, .poll⟩ (.poll false 1) ⟨w₁, .collect 0⟩ :=
    .poll false 1
  refine ⟨_, _, (hrun.step (.top htop)).step hpoll, rfl, ?_⟩
  cases key with
  | none =>
      have hearly := Step.top_early (H := digest) (.top htop)
      rw [show w₀.nextKeyReplacement = 1000 from hplan] at hearly
      exact absurd hearly (by decide)
  | some k =>
      obtain ⟨-, -, -, hmint, hmaxt⟩ := hrun.replaced (.top htop)
      exact ⟨hmint, hmaxt.trans rfl⟩

/-- A request to the listening worker, with that of a stranger in front. -/
theorem exists_turn (now : UInt64) (hlow : 1000 ≤ now.toNat) (hhigh : now.toNat ≤ 4600)
    {request : Bytes} {r : Request} (hr : Request.fromFrame request = .ok r) :
    ∃ (t : Turn ed25519 digest false answering) (packet : Bytes), t.now = now ∧ t.InTime ∧
      t.Answers request packet := by
  obtain ⟨exchanges, ⟨w, phase⟩, hrun, hphase, hmint, hmaxt⟩ := listening
  cases hphase
  obtain ⟨result, w', hcollect⟩ := w.collectRequests_release (H := digest)
    [.datagram datagram.bytes address, .datagram request address]
  have hcollects : Step ed25519 digest false ⟨w, .collect 0⟩ (.collect _)
      ⟨w', .generate 0 result⟩ := .collect hcollect
  obtain ⟨outs, w'', hgen⟩ := (hrun.step hcollects).generate_release now fun _ => true
  let t : Turn ed25519 digest false answering :=
    ⟨exchanges, _, _, _, now, _, outs, _, hrun, hcollects, .generate hgen⟩
  have hcert : t.handler.onlineKey.cert = w.reqHandler.responder.onlineKey.cert :=
    congrArg Prod.fst (hrun.rotation_kept hcollects rfl)
  obtain ⟨packet, hpacket⟩ := t.answers_of_taken (.tail _ (.head _)) hr
  refine ⟨t, packet, rfl, ?_, hpacket⟩
  unfold Turn.InTime
  rw [hcert, hmint, hmaxt]
  exact ⟨hlow, hhigh⟩

theorem exists_served (now : UInt64) (hlow : 1000 ≤ now.toNat) (hhigh : now.toNat ≤ 4600)
    (prior : Option Response) :
    ∃ (t : Turn ed25519 digest false answering) (x : Client.Exchange) (m : Measurement),
      t.now = now ∧ t.Matches asker ∧ Served t asker prior x ∧
        query ed25519.verify digest asker prior x = .ok m := by
  obtain ⟨request, hrequest⟩ := @makeRequest_ok asker (fun h => nomatch h)
    (nonceAfter digest prior (Octets.fill 32 0x77))
  obtain ⟨t, packet, hnow, hwindow, hanswers⟩ :=
    exists_turn now hlow hhigh (makeRequest_fromFrame hrequest)
  have hserved : Served t asker prior
      ⟨Octets.fill 32 0x77, .ok 1024, .ok (packet, address)⟩ :=
    ⟨rfl, ⟨_, rfl⟩, request, packet, address, hrequest, hanswers, rfl⟩
  obtain ⟨m, hquery⟩ := (hserved.query_iff ed25519_correct).mpr ⟨rfl, hwindow⟩
  exact ⟨t, _, m, hnow, ⟨rfl, hwindow⟩, hserved, hquery⟩

/-- Any rounds, answered at any times inside the delegation. -/
theorem served_rounds (now : Nat → UInt64)
    (hnow : ∀ k, 1000 ≤ (now k).toNat ∧ (now k).toNat ≤ 4600) (rounds : Nat) :
    ∃ (t : Nat → Turn ed25519 digest false answering) (exchanges : Nat → Client.Exchange),
      ServedBy t askers exchanges rounds ∧ ∀ k, (t k).Matches asker ∧ (t k).now = now k := by
  choose t x m hclock hmatch hserved hquery using
    fun k prior => exists_served (now k) (hnow k).1 (hnow k).2 prior
  -- the response that query `k` is chained to, if each is answered by the turn made for it
  let prior : Nat → Option Response := fun k => k.rec none fun k p => some (m k p).response
  refine ⟨fun k => t k (prior k), fun k => x k (prior k), ?_, ?_⟩
  · have hprior : ∀ k ms p, k ≤ (askers.schedule rounds).length →
        askers.after ed25519.verify digest (fun k => x k (prior k)) rounds k = .ok (ms, p) →
          p = prior k := by
      intro k
      induction k with
      | zero =>
          intro ms p _ hafter
          exact (Prod.mk.inj (Outcome.ok.inj hafter)).2.symm
      | succ k ih =>
          intro ms p hk hafter
          have hclient : (askers.schedule rounds)[k]? = some asker := by
            have hget := List.getElem?_eq_getElem hk
            have hmem : (askers.schedule rounds)[k] ∈ List.replicate 3 asker :=
              mem_clients_of_schedule hget
            rwa [List.eq_of_mem_replicate hmem] at hget
          obtain ⟨ms', p', m', hbefore, hasked, hstate⟩ := (after_succ_iff hclient).mp hafter
          obtain rfl := ih ms' p' (Nat.le_of_succ_le hk) hbefore
          obtain rfl := Outcome.ok.inj ((hquery k (prior k)).symm.trans hasked)
          exact (Prod.mk.inj hstate).2
    intro k client ms p hclient hafter
    have hmem : client ∈ List.replicate 3 asker := mem_clients_of_schedule hclient
    obtain rfl := List.eq_of_mem_replicate hmem
    obtain rfl := hprior k ms p (Nat.le_of_lt (List.getElem?_eq_some_iff.mp hclient).1) hafter
    exact hserved k (prior k)
  · intro k
    exact ⟨hmatch k (prior k), hclock k (prior k)⟩

/-- The clocks of one round. -/
def clocks (k : Nat) : UInt64 := [2000, 2001].getD k 2002

theorem clocks_inTime (k : Nat) : 1000 ≤ (clocks k).toNat ∧ (clocks k).toNat ≤ 4600 := by
  match k with
  | 0 => decide
  | 1 => decide
  | k + 2 => exact (by decide : 1000 ≤ (2002 : UInt64).toNat ∧ (2002 : UInt64).toNat ≤ 4600)

theorem askers_keys : ∀ client ∈ askers.clients, client.publicKey ≠ none := by
  intro client hclient
  have hasker : client ∈ List.replicate 3 asker := hclient
  rw [List.eq_of_mem_replicate hasker]
  exact fun h => nomatch h

end Sample

open Sample

/-- The run of three queries has measured the three clocks. -/
theorem run_measures_iff_three : ∃ exchanges ms,
    askers.run ed25519.verify digest exchanges 1 = .ok ms ∧
      ms.map Measurement.midpoint = [2000, 2001, 2002] := by
  obtain ⟨t, exchanges, hserved, hturns⟩ := served_rounds clocks clocks_inTime 1
  obtain ⟨hiff, hclocks⟩ := run_measures_iff ed25519 ed25519_correct digest false askers exchanges 1
    (fun _ => answering) t askers_keys hserved
  obtain ⟨ms, hrun⟩ := hiff.mpr fun k client hclient => by
    have hasker : client ∈ List.replicate 3 asker := mem_clients_of_schedule hclient
    rw [List.eq_of_mem_replicate hasker]
    exact (hturns k).1
  obtain ⟨hlength, hmidpoints⟩ := hclocks ms hrun
  obtain ⟨a, b, c, rfl⟩ := List.length_eq_three.mp hlength
  refine ⟨exchanges, _, hrun, ?_⟩
  show [a.midpoint, b.midpoint, c.midpoint] = _
  rw [(hmidpoints 0 a rfl).1, (hmidpoints 1 b rfl).1, (hmidpoints 2 c rfl).1, (hturns 0).2,
    (hturns 1).2, (hturns 2).2]
  rfl

/-- What a run measures is what its attempt measures. -/
theorem measure_of_run {E : Ed25519} {H : Bytes → Hash} {args : Client.Args} {a : Attempt}
    {s : MeasurementSequence} {ms : List Measurement} (hclients : a.clients = .ok s.clients)
    (hrun : s.run E.verify H a.exchanges args.numMeasurementRounds = .ok ms) :
    Client.measure E.verify H args a = .ok ms := by
  have hnew : MeasurementSequence.new s.clients = .ok s := by
    unfold MeasurementSequence.new
    exact dif_neg (Nat.not_lt.mpr s.enough)
  unfold Client.measure
  rw [hclients]
  show (exitOnErr (MeasurementSequence.new s.clients) >>= _) = _
  rw [hnew]
  show exitOnErr (s.run E.verify H a.exchanges args.numMeasurementRounds) = _
  rw [hrun]
  rfl

theorem last_measured {ms : List Measurement} {n : Nat} {now : Nat → UInt64}
    (hlength : ms.length = n) (hpos : 1 ≤ n)
    (hclocks : ∀ k m, ms[k]? = some m → m.midpoint = now k) :
    ∃ m, ms.getLast? = some m ∧ m.midpoint = now (n - 1) := by
  obtain ⟨m, hget⟩ : ∃ m, ms[n - 1]? = some m := ⟨_, List.getElem?_eq_getElem (by omega)⟩
  refine ⟨m, ?_, hclocks (n - 1) m hget⟩
  rw [List.getLast?_eq_getElem?, hlength]
  exact hget

/-- The same client with its check of causality and its retries: if the queries match and every
clock was within five seconds of a true time that never goes back and stays ten seconds off the
ends of `u64`, its first attempt finds no violation and settles the matter with the clock of the
last worker. -/
theorem honest_world_settled {T : Type} (E : Ed25519) (hE : E.Correct) (H : Bytes → Hash)
    (J : Jiff T) (B : Codec) (debug build : Bool) (args : Client.Args) (servers : ServerList)
    (attempts : Nat → Attempt) (s : MeasurementSequence) (l : Nat → Launch)
    (t : ∀ k, Turn E H debug (l k)) (tl : Timeline)
    (hretries : args.causalityViolationRetries ≠ 255) (hrounds : 1 ≤ args.numMeasurementRounds)
    (hclients : (attempts 1).clients = .ok s.clients)
    (hkeys : ∀ client ∈ s.clients, client.publicKey ≠ none)
    (hserved : ServedBy t s (attempts 1).exchanges args.numMeasurementRounds)
    (hmatch : ∀ k client, (s.schedule args.numMeasurementRounds)[k]? = some client →
      (t k).Matches client)
    (hclock : ∀ k < s.clients.length * args.numMeasurementRounds, ∃ p, tl.sentAt k ≤ p ∧
      p < tl.heardAt k ∧ tl.time p ≤ (t k).now.toNat + 5 ∧ (t k).now.toNat ≤ tl.time p + 5) :
    (∃ ms, Client.measure E.verify H args (attempts 1) = .ok ms ∧
      validateCausality build ms = .ok []) ∧
    queryMultipleServers E.verify H J B build args (some servers) attempts =
      ⟨1, .ok (t (s.clients.length * args.numMeasurementRounds - 1)).now⟩ := by
  obtain ⟨ms, hrun⟩ := run_of_matches hE hkeys hserved hmatch
  obtain ⟨-, hlength, hclocks⟩ := run_measures hserved hrun
  have hcausal : validateCausality build ms = .ok [] := by
    refine tl.validateCausality_honest build ?_
    intro k m hk
    obtain ⟨hmidpoint, hradius⟩ := hclocks k m hk
    refine ⟨hradius, ?_⟩
    rw [hmidpoint]
    exact hclock k (hlength ▸ (List.getElem?_eq_some_iff.mp hk).1)
  have hpos : 1 ≤ s.clients.length * args.numMeasurementRounds :=
    Nat.mul_pos (Nat.lt_of_lt_of_le (by decide) s.enough) hrounds
  obtain ⟨m, hlast, hmidpoint⟩ := last_measured hlength hpos fun k m hm => (hclocks k m hm).1
  have hmeasure : Client.measure E.verify H args (attempts 1) = .ok ms :=
    measure_of_run hclients hrun
  exact ⟨⟨ms, hmeasure, hcausal⟩,
    settled_of_clean hretries ⟨ms, m, hmeasure, hlast, hmidpoint, hcausal⟩⟩

theorem honest_world_settled_three : ∃ exchanges,
    (∃ ms, Client.measure ed25519.verify digest (Network.argsWith 1 2)
        ⟨.ok askers.clients, exchanges⟩ = .ok ms ∧ validateCausality true ms = .ok []) ∧
    queryMultipleServers ed25519.verify digest Network.jiff Network.base64 true
      (Network.argsWith 1 2) (some ⟨none⟩) (fun _ => ⟨.ok askers.clients, exchanges⟩) =
        ⟨1, .ok 2002⟩ := by
  obtain ⟨t, exchanges, hserved, hturns⟩ := served_rounds clocks clocks_inTime 1
  have hmatches : ∀ (k : Nat) (client : Client), (askers.schedule 1)[k]? = some client →
      (t k).Matches client := by
    intro k client hclient
    have hasker : client ∈ List.replicate 3 asker := mem_clients_of_schedule hclient
    rw [List.eq_of_mem_replicate hasker]
    exact (hturns k).1
  obtain ⟨hclean, hsettled⟩ := honest_world_settled ed25519 ed25519_correct digest Network.jiff
    Network.base64 false true (Network.argsWith 1 2) ⟨none⟩
    (fun _ => ⟨.ok askers.clients, exchanges⟩) askers (fun _ => answering) t Witness.timeline
    (by decide) (Nat.le_refl 1) rfl askers_keys hserved hmatches (by
      intro k hk
      refine ⟨2 * k, Nat.le_refl _, Nat.lt_add_of_pos_right (by decide), ?_⟩
      have hk' : k < 3 := hk
      rw [(hturns k).2]
      obtain rfl | rfl | rfl : k = 0 ∨ k = 1 ∨ k = 2 := by omega
      · decide
      · decide
      · decide)
  exact ⟨exchanges, hclean, hsettled.trans (congrArg (Ended.mk 1 ∘ Outcome.ok) (hturns 2).2)⟩

end Roughenough.Server
