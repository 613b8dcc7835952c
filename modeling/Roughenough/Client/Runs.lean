/-
# `Roughenough.Client.Runs` — what a whole run returns

`MeasurementSequence::run` asks the clients in turn, round after round, and
stops at the first query that fails.  Over any network:

    run_chained    a run that returns has one measurement for every client and
                   round, measurement `k` is client `k mod n`'s answer to a
                   request chained to measurement `k - 1`, and a query that
                   fails is what the run returns

Nothing in a query panics when the clients have keys and the transport
answers, so that a failed query is an `Err`.
-/
import Roughenough.Client.Reencode
import Roughenough.Client.Sequence

namespace Roughenough.Client

open Roughenough.Base Roughenough.Protocol Roughenough.Merkle

namespace MeasurementSequence

/-! ## Turns -/

section Turns

/-- Query `k` goes to client `k mod n`. -/
theorem getElem?_flatten_replicate {α : Type} (l : List α) (rounds k : Nat) :
    (List.replicate rounds l).flatten[k]? =
      if k < l.length * rounds then l[k % l.length]? else none := by
  induction rounds generalizing k with
  | zero => rfl
  | succ rounds ih =>
      rw [List.replicate_succ, List.flatten_cons, List.getElem?_append, Nat.mul_succ]
      by_cases hlt : k < l.length
      · rw [if_pos hlt, if_pos (by omega), Nat.mod_eq_of_lt hlt]
      · rw [if_neg hlt, ih, Nat.mod_eq_sub_mod (Nat.le_of_not_lt hlt)]
        refine if_congr ?_ rfl rfl
        omega

theorem schedule_length (s : MeasurementSequence) (rounds : Nat) :
    (s.schedule rounds).length = s.clients.length * rounds := by
  rw [schedule, List.length_flatten, List.map_replicate, List.sum_replicate_nat,
    Nat.mul_comm]

theorem schedule_getElem? (s : MeasurementSequence) {rounds k : Nat}
    (hk : k < s.clients.length * rounds) :
    (s.schedule rounds)[k]? = s.clients[k % s.clients.length]? := by
  rw [schedule, getElem?_flatten_replicate, if_pos hk]

end Turns

/-! ## Queries that fail -/

section Failures

variable {V : Verify} {H : Bytes → Hash}

theorem acceptResponse_ne_panic (client : Client) (requestBytes responseBytes : Bytes) :
    acceptResponse V H client requestBytes responseBytes ≠ .panic := by
  unfold acceptResponse
  cases client.protocolVersion with
  | rfcDraft08 =>
      refine Outcome.bind_ne_panic ?_ ?_
      · exact Outcome.mapErr_ne_panic (bind_fst_ne_panic ResponseDraft08.safe_fromWire _)
      · intro r hr
        obtain ⟨len, vw, tail, -, -, hacc, -⟩ :=
          ResponseDraft08.fromFrame_ok_iff.mp (Outcome.mapErr_ok_iff.mp hr)
        refine Outcome.bind_ne_panic ?_ fun _ _ => Outcome.ok_ne_panic _
        exact Outcome.mapErr_ne_panic
          (ResponseValidator.validateDraft08_ne_panic (hacc.wellFormed.le_succ (by decide)))
  | rfcDraft14 =>
      refine Outcome.bind_ne_panic ?_ ?_
      · exact Outcome.mapErr_ne_panic (bind_fst_ne_panic Response.safe_fromWire _)
      · intro r hr
        obtain ⟨len, vw, ws, tail, -, -, hacc, -⟩ :=
          Response.fromFrame_ok_iff.mp (Outcome.mapErr_ok_iff.mp hr)
        refine Outcome.bind_ne_panic ?_ fun _ _ => Outcome.ok_ne_panic _
        exact Outcome.mapErr_ne_panic
          (ResponseValidator.validateDraft14_ne_panic (hacc.wellFormed.le_succ (by decide)))

/-- A client with a key can make its request. -/
theorem makeRequest_ok {client : Client} (hkey : client.publicKey ≠ none) (nonce : Nonce) :
    ∃ request, makeRequest client nonce = .ok request := by
  unfold makeRequest
  cases client.protocolVersion with
  | rfcDraft08 => exact ⟨_, rfl⟩
  | rfcDraft14 =>
      have hcommit : client.srvCommit.isSome = true := by
        rw [client.srvCommit_isSome]
        exact Option.isSome_iff_ne_none.mpr hkey
      obtain ⟨srvCommit, hsome⟩ := Option.isSome_iff_exists.mp hcommit
      rw [hsome]
      exact ⟨_, rfl⟩

/-- The transport of an exchange answers, with a result or an error. -/
def Answers (x : Exchange) : Prop := x.send ≠ .panic ∧ x.recv ≠ .panic

theorem query_ne_panic {client : Client} (hkey : client.publicKey ≠ none)
    (prior : Option Response) {x : Exchange} (hx : Answers x) :
    query V H client prior x ≠ .panic := by
  obtain ⟨request, hrequest⟩ := makeRequest_ok hkey (nonceAfter H prior x.random)
  simp only [query, generateNonce_eq, Outcome.ok_bind, hrequest, Request.asFrameBytes_eq,
    Outcome.mapErr_ok]
  refine Outcome.bind_ne_panic hx.1 ?_
  intro _ _
  refine Outcome.bind_ne_panic hx.2 ?_
  rintro ⟨packet, addr⟩ _
  refine Outcome.bind_ne_panic (acceptResponse_ne_panic client _ _) ?_
  intro response _ hbuild
  cases hbuild

theorem requireKeys_ne_panic (s : MeasurementSequence) : s.requireKeys ≠ .panic := by
  unfold requireKeys
  induction s.clients with
  | nil => exact Outcome.ok_ne_panic _
  | cons client clients ih => exact Outcome.bind_ne_panic Outcome.failIf_ne_panic fun _ _ => ih

/-- With a transport that answers, a run returns. -/
theorem run_ne_panic (s : MeasurementSequence) {exchanges : Nat → Exchange}
    (hx : ∀ k, Answers (exchanges k)) (rounds : Nat) :
    s.run V H exchanges rounds ≠ .panic := by
  rw [run_eq]
  refine Outcome.bind_ne_panic ?_ fun _ _ => Outcome.ok_ne_panic _
  refine Outcome.bind_ne_panic s.requireKeys_ne_panic ?_
  intro _ hkeys
  refine Outcome.foldlM_ne_panic ?_ _
  intro state client hclient
  obtain ⟨k, hk⟩ := List.getElem?_of_mem (List.mem_of_mem_take hclient)
  have hkey := forM_failIf_ok hkeys client (mem_clients_of_schedule hk)
  exact Outcome.bind_ne_panic (query_ne_panic hkey _ (hx _)) fun _ _ => Outcome.ok_ne_panic _

/-- A run that returns has asked every client in every round. -/
theorem run_length {s : MeasurementSequence} {exchanges : Nat → Exchange} {rounds : Nat}
    {ms : List Measurement} (h : s.run V H exchanges rounds = .ok ms) :
    ms.length = s.clients.length * rounds := by
  rw [run_eq] at h
  obtain ⟨⟨ms', prior⟩, hafter, hms⟩ := Outcome.bind_ok_iff.mp h
  cases hms
  rw [(after_chained hafter).2.length_eq, List.take_length, schedule_length]

/-- Its measurements are of clients with a key. -/
theorem run_keys {s : MeasurementSequence} {exchanges : Nat → Exchange} {rounds : Nat}
    {ms : List Measurement} (h : s.run V H exchanges rounds = .ok ms) :
    ∀ m ∈ ms, ∃ K, m.publicKey = some K := by
  rw [run_eq] at h
  obtain ⟨⟨ms', prior⟩, hafter, hms⟩ := Outcome.bind_ok_iff.mp h
  cases hms
  intro m hm
  obtain ⟨k, hk⟩ := List.getElem?_of_mem hm
  obtain ⟨client, K, -, hK, hq⟩ := after_queried hafter hk
  exact ⟨K, hq.publicKey.trans hK⟩

/-- A query that fails is what the run returns. -/
theorem run_err_of_query {s : MeasurementSequence} {exchanges : Nat → Exchange} {rounds k : Nat}
    {ms : List Measurement} {prior : Option Response} {client : Client} {e : ClientError}
    (hafter : s.after V H exchanges rounds k = .ok (ms, prior))
    (hclient : (s.schedule rounds)[k]? = some client)
    (hquery : query V H client prior (exchanges k) = .err e) :
    s.run V H exchanges rounds = .err e := by
  obtain ⟨hlt, hget⟩ := List.getElem?_eq_some_iff.mp hclient
  have hlength : ms.length = k := by
    rw [(after_chained hafter).2.length_eq, List.length_take]
    omega
  obtain ⟨u, hkeys, hloop⟩ := Outcome.bind_ok_iff.mp hafter
  have hsplit : s.schedule rounds =
      (s.schedule rounds).take k ++ client :: (s.schedule rounds).drop (k + 1) := by
    rw [← hget, ← List.drop_eq_getElem_cons, List.take_append_drop]
  have hstep : step V H exchanges (ms, prior) client = .err e := by
    unfold step
    rw [hlength, hquery]
    rfl
  have hall : (s.schedule rounds).foldlM (step V H exchanges) ([], none) = .err e := by
    rw [hsplit, List.foldlM_append, hloop, Outcome.ok_bind, List.foldlM_cons, hstep]
    rfl
  rw [run_eq]
  unfold after
  rw [hkeys, List.take_length, Outcome.ok_bind, hall]
  rfl

end Failures

/-! ## Whole runs -/

/-- The response of a measurement was parsed and accepted by the validator of the client, for the
encoding of the request, in the format of the client's version. -/
def AcceptedBy (V : Verify) (H : Bytes → Hash) (client : Client) (m : Measurement)
    (responseBytes : Bytes) : Prop :=
  ∃ requestBytes t, m.request.asFrameBytes = .ok requestBytes ∧
    match client.protocolVersion with
    | .rfcDraft08 => ∃ r, ResponseDraft08.fromFrame responseBytes = .ok r ∧
        client.validator.validateDraft08 V H requestBytes r responseBytes = .ok t ∧
        Response.ofDraft08 r = m.response
    | .rfcDraft14 => Response.fromFrame responseBytes = .ok m.response ∧
        client.validator.validateDraft14 V H requestBytes m.response responseBytes = .ok t

theorem Queried.acceptedBy {V : Verify} {H : Bytes → Hash} {client : Client}
    {prior : Option Response} {x : Exchange} {m : Measurement}
    (hq : Queried V H client prior x m) : ∃ packet addr, x.recv = .ok (packet, addr) ∧
      AcceptedBy V H client m (packet.take bufSize) := by
  obtain ⟨packet, addr, hrecv, haccept⟩ := hq.received
  refine ⟨packet, addr, hrecv, ?_⟩
  unfold AcceptedBy
  rcases acceptResponse_ok_iff.mp haccept with ⟨h08, r, t, hparse, hvalid, hr⟩ |
    ⟨h14, t, hparse, hvalid⟩
  · rw [h08]
    exact ⟨_, t, m.request.asFrameBytes_eq, r, hparse, hvalid, hr⟩
  · rw [h14]
    exact ⟨_, t, m.request.asFrameBytes_eq, hparse, hvalid⟩

/-- Over any network and any random values: a run that returns has one measurement for every
client and round, in turn, each chained to the one before it and accepted by its client; the
first query that fails is what the run returns; and with a transport that answers the run
returns. -/
theorem run_chained (V : Verify) (H : Bytes → Hash) (clients : List Client)
    (hclients : 3 ≤ clients.length)
    (exchanges : Nat → Exchange) (rounds : Nat) :
    (∀ ms, run V H ⟨clients, hclients⟩ exchanges rounds = .ok ms →
      ms.length = clients.length * rounds ∧
      ∀ k m, ms[k]? = some m → ∃ client packet addr,
        clients[k % clients.length]? = some client ∧
        m.server = client.server ∧ m.hostname = client.hostname ∧
        m.publicKey = client.publicKey ∧
        (k = 0 → m.randValue = none ∧ m.priorResponse = none) ∧
        (∀ p, 1 ≤ k → ms[k - 1]? = some p → m.priorResponse = some p.response ∧
          m.randValue = some (exchanges k).random ∧
          calculateChainedNonce H p.response (exchanges k).random.bytes =
            (.ok m.request.nonc : Call Nonce)) ∧
        (exchanges k).recv = .ok (packet, addr) ∧
        AcceptedBy V H client m (packet.take bufSize)) ∧
    (∀ k ms prior client e, k < clients.length * rounds →
      after V H ⟨clients, hclients⟩ exchanges rounds k = .ok (ms, prior) →
      clients[k % clients.length]? = some client →
      query V H client prior (exchanges k) = .err e →
      run V H ⟨clients, hclients⟩ exchanges rounds = .err e) ∧
    ((∀ k, Answers (exchanges k)) → run V H ⟨clients, hclients⟩ exchanges rounds ≠ .panic) := by
  refine ⟨?_, ?_, ?_⟩
  · intro ms hrun
    have hlength := run_length hrun
    rw [run_eq] at hrun
    obtain ⟨⟨ms', prior⟩, hafter, hms⟩ := Outcome.bind_ok_iff.mp hrun
    obtain rfl : ms' = ms := Outcome.ok.inj hms
    refine ⟨hlength, ?_⟩
    intro k m hk
    have hlt := (List.getElem?_eq_some_iff.mp hk).1
    rw [hlength] at hlt
    obtain ⟨client, K, hclient, -, hq⟩ := after_queried hafter hk
    rw [schedule_getElem? _ hlt] at hclient
    obtain ⟨packet, addr, hrecv, haccepted⟩ := hq.acceptedBy
    refine ⟨client, packet, addr, hclient, hq.server, hq.hostname, hq.publicKey, ?_, ?_, hrecv,
      haccepted⟩
    · rintro rfl
      exact ⟨hq.rand, hq.prior⟩
    · intro p hpos hp
      have hlast := lastResponse_take hp
      rw [Nat.sub_add_cancel hpos] at hlast
      rw [hlast] at hq
      refine ⟨hq.prior, hq.rand, ?_⟩
      rw [calculateChainedNonce_eq, hq.nonce]
      rfl
  · intro k ms prior client e hk hafter hclient hquery
    refine run_err_of_query hafter ?_ hquery
    rw [schedule_getElem? _ hk]
    exact hclient
  · intro hx
    exact run_ne_panic _ hx rounds

end MeasurementSequence

open MeasurementSequence

/-! ## Two sample networks -/

namespace Network

/-- A stand-in for Ed25519 in which a key is its own public half. -/
def sign (key : PublicKey) (data : Bytes) : Signature :=
  ⟨key.bytes ++ (digest data).bytes, by rw [List.length_append, key.size_eq, Octets.bytes_length]⟩

def verify : Verify := fun key data sig => decide (sig = sign key data)

def longTermKey : PublicKey := Octets.fill 32 0xa1

def onlineKey : PublicKey := Octets.fill 32 0xb2

def cert (version : ProtocolVersion) : Certificate :=
  Certificate.new
    (sign longTermKey (version.delePrefix ++ (Delegation.new onlineKey 1000 4000).encode))
    (Delegation.new onlineKey 1000 4000)

def address : SocketAddr := .v4 Octets.localhost 2002

def client (version : ProtocolVersion) : Client :=
  ClientBuilder.client digest ⟨address, "localhost", none, none, some longTermKey, version⟩

/-- Three servers of one version. -/
def sequence (version : ProtocolVersion) : MeasurementSequence :=
  ⟨[client version, client version, client version], Nat.le_refl 3⟩

def random (k : Nat) : Octets 32 := Octets.fill 32 (UInt8.ofNat (k + 1))

/-- The request of query `k`, chained to `prior`. -/
def request14 (prior : Option Response) (k : Nat) : Request :=
  Request.newDraft14WithServerCommitment (nonceAfter digest prior (random k))
    (makeSrvCommitment digest longTermKey)

def srep14 (midp : UInt64) (request : Request) : SignedResponse :=
  ((((SignedResponse.default.setVer .rfcDraft14).setRadi 5).setMidp midp).setVers
    (VersionList.new [.rfcDraft14])).setRoot (MerkleTree.hashLeaf digest (framed request.encode))

/-- The draft-14 answer to it, from a server whose clock shows `midp`. -/
def reply14 (midp : UInt64) (prior : Option Response) (k : Nat) : Response :=
  let srep := srep14 midp (request14 prior k)
  (((Response.default.setSig
    (sign onlineKey (ProtocolVersion.rfcDraft14.srepPrefix ++ srep.encode))).setNonc
      (nonceAfter digest prior (random k))).setSrep srep).setCert (cert .rfcDraft14)

def request08 (prior : Option Response) (k : Nat) : Request :=
  Request.newDraft08 (nonceAfter digest prior (random k))

def srep08 (midp : UInt64) (request : Request) : SignedResponseDraft08 :=
  ((SignedResponseDraft08.default.setRadi 5).setMidp midp).setRoot
    (MerkleTree.hashLeaf digest request.nonc.bytes)

/-- The draft-08 answer. -/
def reply08 (midp : UInt64) (prior : Option Response) (k : Nat) : ResponseDraft08 :=
  let srep := srep08 midp (request08 prior k)
  ((ResponseDraft08.default.setSig
    (sign onlineKey (ProtocolVersion.rfcDraft08.srepPrefix ++ srep.encode))).setSrep
      srep).setCert (cert .rfcDraft08)

/-- The delegation is good until 5000. -/
theorem maxTime_eq : (Delegation.new onlineKey 1000 4000).maxTime.toNat = 5000 := by decide

/-- A response in the layout of draft-14 whose SREP and CERT are of the given version. -/
def replyOf (version : ProtocolVersion) (midp : UInt64) (request : Request) : Response :=
  let srep := ((((SignedResponse.default.setVer version).setRadi 5).setMidp midp).setVers
    (VersionList.new [version])).setRoot (MerkleTree.hashLeaf digest (framed request.encode))
  (((Response.default.setSig (sign onlineKey (version.srepPrefix ++ srep.encode))).setNonc
    request.nonc).setSrep srep).setCert (cert version)

/-- With any certificate of the two keys whose range holds the midpoint it is accepted, whatever
NONC and INDX are. -/
theorem replyOf_valid_cert (version : ProtocolVersion) (midp : UInt64) (request : Request)
    {x : Certificate} (hkey : x.delegation.publicKey = onlineKey)
    (hsigned : verify longTermKey (version.delePrefix ++ x.delegation.encode) x.signature = true)
    (hmint : x.delegation.minTime.toNat ≤ midp.toNat)
    (hmaxt : midp.toNat ≤ x.delegation.maxTime.toNat) (nonce : Nonce) (index : UInt32) :
    Response.fromFrame
        (framed ((((replyOf version midp request).setCert x).setNonc nonce).setIndx index).encode) =
      .ok ((((replyOf version midp request).setCert x).setNonc nonce).setIndx index) ∧
    (ResponseValidator.newWithKey longTermKey).validateDraft14 verify digest
      (framed request.encode)
      ((((replyOf version midp request).setCert x).setNonc nonce).setIndx index)
      (framed ((((replyOf version midp request).setCert x).setNonc nonce).setIndx index).encode) =
        .ok midp := by
  have hbuilt :
      ((((replyOf version midp request).setCert x).setNonc nonce).setIndx index).Built := by
    refine ⟨?_, rfl, ?_, ?_, ?_⟩
    · cases version <;> rfl
    · cases version <;> rfl
    · exact List.cons_ne_nil _ _
    · have hone : ∀ v : ProtocolVersion, VersionList.Ascending none [v] := by
        intro v
        cases v <;> decide
      exact hone version
  have hnormal :
      ((((replyOf version midp request).setCert x).setNonc nonce).setIndx index).normalize =
        (((replyOf version midp request).setCert x).setNonc nonce).setIndx index := rfl
  obtain ⟨hslice, hinside⟩ := srepSlice14_built hbuilt
  have hparse := hbuilt.fromFrame
  rw [hnormal] at hslice hparse
  obtain ⟨-, -, hoffset, -⟩ := hbuilt.offsets
  refine ⟨hparse, ResponseValidator.validateDraft14_ok_iff.mpr ⟨?_, rfl⟩⟩
  refine ⟨⟨?_, hmint, hmaxt, ?_⟩, ?_, rfl, Nat.le.intro hoffset.symm, hinside, ?_⟩
  · intro K hK
    cases hK
    exact hsigned
  · exact (by decide : (5 : UInt32) ≠ 0)
  · have hone : ∀ v : ProtocolVersion, (VersionList.new [v]).isSupported v = true := by
      intro v
      cases v <;> decide
    exact hone version
  · rw [hslice]
    show verify x.delegation.publicKey _ _ = true
    rw [hkey]
    exact decide_eq_true rfl

/-- The certificate of the sample is good from 1000 to 5000. -/
theorem replyOf_valid_with (version : ProtocolVersion) (midp : UInt64) (request : Request)
    (hmint : 1000 ≤ midp.toNat) (hmaxt : midp.toNat ≤ 5000) (nonce : Nonce) (index : UInt32) :
    Response.fromFrame
        (framed (((replyOf version midp request).setNonc nonce).setIndx index).encode) =
      .ok (((replyOf version midp request).setNonc nonce).setIndx index) ∧
    (ResponseValidator.newWithKey longTermKey).validateDraft14 verify digest
      (framed request.encode) (((replyOf version midp request).setNonc nonce).setIndx index)
      (framed (((replyOf version midp request).setNonc nonce).setIndx index).encode) =
        .ok midp := by
  have hsigned : verify longTermKey (version.delePrefix ++ (cert version).delegation.encode)
      (cert version).signature = true := decide_eq_true rfl
  exact replyOf_valid_cert version midp request rfl hsigned hmint
    (hmaxt.trans_eq maxTime_eq.symm) nonce index

theorem replyOf_valid (version : ProtocolVersion) (midp : UInt64) (request : Request)
    (hmint : 1000 ≤ midp.toNat) (hmaxt : midp.toNat ≤ 5000) :
    Response.fromFrame (framed (replyOf version midp request).encode) =
        .ok (replyOf version midp request) ∧
      (ResponseValidator.newWithKey longTermKey).validateDraft14 verify digest
        (framed request.encode) (replyOf version midp request)
        (framed (replyOf version midp request).encode) = .ok midp :=
  replyOf_valid_with version midp request hmint hmaxt request.nonc 0

theorem reply14_valid (midp : UInt64) (prior : Option Response) (k : Nat)
    (hmint : 1000 ≤ midp.toNat) (hmaxt : midp.toNat ≤ 5000) :
    Response.fromFrame (framed (reply14 midp prior k).encode) = .ok (reply14 midp prior k) ∧
      (ResponseValidator.newWithKey longTermKey).validateDraft14 verify digest
        (framed (request14 prior k).encode) (reply14 midp prior k)
        (framed (reply14 midp prior k).encode) = .ok midp :=
  replyOf_valid .rfcDraft14 midp (request14 prior k) hmint hmaxt

theorem reply08_valid_with (midp : UInt64) (prior : Option Response) (k : Nat)
    (hmint : 1000 ≤ midp.toNat) (hmaxt : midp.toNat ≤ 5000) (index : UInt32) :
    ResponseDraft08.fromFrame (framed ((reply08 midp prior k).setIndx index).encode) =
        .ok ((reply08 midp prior k).setIndx index) ∧
      (ResponseValidator.newWithKey longTermKey).validateDraft08 verify digest
        (framed (request08 prior k).encode) ((reply08 midp prior k).setIndx index)
        (framed ((reply08 midp prior k).setIndx index).encode) = .ok midp := by
  have hsrep : ((reply08 midp prior k).setIndx index).srep.Built := rfl
  have hbuilt : ((reply08 midp prior k).setIndx index).Built := ⟨rfl, hsrep.accepts (by decide)⟩
  have hnormal : ((reply08 midp prior k).setIndx index).normalize =
      (reply08 midp prior k).setIndx index := rfl
  obtain ⟨hslice, hinside⟩ := srepSlice08_built hbuilt
  have hparse := hbuilt.fromFrame
  rw [hnormal] at hslice hparse
  obtain ⟨-, -, hoffset, -⟩ := hbuilt.offsets
  have hlong : (framed (request08 prior k).encode).length = 1024 :=
    Request.fromFrame_length (Request.fromFrame_newDraft08 _)
  refine ⟨hparse, ResponseValidator.validateDraft08_ok_iff.mpr ⟨?_, rfl⟩⟩
  refine ⟨⟨?_, hmint, hmaxt.trans_eq maxTime_eq.symm, ?_⟩, by omega, ?_,
    Nat.le.intro hoffset.symm, hinside, ?_⟩
  · intro K hK
    cases hK
    exact decide_eq_true rfl
  · exact (by decide : (5 : UInt32) ≠ 0)
  · rw [request08, Request.slice_newDraft08]
    rfl
  · rw [hslice]
    exact decide_eq_true rfl

theorem reply08_valid (midp : UInt64) (prior : Option Response) (k : Nat)
    (hmint : 1000 ≤ midp.toNat) (hmaxt : midp.toNat ≤ 5000) :
    ResponseDraft08.fromFrame (framed (reply08 midp prior k).encode) =
        .ok (reply08 midp prior k) ∧
      (ResponseValidator.newWithKey longTermKey).validateDraft08 verify digest
        (framed (request08 prior k).encode) (reply08 midp prior k)
        (framed (reply08 midp prior k).encode) = .ok midp :=
  reply08_valid_with midp prior k hmint hmaxt 0

/-- What a draft-14 client makes of the answer. -/
def measurement14 (midp : UInt64) (prior : Option Response) (k : Nat) : Measurement :=
  ⟨address, "localhost", some longTermKey, request14 prior k, reply14 midp prior k,
    prior.map fun _ => random k, prior⟩

def measurement08 (midp : UInt64) (prior : Option Response) (k : Nat) : Measurement :=
  ⟨address, "localhost", some longTermKey, request08 prior k,
    Response.ofDraft08 (reply08 midp prior k), prior.map fun _ => random k, prior⟩

/-- Every server answers, with the packet of its turn. -/
def exchanges (packets : List Bytes) (k : Nat) : Exchange :=
  ⟨random k, .ok 1024, .ok (packets.getD k [], address)⟩

theorem reply14_short (midp : UInt64) (prior : Option Response) (k : Nat) :
    (framed (reply14 midp prior k).encode).length ≤ bufSize := by
  have hsize : (reply14 midp prior k).encode.length = 400 + 32 * 0 + 4 * 1 :=
    Response.encodeWith_length (SignedResponse.spells_values _)
  rw [framed_length, hsize]
  decide

theorem query14 (midp : UInt64) (prior : Option Response) (k : Nat)
    (hmint : 1000 ≤ midp.toNat) (hmaxt : midp.toNat ≤ 5000) :
    query verify digest (client .rfcDraft14) prior ⟨random k, .ok 1024,
      .ok (framed (reply14 midp prior k).encode, address)⟩ =
        .ok (measurement14 midp prior k) := by
  obtain ⟨hparse, hvalid⟩ := reply14_valid midp prior k hmint hmaxt
  have hrequest : makeRequest (client .rfcDraft14) (nonceAfter digest prior (random k)) =
      .ok (request14 prior k) := rfl
  refine query_of_parts hrequest ?_
  rw [List.take_of_length_le (reply14_short midp prior k)]
  exact acceptResponse_ok_iff.mpr (.inr ⟨rfl, midp, hparse, hvalid⟩)

theorem query08 (midp : UInt64) (prior : Option Response) (k : Nat)
    (hmint : 1000 ≤ midp.toNat) (hmaxt : midp.toNat ≤ 5000) :
    query verify digest (client .rfcDraft08) prior ⟨random k, .ok 1024,
      .ok (framed (reply08 midp prior k).encode, address)⟩ =
        .ok (measurement08 midp prior k) := by
  obtain ⟨hparse, hvalid⟩ := reply08_valid midp prior k hmint hmaxt
  have hsize : (reply08 midp prior k).encode.length = 340 + 32 * 0 :=
    ResponseDraft08.encodeWith_length _ _
  have hshort : (framed (reply08 midp prior k).encode).length ≤ bufSize := by
    rw [framed_length, hsize]
    decide
  have hrequest : makeRequest (client .rfcDraft08) (nonceAfter digest prior (random k)) =
      .ok (request08 prior k) := rfl
  refine query_of_parts hrequest ?_
  rw [List.take_of_length_le hshort]
  exact acceptResponse_ok_iff.mpr (.inl ⟨rfl, _, midp, hparse, hvalid, rfl⟩)

/-- Three queries, as the two loops make them. -/
theorem after_three {version : ProtocolVersion} {packets : List Bytes} {m₀ m₁ m₂ : Measurement}
    (h₀ : query verify digest (client version) none (exchanges packets 0) = .ok m₀)
    (h₁ : query verify digest (client version) (some m₀.response) (exchanges packets 1) = .ok m₁)
    (h₂ : query verify digest (client version) (some m₁.response) (exchanges packets 2) = .ok m₂) :
    (sequence version).after verify digest (exchanges packets) 1 3 =
      .ok ([m₀, m₁, m₂], some m₂.response) := by
  show ([client version, client version, client version].foldlM
    (step verify digest (exchanges packets)) ([], none)) = _
  simp only [List.foldlM_cons, List.foldlM_nil, step, List.length_nil, h₀, Outcome.ok_bind,
    Outcome.pure_eq, List.nil_append, h₁, List.cons_append,
    List.length_cons, Nat.reduceAdd, h₂]

/-- Servers whose clocks show `a`, `b` and `c`. -/
def first14 (a : UInt64) : Measurement := measurement14 a none 0
def second14 (a b : UInt64) : Measurement := measurement14 b (some (first14 a).response) 1
def third14 (a b c : UInt64) : Measurement := measurement14 c (some (second14 a b).response) 2

def packets14 (a b c : UInt64) : List Bytes :=
  [first14 a, second14 a b, third14 a b c].map fun m => framed m.response.encode

theorem after14 {a b c : UInt64} (ha : 1000 ≤ a.toNat ∧ a.toNat ≤ 5000)
    (hb : 1000 ≤ b.toNat ∧ b.toNat ≤ 5000) (hc : 1000 ≤ c.toNat ∧ c.toNat ≤ 5000) :
    (sequence .rfcDraft14).after verify digest (exchanges (packets14 a b c)) 1 3 =
      .ok ([first14 a, second14 a b, third14 a b c], some (third14 a b c).response) :=
  after_three (query14 a none 0 ha.1 ha.2) (query14 b _ 1 hb.1 hb.2) (query14 c _ 2 hc.1 hc.2)

theorem run14 {a b c : UInt64} (ha : 1000 ≤ a.toNat ∧ a.toNat ≤ 5000)
    (hb : 1000 ≤ b.toNat ∧ b.toNat ≤ 5000) (hc : 1000 ≤ c.toNat ∧ c.toNat ≤ 5000) :
    (sequence .rfcDraft14).run verify digest (exchanges (packets14 a b c)) 1 =
      .ok [first14 a, second14 a b, third14 a b c] := by
  have hend : ((sequence .rfcDraft14).schedule 1).length = 3 := rfl
  rw [run_eq, hend, after14 ha hb hc]
  rfl

/-- The same in draft-08, all showing 2000. -/
def first08 : Measurement := measurement08 2000 none 0
def second08 : Measurement := measurement08 2000 (some first08.response) 1
def third08 : Measurement := measurement08 2000 (some second08.response) 2

def packets08 : List Bytes :=
  [framed (reply08 2000 none 0).encode, framed (reply08 2000 (some first08.response) 1).encode,
    framed (reply08 2000 (some second08.response) 2).encode]

theorem after08 : (sequence .rfcDraft08).after verify digest (exchanges packets08) 1 3 =
    .ok ([first08, second08, third08], some third08.response) :=
  after_three (query08 2000 none 0 (by decide) (by decide))
    (query08 2000 _ 1 (by decide) (by decide)) (query08 2000 _ 2 (by decide) (by decide))

end Network

open Network

/-- Three draft-14 servers, asked once each. -/
theorem run_chained_three :
    run verify digest (sequence .rfcDraft14) (exchanges (packets14 2000 3000 4000)) 1 =
        .ok [first14 2000, second14 2000 3000, third14 2000 3000 4000] ∧
      [first14 2000, second14 2000 3000, third14 2000 3000 4000].length =
        [client .rfcDraft14, client .rfcDraft14, client .rfcDraft14].length * 1 ∧
      calculateChainedNonce digest (second14 2000 3000).response (random 2).bytes =
        (.ok (third14 2000 3000 4000).request.nonc : Call Nonce) := by
  have hrun : run verify digest (sequence .rfcDraft14) (exchanges (packets14 2000 3000 4000)) 1 =
      .ok [first14 2000, second14 2000 3000, third14 2000 3000 4000] :=
    run14 (by decide) (by decide) (by decide)
  obtain ⟨hlength, hall⟩ := (run_chained verify digest
    [client .rfcDraft14, client .rfcDraft14, client .rfcDraft14] (Nat.le_refl 3)
    (exchanges (packets14 2000 3000 4000)) 1).1 _ hrun
  refine ⟨hrun, hlength, ?_⟩
  obtain ⟨-, -, -, -, -, -, -, -, hchained, -⟩ := hall 2 _ rfl
  exact (hchained _ (by decide) rfl).2.2

end Roughenough.Client
