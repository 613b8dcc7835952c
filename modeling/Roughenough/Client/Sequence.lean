/-
# `Roughenough.Client.Sequence` — chained measurements

`sequence.rs`, `measurement.rs`, the parts of `client.rs` they use and
`calculate_chained_nonce` of `roughenough-common/src/crypto.rs`.

What the world contributes to a query is an `Exchange`: the random bytes, and
what `send` and `recv` answer.  A run takes one exchange for every query, so
that a statement about every list of exchanges is one about every network.
`recv` fills a buffer of 1024 bytes and drops the rest of a longer datagram.

The main result is `after_chained`: in a run, at any point, measurement `k` is
what `query` makes of exchange `k` with the response of measurement `k - 1`.
-/
import Roughenough.Client.Validation
import Roughenough.Protocol.Layout

namespace Roughenough.Client

open Roughenough.Base Roughenough.Protocol Roughenough.Merkle

inductive ClientError where
  | serverTimeout
  | badResponse (e : Error)
  | ioError (text : String)
  | validationFailed (e : ValidationError)
  | invalidConfiguration (text : String)
  deriving DecidableEq

/-! ## Hashes -/

section Crypto

variable {ε : Type} (H : Bytes → Hash)

/-- What `calculate_chained_nonce` hashes. -/
def chainValue (priorResponse : Response) (rand : Bytes) : Outcome ε Bytes := do
  let frame ← priorResponse.asFrameBytes.expect
  pure (frame ++ rand)

def calculateChainedNonce (priorResponse : Response) (rand : Bytes) : Outcome ε Nonce := do
  let value ← chainValue priorResponse rand
  pure (H value)

def makeSrvCommitment (pubKey : PublicKey) : SrvCommitment := H (0xff :: pubKey.bytes)

theorem chainValue_eq (priorResponse : Response) (rand : Bytes) :
    (chainValue priorResponse rand : Outcome ε Bytes) =
      .ok (framed priorResponse.encode ++ rand) := by
  unfold chainValue
  rw [Response.asFrameBytes_eq]
  rfl

theorem calculateChainedNonce_eq (priorResponse : Response) (rand : Bytes) :
    (calculateChainedNonce H priorResponse rand : Outcome ε Nonce) =
      .ok (H (framed priorResponse.encode ++ rand)) := by
  unfold calculateChainedNonce
  rw [chainValue_eq]
  rfl

end Crypto

/-! ## Clients -/

set_option linter.dupNamespace false in
/-- `Client`.  Only the builder makes one, so the validator holds the key and the commitment is
there when the key is. -/
structure Client where
  server : SocketAddr
  hostname : String
  validator : ResponseValidator
  publicKey : Option PublicKey
  srvCommit : Option SrvCommitment
  protocolVersion : ProtocolVersion
  validator_eq : validator = ⟨publicKey⟩
  srvCommit_isSome : srvCommit.isSome = publicKey.isSome

/-- `UdpSocket::bind` for the address family of the target: the system may refuse it. -/
abbrev Bind := (target : SocketAddr) → Outcome ClientError Unit

/-- `set_read_timeout` and `set_write_timeout`, which refuse the zero duration. -/
def setTimeout (timeout : Duration) : Outcome ClientError Unit :=
  Outcome.failIf (timeout.isZero = true) (.ioError "cannot set a 0 duration timeout")

/-- `UdpTransport::new`, as far as it comes to be; what it sends and receives is in `Exchange`. -/
def UdpTransport.new (bind : Bind) (timeout : Duration) (target : SocketAddr) :
    Outcome ClientError Unit := do
  bind target
  setTimeout timeout
  setTimeout timeout

theorem UdpTransport.new_ok_iff {bind : Bind} {timeout : Duration} {target : SocketAddr} :
    UdpTransport.new bind timeout target = .ok () ↔
      bind target = .ok () ∧ timeout.isZero = false := by
  have hset : setTimeout timeout = .ok () ↔ timeout.isZero = false :=
    Outcome.failIf_ok_iff.trans (iff_of_eq (Bool.not_eq_true _))
  unfold UdpTransport.new
  constructor
  · intro h
    obtain ⟨_, hbind, h⟩ := Outcome.bind_ok_iff.mp h
    obtain ⟨_, hread, -⟩ := Outcome.bind_ok_iff.mp h
    exact ⟨hbind, hset.mp hread⟩
  · rintro ⟨hbind, hzero⟩
    rw [hbind, Outcome.ok_bind, hset.mpr hzero]
    rfl

/-- A transport of the caller's own. -/
structure ClientTransport where

structure ClientBuilder where
  server : SocketAddr
  hostname : String
  transport : Option ClientTransport
  timeout : Option Duration
  publicKey : Option PublicKey
  protocolVersion : ProtocolVersion

namespace ClientBuilder

def defaultTimeout : Duration := .fromSecs 2

def new (server : SocketAddr) : ClientBuilder :=
  ⟨server, "unknown", none, none, none, .rfcDraft14⟩

/-- The client, once it has a transport. -/
def client (H : Bytes → Hash) (b : ClientBuilder) : Client where
  server := b.server
  hostname := b.hostname
  validator :=
    match b.publicKey with
    | some publicKey => ResponseValidator.newWithKey publicKey
    | none => ResponseValidator.new
  publicKey := b.publicKey
  srvCommit := b.publicKey.map (makeSrvCommitment H)
  protocolVersion := b.protocolVersion
  validator_eq := by cases b.publicKey <;> rfl
  srvCommit_isSome := Option.isSome_map

/-- The transport of the caller, or one from the system. -/
def getTransport (bind : Bind) (b : ClientBuilder) : Call Unit :=
  match b.transport with
  | some _ => pure ()
  | none => (UdpTransport.new bind (b.timeout.getD defaultTimeout) b.server).expect

def build (H : Bytes → Hash) (bind : Bind) (b : ClientBuilder) : Call Client := do
  b.getTransport bind
  pure (b.client H)

variable {H : Bytes → Hash} {bind : Bind} {b : ClientBuilder}

/-- Without a transport of its own, a client is built exactly when the system grants one. -/
theorem build_ok_iff (htransport : b.transport = none) {client : Client} :
    b.build H bind = .ok client ↔
      UdpTransport.new bind (b.timeout.getD defaultTimeout) b.server = .ok () ∧
        client = b.client H := by
  unfold build getTransport
  rw [htransport]
  constructor
  · intro h
    obtain ⟨_, hsocket, h⟩ := Outcome.bind_ok_iff.mp h
    cases h
    exact ⟨Outcome.expect_ok_iff.mp hsocket, rfl⟩
  · rintro ⟨hsocket, rfl⟩
    rw [hsocket]
    rfl

theorem build_ne_panic (htransport : b.transport = none)
    (h : UdpTransport.new bind (b.timeout.getD defaultTimeout) b.server = .ok ()) :
    b.build H bind ≠ .panic := by
  rw [(build_ok_iff htransport).mpr ⟨h, rfl⟩]
  exact Outcome.ok_ne_panic _

end ClientBuilder

/-! ## Measurements -/

structure Measurement where
  server : SocketAddr
  hostname : String
  publicKey : Option PublicKey
  request : Request
  response : Response
  randValue : Option (Octets 32)
  priorResponse : Option Response
  deriving DecidableEq

namespace Measurement

def midpoint (m : Measurement) : UInt64 := m.response.srep.midpoint

def radius (m : Measurement) : UInt32 := m.response.srep.radius

end Measurement

structure MeasurementBuilder where
  server : Option SocketAddr
  hostname : Option String
  publicKey : Option PublicKey
  request : Option Request
  response : Option Response
  randValue : Option (Octets 32)
  priorResponse : Option Response

namespace MeasurementBuilder

/-- `ok_or_else` with the configuration error of a missing field. -/
def required {α : Type} (name : String) : Option α → Outcome ClientError α
  | some a => .ok a
  | none => .err (.invalidConfiguration (name ++ " is required"))

def build (b : MeasurementBuilder) : Outcome ClientError Measurement := do
  let server ← required "server" b.server
  let request ← required "request" b.request
  let response ← required "response" b.response
  pure ⟨server, b.hostname.getD "unknown", b.publicKey, request, response, b.randValue,
    b.priorResponse⟩

end MeasurementBuilder

/-! ## Sequences -/

/-- What the world contributes to one query. -/
structure Exchange where
  random : Octets 32
  send : Outcome ClientError Nat
  recv : Outcome ClientError (Bytes × SocketAddr)

/-- `MeasurementSequence`: `new` insists on `MIN_SERVERS` clients. -/
structure MeasurementSequence where
  clients : List Client
  enough : 3 ≤ clients.length

namespace MeasurementSequence

def minServers : Nat := 3

def new (clients : List Client) : Outcome ClientError MeasurementSequence :=
  if h : clients.length < minServers then
    .err (.invalidConfiguration ("measurement sequence requires at least " ++
      toString minServers ++ " servers (RFC section 10), got " ++ toString clients.length))
  else .ok ⟨clients, Nat.le_of_not_lt h⟩

section Query

variable (V : Verify) (H : Bytes → Hash)

/-- A random nonce, or the chained one when there is a prior response. -/
def generateNonce (priorResponse : Option Response) (random : Octets 32) :
    Outcome ClientError (Nonce × Option (Octets 32)) :=
  match priorResponse with
  | some priorResponse => do
      let nonce ← calculateChainedNonce H priorResponse random.bytes
      pure (nonce, some random)
  | none => pure (random, none)

/-- The request of a client: its SRV is unwrapped in draft-14. -/
def makeRequest (client : Client) (nonce : Nonce) : Outcome ClientError Request :=
  match client.protocolVersion with
  | .rfcDraft08 => pure (Request.newDraft08 nonce)
  | .rfcDraft14 => do
      let srvCommit ← Outcome.orPanic client.srvCommit
      pure (Request.newDraft14WithServerCommitment nonce srvCommit)

/-- Parse and validate what was received, by the protocol version of the client. -/
def acceptResponse (client : Client) (requestBytes responseBytes : Bytes) :
    Outcome ClientError Response :=
  match client.protocolVersion with
  | .rfcDraft08 => do
      let response ← (ResponseDraft08.fromFrame responseBytes).mapErr .badResponse
      let _ ← (client.validator.validateDraft08 V H requestBytes response responseBytes).mapErr
        .validationFailed
      pure (Response.ofDraft08 response)
  | .rfcDraft14 => do
      let response ← (Response.fromFrame responseBytes).mapErr .badResponse
      let _ ← (client.validator.validateDraft14 V H requestBytes response responseBytes).mapErr
        .validationFailed
      pure response

/-- The size of the buffer that `recv` fills. -/
def bufSize : Nat := 1024

def query (client : Client) (priorResponse : Option Response) (x : Exchange) :
    Outcome ClientError Measurement := do
  let (nonce, randValue) ← generateNonce H priorResponse x.random
  let request ← makeRequest client nonce
  let requestBytes ← request.asFrameBytes.mapErr .badResponse
  let _ ← x.send
  let (packet, _) ← x.recv
  let responseBytes := packet.take bufSize
  let response ← acceptResponse V H client requestBytes responseBytes
  MeasurementBuilder.build
    { server := some client.server
      hostname := some client.hostname
      publicKey := client.publicKey
      request := some request
      response := some response
      randValue := randValue
      priorResponse := priorResponse }

/-- The body of the two loops: the measurements so far, and the last response. -/
def step (exchanges : Nat → Exchange) (state : List Measurement × Option Response)
    (client : Client) : Outcome ClientError (List Measurement × Option Response) := do
  let measurement ← query V H client state.2 (exchanges state.1.length)
  pure (state.1 ++ [measurement], some measurement.response)

/-- The check in front of the loops. -/
def requireKeys (s : MeasurementSequence) : Outcome ClientError Unit :=
  s.clients.forM fun client => Outcome.failIf (client.publicKey = none)
    (.invalidConfiguration ("measurement sequence requires all servers to have public keys ('" ++
      client.hostname ++ "' missing public key)"))

def run (s : MeasurementSequence) (exchanges : Nat → Exchange) (rounds : Nat) :
    Outcome ClientError (List Measurement) := do
  s.requireKeys
  let state ← (List.range rounds).foldlM
    (fun state _ => s.clients.foldlM (step V H exchanges) state) ([], none)
  pure state.1

/-- The clients in the order in which a run asks them. -/
def schedule (s : MeasurementSequence) (rounds : Nat) : List Client :=
  (List.replicate rounds s.clients).flatten

/-- A run after its first `n` queries. -/
def after (s : MeasurementSequence) (exchanges : Nat → Exchange) (rounds n : Nat) :
    Outcome ClientError (List Measurement × Option Response) := do
  s.requireKeys
  ((s.schedule rounds).take n).foldlM (step V H exchanges) ([], none)

end Query

/-! ## What a query establishes -/

section Runs

variable {V : Verify} {H : Bytes → Hash}

/-- The nonce of a query. -/
def nonceAfter (H : Bytes → Hash) (priorResponse : Option Response) (random : Octets 32) : Nonce :=
  match priorResponse with
  | some priorResponse => H (framed priorResponse.encode ++ random.bytes)
  | none => random

theorem generateNonce_eq (priorResponse : Option Response) (random : Octets 32) :
    generateNonce H priorResponse random =
      .ok (nonceAfter H priorResponse random, priorResponse.map fun _ => random) := by
  cases priorResponse with
  | none => rfl
  | some priorResponse =>
      unfold generateNonce
      simp only [calculateChainedNonce_eq]
      rfl

theorem makeRequest_nonc {client : Client} {nonce : Nonce} {request : Request}
    (h : makeRequest client nonce = .ok request) : request.nonc = nonce := by
  unfold makeRequest at h
  split at h
  · cases h
    rfl
  · obtain ⟨srvCommit, -, hnew⟩ := Outcome.bind_ok_iff.mp h
    cases hnew
    rfl

/-- An accepted response, by the version of its client. -/
theorem acceptResponse_ok_iff {client : Client} {requestBytes responseBytes : Bytes}
    {r : Response} : acceptResponse V H client requestBytes responseBytes = .ok r ↔
    (client.protocolVersion = .rfcDraft08 ∧ ∃ r' t,
      ResponseDraft08.fromFrame responseBytes = .ok r' ∧
      client.validator.validateDraft08 V H requestBytes r' responseBytes = .ok t ∧
      Response.ofDraft08 r' = r) ∨
    (client.protocolVersion = .rfcDraft14 ∧ ∃ t, Response.fromFrame responseBytes = .ok r ∧
      client.validator.validateDraft14 V H requestBytes r responseBytes = .ok t) := by
  unfold acceptResponse
  cases client.protocolVersion with
  | rfcDraft08 =>
      simp only [Outcome.bind_ok_iff, Outcome.mapErr_ok_iff, Outcome.pure_eq, Outcome.ok.injEq,
        true_and, reduceCtorEq, false_and, or_false]
      constructor
      · rintro ⟨r', hparse, t, hvalid, hr⟩
        exact ⟨r', t, hparse, hvalid, hr⟩
      · rintro ⟨r', t, hparse, hvalid, hr⟩
        exact ⟨r', hparse, t, hvalid, hr⟩
  | rfcDraft14 =>
      simp only [Outcome.bind_ok_iff, Outcome.mapErr_ok_iff, Outcome.pure_eq, Outcome.ok.injEq,
        true_and, reduceCtorEq, false_and, false_or]
      constructor
      · rintro ⟨r', hparse, t, hvalid, rfl⟩
        exact ⟨t, hparse, hvalid⟩
      · rintro ⟨t, hparse, hvalid⟩
        exact ⟨r, hparse, t, hvalid, rfl⟩

/-- The measurement is what a query makes of an exchange. -/
structure Queried (V : Verify) (H : Bytes → Hash) (client : Client)
    (priorResponse : Option Response) (x : Exchange) (m : Measurement) : Prop where
  server : m.server = client.server
  hostname : m.hostname = client.hostname
  publicKey : m.publicKey = client.publicKey
  prior : m.priorResponse = priorResponse
  rand : m.randValue = priorResponse.map fun _ => x.random
  nonce : m.request.nonc = nonceAfter H priorResponse x.random
  request : makeRequest client m.request.nonc = .ok m.request
  received : ∃ packet addr, x.recv = .ok (packet, addr) ∧
    acceptResponse V H client (framed m.request.encode) (packet.take bufSize) = .ok m.response

theorem query_ok {client : Client} {priorResponse : Option Response} {x : Exchange}
    {m : Measurement} (h : query V H client priorResponse x = .ok m) :
    Queried V H client priorResponse x m := by
  simp only [query, generateNonce_eq, Outcome.ok_bind, Outcome.bind_ok_iff,
    Outcome.mapErr_ok_iff, Request.asFrameBytes_eq, Outcome.ok.injEq] at h
  obtain ⟨request, hrequest, _, rfl, _, -, ⟨packet, addr⟩, hrecv, response, haccept, hbuild⟩ := h
  cases hbuild
  have hnonce := makeRequest_nonc hrequest
  refine ⟨rfl, rfl, rfl, rfl, rfl, hnonce, ?_, packet, addr, hrecv, haccept⟩
  rw [← hnonce] at hrequest
  exact hrequest

/-- A query whose parts go well. -/
theorem query_of_parts {client : Client} {priorResponse : Option Response} {random : Octets 32}
    {sent : Nat} {packet : Bytes} {addr : SocketAddr} {request : Request} {response : Response}
    (hrequest : makeRequest client (nonceAfter H priorResponse random) = .ok request)
    (haccept : acceptResponse V H client (framed request.encode) (packet.take bufSize) =
      .ok response) :
    query V H client priorResponse ⟨random, .ok sent, .ok (packet, addr)⟩ =
      .ok ⟨client.server, client.hostname, client.publicKey, request, response,
        priorResponse.map fun _ => random, priorResponse⟩ := by
  simp only [query, generateNonce_eq, Outcome.ok_bind, hrequest, Request.asFrameBytes_eq]
  show (acceptResponse V H client (framed request.encode) (packet.take bufSize) >>= _) = _
  rw [haccept]
  rfl

/-! ## What a run establishes -/

/-- The response that the next query is chained to. -/
def lastResponse (ms : List Measurement) : Option Response := ms.getLast?.map Measurement.response

/-- Measurement `k` answers exchange `k`, chained to the measurement before it. -/
structure Chained (V : Verify) (H : Bytes → Hash) (exchanges : Nat → Exchange)
    (clients : List Client) (state : List Measurement × Option Response) : Prop where
  length_eq : state.1.length = clients.length
  prior : state.2 = lastResponse state.1
  queried : ∀ k m, state.1[k]? = some m → ∃ client, clients[k]? = some client ∧
    Queried V H client (lastResponse (state.1.take k)) (exchanges k) m

theorem Chained.step {exchanges : Nat → Exchange} {clients : List Client} {client : Client}
    {state state' : List Measurement × Option Response} (hc : Chained V H exchanges clients state)
    (h : step V H exchanges state client = .ok state') :
    Chained V H exchanges (clients ++ [client]) state' := by
  simp only [MeasurementSequence.step, Outcome.bind_ok_iff, Outcome.pure_eq, Outcome.ok.injEq] at h
  obtain ⟨m, hm, rfl⟩ := h
  have hlast := query_ok hm
  rw [hc.prior] at hlast
  refine ⟨?_, ?_, ?_⟩
  · simp only [List.length_append, hc.length_eq, List.length_singleton]
  · show some m.response = (state.1 ++ [m]).getLast?.map _
    rw [List.getLast?_concat]
    rfl
  · intro k m' hk
    show ∃ c, (clients ++ [client])[k]? = some c ∧
      Queried V H c (lastResponse ((state.1 ++ [m]).take k)) (exchanges k) m'
    rcases Nat.lt_or_ge k state.1.length with hlt | hge
    · -- an older measurement: nothing in front of it has changed
      rw [List.getElem?_append_left hlt] at hk
      obtain ⟨c, hclient, hq⟩ := hc.queried k m' hk
      rw [List.take_append_of_le_length (Nat.le_of_lt hlt),
        List.getElem?_append_left (hc.length_eq ▸ hlt)]
      exact ⟨c, hclient, hq⟩
    · have hk' : k = state.1.length := by
        have hbound := (List.getElem?_eq_some_iff.mp hk).1
        rw [List.length_append, List.length_singleton] at hbound
        omega
      subst hk'
      rw [List.getElem?_concat_length, Option.some.injEq] at hk
      subst hk
      refine ⟨client, ?_, ?_⟩
      · rw [hc.length_eq]
        exact List.getElem?_concat_length
      · rw [List.take_left]
        exact hlast

theorem forM_failIf_ok {clients : List Client} {p : Client → Prop} [DecidablePred p]
    {e : Client → ClientError} {u : Unit}
    (h : clients.forM (fun c => Outcome.failIf (p c) (e c)) = .ok u) : ∀ c ∈ clients, ¬ p c := by
  intro c hc
  exact Outcome.failIf_ok_iff.mp (Outcome.forM_ok_iff.mp h c hc)

/-- A run, at any point: every client has a key, and the measurements are chained. -/
theorem after_chained {s : MeasurementSequence} {exchanges : Nat → Exchange} {rounds n : Nat}
    {state : List Measurement × Option Response} (h : s.after V H exchanges rounds n = .ok state) :
    (∀ client ∈ s.clients, client.publicKey ≠ none) ∧
      Chained V H exchanges ((s.schedule rounds).take n) state := by
  obtain ⟨_, hkeys, hloop⟩ := Outcome.bind_ok_iff.mp h
  refine ⟨forM_failIf_ok hkeys, ?_⟩
  have hstart : Chained V H exchanges [] ([], none) := by
    refine ⟨rfl, rfl, ?_⟩
    intro k m hk
    cases hk
  exact Outcome.foldlM_invariant (Chained V H exchanges) [] (fun _ _ _ _ _ hc => hc.step) hstart
    hloop

theorem mem_clients_of_schedule {s : MeasurementSequence} {rounds k : Nat} {client : Client}
    (h : (s.schedule rounds)[k]? = some client) : client ∈ s.clients := by
  obtain ⟨clients, hclients, hmem⟩ := List.mem_flatten.mp (List.mem_of_getElem? h)
  rwa [(List.mem_replicate.mp hclients).2] at hmem

/-- A measurement of a run, with its client and the key of that client. -/
theorem after_queried {s : MeasurementSequence} {exchanges : Nat → Exchange} {rounds n : Nat}
    {ms : List Measurement} {prior : Option Response}
    (h : s.after V H exchanges rounds n = .ok (ms, prior)) {k : Nat} {m : Measurement}
    (hk : ms[k]? = some m) :
    ∃ client K, (s.schedule rounds)[k]? = some client ∧ client.publicKey = some K ∧
      Queried V H client (lastResponse (ms.take k)) (exchanges k) m := by
  obtain ⟨hkeys, hc⟩ := after_chained h
  obtain ⟨client, hclient, hq⟩ := hc.queried k m hk
  have hlt := (List.getElem?_eq_some_iff.mp hclient).1
  rw [List.length_take] at hlt
  rw [List.getElem?_take_of_lt (by omega)] at hclient
  obtain ⟨K, hK⟩ := Option.ne_none_iff_exists'.mp (hkeys client (mem_clients_of_schedule hclient))
  exact ⟨client, K, hclient, hK, hq⟩

/-- The measurement in front of a query is the one it is chained to. -/
theorem lastResponse_take {ms : List Measurement} {k : Nat} {m : Measurement}
    (hk : ms[k]? = some m) : lastResponse (ms.take (k + 1)) = some m.response := by
  rw [lastResponse, List.take_add_one, hk]
  show ((ms.take k ++ [m]).getLast?).map _ = _
  rw [List.getLast?_concat]
  rfl

theorem foldlM_rounds {σ : Type} (f : σ → Client → Outcome ClientError σ) (clients : List Client)
    (rounds : List Nat) (state : σ) :
    rounds.foldlM (fun state _ => clients.foldlM f state) state =
      (List.replicate rounds.length clients).flatten.foldlM f state := by
  induction rounds generalizing state with
  | nil => rfl
  | cons _ rounds ih =>
      rw [List.foldlM_cons, List.length_cons, List.replicate_succ, List.flatten_cons,
        List.foldlM_append]
      exact bind_congr ih

/-- A run that returns has made all its queries. -/
theorem run_eq (s : MeasurementSequence) (exchanges : Nat → Exchange) (rounds : Nat) :
    s.run V H exchanges rounds =
      (s.after V H exchanges rounds (s.schedule rounds).length >>= fun state => pure state.1) := by
  unfold run after
  rw [List.take_length, foldlM_rounds, List.length_range, bind_assoc]
  rfl

end Runs

end MeasurementSequence

end Roughenough.Client
