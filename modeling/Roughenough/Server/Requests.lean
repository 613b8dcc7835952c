/-
# `Roughenough.Server.Requests` — the request handler and its runs

`roughenough-server/src/requests.rs`, with `RequestMetrics` of
`metrics/types.rs`.  A run is a list of events, each one call of the handler:

    collect     collect_request          a datagram and its source address
    generate    generate_responses       a reading of the clock
    replace     replace_online_key       what the new key takes from outside
    reset       reset_metrics

The state after a run is described without the handler: `openBatch` is the
list of datagrams that were accepted since the last `generate`, a function of
the events.  `Holding h batch` says that the handler holds exactly that batch,
and every step keeps it.

    serve_holding                   a run that did not panic holds its open batch
    serve_ok                        a run whose steps are all ready does not panic
    generate_once_and_isolated      one response per accepted datagram, in order, and
                                    nothing else shows in it

The step that can panic is `generate`: see `ResponseHandler.Ready`.
-/
import Roughenough.Protocol.Layout
import Roughenough.Server.Responses

namespace Roughenough.Server

open Roughenough.Base Roughenough.Protocol Roughenough.Merkle

/-- Counters of `usize`, as `Nat` like those of `ResponseMetrics`: a datagram adds one to one of
them. -/
structure RequestMetrics where
  numOkRequests : Nat
  numBadRequests : Nat
  numRuntRequests : Nat
  numJumboRequests : Nat
  deriving DecidableEq

def RequestMetrics.default : RequestMetrics := ⟨0, 0, 0, 0⟩

structure RequestHandler where
  responder : ResponseHandler
  metrics : RequestMetrics

namespace RequestHandler

variable (E : Ed25519) (H : Bytes → Hash)

def new (handler : ResponseHandler) : RequestHandler := ⟨handler, RequestMetrics.default⟩

def collectRequest (debug : Bool) (h : RequestHandler) (requestBytes : Bytes)
    (srcAddr : SocketAddr) : Call RequestHandler :=
  if requestBytes.length < requestSize then
    pure { h with metrics.numRuntRequests := h.metrics.numRuntRequests + 1 }
  else if requestBytes.length > requestSize then
    pure { h with metrics.numJumboRequests := h.metrics.numJumboRequests + 1 }
  else
    match Request.fromFrame requestBytes with
    | .ok request => do
        let responder ← h.responder.addRequest H debug requestBytes request srcAddr
        pure ⟨responder, { h.metrics with numOkRequests := h.metrics.numOkRequests + 1 }⟩
    | .err _ => pure { h with metrics.numBadRequests := h.metrics.numBadRequests + 1 }
    | .panic => .panic

def generateResponses (debug : Bool) (now : UInt64) (h : RequestHandler) :
    Call (List (SocketAddr × Bytes) × RequestHandler) := do
  let (outs, responder) ← h.responder.processResponses E H debug now
  pure (outs, { h with responder := responder.clear })

def replaceOnlineKey (h : RequestHandler) (draw : Draw) : Call RequestHandler := do
  let responder ← h.responder.replaceOnlineKey E draw
  pure { h with responder := responder }

def resetMetrics (h : RequestHandler) : RequestHandler :=
  ⟨h.responder.resetMetrics, RequestMetrics.default⟩

end RequestHandler

/-! ## Runs -/

/-- A call of the handler, with what it gets from outside. -/
inductive Event where
  | collect (requestBytes : Bytes) (srcAddr : SocketAddr)
  | generate (now : UInt64)
  | replace (draw : Draw)
  | reset

/-- What `ResponseHandler::new` is given. -/
structure Config where
  batchSize : UInt8
  keySource : KeySource
  protocolVersion : ProtocolVersion
  draw : Draw

section Runs

variable (E : Ed25519) (H : Bytes → Hash) (debug : Bool)

def step (h : RequestHandler) : Event → Call RequestHandler
  | .collect requestBytes srcAddr => h.collectRequest H debug requestBytes srcAddr
  | .generate now => do
      let (_, h) ← h.generateResponses E H debug now
      pure h
  | .replace draw => h.replaceOnlineKey E draw
  | .reset => pure h.resetMetrics

/-- The handler after a run from a fresh one. -/
def serve (c : Config) (events : List Event) : Call RequestHandler := do
  let responder ← ResponseHandler.new E c.batchSize c.keySource c.protocolVersion c.draw
  events.foldlM (step E H debug) (RequestHandler.new responder)

/-- A datagram that the handler accepts. -/
structure Datagram where
  bytes : Bytes
  srcAddr : SocketAddr
  request : Request
  accepted : Request.fromFrame bytes = .ok request
  deriving DecidableEq

def Datagram.pending (d : Datagram) : PendingRequest := ⟨d.request, d.srcAddr⟩

/-- The leaf of a datagram. -/
def Datagram.leaf (version : ProtocolVersion) (d : Datagram) : Bytes :=
  ResponseHandler.leafOf version d.bytes d.request

def accept (requestBytes : Bytes) (srcAddr : SocketAddr) : Option Datagram :=
  match h : Request.fromFrame requestBytes with
  | .ok request => some ⟨requestBytes, srcAddr, request, h⟩
  | .err _ => none
  | .panic => none

/-- What an event does to the batch that is being collected. -/
def extend (batch : List Datagram) : Event → List Datagram
  | .collect requestBytes srcAddr => batch ++ (accept requestBytes srcAddr).toList
  | .generate _ => []
  | .replace _ => batch
  | .reset => batch

/-- The datagrams accepted since the last `generate`. -/
def openBatch (events : List Event) : List Datagram := events.foldl extend []

/-- The handler holds exactly the datagrams of `batch`. -/
structure Holding (E : Ed25519) (H : Bytes → Hash) (h : ResponseHandler)
    (batch : List Datagram) : Prop where
  sound : h.Sound E
  requests : h.requests = batch.map Datagram.pending
  leaves : h.merkleTree.leaves =
    (batch.map (Datagram.leaf h.protocolVersion)).map (MerkleTree.hashLeaf H)

variable {E H debug}

theorem accept_of_ok {requestBytes : Bytes} {srcAddr : SocketAddr} {request : Request}
    (h : Request.fromFrame requestBytes = .ok request) :
    accept requestBytes srcAddr = some ⟨requestBytes, srcAddr, request, h⟩ := by
  unfold accept
  split
  · next r hr =>
      have heq : r = request := Outcome.ok.inj (hr.symm.trans h)
      subst heq
      rfl
  · next e he => rw [h] at he; cases he
  · next hp => rw [h] at hp; cases hp

theorem accept_eq_none {requestBytes : Bytes} {srcAddr : SocketAddr}
    (h : ∀ request, Request.fromFrame requestBytes ≠ .ok request) :
    accept requestBytes srcAddr = none := by
  unfold accept
  split
  · next r hr => exact absurd hr (h r)
  · rfl
  · rfl

/-- Only a datagram of 1024 bytes is accepted, so the checks on its size refuse nothing else. -/
theorem accept_of_length {requestBytes : Bytes} {srcAddr : SocketAddr}
    (h : requestBytes.length ≠ 1024) : accept requestBytes srcAddr = none := by
  apply accept_eq_none
  intro request hok
  exact h (Request.fromFrame_length hok)

/-! ## What a step does -/

/-- A call of `collect_request`: the datagram is refused and the responder is left alone, or it
is accepted and joins the batch. -/
theorem collectRequest_cases (debug : Bool) (h : RequestHandler) (requestBytes : Bytes)
    (srcAddr : SocketAddr) :
    (accept requestBytes srcAddr = none ∧ ∃ m,
      h.collectRequest H debug requestBytes srcAddr = .ok ⟨h.responder, m⟩) ∨
    (∃ d m, accept requestBytes srcAddr = some d ∧
      h.collectRequest H debug requestBytes srcAddr =
        (h.responder.addRequest H debug d.bytes d.request d.srcAddr >>= fun r => .ok ⟨r, m⟩)) := by
  have hsize : requestSize = 1024 := rfl
  unfold RequestHandler.collectRequest
  by_cases hrunt : requestBytes.length < requestSize
  · rw [if_pos hrunt]
    exact .inl ⟨accept_of_length (by omega), _, rfl⟩
  · rw [if_neg hrunt]
    by_cases hjumbo : requestBytes.length > requestSize
    · rw [if_pos hjumbo]
      exact .inl ⟨accept_of_length (by omega), _, rfl⟩
    · rw [if_neg hjumbo]
      cases hparse : Request.fromFrame requestBytes with
      | ok request => exact .inr ⟨_, _, accept_of_ok hparse, rfl⟩
      | err e =>
          refine .inl ⟨accept_eq_none ?_, _, rfl⟩
          intro request hok
          rw [hparse] at hok
          cases hok
      | panic => exact absurd hparse (bind_fst_ne_panic Request.safe_fromWire requestBytes)

/-- The handler with one more datagram in its batch. -/
def ResponseHandler.push (H : Bytes → Hash) (h : ResponseHandler) (d : Datagram) :
    ResponseHandler :=
  { h with
    merkleTree := h.merkleTree.pushLeaf H (d.leaf h.protocolVersion)
    requests := h.requests ++ [d.pending] }

theorem addRequest_ok_iff {h h' : ResponseHandler} {d : Datagram} :
    h.addRequest H debug d.bytes d.request d.srcAddr = .ok h' ↔
      (debug = true → h.requests.length < h.batchSize) ∧ h' = h.push H d := by
  simp only [ResponseHandler.addRequest, Outcome.bind_ok_iff, Outcome.assert_ok_iff,
    Outcome.pure_eq, Outcome.ok.injEq]
  constructor
  · intro ⟨_, hroom, heq⟩
    exact ⟨hroom, heq.symm⟩
  · intro ⟨hroom, heq⟩
    exact ⟨(), hroom, heq.symm⟩

/-- With room in the batch, an acceptable datagram joins it. -/
theorem collectRequest_ok {h : RequestHandler} {requestBytes : Bytes} {srcAddr : SocketAddr}
    {d : Datagram} (hd : accept requestBytes srcAddr = some d)
    (hroom : debug = true → h.responder.requests.length < h.responder.batchSize) :
    ∃ m, h.collectRequest H debug requestBytes srcAddr = .ok ⟨h.responder.push H d, m⟩ := by
  rcases collectRequest_cases (H := H) debug h requestBytes srcAddr with
    ⟨hnone, -⟩ | ⟨d', m, hsome, hok⟩
  · rw [hd] at hnone
    cases hnone
  · rw [hd] at hsome
    cases hsome
    rw [addRequest_ok_iff.mpr ⟨hroom, rfl⟩] at hok
    exact ⟨m, hok⟩

/-- Accepting a datagram extends the batch by it. -/
theorem Holding.push {h : ResponseHandler} {batch : List Datagram} (hh : Holding E H h batch)
    (d : Datagram) : Holding E H (h.push H d) (batch ++ [d]) := by
  refine ⟨hh.sound, ?_, ?_⟩
  · rw [List.map_append, ← hh.requests]
    rfl
  · show h.merkleTree.leaves ++ _ = _
    rw [hh.leaves, List.map_append, List.map_append]
    rfl

/-- A fresh handler, and one that has been cleared, holds the empty batch. -/
theorem Holding.clear {h : ResponseHandler} (hsound : h.Sound E) : Holding E H h.clear [] :=
  ⟨hsound, rfl, rfl⟩

theorem new_ok (c : Config) :
    ∃ r, ResponseHandler.new E c.batchSize c.keySource c.protocolVersion c.draw = .ok r ∧
      Holding E H r [] ∧ r.settings = (c.batchSize.toNat, c.keySource, c.protocolVersion) ∧
      r.responseMetrics = ResponseMetrics.default := by
  obtain ⟨key, hrun, hkey⟩ :=
    c.keySource.makeOnlineKey_ok (E := E) c.protocolVersion c.draw
  have hreserve : (MerkleTree.new.reserve c.batchSize.toNat).leaves = [] := by
    unfold MerkleTree.reserve
    split <;> rfl
  unfold ResponseHandler.new
  rw [hrun]
  exact ⟨_, rfl, ⟨hkey, rfl, hreserve⟩, rfl, rfl⟩

/-- Every step that returns keeps the batch, as the events describe it, and the settings. -/
theorem step_holding {h h' : RequestHandler} {batch : List Datagram} {e : Event}
    (hh : Holding E H h.responder batch) (hrun : step E H debug h e = .ok h') :
    Holding E H h'.responder (extend batch e) ∧
      h'.responder.settings = h.responder.settings := by
  cases e with
  | collect requestBytes srcAddr =>
      have hrun : h.collectRequest H debug requestBytes srcAddr = .ok h' := hrun
      rcases collectRequest_cases (H := H) debug h requestBytes srcAddr with
        ⟨hnone, m, hok⟩ | ⟨d, m, hsome, hok⟩
      · rw [hok] at hrun
        cases hrun
        simp only [extend, hnone, Option.toList_none, List.append_nil]
        exact ⟨hh, trivial⟩
      · rw [hok, Outcome.bind_ok_iff] at hrun
        obtain ⟨r, hadd, hr⟩ := hrun
        cases hr
        obtain ⟨-, rfl⟩ := addRequest_ok_iff.mp hadd
        simp only [extend, hsome, Option.toList_some]
        exact ⟨hh.push d, rfl⟩
  | generate now =>
      simp only [step, RequestHandler.generateResponses, Outcome.bind_ok_iff, Outcome.pure_eq,
        Outcome.ok.injEq] at hrun
      obtain ⟨_, ⟨⟨outs, r⟩, hprocess, rfl⟩, rfl⟩ := hrun
      by_cases hne : h.responder.requests = []
      · rw [ResponseHandler.processResponses, if_pos hne] at hprocess
        cases hprocess
        exact ⟨Holding.clear hh.sound, rfl⟩
      · have hp := ResponseHandler.processResponses_processed hh.sound hne hprocess
        exact ⟨Holding.clear hp.sound, hp.settings⟩
  | replace draw =>
      simp only [step, RequestHandler.replaceOnlineKey, ResponseHandler.replaceOnlineKey,
        Outcome.bind_ok_iff, Outcome.pure_eq, Outcome.ok.injEq] at hrun
      obtain ⟨_, ⟨key, hmake, rfl⟩, rfl⟩ := hrun
      obtain ⟨key', hmake', hissued⟩ :=
        h.responder.keySource.makeOnlineKey_ok (E := E) h.responder.protocolVersion draw
      rw [hmake'] at hmake
      cases hmake
      exact ⟨⟨hissued, hh.requests, hh.leaves⟩, rfl⟩
  | reset =>
      cases hrun
      exact ⟨⟨hh.sound, hh.requests, hh.leaves⟩, rfl⟩

theorem Holding.generate_cert {h h' : RequestHandler} {batch : List Datagram} {now : UInt64}
    {outs : List (SocketAddr × Bytes)} (hh : Holding E H h.responder batch)
    (hgen : h.generateResponses E H debug now = .ok (outs, h')) :
    h'.responder.onlineKey.cert = h.responder.onlineKey.cert := by
  simp only [RequestHandler.generateResponses, Outcome.bind_ok_iff, Outcome.pure_eq,
    Outcome.ok.injEq, Prod.mk.injEq] at hgen
  obtain ⟨⟨_, r⟩, hprocess, -, rfl⟩ := hgen
  by_cases hne : h.responder.requests = []
  · rw [ResponseHandler.processResponses, if_pos hne] at hprocess
    cases hprocess
    rfl
  · exact (ResponseHandler.processResponses_processed hh.sound hne hprocess).same.cert_eq

theorem collectRequest_key {h h' : RequestHandler} {requestBytes : Bytes} {srcAddr : SocketAddr}
    (hrun : h.collectRequest H debug requestBytes srcAddr = .ok h') :
    h'.responder.onlineKey = h.responder.onlineKey := by
  rcases collectRequest_cases (H := H) debug h requestBytes srcAddr with
    ⟨-, m, hok⟩ | ⟨d, m, -, hok⟩
  · rw [hok] at hrun
    cases hrun
    rfl
  · rw [hok, Outcome.bind_ok_iff] at hrun
    obtain ⟨r, hadd, hr⟩ := hrun
    cases hr
    obtain ⟨-, rfl⟩ := addRequest_ok_iff.mp hadd
    rfl

/-! ## What a run does -/

theorem foldlM_holding (events : List Event) {h h' : RequestHandler} {batch : List Datagram}
    (hh : Holding E H h.responder batch)
    (hrun : events.foldlM (step E H debug) h = .ok h') :
    Holding E H h'.responder (events.foldl extend batch) ∧
      h'.responder.settings = h.responder.settings := by
  refine Outcome.foldlM_invariant (fun done (g : RequestHandler) =>
    Holding E H g.responder (done.foldl extend batch) ∧
      g.responder.settings = h.responder.settings) [] ?_ ⟨hh, rfl⟩ hrun
  intro done e g g' _ hg hstep
  obtain ⟨hh', hsettings⟩ := step_holding hg.1 hstep
  rw [List.foldl_append]
  exact ⟨hh', hsettings.trans hg.2⟩

/-- A run that did not panic holds its open batch, and has the settings it started with. -/
theorem serve_holding {c : Config} {events : List Event} {h : RequestHandler}
    (hrun : serve E H debug c events = .ok h) :
    Holding E H h.responder (openBatch events) ∧
      h.responder.settings = (c.batchSize.toNat, c.keySource, c.protocolVersion) := by
  obtain ⟨r, hnew, hh, hsettings, -⟩ := new_ok (E := E) (H := H) c
  unfold serve at hrun
  rw [hnew, Outcome.ok_bind] at hrun
  obtain ⟨hh', hsettings'⟩ := foldlM_holding events hh hrun
  exact ⟨hh', hsettings'.trans hsettings⟩

theorem serve_settings {c : Config} {events : List Event} {h : RequestHandler}
    (hserve : serve E H debug c events = .ok h) :
    h.responder.keySource = c.keySource ∧ h.responder.protocolVersion = c.protocolVersion := by
  obtain ⟨-, hsettings⟩ := serve_holding hserve
  simp only [ResponseHandler.settings, Prod.mk.injEq] at hsettings
  exact hsettings.2

/-- The key in use was issued for the configuration. -/
theorem serve_issued {c : Config} {events : List Event} {h : RequestHandler}
    (hserve : serve E H debug c events = .ok h) :
    h.responder.onlineKey.Issued E c.keySource.identity c.protocolVersion := by
  obtain ⟨hsource, hversion⟩ := serve_settings hserve
  rw [← hsource, ← hversion]
  exact (serve_holding hserve).1.sound

/-! ## One response for every accepted datagram -/

/-- The addresses of the frames are those of the requests, in order. -/
theorem frames_fst (encode : List Hash → PendingRequest → UInt32 → Bytes) (leaves : List Bytes)
    (requests : List PendingRequest) (start : Nat) :
    (ResponseHandler.frames H encode leaves requests start).map Prod.fst =
      requests.map PendingRequest.srcAddr := by
  induction requests generalizing start with
  | nil => rfl
  | cons pending later ih => exact congrArg (pending.srcAddr :: ·) (ih (start + 1))

/-- What a batch is answered with. -/
def answersTo (E : Ed25519) (H : Bytes → Hash) (key : OnlineKey) (version : ProtocolVersion)
    (now : UInt64) (batch : List Datagram) : List (SocketAddr × Bytes) :=
  key.answers E H now (batch.map (Datagram.leaf version)) (batch.map Datagram.pending)

/-- A handler that is ready for its batch answers it and has nothing pending afterwards. -/
theorem generateResponses_ok {h : RequestHandler} {batch : List Datagram} (now : UInt64)
    (hh : Holding E H h.responder batch)
    (hready : h.responder.requests ≠ [] → h.responder.Ready debug) :
    ∃ h', h.generateResponses E H debug now = .ok (answersTo E H h.responder.onlineKey
        h.responder.protocolVersion now batch, h') ∧ h'.responder.requests = [] := by
  obtain ⟨r, hrun⟩ : ∃ r, h.responder.processResponses E H debug now =
      .ok (answersTo E H h.responder.onlineKey h.responder.protocolVersion now batch, r) := by
    by_cases hne : h.responder.requests = []
    · have hnil : batch = [] := by
        have hmap := hh.requests
        rw [hne] at hmap
        exact List.map_eq_nil_iff.mp hmap.symm
      subst hnil
      exact ⟨h.responder, if_pos hne⟩
    · have hlen : h.responder.requests.length =
          (batch.map (Datagram.leaf h.responder.protocolVersion)).length := by
        rw [hh.requests, List.length_map, List.length_map]
      obtain ⟨r, hrun⟩ := ResponseHandler.processResponses_ok now hh.sound (hready hne) hne
        hh.leaves hlen
      rw [hh.requests] at hrun
      exact ⟨r, hrun⟩
  refine ⟨{ h with responder := r.clear }, ?_, rfl⟩
  unfold RequestHandler.generateResponses
  rw [hrun]
  rfl

/-- A run in which no more than `batch_size` datagrams are accepted between two calls of
`generate_responses`, and each such call finds the handler ready. -/
structure Meets (E : Ed25519) (H : Bytes → Hash) (debug : Bool) (c : Config)
    (events : List Event) : Prop where
  within : ∀ pre, pre <+: events → (openBatch pre).length ≤ c.batchSize.toNat
  ready : ∀ pre now, pre ++ [.generate now] <+: events → ∀ h, serve E H debug c pre = .ok h →
    h.responder.requests ≠ [] → h.responder.Ready debug

theorem Meets.mono {c : Config} {pre events : List Event} (h : Meets E H debug c events)
    (hpre : pre <+: events) : Meets E H debug c pre :=
  ⟨fun p hp => h.within p (hp.trans hpre), fun p now hp => h.ready p now (hp.trans hpre)⟩

theorem Meets.nil (c : Config) : Meets E H debug c [] := by
  refine ⟨?_, ?_⟩
  · intro pre hpre
    rw [List.prefix_nil.mp hpre]
    exact Nat.zero_le _
  · intro pre now hpre
    exact absurd (List.prefix_nil.mp hpre) (List.append_ne_nil_of_right_ne_nil _ (by simp))

/-- One more event, when it finds the handler in order. -/
theorem Meets.concat {c : Config} {events : List Event} {e : Event} {h : RequestHandler}
    (hm : Meets E H debug c events) (hrun : serve E H debug c events = .ok h)
    (hwithin : (openBatch (events ++ [e])).length ≤ c.batchSize.toNat)
    (hready : ∀ now, e = .generate now → h.responder.requests ≠ [] → h.responder.Ready debug) :
    Meets E H debug c (events ++ [e]) := by
  refine ⟨?_, ?_⟩
  · intro pre hpre
    rcases List.prefix_concat_iff.mp hpre with rfl | hpre
    · exact hwithin
    · exact hm.within pre hpre
  · intro pre now hpre h' hrun'
    rcases List.prefix_concat_iff.mp hpre with heq | hpre
    · obtain ⟨rfl, he⟩ := List.append_inj' heq rfl
      rw [hrun] at hrun'
      cases hrun'
      exact hready now (List.singleton_inj.mp he).symm
    · exact hm.ready pre now hpre h' hrun'

theorem serve_append (c : Config) (events later : List Event) :
    serve E H debug c (events ++ later) =
      (serve E H debug c events >>= fun h => later.foldlM (step E H debug) h) := by
  unfold serve
  rw [bind_assoc]
  refine bind_congr fun r => ?_
  exact List.foldlM_append

theorem serve_concat (c : Config) (events : List Event) (e : Event) :
    serve E H debug c (events ++ [e]) =
      (serve E H debug c events >>= fun h => step E H debug h e) := by
  rw [serve_append]
  refine bind_congr fun h => ?_
  rw [List.foldlM_cons]
  exact bind_pure _

theorem openBatch_concat (events : List Event) (e : Event) :
    openBatch (events ++ [e]) = extend (openBatch events) e := by
  unfold openBatch
  rw [List.foldl_append]
  rfl

/-- Such a run does not panic. -/
theorem serve_ok {c : Config} (events : List Event) (hmeets : Meets E H debug c events) :
    ∃ h, serve E H debug c events = .ok h := by
  induction events using List.reverseRecOn with
  | nil =>
      obtain ⟨r, hnew, -⟩ := new_ok (E := E) (H := H) c
      refine ⟨RequestHandler.new r, ?_⟩
      unfold serve
      rw [hnew]
      rfl
  | append_singleton pre e ih =>
      obtain ⟨h, hrun⟩ := ih (hmeets.mono (List.prefix_append pre [e]))
      obtain ⟨hh, hsettings⟩ := serve_holding hrun
      rw [serve_concat, hrun, Outcome.ok_bind]
      cases e with
      | collect requestBytes srcAddr =>
          rcases collectRequest_cases (H := H) debug h requestBytes srcAddr with
            ⟨-, m, hok⟩ | ⟨d, -, hsome, -⟩
          · exact ⟨_, hok⟩
          · -- the batch with this datagram in it is still within the batch size
            have hroom : h.responder.requests.length < h.responder.batchSize := by
              have hwithin := hmeets.within _ (List.prefix_refl _)
              have hsize : h.responder.batchSize = c.batchSize.toNat :=
                congrArg Prod.fst hsettings
              rw [openBatch_concat, extend, hsome, List.length_append] at hwithin
              rw [hh.requests, List.length_map, hsize]
              exact hwithin
            obtain ⟨m', hok'⟩ := collectRequest_ok (H := H) hsome fun _ => hroom
            exact ⟨_, hok'⟩
      | generate now =>
          obtain ⟨h', hgen, -⟩ := generateResponses_ok now hh
            (hmeets.ready pre now (List.prefix_refl _) h hrun)
          refine ⟨h', ?_⟩
          show (h.generateResponses E H debug now >>= _) = _
          rw [hgen]
          rfl
      | replace draw =>
          obtain ⟨key, hmake, -⟩ := h.responder.keySource.makeOnlineKey_ok (E := E)
            h.responder.protocolVersion draw
          refine ⟨{ h with responder := { h.responder with onlineKey := key } }, ?_⟩
          show ((h.responder.keySource.makeOnlineKey E _ draw >>= _) >>= _) = _
          rw [hmake]
          rfl
      | reset => exact ⟨_, rfl⟩

/-- In a run that meets its condition, every `generate_responses` answers each datagram that was
accepted since the last one, once, in order of arrival and to its source, and leaves nothing
pending.  Two such runs with the same open batch, the same online key and the same clock emit the
same bytes, whatever else they were given. -/
theorem generate_once_and_isolated (E : Ed25519) (H : Bytes → Hash) (debug : Bool) :
    (∀ c pre now, Meets E H debug c (pre ++ [.generate now]) →
      ∃ h out h', serve E H debug c pre = .ok h ∧
        h.generateResponses E H debug now = .ok (out, h') ∧
        out.map Prod.fst = (openBatch pre).map Datagram.srcAddr ∧
        h'.responder.requests = []) ∧
    (∀ c₁ c₂ pre₁ pre₂ now h₁ h₂, Meets E H debug c₁ (pre₁ ++ [.generate now]) →
      Meets E H debug c₂ (pre₂ ++ [.generate now]) → serve E H debug c₁ pre₁ = .ok h₁ →
      serve E H debug c₂ pre₂ = .ok h₂ → openBatch pre₁ = openBatch pre₂ →
      h₁.responder.onlineKey.Same h₂.responder.onlineKey →
        ∃ out h₁' h₂', h₁.generateResponses E H debug now = .ok (out, h₁') ∧
          h₂.generateResponses E H debug now = .ok (out, h₂')) := by
  refine ⟨?_, ?_⟩
  · intro c pre now hmeets
    obtain ⟨h, hrun⟩ := serve_ok pre (hmeets.mono (List.prefix_append _ _))
    obtain ⟨hh, -⟩ := serve_holding hrun
    obtain ⟨h', hgen, hnone⟩ := generateResponses_ok now hh
      (hmeets.ready pre now (List.prefix_refl _) h hrun)
    refine ⟨h, _, h', hrun, hgen, ?_, hnone⟩
    rw [answersTo, OnlineKey.answers, frames_fst, List.map_map]
    rfl
  · intro c₁ c₂ pre₁ pre₂ now h₁ h₂ hmeets₁ hmeets₂ hrun₁ hrun₂ hbatch hsame
    obtain ⟨hh₁, -⟩ := serve_holding hrun₁
    obtain ⟨hh₂, -⟩ := serve_holding hrun₂
    obtain ⟨h₁', hgen₁, -⟩ := generateResponses_ok now hh₁
      (hmeets₁.ready pre₁ now (List.prefix_refl _) h₁ hrun₁)
    obtain ⟨h₂', hgen₂, -⟩ := generateResponses_ok now hh₂
      (hmeets₂.ready pre₂ now (List.prefix_refl _) h₂ hrun₂)
    -- keys of one kind belong to handlers of one version
    have hversion : h₁.responder.protocolVersion = h₂.responder.protocolVersion :=
      hsame.version_eq hh₁.sound hh₂.sound
    refine ⟨_, h₁', h₂', hgen₁, ?_⟩
    rw [hgen₂, answersTo, answersTo, hversion, hbatch, hsame.answers_eq]

/-! ## The 256th batch of one size -/

/-- A batch of one datagram, collected and answered. -/
def round (d : Datagram) (now : UInt64) : List Event :=
  [.collect d.bytes d.srcAddr, .generate now]

theorem accept_datagram (d : Datagram) : accept d.bytes d.srcAddr = some d :=
  accept_of_ok d.accepted

theorem openBatch_single (d : Datagram) :
    openBatch [.collect d.bytes d.srcAddr] = [d] := by
  show [] ++ (accept d.bytes d.srcAddr).toList = _
  rw [accept_datagram]
  rfl

theorem serve_nil {c : Config} {r : ResponseHandler}
    (hnew : ResponseHandler.new E c.batchSize c.keySource c.protocolVersion c.draw = .ok r) :
    serve E H debug c [] = .ok (RequestHandler.new r) := by
  rw [serve, hnew]
  rfl

/-- What a fresh handler is after its first datagram. -/
theorem serve_first {c : Config} (d : Datagram) {r : ResponseHandler}
    (hnew : ResponseHandler.new E c.batchSize c.keySource c.protocolVersion c.draw = .ok r)
    (hroom : 0 < c.batchSize.toNat) :
    Holding E H (r.push H d) [d] ∧ r.responseMetrics = ResponseMetrics.default ∧
      ∃ m, serve E H debug c [.collect d.bytes d.srcAddr] = .ok ⟨r.push H d, m⟩ := by
  obtain ⟨r', hnew', hh, hsettings, hmetrics⟩ := new_ok (E := E) (H := H) c
  rw [hnew] at hnew'
  cases hnew'
  have hidle : r.requests = [] := hh.requests
  have hsize : r.batchSize = c.batchSize.toNat := congrArg Prod.fst hsettings
  obtain ⟨m, hcollect⟩ := collectRequest_ok (h := RequestHandler.new r) (H := H)
    (accept_datagram d) fun (_ : debug = true) => by
      show r.requests.length < r.batchSize
      rw [hidle, hsize]
      exact hroom
  refine ⟨hh.push d, hmetrics, m, ?_⟩
  rw [← List.nil_append [Event.collect d.bytes d.srcAddr], serve_concat, serve_nil hnew]
  exact hcollect

/-- A first round meets the condition of a run. -/
theorem meets_round {c : Config} (d : Datagram) (now : UInt64) {r : ResponseHandler}
    (hnew : ResponseHandler.new E c.batchSize c.keySource c.protocolVersion c.draw = .ok r)
    (hroom : 0 < c.batchSize.toNat) (hcert : r.onlineKey.cert ≠ Certificate.default) :
    Meets E H debug c (round d now) := by
  obtain ⟨hh, hmetrics, m, hrun⟩ := serve_first (E := E) (H := H) d hnew hroom
  have hone : (r.push H d).requests.length = 1 := by
    rw [hh.requests]
    rfl
  have hfirst : Meets E H debug c ([] ++ [.collect d.bytes d.srcAddr]) := by
    refine (Meets.nil c).concat (serve_nil hnew) ?_ ?_
    · show ([] ++ (accept d.bytes d.srcAddr).toList).length ≤ _
      rw [accept_datagram]
      exact hroom
    · intro _ he
      cases he
  refine hfirst.concat hrun (Nat.zero_le _) ?_
  intro _ _ _
  refine ⟨by rw [hone]; decide, fun _ => ?_, fun _ => hcert⟩
  show ((r.push H d).responseMetrics.batches (r.push H d).requests.length).toNat < 255
  rw [hone, show (r.push H d).responseMetrics = _ from hmetrics]
  decide

/-- An idle handler that has counted `n` batches of one request. -/
structure Counted (E : Ed25519) (H : Bytes → Hash) (cert : Certificate) (h : ResponseHandler)
    (n : Nat) : Prop where
  holding : Holding E H h []
  room : 0 < h.batchSize
  cert_eq : h.onlineKey.cert = cert
  batches : h.responseMetrics.batches 1 = UInt8.ofNat n

/-- Below 255 another round goes through, and is counted. -/
theorem round_ok {h : RequestHandler} {n : Nat} {cert : Certificate} (d : Datagram)
    (now : UInt64) (hcert : cert ≠ Certificate.default) (hc : Counted E H cert h.responder n)
    (hn : n < 255) :
    ∃ h', (round d now).foldlM (step E H true) h = .ok h' ∧
      Counted E H cert h'.responder (n + 1) := by
  have hidle : h.responder.requests = [] := hc.holding.requests
  have hroom : h.responder.requests.length < h.responder.batchSize := by
    rw [hidle]
    exact hc.room
  obtain ⟨m, hcollect⟩ := collectRequest_ok (H := H) (accept_datagram d) fun _ => hroom
  have hpush := hc.holding.push d
  have hone : (h.responder.push H d).requests.length = 1 := by rw [hpush.requests]; rfl
  have hne : (h.responder.push H d).requests ≠ [] := List.ne_nil_of_length_eq_add_one hone
  have hslot : (h.responder.responseMetrics.batches 1).toNat = n := by
    rw [hc.batches, UInt8.toNat_ofNat_of_lt' (by rw [UInt8.size]; omega)]
  have hready : (h.responder.push H d).Ready true := by
    refine ⟨by omega, fun _ => ?_, fun _ => hc.cert_eq.trans_ne hcert⟩
    rw [hone]
    show (h.responder.responseMetrics.batches 1).toNat < 255
    omega
  obtain ⟨h', hgen, -⟩ := generateResponses_ok (h := ⟨h.responder.push H d, m⟩) now hpush
    fun _ => hready
  have hrun : (round d now).foldlM (step E H true) h = .ok h' := by
    show (h.collectRequest H true d.bytes d.srcAddr >>= fun h₁ =>
      ((h₁.generateResponses E H true now >>= fun r => pure r.2) >>= pure)) = _
    rw [hcollect, Outcome.ok_bind, hgen]
    rfl
  refine ⟨h', hrun, ?_⟩
  simp only [RequestHandler.generateResponses, Outcome.bind_ok_iff, Outcome.pure_eq,
    Outcome.ok.injEq, Prod.mk.injEq] at hgen
  obtain ⟨⟨outs, r⟩, hprocess, -, rfl⟩ := hgen
  have hp := ResponseHandler.processResponses_processed hpush.sound hne hprocess
  obtain ⟨-, hcount⟩ := hp.ready hne (by omega)
  have hsize : r.batchSize = h.responder.batchSize := congrArg Prod.fst hp.settings
  refine ⟨Holding.clear hp.sound, ?_, ?_, ?_⟩
  · show 0 < r.batchSize
    rw [hsize]
    exact hc.room
  · exact hp.same.cert_eq.trans hc.cert_eq
  · rw [hone] at hcount
    show r.responseMetrics.batches 1 = _
    rw [hcount, UInt8.ofNat_add]
    exact congrArg (· + 1) hc.batches

/-- `k` rounds in a row, as long as the count stays within the `u8`. -/
theorem rounds_ok {h : RequestHandler} {n : Nat} {cert : Certificate} (k : Nat) (d : Datagram)
    (now : UInt64) (hcert : cert ≠ Certificate.default) (hc : Counted E H cert h.responder n)
    (hn : n + k ≤ 255) :
    ∃ h', ((List.replicate k (round d now)).flatten).foldlM (step E H true) h = .ok h' ∧
      Counted E H cert h'.responder (n + k) := by
  induction k generalizing h n with
  | zero => exact ⟨h, rfl, hc⟩
  | succ k ih =>
      obtain ⟨h₁, hfirst, hc₁⟩ := round_ok d now hcert hc (by omega)
      obtain ⟨h', hlater, hc'⟩ := ih hc₁ (by omega)
      refine ⟨h', ?_, by rwa [Nat.add_comm k 1, ← Nat.add_assoc]⟩
      rw [List.replicate_succ, List.flatten_cons, List.foldlM_append, hfirst]
      exact hlater

theorem openBatch_rounds (k : Nat) (d : Datagram) (now : UInt64) :
    openBatch (List.replicate k (round d now)).flatten = [] := by
  induction k with
  | zero => rfl
  | succ k ih =>
      rw [List.replicate_succ, List.flatten_cons, openBatch, List.foldl_append]
      exact ih

/-- 255 batches of one datagram, and the datagram of the next. -/
def flood (d : Datagram) (now : UInt64) : List Event :=
  (List.replicate 255 (round d now)).flatten ++ [.collect d.bytes d.srcAddr]

theorem openBatch_flood (d : Datagram) (now : UInt64) : openBatch (flood d now) = [d] := by
  rw [flood, openBatch_concat, openBatch_rounds, extend, accept_datagram]
  rfl

/-- No more than one datagram is ever pending in a flood. -/
theorem flood_within (k : Nat) (d : Datagram) (now : UInt64) (pre : List Event)
    (hpre : pre <+: (List.replicate k (round d now)).flatten ++ [.collect d.bytes d.srcAddr]) :
    (openBatch pre).length ≤ 1 := by
  have hone := openBatch_single d
  induction k generalizing pre with
  | zero =>
      rcases List.prefix_cons_iff.mp hpre with rfl | ⟨t, rfl, ht⟩
      · exact Nat.zero_le _
      · rw [List.prefix_nil.mp ht, hone]
        exact Nat.le_refl 1
  | succ k ih =>
      rcases List.prefix_cons_iff.mp hpre with rfl | ⟨t, rfl, ht⟩
      · exact Nat.zero_le _
      · rcases List.prefix_cons_iff.mp ht with rfl | ⟨u, rfl, hu⟩
        · rw [hone]
          exact Nat.le_refl 1
        · exact ih u hu

/-- In a debug build the 256th batch of one request panics, whatever the hash and the clock: the
slot of the histogram is full. -/
theorem flood_panics (c : Config) (d : Datagram) (now : UInt64) {r : ResponseHandler}
    (hnew : ResponseHandler.new E c.batchSize c.keySource c.protocolVersion c.draw = .ok r)
    (hroom : 0 < c.batchSize.toNat) (hcert : r.onlineKey.cert ≠ Certificate.default) :
    ∃ h, serve E H true c (flood d now) = .ok h ∧
      h.responder.onlineKey.cert = r.onlineKey.cert ∧
      ∀ t, h.responder.processResponses E H true t = .panic := by
  obtain ⟨r', hnew', hh, hsettings, hmetrics⟩ := new_ok (E := E) (H := H) c
  rw [hnew] at hnew'
  cases hnew'
  have hsize : r.batchSize = c.batchSize.toNat := congrArg Prod.fst hsettings
  have hc : Counted E H r.onlineKey.cert (RequestHandler.new r).responder 0 := by
    refine ⟨hh, ?_, rfl, ?_⟩
    · show 0 < r.batchSize
      rw [hsize]
      exact hroom
    · show r.responseMetrics.batches 1 = _
      rw [hmetrics]
      decide
  obtain ⟨h, hrounds, hc'⟩ := rounds_ok 255 d now hcert hc (by decide)
  have hidle : h.responder.requests = [] := hc'.holding.requests
  obtain ⟨m, hcollect⟩ := collectRequest_ok (h := h) (H := H) (accept_datagram d) fun _ => by
    rw [hidle]
    exact hc'.room
  refine ⟨⟨h.responder.push H d, m⟩, ?_, hc'.cert_eq, ?_⟩
  · rw [flood, serve_concat, serve, hnew, Outcome.ok_bind, hrounds]
    exact hcollect
  · intro t
    have hone : (h.responder.push H d).requests = [d.pending] := (hc'.holding.push d).requests
    have hne : (h.responder.push H d).requests ≠ [] := by
      rw [hone]
      exact List.cons_ne_nil _ _
    have hfull : (h.responder.push H d).responseMetrics.addBatchSize true (UInt8.ofNat
        (h.responder.push H d).requests.length) = .panic :=
      ResponseMetrics.addBatchSize_full (by rw [hone]; exact Nat.le_refl 1)
        (by rw [hone]; exact (by decide : 1 ≤ 64)) (by rw [hone]; exact hc'.batches)
    rw [ResponseHandler.processResponses, if_neg hne, hfull]
    rfl

end Runs

/-! ## A server in a debug build -/

namespace Sample

/-- A stand-in for Ed25519 in which a key is its own public half. -/
def ed25519 : Ed25519 where
  publicKey seed := seed
  sign seed data := ⟨(digest seed.bytes).bytes ++ (digest data).bytes, by
    rw [List.length_append, Octets.bytes_length, Octets.bytes_length]⟩
  verify key data sig :=
    decide (sig.bytes = (digest key.bytes).bytes ++ (digest data).bytes)

theorem ed25519_correct : ed25519.Correct := fun _ _ => decide_eq_true rfl

def keySource (version : ProtocolVersion) : KeySource :=
  ⟨⟨Octets.fill 32 0x11, version⟩, .fromSecs 3600, rfl⟩

def config (version : ProtocolVersion) : Config :=
  ⟨64, keySource version, version, ⟨1000, Octets.fill 32 0x22, 0⟩⟩

def address : SocketAddr := .v4 Octets.localhost 8080

def nonce : Nonce := Octets.fill 32 0x42

def datagram : Datagram :=
  ⟨framed (Request.newDraft14 nonce).encode, address, Request.newDraft14 nonce, by decide +kernel⟩

def datagramDraft08 : Datagram :=
  ⟨framed (Request.newDraft08 nonce).encode, address, Request.newDraft08 nonce, by decide +kernel⟩

/-- A certificate has been set. -/
def certified (o : Call ResponseHandler) : Bool :=
  match o with
  | .ok r => decide (r.onlineKey.cert ≠ Certificate.default)
  | _ => false

/-- The fresh handler of a sample configuration, and that a certificate was set. -/
theorem new_certified (version : ProtocolVersion) :
    ∃ r, ResponseHandler.new ed25519 64 (keySource version) version (config version).draw = .ok r ∧
      r.onlineKey.cert ≠ Certificate.default := by
  have hcheck : certified (ResponseHandler.new ed25519 64 (keySource version) version
      (config version).draw) = true := by
    cases version <;> decide +kernel
  cases hnew : ResponseHandler.new ed25519 64 (keySource version) version
      (config version).draw with
  | ok r =>
      rw [hnew] at hcheck
      exact ⟨r, rfl, of_decide_eq_true hcheck⟩
  | err e => exact e.elim
  | panic =>
      rw [hnew] at hcheck
      cases hcheck

end Sample

open Sample

/-- A run of one batch, in a debug build. -/
theorem generate_once_and_isolated_round :
    ∃ h out h', serve ed25519 digest true (config .rfcDraft14)
        [.collect datagram.bytes datagram.srcAddr] = .ok h ∧
      h.generateResponses ed25519 digest true 2000 = .ok (out, h') ∧
      out.map Prod.fst = [address] ∧ h'.responder.requests = [] := by
  obtain ⟨r, hnew, hcert⟩ := new_certified .rfcDraft14
  obtain ⟨h, out, h', hrun, hgen, hfst, hnone⟩ :=
    (generate_once_and_isolated ed25519 digest true).1 (config .rfcDraft14)
      [.collect datagram.bytes datagram.srcAddr] 2000
      (meets_round datagram 2000 hnew (by decide) hcert)
  refine ⟨h, out, h', hrun, hgen, hfst.trans ?_, hnone⟩
  rw [openBatch_single]
  rfl

/-- The 256th request in a row, each alone in its batch: it is never answered. -/
theorem flood_never_answered :
    (∀ pre, pre <+: flood datagram 2000 → (openBatch pre).length ≤ 64) ∧
    openBatch (flood datagram 2000) = [datagram] ∧
    ∃ h, serve ed25519 digest true (config .rfcDraft14) (flood datagram 2000) = .ok h ∧
      h.generateResponses ed25519 digest true 2000 = .panic := by
  obtain ⟨r, hnew, hcert⟩ := new_certified .rfcDraft14
  obtain ⟨h, hrun, -, hpanic⟩ :=
    flood_panics (H := digest) (config .rfcDraft14) datagram 2000 hnew (by decide) hcert
  refine ⟨?_, openBatch_flood _ _, h, hrun, ?_⟩
  · intro pre hpre
    exact Nat.le_trans (flood_within 255 datagram 2000 pre hpre) (by decide)
  · rw [RequestHandler.generateResponses, hpanic]
    rfl

end Roughenough.Server
