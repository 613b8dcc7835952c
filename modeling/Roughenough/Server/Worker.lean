/-
# `Roughenough.Server.Worker` — the loop of a worker

`roughenough-server/src/worker.rs`, with the settings it takes from `args.rs`.
One turn of `run` is

    top         the clock; publish the metrics and replace the key, if due
    poll        wait for the socket; `readable` events
    collect     take datagrams from the socket    ⎫ again and again, for each
    generate    answer them                       ⎭ event, until `Empty`

and a run is a `Trace` of these steps.  An `Exchange` is what a step has to do
with the surroundings: readings of the clock and draws going in, snapshots,
log lines and responses coming out.  Nothing but the top looks at the key.

    refines     a run of the worker is a run of its request handler, on the
                first 1024 bytes of each datagram
-/
import Roughenough.Base.Traces
import Roughenough.Server.Network

namespace Roughenough.Server

open Roughenough.Base Roughenough.Protocol Roughenough.Merkle

/-- The arguments a worker depends on.  The parser holds `batch_size` to 1..=64. -/
structure Args where
  batchSize : UInt8
  protocol : ProtocolVersion
  rotationHours : UInt16
  inRange : 1 ≤ batchSize.toNat ∧ batchSize.toNat ≤ 64
  deriving DecidableEq

/-- `rotation_interval`: the hours, as a duration. -/
def Args.rotationInterval (args : Args) : Duration :=
  .fromSecs (UInt64.ofNat args.rotationHours.toNat * 60 * 60)

structure WorkerMetrics where
  workerId : Nat
  network : NetworkMetrics
  request : RequestMetrics
  response : ResponseMetrics
  deriving DecidableEq

structure Worker where
  workerId : Nat
  netHandler : NetworkHandler
  reqHandler : RequestHandler
  keyReplacementInterval : Duration
  metricsPublishInterval : Duration
  nextKeyReplacement : UInt64
  nextMetricsPublication : UInt64

/-- What the top of the loop reads: the clock, the clock again when metrics are published, what a
new key takes, and a random number below 255. -/
structure Readings where
  now : UInt64
  publishNow : UInt64
  draw : Draw
  jitter : Fin 255

namespace Worker

variable (E : Ed25519) (H : Bytes → Hash) (debug : Bool)

def new (workerId : Nat) (args : Args) (responder : ResponseHandler) (now : UInt64)
    (metricsInterval : Duration) : Call Worker := do
  let nextMetricsPublication ← addU64 debug now metricsInterval.secs
  pure
    { workerId := workerId
      netHandler := NetworkHandler.new args.batchSize.toNat
      reqHandler := RequestHandler.new responder
      keyReplacementInterval := args.rotationInterval
      metricsPublishInterval := metricsInterval
      nextKeyReplacement := now
      nextMetricsPublication := nextMetricsPublication }

def publishMetrics (w : Worker) (now : UInt64) : Call (WorkerMetrics × Worker) := do
  let snapshot : WorkerMetrics :=
    ⟨w.workerId, w.netHandler.metrics, w.reqHandler.metrics,
      w.reqHandler.responder.responseMetrics⟩
  let next ← addU64 debug now w.metricsPublishInterval.secs
  pure (snapshot,
    { w with
      netHandler := w.netHandler.resetMetrics
      reqHandler := w.reqHandler.resetMetrics
      nextMetricsPublication := next })

/-- `replace_online_key`: the next replacement is counted from the last one that was planned, not
from the clock. -/
def replaceOnlineKey (w : Worker) (draw : Draw) (jitter : Fin 255) :
    Call (PublicKey × Worker) := do
  let reqHandler ← w.reqHandler.replaceOnlineKey E draw
  let step ← subU64 debug w.keyReplacementInterval.secs (UInt64.ofNat jitter.val)
  let next ← addU64 debug w.nextKeyReplacement step
  pure (reqHandler.responder.publicKey E,
    { w with reqHandler := reqHandler, nextKeyReplacement := next })

/-- The first check at the top of the loop, with the snapshot that is published. -/
def checkMetrics (w : Worker) (r : Readings) : Call (Option WorkerMetrics × Worker) :=
  if r.now ≥ w.nextMetricsPublication then do
    let (snapshot, w) ← w.publishMetrics debug r.publishNow
    pure (some snapshot, w)
  else pure (none, w)

/-- The second, with the public key that is logged. -/
def checkKey (w : Worker) (r : Readings) : Call (Option PublicKey × Worker) :=
  if r.now ≥ w.nextKeyReplacement then do
    let (key, w) ← w.replaceOnlineKey E debug r.draw r.jitter
    pure (some key, w)
  else pure (none, w)

def loopTop (w : Worker) (r : Readings) :
    Call ((Option WorkerMetrics × Option PublicKey) × Worker) := do
  let (snapshot, w) ← w.checkMetrics debug r
  let (key, w) ← w.checkKey E debug r
  pure ((snapshot, key), w)

def polled (w : Worker) (failed : Bool) : Worker :=
  if failed then { w with netHandler := w.netHandler.recordFailedPoll } else w

def collectRequests (w : Worker) (sock : List Recv) : Call (CollectResult × Worker) := do
  let (result, net, req) ← w.netHandler.collectRequests
    (fun req requestBytes srcAddr => req.collectRequest H debug requestBytes srcAddr) sock
    w.reqHandler
  pure (result, { w with netHandler := net, reqHandler := req })

/-- `generate_responses` with `send_response` as its callback; `sent i` is how the `i`-th
`send_to` ends. -/
def generateResponses (w : Worker) (now : UInt64) (sent : Nat → Bool) :
    Call (List (SocketAddr × Bytes) × Worker) := do
  let (outs, req) ← w.reqHandler.generateResponses E H debug now
  let net := outs.zipIdx.foldl (fun net o => net.sendResponse (sent o.2)) w.netHandler
  pure (outs, { w with netHandler := net, reqHandler := req })

end Worker

/-! ## Steps -/

/-- Where the loop stands.  `n` counts the events behind the one that is being served. -/
inductive Phase where
  | top
  | poll
  | collect (n : Nat)
  | generate (n : Nat) (result : CollectResult)
  deriving DecidableEq

/-- The next event, or the next turn. -/
def Phase.next : Nat → Phase
  | 0 => .top
  | n + 1 => .collect n

inductive Exchange where
  | top (readings : Readings) (snapshot : Option WorkerMetrics) (key : Option PublicKey)
  | poll (failed : Bool) (readable : Nat)
  | collect (sock : List Recv)
  | generate (now : UInt64) (sent : Nat → Bool) (outs : List (SocketAddr × Bytes))

structure Loop where
  worker : Worker
  phase : Phase

/-- One step of `Worker::run`. -/
inductive Step (E : Ed25519) (H : Bytes → Hash) (debug : Bool) : Loop → Exchange → Loop → Prop
  | top {w w' : Worker} {r : Readings} {snapshot : Option WorkerMetrics}
      {key : Option PublicKey} : w.loopTop E debug r = .ok ((snapshot, key), w') →
      Step E H debug ⟨w, .top⟩ (.top r snapshot key) ⟨w', .poll⟩
  | poll {w : Worker} (failed : Bool) (readable : Nat) :
      Step E H debug ⟨w, .poll⟩ (.poll failed readable) ⟨w.polled failed, Phase.next readable⟩
  | collect {w w' : Worker} {n : Nat} {sock : List Recv} {result : CollectResult} :
      w.collectRequests H debug sock = .ok (result, w') →
      Step E H debug ⟨w, .collect n⟩ (.collect sock) ⟨w', .generate n result⟩
  | generate {w w' : Worker} {n : Nat} {result : CollectResult} {now : UInt64}
      {sent : Nat → Bool} {outs : List (SocketAddr × Bytes)} :
      w.generateResponses E H debug now sent = .ok (outs, w') →
      Step E H debug ⟨w, .generate n result⟩ (.generate now sent outs)
        ⟨w', if result = .empty then Phase.next n else .collect n⟩

/-- What a worker is started with. -/
structure Launch where
  workerId : Nat
  args : Args
  keySource : KeySource
  draw : Draw
  now : UInt64
  metricsInterval : Duration

def Launch.config (l : Launch) : Config := ⟨l.args.batchSize, l.keySource, l.args.protocol, l.draw⟩

/-- The thread of a worker, up to its loop. -/
def Launch.start (E : Ed25519) (debug : Bool) (l : Launch) : Call Loop := do
  let responder ← ResponseHandler.new E l.args.batchSize l.keySource l.args.protocol l.draw
  let worker ← Worker.new debug l.workerId l.args responder l.now l.metricsInterval
  pure ⟨worker, .top⟩

/-- A run of a worker that did not panic. -/
def Launch.Runs (E : Ed25519) (H : Bytes → Hash) (debug : Bool) (l : Launch)
    (exchanges : List Exchange) (s : Loop) : Prop :=
  ∃ s₀, l.start E debug = .ok s₀ ∧ Trace (Step E H debug) s₀ exchanges s

/-! ## What a step does -/

section Steps

variable {E : Ed25519} {H : Bytes → Hash} {debug : Bool}

theorem Worker.publishMetrics_ok {w w' : Worker} {now : UInt64} {snapshot : WorkerMetrics}
    (h : w.publishMetrics debug now = .ok (snapshot, w')) : ∃ next, w' =
      { w with
        netHandler := w.netHandler.resetMetrics
        reqHandler := w.reqHandler.resetMetrics
        nextMetricsPublication := next } := by
  simp only [publishMetrics, Outcome.bind_ok_iff, Outcome.pure_eq, Outcome.ok.injEq,
    Prod.mk.injEq] at h
  obtain ⟨next, -, -, rfl⟩ := h
  exact ⟨next, rfl⟩

theorem Worker.replaceOnlineKey_ok_iff {w w' : Worker} {draw : Draw} {jitter : Fin 255}
    {key : PublicKey} : w.replaceOnlineKey E debug draw jitter = .ok (key, w') ↔
      ∃ req, w.reqHandler.replaceOnlineKey E draw = .ok req ∧
        (debug = true → (UInt64.ofNat jitter.val).toNat ≤ w.keyReplacementInterval.secs.toNat) ∧
        (debug = true → w.nextKeyReplacement.toNat +
          (w.keyReplacementInterval.secs - UInt64.ofNat jitter.val).toNat < 2 ^ 64) ∧
        req.responder.publicKey E = key ∧
        { w with
          reqHandler := req
          nextKeyReplacement := w.nextKeyReplacement +
            (w.keyReplacementInterval.secs - UInt64.ofNat jitter.val) } = w' := by
  simp only [replaceOnlineKey, subU64_ok_iff, addU64_ok_iff, Outcome.bind_ok_iff,
    Outcome.pure_eq, Outcome.ok.injEq, Prod.mk.injEq, and_assoc,
    exists_eq_left', exists_and_left]

theorem Worker.checkMetrics_cases {w w' : Worker} {r : Readings}
    {snapshot : Option WorkerMetrics} (h : w.checkMetrics debug r = .ok (snapshot, w')) :
    (snapshot = none ∧ w' = w) ∨
      ∃ m, snapshot = some m ∧ w.publishMetrics debug r.publishNow = .ok (m, w') := by
  unfold checkMetrics at h
  split at h
  · simp only [Outcome.bind_ok_iff, Outcome.pure_eq, Outcome.ok.injEq, Prod.mk.injEq] at h
    obtain ⟨⟨m, w₁⟩, hpublish, rfl, rfl⟩ := h
    exact .inr ⟨m, rfl, hpublish⟩
  · cases h
    exact .inl ⟨rfl, rfl⟩

theorem Worker.checkKey_cases {w w' : Worker} {r : Readings} {key : Option PublicKey}
    (h : w.checkKey E debug r = .ok (key, w')) :
    (key = none ∧ w' = w ∧ r.now < w.nextKeyReplacement) ∨
      ∃ k, key = some k ∧ w.nextKeyReplacement ≤ r.now ∧
        w.replaceOnlineKey E debug r.draw r.jitter = .ok (k, w') := by
  unfold checkKey at h
  split at h
  · next hdue =>
      simp only [Outcome.bind_ok_iff, Outcome.pure_eq, Outcome.ok.injEq, Prod.mk.injEq] at h
      obtain ⟨⟨k, w₁⟩, hreplace, rfl, rfl⟩ := h
      exact .inr ⟨k, rfl, hdue, hreplace⟩
  · next hearly =>
      cases h
      exact .inl ⟨rfl, rfl, UInt64.not_le.mp hearly⟩

/-- The top of the loop is its two checks, one after the other. -/
theorem Worker.loopTop_ok_iff {w w' : Worker} {r : Readings} {snapshot : Option WorkerMetrics}
    {key : Option PublicKey} : w.loopTop E debug r = .ok ((snapshot, key), w') ↔
      ∃ w₁, w.checkMetrics debug r = .ok (snapshot, w₁) ∧
        w₁.checkKey E debug r = .ok (key, w') := by
  simp only [loopTop, Outcome.bind_ok_iff, Outcome.pure_eq, Outcome.ok.injEq, Prod.mk.injEq]
  constructor
  · rintro ⟨⟨snapshot, w₁⟩, hmetrics, ⟨key, w₂⟩, hkey, ⟨rfl, rfl⟩, rfl⟩
    exact ⟨w₁, hmetrics, hkey⟩
  · rintro ⟨w₁, hmetrics, hkey⟩
    exact ⟨(snapshot, w₁), hmetrics, (key, w'), hkey, ⟨rfl, rfl⟩, rfl⟩

theorem Worker.collectRequests_ok_iff {w w' : Worker} {sock : List Recv}
    {result : CollectResult} : w.collectRequests H debug sock = .ok (result, w') ↔
      ∃ req, (NetworkHandler.taken w.netHandler.batchSize sock).foldlM (fun req d =>
          req.collectRequest H debug (d.1.take NetworkHandler.recvBufferSize) d.2)
            w.reqHandler = .ok req ∧
        (NetworkHandler.ending w.netHandler.batchSize sock w.netHandler.metrics).1 = result ∧
        { w with
          netHandler.metrics :=
            (NetworkHandler.ending w.netHandler.batchSize sock w.netHandler.metrics).2
          reqHandler := req } = w' := by
  simp only [collectRequests, NetworkHandler.collectRequests_eq, bind_assoc, Outcome.bind_ok_iff,
    Outcome.pure_eq, Outcome.ok_bind, Outcome.ok.injEq, Prod.mk.injEq]

theorem Worker.generateResponses_ok_iff {w w' : Worker} {now : UInt64} {sent : Nat → Bool}
    {outs : List (SocketAddr × Bytes)} :
    w.generateResponses E H debug now sent = .ok (outs, w') ↔
      ∃ req, w.reqHandler.generateResponses E H debug now = .ok (outs, req) ∧
        { w with
          netHandler := outs.zipIdx.foldl (fun net o => net.sendResponse (sent o.2)) w.netHandler
          reqHandler := req } = w' := by
  simp only [generateResponses, Outcome.bind_ok_iff, Outcome.pure_eq, Outcome.ok.injEq,
    Prod.mk.injEq]
  constructor
  · rintro ⟨⟨outs, req⟩, hgen, rfl, rfl⟩
    exact ⟨req, hgen, rfl⟩
  · rintro ⟨req, hgen, rfl⟩
    exact ⟨(outs, req), hgen, rfl, rfl⟩

/-! ## A run of the worker is a run of its handler -/

/-- The calls of the request handler in a step. -/
def Exchange.events (batchSize : Nat) : Exchange → List Event
  | .top r snapshot key =>
      (if snapshot.isSome then [.reset] else []) ++
        (if key.isSome then [.replace r.draw] else [])
  | .poll _ _ => []
  | .collect sock => (NetworkHandler.taken batchSize sock).map fun d =>
      .collect (d.1.take NetworkHandler.recvBufferSize) d.2
  | .generate now _ _ => [.generate now]

theorem sendResponse_batchSize (outs : List ((SocketAddr × Bytes) × Nat)) (sent : Nat → Bool)
    (net : NetworkHandler) :
    (outs.foldl (fun net o => net.sendResponse (sent o.2)) net).batchSize = net.batchSize := by
  induction outs generalizing net with
  | nil => rfl
  | cons o later ih =>
      rw [List.foldl_cons, ih]
      unfold NetworkHandler.sendResponse
      split <;> rfl

/-- No step changes the batch size, and the handler goes through the events of the step. -/
theorem Step.refines {s s' : Loop} {a : Exchange} (h : Step E H debug s a s') :
    s'.worker.netHandler.batchSize = s.worker.netHandler.batchSize ∧
      (a.events s.worker.netHandler.batchSize).foldlM (step E H debug) s.worker.reqHandler =
        .ok s'.worker.reqHandler := by
  cases h with
  | @top w w' r snapshot key htop =>
      obtain ⟨w₁, hmetrics, hkey⟩ := Worker.loopTop_ok_iff.mp htop
      have hreset : w₁.netHandler.batchSize = w.netHandler.batchSize ∧
          (if snapshot.isSome then [Event.reset] else []).foldlM (step E H debug) w.reqHandler =
            .ok w₁.reqHandler := by
        rcases Worker.checkMetrics_cases hmetrics with ⟨rfl, rfl⟩ | ⟨m, rfl, hpublish⟩
        · exact ⟨rfl, rfl⟩
        · obtain ⟨next, rfl⟩ := Worker.publishMetrics_ok hpublish
          exact ⟨rfl, rfl⟩
      have hreplace : w'.netHandler.batchSize = w₁.netHandler.batchSize ∧
          (if key.isSome then [Event.replace r.draw] else []).foldlM (step E H debug)
            w₁.reqHandler = .ok w'.reqHandler := by
        rcases Worker.checkKey_cases hkey with ⟨rfl, rfl, -⟩ | ⟨k, rfl, -, hreplace⟩
        · exact ⟨rfl, rfl⟩
        · obtain ⟨req, hreq, -, -, -, rfl⟩ := Worker.replaceOnlineKey_ok_iff.mp hreplace
          refine ⟨rfl, ?_⟩
          show (w₁.reqHandler.replaceOnlineKey E r.draw >>= pure) = _
          rw [hreq]
          rfl
      refine ⟨hreplace.1.trans hreset.1, ?_⟩
      rw [Exchange.events, List.foldlM_append, hreset.2]
      exact hreplace.2
  | poll failed readable =>
      unfold Worker.polled
      split <;> exact ⟨rfl, rfl⟩
  | collect hcollect =>
      obtain ⟨req, hfold, -, rfl⟩ := Worker.collectRequests_ok_iff.mp hcollect
      refine ⟨rfl, ?_⟩
      rw [Exchange.events, List.foldlM_map]
      exact hfold
  | @generate w w' n result now sent outs hgen =>
      obtain ⟨req, hreq, rfl⟩ := Worker.generateResponses_ok_iff.mp hgen
      refine ⟨sendResponse_batchSize _ sent _, ?_⟩
      show ((w.reqHandler.generateResponses E H debug now >>= fun r => pure r.2) >>= pure) = _
      rw [hreq]
      rfl

theorem Launch.start_ok {l : Launch} {s : Loop} (h : l.start E debug = .ok s) :
    s.phase = .top ∧ s.worker.nextKeyReplacement = l.now ∧
      s.worker.keyReplacementInterval = l.args.rotationInterval ∧
      s.worker.nextMetricsPublication = l.now + l.metricsInterval.secs ∧
      s.worker.netHandler.batchSize = l.args.batchSize.toNat ∧
      serve E H debug l.config [] = .ok s.worker.reqHandler := by
  simp only [start, Worker.new, addU64_ok_iff, Outcome.bind_ok_iff, Outcome.pure_eq,
    Outcome.ok.injEq] at h
  obtain ⟨responder, hnew, worker, ⟨next, ⟨_, -, rfl⟩, rfl⟩, rfl⟩ := h
  exact ⟨rfl, rfl, rfl, rfl, rfl, serve_nil hnew⟩

/-- A run of a worker is a run of its request handler. -/
theorem Launch.Runs.refines {l : Launch} {exchanges : List Exchange} {s : Loop}
    (h : l.Runs E H debug exchanges s) :
    s.worker.netHandler.batchSize = l.args.batchSize.toNat ∧
      serve E H debug l.config (exchanges.flatMap (Exchange.events l.args.batchSize.toNat)) =
        .ok s.worker.reqHandler := by
  obtain ⟨s₀, hstart, htrace⟩ := h
  obtain ⟨-, -, -, -, hsize, hserve⟩ := start_ok (H := H) hstart
  refine Trace.invariant (fun done (t : Loop) =>
    t.worker.netHandler.batchSize = l.args.batchSize.toNat ∧
      serve E H debug l.config (done.flatMap (Exchange.events l.args.batchSize.toNat)) =
        .ok t.worker.reqHandler) ?_ ?_ htrace
  · exact ⟨hsize, hserve⟩
  · intro done s a s' _ hinv hstep
    obtain ⟨hkept, hfold⟩ := hstep.refines
    rw [hinv.1] at hkept hfold
    refine ⟨hkept, ?_⟩
    rw [List.flatMap_append, List.flatMap_singleton, serve_append, hinv.2, Outcome.ok_bind]
    exact hfold

/-! ## What is pending -/

theorem Launch.Runs.step {l : Launch} {exchanges : List Exchange} {s s' : Loop} {a : Exchange}
    (h : l.Runs E H debug exchanges s) (hstep : Step E H debug s a s') :
    l.Runs E H debug (exchanges ++ [a]) s' := by
  obtain ⟨s₀, hstart, htrace⟩ := h
  exact ⟨s₀, hstart, htrace.step hstep⟩

theorem Step.functional {s s₁ s₂ : Loop} {a : Exchange} (h₁ : Step E H debug s a s₁)
    (h₂ : Step E H debug s a s₂) : s₁ = s₂ := by
  cases h₁ with
  | top htop =>
      cases h₂ with
      | top htop' =>
          cases htop.symm.trans htop'
          rfl
  | poll failed readable =>
      cases h₂
      rfl
  | collect hcollect =>
      cases h₂ with
      | collect hcollect' =>
          cases hcollect.symm.trans hcollect'
          rfl
  | generate hgen =>
      cases h₂ with
      | generate hgen' =>
          cases hgen.symm.trans hgen'
          rfl

/-- The exchanges of a run determine where it ends. -/
theorem Launch.Runs.functional {l : Launch} {exchanges : List Exchange} {s s' : Loop}
    (h : l.Runs E H debug exchanges s) (h' : l.Runs E H debug exchanges s') : s = s' := by
  obtain ⟨s₀, hstart, htrace⟩ := h
  obtain ⟨s₀', hstart', htrace'⟩ := h'
  cases hstart.symm.trans hstart'
  exact htrace.functional (fun _ _ _ _ h₁ h₂ => h₁.functional h₂) htrace'

theorem taken_length_le (turns : Nat) (sock : List Recv) :
    (NetworkHandler.taken turns sock).length ≤ turns := by
  induction turns, sock using NetworkHandler.taken.induct with
  | case1 turns bytes srcAddr later ih => exact Nat.succ_le_succ ih
  | case2 turns sock hnot =>
      rw [NetworkHandler.taken]
      · exact Nat.zero_le _
      · exact hnot

theorem collectRequest_pending {h h' : RequestHandler} {requestBytes : Bytes}
    {srcAddr : SocketAddr} (hrun : h.collectRequest H debug requestBytes srcAddr = .ok h') :
    h'.responder.requests.length ≤ h.responder.requests.length + 1 := by
  rcases collectRequest_cases (H := H) debug h requestBytes srcAddr with
    ⟨-, m, hok⟩ | ⟨d, m, -, hok⟩
  · rw [hok] at hrun
    cases hrun
    exact Nat.le_succ _
  · rw [hok, Outcome.bind_ok_iff] at hrun
    obtain ⟨r, hadd, hr⟩ := hrun
    cases hr
    obtain ⟨-, rfl⟩ := addRequest_ok_iff.mp hadd
    exact (List.length_append).le

theorem RequestHandler.replaceOnlineKey_ok_iff {h h' : RequestHandler} {draw : Draw} :
    h.replaceOnlineKey E draw = .ok h' ↔ ∃ key,
      h.responder.keySource.makeOnlineKey E h.responder.protocolVersion draw = .ok key ∧
        { h with responder.onlineKey := key } = h' := by
  simp only [replaceOnlineKey, ResponseHandler.replaceOnlineKey, bind_assoc, Outcome.bind_ok_iff,
    Outcome.pure_eq, Outcome.ok_bind, Outcome.ok.injEq]

theorem Worker.loopTop_requests {w w' : Worker} {r : Readings} {snapshot : Option WorkerMetrics}
    {key : Option PublicKey} (h : w.loopTop E debug r = .ok ((snapshot, key), w')) :
    w'.reqHandler.responder.requests = w.reqHandler.responder.requests := by
  obtain ⟨w₁, hmetrics, hkey⟩ := loopTop_ok_iff.mp h
  have hreset : w₁.reqHandler.responder.requests = w.reqHandler.responder.requests := by
    rcases checkMetrics_cases hmetrics with ⟨-, rfl⟩ | ⟨m, -, hpublish⟩
    · rfl
    · obtain ⟨next, rfl⟩ := publishMetrics_ok hpublish
      rfl
  rcases checkKey_cases hkey with ⟨-, rfl, -⟩ | ⟨k, -, -, hreplace⟩
  · exact hreset
  · obtain ⟨req, hreq, -, -, -, rfl⟩ := replaceOnlineKey_ok_iff.mp hreplace
    obtain ⟨key, -, rfl⟩ := RequestHandler.replaceOnlineKey_ok_iff.mp hreq
    exact hreset

/-- Requests are pending between `collect` and `generate` alone, and no more than a batch. -/
theorem Launch.Runs.pending {l : Launch} {exchanges : List Exchange} {s : Loop}
    (h : l.Runs E H debug exchanges s) :
    s.worker.reqHandler.responder.requests.length ≤ l.args.batchSize.toNat ∧
      ((∀ n result, s.phase ≠ .generate n result) →
        s.worker.reqHandler.responder.requests = []) := by
  obtain ⟨s₀, hstart, htrace⟩ := h
  obtain ⟨-, -, -, -, -, hserve⟩ := start_ok (H := H) hstart
  have hidle : s₀.worker.reqHandler.responder.requests = [] := (serve_holding hserve).1.requests
  refine Trace.invariant (fun _ (t : Loop) =>
    t.worker.reqHandler.responder.requests.length ≤ l.args.batchSize.toNat ∧
      ((∀ n result, t.phase ≠ .generate n result) →
        t.worker.reqHandler.responder.requests = [])) ?_ ?_ htrace
  · rw [hidle]
    exact ⟨Nat.zero_le _, fun _ => rfl⟩
  · intro done t a t' hdone hinv hstep
    have hsize := (Launch.Runs.refines (l := l) ⟨s₀, hstart, hdone⟩).1
    cases hstep with
    | top htop =>
        rw [Worker.loopTop_requests htop, hinv.2 fun _ _ h => nomatch h]
        exact ⟨Nat.zero_le _, fun _ => rfl⟩
    | @poll w failed readable =>
        have hkept : (w.polled failed).reqHandler = w.reqHandler := by
          unfold Worker.polled
          split <;> rfl
        rw [hkept, hinv.2 fun _ _ h => nomatch h]
        exact ⟨Nat.zero_le _, fun _ => rfl⟩
    | @collect w w' n sock result hcollect =>
        obtain ⟨req, hfold, -, rfl⟩ := Worker.collectRequests_ok_iff.mp hcollect
        refine ⟨?_, fun h => absurd rfl (h n result)⟩
        have hlen : req.responder.requests.length ≤
            (NetworkHandler.taken w.netHandler.batchSize sock).length := by
          refine Outcome.foldlM_invariant (fun taken (g : RequestHandler) =>
            g.responder.requests.length ≤ taken.length) [] ?_ ?_ hfold
          · intro taken d g g' _ hg hcollect
            rw [List.length_append]
            exact Nat.le_trans (collectRequest_pending hcollect) (Nat.succ_le_succ hg)
          · rw [hinv.2 fun _ _ h => nomatch h]
            exact Nat.le_refl 0
        rw [← hsize]
        exact Nat.le_trans hlen (taken_length_le _ sock)
    | generate hgen =>
        obtain ⟨req, hreq, rfl⟩ := Worker.generateResponses_ok_iff.mp hgen
        simp only [RequestHandler.generateResponses, Outcome.bind_ok_iff, Outcome.pure_eq,
          Outcome.ok.injEq, Prod.mk.injEq] at hreq
        obtain ⟨_, -, -, rfl⟩ := hreq
        exact ⟨Nat.zero_le _, fun _ => rfl⟩

/-! ## A release build goes on -/

theorem Launch.start_release (l : Launch) : ∃ s, l.start E false = .ok s := by
  obtain ⟨r, hnew, -⟩ := new_ok (E := E) (H := fun _ => Octets.zero 32) l.config
  have hresponder : ResponseHandler.new E l.args.batchSize l.keySource l.args.protocol l.draw =
      .ok r := hnew
  unfold start
  rw [hresponder]
  exact ⟨_, rfl⟩

theorem Worker.loopTop_release (w : Worker) (r : Readings) :
    ∃ out w', w.loopTop E false r = .ok (out, w') := by
  obtain ⟨snapshot, w₁, hmetrics⟩ : ∃ snapshot w₁,
      w.checkMetrics false r = .ok (snapshot, w₁) := by
    unfold checkMetrics
    split
    · exact ⟨_, _, rfl⟩
    · exact ⟨_, _, rfl⟩
  obtain ⟨key, w', hkey⟩ : ∃ key w', w₁.checkKey E false r = .ok (key, w') := by
    unfold checkKey
    split
    · obtain ⟨key, hmake, -⟩ := w₁.reqHandler.responder.keySource.makeOnlineKey_ok (E := E)
        w₁.reqHandler.responder.protocolVersion r.draw
      have hreplace : w₁.replaceOnlineKey E false r.draw r.jitter = .ok (_, _) :=
        replaceOnlineKey_ok_iff.mpr ⟨_, RequestHandler.replaceOnlineKey_ok_iff.mpr ⟨key, hmake, rfl⟩,
          (fun h => nomatch h), (fun h => nomatch h), rfl, rfl⟩
      rw [hreplace]
      exact ⟨_, _, rfl⟩
    · exact ⟨_, _, rfl⟩
  exact ⟨(snapshot, key), w', loopTop_ok_iff.mpr ⟨w₁, hmetrics, hkey⟩⟩

theorem collectRequest_release (h : RequestHandler) (requestBytes : Bytes)
    (srcAddr : SocketAddr) : ∃ h', h.collectRequest H false requestBytes srcAddr = .ok h' := by
  rcases collectRequest_cases (H := H) false h requestBytes srcAddr with
    ⟨-, m, hok⟩ | ⟨d, m, hsome, -⟩
  · exact ⟨_, hok⟩
  · obtain ⟨m', hok⟩ := collectRequest_ok (H := H) (h := h) hsome
      fun (h : false = true) => nomatch h
    exact ⟨_, hok⟩

theorem Worker.collectRequests_release (w : Worker) (sock : List Recv) :
    ∃ result w', w.collectRequests H false sock = .ok (result, w') := by
  have hfold : ∀ (ds : List (Bytes × SocketAddr)) (g : RequestHandler), ∃ g',
      ds.foldlM (fun req d => req.collectRequest H false
        (d.1.take NetworkHandler.recvBufferSize) d.2) g = .ok g' := by
    intro ds
    induction ds with
    | nil => exact fun g => ⟨g, rfl⟩
    | cons d later ih =>
        intro g
        obtain ⟨g₁, hfirst⟩ := collectRequest_release (H := H) g
          (d.1.take NetworkHandler.recvBufferSize) d.2
        obtain ⟨g', hlater⟩ := ih g₁
        refine ⟨g', ?_⟩
        rw [List.foldlM_cons, hfirst]
        exact hlater
  obtain ⟨req, hreq⟩ := hfold (NetworkHandler.taken w.netHandler.batchSize sock) w.reqHandler
  exact ⟨_, _, collectRequests_ok_iff.mpr ⟨req, hreq, rfl, rfl⟩⟩

theorem Launch.Runs.generate_release {l : Launch} {exchanges : List Exchange} {s : Loop}
    (h : l.Runs E H false exchanges s) (now : UInt64) (sent : Nat → Bool) :
    ∃ outs w', s.worker.generateResponses E H false now sent = .ok (outs, w') := by
  obtain ⟨hh, -⟩ := serve_holding h.refines.2
  have hready : s.worker.reqHandler.responder.Ready false :=
    ⟨Nat.le_trans h.pending.1 l.args.inRange.2, (fun h => nomatch h), (fun h => nomatch h)⟩
  obtain ⟨req, hgen, -⟩ := generateResponses_ok now hh fun _ => hready
  exact ⟨_, _, Worker.generateResponses_ok_iff.mpr ⟨req, hgen, rfl⟩⟩

end Steps

end Roughenough.Server
