/-
# `Roughenough.Server.Counters` — what the counters of a worker count

The `usize` counters of `metrics/types.rs` are kept by three components of a
worker: by the network handler, the request handler and the response handler.
`publish_metrics` reads all three at the top of the loop and resets them.

An `Exchange` says what happened in a step without looking at any counter, so
the number of events of a kind can be read off a run:

    counted                 the events of a step, by counter
    Step.counted            a step adds its events to the counters; publishing
                            starts them again
    snapshots_agree         at the top of the loop the three components agree
-/
import Roughenough.Server.Datagrams

namespace Roughenough.Server

open Roughenough.Base Roughenough.Protocol Roughenough.Merkle NetworkHandler

/-! ## The counters -/

inductive NetworkCount where
  | recvWouldblock
  | successfulSends
  | failedSends
  | failedPolls
  | failedRecvs
  deriving DecidableEq

/-- The `usize` counters of a worker. -/
inductive Counter where
  | network (c : NetworkCount)
  | request (c : Count)
  | responses
  | bytesSent
  deriving DecidableEq

def NetworkMetrics.value (m : NetworkMetrics) : NetworkCount → Nat
  | .recvWouldblock => m.numRecvWouldblock
  | .successfulSends => m.numSuccessfulSends
  | .failedSends => m.numFailedSends
  | .failedPolls => m.numFailedPolls
  | .failedRecvs => m.numFailedRecvs

def RequestMetrics.value (m : RequestMetrics) : Count → Nat
  | .runt => m.numRuntRequests
  | .jumbo => m.numJumboRequests
  | .ok => m.numOkRequests
  | .bad => m.numBadRequests

def WorkerMetrics.value (m : WorkerMetrics) : Counter → Nat
  | .network c => m.network.value c
  | .request c => m.request.value c
  | .responses => m.response.numResponses
  | .bytesSent => m.response.numBytesSent

/-- The counters of a worker that has not counted anything. -/
def WorkerMetrics.empty (workerId : Nat) : WorkerMetrics :=
  ⟨workerId, NetworkMetrics.default, RequestMetrics.default, ResponseMetrics.default⟩

/-- What `publish_metrics` puts together. -/
def Worker.snapshot (w : Worker) : WorkerMetrics :=
  ⟨w.workerId, w.netHandler.metrics, w.reqHandler.metrics, w.reqHandler.responder.responseMetrics⟩

/-- What the calls of `recv_from` find in one call of `collect_requests`. -/
def NetworkHandler.recvs : Nat → List Recv → List Recv
  | 0, _ => []
  | turns + 1, .datagram bytes srcAddr :: later => .datagram bytes srcAddr :: recvs turns later
  | _ + 1, .failed :: _ => [.failed]
  | _ + 1, .wouldBlock :: _ => [.wouldBlock]
  | _ + 1, [] => [.wouldBlock]

/-- The events of a step that a counter is for. -/
def Exchange.counted (batchSize : Nat) : Exchange → Counter → Nat
  | .poll failed _, .network .failedPolls => if failed then 1 else 0
  | .collect sock, .network .recvWouldblock => (recvs batchSize sock).count .wouldBlock
  | .collect sock, .network .failedRecvs => (recvs batchSize sock).count .failed
  | .collect sock, .request c =>
      (taken batchSize sock).countP fun d => countOf (d.1.take recvBufferSize) = c
  | .generate _ sent outs, .network .successfulSends => (List.range outs.length).countP sent
  | .generate _ sent outs, .network .failedSends =>
      (List.range outs.length).countP fun i => !sent i
  | .generate _ _ outs, .responses => outs.length
  | .generate _ _ outs, .bytesSent => (outs.map fun o => o.2.length).sum
  | _, _ => 0

/-! ## What a component counts -/

theorem RequestMetrics.value_tally (m : RequestMetrics) (counts : List Count) (c : Count) :
    (m.tally counts).value c = m.value c + counts.count c := by
  induction counts generalizing m with
  | nil => rfl
  | cons k later ih =>
      have hbump : (m.bump k).value c = m.value c + if k = c then 1 else 0 := by
        cases k <;> cases c <;> rfl
      show (RequestMetrics.tally (m.bump k) later).value c = _
      rw [ih, hbump, List.count_cons, Nat.add_assoc, Nat.add_comm (List.count c later)]
      simp only [beq_iff_eq]

theorem ending_value (turns : Nat) (sock : List Recv) (m : NetworkMetrics) (c : NetworkCount) :
    (ending turns sock m).2.value c =
      m.value c + (Exchange.collect sock).counted turns (.network c) := by
  induction turns, sock using taken.induct with
  | case1 turns bytes srcAddr later ih =>
      rw [ending, ih]
      cases c <;> simp [Exchange.counted, recvs]
  | case2 turns sock hnot =>
      cases turns with
      | zero => cases c <;> rfl
      | succ turns =>
          cases sock with
          | nil => cases c <;> rfl
          | cons r later =>
              cases r with
              | datagram bytes srcAddr => exact absurd rfl (hnot turns bytes srcAddr later rfl)
              | wouldBlock => cases c <;> rfl
              | failed => cases c <;> rfl

theorem NetworkHandler.sendResponse_value (net : NetworkHandler) (sent : Bool)
    (c : NetworkCount) : (net.sendResponse sent).metrics.value c =
      net.metrics.value c + match c with
        | .successfulSends => if sent then 1 else 0
        | .failedSends => if sent then 0 else 1
        | _ => 0 := by
  cases sent <;> cases c <;> rfl

/-- How a call ends does not depend on the counters. -/
theorem ending_result (turns : Nat) (sock : List Recv) (m m' : NetworkMetrics) :
    (ending turns sock m).1 = (ending turns sock m').1 := by
  induction turns, sock using taken.induct with
  | case1 turns bytes srcAddr later ih => exact ih
  | case2 turns sock hnot =>
      cases turns with
      | zero => rfl
      | succ turns =>
          cases sock with
          | nil => rfl
          | cons r later =>
              cases r with
              | datagram bytes srcAddr => exact absurd rfl (hnot turns bytes srcAddr later rfl)
              | wouldBlock => rfl
              | failed => rfl

/-- The sends are counted by how they ended. -/
theorem sendResponses_value (outs : List (SocketAddr × Bytes)) (now : UInt64) (sent : Nat → Bool)
    (net : NetworkHandler) (n : Nat) (c : NetworkCount) :
    (outs.zipIdx.foldl (fun net o => net.sendResponse (sent o.2)) net).metrics.value c =
      net.metrics.value c + (Exchange.generate now sent outs).counted n (.network c) := by
  induction outs using List.reverseRecOn with
  | nil => cases c <;> rfl
  | append_singleton outs o ih =>
      rw [List.zipIdx_append, List.foldl_append, List.zipIdx_singleton, List.foldl_cons,
        List.foldl_nil, Nat.zero_add, sendResponse_value, ih, Nat.add_assoc]
      congr 1
      cases hsent : sent outs.length <;> cases c <;>
        simp [Exchange.counted, List.range_succ, List.countP_append, hsent]

section Runs

variable {E : Ed25519} {H : Bytes → Hash} {debug : Bool}

theorem collectRequests_request {w w' : Worker} {sock : List Recv} {result : CollectResult}
    (h : w.collectRequests H debug sock = .ok (result, w')) (c : Count) :
    w'.reqHandler.metrics.value c = w.reqHandler.metrics.value c +
      (Exchange.collect sock).counted w.netHandler.batchSize (.request c) := by
  obtain ⟨req, hfold, -, rfl⟩ := Worker.collectRequests_ok_iff.mp h
  -- the counters after the datagrams so far are the tally of their classes
  have htally : req.metrics = w.reqHandler.metrics.tally
      ((taken w.netHandler.batchSize sock).map fun d => countOf (d.1.take recvBufferSize)) := by
    refine Outcome.foldlM_invariant (fun done (g : RequestHandler) => g.metrics =
      w.reqHandler.metrics.tally (done.map fun d => countOf (d.1.take recvBufferSize))) [] ?_ rfl
      hfold
    intro done d g g' _ hg hcollect
    rw [collectRequest_counts hcollect, hg, List.map_append, RequestMetrics.tally,
      RequestMetrics.tally, List.foldl_append]
    rfl
  show req.metrics.value c = _
  rw [htally, RequestMetrics.value_tally, List.count, List.countP_map]
  rfl

theorem collectRequests_response {w w' : Worker} {sock : List Recv} {result : CollectResult}
    (h : w.collectRequests H debug sock = .ok (result, w')) :
    w'.reqHandler.responder.responseMetrics = w.reqHandler.responder.responseMetrics := by
  obtain ⟨req, hfold, -, rfl⟩ := Worker.collectRequests_ok_iff.mp h
  refine Outcome.foldlM_invariant (fun _ (g : RequestHandler) => g.responder.responseMetrics =
    w.reqHandler.responder.responseMetrics) [] ?_ rfl hfold
  intro done d g g' _ hg hcollect
  rcases collectRequest_cases (H := H) debug g (d.1.take recvBufferSize) d.2 with
    ⟨-, m, hok⟩ | ⟨d', m, -, hok⟩
  · rw [hok] at hcollect
    cases hcollect
    exact hg
  · rw [hok, Outcome.bind_ok_iff] at hcollect
    obtain ⟨r, hadd, hr⟩ := hcollect
    cases hr
    obtain ⟨-, rfl⟩ := addRequest_ok_iff.mp hadd
    exact hg

/-- A batch of at most 64 requests that was answered: how many frames, and how they are
counted. -/
theorem generateResponses_counts {w w' : Worker} {now : UInt64} {sent : Nat → Bool}
    {outs : List (SocketAddr × Bytes)}
    (h : w.generateResponses E H debug now sent = .ok (outs, w'))
    (hsmall : w.reqHandler.responder.requests.length ≤ 64) :
    outs.length = w.reqHandler.responder.requests.length ∧
      w'.reqHandler.metrics = w.reqHandler.metrics ∧
      w'.reqHandler.responder.responseMetrics.numResponses =
        w.reqHandler.responder.responseMetrics.numResponses + outs.length ∧
      w'.reqHandler.responder.responseMetrics.numBytesSent =
        w.reqHandler.responder.responseMetrics.numBytesSent +
          (outs.map fun o => o.2.length).sum := by
  obtain ⟨req, hreq, rfl⟩ := Worker.generateResponses_ok_iff.mp h
  simp only [RequestHandler.generateResponses, Outcome.bind_ok_iff, Outcome.pure_eq,
    Outcome.ok.injEq, Prod.mk.injEq] at hreq
  obtain ⟨⟨outs, r⟩, hprocess, rfl, rfl⟩ := hreq
  obtain ⟨hlen, hcases⟩ := ResponseHandler.processResponses_metrics hprocess
  refine ⟨hlen, rfl, ?_⟩
  show r.responseMetrics.numResponses = _ ∧ r.responseMetrics.numBytesSent = _
  rcases hcases with ⟨hnil, hm⟩ | ⟨hne, m, hadd, hm⟩
  · have houts : outs = [] := List.eq_nil_of_length_eq_zero (by rw [hlen, hnil]; rfl)
    rw [hm, houts]
    exact ⟨rfl, rfl⟩
  · have hpos := List.length_pos_of_ne_nil hne
    obtain ⟨-, rfl⟩ := (ResponseMetrics.addBatchSize_ok_iff hpos hsmall).mp hadd
    rw [hm, hlen]
    exact ⟨rfl, rfl⟩

/-- A step adds its events to the counters; publishing starts them again. -/
theorem Step.counted {s s' : Loop} {a : Exchange} (h : Step E H debug s a s')
    (hsmall : s.worker.reqHandler.responder.requests.length ≤ 64) (c : Counter) :
    s'.worker.snapshot.value c = (if a.publishes then 0 else s.worker.snapshot.value c) +
      a.counted s.worker.netHandler.batchSize c := by
  cases h with
  | @top w w' r snapshot key htop =>
      obtain ⟨w₁, hmetrics, hkey⟩ := Worker.loopTop_ok_iff.mp htop
      have hkept : w'.snapshot = w₁.snapshot := by
        rcases Worker.checkKey_cases hkey with ⟨-, rfl, -⟩ | ⟨k, -, -, hreplace⟩
        · rfl
        · obtain ⟨req, hreq, -, -, -, rfl⟩ := Worker.replaceOnlineKey_ok_iff.mp hreplace
          obtain ⟨key, -, rfl⟩ := RequestHandler.replaceOnlineKey_ok_iff.mp hreq
          rfl
      rw [hkept]
      rcases Worker.checkMetrics_cases hmetrics with ⟨rfl, rfl⟩ | ⟨m, rfl, hpublish⟩
      · rfl
      · obtain ⟨next, rfl⟩ := Worker.publishMetrics_ok hpublish
        cases c with
        | network c => cases c <;> rfl
        | request c => cases c <;> rfl
        | responses => rfl
        | bytesSent => rfl
  | @poll w failed readable =>
      cases c with
      | network c => cases failed <;> cases c <;> rfl
      | request c => cases failed <;> rfl
      | responses => cases failed <;> rfl
      | bytesSent => cases failed <;> rfl
  | @collect w w' n sock result hcollect =>
      cases c with
      | network c =>
          obtain ⟨req, -, -, rfl⟩ := Worker.collectRequests_ok_iff.mp hcollect
          exact ending_value _ sock w.netHandler.metrics c
      | request c => exact collectRequests_request hcollect c
      | responses => exact congrArg ResponseMetrics.numResponses (collectRequests_response hcollect)
      | bytesSent => exact congrArg ResponseMetrics.numBytesSent (collectRequests_response hcollect)
  | @generate w w' n result now sent outs hgen =>
      obtain ⟨-, hrequest, hresponses, hbytes⟩ := generateResponses_counts hgen hsmall
      cases c with
      | network c =>
          obtain ⟨req, -, rfl⟩ := Worker.generateResponses_ok_iff.mp hgen
          exact sendResponses_value outs now sent w.netHandler _ c
      | request c => exact congrArg (fun m => RequestMetrics.value m c) hrequest
      | responses => exact hresponses
      | bytesSent => exact hbytes

/-! ## The components agree -/

/-- The frames that a step hands to `send_response`. -/
def Exchange.frames : Exchange → List Bytes
  | .top _ _ _ => []
  | .poll _ _ => []
  | .collect _ => []
  | .generate _ _ outs => outs.map Prod.snd

/-- Those of a run behind the last publication. -/
def framesSince (exchanges : List Exchange) : List Bytes :=
  exchanges.foldl (fun seen a => if a.publishes then [] else seen ++ a.frames) []

theorem framesSince_concat (exchanges : List Exchange) (a : Exchange) :
    framesSince (exchanges ++ [a]) =
      if a.publishes then [] else framesSince exchanges ++ a.frames := by
  unfold framesSince
  rw [List.foldl_append]
  rfl

/-- The three components agree, with `pending` requests still to be answered. -/
structure WorkerMetrics.Balanced (m : WorkerMetrics) (frames : List Bytes) (pending : Nat) :
    Prop where
  ok : m.request.numOkRequests = m.response.numResponses + pending
  sends : m.response.numResponses = m.network.numSuccessfulSends + m.network.numFailedSends
  bytes : m.response.numBytesSent = (frames.map List.length).sum

theorem collectRequests_pending {w w' : Worker} {sock : List Recv} {result : CollectResult}
    (h : w.collectRequests H debug sock = .ok (result, w')) :
    w'.reqHandler.responder.requests.length = w.reqHandler.responder.requests.length +
      (Exchange.collect sock).counted w.netHandler.batchSize (.request .ok) := by
  obtain ⟨req, hfold, -, rfl⟩ := Worker.collectRequests_ok_iff.mp h
  refine Outcome.foldlM_invariant (fun done (g : RequestHandler) =>
    g.responder.requests.length = w.reqHandler.responder.requests.length +
      done.countP fun d => countOf (d.1.take recvBufferSize) = .ok) [] ?_ rfl hfold
  intro done d g g' _ hg hcollect
  rw [List.countP_append, ← Nat.add_assoc, ← hg, List.countP_singleton]
  rcases collectRequest_cases (H := H) debug g (d.1.take recvBufferSize) d.2 with
    ⟨hnone, m, hok⟩ | ⟨d', m, hsome, hok⟩
  · rw [hok] at hcollect
    cases hcollect
    have hcount : countOf (d.1.take recvBufferSize) ≠ .ok := by
      intro hcount
      obtain ⟨request, hparse⟩ := countOf_eq_ok_iff.mp hcount
      rw [accept_of_ok hparse] at hnone
      cases hnone
    rw [if_neg (by simpa using hcount)]
    rfl
  · rw [hok, Outcome.bind_ok_iff] at hcollect
    obtain ⟨r, hadd, hr⟩ := hcollect
    cases hr
    obtain ⟨-, rfl⟩ := addRequest_ok_iff.mp hadd
    have hbytes := (mem_accept_iff.mp (Option.mem_toList.mpr hsome)).1
    have hcount := countOf_eq_ok_iff.mpr ⟨_, hbytes ▸ d'.accepted⟩
    rw [if_pos (by simpa using hcount)]
    exact List.length_append

theorem Launch.start_snapshot {l : Launch} {s : Loop} (h : l.start E debug = .ok s) :
    s.worker.snapshot = WorkerMetrics.empty l.workerId := by
  obtain ⟨r, hnew, -, -, hmetrics⟩ := new_ok (E := E) (H := fun _ => Octets.zero 32) l.config
  have hresponder : ResponseHandler.new E l.args.batchSize l.keySource l.args.protocol l.draw =
      .ok r := hnew
  simp only [start, hresponder, Outcome.ok_bind, Worker.new, Outcome.bind_ok_iff, Outcome.pure_eq,
    Outcome.ok.injEq] at h
  obtain ⟨worker, ⟨next, -, rfl⟩, rfl⟩ := h
  rw [WorkerMetrics.empty, ← hmetrics]
  rfl

/-- The balance after `taken` requests came in and `outs` went out, sent or not. -/
theorem WorkerMetrics.Balanced.step {m m' : WorkerMetrics} {frames outs : List Bytes}
    {pending pending' taken successes failures : Nat} (h : m.Balanced frames pending)
    (hok : m'.request.numOkRequests = m.request.numOkRequests + taken)
    (hresponses : m'.response.numResponses = m.response.numResponses + outs.length)
    (hsuccess : m'.network.numSuccessfulSends = m.network.numSuccessfulSends + successes)
    (hfailed : m'.network.numFailedSends = m.network.numFailedSends + failures)
    (hbytes : m'.response.numBytesSent = m.response.numBytesSent + (outs.map List.length).sum)
    (hpending : pending + taken = outs.length + pending')
    (hsent : outs.length = successes + failures) : m'.Balanced (frames ++ outs) pending' := by
  refine ⟨?_, ?_, ?_⟩
  · rw [hok, hresponses, h.ok, Nat.add_assoc, hpending, Nat.add_assoc]
  · rw [hresponses, hsuccess, hfailed, h.sends, hsent, Nat.add_add_add_comm]
  · rw [hbytes, h.bytes, List.map_append, List.sum_append]

/-- Everything that was pending is answered. -/
theorem generateResponses_pending {w w' : Worker} {now : UInt64} {sent : Nat → Bool}
    {outs : List (SocketAddr × Bytes)}
    (h : w.generateResponses E H debug now sent = .ok (outs, w')) :
    w'.reqHandler.responder.requests = [] := by
  obtain ⟨req, hreq, rfl⟩ := Worker.generateResponses_ok_iff.mp h
  simp only [RequestHandler.generateResponses, Outcome.bind_ok_iff, Outcome.pure_eq,
    Outcome.ok.injEq, Prod.mk.injEq] at hreq
  obtain ⟨_, -, -, rfl⟩ := hreq
  rfl

/-- A step keeps the balance: requests are counted as they come in, responses and sends as they
go out, and nothing is pending when the counters start again. -/
theorem Step.balanced {s s' : Loop} {a : Exchange} {frames : List Bytes}
    (h : Step E H debug s a s')
    (hsmall : s.worker.reqHandler.responder.requests.length ≤ 64)
    (hidle : s.phase = .top → s.worker.reqHandler.responder.requests = [])
    (hinv : s.worker.snapshot.Balanced frames s.worker.reqHandler.responder.requests.length) :
    s'.worker.snapshot.Balanced (if a.publishes then [] else frames ++ a.frames)
      s'.worker.reqHandler.responder.requests.length := by
  have hcounted := h.counted hsmall
  have hok := hcounted (.request .ok)
  have hresponses := hcounted .responses
  have hsuccess := hcounted (.network .successfulSends)
  have hfailed := hcounted (.network .failedSends)
  have hbytes := hcounted .bytesSent
  cases h with
  | @top w w' r snapshot key htop =>
      rw [Worker.loopTop_requests htop]
      cases snapshot with
      | none => exact hinv.step hok hresponses hsuccess hfailed hbytes (Nat.zero_add _).symm rfl
      | some m =>
          rw [hidle rfl]
          exact ⟨hok.trans hresponses.symm,
            hresponses.trans (congrArg₂ (· + ·) hsuccess.symm hfailed.symm), hbytes⟩
  | @poll w failed readable =>
      have hkept : (w.polled failed).reqHandler = w.reqHandler := by
        unfold Worker.polled
        split <;> rfl
      rw [hkept]
      exact hinv.step hok hresponses hsuccess hfailed hbytes (Nat.zero_add _).symm rfl
  | @collect w w' n sock result hcollect =>
      have hpending := collectRequests_pending hcollect
      exact hinv.step hok hresponses hsuccess hfailed hbytes
        (hpending.symm.trans (Nat.zero_add _).symm) rfl
  | @generate w w' n result now sent outs hgen =>
      have hlen := (generateResponses_counts hgen hsmall).1
      have hframes : (outs.map Prod.snd).length = outs.length := List.length_map Prod.snd
      have hsum : (outs.map fun o => o.2.length).sum =
          ((outs.map Prod.snd).map List.length).sum := by
        rw [List.map_map]
        rfl
      have hsplit : outs.length = (List.range outs.length).countP sent +
          (List.range outs.length).countP fun i => !sent i := by
        simpa using List.length_eq_countP_add_countP sent (l := List.range outs.length)
      rw [generateResponses_pending hgen]
      exact hinv.step hok (hresponses.trans (congrArg _ hframes.symm)) hsuccess hfailed
        (hbytes.trans (congrArg _ hsum)) (hlen.symm.trans hframes.symm) (hframes.trans hsplit)

/-- Along a run the components agree, up to the requests that are pending. -/
theorem Launch.Runs.balanced {l : Launch} {exchanges : List Exchange} {s : Loop}
    (h : l.Runs E H debug exchanges s) :
    s.worker.snapshot.Balanced (framesSince exchanges)
      s.worker.reqHandler.responder.requests.length := by
  obtain ⟨s₀, hstart, htrace⟩ := h
  refine Trace.invariant (fun done (t : Loop) => t.worker.snapshot.Balanced (framesSince done)
    t.worker.reqHandler.responder.requests.length) ?_ ?_ htrace
  · obtain ⟨-, hidle⟩ := Launch.Runs.pending (H := H) (l := l) ⟨s₀, hstart, .start⟩
    rw [start_snapshot hstart, hidle fun _ _ h => nomatch (start_ok (H := H) hstart).1.symm.trans h]
    exact ⟨rfl, rfl, rfl⟩
  · intro done t a t' hdone hinv hstep
    have hruns : l.Runs E H debug done t := ⟨s₀, hstart, hdone⟩
    obtain ⟨hbatch, hidle⟩ := hruns.pending
    rw [framesSince_concat]
    refine hstep.balanced (Nat.le_trans hbatch l.args.inRange.2) ?_ hinv
    intro htop
    exact hidle fun _ _ h => nomatch htop.symm.trans h

/-- Publishing takes place at the top of the loop, of the counters as they are there. -/
theorem Launch.Runs.published {l : Launch} {done later : List Exchange} {r : Readings}
    {m : WorkerMetrics} {key : Option PublicKey} {s : Loop}
    (h : l.Runs E H debug (done ++ .top r (some m) key :: later) s) :
    ∃ t, l.Runs E H debug done t ∧ t.phase = .top ∧ t.worker.snapshot = m := by
  obtain ⟨s₀, hstart, htrace⟩ := h
  rw [List.append_cons, Trace.append_iff] at htrace
  obtain ⟨t', hfirst, -⟩ := htrace
  obtain ⟨t, hdone, hstep⟩ := Trace.concat_iff.mp hfirst
  refine ⟨t, ⟨s₀, hstart, hdone⟩, ?_⟩
  cases hstep with
  | top htop =>
      obtain ⟨w₁, hmetrics, -⟩ := Worker.loopTop_ok_iff.mp htop
      rcases Worker.checkMetrics_cases hmetrics with ⟨hnone, -⟩ | ⟨m', hsome, hpublish⟩
      · cases hnone
      · cases hsome
        simp only [Worker.publishMetrics, Outcome.bind_ok_iff, Outcome.pure_eq, Outcome.ok.injEq,
          Prod.mk.injEq] at hpublish
        obtain ⟨next, -, rfl, -⟩ := hpublish
        exact ⟨rfl, rfl⟩

end Runs

/-- Whatever the socket, the clock and the polls answered: when a worker stands at the top of its
loop, where `publish_metrics` is called, no request is pending and the three components agree on
the requests, the responses and the sends; and so does every snapshot that was published. -/
theorem snapshots_agree (E : Ed25519) (H : Bytes → Hash) (debug : Bool) (l : Launch)
    (exchanges : List Exchange) (s : Loop) (h : l.Runs E H debug exchanges s) :
    (s.phase = .top → s.worker.reqHandler.responder.requests = [] ∧
      s.worker.snapshot.Balanced (framesSince exchanges) 0) ∧
    ∀ done r m key later, exchanges = done ++ .top r (some m) key :: later →
      m.Balanced (framesSince done) 0 ∧
      ∃ t, l.Runs E H debug done t ∧ t.worker.snapshot = m ∧
        t.worker.reqHandler.responder.requests = [] := by
  have hatTop : ∀ (done : List Exchange) (t : Loop), l.Runs E H debug done t → t.phase = .top →
      t.worker.reqHandler.responder.requests = [] ∧
        t.worker.snapshot.Balanced (framesSince done) 0 := by
    intro done t hruns htop
    have hidle := hruns.pending.2 fun _ _ hphase => nomatch htop.symm.trans hphase
    have hbalanced := hruns.balanced
    rw [hidle] at hbalanced
    exact ⟨hidle, hbalanced⟩
  refine ⟨hatTop exchanges s h, ?_⟩
  rintro done r m key later rfl
  obtain ⟨t, hruns, htop, rfl⟩ := h.published
  obtain ⟨hidle, hbalanced⟩ := hatTop done t hruns htop
  exact ⟨hbalanced, t, hruns, rfl, hidle⟩

namespace Sample

/-- In a release build: a worker that is serving an event takes what the socket has. -/
theorem exchange_round {l : Launch} {exchanges : List Exchange} {s : Loop} {n : Nat}
    (h : l.Runs ed25519 digest false exchanges s) (hphase : s.phase = .collect n)
    (sock : List Recv) (now : UInt64) :
    ∃ outs s', l.Runs ed25519 digest false
        (exchanges ++ [.collect sock] ++ [.generate now (fun _ => true) outs]) s' ∧
      s'.phase = if (ending l.args.batchSize.toNat sock NetworkMetrics.default).1 = .empty
        then Phase.next n else .collect n := by
  obtain ⟨w, phase⟩ := s
  cases hphase
  obtain ⟨result, w₁, hcollect⟩ := w.collectRequests_release (H := digest) sock
  have hrun := h.step (.collect hcollect)
  obtain ⟨outs, w₂, hgen⟩ := hrun.generate_release now fun _ => true
  refine ⟨outs, _, hrun.step (.generate hgen), ?_⟩
  obtain ⟨-, -, hresult, -⟩ := Worker.collectRequests_ok_iff.mp hcollect
  rw [← hresult, ending_result, h.refines.1]

end Sample

open Sample

/-- One request, answered; then the worker is back at the top of its loop. -/
theorem snapshots_agree_first :
    ∃ exchanges s, launch.Runs ed25519 digest false exchanges s ∧ s.phase = .top ∧
      s.worker.snapshot.request.numOkRequests = 1 ∧
      s.worker.snapshot.Balanced (framesSince exchanges) 0 := by
  obtain ⟨s₀, hstart⟩ := launch.start_release (E := ed25519)
  obtain ⟨hphase, -⟩ := Launch.start_ok (H := digest) hstart
  obtain ⟨w₀, phase⟩ := s₀
  cases hphase
  obtain ⟨⟨snapshot, key⟩, w₁, htop⟩ := w₀.loopTop_release (E := ed25519)
    ⟨1000, 1000, (config .rfcDraft14).draw, 0⟩
  have hpolled : launch.Runs ed25519 digest false _ _ :=
    Launch.Runs.step (Launch.Runs.step ⟨_, hstart, .start⟩ (.top htop)) (.poll false 1)
  obtain ⟨outs, s₁, hfirst, hmore⟩ := exchange_round hpolled rfl
    [.datagram datagram.bytes address] 1000
  obtain ⟨outs', s₂, hsecond, hback⟩ := exchange_round hfirst hmore [] 1000
  refine ⟨_, s₂, hsecond, hback, ?_, ?_⟩
  · show s₂.worker.reqHandler.metrics.numOkRequests = 1
    have hcount : countOf (datagram.bytes.take recvBufferSize) = .ok := by
      rw [take_of_short (Request.fromFrame_length datagram.accepted).le]
      exact countOf_eq_ok_iff.mpr ⟨_, datagram.accepted⟩
    have htally : s₂.worker.reqHandler.metrics =
        RequestMetrics.default.tally [countOf (datagram.bytes.take recvBufferSize)] := by
      rw [hsecond.counted_truncated]
      cases snapshot <;> rfl
    rw [htally, hcount]
    rfl
  · exact ((snapshots_agree ed25519 digest false launch _ s₂ hsecond).1 hback).2

end Roughenough.Server
