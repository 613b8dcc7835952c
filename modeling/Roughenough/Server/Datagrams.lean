/-
# `Roughenough.Server.Datagrams` — how datagrams are counted and which are answered

`collect_request` puts a slice into one of four counters by its length and by
whether it parses.  In a worker the slice is what `recv_from` left in a buffer
of 1024 bytes.  So a longer datagram is taken for its first 1024 bytes: it is
never counted as jumbo, and it is answered when they are a request.

    countOf                   the counter a datagram belongs in
    counted_truncated         the counter it gets: that of its first 1024 bytes
    classified_iff_no_jumbo   a run counts and answers its datagrams as it
                              should, exactly when none is longer than that
-/
import Roughenough.Server.Selection
import Roughenough.Server.Worker

namespace Roughenough.Server

open Roughenough.Base Roughenough.Protocol Roughenough.Merkle NetworkHandler

/-! ## The four counters -/

inductive Count where
  | runt
  | jumbo
  | ok
  | bad
  deriving DecidableEq

/-- The counter a datagram belongs in. -/
def countOf (datagram : Bytes) : Count :=
  if datagram.length < requestSize then .runt
  else if datagram.length > requestSize then .jumbo
  else if (Request.fromFrame datagram).isOk then .ok
  else .bad

def RequestMetrics.bump (m : RequestMetrics) : Count → RequestMetrics
  | .runt => { m with numRuntRequests := m.numRuntRequests + 1 }
  | .jumbo => { m with numJumboRequests := m.numJumboRequests + 1 }
  | .ok => { m with numOkRequests := m.numOkRequests + 1 }
  | .bad => { m with numBadRequests := m.numBadRequests + 1 }

def RequestMetrics.tally (m : RequestMetrics) (counts : List Count) : RequestMetrics :=
  counts.foldl bump m

theorem RequestMetrics.numJumbo_tally (m : RequestMetrics) (counts : List Count) :
    (m.tally counts).numJumboRequests = m.numJumboRequests + counts.count .jumbo := by
  induction counts generalizing m with
  | nil => rfl
  | cons c later ih =>
      show (RequestMetrics.tally (m.bump c) later).numJumboRequests = _
      rw [ih, List.count_cons]
      cases c with
      | runt => rfl
      | jumbo => exact Nat.add_right_comm _ 1 _
      | ok => rfl
      | bad => rfl

theorem countOf_eq_ok_iff {datagram : Bytes} :
    countOf datagram = .ok ↔ ∃ request, Request.fromFrame datagram = .ok request := by
  have hsize : requestSize = 1024 := rfl
  unfold countOf
  constructor
  · intro h
    split at h
    · cases h
    · split at h
      · cases h
      · split at h
        · next hok => exact Outcome.isOk_iff.mp hok
        · cases h
  · rintro ⟨request, hok⟩
    have hlen := Request.fromFrame_length hok
    rw [if_neg (by omega), if_neg (by omega), if_pos (Outcome.isOk_iff.mpr ⟨request, hok⟩)]

/-- The first 1024 bytes of a datagram are never jumbo. -/
theorem countOf_take_ne_jumbo (datagram : Bytes) :
    countOf (datagram.take recvBufferSize) ≠ .jumbo := by
  have hsize : requestSize = 1024 := rfl
  have hbuf : recvBufferSize = 1024 := rfl
  have hlen : (datagram.take recvBufferSize).length ≤ 1024 := by
    rw [List.length_take]
    omega
  unfold countOf
  split
  · exact fun h => nomatch h
  · split
    · omega
    · split <;> exact fun h => nomatch h

theorem countOf_long {datagram : Bytes} (h : 1024 < datagram.length) :
    countOf datagram = .jumbo := by
  have hsize : requestSize = 1024 := rfl
  unfold countOf
  rw [if_neg (by omega), if_pos (by omega)]

theorem take_of_short {datagram : Bytes} (h : datagram.length ≤ 1024) :
    datagram.take recvBufferSize = datagram := List.take_of_length_le h

section Runs

variable {E : Ed25519} {H : Bytes → Hash} {debug : Bool}

/-! ## What a step counts -/

theorem collectRequest_counts {h h' : RequestHandler} {requestBytes : Bytes}
    {srcAddr : SocketAddr} (hrun : h.collectRequest H debug requestBytes srcAddr = .ok h') :
    h'.metrics = h.metrics.bump (countOf requestBytes) := by
  unfold RequestHandler.collectRequest at hrun
  unfold countOf
  split at hrun
  · next hrunt =>
      cases hrun
      rw [if_pos hrunt]
      rfl
  · next hrunt =>
      rw [if_neg hrunt]
      split at hrun
      · next hjumbo =>
          cases hrun
          rw [if_pos hjumbo]
          rfl
      · next hjumbo =>
          rw [if_neg hjumbo]
          split at hrun
          · next request hok =>
              simp only [Outcome.bind_ok_iff, Outcome.pure_eq, Outcome.ok.injEq] at hrun
              obtain ⟨responder, -, rfl⟩ := hrun
              rw [if_pos (Outcome.isOk_iff.mpr ⟨request, hok⟩)]
              rfl
          · next e herr =>
              cases hrun
              rw [herr]
              rfl
          · cases hrun

/-- The counters after a call of the handler. -/
def countEvent (m : RequestMetrics) : Event → RequestMetrics
  | .collect requestBytes _ => m.bump (countOf requestBytes)
  | .generate _ => m
  | .replace _ => m
  | .reset => RequestMetrics.default

theorem step_counts {h h' : RequestHandler} {e : Event} (hrun : step E H debug h e = .ok h') :
    h'.metrics = countEvent h.metrics e := by
  cases e with
  | collect requestBytes srcAddr => exact collectRequest_counts hrun
  | generate now =>
      simp only [step, RequestHandler.generateResponses, Outcome.bind_ok_iff, Outcome.pure_eq,
        Outcome.ok.injEq] at hrun
      obtain ⟨_, ⟨_, -, rfl⟩, rfl⟩ := hrun
      rfl
  | replace draw =>
      simp only [step, RequestHandler.replaceOnlineKey, Outcome.bind_ok_iff, Outcome.pure_eq,
        Outcome.ok.injEq] at hrun
      obtain ⟨_, -, rfl⟩ := hrun
      rfl
  | reset =>
      cases hrun
      rfl

theorem serve_counts {c : Config} {events : List Event} {h : RequestHandler}
    (hrun : serve E H debug c events = .ok h) :
    h.metrics = events.foldl countEvent RequestMetrics.default := by
  simp only [serve, Outcome.bind_ok_iff] at hrun
  obtain ⟨r, -, hrun⟩ := hrun
  refine Outcome.foldlM_invariant (fun done (g : RequestHandler) =>
    g.metrics = done.foldl countEvent RequestMetrics.default) [] ?_ rfl hrun
  intro done e g g' _ hg hstep
  rw [step_counts hstep, hg, List.foldl_append]
  rfl

/-! ## The datagrams of a run -/

/-- The datagrams that a step takes from the socket, as they were sent. -/
def Exchange.received (batchSize : Nat) : Exchange → List (Bytes × SocketAddr)
  | .top _ _ _ => []
  | .poll _ _ => []
  | .collect sock => taken batchSize sock
  | .generate _ _ _ => []

/-- Publishing the metrics starts the counters again. -/
def Exchange.publishes : Exchange → Bool
  | .top _ snapshot _ => snapshot.isSome
  | .poll _ _ => false
  | .collect _ => false
  | .generate _ _ _ => false

def Exchange.answers : Exchange → Bool
  | .top _ _ _ => false
  | .poll _ _ => false
  | .collect _ => false
  | .generate _ _ _ => true

/-- The datagrams of a run behind the last step of a kind. -/
def since (mark : Exchange → Bool) (batchSize : Nat) (exchanges : List Exchange) :
    List (Bytes × SocketAddr) :=
  exchanges.foldl (fun seen a => if mark a then [] else seen ++ a.received batchSize) []

theorem since_concat (mark : Exchange → Bool) (n : Nat) (exchanges : List Exchange)
    (a : Exchange) : since mark n (exchanges ++ [a]) =
      if mark a then [] else since mark n exchanges ++ a.received n := by
  unfold since
  rw [List.foldl_append]
  rfl

/-- The counters go by the first 1024 bytes. -/
theorem foldl_countEvent (n : Nat) (exchanges : List Exchange) :
    (exchanges.flatMap (Exchange.events n)).foldl countEvent RequestMetrics.default =
      RequestMetrics.default.tally ((since Exchange.publishes n exchanges).map fun d =>
        countOf (d.1.take recvBufferSize)) := by
  induction exchanges using List.reverseRecOn with
  | nil => rfl
  | append_singleton exchanges a ih =>
      rw [List.flatMap_append, List.flatMap_singleton, List.foldl_append, ih, since_concat]
      cases a with
      | top r snapshot key =>
          cases snapshot <;> cases key <;>
            simp [Exchange.events, Exchange.publishes, Exchange.received, countEvent,
              RequestMetrics.tally]
      | poll failed readable =>
          simp [Exchange.events, Exchange.publishes, Exchange.received]
      | collect sock =>
          simp [Exchange.events, Exchange.publishes, Exchange.received, countEvent,
            RequestMetrics.tally, List.foldl_map]
      | generate now sent outs =>
          simp [Exchange.events, Exchange.publishes, Exchange.received, countEvent]

/-- Of the slices that are collected, those that count as ok join the batch. -/
theorem foldl_extend_collect (ds : List (Bytes × SocketAddr)) (batch : List Datagram) :
    ((ds.map fun d => Event.collect d.1 d.2).foldl extend batch).map
        (fun d => (d.bytes, d.srcAddr)) =
      batch.map (fun d => (d.bytes, d.srcAddr)) ++ ds.filter fun d => countOf d.1 = .ok := by
  induction ds generalizing batch with
  | nil => exact (List.append_nil _).symm
  | cons d later ih =>
      rw [List.map_cons, List.foldl_cons, ih, extend, List.map_append, List.append_assoc,
        List.filter_cons]
      congr 1
      by_cases hok : ∃ request, Request.fromFrame d.1 = .ok request
      · obtain ⟨request, hparse⟩ := hok
        have hcount : countOf d.1 = .ok := countOf_eq_ok_iff.mpr ⟨request, hparse⟩
        rw [accept_of_ok hparse, if_pos (decide_eq_true hcount)]
        rfl
      · have hcount : countOf d.1 ≠ .ok := fun h => hok (countOf_eq_ok_iff.mp h)
        rw [accept_eq_none fun request hparse => hok ⟨request, hparse⟩,
          if_neg fun h => hcount (of_decide_eq_true h)]
        rfl

/-- The batch that is being collected goes by them too. -/
theorem openBatch_events (n : Nat) (exchanges : List Exchange) :
    (openBatch (exchanges.flatMap (Exchange.events n))).map (fun d => (d.bytes, d.srcAddr)) =
      ((since Exchange.answers n exchanges).map fun d =>
        (d.1.take recvBufferSize, d.2)).filter fun d => countOf d.1 = .ok := by
  induction exchanges using List.reverseRecOn with
  | nil => rfl
  | append_singleton exchanges a ih =>
      rw [List.flatMap_append, List.flatMap_singleton, openBatch, List.foldl_append, since_concat]
      cases a with
      | top r snapshot key =>
          cases snapshot <;> cases key <;>
            simpa [Exchange.events, Exchange.answers, Exchange.received, extend, openBatch] using ih
      | poll failed readable =>
          simpa [Exchange.events, Exchange.answers, Exchange.received, openBatch] using ih
      | collect sock =>
          have hmap : (Exchange.collect sock).events n = ((taken n sock).map fun d =>
              (d.1.take recvBufferSize, d.2)).map fun d => Event.collect d.1 d.2 := by
            rw [List.map_map]
            rfl
          rw [hmap, foldl_extend_collect, show (exchanges.flatMap (Exchange.events n)).foldl extend [] =
            openBatch (exchanges.flatMap (Exchange.events n)) from rfl, ih]
          simp [Exchange.answers, Exchange.received]
      | generate now sent outs =>
          simp [Exchange.events, Exchange.answers, extend]

/-- After any run of a worker, the counters are those of the datagrams since the last snapshot,
each taken for its first 1024 bytes. -/
theorem Launch.Runs.counted_truncated {l : Launch} {exchanges : List Exchange} {s : Loop}
    (h : l.Runs E H debug exchanges s) :
    s.worker.reqHandler.metrics = RequestMetrics.default.tally
      ((since Exchange.publishes l.args.batchSize.toNat exchanges).map fun d =>
        countOf (d.1.take recvBufferSize)) := by
  rw [serve_counts h.refines.2, foldl_countEvent]

/-- The responses are the answers of the key to these requests, one for each and in order. -/
def AnswersTo (E : Ed25519) (key : OnlineKey) (now : UInt64)
    (datagrams : List (Bytes × SocketAddr)) (outs : List (SocketAddr × Bytes)) : Prop :=
  ∃ batch : List Datagram, batch.map (fun d => (d.bytes, d.srcAddr)) = datagrams ∧
    outs.length = batch.length ∧ ∃ root, ∀ (i : Nat) (d : Datagram), batch[i]? = some d →
      ∃ proof, outs[i]? = some (d.srcAddr,
        framed (key.encode E now root proof d.pending (UInt32.ofNat i)))

/-- A step that answers, after any run, answers the datagrams since the last such step whose first
1024 bytes count as ok. -/
theorem Launch.Runs.answered_truncated {l : Launch} {exchanges : List Exchange} {s s' : Loop}
    {now : UInt64} {sent : Nat → Bool} {outs : List (SocketAddr × Bytes)}
    (h : l.Runs E H debug exchanges s) (hstep : Step E H debug s (.generate now sent outs) s') :
    AnswersTo E s.worker.reqHandler.responder.onlineKey now
      (((since Exchange.answers l.args.batchSize.toNat exchanges).map fun d =>
        (d.1.take recvBufferSize, d.2)).filter fun d => countOf d.1 = .ok) outs := by
  cases hstep with
  | generate hgen =>
      obtain ⟨req, hreq, -⟩ := Worker.generateResponses_ok_iff.mp hgen
      obtain ⟨hlen, hsent⟩ := serve_sent h.refines.2 hreq
      exact ⟨_, openBatch_events _ _, hlen, hsent⟩

/-- The run counts and answers its datagrams for what they are: after each of its steps the
counters are those of the datagrams since the last snapshot, each in its one counter, and the
responses go to those that count as ok. -/
structure Classifies (E : Ed25519) (H : Bytes → Hash) (debug : Bool) (l : Launch)
    (exchanges : List Exchange) : Prop where
  counted : ∀ pre s, pre <+: exchanges → l.Runs E H debug pre s →
    s.worker.reqHandler.metrics = RequestMetrics.default.tally
      ((since Exchange.publishes l.args.batchSize.toNat pre).map fun d => countOf d.1)
  answered : ∀ pre s s' now sent outs, pre ++ [.generate now sent outs] <+: exchanges →
    l.Runs E H debug pre s → Step E H debug s (.generate now sent outs) s' →
      AnswersTo E s.worker.reqHandler.responder.onlineKey now
        ((since Exchange.answers l.args.batchSize.toNat pre).filter fun d => countOf d.1 = .ok) outs

theorem mem_since {mark : Exchange → Bool} {n : Nat} {exchanges : List Exchange}
    {d : Bytes × SocketAddr} (hd : d ∈ since mark n exchanges) :
    d ∈ exchanges.flatMap (Exchange.received n) := by
  induction exchanges using List.reverseRecOn with
  | nil => cases hd
  | append_singleton exchanges a ih =>
      rw [since_concat] at hd
      rw [List.flatMap_append, List.flatMap_singleton]
      split at hd
      · cases hd
      · rcases List.mem_append.mp hd with hold | hnew
        · exact List.mem_append_left _ (ih hold)
        · exact List.mem_append_right _ hnew

/-- For every run of a worker on any datagrams: each datagram is counted in exactly one counter,
the one for its length and content, and only those that count as ok are answered, exactly when no
datagram of the run is longer than 1024 bytes. -/
theorem classified_iff_no_jumbo (E : Ed25519) (H : Bytes → Hash) (debug : Bool) (l : Launch)
    (exchanges : List Exchange) (s : Loop) (hrun : l.Runs E H debug exchanges s) :
    Classifies E H debug l exchanges ↔
      ∀ d ∈ exchanges.flatMap (Exchange.received l.args.batchSize.toNat), d.1.length ≤ 1024 := by
  constructor
  · intro hclass d hd
    by_contra hlong
    -- the counters right behind the step that took the datagram
    obtain ⟨a, ha, hda⟩ := List.mem_flatMap.mp hd
    obtain ⟨pre, post, rfl⟩ := List.append_of_mem ha
    rw [List.append_cons] at hrun hclass
    obtain ⟨s₀, hstart, htrace⟩ := hrun
    obtain ⟨s₁, hfirst, -⟩ := Trace.append_iff.mp htrace
    have hrun₁ : l.Runs E H debug (pre ++ [a]) s₁ := ⟨s₀, hstart, hfirst⟩
    have hcounted := hclass.counted (pre ++ [a]) s₁ (List.prefix_append _ _) hrun₁
    rw [hrun₁.counted_truncated] at hcounted
    have hjumbo := congrArg RequestMetrics.numJumboRequests hcounted
    rw [RequestMetrics.numJumbo_tally, RequestMetrics.numJumbo_tally, Nat.add_left_cancel_iff,
      List.count_eq_zero.mpr] at hjumbo
    · refine absurd hjumbo.symm (Nat.ne_of_gt (List.count_pos_iff.mpr ?_))
      refine List.mem_map.mpr ⟨d, ?_, countOf_long (Nat.lt_of_not_le hlong)⟩
      rw [since_concat]
      cases a with
      | top r snapshot key => cases hda
      | poll failed readable => cases hda
      | collect sock => exact List.mem_append_right _ hda
      | generate now sent outs => cases hda
    · intro hmem
      obtain ⟨d', -, hd'⟩ := List.mem_map.mp hmem
      exact countOf_take_ne_jumbo d'.1 hd'
  · intro hshort
    have hpre : ∀ (mark : Exchange → Bool) (pre : List Exchange), pre <+: exchanges →
        ∀ d ∈ since mark l.args.batchSize.toNat pre, d.1.take recvBufferSize = d.1 := by
      rintro mark pre ⟨post, rfl⟩ d hd
      refine take_of_short (hshort d ?_)
      rw [List.flatMap_append]
      exact List.mem_append_left _ (mem_since hd)
    refine ⟨?_, ?_⟩
    · intro pre s hprefix hs
      rw [hs.counted_truncated]
      congr 1
      refine List.map_congr_left ?_
      intro d hd
      rw [hpre _ pre hprefix d hd]
    · intro pre s s' now sent outs hprefix hs hstep
      have hanswers := hs.answered_truncated hstep
      have hmap : ((since Exchange.answers l.args.batchSize.toNat pre).map fun d =>
          (d.1.take recvBufferSize, d.2)) = since Exchange.answers l.args.batchSize.toNat pre := by
        refine (List.map_congr_left ?_).trans (List.map_id _)
        intro d hd
        exact Prod.ext (hpre _ pre ((List.prefix_append _ _).trans hprefix) d hd) rfl
      rwa [hmap] at hanswers

end Runs

/-! ## One byte too many -/

namespace Sample

def args : Args := ⟨1, .rfcDraft14, 1, by decide⟩

def launch : Launch :=
  ⟨0, args, keySource .rfcDraft14, (config .rfcDraft14).draw, 1000, .fromSecs 100000⟩

/-- In a release build, the first turn of a worker, up to the answer to one datagram. -/
theorem first_datagram (bytes : Bytes) :
    ∃ r snapshot key s s' outs,
      launch.Runs ed25519 digest false
        [.top r snapshot key, .poll false 1, .collect [.datagram bytes address]] s ∧
      Step ed25519 digest false s (.generate 1000 (fun _ => true) outs) s' := by
  obtain ⟨s₀, hstart⟩ := launch.start_release (E := ed25519)
  obtain ⟨hphase, -⟩ := Launch.start_ok (H := digest) hstart
  obtain ⟨w₀, phase⟩ := s₀
  cases hphase
  let r : Readings := ⟨1000, 1000, (config .rfcDraft14).draw, 0⟩
  obtain ⟨⟨snapshot, key⟩, w₁, htop⟩ := w₀.loopTop_release (E := ed25519) r
  obtain ⟨result, w₂, hcollect⟩ :=
    (w₁.polled false).collectRequests_release (H := digest) [.datagram bytes address]
  have hrun : launch.Runs ed25519 digest false
      [.top r snapshot key, .poll false 1, .collect [.datagram bytes address]]
      ⟨w₂, .generate 0 result⟩ :=
    (Launch.Runs.step (Launch.Runs.step (Launch.Runs.step ⟨_, hstart, .start⟩ (.top htop))
      (.poll false 1)) (.collect hcollect))
  obtain ⟨outs, w₃, hgen⟩ := hrun.generate_release 1000 fun _ => true
  exact ⟨r, snapshot, key, _, _, outs, hrun, .generate hgen⟩

theorem since_first (bytes : Bytes) (r : Readings) (snapshot : Option WorkerMetrics)
    (key : Option PublicKey) :
    since Exchange.publishes 1
        [.top r snapshot key, .poll false 1, .collect [.datagram bytes address]] =
      [(bytes, address)] ∧
    since Exchange.answers 1
        [.top r snapshot key, .poll false 1, .collect [.datagram bytes address]] =
      [(bytes, address)] := by
  cases snapshot with
  | none => exact ⟨rfl, rfl⟩
  | some m => exact ⟨rfl, rfl⟩

/-- A datagram that starts with a request is counted as ok and answered. -/
theorem first_answered {bytes : Bytes} (hok : countOf (bytes.take recvBufferSize) = .ok) :
    ∃ exchanges s s' outs, launch.Runs ed25519 digest false exchanges s ∧
      exchanges.flatMap (Exchange.received 1) = [(bytes, address)] ∧
      since Exchange.publishes 1 exchanges = [(bytes, address)] ∧
      s.worker.reqHandler.metrics = RequestMetrics.default.bump .ok ∧
      Step ed25519 digest false s (.generate 1000 (fun _ => true) outs) s' ∧ outs.length = 1 := by
  obtain ⟨r, snapshot, key, s, s', outs, hrun, hstep⟩ := first_datagram bytes
  obtain ⟨hpublished, hanswered⟩ := since_first bytes r snapshot key
  have hsize : launch.args.batchSize.toNat = 1 := rfl
  refine ⟨_, s, s', outs, hrun, rfl, hpublished, ?_, hstep, ?_⟩
  · rw [hrun.counted_truncated, hsize, hpublished, List.map_singleton, hok]
    rfl
  · obtain ⟨batch, hbatch, hlen, -⟩ := hrun.answered_truncated hstep
    rw [hsize, hanswered, List.map_singleton, List.filter_singleton, hok] at hbatch
    have hone := congrArg List.length hbatch
    rw [List.length_map] at hone
    exact hlen.trans hone

/-- A request with a byte behind it. -/
def overlong : Bytes := datagram.bytes ++ [0]

theorem overlong_length : overlong.length = 1025 := by
  rw [overlong, List.length_append, Request.fromFrame_length datagram.accepted]
  rfl

theorem overlong_take : overlong.take recvBufferSize = datagram.bytes :=
  List.take_left' (Request.fromFrame_length datagram.accepted)

end Sample

open Sample

/-- A run with a request of 1024 bytes. -/
theorem classified_request :
    ∃ exchanges s, launch.Runs ed25519 digest false exchanges s ∧
      exchanges.flatMap (Exchange.received 1) = [(datagram.bytes, address)] ∧
      Classifies ed25519 digest false launch exchanges := by
  obtain ⟨r, snapshot, key, s, -, -, hrun, -⟩ := first_datagram datagram.bytes
  refine ⟨_, s, hrun, rfl, ?_⟩
  refine (classified_iff_no_jumbo ed25519 digest false launch _ s hrun).mpr ?_
  intro d hd
  cases List.mem_singleton.mp hd
  exact (Request.fromFrame_length datagram.accepted).le

/-- A datagram of 1025 bytes that starts with a request: it is counted as ok and not as jumbo, and
it is answered. -/
theorem overlong_answered :
    overlong.length = 1025 ∧
    ∃ exchanges s s' outs, launch.Runs ed25519 digest false exchanges s ∧
      exchanges.flatMap (Exchange.received 1) = [(overlong, address)] ∧
      s.worker.reqHandler.metrics.numJumboRequests = 0 ∧
      s.worker.reqHandler.metrics.numOkRequests = 1 ∧
      Step ed25519 digest false s (.generate 1000 (fun _ => true) outs) s' ∧ outs.length = 1 ∧
      ¬ Classifies ed25519 digest false launch exchanges := by
  refine ⟨overlong_length, ?_⟩
  have hok : countOf (overlong.take recvBufferSize) = .ok := by
    rw [overlong_take]
    exact countOf_eq_ok_iff.mpr ⟨_, datagram.accepted⟩
  obtain ⟨exchanges, s, s', outs, hrun, hreceived, hpublished, hcounted, hstep, hlen⟩ :=
    first_answered hok
  refine ⟨exchanges, s, s', outs, hrun, hreceived, by rw [hcounted]; rfl, by rw [hcounted]; rfl,
    hstep, hlen, ?_⟩
  intro hclass
  have hjumbo := hclass.counted exchanges s (List.prefix_refl _) hrun
  rw [hcounted, show launch.args.batchSize.toNat = 1 from rfl, hpublished, List.map_singleton,
    countOf_long (by rw [overlong_length]; decide)] at hjumbo
  cases hjumbo

end Roughenough.Server
