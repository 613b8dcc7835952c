/-
# `Roughenough.Server.Rotation` — online keys and the time they are good for

A key is good from the moment it is made for one rotation interval.  The worker
plans its replacement a random number of seconds, the jitter, less than an
interval ahead, and looks at the plan at the top of its loop and nowhere else.
What it signs until it is back at the top is signed with the key it has.

    made                                       planned      made + interval
     |-------------------------------------------|----jitter----|
                                               top . . . . . . . . . answer

    signed_within_delegation    a run in which no answer is later than the plan
                                by more than the jitter signs inside the window
                                of its keys
    drained_past_delegation     one that keeps draining the socket does not

The jitter may be zero.
-/
import Mathlib.Data.List.Chain
import Roughenough.Server.Datagrams

namespace Roughenough.Server

open Roughenough.Base Roughenough.Protocol Roughenough.Merkle

/-! ## The window of a key -/

/-- The MIDP of a response is in the window of its certificate. -/
def Windowed (b : Bytes) : ProtocolVersion → Prop
  | .rfcDraft08 => ∃ r, ResponseDraft08.fromFrame b = .ok r ∧
      r.cert.delegation.minTime ≤ r.srep.midpoint ∧ r.srep.midpoint ≤ r.cert.delegation.maxTime
  | .rfcDraft14 => ∃ r, Response.fromFrame b = .ok r ∧
      r.cert.delegation.minTime ≤ r.srep.midpoint ∧ r.srep.midpoint ≤ r.cert.delegation.maxTime

section Keys

variable {E : Ed25519}

/-- Whether an answer is in the window is a matter of the clock and the certificate of the key. -/
theorem OnlineKey.Issued.windowed_iff {key : OnlineKey} {identity : LongTermIdentity}
    {version : ProtocolVersion} (hkey : key.Issued E identity version) (now : UInt64)
    (root : MerkleRoot) (proof : List Hash) (pending : PendingRequest) (index : UInt32) :
    Windowed (framed (key.encode E now root proof pending index)) version ↔
      key.cert.delegation.minTime ≤ now ∧ now ≤ key.cert.delegation.maxTime := by
  cases version with
  | rfcDraft08 =>
      cases key with
      | draft14 key => exact hkey.elim
      | draft08 key =>
          have hissued : key.Issued E identity := hkey
          have hparse := (hissued.answer_built now root proof index).fromFrame
          constructor
          · rintro ⟨r, hr, hwindow⟩
            cases hparse.symm.trans hr
            exact hwindow
          · intro hwindow
            exact ⟨_, hparse, hwindow⟩
  | rfcDraft14 =>
      cases key with
      | draft08 key => exact hkey.elim
      | draft14 key =>
          have hissued : key.Issued E identity := hkey
          have hparse := (hissued.answer_built now root proof pending.request.nonc index).fromFrame
          constructor
          · rintro ⟨r, hr, hwindow⟩
            cases hparse.symm.trans hr
            exact hwindow
          · intro hwindow
            exact ⟨_, hparse, hwindow⟩

/-- A new certificate is good from the clock on, for as long as keys are valid. -/
theorem KeySource.makeOnlineKey_window {source : KeySource} {version : ProtocolVersion}
    {draw : Draw} {key : OnlineKey} (h : source.makeOnlineKey E version draw = .ok key) :
    key.cert.delegation.minTime = draw.now ∧ key.cert.delegation.maxTime.toNat =
      min (draw.now.toNat + source.validityLength.secs.toNat) (2 ^ 64 - 1) := by
  rw [makeOnlineKey_delegation h]
  refine ⟨rfl, UInt64.toNat_ofNat_of_lt' ?_⟩
  exact Nat.lt_of_le_of_lt (Nat.min_le_right _ _) (by decide)

end Keys

/-! ## The clock of a run -/

/-- The readings of the clock in a step, in order.  A pass that has nothing to answer reads none. -/
def Exchange.readings : Exchange → List UInt64
  | .top r snapshot key =>
      r.now :: ((if snapshot.isSome then [r.publishNow] else []) ++
        (if key.isSome then [r.draw.now] else []))
  | .poll _ _ => []
  | .collect _ => []
  | .generate now _ outs => if outs.isEmpty then [] else [now]

/-- An answer is made at a reading. -/
theorem Exchange.mem_readings {now : UInt64} {sent : Nat → Bool} {outs : List (SocketAddr × Bytes)}
    {out : SocketAddr × Bytes} (hout : out ∈ outs) :
    now ∈ (Exchange.generate now sent outs).readings := by
  cases outs with
  | nil => cases hout
  | cons _ _ => exact List.mem_cons_self

/-- The readings of the clock in a run, from the first online key on. -/
def Launch.readings (l : Launch) (exchanges : List Exchange) : List UInt64 :=
  l.draw.now :: l.now :: exchanges.flatMap Exchange.readings

/-- The clock does not go backwards. -/
def Forward (readings : List UInt64) : Prop := readings.Pairwise (· ≤ ·)

/-- And it never moves by more than a second between two readings. -/
def Steady (readings : List UInt64) : Prop :=
  readings.IsChain fun a b => a.toNat ≤ b.toNat ∧ b.toNat ≤ a.toNat + 1

theorem Steady.forward {readings : List UInt64} (h : Steady readings) : Forward readings := by
  refine List.isChain_iff_pairwise.mp (h.imp ?_)
  intro a b hab
  exact UInt64.le_iff_toNat_le.mpr hab.1

/-- Whether a step replaces the key. -/
def Exchange.replaces : Exchange → Bool
  | .top _ _ key => key.isSome
  | .poll _ _ => false
  | .collect _ => false
  | .generate _ _ _ => false

/-- The jitter of the last replacement. -/
def lastJitter (exchanges : List Exchange) : Nat :=
  exchanges.foldl (fun jitter a =>
    match a with
    | .top r _ (some _) => r.jitter.val
    | _ => jitter) 0

theorem lastJitter_kept {a : Exchange} (ha : a.replaces = false) (exchanges : List Exchange) :
    lastJitter (exchanges ++ [a]) = lastJitter exchanges := by
  unfold lastJitter
  rw [List.foldl_append]
  cases a with
  | top r snapshot key =>
      cases key with
      | none => rfl
      | some k => cases ha
  | poll failed readable => rfl
  | collect sock => rfl
  | generate now sent outs => rfl

theorem lastJitter_replaced (exchanges : List Exchange) (r : Readings)
    (snapshot : Option WorkerMetrics) (k : PublicKey) :
    lastJitter (exchanges ++ [.top r snapshot (some k)]) = r.jitter.val := by
  unfold lastJitter
  rw [List.foldl_append]
  rfl

/-- An interval of hours is longer than any jitter, and none of its seconds is lost. -/
theorem Args.rotationInterval_secs (args : Args) :
    args.rotationInterval.secs.toNat = 3600 * args.rotationHours.toNat := by
  have hbound := args.rotationHours.toNat_lt
  show (UInt64.ofNat args.rotationHours.toNat * 60 * 60).toNat = _
  rw [UInt64.toNat_mul, UInt64.toNat_mul,
    UInt64.toNat_ofNat_of_lt' (by rw [UInt64.size]; omega)]
  show args.rotationHours.toNat * 60 % 2 ^ 64 * 60 % 2 ^ 64 = _
  omega

section Runs

variable {E : Ed25519} {H : Bytes → Hash} {debug : Bool}

/-! ## What a step does to the key and the plan -/

/-- The certificate in use, the plan and the interval. -/
def Worker.rotation (w : Worker) : Certificate × UInt64 × Duration :=
  (w.reqHandler.responder.onlineKey.cert, w.nextKeyReplacement, w.keyReplacementInterval)

theorem Worker.checkMetrics_rotation {w w' : Worker} {r : Readings}
    {snapshot : Option WorkerMetrics} (h : w.checkMetrics debug r = .ok (snapshot, w')) :
    w'.rotation = w.rotation ∧
      w'.reqHandler.responder.settings = w.reqHandler.responder.settings := by
  rcases checkMetrics_cases h with ⟨-, rfl⟩ | ⟨m, -, hpublish⟩
  · exact ⟨rfl, rfl⟩
  · obtain ⟨next, rfl⟩ := publishMetrics_ok hpublish
    exact ⟨rfl, rfl⟩

/-- A step that does not replace the key leaves it and the plan alone. -/
theorem Launch.Runs.rotation_kept {l : Launch} {exchanges : List Exchange} {s s' : Loop}
    {a : Exchange} (h : l.Runs E H debug exchanges s) (hstep : Step E H debug s a s')
    (ha : a.replaces = false) : s'.worker.rotation = s.worker.rotation := by
  cases hstep with
  | top htop =>
      obtain ⟨w₁, hmetrics, hkey⟩ := Worker.loopTop_ok_iff.mp htop
      rcases Worker.checkKey_cases hkey with ⟨-, rfl, -⟩ | ⟨k, rfl, -, -⟩
      · exact (Worker.checkMetrics_rotation hmetrics).1
      · cases ha
  | poll failed readable =>
      unfold Worker.polled
      split <;> rfl
  | @collect w w' n sock result hcollect =>
      obtain ⟨req, hfold, -, rfl⟩ := Worker.collectRequests_ok_iff.mp hcollect
      have hkey : req.responder.onlineKey = w.reqHandler.responder.onlineKey := by
        refine Outcome.foldlM_invariant (fun _ (g : RequestHandler) =>
          g.responder.onlineKey = w.reqHandler.responder.onlineKey) [] ?_ rfl hfold
        intro _ d g g' _ hg hcollect
        exact (collectRequest_key hcollect).trans hg
      show (req.responder.onlineKey.cert, _, _) = _
      rw [hkey]
      rfl
  | @generate w w' n result now sent outs hgen =>
      obtain ⟨req, hreq, rfl⟩ := Worker.generateResponses_ok_iff.mp hgen
      have hcert := (serve_holding h.refines.2).1.generate_cert hreq
      show (req.responder.onlineKey.cert, _, _) = _
      rw [hcert]
      rfl

/-- The top of the loop leaves the key alone before the planned time. -/
theorem Step.top_early {s s' : Loop} {r : Readings} {snapshot : Option WorkerMetrics}
    (hstep : Step E H debug s (.top r snapshot none) s') :
    r.now < s.worker.nextKeyReplacement := by
  cases hstep with
  | @top w w' _ _ _ htop =>
      obtain ⟨w₁, hmetrics, hkey⟩ := Worker.loopTop_ok_iff.mp htop
      obtain ⟨hrotation, -⟩ := Worker.checkMetrics_rotation hmetrics
      have hplan : w₁.nextKeyReplacement = w.nextKeyReplacement :=
        congrArg (fun c => c.2.1) hrotation
      rcases Worker.checkKey_cases hkey with ⟨-, -, hearly⟩ | ⟨k, hk, -⟩
      · rwa [hplan] at hearly
      · cases hk

/-- And replaces it then: the new one is good from the reading of the clock on, and the next
replacement is planned from the last plan. -/
theorem Launch.Runs.replaced {l : Launch} {exchanges : List Exchange} {s s' : Loop}
    {r : Readings} {snapshot : Option WorkerMetrics} {k : PublicKey}
    (h : l.Runs E H debug exchanges s)
    (hstep : Step E H debug s (.top r snapshot (some k)) s') :
    s.worker.nextKeyReplacement ≤ r.now ∧
      s'.worker.nextKeyReplacement = s.worker.nextKeyReplacement +
        (s.worker.keyReplacementInterval.secs - UInt64.ofNat r.jitter.val) ∧
      s'.worker.keyReplacementInterval = s.worker.keyReplacementInterval ∧
      s'.worker.reqHandler.responder.onlineKey.cert.delegation.minTime = r.draw.now ∧
      s'.worker.reqHandler.responder.onlineKey.cert.delegation.maxTime.toNat =
        min (r.draw.now.toNat + l.keySource.validityLength.secs.toNat) (2 ^ 64 - 1) := by
  have hsource : s.worker.reqHandler.responder.keySource = l.keySource :=
    congrArg (fun c => c.2.1) (serve_holding h.refines.2).2
  cases hstep with
  | @top w w' _ _ _ htop =>
      obtain ⟨w₁, hmetrics, hkey⟩ := Worker.loopTop_ok_iff.mp htop
      obtain ⟨hrotation, hsettings⟩ := Worker.checkMetrics_rotation hmetrics
      have hplan : w₁.nextKeyReplacement = w.nextKeyReplacement :=
        congrArg (fun c => c.2.1) hrotation
      have hinterval : w₁.keyReplacementInterval = w.keyReplacementInterval :=
        congrArg (fun c => c.2.2) hrotation
      have hsource₁ : w₁.reqHandler.responder.keySource = l.keySource :=
        (congrArg (fun c => c.2.1) hsettings).trans hsource
      rcases Worker.checkKey_cases hkey with ⟨hnone, -⟩ | ⟨_, -, hdue, hreplace⟩
      · cases hnone
      · obtain ⟨req, hreq, -, -, -, rfl⟩ := Worker.replaceOnlineKey_ok_iff.mp hreplace
        obtain ⟨key, hmake, rfl⟩ := RequestHandler.replaceOnlineKey_ok_iff.mp hreq
        have hwindow := KeySource.makeOnlineKey_window hmake
        rw [hsource₁] at hwindow
        rw [hplan] at hdue
        refine ⟨hdue, ?_, hinterval, hwindow⟩
        show w₁.nextKeyReplacement + (w₁.keyReplacementInterval.secs - _) = _
        rw [hplan, hinterval]

/-! ## The plan and the window -/

/-- The key in use was made in the run, and its replacement is planned, jitter included, for the
end of its window at the latest. -/
structure Rotated (l : Launch) (exchanges : List Exchange) (w : Worker) : Prop where
  interval : w.keyReplacementInterval = l.args.rotationInterval
  made : w.reqHandler.responder.onlineKey.cert.delegation.minTime ∈ l.readings exchanges
  window : w.reqHandler.responder.onlineKey.cert.delegation.maxTime.toNat =
    min (w.reqHandler.responder.onlineKey.cert.delegation.minTime.toNat +
      l.args.rotationInterval.secs.toNat) (2 ^ 64 - 1)
  planned : w.nextKeyReplacement.toNat + lastJitter exchanges ≤
    w.reqHandler.responder.onlineKey.cert.delegation.minTime.toNat +
      l.args.rotationInterval.secs.toNat

theorem Launch.readings_append (l : Launch) (exchanges later : List Exchange) :
    l.readings (exchanges ++ later) = l.readings exchanges ++ later.flatMap Exchange.readings := by
  unfold readings
  rw [List.flatMap_append]
  rfl

theorem Launch.readings_concat (l : Launch) (exchanges : List Exchange) (a : Exchange) :
    l.readings (exchanges ++ [a]) = l.readings exchanges ++ a.readings := by
  rw [readings_append, List.flatMap_singleton]

theorem Rotated.kept {l : Launch} {exchanges : List Exchange} {a : Exchange} {w w' : Worker}
    (h : Rotated l exchanges w) (hrotation : w'.rotation = w.rotation)
    (ha : a.replaces = false) : Rotated l (exchanges ++ [a]) w' := by
  have hcert : w'.reqHandler.responder.onlineKey.cert = w.reqHandler.responder.onlineKey.cert :=
    congrArg Prod.fst hrotation
  have hplan : w'.nextKeyReplacement = w.nextKeyReplacement :=
    congrArg (fun c => c.2.1) hrotation
  have hinterval : w'.keyReplacementInterval = w.keyReplacementInterval :=
    congrArg (fun c => c.2.2) hrotation
  refine ⟨hinterval.trans h.interval, ?_, ?_, ?_⟩
  · rw [hcert, l.readings_concat]
    exact List.mem_append_left _ h.made
  · rw [hcert]
    exact h.window
  · rw [hcert, hplan, lastJitter_kept ha]
    exact h.planned

/-- The next plan, jitter included, is at most an interval behind the last one. -/
theorem next_plan_le {args : Args} (hhours : 0 < args.rotationHours.toNat) (next : UInt64)
    (jitter : Fin 255) :
    (next + (args.rotationInterval.secs - UInt64.ofNat jitter.val)).toNat + jitter.val ≤
      next.toNat + args.rotationInterval.secs.toNat := by
  have hsecs := args.rotationInterval_secs
  have hjitter : (UInt64.ofNat jitter.val).toNat = jitter.val :=
    UInt64.toNat_ofNat_of_lt' (by rw [UInt64.size]; omega)
  have hsub : (args.rotationInterval.secs - UInt64.ofNat jitter.val).toNat =
      args.rotationInterval.secs.toNat - jitter.val := by
    rw [UInt64.toNat_sub_of_le _ _ (UInt64.le_iff_toNat_le.mpr (by omega)), hjitter]
  have hmod := Nat.mod_le (next.toNat + (args.rotationInterval.secs.toNat - jitter.val)) (2 ^ 64)
  rw [UInt64.toNat_add, hsub]
  omega

/-- Rotation and validity are the same, and keys are valid for some time. -/
theorem Launch.hours_pos {l : Launch}
    (hvalid : l.keySource.validityLength = l.args.rotationInterval) :
    0 < l.args.rotationHours.toNat := by
  have hnonzero := l.keySource.nonzero
  rw [hvalid] at hnonzero
  by_contra hzero
  have hsecs : l.args.rotationInterval.secs = 0 := by
    apply UInt64.toNat_inj.mp
    rw [l.args.rotationInterval_secs, Nat.eq_zero_of_not_pos hzero]
    rfl
  rw [Duration.isZero, hsecs] at hnonzero
  cases hnonzero

/-- A turn that replaces the key plans in time: the plan it found was due, and the new key is made
after that was read off the clock. -/
theorem Launch.Runs.rotated_replaced {l : Launch}
    (hvalid : l.keySource.validityLength = l.args.rotationInterval) {exchanges : List Exchange}
    {s s' : Loop} {r : Readings} {snapshot : Option WorkerMetrics} {k : PublicKey}
    (h : l.Runs E H debug exchanges s)
    (hinterval : s.worker.keyReplacementInterval = l.args.rotationInterval)
    (hstep : Step E H debug s (.top r snapshot (some k)) s')
    (hclock : Forward (Exchange.top r snapshot (some k)).readings) :
    Rotated l (exchanges ++ [.top r snapshot (some k)]) s'.worker := by
  have hmem : r.draw.now ∈ (if snapshot.isSome then [r.publishNow] else []) ++ [r.draw.now] :=
    List.mem_append_right _ (List.mem_singleton.mpr rfl)
  obtain ⟨hdue, hplan, hkept, hmint, hmaxt⟩ := h.replaced hstep
  rw [hinterval] at hplan hkept
  rw [hvalid] at hmaxt
  refine ⟨hkept, ?_, ?_, ?_⟩
  · rw [hmint, l.readings_concat]
    exact List.mem_append_right _ (List.mem_cons_of_mem _ hmem)
  · rw [hmint]
    exact hmaxt
  · have hnow : r.now ≤ r.draw.now := (List.pairwise_cons.mp hclock).1 _ hmem
    have hnext := next_plan_le (l.hours_pos hvalid) s.worker.nextKeyReplacement r.jitter
    rw [hmint, hplan, lastJitter_replaced]
    rw [UInt64.le_iff_toNat_le] at hdue hnow
    omega

/-- The first turn always replaces the key: the plan is the clock at the start. -/
theorem Launch.Runs.first_replaces {l : Launch} {s s' : Loop} {a : Exchange}
    (hphase : s.phase = .top) (hplan : s.worker.nextKeyReplacement = l.now)
    (hstep : Step E H debug s a s') (hclock : ∀ now ∈ a.readings, l.now ≤ now) :
    a.replaces = true := by
  cases hstep with
  | @top w w' r snapshot key hloop =>
      cases key with
      | some k => rfl
      | none =>
          have hearly := Step.top_early (Step.top (H := H) hloop)
          have hlate := hclock r.now List.mem_cons_self
          rw [hplan] at hearly
          exact absurd hlate (UInt64.not_le.mpr hearly)
  | poll failed readable => cases hphase
  | collect hcollect => cases hphase
  | generate hgen => cases hphase

/-- From the first turn on a key is in use whose replacement is planned in time. -/
theorem Launch.Runs.rotated {l : Launch}
    (hvalid : l.keySource.validityLength = l.args.rotationInterval) {exchanges : List Exchange}
    {s : Loop} (h : l.Runs E H debug exchanges s) (hclock : Forward (l.readings exchanges)) :
    (s.phase = .top ∧ s.worker.nextKeyReplacement = l.now ∧
      s.worker.keyReplacementInterval = l.args.rotationInterval) ∨
    Rotated l exchanges s.worker := by
  obtain ⟨s₀, hstart, htrace⟩ := h
  obtain ⟨hphase, hplan, hinterval, -⟩ := start_ok (H := H) hstart
  refine Trace.invariant (fun done (t : Loop) => Forward (l.readings done) →
    (t.phase = .top ∧ t.worker.nextKeyReplacement = l.now ∧
      t.worker.keyReplacementInterval = l.args.rotationInterval) ∨ Rotated l done t.worker)
    ?_ ?_ htrace hclock
  · exact fun _ => .inl ⟨hphase, hplan, hinterval⟩
  · intro done t a t' hdone hinv hstep hforward
    have hrun : l.Runs E H debug done t := ⟨s₀, hstart, hdone⟩
    rw [l.readings_concat] at hforward
    obtain ⟨hbefore, hduring, hlater⟩ := List.pairwise_append.mp hforward
    have hinv := hinv hbefore
    right
    cases hreplaces : a.replaces with
    | false =>
        rcases hinv with ⟨htop, hplan, -⟩ | hrotated
        · have hfirst := first_replaces htop hplan hstep
            fun now hnow => hlater l.now (List.mem_cons_of_mem _ List.mem_cons_self) now hnow
          rw [hreplaces] at hfirst
          cases hfirst
        · exact hrotated.kept (hrun.rotation_kept hstep hreplaces) hreplaces
    | true =>
        have hinterval : t.worker.keyReplacementInterval = l.args.rotationInterval := by
          rcases hinv with ⟨-, -, hinterval⟩ | hrotated
          · exact hinterval
          · exact hrotated.interval
        cases a with
        | poll failed readable => cases hreplaces
        | collect sock => cases hreplaces
        | generate now sent outs => cases hreplaces
        | top r snapshot key =>
            cases key with
            | none => cases hreplaces
            | some k => exact hrun.rotated_replaced hvalid hinterval hstep hduring

/-- No answer is signed later than the planned replacement of the key by more than the jitter that
was taken off when it was planned. -/
def Prompt (E : Ed25519) (H : Bytes → Hash) (debug : Bool) (l : Launch)
    (exchanges : List Exchange) : Prop :=
  ∀ pre s now sent outs, outs ≠ [] → pre ++ [.generate now sent outs] <+: exchanges →
    l.Runs E H debug pre s →
      now.toNat ≤ s.worker.nextKeyReplacement.toNat + lastJitter pre

/-- One answer: it is in the window of the key, exactly when the clock is. -/
theorem Launch.Runs.answer_windowed_iff {l : Launch} {exchanges : List Exchange} {s s' : Loop}
    {now : UInt64} {sent : Nat → Bool} {outs : List (SocketAddr × Bytes)}
    {out : SocketAddr × Bytes} (h : l.Runs E H debug exchanges s)
    (hstep : Step E H debug s (.generate now sent outs) s') (hout : out ∈ outs) :
    Windowed out.2 l.args.protocol ↔
      s.worker.reqHandler.responder.onlineKey.cert.delegation.minTime ≤ now ∧
        now ≤ s.worker.reqHandler.responder.onlineKey.cert.delegation.maxTime := by
  obtain ⟨batch, -, hlen, root, hsent⟩ := h.answered_truncated hstep
  have hkey : s.worker.reqHandler.responder.onlineKey.Issued E l.keySource.identity
      l.args.protocol := serve_issued h.refines.2
  obtain ⟨i, hi⟩ := List.getElem?_of_mem hout
  have hbound : i < batch.length := hlen ▸ (List.getElem?_eq_some_iff.mp hi).1
  obtain ⟨proof, hframe⟩ := hsent i _ (List.getElem?_eq_getElem hbound)
  cases hi.symm.trans hframe
  exact hkey.windowed_iff now root proof _ _

/-- In every run of a worker whose rotation interval is the validity of its keys, with a clock that
does not go backwards and no answer later than planned by more than the jitter: every response
has its MIDP between the MINT and the MAXT of its certificate. -/
theorem signed_within_delegation (E : Ed25519) (H : Bytes → Hash) (debug : Bool) (l : Launch)
    (hvalid : l.keySource.validityLength = l.args.rotationInterval)
    (exchanges : List Exchange) (s : Loop) (hrun : l.Runs E H debug exchanges s)
    (hclock : Forward (l.readings exchanges)) (hprompt : Prompt E H debug l exchanges)
    (now : UInt64) (sent : Nat → Bool) (outs : List (SocketAddr × Bytes))
    (hmem : .generate now sent outs ∈ exchanges) (out : SocketAddr × Bytes) (hout : out ∈ outs) :
    Windowed out.2 l.args.protocol := by
  obtain ⟨pre, post, rfl⟩ := List.append_of_mem hmem
  rw [List.append_cons] at hrun hclock hprompt
  obtain ⟨s₀, hstart, htrace⟩ := hrun
  obtain ⟨s₂, hfirst, -⟩ := Trace.append_iff.mp htrace
  obtain ⟨s₁, hpre, hstep⟩ := Trace.concat_iff.mp hfirst
  have hrun₁ : l.Runs E H debug pre s₁ := ⟨s₀, hstart, hpre⟩
  rw [l.readings_append, l.readings_concat] at hclock
  obtain ⟨hbefore, -, hlater⟩ := List.pairwise_append.mp (List.pairwise_append.mp hclock).1
  refine (hrun₁.answer_windowed_iff hstep hout).mpr ?_
  rcases hrun₁.rotated hvalid hbefore with ⟨htop, -⟩ | hrotated
  · -- nothing is answered at the top
    cases hstep
    cases htop
  · have hsoon := hprompt pre s₁ now sent outs (List.ne_nil_of_mem hout)
      (List.prefix_append _ _) hrun₁
    have hplanned := hrotated.planned
    have hbound := now.toNat_lt
    refine ⟨hlater _ hrotated.made now (Exchange.mem_readings hout), ?_⟩
    rw [UInt64.le_iff_toNat_le, hrotated.window]
    omega

end Runs

/-! ## A worker that is kept busy -/

theorem Worker.loopTop_early {E : Ed25519} {debug : Bool} {w : Worker} {r : Readings}
    (hmetrics : r.now < w.nextMetricsPublication) (hkey : r.now < w.nextKeyReplacement) :
    w.loopTop E debug r = .ok ((none, none), w) := by
  refine loopTop_ok_iff.mpr ⟨w, ?_, ?_⟩
  · exact if_neg (UInt64.not_le.mpr hmetrics)
  · exact if_neg (UInt64.not_le.mpr hkey)

namespace Sample

/-- The top of a turn: every reading of the clock is the same, and the jitter is zero. -/
def turn (now : UInt64) : Readings := ⟨now, now, ⟨now, Octets.fill 32 0x22, 0⟩, 0⟩

/-- The clock of a run is steady, and stands at `t`. -/
def ClockAt (exchanges : List Exchange) (t : Nat) : Prop :=
  Steady (launch.readings exchanges) ∧
    (launch.readings exchanges).getLast? = some (UInt64.ofNat t)

theorem ClockAt.tick {exchanges : List Exchange} {t : Nat} (h : ClockAt exchanges t)
    (a : Exchange) (u : Nat) (ha : a.readings = [UInt64.ofNat u])
    (hu : t ≤ u ∧ u ≤ t + 1 ∧ u < 2 ^ 64) : ClockAt (exchanges ++ [a]) u := by
  unfold ClockAt
  rw [launch.readings_concat, ha]
  refine ⟨List.isChain_append.mpr ⟨h.1, List.isChain_singleton _, ?_⟩, List.getLast?_concat⟩
  intro x hx y hy
  rw [h.2] at hx
  cases hx
  cases hy
  have hword : ∀ n, n < 2 ^ 64 → (UInt64.ofNat n).toNat = n := fun n hn =>
    UInt64.toNat_ofNat_of_lt' hn
  rw [hword t (by omega), hword u hu.2.2]
  exact ⟨hu.1, hu.2.1⟩

theorem ClockAt.still {exchanges : List Exchange} {t : Nat} (h : ClockAt exchanges t)
    (a : Exchange) (ha : a.readings = []) : ClockAt (exchanges ++ [a]) t := by
  unfold ClockAt
  rw [launch.readings_concat, ha, List.append_nil]
  exact h

/-- The first turn makes a key for the time from 1000 to 4600. -/
theorem first_turn :
    ∃ k w, launch.Runs ed25519 digest false
        [.top (turn 1000) none (some k), .poll false 0] ⟨w, .top⟩ ∧
      ClockAt [.top (turn 1000) none (some k), .poll false 0] 1000 ∧
      w.nextKeyReplacement = 4600 ∧ w.nextMetricsPublication = 101000 ∧
      w.reqHandler.responder.onlineKey.cert.delegation.maxTime.toNat = 4600 := by
  obtain ⟨s₀, hstart⟩ := launch.start_release (E := ed25519)
  obtain ⟨hphase, hplan, hinterval, hpublish, -⟩ := Launch.start_ok (H := digest) hstart
  obtain ⟨w₀, phase⟩ := s₀
  cases hphase
  have hidle : w₀.checkMetrics false (turn 1000) = .ok (none, w₀) := by
    refine if_neg ?_
    rw [show w₀.nextMetricsPublication = _ from hpublish]
    decide
  obtain ⟨⟨snapshot, key⟩, w₁, htop⟩ := w₀.loopTop_release (E := ed25519) (turn 1000)
  obtain ⟨w₂, hmetrics, hkey⟩ := Worker.loopTop_ok_iff.mp htop
  rw [hidle] at hmetrics
  cases hmetrics
  rcases Worker.checkKey_cases hkey with ⟨-, -, hearly⟩ | ⟨k, rfl, -, hreplace⟩
  · rw [show w₀.nextKeyReplacement = _ from hplan] at hearly
    exact absurd hearly (by decide)
  · have hrun : launch.Runs ed25519 digest false [] ⟨w₀, .top⟩ := ⟨_, hstart, .start⟩
    obtain ⟨-, hnext, -, -, hmaxt⟩ := hrun.replaced (.top htop)
    have hmetrics : w₁.nextMetricsPublication = w₀.nextMetricsPublication := by
      obtain ⟨req, -, -, -, -, rfl⟩ := Worker.replaceOnlineKey_ok_iff.mp hreplace
      rfl
    refine ⟨k, w₁, (hrun.step (.top htop)).step (.poll false 0), ?_, ?_, ?_, hmaxt.trans rfl⟩
    · have hat : ClockAt [.top (turn 1000) none (some k)] 1000 := by
        refine ⟨?_, rfl⟩
        show Steady [1000, 1000, 1000, 1000]
        unfold Steady
        decide
      exact hat.still (.poll false 0) rfl
    · rw [show w₁.nextKeyReplacement = _ from hnext, show w₀.nextKeyReplacement = _ from hplan,
        show w₀.keyReplacementInterval = _ from hinterval]
      rfl
    · rw [hmetrics, show w₀.nextMetricsPublication = _ from hpublish]
      rfl

/-- Turns without an event, a second apart. -/
theorem idle_turns (k : Nat) {exchanges : List Exchange} {w : Worker} {t : Nat}
    (hrun : launch.Runs ed25519 digest false exchanges ⟨w, .top⟩) (hclock : ClockAt exchanges t)
    (hkey : t + k < w.nextKeyReplacement.toNat)
    (hmetrics : t + k < w.nextMetricsPublication.toNat) :
    ∃ later, launch.Runs ed25519 digest false later ⟨w, .top⟩ ∧ ClockAt later (t + k) := by
  induction k with
  | zero => exact ⟨exchanges, hrun, hclock⟩
  | succ k ih =>
      obtain ⟨later, hlater, hat⟩ := ih (by omega) (by omega)
      have hbound := w.nextKeyReplacement.toNat_lt
      have hnow : (UInt64.ofNat (t + (k + 1))).toNat = t + (k + 1) :=
        UInt64.toNat_ofNat_of_lt' (by rw [UInt64.size]; omega)
      have htop : w.loopTop ed25519 false (turn (UInt64.ofNat (t + (k + 1)))) =
          .ok ((none, none), w) := by
        refine Worker.loopTop_early ?_ ?_
        · rw [UInt64.lt_iff_toNat_lt]
          show (UInt64.ofNat (t + (k + 1))).toNat < _
          rwa [hnow]
        · rw [UInt64.lt_iff_toNat_lt]
          show (UInt64.ofNat (t + (k + 1))).toNat < _
          rwa [hnow]
      refine ⟨_, (hlater.step (.top htop)).step (.poll false 0), ?_⟩
      exact (hat.tick _ _ rfl (by omega)).still _ rfl

/-- An iteration of the inner loop that takes one datagram and answers it; a full batch, so there
may be more. -/
theorem drain_once {exchanges : List Exchange} {w : Worker} (now : UInt64)
    (hrun : launch.Runs ed25519 digest false exchanges ⟨w, .collect 0⟩) :
    ∃ s w' out, launch.Runs ed25519 digest false
        (exchanges ++ [.collect [.datagram datagram.bytes address]]) s ∧
      Step ed25519 digest false s (.generate now (fun _ => true) [out]) ⟨w', .collect 0⟩ ∧
      s.worker.rotation = w.rotation ∧ w'.rotation = w.rotation := by
  have hsize : w.netHandler.batchSize = 1 := hrun.refines.1
  have hnone : w.reqHandler.responder.requests = [] := hrun.pending.2 fun _ _ h => nomatch h
  obtain ⟨m, hcollect⟩ := collectRequest_ok (h := w.reqHandler) (H := digest)
    (accept_datagram datagram) fun (h : false = true) => nomatch h
  have hshort : datagram.bytes.take NetworkHandler.recvBufferSize = datagram.bytes :=
    take_of_short (Request.fromFrame_length datagram.accepted).le
  obtain ⟨w₁, hstep, hone⟩ : ∃ w₁,
      w.collectRequests digest false [.datagram datagram.bytes address] = .ok (.moreData, w₁) ∧
        w₁.reqHandler.responder.requests = [datagram.pending] := by
    refine ⟨_, Worker.collectRequests_ok_iff.mpr
      ⟨⟨w.reqHandler.responder.push digest datagram, m⟩, ?_, ?_, rfl⟩, ?_⟩
    · rw [hsize]
      show (w.reqHandler.collectRequest digest false
        (datagram.bytes.take NetworkHandler.recvBufferSize) address >>= pure) = _
      rw [hshort]
      exact (congrArg (· >>= pure) hcollect).trans rfl
    · rw [hsize]
      rfl
    · show w.reqHandler.responder.requests ++ [datagram.pending] = _
      rw [hnone]
      rfl
  have hrun₁ := hrun.step (.collect (n := 0) hstep)
  obtain ⟨outs, w', hgen⟩ := hrun₁.generate_release now fun _ => true
  have hstep₁ : Step ed25519 digest false ⟨w₁, .generate 0 .moreData⟩
      (.generate now (fun _ => true) outs) ⟨w', .collect 0⟩ := .generate hgen
  have hkept := hrun.rotation_kept (.collect (n := 0) hstep) rfl
  obtain ⟨out, rfl⟩ : ∃ out, outs = [out] := by
    obtain ⟨req, hreq, -⟩ := Worker.generateResponses_ok_iff.mp hgen
    obtain ⟨hlen, -⟩ := serve_sent hrun₁.refines.2 hreq
    refine List.length_eq_one_iff.mp ?_
    rw [hlen, ← (serve_holding hrun₁.refines.2).1.length_eq]
    exact congrArg List.length hone
  exact ⟨_, w', out, hrun₁, hstep₁, hkept, (hrun₁.rotation_kept hstep₁ rfl).trans hkept⟩

end Sample

open Sample

/-- The first answer of a worker: in the second in which the key was made. -/
theorem signed_within_delegation_first :
    ∃ exchanges s now sent outs out, launch.Runs ed25519 digest false exchanges s ∧
      .generate now sent outs ∈ exchanges ∧ out ∈ outs ∧
      Windowed out.2 launch.args.protocol := by
  obtain ⟨k, w, hfirst, hat, hplan, hmetrics, -⟩ := first_turn
  have htop : w.loopTop ed25519 false (turn 1000) = .ok ((none, none), w) :=
    Worker.loopTop_early (by rw [hmetrics]; decide) (by rw [hplan]; decide)
  have hrun := (hfirst.step (.top htop)).step (.poll false 1)
  obtain ⟨s, w', out, hrun₁, hstep, hkept, -⟩ := drain_once 1000 hrun
  have hat := (hat.tick (.top (turn 1000) none none) 1000 rfl (by decide)).still (.poll false 1) rfl
  have hat₁ := (hat.still (.collect [.datagram datagram.bytes address]) rfl).tick
    (.generate 1000 (fun _ => true) [out]) 1000 rfl (by decide)
  have hmem : ∀ pre : List Exchange, Exchange.generate 1000 (fun _ => true) [out] ∈
      pre ++ [Exchange.generate 1000 (fun _ => true) [out]] := fun pre =>
    List.mem_append_right pre (List.mem_singleton.mpr rfl)
  have hout : out ∈ [out] := List.mem_singleton.mpr rfl
  refine ⟨_, _, 1000, _, [out], out, hrun₁.step hstep, hmem _, hout, ?_⟩
  refine signed_within_delegation ed25519 digest false launch rfl _ _ (hrun₁.step hstep)
    hat₁.1.forward ?_ 1000 _ [out] (hmem _) out hout
  intro pre t now sent outs' _ hprefix ht
  rcases List.prefix_concat_iff.mp hprefix with heq | hearlier
  · obtain ⟨rfl, hlast⟩ := List.append_inj' heq rfl
    cases List.singleton_inj.mp hlast
    have hnext : t.worker.nextKeyReplacement = 4600 := by
      rw [ht.functional hrun₁, ← hplan]
      exact congrArg (fun c => c.2.1) hkept
    rw [hnext]
    exact Nat.le_trans (by decide) (Nat.le_add_right _ _)
  · -- there is no other answer in the run
    have hin := hearlier.subset (List.mem_append_right pre (List.mem_singleton.mpr rfl))
    simp at hin

/-- The rotation interval is the validity of the keys, the clock never moves by more than a second,
and a worker that is at the top of its loop a second before the planned replacement then answers
two datagrams: the second answer is signed after the end of the window. -/
theorem drained_past_delegation :
    launch.keySource.validityLength = launch.args.rotationInterval ∧
    ∃ exchanges s now sent outs out, launch.Runs ed25519 digest false exchanges s ∧
      Steady (launch.readings exchanges) ∧ .generate now sent outs ∈ exchanges ∧ out ∈ outs ∧
      ¬ Windowed out.2 launch.args.protocol := by
  refine ⟨rfl, ?_⟩
  obtain ⟨k, w, hfirst, hat, hplan, hmetrics, hmaxt⟩ := first_turn
  obtain ⟨idle, hidle, hat⟩ := idle_turns 3599 hfirst hat (by rw [hplan]; decide)
    (by rw [hmetrics]; decide)
  have htop : w.loopTop ed25519 false (turn 4599) = .ok ((none, none), w) :=
    Worker.loopTop_early (by rw [hmetrics]; decide) (by rw [hplan]; decide)
  have hrun := (hidle.step (.top htop)).step (.poll false 1)
  have hat := (hat.tick (.top (turn 4599) none none) 4599 rfl (by decide)).still (.poll false 1) rfl
  obtain ⟨s₁, w₁, out₁, hrun₁, hstep₁, -, hkept₁⟩ := drain_once 4600 hrun
  have hat₁ := (hat.still (.collect [.datagram datagram.bytes address]) rfl).tick
    (.generate 4600 (fun _ => true) [out₁]) 4600 rfl (by decide)
  obtain ⟨s₂, w₂, out, hrun₂, hstep₂, hkept₂, -⟩ := drain_once 4601 (hrun₁.step hstep₁)
  have hat₂ := (hat₁.still (.collect [.datagram datagram.bytes address]) rfl).tick
    (.generate 4601 (fun _ => true) [out]) 4601 rfl (by decide)
  have hout : out ∈ [out] := List.mem_singleton.mpr rfl
  refine ⟨_, _, 4601, _, [out], out, hrun₂.step hstep₂, hat₂.1,
    List.mem_append_right _ (List.mem_singleton.mpr rfl), hout, ?_⟩
  intro hwindowed
  have hlate := ((hrun₂.answer_windowed_iff hstep₂ hout).mp hwindowed).2
  have hcert : s₂.worker.reqHandler.responder.onlineKey.cert =
      w.reqHandler.responder.onlineKey.cert := congrArg Prod.fst (hkept₂.trans hkept₁)
  rw [hcert, UInt64.le_iff_toNat_le, hmaxt] at hlate
  exact absurd hlate (by decide)

end Roughenough.Server
