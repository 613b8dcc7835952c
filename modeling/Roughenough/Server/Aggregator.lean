/-
# `Roughenough.Server.Aggregator` — from the workers to the totals

`metrics/aggregator.rs`, with the addition of `metrics/types.rs` and the totals
of `metrics/snapshot.rs`, and the threads of `main.rs` around them: `n` workers
and one aggregator, with a channel of room for `2 * n` snapshots in between.

    worker i    a step of a worker; what it publishes goes into the channel,
                and is lost when the channel is full
    receive     the aggregator takes a snapshot and adds it up
    report      the channel is empty: the aggregator looks at the clock

The threads take their steps in any order.  What a worker has counted is then
in one of four places: in its accumulator, in the channel, in its own counters
or in snapshots that the channel had no room for.
-/
import Roughenough.Base.Channel
import Roughenough.Server.Counters
import Roughenough.Server.Histogram

namespace Roughenough.Server

open Roughenough.Base Roughenough.Protocol Roughenough.Merkle

/-! ## Adding up -/

def NetworkMetrics.addAssign (m rhs : NetworkMetrics) : NetworkMetrics :=
  { numRecvWouldblock := m.numRecvWouldblock + rhs.numRecvWouldblock
    numSuccessfulSends := m.numSuccessfulSends + rhs.numSuccessfulSends
    numFailedSends := m.numFailedSends + rhs.numFailedSends
    numFailedPolls := m.numFailedPolls + rhs.numFailedPolls
    numFailedRecvs := m.numFailedRecvs + rhs.numFailedRecvs }

def RequestMetrics.addAssign (m rhs : RequestMetrics) : RequestMetrics :=
  { numOkRequests := m.numOkRequests + rhs.numOkRequests
    numBadRequests := m.numBadRequests + rhs.numBadRequests
    numRuntRequests := m.numRuntRequests + rhs.numRuntRequests
    numJumboRequests := m.numJumboRequests + rhs.numJumboRequests }

/-- The three additions of a snapshot to an accumulator, which keeps its id. -/
def WorkerMetrics.addAssign (debug : Bool) (m rhs : WorkerMetrics) : Call WorkerMetrics := do
  let response ← m.response.addAssign debug rhs.response
  pure
    { m with
      network := m.network.addAssign rhs.network
      request := m.request.addAssign rhs.request
      response := response }

/-- The totals of a report, without its rates. -/
structure AggregatedMetrics where
  network : NetworkMetrics
  requests : RequestMetrics
  responses : ResponseMetrics
  totalRequests : Nat

def calcAggregatedMetrics (debug : Bool) (workers : List WorkerMetrics) :
    Call AggregatedMetrics := do
  let network := (workers.map WorkerMetrics.network).foldl .addAssign NetworkMetrics.default
  let requests := (workers.map WorkerMetrics.request).foldl .addAssign RequestMetrics.default
  let responses ← ResponseMetrics.total debug (workers.map WorkerMetrics.response)
  pure
    { network := network
      requests := requests
      responses := responses
      totalRequests := requests.numOkRequests + requests.numBadRequests +
        requests.numRuntRequests + requests.numJumboRequests }

/-! ## The aggregator -/

structure MetricsAggregator where
  aggregatedMetrics : List WorkerMetrics
  reportingInterval : Duration
  nextReport : UInt64
  lastReportTime : UInt64

namespace MetricsAggregator

/-- `new`, and `run` up to its loop; the clock is read twice. -/
def start (debug : Bool) (numWorkers : Nat) (reportingInterval : Duration) (now now' : UInt64) :
    Call MetricsAggregator := do
  let nextReport ← addU64 debug now reportingInterval.secs
  pure
    { aggregatedMetrics := (List.range numWorkers).map WorkerMetrics.empty
      reportingInterval := reportingInterval
      nextReport := nextReport
      lastReportTime := now' }

/-- What the inner loop does with a snapshot. -/
def accumulate (debug : Bool) (agg : MetricsAggregator) (metrics : WorkerMetrics) :
    Call MetricsAggregator :=
  match agg.aggregatedMetrics[metrics.workerId]? with
  | none => .panic
  | some acc => do
      let acc ← acc.addAssign debug metrics
      pure { agg with aggregatedMetrics := agg.aggregatedMetrics.set metrics.workerId acc }

/-- The rest of the outer loop, with the totals that are reported. -/
def checkReport (debug : Bool) (agg : MetricsAggregator) (now : UInt64) :
    Call (Option AggregatedMetrics × MetricsAggregator) :=
  if now ≥ agg.nextReport then do
    let _ ← subU64 debug now agg.lastReportTime
    let aggregated ← calcAggregatedMetrics debug agg.aggregatedMetrics
    let nextReport ← addU64 debug now agg.reportingInterval.secs
    pure (some aggregated, { agg with lastReportTime := now, nextReport := nextReport })
  else pure (none, agg)

end MetricsAggregator

/-! ## The threads -/

/-- What the threads are started with: the arguments, shared, and what each of them reads. -/
structure Boot (n : Nat) where
  args : Args
  keySource : KeySource
  metricsInterval : Duration
  draws : Fin n → Draw
  nows : Fin n → UInt64
  reportNow : UInt64
  reportNow' : UInt64

def Boot.launch {n : Nat} (b : Boot n) (i : Fin n) : Launch :=
  ⟨i.val, b.args, b.keySource, b.draws i, b.nows i, b.metricsInterval⟩

structure Threads (n : Nat) where
  workers : Fin n → Loop
  channel : Channel WorkerMetrics (2 * n)
  aggregator : MetricsAggregator

/-- A step of a worker, with the snapshot that the channel had no room for; or one of the
aggregator. -/
inductive Action (n : Nat) where
  | worker (i : Fin n) (a : Exchange) (lost : Option WorkerMetrics)
  | receive (metrics : WorkerMetrics)
  | report (now : UInt64) (aggregated : Option AggregatedMetrics)

/-- The snapshot that a step hands to `try_send`. -/
def Exchange.snapshot : Exchange → Option WorkerMetrics
  | .top _ snapshot _ => snapshot
  | .poll _ _ => none
  | .collect _ => none
  | .generate _ _ _ => none

theorem Exchange.publishes_eq (a : Exchange) : a.publishes = a.snapshot.isSome := by
  cases a <;> rfl

inductive ThreadStep (E : Ed25519) (H : Bytes → Hash) (debug : Bool) {n : Nat} :
    Threads n → Action n → Threads n → Prop
  | work {s : Threads n} {i : Fin n} {a : Exchange} {l : Loop} :
      Step E H debug (s.workers i) a l → a.snapshot = none →
      ThreadStep E H debug s (.worker i a none)
        { s with workers := Function.update s.workers i l }
  | publish {s : Threads n} {i : Fin n} {a : Exchange} {l : Loop} {metrics : WorkerMetrics}
      {channel : Channel WorkerMetrics (2 * n)} :
      Step E H debug (s.workers i) a l → a.snapshot = some metrics →
      s.channel.trySend metrics = some channel →
      ThreadStep E H debug s (.worker i a none)
        { s with workers := Function.update s.workers i l, channel := channel }
  | full {s : Threads n} {i : Fin n} {a : Exchange} {l : Loop} {metrics : WorkerMetrics} :
      Step E H debug (s.workers i) a l → a.snapshot = some metrics →
      s.channel.trySend metrics = none →
      ThreadStep E H debug s (.worker i a (some metrics))
        { s with workers := Function.update s.workers i l }
  | receive {s : Threads n} {metrics : WorkerMetrics} {channel : Channel WorkerMetrics (2 * n)}
      {aggregator : MetricsAggregator} :
      s.channel.tryRecv = some (metrics, channel) →
      s.aggregator.accumulate debug metrics = .ok aggregator →
      ThreadStep E H debug s (.receive metrics)
        { s with channel := channel, aggregator := aggregator }
  | report {s : Threads n} {now : UInt64} {aggregated : Option AggregatedMetrics}
      {aggregator : MetricsAggregator} :
      s.channel.tryRecv = none →
      s.aggregator.checkReport debug now = .ok (aggregated, aggregator) →
      ThreadStep E H debug s (.report now aggregated) { s with aggregator := aggregator }

/-- The threads before their first steps. -/
structure Boot.Starts {n : Nat} (E : Ed25519) (debug : Bool) (b : Boot n) (s : Threads n) :
    Prop where
  workers : ∀ i, (b.launch i).start E debug = .ok (s.workers i)
  channel : s.channel = .empty
  aggregator : MetricsAggregator.start debug n b.metricsInterval b.reportNow b.reportNow' =
    .ok s.aggregator

/-- A run of the threads in which none of them panicked. -/
def Boot.Runs {n : Nat} (E : Ed25519) (H : Bytes → Hash) (debug : Bool) (b : Boot n)
    (actions : List (Action n)) (s : Threads n) : Prop :=
  ∃ s₀, b.Starts E debug s₀ ∧ Trace (ThreadStep E H debug) s₀ actions s

/-! ## What becomes of the counters -/

/-- The steps of one worker. -/
def Action.exchange {n : Nat} (i : Fin n) : Action n → Option Exchange
  | .worker j a _ => if j = i then some a else none
  | .receive _ => none
  | .report _ _ => none

/-- The snapshots of one worker that were lost. -/
def Action.lost {n : Nat} (i : Fin n) : Action n → Option WorkerMetrics
  | .worker j _ lost => if j = i then lost else none
  | .receive _ => none
  | .report _ _ => none

/-- The events of a worker that a counter is for, since the start. -/
def counted {n : Nat} (batchSize : Nat) (i : Fin n) (c : Counter) (actions : List (Action n)) :
    Nat :=
  ((actions.filterMap (Action.exchange i)).map fun a => a.counted batchSize c).sum

/-- Those in snapshots that were lost. -/
def lost {n : Nat} (i : Fin n) (c : Counter) (actions : List (Action n)) : Nat :=
  ((actions.filterMap (Action.lost i)).map fun m => m.value c).sum

theorem counted_worker {n : Nat} (batchSize : Nat) (i j : Fin n) (c : Counter)
    (actions : List (Action n)) (a : Exchange) (gone : Option WorkerMetrics) :
    counted batchSize j c (actions ++ [.worker i a gone]) =
      counted batchSize j c actions + if i = j then a.counted batchSize c else 0 := by
  rw [counted, List.filterMap_append, List.map_append, List.sum_append]
  by_cases hij : i = j
  · simp [counted, Action.exchange, hij]
  · simp [counted, Action.exchange, hij]

theorem lost_worker {n : Nat} (i j : Fin n) (c : Counter) (actions : List (Action n))
    (a : Exchange) (gone : Option WorkerMetrics) : lost j c (actions ++ [.worker i a gone]) =
      lost j c actions + if i = j then (gone.map fun m => m.value c).getD 0 else 0 := by
  rw [lost, List.filterMap_append, List.map_append, List.sum_append]
  by_cases hij : i = j
  · cases gone <;> simp [lost, Action.lost, hij]
  · simp [lost, Action.lost, hij]

/-- The steps of the aggregator are not counted. -/
theorem counted_aggregator {n : Nat} (batchSize : Nat) (i : Fin n) (c : Counter)
    (actions : List (Action n)) {action : Action n} (h : ∀ j a gone, action ≠ .worker j a gone) :
    counted batchSize i c (actions ++ [action]) = counted batchSize i c actions ∧
      lost i c (actions ++ [action]) = lost i c actions ∧
      (actions ++ [action]).filterMap (Action.exchange i) =
        actions.filterMap (Action.exchange i) := by
  obtain ⟨hexchange, hlost⟩ : action.exchange i = none ∧ action.lost i = none := by
    cases action with
    | worker j a gone => exact absurd rfl (h j a gone)
    | receive m => exact ⟨rfl, rfl⟩
    | report now aggregated => exact ⟨rfl, rfl⟩
  have hexchanges : (actions ++ [action]).filterMap (Action.exchange i) =
      actions.filterMap (Action.exchange i) := by
    rw [List.filterMap_append, List.filterMap_cons_none hexchange, List.filterMap_nil,
      List.append_nil]
  have hsnapshots : (actions ++ [action]).filterMap (Action.lost i) =
      actions.filterMap (Action.lost i) := by
    rw [List.filterMap_append, List.filterMap_cons_none hlost, List.filterMap_nil, List.append_nil]
  refine ⟨?_, ?_, hexchanges⟩
  · rw [counted, hexchanges]
    rfl
  · rw [lost, hsnapshots]
    rfl

namespace Threads

variable {n : Nat}

/-- What the accumulator of a worker shows. -/
def aggregated (s : Threads n) (i : Fin n) (c : Counter) : Nat :=
  ((s.aggregator.aggregatedMetrics.map fun m => m.value c)[i.val]?).getD 0

/-- What the snapshots of a worker on their way show. -/
def inChannel (s : Threads n) (i : Fin n) (c : Counter) : Nat :=
  s.channel.weigh fun m => if m.workerId = i.val then m.value c else 0

/-- What the counters of a worker show. -/
def counter (s : Threads n) (i : Fin n) (c : Counter) : Nat :=
  (s.workers i).worker.snapshot.value c

end Threads

theorem WorkerMetrics.addAssign_value {debug : Bool} {m rhs sum : WorkerMetrics}
    (h : m.addAssign debug rhs = .ok sum) (c : Counter) :
    sum.value c = m.value c + rhs.value c := by
  simp only [addAssign, ResponseMetrics.addAssign, Outcome.bind_ok_iff, Outcome.pure_eq,
    Outcome.ok.injEq] at h
  obtain ⟨response, ⟨_, -, rfl⟩, rfl⟩ := h
  cases c with
  | network c => cases c <;> rfl
  | request c => cases c <;> rfl
  | responses => rfl
  | bytesSent => rfl

section Runs

variable {E : Ed25519} {H : Bytes → Hash} {debug : Bool} {n : Nat}

theorem Step.snapshot_eq {s s' : Loop} {a : Exchange} {m : WorkerMetrics}
    (h : Step E H debug s a s') (hm : a.snapshot = some m) : m = s.worker.snapshot := by
  cases h with
  | top htop =>
      cases hm
      obtain ⟨w₁, hmetrics, -⟩ := Worker.loopTop_ok_iff.mp htop
      rcases Worker.checkMetrics_cases hmetrics with ⟨hnone, -⟩ | ⟨m', hsome, hpublish⟩
      · cases hnone
      · cases hsome
        simp only [Worker.publishMetrics, Outcome.bind_ok_iff, Outcome.pure_eq, Outcome.ok.injEq,
          Prod.mk.injEq] at hpublish
        obtain ⟨next, -, rfl, -⟩ := hpublish
        rfl
  | poll => cases hm
  | collect => cases hm
  | generate => cases hm

theorem Step.workerId_eq {s s' : Loop} {a : Exchange} (h : Step E H debug s a s') :
    s'.worker.workerId = s.worker.workerId := by
  cases h with
  | @top w w' r snapshot key htop =>
      obtain ⟨w₁, hmetrics, hkey⟩ := Worker.loopTop_ok_iff.mp htop
      have hpublished : w₁.workerId = w.workerId := by
        rcases Worker.checkMetrics_cases hmetrics with ⟨-, rfl⟩ | ⟨m, -, hpublish⟩
        · rfl
        · obtain ⟨next, rfl⟩ := Worker.publishMetrics_ok hpublish
          rfl
      rcases Worker.checkKey_cases hkey with ⟨-, rfl, -⟩ | ⟨k, -, -, hreplace⟩
      · exact hpublished
      · obtain ⟨req, -, -, -, -, rfl⟩ := Worker.replaceOnlineKey_ok_iff.mp hreplace
        exact hpublished
  | @poll w failed readable => cases failed <;> rfl
  | collect hcollect =>
      obtain ⟨req, -, -, rfl⟩ := Worker.collectRequests_ok_iff.mp hcollect
      rfl
  | generate hgen =>
      obtain ⟨req, -, rfl⟩ := Worker.generateResponses_ok_iff.mp hgen
      rfl

theorem Launch.Runs.workerId_eq {l : Launch} {exchanges : List Exchange} {s : Loop}
    (h : l.Runs E H debug exchanges s) : s.worker.workerId = l.workerId := by
  obtain ⟨s₀, hstart, htrace⟩ := h
  refine Trace.invariant (fun _ (t : Loop) => t.worker.workerId = l.workerId) ?_ ?_ htrace
  · exact congrArg WorkerMetrics.workerId (Launch.start_snapshot hstart)
  · intro _ t a t' _ ht hstep
    exact hstep.workerId_eq.trans ht

/-- A step of a worker in any of its runs, on one counter. -/
theorem Launch.Runs.counts {l : Launch} {exchanges : List Exchange} {s s' : Loop} {a : Exchange}
    (h : l.Runs E H debug exchanges s) (hstep : Step E H debug s a s') (c : Counter) :
    s'.worker.snapshot.value c = (if a.publishes then 0 else s.worker.snapshot.value c) +
      a.counted l.args.batchSize.toNat c := by
  have hsmall := Nat.le_trans h.pending.1 l.args.inRange.2
  rw [hstep.counted hsmall c, h.refines.1]

theorem accumulate_ok {agg agg' : MetricsAggregator} {m : WorkerMetrics}
    (h : agg.accumulate debug m = .ok agg') :
    agg'.aggregatedMetrics.length = agg.aggregatedMetrics.length ∧
      ∀ (c : Counter) (i : Nat), i < agg.aggregatedMetrics.length →
        ((agg'.aggregatedMetrics.map fun m => m.value c)[i]?).getD 0 =
          ((agg.aggregatedMetrics.map fun m => m.value c)[i]?).getD 0 +
            if m.workerId = i then m.value c else 0 := by
  unfold MetricsAggregator.accumulate at h
  split at h
  · cases h
  · next acc hacc =>
      simp only [Outcome.bind_ok_iff, Outcome.pure_eq, Outcome.ok.injEq] at h
      obtain ⟨acc', hadd, rfl⟩ := h
      refine ⟨List.length_set, ?_⟩
      intro c i hi
      simp only [List.getElem?_map, List.getElem?_set]
      by_cases heq : m.workerId = i
      · subst heq
        rw [if_pos rfl, if_pos hi, if_pos rfl, hacc]
        exact WorkerMetrics.addAssign_value hadd c
      · rw [if_neg heq, if_neg heq]
        rfl

/-- What a run of the threads keeps: each worker is in one of its own runs, the aggregator has an
accumulator for each, and what a worker has counted is in one of four places. -/
structure Accounts (E : Ed25519) (H : Bytes → Hash) (debug : Bool) (b : Boot n)
    (actions : List (Action n)) (s : Threads n) : Prop where
  runs : ∀ i, (b.launch i).Runs E H debug (actions.filterMap (Action.exchange i)) (s.workers i)
  slots : s.aggregator.aggregatedMetrics.length = n
  balance : ∀ i c, s.aggregated i c + s.inChannel i c + s.counter i c + lost i c actions =
    counted b.args.batchSize.toNat i c actions

variable {b : Boot n} {s s' : Threads n} {actions : List (Action n)}

theorem Boot.Starts.accounts (h : b.Starts E debug s) : Accounts E H debug b [] s := by
  have hagg : s.aggregator.aggregatedMetrics = (List.range n).map WorkerMetrics.empty := by
    have hstart := h.aggregator
    simp only [MetricsAggregator.start, Outcome.bind_ok_iff, Outcome.pure_eq,
      Outcome.ok.injEq] at hstart
    obtain ⟨next, -, hstart⟩ := hstart
    rw [← hstart]
  have hempty : ∀ (k : Nat) (c : Counter), (WorkerMetrics.empty k).value c = 0 := by
    intro k c
    cases c with
    | network c => cases c <;> rfl
    | request c => cases c <;> rfl
    | responses => rfl
    | bytesSent => rfl
  refine ⟨?_, ?_, ?_⟩
  · intro i
    exact ⟨_, h.workers i, .start⟩
  · rw [hagg, List.length_map, List.length_range]
  · intro i c
    have haggregated : s.aggregated i c = 0 := by
      rw [Threads.aggregated, hagg, List.map_map, List.getElem?_map,
        List.getElem?_range i.isLt]
      exact hempty i.val c
    have hchannel : s.inChannel i c = 0 := by
      rw [Threads.inChannel, h.channel]
      exact Channel.weigh_empty _
    have hcounter : s.counter i c = 0 := by
      rw [Threads.counter, Launch.start_snapshot (h.workers i)]
      exact hempty _ c
    rw [haggregated, hchannel, hcounter]
    rfl

/-- A snapshot is on the account of the worker that made it. -/
theorem share_eq {snapshot : Option WorkerMetrics} {i : Nat}
    (h : ∀ m ∈ snapshot, m.workerId = i) (j : Nat) (c : Counter) :
    (snapshot.map fun m => if m.workerId = j then m.value c else 0).getD 0 =
      if i = j then (snapshot.map fun m => m.value c).getD 0 else 0 := by
  cases snapshot with
  | none => exact (ite_self 0).symm
  | some m => simp only [Option.map_some, Option.getD_some, h m rfl]

/-- A worker took a step.  Its snapshot, if any, is in the channel or lost; the other workers'
share of the channel is what it was. -/
theorem Accounts.worker (hinv : Accounts E H debug b actions s) {i : Fin n} {a : Exchange}
    {l : Loop} {channel : Channel WorkerMetrics (2 * n)} {gone : Option WorkerMetrics}
    (hstep : Step E H debug (s.workers i) a l) (hgone : ∀ m ∈ gone, m ∈ a.snapshot)
    (hsent : ∀ f : WorkerMetrics → Nat, channel.weigh f + (gone.map f).getD 0 =
      s.channel.weigh f + (a.snapshot.map f).getD 0) :
    Accounts E H debug b (actions ++ [.worker i a gone])
      { s with workers := Function.update s.workers i l, channel := channel } := by
  have hid : ∀ m ∈ a.snapshot, m.workerId = i.val := by
    intro m hm
    rw [hstep.snapshot_eq hm]
    exact (hinv.runs i).workerId_eq
  refine ⟨?_, hinv.slots, ?_⟩
  · intro j
    show (b.launch j).Runs E H debug _ (Function.update s.workers i l j)
    rw [List.filterMap_append]
    by_cases hj : i = j
    · subst hj
      rw [Function.update_self]
      simpa [Action.exchange] using (hinv.runs i).step hstep
    · rw [Function.update_of_ne (Ne.symm hj)]
      simpa [Action.exchange, hj] using hinv.runs j
  · intro j c
    have hold := hinv.balance j c
    have hchannel := hsent fun m => if m.workerId = j.val then m.value c else 0
    rw [share_eq hid, share_eq fun m hm => hid m (hgone m hm)] at hchannel
    have hinChannel : s.inChannel j c =
        s.channel.weigh fun m => if m.workerId = j.val then m.value c else 0 := rfl
    show s.aggregated j c + (channel.weigh fun m => if m.workerId = j.val then m.value c else 0) +
      (Function.update s.workers i l j).worker.snapshot.value c + _ = _
    rw [counted_worker, lost_worker]
    by_cases hj : i = j
    · subst hj
      have hkept : s.counter i c = (if a.publishes then 0 else s.counter i c) +
          (a.snapshot.map fun m => m.value c).getD 0 := by
        rw [a.publishes_eq]
        cases hpublished : a.snapshot with
        | none => rfl
        | some m =>
            rw [hstep.snapshot_eq hpublished]
            exact (Nat.zero_add _).symm
      have hcounts := (hinv.runs i).counts hstep c
      have hlocal : (s.workers i).worker.snapshot.value c = s.counter i c := rfl
      rw [Function.update_self, hcounts, hlocal, if_pos rfl, if_pos rfl]
      rw [if_pos rfl, if_pos rfl] at hchannel
      show _ + _ + (_ + a.counted b.args.batchSize.toNat c) + _ = _
      omega
    · have hne : i.val ≠ j.val := fun h => hj (Fin.ext h)
      rw [Function.update_of_ne (Ne.symm hj), if_neg hj, if_neg hj]
      rw [if_neg hne, if_neg hne] at hchannel
      rw [Nat.add_zero, Nat.add_zero, ← hold, hinChannel, ← Nat.add_right_cancel hchannel]
      rfl

/-- The aggregator took a step.  What left the channel is in the accumulator. -/
theorem Accounts.aggregator (hinv : Accounts E H debug b actions s) {action : Action n}
    {channel : Channel WorkerMetrics (2 * n)} {agg : MetricsAggregator}
    (haction : ∀ j a gone, action ≠ .worker j a gone) (hslots : agg.aggregatedMetrics.length = n)
    (hmoved : ∀ (i : Fin n) (c : Counter),
      ((agg.aggregatedMetrics.map fun m => m.value c)[i.val]?).getD 0 +
        (channel.weigh fun m => if m.workerId = i.val then m.value c else 0) =
      s.aggregated i c + s.inChannel i c) :
    Accounts E H debug b (actions ++ [action])
      { s with channel := channel, aggregator := agg } := by
  refine ⟨?_, hslots, ?_⟩
  · intro i
    rw [(counted_aggregator 0 i .responses actions haction).2.2]
    exact hinv.runs i
  · intro i c
    obtain ⟨hcounted, hlost, -⟩ :=
      counted_aggregator b.args.batchSize.toNat i c actions haction
    rw [hcounted, hlost, ← hinv.balance i c, ← hmoved i c]
    rfl

theorem ThreadStep.accounts {action : Action n} (hstep : ThreadStep E H debug s action s')
    (hinv : Accounts E H debug b actions s) : Accounts E H debug b (actions ++ [action]) s' := by
  cases hstep with
  | work hwork hquiet =>
      refine hinv.worker hwork (fun m hm => nomatch hm) ?_
      intro f
      rw [hquiet]
  | publish hwork hsnapshot hsend =>
      refine hinv.worker hwork (fun m hm => nomatch hm) ?_
      intro f
      rw [hsnapshot, Channel.weigh_trySend f hsend]
      rfl
  | full hwork hsnapshot hsend =>
      refine hinv.worker hwork ?_ ?_
      · intro m hm
        rw [hsnapshot]
        exact hm
      · intro f
        rw [hsnapshot]
  | receive hrecv haccumulate =>
      obtain ⟨hlength, hvalue⟩ := accumulate_ok haccumulate
      refine hinv.aggregator (fun _ _ _ h => nomatch h) (hlength.trans hinv.slots) ?_
      intro i c
      have hi := Nat.lt_of_lt_of_eq i.isLt hinv.slots.symm
      rw [hvalue c i.val hi, Threads.inChannel, Channel.weigh_tryRecv _ hrecv,
        Nat.add_assoc]
      rfl
  | report hempty hreport =>
      have hkept : ∀ {agg agg' : MetricsAggregator} {now : UInt64}
          {aggregated : Option AggregatedMetrics},
          agg.checkReport debug now = .ok (aggregated, agg') →
            agg'.aggregatedMetrics = agg.aggregatedMetrics := by
        intro agg agg' now aggregated h
        unfold MetricsAggregator.checkReport at h
        split at h
        · simp only [Outcome.bind_ok_iff, Outcome.pure_eq, Outcome.ok.injEq, Prod.mk.injEq] at h
          obtain ⟨_, -, _, -, _, -, -, rfl⟩ := h
          rfl
        · cases h
          rfl
      refine hinv.aggregator (fun _ _ _ h => nomatch h) ?_ ?_
      · rw [hkept hreport]
        exact hinv.slots
      · intro i c
        rw [hkept hreport]
        rfl

theorem Boot.Runs.accounts (h : b.Runs E H debug actions s) : Accounts E H debug b actions s := by
  obtain ⟨s₀, hstart, htrace⟩ := h
  refine Trace.invariant (fun done t => Accounts E H debug b done t) hstart.accounts ?_ htrace
  intro done t action t' _ hinv hstep
  exact hstep.accounts hinv

/-- A snapshot is lost only when the channel is full. -/
theorem Boot.Runs.lost_full {done later : List (Action n)} {i : Fin n} {a : Exchange}
    {m : WorkerMetrics} (h : b.Runs E H debug (done ++ .worker i a (some m) :: later) s) :
    ∃ t, b.Runs E H debug done t ∧ t.channel.queue.length = 2 * n := by
  obtain ⟨s₀, hstart, htrace⟩ := h
  rw [List.append_cons, Trace.append_iff] at htrace
  obtain ⟨t', hfirst, -⟩ := htrace
  obtain ⟨t, hdone, hstep⟩ := Trace.concat_iff.mp hfirst
  refine ⟨t, ⟨s₀, hstart, hdone⟩, ?_⟩
  cases hstep with
  | full _ _ hsend => exact Channel.trySend_eq_none_iff.mp hsend

end Runs

/-- Whatever the order in which the workers and the aggregator take their steps: what a worker has
counted since the start is in its accumulator, in the channel, in its own counters, or in
snapshots that it published when the channel was full. -/
theorem metrics_accounted (E : Ed25519) (H : Bytes → Hash) (debug : Bool) (n : Nat) (b : Boot n)
    (actions : List (Action n)) (s : Threads n) (h : b.Runs E H debug actions s) :
    (∀ (i : Fin n) (c : Counter),
      s.aggregated i c + s.inChannel i c + s.counter i c + lost i c actions =
        counted b.args.batchSize.toNat i c actions) ∧
    ∀ done i a m later, actions = done ++ .worker i a (some m) :: later →
      ∃ t, b.Runs E H debug done t ∧ t.channel.queue.length = 2 * n := by
  refine ⟨h.accounts.balance, ?_⟩
  rintro done i a m later rfl
  exact h.lost_full

namespace Sample

/-- One worker that publishes in each turn. -/
def boot : Boot 1 :=
  ⟨args, keySource .rfcDraft14, .fromSecs 0, fun _ => (config .rfcDraft14).draw, fun _ => 1000,
    1000, 1000⟩

theorem no_jitter : 0 < 255 := by decide

def readings : Readings := ⟨1000, 1000, (config .rfcDraft14).draw, ⟨0, no_jitter⟩⟩

def Due (s : Threads 1) : Prop :=
  (s.workers 0).phase = .top ∧ (s.workers 0).worker.nextMetricsPublication = 1000 ∧
    (s.workers 0).worker.metricsPublishInterval = .fromSecs 0

theorem loopTop_due {w : Worker} (hdue : w.nextMetricsPublication = 1000)
    (hinterval : w.metricsPublishInterval = .fromSecs 0) :
    ∃ key w', w.loopTop ed25519 false readings = .ok ((some w.snapshot, key), w') ∧
      w'.nextMetricsPublication = 1000 ∧ w'.metricsPublishInterval = .fromSecs 0 := by
  obtain ⟨⟨snapshot, key⟩, w', htop⟩ := w.loopTop_release (E := ed25519) readings
  obtain ⟨w₁, hmetrics, hkey⟩ := Worker.loopTop_ok_iff.mp htop
  have hpublish : w.checkMetrics false readings = .ok (some w.snapshot,
      { w with
        netHandler := w.netHandler.resetMetrics
        reqHandler := w.reqHandler.resetMetrics
        nextMetricsPublication := 1000 }) := by
    unfold Worker.checkMetrics
    rw [if_pos (by rw [hdue]; decide), Worker.publishMetrics, hinterval]
    rfl
  rw [hpublish] at hmetrics
  cases hmetrics
  refine ⟨key, w', htop, ?_⟩
  rcases Worker.checkKey_cases hkey with ⟨-, rfl, -⟩ | ⟨k, -, -, hreplace⟩
  · exact ⟨rfl, hinterval⟩
  · obtain ⟨req, -, -, -, -, rfl⟩ := Worker.replaceOnlineKey_ok_iff.mp hreplace
    exact ⟨rfl, hinterval⟩

/-- The snapshot goes into the channel as long as there is room. -/
theorem publish_top {s : Threads 1} (hdue : Due s) :
    ∃ key gone w' s₁, ThreadStep ed25519 digest false s
        (.worker 0 (.top readings (some (s.workers 0).worker.snapshot) key) gone) s₁ ∧
      Step ed25519 digest false (s.workers 0)
        (.top readings (some (s.workers 0).worker.snapshot) key) ⟨w', .poll⟩ ∧
      s₁.workers 0 = ⟨w', .poll⟩ ∧ w'.nextMetricsPublication = 1000 ∧
      w'.metricsPublishInterval = .fromSecs 0 ∧
      s₁.channel.queue.length = min 2 (s.channel.queue.length + 1) ∧
      (gone.map fun m => m.value (.network .failedPolls)).getD 0 =
        if s.channel.queue.length < 2 then 0 else s.counter 0 (.network .failedPolls) := by
  obtain ⟨hphase, hnext, hinterval⟩ := hdue
  obtain ⟨key, w', htop, hnext', hinterval'⟩ := loopTop_due hnext hinterval
  have hwork : Step ed25519 digest false (s.workers 0)
      (.top readings (some (s.workers 0).worker.snapshot) key) ⟨w', .poll⟩ := by
    have hloop : s.workers 0 = ⟨(s.workers 0).worker, .top⟩ := by rw [← hphase]
    rw [hloop]
    exact .top htop
  have hbounded := s.channel.bounded
  cases hsend : s.channel.trySend (s.workers 0).worker.snapshot with
  | some channel =>
      have hroom : s.channel.queue.length < 2 := by
        refine Nat.lt_of_le_of_ne hbounded fun hfull => ?_
        rw [Channel.trySend_eq_none_iff.mpr hfull] at hsend
        cases hsend
      refine ⟨key, none, w', _, .publish hwork rfl hsend, hwork, rfl, hnext', hinterval', ?_, ?_⟩
      · rw [Nat.min_eq_right hroom]
        show channel.queue.length = _
        rw [Channel.trySend_eq_some hsend]
        exact List.length_append
      · rw [if_pos hroom]
        rfl
  | none =>
      have hfull : s.channel.queue.length = 2 := Channel.trySend_eq_none_iff.mp hsend
      refine ⟨key, some _, w', _, .full hwork rfl hsend, hwork, rfl, hnext', hinterval', ?_, ?_⟩
      · show s.channel.queue.length = _
        rw [hfull]
        rfl
      · rw [hfull]
        rfl

/-- One turn, with a poll that fails. -/
theorem publish_turn {actions : List (Action 1)} {s : Threads 1}
    (h : boot.Runs ed25519 digest false actions s) (hdue : Due s) :
    ∃ actions' s', boot.Runs ed25519 digest false actions' s' ∧ Due s' ∧
      s'.counter 0 (.network .failedPolls) = 1 ∧
      s'.channel.queue.length = min 2 (s.channel.queue.length + 1) ∧
      lost 0 (.network .failedPolls) actions' = lost 0 (.network .failedPolls) actions +
        if s.channel.queue.length < 2 then 0 else s.counter 0 (.network .failedPolls) := by
  obtain ⟨key, gone, w', s₁, hfirst, hwork, hpolling, hnext', hinterval', hqueue, hgone⟩ :=
    publish_top hdue
  have hpoll : Step ed25519 digest false (s₁.workers 0) (.poll true 0)
      ⟨w'.polled true, .top⟩ := by
    rw [hpolling]
    exact .poll true 0
  obtain ⟨s₀, hstart, htrace⟩ := h
  have hruns : boot.Runs ed25519 digest false (actions ++ [.worker 0 _ gone]) s₁ :=
    ⟨s₀, hstart, htrace.step hfirst⟩
  have hlast : boot.Runs ed25519 digest false
      (actions ++ [.worker 0 _ gone] ++ [.worker 0 (.poll true 0) none])
      { s₁ with workers := Function.update s₁.workers 0 ⟨w'.polled true, .top⟩ } :=
    ⟨s₀, hstart, (htrace.step hfirst).step (.work hpoll rfl)⟩
  refine ⟨_, _, hlast, ⟨rfl, hnext', hinterval'⟩, ?_, hqueue, ?_⟩
  · show (w'.polled true).snapshot.value _ = 1
    have hcounts := (hruns.accounts.runs 0).counts hpoll (.network .failedPolls)
    rw [hpolling] at hcounts
    rw [hcounts]
    have hreset := ((Boot.Runs.accounts ⟨s₀, hstart, htrace⟩).runs 0).counts hwork
      (.network .failedPolls)
    exact congrArg (· + 1) hreset
  · rw [lost_worker, lost_worker, hgone]
    rfl

/-- Three turns, and nothing is taken from the channel: there is no room for the third snapshot,
which holds a failed poll. -/
theorem third_snapshot : ∃ actions s, boot.Runs ed25519 digest false actions s ∧
    lost 0 (.network .failedPolls) actions = 1 := by
  obtain ⟨l, hlaunch⟩ := (boot.launch 0).start_release (E := ed25519)
  obtain ⟨agg, hagg⟩ : ∃ agg, MetricsAggregator.start false 1 boot.metricsInterval boot.reportNow
      boot.reportNow' = .ok agg := ⟨_, rfl⟩
  have hstart : boot.Starts ed25519 false ⟨fun _ => l, .empty, agg⟩ := by
    refine ⟨?_, rfl, hagg⟩
    intro i
    rw [Fin.fin_one_eq_zero i]
    exact hlaunch
  have hdue : Due ⟨fun _ => l, .empty, agg⟩ := by
    obtain ⟨hphase, -, -, hnext, -⟩ := Launch.start_ok (H := digest) hlaunch
    simp only [Launch.start, Worker.new, Outcome.bind_ok_iff, Outcome.pure_eq,
      Outcome.ok.injEq] at hlaunch
    obtain ⟨responder, -, worker, ⟨next, -, rfl⟩, rfl⟩ := hlaunch
    exact ⟨hphase, hnext, rfl⟩
  have hruns : boot.Runs ed25519 digest false [] ⟨fun _ => l, .empty, agg⟩ := ⟨_, hstart, .start⟩
  obtain ⟨as₁, s₁, h₁, hdue₁, -, hqueue₁, hlost₁⟩ := publish_turn hruns hdue
  obtain ⟨as₂, s₂, h₂, hdue₂, hpolls₂, hqueue₂, hlost₂⟩ := publish_turn h₁ hdue₁
  obtain ⟨as₃, s₃, h₃, -, -, -, hlost₃⟩ := publish_turn h₂ hdue₂
  refine ⟨as₃, s₃, h₃, ?_⟩
  have hone : s₁.channel.queue.length = 1 := hqueue₁
  have htwo : s₂.channel.queue.length = 2 := by rw [hqueue₂, hone]; rfl
  rw [hlost₃, hlost₂, hlost₁, hone, htwo, hpolls₂]
  rfl

end Sample

open Sample

theorem metrics_accounted_full : ∃ actions s, boot.Runs ed25519 digest false actions s ∧
    lost 0 (.network .failedPolls) actions = 1 ∧
    s.aggregated 0 (.network .failedPolls) + s.inChannel 0 (.network .failedPolls) +
        s.counter 0 (.network .failedPolls) + 1 =
      counted 1 0 (.network .failedPolls) actions := by
  obtain ⟨actions, s, hruns, hlost⟩ := third_snapshot
  have hbalance := (metrics_accounted ed25519 digest false 1 boot actions s hruns).1 0
    (.network .failedPolls)
  rw [hlost] at hbalance
  exact ⟨actions, s, hruns, hlost, hbalance⟩

/-- The failed poll is in none of the three places it should be in. -/
theorem metrics_lost : ∃ actions s, boot.Runs ed25519 digest false actions s ∧
    s.aggregated 0 (.network .failedPolls) + s.inChannel 0 (.network .failedPolls) +
        s.counter 0 (.network .failedPolls) ≠
      counted boot.args.batchSize.toNat 0 (.network .failedPolls) actions := by
  obtain ⟨actions, s, hruns, hlost⟩ := third_snapshot
  refine ⟨actions, s, hruns, fun hequal => ?_⟩
  have hbalance := hruns.accounts.balance 0 (.network .failedPolls)
  rw [hequal, hlost] at hbalance
  exact absurd hbalance (Nat.succ_ne_self _)

end Roughenough.Server
