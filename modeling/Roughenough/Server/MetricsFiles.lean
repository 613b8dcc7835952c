/-
# `Roughenough.Server.MetricsFiles` — what is found in the metrics directory

`metrics/snapshot.rs` and the part of `metrics/aggregator.rs` that uses it, with
`--metrics-output`.  A report of the aggregator becomes a file whose name holds
the time, written next to it under a hidden name and then renamed:

    File::create, to_string, write_all, sync_all, rename

Any of these can fail, which is logged and forgotten; the server can be killed
and started again, and the machine can crash.  Meanwhile the workers go on, and
programs like `examples/metrics_watcher.rs` read every file of the directory
with the extension `json`.

    Life        a server from its start on, as far as it has come
    Site        that and the directory
    Report      what the aggregator reported, and where the threads stood

A file that such a program finds was there before or is a whole report
(`metrics_files_whole`), and the counters of a report are those of the threads,
to the last event.
-/
import Roughenough.Base.AtomicFile
import Roughenough.Server.Aggregator

namespace Roughenough.Server

open Roughenough.Base Roughenough.Base.AtomicFile Roughenough.Protocol Roughenough.Merkle

/-! ## Snapshots -/

/-- `MetricsSnapshot`.  The duration is a whole number of seconds; the rates are made of it and
the totals. -/
structure MetricsSnapshot where
  timestamp : Int64
  durationSecs : UInt64
  workers : List WorkerMetrics
  totals : AggregatedMetrics

/-- The crates `time_format` and `serde_json`, on the times of the system. -/
structure Formats (τ : Type) where
  fromSystemTime : τ → Option Int64
  strftimeUtc : List Char → Int64 → Option (List Char)
  toString : MetricsSnapshot → Option Bytes

namespace MetricsSnapshot

variable {τ : Type} (F : Formats τ)

def new (now : τ) (durationSecs : UInt64) (workers : List WorkerMetrics)
    (totals : AggregatedMetrics) : Call MetricsSnapshot := do
  let timestamp ← Outcome.orPanic (F.fromSystemTime now)
  pure ⟨timestamp, durationSecs, workers, totals⟩

/-- The first two lines of `write_to_file`. -/
def filename (snapshot : MetricsSnapshot) : Call (List Char) :=
  Outcome.orPanic
    (F.strftimeUtc "roughenough-metrics-%Y%m%d-%H%M%S.json".toList snapshot.timestamp)

end MetricsSnapshot

def tempPath (filename : List Char) : List Char := '.' :: (filename ++ ".tmp".toList)

/-- `Path::extension` of a file name: what is behind its last dot, unless that is its first
character. -/
def extension (fileName : List Char) : Option (List Char) :=
  match fileName.reverse.dropWhile (· ≠ '.') with
  | [] => none
  | [_] => none
  | _ :: _ :: _ => some (fileName.reverse.takeWhile (· ≠ '.')).reverse

/-- The names of the files that are read. -/
def IsJson (name : List Char) : Prop := extension name = some "json".toList

theorem extension_tempPath (filename : List Char) :
    extension (tempPath filename) = some "tmp".toList := by
  have hreverse : (tempPath filename).reverse =
      'p' :: 'm' :: 't' :: '.' :: (filename.reverse ++ ['.']) := by
    unfold tempPath
    rw [List.reverse_cons, List.reverse_append]
    rfl
  unfold extension
  rw [hreverse]
  cases hname : filename.reverse with
  | nil => rfl
  | cons c later => rfl

theorem tempPath_not_json (filename name : List Char) (h : IsJson name) :
    tempPath filename ≠ name := by
  rintro rfl
  unfold IsJson at h
  rw [extension_tempPath] at h
  exact absurd h (by decide)

/-! ## Totals -/

def AggregatedMetrics.value (m : AggregatedMetrics) : Counter → Nat
  | .network c => m.network.value c
  | .request c => m.requests.value c
  | .responses => m.responses.numResponses
  | .bytesSent => m.responses.numBytesSent

theorem foldl_network_value (ms : List NetworkMetrics) (m : NetworkMetrics) (c : NetworkCount) :
    (ms.foldl .addAssign m).value c = m.value c + (ms.map fun m => m.value c).sum := by
  induction ms generalizing m with
  | nil => exact (Nat.add_zero _).symm
  | cons first ms ih =>
      have hadd : (m.addAssign first).value c = m.value c + first.value c := by cases c <;> rfl
      rw [List.foldl_cons, ih, hadd, List.map_cons, List.sum_cons, Nat.add_assoc]

theorem foldl_request_value (ms : List RequestMetrics) (m : RequestMetrics) (c : Count) :
    (ms.foldl .addAssign m).value c = m.value c + (ms.map fun m => m.value c).sum := by
  induction ms generalizing m with
  | nil => exact (Nat.add_zero _).symm
  | cons first ms ih =>
      have hadd : (m.addAssign first).value c = m.value c + first.value c := by cases c <;> rfl
      rw [List.foldl_cons, ih, hadd, List.map_cons, List.sum_cons, Nat.add_assoc]

theorem total_value {debug : Bool} {ms : List ResponseMetrics} {total : ResponseMetrics}
    (h : ResponseMetrics.total debug ms = .ok total) :
    total.numResponses = (ms.map ResponseMetrics.numResponses).sum ∧
      total.numBytesSent = (ms.map ResponseMetrics.numBytesSent).sum := by
  refine Outcome.foldlM_invariant (fun done (sum : ResponseMetrics) =>
    sum.numResponses = (done.map ResponseMetrics.numResponses).sum ∧
      sum.numBytesSent = (done.map ResponseMetrics.numBytesSent).sum) [] ?_ ⟨rfl, rfl⟩ h
  intro done m sum sum' _ ⟨hresponses, hbytes⟩ hadd
  simp only [ResponseMetrics.addAssign, Outcome.bind_ok_iff, Outcome.pure_eq,
    Outcome.ok.injEq] at hadd
  obtain ⟨_, -, rfl⟩ := hadd
  rw [List.map_append, List.sum_append, List.map_append, List.sum_append, ← hresponses, ← hbytes]
  exact ⟨rfl, rfl⟩

/-- The totals of a report are the sums over its workers. -/
theorem calcAggregatedMetrics_value {debug : Bool} {workers : List WorkerMetrics}
    {totals : AggregatedMetrics} (h : calcAggregatedMetrics debug workers = .ok totals) :
    (∀ c, totals.value c = (workers.map fun m => m.value c).sum) ∧
      totals.totalRequests = (workers.map fun m => m.value (.request .ok) +
        m.value (.request .bad) + m.value (.request .runt) + m.value (.request .jumbo)).sum := by
  simp only [calcAggregatedMetrics, Outcome.bind_ok_iff, Outcome.pure_eq,
    Outcome.ok.injEq] at h
  obtain ⟨responses, hresponses, rfl⟩ := h
  obtain ⟨hcount, hbytes⟩ := total_value hresponses
  have hrequest : ∀ c : Count,
      ((workers.map WorkerMetrics.request).foldl RequestMetrics.addAssign
        RequestMetrics.default).value c =
        (workers.map fun m => m.value (.request c)).sum := by
    intro c
    rw [foldl_request_value, List.map_map]
    cases c <;> exact Nat.zero_add _
  refine ⟨?_, ?_⟩
  · intro c
    cases c with
    | network c =>
        show ((workers.map WorkerMetrics.network).foldl NetworkMetrics.addAssign _).value c = _
        rw [foldl_network_value, List.map_map]
        cases c <;> exact Nat.zero_add _
    | request c => exact hrequest c
    | responses =>
        rw [List.map_map] at hcount
        exact hcount
    | bytesSent =>
        rw [List.map_map] at hbytes
        exact hbytes
  · rw [List.sum_map_add, List.sum_map_add, List.sum_map_add, ← hrequest, ← hrequest, ← hrequest,
      ← hrequest]
    rfl

/-! ## The server and the directory -/

section Sites

variable {τ : Type}

theorem Boot.Runs.step {E : Ed25519} {H : Bytes → Hash} {debug : Bool} {n : Nat} {b : Boot n}
    {actions : List (Action n)} {s s' : Threads n} {a : Action n}
    (h : b.Runs E H debug actions s) (hstep : ThreadStep E H debug s a s') :
    b.Runs E H debug (actions ++ [a]) s' := by
  obtain ⟨s₀, hstart, htrace⟩ := h
  exact ⟨s₀, hstart, htrace.step hstep⟩

/-- A server that was started, and what its threads have done. -/
structure Life (E : Ed25519) (H : Bytes → Hash) (debug : Bool) where
  numThreads : Nat
  boot : Boot numThreads
  actions : List (Action numThreads)
  threads : Threads numThreads
  runs : boot.Runs E H debug actions threads

variable {E : Ed25519} {H : Bytes → Hash} {debug : Bool}

def Life.step (life : Life E H debug) {a : Action life.numThreads}
    {threads : Threads life.numThreads} (h : ThreadStep E H debug life.threads a threads) :
    Life E H debug :=
  ⟨life.numThreads, life.boot, life.actions ++ [a], threads, life.runs.step h⟩

/-- What the aggregator reported, and the server before it did. -/
structure Report (E : Ed25519) (H : Bytes → Hash) (debug : Bool) where
  life : Life E H debug
  now : UInt64
  snapshot : MetricsSnapshot

structure Site (E : Ed25519) (H : Bytes → Hash) (debug : Bool) where
  life : Life E H debug
  disk : Disk (List Char) UInt8

/-- A thread takes a step, and the aggregator may have something to report; something happens to
the file it writes; the server is started again, after a crash of the machine or without. -/
inductive SiteAction (E : Ed25519) (H : Bytes → Hash) (debug : Bool) where
  | thread
  | report (r : Report E H debug) (name : List Char) (data : Option Bytes)
  | file (op : Op (List Char) UInt8)
  | restart
  | crash

/-- The aggregator does nothing else while it writes a file. -/
inductive SiteStep (F : Formats τ) : Site E H debug → SiteAction E H debug → Site E H debug → Prop
  | worker {life : Life E H debug} {disk : Disk (List Char) UInt8} {i : Fin life.numThreads}
      {a : Exchange} {gone : Option WorkerMetrics} {threads : Threads life.numThreads}
      (h : ThreadStep E H debug life.threads (.worker i a gone) threads) :
      SiteStep F ⟨life, disk⟩ .thread ⟨life.step h, disk⟩
  | receive {life : Life E H debug} {disk : Disk (List Char) UInt8} {metrics : WorkerMetrics}
      {threads : Threads life.numThreads} : disk.writer = .idle →
      (h : ThreadStep E H debug life.threads (.receive metrics) threads) →
      SiteStep F ⟨life, disk⟩ .thread ⟨life.step h, disk⟩
  | look {life : Life E H debug} {disk : Disk (List Char) UInt8} {now : UInt64}
      {threads : Threads life.numThreads} : disk.writer = .idle →
      (h : ThreadStep E H debug life.threads (.report now none) threads) →
      SiteStep F ⟨life, disk⟩ .thread ⟨life.step h, disk⟩
  | report {life : Life E H debug} {disk disk' : Disk (List Char) UInt8} {now elapsed : UInt64}
      {totals : AggregatedMetrics} {threads : Threads life.numThreads} (systemNow : τ)
      {snapshot : MetricsSnapshot} {name : List Char} :
      (h : ThreadStep E H debug life.threads (.report now (some totals)) threads) →
      subU64 debug now life.threads.aggregator.lastReportTime = .ok elapsed →
      MetricsSnapshot.new F systemNow elapsed life.threads.aggregator.aggregatedMetrics totals =
        .ok snapshot →
      snapshot.filename F = .ok name →
      AtomicFile.Step tempPath disk (.take name (F.toString snapshot)) disk' →
      SiteStep F ⟨life, disk⟩ (.report ⟨life, now, snapshot⟩ name (F.toString snapshot))
        ⟨life.step h, disk'⟩
  | file {life : Life E H debug} {disk disk' : Disk (List Char) UInt8}
      {op : Op (List Char) UInt8} : (∀ name data, op ≠ .take name data) → op ≠ .crash →
      AtomicFile.Step tempPath disk op disk' →
      SiteStep F ⟨life, disk⟩ (.file op) ⟨life, disk'⟩
  | restart {life life' : Life E H debug} {disk : Disk (List Char) UInt8} :
      disk.writer = .idle → life'.actions = [] →
      SiteStep F ⟨life, disk⟩ .restart ⟨life', disk⟩
  | crash {life life' : Life E H debug} {disk disk' : Disk (List Char) UInt8} :
      AtomicFile.Step tempPath disk .crash disk' → life'.actions = [] →
      SiteStep F ⟨life, disk⟩ .crash ⟨life', disk'⟩

/-- From a server that was just started, and a directory with some files in it. -/
def SiteRuns (F : Formats τ) (life : Life E H debug) (files : List Char → Option Bytes)
    (actions : List (SiteAction E H debug)) (site : Site E H debug) : Prop :=
  Trace (SiteStep F) ⟨life, Disk.init files⟩ actions site

/-- What an action does to the directory. -/
def SiteAction.op : SiteAction E H debug → Option (Op (List Char) UInt8)
  | .thread => none
  | .report _ name data => some (.take name data)
  | .file op => some op
  | .restart => none
  | .crash => some .crash

variable {F : Formats τ} {life : Life E H debug} {files : List Char → Option Bytes}
  {actions : List (SiteAction E H debug)} {action : SiteAction E H debug}
  {site site' : Site E H debug}

theorem SiteStep.disk (h : SiteStep F site action site') :
    Trace (AtomicFile.Step tempPath) site.disk action.op.toList site'.disk := by
  cases h with
  | worker h => exact .start
  | receive hidle h => exact .start
  | look hidle h => exact .start
  | report systemNow h helapsed hsnapshot hname htake => exact Trace.step .start htake
  | file htake hcrash hop => exact Trace.step .start hop
  | restart hidle hstart => exact .start
  | crash hcrash hstart => exact Trace.step .start hcrash

/-- The directory goes through the operations of the run. -/
theorem SiteRuns.disk (h : SiteRuns F life files actions site) :
    AtomicFile.Runs tempPath files (actions.filterMap SiteAction.op) site.disk := by
  have hstart : AtomicFile.Runs tempPath files ([].filterMap (@SiteAction.op E H debug))
      (Site.mk life (Disk.init files)).disk := .start
  refine Trace.invariant (fun done (s : Site E H debug) =>
    AtomicFile.Runs tempPath files (done.filterMap SiteAction.op) s.disk) hstart ?_ h
  intro done s a s' _ hs hstep
  have hops : (done ++ [a]).filterMap SiteAction.op =
      done.filterMap SiteAction.op ++ a.op.toList := by
    rw [List.filterMap_append]
    cases ha : a.op with
    | none => rw [List.filterMap_cons_none ha]; rfl
    | some op => rw [List.filterMap_cons_some ha]; rfl
  rw [hops]
  exact Trace.append_iff.mpr ⟨s.disk, hs, hstep.disk⟩

/-! ## What a report says -/

/-- The report is of what the aggregator had added up, when the channel was empty. -/
structure Report.Made (F : Formats τ) (r : Report E H debug) (name : List Char)
    (data : Option Bytes) : Prop where
  drained : r.life.threads.channel.tryRecv = none
  due : ∃ agg, r.life.threads.aggregator.checkReport debug r.now =
    .ok (some r.snapshot.totals, agg)
  workers : r.snapshot.workers = r.life.threads.aggregator.aggregatedMetrics
  name : r.snapshot.filename F = .ok name
  data : F.toString r.snapshot = data

theorem SiteRuns.made (h : SiteRuns F life files actions site) {r : Report E H debug}
    {name : List Char} {data : Option Bytes} (hr : .report r name data ∈ actions) :
    r.Made F name data := by
  refine Trace.invariant (fun done (_ : Site E H debug) => ∀ r name data,
    SiteAction.report r name data ∈ done → r.Made F name data) ?_ ?_ h r name data hr
  · intro r name data hmem
    cases hmem
  · intro done s a s' _ hs hstep r name data hmem
    rcases List.mem_append.mp hmem with hold | hnew
    · exact hs r name data hold
    · obtain rfl := List.mem_singleton.mp hnew
      cases hstep with
      | @report life disk disk' now elapsed totals threads systemNow snapshot _ h helapsed
          hsnapshot hname htake =>
          simp only [MetricsSnapshot.new, Outcome.bind_ok_iff, Outcome.pure_eq,
            Outcome.ok.injEq] at hsnapshot
          obtain ⟨timestamp, -, rfl⟩ := hsnapshot
          cases h with
          | report hempty hreport => exact ⟨hempty, ⟨_, hreport⟩, rfl, hname, rfl⟩

/-- Every event of every worker is in the report, in the counters of the worker since its last
publication, or in snapshots that the channel had no room for; and the totals are the sums. -/
def Report.Accounted (r : Report E H debug) : Prop :=
  r.snapshot.workers.length = r.life.numThreads ∧
  (∀ (i : Fin r.life.numThreads) (c : Counter),
    ((r.snapshot.workers.map fun m => m.value c)[i.val]?).getD 0 + r.life.threads.counter i c +
        lost i c r.life.actions =
      counted r.life.boot.args.batchSize.toNat i c r.life.actions) ∧
  ∀ c, r.snapshot.totals.value c = (r.snapshot.workers.map fun m => m.value c).sum

theorem Report.Made.accounted {r : Report E H debug} {name : List Char} {data : Option Bytes}
    (h : r.Made F name data) : r.Accounted := by
  have haccounts := r.life.runs.accounts
  refine ⟨?_, ?_, ?_⟩
  · rw [h.workers]
    exact haccounts.slots
  · intro i c
    have hbalance := haccounts.balance i c
    have hempty : r.life.threads.inChannel i c = 0 := by
      have hqueue : r.life.threads.channel.queue = [] := Channel.tryRecv_eq_none_iff.mp h.drained
      unfold Threads.inChannel Channel.weigh
      rw [hqueue]
      rfl
    rw [hempty, Nat.add_zero] at hbalance
    rw [h.workers]
    exact hbalance
  · obtain ⟨agg, hdue⟩ := h.due
    rw [h.workers]
    unfold MetricsAggregator.checkReport at hdue
    split at hdue
    · simp only [Outcome.bind_ok_iff, Outcome.pure_eq, Outcome.ok.injEq, Prod.mk.injEq,
        Option.some.injEq] at hdue
      obtain ⟨_, -, totals, hcalc, _, -, rfl, -⟩ := hdue
      exact (calcAggregatedMetrics_value hcalc).1
    · cases hdue

/-! ## What is found -/

/-- Only a report makes the writer take something, and a crash is not an operation of a thread. -/
theorem SiteRuns.file (h : SiteRuns F life files actions site) {op : Op (List Char) UInt8}
    (hop : .file op ∈ actions) : (∀ name data, op ≠ .take name data) ∧ op ≠ .crash := by
  obtain ⟨front, back, rfl⟩ := List.append_of_mem hop
  rw [SiteRuns, List.append_cons, Trace.append_iff] at h
  obtain ⟨s, hfirst, -⟩ := h
  obtain ⟨s₀, -, hstep⟩ := Trace.concat_iff.mp hfirst
  cases hstep with
  | file htake hcrash hstep => exact ⟨htake, hcrash⟩

/-- What was renamed in a run was reported in it. -/
theorem SiteRuns.renamed (h : SiteRuns F life files actions site) {name : List Char}
    {data : Bytes} (hrename : .rename name data ∈ actions.filterMap SiteAction.op) :
    ∃ r, .report r name (some data) ∈ actions ∧ r.Made F name (some data) := by
  obtain ⟨action, haction, hop⟩ := List.mem_filterMap.mp (h.disk.taken hrename)
  cases action with
  | report r name' data' =>
      cases hop
      exact ⟨r, haction, h.made haction⟩
  | file op =>
      cases hop
      exact absurd rfl ((h.file haction).1 _ _)
  | thread => cases hop
  | restart => cases hop
  | crash => cases hop

end Sites

/-- At any moment of any number of lives of the server, whatever failed, was killed or crashed:
a file with the extension `json` was there in the beginning or is the whole text of a report with
its name, in which every event of every worker is accounted for.  And a file that was renamed is
there, until the next one of the same name, unless the machine crashes. -/
theorem metrics_files_whole {τ : Type} (E : Ed25519) (H : Bytes → Hash) (debug : Bool)
    (F : Formats τ) (life : Life E H debug) (files : List Char → Option Bytes)
    (actions : List (SiteAction E H debug)) (site : Site E H debug)
    (hruns : SiteRuns F life files actions site) (name : List Char) (hname : IsJson name) :
    (∀ file, site.disk.files name = some file → files name = some file.data ∨
      ∃ r, .report r name (some file.data) ∈ actions ∧ r.snapshot.filename F = .ok name ∧
        F.toString r.snapshot = some file.data ∧ r.Accounted) ∧
    ∀ pre post data, actions = pre ++ .file (.rename name data) :: post → .crash ∉ actions →
      (∀ data', .file (.rename name data') ∉ post) →
        ∃ file, site.disk.files name = some file ∧ file.data = data := by
  have hvisible : ∀ m, tempPath m ≠ name := fun m => tempPath_not_json m name hname
  refine ⟨?_, ?_⟩
  · intro file hfile
    obtain ⟨-, hversion⟩ := hruns.disk.whole name hvisible file
      (List.mem_append_left _ (Option.mem_toList.mpr hfile))
    rcases mem_versions_iff.mp hversion with hrename | hold
    · obtain ⟨r, hreport, hmade⟩ := hruns.renamed hrename
      exact .inr ⟨r, hreport, hmade.name, hmade.data, hmade.accounted⟩
    · exact .inl hold
  · rintro pre post data rfl hcalm hlast
    have hops : .crash ∉ (pre ++ .file (.rename name data) :: post).filterMap
        (@SiteAction.op E H debug) := by
      intro hcrash
      obtain ⟨action, haction, hop⟩ := List.mem_filterMap.mp hcrash
      cases action with
      | crash => exact hcalm haction
      | file op =>
          cases hop
          exact (hruns.file haction).2 rfl
      | thread => cases hop
      | report r name' data' => cases hop
      | restart => cases hop
    have hlater : ∀ data', .rename name data' ∉ post.filterMap SiteAction.op := by
      intro data' hrename
      obtain ⟨action, haction, hop⟩ := List.mem_filterMap.mp hrename
      cases action with
      | file op =>
          cases hop
          exact hlast data' haction
      | thread => cases hop
      | report r name' data' => cases hop
      | restart => cases hop
      | crash => cases hop
    have hlatest := hruns.disk.latest hops hvisible
    have hsplit : (pre ++ .file (.rename name data) :: post).filterMap
        (@SiteAction.op E H debug) =
          pre.filterMap SiteAction.op ++ .rename name data :: post.filterMap SiteAction.op :=
      List.filterMap_append
    rw [hsplit, head?_versions hlater] at hlatest
    obtain ⟨file, hfile, hdata⟩ := Option.map_eq_some_iff.mp hlatest
    exact ⟨file, hfile, hdata⟩

/-! ## A report, and one that is cut short -/

namespace Sample

def jsonName : List Char := "roughenough-metrics-20231114-221320.json".toList

/-- The timestamp alone. -/
def text : Bytes :=
  "\x7b\"timestamp\":1700000000\x7d".toList.map fun c => UInt8.ofNat c.toNat

def formats : Formats Unit where
  fromSystemTime _ := some 1700000000
  strftimeUtc _ _ := some jsonName
  toString _ := some text

/-- An aggregator of one worker that reports in each turn. -/
def eager : MetricsAggregator := ⟨[WorkerMetrics.empty 0], .fromSecs 0, 1000, 1000⟩

theorem eager_report : ∃ totals, eager.checkReport false 1000 = .ok (some totals, eager) :=
  ⟨_, rfl⟩

theorem eager_life : ∃ life : Life ed25519 digest false, life.actions = [] ∧
    life.threads.channel = .empty ∧ life.threads.aggregator = eager := by
  obtain ⟨l, hlaunch⟩ := (boot.launch 0).start_release (E := ed25519)
  have hstart : boot.Starts ed25519 false ⟨fun _ => l, .empty, eager⟩ := by
    refine ⟨?_, rfl, rfl⟩
    intro i
    rw [Fin.fin_one_eq_zero i]
    exact hlaunch
  exact ⟨⟨1, boot, [], _, ⟨_, hstart, .start⟩⟩, rfl, rfl, rfl⟩

/-- The aggregator reports, and has a file to write. -/
theorem eager_step {life : Life ed25519 digest false} {disk : Disk (List Char) UInt8}
    (hchannel : life.threads.channel = .empty) (hagg : life.threads.aggregator = eager)
    (hidle : disk.writer = .idle) : ∃ r life', SiteStep formats ⟨life, disk⟩
      (.report r jsonName (some text))
      ⟨life', { disk with writer := .queued jsonName (some text) }⟩ ∧
        life'.threads.channel = .empty ∧ life'.threads.aggregator = eager := by
  obtain ⟨n, b, actions, ⟨workers, channel, agg⟩, runs⟩ := life
  obtain rfl : channel = .empty := hchannel
  obtain rfl : agg = eager := hagg
  obtain ⟨totals, hreport⟩ := eager_report
  have hthread : ThreadStep ed25519 digest false (Threads.mk workers .empty eager)
      (.report 1000 (some totals)) ⟨workers, .empty, eager⟩ :=
    .report (Channel.tryRecv_eq_none_iff.mpr rfl) hreport
  exact ⟨_, _, .report () hthread rfl rfl rfl (.take jsonName (some text) hidle), rfl, rfl⟩

/-- A file that nothing goes wrong with, and one whose second byte is not written. -/
def saved : List (Op (List Char) UInt8) := [.create, .write 100, .sync, .rename jsonName text]

def torn : List (Op (List Char) UInt8) := [.create, .write 1, .fail]

theorem saved_runs {disk : Disk (List Char) UInt8}
    (hqueued : disk.writer = .queued jsonName (some text)) :
    ∃ disk', disk'.writer = .idle ∧ Trace (AtomicFile.Step tempPath) disk saved disk' :=
  ⟨_, rfl, (((Trace.step .start (.create hqueued)).step (.write 100 rfl)).step (.sync rfl)).step
    (.rename rfl)⟩

theorem torn_runs {disk : Disk (List Char) UInt8}
    (hqueued : disk.writer = .queued jsonName (some text)) :
    ∃ disk', Trace (AtomicFile.Step tempPath) disk torn disk' :=
  ⟨_, ((Trace.step .start (.create hqueued)).step (.write 1 rfl)).step (.fail fun h => nomatch h)⟩

/-- What happens to a file while the threads stand still. -/
theorem site_of_disk {s₀ : Site ed25519 digest false}
    {actions : List (SiteAction ed25519 digest false)} {life : Life ed25519 digest false}
    {disk disk' : Disk (List Char) UInt8} {ops : List (Op (List Char) UInt8)}
    (hops : ∀ op ∈ ops, (∀ name data, op ≠ .take name data) ∧ op ≠ .crash)
    (h : Trace (SiteStep formats) s₀ actions ⟨life, disk⟩)
    (hdisk : Trace (AtomicFile.Step tempPath) disk ops disk') :
    Trace (SiteStep formats) s₀ (actions ++ ops.map .file) ⟨life, disk'⟩ := by
  induction hdisk with
  | start =>
      rw [List.map_nil, List.append_nil]
      exact h
  | @step done d d' op hrun hlast ih =>
      obtain ⟨htake, hcrash⟩ := hops op (List.mem_append_right _ (List.mem_singleton.mpr rfl))
      have hbefore := ih fun op' hop' => hops op' (List.mem_append_left _ hop')
      rw [List.map_append, ← List.append_assoc]
      exact hbefore.step (.file htake hcrash hlast)

theorem saved_ops : ∀ op ∈ saved, (∀ name data, op ≠ .take name data) ∧ op ≠ .crash := by
  intro op hop
  simp only [saved, List.mem_cons, List.not_mem_nil, or_false] at hop
  rcases hop with rfl | rfl | rfl | rfl <;> exact ⟨(fun _ _ h => nomatch h), fun h => nomatch h⟩

theorem torn_ops : ∀ op ∈ torn, (∀ name data, op ≠ .take name data) ∧ op ≠ .crash := by
  intro op hop
  simp only [torn, List.mem_cons, List.not_mem_nil, or_false] at hop
  rcases hop with rfl | rfl | rfl <;> exact ⟨(fun _ _ h => nomatch h), fun h => nomatch h⟩

end Sample

open Sample

/-- The first of two reports of one second is saved and the second is torn: the first is found. -/
theorem metrics_files_whole_torn : ∃ (life : Life ed25519 digest false)
    (actions : List (SiteAction ed25519 digest false)) (site : Site ed25519 digest false),
    SiteRuns formats life (fun _ => none) actions site ∧
      ∃ file r, site.disk.files jsonName = some file ∧ file.data = text ∧
        .report r jsonName (some text) ∈ actions ∧ r.Accounted := by
  obtain ⟨life, -, hchannel, hagg⟩ := eager_life
  obtain ⟨r₁, life₁, hreport₁, hchannel₁, hagg₁⟩ := @eager_step life (Disk.init fun _ => none)
    hchannel hagg rfl
  obtain ⟨disk₁, hidle, hdisk₁⟩ := @saved_runs
    { Disk.init (fun _ => none) with writer := .queued jsonName (some text) } rfl
  have hsaved := site_of_disk saved_ops (Trace.step .start hreport₁) hdisk₁
  obtain ⟨r₂, life₂, hreport₂, -, -⟩ := eager_step hchannel₁ hagg₁ hidle
  obtain ⟨disk₂, hdisk₂⟩ := @torn_runs
    { disk₁ with writer := .queued jsonName (some text) } rfl
  have htorn := site_of_disk torn_ops (hsaved.step hreport₂) hdisk₂
  refine ⟨life, _, ⟨life₂, disk₂⟩, htorn, ?_⟩
  obtain ⟨hwhole, hlatest⟩ := metrics_files_whole ed25519 digest false formats life
    (fun _ => none) _ _ htorn jsonName rfl
  obtain ⟨file, hfile, hdata⟩ := hlatest
    (.report r₁ jsonName (some text) :: [.create, .write 100, .sync].map .file)
    (.report r₂ jsonName (some text) :: torn.map .file) text rfl (by simp [saved, torn])
    (by simp [torn])
  rcases hwhole file hfile with hold | ⟨r, hreport, -, -, haccounted⟩
  · cases hold
  · rw [hdata] at hreport
    exact ⟨file, r, hfile, hdata, hreport, haccounted⟩

end Roughenough.Server
