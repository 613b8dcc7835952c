/-
# `Roughenough.ReportingServer.Delivery` — reports on their way

`MalfeasanceReport::submit` of the client, `handle_report` and `get_report` of
the server, and `InMemoryStorage` between them.  A submission posts its report
until there is an answer that is no error, or `retries` posts have failed after
the first; in between it rests, for ten seconds first and for twice as long
each time.

    submit          the loop, as a policy: what is done about a failed post
    handle          a POST, and its answer
    getReport       a GET

Submissions of any number of clients meet in any order, posts and answers may be
late or lost, and a post that was answered too late has been handled all the
same (`Base.Delivery`).  What is promised then is

    reports_delivered

Which statuses the HTTP client hands back as an error is its own affair, a
parameter here; it is documented to do so with those from 400 to 599
(`ErrorStatuses`).  The server draws an id for each report that it stores, and no
id twice.
-/
import Roughenough.Base.Delivery
import Roughenough.ReportingServer.Validation

namespace Roughenough.ReportingServer

open Roughenough.Base Roughenough.Base.Delivery Roughenough.Protocol Roughenough.Merkle
open Roughenough.Client

/-! ## The storage -/

/-- `HashMap::get`. -/
def Storage.get (storage : Storage) (id : String) : Option StoredReport :=
  (storage.find? fun x => x.1 = id).map Prod.snd

/-- `get_report`: the report, or the status. -/
def getReport (storage : Storage) (id : String) : Outcome Nat StoredReport :=
  match storage.get id with
  | some stored => .ok stored
  | none => .err 404

theorem getReport_ok_iff {storage : Storage} {id : String} {stored : StoredReport} :
    getReport storage id = .ok stored ↔ storage.get id = some stored := by
  unfold getReport
  cases storage.get id with
  | none =>
      constructor
      · intro h
        cases h
      · intro h
        cases h
  | some s => rw [Outcome.ok.injEq, Option.some.injEq]

theorem Storage.get_insert_self (storage : Storage) (id : String) (stored : StoredReport) :
    (storage.insert id stored).get id = some stored := by
  unfold get insert
  rw [List.find?_cons_of_pos (by exact decide_eq_true rfl)]
  rfl

theorem Storage.get_insert_of_ne (storage : Storage) {id id' : String} (stored : StoredReport)
    (h : id' ≠ id) : (storage.insert id stored).get id' = storage.get id' := by
  unfold get insert
  rw [List.find?_cons_of_neg (by simpa using h.symm), List.find?_filter]
  congr 2
  funext x
  by_cases hx : x.1 = id'
  · rw [hx]
    simpa using h
  · simp [hx]

section Stored

variable {B : Codec} {V : Verify} {H : Bytes → Hash}

theorem handleReport_of_ok {storage : Storage} {x : Submission}
    (h : validateReport B V H x.report = .ok ()) : handleReport B V H storage x =
      (storage.insert x.id ⟨x.id, x.now, x.sourceIp, x.report⟩, .ok (201, x.id)) := by
  unfold handleReport
  rw [h]

theorem handleReport_of_ne {storage : Storage} {x : Submission}
    (h : validateReport B V H x.report ≠ .ok ()) : (handleReport B V H storage x).1 = storage ∧
      ∀ r, (handleReport B V H storage x).2 ≠ .ok r := by
  unfold handleReport
  split
  · exact absurd ‹_› h
  · refine ⟨rfl, ?_⟩
    intro r h
    cases h
  · refine ⟨rfl, ?_⟩
    intro r h
    cases h

/-- What a server has stored, when no id was drawn twice: what it was sent and accepted. -/
theorem get_storageAfter {xs : List Submission} (hids : (xs.map Submission.id).Nodup)
    (id : String) (stored : StoredReport) :
    (storageAfter B V H xs).get id = some stored ↔ ∃ x ∈ xs, x.id = id ∧
      validateReport B V H x.report = .ok () ∧
      (⟨x.id, x.now, x.sourceIp, x.report⟩ : StoredReport) = stored := by
  induction xs using List.reverseRecOn with
  | nil =>
      constructor
      · intro h
        cases h
      · rintro ⟨x, hx, -⟩
        cases hx
  | append_singleton xs x ih =>
      have hlast : storageAfter B V H (xs ++ [x]) =
          (handleReport B V H (storageAfter B V H xs) x).1 := by
        unfold storageAfter
        rw [List.foldl_append]
        rfl
      rw [List.map_append, List.map_singleton] at hids
      obtain ⟨hbefore, -, hfresh⟩ := List.nodup_append.mp hids
      rw [hlast]
      by_cases hok : validateReport B V H x.report = .ok ()
      · rw [handleReport_of_ok hok]
        by_cases hid : id = x.id
        · subst hid
          rw [Storage.get_insert_self, Option.some.injEq]
          constructor
          · intro h
            exact ⟨x, List.mem_append_right _ List.mem_cons_self, rfl, hok, h⟩
          · rintro ⟨y, hy, hyid, -, rfl⟩
            rcases List.mem_append.mp hy with hold | hnew
            · exact absurd hyid (hfresh y.id (List.mem_map_of_mem hold) x.id List.mem_cons_self)
            · rw [List.mem_singleton.mp hnew]
        · rw [Storage.get_insert_of_ne _ _ hid, ih hbefore]
          constructor
          · rintro ⟨y, hy, h⟩
            exact ⟨y, List.mem_append_left _ hy, h⟩
          · rintro ⟨y, hy, hyid, h⟩
            rcases List.mem_append.mp hy with hold | hnew
            · exact ⟨y, hold, hyid, h⟩
            · rw [List.mem_singleton.mp hnew] at hyid
              exact absurd hyid.symm hid
      · rw [(handleReport_of_ne hok).1, ih hbefore]
        constructor
        · rintro ⟨y, hy, h⟩
          exact ⟨y, List.mem_append_left _ hy, h⟩
        · rintro ⟨y, hy, hyid, hvalid, h⟩
          rcases List.mem_append.mp hy with hold | hnew
          · exact ⟨y, hold, hyid, hvalid, h⟩
          · rw [List.mem_singleton.mp hnew] at hvalid
            exact absurd hvalid hok

end Stored

/-! ## The loop of `submit` -/

/-- `attempts` and `backoff_secs`. -/
structure Backoff where
  attempts : UInt32
  backoffSecs : UInt64

def minBackoffSecs : UInt64 := 10

/-- The rest of the loop behind a failed post: `backoff_secs` is doubled after it was slept for. -/
def submit (debug : Bool) (retries : UInt32) : Policy Backoff where
  first := ⟨0, minBackoffSecs⟩
  failed b :=
    match addU32 debug b.attempts 1 with
    | .ok attempts =>
        if attempts > retries then .giveUp
        else .rest b.backoffSecs.toNat
          (match mulU64 debug b.backoffSecs 2 with
          | .ok backoffSecs => some ⟨attempts, backoffSecs⟩
          | .err _ => none
          | .panic => none)
    | .err _ => .panic
    | .panic => .panic

section Loop

variable {debug : Bool} {retries : UInt32} {b b' : Backoff} {n secs : Nat}

theorem submit_giveUp (h : (submit debug retries).failed b = .giveUp) :
    b.attempts + 1 > retries := by
  simp only [submit] at h
  split at h
  · next attempts hadd =>
      obtain ⟨-, rfl⟩ := addU32_ok_iff.mp hadd
      split at h
      · assumption
      · cases h
  · cases h
  · cases h

theorem submit_rest {next : Option Backoff}
    (h : (submit debug retries).failed b = .rest secs next) :
    ¬ b.attempts + 1 > retries ∧ secs = b.backoffSecs.toNat ∧
      ∀ b', next = some b' → b' = ⟨b.attempts + 1, b.backoffSecs * 2⟩ := by
  simp only [submit] at h
  split at h
  · next attempts hadd =>
      obtain ⟨-, rfl⟩ := addU32_ok_iff.mp hadd
      split at h
      · cases h
      · next hgo =>
          obtain ⟨rfl, rfl⟩ := Verdict.rest.inj h
          refine ⟨hgo, rfl, ?_⟩
          intro b' hb'
          split at hb'
          · next backoffSecs hmul =>
              obtain ⟨-, rfl⟩ := mulU64_ok_iff.mp hmul
              exact (Option.some.inj hb').symm
          · cases hb'
          · cases hb'
  · cases h
  · cases h

/-- After `n` failures: `n` attempts, and the first rest doubled `n` times. -/
theorem submit_after (h : (submit debug retries).after n = some b) :
    b = ⟨UInt32.ofNat n, UInt64.ofNat (10 * 2 ^ n)⟩ ∧
      (retries.toNat + 1 < 2 ^ 32 → n ≤ retries.toNat) := by
  induction n generalizing b with
  | zero =>
      cases h
      exact ⟨rfl, fun _ => Nat.zero_le _⟩
  | succ n ih =>
      obtain ⟨b₀, hb₀, hgo⟩ := Option.bind_eq_some_iff.mp h
      obtain ⟨rfl, hle⟩ := ih hb₀
      unfold Policy.goOn at hgo
      split at hgo
      · next secs next hrest =>
          obtain ⟨hmore, -, hnext⟩ := submit_rest hrest
          have hattempts : UInt32.ofNat n + 1 = UInt32.ofNat (n + 1) := (UInt32.ofNat_add n 1).symm
          refine ⟨?_, ?_⟩
          · rw [hnext b hgo, hattempts, Nat.pow_succ, ← Nat.mul_assoc, UInt64.ofNat_mul (10 * 2 ^ n)]
            rfl
          · intro hsmall
            have hn := hle hsmall
            rw [hattempts, gt_iff_lt, UInt32.lt_iff_toNat_lt, UInt32.toNat_ofNat'] at hmore
            omega
      · cases hgo
      · cases hgo

end Loop

/-! ## Submissions and a server -/

/-- What the server finds and draws when a POST arrives. -/
structure Receipt where
  sourceIp : String
  id : String
  now : Int

/-- The status and the body of an answer; a handler that panicked does not answer. -/
def answerOf : Outcome (Nat × String) (Nat × String) → Option (Nat × String)
  | .ok answer => some answer
  | .err answer => some answer
  | .panic => none

/-- The calls of `submit`: what is submitted, and with how many retries. -/
structure Submissions where
  reports : Nat → MalfeasanceReport
  retries : Nat → UInt32

def Submissions.arrival (x : Submissions) (a : Nat × Receipt) : Submission :=
  ⟨x.reports a.1, a.2.sourceIp, a.2.id, a.2.now⟩

section System

variable (B : Codec) (V : Verify) (H : Bytes → Hash) (statusOk : Nat → Bool) (debug : Bool)
  (x : Submissions)

/-- `handle_report` behind its route. -/
def handle (storage : Storage) (report : MalfeasanceReport) (receipt : Receipt) :
    Storage × Option (Nat × String) :=
  let r := handleReport B V H storage ⟨report, receipt.sourceIp, receipt.id, receipt.now⟩
  (r.1, answerOf r.2)

/-- `agent.post(url)` is `Ok` for the statuses of `statusOk`. -/
def system : System Storage MalfeasanceReport Receipt (Nat × String) Backoff where
  handle := handle B V H
  request := x.reports
  policy c := submit debug (x.retries c)
  accepts answer := statusOk answer.1

/-- The errors of a client and those of a server come back as errors. -/
def ErrorStatuses (statusOk : Nat → Bool) : Prop :=
  ∀ status, 400 ≤ status → status < 600 → statusOk status = false

variable {B V H statusOk debug x}

theorem serve_eq (arrivals : List (Nat × Receipt)) :
    (system B V H statusOk debug x).serve [] arrivals =
      storageAfter B V H (arrivals.map x.arrival) := by
  unfold System.serve storageAfter
  rw [List.foldl_map]
  rfl

/-- An answer that is no error is one to a report that was accepted. -/
theorem handle_accepted {storage : Storage} {report : MalfeasanceReport} {receipt : Receipt}
    {answer : Nat × String} (hstatus : ErrorStatuses statusOk)
    (h : (handle B V H storage report receipt).2 = some answer)
    (haccepts : statusOk answer.1 = true) : validateReport B V H report = .ok () := by
  cases hvalid : validateReport B V H report with
  | ok u => rfl
  | err e =>
      -- the answer is a 400
      simp only [handle, handleReport, hvalid, answerOf, Option.some.injEq] at h
      subst h
      rw [hstatus 400 (by decide) (by decide)] at haccepts
      cases haccepts
  | panic =>
      simp only [handle, handleReport, hvalid, answerOf] at h
      cases h

/-- The ids that were drawn in a run. -/
def drawnIds (exchanges : List (Exchange Receipt (Nat × String))) : List String :=
  (arrivals exchanges).map fun a => a.2.id

end System

/-- Whatever is lost or late and however submissions meet, as long as no id is drawn twice and the
HTTP client takes the statuses of errors for errors: a GET finds exactly the reports that arrived
and were accepted, as they arrived.  A submission that ended well is one of them; its report arrived
at most once for each of its posts, of which there are at most `retries + 1`, and exactly so many if
it failed; its rests are of 10, 20, 40, … seconds, as a `u64` has them. -/
theorem reports_delivered (B : Codec) (V : Verify) (H : Bytes → Hash) (statusOk : Nat → Bool)
    (debug : Bool) (x : Submissions) (exchanges : List (Exchange Receipt (Nat × String)))
    (w : World Storage Backoff (Nat × String)) (hstatus : ErrorStatuses statusOk)
    (hrun : (system B V H statusOk debug x).Runs [] exchanges w)
    (hids : (drawnIds exchanges).Nodup) :
    (∀ id stored, getReport w.service id = .ok stored ↔ ∃ c receipt,
      (c, receipt) ∈ arrivals exchanges ∧ receipt.id = id ∧
        validateReport B V H (x.reports c) = .ok () ∧
        (⟨id, receipt.now, receipt.sourceIp, x.reports c⟩ : StoredReport) = stored) ∧
    ∀ c, (w.callers c = .done → ∃ id stored, getReport w.service id = .ok stored ∧
        stored.report = x.reports c) ∧
      arrived c exchanges ≤ posts c exchanges ∧
      ((x.retries c).toNat + 1 < 2 ^ 32 → posts c exchanges ≤ (x.retries c).toNat + 1 ∧
        (w.callers c = .gaveUp → posts c exchanges = (x.retries c).toNat + 1)) ∧
      ∀ k secs, (rests c exchanges)[k]? = some secs → secs = 10 * 2 ^ k % 2 ^ 64 := by
  have hstored : ∀ id stored, getReport w.service id = .ok stored ↔ ∃ c receipt,
      (c, receipt) ∈ arrivals exchanges ∧ receipt.id = id ∧
        validateReport B V H (x.reports c) = .ok () ∧
        (⟨id, receipt.now, receipt.sourceIp, x.reports c⟩ : StoredReport) = stored := by
    intro id stored
    have hdistinct : (((arrivals exchanges).map x.arrival).map Submission.id).Nodup := by
      rw [List.map_map]
      exact hids
    rw [getReport_ok_iff, hrun.service_eq, serve_eq, get_storageAfter hdistinct]
    constructor
    · rintro ⟨y, hy, rfl, hvalid, rfl⟩
      obtain ⟨⟨c, receipt⟩, ha, rfl⟩ := List.mem_map.mp hy
      exact ⟨c, receipt, ha, rfl, hvalid, rfl⟩
    · rintro ⟨c, receipt, ha, rfl, hvalid, rfl⟩
      exact ⟨_, List.mem_map_of_mem ha, rfl, hvalid, rfl⟩
  refine ⟨hstored, fun c => ⟨?_, hrun.arrived c, ?_, ?_⟩⟩
  · intro hdone
    obtain ⟨answer, ⟨pre, receipt, hpre, hanswer⟩, haccepts⟩ := hrun.done hdone
    have harrived : (c, receipt) ∈ arrivals exchanges :=
      hpre.subset (List.mem_append_right _ List.mem_cons_self)
    exact ⟨receipt.id, _, (hstored _ _).mpr ⟨c, receipt, harrived, rfl,
      handle_accepted hstatus hanswer haccepts, rfl⟩, rfl⟩
  · intro hsmall
    have hfollows := hrun.follows c
    have hposts : posts c exchanges ≤ (x.retries c).toNat + 1 := by
      rcases hfollows.posted with ⟨b, hb⟩ | ⟨n, b, hn, hb⟩
      · exact Nat.le_succ_of_le ((submit_after hb).2 hsmall)
      · rw [hn]
        exact Nat.succ_le_succ ((submit_after hb).2 hsmall)
    refine ⟨hposts, ?_⟩
    intro hgaveUp
    rw [hgaveUp] at hfollows
    obtain ⟨n, b, hn, hb, hfailed, -⟩ := hfollows
    obtain ⟨rfl, hle⟩ := submit_after hb
    have hover := submit_giveUp hfailed
    have hle := hle hsmall
    have hattempts : UInt32.ofNat n + 1 = UInt32.ofNat (n + 1) := (UInt32.ofNat_add n 1).symm
    rw [hattempts, gt_iff_lt, UInt32.lt_iff_toNat_lt, UInt32.toNat_ofNat'] at hover
    omega
  · intro k secs hk
    obtain ⟨b, next, hb, hfailed⟩ := (hrun.follows c).rested hk
    obtain ⟨rfl, -⟩ := submit_after hb
    rw [(submit_rest hfailed).2.1]
    exact UInt64.toNat_ofNat'

/-! ## A report that is stored twice -/

namespace LateAnswer

/-- One submission, with one retry. -/
def submissions (report : MalfeasanceReport) : Submissions := ⟨fun _ => report, fun _ => 1⟩

def receipt (id : String) (now : Int) : Receipt := ⟨"127.0.0.1", id, now⟩

def statusOk (status : Nat) : Bool := status < 400 || 600 ≤ status

theorem statusOk_error : ErrorStatuses statusOk := by
  intro status hlow hhigh
  simp only [statusOk, Bool.or_eq_false_iff, decide_eq_false_iff_not]
  omega

/-- The first answer is late. -/
def exchanges : List (Exchange Receipt (Nat × String)) :=
  [.post 0, .arrive 0 0 (receipt "a" 1), .timeOut 0, .rest 0 10, .post 0,
    .arrive 0 1 (receipt "b" 2), .answer 0 (201, "b")]

variable {B : Codec} {V : Verify} {H : Bytes → Hash} {report : MalfeasanceReport}

theorem handle_of_ok (h : validateReport B V H report = .ok ()) (storage : Storage) (r : Receipt) :
    handle B V H storage report r =
      (storage.insert r.id ⟨r.id, r.now, r.sourceIp, report⟩, some (201, r.id)) := by
  unfold handle
  rw [handleReport_of_ok h]
  rfl

theorem runs (h : validateReport B V H report = .ok ()) :
    ∃ w, (system B V H statusOk true (submissions report)).Runs [] exchanges w ∧
      w.callers 0 = .done := by
  have hanswer : ((0, 1), (201, "b")) ∈ (handle B V H
      (handle B V H [] report (receipt "a" 1)).1 report
      (receipt "b" 2)).2.toList.map (((0, 1), ·)) := by
    rw [handle_of_ok h]
    exact List.mem_cons_self
  have hposted : (system B V H statusOk true (submissions report)).Runs [] [.post 0] _ :=
    Trace.step .start (.post rfl)
  have harrived := hposted.step (.arrive (receipt "a" 1) List.mem_cons_self)
  have hlate := harrived.step (.timeOut (c := 0) rfl)
  have hrested := hlate.step (.rest (c := 0) rfl)
  have hagain := hrested.step (.post (c := 0) rfl)
  have harrivedAgain := hagain.step (.arrive (receipt "b" 2) List.mem_cons_self)
  have hanswered := harrivedAgain.step (.answer (c := 0) (n := 1) rfl rfl
    (List.mem_append_left _ hanswer))
  exact ⟨_, hanswered, rfl⟩

end LateAnswer

open Network Orderly
open LateAnswer (submissions receipt statusOk statusOk_error)

/-- The client was answered once, and both posts were handled. -/
theorem reports_delivered_twice : ∃ w : World Storage Backoff (Nat × String),
    (system base64 verify digest statusOk true (submissions report)).Runs []
      LateAnswer.exchanges w ∧
    getReport w.service "a" = .ok ⟨"a", 1, "127.0.0.1", report⟩ ∧
    getReport w.service "b" = .ok ⟨"b", 2, "127.0.0.1", report⟩ ∧
    w.callers 0 = .done := by
  have hvalid : validateReport base64 verify digest report = .ok () :=
    validateReport_ok_iff.mpr ⟨Nat.le_refl 2, _, report_observed⟩
  obtain ⟨w, hrun, hdone⟩ := LateAnswer.runs hvalid
  obtain ⟨hstored, -⟩ := reports_delivered base64 verify digest statusOk true
    (submissions report) LateAnswer.exchanges w statusOk_error hrun (by decide)
  refine ⟨w, hrun, ?_, ?_, hdone⟩
  · exact (hstored _ _).mpr ⟨0, receipt "a" 1, List.mem_cons_self, rfl, hvalid, rfl⟩
  · exact (hstored _ _).mpr ⟨0, receipt "b" 2, List.mem_cons_of_mem _ List.mem_cons_self, rfl,
      hvalid, rfl⟩

end Roughenough.ReportingServer
