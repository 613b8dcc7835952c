/-
# `Roughenough.Client.Retry` — the retry loop of the command line client

`query_multiple_servers` of `main.rs`: measure, check causality, and measure
again while there are violations and retries left.

    max_attempts = 1 + causality_violation_retries          in `u8`
    attempt      clients_from_list, MeasurementSequence::new, run    or exit(-1)
                 last().unwrap(), validate_causality, display_violation, reports
    no violation in an attempt                              its last midpoint
    violations in all                                       exit(1), or with
                                                            --allow-untrusted-time
                                                            the last midpoint

The loop is `retry` of `Base.Retry`.  It does what it should when nothing on
the way panics: 255 retries make 256 attempts, which `u8` does not hold; no
rounds make no measurements, of which there is no last; and the check and the
display of violations have ranges of their own.
-/
import Roughenough.Base.Retry
import Roughenough.Client.Display

namespace Roughenough.Client

open Roughenough.Base Roughenough.Protocol Roughenough.Merkle MeasurementSequence
open ResponseValidator

/-! ## The loop -/

/-- The argument of `std::process::exit`. -/
abbrev ExitCode : Type := Int

/-- What the world contributes to one attempt: what `clients_from_list` makes of its choice of
servers and their addresses, or the text of its error, and the network. -/
structure Attempt where
  clients : Outcome String (List Client)
  exchanges : Nat → Exchange

/-- What the loop reads of the server list. -/
structure ServerList where
  reportingUrl : Option String

/-- `unwrap_or_else` with a log line and `exit(-1)`. -/
def exitOnErr {ε α : Type} (x : Outcome ε α) : Outcome ExitCode α := x.mapErr fun _ => -1

/-- A call inside a function that can exit. -/
def ofCall {α : Type} (x : Call α) : Outcome ExitCode α := x.mapErr Empty.elim

section Query

variable {T : Type} (V : Verify) (H : Bytes → Hash) (J : Jiff T) (B : Codec) (debug : Bool)
  (args : Args)

/-- An attempt as far as `run`; whatever fails exits. -/
def measure (a : Attempt) : Outcome ExitCode (List Measurement) := do
  let clients ← exitOnErr a.clients
  let sequence ← exitOnErr (MeasurementSequence.new clients)
  exitOnErr (sequence.run V H a.exchanges args.numMeasurementRounds)

def displayViolations (violations : List CausalityViolation) : Call Unit :=
  violations.forM fun violation => do
    let _ ← displayViolation J debug violation
    pure ()

/-- What becomes of a report that is submitted is logged, and nothing else. -/
def sendReports (servers : ServerList) (violations : List CausalityViolation) : Call Unit :=
  if args.sendReport = true ∧ servers.reportingUrl.isSome = true then
    violations.forM fun violation => do
      let _ ← MalfeasanceReport.fromViolation B violation
      pure ()
  else pure ()

/-- The rest of an attempt: the last midpoint, and whether there were no violations.  Without
any the code returns before the two loops, which then have nothing to do. -/
def assess (servers : ServerList) (measurements : List Measurement) : Call (UInt64 × Bool) := do
  let last ← Outcome.orPanic measurements.getLast?
  let violations ← validateCausality debug measurements
  displayViolations J debug violations
  sendReports B args servers violations
  pure (last.midpoint, violations.isEmpty)

def attemptOnce (servers : ServerList) (a : Attempt) : Outcome ExitCode (UInt64 × Bool) := do
  let measurements ← measure V H args a
  ofCall (assess J B debug args servers measurements)

/-- All attempts had violations. -/
def giveUp (lastMidpoint : UInt64) : Outcome ExitCode UInt64 :=
  if args.allowUntrustedTime then .ok lastMidpoint else .err 1

/-- `query_multiple_servers`, for a server list that was loaded or was not. -/
def queryMultipleServers (serverList : Option ServerList) (attempts : Nat → Attempt) :
    Ended ExitCode UInt64 :=
  match serverList with
  | none => ⟨0, .err (-1)⟩
  | some servers =>
      match addU8 debug 1 args.causalityViolationRetries with
      | .ok maxAttempts =>
          retry (fun attempt => attemptOnce V H J B debug args servers (attempts attempt))
            (giveUp args) maxAttempts.toNat 0 0
      | .err e => e.elim
      | .panic => ⟨0, .panic⟩

end Query

/-! ## What it should do -/

section Contract

variable (V : Verify) (H : Bytes → Hash) (debug : Bool) (args : Args)

/-- The attempt has measurements without violations, the last of them at `midpoint`. -/
def Clean (a : Attempt) (midpoint : UInt64) : Prop :=
  ∃ ms m, measure V H args a = .ok ms ∧ ms.getLast? = some m ∧ m.midpoint = midpoint ∧
    validateCausality debug ms = .ok []

/-- The attempt has measurements with violations, the last of them at `midpoint`. -/
def Violated (a : Attempt) (midpoint : UInt64) : Prop :=
  ∃ ms m v vs, measure V H args a = .ok ms ∧ ms.getLast? = some m ∧ m.midpoint = midpoint ∧
    validateCausality debug ms = .ok (v :: vs)

/-- All attempts before number `k` had violations. -/
def Reached (attempts : Nat → Attempt) (k : Nat) : Prop :=
  ∀ j, 1 ≤ j → j < k → ∃ midpoint, Violated V H debug args (attempts j) midpoint

/-- What the loop is for. -/
structure Retries (attempts : Nat → Attempt) (e : Ended ExitCode UInt64) : Prop where
  /-- The bound on the attempts is computed without a panic or a wrap. -/
  exact : ∃ maxAttempts, addU8 debug 1 args.causalityViolationRetries = .ok maxAttempts ∧
    maxAttempts.toNat = 1 + args.causalityViolationRetries.toNat
  returns : e.result ≠ .panic
  bounded : e.attempts ≤ args.causalityViolationRetries.toNat + 1
  /-- No attempt is made after a clean one. -/
  stops : ∀ k midpoint, 1 ≤ k → k < e.attempts →
    ¬ Clean V H debug args (attempts k) midpoint
  /-- The first clean attempt gives the time. -/
  clean : ∀ k midpoint, 1 ≤ k → k ≤ args.causalityViolationRetries.toNat + 1 →
    Reached V H debug args attempts k → Clean V H debug args (attempts k) midpoint →
      e = ⟨k, .ok midpoint⟩
  /-- An attempt without measurements is an error. -/
  failed : ∀ k code, 1 ≤ k → k ≤ args.causalityViolationRetries.toNat + 1 →
    Reached V H debug args attempts k → measure V H args (attempts k) = .err code →
      code ≠ 0 ∧ e = ⟨k, .err code⟩
  /-- Violations in all attempts are an error, unless the user asks for the last midpoint. -/
  exhausted : Reached V H debug args attempts (args.causalityViolationRetries.toNat + 2) →
    if args.allowUntrustedTime then ∃ midpoint,
      Violated V H debug args (attempts (args.causalityViolationRetries.toNat + 1)) midpoint ∧
        e = ⟨args.causalityViolationRetries.toNat + 1, .ok midpoint⟩
    else ∃ code, code ≠ 0 ∧ e = ⟨args.causalityViolationRetries.toNat + 1, .err code⟩

/-- Nothing behind the measurements of the attempt panics: there are rounds, the bounds stay
in `u64` where the build insists on it, and the violations can be shown. -/
def Assessable (a : Attempt) : Prop :=
  ∀ ms, measure V H args a = .ok ms → args.numMeasurementRounds ≠ 0 ∧
    (debug = true → Measurement.InRange ms) ∧
    ∀ vs, validateCausality debug ms = .ok vs → ∀ v ∈ vs, v.Showable

end Contract

/-! ## One attempt -/

section Attempts

variable {T : Type} {V : Verify} {H : Bytes → Hash} {J : Jiff T} {B : Codec} {debug : Bool}
  {args : Args} {servers : ServerList} {a : Attempt}

theorem measure_ok {ms : List Measurement} (h : measure V H args a = .ok ms) :
    ∃ s : MeasurementSequence, s.run V H a.exchanges args.numMeasurementRounds = .ok ms := by
  simp only [measure, Outcome.bind_ok_iff, exitOnErr, Outcome.mapErr_ok_iff] at h
  obtain ⟨_, -, s, -, hrun⟩ := h
  exact ⟨s, hrun⟩

/-- The attempt has servers and a transport that answer, with a result or an error. -/
def Attempt.Answers (a : Attempt) : Prop :=
  a.clients ≠ .panic ∧ ∀ k, MeasurementSequence.Answers (a.exchanges k)

theorem measure_ne_panic (ha : a.Answers) : measure V H args a ≠ .panic := by
  refine Outcome.bind_ne_panic (Outcome.mapErr_ne_panic ha.1) ?_
  intro clients _
  refine Outcome.bind_ne_panic (Outcome.mapErr_ne_panic ?_) ?_
  · unfold MeasurementSequence.new
    split
    · exact Outcome.err_ne_panic _
    · exact Outcome.ok_ne_panic _
  · intro s _
    exact Outcome.mapErr_ne_panic (run_ne_panic s ha.2 _)

/-- Whatever fails before the measurements are there exits with -1. -/
theorem measure_err {code : ExitCode} (h : measure V H args a = .err code) : code = -1 := by
  simp only [measure, Outcome.bind_err_iff, exitOnErr, Outcome.mapErr_err_iff] at h
  rcases h with ⟨_, -, rfl⟩ | ⟨_, -, ⟨_, -, rfl⟩ | ⟨_, -, _, -, rfl⟩⟩
  · rfl
  · rfl
  · rfl

/-- There is a last measurement when there are rounds. -/
theorem measure_getLast {ms : List Measurement} (h : measure V H args a = .ok ms) :
    (∃ m, ms.getLast? = some m) ↔ args.numMeasurementRounds ≠ 0 := by
  obtain ⟨s, hrun⟩ := measure_ok h
  have hlength := run_length hrun
  have henough := s.enough
  rw [← Option.isSome_iff_exists, List.getLast?_isSome, ← List.length_pos_iff, hlength,
    Nat.mul_pos_iff_of_pos_left (by omega), Nat.pos_iff_ne_zero]

/-- The measurements of a violation have keys, and a report can be made of it. -/
theorem fromViolation_returns {ms : List Measurement} (h : measure V H args a = .ok ms)
    {vs : List CausalityViolation} (hcausal : validateCausality debug ms = .ok vs)
    {v : CausalityViolation} (hv : v ∈ vs) :
    ∃ report, MalfeasanceReport.fromViolation B v = .ok report := by
  obtain ⟨s, hrun⟩ := measure_ok h
  obtain ⟨i, j, -, hi, hj⟩ := validateCausality_isPair hcausal v hv
  obtain ⟨K, hK⟩ := run_keys hrun _ (List.mem_of_getElem? hi)
  obtain ⟨K', hK'⟩ := run_keys hrun _ (List.mem_of_getElem? hj)
  exact ⟨_, MalfeasanceReport.fromViolation_of_entries (ReportEntry.fromMeasurement_eq hK)
    (ReportEntry.fromMeasurement_eq hK')⟩

theorem displayViolations_ok_iff (hJ : J.Ranged) {ms : List Measurement}
    {vs : List CausalityViolation} (hcausal : validateCausality debug ms = .ok vs) {u : Unit} :
    displayViolations J debug vs = .ok u ↔ ∀ v ∈ vs, v.Showable := by
  rw [displayViolations, Outcome.forM_ok_iff]
  refine forall₂_congr fun v hv => ?_
  obtain ⟨i, j, -, mi, mj, -, -, hnew⟩ := validateCausality_made hcausal v hv
  rw [← displayViolation_ok_iff hJ hnew, Outcome.bind_ok_iff]
  exact exists_congr fun _ => and_iff_left rfl

theorem sendReports_ok {ms : List Measurement} (h : measure V H args a = .ok ms)
    {vs : List CausalityViolation} (hcausal : validateCausality debug ms = .ok vs) :
    sendReports B args servers vs = .ok () := by
  unfold sendReports
  split
  · refine Outcome.forM_ok_iff.mpr fun v hv => ?_
    obtain ⟨report, hreport⟩ : ∃ report, MalfeasanceReport.fromViolation B v = .ok report :=
      fromViolation_returns h hcausal hv
    rw [hreport]
    rfl
  · rfl

/-- What an assessment returns. -/
theorem assess_ok_iff (hJ : J.Ranged) {ms : List Measurement}
    (h : measure V H args a = .ok ms) {midpoint : UInt64} {settled : Bool} :
    assess J B debug args servers ms = .ok (midpoint, settled) ↔
      ∃ m vs, ms.getLast? = some m ∧ m.midpoint = midpoint ∧
        validateCausality debug ms = .ok vs ∧ (∀ v ∈ vs, v.Showable) ∧
        vs.isEmpty = settled := by
  simp only [assess, Outcome.bind_ok_iff, Outcome.orPanic_ok_iff, Outcome.pure_eq,
    Outcome.ok.injEq, Prod.mk.injEq]
  constructor
  · rintro ⟨m, hm, vs, hvs, _, hshow, _, -, hmid, hsettled⟩
    exact ⟨m, vs, hm, hmid, hvs, (displayViolations_ok_iff hJ hvs).mp hshow, hsettled⟩
  · rintro ⟨m, vs, hm, hmid, hvs, hshow, hsettled⟩
    exact ⟨m, hm, vs, hvs, (), (displayViolations_ok_iff hJ hvs).mpr hshow, (),
      sendReports_ok h hvs, hmid, hsettled⟩

/-- It returns for an attempt that is assessable. -/
theorem assess_returns_iff (hJ : J.Ranged) {ms : List Measurement}
    (h : measure V H args a = .ok ms) :
    assess J B debug args servers ms ≠ .panic ↔ Assessable V H debug args a := by
  rw [call_ne_panic_iff]
  constructor
  · rintro ⟨⟨midpoint, settled⟩, hok⟩
    obtain ⟨m, vs, hm, -, hvs, hshow, -⟩ := (assess_ok_iff hJ h).mp hok
    intro ms' h'
    cases h.symm.trans h'
    refine ⟨(measure_getLast h).mp ⟨m, hm⟩, validateCausality_returns_iff.mp ⟨vs, hvs⟩, ?_⟩
    intro vs' hvs'
    cases hvs.symm.trans hvs'
    exact hshow
  · intro hassess
    obtain ⟨hrounds, hrange, hshow⟩ := hassess ms h
    obtain ⟨m, hm⟩ := (measure_getLast h).mpr hrounds
    obtain ⟨vs, hvs⟩ := validateCausality_returns_iff.mpr hrange
    exact ⟨_, (assess_ok_iff hJ h).mpr ⟨m, vs, hm, rfl, hvs, hshow vs hvs, rfl⟩⟩

/-! ### What an attempt asks for -/

theorem attemptOnce_err_iff {code : ExitCode} :
    attemptOnce V H J B debug args servers a = .err code ↔ measure V H args a = .err code := by
  rw [attemptOnce, Outcome.bind_err_iff]
  constructor
  · rintro (h | ⟨ms, -, h⟩)
    · exact h
    · obtain ⟨e, -⟩ := Outcome.mapErr_err_iff.mp h
      exact e.elim
  · exact Or.inl

theorem attemptOnce_ok_iff {r : UInt64 × Bool} :
    attemptOnce V H J B debug args servers a = .ok r ↔ ∃ ms, measure V H args a = .ok ms ∧
      assess J B debug args servers ms = .ok r := by
  rw [attemptOnce, Outcome.bind_ok_iff]
  exact exists_congr fun ms => and_congr_right fun _ => Outcome.mapErr_ok_iff

/-- An attempt does not panic when it is assessable. -/
theorem attemptOnce_returns_iff (hJ : J.Ranged) (ha : a.Answers) :
    attemptOnce V H J B debug args servers a ≠ .panic ↔ Assessable V H debug args a := by
  rcases h : measure V H args a with ms | code | _
  · rw [← assess_returns_iff hJ h, attemptOnce, h]
    exact not_congr Outcome.mapErr_panic_iff
  · refine ⟨fun _ ms h' => ?_, fun _ => ?_⟩
    · rw [h] at h'
      cases h'
    · rw [attemptOnce_err_iff.mpr h]
      exact Outcome.err_ne_panic _
  · exact absurd h (measure_ne_panic ha)

/-- It asks for another one when there are violations, all of them shown. -/
theorem attemptOnce_violated_iff (hJ : J.Ranged) {midpoint : UInt64} :
    attemptOnce V H J B debug args servers a = .ok (midpoint, false) ↔
      Assessable V H debug args a ∧ Violated V H debug args a midpoint := by
  rw [attemptOnce_ok_iff]
  constructor
  · rintro ⟨ms, h, hassess⟩
    have hreturns : assess J B debug args servers ms ≠ .panic := by
      rw [hassess]
      exact Outcome.ok_ne_panic _
    refine ⟨(assess_returns_iff hJ h).mp hreturns, ?_⟩
    · obtain ⟨m, vs, hm, hmid, hvs, -, hempty⟩ := (assess_ok_iff hJ h).mp hassess
      cases vs with
      | nil => cases hempty
      | cons v vs => exact ⟨ms, m, v, vs, h, hm, hmid, hvs⟩
  · rintro ⟨hassess, ms, m, v, vs, h, hm, hmid, hvs⟩
    refine ⟨ms, h, (assess_ok_iff hJ h).mpr ⟨m, v :: vs, hm, hmid, hvs, ?_, rfl⟩⟩
    exact (hassess ms h).2.2 _ hvs

theorem attemptOnce_of_clean {midpoint : UInt64} (h : Clean V H debug args a midpoint) :
    attemptOnce V H J B debug args servers a = .ok (midpoint, true) := by
  obtain ⟨ms, m, hms, hm, rfl, hclean⟩ := h
  unfold attemptOnce
  rw [hms, Outcome.ok_bind]
  unfold assess
  rw [hm]
  show ofCall (validateCausality debug ms >>= _) = _
  rw [hclean]
  show ofCall (sendReports B args servers [] >>= _) = _
  unfold sendReports
  split <;> rfl

/-- It settles the matter when there are none. -/
theorem attemptOnce_clean_iff (hJ : J.Ranged) {midpoint : UInt64} :
    attemptOnce V H J B debug args servers a = .ok (midpoint, true) ↔
      Clean V H debug args a midpoint := by
  rw [attemptOnce_ok_iff]
  constructor
  · rintro ⟨ms, h, hassess⟩
    obtain ⟨m, vs, hm, hmid, hvs, -, hempty⟩ := (assess_ok_iff hJ h).mp hassess
    rw [List.isEmpty_iff.mp hempty] at hvs
    exact ⟨ms, m, h, hm, hmid, hvs⟩
  · intro h
    exact attemptOnce_ok_iff.mp (attemptOnce_of_clean h)

theorem Clean.not_violated {midpoint midpoint' : UInt64} (h : Clean V H debug args a midpoint) :
    ¬ Violated V H debug args a midpoint' := by
  rintro ⟨ms', m', v, vs, h', -, -, hvs'⟩
  obtain ⟨ms, m, hms, -, -, hvs⟩ := h
  cases hms.symm.trans h'
  cases hvs.symm.trans hvs'

theorem again_iff (hJ : J.Ranged) : Again (attemptOnce V H J B debug args servers a) ↔
    Assessable V H debug args a ∧ ∃ midpoint, Violated V H debug args a midpoint := by
  rw [← exists_and_left]
  exact exists_congr fun midpoint => attemptOnce_violated_iff hJ

end Attempts

/-! ## All attempts -/

section Loop

variable {T : Type} {V : Verify} {H : Bytes → Hash} {J : Jiff T} {B : Codec} {debug : Bool}
  {args : Args} {servers : ServerList} {attempts : Nat → Attempt}

/-- With fewer than 255 retries, the loop makes one attempt more than that. -/
theorem queryMultipleServers_eq {maxAttempts : UInt8}
    (hmax : addU8 debug 1 args.causalityViolationRetries = .ok maxAttempts)
    (hexact : maxAttempts.toNat = 1 + args.causalityViolationRetries.toNat) :
    queryMultipleServers V H J B debug args (some servers) attempts =
      retry (fun k => attemptOnce V H J B debug args servers (attempts k)) (giveUp args)
        (args.causalityViolationRetries.toNat + 1) 0 0 := by
  simp only [queryMultipleServers, hmax]
  rw [hexact, Nat.add_comm]

/-- The bound on the attempts, for all retries but the greatest number. -/
theorem maxAttempts_exact (build : Bool) {retries : UInt8} (h : retries ≠ 255) :
    ∃ maxAttempts, addU8 build 1 retries = .ok maxAttempts ∧
      maxAttempts.toNat = 1 + retries.toNat := by
  refine addU8_exact_iff.mpr ?_
  have hlt := retries.toNat_lt
  have hne : retries.toNat ≠ 255 := fun heq => h (UInt8.toNat_inj.mp heq)
  show 1 + _ < _
  omega

/-- A clean first attempt is the only one. -/
theorem settled_of_clean {midpoint : UInt64} (hretries : args.causalityViolationRetries ≠ 255)
    (hclean : Clean V H debug args (attempts 1) midpoint) :
    queryMultipleServers V H J B debug args (some servers) attempts = ⟨1, .ok midpoint⟩ := by
  obtain ⟨maxAttempts, hmax, hexact⟩ := maxAttempts_exact debug hretries
  have honce : attemptOnce V H J B debug args servers (attempts 1) = .ok (midpoint, true) :=
    attemptOnce_of_clean hclean
  rw [queryMultipleServers_eq hmax hexact, retry_settles]
  · rw [Nat.zero_add, honce]
    rfl
  · rintro ⟨a, hagain⟩
    rw [Nat.zero_add, honce] at hagain
    cases hagain

/-- The loop returned, so every attempt that was reached was assessable. -/
theorem assessable_of_returns (hJ : J.Ranged) (ha : ∀ k, (attempts k).Answers) {n : Nat}
    (h : (retry (fun k => attemptOnce V H J B debug args servers (attempts k)) (giveUp args)
      n 0 0).result ≠ .panic) {k : Nat} (hpos : 1 ≤ k) (hk : k ≤ n)
    (hreached : Reached V H debug args attempts k) : Assessable V H debug args (attempts k) := by
  rcases retry_cases (fun k => attemptOnce V H J B debug args servers (attempts k))
    (giveUp args) n 0 0 with ⟨_, hall, -, -, -⟩ | ⟨i, hi, -, hall, hstop, heq⟩
  · exact ((again_iff hJ).mp (hall k hpos (by omega))).1
  · have hreturns : attemptOnce V H J B debug args servers (attempts i) ≠ .panic := by
      intro hpanic
      rw [heq, hpanic] at h
      exact h rfl
    have hsettled := (attemptOnce_returns_iff hJ (ha i)).mp hreturns
    rcases Nat.lt_trichotomy k i with hlt | rfl | hgt
    · exact ((again_iff hJ).mp (hall k hpos hlt)).1
    · exact hsettled
    · exact absurd ((again_iff hJ).mpr ⟨hsettled, hreached i hi hgt⟩) hstop

theorem Reached.unique {k i : Nat} (hk : Reached V H debug args attempts k)
    (hi : Reached V H debug args attempts i) (hk₁ : 1 ≤ k) (hi₁ : 1 ≤ i)
    (hnotk : ∀ midpoint, ¬ Violated V H debug args (attempts k) midpoint)
    (hnoti : ∀ midpoint, ¬ Violated V H debug args (attempts i) midpoint) : k = i := by
  rcases Nat.lt_trichotomy k i with hlt | heq | hgt
  · obtain ⟨midpoint, hv⟩ := hi k hk₁ hlt
    exact absurd hv (hnotk midpoint)
  · exact heq
  · obtain ⟨midpoint, hv⟩ := hk i hi₁ hgt
    exact absurd hv (hnoti midpoint)

variable {maxAttempts : UInt8}
  (hmax : addU8 debug 1 args.causalityViolationRetries = .ok maxAttempts)
  (hexact : maxAttempts.toNat = 1 + args.causalityViolationRetries.toNat)

include hmax hexact

/-- Violations in all attempts. -/
theorem Retries.of_exhausted {last : UInt64}
    (hall : Reached V H debug args attempts (args.causalityViolationRetries.toNat + 2))
    (hlast : Violated V H debug args (attempts (args.causalityViolationRetries.toNat + 1)) last) :
    Retries V H debug args attempts
      ⟨args.causalityViolationRetries.toNat + 1, giveUp args last⟩ := by
  refine ⟨⟨maxAttempts, hmax, hexact⟩, ?_, Nat.le_refl _, ?_, ?_, ?_, ?_⟩
  · unfold giveUp
    split
    · exact Outcome.ok_ne_panic _
    · exact Outcome.err_ne_panic _
  · intro k midpoint hk hk' hclean
    obtain ⟨_, hv⟩ := hall k hk (Nat.lt_succ_of_lt hk')
    exact hclean.not_violated hv
  · intro k midpoint hk hk' _ hclean
    obtain ⟨_, hv⟩ := hall k hk (Nat.lt_succ_of_le hk')
    exact absurd hv hclean.not_violated
  · intro k code hk hk' _ hfailed
    obtain ⟨_, ms, _, _, _, hms, -⟩ := hall k hk (Nat.lt_succ_of_le hk')
    cases hms.symm.trans hfailed
  · intro _
    unfold giveUp
    split
    · exact ⟨last, hlast, rfl⟩
    · exact ⟨1, by decide, rfl⟩

/-- Attempt `i` is the first without violations, and its result is that of the loop. -/
theorem Retries.of_settled {i : Nat} {result : Outcome ExitCode UInt64} (hpos : 1 ≤ i)
    (hi : i ≤ args.causalityViolationRetries.toNat + 1)
    (hreached : Reached V H debug args attempts i)
    (hnot : ∀ midpoint, ¬ Violated V H debug args (attempts i) midpoint)
    (hreturns : result ≠ .panic)
    (hclean : ∀ midpoint, Clean V H debug args (attempts i) midpoint → result = .ok midpoint)
    (hfailed : ∀ code, measure V H args (attempts i) = .err code → result = .err code) :
    Retries V H debug args attempts ⟨i, result⟩ := by
  refine ⟨⟨maxAttempts, hmax, hexact⟩, hreturns, hi, ?_, ?_, ?_, ?_⟩
  · intro k midpoint hk hk' hc
    obtain ⟨_, hv⟩ := hreached k hk hk'
    exact hc.not_violated hv
  · intro k midpoint hk _ hk' hc
    obtain rfl := hk'.unique hreached hk hpos (fun _ => hc.not_violated) hnot
    rw [hclean midpoint hc]
  · intro k code hk _ hk' hf
    have hnone : ∀ midpoint, ¬ Violated V H debug args (attempts k) midpoint := by
      rintro midpoint ⟨ms, _, _, _, hms, -⟩
      cases hms.symm.trans hf
    obtain rfl := hk'.unique hreached hk hpos hnone hnot
    rw [hfailed code hf, measure_err hf]
    exact ⟨by decide, rfl⟩
  · intro hall
    obtain ⟨midpoint, hv⟩ := hall i hpos (Nat.lt_succ_of_le hi)
    exact absurd hv (hnot midpoint)

/-- When every attempt that is reached is assessable, the loop does what it is for. -/
theorem retries_of_assessable (hJ : J.Ranged) (ha : ∀ k, (attempts k).Answers)
    (hassess : ∀ k, 1 ≤ k → k ≤ args.causalityViolationRetries.toNat + 1 →
      Reached V H debug args attempts k → Assessable V H debug args (attempts k)) :
    Retries V H debug args attempts
      (queryMultipleServers V H J B debug args (some servers) attempts) := by
  rw [queryMultipleServers_eq hmax hexact]
  rcases retry_cases (fun k => attemptOnce V H J B debug args servers (attempts k))
    (giveUp args) (args.causalityViolationRetries.toNat + 1) 0 0 with
    ⟨last, hall, -, hlast, heq⟩ | ⟨i, hpos, hi, hall, hstop, heq⟩
  · rw [Nat.zero_add] at hall hlast heq
    rw [heq]
    refine Retries.of_exhausted hmax hexact ?_ ?_
    · intro j hj hj'
      exact ((again_iff hJ).mp (hall j hj (Nat.le_of_lt_succ hj'))).2
    · exact ((attemptOnce_violated_iff hJ).mp (hlast (Nat.succ_ne_zero _))).2
  · rw [Nat.zero_add] at hi
    have hreached : Reached V H debug args attempts i := fun j hj hj' =>
      ((again_iff hJ).mp (hall j hj hj')).2
    have hsettled := hassess i hpos hi hreached
    have hreturns : attemptOnce V H J B debug args servers (attempts i) ≠ .panic :=
      (attemptOnce_returns_iff hJ (ha i)).mpr hsettled
    rw [heq]
    refine Retries.of_settled hmax hexact hpos hi hreached ?_ ?_ ?_ ?_
    · intro midpoint hv
      exact hstop ((again_iff hJ).mpr ⟨hsettled, midpoint, hv⟩)
    · exact Outcome.bind_ne_panic hreturns fun _ _ => Outcome.ok_ne_panic _
    · intro midpoint hclean
      rw [(attemptOnce_clean_iff hJ).mpr hclean]
      rfl
    · intro code hfailed
      rw [attemptOnce_err_iff.mpr hfailed]
      rfl

end Loop

/-- The retry loop does what it is for exactly when there are fewer than 255 retries and
nothing behind the measurements of an attempt that it reaches panics. -/
theorem retries_iff {T : Type} (V : Verify) (H : Bytes → Hash) (J : Jiff T) (hJ : J.Ranged)
    (B : Codec) (debug : Bool) (args : Args) (servers : ServerList) (attempts : Nat → Attempt)
    (ha : ∀ k, (attempts k).Answers) :
    Retries V H debug args attempts
        (queryMultipleServers V H J B debug args (some servers) attempts) ↔
      args.causalityViolationRetries ≠ 255 ∧
        ∀ k, 1 ≤ k → k ≤ args.causalityViolationRetries.toNat + 1 →
          Reached V H debug args attempts k → Assessable V H debug args (attempts k) := by
  have hfits : 1 + args.causalityViolationRetries.toNat < 2 ^ 8 ↔
      args.causalityViolationRetries ≠ 255 := by
    have hlt := args.causalityViolationRetries.toNat_lt
    rw [ne_eq, ← UInt8.toNat_inj, show (255 : UInt8).toNat = 255 from rfl]
    omega
  rw [← hfits]
  constructor
  · intro h
    obtain ⟨maxAttempts, hmax, hexact⟩ := h.exact
    have hreturns := h.returns
    rw [queryMultipleServers_eq hmax hexact] at hreturns
    refine ⟨addU8_exact_iff.mp h.exact, ?_⟩
    intro k hpos hk hreached
    exact assessable_of_returns hJ ha hreturns hpos hk hreached
  · rintro ⟨hlt, hassess⟩
    obtain ⟨maxAttempts, hmax, hexact⟩ : ∃ maxAttempts,
        addU8 debug 1 args.causalityViolationRetries = .ok maxAttempts ∧
          maxAttempts.toNat = 1 + args.causalityViolationRetries.toNat :=
      addU8_exact_iff.mpr hlt
    exact retries_of_assessable hmax hexact hJ ha hassess

namespace Network

/-- Three draft-14 servers whose clocks show 2000, 3000 and 4000. -/
def orderly : Attempt :=
  ⟨.ok [client .rfcDraft14, client .rfcDraft14, client .rfcDraft14],
    exchanges (packets14 2000 3000 4000)⟩

theorem orderly_answers : orderly.Answers :=
  ⟨Outcome.ok_ne_panic _, fun _ => ⟨Outcome.ok_ne_panic _, Outcome.ok_ne_panic _⟩⟩

theorem orderly_measured {args : Args} (hrounds : args.numMeasurementRounds = 1) :
    measure verify digest args orderly =
      .ok [first14 2000, second14 2000 3000, third14 2000 3000 4000] := by
  have hrun : (sequence .rfcDraft14).run verify digest (exchanges (packets14 2000 3000 4000)) 1 =
      .ok [first14 2000, second14 2000 3000, third14 2000 3000 4000] :=
    run14 (by decide) (by decide) (by decide)
  show exitOnErr ((sequence .rfcDraft14).run verify digest (exchanges (packets14 2000 3000 4000))
    args.numMeasurementRounds) = _
  rw [hrounds, hrun]
  rfl

theorem orderly_clean (debug : Bool) {args : Args} (hrounds : args.numMeasurementRounds = 1) :
    Clean verify digest debug args orderly 4000 := by
  refine ⟨_, _, orderly_measured hrounds, rfl, rfl, ?_⟩
  cases debug with
  | true => rfl
  | false => rfl

/-- The options with `retries` retries and `rounds` rounds, and with untrusted time allowed. -/
def argsWith (rounds : Nat) (retries : UInt8) : Args :=
  ⟨true, false, "%s", rounds, retries, true, false⟩

end Network

open Network

/-- One attempt, which is clean. -/
theorem retries_orderly :
    queryMultipleServers verify digest jiff base64 true (argsWith 1 2) (some ⟨none⟩)
      (fun _ => orderly) = ⟨1, .ok 4000⟩ := by
  have hclean := orderly_clean true (show (argsWith 1 2).numMeasurementRounds = 1 from rfl)
  have hassess : Assessable verify digest true (argsWith 1 2) orderly := by
    intro ms hms
    obtain ⟨ms', m, hms', hm, -, hvs⟩ := hclean
    cases hms'.symm.trans hms
    refine ⟨Nat.one_ne_zero, validateCausality_returns_iff.mp ⟨_, hvs⟩, ?_⟩
    intro vs hvs'
    cases hvs.symm.trans hvs'
    exact fun v hv => absurd hv List.not_mem_nil
  have hretries := (retries_iff verify digest jiff jiff_ranged base64 true (argsWith 1 2) ⟨none⟩
    (fun _ => orderly) fun _ => orderly_answers).mpr
    ⟨by decide, fun _ _ _ _ => hassess⟩
  exact hretries.clean 1 4000 (Nat.le_refl 1) (by decide)
    (fun j hj hj' => absurd hj' (by omega)) hclean

/-- 255 retries: a debug build panics, and a release build returns the midpoint 0 without an
attempt, although the first would have been clean.  No rounds: the first attempt panics. -/
theorem retries_overflow :
    queryMultipleServers verify digest jiff base64 true (argsWith 1 255) (some ⟨none⟩)
        (fun _ => orderly) = ⟨0, .panic⟩ ∧
      queryMultipleServers verify digest jiff base64 false (argsWith 1 255) (some ⟨none⟩)
        (fun _ => orderly) = ⟨0, .ok 0⟩ ∧
      Clean verify digest false (argsWith 1 255) orderly 4000 ∧
      (∀ debug, ¬ Retries verify digest debug (argsWith 1 255) (fun _ => orderly)
        (queryMultipleServers verify digest jiff base64 debug (argsWith 1 255) (some ⟨none⟩)
          fun _ => orderly)) ∧
      queryMultipleServers verify digest jiff base64 false (argsWith 0 0) (some ⟨none⟩)
        (fun _ => orderly) = ⟨1, .panic⟩ := by
  have hclean : ∀ debug, Clean verify digest debug (argsWith 1 255) orderly 4000 :=
    fun debug => orderly_clean debug rfl
  refine ⟨rfl, rfl, hclean false, ?_, rfl⟩
  intro debug h
  have heq := h.clean 1 4000 (Nat.le_refl 1) (by decide)
    (fun j hj hj' => absurd hj' (by omega)) (hclean debug)
  cases debug with
  | true => exact Nat.zero_ne_one (congrArg Ended.attempts heq)
  | false => exact Nat.zero_ne_one (congrArg Ended.attempts heq)

end Roughenough.Client
