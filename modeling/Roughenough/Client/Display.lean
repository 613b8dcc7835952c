/-
# `Roughenough.Client.Display` — times that cannot be shown

`midpoint_datetime` of `measurement.rs`, and `display_measurement` and
`display_violation` of `main.rs`.  All three turn `u64` seconds into a
timestamp of jiff, by a cast to `i64` and an `unwrap`.  Validation bounds the
midpoint by MINT and MAXT only, which are the server's, so that an accepted
response can hold any of the 2 ^ 64 midpoints:

    0 .. 253402207200                       up to the end of the year 9999
    253402207201 .. 2^64 - 377705023202     the `unwrap` panics
    2^64 - 377705023201 .. 2^64 - 1         cast to seconds before 1970

jiff is a parameter; what is used of it is the range of `from_second`.
-/
import Roughenough.Client.Causality

namespace Roughenough.Client

open Roughenough.Base Roughenough.Protocol Roughenough.Merkle MeasurementSequence

/-! ## Timestamps -/

/-- What the client uses of jiff.  The two formatters answer `none` where the `Display` of the
format string fails. -/
structure Jiff (Timestamp : Type) where
  fromSecond : Int64 → Option Timestamp
  asSecond : Timestamp → Int64
  /-- `timestamp.strftime(format)`. -/
  strftime : Timestamp → String → Option String
  /-- `timestamp.to_zoned(TimeZone::system()).strftime(format)`. -/
  strftimeLocal : Timestamp → String → Option String

/-- `Timestamp::MIN` and `Timestamp::MAX`, in seconds: the years -9999 to 9999, less the
largest offset of a time zone at both ends. -/
def minSecond : Int := -377705023201
def maxSecond : Int := 253402207200

/-- `from_second` succeeds in its range and fails outside. -/
def Jiff.Ranged {T : Type} (J : Jiff T) : Prop :=
  ∀ s, (J.fromSecond s).isSome = true ↔ minSecond ≤ s.toInt ∧ s.toInt ≤ maxSecond

/-- The seconds that the cast to `i64` takes into the range. -/
def Showable (seconds : UInt64) : Prop :=
  seconds.toNat ≤ 253402207200 ∨ 2 ^ 64 - 377705023201 ≤ seconds.toNat

/-- The options of `args.rs` that the display and the retry loop read. -/
structure Args where
  zulu : Bool
  epoch : Bool
  timeFormat : String
  numMeasurementRounds : Nat
  causalityViolationRetries : UInt8
  allowUntrustedTime : Bool
  sendReport : Bool

section Display

variable {T : Type} (J : Jiff T)

/-- `Timestamp::from_second(seconds as i64).unwrap()`. -/
def timestampOf (seconds : UInt64) : Call T := Outcome.orPanic (J.fromSecond seconds.toInt64)

def Measurement.midpointDatetime (m : Measurement) : Call T := timestampOf J m.midpoint

/-- The three arms of `display_measurement`; `format!` panics when the `Display` of the
timestamp fails. -/
def displayMeasurement (args : Args) (m : Measurement) : Call String := do
  let timestamp ← timestampOf J m.midpoint
  match args.zulu, args.epoch with
  | true, false => do
      let time ← Outcome.orPanic (J.strftime timestamp args.timeFormat)
      pure (time ++ " (+/-" ++ toString m.radius.toNat ++ "s)")
  | false, false => do
      let time ← Outcome.orPanic (J.strftimeLocal timestamp args.timeFormat)
      pure (time ++ " (+/-" ++ toString m.radius.toNat ++ "s)")
  | _, true => pure (toString (J.asSecond timestamp).toInt)

/-- What the log shows of one measurement of a violation. -/
structure Shown (T : Type) where
  hostname : String
  server : SocketAddr
  time : T
  radius : UInt32
  bound : T
  deriving DecidableEq

/-- What the log shows of a violation: the values of its lines.  They are formatted inside
`error!`, where a `Display` that fails costs the line and nothing else. -/
structure ViolationShown (T : Type) where
  measurementA : Shown T
  measurementB : Shown T
  sameServer : Bool
  deriving DecidableEq

/-- `display_violation`; the bounds are computed again from the measurements. -/
def displayViolation (debug : Bool) (violation : CausalityViolation) :
    Call (ViolationShown T) := do
  let m1 := violation.measurementI
  let m2 := violation.measurementJ
  let m1Lower ← subU64 debug m1.midpoint m1.radius.toUInt64
  let m2Upper ← addU64 debug m2.midpoint m2.radius.toUInt64
  let m1LowerDt ← timestampOf J m1Lower
  let m1MidpointDt ← timestampOf J m1.midpoint
  let m2UpperDt ← timestampOf J m2Upper
  let m2MidpointDt ← timestampOf J m2.midpoint
  pure ⟨⟨m1.hostname, m1.server, m1MidpointDt, m1.radius, m1LowerDt⟩,
    ⟨m2.hostname, m2.server, m2MidpointDt, m2.radius, m2UpperDt⟩,
    decide (m1.server = m2.server)⟩

end Display

/-! ## When they return -/

/-- The cast in numbers. -/
theorem toInt_toInt64 (x : UInt64) : x.toInt64.toInt =
    if x.toNat < 2 ^ 63 then (x.toNat : Int) else (x.toNat : Int) - 2 ^ 64 := by
  show x.toBitVec.toInt = _
  rw [BitVec.toInt_eq_toNat_cond]
  have hx : x.toBitVec.toNat = x.toNat := rfl
  rw [hx]
  split <;> split <;> omega

theorem showable_iff {x : UInt64} :
    Showable x ↔ minSecond ≤ x.toInt64.toInt ∧ x.toInt64.toInt ≤ maxSecond := by
  have hx := x.toNat_lt
  rw [toInt_toInt64, minSecond, maxSecond, Showable]
  split <;> omega

/-- A call returns, or panics. -/
theorem call_ne_panic_iff {α : Type} {x : Call α} : x ≠ .panic ↔ ∃ a, x = .ok a := by
  cases x with
  | ok a => simp
  | err e => exact e.elim
  | panic => simp

section Returns

variable {T : Type} {J : Jiff T}

theorem timestampOf_ok_iff (hJ : J.Ranged) {x : UInt64} :
    (∃ t, timestampOf J x = .ok t) ↔ Showable x := by
  rw [showable_iff, ← hJ, Option.isSome_iff_exists]
  exact exists_congr fun t => Outcome.orPanic_ok_iff

/-- The format string suits the timestamp: the epoch needs none. -/
def Args.Renders (J : Jiff T) (args : Args) (timestamp : T) : Prop :=
  args.epoch = false →
    (if args.zulu then J.strftime timestamp args.timeFormat
      else J.strftimeLocal timestamp args.timeFormat).isSome = true

theorem displayMeasurement_ok_iff {args : Args} {m : Measurement} :
    (∃ text, displayMeasurement J args m = .ok text) ↔
      ∃ t, timestampOf J m.midpoint = .ok t ∧ args.Renders J t := by
  obtain ⟨zulu, epoch, timeFormat, rounds, retries, allow, report⟩ := args
  simp only [displayMeasurement, Outcome.bind_ok_iff, Args.Renders]
  rw [exists_comm]
  refine exists_congr fun t => ?_
  rw [exists_and_left]
  refine and_congr_right fun _ => ?_
  cases zulu <;> cases epoch <;>
    simp [Outcome.bind_ok_iff, Outcome.orPanic_ok_iff, Option.isSome_iff_exists]

/-- A violation shows when its two bounds and its two midpoints do. -/
def CausalityViolation.Showable (v : CausalityViolation) : Prop :=
  Client.Showable v.lowerBoundI ∧ Client.Showable v.measurementI.midpoint ∧
    Client.Showable v.upperBoundJ ∧ Client.Showable v.measurementJ.midpoint

/-- The bounds of a violation that was returned are computed once more without a panic. -/
theorem displayViolation_ok_iff (hJ : J.Ranged) {debug : Bool} {mi mj : Measurement}
    {v : CausalityViolation} (hv : CausalityViolation.new debug mi mj = .ok v) :
    (∃ shown, displayViolation J debug v = .ok shown) ↔ v.Showable := by
  obtain ⟨lower, hlower, upper, hupper, -, rfl⟩ := CausalityViolation.new_ok_iff.mp hv
  simp only [displayViolation, hlower, hupper, Outcome.ok_bind, CausalityViolation.Showable,
    ← timestampOf_ok_iff hJ]
  constructor
  · rintro ⟨shown, h⟩
    simp only [Outcome.bind_ok_iff] at h
    obtain ⟨t₁, h₁, t₂, h₂, t₃, h₃, t₄, h₄, -⟩ := h
    exact ⟨⟨t₁, h₁⟩, ⟨t₂, h₂⟩, ⟨t₃, h₃⟩, ⟨t₄, h₄⟩⟩
  · rintro ⟨⟨t₁, h₁⟩, ⟨t₂, h₂⟩, ⟨t₃, h₃⟩, ⟨t₄, h₄⟩⟩
    rw [h₁, Outcome.ok_bind, h₂, Outcome.ok_bind, h₃, Outcome.ok_bind, h₄, Outcome.ok_bind]
    exact ⟨_, rfl⟩

end Returns

open ResponseValidator

/-- The three functions return exactly for the midpoints, and bounds, that can be shown;
`display_measurement` needs a format that suits the time as well. -/
theorem display_returns_iff {T : Type} (J : Jiff T) (hJ : J.Ranged) :
    (∀ m : Measurement, m.midpointDatetime J ≠ .panic ↔ Showable m.midpoint) ∧
    (∀ (args : Args) (m : Measurement), displayMeasurement J args m ≠ .panic ↔
      Showable m.midpoint ∧
        ∀ t, J.fromSecond m.midpoint.toInt64 = some t → args.Renders J t) ∧
    (∀ (debug : Bool) (measurements : List Measurement) (violations : List CausalityViolation),
      validateCausality debug measurements = .ok violations → ∀ v ∈ violations,
        (displayViolation J debug v ≠ .panic ↔ v.Showable)) := by
  refine ⟨?_, ?_, ?_⟩
  · intro m
    rw [call_ne_panic_iff]
    exact timestampOf_ok_iff hJ
  · intro args m
    rw [call_ne_panic_iff, displayMeasurement_ok_iff, ← timestampOf_ok_iff hJ]
    have hsome : ∀ t, timestampOf J m.midpoint = .ok t ↔
        J.fromSecond m.midpoint.toInt64 = some t := fun _ => Outcome.orPanic_ok_iff
    constructor
    · rintro ⟨t, ht, hrenders⟩
      refine ⟨⟨t, ht⟩, ?_⟩
      intro t' ht'
      rw [← hsome, ht] at ht'
      cases ht'
      exact hrenders
    · rintro ⟨⟨t, ht⟩, hrenders⟩
      exact ⟨t, ht, hrenders t ((hsome t).mp ht)⟩
  · intro debug measurements violations hrun v hv
    obtain ⟨i, j, -, mi, mj, -, -, hnew⟩ := validateCausality_made hrun v hv
    rw [call_ne_panic_iff]
    exact displayViolation_ok_iff hJ hnew

namespace Network

/-- jiff on timestamps in seconds, with the one format `%s`. -/
def jiff : Jiff Int64 where
  fromSecond s := if minSecond ≤ s.toInt ∧ s.toInt ≤ maxSecond then some s else none
  asSecond s := s
  strftime s format := if format = "%s" then some (toString s.toInt) else none
  strftimeLocal s format := if format = "%s" then some (toString s.toInt) else none

theorem jiff_ranged : jiff.Ranged := by
  intro s
  simp [jiff]

def args : Args := ⟨true, false, "%s", 1, 0, false, false⟩

/-- A certificate that is good for ever. -/
def openCert : Certificate :=
  Certificate.new
    (sign longTermKey (ProtocolVersion.rfcDraft14.delePrefix ++
      (Delegation.new onlineKey 0 (2 ^ 64 - 1)).encode))
    (Delegation.new onlineKey 0 (2 ^ 64 - 1))

/-- An answer under it, from a server whose clock shows `midp`. -/
def openReply (midp : UInt64) : Response :=
  (replyOf .rfcDraft14 midp (request14 none 0)).setCert openCert

theorem openReply_valid (midp : UInt64) :
    Response.fromFrame (framed (openReply midp).encode) = .ok (openReply midp) ∧
      (ResponseValidator.newWithKey longTermKey).validateDraft14 verify digest
        (framed (request14 none 0).encode) (openReply midp) (framed (openReply midp).encode) =
          .ok midp := by
  have hsigned : verify longTermKey
      (ProtocolVersion.rfcDraft14.delePrefix ++ openCert.delegation.encode)
      openCert.signature = true := decide_eq_true rfl
  have hmax : openCert.delegation.maxTime.toNat = 2 ^ 64 - 1 := by decide
  have hmidp := midp.toNat_lt
  exact replyOf_valid_cert .rfcDraft14 midp (request14 none 0) rfl hsigned (Nat.zero_le _)
    (by omega) (request14 none 0).nonc 0

def openMeasurement (midp : UInt64) : Measurement :=
  ⟨address, "localhost", some longTermKey, request14 none 0, openReply midp, none, none⟩

end Network

open Network

/-- Servers whose clocks show 4000 and 2000. -/
theorem display_returns_sample : ∃ v,
    validateCausality true [first14 4000, second14 4000 2000] = .ok [v] ∧
      displayViolation jiff true v ≠ .panic ∧ (first14 4000).midpointDatetime jiff ≠ .panic ∧
      displayMeasurement jiff Network.args (first14 4000) ≠ .panic := by
  obtain ⟨hdatetime, hmeasurement, hviolation⟩ := display_returns_iff jiff jiff_ranged
  have hshow : Showable (first14 4000).midpoint := Or.inl (by decide)
  refine ⟨_, rfl, ?_, (hdatetime _).mpr hshow, (hmeasurement _ _).mpr ⟨hshow, ?_⟩⟩
  · refine (hviolation true [first14 4000, second14 4000 2000] _ rfl _ List.mem_cons_self).mpr ?_
    exact ⟨Or.inl (by decide), Or.inl (by decide), Or.inl (by decide), Or.inl (by decide)⟩
  · intro t _ _
    rfl

/-- One second past what jiff can show: the response is accepted, and everything that shows it
panics. -/
theorem accepted_not_showable :
    Response.fromFrame (framed (openReply 253402207201).encode) =
        .ok (openReply 253402207201) ∧
      (ResponseValidator.newWithKey longTermKey).validateDraft14 verify digest
        (framed (request14 none 0).encode) (openReply 253402207201)
        (framed (openReply 253402207201).encode) = .ok 253402207201 ∧
      (openMeasurement 253402207201).midpointDatetime jiff = .panic ∧
      displayMeasurement jiff Network.args (openMeasurement 253402207201) = .panic ∧
      ∃ v, validateCausality true [openMeasurement 253402207201, openMeasurement 2000] =
          .ok [v] ∧ displayViolation jiff true v = .panic := by
  obtain ⟨hparse, hvalid⟩ := openReply_valid 253402207201
  exact ⟨hparse, hvalid, by decide, by decide, _, rfl, by decide⟩

end Roughenough.Client
