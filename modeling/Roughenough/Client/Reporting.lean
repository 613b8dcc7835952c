/-
# `Roughenough.Client.Reporting` — violations of causality and their reports

`validate_causality` and `CausalityViolation` of `validation.rs`, and
`reporting.rs`: a violation is a pair of measurements, and a report is the two
entries made of them.  Base64 comes from a library and is a parameter here.

`debug` is the build: the unsigned `-` and `+` of the bounds panic on overflow
in a debug build and wrap in a release build.

The main result is about the packets: a chained nonce and a report entry are
made of a response that was decoded and encoded again, and

    chained_and_reported_verbatim_iff

says for which packets this is the packet that was received.
-/
import Roughenough.Base.Base64
import Roughenough.Client.Runs

namespace Roughenough.Client

open Roughenough.Base Roughenough.Protocol Roughenough.Merkle MeasurementSequence

/-! ## Causality -/

structure CausalityViolation where
  measurementI : Measurement
  measurementJ : Measurement
  lowerBoundI : UInt64
  upperBoundJ : UInt64
  deriving DecidableEq

namespace CausalityViolation

def new (debug : Bool) (measurementI measurementJ : Measurement) : Call CausalityViolation := do
  let lowerBoundI ← subU64 debug measurementI.midpoint measurementI.radius.toUInt64
  let upperBoundJ ← addU64 debug measurementJ.midpoint measurementJ.radius.toUInt64
  Outcome.assert (lowerBoundI > upperBoundJ)
  pure ⟨measurementI, measurementJ, lowerBoundI, upperBoundJ⟩

theorem new_ok_iff {debug : Bool} {mi mj : Measurement} {v : CausalityViolation} :
    new debug mi mj = .ok v ↔ ∃ lower, subU64 debug mi.midpoint mi.radius.toUInt64 = .ok lower ∧
      ∃ upper, addU64 debug mj.midpoint mj.radius.toUInt64 = .ok upper ∧ lower > upper ∧
        (⟨mi, mj, lower, upper⟩ : CausalityViolation) = v := by
  simp only [new, Outcome.bind_ok_iff, Outcome.assert_ok_iff, exists_const, Outcome.pure_eq,
    Outcome.ok.injEq]

end CausalityViolation

namespace ResponseValidator

/-- The body of the two loops of `validate_causality`. -/
def checkPair (debug : Bool) (measurements : List Measurement) (i : Nat)
    (violations : List CausalityViolation) (j : Nat) : Call (List CausalityViolation) := do
  let measurementI ← Outcome.orPanic measurements[i]?
  let lowerBoundI ← subU64 debug measurementI.midpoint measurementI.radius.toUInt64
  let measurementJ ← Outcome.orPanic measurements[j]?
  let upperBoundJ ← addU64 debug measurementJ.midpoint measurementJ.radius.toUInt64
  if lowerBoundI > upperBoundJ then do
    let violation ← CausalityViolation.new debug measurementI measurementJ
    pure (violations ++ [violation])
  else pure violations

def validateCausality (debug : Bool) (measurements : List Measurement) :
    Call (List CausalityViolation) :=
  if measurements.length < 2 then pure []
  else
    (List.range measurements.length).foldlM (fun violations i =>
      (List.range' (i + 1) (measurements.length - (i + 1))).foldlM
        (checkPair debug measurements i) violations) []

/-- The pair of a violation, with the earlier measurement first. -/
def IsPair (measurements : List Measurement) (v : CausalityViolation) : Prop :=
  ∃ i j : Nat, i < j ∧ measurements[i]? = some v.measurementI ∧ measurements[j]? = some v.measurementJ

/-- A violation of the list: `CausalityViolation::new` made it of two of its measurements, in
order. -/
def Made (debug : Bool) (measurements : List Measurement) (v : CausalityViolation) : Prop :=
  ∃ i j : Nat, i < j ∧ ∃ mi mj, measurements[i]? = some mi ∧ measurements[j]? = some mj ∧
    CausalityViolation.new debug mi mj = .ok v

theorem checkPair_made {debug : Bool} {measurements : List Measurement} {i j : Nat}
    {violations violations' : List CausalityViolation} (hij : i < j)
    (hall : ∀ v ∈ violations, Made debug measurements v)
    (h : checkPair debug measurements i violations j = .ok violations') :
    ∀ v ∈ violations', Made debug measurements v := by
  simp only [checkPair, Outcome.bind_ok_iff, Outcome.orPanic_ok_iff] at h
  obtain ⟨mi, hi, _, -, mj, hj, _, -, h⟩ := h
  split at h
  · obtain ⟨v, hnew, happend⟩ := Outcome.bind_ok_iff.mp h
    cases happend
    intro v' hv'
    rcases List.mem_append.mp hv' with hold | hadded
    · exact hall v' hold
    · rw [List.mem_singleton.mp hadded]
      exact ⟨i, j, hij, mi, mj, hi, hj, hnew⟩
  · cases h
    exact hall

theorem validateCausality_made {debug : Bool} {measurements : List Measurement}
    {violations : List CausalityViolation}
    (h : validateCausality debug measurements = .ok violations) :
    ∀ v ∈ violations, Made debug measurements v := by
  have hnil : ∀ v ∈ ([] : List CausalityViolation), Made debug measurements v :=
    fun _ hv => absurd hv List.not_mem_nil
  unfold validateCausality at h
  split at h
  · cases h
    exact hnil
  · -- one invariant for both loops: all violations so far are of the list
    refine Outcome.foldlM_invariant (fun _ vs => ∀ v ∈ vs, Made debug measurements v) [] ?_ hnil h
    intro _ i vs vs' _ hvs hinner
    refine Outcome.foldlM_invariant (fun _ vs => ∀ v ∈ vs, Made debug measurements v) [] ?_ hvs
      hinner
    intro _ j ws ws' hj hws hpair
    exact checkPair_made (List.mem_range'_1.mp hj).1 hws hpair

/-- Every violation that is returned is about two measurements in the order of the list. -/
theorem validateCausality_isPair {debug : Bool} {measurements : List Measurement}
    {violations : List CausalityViolation}
    (h : validateCausality debug measurements = .ok violations) :
    ∀ v ∈ violations, IsPair measurements v := by
  intro v hv
  obtain ⟨i, j, hij, mi, mj, hi, hj, hnew⟩ := validateCausality_made h v hv
  obtain ⟨_, -, _, -, -, hv⟩ := CausalityViolation.new_ok_iff.mp hnew
  cases hv
  exact ⟨i, j, hij, hi, hj⟩

end ResponseValidator

/-! ## Reports -/

/-- Base64 of a library: the encoder, and the decoder with the text of its error. -/
structure Codec where
  encode : Bytes → String
  decode : String → Outcome String Bytes

/-- Decoding undoes encoding. -/
def Codec.Inverse (B : Codec) : Prop := ∀ bs, B.decode (B.encode bs) = .ok bs

theorem Codec.Inverse.injective {B : Codec} (h : B.Inverse) {bs cs : Bytes}
    (heq : B.encode bs = B.encode cs) : bs = cs := by
  have hboth := h bs
  rw [heq, h cs] at hboth
  exact (Outcome.ok.inj hboth).symm

structure ReportEntry where
  rand : Option String
  request : String
  response : String
  publicKey : String
  deriving DecidableEq

namespace ReportEntry

def fromMeasurement (B : Codec) (measurement : Measurement) : Call ReportEntry := do
  let requestBytes ← measurement.request.asFrameBytes.expect
  let responseBytes ← measurement.response.asFrameBytes.expect
  let publicKey ← Outcome.orPanic measurement.publicKey
  pure
    { rand := measurement.randValue.map fun r => B.encode r.bytes
      request := B.encode requestBytes
      response := B.encode responseBytes
      publicKey := B.encode publicKey.bytes }

theorem fromMeasurement_eq {B : Codec} {m : Measurement} {K : PublicKey}
    (hkey : m.publicKey = some K) :
    fromMeasurement B m = .ok ⟨m.randValue.map fun r => B.encode r.bytes,
      B.encode (framed m.request.encode), B.encode (framed m.response.encode),
      B.encode K.bytes⟩ := by
  unfold fromMeasurement
  rw [Request.asFrameBytes_eq, Response.asFrameBytes_eq, hkey]
  rfl

end ReportEntry

structure MalfeasanceReport where
  responses : List ReportEntry

namespace MalfeasanceReport

def fromViolation (B : Codec) (violation : CausalityViolation) : Call MalfeasanceReport := do
  let responses ←
    [violation.measurementI, violation.measurementJ].mapM (ReportEntry.fromMeasurement B)
  pure ⟨responses⟩

theorem fromViolation_of_entries {B : Codec} {v : CausalityViolation} {e e' : ReportEntry}
    (h : ReportEntry.fromMeasurement B v.measurementI = .ok e)
    (h' : ReportEntry.fromMeasurement B v.measurementJ = .ok e') :
    fromViolation B v = .ok ⟨[e, e']⟩ := by
  unfold fromViolation
  rw [List.mapM_cons, List.mapM_cons, List.mapM_nil, h, h']
  rfl

end MalfeasanceReport

/-! ## The packets of a run -/

/-- The packet comes back from what the client keeps of it. -/
def KeptWhole (client : Client) (b : Bytes) : Prop :=
  client.protocolVersion = .rfcDraft14 ∧ b.length ≤ bufSize ∧ Verbatim b

/-- The encoding of an accepted response is the packet exactly when the packet is kept whole. -/
theorem framed_accepted_eq_iff {V : Verify} {H : Bytes → Hash} {client : Client}
    {requestBytes b : Bytes} {r : Response}
    (h : acceptResponse V H client requestBytes (b.take bufSize) = .ok r) :
    framed r.encode = b ↔ KeptWhole client b := by
  rcases acceptResponse_ok_iff.mp h with ⟨h08, r', t, hparse, -, rfl⟩ | ⟨h14, t, hparse, -⟩
  · constructor
    · intro heq
      exact absurd heq (framed_ofDraft08_ne (by decide) hparse)
    · intro hk
      cases h08.symm.trans hk.1
  · have hshort : b.length ≤ bufSize → (framed r.encode = b ↔ Verbatim b) := by
      intro hlen
      rw [List.take_of_length_le hlen] at hparse
      exact framed_encode_eq_iff hparse
    constructor
    · intro heq
      have hlen : b.length ≤ bufSize := by
        rw [← heq]
        exact Nat.le_trans (framed_encode_length_le hparse) (List.length_take_le _ _)
      exact ⟨h14, hlen, (hshort hlen).mp heq⟩
    · intro hk
      exact (hshort hk.2.1).mpr hk.2.2

/-- At any point of a run, for the packet `b` that was accepted for measurement `k`: the bytes
hashed for the next measurement are `b` and the random value, the entry of a report holds `b`,
and the stored response encodes to `b`, each exactly when the server speaks draft-14 and `b` fits
the receive buffer, ends with its message, says so in its length field and spells no version with
the legacy zero. -/
theorem chained_and_reported_verbatim_iff (V : Verify) (H : Bytes → Hash) (B : Codec)
    (hB : B.Inverse) (s : MeasurementSequence) (exchanges : Nat → Exchange) (rounds n : Nat)
    (ms : List Measurement) (prior : Option Response)
    (hrun : s.after V H exchanges rounds n = .ok (ms, prior)) (k : Nat) (m : Measurement)
    (hk : ms[k]? = some m) :
    ∃ client b addr hashed entry, (s.schedule rounds)[k]? = some client ∧
      (exchanges k).recv = .ok (b, addr) ∧
      chainValue m.response (exchanges (k + 1)).random.bytes = (.ok hashed : Call Bytes) ∧
      ReportEntry.fromMeasurement B m = .ok entry ∧
      (∀ m', ms[k + 1]? = some m' → m'.request.nonc = H hashed) ∧
      (k + 1 = ms.length → generateNonce H prior (exchanges (k + 1)).random =
        .ok (H hashed, some (exchanges (k + 1)).random)) ∧
      (hashed = b ++ (exchanges (k + 1)).random.bytes ↔ KeptWhole client b) ∧
      (entry.response = B.encode b ↔ KeptWhole client b) ∧
      (m.response.asFrameBytes = .ok b ↔ KeptWhole client b) := by
  obtain ⟨client, K, hclient, hK, hq⟩ := after_queried hrun hk
  obtain ⟨b, addr, hrecv, haccept⟩ := hq.received
  have hiff := framed_accepted_eq_iff haccept
  have hlast := lastResponse_take hk
  refine ⟨client, b, addr, _, _, hclient, hrecv, chainValue_eq _ _,
    ReportEntry.fromMeasurement_eq (hq.publicKey.trans hK), ?_, ?_, ?_, ?_, ?_⟩
  · intro m' hk'
    obtain ⟨_, _, _, _, hq'⟩ := after_queried hrun hk'
    rw [hlast] at hq'
    exact hq'.nonce
  · -- the next query has not been answered, or not been made
    intro hend
    have hprior : prior = lastResponse ms := (after_chained hrun).2.prior
    rw [hend, List.take_length] at hlast
    rw [hprior, hlast]
    exact generateNonce_eq _ _
  · rw [List.append_cancel_right_eq]
    exact hiff
  · constructor
    · intro heq
      exact hiff.mp (hB.injective heq)
    · intro hkept
      exact congrArg B.encode (hiff.mpr hkept)
  · rw [Response.asFrameBytes_eq, Outcome.ok.injEq]
    exact hiff

/-! ## The packets of the sample networks -/

namespace Network

def base64 : Codec where
  encode := Base64.encode
  decode text :=
    match Base64.decode text with
    | some bs => .ok bs
    | none => .err "invalid base64"

theorem base64_inverse : base64.Inverse := by
  intro bs
  show (match Base64.decode (Base64.encode bs) with
    | some bs => Outcome.ok bs
    | none => Outcome.err "invalid base64") = _
  rw [Base64.decode_encode]

end Network

open Network

/-- The first packet of a draft-14 run is kept whole. -/
theorem chained_and_reported_verbatim_first :
    (first14 2000).response.asFrameBytes = .ok (framed (first14 2000).response.encode) ∧
    ∃ hashed, chainValue (first14 2000).response (random 1).bytes = (.ok hashed : Call Bytes) ∧
      (second14 2000 3000).request.nonc = digest hashed ∧
      hashed = framed (first14 2000).response.encode ++ (random 1).bytes := by
  have hrun := after14 (a := 2000) (b := 3000) (c := 4000) (by decide) (by decide) (by decide)
  obtain ⟨client, b, addr, hashed, entry, hclient, hrecv, hchain, -, hnext, -, hhash, -, hframe⟩ :=
    chained_and_reported_verbatim_iff verify digest base64 base64_inverse (sequence .rfcDraft14)
      (exchanges (packets14 2000 3000 4000)) 1 3 _ _ hrun 0 (first14 2000) rfl
  cases hclient
  cases hrecv
  have hkept : KeptWhole (Network.client .rfcDraft14) (framed (first14 2000).response.encode) := by
    refine ⟨rfl, ?_, ?_⟩
    · decide +kernel
    · decide +kernel
  exact ⟨hframe.mpr hkept, hashed, hchain, hnext _ rfl, hhash.mpr hkept⟩

/-- The first packet of a draft-08 run is lost: neither the chained nonce, nor the report, nor
the stored response has it. -/
theorem draft08_packet_lost :
    (sequence .rfcDraft08).run verify digest (exchanges packets08) 1 =
      .ok [first08, second08, third08] ∧
    (exchanges packets08 0).recv = .ok (framed (reply08 2000 none 0).encode, address) ∧
    second08.randValue = some (random 1) ∧
    chainValue first08.response (random 1).bytes ≠
      (.ok (framed (reply08 2000 none 0).encode ++ (random 1).bytes) : Call Bytes) ∧
    (∃ entry, ReportEntry.fromMeasurement base64 first08 = .ok entry ∧
      entry.response ≠ base64.encode (framed (reply08 2000 none 0).encode)) ∧
    first08.response.asFrameBytes ≠ .ok (framed (reply08 2000 none 0).encode) := by
  have hlost : framed first08.response.encode ≠ framed (reply08 2000 none 0).encode := by
    obtain ⟨hparse, -⟩ := reply08_valid 2000 none 0 (by decide) (by decide)
    have hsize : (reply08 2000 none 0).encode.length = 340 + 32 * 0 :=
      ResponseDraft08.encodeWith_length _ _
    refine framed_ofDraft08_ne (n := (framed (reply08 2000 none 0).encode).length) ?_ ?_
    · rw [framed_length, hsize]
      decide
    · rw [List.take_length]
      exact hparse
  refine ⟨?_, rfl, rfl, ?_, ⟨_, ReportEntry.fromMeasurement_eq rfl, ?_⟩, ?_⟩
  · have hend : ((sequence .rfcDraft08).schedule 1).length = 3 := rfl
    rw [run_eq, hend, after08]
    rfl
  · rw [chainValue_eq]
    intro heq
    exact hlost (List.append_cancel_right (Outcome.ok.inj heq))
  · intro heq
    exact hlost (base64_inverse.injective heq)
  · rw [Response.asFrameBytes_eq]
    intro heq
    exact hlost (Outcome.ok.inj heq)

end Roughenough.Client
