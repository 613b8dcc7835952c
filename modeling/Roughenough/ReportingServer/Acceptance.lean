/-
# `Roughenough.ReportingServer.Acceptance` — the reports of a client

The two ends meet: `MalfeasanceReport::from_violation` on the measurements of
a run, and `validate_report`.  The report of a violation `(i, j)` holds
measurements `i` and `j` and nothing between them, while the server wants the
first entry without a rand and the second chained to the first.  So the report
is accepted exactly when

    i = 0, and the nonce of measurement j, made of response j - 1, is also
    the one made of response 0          (for j = 1 it always is)

and both responses survive being decoded and encoded.
-/
import Roughenough.ReportingServer.Validation

namespace Roughenough.ReportingServer

open Roughenough.Base Roughenough.Protocol Roughenough.Merkle Roughenough.Client
open MeasurementSequence ResponseValidator

/-- An accepted response is accepted again after decoding and encoding: its tables do not point
behind it, and the signature covers the same place of the new bytes. -/
structure Survives (V : Verify) (r : Response) : Prop where
  offsets : r.header.offset 5 ≤
    344 + 32 * r.path.numPaths + 4 * r.srep.supportedVersions.versions.length
  srepOffsets : r.srep.header.offset 3 ≤ 204 + 4 * r.srep.supportedVersions.versions.length
  signed : V r.cert.delegation.publicKey
    (r.srep.version.srepPrefix ++ srepSlice14 r (framed r.encode)) r.signature = true

section Entries

variable {B : Codec} {V : Verify} {H : Bytes → Hash}

/-- The entry of a measurement says one thing only. -/
theorem eq_of_spelled (hB : B.Inverse) {K : PublicKey} {m : Measurement} {o : Observation}
    (h : o.Spelled B (entryOf B K m)) : o.requestBytes = framed m.request.encode ∧
      o.responseBytes = framed m.response.encode ∧ o.publicKey = K ∧ o.rand = m.randValue := by
  have hself := spelled_entryOf hB K m
  refine ⟨?_, ?_, ?_, ?_⟩
  · exact Outcome.ok.inj (h.request.symm.trans hself.request)
  · exact Outcome.ok.inj (h.response.symm.trans hself.response)
  · exact Octets.ext (Outcome.ok.inj (h.publicKey.symm.trans hself.publicKey))
  · have hrand := h.rand.symm.trans hself.rand
    refine Option.map_injective ?_ hrand
    intro r r' heq
    exact Octets.ext (Outcome.ok.inj heq)

variable {client : Client} {prior : Option Response} {x : Exchange} {m : Measurement}
  {K : PublicKey}

/-- What a draft-14 client accepted. -/
theorem Queried.draft14 (hq : Queried V H client prior x m)
    (h14 : client.protocolVersion = .rfcDraft14) (hK : client.publicKey = some K) :
    Request.fromFrame (framed m.request.encode) = .ok m.request ∧
    ∃ packet addr, x.recv = .ok (packet, addr) ∧
      Response.fromFrame (packet.take bufSize) = .ok m.response ∧
      Valid14 V H (newWithKey K) (framed m.request.encode) m.response (packet.take bufSize) := by
  have hvalidator : client.validator = newWithKey K := by
    rw [client.validator_eq, hK]
    rfl
  obtain ⟨packet, addr, hrecv, haccept⟩ := hq.received
  rcases acceptResponse_ok_iff.mp haccept with ⟨h08, -⟩ | ⟨-, t, hparse, hvalid⟩
  · cases h14.symm.trans h08
  · rw [hvalidator] at hvalid
    refine ⟨?_, packet, addr, hrecv, hparse, (validateDraft14_ok_iff.mp hvalid).1⟩
    have hrequest := hq.request
    unfold makeRequest at hrequest
    rw [h14] at hrequest
    obtain ⟨srvCommit, -, hnew⟩ := Outcome.bind_ok_iff.mp hrequest
    rw [← Outcome.ok.inj hnew]
    exact Request.fromFrame_newDraft14WithServerCommitment _ _

/-- The entry of an accepted measurement is valid when the response survives. -/
theorem Queried.valid_iff (hq : Queried V H client prior x m)
    (h14 : client.protocolVersion = .rfcDraft14) (hK : client.publicKey = some K) (hB : B.Inverse)
    {o : Observation} (hspelled : o.Spelled B (entryOf B K m)) :
    o.Valid V H ↔ o = observationOf K m ∧ Survives V m.response := by
  obtain ⟨hrequest, packet, addr, -, hparse, hvalid⟩ := Queried.draft14 hq h14 hK
  obtain ⟨len, vw, ws, tail, hb, hsp, hacc, -⟩ := Response.fromFrame_ok_iff.mp hparse
  have htail : tail.length < 2 ^ 30 := by
    have hlen := congrArg List.length hb
    have hbuf : (packet.take bufSize).length ≤ 1024 := List.length_take_le _ _
    rw [List.length_append, List.length_append] at hlen
    omega
  have hagain : ∀ r, Response.fromFrame (framed m.response.encode) = .ok r ↔
      r = m.response ∧ m.response.Accepts 0 := fun r => fromFrame_framed_iff hacc htail
  have hsize : m.response.encode.length = _ :=
    Response.encodeWith_length m.response.srep.spells_values
  obtain ⟨hreqBytes, hresBytes, hkey, hrand⟩ := eq_of_spelled hB hspelled
  constructor
  · intro ho
    have hreq := ho.request
    have hres := ho.response
    have haccepted := ho.accepted
    rw [hreqBytes, hrequest] at hreq
    rw [hresBytes, hagain] at hres
    rw [hresBytes, hres.1] at haccepted
    obtain ⟨hoff, hsrep⟩ := hacc.alone_iff.mp hres.2
    refine ⟨?_, hoff, hsrep, (validateDraft14_ok_iff.mp haccepted).1.sig⟩
    cases o
    simp only at hreqBytes hresBytes hkey hrand hreq hres
    rw [hreqBytes, hresBytes, hkey, hrand, ← Outcome.ok.inj hreq, hres.1]
    rfl
  · rintro ⟨rfl, hs⟩
    have hinside : 68 + m.response.header.offset 4 ≤ (framed m.response.encode).length := by
      have h45 : m.response.header.offset 4 ≤ m.response.header.offset 5 :=
        hacc.wellFormed.le_succ (by decide)
      have hoff := hs.offsets
      rw [framed_length, hsize]
      omega
    have hresponse : Response.fromFrame (framed m.response.encode) = .ok m.response :=
      (hagain m.response).mpr ⟨rfl, hacc.alone_iff.mpr ⟨hs.offsets, hs.srepOffsets⟩⟩
    have haccepted : validateDraft14 V H (newWithKey K) (framed m.request.encode) m.response
        (framed m.response.encode) = .ok m.response.srep.midpoint :=
      validateDraft14_ok_iff.mpr ⟨⟨hvalid.cert, hvalid.vers, hvalid.proof, hvalid.ordered,
        hinside, hs.signed⟩, rfl⟩
    exact ⟨hrequest, hresponse, haccepted⟩

/-- A response survives when its own encoding is accepted. -/
theorem survives_of_fromFrame {r : Response} (hlen : (framed r.encode).length ≤ bufSize)
    (hparse : Response.fromFrame (framed r.encode) = .ok r)
    (hsigned : V r.cert.delegation.publicKey
      (r.srep.version.srepPrefix ++ srepSlice14 r (framed r.encode)) r.signature = true) :
    Survives V r := by
  obtain ⟨len, vw, ws, tail, hb, -, hacc, -⟩ := Response.fromFrame_ok_iff.mp hparse
  have htail : tail.length < 2 ^ 30 := by
    have hboth := congrArg List.length hb
    have hbuf : bufSize = 1024 := rfl
    rw [List.length_append, List.length_append] at hboth
    omega
  obtain ⟨-, halone⟩ := (fromFrame_framed_iff hacc htail).mp hparse
  obtain ⟨hoff, hsrep⟩ := hacc.alone_iff.mp halone
  exact ⟨hoff, hsrep, hsigned⟩

end Entries

/-! ## The report of a violation -/

section Reports

variable {B : Codec} {V : Verify} {H : Bytes → Hash}

/-- The report of a violation has the entries of its two measurements. -/
theorem fromViolation_eq (B : Codec) {v : CausalityViolation} {K K' : PublicKey}
    (hK : v.measurementI.publicKey = some K) (hK' : v.measurementJ.publicKey = some K') :
    MalfeasanceReport.fromViolation B v =
      .ok ⟨[entryOf B K v.measurementI, entryOf B K' v.measurementJ]⟩ :=
  MalfeasanceReport.fromViolation_of_entries (ReportEntry.fromMeasurement_eq hK)
    (ReportEntry.fromMeasurement_eq hK')

/-- A report of two entries. -/
theorem validateReport_pair_iff {e e' : ReportEntry} :
    validateReport B V H ⟨[e, e']⟩ = .ok () ↔ ∃ o o' : Observation,
      (o.Spelled B e ∧ o.Valid V H ∧ o.Linked H none) ∧
      (o'.Spelled B e' ∧ o'.Valid V H ∧ o'.Linked H (some o.response)) := by
  rw [validateReport_ok_iff]
  constructor
  · rintro ⟨-, os, hos⟩
    cases os with
    | nil => exact hos.elim
    | cons o os =>
        cases os with
        | nil => exact hos.2.elim
        | cons o' os => exact ⟨o, o', hos.1, hos.2.1⟩
  · rintro ⟨o, o', ho, ho'⟩
    exact ⟨Nat.le_refl 2, [o, o'], ho, ho', trivial⟩

/-- The first measurement of a run, and no other, has no rand. -/
theorem lastResponse_take_eq_none {ms : List Measurement} {k : Nat} {m : Measurement}
    (hk : ms[k]? = some m) : lastResponse (ms.take k) = none ↔ k = 0 := by
  constructor
  · intro hnone
    by_contra hpos
    have hlt := (List.getElem?_eq_some_iff.mp hk).1
    have hprev : ms[k - 1]? = some ms[k - 1] := List.getElem?_eq_getElem (by omega)
    have hlast := lastResponse_take hprev
    rw [Nat.sub_add_cancel (by omega), hnone] at hlast
    cases hlast
  · rintro rfl
    rfl

end Reports

/-- For every violation found in a run over draft-14 servers: its report is accepted exactly when
the earlier measurement is the first of the run, the nonce of the later one, chained to the
measurement `p` in front of it, is also the one chained to the first, and the two responses
survive being encoded. -/
theorem report_accepted_iff (V : Verify) (H : Bytes → Hash) (B : Codec) (hB : B.Inverse)
    (debug : Bool) (s : MeasurementSequence)
    (h14 : ∀ client ∈ s.clients, client.protocolVersion = .rfcDraft14)
    (exchanges : Nat → Exchange) (rounds : Nat) (ms : List Measurement)
    (hrun : s.run V H exchanges rounds = .ok ms) (violations : List CausalityViolation)
    (hcausal : validateCausality debug ms = .ok violations) (v : CausalityViolation)
    (hv : v ∈ violations) :
    ∃ (report : MalfeasanceReport) (i j : Nat) (p : Measurement),
      MalfeasanceReport.fromViolation B v = .ok report ∧ i < j ∧
      ms[i]? = some v.measurementI ∧ ms[j]? = some v.measurementJ ∧ ms[j - 1]? = some p ∧
      (validateReport B V H report = .ok () ↔
        i = 0 ∧
        H (framed p.response.encode ++ (exchanges j).random.bytes) =
          H (framed v.measurementI.response.encode ++ (exchanges j).random.bytes) ∧
        Survives V v.measurementI.response ∧ Survives V v.measurementJ.response) := by
  rw [run_eq] at hrun
  obtain ⟨⟨ms', prior⟩, hafter, hms⟩ := Outcome.bind_ok_iff.mp hrun
  obtain rfl : ms' = ms := Outcome.ok.inj hms
  obtain ⟨i, j, hij, hi, hj⟩ := validateCausality_isPair hcausal v hv
  obtain ⟨cᵢ, Kᵢ, hcᵢ, hKᵢ, hqᵢ⟩ := after_queried hafter hi
  obtain ⟨cⱼ, Kⱼ, hcⱼ, hKⱼ, hqⱼ⟩ := after_queried hafter hj
  have h14ᵢ := h14 cᵢ (mem_clients_of_schedule hcᵢ)
  have h14ⱼ := h14 cⱼ (mem_clients_of_schedule hcⱼ)
  have hlt := (List.getElem?_eq_some_iff.mp hj).1
  have hp : ms'[j - 1]? = some ms'[j - 1] := List.getElem?_eq_getElem (by omega)
  have hlast := lastResponse_take hp
  rw [Nat.sub_add_cancel (by omega)] at hlast
  rw [hlast] at hqⱼ
  have hreport := fromViolation_eq B (hqᵢ.publicKey.trans hKᵢ) (hqⱼ.publicKey.trans hKⱼ)
  refine ⟨_, i, j, _, hreport, hij, hi, hj, hp, ?_⟩
  rw [validateReport_pair_iff]
  constructor
  · rintro ⟨o, o', ⟨hspelled, hvalid, hfirst⟩, hspelled', hvalid', r, hrand, hnonce⟩
    obtain ⟨rfl, hsᵢ⟩ := (Queried.valid_iff hqᵢ h14ᵢ hKᵢ hB hspelled).mp hvalid
    obtain ⟨rfl, hsⱼ⟩ := (Queried.valid_iff hqⱼ h14ⱼ hKⱼ hB hspelled').mp hvalid'
    have hzero : i = 0 := by
      refine (lastResponse_take_eq_none hi).mp ?_
      exact Option.map_eq_none_iff.mp (hqᵢ.rand.symm.trans hfirst)
    obtain rfl : (exchanges j).random = r := Option.some.inj (hqⱼ.rand.symm.trans hrand)
    exact ⟨hzero, hqⱼ.nonce.symm.trans hnonce, hsᵢ, hsⱼ⟩
  · rintro ⟨rfl, hsame, hsᵢ, hsⱼ⟩
    refine ⟨observationOf Kᵢ v.measurementI, observationOf Kⱼ v.measurementJ, ?_, ?_⟩
    · have hspelled := spelled_entryOf hB Kᵢ v.measurementI
      exact ⟨hspelled, (Queried.valid_iff hqᵢ h14ᵢ hKᵢ hB hspelled).mpr ⟨rfl, hsᵢ⟩, hqᵢ.rand⟩
    · have hspelled := spelled_entryOf hB Kⱼ v.measurementJ
      exact ⟨hspelled, (Queried.valid_iff hqⱼ h14ⱼ hKⱼ hB hspelled).mpr ⟨rfl, hsⱼ⟩,
        (exchanges j).random, hqⱼ.rand, hqⱼ.nonce.trans hsame⟩

/-! ## A network whose clocks go backwards -/

namespace Backwards

open Network

/-- The servers show 4000, 3000 and 2000, in the order in which they are asked. -/
def measurements : List Measurement :=
  [first14 4000, second14 4000 3000, third14 4000 3000 2000]

def answers : Nat → Exchange := exchanges (packets14 4000 3000 2000)

theorem run : (sequence .rfcDraft14).run verify digest answers 1 = .ok measurements :=
  run14 (by decide) (by decide) (by decide)

/-- Every pair is a violation. -/
def violations : List CausalityViolation :=
  [⟨first14 4000, second14 4000 3000, 3995, 3005⟩,
    ⟨first14 4000, third14 4000 3000 2000, 3995, 2005⟩,
    ⟨second14 4000 3000, third14 4000 3000 2000, 2995, 2005⟩]

theorem causality : validateCausality true measurements = .ok violations := rfl

theorem reply14_survives (midp : UInt64) (prior : Option Response) (k : Nat)
    (hmint : 1000 ≤ midp.toNat) (hmaxt : midp.toNat ≤ 5000) :
    Survives verify (reply14 midp prior k) := by
  obtain ⟨hparse, hvalid⟩ := reply14_valid midp prior k hmint hmaxt
  exact survives_of_fromFrame (reply14_short midp prior k) hparse
    (validateDraft14_ok_iff.mp hvalid).1.sig

/-- The positions of the first two measurements. -/
theorem position_first {i : Nat} (hi : measurements[i]? = some (first14 4000)) : i = 0 := by
  rcases i with _ | _ | _ | i
  · rfl
  · cases congrArg Measurement.randValue (Option.some.inj hi)
  · cases congrArg Measurement.randValue (Option.some.inj hi)
  · cases hi

theorem position_second {j : Nat} (hj : measurements[j]? = some (second14 4000 3000)) : j = 1 := by
  rcases j with _ | _ | _ | j
  · cases congrArg Measurement.randValue (Option.some.inj hj)
  · rfl
  · exact absurd (congrArg Measurement.midpoint (Option.some.inj hj))
      (by decide : (2000 : UInt64) ≠ 3000)
  · cases hj

end Backwards

open Network Backwards

/-- The report of the first two measurements is accepted. -/
theorem report_accepted_first :
    ∃ report, MalfeasanceReport.fromViolation base64
        ⟨first14 4000, second14 4000 3000, 3995, 3005⟩ = .ok report ∧
      validateReport base64 verify digest report = .ok () := by
  have h14 : ∀ client ∈ (sequence .rfcDraft14).clients, client.protocolVersion = .rfcDraft14 := by
    intro client hclient
    simp only [Network.sequence, List.mem_cons, List.not_mem_nil, or_false, or_self] at hclient
    rw [hclient]
    rfl
  obtain ⟨report, i, j, p, hreport, hij, hi, hj, hp, hiff⟩ :=
    report_accepted_iff verify digest base64 base64_inverse true (sequence .rfcDraft14) h14 answers 1
      measurements run violations causality _ List.mem_cons_self
  obtain rfl := position_first hi
  obtain rfl := position_second hj
  obtain rfl : first14 4000 = p := Option.some.inj hp
  refine ⟨report, hreport, hiff.mpr ⟨rfl, rfl, ?_, ?_⟩⟩
  · exact reply14_survives 4000 none 0 (by decide) (by decide)
  · exact reply14_survives 3000 _ 1 (by decide) (by decide)

/-- The report of the last two is not: its first entry has a rand. -/
theorem later_report_rejected :
    (sequence .rfcDraft14).run verify digest answers 1 = .ok measurements ∧
    validateCausality true measurements = .ok violations ∧
    ⟨second14 4000 3000, third14 4000 3000 2000, 2995, 2005⟩ ∈ violations ∧
    ∃ report, MalfeasanceReport.fromViolation base64
        ⟨second14 4000 3000, third14 4000 3000 2000, 2995, 2005⟩ = .ok report ∧
      validateReport base64 verify digest report ≠ .ok () := by
  refine ⟨run, causality, ?_, _, fromViolation_eq base64 rfl rfl, ?_⟩
  · exact List.mem_cons_of_mem _ (List.mem_cons_of_mem _ List.mem_cons_self)
  · intro haccepted
    obtain ⟨o, o', ⟨hspelled, -, hfirst⟩, -⟩ := validateReport_pair_iff.mp haccepted
    obtain ⟨-, -, -, hrand⟩ := eq_of_spelled base64_inverse hspelled
    cases hrand.symm.trans hfirst

end Roughenough.ReportingServer
