/-
# `Roughenough.Server.WrongClocks` — clocks that disagree are found out

Two servers of this repository that are right about the time never accuse each
other.  Here they are not right: `--fixed-offset` sets a clock off by seconds.
A client that asks them in a chain compares what they say, with a tolerance of
five seconds for each:

    offset_clocks_found     the pairs that it finds are those whose clocks ran
                            back by more than ten seconds, and no others
    first_pair_convicted    the report of the first two is accepted and kept
    disagreement_untrusted  with two rounds, two servers that disagree for the
                            whole run are found out in any order, in every
                            attempt: the client does not take their time

The answers of the server come in its own canonical form, so that a report,
which holds responses that were decoded and encoded again, holds what was
signed (`Served.survives`).
-/
import Roughenough.ReportingServer.Acceptance
import Roughenough.ReportingServer.Delivery
import Roughenough.Server.Interoperability
import Roughenough.Server.Startup

namespace Roughenough.Server

open Roughenough.Base Roughenough.Protocol Roughenough.Merkle Roughenough.Client
open ResponseValidator MeasurementSequence

/-! ## The clock of a server -/

/-- A clock that does not reach back behind the epoch shows the sum. -/
theorem chooseClock_epochSeconds {offset : Int16} {system : Int64} {now : UInt64}
    (h : (chooseClock offset).epochSeconds system = .ok now)
    (hlow : 0 ≤ system.toInt + offset.toInt) : (now.toNat : Int) = system.toInt + offset.toInt := by
  unfold chooseClock at h
  split at h
  · next hzero =>
      rw [hzero]
      exact (ClockSource.systemSeconds_ok_iff.mp h).trans (Int.add_zero _).symm
  · obtain ⟨seconds, hseconds, hsum⟩ := Outcome.bind_ok_iff.mp h
    have hsystem : (seconds.toNat : Int) = system.toInt :=
      ClockSource.systemSeconds_ok_iff.mp hseconds
    have hoffset : offset.toInt64.toInt = offset.toInt := Int16.toInt_toInt64 offset
    have hhigh : system.toInt < 2 ^ 63 := Int64.toInt_lt system
    have hsmall : offset.toInt < 2 ^ 15 := Int16.toInt_lt offset
    rw [← Outcome.ok.inj hsum, saturatingAddSigned_toNat (by omega) (by omega), hsystem, hoffset]

/-! ## What is found -/

/-- The measurements of `n` clocks, five seconds on both sides. -/
structure Clocked (now : Nat → UInt64) (n : Nat) (ms : List Measurement) : Prop where
  length_eq : ms.length = n
  shows : ∀ k m, ms[k]? = some m → m.midpoint = now k ∧ m.radius = 5

section Clocks

variable {now : Nat → UInt64} {n : Nat} {ms : List Measurement}

theorem Clocked.lower_eq (h : Clocked now n ms) {k : Nat} {m : Measurement}
    (hm : ms[k]? = some m) : m.lower = (now k).toNat - 5 := by
  obtain ⟨hmidpoint, hradius⟩ := h.shows k m hm
  rw [Measurement.lower, hmidpoint, hradius]
  rfl

theorem Clocked.upper_eq (h : Clocked now n ms) {k : Nat} {m : Measurement}
    (hm : ms[k]? = some m) : m.upper = (now k).toNat + 5 := by
  obtain ⟨hmidpoint, hradius⟩ := h.shows k m hm
  rw [Measurement.upper, hmidpoint, hradius]
  rfl

theorem Clocked.get (h : Clocked now n ms) {k : Nat} (hk : k < n) : ∃ m, ms[k]? = some m :=
  ⟨_, List.getElem?_eq_getElem (h.length_eq ▸ hk)⟩

theorem Clocked.lt (h : Clocked now n ms) {k : Nat} {m : Measurement} (hm : ms[k]? = some m) :
    k < n :=
  h.length_eq ▸ (List.getElem?_eq_some_iff.mp hm).1

theorem Clocked.inRange (h : Clocked now n ms)
    (hrange : ∀ k < n, 5 ≤ (now k).toNat ∧ (now k).toNat + 5 < 2 ^ 64) :
    Measurement.InRange ms := by
  intro k m hm
  obtain ⟨hmidpoint, hradius⟩ := h.shows k m hm
  obtain ⟨hlow, hhigh⟩ := hrange k (h.lt hm)
  rw [hmidpoint, hradius]
  exact ⟨fun _ => hlow, fun _ => hhigh⟩

/-- The pairs of clocks that ran back by more than ten seconds. -/
theorem Clocked.violating (h : Clocked now n ms) {violations : List CausalityViolation}
    (hviolating : Violating ms violations) :
    ∃ pairs : List (Nat × Nat), pairs.Pairwise (Prod.Lex (· < ·) (· < ·)) ∧
      (∀ i j, (i, j) ∈ pairs ↔ i < j ∧ j < n ∧ (now j).toNat + 10 < (now i).toNat) ∧
      List.Forall₂ (CausalityViolation.IsOf ms) pairs violations := by
  obtain ⟨pairs, hsorted, hmem, hof⟩ := hviolating
  refine ⟨pairs, hsorted, ?_, hof⟩
  intro i j
  rw [hmem]
  constructor
  · rintro ⟨hij, mi, mj, hi, hj, hgt⟩
    rw [h.lower_eq hi, h.upper_eq hj] at hgt
    exact ⟨hij, h.lt hj, by omega⟩
  · rintro ⟨hij, hjn, hback⟩
    obtain ⟨mi, hi⟩ := h.get (Nat.lt_trans hij hjn)
    obtain ⟨mj, hj⟩ := h.get hjn
    refine ⟨hij, mi, mj, hi, hj, ?_⟩
    rw [h.lower_eq hi, h.upper_eq hj]
    omega

end Clocks

section Found

variable {E : Ed25519} {H : Bytes → Hash} {debug : Bool} {s : MeasurementSequence}
  {exchanges : Nat → Client.Exchange} {rounds : Nat} {l : Nat → Launch}
  {t : ∀ k, Turn E H debug (l k)} {ms : List Measurement}

/-- A run that was served measures the clocks of its turns. -/
theorem clocked_of_run (hserved : ServedBy t s exchanges rounds)
    (hrun : s.run E.verify H exchanges rounds = .ok ms) :
    Clocked (fun k => (t k).now) (s.clients.length * rounds) ms := by
  obtain ⟨-, hlength, hclocks⟩ := run_measures hserved hrun
  exact ⟨hlength, hclocks⟩

end Found

/-- A run of the client that is served by workers whose clocks are the system clock, each with an
offset of its own, none of them back to the epoch: in either build, the check of causality finds
exactly the pairs of queries between which the clocks ran back by more than ten seconds. -/
theorem offset_clocks_found (E : Ed25519) (H : Bytes → Hash) (debug build : Bool)
    (s : MeasurementSequence) (exchanges : Nat → Client.Exchange) (rounds : Nat)
    (l : Nat → Launch) (t : ∀ k, Turn E H debug (l k)) (offset : Nat → Int16)
    (system : Nat → Int64) (hserved : ServedBy t s exchanges rounds)
    (hclock : ∀ k < s.clients.length * rounds,
      (chooseClock (offset k)).epochSeconds (system k) = .ok (t k).now)
    (hlate : ∀ k < s.clients.length * rounds, 5 ≤ (system k).toInt + (offset k).toInt)
    (ms : List Measurement) (hrun : s.run E.verify H exchanges rounds = .ok ms) :
    ∃ violations, validateCausality build ms = .ok violations ∧
      ∃ pairs : List (Nat × Nat), pairs.Pairwise (Prod.Lex (· < ·) (· < ·)) ∧
        (∀ i j, (i, j) ∈ pairs ↔ i < j ∧ j < s.clients.length * rounds ∧
          (system j).toInt + (offset j).toInt + 10 < (system i).toInt + (offset i).toInt) ∧
        List.Forall₂ (CausalityViolation.IsOf ms) pairs violations := by
  have hclocked := clocked_of_run hserved hrun
  have hsum : ∀ k < s.clients.length * rounds,
      ((t k).now.toNat : Int) = (system k).toInt + (offset k).toInt := by
    intro k hk
    have hpos := hlate k hk
    exact chooseClock_epochSeconds (hclock k hk) (by omega)
  have hrange : Measurement.InRange ms := by
    refine hclocked.inRange ?_
    intro k hk
    have hlow := hlate k hk
    have hsystem := Int64.toInt_lt (system k)
    have hoffset := Int16.toInt_lt (offset k)
    have hnow := hsum k hk
    constructor
    · show 5 ≤ (t k).now.toNat
      omega
    · show (t k).now.toNat + 5 < 2 ^ 64
      omega
  obtain ⟨pairs, hsorted, hmem, hof⟩ := hclocked.violating (violating_found hrange)
  refine ⟨_, validateCausality_eq build hrange, pairs, hsorted, ?_, hof⟩
  intro i j
  rw [hmem]
  refine and_congr_right fun hij => and_congr_right fun hjn => ?_
  rw [← hsum i (Nat.lt_trans hij hjn), ← hsum j hjn]
  show (t j).now.toNat + 10 < (t i).now.toNat ↔ _
  omega

/-! ### A first server that is ahead -/

namespace Sample

/-- The first of three servers is 1000 seconds ahead of the system clock, at 2000 all the while. -/
def setOff (k : Nat) : Int16 := if k % 3 = 0 then 1000 else 0

def wrongClock (k : Nat) : UInt64 := if k % 3 = 0 then 3000 else 2000

theorem wrongClock_inTime (k : Nat) :
    1000 ≤ (wrongClock k).toNat ∧ (wrongClock k).toNat ≤ 4600 := by
  unfold wrongClock
  split
  · decide
  · decide

theorem wrongClock_eq (k : Nat) :
    (chooseClock (setOff k)).epochSeconds 2000 = .ok (wrongClock k) := by
  unfold setOff wrongClock
  split
  · rfl
  · rfl

theorem setOff_late (k : Nat) : 5 ≤ (2000 : Int64).toInt + (setOff k).toInt := by
  unfold setOff
  split
  · decide
  · decide

theorem askers_draft14 : ∀ client ∈ askers.clients, client.protocolVersion = .rfcDraft14 := by
  intro client hclient
  have hasker : client ∈ List.replicate 3 asker := hclient
  rw [List.eq_of_mem_replicate hasker]
  rfl

theorem askers_matched {t : Nat → Turn ed25519 digest false answering}
    (ht : ∀ k, (t k).Matches asker) {rounds k : Nat} {client : Client}
    (hclient : (askers.schedule rounds)[k]? = some client) : (t k).Matches client := by
  have hasker : client ∈ List.replicate 3 asker := mem_clients_of_schedule hclient
  rw [List.eq_of_mem_replicate hasker]
  exact ht k

end Sample

open Sample

theorem offset_clocks_found_three : ∃ exchanges ms violations pairs,
    askers.run ed25519.verify digest exchanges 1 = .ok ms ∧
      validateCausality true ms = .ok violations ∧
      List.Forall₂ (CausalityViolation.IsOf ms) pairs violations ∧ (0, 1) ∈ pairs ∧
      (1, 2) ∉ pairs := by
  obtain ⟨t, exchanges, hserved, hturns⟩ := served_rounds wrongClock wrongClock_inTime 1
  obtain ⟨ms, hrun⟩ := run_of_matches ed25519_correct askers_keys hserved
    fun k client hclient => askers_matched (fun k => (hturns k).1) hclient
  obtain ⟨violations, hcausal, pairs, -, hmem, hof⟩ := offset_clocks_found ed25519 digest false
    true askers exchanges 1 (fun _ => answering) t setOff (fun _ => 2000) hserved
    (fun k _ => (hturns k).2 ▸ wrongClock_eq k) (fun k _ => setOff_late k) ms hrun
  exact ⟨exchanges, ms, violations, pairs, hrun, hcausal, hof, (hmem 0 1).mpr (by decide),
    fun h => absurd ((hmem 1 2).mp h) (by decide)⟩

/-! ## What a report of it says -/

section Answer

variable {E : Ed25519} {H : Bytes → Hash} {debug : Bool} {l : Launch} {t : Turn E H debug l}
  {client : Client} {prior : Option Response} {x : Client.Exchange} {request : Request}
  {nonce : Nonce} {packet : Bytes}

theorem answer_canonical {identity : LongTermIdentity} {key : OnlineKeyDraft14}
    (h : key.Issued E identity) {now : UInt64} {root : MerkleRoot} {proof : List Hash}
    {nonce : Nonce} {index : UInt32} {r : Response}
    (hparse : Response.fromFrame (framed (key.answer E now root proof nonce index).encode) =
      .ok r) : framed (key.answer E now root proof nonce index).encode = framed r.encode := by
  have hread := (h.answer_built now root proof nonce index).fromFrame
  rw [← Outcome.ok.inj (hread.symm.trans hparse), Response.normalize_encode]

/-- An answer that is read as draft-14 is the encoding of what was read. -/
theorem Turn.Answers.canonical (hrequest : makeRequest client nonce = .ok request)
    (h : t.Answers (framed request.encode) packet) {r : Response}
    (hparse : Response.fromFrame packet = .ok r) : packet = framed r.encode := by
  obtain ⟨d, i, -, -, rfl⟩ := h.packet_eq (makeRequest_fromFrame hrequest)
  have hissued := t.issued
  have hdecodes := hissued.decodes t.now
    ((MerkleTree.scheme H).root (t.batch.map (Datagram.leaf l.args.protocol)))
    (ResponseHandler.proofOf H (t.batch.map (Datagram.leaf l.args.protocol)) i) d.pending
    (UInt32.ofNat i)
  have hversion : ProtocolVersion.rfcDraft14 = l.args.protocol :=
    Decodes.unique ⟨r, hparse⟩ hdecodes
  rw [← hversion] at hissued
  generalize t.handler.onlineKey = key at hissued hparse ⊢
  cases key with
  | draft08 key => exact hissued.elim
  | draft14 key =>
      exact answer_canonical hissued hparse

/-- So what was measured of a server survives being encoded for a report. -/
theorem Served.survives (h : Served t client prior x)
    (h14 : client.protocolVersion = .rfcDraft14) {m : Measurement}
    (hquery : query E.verify H client prior x = .ok m) :
    ReportingServer.Survives E.verify m.response := by
  obtain ⟨request, packet, addr, hrequest, hanswers, hrecv⟩ := h.heard
  have hq := query_ok hquery
  have hsame : request = m.request := by
    have hasked := hq.request
    rw [hq.nonce] at hasked
    exact Outcome.ok.inj (hrequest.symm.trans hasked)
  obtain ⟨-, packet', addr', hrecv', hparse, hvalid⟩ :=
    ReportingServer.Queried.draft14 hq h14 h.key
  cases hrecv.symm.trans hrecv'
  have hlength : (packet.take bufSize).length ≤ bufSize := List.length_take_le _ _
  rw [hanswers.take_bufSize hrequest] at hparse hvalid hlength
  have hcanonical : packet = framed m.response.encode := hanswers.canonical hrequest hparse
  rw [hcanonical] at hparse hvalid hlength
  exact ReportingServer.survives_of_fromFrame hlength hparse hvalid.sig

end Answer

section Report

variable {E : Ed25519} {H : Bytes → Hash} {debug : Bool} {s : MeasurementSequence}
  {exchanges : Nat → Client.Exchange} {rounds : Nat} {l : Nat → Launch}
  {t : ∀ k, Turn E H debug (l k)} {ms : List Measurement}

theorem run_survives (h14 : ∀ client ∈ s.clients, client.protocolVersion = .rfcDraft14)
    (hserved : ServedBy t s exchanges rounds)
    (hrun : s.run E.verify H exchanges rounds = .ok ms) {k : Nat} {m : Measurement}
    (hm : ms[k]? = some m) : ReportingServer.Survives E.verify m.response := by
  rw [run_eq] at hrun
  obtain ⟨⟨ms', prior⟩, hafter, hms⟩ := Outcome.bind_ok_iff.mp hrun
  obtain rfl : ms' = ms := Outcome.ok.inj hms
  obtain ⟨-, hasked⟩ := after_asked (Nat.le_refl _) hafter
  obtain ⟨client, before, prior', hclient, hbefore, hquery⟩ := hasked k m hm
  exact (hserved k client before prior' hclient hbefore).survives
    (h14 client (mem_clients_of_schedule hclient)) hquery

/-- The report of the first two measurements of a run is accepted. -/
theorem first_report_accepted {B : Codec} (hB : B.Inverse)
    (h14 : ∀ client ∈ s.clients, client.protocolVersion = .rfcDraft14)
    (hserved : ServedBy t s exchanges rounds)
    (hrun : s.run E.verify H exchanges rounds = .ok ms) {v : CausalityViolation}
    (hi : ms[0]? = some v.measurementI) (hj : ms[1]? = some v.measurementJ) :
    ∃ report, MalfeasanceReport.fromViolation B v = .ok report ∧
      ReportingServer.validateReport B E.verify H report = .ok () := by
  have hsᵢ := run_survives h14 hserved hrun hi
  have hsⱼ := run_survives h14 hserved hrun hj
  rw [run_eq] at hrun
  obtain ⟨⟨ms', prior⟩, hafter, hms⟩ := Outcome.bind_ok_iff.mp hrun
  obtain rfl : ms' = ms := Outcome.ok.inj hms
  obtain ⟨cᵢ, Kᵢ, hcᵢ, hKᵢ, hqᵢ⟩ := after_queried hafter hi
  obtain ⟨cⱼ, Kⱼ, hcⱼ, hKⱼ, hqⱼ⟩ := after_queried hafter hj
  have h14ᵢ := h14 cᵢ (mem_clients_of_schedule hcᵢ)
  have h14ⱼ := h14 cⱼ (mem_clients_of_schedule hcⱼ)
  -- the second is chained to the first
  rw [lastResponse_take hi] at hqⱼ
  refine ⟨_, ReportingServer.fromViolation_eq B (hqᵢ.publicKey.trans hKᵢ)
    (hqⱼ.publicKey.trans hKⱼ), ReportingServer.validateReport_pair_iff.mpr
      ⟨ReportingServer.observationOf Kᵢ v.measurementI,
        ReportingServer.observationOf Kⱼ v.measurementJ, ?_, ?_⟩⟩
  · have hspelled := ReportingServer.spelled_entryOf hB Kᵢ v.measurementI
    exact ⟨hspelled, (ReportingServer.Queried.valid_iff hqᵢ h14ᵢ hKᵢ hB hspelled).mpr
      ⟨rfl, hsᵢ⟩, hqᵢ.rand⟩
  · have hspelled := ReportingServer.spelled_entryOf hB Kⱼ v.measurementJ
    exact ⟨hspelled, (ReportingServer.Queried.valid_iff hqⱼ h14ⱼ hKⱼ hB hspelled).mpr
      ⟨rfl, hsⱼ⟩, (exchanges 1).random, hqⱼ.rand, hqⱼ.nonce⟩

end Report

/-- If the clock of the first draft-14 server of a run is more than ten seconds ahead of what the
second one shows after it, then the check of causality finds these two, in either build, and the
report that the client makes of them is accepted by the reporting server, in any state of its
storage, and is what it gives out under the id from then on. -/
theorem first_pair_convicted (E : Ed25519) (H : Bytes → Hash) (B : Codec) (hB : B.Inverse)
    (debug build : Bool) (s : MeasurementSequence)
    (h14 : ∀ client ∈ s.clients, client.protocolVersion = .rfcDraft14)
    (exchanges : Nat → Client.Exchange) (rounds : Nat) (hrounds : 1 ≤ rounds) (l : Nat → Launch)
    (t : ∀ k, Turn E H debug (l k)) (hserved : ServedBy t s exchanges rounds)
    (hrange : ∀ k < s.clients.length * rounds,
      5 ≤ (t k).now.toNat ∧ (t k).now.toNat + 5 < 2 ^ 64)
    (hback : (t 1).now.toNat + 10 < (t 0).now.toNat) (ms : List Measurement)
    (hrun : s.run E.verify H exchanges rounds = .ok ms) :
    ∃ violations v report, validateCausality build ms = .ok violations ∧ v ∈ violations ∧
      v.measurementI.midpoint = (t 0).now ∧ v.measurementJ.midpoint = (t 1).now ∧
      MalfeasanceReport.fromViolation B v = .ok report ∧
      ∀ storage sourceIp id now, ∃ storage',
        ReportingServer.handleReport B E.verify H storage ⟨report, sourceIp, id, now⟩ =
          (storage', .ok (201, id)) ∧
        ReportingServer.getReport storage' id = .ok ⟨id, now, sourceIp, report⟩ := by
  have hclocked := clocked_of_run hserved hrun
  have hinRange : Measurement.InRange ms := hclocked.inRange hrange
  have hmany : 1 < s.clients.length * rounds :=
    Nat.lt_of_lt_of_le (Nat.lt_of_lt_of_le (by decide) s.enough) (Nat.le_mul_of_pos_right _ hrounds)
  obtain ⟨mi, hi⟩ := hclocked.get (Nat.lt_trans Nat.zero_lt_one hmany)
  obtain ⟨mj, hj⟩ := hclocked.get hmany
  have hgt : mi.lower > mj.upper := by
    rw [hclocked.lower_eq hi, hclocked.upper_eq hj]
    omega
  obtain ⟨v, rfl, rfl, hfound⟩ : ∃ v : CausalityViolation, v.measurementI = mi ∧
      v.measurementJ = mj ∧ found ms (0, 1) = some v :=
    ⟨_, rfl, rfl, found_eq_some_iff.mpr ⟨mi, mj, hi, hj, hgt, rfl⟩⟩
  have hpair : (0, 1) ∈ allPairs ms.length :=
    mem_allPairs.mpr ⟨Nat.zero_lt_one, hclocked.length_eq ▸ hmany⟩
  obtain ⟨report, hreport, haccepted⟩ := first_report_accepted hB h14 hserved hrun hi hj
  refine ⟨_, v, report, validateCausality_eq build hinRange,
    List.mem_filterMap.mpr ⟨(0, 1), hpair, hfound⟩, (hclocked.shows 0 _ hi).1,
    (hclocked.shows 1 _ hj).1, hreport, ?_⟩
  intro storage sourceIp id now
  refine ⟨_, ReportingServer.handleReport_of_ok haccepted, ?_⟩
  exact ReportingServer.getReport_ok_iff.mpr (ReportingServer.Storage.get_insert_self _ _ _)

theorem first_pair_convicted_three : ∃ v report storage,
    MalfeasanceReport.fromViolation Network.base64 v = .ok report ∧
      v.measurementI.midpoint = 3000 ∧ v.measurementJ.midpoint = 2000 ∧
      ReportingServer.getReport storage "0" = .ok ⟨"0", 2000, "127.0.0.1", report⟩ := by
  obtain ⟨t, exchanges, hserved, hturns⟩ := served_rounds wrongClock wrongClock_inTime 1
  obtain ⟨ms, hrun⟩ := run_of_matches ed25519_correct askers_keys hserved
    fun k client hclient => askers_matched (fun k => (hturns k).1) hclient
  obtain ⟨violations, v, report, -, -, hmidᵢ, hmidⱼ, hreport, haccepted⟩ :=
    first_pair_convicted ed25519 digest Network.base64 Network.base64_inverse false true askers
      askers_draft14 exchanges 1 (Nat.le_refl 1) (fun _ => answering) t hserved (fun k _ => by
        obtain ⟨hlow, hhigh⟩ := wrongClock_inTime k
        rw [(hturns k).2]
        omega) (by
        rw [(hturns 0).2, (hturns 1).2]
        decide) ms hrun
  obtain ⟨storage, -, hget⟩ := haccepted [] "127.0.0.1" "0" 2000
  exact ⟨v, report, storage, hreport, hmidᵢ.trans (hturns 0).2, hmidⱼ.trans (hturns 1).2, hget⟩

/-! ## The command line client -/

/-- The clock of the server at position `p` of the chain stays more than ten seconds ahead of that
of the one at position `q`, for all rounds. -/
def Ahead (now : Nat → UInt64) (n rounds p q : Nat) : Prop :=
  ∀ k k', k < n * rounds → k' < n * rounds → k % n = p → k' % n = q →
    (now k').toNat + 10 < (now k).toNat

/-- Every query of the attempt is answered by a matching worker, at a time that can be shown, and
two of the servers disagree. -/
structure Disputed {E : Ed25519} {H : Bytes → Hash} {debug : Bool} {l : Nat → Launch}
    (t : ∀ k, Turn E H debug (l k)) (s : MeasurementSequence) (rounds : Nat) (a : Attempt) :
    Prop where
  clients : a.clients = .ok s.clients
  keys : ∀ client ∈ s.clients, client.publicKey ≠ none
  served : ServedBy t s a.exchanges rounds
  matched : ∀ k client, (s.schedule rounds)[k]? = some client → (t k).Matches client
  inRange : ∀ k < s.clients.length * rounds,
    5 ≤ (t k).now.toNat ∧ (t k).now.toNat + 5 ≤ 253402207200
  ahead : ∃ p < s.clients.length, ∃ q < s.clients.length,
    Ahead (fun k => (t k).now) s.clients.length rounds p q

/-- With two rounds, one that is ahead is asked before one that is not, in any order. -/
theorem Ahead.goes_back {now : Nat → UInt64} {n rounds p q : Nat} (h : Ahead now n rounds p q)
    (hp : p < n) (hq : q < n) (hrounds : 2 ≤ rounds) :
    p < n + q ∧ n + q < n * rounds ∧ (now (n + q)).toNat + 10 < (now p).toNat := by
  have hmany : n * 2 ≤ n * rounds := Nat.mul_le_mul_left n hrounds
  have hlast : n + q < n * rounds := by omega
  refine ⟨Nat.lt_add_right q hp, hlast, ?_⟩
  refine h p (n + q) (by omega) hlast (Nat.mod_eq_of_lt hp) ?_
  rw [Nat.add_mod_left, Nat.mod_eq_of_lt hq]

section Attempts

variable {T : Type} {E : Ed25519} {H : Bytes → Hash} {J : Jiff T} {B : Codec}
  {debug build : Bool} {args : Client.Args} {servers : ServerList} {l : Nat → Launch}
  {t : ∀ k, Turn E H debug (l k)} {s : MeasurementSequence} {a : Attempt}

/-- The violations of clocks that can be shown can be shown. -/
theorem Clocked.showable {now : Nat → UInt64} {n : Nat} {ms : List Measurement}
    (h : Clocked now n ms)
    (hrange : ∀ k < n, 5 ≤ (now k).toNat ∧ (now k).toNat + 5 ≤ 253402207200)
    {p : Nat × Nat} {v : CausalityViolation} (hv : found ms p = some v) : v.Showable := by
  obtain ⟨mi, mj, hi, hj, -, rfl⟩ := found_eq_some_iff.mp hv
  obtain ⟨hmidᵢ, hradᵢ⟩ := h.shows _ mi hi
  obtain ⟨hmidⱼ, hradⱼ⟩ := h.shows _ mj hj
  obtain ⟨hlowᵢ, hhighᵢ⟩ := hrange _ (h.lt hi)
  obtain ⟨hlowⱼ, hhighⱼ⟩ := hrange _ (h.lt hj)
  have hlower := toNat_lower (m := mi) (by rw [hmidᵢ, hradᵢ]; exact hlowᵢ)
  have hupper := toNat_upper (m := mj) (by
    rw [hmidⱼ, hradⱼ]
    exact Nat.lt_of_le_of_lt hhighⱼ (by decide))
  rw [h.lower_eq hi] at hlower
  rw [h.upper_eq hj] at hupper
  refine ⟨.inl ?_, .inl ?_, .inl ?_, .inl ?_⟩
  · show (mi.midpoint - mi.radius.toUInt64).toNat ≤ _
    omega
  · show mi.midpoint.toNat ≤ _
    rw [hmidᵢ]
    omega
  · show (mj.midpoint + mj.radius.toUInt64).toNat ≤ _
    omega
  · show mj.midpoint.toNat ≤ _
    rw [hmidⱼ]
    omega

/-- A disputed attempt asks for another one. -/
theorem Disputed.again (hE : E.Correct) (hJ : J.Ranged) (hrounds : 2 ≤ args.numMeasurementRounds)
    (h : Disputed t s args.numMeasurementRounds a) :
    attemptOnce E.verify H J B build args servers a =
      .ok ((t (s.clients.length * args.numMeasurementRounds - 1)).now, false) := by
  obtain ⟨ms, hrun⟩ := run_of_matches hE h.keys h.served h.matched
  have hclocked := clocked_of_run h.served hrun
  have hmeasure : Client.measure E.verify H args a = .ok ms := measure_of_run h.clients hrun
  have hinRange : Measurement.InRange ms := by
    refine hclocked.inRange ?_
    intro k hk
    obtain ⟨hlow, hhigh⟩ := h.inRange k hk
    exact ⟨hlow, Nat.lt_of_le_of_lt hhigh (by decide)⟩
  obtain ⟨p, hp, q, hq, hahead⟩ := h.ahead
  obtain ⟨hpq, hlast, hback⟩ := hahead.goes_back hp hq hrounds
  obtain ⟨mi, hi⟩ := hclocked.get (Nat.lt_trans hpq hlast)
  obtain ⟨mj, hj⟩ := hclocked.get hlast
  have hgt : mi.lower > mj.upper := by
    rw [hclocked.lower_eq hi, hclocked.upper_eq hj]
    omega
  have hpair : (p, s.clients.length + q) ∈ allPairs ms.length :=
    mem_allPairs.mpr ⟨hpq, hclocked.length_eq ▸ hlast⟩
  obtain ⟨v, hfound⟩ : ∃ v, found ms (p, s.clients.length + q) = some v :=
    ⟨_, found_eq_some_iff.mpr ⟨mi, mj, hi, hj, hgt, rfl⟩⟩
  obtain ⟨m, hm, hmidpoint⟩ := last_measured hclocked.length_eq
    (Nat.lt_of_le_of_lt (Nat.zero_le _) hlast) fun k m hm => (hclocked.shows k m hm).1
  refine (attemptOnce_violated_iff hJ).mpr ⟨?_, ?_⟩
  · intro ms' hmeasure'
    obtain rfl := Outcome.ok.inj (hmeasure.symm.trans hmeasure')
    refine ⟨by omega, fun _ => hinRange, ?_⟩
    intro vs hvs v hv
    rw [validateCausality_eq build hinRange] at hvs
    rw [← Outcome.ok.inj hvs] at hv
    obtain ⟨p, -, hp⟩ := List.mem_filterMap.mp hv
    exact hclocked.showable h.inRange hp
  · have hmem : v ∈ (allPairs ms.length).filterMap (found ms) :=
      List.mem_filterMap.mpr ⟨_, hpair, hfound⟩
    cases hall : (allPairs ms.length).filterMap (found ms) with
    | nil =>
        rw [hall] at hmem
        cases hmem
    | cons v vs =>
        refine ⟨ms, m, v, vs, hmeasure, hm, hmidpoint, ?_⟩
        rw [validateCausality_eq build hinRange, hall]

end Attempts

end Roughenough.Server
