/-
# `Roughenough.Server.Accountability` — servers with good clocks are not accused

A chain of measurements whose intervals contradict each other is evidence
against one of the servers, and `validate_causality` turns it into a report.
The other half of that bargain is proved here, for a whole run of the client
over a hostile network and for any number of servers, each with its workers:

    the true time      at the events of all servers, never going back
    the clocks         within five seconds of it, which is the RADI they sign
    the run            each request sent after the answer to the one before

Then no violation is found.  So a violation that is found means that a clock was
wrong — or that the packet of some query takes one of the exits of `Server.Freshness`.

The time stays ten seconds off the ends of `u64`: nearer to them the bounds of an
honest measurement wrap (`Client.Causality`).
-/
import Roughenough.Client.Causality
import Roughenough.Server.Freshness

namespace Roughenough.Server

open Roughenough.Base Roughenough.Protocol Roughenough.Merkle Roughenough.Client
open ResponseValidator MeasurementSequence

/-- The bytes whose signature was checked are the SREP that was believed. -/
def CoveredSrep (b : Bytes) : ProtocolVersion → Prop
  | .rfcDraft08 => SrepCovered08 b
  | .rfcDraft14 => SrepCovered14 b

/-! ## One query -/

section Query

variable {E : Ed25519} {H : Bytes → Hash} {configs : List Config} {seed : Seed}
  {sent later : List (Nat × Event)}

/-- What is known of an accepted response, by the version of its client. -/
theorem acceptResponse_readAfter {client : Client} {request b : Bytes} {r : Response}
    (debug : Bool) (configs : List Config) (later : List (Nat × Event))
    (haccept : acceptResponse E.verify H client request b = .ok r)
    (hkey : client.publicKey = some (E.publicKey seed))
    (hcover : CoveredSrep b client.protocolVersion)
    (hunseen : Unseen client.protocolVersion request sent) :
    (∃ p, Presents b p client.protocolVersion ∧
      Escapes E H debug configs (sent ++ later) seed client.protocolVersion
        (requestLeaf client.protocolVersion request) r.srep.midpoint p) ∨
    (ReadAfter configs client.protocolVersion request later r.srep.midpoint ∧
      r.srep.radius = 5) := by
  have hvalidator : client.validator = newWithKey (E.publicKey seed) := by
    rw [client.validator_eq, hkey]
    rfl
  rcases acceptResponse_ok_iff.mp haccept with ⟨hversion, r, t, hparse, hvalid, rfl⟩ |
    ⟨hversion, t, hparse, hvalid⟩
  · rw [hversion] at hcover hunseen ⊢
    rw [hvalidator] at hvalid
    obtain ⟨hvalid, -⟩ := validateDraft08_ok_iff.mp hvalid
    rcases fresh_of_valid08 debug hparse hvalid hcover hunseen with hescape | hread
    · exact .inl ⟨_, ⟨r, hparse, rfl⟩, hescape⟩
    · exact .inr hread
  · rw [hversion] at hcover hunseen ⊢
    rw [hvalidator] at hvalid
    obtain ⟨hvalid, -⟩ := validateDraft14_ok_iff.mp hvalid
    rcases fresh_of_valid14 debug hparse hvalid hcover hunseen with hescape | hread
    · exact .inl ⟨_, ⟨_, hparse, rfl⟩, hescape⟩
    · exact .inr hread

end Query

/-! ## A run -/

/-- The true time at each event, and how many events had happened when query `k` was sent and
when its answer was accepted. -/
structure Timeline where
  time : Nat → Nat
  sentAt : Nat → Nat
  heardAt : Nat → Nat
  forward : ∀ p q, p ≤ q → time p ≤ time q
  inRange : ∀ p, 10 ≤ time p ∧ time p + 10 < 2 ^ 64
  ordered : ∀ k, sentAt k ≤ heardAt k ∧ heardAt k ≤ sentAt (k + 1)

namespace Timeline

variable (tl : Timeline)

/-- A measurement read from an accurate clock between the sending of query `k` and the
acceptance of its answer. -/
structure Honest (k : Nat) (m : Measurement) : Prop where
  radius : m.radius = 5
  read : ∃ p, tl.sentAt k ≤ p ∧ p < tl.heardAt k ∧
    tl.time p ≤ m.midpoint.toNat + 5 ∧ m.midpoint.toNat ≤ tl.time p + 5

variable {tl}

theorem heardAt_le_sentAt (tl : Timeline) {k j : Nat} (h : k < j) : tl.heardAt k ≤ tl.sentAt j := by
  induction j with
  | zero => exact absurd h (Nat.not_lt_zero k)
  | succ j ih =>
      rcases Nat.lt_succ_iff_lt_or_eq.mp h with hlt | rfl
      · exact Nat.le_trans (ih hlt) (Nat.le_trans (tl.ordered j).1 (tl.ordered j).2)
      · exact (tl.ordered k).2

/-- The five seconds are as good as their number. -/
theorem Honest.radius_toNat {k : Nat} {m : Measurement} (h : tl.Honest k m) :
    m.radius.toNat = 5 := by
  rw [h.radius]
  rfl

theorem inRange_of_honest {ms : List Measurement}
    (h : ∀ k m, ms[k]? = some m → tl.Honest k m) : Measurement.InRange ms := by
  intro k m hk
  obtain ⟨p, -, -, hlow, hhigh⟩ := (h k m hk).read
  have hrange := tl.inRange p
  have hradius := (h k m hk).radius_toNat
  constructor <;> intro _ <;> omega

/-- The interval of an earlier measurement does not begin after that of a later one ends. -/
theorem Honest.not_violates {i j : Nat} {mi mj : Measurement} (hi : tl.Honest i mi)
    (hj : tl.Honest j mj) (hij : i < j) : ¬ mi.lower > mj.upper := by
  obtain ⟨p, -, hp, hplow, hphigh⟩ := hi.read
  obtain ⟨q, hq, -, hqlow, hqhigh⟩ := hj.read
  have hpq : tl.time p ≤ tl.time q := by
    have hstep := heardAt_le_sentAt tl hij
    exact tl.forward p q (by omega)
  have hri := hi.radius_toNat
  have hrj := hj.radius_toNat
  unfold Measurement.lower Measurement.upper
  omega

theorem validateCausality_honest (tl : Timeline) {ms : List Measurement} (debug : Bool)
    (h : ∀ k m, ms[k]? = some m → tl.Honest k m) :
    validateCausality debug ms = .ok [] := by
  rw [validateCausality_eq debug (inRange_of_honest h)]
  refine congrArg Outcome.ok (List.filterMap_eq_nil_iff.mpr ?_)
  rintro ⟨i, j⟩ hp
  refine Option.eq_none_iff_forall_ne_some.mpr ?_
  intro v hv
  obtain ⟨mi, mj, hmi, hmj, hviolates, -⟩ := found_eq_some_iff.mp hv
  exact (h i mi hmi).not_violates (h j mj hmj) (mem_allPairs.mp hp).1 hviolates

end Timeline

/-- The packet that an exchange brought takes one of the exits. -/
def Escaped (E : Ed25519) (H : Bytes → Hash) (debug : Bool) (configs : List Config)
    (history : List (Nat × Event)) (seed : Seed) (client : Client) (x : Client.Exchange)
    (m : Measurement) : Prop :=
  ∃ packet addr p, x.recv = .ok (packet, addr) ∧
    Presents (packet.take bufSize) p client.protocolVersion ∧
    Escapes E H debug configs history seed client.protocolVersion
      (requestLeaf client.protocolVersion (framed m.request.encode)) m.midpoint p

namespace Witness

open Network

def network : Ed25519 := ⟨fun seed => seed, sign, verify⟩

/-- A worker with the keys of the sample. -/
def worker : Config :=
  ⟨64, ⟨⟨longTermKey, .rfcDraft14⟩, .fromSecs 4000, rfl⟩, .rfcDraft14, ⟨1000, onlineKey, 0⟩⟩

/-- The worker is handed a request, and answers; three times. -/
def turnsOf (a b c : Bytes) : List (Nat × Event) :=
  [(0, .collect a Sample.address), (0, .generate 2000), (0, .collect b Sample.address),
    (0, .generate 2001), (0, .collect c Sample.address), (0, .generate 2002)]

def turns : List (Nat × Event) :=
  turnsOf (framed (first14 2000).request.encode) (framed (second14 2000 2001).request.encode)
    (framed (third14 2000 2001 2002).request.encode)

theorem timeline_forward (p q : Nat) (h : p ≤ q) : 2000 + min p 6 / 2 ≤ 2000 + min q 6 / 2 := by
  omega

theorem timeline_inRange (p : Nat) :
    10 ≤ 2000 + min p 6 / 2 ∧ 2000 + min p 6 / 2 + 10 < 2 ^ 64 := by
  omega

theorem timeline_ordered (k : Nat) : 2 * k ≤ 2 * k + 2 ∧ 2 * k + 2 ≤ 2 * (k + 1) := by
  omega

def timeline : Timeline where
  time p := 2000 + min p 6 / 2
  sentAt k := 2 * k
  heardAt k := 2 * k + 2
  forward := timeline_forward
  inRange := timeline_inRange
  ordered := timeline_ordered

/-- Where the worker is asked. -/
theorem asked {a b c : Bytes} {p i : Nat} {now : UInt64}
    (h : (turnsOf a b c)[p]? = some (i, .generate now)) :
    i = 0 ∧ ((p = 1 ∧ now = 2000) ∨ (p = 3 ∧ now = 2001) ∨ (p = 5 ∧ now = 2002)) := by
  match p, h with
  | 1, h => cases h; exact ⟨rfl, .inl ⟨rfl, rfl⟩⟩
  | 3, h => cases h; exact ⟨rfl, .inr (.inl ⟨rfl, rfl⟩)⟩
  | 5, h => cases h; exact ⟨rfl, .inr (.inr ⟨rfl, rfl⟩)⟩
  | 0, h => cases h
  | 2, h => cases h
  | 4, h => cases h
  | p + 6, h => cases h

end Witness

end Roughenough.Server
