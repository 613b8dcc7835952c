/-
# `Roughenough.Server.Selection` — which requests are answered, and in what format

A request says three things about the answer it wants: its VER lists versions,
its layout has a TYPE or not, and it may have a SRV that commits to a
long-term key.  The server reads all three and decides nothing by them.

    answers     every datagram that `from_frame` accepts
    format      that of the `protocol_version` the handler was configured with

    answered_whatever_srv        the answered datagrams are the accepted ones
    answered_as_configured       a frame decodes as the configured version alone

Nothing is assumed about the size of a batch: a release build does not check it.
-/
import Roughenough.Client.Sequence
import Roughenough.Server.EndToEnd

namespace Roughenough.Server

open Roughenough.Base Roughenough.Protocol Roughenough.Merkle
open ResponseHandler

/-! ## The datagrams of the open batch -/

theorem mem_accept_iff {requestBytes : Bytes} {srcAddr : SocketAddr} {d : Datagram} :
    d ∈ (accept requestBytes srcAddr).toList ↔ d.bytes = requestBytes ∧ d.srcAddr = srcAddr := by
  rw [Option.mem_toList]
  constructor
  · intro haccept
    unfold accept at haccept
    split at haccept
    · cases haccept
      exact ⟨rfl, rfl⟩
    · cases haccept
    · cases haccept
  · rintro ⟨rfl, rfl⟩
    exact accept_datagram d

/-- A datagram joins the batch by its own event, and stays until a `generate`. -/
theorem mem_extend_iff {batch : List Datagram} {e : Event} {d : Datagram} :
    d ∈ extend batch e ↔
      (d ∈ batch ∧ ∀ now, e ≠ .generate now) ∨ e = .collect d.bytes d.srcAddr := by
  cases e with
  | collect requestBytes srcAddr =>
      simp only [extend, List.mem_append, mem_accept_iff, ne_eq, reduceCtorEq, not_false_eq_true,
        implies_true, and_true, Event.collect.injEq]
      exact or_congr_right (and_congr eq_comm eq_comm)
  | generate now =>
      simp only [extend, List.not_mem_nil, reduceCtorEq, or_false, false_iff, not_and]
      exact fun _ hnever => hnever now rfl
  | replace draw =>
      simp only [extend, ne_eq, reduceCtorEq, not_false_eq_true, implies_true, and_true, or_false]
  | reset =>
      simp only [extend, ne_eq, reduceCtorEq, not_false_eq_true, implies_true, and_true, or_false]

/-- The open batch: the accepted datagrams behind which there is no `generate`. -/
theorem mem_openBatch_iff {events : List Event} {d : Datagram} :
    d ∈ openBatch events ↔ ∃ pre post, events = pre ++ .collect d.bytes d.srcAddr :: post ∧
      ∀ now, .generate now ∉ post := by
  induction events using List.reverseRecOn with
  | nil =>
      constructor
      · intro hd
        cases hd
      · rintro ⟨pre, post, heq, -⟩
        exact absurd heq.symm (List.append_ne_nil_of_right_ne_nil _ (List.cons_ne_nil _ _))
  | append_singleton events e ih =>
      rw [openBatch_concat, mem_extend_iff, ih]
      constructor
      · rintro (⟨⟨pre, post, rfl, hpost⟩, hne⟩ | rfl)
        · refine ⟨pre, post ++ [e], by rw [List.append_assoc, List.cons_append], ?_⟩
          intro now hnow
          rcases List.mem_append.mp hnow with hin | hin
          · exact hpost now hin
          · exact hne now (List.mem_singleton.mp hin).symm
        · exact ⟨events, [], rfl, fun _ h => nomatch h⟩
      · rintro ⟨pre, post, heq, hpost⟩
        rcases List.eq_nil_or_concat post with rfl | ⟨post, last, rfl⟩
        · obtain ⟨-, he⟩ := List.append_inj' heq rfl
          exact .inr (List.singleton_inj.mp he)
        · rw [List.concat_eq_append] at heq hpost
          rw [← List.cons_append, ← List.append_assoc] at heq
          obtain ⟨hevents, he⟩ := List.append_inj' heq rfl
          cases List.singleton_inj.mp he
          refine .inl ⟨⟨pre, post, hevents, fun now hin => ?_⟩, fun now he => ?_⟩
          · exact hpost now (List.mem_append_left _ hin)
          · exact hpost now (List.mem_append_right _ (List.mem_singleton.mpr he.symm))

/-! ## What is sent -/

section Sent

variable {E : Ed25519} {H : Bytes → Hash} {debug : Bool}

/-- After any run, a `generate_responses` that returns has sent one answer of the key for every
datagram of the open batch. -/
theorem serve_sent {c : Config} {events : List Event} {h h' : RequestHandler} {now : UInt64}
    {outs : List (SocketAddr × Bytes)} (hrun : serve E H debug c events = .ok h)
    (hgen : h.generateResponses E H debug now = .ok (outs, h')) :
    outs.length = (openBatch events).length ∧ ∃ root, ∀ (i : Nat) (d : Datagram),
      (openBatch events)[i]? = some d → ∃ proof, outs[i]? = some (d.srcAddr,
        framed (h.responder.onlineKey.encode E now root proof d.pending (UInt32.ofNat i))) := by
  obtain ⟨hh, -⟩ := serve_holding hrun
  simp only [RequestHandler.generateResponses, Outcome.bind_ok_iff, Outcome.pure_eq,
    Outcome.ok.injEq, Prod.mk.injEq] at hgen
  obtain ⟨⟨outs', r⟩, hprocess, rfl, -⟩ := hgen
  obtain ⟨root, -, hsent⟩ := processResponses_sent hh.sound hprocess
  rw [hh.requests] at hsent
  refine ⟨hsent.length_eq.trans (List.length_map _), root, ?_⟩
  intro i d hd
  obtain ⟨proof, hout⟩ := hsent.frame i d.pending (by rw [List.getElem?_map, hd]; rfl)
  rw [Nat.zero_add] at hout
  exact ⟨proof, hout⟩

/-- In every run over any datagrams and calls: a `generate_responses` that returns sends one answer
to every datagram that `from_frame` accepted since the last one, in order and to its source, and
nothing else.  The SRV of a request, if it has one, plays no part. -/
theorem answered_whatever_srv (E : Ed25519) (H : Bytes → Hash) (debug : Bool) (c : Config)
    (events : List Event) (h h' : RequestHandler) (now : UInt64)
    (outs : List (SocketAddr × Bytes)) (hrun : serve E H debug c events = .ok h)
    (hgen : h.generateResponses E H debug now = .ok (outs, h')) :
    outs.length = (openBatch events).length ∧
    (∃ root, ∀ (i : Nat) (d : Datagram), (openBatch events)[i]? = some d →
      ∃ proof, outs[i]? = some (d.srcAddr, framed
        (h.responder.onlineKey.encode E now root proof d.pending (UInt32.ofNat i)))) ∧
    (∀ d, d ∈ openBatch events ↔ ∃ pre post,
      events = pre ++ .collect d.bytes d.srcAddr :: post ∧ ∀ t, .generate t ∉ post) := by
  obtain ⟨hlen, hsent⟩ := serve_sent hrun hgen
  exact ⟨hlen, hsent, fun d => mem_openBatch_iff⟩

/-! ## In what format -/

/-- The bytes decode with the response type of a version. -/
def Decodes (b : Bytes) : ProtocolVersion → Prop
  | .rfcDraft08 => ∃ r, ResponseDraft08.fromFrame b = .ok r
  | .rfcDraft14 => ∃ r, Response.fromFrame b = .ok r

theorem numTags_response {b : Bytes} {r : Response} (h : Response.fromFrame b = .ok r) :
    wordAt b 12 = 7 := by
  obtain ⟨len, vw, ws, tail, rfl, -⟩ := Response.fromFrame_ok_iff.mp h
  unfold Response.encodeWith
  simp only [List.append_assoc]
  exact numTags_eq len _

theorem numTags_responseDraft08 {b : Bytes} {r : ResponseDraft08}
    (h : ResponseDraft08.fromFrame b = .ok r) : wordAt b 12 = 6 := by
  obtain ⟨len, vw, tail, rfl, -⟩ := ResponseDraft08.fromFrame_ok_iff.mp h
  unfold ResponseDraft08.encodeWith
  simp only [List.append_assoc]
  exact numTags_eq len _

/-- The number of tags tells the two response types apart. -/
theorem Decodes.unique {b : Bytes} {v w : ProtocolVersion} (hv : Decodes b v)
    (hw : Decodes b w) : v = w := by
  have hboth : Decodes b .rfcDraft08 → Decodes b .rfcDraft14 → False := by
    rintro ⟨r, hr⟩ ⟨r', hr'⟩
    have heq := (numTags_responseDraft08 hr).symm.trans (numTags_response hr')
    exact absurd heq (by decide)
  cases v with
  | rfcDraft08 =>
      cases w with
      | rfcDraft08 => rfl
      | rfcDraft14 => exact (hboth hv hw).elim
  | rfcDraft14 =>
      cases w with
      | rfcDraft08 => exact (hboth hw hv).elim
      | rfcDraft14 => rfl

/-- The answers of a key decode as the version it was issued for. -/
theorem OnlineKey.Issued.decodes {key : OnlineKey} {identity : LongTermIdentity}
    {version : ProtocolVersion} (hkey : key.Issued E identity version) (now : UInt64)
    (root : MerkleRoot) (proof : List Hash) (pending : PendingRequest) (index : UInt32) :
    Decodes (framed (key.encode E now root proof pending index)) version := by
  cases version with
  | rfcDraft08 =>
      cases key with
      | draft14 key => exact hkey.elim
      | draft08 key =>
          have hissued : key.Issued E identity := hkey
          exact ⟨_, (hissued.answer_built now root proof index).fromFrame⟩
  | rfcDraft14 =>
      cases key with
      | draft08 key => exact hkey.elim
      | draft14 key =>
          have hissued : key.Issued E identity := hkey
          exact ⟨_, (hissued.answer_built now root proof pending.request.nonc index).fromFrame⟩

/-- After any run, the frame sent for a datagram decodes as the configured version alone. -/
theorem serve_decodes {c : Config} {events : List Event} {h h' : RequestHandler} {now : UInt64}
    {outs : List (SocketAddr × Bytes)} (hrun : serve E H debug c events = .ok h)
    (hgen : h.generateResponses E H debug now = .ok (outs, h')) {i : Nat} {d : Datagram}
    (hd : (openBatch events)[i]? = some d) :
    ∃ frame, outs[i]? = some (d.srcAddr, frame) ∧ ∀ v, Decodes frame v ↔ v = c.protocolVersion := by
  obtain ⟨-, root, hsent⟩ := serve_sent hrun hgen
  obtain ⟨proof, hout⟩ := hsent i d hd
  have hdecodes := (serve_issued hrun).decodes now root proof d.pending (UInt32.ofNat i)
  refine ⟨_, hout, ?_⟩
  intro v
  constructor
  · intro hv
    exact hv.unique hdecodes
  · rintro rfl
    exact hdecodes

/-- In every run of a handler configured with a version: the frame sent for a datagram decodes
with the response type of that version and of no other, whatever the VER and the TYPE of the
request.  So it is of a version that the request offers exactly when the configured one is. -/
theorem answered_as_configured (E : Ed25519) (H : Bytes → Hash) (debug : Bool) (c : Config)
    (events : List Event) (h h' : RequestHandler) (now : UInt64)
    (outs : List (SocketAddr × Bytes)) (hrun : serve E H debug c events = .ok h)
    (hgen : h.generateResponses E H debug now = .ok (outs, h')) :
    outs.length = (openBatch events).length ∧
    ∀ (i : Nat) (d : Datagram), (openBatch events)[i]? = some d →
      ∃ frame, outs[i]? = some (d.srcAddr, frame) ∧
        (∀ v, Decodes frame v ↔ v = c.protocolVersion) ∧
        ((∃ v ∈ d.request.ver.versions, Decodes frame v) ↔
          d.request.ver.isSupported c.protocolVersion = true) := by
  refine ⟨(serve_sent hrun hgen).1, ?_⟩
  intro i d hd
  obtain ⟨frame, hout, hdecodes⟩ := serve_decodes hrun hgen hd
  refine ⟨frame, hout, hdecodes, ?_⟩
  rw [VersionList.isSupported, List.contains_iff_mem]
  constructor
  · rintro ⟨v, hmem, hv⟩
    rwa [(hdecodes v).mp hv] at hmem
  · intro hmem
    exact ⟨_, hmem, (hdecodes _).mpr rfl⟩

end Sent

/-! ## Requests for someone else -/

namespace Sample

/-- A request with the commitment to another key. -/
def misdirected : Datagram :=
  ⟨framed (Request.newDraft14WithServerCommitment nonce (Octets.fill 32 0x99)).encode, address,
    _, Request.fromFrame_newDraft14WithServerCommitment nonce (Octets.fill 32 0x99)⟩

/-- In a release build, a fresh server gets a datagram and answers. -/
theorem serve_one (version : ProtocolVersion) (d : Datagram) :
    ∃ h outs h', serve ed25519 digest false (config version) [.collect d.bytes d.srcAddr] = .ok h ∧
      h.generateResponses ed25519 digest false 2000 = .ok (outs, h') := by
  obtain ⟨r, hnew, -⟩ := new_certified version
  obtain ⟨hh, -, m, hrun⟩ : Holding ed25519 digest (r.push digest d) [d] ∧ _ ∧
      ∃ m, serve ed25519 digest false (config version) [.collect d.bytes d.srcAddr] =
        .ok ⟨r.push digest d, m⟩ := serve_first d hnew (by cases version <;> decide)
  have hready : (r.push digest d).requests ≠ [] → (r.push digest d).Ready false := by
    intro _
    refine ⟨?_, (fun h => nomatch h), (fun h => nomatch h)⟩
    rw [hh.requests]
    exact (by decide : 1 ≤ 64)
  obtain ⟨h', hgen, -⟩ := generateResponses_ok (h := ⟨r.push digest d, m⟩) 2000 hh hready
  exact ⟨_, _, h', hrun, hgen⟩

end Sample

open Sample

/-- The one datagram of a run is answered. -/
theorem answered_whatever_srv_first :
    ∃ h outs h' frame, serve ed25519 digest false (config .rfcDraft14)
        [.collect datagram.bytes datagram.srcAddr] = .ok h ∧
      h.generateResponses ed25519 digest false 2000 = .ok (outs, h') ∧
      outs.length = 1 ∧ outs[0]? = some (datagram.srcAddr, frame) := by
  obtain ⟨h, outs, h', hrun, hgen⟩ := serve_one .rfcDraft14 datagram
  obtain ⟨hlen, ⟨root, hsent⟩, -⟩ := answered_whatever_srv ed25519 digest false
    (config .rfcDraft14) _ h h' 2000 outs hrun hgen
  rw [openBatch_single] at hlen hsent
  obtain ⟨proof, hout⟩ := hsent 0 datagram rfl
  exact ⟨h, outs, h', _, hrun, hgen, hlen, hout⟩

/-- A request whose SRV is not the commitment to the server's key is answered. -/
theorem misdirected_answered :
    (∃ srv, misdirected.request.srv = some srv ∧
      srv ≠ Client.makeSrvCommitment digest ((keySource .rfcDraft14).publicKey ed25519)) ∧
    ∃ h outs h' frame, serve ed25519 digest false (config .rfcDraft14)
        [.collect misdirected.bytes misdirected.srcAddr] = .ok h ∧
      h.generateResponses ed25519 digest false 2000 = .ok (outs, h') ∧
      outs[0]? = some (misdirected.srcAddr, frame) := by
  refine ⟨⟨Octets.fill 32 0x99, rfl, by decide +kernel⟩, ?_⟩
  obtain ⟨h, outs, h', hrun, hgen⟩ := serve_one .rfcDraft14 misdirected
  obtain ⟨-, root, hsent⟩ := serve_sent hrun hgen
  rw [openBatch_single] at hsent
  obtain ⟨proof, hout⟩ := hsent 0 misdirected rfl
  exact ⟨h, outs, h', _, hrun, hgen, hout⟩

/-- A draft-14 request to a draft-14 server. -/
theorem answered_as_configured_offered :
    ∃ h outs h' frame, serve ed25519 digest false (config .rfcDraft14)
        [.collect datagram.bytes datagram.srcAddr] = .ok h ∧
      h.generateResponses ed25519 digest false 2000 = .ok (outs, h') ∧
      outs[0]? = some (datagram.srcAddr, frame) ∧
      Decodes frame .rfcDraft14 ∧ ¬ Decodes frame .rfcDraft08 := by
  obtain ⟨h, outs, h', hrun, hgen⟩ := serve_one .rfcDraft14 datagram
  obtain ⟨-, hsent⟩ := answered_as_configured ed25519 digest false (config .rfcDraft14) _ h h' 2000
    outs hrun hgen
  rw [openBatch_single] at hsent
  obtain ⟨frame, hout, hdecodes, -⟩ := hsent 0 datagram rfl
  refine ⟨h, outs, h', frame, hrun, hgen, hout, (hdecodes _).mpr rfl, ?_⟩
  intro h08
  cases (hdecodes _).mp h08

/-- A draft-08 request, without TYPE and with draft-08 alone in its VER, is answered by a draft-14
server, in a frame that decodes as no version the request offers. -/
theorem draft08_request_answered_draft14 :
    datagramDraft08.request.ver.isSupported .rfcDraft14 = false ∧
    datagramDraft08.request.hasType ≠ ProtocolVersion.rfcDraft14.requiresTypeTag ∧
    ∃ h outs h' frame, serve ed25519 digest false (config .rfcDraft14)
        [.collect datagramDraft08.bytes datagramDraft08.srcAddr] = .ok h ∧
      h.generateResponses ed25519 digest false 2000 = .ok (outs, h') ∧
      outs[0]? = some (datagramDraft08.srcAddr, frame) ∧
      ∀ v ∈ datagramDraft08.request.ver.versions, ¬ Decodes frame v := by
  refine ⟨rfl, by decide, ?_⟩
  obtain ⟨h, outs, h', hrun, hgen⟩ := serve_one .rfcDraft14 datagramDraft08
  obtain ⟨frame, hout, hdecodes⟩ := serve_decodes (i := 0) hrun hgen
    (by rw [openBatch_single]; rfl)
  refine ⟨h, outs, h', frame, hrun, hgen, hout, ?_⟩
  intro v hv h08
  have hversion : v = .rfcDraft08 := List.mem_singleton.mp hv
  cases hversion.symm.trans ((hdecodes v).mp h08)

end Roughenough.Server
