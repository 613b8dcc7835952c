/-
# `Roughenough.Client.Versions` — which version a response is of

A client offers one version, in the VER of its request.  The version of a
draft-14 response is named in its SREP, and the signature contexts are chosen
by that name; the validator wants it among the VERS of the same SREP, and
compares it with nothing of the request.  A draft-08 response has a VER of its
own that is read and not used.

So a version the client did not offer is kept out by the context of the
delegation alone: the long-term key must have signed for it.

    accepted_version_signed   what an accepted response says about its version
    downgrade_accepted        both formats, with a version that was not offered
-/
import Roughenough.Client.Runs

namespace Roughenough.Client

open Roughenough.Base Roughenough.Protocol Roughenough.Merkle ResponseValidator

/-- `Client::create_request`; without a nonce the random bytes are it. -/
def createRequest (client : Client) (nonce : Option Nonce) (random : Octets 32) : Request :=
  let nonce := nonce.getD random
  match client.protocolVersion with
  | .rfcDraft08 => Request.newDraft08 nonce
  | .rfcDraft14 =>
      match client.srvCommit with
      | some srvCommit => Request.newDraft14WithServerCommitment nonce srvCommit
      | none => Request.newDraft14 nonce

/-- The request of a client is read back, and it offers the version of the client. -/
theorem createRequest_offers (client : Client) (nonce : Option Nonce)
    (random : Octets 32) :
    Request.fromFrame (framed (createRequest client nonce random).encode) =
        .ok (createRequest client nonce random) ∧
      (createRequest client nonce random).ver.versions = [client.protocolVersion] := by
  unfold createRequest
  cases client.protocolVersion with
  | rfcDraft08 => exact ⟨Request.fromFrame_newDraft08 _, rfl⟩
  | rfcDraft14 =>
      cases client.srvCommit with
      | some srvCommit =>
          exact ⟨Request.fromFrame_newDraft14WithServerCommitment _ srvCommit, rfl⟩
      | none => exact ⟨Request.fromFrame_newDraft14 _, rfl⟩

/-- For every client, every request it makes and every packet: an accepted draft-14 response has
its VER among its own VERS, and a client with a key has seen the key's signature on the delegation
in the context of that version, so that VER is one the request offers unless that signature is one
for draft-08.  For an accepted draft-08 response both signatures were checked in the contexts of
draft-08. -/
theorem accepted_version_signed (V : Verify) (H : Bytes → Hash) (client : Client)
    (nonce : Option Nonce) (random : Octets 32) (requestBytes : Bytes)
    (hrequest : (createRequest client nonce random).asFrameBytes = .ok requestBytes) (b : Bytes) :
    ∃ request, Request.fromFrame requestBytes = .ok request ∧
      request.ver.versions = [client.protocolVersion] ∧
      (∀ r t, Response.fromFrame b = .ok r →
        client.validator.validateDraft14 V H requestBytes r b = .ok t →
        r.srep.version ∈ r.srep.supportedVersions.versions ∧
        ∀ K, client.publicKey = some K →
          V K (r.srep.version.delePrefix ++ r.cert.delegation.encode) r.cert.signature = true ∧
          (client.protocolVersion = .rfcDraft14 →
            V K (ProtocolVersion.rfcDraft08.delePrefix ++ r.cert.delegation.encode)
              r.cert.signature = false →
            r.srep.version ∈ request.ver.versions)) ∧
      (∀ r t, ResponseDraft08.fromFrame b = .ok r →
        client.validator.validateDraft08 V H requestBytes r b = .ok t →
        V r.cert.delegation.publicKey
          (ProtocolVersion.rfcDraft08.srepPrefix ++ srepSlice08 r b) r.signature = true ∧
        ∀ K, client.publicKey = some K →
          V K (ProtocolVersion.rfcDraft08.delePrefix ++ r.cert.delegation.encode)
            r.cert.signature = true) := by
  obtain ⟨hread, hoffers⟩ := createRequest_offers client nonce random
  rw [Request.asFrameBytes_eq] at hrequest
  cases hrequest
  have hkey : ∀ K, client.publicKey = some K → K ∈ client.validator.pubKey := by
    intro K hK
    rw [client.validator_eq]
    exact hK
  refine ⟨_, hread, hoffers, ?_, ?_⟩
  · intro r t _ hvalid
    have hv := (validateDraft14_ok_iff.mp hvalid).1
    refine ⟨List.contains_iff_mem.mp hv.vers, ?_⟩
    intro K hK
    have hdele := hv.cert.dele K (hkey K hK)
    refine ⟨hdele, ?_⟩
    intro h14 hnot08
    rw [hoffers, h14, List.mem_singleton]
    cases hversion : r.srep.version with
    | rfcDraft08 =>
        rw [hversion, hnot08] at hdele
        cases hdele
    | rfcDraft14 => rfl
  · intro r t _ hvalid
    have hv := (validateDraft08_ok_iff.mp hvalid).1
    exact ⟨hv.sig, fun K hK => hv.cert.dele K (hkey K hK)⟩

namespace Downgrade

open Network

/-- What the two clients ask. -/
def offer14 : Request := createRequest (client .rfcDraft14) none (random 0)

def offer08 : Request := createRequest (client .rfcDraft08) none (random 0)

/-- The answer to the draft-14 request, signed in the contexts of draft-08. -/
def packet14 : Bytes := framed (replyOf .rfcDraft08 2000 offer14).encode

/-- The answer to the draft-08 request, with draft-14 in its VER. -/
def mislabelled : ResponseDraft08 := { Network.reply08 2000 none 0 with version := .rfcDraft14 }

theorem mislabelled_valid : ResponseDraft08.fromFrame (framed mislabelled.encode) = .ok mislabelled ∧
    (client .rfcDraft08).validator.validateDraft08 verify digest (framed offer08.encode)
      mislabelled (framed mislabelled.encode) = .ok 2000 := by
  obtain ⟨-, hvalid⟩ := Network.reply08_valid 2000 none 0 (by decide) (by decide)
  have hv := (validateDraft08_ok_iff.mp hvalid).1
  have hsrep : mislabelled.srep.Built := rfl
  have hbuilt : mislabelled.Built := ⟨rfl, hsrep.accepts (by decide)⟩
  obtain ⟨hslice, hinside⟩ := srepSlice08_built hbuilt
  have hparse : ResponseDraft08.fromFrame (framed mislabelled.encode) = .ok mislabelled := hbuilt.fromFrame
  refine ⟨hparse, validateDraft08_ok_iff.mpr ⟨?_, rfl⟩⟩
  refine ⟨hv.cert, hv.long, hv.proof, hv.ordered, hinside, ?_⟩
  rw [show srepSlice08 mislabelled (framed mislabelled.encode) = _ from hslice]
  exact decide_eq_true rfl

end Downgrade

open Network Downgrade

/-- An answer of the version that was asked for. -/
theorem accepted_version_signed_offered :
    ∃ request, Request.fromFrame (framed offer14.encode) = .ok request ∧
      (replyOf .rfcDraft14 2000 offer14).srep.version ∈ request.ver.versions ∧
      verify longTermKey (ProtocolVersion.rfcDraft14.delePrefix ++
        (cert .rfcDraft14).delegation.encode) (cert .rfcDraft14).signature = true := by
  obtain ⟨hparse, hvalid⟩ := replyOf_valid .rfcDraft14 2000 offer14 (by decide) (by decide)
  obtain ⟨request, hread, -, h14, -⟩ := accepted_version_signed verify digest
    (client .rfcDraft14) none (random 0) (framed offer14.encode) (Request.asFrameBytes_eq _)
    (framed (replyOf .rfcDraft14 2000 offer14).encode)
  obtain ⟨-, hkey⟩ := h14 _ _ hparse hvalid
  obtain ⟨hdele, hoffered⟩ := hkey longTermKey rfl
  exact ⟨request, hread, hoffered rfl (by decide +kernel), hdele⟩

/-- A draft-14 client that offers draft-14 alone accepts a SREP of draft-08, and a draft-08 client
accepts a response whose VER is draft-14. -/
theorem downgrade_accepted :
    (offer14.ver.versions = [.rfcDraft14] ∧
      Response.fromFrame packet14 = .ok (replyOf .rfcDraft08 2000 offer14) ∧
      (client .rfcDraft14).validator.validateDraft14 verify digest (framed offer14.encode)
        (replyOf .rfcDraft08 2000 offer14) packet14 = .ok 2000 ∧
      (replyOf .rfcDraft08 2000 offer14).srep.version ∉ offer14.ver.versions) ∧
    (ResponseDraft08.fromFrame (framed mislabelled.encode) = .ok mislabelled ∧
      (client .rfcDraft08).validator.validateDraft08 verify digest (framed offer08.encode)
        mislabelled (framed mislabelled.encode) = .ok 2000 ∧
      mislabelled.version ≠ .rfcDraft08) := by
  obtain ⟨hparse, hvalid⟩ := replyOf_valid .rfcDraft08 2000 offer14 (by decide) (by decide)
  obtain ⟨hparse08, hvalid08⟩ := mislabelled_valid
  have hoffers : offer14.ver.versions = [.rfcDraft14] :=
    (createRequest_offers (client .rfcDraft14) none (random 0)).2
  refine ⟨⟨hoffers, hparse, hvalid, ?_⟩, hparse08, hvalid08, ?_⟩
  · rw [hoffers]
    exact (by decide : ProtocolVersion.rfcDraft08 ∉ [ProtocolVersion.rfcDraft14])
  · exact (by decide : ProtocolVersion.rfcDraft14 ≠ ProtocolVersion.rfcDraft08)

end Roughenough.Client
