/-
# `Roughenough.Protocol.RoundTrip` — what is written is read back

The writers and the readers of `request.rs` and `response.rs`, end to end.

    request_round_trip        the requests of the three constructors
    response_round_trip_iff   a response after any history of setter calls

The header of a response is brought up to date by some of its setters only.
`update_offsets` works from the sizes of PATH and SREP, and the setters of
those two are among the ones that call it: once it has run, the table is right
for good.

The table of a draft-08 SREP is another matter.  Its reader does not compare it
with the one it knows, as that of the draft-14 SREP does, and no setter brings it
up to date: a SREP that was read keeps what it came with.
-/
import Roughenough.Protocol.Build

namespace Roughenough.Protocol

open Roughenough.Base ParseCursor

/-- The offsets of values of the given sizes: where each of them ends, but the last. -/
def offsetsOf (sizes : List Nat) : List Nat :=
  (List.range (sizes.length - 1)).map fun i => (sizes.take (i + 1)).sum

/-- What one call establishes and every call keeps holds after a history with such a call. -/
theorem foldl_established {σ α : Type} {f : σ → α → σ} (I : σ → Prop) {P : α → Prop}
    (hest : ∀ s a, P a → I (f s a)) (hkeep : ∀ s a, I s → I (f s a)) {calls : List α}
    (hcall : ∃ a ∈ calls, P a) (s : σ) : I (calls.foldl f s) := by
  have hkept : ∀ (calls : List α) (s : σ), I s → I (calls.foldl f s) := by
    intro calls
    induction calls with
    | nil => exact fun s hs => hs
    | cons a calls ih => exact fun s hs => ih (f s a) (hkeep s a hs)
  obtain ⟨a, hmem, ha⟩ := hcall
  obtain ⟨before, behind, rfl⟩ := List.append_of_mem hmem
  rw [List.foldl_append, List.foldl_cons]
  exact hkept behind _ (hest _ a ha)

/-- A writer moves the cursor by what it writes. -/
theorem Writes.advances {p : Wire Unit} {bs : Bytes} {size : Nat} (h : Writes p bs)
    (hsize : bs.length = size) {c : ParseCursor} (hc : c.position ≤ c.data.length)
    (hroom : size ≤ c.remaining) :
    ∃ c', p c = .ok ((), c') ∧ c'.position = c.position + size := by
  subst hsize
  exact ⟨c.put bs, h c hc hroom, rfl⟩

/-! ## Requests -/

namespace Request

/-- The offset table, in numbers. -/
def offsets : Request → List Nat
  | draft08 req => req.header.offsets.1.map UInt32.toNat
  | draft14 req => req.header.offsets.1.map UInt32.toNat
  | draft14Srv req => req.header.offsets.1.map UInt32.toNat

/-- The sizes of the values. -/
def sizes : Request → List Nat
  | draft08 req => [req.version.wireSize, 32, 952]
  | draft14 req => [req.version.wireSize, 32, 4, 940]
  | draft14Srv req => [req.version.wireSize, 32, 32, 4, 900]

/-- The frame of a request of 1012 bytes. -/
theorem framed_field {r : Request} (hsize : r.wireSize = 1012) :
    (framed r.encode).length = 1024 ∧ (wordAt (framed r.encode) 8).toNat = 1012 := by
  have hlen : r.encode.length = 1012 := r.encode_length.trans hsize
  refine ⟨?_, ?_⟩
  · rw [framed_length, hlen]
  · rw [framed, wordAt_frameHead, hlen]
    rfl

end Request

/-- For every nonce and every SRV: each of the three constructors makes a request of 1024 bytes
whose length field is 1012, which is read back as it is, with the offsets of its values; and the
nonce of draft-08 stands where the validator takes it from. -/
theorem request_round_trip (nonce : Nonce) (server : SrvCommitment) :
    (∀ r ∈ [Request.newDraft08 nonce, Request.newDraft14 nonce,
        Request.newDraft14WithServerCommitment nonce server],
      ∃ b, r.asFrameBytes = .ok b ∧ b.length = 1024 ∧ (wordAt b 8).toNat = 1012 ∧
        Request.fromFrame b = .ok r ∧ r.offsets = offsetsOf r.sizes) ∧
    ∃ b, (Request.newDraft08 nonce).asFrameBytes = .ok b ∧
      slice b RequestDraft08.framedNonceOffset (RequestDraft08.framedNonceOffset + 32) =
        nonce.bytes := by
  refine ⟨?_, _, Request.asFrameBytes_eq _, Request.slice_newDraft08 nonce⟩
  intro r hr
  simp only [List.mem_cons, List.not_mem_nil, or_false] at hr
  rcases hr with rfl | rfl | rfl
  · have hframe := Request.framed_field (r := .newDraft08 nonce) rfl
    exact ⟨_, Request.asFrameBytes_eq _, hframe.1, hframe.2, Request.fromFrame_newDraft08 nonce,
      rfl⟩
  · have hframe := Request.framed_field (r := .newDraft14 nonce) rfl
    exact ⟨_, Request.asFrameBytes_eq _, hframe.1, hframe.2, Request.fromFrame_newDraft14 nonce,
      rfl⟩
  · have hframe := Request.framed_field (r := .newDraft14WithServerCommitment nonce server) rfl
    exact ⟨_, Request.asFrameBytes_eq _, hframe.1, hframe.2,
      Request.fromFrame_newDraft14WithServerCommitment nonce server, rfl⟩

/-! ## The setters of a SREP -/

namespace SignedResponse

/-- A call of a setter. -/
inductive Setter where
  | setVer (version : ProtocolVersion)
  | setRadi (radius : UInt32)
  | setMidp (midpoint : UInt64)
  | setVers (versions : SupportedVersions)
  | setRoot (root : MerkleRoot)

def Setter.apply (s : SignedResponse) : Setter → SignedResponse
  | setVer version => s.setVer version
  | setRadi radius => s.setRadi radius
  | setMidp midpoint => s.setMidp midpoint
  | setVers versions => s.setVers versions
  | setRoot root => s.setRoot root

/-- The call is one of `set_vers`. -/
def Setter.IsVers : Setter → Prop
  | setVers _ => True
  | _ => False

/-- The fourth offset fits the version list. -/
def VersFits (s : SignedResponse) : Prop :=
  s.header.offset 3 = 16 + 4 * s.supportedVersions.versions.length

theorem setVers_fits (s : SignedResponse) (versions : SupportedVersions) :
    (s.setVers versions).VersFits := by
  have hbound := versions.bounded
  have hsize : versions.wireSize = 4 * versions.versions.length := Nat.mul_comm _ _
  have hlen : 3 < s.header.offsets.1.length := by
    rw [s.header.offsets.2]
    decide
  have hget : (s.setVers versions).header.offset 3 =
      (versOffset + UInt32.ofNat versions.wireSize).toNat := by
    show ((s.header.offsets.1.set 3 _).getD 3 0).toNat = _
    rw [List.getD_eq_getElem?_getD, List.getElem?_set_self hlen]
    rfl
  unfold VersFits
  rw [hget, add_ofNat_toNat (m := 16) rfl (by omega), hsize]
  rfl

theorem Setter.fits_of_isVers (s : SignedResponse) (call : Setter) (h : call.IsVers) :
    (call.apply s).VersFits := by
  cases call with
  | setVers versions => exact s.setVers_fits versions
  | setVer version => exact h.elim
  | setRadi radius => exact h.elim
  | setMidp midpoint => exact h.elim
  | setRoot root => exact h.elim

theorem Setter.fits_kept (s : SignedResponse) (call : Setter) (h : s.VersFits) :
    (call.apply s).VersFits := by
  cases call with
  | setVers versions => exact s.setVers_fits versions
  | setVer version => exact h
  | setRadi radius => exact h
  | setMidp midpoint => exact h
  | setRoot root => exact h

end SignedResponse

namespace SignedResponseDraft08

inductive Setter where
  | setRadi (radius : UInt32)
  | setMidp (midpoint : UInt64)
  | setRoot (root : MerkleRoot)

def Setter.apply (s : SignedResponseDraft08) : Setter → SignedResponseDraft08
  | setRadi radius => s.setRadi radius
  | setMidp midpoint => s.setMidp midpoint
  | setRoot root => s.setRoot root

/-- A SREP that a program can hold: the default, or one that was read, after calls of setters. -/
inductive Obtained : SignedResponseDraft08 → Prop
  | default : Obtained default
  | read {s : SignedResponseDraft08} {c c' : ParseCursor} : fromWire c = .ok (s, c') → Obtained s
  | set {s : SignedResponseDraft08} (call : Setter) : Obtained s → Obtained (call.apply s)

/-- No setter touches the header, and the reader has looked at it. -/
theorem Obtained.wellFormed {s : SignedResponseDraft08} (h : Obtained s) : s.header.WellFormed := by
  induction h with
  | default =>
      have hbuilt : SignedResponseDraft08.default.Built := rfl
      exact (hbuilt.accepts (by decide : 0 < 2 ^ 31)).wellFormed
  | read hrun => exact (fromWire_ok_iff.mp hrun).1.wellFormed
  | set call _ ih =>
      cases call with
      | setRadi radius => exact ih
      | setMidp midpoint => exact ih
      | setRoot root => exact ih

/-- What is left of the bounds, in front of CERT and INDX. -/
theorem accepts_iff {s : SignedResponseDraft08} (h : s.header.WellFormed) :
    s.Accepts 156 ↔ s.header.offset 1 ≤ 200 := by
  have hbounds : s.header.InBounds 200 ↔ s.header.offset 1 ≤ 200 :=
    h.inBounds_iff (show 1 + 2 = 3 from rfl)
  constructor
  · intro hacc
    exact hbounds.mp hacc.inBounds
  · intro hoffset
    exact ⟨h, hbounds.mpr hoffset⟩

end SignedResponseDraft08

/-! ## The setters of a response -/

namespace Response

/-- A call of a setter. -/
inductive Setter where
  | setSig (sig : Signature)
  | setNonc (nonce : Nonce)
  | setPath (path : MerklePath)
  | copyPath (path : MerklePath)
  | setSrep (srep : SignedResponse)
  | setCert (cert : Certificate)
  | setIndx (index : UInt32)

def Setter.apply (r : Response) : Setter → Response
  | setSig sig => r.setSig sig
  | setNonc nonce => r.setNonc nonce
  | setPath path => r.setPath path
  | copyPath path => r.copyPath path
  | setSrep srep => r.setSrep srep
  | setCert cert => r.setCert cert
  | setIndx index => r.setIndx index

/-- The call runs `update_offsets`. -/
def Setter.Refreshes : Setter → Prop
  | setPath _ => True
  | copyPath _ => True
  | setSrep _ => True
  | _ => False

/-- A default response after a history of setter calls. -/
def ofSetters (calls : List Setter) : Response := calls.foldl Setter.apply default

/-- The offsets are the ones of the current PATH and SREP. -/
def Fresh (r : Response) : Prop := r.header.offsets.1 = offsetTable r.path.wireSize r.srep.wireSize

theorem Setter.fresh_of_refreshes (r : Response) (call : Setter) (h : call.Refreshes) :
    (call.apply r).Fresh := by
  cases call with
  | setPath path => exact rfl
  | copyPath path => exact rfl
  | setSrep srep => exact rfl
  | setSig sig => exact h.elim
  | setNonc nonce => exact h.elim
  | setCert cert => exact h.elim
  | setIndx index => exact h.elim

/-- Whoever changes PATH or SREP brings the offsets up to date. -/
theorem Setter.fresh_kept (r : Response) (call : Setter) (h : r.Fresh) :
    (call.apply r).Fresh := by
  cases call with
  | setPath path => exact rfl
  | copyPath path => exact rfl
  | setSrep srep => exact rfl
  | setSig sig => exact h
  | setNonc nonce => exact h
  | setCert cert => exact h
  | setIndx index => exact h

theorem ofSetters_msgType (calls : List Setter) : (ofSetters calls).msgType = .response := by
  have hkept : ∀ r : Response, (calls.foldl Setter.apply r).msgType = r.msgType := by
    induction calls with
    | nil => exact fun r => rfl
    | cons call calls ih =>
        intro r
        refine (ih _).trans ?_
        cases call <;> rfl
  exact hkept default

/-- The sizes of the values, SIG to INDX. -/
def sizes (r : Response) : List Nat :=
  [64, 32, 4, r.path.wireSize, r.srep.wireSize, Certificate.wireSize, 4]

/-- The response `r` is written as `b`, `b` is read as `r'`, and nothing is lost on the way. -/
structure RoundTrips (r : Response) (b : Bytes) (r' : Response) : Prop where
  written : r.asFrameBytes = .ok b
  size : b.length = frameSize r.wireSize
  advances : ∀ c : ParseCursor, c.position ≤ c.data.length → r.wireSize ≤ c.remaining →
    ∃ c', r.toWire c = .ok ((), c') ∧ c'.position = c.position + r.wireSize
  offsets : r.header.offsets.1.map UInt32.toNat = offsetsOf r.sizes
  read : fromFrame b = .ok r'
  signature : r'.signature = r.signature
  nonce : r'.nonce = r.nonce
  msgType : r'.msgType = r.msgType
  path : r'.path.elements = r.path.elements
  srep : r'.srep = r.srep
  cert : r'.cert = r.cert
  index : r'.index = r.index
  again : r'.asFrameBytes = .ok b

theorem Built.roundTrips {r : Response} (h : r.Built) :
    r.RoundTrips (framed r.encode) r.normalize := by
  refine ⟨r.asFrameBytes_eq, ?_, ?_, ?_, h.fromFrame, rfl, rfl, rfl, r.path.normalize_elements,
    rfl, rfl, rfl, ?_⟩
  · rw [framed_length, r.encode_length, Nat.add_comm]
    rfl
  · intro c hc hroom
    exact r.toWire_writes.advances r.encode_length hc hroom
  · rw [h.table_toNat]
    simp only [offsetsOf, sizes, List.length_cons, List.length_nil, List.range_succ,
      List.range_zero, List.map_cons, List.map_nil, List.take_succ_cons, List.take_zero,
      List.sum_cons, List.sum_nil, List.nil_append, List.cons_append, Certificate.wireSize,
      Nat.add_zero, Nat.reduceAdd, ← Nat.add_assoc]
  · rw [r.normalize.asFrameBytes_eq, r.normalize_encode]

end Response

namespace ResponseDraft08

inductive Setter where
  | setSig (sig : Signature)
  | setSrep (srep : SignedResponseDraft08)
  | setCert (cert : Certificate)
  | setIndx (index : UInt32)
  | setPath (path : MerklePath)
  | copyPath (path : MerklePath)

def Setter.apply (r : ResponseDraft08) : Setter → ResponseDraft08
  | setSig sig => r.setSig sig
  | setSrep srep => r.setSrep srep
  | setCert cert => r.setCert cert
  | setIndx index => r.setIndx index
  | setPath path => r.setPath path
  | copyPath path => r.copyPath path

/-- The call runs `update_offsets`: here `set_cert` does, too. -/
def Setter.Refreshes : Setter → Prop
  | setSrep _ => True
  | setCert _ => True
  | setPath _ => True
  | copyPath _ => True
  | _ => False

def ofSetters (calls : List Setter) : ResponseDraft08 := calls.foldl Setter.apply default

def Fresh (r : ResponseDraft08) : Prop := r.header.offsets.1 = offsetTable r.path.wireSize

theorem Setter.fresh_of_refreshes (r : ResponseDraft08) (call : Setter) (h : call.Refreshes) :
    (call.apply r).Fresh := by
  cases call with
  | setSrep srep => exact rfl
  | setCert cert => exact rfl
  | setPath path => exact rfl
  | copyPath path => exact rfl
  | setSig sig => exact h.elim
  | setIndx index => exact h.elim

theorem Setter.fresh_kept (r : ResponseDraft08) (call : Setter) (h : r.Fresh) :
    (call.apply r).Fresh := by
  cases call with
  | setSrep srep => exact rfl
  | setCert cert => exact rfl
  | setPath path => exact rfl
  | copyPath path => exact rfl
  | setSig sig => exact h
  | setIndx index => exact h

/-- The sizes of the values, SIG to INDX. -/
def sizes (r : ResponseDraft08) : List Nat :=
  [64, ProtocolVersion.wireSize, r.path.wireSize, SignedResponseDraft08.wireSize,
    Certificate.wireSize, 4]

structure RoundTrips (r : ResponseDraft08) (b : Bytes) (r' : ResponseDraft08) : Prop where
  written : r.asFrameBytes = .ok b
  size : b.length = frameSize r.wireSize
  advances : ∀ c : ParseCursor, c.position ≤ c.data.length → r.wireSize ≤ c.remaining →
    ∃ c', r.toWire c = .ok ((), c') ∧ c'.position = c.position + r.wireSize
  offsets : r.header.offsets.1.map UInt32.toNat = offsetsOf r.sizes
  read : fromFrame b = .ok r'
  signature : r'.signature = r.signature
  version : r'.version = r.version
  path : r'.path.elements = r.path.elements
  srep : r'.srep = r.srep
  cert : r'.cert = r.cert
  index : r'.index = r.index
  again : r'.asFrameBytes = .ok b

theorem Built.roundTrips {r : ResponseDraft08} (h : r.Built) :
    r.RoundTrips (framed r.encode) r.normalize := by
  refine ⟨r.asFrameBytes_eq, ?_, ?_, ?_, h.fromFrame, rfl, rfl, r.path.normalize_elements,
    rfl, rfl, rfl, ?_⟩
  · rw [framed_length, r.encode_length, Nat.add_comm]
    rfl
  · intro c hc hroom
    exact r.toWire_writes.advances r.encode_length hc hroom
  · rw [h.table_toNat]
    simp only [offsetsOf, sizes, List.length_cons, List.length_nil, List.range_succ,
      List.range_zero, List.map_cons, List.map_nil, List.take_succ_cons, List.take_zero,
      List.sum_cons, List.sum_nil, List.nil_append, List.cons_append, Certificate.wireSize,
      ProtocolVersion.wireSize, SignedResponseDraft08.wireSize, Header.sizeOf,
      Nat.add_zero, Nat.reduceAdd, Nat.reduceMul, ← Nat.add_assoc]
  · rw [r.normalize.asFrameBytes_eq, r.normalize_encode]

/-- What is read back was accepted whole, its SREP with it. -/
theorem RoundTrips.accepts {r r' : ResponseDraft08} {b : Bytes} (h : r.RoundTrips b r') :
    r.srep.Accepts 156 := by
  obtain rfl : framed r.encode = b := Outcome.ok.inj (r.asFrameBytes_eq.symm.trans h.written)
  obtain ⟨len, vw, tail, hb, -, hacc, -⟩ := fromFrame_ok_iff.mp h.read
  have hpath : r'.path.numPaths = r.path.numPaths := by
    rw [← MerklePath.elements_length, ← MerklePath.elements_length, h.path]
  have htail : tail.length = 0 := by
    have hlength := congrArg List.length hb
    rw [framed_length, List.length_append, List.length_append, frameHead_length,
      show r.encode.length = _ from r.encodeWith_length _, r'.encodeWith_length, hpath] at hlength
    omega
  have hsrep := hacc.srep
  rwa [htail, h.srep] at hsrep

/-- A response whose offsets are up to date is read back exactly if its SREP is. -/
theorem roundTrips_iff {r : ResponseDraft08} (hfresh : r.Fresh) :
    (∃ b r', r.RoundTrips b r') ↔ r.srep.Accepts 156 := by
  constructor
  · rintro ⟨b, r', h⟩
    exact h.accepts
  · intro hsrep
    have hbuilt : r.Built := ⟨hfresh, hsrep⟩
    exact ⟨_, _, hbuilt.roundTrips⟩

end ResponseDraft08

/-! ## Responses -/

/-- After any history of setter calls, one of which brings the offsets up to date: in draft-14 a
response is read back from what is written for it, if its SREP has its version list from
`set_vers` and the list is one the reader takes; in draft-08 it is, exactly if the ROOT of its
SREP begins, by the table of the SREP, where the response has not ended yet. -/
theorem response_round_trip_iff (start : SignedResponse)
    (srepCalls : List SignedResponse.Setter) (calls : List Response.Setter)
    (calls08 : List ResponseDraft08.Setter) :
    ((∃ call ∈ calls, call.Refreshes) →
      (Response.ofSetters calls).srep = srepCalls.foldl SignedResponse.Setter.apply start →
      (∃ call ∈ srepCalls, call.IsVers) →
      (Response.ofSetters calls).srep.supportedVersions.versions ≠ [] →
      VersionList.Ascending none (Response.ofSetters calls).srep.supportedVersions.versions →
      ∃ b r', (Response.ofSetters calls).RoundTrips b r') ∧
    ((∃ call ∈ calls08, call.Refreshes) →
      SignedResponseDraft08.Obtained (ResponseDraft08.ofSetters calls08).srep →
      ((∃ b r', (ResponseDraft08.ofSetters calls08).RoundTrips b r') ↔
        (ResponseDraft08.ofSetters calls08).srep.header.offset 1 ≤ 200)) := by
  refine ⟨?_, ?_⟩
  · intro hrefresh hsrep hvers hne hasc
    have hfresh : (Response.ofSetters calls).Fresh :=
      foldl_established Response.Fresh Response.Setter.fresh_of_refreshes
        Response.Setter.fresh_kept hrefresh Response.default
    have hfits : (Response.ofSetters calls).srep.VersFits := by
      rw [hsrep]
      exact foldl_established SignedResponse.VersFits SignedResponse.Setter.fits_of_isVers
        SignedResponse.Setter.fits_kept hvers start
    have hbuilt : (Response.ofSetters calls).Built :=
      ⟨hfresh, Response.ofSetters_msgType calls, hfits, hne, hasc⟩
    exact ⟨_, _, hbuilt.roundTrips⟩
  · intro hrefresh hobtained
    have hfresh : (ResponseDraft08.ofSetters calls08).Fresh :=
      foldl_established ResponseDraft08.Fresh ResponseDraft08.Setter.fresh_of_refreshes
        ResponseDraft08.Setter.fresh_kept hrefresh ResponseDraft08.default
    rw [ResponseDraft08.roundTrips_iff hfresh,
      SignedResponseDraft08.accepts_iff hobtained.wellFormed]

/-- A SREP with one version, set before the signature; and a draft-08 response of its CERT. -/
theorem response_round_trip_iff_short :
    (∃ b r', (Response.ofSetters [.setSrep (SignedResponse.default.setVers
      (VersionList.new [.rfcDraft14])), .setSig (Octets.zero 64)]).RoundTrips b r') ∧
    (∃ b r', (ResponseDraft08.ofSetters [.setCert Certificate.default]).RoundTrips b r') := by
  obtain ⟨hread, hread08⟩ := response_round_trip_iff SignedResponse.default
    [.setVers (VersionList.new [.rfcDraft14])]
    [.setSrep (SignedResponse.default.setVers (VersionList.new [.rfcDraft14])),
      .setSig (Octets.zero 64)] [.setCert Certificate.default]
  refine ⟨?_, ?_⟩
  · refine hread ⟨_, List.mem_cons_self, trivial⟩ rfl ⟨_, List.mem_cons_self, trivial⟩ ?_ ?_
    · exact List.cons_ne_nil _ _
    · exact (by decide : VersionList.Ascending none [ProtocolVersion.rfcDraft14])
  · exact (hread08 ⟨_, List.mem_cons_self, trivial⟩ .default).mpr (by decide)

/-! ### A SREP whose ROOT is said to begin far behind it -/

namespace SignedResponseDraft08

theorem stretched_length : ([4, 1000] : List UInt32).length = 3 - 1 := rfl

def stretched : SignedResponseDraft08 where
  header := ⟨⟨[4, 1000], stretched_length⟩, default.header.tags⟩
  radius := 5
  midpoint := 2000
  merkleRoot := Octets.zero 32
  tags_eq := default.tags_eq

end SignedResponseDraft08

/-- The reader takes it, with a thousand bytes behind it; and a response that it is set in is
written, but what was written is not read. -/
theorem parsed_srep_not_read_back :
    (∃ c', SignedResponseDraft08.fromWire
      (new (SignedResponseDraft08.stretched.encode ++ List.replicate 1000 0)) =
        .ok (SignedResponseDraft08.stretched, c')) ∧
    (∃ b, (ResponseDraft08.ofSetters [.setSrep SignedResponseDraft08.stretched]).asFrameBytes =
      .ok b ∧ ResponseDraft08.fromFrame b = .err (.outOfBoundsOffset 1 1000)) ∧
    ¬ ∃ b r', (ResponseDraft08.ofSetters
      [.setSrep SignedResponseDraft08.stretched]).RoundTrips b r' := by
  refine ⟨?_, ?_, ?_⟩
  · have hwf : SignedResponseDraft08.stretched.header.WellFormed := ⟨by decide, by decide⟩
    have hbounds : SignedResponseDraft08.stretched.header.InBounds (44 + 1000) :=
      (hwf.inBounds_iff (show 1 + 2 = 3 from rfl)).mpr (by decide)
    have hrest : (new (SignedResponseDraft08.stretched.encode ++ List.replicate 1000 0)).rest =
        SignedResponseDraft08.stretched.encode ++ List.replicate 1000 0 := rfl
    obtain ⟨hc, htail⟩ := Consumes.of_rest hrest
    refine ⟨_, SignedResponseDraft08.fromWire_ok_iff.mpr ⟨⟨hwf, ?_⟩, hc⟩⟩
    rwa [← rest_length, htail, List.length_replicate]
  · exact ⟨_, ResponseDraft08.asFrameBytes_eq _, by decide +kernel⟩
  · rintro ⟨b, r', h⟩
    have hoffset := (SignedResponseDraft08.accepts_iff h.accepts.wellFormed).mp h.accepts
    exact absurd hoffset (by decide)

end Roughenough.Protocol
