/-
# `Roughenough.Client.Trust` — what a validated response rests on

Three statements about the parsers and the validator together.

    parse_and_validate_ne_panic   no input makes them panic
    validate_chain_of_trust       the certificate that is checked is the one
                                  in the packet, down to its bytes
    validate_srep_covered_iff     when the SREP that is believed is the SREP
                                  that was signed

The first two hold for every input.  The third does not: the decoder reads
the SREP behind PATH, and the signature check cuts it out at the offsets of
the header, which nothing ties to the place where it was read.
-/
import Roughenough.Client.Validation
import Roughenough.Protocol.Length

namespace Roughenough.Client

open Roughenough.Base Roughenough.Protocol Roughenough.Merkle ParseCursor ResponseValidator

/-! ## No panic -/

/-- Every byte string is parsed or refused, and a response that was parsed is validated or
refused, with any key, any hash and any request. -/
theorem parse_and_validate_ne_panic (b : Bytes) :
    Request.fromFrame b ≠ .panic ∧ Response.fromFrame b ≠ .panic ∧
    ResponseDraft08.fromFrame b ≠ .panic ∧
    (∀ r, Response.fromFrame b = .ok r → ∀ V H v request,
      validateDraft14 V H v request r b ≠ .panic) ∧
    (∀ r, ResponseDraft08.fromFrame b = .ok r → ∀ V H v request,
      validateDraft08 V H v request r b ≠ .panic) := by
  refine ⟨bind_fst_ne_panic Request.safe_fromWire b, bind_fst_ne_panic Response.safe_fromWire b,
    bind_fst_ne_panic ResponseDraft08.safe_fromWire b, ?_, ?_⟩
  · intro r hr V H v request
    obtain ⟨len, vw, ws, tail, -, -, hacc, -⟩ := Response.fromFrame_ok_iff.mp hr
    exact validateDraft14_ne_panic (hacc.wellFormed.le_succ (by decide))
  · intro r hr V H v request
    obtain ⟨len, vw, tail, -, -, hacc, -⟩ := ResponseDraft08.fromFrame_ok_iff.mp hr
    exact validateDraft08_ne_panic (hacc.wellFormed.le_succ (by decide))

/-! ## The chain of trust -/

/-- PUBK, MINT and MAXT at their places in the 72 bytes of a DELE. -/
def delePubk (D : Octets 72) : PublicKey :=
  ⟨slice D.bytes 24 56, slice_length (by rw [D.size_eq]; decide)⟩

def deleMint (D : Octets 72) : UInt64 := ofLeBytes64 (slice D.bytes 56 64)

def deleMaxt (D : Octets 72) : UInt64 := ofLeBytes64 (slice D.bytes 64 72)

/-- The chain from the long-term key `K` to a message, through bytes of the packet `b`: the
CERT of the packet is `C ++ S ++ D`, `K` signed the DELE `D` with the signature `S`, `D` spans
the midpoint, and the key in `D` signed the message. -/
def ChainOfTrust (V : Verify) (K : PublicKey) (b : Bytes) (cert : Certificate)
    (version : ProtocolVersion) (radius : UInt32) (m : UInt64) (message : Bytes)
    (sig : Signature) : Prop :=
  ∃ (front C : Bytes) (S : Signature) (D : Octets 72) (back : Bytes),
    b = front ++ (C ++ (S.bytes ++ (D.bytes ++ back))) ∧ C.length = 16 ∧
    (∃ c, Certificate.fromWire (new (C ++ (S.bytes ++ D.bytes))) = .ok (cert, c)) ∧
    V K (version.delePrefix ++ D.bytes) S = true ∧
    (deleMint D).toNat ≤ m.toNat ∧ m.toNat ≤ (deleMaxt D).toNat ∧ radius ≠ 0 ∧
    V (delePubk D) message sig = true

/-- The bytes of a DELE. -/
def deleBytes (d : Delegation) : Octets 72 := ⟨d.encode, d.encode_length⟩

theorem delePubk_eq (d : Delegation) : delePubk (deleBytes d) = d.publicKey := by
  apply Octets.ext
  exact slice_middle (by rw [d.header.encode_length]; rfl) (by rw [d.publicKey.size_eq])

theorem deleMint_eq (d : Delegation) : deleMint (deleBytes d) = d.minTime := by
  have hsplit : d.encode = (d.header.encode ++ d.publicKey.bytes) ++
      (leBytes64 d.minTime ++ leBytes64 d.maxTime) := by
    rw [Delegation.encode, List.append_assoc]
  have hslice : slice d.encode 56 64 = leBytes64 d.minTime := by
    rw [hsplit]
    refine slice_middle ?_ (by rw [leBytes64_length])
    rw [List.length_append, d.header.encode_length, d.publicKey.size_eq]
    rfl
  unfold deleMint deleBytes
  rw [hslice, ofLeBytes64_leBytes64]

theorem deleMaxt_eq (d : Delegation) : deleMaxt (deleBytes d) = d.maxTime := by
  have hsplit : d.encode = (d.header.encode ++ (d.publicKey.bytes ++ leBytes64 d.minTime)) ++
      (leBytes64 d.maxTime ++ []) := by
    simp only [Delegation.encode, List.append_assoc, List.append_nil]
  have hslice : slice d.encode 64 72 = leBytes64 d.maxTime := by
    rw [hsplit]
    refine slice_middle ?_ (by rw [leBytes64_length])
    simp only [List.length_append, d.header.encode_length, d.publicKey.size_eq, leBytes64_length]
    rfl
  unfold deleMaxt deleBytes
  rw [hslice, ofLeBytes64_leBytes64]

/-- A certificate that stands in the packet and passed its checks makes a chain. -/
theorem chainOfTrust_of_cert {V : Verify} {K : PublicKey} {b : Bytes} (front back : Bytes)
    {cert : Certificate} {version : ProtocolVersion} {radius : UInt32} {m : UInt64}
    {message : Bytes} {sig : Signature} (hb : b = front ++ (cert.encode ++ back))
    (hcert : CertValid V (newWithKey K) cert version radius m)
    (hsig : V cert.delegation.publicKey message sig = true) :
    ChainOfTrust V K b cert version radius m message sig := by
  have hC : cert.header.encode.length = 16 := cert.header.encode_length
  refine ⟨front, cert.header.encode, cert.signature, deleBytes cert.delegation, back, ?_, hC, ?_,
    hcert.dele K rfl, ?_, ?_, hcert.radi, ?_⟩
  · rw [hb, Certificate.encode]
    simp only [List.append_assoc]
    rfl
  · -- CERT decodes to what is encoded there, and to nothing else
    have hrest : (new cert.encode).rest = cert.encode ++ [] := (List.append_nil _).symm
    exact ⟨_, Certificate.fromWire_ok_iff.mpr (Consumes.of_rest hrest).1⟩
  · rw [deleMint_eq]
    exact hcert.mint
  · rw [deleMaxt_eq]
    exact hcert.maxt
  · rw [delePubk_eq]
    exact hsig

/-- Whatever a validator with the key `K` accepts hangs on `K` by the bytes of the packet. -/
theorem validate_chain_of_trust (V : Verify) (H : Bytes → Hash) (K : PublicKey)
    (request b : Bytes) (m : UInt64) :
    (∀ r, Response.fromFrame b = .ok r →
      validateDraft14 V H (newWithKey K) request r b = .ok m →
        ChainOfTrust V K b r.cert r.srep.version r.srep.radius m
          (r.srep.version.srepPrefix ++ srepSlice14 r b) r.signature) ∧
    (∀ r, ResponseDraft08.fromFrame b = .ok r →
      validateDraft08 V H (newWithKey K) request r b = .ok m →
        ChainOfTrust V K b r.cert .rfcDraft08 r.srep.radius m
          (ProtocolVersion.rfcDraft08.srepPrefix ++ srepSlice08 r b) r.signature) := by
  refine ⟨?_, ?_⟩
  · intro r hr hv
    obtain ⟨len, vw, ws, tail, hb, -, -, -⟩ := Response.fromFrame_ok_iff.mp hr
    obtain ⟨hvalid, rfl⟩ := validateDraft14_ok_iff.mp hv
    refine chainOfTrust_of_cert (frameHead len ++ (r.header.encode ++ (r.front ++
      (r.path.paths ++ r.srep.encodeWith vw ws)))) (leBytes32 r.index ++ tail) ?_
      hvalid.cert hvalid.sig
    rw [hb, Response.encodeWith, Response.back]
    simp only [List.append_assoc]
  · intro r hr hv
    obtain ⟨len, vw, tail, hb, -, -, -⟩ := ResponseDraft08.fromFrame_ok_iff.mp hr
    obtain ⟨hvalid, rfl⟩ := validateDraft08_ok_iff.mp hv
    refine chainOfTrust_of_cert (frameHead len ++ (r.header.encode ++ (r.frontWith vw ++
      (r.path.paths ++ r.srep.encode)))) (leBytes32 r.index ++ tail) ?_ hvalid.cert hvalid.sig
    rw [hb, ResponseDraft08.encodeWith, ResponseDraft08.back]
    simp only [List.append_assoc]

/-! ## What is believed and what was signed -/

/-- The bytes whose signature is checked. -/
def srepSigned14 (b : Bytes) : Bytes := slice b (68 + frameOffset b 3) (68 + frameOffset b 4)

def srepSigned08 (b : Bytes) : Bytes := slice b (60 + frameOffset b 2) (60 + frameOffset b 3)

/-- The signed bytes are long enough for the SREP that is read, and they are the bytes that are
read: because the table puts PATH where it is, or by repeating the SREP elsewhere. -/
def SrepCovered14 (b : Bytes) : Prop :=
  SrepFits (srepRead14 b) (srepSigned14 b).length ∧
    (frameOffset b 2 = 100 ∨ srepView (srepRead14 b) = srepView (srepSigned14 b))

def SrepCovered08 (b : Bytes) : Prop :=
  SrepFits08 (srepRead08 b) (srepSigned08 b).length ∧
    (frameOffset b 1 = 68 ∨ (srepRead08 b).take 68 = (srepSigned08 b).take 68)

theorem slice_length_lt {b : Bytes} {n a e : Nat} (he : e < 2 ^ 32) :
    (slice b (n + a) (n + e)).length < 2 ^ 32 := by
  unfold slice
  rw [List.length_take]
  omega

/-- With PATH in its place, the signed bytes are a cut of the ones that are read. -/
theorem srepSigned14_eq_take {b : Bytes} (h2 : frameOffset b 2 = 100)
    (h23 : frameOffset b 2 ≤ frameOffset b 3) (hin : 68 + frameOffset b 4 ≤ b.length) :
    srepSigned14 b = (srepRead14 b).take (srepSigned14 b).length := by
  have hpos : 168 + (frameOffset b 3 - frameOffset b 2) = 68 + frameOffset b 3 := by omega
  have hlen : (srepSigned14 b).length = 68 + frameOffset b 4 - (68 + frameOffset b 3) :=
    slice_length hin
  rw [hlen, srepRead14, hpos]
  rfl

theorem srepSigned08_eq_take {b : Bytes} (h1 : frameOffset b 1 = 68)
    (h12 : frameOffset b 1 ≤ frameOffset b 2) (hin : 60 + frameOffset b 3 ≤ b.length) :
    srepSigned08 b = (srepRead08 b).take (srepSigned08 b).length := by
  have hpos : 128 + (frameOffset b 2 - frameOffset b 1) = 60 + frameOffset b 2 := by omega
  have hlen : (srepSigned08 b).length = 60 + frameOffset b 3 - (60 + frameOffset b 2) :=
    slice_length hin
  rw [hlen, srepRead08, hpos]
  rfl

theorem srep_covered14_iff {b : Bytes} {r : Response} (hr : Response.fromFrame b = .ok r)
    (hin : 68 + r.header.offset 4 ≤ b.length) :
    (∃ c, SignedResponse.fromWire (new (srepSlice14 r b)) = .ok (r.srep, c)) ↔
      SrepCovered14 b := by
  obtain ⟨vw, ws, tail, hL⟩ := Response.layout hr
  have h2 := hL.offset 2 (by decide)
  have h3 := hL.offset 3 (by decide)
  have h4 := hL.offset 4 (by decide)
  have h23 : r.header.offset 2 ≤ r.header.offset 3 := hL.accepts.wellFormed.le_succ (by decide)
  have hread := hL.srepRead_eq
  have hsigned : srepSlice14 r b = srepSigned14 b := by
    rw [srepSigned14, h3, h4]
    rfl
  have hlt : (srepSigned14 b).length < 2 ^ 32 := by
    rw [← hsigned]
    exact slice_length_lt (UInt32.toNat_lt _)
  rw [hsigned, SignedResponse.decode_iff hread hL.spells hL.accepts.srep hlt]
  constructor
  · rintro ⟨hfits, hview⟩
    exact ⟨hfits, .inr hview⟩
  · rintro ⟨hfits, hsame⟩
    refine ⟨hfits, ?_⟩
    rcases hsame with h100 | hview
    · rw [srepSigned14_eq_take h100 (by omega) (by omega), srepView_take hfits]
    · exact hview

theorem srep_covered08_iff {b : Bytes} {r : ResponseDraft08}
    (hr : ResponseDraft08.fromFrame b = .ok r) (hin : 60 + r.header.offset 3 ≤ b.length) :
    (∃ c, SignedResponseDraft08.fromWire (new (srepSlice08 r b)) = .ok (r.srep, c)) ↔
      SrepCovered08 b := by
  obtain ⟨vw, tail, hL⟩ := ResponseDraft08.layout hr
  have h1 := hL.offset 1 (by decide)
  have h2 := hL.offset 2 (by decide)
  have h3 := hL.offset 3 (by decide)
  have h12 : r.header.offset 1 ≤ r.header.offset 2 := hL.accepts.wellFormed.le_succ (by decide)
  have hread := hL.srepRead_eq
  have hsigned : srepSlice08 r b = srepSigned08 b := by
    rw [srepSigned08, h2, h3]
    rfl
  have hlt : (srepSigned08 b).length < 2 ^ 32 := by
    rw [← hsigned]
    exact slice_length_lt (UInt32.toNat_lt _)
  rw [hsigned, SignedResponseDraft08.decode_iff hread hL.accepts.srep hlt]
  constructor
  · rintro ⟨hfits, htake⟩
    exact ⟨hfits, .inr htake⟩
  · rintro ⟨hfits, hsame⟩
    refine ⟨hfits, ?_⟩
    rcases hsame with h68 | htake
    · have hmin : min 68 (srepSigned08 b).length = 68 := Nat.min_eq_left hfits.1
      rw [srepSigned08_eq_take h68 (by omega) (by omega), List.take_take, hmin]
    · exact htake

/-- On every validated response the SREP whose signature was verified decodes to the SREP that
is believed exactly when it is covered. -/
theorem validate_srep_covered_iff (V : Verify) (H : Bytes → Hash) (v : ResponseValidator)
    (request b : Bytes) (m : UInt64) :
    (∀ r, Response.fromFrame b = .ok r → validateDraft14 V H v request r b = .ok m →
      V r.cert.delegation.publicKey (r.srep.version.srepPrefix ++ srepSlice14 r b) r.signature =
          true ∧ r.srep.midpoint = m ∧
        ((∃ c, SignedResponse.fromWire (new (srepSlice14 r b)) = .ok (r.srep, c)) ↔
          SrepCovered14 b)) ∧
    (∀ r, ResponseDraft08.fromFrame b = .ok r → validateDraft08 V H v request r b = .ok m →
      V r.cert.delegation.publicKey
          (ProtocolVersion.rfcDraft08.srepPrefix ++ srepSlice08 r b) r.signature = true ∧
        r.srep.midpoint = m ∧
        ((∃ c, SignedResponseDraft08.fromWire (new (srepSlice08 r b)) = .ok (r.srep, c)) ↔
          SrepCovered08 b)) := by
  refine ⟨?_, ?_⟩
  · intro r hr hv
    obtain ⟨hvalid, hm⟩ := validateDraft14_ok_iff.mp hv
    exact ⟨hvalid.sig, hm, srep_covered14_iff hr hvalid.inside⟩
  · intro r hr hv
    obtain ⟨hvalid, hm⟩ := validateDraft08_ok_iff.mp hv
    exact ⟨hvalid.sig, hm, srep_covered08_iff hr hvalid.inside⟩

/-! ## An honest packet and a forged one -/

namespace Sample

def longTermKey : PublicKey := Octets.fill 32 0xa1

def onlineKey : PublicKey := Octets.fill 32 0xb2

def nonce : Nonce := Octets.fill 32 0x42

def request : Bytes := framed (Request.newDraft14 nonce).encode

def hash (bs : Bytes) : Hash := Octets.fill 32 (UInt8.ofNat bs.length)

def cert : Certificate :=
  Certificate.new (Octets.fill 64 0xc3) (Delegation.new onlineKey 1000 5000)

/-- A SREP for a batch of the one request. -/
def srep (midp : UInt64) : SignedResponse :=
  ((((SignedResponse.default.setVer .rfcDraft14).setRadi 5).setMidp midp).setVers
    (VersionList.new [.rfcDraft14])).setRoot (MerkleTree.hashLeaf hash request)

/-- The two signatures that exist: the long-term key's on the DELE, and the online key's on the
SREP with midpoint 2000. -/
def verify : Verify := fun key message sig =>
  decide ((key = longTermKey ∧ sig = Octets.fill 64 0xc3 ∧
      message = ProtocolVersion.rfcDraft14.delePrefix ++ cert.delegation.encode) ∨
    (key = onlineKey ∧ sig = Octets.fill 64 0xd4 ∧
      message = ProtocolVersion.rfcDraft14.srepPrefix ++ (srep 2000).encode))

/-- What the server answered. -/
def honest : Response :=
  (((Response.default.setSig (Octets.fill 64 0xd4)).setNonc nonce).setSrep (srep 2000)).setCert cert

/-- The answer with another SREP in it, and a table that points behind the message. -/
def forged : Response :=
  { honest with
    srep := srep 5000
    header.offsets := ⟨[0, 0, 348, 348, 440, 440], rfl⟩
    tags_eq := rfl }

/-- The forged packet: the forged message, and behind it the SREP that was signed. -/
def packet : Bytes := frameHead 496 ++ (forged.encode ++ (srep 2000).encode)

def midpointOf : Outcome Error (SignedResponse × ParseCursor) → UInt64
  | .ok (s, _) => s.midpoint
  | _ => 0

end Sample

open Sample

theorem parse_and_validate_ne_panic_honest :
    validateDraft14 verify hash (newWithKey longTermKey) request honest (framed honest.encode) ≠
      .panic :=
  (parse_and_validate_ne_panic (framed honest.encode)).2.2.2.1 honest (by decide +kernel) verify
    hash (newWithKey longTermKey) request

theorem validate_chain_of_trust_honest :
    ChainOfTrust verify longTermKey (framed honest.encode) cert .rfcDraft14 5 2000
      (ProtocolVersion.rfcDraft14.srepPrefix ++ srepSlice14 honest (framed honest.encode))
        (Octets.fill 64 0xd4) :=
  (validate_chain_of_trust verify hash longTermKey request (framed honest.encode) 2000).1 honest
    (by decide +kernel) (by decide +kernel)

theorem validate_srep_covered_iff_honest :
    (∃ c, SignedResponse.fromWire (new (srepSlice14 honest (framed honest.encode))) =
      .ok (srep 2000, c)) ↔ SrepCovered14 (framed honest.encode) :=
  ((validate_srep_covered_iff verify hash (newWithKey longTermKey) request (framed honest.encode)
    2000).1 honest (by decide +kernel) (by decide +kernel)).2.2

/-- The forged packet is accepted with a midpoint that nobody signed: the bytes whose signature
was verified are the SREP with midpoint 2000. -/
theorem forged_packet_accepted :
    Response.fromFrame packet = .ok forged ∧
    validateDraft14 verify hash (newWithKey longTermKey) request forged packet = .ok 5000 ∧
    ¬ ∃ c, SignedResponse.fromWire (new (srepSlice14 forged packet)) = .ok (forged.srep, c) := by
  refine ⟨by decide +kernel, by decide +kernel, ?_⟩
  rintro ⟨c, h⟩
  have hmid : midpointOf (SignedResponse.fromWire (new (srepSlice14 forged packet))) = 5000 := by
    rw [h]
    rfl
  exact absurd hmid (by decide +kernel)

end Roughenough.Client
