/-
# `Roughenough.Client.Validation` — the response validator

`roughenough-client/src/validation.rs`.  Ed25519 verification is a parameter
`V : key → message → signature → Bool` and the hash a parameter `H`: nothing
below depends on what they do.

The validator looks at two things: the decoded response, and for the SREP
signature the raw bytes, out of which it cuts the SREP at the offsets of the
header.  What a successful validation amounts to is `Valid14` and `Valid08`;
`validateDraft14_ok_iff` and `validateDraft08_ok_iff` connect them to the code
and every later argument starts from there.
-/
import Roughenough.Merkle.Tree
import Roughenough.Protocol.Response

namespace Roughenough.Client

open Roughenough.Base Roughenough.Protocol Roughenough.Merkle

/-- `UnparsedPublicKey::verify` for Ed25519. -/
abbrev Verify := PublicKey → Bytes → Signature → Bool

/-! ## Error texts -/

def hexDigit (n : Nat) : Char := if n < 10 then Char.ofNat (48 + n) else Char.ofNat (87 + n)

/-- `as_hex`, and `HEXLOWER.encode`. -/
def asHex (data : Bytes) : String :=
  String.ofList (data.flatMap fun b => [hexDigit (b.toNat / 16), hexDigit (b.toNat % 16)])

/-- `Debug for Signature`. -/
def sigDebug (sig : Signature) : String := "SIG(" ++ asHex sig.bytes ++ ")"

/-- `Debug for PublicKey`. -/
def pubkDebug (pubk : PublicKey) : String := "PUBK(" ++ asHex pubk.bytes ++ ")"

inductive ValidationError where
  | invalidMidpoint (msg : String)
  | badSignature (msg : String)
  | failedProof (msg : String)
  | invalidMessage (e : Error)
  | versionMismatch (ver : ProtocolVersion)
  | invalidRadius (msg : String)
  deriving DecidableEq

/-- `ResponseValidator`: the long-term key, when it is known. -/
structure ResponseValidator where
  pubKey : Option PublicKey

namespace ResponseValidator

def new : ResponseValidator := ⟨none⟩

def newWithKey (pubKey : PublicKey) : ResponseValidator := ⟨some pubKey⟩

/-! ## The checks -/

section Checks

variable (V : Verify) (H : Bytes → Hash)

/-- `check_dele_signature_with_key`: the DELE is serialised again. -/
def checkDeleSignatureWithKey (pubKey : PublicKey) (cert : Certificate)
    (version : ProtocolVersion) : Outcome ValidationError Unit := do
  let dele ← (inFreshBuffer Delegation.wireSize cert.delegation.toWire).mapErr .invalidMessage
  Outcome.failIf (V pubKey (version.delePrefix ++ dele) cert.signature = false)
    (.badSignature "signature on DELE is invalid")

def checkVersContainsVer (response : Response) : Outcome ValidationError Unit :=
  Outcome.failIf (response.srep.supportedVersions.isSupported response.srep.version = false)
    (.versionMismatch response.srep.version)

def verifySrepSignature (srepPrefix srepBytes : Bytes) (sig : Signature) (pubk : PublicKey) :
    Outcome ValidationError Unit :=
  Outcome.failIf (V pubk (srepPrefix ++ srepBytes) sig = false)
    (.badSignature ("signature " ++ sigDebug sig ++ " by " ++ pubkDebug pubk ++
      " on SREP is invalid"))

/-- What `check_srep_signature_draft14` and `check_srep_signature_draft08` share: the SREP is cut
out of the raw bytes between two offsets of the values section. -/
def checkSrepSlice (valuesStart startOffset endOffset : Nat) (srepPrefix : Bytes)
    (sig : Signature) (cert : Certificate) (responseBytes : Bytes) :
    Outcome ValidationError Unit := do
  Outcome.failIf (valuesStart + endOffset > responseBytes.length)
    (.badSignature "SREP offset extends beyond response bytes")
  let srepBytes ← sliceOrPanic responseBytes (valuesStart + startOffset) (valuesStart + endOffset)
  verifySrepSignature V srepPrefix srepBytes sig cert.delegation.publicKey

/-- Frame header (12) and the header of seven tags (56). -/
def checkSrepSignatureDraft14 (response : Response) (responseBytes : Bytes) :
    Outcome ValidationError Unit :=
  checkSrepSlice V (12 + 56) (response.header.offset 3) (response.header.offset 4)
    response.srep.version.srepPrefix response.signature response.cert responseBytes

/-- Frame header (12) and the header of six tags (48). -/
def checkSrepSignatureDraft08 (response : ResponseDraft08) (responseBytes : Bytes) :
    Outcome ValidationError Unit :=
  checkSrepSlice V (12 + 48) (response.header.offset 2) (response.header.offset 3)
    ProtocolVersion.rfcDraft08.srepPrefix response.signature response.cert responseBytes

def checkMidpointInner (midpoint mint maxt : UInt64) : Outcome ValidationError Unit := do
  let span := "delegation span (" ++ toString mint ++ ", " ++ toString maxt ++ ")"
  Outcome.failIf (midpoint.toNat < mint.toNat)
    (.invalidMidpoint ("midpoint (" ++ toString midpoint ++ ") is *before* " ++ span))
  Outcome.failIf (maxt.toNat < midpoint.toNat)
    (.invalidMidpoint ("midpoint (" ++ toString midpoint ++ ") is *after* " ++ span))

def checkRadius (radius : UInt32) : Outcome ValidationError Unit :=
  Outcome.failIf (radius = 0) (.invalidRadius "RADI must not be zero (RFC 5.2.5)")

def checkMerkleProofInner (leafData : Bytes) (path : MerklePath) (index : Nat)
    (root : MerkleRoot) : Outcome ValidationError Unit :=
  Outcome.failIf (MerkleTree.rootFromPaths H index leafData path ≠ root)
    (.failedProof ("Nonce is not present in the response's merkle tree: computed " ++
      asHex (MerkleTree.rootFromPaths H index leafData path).bytes ++ " != ROOT " ++
        asHex root.bytes))

def checkMerkleProofDraft14 (request : Bytes) (response : Response) :
    Outcome ValidationError Unit :=
  checkMerkleProofInner H request response.path response.index.toNat response.srep.merkleRoot

/-- `check_merkle_proof_draft08`: the leaf is the nonce, at its place in a default request. -/
def checkMerkleProofDraft08 (request : Bytes) (response : ResponseDraft08) :
    Outcome ValidationError Unit := do
  Outcome.failIf (request.length < RequestDraft08.framedNonceOffset + 32)
    (.invalidMessage (.bufferTooSmall (RequestDraft08.framedNonceOffset + 32) request.length))
  let nonce ← sliceOrPanic request RequestDraft08.framedNonceOffset
    (RequestDraft08.framedNonceOffset + 32)
  checkMerkleProofInner H nonce response.path response.index.toNat response.srep.merkleRoot

/-- The check of the long-term key, made when the validator holds one. -/
def checkDele (v : ResponseValidator) (cert : Certificate) (version : ProtocolVersion) :
    Outcome ValidationError Unit :=
  match v.pubKey with
  | some pubKey => checkDeleSignatureWithKey V pubKey cert version
  | none => .ok ()

def validateDraft14 (v : ResponseValidator) (request : Bytes) (response : Response)
    (responseBytes : Bytes) : Outcome ValidationError UInt64 := do
  checkDele V v response.cert response.srep.version
  checkVersContainsVer response
  checkMidpointInner response.srep.midpoint response.cert.delegation.minTime
    response.cert.delegation.maxTime
  checkRadius response.srep.radius
  checkMerkleProofDraft14 H request response
  checkSrepSignatureDraft14 V response responseBytes
  pure response.srep.midpoint

def validateDraft08 (v : ResponseValidator) (request : Bytes) (response : ResponseDraft08)
    (responseBytes : Bytes) : Outcome ValidationError UInt64 := do
  checkDele V v response.cert .rfcDraft08
  checkMidpointInner response.srep.midpoint response.cert.delegation.minTime
    response.cert.delegation.maxTime
  checkRadius response.srep.radius
  checkMerkleProofDraft08 H request response
  checkSrepSignatureDraft08 V response responseBytes
  pure response.srep.midpoint

end Checks

/-! ## What a validation amounts to -/

section Spec

variable {V : Verify} {H : Bytes → Hash}

/-- The SREP that is handed to the signature check. -/
def srepSlice14 (response : Response) (b : Bytes) : Bytes :=
  slice b (68 + response.header.offset 3) (68 + response.header.offset 4)

def srepSlice08 (response : ResponseDraft08) (b : Bytes) : Bytes :=
  slice b (60 + response.header.offset 2) (60 + response.header.offset 3)

/-- What holds of the certificate and the time in both formats. -/
structure CertValid (V : Verify) (v : ResponseValidator) (cert : Certificate)
    (version : ProtocolVersion) (radius : UInt32) (midpoint : UInt64) : Prop where
  dele : ∀ K ∈ v.pubKey, V K (version.delePrefix ++ cert.delegation.encode) cert.signature = true
  mint : cert.delegation.minTime.toNat ≤ midpoint.toNat
  maxt : midpoint.toNat ≤ cert.delegation.maxTime.toNat
  radi : radius ≠ 0

structure Valid14 (V : Verify) (H : Bytes → Hash) (v : ResponseValidator) (request : Bytes)
    (response : Response) (b : Bytes) : Prop where
  cert : CertValid V v response.cert response.srep.version response.srep.radius
    response.srep.midpoint
  vers : response.srep.supportedVersions.isSupported response.srep.version = true
  proof : MerkleTree.rootFromPaths H response.index.toNat request response.path =
    response.srep.merkleRoot
  ordered : response.header.offset 3 ≤ response.header.offset 4
  inside : 68 + response.header.offset 4 ≤ b.length
  sig : V response.cert.delegation.publicKey
    (response.srep.version.srepPrefix ++ srepSlice14 response b) response.signature = true

structure Valid08 (V : Verify) (H : Bytes → Hash) (v : ResponseValidator) (request : Bytes)
    (response : ResponseDraft08) (b : Bytes) : Prop where
  cert : CertValid V v response.cert .rfcDraft08 response.srep.radius response.srep.midpoint
  long : 72 ≤ request.length
  proof : MerkleTree.rootFromPaths H response.index.toNat (slice request 40 72) response.path =
    response.srep.merkleRoot
  ordered : response.header.offset 2 ≤ response.header.offset 3
  inside : 60 + response.header.offset 3 ≤ b.length
  sig : V response.cert.delegation.publicKey
    (ProtocolVersion.rfcDraft08.srepPrefix ++ srepSlice08 response b) response.signature = true

theorem checkDele_ok_iff {v : ResponseValidator} {cert : Certificate}
    {version : ProtocolVersion} {u : Unit} : checkDele V v cert version = .ok u ↔
      ∀ K ∈ v.pubKey, V K (version.delePrefix ++ cert.delegation.encode) cert.signature = true := by
  have hbytes : inFreshBuffer Delegation.wireSize cert.delegation.toWire =
      .ok cert.delegation.encode :=
    inFreshBuffer_writes cert.delegation.toWire_writes cert.delegation.encode_length
  unfold checkDele
  cases v.pubKey with
  | none => simp
  | some K =>
      simp [checkDeleSignatureWithKey, hbytes, Outcome.mapErr]

theorem checkMidpointInner_ok_iff {midpoint mint maxt : UInt64} {u : Unit} :
    checkMidpointInner midpoint mint maxt = .ok u ↔
      mint.toNat ≤ midpoint.toNat ∧ midpoint.toNat ≤ maxt.toNat := by
  simp only [checkMidpointInner, Outcome.bind_ok_iff, Outcome.failIf_ok_iff]
  exact ⟨fun ⟨_, h, h'⟩ => ⟨by omega, by omega⟩, fun ⟨h, h'⟩ => ⟨(), by omega, by omega⟩⟩

theorem checkSrepSlice_ok_iff {n a e : Nat} {srepPrefix b : Bytes} {sig : Signature}
    {cert : Certificate} {u : Unit} : checkSrepSlice V n a e srepPrefix sig cert b = .ok u ↔
      a ≤ e ∧ n + e ≤ b.length ∧ V cert.delegation.publicKey
        (srepPrefix ++ slice b (n + a) (n + e)) sig = true := by
  simp only [checkSrepSlice, Outcome.bind_ok_iff, Outcome.failIf_ok_iff, sliceOrPanic_ok_iff,
    verifySrepSignature, Bool.not_eq_false]
  constructor
  · rintro ⟨_, hle, _, ⟨⟨hae, -⟩, rfl⟩, hsig⟩
    exact ⟨by omega, by omega, hsig⟩
  · rintro ⟨hae, hle, hsig⟩
    exact ⟨(), by omega, _, ⟨⟨by omega, hle⟩, rfl⟩, hsig⟩

theorem checkSrepSlice_ne_panic {n a e : Nat} {srepPrefix b : Bytes} {sig : Signature}
    {cert : Certificate} (h : a ≤ e) : checkSrepSlice V n a e srepPrefix sig cert b ≠ .panic := by
  refine Outcome.bind_ne_panic Outcome.failIf_ne_panic fun _ hfit => ?_
  rw [Outcome.failIf_ok_iff] at hfit
  exact Outcome.bind_ne_panic (sliceOrPanic_ne_panic (by omega) (by omega))
    fun _ _ => Outcome.failIf_ne_panic

theorem checkMerkleProofInner_ok_iff {leaf : Bytes} {path : MerklePath} {i : Nat}
    {root : MerkleRoot} {u : Unit} : checkMerkleProofInner H leaf path i root = .ok u ↔
      MerkleTree.rootFromPaths H i leaf path = root := by
  simp only [checkMerkleProofInner, Outcome.failIf_ok_iff, ne_eq, not_not]

theorem checkMerkleProofDraft08_ok_iff {request : Bytes} {response : ResponseDraft08} {u : Unit} :
    checkMerkleProofDraft08 H request response = .ok u ↔ 72 ≤ request.length ∧
      MerkleTree.rootFromPaths H response.index.toNat (slice request 40 72) response.path =
        response.srep.merkleRoot := by
  have hoff : RequestDraft08.framedNonceOffset = 40 := rfl
  simp only [checkMerkleProofDraft08, Outcome.bind_ok_iff, Outcome.failIf_ok_iff,
    sliceOrPanic_ok_iff, checkMerkleProofInner_ok_iff]
  constructor
  · rintro ⟨_, hlen, _, ⟨-, rfl⟩, hproof⟩
    exact ⟨by omega, hproof⟩
  · rintro ⟨hlen, hproof⟩
    exact ⟨(), by omega, _, ⟨⟨by omega, by omega⟩, rfl⟩, hproof⟩

theorem validateDraft14_ok_iff {v : ResponseValidator} {request b : Bytes} {response : Response}
    {m : UInt64} : validateDraft14 V H v request response b = .ok m ↔
      Valid14 V H v request response b ∧ response.srep.midpoint = m := by
  simp only [validateDraft14, Outcome.bind_ok_iff, checkDele_ok_iff, checkVersContainsVer,
    Outcome.failIf_ok_iff, checkMidpointInner_ok_iff, checkRadius, checkMerkleProofDraft14,
    checkMerkleProofInner_ok_iff, checkSrepSignatureDraft14, checkSrepSlice_ok_iff,
    Outcome.pure_eq, Outcome.ok.injEq, Bool.not_eq_false]
  constructor
  · rintro ⟨_, hdele, _, hvers, _, ⟨hmint, hmaxt⟩, _, hradi, _, hproof, _, ⟨hord, hin, hsig⟩, hm⟩
    exact ⟨⟨⟨hdele, hmint, hmaxt, hradi⟩, hvers, hproof, hord, hin, hsig⟩, hm⟩
  · rintro ⟨hv, hm⟩
    exact ⟨(), hv.cert.dele, (), hv.vers, (), ⟨hv.cert.mint, hv.cert.maxt⟩, (), hv.cert.radi, (),
      hv.proof, (), ⟨hv.ordered, hv.inside, hv.sig⟩, hm⟩

theorem validateDraft08_ok_iff {v : ResponseValidator} {request b : Bytes}
    {response : ResponseDraft08} {m : UInt64} :
    validateDraft08 V H v request response b = .ok m ↔
      Valid08 V H v request response b ∧ response.srep.midpoint = m := by
  simp only [validateDraft08, Outcome.bind_ok_iff, checkDele_ok_iff, Outcome.failIf_ok_iff,
    checkMidpointInner_ok_iff, checkRadius, checkMerkleProofDraft08_ok_iff,
    checkSrepSignatureDraft08, checkSrepSlice_ok_iff, Outcome.pure_eq, Outcome.ok.injEq]
  constructor
  · rintro ⟨_, hdele, _, ⟨hmint, hmaxt⟩, _, hradi, _, ⟨hlong, hproof⟩, _, ⟨hord, hin, hsig⟩, hm⟩
    exact ⟨⟨⟨hdele, hmint, hmaxt, hradi⟩, hlong, hproof, hord, hin, hsig⟩, hm⟩
  · rintro ⟨hv, hm⟩
    exact ⟨(), hv.cert.dele, (), ⟨hv.cert.mint, hv.cert.maxt⟩, (), hv.cert.radi, (),
      ⟨hv.long, hv.proof⟩, (), ⟨hv.ordered, hv.inside, hv.sig⟩, hm⟩

/-! ### The checks do not panic -/

theorem checkDele_ne_panic {v : ResponseValidator} {cert : Certificate}
    {version : ProtocolVersion} : checkDele V v cert version ≠ .panic := by
  have hbytes : inFreshBuffer Delegation.wireSize cert.delegation.toWire =
      .ok cert.delegation.encode :=
    inFreshBuffer_writes cert.delegation.toWire_writes cert.delegation.encode_length
  unfold checkDele
  cases v.pubKey with
  | none => exact Outcome.ok_ne_panic _
  | some K =>
      refine Outcome.bind_ne_panic ?_ fun _ _ => Outcome.failIf_ne_panic
      rw [hbytes]
      exact Outcome.ok_ne_panic _

theorem validateDraft14_ne_panic {v : ResponseValidator} {request b : Bytes}
    {response : Response} (h : response.header.offset 3 ≤ response.header.offset 4) :
    validateDraft14 V H v request response b ≠ .panic :=
  Outcome.bind_ne_panic checkDele_ne_panic fun _ _ =>
    Outcome.bind_ne_panic Outcome.failIf_ne_panic fun _ _ =>
      Outcome.bind_ne_panic (Outcome.bind_ne_panic Outcome.failIf_ne_panic
        fun _ _ => Outcome.failIf_ne_panic) fun _ _ =>
        Outcome.bind_ne_panic Outcome.failIf_ne_panic fun _ _ =>
          Outcome.bind_ne_panic Outcome.failIf_ne_panic fun _ _ =>
            Outcome.bind_ne_panic (checkSrepSlice_ne_panic h) fun _ _ =>
              Outcome.ok_ne_panic _

theorem checkMerkleProofDraft08_ne_panic {request : Bytes} {response : ResponseDraft08} :
    checkMerkleProofDraft08 H request response ≠ .panic := by
  refine Outcome.bind_ne_panic Outcome.failIf_ne_panic fun _ hlen => ?_
  rw [Outcome.failIf_ok_iff] at hlen
  exact Outcome.bind_ne_panic (sliceOrPanic_ne_panic (by omega) (by omega))
    fun _ _ => Outcome.failIf_ne_panic

theorem validateDraft08_ne_panic {v : ResponseValidator} {request b : Bytes}
    {response : ResponseDraft08} (h : response.header.offset 2 ≤ response.header.offset 3) :
    validateDraft08 V H v request response b ≠ .panic :=
  Outcome.bind_ne_panic checkDele_ne_panic fun _ _ =>
    Outcome.bind_ne_panic (Outcome.bind_ne_panic Outcome.failIf_ne_panic
      fun _ _ => Outcome.failIf_ne_panic) fun _ _ =>
      Outcome.bind_ne_panic Outcome.failIf_ne_panic fun _ _ =>
        Outcome.bind_ne_panic checkMerkleProofDraft08_ne_panic fun _ _ =>
          Outcome.bind_ne_panic (checkSrepSlice_ne_panic h) fun _ _ =>
              Outcome.ok_ne_panic _

end Spec

end ResponseValidator

end Roughenough.Client
