/-
# `Roughenough.Server.Keys` — the long-term identity and its online keys

`roughenough-keys/src/online/onlinekey.rs`, `longterm/identity.rs` and
`roughenough-server/src/keysource.rs`.

The long-term key signs a DELE for a random online key; the online key signs a
SREP for every batch.  A signature is made over a prefix and the bytes that
were serialised for it:

    DELE   version.dele_prefix ++ DELE
    SREP   srep_prefix ++ SREP, in a buffer that is kept between batches

Ed25519 itself is a parameter.  A backend for the long-term seed is the
in-memory one: it signs with the seed.

What is kept about a key is `Issued`: its CERT carries its own public key and a
signature of the identity, and its buffer starts with the prefix.
-/
import Roughenough.Protocol.Build

namespace Roughenough.Server

open Roughenough.Base Roughenough.Protocol ParseCursor

/-- The secret of an Ed25519 key pair. -/
abbrev Seed := Octets 32

/-- Ed25519, as far as the sources use it. -/
structure Ed25519 where
  publicKey : Seed → PublicKey
  sign : Seed → Bytes → Signature
  verify : PublicKey → Bytes → Signature → Bool

/-- A signature made with a key verifies under the matching public key. -/
def Ed25519.Correct (E : Ed25519) : Prop :=
  ∀ seed data, E.verify (E.publicKey seed) data (E.sign seed data) = true

/-- What a new online key takes from outside: the clock, the random key pair, and the capacity
the allocator grants beyond what was asked for. -/
structure Draw where
  now : UInt64
  signer : Seed
  slack : Nat

/-! ## Signing a SREP -/

section Signing

variable (E : Ed25519)

/-- The common part of the two `make_srep`: the SREP is written behind the prefix of the signing
buffer, and prefix and SREP are signed. -/
def signSrep (signer : Seed) (signingBuf srepPrefix : Bytes) (wireSize : Nat)
    (toWire : Wire Unit) : Call (Signature × Bytes) := do
  let totalLen := srepPrefix.length + wireSize
  let window ← sliceOrPanic signingBuf srepPrefix.length totalLen
  let written ← (toWire (ParseCursor.new window)).expect
  let buf := signingBuf.take srepPrefix.length ++ (written.2.data ++ signingBuf.drop totalLen)
  let data ← sliceOrPanic buf 0 totalLen
  pure (E.sign signer data, buf)

/-- A signing buffer: the prefix, and room for `size` bytes. -/
def Primed (buf srepPrefix : Bytes) (size : Nat) : Prop :=
  ∃ room, buf = srepPrefix ++ room ∧ size ≤ room.length

variable {E}

theorem signSrep_ok (signer : Seed) {buf srepPrefix bs : Bytes} {size : Nat} {toWire : Wire Unit}
    (hbuf : Primed buf srepPrefix size) (hw : Writes toWire bs) (hsize : bs.length = size) :
    ∃ buf', signSrep E signer buf srepPrefix size toWire =
        .ok (E.sign signer (srepPrefix ++ bs), buf') ∧ Primed buf' srepPrefix size := by
  obtain ⟨room, rfl, hroom⟩ := hbuf
  have hlen : (srepPrefix ++ room).length = srepPrefix.length + room.length := List.length_append
  have hwin : (slice (srepPrefix ++ room) srepPrefix.length
      (srepPrefix.length + size)).length = bs.length := by
    rw [slice_length (by omega)]
    omega
  obtain ⟨c, hc, hdata⟩ := hw.fill hwin
  have hslice : (sliceOrPanic (srepPrefix ++ room) srepPrefix.length
      (srepPrefix.length + size) : Call Bytes) = .ok (slice (srepPrefix ++ room)
        srepPrefix.length (srepPrefix.length + size)) :=
    sliceOrPanic_ok_iff.mpr ⟨⟨by omega, by omega⟩, rfl⟩
  have hdrop : (srepPrefix ++ room).drop (srepPrefix.length + size) = room.drop size := by
    rw [← List.drop_drop, List.drop_left]
  have hsigned : slice (srepPrefix ++ (bs ++ room.drop size)) 0 (srepPrefix.length + size) =
      srepPrefix ++ bs := by
    rw [slice_zero_take, ← List.append_assoc]
    exact List.take_left' (by rw [List.length_append, hsize])
  have hlast : (sliceOrPanic (srepPrefix ++ (bs ++ room.drop size)) 0
      (srepPrefix.length + size) : Call Bytes) = .ok (srepPrefix ++ bs) := by
    refine sliceOrPanic_ok_iff.mpr ⟨⟨by omega, ?_⟩, hsigned⟩
    simp only [List.length_append]
    omega
  refine ⟨srepPrefix ++ (bs ++ room.drop size), ?_, bs ++ room.drop size, rfl, ?_⟩
  · simp only [signSrep, hslice, Outcome.ok_bind, hc, Outcome.expect_ok, hdrop, hdata,
      List.take_left, hlast, Outcome.pure_eq]
  · rw [List.length_append]
    omega

end Signing

/-! ## Online keys -/

/-- `OnlineKeyDraft14`; the clock is read by whoever calls `makeSrep`. -/
structure OnlineKeyDraft14 where
  signer : Seed
  cert : Certificate
  templateSrep : SignedResponse
  signingBuf : Bytes
  deriving DecidableEq

namespace OnlineKeyDraft14

/-- The template that `new` prepares. -/
def template (version : ProtocolVersion) : SignedResponse :=
  ((SignedResponse.default.setRadi SignedResponse.defaultRadiSeconds).setVers
    (VersionList.new [version])).setVer version

def new (version : ProtocolVersion) (draw : Draw) : OnlineKeyDraft14 where
  signer := draw.signer
  cert := Certificate.default
  templateSrep := template version
  signingBuf := ProtocolVersion.rfcDraft14.srepPrefix ++
    List.replicate ((template version).wireSize + draw.slack) 0

def setCert (key : OnlineKeyDraft14) (cert : Certificate) : OnlineKeyDraft14 :=
  { key with cert := cert }

/-- The getter `cert`, with its `debug_assert!`. -/
def getCert (debug : Bool) (key : OnlineKeyDraft14) : Call Certificate := do
  Outcome.assert (debug = true → key.cert ≠ Certificate.default)
  pure key.cert

/-- The SREP of a batch. -/
def srep (key : OnlineKeyDraft14) (now : UInt64) (root : MerkleRoot) : SignedResponse :=
  (key.templateSrep.setRoot root).setMidp now

def makeSrep (E : Ed25519) (key : OnlineKeyDraft14) (now : UInt64) (root : MerkleRoot) :
    Call ((SignedResponse × Signature) × OnlineKeyDraft14) := do
  let srep := key.srep now root
  let (sig, buf) ← signSrep E key.signer key.signingBuf ProtocolVersion.rfcDraft14.srepPrefix
    srep.wireSize srep.toWire
  pure ((srep, sig), { key with signingBuf := buf })

theorem getCert_ok_iff {debug : Bool} {key : OnlineKeyDraft14}
    {cert : Certificate} : key.getCert debug = .ok cert ↔
      (debug = true → key.cert ≠ Certificate.default) ∧ key.cert = cert := by
  simp only [getCert, Outcome.bind_ok_iff, Outcome.assert_ok_iff, Outcome.pure_eq,
    Outcome.ok.injEq, exists_const]

end OnlineKeyDraft14

/-- `OnlineKeyDraft08`. -/
structure OnlineKeyDraft08 where
  signer : Seed
  cert : Certificate
  templateSrep : SignedResponseDraft08
  signingBuf : Bytes
  deriving DecidableEq

namespace OnlineKeyDraft08

def template : SignedResponseDraft08 :=
  SignedResponseDraft08.default.setRadi SignedResponseDraft08.defaultRadiSeconds

def new (draw : Draw) : OnlineKeyDraft08 where
  signer := draw.signer
  cert := Certificate.default
  templateSrep := template
  signingBuf := ProtocolVersion.rfcDraft08.srepPrefix ++
    List.replicate (SignedResponseDraft08.wireSize + draw.slack) 0

def setCert (key : OnlineKeyDraft08) (cert : Certificate) : OnlineKeyDraft08 :=
  { key with cert := cert }

def getCert (debug : Bool) (key : OnlineKeyDraft08) : Call Certificate := do
  Outcome.assert (debug = true → key.cert ≠ Certificate.default)
  pure key.cert

def srep (key : OnlineKeyDraft08) (now : UInt64) (root : MerkleRoot) : SignedResponseDraft08 :=
  (key.templateSrep.setRoot root).setMidp now

def makeSrep (E : Ed25519) (key : OnlineKeyDraft08) (now : UInt64) (root : MerkleRoot) :
    Call ((SignedResponseDraft08 × Signature) × OnlineKeyDraft08) := do
  let srep := key.srep now root
  let (sig, buf) ← signSrep E key.signer key.signingBuf ProtocolVersion.rfcDraft08.srepPrefix
    SignedResponseDraft08.wireSize srep.toWire
  pure ((srep, sig), { key with signingBuf := buf })

theorem getCert_ok_iff {debug : Bool} {key : OnlineKeyDraft08}
    {cert : Certificate} : key.getCert debug = .ok cert ↔
      (debug = true → key.cert ≠ Certificate.default) ∧ key.cert = cert := by
  simp only [getCert, Outcome.bind_ok_iff, Outcome.assert_ok_iff, Outcome.pure_eq,
    Outcome.ok.injEq, exists_const]

end OnlineKeyDraft08

/-! ## The long-term identity -/

structure LongTermIdentity where
  seed : Seed
  version : ProtocolVersion
  deriving DecidableEq

namespace LongTermIdentity

variable (E : Ed25519)

def publicKey (identity : LongTermIdentity) : PublicKey := E.publicKey identity.seed

/-- The certificate for an online key: the DELE and the signature of the identity on it. -/
def certify (identity : LongTermIdentity) (delePrefix : Bytes) (draw : Draw)
    (validityLength : Duration) : Call Certificate := do
  let dele := Delegation.new (E.publicKey draw.signer) draw.now validityLength.secs.toNat
  let deleBytes ← (asBytes Delegation.wireSize dele.toWire).expect
  pure (Certificate.new (E.sign identity.seed (delePrefix ++ deleBytes)) dele)

def makeOnlineKeyDraft14 (identity : LongTermIdentity) (draw : Draw) (validityLength : Duration) :
    Call OnlineKeyDraft14 := do
  let olk := OnlineKeyDraft14.new identity.version draw
  let cert ← certify E identity identity.version.delePrefix draw validityLength
  pure (olk.setCert cert)

/-- `make_online_key_draft08`: the version of the identity plays no part. -/
def makeOnlineKeyDraft08 (identity : LongTermIdentity) (draw : Draw) (validityLength : Duration) :
    Call OnlineKeyDraft08 := do
  let olk := OnlineKeyDraft08.new draw
  let cert ← certify E identity ProtocolVersion.rfcDraft08.delePrefix draw validityLength
  pure (olk.setCert cert)

end LongTermIdentity

/-- `KeySource`: `new` asserts that the validity is not zero. -/
structure KeySource where
  identity : LongTermIdentity
  validityLength : Duration
  nonzero : validityLength.isZero = false
  deriving DecidableEq

namespace KeySource

variable (E : Ed25519)

def new (version : ProtocolVersion) (seed : Seed) (validityLength : Duration) : Call KeySource :=
  if h : validityLength.isZero = false then .ok ⟨⟨seed, version⟩, validityLength, h⟩ else .panic

def makeOnlineKeyDraft14 (source : KeySource) (draw : Draw) : Call OnlineKeyDraft14 :=
  source.identity.makeOnlineKeyDraft14 E draw source.validityLength

def makeOnlineKeyDraft08 (source : KeySource) (draw : Draw) : Call OnlineKeyDraft08 :=
  source.identity.makeOnlineKeyDraft08 E draw source.validityLength

def publicKey (source : KeySource) : PublicKey := source.identity.publicKey E

end KeySource

/-! ## What an issued key is good for -/

section Issued

variable {E : Ed25519}

/-- The certificate names the public key of `signer`, and the long-term key `seed` signed it. -/
structure Certifies (E : Ed25519) (seed : Seed) (delePrefix : Bytes) (signer : Seed)
    (cert : Certificate) : Prop where
  pubk : cert.delegation.publicKey = E.publicKey signer
  signed : cert.signature = E.sign seed (delePrefix ++ cert.delegation.encode)

theorem LongTermIdentity.certify_ok (identity : LongTermIdentity) (delePrefix : Bytes)
    (draw : Draw) (validityLength : Duration) :
    ∃ cert, identity.certify E delePrefix draw validityLength = .ok cert ∧
      Certifies E identity.seed delePrefix draw.signer cert := by
  let dele := Delegation.new (E.publicKey draw.signer) draw.now validityLength.secs.toNat
  have hbytes : asBytes Delegation.wireSize dele.toWire = .ok dele.encode :=
    asBytes_writes dele.toWire_writes dele.encode_length
  refine ⟨Certificate.new (E.sign identity.seed (delePrefix ++ dele.encode)) dele, ?_, rfl, rfl⟩
  show ((asBytes Delegation.wireSize dele.toWire).expect >>= _) = _
  rw [hbytes]
  rfl

structure OnlineKeyDraft14.Issued (E : Ed25519) (identity : LongTermIdentity)
    (key : OnlineKeyDraft14) : Prop where
  certifies : Certifies E identity.seed identity.version.delePrefix key.signer key.cert
  template_eq : key.templateSrep = template identity.version
  primed : Primed key.signingBuf ProtocolVersion.rfcDraft14.srepPrefix key.templateSrep.wireSize

structure OnlineKeyDraft08.Issued (E : Ed25519) (identity : LongTermIdentity)
    (key : OnlineKeyDraft08) : Prop where
  certifies : Certifies E identity.seed ProtocolVersion.rfcDraft08.delePrefix key.signer key.cert
  template_eq : key.templateSrep = template
  primed : Primed key.signingBuf ProtocolVersion.rfcDraft08.srepPrefix
    SignedResponseDraft08.wireSize

theorem LongTermIdentity.makeOnlineKeyDraft14_ok (identity : LongTermIdentity) (draw : Draw)
    (validityLength : Duration) :
    ∃ key, identity.makeOnlineKeyDraft14 E draw validityLength = .ok key ∧
      key.Issued E identity := by
  obtain ⟨cert, hrun, hcert⟩ :=
    identity.certify_ok (E := E) identity.version.delePrefix draw validityLength
  refine ⟨(OnlineKeyDraft14.new identity.version draw).setCert cert, ?_, hcert, rfl, _, rfl, ?_⟩
  · unfold makeOnlineKeyDraft14
    rw [hrun]
    rfl
  · rw [List.length_replicate]
    exact Nat.le_add_right _ _

theorem LongTermIdentity.makeOnlineKeyDraft08_ok (identity : LongTermIdentity) (draw : Draw)
    (validityLength : Duration) :
    ∃ key, identity.makeOnlineKeyDraft08 E draw validityLength = .ok key ∧
      key.Issued E identity := by
  obtain ⟨cert, hrun, hcert⟩ := identity.certify_ok (E := E)
    ProtocolVersion.rfcDraft08.delePrefix draw validityLength
  refine ⟨(OnlineKeyDraft08.new draw).setCert cert, ?_, hcert, rfl, _, rfl, ?_⟩
  · unfold makeOnlineKeyDraft08
    rw [hrun]
    rfl
  · rw [List.length_replicate]
    exact Nat.le_add_right _ _

/-- A template is a SREP as the setters leave it, whatever its version. -/
theorem OnlineKeyDraft14.template_built (version : ProtocolVersion) :
    (template version).Built := by
  cases version with
  | rfcDraft08 => exact ⟨by decide, by decide, by decide⟩
  | rfcDraft14 => exact ⟨by decide, by decide, by decide⟩

theorem OnlineKeyDraft08.template_built : template.Built := rfl

/-- `make_srep` signs the SREP it returns, and the key is as good afterwards. -/
theorem OnlineKeyDraft14.makeSrep_ok {identity : LongTermIdentity} {key : OnlineKeyDraft14}
    (h : key.Issued E identity) (now : UInt64) (root : MerkleRoot) :
    ∃ buf, key.makeSrep E now root = .ok ((key.srep now root, E.sign key.signer
        (ProtocolVersion.rfcDraft14.srepPrefix ++ (key.srep now root).encode)),
          { key with signingBuf := buf }) ∧
      OnlineKeyDraft14.Issued E identity { key with signingBuf := buf } := by
  have hlen : (key.srep now root).encode.length = key.templateSrep.wireSize := by
    rw [SignedResponse.encode, (key.srep now root).spells_values.encodeWith_length,
      SignedResponse.wireSize_eq]
    rfl
  obtain ⟨buf, hrun, hbuf⟩ := signSrep_ok (E := E) key.signer h.primed
    (SignedResponse.toWire_writes _) hlen
  refine ⟨buf, ?_, h.certifies, h.template_eq, hbuf⟩
  unfold makeSrep
  show (signSrep E key.signer key.signingBuf _ key.templateSrep.wireSize _ >>= _) = _
  rw [hrun]
  rfl

theorem OnlineKeyDraft08.makeSrep_ok {identity : LongTermIdentity} {key : OnlineKeyDraft08}
    (h : key.Issued E identity) (now : UInt64) (root : MerkleRoot) :
    ∃ buf, key.makeSrep E now root = .ok ((key.srep now root, E.sign key.signer
        (ProtocolVersion.rfcDraft08.srepPrefix ++ (key.srep now root).encode)),
          { key with signingBuf := buf }) ∧
      OnlineKeyDraft08.Issued E identity { key with signingBuf := buf } := by
  obtain ⟨buf, hrun, hbuf⟩ := signSrep_ok (E := E) key.signer h.primed
    (SignedResponseDraft08.toWire_writes (key.srep now root))
    (SignedResponseDraft08.encode_length _)
  refine ⟨buf, ?_, h.certifies, h.template_eq, hbuf⟩
  unfold makeSrep
  show (signSrep E key.signer key.signingBuf _ SignedResponseDraft08.wireSize _ >>= _) = _
  rw [hrun]
  rfl

end Issued

end Roughenough.Server
