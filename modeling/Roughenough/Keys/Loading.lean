/-
# `Roughenough.Keys.Loading` — getting a seed back

The other half of `storage.rs`, with `decrypt_seed`, `open_dek` and `get_seed` of
`longterm/`.  What the server is started with is a text:

    seed://TEXT       TEXT                   the seed itself
    aws-kms://TEXT    gcp-kms://TEXT         an envelope with the sealed seed
    aws-secret://TEXT gcp-secret://TEXT      an envelope with the name of a secret

where TEXT is what `try_decode` reads, and an envelope is JSON under it.  The
services are again parameters of what they answer, and serde_json is a parameter
that writes and reads objects of texts.

    tryLoadSeed_ok_iff  which texts load, and as which seed
    store_then_load     what `try_store_seed` returns, written as JSON, in any
                        encoding: a KMS gives the seed back, and a secret manager
                        gives an error
-/
import Roughenough.Base.JsonText
import Roughenough.Common.Ambiguity
import Roughenough.Keys.Storage

namespace Roughenough.Keys

open Roughenough.Base Roughenough.Common Roughenough.Server

/-! ## The services -/

structure AwsDecryptOutput where
  keyId : Option (List Char)
  plaintext : Option Bytes

structure GcpDecryptOutput where
  plaintext : Bytes
  plaintextCrc32c : Option UInt64

structure SecretPayload where
  data : Bytes
  dataCrc32c : Option UInt64

/-- What the services answer when a seed is loaded; `none` is a call that failed. -/
structure Readers where
  awsDecrypt : (keyId : List Char) → (ciphertext : Bytes) → Option AwsDecryptOutput
  gcpDecrypt : (name : List Char) → (ciphertext : Bytes) → Option GcpDecryptOutput
  awsGetSecret : (secretId : List Char) → Option (Option (List Char))
  gcpAccessSecret : (name : List Char) → Option (Option SecretPayload)
  crc32c : Bytes → UInt32

/-- A KMS opens what it has sealed, under the name of the key it has sealed it with. -/
structure Readers.Opens (readers : Readers) (cloud : Cloud) : Prop where
  aws : ∀ keyId dek reply ct, cloud.awsEncrypt keyId dek = some reply →
    reply.ciphertextBlob = some ct →
      readers.awsDecrypt keyId ct = some ⟨reply.keyId, some dek.bytes⟩
  gcp : ∀ name dek reply, cloud.gcpEncrypt name dek = some reply →
    ∃ crc, readers.gcpDecrypt name reply.ciphertext = some ⟨dek.bytes, some crc⟩ ∧
      crc.toUInt32 = readers.crc32c dek.bytes

/-- serde_json, for objects of texts. -/
structure Json where
  toStringPretty : Members → List Char
  fromSlice : Bytes → Option Members

/-- What is written is read back, and starts like an object. -/
structure Json.Lawful (json : Json) : Prop where
  fromSlice_toStringPretty : ∀ m, json.fromSlice (Text.utf8 (json.toStringPretty m)) = some m
  object : ∀ m, m ≠ [] → ∃ later, json.toStringPretty m = '\x7b' :: '\n' :: later

/-- The bytes that are written of an envelope. -/
def jsonOf (json : Json) (envelope : SeedEnvelope) : Bytes :=
  Text.utf8 (json.toStringPretty envelope.serialize)

/-! ## Loading -/

/-- The errors of `StorageError` that loading has; of a syntax error nothing else is known. -/
inductive LoadError where
  | invalidSeed (msg : List Char)
  | notImplemented (msg : List Char)
  | decodeError (e : DecodeError)
  | invalidJson (e : Option SerdeError)
  deriving DecidableEq

section Loading

variable (A : Aead) (readers : Readers) (json : Json) (decoders : Decoders) (debug : Bool)

/-- `copy_from_slice` into 32 bytes. -/
def copyDek (plaintext : Bytes) : Call (Octets 32) :=
  if h : plaintext.length = 32 then .ok ⟨plaintext, h⟩ else .panic

/-- `AwsKms::open_dek`. -/
def awsOpenDek (dekCiphertext : Bytes) (keyId : List Char) : Call (Octets 32) := do
  let _ ← extractAwsRegion keyId
  let response ← Outcome.orPanic (readers.awsDecrypt keyId dekCiphertext)
  let responseKeyId ← Outcome.orPanic response.keyId
  Outcome.assert (keyId = responseKeyId)
  let plaintext ← Outcome.orPanic response.plaintext
  copyDek plaintext

/-- `GcpKms::open_dek`. -/
def gcpOpenDek (dekCiphertext : Bytes) (keyId : List Char) : Call (Octets 32) := do
  let result ← Outcome.orPanic (readers.gcpDecrypt keyId dekCiphertext)
  let crc ← Outcome.orPanic result.plaintextCrc32c
  Outcome.assert (crc.toUInt32 = readers.crc32c result.plaintext)
  copyDek result.plaintext

/-- The two `decrypt_seed`. -/
def decryptSeed (method : Protection) (openDek : Bytes → List Char → Call (Octets 32))
    (envelope : SeedEnvelope) : Call Seed := do
  let keyId ← Outcome.orPanic (Text.stripPrefix method.prefixOf envelope.keyId)
  let dek ← openDek envelope.dekCt keyId
  (openSeed A debug dek envelope.seedCt AAD).expect

/-- `AwsKms::decrypt_seed`. -/
def awsDecryptSeed := decryptSeed A debug .awsKms (awsOpenDek readers)

/-- `GcpKms::decrypt_seed`. -/
def gcpDecryptSeed := decryptSeed A debug .gcpKms (gcpOpenDek readers)

/-- `AwsSecretManager::get_seed`. -/
def awsGetSeed (resource : List Char) : Call Seed := do
  let _ ← extractAwsRegion resource
  let response ← Outcome.orPanic (readers.awsGetSecret resource)
  let encodedValue ← Outcome.orPanic response
  let value ← (tryDecode decoders encodedValue).expect
  seedNew value

/-- A checksum that is there is checked. -/
def checkCrc32c (payload : SecretPayload) : Call Unit :=
  match payload.dataCrc32c with
  | some crc => Outcome.assert (crc.toUInt32 = readers.crc32c payload.data)
  | none => pure ()

/-- `GcpSecretManager::get_seed`. -/
def gcpGetSeed (resource : List Char) : Call Seed := do
  let result ← Outcome.orPanic (readers.gcpAccessSecret resource)
  let payload ← Outcome.orPanic result
  checkCrc32c readers payload
  let value ← (tryDecode decoders (Text.fromUtf8Lossy payload.data)).expect
  seedNew value

/-- `serde_json::from_slice::<SeedEnvelope>`. -/
def envelopeFromSlice (bytes : Bytes) : Outcome LoadError SeedEnvelope :=
  match json.fromSlice bytes with
  | none => .err (.invalidJson none)
  | some members =>
      (SeedEnvelope.deserialize (decoders .base64NoPad) members).mapErr fun e =>
        .invalidJson (some e)

def loadNotEnabled (method : Protection) : LoadError :=
  .notImplemented ((featureOf method).1 ++ " is not enabled. Recompile with the '".toList ++
    (featureOf method).2 ++ "' feature to support it".toList)

def tryLoadPlain (value : List Char) : Outcome LoadError Seed := do
  let data ← (tryDecode decoders value).mapErr .decodeError
  Outcome.failIf (data.length ≠ 32)
    (.invalidSeed ("need 32 bytes, found: ".toList ++ (toString data.length).toList))
  seedNew data

/-- What the other four methods share: the envelope is under the encoding. -/
def tryLoadEnvelope (features : Protection → Bool) (method : Protection)
    (load : SeedEnvelope → Call Seed) (value : List Char) : Outcome LoadError Seed := do
  Outcome.failIf (features method = false) (loadNotEnabled method)
  let jsonEnvelope ← (tryDecode decoders value).mapErr .decodeError
  let seedEnvelope ← envelopeFromSlice json decoders jsonEnvelope
  (load seedEnvelope).expect

/-- The seed of a secret manager, by the name in the envelope. -/
def getSecret (method : Protection) (get : List Char → Call Seed) (envelope : SeedEnvelope) :
    Call Seed := do
  let secretId ← secretIdOf method envelope
  get secretId

/-- `Protection::try_load`. -/
def tryLoad (features : Protection → Bool) (method : Protection) (value : List Char) :
    Outcome LoadError Seed :=
  match method with
  | .plain => tryLoadPlain decoders value
  | .awsKms => tryLoadEnvelope json decoders features .awsKms (awsDecryptSeed A readers debug) value
  | .gcpKms => tryLoadEnvelope json decoders features .gcpKms (gcpDecryptSeed A readers debug) value
  | .awsSecretManager => tryLoadEnvelope json decoders features .awsSecretManager
      (getSecret .awsSecretManager (awsGetSeed readers decoders)) value
  | .gcpSecretManager => tryLoadEnvelope json decoders features .gcpSecretManager
      (getSecret .gcpSecretManager (gcpGetSeed readers decoders)) value

def tryLoadSeed (features : Protection → Bool) (encodedValue : List Char) :
    Outcome LoadError Seed :=
  match Protection.fromPrefix encodedValue with
  | some method => do
      let value ← Outcome.orPanic (Text.stripPrefix method.prefixOf encodedValue)
      tryLoad A readers json decoders debug features method value
  | none => tryLoad A readers json decoders debug features .plain encodedValue

end Loading

/-! ## The prefixes -/

theorem fromPrefix_append (method : Protection) (text : List Char) :
    Protection.fromPrefix (method.prefixOf ++ text) = some method := by
  cases method with
  | plain => rfl
  | awsKms => rfl
  | gcpKms => rfl
  | awsSecretManager => rfl
  | gcpSecretManager => rfl

/-- A prefix that was found is there to be stripped. -/
theorem exists_append_of_fromPrefix {text : List Char} {method : Protection}
    (h : Protection.fromPrefix text = some method) : ∃ value, text = method.prefixOf ++ value := by
  have hstart : method.prefixOf <+: text := by
    unfold Protection.fromPrefix at h
    split at h
    · next hp =>
        cases h
        exact hp
    · split at h
      · next hp =>
          cases h
          exact hp
      · split at h
        · next hp =>
            cases h
            exact hp
        · split at h
          · next hp =>
              cases h
              exact hp
          · split at h
            · next hp =>
                cases h
                exact hp
            · cases h
  obtain ⟨value, hvalue⟩ := hstart
  exact ⟨value, hvalue.symm⟩

/-- Every prefix has a colon. -/
theorem fromPrefix_of_colon {text : List Char} (h : ':' ∉ text) :
    Protection.fromPrefix text = none := by
  cases hstart : Protection.fromPrefix text with
  | none => rfl
  | some method =>
      obtain ⟨value, rfl⟩ := exists_append_of_fromPrefix hstart
      have hcolon : ':' ∈ method.prefixOf := by
        cases method <;> decide
      exact absurd (List.mem_append_left _ hcolon) h

theorem colon_not_mem (e : Encoding) (bs : Bytes) : ':' ∉ e.encode bs :=
  Encoding.not_mem_encode (by decide) e bs

/-! ## What an envelope stands for -/

section StandsFor

variable {A : Aead} {readers : Readers} {json : Json} {decoders : Decoders} {debug : Bool}
  {features : Protection → Bool} {seed : Seed} {envelope : SeedEnvelope}

/-- `open_seed` gives what was sealed under the DEK and nothing else, in either build. -/
theorem openSeed_ok_iff (hA : A.Ideal) {dek : Octets 32} {c aad : Bytes} :
    openSeed A debug dek c aad = .ok seed ↔
      ∃ nonce : Octets 12, c = A.sealInPlace dek nonce aad seed.bytes ++ nonce.bytes := by
  constructor
  · intro h
    rcases Nat.lt_or_ge c.length 12 with hshort | hlong
    · rw [openSeed_short debug dek aad hshort] at h
      cases h
    · obtain ⟨body, nonce, rfl⟩ := exists_split hlong
      rw [openSeed_append] at h
      obtain ⟨plaintext, hopen, hseed⟩ := Outcome.bind_ok_iff.mp h
      refine ⟨nonce, ?_⟩
      cases hplain : A.openInPlace dek nonce aad body with
      | none =>
          rw [hplain] at hopen
          cases hopen
      | some opened =>
          rw [hplain] at hopen
          cases hopen
          unfold seedNew at hseed
          split at hseed
          · cases hseed
            rw [(hA.open_iff _ _ _ _ _).mp hplain]
          · cases hseed
  · rintro ⟨nonce, rfl⟩
    rw [openSeed_opened debug ((hA.open_iff _ _ _ _ _).mpr rfl), seedNew,
      dif_pos seed.bytes_length]

/-- A seed that a DEK opens. -/
def SealedUnder (A : Aead) (openDek : Bytes → List Char → Call (Octets 32))
    (envelope : SeedEnvelope) (id : List Char) (seed : Seed) : Prop :=
  ∃ dek nonce, openDek envelope.dekCt id = .ok dek ∧
    envelope.seedCt = A.sealInPlace dek nonce AAD seed.bytes ++ nonce.bytes

/-- What the envelope of a method has to be, and what the service has to answer, for a seed to
come out of it. -/
def StandsFor (A : Aead) (readers : Readers) (decoders : Decoders) (method : Protection)
    (envelope : SeedEnvelope) (seed : Seed) : Prop :=
  ∃ id, envelope.keyId = method.prefixOf ++ id ∧
    match method with
    | .plain => False
    | .awsKms => SealedUnder A (awsOpenDek readers) envelope id seed
    | .gcpKms => SealedUnder A (gcpOpenDek readers) envelope id seed
    | .awsSecretManager => 3 < (id.splitOn ':').length ∧
        ∃ secret, readers.awsGetSecret id = some (some secret) ∧
          tryDecode decoders secret = .ok seed.bytes
    | .gcpSecretManager => ∃ payload, readers.gcpAccessSecret id = some (some payload) ∧
        (∀ crc ∈ payload.dataCrc32c, crc.toUInt32 = readers.crc32c payload.data) ∧
        tryDecode decoders (Text.fromUtf8Lossy payload.data) = .ok seed.bytes

theorem stripPrefix_eq_some_iff {pre text rest : List Char} :
    Text.stripPrefix pre text = some rest ↔ text = pre ++ rest := by
  constructor
  · intro h
    unfold Text.stripPrefix at h
    split at h
    · next hp =>
        obtain ⟨later, rfl⟩ := hp
        rw [List.drop_left] at h
        cases h
        rfl
    · cases h
  · rintro rfl
    exact Text.stripPrefix_append pre rest

theorem decryptSeed_ok_iff (hA : A.Ideal) {method : Protection}
    {openDek : Bytes → List Char → Call (Octets 32)} :
    decryptSeed A debug method openDek envelope = .ok seed ↔
      ∃ id, envelope.keyId = method.prefixOf ++ id ∧ SealedUnder A openDek envelope id seed := by
  unfold decryptSeed SealedUnder
  simp only [Outcome.bind_ok_iff, Outcome.orPanic_ok_iff, stripPrefix_eq_some_iff,
    Outcome.expect_ok_iff, openSeed_ok_iff hA]
  constructor
  · rintro ⟨id, hid, dek, hdek, nonce, hseal⟩
    exact ⟨id, hid, dek, nonce, hdek, hseal⟩
  · rintro ⟨id, hid, dek, nonce, hdek, hseal⟩
    exact ⟨id, hid, dek, hdek, nonce, hseal⟩

theorem seedNew_ok_iff {ε : Type} {bytes : Bytes} :
    (seedNew bytes : Outcome ε Seed) = .ok seed ↔ bytes = seed.bytes := by
  unfold seedNew
  constructor
  · intro h
    split at h
    · cases h
      rfl
    · cases h
  · rintro rfl
    rw [dif_pos seed.bytes_length]

/-- A text of 32 bytes is a seed. -/
theorem decoded_seed_iff {ε : Type} {text : List Char} :
    (((tryDecode decoders text).expect : Outcome ε Bytes) >>= seedNew) = .ok seed ↔
      tryDecode decoders text = .ok seed.bytes := by
  simp only [Outcome.bind_ok_iff, Outcome.expect_ok_iff, seedNew_ok_iff, exists_eq_right]

/-- An ARN has a region if it has a fourth part. -/
theorem extractAwsRegion_ok_iff {ε : Type} {arn region : List Char} :
    extractAwsRegion (ε := ε) arn = .ok region ↔
      ∃ h : 3 < (arn.splitOn ':').length, (arn.splitOn ':')[3] = region := by
  unfold extractAwsRegion
  rw [Outcome.orPanic_ok_iff, List.getElem?_eq_some_iff]

theorem awsGetSeed_ok_iff {id : List Char} :
    awsGetSeed readers decoders id = .ok seed ↔ 3 < (id.splitOn ':').length ∧
      ∃ secret, readers.awsGetSecret id = some (some secret) ∧
        tryDecode decoders secret = .ok seed.bytes := by
  constructor
  · intro h
    obtain ⟨region, hregion, h⟩ := Outcome.bind_ok_iff.mp h
    obtain ⟨hparts, -⟩ := extractAwsRegion_ok_iff.mp hregion
    obtain ⟨response, hresponse, h⟩ := Outcome.bind_ok_iff.mp h
    obtain ⟨secret, hsecret, h⟩ := Outcome.bind_ok_iff.mp h
    refine ⟨hparts, secret, ?_, decoded_seed_iff.mp h⟩
    rw [Outcome.orPanic_ok_iff.mp hresponse, Outcome.orPanic_ok_iff.mp hsecret]
  · rintro ⟨hparts, secret, hsecret, hread⟩
    have hdecoded : (((tryDecode decoders secret).expect : Call Bytes) >>= seedNew) =
        .ok seed := decoded_seed_iff.mpr hread
    unfold awsGetSeed
    rw [extractAwsRegion_ok_iff.mpr ⟨hparts, rfl⟩, hsecret]
    exact hdecoded

theorem checkCrc32c_ok_iff {payload : SecretPayload} {u : Unit} :
    checkCrc32c readers payload = .ok u ↔
      ∀ crc ∈ payload.dataCrc32c, crc.toUInt32 = readers.crc32c payload.data := by
  unfold checkCrc32c
  cases payload.dataCrc32c with
  | none => simp
  | some crc => simp

theorem gcpGetSeed_ok_iff {id : List Char} :
    gcpGetSeed readers decoders id = .ok seed ↔ ∃ payload,
      readers.gcpAccessSecret id = some (some payload) ∧
        (∀ crc ∈ payload.dataCrc32c, crc.toUInt32 = readers.crc32c payload.data) ∧
        tryDecode decoders (Text.fromUtf8Lossy payload.data) = .ok seed.bytes := by
  constructor
  · intro h
    obtain ⟨result, hresult, h⟩ := Outcome.bind_ok_iff.mp h
    obtain ⟨payload, hpayload, h⟩ := Outcome.bind_ok_iff.mp h
    obtain ⟨_, hcrc, h⟩ := Outcome.bind_ok_iff.mp h
    refine ⟨payload, ?_, checkCrc32c_ok_iff.mp hcrc, decoded_seed_iff.mp h⟩
    rw [Outcome.orPanic_ok_iff.mp hresult, Outcome.orPanic_ok_iff.mp hpayload]
  · rintro ⟨payload, haccess, hcrc, hread⟩
    have hdecoded : (((tryDecode decoders (Text.fromUtf8Lossy payload.data)).expect :
        Call Bytes) >>= seedNew) = .ok seed := decoded_seed_iff.mpr hread
    refine Outcome.bind_ok_iff.mpr ⟨_, Outcome.orPanic_ok_iff.mpr haccess,
      Outcome.bind_ok_iff.mpr ⟨_, rfl, Outcome.bind_ok_iff.mpr ⟨(), ?_, hdecoded⟩⟩⟩
    exact checkCrc32c_ok_iff.mpr hcrc

theorem getSecret_ok_iff {method : Protection} {get : List Char → Call Seed} :
    getSecret method get envelope = .ok seed ↔
      ∃ id, envelope.keyId = method.prefixOf ++ id ∧ get id = .ok seed := by
  unfold getSecret secretIdOf
  simp only [Outcome.bind_ok_iff, Outcome.orPanic_ok_iff, stripPrefix_eq_some_iff]

/-- What the text behind a prefix has to be. -/
def EnvelopeText (A : Aead) (readers : Readers) (json : Json) (decoders : Decoders)
    (method : Protection) (value : List Char) (seed : Seed) : Prop :=
  ∃ bytes envelope, tryDecode decoders value = .ok bytes ∧
    envelopeFromSlice json decoders bytes = .ok envelope ∧
    StandsFor A readers decoders method envelope seed

theorem tryLoadEnvelope_ok_iff {method : Protection} {load : SeedEnvelope → Call Seed}
    (hload : ∀ envelope, load envelope = .ok seed ↔
      StandsFor A readers decoders method envelope seed)
    {value : List Char} :
    tryLoadEnvelope json decoders features method load value = .ok seed ↔
      features method = true ∧ EnvelopeText A readers json decoders method value seed := by
  unfold tryLoadEnvelope EnvelopeText
  simp only [Outcome.bind_ok_iff, Outcome.failIf_ok_iff, Outcome.mapErr_ok_iff,
    Outcome.expect_ok_iff, hload, Bool.not_eq_false]
  constructor
  · rintro ⟨_, hfeature, bytes, hvalue, envelope, henvelope, hstands⟩
    exact ⟨hfeature, bytes, envelope, hvalue, henvelope, hstands⟩
  · rintro ⟨hfeature, bytes, envelope, hvalue, henvelope, hstands⟩
    exact ⟨(), hfeature, bytes, hvalue, envelope, henvelope, hstands⟩

theorem tryLoadPlain_ok_iff {value : List Char} :
    tryLoadPlain decoders value = .ok seed ↔ tryDecode decoders value = .ok seed.bytes := by
  constructor
  · intro h
    obtain ⟨data, hdata, h⟩ := Outcome.bind_ok_iff.mp h
    obtain ⟨_, -, hseed⟩ := Outcome.bind_ok_iff.mp h
    rw [← seedNew_ok_iff.mp hseed]
    exact Outcome.mapErr_ok_iff.mp hdata
  · intro h
    unfold tryLoadPlain
    rw [h, Outcome.mapErr_ok, Outcome.ok_bind,
      (Outcome.failIf_ok_iff (u := ())).mpr (not_not.mpr seed.bytes_length), Outcome.ok_bind]
    exact seedNew_ok_iff.mpr rfl

/-- The five methods in one. -/
theorem tryLoad_ok_iff (hA : A.Ideal) {method : Protection}
    (hmethod : method ≠ .plain) {value : List Char} :
    tryLoad A readers json decoders debug features method value = .ok seed ↔
      features method = true ∧ EnvelopeText A readers json decoders method value seed := by
  cases method with
  | plain => exact absurd rfl hmethod
  | awsKms => exact tryLoadEnvelope_ok_iff fun envelope => decryptSeed_ok_iff hA
  | gcpKms => exact tryLoadEnvelope_ok_iff fun envelope => decryptSeed_ok_iff hA
  | awsSecretManager =>
      refine tryLoadEnvelope_ok_iff fun envelope => getSecret_ok_iff.trans ?_
      exact exists_congr fun id => and_congr_right fun _ => awsGetSeed_ok_iff
  | gcpSecretManager =>
      refine tryLoadEnvelope_ok_iff fun envelope => getSecret_ok_iff.trans ?_
      exact exists_congr fun id => and_congr_right fun _ => gcpGetSeed_ok_iff

theorem tryLoadSeed_append {method : Protection} {value : List Char} :
    tryLoadSeed A readers json decoders debug features (method.prefixOf ++ value) =
      tryLoad A readers json decoders debug features method value := by
  unfold tryLoadSeed
  rw [fromPrefix_append]
  dsimp only
  rw [Text.stripPrefix_append]
  rfl

end StandsFor

/-! ## The texts that load -/

/-- Which texts the server can be started with, and with which seed: those that are read as the
seed's bytes, with `seed://` or with nothing in front; or behind the prefix of an enabled service
those that are read as an envelope that stands for the seed.  Among the former are its texts in
the six encodings, and there are no others but, with padding, its parts' texts in a row. -/
theorem tryLoadSeed_ok_iff (A : Aead) (hA : A.Ideal) (readers : Readers) (json : Json)
    (decoders : Decoders) (hd : Strict decoders) (debug : Bool) (features : Protection → Bool)
    (text : List Char) (seed : Seed) :
    (tryLoadSeed A readers json decoders debug features text = .ok seed ↔
      (tryDecode decoders text = .ok seed.bytes ∨
        ∃ value, text = Protection.plain.prefixOf ++ value ∧
          tryDecode decoders value = .ok seed.bytes) ∨
      ∃ method value, method ≠ .plain ∧ text = method.prefixOf ++ value ∧
        features method = true ∧ EnvelopeText A readers json decoders method value seed) ∧
    (∀ e : Encoding, tryDecode decoders (e.encode seed.bytes) = .ok seed.bytes) ∧
    ∀ value, tryDecode decoders value = .ok seed.bytes →
      ∃ e : Encoding, e.Spells value seed.bytes := by
  refine ⟨?_, fun e => tryDecode_of_thirty_two hd e seed.bytes_length,
    fun value => spells_of_tryDecode hd⟩
  constructor
  · intro h
    cases hstart : Protection.fromPrefix text with
    | none =>
        unfold tryLoadSeed at h
        rw [hstart] at h
        exact .inl (.inl (tryLoadPlain_ok_iff.mp h))
    | some method =>
        obtain ⟨value, rfl⟩ := exists_append_of_fromPrefix hstart
        rw [tryLoadSeed_append] at h
        by_cases hplain : method = .plain
        · subst hplain
          exact .inl (.inr ⟨value, rfl, tryLoadPlain_ok_iff.mp h⟩)
        · exact .inr ⟨method, value, hplain, rfl, (tryLoad_ok_iff hA hplain).mp h⟩
  · rintro ((hread | ⟨value, rfl, hread⟩) | ⟨method, value, hplain, rfl, hloads⟩)
    · obtain ⟨e, hspells⟩ := spells_of_tryDecode hd hread
      unfold tryLoadSeed
      rw [fromPrefix_of_colon (hspells.not_mem (by decide))]
      exact tryLoadPlain_ok_iff.mpr hread
    · rw [tryLoadSeed_append]
      exact tryLoadPlain_ok_iff.mpr hread
    · rw [tryLoadSeed_append]
      exact (tryLoad_ok_iff hA hplain).mpr hloads

/-- Services that undo what `sampleCloud` does, and know no secret. -/
def sampleReaders : Readers where
  awsDecrypt keyId ciphertext :=
    if ciphertext.head? = some 1 then some ⟨some keyId, some ciphertext.tail⟩ else none
  gcpDecrypt _ ciphertext :=
    if ciphertext.head? = some 1 then some ⟨ciphertext.tail, some 0⟩ else none
  awsGetSecret _ := none
  gcpAccessSecret _ := none
  crc32c _ := 0

theorem sampleReaders_opens : sampleReaders.Opens sampleCloud := by
  constructor
  · intro keyId dek reply ct hreply hct
    cases hreply
    cases hct
    rfl
  · intro name dek reply hreply
    cases hreply
    exact ⟨0, rfl, rfl⟩

def sampleJson : Json where
  toStringPretty := JsonText.pretty
  fromSlice bytes := (Text.fromUtf8 bytes).bind JsonText.read

theorem sampleJson_lawful : sampleJson.Lawful := by
  constructor
  · exact JsonText.read_utf8_pretty
  · intro m hm
    exact ⟨JsonText.prettyMembers m, if_neg hm⟩

/-- A seed in the clear needs no service. -/
theorem tryLoadSeed_ok_iff_clear :
    tryLoadSeed clearAead sampleReaders sampleJson canonical true (fun _ => false)
        "seed://QkJCQkJCQkJCQkJCQkJCQkJCQkJCQkJCQkJCQkJCQkI=".toList =
      .ok (Octets.fill 32 0x42) := by
  obtain ⟨hloads, hreads, -⟩ := tryLoadSeed_ok_iff clearAead clearAead_ideal sampleReaders
    sampleJson canonical canonical_strict true (fun _ => false)
    "seed://QkJCQkJCQkJCQkJCQkJCQkJCQkJCQkJCQkJCQkJCQkI=".toList (Octets.fill 32 0x42)
  exact hloads.mpr (.inl (.inr ⟨Encoding.base64.encode (Octets.fill 32 0x42).bytes, rfl,
    hreads .base64⟩))

/-! ## What was stored -/

section Stored

variable {A : Aead} {cloud : Cloud} {readers : Readers} {json : Json} {decoders : Decoders}
  {debug : Bool} {draws : Draws} {features : Protection → Bool} {seed : Seed}
  {envelope : SeedEnvelope} {vault vault' : Vault}

theorem copyDek_bytes (dek : Octets 32) : copyDek dek.bytes = .ok dek := by
  unfold copyDek
  rw [dif_pos dek.bytes_length]

theorem awsOpenDek_of_seal (hopens : readers.Opens cloud) {dek : Octets 32} {id : List Char}
    {ct : Bytes} (h : awsSealDek cloud dek id = .ok ct) : awsOpenDek readers ct id = .ok dek := by
  simp only [awsSealDek, Outcome.bind_ok_iff, Outcome.orPanic_ok_iff] at h
  obtain ⟨region, hregion, reply, hreply, replyId, hreplyId, _, hsame, hct⟩ := h
  have hopen := hopens.aws id dek reply ct hreply hct
  unfold awsOpenDek
  rw [hregion, Outcome.ok_bind, hopen, hreplyId]
  refine Outcome.bind_ok_iff.mpr ⟨_, rfl, Outcome.bind_ok_iff.mpr ⟨replyId, rfl, ?_⟩⟩
  exact Outcome.bind_ok_iff.mpr ⟨(), hsame, copyDek_bytes dek⟩

theorem gcpOpenDek_of_seal (hopens : readers.Opens cloud) {dek : Octets 32} {id : List Char}
    {ct : Bytes} (h : gcpSealDek cloud dek id = .ok ct) : gcpOpenDek readers ct id = .ok dek := by
  simp only [gcpSealDek, Outcome.bind_ok_iff, Outcome.orPanic_ok_iff] at h
  obtain ⟨reply, hreply, _, -, _, -, _, -, _, -, hct⟩ := h
  cases hct
  obtain ⟨crc, hopen, hcrc⟩ := hopens.gcp id dek reply hreply
  unfold gcpOpenDek
  rw [hopen]
  refine Outcome.bind_ok_iff.mpr ⟨_, rfl, Outcome.bind_ok_iff.mpr ⟨crc, rfl, ?_⟩⟩
  exact Outcome.bind_ok_iff.mpr ⟨(), Outcome.assert_ok_iff.mpr hcrc, copyDek_bytes dek⟩

/-- An envelope that a KMS has sealed stands for its seed. -/
theorem encryptSeed_sealed (hA : A.Ideal) {method : Protection}
    {sealDek : Octets 32 → List Char → Call Bytes}
    {openDek : Bytes → List Char → Call (Octets 32)} {id : List Char}
    (hdek : ∀ dek ct, sealDek dek id = .ok ct → openDek ct id = .ok dek)
    (h : encryptSeed A draws method sealDek id seed = .ok envelope) :
    envelope.keyId = method.prefixOf ++ id ∧ SealedUnder A openDek envelope id seed := by
  unfold encryptSeed at h
  obtain ⟨dekCt, hdekCt, h⟩ := Outcome.bind_ok_iff.mp h
  obtain ⟨seedCt, hseedCt, h⟩ := Outcome.bind_ok_iff.mp h
  cases h
  exact ⟨rfl, draws.dek, draws.nonce, hdek _ _ hdekCt, (sealSeed_ok_iff hA).mp hseedCt⟩

theorem standsFor_of_store (hA : A.Ideal) (hopens : readers.Opens cloud) {method : Protection}
    (hkms : method.isKms = true) {id : List Char}
    (h : tryStore A cloud draws features method seed id vault = .ok (envelope, vault')) :
    StandsFor A readers decoders method envelope seed ∧ features method = true := by
  cases method with
  | plain => cases hkms
  | awsSecretManager => cases hkms
  | gcpSecretManager => cases hkms
  | awsKms =>
      obtain ⟨_, hfeature, h⟩ := Outcome.bind_ok_iff.mp h
      obtain ⟨sealed, hseal, h⟩ := Outcome.bind_ok_iff.mp h
      cases h
      refine ⟨⟨id, ?_⟩, by simpa using Outcome.failIf_ok_iff.mp hfeature⟩
      exact encryptSeed_sealed hA (fun _ _ => awsOpenDek_of_seal hopens)
        (Outcome.expect_ok_iff.mp hseal)
  | gcpKms =>
      obtain ⟨_, hfeature, h⟩ := Outcome.bind_ok_iff.mp h
      obtain ⟨sealed, hseal, h⟩ := Outcome.bind_ok_iff.mp h
      cases h
      refine ⟨⟨id, ?_⟩, by simpa using Outcome.failIf_ok_iff.mp hfeature⟩
      exact encryptSeed_sealed hA (fun _ _ => gcpOpenDek_of_seal hopens)
        (Outcome.expect_ok_iff.mp hseal)

/-- The JSON of an envelope, read again. -/
theorem envelopeFromSlice_serialize (hjson : json.Lawful) (hd : Strict decoders)
    (envelope : SeedEnvelope) :
    envelopeFromSlice json decoders (jsonOf json envelope) =
      if envelope.seedCt = [] then .err (.invalidJson (some (.missingField "seed_ct")))
      else if envelope.dekCt = [] then .err (.invalidJson (some (.missingField "dek_ct")))
      else .ok envelope := by
  have hdecode : ∀ bs, decoders .base64NoPad (Encoding.base64NoPad.encode bs) = .ok bs :=
    fun bs => hd.undoes _ bs
  unfold envelopeFromSlice jsonOf
  rw [hjson.fromSlice_toStringPretty]
  dsimp only
  rw [deserialize_serialize hdecode]
  split
  · rfl
  · split
    · rfl
    · rfl

theorem serialize_object (hjson : json.Lawful) (envelope : SeedEnvelope) :
    JsonObject (jsonOf json envelope) := by
  obtain ⟨later, hlater⟩ := hjson.object envelope.serialize (List.cons_ne_nil _ _)
  refine ⟨Text.utf8 later, .inr ?_⟩
  unfold jsonOf
  rw [hlater]
  rfl

theorem secretManager_enabled {method : Protection} (hsecret : method.isSecretManager = true)
    {id : List Char}
    (h : tryStore A cloud draws features method seed id vault = .ok (envelope, vault')) :
    features method = true := by
  cases method with
  | plain => cases hsecret
  | awsKms => cases hsecret
  | gcpKms => cases hsecret
  | awsSecretManager =>
      obtain ⟨_, hfeature, -⟩ := Outcome.bind_ok_iff.mp h
      simpa using Outcome.failIf_ok_iff.mp hfeature
  | gcpSecretManager =>
      obtain ⟨_, hfeature, -⟩ := Outcome.bind_ok_iff.mp h
      simpa using Outcome.failIf_ok_iff.mp hfeature

/-- An envelope without a sealed seed is refused before any service is asked. -/
theorem tryLoad_deposited (hjson : json.Lawful) (hd : Strict decoders) {method : Protection}
    (hsecret : method.isSecretManager = true) (hfeature : features method = true)
    (hempty : envelope.seedCt = []) (e : Encoding) :
    tryLoad A readers json decoders debug features method
        (e.encode (jsonOf json envelope)) =
      .err (.invalidJson (some (.missingField "seed_ct"))) := by
  have hrefused : ∀ load : SeedEnvelope → Call Seed,
      tryLoadEnvelope json decoders features method load
          (e.encode (jsonOf json envelope)) =
        .err (.invalidJson (some (.missingField "seed_ct"))) := by
    intro load
    unfold tryLoadEnvelope
    rw [(Outcome.failIf_ok_iff (u := ())).mpr (by rw [hfeature]; decide), Outcome.ok_bind,
      (serialize_object hjson envelope).tryDecode_encode hd e, Outcome.mapErr_ok, Outcome.ok_bind,
      envelopeFromSlice_serialize hjson hd, if_pos hempty]
    rfl
  cases method with
  | plain => cases hsecret
  | awsKms => cases hsecret
  | gcpKms => cases hsecret
  | awsSecretManager => exact hrefused _
  | gcpSecretManager => exact hrefused _

end Stored

/-- What `try_store_seed` returned, written as JSON, in any encoding, behind the prefix of its
method: a server started with it has the seed if the method is a KMS, and cannot start if it is
a secret manager. -/
theorem store_then_load (A : Aead) (hA : A.Ideal) (cloud : Cloud) (hcloud : cloud.Seals)
    (readers : Readers) (hopens : readers.Opens cloud) (json : Json) (hjson : json.Lawful)
    (decoders : Decoders) (hd : Strict decoders) (draws : Draws) (features : Protection → Bool)
    (seed : Seed) (resourceId : List Char) (vault vault' : Vault) (envelope : SeedEnvelope)
    (h : tryStoreSeed A cloud draws features seed resourceId vault = .ok (envelope, vault')) :
    ∃ method, Protection.fromPrefix resourceId = some method ∧ ∀ debug e,
      tryLoadSeed A readers json decoders debug features
          (method.prefixOf ++ Encoding.encode e (jsonOf json envelope)) =
        if method.isKms = true then .ok seed
        else .err (.invalidJson (some (.missingField "seed_ct"))) := by
  obtain ⟨method, id, hmethod, hstore⟩ := tryStoreSeed_ok h
  refine ⟨method, hmethod, ?_⟩
  intro debug e
  rw [tryLoadSeed_append]
  rcases tryStore_ok hcloud hstore with ⟨hkms, hseedCt, hdekCt⟩ | ⟨hsecret, hdeposit⟩
  · obtain ⟨hstands, hfeature⟩ := standsFor_of_store hA hopens hkms hstore
    have hplain : method ≠ .plain := by
      rintro rfl
      cases hkms
    have hobject := serialize_object hjson envelope
    have hread : envelopeFromSlice json decoders (jsonOf json envelope) =
        .ok envelope := by
      rw [envelopeFromSlice_serialize hjson hd, if_neg hseedCt, if_neg hdekCt]
    rw [if_pos hkms]
    exact (tryLoad_ok_iff hA hplain).mpr
      ⟨hfeature, _, envelope, hobject.tryDecode_encode hd e, hread, hstands⟩
  · have hkms : ¬ method.isKms = true := by
      intro hkms
      rw [Protection.not_secretManager_of_kms hkms] at hsecret
      cases hsecret
    rw [if_neg hkms]
    exact tryLoad_deposited hjson hd hsecret (secretManager_enabled hsecret hstore)
      hdeposit.seedCt e

/-- The two stored seeds of before: the first starts a server, the second does not. -/
theorem store_then_load_twice :
    (∃ envelope vault,
      sampleStore "aws-kms://arn:aws:kms:us-east-2:1:key/k" = .ok (envelope, vault) ∧
      tryLoadSeed clearAead sampleReaders sampleJson canonical true (fun _ => true)
          (Protection.awsKms.prefixOf ++
            Encoding.base64Url.encode (jsonOf sampleJson envelope)) =
        .ok (Octets.fill 32 5)) ∧
    ∃ envelope vault,
      sampleStore "aws-secret://arn:aws:secretsmanager:us-east-2:1:secret:s" =
        .ok (envelope, vault) ∧
      tryLoadSeed clearAead sampleReaders sampleJson canonical true (fun _ => true)
          (Protection.awsSecretManager.prefixOf ++
            Encoding.hexLower.encode (jsonOf sampleJson envelope)) =
        .err (.invalidJson (some (.missingField "seed_ct"))) := by
  have hkms : (sampleStore "aws-kms://arn:aws:kms:us-east-2:1:key/k").isOk = true := by
    decide +kernel
  have hsecret : (sampleStore "aws-secret://arn:aws:secretsmanager:us-east-2:1:secret:s").isOk =
      true := by
    decide +kernel
  obtain ⟨⟨sealed, vault⟩, hsealed⟩ := Outcome.isOk_iff.mp hkms
  obtain ⟨⟨deposited, vault'⟩, hdeposited⟩ := Outcome.isOk_iff.mp hsecret
  refine ⟨⟨sealed, vault, hsealed, ?_⟩, ⟨deposited, vault', hdeposited, ?_⟩⟩
  · obtain ⟨method, hmethod, hload⟩ := store_then_load clearAead clearAead_ideal sampleCloud
      sampleCloud_seals sampleReaders sampleReaders_opens sampleJson sampleJson_lawful canonical
      canonical_strict sampleDraws (fun _ => true) (Octets.fill 32 5) _ [] vault sealed hsealed
    obtain rfl : method = .awsKms := (Option.some.inj hmethod).symm
    exact hload true .base64Url
  · obtain ⟨method, hmethod, hload⟩ := store_then_load clearAead clearAead_ideal sampleCloud
      sampleCloud_seals sampleReaders sampleReaders_opens sampleJson sampleJson_lawful canonical
      canonical_strict sampleDraws (fun _ => true) (Octets.fill 32 5) _ [] vault' deposited
      hdeposited
    obtain rfl : method = .awsSecretManager := (Option.some.inj hmethod).symm
    exact hload true .hexLower

end Roughenough.Keys
