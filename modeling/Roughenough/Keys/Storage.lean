/-
# `Roughenough.Keys.Storage` — seed envelopes and where the seed went

`storage.rs` and the modules of `longterm/` that it calls.  A resource id
starts with the prefix of a protection method, and storing a seed gives an
envelope that is written as JSON:

    aws-kms://     gcp-kms://        the seed, sealed in the envelope itself
    aws-secret://  gcp-secret://     the name of a secret; nothing in the envelope

The services are parameters of what they answer.  A secret manager is a list
of identifiers and texts (`Vault`), so that "the identifier under which the
seed was stored" is an entry of it.

Between `Serialize` and `Deserialize` an envelope is a list of named texts;
how these are written as JSON is up to serde_json.  The derived
implementations differ on an empty vector: it is left out when it is written
(`skip_serializing_if`), and its absence is an error when it is read.
-/
import Roughenough.Common.Encoding
import Roughenough.Base.Text
import Roughenough.Keys.Sealing

namespace Roughenough.Keys

open Roughenough.Base Roughenough.Common Roughenough.Server

/-! ## Envelopes -/

structure SeedEnvelope where
  keyId : List Char
  seedCt : Bytes
  dekCt : Bytes
  deriving DecidableEq

/-- The members of a JSON object of texts, in order. -/
abbrev Members := List (String × List Char)

inductive SerdeError where
  | missingField (name : String)
  | duplicateField (name : String)
  | custom (e : DecodeError)
  deriving DecidableEq

/-- `serialize_with` and `skip_serializing_if = "Vec::is_empty"`. -/
def skipEmpty (name : String) (v : Bytes) : Members :=
  if v = [] then [] else [(name, Encoding.base64NoPad.encode v)]

def SeedEnvelope.serialize (e : SeedEnvelope) : Members :=
  ("key_id", e.keyId) :: (skipEmpty "seed_ct" e.seedCt ++ skipEmpty "dek_ct" e.dekCt)

/-- The fields a visitor has seen. -/
structure Visited where
  keyId : Option (List Char)
  seedCt : Option Bytes
  dekCt : Option Bytes

/-- One member.  Members of other names are skipped. -/
def Visited.visit (decode : List Char → Outcome DecodeError Bytes) (v : Visited)
    (m : String × List Char) : Outcome SerdeError Visited :=
  if m.1 = "key_id" then do
    Outcome.failIf (v.keyId.isSome) (.duplicateField "key_id")
    pure { v with keyId := some m.2 }
  else if m.1 = "seed_ct" then do
    Outcome.failIf (v.seedCt.isSome) (.duplicateField "seed_ct")
    let bytes ← (decode m.2).mapErr .custom
    pure { v with seedCt := some bytes }
  else if m.1 = "dek_ct" then do
    Outcome.failIf (v.dekCt.isSome) (.duplicateField "dek_ct")
    let bytes ← (decode m.2).mapErr .custom
    pure { v with dekCt := some bytes }
  else .ok v

/-- A field without a default. -/
def required {α : Type} (name : String) : Option α → Outcome SerdeError α
  | some a => .ok a
  | none => .err (.missingField name)

def SeedEnvelope.deserialize (decode : List Char → Outcome DecodeError Bytes)
    (members : Members) : Outcome SerdeError SeedEnvelope := do
  let v ← members.foldlM (Visited.visit decode) ⟨none, none, none⟩
  let keyId ← required "key_id" v.keyId
  let seedCt ← required "seed_ct" v.seedCt
  let dekCt ← required "dek_ct" v.dekCt
  pure ⟨keyId, seedCt, dekCt⟩

/-! ## Protection methods -/

inductive Protection where
  | plain | awsKms | gcpKms | awsSecretManager | gcpSecretManager
  deriving DecidableEq, Repr

namespace Protection

def prefixOf : Protection → List Char
  | plain => "seed://".toList
  | awsKms => "aws-kms://".toList
  | gcpKms => "gcp-kms://".toList
  | awsSecretManager => "aws-secret://".toList
  | gcpSecretManager => "gcp-secret://".toList

def fromPrefix (text : List Char) : Option Protection :=
  if "aws-kms://".toList <+: text then some awsKms
  else if "aws-secret://".toList <+: text then some awsSecretManager
  else if "gcp-kms://".toList <+: text then some gcpKms
  else if "gcp-secret://".toList <+: text then some gcpSecretManager
  else if "seed://".toList <+: text then some plain
  else none

/-- The methods that seal the seed in the envelope. -/
def isKms : Protection → Bool
  | awsKms => true
  | gcpKms => true
  | _ => false

/-- The methods that put the seed somewhere else. -/
def isSecretManager : Protection → Bool
  | awsSecretManager => true
  | gcpSecretManager => true
  | _ => false

theorem not_secretManager_of_kms {method : Protection} (h : method.isKms = true) :
    method.isSecretManager = false := by
  cases method with
  | awsKms => rfl
  | gcpKms => rfl
  | plain => cases h
  | awsSecretManager => cases h
  | gcpSecretManager => cases h

end Protection

/-! ## The services -/

structure AwsEncryptOutput where
  keyId : Option (List Char)
  ciphertextBlob : Option Bytes

structure GcpEncryptOutput where
  name : List Char
  ciphertext : Bytes
  ciphertextCrc32c : Option UInt64
  verifiedPlaintextCrc32c : Bool

/-- What the services answer, and the checksum they agree on with the client.  An error is
its text. -/
structure Cloud where
  awsEncrypt : (keyId : List Char) → (plaintext : Octets 32) → Option AwsEncryptOutput
  gcpEncrypt : (name : List Char) → (plaintext : Octets 32) → Option GcpEncryptOutput
  awsPutSecret : (secretId secret : List Char) → Outcome (List Char) Unit
  gcpClient : Outcome (List Char) Unit
  gcpAddVersion : (parent secret : List Char) → Outcome (List Char) (List Char)
  crc32c : Bytes → UInt32

/-- A KMS never answers with an empty ciphertext. -/
structure Cloud.Seals (cloud : Cloud) : Prop where
  aws : ∀ keyId dek reply, cloud.awsEncrypt keyId dek = some reply → reply.ciphertextBlob ≠ some []
  gcp : ∀ keyId dek reply, cloud.gcpEncrypt keyId dek = some reply → reply.ciphertext ≠ []

/-- The secrets of a secret manager: identifier and text, the latest first. -/
abbrev Vault := List (List Char × List Char)

/-- The random values of one call. -/
structure Draws where
  dek : Octets 32
  nonce : Octets 12

/-! ## Storing -/

inductive StorageError where
  | invalidSeed (msg : List Char)
  | notImplemented (msg : List Char)
  | secretManager (msg : List Char)
  deriving DecidableEq

section Storing

variable (A : Aead) (cloud : Cloud) (draws : Draws)

def AAD : Bytes := Protocol.ascii "roughenough-seed"

/-- `extract_aws_region`: the fourth part of an ARN. -/
def extractAwsRegion {ε : Type} (arn : List Char) : Outcome ε (List Char) :=
  Outcome.orPanic (arn.splitOn ':')[3]?

/-- `AwsKms::seal_dek`. -/
def awsSealDek (dek : Octets 32) (keyId : List Char) : Call Bytes := do
  let _ ← extractAwsRegion keyId
  let response ← Outcome.orPanic (cloud.awsEncrypt keyId dek)
  let responseKeyId ← Outcome.orPanic response.keyId
  Outcome.assert (keyId = responseKeyId)
  Outcome.orPanic response.ciphertextBlob

/-- `GcpKms::seal_dek`. -/
def gcpSealDek (dek : Octets 32) (keyId : List Char) : Call Bytes := do
  let dekResult ← Outcome.orPanic (cloud.gcpEncrypt keyId dek)
  let crc ← Outcome.orPanic dekResult.ciphertextCrc32c
  Outcome.assert (crc.toUInt32 = cloud.crc32c dekResult.ciphertext)
  Outcome.assert (keyId <+: dekResult.name)
  Outcome.assert (dekResult.verifiedPlaintextCrc32c = true)
  pure dekResult.ciphertext

/-- The two `encrypt_seed`: a random DEK seals the seed, and the KMS seals the DEK. -/
def encryptSeed (method : Protection) (sealDek : Octets 32 → List Char → Call Bytes)
    (keyId : List Char) (seed : Seed) : Call SeedEnvelope := do
  let dekCiphertext ← sealDek draws.dek keyId
  let seedCiphertext ← sealSeed A draws.dek seed AAD draws.nonce
  pure ⟨method.prefixOf ++ keyId, seedCiphertext, dekCiphertext⟩

/-- `AwsKms::encrypt_seed`. -/
def awsEncryptSeed := encryptSeed A draws .awsKms (awsSealDek cloud)

/-- `GcpKms::encrypt_seed`. -/
def gcpEncryptSeed := encryptSeed A draws .gcpKms (gcpSealDek cloud)

/-- `as_hex`. -/
def asHex (bytes : Bytes) : List Char := Encoding.hexLower.encode bytes

/-- `AwsSecretManager::store_seed`. -/
def awsStoreSeed (resource : List Char) (seed : Seed) (vault : Vault) :
    Outcome (List Char) Vault := do
  let _ ← extractAwsRegion resource
  cloud.awsPutSecret resource (asHex seed.bytes)
  pure ((resource, asHex seed.bytes) :: vault)

/-- `extract_secret_parent`: `projects/{project}/secrets/{secret}`, a version cut off. -/
def extractSecretParent (resource : List Char) : Outcome (List Char) (List Char) :=
  match resource.splitOn '/' with
  | first :: second :: third :: fourth :: later =>
      if first ≠ "projects".toList ∨ third ≠ "secrets".toList then
        .err ("Invalid resource format: ".toList ++ resource)
      else if later = [] then .ok resource
      else .ok (first ++ '/' :: (second ++ '/' :: (third ++ '/' :: fourth)))
  | _ => .err ("Invalid resource format: ".toList ++ resource)

/-- `GcpSecretManager::store_seed`: the answer is the name of the new version. -/
def gcpStoreSeed (resource : List Char) (seed : Seed) (vault : Vault) :
    Outcome (List Char) (List Char × Vault) := do
  cloud.gcpClient.mapErr ("failed to create GCP secret manager client: ".toList ++ ·)
  let parent ← extractSecretParent resource
  let name ← (cloud.gcpAddVersion parent (asHex seed.bytes)).mapErr
    ("failed to store secret: ".toList ++ ·)
  pure (name, (name, asHex seed.bytes) :: vault)

def tryStoreAwsSecretManager (seed : Seed) (resourceId : List Char) (vault : Vault) :
    Outcome StorageError (SeedEnvelope × Vault) := do
  let vault ← (awsStoreSeed cloud resourceId seed vault).mapErr fun _ =>
    .secretManager "Failed to store seed in AWS Secret Manager".toList
  pure (⟨Protection.awsSecretManager.prefixOf ++ resourceId, [], []⟩, vault)

def tryStoreGcpSecretManager (seed : Seed) (resourceId : List Char) (vault : Vault) :
    Outcome StorageError (SeedEnvelope × Vault) := do
  let stored ← (gcpStoreSeed cloud resourceId seed vault).mapErr fun e =>
    .secretManager ("Failed to store seed in GCP Secret Manager: ".toList ++ e)
  pure (⟨Protection.gcpSecretManager.prefixOf ++ stored.1, [], []⟩, stored.2)

/-- The service and the cargo feature that a method needs. -/
def featureOf : Protection → List Char × List Char
  | .awsKms => ("AWS KMS".toList, "longterm-aws-kms".toList)
  | .gcpKms => ("GCP KMS".toList, "longterm-gcp-kms".toList)
  | .awsSecretManager => ("AWS Secret Manager".toList, "longterm-aws-secret-manager".toList)
  | .gcpSecretManager => ("GCP Secret Manager".toList, "longterm-gcp-secret-manager".toList)
  | .plain => ([], [])

def notEnabled (method : Protection) : StorageError :=
  .notImplemented ((featureOf method).1 ++ " is not enabled. Recompile with the '".toList ++
    (featureOf method).2 ++ "' feature to support it".toList)

/-- `Protection::try_store`.  `features` are the methods that were compiled in. -/
def tryStore (features : Protection → Bool) (method : Protection) (seed : Seed)
    (resourceId : List Char) (vault : Vault) : Outcome StorageError (SeedEnvelope × Vault) :=
  match method with
  | .awsKms => do
      Outcome.failIf (features .awsKms = false) (notEnabled .awsKms)
      let envelope ← (awsEncryptSeed A cloud draws resourceId seed).expect
      pure (envelope, vault)
  | .gcpKms => do
      Outcome.failIf (features .gcpKms = false) (notEnabled .gcpKms)
      let envelope ← (gcpEncryptSeed A cloud draws resourceId seed).expect
      pure (envelope, vault)
  | .awsSecretManager => do
      Outcome.failIf (features .awsSecretManager = false) (notEnabled .awsSecretManager)
      tryStoreAwsSecretManager cloud seed resourceId vault
  | .gcpSecretManager => do
      Outcome.failIf (features .gcpSecretManager = false) (notEnabled .gcpSecretManager)
      tryStoreGcpSecretManager cloud seed resourceId vault
  | .plain => .panic

def tryStoreSeed (features : Protection → Bool) (seed : Seed) (resourceId : List Char)
    (vault : Vault) : Outcome StorageError (SeedEnvelope × Vault) :=
  match Protection.fromPrefix resourceId with
  | some method => do
      let rest ← Outcome.orPanic (Text.stripPrefix method.prefixOf resourceId)
      tryStore A cloud draws features method seed rest vault
  | none => .err (.invalidSeed "no protection method specified in resource".toList)

end Storing

/-- What the loader of a secret manager takes the secret's identifier from. -/
def secretIdOf (method : Protection) (envelope : SeedEnvelope) : Call (List Char) :=
  Outcome.orPanic (Text.stripPrefix method.prefixOf envelope.keyId)

/-! ## Reading an envelope back -/

section Reload

variable {decode : List Char → Outcome DecodeError Bytes}

theorem visit_keyId (v : Visited) (hv : v.keyId = none) (text : List Char) :
    v.visit decode ("key_id", text) = .ok { v with keyId := some text } := by
  unfold Visited.visit
  rw [if_pos rfl, hv]
  rfl

theorem visit_seedCt (hdecode : ∀ bs, decode (Encoding.base64NoPad.encode bs) = .ok bs)
    (v : Visited) (hv : v.seedCt = none) (bs : Bytes) :
    v.visit decode ("seed_ct", Encoding.base64NoPad.encode bs) =
      .ok { v with seedCt := some bs } := by
  unfold Visited.visit
  rw [if_neg (show "seed_ct" ≠ "key_id" by decide), if_pos rfl, hv, hdecode]
  rfl

theorem visit_dekCt (hdecode : ∀ bs, decode (Encoding.base64NoPad.encode bs) = .ok bs)
    (v : Visited) (hv : v.dekCt = none) (bs : Bytes) :
    v.visit decode ("dek_ct", Encoding.base64NoPad.encode bs) =
      .ok { v with dekCt := some bs } := by
  unfold Visited.visit
  rw [if_neg (show "dek_ct" ≠ "key_id" by decide), if_neg (show "dek_ct" ≠ "seed_ct" by decide),
    if_pos rfl, hv, hdecode]
  rfl

/-- The empty vectors are not seen again. -/
def notEmpty (bs : Bytes) : Option Bytes := if bs = [] then none else some bs

theorem visit_skipEmpty_seedCt (hdecode : ∀ bs, decode (Encoding.base64NoPad.encode bs) = .ok bs)
    (v : Visited) (hv : v.seedCt = none) (bs : Bytes) :
    (skipEmpty "seed_ct" bs).foldlM (Visited.visit decode) v =
      .ok { v with seedCt := notEmpty bs } := by
  unfold skipEmpty notEmpty
  by_cases hbs : bs = []
  · rw [if_pos hbs, if_pos hbs, ← hv]
    rfl
  · rw [if_neg hbs, if_neg hbs, List.foldlM_cons, visit_seedCt hdecode v hv]
    rfl

theorem visit_skipEmpty_dekCt (hdecode : ∀ bs, decode (Encoding.base64NoPad.encode bs) = .ok bs)
    (v : Visited) (hv : v.dekCt = none) (bs : Bytes) :
    (skipEmpty "dek_ct" bs).foldlM (Visited.visit decode) v =
      .ok { v with dekCt := notEmpty bs } := by
  unfold skipEmpty notEmpty
  by_cases hbs : bs = []
  · rw [if_pos hbs, if_pos hbs, ← hv]
    rfl
  · rw [if_neg hbs, if_neg hbs, List.foldlM_cons, visit_dekCt hdecode v hv]
    rfl

theorem visit_serialize (hdecode : ∀ bs, decode (Encoding.base64NoPad.encode bs) = .ok bs)
    (e : SeedEnvelope) : e.serialize.foldlM (Visited.visit decode) ⟨none, none, none⟩ =
      .ok ⟨some e.keyId, notEmpty e.seedCt, notEmpty e.dekCt⟩ := by
  unfold SeedEnvelope.serialize
  rw [List.foldlM_cons, visit_keyId _ rfl, Outcome.ok_bind, List.foldlM_append,
    visit_skipEmpty_seedCt hdecode _ rfl, Outcome.ok_bind, visit_skipEmpty_dekCt hdecode _ rfl]

/-- An envelope is read back if neither vector is empty; the first empty one is missed. -/
theorem deserialize_serialize (hdecode : ∀ bs, decode (Encoding.base64NoPad.encode bs) = .ok bs)
    (e : SeedEnvelope) : SeedEnvelope.deserialize decode e.serialize =
      if e.seedCt = [] then .err (.missingField "seed_ct")
      else if e.dekCt = [] then .err (.missingField "dek_ct")
      else .ok e := by
  unfold SeedEnvelope.deserialize
  rw [visit_serialize hdecode, Outcome.ok_bind]
  unfold notEmpty
  by_cases hseed : e.seedCt = []
  · rw [if_pos hseed]
    simp only [hseed]
    rfl
  · by_cases hdek : e.dekCt = []
    · rw [if_neg hseed, if_pos hdek]
      simp only [hseed, hdek]
      rfl
    · rw [if_neg hseed, if_neg hdek]
      simp only [hseed, hdek]
      rfl

theorem reload_iff (hdecode : ∀ bs, decode (Encoding.base64NoPad.encode bs) = .ok bs)
    (e : SeedEnvelope) : SeedEnvelope.deserialize decode e.serialize = .ok e ↔
      e.seedCt ≠ [] ∧ e.dekCt ≠ [] := by
  rw [deserialize_serialize hdecode]
  by_cases hseed : e.seedCt = []
  · simp [hseed]
  · by_cases hdek : e.dekCt = []
    · simp [hseed, hdek]
    · simp [hseed, hdek]

end Reload

/-! ## What is stored where -/

section Stored

variable {A : Aead} {cloud : Cloud} {draws : Draws} {features : Protection → Bool} {seed : Seed}
  {resourceId : List Char} {vault vault' : Vault} {envelope : SeedEnvelope}

/-- A sealed seed is 60 bytes, by the assertion of `seal_seed`. -/
theorem sealSeed_ne_nil {dek : Octets 32} {aad c : Bytes} {nonce : Octets 12}
    (h : sealSeed A dek seed aad nonce = .ok c) : c ≠ [] := by
  unfold sealSeed at h
  obtain ⟨_, hassert, hc⟩ := Outcome.bind_ok_iff.mp h
  have hlen := Outcome.assert_ok_iff.mp hassert
  cases hc
  intro hnil
  rw [hnil, seed.bytes_length] at hlen
  exact absurd hlen (by decide)

theorem encryptSeed_ok {method : Protection} {sealDek : Octets 32 → List Char → Call Bytes}
    {keyId : List Char} (hdek : ∀ dek ct, sealDek dek keyId = .ok ct → ct ≠ [])
    (h : encryptSeed A draws method sealDek keyId seed = .ok envelope) :
    envelope.seedCt ≠ [] ∧ envelope.dekCt ≠ [] := by
  unfold encryptSeed at h
  obtain ⟨dekCt, hdekCt, h⟩ := Outcome.bind_ok_iff.mp h
  obtain ⟨seedCt, hseedCt, h⟩ := Outcome.bind_ok_iff.mp h
  cases h
  exact ⟨sealSeed_ne_nil hseedCt, hdek _ _ hdekCt⟩

theorem awsSealDek_ne_nil (hcloud : cloud.Seals) {dek : Octets 32} {keyId : List Char}
    {ct : Bytes} (h : awsSealDek cloud dek keyId = .ok ct) : ct ≠ [] := by
  simp only [awsSealDek, Outcome.bind_ok_iff, Outcome.orPanic_ok_iff] at h
  obtain ⟨_, -, response, hresponse, _, -, _, -, hct⟩ := h
  intro hnil
  rw [hnil] at hct
  exact hcloud.aws keyId dek response hresponse hct

theorem gcpSealDek_ne_nil (hcloud : cloud.Seals) {dek : Octets 32} {keyId : List Char}
    {ct : Bytes} (h : gcpSealDek cloud dek keyId = .ok ct) : ct ≠ [] := by
  simp only [gcpSealDek, Outcome.bind_ok_iff, Outcome.orPanic_ok_iff] at h
  obtain ⟨dekResult, hresult, _, -, _, -, _, -, _, -, hct⟩ := h
  cases hct
  exact hcloud.gcp keyId dek dekResult hresult

/-- What a secret manager leaves: nothing in the envelope, and the seed under the identifier
that the envelope names. -/
structure Deposited (method : Protection) (seed : Seed) (vault : Vault)
    (envelope : SeedEnvelope) (vault' : Vault) : Prop where
  seedCt : envelope.seedCt = []
  dekCt : envelope.dekCt = []
  named : ∃ id, secretIdOf method envelope = .ok id ∧ vault' = (id, asHex seed.bytes) :: vault

theorem secretIdOf_append (method : Protection) (id : List Char) (seedCt dekCt : Bytes) :
    secretIdOf method ⟨method.prefixOf ++ id, seedCt, dekCt⟩ = .ok id := by
  unfold secretIdOf
  rw [Text.stripPrefix_append]
  rfl

theorem tryStoreAwsSecretManager_ok
    (h : tryStoreAwsSecretManager cloud seed resourceId vault = .ok (envelope, vault')) :
    Deposited .awsSecretManager seed vault envelope vault' := by
  obtain ⟨stored, hstore, h⟩ := Outcome.bind_ok_iff.mp h
  cases h
  simp only [Outcome.mapErr_ok_iff, awsStoreSeed, Outcome.bind_ok_iff] at hstore
  obtain ⟨_, -, _, -, hvault⟩ := hstore
  cases hvault
  exact ⟨rfl, rfl, resourceId, secretIdOf_append _ _ _ _, rfl⟩

theorem tryStoreGcpSecretManager_ok
    (h : tryStoreGcpSecretManager cloud seed resourceId vault = .ok (envelope, vault')) :
    Deposited .gcpSecretManager seed vault envelope vault' := by
  obtain ⟨stored, hstore, h⟩ := Outcome.bind_ok_iff.mp h
  cases h
  simp only [Outcome.mapErr_ok_iff, gcpStoreSeed, Outcome.bind_ok_iff] at hstore
  obtain ⟨_, -, _, -, name, -, hname⟩ := hstore
  cases hname
  exact ⟨rfl, rfl, name, secretIdOf_append _ _ _ _, rfl⟩

/-- Every envelope is one of the two kinds, as its method says. -/
theorem tryStore_ok (hcloud : cloud.Seals) {method : Protection}
    (h : tryStore A cloud draws features method seed resourceId vault = .ok (envelope, vault')) :
    (method.isKms = true ∧ envelope.seedCt ≠ [] ∧ envelope.dekCt ≠ []) ∨
      (method.isSecretManager = true ∧ Deposited method seed vault envelope vault') := by
  cases method with
  | plain => cases h
  | awsKms =>
      obtain ⟨_, -, h⟩ := Outcome.bind_ok_iff.mp h
      obtain ⟨sealed, hseal, h⟩ := Outcome.bind_ok_iff.mp h
      cases h
      exact .inl ⟨rfl, encryptSeed_ok (fun _ _ => awsSealDek_ne_nil hcloud)
        (Outcome.expect_ok_iff.mp hseal)⟩
  | gcpKms =>
      obtain ⟨_, -, h⟩ := Outcome.bind_ok_iff.mp h
      obtain ⟨sealed, hseal, h⟩ := Outcome.bind_ok_iff.mp h
      cases h
      exact .inl ⟨rfl, encryptSeed_ok (fun _ _ => gcpSealDek_ne_nil hcloud)
        (Outcome.expect_ok_iff.mp hseal)⟩
  | awsSecretManager =>
      obtain ⟨_, -, h⟩ := Outcome.bind_ok_iff.mp h
      exact .inr ⟨rfl, tryStoreAwsSecretManager_ok h⟩
  | gcpSecretManager =>
      obtain ⟨_, -, h⟩ := Outcome.bind_ok_iff.mp h
      exact .inr ⟨rfl, tryStoreGcpSecretManager_ok h⟩

theorem tryStoreSeed_ok
    (h : tryStoreSeed A cloud draws features seed resourceId vault = .ok (envelope, vault')) :
    ∃ method rest, Protection.fromPrefix resourceId = some method ∧
      tryStore A cloud draws features method seed rest vault = .ok (envelope, vault') := by
  unfold tryStoreSeed at h
  cases hmethod : Protection.fromPrefix resourceId with
  | none =>
      rw [hmethod] at h
      cases h
  | some method =>
      rw [hmethod] at h
      obtain ⟨rest, -, h⟩ := Outcome.bind_ok_iff.mp h
      exact ⟨method, rest, rfl, h⟩

end Stored

/-! ## The result -/

/-- The resource id names a KMS. -/
def NamesKms (resourceId : List Char) : Prop :=
  ∃ method, Protection.fromPrefix resourceId = some method ∧ method.isKms = true

/-- An envelope that `try_store_seed` returns is read back from what is written of it exactly
when its method is a KMS; and the secret managers can always be asked for the seed under the
identifier that the loader finds in the envelope. -/
theorem stored_envelope_iff (A : Aead) (cloud : Cloud) (hcloud : cloud.Seals)
    (decode : List Char → Outcome DecodeError Bytes)
    (hdecode : ∀ bs, decode (Encoding.base64NoPad.encode bs) = .ok bs)
    (draws : Draws) (features : Protection → Bool) (seed : Seed) (resourceId : List Char)
    (vault vault' : Vault) (envelope : SeedEnvelope)
    (h : tryStoreSeed A cloud draws features seed resourceId vault = .ok (envelope, vault')) :
    (SeedEnvelope.deserialize decode envelope.serialize = .ok envelope ↔ NamesKms resourceId) ∧
      ∀ method, Protection.fromPrefix resourceId = some method → method.isSecretManager = true →
        ∃ id, secretIdOf method envelope = .ok id ∧
          vault' = (id, asHex seed.bytes) :: vault := by
  obtain ⟨method, rest, hmethod, hstore⟩ := tryStoreSeed_ok h
  rw [reload_iff hdecode]
  have hunique : ∀ other, Protection.fromPrefix resourceId = some other → other = method := by
    intro other hother
    rw [hmethod] at hother
    exact (Option.some.inj hother).symm
  rcases tryStore_ok hcloud hstore with ⟨hkms, hfull⟩ | ⟨hsecret, hdeposit⟩
  · refine ⟨iff_of_true hfull ⟨method, hmethod, hkms⟩, ?_⟩
    intro other hother hsecret
    rw [hunique other hother, Protection.not_secretManager_of_kms hkms] at hsecret
    cases hsecret
  · constructor
    · refine iff_of_false (fun hfull => hfull.1 hdeposit.seedCt) ?_
      rintro ⟨other, hother, hkms⟩
      rw [hunique other hother] at hkms
      rw [Protection.not_secretManager_of_kms hkms] at hsecret
      cases hsecret
    · intro other hother _
      rw [hunique other hother]
      exact hdeposit.named

/-! ### Two stored seeds -/

/-- Services that answer every call: the ciphertext of a DEK is its bytes behind a mark. -/
def sampleCloud : Cloud where
  awsEncrypt keyId plaintext := some ⟨some keyId, some (1 :: plaintext.bytes)⟩
  gcpEncrypt name plaintext := some ⟨name, 1 :: plaintext.bytes, some 0, true⟩
  awsPutSecret _ _ := .ok ()
  gcpClient := .ok ()
  gcpAddVersion parent _ := .ok (parent ++ "/versions/1".toList)
  crc32c _ := 0

theorem sampleCloud_seals : sampleCloud.Seals := by
  constructor
  · intro keyId dek reply h
    cases h
    simp
  · intro keyId dek reply h
    cases h
    simp

def sampleDraws : Draws := ⟨Octets.fill 32 3, Octets.fill 12 4⟩

/-- What `try_store_seed` returns for a seed and a resource id. -/
def sampleStore (resourceId : String) : Outcome StorageError (SeedEnvelope × Vault) :=
  tryStoreSeed clearAead sampleCloud sampleDraws (fun _ => true) (Octets.fill 32 5)
    resourceId.toList []

/-- The strict reader of unpadded base 64. -/
def decodeNoPad : List Char → Outcome DecodeError Bytes := canonical .base64NoPad

theorem decodeNoPad_encode (bs : Bytes) :
    decodeNoPad (Encoding.base64NoPad.encode bs) = .ok bs :=
  canonical_strict.undoes .base64NoPad bs

/-- A seed under a KMS key comes back. -/
theorem stored_envelope_kms : ∃ envelope vault,
    sampleStore "aws-kms://arn:aws:kms:us-east-2:1:key/k" = .ok (envelope, vault) ∧
      SeedEnvelope.deserialize decodeNoPad envelope.serialize = .ok envelope := by
  have hrun : (sampleStore "aws-kms://arn:aws:kms:us-east-2:1:key/k").isOk = true := by
    decide +kernel
  obtain ⟨⟨envelope, vault⟩, hstore⟩ := Outcome.isOk_iff.mp hrun
  refine ⟨envelope, vault, hstore, ?_⟩
  exact (stored_envelope_iff clearAead sampleCloud sampleCloud_seals decodeNoPad
    decodeNoPad_encode sampleDraws (fun _ => true) (Octets.fill 32 5) _ [] vault envelope
    hstore).1.mpr ⟨.awsKms, by decide, rfl⟩

/-- A seed in a secret manager does not: the envelope is stored and cannot be read. -/
theorem stored_envelope_secret : ∃ envelope vault,
    sampleStore "aws-secret://arn:aws:secretsmanager:us-east-2:1:secret:s" =
        .ok (envelope, vault) ∧
      SeedEnvelope.deserialize decodeNoPad envelope.serialize =
        .err (.missingField "seed_ct") := by
  refine ⟨⟨"aws-secret://arn:aws:secretsmanager:us-east-2:1:secret:s".toList, [], []⟩,
    [("arn:aws:secretsmanager:us-east-2:1:secret:s".toList, asHex (Octets.fill 32 5).bytes)],
    by decide +kernel, ?_⟩
  rw [deserialize_serialize decodeNoPad_encode]
  rfl

end Roughenough.Keys
