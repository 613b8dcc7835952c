/-
# `Roughenough.ReportingServer.Validation` — which reports are accepted

`roughenough-reporting-server/src/validation.rs`, and `handle_report` of
`lib.rs` over the storage of `storage.rs`.

A report is a list of entries.  The server decodes each, parses its request
and its response, validates the response for the request and the key of the
entry, and compares the nonce of the request with the hash of the response
before it.  The time that a validation returns is discarded: nothing compares
the midpoints of two entries.

    validateReport_ok      what an accepted report consists of
    stored_reports_linked  the same of every report in the storage

The check of one entry is `validate_draft14` over the bytes of the entry.
-/
import Roughenough.Client.Reporting
import Roughenough.Protocol.Build

namespace Roughenough.ReportingServer

open Roughenough.Base Roughenough.Protocol Roughenough.Merkle Roughenough.Client

/-! ## The texts of errors -/

/-- `{:#0width$x}`. -/
def alternateHex (width value : Nat) : String :=
  "0x" ++ String.ofList ((Nat.toDigits 16 value).leftpad (width - 2) '0')

/-- `Display` for the protocol errors. -/
def displayError : Error → String
  | .badRequestSize size => "request size is not 1012 bytes: " ++ toString size ++ " bytes"
  | .bufferTooSmall needed available =>
      "buffer too small: " ++ toString needed ++ " bytes needed, " ++ toString available ++
        " bytes available"
  | .invalidTag value => "invalid tag: " ++ alternateHex 8 value
  | .invalidVersion value => "invalid version: " ++ alternateHex 8 value
  | .invalidMessageType value => "invalid message type: " ++ alternateHex 8 value
  | .mismatchedNumTags expected actual =>
      "mismatched number of tags: expected " ++ toString expected ++ ", got " ++ toString actual
  | .invalidRequestNumTags actual expected =>
      "invalid number of tags in request: " ++ toString actual ++ " (expected " ++ expected ++ ")"
  | .unexpectedMagic value =>
      "magic value was not 'ROUGHTIM' (0x544f55474854494d): " ++ alternateHex 16 value
  | .unexpectedFraming length => "frame length invalid: " ++ toString length
  | .unexpectedTags => "tags found in the message are not what was expected"
  | .unorderedTag index value =>
      "tag is less than prior tag: index " ++ toString index ++ ", value " ++ alternateHex 8 value
  | .unexpectedOffsets => "offsets found in the message are not what was expected"
  | .unorderedOffset index value =>
      "offset value less than prior offset: index " ++ toString index ++ ", value " ++
        alternateHex 8 value
  | .unalignedOffset index value =>
      "offset is not 4-byte aligned: index " ++ toString index ++ ", value " ++
        alternateHex 8 value
  | .outOfBoundsOffset index value =>
      "offset is beyond the end of the message: index " ++ toString index ++ ", value " ++
        alternateHex 8 value
  | .unorderedVersion index value =>
      "version value is less than prior version: index " ++ toString index ++ ", value " ++
        alternateHex 8 value
  | .noSupportedVersions => "no supported versions (empty VERS tag)"
  | .invalidPathLength length =>
      "PATH length not a multiple of 32-bytes: length " ++ toString length
  | .wrongTagSize expected actual =>
      "wrong tag size: expected " ++ toString expected ++ " bytes, got " ++ toString actual ++
        " bytes"

/-- `Debug` for `ProtocolVersion`. -/
def versionDebug : ProtocolVersion → String
  | .rfcDraft08 => "RfcDraft08"
  | .rfcDraft14 => "RfcDraft14"

/-- `Display` for the validation errors. -/
def displayValidationError : ValidationError → String
  | .invalidMidpoint msg => "The returned midpoint time is invalid: " ++ msg
  | .badSignature msg => "Bad signature: " ++ msg
  | .failedProof msg => "Invalid Merkle proof: " ++ msg
  | .invalidMessage e => "Invalid message: " ++ displayError e
  | .versionMismatch ver => "Version mismatch: VER (" ++ versionDebug ver ++ ") not found in VERS"
  | .invalidRadius msg => "Invalid radius: " ++ msg

/-- `Debug` for `Nonce`. -/
def nonceDebug (nonce : Nonce) : String := "NONC(" ++ asHex nonce.bytes ++ ")"

def entryError (index : Nat) (text : String) : String :=
  "Entry " ++ toString index ++ ": " ++ text

/-! ## The checks -/

structure DecodedEntry where
  requestBytes : Bytes
  responseBytes : Bytes
  publicKeyBytes : Bytes
  randBytes : Option Bytes

section Checks

variable (B : Codec) (V : Verify) (H : Bytes → Hash)

/-- Decode a text and check that it has 32 bytes, under the name `what`. -/
def decode32 (what : String) (index : Nat) (text : String) : Outcome String Bytes := do
  let bytes ← (B.decode text).mapErr fun e => entryError index ("invalid " ++ what ++ ": " ++ e)
  Outcome.failIf (bytes.length ≠ 32)
    (entryError index (what ++ " must be 32 bytes, got " ++ toString bytes.length))
  pure bytes

/-- Decode rand if present. -/
def decodeRand (index : Nat) (rand : Option String) : Outcome String (Option Bytes) :=
  match rand with
  | none => pure none
  | some randStr => do
      let bytes ← decode32 B "rand" index randStr
      pure (some bytes)

def decodeEntryBase64 (entry : ReportEntry) (index : Nat) : Outcome String DecodedEntry := do
  let requestBytes ← (B.decode entry.request).mapErr fun e =>
    entryError index ("invalid request: " ++ e)
  let responseBytes ← (B.decode entry.response).mapErr fun e =>
    entryError index ("invalid response: " ++ e)
  let publicKeyBytes ← decode32 B "public key" index entry.publicKey
  let randBytes ← decodeRand B index entry.rand
  pure ⟨requestBytes, responseBytes, publicKeyBytes, randBytes⟩

def parseInteractionPair (decoded : DecodedEntry) (index : Nat) :
    Outcome String (Request × Response) := do
  let request ← (Request.fromFrame decoded.requestBytes).mapErr fun e =>
    entryError index ("invalid request: " ++ displayError e)
  let response ← (Response.fromFrame decoded.responseBytes).mapErr fun e =>
    entryError index ("invalid response: " ++ displayError e)
  pure (request, response)

/-- `PublicKey::from`: the slice is copied into 32 bytes. -/
def publicKeyFrom (bytes : Bytes) : Outcome String PublicKey :=
  if h : bytes.length = 32 then .ok ⟨bytes, h⟩ else .panic

/-- `validate_entry`: the midpoint is discarded. -/
def validateEntry (requestBytes : Bytes) (response : Response) (responseBytes : Bytes)
    (publicKeyBytes : Bytes) (index : Nat) : Outcome String Unit := do
  let publicKey ← publicKeyFrom publicKeyBytes
  let _ ← ((ResponseValidator.newWithKey publicKey).validateDraft14 V H requestBytes response
    responseBytes).mapErr fun e =>
      entryError index ("validation failed: " ++ displayValidationError e)
  pure ()

def validateChaining (request : Request) (decoded : DecodedEntry)
    (previousResponse : Option Response) (index : Nat) : Outcome String Unit :=
  match previousResponse with
  | none =>
      Outcome.failIf (decoded.randBytes.isSome = true)
        (entryError index "first entry has a rand value, but it shouldn't")
  | some prevResponse =>
      match decoded.randBytes with
      | none => .err (entryError index "missing a rand value")
      | some randBytes => do
          let expectedNonce ← calculateChainedNonce H prevResponse randBytes
          Outcome.failIf (request.nonc ≠ expectedNonce)
            (entryError index ("found nonce " ++ nonceDebug request.nonc ++
              " doesn't match expected nonce " ++ nonceDebug expectedNonce))

/-- The body of the loop: the response is kept for the next entry. -/
def checkEntry (previousResponse : Option Response) (x : ReportEntry × Nat) :
    Outcome String (Option Response) := do
  let decoded ← decodeEntryBase64 B x.1 x.2
  let (request, response) ← parseInteractionPair decoded x.2
  validateEntry V H decoded.requestBytes response decoded.responseBytes decoded.publicKeyBytes x.2
  validateChaining H request decoded previousResponse x.2
  pure (some response)

def validateReport (report : MalfeasanceReport) : Outcome String Unit := do
  Outcome.failIf (report.responses.length < 2) "Need at least 2 entries for causality violation"
  let _ ← report.responses.zipIdx.foldlM (checkEntry B V H) none
  pure ()

end Checks

/-! ## What an accepted report consists of -/

/-- What an entry says, decoded and parsed. -/
structure Observation where
  requestBytes : Bytes
  responseBytes : Bytes
  publicKey : PublicKey
  rand : Option (Octets 32)
  request : Request
  response : Response

namespace Observation

/-- The texts of the entry spell the observation. -/
structure Spelled (B : Codec) (entry : ReportEntry) (o : Observation) : Prop where
  request : B.decode entry.request = .ok o.requestBytes
  response : B.decode entry.response = .ok o.responseBytes
  publicKey : B.decode entry.publicKey = .ok o.publicKey.bytes
  rand : entry.rand.map B.decode = o.rand.map fun r => .ok r.bytes

/-- The response is valid for the request and the key. -/
structure Valid (V : Verify) (H : Bytes → Hash) (o : Observation) : Prop where
  request : Request.fromFrame o.requestBytes = .ok o.request
  response : Response.fromFrame o.responseBytes = .ok o.response
  accepted : (ResponseValidator.newWithKey o.publicKey).validateDraft14 V H o.requestBytes
    o.response o.responseBytes = .ok o.response.srep.midpoint

/-- The nonce of the request is chained to the response before it; the first has no rand. -/
def Linked (H : Bytes → Hash) (previousResponse : Option Response) (o : Observation) : Prop :=
  match previousResponse with
  | none => o.rand = none
  | some prevResponse =>
      ∃ r, o.rand = some r ∧ o.request.nonc = H (framed prevResponse.encode ++ r.bytes)

end Observation

section Spec

variable {B : Codec} {V : Verify} {H : Bytes → Hash}

theorem decode32_ok_iff {what text : String} {index : Nat} {bytes : Bytes} :
    decode32 B what index text = .ok bytes ↔ B.decode text = .ok bytes ∧ bytes.length = 32 := by
  simp only [decode32, Outcome.bind_ok_iff, Outcome.mapErr_ok_iff, Outcome.failIf_ok_iff,
    Outcome.pure_eq, Outcome.ok.injEq, not_not]
  constructor
  · rintro ⟨_, hdecode, _, hlen, rfl⟩
    exact ⟨hdecode, hlen⟩
  · rintro ⟨hdecode, hlen⟩
    exact ⟨bytes, hdecode, (), hlen, rfl⟩

theorem decodeRand_ok_iff {rand : Option String} {index : Nat} {randBytes : Option Bytes} :
    decodeRand B index rand = .ok randBytes ↔
      ∃ r : Option (Octets 32), rand.map B.decode = r.map (fun r => .ok r.bytes) ∧
        randBytes = r.map Octets.bytes := by
  cases rand with
  | none =>
      constructor
      · intro h
        cases h
        exact ⟨none, rfl, rfl⟩
      · rintro ⟨r, hr, rfl⟩
        cases r with
        | none => rfl
        | some r => cases hr
  | some text =>
      simp only [decodeRand, Outcome.bind_ok_iff, decode32_ok_iff, Outcome.pure_eq,
        Outcome.ok.injEq]
      constructor
      · rintro ⟨bytes, ⟨hdecode, hlen⟩, rfl⟩
        exact ⟨some ⟨bytes, hlen⟩, congrArg some hdecode, rfl⟩
      · rintro ⟨r, hr, rfl⟩
        cases r with
        | none => cases hr
        | some r => exact ⟨r.bytes, ⟨Option.some.inj hr, r.size_eq⟩, rfl⟩

theorem decodeEntryBase64_ok_iff {entry : ReportEntry} {index : Nat} {decoded : DecodedEntry} :
    decodeEntryBase64 B entry index = .ok decoded ↔
      B.decode entry.request = .ok decoded.requestBytes ∧
      B.decode entry.response = .ok decoded.responseBytes ∧
      (B.decode entry.publicKey = .ok decoded.publicKeyBytes ∧
        decoded.publicKeyBytes.length = 32) ∧
      ∃ r : Option (Octets 32), entry.rand.map B.decode = r.map (fun r => .ok r.bytes) ∧
        decoded.randBytes = r.map Octets.bytes := by
  simp only [decodeEntryBase64, Outcome.bind_ok_iff, Outcome.mapErr_ok_iff, decode32_ok_iff,
    decodeRand_ok_iff]
  constructor
  · rintro ⟨_, h₁, _, h₂, _, h₃, _, h₄, h⟩
    cases h
    exact ⟨h₁, h₂, h₃, h₄⟩
  · rintro ⟨h₁, h₂, h₃, h₄⟩
    exact ⟨_, h₁, _, h₂, _, h₃, _, h₄, rfl⟩

theorem validateChaining_ok_iff {o : Observation} {decoded : DecodedEntry}
    {previousResponse : Option Response} {index : Nat} {u : Unit}
    (hrand : decoded.randBytes = o.rand.map Octets.bytes) :
    validateChaining H o.request decoded previousResponse index = .ok u ↔
      o.Linked H previousResponse := by
  unfold validateChaining Observation.Linked
  rw [hrand]
  cases previousResponse with
  | none => cases o.rand <;> simp
  | some prevResponse =>
      cases o.rand with
      | none => simp
      | some r =>
          simp only [Option.map_some, calculateChainedNonce_eq, Outcome.ok_bind,
            Outcome.failIf_ok_iff, not_not, Option.some.injEq, exists_eq_left']

/-- What the loop body insists on. -/
theorem checkEntry_ok_iff {previousResponse next : Option Response} {x : ReportEntry × Nat} :
    checkEntry B V H previousResponse x = .ok next ↔
      ∃ o : Observation, o.Spelled B x.1 ∧ o.Valid V H ∧ o.Linked H previousResponse ∧
        next = some o.response := by
  simp only [checkEntry, parseInteractionPair, validateEntry, Outcome.bind_ok_iff,
    Outcome.mapErr_ok_iff, decodeEntryBase64_ok_iff, Outcome.pure_eq, Outcome.ok.injEq]
  constructor
  · rintro ⟨decoded, ⟨hrequest, hresponse, ⟨hkey, hlen⟩, r, hr, hrand⟩, ⟨request, response⟩,
      ⟨_, hreq, _, hres, hpair⟩, _, ⟨K, hK, t, hvalid, -⟩, _, hchain, hnext⟩
    cases hpair
    obtain ⟨hv, rfl⟩ := ResponseValidator.validateDraft14_ok_iff.mp hvalid
    rw [publicKeyFrom, dif_pos hlen] at hK
    cases hK
    refine ⟨⟨decoded.requestBytes, decoded.responseBytes, ⟨decoded.publicKeyBytes, hlen⟩, r,
      request, response⟩, ⟨hrequest, hresponse, hkey, hr⟩, ⟨hreq, hres, hvalid⟩, ?_, hnext.symm⟩
    exact (validateChaining_ok_iff (o := ⟨_, _, ⟨decoded.publicKeyBytes, hlen⟩, r, request,
      response⟩) hrand).mp hchain
  · rintro ⟨o, hspelled, hvalid, hlinked, rfl⟩
    refine ⟨⟨o.requestBytes, o.responseBytes, o.publicKey.bytes, o.rand.map Octets.bytes⟩,
      ⟨hspelled.request, hspelled.response, ⟨hspelled.publicKey, o.publicKey.size_eq⟩, o.rand,
        hspelled.rand, rfl⟩, (o.request, o.response),
      ⟨o.request, hvalid.request, o.response, hvalid.response, rfl⟩, (),
      ⟨o.publicKey, dif_pos o.publicKey.size_eq, _, hvalid.accepted, trivial⟩, (), ?_, rfl⟩
    exact (validateChaining_ok_iff rfl).mpr hlinked

/-- Entry by entry, the observations of a list of entries; the first is chained to
`previousResponse`. -/
def Observed (B : Codec) (V : Verify) (H : Bytes → Hash) :
    Option Response → List ReportEntry → List Observation → Prop
  | _, [], [] => True
  | previousResponse, entry :: entries, o :: os =>
      (o.Spelled B entry ∧ o.Valid V H ∧ o.Linked H previousResponse) ∧
        Observed B V H (some o.response) entries os
  | _, _, _ => False

theorem foldlM_checkEntry_ok_iff {previousResponse : Option Response}
    {entries : List ReportEntry} {start : Nat} :
    (∃ last, (entries.zipIdx start).foldlM (checkEntry B V H) previousResponse = .ok last) ↔
      ∃ os, Observed B V H previousResponse entries os := by
  induction entries generalizing previousResponse start with
  | nil => exact ⟨fun _ => ⟨[], trivial⟩, fun _ => ⟨previousResponse, rfl⟩⟩
  | cons entry entries ih =>
      rw [List.zipIdx_cons]
      simp only [List.foldlM_cons, Outcome.bind_ok_iff]
      constructor
      · rintro ⟨last, next, hentry, hlater⟩
        obtain ⟨o, hspelled, hvalid, hlinked, rfl⟩ := checkEntry_ok_iff.mp hentry
        obtain ⟨os, hos⟩ := ih.mp ⟨last, hlater⟩
        exact ⟨o :: os, ⟨hspelled, hvalid, hlinked⟩, hos⟩
      · rintro ⟨os, hos⟩
        cases os with
        | nil => exact hos.elim
        | cons o os =>
            obtain ⟨⟨hspelled, hvalid, hlinked⟩, hos⟩ := hos
            obtain ⟨last, hlater⟩ := ih.mpr ⟨os, hos⟩
            exact ⟨last, some o.response,
              checkEntry_ok_iff.mpr ⟨o, hspelled, hvalid, hlinked, rfl⟩, hlater⟩

theorem validateReport_ok_iff {report : MalfeasanceReport} :
    validateReport B V H report = .ok () ↔
      2 ≤ report.responses.length ∧ ∃ os, Observed B V H none report.responses os := by
  have hloop : (∃ last, report.responses.zipIdx.foldlM (checkEntry B V H) none = .ok last) ↔
      ∃ os, Observed B V H none report.responses os := foldlM_checkEntry_ok_iff
  simp only [validateReport, Outcome.bind_ok_iff, Outcome.failIf_ok_iff, Nat.not_lt]
  constructor
  · rintro ⟨_, hlen, last, hlast, -⟩
    exact ⟨hlen, hloop.mp ⟨last, hlast⟩⟩
  · rintro ⟨hlen, hos⟩
    obtain ⟨last, hlast⟩ := hloop.mpr hos
    exact ⟨(), hlen, last, hlast, rfl⟩

/-- An observation of a report, at its place: behind another one it is chained to it. -/
theorem Observed.at {previousResponse : Option Response} {entries : List ReportEntry}
    {os : List Observation} (h : Observed B V H previousResponse entries os) :
    os.length = entries.length ∧ ∀ (k : Nat) (entry : ReportEntry) (o : Observation),
      entries[k]? = some entry → os[k]? = some o → o.Spelled B entry ∧ o.Valid V H ∧
        (k = 0 → o.Linked H previousResponse) ∧
        ∀ p, 0 < k → os[k - 1]? = some p → o.Linked H (some p.response) := by
  induction entries generalizing previousResponse os with
  | nil =>
      cases os with
      | nil => exact ⟨rfl, fun _ _ _ hk => by cases hk⟩
      | cons o os => exact h.elim
  | cons entry entries ih =>
      cases os with
      | nil => exact h.elim
      | cons o os =>
          obtain ⟨⟨hspelled, hvalid, hlinked⟩, hos⟩ := h
          obtain ⟨hlen, hat⟩ := ih hos
          refine ⟨congrArg (· + 1) hlen, ?_⟩
          intro k entry' o' hentry ho
          cases k with
          | zero =>
              cases hentry
              cases ho
              exact ⟨hspelled, hvalid, fun _ => hlinked, fun _ h0 => absurd h0 (by decide)⟩
          | succ k =>
              obtain ⟨hspelled', hvalid', hfirst, hnext⟩ := hat k entry' o' hentry ho
              refine ⟨hspelled', hvalid', fun h0 => absurd h0 (by omega), ?_⟩
              intro p _ hp
              cases k with
              | zero =>
                  cases hp
                  exact hfirst rfl
              | succ k => exact hnext p (Nat.succ_pos k) hp

end Spec

/-! ## The entries that a client makes -/

/-- The entry of a measurement, and what it says. -/
def entryOf (B : Codec) (K : PublicKey) (m : Measurement) : ReportEntry :=
  ⟨m.randValue.map fun r => B.encode r.bytes, B.encode (framed m.request.encode),
    B.encode (framed m.response.encode), B.encode K.bytes⟩

def observationOf (K : PublicKey) (m : Measurement) : Observation :=
  ⟨framed m.request.encode, framed m.response.encode, K, m.randValue, m.request, m.response⟩

theorem spelled_entryOf {B : Codec} (hB : B.Inverse) (K : PublicKey) (m : Measurement) :
    (observationOf K m).Spelled B (entryOf B K m) := by
  refine ⟨hB _, hB _, hB _, ?_⟩
  show (m.randValue.map _).map B.decode = m.randValue.map _
  rw [Option.map_map]
  exact congrArg (Option.map · m.randValue) (funext fun r => hB r.bytes)

/-! ## The storage -/

structure StoredReport where
  id : String
  timestamp : Int
  sourceIp : String
  report : MalfeasanceReport

/-- `InMemoryStorage`: a map from ids to reports. -/
abbrev Storage := List (String × StoredReport)

/-- `HashMap::insert`. -/
def Storage.insert (storage : Storage) (id : String) (stored : StoredReport) : Storage :=
  (id, stored) :: storage.filter fun x => x.1 ≠ id

/-- A POST of a report, with the id and the time that the storage draws for it. -/
structure Submission where
  report : MalfeasanceReport
  sourceIp : String
  id : String
  now : Int

/-- `handle_report`: the storage afterwards, and the status with the id or the text of the error. -/
def handleReport (B : Codec) (V : Verify) (H : Bytes → Hash) (storage : Storage)
    (x : Submission) : Storage × Outcome (Nat × String) (Nat × String) :=
  match validateReport B V H x.report with
  | .ok _ => (storage.insert x.id ⟨x.id, x.now, x.sourceIp, x.report⟩, .ok (201, x.id))
  | .err e => (storage, .err (400, e))
  | .panic => (storage, .panic)

/-- The storage of a server that was sent `xs`. -/
def storageAfter (B : Codec) (V : Verify) (H : Bytes → Hash) (xs : List Submission) : Storage :=
  xs.foldl (fun storage x => (handleReport B V H storage x).1) []

section Stored

variable {B : Codec} {V : Verify} {H : Bytes → Hash}

/-- A submission adds its own report, when it is accepted, and nothing else. -/
theorem mem_handleReport {storage : Storage} {x : Submission} {y : String × StoredReport}
    (h : y ∈ (handleReport B V H storage x).1) :
    y ∈ storage ∨ validateReport B V H y.2.report = .ok () := by
  unfold handleReport at h
  split at h
  · rename_i hok
    rcases List.mem_cons.mp h with rfl | h
    · exact .inr hok
    · exact .inl (List.mem_of_mem_filter h)
  · exact .inl h
  · exact .inl h

/-- An accepted report is stored. -/
theorem mem_storageAfter_concat (xs : List Submission) {x : Submission}
    (h : validateReport B V H x.report = .ok ()) :
    (x.id, ⟨x.id, x.now, x.sourceIp, x.report⟩) ∈ storageAfter B V H (xs ++ [x]) := by
  unfold storageAfter
  rw [List.foldl_append]
  show _ ∈ (handleReport B V H _ x).1
  unfold handleReport
  rw [h]
  exact List.mem_cons_self

theorem mem_storageAfter (xs : List Submission) :
    ∀ y ∈ storageAfter B V H xs, validateReport B V H y.2.report = .ok () := by
  unfold storageAfter
  induction xs using List.reverseRecOn with
  | nil => exact fun y hy => absurd hy List.not_mem_nil
  | append_singleton xs x ih =>
      intro y hy
      rw [List.foldl_append] at hy
      rcases mem_handleReport hy with hold | hnew
      · exact ih y hold
      · exact hnew

end Stored

/-- A report that is accepted, and so every report that a server has stored, consists of at least
two entries, each a response that is valid for its request and key, and each but the first chained
to the response before it.  Nothing is said about the times. -/
theorem stored_reports_linked (B : Codec) (V : Verify) (H : Bytes → Hash) :
    (∀ xs, ∀ y ∈ storageAfter B V H xs, validateReport B V H y.2.report = .ok ()) ∧
    ∀ report, validateReport B V H report = .ok () →
      ∃ os : List Observation, 2 ≤ os.length ∧ os.length = report.responses.length ∧
        ∀ (k : Nat) (entry : ReportEntry) (o : Observation), report.responses[k]? = some entry →
          os[k]? = some o → o.Spelled B entry ∧ o.Valid V H ∧ (k = 0 → o.rand = none) ∧
            ∀ p, 0 < k → os[k - 1]? = some p → ∃ r, o.rand = some r ∧
              o.request.nonc = H (framed p.response.encode ++ r.bytes) := by
  refine ⟨mem_storageAfter, ?_⟩
  intro report h
  obtain ⟨hlen, os, hos⟩ := validateReport_ok_iff.mp h
  obtain ⟨hsame, hat⟩ := hos.at
  exact ⟨os, hsame ▸ hlen, hsame, hat⟩

/-! ## A report of two servers that agree -/

namespace Orderly

open Network

theorem observed14 (midp : UInt64) (prior : Option Response) (k : Nat)
    (hmint : 1000 ≤ midp.toNat) (hmaxt : midp.toNat ≤ 5000) :
    (observationOf longTermKey (measurement14 midp prior k)).Spelled base64
        (entryOf base64 longTermKey (measurement14 midp prior k)) ∧
      (observationOf longTermKey (measurement14 midp prior k)).Valid verify digest ∧
      (observationOf longTermKey (measurement14 midp prior k)).Linked digest prior := by
  obtain ⟨hparse, hvalid⟩ := reply14_valid midp prior k hmint hmaxt
  refine ⟨spelled_entryOf base64_inverse _ _,
    ⟨Request.fromFrame_newDraft14WithServerCommitment _ _, hparse, hvalid⟩, ?_⟩
  cases prior with
  | none => rfl
  | some p => exact ⟨random k, rfl, rfl⟩

/-- Two measurements, the second with the later time. -/
def report : MalfeasanceReport :=
  ⟨[entryOf base64 longTermKey (first14 2000), entryOf base64 longTermKey (second14 2000 3000)]⟩

theorem report_observed : Observed base64 verify digest none report.responses
    [observationOf longTermKey (first14 2000), observationOf longTermKey (second14 2000 3000)] :=
  ⟨observed14 2000 none 0 (by decide) (by decide),
    observed14 3000 _ 1 (by decide) (by decide), trivial⟩

end Orderly

open Network Orderly

theorem stored_reports_linked_orderly :
    ∃ os : List Observation, 2 ≤ os.length ∧ os.length = 2 ∧
      ∀ o, os[1]? = some o → o.Valid verify digest := by
  obtain ⟨os, hlen, hsame, hat⟩ := (stored_reports_linked base64 verify digest).2 report
    (validateReport_ok_iff.mpr ⟨Nat.le_refl 2, _, report_observed⟩)
  refine ⟨os, hlen, hsame, ?_⟩
  intro o ho
  exact (hat 1 _ o rfl ho).2.1

/-- The report is accepted and stored, and no two of its entries contradict each other. -/
theorem orderly_report_stored :
    validateReport base64 verify digest report = .ok () ∧
    (∀ (ip id : String) (now : Int), (id, ⟨id, now, ip, report⟩) ∈
      storageAfter base64 verify digest [⟨report, ip, id, now⟩]) ∧
    Observed base64 verify digest none report.responses
      [observationOf longTermKey (first14 2000), observationOf longTermKey (second14 2000 3000)] ∧
    ¬ ∃ (i j : Nat) (oᵢ oⱼ : Observation), i < j ∧
      [observationOf longTermKey (first14 2000), observationOf longTermKey (second14 2000 3000)][i]? = some oᵢ ∧
      [observationOf longTermKey (first14 2000), observationOf longTermKey (second14 2000 3000)][j]? = some oⱼ ∧
      (oᵢ.response.srep.midpoint.toNat : Int) - oᵢ.response.srep.radius.toNat >
        oⱼ.response.srep.midpoint.toNat + oⱼ.response.srep.radius.toNat := by
  have hok : validateReport base64 verify digest report = .ok () :=
    validateReport_ok_iff.mpr ⟨Nat.le_refl 2, _, report_observed⟩
  refine ⟨hok, ?_, report_observed, ?_⟩
  · intro ip id now
    exact mem_storageAfter_concat [] (x := ⟨report, ip, id, now⟩) hok
  · rintro ⟨i, j, oᵢ, oⱼ, hij, hi, hj, hgt⟩
    have hj2 := (List.getElem?_eq_some_iff.mp hj).1
    obtain ⟨rfl, rfl⟩ : i = 0 ∧ j = 1 := by
      simp only [List.length_cons, List.length_nil] at hj2
      omega
    have hi' : observationOf longTermKey (first14 2000) = oᵢ := Option.some.inj hi
    have hj' : observationOf longTermKey (second14 2000 3000) = oⱼ := Option.some.inj hj
    have hmidᵢ : oᵢ.response.srep.midpoint.toNat = 2000 := by
      rw [← hi']
      rfl
    have hmidⱼ : oⱼ.response.srep.midpoint.toNat = 3000 := by
      rw [← hj']
      rfl
    omega

end Roughenough.ReportingServer
