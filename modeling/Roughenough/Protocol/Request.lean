/-
# `Roughenough.Protocol.Request` — requests

`request.rs`: the three request layouts and the reader that tells them apart
by their number of tags.

    draft-08        VER NONC ZZZZ               padding 952
    draft-14        VER NONC TYPE ZZZZ          padding 940
    draft-14 + SRV  VER SRV NONC TYPE ZZZZ      padding 900

Of the offset table the readers use the first entry alone, as the length of
VER; the fixed-size values are taken one after the other and the padding is
not looked at.
-/
import Roughenough.Protocol.Frame

namespace Roughenough.Protocol

open Roughenough.Base ParseCursor

/-- `REQUEST_SIZE`: a request is exactly this long, frame included. -/
def requestSize : Nat := 1024

/-! ## The three layouts -/

structure RequestDraft08 where
  header : Header3
  version : RequestedVersions
  nonce : Nonce
  padding : Octets 952
  tags_eq : header.tags.1 = [.ver, .nonc, .zzzz]
  deriving DecidableEq

structure RequestDraft14 where
  header : Header4
  version : RequestedVersions
  nonce : Nonce
  msgType : MessageType
  padding : Octets 940
  tags_eq : header.tags.1 = [.ver, .nonc, .type, .zzzz]
  deriving DecidableEq

structure RequestDraft14Srv where
  header : Header5
  version : RequestedVersions
  server : SrvCommitment
  nonce : Nonce
  msgType : MessageType
  padding : Octets 900
  tags_eq : header.tags.1 = [.ver, .srv, .nonc, .type, .zzzz]
  deriving DecidableEq

/-- The VER list a request was read from: `ws` spells it, and its length is the first offset
unless the list was cut at 32 entries. -/
structure ReadsVersions (l : RequestedVersions) (verLen : Nat) (ws : List UInt32) : Prop where
  words : VersionList.Words l.versions ws
  ascending : VersionList.Ascending none l.versions
  size_eq : 4 * l.versions.length = min verLen 128

theorem ReadsVersions.length_eq {l : RequestedVersions} {n : Nat} {ws : List UInt32}
    (h : ReadsVersions l n ws) : (ws.flatMap leBytes32).length = min n 128 := by
  rw [VersionList.flatMap_words_length, h.words.length_eq, h.size_eq]

/-- The bounds of a header, counted from in front of it. -/
theorem inBounds_behind {n : Nat} {h : Header n} {c c₁ : ParseCursor}
    (hb : h.InBounds c₁.remaining) (hc : Consumes c h.encode c₁) :
    h.InBounds (c.remaining - Header.sizeOf n) := by
  have hrem : c.remaining - Header.sizeOf n = c₁.remaining := by
    rw [hc.remaining_eq, h.encode_length, Nat.add_sub_cancel_left]
  rwa [hrem]

namespace RequestDraft08

/-- Where NONC begins in a framed request with a VER of one entry. -/
def framedNonceOffset : Nat := 40

def default : RequestDraft08 where
  header := ⟨⟨[4, 4 + 32], rfl⟩, ⟨[.ver, .nonc, .zzzz], rfl⟩⟩
  version := VersionList.new [.rfcDraft08]
  nonce := Octets.zero 32
  padding := Octets.zero 952
  tags_eq := rfl

def new (nonce : Nonce) : RequestDraft08 := { default with nonce := nonce }

def wireSize (r : RequestDraft08) : Nat := Header.sizeOf 3 + r.version.wireSize + 32 + 952

def toWire (r : RequestDraft08) : Wire Unit := do
  let c ← Prog.read
  Prog.failIf (c.remaining < r.wireSize) (.bufferTooSmall r.wireSize c.remaining)
  r.header.toWire
  r.version.toWire
  FixedTag.toWire r.nonce
  putSlice r.padding.bytes

def fromWire : Wire RequestDraft08 := do
  let ⟨header, tagsOk⟩ ← Header.fromWireTagged 3 [.ver, .nonc, .zzzz]
  let version ← VersionList.fromWireN (header.offset 0)
  let nonce ← Nonce.fromWire
  pure ⟨header, version, nonce, Octets.zero 952, tagsOk⟩

def encode (r : RequestDraft08) : Bytes :=
  r.header.encode ++ (r.version.encode ++ (r.nonce.bytes ++ r.padding.bytes))

theorem encode_length (r : RequestDraft08) : r.encode.length = r.wireSize := by
  simp only [encode, List.length_append, Header.encode_length, VersionList.encode_length,
    Octets.bytes_length, wireSize]
  omega

theorem toWire_writes (r : RequestDraft08) : Writes r.toWire r.encode := by
  refine Writes.guarded ?_ fun c _ hlen => by rwa [r.encode_length] at hlen
  exact (Header.toWire_writes _).seq ((VersionList.toWire_writes _).seq
    ((FixedTag.toWire_writes _).seq (Writes.putSlice _)))

/-- An accepted request: VER, NONC and whatever follows, right behind the header. -/
theorem fromWire_ok {r : RequestDraft08} {c c' : ParseCursor} (h : fromWire c = .ok (r, c')) :
    r.header.WellFormed ∧ r.header.InBounds (c.remaining - Header.sizeOf 3) ∧
      ∃ ws, ReadsVersions r.version (r.header.offset 0) ws ∧
      Consumes c (r.header.encode ++ (ws.flatMap leBytes32 ++ r.nonce.bytes)) c' := by
  simp only [fromWire, Prog.bind_ok_iff, Header.fromWireTagged_ok_iff, Nonce.fromWire_ok_iff,
    Prog.pure_ok_iff] at h
  obtain ⟨⟨h, ht⟩, c₁, ⟨hwf, hb, h₁⟩, v, c₂, h₂, nonce, c₃, h₃, rfl, rfl⟩ := h
  obtain ⟨ws, hws, hasc, hlen, h₂⟩ := (VersionList.fromWireN_ok_iff (hwf.aligned 0)).mp h₂
  exact ⟨hwf, inBounds_behind hb h₁, ws, ⟨hws, hasc, hlen⟩, h₁.trans (h₂.trans h₃)⟩

theorem safe_fromWire (c : ParseCursor) : Prog.Safe fromWire c := by
  refine (Header.safe_fromWireTagged 3 _ c).bind fun ⟨h, _⟩ c₁ h₁ => ?_
  obtain ⟨hwf, -⟩ := Header.fromWireTagged_ok_iff.mp h₁
  exact (VersionList.safe_fromWireN (hwf.aligned 0) c₁).bind fun _ c₂ _ =>
    (safe_tryGetFixed (n := 32) (by decide) c₂).bind fun _ _ _ => Prog.safe_pure _ _

end RequestDraft08

namespace RequestDraft14

def default : RequestDraft14 where
  header := ⟨⟨[4, 4 + 32, 4 + 32 + 4], rfl⟩, ⟨[.ver, .nonc, .type, .zzzz], rfl⟩⟩
  version := RequestedVersions.default
  nonce := Octets.zero 32
  msgType := .request
  padding := Octets.zero 940
  tags_eq := rfl

def new (nonce : Nonce) : RequestDraft14 := { default with nonce := nonce }

def wireSize (r : RequestDraft14) : Nat := Header.sizeOf 4 + r.version.wireSize + 32 + 4 + 940

def toWire (r : RequestDraft14) : Wire Unit := do
  let c ← Prog.read
  Prog.failIf (c.remaining < r.wireSize) (.bufferTooSmall r.wireSize c.remaining)
  r.header.toWire
  r.version.toWire
  FixedTag.toWire r.nonce
  r.msgType.toWire
  putSlice r.padding.bytes

def fromWire : Wire RequestDraft14 := do
  let ⟨header, tagsOk⟩ ← Header.fromWireTagged 4 [.ver, .nonc, .type, .zzzz]
  let version ← VersionList.fromWireN (header.offset 0)
  let nonce ← Nonce.fromWire
  let msgType ← MessageType.fromWire
  Prog.failIf (msgType ≠ .request) (.invalidMessageType msgType.value.toNat)
  pure ⟨header, version, nonce, msgType, Octets.zero 940, tagsOk⟩

def encode (r : RequestDraft14) : Bytes :=
  r.header.encode ++ (r.version.encode ++ (r.nonce.bytes ++
    (leBytes32 r.msgType.value ++ r.padding.bytes)))

theorem encode_length (r : RequestDraft14) : r.encode.length = r.wireSize := by
  simp only [encode, List.length_append, Header.encode_length, VersionList.encode_length,
    Octets.bytes_length, leBytes32_length, wireSize]
  omega

theorem toWire_writes (r : RequestDraft14) : Writes r.toWire r.encode := by
  refine Writes.guarded ?_ fun c _ hlen => by rwa [r.encode_length] at hlen
  exact (Header.toWire_writes _).seq ((VersionList.toWire_writes _).seq
    ((FixedTag.toWire_writes _).seq ((MessageType.toWire_writes _).seq (Writes.putSlice _))))

theorem fromWire_ok {r : RequestDraft14} {c c' : ParseCursor} (h : fromWire c = .ok (r, c')) :
    r.header.WellFormed ∧ r.header.InBounds (c.remaining - Header.sizeOf 4) ∧
      ∃ ws, ReadsVersions r.version (r.header.offset 0) ws ∧
        Consumes c (r.header.encode ++ (ws.flatMap leBytes32 ++ (r.nonce.bytes ++
          leBytes32 r.msgType.value))) c' := by
  simp only [fromWire, Prog.bind_ok_iff, Header.fromWireTagged_ok_iff, Nonce.fromWire_ok_iff,
    MessageType.fromWire_ok_iff, Prog.failIf_ok_iff, Prog.pure_ok_iff] at h
  obtain ⟨⟨h, ht⟩, c₁, ⟨hwf, hb, h₁⟩, v, c₂, h₂, nonce, c₃, h₃, t, c₄, ⟨-, h₄⟩, _, _,
    ⟨-, rfl⟩, rfl, rfl⟩ := h
  obtain ⟨ws, hws, hasc, hlen, h₂⟩ := (VersionList.fromWireN_ok_iff (hwf.aligned 0)).mp h₂
  exact ⟨hwf, inBounds_behind hb h₁, ws, ⟨hws, hasc, hlen⟩,
    h₁.trans (h₂.trans (h₃.trans h₄))⟩

theorem safe_fromWire (c : ParseCursor) : Prog.Safe fromWire c := by
  refine (Header.safe_fromWireTagged 4 _ c).bind fun ⟨h, _⟩ c₁ h₁ => ?_
  obtain ⟨hwf, -⟩ := Header.fromWireTagged_ok_iff.mp h₁
  exact (VersionList.safe_fromWireN (hwf.aligned 0) c₁).bind fun _ c₂ _ =>
    (safe_tryGetFixed (n := 32) (by decide) c₂).bind fun _ c₃ _ =>
      (MessageType.safe_fromWire c₃).bind fun _ _ _ => (Prog.safe_failIf _ _ _).bind fun _ _ _ =>
        Prog.safe_pure _ _

end RequestDraft14

namespace RequestDraft14Srv

def default : RequestDraft14Srv where
  header :=
    ⟨⟨[4, 4 + 32, 4 + 32 + 32, 4 + 32 + 32 + 4], rfl⟩, ⟨[.ver, .srv, .nonc, .type, .zzzz], rfl⟩⟩
  version := RequestedVersions.default
  server := Octets.zero 32
  nonce := Octets.zero 32
  msgType := .request
  padding := Octets.zero 900
  tags_eq := rfl

def new (nonce : Nonce) (server : SrvCommitment) : RequestDraft14Srv :=
  { default with server := server, nonce := nonce }

def wireSize (r : RequestDraft14Srv) : Nat :=
  Header.sizeOf 5 + r.version.wireSize + 32 + 32 + 4 + 900

def toWire (r : RequestDraft14Srv) : Wire Unit := do
  let c ← Prog.read
  Prog.failIf (c.remaining < r.wireSize) (.bufferTooSmall r.wireSize c.remaining)
  r.header.toWire
  r.version.toWire
  FixedTag.toWire r.server
  FixedTag.toWire r.nonce
  r.msgType.toWire
  putSlice r.padding.bytes

def fromWire : Wire RequestDraft14Srv := do
  let ⟨header, tagsOk⟩ ← Header.fromWireTagged 5 [.ver, .srv, .nonc, .type, .zzzz]
  let version ← VersionList.fromWireN (header.offset 0)
  let server ← SrvCommitment.fromWire
  let nonce ← Nonce.fromWire
  let msgType ← MessageType.fromWire
  Prog.failIf (msgType ≠ .request) (.invalidMessageType msgType.value.toNat)
  pure ⟨header, version, server, nonce, msgType, Octets.zero 900, tagsOk⟩

def encode (r : RequestDraft14Srv) : Bytes :=
  r.header.encode ++ (r.version.encode ++ (r.server.bytes ++ (r.nonce.bytes ++
    (leBytes32 r.msgType.value ++ r.padding.bytes))))

theorem encode_length (r : RequestDraft14Srv) : r.encode.length = r.wireSize := by
  simp only [encode, List.length_append, Header.encode_length, VersionList.encode_length,
    Octets.bytes_length, leBytes32_length, wireSize]
  omega

theorem toWire_writes (r : RequestDraft14Srv) : Writes r.toWire r.encode := by
  refine Writes.guarded ?_ fun c _ hlen => by rwa [r.encode_length] at hlen
  exact (Header.toWire_writes _).seq ((VersionList.toWire_writes _).seq
    ((FixedTag.toWire_writes _).seq ((FixedTag.toWire_writes _).seq
      ((MessageType.toWire_writes _).seq (Writes.putSlice _)))))

theorem fromWire_ok {r : RequestDraft14Srv} {c c' : ParseCursor} (h : fromWire c = .ok (r, c')) :
    r.header.WellFormed ∧ r.header.InBounds (c.remaining - Header.sizeOf 5) ∧
      ∃ ws, ReadsVersions r.version (r.header.offset 0) ws ∧
        Consumes c (r.header.encode ++ (ws.flatMap leBytes32 ++ (r.server.bytes ++
          (r.nonce.bytes ++ leBytes32 r.msgType.value)))) c' := by
  simp only [fromWire, Prog.bind_ok_iff, Header.fromWireTagged_ok_iff, Nonce.fromWire_ok_iff,
    SrvCommitment.fromWire_ok_iff, MessageType.fromWire_ok_iff, Prog.failIf_ok_iff,
    Prog.pure_ok_iff] at h
  obtain ⟨⟨h, ht⟩, c₁, ⟨hwf, hb, h₁⟩, v, c₂, h₂, srv, c₃, h₃, nonce, c₄, h₄, t, c₅, ⟨-, h₅⟩,
    _, _, ⟨-, rfl⟩, rfl, rfl⟩ := h
  obtain ⟨ws, hws, hasc, hlen, h₂⟩ := (VersionList.fromWireN_ok_iff (hwf.aligned 0)).mp h₂
  exact ⟨hwf, inBounds_behind hb h₁, ws, ⟨hws, hasc, hlen⟩,
    h₁.trans (h₂.trans (h₃.trans (h₄.trans h₅)))⟩

theorem safe_fromWire (c : ParseCursor) : Prog.Safe fromWire c := by
  refine (Header.safe_fromWireTagged 5 _ c).bind fun ⟨h, _⟩ c₁ h₁ => ?_
  obtain ⟨hwf, -⟩ := Header.fromWireTagged_ok_iff.mp h₁
  exact (VersionList.safe_fromWireN (hwf.aligned 0) c₁).bind fun _ c₂ _ =>
    (safe_tryGetFixed (n := 32) (by decide) c₂).bind fun _ c₃ _ =>
      (safe_tryGetFixed (n := 32) (by decide) c₃).bind fun _ c₄ _ =>
        (MessageType.safe_fromWire c₄).bind fun _ _ _ =>
          (Prog.safe_failIf _ _ _).bind fun _ _ _ => Prog.safe_pure _ _

end RequestDraft14Srv

/-! ## Requests -/

inductive Request where
  | draft08 (req : RequestDraft08)
  | draft14 (req : RequestDraft14)
  | draft14Srv (req : RequestDraft14Srv)
  deriving DecidableEq

namespace Request

def newDraft14 (nonce : Nonce) : Request := draft14 (RequestDraft14.new nonce)

def newDraft08 (nonce : Nonce) : Request := draft08 (RequestDraft08.new nonce)

def newDraft14WithServerCommitment (nonce : Nonce) (server : SrvCommitment) : Request :=
  draft14Srv (RequestDraft14Srv.new nonce server)

def ver : Request → RequestedVersions
  | draft08 req => req.version
  | draft14 req => req.version
  | draft14Srv req => req.version

def nonc : Request → Nonce
  | draft08 req => req.nonce
  | draft14 req => req.nonce
  | draft14Srv req => req.nonce

def msgType : Request → MessageType
  | draft08 _ => .request
  | draft14 req => req.msgType
  | draft14Srv req => req.msgType

def srv : Request → Option SrvCommitment
  | draft08 _ => none
  | draft14 _ => none
  | draft14Srv req => some req.server

/-- Whether there is a TYPE in the layout; `msgType` is `Request` in all three. -/
def hasType : Request → Bool
  | draft08 _ => false
  | draft14 _ => true
  | draft14Srv _ => true

def wireSize : Request → Nat
  | draft08 req => req.wireSize
  | draft14 req => req.wireSize
  | draft14Srv req => req.wireSize

def toWire : Request → Wire Unit
  | draft08 req => req.toWire
  | draft14 req => req.toWire
  | draft14Srv req => req.toWire

def encode : Request → Bytes
  | draft08 req => req.encode
  | draft14 req => req.encode
  | draft14Srv req => req.encode

/-- `from_wire`: the number of tags is read, the cursor set back, and the variant chosen. -/
def fromWire : Wire Request := do
  let c ← Prog.read
  Prog.failIf (c.remaining ≠ 1012) (.badRequestSize c.remaining)
  let numTags ← tryGetU32Le
  setPosition c.position
  if numTags = 3 then do
    let req ← RequestDraft08.fromWire
    pure (draft08 req)
  else if numTags = 4 then do
    let req ← RequestDraft14.fromWire
    pure (draft14 req)
  else if numTags = 5 then do
    let req ← RequestDraft14Srv.fromWire
    pure (draft14Srv req)
  else Prog.fail (.invalidRequestNumTags numTags.toNat "3, 4, or 5")

/-- `Request::from_frame` on a whole buffer. -/
def fromFrame (b : Bytes) : Outcome Error Request := do
  let r ← Protocol.fromFrame fromWire (new b)
  pure r.1

def asFrameBytes (r : Request) : Outcome Error Bytes := Protocol.asFrameBytes r.wireSize r.toWire

theorem encode_length (r : Request) : r.encode.length = r.wireSize := by
  cases r with
  | draft08 req => exact req.encode_length
  | draft14 req => exact req.encode_length
  | draft14Srv req => exact req.encode_length

theorem toWire_writes (r : Request) : Writes r.toWire r.encode := by
  cases r with
  | draft08 req => exact req.toWire_writes
  | draft14 req => exact req.toWire_writes
  | draft14Srv req => exact req.toWire_writes

theorem asFrameBytes_eq (r : Request) : r.asFrameBytes = .ok (framed r.encode) :=
  asFrameBytes_writes r.toWire_writes r.encode_length

/-- Setting the position back after a peek undoes the read. -/
theorem peek_ok {c c₁ c₂ : ParseCursor} {bs : Bytes} {u : Unit} (h : Consumes c bs c₁)
    (hs : setPosition c.position c₁ = .ok (u, c₂)) : c₂ = c := by
  simp only [setPosition, Prog.bind_ok_iff, Prog.read_ok_iff, Prog.write_ok_iff] at hs
  obtain ⟨_, _, ⟨rfl, rfl⟩, rfl⟩ := hs
  rw [h.data_eq]

/-- An accepted request is 1012 bytes and one of the three layouts. -/
theorem fromWire_ok {r : Request} {c c' : ParseCursor} (h : fromWire c = .ok (r, c')) :
    c.remaining = 1012 ∧
      ((∃ req, r = draft08 req ∧ RequestDraft08.fromWire c = .ok (req, c')) ∨
       (∃ req, r = draft14 req ∧ RequestDraft14.fromWire c = .ok (req, c')) ∨
       (∃ req, r = draft14Srv req ∧ RequestDraft14Srv.fromWire c = .ok (req, c'))) := by
  simp only [fromWire, Prog.bind_ok_iff, Prog.read_ok_iff, Prog.failIf_ok_iff,
    tryGetU32Le_ok_iff] at h
  obtain ⟨_, _, ⟨rfl, rfl⟩, _, _, ⟨hrem, rfl⟩, k, c₁, h₁, _, c₂, h₂, h⟩ := h
  obtain rfl := peek_ok h₁ h₂
  refine ⟨not_not.mp hrem, ?_⟩
  by_cases h3 : k = 3
  · rw [if_pos h3, Prog.bind_ok_iff] at h
    obtain ⟨req, c₃, hreq, h⟩ := h
    obtain ⟨rfl, rfl⟩ := Prog.pure_ok_iff.mp h
    exact .inl ⟨req, rfl, hreq⟩
  · rw [if_neg h3] at h
    by_cases h4 : k = 4
    · rw [if_pos h4, Prog.bind_ok_iff] at h
      obtain ⟨req, c₃, hreq, h⟩ := h
      obtain ⟨rfl, rfl⟩ := Prog.pure_ok_iff.mp h
      exact .inr (.inl ⟨req, rfl, hreq⟩)
    · rw [if_neg h4] at h
      by_cases h5 : k = 5
      · rw [if_pos h5, Prog.bind_ok_iff] at h
        obtain ⟨req, c₃, hreq, h⟩ := h
        obtain ⟨rfl, rfl⟩ := Prog.pure_ok_iff.mp h
        exact .inr (.inr ⟨req, rfl, hreq⟩)
      · rw [if_neg h5, Prog.fail_ok_iff] at h
        exact h.elim

theorem safe_fromWire (c : ParseCursor) : Prog.Safe fromWire c := by
  refine (Prog.safe_read _).bind fun _ _ _ => ?_
  refine (Prog.safe_failIf _ _ _).bind fun _ c₁ _ => ?_
  refine (safe_tryGetU32Le c₁).bind fun k c₂ _ => ?_
  refine ((Prog.safe_read _).bind fun _ _ _ => Prog.safe_write _ _).bind fun _ c₃ _ => ?_
  split
  · exact (RequestDraft08.safe_fromWire c₃).bind fun _ _ _ => Prog.safe_pure _ _
  · split
    · exact (RequestDraft14.safe_fromWire c₃).bind fun _ _ _ => Prog.safe_pure _ _
    · split
      · exact (RequestDraft14Srv.safe_fromWire c₃).bind fun _ _ _ => Prog.safe_pure _ _
      · exact Prog.safe_fail _ _

end Request

end Roughenough.Protocol
