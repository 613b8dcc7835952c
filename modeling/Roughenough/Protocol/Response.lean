/-
# `Roughenough.Protocol.Response` — responses

`response.rs`.

    draft-14   SIG 64 | NONC 32 | TYPE 4 | PATH | SREP | CERT 152 | INDX 4
    draft-08   SIG 64 | VER 4 | PATH | SREP 68 | CERT 152 | INDX 4

The readers take the values one after the other.  Of the six (five) offsets
they use one difference, as the length of PATH; the table is otherwise only
checked to be aligned, non-decreasing and inside the buffer.  The setters on
the other side recompute the whole table, so a response that was built and
one that was read are both values of the same type with different tables:
`Canonical` is the property of the table that the setters establish.
-/
import Roughenough.Protocol.Request

namespace Roughenough.Protocol

open Roughenough.Base ParseCursor

/-! ## The draft-14 response -/

structure Response where
  header : Header7
  signature : Signature
  nonce : Nonce
  msgType : MessageType
  path : MerklePath
  srep : SignedResponse
  cert : Certificate
  index : UInt32
  tags_eq : header.tags.1 = [.sig, .nonc, .type, .path, .srep, .cert, .indx]
  deriving DecidableEq

namespace Response

def TAGS : List Tag := [.sig, .nonc, .type, .path, .srep, .cert, .indx]

def default : Response where
  header := { Header.default 7 with tags := ⟨TAGS, rfl⟩ }
  signature := Octets.zero 64
  nonce := Octets.zero 32
  msgType := .response
  path := MerklePath.default
  srep := SignedResponse.default
  cert := Certificate.default
  index := 0
  tags_eq := rfl

/-- The table `update_offsets` computes for a PATH and a SREP of the given sizes. -/
def offsetTable (pathSize srepSize : Nat) : List UInt32 :=
  [ 64, 64 + 32, 64 + 32 + 4, 64 + 32 + 4 + UInt32.ofNat pathSize,
    64 + 32 + 4 + UInt32.ofNat pathSize + UInt32.ofNat srepSize,
    64 + 32 + 4 + UInt32.ofNat pathSize + UInt32.ofNat srepSize + 152 ]

def updateOffsets (r : Response) : Response :=
  { r with header := { r.header with offsets := ⟨offsetTable r.path.wireSize r.srep.wireSize, rfl⟩ } }

def setSig (r : Response) (sig : Signature) : Response := { r with signature := sig }

def setNonc (r : Response) (nonce : Nonce) : Response := { r with nonce := nonce }

def setPath (r : Response) (path : MerklePath) : Response :=
  updateOffsets { r with path := path }

def copyPath (r : Response) (path : MerklePath) : Response :=
  updateOffsets { r with path := r.path.copyFrom path }

def setSrep (r : Response) (srep : SignedResponse) : Response :=
  updateOffsets { r with srep := srep }

/-- `set_cert`: CERT has a fixed size, and the table is left alone. -/
def setCert (r : Response) (cert : Certificate) : Response := { r with cert := cert }

def setIndx (r : Response) (index : UInt32) : Response := { r with index := index }

def fromWire : Wire Response := do
  let ⟨header, tagsOk⟩ ←
    Header.fromWireTagged 7 [.sig, .nonc, .type, .path, .srep, .cert, .indx]
  let signature ← Signature.fromWire
  let nonce ← Nonce.fromWire
  let msgType ← MessageType.fromWire
  Prog.failIf (msgType ≠ .response) (.invalidMessageType msgType.value.toNat)
  let pathLen ← Prog.checkedSub (header.offset 3) (header.offset 2)
  let path ← MerklePath.fromWireN pathLen
  let srep ← SignedResponse.fromWire
  let cert ← Certificate.fromWire
  let index ← tryGetU32Le
  pure ⟨header, signature, nonce, msgType, path, srep, cert, index, tagsOk⟩

def wireSize (r : Response) : Nat :=
  Header.sizeOf 7 + 64 + 32 + 4 + r.path.wireSize + r.srep.wireSize + Certificate.wireSize + 4

def toWire (r : Response) : Wire Unit := do
  let c ← Prog.read
  Prog.failIf (c.capacity < r.wireSize) (.bufferTooSmall r.wireSize c.capacity)
  r.header.toWire
  FixedTag.toWire r.signature
  FixedTag.toWire r.nonce
  r.msgType.toWire
  r.path.toWire
  r.srep.toWire
  r.cert.toWire
  putU32Le r.index

/-- `Response::from_frame` on a whole buffer. -/
def fromFrame (b : Bytes) : Outcome Error Response := do
  let r ← Protocol.fromFrame fromWire (new b)
  pure r.1

def asFrameBytes (r : Response) : Outcome Error Bytes := Protocol.asFrameBytes r.wireSize r.toWire

/-! ### Its grammar -/

/-- What stands between the header and PATH. -/
def front (r : Response) : Bytes :=
  r.signature.bytes ++ (r.nonce.bytes ++ leBytes32 r.msgType.value)

/-- What stands behind SREP. -/
def back (r : Response) : Bytes := r.cert.encode ++ leBytes32 r.index

/-- The bytes of a response whose SREP spells its versions with the words `vw` and `ws`. -/
def encodeWith (r : Response) (vw : UInt32) (ws : List UInt32) : Bytes :=
  r.header.encode ++ (r.front ++ (r.path.paths ++ (r.srep.encodeWith vw ws ++ r.back)))

/-- The bytes the writer chooses. -/
def encode (r : Response) : Bytes :=
  r.header.encode ++ (r.front ++ (r.path.paths ++ (r.srep.encode ++ r.back)))

/-- What the reader insists on, with `tail` bytes behind the response. -/
structure Accepts (r : Response) (tail : Nat) : Prop where
  wellFormed : r.header.WellFormed
  inBounds : r.header.InBounds
    (344 + 32 * r.path.numPaths + 4 * r.srep.supportedVersions.versions.length + tail)
  msgType : r.msgType = .response
  clean : r.path.Clean
  path_eq : 32 * r.path.numPaths = r.header.offset 3 - r.header.offset 2
  srep : r.srep.Accepts (156 + tail)

/-- More bytes behind the response do no harm. -/
theorem Accepts.grow {r : Response} {tail tail' : Nat} (h : r.Accepts tail) (hle : tail ≤ tail')
    (hsmall : tail' < 2 ^ 31) : r.Accepts tail' := by
  have hpath := r.path.bounded
  have hvers := r.srep.supportedVersions.bounded
  refine ⟨h.wellFormed, h.inBounds.grow (by omega) (by omega), h.msgType, h.clean, h.path_eq, ?_⟩
  exact ⟨h.srep.wellFormed, h.srep.ascending, h.srep.nonempty, h.srep.size_eq,
    h.srep.inBounds.grow (by omega) (by omega)⟩

/-- Without what stood behind the response, its tables have to stay inside it. -/
theorem Accepts.alone_iff {r : Response} {tail : Nat} (h : r.Accepts tail) : r.Accepts 0 ↔
    r.header.offset 5 ≤ 344 + 32 * r.path.numPaths +
      4 * r.srep.supportedVersions.versions.length ∧
    r.srep.header.offset 3 ≤ 204 + 4 * r.srep.supportedVersions.versions.length := by
  have hpath := r.path.bounded
  have hvers := r.srep.supportedVersions.bounded
  constructor
  · intro h0
    have hlast := h0.inBounds.offset_le (i := 5)
    have hlast' := h0.srep.inBounds.offset_le (i := 3)
    omega
  · rintro ⟨hlast, hlast'⟩
    refine ⟨h.wellFormed, ?_, h.msgType, h.clean, h.path_eq, h.srep.wellFormed, h.srep.ascending,
      h.srep.nonempty, h.srep.size_eq, ?_⟩
    · rw [h.wellFormed.inBounds_iff (show 5 + 2 = 7 from rfl), Nat.mod_eq_of_lt (by omega)]
      omega
    · rw [h.srep.wellFormed.inBounds_iff (show 3 + 2 = 5 from rfl), Nat.mod_eq_of_lt (by omega)]
      omega

@[simp] theorem front_length (r : Response) : r.front.length = 100 := by simp [front]

@[simp] theorem back_length (r : Response) : r.back.length = 156 := by simp [back]

theorem encodeWith_length {r : Response} {vw : UInt32} {ws : List UInt32}
    (h : r.srep.Spells vw ws) : (r.encodeWith vw ws).length =
      400 + 32 * r.path.numPaths + 4 * r.srep.supportedVersions.versions.length := by
  simp only [encodeWith, List.length_append, Header.encode_length, Header.sizeOf, front_length,
    back_length, MerklePath.paths_length, h.encodeWith_length]
  omega

theorem encode_length (r : Response) : r.encode.length = r.wireSize := by
  have h := encodeWith_length r.srep.spells_values
  simp only [wireSize, Header.sizeOf, MerklePath.wireSize, MerklePath.elementSize,
    SignedResponse.wireSize, ProtocolVersion.wireSize, VersionList.wireSize, Certificate.wireSize]
  rw [show r.encode.length = _ from h]
  omega

/-- The values one after the other, as the writer takes them. -/
theorem encode_parts (r : Response) : r.encode = r.header.encode ++ (r.signature.bytes ++
    (r.nonce.bytes ++ (leBytes32 r.msgType.value ++ (r.path.paths ++ (r.srep.encode ++
      (r.cert.encode ++ leBytes32 r.index)))))) := by
  simp only [encode, front, back, List.append_assoc]

theorem toWire_writes (r : Response) : Writes r.toWire r.encode := by
  rw [encode_parts]
  refine Writes.guarded ?_ fun c _ hlen => ?_
  · exact (Header.toWire_writes _).seq ((FixedTag.toWire_writes _).seq
      ((FixedTag.toWire_writes _).seq ((MessageType.toWire_writes _).seq
        ((MerklePath.toWire_writes _).seq ((SignedResponse.toWire_writes _).seq
          ((Certificate.toWire_writes _).seq (Writes.putU32Le _)))))))
  · -- the check is on the capacity of the buffer, which is at least what is left of it
    rw [← encode_parts, r.encode_length] at hlen
    exact Nat.le_trans hlen (Nat.sub_le _ _)

theorem asFrameBytes_eq (r : Response) : r.asFrameBytes = .ok (framed r.encode) :=
  asFrameBytes_writes r.toWire_writes r.encode_length

theorem fromWire_ok_iff {r : Response} {c c' : ParseCursor} :
    fromWire c = .ok (r, c') ↔ ∃ vw ws, r.srep.Spells vw ws ∧ r.Accepts c'.remaining ∧
      Consumes c (r.encodeWith vw ws) c' := by
  simp only [fromWire, Prog.bind_ok_iff, Header.fromWireTagged_ok_iff, Signature.fromWire_ok_iff,
    Nonce.fromWire_ok_iff, MessageType.fromWire_ok_iff, Prog.failIf_ok_iff,
    Prog.checkedSub_ok_iff, MerklePath.fromWireN_ok_iff, SignedResponse.fromWire_ok_iff,
    Certificate.fromWire_ok_iff, tryGetU32Le_ok_iff, Prog.pure_ok_iff]
  constructor
  · rintro ⟨⟨h, ht⟩, c₁, ⟨hwf, hb, h₁⟩, sig, c₂, h₂, nonce, c₃, h₃, t, c₄, ⟨-, h₄⟩, _, _,
      ⟨htype, rfl⟩, _, _, ⟨⟨hle, rfl⟩, rfl⟩, path, c₅, ⟨hclean, hnum, h₅⟩, srep, c₆,
      ⟨vw, ws, hsp, hacc, h₆⟩, cert, c₇, h₇, indx, c₈, h₈, rfl, rfl⟩
    simp only at hwf hb h₁ hle hnum
    have hback := (h₇.trans h₈).remaining_eq
    have hall := (h₂.trans (h₃.trans h₄)).trans (h₅.trans (h₆.trans (h₇.trans h₈)))
    have hrem := hall.remaining_eq
    simp only [List.length_append, Certificate.encode_length, leBytes32_length,
      Octets.bytes_length, MerklePath.paths_length, hsp.encodeWith_length] at hback hrem
    refine ⟨vw, ws, hsp, ⟨hwf, ?_, not_not.mp htype, hclean, hnum, ?_⟩, h₁.trans hall⟩
    · show h.InBounds _
      have hsum : c₁.remaining =
          344 + 32 * path.numPaths + 4 * srep.supportedVersions.versions.length + c₈.remaining := by
        omega
      rwa [hsum] at hb
    · show srep.Accepts _
      have hsum : c₆.remaining = 156 + c₈.remaining := by omega
      rwa [hsum] at hacc
  · rintro ⟨vw, ws, hsp, hacc, hc⟩
    obtain ⟨c₁, h₁, hc⟩ := hc.split
    have hrem := hc.remaining_eq
    obtain ⟨c₄, hfront, hc⟩ := hc.split
    obtain ⟨c₂, h₂, hc'⟩ := hfront.split
    obtain ⟨c₃, h₃, h₄⟩ := hc'.split
    obtain ⟨c₅, h₅, hc⟩ := hc.split
    obtain ⟨c₆, h₆, hback⟩ := hc.split
    have hrem' := hback.remaining_eq
    obtain ⟨c₇, h₇, h₈⟩ := hback.split
    simp only [List.length_append, front_length, back_length, MerklePath.paths_length,
      hsp.encodeWith_length] at hrem hrem'
    have hb : r.header.InBounds c₁.remaining := by
      have hsum : c₁.remaining = 344 + 32 * r.path.numPaths +
          4 * r.srep.supportedVersions.versions.length + c'.remaining := by omega
      rw [hsum]
      exact hacc.inBounds
    have hsrep : r.srep.Accepts c₆.remaining := by
      rw [hrem']
      exact hacc.srep
    have hle : r.header.offset 2 ≤ r.header.offset 3 := hacc.wellFormed.le_succ (by decide)
    have htype : r.msgType ≠ .invalid := by
      rw [hacc.msgType]
      decide
    exact ⟨⟨r.header, r.tags_eq⟩, c₁, ⟨hacc.wellFormed, hb, h₁⟩, r.signature, c₂, h₂, r.nonce,
      c₃, h₃, r.msgType, c₄, ⟨htype, h₄⟩, (), c₄, ⟨not_not.mpr hacc.msgType, rfl⟩,
      _, c₄, ⟨⟨hle, rfl⟩, rfl⟩, r.path, c₅, ⟨hacc.clean, hacc.path_eq, h₅⟩, r.srep, c₆,
      ⟨vw, ws, hsp, hsrep, h₆⟩, r.cert, c₇, h₇, r.index, c', h₈, rfl, rfl⟩

theorem safe_fromWire (c : ParseCursor) : Prog.Safe fromWire c := by
  refine (Header.safe_fromWireTagged 7 _ c).bind fun ⟨h, _⟩ c₁ h₁ => ?_
  obtain ⟨hwf, -⟩ := Header.fromWireTagged_ok_iff.mp h₁
  have hle : h.offset 2 ≤ h.offset 3 := hwf.le_succ (by decide)
  refine (safe_tryGetFixed (n := 64) (by decide) c₁).bind fun _ c₂ _ => ?_
  refine (safe_tryGetFixed (n := 32) (by decide) c₂).bind fun _ c₃ _ => ?_
  refine (MessageType.safe_fromWire c₃).bind fun _ _ _ => ?_
  refine (Prog.safe_failIf _ _ _).bind fun _ c₄ _ => ?_
  refine (Prog.safe_checkedSub hle c₄).bind fun _ c₅ _ => ?_
  refine (MerklePath.safe_fromWireN _ c₅).bind fun _ c₆ _ => ?_
  refine (SignedResponse.safe_fromWire c₆).bind fun _ c₇ _ => ?_
  refine (Certificate.safe_fromWire c₇).bind fun _ c₈ _ => ?_
  exact (safe_tryGetU32Le c₈).bind fun _ _ _ => Prog.safe_pure _ _

end Response

/-! ## The draft-08 response -/

structure ResponseDraft08 where
  header : Header6
  signature : Signature
  version : ProtocolVersion
  path : MerklePath
  srep : SignedResponseDraft08
  cert : Certificate
  index : UInt32
  tags_eq : header.tags.1 = [.sig, .ver, .path, .srep, .cert, .indx]
  deriving DecidableEq

namespace ResponseDraft08

def TAGS : List Tag := [.sig, .ver, .path, .srep, .cert, .indx]

def default : ResponseDraft08 where
  header := { Header.default 6 with tags := ⟨TAGS, rfl⟩ }
  signature := Octets.zero 64
  version := .rfcDraft08
  path := MerklePath.default
  srep := SignedResponseDraft08.default
  cert := Certificate.default
  index := 0
  tags_eq := rfl

/-- The table `update_offsets` computes for a PATH of the given size. -/
def offsetTable (pathSize : Nat) : List UInt32 :=
  [ 64, 64 + 4, 64 + 4 + UInt32.ofNat pathSize, 64 + 4 + UInt32.ofNat pathSize + 68,
    64 + 4 + UInt32.ofNat pathSize + 68 + 152 ]

def updateOffsets (r : ResponseDraft08) : ResponseDraft08 :=
  { r with header := { r.header with offsets := ⟨offsetTable r.path.wireSize, rfl⟩ } }

def setSig (r : ResponseDraft08) (sig : Signature) : ResponseDraft08 := { r with signature := sig }

def setSrep (r : ResponseDraft08) (srep : SignedResponseDraft08) : ResponseDraft08 :=
  updateOffsets { r with srep := srep }

def setCert (r : ResponseDraft08) (cert : Certificate) : ResponseDraft08 :=
  updateOffsets { r with cert := cert }

def setIndx (r : ResponseDraft08) (index : UInt32) : ResponseDraft08 := { r with index := index }

def setPath (r : ResponseDraft08) (path : MerklePath) : ResponseDraft08 :=
  updateOffsets { r with path := path }

def copyPath (r : ResponseDraft08) (path : MerklePath) : ResponseDraft08 :=
  updateOffsets { r with path := r.path.copyFrom path }

def fromWire : Wire ResponseDraft08 := do
  let ⟨header, tagsOk⟩ ← Header.fromWireTagged 6 [.sig, .ver, .path, .srep, .cert, .indx]
  let signature ← Signature.fromWire
  let version ← ProtocolVersion.fromWire
  let pathLen ← Prog.checkedSub (header.offset 2) (header.offset 1)
  let path ← MerklePath.fromWireN pathLen
  let srep ← SignedResponseDraft08.fromWire
  let cert ← Certificate.fromWire
  let index ← tryGetU32Le
  pure ⟨header, signature, version, path, srep, cert, index, tagsOk⟩

def wireSize (r : ResponseDraft08) : Nat :=
  Header.sizeOf 6 + 64 + ProtocolVersion.wireSize + r.path.wireSize +
    SignedResponseDraft08.wireSize + Certificate.wireSize + 4

def toWire (r : ResponseDraft08) : Wire Unit := do
  r.header.toWire
  FixedTag.toWire r.signature
  r.version.toWire
  r.path.toWire
  r.srep.toWire
  r.cert.toWire
  putU32Le r.index

/-- `ResponseDraft08::from_frame` on a whole buffer. -/
def fromFrame (b : Bytes) : Outcome Error ResponseDraft08 := do
  let r ← Protocol.fromFrame fromWire (new b)
  pure r.1

def asFrameBytes (r : ResponseDraft08) : Outcome Error Bytes :=
  Protocol.asFrameBytes r.wireSize r.toWire

/-- What stands between the header and PATH. -/
def frontWith (r : ResponseDraft08) (vw : UInt32) : Bytes := r.signature.bytes ++ leBytes32 vw

def back (r : ResponseDraft08) : Bytes := r.cert.encode ++ leBytes32 r.index

def encodeWith (r : ResponseDraft08) (vw : UInt32) : Bytes :=
  r.header.encode ++ (r.frontWith vw ++ (r.path.paths ++ (r.srep.encode ++ r.back)))

def encode (r : ResponseDraft08) : Bytes := r.encodeWith r.version.value

/-- What the reader insists on, with `tail` bytes behind the response. -/
structure Accepts (r : ResponseDraft08) (tail : Nat) : Prop where
  wellFormed : r.header.WellFormed
  inBounds : r.header.InBounds (292 + 32 * r.path.numPaths + tail)
  clean : r.path.Clean
  path_eq : 32 * r.path.numPaths = r.header.offset 2 - r.header.offset 1
  srep : r.srep.Accepts (156 + tail)

@[simp] theorem frontWith_length (r : ResponseDraft08) (vw : UInt32) :
    (r.frontWith vw).length = 68 := by simp [frontWith]

@[simp] theorem back_length (r : ResponseDraft08) : r.back.length = 156 := by simp [back]

theorem encodeWith_length (r : ResponseDraft08) (vw : UInt32) :
    (r.encodeWith vw).length = 340 + 32 * r.path.numPaths := by
  simp only [encodeWith, List.length_append, Header.encode_length, Header.sizeOf,
    frontWith_length, back_length, MerklePath.paths_length, SignedResponseDraft08.encode_length]
  omega

theorem encode_length (r : ResponseDraft08) : r.encode.length = r.wireSize := by
  rw [encode, encodeWith_length]
  simp only [wireSize, Header.sizeOf, MerklePath.wireSize, MerklePath.elementSize,
    SignedResponseDraft08.wireSize, ProtocolVersion.wireSize, Certificate.wireSize]
  omega

theorem encode_parts (r : ResponseDraft08) : r.encode = r.header.encode ++
    (r.signature.bytes ++ (leBytes32 r.version.value ++ (r.path.paths ++ (r.srep.encode ++
      (r.cert.encode ++ leBytes32 r.index))))) := by
  simp only [encode, encodeWith, frontWith, back, List.append_assoc]

theorem toWire_writes (r : ResponseDraft08) : Writes r.toWire r.encode := by
  rw [encode_parts]
  exact (Header.toWire_writes _).seq ((FixedTag.toWire_writes _).seq
    ((ProtocolVersion.toWire_writes _).seq ((MerklePath.toWire_writes _).seq
      ((SignedResponseDraft08.toWire_writes _).seq
        ((Certificate.toWire_writes _).seq (Writes.putU32Le _))))))

theorem asFrameBytes_eq (r : ResponseDraft08) : r.asFrameBytes = .ok (framed r.encode) :=
  asFrameBytes_writes r.toWire_writes r.encode_length

theorem fromWire_ok_iff {r : ResponseDraft08} {c c' : ParseCursor} :
    fromWire c = .ok (r, c') ↔ ∃ vw, ProtocolVersion.ofWord vw = some r.version ∧
      r.Accepts c'.remaining ∧ Consumes c (r.encodeWith vw) c' := by
  simp only [fromWire, Prog.bind_ok_iff, Header.fromWireTagged_ok_iff, Signature.fromWire_ok_iff,
    ProtocolVersion.fromWire_ok_iff, Prog.checkedSub_ok_iff, MerklePath.fromWireN_ok_iff,
    SignedResponseDraft08.fromWire_ok_iff, Certificate.fromWire_ok_iff, tryGetU32Le_ok_iff,
    Prog.pure_ok_iff]
  constructor
  · rintro ⟨⟨h, ht⟩, c₁, ⟨hwf, hb, h₁⟩, sig, c₂, h₂, v, c₃, ⟨vw, hv, h₃⟩, _, _,
      ⟨⟨hle, rfl⟩, rfl⟩, path, c₅, ⟨hclean, hnum, h₅⟩, srep, c₆, ⟨hacc, h₆⟩, cert, c₇, h₇,
      indx, c₈, h₈, rfl, rfl⟩
    simp only at hwf hb h₁ hle hnum
    have hback := (h₇.trans h₈).remaining_eq
    have hall := (h₂.trans h₃).trans (h₅.trans (h₆.trans (h₇.trans h₈)))
    have hrem := hall.remaining_eq
    simp only [List.length_append, Certificate.encode_length, leBytes32_length,
      Octets.bytes_length, MerklePath.paths_length,
      SignedResponseDraft08.encode_length] at hback hrem
    refine ⟨vw, hv, ⟨hwf, ?_, hclean, hnum, ?_⟩, h₁.trans hall⟩
    · show h.InBounds _
      have hsum : c₁.remaining = 292 + 32 * path.numPaths + c₈.remaining := by omega
      rwa [hsum] at hb
    · show srep.Accepts _
      have hsum : c₆.remaining = 156 + c₈.remaining := by omega
      rwa [hsum] at hacc
  · rintro ⟨vw, hv, hacc, hc⟩
    obtain ⟨c₁, h₁, hc⟩ := hc.split
    have hrem := hc.remaining_eq
    obtain ⟨c₃, hfront, hc⟩ := hc.split
    obtain ⟨c₂, h₂, h₃⟩ := hfront.split
    obtain ⟨c₅, h₅, hc⟩ := hc.split
    obtain ⟨c₆, h₆, hback⟩ := hc.split
    have hrem' := hback.remaining_eq
    obtain ⟨c₇, h₇, h₈⟩ := hback.split
    simp only [List.length_append, frontWith_length, back_length, MerklePath.paths_length,
      SignedResponseDraft08.encode_length] at hrem hrem'
    have hb : r.header.InBounds c₁.remaining := by
      have hsum : c₁.remaining = 292 + 32 * r.path.numPaths + c'.remaining := by omega
      rw [hsum]
      exact hacc.inBounds
    have hsrep : r.srep.Accepts c₆.remaining := by
      rw [hrem']
      exact hacc.srep
    have hle : r.header.offset 1 ≤ r.header.offset 2 := hacc.wellFormed.le_succ (by decide)
    exact ⟨⟨r.header, r.tags_eq⟩, c₁, ⟨hacc.wellFormed, hb, h₁⟩, r.signature, c₂, h₂, r.version,
      c₃, ⟨vw, hv, h₃⟩, _, c₃, ⟨⟨hle, rfl⟩, rfl⟩, r.path, c₅, ⟨hacc.clean, hacc.path_eq, h₅⟩,
      r.srep, c₆, ⟨hsrep, h₆⟩, r.cert, c₇, h₇, r.index, c', h₈, rfl, rfl⟩

theorem safe_fromWire (c : ParseCursor) : Prog.Safe fromWire c := by
  refine (Header.safe_fromWireTagged 6 _ c).bind fun ⟨h, _⟩ c₁ h₁ => ?_
  obtain ⟨hwf, -⟩ := Header.fromWireTagged_ok_iff.mp h₁
  have hle : h.offset 1 ≤ h.offset 2 := hwf.le_succ (by decide)
  refine (safe_tryGetFixed (n := 64) (by decide) c₁).bind fun _ c₂ _ => ?_
  refine (ProtocolVersion.safe_fromWire c₂).bind fun _ c₃ _ => ?_
  refine (Prog.safe_checkedSub hle c₃).bind fun _ c₄ _ => ?_
  refine (MerklePath.safe_fromWireN _ c₄).bind fun _ c₅ _ => ?_
  refine (SignedResponseDraft08.safe_fromWire c₅).bind fun _ c₆ _ => ?_
  refine (Certificate.safe_fromWire c₆).bind fun _ c₇ _ => ?_
  exact (safe_tryGetU32Le c₇).bind fun _ _ _ => Prog.safe_pure _ _

end ResponseDraft08

/-- `From<ResponseDraft08> for Response`: NONC stays at its default. -/
def Response.ofDraft08 (r : ResponseDraft08) : Response :=
  ((((Response.default.setSig r.signature).setPath r.path).setSrep
    (SignedResponse.ofDraft08 r.srep)).setCert r.cert).setIndx r.index

end Roughenough.Protocol
