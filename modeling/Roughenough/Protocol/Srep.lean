/-
# `Roughenough.Protocol.Srep` — the signed responses

`tags/srep.rs`.  The draft-14 SREP has five tags, the draft-08 SREP three:

    draft-14   header 40 | VER 4 | RADI 4 | MIDP 8 | VERS 4k | ROOT 32
    draft-08   header 24 | RADI 4 | MIDP 8 | ROOT 32

The draft-14 reader insists on the first three of its four offsets, the
draft-08 reader on none; the others are only bounded by the bytes that happen
to follow the header.  So whether a SREP is read depends on what stands behind
it: `Accepts … tail` carries the number of bytes there, and a SREP cut out of
its message can fail where the same bytes in place were read.

Because VER and VERS are read through `ProtocolVersion.ofWord`, which is not
injective, `encodeWith` takes the words; `encode` is the case of the words the
writer chooses.
-/
import Roughenough.Protocol.Tags

namespace Roughenough.Protocol

open Roughenough.Base ParseCursor

/-- `header.offsets[i] = v`. -/
def Header.setOffset {n : Nat} (h : Header n) (i : Nat) (v : UInt32) : Header n :=
  { h with offsets := ⟨h.offsets.1.set i v, by rw [List.length_set, h.offsets.2]⟩ }

/-! ## The draft-14 SREP -/

/-- `SignedResponse`.  The header is private; `Default` sets the first three offsets and the
tags, `set_vers` touches the fourth offset alone, and the reader checks the rest. -/
structure SignedResponse where
  header : Header5
  version : ProtocolVersion
  radius : UInt32
  midpoint : UInt64
  supportedVersions : SupportedVersions
  merkleRoot : MerkleRoot
  header_eq : header.offsets.1.take 3 = [4, 8, 16] ∧
    header.tags.1 = [.ver, .radi, .midp, .vers, .root]
  deriving DecidableEq

namespace SignedResponse

def defaultRadiSeconds : UInt32 := 5

def OFFSETS : List UInt32 := [4, 8, 16, 0]
def TAGS : List Tag := [.ver, .radi, .midp, .vers, .root]

/-- `VERS_OFFSET`. -/
def versOffset : UInt32 := 16

def default : SignedResponse where
  header := ⟨⟨OFFSETS, rfl⟩, ⟨TAGS, rfl⟩⟩
  version := .rfcDraft14
  radius := 0
  midpoint := 0
  supportedVersions := VersionList.default
  merkleRoot := Octets.zero 32
  header_eq := ⟨rfl, rfl⟩

def setVer (s : SignedResponse) (version : ProtocolVersion) : SignedResponse :=
  { s with version := version }

def setRadi (s : SignedResponse) (radius : UInt32) : SignedResponse := { s with radius := radius }

def setMidp (s : SignedResponse) (midpoint : UInt64) : SignedResponse :=
  { s with midpoint := midpoint }

/-- `set_vers`: the one setter that touches the header. -/
def setVers (s : SignedResponse) (versions : SupportedVersions) : SignedResponse :=
  { s with
    supportedVersions := versions
    header := s.header.setOffset 3 (versOffset + UInt32.ofNat versions.wireSize)
    header_eq := by
      refine ⟨?_, s.header_eq.2⟩
      show (s.header.offsets.1.set 3 _).take 3 = _
      rw [List.take_set_of_le (Nat.le_refl 3)]
      exact s.header_eq.1 }

def setRoot (s : SignedResponse) (root : MerkleRoot) : SignedResponse :=
  { s with merkleRoot := root }

def wireSize (s : SignedResponse) : Nat :=
  Header.sizeOf 5 + ProtocolVersion.wireSize + 4 + 8 + s.supportedVersions.wireSize + 32

def toWire (s : SignedResponse) : Wire Unit := do
  s.header.toWire
  s.version.toWire
  putU32Le s.radius
  putU64Le s.midpoint
  s.supportedVersions.toWire
  FixedTag.toWire s.merkleRoot

def fromWire : Wire SignedResponse := do
  let ⟨header, tagsOk⟩ ← Header.fromWireTagged 5 [.ver, .radi, .midp, .vers, .root]
  let offsetsOk ← Prog.ensure (header.offsets.1.take 3 = [4, 8, 16]) .unexpectedOffsets
  Prog.failIf (header.offset 2 = header.offset 3) .noSupportedVersions
  let version ← ProtocolVersion.fromWire
  let radius ← tryGetU32Le
  let midpoint ← tryGetU64Le
  let versSize ← Prog.checkedSub (header.offset 3) (header.offset 2)
  let supportedVersions ← VersionList.fromWireN versSize
  let merkleRoot ← MerkleRoot.fromWire
  pure ⟨header, version, radius, midpoint, supportedVersions, merkleRoot,
    offsetsOk.down, tagsOk⟩

/-! ### Its grammar -/

/-- The bytes of a SREP whose VER is the word `vw` and whose VERS are the words `ws`. -/
def encodeWith (s : SignedResponse) (vw : UInt32) (ws : List UInt32) : Bytes :=
  s.header.encode ++ (leBytes32 vw ++ (leBytes32 s.radius ++ (leBytes64 s.midpoint ++
    (ws.flatMap leBytes32 ++ s.merkleRoot.bytes))))

/-- The bytes the writer chooses. -/
def encode (s : SignedResponse) : Bytes :=
  s.encodeWith s.version.value (s.supportedVersions.versions.map ProtocolVersion.value)

/-- The words `vw` and `ws` spell VER and VERS. -/
structure Spells (s : SignedResponse) (vw : UInt32) (ws : List UInt32) : Prop where
  ver : ProtocolVersion.ofWord vw = some s.version
  vers : VersionList.Words s.supportedVersions.versions ws

/-- What the reader insists on, with `tail` bytes behind the SREP. -/
structure Accepts (s : SignedResponse) (tail : Nat) : Prop where
  wellFormed : s.header.WellFormed
  ascending : VersionList.Ascending none s.supportedVersions.versions
  nonempty : s.header.offset 3 ≠ 16
  size_eq : 4 * s.supportedVersions.versions.length = min (s.header.offset 3 - 16) 128
  inBounds : s.header.InBounds (48 + 4 * s.supportedVersions.versions.length + tail)

theorem spells_values (s : SignedResponse) :
    s.Spells s.version.value (s.supportedVersions.versions.map ProtocolVersion.value) :=
  ⟨ProtocolVersion.ofWord_value _, VersionList.words_values _⟩

theorem Spells.encodeWith_length {s : SignedResponse} {vw : UInt32} {ws : List UInt32}
    (h : s.Spells vw ws) :
    (s.encodeWith vw ws).length = 88 + 4 * s.supportedVersions.versions.length := by
  simp only [encodeWith, List.length_append, Header.encode_length, Header.sizeOf,
    leBytes32_length, leBytes64_length, VersionList.flatMap_words_length, Octets.bytes_length,
    h.vers.length_eq]
  omega

theorem offset_two (s : SignedResponse) : s.header.offset 2 = 16 := by
  have h : (s.header.offsets.1.take 3)[2]? = s.header.offsets.1[2]? :=
    List.getElem?_take_of_lt (by decide)
  rw [s.header_eq.1] at h
  unfold Header.offset
  rw [List.getD_eq_getElem?_getD, ← h]
  rfl

theorem offset_three_ge {s : SignedResponse} (hwf : s.header.WellFormed) :
    16 ≤ s.header.offset 3 := by
  have := hwf.le_succ (i := 2) (by decide)
  rwa [s.offset_two] at this

theorem toWire_writes (s : SignedResponse) : Writes s.toWire s.encode :=
  (Header.toWire_writes _).seq ((ProtocolVersion.toWire_writes _).seq ((Writes.putU32Le _).seq
    ((Writes.putU64Le _).seq ((VersionList.toWire_writes _).seq (FixedTag.toWire_writes _)))))

theorem fromWire_ok_iff {s : SignedResponse} {c c' : ParseCursor} :
    fromWire c = .ok (s, c') ↔
      ∃ vw ws, s.Spells vw ws ∧ s.Accepts c'.remaining ∧ Consumes c (s.encodeWith vw ws) c' := by
  simp only [fromWire, Prog.bind_ok_iff, Header.fromWireTagged_ok_iff, Prog.ensure_ok_iff,
    Prog.failIf_ok_iff, ProtocolVersion.fromWire_ok_iff, tryGetU32Le_ok_iff, tryGetU64Le_ok_iff,
    Prog.checkedSub_ok_iff, MerkleRoot.fromWire_ok_iff, Prog.pure_ok_iff]
  constructor
  · rintro ⟨⟨h, ht⟩, c₁, ⟨hwf, hb, h₁⟩, ho, _, rfl, _, _, ⟨hne, rfl⟩, v, c₂, ⟨vw, hv, h₂⟩,
      r, c₃, h₃, m, c₄, h₄, _, _, ⟨⟨hle, rfl⟩, rfl⟩, vs, c₅, h₅, root, c₆, h₆, rfl, rfl⟩
    simp only at hwf hb hne hle h₁ h₅
    have h16 : h.offset 2 = 16 :=
      offset_two ⟨h, v, r, m, vs, root, ho.down, ht⟩
    have hmod : (h.offset 3 - h.offset 2) % 4 = 0 := by
      have h2 := hwf.aligned 2
      have h3 := hwf.aligned 3
      omega
    obtain ⟨ws, hws, hasc, hlen, h₅⟩ := (VersionList.fromWireN_ok_iff hmod).mp h₅
    have hall := h₂.trans (h₃.trans (h₄.trans (h₅.trans h₆)))
    refine ⟨vw, ws, ⟨hv, hws⟩, ⟨hwf, hasc, ?_, ?_, ?_⟩, h₁.trans hall⟩
    · show h.offset 3 ≠ 16
      omega
    · show 4 * vs.versions.length = min (h.offset 3 - 16) 128
      rw [hlen, h16]
    · show h.InBounds (48 + 4 * vs.versions.length + c₆.remaining)
      have hrem := hall.remaining_eq
      simp only [List.length_append, leBytes32_length, leBytes64_length,
        VersionList.flatMap_words_length, Octets.bytes_length, hws.length_eq] at hrem
      have hsum : c₁.remaining = 48 + 4 * vs.versions.length + c₆.remaining := by omega
      rwa [hsum] at hb
  · rintro ⟨vw, ws, hsp, hacc, hc⟩
    have h16 := s.offset_two
    have hge := offset_three_ge hacc.wellFormed
    have hmod : (s.header.offset 3 - s.header.offset 2) % 4 = 0 := by
      have h3 := hacc.wellFormed.aligned 3
      omega
    obtain ⟨c₁, h₁, hall⟩ := hc.split
    have hrem := hall.remaining_eq
    simp only [List.length_append, leBytes32_length, leBytes64_length,
      VersionList.flatMap_words_length, Octets.bytes_length, hsp.vers.length_eq] at hrem
    obtain ⟨c₂, h₂, hc⟩ := hall.split
    obtain ⟨c₃, h₃, hc⟩ := hc.split
    obtain ⟨c₄, h₄, hc⟩ := hc.split
    obtain ⟨c₅, h₅, h₆⟩ := hc.split
    have hb : s.header.InBounds c₁.remaining := by
      have hsum : c₁.remaining =
          48 + 4 * s.supportedVersions.versions.length + c'.remaining := by omega
      rw [hsum]
      exact hacc.inBounds
    have hle : s.header.offset 2 ≤ s.header.offset 3 := by omega
    have hne : ¬ s.header.offset 2 = s.header.offset 3 := by
      have := hacc.nonempty
      omega
    refine ⟨⟨s.header, s.header_eq.2⟩, c₁, ⟨hacc.wellFormed, hb, h₁⟩, ⟨s.header_eq.1⟩, c₁, rfl,
      (), c₁, ⟨hne, rfl⟩,
      s.version, c₂, ⟨vw, hsp.ver, h₂⟩, s.radius, c₃, h₃, s.midpoint, c₄, h₄,
      _, c₄, ⟨⟨hle, rfl⟩, rfl⟩, s.supportedVersions, c₅, ?_, s.merkleRoot, c', h₆, rfl, rfl⟩
    rw [VersionList.fromWireN_ok_iff hmod, h16]
    exact ⟨ws, hsp.vers, hacc.ascending, hacc.size_eq, h₅⟩

theorem safe_fromWire (c : ParseCursor) : Prog.Safe fromWire c := by
  refine (Header.safe_fromWireTagged 5 _ c).bind fun ⟨h, _⟩ c₁ h₁ => ?_
  obtain ⟨hwf, -⟩ := Header.fromWireTagged_ok_iff.mp h₁
  -- the subtraction and the size of VERS rest on the order and the alignment of the offsets
  have hle : h.offset 2 ≤ h.offset 3 := hwf.le_succ (by decide)
  have hmod : (h.offset 3 - h.offset 2) % 4 = 0 := by
    have h2 : h.offset 2 % 4 = 0 := hwf.aligned 2
    have h3 : h.offset 3 % 4 = 0 := hwf.aligned 3
    omega
  refine (Prog.safe_ensure _ _ _).bind fun _ _ _ => ?_
  refine (Prog.safe_failIf _ _ _).bind fun _ c₂ _ => ?_
  refine (ProtocolVersion.safe_fromWire c₂).bind fun _ c₃ _ => ?_
  refine (safe_tryGetU32Le c₃).bind fun _ c₄ _ => ?_
  refine (safe_tryGetU64Le c₄).bind fun _ c₅ _ => ?_
  refine (Prog.safe_checkedSub hle c₅).bind fun n c₆ hn => ?_
  obtain ⟨⟨-, rfl⟩, -⟩ := Prog.checkedSub_ok_iff.mp hn
  refine (VersionList.safe_fromWireN hmod c₆).bind fun _ c₇ _ => ?_
  exact (safe_tryGetFixed (n := 32) (by decide) c₇).bind fun _ _ _ => Prog.safe_pure _ _

end SignedResponse

/-! ## The draft-08 SREP -/

/-- `SignedResponseDraft08`: of its header only the tags are fixed. -/
structure SignedResponseDraft08 where
  header : Header3
  radius : UInt32
  midpoint : UInt64
  merkleRoot : MerkleRoot
  tags_eq : header.tags.1 = [.radi, .midp, .root]
  deriving DecidableEq

namespace SignedResponseDraft08

def defaultRadiSeconds : UInt32 := 5

def OFFSETS : List UInt32 := [4, 12]
def TAGS : List Tag := [.radi, .midp, .root]

def default : SignedResponseDraft08 where
  header := ⟨⟨OFFSETS, rfl⟩, ⟨TAGS, rfl⟩⟩
  radius := 0
  midpoint := 0
  merkleRoot := Octets.zero 32
  tags_eq := rfl

def setRadi (s : SignedResponseDraft08) (radius : UInt32) : SignedResponseDraft08 :=
  { s with radius := radius }

def setMidp (s : SignedResponseDraft08) (midpoint : UInt64) : SignedResponseDraft08 :=
  { s with midpoint := midpoint }

def setRoot (s : SignedResponseDraft08) (root : MerkleRoot) : SignedResponseDraft08 :=
  { s with merkleRoot := root }

/-- The header, a `u32`, a `u64` and the root. -/
def wireSize : Nat := Header.sizeOf 3 + 4 + 8 + 32

def toWire (s : SignedResponseDraft08) : Wire Unit := do
  s.header.toWire
  putU32Le s.radius
  putU64Le s.midpoint
  FixedTag.toWire s.merkleRoot

def fromWire : Wire SignedResponseDraft08 := do
  let ⟨header, tagsOk⟩ ← Header.fromWireTagged 3 [.radi, .midp, .root]
  let radius ← tryGetU32Le
  let midpoint ← tryGetU64Le
  let merkleRoot ← MerkleRoot.fromWire
  pure ⟨header, radius, midpoint, merkleRoot, tagsOk⟩

def encode (s : SignedResponseDraft08) : Bytes :=
  s.header.encode ++ (leBytes32 s.radius ++ (leBytes64 s.midpoint ++ s.merkleRoot.bytes))

/-- What the reader insists on, with `tail` bytes behind the SREP. -/
structure Accepts (s : SignedResponseDraft08) (tail : Nat) : Prop where
  wellFormed : s.header.WellFormed
  inBounds : s.header.InBounds (44 + tail)

@[simp] theorem encode_length (s : SignedResponseDraft08) : s.encode.length = 68 := by
  simp [encode, Header.encode_length, Header.sizeOf]

theorem toWire_writes (s : SignedResponseDraft08) : Writes s.toWire s.encode :=
  (Header.toWire_writes _).seq ((Writes.putU32Le _).seq
    ((Writes.putU64Le _).seq (FixedTag.toWire_writes _)))

theorem fromWire_ok_iff {s : SignedResponseDraft08} {c c' : ParseCursor} :
    fromWire c = .ok (s, c') ↔ s.Accepts c'.remaining ∧ Consumes c s.encode c' := by
  simp only [fromWire, Prog.bind_ok_iff, Header.fromWireTagged_ok_iff, tryGetU32Le_ok_iff,
    tryGetU64Le_ok_iff, MerkleRoot.fromWire_ok_iff, Prog.pure_ok_iff]
  constructor
  · rintro ⟨⟨h, ht⟩, c₁, ⟨hwf, hb, h₁⟩, r, c₂, h₂, m, c₃, h₃, root, c₄, h₄, rfl, rfl⟩
    have hall := h₂.trans (h₃.trans h₄)
    have hrem := hall.remaining_eq
    simp only [List.length_append, leBytes32_length, leBytes64_length, Octets.bytes_length] at hrem
    refine ⟨⟨hwf, ?_⟩, h₁.trans hall⟩
    show h.InBounds (44 + c₄.remaining)
    rwa [hrem] at hb
  · rintro ⟨hacc, hc⟩
    obtain ⟨c₁, h₁, hall⟩ := hc.split
    have hrem := hall.remaining_eq
    simp only [List.length_append, leBytes32_length, leBytes64_length, Octets.bytes_length] at hrem
    obtain ⟨c₂, h₂, hc⟩ := hall.split
    obtain ⟨c₃, h₃, h₄⟩ := hc.split
    have hb : s.header.InBounds c₁.remaining := by
      rw [hrem]
      exact hacc.inBounds
    exact ⟨⟨s.header, s.tags_eq⟩, c₁, ⟨hacc.wellFormed, hb, h₁⟩, s.radius, c₂, h₂, s.midpoint,
      c₃, h₃, s.merkleRoot, c', h₄, rfl, rfl⟩

theorem safe_fromWire (c : ParseCursor) : Prog.Safe fromWire c := by
  refine (Header.safe_fromWireTagged 3 _ c).bind fun _ c₁ _ => ?_
  refine (safe_tryGetU32Le c₁).bind fun _ c₂ _ => ?_
  refine (safe_tryGetU64Le c₂).bind fun _ c₃ _ => ?_
  exact (safe_tryGetFixed (n := 32) (by decide) c₃).bind fun _ _ _ => Prog.safe_pure _ _

end SignedResponseDraft08

/-- `From<SignedResponseDraft08> for SignedResponse`. -/
def SignedResponse.ofDraft08 (s : SignedResponseDraft08) : SignedResponse :=
  ((((SignedResponse.default.setVer .rfcDraft08).setRadi s.radius).setMidp s.midpoint).setVers
    (VersionList.new [.rfcDraft08])).setRoot s.merkleRoot

end Roughenough.Protocol
