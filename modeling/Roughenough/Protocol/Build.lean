/-
# `Roughenough.Protocol.Build` — responses made by the setters, requests by `new`

A response made by the setters carries the offset table of `update_offsets`.
`Built` is that property, with what the reader wants of the SREP; a built
response, framed, is read back:

    Response.fromFrame (framed r.encode) = .ok r.normalize

`normalize` zeroes the part of the path that is not in use.  A writer that
reuses a `MerklePath` leaves old elements there; they are not written, and the
reader starts from zeros.

The requests of the three constructors are read back as they are.
-/
import Roughenough.Protocol.Layout

namespace Roughenough.Protocol

open Roughenough.Base ParseCursor

namespace MerklePath

/-- The path with nothing behind its elements. -/
def normalize (p : MerklePath) : MerklePath where
  numPaths := p.numPaths
  data := ⟨p.paths ++ List.replicate (1024 - p.numPaths * 32) 0, by
    have := p.bounded
    rw [List.length_append, paths_length, List.length_replicate]
    omega⟩
  bounded := p.bounded

theorem normalize_paths (p : MerklePath) : p.normalize.paths = p.paths :=
  List.take_left' (by rw [paths_length, elementSize, Nat.mul_comm]; rfl)

theorem normalize_clean (p : MerklePath) : p.normalize.Clean :=
  List.drop_left' (by rw [paths_length, Nat.mul_comm]; rfl)

theorem normalize_elements (p : MerklePath) : p.normalize.elements = p.elements :=
  elements_congr rfl p.normalize_paths

/-- The elements, one after the other, are the bytes in use. -/
theorem flatMap_elements (p : MerklePath) : p.elements.flatMap Octets.bytes = p.paths := by
  have hchunks : ∀ (k : Nat) (bs : Bytes) (h : bs.length = 32 * k),
      (chunks k bs h).flatMap Octets.bytes = bs := by
    intro k
    induction k with
    | zero =>
        intro bs h
        exact (List.eq_nil_of_length_eq_zero h).symm
    | succ k ih =>
        intro bs h
        rw [chunks, List.flatMap_cons, ih]
        exact List.take_append_drop 32 bs
  exact hchunks _ _ _

/-- The path of the given elements: at most 32 of them. -/
def ofElements (elements : List (Octets 32)) : MerklePath where
  numPaths := (elements.take 32).length
  data :=
    ⟨(elements.take 32).flatMap Octets.bytes ++
        List.replicate (1024 - (elements.take 32).length * 32) 0, by
      have hlen : ((elements.take 32).flatMap Octets.bytes).length =
          32 * (elements.take 32).length :=
        Header.flatMap_length_const Octets.bytes_length _
      have hle : (elements.take 32).length ≤ 32 := List.length_take_le 32 elements
      rw [List.length_append, hlen, List.length_replicate]
      omega⟩
  bounded := List.length_take_le 32 elements

theorem chunks_flatMap (elements : List (Octets 32))
    (h : (elements.flatMap Octets.bytes).length = 32 * elements.length) :
    chunks elements.length (elements.flatMap Octets.bytes) h = elements := by
  induction elements with
  | nil => rfl
  | cons e elements ih =>
      have htake : (e.bytes ++ elements.flatMap Octets.bytes).take 32 = e.bytes :=
        List.take_left' e.size_eq
      have hdrop : (e.bytes ++ elements.flatMap Octets.bytes).drop 32 =
          elements.flatMap Octets.bytes := List.drop_left' e.size_eq
      simp only [List.length_cons, List.flatMap_cons, chunks, htake, hdrop, ih]

theorem elements_ofElements {elements : List (Octets 32)} (h : elements.length ≤ 32) :
    (ofElements elements).elements = elements := by
  have htake : elements.take 32 = elements := List.take_of_length_le h
  have hlen : (elements.flatMap Octets.bytes).length = 32 * elements.length :=
    Header.flatMap_length_const Octets.bytes_length _
  have hnum : (ofElements elements).numPaths = elements.length := congrArg List.length htake
  have hpaths : (ofElements elements).paths = elements.flatMap Octets.bytes := by
    show ((elements.take 32).flatMap Octets.bytes ++ _).take ((elements.take 32).length * 32) = _
    rw [htake]
    exact List.take_left' (by rw [hlen, Nat.mul_comm])
  unfold MerklePath.elements
  simp only [hnum, hpaths]
  exact chunks_flatMap elements hlen

/-- A copy into a fresh path is a path made of the elements: nothing else is copied. -/
theorem default_copyFrom (p : MerklePath) : default.copyFrom p = ofElements p.elements := by
  have htake : p.elements.take 32 = p.elements :=
    List.take_of_length_le (by rw [elements_length]; exact p.bounded)
  unfold copyFrom ofElements
  simp only [htake, elements_length, flatMap_elements, MerklePath.mk.injEq, true_and]
  apply Octets.ext
  show [] ++ (p.paths ++ (List.replicate 1024 0).drop (p.numPaths * 32)) = _
  rw [List.nil_append, List.drop_replicate]

end MerklePath

/-! ## SREP -/

/-- A SREP as `set_vers` leaves it, with a non-empty ordered list. -/
structure SignedResponse.Built (s : SignedResponse) : Prop where
  offset_eq : s.header.offset 3 = 16 + 4 * s.supportedVersions.versions.length
  nonempty : s.supportedVersions.versions ≠ []
  ascending : VersionList.Ascending none s.supportedVersions.versions

/-- The header of a SREP is well formed as soon as its fourth offset is. -/
theorem SignedResponse.wellFormed_of_offset {s : SignedResponse} (hge : 16 ≤ s.header.offset 3)
    (hmod : s.header.offset 3 % 4 = 0) : s.header.WellFormed := by
  obtain ⟨⟨⟨l, hl⟩, tags⟩, ver, radi, midp, vers, root, ho, ht⟩ := s
  match l, hl, ho with
  | [a, b, c, d], _, ho =>
      simp only [List.take_succ_cons, List.take_zero, List.cons.injEq, and_true] at ho
      obtain ⟨rfl, rfl, rfl⟩ := ho
      refine ⟨⟨by decide, by decide, by decide, by decide, by decide, by decide, hmod, hge,
        trivial⟩, ?_⟩
      show Header.TagsOk .invalid tags.1
      rw [ht]
      decide

theorem SignedResponse.Built.accepts {s : SignedResponse} (h : s.Built) {tail : Nat}
    (htail : tail < 2 ^ 31) : s.Accepts tail := by
  have hoff := h.offset_eq
  have hbound := s.supportedVersions.bounded
  have hpos : 0 < s.supportedVersions.versions.length := List.length_pos_of_ne_nil h.nonempty
  have hwf : s.header.WellFormed := s.wellFormed_of_offset (by omega) (by omega)
  refine ⟨hwf, h.ascending, by omega, by omega, ?_⟩
  rw [hwf.inBounds_iff (show 3 + 2 = 5 from rfl), hoff, Nat.mod_eq_of_lt (by omega)]
  omega

/-- A draft-08 SREP as `Default` leaves its header. -/
def SignedResponseDraft08.Built (s : SignedResponseDraft08) : Prop := s.header.offsets.1 = [4, 12]

theorem SignedResponseDraft08.Built.accepts {s : SignedResponseDraft08} (h : s.Built) {tail : Nat}
    (htail : tail < 2 ^ 31) : s.Accepts tail := by
  have hwf : s.header.WellFormed := by
    refine ⟨?_, ?_⟩
    · rw [show s.header.offsets.1 = _ from h]
      decide
    · rw [s.tags_eq]
      decide
  have hlast : s.header.offset 1 = 12 := by
    unfold Header.offset
    rw [show s.header.offsets.1 = _ from h]
    rfl
  refine ⟨hwf, ?_⟩
  rw [hwf.inBounds_iff (show 1 + 2 = 3 from rfl), hlast, Nat.mod_eq_of_lt (by omega)]
  omega

/-! ## The offset tables -/

/-- Adding a small size to a small offset does not wrap. -/
theorem add_ofNat_toNat {x : UInt32} {m n : Nat} (hx : x.toNat = m) (h : m + n < 2 ^ 32) :
    (x + UInt32.ofNat n).toNat = m + n := by
  have hn : (UInt32.ofNat n).toNat = n := UInt32.toNat_ofNat_of_lt' (by rw [UInt32.size]; omega)
  rw [UInt32.toNat_add, hx, hn, Nat.mod_eq_of_lt h]

theorem Response.offsetTable_toNat {p s : Nat} (hp : p ≤ 1024) (hs : s ≤ 216) :
    (Response.offsetTable p s).map UInt32.toNat =
      [64, 96, 100, 100 + p, 100 + p + s, 100 + p + s + 152] := by
  have h3 : (64 + 32 + 4 + UInt32.ofNat p).toNat = 100 + p := add_ofNat_toNat rfl (by omega)
  have h4 : (64 + 32 + 4 + UInt32.ofNat p + UInt32.ofNat s).toNat = 100 + p + s :=
    add_ofNat_toNat h3 (by omega)
  have h5 : (64 + 32 + 4 + UInt32.ofNat p + UInt32.ofNat s + 152).toNat = 100 + p + s + 152 :=
    add_ofNat_toNat (n := 152) h4 (by omega)
  simp only [Response.offsetTable, List.map_cons, List.map_nil, h3, h4, h5]
  rfl

theorem ResponseDraft08.offsetTable_toNat {p : Nat} (hp : p ≤ 1024) :
    (ResponseDraft08.offsetTable p).map UInt32.toNat =
      [64, 68, 68 + p, 68 + p + 68, 68 + p + 68 + 152] := by
  have h2 : (64 + 4 + UInt32.ofNat p).toNat = 68 + p := add_ofNat_toNat rfl (by omega)
  have h3 : (64 + 4 + UInt32.ofNat p + 68).toNat = 68 + p + 68 :=
    add_ofNat_toNat (n := 68) h2 (by omega)
  have h4 : (64 + 4 + UInt32.ofNat p + 68 + 152).toNat = 68 + p + 68 + 152 :=
    add_ofNat_toNat (n := 152) h3 (by omega)
  simp only [ResponseDraft08.offsetTable, List.map_cons, List.map_nil, h2, h3, h4]
  rfl

/-- The order of a table, in numbers. -/
def Header.TableOk : Nat → List Nat → Prop
  | _, [] => True
  | prior, v :: l => v % 4 = 0 ∧ prior ≤ v ∧ TableOk v l

theorem Header.offsetsOk_iff (p : UInt32) (l : List UInt32) :
    Header.OffsetsOk p l ↔ Header.TableOk p.toNat (l.map UInt32.toNat) := by
  induction l generalizing p with
  | nil => exact Iff.rfl
  | cons v l ih =>
      show (_ ∧ _ ∧ Header.OffsetsOk v l) ↔ (_ ∧ _ ∧ Header.TableOk v.toNat _)
      rw [ih]

theorem Header.offset_eq_map {n : Nat} (h : Header n) (i : Nat) :
    h.offset i = (h.offsets.1.map UInt32.toNat).getD i 0 := by
  unfold Header.offset
  rw [List.getD_eq_getElem?_getD, List.getD_eq_getElem?_getD, List.getElem?_map]
  cases h.offsets.1[i]? <;> rfl

/-! ## Responses -/

/-- A response as its setters leave it. -/
structure Response.Built (r : Response) : Prop where
  table : r.header.offsets.1 = Response.offsetTable r.path.wireSize r.srep.wireSize
  msgType : r.msgType = .response
  srep : r.srep.Built

/-- In draft-08 no setter touches the table of the SREP; the reader takes it, in front of CERT and
INDX. -/
structure ResponseDraft08.Built (r : ResponseDraft08) : Prop where
  table : r.header.offsets.1 = ResponseDraft08.offsetTable r.path.wireSize
  srep : r.srep.Accepts 156

def Response.normalize (r : Response) : Response := { r with path := r.path.normalize }

def ResponseDraft08.normalize (r : ResponseDraft08) : ResponseDraft08 :=
  { r with path := r.path.normalize }

theorem SignedResponse.wireSize_eq (s : SignedResponse) :
    s.wireSize = 88 + 4 * s.supportedVersions.versions.length := by
  simp only [SignedResponse.wireSize, Header.sizeOf, ProtocolVersion.wireSize,
    VersionList.wireSize]
  omega

theorem MerklePath.wireSize_eq (p : MerklePath) : p.wireSize = 32 * p.numPaths := by
  rw [MerklePath.wireSize, MerklePath.elementSize, Nat.mul_comm]

namespace Response

variable {r : Response}

/-- The offsets of a built response, in numbers. -/
theorem Built.table_toNat (h : r.Built) : r.header.offsets.1.map UInt32.toNat =
    [64, 96, 100, 100 + r.path.wireSize, 100 + r.path.wireSize + r.srep.wireSize,
      100 + r.path.wireSize + r.srep.wireSize + 152] := by
  have hp := r.path.bounded
  have hs := r.srep.supportedVersions.bounded
  rw [h.table]
  refine offsetTable_toNat ?_ ?_
  · rw [MerklePath.wireSize_eq]
    omega
  · rw [SignedResponse.wireSize_eq]
    omega

theorem Built.offsets (h : r.Built) : r.header.offset 2 = 100 ∧
    r.header.offset 3 = 100 + 32 * r.path.numPaths ∧
    r.header.offset 4 = r.header.offset 3 + r.srep.wireSize ∧
    r.header.offset 5 = r.header.offset 4 + 152 := by
  simp only [Header.offset_eq_map, h.table_toNat, MerklePath.wireSize_eq]
  exact ⟨rfl, rfl, rfl, rfl⟩

theorem Built.wellFormed (h : r.Built) : r.header.WellFormed := by
  have hp := r.path.wireSize_eq
  have hs := r.srep.wireSize_eq
  refine ⟨?_, ?_⟩
  · rw [Header.offsetsOk_iff, h.table_toNat]
    refine ⟨by decide, by decide, by decide, by decide, by decide, by decide, ?_, ?_, ?_, ?_, ?_,
      ?_, trivial⟩ <;> omega
  · rw [r.tags_eq]
    decide

/-- A built response is acceptable once its path is normalized. -/
theorem Built.accepts (h : r.Built) : r.normalize.Accepts 0 := by
  have hp := r.path.bounded
  have hv := r.srep.supportedVersions.bounded
  have hs := r.srep.wireSize_eq
  obtain ⟨h2, h3, h4, h5⟩ := h.offsets
  refine ⟨h.wellFormed, ?_, h.msgType, r.path.normalize_clean, ?_, h.srep.accepts (by decide)⟩
  · show r.header.InBounds (344 + 32 * r.path.numPaths +
      4 * r.srep.supportedVersions.versions.length + 0)
    rw [h.wellFormed.inBounds_iff (show 5 + 2 = 7 from rfl), Nat.mod_eq_of_lt (by omega)]
    omega
  · show 32 * r.path.numPaths = r.header.offset 3 - r.header.offset 2
    omega

theorem normalize_encode (r : Response) : r.normalize.encode = r.encode := by
  unfold encode
  rw [show r.normalize.path.paths = r.path.paths from r.path.normalize_paths]
  rfl

/-- What was built is read back. -/
theorem Built.fromFrame (h : r.Built) : Response.fromFrame (framed r.encode) = .ok r.normalize := by
  rw [← normalize_encode]
  exact fromFrame_framed h.accepts

end Response

namespace ResponseDraft08

variable {r : ResponseDraft08}

theorem Built.table_toNat (h : r.Built) : r.header.offsets.1.map UInt32.toNat =
    [64, 68, 68 + r.path.wireSize, 68 + r.path.wireSize + 68,
      68 + r.path.wireSize + 68 + 152] := by
  have hp := r.path.bounded
  rw [h.table]
  refine offsetTable_toNat ?_
  rw [MerklePath.wireSize_eq]
  omega

theorem Built.offsets (h : r.Built) : r.header.offset 1 = 68 ∧
    r.header.offset 2 = 68 + 32 * r.path.numPaths ∧
    r.header.offset 3 = r.header.offset 2 + 68 ∧
    r.header.offset 4 = r.header.offset 3 + 152 := by
  simp only [Header.offset_eq_map, h.table_toNat, MerklePath.wireSize_eq]
  exact ⟨rfl, rfl, rfl, rfl⟩

theorem Built.wellFormed (h : r.Built) : r.header.WellFormed := by
  have hp := r.path.wireSize_eq
  refine ⟨?_, ?_⟩
  · rw [Header.offsetsOk_iff, h.table_toNat]
    refine ⟨by decide, by decide, by decide, by decide, ?_, ?_, ?_, ?_, ?_, ?_, trivial⟩ <;> omega
  · rw [r.tags_eq]
    decide

theorem Built.accepts (h : r.Built) : r.normalize.Accepts 0 := by
  have hp := r.path.bounded
  obtain ⟨h1, h2, h3, h4⟩ := h.offsets
  refine ⟨h.wellFormed, ?_, r.path.normalize_clean, ?_, h.srep⟩
  · show r.header.InBounds (292 + 32 * r.path.numPaths + 0)
    rw [h.wellFormed.inBounds_iff (show 4 + 2 = 6 from rfl), Nat.mod_eq_of_lt (by omega)]
    omega
  · show 32 * r.path.numPaths = r.header.offset 2 - r.header.offset 1
    omega

theorem normalize_encode (r : ResponseDraft08) : r.normalize.encode = r.encode := by
  unfold encode encodeWith
  rw [show r.normalize.path.paths = r.path.paths from r.path.normalize_paths]
  rfl

theorem Built.fromFrame (h : r.Built) :
    ResponseDraft08.fromFrame (framed r.encode) = .ok r.normalize := by
  rw [← normalize_encode]
  exact fromFrame_framed h.accepts

end ResponseDraft08

/-! ## Requests made by the constructors -/

/-- Everything that is left can be consumed. -/
theorem Consumes.all {c : ParseCursor} {bs : Bytes} (h : c.rest = bs) :
    ∃ c', Consumes c bs c' ∧ c'.remaining = 0 := by
  have hrest : c.rest = bs ++ [] := by rw [h, List.append_nil]
  obtain ⟨h₁, h₂⟩ := Consumes.of_rest hrest
  exact ⟨_, h₁, by rw [← rest_length, h₂]; rfl⟩

theorem RequestDraft08.fromWire_new {c : ParseCursor} {nonce : Nonce}
    (h : c.rest = (RequestDraft08.new nonce).encode) :
    ∃ c', RequestDraft08.fromWire c = .ok (RequestDraft08.new nonce, c') := by
  obtain ⟨c', hc, hend⟩ := Consumes.all h
  obtain ⟨c₁, h₁, hc⟩ := hc.split
  have hrem := hc.remaining_eq
  obtain ⟨c₂, h₂, hc⟩ := hc.split
  obtain ⟨c₃, h₃, -⟩ := hc.split
  simp only [List.length_append, VersionList.encode_length, Octets.bytes_length] at hrem
  have hwf : RequestDraft08.default.header.WellFormed := ⟨by decide, by decide⟩
  have hbound : RequestDraft08.default.header.InBounds c₁.remaining := by
    rw [hwf.inBounds_iff (show 1 + 2 = 3 from rfl), hrem, hend]
    exact (by decide : RequestDraft08.default.header.offset 1 ≤ 988 % 2 ^ 32)
  have hvers : VersionList.fromWireN 4 c₁ = .ok (RequestDraft08.default.version, c₂) :=
    (VersionList.fromWireN_ok_iff (by decide)).mpr
      ⟨_, VersionList.words_values _, by decide, by decide, h₂⟩
  refine ⟨c₃, ?_⟩
  simp only [fromWire, Prog.bind_ok_iff, Header.fromWireTagged_ok_iff, Nonce.fromWire_ok_iff,
    Prog.pure_ok_iff]
  exact ⟨⟨RequestDraft08.default.header, rfl⟩, c₁, ⟨hwf, hbound, h₁⟩, _, c₂, hvers, nonce, c₃, h₃,
    rfl, rfl⟩

theorem RequestDraft14.fromWire_new {c : ParseCursor} {nonce : Nonce}
    (h : c.rest = (RequestDraft14.new nonce).encode) :
    ∃ c', RequestDraft14.fromWire c = .ok (RequestDraft14.new nonce, c') := by
  obtain ⟨c', hc, hend⟩ := Consumes.all h
  obtain ⟨c₁, h₁, hc⟩ := hc.split
  have hrem := hc.remaining_eq
  obtain ⟨c₂, h₂, hc⟩ := hc.split
  obtain ⟨c₃, h₃, hc⟩ := hc.split
  obtain ⟨c₄, h₄, -⟩ := hc.split
  simp only [List.length_append, VersionList.encode_length, Octets.bytes_length,
    leBytes32_length] at hrem
  have hwf : RequestDraft14.default.header.WellFormed := ⟨by decide, by decide⟩
  have hbound : RequestDraft14.default.header.InBounds c₁.remaining := by
    rw [hwf.inBounds_iff (show 2 + 2 = 4 from rfl), hrem, hend]
    exact (by decide : RequestDraft14.default.header.offset 2 ≤ 980 % 2 ^ 32)
  have hvers : VersionList.fromWireN 4 c₁ = .ok (RequestDraft14.default.version, c₂) :=
    (VersionList.fromWireN_ok_iff (by decide)).mpr
      ⟨_, VersionList.words_values _, by decide, by decide, h₂⟩
  refine ⟨c₄, ?_⟩
  simp only [fromWire, Prog.bind_ok_iff, Header.fromWireTagged_ok_iff, Nonce.fromWire_ok_iff,
    MessageType.fromWire_ok_iff, Prog.failIf_ok_iff, Prog.pure_ok_iff]
  exact ⟨⟨RequestDraft14.default.header, rfl⟩, c₁, ⟨hwf, hbound, h₁⟩, _, c₂, hvers, nonce, c₃, h₃,
    .request, c₄, ⟨by decide, h₄⟩, (), c₄, ⟨by decide, rfl⟩, rfl, rfl⟩

theorem RequestDraft14Srv.fromWire_new {c : ParseCursor} {nonce : Nonce} {server : SrvCommitment}
    (h : c.rest = (RequestDraft14Srv.new nonce server).encode) :
    ∃ c', RequestDraft14Srv.fromWire c = .ok (RequestDraft14Srv.new nonce server, c') := by
  obtain ⟨c', hc, hend⟩ := Consumes.all h
  obtain ⟨c₁, h₁, hc⟩ := hc.split
  have hrem := hc.remaining_eq
  obtain ⟨c₂, h₂, hc⟩ := hc.split
  obtain ⟨c₃, h₃, hc⟩ := hc.split
  obtain ⟨c₄, h₄, hc⟩ := hc.split
  obtain ⟨c₅, h₅, -⟩ := hc.split
  simp only [List.length_append, VersionList.encode_length, Octets.bytes_length,
    leBytes32_length] at hrem
  have hwf : RequestDraft14Srv.default.header.WellFormed := ⟨by decide, by decide⟩
  have hbound : RequestDraft14Srv.default.header.InBounds c₁.remaining := by
    rw [hwf.inBounds_iff (show 3 + 2 = 5 from rfl), hrem, hend]
    exact (by decide : RequestDraft14Srv.default.header.offset 3 ≤ 972 % 2 ^ 32)
  have hvers : VersionList.fromWireN 4 c₁ = .ok (RequestDraft14Srv.default.version, c₂) :=
    (VersionList.fromWireN_ok_iff (by decide)).mpr
      ⟨_, VersionList.words_values _, by decide, by decide, h₂⟩
  refine ⟨c₅, ?_⟩
  simp only [fromWire, Prog.bind_ok_iff, Header.fromWireTagged_ok_iff, Nonce.fromWire_ok_iff,
    SrvCommitment.fromWire_ok_iff, MessageType.fromWire_ok_iff, Prog.failIf_ok_iff,
    Prog.pure_ok_iff]
  exact ⟨⟨RequestDraft14Srv.default.header, rfl⟩, c₁, ⟨hwf, hbound, h₁⟩, _, c₂, hvers, server, c₃,
    h₃, nonce, c₄, h₄, .request, c₅, ⟨by decide, h₅⟩, (), c₅, ⟨by decide, rfl⟩, rfl, rfl⟩

namespace Request

/-- The dispatch on the number of tags. -/
theorem fromWire_eq {c : ParseCursor} (hrem : c.remaining = 1012) {k : UInt32} {q : Bytes}
    (hrest : c.rest = leBytes32 k ++ q) : fromWire c =
      (if k = 3 then (do
        let req ← RequestDraft08.fromWire
        pure (draft08 req) : Wire Request)
      else if k = 4 then do
        let req ← RequestDraft14.fromWire
        pure (draft14 req)
      else if k = 5 then do
        let req ← RequestDraft14Srv.fromWire
        pure (draft14Srv req)
      else Prog.fail (.invalidRequestNumTags k.toNat "3, 4, or 5")) c := by
  have hpeek : setPosition c.position (c.skip (leBytes32 k).length) = .ok ((), c) := rfl
  have hok : (Prog.failIf (c.remaining ≠ 1012) (.badRequestSize c.remaining) : Wire Unit) c =
      .ok ((), c) := Prog.failIf_ok_iff.mpr ⟨not_not.mpr hrem, rfl⟩
  unfold fromWire
  rw [Prog.bind_of_ok (Prog.read_ok_iff.mpr ⟨rfl, rfl⟩), Prog.bind_of_ok hok,
    Prog.bind_of_ok (tryGetU32Le_ok_iff.mpr (Consumes.of_rest hrest).1), Prog.bind_of_ok hpeek]

/-- A frame of 1012 bytes that the reader of the message accepts. -/
theorem fromFrame_of_body {body : Bytes} {r : Request} (hlen : body.length = 1012)
    (h : ∀ c : ParseCursor, c.rest = body → c.remaining = 1012 → ∃ c', fromWire c = .ok (r, c')) :
    fromFrame (framed body) = .ok r := by
  have hnat : (UInt32.ofNat body.length).toNat = 1012 := by
    rw [hlen]
    rfl
  obtain ⟨-, hrest⟩ := consumes_frameHead (rfl : framed body = frameHead _ ++ body)
  unfold fromFrame
  rw [bind_fst_ok_iff, fromFrame_new_iff]
  refine ⟨UInt32.ofNat body.length, body, rfl, by omega, by omega, by omega, ?_⟩
  refine h _ hrest ?_
  rw [← rest_length, hrest, hlen]

theorem fromFrame_newDraft08 (nonce : Nonce) :
    fromFrame (framed (newDraft08 nonce).encode) = .ok (newDraft08 nonce) := by
  refine fromFrame_of_body (encode_length _) ?_
  intro c hrest hrem
  obtain ⟨c', h⟩ := RequestDraft08.fromWire_new hrest
  refine ⟨c', ?_⟩
  rw [fromWire_eq hrem (k := 3) (hrest.trans (List.append_assoc _ _ _)), if_pos rfl,
    Prog.bind_of_ok h]
  rfl

theorem fromFrame_newDraft14 (nonce : Nonce) :
    fromFrame (framed (newDraft14 nonce).encode) = .ok (newDraft14 nonce) := by
  refine fromFrame_of_body (encode_length _) ?_
  intro c hrest hrem
  obtain ⟨c', h⟩ := RequestDraft14.fromWire_new hrest
  refine ⟨c', ?_⟩
  rw [fromWire_eq hrem (k := 4) (hrest.trans (List.append_assoc _ _ _)), if_neg (by decide),
    if_pos rfl, Prog.bind_of_ok h]
  rfl

theorem fromFrame_newDraft14WithServerCommitment (nonce : Nonce) (server : SrvCommitment) :
    fromFrame (framed (newDraft14WithServerCommitment nonce server).encode) =
      .ok (newDraft14WithServerCommitment nonce server) := by
  refine fromFrame_of_body (encode_length _) ?_
  intro c hrest hrem
  obtain ⟨c', h⟩ := RequestDraft14Srv.fromWire_new hrest
  refine ⟨c', ?_⟩
  rw [fromWire_eq hrem (k := 5) (hrest.trans (List.append_assoc _ _ _)), if_neg (by decide),
    if_neg (by decide), if_pos rfl, Prog.bind_of_ok h]
  rfl

end Request

/-- The client looks for the nonce where `new_draft08` puts it. -/
theorem Request.slice_newDraft08 (nonce : Nonce) :
    slice (framed (Request.newDraft08 nonce).encode) 40 72 = nonce.bytes := by
  have hsplit : framed (Request.newDraft08 nonce).encode =
      (frameHead (UInt32.ofNat (Request.newDraft08 nonce).encode.length) ++
        (RequestDraft08.default.header.encode ++ RequestDraft08.default.version.encode)) ++
          (nonce.bytes ++ RequestDraft08.default.padding.bytes) := by
    simp only [List.append_assoc]
    rfl
  rw [hsplit]
  refine slice_middle ?_ (by rw [nonce.size_eq])
  simp only [List.length_append, frameHead_length, Header.encode_length,
    VersionList.encode_length]
  rfl

end Roughenough.Protocol

