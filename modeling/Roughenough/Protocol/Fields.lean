/-
# `Roughenough.Protocol.Fields` — header offsets and decoded values

A header delimits the values of its message: value `k` lies between offset
`k - 1` and offset `k`.  The readers do not look there; they take the values
one after the other.  This module compares the two.

    SignedResponse.decode_iff   when a byte string decodes to a given SREP
    Delimited                   every value is what its two offsets delimit
    Canonical                   the offsets are the ones the values imply
    delimited_iff_canonical     the two agree on every accepted message

So the decoders are right exactly on canonical tables, and they accept others.
-/
import Roughenough.Protocol.Build

namespace Roughenough.Protocol

open Roughenough.Base ParseCursor

/-! ## A SREP on its own -/

/-- The number of VERS entries the reader takes from a SREP that starts like `x`. -/
def versCount (x : Bytes) : Nat := min ((wordAt x 16).toNat - 16) 128 / 4

/-- What the draft-14 reader makes of the bytes `x`: the header, VER as a version, RADI and
MIDP, VERS as versions, ROOT. -/
def srepView (x : Bytes) :
    Bytes × Option ProtocolVersion × Bytes × List (Option ProtocolVersion) × Bytes :=
  (x.take 40, ProtocolVersion.ofWord (wordAt x 40), slice x 44 56,
    (words (versCount x) (x.drop 56)).map ProtocolVersion.ofWord,
    slice x (56 + 4 * versCount x) (88 + 4 * versCount x))

/-- `n` bytes are enough for the SREP that starts like `x`: for its values, and for its offsets,
which the reader compares with the bytes behind the header. -/
def SrepFits (x : Bytes) (n : Nat) : Prop :=
  88 + 4 * versCount x ≤ n ∧ 40 + (wordAt x 16).toNat ≤ n

/-- The view looks no further than the bytes that have to fit. -/
theorem srepView_take {x : Bytes} {n : Nat} (h : SrepFits x n) :
    srepView (x.take n) = srepView x := by
  obtain ⟨hlong, -⟩ := h
  have hmin : min 40 n = 40 := by omega
  have hword : wordAt (x.take n) 16 = wordAt x 16 := wordAt_take x (by omega)
  have hcount : versCount (x.take n) = versCount x := by
    unfold versCount
    rw [hword]
  unfold srepView
  rw [hcount, List.take_take, hmin, wordAt_take x (by omega), slice_take x (by omega),
    slice_take x (by omega), List.drop_take, words_take _ _ _ (by omega)]

namespace SignedResponse

variable {s : SignedResponse} {vw : UInt32} {ws : List UInt32}

/-- The view of a SREP. -/
def view (s : SignedResponse) :
    Bytes × Option ProtocolVersion × Bytes × List (Option ProtocolVersion) × Bytes :=
  (s.header.encode, some s.version, leBytes32 s.radius ++ leBytes64 s.midpoint,
    s.supportedVersions.versions.map some, s.merkleRoot.bytes)

theorem fromWire_new_iff {y : Bytes} : (∃ c', fromWire (new y) = .ok (s, c')) ↔
    ∃ vw ws tail, y = s.encodeWith vw ws ++ tail ∧ s.Spells vw ws ∧ s.Accepts tail.length := by
  constructor
  · rintro ⟨c', h⟩
    obtain ⟨vw, ws, hsp, hacc, hc⟩ := fromWire_ok_iff.mp h
    refine ⟨vw, ws, c'.rest, hc.data_new, hsp, ?_⟩
    rwa [rest_length]
  · rintro ⟨vw, ws, tail, hy, hsp, hacc⟩
    have hrest : (new y).rest = s.encodeWith vw ws ++ tail := hy
    obtain ⟨hc, htail⟩ := Consumes.of_rest hrest
    refine ⟨_, fromWire_ok_iff.mpr ⟨vw, ws, hsp, ?_, hc⟩⟩
    rwa [← rest_length, htail]

theorem wordAt_encodeWith (q : Bytes) :
    (wordAt (s.encodeWith vw ws ++ q) 16).toNat = s.header.offset 3 := by
  unfold encodeWith
  rw [List.append_assoc]
  exact Header.wordAt_encode (i := 3) _ (by decide)

theorem versCount_eq (hsize : 4 * s.supportedVersions.versions.length =
    min (s.header.offset 3 - 16) 128) {x : Bytes} (hx : (wordAt x 16).toNat = s.header.offset 3) :
    versCount x = s.supportedVersions.versions.length := by
  unfold versCount
  rw [hx]
  omega

/-- The words that spell the versions, where they stand in an encoding. -/
theorem words_encodeWith (hsp : s.Spells vw ws) (q : Bytes) :
    wordAt (s.encodeWith vw ws ++ q) 40 = vw ∧
      words s.supportedVersions.versions.length ((s.encodeWith vw ws ++ q).drop 56) = ws := by
  have hlen : s.header.encode.length = 40 := s.header.encode_length
  have hsplit : s.encodeWith vw ws ++ q = s.header.encode ++ (leBytes32 vw ++
      ((leBytes32 s.radius ++ leBytes64 s.midpoint) ++ (ws.flatMap leBytes32 ++
        (s.merkleRoot.bytes ++ q)))) := by
    simp only [encodeWith, List.append_assoc]
  refine ⟨?_, ?_⟩
  · rw [hsplit]
    exact (wordAt_append_right (n := 0) hlen).trans (wordAt_zero vw _)
  · have hdrop : (s.encodeWith vw ws ++ q).drop 56 =
        ws.flatMap leBytes32 ++ (s.merkleRoot.bytes ++ q) := by
      rw [hsplit, ← List.append_assoc, ← List.append_assoc]
      refine List.drop_left' ?_
      simp only [List.length_append, hlen, leBytes32_length, leBytes64_length]
    rw [hdrop, ← hsp.vers.length_eq]
    exact words_flatMap ws _

/-- The view of an encoding does not depend on the words that spell the versions. -/
theorem srepView_encodeWith (hsp : s.Spells vw ws) (hsize : 4 * s.supportedVersions.versions.length =
    min (s.header.offset 3 - 16) 128) (q : Bytes) :
    srepView (s.encodeWith vw ws ++ q) = s.view := by
  have hcount : versCount (s.encodeWith vw ws ++ q) = s.supportedVersions.versions.length :=
    versCount_eq hsize (wordAt_encodeWith q)
  have hlen : s.header.encode.length = 40 := s.header.encode_length
  have hws := hsp.vers.length_eq
  have hwords := VersionList.flatMap_words_length ws
  obtain ⟨hver, hvers⟩ := words_encodeWith hsp q
  have hsplit : s.encodeWith vw ws ++ q = s.header.encode ++ (leBytes32 vw ++
      ((leBytes32 s.radius ++ leBytes64 s.midpoint) ++ (ws.flatMap leBytes32 ++
        (s.merkleRoot.bytes ++ q)))) := by
    simp only [encodeWith, List.append_assoc]
  have htake : (s.encodeWith vw ws ++ q).take 40 = s.header.encode := by
    rw [hsplit]
    exact List.take_left' hlen
  have hmid : slice (s.encodeWith vw ws ++ q) 44 56 =
      leBytes32 s.radius ++ leBytes64 s.midpoint := by
    rw [hsplit, ← List.append_assoc]
    refine slice_middle ?_ ?_
    · rw [List.length_append, hlen, leBytes32_length]
    · rw [List.length_append, leBytes32_length, leBytes64_length]
  have hroot : slice (s.encodeWith vw ws ++ q) (56 + 4 * s.supportedVersions.versions.length)
      (88 + 4 * s.supportedVersions.versions.length) = s.merkleRoot.bytes := by
    rw [hsplit, ← List.append_assoc, ← List.append_assoc, ← List.append_assoc]
    refine slice_middle ?_ ?_
    · simp only [List.length_append, hlen, leBytes32_length, leBytes64_length, hwords, hws]
    · rw [s.merkleRoot.size_eq]
      omega
  unfold srepView view
  rw [hcount, htake, hver, hmid, hvers, hroot, hsp.ver, show _ = _ from hsp.vers]

/-- Bytes with the view of a SREP are an encoding of it. -/
theorem encodeWith_of_srepView (hsize : 4 * s.supportedVersions.versions.length =
    min (s.header.offset 3 - 16) 128) {y : Bytes}
    (hlong : 88 + 4 * s.supportedVersions.versions.length ≤ y.length)
    (hview : srepView y = s.view) :
    ∃ vw ws tail, y = s.encodeWith vw ws ++ tail ∧ s.Spells vw ws := by
  simp only [srepView, view, Prod.mk.injEq] at hview
  obtain ⟨htake, hver, hmid, hvers, hroot⟩ := hview
  have hsplit : y = y.take 40 ++ y.drop 40 := (List.take_append_drop 40 y).symm
  have hword : (wordAt y 16).toNat = s.header.offset 3 := by
    rw [hsplit, htake]
    exact Header.wordAt_encode (i := 3) _ (by decide)
  have hcount := versCount_eq hsize hword
  rw [hcount] at hvers hroot
  have h44 : y.drop 40 = slice y 40 44 ++ y.drop 44 := drop_eq_slice_append y (by decide)
  have h56 : y.drop 44 = slice y 44 56 ++ y.drop 56 := drop_eq_slice_append y (by decide)
  have hvs := drop_eq_slice_append y
    (show 56 ≤ 56 + 4 * s.supportedVersions.versions.length by omega)
  have hend := drop_eq_slice_append y (show 56 + 4 * s.supportedVersions.versions.length ≤
    88 + 4 * s.supportedVersions.versions.length by omega)
  have hvw : leBytes32 (wordAt y 40) = slice y 40 44 :=
    leBytes32_ofLeBytes32 (slice_length (by omega))
  have hflat : (words s.supportedVersions.versions.length (y.drop 56)).flatMap leBytes32 =
      slice y 56 (56 + 4 * s.supportedVersions.versions.length) := by
    rw [flatMap_words _ _ (by rw [List.length_drop]; omega), slice, Nat.add_sub_cancel_left]
  refine ⟨wordAt y 40, words s.supportedVersions.versions.length (y.drop 56),
    y.drop (88 + 4 * s.supportedVersions.versions.length), ?_, hver, hvers⟩
  rw [encodeWith, hvw, hflat, ← hroot, ← htake]
  conv_lhs => rw [hsplit, h44, h56, hmid, hvs, hend]
  simp only [List.append_assoc]

/-- A byte string decodes to the SREP that was read from `x` exactly when it is long enough
and has the same view. -/
theorem decode_iff {x y q : Bytes} {t : Nat} (hx : x = s.encodeWith vw ws ++ q)
    (hsp : s.Spells vw ws) (hacc : s.Accepts t) (hy : y.length < 2 ^ 32) :
    (∃ c', fromWire (new y) = .ok (s, c')) ↔ SrepFits x y.length ∧ srepView x = srepView y := by
  have hsize := hacc.size_eq
  have hword : (wordAt x 16).toNat = s.header.offset 3 := by rw [hx, wordAt_encodeWith]
  have hcount := versCount_eq hsize hword
  have hview : srepView x = s.view := by rw [hx, srepView_encodeWith hsp hsize]
  unfold SrepFits
  rw [fromWire_new_iff, hcount, hword, hview]
  constructor
  · rintro ⟨vw', ws', tail, rfl, hsp', hacc'⟩
    have hb := (hacc'.wellFormed.inBounds_iff (show 3 + 2 = 5 from rfl)).mp hacc'.inBounds
    have hmod := Nat.mod_le (48 + 4 * s.supportedVersions.versions.length + tail.length) (2 ^ 32)
    rw [srepView_encodeWith hsp' hsize]
    rw [List.length_append, hsp'.encodeWith_length]
    exact ⟨⟨by omega, by omega⟩, rfl⟩
  · rintro ⟨⟨hlong, hbound⟩, hview⟩
    obtain ⟨vw', ws', tail, rfl, hsp'⟩ := encodeWith_of_srepView hsize hlong hview.symm
    rw [List.length_append, hsp'.encodeWith_length] at hbound hy
    refine ⟨vw', ws', tail, rfl, hsp', hacc.wellFormed, hacc.ascending, hacc.nonempty, hsize, ?_⟩
    rw [hacc.wellFormed.inBounds_iff (show 3 + 2 = 5 from rfl), Nat.mod_eq_of_lt (by omega)]
    omega

end SignedResponse

/-- `n` bytes are enough for a draft-08 SREP that starts like `x`. -/
def SrepFits08 (x : Bytes) (n : Nat) : Prop := 68 ≤ n ∧ 24 + (wordAt x 8).toNat ≤ n

/-- The draft-08 reader takes all of its 68 bytes as they are. -/
theorem SignedResponseDraft08.decode_iff {s : SignedResponseDraft08} {x y q : Bytes} {t : Nat}
    (hx : x = s.encode ++ q) (hacc : s.Accepts t) (hy : y.length < 2 ^ 32) :
    (∃ c', SignedResponseDraft08.fromWire (new y) = .ok (s, c')) ↔
      SrepFits08 x y.length ∧ x.take 68 = y.take 68 := by
  have hword : (wordAt x 8).toNat = s.header.offset 1 := by
    rw [hx, SignedResponseDraft08.encode, List.append_assoc]
    exact Header.wordAt_encode (i := 1) _ (by decide)
  have hxtake : x.take 68 = s.encode := by
    rw [hx]
    exact List.take_left' s.encode_length
  unfold SrepFits08
  rw [hword, hxtake]
  constructor
  · rintro ⟨c', h⟩
    obtain ⟨hacc', hc⟩ := SignedResponseDraft08.fromWire_ok_iff.mp h
    have hyeq : y = s.encode ++ c'.rest := hc.data_new
    have hb := (hacc'.wellFormed.inBounds_iff (show 1 + 2 = 3 from rfl)).mp hacc'.inBounds
    have hmod := Nat.mod_le (44 + c'.remaining) (2 ^ 32)
    have hlen : y.length = 68 + c'.remaining := by
      rw [hyeq, List.length_append, s.encode_length, rest_length]
    refine ⟨⟨by omega, by omega⟩, ?_⟩
    rw [hyeq]
    exact (List.take_left' s.encode_length).symm
  · rintro ⟨⟨hlong, hbound⟩, htake⟩
    have hrest : (new y).rest = s.encode ++ y.drop 68 := by
      rw [htake]
      exact (List.take_append_drop 68 y).symm
    obtain ⟨hc, htail⟩ := Consumes.of_rest hrest
    refine ⟨_, SignedResponseDraft08.fromWire_ok_iff.mpr ⟨⟨hacc.wellFormed, ?_⟩, hc⟩⟩
    rw [hacc.wellFormed.inBounds_iff (show 1 + 2 = 3 from rfl), ← rest_length, htail,
      List.length_drop, Nat.mod_eq_of_lt (by omega)]
    omega

/-! ## Delimited values -/

/-- The bytes are the words of the list, one for each entry. -/
def DecodesVersions (l : VersionList) (bs : Bytes) : Prop :=
  ∃ ws, VersionList.Words l.versions ws ∧ bs = ws.flatMap leBytes32

/-- Every value of the request is what the offsets of its header delimit, and the values of a
fixed size have that size between their offsets.  The padding is not a decoded value. -/
def Request.Delimited (b : Bytes) : Request → Prop
  | .draft08 r =>
      DecodesVersions r.version (slice (frameValues 3 b) 0 (r.header.offset 0)) ∧
      slice (frameValues 3 b) (r.header.offset 0) (r.header.offset 1) = r.nonce.bytes ∧
      r.header.offset 1 - r.header.offset 0 = 32
  | .draft14 r =>
      DecodesVersions r.version (slice (frameValues 4 b) 0 (r.header.offset 0)) ∧
      slice (frameValues 4 b) (r.header.offset 0) (r.header.offset 1) = r.nonce.bytes ∧
      slice (frameValues 4 b) (r.header.offset 1) (r.header.offset 2) =
        leBytes32 r.msgType.value ∧
      r.header.offset 1 - r.header.offset 0 = 32 ∧ r.header.offset 2 - r.header.offset 1 = 4
  | .draft14Srv r =>
      DecodesVersions r.version (slice (frameValues 5 b) 0 (r.header.offset 0)) ∧
      slice (frameValues 5 b) (r.header.offset 0) (r.header.offset 1) = r.server.bytes ∧
      slice (frameValues 5 b) (r.header.offset 1) (r.header.offset 2) = r.nonce.bytes ∧
      slice (frameValues 5 b) (r.header.offset 2) (r.header.offset 3) =
        leBytes32 r.msgType.value ∧
      r.header.offset 1 - r.header.offset 0 = 32 ∧ r.header.offset 2 - r.header.offset 1 = 32 ∧
      r.header.offset 3 - r.header.offset 2 = 4

/-- The offsets from number `i` on advance by the given sizes. -/
def OffsetsStep (b : Bytes) : Nat → List Nat → Prop
  | _, [] => True
  | i, size :: sizes => frameOffset b (i + 1) = frameOffset b i + size ∧ OffsetsStep b (i + 1) sizes

/-- The sizes of the values behind VER, by the number of tags. -/
def requestSizes (numTags : Nat) : List Nat :=
  if numTags = 3 then [32] else if numTags = 4 then [32, 4] else [32, 32, 4]

/-- VER has at most 32 entries, and the other offsets follow from the sizes of the values. -/
def CanonicalRequest (b : Bytes) : Prop :=
  frameOffset b 0 ≤ 128 ∧ OffsetsStep b 0 (requestSizes (wordAt b 12).toNat)

/-- The same for a draft-14 response; SREP is decoded on its own, and INDX is the last value. -/
structure Response.Delimited (b : Bytes) (r : Response) : Prop where
  sig : slice (frameValues 7 b) 0 (r.header.offset 0) = r.signature.bytes
  nonc : slice (frameValues 7 b) (r.header.offset 0) (r.header.offset 1) = r.nonce.bytes
  type : slice (frameValues 7 b) (r.header.offset 1) (r.header.offset 2) =
    leBytes32 r.msgType.value
  path : slice (frameValues 7 b) (r.header.offset 2) (r.header.offset 3) = r.path.paths
  srep : ∃ c, SignedResponse.fromWire
    (new (slice (frameValues 7 b) (r.header.offset 3) (r.header.offset 4))) = .ok (r.srep, c)
  cert : slice (frameValues 7 b) (r.header.offset 4) (r.header.offset 5) = r.cert.encode
  indx : slice (frameValues 7 b) (r.header.offset 5) (r.header.offset 5 + 4) = leBytes32 r.index
  sizes : r.header.offset 0 = 64 ∧ r.header.offset 1 - r.header.offset 0 = 32 ∧
    r.header.offset 2 - r.header.offset 1 = 4 ∧
    r.header.offset 4 - r.header.offset 3 = r.srep.wireSize ∧
    r.header.offset 5 - r.header.offset 4 = 152

structure ResponseDraft08.Delimited (b : Bytes) (r : ResponseDraft08) : Prop where
  sig : slice (frameValues 6 b) 0 (r.header.offset 0) = r.signature.bytes
  ver : ∃ w, ProtocolVersion.ofWord w = some r.version ∧
    slice (frameValues 6 b) (r.header.offset 0) (r.header.offset 1) = leBytes32 w
  path : slice (frameValues 6 b) (r.header.offset 1) (r.header.offset 2) = r.path.paths
  srep : ∃ c, SignedResponseDraft08.fromWire
    (new (slice (frameValues 6 b) (r.header.offset 2) (r.header.offset 3))) = .ok (r.srep, c)
  cert : slice (frameValues 6 b) (r.header.offset 3) (r.header.offset 4) = r.cert.encode
  indx : slice (frameValues 6 b) (r.header.offset 4) (r.header.offset 4 + 4) = leBytes32 r.index
  sizes : r.header.offset 0 = 64 ∧ r.header.offset 1 - r.header.offset 0 = 4 ∧
    r.header.offset 3 - r.header.offset 2 = 68 ∧ r.header.offset 4 - r.header.offset 3 = 152

/-- The table of a draft-14 response: the fixed offsets, the size of the SREP that starts at the
fourth of them, and the offsets of that SREP inside it. -/
def CanonicalResponse (b : Bytes) : Prop :=
  frameOffset b 0 = 64 ∧ frameOffset b 1 = 96 ∧ frameOffset b 2 = 100 ∧
  frameOffset b 4 = frameOffset b 3 + (88 + 4 * versCount (b.drop (68 + frameOffset b 3))) ∧
  frameOffset b 5 = frameOffset b 4 + 152 ∧
  SrepFits (b.drop (68 + frameOffset b 3)) (frameOffset b 4 - frameOffset b 3)

def CanonicalResponse08 (b : Bytes) : Prop :=
  frameOffset b 0 = 64 ∧ frameOffset b 1 = 68 ∧ frameOffset b 3 = frameOffset b 2 + 68 ∧
  frameOffset b 4 = frameOffset b 3 + 152 ∧ SrepFits08 (b.drop (60 + frameOffset b 2)) 68

/-- One value: it fills the gap between its offsets, and the next one follows. -/
theorem slice_step {v x q : Bytes} {a o : Nat} (hv : v.drop a = x ++ q) (ho : o = a + x.length) :
    slice v a o = x ∧ v.drop o = q := by
  subst ho
  refine ⟨?_, ?_⟩
  · unfold slice
    rw [hv, Nat.add_sub_cancel_left]
    exact List.take_left' rfl
  · rw [← List.drop_drop, hv]
    exact List.drop_left' rfl

/-- A list that was read whole is decoded from its slice, and only then. -/
theorem decodesVersions_iff {l : RequestedVersions} {ws : List UInt32} {v q : Bytes} {n : Nat}
    (hws : ReadsVersions l n ws) (hv : v = ws.flatMap leBytes32 ++ q) (hn : n ≤ v.length) :
    DecodesVersions l (slice v 0 n) ↔ n ≤ 128 := by
  have hlen := hws.length_eq
  constructor
  · rintro ⟨ws', hws', heq⟩
    have h := congrArg List.length heq
    rw [slice_length hn, VersionList.flatMap_words_length, hws'.length_eq] at h
    have := l.bounded
    omega
  · intro hle
    refine ⟨ws, hws.words, ?_⟩
    exact (slice_step (a := 0) (by rw [List.drop_zero]; exact hv) (by omega)).1

/-- An accepted request: its header, VER, the other values, and what was not read. -/
theorem Request.layout {n : Nat} {h : Header n} {b body X Y : Bytes} {len : UInt32}
    {c' : ParseCursor} (hb : b = frameHead len ++ body)
    (hc : Consumes ((new b).skip 12) (h.encode ++ (X ++ Y)) c')
    (hbound : h.InBounds (((new b).skip 12).remaining - Header.sizeOf n)) :
    b = frameHead len ++ (h.encode ++ (X ++ (Y ++ c'.rest))) ∧
      frameValues n b = X ++ (Y ++ c'.rest) ∧ ∀ i, h.offset i ≤ (frameValues n b).length := by
  obtain ⟨-, hrest⟩ := consumes_frameHead hb
  have hbody : body = h.encode ++ (X ++ (Y ++ c'.rest)) := by
    rw [← hrest, hc.rest_eq, List.append_assoc, List.append_assoc]
  have hval : frameValues n b = X ++ (Y ++ c'.rest) := by
    rw [hb, hbody]
    exact frameValues_eq len _
  refine ⟨by rw [hb, hbody], hval, ?_⟩
  intro i
  have hrem : ((new b).skip 12).remaining - Header.sizeOf n = (frameValues n b).length := by
    rw [← rest_length, hrest, hval, hbody, List.length_append, h.encode_length,
      Nat.add_sub_cancel_left]
  rw [hrem] at hbound
  exact hbound.offset_le

/-- Behind a VER that was read whole, the next value starts at the first offset. -/
theorem drop_versions {l : RequestedVersions} {ws : List UInt32} {v q : Bytes} {n : Nat}
    (hws : ReadsVersions l n ws) (hv : v = ws.flatMap leBytes32 ++ q) (hn : n ≤ 128) :
    v.drop n = q := by
  have hlen := hws.length_eq
  rw [hv]
  exact List.drop_left' (by omega)

section Requests

variable {b body : Bytes} {len : UInt32} {c' : ParseCursor} (hb : b = frameHead len ++ body)
include hb

theorem RequestDraft08.delimited_iff {r : RequestDraft08}
    (hr : RequestDraft08.fromWire ((ParseCursor.new b).skip 12) = .ok (r, c')) :
    (Request.draft08 r).Delimited b ↔ CanonicalRequest b := by
  obtain ⟨hwf, hbound, ws, hws, hc⟩ := RequestDraft08.fromWire_ok hr
  obtain ⟨hb, hval, hoff⟩ := Request.layout hb hc hbound
  have ho : ∀ i, i + 1 < 3 → frameOffset b i = r.header.offset i := by
    intro i hi
    rw [hb]
    exact frameOffset_eq len _ hi
  have hsizes : requestSizes (wordAt b 12).toNat = [32] := by
    rw [hb, numTags_eq len]
    rfl
  have hmono : r.header.offset 0 ≤ r.header.offset 1 := hwf.le_succ (by decide)
  simp only [CanonicalRequest, hsizes, OffsetsStep, Request.Delimited, ho 0 (by decide),
    ho 1 (by decide), decodesVersions_iff hws hval (hoff 0)]
  constructor
  · rintro ⟨h128, -, hsize⟩
    exact ⟨h128, by omega, trivial⟩
  · rintro ⟨h128, hstep, -⟩
    have hdrop := drop_versions hws hval h128
    obtain ⟨hnonc, -⟩ := slice_step hdrop (hstep.trans (by rw [r.nonce.size_eq]))
    exact ⟨h128, hnonc, by omega⟩

theorem RequestDraft14.delimited_iff {r : RequestDraft14}
    (hr : RequestDraft14.fromWire ((ParseCursor.new b).skip 12) = .ok (r, c')) :
    (Request.draft14 r).Delimited b ↔ CanonicalRequest b := by
  obtain ⟨hwf, hbound, ws, hws, hc⟩ := RequestDraft14.fromWire_ok hr
  obtain ⟨hb, hval, hoff⟩ := Request.layout hb hc hbound
  have ho : ∀ i, i + 1 < 4 → frameOffset b i = r.header.offset i := by
    intro i hi
    rw [hb]
    exact frameOffset_eq len _ hi
  have hsizes : requestSizes (wordAt b 12).toNat = [32, 4] := by
    rw [hb, numTags_eq len]
    rfl
  have hmono : r.header.offset 0 ≤ r.header.offset 1 := hwf.le_succ (by decide)
  have hmono' : r.header.offset 1 ≤ r.header.offset 2 := hwf.le_succ (by decide)
  simp only [CanonicalRequest, hsizes, OffsetsStep, Request.Delimited, ho 0 (by decide),
    ho 1 (by decide), ho 2 (by decide), decodesVersions_iff hws hval (hoff 0)]
  constructor
  · rintro ⟨h128, -, -, hsize, hsize'⟩
    exact ⟨h128, by omega, by omega, trivial⟩
  · rintro ⟨h128, hstep, hstep', -⟩
    have hdrop := drop_versions hws hval h128
    rw [List.append_assoc] at hdrop
    obtain ⟨hnonc, hdrop⟩ := slice_step hdrop (hstep.trans (by rw [r.nonce.size_eq]))
    obtain ⟨htype, -⟩ := slice_step hdrop (hstep'.trans (by rw [leBytes32_length]))
    exact ⟨h128, hnonc, htype, by omega, by omega⟩

theorem RequestDraft14Srv.delimited_iff {r : RequestDraft14Srv}
    (hr : RequestDraft14Srv.fromWire ((ParseCursor.new b).skip 12) = .ok (r, c')) :
    (Request.draft14Srv r).Delimited b ↔ CanonicalRequest b := by
  obtain ⟨hwf, hbound, ws, hws, hc⟩ := RequestDraft14Srv.fromWire_ok hr
  obtain ⟨hb, hval, hoff⟩ := Request.layout hb hc hbound
  have ho : ∀ i, i + 1 < 5 → frameOffset b i = r.header.offset i := by
    intro i hi
    rw [hb]
    exact frameOffset_eq len _ hi
  have hsizes : requestSizes (wordAt b 12).toNat = [32, 32, 4] := by
    rw [hb, numTags_eq len]
    rfl
  have hmono : r.header.offset 0 ≤ r.header.offset 1 := hwf.le_succ (by decide)
  have hmono' : r.header.offset 1 ≤ r.header.offset 2 := hwf.le_succ (by decide)
  have hmono'' : r.header.offset 2 ≤ r.header.offset 3 := hwf.le_succ (by decide)
  simp only [CanonicalRequest, hsizes, OffsetsStep, Request.Delimited, ho 0 (by decide),
    ho 1 (by decide), ho 2 (by decide), ho 3 (by decide), decodesVersions_iff hws hval (hoff 0)]
  constructor
  · rintro ⟨h128, -, -, -, hsize, hsize', hsize''⟩
    exact ⟨h128, by omega, by omega, by omega, trivial⟩
  · rintro ⟨h128, hstep, hstep', hstep'', -⟩
    have hdrop := drop_versions hws hval h128
    rw [List.append_assoc, List.append_assoc] at hdrop
    obtain ⟨hsrv, hdrop⟩ := slice_step hdrop (hstep.trans (by rw [r.server.size_eq]))
    obtain ⟨hnonc, hdrop⟩ := slice_step hdrop (hstep'.trans (by rw [r.nonce.size_eq]))
    obtain ⟨htype, -⟩ := slice_step hdrop (hstep''.trans (by rw [leBytes32_length]))
    exact ⟨h128, hsrv, hnonc, htype, by omega, by omega, by omega⟩

end Requests

theorem Request.delimited_iff {b : Bytes} {r : Request} (h : Request.fromFrame b = .ok r) :
    r.Delimited b ↔ CanonicalRequest b := by
  obtain ⟨len, body, hb, -, -, -, c', hp⟩ := Request.fromFrame_ok h
  obtain ⟨-, hcases⟩ := Request.fromWire_ok hp
  rcases hcases with ⟨req, rfl, hreq⟩ | ⟨req, rfl, hreq⟩ | ⟨req, rfl, hreq⟩
  · exact RequestDraft08.delimited_iff hb hreq
  · exact RequestDraft14.delimited_iff hb hreq
  · exact RequestDraft14Srv.delimited_iff hb hreq

/-- Dropping into the values section. -/
theorem drop_frameValues7 (b : Bytes) (o : Nat) :
    (frameValues 7 b).drop o = b.drop (68 + o) := List.drop_drop

theorem drop_frameValues6 (b : Bytes) (o : Nat) :
    (frameValues 6 b).drop o = b.drop (60 + o) := List.drop_drop

namespace Response

/-- An accepted response, value by value, with its offsets in the raw bytes. -/
structure Layout (b : Bytes) (r : Response) (vw : UInt32) (ws : List UInt32) (tail : Bytes) :
    Prop where
  spells : r.srep.Spells vw ws
  accepts : r.Accepts tail.length
  values : frameValues 7 b = r.signature.bytes ++ (r.nonce.bytes ++ (leBytes32 r.msgType.value ++
    (r.path.paths ++ (r.srep.encodeWith vw ws ++ (r.cert.encode ++ (leBytes32 r.index ++ tail))))))
  offset : ∀ i, i + 1 < 7 → frameOffset b i = r.header.offset i

theorem layout_of_encodeWith {b : Bytes} {r : Response} {len vw : UInt32} {ws : List UInt32}
    {tail : Bytes} (hb : b = frameHead len ++ (r.encodeWith vw ws ++ tail))
    (hsp : r.srep.Spells vw ws) (hacc : r.Accepts tail.length) : r.Layout b vw ws tail := by
  have hshape : b = frameHead len ++ (r.header.encode ++ (r.signature.bytes ++ (r.nonce.bytes ++
      (leBytes32 r.msgType.value ++ (r.path.paths ++ (r.srep.encodeWith vw ws ++
        (r.cert.encode ++ (leBytes32 r.index ++ tail)))))))) := by
    rw [hb]
    simp only [encodeWith, front, back, List.append_assoc]
  refine ⟨hsp, hacc, ?_, ?_⟩
  · rw [hshape]
    exact frameValues_eq len _
  · intro i hi
    rw [hshape]
    exact frameOffset_eq len _ hi

theorem layout {b : Bytes} {r : Response} (h : fromFrame b = .ok r) :
    ∃ vw ws tail, r.Layout b vw ws tail := by
  obtain ⟨len, vw, ws, tail, hb, hsp, hacc, -, -⟩ := fromFrame_ok_iff.mp h
  exact ⟨vw, ws, tail, layout_of_encodeWith hb hsp hacc⟩

namespace Layout

variable {b : Bytes} {r : Response} {vw : UInt32} {ws : List UInt32} {tail : Bytes}
  (hL : r.Layout b vw ws tail)
include hL

theorem offset_le (i : Nat) : r.header.offset i ≤ (frameValues 7 b).length := by
  have hlen : (frameValues 7 b).length = 344 + 32 * r.path.numPaths +
      4 * r.srep.supportedVersions.versions.length + tail.length := by
    simp only [hL.values, List.length_append, Octets.bytes_length, leBytes32_length,
      MerklePath.paths_length, hL.spells.encodeWith_length, Certificate.encode_length]
    omega
  rw [hlen]
  exact hL.accepts.inBounds.offset_le

/-- The reader stands behind PATH, wherever the offsets point. -/
theorem drop_srep : (frameValues 7 b).drop (100 + (r.header.offset 3 - r.header.offset 2)) =
    r.srep.encodeWith vw ws ++ (r.cert.encode ++ (leBytes32 r.index ++ tail)) := by
  have hsplit : frameValues 7 b = (r.signature.bytes ++ (r.nonce.bytes ++
      (leBytes32 r.msgType.value ++ r.path.paths))) ++ (r.srep.encodeWith vw ws ++
        (r.cert.encode ++ (leBytes32 r.index ++ tail))) := by
    rw [hL.values]
    simp only [List.append_assoc]
  rw [hsplit]
  refine List.drop_left' ?_
  simp only [List.length_append, Octets.bytes_length, leBytes32_length, MerklePath.paths_length,
    ← hL.accepts.path_eq]
  omega

/-- The values in front of SREP, where the first three offsets are the expected ones. -/
theorem front (e0 : r.header.offset 0 = 64) (e1 : r.header.offset 1 = 96)
    (e2 : r.header.offset 2 = 100) :
    slice (frameValues 7 b) 0 (r.header.offset 0) = r.signature.bytes ∧
    slice (frameValues 7 b) (r.header.offset 0) (r.header.offset 1) = r.nonce.bytes ∧
    slice (frameValues 7 b) (r.header.offset 1) (r.header.offset 2) = leBytes32 r.msgType.value ∧
    slice (frameValues 7 b) (r.header.offset 2) (r.header.offset 3) = r.path.paths ∧
    (frameValues 7 b).drop (r.header.offset 3) =
      r.srep.encodeWith vw ws ++ (r.cert.encode ++ (leBytes32 r.index ++ tail)) := by
  have hpath := hL.accepts.path_eq
  have h23 : r.header.offset 2 ≤ r.header.offset 3 := hL.accepts.wellFormed.le_succ (by decide)
  have hdrop : (frameValues 7 b).drop 0 = _ := hL.values
  obtain ⟨hsig, hdrop⟩ := slice_step hdrop (e0.trans (by rw [r.signature.size_eq]))
  obtain ⟨hnonc, hdrop⟩ := slice_step hdrop
    (show r.header.offset 1 = _ by rw [r.nonce.size_eq]; omega)
  obtain ⟨htype, hdrop⟩ := slice_step hdrop
    (show r.header.offset 2 = _ by rw [leBytes32_length]; omega)
  obtain ⟨hpaths, hdrop⟩ := slice_step hdrop
    (show r.header.offset 3 = _ by rw [MerklePath.paths_length]; omega)
  exact ⟨hsig, hnonc, htype, hpaths, hdrop⟩

theorem versCount_eq {q x : Bytes} (hx : x = r.srep.encodeWith vw ws ++ q) :
    versCount x = r.srep.supportedVersions.versions.length := by
  rw [hx]
  exact SignedResponse.versCount_eq hL.accepts.srep.size_eq (SignedResponse.wordAt_encodeWith q)

/-- The SREP, cut out to its exact size, decodes if its own offsets stay inside. -/
theorem decode_exact {q x : Bytes} (hx : x = r.srep.encodeWith vw ws ++ q)
    (hfits : SrepFits x (r.srep.encodeWith vw ws).length) :
    ∃ c, SignedResponse.fromWire (new (r.srep.encodeWith vw ws)) = .ok (r.srep, c) := by
  have hbound := r.srep.supportedVersions.bounded
  have hlen := hL.spells.encodeWith_length
  have hsize := hL.accepts.srep.size_eq
  have hself := SignedResponse.srepView_encodeWith hL.spells hsize []
  rw [List.append_nil] at hself
  refine (SignedResponse.decode_iff hx hL.spells hL.accepts.srep (by omega)).mpr ⟨hfits, ?_⟩
  rw [hx, SignedResponse.srepView_encodeWith hL.spells hsize, hself]

theorem canonical_of_delimited (hd : r.Delimited b) : CanonicalResponse b := by
  have hwf := hL.accepts.wellFormed
  have h01 : r.header.offset 0 ≤ r.header.offset 1 := hwf.le_succ (by decide)
  have h12 : r.header.offset 1 ≤ r.header.offset 2 := hwf.le_succ (by decide)
  have h34 : r.header.offset 3 ≤ r.header.offset 4 := hwf.le_succ (by decide)
  have h45 : r.header.offset 4 ≤ r.header.offset 5 := hwf.le_succ (by decide)
  have hbound := r.srep.supportedVersions.bounded
  have hsize := r.srep.wireSize_eq
  obtain ⟨e0, d1, d2, d4, d5⟩ := hd.sizes
  obtain ⟨-, -, -, -, hdrop⟩ := hL.front e0 (by omega) (by omega)
  rw [drop_frameValues7] at hdrop
  have hylen : (slice (frameValues 7 b) (r.header.offset 3) (r.header.offset 4)).length =
      r.header.offset 4 - r.header.offset 3 := slice_length (hL.offset_le 4)
  obtain ⟨hfits, -⟩ := (SignedResponse.decode_iff hdrop hL.spells hL.accepts.srep
    (by omega)).mp hd.srep
  have hcount := hL.versCount_eq hdrop
  rw [hylen] at hfits
  unfold CanonicalResponse
  rw [hL.offset 0 (by decide), hL.offset 1 (by decide), hL.offset 2 (by decide),
    hL.offset 3 (by decide), hL.offset 4 (by decide), hL.offset 5 (by decide)]
  exact ⟨e0, by omega, by omega, by rw [hcount]; omega, by omega, hfits⟩

theorem delimited_of_canonical (hc : CanonicalResponse b) : r.Delimited b := by
  have hlen := hL.spells.encodeWith_length
  have hsize := r.srep.wireSize_eq
  unfold CanonicalResponse at hc
  rw [hL.offset 0 (by decide), hL.offset 1 (by decide), hL.offset 2 (by decide),
    hL.offset 3 (by decide), hL.offset 4 (by decide), hL.offset 5 (by decide)] at hc
  obtain ⟨e0, e1, e2, e4, e5, hfits⟩ := hc
  obtain ⟨hsig, hnonc, htype, hpaths, hdrop⟩ := hL.front e0 e1 e2
  have hread := hdrop
  rw [drop_frameValues7] at hread
  rw [hL.versCount_eq hread] at e4
  have hgap : r.header.offset 4 - r.header.offset 3 = (r.srep.encodeWith vw ws).length := by omega
  rw [hgap] at hfits
  obtain ⟨hsrep, hdrop⟩ := slice_step hdrop (show r.header.offset 4 = _ by rw [hlen]; exact e4)
  obtain ⟨hcert, hdrop⟩ := slice_step hdrop (e5.trans (by rw [Certificate.encode_length]))
  obtain ⟨hindx, -⟩ := slice_step hdrop
    (show r.header.offset 5 + 4 = _ by rw [leBytes32_length])
  exact ⟨hsig, hnonc, htype, hpaths, by rw [hsrep]; exact hL.decode_exact hread hfits, hcert,
    hindx, e0, by omega, by omega, by omega, by omega⟩

end Layout

theorem delimited_iff {b : Bytes} {r : Response} (h : fromFrame b = .ok r) :
    r.Delimited b ↔ CanonicalResponse b := by
  obtain ⟨vw, ws, tail, hL⟩ := layout h
  exact ⟨hL.canonical_of_delimited, hL.delimited_of_canonical⟩

end Response

namespace ResponseDraft08

structure Layout (b : Bytes) (r : ResponseDraft08) (vw : UInt32) (tail : Bytes) : Prop where
  spells : ProtocolVersion.ofWord vw = some r.version
  accepts : r.Accepts tail.length
  values : frameValues 6 b = r.signature.bytes ++ (leBytes32 vw ++ (r.path.paths ++
    (r.srep.encode ++ (r.cert.encode ++ (leBytes32 r.index ++ tail)))))
  offset : ∀ i, i + 1 < 6 → frameOffset b i = r.header.offset i

theorem layout {b : Bytes} {r : ResponseDraft08} (h : fromFrame b = .ok r) :
    ∃ vw tail, r.Layout b vw tail := by
  obtain ⟨len, vw, tail, hb, hv, hacc, -, -⟩ := fromFrame_ok_iff.mp h
  have hshape : b = frameHead len ++ (r.header.encode ++ (r.signature.bytes ++ (leBytes32 vw ++
      (r.path.paths ++ (r.srep.encode ++ (r.cert.encode ++ (leBytes32 r.index ++ tail))))))) := by
    rw [hb]
    simp only [encodeWith, frontWith, back, List.append_assoc]
  refine ⟨vw, tail, hv, hacc, ?_, ?_⟩
  · rw [hshape]
    exact frameValues_eq len _
  · intro i hi
    rw [hshape]
    exact frameOffset_eq len _ hi

namespace Layout

variable {b : Bytes} {r : ResponseDraft08} {vw : UInt32} {tail : Bytes}
  (hL : r.Layout b vw tail)
include hL

theorem offset_le (i : Nat) : r.header.offset i ≤ (frameValues 6 b).length := by
  have hlen : (frameValues 6 b).length = 292 + 32 * r.path.numPaths + tail.length := by
    simp only [hL.values, List.length_append, Octets.bytes_length, leBytes32_length,
      MerklePath.paths_length, SignedResponseDraft08.encode_length, Certificate.encode_length]
    omega
  rw [hlen]
  exact hL.accepts.inBounds.offset_le

theorem drop_srep : (frameValues 6 b).drop (68 + (r.header.offset 2 - r.header.offset 1)) =
    r.srep.encode ++ (r.cert.encode ++ (leBytes32 r.index ++ tail)) := by
  have hsplit : frameValues 6 b = (r.signature.bytes ++ (leBytes32 vw ++ r.path.paths)) ++
      (r.srep.encode ++ (r.cert.encode ++ (leBytes32 r.index ++ tail))) := by
    rw [hL.values]
    simp only [List.append_assoc]
  rw [hsplit]
  refine List.drop_left' ?_
  simp only [List.length_append, Octets.bytes_length, leBytes32_length, MerklePath.paths_length,
    ← hL.accepts.path_eq]
  omega

theorem front (e0 : r.header.offset 0 = 64) (e1 : r.header.offset 1 = 68) :
    slice (frameValues 6 b) 0 (r.header.offset 0) = r.signature.bytes ∧
    slice (frameValues 6 b) (r.header.offset 0) (r.header.offset 1) = leBytes32 vw ∧
    slice (frameValues 6 b) (r.header.offset 1) (r.header.offset 2) = r.path.paths ∧
    (frameValues 6 b).drop (r.header.offset 2) =
      r.srep.encode ++ (r.cert.encode ++ (leBytes32 r.index ++ tail)) := by
  have hpath := hL.accepts.path_eq
  have h12 : r.header.offset 1 ≤ r.header.offset 2 := hL.accepts.wellFormed.le_succ (by decide)
  have hdrop : (frameValues 6 b).drop 0 = _ := hL.values
  obtain ⟨hsig, hdrop⟩ := slice_step hdrop (e0.trans (by rw [r.signature.size_eq]))
  obtain ⟨hver, hdrop⟩ := slice_step hdrop
    (show r.header.offset 1 = _ by rw [leBytes32_length]; omega)
  obtain ⟨hpaths, hdrop⟩ := slice_step hdrop
    (show r.header.offset 2 = _ by rw [MerklePath.paths_length]; omega)
  exact ⟨hsig, hver, hpaths, hdrop⟩

theorem canonical_of_delimited (hd : r.Delimited b) : CanonicalResponse08 b := by
  have hwf := hL.accepts.wellFormed
  have h01 : r.header.offset 0 ≤ r.header.offset 1 := hwf.le_succ (by decide)
  have h23 : r.header.offset 2 ≤ r.header.offset 3 := hwf.le_succ (by decide)
  have h34 : r.header.offset 3 ≤ r.header.offset 4 := hwf.le_succ (by decide)
  obtain ⟨e0, d1, d3, d4⟩ := hd.sizes
  obtain ⟨-, -, -, hdrop⟩ := hL.front e0 (by omega)
  rw [drop_frameValues6] at hdrop
  have hylen : (slice (frameValues 6 b) (r.header.offset 2) (r.header.offset 3)).length = 68 := by
    rw [slice_length (hL.offset_le 3)]
    exact d3
  obtain ⟨hfits, -⟩ := (SignedResponseDraft08.decode_iff hdrop hL.accepts.srep
    (by omega)).mp hd.srep
  rw [hylen] at hfits
  unfold CanonicalResponse08
  rw [hL.offset 0 (by decide), hL.offset 1 (by decide), hL.offset 2 (by decide),
    hL.offset 3 (by decide), hL.offset 4 (by decide)]
  exact ⟨e0, by omega, by omega, by omega, hfits⟩

theorem delimited_of_canonical (hc : CanonicalResponse08 b) : r.Delimited b := by
  unfold CanonicalResponse08 at hc
  rw [hL.offset 0 (by decide), hL.offset 1 (by decide), hL.offset 2 (by decide),
    hL.offset 3 (by decide), hL.offset 4 (by decide)] at hc
  obtain ⟨e0, e1, e3, e4, hfits⟩ := hc
  obtain ⟨hsig, hver, hpaths, hdrop⟩ := hL.front e0 e1
  have hread := hdrop
  rw [drop_frameValues6] at hread
  obtain ⟨hsrep, hdrop⟩ := slice_step hdrop
    (e3.trans (by rw [SignedResponseDraft08.encode_length]))
  obtain ⟨hcert, hdrop⟩ := slice_step hdrop (e4.trans (by rw [Certificate.encode_length]))
  obtain ⟨hindx, -⟩ := slice_step hdrop
    (show r.header.offset 4 + 4 = _ by rw [leBytes32_length])
  have hlen := r.srep.encode_length
  have hdec : ∃ c, SignedResponseDraft08.fromWire (ParseCursor.new r.srep.encode) =
      .ok (r.srep, c) := by
    refine (SignedResponseDraft08.decode_iff hread hL.accepts.srep (by omega)).mpr ⟨?_, ?_⟩
    · rw [hlen]
      exact hfits
    · rw [show b.drop _ = _ from hread, List.take_left' hlen,
        List.take_of_length_le (Nat.le_of_eq hlen)]
  exact ⟨hsig, ⟨vw, hL.spells, hver⟩, hpaths, by rw [hsrep]; exact hdec, hcert, hindx, e0,
    by omega, by omega, by omega⟩

end Layout

theorem delimited_iff {b : Bytes} {r : ResponseDraft08} (h : fromFrame b = .ok r) :
    r.Delimited b ↔ CanonicalResponse08 b := by
  obtain ⟨vw, tail, hL⟩ := layout h
  exact ⟨hL.canonical_of_delimited, hL.delimited_of_canonical⟩

end ResponseDraft08

/-- On every accepted message, the decoded values are the ones its header delimits exactly when
its offset table is canonical. -/
theorem decoded_fields_delimited_iff (b : Bytes) :
    (∀ r, Request.fromFrame b = .ok r → (r.Delimited b ↔ CanonicalRequest b)) ∧
    (∀ r, Response.fromFrame b = .ok r → (r.Delimited b ↔ CanonicalResponse b)) ∧
    (∀ r, ResponseDraft08.fromFrame b = .ok r → (r.Delimited b ↔ CanonicalResponse08 b)) :=
  ⟨fun _ => Request.delimited_iff, fun _ => Response.delimited_iff,
    fun _ => ResponseDraft08.delimited_iff⟩

theorem decoded_fields_delimited_iff_request :
    (Request.newDraft14 (Octets.fill 32 0x42)).Delimited
        (framed (Request.newDraft14 (Octets.fill 32 0x42)).encode) ↔
      CanonicalRequest (framed (Request.newDraft14 (Octets.fill 32 0x42)).encode) :=
  (decoded_fields_delimited_iff (framed (Request.newDraft14 (Octets.fill 32 0x42)).encode)).1
    (Request.newDraft14 (Octets.fill 32 0x42)) (by decide +kernel)

/-- A request whose table says that NONC and TYPE are empty. -/
def crookedRequest : RequestDraft14 :=
  { RequestDraft14.new (Octets.fill 32 0x42) with
    header.offsets := ⟨[4, 4, 4], rfl⟩
    tags_eq := rfl }

/-- It is accepted, with a NONC of 32 bytes that lie between no two of its offsets. -/
theorem crookedRequest_accepted_not_delimited :
    Request.fromFrame (framed crookedRequest.encode) = .ok (.draft14 crookedRequest) ∧
      ¬ (Request.draft14 crookedRequest).Delimited (framed crookedRequest.encode) := by
  refine ⟨by decide +kernel, ?_⟩
  intro h
  have hsize : crookedRequest.header.offset 1 - crookedRequest.header.offset 0 = 32 := h.2.2.2.1
  exact absurd hsize (by decide)

end Roughenough.Protocol
