/-
# `Roughenough.Client.RawFrame` — the frame dumper and the decoders

`RawFrameInfo::parse` of the client's `main.rs` reads the header of a frame a
second time, for the `--verbose` dump.  It does not use the cursor of the
protocol crate: it indexes the buffer by hand.

    0 .. 8      magic
    8 .. 12     length of the message
    12 .. 16    number of tags, 1 to 20
    16 ..       offsets, one fewer than tags
    ..          tags; the values start where they end

An `Option` is an outcome whose error says nothing: `None` is `err ()`.  An
index out of range is a panic, so "never panics" is about the bounds checks of
the dumper itself.

On a frame of `n` tags the two readers agree, whatever follows the header
(`parse_frame`), and every frame a decoder accepts is one of these.
-/
import Roughenough.Base.Text
import Roughenough.Protocol.Grammar
import Roughenough.Protocol.Layout

namespace Roughenough.Client

open Roughenough.Base Roughenough.Protocol ParseCursor

structure RawFrameInfo where
  magic : Octets 8
  frameLength : UInt32
  numTags : UInt32
  offsets : List UInt32
  tags : List (UInt32 × String)
  valuesStart : Nat
  deriving DecidableEq

namespace RawFrameInfo

/-! ## The dumper -/

def MAX_TAGS : UInt32 := 20

/-- `bytes[i]`. -/
def byteAt (bytes : Bytes) (i : Nat) : Outcome Unit UInt8 := Outcome.orPanic bytes[i]?

/-- `[bytes[pos], bytes[pos + 1], bytes[pos + 2], bytes[pos + 3]]`. -/
def fourAt (bytes : Bytes) (pos : Nat) : Outcome Unit Bytes := do
  let a ← byteAt bytes pos
  let b ← byteAt bytes (pos + 1)
  let c ← byteAt bytes (pos + 2)
  let d ← byteAt bytes (pos + 3)
  pure [a, b, c, d]

/-- `u32::from_le_bytes` of the four bytes at `pos`. -/
def u32At (bytes : Bytes) (pos : Nat) : Outcome Unit UInt32 := do
  let four ← fourAt bytes pos
  pure (ofLeBytes32 four)

/-- `from_utf8_lossy(..).trim_end_matches('\0')`. -/
def tagStr (tagBytes : Bytes) : String :=
  String.ofList (Text.trimEndMatches '\x00' (Text.fromUtf8Lossy tagBytes))

/-- One pass of the offset loop. -/
def pushOffset (bytes : Bytes) (offsetsStart : Nat) (offsets : List UInt32) (i : Nat) :
    Outcome Unit (List UInt32) := do
  let offset ← u32At bytes (offsetsStart + i * 4)
  pure (offsets ++ [offset])

/-- One pass of the tag loop. -/
def pushTag (bytes : Bytes) (tagsStart : Nat) (tags : List (UInt32 × String)) (i : Nat) :
    Outcome Unit (List (UInt32 × String)) := do
  let tagBytes ← fourAt bytes (tagsStart + i * 4)
  pure (tags ++ [(UInt32.ofNat (ofBe tagBytes), tagStr tagBytes)])

def parse (bytes : Bytes) : Outcome Unit RawFrameInfo := do
  Outcome.failIf (bytes.length < 16) ()
  let magic ← sliceOrPanic bytes 0 8
  let magic ← tryInto 8 magic
  let frameLength ← u32At bytes 8
  let numTags ← u32At bytes 12
  Outcome.failIf (numTags = 0 ∨ numTags > MAX_TAGS) ()
  let numOffsets := numTags.toNat - 1
  let offsetsStart := 12 + 4
  let offsetsEnd := offsetsStart + numOffsets * 4
  Outcome.failIf (bytes.length < offsetsEnd) ()
  let offsets ← (List.range numOffsets).foldlM (pushOffset bytes offsetsStart) []
  let tagsEnd := offsetsEnd + numTags.toNat * 4
  Outcome.failIf (bytes.length < tagsEnd) ()
  let tags ← (List.range numTags.toNat).foldlM (pushTag bytes offsetsEnd) []
  pure ⟨magic, frameLength, numTags, offsets, tags, tagsEnd⟩

/-! ## What the indexing reads -/

theorem byteAt_drop {bytes rest : Bytes} {pos : Nat} (h : bytes.drop pos = rest) (i : Nat) :
    byteAt bytes (pos + i) = Outcome.orPanic rest[i]? := by
  unfold byteAt
  rw [← h, List.getElem?_drop]

theorem fourAt_eq {bytes : Bytes} {pos : Nat} (h : pos + 4 ≤ bytes.length) :
    fourAt bytes pos = .ok (slice bytes pos (pos + 4)) := by
  have hlen : 4 ≤ (bytes.drop pos).length := by
    rw [List.length_drop]
    omega
  obtain ⟨a, b, c, d, rest, hrest⟩ :
      ∃ a b c d rest, bytes.drop pos = a :: b :: c :: d :: rest := by
    match bytes.drop pos, hlen with
    | a :: b :: c :: d :: rest, _ => exact ⟨a, b, c, d, rest, rfl⟩
  have hslice : slice bytes pos (pos + 4) = [a, b, c, d] := by
    unfold slice
    rw [hrest, Nat.add_sub_cancel_left]
    rfl
  unfold fourAt
  rw [hslice, byteAt_drop hrest 1, byteAt_drop hrest 2, byteAt_drop hrest 3,
    show byteAt bytes pos = _ from byteAt_drop hrest 0]
  rfl

theorem u32At_eq {bytes : Bytes} {pos : Nat} (h : pos + 4 ≤ bytes.length) :
    u32At bytes pos = .ok (wordAt bytes pos) := by
  unfold u32At
  rw [fourAt_eq h]
  rfl

theorem pushOffset_eq {bytes : Bytes} {start k : Nat} (h : start + k * 4 ≤ bytes.length) :
    (List.range k).foldlM (pushOffset bytes start) [] =
      .ok ((List.range k).map fun i => wordAt bytes (start + i * 4)) := by
  rw [Outcome.foldlM_appends (g := fun i => [wordAt bytes (start + i * 4)]) ?_ [],
    List.nil_append, ← List.map_eq_flatMap]
  intro offsets i hi
  have hlt := List.mem_range.mp hi
  unfold pushOffset
  rw [u32At_eq (by omega), Outcome.ok_bind]
  rfl

/-- What the tag loop pushes at index `i`. -/
def tagAt (bytes : Bytes) (start i : Nat) : UInt32 × String :=
  (UInt32.ofNat (ofBe (slice bytes (start + i * 4) (start + i * 4 + 4))),
    tagStr (slice bytes (start + i * 4) (start + i * 4 + 4)))

theorem pushTag_eq {bytes : Bytes} {start k : Nat} (h : start + k * 4 ≤ bytes.length) :
    (List.range k).foldlM (pushTag bytes start) [] =
      .ok ((List.range k).map (tagAt bytes start)) := by
  rw [Outcome.foldlM_appends (g := fun i => [tagAt bytes start i]) ?_ [],
    List.nil_append, ← List.map_eq_flatMap]
  intro tags i hi
  have hlt := List.mem_range.mp hi
  unfold pushTag
  rw [fourAt_eq (by omega), Outcome.ok_bind]
  rfl

/-- The magic of a buffer that has one. -/
def magicOf (bytes : Bytes) (h : 8 ≤ bytes.length) : Octets 8 :=
  ⟨slice bytes 0 8, slice_length h⟩

theorem magic_eq {bytes : Bytes} (h : 8 ≤ bytes.length) :
    (sliceOrPanic bytes 0 8 >>= tryInto 8) = .ok (magicOf bytes h) := by
  have hlen : (slice bytes 0 8).length = 8 := slice_length h
  rw [sliceOrPanic_ok_iff.mpr ⟨⟨Nat.zero_le 8, h⟩, rfl⟩, Outcome.ok_bind, tryInto, dif_pos hlen]
  rfl

/-- A buffer that holds the header it announces is dumped in full. -/
theorem parse_eq {bytes : Bytes} {k : Nat} (hk : (wordAt bytes 12).toNat = k) (h1 : 1 ≤ k)
    (h20 : k ≤ 20) (hlen : 12 + 8 * k ≤ bytes.length) :
    parse bytes = .ok ⟨magicOf bytes (by omega), wordAt bytes 8, wordAt bytes 12,
      (List.range (k - 1)).map fun i => wordAt bytes (16 + i * 4),
      (List.range k).map (tagAt bytes (16 + (k - 1) * 4)), 12 + 8 * k⟩ := by
  have hcount : ¬ (wordAt bytes 12 = 0 ∨ wordAt bytes 12 > MAX_TAGS) := by
    rintro (hzero | hmany)
    · rw [hzero] at hk
      exact absurd hk (by rw [UInt32.toNat_zero]; omega)
    · have hgt := UInt32.lt_iff_toNat_lt.mp hmany
      rw [hk, show MAX_TAGS.toNat = 20 from rfl] at hgt
      omega
  unfold parse
  rw [(Outcome.failIf_ok_iff (u := ())).mpr (show ¬ bytes.length < 16 by omega),
    Outcome.ok_bind, ← bind_assoc, magic_eq (by omega), Outcome.ok_bind, u32At_eq (by omega),
    Outcome.ok_bind, u32At_eq (by omega), Outcome.ok_bind,
    (Outcome.failIf_ok_iff (u := ())).mpr hcount, Outcome.ok_bind]
  dsimp only
  rw [hk, (Outcome.failIf_ok_iff (u := ())).mpr (by omega), Outcome.ok_bind,
    pushOffset_eq (by omega), Outcome.ok_bind, (Outcome.failIf_ok_iff (u := ())).mpr (by omega),
    Outcome.ok_bind, pushTag_eq (by omega), Outcome.ok_bind,
    show 12 + 4 + (k - 1) * 4 + k * 4 = 12 + 8 * k by omega]
  rfl

theorem parse_ne_panic (bytes : Bytes) : parse bytes ≠ .panic := by
  refine Outcome.bind_ne_panic Outcome.failIf_ne_panic fun _ h16 => ?_
  have hlen : ¬ bytes.length < 16 := Outcome.failIf_ok_iff.mp h16
  rw [← bind_assoc, magic_eq (by omega), Outcome.ok_bind, u32At_eq (by omega), Outcome.ok_bind,
    u32At_eq (by omega), Outcome.ok_bind]
  refine Outcome.bind_ne_panic Outcome.failIf_ne_panic fun _ _ => ?_
  refine Outcome.bind_ne_panic Outcome.failIf_ne_panic fun _ hoffsets => ?_
  have hoffsets := Outcome.failIf_ok_iff.mp hoffsets
  rw [pushOffset_eq (by omega), Outcome.ok_bind]
  refine Outcome.bind_ne_panic Outcome.failIf_ne_panic fun _ htags => ?_
  have htags := Outcome.failIf_ok_iff.mp htags
  rw [pushTag_eq (by omega), Outcome.ok_bind]
  exact Outcome.ok_ne_panic _

/-! ## Agreement with the decoders -/

/-- The dump of the frame `b` shows the header `h` that the decoder reads behind the frame
head, and says where the decoder goes on. -/
structure Shows {n : Nat} (info : RawFrameInfo) (b : Bytes) (h : Header n) : Prop where
  numTags : info.numTags.toNat = n
  offsets : info.offsets = h.offsets.1
  tags : info.tags.map (fun tag => Tag.tryFrom tag.1.toNat) = h.tags.1.map Outcome.ok
  valuesStart : info.valuesStart = 12 + 8 * n
  readsFrom : ∃ c, Header.fromWire n ((new b).skip 12) = .ok (h, c) ∧
    c.position = info.valuesStart

section Frame

variable {n : Nat} {h : Header n} {len : UInt32} {q : Bytes}

theorem offsets_of_frame : (List.range (n - 1)).map (fun i =>
    wordAt (frameHead len ++ (h.encode ++ q)) (16 + i * 4)) = h.offsets.1 := by
  refine List.ext_getElem ?_ ?_
  · rw [List.length_map, List.length_range, h.offsets.2]
  · intro i hi hi'
    rw [h.offsets.2] at hi'
    have hword := frameOffset_eq (h := h) len q (i := i) (by omega)
    rw [List.getElem_map, List.getElem_range, Nat.mul_comm i 4]
    apply UInt32.toNat_inj.mp
    rw [show (wordAt (frameHead len ++ (h.encode ++ q)) (16 + 4 * i)).toNat = h.offset i from hword,
      Header.offset, List.getD_eq_getElem]

/-- The four bytes of tag `i`. -/
theorem tagBytes_of_frame {i : Nat} (hi : i < h.tags.1.length) :
    slice (frameHead len ++ (h.encode ++ q)) (16 + (n - 1) * 4 + i * 4)
      (16 + (n - 1) * 4 + i * 4 + 4) = (h.tags.1[i]).wireValue := by
  let front := frameHead len ++ (leBytes32 (UInt32.ofNat n) ++ h.offsets.1.flatMap leBytes32)
  have hfront : front.length = 16 + (n - 1) * 4 := by
    simp only [front, List.length_append, frameHead_length, leBytes32_length,
      Header.flatMap_length_const leBytes32_length, h.offsets.2]
    omega
  have hsplit : frameHead len ++ (h.encode ++ q) =
      front ++ (h.tags.1.flatMap Tag.wireValue ++ q) := by
    simp only [front, Header.encode, List.append_assoc]
  rw [hsplit, Nat.add_assoc (16 + (n - 1) * 4), slice_append_right hfront, Nat.mul_comm i 4]
  exact slice_flatMap Tag.wireValue_length _ _ i hi

/-- The value of a tag on the wire converts back to the tag. -/
theorem tryFrom_wireValue {t : Tag} (ht : t ≠ .invalid) :
    Tag.tryFrom (UInt32.ofNat (ofBe t.wireValue)).toNat = .ok t := by
  have hlt : ofBe t.wireValue < 2 ^ 32 := ofBe_lt t.wireValue_length
  rw [UInt32.toNat_ofNat_of_lt' hlt]
  exact Tag.tryFrom_ok_iff.mpr ⟨ht, toBe_of_length t.wireValue_length⟩

theorem tags_of_frame (hwf : h.WellFormed) :
    ((List.range n).map (tagAt (frameHead len ++ (h.encode ++ q)) (16 + (n - 1) * 4))).map
      (fun tag => Tag.tryFrom tag.1.toNat) = h.tags.1.map Outcome.ok := by
  refine List.ext_getElem ?_ ?_
  · rw [List.length_map, List.length_map, List.length_map, List.length_range, h.tags.2]
  · intro i hi hi'
    rw [List.length_map] at hi'
    have hknown := (Header.wellFormed_iff_ordered.mp hwf).known _ (List.getElem_mem hi')
    rw [List.getElem_map, List.getElem_map, List.getElem_map, List.getElem_range]
    unfold tagAt
    rw [tagBytes_of_frame hi']
    exact tryFrom_wireValue hknown

/-- On a frame that starts with a well-formed header the two readers agree. -/
theorem parse_frame (h1 : 1 ≤ n) (h20 : n ≤ 20) (hwf : h.WellFormed) :
    ∃ info, parse (frameHead len ++ (h.encode ++ q)) = .ok info ∧
      info.Shows (frameHead len ++ (h.encode ++ q)) h := by
  have hcount : (wordAt (frameHead len ++ (h.encode ++ q)) 12).toNat = n := by
    rw [numTags_eq]
    exact UInt32.toNat_ofNat_of_lt' (by rw [UInt32.size]; omega)
  have hsize : Header.sizeOf n = 8 * n := Header.sizeOf_eq h1
  have hlen : 12 + 8 * n ≤ (frameHead len ++ (h.encode ++ q)).length := by
    simp only [List.length_append, frameHead_length, h.encode_length]
    omega
  obtain ⟨-, hrest⟩ := consumes_frameHead (b := frameHead len ++ (h.encode ++ q)) rfl
  have hread := Header.fromWire_ok_iff.mpr ⟨hwf, (Consumes.of_rest hrest).1⟩
  refine ⟨_, parse_eq hcount h1 h20 hlen, hcount, offsets_of_frame, tags_of_frame hwf, rfl,
    _, hread, ?_⟩
  show 0 + 12 + h.encode.length = 12 + 8 * n
  rw [h.encode_length]
  omega

/-- The same, from what a decoder consumed behind the frame head. -/
theorem parse_consumed {b body bs : Bytes} {c' : ParseCursor} (hb : b = frameHead len ++ body)
    (h1 : 1 ≤ n) (h20 : n ≤ 20) (hwf : h.WellFormed)
    (hc : Consumes ((new b).skip 12) (h.encode ++ bs) c') :
    ∃ info, parse b = .ok info ∧ info.Shows b h := by
  obtain ⟨-, hrest⟩ := consumes_frameHead hb
  have hbody : body = h.encode ++ (bs ++ c'.rest) := by
    rw [← hrest, hc.rest_eq, List.append_assoc]
  subst hb
  subst hbody
  exact parse_frame h1 h20 hwf

end Frame

/-- The dump shows the header of the request, in the layout it has. -/
def ShowsRequest (info : RawFrameInfo) (b : Bytes) : Request → Prop
  | .draft08 req => info.Shows b req.header
  | .draft14 req => info.Shows b req.header
  | .draft14Srv req => info.Shows b req.header

theorem parse_request {b : Bytes} {r : Request} (hr : Request.fromFrame b = .ok r) :
    ∃ info, parse b = .ok info ∧ info.ShowsRequest b r := by
  obtain ⟨len, body, hb, -, -, -, c', hread⟩ := Request.fromFrame_ok hr
  obtain ⟨-, ⟨req, rfl, hreq⟩ | ⟨req, rfl, hreq⟩ | ⟨req, rfl, hreq⟩⟩ := Request.fromWire_ok hread
  · obtain ⟨hwf, -, ws, -, hc⟩ := RequestDraft08.fromWire_ok hreq
    exact parse_consumed hb (by decide) (by decide) hwf hc
  · obtain ⟨hwf, -, ws, -, hc⟩ := RequestDraft14.fromWire_ok hreq
    exact parse_consumed hb (by decide) (by decide) hwf hc
  · obtain ⟨hwf, -, ws, -, hc⟩ := RequestDraft14Srv.fromWire_ok hreq
    exact parse_consumed hb (by decide) (by decide) hwf hc

theorem parse_response {b : Bytes} {r : Response} (hr : Response.fromFrame b = .ok r) :
    ∃ info, parse b = .ok info ∧ info.Shows b r.header := by
  obtain ⟨len, vw, ws, tail, rfl, -, hacc, -⟩ := Response.fromFrame_ok_iff.mp hr
  unfold Response.encodeWith
  rw [List.append_assoc]
  exact parse_frame (by decide) (by decide) hacc.wellFormed

theorem parse_responseDraft08 {b : Bytes} {r : ResponseDraft08}
    (hr : ResponseDraft08.fromFrame b = .ok r) :
    ∃ info, parse b = .ok info ∧ info.Shows b r.header := by
  obtain ⟨len, vw, tail, rfl, -, hacc, -⟩ := ResponseDraft08.fromFrame_ok_iff.mp hr
  unfold ResponseDraft08.encodeWith
  rw [List.append_assoc]
  exact parse_frame (by decide) (by decide) hacc.wellFormed

end RawFrameInfo

/-- The dumper never panics, and it shows the header of every frame a decoder accepts. -/
theorem rawFrameInfo_agrees (b : Bytes) :
    RawFrameInfo.parse b ≠ .panic ∧
    (∀ r, Request.fromFrame b = .ok r →
      ∃ info, RawFrameInfo.parse b = .ok info ∧ info.ShowsRequest b r) ∧
    (∀ r, Response.fromFrame b = .ok r →
      ∃ info, RawFrameInfo.parse b = .ok info ∧ info.Shows b r.header) ∧
    ∀ r, ResponseDraft08.fromFrame b = .ok r →
      ∃ info, RawFrameInfo.parse b = .ok info ∧ info.Shows b r.header :=
  ⟨RawFrameInfo.parse_ne_panic b, fun _ => RawFrameInfo.parse_request,
    fun _ => RawFrameInfo.parse_response, fun _ => RawFrameInfo.parse_responseDraft08⟩

namespace RawFrameInfo

def sampleRequest : Bytes := framed (Request.newDraft14 (Octets.fill 32 0x42)).encode

def sampleResponse : Bytes :=
  framed (Response.default.setSrep
    (SignedResponse.default.setVers (VersionList.new [.rfcDraft14]))).encode

def sampleResponseDraft08 : Bytes := framed ResponseDraft08.default.encode

end RawFrameInfo

open RawFrameInfo (sampleRequest sampleResponse sampleResponseDraft08)

/-- One frame for each decoder. -/
theorem rawFrameInfo_agrees_samples :
    (∃ r info, Request.fromFrame sampleRequest = .ok r ∧
      RawFrameInfo.parse sampleRequest = .ok info ∧ info.ShowsRequest sampleRequest r) ∧
    (∃ r info, Response.fromFrame sampleResponse = .ok r ∧
      RawFrameInfo.parse sampleResponse = .ok info ∧ info.Shows sampleResponse r.header) ∧
    ∃ r info, ResponseDraft08.fromFrame sampleResponseDraft08 = .ok r ∧
      RawFrameInfo.parse sampleResponseDraft08 = .ok info ∧
        info.Shows sampleResponseDraft08 r.header := by
  refine ⟨?_, ?_, ?_⟩
  · obtain ⟨r, hr⟩ := Outcome.isOk_iff.mp
      (by decide +kernel : (Request.fromFrame sampleRequest).isOk = true)
    obtain ⟨-, hrequest, -, -⟩ := rawFrameInfo_agrees sampleRequest
    obtain ⟨info, hinfo⟩ := hrequest r hr
    exact ⟨r, info, hr, hinfo⟩
  · obtain ⟨r, hr⟩ := Outcome.isOk_iff.mp
      (by decide +kernel : (Response.fromFrame sampleResponse).isOk = true)
    obtain ⟨-, -, hresponse, -⟩ := rawFrameInfo_agrees sampleResponse
    obtain ⟨info, hinfo⟩ := hresponse r hr
    exact ⟨r, info, hr, hinfo⟩
  · obtain ⟨r, hr⟩ := Outcome.isOk_iff.mp
      (by decide +kernel : (ResponseDraft08.fromFrame sampleResponseDraft08).isOk = true)
    obtain ⟨-, -, -, hresponse⟩ := rawFrameInfo_agrees sampleResponseDraft08
    obtain ⟨info, hinfo⟩ := hresponse r hr
    exact ⟨r, info, hr, hinfo⟩

end Roughenough.Client
