/-
# `Roughenough.Protocol.Layout` — accepted frames, byte by byte

What the grammar lemmas say about cursors, said about whole buffers: a buffer
is accepted exactly when it is a frame head, the encoding of the value that is
returned, and any bytes behind it.

    b = frameHead len ++ (r.encodeWith … ++ tail)

`frameOffset b i` reads offset `i` out of the raw buffer, so that conditions
on a buffer can be stated without decoding it.
-/
import Roughenough.Protocol.Response

namespace Roughenough.Protocol

open Roughenough.Base ParseCursor

/-- Offset `i` of the message in the frame `b`. -/
def frameOffset (b : Bytes) (i : Nat) : Nat := (wordAt b (16 + 4 * i)).toNat

/-- The values section of a framed message of `n` tags. -/
def frameValues (n : Nat) (b : Bytes) : Bytes := b.drop (12 + Header.sizeOf n)

section Header

variable {n : Nat} {h : Header n}

/-- Offset `i`, at its place in the bytes of a header. -/
theorem Header.wordAt_encode (q : Bytes) {i : Nat} (hi : i + 1 < n) :
    (wordAt (h.encode ++ q) (4 + 4 * i)).toNat = h.offset i := by
  have hlen : i < h.offsets.1.length := by
    rw [h.offsets.2]
    omega
  unfold Header.encode Header.offset
  rw [List.append_assoc, wordAt_append_right (leBytes32_length _), List.append_assoc,
    wordAt_flatMap _ _ _ hlen]

theorem frameOffset_eq (len : UInt32) (q : Bytes) {i : Nat} (hi : i + 1 < n) :
    frameOffset (frameHead len ++ (h.encode ++ q)) i = h.offset i := by
  have hpos : 16 + 4 * i = 12 + (4 + 4 * i) := by omega
  unfold frameOffset
  rw [hpos, wordAt_append_right (frameHead_length len), Header.wordAt_encode q hi]

/-- The number of tags, behind the frame head. -/
theorem numTags_eq (len : UInt32) (q : Bytes) :
    wordAt (frameHead len ++ (h.encode ++ q)) 12 = UInt32.ofNat n := by
  unfold Header.encode
  rw [List.append_assoc]
  exact (wordAt_append_right (n := 0) (frameHead_length len)).trans (wordAt_zero _ _)

theorem frameValues_eq (len : UInt32) (q : Bytes) :
    frameValues n (frameHead len ++ (h.encode ++ q)) = q := by
  have hlen : (frameHead len ++ h.encode).length = 12 + Header.sizeOf n := by
    rw [List.length_append, frameHead_length, h.encode_length]
  unfold frameValues
  rw [← List.append_assoc]
  exact List.drop_left' hlen

end Header

/-- The length field. -/
theorem wordAt_frameHead (len : UInt32) (q : Bytes) : wordAt (frameHead len ++ q) 8 = len := by
  unfold frameHead
  rw [List.append_assoc]
  exact (wordAt_append_right (n := 0) (toBe_length 8 frameMagic)).trans (wordAt_zero len q)

/-- The cursor behind the frame head stands in front of the message. -/
theorem consumes_frameHead {b : Bytes} {len : UInt32} {body : Bytes}
    (hb : b = frameHead len ++ body) :
    Consumes (new b) (frameHead len) ((new b).skip 12) ∧ ((new b).skip 12).rest = body := by
  have h : Consumes (new b) (frameHead len) ((new b).skip (frameHead len).length) ∧
      ((new b).skip (frameHead len).length).rest = body := Consumes.of_rest hb
  rwa [frameHead_length] at h

/-- Reading a frame that starts the buffer. -/
theorem fromFrame_new_iff {α : Type} {p : Wire α} {b : Bytes} {x : α} :
    (∃ c', fromFrame p (new b) = .ok (x, c')) ↔ ∃ len body, b = frameHead len ++ body ∧
      100 ≤ len.toNat ∧ 100 ≤ body.length ∧ len.toNat ≤ body.length ∧
        ∃ c', p ((new b).skip 12) = .ok (x, c') := by
  constructor
  · rintro ⟨c', h⟩
    obtain ⟨len, c₁, hhead, hmin, hmin', hlen, hp⟩ := fromFrame_ok_iff.mp h
    have hc₁ : c₁ = (new b).skip 12 := by rw [hhead.next_eq, frameHead_length]
    rw [← rest_length] at hmin' hlen
    rw [hc₁] at hp
    exact ⟨len, c₁.rest, hhead.data_new, hmin, hmin', hlen, c', hp⟩
  · rintro ⟨len, body, hb, hmin, hmin', hlen, c', hp⟩
    obtain ⟨hhead, hrest⟩ := consumes_frameHead hb
    have hrem : ((new b).skip 12).remaining = body.length := by rw [← rest_length, hrest]
    exact ⟨c', fromFrame_ok_iff.mpr ⟨len, _, hhead, hmin, by omega, by omega, hp⟩⟩

/-- Dropping the cursor of a reader that was run on a whole buffer. -/
theorem bind_fst_ok_iff {ε α σ : Type} {o : Outcome ε (α × σ)} {x : α} :
    (o >>= fun r => pure r.1) = .ok x ↔ ∃ c', o = .ok (x, c') := by
  rw [Outcome.bind_ok_iff]
  constructor
  · rintro ⟨⟨y, c'⟩, h, hy⟩
    cases hy
    exact ⟨c', h⟩
  · rintro ⟨c', h⟩
    exact ⟨(x, c'), h, rfl⟩

theorem bind_fst_ne_panic {α : Type} {p : Wire α} (hp : ∀ c, Prog.Safe p c) (b : Bytes) :
    (fromFrame p (new b) >>= fun r => pure r.1) ≠ .panic :=
  Outcome.bind_ne_panic (safe_fromFrame hp (new b)) fun _ _ =>
    Outcome.ok_ne_panic _

/-- Consuming the encoding from behind the frame head. -/
theorem exists_consumes_iff {b : Bytes} {len : UInt32} {body bs : Bytes}
    (hb : b = frameHead len ++ body) {P : Nat → Prop} :
    (∃ c', P c'.remaining ∧ Consumes ((new b).skip 12) bs c') ↔
      ∃ tail, body = bs ++ tail ∧ P tail.length := by
  obtain ⟨-, hrest⟩ := consumes_frameHead hb
  constructor
  · rintro ⟨c', hP, hc⟩
    refine ⟨c'.rest, by rw [← hrest, hc.rest_eq], ?_⟩
    rwa [rest_length]
  · rintro ⟨tail, hbody, hP⟩
    have h := Consumes.of_rest (hrest.trans hbody)
    refine ⟨_, ?_, h.1⟩
    rwa [← rest_length, h.2]

/-! ## Responses -/

/-- A buffer is accepted as a draft-14 response exactly when it is a frame of its encoding. -/
theorem Response.fromFrame_ok_iff {b : Bytes} {r : Response} :
    Response.fromFrame b = .ok r ↔ ∃ len vw ws tail,
      b = frameHead len ++ (r.encodeWith vw ws ++ tail) ∧ r.srep.Spells vw ws ∧
        r.Accepts tail.length ∧ 100 ≤ len.toNat ∧
          len.toNat ≤ (r.encodeWith vw ws ++ tail).length := by
  unfold Response.fromFrame
  rw [bind_fst_ok_iff, fromFrame_new_iff]
  constructor
  · rintro ⟨len, body, hb, hmin, -, hlen, c', hp⟩
    obtain ⟨vw, ws, hsp, hacc, hc⟩ := Response.fromWire_ok_iff.mp hp
    obtain ⟨tail, rfl, hacc⟩ := (exists_consumes_iff hb).mp ⟨c', hacc, hc⟩
    exact ⟨len, vw, ws, tail, hb, hsp, hacc, hmin, hlen⟩
  · rintro ⟨len, vw, ws, tail, hb, hsp, hacc, hmin, hlen⟩
    obtain ⟨c', hacc, hc⟩ := (exists_consumes_iff hb (P := r.Accepts)).mpr ⟨tail, rfl, hacc⟩
    have hbig : 100 ≤ (r.encodeWith vw ws ++ tail).length := by
      rw [List.length_append, Response.encodeWith_length hsp]
      omega
    exact ⟨len, _, hb, hmin, hbig, hlen, c', Response.fromWire_ok_iff.mpr ⟨vw, ws, hsp, hacc, hc⟩⟩

/-- The same for draft-08. -/
theorem ResponseDraft08.fromFrame_ok_iff {b : Bytes} {r : ResponseDraft08} :
    ResponseDraft08.fromFrame b = .ok r ↔ ∃ len vw tail,
      b = frameHead len ++ (r.encodeWith vw ++ tail) ∧
        ProtocolVersion.ofWord vw = some r.version ∧ r.Accepts tail.length ∧
          100 ≤ len.toNat ∧ len.toNat ≤ (r.encodeWith vw ++ tail).length := by
  unfold ResponseDraft08.fromFrame
  rw [bind_fst_ok_iff, fromFrame_new_iff]
  constructor
  · rintro ⟨len, body, hb, hmin, -, hlen, c', hp⟩
    obtain ⟨vw, hv, hacc, hc⟩ := ResponseDraft08.fromWire_ok_iff.mp hp
    obtain ⟨tail, rfl, hacc⟩ := (exists_consumes_iff hb).mp ⟨c', hacc, hc⟩
    exact ⟨len, vw, tail, hb, hv, hacc, hmin, hlen⟩
  · rintro ⟨len, vw, tail, hb, hv, hacc, hmin, hlen⟩
    obtain ⟨c', hacc, hc⟩ := (exists_consumes_iff hb (P := r.Accepts)).mpr ⟨tail, rfl, hacc⟩
    have hbig : 100 ≤ (r.encodeWith vw ++ tail).length := by
      rw [List.length_append, ResponseDraft08.encodeWith_length]
      omega
    exact ⟨len, _, hb, hmin, hbig, hlen, c', ResponseDraft08.fromWire_ok_iff.mpr ⟨vw, hv, hacc, hc⟩⟩

/-- A response that the reader would accept survives being framed. -/
theorem Response.fromFrame_framed {r : Response} (h : r.Accepts 0) :
    Response.fromFrame (framed r.encode) = .ok r := by
  have hlen := Response.encodeWith_length r.srep.spells_values
  have hpath := r.path.bounded
  have hvers := r.srep.supportedVersions.bounded
  have hnat : (UInt32.ofNat r.encode.length).toNat = r.encode.length :=
    UInt32.toNat_ofNat_of_lt' (by rw [show r.encode.length = _ from hlen, UInt32.size]; omega)
  refine Response.fromFrame_ok_iff.mpr
    ⟨UInt32.ofNat r.encode.length, _, _, [], ?_, r.srep.spells_values, h, ?_, ?_⟩
  · rw [List.append_nil]
    rfl
  · rw [hnat, show r.encode.length = _ from hlen]
    omega
  · rw [hnat, List.append_nil]
    exact Nat.le_refl _

theorem ResponseDraft08.fromFrame_framed {r : ResponseDraft08} (h : r.Accepts 0) :
    ResponseDraft08.fromFrame (framed r.encode) = .ok r := by
  have hlen := r.encodeWith_length r.version.value
  have hbound := r.path.bounded
  have hnat : (UInt32.ofNat r.encode.length).toNat = r.encode.length :=
    UInt32.toNat_ofNat_of_lt' (by rw [show r.encode.length = _ from hlen, UInt32.size]; omega)
  refine ResponseDraft08.fromFrame_ok_iff.mpr
    ⟨UInt32.ofNat r.encode.length, _, [], ?_, ProtocolVersion.ofWord_value _, h, ?_, ?_⟩
  · rw [List.append_nil]
    rfl
  · rw [hnat, show r.encode.length = _ from hlen]
    omega
  · rw [hnat, List.append_nil]
    exact Nat.le_refl _

/-! ## Requests -/

/-- An accepted request is a frame of 1012 bytes in one of the three layouts. -/
theorem Request.fromFrame_ok {b : Bytes} {r : Request} (h : Request.fromFrame b = .ok r) :
    ∃ len body, b = frameHead len ++ body ∧ body.length = 1012 ∧ 100 ≤ len.toNat ∧
      len.toNat ≤ 1012 ∧ ∃ c', Request.fromWire ((new b).skip 12) = .ok (r, c') := by
  unfold Request.fromFrame at h
  rw [bind_fst_ok_iff, fromFrame_new_iff] at h
  obtain ⟨len, body, hb, hmin, -, hlen, c', hp⟩ := h
  obtain ⟨-, hrest⟩ := consumes_frameHead hb
  obtain ⟨hrem, -⟩ := Request.fromWire_ok hp
  rw [← rest_length, hrest] at hrem
  exact ⟨len, body, hb, hrem, hmin, by omega, c', hp⟩

theorem Request.fromFrame_length {b : Bytes} {r : Request} (h : Request.fromFrame b = .ok r) :
    b.length = 1024 := by
  obtain ⟨len, body, rfl, hbody, -⟩ := Request.fromFrame_ok h
  rw [List.length_append, frameHead_length, hbody]

end Roughenough.Protocol
