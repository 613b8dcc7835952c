/-
# `Roughenough.Protocol.Length` — the length field of a frame

A frame says how long its message is.  `from_frame` refuses a length that is
more than what is left of the buffer, and looks at it no more; `from_wire` gets
the whole rest.  What is behind the last value of a response nobody looks at.

    accepted_length_honest_iff   when the length field, the bytes behind it
                                 and the message agree

The end of a message follows from the raw bytes: two offsets give the length
of PATH, and the fourth offset of the SREP the number of its versions.
-/
import Roughenough.Protocol.Fields

namespace Roughenough.Protocol

open Roughenough.Base ParseCursor

/-- The bytes from which the draft-14 decoder takes the SREP: behind SIG, NONC, TYPE and a PATH
as long as two offsets are apart. -/
def srepRead14 (b : Bytes) : Bytes := b.drop (168 + (frameOffset b 3 - frameOffset b 2))

def srepRead08 (b : Bytes) : Bytes := b.drop (128 + (frameOffset b 2 - frameOffset b 1))

/-- Where the values that the draft-14 decoder reads come to an end: behind a header, SIG, NONC,
TYPE, PATH, SREP, CERT and INDX. -/
def messageEnd (b : Bytes) : Nat :=
  412 + (frameOffset b 3 - frameOffset b 2) + 4 * versCount (srepRead14 b)

/-- The same for draft-08: behind a header, SIG, VER, PATH, SREP, CERT and INDX. -/
def messageEnd08 (b : Bytes) : Nat := 352 + (frameOffset b 2 - frameOffset b 1)

/-- The length field of a frame. -/
def lengthField (b : Bytes) : Nat := (wordAt b 8).toNat

/-! ## Where a message ends -/

namespace Response

variable {b : Bytes} {r : Response} {vw : UInt32} {ws : List UInt32} {tail : Bytes}

theorem Layout.srepRead_eq (hL : r.Layout b vw ws tail) : srepRead14 b =
    r.srep.encodeWith vw ws ++ (r.cert.encode ++ (leBytes32 r.index ++ tail)) := by
  rw [← hL.drop_srep, drop_frameValues7, srepRead14, hL.offset 2 (by decide),
    hL.offset 3 (by decide), ← Nat.add_assoc]

theorem Layout.messageEnd_eq (hL : r.Layout b vw ws tail) :
    messageEnd b = 12 + (r.encodeWith vw ws).length := by
  have hpath := hL.accepts.path_eq
  unfold messageEnd
  rw [hL.versCount_eq hL.srepRead_eq, encodeWith_length hL.spells, hL.offset 2 (by decide),
    hL.offset 3 (by decide)]
  omega

/-- An accepted response, its length field and its end. -/
theorem fromFrame_lengths (h : fromFrame b = .ok r) : messageEnd b = 12 + r.wireSize ∧
    messageEnd b ≤ b.length ∧ lengthField b ≤ b.length - 12 := by
  obtain ⟨len, vw, ws, tail, hb, hsp, hacc, -, hlen⟩ := fromFrame_ok_iff.mp h
  have hend := (layout_of_encodeWith hb hsp hacc).messageEnd_eq
  have hsize : r.wireSize = (r.encodeWith vw ws).length := by
    rw [← r.encode_length, encodeWith_length hsp]
    exact encodeWith_length r.srep.spells_values
  have hfield : lengthField b = len.toNat := by
    rw [lengthField, hb, wordAt_frameHead]
  have hlong : b.length = 12 + (r.encodeWith vw ws ++ tail).length := by
    rw [hb, List.length_append, frameHead_length]
  rw [List.length_append] at hlen hlong
  omega

end Response

namespace ResponseDraft08

variable {b : Bytes} {r : ResponseDraft08} {vw : UInt32} {tail : Bytes}

theorem Layout.srepRead_eq (hL : r.Layout b vw tail) : srepRead08 b =
    r.srep.encode ++ (r.cert.encode ++ (leBytes32 r.index ++ tail)) := by
  rw [← hL.drop_srep, drop_frameValues6, srepRead08, hL.offset 1 (by decide),
    hL.offset 2 (by decide), ← Nat.add_assoc]

theorem fromFrame_lengths (h : fromFrame b = .ok r) : messageEnd08 b = 12 + r.wireSize ∧
    messageEnd08 b ≤ b.length ∧ lengthField b ≤ b.length - 12 := by
  obtain ⟨len, vw, tail, hb, -, hacc, -, hlen⟩ := fromFrame_ok_iff.mp h
  obtain ⟨vw', tail', hL⟩ := layout h
  have hpath := hacc.path_eq
  have hend : messageEnd08 b = 12 + (340 + 32 * r.path.numPaths) := by
    unfold messageEnd08
    rw [hL.offset 1 (by decide), hL.offset 2 (by decide)]
    omega
  have hsize : r.wireSize = 340 + 32 * r.path.numPaths := by
    rw [← r.encode_length]
    exact r.encodeWith_length _
  have hfield : lengthField b = len.toNat := by
    rw [lengthField, hb, wordAt_frameHead]
  have hlong : b.length = 12 + (r.encodeWith vw ++ tail).length := by
    rw [hb, List.length_append, frameHead_length]
  rw [List.length_append, r.encodeWith_length] at hlen hlong
  omega

end ResponseDraft08

/-! ## When the length is honest -/

/-- For every accepted byte string: its length field is the number of bytes behind the frame head
and the message accounts for all of them, exactly when the field does not fall short of these
bytes and, in a response, nothing stands behind INDX. -/
theorem accepted_length_honest_iff (b : Bytes) :
    (∀ r, Request.fromFrame b = .ok r →
      ((lengthField b = b.length - 12 ∧ b.length - 12 = 1012) ↔ 1012 ≤ lengthField b)) ∧
    (∀ r, Response.fromFrame b = .ok r →
      ((lengthField b = b.length - 12 ∧ b.length - 12 = r.wireSize) ↔
        b.length ≤ 12 + lengthField b ∧ b.length ≤ messageEnd b)) ∧
    (∀ r, ResponseDraft08.fromFrame b = .ok r →
      ((lengthField b = b.length - 12 ∧ b.length - 12 = r.wireSize) ↔
        b.length ≤ 12 + lengthField b ∧ b.length ≤ messageEnd08 b)) := by
  refine ⟨?_, ?_, ?_⟩
  · intro r hr
    obtain ⟨len, body, hb, hbody, -, hlen, -⟩ := Request.fromFrame_ok hr
    have hfield : lengthField b = len.toNat := by
      rw [lengthField, hb, wordAt_frameHead]
    have hlong : b.length = 12 + body.length := by
      rw [hb, List.length_append, frameHead_length]
    omega
  · intro r hr
    have hlengths := Response.fromFrame_lengths hr
    omega
  · intro r hr
    have hlengths := ResponseDraft08.fromFrame_lengths hr
    omega

/-- A request as its writer frames it. -/
theorem accepted_length_honest_request :
    lengthField (framed (Request.newDraft14 (Octets.fill 32 0x42)).encode) =
      (framed (Request.newDraft14 (Octets.fill 32 0x42)).encode).length - 12 ∧
    (framed (Request.newDraft14 (Octets.fill 32 0x42)).encode).length - 12 = 1012 := by
  refine ((accepted_length_honest_iff _).1 _
    (Request.fromFrame_newDraft14 (Octets.fill 32 0x42))).mpr ?_
  rw [lengthField, framed, wordAt_frameHead, Request.encode_length]
  decide

/-- The same request with the length field 999. -/
def shortRequest : Bytes := frameHead 999 ++ (Request.newDraft14 (Octets.fill 32 0x42)).encode

/-- It is accepted, though 1012 bytes follow. -/
theorem shortRequest_accepted :
    Request.fromFrame shortRequest = .ok (Request.newDraft14 (Octets.fill 32 0x42)) ∧
      ¬ (lengthField shortRequest = shortRequest.length - 12 ∧
        shortRequest.length - 12 = 1012) := by
  refine ⟨by decide +kernel, ?_⟩
  rintro ⟨hfield, hlong⟩
  rw [hlong, lengthField, shortRequest, wordAt_frameHead] at hfield
  exact absurd hfield (by decide)

end Roughenough.Protocol
