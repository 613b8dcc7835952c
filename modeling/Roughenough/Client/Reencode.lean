/-
# `Roughenough.Client.Reencode` — the packet and the value made of it

The client keeps the decoded response and drops the packet.  Whoever needs the
packet again, for a chained nonce or a report, encodes the response anew.
What comes back is

    draft-14   the packet, without what stood behind the message, with the
               length field recomputed and version zero spelled 0x80000008
    draft-08   another message: the response is converted to draft-14 first

so for an accepted draft-14 packet the round trip is the identity exactly when
there is nothing of this to lose (`Verbatim`), and in draft-08 never.
-/
import Roughenough.Client.Trust

namespace Roughenough.Client

open Roughenough.Base Roughenough.Protocol ParseCursor ResponseValidator

/-- The words that VER and VERS are read from. -/
def versionWords (b : Bytes) : List UInt32 :=
  wordAt (srepRead14 b) 40 :: words (versCount (srepRead14 b)) ((srepRead14 b).drop 56)

/-- A packet that is its message and nothing else: it ends where the values end, its length field
says so, and no version is spelled with the legacy zero. -/
structure Verbatim (b : Bytes) : Prop where
  length_eq : b.length = messageEnd b
  field_eq : (wordAt b 8).toNat + 12 = b.length
  no_legacy : ∀ w ∈ versionWords b, w ≠ 0

instance (b : Bytes) : Decidable (Verbatim b) :=
  have : Decidable (∀ w ∈ versionWords b, w ≠ 0) := List.decidableBAll _ _
  decidable_of_iff (b.length = messageEnd b ∧ (wordAt b 8).toNat + 12 = b.length ∧
    ∀ w ∈ versionWords b, w ≠ 0)
    ⟨fun h => ⟨h.1, h.2.1, h.2.2⟩, fun h => ⟨h.length_eq, h.field_eq, h.no_legacy⟩⟩

section Draft14

variable {b : Bytes} {r : Response} {len vw : UInt32} {ws : List UInt32} {tail : Bytes}

/-- The pieces that a packet may lose, in a packet that was accepted. -/
theorem reencode_pieces (hb : b = frameHead len ++ (r.encodeWith vw ws ++ tail))
    (hsp : r.srep.Spells vw ws) (hacc : r.Accepts tail.length) :
    wordAt b 8 = len ∧ versionWords b = vw :: ws ∧
      messageEnd b = 12 + (r.encodeWith vw ws).length := by
  have hL := Response.layout_of_encodeWith hb hsp hacc
  have hread := hL.srepRead_eq
  obtain ⟨hver, hvers⟩ := SignedResponse.words_encodeWith hsp
    (r.cert.encode ++ (leBytes32 r.index ++ tail))
  refine ⟨?_, ?_, hL.messageEnd_eq⟩
  · rw [hb]
    exact wordAt_frameHead len _
  · unfold versionWords
    rw [hL.versCount_eq hread, hread, hver, hvers]

/-- The length field of an encoding does not wrap. -/
theorem toNat_encode_length (r : Response) :
    (UInt32.ofNat r.encode.length).toNat = r.encode.length := by
  have hpath := r.path.bounded
  have hvers := r.srep.supportedVersions.bounded
  have hsize : r.encode.length = _ := Response.encodeWith_length r.srep.spells_values
  exact UInt32.toNat_ofNat_of_lt' (by rw [hsize, UInt32.size]; omega)

theorem value_ne_zero (v : ProtocolVersion) : v.value ≠ 0 := by
  cases v <;> decide

/-- A packet that is an encoding is as long as it, so nothing stood behind the message. -/
theorem verbatim_of_framed_encode (h : Response.fromFrame b = .ok r) (heq : framed r.encode = b) :
    Verbatim b := by
  obtain ⟨len, vw, ws, tail, hb, hsp, hacc, -⟩ := Response.fromFrame_ok_iff.mp h
  have hsize : r.encode.length = _ := Response.encodeWith_length r.srep.spells_values
  have htail : tail = [] := by
    have hboth := congrArg List.length (heq.trans hb)
    rw [framed_length, List.length_append, frameHead_length, List.length_append,
      Response.encodeWith_length hsp, hsize] at hboth
    exact List.eq_nil_of_length_eq_zero (by omega)
  subst htail
  have hform : framed r.encode = frameHead (UInt32.ofNat r.encode.length) ++
      (r.encodeWith r.srep.version.value
        (r.srep.supportedVersions.versions.map ProtocolVersion.value) ++ []) := by
    rw [List.append_nil]
    rfl
  obtain ⟨hfield, hwords, hend⟩ :=
    reencode_pieces (heq.symm.trans hform) r.srep.spells_values hacc
  refine ⟨?_, ?_, ?_⟩
  · rw [hend, ← heq, framed_length]
    rfl
  · rw [hfield, toNat_encode_length, ← heq, framed_length, Nat.add_comm]
  · rw [hwords]
    intro w hw
    rcases List.mem_cons.mp hw with rfl | hw
    · exact value_ne_zero _
    · obtain ⟨v, -, rfl⟩ := List.mem_map.mp hw
      exact value_ne_zero v

/-- Without legacy zeros there is one spelling, which is the encoder's. -/
theorem encodeWith_eq_encode (hsp : r.srep.Spells vw ws) (hno : ∀ w ∈ vw :: ws, w ≠ 0) :
    r.encodeWith vw ws = r.encode := by
  have hvw : vw = r.srep.version.value := by
    rcases ProtocolVersion.value_of_ofWord hsp.ver with ⟨h0, -⟩ | hvw
    · exact absurd h0 (hno vw List.mem_cons_self)
    · exact hvw
  have hws : ws = r.srep.supportedVersions.versions.map ProtocolVersion.value :=
    hsp.vers.eq_values fun w hw => hno w (List.mem_cons_of_mem _ hw)
  rw [hvw, hws]
  rfl

theorem framed_encode_of_verbatim (h : Response.fromFrame b = .ok r) (hv : Verbatim b) :
    framed r.encode = b := by
  obtain ⟨len, vw, ws, tail, hb, hsp, hacc, -⟩ := Response.fromFrame_ok_iff.mp h
  obtain ⟨hfield, hwords, hend⟩ := reencode_pieces hb hsp hacc
  have hlen : b.length = 12 + ((r.encodeWith vw ws).length + tail.length) := by
    rw [hb, List.length_append, frameHead_length, List.length_append]
  have htail : tail = [] := by
    have := hv.length_eq
    exact List.eq_nil_of_length_eq_zero (by omega)
  subst htail
  have henc : r.encodeWith vw ws = r.encode := by
    refine encodeWith_eq_encode hsp ?_
    rw [← hwords]
    exact hv.no_legacy
  have hfieldLen : len = UInt32.ofNat r.encode.length := by
    have hf := hv.field_eq
    rw [hfield, hlen, henc, List.length_nil] at hf
    have hn : len.toNat = r.encode.length := by omega
    rw [← hn, UInt32.ofNat_toNat]
  rw [hb, henc, List.append_nil, hfieldLen]
  rfl

/-- Encoding an accepted draft-14 response gives back the packet exactly when the packet was its
message and nothing else. -/
theorem framed_encode_eq_iff (h : Response.fromFrame b = .ok r) :
    framed r.encode = b ↔ Verbatim b :=
  ⟨verbatim_of_framed_encode h, framed_encode_of_verbatim h⟩

/-- The encoding is no longer than the packet. -/
theorem framed_encode_length_le (h : Response.fromFrame b = .ok r) :
    (framed r.encode).length ≤ b.length := by
  obtain ⟨len, vw, ws, tail, hb, hsp, -⟩ := Response.fromFrame_ok_iff.mp h
  have hsize : r.encode.length = _ := Response.encodeWith_length r.srep.spells_values
  rw [framed_length, hb, List.length_append, frameHead_length, List.length_append,
    Response.encodeWith_length hsp, hsize]
  omega

/-- An encoding is accepted in front of as many bytes as its tables ask for. -/
theorem fromFrame_framed_zeros {t : Nat} (h : r.Accepts t) :
    Response.fromFrame (framed r.encode ++ List.replicate t 0) = .ok r := by
  have hsize : r.encode.length = _ := Response.encodeWith_length r.srep.spells_values
  refine Response.fromFrame_ok_iff.mpr ⟨UInt32.ofNat r.encode.length, _, _,
    List.replicate t 0, ?_, r.srep.spells_values, ?_, ?_, ?_⟩
  · rw [framed, List.append_assoc]
    rfl
  · rwa [List.length_replicate]
  · rw [toNat_encode_length, hsize]
    omega
  · rw [toNat_encode_length, List.length_append]
    exact Nat.le_add_right _ _

/-- The encoding of an accepted response is accepted again, as the same response, when its tables
do not point behind it. -/
theorem fromFrame_framed_iff {r' : Response} {t : Nat} (h : r.Accepts t) (ht : t < 2 ^ 30) :
    Response.fromFrame (framed r.encode) = .ok r' ↔ r' = r ∧ r.Accepts 0 := by
  have hpath := r.path.bounded
  have hvers := r.srep.supportedVersions.bounded
  have hsize : r.encode.length = _ := Response.encodeWith_length r.srep.spells_values
  constructor
  · intro hparse
    obtain ⟨len, vw, ws, tail, hb, hsp, hacc, hmin, hlen⟩ := Response.fromFrame_ok_iff.mp hparse
    have hboth := congrArg List.length hb
    rw [framed_length, List.length_append, frameHead_length, List.length_append] at hboth
    -- behind `t` more bytes both readings are accepted, so they are one
    have hsecond : Response.fromFrame (framed r.encode ++ List.replicate t 0) = .ok r' := by
      refine Response.fromFrame_ok_iff.mpr ⟨len, vw, ws, tail ++ List.replicate t 0, ?_, hsp, ?_,
        hmin, ?_⟩
      · rw [hb]
        simp only [List.append_assoc]
      · refine hacc.grow ?_ ?_
        · rw [List.length_append]
          exact Nat.le_add_right _ _
        · rw [List.length_append, List.length_replicate]
          omega
      · rw [← List.append_assoc, List.length_append]
        exact Nat.le_trans hlen (Nat.le_add_right _ _)
    have hsame : r = r' := Outcome.ok.inj ((fromFrame_framed_zeros h).symm.trans hsecond)
    subst hsame
    have htail : tail.length = 0 := by
      rw [Response.encodeWith_length hsp] at hboth
      omega
    rw [htail] at hacc
    exact ⟨rfl, hacc⟩
  · rintro ⟨rfl, h0⟩
    exact Response.fromFrame_framed h0

end Draft14

/-- A draft-08 response, converted and encoded, is never the packet it came in: the packet has
six tags and the encoding seven. -/
theorem framed_ofDraft08_ne {b : Bytes} {r : ResponseDraft08} {n : Nat} (hn : 16 ≤ n)
    (h : ResponseDraft08.fromFrame (b.take n) = .ok r) :
    framed (Response.ofDraft08 r).encode ≠ b := by
  intro heq
  obtain ⟨len, vw, tail, hb, -⟩ := ResponseDraft08.fromFrame_ok_iff.mp h
  have hsix : wordAt (b.take n) 12 = 6 := by
    rw [hb, ResponseDraft08.encodeWith, List.append_assoc]
    exact numTags_eq len _
  have hseven : wordAt b 12 = 7 := by
    rw [← heq]
    exact numTags_eq _ _
  rw [wordAt_take b hn, hseven] at hsix
  exact absurd hsix (by decide)

/-! ## The SREP of a response that was built -/

theorem srepSlice14_built {r : Response} (h : r.Built) :
    srepSlice14 r.normalize (framed r.encode) = r.srep.encode ∧
      68 + r.header.offset 4 ≤ (framed r.encode).length := by
  obtain ⟨-, h3, h4, -⟩ := h.offsets
  have hsize := r.srep.wireSize_eq
  have hlen : r.srep.encode.length = r.srep.wireSize := by
    rw [SignedResponse.encode, r.srep.spells_values.encodeWith_length, hsize]
  have hsplit : framed r.encode = (frameHead (UInt32.ofNat r.encode.length) ++
      (r.header.encode ++ (r.front ++ r.path.paths))) ++ (r.srep.encode ++ r.back) := by
    simp only [framed, Response.encode, List.append_assoc]
  have hfront : (frameHead (UInt32.ofNat r.encode.length) ++
      (r.header.encode ++ (r.front ++ r.path.paths))).length = 68 + r.header.offset 3 := by
    simp only [List.length_append, frameHead_length, Header.encode_length, Header.sizeOf,
      Response.front_length, MerklePath.paths_length]
    omega
  refine ⟨?_, ?_⟩
  · show slice (framed r.encode) (68 + r.header.offset 3) (68 + r.header.offset 4) = _
    rw [hsplit]
    exact slice_middle hfront (by omega)
  · rw [hsplit, List.length_append, hfront, List.length_append, hlen]
    omega

theorem srepSlice08_built {r : ResponseDraft08} (h : r.Built) :
    srepSlice08 r.normalize (framed r.encode) = r.srep.encode ∧
      60 + r.header.offset 3 ≤ (framed r.encode).length := by
  obtain ⟨-, h2, h3, -⟩ := h.offsets
  have hlen := r.srep.encode_length
  have hsplit : framed r.encode = (frameHead (UInt32.ofNat r.encode.length) ++
      (r.header.encode ++ (r.frontWith r.version.value ++ r.path.paths))) ++
        (r.srep.encode ++ r.back) := by
    simp only [framed, ResponseDraft08.encode, ResponseDraft08.encodeWith, List.append_assoc]
  have hfront : (frameHead (UInt32.ofNat r.encode.length) ++
      (r.header.encode ++ (r.frontWith r.version.value ++ r.path.paths))).length =
        60 + r.header.offset 2 := by
    simp only [List.length_append, frameHead_length, Header.encode_length, Header.sizeOf,
      ResponseDraft08.frontWith_length, MerklePath.paths_length]
    omega
  refine ⟨?_, ?_⟩
  · show slice (framed r.encode) (60 + r.header.offset 2) (60 + r.header.offset 3) = _
    rw [hsplit]
    exact slice_middle hfront (by omega)
  · rw [hsplit, List.length_append, hfront, List.length_append, hlen]
    omega

end Roughenough.Client
