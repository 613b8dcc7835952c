/-
# `Roughenough.Common.Ambiguity` — what `try_decode` makes of a text

Nothing says in which of the six encodings a text is written, and the hex
decoders are asked first.  For the text of any bytes, of any length:

    a hex text              is read as hex, in whichever case it is
    a text of base 64       is read as what was written, in all four spellings,
                            unless it happens to be a hex text

`abcd` is both; as base 64 it stands for three bytes and it is read as two.  So
whoever writes base 64 has to know that there is a character in it that is no hex
digit.  A JSON object is such a case, by its first two bytes.
-/
import Roughenough.Common.Encoding

namespace Roughenough.Common

open Roughenough.Base Roughenough.Protocol

open Encoding

/-! ## A base 64 text that is a hex text is one of other bytes -/

/-- A text of base 64 without padding is four thirds as long as its bytes. -/
theorem length_of_no_pad {e : Encoding} (he : e.isHex = false) {bs : Bytes}
    (hpad : '=' ∉ e.encode bs) : (e.encode bs).length = (4 * bs.length + 2) / 3 := by
  have hstd : ∀ c ∈ (e.encode bs).map Base64.stdChar, decide (c ≠ '=') = true := by
    intro c hc
    obtain ⟨d, hd, rfl⟩ := List.mem_map.mp hc
    have hne : d ≠ '=' := by
      rintro rfl
      exact hpad hd
    unfold Base64.stdChar
    split
    · decide
    · split
      · decide
      · exact decide_eq_true hne
  have hcontent := congrArg List.length (content_encode he bs)
  rw [Base64.unpadded_length, Base64.unpadded, List.filter_eq_self.mpr hstd,
    List.length_map] at hcontent
  exact hcontent

/-- One byte: the second character stands for two of its bits, or for four. -/
theorem single_ne (b : UInt8) : ∀ e e' : Encoding, e.isHex = false → e'.isHex = true →
    e.encode [b] ≠ e'.encode [b] := by
  have hall : ∀ n : Fin 256,
      Base64.charOf (n.val % 4 * 16) ≠ Hex.lower.getD (n.val % 16) '?' ∧
      Base64.charOf (n.val % 4 * 16) ≠ Hex.upper.getD (n.val % 16) '?' ∧
      Base64.urlChar (Base64.charOf (n.val % 4 * 16)) =
        Base64.charOf (n.val % 4 * 16) := by
    decide +kernel
  obtain ⟨hlower, hupper, hurl⟩ := hall ⟨b.toNat, b.toNat_lt⟩
  intro e e' he he' h
  have hsecond := congrArg (fun text => text[1]?) h
  have hb := b.toNat_lt
  have hunpad : Base64.unpadded (Base64.encodeChars [b]) =
      [Base64.charOf (b.toNat / 4), Base64.charOf (b.toNat % 4 * 16)] := by
    rw [Base64.encodeChars, Base64.unpadded_cons_charOf (by omega),
      Base64.unpadded_cons_charOf (by omega), Base64.unpadded_cons_pad,
      Base64.unpadded_cons_pad]
    rfl
  have hleft : (e.encode [b])[1]? = some (Base64.charOf (b.toNat % 4 * 16)) := by
    cases e with
    | hexLower => cases he
    | hexUpper => cases he
    | base64Url => exact congrArg some hurl
    | base64UrlNoPad =>
        rw [encode, hunpad]
        exact congrArg some hurl
    | base64 => rfl
    | base64NoPad =>
        rw [encode, hunpad]
        rfl
  simp only [hleft] at hsecond
  cases e' with
  | hexLower => exact hlower (Option.some.inj hsecond)
  | hexUpper => exact hupper (Option.some.inj hsecond)
  | _ => cases he'

/-- Only the empty text stands for the same bytes in base 64 and in base 16. -/
theorem eq_nil_of_both {e e' : Encoding} (he : e.isHex = false) (he' : e'.isHex = true)
    {bs : Bytes} (h : e.encode bs = e'.encode bs) : bs = [] := by
  have hhex : e' = .hexLower ∨ e' = .hexUpper := by
    cases e' with
    | hexLower => exact .inl rfl
    | hexUpper => exact .inr rfl
    | _ => cases he'
  have hpad : '=' ∉ e.encode bs := by
    rw [h]
    exact pad_not_mem_hex hhex bs
  have hlen := length_of_no_pad he hpad
  rw [h, hex_length hhex] at hlen
  match bs with
  | [] => rfl
  | [b] => exact absurd h (single_ne b e e' he he')
  | _ :: _ :: _ =>
      simp only [List.length_cons] at hlen
      omega

/-! ## The first decoder that answers -/

theorem encode_nil (e : Encoding) : e.encode [] = [] := by
  cases e <;> rfl

theorem eq_nil_of_encode_nil {e : Encoding} (he : e.isHex = true) {bs : Bytes}
    (h : e.encode bs = []) : bs = [] :=
  eq_of_hex he he ((encode_nil e).trans h.symm)

/-- The hex decoders come first. -/
theorem isHex_of_rank {e e' : Encoding} (he : e.isHex = true) (h : rank e' < rank e) :
    e'.isHex = true := by
  revert he h
  cases e <;> cases e' <;> decide

theorem orElse_ok_cases {ε α : Type} {x y : Outcome ε α} {v : α} (h : orElse x y = .ok v) :
    x = .ok v ∨ y = .ok v := by
  cases x with
  | ok w => exact .inl h
  | err e => exact .inr h
  | panic => cases h

/-- An answer is the answer of one of the six. -/
theorem exists_decoder_of_ok {decoders : Decoders} {text : List Char} {bs : Bytes}
    (h : tryDecode decoders text = .ok bs) : ∃ e, decoders e text = .ok bs := by
  rcases orElse_ok_cases h with h | h
  · rcases orElse_ok_cases h with h | h
    · rcases orElse_ok_cases h with h | h
      · rcases orElse_ok_cases h with h | h
        · rcases orElse_ok_cases h with h | h
          · exact ⟨_, h⟩
          · exact ⟨_, h⟩
        · exact ⟨_, h⟩
      · exact ⟨_, h⟩
    · exact ⟨_, h⟩
  · exact ⟨_, h⟩

/-- The texts of some bytes that are read as these bytes. -/
def Clear (e : Encoding) (bs : Bytes) : Prop :=
  e.isHex = true ∨ bs = [] ∨ ¬ HexText (e.encode bs)

section Strict

variable {decoders : Decoders} (hd : Strict decoders)
include hd

/-- Every decoder that answers before the right one gives the same bytes. -/
theorem tryDecode_of_clear {e : Encoding} {bs : Bytes} (hclear : Clear e bs) :
    tryDecode decoders (e.encode bs) = .ok bs := by
  refine tryDecode_eq (e := e) ?_ (hd.undoes e bs)
  intro e' hrank
  refine agrees_of_ok (hd.answers e' _) fun w hw => ?_
  have htext := hd.encode_eq hw
  cases he : e.isHex with
  | true => exact eq_of_hex he (isHex_of_rank he hrank) htext
  | false =>
      cases he' : e'.isHex with
      | false => exact eq_of_base64 he he' htext
      | true =>
          rcases hclear with hhex | rfl | hnot
          · rw [he] at hhex
            cases hhex
          · exact eq_nil_of_encode_nil he' (htext.symm.trans (encode_nil e))
          · exact absurd (hexText_iff.mpr ⟨e', w, he', htext⟩) hnot

/-- A hex text is read as one. -/
theorem tryDecode_of_hexText {text : List Char} (h : HexText text) :
    ∃ (e : Encoding) (w : Bytes), e.isHex = true ∧ text = e.encode w ∧
      tryDecode decoders text = .ok w := by
  obtain ⟨e, w, he, htext⟩ := hexText_iff.mp h
  refine ⟨e, w, he, htext, ?_⟩
  rw [htext]
  exact tryDecode_of_clear hd (.inl he)

/-- A hex text of base 64 is never read as the bytes it was written for. -/
theorem tryDecode_ne_of_not_clear {e : Encoding} {bs : Bytes} (h : ¬ Clear e bs) :
    ∃ read, tryDecode decoders (e.encode bs) = .ok read ∧ read ≠ bs := by
  obtain ⟨hbase, hne, hhex⟩ : e.isHex = false ∧ bs ≠ [] ∧ HexText (e.encode bs) := by
    simpa only [Clear, not_or, not_not, Bool.not_eq_true] using h
  obtain ⟨e', w, he', htext, hread⟩ := tryDecode_of_hexText hd hhex
  refine ⟨w, hread, ?_⟩
  rintro rfl
  exact hne (eq_nil_of_both hbase he' htext)

/-- What is read stands for these bytes in one of the six encodings. -/
theorem spells_of_tryDecode {text : List Char} {bs : Bytes}
    (h : tryDecode decoders text = .ok bs) : ∃ e : Encoding, e.Spells text bs := by
  obtain ⟨e, he⟩ := exists_decoder_of_ok h
  exact ⟨e, hd.takes e text bs he⟩

theorem tryDecode_ne_panic (text : List Char) : tryDecode decoders text ≠ .panic := by
  have hor : ∀ {x y : Outcome DecodeError Bytes}, x ≠ .panic → y ≠ .panic → orElse x y ≠ .panic := by
    intro x y hx hy
    cases x with
    | ok v => exact hx
    | err e => exact hy
    | panic => exact absurd rfl hx
  have hall := fun e => hd.answers e text
  exact hor (hor (hor (hor (hor (hall _) (hall _)) (hall _)) (hall _)) (hall _)) (hall _)

/-- A character that is in no alphabet is enough for an error. -/
theorem tryDecode_err {text : List Char} {c : Char} (hc : c ∈ text)
    (h : c ∉ Encoding.alphabets) : ∃ e, tryDecode decoders text = .err e := by
  cases hread : tryDecode decoders text with
  | ok bs =>
      obtain ⟨e, hspells⟩ := spells_of_tryDecode hd hread
      exact absurd hc (hspells.not_mem h)
  | err e => exact ⟨e, rfl⟩
  | panic => exact absurd hread (tryDecode_ne_panic hd text)

/-- 32 bytes are read back from each of the six. -/
theorem tryDecode_of_thirty_two (e : Encoding) {bs : Bytes} (hlen : bs.length = 32) :
    tryDecode decoders (e.encode bs) = .ok bs := by
  refine tryDecode_eq (e := e) ?_ (hd.undoes e bs)
  intro e' hrank
  exact agrees_of_ok (hd.answers e' _) fun w hw => eq_of_earlier hlen hrank (hd.encode_eq hw)

end Strict

/-- `try_decode` reads the text of some bytes as these bytes exactly when the text is written in
hex, or is no hex text; in the remaining case it reads other bytes. -/
theorem tryDecode_encode_iff (decoders : Decoders) (hd : Strict decoders) (e : Encoding)
    (bs : Bytes) :
    (tryDecode decoders (e.encode bs) = .ok bs ↔
      e.isHex = true ∨ bs = [] ∨ ¬ HexText (e.encode bs)) ∧
    ∃ read, tryDecode decoders (e.encode bs) = .ok read := by
  by_cases hclear : Clear e bs
  · have hread := tryDecode_of_clear hd hclear
    exact ⟨iff_of_true hread hclear, bs, hread⟩
  · obtain ⟨read, hread, hne⟩ := tryDecode_ne_of_not_clear hd hclear
    refine ⟨iff_of_false ?_ hclear, read, hread⟩
    intro hsame
    rw [hread] at hsame
    exact hne (Outcome.ok.inj hsame)

/-- The text of three bytes that is read as two. -/
theorem tryDecode_encode_iff_abcd :
    tryDecode canonical (Encoding.base64.encode [0x69, 0xb7, 0x1d]) ≠ .ok [0x69, 0xb7, 0x1d] := by
  intro h
  have hclear := (tryDecode_encode_iff canonical canonical_strict .base64
    [0x69, 0xb7, 0x1d]).1.mp h
  revert hclear
  decide +kernel

/-! ## JSON -/

/-- The bytes of a JSON object as serde_json writes it: a brace, then a quote or a line feed. -/
def JsonObject (bs : Bytes) : Prop :=
  ∃ later, bs = 0x7b :: 0x22 :: later ∨ bs = 0x7b :: 0x0a :: later

/-- What is in the content of a text is in the text, unless it is spelled in two ways. -/
theorem mem_encode_of_content {e : Encoding} (he : e.isHex = false) {bs : Bytes} {c : Char}
    (hc : c ∈ Base64.unpadded (Base64.encodeChars bs)) (hplus : c ≠ '+') (hslash : c ≠ '/') :
    c ∈ e.encode bs := by
  rw [← content_encode he] at hc
  obtain ⟨d, hd, rfl⟩ := List.mem_map.mp (List.mem_of_mem_filter hc)
  unfold Base64.stdChar at hplus hslash ⊢
  split
  · next h => exact absurd rfl (if_pos h ▸ hplus)
  · next h =>
      rw [if_neg h] at hslash
      split
      · next h' => exact absurd rfl (if_pos h' ▸ hslash)
      · exact hd

/-- The second character of its base 64 text is no hex digit. -/
theorem JsonObject.not_hexText {bs : Bytes} (h : JsonObject bs) {e : Encoding}
    (he : e.isHex = false) : ¬ HexText (e.encode bs) := by
  have hquote : Base64.charOf ((0x7b : UInt8).toNat % 4 * 16 + (0x22 : UInt8).toNat / 16) = 'y' := by
    decide +kernel
  have hfeed : Base64.charOf ((0x7b : UInt8).toNat % 4 * 16 + (0x0a : UInt8).toNat / 16) = 'w' := by
    decide +kernel
  have hpair : ∀ (a b : UInt8) (later : Bytes),
      Base64.charOf (a.toNat % 4 * 16 + b.toNat / 16) ∈ Base64.encodeChars (a :: b :: later) := by
    intro a b later
    cases later with
    | nil => exact List.mem_cons_of_mem _ List.mem_cons_self
    | cons c later => exact List.mem_cons_of_mem _ List.mem_cons_self
  have hsecond : ∃ c, c ∈ e.encode bs ∧ c ∉ Hex.lower ∧ c ∉ Hex.upper := by
    obtain ⟨later, rfl | rfl⟩ := h
    · have hmem := hpair 0x7b 0x22 later
      rw [hquote] at hmem
      exact ⟨'y', mem_encode_of_content he (List.mem_filter.mpr ⟨hmem, by decide⟩) (by decide)
        (by decide), by decide, by decide⟩
    · have hmem := hpair 0x7b 0x0a later
      rw [hfeed] at hmem
      exact ⟨'w', mem_encode_of_content he (List.mem_filter.mpr ⟨hmem, by decide⟩) (by decide)
        (by decide), by decide, by decide⟩
  obtain ⟨c, hc, hlower, hupper⟩ := hsecond
  rintro ⟨-, hall | hall⟩
  · exact hlower (hall c hc)
  · exact hupper (hall c hc)

theorem JsonObject.clear {bs : Bytes} (h : JsonObject bs) (e : Encoding) : Clear e bs := by
  cases he : e.isHex with
  | true => exact .inl he
  | false => exact .inr (.inr (h.not_hexText he))

/-- So a JSON object is read back from its text in any of the six encodings. -/
theorem JsonObject.tryDecode_encode {bs : Bytes} (h : JsonObject bs) {decoders : Decoders}
    (hd : Strict decoders) (e : Encoding) : tryDecode decoders (e.encode bs) = .ok bs :=
  tryDecode_of_clear hd (h.clear e)

end Roughenough.Common
