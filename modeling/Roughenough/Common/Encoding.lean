/-
# `Roughenough.Common.Encoding` — keys given as text

`encoding.rs` of the common crate.  A key may be written in any of six
encodings and nothing says which: `try_decode` tries the decoders of
`data_encoding` in a fixed order and the first success wins.

    HEXLOWER, HEXUPPER, BASE64URL, BASE64URL_NOPAD, BASE64, BASE64_NOPAD

The decoders are parameters.  What is relied on is that they are strict: a
decoder takes the texts its encoder writes, for the bytes they were written
for, and no other text, unless it is a decoder with padding and the text is
several of its encoder's in a row.

The alphabets overlap, so a later text can reach an earlier decoder.  For 32
bytes the ways to do so are these:

    padded text       has a `=`, which no hex or unpadded text has
    unpadded text     has 43 characters: not even, not a multiple of four
    same shape        the two alphabets agree where they overlap
-/
import Roughenough.Base.Encodings
import Roughenough.Protocol.Tags

namespace Roughenough.Common

open Roughenough.Base Roughenough.Protocol

/-! ## The decoders -/

inductive DecodeKind where
  | length | symbol | trailing | padding
  deriving DecidableEq, Repr

structure DecodeError where
  position : Nat
  kind : DecodeKind
  deriving DecidableEq, Repr

abbrev Decoders := Encoding → List Char → Outcome DecodeError Bytes

/-- Exact alphabet, exact length, canonical padding, trailing bits zero. -/
structure Strict (decoders : Decoders) : Prop where
  undoes : ∀ e bs, decoders e (e.encode bs) = .ok bs
  takes : ∀ e text bs, decoders e text = .ok bs → e.Spells text bs
  answers : ∀ e text, decoders e text ≠ .panic

/-- On what some encoding has written there is no difference between the two. -/
theorem Strict.encode_eq {decoders : Decoders} (hd : Strict decoders) {e e' : Encoding}
    {bs w : Bytes} (h : decoders e' (e.encode bs) = .ok w) : e.encode bs = e'.encode w :=
  (hd.takes _ _ _ h).encode_eq

/-! ## The functions -/

/-- `Result::or_else(|_| other)`. -/
def orElse {ε α : Type} : Outcome ε α → Outcome ε α → Outcome ε α
  | .err _, other => other
  | x, _ => x

def tryDecode (decoders : Decoders) (encodedValue : List Char) : Outcome DecodeError Bytes :=
  orElse (orElse (orElse (orElse (orElse
    (decoders .hexLower encodedValue)
    (decoders .hexUpper encodedValue))
    (decoders .base64Url encodedValue))
    (decoders .base64UrlNoPad encodedValue))
    (decoders .base64 encodedValue))
    (decoders .base64NoPad encodedValue)

/-- `PublicKey::from(&[u8])`: `copy_from_slice` panics on another length. -/
def publicKeyFrom {ε : Type} (bytes : Bytes) : Outcome ε PublicKey :=
  if h : bytes.length = 32 then .ok ⟨bytes, h⟩ else .panic

def tryDecodeKey (decoders : Decoders) (encodedKey : List Char) :
    Outcome DecodeError PublicKey := do
  let key ← tryDecode decoders encodedKey
  Outcome.failIf (key.length ≠ 32) ⟨key.length, .length⟩
  publicKeyFrom key

/-- The place of a decoder in `try_decode`. -/
def rank : Encoding → Nat
  | .hexLower => 0
  | .hexUpper => 1
  | .base64Url => 2
  | .base64UrlNoPad => 3
  | .base64 => 4
  | .base64NoPad => 5

/-! ## Texts of 32 bytes -/

section ThirtyTwo

variable {key bs : Bytes}

theorem pad_not_mem_hex {e : Encoding} (he : e = .hexLower ∨ e = .hexUpper) (bs : Bytes) :
    '=' ∉ e.encode bs := by
  rcases he with rfl | rfl
  · exact Hex.pad_not_mem Hex.lower_reads bs
  · exact Hex.pad_not_mem Hex.upper_reads bs

theorem hex_length {e : Encoding} (he : e = .hexLower ∨ e = .hexUpper) (bs : Bytes) :
    (e.encode bs).length = 2 * bs.length := by
  rcases he with rfl | rfl
  · exact Hex.encodeChars_length _ bs
  · exact Hex.encodeChars_length _ bs

theorem padded_length {e : Encoding} (he : e = .base64Url ∨ e = .base64) (bs : Bytes) :
    (e.encode bs).length % 4 = 0 := by
  have hlen := Base64.encodeChars_length bs
  rcases he with rfl | rfl
  · rw [Encoding.encode, List.length_map]
    omega
  · rw [Encoding.encode]
    omega

theorem pad_mem_padded {e : Encoding} (he : e = .base64Url ∨ e = .base64)
    (hkey : key.length = 32) : '=' ∈ e.encode key := by
  rcases he with rfl | rfl
  · exact Base64.pad_mem_urlChar (Base64.pad_mem_of_thirty_two hkey)
  · exact Base64.pad_mem_of_thirty_two hkey

theorem noPad_length {e : Encoding} (he : e = .base64UrlNoPad ∨ e = .base64NoPad)
    (hkey : key.length = 32) : (e.encode key).length = 43 := by
  have hlen := Base64.unpadded_length key
  rw [hkey] at hlen
  rcases he with rfl | rfl
  · rw [Encoding.encode, List.length_map]
    exact hlen
  · exact hlen

/-- A padded text has a character that hex and unpadded texts lack. -/
theorem padded_ne {e : Encoding} (he : e = .base64Url ∨ e = .base64) (hkey : key.length = 32)
    {text : List Char} (htext : '=' ∉ text) : e.encode key ≠ text := by
  intro h
  rw [← h] at htext
  exact htext (pad_mem_padded he hkey)

/-- An unpadded text is as long as no hex and no padded text. -/
theorem noPad_ne {e : Encoding} (he : e = .base64UrlNoPad ∨ e = .base64NoPad)
    (hkey : key.length = 32) {text : List Char} (htext : 2 ∣ text.length) :
    e.encode key ≠ text := by
  intro h
  rw [← h, noPad_length he hkey] at htext
  exact absurd htext (by decide)

theorem two_dvd_hex {e : Encoding} (he : e = .hexLower ∨ e = .hexUpper) (bs : Bytes) :
    2 ∣ (e.encode bs).length := ⟨bs.length, hex_length he bs⟩

theorem two_dvd_padded {e : Encoding} (he : e = .base64Url ∨ e = .base64) (bs : Bytes) :
    2 ∣ (e.encode bs).length := by
  have := padded_length he bs
  omega

/-- An earlier decoder that takes a text of 32 bytes takes it for these bytes. -/
theorem eq_of_earlier (hkey : key.length = 32) {e e' : Encoding} (hrank : rank e' < rank e)
    (h : e.encode key = e'.encode bs) : bs = key := by
  cases e with
  | hexLower => exact absurd hrank (Nat.not_lt_zero _)
  | hexUpper =>
      cases e' with
      | hexLower => exact Encoding.eq_of_read (Encoding.read_hexUpper key) h
      | _ => exact absurd hrank (by decide)
  | base64Url =>
      cases e' with
      | hexLower => exact absurd h (padded_ne (.inl rfl) hkey (pad_not_mem_hex (.inl rfl) bs))
      | hexUpper => exact absurd h (padded_ne (.inl rfl) hkey (pad_not_mem_hex (.inr rfl) bs))
      | _ => exact absurd hrank (by decide)
  | base64UrlNoPad =>
      cases e' with
      | hexLower => exact absurd h (noPad_ne (.inl rfl) hkey (two_dvd_hex (.inl rfl) bs))
      | hexUpper => exact absurd h (noPad_ne (.inl rfl) hkey (two_dvd_hex (.inr rfl) bs))
      | base64Url => exact absurd h (noPad_ne (.inl rfl) hkey (two_dvd_padded (.inl rfl) bs))
      | _ => exact absurd hrank (by decide)
  | base64 =>
      cases e' with
      | hexLower => exact absurd h (padded_ne (.inr rfl) hkey (pad_not_mem_hex (.inl rfl) bs))
      | hexUpper => exact absurd h (padded_ne (.inr rfl) hkey (pad_not_mem_hex (.inr rfl) bs))
      | base64Url => exact Encoding.eq_of_read (Encoding.read_base64 key) h
      | base64UrlNoPad =>
          refine absurd h (padded_ne (.inr rfl) hkey ?_)
          exact Base64.pad_not_mem_urlChar (Base64.pad_not_mem_unpadded _)
      | _ => exact absurd hrank (by decide)
  | base64NoPad =>
      cases e' with
      | hexLower => exact absurd h (noPad_ne (.inr rfl) hkey (two_dvd_hex (.inl rfl) bs))
      | hexUpper => exact absurd h (noPad_ne (.inr rfl) hkey (two_dvd_hex (.inr rfl) bs))
      | base64Url => exact absurd h (noPad_ne (.inr rfl) hkey (two_dvd_padded (.inl rfl) bs))
      | base64UrlNoPad => exact Encoding.eq_of_read (Encoding.read_base64NoPad key) h
      | base64 => exact absurd h (noPad_ne (.inr rfl) hkey (two_dvd_padded (.inr rfl) bs))
      | base64NoPad => exact absurd hrank (by decide)

end ThirtyTwo

/-! ## The fallback order -/

/-- The call fails, or answers `v`. -/
def Agrees {ε α : Type} (v : α) (x : Outcome ε α) : Prop := x = .ok v ∨ ∃ e, x = .err e

section Fallback

variable {ε α : Type} {v : α} {x y : Outcome ε α}

@[simp] theorem orElse_ok (v : α) (y : Outcome ε α) : orElse (.ok v) y = .ok v := rfl

theorem Agrees.orElse (hx : Agrees v x) (hy : Agrees v y) : Agrees v (orElse x y) := by
  rcases hx with rfl | ⟨e, rfl⟩
  · exact .inl rfl
  · exact hy

theorem Agrees.orElse_ok (hx : Agrees v x) : Common.orElse x (.ok v) = .ok v := by
  rcases hx with rfl | ⟨e, rfl⟩
  · rfl
  · rfl

theorem agrees_of_ok {x : Outcome ε α} (hx : x ≠ .panic) (hv : ∀ w, x = .ok w → w = v) :
    Agrees v x := by
  cases x with
  | ok w => exact .inl (by rw [hv w rfl])
  | err e => exact .inr ⟨e, rfl⟩
  | panic => exact absurd rfl hx

/-- The first decoder that answers decides. -/
theorem tryDecode_eq {decoders : Decoders} {text : List Char} {bs : Bytes} {e : Encoding}
    (hbefore : ∀ e', rank e' < rank e → Agrees bs (decoders e' text))
    (he : decoders e text = .ok bs) : tryDecode decoders text = .ok bs := by
  unfold tryDecode
  cases e with
  | hexLower => rw [he]; rfl
  | hexUpper =>
      rw [he, (hbefore .hexLower (by decide)).orElse_ok]
      rfl
  | base64Url =>
      have h := (hbefore .hexLower (by decide)).orElse (hbefore .hexUpper (by decide))
      rw [he, h.orElse_ok]
      rfl
  | base64UrlNoPad =>
      have h := ((hbefore .hexLower (by decide)).orElse (hbefore .hexUpper (by decide))).orElse
        (hbefore .base64Url (by decide))
      rw [he, h.orElse_ok]
      rfl
  | base64 =>
      have h := (((hbefore .hexLower (by decide)).orElse (hbefore .hexUpper (by decide))).orElse
        (hbefore .base64Url (by decide))).orElse (hbefore .base64UrlNoPad (by decide))
      rw [he, h.orElse_ok]
      rfl
  | base64NoPad =>
      have h := ((((hbefore .hexLower (by decide)).orElse (hbefore .hexUpper (by decide))).orElse
        (hbefore .base64Url (by decide))).orElse (hbefore .base64UrlNoPad (by decide))).orElse
          (hbefore .base64 (by decide))
      rw [he, h.orElse_ok]

end Fallback

/-- Every key survives each of the six encodings, and no decoder before the right one takes
its text for another value. -/
theorem tryDecodeKey_encode (decoders : Decoders) (hd : Strict decoders) (e : Encoding)
    (key : PublicKey) : tryDecodeKey decoders (e.encode key.bytes) = .ok key ∧
      ∀ e', rank e' < rank e → ∀ bs, decoders e' (e.encode key.bytes) = .ok bs →
        bs = key.bytes := by
  have hearlier : ∀ e', rank e' < rank e → ∀ bs, decoders e' (e.encode key.bytes) = .ok bs →
      bs = key.bytes :=
    fun e' hrank bs hok => eq_of_earlier key.bytes_length hrank (hd.encode_eq hok)
  have hdecode : tryDecode decoders (e.encode key.bytes) = .ok key.bytes :=
    tryDecode_eq (fun e' hrank => agrees_of_ok (hd.answers e' _) (hearlier e' hrank))
      (hd.undoes e key.bytes)
  refine ⟨?_, hearlier⟩
  have hlen := key.bytes_length
  unfold tryDecodeKey publicKeyFrom
  rw [hdecode, Outcome.ok_bind, (Outcome.failIf_ok_iff (u := ())).mpr (not_not.mpr hlen),
    Outcome.ok_bind, dif_pos hlen]

/-- Decoders that take the canonical texts; of an error they only say where the text ends. -/
def canonical : Decoders := fun e text =>
  match e.decode text with
  | some bs => .ok bs
  | none => .err ⟨text.length, .symbol⟩

theorem canonical_strict : Strict canonical := by
  refine ⟨?_, ?_, ?_⟩
  · intro e bs
    unfold canonical
    rw [Encoding.decode_eq_some_iff.mpr rfl]
  · intro e text bs h
    unfold canonical at h
    cases hread : e.decode text with
    | some bs' =>
        rw [hread] at h
        cases h
        exact .inl (Encoding.decode_eq_some_iff.mp hread)
    | none =>
        rw [hread] at h
        cases h
  · intro e text
    unfold canonical
    cases e.decode text with
    | some bs' => exact Outcome.ok_ne_panic _
    | none => exact Outcome.err_ne_panic _

theorem tryDecodeKey_encode_repeated :
    tryDecodeKey canonical "QkJCQkJCQkJCQkJCQkJCQkJCQkJCQkJCQkJCQkJCQkI=".toList =
      .ok (Octets.fill 32 0x42) :=
  (tryDecodeKey_encode canonical canonical_strict .base64 (Octets.fill 32 0x42)).1

end Roughenough.Common
