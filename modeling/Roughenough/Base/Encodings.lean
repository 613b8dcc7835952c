/-
# `Roughenough.Base.Encodings` — base 16 and the four spellings of base 64

Six ways to write bytes as text, told apart by alphabet and padding:

    hexLower            0-9 a-f
    hexUpper            0-9 A-F
    base64Url           A-Z a-z 0-9 - _    padded with =
    base64UrlNoPad      A-Z a-z 0-9 - _
    base64              A-Z a-z 0-9 + /    padded with =
    base64NoPad         A-Z a-z 0-9 + /

The padded base 64 of `Base64` is the one all four come from: the URL
alphabet renames two characters, and dropping the padding loses nothing since
the length says how much there was (`repad_unpadded`).

With padding, several texts in a row can be read as one (`Spells`); a text that some
encoding has written is never such a row (`Spells.encode_eq`).

A text of one encoding can be a text of another.  Of the three pairs that
differ in their letters alone it then means the same bytes (`read_hexUpper`,
`read_base64`, `read_base64NoPad`); the others are told apart by the padding
character and the length.

Nothing in this module is about Roughtime.
-/
import Mathlib.Data.List.Basic
import Roughenough.Base.Base64

namespace Roughenough.Base

/-! ## Base 16 -/

namespace Hex

def lower : List Char := "0123456789abcdef".toList

def upper : List Char := "0123456789ABCDEF".toList

def encodeChars (digits : List Char) (bs : Bytes) : List Char :=
  bs.flatMap fun b => [digits.getD (b.toNat / 16) '?', digits.getD (b.toNat % 16) '?']

/-- The value of a digit in either case. -/
def valueOf (c : Char) : Option Nat :=
  if c ∈ lower then some (lower.idxOf c) else if c ∈ upper then some (upper.idxOf c) else none

/-- Reads either case. -/
def decodeChars : List Char → Option Bytes
  | [] => some []
  | h :: l :: cs => do
      let h ← valueOf h
      let l ← valueOf l
      let bs ← decodeChars cs
      pure (UInt8.ofNat (h * 16 + l) :: bs)
  | _ => none

/-- An alphabet whose digits have their values. -/
def Reads (digits : List Char) : Prop := ∀ n : Fin 16, valueOf (digits.getD n '?') = some n.val

theorem lower_reads : Reads lower := by
  unfold Reads
  decide +kernel

theorem upper_reads : Reads upper := by
  unfold Reads
  decide +kernel

theorem decodeChars_encodeChars {digits : List Char} (hd : Reads digits) (bs : Bytes) :
    decodeChars (encodeChars digits bs) = some bs := by
  induction bs with
  | nil => rfl
  | cons b bs ih =>
      have hb := b.toNat_lt
      have hhigh := hd ⟨b.toNat / 16, by omega⟩
      have hlow := hd ⟨b.toNat % 16, by omega⟩
      have hval : b.toNat / 16 * 16 + b.toNat % 16 = b.toNat := by omega
      unfold encodeChars at ih ⊢
      simp only [List.flatMap_cons, List.cons_append, List.nil_append, decodeChars, hhigh, hlow,
        ih, Option.bind_eq_bind, Option.bind_some, hval, UInt8.ofNat_toNat]
      rfl

theorem encodeChars_length (digits : List Char) (bs : Bytes) :
    (encodeChars digits bs).length = 2 * bs.length := by
  unfold encodeChars
  induction bs with
  | nil => rfl
  | cons b bs ih =>
      rw [List.flatMap_cons, List.length_append, ih, List.length_cons]
      show 2 + 2 * bs.length = 2 * (bs.length + 1)
      omega

/-- No digit is a padding character. -/
theorem pad_not_mem {digits : List Char} (hd : Reads digits) (bs : Bytes) :
    '=' ∉ encodeChars digits bs := by
  intro hmem
  obtain ⟨b, -, hpair⟩ := List.mem_flatMap.mp hmem
  have hb := b.toNat_lt
  have hnone : valueOf '=' = none := by decide +kernel
  rcases List.mem_pair.mp hpair with heq | heq
  · have := hd ⟨b.toNat / 16, by omega⟩
    rw [← heq, hnone] at this
    cases this
  · have := hd ⟨b.toNat % 16, by omega⟩
    rw [← heq, hnone] at this
    cases this

end Hex

/-! ## Base 64 -/

namespace Base64

def urlChar (c : Char) : Char := if c = '+' then '-' else if c = '/' then '_' else c

def stdChar (c : Char) : Char := if c = '-' then '+' else if c = '_' then '/' else c

def unpadded (text : List Char) : List Char := text.filter (· ≠ '=')

/-- The padding that the length asks for. -/
def repad (text : List Char) : List Char :=
  text ++ List.replicate ((4 - text.length % 4) % 4) '='

theorem charOf_mem {n : Nat} (h : n < 64) : charOf n ∈ '=' :: alphabet := by
  have hall : ∀ k : Fin 64, charOf k ∈ '=' :: alphabet := by decide +kernel
  exact hall ⟨n, h⟩

/-- The characters of a padded text. -/
theorem encodeChars_mem : ∀ (bs : Bytes), ∀ c ∈ encodeChars bs, c ∈ '=' :: alphabet
  | [], c, hc => absurd hc List.not_mem_nil
  | [a], c, hc => by
      have ha := a.toNat_lt
      have hpad : '=' ∈ '=' :: alphabet := List.mem_cons_self
      simp only [encodeChars, List.mem_cons, List.not_mem_nil, or_false] at hc
      rcases hc with rfl | rfl | rfl | rfl
      · exact charOf_mem (by omega)
      · exact charOf_mem (by omega)
      · exact hpad
      · exact hpad
  | [a, b], c, hc => by
      have ha := a.toNat_lt
      have hb := b.toNat_lt
      simp only [encodeChars, List.mem_cons, List.not_mem_nil, or_false] at hc
      rcases hc with rfl | rfl | rfl | rfl
      · exact charOf_mem (by omega)
      · exact charOf_mem (by omega)
      · exact charOf_mem (by omega)
      · exact List.mem_cons_self
  | a :: b :: c :: bs, d, hd => by
      have ha := a.toNat_lt
      have hb := b.toNat_lt
      have hc := c.toNat_lt
      rw [encodeChars] at hd
      rcases List.mem_cons.mp hd with rfl | hd
      · exact charOf_mem (by omega)
      rcases List.mem_cons.mp hd with rfl | hd
      · exact charOf_mem (by omega)
      rcases List.mem_cons.mp hd with rfl | hd
      · exact charOf_mem (by omega)
      rcases List.mem_cons.mp hd with rfl | hd
      · exact charOf_mem (by omega)
      exact encodeChars_mem bs d hd

theorem encodeChars_length : ∀ bs : Bytes, (encodeChars bs).length = (bs.length + 2) / 3 * 4
  | [] => rfl
  | [_] => by simp [encodeChars]
  | [_, _] => by simp [encodeChars]
  | a :: b :: c :: bs => by
      have ih := encodeChars_length bs
      simp only [encodeChars, List.length_cons, ih]
      omega

theorem unpadded_cons_charOf {n : Nat} (h : n < 64) (text : List Char) :
    unpadded (charOf n :: text) = charOf n :: unpadded text :=
  List.filter_cons_of_pos (decide_eq_true (charOf_ne_pad h))

theorem unpadded_cons_pad (text : List Char) : unpadded ('=' :: text) = unpadded text :=
  List.filter_cons_of_neg (by decide)

theorem pad_not_mem_unpadded (text : List Char) : '=' ∉ unpadded text := by
  intro h
  exact absurd rfl (of_decide_eq_true (List.mem_filter.mp h).2)

theorem unpadded_length : ∀ bs : Bytes,
    (unpadded (encodeChars bs)).length = (4 * bs.length + 2) / 3
  | [] => rfl
  | [a] => by
      have ha := a.toNat_lt
      rw [encodeChars, unpadded_cons_charOf (by omega), unpadded_cons_charOf (by omega),
        unpadded_cons_pad, unpadded_cons_pad]
      simp [unpadded]
  | [a, b] => by
      have ha := a.toNat_lt
      have hb := b.toNat_lt
      rw [encodeChars, unpadded_cons_charOf (by omega), unpadded_cons_charOf (by omega),
        unpadded_cons_charOf (by omega), unpadded_cons_pad]
      simp [unpadded]
  | a :: b :: c :: bs => by
      have ha := a.toNat_lt
      have hb := b.toNat_lt
      have hc := c.toNat_lt
      rw [encodeChars, unpadded_cons_charOf (by omega), unpadded_cons_charOf (by omega),
        unpadded_cons_charOf (by omega), unpadded_cons_charOf (by omega)]
      simp only [List.length_cons, unpadded_length bs]
      omega

/-- The length tells how much padding was dropped. -/
theorem repad_unpadded : ∀ bs : Bytes, repad (unpadded (encodeChars bs)) = encodeChars bs
  | [] => rfl
  | [a] => by
      have ha := a.toNat_lt
      rw [encodeChars, unpadded_cons_charOf (by omega), unpadded_cons_charOf (by omega),
        unpadded_cons_pad, unpadded_cons_pad]
      rfl
  | [a, b] => by
      have ha := a.toNat_lt
      have hb := b.toNat_lt
      rw [encodeChars, unpadded_cons_charOf (by omega), unpadded_cons_charOf (by omega),
        unpadded_cons_charOf (by omega), unpadded_cons_pad]
      rfl
  | a :: b :: c :: bs => by
      have ha := a.toNat_lt
      have hb := b.toNat_lt
      have hc := c.toNat_lt
      have ih := repad_unpadded bs
      rw [encodeChars, unpadded_cons_charOf (by omega), unpadded_cons_charOf (by omega),
        unpadded_cons_charOf (by omega), unpadded_cons_charOf (by omega)]
      unfold repad at ih ⊢
      simp only [List.length_cons, List.cons_append, Nat.add_assoc, Nat.reduceAdd,
        Nat.add_mod_right]
      rw [ih]

/-- Renaming the two characters and back. -/
theorem stdChar_mem : ∀ c ∈ '=' :: alphabet, stdChar (urlChar c) = c ∧ stdChar c = c := by
  have hall : ('=' :: alphabet).all
      (fun c => decide (stdChar (urlChar c) = c ∧ stdChar c = c)) = true := by
    decide +kernel
  intro c hc
  exact of_decide_eq_true (List.all_eq_true.mp hall c hc)

theorem map_stdChar {text : List Char} (h : ∀ c ∈ text, c ∈ '=' :: alphabet) :
    text.map stdChar = text := by
  refine (List.map_congr_left ?_).trans (List.map_id text)
  intro c hc
  exact (stdChar_mem c (h c hc)).2

theorem map_stdChar_urlChar {text : List Char} (h : ∀ c ∈ text, c ∈ '=' :: alphabet) :
    (text.map urlChar).map stdChar = text := by
  rw [List.map_map]
  refine (List.map_congr_left ?_).trans (List.map_id text)
  intro c hc
  exact (stdChar_mem c (h c hc)).1

theorem unpadded_mem {bs : Bytes} : ∀ c ∈ unpadded (encodeChars bs), c ∈ '=' :: alphabet :=
  fun c hc => encodeChars_mem bs c (List.mem_filter.mp hc).1

/-- The renaming makes no padding. -/
theorem pad_not_mem_urlChar {text : List Char} (h : '=' ∉ text) : '=' ∉ text.map urlChar := by
  intro hmem
  obtain ⟨c, hc, heq⟩ := List.mem_map.mp hmem
  unfold urlChar at heq
  split at heq
  · exact absurd heq (by decide)
  · split at heq
    · exact absurd heq (by decide)
    · rw [heq] at hc
      exact h hc

theorem pad_mem_urlChar {text : List Char} (h : '=' ∈ text) : '=' ∈ text.map urlChar :=
  List.mem_map.mpr ⟨'=', h, by decide⟩

/-- 32 bytes are 43 characters and a padding. -/
theorem pad_mem_of_thirty_two {bs : Bytes} (h : bs.length = 32) : '=' ∈ encodeChars bs := by
  by_contra hpad
  have hall : unpadded (encodeChars bs) = encodeChars bs := by
    refine List.filter_eq_self.mpr fun c hc => decide_eq_true fun heq => ?_
    rw [heq] at hc
    exact hpad hc
  have hlen := congrArg List.length hall
  rw [unpadded_length, encodeChars_length, h] at hlen
  exact absurd hlen (by decide)

/-! ### Texts in a row -/

/-- Nothing but padding comes after a padding character. -/
def PadLast (text : List Char) : Prop := text.Pairwise fun c d => c = '=' → d = '='

theorem padLast_of_not_mem {text : List Char} (h : '=' ∉ text) : PadLast text := by
  have hall : text.Pairwise fun _ _ => True := List.pairwise_of_forall fun _ _ => trivial
  refine hall.imp_of_mem ?_
  rintro c d hc - - rfl
  exact absurd hc h

theorem padLast_cons {c : Char} (hc : c ≠ '=') {text : List Char} (h : PadLast text) :
    PadLast (c :: text) :=
  List.pairwise_cons.mpr ⟨fun _ _ heq => absurd heq hc, h⟩

theorem padLast_encodeChars : ∀ bs : Bytes, PadLast (encodeChars bs)
  | [] => List.Pairwise.nil
  | [a] => by
      have ha := a.toNat_lt
      have hpads : PadLast ['=', '='] := by simp [PadLast]
      exact padLast_cons (charOf_ne_pad (by omega)) (padLast_cons (charOf_ne_pad (by omega)) hpads)
  | [a, b] => by
      have ha := a.toNat_lt
      have hb := b.toNat_lt
      have hpad : PadLast ['='] := by simp [PadLast]
      exact padLast_cons (charOf_ne_pad (by omega)) (padLast_cons (charOf_ne_pad (by omega))
        (padLast_cons (charOf_ne_pad (by omega)) hpad))
  | a :: b :: c :: bs => by
      have ha := a.toNat_lt
      have hb := b.toNat_lt
      have hc := c.toNat_lt
      rw [encodeChars]
      exact padLast_cons (charOf_ne_pad (by omega)) (padLast_cons (charOf_ne_pad (by omega))
        (padLast_cons (charOf_ne_pad (by omega)) (padLast_cons (charOf_ne_pad (by omega))
          (padLast_encodeChars bs))))

/-- A text without padding ends at a whole block, so another text can follow it. -/
theorem encodeChars_append : ∀ {bs : Bytes}, '=' ∉ encodeChars bs → ∀ later : Bytes,
    encodeChars (bs ++ later) = encodeChars bs ++ encodeChars later
  | [], _, _ => rfl
  | [a], h, _ => absurd (by simp [encodeChars]) h
  | [a, b], h, _ => absurd (by simp [encodeChars]) h
  | a :: b :: c :: bs, h, later => by
      rw [encodeChars] at h
      have hrest : '=' ∉ encodeChars bs := fun hmem => h (by simp [hmem])
      simp only [List.cons_append, encodeChars, encodeChars_append hrest later]

/-- The text of something starts with a character that is not padding. -/
theorem exists_not_pad : ∀ {bs : Bytes}, bs ≠ [] → ∃ c ∈ encodeChars bs, c ≠ '='
  | [], h => absurd rfl h
  | [a], _ => ⟨_, List.mem_cons_self, charOf_ne_pad (by have := a.toNat_lt; omega)⟩
  | [a, b], _ => ⟨_, List.mem_cons_self, charOf_ne_pad (by have := a.toNat_lt; omega)⟩
  | a :: b :: c :: bs, _ => by
      rw [encodeChars]
      exact ⟨_, List.mem_cons_self, charOf_ne_pad (by have := a.toNat_lt; omega)⟩

/-- Texts in a row, with no padding but at the end, are the text of all the bytes. -/
theorem flatMap_encodeChars {parts : List Bytes} (h : PadLast (parts.flatMap encodeChars)) :
    parts.flatMap encodeChars = encodeChars parts.flatten := by
  induction parts with
  | nil => rfl
  | cons bs parts ih =>
      rw [List.flatMap_cons] at h ⊢
      obtain ⟨-, hparts, hacross⟩ := List.pairwise_append.mp h
      rw [ih hparts, List.flatten_cons]
      by_cases hnil : parts.flatten = []
      · rw [hnil, List.append_nil]
        exact List.append_nil _
      · obtain ⟨c, hc, hne⟩ := exists_not_pad hnil
        rw [← ih hparts] at hc
        have hpad : '=' ∉ encodeChars bs := fun hmem => hne (hacross _ hmem c hc rfl)
        rw [encodeChars_append hpad]

theorem urlChar_eq_pad_iff {c : Char} : urlChar c = '=' ↔ c = '=' := by
  constructor
  · intro h
    unfold urlChar at h
    split at h
    · exact absurd h (by decide)
    · split at h
      · exact absurd h (by decide)
      · exact h
  · rintro rfl
    decide

theorem padLast_map_urlChar {text : List Char} : PadLast (text.map urlChar) ↔ PadLast text := by
  unfold PadLast
  rw [List.pairwise_map]
  simp only [urlChar_eq_pad_iff]

end Base64

/-! ## The six encodings -/

inductive Encoding where
  | hexLower | hexUpper | base64Url | base64UrlNoPad | base64 | base64NoPad
  deriving DecidableEq, Repr

namespace Encoding

def encode : Encoding → Bytes → List Char
  | hexLower, bs => Hex.encodeChars Hex.lower bs
  | hexUpper, bs => Hex.encodeChars Hex.upper bs
  | base64Url, bs => (Base64.encodeChars bs).map Base64.urlChar
  | base64UrlNoPad, bs => (Base64.unpadded (Base64.encodeChars bs)).map Base64.urlChar
  | base64, bs => Base64.encodeChars bs
  | base64NoPad, bs => Base64.unpadded (Base64.encodeChars bs)

/-- Reads a text of the encoding, and some others. -/
def read : Encoding → List Char → Option Bytes
  | hexLower, text => Hex.decodeChars text
  | hexUpper, text => Hex.decodeChars text
  | base64Url, text => Base64.decodeChars (text.map Base64.stdChar)
  | base64UrlNoPad, text => Base64.decodeChars (Base64.repad (text.map Base64.stdChar))
  | base64, text => Base64.decodeChars text
  | base64NoPad, text => Base64.decodeChars (Base64.repad text)

/-- Reads a text of the encoding and no other. -/
def decode (e : Encoding) (text : List Char) : Option Bytes :=
  (e.read text).filter fun bs => e.encode bs = text

theorem read_encode (e : Encoding) (bs : Bytes) : e.read (e.encode bs) = some bs := by
  cases e with
  | hexLower => exact Hex.decodeChars_encodeChars Hex.lower_reads bs
  | hexUpper => exact Hex.decodeChars_encodeChars Hex.upper_reads bs
  | base64Url =>
      rw [encode, read, Base64.map_stdChar_urlChar (Base64.encodeChars_mem bs)]
      exact Base64.decodeChars_encodeChars bs
  | base64UrlNoPad =>
      rw [encode, read, Base64.map_stdChar_urlChar Base64.unpadded_mem, Base64.repad_unpadded]
      exact Base64.decodeChars_encodeChars bs
  | base64 => exact Base64.decodeChars_encodeChars bs
  | base64NoPad =>
      rw [encode, read, Base64.repad_unpadded]
      exact Base64.decodeChars_encodeChars bs

theorem decode_eq_some_iff {e : Encoding} {text : List Char} {bs : Bytes} :
    e.decode text = some bs ↔ text = e.encode bs := by
  unfold decode
  rw [Option.filter_eq_some_iff]
  constructor
  · rintro ⟨-, henc⟩
    exact (of_decide_eq_true henc).symm
  · intro htext
    rw [htext, read_encode]
    exact ⟨rfl, decide_eq_true rfl⟩

/-! ### Texts in a row -/

def isPadded : Encoding → Bool
  | base64Url => true
  | base64 => true
  | _ => false

/-- A text that stands for some bytes: what is written of them, and with padding also what is
written of their parts, one after the other. -/
def Spells (e : Encoding) (text : List Char) (bs : Bytes) : Prop :=
  text = e.encode bs ∨ e.isPadded = true ∧
    ∃ parts : List Bytes, text = parts.flatMap e.encode ∧ bs = parts.flatten

theorem padLast_encode (e : Encoding) (bs : Bytes) : Base64.PadLast (e.encode bs) := by
  cases e with
  | hexLower => exact Base64.padLast_of_not_mem (Hex.pad_not_mem Hex.lower_reads bs)
  | hexUpper => exact Base64.padLast_of_not_mem (Hex.pad_not_mem Hex.upper_reads bs)
  | base64Url => exact Base64.padLast_map_urlChar.mpr (Base64.padLast_encodeChars bs)
  | base64UrlNoPad =>
      exact Base64.padLast_of_not_mem
        (Base64.pad_not_mem_urlChar (Base64.pad_not_mem_unpadded _))
  | base64 => exact Base64.padLast_encodeChars bs
  | base64NoPad => exact Base64.padLast_of_not_mem (Base64.pad_not_mem_unpadded _)

/-- With no padding but at the end, there is no other text than the one that is written. -/
theorem Spells.eq_encode {e : Encoding} {text : List Char} {bs : Bytes} (h : e.Spells text bs)
    (hpad : Base64.PadLast text) : text = e.encode bs := by
  rcases h with htext | ⟨hpadded, parts, rfl, rfl⟩
  · exact htext
  · cases e with
    | base64 => exact Base64.flatMap_encodeChars hpad
    | base64Url =>
        have hmap : parts.flatMap base64Url.encode =
            (parts.flatMap Base64.encodeChars).map Base64.urlChar := by
          rw [List.map_flatMap]
          rfl
        rw [hmap] at hpad ⊢
        rw [Base64.flatMap_encodeChars (Base64.padLast_map_urlChar.mp hpad)]
        rfl
    | _ => cases hpadded

/-- So what is written in some encoding stands in another for what would be written there. -/
theorem Spells.encode_eq {e e' : Encoding} {bs bs' : Bytes} (h : e'.Spells (e.encode bs) bs') :
    e.encode bs = e'.encode bs' :=
  h.eq_encode (padLast_encode e bs)

/-! ### Texts of another encoding -/

theorem read_hexUpper (bs : Bytes) : hexLower.read (hexUpper.encode bs) = some bs :=
  Hex.decodeChars_encodeChars Hex.upper_reads bs

theorem read_base64 (bs : Bytes) : base64Url.read (base64.encode bs) = some bs := by
  rw [encode, read, Base64.map_stdChar (Base64.encodeChars_mem bs)]
  exact Base64.decodeChars_encodeChars bs

theorem read_base64NoPad (bs : Bytes) : base64UrlNoPad.read (base64NoPad.encode bs) = some bs := by
  rw [encode, read, Base64.map_stdChar Base64.unpadded_mem, Base64.repad_unpadded]
  exact Base64.decodeChars_encodeChars bs

/-- A text that the reader of `e'` takes for `bs` is its text of no other bytes. -/
theorem eq_of_read {e e' : Encoding} {bs bs' : Bytes} (hread : e'.read (e.encode bs) = some bs)
    (h : e.encode bs = e'.encode bs') : bs' = bs := by
  rw [h, read_encode] at hread
  exact Option.some.inj hread

/-! ### Which texts are texts of both kinds -/

/-- The encodings in base 16. -/
def isHex : Encoding → Bool
  | hexLower => true
  | hexUpper => true
  | _ => false

/-- Up to padding and the two special characters, the texts of base 64 are one. -/
theorem content_encode {e : Encoding} (he : e.isHex = false) (bs : Bytes) :
    Base64.unpadded ((e.encode bs).map Base64.stdChar) =
      Base64.unpadded (Base64.encodeChars bs) := by
  have hagain : ∀ text, Base64.unpadded (Base64.unpadded text) = Base64.unpadded text := by
    intro text
    unfold Base64.unpadded
    rw [List.filter_filter]
    simp only [Bool.and_self]
  cases e with
  | hexLower => cases he
  | hexUpper => cases he
  | base64Url => rw [encode, Base64.map_stdChar_urlChar (Base64.encodeChars_mem bs)]
  | base64UrlNoPad => rw [encode, Base64.map_stdChar_urlChar Base64.unpadded_mem, hagain]
  | base64 => rw [encode, Base64.map_stdChar (Base64.encodeChars_mem bs)]
  | base64NoPad => rw [encode, Base64.map_stdChar Base64.unpadded_mem, hagain]

/-- So a text of base 64 stands for the same bytes in all four encodings that have it. -/
theorem eq_of_base64 {e e' : Encoding} (he : e.isHex = false) (he' : e'.isHex = false)
    {bs bs' : Bytes} (h : e.encode bs = e'.encode bs') : bs' = bs := by
  have hcontent : Base64.unpadded (Base64.encodeChars bs) =
      Base64.unpadded (Base64.encodeChars bs') := by
    rw [← content_encode he, ← content_encode he', h]
  have hread : some bs = some bs' := by
    rw [← Base64.decodeChars_encodeChars bs, ← Base64.decodeChars_encodeChars bs',
      ← Base64.repad_unpadded bs, ← Base64.repad_unpadded bs', hcontent]
  exact (Option.some.inj hread).symm

theorem eq_of_hex {e e' : Encoding} (he : e.isHex = true) (he' : e'.isHex = true)
    {bs bs' : Bytes} (h : e.encode bs = e'.encode bs') : bs' = bs := by
  have hread : ∀ {e : Encoding} (bs : Bytes), e.isHex = true →
      Hex.decodeChars (e.encode bs) = some bs := by
    intro e bs he
    cases e with
    | hexLower => exact Hex.decodeChars_encodeChars Hex.lower_reads bs
    | hexUpper => exact Hex.decodeChars_encodeChars Hex.upper_reads bs
    | _ => cases he
  have hboth := hread bs he
  rw [h, hread bs' he'] at hboth
  exact Option.some.inj hboth

/-- An even number of digits, all of one case. -/
def HexText (text : List Char) : Prop :=
  2 ∣ text.length ∧ ((∀ c ∈ text, c ∈ Hex.lower) ∨ ∀ c ∈ text, c ∈ Hex.upper)

instance (text : List Char) : Decidable (HexText text) :=
  have : Decidable (∀ c ∈ text, c ∈ Hex.lower) := List.decidableBAll _ _
  have : Decidable (∀ c ∈ text, c ∈ Hex.upper) := List.decidableBAll _ _
  inferInstanceAs (Decidable (_ ∧ (_ ∨ _)))

theorem getD_of_lt {digits : List Char} {i : Nat} (hi : i < digits.length) :
    digits.getD i '?' = digits[i] := by
  rw [List.getD_eq_getElem?_getD, List.getElem?_eq_getElem hi, Option.getD_some]

theorem lower_length : Hex.lower.length = 16 := by decide

theorem upper_length : Hex.upper.length = 16 := by decide

/-- Digits in pairs are the text of some bytes. -/
theorem exists_encodeChars {digits : List Char} (hlen : digits.length = 16) :
    ∀ text : List Char, 2 ∣ text.length → (∀ c ∈ text, c ∈ digits) →
      ∃ bs, text = Hex.encodeChars digits bs
  | [], _, _ => ⟨[], rfl⟩
  | [_], heven, _ => absurd heven (show ¬ 2 ∣ 1 by decide)
  | c :: d :: text, heven, hmem => by
      obtain ⟨bs, rfl⟩ := exists_encodeChars hlen text
        ((Nat.dvd_add_left (Nat.dvd_refl 2)).mp heven)
        fun x hx => hmem x (List.mem_cons_of_mem _ (List.mem_cons_of_mem _ hx))
      obtain ⟨i, hi, rfl⟩ := List.getElem_of_mem (hmem c List.mem_cons_self)
      obtain ⟨j, hj, rfl⟩ := List.getElem_of_mem
        (hmem d (List.mem_cons_of_mem _ List.mem_cons_self))
      have hbyte : (UInt8.ofNat (i * 16 + j)).toNat = i * 16 + j :=
        UInt8.toNat_ofNat_of_lt' (by rw [UInt8.size]; omega)
      refine ⟨UInt8.ofNat (i * 16 + j) :: bs, ?_⟩
      unfold Hex.encodeChars
      rw [List.flatMap_cons, hbyte, show (i * 16 + j) / 16 = i by omega,
        show (i * 16 + j) % 16 = j by omega, getD_of_lt hi, getD_of_lt hj]
      rfl

theorem mem_of_mem_encodeChars {digits : List Char} (hlen : digits.length = 16) {bs : Bytes}
    {c : Char} (hc : c ∈ Hex.encodeChars digits bs) : c ∈ digits := by
  obtain ⟨b, -, hpair⟩ := List.mem_flatMap.mp hc
  have hb := b.toNat_lt
  rcases List.mem_pair.mp hpair with rfl | rfl
  · rw [getD_of_lt (show b.toNat / 16 < digits.length by omega)]
    exact List.getElem_mem _
  · rw [getD_of_lt (show b.toNat % 16 < digits.length by omega)]
    exact List.getElem_mem _

/-- The hex texts are the texts of the two encodings in base 16. -/
theorem hexText_iff {text : List Char} :
    HexText text ↔ ∃ e bs, e.isHex = true ∧ text = encode e bs := by
  constructor
  · rintro ⟨heven, hlower | hupper⟩
    · obtain ⟨bs, htext⟩ := exists_encodeChars lower_length text heven hlower
      exact ⟨hexLower, bs, rfl, htext⟩
    · obtain ⟨bs, htext⟩ := exists_encodeChars upper_length text heven hupper
      exact ⟨hexUpper, bs, rfl, htext⟩
  · rintro ⟨e, bs, he, rfl⟩
    cases e with
    | hexLower =>
        exact ⟨⟨bs.length, Hex.encodeChars_length _ bs⟩,
          .inl fun c hc => mem_of_mem_encodeChars lower_length hc⟩
    | hexUpper =>
        exact ⟨⟨bs.length, Hex.encodeChars_length _ bs⟩,
          .inr fun c hc => mem_of_mem_encodeChars upper_length hc⟩
    | _ => cases he

theorem urlChar_ne {c d : Char} (hdash : c ≠ '-') (hline : c ≠ '_') (h : d ≠ c) :
    Base64.urlChar d ≠ c := by
  unfold Base64.urlChar
  split
  · exact hdash.symm
  · split
    · exact hline.symm
    · exact h

/-- The characters of the six alphabets. -/
def alphabets : List Char :=
  Hex.lower ++ Hex.upper ++ ('=' :: Base64.alphabet) ++ ['-', '_']

/-- A character that is in no alphabet is in no text. -/
theorem not_mem_encode {c : Char} (h : c ∉ alphabets) (e : Encoding) (bs : Bytes) :
    c ∉ e.encode bs := by
  simp only [alphabets, List.mem_append, not_or] at h
  obtain ⟨⟨⟨hlower, hupper⟩, hstd⟩, hurl⟩ := h
  have hbase : ∀ d ∈ Base64.encodeChars bs, d ≠ c := by
    rintro d hd rfl
    exact hstd (Base64.encodeChars_mem bs _ hd)
  have hurl : ∀ d ∈ Base64.encodeChars bs, Base64.urlChar d ≠ c := by
    intro d hd
    refine urlChar_ne ?_ ?_ (hbase d hd)
    · rintro rfl
      exact hurl List.mem_cons_self
    · rintro rfl
      exact hurl (List.mem_cons_of_mem _ List.mem_cons_self)
  intro h
  cases e with
  | hexLower => exact hlower (mem_of_mem_encodeChars lower_length h)
  | hexUpper => exact hupper (mem_of_mem_encodeChars upper_length h)
  | base64Url =>
      obtain ⟨d, hd, heq⟩ := List.mem_map.mp h
      exact hurl d hd heq
  | base64UrlNoPad =>
      obtain ⟨d, hd, heq⟩ := List.mem_map.mp h
      exact hurl d (List.mem_of_mem_filter hd) heq
  | base64 => exact hbase _ h rfl
  | base64NoPad => exact hbase _ (List.mem_of_mem_filter h) rfl

theorem Spells.not_mem {c : Char} (h : c ∉ alphabets) {e : Encoding} {text : List Char}
    {bs : Bytes} (hspells : e.Spells text bs) : c ∉ text := by
  rcases hspells with rfl | ⟨-, parts, rfl, -⟩
  · exact not_mem_encode h e bs
  · intro hmem
    obtain ⟨part, -, hc⟩ := List.mem_flatMap.mp hmem
    exact not_mem_encode h e part hc

end Encoding

end Roughenough.Base
