/-
# `Roughenough.Base.Text` — the `str` operations the sources call

Texts are lists of characters here, so that what an operation cuts off and
what it keeps are one equation between lists.

    from_utf8_lossy       one U+FFFD for each maximal broken sequence
    trim_end_matches      drops a character from the end while it is there
    split                 `List.splitOn`: at every separator
    splitn(2, ..)         at the first separator
    strip_prefix          what follows a prefix
    parse                 an optional `+`, then decimal digits up to a maximum

Nothing in this module is about Roughtime.
-/
import Mathlib.Data.List.Basic
import Roughenough.Base.Words

namespace Roughenough.Base.Text

/-! ## UTF-8 -/

/-- How many bytes the first byte of a sequence announces, 0 for one that starts none. -/
def charWidth (first : UInt8) : Nat :=
  if first.toNat < 0x80 then 1
  else if first.toNat < 0xC2 then 0
  else if first.toNat < 0xE0 then 2
  else if first.toNat < 0xF0 then 3
  else if first.toNat < 0xF5 then 4
  else 0

def isContinuation (b : UInt8) : Bool := 0x80 ≤ b.toNat && b.toNat < 0xC0

/-- The second byte also rules out overlong forms, surrogates and what is past U+10FFFF. -/
def secondAllowed (first second : UInt8) : Bool :=
  isContinuation second &&
    (if first = 0xE0 then 0xA0 ≤ second.toNat
     else if first = 0xED then second.toNat < 0xA0
     else if first = 0xF0 then 0x90 ≤ second.toNat
     else if first = 0xF4 then second.toNat < 0x90
     else true)

/-- How many of the next `k` bytes continue the sequence, the first of them under `allowed`. -/
def continuing (allowed : UInt8 → Bool) : (k : Nat) → Bytes → Nat
  | k + 1, b :: bs => if allowed b then 1 + continuing isContinuation k bs else 0
  | _, _ => 0

/-- The character of a sequence: the low bits of the first byte, then six of each other. -/
def charOfSequence (first : UInt8) (later : Bytes) : Char :=
  let lead := match later.length with
    | 0 => first.toNat
    | 1 => first.toNat % 0x20
    | 2 => first.toNat % 0x10
    | _ => first.toNat % 0x08
  Char.ofNat (later.foldl (fun code b => code * 0x40 + b.toNat % 0x40) lead)

/-- The loop of `from_utf8_lossy`: a sequence that breaks off is one replacement character,
and reading goes on at the byte that broke it. -/
def lossyFrom : (fuel : Nat) → Bytes → List Char
  | fuel + 1, first :: bs =>
      let width := charWidth first
      let good := continuing (secondAllowed first) (width - 1) bs
      let char := if width = good + 1 then charOfSequence first (bs.take good) else '\uFFFD'
      char :: lossyFrom fuel (bs.drop good)
  | _, _ => []

/-- `String::from_utf8_lossy`. -/
def fromUtf8Lossy (bs : Bytes) : List Char := lossyFrom bs.length bs

example : fromUtf8Lossy [0x50, 0xE2, 0x82, 0xAC, 0xE2, 0x82, 0x41, 0xFF] =
    ['P', '€', '\uFFFD', 'A', '\uFFFD'] := by decide

/-- `trim_end_matches(c)`. -/
def trimEndMatches (c : Char) (text : List Char) : List Char :=
  (text.reverse.dropWhile (· = c)).reverse

/-! ## Splitting -/

/-- `splitn(2, sep)`: one piece, or what is before and behind the first separator. -/
def splitn2 (sep : Char) : List Char → List (List Char)
  | [] => [[]]
  | c :: cs => if c = sep then [[], cs] else (splitn2 sep cs).modifyHead (c :: ·)

theorem splitn2_of_not_mem {sep : Char} {text : List Char} (h : sep ∉ text) :
    splitn2 sep text = [text] := by
  induction text with
  | nil => rfl
  | cons c cs ih =>
      have hc : c ≠ sep := fun heq => h (heq ▸ List.mem_cons_self)
      rw [splitn2, if_neg hc, ih fun hmem => h (List.mem_cons_of_mem c hmem)]
      rfl

theorem splitn2_append {sep : Char} {front : List Char} (h : sep ∉ front) (back : List Char) :
    splitn2 sep (front ++ sep :: back) = [front, back] := by
  induction front with
  | nil => exact if_pos rfl
  | cons c cs ih =>
      have hc : c ≠ sep := fun heq => h (heq ▸ List.mem_cons_self)
      rw [List.cons_append, splitn2, if_neg hc, ih fun hmem => h (List.mem_cons_of_mem c hmem)]
      rfl

/-- `strip_prefix`. -/
def stripPrefix (pre text : List Char) : Option (List Char) :=
  if pre <+: text then some (text.drop pre.length) else none

/-- `to_ascii_lowercase`. -/
def toAsciiLowercase (text : List Char) : List Char := text.map Char.toLower

theorem stripPrefix_append (pre text : List Char) :
    stripPrefix pre (pre ++ text) = some text := by
  unfold stripPrefix
  rw [if_pos (List.prefix_append pre text), List.drop_left]

/-! ## Bytes of a text -/

/-- `as_bytes`. -/
def utf8 (text : List Char) : Bytes := text.flatMap String.utf8EncodeChar

/-- `String::from_utf8`. -/
def fromUtf8 (bs : Bytes) : Option (List Char) := bs.toByteArray.utf8Decode?.map Array.toList

theorem fromUtf8_utf8 (text : List Char) : fromUtf8 (utf8 text) = some text := by
  have hdecode : text.utf8Encode.utf8Decode? = some text.toArray := List.utf8Decode?_utf8Encode
  unfold fromUtf8 utf8
  rw [show (text.flatMap String.utf8EncodeChar).toByteArray.utf8Decode? = some text.toArray from
    hdecode]
  rfl

theorem utf8_append (front back : List Char) : utf8 (front ++ back) = utf8 front ++ utf8 back :=
  List.flatMap_append

/-! ## Numbers -/

/-- The digits of an unsigned number that may not pass `max`. -/
def parseDigits (max : Nat) : (acc : Nat) → List Char → Option Nat
  | acc, [] => some acc
  | acc, c :: cs =>
      if c.isDigit ∧ 10 * acc + (c.toNat - '0'.toNat) ≤ max then
        parseDigits max (10 * acc + (c.toNat - '0'.toNat)) cs
      else none

/-- `parse` of an unsigned type.  A `-` is no digit, and a lone sign is no number. -/
def parseUnsigned (max : Nat) : List Char → Option Nat
  | [] => none
  | '+' :: digits => if digits = [] then none else parseDigits max 0 digits
  | digits => parseDigits max 0 digits

theorem isDigit_of_parseDigits {max acc n : Nat} {cs : List Char}
    (h : parseDigits max acc cs = some n) : ∀ c ∈ cs, c.isDigit := by
  induction cs generalizing acc with
  | nil => exact fun c hc => absurd hc List.not_mem_nil
  | cons c cs ih =>
      rw [parseDigits] at h
      by_cases hc : c.isDigit ∧ 10 * acc + (c.toNat - '0'.toNat) ≤ max
      · rw [if_pos hc] at h
        intro d hd
        rcases List.mem_cons.mp hd with rfl | hd
        · exact hc.1
        · exact ih h d hd
      · rw [if_neg hc] at h
        cases h

/-- What is parsed is made of digits and a sign. -/
theorem not_mem_of_parseUnsigned {max n : Nat} {text : List Char} {c : Char}
    (h : parseUnsigned max text = some n) (hdigit : c.isDigit = false) (hsign : c ≠ '+') :
    c ∉ text := by
  intro hc
  have hall : ∀ {digits acc}, parseDigits max acc digits = some n → c ∉ digits := by
    intro digits acc hparse hmem
    have := isDigit_of_parseDigits hparse c hmem
    rw [hdigit] at this
    cases this
  unfold parseUnsigned at h
  split at h
  · cases h
  · next digits =>
      split at h
      · cases h
      · rcases List.mem_cons.mp hc with heq | hmem
        · exact hsign heq
        · exact hall h hmem
  · exact hall h hc

/-- Later digits only add. -/
theorem le_ofDigitChars (cs : List Char) (acc : Nat) : acc ≤ Nat.ofDigitChars 10 cs acc := by
  induction cs generalizing acc with
  | nil => exact Nat.le_refl acc
  | cons c cs ih =>
      rw [Nat.ofDigitChars_cons]
      have := ih (10 * acc + (c.toNat - '0'.toNat))
      omega

theorem parseDigits_eq {max acc : Nat} {cs : List Char} (hdigits : ∀ c ∈ cs, c.isDigit)
    (hmax : Nat.ofDigitChars 10 cs acc ≤ max) :
    parseDigits max acc cs = some (Nat.ofDigitChars 10 cs acc) := by
  induction cs generalizing acc with
  | nil => rfl
  | cons c cs ih =>
      rw [Nat.ofDigitChars_cons] at hmax ⊢
      have hle := le_ofDigitChars cs (10 * acc + (c.toNat - '0'.toNat))
      rw [parseDigits, if_pos ⟨hdigits c List.mem_cons_self, Nat.le_trans hle hmax⟩]
      exact ih (fun d hd => hdigits d (List.mem_cons_of_mem c hd)) hmax

/-- A number up to the maximum is read back from its decimal digits. -/
theorem parseUnsigned_toDigits {max n : Nat} (h : n ≤ max) :
    parseUnsigned max (Nat.toDigits 10 n) = some n := by
  have hdigits : ∀ c ∈ Nat.toDigits 10 n, c.isDigit :=
    fun c hc => Nat.isDigit_of_mem_toDigits (by decide) (by decide) hc
  have hparse : parseDigits max 0 (Nat.toDigits 10 n) = some n := by
    rw [parseDigits_eq hdigits (by rwa [Nat.ofDigitChars_ten_toDigits]),
      Nat.ofDigitChars_ten_toDigits]
  unfold parseUnsigned
  split
  · next hnil => exact absurd hnil Nat.toDigits_ne_nil
  · next digits hplus =>
      have := hdigits '+' (by rw [hplus]; exact List.mem_cons_self)
      exact absurd this (by decide)
  · exact hparse

end Roughenough.Base.Text
