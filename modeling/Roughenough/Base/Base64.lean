/-
# `Roughenough.Base.Base64` — the base64 alphabet with padding

Three bytes are four characters, and one or two bytes at the end are padded
with `=`.  The decoder takes the canonical spelling only: padding at the end,
and the bits that padding cuts off zero.

    decode (encode bs) = some bs           `decode_encode`

Nothing in this module is about Roughtime.
-/
import Mathlib.Data.List.Basic
import Roughenough.Base.Words

namespace Roughenough.Base.Base64

def alphabet : List Char :=
  "ABCDEFGHIJKLMNOPQRSTUVWXYZabcdefghijklmnopqrstuvwxyz0123456789+/".toList

/-- The character of a number below 64. -/
def charOf (n : Nat) : Char := alphabet.getD n '='

def valueOf (c : Char) : Option Nat :=
  if c ∈ alphabet then some (alphabet.idxOf c) else none

theorem valueOf_charOf {n : Nat} (h : n < 64) : valueOf (charOf n) = some n := by
  have hall : ∀ k : Fin 64, valueOf (charOf k) = some k.val := by decide +kernel
  exact hall ⟨n, h⟩

theorem charOf_ne_pad {n : Nat} (h : n < 64) : charOf n ≠ '=' := by
  have hall : ∀ k : Fin 64, charOf k ≠ '=' := by decide +kernel
  exact hall ⟨n, h⟩

def encodeChars : Bytes → List Char
  | [] => []
  | [a] => [charOf (a.toNat / 4), charOf (a.toNat % 4 * 16), '=', '=']
  | [a, b] =>
      [charOf (a.toNat / 4), charOf (a.toNat % 4 * 16 + b.toNat / 16),
        charOf (b.toNat % 16 * 4), '=']
  | a :: b :: c :: bs =>
      charOf (a.toNat / 4) :: charOf (a.toNat % 4 * 16 + b.toNat / 16) ::
        charOf (b.toNat % 16 * 4 + c.toNat / 64) :: charOf (c.toNat % 64) :: encodeChars bs

/-- The bytes of two, three or four characters. -/
def one (w x : Nat) : Option Bytes :=
  if x % 16 = 0 then some [UInt8.ofNat (w * 4 + x / 16)] else none

def two (w x y : Nat) : Option Bytes :=
  if y % 4 = 0 then some [UInt8.ofNat (w * 4 + x / 16), UInt8.ofNat (x % 16 * 16 + y / 4)]
  else none

def three (w x y z : Nat) : Bytes :=
  [UInt8.ofNat (w * 4 + x / 16), UInt8.ofNat (x % 16 * 16 + y / 4), UInt8.ofNat (y % 4 * 64 + z)]

def decodeChars : List Char → Option Bytes
  | [] => some []
  | w :: x :: y :: z :: cs => do
      let w ← valueOf w
      let x ← valueOf x
      if z = '=' ∧ cs = [] then
        if y = '=' then one w x else two w x (← valueOf y)
      else do
        let y ← valueOf y
        let z ← valueOf z
        let bs ← decodeChars cs
        pure (three w x y z ++ bs)
  | _ => none

theorem decodeChars_encodeChars : ∀ bs : Bytes, decodeChars (encodeChars bs) = some bs
  | [] => rfl
  | [a] => by
      have ha := a.toNat_lt
      have hbits : a.toNat % 4 * 16 % 16 = 0 := by omega
      have hval : a.toNat / 4 * 4 + a.toNat % 4 * 16 / 16 = a.toNat := by omega
      simp only [encodeChars, decodeChars, one, valueOf_charOf (show a.toNat / 4 < 64 by omega),
        valueOf_charOf (show a.toNat % 4 * 16 < 64 by omega), Option.bind_eq_bind,
        Option.bind_some, and_self, if_true, hbits, hval, UInt8.ofNat_toNat]
  | [a, b] => by
      have ha := a.toNat_lt
      have hb := b.toNat_lt
      have hbits : b.toNat % 16 * 4 % 4 = 0 := by omega
      have hval : a.toNat / 4 * 4 + (a.toNat % 4 * 16 + b.toNat / 16) / 16 = a.toNat := by omega
      have hval' : (a.toNat % 4 * 16 + b.toNat / 16) % 16 * 16 + b.toNat % 16 * 4 / 4 =
          b.toNat := by omega
      simp only [encodeChars, decodeChars, two, valueOf_charOf (show a.toNat / 4 < 64 by omega),
        valueOf_charOf (show a.toNat % 4 * 16 + b.toNat / 16 < 64 by omega),
        valueOf_charOf (show b.toNat % 16 * 4 < 64 by omega),
        charOf_ne_pad (show b.toNat % 16 * 4 < 64 by omega), Option.bind_eq_bind,
        Option.bind_some, and_self, if_true, if_false, hbits, hval, hval', UInt8.ofNat_toNat]
  | a :: b :: c :: bs => by
      have ha := a.toNat_lt
      have hb := b.toNat_lt
      have hc := c.toNat_lt
      have hval : a.toNat / 4 * 4 + (a.toNat % 4 * 16 + b.toNat / 16) / 16 = a.toNat := by omega
      have hval' : (a.toNat % 4 * 16 + b.toNat / 16) % 16 * 16 +
          (b.toNat % 16 * 4 + c.toNat / 64) / 4 = b.toNat := by omega
      have hval'' : (b.toNat % 16 * 4 + c.toNat / 64) % 4 * 64 + c.toNat % 64 = c.toNat := by
        omega
      simp only [encodeChars, decodeChars, three, valueOf_charOf (show a.toNat / 4 < 64 by omega),
        valueOf_charOf (show a.toNat % 4 * 16 + b.toNat / 16 < 64 by omega),
        valueOf_charOf (show b.toNat % 16 * 4 + c.toNat / 64 < 64 by omega),
        valueOf_charOf (show c.toNat % 64 < 64 by omega),
        charOf_ne_pad (show c.toNat % 64 < 64 by omega), Option.bind_eq_bind, Option.bind_some,
        false_and, if_false, hval, hval', hval'', UInt8.ofNat_toNat,
        decodeChars_encodeChars bs]
      rfl

def encode (bs : Bytes) : String := String.ofList (encodeChars bs)

def decode (text : String) : Option Bytes := decodeChars text.toList

theorem decode_encode (bs : Bytes) : decode (encode bs) = some bs := by
  unfold decode encode
  rw [String.toList_ofList]
  exact decodeChars_encodeChars bs

example : encode [77, 97, 110, 33] = "TWFuIQ==" := by decide +kernel

end Roughenough.Base.Base64
