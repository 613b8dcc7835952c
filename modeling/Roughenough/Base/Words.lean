/-
# `Roughenough.Base.Words` — bytes, slices and fixed-width words

A byte string is a list of bytes.  A word of `w` bytes is written
least-significant byte first by `toLe w` and read back by `ofLe`; the
big-endian forms are their reversals.  The two directions are

    ofLe (toLe w n) = n % 256 ^ w          `ofLe_toLe`
    toLe bs.length (ofLe bs) = bs          `toLe_ofLe`

and the second is the one that carries re-encoding arguments: a byte string
is determined by the number it denotes and its length.

`slice bs a b` is `bs[a..b]`.  It never fails; `sliceOrPanic` is the Rust
expression, which panics on bounds out of order or out of range.
-/
import Mathlib.Algebra.Order.Ring.Nat
import Mathlib.Data.List.Basic
import Roughenough.Base.Outcome

namespace Roughenough.Base

abbrev Bytes := List UInt8

/-! ## Slices -/

section Slice

variable {α : Type}

/-- The elements at positions `a` up to `b`. -/
def slice (l : List α) (a b : Nat) : List α := (l.drop a).take (b - a)

theorem slice_length {l : List α} {a b : Nat} (h : b ≤ l.length) :
    (slice l a b).length = b - a := by
  simp only [slice, List.length_take, List.length_drop]
  omega

/-- Skipping a prefix shifts both bounds. -/
theorem slice_append_right {p l : List α} {a b n : Nat} (hn : p.length = n) :
    slice (p ++ l) (n + a) (n + b) = slice l a b := by
  unfold slice
  subst hn
  rw [Nat.add_sub_add_left, ← List.drop_drop, List.drop_left]

/-- The piece in the middle of a concatenation. -/
theorem slice_middle {p m q : List α} {a b : Nat} (ha : p.length = a)
    (hb : a + m.length = b) : slice (p ++ (m ++ q)) a b = m := by
  subst ha hb
  simp [slice]

/-- What starts at `a` is the slice up to `b` and what starts at `b`. -/
theorem drop_eq_slice_append (l : List α) {a b : Nat} (h : a ≤ b) :
    l.drop a = slice l a b ++ l.drop b := by
  have hb : b = a + (b - a) := by omega
  unfold slice
  rw [hb, ← List.drop_drop, ← hb, List.take_append_drop]

/-- Cutting behind the slice does not change it. -/
theorem slice_take (l : List α) {a b n : Nat} (h : b ≤ n) :
    slice (l.take n) a b = slice l a b := by
  have hmin : min (b - a) (n - a) = b - a := by omega
  unfold slice
  rw [List.drop_take, List.take_take, hmin]

theorem slice_zero_take (l : List α) (n : Nat) : slice l 0 n = l.take n := by
  simp [slice]

/-- Piece `i` of a concatenation of pieces of `k` elements each. -/
theorem slice_flatMap {β : Type} {f : β → List α} {k : Nat} (hf : ∀ b, (f b).length = k)
    (l : List β) (q : List α) (i : Nat) (hi : i < l.length) :
    slice (l.flatMap f ++ q) (k * i) (k * i + k) = f l[i] := by
  induction l generalizing i with
  | nil => exact absurd hi (Nat.not_lt_zero i)
  | cons b l ih =>
      rw [List.flatMap_cons, List.append_assoc]
      cases i with
      | zero => exact slice_middle (p := []) rfl (by rw [hf, Nat.mul_zero])
      | succ i =>
          have hpos : k * (i + 1) = k + k * i := by rw [Nat.mul_succ, Nat.add_comm]
          rw [hpos, Nat.add_assoc, slice_append_right (hf b), ih i (Nat.lt_of_succ_lt_succ hi)]
          rfl

/-- `l[a..b]`, checked. -/
def sliceOrPanic {ε : Type} (l : List α) (a b : Nat) : Outcome ε (List α) :=
  if a ≤ b ∧ b ≤ l.length then .ok (slice l a b) else .panic

@[simp] theorem sliceOrPanic_ok_iff {ε : Type} {l m : List α} {a b : Nat} :
    (sliceOrPanic l a b : Outcome ε (List α)) = .ok m ↔
      (a ≤ b ∧ b ≤ l.length) ∧ slice l a b = m := by
  unfold sliceOrPanic
  by_cases h : a ≤ b ∧ b ≤ l.length
  · rw [if_pos h, Outcome.ok.injEq]
    exact ⟨fun hm => ⟨h, hm⟩, fun hm => hm.2⟩
  · rw [if_neg h]
    exact ⟨fun hm => (nomatch hm), fun hm => absurd hm.1 h⟩

theorem sliceOrPanic_ne_panic {ε : Type} {l : List α} {a b : Nat} (hab : a ≤ b)
    (hb : b ≤ l.length) : (sliceOrPanic l a b : Outcome ε (List α)) ≠ .panic := by
  unfold sliceOrPanic
  rw [if_pos ⟨hab, hb⟩]
  exact fun h => nomatch h

end Slice

/-! ## Byte arrays of a fixed length -/

/-- `[u8; n]`: the length is part of the value, so no decoder can build a short one. -/
structure Octets (n : Nat) where
  bytes : Bytes
  size_eq : bytes.length = n
  deriving DecidableEq

namespace Octets

variable {n : Nat}

@[ext] theorem ext {x y : Octets n} (h : x.bytes = y.bytes) : x = y := by
  obtain ⟨bs, hbs⟩ := x
  obtain ⟨cs, hcs⟩ := y
  cases h
  rfl

@[simp] theorem bytes_length (x : Octets n) : x.bytes.length = n := x.size_eq

/-- `[b; n]`. -/
def fill (n : Nat) (b : UInt8) : Octets n := ⟨List.replicate n b, List.length_replicate⟩

/-- `[0; n]`. -/
def zero (n : Nat) : Octets n := fill n 0

instance : Inhabited (Octets n) := ⟨zero n⟩

end Octets

/-- `slice.try_into()`, for an array of `n` bytes. -/
def tryInto (n : Nat) (bs : Bytes) : Outcome Unit (Octets n) :=
  if h : bs.length = n then .ok ⟨bs, h⟩ else .err ()

/-- `std::net::SocketAddr`. -/
inductive SocketAddr where
  | v4 (ip : Octets 4) (port : UInt16)
  | v6 (ip : Octets 16) (port : UInt16) (flowinfo scopeId : UInt32)
  deriving DecidableEq

def Octets.localhost : Octets 4 := ⟨[127, 0, 0, 1], rfl⟩

/-- `std::time::Duration`. -/
structure Duration where
  secs : UInt64
  nanos : UInt32
  bounded : nanos.toNat < 1000000000
  deriving DecidableEq

def Duration.fromSecs (secs : UInt64) : Duration := ⟨secs, 0, by decide⟩

def Duration.isZero (d : Duration) : Bool := d.secs == 0 && d.nanos == 0

/-! ## Little-endian words -/

/-- The low `w` bytes of `n`, least significant first. -/
def toLe : Nat → Nat → Bytes
  | 0, _ => []
  | w + 1, n => UInt8.ofNat n :: toLe w (n / 256)

/-- The number a byte string denotes, least significant byte first. -/
def ofLe : Bytes → Nat
  | [] => 0
  | b :: bs => b.toNat + 256 * ofLe bs

@[simp] theorem toLe_length (w n : Nat) : (toLe w n).length = w := by
  induction w generalizing n with
  | zero => rfl
  | succ w ih => simp [toLe, ih]

theorem ofLe_lt (bs : Bytes) : ofLe bs < 256 ^ bs.length := by
  induction bs with
  | nil => simp [ofLe]
  | cons b bs ih =>
      have hb : b.toNat < 256 := b.toNat_lt
      simp only [ofLe, List.length_cons, Nat.pow_succ]
      omega

theorem ofLe_toLe (w n : Nat) : ofLe (toLe w n) = n % 256 ^ w := by
  induction w generalizing n with
  | zero => simp [toLe, ofLe, Nat.mod_one]
  | succ w ih =>
      have hb : (UInt8.ofNat n).toNat = n % 256 := by simp
      rw [toLe, ofLe, ih, hb, Nat.pow_succ, Nat.mul_comm (256 ^ w) 256, Nat.mod_mul]

theorem toLe_ofLe (bs : Bytes) : toLe bs.length (ofLe bs) = bs := by
  induction bs with
  | nil => rfl
  | cons b bs ih =>
      have hb : b.toNat < 256 := b.toNat_lt
      have hdiv : (b.toNat + 256 * ofLe bs) / 256 = ofLe bs := by omega
      have hhead : UInt8.ofNat (b.toNat + 256 * ofLe bs) = b := by
        apply UInt8.toNat_inj.mp
        simp only [UInt8.toNat_ofNat']
        omega
      simp only [List.length_cons, toLe, ofLe]
      rw [hdiv, hhead, ih]

/-- The same, with the width named. -/
theorem toLe_of_length {bs : Bytes} {w : Nat} (h : bs.length = w) : toLe w (ofLe bs) = bs := by
  subst h
  exact toLe_ofLe bs

/-! ## Big-endian words -/

def toBe (w n : Nat) : Bytes := (toLe w n).reverse

def ofBe (bs : Bytes) : Nat := ofLe bs.reverse

@[simp] theorem toBe_length (w n : Nat) : (toBe w n).length = w := by simp [toBe]

theorem toBe_of_length {bs : Bytes} {w : Nat} (h : bs.length = w) : toBe w (ofBe bs) = bs := by
  unfold toBe ofBe
  rw [toLe_of_length (by simpa using h), List.reverse_reverse]

theorem ofBe_lt {bs : Bytes} {w : Nat} (h : bs.length = w) : ofBe bs < 256 ^ w := by
  have := ofLe_lt bs.reverse
  rwa [List.length_reverse, h] at this

theorem ofBe_toBe (w n : Nat) : ofBe (toBe w n) = n % 256 ^ w := by
  simp [ofBe, toBe, ofLe_toLe]

/-! ## Words of the machine's own widths -/

def leBytes32 (x : UInt32) : Bytes := toLe 4 x.toNat

def leBytes64 (x : UInt64) : Bytes := toLe 8 x.toNat

def ofLeBytes32 (bs : Bytes) : UInt32 := UInt32.ofNat (ofLe bs)

def ofLeBytes64 (bs : Bytes) : UInt64 := UInt64.ofNat (ofLe bs)

@[simp] theorem leBytes32_length (x : UInt32) : (leBytes32 x).length = 4 := by simp [leBytes32]

@[simp] theorem leBytes64_length (x : UInt64) : (leBytes64 x).length = 8 := by simp [leBytes64]

@[simp] theorem ofLeBytes32_leBytes32 (x : UInt32) : ofLeBytes32 (leBytes32 x) = x := by
  have hx : x.toNat < 256 ^ 4 := x.toNat_lt
  simp only [ofLeBytes32, leBytes32, ofLe_toLe, Nat.mod_eq_of_lt hx]
  exact UInt32.ofNat_toNat

@[simp] theorem ofLeBytes64_leBytes64 (x : UInt64) : ofLeBytes64 (leBytes64 x) = x := by
  have hx : x.toNat < 256 ^ 8 := x.toNat_lt
  simp only [ofLeBytes64, leBytes64, ofLe_toLe, Nat.mod_eq_of_lt hx]
  exact UInt64.ofNat_toNat

theorem leBytes32_ofLeBytes32 {bs : Bytes} (h : bs.length = 4) :
    leBytes32 (ofLeBytes32 bs) = bs := by
  have hlt : ofLe bs < 2 ^ 32 := by
    have := ofLe_lt bs
    rw [h] at this
    exact this
  simp only [leBytes32, ofLeBytes32, UInt32.toNat_ofNat_of_lt' hlt]
  exact toLe_of_length h

theorem leBytes64_ofLeBytes64 {bs : Bytes} (h : bs.length = 8) :
    leBytes64 (ofLeBytes64 bs) = bs := by
  have hlt : ofLe bs < 2 ^ 64 := by
    have := ofLe_lt bs
    rw [h] at this
    exact this
  simp only [leBytes64, ofLeBytes64, UInt64.toNat_ofNat_of_lt' hlt]
  exact toLe_of_length h

/-! ## Words inside a byte string -/

/-- The little-endian word at position `n`. -/
def wordAt (bs : Bytes) (n : Nat) : UInt32 := ofLeBytes32 (slice bs n (n + 4))

/-- The first `k` words. -/
def words : Nat → Bytes → List UInt32
  | 0, _ => []
  | k + 1, bs => ofLeBytes32 (bs.take 4) :: words k (bs.drop 4)

theorem wordAt_append_right {p bs : Bytes} {m n : Nat} (hm : p.length = m) :
    wordAt (p ++ bs) (m + n) = wordAt bs n := by
  unfold wordAt
  rw [Nat.add_assoc, slice_append_right hm]

theorem wordAt_take (bs : Bytes) {n m : Nat} (h : n + 4 ≤ m) :
    wordAt (bs.take m) n = wordAt bs n := by
  unfold wordAt
  rw [slice_take bs h]

theorem wordAt_zero (w : UInt32) (q : Bytes) : wordAt (leBytes32 w ++ q) 0 = w := by
  have hslice : slice ([] ++ (leBytes32 w ++ q)) 0 (0 + 4) = leBytes32 w :=
    slice_middle rfl (by rw [leBytes32_length])
  unfold wordAt
  rw [List.nil_append] at hslice
  rw [hslice, ofLeBytes32_leBytes32]

theorem wordAt_flatMap (ws : List UInt32) (q : Bytes) (i : Nat) (hi : i < ws.length) :
    wordAt (ws.flatMap leBytes32 ++ q) (4 * i) = ws.getD i 0 := by
  induction ws generalizing i with
  | nil => exact absurd hi (Nat.not_lt_zero i)
  | cons w ws ih =>
      rw [List.flatMap_cons, List.append_assoc]
      cases i with
      | zero => exact wordAt_zero w _
      | succ i =>
          have hpos : 4 * (i + 1) = 4 + 4 * i := by omega
          rw [hpos, wordAt_append_right (leBytes32_length w), ih i (Nat.lt_of_succ_lt_succ hi)]
          rfl

theorem words_flatMap (ws : List UInt32) (q : Bytes) :
    words ws.length (ws.flatMap leBytes32 ++ q) = ws := by
  induction ws with
  | nil => rfl
  | cons w ws ih =>
      rw [List.flatMap_cons, List.append_assoc, List.length_cons, words,
        List.take_left' (leBytes32_length w), List.drop_left' (leBytes32_length w),
        ofLeBytes32_leBytes32, ih]

theorem flatMap_words (k : Nat) (bs : Bytes) (h : 4 * k ≤ bs.length) :
    (words k bs).flatMap leBytes32 = bs.take (4 * k) := by
  induction k generalizing bs with
  | zero => simp [words]
  | succ k ih =>
      have hlen : (bs.take 4).length = 4 := by
        rw [List.length_take]
        omega
      have hsplit : bs.take (4 * (k + 1)) = bs.take 4 ++ (bs.drop 4).take (4 * k) := by
        rw [Nat.mul_succ, Nat.add_comm (4 * k) 4, List.take_add]
      rw [words, List.flatMap_cons, leBytes32_ofLeBytes32 hlen, hsplit,
        ih (bs.drop 4) (by rw [List.length_drop]; omega)]

/-- Only the bytes of the words matter. -/
theorem words_take (k m : Nat) (bs : Bytes) (h : 4 * k ≤ m) :
    words k (bs.take m) = words k bs := by
  induction k generalizing m bs with
  | zero => rfl
  | succ k ih =>
      have hmin : min 4 m = 4 := by omega
      rw [words, words, List.take_take, hmin, List.drop_take, ih (m - 4) (bs.drop 4) (by omega)]

/-- A stand-in for a hash in the sample runs: a polynomial in the bytes. -/
def digest (bs : Bytes) : Octets 32 :=
  ⟨toLe 32 (bs.foldl (fun n b => 257 * n + b.toNat + 1) 0), toLe_length _ _⟩

/-! ## Checked arithmetic

An operator of an unsigned type is checked in a debug build and wraps in a release build. -/

/-- `a - b` on `u64`. -/
def subU64 (debug : Bool) (a b : UInt64) : Call UInt64 := do
  Outcome.assert (debug = true → b ≤ a)
  pure (a - b)

/-- `a + b` on `u64`. -/
def addU64 (debug : Bool) (a b : UInt64) : Call UInt64 := do
  Outcome.assert (debug = true → a.toNat + b.toNat < 2 ^ 64)
  pure (a + b)

/-- `a + b` on `u8`. -/
def addU8 (debug : Bool) (a b : UInt8) : Call UInt8 := do
  Outcome.assert (debug = true → a.toNat + b.toNat < 2 ^ 8)
  pure (a + b)

/-- `a + b` on `u32`. -/
def addU32 (debug : Bool) (a b : UInt32) : Call UInt32 := do
  Outcome.assert (debug = true → a.toNat + b.toNat < 2 ^ 32)
  pure (a + b)

/-- `a * b` on `u64`. -/
def mulU64 (debug : Bool) (a b : UInt64) : Call UInt64 := do
  Outcome.assert (debug = true → a.toNat * b.toNat < 2 ^ 64)
  pure (a * b)

theorem subU64_ok_iff {debug : Bool} {a b c : UInt64} :
    subU64 debug a b = .ok c ↔ (debug = true → b.toNat ≤ a.toNat) ∧ a - b = c := by
  simp only [subU64, Outcome.bind_ok_iff, Outcome.assert_ok_iff, Outcome.pure_eq,
    Outcome.ok.injEq, exists_const, UInt64.le_iff_toNat_le]

theorem addU64_ok_iff {debug : Bool} {a b c : UInt64} :
    addU64 debug a b = .ok c ↔ (debug = true → a.toNat + b.toNat < 2 ^ 64) ∧ a + b = c := by
  simp only [addU64, Outcome.bind_ok_iff, Outcome.assert_ok_iff, Outcome.pure_eq,
    Outcome.ok.injEq, exists_const]

theorem addU32_ok_iff {debug : Bool} {a b c : UInt32} :
    addU32 debug a b = .ok c ↔ (debug = true → a.toNat + b.toNat < 2 ^ 32) ∧ a + b = c := by
  simp only [addU32, Outcome.bind_ok_iff, Outcome.assert_ok_iff, Outcome.pure_eq,
    Outcome.ok.injEq, exists_const]

theorem mulU64_ok_iff {debug : Bool} {a b c : UInt64} :
    mulU64 debug a b = .ok c ↔ (debug = true → a.toNat * b.toNat < 2 ^ 64) ∧ a * b = c := by
  simp only [mulU64, Outcome.bind_ok_iff, Outcome.assert_ok_iff, Outcome.pure_eq,
    Outcome.ok.injEq, exists_const]

/-- The sum is exact in both builds when it fits, and in neither otherwise. -/
theorem addU8_exact_iff {debug : Bool} {a b : UInt8} :
    (∃ c, addU8 debug a b = .ok c ∧ c.toNat = a.toNat + b.toNat) ↔ a.toNat + b.toNat < 2 ^ 8 := by
  simp only [addU8, Outcome.bind_ok_iff, Outcome.assert_ok_iff, Outcome.pure_eq,
    Outcome.ok.injEq, exists_const]
  constructor
  · rintro ⟨c, -, hc⟩
    rw [← hc]
    exact c.toNat_lt
  · intro h
    exact ⟨a + b, ⟨fun _ => h, rfl⟩, by rw [UInt8.toNat_add, Nat.mod_eq_of_lt h]⟩

end Roughenough.Base
