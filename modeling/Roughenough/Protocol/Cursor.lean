/-
# `Roughenough.Protocol.Cursor` — the parse cursor and the two directions of the wire

`cursor.rs` and `error.rs`.  A `ParseCursor` is a buffer and a position; every
`from_wire` and `to_wire` of the protocol crate is a `Wire` computation on
one.  The `get_*`/`put_*` methods index the buffer and panic past its end; the
`try_*` methods compare `remaining` first and answer `BufferTooSmall`.

Two relations carry all later proofs, so that no decoder or encoder is ever
unfolded by its callers:

    Consumes c bs c'    the next bytes under `c` are `bs`, and `c'` is behind them
    Writes p bs         given room, `p` writes exactly `bs` at the position

Both compose along `++`.
-/
import Roughenough.Base.Outcome
import Roughenough.Base.Words

namespace Roughenough.Protocol

open Roughenough.Base

/-- `Error` of `error.rs`, with the numbers each variant reports. -/
inductive Error where
  | badRequestSize (size : Nat)
  | bufferTooSmall (needed available : Nat)
  | invalidTag (value : Nat)
  | invalidVersion (value : Nat)
  | invalidMessageType (value : Nat)
  | mismatchedNumTags (expected actual : Nat)
  | invalidRequestNumTags (actual : Nat) (expected : String)
  | unexpectedMagic (value : Nat)
  | unexpectedFraming (length : Nat)
  | unexpectedTags
  | unorderedTag (index value : Nat)
  | unexpectedOffsets
  | unorderedOffset (index value : Nat)
  | unalignedOffset (index value : Nat)
  | outOfBoundsOffset (index value : Nat)
  | unorderedVersion (index value : Nat)
  | noSupportedVersions
  | invalidPathLength (length : Nat)
  | wrongTagSize (expected actual : Nat)
  deriving DecidableEq, Repr

structure ParseCursor where
  data : Bytes
  position : Nat
  deriving DecidableEq

/-- A computation on the cursor: every `from_wire` and every `to_wire`. -/
abbrev Wire (α : Type) : Type := Prog ParseCursor Error α

namespace ParseCursor

def new (data : Bytes) : ParseCursor := ⟨data, 0⟩

def remaining (c : ParseCursor) : Nat := c.data.length - c.position

def capacity (c : ParseCursor) : Nat := c.data.length

/-- The bytes from the position on: what `peek` shows. -/
def rest (c : ParseCursor) : Bytes := c.data.drop c.position

def skip (c : ParseCursor) (n : Nat) : ParseCursor := { c with position := c.position + n }

/-- The buffer with `bs` written at the position, and the position behind them. -/
def put (c : ParseCursor) (bs : Bytes) : ParseCursor where
  data := c.data.take c.position ++ (bs ++ c.data.drop (c.position + bs.length))
  position := c.position + bs.length

theorem rest_length (c : ParseCursor) : c.rest.length = c.remaining := by
  simp [rest, remaining]

@[simp] theorem rest_new (bs : Bytes) : (new bs).rest = bs := rfl

@[simp] theorem remaining_new (bs : Bytes) : (new bs).remaining = bs.length := rfl

theorem rest_skip (c : ParseCursor) (n : Nat) : (c.skip n).rest = c.rest.drop n := by
  simp [rest, skip]

/-! ## Reading -/

/-- `get_fixed::<N>`, and `copy_to_slice` into a slice of `n` bytes. -/
def getFixed (n : Nat) : Wire (Octets n) := fun c =>
  if h : c.position + n ≤ c.data.length then
    .ok (⟨slice c.data c.position (c.position + n), by rw [slice_length h]; omega⟩, c.skip n)
  else .panic

/-- `try_get_fixed::<N>`, and `try_copy_to_slice` into a slice of `n` bytes. -/
def tryGetFixed (n : Nat) : Wire (Octets n) := do
  let c ← Prog.read
  Prog.failIf (c.remaining < n) (.bufferTooSmall n c.remaining)
  getFixed n

def tryGetU32Le : Wire UInt32 := do
  let bytes ← tryGetFixed 4
  pure (ofLeBytes32 bytes.bytes)

/-- `try_get_u32`: big-endian. -/
def tryGetU32 : Wire Nat := do
  let bytes ← tryGetFixed 4
  pure (ofBe bytes.bytes)

def tryGetU64Le : Wire UInt64 := do
  let bytes ← tryGetFixed 8
  pure (ofLeBytes64 bytes.bytes)

/-- `try_get_u64`: big-endian. -/
def tryGetU64 : Wire Nat := do
  let bytes ← tryGetFixed 8
  pure (ofBe bytes.bytes)

def setPosition (pos : Nat) : Wire Unit := do
  let c ← Prog.read
  Prog.write { c with position := pos }

/-! ## Writing -/

/-- `put_slice`, `put_fixed`. -/
def putSlice (src : Bytes) : Wire Unit := fun c =>
  if c.position + src.length ≤ c.data.length then .ok ((), c.put src) else .panic

/-- `try_put_slice`, `try_put_fixed`. -/
def tryPutSlice (src : Bytes) : Wire Unit := do
  let c ← Prog.read
  Prog.failIf (c.remaining < src.length) (.bufferTooSmall src.length c.remaining)
  putSlice src

def putU32Le (x : UInt32) : Wire Unit := putSlice (leBytes32 x)

def putU64Le (x : UInt64) : Wire Unit := putSlice (leBytes64 x)

def tryPutU32Le (x : UInt32) : Wire Unit := tryPutSlice (leBytes32 x)

/-- `try_put_u64`: big-endian. -/
def tryPutU64 (x : Nat) : Wire Unit := tryPutSlice (toBe 8 x)

end ParseCursor

open ParseCursor

/-! ## What a read consumes -/

/-- `bs` are the next bytes under `c`, and `c'` stands right behind them. -/
structure Consumes (c : ParseCursor) (bs : Bytes) (c' : ParseCursor) : Prop where
  rest_eq : c.rest = bs ++ c'.rest
  next_eq : c' = c.skip bs.length

namespace Consumes

variable {c c₁ c₂ c' : ParseCursor} {as bs : Bytes}

theorem refl (c : ParseCursor) : Consumes c [] c := ⟨rfl, rfl⟩

theorem trans (h : Consumes c as c₁) (h' : Consumes c₁ bs c₂) : Consumes c (as ++ bs) c₂ := by
  refine ⟨?_, ?_⟩
  · rw [h.rest_eq, h'.rest_eq, List.append_assoc]
  · rw [h'.next_eq, h.next_eq]
    simp only [skip, List.length_append, Nat.add_assoc]

/-- A prefix of what is left can always be consumed. -/
theorem of_rest {tl : Bytes} (h : c.rest = bs ++ tl) :
    Consumes c bs (c.skip bs.length) ∧ (c.skip bs.length).rest = tl := by
  have htl : (c.skip bs.length).rest = tl := by
    rw [rest_skip, h, List.drop_left]
  exact ⟨⟨by rw [htl, h], rfl⟩, htl⟩

theorem remaining_eq (h : Consumes c bs c') : c.remaining = bs.length + c'.remaining := by
  rw [← rest_length, ← rest_length, h.rest_eq, List.length_append]

theorem data_eq (h : Consumes c bs c') : c'.data = c.data := by
  rw [h.next_eq]; rfl

/-- Reading two strings one after the other is reading their concatenation. -/
theorem split (h : Consumes c (as ++ bs) c₂) :
    ∃ c₁, Consumes c as c₁ ∧ Consumes c₁ bs c₂ := by
  have hr : c.rest = as ++ (bs ++ c₂.rest) := by rw [h.rest_eq, List.append_assoc]
  obtain ⟨h₁, hrest⟩ := of_rest hr
  refine ⟨c.skip as.length, h₁, hrest, ?_⟩
  rw [h.next_eq]
  simp only [skip, List.length_append, Nat.add_assoc]

/-- From the start of a buffer, the consumed bytes are a prefix of it. -/
theorem data_new {b : Bytes} (h : Consumes (new b) bs c') : b = bs ++ c'.rest := by
  simpa using h.rest_eq

/-- Two reads of the same length from one place read the same bytes. -/
theorem unique (h : Consumes c as c₁) (h' : Consumes c bs c₂) (hlen : as.length = bs.length) :
    as = bs ∧ c₁ = c₂ := by
  have heq : as ++ c₁.rest = bs ++ c₂.rest := by rw [← h.rest_eq, ← h'.rest_eq]
  exact ⟨List.append_inj_left heq hlen, by rw [h.next_eq, h'.next_eq, hlen]⟩

end Consumes

theorem tryGetFixed_ok_iff {n : Nat} {c c' : ParseCursor} {x : Octets n} (hn : 0 < n) :
    tryGetFixed n c = .ok (x, c') ↔ Consumes c x.bytes c' := by
  have hval : slice c.data c.position (c.position + n) = c.rest.take n := by
    simp [slice, rest]
  have hrem : c.remaining = c.data.length - c.position := rfl
  have hfix : tryGetFixed n c = .ok (x, c') ↔ n ≤ c.remaining ∧ getFixed n c = .ok (x, c') := by
    simp only [tryGetFixed, Prog.bind_ok_iff, Prog.read_ok_iff, Prog.failIf_ok_iff]
    constructor
    · rintro ⟨_, _, ⟨rfl, rfl⟩, _, _, ⟨h, rfl⟩, h'⟩
      exact ⟨by omega, h'⟩
    · rintro ⟨h, h'⟩
      exact ⟨c, c, ⟨rfl, rfl⟩, (), c, ⟨by omega, rfl⟩, h'⟩
  rw [hfix]
  constructor
  · rintro ⟨hle, h⟩
    have hpos : c.position + n ≤ c.data.length := by omega
    simp only [getFixed, dif_pos hpos, Outcome.ok.injEq, Prod.mk.injEq] at h
    obtain ⟨rfl, rfl⟩ := h
    refine ⟨?_, ?_⟩
    · show c.rest = slice c.data c.position (c.position + n) ++ _
      rw [rest_skip, hval, List.take_append_drop]
    · simp only [hval, List.length_take, rest_length, Nat.min_eq_left hle]
  · intro hc
    have hle : n ≤ c.remaining := by
      have := hc.remaining_eq
      rw [x.bytes_length] at this
      omega
    have hpos : c.position + n ≤ c.data.length := by omega
    refine ⟨hle, ?_⟩
    simp only [getFixed, dif_pos hpos, Outcome.ok.injEq, Prod.mk.injEq]
    refine ⟨Octets.ext ?_, ?_⟩
    · show slice c.data c.position (c.position + n) = _
      rw [hval, hc.rest_eq, List.take_append_of_le_length (by simp)]
      exact List.take_of_length_le (by simp)
    · rw [hc.next_eq, x.bytes_length]

private theorem four_pos : 0 < 4 := by decide

private theorem eight_pos : 0 < 8 := by decide

theorem tryGetU32Le_ok_iff {c c' : ParseCursor} {x : UInt32} :
    tryGetU32Le c = .ok (x, c') ↔ Consumes c (leBytes32 x) c' := by
  simp only [tryGetU32Le, Prog.bind_ok_iff, Prog.pure_ok_iff, tryGetFixed_ok_iff four_pos]
  constructor
  · rintro ⟨o, _, h, rfl, rfl⟩
    rwa [leBytes32_ofLeBytes32 o.bytes_length]
  · intro h
    exact ⟨⟨leBytes32 x, leBytes32_length x⟩, c', h, ofLeBytes32_leBytes32 x, rfl⟩

theorem tryGetU64Le_ok_iff {c c' : ParseCursor} {x : UInt64} :
    tryGetU64Le c = .ok (x, c') ↔ Consumes c (leBytes64 x) c' := by
  simp only [tryGetU64Le, Prog.bind_ok_iff, Prog.pure_ok_iff, tryGetFixed_ok_iff eight_pos]
  constructor
  · rintro ⟨o, _, h, rfl, rfl⟩
    rwa [leBytes64_ofLeBytes64 o.bytes_length]
  · intro h
    exact ⟨⟨leBytes64 x, leBytes64_length x⟩, c', h, ofLeBytes64_leBytes64 x, rfl⟩

/-- The big-endian reads keep the value as a number below the width. -/
theorem tryGetU32_ok_iff {c c' : ParseCursor} {x : Nat} :
    tryGetU32 c = .ok (x, c') ↔ x < 256 ^ 4 ∧ Consumes c (toBe 4 x) c' := by
  simp only [tryGetU32, Prog.bind_ok_iff, Prog.pure_ok_iff, tryGetFixed_ok_iff four_pos]
  constructor
  · rintro ⟨o, _, h, rfl, rfl⟩
    rw [toBe_of_length o.bytes_length]
    exact ⟨ofBe_lt o.bytes_length, h⟩
  · rintro ⟨hx, h⟩
    exact ⟨⟨toBe 4 x, toBe_length 4 x⟩, c', h, by rw [ofBe_toBe, Nat.mod_eq_of_lt hx], rfl⟩

theorem tryGetU64_ok_iff {c c' : ParseCursor} {x : Nat} :
    tryGetU64 c = .ok (x, c') ↔ x < 256 ^ 8 ∧ Consumes c (toBe 8 x) c' := by
  simp only [tryGetU64, Prog.bind_ok_iff, Prog.pure_ok_iff, tryGetFixed_ok_iff eight_pos]
  constructor
  · rintro ⟨o, _, h, rfl, rfl⟩
    rw [toBe_of_length o.bytes_length]
    exact ⟨ofBe_lt o.bytes_length, h⟩
  · rintro ⟨hx, h⟩
    exact ⟨⟨toBe 8 x, toBe_length 8 x⟩, c', h, by rw [ofBe_toBe, Nat.mod_eq_of_lt hx], rfl⟩

/-! ### The checked reads do not panic -/

@[simp] theorem safe_tryGetFixed {n : Nat} (hn : 0 < n) (c : ParseCursor) :
    Prog.Safe (tryGetFixed n) c := by
  refine Prog.Safe.bind (Prog.safe_read c) ?_
  intro c₁ c₂ h₁
  obtain ⟨rfl, rfl⟩ := Prog.read_ok_iff.mp h₁
  refine Prog.Safe.bind (Prog.safe_failIf _ _ _) ?_
  intro _ c₃ h₂
  obtain ⟨hle, rfl⟩ := Prog.failIf_ok_iff.mp h₂
  have hrem : c.remaining = c.data.length - c.position := rfl
  have hpos : c.position + n ≤ c.data.length := by omega
  show getFixed n c ≠ _
  simp [getFixed, hpos]

theorem safe_tryGetU32Le (c : ParseCursor) : Prog.Safe tryGetU32Le c :=
  (safe_tryGetFixed four_pos c).bind fun _ _ _ => Prog.safe_pure _ _

theorem safe_tryGetU32 (c : ParseCursor) : Prog.Safe tryGetU32 c :=
  (safe_tryGetFixed four_pos c).bind fun _ _ _ => Prog.safe_pure _ _

theorem safe_tryGetU64Le (c : ParseCursor) : Prog.Safe tryGetU64Le c :=
  (safe_tryGetFixed eight_pos c).bind fun _ _ _ => Prog.safe_pure _ _

theorem safe_tryGetU64 (c : ParseCursor) : Prog.Safe tryGetU64 c :=
  (safe_tryGetFixed eight_pos c).bind fun _ _ _ => Prog.safe_pure _ _

/-! ## What a write leaves behind -/

/-- Given room for `bs`, `p` writes exactly `bs` at the position and answers `Ok`. -/
def Writes (p : Wire Unit) (bs : Bytes) : Prop :=
  ∀ c : ParseCursor, c.position ≤ c.data.length → bs.length ≤ c.remaining →
    p c = .ok ((), c.put bs)

namespace Writes

variable {p q : Wire Unit} {as bs : Bytes}

theorem put_length {c : ParseCursor} (h : bs.length ≤ c.remaining) :
    (c.put bs).data.length = c.data.length := by
  have hrem : c.remaining = c.data.length - c.position := rfl
  simp only [put, List.length_append, List.length_take, List.length_drop]
  by_cases hp : c.position ≤ c.data.length
  · omega
  · have h0 : bs.length = 0 := by omega
    omega

theorem put_put {c : ParseCursor} (hp : c.position ≤ c.data.length) :
    (c.put as).put bs = c.put (as ++ bs) := by
  have hlen : (c.data.take c.position).length = c.position := by
    rw [List.length_take]; omega
  simp only [put, ParseCursor.mk.injEq, List.length_append, Nat.add_assoc, and_true]
  have htake : (c.data.take c.position ++ (as ++ c.data.drop (c.position + as.length))).take
      (c.position + as.length) = c.data.take c.position ++ as := by
    rw [← List.append_assoc]
    exact List.take_left' (by simp [hlen])
  have hdrop : (c.data.take c.position ++ (as ++ c.data.drop (c.position + as.length))).drop
      (c.position + (as.length + bs.length)) = c.data.drop (c.position + (as.length + bs.length)) := by
    rw [← List.append_assoc, ← Nat.add_assoc, ← List.drop_drop,
      List.drop_left' (by simp [hlen]), List.drop_drop, Nat.add_assoc]
  rw [htake, hdrop, List.append_assoc, List.append_assoc]

theorem pure : Writes (Pure.pure ()) [] := by
  intro c _ _
  show Outcome.ok ((), c) = _
  simp [put]

theorem seq (hp : Writes p as) (hq : Writes q bs) :
    Writes (p >>= fun _ => q) (as ++ bs) := by
  intro c hc hlen
  rw [List.length_append] at hlen
  have hrem : c.remaining = c.data.length - c.position := rfl
  have hlen' : (c.put as).data.length = c.data.length := put_length (by omega)
  have hrem' : (c.put as).remaining = (c.put as).data.length - (c.position + as.length) := rfl
  rw [Prog.bind_of_ok (hp c hc (by omega)), hq (c.put as) ?_ ?_, put_put hc]
  · show c.position + as.length ≤ _
    omega
  · omega

/-- A size check in front of a writer that it covers passes. -/
theorem guarded {n : Nat} {need : ParseCursor → Nat} (hp : Writes p bs)
    (hneed : ∀ c : ParseCursor, c.position ≤ c.data.length → bs.length ≤ c.remaining → n ≤ need c) :
    Writes (do
      let c ← Prog.read
      Prog.failIf (need c < n) (.bufferTooSmall n (need c))
      p) bs := by
  intro c hc hlen
  have hok : (Prog.failIf (need c < n) (.bufferTooSmall n (need c)) : Wire Unit) c =
      .ok ((), c) := by
    rw [Prog.failIf_ok_iff]
    have := hneed c hc hlen
    exact ⟨by omega, rfl⟩
  rw [Prog.bind_of_ok (Prog.read_ok_iff.mpr ⟨rfl, rfl⟩), Prog.bind_of_ok hok]
  exact hp c hc hlen

theorem putSlice (src : Bytes) : Writes (ParseCursor.putSlice src) src := by
  intro c hc hlen
  have hrem : c.remaining = c.data.length - c.position := rfl
  unfold ParseCursor.putSlice
  rw [if_pos (by omega)]

theorem tryPutSlice (src : Bytes) : Writes (ParseCursor.tryPutSlice src) src :=
  guarded (putSlice src) fun _ _ h => h

theorem putU32Le (x : UInt32) : Writes (ParseCursor.putU32Le x) (leBytes32 x) := putSlice _

theorem putU64Le (x : UInt64) : Writes (ParseCursor.putU64Le x) (leBytes64 x) := putSlice _

/-- Writing a list of pieces one after the other. -/
theorem forEach {α : Type} {f : α → Wire Unit} {enc : α → Bytes} (h : ∀ a, Writes (f a) (enc a))
    (l : List α) : Writes (l.forM f) (l.flatMap enc) := by
  induction l with
  | nil => exact pure
  | cons a l ih =>
      rw [List.flatMap_cons]
      exact seq (h a) ih

/-- Writing into a buffer of exactly the right size fills it. -/
theorem fill (hp : Writes p bs) {data : Bytes} (hdata : data.length = bs.length) :
    ∃ c, p (new data) = .ok ((), c) ∧ c.data = bs := by
  refine ⟨(new data).put bs, hp (new data) (Nat.zero_le _) (by simp [hdata]), ?_⟩
  simp [put, new, hdata.symm]

end Writes

end Roughenough.Protocol
