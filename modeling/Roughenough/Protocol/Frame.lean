/-
# `Roughenough.Protocol.Frame` — the framing of messages

`wire.rs`: `ToWire::as_bytes`, `ToFrame` and `FromFrame`.

    frame      "ROUGHTIM" (8) | length le32 (4) | message

The reader compares the length field with the bytes that are left and then
forgets it: the message reader sees the whole rest of the buffer, and bytes
behind the message are not an error.
-/
import Roughenough.Protocol.Srep

namespace Roughenough.Protocol

open Roughenough.Base ParseCursor

def frameMagic : Nat := 0x524f55474854494d

def frameOverhead : Nat := 12

def minimumFrameSize : Nat := 100

/-- `FromFrame::from_frame`, for the `from_wire` of the message. -/
def fromFrame {α : Type} (fromWire : Wire α) : Wire α := do
  let magic ← tryGetU64
  Prog.failIf (magic ≠ frameMagic) (.unexpectedMagic magic)
  let len ← tryGetU32Le
  let c ← Prog.read
  Prog.failIf (len.toNat < minimumFrameSize ∨ c.remaining < minimumFrameSize)
    (.unexpectedFraming (min len.toNat c.remaining))
  Prog.failIf (c.remaining < len.toNat) (.bufferTooSmall len.toNat c.remaining)
  fromWire

/-- `ToFrame::frame_size`. -/
def frameSize (wireSize : Nat) : Nat := wireSize + frameOverhead

/-- `ToFrame::to_frame`, for the `wire_size` and the `to_wire` of the message. -/
def toFrame (wireSize : Nat) (toWire : Wire Unit) : Wire Unit := do
  tryPutU64 frameMagic
  tryPutU32Le (UInt32.ofNat wireSize)
  toWire

/-- What the writer leaves in a fresh zeroed buffer of `size` bytes. -/
def inFreshBuffer (size : Nat) (p : Wire Unit) : Outcome Error Bytes := do
  let r ← p (new (List.replicate size 0))
  pure r.2.data

/-- What the writer leaves in a borrowed array: a cursor cannot change its length. -/
def inArray {n : Nat} (a : Octets n) (p : Wire Unit) : Outcome Error (Octets n) := do
  let r ← p (new a.bytes)
  if h : r.2.data.length = n then pure ⟨r.2.data, h⟩ else .panic

/-- `ToWire::as_bytes`. -/
def asBytes (wireSize : Nat) (toWire : Wire Unit) : Outcome Error Bytes :=
  inFreshBuffer wireSize toWire

/-- `ToFrame::as_frame_bytes`. -/
def asFrameBytes (wireSize : Nat) (toWire : Wire Unit) : Outcome Error Bytes :=
  inFreshBuffer (wireSize + frameOverhead) (toFrame wireSize toWire)

/-- The twelve bytes in front of a message. -/
def frameHead (len : UInt32) : Bytes := toBe 8 frameMagic ++ leBytes32 len

@[simp] theorem frameHead_length (len : UInt32) : (frameHead len).length = 12 := by
  simp [frameHead]

/-- The frame of a message `bs`. -/
def framed (bs : Bytes) : Bytes := frameHead (UInt32.ofNat bs.length) ++ bs

theorem framed_length (bs : Bytes) : (framed bs).length = 12 + bs.length := by
  simp [framed]

variable {α : Type} {p : Wire α}

theorem fromFrame_ok_iff {x : α} {c c' : ParseCursor} :
    fromFrame p c = .ok (x, c') ↔ ∃ len c₁, Consumes c (frameHead len) c₁ ∧ 100 ≤ len.toNat ∧
      100 ≤ c₁.remaining ∧ len.toNat ≤ c₁.remaining ∧ p c₁ = .ok (x, c') := by
  simp only [fromFrame, Prog.bind_ok_iff, tryGetU64_ok_iff, Prog.failIf_ok_iff,
    tryGetU32Le_ok_iff, Prog.read_ok_iff]
  have hmin100 : minimumFrameSize = 100 := rfl
  constructor
  · rintro ⟨magic, c₁, ⟨hm, h₁⟩, _, _, ⟨hmagic, rfl⟩, len, c₂, h₂, _, _, ⟨rfl, rfl⟩,
      _, _, ⟨hmin, rfl⟩, _, _, ⟨hlen, rfl⟩, hp⟩
    rw [not_not] at hmagic
    subst hmagic
    exact ⟨len, c₂, h₁.trans h₂, by omega, by omega, by omega, hp⟩
  · rintro ⟨len, c₂, hc, hmin, hmin', hlen, hp⟩
    obtain ⟨c₁, h₁, h₂⟩ := hc.split
    exact ⟨frameMagic, c₁, ⟨by decide, h₁⟩, (), c₁, ⟨by simp, rfl⟩, len, c₂, h₂, c₂, c₂,
      ⟨rfl, rfl⟩, (), c₂, ⟨by omega, rfl⟩, (), c₂, ⟨by omega, rfl⟩, hp⟩

theorem safe_fromFrame (hp : ∀ c, Prog.Safe p c) (c : ParseCursor) :
    Prog.Safe (fromFrame p) c :=
  (safe_tryGetU64 c).bind fun _ _ _ => (Prog.safe_failIf _ _ _).bind fun _ c₁ _ =>
    (safe_tryGetU32Le c₁).bind fun _ _ _ => (Prog.safe_read _).bind fun _ _ _ =>
      (Prog.safe_failIf _ _ _).bind fun _ _ _ => (Prog.safe_failIf _ _ _).bind fun _ c₂ _ => hp c₂

theorem toFrame_writes {q : Wire Unit} {bs : Bytes} (hq : Writes q bs) {size : Nat}
    (hsize : bs.length = size) : Writes (toFrame size q) (framed bs) := by
  subst hsize
  unfold framed frameHead
  rw [List.append_assoc]
  exact (Writes.tryPutSlice _).seq ((Writes.tryPutSlice _).seq hq)

theorem inFreshBuffer_writes {q : Wire Unit} {bs : Bytes} (hq : Writes q bs) {size : Nat}
    (hsize : bs.length = size) : inFreshBuffer size q = .ok bs := by
  have hlen : (List.replicate size (0 : UInt8)).length = bs.length := by simp [hsize]
  obtain ⟨c, hc, hdata⟩ := hq.fill hlen
  unfold inFreshBuffer
  rw [hc, ← hdata]
  rfl

/-- The array starts with what was written, if there was room for it. -/
theorem inArray_writes {q : Wire Unit} {bs : Bytes} (hq : Writes q bs) {n : Nat} (a : Octets n)
    (hroom : bs.length ≤ n) : ∃ a' : Octets n, inArray a q = .ok a' ∧ a'.bytes.take bs.length = bs := by
  have hfit : bs.length ≤ (new a.bytes).remaining := by
    rw [remaining_new, a.size_eq]
    exact hroom
  have hlen : ((new a.bytes).put bs).data.length = n := (Writes.put_length hfit).trans a.size_eq
  refine ⟨⟨((new a.bytes).put bs).data, hlen⟩, ?_, List.take_left⟩
  unfold inArray
  rw [hq (new a.bytes) (Nat.zero_le _) hfit]
  exact dif_pos hlen

theorem asBytes_writes {q : Wire Unit} {bs : Bytes} (hq : Writes q bs) {size : Nat}
    (hsize : bs.length = size) : asBytes size q = .ok bs := inFreshBuffer_writes hq hsize

theorem asFrameBytes_writes {q : Wire Unit} {bs : Bytes} (hq : Writes q bs) {size : Nat}
    (hsize : bs.length = size) : asFrameBytes size q = .ok (framed bs) := by
  refine inFreshBuffer_writes (toFrame_writes hq hsize) ?_
  rw [framed_length, hsize, frameOverhead]
  omega

end Roughenough.Protocol
