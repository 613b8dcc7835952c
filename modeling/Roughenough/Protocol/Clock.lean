/-
# `Roughenough.Protocol.Clock` — where a server takes the time from

`util/clocksource.rs`.  A reading starts from the system clock, in whole seconds
from the Unix epoch, which a machine whose clock was never set may show before
the epoch: there `epoch_seconds` panics.  A fixed offset is added in such a way
that the sum stays at the ends of the range instead of going around.
-/
import Mathlib.Algebra.Order.Ring.Int
import Roughenough.Base.Outcome

namespace Roughenough.Protocol

open Roughenough.Base

/-- `u64::saturating_add_signed`. -/
def saturatingAddSigned (n : UInt64) (k : Int64) : UInt64 :=
  if 0 ≤ n.toNat + k.toInt then
    if n.toNat + k.toInt < 2 ^ 64 then .ofNat (n.toNat + k.toInt).toNat else .ofNat (2 ^ 64 - 1)
  else 0

theorem saturatingAddSigned_toNat {n : UInt64} {k : Int64} (hlow : 0 ≤ n.toNat + k.toInt)
    (hhigh : n.toNat + k.toInt < 2 ^ 64) :
    ((saturatingAddSigned n k).toNat : Int) = n.toNat + k.toInt := by
  have hlt : (n.toNat + k.toInt).toNat < 2 ^ 64 := by omega
  unfold saturatingAddSigned
  rw [if_pos hlow, if_pos hhigh, UInt64.toNat_ofNat_of_lt' hlt, Int.toNat_of_nonneg hlow]

inductive ClockSource where
  | system
  | fixedOffset (offset : Int16)
  | mock (now : UInt64)
  deriving DecidableEq

namespace ClockSource

/-- The system clock, in whole seconds from the epoch.  Before the epoch it panics. -/
def systemSeconds (system : Int64) : Call UInt64 :=
  if system < 0 then .panic else .ok system.toUInt64

def epochSeconds (system : Int64) : ClockSource → Call UInt64
  | .system => systemSeconds system
  | .fixedOffset offset => do
      let seconds ← systemSeconds system
      pure (saturatingAddSigned seconds offset.toInt64)
  | .mock now => .ok now

theorem systemSeconds_ok_iff {system : Int64} {n : UInt64} :
    systemSeconds system = .ok n ↔ (n.toNat : Int) = system.toInt := by
  unfold systemSeconds
  split
  · next hneg =>
      have hlt : system.toInt < 0 := Int64.lt_iff_toInt_lt.mp hneg
      constructor
      · intro h
        cases h
      · intro h
        omega
  · next hpos =>
      have hle : 0 ≤ system := Int64.not_lt.mp hpos
      have hnat : (system.toUInt64.toNat : Int) = system.toInt := by
        rw [Int64.toNat_toUInt64_of_le hle]
        exact Int.toNat_of_nonneg (Int64.le_iff_toInt_le.mp hle)
      rw [Outcome.ok.injEq, ← hnat, Int.ofNat_inj, UInt64.toNat_inj, eq_comm]

end ClockSource

end Roughenough.Protocol
