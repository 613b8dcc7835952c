/-
# `Roughenough.Base.Channel` — bounded channels

A first-in first-out queue of at most `capacity` messages.  Sending does not
wait: `trySend` is `none` when the queue is full, and the message is then the
sender's to keep or to drop.  `tryRecv` is `none` when there is nothing to take.

`weigh f` adds up a number for each message that is on its way, so that laws of
conservation can be stated with the channel in between.
-/
import Mathlib.Algebra.Order.Ring.Nat
import Mathlib.Data.List.Basic

namespace Roughenough.Base

structure Channel (α : Type) (capacity : Nat) where
  queue : List α
  bounded : queue.length ≤ capacity

namespace Channel

variable {α : Type} {capacity : Nat}

def empty : Channel α capacity := ⟨[], Nat.zero_le _⟩

def trySend (ch : Channel α capacity) (x : α) : Option (Channel α capacity) :=
  if h : ch.queue.length < capacity then
    some ⟨ch.queue ++ [x], by rwa [List.length_append]⟩
  else none

def tryRecv (ch : Channel α capacity) : Option (α × Channel α capacity) :=
  match h : ch.queue with
  | [] => none
  | x :: later => some (x, ⟨later, by
      have hbounded := ch.bounded
      rw [h] at hbounded
      exact Nat.le_of_succ_le hbounded⟩)

def weigh (f : α → Nat) (ch : Channel α capacity) : Nat := (ch.queue.map f).sum

theorem weigh_empty (f : α → Nat) : (empty : Channel α capacity).weigh f = 0 := rfl

theorem trySend_eq_some {ch ch' : Channel α capacity} {x : α} (h : ch.trySend x = some ch') :
    ch'.queue = ch.queue ++ [x] := by
  unfold trySend at h
  split at h
  · cases h
    rfl
  · cases h

/-- A message is refused by a full channel, and by no other. -/
theorem trySend_eq_none_iff {ch : Channel α capacity} {x : α} :
    ch.trySend x = none ↔ ch.queue.length = capacity := by
  unfold trySend
  split
  · next hroom => exact ⟨(fun h => nomatch h), fun h => absurd h (Nat.ne_of_lt hroom)⟩
  · next hfull => exact ⟨fun _ => Nat.le_antisymm ch.bounded (Nat.le_of_not_lt hfull), fun _ => rfl⟩

theorem tryRecv_eq_none_iff {ch : Channel α capacity} : ch.tryRecv = none ↔ ch.queue = [] := by
  unfold tryRecv
  split
  · next hnil => exact ⟨fun _ => hnil, fun _ => rfl⟩
  · next hcons =>
      exact ⟨(fun h => nomatch h), fun h => absurd (hcons.symm.trans h) (List.cons_ne_nil _ _)⟩

theorem tryRecv_eq_some {ch ch' : Channel α capacity} {x : α}
    (h : ch.tryRecv = some (x, ch')) : ch.queue = x :: ch'.queue := by
  unfold tryRecv at h
  split at h
  · cases h
  · next hqueue =>
      cases h
      exact hqueue

theorem weigh_trySend {ch ch' : Channel α capacity} {x : α} (f : α → Nat)
    (h : ch.trySend x = some ch') : ch'.weigh f = ch.weigh f + f x := by
  rw [weigh, weigh, trySend_eq_some h, List.map_append, List.sum_append, List.map_singleton,
    List.sum_singleton]

theorem weigh_tryRecv {ch ch' : Channel α capacity} {x : α} (f : α → Nat)
    (h : ch.tryRecv = some (x, ch')) : ch.weigh f = f x + ch'.weigh f := by
  rw [weigh, weigh, tryRecv_eq_some h, List.map_cons, List.sum_cons]

end Channel

end Roughenough.Base
