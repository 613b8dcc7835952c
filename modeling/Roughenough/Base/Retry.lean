/-
# `Roughenough.Base.Retry` — attempts until one settles

A loop over numbered attempts with a bound.  An attempt settles the matter,
leaves a value behind and asks for another attempt, fails, or panics; a loop
that has used up its attempts ends with what is made of the last value.

`retry_cases` is the whole specification: either every attempt asked for
another one, or there is a first that did not, and it ended the loop.
-/
import Roughenough.Base.Outcome

namespace Roughenough.Base

/-- How a loop ended: after how many attempts, and with what. -/
structure Ended (ε α : Type) where
  attempts : Nat
  result : Outcome ε α
  deriving DecidableEq

section Retry

variable {ε α : Type} (once : Nat → Outcome ε (α × Bool)) (giveUp : α → Outcome ε α)

/-- At most `left` attempts after the first `made`, which left `last` behind.  The flag of an
attempt says whether it settled the matter. -/
def retry : (left made : Nat) → α → Ended ε α
  | 0, made, last => ⟨made, giveUp last⟩
  | left + 1, made, _ =>
      match once (made + 1) with
      | .ok (a, true) => ⟨made + 1, .ok a⟩
      | .ok (a, false) => retry left (made + 1) a
      | .err e => ⟨made + 1, .err e⟩
      | .panic => ⟨made + 1, .panic⟩

variable {once giveUp}

/-- Another attempt is asked for. -/
def Again (x : Outcome ε (α × Bool)) : Prop := ∃ a, x = .ok (a, false)

/-- What an attempt that ends the loop makes of it. -/
def settle (x : Outcome ε (α × Bool)) : Outcome ε α := x >>= fun r => .ok r.1

theorem retry_settles {left made : Nat} {last : α} (h : ¬ Again (once (made + 1))) :
    retry once giveUp (left + 1) made last = ⟨made + 1, settle (once (made + 1))⟩ := by
  unfold retry
  rcases hx : once (made + 1) with ⟨a, _ | _⟩ | e | _
  · exact absurd ⟨a, hx⟩ h
  · rfl
  · rfl
  · rfl

theorem retry_again {left made : Nat} {last a : α} (h : once (made + 1) = .ok (a, false)) :
    retry once giveUp (left + 1) made last = retry once giveUp left (made + 1) a := by
  rw [retry, h]

variable (once giveUp) in
/-- All attempts were made and asked for another, or the first that did not ended the loop. -/
theorem retry_cases (left made : Nat) (last : α) :
    (∃ a, (∀ j, made < j → j ≤ made + left → Again (once j)) ∧
      (left = 0 → a = last) ∧ (left ≠ 0 → once (made + left) = .ok (a, false)) ∧
      retry once giveUp left made last = ⟨made + left, giveUp a⟩) ∨
    ∃ i, made < i ∧ i ≤ made + left ∧ (∀ j, made < j → j < i → Again (once j)) ∧
      ¬ Again (once i) ∧ retry once giveUp left made last = ⟨i, settle (once i)⟩ := by
  induction left generalizing made last with
  | zero =>
      refine Or.inl ⟨last, ?_, fun _ => rfl, fun h => absurd rfl h, rfl⟩
      intro j hlt hle
      omega
  | succ left ih =>
      by_cases hagain : Again (once (made + 1))
      · obtain ⟨a, ha⟩ := hagain
        -- the first attempt asks for another, and the rest of the loop starts behind it
        have hfirst : ∀ j, made < j → j < made + 2 → Again (once j) := by
          intro j hlt hle
          obtain rfl : j = made + 1 := by omega
          exact ⟨a, ha⟩
        rw [retry_again ha, show made + (left + 1) = made + 1 + left by omega]
        rcases ih (made + 1) a with ⟨b, hall, hnone, hlast, heq⟩ |
          ⟨i, hlt, hle, hall, hi, heq⟩
        · refine Or.inl ⟨b, ?_, fun h => absurd h (Nat.succ_ne_zero left), fun _ => ?_, heq⟩
          · intro j hj hj'
            rcases Nat.lt_or_ge j (made + 2) with hnear | hfar
            · exact hfirst j hj hnear
            · exact hall j (by omega) hj'
          · rcases Nat.eq_zero_or_pos left with rfl | hpos
            · rw [hnone rfl]
              exact ha
            · exact hlast (by omega)
        · refine Or.inr ⟨i, by omega, hle, ?_, hi, heq⟩
          intro j hj hj'
          rcases Nat.lt_or_ge j (made + 2) with hnear | hfar
          · exact hfirst j hj hnear
          · exact hall j (by omega) hj'
      · refine Or.inr ⟨made + 1, by omega, by omega, ?_, hagain, retry_settles hagain⟩
        intro j hj hj'
        omega

end Retry

end Roughenough.Base
