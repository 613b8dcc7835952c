/-
# `Roughenough.Base.Traces` — runs of a labelled transition relation

A component that talks to its surroundings step by step is a relation
`Step s a s'`: in state `s` the exchange `a` takes place, and the state is
then `s'`.  `Trace Step s₀ as s` is a run from `s₀` with the exchanges `as`,
oldest first.

An invariant may speak of the exchanges so far as well as of the state
(`Trace.invariant`); that is how history is kept out of the states.
-/
import Mathlib.Data.List.Induction

namespace Roughenough.Base

variable {σ α : Type}

/-- A run, one exchange at a time. -/
inductive Trace (Step : σ → α → σ → Prop) (s₀ : σ) : List α → σ → Prop
  | start : Trace Step s₀ [] s₀
  | step {as : List α} {s s' : σ} {a : α} : Trace Step s₀ as s → Step s a s' →
      Trace Step s₀ (as ++ [a]) s'

namespace Trace

variable {Step : σ → α → σ → Prop} {s₀ s s' : σ} {as bs : List α} {a : α}

/-- What holds at the start and is kept by every step holds along the run. -/
theorem invariant (I : List α → σ → Prop) (hstart : I [] s₀)
    (hstep : ∀ as s a s', Trace Step s₀ as s → I as s → Step s a s' → I (as ++ [a]) s')
    (h : Trace Step s₀ as s) : I as s := by
  induction h with
  | start => exact hstart
  | step hrun hlast ih => exact hstep _ _ _ _ hrun ih hlast

theorem nil_iff : Trace Step s₀ [] s ↔ s = s₀ := by
  constructor
  · intro h
    generalize has : ([] : List α) = as at h
    cases h with
    | start => rfl
    | step hrun hlast => exact absurd has.symm (List.append_ne_nil_of_right_ne_nil _ (by simp))
  · rintro rfl
    exact .start

theorem concat_iff : Trace Step s₀ (as ++ [a]) s' ↔ ∃ s, Trace Step s₀ as s ∧ Step s a s' := by
  constructor
  · intro h
    generalize hbs : as ++ [a] = bs at h
    cases h with
    | start => exact absurd hbs (List.append_ne_nil_of_right_ne_nil _ (by simp))
    | step hrun hlast =>
        obtain ⟨rfl, ha⟩ := List.append_inj' hbs rfl
        cases List.singleton_inj.mp ha
        exact ⟨_, hrun, hlast⟩
  · rintro ⟨s, hrun, hlast⟩
    exact hrun.step hlast

/-- A run passes through a state after each of its beginnings. -/
theorem append_iff : Trace Step s₀ (as ++ bs) s' ↔
    ∃ s, Trace Step s₀ as s ∧ Trace Step s bs s' := by
  induction bs using List.reverseRecOn generalizing s' with
  | nil =>
      rw [List.append_nil]
      constructor
      · intro h
        exact ⟨s', h, .start⟩
      · rintro ⟨s, h, hnil⟩
        rwa [nil_iff.mp hnil]
  | append_singleton bs b ih =>
      rw [← List.append_assoc, concat_iff]
      constructor
      · rintro ⟨s₁, hrun, hlast⟩
        obtain ⟨s, hfirst, hrest⟩ := ih.mp hrun
        exact ⟨s, hfirst, hrest.step hlast⟩
      · rintro ⟨s, hfirst, hrest⟩
        obtain ⟨s₁, hrest, hlast⟩ := concat_iff.mp hrest
        exact ⟨s₁, ih.mpr ⟨s, hfirst, hrest⟩, hlast⟩

/-- Where a step is determined by its exchange, so is a run. -/
theorem functional (hstep : ∀ s a s₁ s₂, Step s a s₁ → Step s a s₂ → s₁ = s₂)
    (h : Trace Step s₀ as s) (h' : Trace Step s₀ as s') : s = s' := by
  induction h generalizing s' with
  | start => exact (nil_iff.mp h').symm
  | step hrun hlast ih =>
      obtain ⟨s₁, hrun', hlast'⟩ := concat_iff.mp h'
      cases ih hrun'
      exact hstep _ _ _ _ hlast hlast'

end Trace

end Roughenough.Base
