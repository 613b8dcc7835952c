/-
# `Roughenough.Base.Outcome` — computations that answer, fail or panic

A Rust function that returns `Result<T, E>` has three ways to end: it answers
`Ok`, it answers `Err`, or it panics (a slice out of range, a failed
`assert!`, an unsigned subtraction below zero).  The three are kept apart
here, because the third is what "no input crashes the parser" is about and an
`Except` cannot say it.

    ok a      the call returned `Ok(a)`
    err e     the call returned `Err(e)`
    panic     the call did not return

`Prog σ ε α` threads a state through such outcomes: `&mut self` methods are
`Prog`s over the receiver.  The state of a run that failed is dropped, since
no caller in the sources looks at it.

Every proof about a `Prog` goes through two rules:

    a run that answered   splits at its binds         `bind_ok_iff`
    a run does not panic  if its pieces do not        `Safe.bind`

Nothing in this module is about Roughtime.
-/
import Mathlib.Init

namespace Roughenough.Base

/-- How a call ends. -/
inductive Outcome (ε α : Type) where
  | ok (a : α)
  | err (e : ε)
  | panic
  deriving DecidableEq, Repr

namespace Outcome

variable {ε α β : Type}

protected def bind : Outcome ε α → (α → Outcome ε β) → Outcome ε β
  | ok a, f => f a
  | err e, _ => err e
  | panic, _ => panic

instance : Monad (Outcome ε) where
  pure := ok
  bind := Outcome.bind

@[simp] theorem pure_eq (a : α) : (pure a : Outcome ε α) = ok a := rfl

@[simp] theorem ok_bind (a : α) (f : α → Outcome ε β) : (ok a >>= f) = f a := rfl

@[simp] theorem err_bind (e : ε) (f : α → Outcome ε β) : (err e >>= f) = err e := rfl

@[simp] theorem panic_bind (f : α → Outcome ε β) : ((panic : Outcome ε α) >>= f) = panic := rfl

instance : LawfulMonad (Outcome ε) :=
  LawfulMonad.mk' (Outcome ε)
    (fun x => by cases x <;> rfl)
    (fun _ _ => rfl)
    (fun x _ _ => by cases x <;> rfl)

@[simp] theorem ok_ne_panic (a : α) : (ok a : Outcome ε α) ≠ panic := by
  intro h
  cases h

@[simp] theorem err_ne_panic (e : ε) : (err e : Outcome ε α) ≠ panic := by
  intro h
  cases h

theorem bind_ok_iff {x : Outcome ε α} {f : α → Outcome ε β} {b : β} :
    (x >>= f) = ok b ↔ ∃ a, x = ok a ∧ f a = ok b := by
  cases x <;> simp

theorem bind_err_iff {x : Outcome ε α} {f : α → Outcome ε β} {e : ε} :
    (x >>= f) = err e ↔ x = err e ∨ ∃ a, x = ok a ∧ f a = err e := by
  cases x with
  | ok a => simp
  | err e' => simp
  | panic => simp

/-- A bind panics only if one of its two halves does. -/
theorem bind_ne_panic {x : Outcome ε α} {f : α → Outcome ε β} (hx : x ≠ panic)
    (hf : ∀ a, x = ok a → f a ≠ panic) : (x >>= f) ≠ panic := by
  cases x with
  | ok a => exact hf a rfl
  | err e => simp
  | panic => exact absurd rfl hx

/-- `is_ok`. -/
def isOk : Outcome ε α → Bool
  | ok _ => true
  | _ => false

theorem isOk_iff {x : Outcome ε α} : x.isOk = true ↔ ∃ a, x = ok a := by
  cases x <;> simp [isOk]

/-- `map_err`, and the conversion that `?` applies. -/
def mapErr {ε' : Type} (f : ε → ε') : Outcome ε α → Outcome ε' α
  | ok a => ok a
  | err e => err (f e)
  | panic => panic

@[simp] theorem mapErr_ok {ε' : Type} (f : ε → ε') (a : α) :
    (ok a : Outcome ε α).mapErr f = ok a := rfl

@[simp] theorem mapErr_ok_iff {ε' : Type} {f : ε → ε'} {x : Outcome ε α} {a : α} :
    x.mapErr f = ok a ↔ x = ok a := by
  cases x <;> simp [mapErr]

theorem mapErr_err_iff {ε' : Type} {f : ε → ε'} {x : Outcome ε α} {e' : ε'} :
    x.mapErr f = err e' ↔ ∃ e, x = err e ∧ f e = e' := by
  cases x with
  | ok a => simp [mapErr]
  | err e => simp [mapErr]
  | panic => simp [mapErr]

theorem mapErr_panic_iff {ε' : Type} {f : ε → ε'} {x : Outcome ε α} :
    x.mapErr f = panic ↔ x = panic := by
  cases x with
  | ok a => simp [mapErr]
  | err e => simp [mapErr]
  | panic => simp [mapErr]

theorem mapErr_ne_panic {ε' : Type} {f : ε → ε'} {x : Outcome ε α} (hx : x ≠ panic) :
    x.mapErr f ≠ panic := fun h => hx (mapErr_panic_iff.mp h)

/-- `expect`, `unwrap`: an `Err` panics. -/
def expect {ε' : Type} : Outcome ε α → Outcome ε' α
  | ok a => ok a
  | err _ => panic
  | panic => panic

@[simp] theorem expect_ok {ε' : Type} (a : α) :
    ((ok a : Outcome ε α).expect : Outcome ε' α) = ok a := rfl

theorem expect_ok_iff {ε' : Type} {x : Outcome ε α} {a : α} :
    (x.expect : Outcome ε' α) = ok a ↔ x = ok a := by
  cases x with
  | ok b => simp [expect]
  | err e => simp [expect]
  | panic => simp [expect]

/-- `Err` when the condition holds: the early returns of the sources. -/
def failIf (c : Prop) [Decidable c] (e : ε) : Outcome ε Unit := if c then err e else ok ()

/-- `assert!`. -/
def assert (c : Prop) [Decidable c] : Outcome ε Unit := if c then ok () else panic

/-- An index or an `unwrap`: `none` panics. -/
def orPanic : Option α → Outcome ε α
  | some a => ok a
  | none => panic

@[simp] theorem failIf_ok_iff {c : Prop} [Decidable c] {e : ε} {u : Unit} :
    failIf c e = ok u ↔ ¬ c := by
  unfold failIf; split <;> simp_all

@[simp] theorem failIf_ne_panic {c : Prop} [Decidable c] {e : ε} :
    failIf c e ≠ panic := by
  unfold failIf; split <;> simp

@[simp] theorem assert_ok_iff {c : Prop} [Decidable c] {u : Unit} :
    (assert c : Outcome ε Unit) = ok u ↔ c := by
  unfold assert; split <;> simp_all

@[simp] theorem orPanic_ok_iff {o : Option α} {a : α} :
    (orPanic o : Outcome ε α) = ok a ↔ o = some a := by
  cases o <;> simp [orPanic]

/-- A loop for its effect returns when every step does. -/
theorem forM_ok_iff {f : α → Outcome ε Unit} {l : List α} {u : Unit} :
    l.forM f = .ok u ↔ ∀ a ∈ l, f a = .ok () := by
  induction l with
  | nil => exact ⟨fun _ a ha => absurd ha List.not_mem_nil, fun _ => rfl⟩
  | cons a l ih =>
      show (f a >>= fun _ => l.forM f) = _ ↔ _
      rw [bind_ok_iff, List.forall_mem_cons]
      constructor
      · rintro ⟨⟨⟩, ha, hl⟩
        exact ⟨ha, ih.mp hl⟩
      · rintro ⟨ha, hl⟩
        exact ⟨(), ha, ih.mpr hl⟩

/-- A fold whose steps do not panic does not panic. -/
theorem foldlM_ne_panic {σ : Type} {f : σ → α → Outcome ε σ} {l : List α}
    (hf : ∀ s, ∀ a ∈ l, f s a ≠ panic) (s : σ) : l.foldlM f s ≠ panic := by
  induction l generalizing s with
  | nil => exact ok_ne_panic s
  | cons a l ih =>
      rw [List.foldlM_cons]
      refine bind_ne_panic (hf s a List.mem_cons_self) fun s' _ => ?_
      exact ih (fun s a ha => hf s a (List.mem_cons_of_mem _ ha)) s'

/-- A fold that answers keeps what its steps keep; the invariant may speak of the part of the
list that is done. -/
theorem foldlM_invariant {σ : Type} {f : σ → α → Outcome ε σ} (I : List α → σ → Prop)
    (done : List α) {l : List α}
    (hstep : ∀ done a s s', a ∈ l → I done s → f s a = ok s' → I (done ++ [a]) s')
    {s s' : σ} (hs : I done s) (h : l.foldlM f s = ok s') : I (done ++ l) s' := by
  induction l generalizing done s with
  | nil =>
      cases h
      rwa [List.append_nil]
  | cons a l ih =>
      rw [List.foldlM_cons, bind_ok_iff] at h
      obtain ⟨s₁, hfirst, hlater⟩ := h
      rw [List.append_cons]
      exact ih (done ++ [a]) (fun d b t t' hb => hstep d b t t' (List.mem_cons_of_mem a hb))
        (hstep done a s s₁ List.mem_cons_self hs hfirst) hlater

/-- A fold whose steps append to a list. -/
theorem foldlM_appends {f : List β → α → Outcome ε (List β)} {g : α → List β} {l : List α}
    (hf : ∀ s, ∀ a ∈ l, f s a = ok (s ++ g a)) (s : List β) :
    l.foldlM f s = ok (s ++ l.flatMap g) := by
  induction l generalizing s with
  | nil => exact congrArg ok (List.append_nil s).symm
  | cons a l ih =>
      rw [List.foldlM_cons, hf s a List.mem_cons_self, ok_bind,
        ih (fun s b hb => hf s b (List.mem_cons_of_mem a hb)), List.flatMap_cons, List.append_assoc]

/-- In a fold that answers, every step does. -/
theorem foldlM_steps {σ : Type} {f : σ → α → Outcome ε σ} {l : List α} {s s' : σ}
    (h : l.foldlM f s = ok s') {a : α} (ha : a ∈ l) : ∃ t t', f t a = ok t' := by
  refine foldlM_invariant (fun done _ => ∀ a ∈ done, ∃ t t', f t a = ok t') [] ?_
    (fun _ hb => absurd hb List.not_mem_nil) h a ha
  intro done b t t' _ hdone hstep c hc
  rcases List.mem_append.mp hc with hold | hnew
  · exact hdone c hold
  · rw [List.mem_singleton.mp hnew]
    exact ⟨t, t', hstep⟩

end Outcome

/-- A call without a `Result`: it returns or panics. -/
abbrev Call (α : Type) : Type := Outcome Empty α

/-- A computation on a state `σ`. -/
def Prog (σ ε α : Type) : Type := σ → Outcome ε (α × σ)

namespace Prog

variable {σ ε α β : Type}

instance : Monad (Prog σ ε) where
  pure a := fun s => .ok (a, s)
  bind p f := fun s => p s >>= fun r => f r.1 r.2

/-- Read the state. -/
def read : Prog σ ε σ := fun s => .ok (s, s)

/-- Replace the state. -/
def write (s : σ) : Prog σ ε Unit := fun _ => .ok ((), s)

/-- Run a stateless computation. -/
def lift (x : Outcome ε α) : Prog σ ε α := fun s => x >>= fun a => .ok (a, s)

def fail (e : ε) : Prog σ ε α := fun _ => .err e

def panic : Prog σ ε α := fun _ => .panic

def failIf (c : Prop) [Decidable c] (e : ε) : Prog σ ε Unit := lift (Outcome.failIf c e)

def assert (c : Prop) [Decidable c] : Prog σ ε Unit := lift (Outcome.assert c)

/-- Fail unless the condition holds; the caller keeps its proof. -/
def ensure (c : Prop) [Decidable c] (e : ε) : Prog σ ε (PLift c) :=
  fun s => if h : c then .ok (⟨h⟩, s) else .err e

/-- `a - b` on an unsigned type: a result below zero panics. -/
def checkedSub (a b : Nat) : Prog σ ε Nat := lift (if b ≤ a then .ok (a - b) else .panic)

/-! ## Splitting a run that answered -/

theorem bind_ok_iff {p : Prog σ ε α} {f : α → Prog σ ε β} {s s'' : σ} {b : β} :
    (p >>= f) s = .ok (b, s'') ↔ ∃ a s', p s = .ok (a, s') ∧ f a s' = .ok (b, s'') := by
  show (p s >>= fun r => f r.1 r.2) = _ ↔ _
  rw [Outcome.bind_ok_iff]
  constructor
  · rintro ⟨⟨a, s'⟩, h, h'⟩
    exact ⟨a, s', h, h'⟩
  · rintro ⟨a, s', h, h'⟩
    exact ⟨(a, s'), h, h'⟩

/-- Once the first half has answered, the run goes on from its state. -/
theorem bind_of_ok {p : Prog σ ε α} {f : α → Prog σ ε β} {s s' : σ} {a : α}
    (h : p s = .ok (a, s')) : (p >>= f) s = f a s' := by
  show (p s >>= fun r => f r.1 r.2) = _
  rw [h]; rfl

theorem bind_of_err {p : Prog σ ε α} {f : α → Prog σ ε β} {s : σ} {e : ε} (h : p s = .err e) :
    (p >>= f) s = .err e := by
  show (p s >>= fun r => f r.1 r.2) = _
  rw [h]; rfl

theorem bind_of_panic {p : Prog σ ε α} {f : α → Prog σ ε β} {s : σ} (h : p s = .panic) :
    (p >>= f) s = .panic := by
  show (p s >>= fun r => f r.1 r.2) = _
  rw [h]; rfl

@[simp] theorem pure_ok_iff {a b : α} {s s' : σ} :
    (pure a : Prog σ ε α) s = .ok (b, s') ↔ a = b ∧ s = s' := by
  show Outcome.ok (a, s) = _ ↔ _
  simp

@[simp] theorem read_ok_iff {s s' t : σ} :
    (read : Prog σ ε σ) s = .ok (t, s') ↔ s = t ∧ s = s' := by
  show Outcome.ok (s, s) = _ ↔ _
  simp

@[simp] theorem write_ok_iff {s s' t : σ} {u : Unit} :
    (write t : Prog σ ε Unit) s = .ok (u, s') ↔ t = s' := by
  show Outcome.ok ((), t) = _ ↔ _
  simp

@[simp] theorem lift_ok_iff {x : Outcome ε α} {s s' : σ} {a : α} :
    (lift x : Prog σ ε α) s = .ok (a, s') ↔ x = .ok a ∧ s = s' := by
  show (x >>= fun a => Outcome.ok (a, s)) = _ ↔ _
  rw [Outcome.bind_ok_iff]
  constructor
  · rintro ⟨b, h, h'⟩
    cases h'
    exact ⟨h, rfl⟩
  · rintro ⟨h, rfl⟩
    exact ⟨a, h, rfl⟩

@[simp] theorem fail_ok_iff {e : ε} {s s' : σ} {a : α} :
    (fail e : Prog σ ε α) s = .ok (a, s') ↔ False := by
  show Outcome.err e = _ ↔ _
  simp

@[simp] theorem panic_ok_iff {s s' : σ} {a : α} :
    (panic : Prog σ ε α) s = .ok (a, s') ↔ False := by
  show Outcome.panic = _ ↔ _
  simp

@[simp] theorem failIf_ok_iff {c : Prop} [Decidable c] {e : ε} {s s' : σ} {u : Unit} :
    (failIf c e : Prog σ ε Unit) s = .ok (u, s') ↔ ¬ c ∧ s = s' := by
  simp [failIf]

theorem failIf_err {c : Prop} [Decidable c] {e : ε} {s : σ} (hc : c) :
    (failIf c e : Prog σ ε Unit) s = .err e := by
  show (Outcome.failIf c e >>= fun a => Outcome.ok (a, s)) = _
  rw [Outcome.failIf, if_pos hc]
  rfl

@[simp] theorem assert_ok_iff {c : Prop} [Decidable c] {s s' : σ} {u : Unit} :
    (assert c : Prog σ ε Unit) s = .ok (u, s') ↔ c ∧ s = s' := by
  simp [assert]

@[simp] theorem ensure_ok_iff {c : Prop} [Decidable c] {e : ε} {s s' : σ} {h : PLift c} :
    (ensure c e : Prog σ ε (PLift c)) s = .ok (h, s') ↔ s = s' := by
  have hrun : (ensure c e : Prog σ ε (PLift c)) s = .ok (h, s) := dif_pos h.down
  rw [hrun, Outcome.ok.injEq, Prod.mk.injEq]
  exact and_iff_right rfl

@[simp] theorem checkedSub_ok_iff {a b n : Nat} {s s' : σ} :
    (checkedSub a b : Prog σ ε Nat) s = .ok (n, s') ↔ (b ≤ a ∧ a - b = n) ∧ s = s' := by
  unfold checkedSub
  rw [lift_ok_iff]
  by_cases h : b ≤ a
  · simp [h]
  · simp [h]

/-! ## Runs that do not panic -/

/-- The run of `p` from `s` answers or fails. -/
def Safe (p : Prog σ ε α) (s : σ) : Prop := p s ≠ .panic

theorem Safe.bind {p : Prog σ ε α} {f : α → Prog σ ε β} {s : σ} (hp : Safe p s)
    (hf : ∀ a s', p s = .ok (a, s') → Safe (f a) s') : Safe (p >>= f) s := by
  show (p s >>= fun r => f r.1 r.2) ≠ _
  exact Outcome.bind_ne_panic hp fun r hr => hf r.1 r.2 hr

@[simp] theorem safe_pure (a : α) (s : σ) : Safe (pure a : Prog σ ε α) s := by
  show Outcome.ok (a, s) ≠ _
  simp

@[simp] theorem safe_read (s : σ) : Safe (read : Prog σ ε σ) s := by
  show Outcome.ok (s, s) ≠ _
  simp

@[simp] theorem safe_write (s t : σ) : Safe (write t : Prog σ ε Unit) s := by
  show Outcome.ok ((), t) ≠ _
  simp

@[simp] theorem safe_fail (e : ε) (s : σ) : Safe (fail e : Prog σ ε α) s := by
  show Outcome.err e ≠ _
  simp

@[simp] theorem safe_failIf (c : Prop) [Decidable c] (e : ε) (s : σ) :
    Safe (failIf c e : Prog σ ε Unit) s := by
  show ((Outcome.failIf c e : Outcome ε Unit) >>= fun a => Outcome.ok (a, s)) ≠ _
  exact Outcome.bind_ne_panic Outcome.failIf_ne_panic fun _ _ => by simp

@[simp] theorem safe_ensure (c : Prop) [Decidable c] (e : ε) (s : σ) :
    Safe (ensure c e : Prog σ ε (PLift c)) s := by
  intro h
  by_cases hc : c
  · have hrun : (ensure c e : Prog σ ε (PLift c)) s = .ok (⟨hc⟩, s) := dif_pos hc
    cases hrun.symm.trans h
  · have hrun : (ensure c e : Prog σ ε (PLift c)) s = .err e := dif_neg hc
    cases hrun.symm.trans h

theorem safe_lift {x : Outcome ε α} (h : x ≠ .panic) (s : σ) : Safe (lift x : Prog σ ε α) s := by
  show (x >>= fun a => Outcome.ok (a, s)) ≠ _
  exact Outcome.bind_ne_panic h fun _ _ => by simp

theorem safe_checkedSub {a b : Nat} (h : b ≤ a) (s : σ) :
    Safe (checkedSub a b : Prog σ ε Nat) s := by
  show ((if b ≤ a then Outcome.ok (a - b) else Outcome.panic) >>= fun n => Outcome.ok (n, s)) ≠ _
  rw [if_pos h]
  simp

end Prog

end Roughenough.Base
