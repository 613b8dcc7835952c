/-
# `Roughenough.Base.Delivery` — posting until there is an answer

Any number of callers post to one service, each a request of its own, over a
network that delays, reorders and loses what it carries.  A caller that runs
out of time, or gets an answer that it does not accept, rests and posts again
for as long as its policy says so.  Whether an unanswered post has arrived it
cannot know.

    post, arrive, answer, timeOut, rest     what may happen, in any order
    Policy                                  what is done about the n-th failure

A post arrives at most once (`System.Runs.arrived`), and what arrives is handled
in some order, one at a time (`System.Runs.service_eq`).  A caller that is done
has been answered (`System.Runs.done`), so its request has arrived: once at
least, and once for each of its posts at most.  Where a caller is in its policy
is a matter of how often it has posted (`System.Runs.follows`).
-/
import Mathlib.Algebra.Ring.Nat
import Roughenough.Base.Traces

namespace Roughenough.Base.Delivery

/-! ## Policies -/

/-- What a caller does about a post that failed: it rests, and then goes on or panics; or it gives
up, or panics at once. -/
inductive Verdict (τ : Type) where
  | rest (secs : Nat) (next : Option τ)
  | giveUp
  | panic

structure Policy (τ : Type) where
  first : τ
  failed : τ → Verdict τ

namespace Policy

variable {τ : Type} (P : Policy τ)

/-- Where a caller goes on after a failure, if it does. -/
def goOn (t : τ) : Option τ :=
  match P.failed t with
  | .rest _ next => next
  | .giveUp => none
  | .panic => none

/-- Where a caller stands after `n` failures. -/
def after : Nat → Option τ
  | 0 => some P.first
  | n + 1 => (after n).bind P.goOn

/-- The rest behind the failure of the `n`-th post, counted from zero. -/
def pause (n : Nat) : Nat :=
  match (P.after n).map P.failed with
  | some (.rest secs _) => secs
  | _ => 0

def pauses (n : Nat) : List Nat := (List.range n).map P.pause

variable {P}

theorem pauses_succ {n secs : Nat} {t : τ} {next : Option τ} (ht : P.after n = some t)
    (hfailed : P.failed t = .rest secs next) : P.pauses (n + 1) = P.pauses n ++ [secs] := by
  have hpause : P.pause n = secs := by
    unfold pause
    rw [ht, Option.map_some, hfailed]
  unfold pauses
  rw [List.range_succ, List.map_append, List.map_singleton, hpause]

theorem after_succ {n secs : Nat} {t : τ} {next : Option τ} (ht : P.after n = some t)
    (hfailed : P.failed t = .rest secs next) : P.after (n + 1) = next := by
  rw [after, ht, Option.bind_some, goOn, hfailed]

theorem goOn_eq_some_iff {t t' : τ} :
    P.goOn t = some t' ↔ ∃ secs, P.failed t = .rest secs (some t') := by
  unfold goOn
  cases P.failed t with
  | rest secs next => simp
  | giveUp => simp
  | panic => simp

/-- A caller that has come so far has rested after each of its failures. -/
theorem rest_of_lt {n k : Nat} {t : τ} (h : P.after n = some t) (hk : k < n) :
    ∃ t' secs next, P.after k = some t' ∧ P.failed t' = .rest secs next := by
  induction n generalizing t with
  | zero => exact absurd hk (Nat.not_lt_zero k)
  | succ n ih =>
      obtain ⟨t₀, ht₀, hgo⟩ := Option.bind_eq_some_iff.mp h
      rcases Nat.lt_succ_iff_lt_or_eq.mp hk with hlt | rfl
      · exact ih ht₀ hlt
      · obtain ⟨secs, hrest⟩ := goOn_eq_some_iff.mp hgo
        exact ⟨t₀, secs, _, ht₀, hrest⟩

theorem getElem?_pauses {n k secs : Nat}
    (hrests : ∀ j < n, ∃ t secs next, P.after j = some t ∧ P.failed t = .rest secs next)
    (hk : (P.pauses n)[k]? = some secs) :
    ∃ t next, P.after k = some t ∧ P.failed t = .rest secs next := by
  unfold pauses at hk
  rw [List.getElem?_map, Option.map_eq_some_iff] at hk
  obtain ⟨j, hrange, hpause⟩ := hk
  obtain ⟨hlt, hj⟩ := List.getElem?_eq_some_iff.mp hrange
  rw [List.length_range] at hlt
  rw [List.getElem_range] at hj
  subst hj
  obtain ⟨t, secs', next, ht, hfailed⟩ := hrests k hlt
  unfold pause at hpause
  rw [ht, Option.map_some, hfailed] at hpause
  exact ⟨t, next, ht, hpause ▸ hfailed⟩

end Policy

/-! ## The system -/

inductive Caller (τ : Type) where
  | ready (t : τ)
  | waiting (t : τ)
  | resting (secs : Nat) (next : Option τ)
  | done
  | gaveUp
  | panicked

def Verdict.caller {τ : Type} : Verdict τ → Caller τ
  | .rest secs next => .resting secs next
  | .giveUp => .gaveUp
  | .panic => .panicked

/-- After a rest. -/
def Caller.woken {τ : Type} : Option τ → Caller τ
  | some t => .ready t
  | none => .panicked

/-- Requests `ρ` to a service with states `σ`.  With a request comes an `ι` that the service finds
or draws when it arrives; there may be no answer. -/
structure System (σ ρ ι β τ : Type) where
  handle : σ → ρ → ι → σ × Option β
  request : Nat → ρ
  policy : Nat → Policy τ
  accepts : β → Bool

/-- A post is known by its caller and its number. -/
structure World (σ τ β : Type) where
  service : σ
  callers : Nat → Caller τ
  posted : Nat → Nat
  flying : List (Nat × Nat)
  answers : List ((Nat × Nat) × β)

inductive Exchange (ι β : Type) where
  | post (c : Nat)
  | arrive (c n : Nat) (i : ι)
  | answer (c : Nat) (b : β)
  | timeOut (c : Nat)
  | rest (c secs : Nat)

namespace System

variable {σ ρ ι β τ : Type} (S : System σ ρ ι β τ)

def init (s₀ : σ) : World σ τ β where
  service := s₀
  callers c := .ready (S.policy c).first
  posted _ := 0
  flying := []
  answers := []

/-- What becomes of a caller whose post failed. -/
def failure (c : Nat) (t : τ) : Caller τ := ((S.policy c).failed t).caller

/-- A post that is lost does not arrive, and an answer that is lost is not received. -/
inductive Step : World σ τ β → Exchange ι β → World σ τ β → Prop
  | post {w : World σ τ β} {c : Nat} {t : τ} : w.callers c = .ready t →
      Step w (.post c) { w with
        callers := Function.update w.callers c (.waiting t)
        posted := Function.update w.posted c (w.posted c + 1)
        flying := (c, w.posted c) :: w.flying }
  | arrive {w : World σ τ β} {c n : Nat} (i : ι) : (c, n) ∈ w.flying →
      Step w (.arrive c n i) { w with
        service := (S.handle w.service (S.request c) i).1
        flying := w.flying.erase (c, n)
        answers := (S.handle w.service (S.request c) i).2.toList.map (((c, n), ·)) ++ w.answers }
  | answer {w : World σ τ β} {c n : Nat} {t : τ} {b : β} : w.callers c = .waiting t →
      w.posted c = n + 1 → ((c, n), b) ∈ w.answers →
      Step w (.answer c b) { w with
        callers := Function.update w.callers c (if S.accepts b then .done else S.failure c t) }
  | timeOut {w : World σ τ β} {c : Nat} {t : τ} : w.callers c = .waiting t →
      Step w (.timeOut c) { w with callers := Function.update w.callers c (S.failure c t) }
  | rest {w : World σ τ β} {c secs : Nat} {next : Option τ} :
      w.callers c = .resting secs next →
      Step w (.rest c secs) { w with callers := Function.update w.callers c (.woken next) }

def Runs (s₀ : σ) (exchanges : List (Exchange ι β)) (w : World σ τ β) : Prop :=
  Trace S.Step (S.init s₀) exchanges w

end System

/-! ## What a run has seen -/

section Seen

variable {ι β : Type}

def Exchange.posts (c : Nat) : Exchange ι β → Nat
  | .post c' => if c' = c then 1 else 0
  | .arrive _ _ _ => 0
  | .answer _ _ => 0
  | .timeOut _ => 0
  | .rest _ _ => 0

def Exchange.arrivals : Exchange ι β → List (Nat × ι)
  | .post _ => []
  | .arrive c _ i => [(c, i)]
  | .answer _ _ => []
  | .timeOut _ => []
  | .rest _ _ => []

def Exchange.rests (c : Nat) : Exchange ι β → List Nat
  | .post _ => []
  | .arrive _ _ _ => []
  | .answer _ _ => []
  | .timeOut _ => []
  | .rest c' secs => if c' = c then [secs] else []

/-- How often a caller has posted. -/
def posts (c : Nat) (exchanges : List (Exchange ι β)) : Nat := (exchanges.map (Exchange.posts c)).sum

/-- What has arrived, in order. -/
def arrivals (exchanges : List (Exchange ι β)) : List (Nat × ι) :=
  exchanges.flatMap Exchange.arrivals

/-- How often the request of a caller has. -/
def arrived (c : Nat) (exchanges : List (Exchange ι β)) : Nat :=
  (arrivals exchanges).countP fun a => a.1 = c

/-- The rests of a caller. -/
def rests (c : Nat) (exchanges : List (Exchange ι β)) : List Nat :=
  exchanges.flatMap (Exchange.rests c)

variable {exchanges : List (Exchange ι β)} {a : Exchange ι β}

theorem posts_concat (c : Nat) : posts c (exchanges ++ [a]) = posts c exchanges + a.posts c := by
  unfold posts
  rw [List.map_append, List.sum_append, List.map_singleton, List.sum_singleton]

theorem arrivals_concat : arrivals (exchanges ++ [a]) = arrivals exchanges ++ a.arrivals := by
  unfold arrivals
  rw [List.flatMap_append, List.flatMap_singleton]

theorem rests_concat (c : Nat) : rests c (exchanges ++ [a]) = rests c exchanges ++ a.rests c := by
  unfold rests
  rw [List.flatMap_append, List.flatMap_singleton]

end Seen

/-! ## What every run keeps -/

namespace System

variable {σ ρ ι β τ : Type} {S : System σ ρ ι β τ} {s₀ : σ} {exchanges : List (Exchange ι β)}
  {w w' : World σ τ β} {a : Exchange ι β}

/-- The service after some arrivals. -/
def serve (S : System σ ρ ι β τ) (s₀ : σ) (arrivals : List (Nat × ι)) : σ :=
  arrivals.foldl (fun s x => (S.handle s (S.request x.1) x.2).1) s₀

/-- What arrives is handled in its order, and nothing else touches the service. -/
theorem Runs.service_eq (h : S.Runs s₀ exchanges w) :
    w.service = S.serve s₀ (arrivals exchanges) := by
  refine Trace.invariant (fun done (v : World σ τ β) => v.service = S.serve s₀ (arrivals done))
    rfl ?_ h
  intro done v a v' _ hv hstep
  rw [arrivals_concat, serve, List.foldl_append]
  show v'.service = a.arrivals.foldl _ (S.serve s₀ (arrivals done))
  rw [← hv]
  cases hstep with
  | post hready => rfl
  | arrive i hflying => rfl
  | answer hwaiting hn hanswer => rfl
  | timeOut hwaiting => rfl
  | rest hresting => rfl

theorem Runs.posted_eq (h : S.Runs s₀ exchanges w) (c : Nat) : w.posted c = posts c exchanges := by
  refine Trace.invariant (fun done (v : World σ τ β) => v.posted c = posts c done) rfl ?_ h
  intro done v a v' _ hv hstep
  rw [posts_concat, ← hv]
  cases hstep with
  | @post c' t hready =>
      show Function.update v.posted c' (v.posted c' + 1) c = v.posted c + if c' = c then 1 else 0
      by_cases hc : c' = c
      · subst hc
        rw [Function.update_self, if_pos rfl]
      · rw [Function.update_of_ne (Ne.symm hc), if_neg hc, Nat.add_zero]
  | arrive i hflying => rfl
  | answer hwaiting hn hanswer => rfl
  | timeOut hwaiting => rfl
  | rest hresting => rfl

/-- Every post has arrived or is on its way, for ever when it is lost. -/
theorem Runs.arrived_add (h : S.Runs s₀ exchanges w) (c : Nat) :
    arrived c exchanges + (w.flying.countP fun f => f.1 = c) = posts c exchanges := by
  refine Trace.invariant (fun done (v : World σ τ β) =>
    arrived c done + (v.flying.countP fun f => f.1 = c) = posts c done) rfl ?_ h
  intro done v a v' _ hv hstep
  rw [posts_concat, ← hv]
  unfold arrived
  rw [arrivals_concat, List.countP_append]
  cases hstep with
  | @post c' t hready =>
      show _ + 0 + ((c', v.posted c') :: v.flying).countP _ = _ + if c' = c then 1 else 0
      rw [List.countP_cons]
      simp only [decide_eq_true_eq]
      omega
  | @arrive c' n i hflying =>
      have hsplit := (List.perm_cons_erase hflying).countP_eq fun f => decide (f.1 = c)
      rw [List.countP_cons] at hsplit
      show _ + [(c', i)].countP _ + (v.flying.erase (c', n)).countP _ = _ + 0
      rw [List.countP_singleton, hsplit]
      simp only [decide_eq_true_eq]
      omega
  | answer hwaiting hn hanswer => rfl
  | timeOut hwaiting => rfl
  | rest hresting => rfl

/-- A post arrives once at most. -/
theorem Runs.arrived (h : S.Runs s₀ exchanges w) (c : Nat) :
    arrived c exchanges ≤ posts c exchanges :=
  h.arrived_add c ▸ Nat.le_add_right _ _

/-- An answer is one that the service gave to a request of this caller, when it arrived. -/
def Given (S : System σ ρ ι β τ) (s₀ : σ) (arrivals : List (Nat × ι)) (c : Nat) (b : β) : Prop :=
  ∃ pre i, pre ++ [(c, i)] <+: arrivals ∧ (S.handle (S.serve s₀ pre) (S.request c) i).2 = some b

theorem Given.mono {xs ys : List (Nat × ι)} {c : Nat} {b : β} (h : S.Given s₀ xs c b)
    (hxs : xs <+: ys) : S.Given s₀ ys c b := by
  obtain ⟨pre, i, hpre, hb⟩ := h
  exact ⟨pre, i, hpre.trans hxs, hb⟩

theorem Runs.answers_given (h : S.Runs s₀ exchanges w) :
    ∀ x ∈ w.answers, S.Given s₀ (arrivals exchanges) x.1.1 x.2 := by
  refine Trace.invariant (fun done (v : World σ τ β) =>
    ∀ x ∈ v.answers, S.Given s₀ (arrivals done) x.1.1 x.2) ?_ ?_ h
  · intro x hx
    cases hx
  · intro done v a v' hdone hv hstep
    have hold : ∀ x ∈ v.answers, S.Given s₀ (arrivals (done ++ [a])) x.1.1 x.2 := by
      intro x hx
      refine (hv x hx).mono ?_
      rw [arrivals_concat]
      exact List.prefix_append _ _
    cases hstep with
    | post hready => exact hold
    | @arrive c n i hflying =>
        intro x hx
        rcases List.mem_append.mp hx with hnew | hx
        · obtain ⟨b, hb, rfl⟩ := List.mem_map.mp hnew
          refine ⟨arrivals done, i, ?_, ?_⟩
          · rw [arrivals_concat]
            exact List.prefix_refl _
          · rw [← Runs.service_eq hdone]
            exact Option.mem_toList.mp hb
        · exact hold x hx
    | answer hwaiting hn hanswer => exact hold
    | timeOut hwaiting => exact hold
    | rest hresting => exact hold

/-! ## Where a caller stands -/

/-- A caller that has posted `posted` times and rested as often as it did. -/
def Follows (P : Policy τ) (posted : Nat) (rests : List Nat) : Caller τ → Prop
  | .ready t => P.after posted = some t ∧ rests = P.pauses posted
  | .waiting t => ∃ n, posted = n + 1 ∧ P.after n = some t ∧ rests = P.pauses n
  | .resting secs next => ∃ n t, posted = n + 1 ∧ P.after n = some t ∧
      P.failed t = .rest secs next ∧ rests = P.pauses n
  | .done => ∃ n t, posted = n + 1 ∧ P.after n = some t ∧ rests = P.pauses n
  | .gaveUp => ∃ n t, posted = n + 1 ∧ P.after n = some t ∧ P.failed t = .giveUp ∧
      rests = P.pauses n
  | .panicked => ∃ n t, posted = n + 1 ∧ P.after n = some t ∧
      (P.failed t = .panic ∧ rests = P.pauses n ∨
        ∃ secs, P.failed t = .rest secs none ∧ rests = P.pauses (n + 1))

/-- A failure leads where the policy says. -/
theorem Follows.failure {P : Policy τ} {n : Nat} {t : τ} {rests : List Nat}
    (ht : P.after n = some t) (hrests : rests = P.pauses n) :
    Follows P (n + 1) rests (P.failed t).caller := by
  cases hfailed : P.failed t with
  | rest secs next => exact ⟨n, t, rfl, ht, hfailed, hrests⟩
  | giveUp => exact ⟨n, t, rfl, ht, hfailed, hrests⟩
  | panic => exact ⟨n, t, rfl, ht, .inl ⟨hfailed, hrests⟩⟩

theorem Follows.woken {P : Policy τ} {n secs : Nat} {t : τ} {next : Option τ} {rests : List Nat}
    (ht : P.after n = some t) (hfailed : P.failed t = .rest secs next)
    (hrests : rests = P.pauses n) : Follows P (n + 1) (rests ++ [secs]) (.woken next) := by
  have hpauses : rests ++ [secs] = P.pauses (n + 1) := by
    rw [Policy.pauses_succ ht hfailed, hrests]
  cases next with
  | none => exact ⟨n, t, rfl, ht, .inr ⟨secs, hfailed, hpauses⟩⟩
  | some t' => exact ⟨Policy.after_succ ht hfailed, hpauses⟩

/-- A caller has failed as often as it has posted, or is about to hear of the last post. -/
theorem Follows.posted {P : Policy τ} {posted : Nat} {rests : List Nat} {caller : Caller τ}
    (h : Follows P posted rests caller) :
    (∃ t, P.after posted = some t) ∨ ∃ n t, posted = n + 1 ∧ P.after n = some t := by
  cases caller with
  | ready t => exact .inl ⟨t, h.1⟩
  | waiting t =>
      obtain ⟨n, hn, ht, -⟩ := h
      exact .inr ⟨n, t, hn, ht⟩
  | resting secs next =>
      obtain ⟨n, t, hn, ht, -⟩ := h
      exact .inr ⟨n, t, hn, ht⟩
  | done =>
      obtain ⟨n, t, hn, ht, -⟩ := h
      exact .inr ⟨n, t, hn, ht⟩
  | gaveUp =>
      obtain ⟨n, t, hn, ht, -⟩ := h
      exact .inr ⟨n, t, hn, ht⟩
  | panicked =>
      obtain ⟨n, t, hn, ht, -⟩ := h
      exact .inr ⟨n, t, hn, ht⟩

/-- Each rest is the one that the policy has behind that failure. -/
theorem Follows.rested {P : Policy τ} {posted k secs : Nat} {rests : List Nat} {caller : Caller τ}
    (h : Follows P posted rests caller) (hk : rests[k]? = some secs) :
    ∃ t next, P.after k = some t ∧ P.failed t = .rest secs next := by
  cases caller with
  | ready t =>
      obtain ⟨ht, rfl⟩ := h
      exact Policy.getElem?_pauses (fun _ hj => Policy.rest_of_lt ht hj) hk
  | waiting t =>
      obtain ⟨n, -, ht, rfl⟩ := h
      exact Policy.getElem?_pauses (fun _ hj => Policy.rest_of_lt ht hj) hk
  | resting secs next =>
      obtain ⟨n, t, -, ht, -, rfl⟩ := h
      exact Policy.getElem?_pauses (fun _ hj => Policy.rest_of_lt ht hj) hk
  | done =>
      obtain ⟨n, t, -, ht, rfl⟩ := h
      exact Policy.getElem?_pauses (fun _ hj => Policy.rest_of_lt ht hj) hk
  | gaveUp =>
      obtain ⟨n, t, -, ht, -, rfl⟩ := h
      exact Policy.getElem?_pauses (fun _ hj => Policy.rest_of_lt ht hj) hk
  | panicked =>
      obtain ⟨n, t, -, ht, ⟨-, rfl⟩ | ⟨last, hfailed, rfl⟩⟩ := h
      · exact Policy.getElem?_pauses (fun _ hj => Policy.rest_of_lt ht hj) hk
      · refine Policy.getElem?_pauses ?_ hk
        intro j hj
        rcases Nat.lt_succ_iff_lt_or_eq.mp hj with hlt | rfl
        · exact Policy.rest_of_lt ht hlt
        · exact ⟨t, last, none, ht, hfailed⟩

/-- A step of one caller. -/
theorem Step.follows (hstep : S.Step w a w') {c : Nat} {rests : List Nat}
    (hw : Follows (S.policy c) (w.posted c) rests (w.callers c)) :
    Follows (S.policy c) (w'.posted c) (rests ++ a.rests c) (w'.callers c) := by
  cases hstep with
  | @post c' t hready =>
      show Follows _ (Function.update w.posted c' (w.posted c' + 1) c) (rests ++ [])
        (Function.update w.callers c' (.waiting t) c)
      rw [List.append_nil]
      by_cases hc : c = c'
      · subst hc
        rw [hready] at hw
        rw [Function.update_self, Function.update_self]
        exact ⟨_, rfl, hw⟩
      · rw [Function.update_of_ne hc, Function.update_of_ne hc]
        exact hw
  | arrive i hflying =>
      show Follows _ _ (rests ++ []) _
      rw [List.append_nil]
      exact hw
  | @answer c' n t b hwaiting hn hanswer =>
      show Follows _ _ (rests ++ []) (Function.update w.callers c' _ c)
      rw [List.append_nil]
      by_cases hc : c = c'
      · subst hc
        rw [hwaiting] at hw
        obtain ⟨n', hn', ht, hrests⟩ := hw
        rw [Function.update_self, hn']
        split
        · exact ⟨n', t, rfl, ht, hrests⟩
        · exact Follows.failure ht hrests
      · rw [Function.update_of_ne hc]
        exact hw
  | @timeOut c' t hwaiting =>
      show Follows _ _ (rests ++ []) (Function.update w.callers c' _ c)
      rw [List.append_nil]
      by_cases hc : c = c'
      · subst hc
        rw [hwaiting] at hw
        obtain ⟨n, hn, ht, hrests⟩ := hw
        rw [Function.update_self, hn]
        exact Follows.failure ht hrests
      · rw [Function.update_of_ne hc]
        exact hw
  | @rest c' secs next hresting =>
      show Follows _ _ (rests ++ if c' = c then [secs] else [])
        (Function.update w.callers c' _ c)
      by_cases hc : c = c'
      · subst hc
        rw [hresting] at hw
        obtain ⟨n, t, hn, ht, hfailed, hrests⟩ := hw
        rw [Function.update_self, if_pos rfl, hn]
        exact Follows.woken ht hfailed hrests
      · rw [Function.update_of_ne hc, if_neg (Ne.symm hc), List.append_nil]
        exact hw

/-- In every run each caller is where its policy has it, for the number of its posts. -/
theorem Runs.follows (h : S.Runs s₀ exchanges w) (c : Nat) :
    Follows (S.policy c) (posts c exchanges) (rests c exchanges) (w.callers c) := by
  rw [← h.posted_eq c]
  refine Trace.invariant (fun done (v : World σ τ β) =>
    Follows (S.policy c) (v.posted c) (rests c done) (v.callers c)) ?_ ?_ h
  · exact ⟨rfl, rfl⟩
  · intro done v a v' _ hv hstep
    rw [rests_concat]
    exact hstep.follows hv

/-- Only the caller that takes a step can be done by it. -/
theorem update_eq_done {callers : Nat → Caller τ} {c c' : Nat} {x : Caller τ}
    (hbefore : callers c ≠ .done) (h : Function.update callers c' x c = .done) :
    c = c' ∧ x = .done := by
  by_cases hc : c = c'
  · subst hc
    rw [Function.update_self] at h
    exact ⟨rfl, h⟩
  · rw [Function.update_of_ne hc] at h
    exact absurd h hbefore

theorem failure_ne_done (c : Nat) (t : τ) : S.failure c t ≠ .done := by
  intro h
  unfold failure at h
  cases hfailed : (S.policy c).failed t with
  | rest secs next =>
      rw [hfailed] at h
      cases h
  | giveUp =>
      rw [hfailed] at h
      cases h
  | panic =>
      rw [hfailed] at h
      cases h

/-- A caller is done when it was given an answer that it accepts, and not before. -/
theorem Runs.done (h : S.Runs s₀ exchanges w) {c : Nat} (hdone : w.callers c = .done) :
    ∃ b, S.Given s₀ (arrivals exchanges) c b ∧ S.accepts b = true := by
  refine Trace.invariant (fun done (v : World σ τ β) => v.callers c = .done →
    ∃ b, S.Given s₀ (arrivals done) c b ∧ S.accepts b = true) ?_ ?_ h hdone
  · intro hstart
    cases hstart
  · intro done v a v' hrun hv hstep hdone'
    have hlater : ∀ {b}, S.Given s₀ (arrivals done) c b →
        S.Given s₀ (arrivals (done ++ [a])) c b := by
      intro b hb
      refine hb.mono ?_
      rw [arrivals_concat]
      exact List.prefix_append _ _
    -- who was done before still is, and only an answer makes another caller done
    by_cases hbefore : v.callers c = .done
    · obtain ⟨b, hb, haccept⟩ := hv hbefore
      exact ⟨b, hlater hb, haccept⟩
    · cases hstep with
      | post hready => cases (update_eq_done hbefore hdone').2
      | arrive i hflying => exact absurd hdone' hbefore
      | @answer c' n t b hwaiting hn hanswer =>
          obtain ⟨rfl, hx⟩ := update_eq_done hbefore hdone'
          split at hx
          · next haccept => exact ⟨b, hlater (Runs.answers_given hrun _ hanswer), haccept⟩
          · exact absurd hx (failure_ne_done c t)
      | timeOut hwaiting =>
          exact absurd (update_eq_done hbefore hdone').2 (failure_ne_done _ _)
      | @rest c' secs next hresting =>
          have hx := (update_eq_done hbefore hdone').2
          cases next with
          | none => cases hx
          | some t => cases hx

end System

end Roughenough.Base.Delivery
