/-
# `Roughenough.Server.Histogram` — the batch sizes that were counted

`batch_sizes` of `metrics/types.rs`: 64 slots, one for each size of a batch.
The slots are added up at three places, and are `u8` at all of them:

    worker          add_batch_size, since the last reset
    accumulator     add_assign of the snapshots of one worker, since the start
    totals          add_assign of the accumulators of all workers

`Covered` is what the slots are for: the same numbers without a width.  The
slots show them exactly as long as none is over 255; from there on a debug
build panics and a release build wraps.  `num_responses` is a `usize`, and is
the sum of the sizes as long as the slots are right: it cannot overflow first.
-/
import Mathlib.Algebra.BigOperators.Fin
import Mathlib.Algebra.Order.BigOperators.Group.Finset
import Roughenough.Server.Responses

namespace Roughenough.Server

open Roughenough.Base

/-! ## Adding up -/

namespace ResponseMetrics

/-- `add_assign`.  The loop over the slots panics at the first that overflows, in a debug
build. -/
def addAssign (debug : Bool) (m rhs : ResponseMetrics) : Call ResponseMetrics := do
  Outcome.assert (debug = true →
    ∀ i < maxBatchSize, (m.batches (i + 1)).toNat + (rhs.batches (i + 1)).toNat < 256)
  pure
    { numResponses := m.numResponses + rhs.numResponses
      numBytesSent := m.numBytesSent + rhs.numBytesSent
      batchSizes := ⟨List.zipWith (· + ·) m.batchSizes.bytes rhs.batchSizes.bytes, by
        rw [List.length_zipWith, m.batchSizes.size_eq, rhs.batchSizes.size_eq, Nat.min_self]⟩ }

/-- The responses of `calc_aggregated_metrics`. -/
def total (debug : Bool) (workers : List ResponseMetrics) : Call ResponseMetrics :=
  workers.foldlM (addAssign debug) default

/-- The number of requests in batches of the given sizes. -/
def weigh (counts : Nat → Nat) : Nat := ∑ i ∈ Finset.range 64, (i + 1) * counts (i + 1)

/-- The slots show `counts`, and the responses are those of the batches. -/
structure Shows (m : ResponseMetrics) (counts : Nat → Nat) : Prop where
  slots : ∀ k, 1 ≤ k → k ≤ 64 → (m.batches k).toNat = counts k
  responses : m.numResponses = weigh counts

theorem Shows.bounded {m : ResponseMetrics} {counts : Nat → Nat} (h : m.Shows counts) (k : Nat)
    (h1 : 1 ≤ k) (h64 : k ≤ 64) : counts k ≤ 255 := by
  rw [← h.slots k h1 h64]
  exact Nat.le_of_lt_succ (m.batches k).toNat_lt

theorem shows_default : default.Shows fun _ => 0 := by
  refine ⟨?_, ?_⟩
  · intro k h1 h64
    have hzero : default.batchSizes.bytes = List.replicate 64 0 := rfl
    rw [batches, hzero, List.getD_eq_getElem?_getD, List.getElem?_replicate_of_lt (by omega)]
    rfl
  · rw [weigh, Finset.sum_eq_zero fun i _ => Nat.mul_zero _]
    rfl

theorem batches_eq_getElem (m : ResponseMetrics) {k : Nat} (h1 : 1 ≤ k) (h64 : k ≤ 64) :
    m.batchSizes.bytes[k - 1]? = some (m.batches k) := by
  have hlt : k - 1 < m.batchSizes.bytes.length := by
    rw [m.batchSizes.size_eq]
    omega
  rw [batches, List.getD_eq_getElem?_getD, List.getElem?_eq_getElem hlt]
  rfl

theorem toNat_add_of_room {a b : UInt8} (h : a.toNat + b.toNat ≤ 255) :
    (a + b).toNat = a.toNat + b.toNat := by
  rw [UInt8.toNat_add]
  exact Nat.mod_eq_of_lt (Nat.lt_succ_of_le h)

theorem weigh_update (counts : Nat → Nat) {k : Nat} (h1 : 1 ≤ k) (h64 : k ≤ 64) :
    weigh (Function.update counts k (counts k + 1)) = weigh counts + k := by
  have hterm : ∀ i ∈ Finset.range 64, (i + 1) * Function.update counts k (counts k + 1) (i + 1) =
      (i + 1) * counts (i + 1) + if i = k - 1 then i + 1 else 0 := by
    intro i _
    by_cases hi : i = k - 1
    · have hik : i + 1 = k := by omega
      rw [hik, Function.update_self, if_pos hi, Nat.mul_succ]
    · have hik : i + 1 ≠ k := by omega
      rw [Function.update_of_ne hik, if_neg hi]
      rfl
  rw [weigh, Finset.sum_congr rfl hterm, Finset.sum_add_distrib, Finset.sum_ite_eq',
    if_pos (Finset.mem_range.mpr (by omega)), Nat.sub_add_cancel h1]
  rfl

theorem weigh_add (counts counts' : Nat → Nat) :
    (weigh fun k => counts k + counts' k) = weigh counts + weigh counts' := by
  rw [weigh, weigh, weigh, ← Finset.sum_add_distrib]
  exact Finset.sum_congr rfl fun i _ => Nat.mul_add _ _ _

theorem Shows.addBatchSize {m : ResponseMetrics} {counts : Nat → Nat} (debug : Bool)
    (h : m.Shows counts) {k : Nat} (h1 : 1 ≤ k) (h64 : k ≤ 64) (hroom : counts k + 1 ≤ 255) :
    ∃ m', m.addBatchSize debug (UInt8.ofNat k) = .ok m' ∧
      m'.Shows (Function.update counts k (counts k + 1)) := by
  have hslot := h.slots k h1 h64
  refine ⟨_, (addBatchSize_ok_iff h1 h64).mpr ⟨fun _ => by omega, rfl⟩, ?_, ?_⟩
  · intro j hj1 hj64
    show ((m.batchSizes.bytes.set (k - 1) (m.batches k + 1)).getD (j - 1) 0).toNat = _
    rw [List.getD_eq_getElem?_getD]
    by_cases hjk : j = k
    · have hlt : k - 1 < m.batchSizes.bytes.length := by
        rw [m.batchSizes.size_eq]
        omega
      rw [hjk, Function.update_self, List.getElem?_set_self hlt, ← hslot]
      exact toNat_add_of_room (by rw [hslot]; exact hroom)
    · rw [Function.update_of_ne hjk, List.getElem?_set_ne (by omega),
        m.batches_eq_getElem hj1 hj64]
      exact h.slots j hj1 hj64
  · show m.numResponses + k = _
    rw [h.responses, weigh_update counts h1 h64]

theorem Shows.addAssign {m m' : ResponseMetrics} {counts counts' : Nat → Nat} (debug : Bool)
    (h : m.Shows counts) (h' : m'.Shows counts')
    (hroom : ∀ k, 1 ≤ k → k ≤ 64 → counts k + counts' k ≤ 255) :
    ∃ sum, m.addAssign debug m' = .ok sum ∧ sum.Shows fun k => counts k + counts' k := by
  have hfits : ∀ k, 1 ≤ k → k ≤ 64 → (m.batches k).toNat + (m'.batches k).toNat ≤ 255 := by
    intro k h1 h64
    rw [h.slots k h1 h64, h'.slots k h1 h64]
    exact hroom k h1 h64
  have hassert : (Outcome.assert (debug = true → ∀ i < maxBatchSize,
      (m.batches (i + 1)).toNat + (m'.batches (i + 1)).toNat < 256) : Call Unit) = .ok () :=
    Outcome.assert_ok_iff.mpr fun _ i hi =>
      Nat.lt_succ_of_le (hfits (i + 1) (Nat.le_add_left 1 i) hi)
  unfold ResponseMetrics.addAssign
  rw [hassert]
  refine ⟨_, rfl, ?_, ?_⟩
  · intro k h1 h64
    show ((List.zipWith (· + ·) m.batchSizes.bytes m'.batchSizes.bytes).getD (k - 1) 0).toNat = _
    rw [List.getD_eq_getElem?_getD, List.getElem?_zipWith_eq_some.mpr
      ⟨_, _, m.batches_eq_getElem h1 h64, m'.batches_eq_getElem h1 h64, rfl⟩]
    rw [← h.slots k h1 h64, ← h'.slots k h1 h64]
    exact toNat_add_of_room (hfits k h1 h64)
  · show m.numResponses + m'.numResponses = _
    rw [h.responses, h'.responses, weigh_add]

/-- Adding up a list of accumulators, onto what is there. -/
theorem Shows.foldlM {ι : Type} (debug : Bool) (workers : ι → ResponseMetrics)
    (counts : ι → Nat → Nat) (l : List ι) (h : ∀ i ∈ l, (workers i).Shows (counts i))
    {sum : ResponseMetrics} {before : Nat → Nat} (hsum : sum.Shows before)
    (hroom : ∀ k, 1 ≤ k → k ≤ 64 → before k + (l.map fun i => counts i k).sum ≤ 255) :
    ∃ sum', (l.map workers).foldlM (ResponseMetrics.addAssign debug) sum = .ok sum' ∧
      sum'.Shows fun k => before k + (l.map fun i => counts i k).sum := by
  induction l generalizing sum before with
  | nil => exact ⟨sum, rfl, hsum⟩
  | cons i later ih =>
      simp only [List.map_cons, List.sum_cons, ← Nat.add_assoc] at hroom ⊢
      obtain ⟨sum₁, hadd, hsum₁⟩ := hsum.addAssign debug (h i List.mem_cons_self)
        fun k h1 h64 => Nat.le_trans (Nat.le_add_right _ _) (hroom k h1 h64)
      obtain ⟨sum', hfold, hsum'⟩ := ih (fun j hj => h j (List.mem_cons_of_mem i hj)) hsum₁ hroom
      refine ⟨sum', ?_, hsum'⟩
      rw [List.foldlM_cons, hadd]
      exact hfold

theorem weigh_lt {counts : Nat → Nat} (h : ∀ k, 1 ≤ k → k ≤ 64 → counts k ≤ 255) :
    weigh counts < 2 ^ 64 := by
  have hle : weigh counts ≤ ∑ i ∈ Finset.range 64, (i + 1) * 255 := by
    refine Finset.sum_le_sum fun i hi => Nat.mul_le_mul_left _ (h (i + 1) ?_ ?_)
    · exact Nat.le_add_left 1 i
    · exact Finset.mem_range.mp hi
  exact Nat.lt_of_le_of_lt hle (by decide)

end ResponseMetrics

/-! ## Runs -/

/-- A call of the metrics of `n` workers.  Publishing is the `add_assign` of the aggregator and
the reset behind the send. -/
inductive MetricsOp (n : Nat) where
  | batch (worker : Fin n) (size : { k : Nat // 1 ≤ k ∧ k ≤ 64 })
  | reset (worker : Fin n)
  | publish (worker : Fin n)
  | total

structure Histograms (n : Nat) where
  workers : Fin n → ResponseMetrics
  aggregated : Fin n → ResponseMetrics
  totals : ResponseMetrics

namespace Histograms

variable {n : Nat}

def start : Histograms n :=
  ⟨fun _ => ResponseMetrics.default, fun _ => ResponseMetrics.default, ResponseMetrics.default⟩

def step (debug : Bool) (h : Histograms n) : MetricsOp n → Call (Histograms n)
  | .batch i size => do
      let m ← (h.workers i).addBatchSize debug (UInt8.ofNat size.1)
      pure { h with workers := Function.update h.workers i m }
  | .reset i =>
      pure { h with workers := Function.update h.workers i (h.workers i).resetMetrics }
  | .publish i => do
      let m ← (h.aggregated i).addAssign debug (h.workers i)
      pure
        { h with
          workers := Function.update h.workers i (h.workers i).resetMetrics
          aggregated := Function.update h.aggregated i m }
  | .total => do
      let totals ← ResponseMetrics.total debug ((List.finRange n).map h.aggregated)
      pure { h with totals := totals }

def run (debug : Bool) (ops : List (MetricsOp n)) : Call (Histograms n) :=
  ops.foldlM (step debug) start

end Histograms

/-- The batches of each size that a worker, an accumulator and the totals cover. -/
structure Covered (n : Nat) where
  workers : Fin n → Nat → Nat
  aggregated : Fin n → Nat → Nat
  totals : Nat → Nat

namespace Covered

variable {n : Nat}

def start : Covered n := ⟨fun _ _ => 0, fun _ _ => 0, fun _ => 0⟩

def step (c : Covered n) : MetricsOp n → Covered n
  | .batch i size =>
      { c with
        workers := Function.update c.workers i
          (Function.update (c.workers i) size.1 (c.workers i size.1 + 1)) }
  | .reset i => { c with workers := Function.update c.workers i fun _ => 0 }
  | .publish i =>
      { c with
        workers := Function.update c.workers i fun _ => 0
        aggregated := Function.update c.aggregated i fun k => c.aggregated i k + c.workers i k }
  | .total => { c with totals := fun k => ((List.finRange n).map fun i => c.aggregated i k).sum }

def of (ops : List (MetricsOp n)) : Covered n := ops.foldl step start

theorem of_concat (ops : List (MetricsOp n)) (op : MetricsOp n) :
    of (ops ++ [op]) = (of ops).step op := by
  unfold of
  rw [List.foldl_append]
  rfl

/-- No slot would be over 255. -/
def Fits (c : Covered n) : Prop :=
  ∀ k, 1 ≤ k → k ≤ 64 →
    (∀ i, c.workers i k ≤ 255) ∧ (∀ i, c.aggregated i k ≤ 255) ∧ c.totals k ≤ 255

end Covered

namespace Histograms

variable {n : Nat}

/-- All slots show what they cover. -/
structure Exact (h : Histograms n) (c : Covered n) : Prop where
  workers : ∀ i, (h.workers i).Shows (c.workers i)
  aggregated : ∀ i, (h.aggregated i).Shows (c.aggregated i)
  totals : h.totals.Shows c.totals

theorem Exact.fits {h : Histograms n} {c : Covered n} (he : h.Exact c) : c.Fits := by
  intro k h1 h64
  refine ⟨?_, ?_, he.totals.bounded k h1 h64⟩
  · intro i
    exact (he.workers i).bounded k h1 h64
  · intro i
    exact (he.aggregated i).bounded k h1 h64

theorem shows_update {ms : Fin n → ResponseMetrics} {cs : Fin n → Nat → Nat}
    (h : ∀ i, (ms i).Shows (cs i)) {i : Fin n} {m : ResponseMetrics} {c : Nat → Nat}
    (hi : m.Shows c) (j : Fin n) :
    (Function.update ms i m j).Shows (Function.update cs i c j) := by
  by_cases hij : j = i
  · subst hij
    rwa [Function.update_self, Function.update_self]
  · rw [Function.update_of_ne hij, Function.update_of_ne hij]
    exact h j

/-- A call after which no slot would be over 255 returns, and the slots are exact. -/
theorem Exact.step {h : Histograms n} {c : Covered n} (debug : Bool) (he : h.Exact c)
    (op : MetricsOp n) (hfits : (c.step op).Fits) :
    ∃ h', h.step debug op = .ok h' ∧ h'.Exact (c.step op) := by
  cases op with
  | batch i size =>
      obtain ⟨k, h1, h64⟩ := size
      have hroom := (hfits k h1 h64).1 i
      simp only [Covered.step, Function.update_self] at hroom
      obtain ⟨m, hadd, hm⟩ := (he.workers i).addBatchSize debug h1 h64 hroom
      have hrun : h.step debug (.batch i ⟨k, h1, h64⟩) =
          .ok { h with workers := Function.update h.workers i m } := by
        rw [Histograms.step, hadd]
        rfl
      exact ⟨_, hrun, shows_update he.workers hm, he.aggregated, he.totals⟩
  | reset i =>
      exact ⟨_, rfl, shows_update he.workers ResponseMetrics.shows_default, he.aggregated,
        he.totals⟩
  | publish i =>
      have hroom : ∀ k, 1 ≤ k → k ≤ 64 → c.aggregated i k + c.workers i k ≤ 255 := by
        intro k h1 h64
        have hsum := (hfits k h1 h64).2.1 i
        simp only [Covered.step, Function.update_self] at hsum
        exact hsum
      obtain ⟨m, hadd, hm⟩ := (he.aggregated i).addAssign debug (he.workers i) hroom
      have hrun : h.step debug (.publish i) = .ok
          { h with
            workers := Function.update h.workers i (h.workers i).resetMetrics
            aggregated := Function.update h.aggregated i m } := by
        rw [Histograms.step, hadd]
        rfl
      exact ⟨_, hrun, shows_update he.workers ResponseMetrics.shows_default,
        shows_update he.aggregated hm, he.totals⟩
  | total =>
      obtain ⟨totals, htotal, hshows⟩ := ResponseMetrics.Shows.foldlM debug h.aggregated
        c.aggregated (List.finRange n) (fun i _ => he.aggregated i) ResponseMetrics.shows_default
        fun k h1 h64 => by
          rw [Nat.zero_add]
          exact (hfits k h1 h64).2.2
      simp only [Nat.zero_add] at hshows
      have hrun : h.step debug .total = .ok { h with totals := totals } := by
        rw [Histograms.step, ResponseMetrics.total, htotal]
        rfl
      exact ⟨_, hrun, he.workers, he.aggregated, hshows⟩

theorem exact_start : (start : Histograms n).Exact Covered.start :=
  ⟨fun _ => ResponseMetrics.shows_default, fun _ => ResponseMetrics.shows_default,
    ResponseMetrics.shows_default⟩

theorem run_concat (debug : Bool) (ops : List (MetricsOp n)) (op : MetricsOp n) :
    run debug (ops ++ [op]) = (run debug ops >>= fun h => h.step debug op) := by
  unfold run
  rw [List.foldlM_append]
  refine bind_congr fun h => ?_
  rw [List.foldlM_cons]
  exact bind_pure _

/-- As long as no slot would be over 255, a run returns and its slots are exact. -/
theorem run_exact (debug : Bool) (ops : List (MetricsOp n))
    (hfits : ∀ pre, pre <+: ops → (Covered.of pre).Fits) :
    ∃ h, run debug ops = .ok h ∧ h.Exact (Covered.of ops) := by
  induction ops using List.reverseRecOn with
  | nil => exact ⟨start, rfl, exact_start⟩
  | append_singleton ops op ih =>
      obtain ⟨h, hrun, he⟩ := ih fun pre hpre => hfits pre (hpre.trans (List.prefix_append _ _))
      have hlast := hfits _ (List.prefix_refl (ops ++ [op]))
      rw [Covered.of_concat] at hlast ⊢
      obtain ⟨h', hstep, he'⟩ := he.step debug op hlast
      refine ⟨h', ?_, he'⟩
      rw [run_concat, hrun]
      exact hstep

/-- After each call of the run: it returned, every slot is the number of batches it covers, and
the responses are the sum of the sizes, within the width of a `usize`. -/
def ExactAlong (debug : Bool) (ops : List (MetricsOp n)) : Prop :=
  ∀ pre, pre <+: ops → ∃ h, run debug pre = .ok h ∧ h.Exact (Covered.of pre) ∧
    ∀ m, (∃ i, m = h.workers i ∨ m = h.aggregated i) ∨ m = h.totals →
      m.numResponses = ∑ i ∈ Finset.range 64, (i + 1) * (m.batches (i + 1)).toNat ∧
        m.numResponses < 2 ^ 64

theorem ExactAlong.fits {debug : Bool} {ops : List (MetricsOp n)} (h : ExactAlong debug ops)
    {pre : List (MetricsOp n)} (hpre : pre <+: ops) : (Covered.of pre).Fits := by
  obtain ⟨_, -, he, -⟩ := h pre hpre
  exact he.fits

end Histograms

namespace ResponseMetrics

/-- The responses of slots that are exact. -/
theorem Shows.numResponses {m : ResponseMetrics} {counts : Nat → Nat} (h : m.Shows counts) :
    m.numResponses = ∑ i ∈ Finset.range 64, (i + 1) * (m.batches (i + 1)).toNat ∧
      m.numResponses < 2 ^ 64 := by
  refine ⟨?_, ?_⟩
  · rw [h.responses]
    refine Finset.sum_congr rfl fun i hi => ?_
    rw [h.slots (i + 1) (Nat.le_add_left 1 i) (Finset.mem_range.mp hi)]
  · rw [h.responses]
    exact weigh_lt h.bounded

end ResponseMetrics

/-- The slots of every worker, every accumulator and the totals are exact along a run, in either
build, exactly when none of them ever covers more than 255 batches of one size. -/
theorem histogram_exact_iff (debug : Bool) (n : Nat) (ops : List (MetricsOp n)) :
    Histograms.ExactAlong debug ops ↔ ∀ pre, pre <+: ops → (Covered.of pre).Fits := by
  constructor
  · intro h pre hpre
    exact h.fits hpre
  · intro hfits pre hpre
    obtain ⟨h, hrun, he⟩ := Histograms.run_exact debug pre
      fun pre' hpre' => hfits pre' (hpre'.trans hpre)
    refine ⟨h, hrun, he, ?_⟩
    rintro m (⟨i, rfl | rfl⟩ | rfl)
    · exact (he.workers i).numResponses
    · exact (he.aggregated i).numResponses
    · exact he.totals.numResponses

/-- The 256th batch of one request. -/
theorem histogram_overflows : ¬ Histograms.ExactAlong (n := 1) true
    (List.replicate 256 (.batch 0 ⟨1, by decide, by decide⟩)) ∧
    ¬ Histograms.ExactAlong (n := 1) false
      (List.replicate 256 (.batch 0 ⟨1, by decide, by decide⟩)) := by
  have hcount : ∀ j, (Covered.of (n := 1)
      (List.replicate j (.batch 0 ⟨1, by decide, by decide⟩))).workers 0 1 = j := by
    intro j
    induction j with
    | zero => rfl
    | succ j ih =>
        rw [List.replicate_succ', Covered.of_concat]
        simp only [Covered.step, Function.update_self, ih]
  have hover : ∀ debug, ¬ Histograms.ExactAlong (n := 1) debug
      (List.replicate 256 (.batch 0 ⟨1, by decide, by decide⟩)) := by
    intro debug h
    have hfits := (h.fits (List.prefix_refl _) 1 (by decide) (by decide)).1 0
    rw [hcount] at hfits
    exact absurd hfits (by decide)
  exact ⟨hover true, hover false⟩

end Roughenough.Server
