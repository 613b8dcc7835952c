/-
# `Roughenough.Client.Causality` — when the check of causality is exact

`validate_causality` compares `MIDP_i - RADI_i` with `MIDP_j + RADI_j` for all
`i < j`, in `u64`.  Midpoint and radius are chosen by the servers, so both ends
of the range can be crossed:

    MIDP_i < RADI_i               of any measurement but the last
    MIDP_j + RADI_j ≥ 2 ^ 64      of any measurement but the first

A debug build then panics, and a release build goes on with the wrapped bound.
In all other lists the violations are those of the integers, in order.
-/
import Mathlib.Data.Int.Init
import Roughenough.Client.Reporting

namespace Roughenough.Client

open Roughenough.Base Roughenough.Protocol Roughenough.Merkle MeasurementSequence

/-! ## The bounds as integers -/

namespace Measurement

def lower (m : Measurement) : Int := m.midpoint.toNat - m.radius.toNat

def upper (m : Measurement) : Int := m.midpoint.toNat + m.radius.toNat

/-- Neither end of the range is crossed: not at zero by one that is followed by another, not at
`2 ^ 64` by one that follows another. -/
def InRange (measurements : List Measurement) : Prop :=
  ∀ i m, measurements[i]? = some m →
    (i + 1 < measurements.length → m.radius.toNat ≤ m.midpoint.toNat) ∧
      (0 < i → m.midpoint.toNat + m.radius.toNat < 2 ^ 64)

end Measurement

/-- The violation of a pair, with its integer bounds. -/
def CausalityViolation.IsOf (measurements : List Measurement) (p : Nat × Nat)
    (v : CausalityViolation) : Prop :=
  measurements[p.1]? = some v.measurementI ∧ measurements[p.2]? = some v.measurementJ ∧
    (v.lowerBoundI.toNat : Int) = v.measurementI.lower ∧
    (v.upperBoundJ.toNat : Int) = v.measurementJ.upper

/-- The pairs in violation, each once and in lexicographic order. -/
def Violating (measurements : List Measurement) (violations : List CausalityViolation) : Prop :=
  ∃ pairs : List (Nat × Nat), pairs.Pairwise (Prod.Lex (· < ·) (· < ·)) ∧
    (∀ i j, (i, j) ∈ pairs ↔ i < j ∧ ∃ mi mj, measurements[i]? = some mi ∧
      measurements[j]? = some mj ∧ mi.lower > mj.upper) ∧
    List.Forall₂ (CausalityViolation.IsOf measurements) pairs violations

namespace ResponseValidator

/-! ## One pair -/

/-- What a pair adds to the violations, if it stays within the range. -/
def found (measurements : List Measurement) (p : Nat × Nat) : Option CausalityViolation := do
  let mi ← measurements[p.1]?
  let mj ← measurements[p.2]?
  if mi.lower > mj.upper then
    some ⟨mi, mj, mi.midpoint - mi.radius.toUInt64, mj.midpoint + mj.radius.toUInt64⟩
  else none

theorem toNat_lower {m : Measurement} (h : m.radius.toNat ≤ m.midpoint.toNat) :
    ((m.midpoint - m.radius.toUInt64).toNat : Int) = m.lower := by
  have hradius : m.radius.toUInt64.toNat = m.radius.toNat := UInt32.toNat_toUInt64 _
  rw [UInt64.toNat_sub_of_le _ _ (UInt64.le_iff_toNat_le.mpr (hradius ▸ h)), hradius,
    Int.ofNat_sub h]
  rfl

theorem toNat_upper {m : Measurement} (h : m.midpoint.toNat + m.radius.toNat < 2 ^ 64) :
    ((m.midpoint + m.radius.toUInt64).toNat : Int) = m.upper := by
  have hradius : m.radius.toUInt64.toNat = m.radius.toNat := UInt32.toNat_toUInt64 _
  rw [UInt64.toNat_add, hradius, Nat.mod_eq_of_lt h]
  rfl

/-- A pair within the range. -/
theorem checkPair_eq {measurements : List Measurement} {i j : Nat} {mi mj : Measurement}
    (debug : Bool) (violations : List CausalityViolation) (hi : measurements[i]? = some mi)
    (hj : measurements[j]? = some mj) (hlower : mi.radius.toNat ≤ mi.midpoint.toNat)
    (hupper : mj.midpoint.toNat + mj.radius.toNat < 2 ^ 64) :
    checkPair debug measurements i violations j =
      .ok (violations ++ (found measurements (i, j)).toList) := by
  have hradius : ∀ m : Measurement, m.radius.toUInt64.toNat = m.radius.toNat :=
    fun _ => UInt32.toNat_toUInt64 _
  have hsub : subU64 debug mi.midpoint mi.radius.toUInt64 =
      .ok (mi.midpoint - mi.radius.toUInt64) := by
    rw [subU64_ok_iff, hradius]
    exact ⟨fun _ => hlower, rfl⟩
  have hadd : addU64 debug mj.midpoint mj.radius.toUInt64 =
      .ok (mj.midpoint + mj.radius.toUInt64) := by
    rw [addU64_ok_iff, hradius]
    exact ⟨fun _ => hupper, rfl⟩
  have hgt : mi.midpoint - mi.radius.toUInt64 > mj.midpoint + mj.radius.toUInt64 ↔
      mi.lower > mj.upper := by
    rw [gt_iff_lt, gt_iff_lt, UInt64.lt_iff_toNat_lt, ← toNat_lower hlower,
      ← toNat_upper hupper, Int.ofNat_lt]
  simp only [checkPair, CausalityViolation.new, hi, hj, Outcome.orPanic, hsub, hadd,
    Outcome.ok_bind, hgt, found, Option.bind_eq_bind, Option.bind_some]
  by_cases hviolates : mi.lower > mj.upper
  · have hassert : (Outcome.assert (mi.lower > mj.upper) : Call Unit) = .ok () :=
      Outcome.assert_ok_iff.mpr hviolates
    rw [if_pos hviolates, if_pos hviolates, hassert]
    rfl
  · rw [if_neg hviolates, if_neg hviolates]
    exact congrArg Outcome.ok (List.append_nil _).symm

/-- A debug build returns from no other. -/
theorem checkPair_inRange {measurements : List Measurement} {i j : Nat} {mi mj : Measurement}
    {violations violations' : List CausalityViolation} (hi : measurements[i]? = some mi)
    (hj : measurements[j]? = some mj)
    (h : checkPair true measurements i violations j = .ok violations') :
    mi.radius.toNat ≤ mi.midpoint.toNat ∧ mj.midpoint.toNat + mj.radius.toNat < 2 ^ 64 := by
  simp only [checkPair, hi, hj, Outcome.orPanic, Outcome.ok_bind, Outcome.bind_ok_iff,
    subU64_ok_iff, addU64_ok_iff, UInt32.toNat_toUInt64] at h
  obtain ⟨_, ⟨hlower, -⟩, _, ⟨hupper, -⟩, -⟩ := h
  exact ⟨hlower trivial, hupper trivial⟩

/-! ## All pairs -/

/-- The pairs of the two loops. -/
def allPairs (n : Nat) : List (Nat × Nat) :=
  (List.range n).flatMap fun i => (List.range' (i + 1) (n - (i + 1))).map fun j => (i, j)

theorem mem_allPairs {n i j : Nat} : (i, j) ∈ allPairs n ↔ i < j ∧ j < n := by
  simp only [allPairs, List.mem_flatMap, List.mem_range, List.mem_map, List.mem_range'_1,
    Prod.mk.injEq]
  constructor
  · rintro ⟨i, hi, j, hj, rfl, rfl⟩
    omega
  · rintro ⟨hij, hj⟩
    exact ⟨i, by omega, j, by omega, rfl, rfl⟩

theorem allPairs_pairwise (n : Nat) : (allPairs n).Pairwise (Prod.Lex (· < ·) (· < ·)) := by
  refine List.pairwise_flatMap.mpr ⟨?_, ?_⟩
  · intro i _
    rw [List.pairwise_map]
    exact (List.pairwise_lt_range').imp fun h => Prod.Lex.right i h
  · refine List.pairwise_lt_range.imp ?_
    intro i i' hlt p hp p' hp'
    obtain ⟨j, -, rfl⟩ := List.mem_map.mp hp
    obtain ⟨j', -, rfl⟩ := List.mem_map.mp hp'
    exact Prod.Lex.left j j' hlt

theorem exists_getElem? {measurements : List Measurement} {i : Nat} (h : i < measurements.length) :
    ∃ m, measurements[i]? = some m := ⟨_, List.getElem?_eq_getElem h⟩

/-- Within the range, the two loops collect what the pairs add. -/
theorem validateCausality_eq {measurements : List Measurement} (debug : Bool)
    (h : Measurement.InRange measurements) : validateCausality debug measurements =
      .ok ((allPairs measurements.length).filterMap (found measurements)) := by
  have hinner : ∀ violations, ∀ i ∈ List.range measurements.length,
      (List.range' (i + 1) (measurements.length - (i + 1))).foldlM
        (checkPair debug measurements i) violations =
          .ok (violations ++ (List.range' (i + 1) (measurements.length - (i + 1))).flatMap
            fun j => (found measurements (i, j)).toList) := by
    intro violations i hi
    refine Outcome.foldlM_appends ?_ violations
    intro violations j hj
    obtain ⟨hij, hjn⟩ := List.mem_range'_1.mp hj
    obtain ⟨mi, hmi⟩ := exists_getElem? (List.mem_range.mp hi)
    have hj : j < measurements.length := by omega
    obtain ⟨mj, hmj⟩ := exists_getElem? hj
    exact checkPair_eq debug violations hmi hmj ((h i mi hmi).1 (by omega))
      ((h j mj hmj).2 (by omega))
  have hpairs : (allPairs measurements.length).filterMap (found measurements) =
      (List.range measurements.length).flatMap fun i =>
        (List.range' (i + 1) (measurements.length - (i + 1))).flatMap fun j =>
          (found measurements (i, j)).toList := by
    rw [List.filterMap_eq_flatMap_toList, allPairs, List.flatMap_assoc]
    simp only [List.flatMap_map]
  unfold validateCausality
  split
  · next hshort =>
      have hnone : allPairs measurements.length = [] := by
        refine List.eq_nil_iff_forall_not_mem.mpr ?_
        rintro ⟨i, j⟩ hp
        have hij := mem_allPairs.mp hp
        omega
      rw [hnone]
      rfl
  · rw [hpairs]
    exact Outcome.foldlM_appends hinner []

theorem validateCausality_inRange {measurements : List Measurement}
    {violations : List CausalityViolation}
    (h : validateCausality true measurements = .ok violations) :
    Measurement.InRange measurements := by
  have hpair : ∀ (i j : Nat) (mi mj : Measurement), i < j → measurements[i]? = some mi →
      measurements[j]? = some mj → mi.radius.toNat ≤ mi.midpoint.toNat ∧
        mj.midpoint.toNat + mj.radius.toNat < 2 ^ 64 := by
    intro i j mi mj hij hmi hmj
    obtain ⟨hjn, -⟩ := List.getElem?_eq_some_iff.mp hmj
    unfold validateCausality at h
    rw [if_neg (by omega)] at h
    obtain ⟨t, t', houter⟩ := Outcome.foldlM_steps h (List.mem_range.mpr (Nat.lt_trans hij hjn))
    obtain ⟨u, u', hinner⟩ := Outcome.foldlM_steps houter
      (List.mem_range'_1.mpr (⟨hij, by omega⟩ : i + 1 ≤ j ∧ _))
    exact checkPair_inRange hmi hmj hinner
  intro i m hm
  obtain ⟨hi, -⟩ := List.getElem?_eq_some_iff.mp hm
  refine ⟨?_, ?_⟩
  · intro hnext
    obtain ⟨mj, hmj⟩ := exists_getElem? hnext
    exact (hpair i (i + 1) m mj (Nat.lt_succ_self i) hm hmj).1
  · intro hpos
    obtain ⟨mi, hmi⟩ := exists_getElem? (Nat.lt_trans hpos hi)
    exact (hpair 0 i mi m hpos hmi hm).2

/-- A release build always returns. -/
theorem validateCausality_release (measurements : List Measurement) :
    validateCausality false measurements ≠ .panic := by
  unfold validateCausality
  split
  · exact Outcome.ok_ne_panic _
  · refine Outcome.foldlM_ne_panic ?_ _
    intro violations i hi
    refine Outcome.foldlM_ne_panic ?_ _
    intro violations j hj
    obtain ⟨hij, hjn⟩ := List.mem_range'_1.mp hj
    have hj : j < measurements.length := by omega
    obtain ⟨mi, hmi⟩ := exists_getElem? (List.mem_range.mp hi)
    obtain ⟨mj, hmj⟩ := exists_getElem? hj
    have hsub : subU64 false mi.midpoint mi.radius.toUInt64 =
        .ok (mi.midpoint - mi.radius.toUInt64) := rfl
    have hadd : addU64 false mj.midpoint mj.radius.toUInt64 =
        .ok (mj.midpoint + mj.radius.toUInt64) := rfl
    simp only [checkPair, CausalityViolation.new, hmi, hmj, Outcome.orPanic, hsub, hadd,
      Outcome.ok_bind]
    split
    · rename_i hgt
      rw [Outcome.assert, if_pos hgt]
      exact Outcome.ok_ne_panic _
    · exact Outcome.ok_ne_panic _

/-- A debug build returns for the lists within the range. -/
theorem validateCausality_returns_iff {debug : Bool} {measurements : List Measurement} :
    (∃ violations, validateCausality debug measurements = .ok violations) ↔
      (debug = true → Measurement.InRange measurements) := by
  cases debug with
  | true =>
      constructor
      · rintro ⟨violations, h⟩ _
        exact validateCausality_inRange h
      · intro h
        exact ⟨_, validateCausality_eq true (h rfl)⟩
  | false =>
      refine ⟨fun _ h => absurd h Bool.false_ne_true, fun _ => ?_⟩
      rcases hrun : validateCausality false measurements with violations | e | _
      · exact ⟨violations, rfl⟩
      · exact e.elim
      · exact absurd hrun (validateCausality_release measurements)

/-! ## What they collect -/

theorem found_eq_some_iff {measurements : List Measurement} {p : Nat × Nat}
    {v : CausalityViolation} : found measurements p = some v ↔
      ∃ mi mj, measurements[p.1]? = some mi ∧ measurements[p.2]? = some mj ∧
        mi.lower > mj.upper ∧
        v = ⟨mi, mj, mi.midpoint - mi.radius.toUInt64, mj.midpoint + mj.radius.toUInt64⟩ := by
  simp only [found, Option.bind_eq_bind, Option.bind_eq_some_iff, Option.ite_none_right_eq_some,
    Option.some.injEq]
  constructor
  · rintro ⟨mi, hi, mj, hj, hviolates, rfl⟩
    exact ⟨mi, mj, hi, hj, hviolates, rfl⟩
  · rintro ⟨mi, mj, hi, hj, hviolates, rfl⟩
    exact ⟨mi, hi, mj, hj, hviolates, rfl⟩

theorem violating_found {measurements : List Measurement} (h : Measurement.InRange measurements) :
    Violating measurements ((allPairs measurements.length).filterMap (found measurements)) := by
  refine ⟨(allPairs measurements.length).filter fun p => (found measurements p).isSome,
    (allPairs_pairwise _).filter _, ?_, ?_⟩
  · intro i j
    rw [List.mem_filter, mem_allPairs, Option.isSome_iff_exists]
    constructor
    · rintro ⟨⟨hij, -⟩, v, hv⟩
      obtain ⟨mi, mj, hmi, hmj, hviolates, -⟩ := found_eq_some_iff.mp hv
      exact ⟨hij, mi, mj, hmi, hmj, hviolates⟩
    · rintro ⟨hij, mi, mj, hmi, hmj, hviolates⟩
      obtain ⟨hjn, -⟩ := List.getElem?_eq_some_iff.mp hmj
      exact ⟨⟨hij, hjn⟩, _, found_eq_some_iff.mpr ⟨mi, mj, hmi, hmj, hviolates, rfl⟩⟩
  · have hof : ∀ p ∈ allPairs measurements.length, ∀ v, found measurements p = some v →
        CausalityViolation.IsOf measurements p v := by
      rintro ⟨i, j⟩ hp v hv
      obtain ⟨hij, hjn⟩ := mem_allPairs.mp hp
      obtain ⟨mi, mj, hmi, hmj, -, rfl⟩ := found_eq_some_iff.mp hv
      exact ⟨hmi, hmj, toNat_lower ((h i mi hmi).1 (by omega)),
        toNat_upper ((h j mj hmj).2 (by omega))⟩
    -- one pair at a time: it is kept by the filter exactly when it adds a violation
    generalize allPairs measurements.length = pairs at hof
    induction pairs with
    | nil => exact .nil
    | cons p later ih =>
        have hlater := ih fun q hq => hof q (List.mem_cons_of_mem p hq)
        cases hfound : found measurements p with
        | none =>
            rw [List.filterMap_cons_none hfound,
              List.filter_cons_of_neg (by rw [hfound]; exact nofun)]
            exact hlater
        | some v =>
            rw [List.filterMap_cons_some hfound, List.filter_cons_of_pos (by rw [hfound]; rfl)]
            exact .cons (hof p List.mem_cons_self v hfound) hlater

end ResponseValidator

open ResponseValidator

/-- The check of causality returns, in either build, and returns exactly the pairs in violation:
precisely for the lists that do not cross the range. -/
theorem causality_exact_iff (measurements : List Measurement) :
    (∀ debug, ∃ violations, validateCausality debug measurements = .ok violations ∧
      Violating measurements violations) ↔ Measurement.InRange measurements := by
  constructor
  · intro h
    obtain ⟨violations, hrun, -⟩ := h true
    exact validateCausality_inRange hrun
  · intro h debug
    exact ⟨_, validateCausality_eq debug h, violating_found h⟩

open Network in
/-- Two servers with a radius of 5, whose clocks show 2 and 2000: a debug build panics, and a
release build reports a violation that there is not. -/
theorem causality_wraps :
    validateCausality true [measurement14 2 none 0, measurement14 2000 none 1] = .panic ∧
      ∃ v, validateCausality false [measurement14 2 none 0, measurement14 2000 none 1] = .ok [v] ∧
        ¬ Violating [measurement14 2 none 0, measurement14 2000 none 1] [v] := by
  refine ⟨rfl, _, rfl, ?_⟩
  rintro ⟨pairs, -, hmem, hof⟩
  cases hof with
  | @cons p _ _ _ _ _ =>
      obtain ⟨i, j⟩ := p
      obtain ⟨hij, mi, mj, hmi, hmj, hviolates⟩ := (hmem i j).mp List.mem_cons_self
      have hj : j < 2 := (List.getElem?_eq_some_iff.mp hmj).1
      obtain ⟨rfl, rfl⟩ : i = 0 ∧ j = 1 := by omega
      cases hmi
      cases hmj
      exact absurd hviolates (by decide)

end Roughenough.Client
