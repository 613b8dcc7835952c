/-
# `Roughenough.Base.AtomicFile` — a writer that replaces files whole

A file is written under a hidden name, synced, and renamed.  Anything can fail
on the way: a write stops anywhere, a program is killed, a machine crashes.

    take n d      the writer is to put `d` under the name `n`; there may be no `d`
    create        an empty file under the hidden name of `n`
    write k       the first `k` bytes of `d` are there
    sync          they stay there
    rename n d    the file is found under `n`, and no more under its hidden name
    fail          an operation fails, or the program ends; the file stays as it is
    crash         a name has nothing behind it or what it had at some time, and that
                  has any content if it was not synced

Renaming is one step, for a crash as well.  Under a name that is not a hidden
one there is, at any time, nothing, what was there in the beginning, or the
whole of some `d` that was renamed to it (`Runs.whole`); and the last of these,
if there was no crash (`Runs.latest`).
-/
import Mathlib.Logic.Function.Basic
import Roughenough.Base.Traces

namespace Roughenough.Base.AtomicFile

structure File (β : Type) where
  data : List β
  synced : Bool

inductive Writer (ν β : Type) where
  | idle
  | queued (name : ν) (data : Option (List β))
  | opened (name : ν) (data : Option (List β))
  | written (name : ν) (data : List β)
  | synced (name : ν) (data : List β)

/-- A directory and its writer.  `past` is what was found under each name before. -/
structure Disk (ν β : Type) where
  files : ν → Option (File β)
  past : ν → List (File β)
  writer : Writer ν β

inductive Op (ν β : Type) where
  | take (name : ν) (data : Option (List β))
  | create
  | write (k : Nat)
  | sync
  | rename (name : ν) (data : List β)
  | fail
  | crash

section Steps

variable {ν β : Type} [DecidableEq ν]

namespace Disk

def put (d : Disk ν β) (n : ν) (f : Option (File β)) : Disk ν β :=
  { d with
    files := Function.update d.files n f
    past := Function.update d.past n ((d.files n).toList ++ d.past n) }

def init (files : ν → Option (List β)) : Disk ν β where
  files n := (files n).map fun data => ⟨data, true⟩
  past _ := []
  writer := .idle

end Disk

/-- What a crash may make of a name. -/
def Recovers (found : List (File β)) (left : Option (File β)) : Prop :=
  ∀ g ∈ left, ∃ f ∈ found, f.synced = true → g = f

inductive Step (temp : ν → ν) : Disk ν β → Op ν β → Disk ν β → Prop
  | take {d : Disk ν β} (n : ν) (data : Option (List β)) : d.writer = .idle →
      Step temp d (.take n data) { d with writer := .queued n data }
  | create {d : Disk ν β} {n : ν} {data : Option (List β)} : d.writer = .queued n data →
      Step temp d .create { d.put (temp n) (some ⟨[], false⟩) with writer := .opened n data }
  | write {d : Disk ν β} {n : ν} {data : List β} (k : Nat) : d.writer = .opened n (some data) →
      Step temp d (.write k)
        { d.put (temp n) (some ⟨data.take k, false⟩) with
          writer := if data.length ≤ k then .written n data else .opened n (some data) }
  | sync {d : Disk ν β} {n : ν} {data : List β} : d.writer = .written n data →
      Step temp d .sync
        { d.put (temp n) ((d.files (temp n)).map fun f => { f with synced := true }) with
          writer := .synced n data }
  | rename {d : Disk ν β} {n : ν} {data : List β} : d.writer = .synced n data →
      Step temp d (.rename n data)
        { (d.put n (d.files (temp n))).put (temp n) none with writer := .idle }
  | fail {d : Disk ν β} : d.writer ≠ .idle → Step temp d .fail { d with writer := .idle }
  | crash {d : Disk ν β} (left : ν → Option (File β)) :
      (∀ n, Recovers ((d.files n).toList ++ d.past n) (left n)) →
      Step temp d .crash
        { files := left, past := fun n => (d.files n).toList ++ d.past n, writer := .idle }

def Runs (temp : ν → ν) (files : ν → Option (List β)) (ops : List (Op ν β)) (d : Disk ν β) :
    Prop :=
  Trace (Step temp) (Disk.init files) ops d

/-! ## The versions of a file -/

/-- The content that an operation puts under a name. -/
def Op.version (n : ν) : Op ν β → Option (List β)
  | .take _ _ => none
  | .create => none
  | .write _ => none
  | .sync => none
  | .rename n' data => if n' = n then some data else none
  | .fail => none
  | .crash => none

/-- What was put under a name, the last first, and what was there before. -/
def versions (files : ν → Option (List β)) (ops : List (Op ν β)) (n : ν) : List (List β) :=
  (ops.filterMap (Op.version n)).reverse ++ (files n).toList

variable {temp : ν → ν} {files : ν → Option (List β)} {ops : List (Op ν β)} {op : Op ν β}
  {d d' : Disk ν β}

theorem versions_concat (files : ν → Option (List β)) (ops : List (Op ν β)) (op : Op ν β) (n : ν) :
    versions files (ops ++ [op]) n = (op.version n).toList ++ versions files ops n := by
  unfold versions
  rw [List.filterMap_append, List.reverse_append, List.append_assoc]
  cases h : op.version n with
  | none => simp [h]
  | some data => simp [h]

theorem Op.version_eq_some_iff {n : ν} {data : List β} :
    op.version n = some data ↔ op = .rename n data := by
  cases op with
  | rename n' data' =>
      show (if n' = n then some data' else none) = some data ↔ _
      rw [Option.ite_none_right_eq_some, Option.some.injEq, Op.rename.injEq]
  | take n' data' => exact ⟨(fun h => nomatch h), fun h => nomatch h⟩
  | create => exact ⟨(fun h => nomatch h), fun h => nomatch h⟩
  | write k => exact ⟨(fun h => nomatch h), fun h => nomatch h⟩
  | sync => exact ⟨(fun h => nomatch h), fun h => nomatch h⟩
  | fail => exact ⟨(fun h => nomatch h), fun h => nomatch h⟩
  | crash => exact ⟨(fun h => nomatch h), fun h => nomatch h⟩

theorem mem_versions_iff {n : ν} {data : List β} :
    data ∈ versions files ops n ↔ .rename n data ∈ ops ∨ files n = some data := by
  unfold versions
  rw [List.mem_append, List.mem_reverse, List.mem_filterMap, Option.mem_toList]
  refine or_congr_left ?_
  constructor
  · rintro ⟨op, hop, hversion⟩
    obtain rfl := Op.version_eq_some_iff.mp hversion
    exact hop
  · intro hop
    exact ⟨_, hop, Op.version_eq_some_iff.mpr rfl⟩

/-- The last version is that of the last renaming. -/
theorem head?_versions {pre post : List (Op ν β)} {n : ν} {data : List β}
    (hlast : ∀ data', .rename n data' ∉ post) :
    (versions files (pre ++ .rename n data :: post) n).head? = some data := by
  have hnone : post.filterMap (Op.version n) = [] := by
    refine List.filterMap_eq_nil_iff.mpr ?_
    intro op hop
    refine Option.eq_none_iff_forall_ne_some.mpr ?_
    intro data' hversion
    exact hlast data' (Op.version_eq_some_iff.mp hversion ▸ hop)
  unfold versions
  rw [List.filterMap_append, List.filterMap_cons_some (Op.version_eq_some_iff.mpr rfl), hnone,
    List.reverse_append]
  rfl

/-! ## What every run keeps -/

/-- The hidden file of a writer that has written, and of one that has synced. -/
def Hidden (temp : ν → ν) (d : Disk ν β) : Prop :=
  match d.writer with
  | .idle => True
  | .queued _ _ => True
  | .opened _ _ => True
  | .written n data => ∃ synced, d.files (temp n) = some ⟨data, synced⟩
  | .synced n data => d.files (temp n) = some ⟨data, true⟩

theorem Step.hidden (hstep : Step temp d op d') (h : Hidden temp d) : Hidden temp d' := by
  cases hstep with
  | take n data hidle => trivial
  | create hqueued => trivial
  | @write n data k hopened =>
      by_cases hlong : data.length ≤ k
      · unfold Hidden
        simp only [if_pos hlong, Disk.put]
        rw [Function.update_self, List.take_of_length_le hlong]
        exact ⟨false, rfl⟩
      · unfold Hidden
        simp only [if_neg hlong]
  | @sync n data hwritten =>
      unfold Hidden at h
      rw [hwritten] at h
      obtain ⟨synced, hfile⟩ := h
      show (Function.update d.files (temp n) _) (temp n) = _
      rw [Function.update_self, hfile]
      rfl
  | rename hsynced => trivial
  | fail hbusy => trivial
  | crash left hleft => trivial

theorem Runs.hidden (h : Runs temp files ops d) : Hidden temp d := by
  have hstart : Hidden temp (Disk.init files) := trivial
  refine Trace.invariant (fun _ (d : Disk ν β) => Hidden temp d) hstart ?_ h
  intro _ d op d' _ hd hstep
  exact hstep.hidden hd

/-- Under a name that is not hidden: what is there, or was there, is synced and a version. -/
def Whole (temp : ν → ν) (files : ν → Option (List β)) (ops : List (Op ν β)) (d : Disk ν β) :
    Prop :=
  ∀ n, (∀ m, temp m ≠ n) → ∀ f ∈ (d.files n).toList ++ d.past n,
    f.synced = true ∧ f.data ∈ versions files ops n

theorem Whole.mono (h : Whole temp files ops d) (op : Op ν β) :
    Whole temp files (ops ++ [op]) d := by
  intro n hn f hf
  obtain ⟨hsynced, hversion⟩ := h n hn f hf
  refine ⟨hsynced, ?_⟩
  rw [versions_concat]
  exact List.mem_append_right _ hversion

/-- A hidden name is none of those. -/
theorem Whole.put (h : Whole temp files ops d) (m : ν) (f : Option (File β)) :
    Whole temp files ops (d.put (temp m) f) := by
  intro n hn
  have hne : n ≠ temp m := Ne.symm (hn m)
  show ∀ g ∈ (Function.update d.files (temp m) f n).toList ++
    Function.update d.past (temp m) _ n, _
  rw [Function.update_of_ne hne, Function.update_of_ne hne]
  exact h n hn

theorem Step.whole (hstep : Step temp d op d') (hhidden : Hidden temp d)
    (h : Whole temp files ops d) : Whole temp files (ops ++ [op]) d' := by
  cases hstep with
  | take n data hidle => exact h.mono _
  | @create n data hqueued => exact (h.put n _).mono _
  | @write n data k hopened => exact (h.put n _).mono _
  | @sync n data hwritten => exact (h.put n _).mono _
  | @rename n data hsynced =>
      unfold Hidden at hhidden
      rw [hsynced] at hhidden
      refine Whole.put ?_ n none
      intro n' hn' f hf
      by_cases hn : n' = n
      · subst hn
        change f ∈ (Function.update d.files n' (d.files (temp n')) n').toList ++
          Function.update d.past n' ((d.files n').toList ++ d.past n') n' at hf
        rw [Function.update_self, Function.update_self, hhidden] at hf
        rcases List.mem_cons.mp hf with rfl | hold
        · refine ⟨rfl, ?_⟩
          rw [versions_concat, Op.version, if_pos rfl]
          exact List.mem_cons_self
        · exact h.mono _ n' hn' f hold
      · change f ∈ (Function.update d.files n (d.files (temp n)) n').toList ++
          Function.update d.past n ((d.files n).toList ++ d.past n) n' at hf
        rw [Function.update_of_ne hn, Function.update_of_ne hn] at hf
        exact h.mono _ n' hn' f hf
  | fail hbusy => exact h.mono _
  | crash left hleft =>
      refine Whole.mono ?_ _
      intro n hn f hf
      rcases List.mem_append.mp hf with hnow | hpast
      · obtain ⟨g, hg, hsame⟩ := hleft n f (Option.mem_toList.mp hnow)
        obtain ⟨hsynced, hversion⟩ := h n hn g hg
        rw [hsame hsynced]
        exact ⟨hsynced, hversion⟩
      · exact h n hn f hpast

theorem Runs.whole (h : Runs temp files ops d) : Whole temp files ops d := by
  obtain hstart : Whole temp files [] (Disk.init files) := by
    intro n hn f hf
    rcases List.mem_append.mp hf with hnow | hpast
    · obtain ⟨data, hdata, rfl⟩ := Option.map_eq_some_iff.mp (Option.mem_toList.mp hnow)
      refine ⟨rfl, ?_⟩
      show data ∈ [] ++ (files n).toList
      rw [hdata]
      exact List.mem_cons_self
    · cases hpast
  refine Trace.invariant (fun done (d : Disk ν β) => Whole temp files done d) hstart ?_ h
  intro done d op d' hrun hd hstep
  exact hstep.whole (Runs.hidden hrun) hd

/-- Without a crash a name has its last version behind it. -/
theorem Runs.latest (h : Runs temp files ops d) (hcalm : .crash ∉ ops) {n : ν}
    (hn : ∀ m, temp m ≠ n) : (d.files n).map File.data = (versions files ops n).head? := by
  have hstart : .crash ∉ ([] : List (Op ν β)) →
      ((Disk.init files).files n).map File.data = (versions files [] n).head? := by
    intro _
    show ((files n).map _).map File.data = (files n).toList.head?
    cases files n with
    | none => rfl
    | some data => rfl
  refine Trace.invariant (fun done (d : Disk ν β) => .crash ∉ done →
    (d.files n).map File.data = (versions files done n).head?) hstart ?_ h hcalm
  intro done d op d' hrun hd hstep hcalm
  rw [versions_concat]
  have hbefore := hd fun hmem => hcalm (List.mem_append_left _ hmem)
  have hkept : ∀ m (f : Option (File β)), Function.update d.files (temp m) f n = d.files n :=
    fun m f => Function.update_of_ne (Ne.symm (hn m)) f d.files
  cases hstep with
  | take m data hidle => exact hbefore
  | @create m data hqueued =>
      show (Function.update d.files (temp m) _ n).map File.data = _
      rw [hkept]
      exact hbefore
  | @write m data k hopened =>
      show (Function.update d.files (temp m) _ n).map File.data = _
      rw [hkept]
      exact hbefore
  | @sync m data hwritten =>
      show (Function.update d.files (temp m) _ n).map File.data = _
      rw [hkept]
      exact hbefore
  | @rename m data hsynced =>
      show (Function.update (Function.update d.files m (d.files (temp m))) (temp m) none n).map
        File.data = _
      rw [Function.update_of_ne (Ne.symm (hn m)), Op.version]
      by_cases hm : m = n
      · have hhidden := Runs.hidden hrun
        unfold Hidden at hhidden
        rw [hsynced] at hhidden
        subst hm
        rw [Function.update_self, hhidden, if_pos rfl]
        rfl
      · rw [Function.update_of_ne (Ne.symm hm), if_neg hm]
        exact hbefore
  | fail hbusy => exact hbefore
  | crash left hleft => exact absurd (List.mem_append_right _ (List.mem_singleton.mpr rfl)) hcalm

/-- What the writer has to do. -/
def Writer.job : Writer ν β → Option (ν × Option (List β))
  | .idle => none
  | .queued n data => some (n, data)
  | .opened n data => some (n, data)
  | .written n data => some (n, some data)
  | .synced n data => some (n, some data)

theorem Step.job (hstep : Step temp d op d') {n : ν} {data : Option (List β)}
    (hjob : d'.writer.job = some (n, data)) :
    d.writer.job = some (n, data) ∨ op = .take n data := by
  cases hstep with
  | take m data' hidle =>
      cases hjob
      exact .inr rfl
  | create hqueued =>
      rw [hqueued]
      exact .inl hjob
  | @write m data' k hopened =>
      rw [hopened]
      refine .inl (Eq.trans ?_ hjob)
      show some (m, some data') = (if data'.length ≤ k then Writer.written m data'
        else .opened m (some data')).job
      split <;> rfl
  | sync hwritten =>
      rw [hwritten]
      exact .inl hjob
  | rename hsynced => cases hjob
  | fail hbusy => cases hjob
  | crash left hleft => cases hjob

/-- What is renamed was taken before. -/
theorem Runs.taken (h : Runs temp files ops d) {n : ν} {data : List β}
    (hrename : .rename n data ∈ ops) : .take n (some data) ∈ ops := by
  suffices hall : (∀ n data, d.writer.job = some (n, data) → .take n data ∈ ops) ∧
      ∀ n data, Op.rename n data ∈ ops → .take n (some data) ∈ ops from hall.2 n data hrename
  have hstart : (∀ n data, (Disk.init files).writer.job = some (n, data) →
      Op.take n data ∈ ([] : List (Op ν β))) ∧
      ∀ n data, Op.rename n data ∈ ([] : List (Op ν β)) →
        Op.take n (some data) ∈ ([] : List (Op ν β)) := by
    refine ⟨?_, ?_⟩
    · intro n data hjob
      cases hjob
    · intro n data hmem
      cases hmem
  refine Trace.invariant (fun done (d : Disk ν β) =>
    (∀ n data, d.writer.job = some (n, data) → .take n data ∈ done) ∧
      ∀ n data, Op.rename n data ∈ done → .take n (some data) ∈ done) hstart ?_ h
  intro done d op d' _ ⟨hjobs, hrenames⟩ hstep
  refine ⟨?_, ?_⟩
  · intro n data hjob
    rcases hstep.job hjob with hbefore | rfl
    · exact List.mem_append_left _ (hjobs n data hbefore)
    · exact List.mem_append_right _ (List.mem_singleton.mpr rfl)
  · intro n data hmem
    rcases List.mem_append.mp hmem with hold | hnew
    · exact List.mem_append_left _ (hrenames n data hold)
    · obtain rfl := List.mem_singleton.mp hnew
      cases hstep with
      | rename hsynced =>
          refine List.mem_append_left _ (hjobs n (some data) ?_)
          rw [hsynced]
          rfl

end Steps

end Roughenough.Base.AtomicFile
