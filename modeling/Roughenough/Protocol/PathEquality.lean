/-
# `Roughenough.Protocol.PathEquality` — the derived equality of Merkle paths

`#[derive(PartialEq)]` on `MerklePath` compares the count and all 1024 bytes
of the array.  Two paths of the same contents compare equal as long as the
bytes behind the contents are zero, which is how `default` and `from_wire_n`
make them.  Of the other operations,

    push_element    writes behind the contents        keeps the rest zero
    clone           copies the whole array            keeps the rest zero
    clear           sets the count to 0               leaves the elements behind
    copy_from       overwrites a prefix               leaves what is past it behind

A program holds any number of paths, by number, and a run is a list of calls
on them.  A run is tidy if whatever `clear` and `copy_from` leave behind is
zero.  The equality of contents holds in every state of a tidy run, and breaks
at the first step that is not tidy.
-/
import Mathlib.Logic.Function.Basic
import Roughenough.Protocol.Response

namespace Roughenough.Protocol.MerklePath

open Roughenough.Base ParseCursor

/-! ## Runs -/

/-- The paths of a program. -/
abbrev Vars := Nat → MerklePath

inductive Op where
  | default (dst : Nat)
  | pushElement (dst : Nat) (element : Octets 32)
  | clear (dst : Nat)
  | copyFrom (dst src : Nat)
  | clone (dst src : Nat)
  | fromWireN (dst n : Nat) (cursor : ParseCursor)

/-- What a call that fails or panics leaves in the variable it was to assign. -/
def answerOr (old : MerklePath) : Outcome Error MerklePath → MerklePath
  | .ok p => p
  | _ => old

def exec (vars : Vars) : Op → Vars
  | .default dst => Function.update vars dst default
  | .pushElement dst element =>
      Function.update vars dst (answerOr (vars dst) ((vars dst).pushElement element))
  | .clear dst => Function.update vars dst (vars dst).clear
  | .copyFrom dst src => Function.update vars dst ((vars dst).copyFrom (vars src))
  | .clone dst src => Function.update vars dst (vars src)
  | .fromWireN dst n cursor =>
      Function.update vars dst
        (answerOr (vars dst) (MerklePath.fromWireN n cursor >>= fun r => pure r.1))

def start : Vars := fun _ => default

def run (ops : List Op) : Vars := ops.foldl exec start

/-- `a == b` says what `a.paths() == b.paths()` says, of any two paths. -/
def Sound (vars : Vars) : Prop :=
  ∀ i j, vars i = vars j ↔ (vars i).paths = (vars j).paths

/-- The elements past the first `k`, which a path of `k` elements in its place gives up. -/
def givenUp (p : MerklePath) (k : Nat) : Bytes := p.paths.drop (k * 32)

/-- What the step leaves behind the contents is zero. -/
def Tidy (vars : Vars) : Op → Prop
  | .clear dst => ∀ x ∈ (vars dst).givenUp 0, x = 0
  | .copyFrom dst src => ∀ x ∈ (vars dst).givenUp (vars src).numPaths, x = 0
  | _ => True

def TidyFrom : Vars → List Op → Prop
  | _, [] => True
  | vars, op :: ops => Tidy vars op ∧ TidyFrom (exec vars op) ops

/-! ## What each operation does to the bytes behind the contents -/

theorem clean_iff {p : MerklePath} :
    p.Clean ↔ ∀ x ∈ p.data.bytes.drop (p.numPaths * 32), x = 0 := by
  unfold Clean
  rw [List.eq_replicate_iff, List.length_drop, p.data.size_eq]
  exact and_iff_right rfl

/-- Of a clean path, cutting the contents at `k` elements leaves the rest of them. -/
theorem Clean.drop_zero_iff {p : MerklePath} (hp : p.Clean) (k : Nat) :
    (∀ x ∈ p.data.bytes.drop (k * 32), x = 0) ↔ ∀ x ∈ p.givenUp k, x = 0 := by
  rw [hp.data_eq, List.drop_append]
  constructor
  · intro h x hx
    exact h x (List.mem_append_left _ hx)
  · intro h x hx
    rcases List.mem_append.mp hx with hx | hx
    · exact h x hx
    · exact List.eq_of_mem_replicate (List.mem_of_mem_drop hx)

theorem Clean.clear_iff {p : MerklePath} (hp : p.Clean) :
    p.clear.Clean ↔ ∀ x ∈ p.givenUp 0, x = 0 :=
  clean_iff.trans (hp.drop_zero_iff 0)

theorem Clean.copyFrom_iff {p : MerklePath} (hp : p.Clean) (other : MerklePath) :
    (p.copyFrom other).Clean ↔ ∀ x ∈ p.givenUp other.numPaths, x = 0 := by
  have hlen : (other.data.bytes.take (other.numPaths * 32)).length = other.numPaths * 32 := by
    have := other.bounded
    rw [List.length_take, other.data.size_eq]
    omega
  have hdrop : (p.copyFrom other).data.bytes.drop (other.numPaths * 32) =
      p.data.bytes.drop (other.numPaths * 32) := by
    show List.drop _ ([] ++ (_ ++ _)) = _
    rw [List.nil_append, List.drop_left' hlen]
  rw [clean_iff, show (p.copyFrom other).numPaths = other.numPaths from rfl, hdrop]
  exact hp.drop_zero_iff other.numPaths

theorem Clean.pushElement {p q : MerklePath} {e : Octets 32} (hp : p.Clean)
    (h : (p.pushElement e : Outcome Error MerklePath) = .ok q) : q.Clean := by
  unfold MerklePath.pushElement at h
  by_cases hroom : p.numPaths < 32
  · rw [dif_pos hroom, Outcome.ok.injEq] at h
    subst h
    have hlen : (p.data.bytes.take (p.numPaths * 32) ++ e.bytes).length =
        (p.numPaths + 1) * 32 := by
      rw [List.length_append, List.length_take, p.data.size_eq, e.size_eq]
      omega
    refine clean_iff.mpr ?_
    show ∀ x ∈ List.drop ((p.numPaths + 1) * 32) (_ ++ (_ ++ _)), x = 0
    rw [← List.append_assoc, List.drop_left' hlen, ← List.drop_drop]
    intro x hx
    exact clean_iff.mp hp x (List.mem_of_mem_drop hx)
  · rw [dif_neg hroom] at h
    cases h

theorem answerOr_clean {old : MerklePath} {o : Outcome Error MerklePath} (hold : old.Clean)
    (h : ∀ p, o = .ok p → p.Clean) : (answerOr old o).Clean := by
  cases o with
  | ok p => exact h p rfl
  | err e => exact hold
  | panic => exact hold

theorem fromWireN_clean {n : Nat} {c : ParseCursor} {p : MerklePath}
    (h : (MerklePath.fromWireN n c >>= fun r => pure r.1) = .ok p) : p.Clean := by
  obtain ⟨⟨q, c'⟩, hread, hq⟩ := Outcome.bind_ok_iff.mp h
  cases hq
  exact (fromWireN_ok_iff.mp hread).1

/-! ## Tidy runs -/

theorem update_clean_iff {vars : Vars} (hv : ∀ i, (vars i).Clean) {dst : Nat} {p : MerklePath} :
    (∀ i, (Function.update vars dst p i).Clean) ↔ p.Clean := by
  constructor
  · intro h
    have := h dst
    rwa [Function.update_self] at this
  · intro hp i
    by_cases hi : i = dst
    · rw [hi, Function.update_self]
      exact hp
    · rw [Function.update_of_ne hi]
      exact hv i

/-- From clean paths, the tidy steps are those to clean paths. -/
theorem tidy_iff {vars : Vars} (hv : ∀ i, (vars i).Clean) (op : Op) :
    Tidy vars op ↔ ∀ i, (exec vars op i).Clean := by
  cases op with
  | default dst => exact iff_of_true trivial ((update_clean_iff hv).mpr default_clean)
  | pushElement dst element =>
      exact iff_of_true trivial ((update_clean_iff hv).mpr
        (answerOr_clean (hv dst) fun _ hp => (hv dst).pushElement hp))
  | clear dst => exact (hv dst).clear_iff.symm.trans (update_clean_iff hv).symm
  | copyFrom dst src =>
      exact ((hv dst).copyFrom_iff (vars src)).symm.trans (update_clean_iff hv).symm
  | clone dst src => exact iff_of_true trivial ((update_clean_iff hv).mpr (hv src))
  | fromWireN dst n cursor =>
      exact iff_of_true trivial ((update_clean_iff hv).mpr
        (answerOr_clean (hv dst) fun _ hp => fromWireN_clean hp))

theorem foldl_clean {ops : List Op} {vars : Vars} (hv : ∀ i, (vars i).Clean)
    (h : TidyFrom vars ops) : ∀ i, (ops.foldl exec vars i).Clean := by
  induction ops generalizing vars with
  | nil => exact hv
  | cons op ops ih => exact ih ((tidy_iff hv op).mp h.1) h.2

theorem run_clean {ops : List Op} (h : TidyFrom start ops) : ∀ i, (run ops i).Clean :=
  foldl_clean (fun _ => default_clean) h

theorem sound_of_clean {vars : Vars} (hv : ∀ i, (vars i).Clean) : Sound vars := by
  intro i j
  constructor
  · intro h
    rw [h]
  · exact (hv i).eq_of_paths (hv j)

/-! ## The first step that is not tidy -/

theorem padded_length (p : MerklePath) :
    (p.paths ++ List.replicate (1024 - p.numPaths * 32) (0 : UInt8)).length = 1024 := by
  have := p.bounded
  rw [List.length_append, paths_length, List.length_replicate]
  omega

/-- The path that `from_wire_n` makes of the contents of `p`. -/
def reread (p : MerklePath) : MerklePath where
  numPaths := p.numPaths
  data := ⟨p.paths ++ List.replicate (1024 - p.numPaths * 32) 0, p.padded_length⟩
  bounded := p.bounded

theorem reread_paths (p : MerklePath) : p.reread.paths = p.paths := by
  show List.take (p.numPaths * 32) (p.paths ++ _) = _
  exact List.take_left' (by rw [paths_length, Nat.mul_comm])

theorem reread_clean (p : MerklePath) : p.reread.Clean := by
  show List.drop (p.numPaths * 32) (p.paths ++ _) = _
  exact List.drop_left' (by rw [paths_length, Nat.mul_comm])

theorem fromWireN_paths (p : MerklePath) :
    (MerklePath.fromWireN (32 * p.numPaths) (new p.paths) >>= fun r => pure r.1) =
      .ok p.reread := by
  have hrest : (new p.paths).rest = p.reread.paths ++ [] := by
    rw [rest_new, reread_paths, List.append_nil]
  have hread := fromWireN_ok_iff.mpr ⟨p.reread_clean, rfl, (Consumes.of_rest hrest).1⟩
  rw [show 32 * p.numPaths = 32 * p.reread.numPaths from rfl, hread]
  rfl

/-- A path with something behind its contents differs from what its contents read as. -/
theorem not_sound_of_stale {vars : Vars} {i : Nat} (h : ¬ (vars i).Clean) :
    ¬ Sound (exec vars (.fromWireN (i + 1) (32 * (vars i).numPaths) (new (vars i).paths))) := by
  intro hs
  have hsame := (hs i (i + 1)).mpr
  simp only [exec, fromWireN_paths, answerOr, Function.update_self,
    Function.update_of_ne (Nat.ne_of_lt (Nat.lt_succ_self i))] at hsame
  have heq := hsame (vars i).reread_paths.symm
  rw [heq] at h
  exact h (vars i).reread_clean

/-! ## Responses -/

/-- The accessors of two responses answer the same, the path by its contents. -/
structure SameAccessors (r s : Response) : Prop where
  header : r.header = s.header
  sig : r.signature = s.signature
  nonc : r.nonce = s.nonce
  msgType : r.msgType = s.msgType
  path : r.path.paths = s.path.paths
  srep : r.srep = s.srep
  cert : r.cert = s.cert
  indx : r.index = s.index

theorem SameAccessors.eq {r s : Response} (h : SameAccessors r s) (hpath : r.path = s.path) :
    r = s := by
  obtain ⟨hheader, hsig, hnonc, htype, -, hsrep, hcert, hindx⟩ := h
  cases r
  cases s
  simp only at hheader hsig hnonc htype hpath hsrep hcert hindx
  subst hheader hsig hnonc htype hpath hsrep hcert hindx
  rfl

/-! ## The result -/

/-- In a tidy run equality is equality of contents, of paths and so of responses that hold
them; a step that is not tidy can be continued to two unequal paths of one content. -/
theorem equality_of_tidy_run (ops : List Op) (h : TidyFrom start ops) :
    Sound (run ops) ∧
    (∀ r s : Response, (∃ i, r.path = run ops i) → (∃ j, s.path = run ops j) →
      SameAccessors r s → r = s) ∧
    ∀ op, ¬ Tidy (run ops) op → ∃ later, ¬ Sound (run (ops ++ op :: later)) := by
  have hclean := run_clean h
  have hsound := sound_of_clean hclean
  refine ⟨hsound, ?_, ?_⟩
  · rintro r s ⟨i, hi⟩ ⟨j, hj⟩ hsame
    have hpath : r.path = s.path := by
      rw [hi, hj]
      refine (hsound i j).mpr ?_
      rw [← hi, ← hj]
      exact hsame.path
    exact hsame.eq hpath
  · intro op huntidy
    have hstale : ¬ ∀ i, (exec (run ops) op i).Clean :=
      fun hall => huntidy ((tidy_iff hclean op).mpr hall)
    obtain ⟨i, hi⟩ := not_forall.mp hstale
    refine ⟨[.fromWireN (i + 1) (32 * (exec (run ops) op i).numPaths)
      (new (exec (run ops) op i).paths)], ?_⟩
    unfold run
    rw [List.foldl_append]
    exact not_sound_of_stale hi

/-- A path is read from the wire, cloned and grown, and the longer one copied back. -/
def grown : List Op :=
  [.fromWireN 0 32 (new (Octets.fill 32 7).bytes), .clone 1 0,
    .pushElement 1 (Octets.fill 32 9), .copyFrom 0 1]

theorem grown_tidy : TidyFrom start grown := by
  refine ⟨trivial, trivial, trivial, ?_, trivial⟩
  show ∀ x ∈ givenUp _ _, x = 0
  decide +kernel

theorem equality_of_tidy_run_grown : Sound (run grown) ∧ run grown 0 = run grown 1 := by
  have hsound := (equality_of_tidy_run grown grown_tidy).1
  exact ⟨hsound, (hsound 0 1).mpr (by decide +kernel)⟩

/-- One element pushed and cleared, beside a path that never had one. -/
theorem equality_after_clear :
    ¬ Sound (run [.pushElement 0 (Octets.fill 32 1), .clear 0]) := by
  intro hs
  have hsame := (hs 0 1).mpr (by decide +kernel)
  exact absurd hsame (by decide +kernel)

end Roughenough.Protocol.MerklePath
