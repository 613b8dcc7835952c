/-
# `Roughenough.Protocol.Version` — protocol versions and version lists

`protocol_ver.rs`, `version_list.rs`, `tags/ver.rs`, `tags/vers.rs` and
`tags/mtype.rs`.

A version is a little-endian word.  The decoder takes three words, not two:

    0x00000000   RfcDraft08   (legacy Google)
    0x80000008   RfcDraft08
    0x8000000c   RfcDraft14

so decoding is not injective, and the encoder never writes the first.  The
grammar below therefore speaks of the words a list was read from
(`VersionList.Words`) and not only of the list.

The list reader is told how many bytes the list has and stops after
`MAX_VERSIONS` entries even when the bytes go on; what follows is then read
from inside the list.
-/
import Roughenough.Protocol.Header

namespace Roughenough.Protocol

open Roughenough.Base ParseCursor

inductive ProtocolVersion where
  | rfcDraft08
  | rfcDraft14
  deriving DecidableEq, Repr

namespace ProtocolVersion

def value : ProtocolVersion → UInt32
  | rfcDraft08 => 0x80000008
  | rfcDraft14 => 0x8000000c

def delePrefix : ProtocolVersion → Bytes
  | rfcDraft08 => ascii "RoughTime v1 delegation signature--\x00"
  | rfcDraft14 => ascii "RoughTime v1 delegation signature\x00"

def srepPrefix : ProtocolVersion → Bytes
  | rfcDraft08 | rfcDraft14 => ascii "RoughTime v1 response signature\x00"

def requiresTypeTag : ProtocolVersion → Bool
  | rfcDraft08 => false
  | rfcDraft14 => true

/-- The derived order: by discriminant. -/
def lt (a b : ProtocolVersion) : Prop := a.value.toNat < b.value.toNat

instance (a b : ProtocolVersion) : Decidable (lt a b) := inferInstanceAs (Decidable (_ < _))

/-- `size_of::<ProtocolVersion>()`. -/
def wireSize : Nat := 4

def toWire (v : ProtocolVersion) : Wire Unit := putU32Le v.value

/-- The match on the word in `from_wire`. -/
def ofWord (w : UInt32) : Option ProtocolVersion :=
  if w = 0x00000000 ∨ w = 0x80000008 then some rfcDraft08
  else if w = 0x8000000c then some rfcDraft14
  else none

def fromWire : Wire ProtocolVersion := do
  let value ← tryGetU32Le
  match ofWord value with
  | some v => pure v
  | none => Prog.fail (.invalidVersion value.toNat)

@[simp] theorem ofWord_value (v : ProtocolVersion) : ofWord v.value = some v := by
  cases v <;> decide

/-- The word is the one the encoder writes, unless it is the legacy zero. -/
theorem value_of_ofWord {w : UInt32} {v : ProtocolVersion} (h : ofWord w = some v) :
    (w = 0 ∧ v = rfcDraft08) ∨ w = v.value := by
  unfold ofWord at h
  by_cases h₁ : w = 0x00000000 ∨ w = 0x80000008
  · rw [if_pos h₁, Option.some.injEq] at h
    subst h
    rcases h₁ with h₁ | h₁
    · exact .inl ⟨h₁, rfl⟩
    · exact .inr h₁
  · rw [if_neg h₁] at h
    by_cases h₂ : w = 0x8000000c
    · rw [if_pos h₂, Option.some.injEq] at h
      subst h
      exact .inr h₂
    · simp [h₂] at h

theorem fromWire_ok_iff {v : ProtocolVersion} {c c' : ParseCursor} :
    fromWire c = .ok (v, c') ↔ ∃ w, ofWord w = some v ∧ Consumes c (leBytes32 w) c' := by
  simp only [fromWire, Prog.bind_ok_iff, tryGetU32Le_ok_iff]
  constructor
  · rintro ⟨w, c₁, h₁, h⟩
    cases hw : ofWord w with
    | none => simp [hw] at h
    | some v' =>
        simp only [hw, Prog.pure_ok_iff] at h
        obtain ⟨rfl, rfl⟩ := h
        exact ⟨w, hw, h₁⟩
  · rintro ⟨w, hw, h⟩
    exact ⟨w, c', h, by simp [hw]⟩

theorem safe_fromWire (c : ParseCursor) : Prog.Safe fromWire c := by
  refine (safe_tryGetU32Le c).bind fun w c' _ => ?_
  cases ofWord w with
  | none => exact Prog.safe_fail _ _
  | some v => exact Prog.safe_pure _ _

theorem toWire_writes (v : ProtocolVersion) : Writes v.toWire (leBytes32 v.value) :=
  Writes.putU32Le _

end ProtocolVersion

/-! ## Version lists -/

/-- At most `MAX_VERSIONS` versions: every constructor of the sources keeps the bound. -/
structure VersionList where
  versions : List ProtocolVersion
  bounded : versions.length ≤ 32
  deriving DecidableEq

namespace VersionList

def maxVersions : Nat := 32

/-- `VersionList::new`: excess versions are discarded. -/
def new (versions : List ProtocolVersion) : VersionList where
  versions := versions.take (min versions.length maxVersions)
  bounded := by simp only [List.length_take, maxVersions]; omega

def default : VersionList := ⟨[], by decide⟩

def isSupported (l : VersionList) (v : ProtocolVersion) : Bool := l.versions.contains v

def wireSize (l : VersionList) : Nat := l.versions.length * ProtocolVersion.wireSize

def toWire (l : VersionList) : Wire Unit := l.versions.forM ProtocolVersion.toWire

/-- The loop of `from_wire_n`.  `room` counts the entries the list may still take, so the
guard `versions.len() < MAX_VERSIONS` is `room ≠ 0`. -/
def fromWireLoop : (room remaining : Nat) → Option ProtocolVersion →
    (acc : List ProtocolVersion) → acc.length + room = 32 → Wire VersionList
  | 0, _, _, acc, h => pure ⟨acc, by omega⟩
  | room + 1, remaining, prior, acc, h =>
      if remaining = 0 then pure ⟨acc, by omega⟩
      else do
        let version ← ProtocolVersion.fromWire
        Prog.failIf (∃ p ∈ prior, version.lt p) (.unorderedVersion acc.length version.value.toNat)
        let remaining ← Prog.checkedSub remaining ProtocolVersion.wireSize
        fromWireLoop room remaining (some version) (acc ++ [version])
          (by rw [List.length_append, List.length_singleton]; omega)

def fromWireN (n : Nat) : Wire VersionList := fromWireLoop 32 n none [] rfl

/-! ### The grammar of a version list -/

/-- The words `ws` spell the versions `vs`. -/
def Words (vs : List ProtocolVersion) (ws : List UInt32) : Prop :=
  ws.map ProtocolVersion.ofWord = vs.map some

/-- No version is below the one before it. -/
def Ascending : Option ProtocolVersion → List ProtocolVersion → Prop
  | _, [] => True
  | prior, v :: vs => (∀ p ∈ prior, ¬ v.lt p) ∧ Ascending (some v) vs

instance decAscending : ∀ (p : Option ProtocolVersion) (vs : List ProtocolVersion),
    Decidable (Ascending p vs)
  | _, [] => isTrue trivial
  | p, v :: vs =>
      have := decAscending (some v) vs
      inferInstanceAs (Decidable ((∀ q ∈ p, ¬ v.lt q) ∧ Ascending (some v) vs))

theorem Words.length_eq {vs : List ProtocolVersion} {ws : List UInt32} (h : Words vs ws) :
    ws.length = vs.length := by
  have := congrArg List.length h
  simpa using this

theorem words_values (vs : List ProtocolVersion) : Words vs (vs.map ProtocolVersion.value) := by
  simp [Words, Function.comp_def]

theorem flatMap_words_length (ws : List UInt32) : (ws.flatMap leBytes32).length = 4 * ws.length :=
  Header.flatMap_length_const leBytes32_length ws

/-- Without a zero word, the words are the ones the encoder writes. -/
theorem Words.eq_values : ∀ {vs : List ProtocolVersion} {ws : List UInt32}, Words vs ws →
    (∀ w ∈ ws, w ≠ 0) → ws = vs.map ProtocolVersion.value
  | [], [], _, _ => rfl
  | [], _ :: _, h, _ => by simp [Words] at h
  | _ :: _, [], h, _ => by simp [Words] at h
  | v :: vs, w :: ws, h, hz => by
      simp only [Words, List.map_cons, List.cons.injEq] at h
      have hw : w = v.value := by
        rcases ProtocolVersion.value_of_ofWord h.1 with ⟨h0, -⟩ | hv
        · exact absurd h0 (hz w List.mem_cons_self)
        · exact hv
      have hws : ws = vs.map ProtocolVersion.value :=
        Words.eq_values h.2 fun w' hw' => hz w' (List.mem_cons_of_mem _ hw')
      rw [List.map_cons, hw, hws]

/-- The loop stops: no more versions are read. -/
theorem stop_iff {acc : List ProtocolVersion} {hacc : acc.length ≤ 32}
    {prior : Option ProtocolVersion} {l : VersionList} {c c' : ParseCursor} {size : Nat}
    (hsize : size = 0) :
    ((⟨acc, hacc⟩ : VersionList) = l ∧ c = c') ↔
      ∃ vs ws, l.versions = acc ++ vs ∧ Words vs ws ∧ Ascending prior vs ∧
        4 * vs.length = size ∧ Consumes c (ws.flatMap leBytes32) c' := by
  constructor
  · rintro ⟨rfl, rfl⟩
    exact ⟨[], [], (List.append_nil acc).symm, rfl, trivial, hsize.symm, Consumes.refl c⟩
  · rintro ⟨vs, ws, hl, hw, -, hlen, hc⟩
    have hvs : vs = [] := List.eq_nil_of_length_eq_zero (by omega)
    subst hvs
    have hws : ws = [] := List.eq_nil_of_length_eq_zero (by rw [hw.length_eq]; rfl)
    subst hws
    obtain ⟨versions, _⟩ := l
    have hversions : versions = acc ++ [] := hl
    rw [List.append_nil] at hversions
    subst hversions
    exact ⟨rfl, hc.next_eq.symm⟩

theorem fromWireLoop_ok_iff : ∀ {room remaining : Nat} {prior : Option ProtocolVersion}
    {acc : List ProtocolVersion} {h : acc.length + room = 32} {l : VersionList}
    {c c' : ParseCursor}, remaining % 4 = 0 →
    (fromWireLoop room remaining prior acc h c = .ok (l, c') ↔
      ∃ vs ws, l.versions = acc ++ vs ∧ Words vs ws ∧ Ascending prior vs ∧
        4 * vs.length = min remaining (4 * room) ∧ Consumes c (ws.flatMap leBytes32) c')
  | 0, remaining, prior, acc, h, l, c, c', hr => by
      rw [fromWireLoop, Prog.pure_ok_iff]
      exact stop_iff (by omega)
  | room + 1, remaining, prior, acc, h, l, c, c', hr => by
      by_cases h0 : remaining = 0
      · rw [fromWireLoop, if_pos h0, Prog.pure_ok_iff]
        exact stop_iff (by omega)
      · have h4 : 4 ≤ remaining := by omega
        have hmod : (remaining - 4) % 4 = 0 := by omega
        simp only [fromWireLoop, if_neg h0, Prog.bind_ok_iff, ProtocolVersion.fromWire_ok_iff,
          Prog.failIf_ok_iff, Prog.checkedSub_ok_iff, ProtocolVersion.wireSize]
        constructor
        · rintro ⟨v, c₁, ⟨w, hw, h₁⟩, _, _, ⟨hlt, rfl⟩, _, _, ⟨⟨-, rfl⟩, rfl⟩, h₂⟩
          obtain ⟨vs, ws, hl, hws, hasc, hlen, hc⟩ := (fromWireLoop_ok_iff hmod).mp h₂
          refine ⟨v :: vs, w :: ws, ?_, ?_, ⟨?_, hasc⟩, ?_, ?_⟩
          · rw [hl, List.append_assoc]; rfl
          · simp only [Words, List.map_cons, hw]
            rw [hws]
          · intro p hp hvp
            exact hlt ⟨p, hp, hvp⟩
          · rw [List.length_cons]; omega
          · rw [List.flatMap_cons]
            exact h₁.trans hc
        · rintro ⟨vs, ws, hl, hws, hasc, hlen, hc⟩
          cases vs with
          | nil => simp only [List.length_nil] at hlen; omega
          | cons v vs =>
              cases ws with
              | nil => simp [Words] at hws
              | cons w ws =>
                  simp only [Words, List.map_cons, List.cons.injEq] at hws
                  rw [List.flatMap_cons] at hc
                  obtain ⟨c₁, h₁, h₂⟩ := hc.split
                  refine ⟨v, c₁, ⟨w, hws.1, h₁⟩, (), c₁, ⟨?_, rfl⟩, remaining - 4, c₁,
                    ⟨⟨h4, rfl⟩, rfl⟩, ?_⟩
                  · rintro ⟨p, hp, hvp⟩
                    exact hasc.1 p hp hvp
                  · refine (fromWireLoop_ok_iff hmod).mpr ⟨vs, ws, ?_, hws.2, hasc.2, ?_, h₂⟩
                    · rw [hl, List.append_assoc]; rfl
                    · rw [List.length_cons] at hlen; omega

/-- Reading a list of `n` bytes takes `min n 128` of them. -/
theorem fromWireN_ok_iff {n : Nat} {l : VersionList} {c c' : ParseCursor} (hn : n % 4 = 0) :
    fromWireN n c = .ok (l, c') ↔
      ∃ ws, Words l.versions ws ∧ Ascending none l.versions ∧
        4 * l.versions.length = min n 128 ∧ Consumes c (ws.flatMap leBytes32) c' := by
  rw [fromWireN, fromWireLoop_ok_iff hn]
  constructor
  · rintro ⟨vs, ws, hl, h⟩
    rw [List.nil_append] at hl
    subst hl
    exact ⟨ws, h⟩
  · rintro ⟨ws, h⟩
    exact ⟨l.versions, ws, rfl, h⟩

theorem safe_fromWireLoop : ∀ {room remaining : Nat} {prior : Option ProtocolVersion}
    {acc : List ProtocolVersion} {h : acc.length + room = 32} (c : ParseCursor),
    remaining % 4 = 0 → Prog.Safe (fromWireLoop room remaining prior acc h) c
  | 0, _, _, _, _, c, _ => Prog.safe_pure _ c
  | room + 1, remaining, prior, acc, h, c, hr => by
      unfold fromWireLoop
      by_cases h0 : remaining = 0
      · rw [if_pos h0]
        exact Prog.safe_pure _ c
      · -- a positive multiple of four is at least the size of one version
        have h4 : 4 ≤ remaining := by omega
        rw [if_neg h0]
        refine (ProtocolVersion.safe_fromWire c).bind fun v c₁ _ => ?_
        refine (Prog.safe_failIf _ _ _).bind fun _ c₂ _ => ?_
        refine (Prog.safe_checkedSub h4 _).bind fun n c₃ hn => ?_
        obtain ⟨⟨-, rfl⟩, -⟩ := Prog.checkedSub_ok_iff.mp hn
        have hmod : (remaining - 4) % 4 = 0 := by omega
        exact safe_fromWireLoop c₃ hmod

theorem safe_fromWireN {n : Nat} (hn : n % 4 = 0) (c : ParseCursor) :
    Prog.Safe (fromWireN n) c := safe_fromWireLoop c hn

/-- The bytes the encoder writes. -/
def encode (l : VersionList) : Bytes := (l.versions.map ProtocolVersion.value).flatMap leBytes32

theorem encode_length (l : VersionList) : l.encode.length = l.wireSize := by
  simp only [encode, flatMap_words_length, List.length_map, wireSize, ProtocolVersion.wireSize]
  omega

theorem toWire_writes (l : VersionList) : Writes l.toWire l.encode := by
  rw [encode, List.flatMap_map]
  exact Writes.forEach ProtocolVersion.toWire_writes _

end VersionList

/-- `RequestedVersions` (VER) and `SupportedVersions` (VERS) wrap the same list. -/
abbrev RequestedVersions := VersionList
abbrev SupportedVersions := VersionList

/-- `Default for RequestedVersions`: draft-14 alone. -/
def RequestedVersions.default : RequestedVersions := VersionList.new [.rfcDraft14]

/-! ## Message types -/

inductive MessageType where
  | request
  | response
  | invalid
  deriving DecidableEq, Repr

namespace MessageType

def value : MessageType → UInt32
  | request => 0x00000000
  | response => 0x00000001
  | invalid => 0xffffffff

def wireSize : Nat := 4

def toWire (t : MessageType) : Wire Unit := putU32Le t.value

def fromWire : Wire MessageType := do
  let value ← tryGetU32Le
  if value = 0x00000000 then pure request
  else if value = 0x00000001 then pure response
  else Prog.fail (.invalidMessageType value.toNat)

theorem fromWire_ok_iff {t : MessageType} {c c' : ParseCursor} :
    fromWire c = .ok (t, c') ↔ t ≠ invalid ∧ Consumes c (leBytes32 t.value) c' := by
  simp only [fromWire, Prog.bind_ok_iff, tryGetU32Le_ok_iff]
  constructor
  · rintro ⟨w, c₁, h₁, h⟩
    by_cases h0 : w = 0x00000000
    · rw [if_pos h0, Prog.pure_ok_iff] at h
      obtain ⟨rfl, rfl⟩ := h
      subst h0
      exact ⟨by decide, h₁⟩
    · rw [if_neg h0] at h
      by_cases h1 : w = 0x00000001
      · rw [if_pos h1, Prog.pure_ok_iff] at h
        obtain ⟨rfl, rfl⟩ := h
        subst h1
        exact ⟨by decide, h₁⟩
      · rw [if_neg h1, Prog.fail_ok_iff] at h
        exact h.elim
  · rintro ⟨ht, h⟩
    refine ⟨t.value, c', h, ?_⟩
    cases t with
    | request => simp [value]
    | response => simp [value]
    | invalid => exact absurd rfl ht

theorem safe_fromWire (c : ParseCursor) : Prog.Safe fromWire c := by
  refine (safe_tryGetU32Le c).bind fun w c' _ => ?_
  split
  · exact Prog.safe_pure _ _
  · split
    · exact Prog.safe_pure _ _
    · exact Prog.safe_fail _ _

theorem toWire_writes (t : MessageType) : Writes t.toWire (leBytes32 t.value) := Writes.putU32Le _

end MessageType

end Roughenough.Protocol
