/-
# `Roughenough.Protocol.Header` — tags and message headers

`tag.rs` and `header.rs`.  A message of `n` tags starts with a header of `8n`
bytes: the count, `n - 1` offsets and `n` tags.

    count      le32 n
    offsets    le32 each, multiples of four, non-decreasing
    tags       four ASCII bytes each, sorted by their little-endian value

The sources stamp out `Header2` … `Header7` with a macro because Rust cannot
write `[u32; N - 1]`; here they are one `Header n`.  The `num_tags` field of
the Rust structs always holds the constant `N` and is not kept.

The reader and the writer meet in `Header.fromWire_ok_iff`: a header is read
exactly when its encoding is what comes next and it is well formed.  The
reader does not refuse a tag equal to the one before it: only `tag <
prior_tag` is an error.
-/
import Mathlib.Data.List.GetD
import Roughenough.Protocol.Cursor

namespace Roughenough.Protocol

open Roughenough.Base ParseCursor

/-! ## Tags -/

inductive Tag where
  | invalid | sig | ver | srv | nonc | dele | type | path | radi | pubk | midp
  | srep | vers | mint | root | cert | maxt | indx | zzzz | pad
  deriving DecidableEq, Repr

/-- The bytes of an ASCII literal (`b"SIG\x00"`). -/
def ascii (s : String) : Bytes := s.toList.map fun ch => UInt8.ofNat ch.toNat

namespace Tag

/-- The `#[repr(u32)]` discriminants. -/
def value : Tag → Nat
  | invalid => 0x00000000
  | sig => 0x53494700
  | ver => 0x56455200
  | srv => 0x53525600
  | nonc => 0x4e4f4e43
  | dele => 0x44454c45
  | type => 0x54595045
  | path => 0x50415448
  | radi => 0x52414449
  | pubk => 0x5055424b
  | midp => 0x4d494450
  | srep => 0x53524550
  | vers => 0x56455253
  | mint => 0x4d494e54
  | root => 0x524f4f54
  | cert => 0x43455254
  | maxt => 0x4d415854
  | indx => 0x494e4458
  | zzzz => 0x5a5a5a5a
  | pad => 0x504144ff

def wireValue (t : Tag) : Bytes := toBe 4 t.value

/-- `Ord for Tag`: the little-endian bytes of the discriminants, compared as arrays. -/
def lt (a b : Tag) : Prop := toLe 4 a.value < toLe 4 b.value

instance (a b : Tag) : Decidable (lt a b) := inferInstanceAs (Decidable (_ < _))

/-- The arms of the match in `Tag::from_wire`. -/
def wireArms : List (Bytes × Tag) :=
  [ (ascii "SIG\x00", sig), (ascii "VER\x00", ver), (ascii "SRV\x00", srv), (ascii "NONC", nonc),
    (ascii "DELE", dele), (ascii "TYPE", type), (ascii "PATH", path), (ascii "RADI", radi),
    (ascii "PUBK", pubk), (ascii "MIDP", midp), (ascii "SREP", srep), (ascii "VERS", vers),
    (ascii "MINT", mint), (ascii "ROOT", root), (ascii "CERT", cert), (ascii "MAXT", maxt),
    (ascii "INDX", indx), (ascii "ZZZZ", zzzz), (ascii "PAD\xff", pad) ]

def fromWire (bytes : Bytes) : Outcome Error Tag :=
  if bytes.length < 4 then .err (.bufferTooSmall 4 bytes.length)
  else match wireArms.lookup bytes with
    | some t => .ok t
    | none => .err (.invalidTag (ofBe (bytes.take 4)))

/-- `TryFrom<u32> for Tag`. -/
def tryFrom (value : Nat) : Outcome Error Tag := fromWire (toBe 4 value)

@[simp] theorem wireValue_length (t : Tag) : t.wireValue.length = 4 := toBe_length 4 _

theorem value_lt (t : Tag) : t.value < 256 ^ 4 := by
  cases t <;> decide

/-- Every arm spells its own tag, and `INVALID` has none. -/
theorem wireArms_spell : ∀ a ∈ wireArms, a.1 = a.2.wireValue ∧ a.2 ≠ invalid := by decide

theorem lookup_wireValue {t : Tag} (h : t ≠ invalid) : wireArms.lookup t.wireValue = some t := by
  cases t <;> first | exact absurd rfl h | decide

theorem mem_of_lookup {α β : Type} [BEq α] [LawfulBEq α] {a : α} {b : β} :
    ∀ {l : List (α × β)}, l.lookup a = some b → (a, b) ∈ l
  | [], h => by simp at h
  | (a', b') :: l, h => by
      rw [List.lookup_cons] at h
      by_cases ha : a == a'
      · simp only [ha, Option.some.injEq] at h
        rw [eq_of_beq ha, h]
        exact List.mem_cons_self
      · simp only [ha] at h
        exact List.mem_cons_of_mem _ (mem_of_lookup h)

theorem tryFrom_ok_iff {x : Nat} {t : Tag} :
    tryFrom x = .ok t ↔ t ≠ invalid ∧ toBe 4 x = t.wireValue := by
  have hlen : ¬ (toBe 4 x).length < 4 := by simp
  simp only [tryFrom, fromWire, if_neg hlen]
  constructor
  · intro h
    cases hl : wireArms.lookup (toBe 4 x) with
    | none => simp [hl] at h
    | some t' =>
        simp only [hl, Outcome.ok.injEq] at h
        subst h
        have hmem := wireArms_spell _ (mem_of_lookup hl)
        exact ⟨hmem.2, hmem.1⟩
  · rintro ⟨ht, hw⟩
    rw [hw, lookup_wireValue ht]

theorem tryFrom_ne_panic (x : Nat) : tryFrom x ≠ .panic := by
  unfold tryFrom fromWire
  split
  · simp
  · split <;> simp

end Tag

/-! ## The header of a message of `n` tags -/

/-- `[T; n]` as a list that knows its length. -/
abbrev Arr (α : Type) (n : Nat) : Type := { l : List α // l.length = n }

structure Header (n : Nat) where
  offsets : Arr UInt32 (n - 1)
  tags : Arr Tag n
  deriving DecidableEq

abbrev Header2 := Header 2
abbrev Header3 := Header 3
abbrev Header4 := Header 4
abbrev Header5 := Header 5
abbrev Header6 := Header 6
abbrev Header7 := Header 7

namespace Header

variable {n : Nat}

/-- `size_of::<HeaderN>()`: the count, the offsets and the tags. -/
def sizeOf (n : Nat) : Nat := 4 + 4 * (n - 1) + 4 * n

/-- `Default for HeaderN`. -/
def default (n : Nat) : Header n where
  offsets := ⟨List.replicate (n - 1) 0, List.length_replicate⟩
  tags := ⟨List.replicate n .invalid, List.length_replicate⟩

/-- `offsets[i]`, as a number. -/
def offset (h : Header n) (i : Nat) : Nat := (h.offsets.1.getD i 0).toNat

def toWire (h : Header n) : Wire Unit := do
  let c ← Prog.read
  Prog.failIf (c.remaining < sizeOf n) (.bufferTooSmall (sizeOf n) c.remaining)
  putU32Le (UInt32.ofNat n)
  h.offsets.1.forM putU32Le
  h.tags.1.forM fun tag => putSlice tag.wireValue

/-- The offset loop of `from_wire_inner`, from index `idx` on. -/
def readOffsets : (count idx : Nat) → (priorOffset : UInt32) → Wire (Arr UInt32 count)
  | 0, _, _ => pure ⟨[], rfl⟩
  | count + 1, idx, priorOffset => do
      let value ← tryGetU32Le
      Prog.failIf (value.toNat % 4 ≠ 0) (.unalignedOffset idx value.toNat)
      Prog.failIf (value.toNat < priorOffset.toNat) (.unorderedOffset idx value.toNat)
      let later ← readOffsets count (idx + 1) value
      pure ⟨value :: later.1, by rw [List.length_cons, later.2]⟩

/-- The tag loop of `from_wire_inner`, from index `idx` on. -/
def readTags : (count idx : Nat) → (priorTag : Tag) → Wire (Arr Tag count)
  | 0, _, _ => pure ⟨[], rfl⟩
  | count + 1, idx, priorTag => do
      let value ← tryGetU32
      let tag ← Prog.lift (Tag.tryFrom value)
      Prog.failIf (tag.lt priorTag) (.unorderedTag idx value)
      let later ← readTags count (idx + 1) tag
      pure ⟨tag :: later.1, by rw [List.length_cons, later.2]⟩

def fromWire (n : Nat) : Wire (Header n) := do
  let c ← Prog.read
  Prog.failIf (c.remaining < sizeOf n) (.bufferTooSmall (sizeOf n) c.remaining)
  let readNumTags ← tryGetU32Le
  Prog.failIf (readNumTags ≠ UInt32.ofNat n) (.mismatchedNumTags n readNumTags.toNat)
  let offsets ← readOffsets (n - 1) 0 0
  let tags ← readTags n 0 .invalid
  pure ⟨offsets, tags⟩

/-- `check_offset_bounds_inner`: `total_len as u32` keeps the low 32 bits. -/
def checkBounds (totalLen : Nat) : (idx : Nat) → List UInt32 → Outcome Error Unit
  | _, [] => .ok ()
  | idx, offset :: later =>
      if totalLen % 2 ^ 32 < offset.toNat then .err (.outOfBoundsOffset idx offset.toNat)
      else checkBounds totalLen (idx + 1) later

def checkOffsetBounds (h : Header n) (totalLen : Nat) : Outcome Error Unit :=
  checkBounds totalLen 0 h.offsets.1

/-! ### The grammar of a header -/

/-- Multiples of four that never fall below the offset before. -/
def OffsetsOk : UInt32 → List UInt32 → Prop
  | _, [] => True
  | prior, v :: l => v.toNat % 4 = 0 ∧ prior.toNat ≤ v.toNat ∧ OffsetsOk v l

/-- Known tags that never fall below the tag before. -/
def TagsOk : Tag → List Tag → Prop
  | _, [] => True
  | prior, t :: l => t ≠ .invalid ∧ ¬ t.lt prior ∧ TagsOk t l

instance decOffsetsOk : ∀ (p : UInt32) (l : List UInt32), Decidable (OffsetsOk p l)
  | _, [] => isTrue trivial
  | p, v :: l =>
      have := decOffsetsOk v l
      inferInstanceAs (Decidable (v.toNat % 4 = 0 ∧ p.toNat ≤ v.toNat ∧ OffsetsOk v l))

instance decTagsOk : ∀ (p : Tag) (l : List Tag), Decidable (TagsOk p l)
  | _, [] => isTrue trivial
  | p, t :: l =>
      have := decTagsOk t l
      inferInstanceAs (Decidable (t ≠ .invalid ∧ ¬ t.lt p ∧ TagsOk t l))

/-- What the reader insists on. -/
structure WellFormed (h : Header n) : Prop where
  offsets : OffsetsOk 0 h.offsets.1
  tags : TagsOk .invalid h.tags.1

/-- The bytes of a header. -/
def encode (h : Header n) : Bytes :=
  leBytes32 (UInt32.ofNat n) ++
    (h.offsets.1.flatMap leBytes32 ++ h.tags.1.flatMap Tag.wireValue)

theorem flatMap_length_const {α : Type} {f : α → Bytes} {k : Nat} (hf : ∀ a, (f a).length = k)
    (l : List α) : (l.flatMap f).length = k * l.length := by
  induction l with
  | nil => rfl
  | cons a l ih =>
      rw [List.flatMap_cons, List.length_append, hf, ih, List.length_cons, Nat.mul_succ]
      omega

theorem encode_length (h : Header n) : h.encode.length = sizeOf n := by
  simp only [encode, List.length_append, leBytes32_length,
    flatMap_length_const leBytes32_length, flatMap_length_const Tag.wireValue_length,
    h.offsets.2, h.tags.2, sizeOf]
  omega

theorem toWire_writes (h : Header n) : Writes h.toWire h.encode := by
  refine Writes.guarded ?_ fun c _ hlen => by rwa [h.encode_length] at hlen
  exact (Writes.putU32Le _).seq
    ((Writes.forEach Writes.putU32Le _).seq (Writes.forEach (fun t => Writes.putSlice _) _))

theorem readOffsets_ok_iff : ∀ {count idx : Nat} {prior : UInt32} {l : Arr UInt32 count}
    {c c' : ParseCursor}, readOffsets count idx prior c = .ok (l, c') ↔
      OffsetsOk prior l.1 ∧ Consumes c (l.1.flatMap leBytes32) c'
  | 0, idx, prior, l, c, c' => by
      obtain ⟨l, hl⟩ := l
      have hnil : l = [] := List.eq_nil_of_length_eq_zero hl
      subst hnil
      simp only [readOffsets, Prog.pure_ok_iff, true_and, OffsetsOk, List.flatMap_nil]
      constructor
      · rintro rfl
        exact Consumes.refl c
      · intro h
        exact (h.next_eq).symm
  | count + 1, idx, prior, l, c, c' => by
      simp only [readOffsets, Prog.bind_ok_iff, tryGetU32Le_ok_iff, Prog.failIf_ok_iff,
        Prog.pure_ok_iff, readOffsets_ok_iff]
      constructor
      · rintro ⟨v, c₁, h₁, _, _, ⟨hmod, rfl⟩, _, _, ⟨hle, rfl⟩, l', c₂, ⟨hok, h₂⟩, rfl, rfl⟩
        refine ⟨⟨by omega, by omega, hok⟩, ?_⟩
        rw [List.flatMap_cons]
        exact h₁.trans h₂
      · obtain ⟨l, hl⟩ := l
        cases l with
        | nil => simp at hl
        | cons v l =>
            rintro ⟨⟨hmod, hle, hok⟩, h⟩
            rw [List.flatMap_cons] at h
            obtain ⟨c₁, h₁, h₂⟩ := h.split
            exact ⟨v, c₁, h₁, (), c₁, ⟨by omega, rfl⟩, (), c₁, ⟨by omega, rfl⟩,
              ⟨l, by simpa using hl⟩, c', ⟨hok, h₂⟩, rfl, rfl⟩

theorem readTags_ok_iff : ∀ {count idx : Nat} {prior : Tag} {l : Arr Tag count}
    {c c' : ParseCursor}, readTags count idx prior c = .ok (l, c') ↔
      TagsOk prior l.1 ∧ Consumes c (l.1.flatMap Tag.wireValue) c'
  | 0, idx, prior, l, c, c' => by
      obtain ⟨l, hl⟩ := l
      have hnil : l = [] := List.eq_nil_of_length_eq_zero hl
      subst hnil
      simp only [readTags, Prog.pure_ok_iff, true_and, TagsOk, List.flatMap_nil]
      constructor
      · rintro rfl
        exact Consumes.refl c
      · intro h
        exact (h.next_eq).symm
  | count + 1, idx, prior, l, c, c' => by
      simp only [readTags, Prog.bind_ok_iff, tryGetU32_ok_iff, Prog.failIf_ok_iff,
        Prog.lift_ok_iff, Prog.pure_ok_iff, readTags_ok_iff]
      constructor
      · rintro ⟨x, c₁, ⟨hx, h₁⟩, t, _, ⟨ht, rfl⟩, _, _, ⟨hlt, rfl⟩, l', c₂, ⟨hok, h₂⟩, rfl, rfl⟩
        obtain ⟨hne, hw⟩ := Tag.tryFrom_ok_iff.mp ht
        refine ⟨⟨hne, hlt, hok⟩, ?_⟩
        rw [List.flatMap_cons, ← hw]
        exact h₁.trans h₂
      · obtain ⟨l, hl⟩ := l
        cases l with
        | nil => simp at hl
        | cons t l =>
            rintro ⟨⟨hne, hlt, hok⟩, h⟩
            rw [List.flatMap_cons] at h
            obtain ⟨c₁, h₁, h₂⟩ := h.split
            exact ⟨t.value, c₁, ⟨t.value_lt, h₁⟩, t, c₁,
              ⟨Tag.tryFrom_ok_iff.mpr ⟨hne, rfl⟩, rfl⟩, (), c₁, ⟨hlt, rfl⟩,
              ⟨l, by simpa using hl⟩, c', ⟨hok, h₂⟩, rfl, rfl⟩

/-- A header is read exactly when its bytes come next and it is well formed. -/
theorem fromWire_ok_iff {h : Header n} {c c' : ParseCursor} :
    fromWire n c = .ok (h, c') ↔ h.WellFormed ∧ Consumes c h.encode c' := by
  simp only [fromWire, Prog.bind_ok_iff, Prog.read_ok_iff, Prog.failIf_ok_iff,
    tryGetU32Le_ok_iff, readOffsets_ok_iff, readTags_ok_iff, Prog.pure_ok_iff]
  constructor
  · rintro ⟨_, _, ⟨rfl, rfl⟩, _, _, ⟨-, rfl⟩, x, c₁, h₁, _, _, ⟨hx, rfl⟩, l, c₂, ⟨hl, h₂⟩,
      t, c₃, ⟨ht, h₃⟩, rfl, rfl⟩
    rw [not_not] at hx
    subst hx
    exact ⟨⟨hl, ht⟩, h₁.trans (h₂.trans h₃)⟩
  · rintro ⟨hwf, hc⟩
    have hrem : sizeOf n ≤ c.remaining := by
      have := hc.remaining_eq
      rw [h.encode_length] at this
      omega
    obtain ⟨c₁, h₁, h₂⟩ := hc.split
    obtain ⟨c₂, h₂, h₃⟩ := h₂.split
    exact ⟨c, c, ⟨rfl, rfl⟩, (), c, ⟨by omega, rfl⟩, _, c₁, h₁, (), c₁, ⟨by simp, rfl⟩,
      h.offsets, c₂, ⟨hwf.offsets, h₂⟩, h.tags, c', ⟨hwf.tags, h₃⟩, rfl, rfl⟩

theorem safe_readOffsets : ∀ (count idx : Nat) (prior : UInt32) (c : ParseCursor),
    Prog.Safe (readOffsets count idx prior) c
  | 0, _, _, c => Prog.safe_pure _ c
  | count + 1, idx, _, c =>
      (safe_tryGetU32Le c).bind fun v _ _ => (Prog.safe_failIf _ _ _).bind fun _ _ _ =>
        (Prog.safe_failIf _ _ _).bind fun _ c₁ _ =>
          (safe_readOffsets count (idx + 1) v c₁).bind fun _ _ _ => Prog.safe_pure _ _

theorem safe_readTags : ∀ (count idx : Nat) (prior : Tag) (c : ParseCursor),
    Prog.Safe (readTags count idx prior) c
  | 0, _, _, c => Prog.safe_pure _ c
  | count + 1, idx, _, c =>
      (safe_tryGetU32 c).bind fun x _ _ =>
        (Prog.safe_lift (Tag.tryFrom_ne_panic x) _).bind fun t _ _ =>
          (Prog.safe_failIf _ _ _).bind fun _ c₁ _ =>
            (safe_readTags count (idx + 1) t c₁).bind fun _ _ _ => Prog.safe_pure _ _

theorem safe_fromWire (n : Nat) (c : ParseCursor) : Prog.Safe (fromWire n) c :=
  (Prog.safe_read c).bind fun _ _ _ => (Prog.safe_failIf _ _ _).bind fun _ _ _ =>
    (safe_tryGetU32Le _).bind fun _ _ _ => (Prog.safe_failIf _ _ _).bind fun _ c₁ _ =>
      (safe_readOffsets _ _ _ c₁).bind fun _ c₂ _ =>
        (safe_readTags _ _ _ c₂).bind fun _ _ _ => Prog.safe_pure _ _

/-! ### Bounds -/

theorem checkBounds_ok_iff {totalLen : Nat} : ∀ {idx : Nat} {l : List UInt32},
    checkBounds totalLen idx l = .ok () ↔ ∀ o ∈ l, o.toNat ≤ totalLen % 2 ^ 32
  | idx, [] => by simp [checkBounds]
  | idx, o :: l => by
      unfold checkBounds
      by_cases h : totalLen % 2 ^ 32 < o.toNat
      · rw [if_pos h]
        simp only [reduceCtorEq, List.mem_cons, forall_eq_or_imp, false_iff, not_and]
        intro h'
        omega
      · rw [if_neg h, checkBounds_ok_iff]
        simp only [List.mem_cons, forall_eq_or_imp]
        exact ⟨fun hl => ⟨by omega, hl⟩, fun hl => hl.2⟩

theorem checkBounds_ne_panic {totalLen : Nat} : ∀ {idx : Nat} {l : List UInt32},
    checkBounds totalLen idx l ≠ .panic
  | _, [] => by simp [checkBounds]
  | _, _ :: _ => by
      unfold checkBounds
      split
      · simp
      · exact checkBounds_ne_panic

/-- Every offset lies inside the values section. -/
def InBounds (h : Header n) (totalLen : Nat) : Prop :=
  ∀ o ∈ h.offsets.1, o.toNat ≤ totalLen % 2 ^ 32

theorem checkOffsetBounds_ok_iff {h : Header n} {totalLen : Nat} {u : Unit} :
    h.checkOffsetBounds totalLen = .ok u ↔ h.InBounds totalLen := checkBounds_ok_iff

theorem checkOffsetBounds_ne_panic {h : Header n} {totalLen : Nat} :
    h.checkOffsetBounds totalLen ≠ .panic := checkBounds_ne_panic

theorem InBounds.offset_le {h : Header n} {totalLen i : Nat} (hb : h.InBounds totalLen) :
    h.offset i ≤ totalLen := by
  unfold offset
  by_cases hi : i < h.offsets.1.length
  · have hmem : h.offsets.1.getD i 0 ∈ h.offsets.1 := by
      rw [List.getD_eq_getElem _ _ hi]
      exact List.getElem_mem hi
    exact Nat.le_trans (hb _ hmem) (Nat.mod_le _ _)
  · rw [List.getD_eq_default _ _ (by omega)]
    simp

/-- More values behind the header do no harm, as long as their size fits a `u32`. -/
theorem InBounds.grow {h : Header n} {k m : Nat} (hb : h.InBounds k) (hkm : k ≤ m)
    (hm : m < 2 ^ 32) : h.InBounds m := by
  intro o ho
  have hk := hb o ho
  rw [Nat.mod_eq_of_lt (by omega)] at hk ⊢
  exact Nat.le_trans hk hkm

/-- A well-formed table never decreases from one offset to the next. -/
theorem OffsetsOk.step : ∀ {p : UInt32} {l : List UInt32}, OffsetsOk p l → ∀ {i : Nat},
    i + 1 < l.length → (l.getD i 0).toNat ≤ (l.getD (i + 1) 0).toNat
  | _, [], _, _, hi => by simp at hi
  | _, [_], _, _, hi => by simp at hi
  | _, _ :: _ :: _, h, 0, _ => h.2.2.2.1
  | _, _ :: w :: l, h, i + 1, hi => by
      have := OffsetsOk.step (l := w :: l) h.2.2 (i := i) (by simpa using hi)
      simpa using this

theorem OffsetsOk.aligned : ∀ {p : UInt32} {l : List UInt32}, OffsetsOk p l → ∀ (i : Nat),
    (l.getD i 0).toNat % 4 = 0
  | _, [], _, _ => by simp
  | _, _ :: _, h, 0 => h.1
  | _, _ :: l, h, i + 1 => by simpa using OffsetsOk.aligned (l := l) h.2.2 i

theorem WellFormed.le_succ {h : Header n} (hwf : h.WellFormed) {i : Nat} (hi : i + 1 < n - 1) :
    h.offset i ≤ h.offset (i + 1) :=
  hwf.offsets.step (by rwa [h.offsets.2])

theorem WellFormed.aligned {h : Header n} (hwf : h.WellFormed) (i : Nat) :
    h.offset i % 4 = 0 := hwf.offsets.aligned i

theorem WellFormed.mono {h : Header n} (hwf : h.WellFormed) {i j : Nat} (hij : i ≤ j)
    (hj : j < n - 1) : h.offset i ≤ h.offset j := by
  induction j with
  | zero => exact Nat.le_of_eq (by rw [Nat.le_zero.mp hij])
  | succ j ih =>
      rcases Nat.lt_or_eq_of_le hij with hlt | rfl
      · exact Nat.le_trans (ih (Nat.le_of_lt_succ hlt) (by omega)) (hwf.le_succ hj)
      · exact Nat.le_refl _

/-- The table never decreases, so its last offset decides about its bounds. -/
theorem WellFormed.inBounds_iff {h : Header n} (hwf : h.WellFormed) {last totalLen : Nat}
    (hlast : last + 2 = n) : h.InBounds totalLen ↔ h.offset last ≤ totalLen % 2 ^ 32 := by
  have hlen : h.offsets.1.length = last + 1 := by
    rw [h.offsets.2]
    omega
  constructor
  · intro hb
    have hmem : h.offsets.1.getD last 0 ∈ h.offsets.1 := by
      rw [List.getD_eq_getElem _ _ (by omega)]
      exact List.getElem_mem _
    exact hb _ hmem
  · intro hle o ho
    obtain ⟨i, hi, rfl⟩ := List.getElem_of_mem ho
    have hi' : (h.offsets.1[i]).toNat = h.offset i := by
      unfold offset
      rw [List.getD_eq_getElem _ _ hi]
    rw [hi']
    exact Nat.le_trans (hwf.mono (by omega) (by omega)) hle

/-! ### The opening of a composite reader -/

/-- How every `from_wire` with an offset check begins: the header, its offsets against the
bytes that follow it, its tags. -/
def fromWireTagged (n : Nat) (tags : List Tag) : Wire { h : Header n // h.tags.1 = tags } := do
  let header ← fromWire n
  let c ← Prog.read
  Prog.lift (header.checkOffsetBounds c.remaining)
  let tagsOk ← Prog.ensure (header.tags.1 = tags) .unexpectedTags
  pure ⟨header, tagsOk.down⟩

theorem fromWireTagged_ok_iff {tags : List Tag} {h : { h : Header n // h.tags.1 = tags }}
    {c c' : ParseCursor} : fromWireTagged n tags c = .ok (h, c') ↔
      h.1.WellFormed ∧ h.1.InBounds c'.remaining ∧ Consumes c h.1.encode c' := by
  simp only [fromWireTagged, Prog.bind_ok_iff, fromWire_ok_iff, Prog.read_ok_iff,
    Prog.lift_ok_iff, checkOffsetBounds_ok_iff, Prog.ensure_ok_iff, Prog.pure_ok_iff]
  constructor
  · rintro ⟨h, c₁, ⟨hwf, h₁⟩, _, _, ⟨rfl, rfl⟩, _, _, ⟨hb, rfl⟩, ht, _, rfl, rfl, rfl⟩
    exact ⟨hwf, hb, h₁⟩
  · rintro ⟨hwf, hb, hc⟩
    exact ⟨h.1, c', ⟨hwf, hc⟩, c', c', ⟨rfl, rfl⟩, (), c', ⟨hb, rfl⟩, ⟨h.2⟩, c', rfl, rfl, rfl⟩

theorem safe_fromWireTagged (n : Nat) (tags : List Tag) (c : ParseCursor) :
    Prog.Safe (fromWireTagged n tags) c :=
  (safe_fromWire n c).bind fun _ _ _ => (Prog.safe_read _).bind fun _ _ _ =>
    (Prog.safe_lift checkOffsetBounds_ne_panic _).bind fun _ _ _ =>
      (Prog.safe_ensure _ _ _).bind fun _ _ _ => Prog.safe_pure _ _

end Header

end Roughenough.Protocol
