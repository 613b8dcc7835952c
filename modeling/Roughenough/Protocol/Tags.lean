/-
# `Roughenough.Protocol.Tags` — the values of the tags

The fixed-size tags, `tags/path.rs`, `tags/dele.rs`, `tags/cert.rs` and
`tags/srep.rs`.  Each composite value gets the same three facts:

    fromWire_ok_iff    when it is read, and what it consumes
    safe_fromWire      the reader does not panic
    toWire_writes      the writer writes `encode`

DELE and CERT insist on their whole offset table, so their readers undo their
writers on the nose and the header is a field that carries its own equation.
The draft-14 SREP insists on three of its four offsets, the draft-08 SREP on
none, and both only bound the rest by the bytes that happen to follow: a SREP
cut out of its message can fail where the same bytes in place were read.
-/
import Roughenough.Protocol.Version

namespace Roughenough.Protocol

open Roughenough.Base ParseCursor

/-! ## Fixed-size tags -/

/-- `FixedTag<N>`. -/
abbrev FixedTag (n : Nat) := Octets n

abbrev Nonce := FixedTag 32
abbrev PublicKey := FixedTag 32
abbrev MerkleRoot := FixedTag 32
abbrev SrvCommitment := FixedTag 32
abbrev Signature := FixedTag 64

namespace FixedTag

def fromWire (n : Nat) : Wire (FixedTag n) := tryGetFixed n

def toWire {n : Nat} (x : FixedTag n) : Wire Unit := tryPutSlice x.bytes

theorem toWire_writes {n : Nat} (x : FixedTag n) : Writes (toWire x) x.bytes :=
  Writes.tryPutSlice _

end FixedTag

def Nonce.fromWire : Wire Nonce := FixedTag.fromWire 32
def PublicKey.fromWire : Wire PublicKey := FixedTag.fromWire 32
def MerkleRoot.fromWire : Wire MerkleRoot := FixedTag.fromWire 32
def SrvCommitment.fromWire : Wire SrvCommitment := FixedTag.fromWire 32
def Signature.fromWire : Wire Signature := FixedTag.fromWire 64

section Fixed

variable {c c' : ParseCursor}

theorem Nonce.fromWire_ok_iff {x : Nonce} :
    Nonce.fromWire c = .ok (x, c') ↔ Consumes c x.bytes c' := tryGetFixed_ok_iff (by decide)

theorem PublicKey.fromWire_ok_iff {x : PublicKey} :
    PublicKey.fromWire c = .ok (x, c') ↔ Consumes c x.bytes c' := tryGetFixed_ok_iff (by decide)

theorem MerkleRoot.fromWire_ok_iff {x : MerkleRoot} :
    MerkleRoot.fromWire c = .ok (x, c') ↔ Consumes c x.bytes c' := tryGetFixed_ok_iff (by decide)

theorem SrvCommitment.fromWire_ok_iff {x : SrvCommitment} :
    SrvCommitment.fromWire c = .ok (x, c') ↔ Consumes c x.bytes c' := tryGetFixed_ok_iff (by decide)

theorem Signature.fromWire_ok_iff {x : Signature} :
    Signature.fromWire c = .ok (x, c') ↔ Consumes c x.bytes c' := tryGetFixed_ok_iff (by decide)

end Fixed

/-! ## PATH -/

/-- `MerklePath`: an array of 1024 bytes of which the first `32 * numPaths` are in use.
What lies behind them is whatever earlier uses left there. -/
structure MerklePath where
  numPaths : Nat
  data : Octets 1024
  bounded : numPaths ≤ 32
  deriving DecidableEq

namespace MerklePath

def maxPaths : Nat := 32
def elementSize : Nat := 32
def capacity : Nat := maxPaths * elementSize

def default : MerklePath := ⟨0, Octets.zero 1024, Nat.zero_le _⟩

def paths (p : MerklePath) : Bytes := p.data.bytes.take (p.numPaths * elementSize)

@[simp] theorem paths_length (p : MerklePath) : p.paths.length = 32 * p.numPaths := by
  have := p.bounded
  simp only [paths, List.length_take, Octets.bytes_length, elementSize]
  omega

/-- `chunks(ELEMENT_SIZE)` on a slice of `k` elements. -/
def chunks : (k : Nat) → (bs : Bytes) → bs.length = 32 * k → List (Octets 32)
  | 0, _, _ => []
  | k + 1, bs, h =>
      ⟨bs.take 32, by rw [List.length_take]; omega⟩ ::
        chunks k (bs.drop 32) (by rw [List.length_drop]; omega)

def elements (p : MerklePath) : List (Octets 32) := chunks p.numPaths p.paths p.paths_length

def depth (p : MerklePath) : Nat := p.numPaths

def isEmpty (p : MerklePath) : Bool := p.numPaths == 0

def clear (p : MerklePath) : MerklePath := { p with numPaths := 0, bounded := Nat.zero_le _ }

theorem splice_length {front back : Bytes} {a b : Nat} {m : Bytes} (hf : front.length = 1024)
    (hb : back.length = 1024) (hm : a + m.length = b) (hle : b ≤ 1024) :
    (front.take a ++ (m ++ back.drop b)).length = 1024 := by
  simp only [List.length_append, List.length_take, List.length_drop]
  omega

/-- `push_element`: asserts that there is room. -/
def pushElement {ε : Type} (p : MerklePath) (element : Octets 32) : Outcome ε MerklePath :=
  if h : p.numPaths < 32 then
    .ok
      { numPaths := p.numPaths + 1
        data :=
          ⟨p.data.bytes.take (p.numPaths * 32) ++
              (element.bytes ++ p.data.bytes.drop (p.numPaths * 32 + 32)),
            splice_length p.data.size_eq p.data.size_eq (by rw [element.size_eq]) (by omega)⟩
        bounded := by omega }
  else .panic

def copyFrom (p other : MerklePath) : MerklePath where
  numPaths := other.numPaths
  data :=
    ⟨([] : Bytes) ++ (other.data.bytes.take (other.numPaths * 32) ++
        p.data.bytes.drop (other.numPaths * 32)), by
      have := other.bounded
      simp only [List.length_append, List.length_take, List.length_drop, List.length_nil,
        Octets.bytes_length]
      omega⟩
  bounded := other.bounded

def wireSize (p : MerklePath) : Nat := p.numPaths * elementSize

def toWire (p : MerklePath) : Wire Unit :=
  if p.numPaths = 0 then pure ()
  else do
    let c ← Prog.read
    Prog.failIf (c.remaining < p.wireSize) (.bufferTooSmall p.wireSize c.remaining)
    putSlice p.paths

def fromWireN (n : Nat) : Wire MerklePath :=
  if n = 0 then pure default
  else do
    let hcap ← Prog.ensure (n ≤ 1024) (.bufferTooSmall n capacity)
    Prog.failIf (n % 32 ≠ 0) (.invalidPathLength n)
    let bytes ← tryGetFixed n
    pure
      { numPaths := n / 32
        data := ⟨bytes.bytes ++ List.replicate (1024 - n) 0, by
          have := hcap.down
          simp only [List.length_append, Octets.bytes_length, List.length_replicate]
          omega⟩
        bounded := by
          have := hcap.down
          omega }

theorem chunks_length (k : Nat) (bs : Bytes) (h : bs.length = 32 * k) :
    (chunks k bs h).length = k := by
  induction k generalizing bs with
  | zero => rfl
  | succ k ih => rw [chunks, List.length_cons, ih]

theorem chunks_concat (k : Nat) (bs : Bytes) (h : bs.length = 32 * k) (e : Octets 32)
    (h' : (bs ++ e.bytes).length = 32 * (k + 1)) :
    chunks (k + 1) (bs ++ e.bytes) h' = chunks k bs h ++ [e] := by
  induction k generalizing bs with
  | zero =>
      have hnil : bs = [] := List.eq_nil_of_length_eq_zero h
      subst hnil
      simp only [chunks, List.nil_append, List.cons.injEq, and_true]
      apply Octets.ext
      exact List.take_of_length_le (Nat.le_of_eq e.size_eq)
  | succ k ih =>
      have hle : 32 ≤ bs.length := by omega
      have htake : (bs ++ e.bytes).take 32 = bs.take 32 := List.take_append_of_le_length hle
      have hdrop : (bs ++ e.bytes).drop 32 = bs.drop 32 ++ e.bytes :=
        List.drop_append_of_le_length hle
      rw [chunks]
      simp only [htake, hdrop]
      rw [ih (bs.drop 32) (by rw [List.length_drop]; omega)]
      rfl

theorem elements_length (p : MerklePath) : p.elements.length = p.numPaths := chunks_length _ _ _

/-- A path is its number of elements and its bytes in use. -/
theorem elements_congr {p q : MerklePath} (hn : p.numPaths = q.numPaths) (h : p.paths = q.paths) :
    p.elements = q.elements := by
  unfold elements
  congr 1

/-- There is room for another element below 32, and it goes behind the others. -/
theorem pushElement_ok {ε : Type} {p : MerklePath} (e : Octets 32) (h : p.numPaths < 32) :
    ∃ q : MerklePath, (pushElement p e : Outcome ε MerklePath) = .ok q ∧
      q.numPaths = p.numPaths + 1 ∧ q.elements = p.elements ++ [e] := by
  refine ⟨_, dif_pos h, rfl, ?_⟩
  have hlen : (p.data.bytes.take (p.numPaths * 32)).length = p.numPaths * 32 := by
    rw [List.length_take, p.data.size_eq]
    omega
  have hpaths : (p.data.bytes.take (p.numPaths * 32) ++ (e.bytes ++
      p.data.bytes.drop (p.numPaths * 32 + 32))).take ((p.numPaths + 1) * 32) =
        p.paths ++ e.bytes := by
    rw [← List.append_assoc]
    exact List.take_left' (by rw [List.length_append, hlen, e.size_eq]; omega)
  unfold elements
  simp only [paths, elementSize] at hpaths ⊢
  simp only [hpaths]
  exact chunks_concat _ _ p.paths_length e _

/-- Nothing but zeros behind the elements in use. -/
def Clean (p : MerklePath) : Prop :=
  p.data.bytes.drop (p.numPaths * 32) = List.replicate (1024 - p.numPaths * 32) 0

instance (p : MerklePath) : Decidable p.Clean := inferInstanceAs (Decidable (_ = _))

theorem default_clean : default.Clean := List.drop_zero

/-- The bytes in use and the zeros behind them are the whole path. -/
theorem Clean.data_eq {p : MerklePath} (h : p.Clean) :
    p.data.bytes = p.paths ++ List.replicate (1024 - p.numPaths * 32) 0 := by
  rw [← h, paths, elementSize, List.take_append_drop]

theorem Clean.eq_of_paths {p q : MerklePath} (hp : p.Clean) (hq : q.Clean)
    (h : p.paths = q.paths) : p = q := by
  have hnum : p.numPaths = q.numPaths := by
    have := congrArg List.length h
    rw [paths_length, paths_length] at this
    omega
  have hdata : p.data = q.data := by
    apply Octets.ext
    rw [hp.data_eq, hq.data_eq, h, hnum]
  obtain ⟨m, d, hb⟩ := p
  obtain ⟨m', d', hb'⟩ := q
  cases hnum
  cases hdata
  rfl

theorem fromWireN_ok_iff {n : Nat} {p : MerklePath} {c c' : ParseCursor} :
    fromWireN n c = .ok (p, c') ↔ p.Clean ∧ 32 * p.numPaths = n ∧ Consumes c p.paths c' := by
  by_cases h0 : n = 0
  · rw [fromWireN, if_pos h0, Prog.pure_ok_iff]
    constructor
    · rintro ⟨rfl, rfl⟩
      exact ⟨default_clean, by simp [default, h0], Consumes.refl c⟩
    · rintro ⟨hclean, hnum, hc⟩
      have hp : p.paths = [] := List.eq_nil_of_length_eq_zero (by rw [paths_length]; omega)
      have hpd : p = default := hclean.eq_of_paths default_clean (by rw [hp]; rfl)
      rw [hp] at hc
      exact ⟨hpd.symm, hc.next_eq.symm⟩
  · simp only [fromWireN, if_neg h0, Prog.bind_ok_iff, Prog.ensure_ok_iff, Prog.failIf_ok_iff,
      tryGetFixed_ok_iff (Nat.pos_of_ne_zero h0), Prog.pure_ok_iff]
    constructor
    · rintro ⟨hcap, _, rfl, _, _, ⟨hmod, rfl⟩, bs, c₁, h₁, rfl, rfl⟩
      have hmul : n / 32 * 32 = n := by omega
      have htake : (bs.bytes ++ List.replicate (1024 - n) 0).take n = bs.bytes :=
        List.take_left' bs.bytes_length
      have hdrop : (bs.bytes ++ List.replicate (1024 - n) 0).drop n =
          List.replicate (1024 - n) 0 := List.drop_left' bs.bytes_length
      refine ⟨?_, by show 32 * (n / 32) = n; omega, ?_⟩
      · show List.drop (n / 32 * 32) _ = List.replicate (1024 - n / 32 * 32) 0
        rw [hmul]
        exact hdrop
      · show Consumes c (List.take (n / 32 * 32) _) _
        rw [hmul]
        exact htake.symm ▸ h₁
    · rintro ⟨hclean, hnum, hc⟩
      have hbound := p.bounded
      refine ⟨⟨by omega⟩, c, rfl, (), c, ⟨by omega, rfl⟩,
        ⟨p.paths, by rw [paths_length]; omega⟩, c', hc, ?_, rfl⟩
      obtain ⟨m, d, hb⟩ := p
      have hm : n / 32 = m := by simp only at hnum; omega
      have hd := hclean.data_eq
      simp only [MerklePath.mk.injEq]
      refine ⟨hm, Octets.ext ?_⟩
      have hn : n = m * 32 := by omega
      simp only [hn]
      exact hd.symm

theorem safe_fromWireN (n : Nat) (c : ParseCursor) : Prog.Safe (fromWireN n) c := by
  unfold fromWireN
  by_cases h0 : n = 0
  · rw [if_pos h0]
    exact Prog.safe_pure _ _
  · rw [if_neg h0]
    exact (Prog.safe_ensure _ _ _).bind fun _ _ _ => (Prog.safe_failIf _ _ _).bind fun _ c₁ _ =>
      (safe_tryGetFixed (Nat.pos_of_ne_zero h0) c₁).bind fun _ _ _ => Prog.safe_pure _ _

theorem toWire_writes (p : MerklePath) : Writes p.toWire p.paths := by
  unfold toWire
  by_cases h0 : p.numPaths = 0
  · have hp : p.paths = [] := List.eq_nil_of_length_eq_zero (by rw [paths_length, h0])
    rw [if_pos h0, hp]
    exact Writes.pure
  · rw [if_neg h0]
    refine Writes.guarded (Writes.putSlice _) fun c _ hlen => ?_
    rw [paths_length] at hlen
    simp only [wireSize, elementSize]
    omega

end MerklePath

/-! ## DELE -/

/-- `Delegation`.  The header is private and every constructor leaves it at
`OFFSETS`/`TAGS`; `header_eq` is that fact. -/
structure Delegation where
  header : Header3
  publicKey : PublicKey
  minTime : UInt64
  maxTime : UInt64
  header_eq : header.offsets.1 = [32, 40] ∧ header.tags.1 = [.pubk, .mint, .maxt]
  deriving DecidableEq

namespace Delegation

def OFFSETS : List UInt32 := [32, 40]
def TAGS : List Tag := [.pubk, .mint, .maxt]

def HEADER : Header3 := ⟨⟨OFFSETS, rfl⟩, ⟨TAGS, rfl⟩⟩

def default : Delegation := ⟨HEADER, Octets.zero 32, 0, 0, rfl, rfl⟩

/-- `Delegation::new`: MAXT saturates. -/
def new (publicKey : PublicKey) (nowEpochSec : UInt64) (validitySecs : Nat) : Delegation :=
  { default with
    publicKey := publicKey
    minTime := nowEpochSec
    maxTime := UInt64.ofNat (min (nowEpochSec.toNat + validitySecs) (2 ^ 64 - 1)) }

/-- `size_of::<Delegation>()`. -/
def wireSize : Nat := 72

def fromWire : Wire Delegation := do
  let header ← Header.fromWire 3
  let publicKey ← PublicKey.fromWire
  let minTime ← tryGetU64Le
  let maxTime ← tryGetU64Le
  let offsetsOk ← Prog.ensure (header.offsets.1 = [32, 40]) .unexpectedOffsets
  let tagsOk ← Prog.ensure (header.tags.1 = [.pubk, .mint, .maxt]) .unexpectedTags
  pure ⟨header, publicKey, minTime, maxTime, offsetsOk.down, tagsOk.down⟩

def toWire (d : Delegation) : Wire Unit := do
  d.header.toWire
  FixedTag.toWire d.publicKey
  putU64Le d.minTime
  putU64Le d.maxTime

def encode (d : Delegation) : Bytes :=
  d.header.encode ++ (d.publicKey.bytes ++ (leBytes64 d.minTime ++ leBytes64 d.maxTime))

theorem header_wellFormed (d : Delegation) : d.header.WellFormed := by
  refine ⟨?_, ?_⟩
  · rw [d.header_eq.1]; decide
  · rw [d.header_eq.2]; decide

@[simp] theorem encode_length (d : Delegation) : d.encode.length = 72 := by
  simp [encode, Header.encode_length, Header.sizeOf]

/-- The reader undoes the writer: the bytes of a DELE determine it and are determined by it. -/
theorem fromWire_ok_iff {d : Delegation} {c c' : ParseCursor} :
    fromWire c = .ok (d, c') ↔ Consumes c d.encode c' := by
  simp only [fromWire, Prog.bind_ok_iff, Header.fromWire_ok_iff, PublicKey.fromWire_ok_iff,
    tryGetU64Le_ok_iff, Prog.ensure_ok_iff, Prog.pure_ok_iff]
  constructor
  · rintro ⟨h, c₁, ⟨-, h₁⟩, k, c₂, h₂, m, c₃, h₃, M, c₄, h₄, ho, _, rfl, ht, _, rfl, rfl, rfl⟩
    exact h₁.trans (h₂.trans (h₃.trans h₄))
  · intro hc
    obtain ⟨c₁, h₁, hc⟩ := hc.split
    obtain ⟨c₂, h₂, hc⟩ := hc.split
    obtain ⟨c₃, h₃, h₄⟩ := hc.split
    exact ⟨d.header, c₁, ⟨d.header_wellFormed, h₁⟩, d.publicKey, c₂, h₂, d.minTime, c₃, h₃,
      d.maxTime, c', h₄, ⟨d.header_eq.1⟩, c', rfl, ⟨d.header_eq.2⟩, c', rfl, rfl, rfl⟩

theorem safe_fromWire (c : ParseCursor) : Prog.Safe fromWire c :=
  (Header.safe_fromWire 3 c).bind fun _ c₁ _ =>
    (safe_tryGetFixed (n := 32) (by decide) c₁).bind fun _ c₂ _ =>
      (safe_tryGetU64Le c₂).bind fun _ c₃ _ => (safe_tryGetU64Le c₃).bind fun _ _ _ =>
        (Prog.safe_ensure _ _ _).bind fun _ _ _ => (Prog.safe_ensure _ _ _).bind fun _ _ _ =>
          Prog.safe_pure _ _

theorem toWire_writes (d : Delegation) : Writes d.toWire d.encode :=
  (Header.toWire_writes _).seq ((FixedTag.toWire_writes _).seq
    ((Writes.putU64Le _).seq (Writes.putU64Le _)))

end Delegation

/-! ## CERT -/

/-- `Certificate`, with the same remark on the header as `Delegation`. -/
structure Certificate where
  header : Header2
  signature : Signature
  delegation : Delegation
  header_eq : header.offsets.1 = [64] ∧ header.tags.1 = [.sig, .dele]
  deriving DecidableEq

namespace Certificate

def OFFSETS : List UInt32 := [64]
def TAGS : List Tag := [.sig, .dele]

def HEADER : Header2 := ⟨⟨OFFSETS, rfl⟩, ⟨TAGS, rfl⟩⟩

def default : Certificate := ⟨HEADER, Octets.zero 64, Delegation.default, rfl, rfl⟩

def new (sig : Signature) (dele : Delegation) : Certificate :=
  { default with signature := sig, delegation := dele }

/-- `size_of::<Certificate>()`. -/
def wireSize : Nat := 152

def fromWire : Wire Certificate := do
  let header ← Header.fromWire 2
  let signature ← Signature.fromWire
  let delegation ← Delegation.fromWire
  let offsetsOk ← Prog.ensure (header.offsets.1 = [64]) .unexpectedOffsets
  let tagsOk ← Prog.ensure (header.tags.1 = [.sig, .dele]) .unexpectedTags
  pure ⟨header, signature, delegation, offsetsOk.down, tagsOk.down⟩

def toWire (x : Certificate) : Wire Unit := do
  x.header.toWire
  FixedTag.toWire x.signature
  x.delegation.toWire

def encode (x : Certificate) : Bytes :=
  x.header.encode ++ (x.signature.bytes ++ x.delegation.encode)

theorem header_wellFormed (x : Certificate) : x.header.WellFormed := by
  refine ⟨?_, ?_⟩
  · rw [x.header_eq.1]; decide
  · rw [x.header_eq.2]; decide

@[simp] theorem encode_length (x : Certificate) : x.encode.length = 152 := by
  simp [encode, Header.encode_length, Header.sizeOf]

theorem fromWire_ok_iff {x : Certificate} {c c' : ParseCursor} :
    fromWire c = .ok (x, c') ↔ Consumes c x.encode c' := by
  simp only [fromWire, Prog.bind_ok_iff, Header.fromWire_ok_iff, Signature.fromWire_ok_iff,
    Delegation.fromWire_ok_iff, Prog.ensure_ok_iff, Prog.pure_ok_iff]
  constructor
  · rintro ⟨h, c₁, ⟨-, h₁⟩, s, c₂, h₂, d, c₃, h₃, ho, _, rfl, ht, _, rfl, rfl, rfl⟩
    exact h₁.trans (h₂.trans h₃)
  · intro hc
    obtain ⟨c₁, h₁, hc⟩ := hc.split
    obtain ⟨c₂, h₂, h₃⟩ := hc.split
    exact ⟨x.header, c₁, ⟨x.header_wellFormed, h₁⟩, x.signature, c₂, h₂, x.delegation, c', h₃,
      ⟨x.header_eq.1⟩, c', rfl, ⟨x.header_eq.2⟩, c', rfl, rfl, rfl⟩

theorem safe_fromWire (c : ParseCursor) : Prog.Safe fromWire c :=
  (Header.safe_fromWire 2 c).bind fun _ c₁ _ =>
    (safe_tryGetFixed (n := 64) (by decide) c₁).bind fun _ c₂ _ =>
      (Delegation.safe_fromWire c₂).bind fun _ _ _ =>
        (Prog.safe_ensure _ _ _).bind fun _ _ _ => (Prog.safe_ensure _ _ _).bind fun _ _ _ =>
          Prog.safe_pure _ _

theorem toWire_writes (x : Certificate) : Writes x.toWire x.encode :=
  (Header.toWire_writes _).seq ((FixedTag.toWire_writes _).seq (Delegation.toWire_writes _))

end Certificate

end Roughenough.Protocol
