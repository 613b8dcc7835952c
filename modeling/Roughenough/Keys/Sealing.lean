/-
# `Roughenough.Keys.Sealing` — sealing and opening a seed

`seal_seed` and `open_seed` of `longterm/envelope.rs`.  A sealed seed is what
AES-256-GCM appends to, with the nonce at the end:

    ciphertext (32)   tag (16)   nonce (12)

AES-256-GCM is a parameter and taken to be ideal: opening undoes sealing with
the same key, nonce and additional data, and fails on everything else.

`open_seed` reads the nonce off the end of whatever it is given.  The length
is not compared with anything first, and `Seed::new` asserts that a plaintext
has 32 bytes.  It follows that there are two ways to panic:

    fewer than 12 bytes                          the subtraction, or the slice
    a plaintext of another length, well sealed   the assertion
-/
import Roughenough.Server.Keys

namespace Roughenough.Keys

open Roughenough.Base Roughenough.Server

/-- An AEAD with 32-byte keys and 12-byte nonces. -/
structure Aead where
  sealInPlace : (key : Octets 32) → (nonce : Octets 12) → (aad plaintext : Bytes) → Bytes
  openInPlace : (key : Octets 32) → (nonce : Octets 12) → (aad ciphertext : Bytes) → Option Bytes

structure Aead.Ideal (A : Aead) : Prop where
  open_iff : ∀ key nonce aad c plaintext, A.openInPlace key nonce aad c = some plaintext ↔
    c = A.sealInPlace key nonce aad plaintext
  seal_length : ∀ key nonce aad plaintext,
    (A.sealInPlace key nonce aad plaintext).length = plaintext.length + 16

/-- `aws_lc_rs::error::Unspecified`. -/
inductive Unspecified where
  | unspecified
  deriving DecidableEq, Repr

/-- `a - b` on `usize`: checked in a debug build, wrapping in a release build. -/
def subUsize {ε : Type} (debug : Bool) (a b : Nat) : Outcome ε Nat :=
  if b ≤ a then .ok (a - b) else if debug then .panic else .ok (a + 2 ^ 64 - b)

/-- `Seed::new`. -/
def seedNew {ε : Type} (value : Bytes) : Outcome ε Seed :=
  if h : value.length = 32 then .ok ⟨value, h⟩ else .panic

/-- `Nonce::try_assume_unique_for_key`. -/
def tryAssumeUniqueForKey (value : Bytes) : Outcome Unspecified (Octets 12) :=
  if h : value.length = 12 then .ok ⟨value, h⟩ else .err .unspecified

/-- `map_err` of a call that gives no plaintext. -/
def okOrUnspecified {α : Type} : Option α → Outcome Unspecified α
  | some a => .ok a
  | none => .err .unspecified

section Sealing

variable (A : Aead)

/-- `seal_seed`, with the nonce that `RandomizedNonceKey` draws. -/
def sealSeed (dek : Octets 32) (seed : Seed) (aad : Bytes) (nonce : Octets 12) : Call Bytes := do
  let inOut := A.sealInPlace dek nonce aad seed.bytes ++ nonce.bytes
  Outcome.assert (inOut.length = seed.bytes.length + 16 + 12)
  pure inOut

def openSeed (debug : Bool) (dek : Octets 32) (encryptedSeed aad : Bytes) :
    Outcome Unspecified Seed := do
  let ciphertextLen ← subUsize debug encryptedSeed.length 12
  let nonce ← sliceOrPanic encryptedSeed ciphertextLen encryptedSeed.length
  let nonce ← tryAssumeUniqueForKey nonce
  let inOut ← sliceOrPanic encryptedSeed 0 ciphertextLen
  let plaintext ← okOrUnspecified (A.openInPlace dek nonce aad inOut)
  seedNew plaintext

/-- What `open_seed` owes its caller on the input `c`. -/
structure OpensWell (debug : Bool) (dek : Octets 32) (aad c : Bytes) : Prop where
  noPanic : openSeed A debug dek c aad ≠ .panic
  sealed : ∀ seed nonce, sealSeed A dek seed aad nonce = .ok c →
    openSeed A debug dek c aad = .ok seed
  other : (∀ seed nonce, sealSeed A dek seed aad nonce ≠ .ok c) →
    ∃ e, openSeed A debug dek c aad = .err e

end Sealing

/-! ## The two layouts meet -/

variable {A : Aead}

theorem sealSeed_ok_iff (hA : A.Ideal) {dek : Octets 32} {seed : Seed} {aad c : Bytes}
    {nonce : Octets 12} : sealSeed A dek seed aad nonce = .ok c ↔
      c = A.sealInPlace dek nonce aad seed.bytes ++ nonce.bytes := by
  have hlen : (A.sealInPlace dek nonce aad seed.bytes ++ nonce.bytes).length =
      seed.bytes.length + 16 + 12 := by
    rw [List.length_append, hA.seal_length, nonce.bytes_length]
  unfold sealSeed
  dsimp only
  rw [(Outcome.assert_ok_iff (u := ())).mpr hlen, Outcome.ok_bind]
  show Outcome.ok _ = Outcome.ok c ↔ _
  rw [Outcome.ok.injEq]
  exact eq_comm

/-- Fewer than 12 bytes: in either build the call panics. -/
theorem openSeed_short (debug : Bool) (dek : Octets 32) (aad : Bytes) {c : Bytes}
    (h : c.length < 12) : openSeed A debug dek c aad = .panic := by
  have hsub : ¬ 12 ≤ c.length := Nat.not_le.mpr h
  unfold openSeed subUsize
  rw [if_neg hsub]
  cases debug with
  | true => rfl
  | false =>
      have hslice : ¬ (c.length + 2 ^ 64 - 12 ≤ c.length ∧ c.length ≤ c.length) := by omega
      rw [if_neg Bool.false_ne_true, Outcome.ok_bind, sliceOrPanic, if_neg hslice]
      rfl

/-- From 12 bytes on: the nonce comes off the end and the AEAD decides. -/
theorem openSeed_append (debug : Bool) (dek : Octets 32) (aad body : Bytes) (nonce : Octets 12) :
    openSeed A debug dek (body ++ nonce.bytes) aad =
      okOrUnspecified (A.openInPlace dek nonce aad body) >>= seedNew := by
  have hlen : (body ++ nonce.bytes).length = body.length + 12 := by
    rw [List.length_append, nonce.bytes_length]
  have hnonce : slice (body ++ nonce.bytes) body.length (body ++ nonce.bytes).length =
      nonce.bytes := by
    have := slice_middle (p := body) (m := nonce.bytes) (q := []) rfl rfl
    rwa [List.append_nil, nonce.bytes_length, ← hlen] at this
  have hbody : slice (body ++ nonce.bytes) 0 body.length = body := by
    rw [slice_zero_take, List.take_left]
  unfold openSeed subUsize
  rw [if_pos (by omega), Outcome.ok_bind, show (body ++ nonce.bytes).length - 12 = body.length by
    omega, sliceOrPanic_ok_iff.mpr ⟨⟨by omega, Nat.le_refl _⟩, hnonce⟩, Outcome.ok_bind,
    tryAssumeUniqueForKey, dif_pos nonce.bytes_length, Outcome.ok_bind,
    sliceOrPanic_ok_iff.mpr ⟨⟨Nat.zero_le _, by omega⟩, hbody⟩, Outcome.ok_bind]

/-- A string that ends in `nonce` was sealed if the AEAD opens what is in front of it. -/
theorem sealed_iff (hA : A.Ideal) {dek : Octets 32} {aad body plaintext : Bytes}
    {nonce nonce' : Octets 12} :
    body ++ nonce.bytes = A.sealInPlace dek nonce' aad plaintext ++ nonce'.bytes ↔
      nonce' = nonce ∧ A.openInPlace dek nonce aad body = some plaintext := by
  constructor
  · intro h
    obtain ⟨hbody, hnonce⟩ :=
      List.append_inj' h (nonce.bytes_length.trans nonce'.bytes_length.symm)
    obtain rfl : nonce' = nonce := Octets.ext hnonce.symm
    exact ⟨rfl, (hA.open_iff _ _ _ _ _).mpr hbody⟩
  · rintro ⟨rfl, hopen⟩
    rw [(hA.open_iff _ _ _ _ _).mp hopen]

theorem exists_split {c : Bytes} (h : 12 ≤ c.length) :
    ∃ (body : Bytes) (nonce : Octets 12), c = body ++ nonce.bytes := by
  have hlen : (c.drop (c.length - 12)).length = 12 := by
    rw [List.length_drop]
    omega
  exact ⟨c.take (c.length - 12), ⟨c.drop (c.length - 12), hlen⟩,
    (List.take_append_drop _ c).symm⟩

/-! ## What the AEAD decides -/

section Opened

variable {debug : Bool} {dek : Octets 32} {aad body plaintext : Bytes} {nonce : Octets 12}

/-- Nothing was sealed, and the error of the AEAD is passed on. -/
theorem opensWell_of_refused (hA : A.Ideal) (hopen : A.openInPlace dek nonce aad body = none) :
    OpensWell A debug dek aad (body ++ nonce.bytes) := by
  have hrun := openSeed_append (A := A) debug dek aad body nonce
  rw [hopen] at hrun
  have herr : openSeed A debug dek (body ++ nonce.bytes) aad = .err .unspecified := hrun
  refine ⟨?_, ?_, fun _ => ⟨_, herr⟩⟩
  · rw [herr]
    exact Outcome.err_ne_panic _
  · intro seed other hseal
    have hopened := ((sealed_iff hA).mp ((sealSeed_ok_iff hA).mp hseal)).2
    rw [hopen] at hopened
    cases hopened

/-- What the AEAD opened goes to `Seed::new`. -/
theorem openSeed_opened (debug : Bool)
    (hopen : A.openInPlace dek nonce aad body = some plaintext) :
    openSeed A debug dek (body ++ nonce.bytes) aad = seedNew plaintext := by
  rw [openSeed_append, hopen]
  rfl

/-- Only one plaintext was sealed in a string that the AEAD opens. -/
theorem sealed_unique (hA : A.Ideal) (hopen : A.openInPlace dek nonce aad body = some plaintext)
    {nonce₂ : Octets 12} {plaintext₂ : Bytes}
    (h : body ++ nonce.bytes = A.sealInPlace dek nonce₂ aad plaintext₂ ++ nonce₂.bytes) :
    plaintext = plaintext₂ := by
  have hopened := ((sealed_iff hA).mp h).2
  rwa [hopen, Option.some.injEq] at hopened

theorem opensWell_of_seed (hA : A.Ideal) (hopen : A.openInPlace dek nonce aad body = some plaintext)
    (hsize : plaintext.length = 32) : OpensWell A debug dek aad (body ++ nonce.bytes) := by
  have hrun := openSeed_opened debug hopen
  rw [seedNew, dif_pos hsize] at hrun
  refine ⟨?_, ?_, ?_⟩
  · rw [hrun]
    exact Outcome.ok_ne_panic _
  · intro seed other hseal
    have hsame := sealed_unique hA hopen ((sealSeed_ok_iff hA).mp hseal)
    rw [hrun]
    exact congrArg Outcome.ok (Octets.ext hsame)
  · intro hno
    have hsealed := (sealed_iff hA).mpr ⟨rfl, hopen⟩
    exact absurd ((sealSeed_ok_iff hA).mpr hsealed) (hno ⟨plaintext, hsize⟩ nonce)

end Opened

/-! ## The result -/

/-- `open_seed` does what it owes its caller unless the string is too short to end in a nonce,
or something other than 32 bytes was sealed in it. -/
theorem openSeed_iff (A : Aead) (hA : A.Ideal) (debug : Bool) (dek : Octets 32) (aad c : Bytes) :
    OpensWell A debug dek aad c ↔ 12 ≤ c.length ∧ ∀ nonce plaintext,
      c = A.sealInPlace dek nonce aad plaintext ++ nonce.bytes → plaintext.length = 32 := by
  rcases Nat.lt_or_ge c.length 12 with hshort | hlong
  · have hpanic := openSeed_short (A := A) debug dek aad hshort
    exact iff_of_false (fun h => h.noPanic hpanic) (fun h => Nat.not_le.mpr hshort h.1)
  obtain ⟨body, nonce, rfl⟩ := exists_split hlong
  cases hopen : A.openInPlace dek nonce aad body with
  | none =>
      refine iff_of_true (opensWell_of_refused hA hopen) ⟨hlong, ?_⟩
      intro other plaintext h
      have hopened := ((sealed_iff hA).mp h).2
      rw [hopen] at hopened
      cases hopened
  | some plaintext =>
      by_cases hsize : plaintext.length = 32
      · refine iff_of_true (opensWell_of_seed hA hopen hsize) ⟨hlong, ?_⟩
        intro other plaintext₂ h
        rw [← sealed_unique hA hopen h]
        exact hsize
      · have hpanic := openSeed_opened debug hopen
        rw [seedNew, dif_neg hsize] at hpanic
        have hsealed := (sealed_iff hA).mpr ⟨rfl, hopen⟩
        exact iff_of_false (fun h => h.noPanic hpanic)
          (fun h => hsize (h.2 nonce plaintext hsealed))

/-- A stand-in for the AEAD in the sample runs: the plaintext in the clear, and a tag. -/
def clearAead : Aead where
  sealInPlace key nonce aad plaintext :=
    plaintext ++ (digest (key.bytes ++ nonce.bytes ++ aad ++ plaintext)).bytes.take 16
  openInPlace key nonce aad c :=
    let plaintext := c.take (c.length - 16)
    if c = plaintext ++ (digest (key.bytes ++ nonce.bytes ++ aad ++ plaintext)).bytes.take 16
    then some plaintext else none

theorem clearAead_ideal : clearAead.Ideal := by
  have hlen : ∀ key nonce aad plaintext,
      (clearAead.sealInPlace key nonce aad plaintext).length = plaintext.length + 16 := by
    intro key nonce aad plaintext
    show (plaintext ++ _).length = _
    rw [List.length_append, List.length_take, Octets.bytes_length]
    rfl
  refine ⟨?_, hlen⟩
  intro key nonce aad c plaintext
  have hcut : ∀ {x : Bytes}, (clearAead.sealInPlace key nonce aad x).take
      ((clearAead.sealInPlace key nonce aad x).length - 16) = x := by
    intro x
    rw [hlen, Nat.add_sub_cancel]
    exact List.take_left
  show (if c = clearAead.sealInPlace key nonce aad (c.take (c.length - 16))
    then some (c.take (c.length - 16)) else none) = some plaintext ↔ _
  constructor
  · intro h
    split at h
    · next hc =>
        cases h
        exact hc
    · cases h
  · rintro rfl
    rw [hcut, if_pos rfl]

/-- A sealed seed, and twelve bytes: a nonce and no tag. -/
theorem openSeed_seed_and_nonce_alone :
    OpensWell clearAead true (Octets.zero 32) [1] (clearAead.sealInPlace (Octets.zero 32)
        (Octets.fill 12 5) [1] (List.replicate 32 7) ++ (Octets.fill 12 5).bytes) ∧
      OpensWell clearAead true (Octets.zero 32) [] (Octets.zero 12).bytes := by
  constructor
  · refine (openSeed_iff clearAead clearAead_ideal true (Octets.zero 32) [1] _).mpr ⟨?_, ?_⟩
    · rw [List.length_append, Octets.bytes_length]
      exact Nat.le_add_left 12 _
    · intro nonce plaintext h
      have hlength := congrArg List.length h
      rw [List.length_append, List.length_append, clearAead_ideal.seal_length,
        clearAead_ideal.seal_length, Octets.bytes_length, Octets.bytes_length,
        List.length_replicate] at hlength
      omega
  · refine (openSeed_iff clearAead clearAead_ideal true (Octets.zero 32) [] _).mpr ⟨by decide, ?_⟩
    intro nonce plaintext h
    have hlength := congrArg List.length h
    rw [List.length_append, clearAead_ideal.seal_length, Octets.bytes_length,
      Octets.bytes_length] at hlength
    omega

/-- Three bytes, and 31 sealed ones, panic in either build. -/
theorem openSeed_panics :
    (∀ debug, openSeed clearAead debug (Octets.zero 32) [1, 2, 3] [] = .panic) ∧
      (∀ debug, openSeed clearAead debug (Octets.zero 32) (clearAead.sealInPlace (Octets.zero 32)
        (Octets.zero 12) [] (List.replicate 31 0) ++ (Octets.zero 12).bytes) [] = .panic) ∧
      ¬ OpensWell clearAead true (Octets.zero 32) [] [1, 2, 3] := by
  have hshort : ∀ debug, openSeed clearAead debug (Octets.zero 32) [1, 2, 3] [] = .panic :=
    fun debug => openSeed_short debug _ _ (by decide)
  refine ⟨hshort, fun debug => ?_, fun h => h.noPanic (hshort true)⟩
  rw [openSeed_append, (clearAead_ideal.open_iff _ _ _ _ _).mpr rfl]
  rfl

end Roughenough.Keys
