/-
# `Roughenough.Protocol.Grammar` — the grammar of headers

Section 4.2 of the draft, next to what `from_wire_inner` of `header.rs` reads:

    count      the number of tags
    offsets    multiples of four, in increasing order
    tags       known, in ascending order of the number that their four bytes
               denote, least significant byte first; none more than once

The last clause is the one that the reader does not check: it refuses a tag
below the one before it, and takes one that is equal.  So it accepts the headers
of the grammar and those that repeat a tag.
-/
import Roughenough.Protocol.Header

namespace Roughenough.Protocol

open Roughenough.Base ParseCursor

namespace Tag

/-- The number that the bytes of a tag denote. -/
def number (t : Tag) : Nat := ofLe t.wireValue

def all : List Tag :=
  [invalid, sig, ver, srv, nonc, dele, type, path, radi, pubk, midp, srep, vers, mint, root, cert,
    maxt, indx, zzzz, pad]

theorem mem_all (t : Tag) : t ∈ all := by
  cases t <;> decide

theorem lt_iff_of_mem : ∀ a ∈ all, ∀ b ∈ all, (a.lt b ↔ a.number < b.number) := by
  decide +kernel

/-- The order of the tags is that of their numbers. -/
theorem lt_iff (a b : Tag) : a.lt b ↔ a.number < b.number :=
  lt_iff_of_mem a a.mem_all b b.mem_all

end Tag

namespace Header

variable {n : Nat}

/-! ## Sorted lists -/

theorem pairwise_le_cons {α : Type} {f : α → Nat} {p v : α} {l : List α} :
    (p :: v :: l).Pairwise (fun a b => f a ≤ f b) ↔
      f p ≤ f v ∧ (v :: l).Pairwise fun a b => f a ≤ f b := by
  rw [List.pairwise_cons]
  constructor
  · rintro ⟨hp, hsorted⟩
    exact ⟨hp v List.mem_cons_self, hsorted⟩
  · rintro ⟨hpv, hsorted⟩
    refine ⟨List.forall_mem_cons.mpr ⟨hpv, ?_⟩, hsorted⟩
    intro w hw
    exact Nat.le_trans hpv ((List.pairwise_cons.mp hsorted).1 w hw)

theorem offsetsOk_iff_sorted {p : UInt32} {l : List UInt32} : OffsetsOk p l ↔
    (∀ v ∈ l, v.toNat % 4 = 0) ∧ (p :: l).Pairwise fun a b => a.toNat ≤ b.toNat := by
  induction l generalizing p with
  | nil => simp [OffsetsOk]
  | cons v l ih =>
      rw [OffsetsOk, ih, pairwise_le_cons, List.forall_mem_cons]
      constructor
      · rintro ⟨hv, hpv, hl, hsorted⟩
        exact ⟨⟨hv, hl⟩, hpv, hsorted⟩
      · rintro ⟨⟨hv, hl⟩, hpv, hsorted⟩
        exact ⟨hv, hpv, hl, hsorted⟩

theorem tagsOk_iff_sorted {p : Tag} {l : List Tag} : TagsOk p l ↔
    (∀ t ∈ l, t ≠ .invalid) ∧ (p :: l).Pairwise fun a b => a.number ≤ b.number := by
  induction l generalizing p with
  | nil => simp [TagsOk]
  | cons t l ih =>
      rw [TagsOk, ih, Tag.lt_iff, Nat.not_lt, pairwise_le_cons, List.forall_mem_cons]
      constructor
      · rintro ⟨ht, hpt, hl, hsorted⟩
        exact ⟨⟨ht, hl⟩, hpt, hsorted⟩
      · rintro ⟨⟨ht, hl⟩, hpt, hsorted⟩
        exact ⟨ht, hpt, hl, hsorted⟩

/-! ## The grammar -/

/-- A table of `n` tags in order. -/
structure Ordered (n : Nat) (offsets : List UInt32) (tags : List Tag) : Prop where
  numOffsets : offsets.length = n - 1
  numTags : tags.length = n
  aligned : ∀ v ∈ offsets, v.toNat % 4 = 0
  increasing : offsets.Pairwise fun a b => a.toNat ≤ b.toNat
  known : ∀ t ∈ tags, t ≠ .invalid
  ascending : tags.Pairwise fun a b => a.number ≤ b.number

/-- The bytes start with a header of `n` tags in order, with tags as `P` says. -/
def StartsWith (n : Nat) (P : List Tag → Prop) (bs : Bytes) : Prop :=
  ∃ offsets tags rest, bs = leBytes32 (UInt32.ofNat n) ++ (offsets.flatMap leBytes32 ++
    (tags.flatMap Tag.wireValue ++ rest)) ∧ Ordered n offsets tags ∧ P tags

theorem wellFormed_iff_ordered {h : Header n} :
    h.WellFormed ↔ Ordered n h.offsets.1 h.tags.1 := by
  have hzero : ∀ v ∈ h.offsets.1, (0 : UInt32).toNat ≤ v.toNat := fun v _ => Nat.zero_le _
  have hinvalid : ∀ t ∈ h.tags.1, Tag.number .invalid ≤ t.number := fun t _ => Nat.zero_le _
  constructor
  · intro hwf
    obtain ⟨haligned, hoffsets⟩ := offsetsOk_iff_sorted.mp hwf.offsets
    obtain ⟨hknown, htags⟩ := tagsOk_iff_sorted.mp hwf.tags
    exact ⟨h.offsets.2, h.tags.2, haligned, (List.pairwise_cons.mp hoffsets).2, hknown,
      (List.pairwise_cons.mp htags).2⟩
  · intro ho
    exact ⟨offsetsOk_iff_sorted.mpr ⟨ho.aligned, List.pairwise_cons.mpr ⟨hzero, ho.increasing⟩⟩,
      tagsOk_iff_sorted.mpr ⟨ho.known, List.pairwise_cons.mpr ⟨hinvalid, ho.ascending⟩⟩⟩

/-- The reader takes the bytes that start with a table in order. -/
theorem fromWire_ok_iff_startsWith {P : List Tag → Prop} {c : ParseCursor} :
    (∃ h c', fromWire n c = .ok (h, c') ∧ P h.tags.1) ↔ StartsWith n P c.rest := by
  constructor
  · rintro ⟨h, c', hrun, hP⟩
    obtain ⟨hwf, hconsumes⟩ := fromWire_ok_iff.mp hrun
    refine ⟨h.offsets.1, h.tags.1, c'.rest, ?_, wellFormed_iff_ordered.mp hwf, hP⟩
    rw [hconsumes.rest_eq, encode, List.append_assoc, List.append_assoc]
  · rintro ⟨offsets, tags, rest, hrest, ho, hP⟩
    let h : Header n := ⟨⟨offsets, ho.numOffsets⟩, ⟨tags, ho.numTags⟩⟩
    have hencode : c.rest = h.encode ++ rest := by
      rw [hrest, encode, List.append_assoc, List.append_assoc]
    exact ⟨h, _, fromWire_ok_iff.mpr
      ⟨wellFormed_iff_ordered.mpr ho, (Consumes.of_rest hencode).1⟩, hP⟩

theorem sizeOf_eq (h : 1 ≤ n) : sizeOf n = 8 * n := by
  unfold sizeOf
  omega

/-- What the draft says about headers holds of the reader at a position. -/
structure FollowsDraft (n : Nat) (c : ParseCursor) : Prop where
  accepts : (∃ h c', fromWire n c = .ok (h, c')) ↔ StartsWith n List.Nodup c.rest
  consumes : ∀ h c', fromWire n c = .ok (h, c') →
    8 * n ≤ c.remaining ∧ c' = c.skip (8 * n) ∧ Writes h.toWire (c.rest.take (8 * n))
  undoes : ∀ h : Header n, Ordered n h.offsets.1 h.tags.1 → h.tags.1.Nodup →
    ∃ bs, Writes h.toWire bs ∧ bs.length = 8 * n ∧
      ∀ c' rest, c'.rest = bs ++ rest → fromWire n c' = .ok (h, c'.skip (8 * n))

/-- A header that was read is written as it was. -/
theorem fromWire_consumes (hn : 1 ≤ n) {h : Header n} {c c' : ParseCursor}
    (hrun : fromWire n c = .ok (h, c')) :
    8 * n ≤ c.remaining ∧ c' = c.skip (8 * n) ∧ Writes h.toWire (c.rest.take (8 * n)) := by
  obtain ⟨-, hconsumes⟩ := fromWire_ok_iff.mp hrun
  have hlen : h.encode.length = 8 * n := h.encode_length.trans (sizeOf_eq hn)
  refine ⟨?_, ?_, ?_⟩
  · rw [hconsumes.remaining_eq, hlen]
    exact Nat.le_add_right _ _
  · rw [hconsumes.next_eq, hlen]
  · rw [hconsumes.rest_eq, ← hlen, List.take_left]
    exact h.toWire_writes

/-- A header in order that was written is read as it was. -/
theorem toWire_undone (hn : 1 ≤ n) {h : Header n} (ho : Ordered n h.offsets.1 h.tags.1) :
    ∃ bs, Writes h.toWire bs ∧ bs.length = 8 * n ∧
      ∀ c' rest, c'.rest = bs ++ rest → fromWire n c' = .ok (h, c'.skip (8 * n)) := by
  have hlen : h.encode.length = 8 * n := h.encode_length.trans (sizeOf_eq hn)
  refine ⟨h.encode, h.toWire_writes, hlen, ?_⟩
  intro c' rest hrest
  rw [← hlen]
  exact fromWire_ok_iff.mpr ⟨wellFormed_iff_ordered.mpr ho, (Consumes.of_rest hrest).1⟩

/-- The reader follows the draft, except on bytes that start with a table in order in which a tag
is repeated. -/
theorem header_grammar_iff (n : Nat) (h2 : 2 ≤ n) (h7 : n ≤ 7) (c : ParseCursor) :
    FollowsDraft n c ↔ ¬ StartsWith n (fun tags => ¬ tags.Nodup) c.rest := by
  have hn : 1 ≤ n := by omega
  constructor
  · intro h hrepeats
    obtain ⟨header, c', hrun, hrepeat⟩ := fromWire_ok_iff_startsWith.mpr hrepeats
    obtain ⟨header', c'', hrun', hnodup⟩ :=
      fromWire_ok_iff_startsWith.mpr (h.accepts.mp ⟨header, c', hrun⟩)
    -- the reader has one answer only
    cases hrun.symm.trans hrun'
    exact hrepeat hnodup
  · intro hnot
    refine ⟨?_, fun h c' hrun => fromWire_consumes hn hrun, fun h ho _ => toWire_undone hn ho⟩
    constructor
    · rintro ⟨header, c', hrun⟩
      refine fromWire_ok_iff_startsWith.mp ⟨header, c', hrun, ?_⟩
      by_contra hrepeat
      exact hnot (fromWire_ok_iff_startsWith.mp ⟨header, c', hrun, hrepeat⟩)
    · intro hstarts
      obtain ⟨header, c', hrun, -⟩ := fromWire_ok_iff_startsWith.mpr hstarts
      exact ⟨header, c', hrun⟩

/-- A header of two tags, with one offset. -/
def pair (first second : Tag) : Header 2 := ⟨⟨[64], rfl⟩, ⟨[first, second], rfl⟩⟩

theorem fromWire_pair {first second : Tag} (h : TagsOk .invalid [first, second]) :
    fromWire 2 (new (pair first second).encode) = .ok (pair first second,
      (new (pair first second).encode).skip (pair first second).encode.length) := by
  have hrest : (new (pair first second).encode).rest = (pair first second).encode ++ [] :=
    (List.append_nil _).symm
  have hoffsets : OffsetsOk 0 [64] := by decide
  exact fromWire_ok_iff.mpr ⟨⟨hoffsets, h⟩, (Consumes.of_rest hrest).1⟩

/-- The header of a CERT. -/
theorem header_grammar_cert : FollowsDraft 2 (new (pair .sig .dele).encode) := by
  refine (header_grammar_iff 2 (by decide) (by decide) _).mpr ?_
  intro hrepeats
  obtain ⟨header, c', hrun, hrepeat⟩ := fromWire_ok_iff_startsWith.mpr hrepeats
  cases (fromWire_pair (by decide)).symm.trans hrun
  exact hrepeat (by decide)

/-- SIG twice: it is read, and the draft does not allow it. -/
theorem header_repeats_tag :
    (∃ h c', fromWire 2 (new (pair .sig .sig).encode) = .ok (h, c')) ∧
      ¬ StartsWith 2 List.Nodup (pair .sig .sig).encode ∧
      ¬ FollowsDraft 2 (new (pair .sig .sig).encode) := by
  have htags : TagsOk .invalid [.sig, .sig] := by decide
  have hrun := fromWire_pair htags
  have hnot : ¬ StartsWith 2 List.Nodup (pair .sig .sig).encode := by
    intro hstarts
    obtain ⟨header, c', hrun', hnodup⟩ :=
      (fromWire_ok_iff_startsWith (c := new (pair .sig .sig).encode)).mpr hstarts
    cases hrun.symm.trans hrun'
    exact absurd hnodup (by decide)
  exact ⟨⟨_, _, hrun⟩, hnot, fun h => hnot (h.accepts.mp ⟨_, _, hrun⟩)⟩

end Header

end Roughenough.Protocol
