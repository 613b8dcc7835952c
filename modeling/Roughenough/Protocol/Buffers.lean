/-
# `Roughenough.Protocol.Buffers` — writers in a buffer that is too short

`Writes` says what an encoder does when there is room.  Here is the other
half: an encoder is a sequence of writes, some behind a size check (`try_put_*`,
the headers, PATH, every request as a whole) and some not (`put_u32_le`,
`put_u64_le`, and with them TYPE, VER, VERS, RADI, MIDP, MINT, MAXT, INDX).
The first write that does not fit decides: a checked one answers `Err`, an
unchecked one indexes past the buffer and panics.

    Emits p bs gap      `p` writes `bs` when there is room for them, panics
                        when the room left is in `gap`, and fails otherwise

Requests have no gap.  The draft-14 response checks the capacity of the
buffer instead of what is left of it, and the draft-08 response checks
nothing, so both have three gaps, one for each run of unchecked fields.
-/
import Roughenough.Protocol.Response

namespace Roughenough.Protocol

open Roughenough.Base ParseCursor

/-- `size` bytes are written at the position and nothing else is touched, or fewer are left
and the writer answers `Err`. -/
def AllOrError (p : Wire Unit) (size : Nat) (c : ParseCursor) : Prop :=
  (size ≤ c.remaining ∧ ∃ bs, bs.length = size ∧ p c = .ok ((), c.put bs)) ∨
    (c.remaining < size ∧ ∃ e, p c = .err e)

/-- What `p` does for every capacity of the buffer and every room left in it. -/
structure Emits (p : Wire Unit) (bs : Bytes) (gap : (capacity room : Nat) → Prop) : Prop where
  fits : ∀ c : ParseCursor, bs.length ≤ c.remaining → p c = .ok ((), c.put bs)
  panics : ∀ c : ParseCursor, c.remaining < bs.length → gap c.capacity c.remaining → p c = .panic
  fails : ∀ c : ParseCursor, c.remaining < bs.length → ¬ gap c.capacity c.remaining →
    ∃ e, p c = .err e

namespace Emits

variable {p q : Wire Unit} {as bs : Bytes} {g g' : Nat → Nat → Prop}

theorem put_nil (c : ParseCursor) : c.put [] = c := by simp [put]

theorem remaining_put {c : ParseCursor} (h : as.length ≤ c.remaining) :
    (c.put as).remaining = c.remaining - as.length := by
  show (c.put as).data.length - (c.position + as.length) = c.data.length - c.position - as.length
  rw [Writes.put_length h, Nat.sub_add_eq]

theorem capacity_put {c : ParseCursor} (h : as.length ≤ c.remaining) :
    (c.put as).capacity = c.capacity := Writes.put_length h

/-- Where something is left the position is inside the buffer. -/
theorem position_le {c : ParseCursor} (h : 0 < c.remaining) : c.position ≤ c.data.length := by
  have hrem : c.remaining = c.data.length - c.position := rfl
  omega

theorem put_put {c : ParseCursor} (h : (as ++ bs).length ≤ c.remaining) :
    (c.put as).put bs = c.put (as ++ bs) := by
  rcases Nat.eq_zero_or_pos (as ++ bs).length with h0 | hpos
  · obtain ⟨rfl, rfl⟩ := List.append_eq_nil_iff.mp (List.eq_nil_of_length_eq_zero h0)
    rw [List.append_nil, put_nil, put_nil]
  · exact Writes.put_put (position_le (Nat.lt_of_lt_of_le hpos h))

theorem fits_of_writes (h : Writes p bs) (hpos : 0 < bs.length) (c : ParseCursor)
    (hlen : bs.length ≤ c.remaining) : p c = .ok ((), c.put bs) :=
  h c (position_le (Nat.lt_of_lt_of_le hpos hlen)) hlen

/-- Only the gap below the size matters. -/
theorem congr (h : Emits p bs g) (hg : ∀ k r, r < bs.length → (g k r ↔ g' k r)) :
    Emits p bs g' where
  fits := h.fits
  panics c hc hgap := h.panics c hc ((hg _ _ hc).mpr hgap)
  fails c hc hgap := h.fails c hc fun hin => hgap ((hg _ _ hc).mp hin)

theorem nothing : Emits (pure ()) [] fun _ _ => False where
  fits c _ := by
    rw [put_nil]
    rfl
  panics c hc := absurd hc (Nat.not_lt_zero _)
  fails c hc := absurd hc (Nat.not_lt_zero _)

/-- `put_slice` and its kin: every room that is too small is in the gap. -/
theorem unchecked {src : Bytes} (hpos : 0 < src.length) :
    Emits (ParseCursor.putSlice src) src fun _ _ => True where
  fits := fits_of_writes (Writes.putSlice src) hpos
  panics c hc _ := by
    have hrem : c.remaining = c.data.length - c.position := rfl
    exact if_neg (by omega)
  fails c _ hgap := absurd trivial hgap

/-- A writer behind a check of its whole size has no gap. -/
theorem checked {n : Nat} (hw : Writes (do
      let c ← Prog.read
      Prog.failIf (c.remaining < n) (.bufferTooSmall n c.remaining)
      p) bs) (hlen : bs.length = n) (hpos : 0 < n) :
    Emits (do
      let c ← Prog.read
      Prog.failIf (c.remaining < n) (.bufferTooSmall n c.remaining)
      p) bs fun _ _ => False where
  fits := fits_of_writes hw (Nat.lt_of_lt_of_eq hpos hlen.symm)
  panics c _ hgap := hgap.elim
  fails c hc _ := by
    subst hlen
    refine ⟨.bufferTooSmall bs.length c.remaining, ?_⟩
    rw [Prog.bind_of_ok (Prog.read_ok_iff.mpr ⟨rfl, rfl⟩)]
    exact Prog.bind_of_err (Prog.failIf_err hc)

/-- A check of the capacity keeps the gap, in the buffers that pass it. -/
theorem capacityChecked {n : Nat} (hp : Emits p bs g) (hlen : bs.length = n) :
    Emits (do
      let c ← Prog.read
      Prog.failIf (c.capacity < n) (.bufferTooSmall n c.capacity)
      p) bs fun k r => n ≤ k ∧ g k r := by
  subst hlen
  have hpass : ∀ c : ParseCursor, bs.length ≤ c.capacity → (do
      let c ← Prog.read
      Prog.failIf (c.capacity < bs.length) (.bufferTooSmall bs.length c.capacity)
      p : Wire Unit) c = p c := by
    intro c hc
    rw [Prog.bind_of_ok (Prog.read_ok_iff.mpr ⟨rfl, rfl⟩)]
    exact Prog.bind_of_ok (a := ()) (Prog.failIf_ok_iff.mpr ⟨Nat.not_lt.mpr hc, rfl⟩)
  refine ⟨fun c hc => ?_, fun c hc hgap => ?_, fun c hc hgap => ?_⟩
  · rw [hpass c (Nat.le_trans hc (Nat.sub_le _ _))]
    exact hp.fits c hc
  · rw [hpass c hgap.1]
    exact hp.panics c hc hgap.2
  · rcases Nat.lt_or_ge c.capacity bs.length with hlt | hle
    · refine ⟨.bufferTooSmall bs.length c.capacity, ?_⟩
      rw [Prog.bind_of_ok (Prog.read_ok_iff.mpr ⟨rfl, rfl⟩)]
      exact Prog.bind_of_err (Prog.failIf_err hlt)
    · rw [hpass c hle]
      exact hp.fails c hc fun hg => hgap ⟨hle, hg⟩

/-- One writer after the other: the second meets what the first has left. -/
theorem seq (hp : Emits p as g) (hq : Emits q bs g') :
    Emits (p >>= fun _ => q) (as ++ bs) fun k r =>
      (r < as.length ∧ g k r) ∨ (as.length ≤ r ∧ g' k (r - as.length)) where
  fits c hc := by
    have hsum := hc
    rw [List.length_append] at hsum
    have has : as.length ≤ c.remaining := by omega
    rw [Prog.bind_of_ok (hp.fits c has), hq.fits _ ?_, put_put hc]
    rw [remaining_put has]
    omega
  panics c hc hgap := by
    rw [List.length_append] at hc
    rcases hgap with ⟨hlt, hg⟩ | ⟨hle, hg⟩
    · exact Prog.bind_of_panic (hp.panics c hlt hg)
    · rw [Prog.bind_of_ok (hp.fits c hle)]
      rw [← remaining_put hle, ← capacity_put hle] at hg
      refine hq.panics _ ?_ hg
      rw [remaining_put hle]
      omega
  fails c hc hgap := by
    rw [List.length_append] at hc
    rcases Nat.lt_or_ge c.remaining as.length with hlt | hle
    · obtain ⟨e, he⟩ := hp.fails c hlt fun hg => hgap (Or.inl ⟨hlt, hg⟩)
      exact ⟨e, Prog.bind_of_err he⟩
    · rw [Prog.bind_of_ok (hp.fits c hle)]
      refine hq.fails _ ?_ fun hg => hgap (Or.inr ⟨hle, ?_⟩)
      · rw [remaining_put hle]
        omega
      · rwa [remaining_put hle, capacity_put hle] at hg

/-- A loop of unchecked writes is one unchecked write. -/
theorem forEach {α : Type} {f : α → Wire Unit} {enc : α → Bytes}
    (h : ∀ a, Emits (f a) (enc a) fun _ _ => True) (l : List α) :
    Emits (l.forM f) (l.flatMap enc) fun _ _ => True := by
  induction l with
  | nil => exact nothing.congr fun _ _ hr => absurd hr (Nat.not_lt_zero _)
  | cons a l ih =>
      rw [List.flatMap_cons]
      refine ((h a).seq ih).congr fun _ r _ => ?_
      have := Nat.lt_or_ge r (enc a).length
      simpa using this

/-- A writer is all-or-error exactly outside its gap. -/
theorem allOrError_iff (h : Emits p bs g) (c : ParseCursor) : AllOrError p bs.length c ↔
    ¬ (c.remaining < bs.length ∧ g c.capacity c.remaining) := by
  constructor
  · rintro (⟨hle, -⟩ | ⟨hlt, e, he⟩) ⟨hlt', hg⟩
    · omega
    · rw [h.panics c hlt' hg] at he
      cases he
  · intro hgap
    rcases Nat.lt_or_ge c.remaining bs.length with hlt | hle
    · exact Or.inr ⟨hlt, h.fails c hlt fun hg => hgap ⟨hlt, hg⟩⟩
    · exact Or.inl ⟨hle, bs, rfl, h.fits c hle⟩

end Emits

/-! ## The parts of a message -/

theorem Header.toWire_emits {n : Nat} (h : Header n) :
    Emits h.toWire h.encode fun _ _ => False := by
  have hpos : 0 < sizeOf n := by
    simp only [sizeOf]
    omega
  exact Emits.checked h.toWire_writes h.encode_length hpos

theorem tryPutSlice_emits (src : Bytes) (hpos : 0 < src.length) :
    Emits (tryPutSlice src) src fun _ _ => False :=
  Emits.checked (Writes.tryPutSlice src) rfl hpos

theorem FixedTag.toWire_emits {n : Nat} (x : FixedTag n) (hn : 0 < n) :
    Emits (FixedTag.toWire x) x.bytes fun _ _ => False :=
  tryPutSlice_emits _ (Nat.lt_of_lt_of_eq hn x.bytes_length.symm)

theorem putU32Le_emits (x : UInt32) : Emits (putU32Le x) (leBytes32 x) fun _ _ => True :=
  Emits.unchecked (by simp)

theorem putU64Le_emits (x : UInt64) : Emits (putU64Le x) (leBytes64 x) fun _ _ => True :=
  Emits.unchecked (by simp)

theorem VersionList.toWire_emits (l : VersionList) : Emits l.toWire l.encode fun _ _ => True := by
  rw [encode, List.flatMap_map]
  exact Emits.forEach (fun v : ProtocolVersion => putU32Le_emits v.value) _

theorem MerklePath.toWire_emits (p : MerklePath) : Emits p.toWire p.paths fun _ _ => False := by
  have hw := p.toWire_writes
  unfold toWire at hw ⊢
  by_cases h0 : p.numPaths = 0
  · have hp : p.paths = [] := List.eq_nil_of_length_eq_zero (by rw [paths_length, h0])
    rw [if_pos h0, hp]
    exact Emits.nothing
  · rw [if_neg h0] at hw ⊢
    refine Emits.checked hw ?_ (Nat.mul_pos (Nat.pos_of_ne_zero h0) (by decide))
    rw [paths_length, wireSize, elementSize, Nat.mul_comm]

/-- MINT and MAXT are written without a check. -/
theorem Delegation.toWire_emits (d : Delegation) :
    Emits d.toWire d.encode fun _ r => 56 ≤ r ∧ r < 72 := by
  have h := d.header.toWire_emits.seq
    ((FixedTag.toWire_emits d.publicKey (by decide)).seq
      ((putU64Le_emits d.minTime).seq (putU64Le_emits d.maxTime)))
  refine h.congr fun _ r hr => ?_
  simp only [List.length_append, Header.encode_length, Header.sizeOf, Octets.bytes_length,
    leBytes64_length, and_true, and_false, false_or] at hr ⊢
  omega

theorem Certificate.toWire_emits (x : Certificate) :
    Emits x.toWire x.encode fun _ r => 136 ≤ r ∧ r < 152 := by
  have h := x.header.toWire_emits.seq
    ((FixedTag.toWire_emits x.signature (by decide)).seq x.delegation.toWire_emits)
  refine h.congr fun _ r hr => ?_
  simp only [List.length_append, Header.encode_length, Header.sizeOf, Octets.bytes_length,
    Delegation.encode_length, and_false, false_or] at hr ⊢
  omega

/-- VER, RADI, MIDP and VERS are written without a check. -/
theorem SignedResponse.toWire_emits (s : SignedResponse) : Emits s.toWire s.encode fun _ r =>
    40 ≤ r ∧ r < 56 + 4 * s.supportedVersions.versions.length := by
  have h := s.header.toWire_emits.seq ((putU32Le_emits s.version.value).seq
    ((putU32Le_emits s.radius).seq ((putU64Le_emits s.midpoint).seq
      (s.supportedVersions.toWire_emits.seq (FixedTag.toWire_emits s.merkleRoot (by decide))))))
  refine h.congr fun _ r hr => ?_
  simp only [List.length_append, Header.encode_length, Header.sizeOf, Octets.bytes_length,
    leBytes32_length, leBytes64_length, VersionList.encode_length, VersionList.wireSize,
    ProtocolVersion.wireSize, and_true, and_false, false_or, or_false] at hr ⊢
  omega

theorem SignedResponseDraft08.toWire_emits (s : SignedResponseDraft08) :
    Emits s.toWire s.encode fun _ r => 24 ≤ r ∧ r < 36 := by
  have h := s.header.toWire_emits.seq ((putU32Le_emits s.radius).seq
    ((putU64Le_emits s.midpoint).seq (FixedTag.toWire_emits s.merkleRoot (by decide))))
  refine h.congr fun _ r hr => ?_
  simp only [List.length_append, Header.encode_length, Header.sizeOf, Octets.bytes_length,
    leBytes32_length, leBytes64_length, and_true, and_false, false_or, or_false] at hr ⊢
  omega

/-! ## Frames -/

/-- The two words in front of a message are checked. -/
theorem toFrame_emits {q : Wire Unit} {bs : Bytes} {g : Nat → Nat → Prop} (hq : Emits q bs g)
    {size : Nat} (hsize : bs.length = size) :
    Emits (toFrame size q) (framed bs) fun k r => 12 ≤ r ∧ g k (r - 12) := by
  subst hsize
  have h := (tryPutSlice_emits (toBe 8 frameMagic) (by simp)).seq
    ((tryPutSlice_emits (leBytes32 (UInt32.ofNat bs.length)) (by simp)).seq hq)
  rw [← List.append_assoc] at h
  refine h.congr fun _ r _ => ?_
  simp only [toBe_length, leBytes32_length, and_false, false_or, Nat.sub_sub]
  constructor
  · rintro ⟨h8, h4, hg⟩
    exact ⟨by omega, hg⟩
  · rintro ⟨h12, hg⟩
    exact ⟨by omega, by omega, hg⟩

/-! ## Requests -/

theorem RequestDraft08.toWire_emits (r : RequestDraft08) :
    Emits r.toWire r.encode fun _ _ => False :=
  Emits.checked r.toWire_writes r.encode_length (Nat.succ_pos _)

theorem RequestDraft14.toWire_emits (r : RequestDraft14) :
    Emits r.toWire r.encode fun _ _ => False :=
  Emits.checked r.toWire_writes r.encode_length (Nat.succ_pos _)

theorem RequestDraft14Srv.toWire_emits (r : RequestDraft14Srv) :
    Emits r.toWire r.encode fun _ _ => False :=
  Emits.checked r.toWire_writes r.encode_length (Nat.succ_pos _)

theorem Request.toWire_emits (r : Request) : Emits r.toWire r.encode fun _ _ => False := by
  cases r with
  | draft08 req => exact req.toWire_emits
  | draft14 req => exact req.toWire_emits
  | draft14Srv req => exact req.toWire_emits

/-! ## Responses -/

/-- The rooms in which a draft-14 response runs out of buffer inside TYPE, inside VER to
VERS of SREP, or inside MINT to INDX. -/
def Response.Gap (r : Response) (room : Nat) : Prop :=
  (152 ≤ room ∧ room < 156) ∨
  (196 + 32 * r.path.numPaths ≤ room ∧
    room < 212 + 32 * r.path.numPaths + 4 * r.srep.supportedVersions.versions.length) ∨
  (380 + 32 * r.path.numPaths + 4 * r.srep.supportedVersions.versions.length ≤ room ∧
    room < 400 + 32 * r.path.numPaths + 4 * r.srep.supportedVersions.versions.length)

/-- The rooms in which a draft-08 response runs out of buffer inside VER, inside RADI and
MIDP of SREP, or inside MINT to INDX. -/
def ResponseDraft08.Gap (r : ResponseDraft08) (room : Nat) : Prop :=
  (112 ≤ room ∧ room < 116) ∨
  (140 + 32 * r.path.numPaths ≤ room ∧ room < 152 + 32 * r.path.numPaths) ∨
  (320 + 32 * r.path.numPaths ≤ room ∧ room < 340 + 32 * r.path.numPaths)

theorem Response.toWire_emits (r : Response) :
    Emits r.toWire r.encode fun k room => r.wireSize ≤ k ∧ r.Gap room := by
  have hlen := r.encode_length
  rw [encode_parts] at hlen ⊢
  have hbody := r.header.toWire_emits.seq ((FixedTag.toWire_emits r.signature (by decide)).seq
    ((FixedTag.toWire_emits r.nonce (by decide)).seq ((putU32Le_emits r.msgType.value).seq
      (r.path.toWire_emits.seq (r.srep.toWire_emits.seq
        (r.cert.toWire_emits.seq (putU32Le_emits r.index)))))))
  refine (hbody.capacityChecked hlen).congr fun k room hroom => and_congr_right fun _ => ?_
  have hsrep : r.srep.encode.length = 88 + 4 * r.srep.supportedVersions.versions.length :=
    r.srep.spells_values.encodeWith_length
  simp only [List.length_append, Header.encode_length, Header.sizeOf, Octets.bytes_length,
    leBytes32_length, MerklePath.paths_length, hsrep, Certificate.encode_length, and_true,
    and_false, false_or, Gap] at hroom ⊢
  omega

theorem ResponseDraft08.toWire_emits (r : ResponseDraft08) :
    Emits r.toWire r.encode fun _ room => r.Gap room := by
  rw [encode_parts]
  have hbody := r.header.toWire_emits.seq ((FixedTag.toWire_emits r.signature (by decide)).seq
    ((putU32Le_emits r.version.value).seq (r.path.toWire_emits.seq (r.srep.toWire_emits.seq
      (r.cert.toWire_emits.seq (putU32Le_emits r.index))))))
  refine hbody.congr fun k room hroom => ?_
  simp only [List.length_append, Header.encode_length, Header.sizeOf, Octets.bytes_length,
    leBytes32_length, MerklePath.paths_length, SignedResponseDraft08.encode_length,
    Certificate.encode_length, and_true, and_false, false_or, Gap] at hroom ⊢
  omega

theorem Response.Gap.lt {r : Response} {room : Nat} (h : r.Gap room) : room < r.encode.length := by
  have hlen := encodeWith_length r.srep.spells_values
  rw [show r.encode.length = _ from hlen]
  simp only [Gap] at h
  omega

theorem ResponseDraft08.Gap.lt {r : ResponseDraft08} {room : Nat} (h : r.Gap room) :
    room < r.encode.length := by
  rw [show r.encode.length = _ from r.encodeWith_length _]
  simp only [Gap] at h
  omega

/-- A message and its frame, for a gap that lies below the size. -/
theorem Emits.message_iff {q : Wire Unit} {bs : Bytes} {g : Nat → Nat → Prop} (h : Emits q bs g)
    {size : Nat} (hsize : bs.length = size) (hlt : ∀ k r, g k r → r < bs.length)
    (c : ParseCursor) :
    (AllOrError q size c ↔ ¬ g c.capacity c.remaining) ∧
      (AllOrError (toFrame size q) (frameSize size) c ↔
        ¬ (12 ≤ c.remaining ∧ g c.capacity (c.remaining - 12))) := by
  have hframe : (framed bs).length = frameSize size := by
    rw [framed_length, hsize, Nat.add_comm]
    rfl
  have hf := toFrame_emits h hsize
  subst hsize
  constructor
  · rw [h.allOrError_iff c]
    exact not_congr ⟨fun hg => hg.2, fun hg => ⟨hlt _ _ hg, hg⟩⟩
  · rw [← hframe, hf.allOrError_iff c, framed_length]
    refine not_congr ⟨fun hg => hg.2, fun hg => ⟨?_, hg⟩⟩
    have := hlt _ _ hg.2
    omega

/-- Requests are all-or-error in every buffer; responses are, except that they panic in
their gaps. -/
theorem encoders_all_or_error_iff (request : Request) (response : Response)
    (draft08 : ResponseDraft08) (c : ParseCursor) :
    (AllOrError request.toWire request.wireSize c ∧
      AllOrError (toFrame request.wireSize request.toWire) (frameSize request.wireSize) c) ∧
    ((AllOrError response.toWire response.wireSize c ↔
        ¬ (response.wireSize ≤ c.capacity ∧ response.Gap c.remaining)) ∧
      (AllOrError (toFrame response.wireSize response.toWire) (frameSize response.wireSize) c ↔
        ¬ (12 ≤ c.remaining ∧ response.wireSize ≤ c.capacity ∧
          response.Gap (c.remaining - 12)))) ∧
    ((AllOrError draft08.toWire draft08.wireSize c ↔ ¬ draft08.Gap c.remaining) ∧
      (AllOrError (toFrame draft08.wireSize draft08.toWire) (frameSize draft08.wireSize) c ↔
        ¬ (12 ≤ c.remaining ∧ draft08.Gap (c.remaining - 12)))) := by
  refine ⟨?_, ?_, ?_⟩
  · have h := request.toWire_emits.message_iff request.encode_length (fun _ _ hg => hg.elim) c
    exact ⟨h.1.mpr id, h.2.mpr fun hg => hg.2⟩
  · exact response.toWire_emits.message_iff response.encode_length (fun _ _ hg => hg.2.lt) c
  · exact draft08.toWire_emits.message_iff draft08.encode_length (fun _ _ hg => hg.lt) c

/-- One byte short of a frame, and the last field is written past the buffer: 339 of the
340 bytes of a draft-08 response, 411 of the 412 bytes of a framed draft-14 response. -/
theorem short_buffer_panics :
    ResponseDraft08.default.toWire (new (List.replicate 339 0)) = .panic ∧
    ¬ AllOrError ResponseDraft08.default.toWire ResponseDraft08.default.wireSize
      (new (List.replicate 339 0)) ∧
    ¬ AllOrError (toFrame Response.default.wireSize Response.default.toWire)
      (frameSize Response.default.wireSize) (new (List.replicate 411 0)) := by
  have hgap : ResponseDraft08.default.Gap 339 := Or.inr (Or.inr (by decide))
  have hgap' : Response.default.Gap 399 := Or.inr (Or.inr (by decide))
  have hfits : Response.default.wireSize ≤ 411 := by decide
  have hroom : ∀ n, (new (List.replicate n (0 : UInt8))).remaining = n := fun n =>
    List.length_replicate
  have hcap : ∀ n, (new (List.replicate n (0 : UInt8))).capacity = n := fun n =>
    List.length_replicate
  refine ⟨?_, ?_, ?_⟩
  · refine ResponseDraft08.default.toWire_emits.panics _ ?_ ?_
    · rw [hroom]
      exact hgap.lt
    · rw [hroom]
      exact hgap
  · have h := ResponseDraft08.default.toWire_emits.message_iff
      ResponseDraft08.default.encode_length (fun _ _ hg => hg.lt) (new (List.replicate 339 0))
    rw [h.1, hroom, not_not]
    exact hgap
  · have h := Response.default.toWire_emits.message_iff Response.default.encode_length
      (fun _ _ hg => hg.2.lt) (new (List.replicate 411 0))
    rw [h.2, hroom, hcap, not_not]
    exact ⟨by decide, hfits, hgap'⟩

end Roughenough.Protocol
