/-
# `Roughenough.Server.Freshness` — an accepted time was read after the request was sent

What the protocol is for.  A client knows the long-term public key; everything
else, the packet it is handed included, may come from anybody.  It accepts the
midpoint `m`.  Then one of three things is true:

    Forged      the packet carries a signature, in its CERT or its SIG, that
                verifies under a key of the server on a message no worker signed
    Broken      the hash is broken on what the client has hashed and what a
                worker had for a batch with the root of the packet
    otherwise   some worker was handed the request, and after that read `m` from
                its clock and signed it

Neither cryptographic assumption is made: they are the two exits, and each is about
the packet; no packet that a worker sends is forged (`sent_not_forged`).  In the
third case a request nobody had seen before it was sent dates the reading of the
clock between the sending of the request and the arrival of the answer.

The history is any interleaving of any number of workers of either version under
one identity.  What keeps the messages of all these keys apart is

    delePrefix, srepPrefix    a DELE is not a SREP, and tells its version
    NUM_TAGS                  a SREP of one version does not decode as the other's

The packet has to be one whose SREP is covered by its signature; that is not
implied by acceptance (`Client.Trust`).
-/
import Roughenough.Client.Trust
import Roughenough.Merkle.Proofs
import Roughenough.Server.Fleet
import Roughenough.Server.Selection

namespace Roughenough.Server

open Roughenough.Base Roughenough.Base.PaddedTree Roughenough.Protocol Roughenough.Merkle
open Roughenough.Client ParseCursor ResponseValidator

/-! ## Messages are told apart -/

/-- No DELE message is a SREP message. -/
theorem srepPrefix_ne_delePrefix (v w : ProtocolVersion) (x y : Bytes) :
    v.srepPrefix ++ x ≠ w.delePrefix ++ y := by
  intro h
  have hhead := congrArg (List.take 14) h
  rw [List.take_append_of_le_length (by cases v <;> decide +kernel),
    List.take_append_of_le_length (by cases w <;> decide +kernel)] at hhead
  revert hhead
  cases v <;> cases w <;> decide +kernel

theorem delePrefix_length (v : ProtocolVersion) :
    v.delePrefix.length = match v with | .rfcDraft08 => 36 | .rfcDraft14 => 34 := by
  cases v <;> decide +kernel

/-- A DELE message tells its version and its DELE. -/
theorem deleMessage_inj {v w : ProtocolVersion} {d d' : Delegation}
    (h : v.delePrefix ++ d.encode = w.delePrefix ++ d'.encode) :
    v = w ∧ d.publicKey = d'.publicKey := by
  have hlen := congrArg List.length h
  rw [List.length_append, List.length_append, d.encode_length, d'.encode_length,
    delePrefix_length, delePrefix_length] at hlen
  have hv : v = w := by
    cases v <;> cases w <;> first | rfl | (simp only at hlen; omega)
  subst hv
  have hbytes : deleBytes d = deleBytes d' := Octets.ext (List.append_cancel_left h)
  refine ⟨rfl, ?_⟩
  rw [← delePubk_eq d, hbytes, delePubk_eq]

/-- A SREP of one version is not a SREP of the other: it has another number of tags. -/
theorem fromWire14_encode08 (s : SignedResponseDraft08) (s' : SignedResponse) (c : ParseCursor) :
    SignedResponse.fromWire (new s.encode) ≠ .ok (s', c) := by
  intro h
  obtain ⟨vw, ws, -, -, hc⟩ := SignedResponse.fromWire_ok_iff.mp h
  have hrest : s.encode = s'.encodeWith vw ws ++ c.rest := hc.rest_eq
  have hhead := congrArg (List.take 4) hrest
  simp only [SignedResponseDraft08.encode, SignedResponse.encodeWith, Header.encode,
    List.append_assoc] at hhead
  rw [List.take_append_of_le_length (by rw [leBytes32_length]),
    List.take_append_of_le_length (by rw [leBytes32_length])] at hhead
  exact absurd hhead (by decide +kernel)

theorem fromWire08_encode14 (s : SignedResponse) (s' : SignedResponseDraft08) (c : ParseCursor) :
    SignedResponseDraft08.fromWire (new s.encode) ≠ .ok (s', c) := by
  intro h
  obtain ⟨-, hc⟩ := SignedResponseDraft08.fromWire_ok_iff.mp h
  have hrest : s.encode = s'.encode ++ c.rest := hc.rest_eq
  have hhead := congrArg (List.take 4) hrest
  simp only [SignedResponseDraft08.encode, SignedResponse.encode, SignedResponse.encodeWith,
    Header.encode, List.append_assoc] at hhead
  rw [List.take_append_of_le_length (by rw [leBytes32_length]),
    List.take_append_of_le_length (by rw [leBytes32_length])] at hhead
  exact absurd hhead (by decide +kernel)

/-- A SREP as a key builds it is read back from its bytes. -/
theorem fromWire_encode_built {s s' : SignedResponse} {c : ParseCursor} (hs : s.Built)
    (h : SignedResponse.fromWire (new s.encode) = .ok (s', c)) : s' = s := by
  have hrest : (new s.encode).rest = s.encode ++ [] := (List.append_nil _).symm
  obtain ⟨hc, htl⟩ := Consumes.of_rest hrest
  have hzero : ((new s.encode).skip s.encode.length).remaining = 0 := by
    rw [← rest_length, htl]
    rfl
  have hrun : SignedResponse.fromWire (new s.encode) = .ok (s, _) :=
    SignedResponse.fromWire_ok_iff.mpr ⟨_, _, s.spells_values,
      hs.accepts (by rw [hzero]; decide), hc⟩
  rw [hrun] at h
  cases h
  rfl

theorem fromWire_encode_built08 {s s' : SignedResponseDraft08} {c : ParseCursor} (hs : s.Built)
    (h : SignedResponseDraft08.fromWire (new s.encode) = .ok (s', c)) : s' = s := by
  have hrest : (new s.encode).rest = s.encode ++ [] := (List.append_nil _).symm
  obtain ⟨hc, htl⟩ := Consumes.of_rest hrest
  have hzero : ((new s.encode).skip s.encode.length).remaining = 0 := by
    rw [← rest_length, htl]
    rfl
  have hrun : SignedResponseDraft08.fromWire (new s.encode) = .ok (s, _) :=
    SignedResponseDraft08.fromWire_ok_iff.mpr ⟨hs.accepts (by rw [hzero]; decide), hc⟩
  rw [hrun] at h
  cases h
  rfl

/-! ## Where a signed message comes from -/

section Origin

variable {E : Ed25519} {H : Bytes → Hash} {debug : Bool} {configs : List Config}
  {history : List (Nat × Event)} {secrets : List Seed} {secret : Seed}

/-- Worker `i`, which speaks `version`, held `batch` when it was asked to answer and read `now`
from its clock; `before` is what had happened by then. -/
structure Batched (configs : List Config) (history : List (Nat × Event))
    (version : ProtocolVersion) (now : UInt64) (i : Nat) (before : List (Nat × Event))
    (batch : List Datagram) : Prop where
  worker : ∃ c, configs[i]? = some c ∧ c.protocolVersion = version
  asked : ∃ after, history = before ++ (i, .generate now) :: after
  batch_eq : batch = openBatch (eventsOf i before)
  nonempty : batch ≠ []

theorem KeySource.deleMessage_eq (source : KeySource) (version : ProtocolVersion)
    (draw : Draw) : ∃ (w : ProtocolVersion) (d : Delegation),
      source.deleMessage E version draw = w.delePrefix ++ d.encode ∧
        d.publicKey = E.publicKey draw.signer := by
  cases version with
  | rfcDraft08 => exact ⟨.rfcDraft08, _, rfl, rfl⟩
  | rfcDraft14 => exact ⟨source.identity.version, _, rfl, rfl⟩

/-- The SREP in the message of a key. -/
def OnlineKey.srepBytes (key : OnlineKey) (now : UInt64) (root : MerkleRoot) : Bytes :=
  match key with
  | .draft14 key => (key.srep now root).encode
  | .draft08 key => (key.srep now root).encode

theorem OnlineKey.srepMessage_eq (v : ProtocolVersion) (key : OnlineKey) (now : UInt64)
    (root : MerkleRoot) : key.srepMessage now root = v.srepPrefix ++ key.srepBytes now root := by
  cases v <;> cases key <;> rfl

/-- A DELE that was signed names a key that was drawn. -/
theorem Signs.of_dele {w : ProtocolVersion} {d : Delegation}
    (h : Signs E H configs history secrets ⟨secret, w.delePrefix ++ d.encode⟩) :
    ∃ s ∈ secrets, d.publicKey = E.publicKey s := by
  generalize hm : (⟨secret, w.delePrefix ++ d.encode⟩ : Signing) = m at h
  cases h with
  | @dele c draw hc hdraw =>
      obtain ⟨-, hmessage⟩ := Signing.mk.inj hm
      obtain ⟨w', d', hspell, hkey⟩ := c.keySource.deleMessage_eq (E := E) c.protocolVersion draw
      rw [hspell] at hmessage
      exact ⟨draw.signer, hdraw, (deleMessage_inj hmessage).2.trans hkey⟩
  | srep hc hsplit hne hkey =>
      obtain ⟨-, hmessage⟩ := Signing.mk.inj hm
      rw [OnlineKey.srepMessage_eq .rfcDraft14] at hmessage
      exact absurd hmessage.symm (srepPrefix_ne_delePrefix _ _ _ _)

/-- A SREP that was signed stands for the batch of a worker. -/
theorem Signs.of_srep {v : ProtocolVersion} {x : Bytes}
    (h : Signs E H configs history secrets ⟨secret, v.srepPrefix ++ x⟩) :
    ∃ version now i before batch key identity,
      Batched configs history version now i before batch ∧
      OnlineKey.Issued E identity version key ∧
      x = key.srepBytes now ((MerkleTree.scheme H).root (batch.map (Datagram.leaf version))) := by
  generalize hm : (⟨secret, v.srepPrefix ++ x⟩ : Signing) = m at h
  cases h with
  | @dele c draw hc hdraw =>
      obtain ⟨-, hmessage⟩ := Signing.mk.inj hm
      obtain ⟨w, d, hspell, -⟩ := c.keySource.deleMessage_eq (E := E) c.protocolVersion draw
      rw [hspell] at hmessage
      exact absurd hmessage (srepPrefix_ne_delePrefix _ _ _ _)
  | @srep i c before after now key hc hsplit hne hkey =>
      obtain ⟨-, hmessage⟩ := Signing.mk.inj hm
      rw [OnlineKey.srepMessage_eq v] at hmessage
      exact ⟨c.protocolVersion, now, i, before, _, key, _,
        ⟨⟨c, hc, rfl⟩, ⟨after, hsplit⟩, rfl, hne⟩, hkey, List.append_cancel_left hmessage⟩

/-- One that is read as a draft-14 SREP is the work of a draft-14 worker. -/
theorem Signs.of_srep14 {v : ProtocolVersion} {x : Bytes} {srep : SignedResponse}
    {c : ParseCursor} (h : Signs E H configs history secrets ⟨secret, v.srepPrefix ++ x⟩)
    (hx : SignedResponse.fromWire (new x) = .ok (srep, c)) :
    ∃ i before batch, Batched configs history .rfcDraft14 srep.midpoint i before batch ∧
      srep.merkleRoot = (MerkleTree.scheme H).root (batch.map (Datagram.leaf .rfcDraft14)) ∧
      srep.radius = SignedResponse.defaultRadiSeconds := by
  obtain ⟨version, now, i, before, batch, key, identity, hbatch, hkey, rfl⟩ := h.of_srep
  cases key with
  | draft08 key => exact absurd hx (fromWire14_encode08 _ _ _)
  | draft14 key =>
      cases version with
      | rfcDraft08 => exact hkey.elim
      | rfcDraft14 =>
          have hissued : key.Issued E identity := hkey
          have hbuilt : key.templateSrep.Built := by
            rw [hissued.template_eq]
            exact OnlineKeyDraft14.template_built _
          have hsrep : (key.srep now ((MerkleTree.scheme H).root
              (batch.map (Datagram.leaf .rfcDraft14)))).Built :=
            ⟨hbuilt.offset_eq, hbuilt.nonempty, hbuilt.ascending⟩
          cases fromWire_encode_built hsrep hx
          refine ⟨i, before, batch, hbatch, rfl, ?_⟩
          show key.templateSrep.radius = _
          rw [hissued.template_eq]
          rfl

/-- And the same for draft-08. -/
theorem Signs.of_srep08 {v : ProtocolVersion} {x : Bytes} {srep : SignedResponseDraft08}
    {c : ParseCursor} (h : Signs E H configs history secrets ⟨secret, v.srepPrefix ++ x⟩)
    (hx : SignedResponseDraft08.fromWire (new x) = .ok (srep, c)) :
    ∃ i before batch, Batched configs history .rfcDraft08 srep.midpoint i before batch ∧
      srep.merkleRoot = (MerkleTree.scheme H).root (batch.map (Datagram.leaf .rfcDraft08)) ∧
      srep.radius = SignedResponseDraft08.defaultRadiSeconds := by
  obtain ⟨version, now, i, before, batch, key, identity, hbatch, hkey, rfl⟩ := h.of_srep
  cases key with
  | draft14 key => exact absurd hx (fromWire08_encode14 _ _ _)
  | draft08 key =>
      cases version with
      | rfcDraft14 => exact hkey.elim
      | rfcDraft08 =>
          have hissued : key.Issued E identity := hkey
          have hsrep : (key.srep now ((MerkleTree.scheme H).root
              (batch.map (Datagram.leaf .rfcDraft08)))).Built := by
            show key.templateSrep.header.offsets.1 = _
            rw [hissued.template_eq]
            exact OnlineKeyDraft08.template_built
          cases fromWire_encode_built08 hsrep hx
          refine ⟨i, before, batch, hbatch, rfl, ?_⟩
          show key.templateSrep.radius = _
          rw [hissued.template_eq]
          rfl

/-- A signature that verifies under `K`, on a message that was not signed with a secret of `K`. -/
structure Forged (E : Ed25519) (f : Fleet) (K : PublicKey) (message : Bytes) (sig : Signature) :
    Prop where
  verifies : E.verify K message sig = true
  unsigned : ∀ secret, E.publicKey secret = K → (⟨secret, message⟩ : Signing) ∉ f.log

/-- A signature that verifies is the work of a worker, or it is forged. -/
theorem signed_or_forged {f : Fleet} {K : PublicKey} {message : Bytes} {sig : Signature}
    (h : E.verify K message sig = true) : Forged E f K message sig ∨
      ∃ secret, E.publicKey secret = K ∧ (⟨secret, message⟩ : Signing) ∈ f.log := by
  by_cases hsigned : ∃ secret, E.publicKey secret = K ∧ (⟨secret, message⟩ : Signing) ∈ f.log
  · exact .inr hsigned
  · exact .inl ⟨h, fun secret hsecret hlog => hsigned ⟨secret, hsecret, hlog⟩⟩

/-- A batch whose root a proof leads to holds the leaf, or the hash is broken. -/
theorem Batched.mem_of_proof {version : ProtocolVersion} {now : UInt64} {i : Nat}
    {before : List (Nat × Event)} {batch : List Datagram} {leaf : Bytes} {index : Nat}
    {path : MerklePath} (hbatch : Batched configs history version now i before batch)
    (hproof : MerkleTree.rootFromPaths H index leaf path =
      (MerkleTree.scheme H).root (batch.map (Datagram.leaf version))) :
    MerkleTree.Broken H (MerkleTree.hashedInputs H MerkleTree.new
        (batch.map (Datagram.leaf version)) index leaf path) ∨
      ∃ d : Datagram, d.leaf version = leaf ∧ (i, .collect d.bytes d.srcAddr) ∈ before := by
  have hpos : 1 ≤ (batch.map (Datagram.leaf version)).length := by
    rw [List.length_map]
    exact List.length_pos_of_ne_nil hbatch.nonempty
  rcases MerkleTree.leaf_of_root (t := MerkleTree.new) rfl hpos hproof with hbroken | ⟨-, hleaf⟩
  · exact .inl hbroken
  · obtain ⟨d, hd, rfl⟩ := List.mem_map.mp (List.mem_of_getElem? hleaf)
    rw [hbatch.batch_eq] at hd
    obtain ⟨pre, post, hevents, -⟩ := mem_openBatch_iff.mp hd
    refine .inr ⟨d, rfl, mem_eventsOf.mp ?_⟩
    rw [hevents]
    exact List.mem_append_right _ List.mem_cons_self

end Origin

/-! ## Freshness -/

/-- What had not happened when `later` began, and precedes `g`, happened in `later`. -/
theorem mem_before_of_not_mem {α : Type} {sent later before after : List α} {a g : α}
    (h : sent ++ later = before ++ g :: after) (ha : a ∈ before) (hnot : a ∉ sent) :
    ∃ mid, later = mid ++ g :: after ∧ a ∈ mid := by
  rcases List.append_eq_append_iff.mp h with ⟨mid, rfl, hlater⟩ | ⟨mid, rfl, -⟩
  · rcases List.mem_append.mp ha with hin | hin
    · exact absurd hin hnot
    · exact ⟨mid, hlater, hin⟩
  · exact absurd (List.mem_append_left _ ha) hnot

/-- What the client looks for in the tree: the whole request, or in draft-08 its nonce. -/
def requestLeaf (version : ProtocolVersion) (request : Bytes) : Bytes :=
  match version with
  | .rfcDraft08 => slice request 40 72
  | .rfcDraft14 => request

/-- No worker has been handed it. -/
def Unseen (version : ProtocolVersion) (request : Bytes) (sent : List (Nat × Event)) : Prop :=
  ∀ i (d : Datagram), (i, .collect d.bytes d.srcAddr) ∈ sent →
    d.leaf version ≠ requestLeaf version request

/-- Some worker of that version was handed it, and read `m` from its clock after that. -/
def ReadAfter (configs : List Config) (version : ProtocolVersion) (request : Bytes)
    (later : List (Nat × Event)) (m : UInt64) : Prop :=
  ∃ i c before after, ∃ d : Datagram, configs[i]? = some c ∧ c.protocolVersion = version ∧
    later = before ++ (i, .generate m) :: after ∧
    (i, .collect d.bytes d.srcAddr) ∈ before ∧ d.leaf version = requestLeaf version request

/-- What a packet puts before the client: a delegation and a SREP, each with its signature, and a
place in a tree. -/
structure Presented where
  deleMessage : Bytes
  deleSignature : Signature
  onlineKey : PublicKey
  srepMessage : Bytes
  srepSignature : Signature
  root : MerkleRoot
  index : Nat
  path : MerklePath

def presented14 (r : Response) (b : Bytes) : Presented where
  deleMessage := r.srep.version.delePrefix ++ r.cert.delegation.encode
  deleSignature := r.cert.signature
  onlineKey := r.cert.delegation.publicKey
  srepMessage := r.srep.version.srepPrefix ++ srepSlice14 r b
  srepSignature := r.signature
  root := r.srep.merkleRoot
  index := r.index.toNat
  path := r.path

def presented08 (r : ResponseDraft08) (b : Bytes) : Presented where
  deleMessage := ProtocolVersion.rfcDraft08.delePrefix ++ r.cert.delegation.encode
  deleSignature := r.cert.signature
  onlineKey := r.cert.delegation.publicKey
  srepMessage := ProtocolVersion.rfcDraft08.srepPrefix ++ srepSlice08 r b
  srepSignature := r.signature
  root := r.srep.merkleRoot
  index := r.index.toNat
  path := r.path

/-- Packet `b`, read in a version, presents `p`. -/
def Presents (b : Bytes) (p : Presented) : ProtocolVersion → Prop
  | .rfcDraft08 => ∃ r, ResponseDraft08.fromFrame b = .ok r ∧ p = presented08 r b
  | .rfcDraft14 => ∃ r, Response.fromFrame b = .ok r ∧ p = presented14 r b

/-! ## No packet of a worker is forged -/

section Honest

variable {E : Ed25519} {H : Bytes → Hash} {debug : Bool} {configs : List Config}
  {history : List (Nat × Event)}

/-- What the answer of a key presents: the certificate of the key, and the SREP it signs. -/
theorem OnlineKey.Issued.presents {key : OnlineKey} {source : KeySource}
    {version w : ProtocolVersion} (hkey : key.Issued E source.identity version) {now : UInt64}
    {root : MerkleRoot} {proof : List Hash} {pending : PendingRequest} {index : UInt32}
    {p : Presented} (hp : Presents (framed (key.encode E now root proof pending index)) p w) :
    p.deleMessage = source.certPrefix version ++ key.cert.delegation.encode ∧
      p.onlineKey = E.publicKey key.signer ∧ p.srepMessage = key.srepMessage now root := by
  have hdecodes := hkey.decodes now root proof pending index
  cases version with
  | rfcDraft08 =>
      cases key with
      | draft14 key => exact hkey.elim
      | draft08 key =>
          cases w with
          | rfcDraft14 =>
              obtain ⟨r, hr, -⟩ := hp
              have hv : Decodes _ .rfcDraft14 := ⟨r, hr⟩
              cases hv.unique hdecodes
          | rfcDraft08 =>
              have hissued : key.Issued E source.identity := hkey
              have hbuilt := hissued.answer_built now root proof index
              obtain ⟨r, hr, rfl⟩ := hp
              cases hbuilt.fromFrame.symm.trans hr
              refine ⟨rfl, hissued.certifies.pubk, ?_⟩
              exact congrArg (ProtocolVersion.rfcDraft08.srepPrefix ++ ·)
                (srepSlice08_built hbuilt).1
  | rfcDraft14 =>
      cases key with
      | draft08 key => exact hkey.elim
      | draft14 key =>
          cases w with
          | rfcDraft08 =>
              obtain ⟨r, hr, -⟩ := hp
              have hv : Decodes _ .rfcDraft08 := ⟨r, hr⟩
              cases hv.unique hdecodes
          | rfcDraft14 =>
              have hissued : key.Issued E source.identity := hkey
              have hbuilt := hissued.answer_built now root proof pending.request.nonc index
              obtain ⟨r, hr, rfl⟩ := hp
              cases hbuilt.fromFrame.symm.trans hr
              have hversion : key.templateSrep.version = source.identity.version := by
                rw [hissued.template_eq]
                rfl
              refine ⟨?_, hissued.certifies.pubk, ?_⟩
              · show key.templateSrep.version.delePrefix ++ _ = _
                rw [hversion]
                rfl
              · rw [OnlineKey.srepMessage_eq key.templateSrep.version]
                exact congrArg (key.templateSrep.version.srepPrefix ++ ·)
                  (srepSlice14_built hbuilt).1

/-- Whatever a worker sends, in any history and however that goes on: neither of the two signatures
in the packet is forged. -/
theorem sent_not_forged {i : Nat} {c : Config} {h h' : RequestHandler} {now : UInt64}
    {outs : List (SocketAddr × Bytes)} {addr : SocketAddr} {b : Bytes} {p : Presented}
    {w : ProtocolVersion} (later : List (Nat × Event)) (hc : configs[i]? = some c)
    (hlive : (Fleet.run E H debug configs history).workers[i]? = some (.ok h))
    (hgen : h.generateResponses E H debug now = .ok (outs, h')) (hsent : (addr, b) ∈ outs)
    (hp : Presents b p w) :
    ¬ Forged E (Fleet.run E H debug configs (history ++ (i, .generate now) :: later))
        (c.keySource.publicKey E) p.deleMessage p.deleSignature ∧
      ¬ Forged E (Fleet.run E H debug configs (history ++ (i, .generate now) :: later))
        p.onlineKey p.srepMessage p.srepSignature := by
  obtain ⟨key, root, proof, pending, index, hkey, rfl, hlogged⟩ :=
    Fleet.sent_logged later hc hlive hgen hsent
  obtain ⟨hdele, honline, hsrep⟩ := hkey.presents hp
  constructor
  · intro hforged
    refine hforged.unsigned c.keySource.identity.seed rfl ?_
    rw [hdele]
    exact hlogged _ List.mem_cons_self
  · intro hforged
    refine hforged.unsigned key.signer honline.symm ?_
    rw [hsrep]
    exact hlogged _ (List.mem_cons_of_mem _ List.mem_cons_self)

end Honest

/-- The exits, for what a packet presents in answer to a request whose leaf is `leaf`: the
delegation is forged, or the SREP under the key of a worker, or the hash is broken. -/
inductive Escapes (E : Ed25519) (H : Bytes → Hash) (debug : Bool) (configs : List Config)
    (history : List (Nat × Event)) (seed : Seed) (version : ProtocolVersion) (leaf : Bytes)
    (m : UInt64) (p : Presented) : Prop
  | dele : Forged E (Fleet.run E H debug configs history) (E.publicKey seed) p.deleMessage
        p.deleSignature →
      Escapes E H debug configs history seed version leaf m p
  | srep {secret : Seed} : secret ∈ (Fleet.run E H debug configs history).secrets →
      p.onlineKey = E.publicKey secret →
      Forged E (Fleet.run E H debug configs history) p.onlineKey p.srepMessage p.srepSignature →
      Escapes E H debug configs history seed version leaf m p
  | broken {i : Nat} {before : List (Nat × Event)} {batch : List Datagram} :
      Batched configs history version m i before batch →
      p.root = (MerkleTree.scheme H).root (batch.map (Datagram.leaf version)) →
      MerkleTree.Broken H (MerkleTree.hashedInputs H MerkleTree.new
        (batch.map (Datagram.leaf version)) p.index leaf p.path) →
      Escapes E H debug configs history seed version leaf m p

section Fresh

variable {E : Ed25519} {H : Bytes → Hash} {configs : List Config} {seed : Seed}
  {sent later : List (Nat × Event)} {request b : Bytes}

/-- What hangs on the long-term key by a certificate was signed, or something is forged. -/
theorem Presented.signs {p : Presented} {cert : Certificate} {v w : ProtocolVersion}
    {x : Bytes} (H : Bytes → Hash) (debug : Bool)
    (configs : List Config) (history : List (Nat × Event)) (version : ProtocolVersion)
    (leaf : Bytes) (m : UInt64) (hdele : p.deleMessage = w.delePrefix ++ cert.delegation.encode)
    (hkey : p.onlineKey = cert.delegation.publicKey) (hsrep : p.srepMessage = v.srepPrefix ++ x)
    (hcert : E.verify (E.publicKey seed) p.deleMessage p.deleSignature = true)
    (hsig : E.verify p.onlineKey p.srepMessage p.srepSignature = true) :
    Escapes E H debug configs history seed version leaf m p ∨ ∃ secret,
      Signs E H configs history (Fleet.run E H debug configs history).secrets
        ⟨secret, v.srepPrefix ++ x⟩ := by
  rcases signed_or_forged hcert with hforged | ⟨holder, -, hlog⟩
  · exact .inl (.dele hforged)
  rw [hdele] at hlog
  obtain ⟨secret, hsecret, hdrawn⟩ := (Fleet.log_signs hlog).of_dele
  rcases signed_or_forged hsig with hforged | ⟨signer, -, hlog⟩
  · exact .inl (.srep hsecret (hkey.trans hdrawn) hforged)
  · exact .inr ⟨signer, hsrep ▸ Fleet.log_signs hlog⟩

theorem Batched.readAfter {version : ProtocolVersion} {m : UInt64} {i : Nat}
    {before : List (Nat × Event)} {batch : List Datagram} {p : Presented}
    (hbatch : Batched configs (sent ++ later) version m i before batch) (E : Ed25519)
    (seed : Seed) (debug : Bool)
    (hproof : MerkleTree.rootFromPaths H p.index (requestLeaf version request) p.path = p.root)
    (hroot : p.root = (MerkleTree.scheme H).root (batch.map (Datagram.leaf version)))
    (hunseen : Unseen version request sent) :
    Escapes E H debug configs (sent ++ later) seed version (requestLeaf version request) m p ∨
      ReadAfter configs version request later m := by
  rcases hbatch.mem_of_proof (hproof.trans hroot) with hbroken | ⟨d, hleaf, hd⟩
  · exact .inl (.broken hbatch hroot hbroken)
  obtain ⟨c, hc, hversion⟩ := hbatch.worker
  obtain ⟨after, hsplit⟩ := hbatch.asked
  obtain ⟨mid, hlater, hin⟩ :=
    mem_before_of_not_mem hsplit hd (fun hsent => hunseen i d hsent hleaf)
  exact .inr ⟨i, c, mid, after, d, hc, hversion, hlater, hin, hleaf⟩

theorem fresh_of_valid14 {r : Response} (debug : Bool) (hr : Response.fromFrame b = .ok r)
    (hvalid : Valid14 E.verify H (newWithKey (E.publicKey seed)) request r b)
    (hcovered : SrepCovered14 b) (hunseen : Unseen .rfcDraft14 request sent) :
    Escapes E H debug configs (sent ++ later) seed .rfcDraft14 request r.srep.midpoint
      (presented14 r b) ∨
    (ReadAfter configs .rfcDraft14 request later r.srep.midpoint ∧ r.srep.radius = 5) := by
  obtain ⟨c, hsrep⟩ := (srep_covered14_iff hr hvalid.inside).mpr hcovered
  rcases (presented14 r b).signs H debug configs (sent ++ later) .rfcDraft14 request
    r.srep.midpoint rfl rfl rfl (hvalid.cert.dele _ rfl) hvalid.sig with hescape | ⟨secret, hs⟩
  · exact .inl hescape
  obtain ⟨i, before, batch, hbatch, hroot, hradius⟩ := hs.of_srep14 hsrep
  rcases hbatch.readAfter (p := presented14 r b) E seed debug hvalid.proof hroot hunseen with
    hescape | hread
  · exact .inl hescape
  · exact .inr ⟨hread, hradius⟩

theorem fresh_of_valid08 {r : ResponseDraft08} (debug : Bool)
    (hr : ResponseDraft08.fromFrame b = .ok r)
    (hvalid : Valid08 E.verify H (newWithKey (E.publicKey seed)) request r b)
    (hcovered : SrepCovered08 b) (hunseen : Unseen .rfcDraft08 request sent) :
    Escapes E H debug configs (sent ++ later) seed .rfcDraft08 (slice request 40 72)
      r.srep.midpoint (presented08 r b) ∨
    (ReadAfter configs .rfcDraft08 request later r.srep.midpoint ∧ r.srep.radius = 5) := by
  obtain ⟨c, hsrep⟩ := (srep_covered08_iff hr hvalid.inside).mpr hcovered
  rcases (presented08 r b).signs H debug configs (sent ++ later) .rfcDraft08
    (slice request 40 72) r.srep.midpoint rfl rfl rfl (hvalid.cert.dele _ rfl) hvalid.sig with
    hescape | ⟨secret, hs⟩
  · exact .inl hescape
  obtain ⟨i, before, batch, hbatch, hroot, hradius⟩ := hs.of_srep08 hsrep
  rcases hbatch.readAfter (p := presented08 r b) E seed debug hvalid.proof hroot hunseen with
    hescape | hread
  · exact .inl hescape
  · exact .inr ⟨hread, hradius⟩

end Fresh

/-- Whatever packet is accepted, with `m` as its time: if its SREP is covered and the request had
not been seen when the events `sent` had happened, then `m` is what some worker read from its
clock after that, having been handed the request, and the radius is the one that all workers sign
— or one of the two signatures of the packet is forged, or the hash is broken on its place in the
tree. -/
theorem accepted_time_is_fresh (E : Ed25519) (H : Bytes → Hash) (debug : Bool)
    (configs : List Config) (seed : Seed) (sent later : List (Nat × Event)) (request b : Bytes)
    (m : UInt64) :
    (∀ r, Response.fromFrame b = .ok r →
      validateDraft14 E.verify H (newWithKey (E.publicKey seed)) request r b = .ok m →
      SrepCovered14 b → Unseen .rfcDraft14 request sent →
        Escapes E H debug configs (sent ++ later) seed .rfcDraft14 request m (presented14 r b) ∨
        (ReadAfter configs .rfcDraft14 request later m ∧ r.srep.radius = 5)) ∧
    (∀ r, ResponseDraft08.fromFrame b = .ok r →
      validateDraft08 E.verify H (newWithKey (E.publicKey seed)) request r b = .ok m →
      SrepCovered08 b → Unseen .rfcDraft08 request sent →
        Escapes E H debug configs (sent ++ later) seed .rfcDraft08 (slice request 40 72) m
          (presented08 r b) ∨
        (ReadAfter configs .rfcDraft08 request later m ∧ r.srep.radius = 5)) := by
  refine ⟨?_, ?_⟩
  · intro r hr hv hcovered hunseen
    obtain ⟨hvalid, rfl⟩ := validateDraft14_ok_iff.mp hv
    exact fresh_of_valid14 debug hr hvalid hcovered hunseen
  · intro r hr hv hcovered hunseen
    obtain ⟨hvalid, rfl⟩ := validateDraft08_ok_iff.mp hv
    exact fresh_of_valid08 debug hr hvalid hcovered hunseen

/-! ## One request to a server -/

namespace Witness

open Sample

def dele : Delegation := Delegation.new (Octets.fill 32 0x22) 1000 3600

/-- The certificate of the online key. -/
def cert : Certificate :=
  Certificate.new (ed25519.sign (Octets.fill 32 0x11)
    (ProtocolVersion.rfcDraft14.delePrefix ++ dele.encode)) dele

/-- The SREP for a batch of the one request. -/
def srep : SignedResponse :=
  ((OnlineKeyDraft14.template .rfcDraft14).setRoot
    (MerkleTree.hashLeaf digest datagram.bytes)).setMidp 2000

def answer : Response :=
  (((Response.default.setSig (ed25519.sign (Octets.fill 32 0x22)
    (ProtocolVersion.rfcDraft14.srepPrefix ++ srep.encode))).setNonc Sample.nonce).setSrep
      srep).setCert cert

def reply : Bytes := framed answer.encode

/-- The frames that a handler sends. -/
def repliesOf (x : Call (List (SocketAddr × Bytes) × RequestHandler)) : List Bytes :=
  match x with
  | .ok (outs, _) => outs.map Prod.snd
  | _ => []

theorem mem_repliesOf {x : Call (List (SocketAddr × Bytes) × RequestHandler)} {b : Bytes}
    (hb : b ∈ repliesOf x) : ∃ outs h addr, x = .ok (outs, h) ∧ (addr, b) ∈ outs := by
  match x, hb with
  | .ok (outs, h), hb =>
      obtain ⟨⟨addr, _⟩, hout, rfl⟩ := List.mem_map.mp hb
      exact ⟨outs, h, addr, rfl, hout⟩

def configs : List Config := [config .rfcDraft14]

def events : List (Nat × Event) :=
  [(0, .collect datagram.bytes address), (0, .generate 2000)]

/-- The worker answers the request with that packet. -/
theorem reply_sent : ∃ h h' outs addr,
    (Fleet.run ed25519 digest true configs [(0, .collect datagram.bytes address)]).workers[0]? =
        some (.ok h) ∧
      h.generateResponses ed25519 digest true 2000 = .ok (outs, h') ∧ (addr, reply) ∈ outs := by
  have hreplies : repliesOf (serve ed25519 digest true (config .rfcDraft14)
      [.collect datagram.bytes address] >>= fun h =>
        h.generateResponses ed25519 digest true 2000) = [reply] := by
    decide +kernel
  obtain ⟨outs, h', addr, hrun, hsent⟩ :=
    mem_repliesOf (hreplies ▸ List.mem_singleton.mpr rfl : reply ∈ repliesOf _)
  obtain ⟨h, hserve, hgen⟩ := Outcome.bind_ok_iff.mp hrun
  refine ⟨h, h', outs, addr, ?_, hgen, hsent⟩
  rw [Fleet.workers_run]
  exact congrArg some hserve

/-- The batch of that run is the request. -/
theorem leaves_eq {now : UInt64} {i : Nat} {before : List (Nat × Event)} {batch : List Datagram}
    (h : Batched configs events .rfcDraft14 now i before batch) :
    batch.map (Datagram.leaf .rfcDraft14) = [datagram.bytes] := by
  obtain ⟨after, hsplit⟩ := h.asked
  rw [h.batch_eq]
  match before, hsplit with
  | [], hsplit => cases hsplit
  | [a], hsplit =>
      cases hsplit
      decide +kernel
  | a :: a' :: l, hsplit =>
      have hlen := congrArg List.length hsplit
      simp only [events, List.length_cons, List.length_append, List.length_nil] at hlen
      omega

/-- A hash is not broken on one input that it does not send to the padding value. -/
theorem not_broken_of_one {H : Bytes → Hash} {x : Bytes} (h : H x ≠ Octets.zero 32) :
    ¬ MerkleTree.Broken H [x, x] := by
  have hmem : ∀ u ∈ [x, x], u = x := by
    intro u hu
    simpa using hu
  rintro (⟨u, hu, v, hv, hne, -⟩ | ⟨u, hu, hzero⟩)
  · exact hne ((hmem u hu).trans (hmem v hv).symm)
  · rw [hmem u hu] at hzero
    exact h hzero

theorem inputs_eq : MerkleTree.hashedInputs digest MerkleTree.new [datagram.bytes]
    answer.index.toNat datagram.bytes answer.path =
      [leafInput datagram.bytes, leafInput datagram.bytes] := by
  decide +kernel

/-- The answer takes none of the exits. -/
theorem not_escapes : ¬ Escapes ed25519 digest true configs events (Octets.fill 32 0x11)
    .rfcDraft14 datagram.bytes 2000 (presented14 answer reply) := by
  obtain ⟨h, h', outs, addr, hlive, hgen, hsent⟩ := reply_sent
  have hpresents : Presents reply (presented14 answer reply) .rfcDraft14 :=
    ⟨answer, by decide +kernel, rfl⟩
  obtain ⟨hdele, hsrep⟩ := sent_not_forged [] rfl hlive hgen hsent hpresents
  intro hescape
  cases hescape with
  | dele hforged => exact hdele hforged
  | srep _ _ hforged => exact hsrep hforged
  | broken hbatch _ hbroken =>
      rw [leaves_eq hbatch] at hbroken
      have hbroken : MerkleTree.Broken digest (MerkleTree.hashedInputs digest MerkleTree.new
        [datagram.bytes] answer.index.toNat datagram.bytes answer.path) := hbroken
      rw [inputs_eq] at hbroken
      exact not_broken_of_one (by decide +kernel) hbroken

end Witness

open Sample Witness in
/-- The packet that the worker sends: no exit is open, and the time is the one that was read. -/
theorem accepted_time_is_fresh_honest :
    ReadAfter configs .rfcDraft14 datagram.bytes events 2000 ∧ answer.srep.radius = 5 := by
  have hcovered : SrepCovered14 reply :=
    ⟨⟨by decide +kernel, by decide +kernel⟩, .inl (by decide +kernel)⟩
  rcases (accepted_time_is_fresh ed25519 digest true configs (Octets.fill 32 0x11) [] events
    datagram.bytes reply 2000).1 answer (by decide +kernel) (by decide +kernel) hcovered
    (fun _ _ hsent => absurd hsent List.not_mem_nil) with hescape | hread
  · exact absurd hescape not_escapes
  · exact hread

end Roughenough.Server
