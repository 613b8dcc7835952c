/-
# `Roughenough.Server.Fleet` — all workers of a server, and what they have signed

`roughenough-server/src/main.rs` starts one worker per thread.  The workers have
the long-term identity in common and nothing else: each has its own online key,
its own tree and its own buffers, and a worker that panics takes only its own
thread with it.

A history is a list of `(i, e)`: the event `e` at worker `i`, in the order in
which things happened.  Beside the workers a `Fleet` keeps what cryptography is
about, the secrets that were drawn and the messages that were signed with them.

    workers_run     a worker is where its own events lead, whatever the others do
    log_signs       every signature is on the DELE of a key that was drawn, or on
                    the SREP of one batch, made at one reading of the clock
    sent_logged     the messages behind the two signatures of every packet that a
                    worker sends are on the log
-/
import Roughenough.Server.Requests

namespace Roughenough.Server

open Roughenough.Base Roughenough.Base.PaddedTree Roughenough.Protocol Roughenough.Merkle

/-- A message, and the secret it was signed with. -/
structure Signing where
  secret : Seed
  message : Bytes
  deriving DecidableEq

def OnlineKey.signer : OnlineKey → Seed
  | draft14 key => key.signer
  | draft08 key => key.signer

/-- What `make_srep` signs. -/
def OnlineKey.srepMessage (key : OnlineKey) (now : UInt64) (root : MerkleRoot) : Bytes :=
  match key with
  | .draft14 key => ProtocolVersion.rfcDraft14.srepPrefix ++ (key.srep now root).encode
  | .draft08 key => ProtocolVersion.rfcDraft08.srepPrefix ++ (key.srep now root).encode

/-- The prefix under which the DELE of an online key is signed: the identity's, in draft-14. -/
def KeySource.certPrefix (source : KeySource) : ProtocolVersion → Bytes
  | .rfcDraft08 => ProtocolVersion.rfcDraft08.delePrefix
  | .rfcDraft14 => source.identity.version.delePrefix

/-- What the identity signs for an online key. -/
def KeySource.deleMessage (E : Ed25519) (source : KeySource) (version : ProtocolVersion)
    (draw : Draw) : Bytes :=
  source.certPrefix version ++
    (Delegation.new (E.publicKey draw.signer) draw.now source.validityLength.secs.toNat).encode

section Fleet

variable (E : Ed25519) (H : Bytes → Hash) (debug : Bool)

/-- The signatures made in one call of the handler. -/
def signed (h : RequestHandler) : Event → List Signing
  | .generate now =>
      if h.responder.requests = [] then []
      else
        match (h.responder.merkleTree.computeRoot H : Call (Hash × MerkleTree)) with
        | .ok (root, _) =>
            [⟨h.responder.onlineKey.signer, h.responder.onlineKey.srepMessage now root⟩]
        | _ => []
  | .replace draw =>
      [⟨h.responder.keySource.identity.seed,
        h.responder.keySource.deleMessage E h.responder.protocolVersion draw⟩]
  | .collect _ _ => []
  | .reset => []

/-- The secrets drawn in one call of the handler. -/
def Event.drawn : Event → List Seed
  | .replace draw => [draw.signer]
  | _ => []

/-- The workers, one that panicked being `panic` from then on, with the secrets of the online keys
and the signatures made so far. -/
structure Fleet where
  workers : List (Call RequestHandler)
  secrets : List Seed
  log : List Signing

/-- The start of every thread. -/
def Fleet.launch (configs : List Config) : Fleet where
  workers := configs.map fun c => serve E H debug c []
  secrets := configs.map fun c => c.draw.signer
  log := configs.map fun c =>
    ⟨c.keySource.identity.seed, c.keySource.deleMessage E c.protocolVersion c.draw⟩

/-- An event at worker `i`; at a thread that has ended nothing happens. -/
def Fleet.step (f : Fleet) (a : Nat × Event) : Fleet :=
  match f.workers[a.1]? with
  | some (.ok h) =>
      { workers := f.workers.set a.1 (Server.step E H debug h a.2)
        secrets := f.secrets ++ a.2.drawn
        log := f.log ++ signed E H h a.2 }
  | _ => f

def Fleet.run (configs : List Config) (history : List (Nat × Event)) : Fleet :=
  history.foldl (Fleet.step E H debug) (Fleet.launch E H debug configs)

/-- The events of worker `i`. -/
def eventsOf (i : Nat) (history : List (Nat × Event)) : List Event :=
  (history.filter fun a => a.1 = i).map Prod.snd

end Fleet

variable {E : Ed25519} {H : Bytes → Hash} {debug : Bool} {configs : List Config}
  {history : List (Nat × Event)}

theorem Fleet.run_concat (configs : List Config) (history : List (Nat × Event))
    (a : Nat × Event) : Fleet.run E H debug configs (history ++ [a]) =
      (Fleet.run E H debug configs history).step E H debug a := by
  unfold Fleet.run
  rw [List.foldl_append]
  rfl

theorem eventsOf_append (i : Nat) (history later : List (Nat × Event)) :
    eventsOf i (history ++ later) = eventsOf i history ++ eventsOf i later := by
  unfold eventsOf
  rw [List.filter_append, List.map_append]

theorem eventsOf_self (i : Nat) (e : Event) : eventsOf i [(i, e)] = [e] := by
  unfold eventsOf
  rw [List.filter_cons_of_pos (by simp)]
  rfl

theorem eventsOf_other {i j : Nat} (h : j ≠ i) (e : Event) : eventsOf i [(j, e)] = [] := by
  unfold eventsOf
  rw [List.filter_cons_of_neg (by simpa using h)]
  rfl

theorem mem_eventsOf {i : Nat} {e : Event} : e ∈ eventsOf i history ↔ (i, e) ∈ history := by
  unfold eventsOf
  constructor
  · intro h
    obtain ⟨⟨j, e'⟩, hmem, rfl⟩ := List.mem_map.mp h
    obtain ⟨hin, hj⟩ := List.mem_filter.mp hmem
    cases of_decide_eq_true hj
    exact hin
  · intro h
    exact List.mem_map.mpr ⟨(i, e), List.mem_filter.mpr ⟨h, decide_eq_true rfl⟩, rfl⟩

/-! ## The workers do not share anything -/

/-- Where an event finds its worker alive, or not. -/
theorem Fleet.step_cases (E : Ed25519) (H : Bytes → Hash) (debug : Bool) (f : Fleet)
    (a : Nat × Event) :
    (∃ h, f.workers[a.1]? = some (.ok h) ∧ f.step E H debug a =
      { workers := f.workers.set a.1 (Server.step E H debug h a.2)
        secrets := f.secrets ++ a.2.drawn
        log := f.log ++ signed E H h a.2 }) ∨
    ((∀ h, f.workers[a.1]? ≠ some (.ok h)) ∧ f.step E H debug a = f) := by
  unfold Fleet.step
  split
  · next h hh => exact .inl ⟨h, hh, rfl⟩
  · next hnot => exact .inr ⟨fun h hh => hnot h hh, rfl⟩

/-- A worker is where its own events lead. -/
theorem Fleet.workers_run (E : Ed25519) (H : Bytes → Hash) (debug : Bool)
    (configs : List Config) (history : List (Nat × Event)) (i : Nat) :
    (Fleet.run E H debug configs history).workers[i]? =
      configs[i]?.map fun c => serve E H debug c (eventsOf i history) := by
  induction history using List.reverseRecOn generalizing i with
  | nil => exact List.getElem?_map
  | append_singleton history a ih =>
      obtain ⟨j, e⟩ := a
      rw [Fleet.run_concat]
      rcases Fleet.step_cases E H debug (Fleet.run E H debug configs history) (j, e) with
        ⟨h, hh, hstep⟩ | ⟨hdead, hstep⟩
      · rw [hstep]
        show (List.set _ j _)[i]? = _
        have hj := ih j
        rw [hh] at hj
        by_cases hij : j = i
        · subst hij
          obtain ⟨c, hc, hserve⟩ := Option.map_eq_some_iff.mp hj.symm
          have hlt : j < (Fleet.run E H debug configs history).workers.length :=
            (List.getElem?_eq_some_iff.mp hh).1
          rw [List.getElem?_set_self hlt, hc, eventsOf_append, eventsOf_self]
          show _ = some (serve E H debug c (eventsOf j history ++ [e]))
          rw [serve_concat, hserve]
          rfl
        · rw [List.getElem?_set_ne hij, eventsOf_append, eventsOf_other hij, List.append_nil]
          exact ih i
      · rw [hstep, eventsOf_append]
        by_cases hij : j = i
        · subst hij
          rw [ih j, eventsOf_self]
          have hj := ih j
          cases hc : configs[j]? with
          | none => rfl
          | some c =>
              rw [hc] at hj
              show some (serve E H debug c (eventsOf j history)) =
                some (serve E H debug c (eventsOf j history ++ [e]))
              rw [serve_concat]
              cases hserve : serve E H debug c (eventsOf j history) with
              | ok h =>
                  refine absurd ?_ (hdead h)
                  rw [← hserve]
                  exact hj
              | err e => exact e.elim
              | panic => rfl
        · rw [eventsOf_other hij, List.append_nil]
          exact ih i

/-- So a living worker has the handler of its own events. -/
theorem Fleet.alive {i : Nat} {h : RequestHandler}
    (hlive : (Fleet.run E H debug configs history).workers[i]? = some (.ok h)) :
    ∃ c, configs[i]? = some c ∧ serve E H debug c (eventsOf i history) = .ok h := by
  rw [Fleet.workers_run] at hlive
  exact Option.map_eq_some_iff.mp hlive

/-! ## What has been signed -/

/-- The messages that are signed in a history.  A DELE names a secret that was drawn.  A SREP
stands for the batch that its worker held when it was asked to answer, and for the clock it read
then. -/
inductive Signs (E : Ed25519) (H : Bytes → Hash) (configs : List Config)
    (history : List (Nat × Event)) (secrets : List Seed) : Signing → Prop
  | dele {c : Config} {draw : Draw} (hc : c ∈ configs) (hdraw : draw.signer ∈ secrets) :
      Signs E H configs history secrets
        ⟨c.keySource.identity.seed, c.keySource.deleMessage E c.protocolVersion draw⟩
  | srep {i : Nat} {c : Config} {before after : List (Nat × Event)} {now : UInt64}
      {key : OnlineKey} (hc : configs[i]? = some c)
      (hsplit : history = before ++ (i, .generate now) :: after)
      (hne : openBatch (eventsOf i before) ≠ [])
      (hkey : key.Issued E c.keySource.identity c.protocolVersion) :
      Signs E H configs history secrets ⟨key.signer, key.srepMessage now
        ((MerkleTree.scheme H).root
          ((openBatch (eventsOf i before)).map (Datagram.leaf c.protocolVersion)))⟩

theorem Signs.grow {secrets more : List Seed} {s : Signing} {a : Nat × Event}
    (h : Signs E H configs history secrets s) :
    Signs E H configs (history ++ [a]) (secrets ++ more) s := by
  cases h with
  | dele hc hdraw => exact .dele hc (List.mem_append_left _ hdraw)
  | @srep i c before after now key hc hsplit hne hkey =>
      have hlonger : history ++ [a] = before ++ (i, .generate now) :: (after ++ [a]) := by
        rw [hsplit, List.append_assoc]
        rfl
      exact .srep hc hlonger hne hkey

/-- The root of the batch that a handler holds. -/
theorem Holding.computeRoot_ok {h : ResponseHandler} {batch : List Datagram}
    (hh : Holding E H h batch) (hne : batch ≠ []) :
    ∃ t, (h.merkleTree.computeRoot H : Call (Hash × MerkleTree)) =
      .ok ((MerkleTree.scheme H).root (batch.map (Datagram.leaf h.protocolVersion)), t) := by
  have hholds : h.merkleTree.Holds H (batch.map (Datagram.leaf h.protocolVersion)) :=
    ⟨_, by rw [hh.leaves, MerkleTree.level_zero], .inl rfl⟩
  have hpos : 1 ≤ (batch.map (Datagram.leaf h.protocolVersion)).length := by
    rw [List.length_map]
    exact List.length_pos_of_ne_nil hne
  obtain ⟨t, hroot, -⟩ := MerkleTree.computeRoot_ok (ε := Empty) hpos hholds
  exact ⟨t, hroot⟩

/-- What one call signs, at a worker that holds its open batch. -/
theorem signed_signs {i : Nat} {c : Config} {h : RequestHandler} {e : Event} {s : Signing}
    {secrets : List Seed} (hc : configs[i]? = some c)
    (hserve : serve E H debug c (eventsOf i history) = .ok h) (hs : s ∈ signed E H h e) :
    Signs E H configs (history ++ [(i, e)]) (secrets ++ e.drawn) s := by
  obtain ⟨hh, -⟩ := serve_holding hserve
  obtain ⟨hsource, hversion⟩ := serve_settings hserve
  cases e with
  | collect requestBytes srcAddr => exact absurd hs List.not_mem_nil
  | reset => exact absurd hs List.not_mem_nil
  | replace draw =>
      cases List.mem_singleton.mp hs
      rw [hsource, hversion]
      exact .dele (List.mem_of_getElem? hc) (List.mem_append_right _ (List.mem_singleton.mpr rfl))
  | generate now =>
      by_cases hnone : h.responder.requests = []
      · simp only [signed, if_pos hnone] at hs
        exact absurd hs List.not_mem_nil
      · have hne : openBatch (eventsOf i history) ≠ [] := by
          intro hnil
          have hreq := hh.requests
          rw [hnil] at hreq
          exact hnone hreq
        obtain ⟨t, hroot⟩ := hh.computeRoot_ok hne
        simp only [signed, if_neg hnone, hroot] at hs
        cases List.mem_singleton.mp hs
        rw [hversion]
        exact .srep hc (by rfl) hne (serve_issued hserve)

/-- Every signature of a run is one of the two kinds. -/
theorem Fleet.log_signs {s : Signing}
    (hs : s ∈ (Fleet.run E H debug configs history).log) :
    Signs E H configs history (Fleet.run E H debug configs history).secrets s := by
  induction history using List.reverseRecOn with
  | nil =>
      obtain ⟨c, hc, rfl⟩ := List.mem_map.mp hs
      exact .dele hc (List.mem_map.mpr ⟨c, hc, rfl⟩)
  | append_singleton history a ih =>
      obtain ⟨j, e⟩ := a
      rw [Fleet.run_concat] at hs ⊢
      rcases Fleet.step_cases E H debug (Fleet.run E H debug configs history) (j, e) with
        ⟨h, hh, hstep⟩ | ⟨hdead, hstep⟩
      · rw [hstep] at hs ⊢
        rcases List.mem_append.mp hs with hold | hnew
        · exact (ih hold).grow
        · obtain ⟨c, hc, hserve⟩ := Fleet.alive hh
          exact signed_signs hc hserve hnew
      · rw [hstep] at hs ⊢
        rw [← List.append_nil (Fleet.run E H debug configs history).secrets]
        exact (ih hs).grow

/-! ## What is sent has been signed -/

/-- What the identity has signed, when a worker certifies a key. -/
def Config.certSigning (c : Config) (key : OnlineKey) : Signing :=
  ⟨c.keySource.identity.seed,
    c.keySource.certPrefix c.protocolVersion ++ key.cert.delegation.encode⟩

theorem Fleet.log_grows (history later : List (Nat × Event)) {s : Signing}
    (hs : s ∈ (Fleet.run E H debug configs history).log) :
    s ∈ (Fleet.run E H debug configs (history ++ later)).log := by
  induction later using List.reverseRecOn with
  | nil => rwa [List.append_nil]
  | append_singleton later a ih =>
      rw [← List.append_assoc, Fleet.run_concat]
      rcases Fleet.step_cases E H debug (Fleet.run E H debug configs (history ++ later)) a with
        ⟨h, -, hstep⟩ | ⟨-, hstep⟩
      · rw [hstep]
        exact List.mem_append_left _ ih
      · rw [hstep]
        exact ih

theorem certSigning_of_makeOnlineKey {c : Config} {draw : Draw} {key : OnlineKey}
    (hmake : c.keySource.makeOnlineKey E c.protocolVersion draw = .ok key) :
    c.certSigning key =
      ⟨c.keySource.identity.seed, c.keySource.deleMessage E c.protocolVersion draw⟩ := by
  unfold Config.certSigning KeySource.deleMessage
  rw [KeySource.makeOnlineKey_delegation hmake]

/-- A fresh handler has the key that was certified for it. -/
theorem serve_nil_cert {c : Config} {h : RequestHandler} (hserve : serve E H debug c [] = .ok h) :
    c.certSigning h.responder.onlineKey =
      ⟨c.keySource.identity.seed, c.keySource.deleMessage E c.protocolVersion c.draw⟩ := by
  simp only [serve, ResponseHandler.new, Outcome.bind_ok_iff, Outcome.pure_eq, Outcome.ok.injEq,
    List.foldlM_nil] at hserve
  obtain ⟨_, ⟨key, hmake, rfl⟩, rfl⟩ := hserve
  exact certSigning_of_makeOnlineKey hmake

/-- A step keeps the certificate of a handler, or signs the next one. -/
theorem step_cert {c : Config} {h h' : RequestHandler} {batch : List Datagram} {e : Event}
    (hh : Holding E H h.responder batch) (hsource : h.responder.keySource = c.keySource)
    (hversion : h.responder.protocolVersion = c.protocolVersion)
    (hrun : step E H debug h e = .ok h') :
    h'.responder.onlineKey.cert = h.responder.onlineKey.cert ∨
      c.certSigning h'.responder.onlineKey ∈ signed E H h e := by
  cases e with
  | collect requestBytes srcAddr =>
      exact .inl (congrArg OnlineKey.cert (collectRequest_key hrun))
  | generate now =>
      simp only [step, Outcome.bind_ok_iff, Outcome.pure_eq, Outcome.ok.injEq] at hrun
      obtain ⟨⟨outs, _⟩, hgen, rfl⟩ := hrun
      exact .inl (hh.generate_cert hgen)
  | replace draw =>
      simp only [step, RequestHandler.replaceOnlineKey, ResponseHandler.replaceOnlineKey,
        Outcome.bind_ok_iff, Outcome.pure_eq, Outcome.ok.injEq] at hrun
      obtain ⟨_, ⟨key, hmake, rfl⟩, rfl⟩ := hrun
      rw [hsource, hversion] at hmake
      refine .inr (List.mem_singleton.mpr ?_)
      rw [hsource, hversion]
      exact certSigning_of_makeOnlineKey hmake
  | reset =>
      cases hrun
      exact .inl rfl

/-- The certificate that a living worker uses was signed. -/
theorem Fleet.cert_logged {i : Nat} {c : Config} {h : RequestHandler} (hc : configs[i]? = some c)
    (hlive : (Fleet.run E H debug configs history).workers[i]? = some (.ok h)) :
    c.certSigning h.responder.onlineKey ∈ (Fleet.run E H debug configs history).log := by
  induction history using List.reverseRecOn generalizing h with
  | nil =>
      obtain ⟨c', hc', hserve⟩ := Fleet.alive hlive
      cases hc.symm.trans hc'
      rw [serve_nil_cert hserve]
      exact List.mem_map.mpr ⟨c, List.mem_of_getElem? hc, rfl⟩
  | append_singleton history a ih =>
      obtain ⟨j, e⟩ := a
      rw [Fleet.run_concat] at hlive ⊢
      rcases Fleet.step_cases E H debug (Fleet.run E H debug configs history) (j, e) with
        ⟨g, hg, hstep⟩ | ⟨-, hstep⟩
      · rw [hstep] at hlive ⊢
        have hlive : ((Fleet.run E H debug configs history).workers.set j
          (Server.step E H debug g e))[i]? = some (.ok h) := hlive
        by_cases hij : j = i
        · subst hij
          obtain ⟨c', hc', hserve⟩ := Fleet.alive hg
          cases hc.symm.trans hc'
          obtain ⟨hsource, hversion⟩ := serve_settings hserve
          rw [List.getElem?_set_self (List.getElem?_eq_some_iff.mp hg).1] at hlive
          rcases step_cert (serve_holding hserve).1 hsource hversion (Option.some.inj hlive) with
            hsame | hsigned
          · refine List.mem_append_left _ ?_
            unfold Config.certSigning
            rw [hsame]
            exact ih hg
          · exact List.mem_append_right _ hsigned
        · rw [List.getElem?_set_ne hij] at hlive
          exact List.mem_append_left _ (ih hlive)
      · rw [hstep] at hlive ⊢
        exact ih hlive

/-- A packet that a living worker sends is an answer of its key, and what the two signatures in it
are on is on the log from then on. -/
theorem Fleet.sent_logged {i : Nat} {c : Config} {h h' : RequestHandler} {now : UInt64}
    {outs : List (SocketAddr × Bytes)} {addr : SocketAddr} {b : Bytes}
    (later : List (Nat × Event)) (hc : configs[i]? = some c)
    (hlive : (Fleet.run E H debug configs history).workers[i]? = some (.ok h))
    (hgen : h.generateResponses E H debug now = .ok (outs, h')) (hsent : (addr, b) ∈ outs) :
    ∃ key root proof pending index,
      OnlineKey.Issued E c.keySource.identity c.protocolVersion key ∧
      b = framed (key.encode E now root proof pending index) ∧
      ∀ s ∈ [c.certSigning key, ⟨key.signer, key.srepMessage now root⟩],
        s ∈ (Fleet.run E H debug configs (history ++ (i, .generate now) :: later)).log := by
  obtain ⟨c', hc', hserve⟩ := Fleet.alive hlive
  cases hc.symm.trans hc'
  obtain ⟨hh, -⟩ := serve_holding hserve
  simp only [RequestHandler.generateResponses, Outcome.bind_ok_iff, Outcome.pure_eq,
    Outcome.ok.injEq, Prod.mk.injEq] at hgen
  obtain ⟨⟨outs', r⟩, hprocess, rfl, -⟩ := hgen
  obtain ⟨root, hroot, hall⟩ := ResponseHandler.processResponses_sent hh.sound hprocess
  obtain ⟨k, hk⟩ := List.mem_iff_getElem?.mp hsent
  have hlt : k < h.responder.requests.length := by
    rw [← hall.length_eq]
    exact (List.getElem?_eq_some_iff.mp hk).1
  obtain ⟨proof, hframe⟩ := hall.frame k _ (List.getElem?_eq_getElem hlt)
  rw [hk] at hframe
  cases Option.some.inj hframe
  have hne : h.responder.requests ≠ [] := List.ne_nil_of_length_pos (Nat.zero_lt_of_lt hlt)
  obtain ⟨tree, htree⟩ := hroot hne
  refine ⟨h.responder.onlineKey, root, proof, _, _, serve_issued hserve, rfl, ?_⟩
  intro s hs
  rw [← List.singleton_append, ← List.append_assoc]
  refine Fleet.log_grows _ later ?_
  rw [Fleet.run_concat, Fleet.step, hlive]
  rcases List.mem_cons.mp hs with rfl | hs
  · exact List.mem_append_left _ (Fleet.cert_logged hc hlive)
  · refine List.mem_append_right _ ?_
    simp only [signed, if_neg hne, htree]
    exact hs

end Roughenough.Server
