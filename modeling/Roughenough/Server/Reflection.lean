/-
# `Roughenough.Server.Reflection` — the server as a reflector

There is no handshake in front of a request, and its source address is what the
sender says it is: the answer goes to whoever is named there.  How much can be
made to go to an address is a matter of three lists, over a whole run of a
worker:

    received    the datagrams that `recv_from` returned
    accepted    those of them that `collect_request` keeps
    sent        what `send_response` is called with

Whatever keys are replaced, counters published and sends failed in between, the
addresses of what was sent and of what is still pending are those of what was
accepted, in order (`Launch.Runs.sent_to`).  An accepted datagram has 1024
bytes, and no answer has more than 608, the last of a batch of 64 included
(`generateResponses_small`).  For all workers of a server together:

    no_reflection
-/
import Mathlib.Algebra.Order.BigOperators.Group.List
import Roughenough.Server.Counters
import Roughenough.Server.EndToEnd

namespace Roughenough.Server

open Roughenough.Base Roughenough.Protocol Roughenough.Merkle NetworkHandler ResponseHandler

/-! ## Packets and addresses -/

/-- How many bytes the packets with an address have. -/
def volume (a : SocketAddr) (packets : List (SocketAddr × Bytes)) : Nat :=
  ((packets.filter fun p => p.1 = a).map fun p => p.2.length).sum

theorem volume_cons (a : SocketAddr) (p : SocketAddr × Bytes)
    (packets : List (SocketAddr × Bytes)) :
    volume a (p :: packets) = (if p.1 = a then p.2.length else 0) + volume a packets := by
  unfold volume
  rw [List.filter_cons]
  by_cases hp : p.1 = a
  · simp [hp]
  · simp [hp]

theorem volume_sublist {packets packets' : List (SocketAddr × Bytes)} (a : SocketAddr)
    (h : packets.Sublist packets') : volume a packets ≤ volume a packets' :=
  ((h.filter _).map _).sum_le_sum fun _ _ => Nat.zero_le _

theorem volume_append (a : SocketAddr) (packets later : List (SocketAddr × Bytes)) :
    volume a (packets ++ later) = volume a packets + volume a later := by
  unfold volume
  rw [List.filter_append, List.map_append, List.sum_append]

/-- Answers of at most `p` bytes to questions of at least `q` bytes, in their order. -/
theorem volume_le {p q : Nat} {outs ins : List (SocketAddr × Bytes)} {waiting : List SocketAddr}
    (a : SocketAddr) (hsources : outs.map Prod.fst ++ waiting = ins.map Prod.fst)
    (houts : ∀ o ∈ outs, o.2.length ≤ p) (hins : ∀ d ∈ ins, q ≤ d.2.length) :
    q * volume a outs ≤ p * volume a ins := by
  induction outs generalizing ins with
  | nil =>
      rw [show volume a [] = 0 from rfl, Nat.mul_zero]
      exact Nat.zero_le _
  | cons o outs ih =>
      cases ins with
      | nil => cases hsources
      | cons d ins =>
          obtain ⟨hsource, hlater⟩ := List.cons.inj hsources
          have hrest := ih hlater (fun x hx => houts x (List.mem_cons_of_mem o hx))
            fun x hx => hins x (List.mem_cons_of_mem d hx)
          have hfirst : q * o.2.length ≤ p * d.2.length := by
            have ho := houts o List.mem_cons_self
            have hd := hins d List.mem_cons_self
            calc q * o.2.length ≤ q * p := Nat.mul_le_mul_left q ho
              _ = p * q := Nat.mul_comm q p
              _ ≤ p * d.2.length := Nat.mul_le_mul_left p hd
          rw [volume_cons, volume_cons, ← hsource, Nat.mul_add, Nat.mul_add]
          refine Nat.add_le_add ?_ hrest
          by_cases ha : o.1 = a
          · rw [if_pos ha, if_pos ha]
            exact hfirst
          · rw [if_neg ha, if_neg ha]
            exact Nat.zero_le _

/-! ## The size of an answer -/

section Size

variable {E : Ed25519} {H : Bytes → Hash} {debug : Bool}

/-- An answer with a path of at most six elements. -/
theorem OnlineKey.Issued.encode_length_le {key : OnlineKey} {identity : LongTermIdentity}
    {version : ProtocolVersion} (h : key.Issued E identity version) (now : UInt64)
    (root : MerkleRoot) {proof : List Hash} (hproof : proof.length ≤ 6)
    (pending : PendingRequest) (index : UInt32) :
    (framed (key.encode E now root proof pending index)).length ≤ 608 := by
  have hnum : (MerklePath.ofElements proof).numPaths ≤ 6 :=
    Nat.le_trans (List.length_take_le' 32 proof) hproof
  cases version with
  | rfcDraft08 =>
      cases key with
      | draft14 key => exact h.elim
      | draft08 key =>
          have hlen : (key.answer E now root proof index).encode.length =
              340 + 32 * (MerklePath.ofElements proof).numPaths :=
            ResponseDraft08.encodeWith_length _ _
          show (framed (key.answer E now root proof index).encode).length ≤ 608
          rw [framed_length, hlen]
          omega
  | rfcDraft14 =>
      cases key with
      | draft08 key => exact h.elim
      | draft14 key =>
          -- the template names the one version of its identity
          have hvers : key.templateSrep.supportedVersions.versions.length = 1 := by
            rw [OnlineKeyDraft14.Issued.template_eq h]
            rfl
          have hlen : (key.answer E now root proof pending.request.nonc index).encode.length =
              400 + 32 * (MerklePath.ofElements proof).numPaths +
                4 * key.templateSrep.supportedVersions.versions.length :=
            Response.encodeWith_length (SignedResponse.spells_values _)
          show (framed (key.answer E now root proof pending.request.nonc index).encode).length ≤ 608
          rw [framed_length, hlen, hvers]
          omega

/-- What a handler answers a batch of at most 64 requests with. -/
theorem generateResponses_small {h h' : RequestHandler} {batch : List Datagram} {now : UInt64}
    {outs : List (SocketAddr × Bytes)} (hh : Holding E H h.responder batch)
    (hmax : batch.length ≤ 64) (hrun : h.generateResponses E H debug now = .ok (outs, h')) :
    outs.map Prod.fst = h.responder.requests.map PendingRequest.srcAddr ∧
      ∀ o ∈ outs, o.2.length ≤ 608 := by
  simp only [RequestHandler.generateResponses, Outcome.bind_ok_iff, Outcome.pure_eq,
    Outcome.ok.injEq, Prod.mk.injEq] at hrun
  obtain ⟨⟨outs', r⟩, hprocess, rfl, -⟩ := hrun
  rcases Nat.eq_zero_or_pos batch.length with hzero | hpos
  · have hnone : h.responder.requests = [] := by
      rw [hh.requests, List.length_eq_zero_iff.mp hzero]
      rfl
    rw [processResponses, if_pos hnone] at hprocess
    cases hprocess
    rw [hnone]
    exact ⟨rfl, fun o ho => absurd ho List.not_mem_nil⟩
  · have hclear := hh.clear_of_process hpos hmax hprocess
    obtain ⟨r', hanswers⟩ := hh.process_ok hpos hmax hclear now
    rw [hanswers] at hprocess
    cases hprocess
    refine ⟨?_, ?_⟩
    · rw [hh.requests]
      exact frames_fst _ _ _ 0
    · intro o ho
      obtain ⟨⟨pending, i⟩, -, rfl⟩ := List.mem_map.mp ho
      have hleaves : (batch.map (Datagram.leaf h.responder.protocolVersion)).length ≤ 64 := by
        rw [List.length_map]
        exact hmax
      exact hh.sound.encode_length_le now _ (elements_proofOf hleaves i).1 pending _

end Size

/-! ## The packets of a run -/

/-- What a step hands to `send_response`. -/
def Exchange.outs : Exchange → List (SocketAddr × Bytes)
  | .top _ _ _ => []
  | .poll _ _ => []
  | .collect _ => []
  | .generate _ _ outs => outs

def sent (exchanges : List Exchange) : List (SocketAddr × Bytes) :=
  exchanges.flatMap Exchange.outs

def received (batchSize : Nat) (exchanges : List Exchange) : List (SocketAddr × Bytes) :=
  (exchanges.flatMap (Exchange.received batchSize)).map Prod.swap

/-- The handler sees the part of a datagram that is in its buffer. -/
def accepted (batchSize : Nat) (exchanges : List Exchange) : List (SocketAddr × Bytes) :=
  (received batchSize exchanges).filter fun p => countOf (p.2.take recvBufferSize) = .ok

theorem sent_concat (exchanges : List Exchange) (a : Exchange) :
    sent (exchanges ++ [a]) = sent exchanges ++ a.outs := by
  unfold sent
  rw [List.flatMap_append, List.flatMap_singleton]

theorem accepted_concat (n : Nat) (exchanges : List Exchange) (a : Exchange) :
    accepted n (exchanges ++ [a]) = accepted n exchanges ++
      ((a.received n).map Prod.swap).filter fun p => countOf (p.2.take recvBufferSize) = .ok := by
  unfold accepted received
  rw [List.flatMap_append, List.flatMap_singleton, List.map_append, List.filter_append]

theorem accepted_sublist (n : Nat) (exchanges : List Exchange) :
    (accepted n exchanges).Sublist (received n exchanges) :=
  List.filter_sublist

/-- A datagram is accepted for its first 1024 bytes. -/
theorem accepted_length {n : Nat} {exchanges : List Exchange} {p : SocketAddr × Bytes}
    (h : p ∈ accepted n exchanges) : 1024 ≤ p.2.length := by
  have hcount : countOf (p.2.take recvBufferSize) = .ok :=
    of_decide_eq_true (List.mem_filter.mp h).2
  obtain ⟨request, hparse⟩ := countOf_eq_ok_iff.mp hcount
  have hlen := Request.fromFrame_length hparse
  rw [List.length_take] at hlen
  exact hlen ▸ Nat.min_le_right _ _

section Runs

variable {E : Ed25519} {H : Bytes → Hash} {debug : Bool} {l : Launch}

/-- What is collected is what was pending and the accepted datagrams of the step. -/
theorem collectRequests_sources {w w' : Worker} {sock : List Recv} {result : CollectResult}
    (h : w.collectRequests H debug sock = .ok (result, w')) :
    w'.reqHandler.responder.requests.map PendingRequest.srcAddr =
      w.reqHandler.responder.requests.map PendingRequest.srcAddr ++
        (((taken w.netHandler.batchSize sock).map Prod.swap).filter fun p =>
          countOf (p.2.take recvBufferSize) = .ok).map Prod.fst := by
  obtain ⟨req, hfold, -, rfl⟩ := Worker.collectRequests_ok_iff.mp h
  refine Outcome.foldlM_invariant (fun done (g : RequestHandler) =>
    g.responder.requests.map PendingRequest.srcAddr =
      w.reqHandler.responder.requests.map PendingRequest.srcAddr ++
        ((done.map Prod.swap).filter fun p =>
          countOf (p.2.take recvBufferSize) = .ok).map Prod.fst) [] ?_ ?_ hfold
  · intro done d g g' _ hg hcollect
    rw [List.map_append, List.filter_append, List.map_append, ← List.append_assoc, ← hg]
    rcases collectRequest_cases (H := H) debug g (d.1.take recvBufferSize) d.2 with
      ⟨hnone, m, hok⟩ | ⟨d', m, hsome, hok⟩
    · rw [hok] at hcollect
      cases hcollect
      have hcount : countOf (d.1.take recvBufferSize) ≠ .ok := by
        intro hcount
        obtain ⟨request, hparse⟩ := countOf_eq_ok_iff.mp hcount
        rw [accept_of_ok hparse] at hnone
        cases hnone
      rw [List.map_singleton, List.filter_singleton, Prod.swap_prod_mk, decide_eq_false hcount]
      exact (List.append_nil _).symm
    · rw [hok, Outcome.bind_ok_iff] at hcollect
      obtain ⟨r, hadd, hr⟩ := hcollect
      cases hr
      obtain ⟨-, rfl⟩ := addRequest_ok_iff.mp hadd
      obtain ⟨hbytes, hsource⟩ := mem_accept_iff.mp (Option.mem_toList.mpr hsome)
      have hcount : countOf (d.1.take recvBufferSize) = .ok :=
        countOf_eq_ok_iff.mpr ⟨_, hbytes ▸ d'.accepted⟩
      rw [List.map_singleton, List.filter_singleton, Prod.swap_prod_mk, decide_eq_true hcount]
      show (g.responder.requests ++ [d'.pending]).map PendingRequest.srcAddr = _
      rw [List.map_append, ← hsource]
      rfl
  · exact (List.append_nil _).symm

/-- One step: what was sent and is pending, and what was accepted. -/
theorem Launch.Runs.sent_to_step {exchanges : List Exchange} {s s' : Loop} {a : Exchange}
    (hruns : l.Runs E H debug exchanges s) (hstep : Step E H debug s a s')
    (hinv : (sent exchanges).map Prod.fst ++
        s.worker.reqHandler.responder.requests.map PendingRequest.srcAddr =
      (accepted l.args.batchSize.toNat exchanges).map Prod.fst) :
    (sent (exchanges ++ [a])).map Prod.fst ++
        s'.worker.reqHandler.responder.requests.map PendingRequest.srcAddr =
      (accepted l.args.batchSize.toNat (exchanges ++ [a])).map Prod.fst := by
  rw [sent_concat, accepted_concat, List.map_append, List.map_append]
  cases hstep with
  | @top w w' r snapshot key htop =>
      rw [Worker.loopTop_requests htop]
      simpa [Exchange.outs, Exchange.received] using hinv
  | @poll w failed readable =>
      have hkept : (w.polled failed).reqHandler = w.reqHandler := by
        unfold Worker.polled
        split <;> rfl
      rw [hkept]
      simpa [Exchange.outs, Exchange.received] using hinv
  | @collect w w' n sock result hcollect =>
      have hsize : w.netHandler.batchSize = l.args.batchSize.toNat := hruns.refines.1
      rw [collectRequests_sources hcollect, hsize, ← hinv]
      simp [Exchange.outs, Exchange.received]
  | @generate w w' n result now okay outs hgen =>
      have hpending : w.reqHandler.responder.requests.length ≤ l.args.batchSize.toNat :=
        hruns.pending.1
      obtain ⟨hh, -⟩ := serve_holding hruns.refines.2
      have hbatch := hh.length_eq ▸ hpending
      obtain ⟨req, hreq, -⟩ := Worker.generateResponses_ok_iff.mp hgen
      have hfst := (generateResponses_small hh (Nat.le_trans hbatch l.args.inRange.2) hreq).1
      rw [generateResponses_pending hgen]
      show _ ++ outs.map Prod.fst ++ [] = _ ++ []
      rw [List.append_nil, List.append_nil, hfst]
      exact hinv

/-- Whatever happens in a run: the answers go, in order, to the sources of the accepted datagrams,
and those that are not answered are pending. -/
theorem Launch.Runs.sent_to {exchanges : List Exchange} {s : Loop}
    (h : l.Runs E H debug exchanges s) :
    (sent exchanges).map Prod.fst ++
        s.worker.reqHandler.responder.requests.map PendingRequest.srcAddr =
      (accepted l.args.batchSize.toNat exchanges).map Prod.fst := by
  obtain ⟨s₀, hstart, htrace⟩ := h
  refine Trace.invariant (fun done (t : Loop) => (sent done).map Prod.fst ++
      t.worker.reqHandler.responder.requests.map PendingRequest.srcAddr =
    (accepted l.args.batchSize.toNat done).map Prod.fst) ?_ ?_ htrace
  · obtain ⟨-, hidle⟩ := Launch.Runs.pending (H := H) (l := l) ⟨s₀, hstart, .start⟩
    rw [hidle fun _ _ h => nomatch (start_ok (H := H) hstart).1.symm.trans h]
    rfl
  · intro done t a t' hdone hinv hstep
    exact Launch.Runs.sent_to_step ⟨s₀, hstart, hdone⟩ hstep hinv

/-- No answer of a run has more than 608 bytes. -/
theorem Launch.Runs.sent_small {exchanges : List Exchange} {s : Loop}
    (h : l.Runs E H debug exchanges s) : ∀ o ∈ sent exchanges, o.2.length ≤ 608 := by
  obtain ⟨s₀, hstart, htrace⟩ := h
  refine Trace.invariant (fun done (_ : Loop) => ∀ o ∈ sent done, o.2.length ≤ 608) ?_ ?_ htrace
  · intro o ho
    cases ho
  · intro done t a t' hdone hinv hstep
    have hruns : l.Runs E H debug done t := ⟨s₀, hstart, hdone⟩
    rw [sent_concat]
    intro o ho
    rcases List.mem_append.mp ho with hold | hnew
    · exact hinv o hold
    · cases hstep with
      | top htop => cases hnew
      | poll failed readable => cases hnew
      | collect hcollect => cases hnew
      | generate hgen =>
          obtain ⟨hh, -⟩ := serve_holding hruns.refines.2
          have hbatch := hh.length_eq ▸ hruns.pending.1
          obtain ⟨req, hreq, -⟩ := Worker.generateResponses_ok_iff.mp hgen
          exact (generateResponses_small hh (Nat.le_trans hbatch l.args.inRange.2) hreq).2 o hnew

end Runs

/-- A thread of a server, and what happened to it. -/
structure Thread where
  launch : Launch
  exchanges : List Exchange
  last : Loop

def Thread.sent (t : Thread) : List (SocketAddr × Bytes) := Server.sent t.exchanges

def Thread.received (t : Thread) : List (SocketAddr × Bytes) :=
  Server.received t.launch.args.batchSize.toNat t.exchanges

/-- For any number of workers and any runs of them: the answers of each go, in order and one for
each, to where its accepted datagrams came from, as far as these are not pending; and what the
server sent to an address is at most 608 bytes for every 1024 that it received from there. -/
theorem no_reflection (E : Ed25519) (H : Bytes → Hash) (debug : Bool) (threads : List Thread)
    (hruns : ∀ t ∈ threads, t.launch.Runs E H debug t.exchanges t.last) :
    (∀ t ∈ threads, t.sent.map Prod.fst ++
        t.last.worker.reqHandler.responder.requests.map PendingRequest.srcAddr =
      (accepted t.launch.args.batchSize.toNat t.exchanges).map Prod.fst) ∧
    ∀ a, 1024 * volume a (threads.flatMap Thread.sent) ≤
      608 * volume a (threads.flatMap Thread.received) := by
  refine ⟨fun t ht => (hruns t ht).sent_to, ?_⟩
  intro a
  induction threads with
  | nil => exact Nat.le_refl 0
  | cons t threads ih =>
      have hrun := hruns t List.mem_cons_self
      have hone : 1024 * volume a t.sent ≤ 608 * volume a t.received := by
        refine Nat.le_trans (volume_le a hrun.sent_to hrun.sent_small
          fun d hd => accepted_length hd) ?_
        exact Nat.mul_le_mul_left 608 (volume_sublist a (accepted_sublist _ _))
      rw [List.flatMap_cons, List.flatMap_cons, volume_append, volume_append, Nat.mul_add,
        Nat.mul_add]
      exact Nat.add_le_add hone (ih fun t' ht' => hruns t' (List.mem_cons_of_mem t ht'))

open Sample

/-- A worker that was asked once, and answered. -/
theorem no_reflection_once :
    ∃ t : Thread, t.launch.Runs ed25519 digest false t.exchanges t.last ∧
      t.received = [(address, datagram.bytes)] ∧ t.sent.map Prod.fst = [address] ∧
      1024 * volume address t.sent ≤ 608 * volume address t.received := by
  obtain ⟨r, snapshot, key, s, s', outs, hrun, hstep⟩ := first_datagram datagram.bytes
  obtain ⟨hsent, hvolume⟩ := no_reflection ed25519 digest false [⟨launch, _, s'⟩] fun t ht => by
    rw [List.mem_singleton.mp ht]
    exact hrun.step hstep
  have hfits : datagram.bytes.take recvBufferSize = datagram.bytes :=
    List.take_of_length_le (Request.fromFrame_length datagram.accepted).le
  have hcount : countOf (datagram.bytes.take recvBufferSize) = .ok :=
    countOf_eq_ok_iff.mpr ⟨_, hfits ▸ datagram.accepted⟩
  have hto := hsent _ List.mem_cons_self
  have hidle : s'.worker.reqHandler.responder.requests = [] := by
    cases hstep with
    | generate hgen => exact generateResponses_pending hgen
  rw [hidle] at hto
  refine ⟨⟨launch, _, s'⟩, hrun.step hstep, rfl, ?_, ?_⟩
  · refine (List.append_nil _).symm.trans (hto.trans ?_)
    show ([(address, datagram.bytes)].filter fun p =>
      countOf (p.2.take recvBufferSize) = .ok).map Prod.fst = [address]
    rw [List.filter_singleton, decide_eq_true hcount]
    rfl
  · have hall := hvolume address
    rw [List.flatMap_singleton, List.flatMap_singleton] at hall
    exact hall

end Roughenough.Server
