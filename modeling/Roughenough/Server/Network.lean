/-
# `Roughenough.Server.Network` — the socket of a worker

`roughenough-server/src/network.rs`, with `NetworkMetrics` of
`metrics/types.rs`.  What the socket answers is an input: a list of `Recv`,
one for each call of `recv_from`, and a `Bool` for each call of `send_to`.

`recv_from` copies as much of a datagram as the buffer holds and returns that
count; how long the datagram was is not told.  The buffer has 1024 bytes, and
is not cleared between two calls.

    collectRequests_eq      the callback gets the first 1024 bytes of each
                            datagram, at most `batch_size` of them
-/
import Roughenough.Server.Requests

namespace Roughenough.Server

open Roughenough.Base Roughenough.Protocol

/-- Counters of `usize`, as `Nat` like those of `ResponseMetrics`: a call adds one to one of
them. -/
structure NetworkMetrics where
  numRecvWouldblock : Nat
  numSuccessfulSends : Nat
  numFailedSends : Nat
  numFailedPolls : Nat
  numFailedRecvs : Nat
  deriving DecidableEq

def NetworkMetrics.default : NetworkMetrics := ⟨0, 0, 0, 0, 0⟩

inductive CollectResult where
  | empty
  | moreData
  deriving DecidableEq

/-- What a call of `recv_from` finds: a datagram, nothing to read, or another error. -/
inductive Recv where
  | datagram (bytes : Bytes) (srcAddr : SocketAddr)
  | wouldBlock
  | failed
  deriving DecidableEq

structure NetworkHandler where
  batchSize : Nat
  metrics : NetworkMetrics
  deriving DecidableEq

/-- `recv_from`: the count and the buffer. -/
def recvFrom (buf datagram : Bytes) : Nat × Bytes :=
  let nbytes := min datagram.length buf.length
  (nbytes, datagram.take nbytes ++ buf.drop nbytes)

namespace NetworkHandler

def recvBufferSize : Nat := 1024

def new (batchSize : Nat) : NetworkHandler := ⟨batchSize, NetworkMetrics.default⟩

/-- The loop of `collect_requests`, with the turns it has left.  A call behind the end of the
list finds nothing to read. -/
def collectLoop {σ : Type} (callback : σ → Bytes → SocketAddr → Call σ) :
    Nat → Bytes → List Recv → NetworkMetrics → σ → Call ((CollectResult × NetworkMetrics) × σ)
  | 0, _, _, m, s => pure ((.moreData, m), s)
  | turns + 1, buf, .datagram bytes srcAddr :: later, m, s => do
      let (nbytes, buf) := recvFrom buf bytes
      let s ← callback s (buf.take nbytes) srcAddr
      collectLoop callback turns buf later m s
  | _ + 1, _, .failed :: _, m, s =>
      pure ((.moreData, { m with numFailedRecvs := m.numFailedRecvs + 1 }), s)
  | _ + 1, _, .wouldBlock :: _, m, s =>
      pure ((.empty, { m with numRecvWouldblock := m.numRecvWouldblock + 1 }), s)
  | _ + 1, _, [], m, s =>
      pure ((.empty, { m with numRecvWouldblock := m.numRecvWouldblock + 1 }), s)

def collectRequests {σ : Type} (callback : σ → Bytes → SocketAddr → Call σ)
    (h : NetworkHandler) (sock : List Recv) (s : σ) :
    Call (CollectResult × NetworkHandler × σ) := do
  let ((result, metrics), s) ← collectLoop callback h.batchSize
    (List.replicate recvBufferSize 0) sock h.metrics s
  pure (result, { h with metrics := metrics }, s)

def sendResponse (h : NetworkHandler) (sent : Bool) : NetworkHandler :=
  if sent then { h with metrics.numSuccessfulSends := h.metrics.numSuccessfulSends + 1 }
  else { h with metrics.numFailedSends := h.metrics.numFailedSends + 1 }

def resetMetrics (h : NetworkHandler) : NetworkHandler :=
  { h with metrics := NetworkMetrics.default }

def recordFailedPoll (h : NetworkHandler) : NetworkHandler :=
  { h with metrics.numFailedPolls := h.metrics.numFailedPolls + 1 }

/-! ## What a call of `collect_requests` does -/

/-- The datagrams of a call: those in front of the first error, at most `turns`. -/
def taken : Nat → List Recv → List (Bytes × SocketAddr)
  | turns + 1, .datagram bytes srcAddr :: later => (bytes, srcAddr) :: taken turns later
  | _, _ => []

/-- How the call ends, and what it counts. -/
def ending : Nat → List Recv → NetworkMetrics → CollectResult × NetworkMetrics
  | 0, _, m => (.moreData, m)
  | turns + 1, .datagram _ _ :: later, m => ending turns later m
  | _ + 1, .failed :: _, m => (.moreData, { m with numFailedRecvs := m.numFailedRecvs + 1 })
  | _ + 1, .wouldBlock :: _, m => (.empty, { m with numRecvWouldblock := m.numRecvWouldblock + 1 })
  | _ + 1, [], m => (.empty, { m with numRecvWouldblock := m.numRecvWouldblock + 1 })

/-- The slice of the buffer that was filled is the beginning of the datagram, whatever the buffer
held. -/
theorem take_recvFrom (buf datagram : Bytes) :
    (recvFrom buf datagram).2.take (recvFrom buf datagram).1 = datagram.take buf.length := by
  have hlen : (datagram.take (min datagram.length buf.length)).length =
      min datagram.length buf.length := by
    rw [List.length_take]
    omega
  show (datagram.take (min datagram.length buf.length) ++ _).take
    (min datagram.length buf.length) = _
  rw [List.take_left' hlen, Nat.min_comm, ← List.take_eq_take_min]

theorem recvFrom_length (buf datagram : Bytes) :
    (recvFrom buf datagram).2.length = buf.length := by
  show (datagram.take (min datagram.length buf.length) ++ _).length = _
  rw [List.length_append, List.length_take, List.length_drop]
  omega

section

variable {σ : Type} (callback : σ → Bytes → SocketAddr → Call σ)

/-- The callback runs over the beginnings of the datagrams. -/
theorem collectLoop_eq (turns : Nat) (sock : List Recv) {buf : Bytes} (m : NetworkMetrics)
    (s : σ) : collectLoop callback turns buf sock m s =
      (taken turns sock).foldlM (fun s d => callback s (d.1.take buf.length) d.2) s >>=
        fun s => pure (ending turns sock m, s) := by
  induction turns, sock using taken.induct generalizing buf s with
  | case1 turns bytes srcAddr later ih =>
      have hlen := recvFrom_length buf bytes
      show (callback s ((recvFrom buf bytes).2.take (recvFrom buf bytes).1) srcAddr >>= fun s =>
        collectLoop callback turns (recvFrom buf bytes).2 later m s) = _
      rw [take_recvFrom, taken, List.foldlM_cons, bind_assoc]
      refine bind_congr fun s' => ?_
      rw [ih, hlen]
      rfl
  | case2 turns sock hnot =>
      cases turns with
      | zero => rfl
      | succ turns =>
          cases sock with
          | nil => rfl
          | cons r later =>
              cases r with
              | datagram bytes srcAddr => exact absurd rfl (hnot turns bytes srcAddr later rfl)
              | wouldBlock => rfl
              | failed => rfl

theorem collectRequests_eq (h : NetworkHandler) (sock : List Recv) (s : σ) :
    h.collectRequests callback sock s =
      (taken h.batchSize sock).foldlM
          (fun s d => callback s (d.1.take recvBufferSize) d.2) s >>= fun s =>
        pure ((ending h.batchSize sock h.metrics).1,
          { h with metrics := (ending h.batchSize sock h.metrics).2 }, s) := by
  unfold collectRequests
  rw [collectLoop_eq, List.length_replicate, bind_assoc]
  rfl

end

end NetworkHandler

end Roughenough.Server
