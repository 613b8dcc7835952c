/-
# `Roughenough.Keys.KeyRing` — the seed in the kernel's keyring

`online/linuxkrs.rs`.  The backend keeps a public key and a length; a worker
thread owns the keyring of its thread and answers requests, each with a
response channel of its own.

    backend                               worker
    send Request  ───────────────────▶   recv
                                          search, add_key, set_perms, read
    recv          ◀───────────────────   send Response

A thread that panics drops its end of both channels: the caller that waits
sees its response channel closed, and later callers cannot send.  Both are
`WorkerDisconnect`.

Every call comes with the faults of its own keyring operations.  Without a
fault the kernel does what it is asked: `search` finds the key if it is there,
and `add_key` makes a key or, if one of that name is there, replaces its
payload.

`store_seed` changes the keyring before it has succeeded, and panics where it
could have failed:

    search finds a key                       the worker panics
    add_key done, set_perms fails            `Err`, and the key stays
-/
import Roughenough.Keys.Sealing
import Roughenough.Server.Requests

namespace Roughenough.Keys.KeyRing

open Roughenough.Base Roughenough.Protocol Roughenough.Server

/-! ## The kernel -/

/-- `linux_keyutils::KeyError`, as far as the sources tell its variants apart. -/
inductive KeyError where
  | keyDoesNotExist
  | other (errno : Nat)
  deriving DecidableEq, Repr

/-- The payload of `KEY_NAME` on the keyring of the worker's thread. -/
abbrev Ring := Option Bytes

/-- The operations of one call that fail, and how. -/
structure Faults where
  search : Option KeyError
  addKey : Option KeyError
  setPerms : Option KeyError
  read : Option KeyError
  deriving DecidableEq

/-- No operation fails. -/
def Faults.none : Faults := ⟨.none, .none, .none, .none⟩

/-- An operation that fails, or does what it does. -/
def unlessFault {α : Type} (fault : Option KeyError) (x : Outcome KeyError α) :
    Outcome KeyError α :=
  match fault with
  | some e => .err e
  | .none => x

def find : Ring → Outcome KeyError Bytes
  | some payload => .ok payload
  | .none => .err .keyDoesNotExist

/-- `KeyRing::search`: a handle on the key, which is its payload. -/
def search (ring : Ring) (fault : Option KeyError) : Outcome KeyError Bytes :=
  unlessFault fault (find ring)

/-- `KeyRing::add_key`: the keyring with the new payload. -/
def addKey (fault : Option KeyError) (payload : Bytes) : Outcome KeyError Ring :=
  unlessFault fault (.ok (some payload))

/-- `Key::set_perms`. -/
def setPerms (fault : Option KeyError) : Outcome KeyError Unit := unlessFault fault (.ok ())

/-- `Key::read` into a zeroed buffer of 32 bytes: the length of the payload and the buffer. -/
def readKey (payload : Bytes) (fault : Option KeyError) : Outcome KeyError (Nat × Bytes) :=
  unlessFault fault
    (.ok (payload.length, payload.take 32 ++ List.replicate (32 - payload.length) 0))

/-! ## The worker -/

inductive BackendError where
  | notFound (what : String)
  | krs (e : KeyError)
  | workerDisconnect
  deriving DecidableEq, Repr

structure StoreSeedResponse where
  publicKey : PublicKey
  seedLen : Nat
  deriving DecidableEq

inductive Request where
  | storeSeed (seed : Seed)
  | getSeed
  | sign (data : Bytes)

/-- An answer, on the response channel of its request. -/
inductive Response where
  | storeSeed (result : Except BackendError StoreSeedResponse)
  | getSeed (result : Except BackendError Seed)
  | sign (result : Except BackendError Signature)

def KEY_NAME : String := "roughenough-seed"

section Worker

variable (E : Ed25519)

/-- What is left to do once the key is on the keyring. -/
def finishStore (seed : Seed) (faults : Faults) : Outcome BackendError StoreSeedResponse := do
  (setPerms faults.setPerms).mapErr .krs
  pure ⟨E.publicKey seed, seed.bytes.length⟩

/-- `handle_store_seed`: its result, and the keyring it leaves. -/
def handleStoreSeed (ring : Ring) (seed : Seed) (faults : Faults) :
    Outcome BackendError StoreSeedResponse × Ring :=
  if (search ring faults.search).isOk then (.panic, ring)
  else match addKey faults.addKey seed.bytes with
    | .ok ring' => (finishStore E seed faults, ring')
    | .err e => (.err (.krs e), ring)
    | .panic => (.panic, ring)

/-- A key that was found is read. -/
def readSeed (payload : Bytes) (fault : Option KeyError) : Outcome BackendError Seed := do
  let read ← (readKey payload fault).mapErr .krs
  Outcome.failIf (read.1 ≠ 32)
    (.notFound ("Expected 32-byte seed, got " ++ toString read.1 ++ " bytes"))
  seedNew read.2

def handleGetSeed (ring : Ring) (faults : Faults) : Outcome BackendError Seed :=
  match search ring faults.search with
  | .ok payload => readSeed payload faults.read
  | .err .keyDoesNotExist => .err (.notFound KEY_NAME)
  | .err e => .err (.krs e)
  | .panic => .panic

def handleSign (ring : Ring) (data : Bytes) (faults : Faults) :
    Outcome BackendError Signature := do
  let seed ← handleGetSeed ring faults
  pure (E.sign seed data)

/-- What the worker sends back: nothing if it panicked. -/
def toResponse {α : Type} (wrap : Except BackendError α → Response) :
    Outcome BackendError α → Option Response
  | .ok a => some (wrap (.ok a))
  | .err e => some (wrap (.error e))
  | .panic => .none

/-- One pass of the loop in `worker_thread`. -/
def handle (ring : Ring) (faults : Faults) : Request → Option Response × Ring
  | .storeSeed seed =>
      let stored := handleStoreSeed E ring seed faults
      (toResponse .storeSeed stored.1, stored.2)
  | .getSeed => (toResponse .getSeed (handleGetSeed ring faults), ring)
  | .sign data => (toResponse .sign (handleSign E ring data faults), ring)

end Worker

/-! ## The two parties -/

inductive Worker where
  | running (ring : Ring)
  | ended
  deriving DecidableEq

/-- The fields that the backend caches. -/
structure Backend where
  publicKey : Option PublicKey
  seedLen : Nat
  deriving DecidableEq

structure System where
  backend : Backend
  worker : Worker
  requests : List Request
  responses : List Response

/-- `request_tx.send`: fails once the receiver is gone. -/
def System.send (s : System) (request : Request) : Option System :=
  match s.worker with
  | .running _ => some { s with requests := s.requests ++ [request] }
  | .ended => .none

/-- The worker takes a request, if there is one and it is still there. -/
def System.serve (E : Ed25519) (s : System) (faults : Faults) : System :=
  match s.worker, s.requests with
  | .running ring, request :: later =>
      match handle E ring faults request with
      | (some response, ring') =>
          { s with
            worker := .running ring', requests := later, responses := s.responses ++ [response] }
      | (.none, _) => { s with worker := .ended, requests := [] }
  | _, _ => s

/-- `response_rx.recv`: fails if the sender went without sending. -/
def System.recv (s : System) : Option (Response × System) :=
  match s.responses with
  | response :: later => some (response, { s with responses := later })
  | [] => .none

/-- A request and the wait for its response. -/
def System.request (E : Ed25519) (s : System) (request : Request) (faults : Faults) :
    Option Response × System :=
  match s.send request with
  | some sent =>
      match (sent.serve E faults).recv with
      | some (response, received) => (some response, received)
      | .none => (.none, sent.serve E faults)
  | .none => (.none, s)

/-! ## The calls -/

inductive Op where
  | storeSeed (seed : Seed) (faults : Faults)
  | getSeed (faults : Faults)
  | sign (data : Bytes) (faults : Faults)
  | seedLen
  | publicKey

/-- What a call returns.  `public_key` panics before a seed was stored. -/
inductive Answer where
  | storeSeed (result : Except BackendError Unit)
  | getSeed (result : Except BackendError Seed)
  | sign (result : Except BackendError Signature)
  | seedLen (len : Nat)
  | publicKey (key : Call PublicKey)
  deriving DecidableEq

/-- `store_seed`, from the response on: the cached fields change on `Ok` only. -/
def System.stored (s : System) : Option Response → Answer × System
  | some (.storeSeed (.ok r)) =>
      (.storeSeed (.ok ()), { s with backend := ⟨some r.publicKey, r.seedLen⟩ })
  | some (.storeSeed (.error e)) => (.storeSeed (.error e), s)
  | _ => (.storeSeed (.error .workerDisconnect), s)

/-- `get_seed`, from the response on. -/
def gotSeed : Option Response → Answer
  | some (.getSeed result) => .getSeed result
  | _ => .getSeed (.error .workerDisconnect)

/-- `sign`, from the response on. -/
def signed : Option Response → Answer
  | some (.sign result) => .sign result
  | _ => .sign (.error .workerDisconnect)

def System.exec (E : Ed25519) (s : System) : Op → Answer × System
  | .storeSeed seed faults =>
      let r := s.request E (.storeSeed seed) faults
      r.2.stored r.1
  | .getSeed faults =>
      let r := s.request E .getSeed faults
      (gotSeed r.1, r.2)
  | .sign data faults =>
      let r := s.request E (.sign data) faults
      (signed r.1, r.2)
  | .seedLen => (.seedLen s.backend.seedLen, s)
  | .publicKey => (.publicKey (Outcome.orPanic s.backend.publicKey), s)

/-- The state after a sequence of calls. -/
def System.run (E : Ed25519) (s : System) (ops : List Op) : System :=
  ops.foldl (fun t op => (t.exec E op).2) s

/-- What a sequence of calls returns. -/
def System.answers (E : Ed25519) : System → List Op → List Answer
  | _, [] => []
  | s, op :: ops => (s.exec E op).1 :: System.answers E (s.exec E op).2 ops

/-- The part of `worker_thread` before its loop: the keyring is opened, and the key must not
be on it.  A thread's own keyring starts empty. -/
def startWorker (openFault searchFault : Option KeyError) : Worker :=
  match openFault, search .none searchFault with
  | .none, .err .keyDoesNotExist => .running .none
  | _, _ => .ended

/-- `LinuxKrsBackend::new`. -/
def System.new (openFault searchFault : Option KeyError) : System :=
  ⟨⟨.none, 0⟩, startWorker openFault searchFault, [], []⟩

/-! ## What is asked of the backend -/

/-- No call is made where `store_seed` would stop half way: it finds no key, and `set_perms`
does not fail after another seed went onto the keyring. -/
def Calm : Worker → Op → Prop
  | .running ring, .storeSeed seed faults =>
      ¬ (faults.search = .none ∧ ring.isSome) ∧
        (faults.addKey = .none → faults.setPerms ≠ .none → ring = some seed.bytes)
  | _, _ => True

def CalmRun (E : Ed25519) : System → List Op → Prop
  | _, [] => True
  | s, op :: ops => Calm s.worker op ∧ CalmRun E (s.exec E op).2 ops

/-- A `store_seed` that returns `Err` might as well not have been made. -/
def Atomic (E : Ed25519) (s : System) (seed : Seed) (faults : Faults) : Prop :=
  ∀ e, (s.exec E (.storeSeed seed faults)).1 = .storeSeed (.error e) →
    ∀ later, (s.exec E (.storeSeed seed faults)).2.answers E later = s.answers E later

/-- The seed that a call stored. -/
def Op.stores : Op → Answer → Option Seed
  | .storeSeed seed _, .storeSeed (.ok ()) => some seed
  | _, _ => .none

/-- The seed of the last `store_seed` that returned `Ok`, or `last`. -/
def lastStored (E : Ed25519) : System → Option Seed → List Op → Option Seed
  | _, last, [] => last
  | s, last, op :: ops =>
      lastStored E (s.exec E op).2 ((op.stores (s.exec E op).1).or last) ops

/-- Calls whose own keyring operations succeed answer with `seed`. -/
structure Serves (E : Ed25519) (s : System) (seed : Seed) : Prop where
  getSeed : ∀ faults : Faults, faults.search = .none → faults.read = .none →
    (s.exec E (.getSeed faults)).1 = .getSeed (.ok seed)
  sign : ∀ (data : Bytes) (faults : Faults), faults.search = .none → faults.read = .none →
    (s.exec E (.sign data faults)).1 = .sign (.ok (E.sign seed data))
  publicKey : (s.exec E .publicKey).1 = .publicKey (.ok (E.publicKey seed))

/-! ## The handlers -/

section Handlers

variable {E : Ed25519} {ring : Ring} {faults : Faults}

theorem readSeed_ne_panic (payload : Bytes) (fault : Option KeyError) :
    readSeed payload fault ≠ .panic := by
  unfold readSeed readKey unlessFault
  cases fault with
  | some e => exact Outcome.err_ne_panic _
  | none =>
    rw [Outcome.mapErr_ok, Outcome.ok_bind]
    refine Outcome.bind_ne_panic Outcome.failIf_ne_panic fun _ _ => ?_
    -- The buffer has 32 bytes whatever was read into it.
    rw [seedNew, dif_pos (by simp; omega)]
    exact Outcome.ok_ne_panic _

theorem handleGetSeed_ne_panic : handleGetSeed ring faults ≠ .panic := by
  unfold handleGetSeed search unlessFault find
  cases faults.search with
  | some e => cases e <;> exact Outcome.err_ne_panic _
  | none =>
    cases ring with
    | some payload => exact readSeed_ne_panic payload _
    | none => exact Outcome.err_ne_panic _

theorem handleGetSeed_holding (seed : Seed) (hsearch : faults.search = .none)
    (hread : faults.read = .none) : handleGetSeed (some seed.bytes) faults = .ok seed := by
  unfold handleGetSeed search unlessFault find
  rw [hsearch]
  dsimp only
  unfold readSeed readKey unlessFault
  rw [hread]
  have hbuf : seed.bytes.take 32 ++ List.replicate (32 - seed.bytes.length) 0 = seed.bytes := by
    rw [seed.bytes_length, List.take_of_length_le (by rw [seed.bytes_length])]
    exact List.append_nil _
  rw [Outcome.mapErr_ok, Outcome.ok_bind, hbuf]
  dsimp only
  rw [Outcome.failIf, if_neg (by rw [seed.bytes_length]; decide), Outcome.ok_bind, seedNew,
    dif_pos seed.bytes_length]

end Handlers

/-! ## One call -/

/-- Nothing is in flight: the caller waits for every answer. -/
structure System.Idle (s : System) : Prop where
  requests : s.requests = []
  responses : s.responses = []

/-- What the caller makes of a response, or of none. -/
def reply {α : Type} : Outcome BackendError α → Except BackendError α
  | .ok a => .ok a
  | .err e => .error e
  | .panic => .error .workerDisconnect

section Calls

variable {E : Ed25519} {s : System} {ring ring' : Ring} {faults : Faults} {r : Request}

theorem request_ended (hw : s.worker = .ended) : s.request E r faults = (.none, s) := by
  unfold System.request System.send
  rw [hw]

theorem request_answered {response : Response} (hs : s.Idle) (hw : s.worker = .running ring)
    (hh : handle E ring faults r = (some response, ring')) :
    s.request E r faults = (some response, { s with worker := .running ring' }) := by
  obtain ⟨backend, worker, requests, responses⟩ := s
  obtain ⟨rfl, rfl⟩ : requests = [] ∧ responses = [] := ⟨hs.requests, hs.responses⟩
  obtain rfl : worker = .running ring := hw
  simp [System.request, System.send, System.serve, System.recv, hh]

theorem request_panicked (hs : s.Idle) (hw : s.worker = .running ring)
    (hh : handle E ring faults r = (.none, ring')) :
    s.request E r faults = (.none, { s with worker := .ended }) := by
  obtain ⟨backend, worker, requests, responses⟩ := s
  obtain ⟨rfl, rfl⟩ : requests = [] ∧ responses = [] := ⟨hs.requests, hs.responses⟩
  obtain rfl : worker = .running ring := hw
  simp [System.request, System.send, System.serve, System.recv, hh]

theorem same_worker (hw : s.worker = .running ring) : { s with worker := .running ring } = s := by
  rw [← hw]

/-- A request that only reads the keyring is answered, and changes nothing. -/
theorem request_reading {α : Type} {wrap : Except BackendError α → Response}
    {o : Outcome BackendError α} (hs : s.Idle) (hw : s.worker = .running ring)
    (hh : handle E ring faults r = (toResponse wrap o, ring)) (ho : o ≠ .panic) :
    s.request E r faults = (some (wrap (reply o)), s) := by
  cases o with
  | ok a =>
    rw [request_answered hs hw hh, same_worker hw]
    rfl
  | err e =>
    rw [request_answered hs hw hh, same_worker hw]
    rfl
  | panic => exact absurd rfl ho

theorem exec_getSeed (hs : s.Idle) (hw : s.worker = .running ring) :
    s.exec E (.getSeed faults) = (.getSeed (reply (handleGetSeed ring faults)), s) := by
  unfold System.exec
  dsimp only
  rw [request_reading hs hw rfl handleGetSeed_ne_panic]
  rfl

theorem exec_getSeed_ended (hw : s.worker = .ended) :
    s.exec E (.getSeed faults) = (.getSeed (.error .workerDisconnect), s) := by
  unfold System.exec
  dsimp only
  rw [request_ended hw]
  rfl

theorem handleSign_ne_panic {data : Bytes} : handleSign E ring data faults ≠ .panic :=
  Outcome.bind_ne_panic handleGetSeed_ne_panic fun _ _ => Outcome.ok_ne_panic _

theorem exec_sign {data : Bytes} (hs : s.Idle) (hw : s.worker = .running ring) :
    s.exec E (.sign data faults) = (.sign (reply (handleSign E ring data faults)), s) := by
  unfold System.exec
  dsimp only
  rw [request_reading hs hw rfl handleSign_ne_panic]
  rfl

theorem exec_sign_ended {data : Bytes} (hw : s.worker = .ended) :
    s.exec E (.sign data faults) = (.sign (.error .workerDisconnect), s) := by
  unfold System.exec
  dsimp only
  rw [request_ended hw]
  rfl

end Calls

/-- How a `store_seed` can end. -/
inductive StoreStep (E : Ed25519) (s : System) (seed : Seed) (faults : Faults) :
    Answer × System → Prop
  | ended : s.worker = .ended →
      StoreStep E s seed faults (.storeSeed (.error .workerDisconnect), s)
  | found (payload : Bytes) : s.worker = .running (some payload) → faults.search = .none →
      StoreStep E s seed faults
        (.storeSeed (.error .workerDisconnect), { s with worker := .ended })
  | refused (ring : Ring) (e : KeyError) : s.worker = .running ring →
      ¬ (faults.search = .none ∧ ring.isSome) → faults.addKey = some e →
      StoreStep E s seed faults (.storeSeed (.error (.krs e)), s)
  | halfWay (ring : Ring) (e : KeyError) : s.worker = .running ring →
      ¬ (faults.search = .none ∧ ring.isSome) → faults.addKey = .none →
      faults.setPerms = some e →
      StoreStep E s seed faults
        (.storeSeed (.error (.krs e)), { s with worker := .running (some seed.bytes) })
  | stored (ring : Ring) : s.worker = .running ring →
      ¬ (faults.search = .none ∧ ring.isSome) → faults.addKey = .none →
      faults.setPerms = .none →
      StoreStep E s seed faults
        (.storeSeed (.ok ()),
          { s with worker := .running (some seed.bytes), backend := ⟨some (E.publicKey seed), 32⟩ })

theorem search_isOk_iff {ring : Ring} {fault : Option KeyError} :
    (search ring fault).isOk ↔ fault = .none ∧ ring.isSome := by
  cases fault with
  | some e => simp [search, unlessFault, Outcome.isOk]
  | none => cases ring <;> simp [search, unlessFault, find, Outcome.isOk]

section Store

variable {E : Ed25519} {s : System} {ring : Ring} {seed : Seed} {faults : Faults} {e : KeyError}

theorem handle_found (hfound : faults.search = .none ∧ ring.isSome) :
    handle E ring faults (.storeSeed seed) = (.none, ring) := by
  simp [handle, handleStoreSeed, search_isOk_iff.mpr hfound, toResponse]

theorem search_isOk_of_not (hno : ¬ (faults.search = .none ∧ ring.isSome)) :
    (search ring faults.search).isOk = false := by
  refine Bool.eq_false_iff.mpr ?_
  intro h
  exact hno (search_isOk_iff.mp h)

theorem handle_refused (hno : ¬ (faults.search = .none ∧ ring.isSome))
    (hadd : faults.addKey = some e) :
    handle E ring faults (.storeSeed seed) = (some (.storeSeed (.error (.krs e))), ring) := by
  simp [handle, handleStoreSeed, search_isOk_of_not hno, addKey, unlessFault, hadd, toResponse]

/-- The seed goes onto the keyring, whatever becomes of its permissions. -/
theorem handle_added (E : Ed25519) (seed : Seed)
    (hno : ¬ (faults.search = .none ∧ ring.isSome)) (hadd : faults.addKey = .none) :
    handle E ring faults (.storeSeed seed) =
      (toResponse .storeSeed (finishStore E seed faults), some seed.bytes) := by
  simp [handle, handleStoreSeed, search_isOk_of_not hno, addKey, unlessFault, hadd]

theorem finishStore_err (hperms : faults.setPerms = some e) :
    finishStore E seed faults = .err (.krs e) := by
  simp [finishStore, setPerms, unlessFault, hperms, Outcome.mapErr]

theorem finishStore_ok (hperms : faults.setPerms = .none) :
    finishStore E seed faults = .ok ⟨E.publicKey seed, 32⟩ := by
  simp [finishStore, setPerms, unlessFault, hperms]

theorem exec_storeSeed (hs : s.Idle) (seed : Seed) (faults : Faults) :
    StoreStep E s seed faults (s.exec E (.storeSeed seed faults)) := by
  unfold System.exec
  dsimp only
  cases hw : s.worker with
  | ended =>
    rw [request_ended hw]
    exact .ended hw
  | running ring =>
    by_cases hfound : faults.search = .none ∧ ring.isSome
    · rw [request_panicked hs hw (handle_found hfound)]
      obtain ⟨hsearch, hring⟩ := hfound
      obtain ⟨payload, rfl⟩ := Option.isSome_iff_exists.mp hring
      exact .found payload hw hsearch
    · cases hadd : faults.addKey with
      | some e =>
        rw [request_answered hs hw (handle_refused hfound hadd), same_worker hw]
        exact .refused ring e hw hfound hadd
      | none =>
        have hh := handle_added E seed hfound hadd
        cases hperms : faults.setPerms with
        | some e =>
          rw [finishStore_err hperms] at hh
          rw [request_answered hs hw hh]
          exact .halfWay ring e hw hfound hadd hperms
        | none =>
          rw [finishStore_ok hperms] at hh
          rw [request_answered hs hw hh]
          exact .stored ring hw hfound hadd hperms

end Store

/-! ## Whole runs -/

/-- Between calls nothing is in flight, and what is on the keyring is a seed. -/
structure System.Sound (s : System) : Prop extends System.Idle s where
  sized : ∀ payload, s.worker = .running (some payload) → ∃ seed : Seed, seed.bytes = payload

/-- The worker holds `seed`, and the cached key is its public key. -/
structure System.Holds (E : Ed25519) (s : System) (seed : Seed) : Prop where
  ring : s.worker = .running (some seed.bytes)
  key : s.backend.publicKey = some (E.publicKey seed)

section Runs

variable {E : Ed25519} {s : System} {seed : Seed} {faults : Faults} {r : Answer × System}

theorem StoreStep.sound (hs : s.Sound) (h : StoreStep E s seed faults r) : r.2.Sound := by
  cases h with
  | ended hw => exact hs
  | found payload hw hsearch =>
    refine ⟨⟨hs.requests, hs.responses⟩, ?_⟩
    intro payload' hpayload
    simp at hpayload
  | refused ring e hw hno hadd => exact hs
  | halfWay ring e hw hno hadd hperms =>
    refine ⟨⟨hs.requests, hs.responses⟩, ?_⟩
    intro payload hpayload
    exact ⟨seed, by simpa using hpayload⟩
  | stored ring hw hno hadd hperms =>
    refine ⟨⟨hs.requests, hs.responses⟩, ?_⟩
    intro payload hpayload
    exact ⟨seed, by simpa using hpayload⟩

/-- Only `store_seed` changes anything. -/
theorem exec_reading (hs : s.Idle) {op : Op} (hop : ∀ seed faults, op ≠ .storeSeed seed faults) :
    (s.exec E op).2 = s := by
  cases op with
  | storeSeed seed faults => exact absurd rfl (hop seed faults)
  | getSeed faults =>
    cases hw : s.worker with
    | running ring => rw [exec_getSeed hs hw]
    | ended => rw [exec_getSeed_ended hw]
  | sign data faults =>
    cases hw : s.worker with
    | running ring => rw [exec_sign hs hw]
    | ended => rw [exec_sign_ended hw]
  | seedLen => rfl
  | publicKey => rfl

theorem exec_sound (hs : s.Sound) (op : Op) : (s.exec E op).2.Sound := by
  by_cases hop : ∃ seed faults, op = .storeSeed seed faults
  · obtain ⟨seed, faults, rfl⟩ := hop
    exact (exec_storeSeed hs.toIdle seed faults).sound hs
  · rw [exec_reading hs.toIdle fun seed faults h => hop ⟨seed, faults, h⟩]
    exact hs

theorem run_sound (hs : s.Sound) (ops : List Op) : (s.run E ops).Sound := by
  induction ops generalizing s with
  | nil => exact hs
  | cons op ops ih => exact ih (exec_sound hs op)

theorem new_sound (openFault searchFault : Option KeyError) :
    (System.new openFault searchFault).Sound := by
  refine ⟨⟨rfl, rfl⟩, ?_⟩
  intro payload hworker
  have h : startWorker openFault searchFault = .running (some payload) := hworker
  unfold startWorker at h
  split at h
  · simp at h
  · simp at h

/-! ### A calm store -/

theorem StoreStep.unchanged (h : StoreStep E s seed faults r)
    (hcalm : Calm s.worker (.storeSeed seed faults)) {e : BackendError}
    (herr : r.1 = .storeSeed (.error e)) : r.2 = s := by
  cases h with
  | ended hw => rfl
  | found payload hw hsearch =>
    rw [hw] at hcalm
    exact absurd ⟨hsearch, rfl⟩ hcalm.1
  | refused ring e' hw hno hadd => rfl
  | halfWay ring e' hw hno hadd hperms =>
    rw [hw] at hcalm
    have hring : ring = some seed.bytes := hcalm.2 hadd (by rw [hperms]; simp)
    rw [← hring, ← hw]
  | stored ring hw hno hadd hperms => simp at herr

/-- A store that is not calm fails, and the next `get_seed` can tell. -/
theorem StoreStep.noticed (hs : s.Sound) (h : StoreStep E s seed faults r)
    (hcalm : ¬ Calm s.worker (.storeSeed seed faults)) :
    (∃ e, r.1 = .storeSeed (.error e)) ∧
      (r.2.exec E (.getSeed .none)).1 ≠ (s.exec E (.getSeed .none)).1 := by
  have hidle := (h.sound hs).toIdle
  cases h with
  | ended hw =>
    rw [hw] at hcalm
    exact absurd trivial hcalm
  | found payload hw hsearch =>
    obtain ⟨seed', rfl⟩ := hs.sized payload hw
    refine ⟨⟨_, rfl⟩, ?_⟩
    rw [exec_getSeed_ended rfl, exec_getSeed hs.toIdle hw, handleGetSeed_holding seed' rfl rfl]
    simp [reply]
  | refused ring e hw hno hadd =>
    rw [hw] at hcalm
    exact absurd ⟨hno, fun h => by rw [hadd] at h; cases h⟩ hcalm
  | halfWay ring e hw hno hadd hperms =>
    have hring : ring ≠ some seed.bytes := by
      intro hring
      rw [hw] at hcalm
      exact hcalm ⟨hno, fun _ _ => hring⟩
    refine ⟨⟨_, rfl⟩, ?_⟩
    rw [exec_getSeed hidle rfl, exec_getSeed hs.toIdle hw, handleGetSeed_holding seed rfl rfl]
    cases ring with
    | none => simp [handleGetSeed, search, unlessFault, find, Faults.none, reply]
    | some payload =>
      obtain ⟨seed', rfl⟩ := hs.sized payload hw
      rw [handleGetSeed_holding seed' rfl rfl]
      intro hsame
      have hseed : seed = seed' := by simpa [reply] using hsame
      exact hring (by rw [hseed])
  | stored ring hw hno hadd hperms =>
    rw [hw] at hcalm
    exact absurd ⟨hno, fun _ h => absurd hperms h⟩ hcalm

theorem atomic_iff_calm (hs : s.Sound) :
    Atomic E s seed faults ↔ Calm s.worker (.storeSeed seed faults) := by
  have hstep := exec_storeSeed (E := E) hs.toIdle seed faults
  constructor
  · intro hatomic
    by_contra hcalm
    obtain ⟨⟨e, herr⟩, hdiffers⟩ := hstep.noticed hs hcalm
    have hsame := hatomic e herr [.getSeed .none]
    exact hdiffers (List.cons.inj hsame).1
  · intro hcalm e herr later
    rw [hstep.unchanged hcalm herr]

/-! ### The seed that was stored last -/

theorem System.Holds.serves (hs : s.Idle) (h : s.Holds E seed) : Serves E s seed where
  getSeed faults hsearch hread := by
    rw [exec_getSeed hs h.ring, handleGetSeed_holding seed hsearch hread]
    rfl
  sign data faults hsearch hread := by
    rw [exec_sign hs h.ring, handleSign, handleGetSeed_holding seed hsearch hread]
    rfl
  publicKey := by
    unfold System.exec
    dsimp only
    rw [h.key]
    rfl

theorem exec_holds (hs : s.Idle) {op : Op} (hcalm : Calm s.worker op) {last : Option Seed}
    (hlast : ∀ seed, last = some seed → s.Holds E seed) (seed : Seed)
    (hnow : (op.stores (s.exec E op).1).or last = some seed) : (s.exec E op).2.Holds E seed := by
  by_cases hop : ∃ seed faults, op = .storeSeed seed faults
  · obtain ⟨seed', faults, rfl⟩ := hop
    have hstep := exec_storeSeed (E := E) hs seed' faults
    generalize s.exec E (.storeSeed seed' faults) = r at *
    have hkept : ∀ e, r.1 = .storeSeed (.error e) → r.2.Holds E seed := by
      intro e herr
      rw [herr] at hnow
      rw [hstep.unchanged hcalm herr]
      exact hlast seed hnow
    cases hstep with
    | ended hw => exact hkept _ rfl
    | found payload hw hsearch => exact hkept _ rfl
    | refused ring e hw hno hadd => exact hkept _ rfl
    | halfWay ring e hw hno hadd hperms => exact hkept _ rfl
    | stored ring hw hno hadd hperms =>
      obtain rfl : seed' = seed := Option.some.inj hnow
      exact ⟨rfl, rfl⟩
  · have hread := fun seed faults h => hop ⟨seed, faults, h⟩
    have hnone : op.stores (s.exec E op).1 = .none := by
      cases op with
      | storeSeed seed faults => exact absurd rfl (hread seed faults)
      | _ => rfl
    rw [hnone] at hnow
    rw [exec_reading hs hread]
    exact hlast seed hnow

theorem run_holds (hs : s.Sound) (ops : List Op) (hcalm : CalmRun E s ops) {last : Option Seed}
    (hlast : ∀ seed, last = some seed → s.Holds E seed) (seed : Seed)
    (hnow : lastStored E s last ops = some seed) : (s.run E ops).Holds E seed := by
  induction ops generalizing s last with
  | nil => exact hlast seed hnow
  | cons op ops ih =>
    exact ih (exec_sound hs op) hcalm.2 (exec_holds hs.toIdle hcalm.1 hlast) hnow

end Runs

/-- After any run, `store_seed` is atomic exactly if the call is calm; and after a run of calm
calls, the seed that was stored last is the one that is served. -/
theorem storeSeed_atomic_iff_calm (E : Ed25519) (openFault searchFault : Option KeyError)
    (ops : List Op) :
    (∀ seed faults, Atomic E ((System.new openFault searchFault).run E ops) seed faults ↔
        Calm ((System.new openFault searchFault).run E ops).worker (.storeSeed seed faults)) ∧
      (CalmRun E (System.new openFault searchFault) ops →
        ∀ seed, lastStored E (System.new openFault searchFault) .none ops = some seed →
          Serves E ((System.new openFault searchFault).run E ops) seed) := by
  have hstart := new_sound openFault searchFault
  have hsound := run_sound (E := E) hstart ops
  constructor
  · intro seed faults
    exact atomic_iff_calm hsound
  · intro hcalm seed hlast
    have hnone : ∀ seed, (Option.none : Option Seed) = some seed →
        (System.new openFault searchFault).Holds E seed := by
      intro seed h
      cases h
    exact (run_holds hstart ops hcalm hnone seed hlast).serves hsound.toIdle

/-- One seed is stored and served. -/
theorem storeSeed_atomic_iff_calm_once :
    Serves Sample.ed25519
      ((System.new .none .none).run Sample.ed25519 [.storeSeed (Octets.fill 32 7) .none])
      (Octets.fill 32 7) :=
  (storeSeed_atomic_iff_calm Sample.ed25519 .none .none [.storeSeed (Octets.fill 32 7) .none]).2
    ⟨⟨fun h => Bool.false_ne_true h.2, fun _ h => absurd rfl h⟩, trivial⟩ (Octets.fill 32 7) rfl

/-- `set_perms` fails after the first seed was added, and `get_seed` serves it although nothing
was stored; a second seed is offered after one was stored, and nothing is served any more. -/
theorem storeSeed_not_atomic :
    ((System.new .none .none).answers Sample.ed25519
        [.storeSeed (Octets.fill 32 7) { Faults.none with setPerms := some (.other 13) },
          .getSeed .none] =
      [.storeSeed (.error (.krs (.other 13))), .getSeed (.ok (Octets.fill 32 7))] ∧
    (System.new .none .none).answers Sample.ed25519 [.getSeed .none] =
      [.getSeed (.error (.notFound "roughenough-seed"))] ∧
    ¬ Atomic Sample.ed25519 (System.new .none .none) (Octets.fill 32 7)
      { Faults.none with setPerms := some (.other 13) }) ∧
    ((System.new .none .none).answers Sample.ed25519
        [.storeSeed (Octets.fill 32 7) .none, .storeSeed (Octets.fill 32 8) .none,
          .getSeed .none] =
      [.storeSeed (.ok ()), .storeSeed (.error .workerDisconnect),
        .getSeed (.error .workerDisconnect)] ∧
    (System.new .none .none).answers Sample.ed25519
        [.storeSeed (Octets.fill 32 7) .none, .getSeed .none] =
      [.storeSeed (.ok ()), .getSeed (.ok (Octets.fill 32 7))]) := by
  refine ⟨⟨by decide, by decide, ?_⟩, by decide, by decide⟩
  intro h
  have hsame := h (.krs (.other 13)) (by decide) [.getSeed .none]
  revert hsame
  decide

end Roughenough.Keys.KeyRing
