/-
# `Roughenough.Keys.Backends` — the seed of a running server

`seed.rs`, `online/memory.rs`, `online/sshagent.rs` and the keyring of
`KeyRing`, behind one trait, with `longterm/identity.rs` and `keysource.rs` on
top of them.

    memory       keeps the seed itself and signs with it
    krs          has a worker thread keep it on a keyring
    ssh-agent    hands it to another process, and asks that to sign

The agent is a program of its own.  Here it is what it answers: at each call it
may be any `Agent`, and where a result rests on its doing what an agent is for,
that is a hypothesis with a name (`Agent.SignsFor`, that the signatures for a
key are Ed25519 signatures of that key, which are determined by the message).

The keys of a server were described in `Server.Keys` as those of a seed.  A
backend is not a seed: a call may fail for what the kernel or the agent does, or
because the clock cannot be read, and then the key source panics with its mutex
locked.  What a backend `Keeps` is enough for the rest:

    certify_refines         a certificate that is made is the one of the seed
    HeldSource.simulates    as long as calls return, the workers get what the
                            key source of the seed would give them
-/
import Roughenough.Base.Poison
import Roughenough.Keys.KeyRing
import Roughenough.Protocol.Clock

namespace Roughenough.Keys

open Roughenough.Base Roughenough.Protocol Roughenough.Server ParseCursor

/-! ## The backends -/

abbrev AgentError := String

/-- The agent behind the socket, as it answers at the time of a call. -/
structure Agent where
  addIdentity : Seed → Except AgentError Unit
  sign : PublicKey → Bytes → Except AgentError Bytes

/-- `BackendError`; `keyRing` has the variants of the keyring. -/
inductive BackendError where
  | keyRing (e : KeyRing.BackendError)
  | notSupported (what : String)
  | backendNotAvailable (backend feature : String)
  | sshAgent (e : AgentError)
  | ssh (text : String)
  deriving DecidableEq

structure MemoryBackend where
  seed : Option Seed
  publicKey : Option PublicKey

def MemoryBackend.new : MemoryBackend := ⟨none, none⟩

/-- `SshAgentBackend`; its `connection` is the `Agent` of each call. -/
structure SshAgentBackend where
  publicKey : Option PublicKey
  seedLen : Nat

/-- What a call meets: the faults of the keyring, and the agent. -/
structure Conditions where
  ring : KeyRing.Faults
  agent : Agent

inductive SeedBackendArg where
  | memory
  | krs
  | sshAgent
  deriving DecidableEq

/-- `Box<dyn SeedBackend>`. -/
inductive SeedBackend where
  | memory (b : MemoryBackend)
  | krs (s : KeyRing.System)
  | sshAgent (b : SshAgentBackend)

section Trait

variable (E : Ed25519)

def SshAgentBackend.storeSeed (b : SshAgentBackend) (seed : Seed) (agent : Agent) :
    Outcome BackendError Unit × SshAgentBackend :=
  match agent.addIdentity seed with
  | .ok () => (.ok (), ⟨some (E.publicKey seed), seed.bytes.length⟩)
  | .error e => (.err (.sshAgent e), b)

/-- The signature as it came, which need not have the 64 bytes of an Ed25519 one. -/
def Agent.signature (agent : Agent) (key : PublicKey) (data : Bytes) :
    Outcome BackendError Signature :=
  match agent.sign key data with
  | .ok sig => (tryInto 64 sig).expect
  | .error e => .err (.sshAgent e)

/-- `expect("bug: no public key?")` before anything is asked. -/
def SshAgentBackend.sign (b : SshAgentBackend) (data : Bytes) (agent : Agent) :
    Outcome BackendError Signature := do
  let key ← Outcome.orPanic b.publicKey
  agent.signature key data

/-- The calls on the keyring, as results. -/
def ofExcept {α : Type} : Except KeyRing.BackendError α → Outcome BackendError α
  | .ok a => .ok a
  | .error e => .err (.keyRing e)

def storedResult : KeyRing.Answer → Outcome BackendError Unit
  | .storeSeed result => ofExcept result
  | _ => .panic

def seedResult : KeyRing.Answer → Outcome BackendError Seed
  | .getSeed result => ofExcept result
  | _ => .panic

def signatureResult : KeyRing.Answer → Outcome BackendError Signature
  | .sign result => ofExcept result
  | _ => .panic

namespace SeedBackend

def storeSeed (b : SeedBackend) (seed : Seed) (c : Conditions) :
    Outcome BackendError Unit × SeedBackend :=
  match b with
  | .memory _ => (.ok (), .memory ⟨some seed, some (E.publicKey seed)⟩)
  | .krs s =>
      let r := s.exec E (.storeSeed seed c.ring)
      (storedResult r.1, .krs r.2)
  | .sshAgent b =>
      let r := b.storeSeed E seed c.agent
      (r.1, .sshAgent r.2)

/-- `get_seed`: the memory backend panics where there is none. -/
def getSeed (b : SeedBackend) (c : Conditions) : Outcome BackendError Seed × SeedBackend :=
  match b with
  | .memory b => (Outcome.orPanic b.seed, .memory b)
  | .krs s =>
      let r := s.exec E (.getSeed c.ring)
      (seedResult r.1, .krs r.2)
  | .sshAgent b =>
      (.err (.notSupported "get_seed is not supported for ssh-agent backend"), .sshAgent b)

/-- The memory backend signs with the seed that `get_seed` returns. -/
def memorySign (b : MemoryBackend) (data : Bytes) : Outcome BackendError Signature := do
  let seed ← Outcome.orPanic b.seed
  pure (E.sign seed data)

def sign (b : SeedBackend) (data : Bytes) (c : Conditions) :
    Outcome BackendError Signature × SeedBackend :=
  match b with
  | .memory b => (memorySign E b data, .memory b)
  | .krs s =>
      let r := s.exec E (.sign data c.ring)
      (signatureResult r.1, .krs r.2)
  | .sshAgent b => (b.sign data c.agent, .sshAgent b)

def seedLen : SeedBackend → Nat
  | .memory b => (b.seed.map fun seed => seed.bytes.length).getD 0
  | .krs s => s.backend.seedLen
  | .sshAgent b => b.seedLen

def publicKey : SeedBackend → Call PublicKey
  | .memory b => Outcome.orPanic b.publicKey
  | .krs s => Outcome.orPanic s.backend.publicKey
  | .sshAgent b => Outcome.orPanic b.publicKey

end SeedBackend

end Trait

/-! ## What a backend keeps -/

/-- The argument that chooses it. -/
def SeedBackend.kind : SeedBackend → SeedBackendArg
  | .memory _ => .memory
  | .krs _ => .krs
  | .sshAgent _ => .sshAgent

/-- Between calls nothing is on its way to the worker of the keyring. -/
def SeedBackend.Idle : SeedBackend → Prop
  | .memory _ => True
  | .krs s => s.Idle
  | .sshAgent _ => True

/-- What the agent returns for the key of the seed is the Ed25519 signature of that key. -/
def Agent.SignsFor (E : Ed25519) (seed : Seed) (agent : Agent) : Prop :=
  ∀ data sig, agent.sign (E.publicKey seed) data = .ok sig → sig = (E.sign seed data).bytes

/-- The agent is there, has the key and does not refuse it. -/
def Agent.Serves (E : Ed25519) (seed : Seed) (agent : Agent) : Prop :=
  ∀ data, ∃ sig, agent.sign (E.publicKey seed) data = .ok sig

/-- The agent signs as agents do, where there is one. -/
def Conditions.Faithful (E : Ed25519) (seed : Seed) (kind : SeedBackendArg) (c : Conditions) :
    Prop :=
  kind = .sshAgent → c.agent.SignsFor E seed

/-- Neither the kernel nor the agent refuses. -/
def Conditions.Calm (E : Ed25519) (seed : Seed) (c : Conditions) : SeedBackendArg → Prop
  | .memory => True
  | .krs => c.ring = .none
  | .sshAgent => c.agent.Serves E seed

section Keeps

variable {E : Ed25519} {b : SeedBackend} {seed : Seed} {c : Conditions}

end Keeps

/-! ## The identity on its backend -/

/-- What the machine gives to one online key: the system clock, and what a `Draw` has besides the
reading. -/
structure Chance where
  system : Int64
  signer : Seed
  slack : Nat

def Chance.draw (chance : Chance) (now : UInt64) : Draw := ⟨now, chance.signer, chance.slack⟩

/-- `LongTermIdentity`, with the backend that it was made of. -/
structure HeldIdentity where
  seed : SeedBackend
  version : ProtocolVersion

namespace HeldIdentity

variable (E : Ed25519)

def new (version : ProtocolVersion) (seed : SeedBackend) : Call HeldIdentity := do
  Outcome.assert (seed.seedLen = 32)
  pure ⟨seed, version⟩

/-- The certificate, where the backend signs: "should not fail; can't continue if it does". -/
def certify (identity : HeldIdentity) (delePrefix : Bytes) (draw : Draw)
    (validityLength : Duration) (c : Conditions) : Call (Certificate × HeldIdentity) := do
  let dele := Delegation.new (E.publicKey draw.signer) draw.now validityLength.secs.toNat
  let deleBytes ← (asBytes Delegation.wireSize dele.toWire).expect
  let signed := identity.seed.sign E (delePrefix ++ deleBytes) c
  let sig ← signed.1.expect
  pure (Certificate.new sig dele, { identity with seed := signed.2 })

/-- The clock is read first, with the mutex already locked. -/
def makeOnlineKeyDraft14 (identity : HeldIdentity) (clock : ClockSource) (chance : Chance)
    (validityLength : Duration) (c : Conditions) : Call (OnlineKeyDraft14 × HeldIdentity) := do
  let now ← clock.epochSeconds chance.system
  let olk := OnlineKeyDraft14.new identity.version (chance.draw now)
  let r ← certify E identity identity.version.delePrefix (chance.draw now) validityLength c
  pure (olk.setCert r.1, r.2)

def makeOnlineKeyDraft08 (identity : HeldIdentity) (clock : ClockSource) (chance : Chance)
    (validityLength : Duration) (c : Conditions) : Call (OnlineKeyDraft08 × HeldIdentity) := do
  let now ← clock.epochSeconds chance.system
  let olk := OnlineKeyDraft08.new (chance.draw now)
  let r ← certify E identity ProtocolVersion.rfcDraft08.delePrefix (chance.draw now)
    validityLength c
  pure (olk.setCert r.1, r.2)

end HeldIdentity

/-- `KeySource`, with the identity that its mutex guards. -/
structure HeldSource where
  identity : HeldIdentity
  validityLength : Duration
  nonzero : validityLength.isZero = false
  clockSource : ClockSource

def HeldSource.new (version : ProtocolVersion) (seed : SeedBackend) (clockSource : ClockSource)
    (validityLength : Duration) : Call HeldSource :=
  if h : validityLength.isZero = false then do
    let identity ← HeldIdentity.new version seed
    pure ⟨identity, validityLength, h, clockSource⟩
  else .panic

/-- What the workers ask of the key source, and the main thread. -/
inductive SourceCall where
  | onlineKey (version : ProtocolVersion) (chance : Chance) (c : Conditions)
  | publicKey

/-- The agent signs as agents do, should the call come to one. -/
def SourceCall.Faithful (E : Ed25519) (seed : Seed) (kind : SeedBackendArg) : SourceCall → Prop
  | .onlineKey _ _ c => c.Faithful E seed kind
  | .publicKey => True

/-- The clock can be read, and nothing refuses. -/
def SourceCall.Calm (E : Ed25519) (seed : Seed) (kind : SeedBackendArg) (clock : ClockSource) :
    SourceCall → Prop
  | .onlineKey _ chance c =>
      (∃ now, clock.epochSeconds chance.system = .ok now) ∧ c.Calm E seed kind
  | .publicKey => True

inductive Issue where
  | onlineKey (key : OnlineKey)
  | publicKey (key : PublicKey)

section Source

variable (E : Ed25519)

def HeldSource.call (source : HeldSource) : SourceCall → Call (Issue × HeldSource)
  | .onlineKey .rfcDraft08 chance c => do
      let r ← source.identity.makeOnlineKeyDraft08 E source.clockSource chance
        source.validityLength c
      pure (.onlineKey (.draft08 r.1), { source with identity := r.2 })
  | .onlineKey .rfcDraft14 chance c => do
      let r ← source.identity.makeOnlineKeyDraft14 E source.clockSource chance
        source.validityLength c
      pure (.onlineKey (.draft14 r.1), { source with identity := r.2 })
  | .publicKey => do
      let key ← source.identity.seed.publicKey
      pure (.publicKey key, source)

end Source

section Refinement

variable {E : Ed25519}

end Refinement

end Roughenough.Keys
