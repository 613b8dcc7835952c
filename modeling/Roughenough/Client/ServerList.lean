/-
# `Roughenough.Client.ServerList` — from a server list to clients

`server_list.rs`, and `clients_from_list` of `main.rs`.  A list is validated when
it is loaded, and later code relies on it with `expect` and `[0]`:

    first_address()         the entry has an address
    host(), port()          it is of the form `host:port`
    protocol_version()      what is there can be parsed

`choose_random` shuffles the whole list and takes the first entries, so that the
same entry is not taken twice.  Nothing compares the entries: two of them may be
one server.  The transport of an address is read and never looked at.

Reading JSON is left to serde_json: a list is given by its fields.
-/
import Mathlib.Data.List.Forall2
import Mathlib.Data.List.Perm.Subperm
import Roughenough.Client.Address
import Roughenough.Client.Runs
import Roughenough.Common.Ambiguity

namespace Roughenough.Client

open Roughenough.Base Roughenough.Protocol Roughenough.Merkle Roughenough.Common

/-! ## The entries -/

/-- `ProtocolVersion::from_str`. -/
def parseVersion (s : List Char) : Option ProtocolVersion :=
  let lower := s.map Char.toLower
  if lower = "8".toList ∨ lower = "draft-08".toList ∨ lower = "draft08".toList then
    some .rfcDraft08
  else if lower = "14".toList ∨ lower = "draft-14".toList ∨ lower = "draft14".toList ∨
      lower = "ietf-roughtime".toList then some .rfcDraft14
  else none

structure Server where
  name : List Char
  version : List Char
  protocolVersion : Option (List Char)
  publicKeyType : List Char
  publicKey : List Char
  addresses : List Address
  deriving DecidableEq

/-- `ServerList` with all of its fields; the retry loop reads the last one only. -/
structure FullServerList where
  servers : List Server
  sources : Option (List (List Char))
  reportingUrl : Option (List Char)

/-- The errors of `server_list.rs`. -/
inductive ListError where
  | emptyField (field : List Char)
  | badAddress (e : ServerListError)
  | invalidUrl (reason : List Char)
  | configError (message : List Char)
  | invalidProtocolVersion (server value : List Char)
  deriving DecidableEq

/-- A field that has to be there. -/
def nonEmpty (value field : List Char) : Outcome ListError Unit :=
  Outcome.failIf (value = []) (.emptyField field)

namespace Server

def validate (s : Server) : Outcome ListError Unit := do
  nonEmpty s.name "name".toList
  nonEmpty s.version "version".toList
  nonEmpty s.publicKeyType "publicKeyType".toList
  nonEmpty s.publicKey "publicKey".toList
  Outcome.failIf (s.addresses = []) (.emptyField (s.name ++ ".addresses".toList))
  s.addresses.forM fun address => address.validate.mapErr .badAddress
  match s.protocolVersion with
  | some value =>
      Outcome.failIf ((parseVersion value).isNone = true) (.invalidProtocolVersion s.name value)
  | none => pure ()

def firstAddress (s : Server) : Call Address := Outcome.orPanic s.addresses.head?

/-- The version of the wire format, with `expect`. -/
def wireVersion (s : Server) : Call ProtocolVersion :=
  match s.protocolVersion with
  | some value => Outcome.orPanic (parseVersion value)
  | none => pure .rfcDraft14

end Server

def https : List Char := "https://".toList

namespace FullServerList

def validate (l : FullServerList) : Outcome ListError Unit := do
  Outcome.failIf (l.servers = []) (.emptyField "server list".toList)
  l.servers.forM Server.validate
  (l.sources.getD []).forM fun url => Outcome.failIf (¬ https <+: url)
    (.invalidUrl ("Source URL must use HTTPS scheme: ".toList ++ url))
  match l.reportingUrl with
  | some reports =>
      Outcome.failIf (¬ https <+: reports)
        (.invalidUrl ("Reports URL must use HTTPS scheme: ".toList ++ reports))
  | none => pure ()

/-- `choose_random`, with what `fastrand::shuffle` does. -/
def chooseRandom (shuffle : List Server → List Server) (l : FullServerList) (n : Nat) :
    Outcome ListError (List Server) := do
  Outcome.failIf (n > l.servers.length) (.configError ("requested ".toList ++
    (toString n).toList ++ " servers but only ".toList ++ (toString l.servers.length).toList ++
    " available".toList))
  pure ((shuffle l.servers).take n)

end FullServerList

/-! ## The clients -/

/-- The errors of `main.rs`; of an IO error nothing else is known. -/
inductive CliError where
  | io
  | dnsLookupFailed (host : List Char)
  | serverList (e : ListError)
  | decode (e : DecodeError)
  deriving DecidableEq

/-- `format!("{host}:{port}")`. -/
def hostPort (host : List Char) (port : UInt16) : List Char :=
  host ++ ':' :: Nat.toDigits 10 port.toNat

/-- `to_socket_addrs`: the addresses, or an error. -/
abbrev Resolver := List Char → Option (List SocketAddr)

section Clients

variable (H : Bytes → Hash) (decoders : Decoders) (resolve : Resolver) (bind : Bind)
  (timeout : Duration)

/-- `to_socket_addrs()?.next().ok_or_else(..)`. -/
def firstSocketAddr (host : List Char) (port : UInt16) : Outcome CliError SocketAddr :=
  match resolve (hostPort host port) with
  | none => .err .io
  | some [] => .err (.dnsLookupFailed host)
  | some (addr :: _) => .ok addr

/-- A call inside a function that returns a `CliError`. -/
def liftCall {α : Type} (x : Call α) : Outcome CliError α := x.mapErr Empty.elim

/-- The body of the loop of `clients_from_list`. -/
def clientOf (server : Server) : Outcome CliError Client := do
  let address ← liftCall server.firstAddress
  let host ← liftCall address.host
  let port ← liftCall address.port
  let sockAddr ← firstSocketAddr resolve host port
  let publicKey ← (tryDecodeKey decoders server.publicKey).mapErr .decode
  let version ← liftCall server.wireVersion
  liftCall (ClientBuilder.build H bind
    ⟨sockAddr, String.ofList server.name, none, some timeout, some publicKey, version⟩)

def clientsFromList (shuffle : List Server → List Server) (l : FullServerList) (n : Nat) :
    Outcome CliError (List Client) := do
  let targetServers ← (l.chooseRandom shuffle n).mapErr .serverList
  targetServers.foldlM (fun clients server => do
    let client ← clientOf H decoders resolve bind timeout server
    pure (clients ++ [client])) []

end Clients

/-! ## What validation is good for -/

/-- What later code relies on. -/
structure Server.Usable (s : Server) : Prop where
  addressed : s.addresses ≠ []
  addresses : ∀ a ∈ s.addresses, a.validate = .ok ()
  version : ∀ value, s.protocolVersion = some value → parseVersion value ≠ none

theorem Server.usable_of_validate {s : Server} (h : s.validate = .ok ()) : s.Usable := by
  unfold Server.validate at h
  obtain ⟨_, -, h⟩ := Outcome.bind_ok_iff.mp h
  obtain ⟨_, -, h⟩ := Outcome.bind_ok_iff.mp h
  obtain ⟨_, -, h⟩ := Outcome.bind_ok_iff.mp h
  obtain ⟨_, -, h⟩ := Outcome.bind_ok_iff.mp h
  obtain ⟨_, haddressed, h⟩ := Outcome.bind_ok_iff.mp h
  obtain ⟨_, haddresses, hversion⟩ := Outcome.bind_ok_iff.mp h
  refine ⟨Outcome.failIf_ok_iff.mp haddressed, ?_, ?_⟩
  · intro a ha
    exact Outcome.mapErr_ok_iff.mp (Outcome.forM_ok_iff.mp haddresses a ha)
  · intro value hvalue hnone
    rw [hvalue] at hversion
    exact Outcome.failIf_ok_iff.mp hversion (Option.isNone_iff_eq_none.mpr hnone)

theorem FullServerList.usable_of_validate {l : FullServerList} (h : l.validate = .ok ()) :
    ∀ s ∈ l.servers, s.Usable := by
  unfold FullServerList.validate at h
  obtain ⟨_, -, h⟩ := Outcome.bind_ok_iff.mp h
  obtain ⟨_, hservers, -⟩ := Outcome.bind_ok_iff.mp h
  intro s hs
  exact Server.usable_of_validate (Outcome.forM_ok_iff.mp hservers s hs)

section Usable

variable {s : Server}

theorem Server.Usable.firstAddress (h : s.Usable) :
    ∃ a host port, s.firstAddress = .ok a ∧ a.host = .ok host ∧ a.port = .ok port := by
  obtain ⟨a, later, haddresses⟩ := List.exists_cons_of_ne_nil h.addressed
  have hvalid := h.addresses a (by rw [haddresses]; exact List.mem_cons_self)
  obtain ⟨host, portStr, port, htext, hhost, hport⟩ := Address.validate_ok_iff.mp hvalid
  obtain ⟨hh, hp⟩ := Address.pieces htext hhost hport
  refine ⟨a, host, port, ?_, hh, hp⟩
  unfold Server.firstAddress
  rw [haddresses]
  rfl

/-- The version that an entry asks for. -/
def Server.asksFor (s : Server) : ProtocolVersion :=
  (s.protocolVersion.bind parseVersion).getD .rfcDraft14

theorem Server.Usable.wireVersion (h : s.Usable) : s.wireVersion = .ok s.asksFor := by
  unfold Server.wireVersion Server.asksFor
  cases hversion : s.protocolVersion with
  | none => rfl
  | some value =>
      obtain ⟨version, hparse⟩ := Option.ne_none_iff_exists'.mp (h.version value hversion)
      dsimp only [Option.bind_some]
      rw [hparse]
      rfl

end Usable

theorem tryDecodeKey_ne_panic {decoders : Decoders} (hd : Strict decoders) (text : List Char) :
    tryDecodeKey decoders text ≠ .panic := by
  unfold tryDecodeKey
  refine Outcome.bind_ne_panic (tryDecode_ne_panic hd text) fun key _ => ?_
  refine Outcome.bind_ne_panic Outcome.failIf_ne_panic fun _ hlen => ?_
  unfold publicKeyFrom
  rw [dif_pos (not_not.mp (Outcome.failIf_ok_iff.mp hlen))]
  exact Outcome.ok_ne_panic _

theorem firstSocketAddr_ne_panic (resolve : Resolver) (host : List Char) (port : UInt16) :
    firstSocketAddr resolve host port ≠ .panic := by
  unfold firstSocketAddr
  split
  · exact Outcome.err_ne_panic _
  · exact Outcome.err_ne_panic _
  · exact Outcome.ok_ne_panic _

/-- What a client is to the entry it was made from. -/
structure ClientFor (decoders : Decoders) (resolve : Resolver) (bind : Bind) (timeout : Duration)
    (server : Server) (client : Client) : Prop where
  transport : UdpTransport.new bind timeout client.server = .ok ()
  hostname : client.hostname = String.ofList server.name
  version : client.protocolVersion = server.asksFor
  key : ∃ K, tryDecodeKey decoders server.publicKey = .ok K ∧ client.publicKey = some K
  address : ∃ a host port later, server.addresses.head? = some a ∧ a.host = .ok host ∧
    a.port = .ok port ∧ resolve (hostPort host port) = some (client.server :: later)

section Made

variable {H : Bytes → Hash} {decoders : Decoders} {resolve : Resolver} {bind : Bind}
  {timeout : Duration} {server : Server}

theorem clientOf_ne_panic (hd : Strict decoders) (h : server.Usable)
    (hsockets : ∀ target, UdpTransport.new bind timeout target = .ok ()) :
    clientOf H decoders resolve bind timeout server ≠ .panic := by
  obtain ⟨a, host, port, ha, hhost, hport⟩ := h.firstAddress
  unfold clientOf liftCall
  rw [ha, Outcome.mapErr_ok, Outcome.ok_bind, hhost, Outcome.mapErr_ok, Outcome.ok_bind, hport,
    Outcome.mapErr_ok, Outcome.ok_bind, h.wireVersion]
  refine Outcome.bind_ne_panic (firstSocketAddr_ne_panic resolve host port) fun addr _ => ?_
  refine Outcome.bind_ne_panic (Outcome.mapErr_ne_panic (tryDecodeKey_ne_panic hd _)) fun K _ => ?_
  exact Outcome.mapErr_ne_panic (ClientBuilder.build_ne_panic rfl (hsockets addr))

theorem clientOf_ok {client : Client} (h : server.Usable)
    (hclient : clientOf H decoders resolve bind timeout server = .ok client) :
    ClientFor decoders resolve bind timeout server client := by
  obtain ⟨a, host, port, ha, hhost, hport⟩ := h.firstAddress
  unfold clientOf liftCall at hclient
  rw [ha, Outcome.mapErr_ok, Outcome.ok_bind, hhost, Outcome.mapErr_ok, Outcome.ok_bind, hport,
    Outcome.mapErr_ok, Outcome.ok_bind, h.wireVersion] at hclient
  obtain ⟨addr, haddr, hclient⟩ := Outcome.bind_ok_iff.mp hclient
  obtain ⟨K, hK, hclient⟩ := Outcome.bind_ok_iff.mp hclient
  obtain ⟨hsocket, rfl⟩ := (ClientBuilder.build_ok_iff rfl).mp (Outcome.mapErr_ok_iff.mp hclient)
  refine ⟨hsocket, rfl, rfl, ⟨K, Outcome.mapErr_ok_iff.mp hK, rfl⟩, a, host, port, ?_⟩
  have hhead : server.addresses.head? = some a := Outcome.orPanic_ok_iff.mp ha
  unfold firstSocketAddr at haddr
  split at haddr
  · cases haddr
  · cases haddr
  · next addr' later hresolve =>
      cases haddr
      exact ⟨later, hhead, hhost, hport, hresolve⟩

/-- The loop makes one client for each server. -/
theorem clients_forall₂ {servers : List Server} {clients : List Client}
    (husable : ∀ s ∈ servers, s.Usable)
    (h : servers.foldlM (fun clients server => do
      let client ← clientOf H decoders resolve bind timeout server
      pure (clients ++ [client])) [] = .ok clients) :
    List.Forall₂ (ClientFor decoders resolve bind timeout) servers clients := by
  refine Outcome.foldlM_invariant (List.Forall₂ (ClientFor decoders resolve bind timeout)) []
    ?_ .nil h
  intro done server made made' hserver hmade hstep
  obtain ⟨client, hclient, hmade'⟩ := Outcome.bind_ok_iff.mp hstep
  cases hmade'
  exact List.rel_append hmade (.cons (clientOf_ok (husable server hserver) hclient) .nil)

theorem exists_server {servers : List Server} {clients : List Client}
    (h : List.Forall₂ (ClientFor decoders resolve bind timeout) servers clients) {client : Client}
    (hclient : client ∈ clients) :
    ∃ server ∈ servers, ClientFor decoders resolve bind timeout server client := by
  induction h with
  | nil => exact absurd hclient List.not_mem_nil
  | @cons server first servers clients hfor _ ih =>
      rcases List.mem_cons.mp hclient with rfl | hlater
      · exact ⟨server, List.mem_cons_self, hfor⟩
      · obtain ⟨server', hserver', hfor'⟩ := ih hlater
        exact ⟨server', List.mem_cons_of_mem _ hserver', hfor'⟩

/-- Entries with different keys have clients with different keys. -/
theorem keys_nodup {servers : List Server} {clients : List Client}
    (h : List.Forall₂ (ClientFor decoders resolve bind timeout) servers clients)
    (hnodup : (servers.map fun s => tryDecodeKey decoders s.publicKey).Nodup) :
    (clients.map Client.publicKey).Nodup := by
  induction h with
  | nil => exact List.nodup_nil
  | @cons server client servers clients hfor hlater ih =>
      obtain ⟨hnew, hnodup⟩ := List.nodup_cons.mp hnodup
      refine List.nodup_cons.mpr ⟨fun hmem => ?_, ih hnodup⟩
      obtain ⟨K, hK, hkey⟩ := hfor.key
      obtain ⟨other, hother, hsame⟩ := List.mem_map.mp hmem
      obtain ⟨server', hserver', hfor'⟩ := exists_server hlater hother
      obtain ⟨K', hK', hkey'⟩ := hfor'.key
      rw [hkey, hkey'] at hsame
      obtain rfl : K' = K := Option.some.inj hsame
      exact hnew (List.mem_map.mpr ⟨server', hserver', hK'.trans hK.symm⟩)

end Made

/-- A list that was validated does not make `clients_from_list` panic as long as a transport can be
had for every target; there is none under a timeout of zero.  The clients that it returns are
those of as many entries as were asked for, none of them taken twice, each with the name, the key,
the version and a resolved first address of its entry; and if no two entries have one key, no two
clients have. -/
theorem clientsFromList_faithful (H : Bytes → Hash) (decoders : Decoders) (hd : Strict decoders)
    (resolve : Resolver) (bind : Bind) (timeout : Duration) (shuffle : List Server → List Server)
    (hshuffle : ∀ servers, (shuffle servers).Perm servers) (l : FullServerList)
    (hvalid : l.validate = .ok ()) (n : Nat) :
    ((∀ target, bind target = .ok ()) → timeout.isZero = false →
      clientsFromList H decoders resolve bind timeout shuffle l n ≠ .panic) ∧
    ∀ clients, clientsFromList H decoders resolve bind timeout shuffle l n = .ok clients →
      ∃ chosen, chosen.Subperm l.servers ∧ chosen.length = n ∧
        List.Forall₂ (ClientFor decoders resolve bind timeout) chosen clients ∧
        ((l.servers.map fun s => tryDecodeKey decoders s.publicKey).Nodup →
          (clients.map Client.publicKey).Nodup) := by
  have husable := FullServerList.usable_of_validate hvalid
  have hchosen : ∀ s ∈ (shuffle l.servers).take n, s.Usable :=
    fun s hs => husable s ((hshuffle l.servers).subset (List.mem_of_mem_take hs))
  constructor
  · intro hbind htimeout
    have hsockets : ∀ target, UdpTransport.new bind timeout target = .ok () :=
      fun target => UdpTransport.new_ok_iff.mpr ⟨hbind target, htimeout⟩
    refine Outcome.bind_ne_panic (Outcome.mapErr_ne_panic ?_) ?_
    · unfold FullServerList.chooseRandom
      exact Outcome.bind_ne_panic Outcome.failIf_ne_panic fun _ _ => Outcome.ok_ne_panic _
    · intro targets htargets
      obtain ⟨_, -, htargets⟩ := Outcome.bind_ok_iff.mp (Outcome.mapErr_ok_iff.mp htargets)
      cases htargets
      refine Outcome.foldlM_ne_panic ?_ _
      intro made server hserver
      refine Outcome.bind_ne_panic (clientOf_ne_panic hd (hchosen server hserver) hsockets) ?_
      exact fun client _ => Outcome.ok_ne_panic _
  · intro clients h
    obtain ⟨targets, htargets, hloop⟩ := Outcome.bind_ok_iff.mp h
    obtain ⟨_, hn, htargets⟩ := Outcome.bind_ok_iff.mp (Outcome.mapErr_ok_iff.mp htargets)
    cases htargets
    have hn : n ≤ l.servers.length := Nat.le_of_not_lt (Outcome.failIf_ok_iff.mp hn)
    have hsub : ((shuffle l.servers).take n).Subperm l.servers :=
      (List.take_sublist n _).subperm.trans (hshuffle l.servers).subperm
    have hlen : ((shuffle l.servers).take n).length = n := by
      rw [List.length_take, (hshuffle l.servers).length_eq, Nat.min_eq_left hn]
    have hmade := clients_forall₂ hchosen hloop
    refine ⟨_, hsub, hlen, hmade, fun hnodup => keys_nodup hmade ?_⟩
    exact (((hshuffle l.servers).map _).nodup_iff.mpr hnodup).sublist
      ((List.take_sublist n _).map _)

/-! ### Three entries of one list -/

/-- An entry with a key of 32 equal bytes. -/
def sampleServer (letter : Char) : Server where
  name := [letter]
  version := "1".toList
  protocolVersion := some "Draft-08".toList
  publicKeyType := "ed25519".toList
  publicKey := List.replicate 64 letter
  addresses := [⟨.tcp, "h:2002".toList⟩]

def sampleList : FullServerList where
  servers := ['a', 'b', 'c', 'd'].map sampleServer
  sources := none
  reportingUrl := some "https://r".toList

def sampleRun (timeout : Duration) : Outcome CliError (List Client) :=
  clientsFromList (fun _ => Octets.zero 32) canonical (fun _ => some [Network.address])
    (fun _ => .ok ()) timeout List.reverse sampleList 3

theorem clientsFromList_faithful_three : sampleRun (.fromSecs 2) ≠ .panic ∧
    ∃ clients, sampleRun (.fromSecs 2) = .ok clients ∧
      clients.length = 3 ∧ (clients.map Client.publicKey).Nodup := by
  have hrun : (sampleRun (.fromSecs 2)).isOk = true := by decide +kernel
  obtain ⟨clients, hclients⟩ := Outcome.isOk_iff.mp hrun
  obtain ⟨hreturns, hall⟩ := clientsFromList_faithful (fun _ => Octets.zero 32) canonical
    canonical_strict (fun _ => some [Network.address]) (fun _ => .ok ()) (.fromSecs 2)
    List.reverse List.reverse_perm sampleList (by decide +kernel) 3
  obtain ⟨chosen, -, hlen, hmade, hnodup⟩ := hall clients hclients
  exact ⟨hreturns (fun _ => rfl) (by decide), clients, hclients,
    by rw [← hmade.length_eq, hlen], hnodup (by decide +kernel)⟩

/-- With `--timeout 0` there is no transport. -/
example : sampleRun (.fromSecs 0) = .panic := by rfl

end Roughenough.Client
