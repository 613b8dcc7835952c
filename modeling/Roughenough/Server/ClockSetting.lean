/-
# `Roughenough.Server.ClockSetting` — from a worker's clock to the client's

`--set-clock` end to end: the arguments of the client on the one side, the workers
of a server on the other, and between them a network that may do anything.

    the clock is set     the midpoint is that of the last server that was asked
    that server's key    it is the key of the entry, or of the command line
    no exit taken        a worker read the midpoint from its clock after it was
                         handed the request

So what the clock shows rests on one server, whichever the others were.  Without a
key on the command line it rests on nothing.
-/
import Roughenough.Client.Cli
import Roughenough.Server.Accountability

namespace Roughenough.Server

open Roughenough.Base Roughenough.Protocol Roughenough.Merkle Roughenough.Client
open Roughenough.Common ResponseValidator MeasurementSequence

/-- What is known of the measurement that the clock was set by. -/
structure Source (E : Ed25519) (H : Bytes → Hash) (w : Surroundings) (m : Measurement) : Prop where
  accepted : ∃ (client : Client) (attempt asked : Nat) (packet : Bytes) (addr : SocketAddr),
    m.publicKey = client.publicKey ∧
    (w.exchange attempt asked).recv = .ok (packet, addr) ∧
    acceptResponse E.verify H client (framed m.request.encode) (packet.take bufSize) =
      .ok m.response ∧
    -- with the key of an identity, and a packet whose SREP is covered
    ∀ seed, m.publicKey = some (E.publicKey seed) →
      CoveredSrep (packet.take bufSize) client.protocolVersion →
      -- the time was read after the request was sent, or the packet takes an exit
      ∀ debug configs sent later,
        Unseen client.protocolVersion (framed m.request.encode) sent →
          Escaped E H debug configs (sent ++ later) seed client (w.exchange attempt asked) m ∨
          (ReadAfter configs client.protocolVersion (framed m.request.encode) later m.midpoint ∧
            m.radius = 5)

section Sources

variable {E : Ed25519} {H : Bytes → Hash} {decoders : Decoders} {debug : Bool} {args : CliArgs}
  {w : Surroundings} {m : Measurement}

theorem source_of_accepted {client : Client} {attempt asked : Nat} {packet : Bytes}
    {addr : SocketAddr} (hkey : m.publicKey = client.publicKey)
    (hrecv : (w.exchange attempt asked).recv = .ok (packet, addr))
    (haccept : acceptResponse E.verify H client (framed m.request.encode) (packet.take bufSize) =
      .ok m.response) : Source E H w m := by
  refine ⟨client, attempt, asked, packet, addr, hkey, hrecv, haccept, ?_⟩
  intro seed hseed hcovered debug configs sent later hunseen
  rcases acceptResponse_readAfter debug configs later haccept (hkey.symm.trans hseed) hcovered
    hunseen with ⟨p, hpresents, hescape⟩ | hread
  · exact .inl ⟨packet, addr, p, hrecv, hpresents, hescape⟩
  · exact .inr hread

theorem source_of_one (h : FromOne E.verify H decoders args w m) :
    Source E H w m ∧ (m.publicKey = none → args.pubKey = none) := by
  obtain ⟨-, client, n, hcommand, -, hasked, -⟩ := h
  obtain ⟨hostname, port, addr, pubKey, -, -, -, hpubKey, hclient⟩ := hcommand
  obtain ⟨-, rfl⟩ := (ClientBuilder.build_ok_iff rfl).mp hclient
  obtain ⟨packet, addr, hrecv, haccept⟩ := hasked.received
  refine ⟨source_of_accepted hasked.publicKey hrecv haccept, ?_⟩
  intro hnone
  unfold decodePubKey at hpubKey
  split at hpubKey
  · next hno => exact hno
  · obtain ⟨K, -, hK⟩ := Outcome.bind_ok_iff.mp hpubKey
    obtain rfl : some K = pubKey := Outcome.ok.inj hK
    rw [hasked.publicKey] at hnone
    cases hnone

/-- The measurements of a run are there in turn, so the last one is. -/
theorem source_of_list (h : FromList E.verify H decoders debug args w m) :
    Source E H w m ∧ m.publicKey ≠ none := by
  obtain ⟨-, listFile, l, k, clients, s, ms, -, -, -, -, -, -, -, hrun, hlast, -⟩ := h
  have hget : ms[ms.length - 1]? = some m := by
    rw [← List.getLast?_eq_getElem?]
    exact hlast
  have hkeys := run_keys hrun m (List.mem_of_getElem? hget)
  rw [run_eq] at hrun
  obtain ⟨⟨ms', prior⟩, hafter, hms⟩ := Outcome.bind_ok_iff.mp hrun
  obtain rfl : ms' = ms := Outcome.ok.inj hms
  obtain ⟨client, K, -, -, hq⟩ := after_queried hafter hget
  obtain ⟨packet, addr, hrecv, haccept⟩ := hq.received
  refine ⟨source_of_accepted hq.publicKey hrecv haccept, ?_⟩
  obtain ⟨K', hK'⟩ := hkeys
  rw [hK']
  exact Option.some_ne_none K'

end Sources

/-- Whenever the client sets the clock, it sets it to the midpoint of a measurement that was
accepted from one server.  If the key of that server is the key of an identity, then a worker read
the midpoint from its clock after the request was sent, or the packet takes one of the exits; and
there was no key only if none was given. -/
theorem clock_set_to_time_read {T : Type} (E : Ed25519) (H : Bytes → Hash) (J : Jiff T)
    (hJ : J.Ranged) (B : Codec) (decoders : Decoders) (debug : Bool) (args : CliArgs)
    (w : Surroundings) (seconds : Int64)
    (h : Client.main E.verify H J B decoders debug args w = .ok (some seconds)) :
    args.setClock = true ∧ ∃ m, seconds = m.midpoint.toInt64 ∧ 1500000000 < m.midpoint.toNat ∧
      (FromOne E.verify H decoders args w m ∨ FromList E.verify H decoders debug args w m) ∧
      Source E H w m ∧ (m.publicKey = none → args.pubKey = none ∧ args.serverList = none) := by
  obtain ⟨hset, m, hseconds, hlate, hfrom⟩ := main_sets hJ h
  refine ⟨hset, m, hseconds, hlate, hfrom, ?_⟩
  rcases hfrom with hone | hlist
  · obtain ⟨hsource, hkey⟩ := source_of_one hone
    exact ⟨hsource, fun hnone => ⟨hkey hnone, hone.1⟩⟩
  · obtain ⟨hsource, hkey⟩ := source_of_list hlist
    exact ⟨hsource, fun hnone => absurd hnone hkey⟩

/-! ### One request -/

namespace Witness

open Network

/-- A client with the key of the server, that is to set the clock. -/
def cliArgs : CliArgs where
  common := Network.args
  hostname := some "localhost".toList
  port := some 2002
  pubKey := some (Encoding.hexLower.encode longTermKey.bytes)
  numRequests := 1
  protocol := .rfcDraft14
  serverList := none
  numUniqueServers := 3
  timeout := 5
  setClock := true

/-- The server answers in September 2020. -/
def surroundings : Surroundings where
  resolve _ _ := some [address]
  bind _ _ := .ok ()
  listFile _ := none
  shuffle _ servers := servers
  exchange _ _ := ⟨random 0, .ok (framed (request14 none 0).encode).length,
    .ok (framed (openReply 1600000000).encode, address)⟩

end Witness

open Network Witness in
theorem clock_set_to_time_read_once : ∃ m, (1600000000 : Int64) = m.midpoint.toInt64 ∧
    Source network digest surroundings m ∧ m.publicKey ≠ none := by
  have hmain : Client.main network.verify digest jiff base64 canonical true cliArgs surroundings =
      .ok (some 1600000000) := by
    decide +kernel
  obtain ⟨-, m, hseconds, -, -, hsource, hkey⟩ := clock_set_to_time_read network digest jiff
    jiff_ranged base64 canonical true cliArgs surroundings 1600000000 hmain
  refine ⟨m, hseconds, hsource, fun hnone => ?_⟩
  cases (hkey hnone).1

end Roughenough.Server
