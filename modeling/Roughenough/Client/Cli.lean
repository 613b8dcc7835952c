/-
# `Roughenough.Client.Cli` — what the client sets the clock to

`main.rs` from its arguments to `clock_settime`, and `query_raw` of `client.rs`.

    HOST PORT          query_single_server: the requests one after the other, each
                       accepted and shown, or exit(-1)
    --server-list      query_multiple_servers: attempts of chained measurements
    --set-clock        set_system_clock with the last midpoint: more than
                       1500000000 as `u64`, then cast to `time_t`

With `-n 0` there is no midpoint and the 0 it stands at is refused; so is the 0 of
a retry loop without attempts.  What is set is always the midpoint of a
measurement, and of one server: the last that was asked.

The arguments are those that the result depends on.  Logging and the two dumps are
left out, and of the timeouts what is kept is that a transport can be refused.
-/
import Roughenough.Client.Retry
import Roughenough.Client.ServerList
import Roughenough.Client.Versions

namespace Roughenough.Client

open Roughenough.Base Roughenough.Protocol Roughenough.Merkle Roughenough.Common
open MeasurementSequence ResponseValidator

/-! ## One query -/

section Query

variable (V : Verify) (H : Bytes → Hash)

/-- `send_request`. -/
def sendRequest (request : Request) (x : Exchange) : Outcome ClientError Bytes := do
  let requestBytes ← request.asFrameBytes.mapErr .badResponse
  let bytesSentCount ← x.send
  Outcome.failIf (bytesSentCount ≠ requestBytes.length) (.invalidConfiguration
    ("partial send: sent " ++ toString bytesSentCount ++ " bytes, expected " ++
      toString requestBytes.length))
  pure requestBytes

/-- `validate_response`. -/
def validateResponse (client : Client) (request : Request) (requestBytes responseBytes : Bytes) :
    Outcome ClientError Measurement := do
  let response ← acceptResponse V H client requestBytes responseBytes
  MeasurementBuilder.build
    { server := some client.server
      hostname := some client.hostname
      publicKey := client.publicKey
      request := some request
      response := some response
      randValue := none
      priorResponse := none }

/-- `query_raw`: the bytes are returned whatever the validation says. -/
def queryRaw (client : Client) (x : Exchange) :
    Outcome ClientError (Outcome ClientError Measurement × Bytes × Bytes) := do
  let request := createRequest client none x.random
  let requestBytes ← sendRequest request x
  let (packet, _) ← x.recv
  let responseBytes := packet.take bufSize
  match validateResponse V H client request requestBytes responseBytes with
  | .panic => .panic
  | result => pure (result, requestBytes, responseBytes)

end Query

/-! ## The program -/

/-- The arguments, besides those of the display and the retry loop. -/
structure CliArgs where
  common : Args
  hostname : Option (List Char)
  port : Option UInt16
  pubKey : Option (List Char)
  numRequests : Nat
  protocol : ProtocolVersion
  serverList : Option (List Char)
  numUniqueServers : Nat
  timeout : UInt16
  setClock : Bool

/-- `Duration::from_secs(args.timeout as u64)`. -/
def CliArgs.timeoutLength (args : CliArgs) : Duration := .fromSecs args.timeout.toUInt64

/-- What the world contributes: the addresses of hosts, the sockets, what serde_json reads in a
file, the shuffles and the network, all of them anew in each attempt. -/
structure Surroundings where
  resolve : (attempt : Nat) → Resolver
  bind : (attempt : Nat) → Bind
  listFile : (name : List Char) → Option FullServerList
  shuffle : (attempt : Nat) → List Server → List Server
  exchange : (attempt query : Nat) → Exchange

/-- `ServerList::from_file`; every error exits. -/
def Surroundings.loadList (w : Surroundings) (name : List Char) : Option FullServerList :=
  (w.listFile name).filter fun l => l.validate.isOk

section Program

variable {T : Type} (V : Verify) (H : Bytes → Hash) (J : Jiff T) (B : Codec)
  (decoders : Decoders) (debug : Bool) (args : CliArgs) (w : Surroundings)

/-- The `--pub-key` argument. -/
def decodePubKey : Outcome ExitCode (Option PublicKey) :=
  match args.pubKey with
  | none => .ok none
  | some encodedKey => do
      let pubKey ← exitOnErr (tryDecodeKey decoders encodedKey)
      pure (some pubKey)

/-- The body of the loop over the requests. -/
def queryOnce (client : Client) (k : Nat) : Outcome ExitCode UInt64 := do
  let (result, _, _) ← exitOnErr (queryRaw V H client (w.exchange 0 k))
  let measurement ← exitOnErr result
  let _ ← ofCall (displayMeasurement J args.common measurement)
  pure measurement.midpoint

def querySingleServer (hostname : List Char) : Outcome ExitCode UInt64 := do
  let port ← Outcome.orPanic args.port
  let sockAddr ← exitOnErr (firstSocketAddr (w.resolve 0) hostname port)
  let pubKey ← decodePubKey decoders args
  let client ← ofCall (ClientBuilder.build H (w.bind 0) ⟨sockAddr, String.ofList hostname, none,
    some args.timeoutLength, pubKey, args.protocol⟩)
  (List.range args.numRequests).foldlM (fun _ k => queryOnce V H J args w client k) 0

/-- What an attempt of `query_multiple_servers` gets; the text of an error is only logged. -/
def attemptOf (l : FullServerList) (attempt : Nat) : Attempt where
  clients := (clientsFromList H decoders (w.resolve attempt) (w.bind attempt) args.timeoutLength
    (w.shuffle attempt) l args.numUniqueServers).mapErr fun _ => ""
  exchanges := w.exchange attempt

def queryListed (listFile : List Char) : Outcome ExitCode UInt64 :=
  match w.loadList listFile with
  | none => .err (-1)
  | some l => (queryMultipleServers V H J B debug args.common
      (some ⟨l.reportingUrl.map String.ofList⟩) (attemptOf H decoders args w l)).result

/-- `set_system_clock`, as far as the argument of `clock_settime`. -/
def setSystemClock (midpoint : UInt64) : Call Int64 := do
  Outcome.assert (1500000000 < midpoint.toNat)
  pure midpoint.toInt64

/-- The `match` at the start of `main`. -/
def queryMidpoint : Outcome ExitCode UInt64 :=
  match args.hostname, args.serverList with
  | some hostname, none => querySingleServer V H J decoders args w hostname
  | none, some listFile => queryListed V H J B decoders debug args w listFile
  | _, _ => .err (-1)

/-- `main`: the seconds that the clock was set to, if it was. -/
def main : Outcome ExitCode (Option Int64) := do
  let midpoint ← queryMidpoint V H J B decoders debug args w
  if args.setClock = true then do
    let seconds ← ofCall (setSystemClock midpoint)
    pure (some seconds)
  else pure none

end Program

/-! ## What a query was -/

/-- The measurement is what `query_raw` makes of an exchange. -/
structure Asked (V : Verify) (H : Bytes → Hash) (client : Client) (x : Exchange)
    (m : Measurement) : Prop where
  server : m.server = client.server
  publicKey : m.publicKey = client.publicKey
  request : m.request = createRequest client none x.random
  received : ∃ packet addr, x.recv = .ok (packet, addr) ∧
    acceptResponse V H client (framed m.request.encode) (packet.take bufSize) = .ok m.response

section Asked

variable {V : Verify} {H : Bytes → Hash} {client : Client} {x : Exchange} {m : Measurement}

theorem queryRaw_ok {requestBytes responseBytes : Bytes}
    (h : queryRaw V H client x = .ok (.ok m, requestBytes, responseBytes)) :
    Asked V H client x m := by
  unfold queryRaw at h
  dsimp only at h
  obtain ⟨sent, hsent, h⟩ := Outcome.bind_ok_iff.mp h
  obtain ⟨⟨packet, addr⟩, hrecv, h⟩ := Outcome.bind_ok_iff.mp h
  have hframe : sent = framed (createRequest client none x.random).encode := by
    unfold sendRequest at hsent
    rw [Request.asFrameBytes_eq, Outcome.mapErr_ok, Outcome.ok_bind] at hsent
    obtain ⟨_, -, hsent⟩ := Outcome.bind_ok_iff.mp hsent
    obtain ⟨_, -, hsent⟩ := Outcome.bind_ok_iff.mp hsent
    cases hsent
    rfl
  have hvalid : validateResponse V H client (createRequest client none x.random) sent
      (packet.take bufSize) = .ok m := by
    dsimp only at h
    split at h
    · cases h
    · obtain ⟨hm, -⟩ := Prod.mk.inj (Outcome.ok.inj h)
      exact hm
  obtain ⟨response, haccept, hbuild⟩ := Outcome.bind_ok_iff.mp hvalid
  cases hbuild
  rw [hframe] at haccept
  exact ⟨rfl, rfl, rfl, packet, addr, hrecv, haccept⟩

variable {T : Type} {J : Jiff T} {args : CliArgs} {w : Surroundings}

theorem queryOnce_ok (hJ : J.Ranged) {k : Nat} {midpoint : UInt64}
    (h : queryOnce V H J args w client k = .ok midpoint) :
    ∃ m, Asked V H client (w.exchange 0 k) m ∧ Showable m.midpoint ∧ m.midpoint = midpoint := by
  unfold queryOnce at h
  obtain ⟨⟨result, requestBytes, responseBytes⟩, hraw, h⟩ := Outcome.bind_ok_iff.mp h
  obtain ⟨m, hm, h⟩ := Outcome.bind_ok_iff.mp h
  obtain ⟨text, hshown, h⟩ := Outcome.bind_ok_iff.mp h
  cases h
  have hresult : result = .ok m := Outcome.mapErr_ok_iff.mp hm
  have hraw := Outcome.mapErr_ok_iff.mp hraw
  rw [hresult] at hraw
  obtain ⟨t, ht, -⟩ := displayMeasurement_ok_iff.mp ⟨text, Outcome.mapErr_ok_iff.mp hshown⟩
  exact ⟨m, queryRaw_ok hraw, (timestampOf_ok_iff hJ).mp ⟨t, ht⟩, rfl⟩

/-- After the loop over the requests: all were accepted and shown, and the midpoint is that of
the last; without requests it is 0. -/
theorem queryLoop_ok (hJ : J.Ranged) {n : Nat} {midpoint : UInt64}
    (h : (List.range n).foldlM (fun _ k => queryOnce V H J args w client k) 0 = .ok midpoint) :
    (n = 0 → midpoint = 0) ∧ ∀ k, k < n → ∃ m, Asked V H client (w.exchange 0 k) m ∧
      Showable m.midpoint ∧ (k + 1 = n → m.midpoint = midpoint) := by
  induction n generalizing midpoint with
  | zero =>
      cases h
      exact ⟨fun _ => rfl, fun k hk => absurd hk (Nat.not_lt_zero k)⟩
  | succ n ih =>
      rw [List.range_succ, List.foldlM_append] at h
      obtain ⟨before, hbefore, hlast⟩ := Outcome.bind_ok_iff.mp h
      obtain ⟨last, hquery, hend⟩ := Outcome.bind_ok_iff.mp hlast
      cases hend
      obtain ⟨m, hasked, hshown, hmid⟩ := queryOnce_ok hJ hquery
      refine ⟨fun hn => absurd hn (Nat.succ_ne_zero n), fun k hk => ?_⟩
      rcases Nat.lt_succ_iff_lt_or_eq.mp hk with hlt | rfl
      · obtain ⟨mk, haskedk, hshownk, -⟩ := (ih hbefore).2 k hlt
        exact ⟨mk, haskedk, hshownk, fun hlast => absurd hlast (by omega)⟩
      · exact ⟨m, hasked, hshown, fun _ => hmid⟩

end Asked

/-! ## What the retry loop returned -/

section Loop

variable {T : Type} {V : Verify} {H : Bytes → Hash} {J : Jiff T} {B : Codec} {debug : Bool}
  {args : Args} {servers : ServerList} {attempts : Nat → Attempt}

/-- The midpoint 0 that the loop starts with, or that of an attempt: a clean one, or with
`--allow-untrusted-time` one with violations. -/
theorem queryMultipleServers_ok (hJ : J.Ranged) {midpoint : UInt64}
    (h : (queryMultipleServers V H J B debug args (some servers) attempts).result =
      .ok midpoint) :
    midpoint = 0 ∨ ∃ k, 1 ≤ k ∧ k ≤ args.causalityViolationRetries.toNat + 1 ∧
      (Clean V H debug args (attempts k) midpoint ∨
        args.allowUntrustedTime = true ∧ Violated V H debug args (attempts k) midpoint) := by
  unfold queryMultipleServers at h
  dsimp only at h
  cases hmax : addU8 debug 1 args.causalityViolationRetries with
  | err e => exact e.elim
  | panic =>
      rw [hmax] at h
      cases h
  | ok maxAttempts =>
      rw [hmax] at h
      dsimp only at h
      have hbound : maxAttempts.toNat ≤ args.causalityViolationRetries.toNat + 1 := by
        obtain ⟨_, -, hsum⟩ := Outcome.bind_ok_iff.mp hmax
        cases hsum
        rw [UInt8.toNat_add, Nat.add_comm]
        exact Nat.mod_le _ _
      rcases retry_cases (fun k => attemptOnce V H J B debug args servers (attempts k))
        (giveUp args) maxAttempts.toNat 0 0 with ⟨last, -, hnone, hlast, heq⟩ |
        ⟨k, hpos, hk, -, hagain, heq⟩
      · rw [heq] at h
        unfold giveUp at h
        split at h
        · next hallow =>
            cases h
            rcases Nat.eq_zero_or_pos maxAttempts.toNat with hzero | hpos
            · exact .inl (hnone hzero)
            · have hviolated := hlast (by omega)
              rw [Nat.zero_add] at hviolated
              exact .inr ⟨maxAttempts.toNat, hpos, hbound,
                .inr ⟨hallow, ((attemptOnce_violated_iff hJ).mp hviolated).2⟩⟩
        · cases h
      · rw [heq] at h
        obtain ⟨⟨a, settled⟩, hattempt, ha⟩ := Outcome.bind_ok_iff.mp h
        obtain rfl : a = midpoint := Outcome.ok.inj ha
        cases settled with
        | false => exact absurd ⟨a, hattempt⟩ hagain
        | true => exact .inr ⟨k, hpos, by omega, .inl ((attemptOnce_clean_iff hJ).mp hattempt)⟩

end Loop

/-! ## What the clock is set to -/

section Clock

variable (V : Verify) (H : Bytes → Hash) (decoders : Decoders) (debug : Bool) (args : CliArgs)
  (w : Surroundings)

/-- The client of the command line: the host's first address, a transport to it, and the key if
there is one. -/
def CommandClient (client : Client) : Prop :=
  ∃ hostname port addr pubKey, args.hostname = some hostname ∧ args.port = some port ∧
    firstSocketAddr (w.resolve 0) hostname port = .ok addr ∧
    decodePubKey decoders args = .ok pubKey ∧
    ClientBuilder.build H (w.bind 0) ⟨addr, String.ofList hostname, none,
      some args.timeoutLength, pubKey, args.protocol⟩ = .ok client

/-- The measurement of the last request to one server; the others were accepted as well. -/
def FromOne (m : Measurement) : Prop :=
  args.serverList = none ∧ ∃ client n, CommandClient H decoders args w client ∧
    args.numRequests = n + 1 ∧ Asked V H client (w.exchange 0 n) m ∧
    ∀ k, k ≤ n → ∃ mk, Asked V H client (w.exchange 0 k) mk ∧ Showable mk.midpoint

/-- The last measurement of a run over servers of a validated list, without violations unless
untrusted time is allowed. -/
def FromList (m : Measurement) : Prop :=
  args.hostname = none ∧ ∃ listFile l k clients s ms, args.serverList = some listFile ∧
    w.listFile listFile = some l ∧ l.validate = .ok () ∧
    1 ≤ k ∧ k ≤ args.common.causalityViolationRetries.toNat + 1 ∧
    clientsFromList H decoders (w.resolve k) (w.bind k) args.timeoutLength (w.shuffle k) l
      args.numUniqueServers = .ok clients ∧
    MeasurementSequence.new clients = .ok s ∧
    s.run V H (w.exchange k) args.common.numMeasurementRounds = .ok ms ∧ ms.getLast? = some m ∧
    (validateCausality debug ms = .ok [] ∨ args.common.allowUntrustedTime = true)

end Clock

section Sound

variable {T : Type} {V : Verify} {H : Bytes → Hash} {J : Jiff T} {B : Codec}
  {decoders : Decoders} {debug : Bool} {args : CliArgs} {w : Surroundings}

theorem querySingleServer_ok (hJ : J.Ranged) {hostname : List Char} {midpoint : UInt64}
    (hhost : args.hostname = some hostname) (hlist : args.serverList = none)
    (h : querySingleServer V H J decoders args w hostname = .ok midpoint) :
    midpoint = 0 ∨ ∃ m, m.midpoint = midpoint ∧ FromOne V H decoders args w m := by
  unfold querySingleServer at h
  obtain ⟨port, hport, h⟩ := Outcome.bind_ok_iff.mp h
  obtain ⟨addr, haddr, h⟩ := Outcome.bind_ok_iff.mp h
  obtain ⟨pubKey, hpubKey, h⟩ := Outcome.bind_ok_iff.mp h
  obtain ⟨client, hclient, h⟩ := Outcome.bind_ok_iff.mp h
  obtain ⟨hzero, hall⟩ := queryLoop_ok hJ h
  cases hn : args.numRequests with
  | zero => exact .inl (hzero hn)
  | succ n =>
      rw [hn] at hall
      obtain ⟨m, hasked, -, hmid⟩ := hall n (Nat.lt_succ_self n)
      refine .inr ⟨m, hmid rfl, hlist, client, n, ⟨hostname, port, addr, pubKey, hhost,
        Outcome.orPanic_ok_iff.mp hport, Outcome.mapErr_ok_iff.mp haddr, hpubKey,
        Outcome.mapErr_ok_iff.mp hclient⟩, hn, hasked, ?_⟩
      intro k hk
      obtain ⟨mk, haskedk, hshown, -⟩ := hall k (Nat.lt_succ_of_le hk)
      exact ⟨mk, haskedk, hshown⟩

theorem queryListed_ok (hJ : J.Ranged) {listFile : List Char} {midpoint : UInt64}
    (hhost : args.hostname = none) (hlist : args.serverList = some listFile)
    (h : queryListed V H J B decoders debug args w listFile = .ok midpoint) :
    midpoint = 0 ∨ ∃ m, m.midpoint = midpoint ∧ FromList V H decoders debug args w m := by
  unfold queryListed at h
  split at h
  · cases h
  · next l hload =>
      obtain ⟨hfile, hvalid⟩ := Option.filter_eq_some_iff.mp hload
      obtain ⟨⟨⟩, hvalid⟩ := Outcome.isOk_iff.mp hvalid
      rcases queryMultipleServers_ok hJ h with hzero | ⟨k, hpos, hk, hattempt⟩
      · exact .inl hzero
      · have hmeasured : ∃ ms m,
            measure V H args.common (attemptOf H decoders args w l k) = .ok ms ∧
            ms.getLast? = some m ∧ m.midpoint = midpoint ∧
            (validateCausality debug ms = .ok [] ∨ args.common.allowUntrustedTime = true) := by
          rcases hattempt with ⟨ms, m, hms, hm, hmid, hclean⟩ |
            ⟨hallow, ms, m, v, vs, hms, hm, hmid, -⟩
          · exact ⟨ms, m, hms, hm, hmid, .inl hclean⟩
          · exact ⟨ms, m, hms, hm, hmid, .inr hallow⟩
        obtain ⟨ms, m, hms, hm, hmid, hcausal⟩ := hmeasured
        obtain ⟨clients, hclients, hms⟩ := Outcome.bind_ok_iff.mp hms
        obtain ⟨s, hs, hms⟩ := Outcome.bind_ok_iff.mp hms
        refine .inr ⟨m, hmid, hhost, listFile, l, k, clients, s, ms, hlist, hfile, hvalid, hpos, hk,
          ?_, Outcome.mapErr_ok_iff.mp hs, Outcome.mapErr_ok_iff.mp hms, hm, hcausal⟩
        exact Outcome.mapErr_ok_iff.mp (Outcome.mapErr_ok_iff.mp hclients)

theorem setSystemClock_ok {midpoint : UInt64} {seconds : Int64}
    (h : setSystemClock midpoint = .ok seconds) :
    1500000000 < midpoint.toNat ∧ seconds = midpoint.toInt64 := by
  obtain ⟨_, hassert, hseconds⟩ := Outcome.bind_ok_iff.mp h
  cases hseconds
  exact ⟨Outcome.assert_ok_iff.mp hassert, rfl⟩

/-- The clock is only set to the midpoint of a measurement that one server, the last that was
asked, has had accepted. -/
theorem main_sets (hJ : J.Ranged) {seconds : Int64}
    (h : main V H J B decoders debug args w = .ok (some seconds)) :
    args.setClock = true ∧ ∃ m, seconds = m.midpoint.toInt64 ∧ 1500000000 < m.midpoint.toNat ∧
      (FromOne V H decoders args w m ∨ FromList V H decoders debug args w m) := by
  unfold main at h
  obtain ⟨midpoint, hmidpoint, h⟩ := Outcome.bind_ok_iff.mp h
  split at h
  · next hset =>
      obtain ⟨set, hclock, h⟩ := Outcome.bind_ok_iff.mp h
      obtain rfl : set = seconds := Option.some.inj (Outcome.ok.inj h)
      obtain ⟨hlate, hseconds⟩ := setSystemClock_ok (Outcome.mapErr_ok_iff.mp hclock)
      have hpos : midpoint ≠ 0 := by
        rintro rfl
        exact absurd hlate (by decide)
      refine ⟨hset, ?_⟩
      unfold queryMidpoint at hmidpoint
      split at hmidpoint
      · next hostname hhost hlist =>
          rcases querySingleServer_ok hJ hhost hlist hmidpoint with hzero | ⟨m, rfl, hone⟩
          · exact absurd hzero hpos
          · exact ⟨m, hseconds, hlate, .inl hone⟩
      · next listFile hhost hlist =>
          rcases queryListed_ok hJ hhost hlist hmidpoint with hzero | ⟨m, rfl, hfrom⟩
          · exact absurd hzero hpos
          · exact ⟨m, hseconds, hlate, .inr hfrom⟩
      · cases hmidpoint
  · cases h

end Sound

/-! ## What the other servers are good for -/

/-- No violations, in numbers. -/
theorem validateCausality_nil_iff {debug : Bool} {ms : List Measurement}
    (hrange : Measurement.InRange ms) : validateCausality debug ms = .ok [] ↔
      ∀ (i j : Nat) (mi mj : Measurement), i < j → ms[i]? = some mi → ms[j]? = some mj →
        mi.lower ≤ mj.upper := by
  rw [validateCausality_eq debug hrange, Outcome.ok.injEq, List.filterMap_eq_nil_iff]
  constructor
  · intro h i j mi mj hij hi hj
    by_contra hnot
    have hlt : j < ms.length := (List.getElem?_eq_some_iff.mp hj).1
    have hnone := h (i, j) (mem_allPairs.mpr ⟨hij, hlt⟩)
    have hfound := (found_eq_some_iff (p := (i, j))).mpr
      ⟨mi, mj, hi, hj, Int.not_le.mp hnot, rfl⟩
    rw [hnone] at hfound
    cases hfound
  · rintro h ⟨i, j⟩ hp
    refine Option.eq_none_iff_forall_ne_some.mpr ?_
    intro v hv
    obtain ⟨mi, mj, hi, hj, hviolates, -⟩ := found_eq_some_iff.mp hv
    exact absurd (h i j mi mj (mem_allPairs.mp hp).1 hi hj) (Int.not_le.mpr hviolates)

/-- A run stays without violations by one more measurement exactly if the interval of that one
does not end before another one has begun. -/
theorem validateCausality_concat_iff (debug : Bool) (ms : List Measurement) (m : Measurement)
    (hrange : Measurement.InRange (ms ++ [m])) (hclean : validateCausality debug ms = .ok []) :
    validateCausality debug (ms ++ [m]) = .ok [] ↔ ∀ mi ∈ ms, mi.lower ≤ m.upper := by
  have hbefore : ∀ {i : Nat} {mi : Measurement}, ms[i]? = some mi →
      (ms ++ [m])[i]? = some mi := by
    intro i mi hi
    rw [List.getElem?_append_left (List.getElem?_eq_some_iff.mp hi).1, hi]
  have hms : Measurement.InRange ms := by
    intro i mi hi
    obtain ⟨hlow, hhigh⟩ := hrange i mi (hbefore hi)
    refine ⟨fun hlt => hlow ?_, hhigh⟩
    rw [List.length_append]
    exact Nat.lt_add_right _ hlt
  have hpairs := (validateCausality_nil_iff hms).mp hclean
  rw [validateCausality_nil_iff hrange]
  constructor
  · intro h mi hmi
    obtain ⟨i, hi⟩ := List.getElem?_of_mem hmi
    exact h i ms.length mi m (List.getElem?_eq_some_iff.mp hi).1 (hbefore hi)
      List.getElem?_concat_length
  · intro h i j mi mj hij hi hj
    have hjle : j ≤ ms.length := by
      have := (List.getElem?_eq_some_iff.mp hj).1
      rw [List.length_append, List.length_singleton] at this
      omega
    have hi' : ms[i]? = some mi := by
      rwa [List.getElem?_append_left (by omega)] at hi
    rcases Nat.lt_or_eq_of_le hjle with hlt | rfl
    · rw [List.getElem?_append_left hlt] at hj
      exact hpairs i j mi mj hij hi' hj
    · rw [List.getElem?_concat_length] at hj
      cases hj
      exact h mi (List.mem_of_getElem? hi')

/-- The last measurement of a first attempt adds no violation exactly if it ends no earlier than
any other one begins, and then it is its midpoint that is returned.  Nothing else is asked of it:
within the range of `u64` it may lie in the future by any amount, and in the past by as much as
its own radius says. -/
theorem last_measurement_free {T : Type} (V : Verify) (H : Bytes → Hash) (J : Jiff T) (B : Codec)
    (debug : Bool) (args : Args) (servers : ServerList) (attempts : Nat → Attempt)
    (hretries : args.causalityViolationRetries ≠ 255) (ms : List Measurement) (m : Measurement)
    (hmeasure : measure V H args (attempts 1) = .ok (ms ++ [m]))
    (hrange : Measurement.InRange (ms ++ [m])) (hclean : validateCausality debug ms = .ok []) :
    (validateCausality debug (ms ++ [m]) = .ok [] ↔ ∀ mi ∈ ms, mi.lower ≤ m.upper) ∧
    ((∀ mi ∈ ms, mi.lower ≤ m.upper) →
      queryMultipleServers V H J B debug args (some servers) attempts = ⟨1, .ok m.midpoint⟩) := by
  have hiff := validateCausality_concat_iff debug ms m hrange hclean
  refine ⟨hiff, fun hlate => settled_of_clean hretries ?_⟩
  exact ⟨_, m, hmeasure, List.getLast?_concat, rfl, hiff.mpr hlate⟩

namespace Network

/-- Servers whose clocks show 2000 and 2001, and a third that is an hour ahead. -/
def ahead : Attempt :=
  ⟨.ok [client .rfcDraft14, client .rfcDraft14, client .rfcDraft14],
    exchanges (packets14 2000 2001 5000)⟩

theorem ahead_measured {args : Args} (hrounds : args.numMeasurementRounds = 1) :
    measure verify digest args ahead =
      .ok [first14 2000, second14 2000 2001, third14 2000 2001 5000] := by
  have hrun : (sequence .rfcDraft14).run verify digest (exchanges (packets14 2000 2001 5000)) 1 =
      .ok [first14 2000, second14 2000 2001, third14 2000 2001 5000] :=
    run14 (by decide) (by decide) (by decide)
  show exitOnErr ((sequence .rfcDraft14).run verify digest (exchanges (packets14 2000 2001 5000))
    args.numMeasurementRounds) = _
  rw [hrounds, hrun]
  rfl

theorem inRange_three {a b c : Measurement} (ha : a.radius.toNat ≤ a.midpoint.toNat)
    (hb : b.radius.toNat ≤ b.midpoint.toNat ∧ b.midpoint.toNat + b.radius.toNat < 2 ^ 64)
    (hc : c.midpoint.toNat + c.radius.toNat < 2 ^ 64) :
    Measurement.InRange ([a, b] ++ [c]) := by
  intro i m hm
  match i, hm with
  | 0, hm =>
      cases hm
      exact ⟨fun _ => ha, fun h => absurd h (Nat.lt_irrefl 0)⟩
  | 1, hm =>
      cases hm
      exact ⟨fun _ => hb.1, fun _ => hb.2⟩
  | 2, hm =>
      cases hm
      exact ⟨fun h => absurd h (Nat.lt_irrefl 3), fun _ => hc⟩
  | i + 3, hm => cases hm

end Network

open Network in
theorem last_measurement_free_future :
    queryMultipleServers verify digest jiff base64 true (argsWith 1 2) (some ⟨none⟩)
      (fun _ => ahead) = ⟨1, .ok 5000⟩ := by
  have hlate : ∀ mi ∈ [first14 2000, second14 2000 2001],
      mi.lower ≤ (third14 2000 2001 5000).upper := by
    decide +kernel
  have hrange := @inRange_three (first14 2000) (second14 2000 2001) (third14 2000 2001 5000)
    (by decide +kernel) (by decide +kernel) (by decide +kernel)
  exact (last_measurement_free verify digest jiff base64 true (argsWith 1 2) ⟨none⟩
    (fun _ => ahead) (by decide) [first14 2000, second14 2000 2001] (third14 2000 2001 5000)
    (ahead_measured rfl) hrange (by decide +kernel)).2 hlate

end Roughenough.Client
