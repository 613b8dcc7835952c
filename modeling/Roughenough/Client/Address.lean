/-
# `Roughenough.Client.Address` — addresses of the server list

`Address` of the client's `server_list.rs`: a transport and a text "host:port".
The text is taken apart in two ways,

    validate        splitn(2, ':')      host, and all that follows the first colon
    host, port      split(':')          the first piece, and the second

which agree on every text that `validate` accepts: a port is digits, so there
is no second colon.

RFC 8.3 allows a domain name, a dotted IPv4 address or an IPv6 address for the
host.  Only an IPv6 address has colons of its own, and the first one of them
is where `validate` cuts.

The hosts are data here, each with its text, so that "every host the RFC
allows" is "every `Host`".
-/
import Roughenough.Base.Text
import Roughenough.Protocol.Header

namespace Roughenough.Client

open Roughenough.Base Roughenough.Protocol

/-! ## The code -/

/-- The errors of `server_list.rs` that concern an address. -/
inductive ServerListError where
  | invalidAddress (address : List Char)
  deriving DecidableEq

/-- `Protocol` of the server list. -/
inductive Transport where
  | tcp | udp
  deriving DecidableEq

structure Address where
  protocol : Transport
  address : List Char
  deriving DecidableEq

namespace Address

/-- `parse::<u16>().ok()`. -/
def parseU16 (text : List Char) : Option UInt16 :=
  (Text.parseUnsigned 65535 text).map UInt16.ofNat

def validate (a : Address) : Outcome ServerListError Unit :=
  match Text.splitn2 ':' a.address with
  | [_, portStr] =>
      if (parseU16 portStr).isSome then .ok () else .err (.invalidAddress a.address)
  | _ => .err (.invalidAddress a.address)

def new (protocol : Transport) (address : List Char) : Outcome ServerListError Address := do
  let addr : Address := ⟨protocol, address⟩
  addr.validate
  pure addr

/-- `split(':').next().expect(..)`. -/
def host (a : Address) : Call (List Char) := Outcome.orPanic (a.address.splitOn ':').head?

/-- `split(':').nth(1).and_then(|p| p.parse().ok()).expect(..)`. -/
def port (a : Address) : Call UInt16 :=
  Outcome.orPanic ((a.address.splitOn ':')[1]?.bind parseU16)

/-! ## Taking an address apart -/

theorem parseU16_toDigits (p : UInt16) : parseU16 (Nat.toDigits 10 p.toNat) = some p := by
  have hp : p.toNat ≤ 65535 := Nat.le_of_lt_succ p.toNat_lt
  unfold parseU16
  rw [Text.parseUnsigned_toDigits hp, Option.map_some, UInt16.ofNat_toNat]

theorem colon_not_mem_of_parseU16 {text : List Char} {p : UInt16} (h : parseU16 text = some p) :
    ':' ∉ text := by
  obtain ⟨n, hn, -⟩ := Option.map_eq_some_iff.mp h
  exact Text.not_mem_of_parseUnsigned hn (by decide) (by decide)

/-- The text before the first colon is determined. -/
theorem first_colon_unique {h h' rest rest' : List Char} (hh : ':' ∉ h) (hh' : ':' ∉ h')
    (heq : h ++ ':' :: rest = h' ++ ':' :: rest') : h = h' ∧ rest = rest' := by
  have hsplit := Text.splitn2_append hh rest
  rw [heq, Text.splitn2_append hh' rest'] at hsplit
  simp only [List.cons.injEq, and_true] at hsplit
  exact ⟨hsplit.1.symm, hsplit.2.symm⟩

/-- A text is accepted if what follows its first colon is a port. -/
theorem validate_ok_iff {a : Address} : a.validate = .ok () ↔
    ∃ h portStr p, a.address = h ++ ':' :: portStr ∧ ':' ∉ h ∧ parseU16 portStr = some p := by
  unfold validate
  by_cases hcolon : ':' ∈ a.address
  · obtain ⟨h, portStr, htext, hh⟩ := List.eq_append_cons_of_mem hcolon
    rw [htext, Text.splitn2_append hh portStr]
    dsimp only
    constructor
    · intro hok
      cases hp : parseU16 portStr with
      | some p => exact ⟨h, portStr, p, rfl, hh, hp⟩
      | none =>
          rw [hp] at hok
          cases hok
    · rintro ⟨h', portStr', p, heq, hh', hp⟩
      obtain ⟨-, rfl⟩ := first_colon_unique hh hh' heq
      rw [hp]
      rfl
  · rw [Text.splitn2_of_not_mem hcolon]
    constructor
    · intro hok
      cases hok
    · rintro ⟨h, portStr, p, htext, -, -⟩
      rw [htext] at hcolon
      exact absurd (List.mem_append_right h List.mem_cons_self) hcolon

theorem new_ok_iff {protocol : Transport} {address : List Char} {a : Address} :
    new protocol address = .ok a ↔ a = ⟨protocol, address⟩ ∧ a.validate = .ok () := by
  unfold new
  rw [Outcome.bind_ok_iff]
  constructor
  · rintro ⟨_, hvalid, ha⟩
    cases ha
    exact ⟨rfl, hvalid⟩
  · rintro ⟨rfl, hvalid⟩
    exact ⟨(), hvalid, rfl⟩

/-- Splitting at every colon finds the two pieces that `validate` found. -/
theorem pieces {a : Address} {h portStr : List Char} {p : UInt16}
    (htext : a.address = h ++ ':' :: portStr) (hh : ':' ∉ h) (hp : parseU16 portStr = some p) :
    a.host = .ok h ∧ a.port = .ok p := by
  have hsplit : a.address.splitOn ':' = [h, portStr] := by
    rw [htext, List.splitOn_append_cons_self, List.splitOn_eq_singleton hh,
      List.splitOn_eq_singleton (colon_not_mem_of_parseU16 hp)]
    rfl
  unfold host port
  rw [hsplit]
  refine ⟨rfl, ?_⟩
  show Outcome.orPanic (parseU16 portStr) = .ok p
  rw [hp]
  rfl

/-- The address is accepted and taken apart into the host and the port it was put together
from. -/
def Serves (protocol : Transport) (h : List Char) (p : UInt16) : Prop :=
  ∃ a, new protocol (h ++ ':' :: Nat.toDigits 10 p.toNat) = .ok a ∧ a.host = .ok h ∧
    a.port = .ok p

theorem serves_iff {protocol : Transport} {h : List Char} {p : UInt16} :
    Serves protocol h p ↔ ':' ∉ h := by
  constructor
  · rintro ⟨a, hnew, -, -⟩ hcolon
    obtain ⟨rfl, hvalid⟩ := new_ok_iff.mp hnew
    obtain ⟨h', portStr, q, htext, hh', hq⟩ := validate_ok_iff.mp hvalid
    -- the first colon is inside the host, so the second one is in the accepted port
    obtain ⟨front, back, rfl, hfront⟩ := List.eq_append_cons_of_mem hcolon
    have htext : front ++ ':' :: (back ++ ':' :: Nat.toDigits 10 p.toNat) =
        h' ++ ':' :: portStr := by
      rw [← htext, List.append_assoc]
      rfl
    obtain ⟨-, rfl⟩ := first_colon_unique hfront hh' htext
    exact colon_not_mem_of_parseU16 hq (List.mem_append_right back List.mem_cons_self)
  · intro hh
    have hp := parseU16_toDigits p
    obtain ⟨hhost, hport⟩ := pieces (a := ⟨protocol, _⟩) rfl hh hp
    exact ⟨_, new_ok_iff.mpr ⟨rfl, validate_ok_iff.mpr ⟨h, _, p, rfl, hh, hp⟩⟩, hhost, hport⟩

end Address

/-! ## Hosts -/

/-- The pieces with `sep` between them. -/
def joinWith (sep : Char) : List (List Char) → List Char
  | [] => []
  | [piece] => piece
  | piece :: pieces => piece ++ sep :: joinWith sep pieces

theorem mem_joinWith {sep c : Char} {pieces : List (List Char)} (h : c ∈ joinWith sep pieces) :
    c = sep ∨ ∃ piece ∈ pieces, c ∈ piece := by
  induction pieces with
  | nil => exact absurd h List.not_mem_nil
  | cons piece pieces ih =>
      cases pieces with
      | nil => exact .inr ⟨piece, List.mem_cons_self, h⟩
      | cons next later =>
          rcases List.mem_append.mp h with hpiece | hlater
          · exact .inr ⟨piece, List.mem_cons_self, hpiece⟩
          · rcases List.mem_cons.mp hlater with rfl | hlater
            · exact .inl rfl
            · rcases ih hlater with rfl | ⟨q, hq, hc⟩
              · exact .inl rfl
              · exact .inr ⟨q, List.mem_cons_of_mem piece hq, hc⟩

theorem sep_mem_joinWith {sep : Char} {pieces : List (List Char)} (h : 2 ≤ pieces.length) :
    sep ∈ joinWith sep pieces := by
  match pieces, h with
  | piece :: next :: later, _ => exact List.mem_append_right piece List.mem_cons_self

/-- One label of a domain name: letters, digits and hyphens. -/
structure Label where
  text : List Char
  nonempty : text ≠ []
  short : text.length ≤ 63
  allowed : ∀ c ∈ text, c.isAlphanum ∨ c = '-'

/-- Up to four hex digits, sixteen bits of an IPv6 address. -/
structure HexGroup where
  text : List Char
  nonempty : text ≠ []
  short : text.length ≤ 4
  allowed : ∀ c ∈ text, c ∈ "0123456789abcdefABCDEF".toList

/-- Dotted decimal notation. -/
def dotted (ip : Octets 4) : List Char :=
  joinWith '.' (ip.bytes.map fun b => Nat.toDigits 10 b.toNat)

/-- The text representation of IPv6 addresses: eight groups, a `::` for one or more groups of
zeros, and an IPv4 address in place of the last two. -/
inductive Ipv6Text where
  | full (groups : Arr HexGroup 8)
  | compressed (left right : List HexGroup) (short : left.length + right.length ≤ 7)
  | fullV4 (groups : Arr HexGroup 6) (ip : Octets 4)
  | compressedV4 (left right : List HexGroup) (ip : Octets 4)
      (short : left.length + right.length ≤ 5)

def Ipv6Text.text : Ipv6Text → List Char
  | full groups => joinWith ':' (groups.1.map HexGroup.text)
  | compressed left right _ =>
      joinWith ':' (left.map HexGroup.text) ++ ':' :: ':' :: joinWith ':' (right.map HexGroup.text)
  | fullV4 groups ip => joinWith ':' (groups.1.map HexGroup.text ++ [dotted ip])
  | compressedV4 left right ip _ =>
      joinWith ':' (left.map HexGroup.text) ++
        ':' :: ':' :: joinWith ':' (right.map HexGroup.text ++ [dotted ip])

theorem Ipv6Text.colon_mem (addr : Ipv6Text) : ':' ∈ addr.text := by
  cases addr with
  | full groups =>
      refine sep_mem_joinWith ?_
      rw [List.length_map, groups.2]
      decide
  | compressed left right _ => exact List.mem_append_right _ List.mem_cons_self
  | fullV4 groups ip =>
      refine sep_mem_joinWith ?_
      rw [List.length_append, List.length_map, groups.2]
      exact Nat.le_add_right 2 5
  | compressedV4 left right ip _ => exact List.mem_append_right _ List.mem_cons_self

/-- A host of RFC 8.3.  A domain name may end in the dot of the root. -/
inductive Host where
  | domain (labels : List Label) (nonempty : labels ≠ []) (rooted : Bool)
  | ipv4 (ip : Octets 4)
  | ipv6 (addr : Ipv6Text)

namespace Host

def text : Host → List Char
  | domain labels _ rooted =>
      joinWith '.' (labels.map Label.text) ++ if rooted then ['.'] else []
  | ipv4 ip => dotted ip
  | ipv6 addr => '[' :: addr.text ++ [']']

def isIpv6 : Host → Bool
  | ipv6 _ => true
  | _ => false

theorem colon_mem_iff (h : Host) : ':' ∈ h.text ↔ h.isIpv6 = true := by
  cases h with
  | domain labels _ rooted =>
      refine iff_of_false ?_ Bool.false_ne_true
      intro hmem
      rcases List.mem_append.mp hmem with hmem | hroot
      · rcases mem_joinWith hmem with heq | ⟨piece, hpiece, hc⟩
        · exact absurd heq (by decide)
        · obtain ⟨label, -, rfl⟩ := List.mem_map.mp hpiece
          exact absurd (label.allowed ':' hc) (by decide)
      · cases rooted with
        | false => exact absurd hroot (by decide)
        | true => exact absurd hroot (by decide)
  | ipv4 ip =>
      refine iff_of_false ?_ Bool.false_ne_true
      intro hmem
      rcases mem_joinWith hmem with heq | ⟨piece, hpiece, hc⟩
      · exact absurd heq (by decide)
      · obtain ⟨b, -, rfl⟩ := List.mem_map.mp hpiece
        exact absurd (Nat.isDigit_of_mem_toDigits (by decide) (by decide) hc) (by decide)
  | ipv6 addr =>
      exact iff_of_true (List.mem_cons_of_mem _ (List.mem_append_left _ addr.colon_mem)) rfl

end Host

/-! ## The result -/

/-- An address of a host of the RFC is accepted and taken apart as it was put together unless
the host is an IPv6 address; whatever text is accepted is taken apart where it was cut. -/
theorem address_serves_iff (protocol : Transport) (h : Host) (p : UInt16) :
    (Address.Serves protocol h.text p ↔ h.isIpv6 = false) ∧
    ∀ a : Address, a.validate = .ok () → ∃ host portStr port,
      Text.splitn2 ':' a.address = [host, portStr] ∧ Address.parseU16 portStr = some port ∧
        a.host = .ok host ∧ a.port = .ok port ∧ host ++ ':' :: portStr = a.address := by
  constructor
  · rw [Address.serves_iff, h.colon_mem_iff, Bool.not_eq_true]
  · intro a hvalid
    obtain ⟨host, portStr, port, htext, hhost, hport⟩ := Address.validate_ok_iff.mp hvalid
    obtain ⟨hh, hp⟩ := Address.pieces htext hhost hport
    exact ⟨host, portStr, port, by rw [htext, Text.splitn2_append hhost], hport, hh, hp,
      htext.symm⟩

/-- An IPv4 host, and the text in which it is accepted. -/
theorem address_serves_iff_localhost :
    Address.Serves .udp (Host.ipv4 Octets.localhost).text 2002 ∧
      ∃ host portStr port, Text.splitn2 ':' "127.0.0.1:2002".toList = [host, portStr] ∧
        Address.parseU16 portStr = some port ∧
        Address.host ⟨.udp, "127.0.0.1:2002".toList⟩ = .ok host ∧
        Address.port ⟨.udp, "127.0.0.1:2002".toList⟩ = .ok port ∧
        host ++ ':' :: portStr = "127.0.0.1:2002".toList := by
  obtain ⟨hserves, htaken⟩ := address_serves_iff .udp (.ipv4 Octets.localhost) 2002
  exact ⟨hserves.mpr rfl, htaken ⟨.udp, "127.0.0.1:2002".toList⟩ (by decide)⟩

/-- The group `1`. -/
def HexGroup.one : HexGroup where
  text := ['1']
  nonempty := List.cons_ne_nil _ _
  short := by decide
  allowed c hc := by
    rw [List.mem_singleton.mp hc]
    decide

/-- `::1`. -/
def loopback : Ipv6Text := .compressed [] [.one] (by decide)

/-- The loopback address of IPv6 in brackets is refused. -/
theorem address_refuses_ipv6 :
    (Host.ipv6 loopback).text ++ ':' :: Nat.toDigits 10 2002 = "[::1]:2002".toList ∧
      ¬ Address.Serves .udp (Host.ipv6 loopback).text 2002 := by
  refine ⟨by decide, ?_⟩
  rintro ⟨a, hnew, -, -⟩
  have hvalid := (Address.new_ok_iff.mp hnew).2
  rw [(Address.new_ok_iff.mp hnew).1] at hvalid
  exact absurd hvalid (by decide)

end Roughenough.Client
