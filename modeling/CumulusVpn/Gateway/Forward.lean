/-
The exit forwarder and the flows it handles
(`gateway/internal/wg/forward.go`).

* `Ip`, `addrFrom`: the addresses of flows, with the predicates of `netip`;
* `Forwarder`: what is set before `Start`; `destAllowed`, `portAllowed`,
  `interceptDNS`;
* `At`, `Event`, `handle`: where a flow stands in `handleTCP` or `handleUDP`
  and in what they hand it to, up to the two slots it gives back;
* `Counter`, `Flow.effect`: the atomic addition that a step makes.
-/
import CumulusVpn.Gateway.Device

namespace CumulusVpn.Egress

/-! ### Addresses -/

/-- An address, with no IPv4 address in an IPv6 one. -/
inductive Ip
  | invalid
  | v4 (a : BitVec 32)
  | v6 (a : BitVec 128)
deriving DecidableEq, Repr

/-- The number of big-endian bytes. -/
def ofBytes (bytes : List UInt8) : Nat := bytes.foldl (fun n byte => n * 256 + byte.toNat) 0

/-- `::ffff:0:0/96`. -/
def is4In6 (a : BitVec 128) : Prop := a.toNat / 2 ^ 32 = 0xffff

instance (a : BitVec 128) : Decidable (is4In6 a) := inferInstanceAs (Decidable (_ = _))

/-- The address of four or sixteen bytes; an IPv4 address in IPv6 is one of
IPv4. -/
def addrFrom (bytes : List UInt8) : Ip :=
  if bytes.length = 4 then .v4 (BitVec.ofNat 32 (ofBytes bytes))
  else if bytes.length = 16 then
    let a := BitVec.ofNat 128 (ofBytes bytes)
    if is4In6 a then .v4 (BitVec.ofNat 32 a.toNat) else .v6 a
  else .invalid

namespace Ip

/-- `netip.Addr.IsLoopback` -/
def isLoopback : Ip → Bool
  | invalid => false
  | v4 a => a.toNat / 2 ^ 24 == 127
  | v6 a => a.toNat == 1

/-- `netip.Addr.IsUnspecified` -/
def isUnspecified : Ip → Bool
  | invalid => false
  | v4 a => a.toNat == 0
  | v6 a => a.toNat == 0

/-- `netip.Addr.IsMulticast` -/
def isMulticast : Ip → Bool
  | invalid => false
  | v4 a => a.toNat / 2 ^ 28 == 0xe
  | v6 a => a.toNat / 2 ^ 120 == 0xff

/-- `netip.Addr.IsLinkLocalUnicast` -/
def isLinkLocalUnicast : Ip → Bool
  | invalid => false
  | v4 a => a.toNat / 2 ^ 16 == 0xa9fe
  | v6 a => a.toNat / 2 ^ 118 == 0x3fa

/-- `netip.Addr.IsLinkLocalMulticast` -/
def isLinkLocalMulticast : Ip → Bool
  | invalid => false
  | v4 a => a.toNat / 2 ^ 8 == 0xe00000
  | v6 a => a.toNat / 2 ^ 120 == 0xff && a.toNat / 2 ^ 112 % 16 == 2

/-- `netip.Addr.IsPrivate` -/
def isPrivate : Ip → Bool
  | invalid => false
  | v4 a => a.toNat / 2 ^ 24 == 10 || a.toNat / 2 ^ 20 == 0xac1 || a.toNat / 2 ^ 16 == 0xc0a8
  | v6 a => a.toNat / 2 ^ 121 == 0x7e

/-- `100.64.0.0/10`. -/
def isShared : Ip → Bool
  | v4 a =>
      let b0 := a.toNat / 2 ^ 24
      let b1 := a.toNat / 2 ^ 16 % 256
      b0 == 100 && 64 ≤ b1 && b1 ≤ 127
  | _ => false

end Ip

/-! ### The forwarder -/

/-- The protocols that are forwarded. -/
inductive Proto
  | tcp
  | udp
deriving DecidableEq, Repr

/-- What a forwarder is set to. -/
structure Forwarder where
  /-- the egress allowlist; none allows all -/
  allow : Option (List UInt16)
  fleetAllow : Bool
  allowPrivate : Bool
  /-- the resolvers that the DNS proxy knows; none relays lookups -/
  dns : Option (Ip → Bool)

/-- The ports of mail, which are never forwarded to. -/
def smtpBlocked : List UInt16 := [25, 465, 587]

/-- The port of the other gateways. -/
abbrev wgFleetPort : UInt16 := 51820

/-- The port of DNS. -/
abbrev dnsPort : UInt16 := 53

/-- A flow may go to the address. -/
def Forwarder.destAllowed (f : Forwarder) (ip : Ip) : Bool :=
  if f.allowPrivate then ip ≠ .invalid
  else if ip = .invalid || ip.isLoopback || ip.isUnspecified || ip.isMulticast ||
      ip.isLinkLocalUnicast || ip.isLinkLocalMulticast || ip.isPrivate then false
  else if ip.isShared then false
  else true

/-- A flow may go to the port. -/
def Forwarder.portAllowed (f : Forwarder) (port : UInt16) (isUDP : Bool) : Bool :=
  if port ∈ smtpBlocked then false
  else
    match f.allow with
    | none => true
    | some allow =>
        if port ∈ allow then true
        else if f.fleetAllow && isUDP && port = wgFleetPort then true
        else false

/-- The flow is a lookup that the proxy answers. -/
def Forwarder.interceptDNS (f : Forwarder) (dst : Ip) (port : UInt16) : Bool :=
  port = dnsPort && f.dns.any fun handles => handles dst

/-! ### One flow -/

/-- Where a flow stands. -/
inductive At
  /-- before the checks -/
  | arrived
  /-- `acquirePeerFlow`, with its additions and its way back -/
  | takingGlobal
  | undoingGlobal
  | takingPeer
  | undoingPeer
  | returningGlobal
  /-- refused for want of a slot -/
  | refused
  | creating
  | dialing
  /-- `splice` or `relayUDP` -/
  | relaying
  /-- `serveDNSTCP` or `serveDNSUDP`, with the lookups in flight -/
  | lookups (first : Bool) (inflight : Nat)
  /-- a port-53 flow that is not DNS, before its dial -/
  | handing
  /-- the client is closed, the lookups in flight are waited for -/
  | draining (inflight : Nat)
  /-- `releasePeerFlow` -/
  | releasing
  | releasingPeer
  | ended
deriving DecidableEq, Repr

/-- A DNS message over TCP. -/
inductive Message
  /-- not read, not charged, not answered or not written -/
  | broken
  | notDNS
  | answered
deriving DecidableEq, Repr

/-- A read of a UDP flow to a resolver. -/
inductive Datagram
  /-- nothing was read -/
  | broken
  /-- read, but not charged -/
  | uncharged
  /-- `room`: a lookup may start; `last`: the read failed all the same -/
  | read (isQuery room last : Bool)
deriving DecidableEq, Repr

/-- What a step is told, or finds. -/
inductive Event
  | source (known : Bool)
  /-- whether an addition stayed within the limit -/
  | added (within : Bool)
  | subtracted
  | endpoint (ok : Bool)
  /-- the dial, and the write of what was read already -/
  | dial (ok : Bool)
  | closed
  | message (m : Message)
  | datagram (d : Datagram)
  /-- a lookup of a UDP flow ends -/
  | answered
  | waited
deriving DecidableEq, Repr

/-- Where the flow stands after its next message. -/
def serveDNSTCP (first : Bool) : Message → At
  | .broken => .releasing
  | .notDNS => if first then .handing else .releasing
  | .answered => .lookups false 0

/-- Where the flow stands after its next datagram. -/
def serveDNSUDP (first : Bool) (inflight : Nat) : Datagram → At
  | .broken => .draining inflight
  | .uncharged => .draining inflight
  | .read isQuery room last =>
      if first && !isQuery then .handing
      else
        let inflight := if room then inflight + 1 else inflight
        if last then .draining inflight else .lookups false inflight

section Handle

variable (f : Forwarder) (proto : Proto) (dst : Ip) (port : UInt16)

/-- The checks before a flow takes its slots. -/
def checked (known : Bool) : At :=
  if ! known then .ended
  else if ! f.destAllowed dst then .ended
  else if ! f.portAllowed port (proto = .udp) then .ended
  else .takingGlobal

/-- A step of a flow. -/
def handle : At → Event → Option At
  | .arrived, .source known => some (checked f proto dst port known)
  | .takingGlobal, .added within => some (if within then .takingPeer else .undoingGlobal)
  | .undoingGlobal, .subtracted => some .refused
  | .takingPeer, .added within => some (if within then .creating else .undoingPeer)
  | .undoingPeer, .subtracted => some .returningGlobal
  | .returningGlobal, .subtracted => some .refused
  | .creating, .endpoint ok =>
      some (if ! ok then .releasing
        else if f.interceptDNS dst port then .lookups true 0 else .dialing)
  | .dialing, .dial ok => some (if ok then .relaying else .releasing)
  | .relaying, .closed => some .releasing
  | .lookups first _, .message m => if proto = .tcp then some (serveDNSTCP first m) else none
  | .lookups first n, .datagram d =>
      if proto = .udp then some (serveDNSUDP first n d) else none
  | .lookups first (n + 1), .answered => some (.lookups first n)
  | .handing, .dial ok => some (if ok then .relaying else .releasing)
  | .draining (n + 1), .answered => some (.draining n)
  | .draining 0, .waited => some .releasing
  | .releasing, .subtracted => some .releasingPeer
  | .releasingPeer, .subtracted => some .ended
  | _, _ => none

end Handle

/-! ### The slots of a flow -/

/-- A counter of a forwarder, or of an entry of the limiter. -/
inductive Counter
  | flows (fwd : Nat) (proto : Proto)
  | peer (entry : Nat) (proto : Proto)
deriving DecidableEq, Repr

/-- The counters that a flow takes its slots of. -/
inductive Which
  | global
  | peer
deriving DecidableEq, Repr

/-- The addition that a flow makes next. -/
def At.effect : At → Option (Which × Int)
  | takingGlobal => some (.global, 1)
  | undoingGlobal => some (.global, -1)
  | takingPeer => some (.peer, 1)
  | undoingPeer => some (.peer, -1)
  | returningGlobal => some (.global, -1)
  | releasing => some (.global, -1)
  | releasingPeer => some (.peer, -1)
  | _ => none

/-- A flow, with the limiter it got. -/
structure Flow where
  fwd : Nat
  proto : Proto
  /-- the entry of the limiter that the flow got -/
  entry : Nat
  dst : Ip
  port : UInt16
  pos : At

namespace Flow

/-- The counter that it is counted by. -/
def counter (x : Flow) : Which → Counter
  | .global => .flows x.fwd x.proto
  | .peer => .peer x.entry x.proto

/-- The flow after a step. -/
def moved (x : Flow) (pos : At) : Flow := { x with pos := pos }

@[simp] lemma moved_pos (x : Flow) (pos : At) : (x.moved pos).pos = pos := rfl

@[simp] lemma moved_counter (x : Flow) (pos : At) : (x.moved pos).counter = x.counter := rfl

end Flow

end CumulusVpn.Egress
