/-
The firewall rules of the desktop client
(`clients/desktop/src-tauri/tunnel/src/killswitch.rs`).

Rules are records of what their text names; the text itself, the names and the
groups of the Windows rules are left out.

* `macosAnchorRules`, `linuxNftTable`, `windowsRules`: the rules of a policy, on
  Windows with the DNS block;
* `Packet`, `pfAllows`, `nftAllows`, `windowsAllows`: what the rules let out;
* `Names`: how the three systems name their interfaces.
-/
import CumulusVpn.Desktop.DnsBlock
import CumulusVpn.Lib.RuleList
import CumulusVpn.Split.RouteLists

namespace CumulusVpn.Desktop.KillSwitch

open CumulusVpn.Split Net
open Dns.Windows (Range Rule dnsBlockRules)

/-! ### The policy -/

/-- What the kill switch must allow while it blocks everything else. -/
structure LeakPolicy where
  /-- `<ip>:<port>` -/
  endpoint : String
  /-- the real kernel tun names, once known -/
  tunInterfaces : List String
  proto : Proto
  bypassCidrs : List String
  /-- the only DNS allowed out, and only through a tunnel device -/
  dnsServers : List IpAddr
  tunnelAddress : Option IpAddr

/-- The port of an endpoint that names none. -/
def defaultWgPort : List Char := "51820".toList

/-- `rsplit_once(':')`: the text around the last colon. -/
def rsplitOnce (s : List Char) : Option (List Char × List Char) :=
  match s.reverse.dropWhile (· ≠ ':') with
  | [] => none
  | _ :: host => some (host.reverse, (s.reverse.takeWhile (· ≠ ':')).reverse)

/-- Strips a trailing `:port`. -/
def stripPort (endpoint : List Char) : List Char :=
  match rsplitOnce endpoint with
  | some (host, _) => host
  | none => endpoint

/-- The host and the port of an endpoint; a port that is not a number is
stripped, and the default stands in for it. -/
def splitEndpoint (endpoint : List Char) : List Char × List Char :=
  match rsplitOnce endpoint with
  | some (host, port) =>
      if port ≠ [] ∧ port.all isDigit then (host, port) else (stripPort endpoint, defaultWgPort)
  | none => (stripPort endpoint, defaultWgPort)

/-! ### Packets -/

/-- Where a packet leaves. -/
inductive Iface
  | loopback
  | tunnel (i : Nat)
  | other (i : Nat)
deriving DecidableEq, Repr

/-- The interface is one of the tunnel's. -/
def Iface.isTunnel : Iface → Bool
  | .tunnel _ => true
  | _ => false

/-- An outbound packet, and where it leaves. -/
structure Packet extends Net.Packet where
  iface : Iface

/-- What a rule names as addresses. -/
inductive Target
  | address (ip : IpAddr)
  /-- the text of an address -/
  | host (s : List Char)
  /-- the text of a prefix -/
  | cidr (s : String)
  /-- `a-b` -/
  | range (r : Range)

/-- The address is in the target. -/
def Target.holds (ip : IpAddr) : Target → Bool
  | .address a => a = ip
  | .host s => parseIpAddr s = some ip
  | .cidr s => (parseCidr s).any fun c => c.family = ip.family ∧ ip.value ∈ cidrToInterval c
  | .range r => r.family = ip.family && ip.value ∈ r.span

/-- DNS, also over TLS or QUIC. -/
def dnsPorts : List Nat := [53, 853]

/-- The packet is of one of the protocols; of any where none is named. -/
def Packet.protoIn (p : Packet) (protos : Option (List Proto)) : Bool :=
  protos.all fun protos => p.transport.any fun t => t.1 ∈ protos

/-- The remote port is among these, where ports are asked for at all. -/
def Packet.portIn (p : Packet) (ports : Option (List Nat)) : Bool :=
  ports.all fun ports => p.transport.any fun t => t.2 ∈ ports

/-- The address is in one of the targets, where any are asked for. -/
def targetsHold (ip : IpAddr) (targets : Option (List Target)) : Bool :=
  targets.all fun targets => targets.any (Target.holds ip)

/-! ### macOS -/

/-- A rule for outbound packets: what it does not name, it does not ask for. -/
structure PfRule where
  pass : Bool
  /-- the first matching `quick` rule wins -/
  quick : Bool
  on : Option String
  proto : Option (List Proto)
  to_ : Option (List Target)
  port : Option (List Nat)

/-- The rule is about the packet. -/
def PfRule.holds (name : Iface → String) (r : PfRule) (p : Packet) : Bool :=
  (r.on.all fun on => name p.iface = on) && p.protoIn r.proto && targetsHold p.remote r.to_ &&
    p.portIn r.port

/-- pf: the last match wins, unless a `quick` rule matches before. -/
def pfLanguage (name : Iface → String) : RuleList.Language PfRule Packet Bool where
  holds := PfRule.holds name
  verdict := PfRule.pass
  final := PfRule.quick

/-- The rules of our anchor; pf passes what no rule matches. -/
def pfAllows (name : Iface → String) (rules : List PfRule) (p : Packet) : Bool :=
  (pfLanguage name).evaluate p rules true

/-- `pass out quick on … proto { udp tcp } to { … } port { 53 853 } keep state` -/
def PfRule.passDns (dnsServers : List IpAddr) (tun : String) : PfRule :=
  ⟨true, true, some tun, some [.udp, .tcp], some (dnsServers.map .address), some dnsPorts⟩

/-- `pass out quick on … all` -/
def PfRule.passOn (iface : String) : PfRule := ⟨true, true, some iface, none, none, none⟩

/-- `pass out quick to … keep state` -/
def PfRule.passTo (cidr : String) : PfRule := ⟨true, true, none, none, some [.cidr cidr], none⟩

/-- `pass out quick proto … to … port … keep state` -/
def PfRule.passEndpoint (proto : Proto) (endpointIp endpointPort : List Char) : PfRule :=
  ⟨true, true, none, some [proto], some [.host endpointIp], some [decimalValue endpointPort]⟩

/-- `block drop out quick proto { udp tcp } to any port { 53 853 }` -/
def PfRule.blockDns : PfRule := ⟨false, true, none, some [.udp, .tcp], none, some dnsPorts⟩

/-- `block drop out all` -/
def PfRule.blockAll : PfRule := ⟨false, false, none, none, none, none⟩

/-- The pf anchor rules, in evaluation order. -/
def macosAnchorRules (endpointIp endpointPort : List Char) (proto : Proto)
    (bypassCidrs tunInterfaces : List String) (dnsServers : List IpAddr) : List PfRule :=
  [.passOn "lo0"] ++
  [.passEndpoint proto endpointIp endpointPort] ++
  (if dnsServers = [] then [] else tunInterfaces.map (.passDns dnsServers)) ++
  -- ahead of the tunnel and the bypass: no other DNS gets out
  [.blockDns] ++
  tunInterfaces.map .passOn ++
  bypassCidrs.map .passTo ++
  [.blockAll]

/-! ### Linux -/

/-- A name, or the start of one before `*`. -/
def nameMatches (pattern name : String) : Bool :=
  match pattern.toList.reverse with
  | '*' :: start => start.reverse.isPrefixOf name.toList
  | _ => pattern = name

/-- A rule of the output chain. -/
structure NftRule where
  oifname : Option String
  daddr : Option (Family × List Target)
  dport : Option (Proto × List Nat)
  accept : Bool

/-- The rule is about the packet. -/
def NftRule.holds (name : Iface → String) (r : NftRule) (p : Packet) : Bool :=
  (r.oifname.all fun pattern => nameMatches pattern (name p.iface)) &&
  (r.daddr.all fun d => p.remote.family = d.1 && d.2.any (Target.holds p.remote)) &&
  r.dport.all fun d => p.protoIn (some [d.1]) && p.portIn (some d.2)

/-- nft: the first match wins. -/
def nftLanguage (name : Iface → String) : RuleList.Language NftRule Packet Bool where
  holds := NftRule.holds name
  verdict := NftRule.accept
  final := fun _ => true

/-- The rules of a chain with `policy drop`. -/
def nftAllows (name : Iface → String) (rules : List NftRule) (p : Packet) : Bool :=
  (nftLanguage name).evaluate p rules false

/-- `oifname "cvpn*" … daddr { … } … dport { 53, 853 } accept` -/
def NftRule.acceptDns (family : Family) (servers : List IpAddr) (l4 : Proto) : NftRule :=
  ⟨some "cvpn*", some (family, servers.map .address), some (l4, dnsPorts), true⟩

/-- `oifname … accept` -/
def NftRule.acceptOn (oifname : String) : NftRule := ⟨some oifname, none, none, true⟩

/-- `… daddr … accept` -/
def NftRule.acceptTo (cidr : String) : NftRule :=
  ⟨none, some (if ':' ∈ cidr.toList then .v6 else .v4, [.cidr cidr]), none, true⟩

/-- `ip daddr … dport … accept` -/
def NftRule.acceptEndpoint (proto : Proto) (endpointIp endpointPort : List Char) : NftRule :=
  ⟨none, some (.v4, [.host endpointIp]), some (proto, [decimalValue endpointPort]), true⟩

/-- `… dport { 53, 853 } drop` -/
def NftRule.dropDns (l4 : Proto) : NftRule := ⟨none, none, some (l4, dnsPorts), false⟩

/-- The rules for the resolvers of a family. -/
def dnsAllow (dnsServers : List IpAddr) (family : Family) : List NftRule :=
  let servers := dnsServers.filter fun s => s.family = family
  if servers = [] then [] else [Proto.udp, Proto.tcp].map (.acceptDns family servers)

/-- The rules of the output chain. -/
def linuxNftTable (endpointIp endpointPort : List Char) (proto : Proto)
    (bypassCidrs : List String) (dnsServers : List IpAddr) : List NftRule :=
  [.acceptOn "lo"] ++
  [.acceptEndpoint proto endpointIp endpointPort] ++
  [Family.v4, .v6].flatMap (dnsAllow dnsServers) ++
  [.dropDns .udp, .dropDns .tcp] ++
  [.acceptOn "cvpn*"] ++
  bypassCidrs.map .acceptTo

/-! ### Windows -/

/-- A rule for outbound packets. -/
structure NetFirewallRule where
  block : Bool
  protocol : Option (List Proto)
  remotePort : Option (List Nat)
  localAddress : Option (List Target)
  remoteAddress : Option (List Target)
  interfaceAlias : Option String

/-- The rule is about the packet. -/
def NetFirewallRule.holds (name : Iface → String) (r : NetFirewallRule) (p : Packet) : Bool :=
  p.protoIn r.protocol && p.portIn r.remotePort && targetsHold p.local_ r.localAddress &&
    targetsHold p.remote r.remoteAddress &&
    r.interfaceAlias.all fun pattern => nameMatches pattern (name p.iface)

/-- `CumulusVPN kill switch — endpoint` -/
def NetFirewallRule.allowEndpoint (proto : Proto) (endpointIp endpointPort : List Char) :
    NetFirewallRule :=
  ⟨false, some [proto], some [decimalValue endpointPort], none, some [.host endpointIp], none⟩

/-- `CumulusVPN kill switch — tunnel` -/
def NetFirewallRule.allowTunnel : NetFirewallRule := ⟨false, none, none, none, none, some "cvpn*"⟩

/-- `CumulusVPN kill switch — split bypass` -/
def NetFirewallRule.allowTo (cidrs : List String) : NetFirewallRule :=
  ⟨false, none, none, none, some (cidrs.map .cidr), none⟩

/-- A rule of the DNS block. -/
def NetFirewallRule.blockDns (r : Rule) : NetFirewallRule :=
  ⟨true, some [r.proto], some dnsPorts, r.localAddress.map fun ranges => ranges.map .range,
    some (r.remoteAddress.map .range), none⟩

/-- The allow rules and the DNS block of our group. -/
def windowsRules (endpointIp endpointPort : List Char) (proto : Proto) (bypassCidrs : List String)
    (dnsServers : List IpAddr) (tunnelAddress : Option IpAddr) : List NetFirewallRule :=
  [.allowEndpoint proto endpointIp endpointPort] ++
  [.allowTunnel] ++
  (if bypassCidrs ≠ [] then [.allowTo bypassCidrs] else []) ++
  (dnsBlockRules dnsServers tunnelAddress (parseIpAddr endpointIp).toList).map .blockDns

/-- Windows Firewall: loopback is exempt, a block rule beats every allow rule,
and what no rule matches is blocked. -/
def windowsAllows (name : Iface → String) (rules : List NetFirewallRule) (p : Packet) : Bool :=
  p.iface = .loopback ||
    (!(rules.any fun r => r.block && r.holds name p) &&
      rules.any fun r => !r.block && r.holds name p)

/-! ### The three backends -/

/-- How the systems name the interfaces: on macOS the tunnel devices are
listed, elsewhere they are told by their names. -/
structure Names (policy : LeakPolicy) where
  pf : Iface → String
  nft : Iface → String
  windows : Iface → String
  pf_loopback : ∀ i, pf i = "lo0" ↔ i = .loopback
  pf_tunnel : ∀ i, pf i ∈ policy.tunInterfaces ↔ i.isTunnel = true
  nft_loopback : ∀ i, nft i = "lo" ↔ i = .loopback
  nft_tunnel : ∀ i, nameMatches "cvpn*" (nft i) = i.isTunnel
  windows_tunnel : ∀ i, nameMatches "cvpn*" (windows i) = i.isTunnel

namespace LeakPolicy

variable (policy : LeakPolicy)

/-- The address of the endpoint. -/
def endpointIp : List Char := (splitEndpoint policy.endpoint.toList).1

/-- The port of the endpoint. -/
def endpointPort : List Char := (splitEndpoint policy.endpoint.toList).2

/-- What gets out under the rules of `engage` on macOS, the tunnel devices
being known. -/
def macosAllows (name : Iface → String) (p : Packet) : Bool :=
  pfAllows name (macosAnchorRules policy.endpointIp policy.endpointPort policy.proto
    policy.bypassCidrs policy.tunInterfaces policy.dnsServers) p

/-- On Linux. -/
def linuxAllows (name : Iface → String) (p : Packet) : Bool :=
  nftAllows name (linuxNftTable policy.endpointIp policy.endpointPort policy.proto
    policy.bypassCidrs policy.dnsServers) p

/-- On Windows. -/
def windowsAllows (name : Iface → String) (p : Packet) : Bool :=
  KillSwitch.windowsAllows name (windowsRules policy.endpointIp policy.endpointPort policy.proto
    policy.bypassCidrs policy.dnsServers policy.tunnelAddress) p

end LeakPolicy

end CumulusVpn.Desktop.KillSwitch
