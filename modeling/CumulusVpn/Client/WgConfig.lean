/-
The configs that the clients write (`clients/core-ts/src/wgconfig.ts`,
`multihop.ts` and `dns.ts`).

Texts are lists of scalars. No field is checked or escaped.

* `obfsInterfaceLines`, `appLines`: the lines that only some configs have;
* `buildWgConfig`, `buildMultihopConfig`: the config of one hop, and those of two;
* `dnsServersFor`: the resolvers of a choice.
-/
import CumulusVpn.Client.Negotiation
import CumulusVpn.Lib.KeyValue
import CumulusVpn.Split.Policy

namespace CumulusVpn.WgConf

open Negotiation KeyValue

/-! ### The lines -/

/-- The AmneziaWG keys, as a gateway advertises them and as a config has
them. -/
def obfsConfKeys : List (String × String) :=
  [("jc", "Jc"), ("jmin", "Jmin"), ("jmax", "Jmax"), ("s1", "S1"), ("s2", "S2"), ("h1", "H1"),
    ("h2", "H2"), ("h3", "H3"), ("h4", "H4")]

/-- The obfuscation lines of a profile; a value that is empty has none. -/
def obfsInterfaceLines (obfs : Option (List (String × String))) : List (List Char) :=
  obfsConfKeys.filterMap fun (wire, conf) =>
    ((obfs.bind fun params => params.lookup wire).filter (· ≠ "")).map fun v =>
      line (conf.toList, v.toList)

/-- The line of the apps of one list; an empty list has none. -/
def appLine (key : String) (apps : List String) : List (List Char) :=
  if apps = [] then [] else [line (key.toList, (", ".intercalate apps).toList)]

/-- The app rules of a compiled policy. -/
def appLines : Option Split.CompiledSplit → List (List Char)
  | none => []
  | some split =>
      appLine "IncludedApplications" split.appsIncluded ++
        appLine "ExcludedApplications" split.appsExcluded

/-- The sections of a config. -/
def confText (iface peer : List (List Char)) : List Char :=
  List.intercalate ['\n'] iface ++ ['\n', '\n'] ++ List.intercalate ['\n'] peer ++ ['\n']

/-! ### One hop -/

/-- What the config of one hop is made of. -/
structure WgConfigParams where
  privateKey : List Char
  assignedIp : List Char
  dns : List Char
  serverPubKey : List Char
  endpoint : List Char
  obfs : Option (List (String × String))
  split : Option Split.CompiledSplit
deriving DecidableEq, Repr

/-- The config of one hop. -/
def buildWgConfig (p : WgConfigParams) : List Char :=
  let iface :=
    ["[Interface]".toList,
      line ("PrivateKey".toList, p.privateKey),
      line ("Address".toList, p.assignedIp ++ "/32".toList),
      line ("DNS".toList, p.dns)] ++ appLines p.split ++ obfsInterfaceLines p.obfs
  let peer :=
    ["[Peer]".toList,
      line ("PublicKey".toList, p.serverPubKey),
      line ("Endpoint".toList, p.endpoint),
      line ("AllowedIPs".toList, (Split.allowedIpsFor p.split).toList),
      "PersistentKeepalive = 25".toList]
  confText iface peer

/-! ### Two hops -/

/-- The MTU of the outer interface. -/
def outerMtu : Nat := 1420

/-- The MTU of the inner one, which leaves room for a second header. -/
def innerMtu : Nat := 1340

/-- The endpoint without a port behind its only colon. -/
def stripEndpointPort (endpoint : List Char) : List Char :=
  let trimmed := Split.trim endpoint
  if ':' ∈ trimmed ∧ (trimmed.splitOn ':').length = 2 then beforeLast ':' trimmed else trimmed

/-- The profile of a transport; only `awg` has one. -/
def obfsForTransport (t : Transport) : Option (List (String × String)) :=
  if t.type = "awg" then t.params else none

/-- The tunnel that a gateway has enrolled a key for. -/
structure EnrollResponse where
  serverPubkey : List Char
  endpoint : List Char
  assignedIp : List Char
  dns : List Char
deriving DecidableEq, Repr

/-- What the configs of two hops are made of. -/
structure MultihopArgs where
  privateKey : List Char
  entry : EnrollResponse
  exit : EnrollResponse
  entryTransport : Option Transport
  split : Option Split.CompiledSplit
  dns : Option (List Char)
  /-- only a transport with a port number may be dialled -/
  port_valid : ∀ t ∈ entryTransport, isValidPort t.port = true

/-- The configs of two hops, and where they lead. -/
structure MultihopConfig where
  outer : List Char
  inner : List Char
  entryEndpoint : List Char
  exitEndpoint : List Char
  innerMtu : Nat
deriving DecidableEq, Repr

namespace MultihopArgs

variable (a : MultihopArgs)

/-- The address of the exit, which the outer config routes. -/
def exitIp : List Char := stripEndpointPort a.exit.endpoint

/-- The endpoint of the entry, on the port of the transport. -/
def entryEndpoint : List Char :=
  match a.entryTransport with
  | some t => applyTransportToEndpoint a.entry.endpoint t
  | none => a.entry.endpoint

/-- The profile of the entry. -/
def entryObfs : Option (List (String × String)) := a.entryTransport.bind obfsForTransport

end MultihopArgs

/-- The configs of two hops, one nested in the other. -/
def buildMultihopConfig (a : MultihopArgs) : MultihopConfig :=
  let dns := a.dns.getD a.exit.dns
  let outerIface :=
    ["[Interface]".toList,
      line ("PrivateKey".toList, a.privateKey),
      line ("Address".toList, a.entry.assignedIp ++ "/32".toList),
      line ("MTU".toList, Nat.toDigits 10 outerMtu)] ++ obfsInterfaceLines a.entryObfs
  let outerPeer :=
    ["[Peer]".toList,
      line ("PublicKey".toList, a.entry.serverPubkey),
      line ("Endpoint".toList, a.entryEndpoint),
      line ("AllowedIPs".toList, a.exitIp ++ "/32".toList),
      "PersistentKeepalive = 25".toList]
  let innerIface :=
    ["[Interface]".toList,
      line ("PrivateKey".toList, a.privateKey),
      line ("Address".toList, a.exit.assignedIp ++ "/32".toList),
      line ("DNS".toList, dns),
      line ("MTU".toList, Nat.toDigits 10 innerMtu)] ++ appLines a.split
  let innerPeer :=
    ["[Peer]".toList,
      line ("PublicKey".toList, a.exit.serverPubkey),
      line ("Endpoint".toList, a.exit.endpoint),
      line ("AllowedIPs".toList, (Split.allowedIpsFor a.split).toList),
      "PersistentKeepalive = 25".toList]
  { outer := confText outerIface outerPeer
    inner := confText innerIface innerPeer
    entryEndpoint := a.entryEndpoint
    exitEndpoint := a.exitIp ++ ':' :: portText wgPort
    innerMtu := innerMtu }

/-! ### Resolvers -/

/-- What the apps offer as resolvers. -/
inductive DnsChoice
  | cloudflare
  | google
  | quad9
  | dns4eu
  | adguard
  | family
deriving DecidableEq, Repr

/-- The addresses of a choice, the primary one first. -/
def DnsChoice.servers : DnsChoice → List String
  | .cloudflare => ["1.1.1.1", "1.0.0.1"]
  | .google => ["8.8.8.8", "8.8.4.4"]
  | .quad9 => ["9.9.9.9", "149.112.112.112"]
  | .dns4eu => ["86.54.11.1", "86.54.11.201"]
  | .adguard => ["94.140.14.14", "94.140.15.15"]
  | .family => ["1.1.1.3", "1.0.0.3"]

/-- The resolvers of a config: what the gateway advertised by default, or else
those of the choice. -/
def dnsServersFor (choice : DnsChoice) (gatewayDns : List Char) : List Char :=
  if choice = .cloudflare then gatewayDns else (", ".intercalate choice.servers).toList

end CumulusVpn.WgConf
