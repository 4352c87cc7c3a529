/-
The desktop tunnel manager
(`clients/desktop/src-tauri/tunnel/src/lib.rs`, `routing.rs`, and
`DnsSession` of `dns.rs`).

`Sys` is what of ours is installed in the machine; `Inner` is what the
manager remembers of it.  Every external command of a call is answered by
`Answers`; removals are best effort and succeed.  The checks that come before
the lock are parameters.

* `Sys`: sidecars, TLS bridges, routes, the system resolver, the firewall;
* `Manager.replace`: the prologue that clears the previous session;
* `Manager.connect`, `Manager.connectMultihop`: with every failure exit;
* `Manager.status`: roam repair, the DNS re-assert and the watchdog;
* `Manager.disconnect`, `Manager.disconnectIfActive`.
-/
import CumulusVpn.Desktop.Firewall

namespace CumulusVpn.Desktop

/-! ### Requests, errors and status -/

/-- What a call of the manager fails with. -/
inductive TunnelError
  | badConfig (text : String)
  | uapi (text : String)
  | killSwitch (text : String)
  | sidecar (text : String)
  | notConnected
deriving DecidableEq, Repr

/-- What the error displays as. -/
def TunnelError.message : TunnelError → String
  | .badConfig text => "invalid wireguard config: " ++ text
  | .uapi text => "uapi error: " ++ text
  | .killSwitch text => "kill switch error: " ++ text
  | .sidecar text => "sidecar error: " ++ text
  | .notConnected => "no active tunnel"

/-- The states that the window shows. -/
inductive TunnelState
  | down
  | connecting
  | up
  | error
deriving DecidableEq, Repr

/-- A TLS bridge: where it connects to, and under which name. -/
structure TlsParams where
  serverAddr : String
  sni : String
deriving DecidableEq, Repr

/-- The routes of split tunnelling. -/
structure SplitParams where
  bypassRoutes : List String
  tunnelRoutes : List String
deriving DecidableEq, Repr

/-- What a session over one hop is started with. -/
structure ConnectRequest where
  country : String
  wgConfig : String
  endpoint : String
  assignedIp : String
  killSwitch : Bool
  tls : Option TlsParams
  split : Option SplitParams
deriving DecidableEq, Repr

/-- What a session over two hops is started with. -/
structure MultihopRequest where
  entryCountry : String
  exitCountry : String
  outer : String
  inner : String
  entryEndpoint : String
  exitEndpoint : String
  innerMtu : Nat
  assignedIp : String
  killSwitch : Bool
  split : Option SplitParams
deriving DecidableEq, Repr

/-- The parts of a parsed `.conf` that the manager reads itself. -/
structure WgConfig where
  address : String
  dns : Option String
  endpoint : String
deriving DecidableEq, Repr

/-- The checks before anything is touched. -/
structure Checks where
  ensureElevated : Except TunnelError Unit
  parse : String → Except TunnelError WgConfig
  validateConnect : ConnectRequest → Except TunnelError Unit
  validateMultihop : MultihopRequest → Except TunnelError Unit
  parseServers : String → List String
  parseIp : String → Option String

/-- The checks of `connect_request` and `connect`, with the parsed config. -/
def Checks.accept (c : Checks) (r : ConnectRequest) : Except TunnelError WgConfig := do
  c.validateConnect r
  c.ensureElevated
  c.parse r.wgConfig

/-- The checks of `connect_multihop_request` and `connect_multihop`, with the
inner config. -/
def Checks.acceptMultihop (c : Checks) (r : MultihopRequest) : Except TunnelError WgConfig := do
  c.validateMultihop r
  c.ensureElevated
  let _ ← c.parse r.outer
  c.parse r.inner

/-- What the window is told. -/
structure TunnelStatus where
  state : TunnelState
  endpoint : Option String
  assignedIp : Option String
  country : Option String
  rxBytes : Nat
  txBytes : Nat
  lastHandshake : Option Int
  error : Option String
  dnsWarning : Option String
deriving DecidableEq, Repr

/-- Drops a trailing `:port`; IPv6 forms stay as they are. -/
def stripEndpointPort (endpoint : String) : String :=
  let e := ((endpoint.toList.dropWhile Char.isWhitespace).reverse.dropWhile
    Char.isWhitespace).reverse
  if e.count ':' = 1 then String.ofList (e.takeWhile (· ≠ ':')) else String.ofList e

/-! ### What is installed in the machine -/

/-- A route to `dest`, through one of our devices or the physical network. -/
structure Route where
  dest : String
  dev : Option String
deriving DecidableEq, Repr

/-- What the manager has changed on the machine. -/
structure Sys where
  firewall : FwLog
  /-- the devices of the running wireguard-go processes -/
  sidecars : List String
  /-- the local endpoints of the open TLS bridges -/
  bridges : List String
  routes : List Route
  /-- the system resolver is ours -/
  dns : Bool
deriving DecidableEq, Repr

namespace Sys

/-- A machine without anything of ours but the firewall's log. -/
def clear (firewall : FwLog) : Sys := ⟨firewall, [], [], [], false⟩

/-- A killed sidecar takes its device and the routes through it along. -/
def kill (s : Sys) (dev : String) : Sys :=
  { s with
    sidecars := s.sidecars.filter (· ≠ dev)
    routes := s.routes.filter fun r => r.dev ≠ some dev }

/-- A TLS bridge is shut down. -/
def shutdown (s : Sys) (bridge : String) : Sys :=
  { s with bridges := s.bridges.filter (· ≠ bridge) }

/-- `remove_endpoint_bypass`, `clear_multihop_routes`. -/
def removeRoute (s : Sys) (dest : String) : Sys :=
  { s with routes := s.routes.filter fun r => r.dest ≠ dest }

/-- The routes around the tunnel are removed, one by one. -/
def removeBypassRoutes (s : Sys) (cidrs : List String) : Sys := cidrs.foldl removeRoute s

/-- The kill switch is taken out. -/
def disengage (s : Sys) (b : Backend) : Sys :=
  { s with firewall := Desktop.disengage b s.firewall }

/-- The kill switch is put in; what is in force when it fails is in the log. -/
def engage (s : Sys) (b : Backend) (bypassCidrs : List String) (a : EngageAnswer) :
    Except String Unit × Sys :=
  let (r, firewall) := Desktop.engage b bypassCidrs a s.firewall
  (r, { s with firewall := firewall })

end Sys

/-- What a route command answers, given the routes so far. -/
abbrev RouteAnswers := List Route → Route → Except TunnelError Unit

/-- A route that has to be installed. -/
def addRoute (a : RouteAnswers) (r : Route) (routes : List Route) :
    Except TunnelError Unit × List Route :=
  match a routes r with
  | .ok () => (.ok (), routes ++ [r])
  | .error e => (.error e, routes)

/-- `is_link_scoped`. -/
def isLinkScoped (cidr : String) : Bool :=
  let lower := cidr.toList.map Char.toLower
  ["169.254.", "224.", "255.255.255.255", "fe80:", "ff"].any fun p => p.toList.isPrefixOf lower

/-- The routes in order; an IPv6 or link-scoped one is best effort, and the
first other one that fails stops the walk. -/
def addRoutes (a : RouteAnswers) (optional : String → Bool) (dev : Option String) :
    List String → List Route → Except TunnelError Unit × List Route
  | [], routes => (.ok (), routes)
  | cidr :: cidrs, routes =>
      match addRoute a ⟨cidr, dev⟩ routes with
      | (.ok (), routes) => addRoutes a optional dev cidrs routes
      | (.error e, routes) =>
          if optional cidr then addRoutes a optional dev cidrs routes else (.error e, routes)

/-- The prefix is one of IPv6. -/
def isIPv6 (cidr : String) : Bool := ':' ∈ cidr.toList

/-- `add_tunnel_routes`. -/
def addTunnelRoutes (a : RouteAnswers) (cidrs : List String) (dev : String) :
    List Route → Except TunnelError Unit × List Route :=
  addRoutes a isIPv6 (some dev) cidrs

/-- `add_bypass_routes`. -/
def addBypassRoutes (a : RouteAnswers) (cidrs : List String) :
    List Route → Except TunnelError Unit × List Route :=
  addRoutes a (fun cidr => isIPv6 cidr || isLinkScoped cidr) none cidrs

/-- `add_default_route`: the two halves, and those of IPv6 best effort. -/
def addDefaultRoute (a : RouteAnswers) (dev : String) :
    List Route → Except TunnelError Unit × List Route :=
  addRoutes a isIPv6 (some dev) ["0.0.0.0/1", "128.0.0.0/1", "::/1", "8000::/1"]

/-- The routes of a session: only the listed prefixes through the device in
include mode, else the default route and then the bypass routes. -/
def addSessionRoutes (a : RouteAnswers) (splitTunnel splitBypass : List String) (dev : String)
    (routes : List Route) : Except TunnelError Unit × List Route :=
  if splitTunnel ≠ [] then addTunnelRoutes a splitTunnel dev routes
  else
    match addDefaultRoute a dev routes with
    | (.ok (), routes) => addBypassRoutes a splitBypass routes
    | (.error e, routes) => (.error e, routes)

/-! ### DNS sessions -/

/-- What the system resolver is pointed at. -/
structure DnsTarget where
  interface : String
  servers : List String
  tunnelAddress : Option String
  endpointIps : List String
  pinRoute : Bool
  killSwitch : Bool
deriving DecidableEq, Repr

/-- The resolver that is ours, and what went wrong with it. -/
structure DnsSession where
  target : DnsTarget
  warning : Option String
deriving DecidableEq, Repr

/-- What an attempt to set the resolver comes to. -/
structure DnsAnswer where
  /-- the system resolver was changed, possibly half-way -/
  touched : Bool
  warning : Option String

/-- The resolver is taken over; without servers it is left alone. -/
def DnsSession.start (target : DnsTarget) (a : DnsAnswer) (s : Sys) : DnsSession × Sys :=
  if target.servers = [] then (⟨target, a.warning⟩, s)
  else (⟨target, a.warning⟩, { s with dns := s.dns || a.touched })

/-- `none`: no attempt is due. -/
def DnsSession.reassert (d : DnsSession) (a : Option DnsAnswer) (s : Sys) : DnsSession × Sys :=
  if d.target.servers = [] then (d, s)
  else
    match a with
    | none => (d, s)
    | some a => ({ d with warning := a.warning }, { s with dns := s.dns || a.touched })

/-! ### The manager -/

/-- The state behind the mutex. -/
structure Inner where
  state : TunnelState
  endpoint : Option String
  assignedIp : Option String
  country : Option String
  error : Option String
  sidecar : Option String
  /-- the inner (exit) device of a multi-hop session -/
  exitSidecar : Option String
  bridge : Option String
  exitIp : Option String
  bypassRoutes : List String
  dns : Option DnsSession
  backend : Backend
  localSrc : Option String
  rxBytes : Nat
  txBytes : Nat
  lastHandshake : Option Int
  repairedAt : Option Int
deriving DecidableEq, Repr

/-- The state without a session. -/
def Inner.new (b : Backend) : Inner where
  state := .down
  endpoint := none
  assignedIp := none
  country := none
  error := none
  sidecar := none
  exitSidecar := none
  bridge := none
  exitIp := none
  bypassRoutes := []
  dns := none
  backend := b
  localSrc := none
  rxBytes := 0
  txBytes := 0
  lastHandshake := none
  repairedAt := none

/-- What the window is told of the state. -/
def Inner.snapshot (i : Inner) : TunnelStatus where
  state := i.state
  endpoint := i.endpoint
  assignedIp := i.assignedIp
  country := i.country
  rxBytes := i.rxBytes
  txBytes := i.txBytes
  lastHandshake := i.lastHandshake
  error := i.error
  dnsWarning := i.dns.bind DnsSession.warning

/-- The manager and the machine it runs on. -/
structure Manager where
  inner : Inner
  sys : Sys
deriving DecidableEq, Repr

/-- What a call returns. -/
abbrev Reply := Except TunnelError TunnelStatus

namespace Manager

/-- A manager at startup, with nothing of ours installed. -/
def new (b : Backend) : Manager := ⟨.new b, .clear ⟨.clear, []⟩⟩

/-- `restore_dns`. -/
def restoreDns (m : Manager) : Manager where
  inner := { m.inner with dns := none }
  sys := if m.inner.dns.isSome then { m.sys with dns := false } else m.sys

/-- Kills the devices of the session. -/
def killDevices (i : Inner) (s : Sys) : Sys :=
  let s := i.sidecar.elim s s.kill
  i.exitSidecar.elim s s.kill

/-- Removes the pin to the exit, the endpoint bypass and the bypass routes of
the session. -/
def releaseRoutes (i : Inner) (s : Sys) : Sys :=
  let s := i.exitIp.elim s s.removeRoute
  let s := i.endpoint.elim s fun ep => s.removeRoute (stripEndpointPort ep)
  s.removeBypassRoutes i.bypassRoutes

/-- Replaces any existing tunnel, and begins a new one. -/
def replace (m : Manager) (country endpoint : String) : Manager :=
  let m := m.restoreDns
  let s := killDevices m.inner m.sys
  let s := m.inner.bridge.elim s s.shutdown
  { inner :=
      { m.inner with
        sidecar := none
        exitSidecar := none
        bridge := none
        exitIp := none
        bypassRoutes := []
        state := .connecting
        country := some country
        endpoint := some endpoint
        error := none }
    sys := releaseRoutes m.inner s }

/-- A failure exit: the error is on the status. -/
def fail (m : Manager) (e : TunnelError) : Reply × Manager :=
  (.error e, { m with inner := { m.inner with state := .error, error := some e.message } })

/-- The answers to the external commands of one connect. -/
structure Answers where
  /-- phase 1 -/
  engage : EngageAnswer
  /-- phase 2, the first device -/
  engageTun : EngageAnswer
  /-- phase 2, both devices of a multi-hop pair -/
  engageTuns : EngageAnswer
  /-- the local endpoint of the TLS bridge -/
  bridge : Except TunnelError String
  /-- the device of the (entry) sidecar -/
  spawn : Except TunnelError String
  spawnExit : Except TunnelError String
  configure : Except TunnelError Unit
  configureExit : Except TunnelError Unit
  route : RouteAnswers
  dns : DnsAnswer

/-- Whether the kill switch needs the phase-2 re-engage. -/
def killSwitchNeedsTunPass (b : Backend) : Bool := b = .macosPf

/-- The leak protection of phase 1: engaged, or torn down when this session
has it off. -/
def engageFirst (m : Manager) (killSwitch : Bool) (bypass : List String) (a : EngageAnswer) :
    Except TunnelError Unit × Manager :=
  if killSwitch then
    match m.sys.engage m.inner.backend bypass a with
    | (.ok (), s) => (.ok (), { m with sys := s })
    | (.error _, s) => (.error (.killSwitch "failed to engage"), { m with sys := s })
  else (.ok (), { m with sys := m.sys.disengage m.inner.backend })

/-- The re-engage of phase 2, once the devices are known. -/
def engageWithTuns (m : Manager) (killSwitch : Bool) (bypass : List String) (a : EngageAnswer) :
    Except TunnelError Unit × Manager :=
  if killSwitch && killSwitchNeedsTunPass m.inner.backend then
    match m.sys.engage m.inner.backend bypass a with
    | (.ok (), s) => (.ok (), { m with sys := s })
    | (.error text, s) => (.error (.killSwitch text), { m with sys := s })
  else (.ok (), m)

/-- The kill switch of the manager's backend is taken out. -/
def disengage (m : Manager) : Manager := { m with sys := m.sys.disengage m.inner.backend }

/-- The exit after a sidecar was spawned: it is killed, the kill switch is
lifted, and the bridge goes when it drops. -/
def unwindSidecar (m : Manager) (dev : String) (bridge : Option String) (e : TunnelError) :
    Reply × Manager :=
  let s := (m.sys.kill dev).disengage m.inner.backend
  { m with sys := bridge.elim s s.shutdown }.fail e

/-- The part of `connect` from the routes on. -/
def installSession (c : Checks) (a : Answers) (r : ConnectRequest) (config : WgConfig)
    (dev : String) (bridge : Option String) (m : Manager) : Reply × Manager :=
  let splitBypass := (r.split.map SplitParams.bypassRoutes).getD []
  let splitTunnel := (r.split.map SplitParams.tunnelRoutes).getD []
  let endpointIp := stripEndpointPort r.endpoint
  match addRoute a.route ⟨endpointIp, none⟩ m.sys.routes with
  | (.error e, routes) =>
      unwindSidecar { m with sys := { m.sys with routes := routes } } dev bridge e
  | (.ok (), routes) =>
      match addSessionRoutes a.route splitTunnel splitBypass dev routes with
      | (.error e, routes) =>
          let s := ({ m.sys with routes := routes }.removeBypassRoutes splitBypass).removeRoute
            endpointIp
          unwindSidecar { m with sys := s } dev bridge e
      | (.ok (), routes) =>
          let (dns, s) := DnsSession.start
            { interface := dev
              servers := (config.dns.map c.parseServers).getD []
              tunnelAddress := c.parseIp config.address
              endpointIps := (c.parseIp endpointIp).toList
              pinRoute := r.split.isSome
              killSwitch := r.killSwitch } a.dns { m.sys with routes := routes }
          let inner :=
            { m.inner with
              bypassRoutes := splitBypass
              dns := some dns
              sidecar := some dev
              bridge := bridge
              assignedIp := some r.assignedIp
              state := .up
              lastHandshake := none
              rxBytes := 0
              txBytes := 0 }
          (.ok inner.snapshot, ⟨inner, s⟩)

/-- The part of `connect` from the sidecar on. -/
def bringUp (c : Checks) (a : Answers) (r : ConnectRequest) (config : WgConfig)
    (bridge : Option String) (m : Manager) : Reply × Manager :=
  let splitBypass := (r.split.map SplitParams.bypassRoutes).getD []
  match a.spawn with
  | .error e =>
      let s := m.sys.disengage m.inner.backend
      { m with sys := bridge.elim s s.shutdown }.fail e
  | .ok dev =>
      let m := { m with sys := { m.sys with sidecars := dev :: m.sys.sidecars } }
      match m.engageWithTuns r.killSwitch splitBypass a.engageTun with
      | (.error e, m) => unwindSidecar m dev bridge e
      | (.ok (), m) =>
          match a.configure with
          | .error e => unwindSidecar m dev bridge e
          | .ok () => installSession c a r config dev bridge m

/-- `connect_request` and `connect`. -/
def connect (c : Checks) (a : Answers) (r : ConnectRequest) (m : Manager) : Reply × Manager :=
  match c.accept r with
  | .error e => (.error e, m)
  | .ok config =>
      let m := m.replace r.country r.endpoint
      match m.engageFirst r.killSwitch ((r.split.map SplitParams.bypassRoutes).getD [])
          a.engage with
      | (.error e, m) => (.error e, m)
      | (.ok (), m) =>
          match r.tls with
          | none => bringUp c a r config none m
          | some _ =>
              match a.bridge with
              | .error e => m.disengage.fail e
              | .ok bridge =>
                  bringUp c a r { config with endpoint := bridge } (some bridge)
                    { m with sys := { m.sys with bridges := bridge :: m.sys.bridges } }

/-- `fail` of `connect_multihop`: unwinds everything set up so far. -/
def unwindMultihop (m : Manager) (exitIp entryIp : String) (entry exit_ : Option String)
    (routed : Bool) (e : TunnelError) : Reply × Manager :=
  let s := if routed then m.sys.removeRoute exitIp else m.sys
  let s := s.removeRoute entryIp
  let s := exit_.elim s s.kill
  let s := entry.elim s s.kill
  { m with sys := s.disengage m.inner.backend }.fail e

/-- The part of `connect_multihop` from the routes on. -/
def installMultihop (c : Checks) (a : Answers) (r : MultihopRequest) (innerCfg : WgConfig)
    (entry exit_ : String) (m : Manager) : Reply × Manager :=
  let exitIp := stripEndpointPort r.exitEndpoint
  let entryIp := stripEndpointPort r.entryEndpoint
  let splitBypass := (r.split.map SplitParams.bypassRoutes).getD []
  let splitTunnel := (r.split.map SplitParams.tunnelRoutes).getD []
  match addRoute a.route ⟨entryIp, none⟩ m.sys.routes with
  | (.error e, routes) =>
      unwindMultihop { m with sys := { m.sys with routes := routes } } exitIp entryIp
        (some entry) (some exit_) false e
  | (.ok (), routes) =>
      match addRoute a.route ⟨exitIp, some entry⟩ routes with
      | (.error e, routes) =>
          unwindMultihop { m with sys := { m.sys with routes := routes } } exitIp entryIp
            (some entry) (some exit_) false e
      | (.ok (), routes) =>
          match addSessionRoutes a.route splitTunnel splitBypass exit_ routes with
          | (.error e, routes) =>
              let s := { m.sys with routes := routes }.removeBypassRoutes splitBypass
              unwindMultihop { m with sys := s } exitIp entryIp (some entry) (some exit_) true e
          | (.ok (), routes) =>
              let (dns, s) := DnsSession.start
                { interface := exit_
                  servers := (innerCfg.dns.map c.parseServers).getD []
                  tunnelAddress := c.parseIp innerCfg.address
                  endpointIps := [entryIp, exitIp].filterMap c.parseIp
                  pinRoute := r.split.isSome
                  killSwitch := r.killSwitch } a.dns { m.sys with routes := routes }
              let inner :=
                { m.inner with
                  bypassRoutes := splitBypass
                  dns := some dns
                  sidecar := some entry
                  exitSidecar := some exit_
                  exitIp := some exitIp
                  assignedIp := some r.assignedIp
                  state := .up
                  lastHandshake := none
                  rxBytes := 0
                  txBytes := 0 }
              (.ok inner.snapshot, ⟨inner, s⟩)

/-- The part of `connect_multihop` from the exit device on. -/
def bringUpExit (c : Checks) (a : Answers) (r : MultihopRequest) (innerCfg : WgConfig)
    (entry : String) (m : Manager) : Reply × Manager :=
  let exitIp := stripEndpointPort r.exitEndpoint
  let entryIp := stripEndpointPort r.entryEndpoint
  let splitBypass := (r.split.map SplitParams.bypassRoutes).getD []
  match a.spawnExit with
  | .error e => unwindMultihop m exitIp entryIp (some entry) none false e
  | .ok exit_ =>
      let m := { m with sys := { m.sys with sidecars := exit_ :: m.sys.sidecars } }
      match m.engageWithTuns r.killSwitch splitBypass a.engageTuns with
      | (.error e, m) => unwindMultihop m exitIp entryIp (some entry) (some exit_) false e
      | (.ok (), m) =>
          match a.configureExit with
          | .error e => unwindMultihop m exitIp entryIp (some entry) (some exit_) false e
          | .ok () => installMultihop c a r innerCfg entry exit_ m

/-- The part of `connect_multihop` from the entry device on. -/
def bringUpEntry (c : Checks) (a : Answers) (r : MultihopRequest) (innerCfg : WgConfig)
    (m : Manager) : Reply × Manager :=
  let exitIp := stripEndpointPort r.exitEndpoint
  let entryIp := stripEndpointPort r.entryEndpoint
  let splitBypass := (r.split.map SplitParams.bypassRoutes).getD []
  match a.spawn with
  | .error e => unwindMultihop m exitIp entryIp none none false e
  | .ok entry =>
      let m := { m with sys := { m.sys with sidecars := entry :: m.sys.sidecars } }
      match m.engageWithTuns r.killSwitch splitBypass a.engageTun with
      | (.error e, m) => unwindMultihop m exitIp entryIp (some entry) none false e
      | (.ok (), m) =>
          match a.configure with
          | .error e => unwindMultihop m exitIp entryIp (some entry) none false e
          | .ok () => bringUpExit c a r innerCfg entry m

/-- `connect_multihop_request` and `connect_multihop`. -/
def connectMultihop (c : Checks) (a : Answers) (r : MultihopRequest) (m : Manager) :
    Reply × Manager :=
  match c.acceptMultihop r with
  | .error e => (.error e, m)
  | .ok innerCfg =>
      let m := m.replace r.exitCountry r.entryEndpoint
      match m.engageFirst r.killSwitch ((r.split.map SplitParams.bypassRoutes).getD [])
          a.engage with
      | (.error e, m) => (.error e, m)
      | (.ok (), m) => bringUpEntry c a r innerCfg m

/-! ### Status -/

/-- What wireguard-go answers about its peer. -/
structure WgStats where
  rxBytes : Nat
  txBytes : Nat
  lastHandshake : Option Int

/-- The answers to the external calls of one status poll. -/
structure StatusAnswers where
  /-- the address the OS would send from to reach the endpoint -/
  localSource : Option String
  route : RouteAnswers
  rebind : Except TunnelError Unit
  /-- `none`: no attempt is due -/
  dns : Option DnsAnswer
  stats : Option WgStats
  /-- seconds of the monotonic clock -/
  instant : Int
  /-- unix seconds -/
  now : Int

/-- How stale the last handshake may get before the tunnel counts as dead. -/
def handshakeDeadSec : Int := 200

/-- How long a roam repair is shielded from the watchdog. -/
def repairGrace : Int := 40

/-- `repair_after_roam`. -/
def repairAfterRoam (a : StatusAnswers) (m : Manager) : Manager :=
  match m.inner.endpoint, a.localSource with
  | some endpoint, some src =>
      let previous := m.inner.localSrc
      let inner := { m.inner with localSrc := some src }
      if previous = none ∨ previous = some src then { m with inner := inner }
      else if inner.bridge.isSome then
        { m with inner := { inner with
            state := .error
            error := some "network changed — reconnecting" } }
      else
        -- the delete comes first, so a failed repoint leaves no bypass route
        let s := m.sys.removeRoute (stripEndpointPort endpoint)
        match addRoute a.route ⟨stripEndpointPort endpoint, none⟩ s.routes with
        | (.error e, routes) =>
            { inner := { inner with
                localSrc := previous
                error := some ("route repair after network change failed: " ++ e.message) }
              sys := { s with routes := routes } }
        | (.ok (), routes) =>
            let s := { s with routes := routes }
            match inner.sidecar, a.rebind with
            | some _, .error e =>
                { inner := { inner with
                    localSrc := previous
                    error := some ("rebind after network change failed: " ++ e.message) }
                  sys := s }
            | _, _ => ⟨{ inner with error := none, repairedAt := some a.instant }, s⟩
  | _, _ => m

/-- `is_dead`. -/
def isDead (i : Inner) (instant now : Int) : Bool :=
  i.state = .up && !(i.repairedAt.any fun t => instant - t < repairGrace) &&
    i.lastHandshake.any fun last => now - last > handshakeDeadSec

/-- The DNS re-assert of a poll. -/
def reassertDns (a : StatusAnswers) (m : Manager) : Manager :=
  match m.inner.dns with
  | none => m
  | some d =>
      let (d, s) := d.reassert a.dns m.sys
      ⟨{ m.inner with dns := some d }, s⟩

/-- The counters of the data plane. -/
def refreshStats (i : Inner) (stats : Option WgStats) : Inner :=
  match (i.exitSidecar <|> i.sidecar), stats with
  | some _, some stats =>
      { i with
        rxBytes := if stats.rxBytes > 0 ∨ stats.txBytes > 0 then stats.rxBytes else i.rxBytes
        txBytes := if stats.rxBytes > 0 ∨ stats.txBytes > 0 then stats.txBytes else i.txBytes
        lastHandshake := stats.lastHandshake <|> i.lastHandshake }
  | _, _ => i

/-- The watchdog flips a dead tunnel to `Error`; everything stays in place. -/
def watchdog (a : StatusAnswers) (i : Inner) : Inner :=
  if isDead i a.instant a.now then
    { i with state := .error, error := some "connection lost — no handshake" }
  else i

/-- A poll: what is broken is repaired on the way, and only while the session is
up. -/
def status (a : StatusAnswers) (m : Manager) : TunnelStatus × Manager :=
  if m.inner.state = .up then
    let m := (m.repairAfterRoam a).reassertDns a
    let inner := watchdog a (refreshStats m.inner a.stats)
    (inner.snapshot, { m with inner := inner })
  else (m.inner.snapshot, m)

/-! ### Disconnect -/

/-- Everything is taken down, in this order, and the kill switch last. -/
def disconnect (m : Manager) : TunnelStatus × Manager :=
  let m := m.restoreDns
  let s := releaseRoutes m.inner (killDevices m.inner m.sys)
  let s := m.inner.bridge.elim s s.shutdown
  let inner := Inner.new m.inner.backend
  (inner.snapshot, ⟨inner, s.disengage m.inner.backend⟩)

/-- The same where there is something to take down. -/
def disconnectIfActive (m : Manager) : Bool × Manager :=
  if m.inner.state = .down then (false, m) else (true, m.disconnect.2)

end Manager

end CumulusVpn.Desktop
