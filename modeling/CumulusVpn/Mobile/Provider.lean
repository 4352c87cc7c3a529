/-
The iOS packet tunnel provider while its session is up (`handleAppMessage`,
`swap` and `handleRoam` of `PacketTunnelProvider.swift`).

The session has started.  What runs on the main queue runs block by block;
the steps between are a message of the app, a change of the network, and what
an engine start waits for.

* `ProviderConfig`, `ProviderConfig.startsBridge`: a route, and whether it can
  be started;
* `Provider`: the fields of the source, the engines on the utun, and what the
  app has commanded;
* `Provider.swap`, `Provider.finish`: the blocks;
* `step`: one step.
-/
import CumulusVpn.Mobile.WgQuick
import CumulusVpn.Lib.StepSystem

namespace CumulusVpn.Mobile.Ios

/-! ### Routes -/

/-- The keys of a provider configuration that are read. -/
structure ProviderConfig where
  mode : Option String
  wgConfig : Option String
  outerConfig : Option String
  innerConfig : Option String
deriving DecidableEq, Repr

/-- The guard of `startSingleHop`, and whether the route needs the TLS
bridge. -/
def ProviderConfig.singleHop (config : ProviderConfig) : Option Bool :=
  match config.wgConfig.bind fun text => wgQuick text.toList with
  | none => none
  | some conf =>
      if conf.endpointHost.isSome ∧ conf.address.isSome then some conf.tlsSni.isSome else none

/-- The guard of `startMultihop`, whose engine needs no bridge. -/
def ProviderConfig.multihop (config : ProviderConfig) : Option Bool :=
  match config.outerConfig.bind fun text => wgQuick text.toList,
      config.innerConfig.bind fun text => wgQuick text.toList with
  | some outer, some inner =>
      if outer.endpointHost.isSome ∧ inner.endpointHost.isSome ∧ outer.address.isSome ∧
          inner.address.isSome then
        some false
      else none
  | _, _ => none

/-- Whether the route goes over the TLS bridge; `none` if it is invalid. -/
def ProviderConfig.startsBridge (config : ProviderConfig) : Option Bool :=
  if config.mode = some "multihop" then config.multihop else config.singleHop

/-- `decodeConfig`, of what the JSON decoder makes of the payload. -/
def decodeConfig (payload : Option ProviderConfig) : Option ProviderConfig :=
  payload.filter fun dict => dict.wgConfig.isSome ∨ dict.mode = some "multihop"

/-! ### The provider -/

/-- A reply to a message. -/
inductive Answer
  | ok
  /-- err:invalid route -/
  | invalidRoute
  /-- err:superseded -/
  | superseded
  /-- err: the failure of the start -/
  | failed
deriving DecidableEq, Repr

/-- A swap, with the message to answer; a self swap answers none. -/
structure Swap where
  config : ProviderConfig
  reply : Option Nat
deriving DecidableEq, Repr

/-- The blocks on the main queue. -/
inductive Block
  | swap (r : Swap)
  | hold (id : Nat)
  | roam
  | finish (r : Swap) (error : Bool)
deriving DecidableEq, Repr

/-- What an engine start waits for. -/
inductive Phase
  | settings
  | bridge
deriving DecidableEq, Repr

/-- The extension: its engine, its swap, and the blocks on its main queue. -/
structure Provider where
  /-- the saved `providerConfiguration` -/
  saved : ProviderConfig
  /-- the engines that read the utun, by their handles, with their routes -/
  engines : List (Nat × ProviderConfig)
  handle : Option Nat
  /-- the engines started so far -/
  made : Nat
  tlsBridge : Bool
  activeConfig : Option ProviderConfig
  swapInFlight : Bool
  queuedSwap : Option Swap
  holdAfterSwap : Bool
  starting : List (Swap × Phase)
  main : List Block
  /-- the messages so far, and the replies -/
  received : Nat
  replies : List (Nat × Answer)
  /-- the route of the app's newest command, none for a hold -/
  newest : Option ProviderConfig
  /-- and of the newest that the main queue has come to -/
  handled : Option ProviderConfig
  /-- whether the last start has failed -/
  failed : Bool

namespace Provider

/-- A session that has started with its saved route. -/
def launch (saved : ProviderConfig) : Provider where
  saved := saved
  engines := [(0, saved)]
  handle := some 0
  made := 1
  tlsBridge := saved.startsBridge = some true
  activeConfig := none
  swapInFlight := false
  queuedSwap := none
  holdAfterSwap := false
  starting := []
  main := []
  received := 0
  replies := []
  newest := some saved
  handled := some saved
  failed := false

/-- The configuration that the engine runs with. -/
def currentConfig (p : Provider) : ProviderConfig := p.activeConfig.getD p.saved

/-- A message is answered, if it asked for one. -/
def answer (p : Provider) (reply : Option Nat) (a : Answer) : Provider :=
  { p with replies := p.replies ++ (reply.map fun id => (id, a)).toList }

/-- A block goes to the main queue. -/
def post (p : Provider) (b : Block) : Provider := { p with main := p.main ++ [b] }

/-- The engine is stopped, and its TLS bridge with it. -/
def stopEngine (p : Provider) : Provider :=
  { p with
    engines := p.engines.filter fun e => some e.1 ≠ p.handle
    handle := none
    tlsBridge := false }

/-- The start of the route up to its first callback. -/
def start (p : Provider) (r : Swap) : Provider :=
  match r.config.startsBridge with
  | none => p.post (.finish r true)
  | some _ => { p with starting := p.starting ++ [(r, .settings)] }

/-- A swap begins, or waits behind the one in flight, in the place of one that
waited. -/
def swap (p : Provider) (r : Swap) : Provider :=
  if p.swapInFlight then
    { p.answer (p.queuedSwap.bind Swap.reply) .superseded with
      queuedSwap := some r
      holdAfterSwap := false }
  else
    { p.stopEngine with
      swapInFlight := true
      activeConfig := some r.config }.start r

/-- A swap is over, and its message answered. -/
def ended (p : Provider) (r : Swap) (error : Bool) : Provider :=
  { p.answer r.reply (if error then .failed else .ok) with
    swapInFlight := false
    failed := error }

/-- The end of a swap, and what has waited for it. -/
def finish (p : Provider) (r : Swap) (error : Bool) : Provider :=
  match p.queuedSwap with
  | some next => { p.ended r error with queuedSwap := none }.swap next
  | none =>
      if p.holdAfterSwap then { p.ended r error with holdAfterSwap := false }.stopEngine
      else p.ended r error

/-- `0x03`. -/
def hold (p : Provider) (id : Nat) : Provider :=
  let p := { p.answer (p.queuedSwap.bind Swap.reply) .superseded with
    queuedSwap := none
    handled := none }
  if p.swapInFlight then { p with holdAfterSwap := true }.answer (some id) .ok
  else p.stopEngine.answer (some id) .ok

/-- A block of the main queue. -/
def run (p : Provider) : Block → Provider
  | .swap r => { p with handled := some r.config }.swap r
  | .hold id => p.hold id
  | .roam => p.swap ⟨p.currentConfig, none⟩
  | .finish r error => p.finish r error

/-- `WgmobileStartSingle` or `WgmobileStart`, over the bridge or not. -/
def startEngine (p : Provider) (r : Swap) (engine : Bool) : Provider :=
  if engine then
    { p with
      handle := some p.made
      engines := p.engines ++ [(p.made, r.config)]
      made := p.made + 1 }.post (.finish r false)
  else
    -- only the single hop stops its bridge
    { p with tlsBridge := p.tlsBridge && decide (r.config.mode = some "multihop") }.post
      (.finish r true)

/-- No operation is pending. -/
def Quiet (p : Provider) : Prop := p.main = [] ∧ p.starting = []

instance (p : Provider) : Decidable p.Quiet := inferInstanceAs (Decidable (_ ∧ _))

end Provider

/-- A message of the app, or something the system does. -/
inductive Event
  /-- `0x02` with what its payload decodes to -/
  | swap (payload : Option ProviderConfig)
  /-- `0x03` -/
  | hold
  /-- the device is on another network -/
  | roam
  /-- the main queue runs its next block -/
  | main
  /-- the network settings are set, or not; and the engine starts, or not -/
  | settings (r : Swap) (ok engine : Bool)
  /-- the bridge is ready, or has failed; and the engine starts, or not -/
  | bridge (r : Swap) (ok engine : Bool)
deriving DecidableEq, Repr

/-- One step. -/
def step (p : Provider) : Event → Option Provider
  | .swap payload =>
      match decodeConfig payload with
      | none => some ({ p with received := p.received + 1 }.answer (some p.received) .invalidRoute)
      | some config =>
          some ({ p with received := p.received + 1, newest := some config }.post
            (.swap ⟨config, some p.received⟩))
  | .hold =>
      some ({ p with received := p.received + 1, newest := none }.post (.hold p.received))
  | .roam =>
      -- over UDP the socket is rebound, and the route stays
      some (if p.handle.isSome ∧ p.tlsBridge then p.post .roam else p)
  | .main =>
      match p.main with
      | [] => none
      | b :: rest => some ({ p with main := rest }.run b)
  | .settings r ok engine =>
      if (r, .settings) ∈ p.starting then
        let p := { p with starting := p.starting.erase (r, .settings) }
        if ¬ ok then some (p.post (.finish r true))
        else if r.config.startsBridge = some true then
          some { p with tlsBridge := true, starting := p.starting ++ [(r, .bridge)] }
        else some (p.startEngine r engine)
      else none
  | .bridge r ok engine =>
      if (r, .bridge) ∈ p.starting then
        let p := { p with starting := p.starting.erase (r, .bridge) }
        if ¬ ok then some ({ p with tlsBridge := false }.post (.finish r true))
        else some (p.startEngine r engine)
      else none

end CumulusVpn.Mobile.Ios
