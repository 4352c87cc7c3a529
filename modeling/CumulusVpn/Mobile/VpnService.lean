/-
The Android tunnel services and their controller (`CumulusObfsVpnService.kt`,
`CumulusMultihopVpnService.kt`, `CumulusVpnService.kt`).

Every START, STOP and HOLD is an intent; the main thread hands it to a thread
of its own.  The steps between are one call of the controller, one message of
the main thread, and one task of a worker thread; a synchronized method is one
task.

* `Task`, `Worker`, `Message`: what the threads are yet to do;
* `Host`: a service with the instances that the system has made of it;
* `Device`: the controller, the services and the interface in force;
* `Device.startTunnel`, `Device.startMultihop`, `Device.stopTunnel`,
  `Device.holdTunnel`: the commands;
* `Device.runTask`, `Device.deliver`, `step`: one step.
-/
import CumulusVpn.Lib.StepSystem
import Mathlib.Logic.Function.Basic

namespace CumulusVpn.Mobile.Android

/-! ### The services -/

/-- `CumulusObfsVpnService` and `CumulusMultihopVpnService`. -/
inductive Service
  | obfs
  | multihop
deriving DecidableEq, Repr

/-- The other service. -/
def Service.other : Service → Service
  | .obfs => .multihop
  | .multihop => .obfs

/-- `STATE_DISCONNECTED` and the others. -/
inductive State
  | disconnected
  | connecting
  | connected
  | disconnecting
  | error
deriving DecidableEq, Repr

/-- What an instance has up: the route of a START, or an interface that nothing
reads. -/
inductive Session
  | down
  | up (start : Nat)
  | blocking
deriving DecidableEq, Repr

/-- `ACTION_START` with `EXTRA_REPLACES_SESSION`, and the others. -/
inductive Action
  | start (replaces : Bool)
  | stop
  | hold
deriving DecidableEq, Repr

/-- What a worker thread does next. -/
inductive Task
  | startRoute (replaces : Bool)
  | connect (replacing : Bool)
  /-- `stopRequested` is read after the connect -/
  | check
  /-- the connect has thrown -/
  | caught (replacing : Bool)
  | hold
  | teardown
  | report (state : State)
  | stopSelf (startId : Option Nat)
deriving DecidableEq, Repr

/-- A worker thread of an instance, with the number of its command. -/
structure Worker where
  inst : Nat
  cmd : Nat
  tasks : List Task
deriving DecidableEq, Repr

/-- What the main thread is to do for an instance. -/
inductive Message
  /-- `onStartCommand` -/
  | args (inst startId cmd : Nat) (action : Action)
  /-- `onDestroy` -/
  | destroy (inst cmd : Nat)
  /-- and its callback -/
  | destroyed (inst cmd : Nat)
deriving DecidableEq, Repr

/-- A service; its instances are numbered, and `current` is the last one. -/
structure Host where
  session : Nat → Session
  stopRequested : Nat → Bool
  current : Nat
  /-- the current instance has not been stopped -/
  running : Bool
  /-- the last start id of the current instance -/
  startId : Nat
  main : List Message
  workers : List Worker
  /-- the newest START that the service was sent -/
  newest : Nat

namespace Host

/-- A service that was never started. -/
def empty : Host := ⟨fun _ => .down, fun _ => false, 0, false, 0, [], [], 0⟩

/-- `startService`, of an intent for the service. -/
def startService (h : Host) (action : Action) (cmd : Nat) : Host :=
  if h.running then
    { h with
      startId := h.startId + 1
      main := h.main ++ [.args h.current (h.startId + 1) cmd action] }
  else
    -- the system makes an instance
    { h with
      session := Function.update h.session (h.current + 1) .down
      stopRequested := Function.update h.stopRequested (h.current + 1) false
      current := h.current + 1
      running := true
      startId := 1
      main := h.main ++ [.args (h.current + 1) 1 cmd action] }

/-- `stopSelf()` and `stopSelf(startId)`; only the current instance is stopped,
and by a start id only the last one. -/
def stopSelf (h : Host) (inst cmd : Nat) (startId : Option Nat) : Host :=
  if h.running ∧ inst = h.current ∧ (startId = none ∨ startId = some h.startId) then
    { h with
      running := false
      main := h.main ++ [.destroy inst cmd] }
  else h

/-- The service with another session of an instance. -/
def setSession (h : Host) (i : Nat) (session : Session) : Host :=
  { h with session := Function.update h.session i session }

/-- The worker is at its next task. -/
def leave (h : Host) (w : Worker) : Host := { h with workers := h.workers.erase w }

/-- A worker with these tasks, if it has any. -/
def resume (h : Host) (w : Worker) (tasks : List Task) : Host :=
  if tasks = [] then h else { h with workers := h.workers ++ [{ w with tasks := tasks }] }

/-- How the connect or the hold goes: it may throw before its interface is
established, or after. -/
inductive Outcome
  | ok
  | refused
  | broken
deriving DecidableEq, Repr

/-- The tasks in the place of the one that runs. -/
def next (h : Host) (w : Worker) (o : Outcome) : Task → List Task
  | .startRoute replaces => [.connect (decide (h.session w.inst ≠ .down) || replaces)]
  | .connect replacing => if o = .ok then [.check] else [.caught replacing]
  | .check =>
      if h.stopRequested w.inst then [.teardown, .report .disconnected, .stopSelf none]
      else [.report .connected]
  | .caught replacing =>
      if replacing ∧ h.stopRequested w.inst = false then [.hold]
      else [.teardown, .report .error, .stopSelf none]
  | .hold | .teardown | .report _ | .stopSelf _ => []

/-- `onStartCommand`, and a thread is started. -/
def onStartCommand (h : Host) (i startId cmd : Nat) : Action → Host
  | .start replaces =>
      { h with stopRequested := Function.update h.stopRequested i false }.resume ⟨i, cmd, []⟩
        [.startRoute replaces]
  | .stop =>
      { h with stopRequested := Function.update h.stopRequested i true }.resume ⟨i, cmd, []⟩
        [.teardown, .stopSelf (some startId)]
  | .hold => h.resume ⟨i, cmd, []⟩ [.hold]

end Host

/-! ### The controller -/

/-- The last command: a START or a HOLD, with its number, or a STOP. -/
inductive Asked
  | start (k : Service) (n : Nat)
  | stop
  | hold (k : Service) (n : Nat)
deriving DecidableEq, Repr

/-- The module and the two services. -/
structure Device where
  currentState : State
  /-- `obfsActive` and `multihopActive` -/
  active : Service → Bool
  held : Bool
  retiring : Option Service
  host : Service → Host
  /-- the interface in force, by its service and instance -/
  vpn : Option (Service × Nat)
  commands : Nat
  asked : Asked
  /-- the service that the newest START was sent to -/
  lead : Service
  /-- the commands that have failed -/
  failed : List Nat

namespace Device

/-- A phone after the app is launched. -/
def boot : Device where
  currentState := .disconnected
  active := fun _ => false
  held := false
  retiring := none
  host := fun _ => .empty
  vpn := none
  commands := 0
  asked := .stop
  lead := .obfs
  failed := []

/-- The phone with another state of a service. -/
def setHost (d : Device) (k : Service) (h : Host) : Device :=
  { d with host := Function.update d.host k h }

/-- `startService`: the system is asked to hand an action to a service. -/
def startService (d : Device) (k : Service) (action : Action) : Device :=
  d.setHost k ((d.host k).startService action d.commands)

/-- The other service is told to stop, if it was to be. -/
def retireOther (d : Device) (service : Service) : Device :=
  if d.retiring = some service then { d with retiring := none }.startService service .stop else d

/-- `onObfsState` and `onMultihopState`: a callback of the service `k`. -/
def onState (d : Device) (k : Service) (state : State) : Device :=
  if d.active k then
    let d := if state = .disconnected ∨ state = .error then
        { d with active := Function.update d.active k false }
      else d
    let d := { d with held := false }
    let d := if state = .connected then d.retireOther k.other else d
    { d with currentState := state }
  else d

/-- `onObfsHeld` and `onMultihopHeld`. -/
def onHeld (d : Device) (k : Service) : Device :=
  if d.active k then
    { { d with held := true }.retireOther k.other with currentState := .error }
  else d

/-- The end of `startObfsSingleHop` and of `startMultihop`. -/
def startOn (d : Device) (k : Service) : Device :=
  { d with
    retiring := if d.active k.other then some k.other else d.retiring
    active := fun j => decide (j = k)
    lead := k
    host := Function.update d.host k { d.host k with newest := d.commands } }.startService k
      (.start (d.active k.other))

/-- A START is commanded. -/
def ask (d : Device) (k : Service) : Device :=
  { d with
    commands := d.commands + 1
    asked := .start k (d.commands + 1)
    currentState := .connecting }

/-- A tunnel over one hop. -/
def startTunnel (d : Device) : Device := (d.ask .obfs).startOn .obfs

/-- With whether `Config.parse` reads the inner config. -/
def startMultihop (d : Device) (parsed : Bool) : Device :=
  let d := d.ask .multihop
  if parsed then d.startOn .multihop
  else
    { d with
      active := Function.update d.active .multihop false
      failed := d.commands :: d.failed
      currentState := .error }

/-- Every service is told to stop. -/
def stopTunnel (d : Device) : Device :=
  let d := { d with
    commands := d.commands + 1
    asked := .stop
    currentState := .disconnecting
    held := false }
  let d := match d.retiring with
    | some service => d.retireOther service
    | none => d
  if d.active .obfs then d.startService .obfs .stop
  else if d.active .multihop then d.startService .multihop .stop
  else { d with currentState := .disconnected }

/-- A HOLD of the service `k`. -/
def holdOn (d : Device) (k : Service) : Device :=
  { d with
    commands := d.commands + 1
    asked := .hold k (d.commands + 1) }.startService k .hold

/-- The tunnel is held: nothing goes through it or around it. -/
def holdTunnel (d : Device) : Device :=
  if d.active .obfs then d.holdOn .obfs
  else if d.active .multihop then d.holdOn .multihop
  else d

/-! ### The threads -/

/-- A new interface replaces the one in force. -/
def establish (d : Device) (k : Service) (i : Nat) (session : Session) : Device :=
  { d.setHost k ((d.host k).setSession i session) with vpn := some (k, i) }

/-- The data plane of an instance goes down. -/
def stopDataPlane (d : Device) (k : Service) (i : Nat) : Device :=
  { d.setHost k ((d.host k).setSession i .down) with
    vpn := if d.vpn = some (k, i) then none else d.vpn }

/-- `stopSelf`: the instance ends, unless a start has come since. -/
def stopSelf (d : Device) (k : Service) (w : Worker) (startId : Option Nat) : Device :=
  d.setHost k ((d.host k).stopSelf w.inst w.cmd startId)

/-- The command has failed. -/
def fail (d : Device) (w : Worker) : Device := { d with failed := w.cmd :: d.failed }

/-- `connect`; one that breaks keeps its interface. -/
def connect (d : Device) (k : Service) (w : Worker) : Host.Outcome → Device
  | .ok => d.establish k w.inst (.up w.cmd)
  | .refused => d.fail w
  | .broken => (d.fail w).establish k w.inst .blocking

/-- A tunnel that broke is held, and taken down where it cannot be. -/
def holdOrTeardown (d : Device) (k : Service) (w : Worker) (o : Host.Outcome) : Device :=
  if (d.host k).stopRequested w.inst then d
  else if o = .ok then (d.establish k w.inst .blocking).onHeld k
  else (((d.fail w).stopDataPlane k w.inst).onState k .error).stopSelf k w none

/-- One task of a worker. -/
def runTask (d : Device) (k : Service) (w : Worker) (o : Host.Outcome) : Task → Device
  | .startRoute _ | .check | .caught _ => d
  | .connect _ => d.connect k w o
  | .hold => d.holdOrTeardown k w o
  | .teardown => d.stopDataPlane k w.inst
  | .report state => d.onState k state
  | .stopSelf startId => d.stopSelf k w startId

/-- The worker `w` runs the first of its tasks `task :: rest`. -/
def runWorker (d : Device) (k : Service) (w : Worker) (o : Host.Outcome) (task : Task)
    (rest : List Task) : Device :=
  let d' := (d.setHost k ((d.host k).leave w)).runTask k w o task
  d'.setHost k ((d'.host k).resume w ((d.host k).next w o task ++ rest))

/-- One message of the main thread. -/
def deliver (d : Device) (k : Service) (m : Message) (rest : List Message) : Device :=
  let d := d.setHost k { d.host k with main := rest }
  match m with
  | .args i startId cmd action =>
      d.setHost k ((d.host k).onStartCommand i startId cmd action)
  | .destroy i cmd =>
      let d := d.stopDataPlane k i
      d.setHost k { d.host k with main := .destroyed i cmd :: rest }
  | .destroyed _ _ => d.onState k .disconnected

/-- No thread has anything to do. -/
def Quiet (d : Device) : Prop := ∀ k, (d.host k).main = [] ∧ (d.host k).workers = []

end Device

/-- A call of the app, or a step of a service. -/
inductive Event
  | startTunnel
  | startMultihop (parsed : Bool)
  | stopTunnel
  | holdTunnel
  | main (k : Service)
  | run (k : Service) (w : Worker) (o : Host.Outcome)
deriving DecidableEq, Repr

/-- One step. -/
def step (d : Device) : Event → Option Device
  | .startTunnel => some d.startTunnel
  | .startMultihop parsed => some (d.startMultihop parsed)
  | .stopTunnel => some d.stopTunnel
  | .holdTunnel => some d.holdTunnel
  | .main k =>
      match (d.host k).main with
      | [] => none
      | m :: rest => some (d.deliver k m rest)
  | .run k w o =>
      if w ∈ (d.host k).workers then
        match w.tasks with
        | [] => none
        | task :: rest => some (d.runWorker k w o task rest)
      else none

end CumulusVpn.Mobile.Android
