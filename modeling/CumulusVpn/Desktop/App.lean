/-
The desktop app: the connection hook, the connects in flight, and the tunnel
manager behind its command queue
(`clients/desktop/src/hooks/useConnection.ts`,
`clients/desktop/src/lib/session.ts`, the buttons of
`clients/desktop/src/App.tsx`).

A step is what happens between two awaits: a button, a timer, a network
answer of a connect in flight, the next tunnel command served, a poll of the
native side.  Network answers and the answers of the machine are inputs.

* `Sweep`: a connect in flight, `establish` or `establishMultihop`;
* `App`, `App.setPhase`: the hook's state with the effects of a phase change;
* `App.boot`: the hook after its bootstrap;
* `Action`, `step`.

Commands are served in the order they were issued, and an answer is taken up
when its command is served.  `cancelled` and `upBy` are ghosts: how many
connects had begun before the last Disconnect that was served, and the
connect that last brought the tunnel up.
-/
import Mathlib.Data.List.Infix
import CumulusVpn.Desktop.Unwind

namespace CumulusVpn.Desktop

open StepSystem

/-! ### Connects in flight -/

/-- What the window shows. -/
inductive Phase
  | loading
  | idle
  | connecting
  | connected
  | error
deriving DecidableEq, Repr

/-- One transport of a sweep, with what enrolling answered. -/
structure Attempt where
  country : String
  wgConfig : String
  endpoint : String
  assignedIp : String
  tls : Option TlsParams
  split : Option SplitParams
deriving DecidableEq, Repr

/-- The request of an attempt. -/
def Attempt.request (a : Attempt) (killSwitch : Bool) : ConnectRequest where
  country := a.country
  wgConfig := a.wgConfig
  endpoint := a.endpoint
  assignedIp := a.assignedIp
  killSwitch := killSwitch
  tls := a.tls
  split := a.split

/-- The pair of hops of a multi-hop connect, with what enrolling answered. -/
structure Hops where
  entryCountry : String
  exitCountry : String
  outer : String
  inner : String
  entryEndpoint : String
  exitEndpoint : String
  innerMtu : Nat
  assignedIp : String
  split : Option SplitParams
deriving DecidableEq, Repr

/-- The request of a pair of hops. -/
def Hops.request (h : Hops) (killSwitch : Bool) : MultihopRequest where
  entryCountry := h.entryCountry
  exitCountry := h.exitCountry
  outer := h.outer
  inner := h.inner
  entryEndpoint := h.entryEndpoint
  exitEndpoint := h.exitEndpoint
  innerMtu := h.innerMtu
  assignedIp := h.assignedIp
  killSwitch := killSwitch
  split := h.split

/-- What a connect in flight waits for. -/
inductive Await
  /-- `establish`: the tier and the enrollment -/
  | network
  /-- `tunnel.connect` of attempt `i`, with the attempts -/
  | command (i : Nat) (chain : List Attempt)
  /-- the probe of attempt `i` -/
  | probe (i : Nat) (chain : List Attempt)
  /-- the teardown after the last attempt -/
  | teardown
  /-- `establishMultihop`: the tier and the enrollments -/
  | hops
  /-- `tunnel.connectMultihop` -/
  | hopsCommand
deriving DecidableEq, Repr

/-- A connect that is under way, at one of its awaits. -/
structure Sweep where
  id : Nat
  /-- the setting when the connect began -/
  killSwitch : Bool
  await : Await
  /-- its abort signal; `establishMultihop` is not given one -/
  aborted : Bool
deriving DecidableEq, Repr

/-- A tunnel command on its way to the manager. -/
inductive Command
  /-- `tunnel.connect` of a sweep -/
  | connect (id : Nat) (r : ConnectRequest)
  | connectMultihop (id : Nat) (r : MultihopRequest)
  /-- the `tunnel.disconnect` of a sweep that is out of transports -/
  | teardown (id : Nat)
  /-- the `teardown` of the user's Disconnect; `before` is a ghost, the number
  of connects begun before it -/
  | disconnect (before : Nat)
  /-- the status poll of the hook -/
  | status
deriving DecidableEq, Repr

/-! ### The hook -/

/-- What the user has set. -/
structure Settings where
  /-- a location is selected (and an exit where one is needed) -/
  selected : Bool
  multihop : Bool
  killSwitch : Bool
  autoConnect : Bool
deriving DecidableEq, Repr

/-- The app: its window, its connects, and the manager behind the IPC. -/
structure App where
  phase : Phase
  settings : Settings
  wasConnected : Bool
  /-- consecutive failed auto-reconnects -/
  reconnectAttempts : Nat
  /-- an auto-reconnect is scheduled -/
  reconnectTimer : Bool
  autoConnected : Bool
  /-- the sweep whose abort controller the hook holds -/
  sweepRef : Option Nat
  sweeps : List Sweep
  nextSweep : Nat
  queue : List Command
  manager : Manager
  cancelled : Nat
  upBy : Option Nat
deriving DecidableEq, Repr

/-- `RECONNECT_DELAYS_MS.length`. -/
def maxReconnects : Nat := 6

namespace App

/-- The auto-reconnect effect in the phase `error`. -/
def scheduleReconnect (s : App) : App :=
  if s.wasConnected then
    if s.reconnectAttempts ≥ maxReconnects then
      { s with wasConnected := false, reconnectTimer := false }
    else { s with reconnectAttempts := s.reconnectAttempts + 1, reconnectTimer := true }
  else { s with reconnectTimer := false }

/-- A new phase, with the effects that depend on it. -/
def enterPhase (s : App) : Phase → App
  | .loading => { s with phase := .loading, reconnectTimer := false }
  | .idle => { s with phase := .idle, reconnectTimer := false }
  | .connecting => { s with phase := .connecting, reconnectTimer := false }
  | .connected =>
      { s with
        phase := .connected
        wasConnected := true
        reconnectAttempts := 0
        reconnectTimer := false }
  | .error => { s with phase := .error }.scheduleReconnect

/-- `setPhase`: effects run only when the phase changes. -/
def setPhase (s : App) (phase : Phase) : App :=
  if s.phase = phase then s else s.enterPhase phase

/-- The hook after its bootstrap: it reattaches to a session that outlived the
previous app. -/
def boot (m : Manager) (settings : Settings) : App :=
  let s : App :=
    { phase := .loading
      settings := settings
      wasConnected := false
      reconnectAttempts := 0
      reconnectTimer := false
      autoConnected := false
      sweepRef := none
      sweeps := []
      nextSweep := 0
      queue := []
      manager := m
      cancelled := 0
      upBy := none }
  match m.inner.state with
  | .up | .connecting =>
      { s with autoConnected := true, wasConnected := true }.setPhase .connected
  | .error => { s with autoConnected := true, wasConnected := true }.setPhase .error
  | .down => s.setPhase .idle

/-- Aborts the sweep that the hook holds. -/
def abortSweep (s : App) : App :=
  { s with sweeps := s.sweeps.map fun w =>
      if some w.id = s.sweepRef then { w with aborted := true } else w }

/-- `connect` of the hook. -/
def connect (s : App) : App :=
  if s.settings.selected = false ∨ s.phase = .connecting then s
  else
    let s := (s.setPhase .connecting).abortSweep
    { s with
      sweepRef := some s.nextSweep
      sweeps := s.sweeps ++
        [{ id := s.nextSweep
           killSwitch := s.settings.killSwitch
           await := if s.settings.multihop then .hops else .network
           aborted := false }]
      nextSweep := s.nextSweep + 1 }

/-- `disconnect` of the hook. -/
def disconnect (s : App) : App :=
  { s.abortSweep with
    sweepRef := none
    wasConnected := false
    queue := s.queue ++ [.disconnect s.nextSweep] }

/-- A connect in flight comes to its end. -/
def settle (s : App) (id : Nat) (phase : Phase) : App :=
  { s.setPhase phase with sweeps := s.sweeps.filter fun w => w.id ≠ id }

/-- A connect in flight issues a command, or starts a probe. -/
def setAwait (s : App) (id : Nat) (await : Await) (commands : List Command) : App :=
  { s with
    sweeps := s.sweeps.map fun w => if w.id = id then { w with await := await } else w
    queue := s.queue ++ commands }

/-- The loop of `establish` at attempt `i`: a cancelled sweep stops here; out
of transports, the tunnel is torn down. -/
def attempt (s : App) (w : Sweep) (i : Nat) (chain : List Attempt) : App :=
  match chain[i]? with
  | none => s.setAwait w.id .teardown [.teardown w.id]
  | some a =>
      if w.aborted then s.settle w.id .error
      else s.setAwait w.id (.command i chain) [.connect w.id (a.request w.killSwitch)]

/-- A connect failure that is a verdict on the transport. -/
def isTransportLevelFailure (e : TunnelError) : Bool :=
  decide ("tls bridge".toList <:+: e.message.toList)

/-- The manager's answer to a command, with the ghost of who brought the
tunnel up. -/
def answered (s : App) (id : Nat) (x : Reply × Manager) : App :=
  { s with
    manager := x.2
    upBy := match x.1 with
      | .ok _ => some id
      | .error _ => s.upBy }

/-- The sweep with this number, while it lasts. -/
def find (s : App) (id : Nat) : Option Sweep := s.sweeps.find? fun w => w.id = id

/-- A sweep takes up the answer to its `tunnel.connect`. -/
def connectAnswered (s : App) (id : Nat) (r : Reply) : App :=
  match s.find id with
  | none => s
  | some w =>
      match w.await, r with
      | .command i chain, .ok _ => s.setAwait id (.probe i chain) []
      | .command i chain, .error e =>
          if isTransportLevelFailure e then s.attempt w (i + 1) chain
          else s.settle id .error
      | _, _ => s

/-- A status poll takes up its answer. -/
def polled (s : App) (status : TunnelStatus) : App :=
  if status.state = .error ∨ status.state = .down then s.setPhase .error else s

end App

/-- What happens between two awaits. -/
inductive Action
  /-- the orb and the buttons: Disconnect while connecting or connected, else
  Connect -/
  | press
  /-- the auto-reconnect timer fires -/
  | reconnect
  /-- the auto-connect effect -/
  | autoConnect
  | changeSettings (settings : Settings)
  /-- a single-hop connect is enrolled, with its transports -/
  | enrolled (id : Nat) (chain : List Attempt)
  /-- a multi-hop connect is enrolled at both hops -/
  | hopsEnrolled (id : Nat) (hops : Hops)
  /-- a connect fails before any tunnel command -/
  | enrollFailed (id : Nat)
  /-- a probe comes back -/
  | probed (id : Nat) (up : Bool)
  /-- the status poll of the phase `connected` -/
  | poll
  /-- the manager serves the next command -/
  | serve (a : Manager.Answers) (sa : Manager.StatusAnswers)
  /-- the repair loop of the native side -/
  | repair (sa : Manager.StatusAnswers)

/-- The call that serving a command makes. -/
def Command.call (a : Manager.Answers) (sa : Manager.StatusAnswers) : Command → Manager.Call
  | .connect _ r => .connect a r
  | .connectMultihop _ r => .connectMultihop a r
  | .teardown _ | .disconnect _ => .disconnect
  | .status => .status sa

namespace App

/-- The manager serves the next command. -/
def serve (c : Checks) (a : Manager.Answers) (sa : Manager.StatusAnswers) (s : App) :
    Option App :=
  match s.queue with
  | [] => none
  | cmd :: rest =>
      let s := { s with queue := rest }
      match cmd with
      | .connect id r =>
          let x := s.manager.connect c a r
          some ((s.answered id x).connectAnswered id x.1)
      | .connectMultihop id r =>
          let x := s.manager.connectMultihop c a r
          some ((s.answered id x).settle id
            (match x.1 with
              | .ok _ => .connected
              | .error _ => .error))
      | .teardown id => some ({ s with manager := s.manager.disconnect.2 }.settle id .error)
      | .disconnect before =>
          some ({ s with manager := s.manager.disconnect.2, cancelled := before }.setPhase .idle)
      | .status =>
          let x := s.manager.status sa
          some ({ s with manager := x.2 }.polled x.1)

/-- The app after an action; none where it cannot happen. -/
def step (c : Checks) (s : App) : Action → Option App
  | .press =>
      match s.phase with
      | .connecting | .connected => some s.disconnect
      | .idle | .error => some s.connect
      | .loading => none
  | .reconnect =>
      if s.reconnectTimer then some { s with reconnectTimer := false }.connect else none
  | .autoConnect =>
      if s.settings.autoConnect ∧ s.autoConnected = false ∧ s.phase = .idle ∧
          s.settings.selected then
        some { s with autoConnected := true }.connect
      else none
  | .changeSettings settings =>
      -- the connect callback changes, and the effect on the phase runs again
      let s := { s with settings := settings }
      some (if s.phase = .error then s.scheduleReconnect else s)
  | .enrolled id chain =>
      match s.find id with
      | some w => if w.await = .network ∧ chain ≠ [] then some (s.attempt w 0 chain) else none
      | none => none
  | .hopsEnrolled id hops =>
      match s.find id with
      | some w =>
          if w.await = .hops then
            some (s.setAwait id .hopsCommand [.connectMultihop id (hops.request w.killSwitch)])
          else none
      | none => none
  | .enrollFailed id =>
      match s.find id with
      | some w =>
          if w.await = .network ∨ w.await = .hops then some (s.settle id .error) else none
      | none => none
  | .probed id up =>
      match s.find id with
      | some w =>
          match w.await with
          | .probe i chain =>
              if w.aborted then some (s.settle id .error)
              else if up then some (s.settle id .connected)
              else some (s.attempt w (i + 1) chain)
          | _ => none
      | none => none
  | .poll => if s.phase = .connected then some { s with queue := s.queue ++ [.status] } else none
  | .serve a sa => s.serve c a sa
  | .repair sa => some { s with manager := (s.manager.status sa).2 }

/-! ### What the pieces of a step leave alone -/

@[simp] lemma frame_scheduleReconnect (s : App) :
    s.scheduleReconnect.phase = s.phase ∧ s.scheduleReconnect.settings = s.settings ∧
    s.scheduleReconnect.sweepRef = s.sweepRef ∧ s.scheduleReconnect.sweeps = s.sweeps ∧
    s.scheduleReconnect.nextSweep = s.nextSweep ∧ s.scheduleReconnect.queue = s.queue ∧
    s.scheduleReconnect.manager = s.manager ∧ s.scheduleReconnect.cancelled = s.cancelled ∧
    s.scheduleReconnect.upBy = s.upBy := by
  rw [scheduleReconnect]
  split
  · split <;> exact ⟨rfl, rfl, rfl, rfl, rfl, rfl, rfl, rfl, rfl⟩
  · exact ⟨rfl, rfl, rfl, rfl, rfl, rfl, rfl, rfl, rfl⟩

@[simp] lemma frame_setPhase (s : App) (phase : Phase) :
    (s.setPhase phase).phase = phase ∧ (s.setPhase phase).settings = s.settings ∧
    (s.setPhase phase).sweepRef = s.sweepRef ∧ (s.setPhase phase).sweeps = s.sweeps ∧
    (s.setPhase phase).nextSweep = s.nextSweep ∧ (s.setPhase phase).queue = s.queue ∧
    (s.setPhase phase).manager = s.manager ∧ (s.setPhase phase).cancelled = s.cancelled ∧
    (s.setPhase phase).upBy = s.upBy := by
  rw [setPhase]
  split
  · rename_i heq
    exact ⟨heq, rfl, rfl, rfl, rfl, rfl, rfl, rfl, rfl⟩
  · cases phase with
    | error => exact frame_scheduleReconnect { s with phase := .error }
    | loading => exact ⟨rfl, rfl, rfl, rfl, rfl, rfl, rfl, rfl, rfl⟩
    | idle => exact ⟨rfl, rfl, rfl, rfl, rfl, rfl, rfl, rfl, rfl⟩
    | connecting => exact ⟨rfl, rfl, rfl, rfl, rfl, rfl, rfl, rfl, rfl⟩
    | connected => exact ⟨rfl, rfl, rfl, rfl, rfl, rfl, rfl, rfl, rfl⟩

@[simp] lemma frame_settle (s : App) (id : Nat) (phase : Phase) :
    (s.settle id phase).phase = phase ∧ (s.settle id phase).settings = s.settings ∧
    (s.settle id phase).sweepRef = s.sweepRef ∧
    (s.settle id phase).sweeps = s.sweeps.filter (fun w => w.id ≠ id) ∧
    (s.settle id phase).nextSweep = s.nextSweep ∧ (s.settle id phase).queue = s.queue ∧
    (s.settle id phase).manager = s.manager ∧ (s.settle id phase).cancelled = s.cancelled ∧
    (s.settle id phase).upBy = s.upBy := by
  simp [settle]

/-- The head of the loop: it tears down, stops, or issues a connect that
carries the sweep's kill switch. -/
lemma attempt_cases (s : App) (w : Sweep) (i : Nat) (chain : List Attempt) :
    s.attempt w i chain = s.setAwait w.id .teardown [.teardown w.id] ∨
    (w.aborted = true ∧ s.attempt w i chain = s.settle w.id .error) ∨
    (w.aborted = false ∧ ∃ a : Attempt, s.attempt w i chain =
      s.setAwait w.id (.command i chain) [.connect w.id (a.request w.killSwitch)]) := by
  rw [attempt]
  split
  · exact Or.inl rfl
  · rename_i a _
    split
    · rename_i hab
      exact Or.inr (Or.inl ⟨hab, rfl⟩)
    · rename_i hab
      exact Or.inr (Or.inr ⟨by simpa using hab, a, rfl⟩)

lemma mem_of_find {s : App} {id : Nat} {w : Sweep} (h : s.find id = some w) :
    w ∈ s.sweeps ∧ w.id = id := by
  refine ⟨List.mem_of_find?_eq_some h, ?_⟩
  simpa using List.find?_some h

/-! ### What a step can do -/

/-- The manager's answer to `connect`. -/
def served (c : Checks) (a : Manager.Answers) (s : App) (id : Nat) (r : ConnectRequest)
    (rest : List Command) : App :=
  { s with queue := rest }.answered id (s.manager.connect c a r)

/-- The manager's answer to `connect_multihop`. -/
def servedMultihop (c : Checks) (a : Manager.Answers) (s : App) (id : Nat) (r : MultihopRequest)
    (rest : List Command) : App :=
  { s with queue := rest }.answered id (s.manager.connectMultihop c a r)

/-- The steps by what they do. -/
inductive Moves (c : Checks) (s : App) : Action → App → Prop
  | disconnect (hphase : s.phase = .connecting ∨ s.phase = .connected) :
      Moves c s .press s.disconnect
  | connect (hphase : s.phase = .idle ∨ s.phase = .error) : Moves c s .press s.connect
  | reconnect (htimer : s.reconnectTimer = true) :
      Moves c s .reconnect { s with reconnectTimer := false }.connect
  | autoConnect (hphase : s.phase = .idle) :
      Moves c s .autoConnect { s with autoConnected := true }.connect
  | changeSettings (settings : Settings) (hphase : s.phase ≠ .error) :
      Moves c s (.changeSettings settings) { s with settings := settings }
  | reschedule (settings : Settings) (hphase : s.phase = .error) :
      Moves c s (.changeSettings settings) { s with settings := settings }.scheduleReconnect
  | enrolled {w : Sweep} (chain : List Attempt) (hw : w ∈ s.sweeps) (hawait : w.await = .network) :
      Moves c s (.enrolled w.id chain) (s.attempt w 0 chain)
  | hopsEnrolled {w : Sweep} (hops : Hops) (hw : w ∈ s.sweeps) (hawait : w.await = .hops) :
      Moves c s (.hopsEnrolled w.id hops)
        (s.setAwait w.id .hopsCommand [.connectMultihop w.id (hops.request w.killSwitch)])
  | enrollFailed {w : Sweep} (hw : w ∈ s.sweeps)
      (hawait : w.await = .network ∨ w.await = .hops) :
      Moves c s (.enrollFailed w.id) (s.settle w.id .error)
  | probeCancelled {w : Sweep} {i : Nat} {chain : List Attempt} (up : Bool) (hw : w ∈ s.sweeps)
      (hawait : w.await = .probe i chain) (haborted : w.aborted = true) :
      Moves c s (.probed w.id up) (s.settle w.id .error)
  | probedUp {w : Sweep} {i : Nat} {chain : List Attempt} (hw : w ∈ s.sweeps)
      (hawait : w.await = .probe i chain) (haborted : w.aborted = false) :
      Moves c s (.probed w.id true) (s.settle w.id .connected)
  | probedDead {w : Sweep} {i : Nat} {chain : List Attempt} (hw : w ∈ s.sweeps)
      (hawait : w.await = .probe i chain) (haborted : w.aborted = false) :
      Moves c s (.probed w.id false) (s.attempt w (i + 1) chain)
  | poll (hphase : s.phase = .connected) : Moves c s .poll { s with queue := s.queue ++ [.status] }
  | connectServed {id : Nat} {r : ConnectRequest} {rest : List Command} (a : Manager.Answers)
      (sa : Manager.StatusAnswers) (hqueue : s.queue = .connect id r :: rest) :
      Moves c s (.serve a sa)
        ((s.served c a id r rest).connectAnswered id (s.manager.connect c a r).1)
  | multihopServed {id : Nat} {r : MultihopRequest} {rest : List Command} (a : Manager.Answers)
      (sa : Manager.StatusAnswers) (hqueue : s.queue = .connectMultihop id r :: rest)
      (phase : Phase)
      (hphase : phase = match (s.manager.connectMultihop c a r).1 with
        | .ok _ => .connected
        | .error _ => .error) :
      Moves c s (.serve a sa) ((s.servedMultihop c a id r rest).settle id phase)
  | teardownServed {id : Nat} {rest : List Command} (a : Manager.Answers)
      (sa : Manager.StatusAnswers) (hqueue : s.queue = .teardown id :: rest) :
      Moves c s (.serve a sa)
        ({ s with queue := rest, manager := s.manager.disconnect.2 }.settle id .error)
  | disconnectServed {before : Nat} {rest : List Command} (a : Manager.Answers)
      (sa : Manager.StatusAnswers) (hqueue : s.queue = .disconnect before :: rest) :
      Moves c s (.serve a sa)
        ({ s with
          queue := rest
          manager := s.manager.disconnect.2
          cancelled := before }.setPhase .idle)
  | statusServed {rest : List Command} (a : Manager.Answers) (sa : Manager.StatusAnswers)
      (hqueue : s.queue = .status :: rest) :
      Moves c s (.serve a sa)
        ({ s with queue := rest, manager := (s.manager.status sa).2 }.polled
          (s.manager.status sa).1)
  | repair (sa : Manager.StatusAnswers) :
      Moves c s (.repair sa) { s with manager := (s.manager.status sa).2 }

lemma moves_of_serve {c : Checks} {a : Manager.Answers} {sa : Manager.StatusAnswers} {s s' : App}
    (h : serve c a sa s = some s') : Moves c s (.serve a sa) s' := by
  simp only [serve] at h
  split at h
  · cases h
  · rename_i cmd rest hqueue
    cases cmd with
    | connect id r =>
        cases h
        exact .connectServed a sa hqueue
    | connectMultihop id r =>
        cases h
        exact .multihopServed a sa hqueue _ rfl
    | teardown id =>
        cases h
        exact .teardownServed a sa hqueue
    | disconnect before =>
        cases h
        exact .disconnectServed a sa hqueue
    | status =>
        cases h
        exact .statusServed a sa hqueue

/-- **What a step can do.** -/
lemma moves_of_step {c : Checks} {s s' : App} {action : Action}
    (h : step c s action = some s') : Moves c s action s' := by
  cases action with
  | press =>
      simp only [step] at h
      split at h
      · rename_i hphase
        cases h
        exact .disconnect (Or.inl hphase)
      · rename_i hphase
        cases h
        exact .disconnect (Or.inr hphase)
      · rename_i hphase
        cases h
        exact .connect (Or.inl hphase)
      · rename_i hphase
        cases h
        exact .connect (Or.inr hphase)
      · cases h
  | reconnect =>
      simp only [step] at h
      split at h
      · rename_i htimer
        cases h
        exact .reconnect htimer
      · cases h
  | autoConnect =>
      simp only [step] at h
      split at h
      · rename_i hauto
        cases h
        exact .autoConnect hauto.2.2.1
      · cases h
  | changeSettings settings =>
      simp only [step] at h
      cases h
      split
      · rename_i hphase
        exact .reschedule settings hphase
      · rename_i hphase
        exact .changeSettings settings hphase
  | enrolled id chain =>
      simp only [step] at h
      split at h
      · rename_i w hw
        obtain ⟨hmem, rfl⟩ := mem_of_find hw
        split at h
        · rename_i hawait
          cases h
          exact .enrolled chain hmem hawait.1
        · cases h
      · cases h
  | hopsEnrolled id hops =>
      simp only [step] at h
      split at h
      · rename_i w hw
        obtain ⟨hmem, rfl⟩ := mem_of_find hw
        split at h
        · rename_i hawait
          cases h
          exact .hopsEnrolled hops hmem hawait
        · cases h
      · cases h
  | enrollFailed id =>
      simp only [step] at h
      split at h
      · rename_i w hw
        obtain ⟨hmem, rfl⟩ := mem_of_find hw
        split at h
        · rename_i hawait
          cases h
          exact .enrollFailed hmem hawait
        · cases h
      · cases h
  | probed id up =>
      simp only [step] at h
      split at h
      · rename_i w hw
        obtain ⟨hmem, rfl⟩ := mem_of_find hw
        split at h
        · rename_i i chain hawait
          split at h
          · rename_i haborted
            cases h
            exact .probeCancelled up hmem hawait haborted
          · rename_i haborted
            rw [Bool.not_eq_true] at haborted
            cases up with
            | true =>
                cases h
                exact .probedUp hmem hawait haborted
            | false =>
                cases h
                exact .probedDead hmem hawait haborted
        · cases h
      · cases h
  | poll =>
      simp only [step] at h
      split at h
      · rename_i hphase
        cases h
        exact .poll hphase
      · cases h
  | serve a sa => exact moves_of_serve h
  | repair sa =>
      cases h
      exact .repair sa

/-! ### The manager under the app -/

/-- The call on the manager that a step makes, if any. -/
def call (s : App) : Action → Option Manager.Call
  | .serve a sa => s.queue.head?.map (Command.call a sa)
  | .repair sa => some (.status sa)
  | _ => none

@[simp] lemma manager_setAwait (s : App) (id : Nat) (await : Await) (commands : List Command) :
    (s.setAwait id await commands).manager = s.manager := rfl

@[simp] lemma manager_attempt (s : App) (w : Sweep) (i : Nat) (chain : List Attempt) :
    (s.attempt w i chain).manager = s.manager := by
  rcases s.attempt_cases w i chain with heq | ⟨-, heq⟩ | ⟨-, a, heq⟩ <;> rw [heq] <;> simp

@[simp] lemma manager_connect (s : App) : s.connect.manager = s.manager := by
  rw [connect]
  split
  · rfl
  · simp [abortSweep]

@[simp] lemma manager_connectAnswered (s : App) (id : Nat) (r : Reply) :
    (s.connectAnswered id r).manager = s.manager := by
  rw [connectAnswered]
  split
  · rfl
  · split
    · rfl
    · split <;> simp
    · rfl

@[simp] lemma manager_polled (s : App) (status : TunnelStatus) :
    (s.polled status).manager = s.manager := by
  rw [polled]
  split <;> simp

/-- **The app runs the manager**: a step makes at most one call on it. -/
lemma manager_of_step {c : Checks} {s s' : App} {action : Action}
    (h : step c s action = some s') :
    (s.call action = none ∧ s'.manager = s.manager) ∨
      ∃ q, s.call action = some q ∧ Manager.step c s.manager q = some s'.manager := by
  cases moves_of_step h with
  | connectServed a sa hqueue =>
      exact Or.inr ⟨_, by rw [call, hqueue]; rfl,
        by simp [Manager.step, Command.call, served, answered]⟩
  | multihopServed a sa hqueue phase hphase =>
      exact Or.inr ⟨_, by rw [call, hqueue]; rfl,
        by simp [Manager.step, Command.call, servedMultihop, answered]⟩
  | teardownServed a sa hqueue =>
      exact Or.inr ⟨_, by rw [call, hqueue]; rfl, by simp [Manager.step, Command.call]⟩
  | disconnectServed a sa hqueue =>
      exact Or.inr ⟨_, by rw [call, hqueue]; rfl, by simp [Manager.step, Command.call]⟩
  | statusServed a sa hqueue =>
      exact Or.inr ⟨_, by rw [call, hqueue]; rfl, by simp [Manager.step, Command.call]⟩
  | repair sa => exact Or.inr ⟨_, rfl, rfl⟩
  | disconnect hphase => exact Or.inl ⟨rfl, rfl⟩
  | connect hphase => exact Or.inl ⟨rfl, by simp⟩
  | reconnect htimer => exact Or.inl ⟨rfl, by simp⟩
  | autoConnect hphase => exact Or.inl ⟨rfl, by simp⟩
  | changeSettings settings hphase => exact Or.inl ⟨rfl, rfl⟩
  | reschedule settings hphase => exact Or.inl ⟨rfl, by simp⟩
  | enrolled chain hw hawait => exact Or.inl ⟨rfl, by simp⟩
  | hopsEnrolled hops hw hawait => exact Or.inl ⟨rfl, rfl⟩
  | enrollFailed hw hawait => exact Or.inl ⟨rfl, by simp⟩
  | probeCancelled up hw hawait haborted => exact Or.inl ⟨rfl, by simp⟩
  | probedUp hw hawait haborted => exact Or.inl ⟨rfl, by simp⟩
  | probedDead hw hawait haborted => exact Or.inl ⟨rfl, by simp⟩
  | poll hphase => exact Or.inl ⟨rfl, rfl⟩

end App

end CumulusVpn.Desktop
