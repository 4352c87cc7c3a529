/-
The connection hook of the mobile app (`clients/mobile/src/state/useVpn.ts`).

A step is what the hook does between two awaits: a tap, a setting, a timer, a
status event of the native side, or the answer that a connect or a watchdog has
waited for.  A render and the effects that run after it belong to the step that
changed the state.  Answers of the network and of the native side are inputs.

* `Sweep`: a connect in flight, at one of its awaits;
* `Hook`, `Hook.setState`: the state and the refs of the hook, with the effects of
  a new tunnel state;
* `Hook.connect`, `Hook.stopSession`: a connect begins, and the session is torn
  down;
* `Hook.resume`: a connect goes on behind its await;
* `Action`, `step`, `launched`;
* `starts_step`: only a connect that goes on makes a native start, and only on two
  hops when it is cancelled.

`stopped` and `starts` are ghosts: the user has disconnected and has not asked
for a tunnel since, and the native starts so far.
-/
import CumulusVpn.Lib.StepSystem

namespace CumulusVpn.Mobile.UseVpn

/-! ### What the native side reports -/

/-- The tunnel states that the native side reports. -/
inductive TunnelState
  | disconnected
  | connecting
  | connected
  | reasserting
  | disconnecting
  | error
deriving DecidableEq, Repr

/-- A status sample. -/
structure TunnelStatus where
  state : TunnelState
  /-- seconds of the last handshake, or zero -/
  lastHandshake : Nat
  /-- the kill switch holds the session -/
  held : Bool
deriving DecidableEq, Repr

/-- Without a handshake for so many seconds the keys of a session are dead. -/
def handshakeDeadSec : Nat := 200

/-- A tunnel that is still called connected has stopped working; `now` is the
time in seconds. -/
def isTunnelDead (now : Nat) (s : TunnelStatus) : Bool :=
  s.state = .connected ∧ 0 < s.lastHandshake ∧ handshakeDeadSec < now - s.lastHandshake

/-! ### Connects in flight -/

/-- What a connect in flight waits for; `rest` are the transports behind the one
that it tries. -/
inductive Await
  /-- the permission to create a tunnel, and the one to notify -/
  | permission
  /-- one hop: the tier, the enrollment, the split policy and the resolver -/
  | network
  /-- `startTunnel` -/
  | startTunnel (rest : List String)
  /-- `probeHandshake` -/
  | probe (rest : List String)
  /-- `holdTunnel` of `releaseAttempt` -/
  | release (rest : List String)
  /-- `teardownAttempt` of `releaseAttempt` -/
  | teardown (rest : List String)
  /-- `connectMultihop` up to its start: the tier, the enrollments, the split
  policy and the resolver -/
  | hops
  /-- `startMultihop` -/
  | startMultihop
  /-- `holdTunnel` behind an exception -/
  | failHold
  /-- `teardownAttempt` behind an exception -/
  | failTeardown
deriving DecidableEq, Repr

/-- A connect that is under way. -/
structure Sweep where
  /-- its generation -/
  gen : Nat
  /-- the setting when it began -/
  killSwitch : Bool
  multihop : Bool
  await : Await
deriving DecidableEq, Repr

/-- What a connect has waited for. -/
inductive Answer
  | granted
  /-- there is no permission, or no gateway to go to -/
  | refused
  /-- the gateway has enrolled the key, for these transports -/
  | enrolled (chain : List String)
  /-- both hops have enrolled the key -/
  | ready
  /-- the native call has returned -/
  | done
  | probed (up : Bool)
  /-- an exception -/
  | thrown
deriving DecidableEq, Repr

/-! ### The hook -/

/-- What the user has set and the app has loaded, as far as connects depend on
it. -/
structure Settings where
  /-- the key of this device is there -/
  keypair : Bool
  multihop : Bool
  killSwitch : Bool
  autoConnect : Bool
  booting : Bool
  /-- there are countries to choose from -/
  discovered : Bool
deriving DecidableEq, Repr

/-- A choice of the resolver that is being saved, with the state and the settings
of the render in which it was tapped: the reconnect that follows is the callback
of that render. -/
structure DnsChange where
  state : TunnelState
  settings : Settings
deriving DecidableEq, Repr

/-- A native start: the generation of the connect that makes it and the newest
one, and whether the user wants none. -/
structure Start where
  sweep : Nat
  newest : Nat
  stopped : Bool
deriving DecidableEq, Repr

/-- The hook. -/
structure Hook where
  settings : Settings
  state : TunnelState
  blocked : Bool
  connectGen : Nat
  /-- native events are left out while a sweep decides -/
  connecting : Bool
  wantConnected : Bool
  wasConnected : Bool
  sessionUp : Bool
  held : Bool
  stale : Bool
  autoConnected : Bool
  /-- an auto-reconnect is scheduled -/
  reconnectTimer : Bool
  sweeps : List Sweep
  /-- the read of the native status at launch is on its way -/
  adopting : Bool
  /-- the holds of the dead-tunnel watchdog that are on their way -/
  holds : Nat
  /-- the reads behind a multi-hop start, by its generation -/
  reads : List Nat
  /-- the settings of the kill switch that are being saved -/
  saves : List Bool
  /-- the teardowns behind a kill switch that was turned off -/
  lifts : Nat
  dnsChanges : List DnsChange
  stopped : Bool
  starts : List Start
deriving DecidableEq, Repr

/-- The hook of an app that has just been launched. -/
def launched (settings : Settings) : Hook where
  settings := settings
  state := .disconnected
  blocked := false
  connectGen := 0
  connecting := false
  wantConnected := false
  wasConnected := false
  sessionUp := false
  held := false
  stale := false
  autoConnected := false
  reconnectTimer := false
  sweeps := []
  adopting := true
  holds := 0
  reads := []
  saves := []
  lifts := 0
  dnsChanges := []
  stopped := false
  starts := []

namespace Hook

/-- The auto-reconnect effect; it runs when the tunnel state or the connect
callback changes. -/
def autoReconnect (s : Hook) : Hook :=
  if s.state = .connected then { s with wasConnected := true, reconnectTimer := false }
  else if s.state = .disconnected ∧ s.wantConnected ∧ s.wasConnected then
    { s with wasConnected := false, reconnectTimer := true }
  else { s with reconnectTimer := false }

/-- `setState`: effects run only when the state changes. -/
def setState (s : Hook) (state : TunnelState) : Hook :=
  if s.state = state then s
  else
    let stale := s.stale && decide (state = .connected)
    { s with state := state, stale := stale }.autoReconnect

/-- The newest generation has a connect in flight. -/
def join (s : Hook) (settings : Settings) : Hook :=
  { s with
    connecting := true
    wasConnected := false
    sweeps := s.sweeps ++
      [{ gen := s.connectGen
         killSwitch := settings.killSwitch
         multihop := settings.multihop
         await := .permission }] }

/-- `connect`, up to its first await, with the settings of its render. -/
def connectWith (s : Hook) (settings : Settings) : Hook :=
  if settings.keypair then
    ({ s with
      connectGen := s.connectGen + 1
      wantConnected := true }.setState .connecting).join settings
  else s

/-- The `connect` of the last render. -/
def connect (s : Hook) : Hook := s.connectWith s.settings

/-- `stopSession`, up to its `stopTunnel`. -/
def stopSession (s : Hook) : Hook :=
  { s with
    connectGen := s.connectGen + 1
    connecting := false
    wantConnected := false
    wasConnected := false
    sessionUp := false
    held := false
    blocked := false }.setState .disconnecting

/-! ### A connect in flight -/

/-- A newer connect has begun, or the user has disconnected. -/
def cancelled (s : Hook) (w : Sweep) : Bool := s.connectGen ≠ w.gen

/-- A session is up that may not be taken down. -/
def holding (s : Hook) (w : Sweep) : Bool := w.killSwitch && s.sessionUp

/-- The connect goes on to its next await. -/
def goto (s : Hook) (w : Sweep) (await : Await) : Hook :=
  { s with
    sweeps := s.sweeps.map fun v => if v.gen = w.gen then { v with await := await } else v }

/-- The connect returns; the newest one lets native events in again. -/
def finish (s : Hook) (w : Sweep) : Hook :=
  { s with
    connecting := s.connecting && s.cancelled w
    sweeps := s.sweeps.filter fun v => v.gen ≠ w.gen }

/-- The connect makes a native start. -/
def start (s : Hook) (w : Sweep) (await : Await) : Hook :=
  let start : Start := { sweep := w.gen, newest := s.connectGen, stopped := s.stopped }
  { s with starts := s.starts ++ [start] }.goto w await

/-- `failHeld` -/
def failHeld (s : Hook) : Hook := { s with connecting := false, blocked := true }.setState .error

/-- The error is shown. -/
def fail (s : Hook) : Hook := { s with connecting := false }.setState .error

/-- `releaseAttempt`, up to its await. -/
def releaseAttempt (s : Hook) (w : Sweep) (rest : List String) : Hook :=
  if s.holding w then { s with held := true }.goto w (.release rest)
  else s.goto w (.teardown rest)

/-- The loop over the transports, and what follows when none is left. -/
def attempt (s : Hook) (w : Sweep) : List String → Hook
  | [] => (if s.holding w then s.failHeld else s.fail).finish w
  | _ :: rest => if s.cancelled w then s.finish w else s.start w (.startTunnel rest)

/-- The `catch` of `connect`. -/
def caught (s : Hook) (w : Sweep) : Hook :=
  if s.cancelled w then s.finish w
  else if s.holding w then { s with held := true }.goto w .failHold
  else if s.sessionUp then s.goto w .failTeardown
  else s.fail.finish w

/-- A start has led to a tunnel. -/
def up (s : Hook) : Hook :=
  { s with sessionUp := true, held := false, blocked := false, connecting := false }

/-- The connect goes on behind its await; none where it does not wait for such an
answer. -/
def resume (s : Hook) (w : Sweep) : Answer → Option Hook
  | .granted =>
      match w.await with
      | .permission => some (s.goto w (if w.multihop then .hops else .network))
      | _ => none
  | .refused =>
      match w.await with
      | .permission => some ((s.setState .error).finish w)
      | _ => none
  | .enrolled chain =>
      match w.await, chain with
      | .network, _ :: _ => some (s.attempt w chain)
      | _, _ => none
  | .ready =>
      match w.await with
      -- no look at the generation here
      | .hops => some (s.start w .startMultihop)
      | _ => none
  | .done =>
      match w.await with
      | .startTunnel rest => some (s.goto w (.probe rest))
      | .release rest => some (s.attempt w rest)
      | .teardown rest => some ({ s with sessionUp := false }.attempt w rest)
      | .startMultihop => some ({ s with reads := s.reads ++ [w.gen] }.up.finish w)
      | .failHold => some (s.failHeld.finish w)
      | .failTeardown => some ({ s with sessionUp := false }.fail.finish w)
      | _ => none
  | .probed up =>
      match w.await with
      | .probe rest =>
          let s := { s with sessionUp := true }
          some (if s.cancelled w then s.finish w
            else if up then (s.up.setState .connected).finish w
            else s.releaseAttempt w rest)
      | _ => none
  | .thrown =>
      match w.await with
      | .permission | .network | .hops | .startMultihop => some (s.caught w)
      -- the config of the next transport
      | .release (_ :: _) => some (s.caught w)
      | .teardown (_ :: _) => some ({ s with sessionUp := false }.caught w)
      | .startTunnel rest =>
          some (if s.cancelled w then s.finish w else s.releaseAttempt w rest)
      | _ => none

/-! ### Events, reads and watchdogs -/

/-- A status event of the native side. -/
def event (s : Hook) (status : TunnelStatus) : Hook :=
  if s.connecting then s
  else if status.held then
    { s with sessionUp := true, held := true, blocked := true }.setState status.state
  else if status.state = .disconnected then
    { s with sessionUp := false, held := false, blocked := false }.setState status.state
  else s.setState status.state

/-- The native status at launch; a session that outlived the app is adopted. -/
def adopt (s : Hook) (status : TunnelStatus) : Hook :=
  if status.held then
    let s := { s with sessionUp := true, held := true, wantConnected := true, blocked := true }
    if s.state = .disconnected then s.setState .error else s
  else if status.state = .connected then
    let s := { s with sessionUp := true }
    if s.state = .disconnected then s.setState .connected else s
  else s

/-- A sample of the counters, taken while connected: a dead tunnel is held, or
stopped, once. -/
def polled (s : Hook) (now : Nat) (status : TunnelStatus) : Hook :=
  if s.stale = false ∧ isTunnelDead now status then
    { s with stale := true, holds := if s.settings.killSwitch then s.holds + 1 else s.holds }
  else s

/-- The connect watchdog fires. -/
def connectTimeout (s : Hook) : Hook :=
  let s := { s with connectGen := s.connectGen + 1, connecting := false }
  if s.settings.killSwitch ∧ s.sessionUp then
    { s with held := true, blocked := true }.setState .error
  else s.setState .error

end Hook

/-! ### Steps -/

/-- What happens between two awaits. -/
inductive Action
  /-- the user asks for a tunnel -/
  | connect
  /-- the user's Disconnect -/
  | disconnect
  /-- a route setting changes that a live tunnel is rebuilt for -/
  | rebuild
  /-- another resolver is tapped -/
  | dnsTapped
  /-- the choice of the resolver is saved -/
  | dnsSaved (change : DnsChange)
  | setKillSwitch (enabled : Bool)
  /-- the setting of the kill switch is saved -/
  | saved (enabled : Bool)
  /-- the tunnel is down that a kill switch had held before it was turned off -/
  | lifted
  /-- what `connect` depends on changes, or has been loaded -/
  | rerender (settings : Settings)
  /-- the setting of auto-connect changes, or the boot is over -/
  | loaded (autoConnect booting : Bool)
  | event (status : TunnelStatus)
  /-- the read of the native status at launch comes back -/
  | adopted (status : TunnelStatus)
  | polled (now : Nat) (status : TunnelStatus)
  /-- a hold of the dead-tunnel watchdog comes back -/
  | watchdogHeld
  /-- a read behind a multi-hop start comes back -/
  | read (gen : Nat) (status : TunnelStatus)
  /-- what a connect in flight waits for comes -/
  | answer (gen : Nat) (a : Answer)
  | connectTimeout
  | disconnectTimeout
  /-- the retry of a blocked session -/
  | retry
  | reconnectTimer
  /-- auto-connect on launch -/
  | autoConnect
deriving DecidableEq, Repr

open Hook

/-- The hook after an action; none where it cannot happen. -/
def step (s : Hook) : Action → Option Hook
  | .connect => some { s with stopped := false }.connect
  | .disconnect => some { s with stopped := true }.stopSession
  | .rebuild =>
      some (if s.state = .connected ∨ s.state = .connecting ∨ s.held then s.connect else s)
  | .dnsTapped => some { s with dnsChanges := s.dnsChanges ++ [⟨s.state, s.settings⟩] }
  | .dnsSaved change =>
      if change ∈ s.dnsChanges then
        let s := { s with dnsChanges := s.dnsChanges.erase change }
        some (if change.state = .connected ∨ change.state = .connecting ∨ s.held then
          s.connectWith change.settings else s)
      else none
  | .setKillSwitch enabled =>
      let s := { s with saves := s.saves ++ [enabled] }
      some (if s.settings.killSwitch = enabled then s
        else { s with settings := { s.settings with killSwitch := enabled } }.autoReconnect)
  | .saved enabled =>
      if enabled ∈ s.saves then
        let s := { s with saves := s.saves.erase enabled }
        some (if enabled = false ∧ s.held then { s.stopSession with lifts := s.lifts + 1 } else s)
      else none
  | .lifted =>
      if 0 < s.lifts then
        some { s with lifts := s.lifts - 1, wantConnected := true }.connect
      else none
  | .rerender settings =>
      some { s with
        settings := { settings with
          autoConnect := s.settings.autoConnect
          booting := s.settings.booting } }.autoReconnect
  | .loaded autoConnect booting =>
      some { s with
        settings := { s.settings with autoConnect := autoConnect, booting := booting } }
  | .event status => some (s.event status)
  | .adopted status => if s.adopting then some ({ s with adopting := false }.adopt status) else none
  | .polled now status => if s.state = .connected then some (s.polled now status) else none
  | .watchdogHeld =>
      if 0 < s.holds then some { s with holds := s.holds - 1, held := true }.connect else none
  | .read gen status =>
      if gen ∈ s.reads then
        let s := { s with reads := s.reads.erase gen }
        some (if s.connectGen = gen ∧ status.state = .connected ∧ status.held = false then
          s.setState .connected else s)
      else none
  | .answer gen a =>
      (s.sweeps.find? fun w => w.gen = gen).bind fun w => s.resume w a
  | .connectTimeout => if s.state = .connecting then some s.connectTimeout else none
  | .disconnectTimeout =>
      if s.state = .disconnecting then some (s.setState .disconnected) else none
  | .retry => if s.blocked ∧ s.state = .error then some s.connect else none
  | .reconnectTimer =>
      if s.reconnectTimer then some { s with reconnectTimer := false }.connect else none
  | .autoConnect =>
      if s.settings.autoConnect ∧ s.autoConnected = false ∧ s.settings.booting = false ∧
          s.settings.keypair ∧ s.state = .disconnected ∧ s.settings.discovered then
        some { s with autoConnected := true, stopped := false }.connect
      else none

/-! ### Native starts -/

namespace Hook

@[simp] lemma starts_autoReconnect (s : Hook) : s.autoReconnect.starts = s.starts := by
  rw [autoReconnect]
  split
  · rfl
  · split <;> rfl

@[simp] lemma starts_setState (s : Hook) (state : TunnelState) :
    (s.setState state).starts = s.starts := by
  rw [setState]
  split
  · rfl
  · exact starts_autoReconnect _

@[simp] lemma starts_connectWith (s : Hook) (settings : Settings) :
    (s.connectWith settings).starts = s.starts := by
  rw [connectWith]
  split
  · exact starts_setState _ _
  · rfl

@[simp] lemma starts_connect (s : Hook) : s.connect.starts = s.starts := starts_connectWith _ _

@[simp] lemma starts_stopSession (s : Hook) : s.stopSession.starts = s.starts :=
  starts_setState _ _

@[simp] lemma starts_goto (s : Hook) (w : Sweep) (await : Await) :
    (s.goto w await).starts = s.starts := rfl

@[simp] lemma starts_finish (s : Hook) (w : Sweep) : (s.finish w).starts = s.starts := rfl

@[simp] lemma starts_failHeld (s : Hook) : s.failHeld.starts = s.starts := starts_setState _ _

@[simp] lemma starts_fail (s : Hook) : s.fail.starts = s.starts := starts_setState _ _

@[simp] lemma starts_up (s : Hook) : s.up.starts = s.starts := rfl

@[simp] lemma starts_releaseAttempt (s : Hook) (w : Sweep) (rest : List String) :
    (s.releaseAttempt w rest).starts = s.starts := by
  rw [releaseAttempt]
  split <;> rfl

@[simp] lemma starts_caught (s : Hook) (w : Sweep) : (s.caught w).starts = s.starts := by
  rw [caught]
  split
  · rfl
  · split
    · rfl
    · split
      · rfl
      · exact starts_fail s

@[simp] lemma starts_event (s : Hook) (status : TunnelStatus) :
    (s.event status).starts = s.starts := by
  rw [event]
  split
  · rfl
  · split
    · exact starts_setState _ _
    · split <;> exact starts_setState _ _

@[simp] lemma starts_adopt (s : Hook) (status : TunnelStatus) :
    (s.adopt status).starts = s.starts := by
  rw [adopt]
  split
  · dsimp only
    split
    · exact starts_setState _ _
    · rfl
  · split
    · dsimp only
      split
      · exact starts_setState _ _
      · rfl
    · rfl

@[simp] lemma starts_polled (s : Hook) (now : Nat) (status : TunnelStatus) :
    (s.polled now status).starts = s.starts := by
  rw [polled]
  split <;> rfl

@[simp] lemma starts_connectTimeout (s : Hook) : s.connectTimeout.starts = s.starts := by
  rw [connectTimeout]
  dsimp only
  split <;> exact starts_setState _ _

/-- A native start of `w` in `s` is all that has been added. -/
def StartedBy (s s' : Hook) (w : Sweep) : Prop :=
  s'.starts = s.starts ++ [{ sweep := w.gen, newest := s.connectGen, stopped := s.stopped }]

/-- The loop starts a tunnel only for a connect that is not cancelled. -/
lemma starts_attempt (s : Hook) (w : Sweep) (rest : List String) :
    (s.attempt w rest).starts = s.starts ∨
      (s.connectGen = w.gen ∧ s.StartedBy (s.attempt w rest) w) := by
  cases rest with
  | nil =>
      left
      rw [attempt, starts_finish]
      split
      · exact starts_failHeld s
      · exact starts_fail s
  | cons _ rest =>
      rw [attempt]
      split
      · exact Or.inl rfl
      · rename_i hcurrent
        exact Or.inr ⟨by simpa [cancelled] using hcurrent, rfl⟩

/-- A connect that goes on starts a tunnel when it is not cancelled, or on two
hops. -/
lemma starts_resume {s s' : Hook} {w : Sweep} {a : Answer} (hresume : s.resume w a = some s') :
    s'.starts = s.starts ∨ ((s.connectGen = w.gen ∨ a = .ready) ∧ s.StartedBy s' w) := by
  have hattempt : ∀ (t : Hook) (rest : List String), t.starts = s.starts →
      t.connectGen = s.connectGen → t.stopped = s.stopped → t.attempt w rest = s' →
      s'.starts = s.starts ∨ ((s.connectGen = w.gen ∨ a = .ready) ∧ s.StartedBy s' w) := by
    rintro t rest hstarts hgen hstopped rfl
    refine (t.starts_attempt w rest).imp (fun h => h.trans hstarts) fun h => ?_
    refine ⟨Or.inl (hgen ▸ h.1), ?_⟩
    rw [StartedBy, h.2, hstarts, hgen, hstopped]
  cases a with
  | granted =>
      cases hawait : w.await <;> simp only [resume, hawait] at hresume <;> cases hresume
      exact Or.inl rfl
  | refused =>
      cases hawait : w.await <;> simp only [resume, hawait] at hresume <;> cases hresume
      exact Or.inl (by simp)
  | probed up =>
      cases hawait : w.await <;> simp only [resume, hawait] at hresume <;> cases hresume
      left
      split
      · rfl
      · split <;> simp
  | thrown =>
      left
      cases hawait : w.await with
      | permission | network | hops | startMultihop =>
          simp only [resume, hawait] at hresume
          cases hresume
          exact starts_caught s w
      | startTunnel rest =>
          simp only [resume, hawait] at hresume
          cases hresume
          split
          · rfl
          · exact starts_releaseAttempt s w rest
      | release rest | teardown rest =>
          cases rest <;> simp only [resume, hawait] at hresume <;> cases hresume
          exact starts_caught _ w
      | probe rest | failHold | failTeardown =>
          simp only [resume, hawait] at hresume
          cases hresume
  | enrolled chain =>
      cases hawait : w.await <;> cases chain <;> simp only [resume, hawait] at hresume <;>
        cases hresume
      exact hattempt s _ rfl rfl rfl rfl
  | ready =>
      cases hawait : w.await <;> simp only [resume, hawait] at hresume <;> cases hresume
      exact Or.inr ⟨Or.inr rfl, rfl⟩
  | done =>
      cases hawait : w.await <;> simp only [resume, hawait] at hresume <;> cases hresume
      · exact Or.inl rfl
      · exact hattempt s _ rfl rfl rfl rfl
      · exact hattempt { s with sessionUp := false } _ rfl rfl rfl rfl
      · exact Or.inl rfl
      · exact Or.inl (by simp)
      · exact Or.inl (by simp)

end Hook

/-- Only a connect that goes on makes a native start, and only on two hops when it
is cancelled. -/
lemma starts_step {s s' : Hook} {a : Action} (hstep : step s a = some s') :
    s'.starts = s.starts ∨ ∃ w ∈ s.sweeps,
      (s.connectGen = w.gen ∨ a = .answer w.gen .ready) ∧ s.StartedBy s' w := by
  cases a with
  | answer gen a =>
      obtain ⟨w, hfind, hresume⟩ := Option.bind_eq_some_iff.mp hstep
      have hgen : w.gen = gen := by simpa using List.find?_some hfind
      refine (starts_resume hresume).imp_right fun h => ?_
      exact ⟨w, List.mem_of_find?_eq_some hfind, h.1.imp_right fun ha => by rw [hgen, ha], h.2⟩
  | connect | disconnect =>
      cases hstep
      exact Or.inl (by simp)
  | dnsTapped | loaded autoConnect booting =>
      cases hstep
      exact Or.inl rfl
  | rerender settings | event status =>
      cases hstep
      exact Or.inl (by simp)
  | rebuild | setKillSwitch enabled =>
      simp only [step, Option.some.injEq] at hstep
      subst hstep
      left
      split <;> simp
  | dnsSaved change | saved enabled | read gen status =>
      simp only [step] at hstep
      split at hstep
      · cases hstep
        left
        split <;> simp
      · cases hstep
  | lifted | adopted status | polled now status | watchdogHeld | connectTimeout
  | disconnectTimeout | retry | reconnectTimer | autoConnect =>
      simp only [step] at hstep
      split at hstep
      · cases hstep
        exact Or.inl (by simp)
      · cases hstep

end CumulusVpn.Mobile.UseVpn
