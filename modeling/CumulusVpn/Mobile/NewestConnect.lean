/-
The newest connect or Disconnect wins in the mobile hook.

A connect on one hop looks at the generation before each native start, and one on
two hops does not.  Holds that come back, failures of connects that are cancelled
already, callbacks of an older render and late reports of a held session may each
begin a connect that nobody has asked for.

* `Hook.NewestWins`: each native start was of the newest connect, and wanted;
* `Hook.Steady`: behind a Disconnect every connect in flight is cancelled, and
  nothing begins another one;
* `Calm`: a piece of a step that leaves generations and idleness alone;
* `Heeded`: the step does not go on past a Disconnect or a newer connect;
* `newest_connect_wins`: **the newest one wins in every state of a run of such
  steps**;
* `not_newest_connect_wins`: a connect on two hops starts a tunnel that the user
  has taken down.
-/
import CumulusVpn.Mobile.UseVpn

namespace CumulusVpn.Mobile.UseVpn

open StepSystem

namespace Hook

/-- Each native start was made by the newest connect. -/
def OlderSilent (s : Hook) : Prop := ∀ start ∈ s.starts, start.sweep = start.newest

/-- And each was made while the user wanted a tunnel. -/
def NewestWins (s : Hook) : Prop :=
  s.OlderSilent ∧ ∀ start ∈ s.starts, start.stopped = false

instance (s : Hook) : Decidable s.OlderSilent := inferInstanceAs (Decidable (∀ _ ∈ _, _))

instance (s : Hook) : Decidable s.NewestWins := inferInstanceAs (Decidable (_ ∧ ∀ _ ∈ _, _))

/-- No watchdog and no timer begins a connect. -/
structure Idle (s : Hook) : Prop where
  blocked : s.blocked = false
  held : s.held = false
  wanted : s.wantConnected = false
  timer : s.reconnectTimer = false

/-- Behind a Disconnect every connect in flight is cancelled and the hook is
idle. -/
structure Steady (s : Hook) : Prop where
  older : ∀ w ∈ s.sweeps, w.gen ≤ s.connectGen
  cancelled : s.stopped = true → ∀ w ∈ s.sweeps, w.gen ≠ s.connectGen
  idle : s.stopped = true → s.Idle
  timer : s.reconnectTimer = true → s.state = .disconnected

/-- The failure of this connect holds the session when its await is over. -/
def EndsHeld (s : Hook) (w : Sweep) : Prop :=
  w.await = .failHold ∨ (w.await = .release [] ∧ s.holding w = true)

instance (s : Hook) (w : Sweep) : Decidable (s.EndsHeld w) := inferInstanceAs (Decidable (_ ∨ _))

end Hook

/-- A tunnel is shown that a changed setting is applied to at once. -/
def TunnelState.Live (state : TunnelState) : Prop := state = .connected ∨ state = .connecting

instance : DecidablePred TunnelState.Live := fun _ => inferInstanceAs (Decidable (_ ∨ _))

/-- Two hops are started by the newest connect only. -/
def HopsHeeded (s : Hook) : Action → Prop
  | .answer gen .ready => s.connectGen = gen
  | _ => True

/-- The step does not go on past a Disconnect or a newer connect: two hops are
started by the newest connect only, and behind a Disconnect no hold and no teardown
comes back to a connect, no failure, no time limit and no report holds a session, and
no setting is applied to a tunnel that is shown still, or was shown when it was
tapped. -/
def Heeded (s : Hook) : Action → Prop
  | .answer gen .ready => s.connectGen = gen
  | .answer gen .done => s.stopped = true → ∀ w ∈ s.sweeps, w.gen = gen → ¬ s.EndsHeld w
  | .watchdogHeld | .lifted => s.stopped = false
  | .rebuild => s.stopped = true → ¬ s.state.Live
  | .dnsSaved change => s.stopped = true → ¬ change.state.Live
  | .event status | .adopted status => s.stopped = true → status.held = false
  | .connectTimeout => s.stopped = true → ¬ (s.settings.killSwitch ∧ s.sessionUp)
  | _ => True

lemma Heeded.hops {s : Hook} {a : Action} (h : Heeded s a) : HopsHeeded s a := by
  unfold HopsHeeded
  split
  · exact h
  · trivial

instance (s : Hook) : DecidablePred (Heeded s)
  | .answer _ .ready => inferInstanceAs (Decidable (_ = _))
  | .answer _ .done => inferInstanceAs (Decidable (_ → ∀ _ ∈ _, _))
  | .answer _ .granted | .answer _ .refused | .answer _ (.enrolled _) | .answer _ (.probed _)
  | .answer _ .thrown => isTrue trivial
  | .watchdogHeld | .lifted => inferInstanceAs (Decidable (_ = _))
  | .rebuild => inferInstanceAs (Decidable (_ → ¬ TunnelState.Live _))
  | .dnsSaved _ => inferInstanceAs (Decidable (_ → ¬ TunnelState.Live _))
  | .event _ | .adopted _ => inferInstanceAs (Decidable (_ → _ = _))
  | .connectTimeout => inferInstanceAs (Decidable (_ → ¬ (_ ∧ _)))
  | .connect | .disconnect | .dnsTapped | .setKillSwitch _ | .saved _ | .rerender _
  | .loaded _ _ | .polled _ _ | .read _ _ | .disconnectTimeout | .retry | .reconnectTimer
  | .autoConnect => isTrue trivial

lemma Hook.timer_autoReconnect (s : Hook) (h : s.autoReconnect.reconnectTimer = true) :
    s.autoReconnect.state = .disconnected := by
  revert h
  rw [Hook.autoReconnect]
  split
  · exact fun hon => absurd hon Bool.false_ne_true
  · split
    · rename_i hdropped
      exact fun _ => hdropped.1
    · exact fun hon => absurd hon Bool.false_ne_true

/-! ### Calm pieces -/

/-- The generation and the ghost stay, no connect joins, and an idle hook stays
idle. -/
structure Calm (s t : Hook) : Prop where
  gen : t.connectGen = s.connectGen
  stopped : t.stopped = s.stopped
  sweeps : ∀ w ∈ t.sweeps, ∃ v ∈ s.sweeps, v.gen = w.gen
  idle : s.stopped = true → s.Idle → t.Idle
  timer : (s.reconnectTimer = true → s.state = .disconnected) →
    t.reconnectTimer = true → t.state = .disconnected

namespace Calm

variable {s t u : Hook} {w : Sweep}

lemma trans (h : Calm s t) (h' : Calm t u) : Calm s u where
  gen := h'.gen.trans h.gen
  stopped := h'.stopped.trans h.stopped
  sweeps w hw := by
    obtain ⟨v, hv, hgen⟩ := h'.sweeps w hw
    obtain ⟨x, hx, hgen'⟩ := h.sweeps v hv
    exact ⟨x, hx, hgen'.trans hgen⟩
  idle hstopped hidle := h'.idle (h.stopped.trans hstopped) (h.idle hstopped hidle)
  timer htimer := h'.timer (h.timer htimer)

/-- What only writes other fields is calm, as long as it leaves an idle hook
idle. -/
lemma of_same (hgen : t.connectGen = s.connectGen) (hstopped : t.stopped = s.stopped)
    (hsweeps : t.sweeps = s.sweeps) (hstate : t.state = s.state)
    (htimer : t.reconnectTimer = s.reconnectTimer)
    (hidle : s.stopped = true → s.Idle → t.Idle) : Calm s t where
  gen := hgen
  stopped := hstopped
  sweeps w hw := ⟨w, hsweeps ▸ hw, rfl⟩
  idle := hidle
  timer h := by
    rw [htimer, hstate]
    exact h

/-- What is left of a hook: bookkeeping that no connect depends on. -/
lemma rest (s : Hook) {settings : Settings} {holds lifts : Nat} {reads : List Nat}
    {connecting sessionUp stale autoConnected adopting : Bool} {saves : List Bool}
    {dnsChanges : List DnsChange} {starts : List Start} :
    Calm s { s with
      settings := settings, connecting := connecting, sessionUp := sessionUp, stale := stale
      autoConnected := autoConnected, adopting := adopting, holds := holds, reads := reads
      saves := saves, lifts := lifts, dnsChanges := dnsChanges, starts := starts } :=
  of_same rfl rfl rfl rfl rfl fun _ h => ⟨h.blocked, h.held, h.wanted, h.timer⟩

lemma goto (s : Hook) (w : Sweep) (await : Await) : Calm s (s.goto w await) where
  gen := rfl
  stopped := rfl
  sweeps v hv := by
    obtain ⟨x, hx, rfl⟩ := List.mem_map.mp hv
    refine ⟨x, hx, ?_⟩
    split <;> rfl
  idle _ h := ⟨h.blocked, h.held, h.wanted, h.timer⟩
  timer h := h

lemma finish (s : Hook) (w : Sweep) : Calm s (s.finish w) where
  gen := rfl
  stopped := rfl
  sweeps v hv := ⟨v, (List.mem_filter.mp hv).1, rfl⟩
  idle _ h := ⟨h.blocked, h.held, h.wanted, h.timer⟩
  timer h := h

lemma start (s : Hook) (w : Sweep) (await : Await) : Calm s (s.start w await) :=
  (rest s).trans (goto _ w await)

/-- The auto-reconnect effect: nothing is wanted behind a Disconnect. -/
lemma autoReconnect (s : Hook) : Calm s s.autoReconnect := by
  have htimer : (s.reconnectTimer = true → s.state = .disconnected) →
      s.autoReconnect.reconnectTimer = true → s.autoReconnect.state = .disconnected :=
    fun _ => s.timer_autoReconnect
  revert htimer
  rw [Hook.autoReconnect]
  split
  · intro htimer
    exact ⟨rfl, rfl, fun w hw => ⟨w, hw, rfl⟩,
      fun _ h => ⟨h.blocked, h.held, h.wanted, rfl⟩, htimer⟩
  · split
    · rename_i hdropped
      intro htimer
      refine ⟨rfl, rfl, fun w hw => ⟨w, hw, rfl⟩, fun _ h => ?_, htimer⟩
      exact absurd hdropped.2.1 (by simp [h.wanted])
    · intro htimer
      exact ⟨rfl, rfl, fun w hw => ⟨w, hw, rfl⟩,
        fun _ h => ⟨h.blocked, h.held, h.wanted, rfl⟩, htimer⟩

lemma setState (s : Hook) (state : TunnelState) : Calm s (s.setState state) := by
  rw [Hook.setState]
  split
  · exact of_same rfl rfl rfl rfl rfl fun _ h => h
  · have heffect := autoReconnect { s with
      state := state, stale := s.stale && decide (state = .connected) }
    exact ⟨heffect.gen, heffect.stopped, heffect.sweeps,
      fun hstopped h => heffect.idle hstopped ⟨h.blocked, h.held, h.wanted, h.timer⟩,
      fun _ => Hook.timer_autoReconnect _⟩

lemma fail (s : Hook) : Calm s s.fail :=
  (rest s).trans (setState { s with connecting := false } .error)

/-- A start that has led to a tunnel asks for none. -/
lemma up (s : Hook) : Calm s s.up :=
  of_same rfl rfl rfl rfl rfl fun _ h => ⟨rfl, rfl, h.wanted, h.timer⟩

end Calm

lemma Hook.Steady.calm {s t : Hook} (h : s.Steady) (hcalm : Calm s t) : t.Steady where
  older w hw := by
    obtain ⟨v, hv, hgen⟩ := hcalm.sweeps w hw
    rw [← hgen, hcalm.gen]
    exact h.older v hv
  cancelled hstopped w hw := by
    obtain ⟨v, hv, hgen⟩ := hcalm.sweeps w hw
    rw [← hgen, hcalm.gen]
    exact h.cancelled (hcalm.stopped ▸ hstopped) v hv
  idle hstopped := by
    have hs : s.stopped = true := hcalm.stopped ▸ hstopped
    exact hcalm.idle hs (h.idle hs)
  timer := hcalm.timer h.timer

/-! ### Connects begin, and end -/

namespace Hook.Steady

variable {s : Hook} {w : Sweep}

/-- A connect that is not cancelled is one that the user wants. -/
lemma wanted (h : s.Steady) (hw : w ∈ s.sweeps) (hcurrent : s.connectGen = w.gen) :
    s.stopped = false := by
  rw [← Bool.not_eq_true]
  exact fun hstopped => h.cancelled hstopped w hw hcurrent.symm

/-- While the user wants a tunnel, nothing has to be idle. -/
lemma of_wanted (hwanted : s.stopped = false) (holder : ∀ w ∈ s.sweeps, w.gen ≤ s.connectGen)
    (htimer : s.reconnectTimer = true → s.state = .disconnected) : s.Steady where
  older := holder
  cancelled hstopped := absurd (hwanted.symm.trans hstopped) Bool.false_ne_true
  idle hstopped := absurd (hwanted.symm.trans hstopped) Bool.false_ne_true
  timer := htimer

/-- A connect begins while the user wants a tunnel. -/
lemma connectWith (h : s.Steady) (hwanted : s.stopped = false) (settings : Settings) :
    (s.connectWith settings).Steady := by
  rw [Hook.connectWith]
  split
  · have hgen : ({ s with connectGen := s.connectGen + 1, wantConnected := true } : Hook).Steady :=
      of_wanted hwanted (fun w hw => Nat.le_succ_of_le (h.older w hw)) h.timer
    have hcalm := Calm.setState
      { s with connectGen := s.connectGen + 1, wantConnected := true } .connecting
    have hshown := hgen.calm hcalm
    refine of_wanted (hcalm.stopped.trans hwanted) (fun w hw => ?_) hshown.timer
    obtain hw | hw := List.mem_append.mp hw
    · exact hshown.older w hw
    · rw [List.mem_singleton.mp hw]
      exact Nat.le_refl _
  · exact h

lemma connect (h : s.Steady) (hwanted : s.stopped = false) : s.connect.Steady :=
  h.connectWith hwanted s.settings

/-- The user, or the auto-connect on launch, asks for a tunnel. -/
lemma ask (h : s.Steady) : ({ s with stopped := false } : Hook).connect.Steady :=
  connect (s := { s with stopped := false }) (of_wanted rfl h.older h.timer) rfl

/-- A setting is applied to a tunnel that is shown, or held. -/
lemma reconnect (h : s.Steady) {state : TunnelState} (hguard : s.stopped = true → ¬ state.Live)
    (hlive : state = .connected ∨ state = .connecting ∨ s.held = true) (settings : Settings) :
    (s.connectWith settings).Steady := by
  refine h.connectWith ?_ settings
  rw [← Bool.not_eq_true]
  intro hstopped
  obtain hshown | hshown | hheld := hlive
  · exact hguard hstopped (Or.inl hshown)
  · exact hguard hstopped (Or.inr hshown)
  · exact absurd ((h.idle hstopped).held.symm.trans hheld) Bool.false_ne_true

/-- A teardown that is shown leaves no timer armed. -/
lemma disconnecting {t : Hook} (hcancelled : ∀ w ∈ t.sweeps, w.gen < t.connectGen)
    (hblocked : t.blocked = false) (hheld : t.held = false) (hwanted : t.wantConnected = false)
    (htimer : t.reconnectTimer = true → t.state = .disconnected) :
    (t.setState .disconnecting).Steady := by
  rw [Hook.setState]
  split
  · rename_i hstate
    have hoff : t.reconnectTimer = false := by
      rw [← Bool.not_eq_true]
      intro hon
      exact absurd (hstate.symm.trans (htimer hon)) (by decide)
    exact ⟨fun w hw => Nat.le_of_lt (hcancelled w hw),
      fun _ w hw => Nat.ne_of_lt (hcancelled w hw),
      fun _ => ⟨hblocked, hheld, hwanted, hoff⟩, htimer⟩
  · have hup : TunnelState.disconnecting ≠ .connected := by decide
    have hdown : TunnelState.disconnecting ≠ .disconnected := by decide
    rw [Hook.autoReconnect, if_neg hup, if_neg fun hdropped => hdown hdropped.1]
    exact ⟨fun w hw => Nat.le_of_lt (hcancelled w hw),
      fun _ w hw => Nat.ne_of_lt (hcancelled w hw),
      fun _ => ⟨hblocked, hheld, hwanted, rfl⟩, fun hon => absurd hon Bool.false_ne_true⟩

/-- The session is torn down: whatever is in flight is cancelled. -/
lemma stopSession (h : s.Steady) : s.stopSession.Steady :=
  disconnecting (fun w hw => Nat.lt_succ_of_le (h.older w hw)) rfl rfl rfl h.timer

/-- The user's Disconnect. -/
lemma disconnect (h : s.Steady) : ({ s with stopped := true } : Hook).stopSession.Steady :=
  disconnecting (fun w hw => Nat.lt_succ_of_le (h.older w hw)) rfl rfl rfl h.timer

lemma failHeld (h : s.Steady) (hwanted : s.stopped = false) : s.failHeld.Steady :=
  Steady.calm (s := { s with connecting := false, blocked := true })
    (of_wanted hwanted h.older h.timer) (Calm.setState _ .error)

/-- An attempt begins, or the connect is out of transports. -/
lemma attempt (h : s.Steady) (rest : List String)
    (hends : s.stopped = true → rest = [] → s.holding w = false) :
    (s.attempt w rest).Steady := by
  cases rest with
  | nil =>
      rw [Hook.attempt]
      refine Steady.calm ?_ (Calm.finish _ w)
      split
      · rename_i hholding
        have hwanted : s.stopped = false := by
          rw [← Bool.not_eq_true]
          intro hstopped
          exact absurd ((hends hstopped rfl).symm.trans hholding) Bool.false_ne_true
        exact h.failHeld hwanted
      · exact h.calm (Calm.fail s)
  | cons _ rest =>
      rw [Hook.attempt]
      split
      · exact h.calm (Calm.finish s w)
      · exact h.calm (Calm.start s w _)

/-- The session is held by a connect that the user wants. -/
lemma hold (h : s.Steady) (hwanted : s.stopped = false) (await : Await) :
    (({ s with held := true } : Hook).goto w await).Steady :=
  Steady.calm (s := { s with held := true }) (of_wanted hwanted h.older h.timer)
    (Calm.goto _ w await)

/-- The attempt is released, by a connect that the user wants. -/
lemma releaseAttempt (h : s.Steady) (hwanted : s.stopped = false) (rest : List String) :
    (s.releaseAttempt w rest).Steady := by
  rw [Hook.releaseAttempt]
  split
  · exact h.hold hwanted _
  · exact h.calm (Calm.goto s w _)

/-- An exception is caught. -/
lemma caught (h : s.Steady) (hw : w ∈ s.sweeps) : (s.caught w).Steady := by
  rw [Hook.caught]
  split
  · exact h.calm (Calm.finish s w)
  · rename_i hcurrent
    have hwanted := h.wanted hw (by simpa [Hook.cancelled] using hcurrent)
    split
    · exact h.hold hwanted _
    · split
      · exact h.calm (Calm.goto s w _)
      · exact (h.calm (Calm.fail s)).calm (Calm.finish _ w)

/-- A native call has returned. -/
lemma done {s' : Hook} (h : s.Steady)
    (hends : s.stopped = true → ¬ s.EndsHeld w) (hresume : s.resume w .done = some s') :
    s'.Steady := by
  have hdown : ({ s with sessionUp := false } : Hook).Steady := h.calm (Calm.rest s)
  cases hawait : w.await with
  | startTunnel rest =>
      simp only [Hook.resume, hawait, Option.some.injEq] at hresume
      exact hresume ▸ h.calm (Calm.goto s w _)
  | release rest =>
      simp only [Hook.resume, hawait, Option.some.injEq] at hresume
      refine hresume ▸ h.attempt rest fun hstopped hrest => ?_
      rw [← Bool.not_eq_true]
      exact fun hholding => hends hstopped (Or.inr ⟨hrest ▸ hawait, hholding⟩)
  | teardown rest =>
      simp only [Hook.resume, hawait, Option.some.injEq] at hresume
      exact hresume ▸ hdown.attempt rest fun _ _ => Bool.and_false _
  | startMultihop =>
      simp only [Hook.resume, hawait, Option.some.injEq] at hresume
      have hread : ({ s with reads := s.reads ++ [w.gen] } : Hook).Steady := h.calm (Calm.rest s)
      exact hresume ▸ (hread.calm (Calm.up _)).calm (Calm.finish _ w)
  | failHold =>
      simp only [Hook.resume, hawait, Option.some.injEq] at hresume
      have hwanted : s.stopped = false := by
        rw [← Bool.not_eq_true]
        exact fun hstopped => hends hstopped (Or.inl hawait)
      exact hresume ▸ (h.failHeld hwanted).calm (Calm.finish _ w)
  | failTeardown =>
      simp only [Hook.resume, hawait, Option.some.injEq] at hresume
      exact hresume ▸ (hdown.calm (Calm.fail _)).calm (Calm.finish _ w)
  | permission | network | probe rest | hops =>
      simp only [Hook.resume, hawait] at hresume
      cases hresume

/-- The probe is over. -/
lemma probed {s' : Hook} {up : Bool} (h : s.Steady) (hw : w ∈ s.sweeps)
    (hresume : s.resume w (.probed up) = some s') : s'.Steady := by
  have hsession : ({ s with sessionUp := true } : Hook).Steady := h.calm (Calm.rest s)
  cases hawait : w.await with
  | probe rest =>
      simp only [Hook.resume, hawait, Option.some.injEq] at hresume
      subst hresume
      split
      · exact hsession.calm (Calm.finish _ w)
      · rename_i hcurrent
        split
        · exact ((hsession.calm (Calm.up _)).calm (Calm.setState _ _)).calm (Calm.finish _ w)
        · exact hsession.releaseAttempt
            (h.wanted hw (by simpa [Hook.cancelled] using hcurrent)) rest
  | permission | network | startTunnel rest | release rest | teardown rest | hops
  | startMultihop | failHold | failTeardown =>
      simp only [Hook.resume, hawait] at hresume
      cases hresume

/-- An exception. -/
lemma thrown {s' : Hook} (h : s.Steady) (hw : w ∈ s.sweeps)
    (hresume : s.resume w .thrown = some s') : s'.Steady := by
  cases hawait : w.await with
  | permission | network | hops | startMultihop =>
      simp only [Hook.resume, hawait, Option.some.injEq] at hresume
      exact hresume ▸ h.caught hw
  | startTunnel rest =>
      simp only [Hook.resume, hawait, Option.some.injEq] at hresume
      subst hresume
      split
      · exact h.calm (Calm.finish s w)
      · rename_i hcurrent
        exact h.releaseAttempt (h.wanted hw (by simpa [Hook.cancelled] using hcurrent)) rest
  | release rest =>
      cases rest with
      | nil =>
          simp only [Hook.resume, hawait] at hresume
          cases hresume
      | cons _ rest =>
          simp only [Hook.resume, hawait, Option.some.injEq] at hresume
          exact hresume ▸ h.caught hw
  | teardown rest =>
      cases rest with
      | nil =>
          simp only [Hook.resume, hawait] at hresume
          cases hresume
      | cons _ rest =>
          simp only [Hook.resume, hawait, Option.some.injEq] at hresume
          exact hresume ▸ (h.calm (Calm.rest s)).caught hw
  | probe rest | failHold | failTeardown =>
      simp only [Hook.resume, hawait] at hresume
      cases hresume

/-- A connect goes on behind its await. -/
lemma resume {s' : Hook} {a : Answer} (h : s.Steady) (hw : w ∈ s.sweeps)
    (hguard : Heeded s (.answer w.gen a)) (hresume : s.resume w a = some s') : s'.Steady := by
  cases a with
  | granted =>
      cases hawait : w.await <;> simp only [Hook.resume, hawait] at hresume <;> cases hresume
      exact h.calm (Calm.goto s w _)
  | refused =>
      cases hawait : w.await <;> simp only [Hook.resume, hawait] at hresume <;> cases hresume
      exact (h.calm (Calm.setState s .error)).calm (Calm.finish _ w)
  | enrolled chain =>
      cases hawait : w.await <;> cases chain <;> simp only [Hook.resume, hawait] at hresume <;>
        cases hresume
      exact h.attempt _ fun _ hnil => absurd hnil (List.cons_ne_nil _ _)
  | ready =>
      cases hawait : w.await <;> simp only [Hook.resume, hawait] at hresume <;> cases hresume
      exact h.calm (Calm.start s w _)
  | done => exact h.done (fun hstopped => hguard hstopped w hw rfl) hresume
  | probed up => exact h.probed hw hresume
  | thrown => exact h.thrown hw hresume

/-! ### Reports, reads and watchdogs -/

/-- A status event; behind a Disconnect it may not report a held session. -/
lemma event (h : s.Steady) {status : TunnelStatus}
    (hguard : s.stopped = true → status.held = false) : (s.event status).Steady := by
  rw [Hook.event]
  split
  · exact h
  · split
    · rename_i hheld
      have hwanted : s.stopped = false := by
        rw [← Bool.not_eq_true]
        intro hstopped
        exact absurd ((hguard hstopped).symm.trans hheld) Bool.false_ne_true
      exact Steady.calm (s := { s with sessionUp := true, held := true, blocked := true })
        (of_wanted hwanted h.older h.timer) (Calm.setState _ _)
    · split
      · have hcleared : Calm s { s with sessionUp := false, held := false, blocked := false } :=
          Calm.of_same rfl rfl rfl rfl rfl fun _ hidle => ⟨rfl, rfl, hidle.wanted, hidle.timer⟩
        exact (h.calm hcleared).calm (Calm.setState _ _)
      · exact h.calm (Calm.setState s _)

/-- The status at launch; behind a Disconnect it may not report a held session. -/
lemma adopt (h : s.Steady) {status : TunnelStatus}
    (hguard : s.stopped = true → status.held = false) : (s.adopt status).Steady := by
  rw [Hook.adopt]
  split
  · rename_i hheld
    have hwanted : s.stopped = false := by
      rw [← Bool.not_eq_true]
      intro hstopped
      exact absurd ((hguard hstopped).symm.trans hheld) Bool.false_ne_true
    have hadopted : ({ s with
        sessionUp := true, held := true, wantConnected := true, blocked := true } : Hook).Steady :=
      of_wanted hwanted h.older h.timer
    dsimp only
    split
    · exact hadopted.calm (Calm.setState _ _)
    · exact hadopted
  · split
    · have hsession : ({ s with sessionUp := true } : Hook).Steady := h.calm (Calm.rest s)
      dsimp only
      split
      · exact hsession.calm (Calm.setState _ _)
      · exact hsession
    · exact h

/-- The connect watchdog; behind a Disconnect it may not hold a session. -/
lemma connectTimeout (h : s.Steady)
    (hguard : s.stopped = true → ¬ (s.settings.killSwitch ∧ s.sessionUp)) :
    s.connectTimeout.Steady := by
  have hcancelled : ({ s with
      connectGen := s.connectGen + 1, connecting := false } : Hook).Steady :=
    ⟨fun w hw => Nat.le_succ_of_le (h.older w hw),
      fun _ w hw => Nat.ne_of_lt (Nat.lt_succ_of_le (h.older w hw)),
      fun hstopped => ⟨(h.idle hstopped).blocked, (h.idle hstopped).held,
        (h.idle hstopped).wanted, (h.idle hstopped).timer⟩, h.timer⟩
  rw [Hook.connectTimeout]
  dsimp only
  split
  · rename_i hheld
    have hwanted : s.stopped = false := by
      rw [← Bool.not_eq_true]
      exact fun hstopped => hguard hstopped hheld
    exact Steady.calm (s := { s with
        connectGen := s.connectGen + 1, connecting := false, held := true, blocked := true })
      (of_wanted hwanted hcancelled.older h.timer) (Calm.setState _ .error)
  · exact hcancelled.calm (Calm.setState _ .error)

/-- An action that is heeded; one case for each action. -/
lemma step {s' : Hook} {a : Action} (h : s.Steady) (hguard : Heeded s a)
    (hstep : UseVpn.step s a = some s') : s'.Steady := by
  cases a with
  | connect =>
      cases hstep
      exact h.ask
  | disconnect =>
      cases hstep
      exact h.disconnect
  | rebuild =>
      simp only [UseVpn.step, Option.some.injEq] at hstep
      subst hstep
      split
      · rename_i hlive
        exact h.reconnect hguard hlive s.settings
      · exact h
  | dnsTapped =>
      cases hstep
      exact h.calm (Calm.rest _)
  | dnsSaved change =>
      simp only [UseVpn.step] at hstep
      split at hstep
      · cases hstep
        have hsaved : ({ s with dnsChanges := s.dnsChanges.erase change } : Hook).Steady :=
          h.calm (Calm.rest _)
        split
        · rename_i hlive
          exact hsaved.reconnect hguard hlive change.settings
        · exact hsaved
      · cases hstep
  | setKillSwitch enabled =>
      simp only [UseVpn.step, Option.some.injEq] at hstep
      subst hstep
      have hset : ∀ settings : Settings,
          Calm s { s with saves := s.saves ++ [enabled], settings := settings } := fun _ =>
        Calm.rest s
      split
      · exact h.calm (hset s.settings)
      · exact (h.calm (hset _)).calm (Calm.autoReconnect _)
  | saved enabled =>
      simp only [UseVpn.step] at hstep
      split at hstep
      · cases hstep
        have hsaved : ({ s with saves := s.saves.erase enabled } : Hook).Steady :=
          h.calm (Calm.rest _)
        split
        · exact hsaved.stopSession.calm (Calm.rest _)
        · exact hsaved
      · cases hstep
  | lifted =>
      simp only [UseVpn.step] at hstep
      split at hstep
      · cases hstep
        exact connect (s := { s with lifts := s.lifts - 1, wantConnected := true })
          (of_wanted hguard h.older h.timer) hguard
      · cases hstep
  | rerender settings =>
      cases hstep
      refine Steady.calm (s := { s with settings := _ }) ?_ (Calm.autoReconnect _)
      exact h.calm (Calm.rest _)
  | loaded autoConnect booting =>
      cases hstep
      exact h.calm (Calm.rest _)
  | event status =>
      cases hstep
      exact h.event hguard
  | adopted status =>
      simp only [UseVpn.step] at hstep
      split at hstep
      · cases hstep
        exact adopt (s := { s with adopting := false }) (h.calm (Calm.rest _)) hguard
      · cases hstep
  | polled now status =>
      simp only [UseVpn.step] at hstep
      split at hstep
      · cases hstep
        rw [Hook.polled]
        split
        · exact h.calm (Calm.rest _)
        · exact h
      · cases hstep
  | watchdogHeld =>
      simp only [UseVpn.step] at hstep
      split at hstep
      · cases hstep
        exact connect (s := { s with holds := s.holds - 1, held := true })
          (of_wanted hguard h.older h.timer) hguard
      · cases hstep
  | read gen status =>
      simp only [UseVpn.step] at hstep
      split at hstep
      · cases hstep
        have hread : ({ s with reads := s.reads.erase gen } : Hook).Steady :=
          h.calm (Calm.rest _)
        split
        · exact hread.calm (Calm.setState _ _)
        · exact hread
      · cases hstep
  | answer gen a =>
      obtain ⟨w, hfind, hresume⟩ := Option.bind_eq_some_iff.mp hstep
      have hgen : w.gen = gen := by simpa using List.find?_some hfind
      subst hgen
      exact h.resume (List.mem_of_find?_eq_some hfind) hguard hresume
  | connectTimeout =>
      simp only [UseVpn.step] at hstep
      split at hstep
      · cases hstep
        exact h.connectTimeout hguard
      · cases hstep
  | disconnectTimeout =>
      simp only [UseVpn.step] at hstep
      split at hstep
      · cases hstep
        exact h.calm (Calm.setState s _)
      · cases hstep
  | retry =>
      simp only [UseVpn.step] at hstep
      split at hstep
      · rename_i hblocked
        cases hstep
        refine h.connect ?_
        rw [← Bool.not_eq_true]
        intro hstopped
        exact absurd ((h.idle hstopped).blocked.symm.trans hblocked.1) Bool.false_ne_true
      · cases hstep
  | reconnectTimer =>
      simp only [UseVpn.step] at hstep
      split at hstep
      · rename_i harmed
        cases hstep
        have hwanted : s.stopped = false := by
          rw [← Bool.not_eq_true]
          intro hstopped
          exact absurd ((h.idle hstopped).timer.symm.trans harmed) Bool.false_ne_true
        exact connect (s := { s with reconnectTimer := false })
          (of_wanted hwanted h.older fun hon => absurd hon Bool.false_ne_true) hwanted
      · cases hstep
  | autoConnect =>
      simp only [UseVpn.step] at hstep
      split at hstep
      · cases hstep
        exact ask (s := { s with autoConnected := true }) (h.calm (Calm.rest _))
      · cases hstep

/-- Nothing has been asked for at launch. -/
lemma launched (settings : Settings) : (UseVpn.launched settings).Steady :=
  of_wanted rfl (fun _ hw => absurd hw List.not_mem_nil)
    fun hon => absurd hon Bool.false_ne_true

end Hook.Steady

/-- No start of an older connect is added. -/
lemma Hook.OlderSilent.step {s s' : Hook} {a : Action} (h : s.OlderSilent)
    (hguard : HopsHeeded s a) (hstep : UseVpn.step s a = some s') : s'.OlderSilent := by
  obtain hstarts | ⟨w, -, hcurrent, hstarts⟩ := starts_step hstep
  · exact fun start hstart => h start (hstarts ▸ hstart)
  · intro start hstart
    rw [hstarts] at hstart
    obtain hstart | hstart := List.mem_append.mp hstart
    · exact h start hstart
    · obtain rfl := List.mem_singleton.mp hstart
      obtain hcurrent | rfl := hcurrent
      · exact hcurrent.symm
      · exact hguard.symm

/-- No start is added behind a Disconnect, as far as older connects are silent. -/
lemma Hook.Steady.wanted_step {s s' : Hook} {a : Action} (h : s.Steady)
    (hstarts : ∀ start ∈ s.starts, start.stopped = false) (hguard : HopsHeeded s a)
    (hstep : UseVpn.step s a = some s') : ∀ start ∈ s'.starts, start.stopped = false := by
  obtain hsame | ⟨w, hw, hcurrent, hadded⟩ := starts_step hstep
  · exact hsame ▸ hstarts
  · intro start hstart
    rw [hadded] at hstart
    obtain hstart | hstart := List.mem_append.mp hstart
    · exact hstarts start hstart
    · obtain rfl := List.mem_singleton.mp hstart
      obtain hcurrent | rfl := hcurrent
      · exact h.wanted hw hcurrent
      · exact h.wanted hw hguard

/-- **The newest connect or Disconnect wins.**  Along every run in which two hops are
started by the newest connect only, no native start is of an older one; and along
every run whose steps are all heeded, none comes after a Disconnect either, until a
tunnel is asked for again. -/
theorem newest_connect_wins (settings : Settings) (as : List Action) {s : Hook}
    (hs : exec step (launched settings) as = some s) :
    (Along step HopsHeeded (launched settings) as → s.OlderSilent) ∧
      (Along step Heeded (launched settings) as → s.NewestWins) := by
  have holder : Along step HopsHeeded (launched settings) as → s.OlderSilent := fun hguard =>
    exec_invariant (I := Hook.OlderSilent) (fun _ _ _ h hheeded hstep => h.step hheeded hstep)
      (fun _ hstart => absurd hstart List.not_mem_nil) hguard hs
  refine ⟨holder, fun hguard => ⟨holder (hguard.imp fun _ _ h => h.hops), ?_⟩⟩
  refine (exec_invariant
    (I := fun s : Hook => s.Steady ∧ ∀ start ∈ s.starts, start.stopped = false) ?_
    ⟨Hook.Steady.launched settings, fun _ hstart => absurd hstart List.not_mem_nil⟩ hguard hs).2
  intro s a s' h hheeded hstep
  exact ⟨h.1.step hheeded hstep, h.1.wanted_step h.2 hheeded.hops hstep⟩

/-! ### A Disconnect that lands while the hops enroll -/

/-- The settings of somebody who takes two hops under the kill switch. -/
def hopsSettings : Settings where
  keypair := true
  multihop := true
  killSwitch := true
  autoConnect := false
  booting := false
  discovered := true

/-- The user connects and disconnects, connects again and taps twice; each connect
on two hops is answered in its time. -/
def heededRun : List Action :=
  [.connect, .answer 1 .granted, .answer 1 .ready, .answer 1 .done,
    .read 1 { state := .connected, lastHandshake := 0, held := false }, .disconnect,
    .event { state := .disconnected, lastHandshake := 0, held := false }, .connect,
    .answer 3 .granted, .connect, .answer 3 .thrown, .answer 4 .granted, .answer 4 .ready,
    .answer 4 .done]

/-- The user connects and disconnects, and then both hops have enrolled the key. -/
def cancelledRun : List Action :=
  [.connect, .answer 1 .granted, .disconnect, .answer 1 .ready]

/-- The hook after these actions. -/
def runFrom (settings : Settings) (as : List Action) : Hook :=
  (exec step (launched settings) as).getD (launched settings)

/-- The first connect and the last one have started a tunnel. -/
theorem newest_connect_wins_heeded :
    (runFrom hopsSettings heededRun).starts =
      [{ sweep := 1, newest := 1, stopped := false },
        { sweep := 4, newest := 4, stopped := false }] ∧
      (runFrom hopsSettings heededRun).NewestWins :=
  ⟨by decide +kernel,
    (newest_connect_wins hopsSettings heededRun (by decide +kernel)).2 (by decide +kernel)⟩

/-- A connect on two hops starts the tunnel that the user has taken down. -/
theorem not_newest_connect_wins :
    ¬ ∀ (settings : Settings) (as : List Action) (s : Hook),
      exec step (launched settings) as = some s → s.NewestWins := by
  intro h
  have hwins := h hopsSettings cancelledRun (runFrom hopsSettings cancelledRun) (by decide +kernel)
  exact absurd hwins (by decide +kernel)

end CumulusVpn.Mobile.UseVpn
