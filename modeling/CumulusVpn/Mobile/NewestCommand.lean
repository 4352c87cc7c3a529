/-
The newest command wins on Android, where each command waits its turn.

* `Device.Turned`: a command that waits its turn;
* `steady_of_exec`: what holds in every state of a run of such commands;
* `Device.NewestWins`: what the newest command has;
* `Up.step`: no thread takes a tunnel down that is newer than its command;
* `Sound.state`: nor does it change what is reported;
* `newest_command_wins`: the newest command wins in every state of such a run;
* `lateTeardown`: a run in which the thread of a STOP comes too late.
-/
import CumulusVpn.Mobile.Commands

namespace CumulusVpn.Mobile.Android

/-- The service does not run, and nothing of it is up. -/
def Host.Stopped (h : Host) : Prop := h.running = false ∧ ∀ i, h.session i = .down

namespace Device

variable {d d' : Device} {k j : Service} {w : Worker} {o : Host.Outcome} {task : Task}
  {rest : List Task} {m : Message} {ms : List Message} {n : Nat} {a : Action}

/-! ### Runs -/

/-- A command that waits its turn: a START until its service is at rest and the
other one opens nothing more, a HOLD until the active service is at rest with a
session; and a multi-hop START that does not parse finds no multi-hop session
active. A STOP may come at any time. -/
def Turned (d : Device) : Event → Prop
  | .startTunnel => (d.host .obfs).Free ∧ (d.host .multihop).Over
  | .startMultihop true => (d.host .multihop).Free ∧ (d.host .obfs).Over
  | .startMultihop false => d.active .multihop = false
  | .holdTunnel => ∀ k, d.active k = true →
      (d.host k).Free ∧ (d.host k).session (d.host k).current ≠ .down
  | .stopTunnel | .main _ | .run _ _ _ => True

instance {p : Service → Prop} [DecidablePred p] : Decidable (∀ k, p k) :=
  decidable_of_iff (p .obfs ∧ p .multihop)
    ⟨fun hp k => by cases k with
      | obfs => exact hp.1
      | multihop => exact hp.2, fun hp => ⟨hp _, hp _⟩⟩

instance (d : Device) : DecidablePred d.Turned
  | .startTunnel => inferInstanceAs (Decidable (_ ∧ _))
  | .startMultihop true => inferInstanceAs (Decidable (_ ∧ _))
  | .startMultihop false => inferInstanceAs (Decidable (_ = _))
  | .holdTunnel => inferInstanceAs (Decidable (∀ k, d.active k = true → _ ∧ _))
  | .stopTunnel | .main _ | .run _ _ _ => inferInstanceAs (Decidable True)

lemma Steady.step {e : Event} (hi : Steady d) (hg : d.Turned e) (he : step d e = some d') :
    Steady d' := by
  cases e with
  | startTunnel =>
      cases he
      exact hi.startOn hg.1 hg.2
  | startMultihop parsed =>
      cases he
      cases parsed with
      | true => exact hi.startOn hg.1 hg.2
      | false => exact hi.startMultihop_unparsed hg
  | stopTunnel =>
      cases he
      exact hi.stopTunnel
  | holdTunnel =>
      cases he
      rw [Device.holdTunnel]
      split
      · rename_i ha
        exact hi.holdOn ha (hg _ ha).1 (hg _ ha).2
      · split
        · rename_i ha
          exact hi.holdOn ha (hg _ ha).1 (hg _ ha).2
        · exact hi
  | main k =>
      rw [Android.step] at he
      split at he
      · cases he
      · rename_i m rest hmain
        cases he
        exact hi.deliver hmain
  | run k w o =>
      rw [Android.step] at he
      split at he
      · rename_i hw
        split at he
        · cases he
        · rename_i task rest hmem
          cases he
          exact hi.runWorker hw hmem
      · cases he

/-- Every state of a run whose commands wait their turn. -/
lemma steady_of_exec {es : List Event} (hturn : StepSystem.Along step Turned boot es)
    (hrun : StepSystem.exec step boot es = some d) : Steady d :=
  StepSystem.exec_invariant (fun _ _ _ hi hg he => hi.step hg he) steady_boot hturn hrun

/-! ### What the newest command has -/

/-- The tunnel of the START `n` is in force. -/
def Up (d : Device) (n : Nat) : Prop := ∃ k i, d.vpn = some (k, i) ∧ (d.host k).session i = .up n

/-- The command that a step of a thread is of. -/
def source (d : Device) : Event → Option Nat
  | .run _ w _ => some w.cmd
  | .main k => (d.host k).main.head?.map Message.cmd
  | _ => none

/-- There is what was asked for last, unless that has failed. -/
def Obeyed (d : Device) : Prop :=
  match d.asked with
  | .start k n =>
      n ∈ d.failed ∨
        (d.Came k n (.start false) ∧ (d.host k.other).Stopped)
  | .hold k n => n ∈ d.failed ∨ (d.Came k n .hold ∧ (d.host k.other).Stopped)
  | .stop =>
      (∀ k, (d.host k).Stopped) ∧ d.vpn = none ∧
        (d.currentState = .disconnected ∨ (d.currentState = .error ∧ d.failed ≠ []))

/-- The newest command wins. -/
structure NewestWins (d : Device) : Prop where
  /-- once everything is quiet, the state is the one asked for last -/
  obeyed : d.Quiet → d.Obeyed
  /-- and a service that was replaced is stopped -/
  stopped : d.Quiet → ∀ k, d.active k = false → d.retiring ≠ some k → (d.host k).Stopped
  /-- no thread of an earlier command takes a newer tunnel down -/
  kept : ∀ e d', step d e = some d' → ∀ n, d.Up n → d'.Up n ∨ ∃ c, d.source e = some c ∧ n ≤ c
  /-- nor does it change the reported state -/
  state : ∀ e d', step d e = some d' → ∀ c, d.source e = some c → c < (d.host d.lead).newest →
    d'.currentState = d.currentState

lemma free_of_quiet (hquiet : d.Quiet) (k : Service) : (d.host k).Free := by
  refine ⟨(hquiet k).1, fun w hw => ?_⟩
  rw [(hquiet k).2] at hw
  cases hw

/-- A service on its way down is down, once everything is quiet. -/
lemma Gone.stopped (hg : d.Gone k) (hquiet : d.Quiet) :
    (d.host k).Stopped ∧ d.active k = false := by
  have hrunning : (d.host k).running = false := by
    by_contra hno
    rcases hg.stops (Bool.of_not_eq_false hno) with ⟨n, hn⟩ | ⟨w, hw, -⟩
    · rw [(hquiet k).1] at hn
      cases hn
    · rw [(hquiet k).2] at hw
      cases hw
  refine ⟨⟨hrunning, hg.closing.down_of_free (free_of_quiet hquiet k)⟩, ?_⟩
  by_contra hno
  rcases hg.reports (Bool.of_not_eq_false hno) with hr | ⟨m, hm, -⟩
  · rw [hrunning] at hr
    cases hr
  · rw [(hquiet k).1] at hm
    cases hm

lemma Course.came (hc : d.Course k n a) (hquiet : d.Quiet) :
    n ∈ d.failed ∨ (d.Came k n a ∧ (d.host k.other).Stopped) := by
  refine hc.imp id ?_
  rintro ⟨ph, hl, -, hcame⟩
  obtain rfl := hl.serving.rest_of_free (free_of_quiet hquiet k)
  exact ⟨hcame rfl, ((hl.alone rfl).stopped hquiet).1⟩

lemma Steady.obeyed (hi : Steady d) (hquiet : d.Quiet) : d.Obeyed := by
  have hobeys := hi.obeys
  rw [Obeys] at hobeys
  rw [Obeyed]
  cases hask : d.asked with
  | start k n =>
      rw [hask] at hobeys
      exact hobeys.came hquiet
  | hold k n =>
      rw [hask] at hobeys
      exact hobeys.came hquiet
  | stop =>
      rw [hask] at hobeys
      have hall := fun k => (hobeys.1 k).stopped hquiet
      refine ⟨fun k => (hall k).1, ?_, hobeys.2 fun k => (hall k).2⟩
      -- the interface in force would be that of a session
      by_contra hno
      obtain ⟨⟨k, i⟩, hv⟩ := Option.ne_none_iff_exists'.mp hno
      exact hi.sound.vpn k i hv ((hall k).1.2 i)

lemma Steady.stopped (hi : Steady d) (hquiet : d.Quiet) (ha : d.active k = false)
    (hr : d.retiring ≠ some k) : (d.host k).Stopped := by
  rcases hi.stage k with hg | hleft | ⟨n, ph, hl⟩
  · exact (hg.stopped hquiet).1
  · exact absurd hleft.retiring hr
  · exact absurd (hl.active.symm.trans ha) nofun

/-! ### What is in force -/

namespace Up

lemma of_same (hup : d.Up n) (hvpn : d'.vpn = d.vpn)
    (hsession : ∀ j i, (d.host j).session i = .up n → (d'.host j).session i = .up n) :
    d'.Up n := by
  obtain ⟨j, i, hv, hup⟩ := hup
  exact ⟨j, i, hvpn.trans hv, hsession j i hup⟩

/-- An intent takes nothing down. -/
lemma startService (hup : d.Up n) (hs : Sound d) (k : Service) (a : Action) :
    (d.startService k a).Up n := by
  refine hup.of_same rfl fun j i hj => ?_
  rcases k.eq_or_other j with rfl | rfl
  · rw [startService_self, Host.startService_session (hs.placed j) (by rw [hj]; nofun)]
    exact hj
  · rw [startService_other]
    exact hj

/-- A callback takes nothing down. -/
lemma called (hup : d.Up n) (hs : Sound d) (hc : Called d d' k) : d'.Up n := by
  refine hup.of_same hc.vpn fun j i hj => ?_
  rcases k.eq_or_other j with rfl | rfl
  · rw [hc.self]
    exact hj
  · rcases hc.other with ⟨hsame, -⟩ | ⟨-, -, -, hstop⟩
    · rw [hsame]
      exact hj
    · rw [hstop, Host.startService_session (hs.placed _) (by rw [hj]; nofun)]
      exact hj

/-- Nor does a STOP before its thread runs. -/
lemma stopTunnel (hup : d.Up n) (hs : Sound d) : d.stopTunnel.Up n := by
  have hask : d.askStop.Up n := hup.of_same rfl fun _ _ hj => hj
  have hretire : d.askStop.stopRetiring.Up n := by
    rw [stopRetiring]
    cases hr : d.askStop.retiring with
    | none => exact hask
    | some k =>
        have hsame : d.askStop.retireOther k =
            { d.askStop with retiring := none }.startService k .stop := if_pos hr
        have hs' : Sound { d.askStop with retiring := none } :=
          hs.askStop.of_same rfl rfl (Nat.le_refl _) (fun hne => hne) rfl fun _ ha => ha
        have hup' : Up { d.askStop with retiring := none } n := hask.of_same rfl fun _ _ hj => hj
        simp only [hsame]
        exact hup'.startService hs' k .stop
  rw [stopTunnel_eq, stopActive]
  split
  · exact hretire.startService hs.askStop.stopRetiring _ _
  · split
    · exact hretire.startService hs.askStop.stopRetiring _ _
    · exact hretire.of_same rfl fun _ _ hj => hj

/-- Nor does a START. -/
lemma startOn (hup : d.Up n) (hs : Sound d) : ((d.ask k).startOn k).Up n := by
  refine hup.of_same rfl fun j i hj => ?_
  have hp := hs.placed k
  have hp' : { d.host k with newest := d.commands + 1 }.Placed := ⟨hp.1, hp.2, hp.3, hp.4, hp.5⟩
  rcases k.eq_or_other j with rfl | rfl
  · have hne : (d.host j).session i ≠ .down := by
      rw [hj]
      nofun
    rw [startOn_self, Host.startService_session hp' hne]
    exact hj
  · rw [startOn_other]
    exact hj

/-- Nor does a HOLD. -/
lemma holdTunnel (hup : d.Up n) (hs : Sound d) : d.holdTunnel.Up n := by
  have hhold : ∀ k, (d.holdOn k).Up n := by
    intro k
    have hs' : Sound { d with commands := d.commands + 1, asked := .hold k (d.commands + 1) } :=
      hs.of_same rfl rfl (Nat.le_succ _) (fun hne => hne) rfl fun _ ha => ha
    have hup' : Up { d with commands := d.commands + 1, asked := .hold k (d.commands + 1) } n :=
      hup.of_same rfl fun _ _ hj => hj
    exact hup'.startService hs' k .hold
  rw [Device.holdTunnel]
  split
  · exact hhold _
  · split
    · exact hhold _
    · exact hup

/-- A task takes down what is not newer than its command. -/
lemma afterTask (hup : d.Up n) (hs : Sound d) (hw : w ∈ (d.host k).workers)
    (hmem : w.tasks = task :: rest) : (d.afterTask k w o task rest).Up n ∨ n ≤ w.cmd := by
  have hcmd : (∀ id, task ≠ .stopSelf (some id)) → (d.host k).newest ≤ w.cmd := fun hno =>
    (hs.numbered k).newest_le hw hmem fun id heq => absurd heq (hno id)
  obtain ⟨j, i, hv, hup⟩ := hup
  have hle : n ≤ (d.host j).newest := (hs.numbered j).up i n hup
  rcases d.vpnAfter_cases k w o task rest with ⟨hsame, hsession⟩ | ⟨hsame, htask, hsession⟩ |
    ⟨-, hpast, -⟩
  · refine Or.inl (of_same ⟨j, i, hv, hup⟩ hsame fun j' i' hj' => ?_)
    rcases k.eq_or_other j' with rfl | rfl
    · rw [put_host, hsession]
      exact hj'
    · rw [put_host_other]
      exact hj'
  · by_cases hown : (j, i) = (k, w.inst)
    · cases hown
      refine Or.inr (Nat.le_trans hle (hcmd fun id heq => ?_))
      rw [heq] at htask
      rcases htask with htask | htask <;> cases htask
    · refine Or.inl ⟨j, i, ?_, ?_⟩
      · exact hsame.trans (vpnWithout_eq_some.mpr ⟨hv, hown⟩)
      · rcases k.eq_or_other j with rfl | rfl
        · rw [put_host, hsession i fun heq => hown (heq ▸ rfl)]
          exact hup
        · rw [put_host_other]
          exact hup
  · refine Or.inr (Nat.le_trans hle ?_)
    rcases k.eq_or_other j with rfl | rfl
    · exact hcmd fun id heq => by
        rw [heq] at hpast
        cases hpast
    · exact (hs.later k).2 w hw ⟨task, hmem ▸ List.mem_cons_self, hpast⟩

/-- A message takes down what is not newer than its command. -/
lemma delivered (hup : d.Up n) (hs : Sound d) (hmain : (d.host k).main = m :: ms) :
    (d.put k ((d.host k).delivered m ms) (d.vpnDelivered k m) d.failed).Up n ∨ n ≤ m.cmd := by
  have hcmd : (d.host k).newest ≤ m.cmd :=
    (hs.numbered k).messages m (hmain ▸ List.mem_cons_self)
  obtain ⟨j, i, hv, hup⟩ := hup
  have hle : n ≤ (d.host j).newest := (hs.numbered j).up i n hup
  by_cases hown : ∃ c, m = .destroy i c ∧ j = k
  · obtain ⟨c, rfl, rfl⟩ := hown
    exact Or.inr (Nat.le_trans hle hcmd)
  · refine Or.inl ⟨j, i, ?_, ?_⟩
    · cases m with
      | destroy i' c =>
          refine vpnWithout_eq_some.mpr ⟨hv, fun heq => hown ?_⟩
          cases heq
          exact ⟨c, rfl, rfl⟩
      | args i' id c a => exact hv
      | destroyed i' c => exact hv
    · rcases k.eq_or_other j with rfl | rfl
      · rw [put_host]
        cases m with
        | args i' id c a =>
            rw [Host.delivered, (Host.onStartCommand_frame _ i' id c a).2.1]
            exact hup
        | destroy i' c =>
            have hne : i ≠ i' := by
              rintro rfl
              exact hown ⟨c, rfl, rfl⟩
            exact (Host.setSession_of_ne .down hne).trans hup
        | destroyed i' c => exact hup
      · rw [put_host_other]
        exact hup

/-- **No thread takes a tunnel down that is newer than its command.** -/
lemma step {e : Event} (hup : d.Up n) (hs : Sound d) (he : step d e = some d') :
    d'.Up n ∨ ∃ c, d.source e = some c ∧ n ≤ c := by
  cases e with
  | startTunnel =>
      cases he
      exact Or.inl (hup.startOn hs)
  | startMultihop parsed =>
      cases he
      cases parsed with
      | true => exact Or.inl (hup.startOn hs)
      | false => exact Or.inl (hup.of_same rfl fun _ _ hj => hj)
  | stopTunnel =>
      cases he
      exact Or.inl (hup.stopTunnel hs)
  | holdTunnel =>
      cases he
      exact Or.inl (hup.holdTunnel hs)
  | main k =>
      rw [Android.step] at he
      split at he
      · cases he
      · rename_i m rest hmain
        cases he
        rw [deliver_eq]
        refine (hup.delivered hs hmain).imp (fun hup' => ?_) fun hle => ⟨m.cmd, ?_, hle⟩
        · exact hup'.called (hs.put_deliver hmain) (called_call _ k _)
        · rw [source, hmain]
          rfl
  | run k w o =>
      rw [Android.step] at he
      split at he
      · rename_i hw
        split at he
        · cases he
        · rename_i task rest hmem
          cases he
          rw [runWorker_eq]
          refine (hup.afterTask (o := o) hs hw hmem).imp (fun hup' => ?_)
            fun hle => ⟨w.cmd, rfl, hle⟩
          exact hup'.called (hs.put_run hw hmem) (called_call _ k _)
      · cases he

end Up

/-- **No thread of an earlier command than the newest START changes the reported
state.** -/
lemma Sound.state {e : Event} {c : Nat} (hs : Sound d) (he : Android.step d e = some d')
    (hc : d.source e = some c) (hlt : c < (d.host d.lead).newest) :
    d'.currentState = d.currentState := by
  have hactive : ∀ k, d.active k = true → c < (d.host k).newest := by
    intro k hk
    rw [hs.lead k hk]
    exact hlt
  cases e with
  | main k =>
      rw [Android.step] at he
      split at he
      · cases he
      · rename_i m rest hmain
        cases he
        have hcmd : m.cmd = c := by
          rw [source, hmain] at hc
          exact Option.some.inj hc
        have hinactive : d.active k = false := by
          by_contra hno
          have hle := (hs.numbered k).messages m (hmain ▸ List.mem_cons_self)
          have := hactive k (Bool.of_not_eq_false hno)
          omega
        rw [deliver_eq, call_of_inactive (d := d.put k _ _ _) hinactive]
        rfl
  | run k w o =>
      rw [Android.step] at he
      split at he
      · rename_i hw
        split at he
        · cases he
        · rename_i task rest hmem
          cases he
          cases hc
          rw [runWorker_eq]
          by_cases htask : ∃ id, task = .stopSelf (some id)
          · obtain ⟨id, rfl⟩ := htask
            rfl
          · have hinactive : d.active k = false := by
              by_contra hno
              have hle := (hs.numbered k).newest_le hw hmem fun id heq => absurd ⟨id, heq⟩ htask
              have := hactive k (Bool.of_not_eq_false hno)
              omega
            rw [call_of_inactive (d := d.afterTask k w o task rest) hinactive]
            rfl
      · cases he
  | startTunnel => cases hc
  | startMultihop parsed => cases hc
  | stopTunnel => cases hc
  | holdTunnel => cases hc

/-! ### The newest command wins -/

theorem newest_command_wins {es : List Event} (hturn : StepSystem.Along step Turned boot es)
    (hrun : StepSystem.exec step boot es = some d) : d.NewestWins := by
  have hi := steady_of_exec hturn hrun
  exact ⟨hi.obeyed, fun hquiet k ha hr => hi.stopped hquiet ha hr,
    fun e d' he n hup => hup.step hi.sound he, fun e d' he c hc hlt => hi.sound.state he hc hlt⟩

/-- A START is up, a STOP is delivered, another START connects, and only then
the thread of the STOP runs. -/
def lateTeardown : List Event :=
  [.startTunnel, .main .obfs,
    .run .obfs ⟨1, 1, [.startRoute false]⟩ .ok, .run .obfs ⟨1, 1, [.connect false]⟩ .ok,
    .run .obfs ⟨1, 1, [.check]⟩ .ok, .run .obfs ⟨1, 1, [.report .connected]⟩ .ok,
    .stopTunnel, .main .obfs, .startTunnel, .main .obfs,
    .run .obfs ⟨1, 3, [.startRoute false]⟩ .ok, .run .obfs ⟨1, 3, [.connect true]⟩ .ok,
    .run .obfs ⟨1, 3, [.check]⟩ .ok, .run .obfs ⟨1, 3, [.report .connected]⟩ .ok,
    .run .obfs ⟨1, 2, [.teardown, .stopSelf (some 2)]⟩ .ok,
    .run .obfs ⟨1, 2, [.stopSelf (some 2)]⟩ .ok]

/-- The newest START is reported as connected, and nothing is up. -/
theorem lateTeardown_loses :
    ∃ d, StepSystem.exec step boot lateTeardown = some d ∧ d.Quiet ∧
      d.asked = .start .obfs 3 ∧ d.currentState = .connected ∧ d.vpn = none ∧ ¬ d.NewestWins := by
  have hquiet : ∀ d, StepSystem.exec step boot lateTeardown = some d → d.Quiet := by
    intro d hd
    cases hd
    intro k
    cases k <;> exact ⟨rfl, rfl⟩
  refine ⟨_, rfl, hquiet _ rfl, rfl, rfl, rfl, fun hwins => ?_⟩
  rcases hwins.obeyed (hquiet _ rfl) with hf | ⟨⟨⟨hv, -⟩, -⟩, -⟩
  · cases hf
  · cases hv

/-- A single-hop session is replaced by a multi-hop one, and both are stopped. -/
def switchAndStop : List Event :=
  [.startTunnel, .main .obfs,
    .run .obfs ⟨1, 1, [.startRoute false]⟩ .ok, .run .obfs ⟨1, 1, [.connect false]⟩ .ok,
    .run .obfs ⟨1, 1, [.check]⟩ .ok, .run .obfs ⟨1, 1, [.report .connected]⟩ .ok,
    .startMultihop true, .main .multihop,
    .run .multihop ⟨1, 2, [.startRoute true]⟩ .ok, .run .multihop ⟨1, 2, [.connect true]⟩ .ok,
    .run .multihop ⟨1, 2, [.check]⟩ .ok, .run .multihop ⟨1, 2, [.report .connected]⟩ .ok,
    .stopTunnel, .main .obfs, .main .multihop,
    .run .multihop ⟨1, 3, [.teardown, .stopSelf (some 2)]⟩ .ok]

theorem newest_command_wins_switchAndStop :
    ∃ d, StepSystem.exec step boot switchAndStop = some d ∧ d.NewestWins := by
  have hturn : StepSystem.Along step Turned boot switchAndStop := by decide
  exact ⟨_, rfl, newest_command_wins hturn rfl⟩

end Device

end CumulusVpn.Mobile.Android
