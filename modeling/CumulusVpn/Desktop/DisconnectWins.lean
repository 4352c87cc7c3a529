/-
Disconnect wins over the connects in flight.

A Disconnect aborts the sweep that the hook holds and queues a teardown.  A
single-hop sweep looks at its abort signal before it issues a connect;
`establishMultihop` does not, and every sweep still writes the phase when it
comes to its end.

* `App.Ordered`: no connect is queued behind a Disconnect that it precedes;
* `App.Level`: whether the tunnel can be up once the queue is served;
* `disconnect_wins`: **along every run in which no cancelled connect acts**
  the last Disconnect holds, and at rest the app shows what the manager is.
-/
import CumulusVpn.Desktop.Sweeps

namespace CumulusVpn.Desktop

open StepSystem

namespace App

/-! ### Connects and Disconnects in order -/

/-- A multi-hop connect goes on to its command only while it is not
cancelled. -/
def HopsInForce (s : App) : Action → Prop
  | .hopsEnrolled id _ => ∀ w ∈ s.sweeps, w.id = id → w.aborted = false
  | _ => True

/-- No connect behind a Disconnect that it precedes. -/
def InOrder : Command → Command → Prop
  | .disconnect before, .connect id _ => before ≤ id
  | .disconnect before, .connectMultihop id _ => before ≤ id
  | _, _ => True

lemma inOrder_of_ne {x : Command} (hx : ∀ n, x ≠ .disconnect n) (y : Command) : InOrder x y := by
  cases x with
  | disconnect n => exact absurd rfl (hx n)
  | connect id r => trivial
  | connectMultihop id r => trivial
  | teardown id => trivial
  | status => trivial

/-- Every connect that can still bring the tunnel up, or has done so, began
after the Disconnects that are served before it. -/
structure Ordered (s : App) : Prop where
  cancelled : s.cancelled ≤ s.nextSweep
  pressed : ∀ n, .disconnect n ∈ s.queue → n ≤ s.nextSweep
  live : ∀ w ∈ s.sweeps, w.aborted = false → ∀ n, .disconnect n ∈ Command.disconnect s.cancelled ::
    s.queue → n ≤ w.id
  fifo : (Command.disconnect s.cancelled :: s.queue).Pairwise InOrder
  up : s.manager.inner.state = .up → ∀ id ∈ s.upBy, s.cancelled ≤ id

namespace Ordered

variable {s : App}

/-- What the order does not depend on. -/
lemma congr (h : s.Ordered) {s' : App} (hcancelled : s'.cancelled = s.cancelled)
    (hnext : s'.nextSweep = s.nextSweep) (hqueue : s'.queue = s.queue)
    (hsweeps : ∀ w ∈ s'.sweeps, w.aborted = false → ∃ v ∈ s.sweeps, v.aborted = false ∧ v.id = w.id)
    (hup : s'.manager = s.manager ∧ s'.upBy = s.upBy) : s'.Ordered := by
  refine ⟨?_, ?_, ?_, ?_, ?_⟩
  · rw [hcancelled, hnext]
    exact h.cancelled
  · rw [hqueue, hnext]
    exact h.pressed
  · rw [hcancelled, hqueue]
    intro w hw hab
    obtain ⟨v, hv, hvab, hid⟩ := hsweeps w hw hab
    exact hid ▸ h.live v hv hvab
  · rw [hcancelled, hqueue]
    exact h.fifo
  · rw [hup.1, hup.2, hcancelled]
    exact h.up

lemma setPhase (h : s.Ordered) (phase : Phase) : (s.setPhase phase).Ordered := by
  obtain ⟨-, -, -, hsweeps, hnext, hqueue, hm, hcancelled, hup⟩ := s.frame_setPhase phase
  refine h.congr hcancelled hnext hqueue ?_ ⟨hm, hup⟩
  rw [hsweeps]
  exact fun w hw hab => ⟨w, hw, hab, rfl⟩

lemma settle (h : s.Ordered) (id : Nat) (phase : Phase) : (s.settle id phase).Ordered := by
  obtain ⟨-, -, -, hsweeps, hnext, hqueue, hm, hcancelled, hup⟩ := s.frame_settle id phase
  refine h.congr hcancelled hnext hqueue ?_ ⟨hm, hup⟩
  rw [hsweeps]
  exact fun w hw hab => ⟨w, (List.mem_filter.mp hw).1, hab, rfl⟩

/-- Commands may join that no queued Disconnect cancels. -/
lemma enqueue (h : s.Ordered) {commands : List Command}
    (hcommands : ∀ cmd ∈ commands, (∀ n, cmd ≠ .disconnect n) ∧
      ∀ n, .disconnect n ∈ Command.disconnect s.cancelled :: s.queue →
        InOrder (.disconnect n) cmd) :
    ({ s with queue := s.queue ++ commands } : App).Ordered := by
  have hmem : ∀ n, .disconnect n ∈ s.queue ++ commands → .disconnect n ∈ s.queue := by
    intro n hn
    rcases List.mem_append.mp hn with hold | hnew
    · exact hold
    · exact absurd rfl ((hcommands _ hnew).1 n)
  refine ⟨h.cancelled, fun n hn => h.pressed n (hmem n hn), ?_, ?_, h.up⟩
  · intro w hw hab n hn
    refine h.live w hw hab n ?_
    rcases List.mem_cons.mp hn with heq | hn
    · exact List.mem_cons.mpr (Or.inl heq)
    · exact List.mem_cons_of_mem _ (hmem n hn)
  · have happend : (Command.disconnect s.cancelled :: s.queue ++ commands).Pairwise InOrder := by
      refine List.pairwise_append.mpr ⟨h.fifo, ?_, ?_⟩
      · exact List.pairwise_of_forall_mem_list fun x hx y _ => inOrder_of_ne (hcommands x hx).1 y
      · intro x hx y hy
        cases x with
        | disconnect n => exact (hcommands y hy).2 n hx
        | connect id r => trivial
        | connectMultihop id r => trivial
        | teardown id => trivial
        | status => trivial
    exact happend

lemma setAwait (h : s.Ordered) (id : Nat) (await : Await) {commands : List Command}
    (hcommands : ∀ cmd ∈ commands, (∀ n, cmd ≠ .disconnect n) ∧
      ∀ n, .disconnect n ∈ Command.disconnect s.cancelled :: s.queue →
        InOrder (.disconnect n) cmd) :
    (s.setAwait id await commands).Ordered := by
  refine (h.enqueue hcommands).congr rfl rfl rfl ?_ ⟨rfl, rfl⟩
  intro w hw hab
  obtain ⟨v, hv, rfl⟩ := List.mem_map.mp hw
  split at hab
  · rename_i hid
    rw [if_pos hid]
    exact ⟨v, hv, hab, rfl⟩
  · rename_i hid
    rw [if_neg hid]
    exact ⟨v, hv, hab, rfl⟩

lemma attempt (h : s.Ordered) {w : Sweep} (hw : w ∈ s.sweeps) (i : Nat)
    (chain : List Attempt) : (s.attempt w i chain).Ordered := by
  rcases s.attempt_cases w i chain with heq | ⟨-, heq⟩ | ⟨hab, a, heq⟩
  · rw [heq]
    refine h.setAwait _ _ ?_
    intro cmd hcmd
    rw [List.mem_singleton.mp hcmd]
    exact ⟨nofun, fun _ _ => trivial⟩
  · rw [heq]
    exact h.settle _ _
  · rw [heq]
    refine h.setAwait _ _ ?_
    intro cmd hcmd
    rw [List.mem_singleton.mp hcmd]
    exact ⟨nofun, fun n hn => h.live w hw hab n hn⟩

lemma connect (h : s.Ordered) (hshape : s.Shape) : s.connect.Ordered := by
  rw [App.connect]
  split
  · exact h
  · have hset := h.setPhase .connecting
    have hnext : (s.setPhase .connecting).nextSweep = s.nextSweep :=
      (s.frame_setPhase .connecting).2.2.2.2.1
    refine ⟨Nat.le_succ_of_le hset.cancelled, fun n hn => Nat.le_succ_of_le (hset.pressed n hn),
      ?_, hset.fifo, hset.up⟩
    intro w hw hab n hn
    rcases List.mem_append.mp hw with hold | hnew
    · rw [(hshape.setPhase .connecting).aborted w hold] at hab
      cases hab
    · rw [List.mem_singleton.mp hnew]
      rcases List.mem_cons.mp hn with heq | hn
      · cases heq
        exact hset.cancelled
      · exact hset.pressed n hn

/-- A Disconnect comes after every connect that has begun. -/
lemma disconnect (h : s.Ordered) (hshape : s.Shape) : s.disconnect.Ordered := by
  refine ⟨h.cancelled, ?_, ?_, ?_, h.up⟩
  · intro n hn
    rcases List.mem_append.mp hn with hold | hnew
    · exact h.pressed n hold
    · cases List.mem_singleton.mp hnew
      exact Nat.le_refl _
  · intro w hw hab
    rw [hshape.aborted w hw] at hab
    cases hab
  · have happend : (Command.disconnect s.cancelled :: s.queue ++
        [Command.disconnect s.nextSweep]).Pairwise InOrder := by
      refine List.pairwise_append.mpr ⟨h.fifo, List.pairwise_singleton _ _, ?_⟩
      intro x _ y hy
      rw [List.mem_singleton.mp hy]
      cases x <;> trivial
    exact happend

/-- Serving a command leaves the order of the rest. -/
lemma serve (h : s.Ordered) {cmd : Command} {rest : List Command} (hqueue : s.queue = cmd :: rest)
    {m : Manager} {upBy : Option Nat}
    (hup : m.inner.state = .up → ∀ id ∈ upBy, s.cancelled ≤ id) :
    ({ s with queue := rest, manager := m, upBy := upBy } : App).Ordered := by
  have hmem : ∀ x ∈ rest, x ∈ s.queue := by
    intro x hx
    rw [hqueue]
    exact List.mem_cons_of_mem _ hx
  refine ⟨h.cancelled, fun n hn => h.pressed n (hmem _ hn), ?_, ?_, hup⟩
  · intro w hw hab n hn
    refine h.live w hw hab n ?_
    rcases List.mem_cons.mp hn with heq | hn
    · exact List.mem_cons.mpr (Or.inl heq)
    · exact List.mem_cons_of_mem _ (hmem _ hn)
  · have hfifo := h.fifo
    rw [hqueue] at hfifo
    exact hfifo.sublist ((List.sublist_cons_self _ _).cons_cons _)

/-- What is up after a connect was served began after the last Disconnect. -/
lemma up_of_answer (h : s.Ordered) {cmd : Command} {rest : List Command}
    (hqueue : s.queue = cmd :: rest) {id : Nat} (hid : ∀ n, InOrder (.disconnect n) cmd → n ≤ id)
    {admitted : Bool} {x : Reply × Manager} (hx : s.manager.Answer admitted x) :
    x.2.inner.state = .up → ∀ id' ∈ (s.answered id x).upBy, s.cancelled ≤ id' := by
  intro hup id' hid'
  cases hx with
  | refused e => exact h.up hup id' hid'
  | stopped m' hstate => exact absurd (hstate.symm.trans hup) nofun
  | failed e m' hstate => exact absurd (hstate.symm.trans hup) nofun
  | up st m' =>
      obtain rfl : id = id' := Option.some.inj hid'
      have hfifo := h.fifo
      rw [hqueue, List.pairwise_cons] at hfifo
      exact hid _ (hfifo.1 cmd List.mem_cons_self)

/-- A served Disconnect is the last one. -/
lemma disconnected (h : s.Ordered) {before : Nat} {rest : List Command}
    (hqueue : s.queue = .disconnect before :: rest) :
    ({ s with
      queue := rest
      manager := s.manager.disconnect.2
      cancelled := before } : App).Ordered := by
  have hmem : ∀ x ∈ Command.disconnect before :: rest, x ∈ s.queue := by
    rw [hqueue]
    exact fun x hx => hx
  refine ⟨h.pressed before (hmem _ List.mem_cons_self), ?_, ?_, ?_, ?_⟩
  · intro n hn
    exact h.pressed n (hmem _ (List.mem_cons_of_mem _ hn))
  · intro w hw hab n hn
    exact h.live w hw hab n (List.mem_cons_of_mem _ (hmem _ hn))
  · have hfifo := h.fifo
    rw [hqueue, List.pairwise_cons] at hfifo
    exact hfifo.2
  · intro hup
    exact TunnelState.noConfusion hup

lemma connectAnswered (h : s.Ordered) (id : Nat) (reply : Reply) :
    (s.connectAnswered id reply).Ordered := by
  rw [App.connectAnswered]
  split
  · exact h
  · rename_i w hw
    split
    · exact h.setAwait _ _ (by simp)
    · split
      · exact h.attempt (mem_of_find hw).1 _ _
      · exact h.settle _ _
    · exact h

lemma polled (h : s.Ordered) (status : TunnelStatus) : (s.polled status).Ordered := by
  rw [App.polled]
  split
  · exact h.setPhase _
  · exact h

lemma up_of_status (h : s.Ordered) (sa : Manager.StatusAnswers) :
    (s.manager.status sa).2.inner.state = .up → ∀ id ∈ s.upBy, s.cancelled ≤ id := by
  intro hup
  rcases (s.manager.state_status sa).2 with hsame | ⟨-, herror⟩
  · exact h.up (hsame.symm.trans hup)
  · exact absurd (herror.symm.trans hup) nofun

/-- **The order holds along every run** in which no cancelled multi-hop
connect goes on to its command. -/
lemma step {c : Checks} {s' : App} {action : Action} (h : s.Ordered) (hshape : s.Shape)
    (hguard : s.HopsInForce action) (hstep : App.step c s action = some s') : s'.Ordered := by
  cases moves_of_step hstep with
  | disconnect hphase => exact h.disconnect hshape
  | connect hphase => exact h.connect hshape
  | reconnect htimer =>
      refine connect ?_ ⟨hshape.bound, hshape.nodup, hshape.current, hshape.owned, hshape.single⟩
      exact ⟨h.cancelled, h.pressed, h.live, h.fifo, h.up⟩
  | autoConnect hphase =>
      refine connect ?_ ⟨hshape.bound, hshape.nodup, hshape.current, hshape.owned, hshape.single⟩
      exact ⟨h.cancelled, h.pressed, h.live, h.fifo, h.up⟩
  | changeSettings settings hphase => exact ⟨h.cancelled, h.pressed, h.live, h.fifo, h.up⟩
  | reschedule settings hphase =>
      obtain ⟨-, -, -, hsweeps, hnext, hqueue, hm, hcancelled, hup⟩ :=
        frame_scheduleReconnect { s with settings := settings }
      refine h.congr hcancelled hnext hqueue ?_ ⟨hm, hup⟩
      rw [hsweeps]
      exact fun w hw hab => ⟨w, hw, hab, rfl⟩
  | enrolled chain hw hawait => exact h.attempt hw _ _
  | hopsEnrolled hops hw hawait =>
      refine h.setAwait _ _ ?_
      intro cmd hcmd
      rw [List.mem_singleton.mp hcmd]
      exact ⟨nofun, fun n hn => h.live _ hw (hguard _ hw rfl) n hn⟩
  | enrollFailed hw hawait => exact h.settle _ _
  | probeCancelled up hw hawait haborted => exact h.settle _ _
  | probedUp hw hawait haborted => exact h.settle _ _
  | probedDead hw hawait haborted => exact h.attempt hw _ _
  | poll hphase =>
      refine h.enqueue ?_
      intro cmd hcmd
      rw [List.mem_singleton.mp hcmd]
      exact ⟨nofun, fun _ _ => trivial⟩
  | connectServed a sa hqueue =>
      rename_i id r rest
      have hanswer := Manager.answer_connect c a r s.manager
      exact (h.serve hqueue (h.up_of_answer hqueue (fun n hn => hn) hanswer)).connectAnswered _ _
  | multihopServed a sa hqueue phase hphase =>
      rename_i id r rest
      have hanswer := Manager.answer_connectMultihop c a r s.manager
      exact (h.serve hqueue (h.up_of_answer hqueue (fun n hn => hn) hanswer)).settle _ _
  | teardownServed a sa hqueue =>
      refine settle ?_ _ _
      exact h.serve hqueue fun hup => TunnelState.noConfusion hup
  | disconnectServed a sa hqueue => exact (h.disconnected hqueue).setPhase _
  | statusServed a sa hqueue =>
      refine polled ?_ _
      exact h.serve hqueue (h.up_of_status sa)
  | repair sa => exact ⟨h.cancelled, h.pressed, h.live, h.fifo, h.up_of_status sa⟩

end Ordered

/-! ### Whether the tunnel can be up at rest -/

/-- The tunnel can be up once the queue is served. -/
def mayBeUpAfter : List Command → Bool → Bool
  | [], up => up
  | .connect _ _ :: rest, _ => mayBeUpAfter rest true
  | .connectMultihop _ _ :: rest, _ => mayBeUpAfter rest true
  | .teardown _ :: rest, _ => mayBeUpAfter rest false
  | .disconnect _ :: rest, _ => mayBeUpAfter rest false
  | .status :: rest, up => mayBeUpAfter rest up

/-- A tunnel may be up when the queue has been served. -/
def mayBeUp (s : App) : Bool := mayBeUpAfter s.queue (s.manager.inner.state = .up)

lemma mayBeUpAfter_append (q q' : List Command) (up : Bool) :
    mayBeUpAfter (q ++ q') up = mayBeUpAfter q' (mayBeUpAfter q up) := by
  induction q generalizing up with
  | nil => rfl
  | cons cmd q ih => cases cmd <;> exact ih _

lemma mayBeUpAfter_mono {q : List Command} (h : mayBeUpAfter q true = false) (up : Bool) :
    mayBeUpAfter q up = false := by
  induction q generalizing up with
  | nil => cases h
  | cons cmd q ih =>
      cases cmd with
      | status => exact ih h up
      | connect id r => exact h
      | connectMultihop id r => exact h
      | teardown id => exact h
      | disconnect before => exact h

/-- Without a connect nothing comes up. -/
lemma mayBeUpAfter_of_unowned {q : List Command} (h : ∀ cmd ∈ q, cmd.owner = none) :
    mayBeUpAfter q false = false := by
  induction q with
  | nil => rfl
  | cons cmd q ih =>
      have hq := ih fun x hx => h x (List.mem_cons_of_mem _ hx)
      have hcmd := h cmd List.mem_cons_self
      cases cmd with
      | status => exact hq
      | disconnect before => exact hq
      | connect id r => cases hcmd
      | connectMultihop id r => cases hcmd
      | teardown id => cases hcmd

/-- With no current connect and none shown, nothing comes up; and what is
shown as connected did not stop at its first engage. -/
structure Level (s : App) : Prop where
  connecting : s.phase = .connecting → s.sweeps ≠ []
  timer : s.reconnectTimer = true → s.phase = .error
  cancelled : s.sweepRef = none → s.sweeps ≠ [] → s.mayBeUp = false
  idle : s.sweeps = [] → s.phase ≠ .connected → s.mayBeUp = false
  fresh : ∀ w, s.sweeps = [w] → w.aborted = false → w.await = .network ∨ w.await = .hops →
    s.mayBeUp = false
  shown : s.phase = .connected → s.manager.inner.state ≠ .connecting
  probing : ∀ w ∈ s.sweeps, w.aborted = false → w.await.isProbe = true →
    s.manager.inner.state ≠ .connecting

lemma timer_setPhase {s : App} (h : s.reconnectTimer = true → s.phase = .error) (phase : Phase) :
    (s.setPhase phase).reconnectTimer = true → phase = .error := by
  rw [setPhase]
  split
  · rename_i heq
    exact fun htimer => heq ▸ h htimer
  · cases phase with
    | error => exact fun _ => rfl
    | loading => exact fun htimer => by cases htimer
    | idle => exact fun htimer => by cases htimer
    | connecting => exact fun htimer => by cases htimer
    | connected => exact fun htimer => by cases htimer

/-- The sweep that a step resumes. -/
def resumes (s : App) : Action → Option Nat
  | .enrolled id _ => some id
  | .hopsEnrolled id _ => some id
  | .enrollFailed id => some id
  | .probed id _ => some id
  | .serve _ _ => s.queue.head?.bind Command.owner
  | _ => none

/-- A cancelled connect does not act while a newer one is in force. -/
def InForce (s : App) (action : Action) : Prop :=
  ∀ id ∈ s.resumes action, ∀ w ∈ s.sweeps, w.id = id → w.aborted = true → s.sweepRef = none

/-- No connect is refused while the tunnel is up. -/
def Admitted (s : App) (c : Checks) : Action → Prop
  | .serve _ _ =>
      match s.queue with
      | .connect _ r :: _ => (c.accept r).isOk = true ∨ s.manager.inner.state ≠ .up
      | .connectMultihop _ r :: _ =>
          (c.acceptMultihop r).isOk = true ∨ s.manager.inner.state ≠ .up
      | _ => True
  | _ => True

/-- Every other sweep is aborted. -/
def Lone (s : App) (id : Nat) : Prop := ∀ v ∈ s.sweeps, v.aborted = false → v.id = id

lemma Shape.lone {s : App} (h : s.Shape) {w : Sweep} (hw : w ∈ s.sweeps)
    (hforce : w.aborted = true → s.sweepRef = none) : s.Lone w.id := by
  intro v hv hab
  have hcurrent := h.current v hv hab
  rcases haborted : w.aborted with _ | _
  · exact Option.some.inj (hcurrent.symm.trans (h.current w hw haborted))
  · rw [hforce haborted] at hcurrent
    cases hcurrent

namespace Level

variable {s : App}

/-- A sweep comes to its end. -/
lemma settle (htimer : s.reconnectTimer = true → s.phase = .error) {id : Nat} {phase : Phase}
    (hphase : phase ≠ .connecting) (hlone : s.Lone id)
    (hcancelled : s.sweepRef = none → s.mayBeUp = false)
    (hidle : (∀ v ∈ s.sweeps, v.id = id) → phase ≠ .connected → s.mayBeUp = false)
    (hshown : phase = .connected → s.manager.inner.state ≠ .connecting) :
    (s.settle id phase).Level := by
  obtain ⟨hp, -, href, hsweeps, -, hqueue, hm, -⟩ := s.frame_settle id phase
  have hup : (s.settle id phase).mayBeUp = s.mayBeUp := by rw [mayBeUp, hqueue, hm, mayBeUp]
  have hgone : ∀ v ∈ (s.settle id phase).sweeps, v.aborted = false → False := by
    intro v hv hab
    rw [hsweeps] at hv
    obtain ⟨hv, hne⟩ := List.mem_filter.mp hv
    exact of_decide_eq_true hne (hlone v hv hab)
  refine ⟨?_, ?_, ?_, ?_, ?_, ?_, ?_⟩
  · rw [hp]
    exact fun heq => absurd heq hphase
  · rw [hp]
    exact timer_setPhase htimer phase
  · rw [href, hup]
    exact fun hnone _ => hcancelled hnone
  · rw [hsweeps, hp, hup]
    intro hnil
    refine hidle fun v hv => ?_
    have hfilter := List.filter_eq_nil_iff.mp hnil v hv
    simpa using hfilter
  · intro w hw hab
    exact (hgone w (by rw [hw]; exact List.mem_singleton_self w) hab).elim
  · rw [hp, hm]
    exact hshown
  · intro w hw hab
    exact (hgone w hw hab).elim

/-- A sweep goes on. -/
lemma setAwait (htimer : s.reconnectTimer = true → s.phase = .error) {w : Sweep}
    (hw : w ∈ s.sweeps) (hlone : s.Lone w.id) {await : Await} {commands : List Command}
    (hawait : await ≠ .network ∧ await ≠ .hops)
    (hcancelled : s.sweepRef = none →
      mayBeUpAfter (s.queue ++ commands) (s.manager.inner.state = .up) = false)
    (hshown : s.phase = .connected → s.manager.inner.state ≠ .connecting)
    (hprobing : await.isProbe = true → s.manager.inner.state ≠ .connecting) :
    (s.setAwait w.id await commands).Level := by
  have hne : (s.setAwait w.id await commands).sweeps ≠ [] := by
    intro hnil
    have hempty := List.map_eq_nil_iff.mp hnil
    rw [hempty] at hw
    cases hw
  have hset : ∀ v' ∈ (s.setAwait w.id await commands).sweeps, v'.aborted = false →
      v'.await = await := by
    intro v' hv' hab
    obtain ⟨v, hv, rfl⟩ := List.mem_map.mp hv'
    split at hab
    · rename_i hid
      rw [if_pos hid]
    · rename_i hid
      exact absurd (hlone v hv hab) hid
  refine ⟨fun _ => hne, htimer, fun hnone _ => hcancelled hnone, fun hnil => absurd hnil hne, ?_,
    hshown, ?_⟩
  · intro v hv hab hnew
    rw [hset v (by rw [hv]; exact List.mem_singleton_self v) hab] at hnew
    exact (hnew.elim hawait.1 hawait.2).elim
  · intro v hv hab hprobe
    rw [hset v hv hab] at hprobe
    exact hprobing hprobe

/-- The head of the loop of `establish`. -/
lemma attempt (htimer : s.reconnectTimer = true → s.phase = .error) {w : Sweep}
    (hw : w ∈ s.sweeps) (hcurrent : w.aborted = false → s.sweepRef = some w.id)
    (hforce : w.aborted = true → s.sweepRef = none) (hlone : s.Lone w.id)
    (hcancelled : s.sweepRef = none → s.mayBeUp = false)
    (hshown : s.phase = .connected → s.manager.inner.state ≠ .connecting) (i : Nat)
    (chain : List Attempt) : (s.attempt w i chain).Level := by
  rcases s.attempt_cases w i chain with heq | ⟨hab, heq⟩ | ⟨hab, a, heq⟩
  · rw [heq]
    refine setAwait htimer hw hlone ⟨nofun, nofun⟩ ?_ hshown nofun
    intro _
    rw [mayBeUpAfter_append]
    rfl
  · rw [heq]
    refine settle htimer nofun hlone hcancelled ?_ nofun
    exact fun _ _ => hcancelled (hforce hab)
  · rw [heq]
    refine setAwait htimer hw hlone ⟨nofun, nofun⟩ ?_ hshown nofun
    intro hnone
    rw [hcurrent hab] at hnone
    cases hnone

/-- A new connect: every other sweep is aborted. -/
lemma connect (h : s.Level) (hshape : s.Shape) (hphase : s.phase ≠ .connected) :
    s.connect.Level := by
  rw [App.connect]
  split
  · exact h
  · obtain ⟨hp, -, -, hsweeps, -, hqueue, hm, -⟩ := s.frame_setPhase .connecting
    have haborted := (hshape.setPhase .connecting).aborted
    have hup : mayBeUpAfter (s.setPhase .connecting).queue
        ((s.setPhase .connecting).manager.inner.state = .up) = s.mayBeUp := by
      rw [hqueue, hm, mayBeUp]
    refine ⟨fun _ => by simp, ?_, (fun hnone => by cases hnone), fun hnil => by simp at hnil,
      ?_, ?_, ?_⟩
    · intro htimer
      cases timer_setPhase h.timer .connecting htimer
    · intro w hw _ _
      have hnil : (s.setPhase .connecting).abortSweep.sweeps = [] := by
        have hlength := congrArg List.length hw
        rw [List.length_append, List.length_singleton, List.length_singleton] at hlength
        exact List.length_eq_zero_iff.mp (by omega)
      have hempty : s.sweeps = [] := hsweeps ▸ List.map_eq_nil_iff.mp hnil
      exact hup.trans (h.idle hempty hphase)
    · intro hshown
      cases hp.symm.trans hshown
    · intro w hw hab hprobe
      rcases List.mem_append.mp hw with hold | hnew
      · rw [haborted w hold] at hab
        cases hab
      · rw [List.mem_singleton.mp hnew] at hprobe
        dsimp only at hprobe
        split at hprobe <;> cases hprobe

lemma disconnect (h : s.Level) (hshape : s.Shape) : s.disconnect.Level := by
  have hdown : s.disconnect.mayBeUp = false := by
    rw [mayBeUp, App.disconnect, mayBeUpAfter_append]
    rfl
  refine ⟨?_, h.timer, fun _ _ => hdown, fun _ _ => hdown, fun _ _ _ _ => hdown, h.shown, ?_⟩
  · intro hconnecting hnil
    exact h.connecting hconnecting (List.map_eq_nil_iff.mp hnil)
  · intro w hw hab
    rw [hshape.aborted w hw] at hab
    cases hab

/-- What a poll leaves of the manager can only come down. -/
lemma polled_manager (h : s.Level) (queue : List Command) (sa : Manager.StatusAnswers)
    (hqueue : mayBeUpAfter queue (s.manager.inner.state = .up) = s.mayBeUp) :
    ({ s with queue := queue, manager := (s.manager.status sa).2 } : App).Level := by
  have hstate := (s.manager.state_status sa).2
  have hdown : s.mayBeUp = false →
      mayBeUpAfter queue ((s.manager.status sa).2.inner.state = .up) = false := by
    intro hfalse
    rcases hstate with hsame | ⟨hup, -⟩
    · rw [hsame, hqueue]
      exact hfalse
    · rw [hup] at hqueue
      exact mayBeUpAfter_mono (hqueue.trans hfalse) _
  have hne : s.manager.inner.state ≠ .connecting →
      (s.manager.status sa).2.inner.state ≠ .connecting := by
    intro hne
    rcases hstate with hsame | ⟨-, herror⟩
    · rw [hsame]
      exact hne
    · rw [herror]
      exact nofun
  exact ⟨h.connecting, h.timer, fun hnone hnil => hdown (h.cancelled hnone hnil),
    fun hnil hp => hdown (h.idle hnil hp), fun w hw hab hnew => hdown (h.fresh w hw hab hnew),
    fun hp => hne (h.shown hp), fun w hw hab hprobe => hne (h.probing w hw hab hprobe)⟩

/-- Nothing is shown as connected any more. -/
lemma setPhase (h : s.Level) {phase : Phase} (hphase : phase ≠ .connecting ∧ phase ≠ .connected)
    (hidle : s.sweeps = [] → s.mayBeUp = false) : (s.setPhase phase).Level := by
  obtain ⟨hp, -, href, hsweeps, -, hqueue, hm, -⟩ := s.frame_setPhase phase
  have hup : (s.setPhase phase).mayBeUp = s.mayBeUp := by rw [mayBeUp, hqueue, hm, mayBeUp]
  refine ⟨?_, ?_, ?_, ?_, ?_, ?_, ?_⟩
  · rw [hp]
    exact fun heq => absurd heq hphase.1
  · rw [hp]
    exact timer_setPhase h.timer phase
  · rw [href, hsweeps, hup]
    exact h.cancelled
  · rw [hsweeps, hup]
    exact fun hnil _ => hidle hnil
  · rw [hsweeps, hup]
    exact h.fresh
  · rw [hp]
    exact fun heq => absurd heq hphase.2
  · rw [hsweeps, hm]
    exact h.probing

/-- With no sweep left nothing that is queued is a connect. -/
lemma unowned (hshape : s.Shape) {cmd : Command} {rest : List Command}
    (hqueue : s.queue = cmd :: rest) (hsweeps : ∀ v ∈ s.sweeps, cmd.owner = some v.id) :
    ∀ x ∈ rest, x.owner = none := by
  intro x hx
  rcases howner : x.owner with _ | id
  · rfl
  · obtain ⟨v, hv, rfl, -⟩ := hshape.owned x (by rw [hqueue]; exact List.mem_cons_of_mem _ hx) id
      howner
    exact absurd howner
      ((hshape.serve hqueue s.manager s.cancelled s.upBy).2 v.id (hsweeps v hv) x hx)

section Served

variable {id : Nat} {rest : List Command} {admitted : Bool} {x : Reply × Manager}

lemma cancelled_served (h : s.Level) {w : Sweep} (hw : w ∈ s.sweeps)
    (hqueue : s.mayBeUp = mayBeUpAfter rest true) (hnone : s.sweepRef = none) (up : Bool) :
    mayBeUpAfter rest up = false := by
  refine mayBeUpAfter_mono ?_ up
  rw [← hqueue]
  refine h.cancelled hnone ?_
  intro hnil
  rw [hnil] at hw
  cases hw

/-- An error does not leave the tunnel up. -/
lemma state_of_error (hx : s.manager.Answer admitted x)
    (hadmitted : admitted = true ∨ s.manager.inner.state ≠ .up) {e : TunnelError}
    (he : x.1 = .error e) : x.2.inner.state ≠ .up := by
  cases hx with
  | refused e hrefused => exact hadmitted.resolve_left (by rw [hrefused]; exact nofun)
  | stopped m' hstate =>
      rw [hstate]
      exact nofun
  | failed e m' hstate =>
      rw [hstate]
      exact nofun
  | up st m' hstate => cases he

/-- Only an engage that fails leaves the state at `Connecting`. -/
lemma state_of_transport (hx : s.manager.Answer admitted x) {e : TunnelError}
    (he : x.1 = .error e) (htransport : isTransportLevelFailure e = true)
    (hstate : s.manager.inner.state ≠ .connecting) : x.2.inner.state ≠ .connecting := by
  cases hx with
  | refused e hrefused => exact hstate
  | stopped m' _ =>
      cases he
      exact absurd htransport (by decide +kernel)
  | failed e m' hstate' =>
      rw [hstate']
      exact nofun
  | up st m' hstate' => cases he

lemma state_of_ok (hx : s.manager.Answer admitted x) {st : TunnelStatus} (hst : x.1 = .ok st) :
    x.2.inner.state = .up := by
  cases hx with
  | refused e hrefused => cases hst
  | stopped m' hstate => cases hst
  | failed e m' hstate => cases hst
  | up st m' hstate => exact hstate

end Served

/-- A sweep takes up the answer to its `tunnel.connect`. -/
lemma connectServed (h : s.Level) (hshape : s.Shape) {id : Nat} {r : ConnectRequest}
    {rest : List Command} (hqueue : s.queue = .connect id r :: rest) {admitted : Bool}
    {x : Reply × Manager} (hx : s.manager.Answer admitted x)
    (hforce : ∀ w ∈ s.sweeps, w.id = id → w.aborted = true → s.sweepRef = none)
    (hadmitted : admitted = true ∨ s.manager.inner.state ≠ .up) :
    (({ s with queue := rest }.answered id x).connectAnswered id x.1).Level := by
  obtain ⟨w, hw, rfl, i, chain, hawait, hcases⟩ :=
    hshape.connectAnswered hqueue ({ s with queue := rest }.answered id x) rfl x.1
  have hlone := hshape.lone hw (hforce w hw rfl)
  have hcancelled : ∀ up, s.sweepRef = none → mayBeUpAfter rest up = false := by
    intro up hnone
    exact h.cancelled_served hw (by rw [mayBeUp, hqueue]; rfl) hnone up
  rcases hcases with ⟨st, hst, heq⟩ | ⟨e, he, htransport, heq⟩ | ⟨e, he, -, heq⟩
  · rw [heq]
    have hup : x.2.inner.state ≠ .connecting := by
      rw [state_of_ok hx hst]
      exact nofun
    refine setAwait (s := App.answered { s with queue := rest } w.id x) h.timer hw hlone
      ⟨nofun, nofun⟩ ?_ (fun _ => hup) (fun _ => hup)
    intro hnone
    rw [List.append_nil]
    exact hcancelled _ hnone
  · rw [heq]
    refine attempt (s := App.answered { s with queue := rest } w.id x) h.timer hw
      (hshape.current w hw) (hforce w hw rfl) hlone (hcancelled _) ?_ _ _
    intro hp
    exact state_of_transport hx he htransport (h.shown hp)
  · rw [heq]
    refine settle (s := App.answered { s with queue := rest } w.id x) h.timer nofun hlone
      (hcancelled _) ?_ nofun
    intro hall _
    have hstate := state_of_error hx hadmitted he
    have hrest := unowned hshape hqueue fun v hv => by rw [hall v hv]; rfl
    have hdown : decide (x.2.inner.state = .up) = false := decide_eq_false hstate
    exact (congrArg _ hdown).trans (mayBeUpAfter_of_unowned hrest)

lemma multihopServed (h : s.Level) (hshape : s.Shape) {id : Nat} {r : MultihopRequest}
    {rest : List Command} (hqueue : s.queue = .connectMultihop id r :: rest) {admitted : Bool}
    {x : Reply × Manager} (hx : s.manager.Answer admitted x)
    (hforce : ∀ w ∈ s.sweeps, w.id = id → w.aborted = true → s.sweepRef = none)
    (hadmitted : admitted = true ∨ s.manager.inner.state ≠ .up) {phase : Phase}
    (hphase : phase = match x.1 with
      | .ok _ => .connected
      | .error _ => .error) :
    (({ s with queue := rest }.answered id x).settle id phase).Level := by
  obtain ⟨w, hw, rfl, -⟩ := hshape.owned (.connectMultihop id r)
    (by rw [hqueue]; exact List.mem_cons_self) id rfl
  have hlone := hshape.lone hw (hforce w hw rfl)
  have hcancelled : ∀ up, s.sweepRef = none → mayBeUpAfter rest up = false := by
    intro up hnone
    exact h.cancelled_served hw (by rw [mayBeUp, hqueue]; rfl) hnone up
  rcases hreply : x.1 with e | st
  · rw [hreply] at hphase
    subst hphase
    refine settle (s := App.answered { s with queue := rest } w.id x) h.timer nofun hlone
      (hcancelled _) ?_ nofun
    intro hall _
    have hstate := state_of_error hx hadmitted hreply
    have hrest := unowned hshape hqueue fun v hv => by rw [hall v hv]; rfl
    have hdown : decide (x.2.inner.state = .up) = false := decide_eq_false hstate
    exact (congrArg _ hdown).trans (mayBeUpAfter_of_unowned hrest)
  · rw [hreply] at hphase
    subst hphase
    refine settle (s := App.answered { s with queue := rest } w.id x) h.timer nofun hlone
      (hcancelled _) (fun _ hne => absurd rfl hne) ?_
    intro _ hconnecting
    exact absurd ((state_of_ok hx hreply).symm.trans hconnecting) nofun

lemma teardownServed (h : s.Level) (hshape : s.Shape) {id : Nat} {rest : List Command}
    (hqueue : s.queue = .teardown id :: rest)
    (hforce : ∀ w ∈ s.sweeps, w.id = id → w.aborted = true → s.sweepRef = none) :
    ({ s with queue := rest, manager := s.manager.disconnect.2 }.settle id .error).Level := by
  obtain ⟨w, hw, rfl, -⟩ := hshape.owned (.teardown id)
    (by rw [hqueue]; exact List.mem_cons_self) id rfl
  have hlone := hshape.lone hw (hforce w hw rfl)
  have hup : s.mayBeUp = mayBeUpAfter rest false := by rw [mayBeUp, hqueue, mayBeUpAfter]
  refine settle (s := { s with queue := rest, manager := s.manager.disconnect.2 }) h.timer nofun
    hlone ?_ ?_ nofun
  · intro hnone
    refine hup.symm.trans (h.cancelled hnone ?_)
    intro hnil
    rw [hnil] at hw
    cases hw
  · intro hall _
    exact mayBeUpAfter_of_unowned (unowned hshape hqueue fun v hv => by rw [hall v hv]; rfl)

lemma disconnectServed (h : s.Level) (hshape : s.Shape) {before : Nat} {rest : List Command}
    (hqueue : s.queue = .disconnect before :: rest) :
    ({ s with
      queue := rest
      manager := s.manager.disconnect.2
      cancelled := before }.setPhase .idle).Level := by
  have hup : s.mayBeUp = mayBeUpAfter rest false := by rw [mayBeUp, hqueue, mayBeUpAfter]
  have hlevel : ({ s with
      queue := rest
      manager := s.manager.disconnect.2
      cancelled := before } : App).Level :=
    ⟨h.connecting, h.timer, fun hnone hne => hup.symm.trans (h.cancelled hnone hne),
      fun hnil hp => hup.symm.trans (h.idle hnil hp),
      fun w hw hab hnew => hup.symm.trans (h.fresh w hw hab hnew), fun _ => nofun,
      fun _ _ _ _ => nofun⟩
  refine hlevel.setPhase ⟨nofun, nofun⟩ ?_
  intro hnil
  have hempty : s.sweeps = [] := hnil
  refine mayBeUpAfter_of_unowned (unowned hshape hqueue ?_)
  intro v hv
  rw [hempty] at hv
  cases hv

lemma statusServed (h : s.Level) (hshape : s.Shape) {rest : List Command}
    (hqueue : s.queue = .status :: rest) (sa : Manager.StatusAnswers) :
    ({ s with queue := rest, manager := (s.manager.status sa).2 }.polled
      (s.manager.status sa).1).Level := by
  have hlevel := h.polled_manager rest sa (by rw [mayBeUp, hqueue, mayBeUpAfter])
  rw [App.polled]
  split
  · rename_i hdown
    refine hlevel.setPhase ⟨(fun hp => by cases hp), fun hp => by cases hp⟩ ?_
    intro hnil
    have hempty : s.sweeps = [] := hnil
    have hrest : ∀ x ∈ rest, x.owner = none := by
      refine unowned hshape hqueue fun v hv => ?_
      rw [hempty] at hv
      cases hv
    have hstate : (s.manager.status sa).2.inner.state ≠ .up := by
      rw [← (s.manager.state_status sa).1]
      intro hup
      rw [hup] at hdown
      rcases hdown with hdown | hdown <;> cases hdown
    exact (congrArg _ (decide_eq_false hstate)).trans (mayBeUpAfter_of_unowned hrest)
  · exact hlevel

/-- **The level holds along every run** in which no cancelled connect acts
against a newer one and no connect is refused while the tunnel is up. -/
lemma step {c : Checks} {s' : App} {action : Action} (h : s.Level) (hshape : s.Shape)
    (hhops : s.HopsInForce action) (hforce : s.InForce action) (hadmitted : s.Admitted c action)
    (hstep : App.step c s action = some s') : s'.Level := by
  have hcancelled : ∀ {w : Sweep}, w ∈ s.sweeps → s.sweepRef = none → s.mayBeUp = false := by
    intro w hw hnone
    refine h.cancelled hnone ?_
    intro hnil
    rw [hnil] at hw
    cases hw
  cases moves_of_step hstep with
  | disconnect hphase => exact h.disconnect hshape
  | connect hphase =>
      refine h.connect hshape ?_
      rcases hphase with hphase | hphase <;> rw [hphase] <;> exact nofun
  | reconnect htimer =>
      have hphase := h.timer htimer
      have hlevel : ({ s with reconnectTimer := false } : App).Level :=
        ⟨h.connecting, nofun, h.cancelled, h.idle, h.fresh, h.shown, h.probing⟩
      refine hlevel.connect
        ⟨hshape.bound, hshape.nodup, hshape.current, hshape.owned, hshape.single⟩ ?_
      intro hconnected
      exact absurd (hphase.symm.trans hconnected) nofun
  | autoConnect hphase =>
      have hlevel : ({ s with autoConnected := true } : App).Level :=
        ⟨h.connecting, h.timer, h.cancelled, h.idle, h.fresh, h.shown, h.probing⟩
      refine hlevel.connect
        ⟨hshape.bound, hshape.nodup, hshape.current, hshape.owned, hshape.single⟩ ?_
      intro hconnected
      exact absurd (hphase.symm.trans hconnected) nofun
  | changeSettings settings hphase =>
      exact ⟨h.connecting, h.timer, h.cancelled, h.idle, h.fresh, h.shown, h.probing⟩
  | reschedule settings hphase =>
      obtain ⟨hp, -, href, hsweeps, -, hqueue, hm, -⟩ :=
        frame_scheduleReconnect { s with settings := settings }
      have hup : ({ s with settings := settings } : App).scheduleReconnect.mayBeUp = s.mayBeUp := by
        rw [mayBeUp, hqueue, hm, mayBeUp]
      refine ⟨?_, ?_, ?_, ?_, ?_, ?_, ?_⟩
      · rw [hp, hsweeps]
        exact h.connecting
      · rw [hp]
        exact fun _ => hphase
      · rw [href, hsweeps, hup]
        exact h.cancelled
      · rw [hp, hsweeps, hup]
        exact h.idle
      · rw [hsweeps, hup]
        exact h.fresh
      · rw [hp, hm]
        exact h.shown
      · rw [hsweeps, hm]
        exact h.probing
  | enrolled chain hw hawait =>
      rename_i w
      have hab := hforce w.id rfl w hw rfl
      exact attempt h.timer hw (hshape.current w hw) hab (hshape.lone hw hab) (hcancelled hw)
        h.shown _ _
  | hopsEnrolled hops hw hawait =>
      rename_i w
      have hab := hforce w.id rfl w hw rfl
      refine setAwait h.timer hw (hshape.lone hw hab) ⟨nofun, nofun⟩ ?_ h.shown nofun
      intro hnone
      rw [hshape.current w hw (hhops w hw rfl)] at hnone
      cases hnone
  | enrollFailed hw hawait =>
      rename_i w
      have hab := hforce w.id rfl w hw rfl
      refine settle h.timer nofun (hshape.lone hw hab) (hcancelled hw) ?_ nofun
      intro hall _
      rcases haborted : w.aborted with _ | _
      · refine h.fresh w ?_ haborted hawait
        exact hshape.eq_singleton hw hall
      · exact hcancelled hw (hab haborted)
  | probeCancelled up hw hawait haborted =>
      rename_i w i chain
      have hab := hforce w.id rfl w hw rfl
      refine settle h.timer nofun (hshape.lone hw hab) (hcancelled hw) ?_ nofun
      exact fun _ _ => hcancelled hw (hab haborted)
  | probedUp hw hawait haborted =>
      rename_i w i chain
      have hab := hforce w.id rfl w hw rfl
      refine settle h.timer nofun (hshape.lone hw hab) (hcancelled hw)
        (fun _ hne => absurd rfl hne) ?_
      exact fun _ => h.probing w hw haborted (by rw [hawait]; rfl)
  | probedDead hw hawait haborted =>
      rename_i w i chain
      have hab := hforce w.id rfl w hw rfl
      exact attempt h.timer hw (hshape.current w hw) hab (hshape.lone hw hab) (hcancelled hw)
        h.shown _ _
  | poll hphase =>
      have hup : mayBeUpAfter (s.queue ++ [.status]) (s.manager.inner.state = .up) = s.mayBeUp := by
        rw [mayBeUpAfter_append, mayBeUp]
        rfl
      exact ⟨h.connecting, h.timer, fun hnone hne => hup.trans (h.cancelled hnone hne),
        fun hnil hp => hup.trans (h.idle hnil hp),
        fun w hw hab hnew => hup.trans (h.fresh w hw hab hnew), h.shown, h.probing⟩
  | connectServed a sa hqueue =>
      rename_i id r rest
      rw [Admitted, hqueue] at hadmitted
      refine h.connectServed hshape hqueue (Manager.answer_connect c a r s.manager) ?_ hadmitted
      exact hforce id (by rw [resumes, hqueue]; rfl)
  | multihopServed a sa hqueue phase hphase =>
      rename_i id r rest
      rw [Admitted, hqueue] at hadmitted
      refine h.multihopServed hshape hqueue (Manager.answer_connectMultihop c a r s.manager) ?_
        hadmitted hphase
      exact hforce id (by rw [resumes, hqueue]; rfl)
  | teardownServed a sa hqueue =>
      rename_i id rest
      exact h.teardownServed hshape hqueue (hforce id (by rw [resumes, hqueue]; rfl))
  | disconnectServed a sa hqueue => exact h.disconnectServed hshape hqueue
  | statusServed a sa hqueue => exact h.statusServed hshape hqueue sa
  | repair sa => exact h.polled_manager s.queue sa rfl

end Level

/-! ### Disconnect wins -/

/-- What has the tunnel up began after the last Disconnect that was served. -/
def DisconnectHolds (s : App) : Prop :=
  s.manager.inner.state = .up → ∀ id ∈ s.upBy, s.cancelled ≤ id

/-- Nothing is left to happen by itself: no connect is in flight, no command
or timer is due, and a poll would not change what is shown. -/
def Quiescent (s : App) : Prop :=
  s.sweeps = [] ∧ s.queue = [] ∧ s.reconnectTimer = false ∧
    (s.phase = .connected →
      s.manager.inner.state ≠ .down ∧ s.manager.inner.state ≠ .error)

/-- The app shows no tunnel: the orb is off and the button says Connect. -/
def ShowsDisconnected (s : App) : Prop := s.phase ≠ .connecting ∧ s.phase ≠ .connected

/-- At rest the app shows no tunnel exactly when there is none. -/
def ShowsManager (s : App) : Prop :=
  s.Quiescent → (s.ShowsDisconnected ↔ s.manager.inner.state ≠ .up)

instance (s : App) : Decidable s.DisconnectHolds :=
  inferInstanceAs (Decidable (_ → ∀ id ∈ s.upBy, _))

instance (s : App) : Decidable s.Quiescent := inferInstanceAs (Decidable (_ ∧ _ ∧ _ ∧ (_ → _)))

instance (s : App) : Decidable s.ShowsDisconnected := inferInstanceAs (Decidable (_ ∧ _))

instance (s : App) : Decidable s.ShowsManager :=
  inferInstanceAs (Decidable (_ → (_ ↔ _)))

/-- Every connect that acts is in force: a multi-hop connect goes on only
while it is not cancelled, a cancelled one does not act against a newer one,
and none is refused while the tunnel is up. -/
def ActsInForce (s : App) (c : Checks) (action : Action) : Prop :=
  s.HopsInForce action ∧ s.InForce action ∧ s.Admitted c action

instance (s : App) (action : Action) : Decidable (s.HopsInForce action) := by
  cases action with
  | hopsEnrolled id hops =>
      exact inferInstanceAs (Decidable (∀ w ∈ s.sweeps, w.id = id → w.aborted = false))
  | press => exact .isTrue trivial
  | reconnect => exact .isTrue trivial
  | autoConnect => exact .isTrue trivial
  | changeSettings settings => exact .isTrue trivial
  | enrolled id chain => exact .isTrue trivial
  | enrollFailed id => exact .isTrue trivial
  | probed id up => exact .isTrue trivial
  | poll => exact .isTrue trivial
  | serve a sa => exact .isTrue trivial
  | repair sa => exact .isTrue trivial

instance (s : App) (action : Action) : Decidable (s.InForce action) :=
  inferInstanceAs (Decidable (∀ id ∈ s.resumes action, ∀ w ∈ s.sweeps, _))

instance (c : Checks) (s : App) (action : Action) : Decidable (s.Admitted c action) := by
  rw [Admitted.eq_def]
  split
  · split <;> exact inferInstance
  · exact .isTrue trivial

instance (c : Checks) (s : App) (action : Action) : Decidable (s.ActsInForce c action) :=
  inferInstanceAs (Decidable (_ ∧ _ ∧ _))

lemma Level.showsManager {s : App} (h : s.Level) : s.ShowsManager := by
  rintro ⟨hsweeps, hqueue, -, hpoll⟩
  constructor
  · rintro ⟨-, hp⟩ hup
    have hdown := h.idle hsweeps hp
    rw [mayBeUp, hqueue, hup] at hdown
    cases hdown
  · intro hstate
    refine ⟨fun hp => h.connecting hp hsweeps, fun hp => ?_⟩
    have hconnecting := h.shown hp
    obtain ⟨hdown, herror⟩ := hpoll hp
    cases hcase : s.manager.inner.state with
    | down => exact hdown hcase
    | connecting => exact hconnecting hcase
    | up => exact hstate hcase
    | error => exact herror hcase

/-- The app at its start. -/
lemma boot_fields (m : Manager) (settings : Settings) :
    (boot m settings).sweeps = [] ∧ (boot m settings).queue = [] ∧
    (boot m settings).manager = m ∧ (boot m settings).cancelled = 0 ∧
    (boot m settings).upBy = none ∧
    ((boot m settings).reconnectTimer = true → (boot m settings).phase = .error) ∧
    (boot m settings).phase ≠ .connecting ∧
    ((boot m settings).phase = .connected ↔
      m.inner.state = .up ∨ m.inner.state = .connecting) := by
  rw [boot]
  cases hstate : m.inner.state with
  | down => exact ⟨rfl, rfl, rfl, rfl, rfl, nofun, nofun, nofun, fun h => h.elim nofun nofun⟩
  | connecting =>
      exact ⟨rfl, rfl, rfl, rfl, rfl, nofun, nofun, fun _ => Or.inr rfl, fun _ => rfl⟩
  | up => exact ⟨rfl, rfl, rfl, rfl, rfl, nofun, nofun, fun _ => Or.inl rfl, fun _ => rfl⟩
  | error =>
      exact ⟨rfl, rfl, rfl, rfl, rfl, fun _ => rfl, nofun, nofun, fun h => h.elim nofun nofun⟩

lemma shape_boot (m : Manager) (settings : Settings) : (boot m settings).Shape := by
  obtain ⟨hsweeps, hqueue, -⟩ := boot_fields m settings
  refine ⟨?_, ?_, ?_, ?_, ?_⟩
  · simp [hsweeps]
  · simp [hsweeps]
  · simp [hsweeps]
  · simp [hqueue]
  · simp [hqueue]

lemma ordered_boot (m : Manager) (settings : Settings) : (boot m settings).Ordered := by
  obtain ⟨hsweeps, hqueue, -, hcancelled, hup, -⟩ := boot_fields m settings
  refine ⟨?_, ?_, ?_, ?_, ?_⟩
  · simp [hcancelled]
  · simp [hqueue]
  · simp [hsweeps]
  · simp [hqueue]
  · simp [hup]

lemma level_boot {m : Manager} (settings : Settings) (hstate : m.inner.state ≠ .connecting) :
    (boot m settings).Level := by
  obtain ⟨hsweeps, hqueue, hm, -, -, htimer, hphase, hconnected⟩ := boot_fields m settings
  refine ⟨fun hp => absurd hp hphase, htimer, ?_, ?_, ?_, ?_, ?_⟩
  · simp [hsweeps]
  · intro _ hp
    rw [mayBeUp, hqueue, hm]
    exact decide_eq_false fun hup => hp (hconnected.mpr (Or.inl hup))
  · simp [hsweeps]
  · rw [hm]
    exact fun _ => hstate
  · simp [hsweeps]

/-- **Disconnect wins**: along every run in which no cancelled multi-hop
connect goes on, what has the tunnel up began after the last Disconnect that
was served; and when every connect that acts is in force, the app at rest
shows no tunnel exactly when there is none. -/
theorem disconnect_wins (c : Checks) {m : Manager} (settings : Settings) (as : List Action)
    {s : App} (hs : exec (step c) (boot m settings) as = some s) :
    (Along (step c) HopsInForce (boot m settings) as → s.DisconnectHolds) ∧
    (m.inner.state ≠ .connecting →
      Along (step c) (fun s action => s.ActsInForce c action) (boot m settings) as →
        s.DisconnectHolds ∧ s.ShowsManager) := by
  have hholds : Along (step c) HopsInForce (boot m settings) as → s.DisconnectHolds := by
    intro hguard
    refine (exec_invariant (I := fun s : App => s.Shape ∧ s.Ordered) ?_
      ⟨shape_boot m settings, ordered_boot m settings⟩ hguard hs).2.up
    intro s action s' h hhops hstep
    exact ⟨h.1.step hstep, h.2.step h.1 hhops hstep⟩
  refine ⟨hholds, fun hstate hguard => ⟨hholds (hguard.imp fun _ _ h => h.1), ?_⟩⟩
  refine Level.showsManager (exec_invariant (I := fun s : App => s.Shape ∧ s.Level) ?_
    ⟨shape_boot m settings, level_boot settings hstate⟩ hguard hs).2
  intro s action s' h hforce hstep
  exact ⟨h.1.step hstep, h.2.step h.1 hforce.1 hforce.2.1 hforce.2.2 hstep⟩

/-! ### A Disconnect that lands while the hops enroll -/

/-- The settings of somebody who takes two hops. -/
def multihopSettings : Settings where
  selected := true
  multihop := true
  killSwitch := true
  autoConnect := false

/-- Two hops that have been enrolled with. -/
def enrolledHops : Hops where
  entryCountry := "de"
  exitCountry := "us"
  outer := "[Interface]"
  inner := "[Interface]"
  entryEndpoint := "1.2.3.4:51820"
  exitEndpoint := "5.6.7.8:51820"
  innerMtu := 1340
  assignedIp := "10.8.0.2"
  split := none

/-- The user connects and disconnects, and then the hops are enrolled. -/
def cancelledRun : List Action :=
  [.press, .press, .serve Manager.everythingWorks Manager.quietPoll, .hopsEnrolled 0 enrolledHops,
    .serve Manager.everythingWorks Manager.quietPoll]

/-- The user connects, disconnects, and connects again. -/
def reconnectedRun : List Action :=
  [.press, .press, .serve Manager.everythingWorks Manager.quietPoll, .enrollFailed 0, .press,
    .hopsEnrolled 1 enrolledHops, .serve Manager.everythingWorks Manager.quietPoll]

/-- The app after these actions. -/
def runFrom (settings : Settings) (as : List Action) : App :=
  let s := boot (.new .macosPf) settings
  (exec (step Manager.lenientChecks) s as).getD s

/-- The second connect is up, and shown. -/
theorem disconnect_wins_reconnected :
    (runFrom multihopSettings reconnectedRun).manager.inner.state = .up ∧
      (runFrom multihopSettings reconnectedRun).cancelled = 1 ∧
      (runFrom multihopSettings reconnectedRun).DisconnectHolds ∧
      (runFrom multihopSettings reconnectedRun).ShowsManager := by
  refine ⟨by decide +kernel, by decide +kernel, ?_⟩
  exact (disconnect_wins (m := .new .macosPf) (s := runFrom multihopSettings reconnectedRun)
    Manager.lenientChecks multihopSettings reconnectedRun (by decide +kernel)).2 nofun
    (by decide +kernel)

/-- A cancelled multi-hop connect brings the tunnel up. -/
theorem not_disconnect_wins :
    ¬ ∀ (c : Checks) (m : Manager) (settings : Settings) (as : List Action) (s : App),
      m.inner.state ≠ .connecting → exec (step c) (boot m settings) as = some s →
      s.DisconnectHolds ∧ s.ShowsManager := by
  intro h
  have hholds := (h Manager.lenientChecks (.new .macosPf) multihopSettings cancelledRun
    (runFrom multihopSettings cancelledRun) nofun (by decide +kernel)).1
  exact absurd hholds (by decide +kernel)

end App

end CumulusVpn.Desktop
