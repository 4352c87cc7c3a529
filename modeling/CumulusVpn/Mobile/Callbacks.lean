/-
What the threads of the Android services do to the controller.

* `Call`, `Device.call`: a callback of a service;
* `runWorker_eq`, `deliver_eq`: a task and a message are what they do to their
  own service, and a callback;
* `Called`: what a callback changes.
-/
import CumulusVpn.Mobile.Serving

namespace CumulusVpn.Mobile.Android

namespace Service

@[simp] lemma other_other (k : Service) : k.other.other = k := by cases k <;> rfl

@[simp] lemma other_ne (k : Service) : k.other ≠ k := by cases k <;> nofun

@[simp] lemma ne_other (k : Service) : k ≠ k.other := by cases k <;> nofun

lemma eq_or_other (k j : Service) : j = k ∨ j = k.other := by
  cases k <;> cases j <;> simp [other]

end Service

/-- What a thread reports to the controller. -/
inductive Call
  | none
  | state (s : State)
  | held
deriving DecidableEq, Repr

/-- What a task reports. -/
def Host.reported (h : Host) (w : Worker) (o : Host.Outcome) : Task → Call
  | .report s => .state s
  | .hold =>
      if h.stopRequested w.inst then .none else if o = .ok then .held else .state .error
  | _ => .none

/-- What a message reports. -/
def Message.reported : Message → Call
  | .destroyed _ _ => .state .disconnected
  | _ => .none

namespace Device

variable {d d' : Device} {k j : Service} {w : Worker} {o : Host.Outcome} {task : Task}
  {rest : List Task} {m : Message} {ms : List Message} {s : State} {g : Host} {c : Call}

/-- The module is called back. -/
def call (d : Device) (k : Service) : Call → Device
  | .none => d
  | .state s => d.onState k s
  | .held => d.onHeld k

/-- The service is as `h`, with the interface and the failures. -/
def put (d : Device) (k : Service) (h : Host) (vpn : Option (Service × Nat)) (failed : List Nat) :
    Device :=
  { d with host := Function.update d.host k h, vpn := vpn, failed := failed }

/-- The interface without that of an instance. -/
def vpnWithout (d : Device) (k : Service) (i : Nat) : Option (Service × Nat) :=
  if d.vpn = some (k, i) then none else d.vpn

/-- The interface after a task. -/
def vpnAfter (d : Device) (k : Service) (w : Worker) (o : Host.Outcome) :
    Task → Option (Service × Nat)
  | .connect _ => if o = .refused then d.vpn else some (k, w.inst)
  | .hold =>
      if (d.host k).stopRequested w.inst then d.vpn
      else if o = .ok then some (k, w.inst)
      else d.vpnWithout k w.inst
  | .teardown => d.vpnWithout k w.inst
  | _ => d.vpn

/-- The interface after a message. -/
def vpnDelivered (d : Device) (k : Service) : Message → Option (Service × Nat)
  | .destroy i _ => d.vpnWithout k i
  | _ => d.vpn

/-- The failures after a task. -/
def failedAfter (d : Device) (k : Service) (w : Worker) (o : Host.Outcome) : Task → List Nat
  | .connect _ => if o = .ok then d.failed else w.cmd :: d.failed
  | .hold =>
      if (d.host k).stopRequested w.inst then d.failed
      else if o = .ok then d.failed
      else w.cmd :: d.failed
  | _ => d.failed

lemma setHost_setHost {f : Host} : (d.setHost k f).setHost k g = d.setHost k g := by
  rw [setHost, setHost, setHost, Function.update_idem]

/-- A service is set twice. -/
lemma put_setHost {f : Host} {v : Option (Service × Nat)} {l : List Nat} :
    (d.put k f v l).setHost k g = d.put k g v l := by
  rw [setHost, put, put, Function.update_idem]

lemma setHost_put {f : Host} {v : Option (Service × Nat)} {l : List Nat} :
    (d.setHost k f).put k g v l = d.put k g v l := by
  rw [setHost, put, put, Function.update_idem]

lemma put_host {v : Option (Service × Nat)} {l : List Nat} : (d.put k g v l).host k = g :=
  Function.update_self _ _ _

lemma stopDataPlane_eq (d : Device) (k : Service) (i : Nat) :
    d.stopDataPlane k i =
      d.put k ((d.host k).setSession i .down) (d.vpnWithout k i) d.failed := rfl

lemma setHost_retireOther :
    (d.retireOther k.other).setHost k g = (d.setHost k g).retireOther k.other := by
  rw [retireOther, retireOther]
  split
  · rename_i hr
    rw [if_pos (show (d.setHost k g).retiring = _ from hr)]
    simp only [startService, setHost, Function.update_of_ne k.other_ne]
    rw [Function.update_comm k.ne_other]
  · rename_i hr
    rw [if_neg (show ¬ (d.setHost k g).retiring = _ from hr)]

/-- The service is marked inactive by its last callback. -/
def mark (d : Device) (k : Service) (s : State) : Device :=
  { d with
    active :=
      if s = .disconnected ∨ s = .error then Function.update d.active k false else d.active
    held := false }

lemma onState_of_active (ha : d.active k = true) :
    d.onState k s =
      { if s = .connected then (d.mark k s).retireOther k.other else d.mark k s with
        currentState := s } := by
  rw [onState, if_pos ha]
  by_cases hs : s = .disconnected ∨ s = .error
  · simp only [mark, if_pos hs]
  · simp only [mark, if_neg hs]

lemma onState_of_inactive (ha : d.active k = false) : d.onState k s = d := by
  rw [onState, if_neg (by simp [ha])]

lemma onHeld_of_inactive (ha : d.active k = false) : d.onHeld k = d := by
  rw [onHeld, if_neg (by simp [ha])]

lemma setHost_onState : (d.onState k s).setHost k g = (d.setHost k g).onState k s := by
  by_cases ha : d.active k = true
  · rw [onState_of_active ha, onState_of_active (d := d.setHost k g) ha]
    split
    · have hcomm := setHost_retireOther (d := d.mark k s) (k := k) (g := g)
      exact congrArg (fun e : Device => { e with currentState := s }) hcomm
    · rfl
  · have ha' : d.active k = false := Bool.of_not_eq_true ha
    rw [onState_of_inactive ha', onState_of_inactive (d := d.setHost k g) ha']

lemma setHost_onHeld : (d.onHeld k).setHost k g = (d.setHost k g).onHeld k := by
  rw [onHeld, onHeld]
  split
  · rename_i ha
    rw [if_pos (show (d.setHost k g).active k = true from ha)]
    have hcomm := setHost_retireOther (d := { d with held := true }) (k := k) (g := g)
    exact congrArg (fun e : Device => { e with currentState := .error }) hcomm
  · rename_i ha
    rw [if_neg (show ¬ (d.setHost k g).active k = true from ha)]

/-- What a callback changes. -/
structure Called (d d' : Device) (k : Service) : Prop where
  vpn : d'.vpn = d.vpn
  commands : d'.commands = d.commands
  asked : d'.asked = d.asked
  lead : d'.lead = d.lead
  failed : d'.failed = d.failed
  self : d'.host k = d.host k
  active : d'.active k = true → d.active k = true
  activeOther : d'.active k.other = d.active k.other
  other : (d'.host k.other = d.host k.other ∧ d'.retiring = d.retiring) ∨
    (d.active k = true ∧ d.retiring = some k.other ∧ d'.retiring = none ∧
      d'.host k.other = (d.host k.other).startService .stop d.commands)

namespace Called

lemma refl (d : Device) (k : Service) : Called d d k :=
  ⟨rfl, rfl, rfl, rfl, rfl, rfl, fun ha => ha, rfl, Or.inl ⟨rfl, rfl⟩⟩

end Called

lemma called_retireOther (ha : d.active k = true) : Called d (d.retireOther k.other) k := by
  rw [retireOther]
  split
  · rename_i hr
    exact ⟨rfl, rfl, rfl, rfl, rfl, Function.update_of_ne k.ne_other _ _, fun ha => ha, rfl,
      Or.inr ⟨ha, hr, rfl, Function.update_self _ _ _⟩⟩
  · exact Called.refl d k

lemma called_onState (d : Device) (k : Service) (s : State) : Called d (d.onState k s) k := by
  by_cases ha : d.active k = true
  · rw [onState_of_active ha]
    have hmark : Called d (d.mark k s) k := by
      refine ⟨rfl, rfl, rfl, rfl, rfl, rfl, fun _ => ha, ?_, Or.inl ⟨rfl, rfl⟩⟩
      by_cases hs : s = .disconnected ∨ s = .error
      · simp [mark, hs]
      · simp [mark, hs]
    split
    · rename_i hs
      have hr := called_retireOther (d := d.mark k s) (k := k) (by rw [mark, hs]; exact ha)
      exact ⟨hr.vpn, hr.commands, hr.asked, hr.lead, hr.failed, hr.self, fun _ => ha,
        hr.activeOther.trans hmark.activeOther, hr.other.imp id fun h => ⟨ha, h.2⟩⟩
    · exact ⟨rfl, rfl, rfl, rfl, rfl, rfl, fun _ => ha, hmark.activeOther, Or.inl ⟨rfl, rfl⟩⟩
  · rw [onState_of_inactive (Bool.of_not_eq_true ha)]
    exact Called.refl d k

lemma called_onHeld (d : Device) (k : Service) : Called d (d.onHeld k) k := by
  rw [onHeld]
  split
  · rename_i ha
    have hr := called_retireOther (d := { d with held := true }) (k := k) ha
    exact ⟨hr.vpn, hr.commands, hr.asked, hr.lead, hr.failed, hr.self, fun _ => ha,
      hr.activeOther, hr.other⟩
  · exact Called.refl d k

lemma called_call (d : Device) (k : Service) (c : Call) : Called d (d.call k c) k := by
  cases c with
  | none => exact Called.refl d k
  | state s => exact called_onState d k s
  | held => exact called_onHeld d k

lemma call_of_inactive (ha : d.active k = false) : d.call k c = d := by
  cases c with
  | none => rfl
  | state s => exact onState_of_inactive ha
  | held => exact onHeld_of_inactive ha

lemma setHost_call : (d.call k c).setHost k g = (d.setHost k g).call k c := by
  cases c with
  | none => rfl
  | state s => exact setHost_onState
  | held => exact setHost_onHeld

/-- A task is what it does to its own service, and a callback. -/
lemma runTask_eq (d : Device) (k : Service) (w : Worker) (o : Host.Outcome) (task : Task) :
    d.runTask k w o task =
      (d.put k ((d.host k).ran w o task) (d.vpnAfter k w o task)
        (d.failedAfter k w o task)).call k ((d.host k).reported w o task) := by
  have hsame : d.put k (d.host k) d.vpn d.failed = d := by
    rw [put, Function.update_eq_self]
  cases task with
  | startRoute _ | check | caught _ => exact hsame.symm
  | report s => exact congrArg (fun e : Device => e.onState k s) hsame.symm
  | stopSelf id => rfl
  | teardown => rfl
  | connect r =>
      cases o with
      | ok => rfl
      | refused =>
          exact congrArg (fun e : Device => { e with failed := w.cmd :: d.failed }) hsame.symm
      | broken => rfl
  | hold =>
      by_cases hr : (d.host k).stopRequested w.inst = true
      · simp only [runTask, holdOrTeardown, if_pos hr, Host.ran, vpnAfter, failedAfter,
          Host.reported]
        exact hsame.symm
      · by_cases ho : o = .ok
        · simp only [runTask, holdOrTeardown, if_neg hr, if_pos ho, Host.ran, vpnAfter, failedAfter,
            Host.reported]
          rfl
        · simp only [runTask, holdOrTeardown, if_neg hr, if_neg ho, Host.ran, vpnAfter, failedAfter,
            Host.reported]
          rw [stopSelf, (called_onState _ k .error).self, setHost_onState]
          refine congrArg (fun e : Device => e.onState k .error) ?_
          have hdown : ((d.fail w).stopDataPlane k w.inst).host k =
              (d.host k).setSession w.inst .down := Function.update_self _ _ _
          rw [hdown, stopDataPlane_eq, put_setHost]
          rfl

/-- A task before its callback. -/
abbrev afterTask (d : Device) (k : Service) (w : Worker) (o : Host.Outcome) (task : Task)
    (rest : List Task) : Device :=
  d.put k ((d.host k).afterTask w o task rest) (d.vpnAfter k w o task) (d.failedAfter k w o task)

/-- A worker's step is its task, and the callback. -/
lemma runWorker_eq (d : Device) (k : Service) (w : Worker) (o : Host.Outcome) (task : Task)
    (rest : List Task) :
    d.runWorker k w o task rest =
      (d.afterTask k w o task rest).call k ((d.host k).reported w o task) := by
  have hself : (d.setHost k ((d.host k).leave w)).host k = (d.host k).leave w :=
    Function.update_self _ _ _
  have hvpn : (d.setHost k ((d.host k).leave w)).vpnAfter k w o task = d.vpnAfter k w o task := by
    cases task with
    | hold =>
        rw [vpnAfter, hself]
        rfl
    | startRoute _ | connect _ | check | caught _ | teardown | report _ | stopSelf _ => rfl
  have hfailed : (d.setHost k ((d.host k).leave w)).failedAfter k w o task =
      d.failedAfter k w o task := by
    cases task with
    | hold =>
        rw [failedAfter, hself]
        rfl
    | startRoute _ | connect _ | check | caught _ | teardown | report _ | stopSelf _ => rfl
  have hreported : ((d.host k).leave w).reported w o task = (d.host k).reported w o task := by
    cases task <;> rfl
  rw [runWorker, runTask_eq, (called_call _ k _).self, setHost_call, hself, hvpn, hfailed,
    hreported]
  refine congrArg (fun e : Device => e.call k ((d.host k).reported w o task)) ?_
  simp [setHost, put, Host.afterTask, Function.update_idem]

/-- A message is what it does to its own service, and a callback. -/
lemma deliver_eq (d : Device) (k : Service) (m : Message) (ms : List Message) :
    d.deliver k m ms =
      (d.put k ((d.host k).delivered m ms) (d.vpnDelivered k m) d.failed).call k m.reported := by
  have hself : ∀ g : Host, (d.setHost k g).host k = g := fun g => Function.update_self _ _ _
  cases m with
  | args i id n action =>
      simp only [deliver, hself, setHost_setHost]
      rfl
  | destroy i n =>
      simp only [deliver, stopDataPlane_eq, put_setHost, setHost_put, put_host, hself]
      rfl
  | destroyed i n => rfl

end Device

end CumulusVpn.Mobile.Android
