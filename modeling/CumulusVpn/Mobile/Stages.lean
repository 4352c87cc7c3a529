/-
The stages of the Android services, and the way of the newest command.

* `Gone`, `Left`, `Live`: a service that goes down, one that is replaced and not
  yet told, and one that serves a command;
* `Turn`: what a step of a thread does, whatever the stage;
* `Live.run`, `Live.deliver`: the command goes on or fails;
* `Steady`: the stages, and that what is asked is on its way;
* `Turn.steady`: a step of a thread keeps it.
-/
import CumulusVpn.Mobile.Sound

namespace CumulusVpn.Mobile.Android

/-- The phases of a command that has not failed. -/
def Host.Phase.of : Host.Phase → Action → Bool
  | .sent (.start _), .start _ => true
  | .doing (.startRoute _), .start _ | .doing (.connect _), .start _ => true
  | .doing .check, .start _ | .doing (.report .connected), .start _ => true
  | .sent .hold, .hold | .doing .hold, .hold => true
  | .rest, _ => true
  | _, _ => false

namespace Device

variable {d d' : Device} {k j : Service} {w : Worker} {o : Host.Outcome} {task : Task}
  {rest : List Task} {m : Message} {ms : List Message} {s : State} {g : Host} {c : Call}
  {v : Option (Service × Nat)} {l : List Nat} {n : Nat} {ph : Host.Phase} {a : Action}

/-! ### The stages of a service -/

/-- The tunnel of the START `n` is up. -/
def Carries (d : Device) (k : Service) (n : Nat) : Prop :=
  d.vpn = some (k, (d.host k).current) ∧ (d.host k).session (d.host k).current = .up n

/-- The service is on its way down. -/
def Gone (d : Device) (k : Service) : Prop := (d.host k).Ended (d.active k = true)

/-- The service is replaced, and not yet told. -/
structure Left (d : Device) (k : Service) : Prop where
  inactive : d.active k = false
  retiring : d.retiring = some k
  spent : (d.host k).Over
  closing : (d.host k).Closing True

/-- The service serves the command `n`. -/
structure Live (d : Device) (k : Service) (n : Nat) (ph : Host.Phase) : Prop where
  active : d.active k = true
  serving : (d.host k).Serving n ph
  spent : (d.host k.other).Over
  carries : ph = .doing .check ∨ ph = .doing (.report .connected) → d.Carries k n
  blamed : (∃ r, ph = .doing (.caught r)) → n ∈ d.failed
  alone : ph = .rest → d.Gone k.other

/-- How far a service has come. -/
def Stage (d : Device) (k : Service) : Prop := d.Gone k ∨ d.Left k ∨ ∃ n ph, d.Live k n ph

/-! ### A step of a thread -/

/-- What a step of a thread of the service does, whatever its stage. -/
structure Turn (d : Device) (k : Service) (h : Host) (v : Option (Service × Nat)) (l : List Nat)
    (c : Call) : Prop where
  sound : Sound (d.put k h v l)
  spent : (d.host k).Over → h.Over
  closing : ∀ p, (d.host k).Closing p → h.Closing p
  ended : ∀ b, (d.host k).Ended b → h.Ended (b ∧ c ≠ .state .disconnected)
  vpn : (d.host k).Over → ∀ i, d.vpn = some (k.other, i) → v = some (k.other, i)
  failed : ∀ n ∈ d.failed, n ∈ l
  blamed : c = .state .error → l ≠ []

lemma turn_run (hs : Sound d) (hw : w ∈ (d.host k).workers) (hmem : w.tasks = task :: rest) :
    Turn d k ((d.host k).afterTask w o task rest) (d.vpnAfter k w o task)
      (d.failedAfter k w o task) ((d.host k).reported w o task) := by
  refine ⟨hs.put_run hw hmem, fun ho => ?_, fun p hc => hc.run hw hmem,
    fun b he => (he.run hw hmem).mono fun hb => hb.1, fun ho i hi => ?_, fun n hn => ?_,
    fun hc => ?_⟩
  · rw [Host.over_iff] at ho ⊢
    exact ho.run hw hmem
  · rcases d.vpnAfter_cases k w o task rest with ⟨hv, -⟩ | ⟨hv, -, -⟩ | ⟨-, hpast, -⟩
    · rw [hv, hi]
    · rw [hv]
      exact vpnWithout_eq_some.mpr ⟨hi, fun heq => k.other_ne (congrArg Prod.fst heq)⟩
    · have := ho.2 w hw task (hmem ▸ List.mem_cons_self)
      rw [hpast] at this
      cases this
  · rcases d.failedAfter_cases k w o task with hf | hf <;> rw [hf]
    · exact hn
    · exact List.mem_cons_of_mem _ hn
  · have hne : (d.host k).Failing → d.failedAfter k w o task ≠ [] := by
      intro hf
      have hnil := hs.blamed k hf
      rcases d.failedAfter_cases k w o task with hf | hf <;> rw [hf]
      · exact hnil
      · exact List.cons_ne_nil _ _
    cases task with
    | report s =>
        cases hc
        exact hne ⟨w, hw, Or.inl (hmem ▸ List.mem_cons_self)⟩
    | hold =>
        rw [Host.reported] at hc
        rw [failedAfter]
        split at hc
        · cases hc
        · split at hc
          · cases hc
          · rename_i hr ho
            rw [if_neg hr, if_neg ho]
            exact List.cons_ne_nil _ _
    | startRoute _ | connect _ | check | caught _ | teardown | stopSelf _ => cases hc

lemma turn_deliver (hs : Sound d) (hmain : (d.host k).main = m :: ms) :
    Turn d k ((d.host k).delivered m ms) (d.vpnDelivered k m) d.failed m.reported := by
  refine ⟨hs.put_deliver hmain, fun ho => ?_, fun p hc => hc.deliver hmain,
    fun b he => (he.deliver hmain).mono ?_, fun _ i hi => ?_, fun n hn => hn, fun hc => ?_⟩
  · rw [Host.over_iff] at ho ⊢
    exact ho.deliver hmain
  · rintro ⟨hb, hc⟩
    refine ⟨hb, ?_⟩
    cases m with
    | destroyed i n => exact absurd rfl hc
    | args i id n action => rfl
    | destroy i n => rfl
  · cases m with
    | destroy i' n =>
        exact vpnWithout_eq_some.mpr ⟨hi, fun heq => k.other_ne (congrArg Prod.fst heq)⟩
    | args i' id n action => exact hi
    | destroyed i' n => exact hi
  · cases m <;> cases hc

lemma retireOther_active : (d.retireOther j).active = d.active := by
  rw [retireOther]
  split <;> rfl

/-- A callback of an active service leaves it active but for its last. -/
lemma onState_active (ha : d.active k = true) :
    (d.onState k s).active k = decide (s ≠ .disconnected ∧ s ≠ .error) := by
  have hsame : (d.onState k s).active k = (d.mark k s).active k := by
    rw [onState_of_active ha]
    split
    · exact congrFun retireOther_active k
    · rfl
  rw [hsame]
  by_cases hs : s = .disconnected ∨ s = .error
  · simp only [mark, if_pos hs, Function.update_self]
    simp only [Bool.false_eq, decide_eq_false_iff_not]
    tauto
  · simp only [mark, if_neg hs, ha]
    simpa [not_or] using hs

lemma onState_currentState (ha : d.active k = true) : (d.onState k s).currentState = s := by
  rw [onState_of_active ha]

lemma onHeld_active : (d.onHeld k).active = d.active := by
  rw [onHeld]
  split
  · exact retireOther_active
  · rfl

/-- A callback of an active service that leaves it inactive is its last. -/
lemma call_last (ha : d.active k = true) (hno : (d.call k c).active k = false) :
    ∃ s, (s = .disconnected ∨ s = .error) ∧ c = .state s ∧ (d.call k c).currentState = s := by
  cases c with
  | none => exact absurd ha (by simp [show d.active k = false from hno])
  | held =>
      have hsame : d.active k = false := (congrFun onHeld_active k).symm.trans hno
      exact absurd ha (by simp [hsame])
  | state s =>
      have hs : decide (s ≠ .disconnected ∧ s ≠ .error) = false :=
        (onState_active ha).symm.trans hno
      refine ⟨s, ?_, rfl, onState_currentState ha⟩
      by_contra hno
      rw [decide_eq_false_iff_not] at hs
      exact hs (not_or.mp hno)

lemma ne_disconnected_of_call (ha : (d.call k c).active k = true) : c ≠ .state .disconnected := by
  rintro rfl
  have hact : d.active k = true := (called_call d k _).active ha
  have := (onState_active (s := .disconnected) hact).symm.trans ha
  simp at this

namespace Turn

variable {h : Host}

lemma gone (ht : Turn d k h v l c) (hg : d.Gone k) : ((d.put k h v l).call k c).Gone k := by
  have hc := called_call (d.put k h v l) k c
  rw [Gone, hc.self, put_host]
  exact (ht.ended _ hg).mono fun ha => ⟨hc.active ha, ne_disconnected_of_call ha⟩

lemma left (ht : Turn d k h v l c) (hl : d.Left k) : ((d.put k h v l).call k c).Left k := by
  rw [call_of_inactive (d := d.put k h v l) hl.inactive]
  refine ⟨hl.inactive, hl.retiring, ?_, ?_⟩
  · rw [put_host]
    exact ht.spent hl.spent
  · rw [put_host]
    exact ht.closing _ hl.closing

lemma gone_other (ht : Turn d k h v l c) (hg : d.Gone k.other) :
    ((d.put k h v l).call k c).Gone k.other := by
  have hc := called_call (d.put k h v l) k c
  rw [Gone]
  rcases hc.other with ⟨hsame, -⟩ | ⟨-, -, -, hstop⟩
  · rw [hsame, hc.activeOther, put_host_other]
    exact hg
  · rw [hstop, put_host_other]
    exact Host.Ended.stop hg.closing (put_host_other (d := d) ▸ ht.sound.placed k.other)

lemma left_other (ht : Turn d k h v l c) (hl : d.Left k.other) :
    ((d.put k h v l).call k c).Left k.other ∨ ((d.put k h v l).call k c).Gone k.other := by
  have hc := called_call (d.put k h v l) k c
  rcases hc.other with ⟨hsame, hretiring⟩ | ⟨-, -, -, hstop⟩
  · refine Or.inl ⟨hc.activeOther.trans hl.inactive, hretiring.trans hl.retiring, ?_, ?_⟩
    · rw [hsame, put_host_other]
      exact hl.spent
    · rw [hsame, put_host_other]
      exact hl.closing
  · refine Or.inr ?_
    rw [Gone, hstop, put_host_other]
    exact Host.Ended.stop hl.closing (put_host_other (d := d) ▸ ht.sound.placed k.other)

lemma live_other (ht : Turn d k h v l c) (hs : Sound d) (hl : d.Live k.other n ph) :
    (d.put k h v l).call k c = d.put k h v l ∧ (d.put k h v l).Live k.other n ph := by
  have ha : d.active k = false := by
    by_contra hno
    have hk := hs.lead k (Bool.of_not_eq_false hno)
    exact k.other_ne ((hs.lead k.other hl.active).trans hk.symm)
  have hcall : (d.put k h v l).call k c = d.put k h v l := call_of_inactive (d := d.put k h v l) ha
  have hover : (d.host k).Over := by
    have := hl.spent
    rwa [Service.other_other] at this
  refine ⟨hcall, hl.active, ?_, ?_, fun hph => ?_, fun hph => ht.failed n (hl.blamed hph),
    fun hph => ?_⟩
  · rw [put_host_other]
    exact hl.serving
  · rw [Service.other_other, put_host]
    exact ht.spent hover
  · obtain ⟨hv, hup⟩ := hl.carries hph
    rw [Carries, put_host_other]
    exact ⟨ht.vpn hover _ hv, hup⟩
  · have hg := hl.alone hph
    rw [Service.other_other] at hg ⊢
    rw [← hcall]
    exact ht.gone hg

end Turn

/-! ### The course of a command -/

/-- What a command comes to. -/
def Came (d : Device) (k : Service) (n : Nat) : Action → Prop
  | .start _ => d.Carries k n ∧ d.currentState = .connected
  | .hold =>
      d.vpn = some (k, (d.host k).current) ∧
        (d.host k).session (d.host k).current = .blocking ∧ d.currentState = .error ∧
        d.held = true
  | .stop => False

/-- It rests on the service, the interface and what is reported. -/
lemma Came.of_same (hc : d.Came k n a) (hsession : (d'.host k).session = (d.host k).session)
    (hcurrent : (d'.host k).current = (d.host k).current)
    (hvpn : ∀ i, d.vpn = some (k, i) → d'.vpn = some (k, i))
    (hstate : d'.currentState = d.currentState) (hheld : d'.held = d.held) : d'.Came k n a := by
  cases a with
  | start r =>
      rw [Came, Carries, hsession, hcurrent, hstate]
      exact ⟨⟨hvpn _ hc.1.1, hc.1.2⟩, hc.2⟩
  | hold =>
      rw [Came, hsession, hcurrent, hstate, hheld]
      exact ⟨hvpn _ hc.1, hc.2⟩
  | stop => exact hc

/-- The command has not failed so far: it is on its way or has come through. -/
def Course (d : Device) (k : Service) (n : Nat) (action : Action) : Prop :=
  n ∈ d.failed ∨ ∃ ph, d.Live k n ph ∧ ph.of action = true ∧ (ph = .rest → d.Came k n action)

/-- A service that is up retires the other one. -/
lemma retires (ha : d.active k = true) (hr : d.retiring = some k.other)
    (hc : c = .state .connected ∨ c = .held) :
    (d.call k c).host k.other = (d.host k.other).startService .stop d.commands := by
  rcases hc with rfl | rfl
  · have hmark : (d.mark k .connected).retiring = some k.other := hr
    rw [call, onState_of_active ha, if_pos rfl, retireOther, if_pos hmark]
    exact Function.update_self _ _ _
  · rw [call, onHeld, if_pos ha, retireOther, if_pos hr]
    exact Function.update_self _ _ _

lemma call_active (ha : d.active k = true) (hc : c = .state .connected ∨ c = .held) :
    (d.call k c).active k = true := by
  rcases hc with rfl | rfl
  · exact onState_active ha
  · exact (congrFun onHeld_active k).trans ha

lemma onHeld_state (ha : d.active k = true) :
    (d.onHeld k).currentState = .error ∧ (d.onHeld k).held = true := by
  rw [onHeld, if_pos ha, retireOther]
  split <;> exact ⟨rfl, rfl⟩

/-- The command goes on: it fails, or it comes a phase further. -/
def Advances (d d' : Device) (k : Service) (n : Nat) (ph : Host.Phase) : Prop :=
  (d'.Gone k ∧ n ∈ d'.failed) ∨
    ∃ ph', d'.Live k n ph' ∧ ∀ action, ph.of action = true → (ph = .rest → d.Came k n action) →
      n ∈ d'.failed ∨ (ph'.of action = true ∧ (ph' = .rest → d'.Came k n action))

/-- A phase of a START, and not of a HOLD. -/
lemma advances_start {ph' : Host.Phase} (hl : d'.Live k n ph') (hhold : ph.of .hold = false)
    (hstop : ph.of .stop = false) (hof : ∀ r, ph'.of (.start r) = true)
    (hcame : ∀ r, ph' = .rest → d'.Came k n (.start r)) : Advances d d' k n ph := by
  refine Or.inr ⟨ph', hl, fun action ha _ => Or.inr ?_⟩
  cases action with
  | start r => exact ⟨hof r, hcame r⟩
  | hold =>
      rw [hhold] at ha
      cases ha
  | stop =>
      rw [hstop] at ha
      cases ha

namespace Live

/-- A service that goes on, with nothing to report. -/
lemma put {h : Host} {ph' : Host.Phase} (hl : d.Live k n ph) (hserving : h.Serving n ph')
    (hcarries : ph' = .doing .check ∨ ph' = .doing (.report .connected) →
      v = some (k, h.current) ∧ h.session h.current = .up n)
    (hblamed : (∃ r, ph' = .doing (.caught r)) → n ∈ l)
    (halone : ph' = .rest → d.Gone k.other) : (d.put k h v l).Live k n ph' := by
  refine ⟨hl.active, ?_, ?_, fun hph => ?_, hblamed, fun hph => ?_⟩
  · rw [put_host]
    exact hserving
  · rw [put_host_other]
    exact hl.spent
  · rw [Carries, put_host]
    exact hcarries hph
  · rw [Gone, put_host_other]
    exact halone hph

/-- The command has come through, and the other service is stopped. -/
lemma settle {h : Host} (hs : Sound d) (hl : d.Live k n ph) (hother : d.Stage k.other)
    (ht : Turn d k h v l c) (hc : c = .state .connected ∨ c = .held)
    (hserving : h.Serving n .rest) : ((d.put k h v l).call k c).Live k n .rest := by
  have hcalled := called_call (d.put k h v l) k c
  have hgone : ((d.put k h v l).call k c).Gone k.other := by
    rcases hother with hg | hleft | ⟨n', ph', hl'⟩
    · exact ht.gone_other hg
    · rw [Gone, retires (d := d.put k h v l) hl.active hleft.retiring hc, put_host_other]
      exact Host.Ended.stop hleft.closing (put_host_other (d := d) ▸ ht.sound.placed k.other)
    · exact absurd ((hs.lead _ hl'.active).trans (hs.lead _ hl.active).symm) k.other_ne
  refine ⟨call_active hl.active hc, ?_, ?_, by simp, by simp, fun _ => hgone⟩
  · rw [hcalled.self, put_host]
    exact hserving
  · rcases hcalled.other with ⟨hsame, -⟩ | ⟨-, -, -, hstop⟩
    · rw [hsame, put_host_other]
      exact hl.spent
    · rw [hstop, put_host_other, Host.over_iff]
      exact (Host.over_iff.mp hl.spent).startService fun hno => hno rfl

section Tasks

/-- The current instance stays the current one. -/
lemma current_afterTask (d : Device) (k : Service) (w : Worker) (o : Host.Outcome) (task : Task) :
    ((d.host k).afterTask w o task []).current = (d.host k).current :=
  ((d.host k).afterTask_frame w o task []).2.1

lemma advances_startRoute {r : Bool} (hl : d.Live k n (.doing (.startRoute r))) :
    Advances d (d.runWorker k ((d.host k).worker n (.startRoute r)) o (.startRoute r) []) k n
      (.doing (.startRoute r)) := by
  have hserving := hl.serving.goes (o := o) rfl rfl (Host.resume_running.trans hl.serving.running)
  rw [runWorker_eq]
  exact advances_start (hl.put hserving (by simp) (by simp) nofun) rfl rfl (fun _ => rfl) nofun

lemma advances_connect {r : Bool} (hl : d.Live k n (.doing (.connect r))) :
    Advances d (d.runWorker k ((d.host k).worker n (.connect r)) o (.connect r) []) k n
      (.doing (.connect r)) := by
  have hrunning : ((d.host k).afterTask ((d.host k).worker n (.connect r)) o (.connect r)
      []).running = true := by
    rw [Host.afterTask, Host.resume_running]
    cases o <;> exact hl.serving.running
  rw [runWorker_eq]
  by_cases ho : o = .ok
  · subst ho
    refine advances_start (hl.put (hl.serving.goes rfl rfl hrunning) (fun _ => ?_) (by simp)
      (by simp)) rfl rfl (fun _ => rfl) (by simp)
    rw [current_afterTask, Host.afterTask, Host.resume_session]
    exact ⟨rfl, Host.setSession_self _⟩
  · have hfailed : n ∈ d.failedAfter k ((d.host k).worker n (.connect r)) o (.connect r) := by
      rw [failedAfter, if_neg ho]
      exact List.mem_cons_self
    exact Or.inr ⟨.doing (.caught r),
      hl.put (hl.serving.goes (if_neg ho) rfl hrunning) (by simp) (fun _ => hfailed) (by simp),
      fun _ _ _ => Or.inl hfailed⟩

lemma advances_check (hl : d.Live k n (.doing .check)) :
    Advances d (d.runWorker k ((d.host k).worker n .check) o .check []) k n (.doing .check) := by
  have hreq : ¬ ((d.host k).stopRequested (d.host k).current = true) := by
    simp [hl.serving.requested nofun]
  have hserving := hl.serving.goes (o := o) (if_neg hreq) rfl
    (Host.resume_running.trans hl.serving.running)
  rw [runWorker_eq]
  refine advances_start (hl.put hserving (fun _ => ?_) (by simp) nofun) rfl rfl (fun _ => rfl) nofun
  rw [current_afterTask, Host.afterTask, Host.resume_session]
  exact hl.carries (Or.inl rfl)

lemma advances_report (hs : Sound d) (hl : d.Live k n (.doing (.report .connected)))
    (hother : d.Stage k.other)
    (hmem : (d.host k).worker n (.report .connected) ∈ (d.host k).workers) :
    Advances d (d.runWorker k ((d.host k).worker n (.report .connected)) o (.report .connected) [])
      k n (.doing (.report .connected)) := by
  have hserving := hl.serving.done (o := o) rfl (Host.resume_running.trans hl.serving.running)
  obtain ⟨hv, hup⟩ := hl.carries (Or.inr rfl)
  have hturn := turn_run (o := o) hs hmem rfl
  have hcalled := called_call (d.afterTask k ((d.host k).worker n (.report .connected)) o
    (.report .connected) []) k
    ((d.host k).reported ((d.host k).worker n (.report .connected)) o (.report .connected))
  rw [runWorker_eq]
  refine advances_start (hl.settle hs hother hturn (Or.inl rfl) hserving) rfl rfl (fun _ => rfl)
    fun _ _ => ⟨⟨?_, ?_⟩, onState_currentState hl.active⟩
  · rw [hcalled.vpn, hcalled.self, put_host, current_afterTask]
    exact hv
  · rw [hcalled.self, put_host, current_afterTask, Host.afterTask, Host.resume_session]
    exact hup

lemma advances_caught {r : Bool} (hl : d.Live k n (.doing (.caught r))) :
    Advances d (d.runWorker k ((d.host k).worker n (.caught r)) o (.caught r) []) k n
      (.doing (.caught r)) := by
  rw [runWorker_eq]
  have hfailed : n ∈ d.failed := hl.blamed ⟨r, rfl⟩
  cases r with
  | true =>
      have hnext : (d.host k).next ((d.host k).worker n (.caught true)) o (.caught true) =
          [.hold] := if_pos ⟨rfl, hl.serving.requested nofun⟩
      exact Or.inr ⟨.doing .hold, hl.put (hl.serving.goes hnext rfl
        (Host.resume_running.trans hl.serving.running)) (by simp) (by simp) nofun,
        fun _ _ _ => Or.inl hfailed⟩
  | false =>
      refine Or.inl ⟨?_, hfailed⟩
      rw [Gone, (called_call _ k _).self, put_host]
      exact hl.serving.fails

lemma advances_hold (hs : Sound d) (hl : d.Live k n (.doing .hold)) (hother : d.Stage k.other)
    (hmem : (d.host k).worker n .hold ∈ (d.host k).workers) :
    Advances d (d.runWorker k ((d.host k).worker n .hold) o .hold []) k n (.doing .hold) := by
  have hreq : ¬ ((d.host k).stopRequested (d.host k).current = true) := by
    simp [hl.serving.requested nofun]
  have hturn := turn_run (o := o) hs hmem rfl
  have hcalled := called_call (d.afterTask k ((d.host k).worker n .hold) o .hold []) k
    ((d.host k).reported ((d.host k).worker n .hold) o .hold)
  rw [runWorker_eq]
  by_cases ho : o = .ok
  · subst ho
    have hran : ((d.host k).leave ((d.host k).worker n .hold)).ran ((d.host k).worker n .hold) .ok
        .hold = ((d.host k).leave ((d.host k).worker n .hold)).setSession (d.host k).current
          .blocking := (if_neg hreq).trans (if_pos rfl)
    have hserving := hl.serving.done (o := .ok) rfl (by
      rw [Host.afterTask, Host.resume_running, hran]
      exact hl.serving.running)
    have hreported : (d.host k).reported ((d.host k).worker n .hold) .ok .hold = .held :=
      (if_neg hreq).trans (if_pos rfl)
    refine Or.inr ⟨.rest, hl.settle hs hother hturn (Or.inr hreported) hserving,
      fun action hof _ => Or.inr ⟨rfl, fun _ => ?_⟩⟩
    cases action with
    | start r => cases hof
    | stop => cases hof
    | hold =>
        refine ⟨?_, ?_, ?_⟩
        · rw [hcalled.vpn, hcalled.self, put_host, current_afterTask]
          exact (if_neg hreq).trans (if_pos rfl)
        · rw [hcalled.self, put_host, current_afterTask, Host.afterTask, Host.resume_session, hran]
          exact Host.setSession_self _
        · rw [hreported]
          exact onHeld_state hl.active
  · refine Or.inl ⟨?_, ?_⟩
    · rw [Gone, hcalled.self, put_host]
      exact hl.serving.hold_fails ho
    · have hfailed : n ∈ d.failedAfter k ((d.host k).worker n .hold) o .hold := by
        rw [failedAfter, if_neg hreq, if_neg ho]
        exact List.mem_cons_self
      rw [hcalled.failed]
      exact hfailed

end Tasks

/-- A task of any worker, while the service is active. -/
lemma run (hs : Sound d) (hl : d.Live k n ph) (hother : d.Stage k.other)
    (hw : w ∈ (d.host k).workers) (hmem : w.tasks = task :: rest) :
    Advances d (d.runWorker k w o task rest) k n ph := by
  rcases hl.serving.run_cases hw hmem with hidle | ⟨rfl, hserves, rfl, rfl⟩
  · obtain ⟨id, hid⟩ := Host.idle_cases hidle
    rw [hmem] at hid
    obtain ⟨rfl, rfl⟩ := List.cons.inj hid
    obtain ⟨hsame, hserving⟩ := hl.serving.run_idle (o := o) hw hmem hidle
    have hnone : (d.host k).reported w o (.stopSelf (some id)) = .none := rfl
    rw [runWorker_eq, afterTask, hsame, hnone, call]
    refine Or.inr ⟨ph, hl.put hserving hl.carries hl.blamed hl.alone, fun action hof hcame =>
      Or.inr ⟨hof, fun hph => (hcame hph).of_same ?_ ?_ (fun _ hv => hv) rfl rfl⟩⟩
    · rw [put_host]
      rfl
    · rw [put_host]
      rfl
  · cases task with
    | startRoute r => exact hl.advances_startRoute
    | connect r => exact hl.advances_connect
    | check => exact hl.advances_check
    | caught r => exact hl.advances_caught
    | hold => exact hl.advances_hold hs hother hw
    | report s =>
        cases s with
        | connected => exact hl.advances_report hs hother hw
        | disconnected | connecting | disconnecting | error => cases hserves
    | teardown => cases hserves
    | stopSelf id => cases hserves

/-- The intent of the command is delivered. -/
lemma deliver (hl : d.Live k n ph) (hmain : (d.host k).main = m :: ms) :
    Advances d (d.deliver k m ms) k n ph := by
  rw [deliver_eq]
  rcases hl.serving.deliver hmain with ⟨r, rfl, rfl, hserving⟩ | ⟨rfl, rfl, hserving⟩
  · exact advances_start (hl.put hserving (by simp) (by simp) nofun) rfl rfl (fun _ => rfl) nofun
  · refine Or.inr ⟨.doing .hold, hl.put hserving (by simp) (by simp) nofun, fun action hof _ =>
      Or.inr ⟨?_, nofun⟩⟩
    cases action with
    | start r => cases hof
    | hold => rfl
    | stop => cases hof

end Live

/-! ### The newest command -/

/-- What is asked is on its way. -/
def Obeys (d : Device) : Prop :=
  match d.asked with
  | .start k n => d.Course k n (.start false)
  | .hold k n => d.Course k n .hold
  | .stop =>
      (∀ k, d.Gone k) ∧ ((∀ k, d.active k = false) →
        d.currentState = .disconnected ∨ (d.currentState = .error ∧ d.failed ≠ []))

/-- What holds in every state of a run whose commands wait their turn. -/
structure Steady (d : Device) : Prop where
  sound : Sound d
  stage : ∀ k, d.Stage k
  obeys : d.Obeys

/-- The command goes on in its own course. -/
lemma Course.advances (hc : d.Course k n a) (hfailed : ∀ m ∈ d.failed, m ∈ d'.failed)
    (hadvance : ∀ ph, d.Live k n ph → Advances d d' k n ph) : d'.Course k n a := by
  rcases hc with hf | ⟨ph, hl, hof, hcame⟩
  · exact Or.inl (hfailed n hf)
  · rcases hadvance ph hl with ⟨-, hf⟩ | ⟨ph', hl', hnext⟩
    · exact Or.inl hf
    · exact (hnext a hof hcame).imp id fun hn => ⟨ph', hl', hn.1, hn.2⟩

namespace Turn

variable {h : Host}

/-- A step of a thread of one service, with what becomes of the command there. -/
lemma steady (ht : Turn d k h v l c) (hi : Steady d)
    (hadvance : ∀ n ph, d.Live k n ph → Advances d ((d.put k h v l).call k c) k n ph) :
    Steady ((d.put k h v l).call k c) := by
  have hcalled := called_call (d.put k h v l) k c
  have hfailed : ∀ n ∈ d.failed, n ∈ ((d.put k h v l).call k c).failed := by
    intro n hn
    rw [hcalled.failed]
    exact ht.failed n hn
  -- the other service sees nothing of it
  have hother : ∀ n ph, d.Live k.other n ph →
      Advances d ((d.put k h v l).call k c) k.other n ph := by
    intro n ph hl
    obtain ⟨hcall, hl'⟩ := ht.live_other hi.sound hl
    have hover := hl.spent
    rw [Service.other_other] at hover
    rw [hcall]
    refine Or.inr ⟨ph, hl', fun action hof hcame => Or.inr ⟨hof, fun hph =>
      (hcame hph).of_same ?_ ?_ (fun i hi => ht.vpn hover i hi) rfl rfl⟩⟩
    · rw [put_host_other]
    · rw [put_host_other]
  refine ⟨ht.sound.called hcalled, fun j => ?_, ?_⟩
  · rcases k.eq_or_other j with rfl | rfl
    · rcases hi.stage j with hg | hleft | ⟨n, ph, hl⟩
      · exact Or.inl (ht.gone hg)
      · exact Or.inr (Or.inl (ht.left hleft))
      · rcases hadvance n ph hl with ⟨hg, -⟩ | ⟨ph', hl', -⟩
        · exact Or.inl hg
        · exact Or.inr (Or.inr ⟨n, ph', hl'⟩)
    · rcases hi.stage k.other with hg | hleft | ⟨n, ph, hl⟩
      · exact Or.inl (ht.gone_other hg)
      · rcases ht.left_other hleft with hleft | hg
        · exact Or.inr (Or.inl hleft)
        · exact Or.inl hg
      · rcases hother n ph hl with ⟨hg, -⟩ | ⟨ph', hl', -⟩
        · exact Or.inl hg
        · exact Or.inr (Or.inr ⟨n, ph', hl'⟩)
  · have hobeys := hi.obeys
    have hasked : ((d.put k h v l).call k c).asked = d.asked := hcalled.asked
    have hboth : ∀ j n ph, d.Live j n ph → Advances d ((d.put k h v l).call k c) j n ph := by
      intro j
      rcases k.eq_or_other j with rfl | rfl
      · exact hadvance
      · exact hother
    rw [Obeys] at hobeys ⊢
    rw [hasked]
    split at hobeys
    · exact hobeys.advances hfailed (hboth _ _)
    · exact hobeys.advances hfailed (hboth _ _)
    · refine ⟨fun j => ?_, fun hno => ?_⟩
      · rcases k.eq_or_other j with rfl | rfl
        · exact ht.gone (hobeys.1 j)
        · exact ht.gone_other (hobeys.1 k.other)
      · by_cases ha : d.active k = true
        · obtain ⟨s, hs, hc, hstate⟩ := call_last (d := d.put k h v l) ha (hno k)
          rw [hstate, hcalled.failed]
          exact hs.imp id fun hs => ⟨hs, ht.blamed (hs ▸ hc)⟩
        · have ha' : d.active k = false := Bool.of_not_eq_true ha
          have hidle : ∀ j, d.active j = false := by
            intro j
            rcases k.eq_or_other j with rfl | rfl
            · exact ha'
            · exact hcalled.activeOther.symm.trans (hno k.other)
          rw [call_of_inactive (d := d.put k h v l) ha']
          refine (hobeys.2 hidle).imp id fun hstate => ⟨hstate.1, ?_⟩
          obtain ⟨m, hm⟩ := List.exists_mem_of_ne_nil _ hstate.2
          exact List.ne_nil_of_mem (ht.failed m hm)

end Turn

end Device

end CumulusVpn.Mobile.Android
