/-
What holds of the Android controller and its services whatever is asked.

* `vpnAfter_cases`: the interface after a task;
* `Device.Sound`: the instances, start ids and numbers of both services, and
  that the interface in force is that of a session;
* `Sound.put_run`, `Sound.put_deliver`, `Sound.startService`, `Sound.called`: the
  steps keep it.
-/
import CumulusVpn.Mobile.Callbacks

namespace CumulusVpn.Mobile.Android

namespace Host

variable {h : Host} {w v : Worker} {o : Outcome} {task : Task} {rest : List Task}
  {m : Message} {ms : List Message} {n : Nat} {action : Action}

/-- A worker reports a failure, or has one. -/
def Failing (h : Host) : Prop :=
  ∃ w ∈ h.workers, .report .error ∈ w.tasks ∨ ∃ r, .caught r ∈ w.tasks

/-- A task leads to a failure when it has failed. -/
lemma Failing.of_run (hf : (h.afterTask w o task rest).Failing) (hw : w ∈ h.workers)
    (hmem : w.tasks = task :: rest) : h.Failing ∨ ((∃ r, task = .connect r) ∧ o ≠ .ok) := by
  obtain ⟨v, hv, hf⟩ := hf
  rcases mem_afterTask.mp hv with hv | ⟨-, rfl⟩
  · exact Or.inl ⟨v, List.mem_of_mem_erase hv, hf⟩
  · by_cases hrest : .report .error ∈ rest ∨ ∃ r, .caught r ∈ rest
    · exact Or.inl ⟨w, hw, hmem ▸ hrest.imp (List.mem_cons_of_mem _) fun ⟨r, hr⟩ =>
        ⟨r, List.mem_cons_of_mem _ hr⟩⟩
    · have hnext : .report .error ∈ h.next w o task ∨ ∃ r, .caught r ∈ h.next w o task := by
        rcases hf with hf | ⟨r, hf⟩ <;> rcases List.mem_append.mp hf with hf | hf
        · exact Or.inl hf
        · exact absurd (Or.inl hf) hrest
        · exact Or.inr ⟨r, hf⟩
        · exact absurd (Or.inr ⟨r, hf⟩) hrest
      cases task with
      | caught r => exact Or.inl ⟨w, hw, Or.inr ⟨r, hmem ▸ List.mem_cons_self⟩⟩
      | connect r =>
          refine Or.inr ⟨⟨r, rfl⟩, fun ho => ?_⟩
          rw [next, if_pos ho] at hnext
          simp at hnext
      | check =>
          rw [next] at hnext
          split at hnext <;> simp at hnext
      | startRoute _ | hold | teardown | report _ | stopSelf _ => simp [next] at hnext

lemma Failing.of_deliver (hf : (h.delivered m ms).Failing) : h.Failing := by
  obtain ⟨v, hv, hf⟩ := hf
  cases m with
  | args i id n action =>
      rcases Closing.mem_onStartCommand hv with hv | ⟨-, -, htasks⟩
      · exact ⟨v, hv, hf⟩
      · rw [htasks] at hf
        cases action <;> simp at hf
  | destroy i n => exact ⟨v, hv, hf⟩
  | destroyed i n => exact ⟨v, hv, hf⟩

@[simp] lemma startService_workers : (h.startService action n).workers = h.workers := by
  rw [startService]
  split <;> rfl

@[simp] lemma startService_newest : (h.startService action n).newest = h.newest := by
  rw [startService]
  split <;> rfl

/-- What is up stays up under an intent. -/
lemma startService_session (hp : Placed h) {i : Nat} (hup : h.session i ≠ .down) :
    (h.startService action n).session i = h.session i := by
  rw [startService]
  split
  · rfl
  · refine Function.update_of_ne ?_ _ _
    rintro rfl
    exact hup (hp.beyond _ (Nat.lt_succ_self _))

end Host

namespace Device

variable {d d' : Device} {k j : Service} {w : Worker} {o : Host.Outcome} {task : Task}
  {rest : List Task} {m : Message} {ms : List Message} {s : State} {g : Host} {c : Call}
  {v : Option (Service × Nat)} {l : List Nat}

lemma put_host_other : (d.put k g v l).host k.other = d.host k.other :=
  Function.update_of_ne k.other_ne _ _

/-- The interface and the sessions after a task. -/
lemma vpnAfter_cases (d : Device) (k : Service) (w : Worker) (o : Host.Outcome) (task : Task)
    (rest : List Task) :
    (d.vpnAfter k w o task = d.vpn ∧
        ((d.host k).afterTask w o task rest).session = (d.host k).session) ∨
      (d.vpnAfter k w o task = d.vpnWithout k w.inst ∧ (task = .hold ∨ task = .teardown) ∧
        ∀ i, i ≠ w.inst → ((d.host k).afterTask w o task rest).session i = (d.host k).session i) ∨
      (d.vpnAfter k w o task = some (k, w.inst) ∧ task.past = false ∧
        (((d.host k).afterTask w o task rest).session w.inst = .up w.cmd ∨
          ((d.host k).afterTask w o task rest).session w.inst = .blocking)) := by
  have hsession : ((d.host k).afterTask w o task rest).session =
      (((d.host k).leave w).ran w o task).session := Host.resume_session
  have hother : ∀ i, i ≠ w.inst →
      (((d.host k).leave w).ran w o task).session i = (d.host k).session i := fun i hi =>
    Host.ran_session_of_ne hi
  rw [hsession]
  cases task with
  | connect r =>
      cases o with
      | ok => exact Or.inr (Or.inr ⟨rfl, rfl, Or.inl (Host.setSession_self _)⟩)
      | refused => exact Or.inl ⟨rfl, rfl⟩
      | broken => exact Or.inr (Or.inr ⟨rfl, rfl, Or.inr (Host.setSession_self _)⟩)
  | hold =>
      by_cases hr : (d.host k).stopRequested w.inst = true
      · refine Or.inl ⟨if_pos hr, ?_⟩
        rw [Host.ran, if_pos (show ((d.host k).leave w).stopRequested w.inst = true from hr)]
        rfl
      · by_cases ho : o = .ok
        · refine Or.inr (Or.inr ⟨?_, rfl, Or.inr ?_⟩)
          · rw [vpnAfter, if_neg hr, if_pos ho]
          · rw [Host.ran, if_neg (show ¬ ((d.host k).leave w).stopRequested w.inst = true from hr),
              if_pos ho]
            exact Host.setSession_self _
        · refine Or.inr (Or.inl ⟨?_, Or.inl rfl, hother⟩)
          rw [vpnAfter, if_neg hr, if_neg ho]
  | teardown => exact Or.inr (Or.inl ⟨rfl, Or.inr rfl, hother⟩)
  | stopSelf id =>
      refine Or.inl ⟨rfl, ?_⟩
      rw [Host.ran]
      rcases ((d.host k).leave w).stopSelf_cases w.inst w.cmd id with hsame | ⟨-, -, hsame⟩
      · rw [hsame]
        rfl
      · rw [hsame]
        rfl
  | startRoute _ | check | caught _ | report _ => exact Or.inl ⟨rfl, rfl⟩

lemma vpnWithout_eq_some {i : Nat} {x : Service × Nat} :
    d.vpnWithout k i = some x ↔ d.vpn = some x ∧ x ≠ (k, i) := by
  rw [vpnWithout]
  split
  · rename_i hv
    rw [hv]
    simp [eq_comm]
  · rename_i hv
    refine ⟨fun hx => ⟨hx, ?_⟩, fun hx => hx.1⟩
    rintro rfl
    exact hv hx

lemma failedAfter_cases (d : Device) (k : Service) (w : Worker) (o : Host.Outcome) (task : Task) :
    d.failedAfter k w o task = d.failed ∨ d.failedAfter k w o task = w.cmd :: d.failed := by
  cases task with
  | connect r =>
      rw [failedAfter]
      split
      · exact Or.inl rfl
      · exact Or.inr rfl
  | hold =>
      rw [failedAfter]
      split
      · exact Or.inl rfl
      · split
        · exact Or.inl rfl
        · exact Or.inr rfl
  | startRoute _ | check | caught _ | teardown | report _ | stopSelf _ => exact Or.inl rfl

/-- What holds of the device whatever the controller is asked to do. -/
structure Sound (d : Device) : Prop where
  lead : ∀ k, d.active k = true → k = d.lead
  placed : ∀ k, (d.host k).Placed
  numbered : ∀ k, (d.host k).Numbered
  newest_le : ∀ k, (d.host k).newest ≤ d.commands
  later : ∀ k, (d.host k).Sent fun n => (d.host k.other).newest ≤ n
  vpn : ∀ k i, d.vpn = some (k, i) → (d.host k).session i ≠ .down
  blamed : ∀ k, (d.host k).Failing → d.failed ≠ []

namespace Sound

/-- Another state of one service. -/
lemma put (hs : Sound d) (hp : g.Placed) (hn : g.Numbered) (hnewest : g.newest = (d.host k).newest)
    (hlater : g.Sent fun n => (d.host k.other).newest ≤ n)
    (hself : ∀ i, v = some (k, i) → g.session i ≠ .down)
    (hother : ∀ i, v = some (k.other, i) → d.vpn = v)
    (hf : g.Failing → l ≠ []) (hl : d.failed ≠ [] → l ≠ []) : Sound (d.put k g v l) := by
  have hall : ∀ {p : Service → Host → Prop}, p k g → p k.other (d.host k.other) →
      ∀ j, p j ((d.put k g v l).host j) := by
    intro p hk ho j
    rcases k.eq_or_other j with rfl | rfl
    · rw [put_host]
      exact hk
    · rw [put_host_other]
      exact ho
  refine ⟨hs.lead, hall (p := fun _ => Host.Placed) hp (hs.placed _),
    hall (p := fun _ => Host.Numbered) hn (hs.numbered _),
    hall (p := fun _ h => h.newest ≤ d.commands) (hnewest ▸ hs.newest_le k) (hs.newest_le _),
    fun j => ?_, fun j i hv => ?_,
    hall (p := fun _ h => h.Failing → l ≠ []) hf fun ho => hl (hs.blamed _ ho)⟩
  · rcases k.eq_or_other j with rfl | rfl
    · rw [put_host, put_host_other]
      exact hlater
    · rw [put_host_other, Service.other_other, put_host, hnewest]
      have hother := hs.later k.other
      rw [Service.other_other] at hother
      exact hother
  · rcases k.eq_or_other j with rfl | rfl
    · rw [put_host]
      exact hself i hv
    · rw [put_host_other]
      exact hs.vpn _ i ((hother i hv).trans hv)

/-- A task and its effect on the own service. -/
lemma put_run (hs : Sound d) (hw : w ∈ (d.host k).workers) (hmem : w.tasks = task :: rest) :
    Sound (d.put k ((d.host k).afterTask w o task rest) (d.vpnAfter k w o task)
      (d.failedAfter k w o task)) := by
  have hvpn := d.vpnAfter_cases k w o task rest
  have hf := d.failedAfter_cases k w o task
  refine hs.put ((hs.placed k).run hw hmem) ((hs.numbered k).run hw hmem)
    ((d.host k).afterTask_frame w o task rest).2.2.2 ((hs.later k).run hw hmem) (fun i hi => ?_)
    (fun i hi => ?_) (fun hfail => ?_) fun hne => ?_
  · rcases hvpn with ⟨hv, hsame⟩ | ⟨hv, -, hsame⟩ | ⟨hv, -, hup⟩
    · rw [hsame]
      exact hs.vpn k i (hv ▸ hi)
    · rw [hv] at hi
      obtain ⟨hi, hne⟩ := vpnWithout_eq_some.mp hi
      rw [hsame i fun heq => hne (heq ▸ rfl)]
      exact hs.vpn k i hi
    · rw [hv] at hi
      cases hi
      rcases hup with hup | hup <;> rw [hup] <;> nofun
  · rcases hvpn with ⟨hv, -⟩ | ⟨hv, -, -⟩ | ⟨hv, -, -⟩
    · exact hv.symm
    · rw [hv] at hi ⊢
      rw [hi]
      exact (vpnWithout_eq_some.mp hi).1
    · rw [hv] at hi
      exact absurd (congrArg Prod.fst (Option.some.inj hi)).symm k.other_ne
  · rcases hfail.of_run hw hmem with hfail | ⟨⟨r, rfl⟩, ho⟩
    · have hne := hs.blamed k hfail
      rcases hf with hf | hf <;> rw [hf]
      · exact hne
      · exact List.cons_ne_nil _ _
    · rw [failedAfter, if_neg ho]
      exact List.cons_ne_nil _ _
  · rcases hf with hf | hf <;> rw [hf]
    · exact hne
    · exact List.cons_ne_nil _ _

/-- A message and its effect on the own service. -/
lemma put_deliver (hs : Sound d) (hmain : (d.host k).main = m :: ms) :
    Sound (d.put k ((d.host k).delivered m ms) (d.vpnDelivered k m) d.failed) := by
  refine hs.put ((hs.placed k).deliver hmain) ((hs.numbered k).deliver hmain) ?_
    ((hs.later k).deliver hmain) (fun i hi => ?_) (fun i hi => ?_)
    (fun hf => hs.blamed k hf.of_deliver) fun hne => hne
  · cases m with
    | args i id n action => exact (Host.onStartCommand_frame _ i id n action).2.2.2.2.2
    | destroy i n => rfl
    | destroyed i n => rfl
  · cases m with
    | args i' id n action =>
        rw [Host.delivered, (Host.onStartCommand_frame _ i' id n action).2.1]
        exact hs.vpn k i hi
    | destroy i' n =>
        obtain ⟨hi, hne⟩ := vpnWithout_eq_some.mp hi
        have hsame : ((d.host k).delivered (.destroy i' n) ms).session i = (d.host k).session i :=
          Host.setSession_of_ne .down fun heq => hne (heq ▸ rfl)
        rw [hsame]
        exact hs.vpn k i hi
    | destroyed i' n => exact hs.vpn k i hi
  · cases m with
    | destroy i' n =>
        rw [vpnDelivered] at hi ⊢
        rw [hi]
        exact (vpnWithout_eq_some.mp hi).1
    | args i' id n action => rfl
    | destroyed i' n => rfl

/-- A STOP or a HOLD for a service. -/
lemma startService {action : Action} (hs : Sound d) (k : Service)
    (haction : ∀ r, action ≠ .start r) : Sound (d.startService k action) := by
  refine hs.put ((hs.placed k).startService action d.commands)
    ((hs.numbered k).startService (hs.placed k) (hs.newest_le k) haction)
    Host.startService_newest ((hs.later k).startService fun _ => hs.newest_le k.other)
    (fun i hi => ?_) (fun i hi => rfl) (fun hf => hs.blamed k ?_) fun hne => hne
  · rw [Host.startService_session (hs.placed k) (hs.vpn k i hi)]
    exact hs.vpn k i hi
  · rw [Host.Failing, Host.startService_workers] at hf
    exact hf

/-- The fields that matter. -/
lemma of_same (hs : Sound d) (hhost : d'.host = d.host) (hvpn : d'.vpn = d.vpn)
    (hcommands : d.commands ≤ d'.commands) (hfailed : d.failed ≠ [] → d'.failed ≠ [])
    (hlead : d'.lead = d.lead) (hactive : ∀ j, d'.active j = true → d.active j = true) :
    Sound d' := by
  refine ⟨fun j hj => (hs.lead j (hactive j hj)).trans hlead.symm, ?_, ?_, fun j => ?_, ?_, ?_,
    fun j hf => hfailed (hs.blamed j (hhost ▸ hf))⟩
  · rw [hhost]
    exact hs.placed
  · rw [hhost]
    exact hs.numbered
  · rw [hhost]
    exact Nat.le_trans (hs.newest_le j) hcommands
  · rw [hhost]
    exact hs.later
  · rw [hhost, hvpn]
    exact hs.vpn

/-- A callback. -/
lemma called (hs : Sound d) (hc : Called d d' k) : Sound d' := by
  have hactive : ∀ j, d'.active j = true → d.active j = true := by
    intro j hj
    rcases k.eq_or_other j with rfl | rfl
    · exact hc.active hj
    · exact hc.activeOther ▸ hj
  have hhosts : ∀ {e : Device}, d'.host k = e.host k → d'.host k.other = e.host k.other →
      d'.host = e.host := by
    intro e hk ho
    funext j
    rcases k.eq_or_other j with rfl | rfl
    · exact hk
    · exact ho
  rcases hc.other with ⟨hsame, -⟩ | ⟨-, -, -, hstop⟩
  · exact hs.of_same (hhosts hc.self hsame) hc.vpn (Nat.le_of_eq hc.commands.symm)
      (fun hne => hc.failed.symm ▸ hne) hc.lead hactive
  · have hk : (d.startService k.other .stop).host k = d.host k :=
      Function.update_of_ne k.ne_other _ _
    have ho : (d.startService k.other .stop).host k.other =
        (d.host k.other).startService .stop d.commands := Function.update_self _ _ _
    have hsound : Sound (d.startService k.other .stop) := hs.startService k.other nofun
    exact hsound.of_same (hhosts (hc.self.trans hk.symm) (hstop.trans ho.symm))
      hc.vpn (Nat.le_of_eq hc.commands.symm) (fun hne => hc.failed.symm ▸ hne) hc.lead hactive

end Sound

end Device

end CumulusVpn.Mobile.Android
