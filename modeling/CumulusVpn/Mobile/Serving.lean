/-
The course of one command in an Android service.

* `Host.Ended`: the service is on its way down;
* `Phase`, `Host.Serving`: how far the only command has come;
* `Ended.run`, `Ended.deliver`, `Ended.startService`: a service that ends, ends;
* `Serving.run`, `Serving.deliver`: every task and every message carry the
  command on, or the service ends;
* `Serving.stop`, `Ended.start`, `Serving.again`: a STOP ends what is served, a
  START is served by a service at rest.
-/
import CumulusVpn.Mobile.Numbers

namespace CumulusVpn.Mobile.Android

/-- A task on the way to a session. -/
def Task.serves : Task → Bool
  | .startRoute _ | .connect _ | .check | .caught _ | .hold | .report .connected => true
  | _ => false

namespace Message

/-- A message after which the instance is gone. -/
def ends : Message → Bool
  | .destroy _ _ | .destroyed _ _ => true
  | .args _ _ _ _ => false

/-- The callback of `onDestroy`. -/
def last : Message → Bool
  | .destroyed _ _ => true
  | _ => false

end Message

namespace Host

variable {h : Host} {w v : Worker} {o : Outcome} {task t : Task} {rest tasks : List Task}
  {m : Message} {ms : List Message} {i j n : Nat} {action : Action} {a b spare : Prop}

/-! ### The way down -/

/-- Something pending stops the current instance. -/
def Stopping (h : Host) : Prop :=
  (∃ n, .args h.current h.startId n .stop ∈ h.main) ∨
    ∃ w ∈ h.workers, w.inst = h.current ∧
      (.stopSelf none ∈ w.tasks ∨ .stopSelf (some h.startId) ∈ w.tasks)

/-- Everything that is up is doomed, the service is yet to be stopped, and if it
is active it is yet to report that. -/
structure Ended (h : Host) (active : Prop) : Prop where
  closing : Closing h False
  stops : h.running = true → h.Stopping
  reports : active → h.running = true ∨ ∃ m ∈ h.main, m.ends

lemma ended_empty (ha : ¬ a) : Ended empty a :=
  ⟨⟨trivial, fun _ hw => absurd hw List.not_mem_nil, fun _ hup => absurd rfl hup⟩, nofun,
    fun hno => absurd hno ha⟩

namespace Ended

lemma mono (he : Ended h a) (hab : b → a) : Ended h b :=
  ⟨he.closing, he.stops, fun hb => he.reports (hab hb)⟩

/-- Every task keeps it. -/
lemma run (he : Ended h a) (hw : w ∈ h.workers) (hmem : w.tasks = task :: rest) :
    Ended (h.afterTask w o task rest) a := by
  obtain ⟨-, hcurrent, hid, -⟩ := h.afterTask_frame w o task rest
  refine ⟨he.closing.run hw hmem, fun hrunning => ?_, fun ha => ?_⟩
  · rcases h.afterTask_main w o task rest with ⟨hmain, hsame⟩ | ⟨-, -, hno⟩
    · rw [Stopping, hcurrent, hid, hmain]
      refine (he.stops (hsame ▸ hrunning)).imp (fun hs => hs) ?_
      rintro ⟨v, hv, hinst, hs⟩
      by_cases hvw : v = w
      · subst hvw
        -- the task is not the stop, for the service still runs
        have hrest : .stopSelf none ∈ rest ∨ .stopSelf (some h.startId) ∈ rest := by
          rw [hmem] at hs
          rcases hs with hs | hs <;> rcases List.mem_cons.mp hs with rfl | hs
          · rw [afterTask_main_of_stopSelf (Or.inl rfl) hinst (hsame ▸ hrunning)] at hrunning
            cases hrunning
          · exact Or.inl hs
          · rw [afterTask_main_of_stopSelf (Or.inr rfl) hinst (hsame ▸ hrunning)] at hrunning
            cases hrunning
          · exact Or.inr hs
        have hne : h.next v o task ++ rest ≠ [] := by
          intro hnil
          rw [List.append_eq_nil_iff.mp hnil |>.2] at hrest
          simp at hrest
        exact ⟨_, mem_afterTask.mpr (Or.inr ⟨hne, rfl⟩), hinst,
          hrest.imp (List.mem_append_right _) (List.mem_append_right _)⟩
      · exact ⟨v, mem_afterTask.mpr (Or.inl ((List.mem_erase_of_ne hvw).mpr hv)), hinst, hs⟩
    · rw [hno] at hrunning
      cases hrunning
  · rcases h.afterTask_main w o task rest with ⟨hmain, hsame⟩ | ⟨-, hmain, -⟩
    · rw [hmain, hsame]
      exact he.reports ha
    · rw [hmain]
      exact Or.inr ⟨_, List.mem_append_right _ List.mem_cons_self, rfl⟩

/-- Every message keeps it; the callback of `onDestroy` is the report. -/
lemma deliver (he : Ended h a) (hmain : h.main = m :: ms) :
    Ended (h.delivered m ms) (a ∧ m.last = false) := by
  have hstops : h.running = true →
      m = .args h.current h.startId m.cmd .stop ∨
        (∃ n, .args h.current h.startId n .stop ∈ ms) ∨ ∃ w ∈ h.workers, w.inst = h.current ∧
          (.stopSelf none ∈ w.tasks ∨ .stopSelf (some h.startId) ∈ w.tasks) := by
    intro hrunning
    rcases he.stops hrunning with ⟨n, hn⟩ | hw
    · rw [hmain] at hn
      rcases List.mem_cons.mp hn with heq | hn
      · exact Or.inl (heq ▸ rfl)
      · exact Or.inr (Or.inl ⟨n, hn⟩)
    · exact Or.inr (Or.inr hw)
  have hends : a → h.running = true ∨ m.ends = true ∨ ∃ m ∈ ms, m.ends := by
    intro ha
    refine (he.reports ha).imp (fun hr => hr) ?_
    rintro ⟨m', hm', hends⟩
    rw [hmain] at hm'
    rcases List.mem_cons.mp hm' with rfl | hm'
    · exact Or.inl hends
    · exact Or.inr ⟨m', hm', hends⟩
  refine ⟨he.closing.deliver hmain, fun hrunning => ?_, fun ha => ?_⟩
  · cases m with
    | args i id n action =>
        obtain ⟨hm, -, hcurrent, hrun, hid, -⟩ :=
          onStartCommand_frame { h with main := ms } i id n action
        rw [delivered] at hrunning ⊢
        rw [hrun] at hrunning
        rw [Stopping, hm, hcurrent, hid]
        rcases hstops hrunning with heq | hn | ⟨w, hw, hinst, hs⟩
        · cases heq
          -- the worker of the STOP has its start id
          exact Or.inr ⟨_, mem_resume.mpr (Or.inr ⟨List.cons_ne_nil _ _, rfl⟩), rfl,
            Or.inr (List.mem_cons_of_mem _ List.mem_cons_self)⟩
        · exact Or.inl hn
        · refine Or.inr ⟨w, ?_, hinst, hs⟩
          cases action <;> exact mem_resume.mpr (Or.inl hw)
    | destroy i n =>
        rcases hstops hrunning with heq | ⟨n', hn'⟩ | hw
        · cases heq
        · exact Or.inl ⟨n', List.mem_cons_of_mem _ hn'⟩
        · exact Or.inr hw
    | destroyed i n =>
        rcases hstops hrunning with heq | hn | hw
        · cases heq
        · exact Or.inl hn
        · exact Or.inr hw
  · cases m with
    | args i id n action =>
        obtain ⟨hm, -, -, hrun, -, -⟩ := onStartCommand_frame { h with main := ms } i id n action
        rw [delivered, hm, hrun]
        rcases hends ha.1 with hr | hno | hm
        · exact Or.inl hr
        · cases hno
        · exact Or.inr hm
    | destroy i n => exact Or.inr ⟨_, List.mem_cons_self, rfl⟩
    | destroyed i n => cases ha.2

/-- A STOP for a service that closes. -/
lemma stop (hc : Closing h spare) (hp : Placed h) : Ended (h.startService .stop n) a := by
  rw [startService]
  split
  · rename_i hrunning
    have hnew : StopIn (h.main ++ [.args h.current (h.startId + 1) n .stop]) h.current :=
      ⟨_, _, List.mem_append_right _ List.mem_cons_self⟩
    have hsub := List.subset_append_left h.main [.args h.current (h.startId + 1) n .stop]
    refine ⟨⟨hc.ahead.append rfl, fun w hw hpast => ?_, fun j hup => ?_⟩, fun _ => ?_,
      fun _ => Or.inl hrunning⟩
    · exact (hc.connects w hw hpast).imp (fun hr => hr) fun hs => hs.mono hsub
    · rcases hc.doomed j hup with (hs | ⟨n', hn'⟩ | hw) | ⟨rfl, -, -⟩
      · exact Or.inl (Or.inl (hs.mono hsub))
      · exact Or.inl (Or.inr (Or.inl ⟨n', hsub hn'⟩))
      · exact Or.inl (Or.inr (Or.inr hw))
      · exact Or.inl (Or.inl hnew)
    · exact Or.inl ⟨n, List.mem_append_right _ List.mem_cons_self⟩
  · rename_i hrunning
    have hsub := List.subset_append_left h.main [.args (h.current + 1) 1 n .stop]
    refine ⟨⟨hc.ahead.append rfl, fun w hw hpast => ?_, fun j hup => ?_⟩, fun _ => ?_,
      fun _ => Or.inl rfl⟩
    · have hinst : w.inst ≠ h.current + 1 := by
        have := hp.workers w hw
        omega
      refine (hc.connects w hw hpast).imp (fun hr => ?_) fun hs => hs.mono hsub
      exact (Function.update_of_ne hinst _ _).trans hr
    · have hj : j ≠ h.current + 1 := by
        intro hj
        rw [hj] at hup
        exact hup (Function.update_self _ _ _)
      have hup' : h.session j ≠ .down := by
        intro hdown
        exact hup ((Function.update_of_ne hj _ _).trans hdown)
      rcases hc.doomed j hup' with (hs | ⟨n', hn'⟩ | ⟨w, hw, hinst, hs⟩) | ⟨-, hno, -⟩
      · exact Or.inl (Or.inl (hs.mono hsub))
      · exact Or.inl (Or.inr (Or.inl ⟨n', hsub hn'⟩))
      · refine Or.inl (Or.inr (Or.inr ⟨w, hw, hinst, hs.imp (fun ht => ht) fun hr => ⟨?_, hr.2⟩⟩))
        exact (Function.update_of_ne hj _ _).trans hr.1
      · exact absurd hno hrunning
    · exact Or.inl ⟨n, List.mem_append_right _ List.mem_cons_self⟩

end Ended

/-! ### The only command -/

/-- How far a command has come: its intent is sent, a worker is at a task, or
there is nothing left to do. -/
inductive Phase
  | sent (action : Action)
  | doing (task : Task)
  | rest
deriving DecidableEq, Repr

/-- The worker of a command that has one task left to do, of the current instance. -/
abbrev worker (h : Host) (n : Nat) (task : Task) : Worker := ⟨h.current, n, [task]⟩

/-- The service is where the phase says, and besides has nothing to do. -/
def At (h : Host) (n : Nat) : Phase → Prop
  | .sent action =>
      action ≠ .stop ∧ h.main = [.args h.current h.startId n action] ∧
        ∀ w ∈ h.workers, w.idle = true
  | .doing task =>
      task.serves = true ∧ h.main = [] ∧ h.worker n task ∈ h.workers ∧
        ∀ w ∈ h.workers.erase (h.worker n task), w.idle = true
  | .rest => h.Free

/-- The service runs and serves the command `n`. -/
structure Serving (h : Host) (n : Nat) (ph : Phase) : Prop where
  running : h.running = true
  others : ∀ i, i ≠ h.current → h.session i = .down
  fresh : ∀ w ∈ h.workers, ∀ id, .stopSelf (some id) ∈ w.tasks → w.inst = h.current →
    id < h.startId
  requested : (∀ r, ph ≠ .sent (.start r)) → h.stopRequested h.current = false
  place : h.At n ph

variable {ph : Phase}

/-- An idle worker has no task but its stop. -/
lemma past_of_idle (hidle : w.idle = true) : ∀ t ∈ w.tasks, t.past = true := by
  obtain ⟨id, hid⟩ := idle_cases hidle
  intro t ht
  rw [hid] at ht
  cases List.mem_singleton.mp ht
  rfl

lemma not_idle_of_serves (ht : t.serves = true) : Worker.idle ⟨i, n, [t]⟩ = false := by
  cases t with
  | stopSelf id => cases ht
  | startRoute _ | connect _ | check | caught _ | hold | teardown | report _ => rfl

/-- Behind idle workers comes one that is not. -/
lemma idle_of_mem_erase {l : List Worker} (hl : ∀ v ∈ l, v.idle = true) (hw : w.idle = false)
    (hv : v ∈ (l ++ [w]).erase w) : v.idle = true := by
  have hnot : w ∉ l := by
    intro hmem
    rw [hl w hmem] at hw
    cases hw
  rw [List.erase_append_right _ hnot] at hv
  simp at hv
  exact hl v hv

namespace Serving

/-- What is to establish an interface is of the current instance. -/
lemma inst_of_opening (hs : Serving h n ph) (hw : w ∈ h.workers)
    (hopen : ∃ t ∈ w.tasks, t.past = false) : w.inst = h.current := by
  have hnot : w.idle ≠ true := by
    intro hidle
    obtain ⟨t, ht, hno⟩ := hopen
    rw [past_of_idle hidle t ht] at hno
    cases hno
  have hplace := hs.place
  cases ph with
  | sent action => exact absurd (hplace.2.2 w hw) hnot
  | doing task =>
      by_cases hone : w = h.worker n task
      · rw [hone]
      · exact absurd (hplace.2.2.2 w ((List.mem_erase_of_ne hone).mpr hw)) hnot
  | rest => exact absurd (hplace.2 w hw) hnot

/-- A STOP ends what is served. -/
lemma stop {c : Nat} (hs : Serving h n ph) : Ended (h.startService .stop c) a := by
  have hnew : StopIn (h.main ++ [.args h.current (h.startId + 1) c .stop]) h.current :=
    ⟨_, _, List.mem_append_right _ List.mem_cons_self⟩
  rw [startService, if_pos hs.running]
  refine ⟨⟨?_, fun w hw hopen => ?_, fun j hup => ?_⟩, fun _ => ?_, fun _ => Or.inl hs.running⟩
  · have hplace := hs.place
    have hlast : Ahead [.args h.current (h.startId + 1) c .stop] :=
      Ahead.of_past fun m hm => by
        rw [List.mem_singleton.mp hm]
        rfl
    cases ph with
    | sent action =>
        rw [hplace.2.1]
        exact ⟨fun _ => ⟨_, _, List.mem_cons_self⟩, hlast⟩
    | doing task =>
        rw [hplace.2.1]
        exact hlast
    | rest =>
        rw [hplace.1]
        exact hlast
  · exact Or.inr (hs.inst_of_opening hw hopen ▸ hnew)
  · refine Or.inl (Or.inl ?_)
    by_cases hj : j = h.current
    · exact hj ▸ hnew
    · exact absurd (hs.others j hj) hup
  · exact Or.inl ⟨c, List.mem_append_right _ List.mem_cons_self⟩

/-- A service that nothing opens any more may be left. -/
lemma closing (hs : Serving h n ph) (ho : h.Over) : Closing h True := by
  refine ⟨Ahead.of_past ho.1, fun w hw hopen => ?_, fun j hup => ?_⟩
  · exact ((over_iff.mp ho).2 w hw hopen).elim
  · by_cases hj : j = h.current
    · exact Or.inr ⟨hj, hs.running, trivial⟩
    · exact absurd (hs.others j hj) hup

/-- A worker that is idle does nothing. -/
lemma run_idle (hs : Serving h n ph) (hw : w ∈ h.workers) (hmem : w.tasks = task :: rest)
    (hidle : w.idle = true) :
    h.afterTask w o task rest = h.leave w ∧ Serving (h.leave w) n ph := by
  obtain ⟨id, hid⟩ := idle_cases hidle
  rw [hmem] at hid
  obtain ⟨rfl, rfl⟩ := List.cons.inj hid
  refine ⟨?_, hs.running, hs.others, fun v hv => hs.fresh v (List.mem_of_mem_erase hv),
    hs.requested, ?_⟩
  · rw [afterTask_stopSelf_of_ne]
    · exact if_pos rfl
    · intro hinst
      have := hs.fresh w hw id (hmem ▸ List.mem_cons_self) hinst
      omega
  · have hplace := hs.place
    cases ph with
    | sent action =>
        exact ⟨hplace.1, hplace.2.1, fun v hv => hplace.2.2 v (List.mem_of_mem_erase hv)⟩
    | doing task =>
        refine ⟨hplace.1, hplace.2.1, ?_, fun v hv => hplace.2.2.2 v ?_⟩
        · refine (List.mem_erase_of_ne ?_).mpr hplace.2.2.1
          intro heq
          have htasks : [task] = [.stopSelf (some id)] := by rw [← hmem, ← heq]
          have hserves := hplace.1
          cases htasks
          cases hserves
        · have hv' : v ∈ (h.workers.erase w).erase (h.worker n task) := hv
          rw [List.erase_comm] at hv'
          exact List.mem_of_mem_erase hv'
    | rest => exact ⟨hplace.1, fun v hv => hplace.2 v (List.mem_of_mem_erase hv)⟩

/-- The worker of the command, when it is not an idle one that runs. -/
lemma run_cases (hs : Serving h n ph) (hw : w ∈ h.workers) (hmem : w.tasks = task :: rest) :
    w.idle = true ∨
      (ph = .doing task ∧ task.serves = true ∧ w = h.worker n task ∧ rest = []) := by
  by_cases hidle : w.idle = true
  · exact Or.inl hidle
  · have hplace := hs.place
    cases ph with
    | sent action => exact absurd (hplace.2.2 w hw) hidle
    | doing t =>
        by_cases hone : w = h.worker n t
        · have htasks : [t] = task :: rest := by rw [← hmem, hone]
          obtain ⟨rfl, rfl⟩ := List.cons.inj htasks
          exact Or.inr ⟨rfl, hplace.1, hone, rfl⟩
        · exact absurd (hplace.2.2.2 w ((List.mem_erase_of_ne hone).mpr hw)) hidle
    | rest => exact absurd (hplace.2 w hw) hidle

/-- The intent is delivered. -/
lemma deliver (hs : Serving h n ph) (hmain : h.main = m :: ms) :
    (∃ r, ph = .sent (.start r) ∧ m = .args h.current h.startId n (.start r) ∧
        Serving (h.delivered m ms) n (.doing (.startRoute r))) ∨
      (ph = .sent .hold ∧ m = .args h.current h.startId n .hold ∧
        Serving (h.delivered m ms) n (.doing .hold)) := by
  have hplace := hs.place
  cases ph with
  | doing task =>
      rw [hplace.2.1] at hmain
      cases hmain
  | rest =>
      rw [hplace.1] at hmain
      cases hmain
  | sent action =>
      rw [hplace.2.1] at hmain
      obtain ⟨rfl, rfl⟩ := List.cons.inj hmain
      cases action with
      | stop => exact absurd rfl hplace.1
      | start r =>
          refine Or.inl ⟨r, rfl, rfl, hs.running, hs.others, fun v hv id hid => ?_, fun _ => ?_, ?_⟩
          · rcases List.mem_append.mp hv with hv | hv
            · exact hs.fresh v hv id hid
            · cases List.mem_singleton.mp hv
              cases List.mem_singleton.mp hid
          · exact Function.update_self _ _ _
          · exact ⟨rfl, rfl, List.mem_append_right _ List.mem_cons_self,
              fun v hv => idle_of_mem_erase hplace.2.2 rfl hv⟩
      | hold =>
          refine Or.inr ⟨rfl, rfl, hs.running, hs.others, fun v hv id hid => ?_, fun _ => ?_, ?_⟩
          · rcases List.mem_append.mp hv with hv | hv
            · exact hs.fresh v hv id hid
            · cases List.mem_singleton.mp hv
              cases List.mem_singleton.mp hid
          · exact hs.requested nofun
          · exact ⟨rfl, rfl, List.mem_append_right _ List.mem_cons_self,
              fun v hv => idle_of_mem_erase hplace.2.2 rfl hv⟩

/-- While the service runs on, it gets no message. -/
lemma main_of_running (hs : Serving h n (.doing t))
    (hrunning : (h.afterTask w o t []).running = true) : (h.afterTask w o t []).main = [] := by
  rcases h.afterTask_main w o t [] with ⟨hmain, -⟩ | ⟨-, -, hno⟩
  · rw [hmain]
    exact hs.place.2.1
  · rw [hno] at hrunning
    cases hrunning

/-- Other instances stay down. -/
lemma others_afterTask (hs : Serving h n (.doing t)) :
    ∀ j, j ≠ h.current →
      (h.afterTask (h.worker n t) o t []).session j = .down := by
  intro j hj
  rcases h.afterTask_session (h.worker n t) o t [] j with hsame | ⟨hinst, -⟩
  · rw [hsame]
    exact hs.others j hj
  · exact absurd hinst hj

/-- The worker of the command runs on. -/
lemma goes {t' : Task} (hs : Serving h n (.doing t))
    (hnext : h.next (h.worker n t) o t = [t']) (hserves : t'.serves = true)
    (hrunning : (h.afterTask (h.worker n t) o t []).running = true) :
    Serving (h.afterTask (h.worker n t) o t []) n (.doing t') := by
  obtain ⟨hstop, hcurrent, hid, -⟩ := h.afterTask_frame (h.worker n t) o t []
  have hworkers : (h.afterTask (h.worker n t) o t []).workers =
      h.workers.erase (h.worker n t) ++ [h.worker n t'] := by
    rw [afterTask, hnext, resume, if_neg (by simp), ((h.leave _).ran_frame _ o t).1]
    rfl
  have hworker : (h.afterTask (h.worker n t) o t []).worker n t' = h.worker n t' := by
    rw [worker, hcurrent]
  refine ⟨hrunning, fun j hj => ?_, fun v hv id hs' hj => ?_, fun _ => ?_, hserves,
    hs.main_of_running hrunning, ?_, fun v hv => ?_⟩
  · rw [hcurrent] at hj
    exact hs.others_afterTask j hj
  · rw [hcurrent] at hj
    rw [hid]
    rw [hworkers] at hv
    rcases List.mem_append.mp hv with hv | hv
    · exact hs.fresh v (List.mem_of_mem_erase hv) id hs' hj
    · cases List.mem_singleton.mp hv
      cases List.mem_singleton.mp hs'
      cases hserves
  · rw [hstop, hcurrent]
    exact hs.requested (by simp)
  · rw [hworkers, hworker]
    exact List.mem_append_right _ List.mem_cons_self
  · rw [hworkers, hworker] at hv
    exact idle_of_mem_erase hs.place.2.2.2 (not_idle_of_serves hserves) hv

/-- The worker of the command has done. -/
lemma done (hs : Serving h n (.doing t)) (hnext : h.next (h.worker n t) o t = [])
    (hrunning : (h.afterTask (h.worker n t) o t []).running = true) :
    Serving (h.afterTask (h.worker n t) o t []) n .rest := by
  obtain ⟨hstop, hcurrent, hid, -⟩ := h.afterTask_frame (h.worker n t) o t []
  have hworkers : (h.afterTask (h.worker n t) o t []).workers =
      h.workers.erase (h.worker n t) := by
    rw [afterTask, hnext, List.append_nil, resume, if_pos rfl, ((h.leave _).ran_frame _ o t).1]
    rfl
  refine ⟨hrunning, fun j hj => ?_, fun v hv id hs' hj => ?_, fun _ => ?_,
    hs.main_of_running hrunning, fun v hv => ?_⟩
  · rw [hcurrent] at hj
    exact hs.others_afterTask j hj
  · rw [hcurrent] at hj
    rw [hid]
    rw [hworkers] at hv
    exact hs.fresh v (List.mem_of_mem_erase hv) id hs' hj
  · rw [hstop, hcurrent]
    exact hs.requested (by simp)
  · rw [hworkers] at hv
    exact hs.place.2.2.2 v hv

/-- A START that has failed and replaces nothing ends the service. -/
lemma fails (hs : Serving h n (.doing (.caught false))) :
    Ended (h.afterTask (h.worker n (.caught false)) o (.caught false) []) a := by
  have hnew : (⟨h.current, n, [.teardown, .report .error, .stopSelf none]⟩ : Worker) ∈
      (h.afterTask (h.worker n (.caught false)) o (.caught false) []).workers :=
    mem_afterTask.mpr (Or.inr ⟨List.cons_ne_nil _ _, rfl⟩)
  obtain ⟨-, hcurrent, -, -⟩ := h.afterTask_frame (h.worker n (.caught false)) o (.caught false) []
  have hmain : (h.afterTask (h.worker n (.caught false)) o (.caught false) []).main = [] :=
    resume_main.trans hs.place.2.1
  refine ⟨⟨?_, fun w hw hopen => ?_, fun j hup => ?_⟩, fun _ => ?_, fun _ => Or.inl ?_⟩
  · rw [hmain]
    trivial
  · obtain ⟨t, ht, hno⟩ := hopen
    rcases mem_afterTask.mp hw with hw | ⟨-, rfl⟩
    · rw [past_of_idle (hs.place.2.2.2 w hw) t ht] at hno
      cases hno
    · have ht' : t ∈ [.teardown, .report .error, .stopSelf none] := ht
      simp only [List.mem_cons, List.not_mem_nil, or_false] at ht'
      rcases ht' with rfl | rfl | rfl <;> cases hno
  · refine Or.inl (Or.inr (Or.inr ⟨_, hnew, ?_, Or.inl List.mem_cons_self⟩))
    by_contra hj
    exact hup (hs.others_afterTask j fun heq => hj heq.symm)
  · exact Or.inr ⟨_, hnew, hcurrent.symm, Or.inl (by simp)⟩
  · exact resume_running.trans hs.running

/-- A hold that fails ends the service. -/
lemma hold_fails (hs : Serving h n (.doing .hold)) (ho : o ≠ .ok) :
    Ended (h.afterTask (h.worker n .hold) o .hold []) a := by
  have hreq : (h.leave (h.worker n .hold)).stopRequested h.current = false :=
    hs.requested (by simp)
  have hran : (h.leave (h.worker n .hold)).ran (h.worker n .hold) o .hold =
      { (h.leave (h.worker n .hold)).setSession h.current .down with
        running := false
        main := h.main ++ [.destroy h.current n] } := by
    rw [ran, if_neg (by simp [hreq]), if_neg ho, stopSelf, if_pos ⟨hs.running, rfl, Or.inl rfl⟩]
    rfl
  have hsame : h.afterTask (h.worker n .hold) o .hold [] =
      { (h.leave (h.worker n .hold)).setSession h.current .down with
        running := false
        main := h.main ++ [.destroy h.current n] } := by
    rw [afterTask, hran]
    exact if_pos rfl
  rw [hsame]
  refine ⟨⟨?_, fun w hw hopen => ?_, fun j hup => ?_⟩, fun hno => Bool.noConfusion hno,
    fun _ => Or.inr ?_⟩
  · rw [hs.place.2.1]
    exact Ahead.append trivial rfl
  · obtain ⟨t, ht, hno⟩ := hopen
    rw [past_of_idle (hs.place.2.2.2 w hw) t ht] at hno
    cases hno
  · by_cases hj : j = h.current
    · exact absurd (hj ▸ setSession_self .down) hup
    · exact absurd ((setSession_of_ne .down hj).trans (hs.others j hj)) hup
  · exact ⟨_, List.mem_append_right _ List.mem_cons_self, rfl⟩

/-- A HOLD for a service at rest. -/
lemma again {c : Nat} (hs : Serving h n .rest) :
    Serving (h.startService .hold c) c (.sent .hold) := by
  rw [startService, if_pos hs.running]
  refine ⟨hs.running, hs.others, fun w hw id hid hj => ?_, fun _ => hs.requested (by simp),
    by simp, ?_, hs.place.2⟩
  · exact Nat.lt_succ_of_lt (hs.fresh w hw id hid hj)
  · rw [hs.place.1]
    rfl

end Serving

/-- A START for a service at rest. -/
lemma Placed.serving {r : Bool} (hp : Placed h) (hfree : h.Free)
    (hup : ∀ i, h.session i ≠ .down → i = h.current ∧ h.running = true) :
    Serving (h.startService (.start r) n) n (.sent (.start r)) := by
  have hdown : ∀ i, (i = h.current → h.running ≠ true) → h.session i = .down := by
    intro i hi
    by_contra hno
    exact hi (hup i hno).1 (hup i hno).2
  have hrequested : ∀ {b : Prop}, (∀ r', Phase.sent (.start r) ≠ .sent (.start r')) → b :=
    fun hno => absurd rfl (hno r)
  rw [Host.startService]
  split
  · rename_i hrunning
    refine ⟨hrunning, fun i hi => hdown i fun heq => absurd heq hi, fun w hw id hid hj => ?_,
      hrequested, by simp, ?_, hfree.2⟩
    · exact Nat.lt_succ_of_le (hp.stops w hw id hid hj)
    · rw [hfree.1]
      rfl
  · rename_i hrunning
    refine ⟨rfl, fun i hi => ?_, fun w hw id hid hj => ?_, hrequested, by simp, ?_, hfree.2⟩
    · exact (Function.update_of_ne hi _ _).trans (hdown i fun _ => hrunning)
    · have hinst := hp.workers w hw
      have : w.inst = h.current + 1 := hj
      omega
    · rw [hfree.1]
      rfl

end Host

end CumulusVpn.Mobile.Android
