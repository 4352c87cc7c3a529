/-
Which commands and which instances the threads of one Android service are of.

* `afterTask_frame`, `mem_afterTask`, `afterTask_main`, `afterTask_session`: what
  a task leaves of its service;
* `Host.Sent`: what is still to establish an interface is of some commands only;
* `Host.Placed`: what is pending is of an instance that there is;
* `Host.Numbered`: what is pending is of the newest START or later;
* each with a lemma for a task, a message and an intent.
-/
import CumulusVpn.Mobile.Closing

namespace CumulusVpn.Mobile.Android

namespace Host

variable {h : Host} {w v : Worker} {o : Outcome} {task t : Task} {rest tasks : List Task}
  {m : Message} {ms : List Message} {i j n : Nat} {p : Nat → Prop} {action : Action}

/-- What a task leaves of its own service. -/
lemma afterTask_frame (h : Host) (w : Worker) (o : Outcome) (task : Task) (rest : List Task) :
    (h.afterTask w o task rest).stopRequested = h.stopRequested ∧
      (h.afterTask w o task rest).current = h.current ∧
      (h.afterTask w o task rest).startId = h.startId ∧
      (h.afterTask w o task rest).newest = h.newest := by
  obtain ⟨-, hstop, hcurrent, hid, hnewest⟩ := (h.leave w).ran_frame w o task
  refine ⟨?_, ?_, ?_, ?_⟩
  · rw [afterTask, resume_stopRequested, hstop]
    rfl
  · rw [afterTask, resume_current, hcurrent]
    rfl
  · rw [afterTask, resume_startId, hid]
    rfl
  · rw [afterTask, resume_newest, hnewest]
    rfl

/-- The workers after a task: the others, and the one that ran, with its next tasks. -/
lemma mem_afterTask :
    v ∈ (h.afterTask w o task rest).workers ↔
      v ∈ h.workers.erase w ∨
        h.next w o task ++ rest ≠ [] ∧ v = { w with tasks := h.next w o task ++ rest } := by
  rw [afterTask, mem_resume, ((h.leave w).ran_frame w o task).1]
  rfl

/-- The messages after a task. -/
lemma afterTask_main (h : Host) (w : Worker) (o : Outcome) (task : Task) (rest : List Task) :
    ((h.afterTask w o task rest).main = h.main ∧
        (h.afterTask w o task rest).running = h.running) ∨
      (w.inst = h.current ∧
        (h.afterTask w o task rest).main = h.main ++ [.destroy w.inst w.cmd] ∧
        (h.afterTask w o task rest).running = false) := by
  rw [afterTask, resume_main, resume_running]
  exact (h.leave w).ran_main w o task

/-- A task stops the service only as the last start id or none allows it. -/
lemma afterTask_main_of_stopSelf {id : Option Nat} (hid : id = none ∨ id = some h.startId)
    (hinst : w.inst = h.current) (hrunning : h.running = true) :
    (h.afterTask w o (.stopSelf id) rest).running = false := by
  have hcond : (h.leave w).running ∧ w.inst = (h.leave w).current ∧
      (id = none ∨ id = some (h.leave w).startId) := ⟨hrunning, hinst, hid⟩
  rw [afterTask, resume_running, ran, stopSelf, if_pos hcond]

/-- And another start id stops nothing. -/
lemma afterTask_stopSelf_of_ne {id : Nat} (hne : w.inst = h.current → id ≠ h.startId) :
    h.afterTask w o (.stopSelf (some id)) rest = (h.leave w).resume w rest := by
  have hcond : ¬ ((h.leave w).running ∧ w.inst = (h.leave w).current ∧
      (some id = none ∨ some id = some (h.leave w).startId)) := by
    rintro ⟨-, hinst, hno | hid⟩
    · cases hno
    · exact hne hinst (Option.some.inj hid)
  rw [afterTask, ran, stopSelf, if_neg hcond]
  rfl

/-- What an intent leaves of its service, when it is delivered. -/
lemma onStartCommand_frame (h : Host) (i id n : Nat) (action : Action) :
    (h.onStartCommand i id n action).main = h.main ∧
      (h.onStartCommand i id n action).session = h.session ∧
      (h.onStartCommand i id n action).current = h.current ∧
      (h.onStartCommand i id n action).running = h.running ∧
      (h.onStartCommand i id n action).startId = h.startId ∧
      (h.onStartCommand i id n action).newest = h.newest := by
  cases action <;> simp [onStartCommand]

/-! ### What is still to establish an interface -/

/-- What is still to establish an interface is of the commands `p`. -/
def Sent (h : Host) (p : Nat → Prop) : Prop :=
  (∀ m ∈ h.main, m.past = false → p m.cmd) ∧
    ∀ w ∈ h.workers, (∃ t ∈ w.tasks, t.past = false) → p w.cmd

lemma over_iff : h.Over ↔ h.Sent fun _ => False := by
  refine ⟨fun ho => ⟨fun m hm hno => ?_, ?_⟩, fun hs => ⟨fun m hm => ?_, fun w hw t ht => ?_⟩⟩
  · rw [ho.1 m hm] at hno
    cases hno
  · rintro w hw ⟨t, ht, hno⟩
    rw [ho.2 w hw t ht] at hno
    cases hno
  · exact Bool.of_not_eq_false fun hno => hs.1 m hm hno
  · exact Bool.of_not_eq_false fun hno => hs.2 w hw ⟨t, ht, hno⟩

lemma Over.sent (ho : h.Over) : h.Sent p :=
  ⟨fun m hm hno => ((over_iff.mp ho).1 m hm hno).elim,
    fun w hw hno => ((over_iff.mp ho).2 w hw hno).elim⟩

namespace Sent

/-- A task leads only to tasks of its own command. -/
lemma run (hs : h.Sent p) (hw : w ∈ h.workers) (hmem : w.tasks = task :: rest) :
    (h.afterTask w o task rest).Sent p := by
  refine ⟨fun m hm hno => ?_, fun v hv hno => ?_⟩
  · rcases h.afterTask_main w o task rest with ⟨hsame, -⟩ | ⟨-, hsame, -⟩
    · rw [hsame] at hm
      exact hs.1 m hm hno
    · rw [hsame] at hm
      rcases List.mem_append.mp hm with hm | hm
      · exact hs.1 m hm hno
      · cases List.mem_singleton.mp hm
        cases hno
  · rcases mem_afterTask.mp hv with hv | ⟨-, rfl⟩
    · exact hs.2 v (List.mem_of_mem_erase hv) hno
    · refine hs.2 w hw ?_
      obtain ⟨t, ht, hno⟩ := hno
      rw [hmem]
      rcases List.mem_append.mp ht with ht | ht
      · refine ⟨task, List.mem_cons_self, ?_⟩
        by_contra hpast
        rw [next_past (Bool.of_not_eq_false hpast) t ht] at hno
        cases hno
      · exact ⟨t, List.mem_cons_of_mem task ht, hno⟩

lemma deliver (hs : h.Sent p) (hmain : h.main = m :: ms) : (h.delivered m ms).Sent p := by
  have hms : ∀ m' ∈ ms, m'.past = false → p m'.cmd := fun m' hm' =>
    hs.1 m' (hmain ▸ List.mem_cons_of_mem m hm')
  have hm : m.past = false → p m.cmd := hs.1 m (hmain ▸ List.mem_cons_self)
  cases m with
  | args i id n action =>
      refine ⟨fun m' hm' => hms m' ?_, fun v hv hno => ?_⟩
      · rw [delivered, (onStartCommand_frame _ i id n action).1] at hm'
        exact hm'
      · rcases Closing.mem_onStartCommand hv with hv | ⟨-, hcmd, htasks⟩
        · exact hs.2 v hv hno
        · obtain ⟨t, ht, hno⟩ := hno
          rw [hcmd]
          cases action with
          | start replaces => exact hm rfl
          | hold => exact hm rfl
          | stop =>
              rw [htasks] at ht
              rcases List.mem_pair.mp ht with rfl | rfl <;> cases hno
  | destroy i n =>
      refine ⟨fun m' hm' hno => ?_, hs.2⟩
      rcases List.mem_cons.mp hm' with rfl | hm'
      · cases hno
      · exact hms m' hm' hno
  | destroyed i n => exact ⟨hms, hs.2⟩

/-- An intent for the service. -/
lemma startService (hs : h.Sent p) (hp : action ≠ .stop → p n) :
    (h.startService action n).Sent p := by
  have hmain : ∃ i id, (h.startService action n).main = h.main ++ [.args i id n action] ∧
      (h.startService action n).workers = h.workers := by
    rw [Host.startService]
    split <;> exact ⟨_, _, rfl, rfl⟩
  obtain ⟨i, id, hmain, hworkers⟩ := hmain
  rw [Sent, hmain, hworkers]
  refine ⟨fun m hm hno => ?_, hs.2⟩
  rcases List.mem_append.mp hm with hm | hm
  · exact hs.1 m hm hno
  · cases List.mem_singleton.mp hm
    refine hp ?_
    rintro rfl
    cases hno

end Sent

/-! ### What there is to run -/

/-- A worker that only stops the service. -/
lemma idle_cases (hidle : w.idle = true) : ∃ id, w.tasks = [.stopSelf (some id)] := by
  rw [Worker.idle] at hidle
  split at hidle
  · rename_i id htasks
    exact ⟨id, htasks⟩
  · cases hidle

/-- What a task leads to connects only where the task does. -/
lemma next_starts (ht : task.starts = false) : ∀ t ∈ h.next w o task, t.starts = false := by
  cases task with
  | startRoute _ | connect _ => cases ht
  | check =>
      rw [next]
      split <;> simp [Task.starts]
  | caught r =>
      rw [next]
      split <;> simp [Task.starts]
  | hold | teardown | report _ | stopSelf _ => simp [next]

/-- And stops the service by a start id never. -/
lemma stopSelf_notMem_next {id : Nat} : .stopSelf (some id) ∉ h.next w o task := by
  cases task with
  | startRoute _ => simp [next]
  | connect _ =>
      rw [next]
      split <;> simp
  | check =>
      rw [next]
      split <;> simp
  | caught r =>
      rw [next]
      split <;> simp
  | hold | teardown | report _ | stopSelf _ => simp [next]

/-- The session after a task: as before, torn down, or that of the worker. -/
lemma afterTask_session (h : Host) (w : Worker) (o : Outcome) (task : Task) (rest : List Task)
    (j : Nat) :
    (h.afterTask w o task rest).session j = h.session j ∨
      (j = w.inst ∧ ((h.afterTask w o task rest).session j = .down ∨
        (h.afterTask w o task rest).session j = .blocking ∨
        ((∃ r, task = .connect r) ∧ (h.afterTask w o task rest).session j = .up w.cmd))) := by
  rw [afterTask, resume_session]
  by_cases hj : j = w.inst
  · subst hj
    have hstop : ∀ (g : Host) (id : Option Nat),
        (g.stopSelf w.inst w.cmd id).session = g.session := by
      intro g id
      rcases g.stopSelf_cases w.inst w.cmd id with hsame | ⟨-, -, hsame⟩ <;> rw [hsame]
    cases task with
    | connect r =>
        cases o with
        | ok => exact Or.inr ⟨rfl, Or.inr (Or.inr ⟨⟨r, rfl⟩, setSession_self _⟩)⟩
        | refused => exact Or.inl rfl
        | broken => exact Or.inr ⟨rfl, Or.inr (Or.inl (setSession_self _))⟩
    | hold =>
        rw [ran]
        split
        · exact Or.inl rfl
        · split
          · exact Or.inr ⟨rfl, Or.inr (Or.inl (setSession_self _))⟩
          · rw [hstop]
            exact Or.inr ⟨rfl, Or.inl (setSession_self _)⟩
    | teardown => exact Or.inr ⟨rfl, Or.inl (setSession_self _)⟩
    | stopSelf id =>
        rw [ran, hstop]
        exact Or.inl rfl
    | startRoute _ | check | caught _ | report _ => exact Or.inl rfl
  · rw [ran_session_of_ne hj]
    exact Or.inl rfl

/-- A message after a task is one from before, or the worker stops the service. -/
lemma mem_afterTask_main (hm : m ∈ (h.afterTask w o task rest).main) :
    m ∈ h.main ∨ (m = .destroy w.inst w.cmd ∧ ∀ id, task = .stopSelf (some id) →
      w.inst = h.current ∧ id = h.startId) := by
  rcases h.afterTask_main w o task rest with ⟨hsame, -⟩ | ⟨-, hsame, -⟩
  · exact Or.inl (hsame ▸ hm)
  · have hm' := hm
    rw [hsame] at hm'
    rcases List.mem_append.mp hm' with hm' | hm'
    · exact Or.inl hm'
    · refine Or.inr ⟨List.mem_singleton.mp hm', ?_⟩
      rintro id rfl
      by_contra hcond
      rw [afterTask_stopSelf_of_ne fun hinst hid => hcond ⟨hinst, hid⟩, resume_main] at hsame
      have hlen := congrArg List.length hsame
      simp [leave] at hlen

/-! ### Instances and start ids -/

/-- What is pending is of an instance that there is, by a start id given out. -/
structure Placed (h : Host) : Prop where
  beyond : ∀ i, h.current < i → h.session i = .down
  messages : ∀ m ∈ h.main, m.inst ≤ h.current
  intents : ∀ i id n a, .args i id n a ∈ h.main → i = h.current → id ≤ h.startId
  workers : ∀ w ∈ h.workers, w.inst ≤ h.current
  stops : ∀ w ∈ h.workers, ∀ id, .stopSelf (some id) ∈ w.tasks → w.inst = h.current →
    id ≤ h.startId

namespace Placed

/-- Every task keeps it. -/
lemma run (hp : Placed h) (hw : w ∈ h.workers) (hmem : w.tasks = task :: rest) :
    Placed (h.afterTask w o task rest) := by
  obtain ⟨-, hcurrent, hid, -⟩ := h.afterTask_frame w o task rest
  refine ⟨fun j hj => ?_, fun m hm => ?_, fun j id n a hm => ?_, fun v hv => ?_,
    fun v hv id hs hj => ?_⟩
  · rw [hcurrent] at hj
    rcases afterTask_session h w o task rest j with hsame | ⟨hinst, -⟩
    · rw [hsame]
      exact hp.beyond j hj
    · have := hp.workers w hw
      omega
  · rw [hcurrent]
    rcases mem_afterTask_main hm with hm | ⟨rfl, -⟩
    · exact hp.messages m hm
    · exact hp.workers w hw
  · rw [hcurrent, hid]
    rcases mem_afterTask_main hm with hm | ⟨heq, -⟩
    · exact hp.intents j id n a hm
    · cases heq
  · rw [hcurrent]
    rcases mem_afterTask.mp hv with hv | ⟨-, rfl⟩
    · exact hp.workers v (List.mem_of_mem_erase hv)
    · exact hp.workers w hw
  · rw [hcurrent] at hj
    rw [hid]
    rcases mem_afterTask.mp hv with hv | ⟨-, rfl⟩
    · exact hp.stops v (List.mem_of_mem_erase hv) id hs hj
    · rcases List.mem_append.mp hs with hs | hs
      · exact absurd hs stopSelf_notMem_next
      · exact hp.stops w hw id (hmem ▸ List.mem_cons_of_mem task hs) hj

/-- Every message keeps it. -/
lemma deliver (hp : Placed h) (hmain : h.main = m :: ms) : Placed (h.delivered m ms) := by
  have hmem : ∀ m' ∈ ms, m' ∈ h.main := fun m' hm' => hmain ▸ List.mem_cons_of_mem _ hm'
  have hhead : m ∈ h.main := hmain ▸ List.mem_cons_self
  cases m with
  | args i id n action =>
      obtain ⟨hm, hsession, hcurrent, -, hid, -⟩ :=
        onStartCommand_frame { h with main := ms } i id n action
      refine ⟨fun j hj => ?_, fun m hm' => ?_, fun j id' n' a hm' => ?_, fun v hv => ?_,
        fun v hv id' hs hj => ?_⟩
      · rw [delivered, hcurrent] at hj
        rw [delivered, hsession]
        exact hp.beyond j hj
      · rw [delivered, hm] at hm'
        rw [delivered, hcurrent]
        exact hp.messages m (hmem m hm')
      · rw [delivered, hm] at hm'
        rw [delivered, hcurrent, hid]
        exact hp.intents j id' n' a (hmem _ hm')
      · rw [delivered, hcurrent]
        rcases Closing.mem_onStartCommand hv with hv | ⟨hinst, -⟩
        · exact hp.workers v hv
        · rw [hinst]
          exact hp.messages _ hhead
      · rw [delivered, hcurrent] at hj
        rw [delivered, hid]
        rcases Closing.mem_onStartCommand hv with hv | ⟨hinst, -, htasks⟩
        · exact hp.stops v hv id' hs hj
        · rw [htasks] at hs
          cases action with
          | start r => cases List.mem_singleton.mp hs
          | hold => cases List.mem_singleton.mp hs
          | stop =>
              rcases List.mem_pair.mp hs with heq | heq
              · cases heq
              · cases heq
                exact hp.intents i id n .stop hhead (hinst ▸ hj)
  | destroy i n =>
      refine ⟨fun j hj => ?_, fun m' hm' => ?_, fun j id n' a hm' => ?_, hp.workers, hp.stops⟩
      · by_cases hji : j = i
        · rw [hji]
          exact setSession_self _
        · exact (setSession_of_ne (h := h) .down hji).trans (hp.beyond j hj)
      · rcases List.mem_cons.mp hm' with rfl | hm'
        · exact hp.messages (.destroy i n) hhead
        · exact hp.messages m' (hmem m' hm')
      · rcases List.mem_cons.mp hm' with heq | hm'
        · cases heq
        · exact hp.intents j id n' a (hmem _ hm')
  | destroyed i n =>
      exact ⟨hp.beyond, fun m' hm' => hp.messages m' (hmem m' hm'),
        fun j id n' a hm' => hp.intents j id n' a (hmem _ hm'), hp.workers, hp.stops⟩

/-- A new intent has the last start id, and a new instance none before it. -/
lemma startService (hp : Placed h) (action : Action) (n : Nat) :
    Placed (h.startService action n) := by
  rw [Host.startService]
  split
  · refine ⟨hp.beyond, fun m hm => ?_, fun j id n' a hm hj => ?_, hp.workers,
      fun v hv id hs hj => Nat.le_succ_of_le (hp.stops v hv id hs hj)⟩
    · rcases List.mem_append.mp hm with hm | hm
      · exact hp.messages m hm
      · cases List.mem_singleton.mp hm
        exact Nat.le_refl _
    · rcases List.mem_append.mp hm with hm | hm
      · exact Nat.le_succ_of_le (hp.intents j id n' a hm hj)
      · cases List.mem_singleton.mp hm
        exact Nat.le_refl _
  · refine ⟨fun j hj => ?_, fun m hm => ?_, fun j id n' a hm hj => ?_,
      fun v hv => Nat.le_succ_of_le (hp.workers v hv), fun v hv id hs hj => ?_⟩
    · have hlt : h.current + 1 < j := hj
      have hne : j ≠ h.current + 1 := by omega
      have hdown := hp.beyond j (by omega)
      simpa [Function.update_of_ne hne] using hdown
    · rcases List.mem_append.mp hm with hm | hm
      · exact Nat.le_succ_of_le (hp.messages m hm)
      · cases List.mem_singleton.mp hm
        exact Nat.le_refl _
    · rcases List.mem_append.mp hm with hm | hm
      · have hinst : j ≤ h.current := hp.messages _ hm
        have : j = h.current + 1 := hj
        omega
      · cases List.mem_singleton.mp hm
        exact Nat.le_refl _
    · have hinst := hp.workers v hv
      have : v.inst = h.current + 1 := hj
      omega

end Placed

/-! ### The numbers of the commands -/

/-- What is pending is of the newest START or later, but for stops by an earlier
start id. -/
structure Numbered (h : Host) : Prop where
  up : ∀ i n, h.session i = .up n → n ≤ h.newest
  messages : ∀ m ∈ h.main, h.newest ≤ m.cmd
  starts : ∀ i id n r, .args i id n (.start r) ∈ h.main → n ≤ h.newest
  workers : ∀ w ∈ h.workers, w.idle = false → h.newest ≤ w.cmd
  connects : ∀ w ∈ h.workers, (∃ t ∈ w.tasks, t.starts) → w.cmd ≤ h.newest
  stops : ∀ w ∈ h.workers, .stopSelf (some h.startId) ∈ w.tasks → w.inst = h.current →
    h.newest ≤ w.cmd

namespace Numbered

/-- A worker is of the newest START or later, unless it stops by an earlier
start id. -/
lemma newest_le (hn : Numbered h) (hw : w ∈ h.workers) (hmem : w.tasks = task :: rest)
    (htask : ∀ id, task = .stopSelf (some id) → w.inst = h.current ∧ id = h.startId) :
    h.newest ≤ w.cmd := by
  by_cases hidle : w.idle = true
  · obtain ⟨id, hid⟩ := idle_cases hidle
    have htask' : task = .stopSelf (some id) := by
      rw [hmem] at hid
      exact (List.cons.inj hid).1
    obtain ⟨hinst, rfl⟩ := htask id htask'
    exact hn.stops w hw (hid ▸ List.mem_cons_self) hinst
  · exact hn.workers w hw (Bool.of_not_eq_true hidle)

/-- Every task keeps it. -/
lemma run (hn : Numbered h) (hw : w ∈ h.workers) (hmem : w.tasks = task :: rest) :
    Numbered (h.afterTask w o task rest) := by
  obtain ⟨-, hcurrent, hid, hnewest⟩ := h.afterTask_frame w o task rest
  -- a worker that goes on has not been idle
  have hgoes : h.next w o task ++ rest ≠ [] → h.newest ≤ w.cmd := by
    intro hne
    refine hn.workers w hw (Bool.of_not_eq_true fun hidle => ?_)
    obtain ⟨id, hone⟩ := idle_cases hidle
    rw [hmem] at hone
    obtain ⟨rfl, rfl⟩ := List.cons.inj hone
    exact hne rfl
  refine ⟨fun j n hj => ?_, fun m hm => ?_, fun j id n r hm => ?_, fun v hv hidle => ?_,
    fun v hv hs => ?_, fun v hv hs hj => ?_⟩
  · rw [hnewest]
    rcases afterTask_session h w o task rest j with hsame | ⟨-, hdown | hblock | ⟨⟨r, rfl⟩, hup⟩⟩
    · exact hn.up j n (hsame ▸ hj)
    · rw [hdown] at hj
      cases hj
    · rw [hblock] at hj
      cases hj
    · rw [hup] at hj
      cases hj
      exact hn.connects w hw ⟨_, hmem ▸ List.mem_cons_self, rfl⟩
  · rw [hnewest]
    rcases mem_afterTask_main hm with hm | ⟨rfl, htask⟩
    · exact hn.messages m hm
    · exact hn.newest_le hw hmem htask
  · rw [hnewest]
    rcases mem_afterTask_main hm with hm | ⟨heq, -⟩
    · exact hn.starts j id n r hm
    · cases heq
  · rw [hnewest]
    rcases mem_afterTask.mp hv with hv | ⟨hne, rfl⟩
    · exact hn.workers v (List.mem_of_mem_erase hv) hidle
    · exact hgoes hne
  · rw [hnewest]
    rcases mem_afterTask.mp hv with hv | ⟨-, rfl⟩
    · exact hn.connects v (List.mem_of_mem_erase hv) hs
    · refine hn.connects w hw ?_
      obtain ⟨t, ht, hs⟩ := hs
      rw [hmem]
      rcases List.mem_append.mp ht with ht | ht
      · refine ⟨task, List.mem_cons_self, ?_⟩
        by_contra hno
        rw [next_starts (Bool.of_not_eq_true hno) t ht] at hs
        cases hs
      · exact ⟨t, List.mem_cons_of_mem task ht, hs⟩
  · rw [hcurrent] at hj
    rw [hid] at hs
    rw [hnewest]
    rcases mem_afterTask.mp hv with hv | ⟨hne, rfl⟩
    · exact hn.stops v (List.mem_of_mem_erase hv) hs hj
    · exact hgoes hne

/-- Every message keeps it. -/
lemma deliver (hn : Numbered h) (hmain : h.main = m :: ms) : Numbered (h.delivered m ms) := by
  have hmem : ∀ m' ∈ ms, m' ∈ h.main := fun m' hm' => hmain ▸ List.mem_cons_of_mem _ hm'
  have hhead : m ∈ h.main := hmain ▸ List.mem_cons_self
  cases m with
  | args i id n action =>
      obtain ⟨hm, hsession, hcurrent, -, hid, hnewest⟩ :=
        onStartCommand_frame { h with main := ms } i id n action
      refine ⟨fun j n' hj => ?_, fun m hm' => ?_, fun j id' n' r hm' => ?_,
        fun v hv hidle => ?_, fun v hv hs => ?_, fun v hv hs hj => ?_⟩
      · rw [delivered, hsession] at hj
        rw [delivered, hnewest]
        exact hn.up j n' hj
      · rw [delivered, hm] at hm'
        rw [delivered, hnewest]
        exact hn.messages m (hmem m hm')
      · rw [delivered, hm] at hm'
        rw [delivered, hnewest]
        exact hn.starts j id' n' r (hmem _ hm')
      · rw [delivered, hnewest]
        rcases Closing.mem_onStartCommand hv with hv | ⟨-, hcmd, -⟩
        · exact hn.workers v hv hidle
        · rw [hcmd]
          exact hn.messages _ hhead
      · rw [delivered, hnewest]
        rcases Closing.mem_onStartCommand hv with hv | ⟨-, hcmd, htasks⟩
        · exact hn.connects v hv hs
        · obtain ⟨t, ht, hs⟩ := hs
          rw [hcmd]
          rw [htasks] at ht
          cases action with
          | start r => exact hn.starts i id n r hhead
          | stop => rcases List.mem_pair.mp ht with rfl | rfl <;> cases hs
          | hold =>
              cases List.mem_singleton.mp ht
              cases hs
      · rw [delivered, hcurrent] at hj
        rw [delivered, hid] at hs
        rw [delivered, hnewest]
        rcases Closing.mem_onStartCommand hv with hv | ⟨-, hcmd, -⟩
        · exact hn.stops v hv hs hj
        · rw [hcmd]
          exact hn.messages _ hhead
  | destroy i n =>
      refine ⟨fun j n' hj => ?_, fun m' hm' => ?_, fun j id n' r hm' => ?_, hn.workers,
        hn.connects, hn.stops⟩
      · by_cases hji : j = i
        · rw [hji, delivered, setSession_self] at hj
          cases hj
        · exact hn.up j n' ((setSession_of_ne (h := h) .down hji) ▸ hj)
      · rcases List.mem_cons.mp hm' with rfl | hm'
        · exact hn.messages (.destroy i n) hhead
        · exact hn.messages m' (hmem m' hm')
      · rcases List.mem_cons.mp hm' with heq | hm'
        · cases heq
        · exact hn.starts j id n' r (hmem _ hm')
  | destroyed i n =>
      exact ⟨hn.up, fun m' hm' => hn.messages m' (hmem m' hm'),
        fun j id n' r hm' => hn.starts j id n' r (hmem _ hm'), hn.workers, hn.connects, hn.stops⟩

/-- What is up after an intent was up before it. -/
lemma session_startService (hup : (h.startService action n).session j = .up i) :
    h.session j = .up i := by
  rw [Host.startService] at hup
  split at hup
  · exact hup
  · by_cases hj : j = h.current + 1
    · rw [hj] at hup
      simp at hup
    · simpa [Function.update_of_ne hj] using hup

/-- After an intent no start id from before it is the last one. -/
lemma not_last (hp : Placed h) (hv : v ∈ (h.startService action n).workers)
    (hs : .stopSelf (some (h.startService action n).startId) ∈ v.tasks) :
    v.inst ≠ (h.startService action n).current := by
  intro hj
  rw [Host.startService] at hv hs hj
  split at hv
  · rename_i hrunning
    rw [if_pos hrunning] at hs hj
    have hid : h.startId + 1 ≤ h.startId := hp.stops v hv _ hs hj
    omega
  · rename_i hrunning
    rw [if_neg hrunning] at hj
    have hinst := hp.workers v hv
    have : v.inst = h.current + 1 := hj
    omega

/-- A STOP or a HOLD comes behind the newest START. -/
lemma startService (hn : Numbered h) (hp : Placed h) (hle : h.newest ≤ n)
    (haction : ∀ r, action ≠ .start r) : Numbered (h.startService action n) := by
  have hfields : (h.startService action n).newest = h.newest ∧
      (h.startService action n).workers = h.workers ∧
      ∃ i id, (h.startService action n).main = h.main ++ [.args i id n action] := by
    rw [Host.startService]
    split <;> exact ⟨rfl, rfl, _, _, rfl⟩
  obtain ⟨hnewest, hworkers, i, id, hmain⟩ := hfields
  have hmem : ∀ m ∈ (h.startService action n).main, m ∈ h.main ∨ m = .args i id n action := by
    intro m hm
    rw [hmain] at hm
    exact (List.mem_append.mp hm).imp (fun hm => hm) List.mem_singleton.mp
  refine ⟨fun j n' hj => ?_, fun m hm => ?_, fun j id' n' r hm => ?_, ?_, ?_,
    fun v hv hs hj => absurd hj (not_last hp hv hs)⟩
  · rw [hnewest]
    exact hn.up j n' (session_startService hj)
  · rw [hnewest]
    rcases hmem m hm with hm | rfl
    · exact hn.messages m hm
    · exact hle
  · rw [hnewest]
    rcases hmem _ hm with hm | heq
    · exact hn.starts j id' n' r hm
    · cases heq
      exact absurd rfl (haction r)
  · rw [hworkers, hnewest]
    exact hn.workers
  · rw [hworkers, hnewest]
    exact hn.connects

/-- The newest START comes to a service that has nothing else to do. -/
lemma startNewest {r : Bool} (hn : Numbered h) (hp : Placed h) (hfree : h.Free)
    (hle : h.newest ≤ n) : Numbered ({ h with newest := n }.startService (.start r) n) := by
  have hfields : ∃ i id, ({ h with newest := n }.startService (.start r) n).main =
        [.args i id n (.start r)] ∧
      ({ h with newest := n }.startService (.start r) n).newest = n ∧
      ({ h with newest := n }.startService (.start r) n).workers = h.workers := by
    have hnil : ∀ ms : List Message, h.main ++ ms = ms := fun ms => by rw [hfree.1, List.nil_append]
    rw [Host.startService]
    split <;> exact ⟨_, _, hnil _, rfl, rfl⟩
  obtain ⟨i, id, hmain, hnewest, hworkers⟩ := hfields
  have hp' : Placed { h with newest := n } := ⟨hp.1, hp.2, hp.3, hp.4, hp.5⟩
  refine ⟨fun j n' hj => ?_, fun m hm => ?_, fun j id' n' r' hm => ?_, fun v hv hidle => ?_,
    fun v hv hs => ?_, fun v hv hs hj => absurd hj (not_last hp' hv hs)⟩
  · rw [hnewest]
    exact Nat.le_trans (hn.up j n' (session_startService (h := { h with newest := n }) hj)) hle
  · rw [hmain] at hm
    cases List.mem_singleton.mp hm
    exact Nat.le_of_eq hnewest
  · rw [hmain] at hm
    cases List.mem_singleton.mp hm
    exact Nat.le_of_eq hnewest.symm
  · rw [hworkers] at hv
    rw [hfree.2 v hv] at hidle
    cases hidle
  · rw [hworkers] at hv
    obtain ⟨id', hid⟩ := idle_cases (hfree.2 v hv)
    obtain ⟨t, ht, hs⟩ := hs
    rw [hid] at ht
    cases List.mem_singleton.mp ht
    cases hs

end Numbered

end Host

end CumulusVpn.Mobile.Android
