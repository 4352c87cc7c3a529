/-
What the threads of one Android service still owe.

* `Host.ran`, `Host.delivered`: what a task and a message do to their own service;
* `Host.Over`, `Host.Free`: no interface is still to be established, nothing is
  pending but threads that stop the service by a start id;
* `Host.Doomed`, `Host.Closing`: what is up is yet to be torn down;
* `Closing.run`, `Closing.deliver`: every task and every message keep it;
* `Closing.up_of_free`: a service at rest has nothing up but what is spared.
-/
import CumulusVpn.Mobile.VpnService
import Mathlib.Data.List.Perm.Basic

namespace CumulusVpn.Mobile.Android

/-- A task that establishes no interface, and leads to none. -/
def Task.past : Task → Bool
  | .startRoute _ | .connect _ | .caught _ | .hold => false
  | _ => true

/-- A task that reads whether a STOP has come. -/
def Task.reads : Task → Bool
  | .check | .caught _ => true
  | _ => false

/-- A task of a START that has not connected. -/
def Task.starts : Task → Bool
  | .startRoute _ | .connect _ => true
  | _ => false

/-- A worker that only stops the service, by a start id. -/
def Worker.idle (w : Worker) : Bool :=
  match w.tasks with
  | [.stopSelf (some _)] => true
  | _ => false

namespace Message

/-- The instance that a message is about. -/
def inst : Message → Nat
  | .args i _ _ _ => i
  | .destroy i _ => i
  | .destroyed i _ => i

/-- The command that it comes from. -/
def cmd : Message → Nat
  | .args _ _ n _ => n
  | .destroy _ n => n
  | .destroyed _ n => n

/-- A message that starts and holds nothing. -/
def past : Message → Bool
  | .args _ _ _ (.start _) | .args _ _ _ .hold => false
  | _ => true

end Message

namespace Host

variable {h : Host} {w v : Worker} {o : Outcome} {task t : Task} {rest tasks : List Task}
  {m : Message} {ms : List Message} {i j : Nat} {spare : Prop}

/-! ### What a task does to its own service -/

/-- The service after a worker has run its task. -/
def ran (h : Host) (w : Worker) (o : Outcome) : Task → Host
  | .connect _ =>
      match o with
      | .ok => h.setSession w.inst (.up w.cmd)
      | .refused => h
      | .broken => h.setSession w.inst .blocking
  | .hold =>
      if h.stopRequested w.inst then h
      else if o = .ok then h.setSession w.inst .blocking
      else (h.setSession w.inst .down).stopSelf w.inst w.cmd none
  | .teardown => h.setSession w.inst .down
  | .stopSelf startId => h.stopSelf w.inst w.cmd startId
  | _ => h

/-- The service after a task, with the tasks in the place of it. -/
abbrev afterTask (h : Host) (w : Worker) (o : Outcome) (task : Task) (rest : List Task) : Host :=
  ((h.leave w).ran w o task).resume w (h.next w o task ++ rest)

/-- A message of the main thread, to its own service. -/
def delivered (h : Host) (m : Message) (rest : List Message) : Host :=
  match m with
  | .args i startId cmd action => { h with main := rest }.onStartCommand i startId cmd action
  | .destroy i cmd => { h.setSession i .down with main := .destroyed i cmd :: rest }
  | .destroyed _ _ => { h with main := rest }

@[simp] lemma resume_main : (h.resume w tasks).main = h.main := by
  rw [resume]
  split <;> rfl

@[simp] lemma resume_session : (h.resume w tasks).session = h.session := by
  rw [resume]
  split <;> rfl

@[simp] lemma resume_stopRequested : (h.resume w tasks).stopRequested = h.stopRequested := by
  rw [resume]
  split <;> rfl

@[simp] lemma resume_current : (h.resume w tasks).current = h.current := by
  rw [resume]
  split <;> rfl

@[simp] lemma resume_running : (h.resume w tasks).running = h.running := by
  rw [resume]
  split <;> rfl

@[simp] lemma resume_startId : (h.resume w tasks).startId = h.startId := by
  rw [resume]
  split <;> rfl

@[simp] lemma resume_newest : (h.resume w tasks).newest = h.newest := by
  rw [resume]
  split <;> rfl

lemma mem_resume :
    v ∈ (h.resume w tasks).workers ↔
      v ∈ h.workers ∨ tasks ≠ [] ∧ v = { w with tasks := tasks } := by
  rw [resume]
  split
  · simp_all
  · simp_all

@[simp] lemma setSession_self (s : Session) : (h.setSession i s).session i = s := by
  simp [setSession]

lemma setSession_of_ne (s : Session) (hj : j ≠ i) :
    (h.setSession i s).session j = h.session j := by
  simp [setSession, hj]

/-- What `stopSelf` changes. -/
lemma stopSelf_cases (h : Host) (i n : Nat) (id : Option Nat) :
    h.stopSelf i n id = h ∨
      (i = h.current ∧ (id = none ∨ id = some h.startId) ∧
        h.stopSelf i n id = { h with running := false, main := h.main ++ [.destroy i n] }) := by
  by_cases hcond : h.running ∧ i = h.current ∧ (id = none ∨ id = some h.startId)
  · exact Or.inr ⟨hcond.2.1, hcond.2.2, if_pos hcond⟩
  · exact Or.inl (if_neg hcond)

section Ran

/-- A task leaves the fields alone that it does not set. -/
lemma ran_frame (h : Host) (w : Worker) (o : Outcome) (task : Task) :
    (h.ran w o task).workers = h.workers ∧
      (h.ran w o task).stopRequested = h.stopRequested ∧
      (h.ran w o task).current = h.current ∧
      (h.ran w o task).startId = h.startId ∧
      (h.ran w o task).newest = h.newest := by
  have hstop : ∀ (g : Host) (i n : Nat) (id : Option Nat), (g.stopSelf i n id).workers = g.workers ∧
      (g.stopSelf i n id).stopRequested = g.stopRequested ∧
      (g.stopSelf i n id).current = g.current ∧ (g.stopSelf i n id).startId = g.startId ∧
      (g.stopSelf i n id).newest = g.newest := by
    intro g i n id
    rcases g.stopSelf_cases i n id with hsame | ⟨-, -, hsame⟩ <;> rw [hsame] <;> simp
  cases task with
  | connect replacing => cases o <;> exact ⟨rfl, rfl, rfl, rfl, rfl⟩
  | hold =>
      rw [ran]
      split
      · exact ⟨rfl, rfl, rfl, rfl, rfl⟩
      · split
        · exact ⟨rfl, rfl, rfl, rfl, rfl⟩
        · exact hstop (h.setSession w.inst .down) _ _ _
  | stopSelf id => exact hstop h _ _ _
  | startRoute _ | check | caught _ | teardown | report _ => exact ⟨rfl, rfl, rfl, rfl, rfl⟩

/-- And at most it stops the service. -/
lemma ran_main (h : Host) (w : Worker) (o : Outcome) (task : Task) :
    ((h.ran w o task).main = h.main ∧ (h.ran w o task).running = h.running) ∨
      (w.inst = h.current ∧ (h.ran w o task).main = h.main ++ [.destroy w.inst w.cmd] ∧
        (h.ran w o task).running = false) := by
  have hstop : ∀ (g : Host) (id : Option Nat),
      ((g.stopSelf w.inst w.cmd id).main = g.main ∧
        (g.stopSelf w.inst w.cmd id).running = g.running) ∨
      (w.inst = g.current ∧ (g.stopSelf w.inst w.cmd id).main = g.main ++ [.destroy w.inst w.cmd] ∧
        (g.stopSelf w.inst w.cmd id).running = false) := by
    intro g id
    rcases g.stopSelf_cases w.inst w.cmd id with hsame | ⟨hi, -, hsame⟩
    · rw [hsame]
      exact Or.inl ⟨rfl, rfl⟩
    · rw [hsame]
      exact Or.inr ⟨hi, rfl, rfl⟩
  cases task with
  | connect replacing => cases o <;> exact Or.inl ⟨rfl, rfl⟩
  | hold =>
      rw [ran]
      split
      · exact Or.inl ⟨rfl, rfl⟩
      · split
        · exact Or.inl ⟨rfl, rfl⟩
        · exact hstop (h.setSession w.inst .down) none
  | stopSelf id => exact hstop h id
  | startRoute _ | check | caught _ | teardown | report _ => exact Or.inl ⟨rfl, rfl⟩

/-- Another instance is left alone. -/
lemma ran_session_of_ne (hj : j ≠ w.inst) : (h.ran w o task).session j = h.session j := by
  have hset : ∀ s : Session, (h.setSession w.inst s).session j = h.session j := fun s =>
    setSession_of_ne s hj
  cases task with
  | connect replacing =>
      cases o with
      | ok => exact hset _
      | refused => rfl
      | broken => exact hset _
  | hold =>
      rw [ran]
      split
      · rfl
      · split
        · exact hset _
        · rcases (h.setSession w.inst .down).stopSelf_cases w.inst w.cmd none with
            hsame | ⟨-, -, hsame⟩
          · rw [hsame]
            exact hset _
          · rw [hsame]
            exact hset _
  | teardown => exact hset _
  | stopSelf id =>
      rw [ran]
      rcases h.stopSelf_cases w.inst w.cmd id with hsame | ⟨-, -, hsame⟩ <;> rw [hsame]
  | startRoute _ | check | caught _ | report _ => rfl

end Ran

/-! ### What is yet to be torn down -/

/-- No START or HOLD is still to establish its interface. -/
def Over (h : Host) : Prop := (∀ m ∈ h.main, m.past) ∧ ∀ w ∈ h.workers, ∀ t ∈ w.tasks, t.past

/-- Nothing is pending but stops by a start id. -/
def Free (h : Host) : Prop := h.main = [] ∧ ∀ w ∈ h.workers, w.idle

instance (h : Host) : Decidable h.Over := inferInstanceAs (Decidable (_ ∧ _))

instance (h : Host) : Decidable h.Free := inferInstanceAs (Decidable (_ ∧ _))

/-- A STOP of the instance is among the messages. -/
def StopIn (ms : List Message) (i : Nat) : Prop := ∃ id n, .args i id n .stop ∈ ms

/-- A STOP comes behind every other intent. -/
def Ahead : List Message → Prop
  | [] => True
  | m :: ms => (m.past = false → StopIn ms m.inst) ∧ Ahead ms

/-- Something pending tears the instance down. -/
def Doomed (h : Host) (i : Nat) : Prop :=
  StopIn h.main i ∨ (∃ n, .destroy i n ∈ h.main) ∨
    ∃ w ∈ h.workers, w.inst = i ∧
      (.teardown ∈ w.tasks ∨ h.stopRequested i = true ∧ ∃ t ∈ w.tasks, t.reads)

/-- What is up is doomed, or else the current instance is spared, and what is
still to connect or to hold sees a STOP. -/
structure Closing (h : Host) (spare : Prop) : Prop where
  ahead : Ahead h.main
  connects : ∀ w ∈ h.workers, (∃ t ∈ w.tasks, t.past = false) →
    h.stopRequested w.inst = true ∨ StopIn h.main w.inst
  doomed : ∀ i, h.session i ≠ .down →
    h.Doomed i ∨ (i = h.current ∧ h.running = true ∧ spare)

lemma StopIn.mono {ms' : List Message} (hs : StopIn ms i) (hsub : ms ⊆ ms') : StopIn ms' i := by
  obtain ⟨id, n, hmem⟩ := hs
  exact ⟨id, n, hsub hmem⟩

lemma Ahead.append (ha : Ahead ms) (hm : m.past = true) : Ahead (ms ++ [m]) := by
  induction ms with
  | nil => exact ⟨fun hno => by simp [hm] at hno, trivial⟩
  | cons m' ms ih =>
      exact ⟨fun hno => (ha.1 hno).mono (List.subset_append_left ms [m]), ih ha.2⟩

lemma Ahead.of_past (hpast : ∀ m ∈ ms, m.past) : Ahead ms := by
  induction ms with
  | nil => trivial
  | cons m ms ih =>
      refine ⟨fun hno => ?_, ih fun m' hm' => hpast m' (List.mem_cons_of_mem m hm')⟩
      rw [hpast m List.mem_cons_self] at hno
      cases hno

/-- What a past task leads to is past. -/
lemma next_past (ht : task.past = true) : ∀ t ∈ h.next w o task, t.past = true := by
  cases task with
  | check =>
      rw [next]
      split <;> simp [Task.past]
  | startRoute _ | connect _ | caught _ | hold => cases ht
  | teardown | report _ | stopSelf _ => simp [next]

namespace Doomed

/-- What is doomed stays so while a task runs that does not tear it down. -/
lemma run (hd : h.Doomed j) (hmem : w.tasks = task :: rest)
    (htask : w.inst = j → task ≠ .teardown) :
    (h.afterTask w o task rest).Doomed j := by
  obtain ⟨hworkers, hstop, hcurrent, -, -⟩ := (h.leave w).ran_frame w o task
  have hmain : h.main ⊆ ((h.leave w).ran w o task).main := by
    rcases (h.leave w).ran_main w o task with ⟨hsame, -⟩ | ⟨-, hsame, -⟩
    · rw [hsame]
      exact List.Subset.refl _
    · rw [hsame]
      exact List.subset_append_left _ _
  rcases hd with hs | ⟨n, hn⟩ | ⟨v, hv, hinst, hv'⟩
  · exact Or.inl (by simpa using hs.mono hmain)
  · exact Or.inr (Or.inl ⟨n, by simpa using hmain hn⟩)
  · refine Or.inr (Or.inr ?_)
    by_cases hvw : v = w
    · subst hvw
      -- the worker goes on with what the task leads to
      have hgoes : .teardown ∈ h.next v o task ++ rest ∨
          h.stopRequested j = true ∧ ∃ t ∈ h.next v o task ++ rest, t.reads = true := by
        rw [hmem] at hv'
        rcases hv' with htear | ⟨hreq, t, ht, hreads⟩
        · rcases List.mem_cons.mp htear with heq | htear
          · exact absurd heq.symm (htask hinst)
          · exact Or.inl (List.mem_append_right _ htear)
        · rcases List.mem_cons.mp ht with rfl | ht
          · cases t with
            | check => exact Or.inl (by simp [next, hinst, hreq])
            | caught r => exact Or.inl (by simp [next, hinst, hreq])
            | startRoute _ | connect _ | hold | teardown | report _ | stopSelf _ => cases hreads
          · exact Or.inr ⟨hreq, t, List.mem_append_right _ ht, hreads⟩
      have hne : h.next v o task ++ rest ≠ [] := by
        intro hnil
        rw [hnil] at hgoes
        simp at hgoes
      refine ⟨{ v with tasks := h.next v o task ++ rest }, mem_resume.mpr (Or.inr ⟨hne, rfl⟩),
        hinst, ?_⟩
      rw [resume_stopRequested, hstop]
      exact hgoes
    · refine ⟨v, mem_resume.mpr (Or.inl ?_), hinst, ?_⟩
      · rw [hworkers]
        exact (List.mem_erase_of_ne hvw).mpr hv
      · rw [resume_stopRequested, hstop]
        exact hv'

end Doomed

namespace Closing

variable {g : Host}

/-- The messages stay, besides a new one that stops the service. -/
lemma subset_main (g : Host) (w : Worker) (o : Outcome) (task : Task) :
    g.main ⊆ ((g.leave w).ran w o task).main := by
  rcases (g.leave w).ran_main w o task with ⟨hsame, -⟩ | ⟨-, hsame, -⟩
  · rw [hsame]
    exact List.Subset.refl _
  · rw [hsame]
    exact List.subset_append_left _ _

/-- What a task leaves up, or was up before, stays doomed or spared. -/
lemma run_kept (hc : Closing g spare) (hmem : w.tasks = task :: rest)
    (hup : g.session j ≠ .down) (htask : w.inst = j → task ≠ .teardown) :
    (g.afterTask w o task rest).Doomed j ∨
      (j = g.current ∧ ((g.leave w).ran w o task).running = true ∧ spare) := by
  rcases hc.doomed j hup with hd | ⟨hj, hrunning, hspare⟩
  · exact Or.inl (hd.run hmem htask)
  · rcases (g.leave w).ran_main w o task with ⟨-, hsame⟩ | ⟨hi, hdestroy, -⟩
    · exact Or.inr ⟨hj, hsame.trans hrunning, hspare⟩
    · have hinst : w.inst = j := hi.trans hj.symm
      refine Or.inl (Or.inr (Or.inl ⟨w.cmd, ?_⟩))
      rw [resume_main, hdestroy, hinst]
      exact List.mem_append_right _ List.mem_cons_self

lemma run_doomed (hc : Closing g spare) (hw : w ∈ g.workers) (hmem : w.tasks = task :: rest)
    (hup : ((g.leave w).ran w o task).session j ≠ .down) :
    (g.afterTask w o task rest).Doomed j ∨
      (j = g.current ∧ ((g.leave w).ran w o task).running = true ∧ spare) := by
  by_cases hj : w.inst = j
  · have hahead : StopIn g.main j →
        (g.afterTask w o task rest).Doomed j := fun hs =>
      Or.inl (by simpa using hs.mono (subset_main g w o task))
    cases task with
    | connect replacing =>
        refine Or.inl ?_
        rcases hc.connects w hw ⟨_, hmem ▸ List.mem_cons_self, rfl⟩ with hreq | hs
        · -- the START sees that a STOP has come
          refine Or.inr (Or.inr ⟨_, mem_resume.mpr (Or.inr ⟨?_, rfl⟩), hj, Or.inr ⟨?_, ?_⟩⟩)
          · cases o <;> simp [next]
          · rw [resume_stopRequested, ((g.leave w).ran_frame w o _).2.1, ← hj]
            exact hreq
          · cases o <;> simp [next, Task.reads]
        · exact hahead (hj ▸ hs)
    | hold =>
        by_cases hreq : g.stopRequested w.inst = true
        · have hsame : (g.leave w).ran w o .hold = g.leave w := if_pos hreq
          rw [hsame] at hup
          exact hc.run_kept hmem hup fun _ => nofun
        · rcases hc.connects w hw ⟨_, hmem ▸ List.mem_cons_self, rfl⟩ with hno | hs
          · exact absurd hno hreq
          · exact Or.inl (hahead (hj ▸ hs))
    | teardown => exact absurd (hj ▸ setSession_self .down) hup
    | stopSelf id =>
        have hsame : ((g.leave w).ran w o (.stopSelf id)).session j = g.session j := by
          rw [ran]
          rcases (g.leave w).stopSelf_cases w.inst w.cmd id with hs | ⟨-, -, hs⟩ <;> rw [hs] <;> rfl
        exact hc.run_kept hmem (hsame ▸ hup) fun _ => nofun
    | startRoute _ | check | caught _ | report _ => exact hc.run_kept hmem hup fun _ => nofun
  · rw [ran_session_of_ne fun hno => hj hno.symm] at hup
    exact hc.run_kept hmem hup fun hno => absurd hno hj

/-- Every task keeps it. -/
lemma run (hc : Closing g spare) (hw : w ∈ g.workers) (hmem : w.tasks = task :: rest) :
    Closing (g.afterTask w o task rest) spare := by
  obtain ⟨hworkers, hstop, hcurrent, -, -⟩ := (g.leave w).ran_frame w o task
  refine ⟨?_, fun v hv hpast => ?_, fun j hup => ?_⟩
  · rw [resume_main]
    rcases (g.leave w).ran_main w o task with ⟨hsame, -⟩ | ⟨-, hsame, -⟩
    · rw [hsame]
      exact hc.ahead
    · rw [hsame]
      exact hc.ahead.append rfl
  · have hold : g.stopRequested v.inst = true ∨ StopIn g.main v.inst := by
      rcases mem_resume.mp hv with hv | ⟨-, rfl⟩
      · rw [hworkers] at hv
        exact hc.connects v (List.mem_of_mem_erase hv) hpast
      · obtain ⟨t, ht, hpast⟩ := hpast
        refine hc.connects w hw ?_
        rcases List.mem_append.mp ht with ht | ht
        · refine ⟨task, hmem ▸ List.mem_cons_self, ?_⟩
          by_contra hno
          rw [next_past (Bool.of_not_eq_false hno) t ht] at hpast
          cases hpast
        · exact ⟨t, hmem ▸ List.mem_cons_of_mem task ht, hpast⟩
    rw [resume_stopRequested, hstop, resume_main]
    exact hold.imp id fun hs => hs.mono (subset_main g w o task)
  · rw [resume_session] at hup
    rw [resume_current, resume_running, hcurrent]
    exact hc.run_doomed hw hmem hup

/-- The thread of an intent. -/
lemma mem_onStartCommand {id n : Nat} {action : Action}
    (hv : v ∈ (g.onStartCommand i id n action).workers) :
    v ∈ g.workers ∨ v.inst = i ∧ v.cmd = n ∧ v.tasks = match action with
      | .start replaces => [.startRoute replaces]
      | .stop => [.teardown, .stopSelf (some id)]
      | .hold => [.hold] := by
  cases action <;> rcases mem_resume.mp hv with hv | ⟨-, rfl⟩
  all_goals first | exact Or.inl hv | exact Or.inr ⟨rfl, rfl, rfl⟩

/-- A STOP of the instance is delivered. -/
lemma deliver_stop {id n : Nat} (hc : Closing g spare) (hmain : g.main = .args i id n .stop :: ms) :
    Closing (g.delivered (.args i id n .stop) ms) spare := by
  have hreq : ∀ k, g.stopRequested k = true → Function.update g.stopRequested i true k = true := by
    intro k hk
    by_cases hki : k = i
    · rw [hki, Function.update_self]
    · rw [Function.update_of_ne hki, hk]
  have hgone : ∀ k, StopIn g.main k → k = i ∨ StopIn ms k := by
    rintro k ⟨id', n', hmem⟩
    rw [hmain] at hmem
    rcases List.mem_cons.mp hmem with heq | hmem
    · cases heq
      exact Or.inl rfl
    · exact Or.inr ⟨id', n', hmem⟩
  refine ⟨?_, fun v hv hpast => ?_, fun j hup => ?_⟩
  · have hahead := hc.ahead
    rw [hmain] at hahead
    exact hahead.2
  · rcases mem_onStartCommand hv with hv | ⟨-, -, htasks⟩
    · rcases hc.connects v hv hpast with hstop | hs
      · exact Or.inl (hreq _ hstop)
      · rcases hgone _ hs with heq | hs
        · exact Or.inl (by simp [delivered, onStartCommand, heq])
        · exact Or.inr hs
    · obtain ⟨t, ht, hpast⟩ := hpast
      rw [htasks] at ht
      rcases List.mem_pair.mp ht with rfl | rfl <;> cases hpast
  · have hnew : (g.delivered (.args i id n .stop) ms).Doomed i :=
      Or.inr (Or.inr ⟨⟨i, n, [.teardown, .stopSelf (some id)]⟩,
        mem_resume.mpr (Or.inr ⟨List.cons_ne_nil _ _, rfl⟩), rfl, Or.inl List.mem_cons_self⟩)
    refine (hc.doomed j hup).imp (fun hd => ?_) (fun hs => hs)
    rcases hd with hs | ⟨n', hn⟩ | ⟨v, hv, hinst, htasks⟩
    · rcases hgone j hs with rfl | hs
      · exact hnew
      · exact Or.inl hs
    · rw [hmain] at hn
      rcases List.mem_cons.mp hn with heq | hn
      · cases heq
      · exact Or.inr (Or.inl ⟨n', hn⟩)
    · refine Or.inr (Or.inr ⟨v, mem_resume.mpr (Or.inl hv), hinst, ?_⟩)
      exact htasks.imp (fun ht => ht) fun hr => ⟨hreq j hr.1, hr.2⟩

/-- Another intent is delivered, with the STOP behind it still to come. -/
lemma deliver_intent {id n : Nat} {action : Action} (hc : Closing g spare)
    (hmain : g.main = .args i id n action :: ms)
    (hpast : (Message.args i id n action).past = false) :
    Closing (g.delivered (.args i id n action) ms) spare := by
  have hahead := hc.ahead
  rw [hmain] at hahead
  have hstop : StopIn ms i := hahead.1 hpast
  have hmain' : (g.delivered (.args i id n action) ms).main = ms := by
    cases action <;> exact resume_main
  have hreq : ∀ k, k ≠ i →
      (g.delivered (.args i id n action) ms).stopRequested k = g.stopRequested k := by
    intro k hk
    cases action <;> simp [delivered, onStartCommand, hk]
  have hrest : ∀ k, StopIn g.main k → StopIn ms k := by
    rintro k ⟨id', n', hmem⟩
    rw [hmain] at hmem
    rcases List.mem_cons.mp hmem with heq | hmem
    · cases heq
      cases hpast
    · exact ⟨id', n', hmem⟩
  have hworkers : ∀ v ∈ g.workers, v ∈ (g.delivered (.args i id n action) ms).workers := by
    intro v hv
    cases action <;> exact mem_resume.mpr (Or.inl hv)
  have hsame : (g.delivered (.args i id n action) ms).session = g.session ∧
      (g.delivered (.args i id n action) ms).current = g.current ∧
      (g.delivered (.args i id n action) ms).running = g.running := by
    cases action <;> simp [delivered, onStartCommand]
  refine ⟨?_, fun v hv hp => ?_, fun j hup => ?_⟩
  · rw [hmain']
    exact hahead.2
  · rw [hmain']
    by_cases hi : v.inst = i
    · exact Or.inr (hi ▸ hstop)
    · rcases mem_onStartCommand hv with hv | ⟨hinst, -⟩
      · rw [hreq _ hi]
        exact (hc.connects v hv hp).imp (fun hr => hr) (hrest _)
      · exact absurd hinst hi
  · rw [hsame.1] at hup
    rw [hsame.2.1, hsame.2.2]
    by_cases hj : j = i
    · exact Or.inl (Or.inl (by rw [hmain', hj]; exact hstop))
    · refine (hc.doomed j hup).imp (fun hd => ?_) (fun hs => hs)
      rcases hd with hs | ⟨n', hn⟩ | ⟨v, hv, hinst, htasks⟩
      · exact Or.inl (by rw [hmain']; exact hrest j hs)
      · rw [hmain] at hn
        rcases List.mem_cons.mp hn with heq | hn
        · cases heq
        · exact Or.inr (Or.inl ⟨n', by rw [hmain']; exact hn⟩)
      · refine Or.inr (Or.inr ⟨v, hworkers v hv, hinst, ?_⟩)
        rw [hreq j hj]
        exact htasks

/-- What is doomed by another message than the first. -/
lemma doomed_rest {ms' : List Message} (hmain : g.main = m :: ms) (hd : g.Doomed j)
    (hpast : ∀ id n, m ≠ .args j id n .stop) (hdestroy : ∀ n, m ≠ .destroy j n)
    (hsub : ms ⊆ ms') {session : Nat → Session} :
    ({ g with main := ms', session := session } : Host).Doomed j := by
  rcases hd with ⟨id, n, hmem⟩ | ⟨n, hn⟩ | hv
  · rw [hmain] at hmem
    rcases List.mem_cons.mp hmem with heq | hmem
    · exact absurd heq.symm (hpast id n)
    · exact Or.inl ⟨id, n, hsub hmem⟩
  · rw [hmain] at hn
    rcases List.mem_cons.mp hn with heq | hn
    · exact absurd heq.symm (hdestroy n)
    · exact Or.inr (Or.inl ⟨n, hsub hn⟩)
  · exact Or.inr (Or.inr hv)

lemma deliver_destroy {n : Nat} (hc : Closing g spare) (hmain : g.main = .destroy i n :: ms) :
    Closing (g.delivered (.destroy i n) ms) spare := by
  have hahead := hc.ahead
  rw [hmain] at hahead
  have hrest : ∀ k, StopIn g.main k → StopIn (.destroyed i n :: ms) k := by
    rintro k ⟨id', n', hmem⟩
    rw [hmain] at hmem
    rcases List.mem_cons.mp hmem with heq | hmem
    · cases heq
    · exact ⟨id', n', List.mem_cons_of_mem _ hmem⟩
  refine ⟨⟨nofun, hahead.2⟩, fun v hv hp => (hc.connects v hv hp).imp (fun hr => hr) (hrest _),
    fun j hup => ?_⟩
  by_cases hj : j = i
  · exact absurd (hj ▸ setSession_self .down) hup
  · refine (hc.doomed j ?_).imp (fun hd => ?_) (fun hs => hs)
    · exact (setSession_of_ne (h := g) .down hj) ▸ hup
    · exact doomed_rest hmain hd nofun (fun n' heq => hj (by cases heq; rfl))
        (List.subset_cons_self _ _)

lemma deliver_destroyed {n : Nat} (hc : Closing g spare) (hmain : g.main = .destroyed i n :: ms) :
    Closing (g.delivered (.destroyed i n) ms) spare := by
  have hahead := hc.ahead
  rw [hmain] at hahead
  refine ⟨hahead.2, fun v hv hp => (hc.connects v hv hp).imp (fun hr => hr) ?_, fun j hup =>
    (hc.doomed j hup).imp (fun hd => ?_) (fun hs => hs)⟩
  rotate_left
  · exact doomed_rest hmain hd nofun nofun (List.Subset.refl _)
  rintro ⟨id', n', hmem⟩
  rw [hmain] at hmem
  rcases List.mem_cons.mp hmem with heq | hmem
  · cases heq
  · exact ⟨id', n', hmem⟩

/-- Every message keeps it. -/
lemma deliver (hc : Closing g spare) (hmain : g.main = m :: ms) :
    Closing (g.delivered m ms) spare := by
  cases m with
  | args i id n action =>
      cases action with
      | stop => exact hc.deliver_stop hmain
      | start replaces => exact hc.deliver_intent hmain rfl
      | hold => exact hc.deliver_intent hmain rfl
  | destroy i n => exact hc.deliver_destroy hmain
  | destroyed i n => exact hc.deliver_destroyed hmain

/-- Where nothing is pending that tears down, nothing is up but what is spared. -/
lemma up_of_free (hc : Closing g spare) (hfree : g.Free) (hup : g.session j ≠ .down) :
    j = g.current ∧ g.running = true ∧ spare := by
  rcases hc.doomed j hup with (⟨id, n, hmem⟩ | ⟨n, hmem⟩ | ⟨v, hv, -, htasks⟩) | hspare
  · rw [hfree.1] at hmem
    cases hmem
  · rw [hfree.1] at hmem
    cases hmem
  · have hidle := hfree.2 v hv
    rw [Worker.idle] at hidle
    split at hidle
    · rename_i id htask
      rw [htask] at htasks
      rcases htasks with htear | ⟨-, t, ht, hreads⟩
      · cases List.mem_singleton.mp htear
      · rw [List.mem_singleton.mp ht] at hreads
        cases hreads
    · cases hidle
  · exact hspare

/-- And nothing at all where nothing is spared. -/
lemma down_of_free (hc : Closing g False) (hfree : g.Free) (j : Nat) : g.session j = .down := by
  by_contra hup
  exact (hc.up_of_free hfree hup).2.2

end Closing

end Host

end CumulusVpn.Mobile.Android
