/-
The connects in flight.

The hook keeps a sweep for every connect that has not come to its end.  Only
the newest is not aborted, and a sweep has a command queued only while it
waits for it.

* `Manager.Answer`: how a connect leaves the manager; `answer_connect`,
  `answer_connectMultihop`;
* `App.Shape`: the registry of the connects in flight;
* `Shape.step`: **it holds along every run**.
-/
import CumulusVpn.Desktop.App
import Mathlib.Data.List.Nodup

namespace CumulusVpn.Desktop

open StepSystem

namespace Manager

/-! ### How a connect leaves the manager -/

/-- A connect is refused, stopped by its first engage, unwound, or up. -/
inductive Answer (m : Manager) (admitted : Bool) : Reply × Manager → Prop
  | refused (e : TunnelError) (hrefused : admitted = false) : Answer m admitted (.error e, m)
  | stopped (m' : Manager) (hstate : m'.inner.state = .connecting) :
      Answer m admitted (.error (.killSwitch "failed to engage"), m')
  | failed (e : TunnelError) (m' : Manager) (hstate : m'.inner.state = .error) :
      Answer m admitted (.error e, m')
  | up (st : TunnelStatus) (m' : Manager) (hstate : m'.inner.state = .up) :
      Answer m admitted (.ok st, m')

section Answers

variable {m₀ m : Manager} {admitted : Bool}

lemma answer_unwindSidecar (dev : String) (bridge : Option String) (e : TunnelError) :
    Answer m₀ admitted (unwindSidecar m dev bridge e) := .failed _ _ rfl

lemma answer_unwindMultihop (exitIp entryIp : String) (entry exit_ : Option String)
    (routed : Bool) (e : TunnelError) :
    Answer m₀ admitted (unwindMultihop m exitIp entryIp entry exit_ routed e) := .failed _ _ rfl

lemma answer_installSession (c : Checks) (a : Answers) (r : ConnectRequest) (config : WgConfig)
    (dev : String) (bridge : Option String) :
    Answer m₀ admitted (installSession c a r config dev bridge m) := by
  simp only [installSession]
  split
  · exact answer_unwindSidecar _ _ _
  · split
    · exact answer_unwindSidecar _ _ _
    · exact .up _ _ rfl

lemma answer_bringUp (c : Checks) (a : Answers) (r : ConnectRequest) (config : WgConfig)
    (bridge : Option String) : Answer m₀ admitted (bringUp c a r config bridge m) := by
  simp only [bringUp]
  split
  · exact .failed _ _ rfl
  · split
    · exact answer_unwindSidecar _ _ _
    · split
      · exact answer_unwindSidecar _ _ _
      · exact answer_installSession _ _ _ _ _ _

/-- An engage that fails says so, and leaves the state as it is. -/
lemma engageFirst_error {m m' : Manager} {killSwitch : Bool} {bypass : List String}
    {a : EngageAnswer} {e : TunnelError} (h : m.engageFirst killSwitch bypass a = (.error e, m')) :
    e = .killSwitch "failed to engage" ∧ m'.inner = m.inner := by
  rw [engageFirst] at h
  split at h
  · split at h
    · cases h
    · cases h
      exact ⟨rfl, rfl⟩
  · cases h

/-- **How `connect` leaves the manager.** -/
lemma answer_connect (c : Checks) (a : Answers) (r : ConnectRequest) (m : Manager) :
    Answer m (c.accept r).isOk (connect c a r m) := by
  rw [connect]
  rcases haccept : c.accept r with e | config
  · exact .refused _ rfl
  · dsimp only
    split
    · rename_i e m' heq
      obtain ⟨rfl, hinner⟩ := engageFirst_error heq
      exact .stopped _ (by rw [hinner]; rfl)
    · split
      · exact answer_bringUp _ _ _ _ _
      · split
        · exact .failed _ _ rfl
        · exact answer_bringUp _ _ _ _ _

lemma answer_installMultihop (c : Checks) (a : Answers) (r : MultihopRequest)
    (innerCfg : WgConfig) (entry exit_ : String) :
    Answer m₀ admitted (installMultihop c a r innerCfg entry exit_ m) := by
  simp only [installMultihop]
  split
  · exact answer_unwindMultihop _ _ _ _ _ _
  · split
    · exact answer_unwindMultihop _ _ _ _ _ _
    · split
      · exact answer_unwindMultihop _ _ _ _ _ _
      · exact .up _ _ rfl

lemma answer_bringUpExit (c : Checks) (a : Answers) (r : MultihopRequest) (innerCfg : WgConfig)
    (entry : String) : Answer m₀ admitted (bringUpExit c a r innerCfg entry m) := by
  simp only [bringUpExit]
  split
  · exact answer_unwindMultihop _ _ _ _ _ _
  · split
    · exact answer_unwindMultihop _ _ _ _ _ _
    · split
      · exact answer_unwindMultihop _ _ _ _ _ _
      · exact answer_installMultihop _ _ _ _ _ _

lemma answer_bringUpEntry (c : Checks) (a : Answers) (r : MultihopRequest)
    (innerCfg : WgConfig) : Answer m₀ admitted (bringUpEntry c a r innerCfg m) := by
  simp only [bringUpEntry]
  split
  · exact answer_unwindMultihop _ _ _ _ _ _
  · split
    · exact answer_unwindMultihop _ _ _ _ _ _
    · split
      · exact answer_unwindMultihop _ _ _ _ _ _
      · exact answer_bringUpExit _ _ _ _ _

/-- **How `connect_multihop` leaves the manager.** -/
lemma answer_connectMultihop (c : Checks) (a : Answers) (r : MultihopRequest) (m : Manager) :
    Answer m (c.acceptMultihop r).isOk (connectMultihop c a r m) := by
  rw [connectMultihop]
  rcases haccept : c.acceptMultihop r with e | innerCfg
  · exact .refused _ rfl
  · dsimp only
    split
    · rename_i e m' heq
      obtain ⟨rfl, hinner⟩ := engageFirst_error heq
      exact .stopped _ (by rw [hinner]; rfl)
    · exact answer_bringUpEntry _ _ _ _

end Answers

lemma state_refreshStats (i : Inner) (stats : Option WgStats) :
    (refreshStats i stats).state = i.state := by
  simp only [refreshStats]
  split <;> rfl

/-- A poll reports the state that it leaves, and at most flips a tunnel that
is up to `Error`. -/
lemma state_status (m : Manager) (a : StatusAnswers) :
    (m.status a).1.state = (m.status a).2.inner.state ∧
    ((m.status a).2.inner.state = m.inner.state ∨
      (m.inner.state = .up ∧ (m.status a).2.inner.state = .error)) := by
  rw [status]
  split
  · rename_i hup
    refine ⟨rfl, ?_⟩
    have hrepair : (m.repairAfterRoam a).inner.state = .up ∨
        (m.repairAfterRoam a).inner.state = .error := by
      rw [repairAfterRoam]
      split
      · dsimp only
        split
        · exact Or.inl hup
        · split
          · exact Or.inr rfl
          · split
            · exact Or.inl hup
            · split
              · exact Or.inl hup
              · exact Or.inl hup
      · exact Or.inl hup
    have hdns : ∀ m₁ : Manager, (m₁.reassertDns a).inner.state = m₁.inner.state := by
      intro m₁
      rw [reassertDns]
      split <;> rfl
    have hwatch : ∀ i : Inner, (watchdog a i).state = i.state ∨ (watchdog a i).state = .error := by
      intro i
      rw [watchdog]
      split
      · exact Or.inr rfl
      · exact Or.inl rfl
    rw [hup]
    rcases hwatch (refreshStats ((m.repairAfterRoam a).reassertDns a).inner a.stats) with
      hsame | herror
    · rw [state_refreshStats, hdns] at hsame
      rcases hrepair with hkept | hroamed
      · exact Or.inl (hsame.trans hkept)
      · exact Or.inr ⟨rfl, hsame.trans hroamed⟩
    · exact Or.inr ⟨rfl, herror⟩
  · exact ⟨rfl, Or.inl rfl⟩

end Manager

/-! ### The connects in flight -/

/-- A sweep that waits for a command of its own. -/
def Await.pending : Await → Bool
  | .command _ _ | .teardown | .hopsCommand => true
  | .network | .probe _ _ | .hops => false

/-- The sweep waits for the probe of a session that is up. -/
def Await.isProbe : Await → Bool
  | .probe _ _ => true
  | _ => false

namespace Command

/-- The sweep that a command answers to. -/
def owner : Command → Option Nat
  | .connect id _ => some id
  | .connectMultihop id _ => some id
  | .teardown id => some id
  | .disconnect _ => none
  | .status => none

/-- The command is what the await waits for. -/
def Awaited : Command → Await → Prop
  | .connect _ _, .command _ _ => True
  | .connectMultihop _ _, .hopsCommand => True
  | .teardown _, .teardown => True
  | _, _ => False

lemma not_awaited {cmd : Command} {await : Await} (h : await.pending = false) :
    ¬ cmd.Awaited await := by
  cases await with
  | network => cases cmd <;> exact id
  | probe i chain => cases cmd <;> exact id
  | hops => cases cmd <;> exact id
  | command i chain => cases h
  | teardown => cases h
  | hopsCommand => cases h

/-- At most one command of a sweep is queued. -/
def Apart (x y : Command) : Prop := x.owner = none ∨ x.owner ≠ y.owner

end Command

namespace App

/-- The registry of the connects in flight: only the sweep that the hook holds
is not aborted, and a sweep has a command queued only while it waits for
it. -/
structure Shape (s : App) : Prop where
  bound : ∀ w ∈ s.sweeps, w.id < s.nextSweep
  nodup : (s.sweeps.map Sweep.id).Nodup
  current : ∀ w ∈ s.sweeps, w.aborted = false → s.sweepRef = some w.id
  owned : ∀ cmd ∈ s.queue, ∀ id ∈ cmd.owner, ∃ w ∈ s.sweeps, w.id = id ∧ cmd.Awaited w.await
  single : s.queue.Pairwise Command.Apart

/-- No command of the sweep is queued. -/
def Free (s : App) (id : Nat) : Prop := ∀ cmd ∈ s.queue, cmd.owner ≠ some id

namespace Shape

variable {s : App}

lemma unique (h : s.Shape) {v w : Sweep} (hv : v ∈ s.sweeps) (hw : w ∈ s.sweeps)
    (hid : v.id = w.id) : v = w := List.inj_on_of_nodup_map h.nodup hv hw hid

/-- A sweep that waits for no command has none queued. -/
lemma free (h : s.Shape) {w : Sweep} (hw : w ∈ s.sweeps) {await : Await}
    (hawait : w.await = await) (hpending : await.pending = false) : s.Free w.id := by
  intro cmd hcmd howner
  obtain ⟨v, hv, hid, hawaited⟩ := h.owned cmd hcmd w.id howner
  rw [h.unique hv hw hid, hawait] at hawaited
  exact Command.not_awaited hpending hawaited

lemma setPhase (h : s.Shape) (phase : Phase) : (s.setPhase phase).Shape := by
  obtain ⟨-, -, href, hsweeps, hnext, hqueue, -⟩ := s.frame_setPhase phase
  refine ⟨?_, ?_, ?_, ?_, ?_⟩
  · rw [hsweeps, hnext]
    exact h.bound
  · rw [hsweeps]
    exact h.nodup
  · rw [hsweeps, href]
    exact h.current
  · rw [hqueue, hsweeps]
    exact h.owned
  · rw [hqueue]
    exact h.single

/-- A sweep leaves the registry. -/
lemma remove (h : s.Shape) {id : Nat} (hfree : s.Free id) :
    ({ s with sweeps := s.sweeps.filter fun w => w.id ≠ id } : App).Shape := by
  refine ⟨?_, h.nodup.sublist (List.filter_sublist.map _), ?_, ?_, h.single⟩
  · intro w hw
    exact h.bound w (List.mem_filter.mp hw).1
  · intro w hw hab
    exact h.current w (List.mem_filter.mp hw).1 hab
  · intro cmd hcmd id' hid'
    obtain ⟨w, hw, hwid, hawaited⟩ := h.owned cmd hcmd id' hid'
    refine ⟨w, List.mem_filter.mpr ⟨hw, ?_⟩, hwid, hawaited⟩
    have hne : w.id ≠ id := by
      rintro rfl
      exact hfree cmd hcmd (hwid ▸ hid')
    exact decide_eq_true hne

lemma settle (h : s.Shape) {id : Nat} (hfree : s.Free id) (phase : Phase) :
    (s.settle id phase).Shape := by
  have heq : s.settle id phase = { s.setPhase phase with
      sweeps := (s.setPhase phase).sweeps.filter fun w => w.id ≠ id } := by
    rw [(s.frame_setPhase phase).2.2.2.1]
    rfl
  have hfree' : (s.setPhase phase).Free id := by
    rw [Free, (s.frame_setPhase phase).2.2.2.2.2.1]
    exact hfree
  rw [heq]
  exact (h.setPhase phase).remove hfree'

lemma setAwait (h : s.Shape) {w : Sweep} (hw : w ∈ s.sweeps) (hfree : s.Free w.id)
    (await : Await) {commands : List Command}
    (hcommands : commands = [] ∨
      ∃ cmd : Command, commands = [cmd] ∧ cmd.owner = some w.id ∧ cmd.Awaited await) :
    (s.setAwait w.id await commands).Shape := by
  have hmap : ∀ v ∈ s.sweeps, ∃ v' ∈ (s.setAwait w.id await commands).sweeps,
      v'.id = v.id ∧ (v.id = w.id → v'.await = await) ∧ (v.id ≠ w.id → v' = v) := by
    intro v hv
    refine ⟨_, List.mem_map.mpr ⟨v, hv, rfl⟩, ?_, ?_, ?_⟩
    · split <;> rfl
    · intro heq
      rw [if_pos heq]
    · intro hne
      rw [if_neg hne]
  have hids : (s.setAwait w.id await commands).sweeps.map Sweep.id = s.sweeps.map Sweep.id := by
    rw [App.setAwait, List.map_map]
    refine List.map_congr_left fun v _ => ?_
    rw [Function.comp_apply]
    split <;> rfl
  have hold : ∀ v' ∈ (s.setAwait w.id await commands).sweeps,
      ∃ v ∈ s.sweeps, v'.id = v.id ∧ v'.aborted = v.aborted := by
    intro v' hv'
    obtain ⟨v, hv, rfl⟩ := List.mem_map.mp hv'
    refine ⟨v, hv, ?_⟩
    split <;> exact ⟨rfl, rfl⟩
  refine ⟨?_, hids ▸ h.nodup, ?_, ?_, ?_⟩
  · intro v' hv'
    obtain ⟨v, hv, hid, -⟩ := hold v' hv'
    rw [hid]
    exact h.bound v hv
  · intro v' hv' hab
    obtain ⟨v, hv, hid, habv⟩ := hold v' hv'
    rw [hid]
    exact h.current v hv (habv ▸ hab)
  · intro cmd hcmd id hid
    rcases List.mem_append.mp hcmd with hin | hnew
    · obtain ⟨v, hv, hvid, hawaited⟩ := h.owned cmd hin id hid
      obtain ⟨v', hv', hid', -, hsame⟩ := hmap v hv
      have hne : v.id ≠ w.id := by
        intro heq
        exact hfree cmd hin (heq ▸ hvid ▸ hid)
      exact ⟨v', hv', hid'.trans hvid, hsame hne ▸ hawaited⟩
    · obtain ⟨v', hv', hid', hset, -⟩ := hmap w hw
      rcases hcommands with rfl | ⟨cmd', rfl, howner, hawaited⟩
      · cases hnew
      · obtain rfl := List.mem_singleton.mp hnew
        refine ⟨v', hv', hid'.trans ?_, hset rfl ▸ hawaited⟩
        exact Option.some.inj (howner.symm.trans hid)
  · refine List.pairwise_append.mpr ⟨h.single, ?_, ?_⟩
    · rcases hcommands with rfl | ⟨cmd, rfl, -⟩
      · exact List.Pairwise.nil
      · exact List.pairwise_singleton _ _
    · intro x hx y hy
      rcases hcommands with rfl | ⟨cmd, rfl, howner, -⟩
      · cases hy
      · obtain rfl := List.mem_singleton.mp hy
        exact Or.inr (howner ▸ hfree x hx)

lemma attempt (h : s.Shape) {w : Sweep} (hw : w ∈ s.sweeps) (hfree : s.Free w.id) (i : Nat)
    (chain : List Attempt) : (s.attempt w i chain).Shape := by
  rcases s.attempt_cases w i chain with heq | ⟨-, heq⟩ | ⟨-, a, heq⟩
  · rw [heq]
    exact h.setAwait hw hfree _ (Or.inr ⟨_, rfl, rfl, trivial⟩)
  · rw [heq]
    exact h.settle hfree _
  · rw [heq]
    exact h.setAwait hw hfree _ (Or.inr ⟨_, rfl, rfl, trivial⟩)

/-- After an abort no sweep is left that the hook holds. -/
lemma aborted (h : s.Shape) : ∀ w ∈ s.abortSweep.sweeps, w.aborted = true := by
  intro w hw
  obtain ⟨v, hv, rfl⟩ := List.mem_map.mp hw
  split
  · rfl
  · rename_i hne
    rw [← Bool.not_eq_false]
    exact fun hab => hne (h.current v hv hab).symm

lemma abortSweep (h : s.Shape) : s.abortSweep.Shape := by
  have hids : s.abortSweep.sweeps.map Sweep.id = s.sweeps.map Sweep.id := by
    rw [App.abortSweep, List.map_map]
    refine List.map_congr_left fun v _ => ?_
    rw [Function.comp_apply]
    split <;> rfl
  refine ⟨?_, hids ▸ h.nodup, ?_, ?_, h.single⟩
  · intro w hw
    obtain ⟨v, hv, rfl⟩ := List.mem_map.mp hw
    split <;> exact h.bound v hv
  · intro w hw hab
    rw [h.aborted w hw] at hab
    cases hab
  · intro cmd hcmd id hid
    obtain ⟨w, hw, hwid, hawaited⟩ := h.owned cmd hcmd id hid
    refine ⟨_, List.mem_map.mpr ⟨w, hw, rfl⟩, ?_, ?_⟩
    · split <;> exact hwid
    · split <;> exact hawaited

/-- A connect joins the registry. -/
lemma connect (h : s.Shape) : s.connect.Shape := by
  rw [App.connect]
  split
  · exact h
  · have hset := (h.setPhase .connecting)
    have habort := hset.abortSweep
    have hnext : (s.setPhase .connecting).abortSweep.nextSweep = s.nextSweep :=
      (s.frame_setPhase .connecting).2.2.2.2.1
    refine ⟨?_, ?_, ?_, ?_, habort.single⟩
    · intro w hw
      rcases List.mem_append.mp hw with hold | hnew
      · exact Nat.lt_succ_of_lt (habort.bound w hold)
      · rw [List.mem_singleton.mp hnew]
        exact Nat.lt_succ_self _
    · rw [List.map_append]
      refine List.nodup_append.mpr ⟨habort.nodup, List.nodup_singleton _, ?_⟩
      intro x hx y hy
      obtain ⟨w, hw, rfl⟩ := List.mem_map.mp hx
      rw [List.mem_singleton.mp hy]
      exact Nat.ne_of_lt (habort.bound w hw)
    · intro w hw hab
      rcases List.mem_append.mp hw with hold | hnew
      · rw [hset.aborted w hold] at hab
        cases hab
      · rw [List.mem_singleton.mp hnew]
    · intro cmd hcmd id hid
      obtain ⟨w, hw, hwid, hawaited⟩ := habort.owned cmd hcmd id hid
      exact ⟨w, List.mem_append_left _ hw, hwid, hawaited⟩

/-- Commands without an owner may join the queue. -/
lemma enqueue (h : s.Shape) (cmd : Command) (howner : cmd.owner = none) :
    ({ s with queue := s.queue ++ [cmd] } : App).Shape := by
  refine ⟨h.bound, h.nodup, h.current, ?_, ?_⟩
  · intro x hx id hid
    rcases List.mem_append.mp hx with hold | hnew
    · exact h.owned x hold id hid
    · rw [List.mem_singleton.mp hnew, howner] at hid
      cases hid
  · refine List.pairwise_append.mpr ⟨h.single, List.pairwise_singleton _ _, ?_⟩
    intro x hx y hy
    rw [List.mem_singleton.mp hy]
    rcases hxowner : x.owner with _ | id
    · exact Or.inl hxowner
    · exact Or.inr (by rw [hxowner, howner]; exact nofun)

lemma disconnect (h : s.Shape) : s.disconnect.Shape := by
  have habort := h.abortSweep.enqueue (.disconnect s.nextSweep) rfl
  refine ⟨habort.bound, habort.nodup, ?_, habort.owned, habort.single⟩
  intro w hw hab
  rw [h.aborted w hw] at hab
  cases hab

/-- A served command leaves the queue, and its sweep has no other there. -/
lemma serve (h : s.Shape) {cmd : Command} {rest : List Command} (hqueue : s.queue = cmd :: rest)
    (m : Manager) (cancelled : Nat) (upBy : Option Nat) :
    ({ s with queue := rest, manager := m, cancelled := cancelled, upBy := upBy } : App).Shape ∧
      ∀ id ∈ cmd.owner, ∀ x ∈ rest, x.owner ≠ some id := by
  have hsingle := h.single
  rw [hqueue, List.pairwise_cons] at hsingle
  refine ⟨⟨h.bound, h.nodup, h.current, ?_, hsingle.2⟩, ?_⟩
  · intro x hx
    exact h.owned x (by rw [hqueue]; exact List.mem_cons_of_mem _ hx)
  · intro id hid x hx hxid
    rcases hsingle.1 x hx with hnone | hne
    · rw [hnone] at hid
      cases hid
    · exact hne (hid.trans hxid.symm)

/-- One id is one sweep. -/
lemma eq_singleton (h : s.Shape) {w : Sweep} (hw : w ∈ s.sweeps)
    (hall : ∀ v ∈ s.sweeps, v.id = w.id) : s.sweeps = [w] := by
  rcases hsweeps : s.sweeps with _ | ⟨v, _ | ⟨v', rest⟩⟩
  · rw [hsweeps] at hw
    cases hw
  · have hv : v ∈ s.sweeps := by
      rw [hsweeps]
      exact List.mem_cons_self
    rw [h.unique hw hv (hall v hv).symm]
  · have hnodup := h.nodup
    rw [hsweeps, List.map_cons, List.map_cons, List.nodup_cons] at hnodup
    have hv := hall v (by rw [hsweeps]; exact List.mem_cons_self)
    have hv' := hall v' (by rw [hsweeps]; exact List.mem_cons_of_mem _ List.mem_cons_self)
    exact absurd (by rw [hv, hv']; exact List.mem_cons_self) hnodup.1

lemma find (h : s.Shape) {w : Sweep} (hw : w ∈ s.sweeps) : s.find w.id = some w := by
  rcases hfind : s.find w.id with _ | v
  · have hnone := List.find?_eq_none.mp hfind w hw
    simp at hnone
  · obtain ⟨hv, hid⟩ := mem_of_find hfind
    rw [h.unique hv hw hid]

/-- A sweep takes up the answer to its `tunnel.connect`: it probes, goes on to
the next transport, or gives up. -/
lemma connectAnswered (h : s.Shape) {id : Nat} {r : ConnectRequest} {rest : List Command}
    (hqueue : s.queue = .connect id r :: rest) (s₁ : App) (hsweeps : s₁.sweeps = s.sweeps)
    (reply : Reply) :
    ∃ w ∈ s.sweeps, w.id = id ∧ ∃ i chain, w.await = .command i chain ∧
      ((∃ st, reply = .ok st ∧
          s₁.connectAnswered id reply = s₁.setAwait id (.probe i chain) []) ∨
        (∃ e, reply = .error e ∧ isTransportLevelFailure e = true ∧
          s₁.connectAnswered id reply = s₁.attempt w (i + 1) chain) ∨
        (∃ e, reply = .error e ∧ isTransportLevelFailure e = false ∧
          s₁.connectAnswered id reply = s₁.settle id .error)) := by
  obtain ⟨w, hw, hid, hawaited⟩ := h.owned (.connect id r)
    (by rw [hqueue]; exact List.mem_cons_self) id rfl
  have hfind : s₁.find id = some w := by
    rw [App.find, hsweeps, ← hid]
    exact h.find hw
  rcases hawait : w.await with _ | ⟨i, chain⟩ | ⟨i, chain⟩ | _ | _ | _ <;> rw [hawait] at hawaited
  case command =>
    refine ⟨w, hw, hid, i, chain, hawait, ?_⟩
    rcases reply with e | st
    · rcases htransport : isTransportLevelFailure e with _ | _
      · refine Or.inr (Or.inr ⟨e, rfl, htransport, ?_⟩)
        simp [App.connectAnswered, hfind, hawait, htransport]
      · refine Or.inr (Or.inl ⟨e, rfl, htransport, ?_⟩)
        simp [App.connectAnswered, hfind, hawait, htransport]
    · refine Or.inl ⟨st, rfl, ?_⟩
      simp [App.connectAnswered, hfind, hawait]
  all_goals exact hawaited.elim

lemma polled (h : s.Shape) (status : TunnelStatus) : (s.polled status).Shape := by
  rw [App.polled]
  split
  · exact h.setPhase _
  · exact h

/-- **The registry holds along every run.** -/
lemma step {c : Checks} {s' : App} {action : Action} (h : s.Shape)
    (hstep : App.step c s action = some s') : s'.Shape := by
  cases moves_of_step hstep with
  | disconnect hphase => exact h.disconnect
  | connect hphase => exact h.connect
  | reconnect htimer => exact connect ⟨h.bound, h.nodup, h.current, h.owned, h.single⟩
  | autoConnect hphase => exact connect ⟨h.bound, h.nodup, h.current, h.owned, h.single⟩
  | changeSettings settings hphase => exact ⟨h.bound, h.nodup, h.current, h.owned, h.single⟩
  | reschedule settings hphase =>
      obtain ⟨-, -, href, hsweeps, hnext, hqueue, -⟩ :=
        frame_scheduleReconnect { s with settings := settings }
      exact ⟨by rw [hsweeps, hnext]; exact h.bound, by rw [hsweeps]; exact h.nodup,
        by rw [hsweeps, href]; exact h.current, by rw [hqueue, hsweeps]; exact h.owned,
        by rw [hqueue]; exact h.single⟩
  | enrolled chain hw hawait => exact h.attempt hw (h.free hw hawait rfl) _ _
  | hopsEnrolled hops hw hawait =>
      exact h.setAwait hw (h.free hw hawait rfl) _ (Or.inr ⟨_, rfl, rfl, trivial⟩)
  | enrollFailed hw hawait =>
      rcases hawait with hawait | hawait
      · exact h.settle (h.free hw hawait rfl) _
      · exact h.settle (h.free hw hawait rfl) _
  | probeCancelled up hw hawait haborted => exact h.settle (h.free hw hawait rfl) _
  | probedUp hw hawait haborted => exact h.settle (h.free hw hawait rfl) _
  | probedDead hw hawait haborted => exact h.attempt hw (h.free hw hawait rfl) _ _
  | poll hphase => exact h.enqueue .status rfl
  | connectServed a sa hqueue =>
      rename_i id r rest
      obtain ⟨hserved, hfree⟩ := h.serve hqueue (s.manager.connect c a r).2 s.cancelled
        (s.served c a id r rest).upBy
      obtain ⟨w, hw, rfl, i, chain, hawait, hcases⟩ :=
        h.connectAnswered hqueue (s.served c a id r rest) rfl (s.manager.connect c a r).1
      rcases hcases with ⟨st, -, heq⟩ | ⟨e, -, -, heq⟩ | ⟨e, -, -, heq⟩
      · rw [heq]
        exact hserved.setAwait hw (hfree _ rfl) _ (Or.inl rfl)
      · rw [heq]
        exact hserved.attempt hw (hfree _ rfl) _ _
      · rw [heq]
        exact hserved.settle (hfree _ rfl) _
  | multihopServed a sa hqueue phase hphase =>
      rename_i id r rest
      obtain ⟨hserved, hfree⟩ := h.serve hqueue (s.manager.connectMultihop c a r).2 s.cancelled
        (s.servedMultihop c a id r rest).upBy
      exact hserved.settle (hfree _ rfl) _
  | teardownServed a sa hqueue =>
      obtain ⟨hserved, hfree⟩ := h.serve hqueue s.manager.disconnect.2 s.cancelled s.upBy
      exact hserved.settle (hfree _ rfl) _
  | disconnectServed a sa hqueue =>
      rename_i before rest
      exact (h.serve hqueue s.manager.disconnect.2 before s.upBy).1.setPhase _
  | statusServed a sa hqueue =>
      exact (h.serve hqueue (s.manager.status sa).2 s.cancelled s.upBy).1.polled _
  | repair sa => exact ⟨h.bound, h.nodup, h.current, h.owned, h.single⟩

end Shape

end App

end CumulusVpn.Desktop
