/-
Swaps and holds of the iOS extension: who drives the tunnel, who is answered,
and which route is in force.

* `OneEngine`: at most one engine, and at most one swap in flight;
* `Answered`: every message is answered once, or still pending;
* `Follows`: the route in force is on its way to the app's newest command;
* `SelfSwapGuard`: a self swap runs only for the route that the app wants;
* `swap_hold`: **one engine and one answer in every run; the newest command in
  force** after a run of such self swaps.
-/
import CumulusVpn.Mobile.Provider

namespace CumulusVpn.Mobile.Ios

open StepSystem

/-! ### One engine -/

/-- The block ends a swap. -/
def Block.isFinish : Block → Bool
  | .finish _ _ => true
  | _ => false

/-- What waits for the end of a swap, and only for that. -/
structure Waits (p : Provider) : Prop where
  waiting : p.swapInFlight = false → p.queuedSwap = none ∧ p.holdAfterSwap = false
  exclusive : p.queuedSwap ≠ none → p.holdAfterSwap = false

/-- At most one engine has the utun, and no engine runs while one starts;
`running` finishes are under way besides those on the queue. -/
structure OneEngine (p : Provider) (running : Nat) : Prop extends Waits p where
  flights : running + p.starting.length + p.main.countP Block.isFinish =
    if p.swapInFlight then 1 else 0
  engine : (p.engines = [] ∧ p.handle = none) ∨
    ∃ h config, p.engines = [(h, config)] ∧ p.handle = some h
  starting : p.starting ≠ [] → p.handle = none

namespace OneEngine

variable {p p' : Provider} {n : Nat}

/-- A step that leaves the engines alone. -/
lemma congr (h : OneEngine p n) (hwaits : Waits p') (hstarting : p'.starting = p.starting)
    (hmain : p'.main.countP Block.isFinish = p.main.countP Block.isFinish)
    (hflight : p'.swapInFlight = p.swapInFlight) (hengines : p'.engines = p.engines)
    (hhandle : p'.handle = p.handle) : OneEngine p' n where
  toWaits := hwaits
  flights := by rw [hstarting, hmain, hflight]; exact h.flights
  engine := by rw [hengines, hhandle]; exact h.engine
  starting := by rw [hstarting, hhandle]; exact h.starting

lemma engines_of_handle (h : OneEngine p n) (hhandle : p.handle = none) : p.engines = [] := by
  rcases h.engine with ⟨hnil, -⟩ | ⟨_, _, -, hsome⟩
  · exact hnil
  · rw [hhandle] at hsome
    cases hsome

lemma engines_stopEngine (h : OneEngine p n) : p.stopEngine.engines = [] := by
  rcases h.engine with ⟨hnil, -⟩ | ⟨handle, config, hone, hhandle⟩
  · rw [Provider.stopEngine, hnil]
    rfl
  · rw [Provider.stopEngine, hone, hhandle]
    simp

lemma stopEngine (h : OneEngine p n) : OneEngine p.stopEngine n where
  toWaits := ⟨h.waiting, h.exclusive⟩
  flights := h.flights
  engine := Or.inl ⟨h.engines_stopEngine, rfl⟩
  starting := fun _ => rfl

/-- Where nothing is in flight, nothing starts or waits. -/
lemma idle (h : OneEngine p 0) (hflight : ¬ p.swapInFlight = true) :
    p.starting = [] ∧ p.main.countP Block.isFinish = 0 ∧ p.queuedSwap = none ∧
      p.holdAfterSwap = false := by
  have hzero := h.flights
  rw [if_neg hflight] at hzero
  exact ⟨List.length_eq_zero_iff.mp (by omega), by omega,
    h.waiting (Bool.eq_false_iff.mpr hflight)⟩

/-- Nor besides the finish that is under way. -/
lemma alone (h : OneEngine p 1) :
    p.swapInFlight = true ∧ p.starting = [] ∧ p.main.countP Block.isFinish = 0 := by
  have hone := h.flights
  have hflight : p.swapInFlight = true := by
    by_contra hno
    rw [if_neg hno] at hone
    omega
  rw [if_pos hflight] at hone
  exact ⟨hflight, List.length_eq_zero_iff.mp (by omega), by omega⟩

/-- An engine start begins. -/
lemma start (hwaits : Waits p) (hstarting : p.starting = [])
    (hmain : p.main.countP Block.isFinish = 0) (hflight : p.swapInFlight = true)
    (hengines : p.engines = []) (hhandle : p.handle = none) (r : Swap) :
    OneEngine (p.start r) 0 := by
  rw [Provider.start]
  split
  · refine ⟨⟨hwaits.waiting, hwaits.exclusive⟩, ?_, Or.inl ⟨hengines, hhandle⟩, fun _ => hhandle⟩
    simp [Provider.post, hstarting, hmain, hflight, Block.isFinish]
  · refine ⟨⟨hwaits.waiting, hwaits.exclusive⟩, ?_, Or.inl ⟨hengines, hhandle⟩, fun _ => hhandle⟩
    simp [hstarting, hmain, hflight]

lemma swap (h : OneEngine p 0) (r : Swap) : OneEngine (p.swap r) 0 := by
  rw [Provider.swap]
  split
  · rename_i hflight
    refine h.congr ⟨fun hno => ?_, fun _ => rfl⟩ rfl rfl rfl rfl rfl
    change p.swapInFlight = false at hno
    rw [hflight] at hno
    cases hno
  · rename_i hflight
    obtain ⟨hstarting, hmain, -, -⟩ := h.idle hflight
    exact start (p := { p.stopEngine with swapInFlight := true, activeConfig := some r.config })
      ⟨nofun, h.exclusive⟩ hstarting hmain rfl h.engines_stopEngine rfl r

/-- Nothing waits once the swap in flight has ended. -/
lemma ended (h : OneEngine p 1) (r : Swap) (error : Bool) {queued : Option Swap} {held : Bool}
    (hqueued : queued = none) (hheld : held = false) :
    OneEngine { p.ended r error with queuedSwap := queued, holdAfterSwap := held } 0 := by
  obtain ⟨-, hstarting, hmain⟩ := h.alone
  subst hqueued hheld
  refine ⟨⟨fun _ => ⟨rfl, rfl⟩, fun hne => absurd rfl hne⟩, ?_, h.engine, h.starting⟩
  simp [Provider.ended, Provider.answer, hstarting, hmain]

lemma finish (h : OneEngine p 1) (r : Swap) (error : Bool) : OneEngine (p.finish r error) 0 := by
  rw [Provider.finish]
  split
  · rename_i next hnext
    exact (h.ended r error rfl (h.exclusive (hnext ▸ Option.some_ne_none next))).swap next
  · rename_i hnone
    split
    · exact (h.ended r error hnone rfl).stopEngine
    · rename_i hheld
      exact h.ended r error hnone (Bool.eq_false_iff.mpr hheld)

lemma hold (h : OneEngine p 0) (id : Nat) : OneEngine (p.hold id) 0 := by
  have hopen : OneEngine { p.answer (p.queuedSwap.bind Swap.reply) .superseded with
      queuedSwap := none
      handled := none } 0 :=
    h.congr ⟨fun hno => ⟨rfl, (h.waiting hno).2⟩, fun hne => absurd rfl hne⟩ rfl rfl rfl rfl rfl
  rw [Provider.hold]
  dsimp only
  split
  · rename_i hflight
    refine hopen.congr ⟨fun hno => ?_, fun hne => absurd rfl hne⟩ rfl rfl rfl rfl rfl
    change p.swapInFlight = false at hno
    change p.swapInFlight = true at hflight
    rw [hflight] at hno
    cases hno
  · have hstopped := hopen.stopEngine
    exact hstopped.congr ⟨hstopped.waiting, hstopped.exclusive⟩ rfl rfl rfl rfl rfl

/-- The start that was waiting goes on. -/
lemma startEngine (hwaits : Waits p) (hstarting : p.starting = [])
    (hmain : p.main.countP Block.isFinish = 0) (hflight : p.swapInFlight = true)
    (hengines : p.engines = []) (hhandle : p.handle = none) (r : Swap) (engine : Bool) :
    OneEngine (p.startEngine r engine) 0 := by
  rw [Provider.startEngine]
  split
  · refine ⟨⟨hwaits.waiting, hwaits.exclusive⟩, ?_, Or.inr ⟨p.made, r.config, ?_, rfl⟩,
      fun hne => absurd hstarting hne⟩
    · simp [Provider.post, hstarting, hmain, hflight, Block.isFinish]
    · simp [Provider.post, hengines]
  · refine ⟨⟨hwaits.waiting, hwaits.exclusive⟩, ?_, Or.inl ⟨hengines, hhandle⟩, fun _ => hhandle⟩
    simp [Provider.post, hstarting, hmain, hflight, Block.isFinish]

/-- A start that waits is the only one. -/
lemma only (h : OneEngine p 0) {s : Swap × Phase} (hs : s ∈ p.starting) :
    p.swapInFlight = true ∧ p.starting = [s] ∧ p.main.countP Block.isFinish = 0 ∧
      p.handle = none := by
  have hlen := List.length_pos_of_mem hs
  have hone := h.flights
  have hflight : p.swapInFlight = true := by
    by_contra hno
    rw [if_neg hno] at hone
    omega
  rw [if_pos hflight] at hone
  obtain ⟨t, ht⟩ := List.length_eq_one_iff.mp (show p.starting.length = 1 by omega)
  rw [ht, List.mem_singleton] at hs
  exact ⟨hflight, hs ▸ ht, by omega, h.starting (List.ne_nil_of_length_pos hlen)⟩

/-- The next block leaves the queue. -/
lemma next {b : Block} {rest : List Block} (h : OneEngine p 0) (hmain : p.main = b :: rest) :
    OneEngine { p with main := rest } (if b.isFinish then 1 else 0) := by
  refine ⟨⟨h.waiting, h.exclusive⟩, ?_, h.engine, h.starting⟩
  have hflights := h.flights
  rw [hmain, List.countP_cons] at hflights
  dsimp only
  omega

lemma run (b : Block) (h : OneEngine p (if b.isFinish then 1 else 0)) : OneEngine (p.run b) 0 := by
  cases b with
  | swap r =>
      have hsame : OneEngine { p with handled := some r.config } 0 :=
        OneEngine.congr h ⟨h.waiting, h.exclusive⟩ rfl rfl rfl rfl rfl
      exact hsame.swap r
  | hold id => exact OneEngine.hold h id
  | roam => exact OneEngine.swap h _
  | finish r error => exact OneEngine.finish h r error

lemma post (h : OneEngine p 0) {b : Block} (hb : b.isFinish = false) : OneEngine (p.post b) 0 :=
  h.congr ⟨h.waiting, h.exclusive⟩ rfl (by simp [Provider.post, hb]) rfl rfl rfl

lemma step {e : Event} (h : OneEngine p 0) (hstep : Ios.step p e = some p') : OneEngine p' 0 := by
  cases e with
  | swap payload =>
      rw [Ios.step] at hstep
      split at hstep <;> cases hstep
      · exact h.congr ⟨h.waiting, h.exclusive⟩ rfl rfl rfl rfl rfl
      · rename_i config _
        have hsame : OneEngine { p with received := p.received + 1, newest := some config } 0 :=
          h.congr ⟨h.waiting, h.exclusive⟩ rfl rfl rfl rfl rfl
        exact hsame.post rfl
  | hold =>
      cases hstep
      have hsame : OneEngine { p with received := p.received + 1, newest := none } 0 :=
        h.congr ⟨h.waiting, h.exclusive⟩ rfl rfl rfl rfl rfl
      exact hsame.post rfl
  | roam =>
      cases hstep
      split
      · exact h.post rfl
      · exact h
  | main =>
      rw [Ios.step] at hstep
      split at hstep <;> cases hstep
      rename_i b rest hmain
      exact (h.next hmain).run b
  | settings r ok engine =>
      rw [Ios.step] at hstep
      split at hstep
      · rename_i hs
        obtain ⟨hflight, hstarting, hmain, hhandle⟩ := h.only hs
        have herase : p.starting.erase (r, .settings) = [] := by simp [hstarting]
        have hengines := h.engines_of_handle hhandle
        rw [herase] at hstep
        dsimp only at hstep
        split at hstep
        · cases hstep
          refine ⟨⟨h.waiting, h.exclusive⟩, ?_, h.engine, fun hne => absurd rfl hne⟩
          simp [Provider.post, hflight, hmain, Block.isFinish]
        · split at hstep <;> cases hstep
          · refine ⟨⟨h.waiting, h.exclusive⟩, ?_, h.engine, fun _ => hhandle⟩
            simp [hflight, hmain]
          · exact startEngine (p := { p with starting := [] }) ⟨h.waiting, h.exclusive⟩ rfl hmain
              hflight hengines hhandle r engine
      · cases hstep
  | bridge r ok engine =>
      rw [Ios.step] at hstep
      split at hstep
      · rename_i hs
        obtain ⟨hflight, hstarting, hmain, hhandle⟩ := h.only hs
        have herase : p.starting.erase (r, .bridge) = [] := by simp [hstarting]
        have hengines := h.engines_of_handle hhandle
        rw [herase] at hstep
        dsimp only at hstep
        split at hstep <;> cases hstep
        · refine ⟨⟨h.waiting, h.exclusive⟩, ?_, h.engine, fun hne => absurd rfl hne⟩
          simp [Provider.post, hflight, hmain, Block.isFinish]
        · exact startEngine (p := { p with starting := [] }) ⟨h.waiting, h.exclusive⟩ rfl hmain
            hflight hengines hhandle r engine
      · cases hstep

end OneEngine

/-! ### One answer -/

/-- The messages that a block is to answer. -/
def Block.messages : Block → List Nat
  | .swap r => r.reply.toList
  | .hold id => [id]
  | .roam => []
  | .finish r _ => r.reply.toList

/-- The messages that are not answered yet. -/
def Provider.pending (p : Provider) : List Nat :=
  p.main.flatMap Block.messages ++ p.starting.flatMap (fun s => s.1.reply.toList) ++
    (p.queuedSwap.bind Swap.reply).toList

/-- Every message so far is pending or answered, and only once; `running` are
those of the block that runs. -/
def Answered (p : Provider) (running : List Nat) : Prop :=
  ∀ id, running.count id + p.pending.count id + (p.replies.map Prod.fst).count id =
    if id < p.received then 1 else 0

namespace Answered

variable {p p' : Provider} {running running' : List Nat}

/-- A step that moves messages about. -/
lemma move (h : Answered p running) (hreplies : p'.replies = p.replies)
    (hreceived : p'.received = p.received)
    (hcount : ∀ id, running'.count id + p'.pending.count id =
      running.count id + p.pending.count id) : Answered p' running' := by
  intro id
  rw [hcount, hreplies, hreceived]
  exact h id

@[simp] lemma map_answer (p : Provider) (reply : Option Nat) (a : Answer) :
    (p.answer reply a).replies.map Prod.fst = p.replies.map Prod.fst ++ reply.toList := by
  cases reply <;> simp [Provider.answer]

/-- A message is answered. -/
lemma answer {reply : Option Nat} (h : Answered p (reply.toList ++ running)) (a : Answer) :
    Answered (p.answer reply a) running := by
  intro id
  have hid := h id
  rw [map_answer, List.count_append]
  rw [List.count_append] at hid
  change running.count id + p.pending.count id + _ = if id < p.received then 1 else 0
  omega

lemma answerOne {id : Nat} (h : Answered p [id]) (a : Answer) :
    Answered (p.answer (some id) a) [] := by
  have hone : Answered p ((some id).toList ++ []) := h
  exact hone.answer a

lemma post {b : Block} (h : Answered p b.messages) : Answered (p.post b) [] :=
  h.move rfl rfl fun id => by
    simp [Provider.post, Provider.pending]
    omega

lemma start (r : Swap) (h : Answered p r.reply.toList) : Answered (p.start r) [] := by
  rw [Provider.start]
  split
  · exact post (b := .finish r true) h
  · refine h.move rfl rfl fun id => ?_
    simp [Provider.pending]
    omega

lemma swap (r : Swap) (h : Answered p r.reply.toList) : Answered (p.swap r) [] := by
  rw [Provider.swap]
  split
  · have hqueued : Answered { p with queuedSwap := some r, holdAfterSwap := false }
        ((p.queuedSwap.bind Swap.reply).toList ++ []) := by
      refine h.move rfl rfl fun id => ?_
      simp [Provider.pending]
      omega
    exact hqueued.answer .superseded
  · exact start (p := { p.stopEngine with swapInFlight := true, activeConfig := some r.config }) r h

lemma ended (r : Swap) (error : Bool) (h : Answered p r.reply.toList) :
    Answered (p.ended r error) [] := by
  have hanswered : Answered (p.answer r.reply (if error then .failed else .ok)) [] :=
    answer (by rw [List.append_nil]; exact h) _
  exact hanswered.move rfl rfl fun _ => rfl

lemma finish (r : Swap) (error : Bool) (h : Answered p r.reply.toList) :
    Answered (p.finish r error) [] := by
  have hended := ended r error h
  rw [Provider.finish]
  split
  · rename_i next hnext
    have hqueued : (p.ended r error).queuedSwap = some next := hnext
    refine swap next (hended.move rfl rfl fun id => ?_)
    simp [Provider.pending, hqueued]
    omega
  · split
    · exact hended.move rfl rfl fun _ => rfl
    · exact hended

lemma hold (id : Nat) (h : Answered p [id]) : Answered (p.hold id) [] := by
  have hqueued : Answered { p with queuedSwap := none, handled := none }
      ((p.queuedSwap.bind Swap.reply).toList ++ [id]) := by
    refine h.move rfl rfl fun id' => ?_
    simp [Provider.pending]
    omega
  have hopen := hqueued.answer .superseded
  rw [Provider.hold]
  dsimp only
  split
  · exact answerOne (hopen.move rfl rfl fun _ => rfl) .ok
  · exact answerOne (hopen.move rfl rfl fun _ => rfl) .ok

lemma run (b : Block) (h : Answered p b.messages) : Answered (p.run b) [] := by
  cases b with
  | swap r => exact swap (p := { p with handled := some r.config }) r h
  | hold id => exact hold id h
  | roam => exact swap ⟨p.currentConfig, none⟩ h
  | finish r error => exact finish r error h

lemma startEngine (r : Swap) (engine : Bool) (h : Answered p r.reply.toList) :
    Answered (p.startEngine r engine) [] := by
  rw [Provider.startEngine]
  split
  · exact post (b := .finish r false) (h.move rfl rfl fun _ => rfl)
  · exact post (b := .finish r true) (h.move rfl rfl fun _ => rfl)

/-- A start leaves what it waits for. -/
lemma leave (h : Answered p []) {s : Swap × Phase} (hs : s ∈ p.starting) :
    Answered { p with starting := p.starting.erase s } s.1.reply.toList := by
  refine h.move rfl rfl fun id => ?_
  have hperm := (List.perm_cons_erase hs).flatMap_right fun s => s.1.reply.toList
  have hcount := hperm.count_eq id
  simp only [List.flatMap_cons, List.count_append] at hcount
  simp only [Provider.pending, List.count_append, List.count_nil]
  omega

/-- A new message has the next number. -/
lemma receive (h : Answered p []) (newest : Option ProviderConfig) :
    Answered { p with received := p.received + 1, newest := newest } [p.received] := by
  intro id
  have hid := h id
  change List.count id [p.received] + p.pending.count id + (p.replies.map Prod.fst).count id =
    if id < p.received + 1 then 1 else 0
  rw [List.count_nil] at hid
  rw [List.count_singleton']
  split at hid <;> split <;> split <;> omega

lemma step {e : Event} (h : Answered p []) (hstep : Ios.step p e = some p') : Answered p' [] := by
  cases e with
  | swap payload =>
      rw [Ios.step] at hstep
      split at hstep <;> cases hstep
      · exact answerOne (h.receive p.newest) .invalidRoute
      · rename_i config _
        exact post (h.receive (some config))
  | hold =>
      cases hstep
      exact post (h.receive none)
  | roam =>
      cases hstep
      split
      · exact post (b := .roam) h
      · exact h
  | main =>
      rw [Ios.step] at hstep
      split at hstep <;> cases hstep
      rename_i b rest hmain
      refine run b (h.move rfl rfl fun id => ?_)
      simp only [Provider.pending, hmain, List.flatMap_cons, List.count_append, List.count_nil]
      omega
  | settings r ok engine =>
      rw [Ios.step] at hstep
      split at hstep
      · rename_i hs
        have hleft := h.leave hs
        dsimp only at hstep
        split at hstep
        · cases hstep
          exact post (b := .finish r true) hleft
        · split at hstep <;> cases hstep
          · refine hleft.move rfl rfl fun id => ?_
            simp [Provider.pending]
            omega
          · exact startEngine r engine hleft
      · cases hstep
  | bridge r ok engine =>
      rw [Ios.step] at hstep
      split at hstep
      · rename_i hs
        have hleft := h.leave hs
        dsimp only at hstep
        split at hstep <;> cases hstep
        · exact post (b := .finish r true) (hleft.move rfl rfl fun _ => rfl)
        · exact startEngine r engine hleft
      · cases hstep

end Answered

/-! ### The route in force -/

/-- A self swap runs only while the route of the newest command handled is the
one of the last swap. -/
def SelfSwapGuard (p : Provider) : Event → Prop
  | .main => p.main.head? = some .roam → p.handled = some p.currentConfig
  | _ => True

instance (p : Provider) : (e : Event) → Decidable (SelfSwapGuard p e)
  | .main => inferInstanceAs (Decidable (_ → _))
  | .swap _ | .hold | .roam | .settings .. | .bridge .. => inferInstanceAs (Decidable True)

/-- The command that a block brings: a route, or none for a hold. -/
def Block.command : Block → Option (Option ProviderConfig)
  | .swap r => some (some r.config)
  | .hold _ => some none
  | _ => none

/-- The route that is to be in force once the swap in flight has ended. -/
def Provider.target (p : Provider) : Option ProviderConfig :=
  match p.queuedSwap with
  | some next => some next.config
  | none => if p.holdAfterSwap then none else some p.currentConfig

/-- The newest command is on the queue, or handled. -/
def Provider.Newest (p : Provider) : Prop :=
  p.newest = (p.main.filterMap Block.command).getLast?.getD p.handled

/-- What is in flight is the route of the last swap. -/
structure Flight (p : Provider) : Prop where
  starting : ∀ s ∈ p.starting, p.currentConfig = s.1.config
  finishing : ∀ r error, .finish r error ∈ p.main →
    p.currentConfig = r.config ∧ p.engines.map Prod.snd = if error then [] else [r.config]

/-- The route of the newest command is in force, or on its way. -/
structure Follows (p : Provider) : Prop extends Flight p where
  newest : p.Newest
  inFlight : p.swapInFlight = true → p.handled = p.target
  idle : p.swapInFlight = false → (p.handled = none ∧ p.engines = []) ∨
    (p.handled = some p.currentConfig ∧
      p.engines.map Prod.snd = if p.failed then [] else [p.currentConfig])

namespace Follows

variable {p p' : Provider}

lemma not_finish {main : List Block} (h : main.countP Block.isFinish = 0) (r : Swap)
    (error : Bool) : .finish r error ∉ main := fun hmem =>
  List.countP_eq_zero.mp h _ hmem rfl

lemma not_idle (hflight : p.swapInFlight = true) {P : Prop} (hno : p.swapInFlight = false) : P := by
  rw [hflight] at hno
  cases hno

/-- The finish of the swap in flight. -/
lemma post {r : Swap} {error : Bool} (hstarting : p.starting = [])
    (hmain : p.main.countP Block.isFinish = 0) (hflight : p.swapInFlight = true)
    (hnewest : p.Newest) (hcurrent : p.currentConfig = r.config)
    (hengines : p.engines.map Prod.snd = if error then [] else [r.config])
    (hhandled : p.handled = p.target) : Follows (p.post (.finish r error)) where
  starting := fun s hs => by
    change s ∈ p.starting at hs
    rw [hstarting] at hs
    cases hs
  finishing := fun r' error' hmem => by
    rcases List.mem_append.mp hmem with hmem | hmem
    · exact absurd hmem (not_finish hmain r' error')
    · cases List.mem_singleton.mp hmem
      exact ⟨hcurrent, hengines⟩
  newest := by
    have hno : [Block.finish r error].filterMap Block.command = [] := rfl
    rw [Provider.Newest, Provider.post, List.filterMap_append, hno, List.append_nil]
    exact hnewest
  inFlight := fun _ => hhandled
  idle := not_idle hflight

lemma start (hstarting : p.starting = []) (hmain : p.main.countP Block.isFinish = 0)
    (hengines : p.engines = []) (hflight : p.swapInFlight = true) (hnewest : p.Newest) (r : Swap)
    (hcurrent : p.currentConfig = r.config) (hhandled : p.handled = p.target) :
    Follows (p.start r) := by
  rw [Provider.start]
  split
  · exact post hstarting hmain hflight hnewest hcurrent (congrArg (List.map Prod.snd) hengines)
      hhandled
  · refine ⟨⟨fun s hs => ?_, fun r' error hmem => ?_⟩, hnewest, fun _ => hhandled,
      not_idle hflight⟩
    · rw [hstarting] at hs
      cases List.mem_singleton.mp hs
      exact hcurrent
    · exact absurd hmem (not_finish hmain r' error)

/-- A swap that is the newest command handled. -/
lemma swap (hone : OneEngine p 0) (hflight : Flight p) (hnewest : p.Newest) (r : Swap)
    (hhandled : p.handled = some r.config) : Follows (p.swap r) := by
  rw [Provider.swap]
  split
  · rename_i htrue
    exact ⟨⟨hflight.starting, hflight.finishing⟩, hnewest, fun _ => hhandled, not_idle htrue⟩
  · rename_i hfalse
    obtain ⟨hstarting, hmain, hqueued, hheld⟩ := hone.idle hfalse
    refine start (p := { p.stopEngine with swapInFlight := true, activeConfig := some r.config })
      hstarting hmain hone.engines_stopEngine rfl hnewest r rfl ?_
    change p.handled = match p.queuedSwap with
      | some next => some next.config
      | none => if p.holdAfterSwap = true then none else some r.config
    rw [hqueued, hheld]
    exact hhandled

lemma finish (hone : OneEngine p 1) (hnewest : p.Newest) (hhandled : p.handled = p.target)
    {r : Swap} {error : Bool} (hcurrent : p.currentConfig = r.config)
    (hengines : p.engines.map Prod.snd = if error then [] else [r.config]) :
    Follows (p.finish r error) := by
  obtain ⟨-, hstarting, hmain⟩ := hone.alone
  have hstarting' : ∀ {P : Swap × Phase → Prop}, ∀ s ∈ p.starting, P s := fun s hs => by
    rw [hstarting] at hs
    cases hs
  have hno : ∀ {P : Prop} (r' : Swap) (error' : Bool), .finish r' error' ∈ p.main → P :=
    fun r' error' hmem => absurd hmem (not_finish hmain r' error')
  rw [Provider.finish]
  rw [Provider.target] at hhandled
  split
  · rename_i next hnext
    rw [hnext] at hhandled
    have hheld := hone.exclusive (hnext ▸ Option.some_ne_none next)
    exact swap (hone.ended r error rfl hheld) ⟨hstarting', fun r' error' hmem => hno r' error' hmem⟩
      hnewest next hhandled
  · rename_i hnone
    rw [hnone] at hhandled
    split
    · rename_i hheld
      rw [if_pos hheld] at hhandled
      refine ⟨⟨hstarting', fun r' error' hmem => hno r' error' hmem⟩, hnewest, nofun,
        fun _ => Or.inl ⟨hhandled, (hone.ended r error hnone rfl).engines_stopEngine⟩⟩
    · rename_i hheld
      rw [if_neg hheld] at hhandled
      refine ⟨⟨hstarting', fun r' error' hmem => hno r' error' hmem⟩, hnewest, nofun,
        fun _ => Or.inr ⟨hhandled, ?_⟩⟩
      change p.engines.map Prod.snd = if error then [] else [p.currentConfig]
      rw [hengines, hcurrent]

lemma hold (hone : OneEngine p 0) (hflight : Flight p)
    (hnewest : p.newest = (p.main.filterMap Block.command).getLast?.getD none) (id : Nat) :
    Follows (p.hold id) := by
  rw [Provider.hold]
  dsimp only
  split
  · rename_i htrue
    exact ⟨⟨hflight.starting, hflight.finishing⟩, hnewest, fun _ => rfl, not_idle htrue⟩
  · rename_i hfalse
    obtain ⟨hstarting, hmain, -, -⟩ := hone.idle hfalse
    refine ⟨⟨fun s hs => ?_, fun r error hmem => ?_⟩, hnewest, fun htrue => ?_,
      fun _ => Or.inl ⟨rfl, hone.engines_stopEngine⟩⟩
    · change s ∈ p.starting at hs
      rw [hstarting] at hs
      cases hs
    · exact absurd hmem (not_finish hmain r error)
    · exact absurd htrue hfalse

/-- Less may be on the queue. -/
lemma flight_of_subset (h : Flight p) (hstarting : p'.starting ⊆ p.starting)
    (hmain : p'.main ⊆ p.main) (hcurrent : p'.currentConfig = p.currentConfig)
    (hengines : p'.engines = p.engines) : Flight p' where
  starting := fun s hs => by
    rw [hcurrent]
    exact h.starting s (hstarting hs)
  finishing := fun r error hmem => by
    rw [hcurrent, hengines]
    exact h.finishing r error (hmain hmem)

/-- The block that leaves the queue has its command handled. -/
lemma newest_cons (b : Block) (rest : List Block) (handled : Option ProviderConfig) :
    ((b :: rest).filterMap Block.command).getLast?.getD handled =
      (rest.filterMap Block.command).getLast?.getD (b.command.getD handled) := by
  cases hb : b.command with
  | none => rw [List.filterMap_cons_none hb, Option.getD_none]
  | some command =>
      rw [List.filterMap_cons_some hb, List.getLast?_cons, Option.getD_some, Option.getD_some]

lemma run {b : Block} {rest : List Block} (h : Follows p) (hone : OneEngine p 0)
    (hmain : p.main = b :: rest) (hself : b = .roam → p.handled = some p.currentConfig) :
    Follows ({ p with main := rest }.run b) := by
  have hflight : Flight { p with main := rest } :=
    flight_of_subset h.toFlight (List.Subset.refl _)
      (fun _ hmem => hmain ▸ List.mem_cons_of_mem b hmem) rfl rfl
  have hnext := hone.next hmain
  have hnewest := h.newest
  rw [Provider.Newest, hmain, newest_cons] at hnewest
  cases b with
  | swap r =>
      exact swap (p := { p with main := rest, handled := some r.config })
        (hnext.congr ⟨hone.waiting, hone.exclusive⟩ rfl rfl rfl rfl rfl)
        ⟨hflight.starting, hflight.finishing⟩ hnewest r rfl
  | hold id => exact hold hnext hflight hnewest id
  | roam => exact swap hnext hflight hnewest ⟨p.currentConfig, none⟩ (hself rfl)
  | finish r error =>
      obtain ⟨hcurrent, hengines⟩ := h.finishing r error (hmain ▸ List.mem_cons_self)
      exact finish hnext hnewest (h.inFlight hnext.alone.1) hcurrent hengines

lemma startEngine (hstarting : p.starting = []) (hmain : p.main.countP Block.isFinish = 0)
    (hengines : p.engines = []) (hflight : p.swapInFlight = true) (hnewest : p.Newest) (r : Swap)
    (engine : Bool) (hcurrent : p.currentConfig = r.config) (hhandled : p.handled = p.target) :
    Follows (p.startEngine r engine) := by
  rw [Provider.startEngine]
  split
  · refine post hstarting hmain hflight hnewest hcurrent ?_ hhandled
    simp [hengines]
  · exact post hstarting hmain hflight hnewest hcurrent (congrArg (List.map Prod.snd) hengines)
      hhandled

/-- A message of the app is on the queue. -/
lemma receive (h : Follows p) {b : Block} {newest : Option ProviderConfig}
    (hb : b.command = some newest) (hno : b.isFinish = false) :
    Follows ({ p with received := p.received + 1, newest := newest }.post b) where
  starting := h.starting
  finishing := fun r error hmem => by
    rcases List.mem_append.mp hmem with hmem | hmem
    · exact h.finishing r error hmem
    · cases List.mem_singleton.mp hmem
      cases hno
  newest := by
    change newest = ((p.main ++ [b]).filterMap Block.command).getLast?.getD p.handled
    rw [List.filterMap_append, List.filterMap_cons_some hb, List.filterMap_nil,
      List.getLast?_append]
    rfl
  inFlight := h.inFlight
  idle := h.idle

/-- A self swap is on the queue. -/
lemma roam (h : Follows p) : Follows (p.post .roam) where
  starting := h.starting
  finishing := fun r error hmem => by
    rcases List.mem_append.mp hmem with hmem | hmem
    · exact h.finishing r error hmem
    · cases List.mem_singleton.mp hmem
  newest := by
    have hno : [Block.roam].filterMap Block.command = [] := rfl
    rw [Provider.Newest, Provider.post, List.filterMap_append, hno, List.append_nil]
    exact h.newest
  inFlight := h.inFlight
  idle := h.idle

lemma step {e : Event} (h : Follows p) (hone : OneEngine p 0) (hguard : SelfSwapGuard p e)
    (hstep : Ios.step p e = some p') : Follows p' := by
  cases e with
  | swap payload =>
      rw [Ios.step] at hstep
      split at hstep <;> cases hstep
      · exact ⟨⟨h.starting, h.finishing⟩, h.newest, h.inFlight, h.idle⟩
      · exact h.receive rfl rfl
  | hold =>
      cases hstep
      exact h.receive rfl rfl
  | roam =>
      cases hstep
      split
      · exact h.roam
      · exact h
  | main =>
      rw [Ios.step] at hstep
      split at hstep <;> cases hstep
      rename_i b rest hmain
      refine h.run hone hmain fun hb => hguard ?_
      rw [hmain, hb]
      rfl
  | settings r ok engine =>
      rw [Ios.step] at hstep
      split at hstep
      · rename_i hs
        obtain ⟨hflight, hstarting, hmain, hhandle⟩ := hone.only hs
        have herase : p.starting.erase (r, .settings) = [] := by simp [hstarting]
        have hengines := hone.engines_of_handle hhandle
        have hcurrent := h.starting _ hs
        have hhandled := h.inFlight hflight
        rw [herase] at hstep
        dsimp only at hstep
        split at hstep
        · cases hstep
          exact post (p := { p with starting := [] }) rfl hmain hflight h.newest hcurrent
            (congrArg (List.map Prod.snd) hengines) hhandled
        · split at hstep <;> cases hstep
          · refine ⟨⟨fun s hmem => ?_, h.finishing⟩, h.newest, h.inFlight, not_idle hflight⟩
            cases List.mem_singleton.mp hmem
            exact hcurrent
          · exact startEngine (p := { p with starting := [] }) rfl hmain hengines hflight h.newest r
              engine hcurrent hhandled
      · cases hstep
  | bridge r ok engine =>
      rw [Ios.step] at hstep
      split at hstep
      · rename_i hs
        obtain ⟨hflight, hstarting, hmain, hhandle⟩ := hone.only hs
        have herase : p.starting.erase (r, .bridge) = [] := by simp [hstarting]
        have hengines := hone.engines_of_handle hhandle
        have hcurrent := h.starting _ hs
        have hhandled := h.inFlight hflight
        rw [herase] at hstep
        dsimp only at hstep
        split at hstep <;> cases hstep
        · exact post (p := { p with starting := [], tlsBridge := false }) rfl hmain hflight
            h.newest hcurrent (congrArg (List.map Prod.snd) hengines) hhandled
        · exact startEngine (p := { p with starting := [] }) rfl hmain hengines hflight h.newest r
            engine hcurrent hhandled
      · cases hstep

end Follows

/-! ### Every run -/

/-- The newest command is in force: a route with its engine, unless the last
start has failed, and no engine after a hold. -/
def Provider.InForce (p : Provider) : Prop :=
  p.engines.map Prod.snd = match p.newest with
    | none => []
    | some config => if p.failed then [] else [config]

instance (p : Provider) : Decidable p.InForce := inferInstanceAs (Decidable (_ = _))

lemma OneEngine.quiet {p : Provider} (h : OneEngine p 0) (hquiet : p.Quiet) :
    p.swapInFlight = false := by
  have hflights := h.flights
  rw [hquiet.1, hquiet.2] at hflights
  by_contra hno
  rw [if_pos (Bool.of_not_eq_false hno)] at hflights
  cases hflights

lemma Follows.inForce {p : Provider} (h : Follows p) (hone : OneEngine p 0) (hquiet : p.Quiet) :
    p.InForce := by
  have hflight := hone.quiet hquiet
  have hnewest : p.newest = p.handled := by
    have := h.newest
    rwa [Provider.Newest, hquiet.1] at this
  rw [Provider.InForce, hnewest]
  rcases h.idle hflight with ⟨hhandled, hengines⟩ | ⟨hhandled, hengines⟩
  · rw [hhandled, hengines]
    rfl
  · rw [hhandled, hengines]

section Launch

variable (saved : ProviderConfig)

lemma OneEngine.launch : OneEngine (Provider.launch saved) 0 where
  waiting := fun _ => ⟨rfl, rfl⟩
  exclusive := fun hne => absurd rfl hne
  flights := rfl
  engine := Or.inr ⟨0, saved, rfl, rfl⟩
  starting := fun hne => absurd rfl hne

lemma Answered.launch : Answered (Provider.launch saved) [] := fun _ => rfl

lemma Follows.launch : Follows (Provider.launch saved) where
  starting := nofun
  finishing := nofun
  newest := rfl
  inFlight := nofun
  idle := fun _ => Or.inr ⟨rfl, rfl⟩

end Launch

/-- Every message so far has one reply where nothing is pending. -/
lemma Answered.quiet {p : Provider} (h : Answered p []) (hone : OneEngine p 0) (hquiet : p.Quiet)
    {id : Nat} (hid : id < p.received) : (p.replies.map Prod.fst).count id = 1 := by
  have hcount := h id
  rw [Provider.pending, hquiet.1, hquiet.2, (hone.waiting (hone.quiet hquiet)).1, if_pos hid]
    at hcount
  simpa using hcount

/-- **The iOS extension**: in every run at most one engine drives the tunnel,
no message is answered twice and every one is answered once where nothing is
pending; and where the self swaps are of the route that the app wants, the
newest command is then in force. -/
theorem swap_hold (saved : ProviderConfig) {events : List Event} {p : Provider}
    (hrun : exec step (Provider.launch saved) events = some p) :
    p.engines.length ≤ 1 ∧ (p.replies.map Prod.fst).Nodup ∧
      (∀ id ∈ p.replies.map Prod.fst, id < p.received) ∧
      (p.Quiet → ∀ id < p.received, (p.replies.map Prod.fst).count id = 1) ∧
      (Along step SelfSwapGuard (Provider.launch saved) events → p.Quiet → p.InForce) := by
  have hreachable : Reachable step (Provider.launch saved) p := ⟨events, hrun⟩
  have hone : OneEngine p 0 := hreachable.induction (I := fun p => OneEngine p 0) (.launch saved)
    fun _ _ _ h hstep => h.step hstep
  have hanswered : Answered p [] := hreachable.induction (I := fun p => Answered p [])
    (.launch saved) fun _ _ _ h hstep => h.step hstep
  refine ⟨?_, ?_, ?_, fun hquiet id hid => hanswered.quiet hone hquiet hid, ?_⟩
  · rcases hone.engine with ⟨hnil, -⟩ | ⟨_, _, hengine, -⟩
    · simp [hnil]
    · simp [hengine]
  · refine List.nodup_iff_count_le_one.mpr fun id => ?_
    have hid := hanswered id
    split at hid <;> omega
  · intro id hmem
    have hid := hanswered id
    have hpos := List.count_pos_iff.mpr hmem
    by_contra hno
    rw [if_neg hno] at hid
    omega
  · intro hguard hquiet
    have hfollows : Follows p ∧ OneEngine p 0 :=
      exec_invariant (I := fun p => Follows p ∧ OneEngine p 0)
        (fun _ _ _ h hG hstep => ⟨h.1.step h.2 hG hstep, h.2.step hstep⟩)
        ⟨.launch saved, .launch saved⟩ hguard hrun
    exact hfollows.1.inForce hfollows.2 hquiet

/-- A route over the TLS bridge. -/
def tlsRoute : ProviderConfig where
  mode := none
  wgConfig := some ("PrivateKey=kA=\nAddress=10.66.0.2/32\nPublicKey=kB=\n" ++
    "Endpoint=203.0.113.7:443\nCVPN_TLS_SNI=www.example.com")
  outerConfig := none
  innerConfig := none

/-- The device moves, and the app holds and swaps while the self swap waits for
its bridge. -/
def movedRun : List Event :=
  [.roam, .main, .settings ⟨tlsRoute, none⟩ true true, .hold, .main, .swap (some tlsRoute), .main,
    .bridge ⟨tlsRoute, none⟩ true true, .main, .settings ⟨tlsRoute, some 1⟩ true true,
    .bridge ⟨tlsRoute, some 1⟩ true true, .main]

theorem swap_hold_moved :
    ∃ p, exec step (Provider.launch tlsRoute) movedRun = some p ∧ p.newest = some tlsRoute ∧
      p.engines.length = 1 ∧ (∀ id < 2, (p.replies.map Prod.fst).count id = 1) ∧ p.InForce := by
  have hrun : (exec step (Provider.launch tlsRoute) movedRun).any fun p =>
      p.Quiet ∧ p.newest = some tlsRoute ∧ p.received = 2 ∧ p.failed = false := by decide +kernel
  obtain ⟨p, hp, hall⟩ := (Option.any_eq_true _ _).mp hrun
  obtain ⟨hquiet, hnewest, hreceived, hfailed⟩ := of_decide_eq_true hall
  obtain ⟨-, -, -, hreplies, hforce⟩ := swap_hold tlsRoute hp
  have hinForce := hforce (by decide +kernel) hquiet
  refine ⟨p, hp, hnewest, ?_, hreceived ▸ hreplies hquiet, hinForce⟩
  rw [Provider.InForce, hnewest, hfailed] at hinForce
  exact (List.length_map Prod.snd).symm.trans (congrArg List.length hinForce)

/-- The blocks of a hold and of a self swap are on the queue together. -/
def heldRun : List Event :=
  [.hold, .roam, .main, .main, .settings ⟨tlsRoute, none⟩ true true,
    .bridge ⟨tlsRoute, none⟩ true true, .main]

/-- The network settings of a self swap fail. -/
def failedRun : List Event := [.roam, .main, .settings ⟨tlsRoute, none⟩ false false, .main]

/-- After a hold an engine may run, and without any failed swap of the app its
route may be held. -/
theorem not_swap_hold :
    (¬ ∀ (saved : ProviderConfig) (events : List Event) (p : Provider),
      exec step (Provider.launch saved) events = some p → p.Quiet → p.newest = none →
        p.engines = []) ∧
    ¬ ∀ (saved : ProviderConfig) (events : List Event) (p : Provider) (config : ProviderConfig),
      exec step (Provider.launch saved) events = some p → p.Quiet → p.newest = some config →
        (∀ reply ∈ p.replies, reply.2 ≠ .failed) → p.engines.map Prod.snd = [config] := by
  constructor
  · intro h
    have hrun : (exec step (Provider.launch tlsRoute) heldRun).any fun p =>
        p.Quiet ∧ p.newest = none ∧ p.engines ≠ [] := by decide +kernel
    obtain ⟨p, hp, hall⟩ := (Option.any_eq_true _ _).mp hrun
    obtain ⟨hquiet, hnewest, hengines⟩ := of_decide_eq_true hall
    exact hengines (h tlsRoute heldRun p hp hquiet hnewest)
  · intro h
    have hrun : (exec step (Provider.launch tlsRoute) failedRun).any fun p =>
        p.Quiet ∧ p.newest = some tlsRoute ∧ p.replies = [] ∧ p.engines = [] := by decide +kernel
    obtain ⟨p, hp, hall⟩ := (Option.any_eq_true _ _).mp hrun
    obtain ⟨hquiet, hnewest, hreplies, hengines⟩ := of_decide_eq_true hall
    have hroute := h tlsRoute failedRun p tlsRoute hp hquiet hnewest (by simp [hreplies])
    rw [hengines] at hroute
    cases hroute

end CumulusVpn.Mobile.Ios
