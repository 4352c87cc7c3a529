/-
No operation on the backup overwrites another identity.

Between the read of a place and the write to it other operations go on.  A copy
is lost exactly when one of them fills the place with an identity that the
round is not allowed to replace.

* `Task.plan`, `Writing.Pending`: what an operation is yet to write, as far as
  its reads go;
* `Collides`: a save fills a place that another operation is yet to write, or
  a sync turns to copying what it has just found;
* `TurnsOff`: the backup is turned off while an operation may write;
* `Leads`: what an operation waits at after a step, from what it waited at;
* `backup_keeps_identities`: **no read that failed is followed by a write, and
  without these two no identity is overwritten and nothing is written after the
  backup is off**;
* `restore_lost`: the sync of a launch overwrites a restored identity.
-/
import CumulusVpn.Mobile.Identity

namespace CumulusVpn.Mobile.Identity

open Client StepSystem

/-! ### What is yet to be written -/

/-- The store has answered. -/
def Slot.answered : Slot → Bool
  | .empty | .held _ => true
  | .unknown | .unavailable => false

/-- The round of an operation, as far as its reads go. -/
def Task.plan : Task → Option Writing
  | .load op slots => writingOf op slots
  | .save w _ => some w
  | _ => none

/-- The operation may write a place yet. -/
def Task.mayWrite : Task → Bool
  | .load _ _ | .save _ _ | .loadIdentityBackup | .saveStored _ => true
  | .loadKeypair enabled | .resolveKeypair enabled | .saveFresh enabled _ => enabled
  | .saveIdentityBackup enabled _ => enabled
  | .disconnect _ (.restore enabled _) | .saveKeypair _ (.restore enabled _) => enabled
  | .disconnect _ .switch | .saveKeypair _ .switch => true
  | .remove _ => false

namespace Writing

variable (p : Platform) (w : Writing)

/-- The round is yet to write the place. -/
def Pending (i : Nat) : Prop :=
  w.saved.length ≤ i ∧ ∃ slot ∈ w.slots[i]?, w.writes p slot = some true

instance (i : Nat) : Decidable (w.Pending p i) := inferInstanceAs (Decidable (_ ∧ _))

/-- The place holds nothing usable, or an identity that the round may
replace. -/
def takes (content : Option (List Char)) : Bool := (content.bind (parse p)).all (w.allows p)

/-- The round waits at a place that it writes. -/
def AtCall : Prop := w.Pending p w.saved.length

/-- Nothing that the round is yet to write is lost. -/
def Clear (places : List (Option (List Char))) : Prop :=
  ∀ i, w.Pending p i → w.takes p places[i]?.join

/-- A round that goes on. -/
def Follows (w' w : Writing) : Prop :=
  ∃ extra, w' = { w with saved := w.saved ++ extra }

/-- The round copies an identity that it has found. -/
def copies : Bool :=
  match w.mode with
  | .copy _ => true
  | .all _ => false

end Writing

/-! ### What a step may overwrite -/

section Guards

variable (p : Platform) (s : Phone)

/-- The save that a step answers. -/
def saving (s : Phone) : Action → Option (Job × Writing)
  | .resume k _ =>
      (s.running[k]?).bind fun job =>
        match job.task with
        | .save w _ => some (job, w)
        | _ => none
  | _ => none

/-- A place that is written held nothing usable, the same identity, or one that
may be replaced. -/
def Replaces (a : Action) : Prop :=
  ∀ x ∈ saving s a, x.2.takes p (s.content x.2.saved.length)

/-- A place that is written was read. -/
def Answered (s : Phone) (a : Action) : Prop :=
  ∀ x ∈ saving s a, ∃ slot ∈ x.2.slots[x.2.saved.length]?, slot.answered

/-- A place is written by an operation that is not older than the last time the
backup was turned off. -/
def Current (s : Phone) (a : Action) : Prop := ∀ x ∈ saving s a, x.1.since = s.offs

instance (a : Action) : Decidable (Replaces p s a) :=
  inferInstanceAs (Decidable (∀ x ∈ saving s a, _))

instance (a : Action) : Decidable (Current s a) :=
  inferInstanceAs (Decidable (∀ x ∈ saving s a, _))

/-- A save of the `k`-th operation fills a place that another is yet to write,
with an identity that it may not replace. -/
def Fills (k : Nat) (w : Writing) (answer : Answer) : Prop :=
  ∃ content ∈ Phone.saveLeaves (w.secret p) (s.content w.saved.length) answer,
    ∃ job ∈ s.running.eraseIdx k, ∃ w' ∈ job.task.plan,
      w'.Pending p w.saved.length ∧ w'.takes p content = false

/-- A sync that was about to save its own identity turns to copying the one it
has just found, and a place that it has read as empty is filled by now. -/
def Turns (op : Op) (slots : List Slot) (answer : Answer) : Prop :=
  ∃ read ∈ readAnswer (s.content slots.length) answer,
    ∃ w ∈ writingOf op slots, w.copies = false ∧
      ∃ w' ∈ writingOf op (slots ++ [slotOf p read]), w'.copies = true ∧
        ∃ i < slots.length, w'.Pending p i ∧ w'.takes p (s.content i) = false

/-- The step may cost an identity. -/
def Collides : Action → Prop
  | .resume k answer =>
      ∃ job ∈ s.running[k]?,
        match job.task with
        | .save w _ => Fills p s k w answer
        | .load op slots => Turns p s op slots answer
        | _ => False
  | _ => False

/-- The backup is turned off while an operation may write a place. -/
def TurnsOff (s : Phone) : Action → Prop
  | .setIdentityBackup false => ∃ job ∈ s.running, job.task.mayWrite
  | _ => False

instance (k : Nat) (w : Writing) (answer : Answer) : Decidable (Fills p s k w answer) :=
  inferInstanceAs (Decidable (∃ content ∈ _, _))

instance (op : Op) (slots : List Slot) (answer : Answer) : Decidable (Turns p s op slots answer) :=
  inferInstanceAs (Decidable (∃ read ∈ _, _))

instance (k : Nat) (answer : Answer) (task : Task) : Decidable
    (match task with
      | .save w _ => Fills p s k w answer
      | .load op slots => Turns p s op slots answer
      | _ => False) :=
  match task with
  | .save w _ => inferInstanceAs (Decidable (Fills p s k w answer))
  | .load op slots => inferInstanceAs (Decidable (Turns p s op slots answer))
  | .loadIdentityBackup | .saveStored _ | .loadKeypair _ | .resolveKeypair _ | .saveFresh _ _
  | .saveIdentityBackup _ _ | .disconnect _ _ | .saveKeypair _ _ | .remove _ =>
      inferInstanceAs (Decidable False)

instance : (a : Action) → Decidable (Collides p s a)
  | .resume k _ => inferInstanceAs (Decidable (∃ job ∈ s.running[k]?, _))
  | .launch _ | .setIdentityBackup _ | .restoreIdentity _ _ | .switchToBackedUpIdentity _
  | .replaceBackupWithCurrent => inferInstanceAs (Decidable False)

instance : (a : Action) → Decidable (TurnsOff s a)
  | .setIdentityBackup false => inferInstanceAs (Decidable (∃ job ∈ s.running, _))
  | .setIdentityBackup true | .launch _ | .resume _ _ | .restoreIdentity _ _
  | .switchToBackedUpIdentity _ | .replaceBackupWithCurrent => inferInstanceAs (Decidable False)

end Guards

/-! ### Rounds -/

section Rounds

variable {p : Platform} {w w' w₀ : Writing} {slots : List Slot} {i : Nat}
  {content : Option (List Char)} {places : List (Option (List Char))}

namespace Writing

lemma Follows.refl (w : Writing) : w.Follows w := ⟨[], by rw [List.append_nil]⟩

lemma Follows.trans (h : w'.Follows w) (h' : w.Follows w₀) : w'.Follows w₀ := by
  obtain ⟨extra, rfl⟩ := h
  obtain ⟨extra', rfl⟩ := h'
  exact ⟨extra' ++ extra, by rw [List.append_assoc]⟩

lemma Follows.pending (h : w'.Follows w) (hp : w'.Pending p i) : w.Pending p i := by
  obtain ⟨extra, rfl⟩ := h
  obtain ⟨hlength, hslot⟩ := hp
  exact ⟨le_trans (List.IsPrefix.length_le (List.prefix_append _ _)) hlength, hslot⟩

lemma Follows.clear (h : w'.Follows w) (hw : w.Clear p places) : w'.Clear p places := by
  intro i hp
  have htakes := hw i (h.pending hp)
  obtain ⟨extra, rfl⟩ := h
  exact htakes

/-- A round stops at a place that it writes. -/
lemma seek_call (h : w.seek p slots = .call w') (hslots : w.slots.drop w.saved.length = slots) :
    w'.Follows w ∧ w'.AtCall p := by
  induction slots generalizing w with
  | nil => cases h
  | cons slot slots ih =>
      have hslot : w.slots[w.saved.length]? = some slot := by
        rw [← Nat.add_zero w.saved.length, ← List.getElem?_drop, hslots, List.getElem?_cons_zero]
      rw [seek] at h
      cases hwrites : w.writes p slot with
      | none =>
          rw [hwrites] at h
          cases h
      | some takes =>
          rw [hwrites] at h
          dsimp only at h
          split at h
          · rename_i htakes
            cases h
            exact ⟨.refl _, le_rfl, slot, hslot, hwrites.trans (congrArg some htakes.1)⟩
          · obtain ⟨hfollows, hcall⟩ := ih h (by
              rw [List.length_append, List.length_singleton, ← List.drop_drop, hslots]
              rfl)
            exact ⟨hfollows.trans ⟨[none], rfl⟩, hcall⟩

lemma next_call (h : w.next p = .call w') : w'.Follows w ∧ w'.AtCall p := seek_call h rfl

lemma start_call (h : w.start p = .call w') : w'.Follows w ∧ w'.AtCall p := by
  rw [start] at h
  split at h
  · cases h
  · exact next_call h

end Writing

/-- The places that an operation has read are those of its round. -/
lemma slots_of_writingOf {op : Op} (h : writingOf op slots = some w) :
    w.slots = slots ∧ w.saved = [] := by
  cases op with
  | sync keypair after =>
      rw [writingOf] at h
      split at h <;> cases h <;> exact ⟨rfl, rfl⟩
  | replace keypair replacing =>
      cases h
      exact ⟨rfl, rfl⟩
  | resolve => cases h
  | switch code connected => cases h

end Rounds

/-! ### What a stretch leads to -/

/-- An operation that goes on with the round `now` may wait at this task. -/
structure Task.Leads (p : Platform) (now : Option Writing) (may : Bool) (task : Task) : Prop where
  atCall : ∀ w after, task = .save w after → w.AtCall p
  plan : ∀ w' ∈ task.plan, w'.slots = [] ∨ ∃ w ∈ now, w'.Follows w
  may : task.mayWrite = true → may = true

/-- A stretch of an operation. -/
structure Goes (p : Platform) (now : Option Writing) (may : Bool) (job : Job) (s s' : Phone) :
    Prop where
  places : s'.places = s.places
  offs : s'.offs = s.offs
  running : s'.running = s.running ∨
    ∃ task : Task, task.Leads p now may ∧ s'.running = { job with task := task } :: s.running

section Stretches

variable {p : Platform} {s s' : Phone} {job : Job} {now : Option Writing} {may : Bool}
  {task : Task} {after : After} {op : Op} {slots : List Slot} {w : Writing}

/-- A task that is not part of a round. -/
lemma Task.leads_of_plan (hplan : task.plan = none) (hmay : task.mayWrite = true → may = true) :
    task.Leads p now may where
  atCall w after h := by
    rw [h] at hplan
    cases hplan
  plan w' h := by
    rw [hplan] at h
    cases h
  may := hmay

namespace Goes

lemma refl (s : Phone) : Goes p now may job s s := ⟨rfl, rfl, Or.inl rfl⟩

lemma spawn (h : task.Leads p now may) : Goes p now may job s (s.spawn job task) :=
  ⟨rfl, rfl, Or.inr ⟨task, h, rfl⟩⟩

lemma display (f : Hook → Hook) : Goes p now may job s (s.display job f) := by
  rw [Phone.display]
  split <;> exact ⟨rfl, rfl, Or.inl rfl⟩

/-- What is shown does not matter. -/
lemma of_display {f : Hook → Hook} (h : Goes p now may job (s.display job f) s') :
    Goes p now may job s s' := by
  rw [Phone.display] at h
  split at h <;> exact ⟨h.places, h.offs, h.running⟩

/-- Nor which key is stored. -/
lemma of_stored {stored : Option Keypair} (h : Goes p now may job { s with stored := stored } s') :
    Goes p now may job s s' := ⟨h.places, h.offs, h.running⟩

lemma settle (status : BackupStatus) : Goes p now may job s (s.settle job after status) := by
  cases after with
  | shown =>
      rw [Phone.settle]
      exact display _
  | launch keypair restored enabled =>
      rw [Phone.settle]
      exact display _

lemma round {r : Round} (hr : ∀ w', r = .call w' → w'.AtCall p ∧ ∃ w ∈ now, w'.Follows w) :
    Goes p now true job s (s.round p job after r) := by
  cases r with
  | call w' =>
      obtain ⟨hcall, hfollows⟩ := hr w' rfl
      refine spawn ⟨fun w after h => ?_, fun w' h => ?_, fun _ => rfl⟩
      · cases h
        exact hcall
      · cases h
        exact Or.inr hfollows
  | ended w =>
      rw [Phone.round]
      split
      · exact settle _
      · exact refl s
  | threw => exact refl s

lemma beginRound : Goes p now true job s (s.beginRound p job after now) := by
  cases now with
  | none => exact refl s
  | some w =>
      refine round fun w' h => ?_
      obtain ⟨hfollows, hcall⟩ := Writing.start_call h
      exact ⟨hcall, w, rfl, hfollows⟩

lemma replaceIdentity {keypair : Keypair} {connected : Bool} {next : Then}
    (hmay : (Task.saveKeypair keypair next).mayWrite = true → may = true) :
    Goes p now may job s (s.replaceIdentity job keypair connected next) := by
  rw [Phone.replaceIdentity]
  split
  · refine spawn (Task.leads_of_plan rfl fun h => hmay ?_)
    cases next <;> exact h
  · exact spawn (Task.leads_of_plan rfl hmay)

lemma readSlots : Goes p (writingOf op slots) true job s (s.readSlots p job slots op) := by
  cases op with
  | sync keypair after => exact beginRound
  | replace keypair replacing => exact beginRound
  | resolve =>
      rw [Phone.readSlots]
      split <;> exact spawn (Task.leads_of_plan rfl fun _ => rfl)
  | switch code connected =>
      rw [Phone.readSlots]
      split
      · exact replaceIdentity fun _ => rfl
      · exact refl s

/-- A read goes on with the round that its answers make. -/
lemma read : Goes p (writingOf op slots) true job s (s.read p job op slots) := by
  rw [Phone.read]
  split
  · refine spawn ⟨fun w after h => ?_, fun w' h => Or.inr ⟨w', h, .refl w'⟩, fun _ => rfl⟩
    cases h
  · exact readSlots

/-- An operation that has read nothing yet. -/
lemma readNew : Goes p now true job s (s.read p job op []) := by
  obtain ⟨hplaces, hoffs, hrunning⟩ : Goes p (writingOf op []) true job s (s.read p job op []) :=
    read
  refine ⟨hplaces, hoffs, hrunning.imp_right ?_⟩
  rintro ⟨task, hleads, hrunning⟩
  refine ⟨task, ⟨hleads.atCall, fun w' hw' => Or.inl ?_, hleads.may⟩, hrunning⟩
  rcases hleads.plan w' hw' with hnil | ⟨w, hw, extra, rfl⟩
  · exact hnil
  · exact (slots_of_writingOf hw).1

lemma mono (h : Goes p now true job s s') (hmay : may = true) : Goes p now may job s s' :=
  hmay ▸ h

lemma resolved {keypair : Keypair} {restored enabled syncs : Bool}
    (hmay : syncs = true → may = true) :
    Goes p now may job s (s.resolved p job keypair restored enabled syncs) := by
  rw [Phone.resolved]
  split
  · rename_i hsyncs
    exact readNew.mono (hmay hsyncs)
  · exact settle _

lemma removeFrom {i : Nat} : Goes p now may job s (s.removeFrom job i) := by
  rw [Phone.removeFrom]
  split
  · exact spawn (Task.leads_of_plan rfl fun h => by cases h)
  · exact display _

lemma booted {enabled : Bool} (hmay : enabled = true → may = true) :
    Goes p now may job s (s.booted p job enabled) := by
  rw [Phone.booted]
  split
  · split
    · dsimp only
      split
      · rename_i henabled
        exact of_display (readNew.mono (hmay henabled))
      · exact display _
    · exact refl s
  · exact spawn (Task.leads_of_plan rfl hmay)

lemma resolveIdentity {enabled : Bool} (hmay : enabled = true → may = true) :
    Goes p now may job s (s.resolveIdentity p job enabled) := by
  rw [Phone.resolveIdentity]
  split
  · exact resolved hmay
  · split
    · rename_i henabled
      exact readNew.mono (hmay henabled)
    · exact spawn (Task.leads_of_plan rfl fun h => by cases h)

lemma replaced {keypair : Keypair} {next : Then}
    (hmay : (Task.saveKeypair keypair next).mayWrite = true → may = true) :
    Goes p now may job s (s.replaced p job keypair next) := by
  cases next with
  | restore enabled previous =>
      rw [Phone.replaced]
      split
      · rename_i henabled
        exact of_stored (of_display (readNew.mono (hmay henabled)))
      · exact of_stored (display _)
  | switch => exact of_stored (of_display (readNew.mono (hmay rfl)))

lemma switched {enabled : Bool} {keypair : Option Keypair} (hmay : enabled = true → may = true) :
    Goes p now may job s (s.switched p job enabled keypair) := by
  have hstored : ∀ {s'}, Goes p now may job { s with identityBackup := enabled } s' →
      Goes p now may job s s' := fun h => ⟨h.places, h.offs, h.running⟩
  cases enabled with
  | false => exact hstored removeFrom
  | true =>
      cases keypair with
      | none => exact hstored (@settle p _ job now may .shown backupOff)
      | some keypair => exact hstored (readNew.mono (hmay rfl))

/-- An operation that is not part of a run of reads or writes, and may write. -/
lemma start {a : Action} (h : Identity.start p s job a = some s') : Goes p now true job s s' := by
  cases a with
  | launch killed =>
      cases h
      exact spawn (Task.leads_of_plan rfl fun _ => rfl)
  | setIdentityBackup enabled =>
      cases h
      exact spawn (Task.leads_of_plan rfl fun _ => rfl)
  | restoreIdentity recoveryKey connected =>
      rw [Identity.start] at h
      split at h
      · cases h
        exact refl s
      · cases h
        exact replaceIdentity fun _ => rfl
      · split at h
        · cases h
          exact replaceIdentity fun _ => rfl
        · cases h
          exact refl s
  | switchToBackedUpIdentity connected =>
      cases h
      exact readNew
  | replaceBackupWithCurrent =>
      rw [Identity.start] at h
      split at h
      · cases h
        exact readNew
      · cases h
        exact refl s
  | resume k answer => cases h

end Goes

/-! ### One answer -/

/-- The round of an operation that has its answer. -/
def Task.follow (p : Platform) (s : Phone) (answer : Answer) : Task → Option Writing
  | .load op slots =>
      (readAnswer (s.content slots.length) answer).bind fun read =>
        writingOf op (slots ++ [slotOf p read])
  | .save w _ => some { w with saved := w.saved ++ [Phone.savedWhere answer] }
  | _ => none

/-- What the answer leaves in the places. -/
def Phone.left (p : Platform) (s : Phone) (answer : Answer) : Task → List (Option (List Char))
  | .save w _ =>
      match Phone.saveLeaves (w.secret p) (s.content w.saved.length) answer with
      | some content => s.places.set w.saved.length content
      | none => s.places
  | .remove i =>
      match Phone.removeLeaves (s.content i) answer with
      | some content => s.places.set i content
      | none => s.places
  | _ => s.places

/-- **What an answer leads to.** -/
lemma resume_goes {answer : Answer} (h : resume p s job task answer = some s') :
    Goes p (task.follow p s answer) task.mayWrite job
      { s with places := s.left p answer task } s' := by
  cases task with
  | load op slots =>
      rw [resume] at h
      obtain ⟨read, hread, rfl⟩ := Option.map_eq_some_iff.mp h
      rw [Task.follow, hread]
      exact Goes.read
  | save w after =>
      rw [resume] at h
      obtain ⟨content, hcontent, rfl⟩ := Option.map_eq_some_iff.mp h
      rw [Phone.left, hcontent]
      refine Goes.round fun w' hw' => ?_
      obtain ⟨hfollows, hcall⟩ := Writing.next_call hw'
      exact ⟨hcall, _, rfl, hfollows⟩
  | remove i =>
      rw [resume] at h
      obtain ⟨content, hcontent, rfl⟩ := Option.map_eq_some_iff.mp h
      rw [Phone.left, hcontent]
      exact Goes.removeFrom
  | loadIdentityBackup =>
      cases answer with
      | done =>
          cases h
          exact .spawn (Task.leads_of_plan rfl fun _ => rfl)
      | failed left =>
          cases h
          exact .refl s
      | _ => cases h
  | loadKeypair enabled =>
      cases answer with
      | done =>
          cases h
          exact Goes.booted fun henabled => henabled
      | failed left =>
          cases h
          exact .refl s
      | _ => cases h
  | resolveKeypair enabled =>
      cases answer with
      | done =>
          cases h
          exact Goes.resolveIdentity fun henabled => henabled
      | failed left =>
          cases h
          exact .refl s
      | _ => cases h
  | saveFresh enabled slots =>
      cases answer with
      | stored fresh =>
          cases h
          exact .of_stored (.resolved fun hsyncs => (Bool.and_eq_true_iff.mp hsyncs).1)
      | failed left =>
          cases h
          exact .refl s
      | _ => cases h
  | saveStored keypair =>
      cases answer with
      | done =>
          cases h
          exact .of_stored (.resolved fun _ => rfl)
      | failed left =>
          cases h
          exact .refl s
      | _ => cases h
  | saveIdentityBackup enabled keypair =>
      cases answer with
      | done =>
          cases h
          exact Goes.switched fun henabled => henabled
      | failed left =>
          cases h
          exact .refl s
      | _ => cases h
  | disconnect keypair next =>
      cases answer with
      | done =>
          cases h
          exact .spawn (Task.leads_of_plan rfl fun hmay => by cases next <;> exact hmay)
      | failed left =>
          cases h
          exact .refl s
      | _ => cases h
  | saveKeypair keypair next =>
      cases answer with
      | done =>
          cases h
          exact Goes.replaced fun hmay => hmay
      | failed left =>
          cases h
          exact .refl s
      | _ => cases h

/-- Who is in flight after a stretch. -/
lemma Goes.mem (h : Goes p now may job s s') {j : Job} (hj : j ∈ s'.running) :
    j ∈ s.running ∨ ∃ task : Task, task.Leads p now may ∧ j = { job with task := task } := by
  rcases h.running with hsame | ⟨task, hleads, hcons⟩
  · exact Or.inl (hsame ▸ hj)
  · rw [hcons] at hj
    rcases List.mem_cons.mp hj with rfl | hj
    · exact Or.inr ⟨task, hleads, rfl⟩
    · exact Or.inl hj

end Stretches

/-! ### What a read says of a place -/

section Reads

variable {p : Platform} {w w' : Writing} {content : Option (List Char)} {slots : List Slot}

lemma parse_nil (p : Platform) : parse p [] = none := by
  have hbare : bare p [] = [] := by
    rw [bare]
    split <;> rfl
  rw [parse, decodeRecoveryKey, hbare]
  rfl

lemma bind_filter (p : Platform) (content : Option (List Char)) :
    (content.filter (· ≠ [])).bind (parse p) = content.bind (parse p) := by
  cases content with
  | none => rfl
  | some value =>
      by_cases hnil : value = []
      · rw [hnil]
        exact (parse_nil p).symm
      · have hkept : (some value).filter (· ≠ []) = some value := if_pos (decide_eq_true hnil)
        rw [hkept]

/-- A round decides on places by its identity and its mode. -/
lemma Writing.takes_congr (hkeypair : w'.keypair = w.keypair) (hmode : w'.mode = w.mode) :
    w'.takes p content = w.takes p content := by
  have hallowed : w'.allowed p = w.allowed p := by rw [allowed, allowed, hmode, hkeypair]
  have hallows : w'.allows p = w.allows p := funext fun keypair => by rw [allows, allows, hallowed]
  rw [takes, takes, hallows]

lemma Writing.writes_eq (w : Writing) (slot : Slot) : w.writes p slot =
    match slot with
    | .empty => some true
    | .held keypair =>
        if w.copies then some false else (codeOf p keypair).map fun c => c ∈ w.allowed p
    | _ => some false := by
  rw [Writing.writes.eq_def, copies]
  cases w.mode <;> cases slot <;> rfl

lemma Writing.writes_congr (hkeypair : w'.keypair = w.keypair) (hmode : w'.mode = w.mode)
    (slot : Slot) : w'.writes p slot = w.writes p slot := by
  have hallowed : w'.allowed p = w.allowed p := by rw [allowed, allowed, hmode, hkeypair]
  have hcopies : w'.copies = w.copies := by rw [copies, copies, hmode]
  rw [writes_eq, writes_eq, hallowed, hcopies]

lemma Writing.answered_of_writes {slot : Slot} (h : w.writes p slot = some true) :
    slot.answered = true := by
  rw [writes_eq] at h
  cases slot with
  | empty | held _ => rfl
  | unknown | unavailable => cases h

/-- A place that is written over holds what may be replaced. -/
lemma Writing.allows_of_writes {keypair : Keypair} (h : w.writes p (.held keypair) = some true) :
    w.allows p keypair = true := by
  rw [writes_eq] at h
  dsimp only at h
  split at h
  · cases h
  · obtain ⟨c, hc, hmem⟩ := Option.map_eq_some_iff.mp h
    rw [allows, hc]
    exact hmem

/-- What a round takes a place for is what it held. -/
lemma takes_of_read {answer : Answer} {read : Option BackupRead}
    (hread : readAnswer content answer = some read)
    (hwrites : w.writes p (slotOf p read) = some true) : w.takes p content = true := by
  have hanswered := Writing.answered_of_writes hwrites
  have hloaded : read = some (loaded content) := by
    cases answer with
    | read available =>
        cases available with
        | false =>
            cases hread
            cases hanswered
        | true => exact (Option.some.inj hread).symm
    | failed left =>
        cases left with
        | kept =>
            cases hread
            cases hanswered
        | _ => cases hread
    | _ => cases hread
  rw [Writing.takes, ← bind_filter]
  rw [hloaded, loaded, slotOf] at hwrites
  cases hparse : (content.filter (· ≠ [])).bind (parse p) with
  | none => rfl
  | some keypair =>
      rw [hparse] at hwrites
      exact Writing.allows_of_writes hwrites

/-- One more answer leaves the round of an operation as it is, or turns a sync
to copying. -/
lemma writingOf_append {op : Op} {slot : Slot} (h : writingOf op (slots ++ [slot]) = some w') :
    ∃ w, writingOf op slots = some w ∧
      ((w'.keypair = w.keypair ∧ w'.mode = w.mode) ∨ (w.copies = false ∧ w'.copies = true)) := by
  cases op with
  | sync keypair after =>
      rw [writingOf, differs, List.findSome?_append] at h
      rw [writingOf, differs]
      cases hbefore : slots.findSome? fun slot =>
          slot.keypair.filter (·.privateKey ≠ keypair.privateKey) with
      | none =>
          rw [hbefore, Option.none_or] at h
          refine ⟨_, rfl, ?_⟩
          split at h
          · cases h
            exact Or.inl ⟨rfl, rfl⟩
          · cases h
            exact Or.inr ⟨rfl, rfl⟩
      | some d =>
          rw [hbefore, Option.some_or] at h
          obtain ⟨slot', hslot', hd⟩ := List.exists_of_findSome?_eq_some hbefore
          -- an identity is held already, and the first one stays the first
          have hfirst : ∃ first, firstHeld slots = some first := by
            refine Option.isSome_iff_exists.mp (List.findSome?_isSome_iff.mpr ⟨slot', hslot', ?_⟩)
            cases hkeypair : slot'.keypair with
            | none =>
                rw [hkeypair] at hd
                cases hd
            | some keypair' => rfl
          obtain ⟨first, hfirst⟩ := hfirst
          have hsame : firstHeld (slots ++ [slot]) = some first := by
            rw [firstHeld, List.findSome?_append]
            exact congrArg (Option.or · _) hfirst
          refine ⟨_, rfl, Or.inl ?_⟩
          cases h
          exact ⟨by rw [hsame, hfirst], rfl⟩
  | replace keypair replacing =>
      cases h
      exact ⟨_, rfl, Or.inl ⟨rfl, rfl⟩⟩
  | resolve => cases h
  | switch code connected => cases h

end Reads

/-! ### What is yet to be written stays free -/

section Invariants

variable {p : Platform} {s s' : Phone} {job : Job} {a : Action} {k : Nat} {answer : Answer}
  {w : Writing}

/-- A place after another has been set. -/
lemma content_set (places : List (Option (List Char))) (i j : Nat) (content : Option (List Char)) :
    (places.set i content)[j]?.join = places[j]?.join ∨
      (j = i ∧ (places.set i content)[j]?.join = content) := by
  rw [List.getElem?_set]
  split
  · rename_i hij
    split
    · exact Or.inr ⟨hij.symm, rfl⟩
    · rename_i hlength
      rw [List.getElem?_eq_none (by omega)]
      exact Or.inl rfl
  · exact Or.inl rfl

/-- What an answer leaves in the places, another operation may replace. -/
lemma clear_left (hjob : s.running[k]? = some job) (hno : ¬ Collides p s (.resume k answer))
    {other : Job} (hother : other ∈ s.running.eraseIdx k) (hw : w ∈ other.task.plan)
    (hclear : w.Clear p s.places) : w.Clear p (s.left p answer job.task) := by
  intro j hj
  cases htask : job.task with
  | save w' after =>
      rw [Phone.left]
      cases hleaves : Phone.saveLeaves (w'.secret p) (s.content w'.saved.length) answer with
      | none => exact hclear j hj
      | some content =>
          rcases content_set s.places w'.saved.length j content with hsame | ⟨rfl, hcontent⟩
          · exact hsame ▸ hclear j hj
          · by_contra htakes
            refine hno ⟨job, hjob, ?_⟩
            rw [htask]
            exact ⟨content, hleaves, other, hother, w, hw, hj,
              Bool.eq_false_iff.mpr fun ht => htakes (hcontent.symm ▸ ht)⟩
  | remove i =>
      rw [Phone.left]
      cases hleaves : Phone.removeLeaves (s.content i) answer with
      | none => exact hclear j hj
      | some content =>
          rcases content_set s.places i j content with hsame | ⟨rfl, hcontent⟩
          · exact hsame ▸ hclear j hj
          · -- what was there stays, or the place is empty
            have hkept : content = none ∨ content = s.places[j]?.join := by
              cases answer with
              | removed gone =>
                  cases gone <;> cases hleaves
                  · exact Or.inr rfl
                  · exact Or.inl rfl
              | failed left =>
                  cases left <;> cases hleaves
                  · exact Or.inr rfl
                  · exact Or.inl rfl
              | _ => cases hleaves
            rw [hcontent]
            rcases hkept with rfl | rfl
            · rfl
            · exact hclear j hj
  | _ => exact hclear j hj

/-- What an operation goes on with, it may write over what is there. -/
lemma clear_follow (hjob : s.running[k]? = some job) (hno : ¬ Collides p s (.resume k answer))
    (hclear : ∀ w ∈ job.task.plan, w.Clear p s.places) (hw : w ∈ job.task.follow p s answer) :
    w.Clear p (s.left p answer job.task) := by
  intro j hj
  cases htask : job.task with
  | load op slots =>
      rw [htask] at hw hclear
      obtain ⟨read, hread, hround⟩ := Option.bind_eq_some_iff.mp hw
      obtain ⟨hslots, -⟩ := slots_of_writingOf hround
      obtain ⟨before, hbefore, hround'⟩ := writingOf_append hround
      obtain ⟨-, slot, hslot, hwrites⟩ := hj
      rw [hslots] at hslot
      rcases Nat.lt_or_ge j slots.length with hlt | hge
      · -- a place that was read before
        rw [List.getElem?_append_left hlt] at hslot
        rcases hround' with ⟨hkeypair, hmode⟩ | ⟨hsaves, hcopies⟩
        · rw [Writing.takes_congr hkeypair hmode]
          obtain ⟨hslots', hsaved'⟩ := slots_of_writingOf hbefore
          refine hclear before hbefore j ⟨?_, slot, ?_, ?_⟩
          · rw [hsaved']
            exact Nat.zero_le j
          · rw [hslots']
            exact hslot
          · rw [← Writing.writes_congr hkeypair hmode]
            exact hwrites
        · by_contra htakes
          refine hno ⟨job, hjob, ?_⟩
          rw [htask]
          obtain ⟨-, hsaved⟩ := slots_of_writingOf hround
          refine ⟨read, hread, before, hbefore, hsaves, w, hround, hcopies, j, hlt, ⟨?_, slot, ?_,
            hwrites⟩, Bool.eq_false_iff.mpr htakes⟩
          · rw [hsaved]
            exact Nat.zero_le j
          · rw [hslots, List.getElem?_append_left hlt]
            exact hslot
      · -- the place that was just read
        obtain rfl : j = slots.length := by
          have hlength := (List.getElem?_eq_some_iff.mp hslot).1
          rw [List.length_append, List.length_singleton] at hlength
          omega
        rw [List.getElem?_concat_length] at hslot
        cases hslot
        exact takes_of_read hread hwrites
  | save w' after =>
      rw [htask] at hw hclear
      cases hw
      rw [Phone.left]
      have hpassed : w'.saved.length < j := by
        have hlength := hj.1
        rwa [List.length_append, List.length_singleton] at hlength
      have hfollows : Writing.Follows
          { w' with saved := w'.saved ++ [Phone.savedWhere answer] } w' := ⟨_, rfl⟩
      have htakes := hfollows.clear (hclear w' rfl) j hj
      cases hleaves : Phone.saveLeaves (w'.secret p) (s.content w'.saved.length) answer with
      | none => exact htakes
      | some content =>
          rcases content_set s.places w'.saved.length j content with hsame | ⟨hj', -⟩
          · exact hsame ▸ htakes
          · omega
  | _ =>
      rw [htask] at hw
      cases hw

/-- A step answers a call, or begins an operation. -/
lemma step_cases (h : step p s a = some s') :
    (∃ k answer job, a = .resume k answer ∧ s.running[k]? = some job ∧
      Goes p (job.task.follow p s answer) job.task.mayWrite job
        { s with running := s.running.eraseIdx k, places := s.left p answer job.task } s') ∨
    Goes p none true ⟨(s.noticed a).offs, (s.noticed a).mount, .loadIdentityBackup⟩
      (s.noticed a) s' := by
  cases a with
  | resume k answer =>
      obtain ⟨job, hjob, hresume⟩ := Option.bind_eq_some_iff.mp h
      exact Or.inl ⟨k, answer, job, rfl, hjob, resume_goes hresume⟩
  | launch killed => exact Or.inr (Goes.start (a := .launch killed) h)
  | setIdentityBackup enabled => exact Or.inr (Goes.start (a := .setIdentityBackup enabled) h)
  | restoreIdentity recoveryKey connected =>
      exact Or.inr (Goes.start (a := .restoreIdentity recoveryKey connected) h)
  | switchToBackedUpIdentity connected =>
      exact Or.inr (Goes.start (a := .switchToBackedUpIdentity connected) h)
  | replaceBackupWithCurrent => exact Or.inr (Goes.start (a := .replaceBackupWithCurrent) h)

lemma places_noticed (s : Phone) (a : Action) : (s.noticed a).places = s.places := by
  cases a with
  | setIdentityBackup enabled => cases enabled <;> rfl
  | _ => rfl

lemma mem_of_noticed (h : job ∈ (s.noticed a).running) : job ∈ s.running := by
  cases a with
  | launch killed =>
      cases killed with
      | true => cases h
      | false => exact h
  | setIdentityBackup enabled => cases enabled <;> exact h
  | _ => exact h

/-- The backup is turned off when nothing in flight may write. -/
lemma offs_noticed (hno : ¬ TurnsOff s a) (hjob : job ∈ s.running)
    (hmay : job.task.mayWrite = true) : (s.noticed a).offs = s.offs := by
  cases a with
  | setIdentityBackup enabled =>
      cases enabled with
      | true => rfl
      | false => exact absurd ⟨job, hjob, hmay⟩ hno
  | _ => rfl

/-- Every round in flight waits at a place that it writes. -/
def AtCalls (p : Platform) (s : Phone) : Prop :=
  ∀ job ∈ s.running, ∀ w after, job.task = .save w after → w.AtCall p

lemma step_atCalls (hs : AtCalls p s) (h : step p s a = some s') : AtCalls p s' := by
  intro j hj
  rcases step_cases h with ⟨k, answer, job, -, -, hgoes⟩ | hgoes
  · rcases hgoes.mem hj with hold | ⟨task, hleads, rfl⟩
    · exact hs j (List.mem_of_mem_eraseIdx hold)
    · exact hleads.atCall
  · rcases hgoes.mem hj with hold | ⟨task, hleads, rfl⟩
    · exact hs j (mem_of_noticed hold)
    · exact hleads.atCall

/-- No operation in flight is about to overwrite what it may not. -/
def Clears (p : Platform) (s : Phone) : Prop :=
  ∀ job ∈ s.running, ∀ w ∈ job.task.plan, w.Clear p s.places

/-- A round that has read nothing writes nothing yet. -/
lemma Writing.clear_of_nil {places : List (Option (List Char))} (h : w.slots = []) :
    w.Clear p places := by
  rintro j ⟨-, slot, hslot, -⟩
  rw [h] at hslot
  cases hslot

lemma step_clears (hs : Clears p s) (hno : ¬ Collides p s a) (h : step p s a = some s') :
    Clears p s' := by
  intro j hj w hw
  rcases step_cases h with ⟨k, answer, job, rfl, hjob, hgoes⟩ | hgoes
  · rw [hgoes.places]
    rcases hgoes.mem hj with hold | ⟨task, hleads, rfl⟩
    · exact clear_left hjob hno hold hw (hs j (List.mem_of_mem_eraseIdx hold) w hw)
    · rcases hleads.plan w hw with hnil | ⟨w', hw', hfollows⟩
      · exact Writing.clear_of_nil hnil
      · exact hfollows.clear
          (clear_follow hjob hno (hs job (List.mem_of_getElem? hjob)) hw')
  · rw [hgoes.places, places_noticed]
    rcases hgoes.mem hj with hold | ⟨task, hleads, rfl⟩
    · exact hs j (mem_of_noticed hold) w hw
    · rcases hleads.plan w hw with hnil | ⟨w', hw', -⟩
      · exact Writing.clear_of_nil hnil
      · cases hw'

/-- What may write was begun since the backup was last turned off. -/
def Heeds (s : Phone) : Prop := ∀ job ∈ s.running, job.task.mayWrite = true → job.since = s.offs

lemma step_heeds (hs : Heeds s) (hno : ¬ TurnsOff s a) (h : step p s a = some s') : Heeds s' := by
  intro j hj hmay
  rcases step_cases h with ⟨k, answer, job, -, hjob, hgoes⟩ | hgoes
  · rw [hgoes.offs]
    rcases hgoes.mem hj with hold | ⟨task, hleads, rfl⟩
    · exact hs j (List.mem_of_mem_eraseIdx hold) hmay
    · exact hs job (List.mem_of_getElem? hjob) (hleads.may hmay)
  · rw [hgoes.offs]
    rcases hgoes.mem hj with hold | ⟨task, hleads, rfl⟩
    · rw [offs_noticed hno (mem_of_noticed hold) hmay]
      exact hs j (mem_of_noticed hold) hmay
    · rfl

lemma mem_saving {x : Job × Writing} (h : x ∈ saving s a) :
    x.1 ∈ s.running ∧ ∃ after, x.1.task = .save x.2 after := by
  cases a with
  | resume k answer =>
      obtain ⟨job, hjob, hx⟩ := Option.bind_eq_some_iff.mp h
      split at hx
      · rename_i w after htask
        cases hx
        exact ⟨List.mem_of_getElem? hjob, after, htask⟩
      · cases hx
  | _ => cases h

lemma answered_of_atCalls (hs : AtCalls p s) : Answered s a := by
  intro x hx
  obtain ⟨hjob, after, htask⟩ := mem_saving hx
  obtain ⟨-, slot, hslot, hwrites⟩ := hs x.1 hjob x.2 after htask
  exact ⟨slot, hslot, Writing.answered_of_writes hwrites⟩

lemma replaces_of_clears (hs : AtCalls p s) (hclear : Clears p s) : Replaces p s a := by
  intro x hx
  obtain ⟨hjob, after, htask⟩ := mem_saving hx
  exact hclear x.1 hjob x.2 (by rw [htask]; rfl) _ (hs x.1 hjob x.2 after htask)

lemma current_of_heeds (hs : Heeds s) : Current s a := by
  intro x hx
  obtain ⟨hjob, after, htask⟩ := mem_saving hx
  exact hs x.1 hjob (by rw [htask]; rfl)

end Invariants

/-! ### The backup over whole runs -/

/-- The phone before the first launch. -/
def Phone.fresh (places : List (Option (List Char))) (stored : Option Keypair)
    (identityBackup : Bool) : Phone :=
  ⟨places, stored, identityBackup, 0, ⟨none, ⟨true, backupOff⟩, false⟩, [], 0⟩

/-- **No identity is overwritten** in a run without collisions, nothing is
written after the backup is turned off unless it is while an operation is in
flight, and a place is only written where its read was answered. -/
theorem backup_keeps_identities (p : Platform) (places : List (Option (List Char)))
    (stored : Option Keypair) (identityBackup : Bool) (as : List Action) :
    Along (step p) Answered (.fresh places stored identityBackup) as ∧
    (Along (step p) (fun s a => ¬ Collides p s a) (.fresh places stored identityBackup) as →
      Along (step p) (Replaces p) (.fresh places stored identityBackup) as) ∧
    (Along (step p) (fun s a => ¬ TurnsOff s a) (.fresh places stored identityBackup) as →
      Along (step p) Current (.fresh places stored identityBackup) as) := by
  have hnone : ∀ job, job ∉ (Phone.fresh places stored identityBackup).running := fun _ hjob => by
    cases hjob
  have hcalls : AtCalls p (.fresh places stored identityBackup) := fun job hjob =>
    absurd hjob (hnone job)
  have hclears : Clears p (.fresh places stored identityBackup) := fun job hjob =>
    absurd hjob (hnone job)
  have hheeds : Heeds (.fresh places stored identityBackup) := fun job hjob =>
    absurd hjob (hnone job)
  refine ⟨?_, fun hno => ?_, fun hno => ?_⟩
  · exact Along.strengthen (I := AtCalls p) (fun s a s' hs _ h => step_atCalls hs h)
      (fun s a hs _ => answered_of_atCalls hs) hcalls (along_of_forall (fun _ _ => trivial) _ _)
  · exact Along.strengthen (I := fun s => AtCalls p s ∧ Clears p s)
      (fun s a s' hs hno h => ⟨step_atCalls hs.1 h, step_clears hs.2 hno h⟩)
      (fun s a hs _ => replaces_of_clears hs.1 hs.2) ⟨hcalls, hclears⟩ hno
  · exact Along.strengthen (I := Heeds) (fun s a s' hs hno h => step_heeds hs hno h)
      (fun s a hs _ => current_of_heeds hs) hheeds hno

/-! ### A restored identity is lost, and one that is kept -/

/-- A platform whose digest is the beginning of the text. -/
def textPlatform : Platform where
  sha256 bytes := ⟨(bytes ++ List.replicate 32 0).take 32, by simp⟩
  publicKeyFromPrivate key := key
  toUpperCase := List.map Char.toUpper

/-- The key pair of one byte, written 32 times. -/
def byteKeypair (n : UInt8) : Keypair :=
  ⟨Base64.encode (List.replicate 32 n), Base64.encode (List.replicate 32 n)⟩

/-- The key that the user writes down. -/
def paidKey : List Char :=
  (encodeRecoveryKey textPlatform (byteKeypair 2).privateKey).toOption.getD []

/-- The sync of a launch reads an empty place, the user restores the paid
identity, which is saved there, and the sync saves its own. -/
def lostRun : List Action :=
  [.launch true, .resume 0 .done, .resume 0 .done, .resume 0 (.read true),
    .restoreIdentity paidKey false, .resume 0 .done, .resume 0 (.read true),
    .resume 0 (.saved .device), .resume 0 (.saved .device)]

theorem restore_lost :
    ¬ ∀ (p : Platform) (places : List (Option (List Char))) (stored : Option Keypair)
      (identityBackup : Bool) (as : List Action),
      Along (step p) (fun s a => Replaces p s a ∧ Answered s a ∧ Current s a)
        (.fresh places stored identityBackup) as := by
  intro h
  have hlost : ¬ Along (step textPlatform) (Replaces textPlatform)
      (.fresh [none] (some (byteKeypair 1)) true) lostRun := by decide +kernel
  exact hlost ((h textPlatform [none] (some (byteKeypair 1)) true lostRun).imp fun _ _ hall =>
    hall.1)

/-- The sync of a launch saves its identity, the backup is turned off, which
clears the place, and on again, which saves it once more. -/
def keptRun : List Action :=
  [.launch true, .resume 0 .done, .resume 0 .done, .resume 0 (.read true),
    .resume 0 (.saved .device), .setIdentityBackup false, .resume 0 .done,
    .resume 0 (.removed true), .setIdentityBackup true, .resume 0 .done, .resume 0 (.read true),
    .resume 0 (.saved .device)]

theorem backup_keeps_identities_kept :
    (exec (step textPlatform) (.fresh [none] (some (byteKeypair 1)) true) keptRun).map
      (fun s => (s.places.map fun place =>
        (place.bind (parse textPlatform)).map Keypair.privateKey, s.offs)) =
        some ([some (byteKeypair 1).privateKey], 1) ∧
    Along (step textPlatform) (Replaces textPlatform)
      (.fresh [none] (some (byteKeypair 1)) true) keptRun ∧
    Along (step textPlatform) Current (.fresh [none] (some (byteKeypair 1)) true) keptRun := by
  obtain ⟨-, hreplaces, hcurrent⟩ :=
    backup_keeps_identities textPlatform [none] (some (byteKeypair 1)) true keptRun
  exact ⟨by decide +kernel, hreplaces (by decide +kernel), hcurrent (by decide +kernel)⟩

end CumulusVpn.Mobile.Identity
