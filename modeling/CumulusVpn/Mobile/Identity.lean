/-
The device identity and its backup (`clients/mobile/src/state/identity.ts`, and
the actions on it in `useVpn.ts`).

A copy of the identity lives in one or more places.  Every operation reads them
all and then writes some, one call at a time, and operations interleave at their
awaits in any order.

* `Slot`, `slotOf`: what a place answered;
* `Writing`, `Writing.seek`: a round of writes, up to its next call;
* `writingOf`: which round an operation begins once its reads are over;
* `resume`: the stretch of an operation when its call is answered;
* `step`: the whole, with the user's actions and the launches of the app.
-/
import CumulusVpn.Client.RecoveryKey
import CumulusVpn.Lib.StepSystem

namespace CumulusVpn.Mobile.Identity

open Client

/-- The payment code of an identity. -/
abbrev Code := List Char

/-! ### Places -/

/-- Where a saved copy lives. -/
inductive BackupWhere
  | cloud
  | device
  | unavailable
deriving DecidableEq, Repr

/-- A read of a place that could answer. -/
inductive BackupRead
  | ok (value : Option (List Char))
  | unavailable

/-- What the app shows of the backup. -/
structure BackupStatus where
  where' : Option BackupWhere
  other : Option Code

/-- The status without a backup. -/
def backupOff : BackupStatus := ⟨none, none⟩

/-- What one place answered. -/
inductive Slot
  /-- the store could not answer -/
  | unknown
  /-- no backup of this kind on this device -/
  | unavailable
  /-- nothing stored, or no recovery key -/
  | empty
  | held (keypair : Keypair)

/-- The identity that a place holds. -/
def Slot.keypair : Slot → Option Keypair
  | .held keypair => some keypair
  | _ => none

section Reads

variable (p : Platform)

/-- The payment code of a public key; it throws on any that has not 32 bytes. -/
def paymentCode (publicKeyB64 : List Char) : Option Code :=
  ((Base64.decode publicKeyB64).filter (·.length = 32)).map fun raw =>
    Base58.encode ((p.sha256 raw).1.take 20)

/-- The payment code of a key pair. -/
def codeOf (kp : Keypair) : Option Code := paymentCode p kp.publicKey

/-- The key pair that a place holds the recovery key of. -/
def parse (value : List Char) : Option Keypair := (decodeRecoveryKey p value).toOption

/-- What a place with this content answers. -/
def loaded (content : Option (List Char)) : BackupRead := .ok (content.filter (· ≠ []))

/-- `readSlot`; `none` is a rejection. -/
def slotOf : Option BackupRead → Slot
  | none => .unknown
  | some .unavailable => .unavailable
  | some (.ok value) =>
      match value.bind (parse p) with
      | some keypair => .held keypair
      | none => .empty

/-- The first identity held, in read order. -/
def firstHeld (slots : List Slot) : Option Keypair := slots.findSome? Slot.keypair

/-- The identity that the backup holds, or the one with a code. -/
def readBackedUp (code : Option Code) : List Slot → Option Keypair
  | [] => none
  | .held keypair :: slots =>
      match code, codeOf p keypair with
      | none, _ => some keypair
      -- `codeOf` throws
      | some _, none => none
      | some code', some c => if c = code' then some keypair else readBackedUp code slots
  | _ :: slots => readBackedUp code slots

end Reads

/-! ### Rounds of writes -/

/-- What a write is for. -/
inductive Mode
  /-- `writeAll` -/
  | all (replacing : List Code)
  /-- `syncBackup` while a different identity is reported -/
  | copy (differs : Keypair)

/-- A round of writes; `saved` is what the places so far answered, or `none`
where they were not written. -/
structure Writing where
  keypair : Keypair
  mode : Mode
  slots : List Slot
  saved : List (Option BackupWhere)

/-- A round stops at a call, ends or throws. -/
inductive Round
  | call (w : Writing)
  | ended (w : Writing)
  | threw

/-- Where the backup lives after a round. -/
def whereOf (slots : List Slot) (saved : List (Option BackupWhere)) : Option BackupWhere :=
  match saved.findSome? fun w => w.filter (· ≠ .unavailable) with
  | some took => some took
  | none =>
      let none' := (slots.zip saved).all fun (slot, w) =>
        match slot with
        | .unavailable => true
        | _ => w = some .unavailable
      if none' then some .unavailable else none

/-- Membership in a list of codes is decided the same way everywhere. -/
local instance lawful_code : LawfulBEq (List Char) := inferInstance

namespace Writing

variable (p : Platform) (w : Writing)

/-- The identities that a round may replace: its own, and those it names. -/
def allowed : List Code :=
  match w.mode with
  | .all replacing => (codeOf p w.keypair).toList ++ replacing
  | .copy _ => (codeOf p w.keypair).toList

/-- A place that holds this identity may be written over. -/
def allows (keypair : Keypair) : Bool := (codeOf p keypair).any (· ∈ w.allowed p)

/-- Whether a place that answered `slot` is written; `none` where `codeOf`
throws. -/
def writes (slot : Slot) : Option Bool :=
  match w.mode, slot with
  | _, .empty => some true
  | .all _, .held keypair => (codeOf p keypair).map fun c => c ∈ w.allowed p
  | _, _ => some false

/-- What is written; `none` where it cannot be encoded. -/
def secret : Option (List Char) := (encodeRecoveryKey p w.keypair.privateKey).toOption

/-- The round from the place on that `slots` begins with. -/
def seek (w : Writing) : List Slot → Round
  | [] => .ended w
  | slot :: slots =>
      match w.writes p slot with
      | none => .threw
      | some takes =>
          if takes ∧ (w.secret p).isSome then .call w
          else seek { w with saved := w.saved ++ [none] } slots

/-- The round from its next place on. -/
def next : Round := w.seek p (w.slots.drop w.saved.length)

/-- The first identity that a round leaves alone. -/
def other : Option Code :=
  w.slots.findSome? fun slot =>
    (slot.keypair.bind (codeOf p)).filter (· ∉ w.allowed p)

/-- What a round reports; `none` where `codeOf` throws. -/
def status : Option BackupStatus :=
  match w.mode with
  | .all _ =>
      match w.other p with
      | some other => some ⟨none, some other⟩
      | none => some ⟨whereOf w.slots w.saved, none⟩
  | .copy differs => (codeOf p differs).map fun c => ⟨none, some c⟩

end Writing

/-! ### Operations -/

/-- What is done with the status of a round. -/
inductive After
  /-- it is shown, with the backup on -/
  | shown
  /-- the boot goes on with an identity -/
  | launch (keypair : Keypair) (restored enabled : Bool)

/-- What the places are read for. -/
inductive Op
  | sync (keypair : Keypair) (after : After)
  | replace (keypair : Keypair) (replacing : List Code)
  /-- on a launch without a key, with the backup on -/
  | resolve
  /-- the backed-up identity to switch to -/
  | switch (code : Option Code) (connected : Bool)

/-- What follows `replaceIdentity`. -/
inductive Then
  | restore (enabled : Bool) (previous : List Code)
  | switch

/-- Where an operation waits. -/
inductive Task
  | load (op : Op) (slots : List Slot)
  | save (w : Writing) (after : After)
  | remove (i : Nat)
  /-- the preference, at boot -/
  | loadIdentityBackup
  | loadKeypair (enabled : Bool)
  /-- again, in `resolveIdentity` -/
  | resolveKeypair (enabled : Bool)
  /-- a new key is stored -/
  | saveFresh (enabled : Bool) (slots : List Slot)
  | saveStored (keypair : Keypair)
  | saveIdentityBackup (enabled : Bool) (keypair : Option Keypair)
  | disconnect (keypair : Keypair) (after : Then)
  | saveKeypair (keypair : Keypair) (after : Then)

/-- An operation in flight: since how many turn-offs of the backup, and for which
mount of the app. -/
structure Job where
  since : Nat
  mount : Nat
  task : Task

/-- What the hook hands to the settings. -/
structure IdentityBackupModel where
  enabled : Bool
  status : BackupStatus

/-- What the hook shows. -/
structure Hook where
  keypair : Option Keypair
  identityBackup : IdentityBackupModel
  identityRestored : Bool

/-- The phone: what its places hold, the app, and what the app has under way. -/
structure Phone where
  /-- what each place holds, in read order -/
  places : List (Option (List Char))
  stored : Option Keypair
  identityBackup : Bool
  mount : Nat
  hook : Hook
  running : List Job
  /-- how often the user has turned the backup off -/
  offs : Nat

/-- What a rejected call has left in its place. -/
inductive Left
  | kept
  | cleared
  | written
deriving DecidableEq, Repr

/-- What a call comes back with. -/
inductive Answer
  | read (available : Bool)
  | saved (where' : BackupWhere)
  | removed (gone : Bool)
  /-- a key is generated and stored -/
  | stored (fresh : Keypair)
  | done
  | failed (left : Left)

/-- What the user or the system does. -/
inductive Action
  | launch (killed : Bool)
  | setIdentityBackup (enabled : Bool)
  | restoreIdentity (recoveryKey : List Char) (connected : Bool)
  | switchToBackedUpIdentity (connected : Bool)
  | replaceBackupWithCurrent
  | resume (i : Nat) (answer : Answer)

/-- The first identity that differs from `keypair`. -/
def differs (keypair : Keypair) (slots : List Slot) : Option Keypair :=
  slots.findSome? fun slot => slot.keypair.filter (·.privateKey ≠ keypair.privateKey)

/-- The round that an operation begins after these reads, if it writes. -/
def writingOf (op : Op) (slots : List Slot) : Option Writing :=
  match op with
  | .sync keypair _ =>
      match differs keypair slots with
      | none => some ⟨keypair, .all [], slots, []⟩
      | some d => some ⟨(firstHeld slots).getD d, .copy d, slots, []⟩
  | .replace keypair replacing => some ⟨keypair, .all replacing, slots, []⟩
  | _ => none

/-- The start of a round: `writeAll` first takes the code of its identity. -/
def Writing.start (p : Platform) (w : Writing) : Round :=
  match w.mode, codeOf p w.keypair with
  | .all _, none => .threw
  | _, _ => w.next p

namespace Phone

variable (p : Platform) (s : Phone) (job : Job)

/-- A job goes on with a task. -/
def spawn (task : Task) : Phone :=
  { s with running := { job with task := task } :: s.running }

/-- A component that is gone shows nothing. -/
def display (f : Hook → Hook) : Phone :=
  if job.mount = s.mount then { s with hook := f s.hook } else s

/-- What a round shows when it is over. -/
def settle (after : After) (status : BackupStatus) : Phone :=
  match after with
  | .shown => s.display job fun hook => { hook with identityBackup := ⟨true, status⟩ }
  | .launch keypair restored enabled =>
      s.display job fun _ => ⟨some keypair, ⟨enabled, status⟩, restored⟩

/-- A round goes on, or is over. -/
def round (after : After) : Round → Phone
  | .call w => s.spawn job (.save w after)
  | .ended w =>
      match w.status p with
      | some status => s.settle job after status
      | none => s
  | .threw => s

/-- A round begins, if there is anything to write. -/
def beginRound (after : After) (w : Option Writing) : Phone :=
  match w with
  | some w => s.round p job after (w.start p)
  | none => s

/-- `replaceIdentity`. -/
def replaceIdentity (keypair : Keypair) (connected : Bool) (after : Then) : Phone :=
  if connected then s.spawn job (.disconnect keypair after)
  else s.spawn job (.saveKeypair keypair after)

/-- An operation whose reads are over. -/
def readSlots (slots : List Slot) (op : Op) : Phone :=
  match op with
  | .sync _ after => s.beginRound p job after (writingOf op slots)
  | .replace _ _ => s.beginRound p job .shown (writingOf op slots)
  | .resolve =>
      match firstHeld slots with
      | some stored => s.spawn job (.saveStored stored)
      | none => s.spawn job (.saveFresh true slots)
  | .switch code connected =>
      match readBackedUp p code slots with
      | some keypair => s.replaceIdentity job keypair connected .switch
      | none => s

/-- The places are read one by one. -/
def read (op : Op) (slots : List Slot) : Phone :=
  if slots.length < s.places.length then s.spawn job (.load op slots)
  else s.readSlots p job slots op

/-- `resolveIdentity` has an identity and syncs it, if at all. -/
def resolved (keypair : Keypair) (restored enabled syncs : Bool) : Phone :=
  if syncs then s.read p job (.sync keypair (.launch keypair restored enabled)) []
  else s.settle job (.launch keypair restored enabled) backupOff

/-- The places are cleared one by one. -/
def removeFrom (i : Nat) : Phone :=
  if i < s.places.length then s.spawn job (.remove i)
  else s.display job fun hook => { hook with identityBackup := ⟨false, backupOff⟩ }

/-- The boot has read the stored key. -/
def booted (enabled : Bool) : Phone :=
  match s.stored with
  | some kp =>
      if job.mount = s.mount then
        let shown := s.display job fun hook =>
          { hook with keypair := some kp, identityBackup := ⟨enabled, backupOff⟩ }
        if enabled then shown.read p job (.sync kp .shown) [] else shown
      else s
  | none => s.spawn job (.resolveKeypair enabled)

/-- `resolveIdentity` has read the stored key. -/
def resolveIdentity (enabled : Bool) : Phone :=
  match s.stored with
  | some kp => s.resolved p job kp false enabled enabled
  | none =>
      if enabled then s.read p job .resolve [] else s.spawn job (.saveFresh false [])

/-- `replaceIdentity` has stored the key. -/
def replaced (keypair : Keypair) (after : Then) : Phone :=
  let s' := { s with stored := some keypair }.display job fun hook =>
    { hook with keypair := some keypair, identityRestored := false }
  match after with
  | .restore enabled previous =>
      if enabled then s'.read p job (.replace keypair previous) [] else s'
  | .switch => s'.read p job (.sync keypair .shown) []

/-- The preference is stored. -/
def switched (enabled : Bool) (keypair : Option Keypair) : Phone :=
  let s' := { s with identityBackup := enabled }
  if !enabled then s'.removeFrom job 0
  else
    match keypair with
    | some kp => s'.read p job (.sync kp .shown) []
    | none => s'.settle job .shown backupOff

/-- What a save leaves in a place. -/
def saveLeaves (secret content : Option (List Char)) : Answer → Option (Option (List Char))
  | .saved .unavailable => some content
  | .saved _ => some secret
  | .failed .kept => some content
  | .failed .cleared => some none
  | .failed .written => some secret
  | _ => none

/-- What a removal leaves in a place. -/
def removeLeaves (content : Option (List Char)) : Answer → Option (Option (List Char))
  | .removed gone => some (if gone then none else content)
  | .failed .kept => some content
  | .failed .cleared => some none
  | _ => none

/-- What a place holds. -/
def content (i : Nat) : Option (List Char) := s.places[i]?.join

/-- What the round records of a save. -/
def savedWhere : Answer → Option BackupWhere
  | .saved where' => some where'
  | _ => none

end Phone

/-- What a read of a place answers. -/
def readAnswer (content : Option (List Char)) : Answer → Option (Option BackupRead)
  | .read available => some (some (if available then loaded content else .unavailable))
  | .failed .kept => some none
  | _ => none

section Step

variable (p : Platform) (s : Phone)

/-- The stretch of an operation when its call is answered. -/
def resume (job : Job) : Task → Answer → Option Phone
  | .load op slots, answer =>
      (readAnswer (s.content slots.length) answer).map fun read =>
        s.read p job op (slots ++ [slotOf p read])
  | .save w after, answer =>
      (Phone.saveLeaves (w.secret p) (s.content w.saved.length) answer).map fun content =>
        { s with places := s.places.set w.saved.length content }.round p job after
          ({ w with saved := w.saved ++ [Phone.savedWhere answer] }.next p)
  | .remove i, answer =>
      (Phone.removeLeaves (s.content i) answer).map fun content =>
        { s with places := s.places.set i content }.removeFrom job (i + 1)
  | .loadIdentityBackup, .done => some (s.spawn job (.loadKeypair s.identityBackup))
  | .loadKeypair enabled, .done => some (s.booted p job enabled)
  | .resolveKeypair enabled, .done => some (s.resolveIdentity p job enabled)
  | .saveFresh enabled slots, .stored fresh =>
      let allAnswered := enabled && slots.all fun slot => !(slot matches .unknown)
      some ({ s with stored := some fresh }.resolved p job fresh false enabled allAnswered)
  | .saveStored keypair, .done =>
      some ({ s with stored := some keypair }.resolved p job keypair true true true)
  | .saveIdentityBackup enabled keypair, .done => some (s.switched p job enabled keypair)
  | .disconnect keypair after, .done => some (s.spawn job (.saveKeypair keypair after))
  | .saveKeypair keypair after, .done => some (s.replaced p job keypair after)
  -- a rejection that the operation does not catch
  | _, .failed _ => some s
  | _, _ => none

/-- What the user or a launch begins. -/
def start (job : Job) : Action → Option Phone
  | .launch _ => some (s.spawn job .loadIdentityBackup)
  | .setIdentityBackup enabled => some (s.spawn job (.saveIdentityBackup enabled s.hook.keypair))
  | .restoreIdentity recoveryKey connected =>
      match parse p recoveryKey, s.hook.keypair with
      | none, _ => some s
      | some kp, none =>
          some (s.replaceIdentity job kp connected (.restore s.hook.identityBackup.enabled []))
      | some kp, some current =>
          match codeOf p current with
          | some previous =>
              some (s.replaceIdentity job kp connected
                (.restore s.hook.identityBackup.enabled [previous]))
          | none => some s
  | .switchToBackedUpIdentity connected =>
      some (s.read p job (.switch s.hook.identityBackup.status.other connected) [])
  | .replaceBackupWithCurrent =>
      match s.hook.keypair with
      | some kp => some (s.read p job (.replace kp s.hook.identityBackup.status.other.toList) [])
      | none => some s
  | .resume _ _ => none

/-- The phone as an action finds it: a launch begins afresh, and a turn-off is
counted. -/
def Phone.noticed : Action → Phone
  | .launch killed =>
      { s with
        mount := s.mount + 1
        hook := ⟨none, ⟨true, backupOff⟩, false⟩
        running := if killed then [] else s.running }
  | .setIdentityBackup false => { s with offs := s.offs + 1 }
  | _ => s

/-- The phone after an action; none where no job awaits the answer. -/
def step : Action → Option Phone
  | .resume i answer =>
      (s.running[i]?).bind fun job =>
        resume p { s with running := s.running.eraseIdx i } job job.task answer
  | a =>
      let s' := s.noticed a
      start p s' ⟨s'.offs, s'.mount, .loadIdentityBackup⟩ a

end Step

end CumulusVpn.Mobile.Identity
