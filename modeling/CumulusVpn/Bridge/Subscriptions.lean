/-
The subscription tables (`bridge/src/db/subscriptions.ts`).

* `SubscriptionRow`, `TransferRow`, `Subscriptions`: the tables;
* `Subscriptions.upsert`, `Subscriptions.rebind`, `Subscriptions.setStatus`,
  `Subscriptions.noteAppleExpiry`, `Subscriptions.mapAppleToken`: the
  statements;
* `get_upsert`, `get_rebind`, `get_setStatus`, `get_noteAppleExpiry`: what a
  statement leaves under every key.
-/
import Mathlib.Logic.Function.Basic
import CumulusVpn.Bridge.Payments

namespace CumulusVpn.Bridge

/-- How long a subscription runs before it renews. -/
inductive Plan
  | monthly
  | annual
deriving DecidableEq, Repr

/-- How a subscription stands. -/
inductive SubscriptionStatus
  | active
  | canceled
  | refunded
  | onHold
deriving DecidableEq, Repr

/-- Who moved a subscription: the buyer or support. -/
inductive TransferActor
  | user
  | admin
deriving DecidableEq, Repr

/-- A row of the `subscriptions` table. -/
structure SubscriptionRow where
  paymentCode : String
  plan : Plan
  status : SubscriptionStatus
  createdAt : Int
  updatedAt : Int
  stripeCustomerId : Option String
  /-- unix seconds of the last move to another code -/
  transferredAt : Option Int
  /-- the end of the period of the last verified Apple transaction -/
  appleExpiresMs : Option Int
  /-- that transaction verified against the sandbox -/
  appleSandbox : Option Bool
deriving DecidableEq, Repr

/-- A row of the `transfers` table. -/
structure TransferRow where
  rail : Rail
  externalId : String
  fromCode : Option String
  toCode : String
  actor : TransferActor
  days : Int
  createdAt : Int
deriving DecidableEq, Repr

/-- The tables; a subscription is keyed by its rail and external id, and the
log of transfers is newest first. -/
structure Subscriptions where
  rows : Rail × String → Option SubscriptionRow
  appleTokenMap : String → Option String
  transfers : List TransferRow

namespace SubscriptionRow

/-- A row as both inserts create it. -/
def new (paymentCode : String) (plan : Plan) (customerId : Option String)
    (transferredAt : Option Int) (now : Int) : SubscriptionRow where
  paymentCode := paymentCode
  plan := plan
  status := .active
  createdAt := now
  updatedAt := now
  stripeCustomerId := customerId
  transferredAt := transferredAt
  appleExpiresMs := none
  appleSandbox := none

/-- The row that an upsert leaves: a customer id that was learnt is kept. -/
def upserted (paymentCode : String) (plan : Plan) (customerId : Option String) (now : Int) :
    Option SubscriptionRow → SubscriptionRow
  | none => new paymentCode plan customerId none now
  | some row =>
      { row with
        paymentCode := paymentCode
        plan := plan
        status := .active
        updatedAt := now
        stripeCustomerId := customerId <|> row.stripeCustomerId }

/-- The row that a move leaves: the status of an existing row is left alone. -/
def rebound (paymentCode : String) (plan : Plan) (now : Int) :
    Option SubscriptionRow → SubscriptionRow
  | none => new paymentCode plan none (some now) now
  | some row =>
      { row with
        paymentCode := paymentCode
        plan := plan
        updatedAt := now
        transferredAt := some now }

/-- The period of a verified Apple transaction only ever moves forward. -/
def withAppleExpiry (expiresMs : Int) (sandbox : Bool) (row : SubscriptionRow) :
    SubscriptionRow :=
  if row.appleExpiresMs.all fun known => known ≤ expiresMs then
    { row with appleExpiresMs := some expiresMs, appleSandbox := some sandbox }
  else row

/-- The row with another status. -/
def withStatus (status : SubscriptionStatus) (now : Int) (row : SubscriptionRow) :
    SubscriptionRow :=
  { row with status := status, updatedAt := now }

section Fields

variable (code : String) (plan : Plan) (customer : Option String) (now : Int)
  (row : Option SubscriptionRow)

@[simp] lemma paymentCode_upserted : (upserted code plan customer now row).paymentCode = code := by
  cases row <;> rfl

@[simp] lemma plan_upserted : (upserted code plan customer now row).plan = plan := by
  cases row <;> rfl

@[simp] lemma status_upserted : (upserted code plan customer now row).status = .active := by
  cases row <;> rfl

@[simp] lemma transferredAt_upserted :
    (upserted code plan customer now row).transferredAt = row.bind transferredAt := by
  cases row <;> rfl

@[simp] lemma appleExpiresMs_upserted :
    (upserted code plan customer now row).appleExpiresMs = row.bind appleExpiresMs := by
  cases row <;> rfl

@[simp] lemma appleSandbox_upserted :
    (upserted code plan customer now row).appleSandbox = row.bind appleSandbox := by
  cases row <;> rfl

@[simp] lemma paymentCode_rebound : (rebound code plan now row).paymentCode = code := by
  cases row <;> rfl

@[simp] lemma transferredAt_rebound : (rebound code plan now row).transferredAt = some now := by
  cases row <;> rfl

@[simp] lemma appleExpiresMs_rebound :
    (rebound code plan now row).appleExpiresMs = row.bind appleExpiresMs := by
  cases row <;> rfl

@[simp] lemma appleSandbox_rebound :
    (rebound code plan now row).appleSandbox = row.bind appleSandbox := by
  cases row <;> rfl

end Fields

section Expiry

variable (expiresMs : Int) (sandbox : Bool) (row : SubscriptionRow)

@[simp] lemma paymentCode_withAppleExpiry :
    (row.withAppleExpiry expiresMs sandbox).paymentCode = row.paymentCode := by
  rw [withAppleExpiry]
  split <;> rfl

@[simp] lemma plan_withAppleExpiry :
    (row.withAppleExpiry expiresMs sandbox).plan = row.plan := by
  rw [withAppleExpiry]
  split <;> rfl

@[simp] lemma status_withAppleExpiry :
    (row.withAppleExpiry expiresMs sandbox).status = row.status := by
  rw [withAppleExpiry]
  split <;> rfl

@[simp] lemma transferredAt_withAppleExpiry :
    (row.withAppleExpiry expiresMs sandbox).transferredAt = row.transferredAt := by
  rw [withAppleExpiry]
  split <;> rfl

end Expiry

end SubscriptionRow

namespace Subscriptions

/-- No subscription yet. -/
def empty : Subscriptions := ⟨fun _ => none, fun _ => none, []⟩

/-- The row of a subscription. -/
def get (t : Subscriptions) (rail : Rail) (externalId : String) : Option SubscriptionRow :=
  t.rows (rail, externalId)

/-- `INSERT … ON CONFLICT (rail, external_id) DO UPDATE`. -/
def insert (t : Subscriptions) (rail : Rail) (externalId : String)
    (f : Option SubscriptionRow → SubscriptionRow) : Subscriptions :=
  { t with
    rows := Function.update t.rows (rail, externalId) (some (f (t.get rail externalId))) }

/-- `UPDATE subscriptions … WHERE rail = ? AND external_id = ?`. -/
def update (t : Subscriptions) (rail : Rail) (externalId : String)
    (f : SubscriptionRow → SubscriptionRow) : Subscriptions :=
  { t with
    rows := Function.update t.rows (rail, externalId) ((t.get rail externalId).map f) }

/-- Records or refreshes a subscription. -/
def upsert (t : Subscriptions) (rail : Rail) (externalId paymentCode : String) (plan : Plan)
    (customerId : Option String) (now : Int) : Subscriptions :=
  t.insert rail externalId (.upserted paymentCode plan customerId now)

/-- Moves a subscription to another payment code, stamps the move and logs
it. -/
def rebind (t : Subscriptions) (rail : Rail) (externalId paymentCode : String) (plan : Plan)
    (actor : TransferActor) (days now : Int) : Subscriptions :=
  let previous := (t.get rail externalId).map SubscriptionRow.paymentCode
  { t.insert rail externalId (.rebound paymentCode plan now) with
    transfers := ⟨rail, externalId, previous, paymentCode, actor, days, now⟩ :: t.transfers }

/-- Remembers the period that a verified Apple transaction runs to. -/
def noteAppleExpiry (t : Subscriptions) (originalTransactionId : String) (expiresMs : Int)
    (sandbox : Bool) : Subscriptions :=
  t.update .apple originalTransactionId (.withAppleExpiry expiresMs sandbox)

/-- A known subscription gets another status. -/
def setStatus (t : Subscriptions) (rail : Rail) (externalId : String)
    (status : SubscriptionStatus) (now : Int) : Subscriptions :=
  t.update rail externalId (.withStatus status now)

/-- A token of Apple's is mapped to a code, whatever its case. -/
def mapAppleToken (t : Subscriptions) (appAccountToken paymentCode : String) : Subscriptions :=
  { t with
    appleTokenMap := Function.update t.appleTokenMap appAccountToken.toLower (some paymentCode) }

/-- The code that a token of Apple's is mapped to. -/
def codeForAppleToken (t : Subscriptions) (appAccountToken : String) : Option String :=
  t.appleTokenMap appAccountToken.toLower

/-! ### What the statements leave under a key -/

section Frames

variable (t : Subscriptions) (rail r : Rail) (externalId x : String)

lemma get_insert (f : Option SubscriptionRow → SubscriptionRow) :
    (t.insert rail externalId f).get r x =
      if (r, x) = (rail, externalId) then some (f (t.get r x)) else t.get r x := by
  simp only [get, insert, Function.update_apply]
  split
  · rename_i hkey
    cases hkey
    rfl
  · rfl

lemma get_update (f : SubscriptionRow → SubscriptionRow) :
    (t.update rail externalId f).get r x =
      if (r, x) = (rail, externalId) then (t.get r x).map f else t.get r x := by
  simp only [get, update, Function.update_apply]
  split
  · rename_i hkey
    cases hkey
    rfl
  · rfl

lemma get_upsert (code : String) (plan : Plan) (customer : Option String) (now : Int) :
    (t.upsert rail externalId code plan customer now).get r x =
      if (r, x) = (rail, externalId) then
        some (.upserted code plan customer now (t.get r x))
      else t.get r x :=
  t.get_insert _ _ _ _ _

lemma get_rebind (code : String) (plan : Plan) (actor : TransferActor) (days now : Int) :
    (t.rebind rail externalId code plan actor days now).get r x =
      if (r, x) = (rail, externalId) then some (.rebound code plan now (t.get r x))
      else t.get r x :=
  t.get_insert _ _ _ _ _

lemma get_noteAppleExpiry (expiresMs : Int) (sandbox : Bool) :
    (t.noteAppleExpiry externalId expiresMs sandbox).get r x =
      if (r, x) = (.apple, externalId) then
        (t.get r x).map (.withAppleExpiry expiresMs sandbox)
      else t.get r x :=
  t.get_update _ _ _ _ _

lemma get_setStatus (status : SubscriptionStatus) (now : Int) :
    (t.setStatus rail externalId status now).get r x =
      if (r, x) = (rail, externalId) then (t.get r x).map (.withStatus status now)
      else t.get r x :=
  t.get_update _ _ _ _ _

@[simp] lemma get_mapAppleToken (token code : String) :
    (t.mapAppleToken token code).get r x = t.get r x := rfl

end Frames

end Subscriptions

end CumulusVpn.Bridge
