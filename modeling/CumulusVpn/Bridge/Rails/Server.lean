/-
The server of the store rails: what the stores send, where its handlers wait,
and what they write (`bridge/src/rails/`, `bridge/src/grants.ts`).

A handler runs from one await to the next.  Each stretch reads the tables as
they are, and ends with the list of its writes and with the next await or the
reply; no stretch reads a row after it has written it, so the writes may be
collected.

* `Transaction`, `Purchase`, `Invoice`, …: what the stores send, already
  verified;
* `Task`: where a handler waits, with what it remembers;
* `Write`, `Server.write`: one statement of the tables;
* `recordGrant`: the funnel that every verified payment event goes through.
-/
import CumulusVpn.Bridge.Transfers
import CumulusVpn.Bridge.Worker

namespace CumulusVpn.Bridge

/-! ### Configuration -/

/-- What the Stripe rail is set to. -/
structure StripeConfig where
  priceMonthly : String
  priceAnnual : String
  testGrants : Bool

/-- What the Apple rail is set to. -/
structure AppleConfig where
  productMonthly : String
  productAnnual : String
  sandboxGrants : Bool
  sandboxGrantDays : Int
  /-- `grantDays` refuses any other value -/
  sandboxGrantDays_mem : 0 ≤ sandboxGrantDays ∧ sandboxGrantDays ≤ 30

/-- What the Google rail is set to. -/
structure GoogleConfig where
  packageName : String
  basePlanMonthly : String
  basePlanAnnual : String
  testGrants : Bool
  testGrantDays : Int
  /-- `grantDays` refuses any other value -/
  testGrantDays_mem : 0 ≤ testGrantDays ∧ testGrantDays ≤ 30

/-- The rails use the configuration of the workers and their own. -/
structure RailsConfig extends Config where
  priceZats : Int
  /-- a hash of the code, as an UUID -/
  uuidForCode : String → String
  stripe : StripeConfig
  apple : AppleConfig
  google : GoogleConfig
  /-- `isValidPaymentCode` checks the length first -/
  valid_length : ∀ code, isValidPaymentCode code = true → 20 ≤ code.length ∧ code.length ≤ 40

lemma RailsConfig.ne_empty (c : RailsConfig) {code : String}
    (h : c.isValidPaymentCode code = true) : code ≠ "" := by
  rintro rfl
  exact absurd (c.valid_length _ h).1 (by decide)

/-- A value that the source tests with `!value`: an empty text is absent. -/
def truthy (text : Option String) : Option String := text.filter (· ≠ "")

namespace Rails

/-! ### What the stores send -/

/-- Why Apple bills a transaction. -/
inductive TransactionReason
  | purchase
  | renewal
deriving DecidableEq, Repr

/-- A verified Apple transaction. -/
structure Transaction where
  productId : Option String
  transactionId : Option String
  originalTransactionId : Option String
  appAccountToken : Option String
  expiresDate : Option Int
  purchaseDate : Option Int
  transactionReason : Option TransactionReason
  revocationDate : Option Int
  isUpgraded : Option Bool
deriving DecidableEq, Repr

/-- A verified Apple notification; the transaction in it is signed on its
own. -/
structure Notification where
  notificationType : Option String
  hasTransaction : Bool
deriving DecidableEq, Repr

/-- What Play answers about a purchase token, with its first line item. -/
structure Purchase where
  subscriptionState : Option String
  obfuscatedExternalAccountId : Option String
  basePlanId : Option String
  latestSuccessfulOrderId : Option String
  latestOrderId : Option String
  productId : Option String
  expiryMs : Option Int
  testPurchase : Bool
  acknowledgementState : Option String
deriving DecidableEq, Repr

/-- A decoded real-time developer notification. -/
structure Rtdn where
  packageName : Option String
  testNotification : Bool
  hasSubscription : Bool
  notificationType : Option Int
  purchaseToken : Option String
deriving DecidableEq, Repr

/-- What we leave at Stripe with a checkout. -/
structure Metadata where
  cvpnCode : Option String
  cvpnPlan : Option String
deriving DecidableEq, Repr

/-- A completed Checkout Session. -/
structure Session where
  metadata : Metadata
  subscription : Option String
  customer : Option String
deriving DecidableEq, Repr

/-- A Stripe subscription with its first item; the API answers with the
subscription that was asked for. -/
structure StripeSubscription where
  status : String
  livemode : Bool
  metadata : Metadata
  itemPrice : Option String
  itemPeriodEnd : Option Int
  legacyPeriodEnd : Option Int
deriving DecidableEq, Repr

/-- An invoice line, in the new and the old payload shape. -/
structure InvoiceLine where
  amount : Int
  priceDetails : Option String
  legacyPrice : Option String
  proration : Bool
  itemProration : Bool
  invoiceItemProration : Bool
deriving DecidableEq, Repr

/-- An invoice with the first page of its lines, in the new and the old
payload shape. -/
structure Invoice where
  id : Option String
  amountPaid : Int
  discounts : List Int
  livemode : Bool
  currency : String
  totalExcludingTax : Option Int
  subtotal : Option Int
  customer : Option String
  created : Int
  parentSubscription : Option String
  legacySubscription : Option String
  parentMetadata : Option Metadata
  legacyMetadata : Option Metadata
  lines : List InvoiceLine
  hasMore : Bool
deriving DecidableEq, Repr

/-- The price of a line. -/
structure Price where
  unitAmount : Option Int
  currency : String
deriving DecidableEq, Repr

/-- The events that the webhook tells apart. -/
inductive StripeEvent
  | checkoutCompleted (session : Session)
  | invoicePaid (invoice : Invoice)
  | chargeRefunded (invoice paymentIntent : Option String)
  | subscriptionDeleted (subId : String)
  | other (type : String)
deriving DecidableEq, Repr

/-- A store event with the facts that its handler verified. -/
inductive Event
  | appleVerify (code : String) (txn : Transaction) (sandbox : Bool)
  | appleNotification (type : String) (txn : Transaction) (sandbox : Bool)
  | googleVerify (code purchaseToken : String) (sub : Purchase)
  | googleRtdn (type : Int) (purchaseToken : String) (sub : Purchase)
  | checkoutCompleted (session : Session)
  /-- `plan` is what the metadata names; a price is read on some paths only -/
  | invoicePaid (invoice : Invoice) (plan : Plan) (lines : List InvoiceLine)
      (price : Option Price)
deriving DecidableEq, Repr

/-! ### What the handlers answer -/

/-- Outcome of a verify, a claim or a transfer; `test` is what the Apple rail
calls `sandbox`. -/
structure Outcome where
  accepted : Bool
  reason : String
  days : Option Int := none
  test : Option Bool := none
  transferred : Option Bool := none
  availableAt : Option Int := none
deriving DecidableEq, Repr

/-- Outcome of a support rebind. -/
structure RebindOutcome where
  ok : Bool
  reason : String
  previousCode : Option String := none
  days : Option Int := none
  grant : Option String := none
  test : Option Bool := none
deriving DecidableEq, Repr

/-- What a request is answered. -/
inductive Reply
  /-- refused by the route -/
  | refused (name : String)
  | outcome (o : Outcome)
  | rebind (o : RebindOutcome)
  /-- what a webhook logs -/
  | slug (text : String)
deriving DecidableEq, Repr

/-- An event that grants nothing, and why. -/
def refuse (reason : String) : Outcome := { accepted := false, reason := reason }

/-! ### Where the handlers wait -/

/-- What Play says the current period of a verified subscription is. -/
structure PeriodFacts where
  days : Int
  plan : Plan
  orderId : String
  productId : Option String
  expiryMs : Option Int
  test : Bool
deriving DecidableEq, Repr

/-- Who runs the verify path of the Google rail. -/
inductive GoogleCaller
  | verify
  | claim
  | rtdn (notificationType : Int)
deriving DecidableEq, Repr

/-- Who resolves the binding of an invoice. -/
inductive BindingUse
  | paid (invoice : Invoice)
  | refund
deriving DecidableEq, Repr

/-- The subscription of an invoice, with its code and its plan. -/
structure Binding where
  subId : String
  code : String
  plan : Plan
deriving DecidableEq, Repr

/-- Where a handler stands that awaits an answer. -/
inductive Task
  /-- the signed transaction of a verify is decoded -/
  | appleVerify (code : String)
  | appleClaim (code : String) (transfer : Bool)
  /-- a notification is decoded -/
  | appleNotification
  /-- then the transaction in it -/
  | appleNotified (type : String) (sandbox : Bool)
  /-- Play is asked about a token -/
  | googleVerify (caller : GoogleCaller) (code purchaseToken : String)
  | googleClaim (code purchaseToken : String) (transfer : Bool)
  | googleRebind (purchaseToken code : String)
  | googleRtdn (type : Int) (purchaseToken : String) (known : Option SubscriptionRow)
  /-- the purchase is acknowledged before its period is granted -/
  | googleAcknowledge (caller : GoogleCaller) (event : Option Event)
      (code purchaseToken : String) (facts : PeriodFacts)
  /-- a call after which only the reply is left -/
  | lastCall (reply : Reply)
  /-- the Checkout Session of a transfer is retrieved -/
  | stripeSession (code : String)
  /-- then its subscription -/
  | stripeTransfer (code subId : String)
  | stripeRebind (code subId : String) (grantRemaining : Bool) (known : SubscriptionRow)
  /-- the subscription of an invoice without metadata is retrieved -/
  | invoiceSubscription (use : BindingUse) (subId : String)
  /-- the binding is resolved; for a paid invoice its lines are read -/
  | invoiceBound (use : BindingUse) (binding : Option Binding)
  /-- the list price of the plan is read -/
  | invoiceDays (invoice : Invoice) (binding : Binding) (lines : List InvoiceLine) (plan : Plan)
  /-- the invoice of a refunded charge is looked up -/
  | refundInvoiceId
  /-- then retrieved -/
  | refundInvoice
deriving DecidableEq, Repr

/-- What a handler does next. -/
inductive Next
  | wait (task : Task)
  | reply (reply : Reply)
  /-- an API error that the handler does not catch -/
  | throw

/-! ### What the handlers write -/

/-- What a handler writes. -/
inductive Write
  | upsert (rail : Rail) (externalId paymentCode : String) (plan : Plan)
      (customerId : Option String)
  | rebind (rail : Rail) (externalId paymentCode : String) (plan : Plan)
      (actor : TransferActor) (days : Int)
  | setStatus (rail : Rail) (externalId : String) (status : SubscriptionStatus)
  | noteAppleExpiry (originalTransactionId : String) (expiresMs : Int) (sandbox : Bool)
  | mapAppleToken (appAccountToken paymentCode : String)
  | payment (p : NewPayment)
  /-- no statement: the event has been processed -/
  | processed (e : Event)

/-- The workers with their queue, the subscription tables and the handlers
that wait. -/
structure Server where
  workers : System
  subs : Subscriptions
  nowMs : Int
  running : List Task
  /-- the replies so far, newest first -/
  replies : List Reply
  /-- to the millisecond, when a subscription last moved -/
  movedMs : Rail × String → Option Int
  /-- the events that have been processed, newest first -/
  processed : List Event

namespace Server

/-- An empty database. -/
def init (height nowMs : Int) : Server where
  workers := .init height
  subs := .empty
  nowMs := nowMs
  running := []
  replies := []
  movedMs := fun _ => none
  processed := []

/-- Unix seconds. -/
def nowS (s : Server) : Int := s.nowMs / 1000

/-- The rows of the queue. -/
def payments (s : Server) : List PaymentRow := s.workers.db.payments

/-- One statement. -/
def write (s : Server) : Write → Server
  | .upsert rail externalId code plan customerId =>
      { s with subs := s.subs.upsert rail externalId code plan customerId s.nowS }
  | .rebind rail externalId code plan actor days =>
      { s with
        subs := s.subs.rebind rail externalId code plan actor days s.nowS
        movedMs := Function.update s.movedMs (rail, externalId) (some s.nowMs) }
  | .setStatus rail externalId status =>
      { s with subs := s.subs.setStatus rail externalId status s.nowS }
  | .noteAppleExpiry originalTransactionId expiresMs sandbox =>
      { s with subs := s.subs.noteAppleExpiry originalTransactionId expiresMs sandbox }
  | .mapAppleToken token code => { s with subs := s.subs.mapAppleToken token code }
  | .payment p =>
      { s with workers := { s.workers with db := (s.workers.db.insertIdempotent p s.nowS).1 } }
  | .processed e => { s with processed := e :: s.processed }

/-- The writes of a stretch, in their order. -/
def writeAll (s : Server) (ws : List Write) : Server := ws.foldl write s

/-- A stretch ends with its writes and with the next await or the reply. -/
def finish (s : Server) (ws : List Write) (next : Next) : Server :=
  let s' := s.writeAll ws
  match next with
  | .wait task => { s' with running := task :: s'.running }
  | .reply reply => { s' with replies := reply :: s'.replies }
  | .throw => s'

end Server

/-! ### Grants -/

/-- A period that was bought, as the rails hand it over. -/
structure GrantEvent where
  rail : Rail
  eventKey : String
  externalRef : String
  paymentCode : String
  days : Int

/-- What became of a grant. -/
inductive GrantResult
  | queued
  | duplicate
  | invalidCode
deriving DecidableEq, Repr

/-- The text that names it. -/
def GrantResult.text : GrantResult → String
  | .queued => "queued"
  | .duplicate => "duplicate"
  | .invalidCode => "invalid_code"

/-- The row that a grant asks for. -/
def newPayment (c : RailsConfig) (ev : GrantEvent) : NewPayment where
  rail := ev.rail
  eventKey := ev.eventKey
  externalRef := ev.externalRef
  paymentCode := ev.paymentCode
  days := ev.days
  fluxZats := zatsForDays c.priceZats ev.days

/-- Validates the code, sizes the payment and enqueues it idempotently. -/
def recordGrant (c : RailsConfig) (s : Server) (ev : GrantEvent) : List Write × GrantResult :=
  if c.isValidPaymentCode ev.paymentCode then
    ([.payment (newPayment c ev)],
      if (s.workers.db.insertIdempotent (newPayment c ev) s.nowS).2 = none then .duplicate
      else .queued)
  else ([], .invalidCode)

/-- The rest of a period, when there is any: `days > 0 ? recordGrant(…) : 'none'`. -/
def grantRest (c : RailsConfig) (s : Server) (ev : GrantEvent) : List Write × String :=
  if ev.days > 0 then ((recordGrant c s ev).1, (recordGrant c s ev).2.text) else ([], "none")

/-- What a move hands over, and the code it moves away from. -/
structure Moved where
  days : Int
  grant : String
  previous : Option String

/-- The answer to a rebind that moved the subscription. -/
def Moved.rebound (m : Moved) (test : Bool) : RebindOutcome where
  ok := true
  reason := "rebound"
  previousCode := m.previous
  days := some m.days
  grant := some m.grant
  test := some test

/-- A move by support that hands nothing over. -/
def reboundOnly (previous : Option String) : RebindOutcome where
  ok := true
  reason := "rebound"
  previousCode := previous
  days := some 0
  grant := some "none"

/-- The outcome of an event that moved the subscription. -/
def Moved.transferred (m : Moved) (test : Bool) : Outcome where
  accepted := true
  reason := "transfer:" ++ m.grant
  days := some m.days
  test := some test
  transferred := some true

/-- A grant is what the workers record. -/
lemma workers_recordGrant (c : RailsConfig) (s : Server) (ev : GrantEvent) :
    (s.writeAll (recordGrant c s ev).1).workers =
      Bridge.recordGrant c.toConfig s.workers (newPayment c ev) s.nowS := by
  rw [recordGrant, Bridge.recordGrant]
  split
  · rename_i hvalid
    exact (if_pos hvalid).symm
  · rename_i hvalid
    exact (if_neg hvalid).symm

/-! ### What the writes leave alone -/

namespace Server

@[simp] lemma nowMs_write (s : Server) (w : Write) : (s.write w).nowMs = s.nowMs := by
  cases w <;> rfl

@[simp] lemma running_write (s : Server) (w : Write) : (s.write w).running = s.running := by
  cases w <;> rfl

@[simp] lemma replies_write (s : Server) (w : Write) : (s.write w).replies = s.replies := by
  cases w <;> rfl

@[simp] lemma nowMs_writeAll (s : Server) (ws : List Write) :
    (s.writeAll ws).nowMs = s.nowMs := by
  induction ws generalizing s with
  | nil => rfl
  | cons w ws ih => exact (ih (s.write w)).trans (nowMs_write s w)

@[simp] lemma running_writeAll (s : Server) (ws : List Write) :
    (s.writeAll ws).running = s.running := by
  induction ws generalizing s with
  | nil => rfl
  | cons w ws ih => exact (ih (s.write w)).trans (running_write s w)

/-- A payment leaves the subscription tables alone. -/
lemma subs_writeAll_of_payments {ws : List Write} (h : ∀ w ∈ ws, ∃ p, w = .payment p)
    (s : Server) : (s.writeAll ws).subs = s.subs := by
  induction ws generalizing s with
  | nil => rfl
  | cons w ws ih =>
      obtain ⟨p, rfl⟩ := h w List.mem_cons_self
      exact ih (fun v hv => h v (List.mem_cons_of_mem _ hv)) _

section Finish

variable (s : Server) (ws : List Write) (next : Next)

@[simp] lemma workers_finish : (s.finish ws next).workers = (s.writeAll ws).workers := by
  cases next <;> rfl

@[simp] lemma subs_finish : (s.finish ws next).subs = (s.writeAll ws).subs := by
  cases next <;> rfl

@[simp] lemma nowMs_finish : (s.finish ws next).nowMs = s.nowMs := by
  cases next <;> exact nowMs_writeAll s ws

@[simp] lemma movedMs_finish : (s.finish ws next).movedMs = (s.writeAll ws).movedMs := by
  cases next <;> rfl

@[simp] lemma processed_finish : (s.finish ws next).processed = (s.writeAll ws).processed := by
  cases next <;> rfl

variable {s ws next}

lemma mem_running_finish {task : Task} (h : task ∈ (s.finish ws next).running) :
    task ∈ s.running ∨ next = .wait task := by
  cases next with
  | wait task' =>
      rcases List.mem_cons.mp h with rfl | h
      · exact Or.inr rfl
      · exact Or.inl (running_writeAll s ws ▸ h)
  | reply reply => exact Or.inl (running_writeAll s ws ▸ h)
  | throw => exact Or.inl (running_writeAll s ws ▸ h)

end Finish

end Server

/-! ### What a grant writes -/

section Grants

variable {c : RailsConfig} {s : Server} {ev : GrantEvent} {w : Write}

lemma mem_recordGrant (h : w ∈ (recordGrant c s ev).1) :
    w = .payment (newPayment c ev) ∧ c.isValidPaymentCode ev.paymentCode = true := by
  rw [recordGrant] at h
  split at h
  · rename_i hvalid
    exact ⟨List.mem_singleton.mp h, hvalid⟩
  · cases h

lemma mem_grantRest (h : w ∈ (grantRest c s ev).1) :
    w = .payment (newPayment c ev) ∧ 0 < ev.days := by
  rw [grantRest] at h
  split at h
  · rename_i hdays
    exact ⟨(mem_recordGrant h).1, hdays⟩
  · cases h

@[simp] lemma subs_grantRest (s' : Server) :
    (s'.writeAll (grantRest c s ev).1).subs = s'.subs :=
  Server.subs_writeAll_of_payments (fun _ hw => ⟨_, (mem_grantRest hw).1⟩) s'

end Grants

end Rails

end CumulusVpn.Bridge
