/-
The redelivery of store events.

* `Event.subject`, `Event.plan`, `Event.grantKey`: the subscription, the plan
  and the grant of an event;
* `Event.Verified`: what its handler has checked of it;
* `Recorded`: the processed events are verified, their grants are in the queue
  and their subscriptions in the table; `step_recorded`: so they are in every
  reachable state;
* `Delivery`: the calls of a delivery;
* `Event.UpToDate`: the row is the one that the event would write;
* `redelivery`: **a redelivery queues nothing, and leaves the row alone just
  when it is up to date**; `not_redelivery`: a refunded one becomes active.
-/
import CumulusVpn.Bridge.Rails.Queue
import CumulusVpn.Bridge.Rails.Codes

namespace CumulusVpn.Bridge.Rails

open StepSystem

/-! ### What an event is about -/

/-- The subscription that an event is about. -/
def Event.subject : Event → Option (Rail × String)
  | .appleVerify _ txn _ => (truthy txn.originalTransactionId).map fun id => (.apple, id)
  | .appleNotification _ txn _ => (truthy txn.originalTransactionId).map fun id => (.apple, id)
  | .googleVerify _ purchaseToken _ => some (.google, purchaseToken)
  | .googleRtdn _ purchaseToken _ => some (.google, purchaseToken)
  | .checkoutCompleted session => (truthy session.subscription).map fun id => (.stripe, id)
  | .invoicePaid invoice _ _ _ => (Stripe.invoiceSubId invoice).map fun id => (.stripe, id)

section Facts

variable (c : RailsConfig)

/-- The plan that a transaction is for. -/
def applePlan (txn : Transaction) : Option Plan :=
  (Apple.daysForProduct c txn.productId).map Apple.planForDays

/-- The plan that a purchase is for. -/
def googlePlan (sub : Purchase) : Option Plan :=
  (Google.periodFacts c sub).toOption.map PeriodFacts.plan

/-- The plan that an event has bought. -/
def Event.plan : Event → Option Plan
  | .appleVerify _ txn _ => applePlan c txn
  | .appleNotification _ txn _ => applePlan c txn
  | .googleVerify _ _ sub => googlePlan c sub
  | .googleRtdn _ _ sub => googlePlan c sub
  | .checkoutCompleted session => some (Stripe.planOfMetadata session.metadata.cvpnPlan)
  | .invoicePaid _ plan lines _ => some ((Stripe.planForLines c lines).getD plan)

/-- The key under which a transaction is granted, if it is granted at all. -/
def appleKey (txn : Transaction) (sandbox : Bool) : Option (Rail × String) :=
  if sandbox && !c.apple.sandboxGrants then
    if c.apple.sandboxGrantDays ≤ 0 then none
    else (truthy txn.originalTransactionId).map fun id => (.apple, "sandbox:" ++ id)
  else (truthy txn.transactionId).map fun id => (.apple, id)

/-- The key under which a purchase is granted, if it is granted at all. -/
def googleKey (purchaseToken : String) (facts : PeriodFacts) : Option (Rail × String) :=
  if facts.test && !c.google.testGrants then
    if c.google.testGrantDays ≤ 0 then none else some (.google, "test:" ++ purchaseToken)
  else some (.google, facts.orderId)

/-- The days of an invoice at a price. -/
def invoiceDays (invoice : Invoice) (plan : Plan) (lines : List InvoiceLine) (price : Price) :
    Option Int :=
  Stripe.daysForInvoice invoice lines ((Stripe.planForLines c lines).getD plan) price

/-- The key of the grant that an event asks for, if it asks for one. -/
def Event.grantKey : Event → Option (Rail × String)
  | .appleVerify _ txn sandbox => appleKey c txn sandbox
  | .appleNotification _ txn sandbox => appleKey c txn sandbox
  | .googleVerify _ purchaseToken sub =>
      (Google.periodFacts c sub).toOption.bind (googleKey c purchaseToken)
  | .googleRtdn _ purchaseToken sub =>
      (Google.periodFacts c sub).toOption.bind (googleKey c purchaseToken)
  | .checkoutCompleted _ => none
  | .invoicePaid _ _ _ none => none
  | .invoicePaid invoice plan lines (some price) =>
      ((invoiceDays c invoice plan lines price).filter (1 ≤ ·)).bind fun _ =>
        (Stripe.invoiceSubId invoice).map fun id => (.stripe, Stripe.invoiceKey invoice id)

/-- Something was charged, or a discount was taken off. -/
def Charged (invoice : Invoice) : Prop :=
  ¬ (invoice.amountPaid = 0 ∧ ¬ invoice.discounts.any (0 < ·))

/-- What the handler of an event has checked when it is processed. -/
def Event.Verified : Event → Prop
  | .appleVerify code txn _ =>
      c.isValidPaymentCode code = true ∧
        (truthy txn.appAccountToken).map String.toLower = some (c.uuidForCode code) ∧
        ∃ days transactionId orig, Apple.Bought c txn days transactionId orig
  | .appleNotification type txn _ =>
      type ∈ Apple.grantTypes ∧
        ∃ days transactionId orig, Apple.Bought c txn days transactionId orig
  | .googleVerify code _ sub =>
      c.isValidPaymentCode code = true ∧ Google.inactiveReason sub = none ∧
        sub.obfuscatedExternalAccountId = some code ∧
        ∃ facts, Google.periodFacts c sub = .ok facts
  | .googleRtdn type purchaseToken sub =>
      type ∈ Google.grantNotifications ∧ purchaseToken ≠ "" ∧
        Google.inactiveReason sub = none ∧ ∃ facts, Google.periodFacts c sub = .ok facts
  | .checkoutCompleted session =>
      ∃ code subId, truthy session.metadata.cvpnCode = some code ∧
        truthy session.subscription = some subId
  | .invoicePaid invoice _ _ none =>
      Charged invoice ∧ (Stripe.invoiceSubId invoice).isSome ∧
        invoice.livemode = false ∧ c.stripe.testGrants = false
  | .invoicePaid invoice plan lines (some price) =>
      Charged invoice ∧ (Stripe.invoiceSubId invoice).isSome ∧
        (invoice.livemode = true ∨ c.stripe.testGrants = true) ∧
        (invoiceDays c invoice plan lines price).isSome

end Facts

/-! ### What is on record -/

/-- The subscription is known. -/
def HasRow (t : Subscriptions) (k : Rail × String) : Prop := (t.get k.1 k.2).isSome = true

/-- The checks that a waiting handler has behind it. -/
def Task.Ready (c : RailsConfig) (t : Subscriptions) : Task → Prop
  | .googleVerify (.rtdn type) _ purchaseToken =>
      type ∈ Google.grantNotifications ∧ purchaseToken ≠ ""
  | .googleRtdn type purchaseToken _ => type ∈ Google.grantNotifications ∧ purchaseToken ≠ ""
  | .googleAcknowledge _ (some e) code purchaseToken facts =>
      c.isValidPaymentCode code = true ∧ e.Verified c ∧ e.subject = some (.google, purchaseToken) ∧
        e.grantKey c = googleKey c purchaseToken facts ∧ HasRow t (.google, purchaseToken)
  | .invoiceSubscription (.paid invoice) subId =>
      Charged invoice ∧ Stripe.invoiceSubId invoice = some subId
  | .invoiceBound (.paid invoice) binding =>
      ∀ bound ∈ binding, Charged invoice ∧ Stripe.invoiceSubId invoice = some bound.subId
  | .invoiceDays invoice bound lines plan =>
      Charged invoice ∧ Stripe.invoiceSubId invoice = some bound.subId ∧
        (invoice.livemode = true ∨ c.stripe.testGrants = true) ∧
        plan = (Stripe.planForLines c lines).getD bound.plan ∧ HasRow t (.stripe, bound.subId)
  | _ => True

/-- The processed events are verified, their grants are in the queue and their
subscriptions in the table. -/
structure Recorded (c : RailsConfig) (s : Server) : Prop where
  verified : ∀ e ∈ s.processed, e.Verified c
  granted : ∀ e ∈ s.processed, ∀ k ∈ e.grantKey c, k ∈ s.grants.map Prod.fst
  rows : ∀ e ∈ s.processed, ∀ k ∈ e.subject, HasRow s.subs k
  tasks : ∀ task ∈ s.running, task.Ready c s.subs

/-- What a stretch puts on record. -/
structure Records (c : RailsConfig) (s : Server) (out : List Write × Next) : Prop where
  verified : ∀ e, .processed e ∈ out.1 → e.Verified c
  granted : ∀ e, .processed e ∈ out.1 → ∀ k ∈ e.grantKey c,
    ∃ p, .payment p ∈ out.1 ∧ (p.rail, p.eventKey) = k
  rows : ∀ e, .processed e ∈ out.1 → ∀ k ∈ e.subject, HasRow (s.writeAll out.1).subs k
  task : ∀ task, out.2 = .wait task → task.Ready c (s.writeAll out.1).subs

section Tables

variable {c : RailsConfig} {s : Server} {ws : List Write} {k : Rail × String}

lemma HasRow.write (h : HasRow s.subs k) (w : Write) : HasRow (s.write w).subs k := by
  obtain ⟨row, hrow⟩ := Option.isSome_iff_exists.mp h
  have hinsert : ∀ (t : Subscriptions) (rail : Rail) (x : String)
      (f : Option SubscriptionRow → SubscriptionRow), t.get k.1 k.2 = some row →
        ((t.insert rail x f).get k.1 k.2).isSome = true := by
    intro t rail x f ht
    rw [Subscriptions.get_insert, ht]
    split <;> rfl
  have hupdate : ∀ (t : Subscriptions) (rail : Rail) (x : String)
      (f : SubscriptionRow → SubscriptionRow), t.get k.1 k.2 = some row →
        ((t.update rail x f).get k.1 k.2).isSome = true := by
    intro t rail x f ht
    rw [Subscriptions.get_update, ht]
    split <;> rfl
  cases w with
  | upsert rail x code plan customer => exact hinsert s.subs rail x _ hrow
  | rebind rail x code plan actor days => exact hinsert s.subs rail x _ hrow
  | setStatus rail x status => exact hupdate s.subs rail x _ hrow
  | noteAppleExpiry x e sandbox => exact hupdate s.subs .apple x _ hrow
  | mapAppleToken token code => exact h
  | payment p => exact h
  | processed e => exact h

lemma HasRow.writeAll (h : HasRow s.subs k) (ws : List Write) : HasRow (s.writeAll ws).subs k := by
  induction ws generalizing s with
  | nil => exact h
  | cons w ws ih => exact ih (h.write w)

lemma hasRow_of_upsert {rail : Rail} {x code : String} {plan : Plan} {customer : Option String}
    (h : .upsert rail x code plan customer ∈ ws) : HasRow (s.writeAll ws).subs (rail, x) := by
  induction ws generalizing s with
  | nil => cases h
  | cons w ws ih =>
      cases List.mem_cons.mp h with
      | inl hw =>
          have hrow : HasRow (s.write w).subs (rail, x) := by
            rw [← hw, HasRow]
            change ((s.subs.upsert rail x code plan customer s.nowS).get rail x).isSome = true
            rw [Subscriptions.get_upsert, if_pos rfl]
            rfl
          exact hrow.writeAll ws
      | inr h => exact ih h

lemma mem_grants_of_payment {p : NewPayment} (h : .payment p ∈ ws) :
    (p.rail, p.eventKey) ∈ (s.writeAll ws).grants.map Prod.fst := by
  induction ws generalizing s with
  | nil => cases h
  | cons w ws ih =>
      cases List.mem_cons.mp h with
      | inl hw =>
          have hmem : (p.rail, p.eventKey) ∈ (s.write w).grants.map Prod.fst := by
            rw [← hw]
            exact s.workers.db.event_insertIdempotent p s.nowS
          exact List.map_subset _ (grown_writeAll (s.write w) ws).kept hmem
      | inr h => exact ih h

lemma mem_processed_writeAll {e : Event} :
    e ∈ (s.writeAll ws).processed ↔ .processed e ∈ ws ∨ e ∈ s.processed := by
  induction ws generalizing s with
  | nil => exact (or_iff_right List.not_mem_nil).symm
  | cons w ws ih =>
      have hwrite : e ∈ (s.write w).processed ↔ .processed e = w ∨ e ∈ s.processed := by
        cases w with
        | processed e' =>
            rw [Write.processed.injEq]
            exact List.mem_cons
        | _ => exact (or_iff_right nofun).symm
      change e ∈ ((s.write w).writeAll ws).processed ↔ _
      rw [ih, hwrite, List.mem_cons, or_assoc, or_left_comm]

lemma Task.Ready.mono {t t' : Subscriptions} (ht : ∀ k, HasRow t k → HasRow t' k) {task : Task}
    (h : task.Ready c t) : task.Ready c t' := by
  cases task with
  | googleVerify caller code token => cases caller <;> exact h
  | googleAcknowledge caller event code token facts =>
      cases event with
      | none => trivial
      | some e => exact ⟨h.1, h.2.1, h.2.2.1, h.2.2.2.1, ht _ h.2.2.2.2⟩
  | invoiceSubscription use subId => cases use <;> exact h
  | invoiceBound use binding => cases use <;> exact h
  | invoiceDays invoice bound lines plan =>
      exact ⟨h.1, h.2.1, h.2.2.1, h.2.2.2.1, ht _ h.2.2.2.2⟩
  | _ => exact h

end Tables

/-! ### What the handlers put on record -/

/-- A write that processes no event. -/
def Write.Quiet (w : Write) : Prop := ∀ e, w ≠ .processed e

section Records

variable {c : RailsConfig} {s : Server} {ws : List Write} {next : Next}

lemma Records.of_keeps (h : Keeps Write.Quiet (fun task => ∀ t, task.Ready c t) (ws, next)) :
    Records c s (ws, next) where
  verified e he := absurd rfl (h.1 _ he e)
  granted e he := absurd rfl (h.1 _ he e)
  rows e he := absurd rfl (h.1 _ he e)
  task task hwait := h.2 task hwait _

/-- A stretch that waits in the middle of an event. -/
lemma Records.of_wait {task : Task} (hws : ∀ w ∈ ws, w.Quiet)
    (htask : task.Ready c (s.writeAll ws).subs) : Records c s (ws, .wait task) where
  verified e he := absurd rfl (hws _ he e)
  granted e he := absurd rfl (hws _ he e)
  rows e he := absurd rfl (hws _ he e)
  task task' hwait := by
    cases hwait
    exact htask

/-- A stretch that ends with an event. -/
lemma Records.of_event {e : Event} {reply : Reply} (hws : ∀ w ∈ ws, w.Quiet)
    (hverified : e.Verified c)
    (hpays : ∀ k ∈ e.grantKey c, ∃ p, .payment p ∈ ws ∧ (p.rail, p.eventKey) = k)
    (hrow : ∀ k ∈ e.subject, HasRow (s.writeAll ws).subs k) :
    Records c s (ws ++ [.processed e], .reply reply) := by
  have honly : ∀ e', .processed e' ∈ ws ++ [.processed e] → e' = e := by
    intro e' he'
    cases List.mem_append.mp he' with
    | inl hmem => exact absurd rfl (hws _ hmem e')
    | inr hmem => exact Write.processed.inj (List.mem_singleton.mp hmem)
  refine ⟨fun e' he' => ?_, fun e' he' k hk => ?_, fun e' he' k hk => ?_,
    fun task hwait => by cases hwait⟩
  · rw [honly e' he']
    exact hverified
  · rw [honly e' he'] at hk
    obtain ⟨p, hp, hkey⟩ := hpays k hk
    exact ⟨p, List.mem_append_left _ hp, hkey⟩
  · rw [honly e' he'] at hk
    have happend : s.writeAll (ws ++ [.processed e]) = (s.writeAll ws).write (.processed e) := by
      rw [Server.writeAll, List.foldl_append]
      rfl
    rw [happend]
    exact (hrow k hk).write (.processed e)

lemma quiet_upsert {rail : Rail} {x code : String} {plan : Plan} {customer : Option String} :
    ∀ w ∈ [Write.upsert rail x code plan customer], w.Quiet :=
  List.forall_mem_singleton.mpr fun _ => nofun

lemma quiet_setStatus {rail : Rail} {x : String} {status : SubscriptionStatus} :
    ∀ w ∈ [Write.setStatus rail x status], w.Quiet :=
  List.forall_mem_singleton.mpr fun _ => nofun

lemma quiet_rebind {rail : Rail} {x code : String} {plan : Plan} {actor : TransferActor}
    {days : Int} : ∀ w ∈ [Write.rebind rail x code plan actor days], w.Quiet :=
  List.forall_mem_singleton.mpr fun _ => nofun

/-- An event that binds its subscription and asks for no grant. -/
lemma Records.of_bound {e : Event} {reply : Reply} {rail : Rail} {x code : String} {plan : Plan}
    {customer : Option String} (hverified : e.Verified c) (hgrant : e.grantKey c = none)
    (hsubject : e.subject = some (rail, x)) :
    Records c s ([.upsert rail x code plan customer, .processed e], .reply reply) := by
  refine @Records.of_event c s [_] e reply quiet_upsert hverified (fun k hk => ?_) fun k hk => ?_
  · rw [hgrant] at hk
    cases hk
  · rw [hsubject] at hk
    cases hk
    exact hasRow_of_upsert (List.mem_singleton_self _)

lemma quiet_recordGrant {ev : GrantEvent} {w : Write} (h : w ∈ (recordGrant c s ev).1) :
    w.Quiet := by
  rw [(mem_recordGrant h).1]
  exact fun _ => nofun

lemma quiet_grantRest {ev : GrantEvent} {w : Write} (h : w ∈ (grantRest c s ev).1) : w.Quiet := by
  rw [(mem_grantRest h).1]
  exact fun _ => nofun

lemma payment_mem_recordGrant {ev : GrantEvent} (h : c.isValidPaymentCode ev.paymentCode = true) :
    .payment (newPayment c ev) ∈ (recordGrant c s ev).1 := by
  rw [recordGrant, if_pos h]
  exact List.mem_singleton_self _

end Records

section Apple

variable {c : RailsConfig} {s : Server} {code orig transactionId : String} {sandbox : Bool}
  {txn : Option Transaction}

lemma quiet_settle {expiresMs : Option Int} {days : Int} :
    ∀ w ∈ (Apple.settle c s code transactionId orig expiresMs sandbox days).1, w.Quiet := by
  obtain ⟨rest, heq, hrest⟩ :=
    @Apple.settle_eq c s code orig transactionId expiresMs sandbox days
  intro w hw
  rw [heq] at hw
  cases List.mem_cons.mp hw with
  | inl hbind =>
      rw [hbind]
      exact fun _ => nofun
  | inr hw =>
      cases hrest w hw with
      | inl hnote =>
          obtain ⟨e, -, rfl⟩ := hnote
          exact fun _ => nofun
      | inr hpay =>
          rw [hpay]
          exact fun _ => nofun

/-- A settled period binds its subscription. -/
lemma hasRow_settle {expiresMs : Option Int} {days : Int} (s' : Server) :
    HasRow (s'.writeAll
      (Apple.settle c s code transactionId orig expiresMs sandbox days).1).subs (.apple, orig) := by
  obtain ⟨rest, heq, -⟩ := @Apple.settle_eq c s code orig transactionId expiresMs sandbox days
  rw [heq]
  exact hasRow_of_upsert List.mem_cons_self

/-- It pays what the transaction asks for. -/
lemma settle_pays {t : Transaction} {expiresMs : Option Int} {days : Int} {k : Rail × String}
    (hcode : c.isValidPaymentCode code = true) (hbought : Apple.Bought c t days transactionId orig)
    (hk : k ∈ appleKey c t sandbox) :
    ∃ p, .payment p ∈ (Apple.settle c s code transactionId orig expiresMs sandbox days).1 ∧
      (p.rail, p.eventKey) = k := by
  rw [appleKey, hbought.transactionId, hbought.originalTransactionId] at hk
  simp only [Apple.settle]
  split at hk
  · rename_i hprobe
    split at hk
    · cases hk
    · rename_i hdays
      cases hk
      rw [if_pos hprobe, Apple.sandboxGrant]
      dsimp only
      rw [if_neg hdays]
      exact ⟨_, List.mem_append_right _ (payment_mem_recordGrant hcode), rfl⟩
  · rename_i hprobe
    cases hk
    rw [if_neg hprobe]
    exact ⟨_, List.mem_append_right _ (payment_mem_recordGrant hcode), rfl⟩

lemma records_verifyPurchase {reply : Reply} (h : TablesOk c s.subs)
    (hcode : c.isValidPaymentCode code = true) :
    Records c s ((Apple.verifyPurchase c s code txn sandbox).1, .reply reply) := by
  rcases @Apple.verifyPurchase_writes c s code txn sandbox with heq |
    ⟨t, days, transactionId, orig, -, hbought, htoken, heq⟩ <;> rw [heq]
  · exact .of_keeps (.refused reply)
  · have howner : c.isValidPaymentCode ((Apple.ownerOf s t (some code)).getD code) = true := by
      cases howner : Apple.ownerOf s t (some code) with
      | none => exact hcode
      | some owner => exact valid_ownerOf h (by simpa using hcode) owner howner
    rw [← List.cons_append]
    refine .of_event ?_ ⟨hcode, htoken, days, transactionId, orig, hbought⟩ (fun k hk => ?_)
      fun k hk => ?_
    · exact List.forall_mem_cons.mpr ⟨fun _ => nofun, quiet_settle⟩
    · obtain ⟨p, hp, hkey⟩ := settle_pays howner hbought hk
      exact ⟨p, List.mem_cons_of_mem _ hp, hkey⟩
    · rw [Event.subject, hbought.originalTransactionId] at hk
      cases hk
      exact hasRow_settle _

lemma records_notified {type : String} {reply : Reply} (h : TablesOk c s.subs) :
    Records c s ((Apple.notified c s type sandbox txn).1, .reply reply) := by
  rcases @Apple.notified_writes c s type sandbox txn with heq | ⟨orig, status, heq⟩ |
    ⟨t, days, transactionId, orig, owner, -, hbought, htype, howner, heq⟩ <;> rw [heq]
  · exact .of_keeps (.refused reply)
  · exact .of_keeps (.reply quiet_setStatus reply)
  · have hvalid : c.isValidPaymentCode owner = true := by
      refine valid_ownerOf h ?_ owner (Option.filter_eq_some_iff.mp howner).1
      intro purchaser hp
      obtain ⟨token, -, htoken⟩ := Option.bind_eq_some_iff.mp hp
      exact h.tokens _ _ htoken
    refine .of_event quiet_settle ⟨htype, days, transactionId, orig, hbought⟩ (fun k hk => ?_)
      fun k hk => ?_
    · exact settle_pays hvalid hbought hk
    · rw [Event.subject, hbought.originalTransactionId] at hk
      cases hk
      exact hasRow_settle _

lemma quiet_appleTransferTo {plan : Plan} {expiresMs : Int} {actor : TransferActor} :
    ∀ w ∈ (Apple.transferTo c s code orig plan expiresMs sandbox actor).1, w.Quiet := by
  intro w hw
  cases List.mem_append.mp hw with
  | inl hpay => exact quiet_grantRest hpay
  | inr hmove =>
      rcases List.mem_pair.mp hmove with rfl | rfl
      · exact fun _ => nofun
      · exact fun _ => nofun

lemma quiet_claimPurchase {transfer : Bool} :
    ∀ w ∈ (Apple.claimPurchase c s code transfer txn sandbox).1, w.Quiet := by
  rcases @Apple.claimPurchase_writes c s code transfer txn sandbox with heq |
    ⟨t, days, transactionId, orig, expiresMs, -, -, -, ⟨-, heq⟩ | ⟨-, heq⟩⟩ <;> rw [heq]
  · exact List.forall_mem_nil _
  · exact List.forall_mem_cons.mpr ⟨fun _ => nofun, quiet_settle⟩
  · exact List.forall_mem_cons.mpr ⟨fun _ => nofun, quiet_appleTransferTo⟩

lemma quiet_appleRebind {grantRemaining : Bool} :
    ∀ w ∈ (Apple.adminRebind c s orig code grantRemaining).1, w.Quiet := by
  rcases @Apple.adminRebind_writes c s code orig grantRemaining with heq |
    ⟨known, -, heq | ⟨-, -, expiresMs, -, heq⟩⟩ <;> rw [heq]
  · exact List.forall_mem_nil _
  · exact quiet_rebind
  · exact quiet_appleTransferTo

end Apple

section Google

variable {c : RailsConfig} {s : Server} {code purchaseToken : String} {sub : Purchase}

lemma quiet_googleTransferTo {facts : PeriodFacts} {actor : TransferActor} :
    ∀ w ∈ (Google.transferTo c s code purchaseToken facts actor).1, w.Quiet := by
  intro w hw
  cases List.mem_append.mp hw with
  | inl hpay => exact quiet_grantRest hpay
  | inr hmove =>
      rw [List.mem_singleton.mp hmove]
      exact fun _ => nofun

/-- A verify waits with its event. -/
lemma records_verified {caller : GoogleCaller} (h : TablesOk c s.subs)
    (hcode : c.isValidPaymentCode code = true)
    (hready : (Task.googleVerify caller code purchaseToken).Ready c s.subs) :
    Records c s (Google.verified c s caller code purchaseToken sub) := by
  rcases @Google.verified_out c s code purchaseToken sub caller with ⟨reply, heq⟩ |
    ⟨facts, hactive, haccount, hfacts, heq⟩ <;> rw [heq]
  · exact .of_keeps (.refused reply)
  · have hvalid : c.isValidPaymentCode ((Google.movedOwner s purchaseToken).getD code) = true :=
      valid_movedOwner h hcode
    have hkey : (Google.periodFacts c sub).toOption.bind (googleKey c purchaseToken) =
        googleKey c purchaseToken facts := by
      rw [hfacts]
      rfl
    refine .of_wait quiet_upsert ?_
    have hrow :=
      @hasRow_of_upsert s _ _ _ ((Google.movedOwner s purchaseToken).getD code) facts.plan
      none (List.mem_singleton_self (Write.upsert .google purchaseToken
        ((Google.movedOwner s purchaseToken).getD code) facts.plan none))
    cases caller with
    | verify => exact ⟨hvalid, ⟨hcode, hactive, haccount rfl, facts, hfacts⟩, rfl, hkey, hrow⟩
    | claim => trivial
    | rtdn type =>
        exact ⟨hvalid, ⟨hready.1, hready.2, hactive, facts, hfacts⟩, rfl, hkey, hrow⟩

lemma records_claimed {transfer : Bool} :
    Records c s (Google.claimed c s code purchaseToken transfer sub) := by
  rcases @Google.claimed_out c s code purchaseToken sub transfer with ⟨reply, heq⟩ |
    ⟨facts, -, ⟨-, heq⟩ | ⟨-, reply, heq⟩⟩ <;> rw [heq]
  · exact .of_keeps (.refused reply)
  · exact .of_wait quiet_upsert trivial
  · exact .of_wait quiet_googleTransferTo trivial

/-- It pays what the purchase asks for. -/
lemma settleGrant_pays {caller : GoogleCaller} {event : Option Event} {facts : PeriodFacts}
    {k : Rail × String} (hcode : c.isValidPaymentCode code = true)
    (hk : k ∈ googleKey c purchaseToken facts) :
    ∃ p, .payment p ∈ (Google.settleGrant c s caller event code purchaseToken facts).1 ∧
      (p.rail, p.eventKey) = k := by
  rw [googleKey] at hk
  simp only [Google.settleGrant]
  split at hk
  · rename_i hprobe
    split at hk
    · cases hk
    · rename_i hdays
      cases hk
      rw [if_pos hprobe, Google.testGrant]
      dsimp only
      rw [if_neg hdays]
      exact ⟨_, List.mem_append_left _ (payment_mem_recordGrant hcode), rfl⟩
  · rename_i hprobe
    cases hk
    rw [if_neg hprobe]
    exact ⟨_, List.mem_append_left _ (payment_mem_recordGrant hcode), rfl⟩

lemma records_settleGrant {caller : GoogleCaller} {event : Option Event} {facts : PeriodFacts}
    (hready : (Task.googleAcknowledge caller event code purchaseToken facts).Ready c s.subs) :
    Records c s (Google.settleGrant c s caller event code purchaseToken facts) := by
  have hpays := @settleGrant_pays c s code purchaseToken caller event facts
  obtain ⟨pays, reply, heq, honly⟩ :=
    @Google.settleGrant_eq c s code purchaseToken caller event facts
  rw [heq] at hpays ⊢
  have hquiet : ∀ w ∈ pays, w.Quiet := by
    intro w hw
    rw [honly w hw]
    exact fun _ => nofun
  cases event with
  | none =>
      rw [Option.map_none, Option.toList_none, List.append_nil]
      exact .of_keeps (.reply hquiet reply)
  | some e =>
      obtain ⟨hcode, hverified, hsubject, hkey, hrow⟩ := hready
      refine .of_event hquiet hverified (fun k hk => ?_) fun k hk => ?_
      · obtain ⟨p, hp, hpkey⟩ := hpays hcode (hkey ▸ hk)
        refine ⟨p, (List.mem_append.mp hp).resolve_right fun hmem => ?_, hpkey⟩
        cases List.mem_singleton.mp hmem
      · rw [hsubject] at hk
        cases hk
        exact hrow.writeAll pays

end Google

section Stripe

variable {c : RailsConfig} {s : Server} {code subId : String}

lemma quiet_stripeTransferTo {sub : StripeSubscription} {knownPlan : Option Plan}
    {actor : TransferActor} {grant : Bool} :
    ∀ w ∈ (Stripe.transferTo c s code subId sub knownPlan actor grant).1, w.Quiet := by
  intro w hw
  cases List.mem_append.mp hw with
  | inl hpay => exact quiet_grantRest hpay
  | inr hmove =>
      rw [List.mem_singleton.mp hmove]
      exact fun _ => nofun

lemma records_onCheckoutCompleted {session : Session} {reply : Reply} :
    Records c s ((Stripe.onCheckoutCompleted s session).1, .reply reply) := by
  rcases @Stripe.onCheckoutCompleted_writes s session with heq |
    ⟨code, subId, hcode, hsub, heq⟩ <;> rw [heq]
  · exact .of_keeps (.refused reply)
  · exact .of_bound ⟨code, subId, hcode, hsub⟩ rfl (congrArg (Option.map _) hsub)

lemma ready_resolveInvoiceBinding {use : BindingUse} {invoice : Invoice}
    (h : ∀ invoice', use = .paid invoice' → invoice' = invoice ∧ Charged invoice) :
    ∀ task, Stripe.resolveInvoiceBinding s use invoice = .wait task → ∀ t, task.Ready c t := by
  intro task hwait t
  rcases @Stripe.resolveInvoiceBinding_out s use invoice with heq | ⟨subId, hsub, heq | heq⟩ <;>
    rw [heq] at hwait <;> cases hwait
  · cases use with
    | paid invoice' => exact fun bound hbound => by cases hbound
    | refund => trivial
  · cases use with
    | paid invoice' =>
        obtain ⟨rfl, hcharged⟩ := h invoice' rfl
        exact ⟨hcharged, hsub⟩
    | refund => trivial
  · cases use with
    | paid invoice' =>
        obtain ⟨rfl, hcharged⟩ := h invoice' rfl
        intro bound hbound
        rw [(Stripe.bindingOf_eq_some hbound).1]
        exact ⟨hcharged, hsub⟩
    | refund => trivial

lemma ready_bindingRead {use : BindingUse} {sub : StripeSubscription} {t : Subscriptions}
    (h : (Task.invoiceSubscription use subId).Ready c t) (t' : Subscriptions) :
    (Task.invoiceBound use (Stripe.bindingOf s subId (some sub.metadata))).Ready c t' := by
  cases use with
  | paid invoice =>
      intro bound hbound
      rw [(Stripe.bindingOf_eq_some hbound).1]
      exact h
  | refund => trivial

lemma records_linesRead {invoice : Invoice} {binding : Option Binding} {listed : List InvoiceLine}
    (hready : (Task.invoiceBound (.paid invoice) binding).Ready c s.subs) :
    Records c s (Stripe.linesRead c invoice binding listed) := by
  rcases @Stripe.linesRead_out c invoice binding listed with ⟨reply, heq⟩ |
    ⟨bound, lines, plan, hbound, -, hplan, ⟨⟨hlive, htest⟩, reply, heq⟩ | ⟨hlive, heq⟩⟩ <;> rw [heq]
  · exact .of_keeps (.refused reply)
  · obtain ⟨hcharged, hsub⟩ := hready bound hbound
    exact .of_bound ⟨hcharged, Option.isSome_iff_exists.mpr ⟨_, hsub⟩, hlive, htest⟩ rfl
      (congrArg (Option.map _) hsub)
  · obtain ⟨hcharged, hsub⟩ := hready bound hbound
    refine .of_wait quiet_upsert ?_
    exact ⟨hcharged, hsub, hlive, hplan, hasRow_of_upsert (List.mem_singleton_self _)⟩

lemma records_daysRead {invoice : Invoice} {bound : Binding} {lines : List InvoiceLine}
    {plan : Plan} {price : Price}
    (hready : (Task.invoiceDays invoice bound lines plan).Ready c s.subs) :
    Records c s (Stripe.daysRead c s invoice bound lines plan price) := by
  obtain ⟨hcharged, hsub, hlive, rfl, hrow⟩ := hready
  rcases @Stripe.daysRead_out c s invoice bound lines
      ((Stripe.planForLines c lines).getD bound.plan) price with heq |
    ⟨days, reply, hdays, hout⟩
  · rw [heq]
    exact .of_keeps .throw
  · have hverified : (Event.invoicePaid invoice bound.plan lines (some price)).Verified c :=
      ⟨hcharged, Option.isSome_iff_exists.mpr ⟨_, hsub⟩, hlive,
        Option.isSome_iff_exists.mpr ⟨days, hdays⟩⟩
    have hsubject : ∀ k ∈ (Event.invoicePaid invoice bound.plan lines (some price)).subject,
        k = (.stripe, bound.subId) := by
      intro k hk
      rw [Event.subject, hsub] at hk
      cases hk
      rfl
    have hgrant : ∀ k ∈ (Event.invoicePaid invoice bound.plan lines (some price)).grantKey c,
        1 ≤ days ∧ k = (.stripe, Stripe.invoiceKey invoice bound.subId) := by
      intro k hk
      rw [Event.grantKey, invoiceDays, hdays, hsub] at hk
      obtain ⟨days', hdays', hk⟩ := Option.bind_eq_some_iff.mp hk
      obtain ⟨hsame, hpos⟩ := Option.filter_eq_some_iff.mp hdays'
      cases hsame
      cases hk
      exact ⟨of_decide_eq_true hpos, rfl⟩
    rcases hout with ⟨hlt, heq⟩ | ⟨-, heq⟩ <;> rw [heq]
    · refine @Records.of_event c s [] _ reply (List.forall_mem_nil _) hverified (fun k hk => ?_)
        fun k hk => ?_
      · exact absurd (hgrant k hk).1 (by omega)
      · rw [hsubject k hk]
        exact hrow
    · by_cases hcode :
          c.isValidPaymentCode (Stripe.invoiceEvent invoice bound days).paymentCode = true
      · have hqueued : (recordGrant c s (Stripe.invoiceEvent invoice bound days)).2 ≠
            .invalidCode := by
          rw [recordGrant, if_pos hcode]
          dsimp only
          split <;> decide
        rw [if_neg hqueued]
        refine .of_event (fun w hw => quiet_recordGrant hw) hverified
          (fun k hk => ?_) fun k hk => ?_
        · exact ⟨_, payment_mem_recordGrant hcode, (hgrant k hk).2.symm⟩
        · rw [hsubject k hk]
          exact hrow.writeAll _
      · have hrefused : recordGrant c s (Stripe.invoiceEvent invoice bound days) =
            ([], .invalidCode) := if_neg hcode
        rw [hrefused, if_pos rfl]
        exact .of_keeps (.refused reply)

end Stripe

/-! ### The record of a run -/

section Run

variable {c : RailsConfig} {s s' : Server}

lemma Records.refused (reply : Reply) : Records c s ([], .reply reply) := .of_keeps (.refused reply)

lemma Records.quiet {ws : List Write} (h : ∀ w ∈ ws, w.Quiet) (reply : Reply) :
    Records c s (ws, .reply reply) :=
  .of_keeps (.reply h reply)

/-- A stretch that only waits. -/
lemma Records.waits {task : Task} (h : task.Ready c s.subs) : Records c s ([], .wait task) :=
  .of_wait (List.forall_mem_nil _) h

lemma Records.withCode {code : String} {run : List Write × Next}
    (h : c.isValidPaymentCode code = true → Records c s run) :
    Records c s (withCode c code run) := by
  rw [Rails.withCode]
  split
  · exact h ‹_›
  · exact .refused _

lemma records_startRebind (rail : Rail) (x code : String) (grantRemaining : Bool) :
    Records c s (startRebind c s rail x code grantRemaining) := by
  rw [startRebind.eq_def]
  split
  · exact .refused _
  · refine .withCode fun _ => ?_
    split
    · exact .refused _
    · split
      · exact .refused _
      · cases rail with
        | apple => exact .quiet quiet_appleRebind _
        | google =>
            dsimp only
            rcases @Google.adminRebind_out s code x grantRemaining with ⟨reply, heq⟩ |
              ⟨plan, reply, heq⟩ | heq <;> rw [heq]
            · exact .refused reply
            · exact .quiet quiet_rebind reply
            · exact .waits trivial
        | stripe =>
            dsimp only
            rw [Stripe.adminRebind]
            split
            · exact .refused _
            · exact .waits trivial
        | voucher => exact .refused _

lemma records_handleWebhook (event : StripeEvent) :
    Records c s (Stripe.handleWebhook s event) := by
  cases event with
  | checkoutCompleted session => exact records_onCheckoutCompleted
  | invoicePaid invoice =>
      rw [Stripe.handleWebhook, Stripe.onInvoicePaid]
      split
      · exact .refused _
      · rename_i hcharged
        refine .of_keeps ⟨List.forall_mem_nil _, ready_resolveInvoiceBinding fun invoice' h => ?_⟩
        cases h
        exact ⟨rfl, hcharged⟩
  | chargeRefunded invoice paymentIntent =>
      rw [Stripe.handleWebhook, Stripe.onChargeRefunded]
      split
      · exact .waits trivial
      · split
        · exact .waits trivial
        · exact .refused _
  | subscriptionDeleted subId =>
      refine .quiet ?_ _
      rw [Stripe.onSubscriptionDeleted]
      dsimp only
      split
      · exact quiet_setStatus
      · exact List.forall_mem_nil _
  | other type => exact .refused _

lemma records_start (request : Request) : Records c s (start c s request) := by
  cases request with
  | appleVerify code => exact .withCode fun _ => .waits trivial
  | appleClaim code transfer => exact .withCode fun _ => .waits trivial
  | appleNotification => exact .waits trivial
  | googleVerify code token =>
      refine .withCode fun _ => ?_
      rcases @Google.verifyPurchase_out c code token .verify with ⟨reply, heq⟩ | ⟨-, heq⟩ <;>
        rw [heq]
      · exact .refused reply
      · exact .waits trivial
  | googleClaim code token transfer => exact .withCode fun _ => .waits trivial
  | googleRtdn message =>
      rcases @Google.handleRtdn_out c s message with ⟨reply, heq⟩ | ⟨token, reply, heq⟩ |
        ⟨type, token, htype, htoken, heq⟩ <;> rw [start, heq]
      · exact .refused reply
      · exact .quiet quiet_setStatus reply
      · exact .waits ⟨htype, htoken⟩
  | stripeTransfer code => exact .withCode fun _ => .waits trivial
  | stripeWebhook event => exact records_handleWebhook event
  | rebind rail x code grantRemaining => exact records_startRebind rail x code grantRemaining

lemma records_resume (h : TablesOk c s.subs) {task : Task} (hcode : task.CodeOk c)
    (hready : task.Ready c s.subs) {answer : Answer} {out : List Write × Next}
    (hout : resume c s task answer = some out) : Records c s out := by
  rw [resume.eq_def] at hout
  split at hout <;> cases hout
  · exact records_verifyPurchase h hcode
  · exact .quiet quiet_claimPurchase _
  · rename_i payload sandbox
    rw [Apple.handleNotification.eq_def]
    split
    · exact .refused _
    · dsimp only
      split
      · exact .waits trivial
      · exact .refused _
  · exact records_notified h
  · exact records_verified h hcode hready
  · exact records_claimed
  · rename_i token code sub
    rcases @Google.rebound_out c s code token sub with ⟨reply, heq⟩ |
      ⟨facts, reply, -, heq⟩ <;> rw [heq]
    · exact .refused reply
    · exact .quiet quiet_googleTransferTo reply
  · rename_i type token known sub
    rcases @Google.notified_out c token sub type known with ⟨reply, heq⟩ |
      ⟨code, -, -, heq⟩ <;> rw [heq]
    · exact .refused reply
    · exact .waits hready
  · exact records_settleGrant hready
  · exact records_settleGrant hready
  · exact .refused _
  · rename_i code subscription
    rw [Stripe.sessionRead.eq_def]
    split
    · exact .refused _
    · exact .waits trivial
  · rename_i code subId sub
    rcases @Stripe.transferred_out c s code subId sub with ⟨reply, heq⟩ |
      ⟨-, reply, heq⟩ <;> rw [heq]
    · exact .refused reply
    · exact .of_wait quiet_stripeTransferTo trivial
  · rename_i code subId grantRemaining known sub
    rcases @Stripe.rebound_out c s code subId sub grantRemaining known with ⟨reply, heq⟩ |
      ⟨reply, heq⟩ <;> rw [heq]
    · exact .refused reply
    · exact .of_wait quiet_stripeTransferTo trivial
  · exact .waits (ready_bindingRead hready _)
  · exact records_linesRead hready
  · rename_i binding
    rw [Stripe.refundBound.eq_def]
    split
    · exact .refused _
    · exact .of_wait quiet_setStatus trivial
  · exact records_daysRead hready
  · rename_i id
    rw [Stripe.refundInvoiceIdRead]
    split
    · exact .waits trivial
    · exact .refused _
  · exact .of_keeps ⟨List.forall_mem_nil _, ready_resolveInvoiceBinding fun _ h => by cases h⟩
  · rename_i task _
    rw [caught.eq_def]
    split <;> first
      | exact .refused _
      | exact .of_keeps .throw

lemma Stretch.records {s₀ : Server} {a : Action} {ws : List Write} {next : Next}
    (hcodes : CodesOk c s) (h : Recorded c s) (hs : Stretch c s s₀ a ws next) :
    Records c s₀ (ws, next) := by
  cases hs with
  | start request => exact records_start request
  | @resume i _ _ _ htask hout =>
      have hmem := List.mem_of_getElem? htask
      have htables : TablesOk c (s.drop i).subs := hcodes.tables
      have hready : Task.Ready c (s.drop i).subs _ := h.tasks _ hmem
      exact records_resume htables (hcodes.tasks _ hmem) hready hout

lemma Recorded.init (height nowMs : Int) : Recorded c (Server.init height nowMs) where
  verified _ h := by cases h
  granted _ h := by cases h
  rows _ h := by cases h
  tasks _ h := by cases h

/-- **A step keeps the record.** -/
theorem step_recorded {a : Action} (hcodes : CodesOk c s) (h : Recorded c s)
    (hstep : step c s a = some s') : Recorded c s' := by
  have hgrants := (grown_step hstep).kept
  rcases step_cases hstep with ⟨s₀, ws, next, hs, rfl⟩ | ⟨b, workers, -, -, rfl⟩ |
    ⟨nowMs, -, rfl⟩ | ⟨workers, -, rfl⟩
  · have hout := hs.records hcodes h
    obtain ⟨tasks, htasks, rfl⟩ := hs.eq
    have hold : ∀ k, HasRow s.subs k →
        HasRow (({ s with running := tasks } : Server).writeAll ws).subs k :=
      fun k hk => HasRow.writeAll (s := { s with running := tasks }) hk ws
    have hevents : ∀ e ∈ (({ s with running := tasks } : Server).finish ws next).processed,
        .processed e ∈ ws ∨ e ∈ s.processed := by
      intro e he
      rw [Server.processed_finish] at he
      exact (mem_processed_writeAll (s := { s with running := tasks })).mp he
    refine ⟨fun e he => ?_, fun e he k hk => ?_, fun e he k hk => ?_, fun task htask => ?_⟩
    · cases hevents e he with
      | inl hnew => exact hout.verified e hnew
      | inr he => exact h.verified e he
    · cases hevents e he with
      | inl hnew =>
          obtain ⟨p, hp, hkey⟩ := hout.granted e hnew k hk
          have hmem := @mem_grants_of_payment { s with running := tasks } ws p hp
          rw [hkey] at hmem
          rw [Server.grants, Server.workers_finish]
          exact hmem
      | inr he => exact List.map_subset _ hgrants (h.granted e he k hk)
    · rw [Server.subs_finish]
      cases hevents e he with
      | inl hnew => exact hout.rows e hnew k hk
      | inr he => exact hold k (h.rows e he k hk)
    · rw [Server.subs_finish]
      cases Server.mem_running_finish htask with
      | inl hmem => exact (h.tasks task (htasks hmem)).mono hold
      | inr hwait => exact hout.task task hwait
  · exact ⟨h.verified, fun e he k hk => List.map_subset _ hgrants (h.granted e he k hk), h.rows,
      h.tasks⟩
  · exact ⟨h.verified, h.granted, h.rows, h.tasks⟩
  · exact ⟨h.verified, fun e he k hk => List.map_subset _ hgrants (h.granted e he k hk), h.rows,
      fun _ htask => by cases htask⟩

end Run

/-! ### What a redelivery changes -/

/-- The status, the plan and the code of a subscription. -/
def standing (row : SubscriptionRow) : SubscriptionStatus × Plan × String :=
  (row.status, row.plan, row.paymentCode)

/-- No subscription stands otherwise. -/
def SameStanding (t t' : Subscriptions) : Prop :=
  ∀ rail x, (t'.get rail x).map standing = (t.get rail x).map standing

/-- A write that queues nothing and changes no standing: its grant, if it is
one, is in the queue. -/
def Write.Mild (s : Server) : Write → Prop
  | .payment p => (p.rail, p.eventKey) ∈ s.grants.map Prod.fst
  | .noteAppleExpiry _ _ _ => True
  | .mapAppleToken _ _ => True
  | .processed _ => True
  | _ => False

section Writes

variable {s s' : Server} {ws : List Write}

lemma SameStanding.refl (t : Subscriptions) : SameStanding t t := fun _ _ => rfl

lemma SameStanding.trans {t t' t'' : Subscriptions} (h : SameStanding t t')
    (h' : SameStanding t' t'') : SameStanding t t'' :=
  fun rail x => (h' rail x).trans (h rail x)

lemma SameStanding.symm {t t' : Subscriptions} (h : SameStanding t t') : SameStanding t' t :=
  fun rail x => (h rail x).symm

lemma Write.Mild.write {w : Write} (h : w.Mild s) :
    (s.write w).workers = s.workers ∧ SameStanding s.subs (s.write w).subs := by
  cases w with
  | payment p =>
      have hsame := Db.insertIdempotent_of_mem s.nowS h
      exact ⟨congrArg (fun db => { s.workers with db := db }) hsame, .refl _⟩
  | noteAppleExpiry x e sandbox =>
      refine ⟨rfl, fun rail y => ?_⟩
      change ((s.subs.noteAppleExpiry x e sandbox).get rail y).map standing = _
      rw [Subscriptions.get_noteAppleExpiry]
      split
      · rw [Option.map_map]
        refine congrArg (fun f => (s.subs.get rail y).map f) (funext fun row => ?_)
        simp [standing]
      · rfl
  | mapAppleToken token code => exact ⟨rfl, .refl _⟩
  | processed e => exact ⟨rfl, .refl _⟩
  | upsert => cases h
  | rebind => cases h
  | setStatus => cases h

/-- It depends on the queue alone. -/
lemma Write.Mild.congr {w : Write} (h : w.Mild s) (hworkers : s'.workers = s.workers) :
    w.Mild s' := by
  cases w with
  | payment p =>
      rw [Write.Mild, Server.grants, hworkers]
      exact h
  | _ => exact h

lemma mild_writeAll (h : ∀ w ∈ ws, w.Mild s) :
    (s.writeAll ws).workers = s.workers ∧ SameStanding s.subs (s.writeAll ws).subs := by
  induction ws generalizing s with
  | nil => exact ⟨rfl, .refl _⟩
  | cons w ws ih =>
      obtain ⟨hw, hws⟩ := List.forall_mem_cons.mp h
      obtain ⟨hworkers, hstanding⟩ := hw.write
      obtain ⟨hworkers', hstanding'⟩ := ih fun w' hw' => (hws w' hw').congr hworkers
      exact ⟨hworkers'.trans hworkers, hstanding.trans hstanding'⟩

/-- A bind changes no standing just when the subscription has the one that it
writes. -/
lemma sameStanding_upsert {t : Subscriptions} {rail : Rail} {x code : String} {plan : Plan}
    {customer : Option String} {now : Int} :
    SameStanding t (t.upsert rail x code plan customer now) ↔
      (t.get rail x).map standing = some (.active, plan, code) := by
  have hwritten : ((t.upsert rail x code plan customer now).get rail x).map standing =
      some (.active, plan, code) := by
    rw [Subscriptions.get_upsert, if_pos rfl]
    simp [standing]
  constructor
  · intro h
    rw [← h rail x, hwritten]
  · intro h rail' y
    by_cases hkey : (rail', y) = (rail, x)
    · cases hkey
      rw [hwritten, h]
    · rw [Subscriptions.get_upsert, if_neg hkey]

/-- A redelivery from `s` to `s'` that binds `x` queues nothing, and changes no
standing just when it binds what is bound. -/
structure Effect (s s' : Server) (rail : Rail) (x code : String) (plan : Plan) : Prop where
  workers : s'.workers = s.workers
  standing : SameStanding s.subs s'.subs ↔
    (s.subs.get rail x).map standing = some (.active, plan, code)

lemma effect_of_writes {rail : Rail} {x code : String} {plan : Plan} {customer : Option String}
    {before after : List Write} {next : Next} (hbefore : ∀ w ∈ before, w.Mild s)
    (hafter : ∀ w ∈ after, w.Mild s) :
    Effect s (s.finish (before ++ .upsert rail x code plan customer :: after) next) rail x code
      plan := by
  have hsplit : s.writeAll (before ++ .upsert rail x code plan customer :: after) =
      ((s.writeAll before).write (.upsert rail x code plan customer)).writeAll after := by
    rw [Server.writeAll, List.foldl_append]
    rfl
  obtain ⟨hworkers, hstanding⟩ := mild_writeAll hbefore
  have hbound : ((s.writeAll before).write (.upsert rail x code plan customer)).workers =
      s.workers := hworkers
  obtain ⟨hworkers', hstanding'⟩ := mild_writeAll fun w hw => (hafter w hw).congr hbound
  constructor
  · rw [Server.workers_finish, hsplit]
    exact hworkers'.trans hbound
  · rw [Server.subs_finish, hsplit, ← hstanding rail x]
    constructor
    · intro h
      exact sameStanding_upsert.mp (hstanding.symm.trans (h.trans hstanding'.symm))
    · intro h
      exact hstanding.trans ((sameStanding_upsert.mpr h).trans hstanding')

end Writes

/-! ### Deliveries -/

/-- How the handler of an invoice comes by the plan of its metadata: from the
invoice, or from its subscription. -/
inductive ReadsPlan (invoice : Invoice) : Plan → List Action → Prop
  | invoice (h : truthy ((Stripe.invoiceMetadata invoice).bind Metadata.cvpnCode) ≠ none) :
      ReadsPlan invoice
        (Stripe.planOfMetadata ((Stripe.invoiceMetadata invoice).bind Metadata.cvpnPlan)) []
  | subscription {sub : StripeSubscription}
      (h : truthy ((Stripe.invoiceMetadata invoice).bind Metadata.cvpnCode) = none) :
      ReadsPlan invoice (Stripe.planOfMetadata sub.metadata.cvpnPlan)
        [.resume 0 (.subscription sub)]

/-- The calls that deliver an event, each answered as before. -/
inductive Delivery (c : RailsConfig) : Event → List Action → Prop
  | appleVerify {code : String} {txn : Transaction} {sandbox : Bool} :
      Delivery c (.appleVerify code txn sandbox)
        [.start (.appleVerify code), .resume 0 (.transaction (some txn) sandbox)]
  | appleNotification {type : String} {txn : Transaction} {sandbox sandbox' : Bool} :
      Delivery c (.appleNotification type txn sandbox)
        [.start .appleNotification, .resume 0 (.notification (some ⟨some type, true⟩) sandbox),
          .resume 0 (.transaction (some txn) sandbox')]
  | googleVerify {code purchaseToken : String} {sub : Purchase} {acknowledged : Answer}
      (hack : acknowledged = .done ∨ acknowledged = .failed) :
      Delivery c (.googleVerify code purchaseToken sub)
        [.start (.googleVerify code purchaseToken), .resume 0 (.purchase sub),
          .resume 0 acknowledged]
  | googleRtdn {type : Int} {purchaseToken : String} {sub : Purchase} {message : Rtdn}
      {acknowledged : Answer} (hpackage : message.packageName = some c.google.packageName)
      (htest : message.testNotification = false) (hsubscription : message.hasSubscription = true)
      (htype : message.notificationType = some type)
      (htoken : message.purchaseToken = some purchaseToken)
      (hack : acknowledged = .done ∨ acknowledged = .failed) :
      Delivery c (.googleRtdn type purchaseToken sub)
        [.start (.googleRtdn (some message)), .resume 0 (.purchase sub), .resume 0 (.purchase sub),
          .resume 0 acknowledged]
  | checkoutCompleted {session : Session} :
      Delivery c (.checkoutCompleted session)
        [.start (.stripeWebhook (.checkoutCompleted session))]
  | invoicePaid {invoice : Invoice} {plan : Plan} {lines listed : List InvoiceLine}
      {price : Option Price} {reads : List Action} (hreads : ReadsPlan invoice plan reads)
      (hlines : lines = Stripe.invoiceLines invoice listed) :
      Delivery c (.invoicePaid invoice plan lines price)
        (.start (.stripeWebhook (.invoicePaid invoice)) ::
          (reads ++ .resume 0 (.lines listed) ::
            (price.map fun price => Action.resume 0 (.price price)).toList))

/-- The code that an event credits. -/
def Event.credits (s : Server) : Event → Option String
  | .appleVerify code txn _ => some ((Apple.ownerOf s txn (some code)).getD code)
  | .appleNotification _ txn _ =>
      Apple.ownerOf s txn ((truthy txn.appAccountToken).bind s.subs.codeForAppleToken)
  | .googleVerify code purchaseToken _ => some ((Google.movedOwner s purchaseToken).getD code)
  -- the others credit the code of the subscription
  | .googleRtdn _ purchaseToken _ =>
      (s.subs.get .google purchaseToken).map SubscriptionRow.paymentCode
  | .checkoutCompleted session =>
      (truthy session.subscription).bind fun subId =>
        (s.subs.get .stripe subId).map SubscriptionRow.paymentCode
  | .invoicePaid invoice _ _ _ =>
      (Stripe.invoiceSubId invoice).bind fun subId =>
        (s.subs.get .stripe subId).map SubscriptionRow.paymentCode

/-- The subscription is active, under the plan of the event and for the code
that it credits. -/
def Event.UpToDate (c : RailsConfig) (s : Server) (e : Event) : Prop :=
  ∃ k ∈ e.subject, ∃ plan ∈ e.plan c, ∃ code ∈ e.credits s,
    (s.subs.get k.1 k.2).map standing = some (.active, plan, code)

/-- The redelivery of `e` leads from `s` to `s'`, and changes only what is not
up to date. -/
structure Redelivered (c : RailsConfig) (s s' : Server) (e : Event) : Prop where
  workers : s'.workers = s.workers
  standing : SameStanding s.subs s'.subs ↔ e.UpToDate c s

section Deliveries

variable {c : RailsConfig} {s s' : Server} {e : Event}

lemma Effect.redelivered {rail : Rail} {x code : String} {plan : Plan}
    (h : Effect s s' rail x code plan) (hsubject : e.subject = some (rail, x))
    (hplan : e.plan c = some plan) (hcode : e.credits s = some code) : Redelivered c s s' e := by
  refine ⟨h.workers, h.standing.trans ⟨fun hrow => ?_, ?_⟩⟩
  · exact ⟨_, hsubject, plan, hplan, code, hcode, hrow⟩
  · rintro ⟨k, hk, plan', hplan', code', hcode', hrow⟩
    cases hsubject.symm.trans hk
    cases hplan.symm.trans hplan'
    cases hcode.symm.trans hcode'
    exact hrow

/-- The handler that has just begun to wait is resumed. -/
lemma exec_wait {ws : List Write} {task : Task} {answer : Answer} {out : List Write × Next}
    (h : resume c (s.writeAll ws) task answer = some out) (as : List Action) :
    exec (step c) (s.finish ws (.wait task)) (.resume 0 answer :: as) =
      exec (step c) ((s.writeAll ws).finish out.1 out.2) as := by
  have hstep : step c (s.finish ws (.wait task)) (.resume 0 answer) =
      some ((s.writeAll ws).finish out.1 out.2) := by
    change ((resume c (s.writeAll ws) task answer).map fun out =>
      (s.writeAll ws).finish out.1 out.2) = _
    rw [h]
    rfl
  rw [exec_cons, hstep]
  rfl

/-- Two stretches write what one with the writes of both would. -/
lemma finish_writeAll (ws ws' : List Write) (next : Next) :
    (s.writeAll ws).finish ws' next = s.finish (ws ++ ws') next := by
  have happend : (s.writeAll ws).writeAll ws' = s.writeAll (ws ++ ws') :=
    (List.foldl_append ..).symm
  rw [Server.finish.eq_def, Server.finish.eq_def, happend]

lemma exec_start {request : Request} {out : List Write × Next} (h : start c s request = out)
    (as : List Action) :
    exec (step c) s (.start request :: as) = exec (step c) (s.finish out.1 out.2) as := by
  rw [← h]
  rfl

/-- The writes of a settled period, after its bind. -/
lemma settle_writes {t : Transaction} {code transactionId orig : String} {sandbox : Bool}
    {expiresMs : Option Int} {days : Int} (hbought : Apple.Bought c t days transactionId orig)
    (hkeys : ∀ k ∈ appleKey c t sandbox, k ∈ s.grants.map Prod.fst) :
    ∃ after, (Apple.settle c s code transactionId orig expiresMs sandbox days).1 =
        .upsert .apple orig code (Apple.planForDays days) none :: after ∧
      ∀ w ∈ after, w.Mild s := by
  have hnotes : ∀ w ∈ (expiresMs.map fun e => Write.noteAppleExpiry orig e sandbox).toList,
      w.Mild s := by
    intro w hw
    obtain ⟨e, -, rfl⟩ := Option.map_eq_some_iff.mp (Option.mem_toList.mp hw)
    trivial
  rw [appleKey, hbought.transactionId, hbought.originalTransactionId] at hkeys
  simp only [Apple.settle]
  split
  · rename_i hprobe
    rw [if_pos hprobe] at hkeys
    refine ⟨_, rfl, fun w hw => (List.mem_append.mp hw).elim (hnotes w) fun hw => ?_⟩
    rw [Apple.sandboxGrant] at hw
    dsimp only at hw
    split at hw
    · cases hw
    · rename_i hdays
      rw [if_neg hdays] at hkeys
      rw [(mem_recordGrant hw).1]
      exact hkeys _ rfl
  · rename_i hprobe
    rw [if_neg hprobe] at hkeys
    refine ⟨_, rfl, fun w hw => (List.mem_append.mp hw).elim (hnotes w) fun hw => ?_⟩
    rw [(mem_recordGrant hw).1]
    exact hkeys _ rfl

lemma redelivered_appleVerify {code : String} {txn : Transaction} {sandbox : Bool}
    (hverified : (Event.appleVerify code txn sandbox).Verified c)
    (hkeys : ∀ k ∈ appleKey c txn sandbox, k ∈ s.grants.map Prod.fst) :
    ∃ s', exec (step c) s
        [.start (.appleVerify code), .resume 0 (.transaction (some txn) sandbox)] = some s' ∧
      Redelivered c s s' (.appleVerify code txn sandbox) := by
  obtain ⟨hcode, htoken, days, transactionId, orig, hbought⟩ := hverified
  obtain ⟨after, hsettle, hafter⟩ := @settle_writes c s txn
    ((Apple.ownerOf s txn (some code)).getD code) transactionId orig sandbox txn.expiresDate days
    hbought hkeys
  have hstart : start c s (.appleVerify code) = ([], .wait (.appleVerify code)) := if_pos hcode
  have hwrites : (Apple.verifyPurchase c s code (some txn) sandbox).1 =
      [.mapAppleToken (c.uuidForCode code) code] ++
        .upsert .apple orig ((Apple.ownerOf s txn (some code)).getD code)
          (Apple.planForDays days) none ::
          (after ++ [.processed (.appleVerify code txn sandbox)]) := by
    rw [Apple.verifyPurchase, hbought.days]
    dsimp only
    rw [if_neg (not_not.mpr htoken), hbought.transactionId, hbought.originalTransactionId]
    dsimp only
    rw [hsettle]
    rfl
  refine ⟨_, (exec_start hstart _).trans (exec_wait rfl []), ?_⟩
  dsimp only
  change Redelivered c s (s.finish (Apple.verifyPurchase c s code (some txn) sandbox).1 _) _
  rw [hwrites]
  refine Effect.redelivered (effect_of_writes ?_ ?_) (congrArg (Option.map _)
    hbought.originalTransactionId) (congrArg (Option.map _) hbought.days) rfl
  · exact List.forall_mem_singleton.mpr trivial
  · exact List.forall_mem_append.mpr ⟨hafter, List.forall_mem_singleton.mpr trivial⟩

/-- A subscription on record has an owner. -/
lemma ownerOf_of_hasRow {txn : Transaction} {orig : String} {purchaser : Option String}
    (h : TablesOk c s.subs) (horig : truthy txn.originalTransactionId = some orig)
    (hrow : HasRow s.subs (.apple, orig))
    (hp : ∀ code ∈ purchaser, c.isValidPaymentCode code = true) :
    ∃ owner, Apple.ownerOf s txn purchaser = some owner ∧ truthy (some owner) = some owner := by
  obtain ⟨row, hget⟩ := Option.isSome_iff_exists.mp hrow
  have hsome : (Apple.ownerOf s txn purchaser).isSome = true := by
    rw [Apple.ownerOf, horig, Option.bind_some, hget]
    dsimp only
    cases row.transferredAt with
    | none => cases purchaser <;> rfl
    | some at_ =>
        cases purchaser with
        | none => simp
        | some purchaser =>
            dsimp only
            split <;> rfl
  obtain ⟨owner, howner⟩ := Option.isSome_iff_exists.mp hsome
  have hne := c.ne_empty (valid_ownerOf h hp owner howner)
  exact ⟨owner, howner, Option.filter_eq_some_iff.mpr ⟨rfl, decide_eq_true hne⟩⟩

lemma redelivered_appleNotification {type : String} {txn : Transaction} {sandbox sandbox' : Bool}
    (h : TablesOk c s.subs) (hverified : (Event.appleNotification type txn sandbox).Verified c)
    (hkeys : ∀ k ∈ appleKey c txn sandbox, k ∈ s.grants.map Prod.fst)
    (hrow : ∀ k ∈ (Event.appleNotification type txn sandbox).subject, HasRow s.subs k) :
    ∃ s', exec (step c) s
        [.start .appleNotification, .resume 0 (.notification (some ⟨some type, true⟩) sandbox),
          .resume 0 (.transaction (some txn) sandbox')] = some s' ∧
      Redelivered c s s' (.appleNotification type txn sandbox) := by
  obtain ⟨htype, days, transactionId, orig, hbought⟩ := hverified
  have hsubject := congrArg (Option.map fun id => (Rail.apple, id)) hbought.originalTransactionId
  have hpurchaser : ∀ code ∈ (truthy txn.appAccountToken).bind s.subs.codeForAppleToken,
      c.isValidPaymentCode code = true := by
    intro code hcode
    obtain ⟨token, -, htoken⟩ := Option.bind_eq_some_iff.mp hcode
    exact h.tokens _ _ htoken
  obtain ⟨owner, howner, htruthy⟩ :=
    ownerOf_of_hasRow h hbought.originalTransactionId (hrow _ hsubject) hpurchaser
  obtain ⟨after, hsettle, hafter⟩ := @settle_writes c s txn owner transactionId orig sandbox
    txn.expiresDate days hbought hkeys
  have hother : ∀ other ∉ Apple.grantTypes, type ≠ other := by
    rintro other hmem rfl
    exact hmem htype
  have hwrites : (Apple.notified c s type sandbox (some txn)).1 =
      [] ++ .upsert .apple orig owner (Apple.planForDays days) none ::
        (after ++ [.processed (.appleNotification type txn sandbox)]) := by
    rw [Apple.notified]
    dsimp only
    rw [hbought.originalTransactionId]
    dsimp only
    rw [if_neg (hother "REFUND" (by decide)), if_neg (hother "EXPIRED" (by decide)),
      if_neg (hother "DID_FAIL_TO_RENEW" (by decide)), if_neg (not_not.mpr htype), howner,
      htruthy, hbought.days, hbought.transactionId]
    dsimp only
    rw [hsettle]
    rfl
  refine ⟨_, (exec_start rfl _).trans ((exec_wait rfl _).trans (exec_wait rfl [])), ?_⟩
  change Redelivered c s (s.finish (Apple.notified c s type sandbox (some txn)).1 _) _
  rw [hwrites]
  refine Effect.redelivered (effect_of_writes (List.forall_mem_nil _) ?_) hsubject
    (congrArg (Option.map _) hbought.days) howner
  exact List.forall_mem_append.mpr ⟨hafter, List.forall_mem_singleton.mpr trivial⟩

/-! #### Google -/

lemma mild_settleGrant {s₁ : Server} {caller : GoogleCaller} {event : Option Event}
    {code purchaseToken : String} {facts : PeriodFacts}
    (hkeys : ∀ k ∈ googleKey c purchaseToken facts, k ∈ s.grants.map Prod.fst) :
    ∀ w ∈ (Google.settleGrant c s₁ caller event code purchaseToken facts).1, w.Mild s := by
  have hevent : ∀ w ∈ (event.map Write.processed).toList, w.Mild s := by
    intro w hw
    obtain ⟨e, -, rfl⟩ := Option.map_eq_some_iff.mp (Option.mem_toList.mp hw)
    trivial
  simp only [Google.settleGrant]
  refine List.forall_mem_append.mpr ⟨fun w hw => ?_, hevent⟩
  rw [googleKey] at hkeys
  split at hw
  · rename_i hprobe
    rw [if_pos hprobe] at hkeys
    rw [Google.testGrant] at hw
    dsimp only at hw
    split at hw
    · cases hw
    · rename_i hdays
      rw [if_neg hdays] at hkeys
      rw [(mem_recordGrant hw).1]
      exact hkeys _ rfl
  · rename_i hprobe
    rw [if_neg hprobe] at hkeys
    rw [(mem_recordGrant hw).1]
    exact hkeys _ rfl

/-- A verify from where Play has answered. -/
lemma exec_verified {caller : GoogleCaller} {event : Option Event}
    {code owner purchaseToken : String} {sub : Purchase} {facts : PeriodFacts}
    {acknowledged : Answer} (hack : acknowledged = .done ∨ acknowledged = .failed)
    (hkeys : ∀ k ∈ googleKey c purchaseToken facts, k ∈ s.grants.map Prod.fst)
    (hbind : Google.verified c s caller code purchaseToken sub =
      Google.settleBind caller event owner purchaseToken facts) :
    ∃ s', exec (step c) (s.finish [] (.wait (.googleVerify caller code purchaseToken)))
        [.resume 0 (.purchase sub), .resume 0 acknowledged] = some s' ∧
      Effect s s' .google purchaseToken owner facts.plan := by
  have hread : resume c s (.googleVerify caller code purchaseToken) (.purchase sub) =
      some (Google.settleBind caller event owner purchaseToken facts) := congrArg some hbind
  have hgrant : ∀ s₁, resume c s₁ (.googleAcknowledge caller event owner purchaseToken facts)
      acknowledged = some (Google.settleGrant c s₁ caller event owner purchaseToken facts) := by
    intro s₁
    rcases hack with rfl | rfl <;> rfl
  refine ⟨_, (exec_wait hread _).trans (exec_wait (hgrant _) []), ?_⟩
  rw [Google.settleBind]
  dsimp only
  rw [finish_writeAll]
  exact @effect_of_writes s .google purchaseToken owner facts.plan none [] _ _
    (List.forall_mem_nil _) (mild_settleGrant hkeys)

lemma redelivered_googleVerify {code purchaseToken : String} {sub : Purchase}
    {acknowledged : Answer} (hack : acknowledged = .done ∨ acknowledged = .failed)
    (hverified : (Event.googleVerify code purchaseToken sub).Verified c)
    (hkeys : ∀ k ∈ (Event.googleVerify code purchaseToken sub).grantKey c,
      k ∈ s.grants.map Prod.fst) :
    ∃ s', exec (step c) s
        [.start (.googleVerify code purchaseToken), .resume 0 (.purchase sub),
          .resume 0 acknowledged] = some s' ∧
      Redelivered c s s' (.googleVerify code purchaseToken sub) := by
  obtain ⟨hcode, hactive, haccount, facts, hfacts⟩ := hverified
  rw [Event.grantKey, hfacts] at hkeys
  have hstart : start c s (.googleVerify code purchaseToken) =
      ([], .wait (.googleVerify .verify code purchaseToken)) := by
    rw [start, withCode, if_pos hcode, Google.verifyPurchase, hcode]
    rfl
  have hbind : Google.verified c s .verify code purchaseToken sub =
      Google.settleBind .verify (some (.googleVerify code purchaseToken sub))
        ((Google.movedOwner s purchaseToken).getD code) purchaseToken facts := by
    rw [Google.verified, hactive]
    dsimp only
    rw [if_neg (fun hne => hne.2 haccount), hfacts]
    rfl
  obtain ⟨s', hexec, heffect⟩ := exec_verified hack hkeys hbind
  refine ⟨s', (exec_start hstart _).trans hexec, heffect.redelivered rfl ?_ rfl⟩
  rw [Event.plan, googlePlan, hfacts]
  rfl

lemma redelivered_googleRtdn {type : Int} {purchaseToken : String} {sub : Purchase}
    {message : Rtdn} {acknowledged : Answer} (h : TablesOk c s.subs)
    (hpackage : message.packageName = some c.google.packageName)
    (htest : message.testNotification = false) (hsubscription : message.hasSubscription = true)
    (htype : message.notificationType = some type)
    (htoken : message.purchaseToken = some purchaseToken)
    (hack : acknowledged = .done ∨ acknowledged = .failed)
    (hverified : (Event.googleRtdn type purchaseToken sub).Verified c)
    (hkeys : ∀ k ∈ (Event.googleRtdn type purchaseToken sub).grantKey c,
      k ∈ s.grants.map Prod.fst)
    (hrow : HasRow s.subs (.google, purchaseToken)) :
    ∃ s', exec (step c) s
        [.start (.googleRtdn (some message)), .resume 0 (.purchase sub), .resume 0 (.purchase sub),
          .resume 0 acknowledged] = some s' ∧
      Redelivered c s s' (.googleRtdn type purchaseToken sub) := by
  obtain ⟨hgrant, hne, hactive, facts, hfacts⟩ := hverified
  obtain ⟨row, hget⟩ := Option.isSome_iff_exists.mp hrow
  obtain ⟨hcode, hvalid⟩ := h.rows .google purchaseToken row hget
  rw [Event.grantKey, hfacts] at hkeys
  have hrevoke : message.notificationType ≠ some Google.revokeNotification := by
    rw [htype]
    rintro heq
    cases heq
    exact absurd hgrant (by decide)
  have hstart : start c s (.googleRtdn (some message)) =
      ([], .wait (.googleRtdn type purchaseToken (some row))) := by
    rw [start, Google.handleRtdn]
    have htruthy : truthy message.purchaseToken = some purchaseToken := by
      rw [htoken]
      exact Option.filter_eq_some_iff.mpr ⟨rfl, decide_eq_true hne⟩
    have hfilter : message.notificationType.filter (· ∈ Google.grantNotifications) = some type := by
      rw [htype]
      exact Option.filter_eq_some_iff.mpr ⟨rfl, decide_eq_true hgrant⟩
    rw [htest, if_neg Bool.false_ne_true, if_neg (not_not.mpr hpackage), htruthy]
    dsimp only
    rw [hsubscription, if_neg (by decide), if_neg hrevoke, hfilter, hget]
  have hnotified : Google.notified c type purchaseToken (some row) sub =
      .wait (.googleVerify (.rtdn type) row.paymentCode purchaseToken) := by
    have htruthy : truthy ((some row).map SubscriptionRow.paymentCode <|>
        sub.obfuscatedExternalAccountId) = some row.paymentCode :=
      Option.filter_eq_some_iff.mpr ⟨rfl, decide_eq_true hcode⟩
    rw [Google.notified, htruthy]
    dsimp only
    rw [Google.verifyPurchase, hvalid (by decide)]
    rfl
  have howner : (Google.movedOwner s purchaseToken).getD row.paymentCode = row.paymentCode := by
    rw [Google.movedOwner, hget, Option.bind_some]
    cases row.transferredAt <;> rfl
  have hbind : Google.verified c s (.rtdn type) row.paymentCode purchaseToken sub =
      Google.settleBind (.rtdn type) (some (.googleRtdn type purchaseToken sub))
        row.paymentCode purchaseToken facts := by
    rw [Google.verified, hactive]
    dsimp only
    rw [if_neg (fun hverify => by cases hverify.1), hfacts, howner]
    rfl
  have hread : resume c s (.googleRtdn type purchaseToken (some row)) (.purchase sub) =
      some ([], .wait (.googleVerify (.rtdn type) row.paymentCode purchaseToken)) :=
    congrArg (fun next => some ([], next)) hnotified
  obtain ⟨s', hexec, heffect⟩ := exec_verified hack hkeys hbind
  have hfirst := (exec_start hstart [.resume 0 (.purchase sub), .resume 0 (.purchase sub),
    .resume 0 acknowledged]).trans (exec_wait hread _)
  refine ⟨s', hfirst.trans hexec, heffect.redelivered rfl ?_ (congrArg (Option.map _) hget)⟩
  rw [Event.plan, googlePlan, hfacts]
  rfl

/-! #### Stripe -/

lemma redelivered_checkoutCompleted {session : Session}
    (hverified : (Event.checkoutCompleted session).Verified c)
    (hrow : ∀ k ∈ (Event.checkoutCompleted session).subject, HasRow s.subs k) :
    ∃ s', exec (step c) s [.start (.stripeWebhook (.checkoutCompleted session))] = some s' ∧
      Redelivered c s s' (.checkoutCompleted session) := by
  obtain ⟨code, subId, hcode, hsub⟩ := hverified
  have hsubject := congrArg (Option.map fun id => (Rail.stripe, id)) hsub
  obtain ⟨row, hget⟩ := Option.isSome_iff_exists.mp (hrow _ hsubject)
  have hwrites : (Stripe.onCheckoutCompleted s session).1 =
      [] ++ .upsert .stripe subId row.paymentCode
        (Stripe.planOfMetadata session.metadata.cvpnPlan) session.customer ::
        [.processed (.checkoutCompleted session)] := by
    rw [Stripe.onCheckoutCompleted, hcode, hsub]
    dsimp only
    rw [hget]
    rfl
  have hcredits : (Event.checkoutCompleted session).credits s = some row.paymentCode := by
    rw [Event.credits, hsub, Option.bind_some, hget]
    rfl
  refine ⟨_, exec_start rfl [], ?_⟩
  change Redelivered c s (s.finish (Stripe.onCheckoutCompleted s session).1 _) _
  rw [hwrites]
  refine Effect.redelivered (effect_of_writes (List.forall_mem_nil _) ?_) hsubject rfl hcredits
  exact List.forall_mem_singleton.mpr trivial

/-- The last stretch of an invoice queues only what is queued. -/
lemma mild_daysRead {s₁ : Server} {invoice : Invoice} {bound : Binding}
    {lines : List InvoiceLine} {price : Price}
    (hsub : Stripe.invoiceSubId invoice = some bound.subId)
    (hkeys : ∀ k ∈ (Event.invoicePaid invoice bound.plan lines (some price)).grantKey c,
      k ∈ s.grants.map Prod.fst) :
    ∀ w ∈ (Stripe.daysRead c s₁ invoice bound lines
      ((Stripe.planForLines c lines).getD bound.plan) price).1, w.Mild s := by
  rcases @Stripe.daysRead_out c s₁ invoice bound lines
      ((Stripe.planForLines c lines).getD bound.plan) price with heq |
    ⟨days, reply, hdays, ⟨-, heq⟩ | ⟨hpos, heq⟩⟩ <;> rw [heq]
  · exact List.forall_mem_nil _
  · exact List.forall_mem_singleton.mpr trivial
  · have hkey : (Rail.stripe, Stripe.invoiceKey invoice bound.subId) ∈ s.grants.map Prod.fst := by
      refine hkeys _ ?_
      have hsome : (invoiceDays c invoice bound.plan lines price).filter (1 ≤ ·) = some days :=
        Option.filter_eq_some_iff.mpr ⟨hdays, decide_eq_true hpos⟩
      rw [Event.grantKey, hsome, hsub]
      rfl
    refine List.forall_mem_append.mpr ⟨fun w hw => ?_, fun w hw => ?_⟩
    · rw [(mem_recordGrant hw).1]
      exact hkey
    · split at hw
      · cases hw
      · rw [List.mem_singleton.mp hw]
        trivial

/-- A paid invoice from where its binding is resolved. -/
lemma exec_bound {invoice : Invoice} {bound : Binding} {lines listed : List InvoiceLine}
    {price : Option Price} (hsub : Stripe.invoiceSubId invoice = some bound.subId)
    (hlines : lines = Stripe.invoiceLines invoice listed)
    (hverified : (Event.invoicePaid invoice bound.plan lines price).Verified c)
    (hkeys : ∀ k ∈ (Event.invoicePaid invoice bound.plan lines price).grantKey c,
      k ∈ s.grants.map Prod.fst) :
    ∃ s', exec (step c) (s.finish [] (.wait (.invoiceBound (.paid invoice) (some bound))))
        (.resume 0 (.lines listed) ::
          (price.map fun price => Action.resume 0 (.price price)).toList) = some s' ∧
      Effect s s' .stripe bound.subId bound.code
        ((Stripe.planForLines c lines).getD bound.plan) := by
  have hread : resume c s (.invoiceBound (.paid invoice) (some bound)) (.lines listed) =
      some (Stripe.linesRead c invoice (some bound) listed) := rfl
  rcases @Stripe.linesRead_out c invoice (some bound) listed with ⟨reply, heq⟩ |
    ⟨bound', lines', plan, hbound, hlines', hplan, ⟨⟨hlive, htest⟩, reply, heq⟩ | ⟨hlive, heq⟩⟩
  · rw [Stripe.linesRead] at heq
    split at heq <;> cases heq
  · cases hbound
    subst hlines hlines' hplan
    cases price with
    | none =>
        refine ⟨_, (exec_wait (hread.trans (congrArg some heq)) []), ?_⟩
        exact @effect_of_writes s .stripe bound.subId bound.code _ _ [] _ _
          (List.forall_mem_nil _) (List.forall_mem_singleton.mpr trivial)
    | some price =>
        cases hverified.2.2.1 with
        | inl h => exact absurd (h.symm.trans hlive) (by decide)
        | inr h => exact absurd (h.symm.trans htest) (by decide)
  · cases hbound
    subst hlines hlines' hplan
    cases price with
    | none =>
        cases hlive with
        | inl h => exact absurd (h.symm.trans hverified.2.2.1) (by decide)
        | inr h => exact absurd (h.symm.trans hverified.2.2.2) (by decide)
    | some price =>
        refine ⟨_, (exec_wait (hread.trans (congrArg some heq)) _).trans (exec_wait rfl []), ?_⟩
        dsimp only
        rw [finish_writeAll]
        exact @effect_of_writes s .stripe bound.subId bound.code _ _ [] _ _
          (List.forall_mem_nil _) (mild_daysRead hsub hkeys)

lemma redelivered_invoicePaid {invoice : Invoice} {plan : Plan}
    {lines listed : List InvoiceLine} {price : Option Price} {reads : List Action}
    (h : TablesOk c s.subs) (hreads : ReadsPlan invoice plan reads)
    (hlines : lines = Stripe.invoiceLines invoice listed)
    (hverified : (Event.invoicePaid invoice plan lines price).Verified c)
    (hkeys : ∀ k ∈ (Event.invoicePaid invoice plan lines price).grantKey c,
      k ∈ s.grants.map Prod.fst)
    (hrow : ∀ k ∈ (Event.invoicePaid invoice plan lines price).subject, HasRow s.subs k) :
    ∃ s', exec (step c) s (.start (.stripeWebhook (.invoicePaid invoice)) ::
        (reads ++ .resume 0 (.lines listed) ::
          (price.map fun price => Action.resume 0 (.price price)).toList)) = some s' ∧
      Redelivered c s s' (.invoicePaid invoice plan lines price) := by
  obtain ⟨hcharged, hsome⟩ : Charged invoice ∧ (Stripe.invoiceSubId invoice).isSome := by
    cases price with
    | none => exact ⟨hverified.1, hverified.2.1⟩
    | some price => exact ⟨hverified.1, hverified.2.1⟩
  obtain ⟨subId, hsub⟩ := Option.isSome_iff_exists.mp hsome
  have hsubject := congrArg (Option.map fun id => (Rail.stripe, id)) hsub
  obtain ⟨row, hget⟩ := Option.isSome_iff_exists.mp (hrow _ hsubject)
  have hcode := (h.rows .stripe subId row hget).1
  have hbinding : ∀ metadata, Stripe.bindingOf s subId metadata =
      some ⟨subId, row.paymentCode, Stripe.planOfMetadata (metadata.bind Metadata.cvpnPlan)⟩ := by
    intro metadata
    have htruthy : truthy ((some row).map SubscriptionRow.paymentCode <|>
        metadata.bind Metadata.cvpnCode) = some row.paymentCode :=
      Option.filter_eq_some_iff.mpr ⟨rfl, decide_eq_true hcode⟩
    rw [Stripe.bindingOf, hget, htruthy]
    rfl
  have hcredits : (Event.invoicePaid invoice plan lines price).credits s =
      some row.paymentCode := by
    rw [Event.credits, hsub, Option.bind_some, hget]
    rfl
  obtain ⟨s', hexec, heffect⟩ :=
    @exec_bound c s invoice ⟨subId, row.paymentCode, plan⟩ lines listed price hsub hlines hverified
      hkeys
  refine ⟨s', ?_, heffect.redelivered hsubject rfl hcredits⟩
  rw [← hexec]
  cases hreads with
  | invoice hmetadata =>
      have hstart : start c s (.stripeWebhook (.invoicePaid invoice)) =
          ([], .wait (.invoiceBound (.paid invoice) (some ⟨subId, row.paymentCode,
            Stripe.planOfMetadata
              ((Stripe.invoiceMetadata invoice).bind Metadata.cvpnPlan)⟩))) := by
        obtain ⟨code, hmetadata⟩ := Option.ne_none_iff_exists'.mp hmetadata
        rw [start, Stripe.handleWebhook, Stripe.onInvoicePaid, if_neg hcharged,
          Stripe.resolveInvoiceBinding, hsub]
        dsimp only
        rw [hmetadata, hbinding]
      exact exec_start hstart _
  | @subscription sub hmetadata =>
      have hstart : start c s (.stripeWebhook (.invoicePaid invoice)) =
          ([], .wait (.invoiceSubscription (.paid invoice) subId)) := by
        rw [start, Stripe.handleWebhook, Stripe.onInvoicePaid, if_neg hcharged,
          Stripe.resolveInvoiceBinding, hsub]
        dsimp only
        rw [hmetadata]
      have hread : resume c s (.invoiceSubscription (.paid invoice) subId) (.subscription sub) =
          some ([], .wait (.invoiceBound (.paid invoice) (some ⟨subId, row.paymentCode,
            Stripe.planOfMetadata sub.metadata.cvpnPlan⟩))) := by
        rw [resume, Stripe.bindingRead, hbinding]
        rfl
      exact (exec_start hstart _).trans (@exec_wait c s [] _ _ _ hread _)

/-- An event that is on record is redelivered. -/
lemma redelivered (hcodes : CodesOk c s) (h : Recorded c s) (he : e ∈ s.processed)
    {as : List Action} (hdelivery : Delivery c e as) :
    ∃ s', exec (step c) s as = some s' ∧ Redelivered c s s' e := by
  have htables := hcodes.tables
  have hverified := h.verified e he
  have hkeys := h.granted e he
  have hrow := h.rows e he
  cases hdelivery with
  | appleVerify => exact redelivered_appleVerify hverified hkeys
  | appleNotification => exact redelivered_appleNotification htables hverified hkeys hrow
  | googleVerify hack => exact redelivered_googleVerify hack hverified hkeys
  | googleRtdn hpackage htest hsubscription htype htoken hack =>
      exact redelivered_googleRtdn htables hpackage htest hsubscription htype htoken hack hverified
        hkeys (hrow _ rfl)
  | checkoutCompleted => exact redelivered_checkoutCompleted hverified hrow
  | invoicePaid hreads hlines =>
      exact redelivered_invoicePaid htables hreads hlines hverified hkeys hrow

end Deliveries

/-! ### Redeliveries -/

/-- **The redelivery of a processed event queues nothing in any reachable
state, and keeps the status, plan and code of every subscription just when
that of the event is up to date.** -/
theorem redelivery (c : RailsConfig) (height nowMs : Int) {as : List Action} {s : Server}
    (h : exec (step c) (.init height nowMs) as = some s) {e : Event} (he : e ∈ s.processed)
    {as' : List Action} (hdelivery : Delivery c e as') :
    ∃ s', exec (step c) s as' = some s' ∧ s'.payments = s.payments ∧
      (SameStanding s.subs s'.subs ↔ e.UpToDate c s) := by
  have hrecord : CodesOk c s ∧ Recorded c s :=
    exec_invariant (G := fun _ _ => True) (I := fun s => CodesOk c s ∧ Recorded c s)
      (fun s a s' hs _ hstep => ⟨step_codesOk hs.1 hstep, step_recorded hs.1 hs.2 hstep⟩)
      ⟨.init height nowMs, .init height nowMs⟩ (along_of_mem (fun _ _ => trivial) _) h
  obtain ⟨s', hexec, hworkers, hstanding⟩ := redelivered hrecord.1 hrecord.2 he hdelivery
  exact ⟨s', hexec, congrArg (fun workers => workers.db.payments) hworkers, hstanding⟩

/-- A code that has bought a month. -/
def buyer : String := "phonephonephonephonephone"

/-- The month, as the store signed it. -/
def boughtMonth : Transaction where
  productId := some "cvpn.premium.monthly"
  transactionId := some "1001"
  originalTransactionId := some "1000"
  appAccountToken := some buyer
  expiresDate := some 2678400000
  purchaseDate := some 0
  transactionReason := some .purchase
  revocationDate := none
  isUpgraded := none

/-- The app hands the month in. -/
def handIn : List Action :=
  [.start (.appleVerify buyer), .resume 0 (.transaction (some boughtMonth) false)]

/-- The store tells that it has refunded it. -/
def refundNotice : List Action :=
  [.start .appleNotification, .resume 0 (.notification (some ⟨some "REFUND", true⟩) false),
    .resume 0 (.transaction (some boughtMonth) false)]

/-- Handed in again while it is active, the month changes nothing. -/
theorem redelivery_active :
    ∃ s s', exec (step testConfig) (Server.init 100 0) handIn = some s ∧
      (s.subs.get .apple "1000").map standing = some (.active, .monthly, buyer) ∧
      exec (step testConfig) s handIn = some s' ∧ s'.payments = s.payments ∧
      SameStanding s.subs s'.subs := by
  have hrun : (exec (step testConfig) (Server.init 100 0) handIn).any fun s =>
      .appleVerify buyer boughtMonth false ∈ s.processed ∧
        (Event.appleVerify buyer boughtMonth false).credits s = some buyer ∧
        (s.subs.get .apple "1000").map standing = some (.active, .monthly, buyer) := by
    decide +kernel
  obtain ⟨s, hs, hactive⟩ := (Option.any_eq_true _ _).mp hrun
  obtain ⟨hprocessed, hcredits, hrow⟩ := of_decide_eq_true hactive
  obtain ⟨s', hexec, hpayments, hstanding⟩ :=
    redelivery testConfig 100 0 hs hprocessed .appleVerify
  have hcurrent : (Event.appleVerify buyer boughtMonth false).UpToDate testConfig s :=
    ⟨(.apple, "1000"), rfl, .monthly, rfl, buyer, hcredits, hrow⟩
  exact ⟨s, s', hs, hrow, hexec, hpayments, hstanding.mpr hcurrent⟩

/-- **Handed in again after its refund, the month makes its subscription active
again.** -/
theorem not_redelivery :
    ∃ s s', exec (step testConfig) (Server.init 100 0) (handIn ++ refundNotice) = some s ∧
      .appleVerify buyer boughtMonth false ∈ s.processed ∧
      Delivery testConfig (.appleVerify buyer boughtMonth false) handIn ∧
      exec (step testConfig) s handIn = some s' ∧
      (s.subs.get .apple "1000").map standing = some (.refunded, .monthly, buyer) ∧
      (s'.subs.get .apple "1000").map standing = some (.active, .monthly, buyer) ∧
      ¬ SameStanding s.subs s'.subs := by
  have hrun : (exec (step testConfig) (Server.init 100 0) (handIn ++ refundNotice)).any fun s =>
      (.appleVerify buyer boughtMonth false ∈ s.processed ∧
        (s.subs.get .apple "1000").map standing = some (.refunded, .monthly, buyer)) ∧
      (exec (step testConfig) s handIn).any fun s' =>
        (s'.subs.get .apple "1000").map standing = some (.active, .monthly, buyer) := by
    decide +kernel
  obtain ⟨s, hs, hboth⟩ := (Option.any_eq_true _ _).mp hrun
  obtain ⟨⟨hprocessed, hrefunded⟩, hagain⟩ := of_decide_eq_true hboth
  obtain ⟨s', hs', hactive⟩ := (Option.any_eq_true _ _).mp hagain
  have hactive := of_decide_eq_true hactive
  refine ⟨s, s', hs, hprocessed, .appleVerify, hs', hrefunded, hactive, fun hsame => ?_⟩
  have hstanding := hsame .apple "1000"
  rw [hrefunded, hactive] at hstanding
  cases hstanding

end CumulusVpn.Bridge.Rails
