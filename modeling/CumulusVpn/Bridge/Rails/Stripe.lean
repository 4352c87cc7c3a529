/-
The Stripe rail (`bridge/src/rails/stripe.ts`).

* `planForLines`, `daysForInvoice`: what an invoice bought;
* `transferTo`: moves a subscription and hands over the rest of its period;
* `sessionRead`, `transferred`, `adminRebind`, `rebound`: the moves, cut where
  they wait;
* `onCheckoutCompleted`, `onInvoicePaid`, `bindingRead`, `linesRead`,
  `daysRead`: what a payment binds and grants;
* `onChargeRefunded`, `onSubscriptionDeleted`: the ends.

The attribution of a discount to its voucher, after the grant, is left out.
-/
import CumulusVpn.Bridge.Rails.Server

namespace CumulusVpn.Bridge.Rails.Stripe

/-- Whether an invoice line is a proration. -/
def isProration (line : InvoiceLine) : Bool :=
  line.proration || line.itemProration || line.invoiceItemProration

/-- Price id an invoice line was billed at. -/
def priceIdOf (line : InvoiceLine) : Option String := line.priceDetails <|> line.legacyPrice

/-- End of a subscription's current period, in unix seconds. -/
def periodEndOf (sub : StripeSubscription) : Option Int :=
  sub.itemPeriodEnd <|> sub.legacyPeriodEnd

/-- The plan that metadata names. -/
def planOfMetadata (planRaw : Option String) : Plan :=
  if planRaw = some "annual" then .annual else .monthly

/-- The plan a configured price id bills. -/
def planForPrice (c : RailsConfig) (id : Option String) : Option Plan :=
  if id = some c.stripe.priceAnnual then some .annual
  else if id = some c.stripe.priceMonthly then some .monthly
  else none

/-- One line of `planForLines`. -/
def betterLine (c : RailsConfig) (best : Option (Plan × Int)) (line : InvoiceLine) :
    Option (Plan × Int) :=
  match planForPrice c (priceIdOf line) with
  | none => best
  | some plan =>
      if line.amount ≤ 0 then best
      else if best.all fun b => line.amount > b.2 then some (plan, line.amount)
      else best

/-- The plan that an invoice bills: that of the largest positive line at a
configured price. -/
def planForLines (c : RailsConfig) (lines : List InvoiceLine) : Option Plan :=
  (lines.foldl (betterLine c) none).map Prod.fst

/-- The list price of a plan; the webhook fails where it cannot be used. -/
def planListCents (price : Price) (currency : String) : Option Int :=
  (price.unitAmount.filter (0 < ·)).filter fun _ => price.currency = currency

/-- How many days an invoice bought: the whole plan, or with proration lines
in proportion to what it charged, as `Math.round` rounds. -/
def daysForInvoice (invoice : Invoice) (lines : List InvoiceLine) (plan : Plan)
    (price : Price) : Option Int :=
  if !lines.any isProration then some (planDays plan)
  else
    (planListCents price invoice.currency).map fun listCents =>
      let net := (invoice.totalExcludingTax <|> invoice.subtotal).getD 0
      let days := (2 * (planDays plan * net) + listCents) / (2 * listCents)
      max 0 (min days (planDays plan))

section Handlers

variable (c : RailsConfig) (s : Server)

/-! ### Moves -/

/-- Rebinds and, when `grant`, hands over the rest of the period. -/
def transferTo (code subId : String) (sub : StripeSubscription) (knownPlan : Option Plan)
    (actor : TransferActor) (grant : Bool) : List Write × Moved :=
  let plan := (planForPrice c sub.itemPrice <|> knownPlan).getD .monthly
  let periodEndMs := (periodEndOf sub).map (· * 1000)
  let settles := grant && (sub.livemode || c.stripe.testGrants)
  let days := if settles then remainingDays periodEndMs s.nowMs plan else 0
  let rest := grantRest c s
    { rail := .stripe
      eventKey := transferEventKey subId (periodEndMs.getD 0)
      externalRef := subId
      paymentCode := code
      days := days }
  (rest.1 ++ [.rebind .stripe subId code plan actor days],
    ⟨days, rest.2, (s.subs.get .stripe subId).map SubscriptionRow.paymentCode⟩)

/-- A transfer after its Checkout Session is retrieved. -/
def sessionRead (code : String) (subscription : Option String) : Next :=
  match truthy subscription with
  | none => .reply (.outcome (refuse "no_subscription"))
  | some subId => .wait (.stripeTransfer code subId)

/-- A transfer after its subscription is retrieved; the metadata is rewritten
last. -/
def transferred (code subId : String) (sub : StripeSubscription) : List Write × Next :=
  let known := s.subs.get .stripe subId
  if sub.status ≠ "active" ∨ known.map SubscriptionRow.status = some .refunded then
    ([], .reply (.outcome (refuse "no_subscription")))
  else
    let owner := known.map SubscriptionRow.paymentCode <|> sub.metadata.cvpnCode
    if owner = some code then ([], .reply (.outcome (refuse "already_bound")))
    else
      match transferAvailableAt (known.bind SubscriptionRow.transferredAt) s.nowS with
      | some availableAt =>
          ([], .reply (.outcome
            { refuse "transfer_too_soon" with availableAt := some availableAt }))
      | none =>
          let moved := transferTo c s code subId sub (known.map SubscriptionRow.plan) .user true
          (moved.1, .wait (.lastCall (.outcome (moved.2.transferred !sub.livemode))))

/-- Support override; the row is read before the subscription is
retrieved. -/
def adminRebind (subId code : String) (grantRemaining : Bool) : Next :=
  match s.subs.get .stripe subId with
  | none => .reply (.rebind { ok := false, reason := "not_found" })
  | some known => .wait (.stripeRebind code subId grantRemaining known)

/-- A support rebind after the subscription is retrieved. -/
def rebound (code subId : String) (grantRemaining : Bool) (known : SubscriptionRow)
    (sub : StripeSubscription) : List Write × Next :=
  if grantRemaining ∧ (sub.status ≠ "active" ∨ known.status = .refunded) then
    ([], .reply (.rebind { ok := false, reason := "not_active" }))
  else
    let moved := transferTo c s code subId sub (some known.plan) .admin grantRemaining
    (moved.1, .wait (.lastCall (.rebind (moved.2.rebound !sub.livemode))))

/-! ### Payments -/

/-- A redelivery after a transfer must not move it back. -/
def onCheckoutCompleted (session : Session) : List Write × String :=
  match truthy session.metadata.cvpnCode, truthy session.subscription with
  | some code, some subId =>
      let bound := ((s.subs.get .stripe subId).map SubscriptionRow.paymentCode).getD code
      ([.upsert .stripe subId bound (planOfMetadata session.metadata.cvpnPlan)
          session.customer,
        .processed (.checkoutCompleted session)],
        "checkout-completed:bound")
  | _, _ => ([], "checkout-completed:missing-binding")

/-- The subscription that an invoice names. -/
def invoiceSubId (invoice : Invoice) : Option String :=
  truthy (invoice.parentSubscription <|> invoice.legacySubscription)

/-- The metadata that an invoice carries. -/
def invoiceMetadata (invoice : Invoice) : Option Metadata :=
  invoice.parentMetadata <|> invoice.legacyMetadata

/-- The end of `resolveInvoiceBinding`: the persisted code wins. -/
def bindingOf (subId : String) (metadata : Option Metadata) : Option Binding :=
  let code := (s.subs.get .stripe subId).map SubscriptionRow.paymentCode <|>
    metadata.bind Metadata.cvpnCode
  (truthy code).map fun code =>
    ⟨subId, code, planOfMetadata (metadata.bind Metadata.cvpnPlan)⟩

/-- The start of `resolveInvoiceBinding`: the subscription is retrieved where
the invoice carries no code. -/
def resolveInvoiceBinding (use : BindingUse) (invoice : Invoice) : Next :=
  match invoiceSubId invoice with
  | none => .wait (.invoiceBound use none)
  | some subId =>
      match truthy ((invoiceMetadata invoice).bind Metadata.cvpnCode) with
      | none => .wait (.invoiceSubscription use subId)
      | some _ => .wait (.invoiceBound use (bindingOf s subId (invoiceMetadata invoice)))

/-- `resolveInvoiceBinding` after the subscription is retrieved. -/
def bindingRead (use : BindingUse) (subId : String) (sub : StripeSubscription) : Next :=
  .wait (.invoiceBound use (bindingOf s subId (some sub.metadata)))

/-- The start of a paid invoice. -/
def onInvoicePaid (invoice : Invoice) : Next :=
  if invoice.amountPaid = 0 ∧ ¬ invoice.discounts.any (0 < ·) then
    .reply (.slug "invoice:zero-amount")
  else resolveInvoiceBinding s (.paid invoice) invoice

/-- Every line on the invoice, given what the API lists. -/
def invoiceLines (invoice : Invoice) (listed : List InvoiceLine) : List InvoiceLine :=
  if invoice.hasMore ∧ truthy invoice.id ≠ none then listed else invoice.lines

/-- The key of an invoice's grant. -/
def invoiceKey (invoice : Invoice) (subId : String) : String :=
  invoice.id.getD ("invoice-missing-" ++ subId ++ "-" ++ toString invoice.created)

/-- A paid invoice after its lines are read: the subscription is bound to the
code that was read before. -/
def linesRead (invoice : Invoice) (binding : Option Binding) (listed : List InvoiceLine) :
    List Write × Next :=
  match binding with
  | none => ([], .reply (.slug "invoice:no-subscription-binding"))
  | some bound =>
      let lines := invoiceLines invoice listed
      let plan := (planForLines c lines).getD bound.plan
      let bind := Write.upsert .stripe bound.subId bound.code plan invoice.customer
      if !invoice.livemode && !c.stripe.testGrants then
        ([bind, .processed (.invoicePaid invoice bound.plan lines none)],
          .reply (.slug "invoice:test-mode"))
      else ([bind], .wait (.invoiceDays invoice bound lines plan))

/-- A paid invoice after the list price is read. -/
def daysRead (invoice : Invoice) (bound : Binding) (lines : List InvoiceLine) (plan : Plan)
    (price : Price) : List Write × Next :=
  let event := Write.processed (.invoicePaid invoice bound.plan lines (some price))
  match daysForInvoice invoice lines plan price with
  | none => ([], .throw)
  | some days =>
      if days < 1 then ([event], .reply (.slug "invoice:no-days"))
      else
        let result := recordGrant c s
          { rail := .stripe
            eventKey := invoiceKey invoice bound.subId
            externalRef := bound.subId
            paymentCode := bound.code
            days := days }
        -- an invoice whose code is refused is not processed
        (result.1 ++ (if result.2 = .invalidCode then [] else [event]),
          .reply (.slug ("invoice:" ++ result.2.text)))

/-! ### Ends -/

/-- The start of a refund: the invoice of the charge is looked up. -/
def onChargeRefunded (invoice paymentIntent : Option String) : Next :=
  if (truthy invoice).isSome then .wait .refundInvoice
  else if (truthy paymentIntent).isSome then .wait .refundInvoiceId
  else .reply (.slug "refund:no-invoice")

/-- The refund goes on with the invoice that the charge names. -/
def refundInvoiceIdRead (invoiceId : Option String) : Next :=
  if (truthy invoiceId).isSome then .wait .refundInvoice
  else .reply (.slug "refund:no-invoice")

/-- A refund after its binding is resolved; the subscription is cancelled at
Stripe last. -/
def refundBound (binding : Option Binding) : List Write × Next :=
  match binding with
  | none => ([], .reply (.slug "refund:no-subscription"))
  | some bound =>
      ([.setStatus .stripe bound.subId .refunded],
        .wait (.lastCall (.slug "refund:handled")))

/-- A subscription that was active is cancelled. -/
def onSubscriptionDeleted (subId : String) : List Write × String :=
  (if (s.subs.get .stripe subId).map SubscriptionRow.status = some .active then
      [.setStatus .stripe subId .canceled]
    else [],
    "subscription:canceled")

/-- `handleWebhook`. -/
def handleWebhook (event : StripeEvent) : List Write × Next :=
  match event with
  | .checkoutCompleted session =>
      ((onCheckoutCompleted s session).1, .reply (.slug (onCheckoutCompleted s session).2))
  | .invoicePaid invoice => ([], onInvoicePaid s invoice)
  | .chargeRefunded invoice paymentIntent => ([], onChargeRefunded invoice paymentIntent)
  | .subscriptionDeleted subId =>
      ((onSubscriptionDeleted s subId).1, .reply (.slug (onSubscriptionDeleted s subId).2))
  | .other type => ([], .reply (.slug ("ignored:" ++ type)))

end Handlers

/-! ### What the stretches write -/

section Writes

variable {c : RailsConfig} {s : Server} {code subId : String} {sub : StripeSubscription}

/-- A transfer moves a subscription that may move, or replies. -/
lemma transferred_out :
    (∃ reply, transferred c s code subId sub = ([], .reply reply)) ∨
      transferAvailableAt ((s.subs.get .stripe subId).bind SubscriptionRow.transferredAt) s.nowS =
          none ∧
        ∃ reply, transferred c s code subId sub =
          ((transferTo c s code subId sub ((s.subs.get .stripe subId).map SubscriptionRow.plan)
            .user true).1, .wait (.lastCall reply)) := by
  simp only [transferred]
  split
  · exact Or.inl ⟨_, rfl⟩
  · split
    · exact Or.inl ⟨_, rfl⟩
    · split
      · exact Or.inl ⟨_, rfl⟩
      · rename_i havailable
        exact Or.inr ⟨havailable, _, rfl⟩

/-- A support rebind moves the subscription, or replies. -/
lemma rebound_out {grantRemaining : Bool} {known : SubscriptionRow} :
    (∃ reply, rebound c s code subId grantRemaining known sub = ([], .reply reply)) ∨
      ∃ reply, rebound c s code subId grantRemaining known sub =
        ((transferTo c s code subId sub (some known.plan) .admin grantRemaining).1,
          .wait (.lastCall reply)) := by
  simp only [rebound]
  split
  · exact Or.inl ⟨_, rfl⟩
  · exact Or.inr ⟨_, rfl⟩

/-- A completed checkout binds the subscription to its code, if it has one. -/
lemma onCheckoutCompleted_writes {session : Session} :
    (onCheckoutCompleted s session).1 = [] ∨
      ∃ code subId, truthy session.metadata.cvpnCode = some code ∧
        truthy session.subscription = some subId ∧
        (onCheckoutCompleted s session).1 =
          [.upsert .stripe subId
              (((s.subs.get .stripe subId).map SubscriptionRow.paymentCode).getD code)
              (planOfMetadata session.metadata.cvpnPlan) session.customer,
            .processed (.checkoutCompleted session)] := by
  rw [onCheckoutCompleted.eq_def]
  split
  · rename_i code subId hcode hsub
    exact Or.inr ⟨code, subId, hcode, hsub, rfl⟩
  · exact Or.inl rfl

/-- An invoice binds its subscription to the code that was read before. -/
lemma linesRead_out {invoice : Invoice} {binding : Option Binding} {listed : List InvoiceLine} :
    (∃ reply, linesRead c invoice binding listed = ([], .reply reply)) ∨
      ∃ bound lines plan, binding = some bound ∧ lines = invoiceLines invoice listed ∧
        plan = (planForLines c lines).getD bound.plan ∧
        ((invoice.livemode = false ∧ c.stripe.testGrants = false) ∧
            (∃ reply, linesRead c invoice binding listed =
              ([.upsert .stripe bound.subId bound.code plan invoice.customer,
                .processed (.invoicePaid invoice bound.plan lines none)], .reply reply)) ∨
          (invoice.livemode = true ∨ c.stripe.testGrants = true) ∧
            linesRead c invoice binding listed =
              ([.upsert .stripe bound.subId bound.code plan invoice.customer],
                .wait (.invoiceDays invoice bound lines plan))) := by
  rw [linesRead.eq_def]
  split
  · exact Or.inl ⟨_, rfl⟩
  · rename_i bound
    dsimp only
    split
    · rename_i htest
      simp only [Bool.and_eq_true, Bool.not_eq_true'] at htest
      exact Or.inr ⟨bound, _, _, rfl, rfl, rfl, Or.inl ⟨htest, _, rfl⟩⟩
    · rename_i htest
      simp only [Bool.and_eq_true, Bool.not_eq_true', not_and_or, Bool.not_eq_false] at htest
      exact Or.inr ⟨bound, _, _, rfl, rfl, rfl, Or.inr ⟨htest, rfl⟩⟩

/-- The grant of an invoice. -/
def invoiceEvent (invoice : Invoice) (bound : Binding) (days : Int) : GrantEvent where
  rail := .stripe
  eventKey := invoiceKey invoice bound.subId
  externalRef := bound.subId
  paymentCode := bound.code
  days := days

/-- The last stretch of an invoice grants its days, if it bought any. -/
lemma daysRead_out {invoice : Invoice} {bound : Binding} {lines : List InvoiceLine} {plan : Plan}
    {price : Price} :
    daysRead c s invoice bound lines plan price = ([], .throw) ∨
      ∃ days reply, daysForInvoice invoice lines plan price = some days ∧
        (days < 1 ∧ daysRead c s invoice bound lines plan price =
            ([.processed (.invoicePaid invoice bound.plan lines (some price))], .reply reply) ∨
          1 ≤ days ∧ daysRead c s invoice bound lines plan price =
            ((recordGrant c s (invoiceEvent invoice bound days)).1 ++
              (if (recordGrant c s (invoiceEvent invoice bound days)).2 = .invalidCode then []
                else [.processed (.invoicePaid invoice bound.plan lines (some price))]),
              .reply reply)) := by
  simp only [daysRead]
  split
  · exact Or.inl rfl
  · rename_i days hdays
    split
    · rename_i hlt
      exact Or.inr ⟨days, _, hdays, Or.inl ⟨hlt, rfl⟩⟩
    · rename_i hlt
      exact Or.inr ⟨days, _, hdays, Or.inr ⟨by omega, rfl⟩⟩

/-- An invoice never buys more than its plan. -/
lemma daysForInvoice_le {invoice : Invoice} {lines : List InvoiceLine} {plan : Plan}
    {price : Price} {days : Int} (h : daysForInvoice invoice lines plan price = some days) :
    days ≤ planDays plan := by
  have hpos := planDays_pos plan
  rw [daysForInvoice] at h
  split at h
  · cases h
    exact le_rfl
  · obtain ⟨listCents, -, rfl⟩ := Option.map_eq_some_iff.mp h
    exact max_le (by omega) (min_le_right _ _)

/-- A resolved binding has a code, and it is the persisted one where there is
one. -/
lemma bindingOf_eq_some {metadata : Option Metadata} {bound : Binding}
    (h : bindingOf s subId metadata = some bound) :
    bound.subId = subId ∧ bound.code ≠ "" ∧
      bound.plan = planOfMetadata (metadata.bind Metadata.cvpnPlan) ∧
      ∀ row, s.subs.get .stripe subId = some row → bound.code = row.paymentCode := by
  obtain ⟨code, hcode, rfl⟩ := Option.map_eq_some_iff.mp h
  obtain ⟨hsome, hne⟩ := Option.filter_eq_some_iff.mp hcode
  refine ⟨rfl, by simpa using hne, rfl, fun row hrow => ?_⟩
  rw [hrow] at hsome
  exact (Option.some_inj.mp hsome).symm

/-- The resolution of a binding waits; what it has resolved is a binding. -/
lemma resolveInvoiceBinding_out {use : BindingUse} {invoice : Invoice} :
    resolveInvoiceBinding s use invoice = .wait (.invoiceBound use none) ∨
      ∃ subId, invoiceSubId invoice = some subId ∧
        (resolveInvoiceBinding s use invoice = .wait (.invoiceSubscription use subId) ∨
          resolveInvoiceBinding s use invoice =
            .wait (.invoiceBound use (bindingOf s subId (invoiceMetadata invoice)))) := by
  rw [resolveInvoiceBinding.eq_def]
  split
  · exact Or.inl rfl
  · rename_i subId hsub
    split
    · exact Or.inr ⟨subId, hsub, Or.inl rfl⟩
    · exact Or.inr ⟨subId, hsub, Or.inr rfl⟩

end Writes

end CumulusVpn.Bridge.Rails.Stripe
