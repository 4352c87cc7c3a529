/-
The grants of a billing period.

* `Catalogue`: the periods that the stores have sold;
* `truthful`: a step whose answer agrees with the catalogue;
* `sized`: a step that falls back on no longer plan than the period's;
* `Justified`, `Sound`: what a grant of a store rail may be, and the
  invariant;
* `two_grants`: **in every run whose steps are truthful and sized, a period has
  at most two grants, of no more than twice its plan**;
* `not_two_grants`: an old transaction is verified again, and a move by support
  grants the period that runs by the plan of the old one.
-/
import CumulusVpn.Bridge.Rails.Queue
import CumulusVpn.Bridge.Rails.Codes

namespace CumulusVpn.Bridge.Rails

open StepSystem

/-! ### What the stores have sold -/

/-- A billing period. -/
structure Period where
  subscription : String
  plan : Plan
  endMs : Int
deriving DecidableEq, Repr

/-- The periods of each rail by their transaction, order or invoice id, and
the plan of the period of a subscription that ends at a time. -/
structure Catalogue where
  period : Rail → String → Option Period
  planAt : Rail → String → Int → Plan
  planAt_eq : ∀ {rail id p}, period rail id = some p →
    planAt rail p.subscription p.endMs = p.plan
  /-- no id of a store reads as the key of a transfer -/
  ne_transferEventKey : ∀ {rail id p}, period rail id = some p →
    ∀ x endMs, id ≠ transferEventKey x endMs
  voucher : ∀ id, period .voucher id = none

namespace Catalogue

variable (K : Catalogue)

/-- The period with this id is one of `subscription`, under `plan`. -/
def sold (rail : Rail) (id subscription : String) (plan : Plan) (endMs : Option Int) : Bool :=
  (K.period rail id).any fun p =>
    p.subscription = subscription ∧ p.plan = plan ∧ endMs.all (· = p.endMs)

/-- The rest of the period that ends at `endMs` is no longer than its plan, or
`plan` is not. -/
def covers (rail : Rail) (subscription : String) (endMs : Int) (plan : Plan) (nowMs : Int) :
    Bool :=
  planDays plan ≤ planDays (K.planAt rail subscription endMs) ∨
    endMs - nowMs ≤ planDays (K.planAt rail subscription endMs) * dayMs

/-- The period with this id is worth so many days. -/
def Buys (rail : Rail) (id : String) (days : Int) : Prop :=
  ∃ p, K.period rail id = some p ∧ days ≤ planDays p.plan

end Catalogue

/-! ### Truthful answers -/

section Truthful

variable (c : RailsConfig) (K : Catalogue)

/-- The transaction is one for a period that was sold. -/
def truthfulTransaction (txn : Transaction) : Bool :=
  match Apple.daysForProduct c txn.productId, truthy txn.transactionId,
      truthy txn.originalTransactionId with
  | some days, some id, some original =>
      K.sold .apple id original (Apple.planForDays days) txn.expiresDate
  | _, _, _ => true

/-- The purchase is one for a period that was sold. -/
def truthfulPurchase (purchaseToken : String) (sub : Purchase) : Bool :=
  match Google.periodFacts c sub with
  | .ok facts => K.sold .google facts.orderId purchaseToken facts.plan facts.expiryMs
  | .error _ => true

/-- A configured price names the plan of the period that runs. -/
def truthfulSubscription (subId : String) (sub : StripeSubscription) : Bool :=
  (Stripe.planForPrice c sub.itemPrice).all fun plan =>
    (Stripe.periodEndOf sub).all fun periodEnd =>
      K.planAt .stripe subId (periodEnd * 1000) = plan

/-- So do the configured prices of a paid invoice. -/
def truthfulInvoice (invoice : Invoice) (bound : Binding) (listed : List InvoiceLine) : Bool :=
  (K.period .stripe (Stripe.invoiceKey invoice bound.subId)).any fun p =>
    p.subscription = bound.subId ∧
      (Stripe.planForLines c (Stripe.invoiceLines invoice listed)).all (· = p.plan)

/-- An answer to a waiting handler that agrees with the catalogue. -/
def Task.truthful : Task → Answer → Bool
  | _, .transaction (some txn) _ => truthfulTransaction c K txn
  | .googleVerify _ _ token, .purchase sub => truthfulPurchase c K token sub
  | .googleClaim _ token _, .purchase sub => truthfulPurchase c K token sub
  | .googleRebind token _, .purchase sub => truthfulPurchase c K token sub
  | .stripeTransfer _ subId, .subscription sub => truthfulSubscription c K subId sub
  | .stripeRebind _ subId _ _, .subscription sub => truthfulSubscription c K subId sub
  | .invoiceBound (.paid invoice) (some bound), .lines listed =>
      truthfulInvoice c K invoice bound listed
  | _, _ => true

/-- The answers that the handlers get are truthful. -/
def truthful (s : Server) : Action → Bool
  | .resume i answer => (s.running[i]?).all fun task => task.truthful c K answer
  | _ => true

/-! ### Plans that are not read from the store -/

/-- The plan that a Stripe move falls back on, where it grants and the price
is not a configured one, is no longer than that of the period that runs. -/
def sizedMove (s : Server) (subId : String) (known : Option SubscriptionRow)
    (sub : StripeSubscription) : Bool :=
  !(sub.livemode || c.stripe.testGrants) || (Stripe.planForPrice c sub.itemPrice).isSome ||
    (Stripe.periodEndOf sub).all fun periodEnd =>
      K.covers .stripe subId (periodEnd * 1000)
        ((known.map SubscriptionRow.plan).getD .monthly) s.nowMs

/-- The move of a subscription to a device is not refused. -/
def Stripe.movable (s : Server) (code subId : String) (sub : StripeSubscription) : Bool :=
  let known := s.subs.get .stripe subId
  sub.status = "active" ∧ known.map SubscriptionRow.status ≠ some .refunded ∧
    (known.map SubscriptionRow.paymentCode <|> sub.metadata.cvpnCode) ≠ some code ∧
    transferAvailableAt (known.bind SubscriptionRow.transferredAt) s.nowS = none

/-- The answer of a waiting handler whose move or invoice is granted by a plan
that is not the store's finds one no longer than that of the period. -/
def Task.sized (s : Server) : Task → Answer → Bool
  | .stripeTransfer code subId, .subscription sub =>
      !Stripe.movable s code subId sub || sizedMove c K s subId (s.subs.get .stripe subId) sub
  | .stripeRebind _ subId true known, .subscription sub =>
      sub.status ≠ "active" || known.status = .refunded || sizedMove c K s subId (some known) sub
  -- an invoice without a configured price falls back on the metadata
  | .invoiceBound (.paid invoice) (some bound), .lines listed =>
      (Stripe.planForLines c (Stripe.invoiceLines invoice listed)).isSome ||
        !(invoice.livemode || c.stripe.testGrants) ||
        (K.period .stripe (Stripe.invoiceKey invoice bound.subId)).all fun p =>
          planDays bound.plan ≤ planDays p.plan
  | _, _ => true

/-- The plan that a move by support takes from an active Apple row is no
longer than that of the period that it takes from there. -/
def sizedRebind (s : Server) (originalTransactionId : String) : Bool :=
  (s.subs.get .apple originalTransactionId).all fun known =>
    known.status ≠ .active ||
      known.appleSandbox = some true && !c.apple.sandboxGrants ||
      known.appleExpiresMs.all fun expiresMs =>
        K.covers .apple originalTransactionId expiresMs known.plan s.nowMs

/-- Where the step takes the plan of a grant from the subscription row or from
metadata, it is no longer than that of the period. -/
def sized (s : Server) : Action → Bool
  | .start (.rebind .apple originalTransactionId _ true) =>
      sizedRebind c K s originalTransactionId
  | .resume i answer => (s.running[i]?).all fun task => task.sized c K s answer
  | _ => true

end Truthful

/-! ### What may be granted -/

/-- What starts the key of a probe. -/
def probeTags : List String := ["sandbox:", "sandbox-transfer:", "test:", "test-transfer:"]

/-- A grant of a store rail: of a period by its id, of a period by its
transfer, or a probe. -/
inductive Justified (K : Catalogue) (rail : Rail) : String → Int → Prop
  | period {id : String} {days : Int} (h : K.Buys rail id days) : Justified K rail id days
  | transfer {x : String} {endMs days : Int} (h : days ≤ planDays (K.planAt rail x endMs)) :
      Justified K rail (transferEventKey x endMs) days
  | probe {tag x : String} {days : Int} (htag : tag ∈ probeTags) (h : days ≤ 30) :
      Justified K rail (tag ++ x) days

/-- The rows of an event. -/
def Server.granted (s : Server) (rail : Rail) (eventKey : String) : List PaymentRow :=
  s.payments.filter fun r => r.event = (rail, eventKey)

/-- The days that an event has been granted. -/
def Server.grantedDays (s : Server) (rail : Rail) (eventKey : String) : Int :=
  ((s.granted rail eventKey).map PaymentRow.days).sum

/-- A period has at most one grant by its id and one by its transfer, of no
more than twice its plan in all; and the store rails grant nothing else but
probes. -/
structure TwoGrants (K : Catalogue) (s : Server) : Prop where
  own : ∀ rail id p, K.period rail id = some p → (s.granted rail id).length ≤ 1
  transfer : ∀ rail id p, K.period rail id = some p →
    (s.granted rail (transferEventKey p.subscription p.endMs)).length ≤ 1
  days : ∀ rail id p, K.period rail id = some p →
    s.grantedDays rail id + s.grantedDays rail (transferEventKey p.subscription p.endMs) ≤
      2 * planDays p.plan
  others : ∀ r ∈ s.payments, r.rail ≠ .voucher → Justified K r.rail r.eventKey r.days

/-! ### The invariant -/

/-- A payment that may be granted. -/
def Write.Paid (K : Catalogue) : Write → Prop
  | .payment p => Justified K p.rail p.eventKey p.days
  | _ => True

/-- A handler that is about to grant remembers a period that was sold. -/
def Task.Paid (K : Catalogue) : Task → Prop
  | .googleAcknowledge _ _ _ _ facts => K.Buys .google facts.orderId facts.days
  | .invoiceDays invoice bound _ plan =>
      K.Buys .stripe (Stripe.invoiceKey invoice bound.subId) (planDays plan)
  | _ => True

/-- No event is granted twice, every grant of a store rail may be, and every
waiting handler is about to grant what it may. -/
structure Sound (K : Catalogue) (s : Server) : Prop where
  nodup : (s.grants.map Prod.fst).Nodup
  justified : ∀ g ∈ s.grants, g.1.1 ≠ .voucher → Justified K g.1.1 g.1.2 g.2
  tasks : ∀ task ∈ s.running, task.Paid K

variable {c : RailsConfig} {K : Catalogue} {s s' : Server}

namespace Catalogue

lemma sold_iff {rail : Rail} {id x : String} {plan : Plan} {endMs : Option Int} :
    K.sold rail id x plan endMs = true ↔ ∃ p, K.period rail id = some p ∧
      p.subscription = x ∧ p.plan = plan ∧ ∀ e, endMs = some e → e = p.endMs := by
  simp only [sold, Option.any_eq_true, decide_eq_true_eq]
  refine exists_congr fun p => and_congr_right fun _ => and_congr_right fun _ =>
    and_congr_right fun _ => ?_
  cases endMs <;> simp

/-- A period that was sold under a plan is worth its days. -/
lemma Buys.of_sold {rail : Rail} {id x : String} {plan : Plan} {endMs : Option Int}
    (h : K.sold rail id x plan endMs = true) : K.Buys rail id (planDays plan) := by
  obtain ⟨p, hp, -, rfl, -⟩ := sold_iff.mp h
  exact ⟨p, hp, le_rfl⟩

lemma planAt_of_sold {rail : Rail} {id x : String} {plan : Plan} {endMs : Int}
    (h : K.sold rail id x plan (some endMs) = true) : K.planAt rail x endMs = plan := by
  obtain ⟨p, hp, rfl, rfl, hend⟩ := sold_iff.mp h
  rw [hend endMs rfl]
  exact K.planAt_eq hp

end Catalogue

/-- The rest of a period is no longer than its plan where the plan it is sized
by covers it. -/
lemma remainingDays_le_of_covers {rail : Rail} {x : String} {endMs nowMs : Int} {plan : Plan}
    (h : K.covers rail x endMs plan nowMs = true) :
    remainingDays (some endMs) nowMs plan ≤ planDays (K.planAt rail x endMs) := by
  have hpos := planDays_pos (K.planAt rail x endMs)
  rcases of_decide_eq_true h with hplan | hrest
  · exact (remainingDays_le _ _ _).trans hplan
  · simp only [remainingDays]
    split
    · omega
    · refine (min_le_right _ _).trans (max_le (by omega) ?_)
      rw [dayMs] at hrest ⊢
      omega

lemma Catalogue.covers_self {rail : Rail} {x : String} {endMs nowMs : Int} {plan : Plan}
    (h : K.planAt rail x endMs = plan) : K.covers rail x endMs plan nowMs = true :=
  decide_eq_true (Or.inl (h ▸ le_rfl))

/-- The days of a product are those of its plan. -/
lemma planDays_planForDays {productId : Option String} {days : Int}
    (h : Apple.daysForProduct c productId = some days) :
    planDays (Apple.planForDays days) = days := by
  rw [Apple.daysForProduct] at h
  split at h
  · cases h
    rfl
  · split at h
    · cases h
      rfl
    · cases h

/-! ### The Apple stretches -/

lemma paid_grantRest {ev : GrantEvent}
    (h : 0 < ev.days → Justified K ev.rail ev.eventKey ev.days) :
    ∀ w ∈ (grantRest c s ev).1, w.Paid K := by
  intro w hw
  obtain ⟨rfl, hpos⟩ := mem_grantRest hw
  exact h hpos

section Apple

variable {code orig transactionId : String} {t : Transaction} {days : Int} {sandbox : Bool}

lemma sold_of_truthful (hbought : Apple.Bought c t days transactionId orig)
    (h : truthfulTransaction c K t = true) :
    K.sold .apple transactionId orig (Apple.planForDays days) t.expiresDate = true := by
  simpa [truthfulTransaction, hbought.days, hbought.transactionId,
    hbought.originalTransactionId] using h

lemma paid_settle {expiresMs : Option Int} (hbought : Apple.Bought c t days transactionId orig)
    (h : truthfulTransaction c K t = true) :
    ∀ w ∈ (Apple.settle c s code transactionId orig expiresMs sandbox days).1, w.Paid K := by
  obtain ⟨rest, heq, hrest⟩ := @Apple.settle_eq c s code orig transactionId expiresMs sandbox days
  intro w hw
  rw [heq] at hw
  rcases List.mem_cons.mp hw with rfl | hw
  · trivial
  · rcases hrest w hw with ⟨e, -, rfl⟩ | rfl
    · trivial
    · simp only [Write.Paid, newPayment, Apple.settleEvent]
      split
      · exact .probe (by decide) c.apple.sandboxGrantDays_mem.2
      · have hbuys := Catalogue.Buys.of_sold (sold_of_truthful hbought h)
        rw [planDays_planForDays hbought.days] at hbuys
        exact .period hbuys

lemma paid_appleTransferTo {plan : Plan} {expiresMs : Int} {actor : TransferActor}
    (h : (sandbox && !c.apple.sandboxGrants) = false →
      K.covers .apple orig expiresMs plan s.nowMs = true) :
    ∀ w ∈ (Apple.transferTo c s code orig plan expiresMs sandbox actor).1, w.Paid K := by
  intro w hw
  rcases List.mem_append.mp hw with hw | hw
  · refine paid_grantRest (fun _ => ?_) w hw
    dsimp only
    split
    · exact .probe (by decide) c.apple.sandboxGrantDays_mem.2
    · rename_i hprobe
      exact .transfer (remainingDays_le_of_covers (h (by simpa using hprobe)))
  · rcases List.mem_pair.mp hw with rfl | rfl <;> trivial

lemma paid_verifyPurchase {txn : Option Transaction}
    (h : ∀ t, txn = some t → truthfulTransaction c K t = true) :
    ∀ w ∈ (Apple.verifyPurchase c s code txn sandbox).1, w.Paid K := by
  intro w hw
  rcases @Apple.verifyPurchase_writes c s code txn sandbox with heq |
    ⟨t, days, transactionId, orig, ht, hbought, -, heq⟩ <;> rw [heq] at hw
  · cases hw
  · rcases List.mem_cons.mp hw with rfl | hw
    · trivial
    · rcases List.mem_append.mp hw with hw | hw
      · exact paid_settle hbought (h t ht) w hw
      · rw [List.mem_singleton.mp hw]
        trivial

lemma paid_claimPurchase {transfer : Bool} {txn : Option Transaction}
    (h : ∀ t, txn = some t → truthfulTransaction c K t = true) :
    ∀ w ∈ (Apple.claimPurchase c s code transfer txn sandbox).1, w.Paid K := by
  intro w hw
  rcases @Apple.claimPurchase_writes c s code transfer txn sandbox with heq |
    ⟨t, days, transactionId, orig, expiresMs, ht, hbought, hends, ⟨-, heq⟩ | ⟨-, heq⟩⟩ <;>
      rw [heq] at hw
  · cases hw
  · rcases List.mem_cons.mp hw with rfl | hw
    · trivial
    · exact paid_settle hbought (h t ht) w hw
  · rcases List.mem_cons.mp hw with rfl | hw
    · trivial
    · have hsold := sold_of_truthful hbought (h t ht)
      rw [hends] at hsold
      exact paid_appleTransferTo
        (fun _ => Catalogue.covers_self (Catalogue.planAt_of_sold hsold)) w hw

lemma paid_notified {type : String} {txn : Option Transaction}
    (h : ∀ t, txn = some t → truthfulTransaction c K t = true) :
    ∀ w ∈ (Apple.notified c s type sandbox txn).1, w.Paid K := by
  intro w hw
  rcases @Apple.notified_writes c s type sandbox txn with heq | ⟨orig, status, heq⟩ |
    ⟨t, days, transactionId, orig, owner, ht, hbought, -, -, heq⟩ <;> rw [heq] at hw
  · cases hw
  · rw [List.mem_singleton.mp hw]
    trivial
  · rcases List.mem_append.mp hw with hw | hw
    · exact paid_settle hbought (h t ht) w hw
    · rw [List.mem_singleton.mp hw]
      trivial

lemma paid_appleRebind {grantRemaining : Bool}
    (h : grantRemaining = true → sizedRebind c K s orig = true) :
    ∀ w ∈ (Apple.adminRebind c s orig code grantRemaining).1, w.Paid K := by
  intro w hw
  rcases @Apple.adminRebind_writes c s code orig grantRemaining with heq |
    ⟨known, hknown, heq | ⟨hgrant, hactive, expiresMs, hends, heq⟩⟩ <;> rw [heq] at hw
  · cases hw
  · rw [List.mem_singleton.mp hw]
    trivial
  · have hsized := h hgrant
    rw [sizedRebind, hknown] at hsized
    refine paid_appleTransferTo (fun hprobe => ?_) w hw
    simpa [hactive, hends, hprobe] using hsized

end Apple

/-! ### The Google stretches -/

section Google

variable {code token : String} {sub : Purchase} {facts : PeriodFacts}

lemma planDays_periodFacts (h : Google.periodFacts c sub = .ok facts) :
    planDays facts.plan = facts.days := by
  rw [Google.periodFacts.eq_def] at h
  split at h
  · cases h
  · rename_i days hdays
    split at h
    · cases h
    · cases h
      rw [Google.daysForBasePlan] at hdays
      split at hdays
      · cases hdays
        rfl
      · split at hdays
        · cases hdays
          rfl
        · cases hdays

lemma sold_of_truthfulPurchase (hfacts : Google.periodFacts c sub = .ok facts)
    (h : truthfulPurchase c K token sub = true) :
    K.sold .google facts.orderId token facts.plan facts.expiryMs = true := by
  rwa [truthfulPurchase, hfacts] at h

lemma paid_settleBind {caller : GoogleCaller} {event : Option Event}
    (hfacts : Google.periodFacts c sub = .ok facts) (h : truthfulPurchase c K token sub = true) :
    Keeps (Write.Paid K) (Task.Paid K) (Google.settleBind caller event code token facts) := by
  have hbuys := Catalogue.Buys.of_sold (sold_of_truthfulPurchase hfacts h)
  rw [planDays_periodFacts hfacts] at hbuys
  refine .wait ?_ hbuys
  intro w hw
  rw [List.mem_singleton.mp hw]
  trivial

lemma paid_googleTransferTo {actor : TransferActor}
    (hfacts : Google.periodFacts c sub = .ok facts) (h : truthfulPurchase c K token sub = true) :
    ∀ w ∈ (Google.transferTo c s code token facts actor).1, w.Paid K := by
  have hsold := sold_of_truthfulPurchase hfacts h
  intro w hw
  rcases List.mem_append.mp hw with hw | hw
  · refine paid_grantRest (fun hpos => ?_) w hw
    dsimp only at hpos ⊢
    split
    · exact .probe (by decide) c.google.testGrantDays_mem.2
    · rename_i hprobe
      rw [if_neg hprobe] at hpos
      cases hends : facts.expiryMs with
      | none =>
          -- without a period end nothing is left
          rw [hends] at hpos
          exact absurd hpos (lt_irrefl 0)
      | some endMs =>
          rw [hends] at hsold
          exact .transfer (remainingDays_le_of_covers
            (Catalogue.covers_self (Catalogue.planAt_of_sold hsold)))
  · rw [List.mem_singleton.mp hw]
    trivial

lemma paid_verified {caller : GoogleCaller} (h : truthfulPurchase c K token sub = true) :
    Keeps (Write.Paid K) (Task.Paid K) (Google.verified c s caller code token sub) := by
  rcases @Google.verified_out c s code token sub caller with ⟨reply, heq⟩ |
    ⟨facts, -, -, hfacts, heq⟩ <;> rw [heq]
  · exact .refused reply
  · exact paid_settleBind hfacts h

lemma paid_claimed {transfer : Bool} (h : truthfulPurchase c K token sub = true) :
    Keeps (Write.Paid K) (Task.Paid K) (Google.claimed c s code token transfer sub) := by
  rcases @Google.claimed_out c s code token sub transfer with ⟨reply, heq⟩ |
    ⟨facts, hfacts, ⟨-, heq⟩ | ⟨-, reply, heq⟩⟩ <;> rw [heq]
  · exact .refused reply
  · exact paid_settleBind hfacts h
  · exact .wait (paid_googleTransferTo hfacts h) trivial

lemma paid_settleGrant {caller : GoogleCaller} {event : Option Event}
    (h : K.Buys .google facts.orderId facts.days) :
    Keeps (Write.Paid K) (Task.Paid K)
      (Google.settleGrant c s caller event code token facts) := by
  obtain ⟨pays, reply, heq, hpays⟩ := @Google.settleGrant_eq c s code token caller event facts
  rw [heq]
  refine .reply ?_ reply
  intro w hw
  rcases List.mem_append.mp hw with hw | hw
  · rw [hpays w hw]
    simp only [Write.Paid, newPayment, Google.settleEvent]
    split
    · exact .probe (by decide) c.google.testGrantDays_mem.2
    · exact .period h
  · obtain ⟨e, -, rfl⟩ := Option.map_eq_some_iff.mp (Option.mem_toList.mp hw)
    trivial

end Google

/-! ### The Stripe stretches -/

section Stripe

variable {code subId : String}

lemma paid_stripeTransferTo {known : Option SubscriptionRow} {sub : StripeSubscription}
    {actor : TransferActor} {grant : Bool} (h : truthfulSubscription c K subId sub = true)
    (hsized : grant = true → sizedMove c K s subId known sub = true) :
    ∀ w ∈ (Stripe.transferTo c s code subId sub (known.map SubscriptionRow.plan) actor
      grant).1, w.Paid K := by
  intro w hw
  rcases List.mem_append.mp hw with hw | hw
  · refine paid_grantRest (fun hpos => ?_) w hw
    dsimp only at hpos ⊢
    split at hpos
    · rename_i hsettles
      simp only [Bool.and_eq_true] at hsettles
      have hsized := hsized hsettles.1
      rw [if_pos (by simp [hsettles])]
      cases hends : Stripe.periodEndOf sub with
      | none =>
          rw [hends] at hpos
          exact absurd hpos (lt_irrefl 0)
      | some periodEnd =>
          refine .transfer (remainingDays_le_of_covers ?_)
          cases hprice : Stripe.planForPrice c sub.itemPrice with
          | none => simpa [sizedMove, hsettles.2, hprice, hends] using hsized
          | some plan =>
              refine Catalogue.covers_self ?_
              simpa [truthfulSubscription, hprice, hends] using h
    · exact absurd hpos (lt_irrefl 0)
  · rw [List.mem_singleton.mp hw]
    trivial

/-- A move of a subscription that may not move is refused. -/
lemma transferred_of_not_movable {sub : StripeSubscription}
    (h : Stripe.movable s code subId sub = false) :
    ∃ reply, Stripe.transferred c s code subId sub = ([], .reply reply) := by
  simp only [Stripe.transferred]
  split
  · exact ⟨_, rfl⟩
  · rename_i hactive
    obtain ⟨hstatus, hknown⟩ := not_or.mp hactive
    split
    · exact ⟨_, rfl⟩
    · rename_i howner
      split
      · exact ⟨_, rfl⟩
      · rename_i havailable
        exact absurd ⟨not_not.mp hstatus, hknown, howner, havailable⟩ (of_decide_eq_false h)

lemma paid_linesRead {invoice : Invoice} {binding : Option Binding} {listed : List InvoiceLine}
    (h : (Task.invoiceBound (.paid invoice) binding).truthful c K (.lines listed) = true)
    (hsized : (Task.invoiceBound (.paid invoice) binding).sized c K s (.lines listed) = true) :
    Keeps (Write.Paid K) (Task.Paid K) (Stripe.linesRead c invoice binding listed) := by
  rcases @Stripe.linesRead_out c invoice binding listed with ⟨reply, heq⟩ |
    ⟨bound, lines, plan, rfl, rfl, rfl, ⟨-, reply, heq⟩ | ⟨hlive, heq⟩⟩ <;> rw [heq]
  · exact .refused reply
  · refine .reply ?_ reply
    intro w hw
    rcases List.mem_pair.mp hw with rfl | rfl <;> trivial
  · refine .wait ?_ ?_
    · intro w hw
      rw [List.mem_singleton.mp hw]
      trivial
    · obtain ⟨p, hp, hplan⟩ := (Option.any_eq_true _ _).mp h
      obtain ⟨-, hplan⟩ := of_decide_eq_true hplan
      refine ⟨p, hp, ?_⟩
      cases hlines : Stripe.planForLines c (Stripe.invoiceLines invoice listed) with
      | none =>
          rw [Option.getD_none]
          have hlive : (invoice.livemode || c.stripe.testGrants) = true := by simpa using hlive
          simpa [Task.sized, hlines, hlive, hp] using hsized
      | some plan =>
          rw [hlines] at hplan
          rw [Option.getD_some, of_decide_eq_true hplan]

lemma paid_daysRead {invoice : Invoice} {bound : Binding} {lines : List InvoiceLine}
    {plan : Plan} {price : Price}
    (h : K.Buys .stripe (Stripe.invoiceKey invoice bound.subId) (planDays plan)) :
    Keeps (Write.Paid K) (Task.Paid K)
      (Stripe.daysRead c s invoice bound lines plan price) := by
  rcases @Stripe.daysRead_out c s invoice bound lines plan price with heq |
    ⟨days, reply, hdays, ⟨-, heq⟩ | ⟨-, heq⟩⟩ <;> rw [heq]
  · exact .throw
  · refine .reply ?_ reply
    intro w hw
    rw [List.mem_singleton.mp hw]
    trivial
  · refine .reply ?_ reply
    intro w hw
    rcases List.mem_append.mp hw with hw | hw
    · rw [(mem_recordGrant hw).1]
      obtain ⟨p, hp, hle⟩ := h
      exact .period ⟨p, hp, (Stripe.daysForInvoice_le hdays).trans hle⟩
    · split at hw
      · cases hw
      · rw [List.mem_singleton.mp hw]
        trivial

end Stripe

/-! ### The run -/

lemma paid_startRebind (rail : Rail) (x code : String) (grantRemaining : Bool)
    (h : sized c K s (.start (.rebind rail x code grantRemaining)) = true) :
    Keeps (Write.Paid K) (Task.Paid K) (startRebind c s rail x code grantRemaining) := by
  rw [startRebind.eq_def]
  split
  · exact .refused _
  · refine .withCode fun _ => ?_
    split
    · exact .refused _
    · split
      · exact .refused _
      · cases rail with
        | apple =>
            refine .reply (paid_appleRebind fun hgrant => ?_) _
            subst hgrant
            exact h
        | google =>
            dsimp only
            rcases @Google.adminRebind_out s code x grantRemaining with ⟨reply, heq⟩ |
              ⟨plan, reply, heq⟩ | heq <;> rw [heq]
            · exact .refused reply
            · refine .reply ?_ reply
              intro w hw
              rw [List.mem_singleton.mp hw]
              trivial
            · exact .waits trivial
        | stripe =>
            dsimp only
            rw [Stripe.adminRebind]
            split
            · exact .refused _
            · exact .waits trivial
        | voucher => exact .refused _

lemma paid_resolveInvoiceBinding {use : BindingUse} {invoice : Invoice} :
    Keeps (Write.Paid K) (Task.Paid K) ([], Stripe.resolveInvoiceBinding s use invoice) := by
  rcases @Stripe.resolveInvoiceBinding_out s use invoice with heq | ⟨subId, -, heq | heq⟩ <;>
    rw [heq] <;> exact .waits trivial

lemma paid_start (request : Request) (h : sized c K s (.start request) = true) :
    Keeps (Write.Paid K) (Task.Paid K) (start c s request) := by
  cases request with
  | appleVerify code => exact .withCode fun _ => .waits trivial
  | appleClaim code transfer => exact .withCode fun _ => .waits trivial
  | appleNotification => exact .waits trivial
  | googleVerify code token =>
      refine .withCode fun _ => ?_
      rcases @Google.verifyPurchase_out c code token .verify with ⟨reply, heq⟩ | ⟨-, heq⟩ <;>
        rw [heq]
      · exact .refused reply
      · exact .waits trivial
  | googleClaim code token transfer => exact .withCode fun _ => .waits trivial
  | googleRtdn message =>
      rcases @Google.handleRtdn_out c s message with ⟨reply, heq⟩ | ⟨token, reply, heq⟩ |
        ⟨type, token, -, -, heq⟩ <;> rw [start, heq]
      · exact .refused reply
      · refine .reply ?_ reply
        intro w hw
        rw [List.mem_singleton.mp hw]
        trivial
      · exact .waits trivial
  | stripeTransfer code => exact .withCode fun _ => .waits trivial
  | stripeWebhook event =>
      cases event with
      | checkoutCompleted session =>
          refine .reply ?_ _
          intro w hw
          rcases @Stripe.onCheckoutCompleted_writes s session with heq |
            ⟨code, subId, -, -, heq⟩ <;> rw [heq] at hw
          · cases hw
          · rcases List.mem_pair.mp hw with rfl | rfl <;> trivial
      | invoicePaid invoice =>
          rw [start, Stripe.handleWebhook, Stripe.onInvoicePaid]
          split
          · exact .refused _
          · exact paid_resolveInvoiceBinding
      | chargeRefunded invoice paymentIntent =>
          rw [start, Stripe.handleWebhook, Stripe.onChargeRefunded]
          split
          · exact .waits trivial
          · split
            · exact .waits trivial
            · exact .refused _
      | subscriptionDeleted subId =>
          refine .reply ?_ _
          intro w hw
          simp only [Stripe.onSubscriptionDeleted] at hw
          split at hw
          · rw [List.mem_singleton.mp hw]
            trivial
          · cases hw
      | other type => exact .refused _
  | rebind rail x code grantRemaining => exact paid_startRebind rail x code grantRemaining h

/-- The transaction of an answer agrees with the catalogue. -/
lemma truthful_transaction {task : Task} {txn : Option Transaction} {sandbox : Bool}
    (h : task.truthful c K (.transaction txn sandbox) = true) :
    ∀ t, txn = some t → truthfulTransaction c K t = true := by
  rintro t rfl
  rw [Task.truthful.eq_def] at h
  exact h

lemma paid_resume {task : Task} (htask : task.Paid K) {answer : Answer}
    {out : List Write × Next} (hout : resume c s task answer = some out)
    (h : task.truthful c K answer = true) (hsized : task.sized c K s answer = true) :
    Keeps (Write.Paid K) (Task.Paid K) out := by
  rw [resume.eq_def] at hout
  split at hout <;> cases hout
  · exact .reply (paid_verifyPurchase (truthful_transaction h)) _
  · exact .reply (paid_claimPurchase (truthful_transaction h)) _
  · rename_i payload sandbox
    rw [Apple.handleNotification.eq_def]
    split
    · exact .refused _
    · dsimp only
      split
      · exact .waits trivial
      · exact .refused _
  · exact .reply (paid_notified (truthful_transaction h)) _
  · exact paid_verified h
  · exact paid_claimed h
  · rename_i token code sub
    rcases @Google.rebound_out c s code token sub with ⟨reply, heq⟩ |
      ⟨facts, reply, hfacts, heq⟩ <;> rw [heq]
    · exact .refused reply
    · exact .reply (paid_googleTransferTo hfacts h) reply
  · rename_i type token known sub
    rcases @Google.notified_out c token sub type known with ⟨reply, heq⟩ |
      ⟨code, -, -, heq⟩ <;> rw [heq]
    · exact .refused reply
    · exact .waits trivial
  · exact paid_settleGrant htask
  · exact paid_settleGrant htask
  · exact .refused _
  · rename_i code subscription
    rw [Stripe.sessionRead.eq_def]
    split
    · exact .refused _
    · exact .waits trivial
  · rename_i code subId sub
    cases hmovable : Stripe.movable s code subId sub with
    | false =>
        obtain ⟨reply, heq⟩ := @transferred_of_not_movable c s code subId sub hmovable
        rw [heq]
        exact .refused reply
    | true =>
        have hsized : sizedMove c K s subId (s.subs.get .stripe subId) sub = true := by
          simpa [Task.sized, hmovable] using hsized
        rcases @Stripe.transferred_out c s code subId sub with ⟨reply, heq⟩ |
          ⟨-, reply, heq⟩ <;> rw [heq]
        · exact .refused reply
        · exact .wait (paid_stripeTransferTo h fun _ => hsized) trivial
  · rename_i code subId grantRemaining known sub
    rw [Stripe.rebound.eq_def]
    split
    · exact .refused _
    · rename_i hmoves
      have hknown : grantRemaining = true → sizedMove c K s subId (some known) sub = true := by
        rintro rfl
        obtain ⟨hactive, hrefunded⟩ := not_or.mp fun hrefused => hmoves ⟨rfl, hrefused⟩
        simpa [Task.sized, not_not.mp hactive, hrefunded] using hsized
      exact .wait (@paid_stripeTransferTo c K s code subId (some known) sub .admin grantRemaining h
        hknown) trivial
  · exact .waits trivial
  · exact paid_linesRead h hsized
  · rename_i binding
    rw [Stripe.refundBound.eq_def]
    split
    · exact .refused _
    · refine .wait ?_ trivial
      intro w hw
      rw [List.mem_singleton.mp hw]
      trivial
  · exact paid_daysRead htask
  · rename_i id
    rw [Stripe.refundInvoiceIdRead]
    split
    · exact .waits trivial
    · exact .refused _
  · exact paid_resolveInvoiceBinding
  · rename_i task _
    rw [caught.eq_def]
    split <;> first
      | exact .refused _
      | exact .throw

/-- All that a truthful and sized stretch pays may be granted. -/
lemma Stretch.paid {s₀ : Server} {a : Action} {ws : List Write} {next : Next}
    (h : ∀ task ∈ s.running, task.Paid K) (htruthful : truthful c K s a = true)
    (hsized : sized c K s a = true) (hs : Stretch c s s₀ a ws next) :
    Keeps (Write.Paid K) (Task.Paid K) (ws, next) := by
  cases hs with
  | start request => exact paid_start request hsized
  | @resume i answer task out htask hout =>
      rw [truthful, htask, Option.all_some] at htruthful
      rw [sized, htask, Option.all_some] at hsized
      exact paid_resume (h task (List.mem_of_getElem? htask)) hout htruthful hsized

lemma Sound.init (height nowMs : Int) : Sound K (Server.init height nowMs) where
  nodup := List.nodup_nil
  justified _ h := by cases h
  tasks _ h := by cases h

/-- **A truthful and sized step grants what may be granted.** -/
theorem step_sound {a : Action} (h : Sound K s) (htruthful : truthful c K s a = true)
    (hsized : sized c K s a = true) (hstep : step c s a = some s') : Sound K s' where
  nodup := (grown_step hstep).nodup h.nodup
  justified g hg hrail := by
    rcases (grown_step hstep).new g hg with hg | hvoucher | ⟨s₀, ws, next, hs, p, hp, rfl⟩
    · exact h.justified g hg hrail
    · exact absurd hvoucher hrail
    · exact (hs.paid h.tasks htruthful hsized).1 _ hp
  tasks task htask := by
    rcases step_cases hstep with ⟨s₀, ws, next, hs, rfl⟩ | ⟨b, workers, -, -, rfl⟩ |
      ⟨nowMs, -, rfl⟩ | ⟨workers, -, rfl⟩
    · rcases Server.mem_running_finish htask with hmem | hwait
      · obtain ⟨tasks, htasks, rfl⟩ := hs.eq
        exact h.tasks task (htasks hmem)
      · exact (hs.paid h.tasks htruthful hsized).2 task hwait
    · exact h.tasks task htask
    · exact h.tasks task htask
    · cases htask

/-! ### The grants of a period -/

lemma map_fst_grants (s : Server) : s.grants.map Prod.fst = s.payments.map PaymentRow.event := by
  rw [Server.grants, Db.grants, List.map_map]
  rfl

/-- No event has two rows. -/
lemma Sound.length_granted (h : Sound K s) (rail : Rail) (eventKey : String) :
    (s.granted rail eventKey).length ≤ 1 := by
  have hnodup := h.nodup
  rw [map_fst_grants] at hnodup
  calc (s.granted rail eventKey).length
      = s.payments.countP fun r => r.event = (rail, eventKey) := List.countP_eq_length_filter.symm
    _ = (s.payments.map PaymentRow.event).count (rail, eventKey) := by
        rw [List.count, List.countP_map]
        exact List.countP_congr fun r _ => by simp
    _ ≤ 1 := List.nodup_iff_count_le_one.mp hnodup _

lemma Sound.justified_row (h : Sound K s) {r : PaymentRow} (hr : r ∈ s.payments)
    (hrail : r.rail ≠ .voucher) : Justified K r.rail r.eventKey r.days :=
  h.justified r.grant (List.mem_map_of_mem hr) hrail

/-- What an event was granted is bounded by what its one grant may be. -/
lemma Sound.grantedDays_le (h : Sound K s) {rail : Rail} (hrail : rail ≠ .voucher)
    {eventKey : String} {bound : Int} (hbound : 0 ≤ bound)
    (hle : ∀ days, Justified K rail eventKey days → days ≤ bound) :
    s.grantedDays rail eventKey ≤ bound := by
  have hlength := h.length_granted rail eventKey
  have hrow : ∀ r ∈ s.granted rail eventKey, r.days ≤ bound := by
    intro r hr
    obtain ⟨hmem, hevent⟩ := List.mem_filter.mp hr
    obtain ⟨rfl, rfl⟩ := Prod.mk.inj (of_decide_eq_true hevent)
    exact hle _ (h.justified_row hmem hrail)
  rw [Server.grantedDays]
  cases hgranted : s.granted rail eventKey with
  | nil => exact hbound
  | cons r rest =>
      rw [hgranted, List.length_cons] at hlength
      obtain rfl : rest = [] := List.eq_nil_of_length_eq_zero (by omega)
      simpa [hgranted] using hrow r

/-- The grant of a period by its id is worth no more than its plan. -/
lemma Justified.days_le {rail : Rail} {id : String} {p : Period} {days : Int}
    (h : Justified K rail id days) (hp : K.period rail id = some p) : days ≤ planDays p.plan := by
  have hpos := planDays_pos p.plan
  have hne := K.ne_transferEventKey hp
  generalize hkey : id = key at h
  cases h with
  | period hbuys =>
      obtain ⟨p', hp', hle⟩ := hbuys
      obtain rfl : p = p' := Option.some_inj.mp (hp.symm.trans (hkey ▸ hp'))
      exact hle
  | transfer hle => exact absurd hkey (hne _ _)
  | probe htag hle => omega

/-- So is the grant by its transfer. -/
lemma Justified.transferDays_le {rail : Rail} {id : String} {p : Period} {days : Int}
    (h : Justified K rail (transferEventKey p.subscription p.endMs) days)
    (hp : K.period rail id = some p) : days ≤ planDays p.plan := by
  have hpos := planDays_pos p.plan
  generalize hkey : transferEventKey p.subscription p.endMs = key at h
  cases h with
  | period hbuys =>
      obtain ⟨p', hp', -⟩ := hbuys
      exact absurd hkey.symm (K.ne_transferEventKey hp' _ _)
  | transfer hle =>
      obtain ⟨rfl, rfl⟩ := transferEventKey_inj hkey
      rwa [K.planAt_eq hp] at hle
  | probe htag hle => omega

lemma Sound.twoGrants (h : Sound K s) : TwoGrants K s where
  own rail id p _ := h.length_granted rail id
  transfer rail id p _ := h.length_granted rail _
  days rail id p hp := by
    have hpos := planDays_pos p.plan
    have hrail : rail ≠ .voucher := by
      rintro rfl
      rw [K.voucher] at hp
      cases hp
    have hown := h.grantedDays_le hrail (by omega : (0 : Int) ≤ planDays p.plan)
      fun days hdays => hdays.days_le hp
    have htransfer := h.grantedDays_le hrail (by omega : (0 : Int) ≤ planDays p.plan)
      fun days hdays => hdays.transferDays_le hp
    omega
  others r hr hrail := h.justified_row hr hrail

/-- **In every run whose steps are truthful and sized, a period has at most two
grants, of no more than twice its plan.** -/
theorem two_grants (c : RailsConfig) (K : Catalogue) (height nowMs : Int) {as : List Action}
    {s : Server} (h : exec (step c) (Server.init height nowMs) as = some s)
    (hG : Along (step c) (fun s a => truthful c K s a = true ∧ sized c K s a = true)
      (Server.init height nowMs) as) : TwoGrants K s :=
  (exec_invariant (fun _ _ _ hsound ⟨htruthful, hsized⟩ hstep =>
    step_sound hsound htruthful hsized hstep) (Sound.init height nowMs) hG h).twoGrants

/-! ### An old plan for a new period -/

/-- The code that a subscription leaves. -/
def oldDevice : String := "olddeviceolddeviceolddevice"

/-- The code that it moves to. -/
def newDevice : String := "newdevicenewdevicenewdevice"

/-- A year that ends at day 365. -/
def annualTransaction : Transaction where
  productId := some "cvpn.premium.annual"
  transactionId := some "1001"
  originalTransactionId := some "1000"
  appAccountToken := some oldDevice
  expiresDate := some (365 * dayMs)
  purchaseDate := some 0
  transactionReason := some .purchase
  revocationDate := none
  isUpgraded := none

/-- Its renewal for a month of 31 days. -/
def monthlyRenewal : Transaction :=
  { annualTransaction with
    productId := some "cvpn.premium.monthly"
    transactionId := some "1002"
    appAccountToken := none
    expiresDate := some (396 * dayMs)
    purchaseDate := some (365 * dayMs)
    transactionReason := some .renewal }

/-- The two periods. -/
def downgraded : Catalogue where
  period rail id :=
    if rail = .apple ∧ id = "1001" then some ⟨"1000", .annual, 365 * dayMs⟩
    else if rail = .apple ∧ id = "1002" then some ⟨"1000", .monthly, 396 * dayMs⟩
    else none
  planAt _ _ endMs := if endMs = 365 * dayMs then .annual else .monthly
  planAt_eq {rail id p} h := by
    split at h
    · cases h
      rfl
    · split at h
      · cases h
        rfl
      · cases h
  ne_transferEventKey {rail id p} h x endMs heq := by
    have hlist := congrArg String.toList heq
    split at h
    · rename_i hid
      simp [hid.2, transferEventKey] at hlist
    · split at h
      · rename_i hid
        simp [hid.2, transferEventKey] at hlist
      · cases h
  voucher id := by simp

/-- The transaction is verified for the old device. -/
def verifyActions (t : Transaction) : List Action :=
  [.start (.appleVerify oldDevice), .resume 0 (.transaction (some t) false)]

/-- A year, and then a month. -/
def downgradeActions : List Action :=
  verifyActions annualTransaction ++
    [.tick (365 * dayMs), .start .appleNotification,
      .resume 0 (.notification (some ⟨some "DID_RENEW", true⟩) false),
      .resume 0 (.transaction (some monthlyRenewal) false)]

/-- Support moves the subscription with the rest of its period. -/
def supportMove : Action := .start (.rebind .apple "1000" newDevice true)

/-- The move grants the month by its own plan. -/
theorem two_grants_supportMove :
    ∃ s, exec (step testConfig) (Server.init 100 0) (downgradeActions ++ [supportMove]) = some s ∧
      s.grantedDays .apple (transferEventKey "1000" (396 * dayMs)) = 30 ∧
      TwoGrants downgraded s := by
  have hrun : (exec (step testConfig) (Server.init 100 0)
      (downgradeActions ++ [supportMove])).any fun s =>
        s.grantedDays .apple (transferEventKey "1000" (396 * dayMs)) = 30 := by
    decide +kernel
  have hG : Along (step testConfig)
      (fun s a => truthful testConfig downgraded s a = true ∧
        sized testConfig downgraded s a = true)
      (Server.init 100 0) (downgradeActions ++ [supportMove]) := by decide +kernel
  obtain ⟨s, hs, hdays⟩ := (Option.any_eq_true _ _).mp hrun
  exact ⟨s, hs, of_decide_eq_true hdays, two_grants testConfig downgraded 100 0 hs hG⟩

/-- **The first transaction is verified again, and the row names the annual
plan when support moves the subscription: the month is granted 61 days.** -/
theorem not_two_grants :
    ∃ s, exec (step testConfig) (Server.init 100 0)
        (downgradeActions ++ verifyActions annualTransaction ++ [supportMove]) = some s ∧
      Along (step testConfig) (fun s a => truthful testConfig downgraded s a = true)
        (Server.init 100 0)
        (downgradeActions ++ verifyActions annualTransaction ++ [supportMove]) ∧
      s.grantedDays .apple "1002" +
        s.grantedDays .apple (transferEventKey "1000" (396 * dayMs)) = 61 ∧
      ¬ TwoGrants downgraded s := by
  have hrun : (exec (step testConfig) (Server.init 100 0)
      (downgradeActions ++ verifyActions annualTransaction ++ [supportMove])).any fun s =>
        s.grantedDays .apple "1002" +
          s.grantedDays .apple (transferEventKey "1000" (396 * dayMs)) = 61 := by
    decide +kernel
  obtain ⟨s, hs, hdays⟩ := (Option.any_eq_true _ _).mp hrun
  have hdays : s.grantedDays .apple "1002" +
      s.grantedDays .apple (transferEventKey "1000" (396 * dayMs)) = 61 := of_decide_eq_true hdays
  refine ⟨s, hs, by decide +kernel, hdays, fun h => ?_⟩
  have hle := h.days .apple "1002" ⟨"1000", .monthly, 396 * dayMs⟩ rfl
  dsimp only [planDays] at hle
  omega

end CumulusVpn.Bridge.Rails
