/-
The payment codes in the subscription tables.

* `CodesOk`: no row has an empty code, and the codes of the Apple and Google
  rails and of the token map are valid;
* `CodesOk.write`: a write of such a code keeps it so;
* `Stretch.codesOk`: the stretches of all handlers write such codes;
* `step_codesOk`: **the codes are so in every reachable state**.
-/
import CumulusVpn.Bridge.Rails.Step

namespace CumulusVpn.Bridge.Rails

open StepSystem

/-! ### The invariant -/

/-- What a write may bind a subscription to. -/
def Write.CodeOk (c : RailsConfig) : Write → Prop
  | .upsert rail _ code _ _ => code ≠ "" ∧ (rail ≠ .stripe → c.isValidPaymentCode code = true)
  | .rebind _ _ code _ _ _ => c.isValidPaymentCode code = true
  | .mapAppleToken _ code => c.isValidPaymentCode code = true
  | _ => True

/-- What a waiting handler will bind. -/
def Task.CodeOk (c : RailsConfig) : Task → Prop
  | .appleVerify code => c.isValidPaymentCode code = true
  | .appleClaim code _ => c.isValidPaymentCode code = true
  | .googleVerify _ code _ => c.isValidPaymentCode code = true
  | .googleClaim code _ _ => c.isValidPaymentCode code = true
  | .googleRebind _ code => c.isValidPaymentCode code = true
  | .stripeSession code => c.isValidPaymentCode code = true
  | .stripeTransfer code _ => c.isValidPaymentCode code = true
  | .stripeRebind code _ _ _ => c.isValidPaymentCode code = true
  | .invoiceBound _ binding => ∀ bound ∈ binding, bound.code ≠ ""
  | _ => True

/-- Every code in the tables is one that can be paid for. -/
structure TablesOk (c : RailsConfig) (t : Subscriptions) : Prop where
  rows : ∀ rail x row, t.get rail x = some row →
    row.paymentCode ≠ "" ∧ (rail ≠ .stripe → c.isValidPaymentCode row.paymentCode = true)
  tokens : ∀ token code, t.appleTokenMap token = some code → c.isValidPaymentCode code = true

/-- So is every code that a handler has under way. -/
structure CodesOk (c : RailsConfig) (s : Server) : Prop where
  tables : TablesOk c s.subs
  tasks : ∀ task ∈ s.running, task.CodeOk c

variable {c : RailsConfig}

lemma TablesOk.empty : TablesOk c .empty where
  rows _ _ _ h := by cases h
  tokens _ _ h := by cases h

/-! ### The writes -/

/-- A status or a period keeps the codes. -/
lemma TablesOk.update {t : Subscriptions} (h : TablesOk c t) (rail : Rail) (x : String)
    {f : SubscriptionRow → SubscriptionRow} (hf : ∀ row, (f row).paymentCode = row.paymentCode) :
    TablesOk c (t.update rail x f) where
  rows r y row hrow := by
    rw [Subscriptions.get_update] at hrow
    split at hrow
    · obtain ⟨row₀, hrow₀, rfl⟩ := Option.map_eq_some_iff.mp hrow
      rw [hf]
      exact h.rows r y row₀ hrow₀
    · exact h.rows r y row hrow
  tokens := h.tokens

lemma TablesOk.insert {t : Subscriptions} (h : TablesOk c t) {rail : Rail} {x code : String}
    (hcode : code ≠ "" ∧ (rail ≠ .stripe → c.isValidPaymentCode code = true))
    {f : Option SubscriptionRow → SubscriptionRow} (hf : ∀ row, (f row).paymentCode = code) :
    TablesOk c (t.insert rail x f) where
  rows r y row hrow := by
    rw [Subscriptions.get_insert] at hrow
    split at hrow
    · rename_i hkey
      cases hkey
      cases hrow
      rw [hf]
      exact hcode
    · exact h.rows r y row hrow
  tokens := h.tokens

lemma TablesOk.mapAppleToken {t : Subscriptions} (h : TablesOk c t) {code : String}
    (hcode : c.isValidPaymentCode code = true) (token : String) :
    TablesOk c (t.mapAppleToken token code) where
  rows := h.rows
  tokens token' code' hcode' := by
    simp only [Subscriptions.mapAppleToken, Function.update_apply] at hcode'
    split at hcode'
    · cases hcode'
      exact hcode
    · exact h.tokens token' code' hcode'

lemma TablesOk.write {s : Server} {w : Write} (h : TablesOk c s.subs) (hw : w.CodeOk c) :
    TablesOk c (s.write w).subs := by
  cases w with
  | upsert rail x code plan customer => exact h.insert hw fun row => by simp
  | rebind rail x code plan actor days =>
      have hmove : TablesOk c (s.subs.insert rail x (.rebound code plan s.nowS)) :=
        h.insert ⟨c.ne_empty hw, fun _ => hw⟩ fun row => by simp
      exact ⟨hmove.rows, hmove.tokens⟩
  | setStatus rail x status => exact h.update rail x fun row => rfl
  | noteAppleExpiry x e sandbox => exact h.update .apple x fun row => by simp
  | mapAppleToken token code => exact h.mapAppleToken hw token
  | payment p => exact h
  | processed e => exact h

lemma TablesOk.writeAll {s : Server} {ws : List Write} (h : TablesOk c s.subs)
    (hws : ∀ w ∈ ws, w.CodeOk c) : TablesOk c (s.writeAll ws).subs := by
  induction ws generalizing s with
  | nil => exact h
  | cons w ws ih =>
      exact ih (h.write (hws w List.mem_cons_self)) fun v hv => hws v (List.mem_cons_of_mem _ hv)

/-! ### The stretches -/

lemma codeOk_grantRest {s : Server} {ev : GrantEvent} {w : Write}
    (h : w ∈ (grantRest c s ev).1) : w.CodeOk c := by
  rw [(mem_grantRest h).1]
  trivial

lemma codeOk_recordGrant {s : Server} {ev : GrantEvent} {w : Write}
    (h : w ∈ (recordGrant c s ev).1) : w.CodeOk c := by
  rw [(mem_recordGrant h).1]
  trivial

section Apple

variable {s : Server} {code : String}

lemma codeOk_settle {transactionId orig : String} {expiresMs : Option Int} {sandbox : Bool}
    {days : Int} (hcode : c.isValidPaymentCode code = true) :
    ∀ w ∈ (Apple.settle c s code transactionId orig expiresMs sandbox days).1, w.CodeOk c := by
  obtain ⟨rest, heq, hrest⟩ := @Apple.settle_eq c s code orig transactionId expiresMs sandbox days
  intro w hw
  rw [heq] at hw
  rcases List.mem_cons.mp hw with rfl | hw
  · exact ⟨c.ne_empty hcode, fun _ => hcode⟩
  · rcases hrest w hw with ⟨e, -, rfl⟩ | rfl <;> trivial

lemma codeOk_appleTransferTo {orig : String} {plan : Plan} {expiresMs : Int} {sandbox : Bool}
    {actor : TransferActor} (hcode : c.isValidPaymentCode code = true) :
    ∀ w ∈ (Apple.transferTo c s code orig plan expiresMs sandbox actor).1, w.CodeOk c := by
  intro w hw
  rcases List.mem_append.mp hw with hw | hw
  · exact codeOk_grantRest hw
  · rcases List.mem_pair.mp hw with rfl | rfl
    · exact hcode
    · trivial

/-- The owner of a transaction is its purchaser or has its subscription. -/
lemma valid_ownerOf {txn : Transaction} {purchaser : Option String} (h : TablesOk c s.subs)
    (hp : ∀ code ∈ purchaser, c.isValidPaymentCode code = true) :
    ∀ code ∈ Apple.ownerOf s txn purchaser, c.isValidPaymentCode code = true := by
  intro code hcode
  have hrow : ∀ row, (truthy txn.originalTransactionId).bind (s.subs.get .apple) = some row →
      c.isValidPaymentCode row.paymentCode = true := by
    intro row hrow
    obtain ⟨x, -, hx⟩ := Option.bind_eq_some_iff.mp hrow
    exact (h.rows .apple x row hx).2 (by decide)
  rw [Apple.ownerOf] at hcode
  split at hcode
  · exact hp code hcode
  · rename_i known hknown
    split at hcode
    · split at hcode
      · cases hcode
        exact hrow known hknown
      · exact hp code hcode
    · cases purchaser with
      | none =>
          cases hcode
          exact hrow known hknown
      | some purchaser =>
          cases hcode
          exact hp _ rfl

lemma codeOk_verifyPurchase {txn : Option Transaction} {sandbox : Bool}
    (h : TablesOk c s.subs) (hcode : c.isValidPaymentCode code = true) :
    ∀ w ∈ (Apple.verifyPurchase c s code txn sandbox).1, w.CodeOk c := by
  intro w hw
  rcases @Apple.verifyPurchase_writes c s code txn sandbox with heq |
    ⟨t, days, transactionId, orig, -, -, -, heq⟩ <;> rw [heq] at hw
  · cases hw
  · have howner : c.isValidPaymentCode ((Apple.ownerOf s t (some code)).getD code) = true := by
      cases howner : Apple.ownerOf s t (some code) with
      | none => exact hcode
      | some owner => exact valid_ownerOf h (by simpa using hcode) owner howner
    rcases List.mem_cons.mp hw with rfl | hw
    · exact hcode
    · rcases List.mem_append.mp hw with hw | hw
      · exact codeOk_settle howner w hw
      · rw [List.mem_singleton.mp hw]
        trivial

lemma codeOk_claimPurchase {transfer : Bool} {txn : Option Transaction} {sandbox : Bool}
    (hcode : c.isValidPaymentCode code = true) :
    ∀ w ∈ (Apple.claimPurchase c s code transfer txn sandbox).1, w.CodeOk c := by
  intro w hw
  rcases @Apple.claimPurchase_writes c s code transfer txn sandbox with heq |
    ⟨t, days, transactionId, orig, expiresMs, -, -, -, ⟨-, heq⟩ | ⟨-, heq⟩⟩ <;> rw [heq] at hw
  · cases hw
  · rcases List.mem_cons.mp hw with rfl | hw
    · exact hcode
    · exact codeOk_settle hcode w hw
  · rcases List.mem_cons.mp hw with rfl | hw
    · exact hcode
    · exact codeOk_appleTransferTo hcode w hw

lemma codeOk_notified {type : String} {sandbox : Bool} {txn : Option Transaction}
    (h : TablesOk c s.subs) :
    ∀ w ∈ (Apple.notified c s type sandbox txn).1, w.CodeOk c := by
  intro w hw
  rcases @Apple.notified_writes c s type sandbox txn with heq | ⟨orig, status, heq⟩ |
    ⟨t, days, transactionId, orig, owner, -, -, -, howner, heq⟩ <;> rw [heq] at hw
  · cases hw
  · rw [List.mem_singleton.mp hw]
    trivial
  · have hvalid : c.isValidPaymentCode owner = true := by
      refine valid_ownerOf h ?_ owner (Option.filter_eq_some_iff.mp howner).1
      intro purchaser hp
      obtain ⟨token, -, htoken⟩ := Option.bind_eq_some_iff.mp hp
      exact h.tokens _ _ htoken
    rcases List.mem_append.mp hw with hw | hw
    · exact codeOk_settle hvalid w hw
    · rw [List.mem_singleton.mp hw]
      trivial

lemma codeOk_appleRebind {orig : String} {grantRemaining : Bool}
    (hcode : c.isValidPaymentCode code = true) :
    ∀ w ∈ (Apple.adminRebind c s orig code grantRemaining).1, w.CodeOk c := by
  intro w hw
  rcases @Apple.adminRebind_writes c s code orig grantRemaining with heq |
    ⟨known, -, heq | ⟨-, -, expiresMs, -, heq⟩⟩ <;> rw [heq] at hw
  · cases hw
  · rw [List.mem_singleton.mp hw]
    exact hcode
  · exact codeOk_appleTransferTo hcode w hw

end Apple

section Google

variable {s : Server} {code purchaseToken : String} {sub : Purchase}

lemma codeOk_googleTransferTo {facts : PeriodFacts} {actor : TransferActor}
    (hcode : c.isValidPaymentCode code = true) :
    ∀ w ∈ (Google.transferTo c s code purchaseToken facts actor).1, w.CodeOk c := by
  intro w hw
  rcases List.mem_append.mp hw with hw | hw
  · exact codeOk_grantRest hw
  · rw [List.mem_singleton.mp hw]
    exact hcode

lemma codeOk_settleBind {caller : GoogleCaller} {event : Option Event} {facts : PeriodFacts}
    (hcode : c.isValidPaymentCode code = true) :
    Keeps (Write.CodeOk c) (Task.CodeOk c)
      (Google.settleBind caller event code purchaseToken facts) := by
  refine .wait ?_ trivial
  intro w hw
  rw [List.mem_singleton.mp hw]
  exact ⟨c.ne_empty hcode, fun _ => hcode⟩

/-- A subscription that has been moved has a row. -/
lemma valid_movedOwner (h : TablesOk c s.subs) (hcode : c.isValidPaymentCode code = true) :
    c.isValidPaymentCode ((Google.movedOwner s purchaseToken).getD code) = true := by
  cases howner : Google.movedOwner s purchaseToken with
  | none => exact hcode
  | some owner =>
      obtain ⟨row, hrow, hmoved⟩ := Option.bind_eq_some_iff.mp howner
      obtain ⟨_, -, rfl⟩ := Option.map_eq_some_iff.mp hmoved
      exact (h.rows .google purchaseToken row hrow).2 (by decide)

lemma codeOk_verified {caller : GoogleCaller} (h : TablesOk c s.subs)
    (hcode : c.isValidPaymentCode code = true) :
    Keeps (Write.CodeOk c) (Task.CodeOk c)
      (Google.verified c s caller code purchaseToken sub) := by
  rcases @Google.verified_out c s code purchaseToken sub caller with ⟨reply, heq⟩ |
    ⟨facts, -, -, -, heq⟩ <;> rw [heq]
  · exact .refused reply
  · exact codeOk_settleBind (valid_movedOwner h hcode)

lemma codeOk_claimed {transfer : Bool} (hcode : c.isValidPaymentCode code = true) :
    Keeps (Write.CodeOk c) (Task.CodeOk c)
      (Google.claimed c s code purchaseToken transfer sub) := by
  rcases @Google.claimed_out c s code purchaseToken sub transfer with ⟨reply, heq⟩ |
    ⟨facts, -, ⟨-, heq⟩ | ⟨-, reply, heq⟩⟩ <;> rw [heq]
  · exact .refused reply
  · exact codeOk_settleBind hcode
  · exact .wait (codeOk_googleTransferTo hcode) trivial

lemma codeOk_settleGrant {caller : GoogleCaller} {event : Option Event} {facts : PeriodFacts} :
    Keeps (Write.CodeOk c) (Task.CodeOk c)
      (Google.settleGrant c s caller event code purchaseToken facts) := by
  obtain ⟨pays, reply, heq, hpays⟩ :=
    @Google.settleGrant_eq c s code purchaseToken caller event facts
  rw [heq]
  refine .reply ?_ reply
  intro w hw
  rcases List.mem_append.mp hw with hw | hw
  · rw [hpays w hw]
    trivial
  · obtain ⟨e, -, rfl⟩ := Option.map_eq_some_iff.mp (Option.mem_toList.mp hw)
    trivial

end Google

section Stripe

variable {s : Server} {code subId : String}

lemma codeOk_stripeTransferTo {sub : StripeSubscription} {knownPlan : Option Plan}
    {actor : TransferActor} {grant : Bool} (hcode : c.isValidPaymentCode code = true) :
    ∀ w ∈ (Stripe.transferTo c s code subId sub knownPlan actor grant).1, w.CodeOk c := by
  intro w hw
  rcases List.mem_append.mp hw with hw | hw
  · exact codeOk_grantRest hw
  · rw [List.mem_singleton.mp hw]
    exact hcode

lemma codeOk_upsertStripe {plan : Plan} {customer : Option String} (hcode : code ≠ "") :
    (Write.upsert .stripe subId code plan customer).CodeOk c :=
  ⟨hcode, fun h => absurd rfl h⟩

lemma codeOk_onCheckoutCompleted {session : Session} (h : TablesOk c s.subs) :
    ∀ w ∈ (Stripe.onCheckoutCompleted s session).1, w.CodeOk c := by
  intro w hw
  rcases @Stripe.onCheckoutCompleted_writes s session with heq |
    ⟨code, subId, hcode, -, heq⟩ <;> rw [heq] at hw
  · cases hw
  · rcases List.mem_pair.mp hw with rfl | rfl
    · refine codeOk_upsertStripe ?_
      cases hrow : s.subs.get .stripe subId with
      | none => simpa using (Option.filter_eq_some_iff.mp hcode).2
      | some row => exact (h.rows .stripe subId row hrow).1
    · trivial

lemma codeOk_bindingOf {metadata : Option Metadata} :
    ∀ bound ∈ Stripe.bindingOf s subId metadata, bound.code ≠ "" :=
  fun _ hbound => (Stripe.bindingOf_eq_some hbound).2.1

lemma codeOk_resolveInvoiceBinding {use : BindingUse} {invoice : Invoice} :
    Keeps (Write.CodeOk c) (Task.CodeOk c)
      ([], Stripe.resolveInvoiceBinding s use invoice) := by
  rcases @Stripe.resolveInvoiceBinding_out s use invoice with heq | ⟨subId, -, heq | heq⟩ <;>
    rw [heq]
  · exact .waits fun _ hbound => by cases hbound
  · exact .waits trivial
  · exact .waits codeOk_bindingOf

lemma codeOk_linesRead {invoice : Invoice} {binding : Option Binding} {listed : List InvoiceLine}
    (h : ∀ bound ∈ binding, bound.code ≠ "") :
    Keeps (Write.CodeOk c) (Task.CodeOk c) (Stripe.linesRead c invoice binding listed) := by
  rcases @Stripe.linesRead_out c invoice binding listed with ⟨reply, heq⟩ |
    ⟨bound, lines, plan, hbound, -, -, ⟨-, reply, heq⟩ | ⟨-, heq⟩⟩ <;> rw [heq]
  · exact .refused reply
  · refine .reply ?_ reply
    intro w hw
    rcases List.mem_pair.mp hw with rfl | rfl
    · exact codeOk_upsertStripe (h bound hbound)
    · trivial
  · refine .wait ?_ trivial
    intro w hw
    rw [List.mem_singleton.mp hw]
    exact codeOk_upsertStripe (h bound hbound)

lemma codeOk_daysRead {invoice : Invoice} {bound : Binding} {lines : List InvoiceLine}
    {plan : Plan} {price : Price} :
    Keeps (Write.CodeOk c) (Task.CodeOk c)
      (Stripe.daysRead c s invoice bound lines plan price) := by
  rcases @Stripe.daysRead_out c s invoice bound lines plan price with heq |
    ⟨days, reply, -, ⟨-, heq⟩ | ⟨-, heq⟩⟩ <;> rw [heq]
  · exact .throw
  · refine .reply ?_ reply
    intro w hw
    rw [List.mem_singleton.mp hw]
    trivial
  · refine .reply ?_ reply
    intro w hw
    rcases List.mem_append.mp hw with hw | hw
    · exact codeOk_recordGrant hw
    · split at hw
      · cases hw
      · rw [List.mem_singleton.mp hw]
        trivial

end Stripe

/-! ### The run -/

variable {s s' : Server}

lemma Keeps.withCode {P : Write → Prop} {Q : Task → Prop} {code : String}
    {run : List Write × Next} (h : c.isValidPaymentCode code = true → Keeps P Q run) :
    Keeps P Q (withCode c code run) := by
  rw [Rails.withCode]
  split
  · exact h ‹_›
  · exact .refused _

lemma codeOk_startRebind (rail : Rail) (x code : String) (grantRemaining : Bool) :
    Keeps (Write.CodeOk c) (Task.CodeOk c) (startRebind c s rail x code grantRemaining) := by
  rw [startRebind.eq_def]
  split
  · exact .refused _
  · refine .withCode fun hcode => ?_
    split
    · exact .refused _
    · split
      · exact .refused _
      · cases rail with
        | apple => exact .reply (codeOk_appleRebind hcode) _
        | google =>
            dsimp only
            rcases @Google.adminRebind_out s code x grantRemaining with ⟨reply, heq⟩ |
              ⟨plan, reply, heq⟩ | heq <;> rw [heq]
            · exact .refused reply
            · refine .reply ?_ reply
              intro w hw
              rw [List.mem_singleton.mp hw]
              exact hcode
            · exact .waits hcode
        | stripe =>
            dsimp only
            rw [Stripe.adminRebind]
            split
            · exact .refused _
            · exact .waits hcode
        | voucher => exact .refused _

lemma codeOk_start (h : TablesOk c s.subs) (request : Request) :
    Keeps (Write.CodeOk c) (Task.CodeOk c) (start c s request) := by
  cases request with
  | appleVerify code => exact .withCode fun hcode => .waits hcode
  | appleClaim code transfer => exact .withCode fun hcode => .waits hcode
  | appleNotification => exact .waits trivial
  | googleVerify code token =>
      refine .withCode fun hcode => ?_
      rcases @Google.verifyPurchase_out c code token .verify with ⟨reply, heq⟩ | ⟨-, heq⟩ <;>
        rw [heq]
      · exact .refused reply
      · exact .waits hcode
  | googleClaim code token transfer => exact .withCode fun hcode => .waits hcode
  | googleRtdn message =>
      rcases @Google.handleRtdn_out c s message with ⟨reply, heq⟩ | ⟨token, reply, heq⟩ |
        ⟨type, token, -, -, heq⟩ <;> rw [start, heq]
      · exact .refused reply
      · refine .reply ?_ reply
        intro w hw
        rw [List.mem_singleton.mp hw]
        trivial
      · exact .waits trivial
  | stripeTransfer code => exact .withCode fun hcode => .waits hcode
  | stripeWebhook event =>
      cases event with
      | checkoutCompleted session => exact .reply (codeOk_onCheckoutCompleted h) _
      | invoicePaid invoice =>
          rw [start, Stripe.handleWebhook, Stripe.onInvoicePaid]
          split
          · exact .refused _
          · exact codeOk_resolveInvoiceBinding
      | chargeRefunded invoice paymentIntent =>
          rw [start, Stripe.handleWebhook, Stripe.onChargeRefunded]
          split
          · exact .waits trivial
          · split
            · exact .waits trivial
            · exact .refused _
      | subscriptionDeleted subId =>
          refine .reply ?_ _
          intro w hw
          simp only [Stripe.onSubscriptionDeleted] at hw
          split at hw
          · rw [List.mem_singleton.mp hw]
            trivial
          · cases hw
      | other type => exact .refused _
  | rebind rail x code grantRemaining => exact codeOk_startRebind rail x code grantRemaining

lemma codeOk_resume (h : TablesOk c s.subs) {task : Task} (htask : task.CodeOk c)
    {answer : Answer} {out : List Write × Next} (hout : resume c s task answer = some out) :
    Keeps (Write.CodeOk c) (Task.CodeOk c) out := by
  rw [resume.eq_def] at hout
  split at hout <;> cases hout
  · exact .reply (codeOk_verifyPurchase h htask) _
  · exact .reply (codeOk_claimPurchase htask) _
  · rename_i payload sandbox
    rw [Apple.handleNotification.eq_def]
    split
    · exact .refused _
    · dsimp only
      split
      · exact .waits trivial
      · exact .refused _
  · exact .reply (codeOk_notified h) _
  · exact codeOk_verified h htask
  · exact codeOk_claimed htask
  · rename_i token code sub
    rcases @Google.rebound_out c s code token sub with ⟨reply, heq⟩ |
      ⟨facts, reply, -, heq⟩ <;> rw [heq]
    · exact .refused reply
    · exact .reply (codeOk_googleTransferTo htask) reply
  · rename_i type token known sub
    rcases @Google.notified_out c token sub type known with ⟨reply, heq⟩ |
      ⟨code, hcode, -, heq⟩ <;> rw [heq]
    · exact .refused reply
    · exact .waits hcode
  · exact codeOk_settleGrant
  · exact codeOk_settleGrant
  · exact .refused _
  · rename_i code subscription
    rw [Stripe.sessionRead.eq_def]
    split
    · exact .refused _
    · exact .waits htask
  · rename_i code subId sub
    rcases @Stripe.transferred_out c s code subId sub with ⟨reply, heq⟩ |
      ⟨-, reply, heq⟩ <;> rw [heq]
    · exact .refused reply
    · exact .wait (codeOk_stripeTransferTo htask) trivial
  · rename_i code subId grantRemaining known sub
    rcases @Stripe.rebound_out c s code subId sub grantRemaining known with ⟨reply, heq⟩ |
      ⟨reply, heq⟩ <;> rw [heq]
    · exact .refused reply
    · exact .wait (codeOk_stripeTransferTo htask) trivial
  · exact .waits codeOk_bindingOf
  · exact codeOk_linesRead htask
  · rename_i binding
    rw [Stripe.refundBound.eq_def]
    split
    · exact .refused _
    · refine .wait ?_ trivial
      intro w hw
      rw [List.mem_singleton.mp hw]
      trivial
  · exact codeOk_daysRead
  · rename_i id
    rw [Stripe.refundInvoiceIdRead]
    split
    · exact .waits trivial
    · exact .refused _
  · exact codeOk_resolveInvoiceBinding
  · rename_i task _
    rw [caught.eq_def]
    split <;> first
      | exact .refused _
      | exact .throw

/-- All that a stretch binds are good codes. -/
theorem Stretch.codesOk {s₀ : Server} {a : Action} {ws : List Write} {next : Next}
    (h : CodesOk c s) (hs : Stretch c s s₀ a ws next) :
    Keeps (Write.CodeOk c) (Task.CodeOk c) (ws, next) := by
  cases hs with
  | start request => exact codeOk_start h.tables request
  | @resume i _ _ _ htask hout =>
      have htables : TablesOk c (s.drop i).subs := h.tables
      exact codeOk_resume htables (h.tasks _ (List.mem_of_getElem? htask)) hout

lemma CodesOk.init (height nowMs : Int) : CodesOk c (Server.init height nowMs) where
  tables := .empty
  tasks _ h := by cases h

/-- **The codes stay good in every step.** -/
theorem step_codesOk {a : Action} (h : CodesOk c s) (hstep : step c s a = some s') :
    CodesOk c s' := by
  rcases step_cases hstep with ⟨s₀, ws, next, hs, rfl⟩ | ⟨b, workers, -, -, rfl⟩ |
    ⟨nowMs, -, rfl⟩ | ⟨workers, -, rfl⟩
  · obtain ⟨hws, hnext⟩ := hs.codesOk h
    obtain ⟨tasks, htasks, rfl⟩ := hs.eq
    refine ⟨?_, fun task htask => ?_⟩
    · rw [Server.subs_finish]
      have htables : TablesOk c ({ s with running := tasks } : Server).subs := h.tables
      exact htables.writeAll hws
    · rcases Server.mem_running_finish htask with hmem | hwait
      · exact h.tasks task (htasks hmem)
      · exact hnext task hwait
  · exact ⟨h.tables, h.tasks⟩
  · exact ⟨h.tables, h.tasks⟩
  · exact ⟨h.tables, fun _ htask => by cases htask⟩

end CumulusVpn.Bridge.Rails
