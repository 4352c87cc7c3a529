/-
The step of the server (`bridge/src/server.ts`, `bridge/src/rails/`).

A step starts a handler on a request, or resumes one that waits with the
answer to its call; the workers, the clock and a crash of the process are
steps too.  Handlers interleave at their awaits in any order.

* `start`, `resume`: the stretch that a request or an answer runs;
* `step`: the whole;
* `step_cases`: **what a step can do**;
* `Keeps`: what all writes of a stretch meet, and the task that it waits with.
-/
import CumulusVpn.Bridge.Rails.Apple
import CumulusVpn.Bridge.Rails.Google
import CumulusVpn.Bridge.Rails.Stripe

namespace CumulusVpn.Bridge.Rails

open StepSystem

/-- A request to the server, authenticated where its route asks for it. -/
inductive Request
  | appleVerify (code : String)
  | appleClaim (code : String) (transfer : Bool)
  | appleNotification
  | googleVerify (code purchaseToken : String)
  | googleClaim (code purchaseToken : String) (transfer : Bool)
  | googleRtdn (message : Option Rtdn)
  | stripeTransfer (code : String)
  | stripeWebhook (event : StripeEvent)
  | rebind (rail : Rail) (externalId code : String) (grantRemaining : Bool)
deriving DecidableEq, Repr

/-- What a call comes back with. -/
inductive Answer
  | transaction (txn : Option Transaction) (sandbox : Bool)
  | notification (payload : Option Notification) (sandbox : Bool)
  | purchase (sub : Purchase)
  | session (subscription : Option String)
  | subscription (sub : StripeSubscription)
  | lines (listed : List InvoiceLine)
  | price (price : Price)
  | invoiceId (id : Option String)
  | invoice (invoice : Invoice)
  /-- an answer that nothing is read from -/
  | done
  /-- the call is rejected -/
  | failed
deriving DecidableEq, Repr

/-- What happens to the bridge. -/
inductive Action
  | start (request : Request)
  | resume (i : Nat) (answer : Answer)
  | worker (a : Bridge.Action)
  | tick (nowMs : Int)
  /-- the process dies and starts again -/
  | crash

section Stretches

variable (c : RailsConfig) (s : Server)

/-- Every route of a payment code validates it first. -/
def withCode (code : String) (run : List Write × Next) : List Write × Next :=
  if c.isValidPaymentCode code then run else ([], .reply (.refused "bad_code"))

/-- The route of a support rebind. -/
def startRebind (rail : Rail) (externalId code : String) (grantRemaining : Bool) :
    List Write × Next :=
  if rail = .voucher ∨ externalId = "" then ([], .reply (.refused "bad_request"))
  else withCode c code <|
    match s.subs.get rail externalId with
    | none => ([], .reply (.refused "not_found"))
    | some known =>
        if known.paymentCode = code ∧ !grantRemaining then
          ([], .reply (.refused "already_bound"))
        else
          match rail with
          | .apple =>
              let out := Apple.adminRebind c s externalId code grantRemaining
              (out.1, .reply (.rebind out.2))
          | .google => Google.adminRebind s externalId code grantRemaining
          | .stripe => ([], Stripe.adminRebind s externalId code grantRemaining)
          | .voucher => ([], .reply (.refused "bad_request"))

/-- The first stretch of a handler. -/
def start : Request → List Write × Next
  | .appleVerify code => withCode c code ([], .wait (.appleVerify code))
  | .appleClaim code transfer => withCode c code ([], .wait (.appleClaim code transfer))
  | .appleNotification => ([], .wait .appleNotification)
  | .googleVerify code purchaseToken =>
      withCode c code ([], Google.verifyPurchase c .verify code purchaseToken)
  | .googleClaim code purchaseToken transfer =>
      withCode c code ([], .wait (.googleClaim code purchaseToken transfer))
  | .googleRtdn message => Google.handleRtdn c s message
  | .stripeTransfer code => withCode c code ([], .wait (.stripeSession code))
  | .stripeWebhook event => Stripe.handleWebhook s event
  | .rebind rail externalId code grantRemaining =>
      startRebind c s rail externalId code grantRemaining

/-- A call that its handler catches the rejection of. -/
def caught : Task → Next
  | .stripeSession _ => .reply (.outcome (refuse "no_subscription"))
  | .stripeTransfer _ _ => .reply (.outcome (refuse "no_subscription"))
  | .invoiceSubscription .refund _ => .reply (.slug "refund:error")
  | .refundInvoiceId => .reply (.slug "refund:error")
  | .refundInvoice => .reply (.slug "refund:error")
  | .lastCall reply => .reply reply
  | _ => .throw

/-- The stretch of a waiting handler when its call is answered. -/
def resume : Task → Answer → Option (List Write × Next)
  | .appleVerify code, .transaction txn sandbox =>
      let out := Apple.verifyPurchase c s code txn sandbox
      some (out.1, .reply (.outcome out.2))
  | .appleClaim code transfer, .transaction txn sandbox =>
      let out := Apple.claimPurchase c s code transfer txn sandbox
      some (out.1, .reply (.outcome out.2))
  | .appleNotification, .notification payload sandbox =>
      some ([], Apple.handleNotification payload sandbox)
  | .appleNotified type sandbox, .transaction txn _ =>
      let out := Apple.notified c s type sandbox txn
      some (out.1, .reply (.slug out.2))
  | .googleVerify caller code purchaseToken, .purchase sub =>
      some (Google.verified c s caller code purchaseToken sub)
  | .googleClaim code purchaseToken transfer, .purchase sub =>
      some (Google.claimed c s code purchaseToken transfer sub)
  | .googleRebind purchaseToken code, .purchase sub =>
      some (Google.rebound c s purchaseToken code sub)
  | .googleRtdn type purchaseToken known, .purchase sub =>
      some ([], Google.notified c type purchaseToken known sub)
  -- a failed acknowledgement is logged and forgotten
  | .googleAcknowledge caller event code purchaseToken facts, .done =>
      some (Google.settleGrant c s caller event code purchaseToken facts)
  | .googleAcknowledge caller event code purchaseToken facts, .failed =>
      some (Google.settleGrant c s caller event code purchaseToken facts)
  | .lastCall reply, .done => some ([], .reply reply)
  | .stripeSession code, .session subscription =>
      some ([], Stripe.sessionRead code subscription)
  | .stripeTransfer code subId, .subscription sub =>
      some (Stripe.transferred c s code subId sub)
  | .stripeRebind code subId grantRemaining known, .subscription sub =>
      some (Stripe.rebound c s code subId grantRemaining known sub)
  | .invoiceSubscription use subId, .subscription sub =>
      some ([], Stripe.bindingRead s use subId sub)
  | .invoiceBound (.paid invoice) binding, .lines listed =>
      some (Stripe.linesRead c invoice binding listed)
  | .invoiceBound .refund binding, .done => some (Stripe.refundBound binding)
  | .invoiceDays invoice binding lines plan, .price price =>
      some (Stripe.daysRead c s invoice binding lines plan price)
  | .refundInvoiceId, .invoiceId id => some ([], Stripe.refundInvoiceIdRead id)
  | .refundInvoice, .invoice invoice =>
      some ([], Stripe.resolveInvoiceBinding s .refund invoice)
  | task, .failed => some ([], caught task)
  | _, _ => none

end Stretches

/-- The steps of the workers that are not grants of a store rail. -/
def workerAllowed : Bridge.Action → Bool
  | .grant p _ => p.rail = .voucher
  | .crash => false
  | _ => true

/-- The handler at `i` no longer waits. -/
def Server.drop (s : Server) (i : Nat) : Server := { s with running := s.running.eraseIdx i }

/-- The bridge after an action; none where it cannot happen. -/
def step (c : RailsConfig) (s : Server) : Action → Option Server
  | .start request => some (s.finish (start c s request).1 (start c s request).2)
  | .resume i answer =>
      (s.running[i]?).bind fun task =>
        (resume c (s.drop i) task answer).map fun out => (s.drop i).finish out.1 out.2
  | .worker a =>
      if workerAllowed a then
        (Bridge.step c.toConfig s.workers a).map fun workers => { s with workers := workers }
      else none
  | .tick nowMs => if s.nowMs ≤ nowMs then some { s with nowMs := nowMs } else none
  | .crash =>
      (Bridge.step c.toConfig s.workers .crash).map fun workers =>
        { s with workers := workers, running := [] }

/-! ### What a step can do -/

/-- A step runs a stretch in `s₀`: the state without the task that is
resumed. -/
inductive Stretch (c : RailsConfig) (s : Server) : Server → Action → List Write → Next → Prop
  | start (request : Request) :
      Stretch c s s (.start request) (start c s request).1 (start c s request).2
  | resume {i : Nat} {answer : Answer} {task : Task} {out : List Write × Next}
      (htask : s.running[i]? = some task) (hout : resume c (s.drop i) task answer = some out) :
      Stretch c s (s.drop i) (.resume i answer) out.1 out.2

/-- A stretch runs with no more tasks waiting. -/
lemma Stretch.eq {c : RailsConfig} {s s₀ : Server} {a : Action} {ws : List Write} {next : Next}
    (h : Stretch c s s₀ a ws next) : ∃ tasks ⊆ s.running, s₀ = { s with running := tasks } := by
  cases h with
  | start request => exact ⟨s.running, List.Subset.refl _, rfl⟩
  | resume htask hout => exact ⟨_, List.eraseIdx_subset, rfl⟩

/-- **A step runs a stretch, or leaves the subscription tables alone**: the
workers keep the waiting handlers, the clock only advances, and a crash
drops the handlers. -/
lemma step_cases {c : RailsConfig} {s s' : Server} {a : Action} (h : step c s a = some s') :
    (∃ s₀ ws next, Stretch c s s₀ a ws next ∧ s' = s₀.finish ws next) ∨
    (∃ b workers, workerAllowed b = true ∧ Bridge.step c.toConfig s.workers b = some workers ∧
      s' = { s with workers := workers }) ∨
    (∃ nowMs, s.nowMs ≤ nowMs ∧ s' = { s with nowMs := nowMs }) ∨
    (∃ workers, Bridge.step c.toConfig s.workers .crash = some workers ∧
      s' = { s with workers := workers, running := [] }) := by
  cases a with
  | start request =>
      cases h
      exact Or.inl ⟨s, _, _, .start request, rfl⟩
  | resume i answer =>
      obtain ⟨task, htask, hrest⟩ := Option.bind_eq_some_iff.mp h
      obtain ⟨out, hout, rfl⟩ := Option.map_eq_some_iff.mp hrest
      exact Or.inl ⟨_, _, _, .resume htask hout, rfl⟩
  | worker b =>
      simp only [step] at h
      split at h
      · rename_i hallowed
        obtain ⟨workers, hworkers, rfl⟩ := Option.map_eq_some_iff.mp h
        exact Or.inr (Or.inl ⟨b, workers, hallowed, hworkers, rfl⟩)
      · cases h
  | tick nowMs =>
      simp only [step] at h
      split at h
      · rename_i hle
        cases h
        exact Or.inr (Or.inr (Or.inl ⟨nowMs, hle, rfl⟩))
      · cases h
  | crash =>
      simp only [step] at h
      obtain ⟨workers, hworkers, rfl⟩ := Option.map_eq_some_iff.mp h
      exact Or.inr (Or.inr (Or.inr ⟨workers, hworkers, rfl⟩))

/-! ### What a stretch keeps -/

/-- All writes of a stretch meet `P`, and the task that it waits with meets
`Q`. -/
def Keeps (P : Write → Prop) (Q : Task → Prop) (out : List Write × Next) : Prop :=
  (∀ w ∈ out.1, P w) ∧ ∀ task, out.2 = .wait task → Q task

section Keeps

variable {P : Write → Prop} {Q : Task → Prop} {ws : List Write}

lemma Keeps.reply (h : ∀ w ∈ ws, P w) (reply : Reply) : Keeps P Q (ws, .reply reply) :=
  ⟨h, fun _ hwait => by cases hwait⟩

lemma Keeps.throw : Keeps P Q ([], .throw) :=
  ⟨fun _ hw => (List.not_mem_nil hw).elim, fun _ hwait => by cases hwait⟩

lemma Keeps.wait {task : Task} (h : ∀ w ∈ ws, P w) (htask : Q task) :
    Keeps P Q (ws, .wait task) :=
  ⟨h, fun _ hwait => by cases hwait; exact htask⟩

lemma Keeps.refused (reply : Reply) : Keeps P Q ([], .reply reply) :=
  .reply (fun _ hw => (List.not_mem_nil hw).elim) reply

lemma Keeps.waits {task : Task} (htask : Q task) : Keeps P Q ([], .wait task) :=
  .wait (fun _ hw => (List.not_mem_nil hw).elim) htask

end Keeps

/-! ### A configuration to run -/

/-- A configuration whose valid codes are those of the right length. -/
def testConfig : RailsConfig where
  treasury := "t1treasury"
  paymentAddress := "t1pay"
  priceSchedule := .flat 20 twenty_pos
  feeZats := 2000
  isValidPaymentCode := fun code => 20 ≤ code.length ∧ code.length ≤ 40
  txid := fun tx => toString tx.expiryHeight
  priceZats := 2000000000
  uuidForCode := fun code => code
  stripe := ⟨"price_m", "price_y", false⟩
  apple := ⟨"cvpn.premium.monthly", "cvpn.premium.annual", false, 1, by decide⟩
  google := ⟨"com.cumulusvpn", "premium-monthly", "premium-annual", false, 1, by decide⟩
  valid_length := fun _ h => of_decide_eq_true h

end CumulusVpn.Bridge.Rails
