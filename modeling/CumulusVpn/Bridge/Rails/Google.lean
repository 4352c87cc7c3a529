/-
The Google rail (`bridge/src/rails/google.ts`).

Play is asked about a purchase token before anything is believed, and a
verified purchase is acknowledged between its binding and its grant.

* `periodFacts`: what Play says the current period is;
* `settleBind`, `settleGrant`: the two stretches of `settle`;
* `transferTo`: moves a subscription and hands over the rest of its period;
* `verifyPurchase`, `verified`, `claimed`, `adminRebind`, `rebound`,
  `handleRtdn`, `notified`: the handlers, cut where they wait.
-/
import CumulusVpn.Bridge.Rails.Server

namespace CumulusVpn.Bridge.Rails.Google

/-- Why a subscription cannot be granted on. -/
def inactiveReason (sub : Purchase) : Option String :=
  if sub.subscriptionState ≠ some "SUBSCRIPTION_STATE_ACTIVE" ∧
      sub.subscriptionState ≠ some "SUBSCRIPTION_STATE_IN_GRACE_PERIOD" then
    some ("state:" ++ sub.subscriptionState.getD "unknown")
  else none

/-- The days that a base plan buys. -/
def daysForBasePlan (c : RailsConfig) (basePlanId : Option String) : Option Int :=
  if basePlanId = some c.google.basePlanMonthly then some 30
  else if basePlanId = some c.google.basePlanAnnual then some 360
  else none

/-- Base plan, order id and period end of a verified subscription, or why
they are unusable. -/
def periodFacts (c : RailsConfig) (sub : Purchase) : Except String PeriodFacts :=
  match daysForBasePlan c sub.basePlanId with
  | none => .error ("unknown_base_plan:" ++ sub.basePlanId.getD "none")
  | some days =>
      match truthy (sub.latestSuccessfulOrderId <|> sub.latestOrderId) with
      | none => .error "no_order_id"
      | some orderId =>
          .ok
            { days := days
              plan := if days = 360 then .annual else .monthly
              orderId := orderId
              productId := sub.productId
              expiryMs := sub.expiryMs
              test := sub.testPurchase }

section Handlers

variable (c : RailsConfig) (s : Server)

/-- The current owner of a subscription that has been moved. -/
def movedOwner (purchaseToken : String) : Option String :=
  (s.subs.get .google purchaseToken).bind fun known =>
    known.transferredAt.map fun _ => known.paymentCode

/-- A license-tester purchase settles for a token amount, once per test
subscription. -/
def testGrant (purchaseToken code : String) : List Write × Outcome :=
  let days := c.google.testGrantDays
  if days ≤ 0 then
    ([], { accepted := true, reason := "test_verified", days := some 0, test := some true })
  else
    let result := recordGrant c s
      { rail := .google
        eventKey := "test:" ++ purchaseToken
        externalRef := purchaseToken
        paymentCode := code
        days := days }
    (result.1,
      { accepted := true
        reason := "test:" ++ result.2.text
        days := some days
        test := some true })

/-- The reply of the verify path to its caller. -/
def answer (caller : GoogleCaller) (out : Outcome) : Reply :=
  match caller with
  | .verify => .outcome out
  | .claim => .outcome { out with transferred := some false }
  | .rtdn _ => .slug ("rtdn:" ++ out.reason)

/-- The first stretch of `settle`: the subscription is bound, and then
acknowledged. -/
def settleBind (caller : GoogleCaller) (event : Option Event) (code purchaseToken : String)
    (facts : PeriodFacts) : List Write × Next :=
  ([.upsert .google purchaseToken code facts.plan none],
    .wait (.googleAcknowledge caller event code purchaseToken facts))

/-- The second stretch of `settle`: the current period is granted. -/
def settleGrant (caller : GoogleCaller) (event : Option Event) (code purchaseToken : String)
    (facts : PeriodFacts) : List Write × Next :=
  let out : List Write × Outcome :=
    if facts.test && !c.google.testGrants then testGrant c s purchaseToken code
    else
      let result := recordGrant c s
        { rail := .google
          eventKey := facts.orderId
          externalRef := purchaseToken
          paymentCode := code
          days := facts.days }
      (result.1,
        { accepted := true
          reason := result.2.text
          days := some facts.days
          test := some false })
  (out.1 ++ (event.map Write.processed).toList, .reply (answer caller out.2))

/-- Moves the subscription to `code` and hands it the rest of the current
period. -/
def transferTo (code purchaseToken : String) (facts : PeriodFacts) (actor : TransferActor) :
    List Write × Moved :=
  let probe := facts.test && !c.google.testGrants
  let days :=
    if probe then c.google.testGrantDays else remainingDays facts.expiryMs s.nowMs facts.plan
  let grant := grantRest c s
    { rail := .google
      eventKey :=
        if probe then "test-transfer:" ++ purchaseToken
        else transferEventKey purchaseToken (facts.expiryMs.getD 0)
      externalRef := purchaseToken
      paymentCode := code
      days := days }
  (grant.1 ++ [.rebind .google purchaseToken code facts.plan actor days],
    ⟨days, grant.2, (s.subs.get .google purchaseToken).map SubscriptionRow.paymentCode⟩)

/-- The start of a verify. -/
def verifyPurchase (caller : GoogleCaller) (code purchaseToken : String) : Next :=
  if !c.isValidPaymentCode code then .reply (answer caller (refuse "invalid_code"))
  else .wait (.googleVerify caller code purchaseToken)

/-- The event that a verify processes; a claim is none. -/
def eventOf (caller : GoogleCaller) (code purchaseToken : String) (sub : Purchase) :
    Option Event :=
  match caller with
  | .verify => some (.googleVerify code purchaseToken sub)
  | .claim => none
  | .rtdn type => some (.googleRtdn type purchaseToken sub)

/-- A verify after Play has answered: only a client must match the account
id, and a moved subscription settles to its current owner. -/
def verified (caller : GoogleCaller) (code purchaseToken : String) (sub : Purchase) :
    List Write × Next :=
  match inactiveReason sub with
  | some reason => ([], .reply (answer caller (refuse reason)))
  | none =>
      let obfuscated := sub.obfuscatedExternalAccountId
      if caller = .verify ∧ obfuscated ≠ some code then
        ([], .reply (answer caller (refuse
          (if (truthy obfuscated).isSome then "account_id_mismatch" else "account_id_missing"))))
      else
        match periodFacts c sub with
        | .error reason => ([], .reply (answer caller (refuse reason)))
        | .ok facts =>
            settleBind caller (eventOf caller code purchaseToken sub)
              ((movedOwner s purchaseToken).getD code) purchaseToken facts

/-- A claim after Play has answered. -/
def claimed (code purchaseToken : String) (transfer : Bool) (sub : Purchase) :
    List Write × Next :=
  match inactiveReason sub with
  | some reason => ([], .reply (.outcome (refuse reason)))
  | none =>
      match periodFacts c sub with
      | .error reason => ([], .reply (.outcome (refuse reason)))
      | .ok facts =>
          let known := s.subs.get .google purchaseToken
          let owner := truthy (known.map SubscriptionRow.paymentCode) <|>
            truthy sub.obfuscatedExternalAccountId
          if owner = none ∨ owner = some code then
            settleBind .claim none code purchaseToken facts
          else if !transfer then ([], .reply (.outcome (refuse "owned_by_other_device")))
          else
            match transferAvailableAt (known.bind SubscriptionRow.transferredAt) s.nowS with
            | some availableAt =>
                ([], .reply (.outcome
                  { refuse "transfer_too_soon" with availableAt := some availableAt }))
            | none =>
                let moved := transferTo c s code purchaseToken facts .user
                (moved.1, .wait (.lastCall (.outcome (moved.2.transferred facts.test))))

/-- Support override; Play is asked only for a grant. -/
def adminRebind (purchaseToken code : String) (grantRemaining : Bool) : List Write × Next :=
  match s.subs.get .google purchaseToken with
  | none => ([], .reply (.rebind { ok := false, reason := "not_found" }))
  | some known =>
      if !grantRemaining then
        ([.rebind .google purchaseToken code known.plan .admin 0],
          .reply (.rebind (reboundOnly (some known.paymentCode))))
      else ([], .wait (.googleRebind purchaseToken code))

/-- A support rebind after Play has answered. -/
def rebound (purchaseToken code : String) (sub : Purchase) : List Write × Next :=
  match inactiveReason sub with
  | some _ => ([], .reply (.rebind { ok := false, reason := "not_active" }))
  | none =>
      match periodFacts c sub with
      | .error reason => ([], .reply (.rebind { ok := false, reason := reason }))
      | .ok facts =>
          let moved := transferTo c s code purchaseToken facts .admin
          (moved.1, .reply (.rebind (moved.2.rebound facts.test)))

/-- RECOVERED, RENEWED and PURCHASED. -/
def grantNotifications : List Int := [1, 2, 4]

/-- `SUBSCRIPTION_REVOKED` -/
def revokeNotification : Int := 12

/-- The start of a developer notification; `none` is a malformed one. -/
def handleRtdn (message : Option Rtdn) : List Write × Next :=
  match message with
  | none => ([], .reply (.slug "rtdn:malformed"))
  | some message =>
      if message.testNotification then ([], .reply (.slug "rtdn:test-notification"))
      else if message.packageName ≠ some c.google.packageName then
        ([], .reply (.slug "rtdn:wrong-package"))
      else
        match truthy message.purchaseToken with
        | none => ([], .reply (.slug "rtdn:not-subscription"))
        | some token =>
            if !message.hasSubscription then ([], .reply (.slug "rtdn:not-subscription"))
            else if message.notificationType = some revokeNotification then
              ([.setStatus .google token .refunded], .reply (.slug "rtdn:revoked"))
            else
              match message.notificationType.filter (· ∈ grantNotifications) with
              | none =>
                  ([], .reply (.slug ("rtdn:ignored:" ++
                    (message.notificationType.map toString).getD "undefined")))
              | some type => ([], .wait (.googleRtdn type token (s.subs.get .google token)))

/-- A developer notification after Play has answered: the binding that was
read before the call wins over the account id. -/
def notified (type : Int) (purchaseToken : String) (known : Option SubscriptionRow)
    (sub : Purchase) : Next :=
  match truthy (known.map SubscriptionRow.paymentCode <|> sub.obfuscatedExternalAccountId) with
  | none => .reply (.slug "rtdn:code-unknown")
  | some code => verifyPurchase c (.rtdn type) code purchaseToken

end Handlers

/-! ### What the stretches write -/

section Writes

variable {c : RailsConfig} {s : Server} {code purchaseToken : String} {sub : Purchase}

/-- The grant of a settled period: its own, or the probe of a tester. -/
def settleEvent (c : RailsConfig) (code purchaseToken : String) (facts : PeriodFacts) :
    GrantEvent where
  rail := .google
  eventKey :=
    if facts.test && !c.google.testGrants then "test:" ++ purchaseToken else facts.orderId
  externalRef := purchaseToken
  paymentCode := code
  days := if facts.test && !c.google.testGrants then c.google.testGrantDays else facts.days

/-- The second stretch of a settlement grants the period and replies. -/
lemma settleGrant_eq {caller : GoogleCaller} {event : Option Event} {facts : PeriodFacts} :
    ∃ pays reply, settleGrant c s caller event code purchaseToken facts =
        (pays ++ (event.map Write.processed).toList, .reply reply) ∧
      ∀ w ∈ pays, w = .payment (newPayment c (settleEvent c code purchaseToken facts)) := by
  simp only [settleGrant]
  split
  · rename_i hprobe
    refine ⟨_, _, rfl, fun w hw => ?_⟩
    simp only [testGrant] at hw
    split at hw
    · cases hw
    · simp only [settleEvent, if_pos hprobe]
      exact (mem_recordGrant hw).1
  · rename_i hprobe
    refine ⟨_, _, rfl, fun w hw => ?_⟩
    simp only [settleEvent, if_neg hprobe]
    exact (mem_recordGrant hw).1

/-- A verify binds the subscription, or replies. -/
lemma verified_out {caller : GoogleCaller} :
    (∃ reply, verified c s caller code purchaseToken sub = ([], .reply reply)) ∨
      ∃ facts, inactiveReason sub = none ∧
        (caller = .verify → sub.obfuscatedExternalAccountId = some code) ∧
        periodFacts c sub = .ok facts ∧
        verified c s caller code purchaseToken sub =
          settleBind caller (eventOf caller code purchaseToken sub)
            ((movedOwner s purchaseToken).getD code) purchaseToken facts := by
  rw [verified.eq_def]
  split
  · exact Or.inl ⟨_, rfl⟩
  · rename_i hactive
    dsimp only
    split
    · exact Or.inl ⟨_, rfl⟩
    · rename_i hmatch
      split
      · exact Or.inl ⟨_, rfl⟩
      · rename_i facts hfacts
        refine Or.inr ⟨facts, hactive, fun hcaller => ?_, hfacts, rfl⟩
        by_contra hne
        exact hmatch ⟨hcaller, hne⟩

/-- A claim binds a subscription that nobody else owns, or moves one that may
move, or replies. -/
lemma claimed_out {transfer : Bool} :
    (∃ reply, claimed c s code purchaseToken transfer sub = ([], .reply reply)) ∨
      ∃ facts, periodFacts c sub = .ok facts ∧
        ((∀ row, s.subs.get .google purchaseToken = some row → row.paymentCode ≠ "" →
              row.paymentCode = code) ∧
            claimed c s code purchaseToken transfer sub =
              settleBind .claim none code purchaseToken facts ∨
          transferAvailableAt
              ((s.subs.get .google purchaseToken).bind SubscriptionRow.transferredAt) s.nowS =
            none ∧
            ∃ reply, claimed c s code purchaseToken transfer sub =
              ((transferTo c s code purchaseToken facts .user).1, .wait (.lastCall reply))) := by
  rw [claimed.eq_def]
  split
  · exact Or.inl ⟨_, rfl⟩
  · split
    · exact Or.inl ⟨_, rfl⟩
    · rename_i facts hfacts
      dsimp only
      split
      · rename_i howner
        refine Or.inr ⟨facts, hfacts, Or.inl ⟨fun row hrow hne => ?_, rfl⟩⟩
        -- a row with a code has the owner
        have hcode : row.paymentCode = code ∧ ¬ code = "" := by
          simpa [hrow, truthy, hne] using howner
        exact hcode.1
      · split
        · exact Or.inl ⟨_, rfl⟩
        · split
          · exact Or.inl ⟨_, rfl⟩
          · rename_i havailable
            exact Or.inr ⟨facts, hfacts, Or.inr ⟨havailable, _, rfl⟩⟩

/-- A support rebind moves the subscription at once, or asks Play, or
replies. -/
lemma adminRebind_out {grantRemaining : Bool} :
    (∃ reply, adminRebind s purchaseToken code grantRemaining = ([], .reply reply)) ∨
      (∃ plan reply, adminRebind s purchaseToken code grantRemaining =
        ([.rebind .google purchaseToken code plan .admin 0], .reply reply)) ∨
      adminRebind s purchaseToken code grantRemaining =
        ([], .wait (.googleRebind purchaseToken code)) := by
  rw [adminRebind.eq_def]
  split
  · exact Or.inl ⟨_, rfl⟩
  · split
    · exact Or.inr (Or.inl ⟨_, _, rfl⟩)
    · exact Or.inr (Or.inr rfl)

/-- A support rebind moves the subscription once Play has answered, or
replies. -/
lemma rebound_out :
    (∃ reply, rebound c s purchaseToken code sub = ([], .reply reply)) ∨
      ∃ facts reply, periodFacts c sub = .ok facts ∧
        rebound c s purchaseToken code sub =
          ((transferTo c s code purchaseToken facts .admin).1, .reply reply) := by
  rw [rebound.eq_def]
  split
  · exact Or.inl ⟨_, rfl⟩
  · split
    · exact Or.inl ⟨_, rfl⟩
    · rename_i facts hfacts
      exact Or.inr ⟨facts, _, hfacts, rfl⟩

/-- A developer notification revokes, or asks Play, or is ignored. -/
lemma handleRtdn_out {message : Option Rtdn} :
    (∃ reply, handleRtdn c s message = ([], .reply reply)) ∨
      (∃ token reply, handleRtdn c s message =
        ([.setStatus .google token .refunded], .reply reply)) ∨
      ∃ type token, type ∈ grantNotifications ∧ token ≠ "" ∧ handleRtdn c s message =
        ([], .wait (.googleRtdn type token (s.subs.get .google token))) := by
  rw [handleRtdn.eq_def]
  split
  · exact Or.inl ⟨_, rfl⟩
  · split
    · exact Or.inl ⟨_, rfl⟩
    · split
      · exact Or.inl ⟨_, rfl⟩
      · split
        · exact Or.inl ⟨_, rfl⟩
        · rename_i token htoken
          split
          · exact Or.inl ⟨_, rfl⟩
          · split
            · exact Or.inr (Or.inl ⟨_, _, rfl⟩)
            · split
              · exact Or.inl ⟨_, rfl⟩
              · rename_i type htype
                have hne := (Option.filter_eq_some_iff.mp htoken).2
                have hgrant := (Option.filter_eq_some_iff.mp htype).2
                exact Or.inr (Or.inr ⟨type, token, of_decide_eq_true hgrant,
                  of_decide_eq_true hne, rfl⟩)

/-- A verify waits for Play with a valid code, or replies. -/
lemma verifyPurchase_out {caller : GoogleCaller} :
    (∃ reply, verifyPurchase c caller code purchaseToken = .reply reply) ∨
      c.isValidPaymentCode code = true ∧
        verifyPurchase c caller code purchaseToken =
          .wait (.googleVerify caller code purchaseToken) := by
  rw [verifyPurchase]
  split
  · exact Or.inl ⟨_, rfl⟩
  · rename_i hvalid
    exact Or.inr ⟨by simpa using hvalid, rfl⟩

/-- So does a notification once Play has answered. -/
lemma notified_out {type : Int} {known : Option SubscriptionRow} :
    (∃ reply, notified c type purchaseToken known sub = .reply reply) ∨
      ∃ code, c.isValidPaymentCode code = true ∧
        truthy (known.map SubscriptionRow.paymentCode <|> sub.obfuscatedExternalAccountId) =
          some code ∧
        notified c type purchaseToken known sub =
          .wait (.googleVerify (.rtdn type) code purchaseToken) := by
  rw [notified.eq_def]
  split
  · exact Or.inl ⟨_, rfl⟩
  · rename_i code hcode
    rcases verifyPurchase_out with ⟨reply, heq⟩ | ⟨hvalid, heq⟩
    · exact Or.inl ⟨reply, heq⟩
    · exact Or.inr ⟨code, hvalid, hcode, heq⟩

end Writes

end CumulusVpn.Bridge.Rails.Google
