/-
The Apple rail (`bridge/src/rails/apple.ts`).

A handler waits for its payload to be verified and decoded, and then runs to
its end in one stretch.

* `ownerOf`: which code a transaction credits;
* `settle`, `transferTo`: bind and grant a period, or move it;
* `verifyPurchase`, `claimPurchase`, `notified`, `adminRebind`: the handlers.
-/
import CumulusVpn.Bridge.Rails.Server

namespace CumulusVpn.Bridge.Rails.Apple

/-- The days that a product buys. -/
def daysForProduct (c : RailsConfig) (productId : Option String) : Option Int :=
  if productId = some c.apple.productMonthly then some 30
  else if productId = some c.apple.productAnnual then some 360
  else none

/-- The plan of that many days. -/
def planForDays (days : Int) : Plan := if days = 360 then .annual else .monthly

/-- A fresh purchase made after the move. -/
def boughtSince (txn : Transaction) (transferredAt : Int) : Bool :=
  txn.transactionReason = some .purchase ∧ txn.purchaseDate.getD 0 > transferredAt * 1000

/-- Which code a verified transaction credits, given the code its token names:
the purchaser until the subscription is moved, and then its binding. -/
def ownerOf (s : Server) (txn : Transaction) (purchaser : Option String) : Option String :=
  match (truthy txn.originalTransactionId).bind (s.subs.get .apple) with
  | none => purchaser
  | some known =>
      match known.transferredAt with
      | some transferredAt =>
          if !boughtSince txn transferredAt || purchaser.isNone then some known.paymentCode
          else purchaser
      | none => purchaser <|> some known.paymentCode

section Handlers

variable (c : RailsConfig) (s : Server)

/-- A sandbox purchase settles for a token amount, once per subscription. -/
def sandboxGrant (originalTransactionId code : String) : List Write × Outcome :=
  let days := c.apple.sandboxGrantDays
  if days ≤ 0 then
    ([], { accepted := true, reason := "sandbox_verified", days := some 0, test := some true })
  else
    let result := recordGrant c s
      { rail := .apple
        eventKey := "sandbox:" ++ originalTransactionId
        externalRef := originalTransactionId
        paymentCode := code
        days := days }
    (result.1,
      { accepted := true
        reason := "sandbox:" ++ result.2.text
        days := some days
        test := some true })

/-- Binds and grants the transaction's period. -/
def settle (code transactionId originalTransactionId : String) (expiresMs : Option Int)
    (sandbox : Bool) (days : Int) : List Write × Outcome :=
  let bind := [.upsert .apple originalTransactionId code (planForDays days) none] ++
    (expiresMs.map fun e => Write.noteAppleExpiry originalTransactionId e sandbox).toList
  if sandbox && !c.apple.sandboxGrants then
    let out := sandboxGrant c s originalTransactionId code
    (bind ++ out.1, out.2)
  else
    let result := recordGrant c s
      { rail := .apple
        eventKey := transactionId
        externalRef := originalTransactionId
        paymentCode := code
        days := days }
    (bind ++ result.1,
      { accepted := true, reason := result.2.text, days := some days, test := some false })

/-- Moves the subscription and hands it the rest of the period. -/
def transferTo (code originalTransactionId : String) (plan : Plan) (expiresMs : Int)
    (sandbox : Bool) (actor : TransferActor) : List Write × Moved :=
  let probe := sandbox && !c.apple.sandboxGrants
  let days :=
    if probe then c.apple.sandboxGrantDays else remainingDays (some expiresMs) s.nowMs plan
  let grant := grantRest c s
    { rail := .apple
      eventKey :=
        if probe then "sandbox-transfer:" ++ originalTransactionId
        else transferEventKey originalTransactionId expiresMs
      externalRef := originalTransactionId
      paymentCode := code
      days := days }
  (grant.1 ++
      [.rebind .apple originalTransactionId code plan actor days,
        .noteAppleExpiry originalTransactionId expiresMs sandbox],
    ⟨days, grant.2,
      (s.subs.get .apple originalTransactionId).map SubscriptionRow.paymentCode⟩)

/-- Client-initiated verification right after a purchase. -/
def verifyPurchase (code : String) (txn : Option Transaction) (sandbox : Bool) :
    List Write × Outcome :=
  match txn with
  | none => ([], refuse "verification_failed")
  | some txn =>
      match daysForProduct c txn.productId with
      | none => ([], refuse "unknown_product")
      | some days =>
          let expected := c.uuidForCode code
          if (truthy txn.appAccountToken).map String.toLower ≠ some expected then
            ([], refuse "app_account_token_mismatch")
          else
            match truthy txn.transactionId, truthy txn.originalTransactionId with
            | some transactionId, some originalTransactionId =>
                let out := settle c s ((ownerOf s txn (some code)).getD code) transactionId
                  originalTransactionId txn.expiresDate sandbox days
                ([.mapAppleToken expected code] ++ out.1 ++
                    [.processed (.appleVerify code txn sandbox)],
                  out.2)
            | _, _ => ([], refuse "missing_transaction_ids")

/-- Whose code the token of a claim names; a token that was never mapped
stands in as that owner. -/
def claimPurchaser (code : String) (txn : Transaction) : Option String :=
  txn.appAccountToken.map fun token =>
    if token.toLower = c.uuidForCode code then code
    else (s.subs.codeForAppleToken token.toLower).getD token.toLower

/-- Client-initiated claim: the transaction must be live, and its owner is
resolved rather than required to match the token. -/
def claimPurchase (code : String) (transfer : Bool) (txn : Option Transaction)
    (sandbox : Bool) : List Write × Outcome :=
  match txn with
  | none => ([], refuse "verification_failed")
  | some txn =>
      match daysForProduct c txn.productId with
      | none => ([], refuse "unknown_product")
      | some days =>
          match truthy txn.transactionId, truthy txn.originalTransactionId with
          | some transactionId, some originalTransactionId =>
              if txn.revocationDate ≠ none ∨ txn.isUpgraded = some true then
                ([], refuse "revoked")
              else
                match txn.expiresDate.filter (· > s.nowMs) with
                | none => ([], refuse "expired")
                | some expiresMs =>
                    let expected := c.uuidForCode code
                    let owner := ownerOf s txn (claimPurchaser c s code txn)
                    if owner = none ∨ owner = some code then
                      let out := settle c s code transactionId originalTransactionId
                        (some expiresMs) sandbox days
                      ([.mapAppleToken expected code] ++ out.1,
                        { out.2 with transferred := some false })
                    else if !transfer then ([], refuse "owned_by_other_device")
                    else
                      let known := s.subs.get .apple originalTransactionId
                      match transferAvailableAt (known.bind SubscriptionRow.transferredAt)
                          s.nowS with
                      | some availableAt =>
                          ([], { refuse "transfer_too_soon" with availableAt := some availableAt })
                      | none =>
                          let moved := transferTo c s code originalTransactionId
                            (planForDays days) expiresMs sandbox .user
                          ([.mapAppleToken expected code] ++ moved.1,
                            moved.2.transferred sandbox)
          | _, _ => ([], refuse "missing_transaction_ids")

/-- Support override; the period is that of the last verified transaction. -/
def adminRebind (originalTransactionId code : String) (grantRemaining : Bool) :
    List Write × RebindOutcome :=
  match s.subs.get .apple originalTransactionId with
  | none => ([], { ok := false, reason := "not_found" })
  | some known =>
      if !grantRemaining then
        ([.rebind .apple originalTransactionId code known.plan .admin 0],
          reboundOnly (some known.paymentCode))
      else if known.status ≠ .active then ([], { ok := false, reason := "not_active" })
      else
        match known.appleExpiresMs.filter (· > s.nowMs) with
        | none => ([], { ok := false, reason := "no_current_period" })
        | some expiresMs =>
            let sandbox := known.appleSandbox = some true
            let moved := transferTo c s code originalTransactionId known.plan expiresMs sandbox
              .admin
            (moved.1, moved.2.rebound sandbox)

/-- The notifications that a period was bought. -/
def grantTypes : List String := ["SUBSCRIBED", "DID_RENEW", "OFFER_REDEEMED"]

/-- A notification after its transaction is decoded; a grant type settles as
a verify does. -/
def notified (type : String) (sandbox : Bool) (txn : Option Transaction) :
    List Write × String :=
  match txn with
  | none => ([], "notification:bad-transaction")
  | some txn =>
      match truthy txn.originalTransactionId with
      | none => ([], "notification:bad-transaction")
      | some originalTransactionId =>
          if type = "REFUND" then
            ([.setStatus .apple originalTransactionId .refunded], "notification:refund")
          else if type = "EXPIRED" then
            ([.setStatus .apple originalTransactionId .canceled], "notification:expired")
          else if type = "DID_FAIL_TO_RENEW" then
            ([.setStatus .apple originalTransactionId .onHold], "notification:did_fail_to_renew")
          else if type ∉ grantTypes then ([], "notification:ignored:" ++ type)
          else
            match truthy (ownerOf s txn
                ((truthy txn.appAccountToken).bind s.subs.codeForAppleToken)) with
            | none => ([], "notification:code-unknown")
            | some code =>
                match daysForProduct c txn.productId, truthy txn.transactionId with
                | some days, some transactionId =>
                    let out := settle c s code transactionId originalTransactionId
                      txn.expiresDate sandbox days
                    (out.1 ++ [.processed (.appleNotification type txn sandbox)],
                      "notification:" ++ out.2.reason)
                | _, _ => ([], "notification:bad-product")

/-- A notification after it is decoded. -/
def handleNotification (payload : Option Notification) (sandbox : Bool) : Next :=
  match payload with
  | none => .reply (.slug "notification:verification_failed")
  | some payload =>
      let type := payload.notificationType.getD "UNKNOWN"
      if payload.hasTransaction then .wait (.appleNotified type sandbox)
      else .reply (.slug ("notification:" ++ payload.notificationType.getD "undefined" ++
        ":no-transaction"))

end Handlers

/-! ### What the stretches write -/

section Writes

variable {c : RailsConfig} {s : Server} {code originalTransactionId : String}

/-- The grant of a settled period: its own, or the probe of a sandbox. -/
def settleEvent (c : RailsConfig) (code transactionId originalTransactionId : String)
    (sandbox : Bool) (days : Int) : GrantEvent where
  rail := .apple
  eventKey :=
    if sandbox && !c.apple.sandboxGrants then "sandbox:" ++ originalTransactionId
    else transactionId
  externalRef := originalTransactionId
  paymentCode := code
  days := if sandbox && !c.apple.sandboxGrants then c.apple.sandboxGrantDays else days

/-- A settled period binds the subscription first; the rest notes the period
and grants it. -/
lemma settle_eq {transactionId : String} {expiresMs : Option Int} {sandbox : Bool} {days : Int} :
    ∃ rest, (settle c s code transactionId originalTransactionId expiresMs sandbox days).1 =
        .upsert .apple originalTransactionId code (planForDays days) none :: rest ∧
      ∀ w ∈ rest, (∃ e, expiresMs = some e ∧
          w = .noteAppleExpiry originalTransactionId e sandbox) ∨
        w = .payment (newPayment c
          (settleEvent c code transactionId originalTransactionId sandbox days)) := by
  have hnote : ∀ w ∈ (expiresMs.map fun e =>
      Write.noteAppleExpiry originalTransactionId e sandbox).toList,
      ∃ e, expiresMs = some e ∧ w = .noteAppleExpiry originalTransactionId e sandbox := by
    intro w hw
    obtain ⟨e, he, rfl⟩ := Option.map_eq_some_iff.mp (Option.mem_toList.mp hw)
    exact ⟨e, he, rfl⟩
  simp only [settle]
  split
  · rename_i hprobe
    refine ⟨_, rfl, fun w hw => ?_⟩
    rcases List.mem_append.mp hw with hw | hw
    · exact Or.inl (hnote w hw)
    · right
      simp only [sandboxGrant] at hw
      split at hw
      · cases hw
      · simp only [settleEvent, if_pos hprobe]
        exact (mem_recordGrant hw).1
  · rename_i hprobe
    refine ⟨_, rfl, fun w hw => ?_⟩
    rcases List.mem_append.mp hw with hw | hw
    · exact Or.inl (hnote w hw)
    · right
      simp only [settleEvent, if_neg hprobe]
      exact (mem_recordGrant hw).1

/-- The period that a transaction bought. -/
structure Bought (c : RailsConfig) (txn : Transaction) (days : Int)
    (transactionId originalTransactionId : String) : Prop where
  days : daysForProduct c txn.productId = some days
  transactionId : truthy txn.transactionId = some transactionId
  originalTransactionId : truthy txn.originalTransactionId = some originalTransactionId

/-- A verify maps the token and settles the period, or writes nothing. -/
lemma verifyPurchase_writes {txn : Option Transaction} {sandbox : Bool} :
    (verifyPurchase c s code txn sandbox).1 = [] ∨
      ∃ t days transactionId orig, txn = some t ∧ Bought c t days transactionId orig ∧
        (truthy t.appAccountToken).map String.toLower = some (c.uuidForCode code) ∧
        (verifyPurchase c s code txn sandbox).1 =
          .mapAppleToken (c.uuidForCode code) code ::
            ((settle c s ((ownerOf s t (some code)).getD code) transactionId orig t.expiresDate
              sandbox days).1 ++ [.processed (.appleVerify code t sandbox)]) := by
  rw [verifyPurchase.eq_def]
  split
  · exact Or.inl rfl
  · rename_i t
    split
    · exact Or.inl rfl
    · rename_i days hdays
      dsimp only
      split
      · exact Or.inl rfl
      · rename_i htoken
        split
        · rename_i transactionId orig hid horig
          exact Or.inr ⟨t, days, transactionId, orig, rfl, ⟨hdays, hid, horig⟩,
            not_not.mp htoken, rfl⟩
        · exact Or.inl rfl

/-- A claim settles a period that nobody else owns, or moves a subscription
that may move, or writes nothing. -/
lemma claimPurchase_writes {transfer : Bool} {txn : Option Transaction} {sandbox : Bool} :
    (claimPurchase c s code transfer txn sandbox).1 = [] ∨
      ∃ t days transactionId orig expiresMs, txn = some t ∧
        Bought c t days transactionId orig ∧ t.expiresDate = some expiresMs ∧
        ((ownerOf s t (claimPurchaser c s code t) = none ∨
            ownerOf s t (claimPurchaser c s code t) = some code) ∧
          (claimPurchase c s code transfer txn sandbox).1 =
            .mapAppleToken (c.uuidForCode code) code ::
              (settle c s code transactionId orig (some expiresMs) sandbox days).1 ∨
        transferAvailableAt
            ((s.subs.get .apple orig).bind SubscriptionRow.transferredAt) s.nowS = none ∧
          (claimPurchase c s code transfer txn sandbox).1 =
            .mapAppleToken (c.uuidForCode code) code ::
              (transferTo c s code orig (planForDays days) expiresMs sandbox .user).1) := by
  rw [claimPurchase.eq_def]
  split
  · exact Or.inl rfl
  · rename_i t
    split
    · exact Or.inl rfl
    · rename_i days hdays
      split
      · rename_i transactionId orig hid horig
        split
        · exact Or.inl rfl
        · split
          · exact Or.inl rfl
          · rename_i expiresMs hexpires
            have hbought : Bought c t days transactionId orig := ⟨hdays, hid, horig⟩
            have hends : t.expiresDate = some expiresMs := (Option.filter_eq_some_iff.mp hexpires).1
            dsimp only
            split
            · rename_i howner
              exact Or.inr ⟨t, days, transactionId, orig, expiresMs, rfl, hbought, hends,
                Or.inl ⟨howner, rfl⟩⟩
            · split
              · exact Or.inl rfl
              · split
                · exact Or.inl rfl
                · rename_i havailable
                  exact Or.inr ⟨t, days, transactionId, orig, expiresMs, rfl, hbought, hends,
                    Or.inr ⟨havailable, rfl⟩⟩
      · exact Or.inl rfl

/-- A support rebind moves the subscription, with or without the rest of the
period that was noted last, or writes nothing. -/
lemma adminRebind_writes {grantRemaining : Bool} :
    (adminRebind c s originalTransactionId code grantRemaining).1 = [] ∨
      ∃ known, s.subs.get .apple originalTransactionId = some known ∧
        ((adminRebind c s originalTransactionId code grantRemaining).1 =
            [.rebind .apple originalTransactionId code known.plan .admin 0] ∨
          grantRemaining = true ∧ known.status = .active ∧
            ∃ expiresMs, known.appleExpiresMs = some expiresMs ∧
            (adminRebind c s originalTransactionId code grantRemaining).1 =
              (transferTo c s code originalTransactionId known.plan expiresMs
                (known.appleSandbox = some true) .admin).1) := by
  rw [adminRebind.eq_def]
  split
  · exact Or.inl rfl
  · rename_i known hknown
    split
    · exact Or.inr ⟨known, hknown, Or.inl rfl⟩
    · rename_i hgrant
      split
      · exact Or.inl rfl
      · rename_i hactive
        split
        · exact Or.inl rfl
        · rename_i expiresMs hexpires
          exact Or.inr ⟨known, hknown, Or.inr ⟨by simpa using hgrant, not_not.mp hactive,
            expiresMs, (Option.filter_eq_some_iff.mp hexpires).1, rfl⟩⟩

/-- A notification sets the status, or settles the period for the owner, or
writes nothing. -/
lemma notified_writes {type : String} {sandbox : Bool} {txn : Option Transaction} :
    (notified c s type sandbox txn).1 = [] ∨
      (∃ orig status, (notified c s type sandbox txn).1 = [.setStatus .apple orig status]) ∨
      ∃ t days transactionId orig owner, txn = some t ∧ Bought c t days transactionId orig ∧
        type ∈ grantTypes ∧
        truthy (ownerOf s t ((truthy t.appAccountToken).bind s.subs.codeForAppleToken)) =
          some owner ∧
        (notified c s type sandbox txn).1 =
          (settle c s owner transactionId orig t.expiresDate sandbox days).1 ++
            [.processed (.appleNotification type t sandbox)] := by
  rw [notified.eq_def]
  split
  · exact Or.inl rfl
  · rename_i t
    split
    · exact Or.inl rfl
    · rename_i orig horig
      split
      · exact Or.inr (Or.inl ⟨orig, _, rfl⟩)
      · split
        · exact Or.inr (Or.inl ⟨orig, _, rfl⟩)
        · split
          · exact Or.inr (Or.inl ⟨orig, _, rfl⟩)
          · split
            · exact Or.inl rfl
            · rename_i htype
              split
              · exact Or.inl rfl
              · rename_i owner howner
                split
                · rename_i days transactionId hdays hid
                  exact Or.inr (Or.inr ⟨t, days, transactionId, orig, owner, rfl,
                    ⟨hdays, hid, horig⟩, not_not.mp htype, howner, rfl⟩)
                · exact Or.inl rfl

end Writes

end CumulusVpn.Bridge.Rails.Apple
