/-
Vouchers and their redemption (`bridge/src/db/vouchers.ts`, the voucher
routes of `bridge/src/server.ts`, `trackDiscountRedemption` of
`bridge/src/rails/stripe.ts`).

* `VoucherRow`, `RedemptionRow`, `Tables`: the tables, with the payments they
  point at;
* `Tx`, `statement`: the statements of a transaction, any of which may fail;
* `createBatch`, `redeemGrant`, `recordDiscountRedemption`, `revoke`: the
  repository;
* `createVouchers`, `redeem`, `trackDiscountRedemption`: its callers;
* `step`: the vouchers beside the workers and the other rails.
-/
import CumulusVpn.Bridge.Transfers
import CumulusVpn.Bridge.Worker
import CumulusVpn.Lib.Transaction
import CumulusVpn.Split.Cidr

namespace CumulusVpn.Bridge.Vouchers

open StepSystem

/-- What a voucher gives: days, or a discount at Stripe. -/
inductive VoucherType
  | grantDays
  | stripeDiscount
deriving DecidableEq, Repr

/-- Whether a voucher may be redeemed. -/
inductive VoucherStatus
  | active
  | revoked
deriving DecidableEq, Repr

/-- A row of the `vouchers` table. -/
structure VoucherRow where
  id : Nat
  code : String
  type : VoucherType
  value : Int
  campaign : String
  maxRedemptions : Int
  redemptionCount : Nat
  perCodeLimit : Int
  expiresAt : Option Int
  status : VoucherStatus
  stripeCouponId : Option String
  stripePromoId : Option String
  createdAt : Int
deriving DecidableEq, Repr

/-- A row of the `voucher_redemptions` table. -/
structure RedemptionRow where
  id : Nat
  voucherId : Nat
  paymentCode : String
  paymentId : Option Nat
  redeemedAt : Int
deriving DecidableEq, Repr

/-- The tables that a redemption reads and writes. -/
structure Tables where
  vouchers : List VoucherRow
  redemptions : List RedemptionRow
  payments : Db

/-- What the vouchers are set to. -/
structure VoucherConfig where
  bridge : Config
  priceZats : Int
  dayGrantsEnabled : Bool
  /-- the Stripe rail is configured -/
  stripeEnabled : Bool
  /-- `String.prototype.toUpperCase` -/
  toUpperCase : String → String

/-! ### Codes -/

/-- No `0`, `O`, `1`, `I` or `L`. -/
def codeAlphabet : List Char := "23456789ABCDEFGHJKMNPQRSTUVWXYZ".toList

/-- The length of a generated code. -/
def generatedLen : Nat := 10

/-- The canonical form of a typed code, if it can be one. -/
def normalizeCode (c : VoucherConfig) (input : String) : Option String :=
  let s := (c.toUpperCase input).toList.filter fun ch => ¬ (Split.isSpace ch ∨ ch = '-')
  let s := if "CVPN".toList <+: s ∧ s.length > generatedLen then s.drop 4 else s
  if s.length < 6 ∨ s.length > 20 then none
  else if s.all fun ch => codeAlphabet.contains ch then some (String.ofList s)
  else none

/-! ### Transactions -/

/-- `RedeemError`, as `redeemGrant` throws it. -/
inductive RedeemReason
  | exhausted
  | alreadyRedeemed
deriving DecidableEq, Repr

/-- What a transaction fails with. -/
inductive TxError
  | redeem (reason : RedeemReason)
  /-- a statement failed -/
  | sqlite
deriving DecidableEq, Repr

/-- A statement of a transaction over the tables. -/
abbrev Tx (α : Type) := Transaction.Tx Tables TxError α

/-- Statement `n` of a transaction whose statement `fault` fails. -/
def statement {α : Type} (fault : Option Nat) (n : Nat) (stmt : Tx α) : Tx α :=
  Transaction.statement .sqlite fault n stmt

/-! ### The repository -/

namespace Tables

/-- The voucher of a code in its canonical form. -/
def byCanonicalCode (t : Tables) (code : String) : Option VoucherRow :=
  t.vouchers.find? fun v => v.code = code

/-- The voucher of a promotion code at Stripe. -/
def byStripePromoId (t : Tables) (promoId : String) : Option VoucherRow :=
  t.vouchers.find? fun v => v.stripePromoId = some promoId

/-- The voucher of a coupon at Stripe. -/
def byStripeCouponId (t : Tables) (couponId : String) : Option VoucherRow :=
  t.vouchers.find? fun v => v.stripeCouponId = some couponId

/-- The number that the next row gets. -/
def nextVoucherId (t : Tables) : Nat := (t.vouchers.map VoucherRow.id).foldr max 0 + 1

/-- The number that the next row gets. -/
def nextRedemptionId (t : Tables) : Nat := (t.redemptions.map RedemptionRow.id).foldr max 0 + 1

/-- Redemptions a payment code already holds across a campaign. -/
def campaignRedemptions (t : Tables) (campaign paymentCode : String) : Nat :=
  t.redemptions.countP fun r =>
    r.paymentCode = paymentCode ∧ ∃ v ∈ t.vouchers, v.id = r.voucherId ∧ v.campaign = campaign

/-- `UPDATE vouchers … WHERE id = ?`. -/
def updateVoucher (t : Tables) (id : Nat) (f : VoucherRow → VoucherRow) : Tables :=
  { t with vouchers := t.vouchers.map fun v => if v.id = id then f v else v }

end Tables

/-- The voucher with one redemption more. -/
def VoucherRow.count (v : VoucherRow) : VoucherRow :=
  { v with redemptionCount := v.redemptionCount + 1 }

/-- What a batch of vouchers is created with. -/
structure CreateVouchersInput where
  type : VoucherType
  value : Int
  campaign : String
  maxRedemptions : Int
  perCodeLimit : Int
  expiresAt : Option Int
deriving DecidableEq, Repr

/-- What Stripe answers for a batch of discounts. -/
structure StripeIds where
  couponId : String
  promoIds : List String
deriving DecidableEq, Repr

/-- One row of a batch; `UNIQUE (code)` and the checks of the table. -/
def insertVoucher (input : CreateVouchersInput) (couponId : Option String) (now : Int)
    (code : String) (promoId : Option String) : Tx Unit := fun t =>
  if t.vouchers.any fun v => v.code = code then .error .sqlite
  else if input.value < 1 ∨ input.maxRedemptions < 1 then .error .sqlite
  else
    .ok ((), { t with
      vouchers := t.vouchers ++
        [{ id := t.nextVoucherId
           code := code
           type := input.type
           value := input.value
           campaign := input.campaign
           maxRedemptions := input.maxRedemptions
           redemptionCount := 0
           perCodeLimit := input.perCodeLimit
           expiresAt := input.expiresAt
           status := .active
           stripeCouponId := couponId
           stripePromoId := promoId
           createdAt := now }] })

/-- The rows of a batch from index `i` on. -/
def insertVouchers (fault : Option Nat) (input : CreateVouchersInput) (ids : Option StripeIds)
    (now : Int) : Nat → List String → Tx Unit
  | _, [], t => .ok ((), t)
  | i, code :: codes, t => do
      let ((), t) ← statement fault i
        (insertVoucher input (ids.map StripeIds.couponId) now code
          (ids.bind fun ids => ids.promoIds[i]?)) t
      insertVouchers fault input ids now (i + 1) codes t

/-- A batch is inserted in one transaction: all of its codes or none. -/
def createBatch (fault : Option Nat) (input : CreateVouchersInput) (codes : List String)
    (ids : Option StripeIds) (now : Int) : Tables → Except TxError Unit × Tables :=
  Transaction.run (insertVouchers fault input ids now 0 codes)

/-- A voucher is revoked. -/
def revoke (t : Tables) (id : Nat) : Tables :=
  t.updateVoucher id fun v => { v with status := .revoked }

/-- The limit of a campaign on one payment code. -/
def checkCampaign (voucher : VoucherRow) (paymentCode : String) : Tx Unit := fun t =>
  if voucher.campaign ≠ "" ∧ voucher.perCodeLimit > 0 ∧
      (t.campaignRedemptions voucher.campaign paymentCode : Int) ≥ voucher.perCodeLimit then
    .error (.redeem .alreadyRedeemed)
  else .ok ((), t)

/-- A voucher that the guarded `UPDATE` takes. -/
def VoucherRow.Redeemable (v : VoucherRow) (now : Int) : Prop :=
  v.status = .active ∧ (v.redemptionCount : Int) < v.maxRedemptions ∧
    ∀ e, v.expiresAt = some e → now < e

instance (v : VoucherRow) (now : Int) : Decidable (v.Redeemable now) :=
  inferInstanceAs (Decidable (_ ∧ _ ∧ ∀ e, v.expiresAt = some e → now < e))

/-- The atomic check-and-increment. -/
def consume (id : Nat) (now : Int) : Tx Unit := fun t =>
  if t.vouchers.any fun v => v.id = id ∧ v.Redeemable now then
    .ok ((), { t with
      vouchers := t.vouchers.map fun v => if v.id = id ∧ v.Redeemable now then v.count else v })
  else .error (.redeem .exhausted)

/-- `INSERT INTO voucher_redemptions`, with the key of `UNIQUE (voucher_id,
payment_code)`. -/
def insertRedemption (voucherId : Nat) (paymentCode : String) (paymentId : Option Nat)
    (now : Int) : Tx Nat := fun t =>
  if t.redemptions.any fun r => r.voucherId = voucherId ∧ r.paymentCode = paymentCode then
    .error .sqlite
  else
    .ok (t.nextRedemptionId, { t with
      redemptions := t.redemptions ++
        [⟨t.nextRedemptionId, voucherId, paymentCode, paymentId, now⟩] })

/-- Any failure of the insert reads as a used code. -/
def orRedeemed {α : Type} (tx : Tx α) : Tx α := fun t =>
  match tx t with
  | .ok r => .ok r
  | .error _ => .error (.redeem .alreadyRedeemed)

/-- The key of a redemption in the payments queue. -/
def redemptionKey (voucherId : Nat) (paymentCode : String) : String :=
  toString voucherId ++ ":" ++ paymentCode

/-- The payment of a redemption. -/
def redemptionPayment (c : VoucherConfig) (voucher : VoucherRow) (paymentCode : String) :
    NewPayment where
  rail := .voucher
  eventKey := redemptionKey voucher.id paymentCode
  externalRef := "voucher:" ++ voucher.code
  paymentCode := paymentCode
  days := voucher.value
  fluxZats := zatsForDays c.priceZats voucher.value

/-- A payment is queued, unless its event has been. -/
def enqueue (p : NewPayment) (now : Int) : Tx (Option Nat) := fun t =>
  .ok ((t.payments.insertIdempotent p now).2,
    { t with payments := (t.payments.insertIdempotent p now).1 })

/-- `UPDATE voucher_redemptions SET payment_id = ?`, unless the payment was
already there. -/
def linkPayment (redemptionId : Nat) (paymentId : Option Nat) : Tx Unit := fun t =>
  match paymentId with
  | none => .ok ((), t)
  | some paymentId =>
      .ok ((), { t with
        redemptions := t.redemptions.map fun r =>
          if r.id = redemptionId then { r with paymentId := some paymentId } else r })

/-- Consumes a grant voucher for a payment code and enqueues the grant;
statement `fault` fails. -/
def redeemGrant (c : VoucherConfig) (fault : Option Nat) (voucher : VoucherRow)
    (paymentCode : String) (now : Int) : Tables → Except TxError Nat × Tables :=
  Transaction.run fun t => do
    let ((), t) ← statement fault 0 (checkCampaign voucher paymentCode) t
    let ((), t) ← statement fault 1 (consume voucher.id now) t
    let (redemptionId, t) ←
      orRedeemed (statement fault 2 (insertRedemption voucher.id paymentCode none now)) t
    let (paymentId, t) ←
      statement fault 3 (enqueue (redemptionPayment c voucher paymentCode) now) t
    let ((), t) ← statement fault 4 (linkPayment redemptionId paymentId) t
    return (redemptionId, t)

/-- `INSERT OR IGNORE`: whether the row is new. -/
def insertOrIgnore (voucherId : Nat) (paymentCode : String) (paymentId : Option Nat)
    (now : Int) : Tx Bool := fun t =>
  match insertRedemption voucherId paymentCode paymentId now t with
  | .ok (_, t') => .ok (true, t')
  | .error _ => .ok (false, t)

/-- Records a discount seen on a paid invoice; counted on first sight. -/
def recordDiscountRedemption (fault : Option Nat) (voucherId : Nat) (paymentCode : String)
    (paymentId : Option Nat) (now : Int) : Tables → Except TxError Bool × Tables :=
  Transaction.run fun t => do
    let (fresh, t) ←
      statement fault 0 (insertOrIgnore voucherId paymentCode paymentId now) t
    if fresh then
      let ((), t) ←
        statement fault 1 (fun t => .ok ((), t.updateVoucher voucherId VoucherRow.count)) t
      return (true, t)
    else return (false, t)

/-! ### The routes -/

/-- What a redemption asks for. -/
structure RedeemRequest where
  paymentCode : String
  code : String
deriving DecidableEq, Repr

/-- What it is answered. -/
inductive RedeemReply
  | rateLimited
  | badCode
  | invalid
  | expired
  | exhausted
  | temporarilyUnavailable
  /-- a `RedeemError` -/
  | rejected (reason : RedeemReason)
  /-- any other exception -/
  | failed
  | discount (percentOff : Int)
  | granted (days : Int)
deriving DecidableEq, Repr

/-- `POST /v1/voucher/redeem`, with the state of the breaker. -/
def redeem (c : VoucherConfig) (fault : Option Nat) (breakerOpen : Bool) (req : RedeemRequest)
    (now : Int) (t : Tables) : RedeemReply × Tables :=
  if breakerOpen then (.rateLimited, t)
  else if ¬ c.bridge.isValidPaymentCode req.paymentCode then (.badCode, t)
  else
    match (normalizeCode c req.code).bind t.byCanonicalCode with
    | none => (.invalid, t)
    | some voucher =>
        if voucher.status = .revoked then (.invalid, t)
        else if voucher.expiresAt.any fun e => e ≤ now then (.expired, t)
        else if (voucher.redemptionCount : Int) ≥ voucher.maxRedemptions then (.exhausted, t)
        else if voucher.type = .stripeDiscount then (.discount voucher.value, t)
        else if voucher.value % 30 ≠ 0 ∧ ¬ c.dayGrantsEnabled then (.temporarilyUnavailable, t)
        else
          match redeemGrant c fault voucher req.paymentCode now t with
          | (.ok _, t') => (.granted voucher.value, t')
          | (.error (.redeem reason), t') => (.rejected reason, t')
          | (.error .sqlite, t') => (.failed, t')

/-- The body of `POST /internal/vouchers`: of an optional field `some none`
says that it is there and no integer. -/
structure CreateRequest where
  type : VoucherType
  value : Option Int
  count : Option (Option Int)
  code : Option String
  campaign : String
  maxRedemptions : Option (Option Int)
  perCodeLimit : Option (Option Int)
  expiresAt : Option Int
deriving DecidableEq, Repr

/-- `/^[\w][\w .:-]{0,39}$/`, or empty. -/
def campaignOk (campaign : String) : Bool :=
  let word := fun ch : Char => ch.isAlphanum ∨ ch = '_'
  match campaign.toList with
  | [] => true
  | ch :: chs =>
      word ch ∧ chs.length ≤ 39 ∧ chs.all fun ch => word ch ∨ [' ', '.', ':', '-'].contains ch

/-- What the route checks of a request, and the codes of the batch: the
admin's own, or `generated` ones. -/
def createVouchers (c : VoucherConfig) (req : CreateRequest) (generated : List String)
    (t : Tables) : Option (CreateVouchersInput × List String) :=
  match req.value, req.maxRedemptions.getD (some 1), req.perCodeLimit.getD (some 1) with
  | some value, some maxRedemptions, some perCodeLimit =>
      if value < 1 ∨ (req.type = .grantDays ∧ value > 360) ∨ ¬ campaignOk req.campaign ∨
          maxRedemptions < 1 ∨ maxRedemptions > 100000 ∨ perCodeLimit < 0 ∨ perCodeLimit > 1000 ∨
          (req.type = .stripeDiscount ∧ (value > 100 ∨ ¬ c.stripeEnabled)) ∨
          (req.type = .grantDays ∧ value % 30 ≠ 0 ∧ ¬ c.dayGrantsEnabled) then none
      else
        let input : CreateVouchersInput :=
          ⟨req.type, value, req.campaign, maxRedemptions, perCodeLimit,
            req.expiresAt.filter fun e => e ≠ 0⟩
        match req.code.filter fun code => code ≠ "" with
        | some code =>
            if req.count.getD (some 1) ≠ some 1 then none
            else
              match normalizeCode c code with
              | none => none
              | some canonical =>
                  if (req.type = .grantDays ∧ canonical.length < 8) ∨
                      (t.byCanonicalCode canonical).isSome then none
                  else some (input, [canonical])
        | none =>
            match req.count.join with
            | none => none
            | some count =>
                if count < 1 ∨ count > 1000 ∨ (generated.length : Int) ≠ count then none
                else some (input, generated)
  | _, _, _ => none

/-- The voucher of the discounts on an invoice: by promotion code first, then
by coupon. -/
def discountVoucher (t : Tables) (promoIds couponIds : List String) : Option VoucherRow :=
  (promoIds.findSome? t.byStripePromoId).or (couponIds.findSome? t.byStripeCouponId)

/-- Attributes a discounted invoice to a voucher; failures are swallowed. -/
def trackDiscountRedemption (fault : Option Nat) (promoIds couponIds : List String)
    (code : String) (now : Int) (t : Tables) : Tables :=
  match discountVoucher t promoIds couponIds with
  | none => t
  | some voucher => (recordDiscountRedemption fault voucher.id code none now t).2

/-! ### The system -/

/-- The bridge with its vouchers. -/
structure Server where
  vouchers : List VoucherRow
  redemptions : List RedemptionRow
  /-- the payments, the workers and the chain -/
  workers : System
  /-- discount batches that await their Stripe codes -/
  provisioning : List (CreateVouchersInput × List String)

namespace Server

/-- No vouchers, beside empty tables. -/
def init (height : Int) : Server := ⟨[], [], System.init height, []⟩

/-- The tables that a transaction works on. -/
def tables (s : Server) : Tables := ⟨s.vouchers, s.redemptions, s.workers.db⟩

/-- The server after a transaction. -/
def withTables (s : Server) (t : Tables) : Server :=
  { s with
    vouchers := t.vouchers
    redemptions := t.redemptions
    workers := { s.workers with db := t.payments } }

@[simp] lemma tables_withTables (s : Server) (t : Tables) : (s.withTables t).tables = t := rfl

@[simp] lemma withTables_provisioning (s : Server) (t : Tables) :
    (s.withTables t).provisioning = s.provisioning := rfl

end Server

/-- A request, an answer of Stripe's, or a step of the workers. -/
inductive Event
  | create (req : CreateRequest) (generated : List String) (fault : Option Nat) (now : Int)
  /-- Stripe's answer for one of the batches that await theirs -/
  | provisioned (i : Nat) (ids : Option StripeIds) (fault : Option Nat) (now : Int)
  | redeem (req : RedeemRequest) (breakerOpen : Bool) (fault : Option Nat) (now : Int)
  /-- a paid invoice with these discounts -/
  | discount (promoIds couponIds : List String) (code : String) (fault : Option Nat) (now : Int)
  | revoke (id : Nat)
  /-- the workers, the chain and the grants of the other rails -/
  | worker (a : Action)
  /-- the process dies and starts again -/
  | crash

/-- The grants of the other rails. -/
def OtherRail : Action → Prop
  | .grant p _ => p.rail ≠ .voucher
  | _ => True

instance (a : Action) : Decidable (OtherRail a) := by
  cases a with
  | grant p now => exact inferInstanceAs (Decidable (p.rail ≠ .voucher))
  | _ => exact inferInstanceAs (Decidable True)

/-- One stretch between two awaits. -/
def step (c : VoucherConfig) (s : Server) : Event → Option Server
  | .create req generated fault now =>
      match createVouchers c req generated s.tables with
      | none => some s
      | some (input, codes) =>
          if input.type = .stripeDiscount then
            some { s with provisioning := s.provisioning ++ [(input, codes)] }
          else some (s.withTables (createBatch fault input codes none now s.tables).2)
  | .provisioned i ids fault now =>
      match s.provisioning[i]? with
      | none => none
      | some (input, codes) =>
          let s := { s with provisioning := s.provisioning.eraseIdx i }
          match ids with
          | none => some s
          | some ids =>
              some (s.withTables (createBatch fault input codes (some ids) now s.tables).2)
  | .redeem req breakerOpen fault now =>
      some (s.withTables (redeem c fault breakerOpen req now s.tables).2)
  | .discount promoIds couponIds code fault now =>
      some (s.withTables (trackDiscountRedemption fault promoIds couponIds code now s.tables))
  | .revoke id => some (s.withTables (revoke s.tables id))
  | .worker a =>
      if OtherRail a then
        (anyStep c.bridge s.workers a).map fun workers => { s with workers := workers }
      else none
  | .crash =>
      some { s with
        provisioning := []
        workers := { s.workers with broadcaster := .idle, confirmer := .idle } }

end CumulusVpn.Bridge.Vouchers
