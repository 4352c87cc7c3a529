/-
The voucher accounts (`bridge/src/db/vouchers.ts`).

* `Accounted`: what the tables say of the redemptions of each voucher;
* `redeemGrant_ok`, `recordDiscountRedemption_ok`: what a transaction that
  commits leaves behind;
* `Books`: the invariant, with the keys and the links between the tables;
  `Books.redeem`: one more redemption keeps it;
* `voucher_accounting`: **the accounts hold in every reachable state, and no
  redemption exceeds the limit of its campaign**.
-/
import CumulusVpn.Bridge.Vouchers

namespace CumulusVpn.Bridge.Vouchers

open StepSystem Transaction

/-! ### The accounts -/

/-- The redemptions of a voucher. -/
def Tables.redeemed (t : Tables) (v : VoucherRow) : Nat :=
  t.redemptions.countP fun r => r.voucherId = v.id

/-- Who redeemed what. -/
def RedemptionRow.pair (r : RedemptionRow) : Nat × String := (r.voucherId, r.paymentCode)

/-- The redemption points at one payment of the voucher's days, and is the
only one to do so. -/
def PaidOnce (t : Tables) (v : VoucherRow) (r : RedemptionRow) : Prop :=
  ∃ p ∈ t.payments.payments, r.paymentId = some p.id ∧ p.rail = .voucher ∧
    p.paymentCode = r.paymentCode ∧ p.days = v.value ∧
    (∀ p' ∈ t.payments.payments, p'.id = p.id → p' = p) ∧
    ∀ r' ∈ t.redemptions, r'.paymentId = some p.id → r' = r

/-- The vouchers are redeemed as often as they count, no more than they may be,
once by a code, and every grant is paid for once. -/
structure Accounted (t : Tables) : Prop where
  counted : ∀ v ∈ t.vouchers, v.redemptionCount = t.redeemed v
  capped : ∀ v ∈ t.vouchers, v.type = .grantDays → (t.redeemed v : Int) ≤ v.maxRedemptions
  once : (t.redemptions.map RedemptionRow.pair).Nodup
  paid : ∀ v ∈ t.vouchers, v.type = .grantDays →
    ∀ r ∈ t.redemptions, r.voucherId = v.id → PaidOnce t v r

/-- The limit of the voucher's campaign on a payment code, if it has one. -/
def WithinLimit (t : Tables) (v : VoucherRow) (paymentCode : String) : Prop :=
  v.campaign ≠ "" → 0 < v.perCodeLimit →
    (t.campaignRedemptions v.campaign paymentCode : Int) ≤ v.perCodeLimit

/-! ### Keys -/

/-- A key names one voucher and one payment code. -/
lemma redemptionKey_inj {id id' : Nat} {code code' : String}
    (h : redemptionKey id code = redemptionKey id' code') : id = id' ∧ code = code' := by
  have hlist := congrArg (fun s => s.toList.reverse) h
  simp only [redemptionKey, String.toList_append, List.reverse_append, List.append_assoc] at hlist
  have hid : ∀ n : Nat, ':' ∉ (toString n).toList.reverse := fun n hn =>
    colon_notMem_repr (.ofNat n) (List.mem_reverse.mp hn)
  obtain ⟨hcode, hids⟩ := append_cons_inj_right (hid id) (hid id') hlist
  refine ⟨?_, String.toList_inj.mp (List.reverse_inj.mp hcode)⟩
  exact Int.ofNat_inj.mp (repr_injective (String.toList_inj.mp (List.reverse_inj.mp hids)))

lemma find?_decide {α : Type} {p : α → Prop} [DecidablePred p] {as : List α} {a : α}
    (h : (as.find? fun a => decide (p a)) = some a) : a ∈ as ∧ p a :=
  ⟨List.mem_of_find?_eq_some h, by simpa using List.find?_some h⟩

lemma Tables.lt_nextVoucherId {t : Tables} {v : VoucherRow} (h : v ∈ t.vouchers) :
    v.id < t.nextVoucherId :=
  Nat.lt_succ_of_le (le_foldr_max (List.mem_map_of_mem h))

lemma Tables.lt_nextRedemptionId {t : Tables} {r : RedemptionRow} (h : r ∈ t.redemptions) :
    r.id < t.nextRedemptionId :=
  Nat.lt_succ_of_le (le_foldr_max (List.mem_map_of_mem h))

/-! ### Transactions that commit -/

/-- One more redemption of a voucher, with the payments `db`. -/
def Tables.redeem (t : Tables) (voucherId : Nat) (paymentCode : String) (paymentId : Option Nat)
    (now : Int) (db : Db) : Tables where
  vouchers := (t.updateVoucher voucherId VoucherRow.count).vouchers
  redemptions :=
    t.redemptions ++ [⟨t.nextRedemptionId, voucherId, paymentCode, paymentId, now⟩]
  payments := db

section Commits

variable {c : VoucherConfig} {fault : Option Nat} {t t' : Tables} {paymentCode : String} {now : Int}

lemma checkCampaign_ok {voucher : VoucherRow} {u : Unit}
    (h : checkCampaign voucher paymentCode t = .ok (u, t')) :
    t = t' ∧ (voucher.campaign ≠ "" → 0 < voucher.perCodeLimit →
      (t.campaignRedemptions voucher.campaign paymentCode : Int) < voucher.perCodeLimit) := by
  rw [checkCampaign] at h
  split at h
  · cases h
  · rename_i hlimit
    cases h
    exact ⟨rfl, fun hcampaign hpos => not_le.mp fun hle => hlimit ⟨hcampaign, hpos, hle⟩⟩

/-- The guarded update counts one voucher, which was redeemable. -/
lemma consume_ok {id : Nat} {u : Unit} (keys : (t.vouchers.map VoucherRow.id).Nodup)
    (h : consume id now t = .ok (u, t')) :
    (∃ v ∈ t.vouchers, v.id = id ∧ v.Redeemable now) ∧
      t' = t.updateVoucher id VoucherRow.count := by
  rw [consume] at h
  split at h
  · rename_i hany
    cases h
    obtain ⟨v, hv, hboth⟩ := List.any_eq_true.mp hany
    obtain ⟨hid, hredeemable⟩ := of_decide_eq_true hboth
    refine ⟨⟨v, hv, hid, hredeemable⟩, ?_⟩
    have hcount : (t.vouchers.map fun v => if v.id = id ∧ v.Redeemable now then v.count else v) =
        t.vouchers.map fun v => if v.id = id then v.count else v := by
      refine List.map_congr_left fun v' hv' => ?_
      by_cases hid' : v'.id = id
      · obtain rfl := List.inj_on_of_nodup_map keys hv' hv (hid'.trans hid.symm)
        rw [if_pos ⟨hid', hredeemable⟩, if_pos hid']
      · rw [if_neg fun hand => hid' hand.1, if_neg hid']
    rw [hcount]
    rfl
  · cases h

lemma insertRedemption_ok {voucherId n : Nat} {paymentId : Option Nat}
    (h : insertRedemption voucherId paymentCode paymentId now t = .ok (n, t')) :
    (voucherId, paymentCode) ∉ t.redemptions.map RedemptionRow.pair ∧
      n = t.nextRedemptionId ∧
      t' = { t with
        redemptions := t.redemptions ++ [⟨n, voucherId, paymentCode, paymentId, now⟩] } := by
  rw [insertRedemption] at h
  split at h
  · cases h
  · rename_i hnone
    cases h
    simp only [List.any_eq_true, decide_eq_true_eq, not_exists, not_and] at hnone
    refine ⟨fun hmem => ?_, rfl, rfl⟩
    obtain ⟨r, hr, hpair⟩ := List.mem_map.mp hmem
    exact hnone r hr (congrArg Prod.fst hpair) (congrArg Prod.snd hpair)

/-- A row as inserted and then linked. -/
lemma linkPayment_insert {vouchers : List VoucherRow} {redemptions : List RedemptionRow} {db : Db}
    {r : RedemptionRow} {paymentId : Option Nat} (hnone : r.paymentId = none)
    (hnew : ∀ r' ∈ redemptions, r'.id ≠ r.id) :
    linkPayment r.id paymentId ⟨vouchers, redemptions ++ [r], db⟩ =
      .ok ((), ⟨vouchers, redemptions ++ [{ r with paymentId := paymentId }], db⟩) := by
  cases paymentId with
  | none => rw [linkPayment, ← hnone]
  | some i =>
      have hsame : (redemptions.map fun r' =>
          if r'.id = r.id then { r' with paymentId := some i } else r') = redemptions := by
        rw [List.map_congr_left fun r' hr' => if_neg (hnew r' hr'), List.map_id']
      simp only [linkPayment, List.map_append, hsame, List.map_cons, List.map_nil, if_pos]

/-- A grant that commits. -/
lemma redeemGrant_ok {voucher : VoucherRow} {redemptionId : Nat}
    (keys : (t.vouchers.map VoucherRow.id).Nodup)
    (h : redeemGrant c fault voucher paymentCode now t = (.ok redemptionId, t')) :
    (voucher.campaign ≠ "" → 0 < voucher.perCodeLimit →
        (t.campaignRedemptions voucher.campaign paymentCode : Int) < voucher.perCodeLimit) ∧
      (∃ v ∈ t.vouchers, v.id = voucher.id ∧ v.Redeemable now) ∧
      (voucher.id, paymentCode) ∉ t.redemptions.map RedemptionRow.pair ∧
      t' = t.redeem voucher.id paymentCode
        (t.payments.insertIdempotent (redemptionPayment c voucher paymentCode) now).2 now
        (t.payments.insertIdempotent (redemptionPayment c voucher paymentCode) now).1 := by
  obtain ⟨⟨u₀, t₀⟩, hcheck, h⟩ := bind_eq_ok (run_ok h)
  obtain ⟨⟨u₁, t₁⟩, hconsume, h⟩ := bind_eq_ok h
  obtain ⟨⟨id, t₂⟩, hinsert, h⟩ := bind_eq_ok h
  obtain ⟨⟨paymentId, t₃⟩, henqueue, h⟩ := bind_eq_ok h
  obtain ⟨⟨u₄, t₄⟩, hlink, h⟩ := bind_eq_ok h
  cases h
  obtain ⟨rfl, hlimit⟩ := checkCampaign_ok (of_statement hcheck)
  obtain ⟨hredeemable, rfl⟩ := consume_ok keys (of_statement hconsume)
  rw [orRedeemed] at hinsert
  split at hinsert
  · rename_i r heq
    cases hinsert
    obtain ⟨hnew, hid, rfl⟩ := insertRedemption_ok (of_statement heq)
    cases of_statement henqueue
    have hlt : ∀ r ∈ t.redemptions, r.id ≠ redemptionId := fun r hr =>
      ((Tables.lt_nextRedemptionId hr).trans_eq hid.symm).ne
    have hlinked := (linkPayment_insert rfl hlt).symm.trans (of_statement hlink)
    cases hlinked
    refine ⟨hlimit, hredeemable, hnew, ?_⟩
    rw [hid]
    rfl
  · cases hinsert

/-- A discount that commits is new, or changes nothing. -/
lemma recordDiscountRedemption_ok {voucherId : Nat} {fresh : Bool}
    (h : recordDiscountRedemption fault voucherId paymentCode none now t = (.ok fresh, t')) :
    t' = t ∨ ((voucherId, paymentCode) ∉ t.redemptions.map RedemptionRow.pair ∧
      t' = t.redeem voucherId paymentCode none now t.payments) := by
  obtain ⟨⟨fresh, t₀⟩, hinsert, h⟩ := bind_eq_ok (run_ok h)
  have hinsert := of_statement hinsert
  rw [insertOrIgnore] at hinsert
  split at hinsert
  · rename_i n t₁ heq
    cases hinsert
    obtain ⟨hnew, rfl, rfl⟩ := insertRedemption_ok heq
    obtain ⟨⟨u, t₂⟩, hcount, h⟩ := bind_eq_ok h
    cases h
    cases of_statement hcount
    exact Or.inr ⟨hnew, rfl⟩
  · cases hinsert
    cases h
    exact Or.inl rfl

end Commits

/-! ### The invariant -/

/-- What the accounts read of a payment. -/
def bill (p : PaymentRow) : Nat × (Rail × String) × String × Int :=
  (p.id, p.event, p.paymentCode, p.days)

/-- The event of the payment of a redemption. -/
def RedemptionRow.event (r : RedemptionRow) : Rail × String :=
  (.voucher, redemptionKey r.voucherId r.paymentCode)

/-- What the tables keep between two statements. -/
structure Books (t : Tables) : Prop where
  keys : (t.vouchers.map VoucherRow.id).Nodup
  known : ∀ r ∈ t.redemptions, ∃ v ∈ t.vouchers, v.id = r.voucherId
  plain : ∀ v ∈ t.vouchers, v.type = .grantDays → v.stripePromoId = none ∧ v.stripeCouponId = none
  counted : ∀ v ∈ t.vouchers, v.redemptionCount = t.redeemed v
  capped : ∀ v ∈ t.vouchers, v.type = .grantDays → (v.redemptionCount : Int) ≤ v.maxRedemptions
  once : (t.redemptions.map RedemptionRow.pair).Nodup
  queued : ∀ v ∈ t.vouchers, v.type = .grantDays → ∀ r ∈ t.redemptions, r.voucherId = v.id →
    ∃ i, r.paymentId = some i ∧
      ∃ p ∈ t.payments.payments, bill p = (i, r.event, r.paymentCode, v.value)
  linked : ∀ r ∈ t.redemptions, ∀ i, r.paymentId = some i →
    ∃ p ∈ t.payments.payments, p.id = i ∧ p.event = r.event
  recorded : ∀ p ∈ t.payments.payments, p.rail = .voucher → ∃ r ∈ t.redemptions, p.event = r.event
  paymentKeys : t.payments.HasKeys

namespace Books

lemma nil : Books ⟨[], [], ⟨[], []⟩⟩ where
  keys := List.nodup_nil
  known r hr := by cases hr
  plain v hv := by cases hv
  counted v hv := by cases hv
  capped v hv := by cases hv
  once := List.nodup_nil
  queued v hv := by cases hv
  linked r hr := by cases hr
  recorded p hp := by cases hp
  paymentKeys := List.nodup_nil

variable {t : Tables} (h : Books t)

include h

lemma eq_of_event {r r' : RedemptionRow} (hr : r ∈ t.redemptions) (hr' : r' ∈ t.redemptions)
    (hevent : r.event = r'.event) : r = r' := by
  obtain ⟨hid, hcode⟩ := redemptionKey_inj (congrArg Prod.snd hevent)
  exact List.inj_on_of_nodup_map h.once hr hr' (Prod.ext hid hcode)

/-- The books are the accounts, kept. -/
lemma accounted : Accounted t where
  counted := h.counted
  capped v hv htype := (h.counted v hv) ▸ h.capped v hv htype
  once := h.once
  paid v hv htype r hr hid := by
    obtain ⟨i, hi, p, hp, hbill⟩ := h.queued v hv htype r hr hid
    simp only [bill, Prod.mk.injEq] at hbill
    obtain ⟨rfl, hevent, hcode, hdays⟩ := hbill
    refine ⟨p, hp, hi, congrArg Prod.fst hevent, hcode, hdays, ?_, ?_⟩
    · exact fun p' hp' hsame => h.paymentKeys.eq_of_id hp' hp hsame
    · intro r' hr' hsame
      obtain ⟨p', hp', hid', hevent'⟩ := h.linked r' hr' p.id hsame
      obtain rfl := h.paymentKeys.eq_of_id hp' hp hid'
      exact h.eq_of_event hr' hr (hevent'.symm.trans hevent)

/-- A voucher without redemptions. -/
lemma snoc {v : VoucherRow} (hid : v.id = t.nextVoucherId) (hcount : v.redemptionCount = 0)
    (hmax : 0 ≤ v.maxRedemptions)
    (hplain : v.type = .grantDays → v.stripePromoId = none ∧ v.stripeCouponId = none) :
    Books { t with vouchers := t.vouchers ++ [v] } := by
  have hfresh : ∀ r ∈ t.redemptions, r.voucherId ≠ v.id := by
    intro r hr hsame
    obtain ⟨v', hv', hid'⟩ := h.known r hr
    have hlt := Tables.lt_nextVoucherId hv'
    omega
  refine ⟨?_, ?_, ?_, ?_, ?_, h.once, ?_, h.linked, h.recorded, h.paymentKeys⟩
  · rw [List.map_append, List.nodup_append]
    refine ⟨h.keys, List.nodup_singleton _, ?_⟩
    intro i hi j hj
    obtain ⟨v', hv', rfl⟩ := List.mem_map.mp hi
    obtain rfl : j = v.id := by simpa using hj
    have hlt := Tables.lt_nextVoucherId hv'
    omega
  · intro r hr
    obtain ⟨v', hv', hid'⟩ := h.known r hr
    exact ⟨v', List.mem_append_left _ hv', hid'⟩
  · intro v' hv' htype
    rcases List.mem_append.mp hv' with hv' | hv'
    · exact h.plain v' hv' htype
    · obtain rfl := List.mem_singleton.mp hv'
      exact hplain htype
  · intro v' hv'
    rcases List.mem_append.mp hv' with hv' | hv'
    · exact h.counted v' hv'
    · obtain rfl := List.mem_singleton.mp hv'
      have hzero : t.redeemed v' = 0 := List.countP_eq_zero.mpr fun r hr => by
        simpa using hfresh r hr
      exact hcount.trans hzero.symm
  · intro v' hv' htype
    rcases List.mem_append.mp hv' with hv' | hv'
    · exact h.capped v' hv' htype
    · obtain rfl := List.mem_singleton.mp hv'
      rw [hcount]
      exact hmax
  · intro v' hv' htype r hr hid'
    rcases List.mem_append.mp hv' with hv' | hv'
    · exact h.queued v' hv' htype r hr hid'
    · obtain rfl := List.mem_singleton.mp hv'
      exact absurd hid' (hfresh r hr)

/-- A change of the status of a voucher. -/
lemma revoke (id : Nat) : Books (revoke t id) := by
  have hback : ∀ v' ∈ (Vouchers.revoke t id).vouchers, ∃ v ∈ t.vouchers, v.id = v'.id ∧
      { v with status := v'.status } = v' := by
    intro v' hv'
    obtain ⟨v, hv, rfl⟩ := List.mem_map.mp hv'
    refine ⟨v, hv, ?_⟩
    split <;> exact ⟨rfl, rfl⟩
  have hids : (Vouchers.revoke t id).vouchers.map VoucherRow.id = t.vouchers.map VoucherRow.id := by
    rw [Vouchers.revoke, Tables.updateVoucher, List.map_map]
    refine List.map_congr_left fun v _ => ?_
    rw [Function.comp_apply]
    split <;> rfl
  refine ⟨hids ▸ h.keys, ?_, ?_, ?_, ?_, h.once, ?_, h.linked, h.recorded, h.paymentKeys⟩
  · intro r hr
    obtain ⟨v, hv, hid⟩ := h.known r hr
    have hmem := List.mem_map_of_mem (f := VoucherRow.id) hv
    rw [← hids] at hmem
    obtain ⟨v', hv', hid'⟩ := List.mem_map.mp hmem
    exact ⟨v', hv', hid'.trans hid⟩
  · intro v' hv' htype
    obtain ⟨v, hv, -, hsame⟩ := hback v' hv'
    rw [← hsame] at htype ⊢
    exact h.plain v hv htype
  · intro v' hv'
    obtain ⟨v, hv, -, hsame⟩ := hback v' hv'
    rw [← hsame]
    exact h.counted v hv
  · intro v' hv' htype
    obtain ⟨v, hv, -, hsame⟩ := hback v' hv'
    rw [← hsame] at htype ⊢
    exact h.capped v hv htype
  · intro v' hv' htype r hr hid'
    obtain ⟨v, hv, -, hsame⟩ := hback v' hv'
    rw [← hsame] at htype hid' ⊢
    exact h.queued v hv htype r hr hid'

/-- Payments of which the old ones keep their bills. -/
lemma payments {db : Db} (hkeep : ∀ p ∈ t.payments.payments, ∃ p' ∈ db.payments, bill p' = bill p)
    (hback : ∀ p' ∈ db.payments,
      (∃ p ∈ t.payments.payments, bill p = bill p') ∨ p'.rail ≠ .voucher)
    (hkeys : db.HasKeys) : Books { t with payments := db } := by
  refine ⟨h.keys, h.known, h.plain, h.counted, h.capped, h.once, ?_, ?_, ?_, hkeys⟩
  · intro v hv htype r hr hid
    obtain ⟨i, hi, p, hp, hbill⟩ := h.queued v hv htype r hr hid
    obtain ⟨p', hp', hsame⟩ := hkeep p hp
    exact ⟨i, hi, p', hp', hsame.trans hbill⟩
  · intro r hr i hi
    obtain ⟨p, hp, hid, hevent⟩ := h.linked r hr i hi
    obtain ⟨p', hp', hsame⟩ := hkeep p hp
    simp only [bill, Prod.mk.injEq] at hsame
    exact ⟨p', hp', hsame.1.trans hid, hsame.2.1.trans hevent⟩
  · intro p' hp' hrail
    rcases hback p' hp' with ⟨p, hp, hsame⟩ | hother
    · simp only [bill, Prod.mk.injEq] at hsame
      have hrail' : p.rail = .voucher := (congrArg Prod.fst hsame.2.1).trans hrail
      obtain ⟨r, hr, hevent⟩ := h.recorded p hp hrail'
      exact ⟨r, hr, hsame.2.1.symm.trans hevent⟩
    · exact absurd hrail hother

/-- One more redemption, with its payment if it has one. -/
lemma redeem {v : VoucherRow} {paymentCode : String} {paymentId : Option Nat} {now : Int} {db : Db}
    (hv : v ∈ t.vouchers) (hnew : (v.id, paymentCode) ∉ t.redemptions.map RedemptionRow.pair)
    (hcap : v.type = .grantDays → (v.redemptionCount : Int) < v.maxRedemptions)
    (hkeep : ∀ p ∈ t.payments.payments, p ∈ db.payments)
    (hback : ∀ p' ∈ db.payments, p' ∈ t.payments.payments ∨
      p'.event = (.voucher, redemptionKey v.id paymentCode))
    (hlinked : ∀ i, paymentId = some i →
      ∃ p ∈ db.payments, p.id = i ∧ p.event = (.voucher, redemptionKey v.id paymentCode))
    (hqueued : v.type = .grantDays → ∃ i, paymentId = some i ∧ ∃ p ∈ db.payments,
      bill p = (i, (.voucher, redemptionKey v.id paymentCode), paymentCode, v.value))
    (hkeys : db.HasKeys) : Books (t.redeem v.id paymentCode paymentId now db) := by
  have hmem : ∀ {v'}, v' ∈ (t.redeem v.id paymentCode paymentId now db).vouchers →
      (v' ∈ t.vouchers ∧ v'.id ≠ v.id) ∨ v' = v.count := by
    intro v' hv'
    obtain ⟨v₀, hv₀, rfl⟩ := List.mem_map.mp hv'
    by_cases hid : v₀.id = v.id
    · obtain rfl := List.inj_on_of_nodup_map h.keys hv₀ hv hid
      exact Or.inr (if_pos rfl)
    · rw [if_neg hid]
      exact Or.inl ⟨hv₀, hid⟩
  have hids : (t.redeem v.id paymentCode paymentId now db).vouchers.map VoucherRow.id =
      t.vouchers.map VoucherRow.id := by
    rw [Tables.redeem, Tables.updateVoucher, List.map_map]
    refine List.map_congr_left fun v _ => ?_
    rw [Function.comp_apply]
    split <;> rfl
  have hredeemed : ∀ v', (t.redeem v.id paymentCode paymentId now db).redeemed v' =
      t.redeemed v' + if v.id = v'.id then 1 else 0 := by
    intro v'
    simp only [Tables.redeemed, Tables.redeem, List.countP_append, List.countP_singleton,
      decide_eq_true_eq]
  have hsnoc : ∀ {r : RedemptionRow}, r ∈ (t.redeem v.id paymentCode paymentId now db).redemptions →
      r ∈ t.redemptions ∨ r = ⟨t.nextRedemptionId, v.id, paymentCode, paymentId, now⟩ := by
    intro r hr
    exact (List.mem_append.mp hr).imp_right List.mem_singleton.mp
  refine ⟨hids ▸ h.keys, ?_, ?_, ?_, ?_, ?_, ?_, ?_, ?_, hkeys⟩
  · intro r hr
    have hknown : r.voucherId ∈ t.vouchers.map VoucherRow.id := by
      rcases hsnoc hr with hr | rfl
      · obtain ⟨v', hv', hid⟩ := h.known r hr
        exact hid ▸ List.mem_map_of_mem hv'
      · exact List.mem_map_of_mem hv
    rw [← hids] at hknown
    obtain ⟨v', hv', hid⟩ := List.mem_map.mp hknown
    exact ⟨v', hv', hid⟩
  · intro v' hv' htype
    rcases hmem hv' with ⟨hv', -⟩ | rfl
    · exact h.plain v' hv' htype
    · exact h.plain v hv htype
  · intro v' hv'
    rw [hredeemed]
    rcases hmem hv' with ⟨hv', hid⟩ | rfl
    · rw [if_neg hid.symm]
      exact h.counted v' hv'
    · rw [if_pos (show v.id = v.count.id from rfl)]
      exact congrArg (· + 1) (h.counted v hv)
  · intro v' hv' htype
    rcases hmem hv' with ⟨hv', -⟩ | rfl
    · exact h.capped v' hv' htype
    · exact hcap htype
  · rw [Tables.redeem, List.map_append, List.nodup_append]
    refine ⟨h.once, List.nodup_singleton _, ?_⟩
    intro pair hpair pair' hlast hsame
    rw [List.map_singleton, List.mem_singleton] at hlast
    subst hsame hlast
    exact hnew hpair
  · intro v' hv' htype r hr hid
    rcases hsnoc hr with hr | rfl
    · obtain ⟨i, hi, p, hp, hbill⟩ : ∃ i, r.paymentId = some i ∧ ∃ p ∈ t.payments.payments,
          bill p = (i, r.event, r.paymentCode, v'.value) := by
        rcases hmem hv' with ⟨hv', -⟩ | rfl
        · exact h.queued v' hv' htype r hr hid
        · exact h.queued v hv htype r hr hid
      exact ⟨i, hi, p, hkeep p hp, hbill⟩
    · rcases hmem hv' with ⟨-, hne⟩ | rfl
      · exact absurd hid.symm hne
      · exact hqueued htype
  · intro r hr i hi
    rcases hsnoc hr with hr | rfl
    · obtain ⟨p, hp, hid, hevent⟩ := h.linked r hr i hi
      exact ⟨p, hkeep p hp, hid, hevent⟩
    · exact hlinked i hi
  · intro p hp hrail
    rcases hback p hp with hp | hevent
    · obtain ⟨r, hr, hevent⟩ := h.recorded p hp hrail
      exact ⟨r, List.mem_append_left _ hr, hevent⟩
    · exact ⟨_, List.mem_append_right _ (List.mem_singleton_self _), hevent⟩

end Books

/-! ### The repository keeps the books -/

section Repository

variable {c : VoucherConfig} {fault : Option Nat} {t t' : Tables} {paymentCode : String} {now : Int}

lemma Books.insertVouchers {input : CreateVouchersInput} {ids : Option StripeIds}
    (hplain : input.type = .grantDays → ids = none) :
    ∀ {codes : List String} {i : Nat} {t : Tables} {u : Unit}, Books t →
      insertVouchers fault input ids now i codes t = .ok (u, t') → Books t'
  | [], i, t, u, h, heq => by
      cases heq
      exact h
  | code :: codes, i, t, u, h, heq => by
      obtain ⟨⟨u₀, t₀⟩, hinsert, heq⟩ := bind_eq_ok heq
      have hinsert := of_statement hinsert
      refine Books.insertVouchers hplain ?_ heq
      rw [insertVoucher] at hinsert
      split at hinsert
      · cases hinsert
      · split at hinsert
        · cases hinsert
        · rename_i hchecks
          cases hinsert
          refine h.snoc rfl rfl (by simp only; omega) fun htype => ?_
          rw [hplain htype]
          exact ⟨rfl, rfl⟩

lemma Books.createBatch (h : Books t) {input : CreateVouchersInput} {codes : List String}
    {ids : Option StripeIds} (hplain : input.type = .grantDays → ids = none) :
    Books (createBatch fault input codes ids now t).2 :=
  run_keeps h fun _ _ heq => h.insertVouchers hplain heq

/-- The payment of a new redemption is new. -/
lemma Books.insertIdempotent (h : Books t) {v : VoucherRow}
    (hnew : (v.id, paymentCode) ∉ t.redemptions.map RedemptionRow.pair) :
    (t.payments.insertIdempotent (redemptionPayment c v paymentCode) now).2 =
        some t.payments.nextId ∧
      ∃ p, bill p = (t.payments.nextId, (.voucher, redemptionKey v.id paymentCode), paymentCode,
          v.value) ∧
        (t.payments.insertIdempotent (redemptionPayment c v paymentCode) now).1.payments =
          t.payments.payments ++ [p] := by
  rw [Db.insertIdempotent]
  split
  · rename_i hany
    obtain ⟨p, hp, hsame⟩ := List.any_eq_true.mp hany
    obtain ⟨hrail, hkey⟩ := of_decide_eq_true hsame
    obtain ⟨r, hr, hevent⟩ := h.recorded p hp hrail
    obtain ⟨hid, hcode⟩ := redemptionKey_inj (hkey.symm.trans (congrArg Prod.snd hevent))
    exact absurd (List.mem_map.mpr ⟨r, hr, Prod.ext hid.symm hcode.symm⟩) hnew
  · exact ⟨rfl, _, rfl, rfl⟩

lemma Books.redeemGrant (h : Books t) {voucher : VoucherRow} (hvoucher : voucher ∈ t.vouchers) :
    Books (redeemGrant c fault voucher paymentCode now t).2 := by
  cases heq : Vouchers.redeemGrant c fault voucher paymentCode now t with
  | mk result t' =>
    cases result with
    | error e =>
        rw [run_error heq]
        exact h
    | ok redemptionId =>
        obtain ⟨-, ⟨v, hv, hid, hredeemable⟩, hnew, rfl⟩ := redeemGrant_ok h.keys heq
        obtain rfl := List.inj_on_of_nodup_map h.keys hv hvoucher hid
        obtain ⟨hpayment, p, hbill, hrows⟩ :=
          h.insertIdempotent hnew
        have hp : p ∈ (t.payments.insertIdempotent (redemptionPayment c v paymentCode)
            now).1.payments := by
          rw [hrows]
          exact List.mem_append_right _ (List.mem_singleton_self p)
        rw [hpayment]
        refine h.redeem hv hnew (fun _ => hredeemable.2.1)
          (fun p' hp' => Db.mem_insertIdempotent hp' _ _) ?_ ?_ ?_
          (h.paymentKeys.insertIdempotent _ _)
        · intro p' hp'
          rw [hrows] at hp'
          rcases List.mem_append.mp hp' with hp' | hp'
          · exact Or.inl hp'
          · obtain rfl := List.mem_singleton.mp hp'
            exact Or.inr (congrArg (fun b => b.2.1) hbill)
        · intro i hi
          cases hi
          exact ⟨p, hp, congrArg Prod.fst hbill, congrArg (fun b => b.2.1) hbill⟩
        · exact fun _ => ⟨_, rfl, p, hp, hbill⟩

lemma Books.recordDiscountRedemption (h : Books t) {v : VoucherRow} (hv : v ∈ t.vouchers)
    (htype : v.type ≠ .grantDays) :
    Books (recordDiscountRedemption fault v.id paymentCode none now t).2 := by
  cases heq : Vouchers.recordDiscountRedemption fault v.id paymentCode none now t with
  | mk result t' =>
    cases result with
    | error e =>
        rw [run_error heq]
        exact h
    | ok fresh =>
        rcases recordDiscountRedemption_ok heq with rfl | ⟨hnew, rfl⟩
        · exact h
        · exact h.redeem hv hnew (fun hgrant => absurd hgrant htype) (fun _ hp => hp)
            (fun _ hp => Or.inl hp) (fun _ hi => by cases hi) (fun hgrant => absurd hgrant htype)
            h.paymentKeys

/-- What the discounts of an invoice name is a discount. -/
lemma Books.discountVoucher (h : Books t) {promoIds couponIds : List String} {v : VoucherRow}
    (heq : discountVoucher t promoIds couponIds = some v) :
    v ∈ t.vouchers ∧ v.type ≠ .grantDays := by
  rcases Option.or_eq_some_iff.mp heq with hpromo | ⟨-, hcoupon⟩
  · obtain ⟨promoId, -, hfind⟩ := List.exists_of_findSome?_eq_some hpromo
    obtain ⟨hmem, hsome⟩ := find?_decide hfind
    refine ⟨hmem, fun htype => ?_⟩
    rw [(h.plain v hmem htype).1] at hsome
    cases hsome
  · obtain ⟨couponId, -, hfind⟩ := List.exists_of_findSome?_eq_some hcoupon
    obtain ⟨hmem, hsome⟩ := find?_decide hfind
    refine ⟨hmem, fun htype => ?_⟩
    rw [(h.plain v hmem htype).2] at hsome
    cases hsome

lemma Books.trackDiscountRedemption (h : Books t) (promoIds couponIds : List String)
    (code : String) : Books (trackDiscountRedemption fault promoIds couponIds code now t) := by
  rw [Vouchers.trackDiscountRedemption.eq_def]
  split
  · exact h
  · rename_i v heq
    obtain ⟨hv, htype⟩ := h.discountVoucher heq
    exact h.recordDiscountRedemption hv htype

/-- A reply that is no grant leaves the tables alone; a grant is of the named
voucher, within its limit. -/
lemma redeem_cases (breakerOpen : Bool) (req : RedeemRequest) :
    ((∀ days, (redeem c fault breakerOpen req now t).1 ≠ .granted days) ∧
        (redeem c fault breakerOpen req now t).2 = t) ∨
      ∃ v ∈ t.vouchers, normalizeCode c req.code = some v.code ∧ v.type = .grantDays ∧
        ∃ redemptionId, redeemGrant c fault v req.paymentCode now t =
            (.ok redemptionId, (redeem c fault breakerOpen req now t).2) ∧
          (redeem c fault breakerOpen req now t).1 = .granted v.value := by
  have hrefused : ∀ {reply : RedeemReply}, (∀ days, reply ≠ .granted days) →
      (∀ days, (reply, t).1 ≠ .granted days) ∧ (reply, t).2 = t := fun hreply => ⟨hreply, rfl⟩
  rw [redeem]
  split
  · exact Or.inl (hrefused fun _ => nofun)
  split
  · exact Or.inl (hrefused fun _ => nofun)
  split
  · exact Or.inl (hrefused fun _ => nofun)
  rename_i v hlookup
  split
  · exact Or.inl (hrefused fun _ => nofun)
  split
  · exact Or.inl (hrefused fun _ => nofun)
  split
  · exact Or.inl (hrefused fun _ => nofun)
  split
  · exact Or.inl (hrefused fun _ => nofun)
  rename_i htype
  split
  · exact Or.inl (hrefused fun _ => nofun)
  split
  · rename_i redemptionId t' heq
    obtain ⟨code, hcode, hfind⟩ := Option.bind_eq_some_iff.mp hlookup
    obtain ⟨hmem, hsame⟩ := find?_decide hfind
    have hgrant : v.type = .grantDays := by
      cases htype' : v.type with
      | grantDays => rfl
      | stripeDiscount => exact absurd htype' htype
    exact Or.inr ⟨v, hmem, hsame ▸ hcode, hgrant, redemptionId, heq, rfl⟩
  · rename_i reason t' heq
    exact Or.inl ⟨fun _ => nofun, run_error heq⟩
  · rename_i t' heq
    exact Or.inl ⟨fun _ => nofun, run_error heq⟩

lemma Books.redeemRoute (h : Books t) (breakerOpen : Bool) (req : RedeemRequest) :
    Books (Vouchers.redeem c fault breakerOpen req now t).2 := by
  rcases redeem_cases breakerOpen req with ⟨-, heq⟩ | ⟨v, hv, -, -, redemptionId, heq, -⟩
  · rw [heq]
    exact h
  · have hbooks : Books (Vouchers.redeemGrant c fault v req.paymentCode now t).2 :=
      h.redeemGrant hv
    rw [heq] at hbooks
    exact hbooks

/-- A granted redemption is within the limit of its campaign. -/
lemma Books.withinLimit (h : Books t) {v : VoucherRow} {redemptionId : Nat}
    (heq : Vouchers.redeemGrant c fault v paymentCode now t = (.ok redemptionId, t')) :
    WithinLimit t' v paymentCode := by
  intro hcampaign hpos
  obtain ⟨hlimit, -, -, rfl⟩ := redeemGrant_ok h.keys heq
  have hlt := hlimit hcampaign hpos
  have hsame : ∀ (db : Db) (paymentId : Option Nat) (r : RedemptionRow),
      (∃ v' ∈ (t.redeem v.id paymentCode paymentId now db).vouchers,
        v'.id = r.voucherId ∧ v'.campaign = v.campaign) →
      ∃ v' ∈ t.vouchers, v'.id = r.voucherId ∧ v'.campaign = v.campaign := by
    rintro db paymentId r ⟨v', hv', hterms⟩
    obtain ⟨v₀, hv₀, rfl⟩ := List.mem_map.mp hv'
    refine ⟨v₀, hv₀, ?_⟩
    split at hterms <;> exact hterms
  have hle : ∀ (db : Db) (paymentId : Option Nat),
      (t.redeem v.id paymentCode paymentId now db).campaignRedemptions v.campaign paymentCode ≤
        t.campaignRedemptions v.campaign paymentCode + 1 := by
    intro db paymentId
    rw [Tables.campaignRedemptions, Tables.redeem, List.countP_append]
    refine Nat.add_le_add (List.countP_mono_left fun r _ hr => ?_) List.countP_le_length
    obtain ⟨hcode, hexists⟩ := of_decide_eq_true hr
    exact decide_eq_true ⟨hcode, hsame db paymentId r hexists⟩
  have hbound := hle (t.payments.insertIdempotent (redemptionPayment c v paymentCode) now).1
    (t.payments.insertIdempotent (redemptionPayment c v paymentCode) now).2
  omega

end Repository

/-! ### The steps -/

/-- The workers and the other rails leave the bills alone. -/
lemma bills_worker {c : Config} {s s' : System} {a : Action} (h : anyStep c s a = some s')
    (hother : OtherRail a) :
    (∀ p ∈ s.db.payments, ∃ p' ∈ s'.db.payments, bill p' = bill p) ∧
      (∀ p' ∈ s'.db.payments, (∃ p ∈ s.db.payments, bill p = bill p') ∨ p'.rail ≠ .voucher) ∧
      (s.db.HasKeys → s'.db.HasKeys) := by
  have hsame : ∀ {db : Db}, db.payments.map bill = s.db.payments.map bill →
      (∀ p ∈ s.db.payments, ∃ p' ∈ db.payments, bill p' = bill p) ∧
      (∀ p' ∈ db.payments, (∃ p ∈ s.db.payments, bill p = bill p') ∨ p'.rail ≠ .voucher) ∧
      (s.db.HasKeys → db.HasKeys) := by
    intro db heq
    refine ⟨fun p hp => ?_, fun p' hp' => Or.inl ?_, fun hkeys => ?_⟩
    · have hmem := List.mem_map_of_mem (f := bill) hp
      rw [← heq] at hmem
      exact List.mem_map.mp hmem
    · have hmem := List.mem_map_of_mem (f := bill) hp'
      rw [heq] at hmem
      exact List.mem_map.mp hmem
    · have hids : db.payments.map PaymentRow.id = s.db.payments.map PaymentRow.id := by
        have hfst := congrArg (List.map Prod.fst) heq
        rw [List.map_map, List.map_map] at hfst
        exact hfst
      rw [Db.HasKeys, hids]
      exact hkeys
  cases anyStep_statement h with
  | none hdb => exact hsame (hdb ▸ rfl)
  | insert p now hdb =>
      rw [hdb]
      refine ⟨fun p' hp' => ⟨p', Db.mem_insertIdempotent hp' p now, rfl⟩, ?_,
        fun hkeys => hkeys.insertIdempotent p now⟩
      rcases s.db.insertIdempotent_cases p now with ⟨-, heq⟩ | ⟨-, r, hevent, -, heq⟩
      · rw [heq]
        exact fun p' hp' => Or.inl ⟨p', hp', rfl⟩
      · intro p' hp'
        rw [heq] at hp'
        rcases List.mem_append.mp hp' with hp' | hp'
        · exact Or.inl ⟨p', hp', rfl⟩
        · obtain rfl := List.mem_singleton.mp hp'
          have hrail : p'.rail = p.rail := congrArg Prod.fst hevent
          exact Or.inr (hrail ▸ hother)
  | failure hrow error now hdb => exact hsame (hdb ▸ map_updateRow (by exact fun _ => rfl) _)
  | broadcast hrow hprepared now hdb => exact hsame (hdb ▸ map_updateRow (by exact fun _ => rfl) _)
  | confirmed hrow now hdb => exact hsame (hdb ▸ map_updateRow (by exact fun _ => rfl) _)
  | expired hrow hdb => exact hsame (hdb ▸ map_updateRow (by exact fun _ => rfl) _)

/-- The books, and only discounts await Stripe. -/
structure Kept (s : Server) : Prop where
  books : Books s.tables
  provisioning : ∀ batch ∈ s.provisioning, batch.1.type = .stripeDiscount

lemma Kept.init (height : Int) : Kept (Server.init height) where
  books := .nil
  provisioning batch hbatch := by cases hbatch

lemma Kept.step {c : VoucherConfig} {s s' : Server} {e : Event} (h : Kept s)
    (heq : step c s e = some s') : Kept s' := by
  cases e with
  | create req generated fault now =>
      simp only [Vouchers.step] at heq
      split at heq
      · cases heq
        exact h
      · rename_i input codes _
        split at heq
        · rename_i htype
          cases heq
          refine ⟨h.books, fun batch hbatch => ?_⟩
          rcases List.mem_append.mp hbatch with hbatch | hbatch
          · exact h.provisioning batch hbatch
          · obtain rfl := List.mem_singleton.mp hbatch
            exact htype
        · cases heq
          exact ⟨h.books.createBatch fun _ => rfl, h.provisioning⟩
  | provisioned i ids fault now =>
      simp only [Vouchers.step] at heq
      split at heq
      · cases heq
      · rename_i input codes hbatch
        have hrest : ∀ batch ∈ s.provisioning.eraseIdx i, batch.1.type = .stripeDiscount :=
          fun batch hmem => h.provisioning batch (List.mem_of_mem_eraseIdx hmem)
        have htype : input.type = .stripeDiscount :=
          h.provisioning (input, codes) (List.mem_of_getElem? hbatch)
        split at heq
        · cases heq
          exact ⟨h.books, hrest⟩
        · cases heq
          refine ⟨h.books.createBatch fun hgrant => ?_, hrest⟩
          rw [htype] at hgrant
          cases hgrant
  | redeem req breakerOpen fault now =>
      cases heq
      exact ⟨h.books.redeemRoute breakerOpen req, h.provisioning⟩
  | discount promoIds couponIds code fault now =>
      cases heq
      exact ⟨h.books.trackDiscountRedemption promoIds couponIds code, h.provisioning⟩
  | revoke id =>
      cases heq
      exact ⟨h.books.revoke id, h.provisioning⟩
  | worker a =>
      simp only [Vouchers.step] at heq
      split at heq
      · rename_i hother
        obtain ⟨workers, hworkers, rfl⟩ := Option.map_eq_some_iff.mp heq
        obtain ⟨hkeep, hback, hkeys⟩ := bills_worker hworkers hother
        exact ⟨h.books.payments hkeep hback (hkeys h.books.paymentKeys), h.provisioning⟩
      · cases heq
  | crash =>
      cases heq
      exact ⟨h.books, fun batch hbatch => by cases hbatch⟩

/-- **In every reachable state the accounts hold; a redemption that is not
granted leaves the tables as they were, and one that is keeps within the limit
of its campaign.** -/
theorem voucher_accounting (c : VoucherConfig) (height : Int) {es : List Event} {s : Server}
    (h : exec (step c) (Server.init height) es = some s) :
    Accounted s.tables ∧
      ∀ fault breakerOpen req now,
        ((∀ days, (redeem c fault breakerOpen req now s.tables).1 ≠ .granted days) →
          (redeem c fault breakerOpen req now s.tables).2 = s.tables) ∧
        ∀ days, (redeem c fault breakerOpen req now s.tables).1 = .granted days →
          ∃ v ∈ s.vouchers, normalizeCode c req.code = some v.code ∧ v.type = .grantDays ∧
            v.value = days ∧
            WithinLimit (redeem c fault breakerOpen req now s.tables).2 v req.paymentCode := by
  have hkept : Kept s :=
    Reachable.induction ⟨es, h⟩ (Kept.init height) fun _ _ _ hk hs => hk.step hs
  refine ⟨hkept.books.accounted, fun fault breakerOpen req now => ?_⟩
  rcases redeem_cases breakerOpen req with
    ⟨hno, heq⟩ | ⟨v, hv, hcode, htype, redemptionId, heq, hreply⟩
  · exact ⟨fun _ => heq, fun days hdays => absurd hdays (hno days)⟩
  · refine ⟨fun hno => absurd hreply (hno v.value), fun days hdays => ?_⟩
    have hvalue : v.value = days := by
      rw [hreply] at hdays
      cases hdays
      rfl
    exact ⟨v, hv, hcode, htype, hvalue, hkept.books.withinLimit heq⟩

/-- A campaign of two vouchers of which a device may redeem one; the first is
used, retried, and revoked. -/
def campaignRun : List Event :=
  [.create ⟨.grantDays, some 30, some (some 2), none, "launch", some (some 5), none, none⟩
      ["ABCDEFGH23", "ABCDEFGH24"] none 1,
    .redeem ⟨"code", "CVPN-ABCDE-FGH23"⟩ false (some 3) 2,
    .redeem ⟨"code", "CVPN-ABCDE-FGH23"⟩ false none 3,
    .redeem ⟨"code", "CVPN-ABCDE-FGH24"⟩ false none 4,
    .redeem ⟨"other", "CVPN-ABCDE-FGH24"⟩ false none 5,
    .revoke 1]

/-- A bridge that takes any code. -/
def campaignConfig : VoucherConfig where
  bridge :=
    { treasury := "t1treasury"
      paymentAddress := "t1pay"
      priceSchedule := .flat 20 twenty_pos
      feeZats := 2000
      isValidPaymentCode := fun _ => true
      txid := fun tx => toString tx.expiryHeight }
  priceZats := 2000000000
  dayGrantsEnabled := true
  stripeEnabled := false
  toUpperCase := String.toUpper

theorem voucher_accounting_campaign :
    ∃ s, exec (step campaignConfig) (Server.init 100) campaignRun = some s ∧
      s.redemptions.map RedemptionRow.pair = [(1, "code"), (2, "other")] ∧ Accounted s.tables := by
  have hrun : (exec (step campaignConfig) (Server.init 100) campaignRun).any fun s =>
      s.redemptions.map RedemptionRow.pair = [(1, "code"), (2, "other")] := by decide +kernel
  obtain ⟨s, hs, hpairs⟩ := (Option.any_eq_true _ _).mp hrun
  exact ⟨s, hs, of_decide_eq_true hpairs, (voucher_accounting campaignConfig 100 hs).1⟩

end CumulusVpn.Bridge.Vouchers
