/-
The transfer wall.

* `Spaced`: two user transfers of one subscription are an interval apart;
* `Kept`, `Wall`: a step leaves the code of a moved subscription as it was,
  unless it logs another move of it or handles a fresh purchase;
* `unbroken`: no paid invoice writes back a code that it read before a move,
  and no Apple purchase is dated in the second of a move but not after it;
* `transfer_wall`: **in every run whose steps are unbroken the transfers are
  spaced and every step keeps the wall**;
* `not_transfer_wall`: an invoice whose lines are listed while its
  subscription moves undoes the move.
-/
import CumulusVpn.Bridge.Rails.Codes

namespace CumulusVpn.Bridge.Rails

open StepSystem

/-! ### The wall -/

/-- Two user transfers of one subscription are an interval apart. -/
def Spaced (later earlier : TransferRow) : Prop :=
  later.rail = earlier.rail → later.externalId = earlier.externalId →
    later.actor = .user → earlier.actor = .user →
      earlier.createdAt + transferIntervalS ≤ later.createdAt

/-- A subscription that was moved keeps its code, or a move of it is logged,
or it is freshly bought. -/
def Kept (fresh : String → Prop) (s s' : Server) : Prop :=
  ∃ moves, s'.subs.transfers = moves ++ s.subs.transfers ∧
    ∀ rail x row, s.subs.get rail x = some row → row.transferredAt ≠ none →
      ∃ row', s'.subs.get rail x = some row' ∧ row'.transferredAt ≠ none ∧
        (row'.paymentCode = row.paymentCode ∨
          (∃ t ∈ moves, t.rail = rail ∧ t.externalId = x ∧ t.toCode = row'.paymentCode) ∨
          rail = .apple ∧ fresh x)

/-- The step handles an Apple purchase dated after the last move. -/
def FreshPurchase (s : Server) (a : Action) (x : String) : Prop :=
  ∃ i txn sandbox ms, a = .resume i (.transaction (some txn) sandbox) ∧
    txn.originalTransactionId = some x ∧ txn.transactionReason = some .purchase ∧
    s.movedMs (.apple, x) = some ms ∧ ms < txn.purchaseDate.getD 0

/-- What a step does to the subscriptions that were moved before it. -/
def Wall (s : Server) (a : Action) (s' : Server) : Prop := Kept (FreshPurchase s a) s s'

/-! ### When it stands -/

/-- A paid invoice that waits for its lines remembers the code of its
subscription, if that was ever moved. -/
def Task.current (s : Server) : Task → Bool
  | .invoiceBound (.paid _) (some bound) =>
      (s.subs.get .stripe bound.subId).all fun row =>
        row.transferredAt = none ∨ bound.code = row.paymentCode
  | _ => true

/-- A purchase dated after the second of the last move is dated after the
move. -/
def datedAfter (s : Server) (txn : Transaction) : Bool :=
  (truthy txn.originalTransactionId).all fun x =>
    ((s.subs.get .apple x).bind SubscriptionRow.transferredAt).all fun transferredAt =>
      !Apple.boughtSince txn transferredAt ||
        (s.movedMs (.apple, x)).any (· < txn.purchaseDate.getD 0)

/-- The step is not one that breaks the wall. -/
def unbroken (s : Server) : Action → Bool
  | .resume i (.lines _) => (s.running[i]?).all (Task.current s)
  | .resume _ (.transaction (some txn) _) => datedAfter s txn
  | _ => true

/-! ### One write -/

/-- What a write must meet for the wall to stand. -/
def WallOk (fresh : String → Prop) (s : Server) : Write → Prop
  | .upsert rail x code _ _ =>
      ∀ row, s.subs.get rail x = some row → row.transferredAt ≠ none →
        code = row.paymentCode ∨ rail = .apple ∧ fresh x
  | .rebind rail x _ _ actor _ =>
      actor = .user →
        transferAvailableAt ((s.subs.get rail x).bind SubscriptionRow.transferredAt) s.nowS = none
  | _ => True

/-- The log of moves and the times in the rows. -/
structure Logged (t : Subscriptions) (nowS : Int) : Prop where
  logged : ∀ e ∈ t.transfers, ∃ row transferredAt, t.get e.rail e.externalId = some row ∧
    row.transferredAt = some transferredAt ∧ e.createdAt ≤ transferredAt
  past : ∀ rail x row transferredAt, t.get rail x = some row →
    row.transferredAt = some transferredAt → transferredAt ≤ nowS
  spaced : t.transfers.Pairwise Spaced

variable {c : RailsConfig} {s s' s₀ : Server} {fresh : String → Prop}

/-- An update that keeps the times of the moves. -/
lemma Logged.frame {t t' : Subscriptions} {nowS : Int} (h : Logged t nowS)
    (htransfers : t'.transfers = t.transfers)
    (hrows : ∀ rail x, (t'.get rail x).bind SubscriptionRow.transferredAt =
      (t.get rail x).bind SubscriptionRow.transferredAt) : Logged t' nowS where
  logged e he := by
    rw [htransfers] at he
    obtain ⟨row, transferredAt, hrow, hmoved, hle⟩ := h.logged e he
    have hbind : (t'.get e.rail e.externalId).bind SubscriptionRow.transferredAt =
        some transferredAt := by rw [hrows, hrow, Option.bind_some, hmoved]
    obtain ⟨row', hrow', hmoved'⟩ := Option.bind_eq_some_iff.mp hbind
    exact ⟨row', transferredAt, hrow', hmoved', hle⟩
  past rail x row transferredAt hrow hmoved := by
    have hbind : (t.get rail x).bind SubscriptionRow.transferredAt = some transferredAt := by
      rw [← hrows, hrow, Option.bind_some, hmoved]
    obtain ⟨row', hrow', hmoved'⟩ := Option.bind_eq_some_iff.mp hbind
    exact h.past rail x row' transferredAt hrow' hmoved'
  spaced := htransfers ▸ h.spaced

/-- A move is logged after all earlier moves of its subscription. -/
lemma Logged.rebind {t : Subscriptions} {nowS : Int} (h : Logged t nowS) {rail : Rail}
    {x code : String} {plan : Plan} {actor : TransferActor} {days : Int}
    (havailable : actor = .user →
      transferAvailableAt ((t.get rail x).bind SubscriptionRow.transferredAt) nowS = none) :
    Logged (t.rebind rail x code plan actor days nowS) nowS where
  logged e he := by
    rcases List.mem_cons.mp he with rfl | he
    · exact ⟨_, nowS, by rw [Subscriptions.get_rebind, if_pos rfl], by simp, le_rfl⟩
    · obtain ⟨row, transferredAt, hrow, hmoved, hle⟩ := h.logged e he
      by_cases hkey : (e.rail, e.externalId) = (rail, x)
      · refine ⟨_, nowS, by rw [Subscriptions.get_rebind, if_pos hkey], by simp, ?_⟩
        exact hle.trans (h.past _ _ row transferredAt hrow hmoved)
      · exact ⟨row, transferredAt, by rw [Subscriptions.get_rebind, if_neg hkey, hrow], hmoved, hle⟩
  past r y row transferredAt hrow hmoved := by
    rw [Subscriptions.get_rebind] at hrow
    split at hrow
    · cases hrow
      rw [SubscriptionRow.transferredAt_rebound] at hmoved
      cases hmoved
      exact le_rfl
    · exact h.past r y row transferredAt hrow hmoved
  spaced := by
    refine List.pairwise_cons.mpr ⟨fun e he hrail hx huser _ => ?_, h.spaced⟩
    -- the earlier move is in the row, which has waited long enough
    obtain ⟨row, transferredAt, hrow, hmoved, hle⟩ := h.logged e he
    have hwait := havailable huser
    simp only at hrail hx
    rw [hrail, hx, hrow, Option.bind_some, hmoved] at hwait
    have := interval_le_of_available hwait
    simp only
    omega

lemma Logged.write {w : Write} (h : Logged s.subs s.nowS) (hw : WallOk fresh s w) :
    Logged (s.write w).subs s.nowS := by
  cases w with
  | upsert rail x code plan customer =>
      refine h.frame rfl fun r y => ?_
      simp only [Server.write, Subscriptions.get_upsert]
      split <;> simp
  | rebind rail x code plan actor days => exact h.rebind hw
  | setStatus rail x status =>
      refine h.frame rfl fun r y => ?_
      simp only [Server.write, Subscriptions.get_setStatus]
      split
      · cases s.subs.get r y <;> rfl
      · rfl
  | noteAppleExpiry x e sandbox =>
      refine h.frame rfl fun r y => ?_
      simp only [Server.write, Subscriptions.get_noteAppleExpiry]
      split
      · cases s.subs.get r y <;> simp
      · rfl
  | mapAppleToken token code => exact h.frame rfl fun _ _ => rfl
  | payment p => exact h
  | processed e => exact h

lemma Kept.refl (fresh : String → Prop) (s : Server) : Kept fresh s s :=
  ⟨[], rfl, fun _ _ row hrow hmoved => ⟨row, hrow, hmoved, Or.inl rfl⟩⟩

/-- A write that keeps the codes and the moves. -/
lemma Kept.frame (h : Kept fresh s₀ s) (htransfers : s'.subs.transfers = s.subs.transfers)
    (hrows : ∀ rail x row, s.subs.get rail x = some row → row.transferredAt ≠ none →
      ∃ row', s'.subs.get rail x = some row' ∧ row'.transferredAt ≠ none ∧
        (row'.paymentCode = row.paymentCode ∨ rail = .apple ∧ fresh x)) :
    Kept fresh s₀ s' := by
  obtain ⟨moves, hmoves, hkept⟩ := h
  refine ⟨moves, htransfers.trans hmoves, fun rail x row hrow hmoved => ?_⟩
  obtain ⟨row₁, hrow₁, hmoved₁, hcode₁⟩ := hkept rail x row hrow hmoved
  obtain ⟨row', hrow', hmoved', hcode'⟩ := hrows rail x row₁ hrow₁ hmoved₁
  refine ⟨row', hrow', hmoved', ?_⟩
  rcases hcode' with hcode' | hfresh
  · rw [hcode']
    exact hcode₁
  · exact Or.inr (Or.inr hfresh)

/-- A move is logged with the code that it moves to. -/
lemma Kept.rebind (h : Kept fresh s₀ s) (rail : Rail) (x code : String) (plan : Plan)
    (actor : TransferActor) (days : Int) :
    Kept fresh s₀ (s.write (.rebind rail x code plan actor days)) := by
  obtain ⟨moves, hmoves, hkept⟩ := h
  refine ⟨⟨rail, x, _, code, actor, days, s.nowS⟩ :: moves, congrArg _ hmoves, ?_⟩
  intro r y row hrow hmoved
  obtain ⟨row₁, hrow₁, hmoved₁, hcode₁⟩ := hkept r y row hrow hmoved
  simp only [Server.write, Subscriptions.get_rebind]
  split
  · rename_i hkey
    cases hkey
    exact ⟨_, rfl, by simp, Or.inr (Or.inl ⟨_, List.mem_cons_self, rfl, rfl, by simp⟩)⟩
  · refine ⟨row₁, hrow₁, hmoved₁, hcode₁.imp_right fun hor => hor.imp_left ?_⟩
    rintro ⟨t, ht, hrest⟩
    exact ⟨t, List.mem_cons_of_mem _ ht, hrest⟩

lemma Kept.write {w : Write} (h : Kept fresh s₀ s) (hw : WallOk fresh s w) :
    Kept fresh s₀ (s.write w) := by
  cases w with
  | upsert rail x code plan customer =>
      refine h.frame rfl fun r y row hrow hmoved => ?_
      simp only [Server.write, Subscriptions.get_upsert]
      split
      · rename_i hkey
        cases hkey
        refine ⟨_, rfl, by simpa [hrow] using hmoved, ?_⟩
        rw [SubscriptionRow.paymentCode_upserted]
        exact hw row hrow hmoved
      · exact ⟨row, hrow, hmoved, Or.inl rfl⟩
  | rebind rail x code plan actor days => exact h.rebind rail x code plan actor days
  | setStatus rail x status =>
      refine h.frame rfl fun r y row hrow hmoved => ?_
      simp only [Server.write, Subscriptions.get_setStatus, hrow]
      split
      · exact ⟨_, rfl, hmoved, Or.inl rfl⟩
      · exact ⟨row, rfl, hmoved, Or.inl rfl⟩
  | noteAppleExpiry x e sandbox =>
      refine h.frame rfl fun r y row hrow hmoved => ?_
      simp only [Server.write, Subscriptions.get_noteAppleExpiry, hrow]
      split
      · exact ⟨_, rfl, by simpa using hmoved, Or.inl (by simp)⟩
      · exact ⟨row, rfl, hmoved, Or.inl rfl⟩
  | mapAppleToken token code =>
      exact h.frame rfl fun r y row hrow hmoved => ⟨row, hrow, hmoved, Or.inl rfl⟩
  | payment p =>
      exact h.frame rfl fun r y row hrow hmoved => ⟨row, hrow, hmoved, Or.inl rfl⟩
  | processed e =>
      exact h.frame rfl fun r y row hrow hmoved => ⟨row, hrow, hmoved, Or.inl rfl⟩

/-! ### The writes of a stretch -/

/-- The writes of a stretch meet their conditions one after the other. -/
def Walled (fresh : String → Prop) (s : Server) (ws : List Write) : Prop :=
  Along (total Server.write) (WallOk fresh) s ws

/-- Writes that meet their condition in every state. -/
lemma Walled.of_mem {ws : List Write} (h : ∀ w ∈ ws, ∀ s, WallOk fresh s w) (s : Server) :
    Walled fresh s ws :=
  (along_of_mem h s).imp fun s _ hw => hw s

lemma Walled.nil (s : Server) : Walled fresh s [] := trivial

lemma Walled.append {ws vs : List Write} (hws : Walled fresh s ws)
    (hvs : Walled fresh (s.writeAll ws) vs) : Walled fresh s (ws ++ vs) :=
  along_total_append.mpr ⟨hws, hvs⟩

lemma Walled.cons {w : Write} {ws : List Write} (hw : WallOk fresh s w)
    (hws : ∀ v ∈ ws, ∀ s, WallOk fresh s v) : Walled fresh s (w :: ws) :=
  ⟨hw, Walled.of_mem hws _⟩

lemma Walled.mapped {token code : String} {ws : List Write}
    (h : Walled fresh (s.write (.mapAppleToken token code)) ws) :
    Walled fresh s (.mapAppleToken token code :: ws) :=
  ⟨trivial, h⟩

lemma Walled.grantRest {ev : GrantEvent} (s' : Server) :
    Walled fresh s' (grantRest c s ev).1 :=
  .of_mem (fun w hw _ => by rw [(mem_grantRest hw).1]; trivial) s'

/-- The rest of a period, and then the move. -/
lemma Walled.move {ev : GrantEvent} {s' : Server} {rail : Rail} {x code : String} {plan : Plan}
    {actor : TransferActor} {days : Int} {ws : List Write}
    (havailable : actor = .user →
      transferAvailableAt ((s'.subs.get rail x).bind SubscriptionRow.transferredAt) s'.nowS = none)
    (hws : ∀ v ∈ ws, ∀ s, WallOk fresh s v) :
    Walled fresh s'
      ((Rails.grantRest c s ev).1 ++ .rebind rail x code plan actor days :: ws) := by
  refine .append (.grantRest s') (.cons (fun huser => ?_) hws)
  rw [subs_grantRest, Server.nowS, Server.nowMs_writeAll]
  exact havailable huser

/-- A stretch that keeps its writes one after the other keeps the wall, and
the log. -/
lemma Walled.run {ws : List Write} (h : Walled fresh s ws) (hlog : Logged s.subs s.nowS) :
    Logged (s.writeAll ws).subs s.nowS ∧ Kept fresh s (s.writeAll ws) := by
  have hboth : ∀ s' w, (Logged s'.subs s'.nowS ∧ s'.nowS = s.nowS ∧ Kept fresh s s') →
      WallOk fresh s' w →
      (Logged (s'.write w).subs (s'.write w).nowS ∧ (s'.write w).nowS = s.nowS ∧
        Kept fresh s (s'.write w)) := by
    rintro s' w ⟨hlog', hnow, hkept⟩ hw
    have hsame : (s'.write w).nowS = s'.nowS := by rw [Server.nowS, Server.nowMs_write]; rfl
    exact ⟨hsame ▸ hlog'.write hw, hsame.trans hnow, hkept.write hw⟩
  obtain ⟨hlog', hnow, hkept⟩ := foldl_invariant hboth ⟨hlog, rfl, .refl fresh s⟩ h
  exact ⟨hnow ▸ hlog', hkept⟩

/-! ### The Apple stretches -/

section Apple

variable {code orig transactionId : String} {sandbox : Bool} {days : Int}

/-- A settlement keeps the wall where its code does. -/
lemma Walled.settle {expiresMs : Option Int}
    (hcode : ∀ row, s'.subs.get .apple orig = some row → row.transferredAt ≠ none →
      code = row.paymentCode ∨ fresh orig)
    {post : List Write} (hpost : ∀ w ∈ post, ∃ e, w = .processed e) :
    Walled fresh s'
      ((Apple.settle c s code transactionId orig expiresMs sandbox days).1 ++ post) := by
  obtain ⟨rest, heq, hrest⟩ :=
    @Apple.settle_eq c s code orig transactionId expiresMs sandbox days
  rw [heq, List.cons_append]
  refine .cons (fun row hrow hmoved => (hcode row hrow hmoved).imp_right fun h => ⟨rfl, h⟩) ?_
  intro w hw _
  rcases List.mem_append.mp hw with hw | hw
  · rcases hrest w hw with ⟨e, -, rfl⟩ | rfl <;> trivial
  · obtain ⟨e, rfl⟩ := hpost w hw
    trivial

/-- Unless it is bought since, a moved subscription owns its transactions. -/
lemma ownerOf_eq_of_moved {t : Transaction} {purchaser : Option String} {row : SubscriptionRow}
    {transferredAt : Int} (horig : truthy t.originalTransactionId = some orig)
    (hrow : s.subs.get .apple orig = some row) (hmoved : row.transferredAt = some transferredAt)
    (hsince : Apple.boughtSince t transferredAt = false) :
    Apple.ownerOf s t purchaser = some row.paymentCode := by
  rw [Apple.ownerOf, horig, Option.bind_some, hrow]
  simp [hmoved, hsince]

/-- The code that a transaction settles to keeps the wall. -/
lemma owner_kept {t : Transaction} (purchaser : Option String) {a : Action} {i : Nat}
    (ha : a = .resume i (.transaction (some t) sandbox)) (hdated : datedAfter s t = true)
    (horig : truthy t.originalTransactionId = some orig)
    (howner : ∀ owner, Apple.ownerOf s t purchaser = some owner → code = owner) :
    ∀ row, s.subs.get .apple orig = some row → row.transferredAt ≠ none →
      code = row.paymentCode ∨ FreshPurchase s a orig := by
  intro row hrow hmoved
  obtain ⟨transferredAt, hat⟩ := Option.ne_none_iff_exists'.mp hmoved
  cases hsince : Apple.boughtSince t transferredAt with
  | false => exact Or.inl (howner _ (ownerOf_eq_of_moved horig hrow hat hsince))
  | true =>
      right
      simp only [datedAfter, horig, Option.all_some, hrow, Option.bind_some, hat, hsince,
        Bool.not_true, Bool.false_or, Option.any_eq_true] at hdated
      obtain ⟨ms, hms, hlt⟩ := hdated
      simp only [Apple.boughtSince, decide_eq_true_eq] at hsince
      exact ⟨i, t, sandbox, ms, ha, (Option.filter_eq_some_iff.mp horig).1, hsince.1, hms,
        of_decide_eq_true hlt⟩

lemma walled_verifyPurchase {txn : Option Transaction} {a : Action} {i : Nat}
    (ha : a = .resume i (.transaction txn sandbox))
    (hdated : ∀ t, txn = some t → datedAfter s t = true) :
    Walled (FreshPurchase s a) s (Apple.verifyPurchase c s code txn sandbox).1 := by
  rcases @Apple.verifyPurchase_writes c s code txn sandbox with heq |
    ⟨t, days, transactionId, orig, rfl, hbought, -, heq⟩ <;> rw [heq]
  · exact .nil s
  · have hkept := @owner_kept s ((Apple.ownerOf s t (some code)).getD code) orig sandbox t
      (some code) a i ha (hdated t rfl) hbought.originalTransactionId fun owner howner => by
        rw [howner, Option.getD_some]
    refine .mapped (.settle ?_ fun w hw => ⟨_, List.mem_singleton.mp hw⟩)
    exact hkept

lemma walled_claimPurchase {transfer : Bool} {txn : Option Transaction} {a : Action} {i : Nat}
    (ha : a = .resume i (.transaction txn sandbox))
    (hdated : ∀ t, txn = some t → datedAfter s t = true) :
    Walled (FreshPurchase s a) s (Apple.claimPurchase c s code transfer txn sandbox).1 := by
  rcases @Apple.claimPurchase_writes c s code transfer txn sandbox with heq |
    ⟨t, days, transactionId, orig, expiresMs, rfl, hbought, -, ⟨howner, heq⟩ |
      ⟨havailable, heq⟩⟩ <;> rw [heq]
  · exact .nil s
  · have hkept := @owner_kept s code orig sandbox t (Apple.claimPurchaser c s code t) a i ha
      (hdated t rfl) hbought.originalTransactionId fun owner howner' => by
        rcases howner with hnone | hcode
        · rw [hnone] at howner'
          cases howner'
        · exact Option.some_inj.mp (hcode.symm.trans howner')
    rw [← List.append_nil (Apple.settle _ _ _ _ _ _ _ _).1]
    refine .mapped (.settle ?_ fun w hw => (List.not_mem_nil hw).elim)
    exact hkept
  · refine .mapped (.move (fun _ => havailable) ?_)
    intro w hw _
    rw [List.mem_singleton.mp hw]
    trivial

lemma walled_notified {type : String} {txn : Option Transaction} {a : Action} {i : Nat}
    {sandbox' : Bool} (ha : a = .resume i (.transaction txn sandbox'))
    (hdated : ∀ t, txn = some t → datedAfter s t = true) :
    Walled (FreshPurchase s a) s (Apple.notified c s type sandbox txn).1 := by
  rcases @Apple.notified_writes c s type sandbox txn with heq | ⟨orig, status, heq⟩ |
    ⟨t, days, transactionId, orig, owner, rfl, hbought, -, howner, heq⟩ <;> rw [heq]
  · exact .nil s
  · exact ⟨trivial, trivial⟩
  · have hkept := @owner_kept s owner orig sandbox' t _ a i ha (hdated t rfl)
      hbought.originalTransactionId fun owner' howner' =>
        Option.some_inj.mp ((Option.filter_eq_some_iff.mp howner).1.symm.trans howner')
    exact Walled.settle hkept fun w hw => ⟨_, List.mem_singleton.mp hw⟩

lemma walled_appleRebind {grantRemaining : Bool} :
    Walled fresh s (Apple.adminRebind c s orig code grantRemaining).1 := by
  rcases @Apple.adminRebind_writes c s code orig grantRemaining with heq |
    ⟨known, -, heq | ⟨-, -, expiresMs, -, heq⟩⟩ <;> rw [heq]
  · exact .nil s
  · exact .cons (fun h => by cases h) fun w hw => by cases hw
  · refine Walled.move (fun h => by cases h) ?_
    intro w hw _
    rw [List.mem_singleton.mp hw]
    trivial

end Apple

/-! ### The Google stretches -/

section Google

variable {code purchaseToken : String} {sub : Purchase}

lemma walled_settleBind {caller : GoogleCaller} {event : Option Event} {facts : PeriodFacts}
    (hcode : ∀ row, s.subs.get .google purchaseToken = some row → row.transferredAt ≠ none →
      code = row.paymentCode) :
    Walled fresh s (Google.settleBind caller event code purchaseToken facts).1 :=
  .cons (fun row hrow hmoved => Or.inl (hcode row hrow hmoved)) fun w hw => by cases hw

lemma walled_googleTransferTo {facts : PeriodFacts} {actor : TransferActor}
    (havailable : actor = .user → transferAvailableAt
      ((s.subs.get .google purchaseToken).bind SubscriptionRow.transferredAt) s.nowS = none) :
    Walled fresh s (Google.transferTo c s code purchaseToken facts actor).1 :=
  Walled.move havailable fun w hw => by cases hw

/-- A moved subscription settles to its owner. -/
lemma walled_verified {caller : GoogleCaller} :
    Walled fresh s (Google.verified c s caller code purchaseToken sub).1 := by
  rcases @Google.verified_out c s code purchaseToken sub caller with ⟨reply, heq⟩ |
    ⟨facts, -, -, -, heq⟩ <;> rw [heq]
  · exact .nil s
  · refine walled_settleBind fun row hrow hmoved => ?_
    obtain ⟨transferredAt, hat⟩ := Option.ne_none_iff_exists'.mp hmoved
    rw [Google.movedOwner, hrow, Option.bind_some, hat]
    rfl

lemma walled_claimed {transfer : Bool} (h : TablesOk c s.subs) :
    Walled fresh s (Google.claimed c s code purchaseToken transfer sub).1 := by
  rcases @Google.claimed_out c s code purchaseToken sub transfer with ⟨reply, heq⟩ |
    ⟨facts, -, ⟨howner, heq⟩ | ⟨havailable, reply, heq⟩⟩ <;> rw [heq]
  · exact .nil s
  · refine walled_settleBind fun row hrow _ => ?_
    exact (howner row hrow (h.rows .google purchaseToken row hrow).1).symm
  · exact walled_googleTransferTo fun _ => havailable

lemma walled_settleGrant {caller : GoogleCaller} {event : Option Event} {facts : PeriodFacts} :
    Walled fresh s (Google.settleGrant c s caller event code purchaseToken facts).1 := by
  obtain ⟨pays, reply, heq, hpays⟩ :=
    @Google.settleGrant_eq c s code purchaseToken caller event facts
  rw [heq]
  refine .of_mem (fun w hw _ => ?_) s
  rcases List.mem_append.mp hw with hw | hw
  · rw [hpays w hw]
    trivial
  · obtain ⟨e, -, rfl⟩ := Option.map_eq_some_iff.mp (Option.mem_toList.mp hw)
    trivial

end Google

/-! ### The Stripe stretches -/

section Stripe

variable {code subId : String}

lemma walled_stripeTransferTo {sub : StripeSubscription} {knownPlan : Option Plan}
    {actor : TransferActor} {grant : Bool}
    (havailable : actor = .user → transferAvailableAt
      ((s.subs.get .stripe subId).bind SubscriptionRow.transferredAt) s.nowS = none) :
    Walled fresh s (Stripe.transferTo c s code subId sub knownPlan actor grant).1 :=
  Walled.move havailable fun w hw => by cases hw

lemma walled_onCheckoutCompleted {session : Session} :
    Walled fresh s (Stripe.onCheckoutCompleted s session).1 := by
  rcases @Stripe.onCheckoutCompleted_writes s session with heq |
    ⟨code, subId, -, -, heq⟩ <;> rw [heq]
  · exact .nil s
  · refine .cons (fun row hrow _ => Or.inl ?_) fun w hw _ => ?_
    · rw [hrow]
      rfl
    · rw [List.mem_singleton.mp hw]
      trivial

/-- A paid invoice that remembers the code of its subscription. -/
lemma walled_linesRead {invoice : Invoice} {binding : Option Binding} {listed : List InvoiceLine}
    (h : Task.current s (.invoiceBound (.paid invoice) binding) = true) :
    Walled fresh s (Stripe.linesRead c invoice binding listed).1 := by
  have hbind : ∀ bound, binding = some bound → ∀ plan, WallOk fresh s
      (.upsert .stripe bound.subId bound.code plan invoice.customer) := by
    rintro bound rfl plan row hrow hmoved
    left
    simpa [Task.current, hrow, hmoved] using h
  rcases @Stripe.linesRead_out c invoice binding listed with ⟨reply, heq⟩ |
    ⟨bound, lines, plan, hbound, -, -, ⟨-, reply, heq⟩ | ⟨-, heq⟩⟩ <;> rw [heq]
  · exact .nil s
  · refine .cons (hbind bound hbound plan) fun w hw _ => ?_
    rw [List.mem_singleton.mp hw]
    trivial
  · exact .cons (hbind bound hbound plan) fun w hw => by cases hw

lemma walled_daysRead {invoice : Invoice} {bound : Binding} {lines : List InvoiceLine}
    {plan : Plan} {price : Price} :
    Walled fresh s (Stripe.daysRead c s invoice bound lines plan price).1 := by
  rcases @Stripe.daysRead_out c s invoice bound lines plan price with heq |
    ⟨days, reply, -, ⟨-, heq⟩ | ⟨-, heq⟩⟩ <;> rw [heq]
  · exact .nil s
  · exact ⟨trivial, trivial⟩
  · refine .of_mem (fun w hw _ => ?_) s
    rcases List.mem_append.mp hw with hw | hw
    · rw [(mem_recordGrant hw).1]
      trivial
    · split at hw
      · cases hw
      · rw [List.mem_singleton.mp hw]
        trivial

end Stripe

/-! ### Steps and runs -/

lemma Walled.withCode {code : String} {run : List Write × Next} (h : Walled fresh s run.1) :
    Walled fresh s (withCode c code run).1 := by
  rw [Rails.withCode]
  split
  · exact h
  · exact .nil s

lemma walled_startRebind (rail : Rail) (x code : String) (grantRemaining : Bool) :
    Walled fresh s (startRebind c s rail x code grantRemaining).1 := by
  rw [startRebind.eq_def]
  split
  · exact .nil s
  · refine .withCode ?_
    split
    · exact .nil s
    · split
      · exact .nil s
      · cases rail with
        | apple => exact walled_appleRebind
        | google =>
            dsimp only
            rcases @Google.adminRebind_out s code x grantRemaining with ⟨reply, heq⟩ |
              ⟨plan, reply, heq⟩ | heq <;> rw [heq]
            · exact .nil s
            · exact .cons (fun h => by cases h) fun w hw => by cases hw
            · exact .nil s
        | stripe => exact .nil s
        | voucher => exact .nil s

/-- No request breaks the wall when it starts. -/
lemma walled_start (request : Request) : Walled fresh s (start c s request).1 := by
  cases request with
  | appleVerify code => exact .withCode (.nil s)
  | appleClaim code transfer => exact .withCode (.nil s)
  | appleNotification => exact .nil s
  | googleVerify code token => exact .withCode (.nil s)
  | googleClaim code token transfer => exact .withCode (.nil s)
  | googleRtdn message =>
      rcases @Google.handleRtdn_out c s message with ⟨reply, heq⟩ | ⟨token, reply, heq⟩ |
        ⟨type, token, -, -, heq⟩ <;> rw [start, heq]
      · exact .nil s
      · exact ⟨trivial, trivial⟩
      · exact .nil s
  | stripeTransfer code => exact .withCode (.nil s)
  | stripeWebhook event =>
      cases event with
      | checkoutCompleted session => exact walled_onCheckoutCompleted
      | invoicePaid invoice => exact .nil s
      | chargeRefunded invoice paymentIntent => exact .nil s
      | subscriptionDeleted subId =>
          refine .of_mem (fun w hw _ => ?_) s
          simp only [start, Stripe.handleWebhook, Stripe.onSubscriptionDeleted] at hw
          split at hw
          · rw [List.mem_singleton.mp hw]
            trivial
          · cases hw
      | other type => exact .nil s
  | rebind rail x code grantRemaining => exact walled_startRebind rail x code grantRemaining

/-- A handler breaks the wall only with a stale invoice or an Apple purchase
of the second of a move. -/
lemma walled_resume (h : TablesOk c s.subs) {task : Task} {answer : Answer} {i : Nat}
    (hcurrent : ∀ listed, answer = .lines listed → Task.current s task = true)
    (hdated : ∀ t sandbox, answer = .transaction (some t) sandbox → datedAfter s t = true)
    {out : List Write × Next} (hout : resume c s task answer = some out) :
    Walled (FreshPurchase s (.resume i answer)) s out.1 := by
  rw [resume.eq_def] at hout
  split at hout <;> cases hout
  · exact walled_verifyPurchase rfl fun t ht => hdated t _ (by rw [ht])
  · exact walled_claimPurchase rfl fun t ht => hdated t _ (by rw [ht])
  · exact .nil s
  · exact walled_notified rfl fun t ht => hdated t _ (by rw [ht])
  · exact walled_verified
  · exact walled_claimed h
  · rename_i token code sub
    rcases @Google.rebound_out c s code token sub with ⟨reply, heq⟩ |
      ⟨facts, reply, -, heq⟩ <;> rw [heq]
    · exact .nil s
    · exact walled_googleTransferTo fun huser => by cases huser
  · exact .nil s
  · exact walled_settleGrant
  · exact walled_settleGrant
  · exact .nil s
  · exact .nil s
  · rename_i code subId sub
    rcases @Stripe.transferred_out c s code subId sub with ⟨reply, heq⟩ |
      ⟨havailable, reply, heq⟩ <;> rw [heq]
    · exact .nil s
    · exact walled_stripeTransferTo fun _ => havailable
  · rename_i code subId grantRemaining known sub
    rcases @Stripe.rebound_out c s code subId sub grantRemaining known with ⟨reply, heq⟩ |
      ⟨reply, heq⟩ <;> rw [heq]
    · exact .nil s
    · exact walled_stripeTransferTo fun huser => by cases huser
  · exact .nil s
  · exact walled_linesRead (hcurrent _ rfl)
  · rename_i binding
    rw [Stripe.refundBound.eq_def]
    split
    · exact .nil s
    · exact ⟨trivial, trivial⟩
  · exact walled_daysRead
  · exact .nil s
  · exact .nil s
  · exact .nil s

/-- An unbroken stretch keeps the wall. -/
lemma Stretch.walled {a : Action} {ws : List Write} {next : Next} (h : CodesOk c s)
    (hG : unbroken s a = true) (hs : Stretch c s s₀ a ws next) :
    Walled (FreshPurchase s a) s₀ ws := by
  cases hs with
  | start request => exact walled_start request
  | @resume i answer task _ htask hout =>
      have htables : TablesOk c (s.drop i).subs := h.tables
      refine @walled_resume c (s.drop i) htables task answer i ?_ ?_ _ hout
      · rintro listed rfl
        rw [unbroken, htask, Option.all_some] at hG
        exact hG
      · rintro t sandbox rfl
        exact hG

/-- **What a step keeps**: the log of the moves, and the wall where the step
is unbroken. -/
lemma step_wall {a : Action} (h : CodesOk c s) (hlog : Logged s.subs s.nowS)
    (hG : unbroken s a = true) (hstep : step c s a = some s') :
    Logged s'.subs s'.nowS ∧ Wall s a s' := by
  rcases step_cases hstep with ⟨s₀, ws, next, hs, rfl⟩ | ⟨b, workers, -, -, rfl⟩ |
    ⟨nowMs, hle, rfl⟩ | ⟨workers, -, rfl⟩
  · have hwalled := hs.walled h hG
    obtain ⟨tasks, -, rfl⟩ := hs.eq
    obtain ⟨hlog', hkept⟩ := hwalled.run hlog
    refine ⟨?_, ?_⟩
    · rw [Server.subs_finish, Server.nowS, Server.nowMs_finish]
      exact hlog'
    · obtain ⟨moves, hmoves, hrows⟩ := hkept
      exact ⟨moves, by rw [Server.subs_finish]; exact hmoves, by
        rw [Server.subs_finish]; exact hrows⟩
  · exact ⟨hlog, .refl _ s⟩
  · refine ⟨⟨hlog.logged, fun rail x row transferredAt hrow hmoved => ?_, hlog.spaced⟩, .refl _ s⟩
    have hnow : s.nowMs / 1000 ≤ nowMs / 1000 := Int.ediv_le_ediv (by decide) hle
    exact (hlog.past rail x row transferredAt hrow hmoved).trans hnow
  · exact ⟨hlog, .refl _ s⟩

lemma Logged.init (height nowMs : Int) :
    Logged (Server.init height nowMs).subs (Server.init height nowMs).nowS where
  logged _ he := by cases he
  past _ _ _ _ hrow := by cases hrow
  spaced := .nil

/-- **The transfer wall.** In a run whose steps are unbroken, any two user
transfers of a subscription are an interval apart, and every step leaves the
code of a moved subscription alone unless it moves it again or handles a fresh
purchase. -/
theorem transfer_wall (c : RailsConfig) (height nowMs : Int) {as : List Action} {s : Server}
    (h : exec (step c) (Server.init height nowMs) as = some s)
    (hG : Along (step c) (fun s a => unbroken s a = true) (Server.init height nowMs) as) :
    s.subs.transfers.Pairwise Spaced ∧
      Along (step c) (fun s a => ∀ s', step c s a = some s' → Wall s a s')
        (Server.init height nowMs) as := by
  have hstep : ∀ s a s', (CodesOk c s ∧ Logged s.subs s.nowS) → unbroken s a = true →
      step c s a = some s' → (CodesOk c s' ∧ Logged s'.subs s'.nowS) :=
    fun s a s' ⟨hcodes, hlog⟩ hGa ha =>
      ⟨step_codesOk hcodes ha, (step_wall hcodes hlog hGa ha).1⟩
  have hinit : CodesOk c (Server.init height nowMs) ∧
      Logged (Server.init height nowMs).subs (Server.init height nowMs).nowS :=
    ⟨.init height nowMs, .init height nowMs⟩
  refine ⟨(exec_invariant hstep hinit hG h).2.spaced, ?_⟩
  exact hG.strengthen hstep
    (fun s a ⟨hcodes, hlog⟩ hGa s' ha => (step_wall hcodes hlog hGa ha).2) hinit

/-! ### An invoice that undoes a move -/

/-- The code of a device. -/
def codeA : String := "deviceAAAAAAAAAAAAAAAAAAAAA"

/-- The code of another device. -/
def codeB : String := "deviceBBBBBBBBBBBBBBBBBBBBB"

/-- A subscription of device A in its first month. -/
def stripeSub : StripeSubscription where
  status := "active"
  livemode := true
  metadata := ⟨some codeA, some "monthly"⟩
  itemPrice := some "price_m"
  itemPeriodEnd := some (30 * 86400)
  legacyPeriodEnd := none

/-- An invoice of it whose lines do not fit on the first page. -/
def pagedInvoice : Invoice where
  id := some "in_1"
  amountPaid := 500
  discounts := []
  livemode := true
  currency := "usd"
  totalExcludingTax := none
  subtotal := some 500
  customer := some "cus_1"
  created := 0
  parentSubscription := some "sub_1"
  legacySubscription := none
  parentMetadata := some ⟨some codeA, some "monthly"⟩
  legacyMetadata := none
  lines := []
  hasMore := true

/-- The line of an invoice for a month. -/
def monthlyLine : InvoiceLine := ⟨500, some "price_m", none, false, false, false⟩

/-- The checkout of device A, and its invoice up to the listing of its
lines. -/
def paidActions : List Action :=
  [.start (.stripeWebhook (.checkoutCompleted
      ⟨⟨some codeA, some "monthly"⟩, some "sub_1", some "cus_1"⟩)),
    .start (.stripeWebhook (.invoicePaid pagedInvoice))]

/-- The transfer to device B. -/
def transferActions : List Action :=
  [.start (.stripeTransfer codeB), .resume 0 (.session (some "sub_1")),
    .resume 0 (.subscription stripeSub), .resume 0 .done]

/-- The lines of the invoice are listed; the subscription moves while the
invoice waits for the price, and is granted then. -/
def listedActions : List Action :=
  .resume 0 (.lines [monthlyLine]) :: transferActions ++ [.resume 0 (.price ⟨some 500, "usd"⟩)]

/-- The invoice is in flight over the transfer, and leaves it alone. -/
theorem transfer_wall_transferred :
    ∃ s, exec (step testConfig) (Server.init 100 0) (paidActions ++ listedActions) = some s ∧
      (s.subs.get .stripe "sub_1").map SubscriptionRow.paymentCode = some codeB ∧
      s.subs.transfers.Pairwise Spaced ∧
      Along (step testConfig) (fun s a => ∀ s', step testConfig s a = some s' → Wall s a s')
        (Server.init 100 0) (paidActions ++ listedActions) := by
  have hrun : (exec (step testConfig) (Server.init 100 0) (paidActions ++ listedActions)).any
      fun s => (s.subs.get .stripe "sub_1").map SubscriptionRow.paymentCode = some codeB := by
    decide +kernel
  have hG : Along (step testConfig) (fun s a => unbroken s a = true) (Server.init 100 0)
      (paidActions ++ listedActions) := by decide +kernel
  obtain ⟨s, hs, hcode⟩ := (Option.any_eq_true _ _).mp hrun
  exact ⟨s, hs, of_decide_eq_true hcode, transfer_wall testConfig 100 0 hs hG⟩

/-- **The lines of an invoice are listed while its subscription moves from
device A to device B: the invoice binds it to A again.** -/
theorem not_transfer_wall :
    ∃ s s', exec (step testConfig) (Server.init 100 0) (paidActions ++ transferActions) = some s ∧
      step testConfig s (.resume 0 (.lines [monthlyLine])) = some s' ∧
      (s.subs.get .stripe "sub_1").map SubscriptionRow.paymentCode = some codeB ∧
      (s'.subs.get .stripe "sub_1").map SubscriptionRow.paymentCode = some codeA ∧
      ¬ Wall s (.resume 0 (.lines [monthlyLine])) s' := by
  have hrun : (exec (step testConfig) (Server.init 100 0) (paidActions ++ transferActions)).any
      fun s => (s.subs.get .stripe "sub_1").any (fun row =>
          row.paymentCode = codeB ∧ row.transferredAt = some 0) ∧
        (step testConfig s (.resume 0 (.lines [monthlyLine]))).any fun s' =>
          (s'.subs.get .stripe "sub_1").map SubscriptionRow.paymentCode = some codeA ∧
            s'.subs.transfers.length = s.subs.transfers.length := by decide +kernel
  obtain ⟨s, hs, hboth⟩ := (Option.any_eq_true _ _).mp hrun
  obtain ⟨hbefore, hafter⟩ := of_decide_eq_true hboth
  obtain ⟨row, hrow, hrow'⟩ := (Option.any_eq_true _ _).mp hbefore
  obtain ⟨hcodeB, hmoved⟩ := of_decide_eq_true hrow'
  obtain ⟨s', hs', hafter'⟩ := (Option.any_eq_true _ _).mp hafter
  obtain ⟨hcodeA, hlength⟩ := of_decide_eq_true hafter'
  refine ⟨s, s', hs, hs', by rw [hrow, Option.map_some, hcodeB], hcodeA, ?_⟩
  rintro ⟨moves, hmoves, hkept⟩
  obtain ⟨row', hrow'', -, hcode⟩ := hkept .stripe "sub_1" row hrow (by simp [hmoved])
  rw [hrow'', Option.map_some, Option.some_inj] at hcodeA
  rcases hcode with hcode | ⟨t, ht, -⟩ | ⟨hrail, -⟩
  · rw [hcodeA, hcodeB] at hcode
    exact absurd hcode (by decide)
  · -- nothing was logged
    have hnil : moves = [] := by
      rw [hmoves, List.length_append] at hlength
      exact List.eq_nil_of_length_eq_zero (by omega)
    rw [hnil] at ht
    cases ht
  · cases hrail

end CumulusVpn.Bridge.Rails
