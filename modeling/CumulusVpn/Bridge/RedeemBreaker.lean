/-
The breaker of the redeem endpoint (`bridge/src/breaker.ts`, and its use in
`bridge/src/server.ts`).

* `Breaker`, `recordInvalid`: the attempts within the window, and until when the
  endpoint is closed;
* `Endpoint`, `step`: requests, and other changes to the vouchers, in the order
  of time;
* `Guarded`: what the attempts on record say of those that were admitted;
* `redeem_breaker`: **a window admits one invalid attempt more than the limit at
  most, and an open breaker none**.
-/
import CumulusVpn.Bridge.Vouchers

namespace CumulusVpn.Bridge.Redeem

open StepSystem Vouchers

/-! ### The breaker -/

/-- What a breaker is set to. -/
structure BreakerLimits where
  maxAttempts : Nat
  windowMs : Int
  cooldownMs : Int

/-- A breaker: the invalid attempts it counts, and until when it is open. -/
structure Breaker where
  attempts : List Int
  openUntil : Int
  /-- how often `onTrip` was called -/
  trips : Nat

namespace Breaker

/-- A breaker that has counted nothing. -/
def new : Breaker := ⟨[], 0, 0⟩

/-- Nothing is redeemed. -/
def isOpen (b : Breaker) (now : Int) : Bool := now < b.openUntil

/-- An invalid attempt is counted; one too many within the window opens it and
clears the count. -/
def recordInvalid (l : BreakerLimits) (b : Breaker) (now : Int) : Breaker :=
  let cutoff := now - l.windowMs
  let attempts := b.attempts.filter (· > cutoff) ++ [now]
  if attempts.length > l.maxAttempts ∧ !b.isOpen now then
    ⟨[], now + l.cooldownMs, b.trips + 1⟩
  else { b with attempts := attempts }

end Breaker

/-! ### The endpoint -/

/-- A request: the clock is read when the breaker is asked, and again when the
request is answered. -/
structure Redemption where
  req : RedeemRequest
  checkedAt : Int
  answeredAt : Int
  fault : Option Nat

/-- The endpoint with its breaker, over the vouchers. -/
structure Endpoint where
  breaker : Breaker
  tables : Tables
  nowMs : Int
  /-- the invalid attempts that were admitted, newest first -/
  invalid : List Redemption

/-- What changes the endpoint. -/
inductive Request
  | redeem (r : Redemption)
  /-- the vouchers change by another request -/
  | tables (t : Tables)

/-- An endpoint before its first request. -/
def Endpoint.new (nowMs : Int) (t : Tables) : Endpoint := ⟨.new, t, nowMs, []⟩

section Step

variable (c : VoucherConfig) (l : BreakerLimits) (s : Endpoint)

/-- The reply to a request, and the vouchers after it. -/
def Endpoint.redeem (r : Redemption) : RedeemReply × Tables :=
  Vouchers.redeem c r.fault (s.breaker.isOpen r.checkedAt) r.req (r.answeredAt / 1000) s.tables

/-- A redemption is answered, and counted if it was invalid. -/
def Endpoint.serve (r : Redemption) : Endpoint :=
  let out := s.redeem c r
  let s := { s with tables := out.2, nowMs := r.answeredAt }
  if out.1 = .invalid then
    { s with
      breaker := s.breaker.recordInvalid l r.answeredAt
      invalid := r :: s.invalid }
  else s

/-- The endpoint after a request; none where the clock would go back. -/
def step : Request → Option Endpoint
  | .redeem r =>
      if s.nowMs ≤ r.checkedAt ∧ r.checkedAt ≤ r.answeredAt then some (s.serve c l r) else none
  | .tables t => some { s with tables := t }

end Step

section Windows

variable (l : BreakerLimits) (time : Redemption → Int)

/-- How many attempts fall into the window that begins at `a`. -/
def countIn (a : Int) (rs : List Redemption) : Nat :=
  rs.countP fun r => a ≤ time r ∧ time r < a + l.windowMs

/-- An attempt happens between its two readings of the clock. -/
def Timed : Prop :=
  ∀ r : Redemption, r.checkedAt ≤ r.answeredAt → r.checkedAt ≤ time r ∧ time r ≤ r.answeredAt

/-- What the attempts on record say of those that were admitted: where the
breaker is closed, all those that a window can still share are on record. -/
structure Guarded (s : Endpoint) : Prop where
  bound : ∀ a, countIn l time a s.invalid ≤ l.maxAttempts + 1
  recent : ∀ a now, s.nowMs ≤ now → s.breaker.isOpen now = false → now < a + l.windowMs →
    countIn l time a s.invalid ≤ s.breaker.attempts.countP (a ≤ ·)
  few : s.breaker.attempts.length ≤ l.maxAttempts
  past : ∀ r ∈ s.invalid, time r ≤ s.nowMs

end Windows

section Guarded

variable {c : VoucherConfig} {l : BreakerLimits} {time : Redemption → Int} {s s' : Endpoint}
  {r : Redemption}

lemma Guarded.new (nowMs : Int) (t : Tables) : Guarded l time (.new nowMs t) where
  bound _ := Nat.zero_le _
  recent _ _ _ _ _ := Nat.zero_le _
  few := Nat.zero_le _
  past _ h := by cases h

/-- The tables change, and the clock may go on. -/
lemma Guarded.later (h : Guarded l time s) {nowMs : Int} (hnow : s.nowMs ≤ nowMs) (t : Tables) :
    Guarded l time { s with tables := t, nowMs := nowMs } where
  bound := h.bound
  recent a now hle := h.recent a now (hnow.trans hle)
  few := h.few
  past r hr := (h.past r hr).trans hnow

/-- No attempt of the past is in a window that begins later. -/
lemma countIn_eq_zero {a now : Int} {rs : List Redemption} (hpast : ∀ r ∈ rs, time r ≤ now)
    (ha : now < a) : countIn l time a rs = 0 := by
  rw [countIn, List.countP_eq_zero]
  intro r hr hin
  have hle := hpast r hr
  have hge := (of_decide_eq_true hin).1
  omega

lemma countIn_cons (a : Int) (rs : List Redemption) :
    countIn l time a (r :: rs) =
      countIn l time a rs + if a ≤ time r ∧ time r < a + l.windowMs then 1 else 0 := by
  rw [countIn, List.countP_cons]
  simp only [decide_eq_true_eq]
  rfl

/-- Below the limit, a window has room for one more attempt. -/
lemma Guarded.countIn_le (h : Guarded l time s) (hnow : s.nowMs ≤ r.checkedAt)
    (hclosed : s.breaker.isOpen r.checkedAt = false) {a : Int}
    (ha : r.checkedAt < a + l.windowMs) : countIn l time a s.invalid ≤ l.maxAttempts :=
  (h.recent a r.checkedAt hnow hclosed ha).trans (List.countP_le_length.trans h.few)

/-- What is recorded keeps what later windows can share. -/
lemma countP_recorded {attempts : List Int} {a now : Int} (ha : now - l.windowMs < a) :
    ((attempts.filter (· > now - l.windowMs)) ++ [now]).countP (a ≤ ·) =
      attempts.countP (a ≤ ·) + if a ≤ now then 1 else 0 := by
  rw [List.countP_append, List.countP_filter, List.countP_singleton]
  congr 1
  · refine List.countP_congr fun t _ => ?_
    simp only [decide_eq_true_eq, Bool.and_eq_true]
    constructor
    · exact fun h => h.1
    · exact fun h => ⟨h, by omega⟩
  · simp only [decide_eq_true_eq]

/-- **An admitted attempt keeps the bound.** -/
lemma Guarded.record (hcooldown : l.windowMs ≤ l.cooldownMs) (htime : Timed time)
    (h : Guarded l time s) (hnow : s.nowMs ≤ r.checkedAt) (horder : r.checkedAt ≤ r.answeredAt)
    (hclosed : s.breaker.isOpen r.checkedAt = false) (t : Tables) :
    Guarded l time ⟨s.breaker.recordInvalid l r.answeredAt, t, r.answeredAt, r :: s.invalid⟩ := by
  obtain ⟨hfrom, hto⟩ := htime r horder
  have hpast : ∀ r' ∈ r :: s.invalid, time r' ≤ r.answeredAt := by
    refine List.forall_mem_cons.mpr ⟨hto, fun r' hr' => ?_⟩
    have hle := h.past r' hr'
    omega
  have hbound : ∀ a, countIn l time a (r :: s.invalid) ≤ l.maxAttempts + 1 := by
    intro a
    rw [countIn_cons]
    by_cases hin : a ≤ time r ∧ time r < a + l.windowMs
    · have hroom := h.countIn_le hnow hclosed (a := a) (by omega)
      rw [if_pos hin]
      omega
    · have hle := h.bound a
      rw [if_neg hin]
      omega
  have hstill : s.breaker.isOpen r.answeredAt = false := by
    rw [Breaker.isOpen, decide_eq_false_iff_not] at hclosed ⊢
    omega
  rw [Breaker.recordInvalid]
  split
  · -- the breaker trips: a window that is still to come begins after this attempt
    refine ⟨hbound, fun a now _ hopen ha => ?_, Nat.zero_le _, hpast⟩
    have hlate : r.answeredAt + l.cooldownMs ≤ now := by
      rw [Breaker.isOpen, decide_eq_false_iff_not] at hopen
      exact not_lt.mp hopen
    rw [countIn_eq_zero hpast (by omega)]
    exact Nat.zero_le _
  · rename_i hlimit
    rw [hstill, Bool.not_false, and_iff_left rfl, not_lt] at hlimit
    refine ⟨hbound, fun a now hle hopen ha => ?_, hlimit, hpast⟩
    change r.answeredAt ≤ now at hle
    have hold := h.recent a now (by omega) hopen ha
    rw [countIn_cons, countP_recorded (by omega)]
    by_cases hin : a ≤ time r ∧ time r < a + l.windowMs
    · rw [if_pos hin, if_pos (by omega)]
      omega
    · rw [if_neg hin]
      omega

/-- An invalid attempt was admitted. -/
lemma closed_of_invalid (h : (s.redeem c r).1 = .invalid) :
    s.breaker.isOpen r.checkedAt = false := by
  rw [Endpoint.redeem, Vouchers.redeem] at h
  split at h
  · cases h
  · rename_i hclosed
    exact Bool.eq_false_iff.mpr hclosed

lemma step_guarded (hcooldown : l.windowMs ≤ l.cooldownMs) (htime : Timed time) {e : Request}
    (h : Guarded l time s) (hstep : step c l s e = some s') : Guarded l time s' := by
  cases e with
  | redeem r =>
      rw [step] at hstep
      split at hstep
      · rename_i horder
        cases hstep
        rw [Endpoint.serve]
        dsimp only
        split
        · rename_i hinvalid
          exact h.record hcooldown htime horder.1 horder.2 (closed_of_invalid hinvalid) _
        · exact h.later (horder.1.trans horder.2) _
      · cases hstep
  | tables t =>
      cases hstep
      exact h.later le_rfl t

end Guarded

/-! ### The cooldown -/

/-- The breaker stays open until `closes`, unless that time is over. -/
def OpenTill (closes : Int) (s : Endpoint) : Prop :=
  closes ≤ s.breaker.openUntil ∨ closes ≤ s.nowMs

section Cooldown

variable {c : VoucherConfig} {l : BreakerLimits} {s s' : Endpoint} {r : Redemption} {closes : Int}

lemma OpenTill.record (h : OpenTill closes s) (horder : s.nowMs ≤ r.answeredAt) (t : Tables)
    (rs : List Redemption) :
    OpenTill closes ⟨s.breaker.recordInvalid l r.answeredAt, t, r.answeredAt, rs⟩ := by
  rw [Breaker.recordInvalid]
  split
  · rename_i htrips
    have hclosed : ¬ r.answeredAt < s.breaker.openUntil := by
      simpa [Breaker.isOpen] using htrips.2
    right
    change closes ≤ r.answeredAt
    rcases h with hopen | hover <;> omega
  · exact h.imp id fun hover => hover.trans horder

lemma step_openTill {e : Request} (h : OpenTill closes s) (hstep : step c l s e = some s') :
    OpenTill closes s' := by
  cases e with
  | redeem r =>
      rw [step] at hstep
      split at hstep
      · rename_i horder
        have hnow := horder.1.trans horder.2
        cases hstep
        rw [Endpoint.serve]
        dsimp only
        split
        · exact h.record hnow _ _
        · exact h.imp id fun hover => hover.trans hnow
      · cases hstep
  | tables t =>
      cases hstep
      exact h

/-- A step that trips the breaker opens it for the cooldown. -/
lemma openUntil_of_trips (hstep : step c l s (.redeem r) = some s')
    (htrips : s'.breaker.trips ≠ s.breaker.trips) :
    s'.breaker.openUntil = r.answeredAt + l.cooldownMs := by
  rw [step] at hstep
  split at hstep
  · cases hstep
    rw [Endpoint.serve] at htrips ⊢
    dsimp only at htrips ⊢
    split at htrips
    · rename_i hinvalid
      rw [if_pos hinvalid]
      dsimp only at htrips ⊢
      rw [Breaker.recordInvalid] at htrips ⊢
      split at htrips
      · rename_i hlimit
        rw [if_pos hlimit]
      · exact absurd rfl htrips
    · exact absurd rfl htrips
  · cases hstep

lemma redeem_of_open (hopen : s.breaker.isOpen r.checkedAt = true) :
    (s.redeem c r).1 = .rateLimited := by
  rw [Endpoint.redeem, Vouchers.redeem, if_pos hopen]

end Cooldown

/-- **Every window admits one invalid attempt more than the limit at most,
whichever moment of an attempt is its time; and from the attempt that opens the
breaker on, none is admitted before the cooldown ends.** -/
theorem redeem_breaker (c : VoucherConfig) {l : BreakerLimits}
    (hcooldown : l.windowMs ≤ l.cooldownMs) (nowMs : Int) (t : Tables) {es : List Request}
    {s : Endpoint} (h : exec (step c l) (.new nowMs t) es = some s) :
    (∀ time, Timed time → ∀ a, countIn l time a s.invalid ≤ l.maxAttempts + 1) ∧
      ∀ r s', step c l s (.redeem r) = some s' → s'.breaker.trips ≠ s.breaker.trips →
        ∀ later s'', exec (step c l) s' later = some s'' →
          ∀ r', s''.nowMs ≤ r'.checkedAt → r'.checkedAt < r.answeredAt + l.cooldownMs →
            (s''.redeem c r').1 = .rateLimited := by
  constructor
  · intro time htime a
    have hguarded : Guarded l time s :=
      exec_invariant (G := fun _ _ => True) (I := Guarded l time)
        (fun _ _ _ hs _ hstep => step_guarded hcooldown htime hs hstep) (.new nowMs t)
        (along_of_forall (fun _ _ => trivial) _ _) h
    exact hguarded.bound a
  · intro r s' hstep htrips later s'' hlater r' hnow hbefore
    have hopened : OpenTill (r.answeredAt + l.cooldownMs) s' :=
      Or.inl (openUntil_of_trips hstep htrips).ge
    have hopen : OpenTill (r.answeredAt + l.cooldownMs) s'' :=
      exec_invariant (G := fun _ _ => True) (I := OpenTill (r.answeredAt + l.cooldownMs))
        (fun _ _ _ hs _ hstep => step_openTill hs hstep) hopened
        (along_of_forall (fun _ _ => trivial) _ _) hlater
    refine redeem_of_open (decide_eq_true ?_)
    rcases hopen with hopen | hover <;> omega

/-- A bridge without vouchers. -/
def emptyConfig : VoucherConfig where
  bridge :=
    { treasury := "t"
      paymentAddress := "p"
      priceSchedule := .flat 20 twenty_pos
      feeZats := 500
      isValidPaymentCode := fun _ => true
      txid := fun _ => "" }
  priceZats := 2000000000
  dayGrantsEnabled := true
  stripeEnabled := false
  toUpperCase := id

/-- A guess. -/
def guess (now : Int) : Redemption := ⟨⟨"code", "AAAAAAAAAA"⟩, now, now, none⟩

/-- At a limit of one, two guesses are admitted and close the endpoint. -/
theorem redeem_breaker_guesses :
    ∃ s, exec (step emptyConfig ⟨1, 1000, 2000⟩) (.new 0 ⟨[], [], ⟨[], []⟩⟩)
        [.redeem (guess 10)] = some s ∧
      countIn ⟨1, 1000, 2000⟩ Redemption.checkedAt 10 s.invalid ≤ 2 ∧
      ∃ s', step emptyConfig ⟨1, 1000, 2000⟩ s (.redeem (guess 20)) = some s' ∧
        (s'.redeem emptyConfig (guess 500)).1 = .rateLimited := by
  have hrun : (exec (step emptyConfig ⟨1, 1000, 2000⟩) (.new 0 ⟨[], [], ⟨[], []⟩⟩)
      [.redeem (guess 10)]).any fun s =>
        (step emptyConfig ⟨1, 1000, 2000⟩ s (.redeem (guess 20))).any fun s' =>
          s'.breaker.trips ≠ s.breaker.trips ∧ s'.nowMs ≤ 500 := by decide +kernel
  obtain ⟨s, hs, hany⟩ := (Option.any_eq_true _ _).mp hrun
  obtain ⟨s', hs', htrips⟩ := (Option.any_eq_true _ _).mp hany
  obtain ⟨htrips, hnow⟩ := of_decide_eq_true htrips
  have hbounds := redeem_breaker emptyConfig (l := ⟨1, 1000, 2000⟩) (by decide) 0
    ⟨[], [], ⟨[], []⟩⟩ hs
  refine ⟨s, hs, hbounds.1 _ (fun r horder => ⟨le_rfl, horder⟩) 10, s', hs', ?_⟩
  exact hbounds.2 _ s' hs' htrips [] s' rfl (guess 500) hnow (by decide)

end CumulusVpn.Bridge.Redeem
