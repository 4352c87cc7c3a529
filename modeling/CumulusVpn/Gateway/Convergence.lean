/-
Whether two gateways reach the same `paid_until` map.

Two engines that read the same payments may fold two payments for one code
in different orders, when one of them is shown late.  `stack` starts a lapsed
code at the block time of the payment and caps every grant at 720 days from
it, so the order matters unless both payments find the balance running and
away from the cap.

* `creditsTo`, `at_foldl_grantTo`: the `paid_until` of a code is the fold of
  its own credits;
* `Harmless`, `stackBy_comm_iff`: **two credits may be exchanged exactly when
  they are harmless at the balance before them**;
* `SameOrderUpToHarmless`: two orders of a code's credits that differ by
  harmless exchanges;
* `converges_of_harmless`: **engines whose orders differ by harmless
  exchanges agree on every code**;
* `not_converges`: two payments in swapped order end ten minutes apart.
-/
import CumulusVpn.Lib.Reorder
import CumulusVpn.Gateway.ExactlyOnce
import CumulusVpn.Gateway.History

namespace CumulusVpn

open StepSystem

/-! ### The credits of one code -/

/-- A credit: its days and the block time it is stacked at. -/
structure Credit where
  days : Int
  time : Int
deriving DecidableEq, Repr

/-- The prepaid time a credit adds. -/
def Credit.length (c : Credit) : Int := wrapInt64 (c.days * day)

/-- One credit stacked onto a balance. -/
def stackBy (current : Int) (c : Credit) : Int := stack current c.days c.time

/-- The credits to one code among the folded txs, in order. -/
def creditsTo (code address : String) (sched : Schedule) (txs : List Tx) : List Credit :=
  txs.filterMap fun tx =>
    match credit tx address sched with
    | none => none
    | some (c, days) => if c = code then some ⟨days, tx.time⟩ else none

/-- The `paid_until` of a code is the fold of its own credits. -/
lemma at_foldl_grantTo (code address : String) (sched : Schedule) (txs : List Tx) (m : PaidMap) :
    PaidMap.at_ (txs.foldl (grantTo address sched) m) code =
      (creditsTo code address sched txs).foldl stackBy (m.at_ code) := by
  induction txs generalizing m with
  | nil => rfl
  | cons tx txs ih =>
      rw [List.foldl_cons, ih, creditsTo, creditsTo, List.filterMap_cons]
      cases hc : credit tx address sched with
      | none => simp only [grantTo, hc]
      | some c =>
          obtain ⟨c, days⟩ := c
          simp only [grantTo, hc]
          by_cases hcode : c = code
          · subst hcode
            simp [PaidMap.at_insert, stackBy]
          · simp [PaidMap.at_insert, hcode]

/-! ### Exchanging two credits -/

/-- A balance, in closed form. -/
lemma stackBy_eq (current : Int) (c : Credit) :
    stackBy current c = min (max current c.time + c.length) (c.time + maxPrepaid) := by
  unfold stackBy stack Credit.length
  dsimp only
  split <;> split <;> omega

/-- The older credit `a` and the newer `b` may be exchanged at `current`: the
balance already runs past both and stays under the older cap, or one of the
orders meets that cap exactly. -/
def Overlaps (current : Int) (a b : Credit) : Prop :=
  (b.time ≤ current ∧ current + a.length + b.length ≤ a.time + maxPrepaid) ∨
  (max current a.time + a.length + b.length = a.time + maxPrepaid ∧
    b.time + b.length ≤ a.time + maxPrepaid) ∨
  (b.time + b.length = a.time + maxPrepaid ∧ max current a.time + a.length ≤ b.time)

instance (current : Int) (a b : Credit) : Decidable (Overlaps current a b) :=
  inferInstanceAs (Decidable (_ ∨ _ ∨ _))

/-- Two credits of positive length may be exchanged: they have one block
time, or the older overlaps the newer. -/
def Harmless (current : Int) (a b : Credit) : Prop :=
  0 < a.length ∧ 0 < b.length ∧
    (a.time = b.time ∨ (a.time < b.time ∧ Overlaps current a b) ∨
      (b.time < a.time ∧ Overlaps current b a))

instance (current : Int) (a b : Credit) : Decidable (Harmless current a b) :=
  inferInstanceAs (Decidable (_ ∧ _ ∧ _))

/-- The exchange of an older and a newer credit. -/
lemma stackBy_comm_iff_of_lt {current : Int} {a b : Credit} (ha : 0 < a.length)
    (hb : 0 < b.length) (hlt : a.time < b.time) :
    stackBy (stackBy current a) b = stackBy (stackBy current b) a ↔ Overlaps current a b := by
  simp only [stackBy_eq]
  unfold Overlaps
  generalize a.length = da at ha ⊢
  generalize b.length = db at hb ⊢
  generalize a.time = ta at hlt ⊢
  generalize b.time = tb at hlt ⊢
  generalize maxPrepaid = cap
  omega

/-- **Two credits of positive length may be exchanged exactly when they are
harmless at the balance before them.** -/
theorem stackBy_comm_iff {current : Int} {a b : Credit} (ha : 0 < a.length)
    (hb : 0 < b.length) :
    stackBy (stackBy current a) b = stackBy (stackBy current b) a ↔ Harmless current a b := by
  rcases lt_trichotomy a.time b.time with hlt | heq | hgt
  · rw [stackBy_comm_iff_of_lt ha hb hlt]
    refine ⟨fun h => ⟨ha, hb, Or.inr (Or.inl ⟨hlt, h⟩)⟩, ?_⟩
    rintro ⟨-, -, h | ⟨-, h⟩ | ⟨h, -⟩⟩
    · omega
    · exact h
    · omega
  · refine iff_of_true ?_ ⟨ha, hb, Or.inl heq⟩
    simp only [stackBy_eq, heq]
    omega
  · rw [eq_comm, stackBy_comm_iff_of_lt hb ha hgt]
    refine ⟨fun h => ⟨ha, hb, Or.inr (Or.inr ⟨hgt, h⟩)⟩, ?_⟩
    rintro ⟨-, -, h | ⟨h, -⟩ | ⟨-, h⟩⟩
    · omega
    · omega
    · exact h

/-! ### Two engines -/

/-- Two lists of folded txs credit a code in orders that differ only by
exchanges that are harmless where they happen. -/
def SameOrderUpToHarmless (code address : String) (sched : Schedule) (txs txs' : List Tx) :
    Prop :=
  Reorder stackBy Harmless zeroTime (creditsTo code address sched txs)
    (creditsTo code address sched txs')

/-- The `paid_until` of a code after a run of a fresh engine. -/
lemma at_paidUntil_polls (address : String) (sched : Schedule) (ps : List Poll) (code : String) :
    ((Engine.new address sched).polls ps).paidUntil.at_ code =
      (creditsTo code address sched ((Engine.new address sched).foldedOver ps)).foldl stackBy
        zeroTime := by
  rw [Engine.polls_toLedger, Ledger.paidUntil_polls]
  exact (at_foldl_grantTo code address sched _ ∅).trans (by rw [PaidMap.at_empty])

/-- **Convergence**: two engines that fold the payments of every code in the
same order, up to harmless exchanges, reach the same `paid_until` for every
code. -/
theorem converges_of_harmless (address : String) (sched : Schedule) (ps qs : List Poll)
    (h : ∀ code, SameOrderUpToHarmless code address sched
      ((Engine.new address sched).foldedOver ps) ((Engine.new address sched).foldedOver qs))
    (code : String) :
    ((Engine.new address sched).polls ps).paidUntil.at_ code =
      ((Engine.new address sched).polls qs).paidUntil.at_ code := by
  rw [at_paidUntil_polls, at_paidUntil_polls]
  exact (h code).foldl_eq fun current a b hab => (stackBy_comm_iff hab.1 hab.2.1).mpr hab

/-- Engines that fold the last two credits of a code in opposite orders agree
on it exactly when the exchange is harmless. -/
theorem converges_iff_of_last_two {address : String} {sched : Schedule} {ps qs : List Poll}
    {code : String} {cs : List Credit} {a b : Credit} (ha : 0 < a.length) (hb : 0 < b.length)
    (hps : creditsTo code address sched ((Engine.new address sched).foldedOver ps) = cs ++ [a, b])
    (hqs : creditsTo code address sched ((Engine.new address sched).foldedOver qs) = cs ++ [b, a]) :
    ((Engine.new address sched).polls ps).paidUntil.at_ code =
        ((Engine.new address sched).polls qs).paidUntil.at_ code ↔
      Harmless (cs.foldl stackBy zeroTime) a b := by
  rw [at_paidUntil_polls, at_paidUntil_polls, hps, hqs, List.foldl_append, List.foldl_append]
  exact stackBy_comm_iff ha hb

/-! ### Gateways that a late explorer sets apart -/

/-- The views of one chain without a reorg, through a source that shows every
payment fewer than `overlapBlocks` blocks late. -/
def LaggedRun (hist : List Tx) (vs : List ChainView) : Prop :=
  ShallowRun vs ∧ ∀ v ∈ vs, v.chain = window hist 0 v.height

/-- A view of the payments `hist` in which `shown` are shown. -/
def viewOf (hist : List Tx) (height : Int) (shown : List Tx) : ChainView :=
  ⟨height, window hist 0 height, shown, true⟩

/-- A payment for the code `abc`. -/
def paymentAt (txID : String) (height seconds : Int) : Tx where
  txID := txID
  height := height
  time := seconds * 10 ^ 9
  amountTo := 20
  memos := ["CVPN1:abc"]

/-- A payment that has time to run when the others arrive. -/
def paymentBase : Tx := paymentAt "p" 90 700

/-- The payment that a late explorer shows later. -/
def paymentA : Tx := paymentAt "a" 100 1000

/-- Mined ten blocks and ten minutes after `paymentA`. -/
def paymentB : Tx := paymentAt "b" 110 1600

/-- Both payments are shown at once. -/
def promptViews (hist : List Tx) : List ChainView :=
  [viewOf hist 120 hist]

/-- `paymentA` is shown after `paymentB`. -/
def lateViews (hist : List Tx) : List ChainView :=
  [viewOf hist 120 (hist.filter fun tx => tx.txID ≠ "a"), viewOf hist 125 hist]

/-- With a running balance the late payment makes no difference. -/
theorem converges_of_harmless_base :
    ((Engine.new "t1pay" (Schedule.flat 20 twenty_pos)).polls
        ((promptViews [paymentBase, paymentA, paymentB]).map ChainView.poll)).paidUntil.at_ "abc" =
      ((Engine.new "t1pay" (Schedule.flat 20 twenty_pos)).polls
        ((lateViews [paymentBase, paymentA, paymentB]).map
          ChainView.poll)).paidUntil.at_ "abc" := by
  refine converges_of_harmless _ _ _ _ (fun code => ?_) "abc"
  have hprompt : (Engine.new "t1pay" (Schedule.flat 20 twenty_pos)).foldedOver
      ((promptViews [paymentBase, paymentA, paymentB]).map ChainView.poll) =
      [paymentBase, paymentA, paymentB] := by decide +kernel
  have hlate : (Engine.new "t1pay" (Schedule.flat 20 twenty_pos)).foldedOver
      ((lateViews [paymentBase, paymentA, paymentB]).map ChainView.poll) =
      [paymentBase, paymentB, paymentA] := by decide +kernel
  have hp : credit paymentBase "t1pay" (Schedule.flat 20 twenty_pos) = some ("abc", 30) := by
    decide +kernel
  have ha : credit paymentA "t1pay" (Schedule.flat 20 twenty_pos) = some ("abc", 30) := by
    decide +kernel
  have hb : credit paymentB "t1pay" (Schedule.flat 20 twenty_pos) = some ("abc", 30) := by
    decide +kernel
  rw [hprompt, hlate, SameOrderUpToHarmless, creditsTo, creditsTo]
  by_cases hcode : "abc" = code
  · simp only [List.filterMap_cons, List.filterMap_nil, hp, ha, hb, if_pos hcode]
    exact Reorder.cons _ (Reorder.swap [] (by decide))
  · simp only [List.filterMap_cons, List.filterMap_nil, hp, ha, hb, if_neg hcode]
    exact Reorder.refl _ _

/-- Two payments for a new code leave two gateways ten minutes apart. -/
theorem not_converges :
    ¬ ∀ (address : String) (sched : Schedule) (hist : List Tx) (vs ws : List ChainView),
      History hist → LaggedRun hist vs → LaggedRun hist ws →
      ((Engine.new address sched).foldedOver (vs.map ChainView.poll)).Perm hist →
      ((Engine.new address sched).foldedOver (ws.map ChainView.poll)).Perm hist →
      ∀ code, ((Engine.new address sched).polls (vs.map ChainView.poll)).paidUntil.at_ code =
        ((Engine.new address sched).polls (ws.map ChainView.poll)).paidUntil.at_ code := by
  intro h
  have heq := h "t1pay" (Schedule.flat 20 twenty_pos) [paymentA, paymentB]
    (promptViews [paymentA, paymentB]) (lateViews [paymentA, paymentB])
    ⟨by decide, by decide, by decide, by decide⟩
    ⟨⟨by decide, by decide, by decide, by decide, by decide⟩, by decide⟩
    ⟨⟨by decide, by decide, by decide, by decide, by decide⟩, by decide⟩
    (by decide +kernel) (by decide +kernel) "abc"
  revert heq
  decide +kernel

end CumulusVpn
