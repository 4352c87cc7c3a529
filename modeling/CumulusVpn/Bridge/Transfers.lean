/-
The two walls of a transfer (`bridge/src/transfers.ts`).

* `remainingDays`: the rest of a period, never more than the plan
  (`remainingDays_le`);
* `transferEventKey`: the key of a transfer grant, which names one
  subscription and one period end (`transferEventKey_inj`);
* `transferAvailableAt`: when a moved subscription may move again
  (`interval_le_of_available`).
-/
import Mathlib.Algebra.Order.Group.Int
import CumulusVpn.Bridge.Subscriptions

namespace CumulusVpn.Bridge

/-- `PLAN_DAYS`. -/
def planDays : Plan → Int
  | .monthly => 30
  | .annual => 360

/-- Minimum spacing between two moves of the same subscription. -/
def transferIntervalS : Int := 30 * 86400

/-- A day in milliseconds. -/
def dayMs : Int := 86400000

/-- Days left in a billing period; without a period end there is nothing left
to hand over. -/
def remainingDays (periodEndMs : Option Int) (nowMs : Int) (plan : Plan) : Int :=
  match periodEndMs with
  | none => 0
  | some periodEndMs =>
      if periodEndMs ≤ nowMs then 0
      else min (planDays plan) (max 1 (-(-(periodEndMs - nowMs) / dayMs)))

/-- Idempotency key of a transfer grant: one per subscription per billing
period. -/
def transferEventKey (subscriptionKey : String) (periodEndMs : Int) : String :=
  "transfer:" ++ subscriptionKey ++ ":" ++ toString periodEndMs

/-- When a subscription that last moved at `transferredAt` may move again;
`none` when it may now. -/
def transferAvailableAt (transferredAt : Option Int) (nowS : Int) : Option Int :=
  match transferredAt with
  | none => none
  | some transferredAt =>
      if transferredAt + transferIntervalS > nowS then some (transferredAt + transferIntervalS)
      else none

/-! ### The size of a transfer -/

lemma planDays_pos (plan : Plan) : 30 ≤ planDays plan := by
  cases plan <;> decide

/-- A transfer never hands over more than the plan. -/
lemma remainingDays_le (periodEndMs : Option Int) (nowMs : Int) (plan : Plan) :
    remainingDays periodEndMs nowMs plan ≤ planDays plan := by
  have hpos := planDays_pos plan
  rw [remainingDays.eq_def]
  split
  · omega
  · split
    · omega
    · exact min_le_left _ _

/-! ### The period that a key names -/

lemma colon_notMem_repr (n : Int) : ':' ∉ n.repr.toList := by
  have hnat : ∀ m : Nat, ':' ∉ m.repr.toList := by
    intro m hm
    rw [Nat.toList_repr] at hm
    exact absurd (Nat.isDigit_of_mem_toDigits (by decide) (by decide) hm) (by decide)
  cases n with
  | ofNat m => exact hnat m
  | negSucc m => simpa [Int.repr] using hnat (m + 1)

lemma repr_injective : Function.Injective Int.repr := by
  have hnat : ∀ {m n : Nat}, m.repr = n.repr → m = n := by
    intro m n h
    have h' : m.repr.toList = n.repr.toList := congrArg String.toList h
    rw [Nat.toList_repr, Nat.toList_repr] at h'
    rw [← Nat.ofDigitChars_toDigits (b := 10) (n := m) (by decide) (by decide), h',
      Nat.ofDigitChars_toDigits (by decide) (by decide)]
  -- a sign is not a digit
  have hsign : ∀ m n : Nat, m.repr ≠ "-" ++ n.repr := by
    intro m n h
    have hmem : '-' ∈ m.repr.toList := by simp [h]
    rw [Nat.toList_repr] at hmem
    exact absurd (Nat.isDigit_of_mem_toDigits (by decide) (by decide) hmem) (by decide)
  intro a b h
  cases a with
  | ofNat m =>
      cases b with
      | ofNat n => rw [hnat h]
      | negSucc n => exact absurd h (hsign _ _)
  | negSucc m =>
      cases b with
      | ofNat n => exact absurd h.symm (hsign _ _)
      | negSucc n =>
          have h' : m.succ.repr = n.succ.repr := by simpa [Int.repr] using h
          rw [Nat.succ_injective (hnat h')]

/-- What stands after the last separator of a list determines the rest. -/
lemma append_cons_inj_right {α : Type} {c : α} {xs ys xs' ys' : List α} (hys : c ∉ ys)
    (hys' : c ∉ ys') (h : xs ++ c :: ys = xs' ++ c :: ys') : xs = xs' ∧ ys = ys' := by
  rcases List.append_eq_append_iff.mp h with ⟨zs, hxs, hzs⟩ | ⟨zs, hxs, hzs⟩
  · rcases List.cons_eq_append_iff.mp hzs with ⟨rfl, hys⟩ | ⟨ws, -, rfl⟩
    · rw [List.append_nil] at hxs
      exact ⟨hxs.symm, (List.cons_inj_right c).mp hys.symm⟩
    · exact absurd (List.mem_append_right ws List.mem_cons_self) hys
  · rcases List.cons_eq_append_iff.mp hzs with ⟨rfl, hys⟩ | ⟨ws, -, rfl⟩
    · rw [List.append_nil] at hxs
      exact ⟨hxs, (List.cons_inj_right c).mp hys⟩
    · exact absurd (List.mem_append_right ws List.mem_cons_self) hys'

/-- **A transfer key names one subscription and one period end.** -/
theorem transferEventKey_inj {key key' : String} {periodEndMs periodEndMs' : Int}
    (h : transferEventKey key periodEndMs = transferEventKey key' periodEndMs') :
    key = key' ∧ periodEndMs = periodEndMs' := by
  have hlist := congrArg String.toList h
  simp only [transferEventKey, Int.toString_eq_repr, String.toList_append, List.append_assoc,
    List.append_cancel_left_eq] at hlist
  obtain ⟨hkey, hend⟩ := append_cons_inj_right (colon_notMem_repr _) (colon_notMem_repr _) hlist
  exact ⟨String.toList_inj.mp hkey, repr_injective (String.toList_inj.mp hend)⟩

/-! ### The spacing of transfers -/

/-- A subscription that may move now last moved an interval ago. -/
lemma interval_le_of_available {transferredAt nowS : Int}
    (h : transferAvailableAt (some transferredAt) nowS = none) :
    transferredAt + transferIntervalS ≤ nowS := by
  rw [transferAvailableAt.eq_def] at h
  split at h
  · contradiction
  · rename_i hsome
    cases hsome
    split at h
    · cases h
    · omega

end CumulusVpn.Bridge
