/-
What one payment grants in the arithmetic that `entitle.go` computes with.

The ledger is folded over exact rationals. The source adds, multiplies and
divides `float64`s, converts the quotient to an `int` and multiplies it by a
day in the 64-bit nanoseconds of a `time.Duration`.

* `Arithmetic`: what an operation rounds to and what a conversion makes of a
  quotient, with the exact one and that of the source;
* `Arithmetic.grant`: `grant` over it; the exact one is that of the ledger
  (`exact_grant`);
* `Stackable`: the payments that may be stacked onto the time prepaid so far;
* `grant_bounds`: **a grant neither shortens prepaid time nor passes the cap
  just when the payment may be stacked**.
-/
import CumulusVpn.Gateway.Entitle
import CumulusVpn.Lib.Binary64

namespace CumulusVpn

/-! ### The arithmetic of a grant -/

/-- The numbers that a grant is computed with. -/
structure Arithmetic where
  /-- what the exact result of an operation is rounded to -/
  round : ℚ → ℚ
  /-- `int(q)` -/
  toInt : ℚ → Int

namespace Arithmetic

/-- The arithmetic of the ledger, which rounds nothing. -/
def exact : Arithmetic where
  round := id
  toInt := truncInt

/-- The arithmetic of the source. Go leaves the conversion of a value that no
`int` holds to the implementation, so what it makes of one is a parameter;
a quotient that overflows to an infinity is such a value. -/
def float64 (beyond : ℚ → Int) : Arithmetic where
  round := Binary64.round
  toInt q := if -2 ^ 63 ≤ truncInt q ∧ truncInt q < 2 ^ 63 then truncInt q else beyond q

variable (a : Arithmetic)

/-- `30*(tx.AmountTo+1e-9)`, with the constant as the number it is compiled
to. -/
def paid (amountTo : ℚ) : ℚ := a.round (30 * a.round (amountTo + a.round epsilon))

/-- `ValidPayment`. -/
def validPayment (tx : Tx) (_address : String) (priceFlux : ℚ) : Option String :=
  if a.paid tx.amountTo < priceFlux then none
  else match memoParse tx.memos with
    | .error _ => none
    | .ok c => some c

/-- The whole days that an amount buys at a price. -/
def days (amountTo price : ℚ) : Int := a.toInt (a.round (a.paid amountTo / price))

/-- `grant`: the code that the tx credits, that code's paid_until before the
grant, and the map after it. -/
def grant (m : PaidMap) (tx : Tx) (address : String) (sched : Schedule) :
    Option (String × Int × PaidMap) :=
  let p := sched.effective tx.height
  match a.validPayment tx address p with
  | none => none
  | some code =>
      let days := a.days tx.amountTo p
      if days < 1 then none
      else
        let prev := m.at_ code
        some (code, prev, m.insert code (stack prev days tx.time))

/-- The map after the grant: one that is refused leaves it alone. -/
def granted (m : PaidMap) (tx : Tx) (address : String) (sched : Schedule) : PaidMap :=
  match a.grant m tx address sched with
  | none => m
  | some (_, _, m') => m'

/-- The ledger grants what exact arithmetic grants. -/
lemma exact_grant : exact.grant = CumulusVpn.grant := rfl

/-- The two arithmetics may be a day apart: 106751.99… days are 106752 in
`float64`s, the first number of days whose nanoseconds wrap around. -/
example :
    exact.days (Binary64.round 109445915.51414579) (Binary64.round 30757.05809188) = 106751 ∧
      (float64 0).days (Binary64.round 109445915.51414579) (Binary64.round 30757.05809188) =
        106752 := by
  decide +kernel

lemma granted_of_validPayment {m : PaidMap} {tx : Tx} {address code : String} {sched : Schedule}
    (hvalid : a.validPayment tx address (sched.effective tx.height) = some code) :
    a.granted m tx address sched =
      if a.days tx.amountTo (sched.effective tx.height) < 1 then m
      else m.insert code
        (stack (m.at_ code) (a.days tx.amountTo (sched.effective tx.height)) tx.time) := by
  rw [granted, grant]
  simp only [hvalid]
  split_ifs <;> rfl

end Arithmetic

/-! ### Prepaid time -/

/-- The payments for `days` in a block of time `time` that may be stacked onto
prepaid time until `current`: that is not more than the cap above the block,
and the nanoseconds of the days, taken modulo `2 ^ 64`, are a duration of 64
bits that leads forwards, or back by no more than had lapsed since. -/
def Stackable (current time days : Int) : Prop :=
  1 ≤ days → current ≤ time + maxPrepaid ∧
    ∃ k : Int, 2 ^ 64 * k ≤ days * day + max 0 (time - current) ∧ days * day < 2 ^ 64 * k + 2 ^ 63

/-- Below 106752 days nothing wraps around. -/
lemma stackable_of_lt {current time days : Int} (hcap : current ≤ time + maxPrepaid)
    (hfew : days < 106752) : Stackable current time days := by
  intro hpays
  refine ⟨hcap, 0, ?_, ?_⟩ <;> simp only [day] <;> omega

/-- A duration of 64 bits is what is left above a multiple of `2 ^ 64`. -/
lemma wrapInt64_spec (n : Int) :
    ∃ k : Int, wrapInt64 n = n - 2 ^ 64 * k ∧ 2 ^ 64 * k ≤ n + 2 ^ 63 ∧
      n < 2 ^ 64 * k + 2 ^ 63 := by
  have hsplit := Int.bmod_add_bdiv n (2 ^ 64)
  have hlow := @Int.le_bmod n (2 ^ 64) (by norm_num)
  have hhigh := @Int.bmod_lt n (2 ^ 64) (by norm_num)
  rw [wrapInt64]
  exact ⟨n.bdiv (2 ^ 64), by omega, by omega, by omega⟩

/-- The multiple of `2 ^ 64` that the duration is counted from is the least of
those that it could lie above. -/
lemma neg_le_wrapInt64_iff {n lapsed : Int} :
    -lapsed ≤ wrapInt64 n ↔ ∃ k : Int, 2 ^ 64 * k ≤ n + lapsed ∧ n < 2 ^ 64 * k + 2 ^ 63 := by
  obtain ⟨k, hwrap, hlow, hhigh⟩ := wrapInt64_spec n
  rw [hwrap]
  constructor
  · intro hback
    exact ⟨k, by omega, hhigh⟩
  · rintro ⟨l, hl, hlhigh⟩
    have hkl : k ≤ l := by omega
    omega

lemma le_stack_iff {current days time : Int} :
    current ≤ stack current days time ↔
      current ≤ time + maxPrepaid ∧ -(max 0 (time - current)) ≤ wrapInt64 (days * day) := by
  rw [stack]
  have hbase : (if current < time then time else current) = current + max 0 (time - current) := by
    split <;> omega
  rw [hbase]
  split <;> omega

lemma stack_le (current days time : Int) : stack current days time ≤ time + maxPrepaid := by
  rw [stack]
  split <;> omega

section Grant

open Arithmetic

variable {beyond : ℚ → Int} {m : PaidMap} {tx : Tx} {address code : String} {sched : Schedule}

/-- **A grant takes nothing away, respects the cap and leaves the other codes
alone** just when the payment may be stacked onto the time prepaid so far. -/
theorem grant_bounds
    (hvalid : (float64 beyond).validPayment tx address (sched.effective tx.height) = some code) :
    (m.at_ code ≤ ((float64 beyond).granted m tx address sched).at_ code ∧
        ((float64 beyond).granted m tx address sched).at_ code ≤
          max (m.at_ code) (tx.time + maxPrepaid) ∧
        ∀ c, c ≠ code → ((float64 beyond).granted m tx address sched)[c]? = m[c]?) ↔
      Stackable (m.at_ code) tx.time
        ((float64 beyond).days tx.amountTo (sched.effective tx.height)) := by
  rw [granted_of_validPayment _ hvalid]
  generalize (float64 beyond).days tx.amountTo (sched.effective tx.height) = n
  by_cases hpays : n < 1
  · have hstackable : Stackable (m.at_ code) tx.time n := fun h => absurd h (by omega)
    simp [hpays, hstackable]
  · have hothers : ∀ c, c ≠ code →
        (m.insert code (stack (m.at_ code) n tx.time))[c]? = m[c]? := by
      intro c hc
      rw [Std.ExtTreeMap.getElem?_insert, if_neg]
      simpa using fun heq => hc heq.symm
    have hcap : stack (m.at_ code) n tx.time ≤ max (m.at_ code) (tx.time + maxPrepaid) :=
      (stack_le _ _ _).trans (le_max_right _ _)
    rw [if_neg hpays, PaidMap.at_insert, if_pos rfl]
    calc _ ↔ m.at_ code ≤ stack (m.at_ code) n tx.time := ⟨And.left, fun h => ⟨h, hcap, hothers⟩⟩
      _ ↔ _ := le_stack_iff
      _ ↔ _ := and_congr_right fun _ => neg_le_wrapInt64_iff
      _ ↔ Stackable (m.at_ code) tx.time n := ⟨fun h _ => h, fun h => h (by omega)⟩

end Grant

/-- A month on top of ten days. -/
theorem grant_bounds_month :
    (10 * day : Int) ≤ ((Arithmetic.float64 0).granted ((∅ : PaidMap).insert "abc" (10 * day))
      ⟨"tx", 50, 0, 20, ["CVPN1:abc"]⟩ "p" (.flat 20 twenty_pos)).at_ "abc" := by
  have hvalid : (Arithmetic.float64 0).validPayment ⟨"tx", 50, 0, 20, ["CVPN1:abc"]⟩ "p"
      ((Schedule.flat 20 twenty_pos).effective 50) = some "abc" := by decide +kernel
  have hold : PaidMap.at_ ((∅ : PaidMap).insert "abc" (10 * day)) "abc" = 10 * day := by
    rw [PaidMap.at_insert, if_pos rfl]
  have hbounds := (grant_bounds (m := (∅ : PaidMap).insert "abc" (10 * day)) hvalid).mpr
    (stackable_of_lt (by rw [hold]; decide) (by decide +kernel))
  rw [hold] at hbounds
  exact hbounds.1

/-- A payment in a block whose time is a minute before that of the payment
which reached the cap takes the minute away. -/
theorem not_grant_bounds :
    ¬ ∀ (m : PaidMap) (tx : Tx) (address code : String) (sched : Schedule),
      (Arithmetic.float64 0).validPayment tx address (sched.effective tx.height) = some code →
        m.at_ code ≤ ((Arithmetic.float64 0).granted m tx address sched).at_ code := by
  intro h
  have hvalid : (Arithmetic.float64 0).validPayment ⟨"tx", 50, 0, 20, ["CVPN1:abc"]⟩ "p"
      ((Schedule.flat 20 twenty_pos).effective 50) = some "abc" := by decide +kernel
  have hkept := h ((∅ : PaidMap).insert "abc" (60 * 10 ^ 9 + maxPrepaid)) _ _ _ _ hvalid
  rw [Arithmetic.granted_of_validPayment _ hvalid, if_neg (by decide +kernel),
    PaidMap.at_insert _ "abc" "abc" (stack _ _ _), if_pos rfl, le_stack_iff, PaidMap.at_insert,
    if_pos rfl] at hkept
  exact absurd hkept.1 (by decide)

end CumulusVpn
