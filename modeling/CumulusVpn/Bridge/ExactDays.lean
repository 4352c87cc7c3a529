/-
What one payment grants, to the day.

* `validPayment_iff`: which payments are judged valid;
* `le_grantDays_iff`: the days that an amount in zatoshis buys;
* `days_exact`: **the gateway and the sizing of the bridge agree on an amount,
  just when it is not short by what the slack of the gateway covers**.
-/
import CumulusVpn.Bridge.EffectivePrice

namespace CumulusVpn

section Judge

variable {tx : Tx} {address code : String} {p : ℚ}

/-- A payment is valid when it pays for a day and its memo has a code. -/
lemma validPayment_iff :
    validPayment tx address p = some code ↔
      p ≤ 30 * (tx.amountTo + epsilon) ∧ memoParse tx.memos = .ok code := by
  rw [validPayment]
  split
  · rename_i hlow
    simp [hlow]
  · rename_i hpays
    cases memoParse tx.memos <;> simp [not_lt.mp hpays]

end Judge

namespace Bridge

/-- The days that an amount in whole zatoshis buys: the slack is worth three
thirtieths of a zatoshi. -/
lemma le_grantDays_iff {tx : Tx} {P d z : Int} {p : ℚ} (hP : 0 < P) (hz : 0 ≤ z)
    (hamount : tx.amountTo = z / 10 ^ 8) (hp : p * 10 ^ 8 = P) :
    d ≤ grantDays tx p ↔ P * d ≤ 30 * z + 3 := by
  rw [grantDays_of_whole hamount hp hP hz, Int.le_ediv_iff_mul_le hP, Int.mul_comm]

/-- A payment is judged valid when it buys a day. -/
lemma pays_iff {tx : Tx} {P z : Int} {p : ℚ} (hamount : tx.amountTo = z / 10 ^ 8)
    (hp : p * 10 ^ 8 = P) : p ≤ 30 * (tx.amountTo + epsilon) ↔ P ≤ 30 * z + 3 := by
  have hscale : p ≤ 30 * (tx.amountTo + epsilon) ↔ p * 10 ^ 8 ≤ 30 * z + 3 := by
    rw [hamount, epsilon]
    constructor <;> intro h <;> linarith
  rw [hscale, hp]
  exact_mod_cast Iff.rfl

/-- **Gateway and bridge are inverses** at an amount just when it covers the
days, or is short of them by more than a tenth of a zatoshi. -/
theorem days_exact {tx : Tx} {sched : Schedule} {address code : String} {P d z : Int}
    (hP : 0 < P) (hd : 1 ≤ d) (hz : 0 ≤ z) (hamount : tx.amountTo = z / 10 ^ 8)
    (hprice : sched.effective tx.height * 10 ^ 8 = P) (hmemo : memoParse tx.memos = .ok code) :
    ((∃ n, d ≤ n ∧ credit tx address sched = some (code, n)) ↔ zatsForDays P d ≤ z) ↔
      P * d ≤ 30 * z ∨ 30 * z + 3 < P * d := by
  have hdays : (∃ n, d ≤ n ∧ credit tx address sched = some (code, n)) ↔ P * d ≤ 30 * z + 3 := by
    rw [← le_grantDays_iff hP hz hamount hprice]
    constructor
    · rintro ⟨n, hn, hcredit⟩
      obtain ⟨c, -, hcode⟩ := Option.bind_eq_some_iff.mp hcredit
      split at hcode <;> cases hcode
      exact hn
    · intro hle
      have hpays : P ≤ 30 * z + 3 := by
        have hone : 1 ≤ grantDays tx (sched.effective tx.height) := hd.trans hle
        rwa [le_grantDays_iff hP hz hamount hprice, Int.mul_one] at hone
      have hvalid : validPayment tx address (sched.effective tx.height) = some code :=
        validPayment_iff.mpr ⟨(pays_iff hamount hprice).mpr hpays, hmemo⟩
      refine ⟨_, hle, ?_⟩
      rw [credit, hvalid, Option.bind_some, if_neg (by omega)]
  have hsize : zatsForDays P d ≤ z ↔ P * d ≤ 30 * z := by
    rw [zatsForDays]
    omega
  rw [hdays, hsize]
  omega

/-- A day at 20 FLUX, and a zatoshi less. -/
theorem days_exact_day :
    (∃ n, 1 ≤ n ∧ credit ⟨"tx", 50, 0, 66666667 / 10 ^ 8, ["CVPN1:abc"]⟩ "p" dropSchedule =
      some ("abc", n)) ∧
    ¬ ∃ n, 1 ≤ n ∧ credit ⟨"tx", 50, 0, 66666666 / 10 ^ 8, ["CVPN1:abc"]⟩ "p" dropSchedule =
      some ("abc", n) := by
  have hprice : dropSchedule.effective 50 * 10 ^ 8 = (2000000000 : Int) := by decide +kernel
  have henough :=
    (@days_exact ⟨"tx", 50, 0, 66666667 / 10 ^ 8, ["CVPN1:abc"]⟩ dropSchedule "p" "abc"
    2000000000 1 66666667 (by decide) (by decide) (by decide) (by norm_num) hprice
    (by decide +kernel)).mpr (by decide)
  have hshort := (@days_exact ⟨"tx", 50, 0, 66666666 / 10 ^ 8, ["CVPN1:abc"]⟩ dropSchedule "p" "abc"
    2000000000 1 66666666 (by decide) (by decide) (by decide) (by norm_num) hprice
    (by decide +kernel)).mpr (by decide)
  exact ⟨henough.mpr (by decide), fun h => absurd (hshort.mp h) (by decide)⟩

/-- At 12.00000001 FLUX, 0.4 FLUX buy a day that is sized at a zatoshi more. -/
theorem not_days_exact :
    ¬ ∀ (tx : Tx) (sched : Schedule) (address code : String) (P d z : Int), 0 < P → 1 ≤ d → 0 ≤ z →
      tx.amountTo = z / 10 ^ 8 → sched.effective tx.height * 10 ^ 8 = P →
      memoParse tx.memos = .ok code →
      ((∃ n, d ≤ n ∧ credit tx address sched = some (code, n)) ↔ zatsForDays P d ≤ z) := by
  intro h
  have hcredit : credit ⟨"tx", 50, 0, 40000000 / 10 ^ 8, ["CVPN1:abc"]⟩ "p"
      (.flat (1200000001 / 10 ^ 8) (by norm_num)) = some ("abc", 1) := by decide +kernel
  have hsized := (h ⟨"tx", 50, 0, 40000000 / 10 ^ 8, ["CVPN1:abc"]⟩
    (.flat (1200000001 / 10 ^ 8) (by norm_num)) "p" "abc" 1200000001 1 40000000 (by decide)
    (by decide) (by decide) (by norm_num) (by decide +kernel) (by decide +kernel)).mp
    ⟨1, le_rfl, hcredit⟩
  exact absurd hsized (by decide)

end Bridge

end CumulusVpn
