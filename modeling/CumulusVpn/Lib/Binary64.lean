/-
Rounding to binary64, the `float64` of a program, on exact rationals.

A finite `float64` is the rational it stands for, and an operation on such
values is the exact one, rounded.

* `roundEven`: to the nearest integer, a tie to the even one;
* `ulpExp`: the exponent of the last place that a value of this size has;
* `round`: to the nearest value with 53 significant bits;
* `round_eq_self`: what fits is left alone, so rounding is idempotent
  (`round_round`);
* `round_mono`: **rounding keeps the order**;
* `shortest`: the decimal with the fewest places that rounds to a value;
* `shortest_spec`: **a value that some decimal rounds to has one, with no more
  places than that**.

The range is unbounded above: what would overflow to an infinity is here
rounded as if the exponent went on.
-/
import Mathlib.Algebra.Order.Field.Power
import Mathlib.Data.Int.Log
import Mathlib.Data.Rat.Floor
import Mathlib.Tactic.FieldSimp
import Mathlib.Tactic.Linarith
import Mathlib.Tactic.NormNum.Pow
import Mathlib.Tactic.Positivity

namespace Binary64

/-! ### To an integer -/

/-- The nearest integer, and the even one of two that are as near. -/
def roundEven (q : ℚ) : ℤ :=
  if q - ⌊q⌋ < 1 / 2 then ⌊q⌋
  else if 1 / 2 < q - ⌊q⌋ then ⌊q⌋ + 1
  else if ⌊q⌋ % 2 = 0 then ⌊q⌋
  else ⌊q⌋ + 1

@[simp] lemma roundEven_intCast (n : ℤ) : roundEven n = n := by simp [roundEven]

lemma floor_le_roundEven (q : ℚ) : ⌊q⌋ ≤ roundEven q := by
  rw [roundEven]
  split_ifs <;> omega

lemma roundEven_le_floor_add_one (q : ℚ) : roundEven q ≤ ⌊q⌋ + 1 := by
  rw [roundEven]
  split_ifs <;> omega

/-- Rounding to an integer keeps the order. -/
lemma roundEven_mono {p q : ℚ} (hpq : p ≤ q) : roundEven p ≤ roundEven q := by
  have hfloor : ⌊p⌋ ≤ ⌊q⌋ := Int.floor_mono hpq
  rcases hfloor.lt_or_eq with hlt | heq
  · calc roundEven p ≤ ⌊p⌋ + 1 := roundEven_le_floor_add_one p
      _ ≤ ⌊q⌋ := hlt
      _ ≤ roundEven q := floor_le_roundEven q
  · -- in the same unit the later of the two is rounded up whenever the earlier is
    have hfract : p - ⌊p⌋ ≤ q - ⌊q⌋ := by
      rw [heq]
      linarith
    simp only [roundEven, heq] at hfract ⊢
    split_ifs <;> first | omega | linarith

/-- An integer bound on the value is one on what it is rounded to. -/
lemma le_roundEven {n : ℤ} {q : ℚ} (h : (n : ℚ) ≤ q) : n ≤ roundEven q := by
  calc n = roundEven n := (roundEven_intCast n).symm
    _ ≤ roundEven q := roundEven_mono h

lemma roundEven_le {n : ℤ} {q : ℚ} (h : q ≤ n) : roundEven q ≤ n := by
  calc roundEven q ≤ roundEven n := roundEven_mono h
    _ = n := roundEven_intCast n

/-! ### To binary64 -/

/-- The exponent of the last place: 53 significant bits, and none below
`2 ^ (-1074)`. -/
def ulpExp (x : ℚ) : ℤ := max (Int.log 2 |x| - 52) (-1074)

/-- The nearest `float64`. -/
def round (x : ℚ) : ℚ := roundEven (x / 2 ^ ulpExp x) * 2 ^ ulpExp x

lemma two_zpow_pos (e : ℤ) : (0 : ℚ) < 2 ^ e := zpow_pos two_pos e

@[simp] lemma round_zero : round 0 = 0 := by simp [round, roundEven]

/-- A power of two is a whole number of every smaller one. -/
lemma exists_int_zpow {e f : ℤ} (hef : e ≤ f) : ∃ n : ℤ, (2 : ℚ) ^ f = n * 2 ^ e := by
  obtain ⟨k, hk⟩ := Int.le.dest hef
  refine ⟨2 ^ k, ?_⟩
  rw [← hk, zpow_add₀ two_ne_zero, zpow_natCast]
  push_cast
  ring

/-- What has no digit below its last place is left alone. -/
lemma round_eq_self_of_ulpExp_le {n e : ℤ} (hulp : ulpExp (n * 2 ^ e) ≤ e) :
    round (n * 2 ^ e) = n * 2 ^ e := by
  obtain ⟨k, hk⟩ := exists_int_zpow hulp
  have hwhole : (n * 2 ^ e : ℚ) / 2 ^ ulpExp (n * 2 ^ e) = (n * k : ℤ) := by
    rw [div_eq_iff (two_zpow_pos _).ne']
    push_cast
    rw [mul_assoc, ← hk]
  rw [round, hwhole, roundEven_intCast, ← hwhole, div_mul_cancel₀ _ (two_zpow_pos _).ne']

/-- Below `2 ^ (e + 53)` the last place is not above `2 ^ e`. -/
lemma ulpExp_le_of_lt {x : ℚ} {e : ℤ} (hx : 0 < x) (hlt : x < 2 ^ (e + 53)) (he : -1074 ≤ e) :
    ulpExp x ≤ e := by
  have hlog : Int.log 2 x < e + 53 := by
    rw [← Int.lt_zpow_iff_log_lt (by norm_num) hx]
    exact_mod_cast hlt
  rw [ulpExp, abs_of_pos hx]
  omega

/-- **What fits is left alone**: at most 53 bits above a last place that
there is. -/
lemma round_eq_self {n e : ℤ} (hn : 0 ≤ n) (hbits : n ≤ 2 ^ 53) (he : -1074 ≤ e) :
    round (n * 2 ^ e) = n * 2 ^ e := by
  rcases hn.eq_or_lt with rfl | hpos
  · simp
  have hvalue : (0 : ℚ) < n * 2 ^ e := mul_pos (by exact_mod_cast hpos) (two_zpow_pos e)
  rcases hbits.lt_or_eq with hlt | rfl
  · refine round_eq_self_of_ulpExp_le (ulpExp_le_of_lt hvalue ?_ he)
    calc (n * 2 ^ e : ℚ) < 2 ^ 53 * 2 ^ e := by
          gcongr
          exact_mod_cast hlt
      _ = 2 ^ (e + 53) := by
          rw [zpow_add₀ two_ne_zero, mul_comm]
          norm_cast
  · -- the least value of the next binade
    have hnext : ((2 ^ 53 : ℤ) * 2 ^ e : ℚ) = (2 ^ 52 : ℤ) * 2 ^ (e + 1) := by
      rw [zpow_add₀ two_ne_zero]
      push_cast
      ring
    rw [hnext] at hvalue ⊢
    refine round_eq_self_of_ulpExp_le (ulpExp_le_of_lt hvalue ?_ (by omega))
    calc ((2 ^ 52 : ℤ) * 2 ^ (e + 1) : ℚ) < 2 ^ 53 * 2 ^ (e + 1) := by
          gcongr
          norm_num
      _ = 2 ^ (e + 1 + 53) := by
          rw [zpow_add₀ two_ne_zero (e + 1) 53, mul_comm]
          norm_cast

/-- An integer of at most 53 bits is a `float64`. -/
lemma round_natCast {n : ℕ} (hn : n ≤ 2 ^ 53) : round n = n := by
  have hself := @round_eq_self n 0 (by omega) (by exact_mod_cast hn) (by norm_num)
  simpa using hself

lemma lt_two_zpow_ulpExp {x : ℚ} : x < 2 ^ (ulpExp x + 53) := by
  calc x ≤ |x| := le_abs_self x
    _ < 2 ^ (Int.log 2 |x| + 1) := by
        have hlt := Int.lt_zpow_succ_log_self (b := 2) (by norm_num) |x|
        exact_mod_cast hlt
    _ ≤ 2 ^ (ulpExp x + 53) := by
        refine zpow_le_zpow_right₀ (by norm_num) ?_
        rw [ulpExp]
        omega

/-- What a nonnegative value is rounded to, as a significand. -/
lemma round_significand {x : ℚ} (hx : 0 ≤ x) :
    0 ≤ roundEven (x / 2 ^ ulpExp x) ∧ roundEven (x / 2 ^ ulpExp x) ≤ 2 ^ 53 := by
  constructor
  · refine le_roundEven ?_
    push_cast
    exact div_nonneg hx (two_zpow_pos _).le
  · refine roundEven_le ?_
    rw [div_le_iff₀ (two_zpow_pos _)]
    calc x ≤ 2 ^ (ulpExp x + 53) := lt_two_zpow_ulpExp.le
      _ = ((2 ^ 53 : ℤ) : ℚ) * 2 ^ ulpExp x := by
          rw [zpow_add₀ two_ne_zero, mul_comm]
          norm_cast

/-- Rounding is idempotent. -/
lemma round_round {x : ℚ} (hx : 0 ≤ x) : round (round x) = round x := by
  obtain ⟨hnonneg, hbits⟩ := round_significand hx
  exact round_eq_self hnonneg hbits (le_max_right _ _)

/-- **Rounding keeps the order.** Values of one size have one last place; of
two sizes, the power of two between them is a `float64`. -/
theorem round_mono {x y : ℚ} (hx : 0 ≤ x) (hxy : x ≤ y) : round x ≤ round y := by
  rcases hx.eq_or_lt with rfl | hpos
  · rw [round_zero, round]
    have hnonneg := (round_significand hxy).1
    have hcast : (0 : ℚ) ≤ roundEven (y / 2 ^ ulpExp y) := by exact_mod_cast hnonneg
    exact mul_nonneg hcast (two_zpow_pos _).le
  have hypos : 0 < y := hpos.trans_le hxy
  have hulp : ulpExp x ≤ ulpExp y := by
    have hlog := Int.log_mono_right (b := 2) hpos hxy
    rw [ulpExp, ulpExp, abs_of_pos hpos, abs_of_pos hypos]
    omega
  rcases hulp.eq_or_lt with heq | hlt
  · rw [round, round, heq]
    have hmono := roundEven_mono (div_le_div_of_nonneg_right hxy (two_zpow_pos (ulpExp y)).le)
    have hcast : (roundEven (x / 2 ^ ulpExp y) : ℚ) ≤ roundEven (y / 2 ^ ulpExp y) := by
      exact_mod_cast hmono
    exact mul_le_mul_of_nonneg_right hcast (two_zpow_pos _).le
  · -- `2 ^ (ulpExp y + 52)` is at most `y`, above `x` and a whole number of both last places
    have hlogy : Int.log 2 y = ulpExp y + 52 := by
      have hge : -1074 ≤ ulpExp x := le_max_right _ _
      have hulpy : ulpExp y = max (Int.log 2 y - 52) (-1074) := by rw [ulpExp, abs_of_pos hypos]
      omega
    have hbelow : (2 : ℚ) ^ (ulpExp y + 52) ≤ y := by
      have hle := Int.zpow_log_le_self (b := 2) (by norm_num) hypos
      rw [hlogy] at hle
      exact_mod_cast hle
    have habove : x ≤ 2 ^ (ulpExp y + 52) := by
      calc x ≤ 2 ^ (ulpExp x + 53) := lt_two_zpow_ulpExp.le
        _ ≤ 2 ^ (ulpExp y + 52) := zpow_le_zpow_right₀ (by norm_num) (by omega)
    obtain ⟨k, hk⟩ := @exists_int_zpow (ulpExp x) (ulpExp y + 52) (by omega)
    obtain ⟨l, hl⟩ := @exists_int_zpow (ulpExp y) (ulpExp y + 52) (by omega)
    calc round x ≤ (k : ℚ) * 2 ^ ulpExp x := by
          have hle : roundEven (x / 2 ^ ulpExp x) ≤ k := by
            refine roundEven_le ?_
            rwa [div_le_iff₀ (two_zpow_pos _), ← hk]
          have hcast : (roundEven (x / 2 ^ ulpExp x) : ℚ) ≤ k := by exact_mod_cast hle
          exact mul_le_mul_of_nonneg_right hcast (two_zpow_pos _).le
      _ = (l : ℚ) * 2 ^ ulpExp y := by rw [← hk, hl]
      _ ≤ round y := by
          have hle : l ≤ roundEven (y / 2 ^ ulpExp y) := by
            refine le_roundEven ?_
            rwa [le_div_iff₀ (two_zpow_pos _), ← hl]
          have hcast : (l : ℚ) ≤ roundEven (y / 2 ^ ulpExp y) := by exact_mod_cast hle
          exact mul_le_mul_of_nonneg_right hcast (two_zpow_pos _).le

/-- Between a value and a decimal that rounds to it there is nothing else. -/
lemma round_eq_of_between {x y z : ℚ} (hx : 0 ≤ x) (hxy : x ≤ y) (hyz : y ≤ z)
    (hends : round x = round z) : round y = round z :=
  le_antisymm (round_mono (hx.trans hxy) hyz) (hends.symm.trans_le (round_mono hx hxy))

/-- What is rounded to something positive is. -/
lemma pos_of_round_pos {x : ℚ} (hx : 0 ≤ x) (hpos : 0 < round x) : 0 < x := by
  refine hx.lt_of_ne fun hzero => ?_
  rw [← hzero, round_zero] at hpos
  exact lt_irrefl _ hpos

/-! ### The shortest decimal -/

/-- The decimal with so many places that rounds to `x`: the nearest one, or the
other neighbour where only that one does. -/
def decimalWith (x : ℚ) (places : ℕ) : Option ℚ :=
  ([roundEven (x * 10 ^ places), ⌊x * 10 ^ places⌋, ⌈x * 10 ^ places⌉].map
    fun n : ℤ => (n : ℚ) / 10 ^ places).find? fun d => round d = x

/-- The decimal with the fewest places that rounds to `x`, if one with at most
`places` does. -/
def shortest (places : ℕ) (x : ℚ) : Option ℚ := (List.range (places + 1)).findSome? (decimalWith x)

lemma decimalWith_eq_some {x d : ℚ} {places : ℕ} (hx : 0 ≤ x) (h : decimalWith x places = some d) :
    round d = x ∧ ∃ n : ℕ, d = n / 10 ^ places := by
  have hround : round d = x := by simpa using List.find?_some h
  obtain ⟨n, hn, rfl⟩ := List.mem_map.mp (List.mem_of_find?_eq_some h)
  have hscaled : 0 ≤ x * 10 ^ places := by positivity
  have hnonneg : 0 ≤ n := by
    simp only [List.mem_cons, List.not_mem_nil, or_false] at hn
    rcases hn with rfl | rfl | rfl
    · exact le_roundEven (by exact_mod_cast hscaled)
    · exact Int.floor_nonneg.mpr hscaled
    · exact Int.ceil_nonneg hscaled
  obtain ⟨n, rfl⟩ := Int.eq_ofNat_of_zero_le hnonneg
  exact ⟨hround, n, by simp⟩

/-- A neighbour of `x` is nearer than any other decimal that rounds to it. -/
lemma decimalWith_isSome {n places : ℕ} :
    (decimalWith (round (n / 10 ^ places)) places).isSome := by
  have hten : (0 : ℚ) < 10 ^ places := by positivity
  have hq : (0 : ℚ) ≤ n / 10 ^ places := by positivity
  have hx : 0 ≤ round (n / 10 ^ places) := by simpa using round_mono le_rfl hq
  have hself := round_round hq
  generalize hround : round (n / 10 ^ places) = x at hx hself ⊢
  rw [decimalWith, List.find?_isSome]
  rcases le_total (n / 10 ^ places : ℚ) x with hle | hle
  · refine ⟨⌊x * 10 ^ places⌋ / 10 ^ places, by simp, ?_⟩
    have hfloor : (n : ℤ) ≤ ⌊x * 10 ^ places⌋ := by
      rw [Int.le_floor]
      rwa [div_le_iff₀ hten] at hle
    have hnear : (n / 10 ^ places : ℚ) ≤ ⌊x * 10 ^ places⌋ / 10 ^ places := by
      gcongr
      exact_mod_cast hfloor
    have hbelow : (⌊x * 10 ^ places⌋ / 10 ^ places : ℚ) ≤ x := by
      rw [div_le_iff₀ hten]
      exact Int.floor_le _
    have heq := round_eq_of_between hq hnear hbelow (hround.trans hself.symm)
    simpa [hself] using heq
  · refine ⟨⌈x * 10 ^ places⌉ / 10 ^ places, by simp, ?_⟩
    have hceil : ⌈x * 10 ^ places⌉ ≤ (n : ℤ) := by
      rw [Int.ceil_le]
      rwa [le_div_iff₀ hten] at hle
    have hnear : (⌈x * 10 ^ places⌉ / 10 ^ places : ℚ) ≤ n / 10 ^ places := by
      gcongr
      exact_mod_cast hceil
    have habove : x ≤ (⌈x * 10 ^ places⌉ / 10 ^ places : ℚ) := by
      rw [le_div_iff₀ hten]
      exact Int.le_ceil _
    have heq := round_eq_of_between hx habove hnear (hself.trans hround.symm)
    simpa [hround] using heq

/-- **What a decimal rounds to has a shortest one**, which rounds to it too and
has no more places. -/
theorem shortest_spec (n places : ℕ) :
    ∃ d, shortest places (round (n / 10 ^ places)) = some d ∧
      round d = round (n / 10 ^ places) ∧ ∃ k ≤ places, ∃ m : ℕ, d = m / 10 ^ k := by
  have hq : (0 : ℚ) ≤ n / 10 ^ places := by positivity
  have hx : 0 ≤ round (n / 10 ^ places) := by simpa using round_mono le_rfl hq
  have hsome : (shortest places (round (n / 10 ^ places))).isSome := by
    rw [shortest, List.findSome?_isSome_iff]
    exact ⟨places, by simp, decimalWith_isSome⟩
  obtain ⟨d, hd⟩ := Option.isSome_iff_exists.mp hsome
  obtain ⟨k, hk, hdk⟩ := List.exists_of_findSome?_eq_some hd
  obtain ⟨hround, m, hm⟩ := decimalWith_eq_some hx hdk
  exact ⟨d, hd, hround, k, by simpa [Nat.lt_succ_iff] using hk, m, hm⟩

end Binary64
