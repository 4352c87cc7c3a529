/-
Token buckets over an ordered field.

A bucket holds tokens and the time it was last looked at; one token comes in
per window, up to a burst.

* `Rate`, `Bucket`, `level`, `take`: a bucket and what is left of it;
* `level_mono`, `level_eq_burst_of_le`: a bucket fills up and then stays full;
* `granted`: the times at which tokens were granted;
* `countP_granted_le`: **an interval of length `T` is granted at most
  `burst + T / window` tokens**.
-/
import Mathlib.Algebra.Order.Field.Basic
import Mathlib.Data.List.Pairwise
import Mathlib.Tactic.Linarith

namespace TokenBucket

variable {K : Type*} [Field K] [LinearOrder K]

/-- How much a bucket holds, and how long one token takes. -/
structure Rate (K : Type*) [Field K] [LinearOrder K] where
  burst : K
  window : K
  one_le_burst : 1 ≤ burst
  window_pos : 0 < window

/-- The tokens at the time `last`. -/
structure Bucket (K : Type*) where
  tokens : K
  last : K
deriving DecidableEq, Repr

/-- The tokens at `now`. -/
def level (r : Rate K) (b : Bucket K) (now : K) : K :=
  if now ≤ b.last then b.tokens else min r.burst (b.tokens + (now - b.last) / r.window)

/-- Takes a token, where there is one. -/
def take (r : Rate K) (b : Bucket K) (now : K) : Bool × Bucket K :=
  if level r b now < 1 then (false, ⟨level r b now, now⟩) else (true, ⟨level r b now - 1, now⟩)

/-- The times of the calls of `take` that got a token. -/
def granted (r : Rate K) : Bucket K → List K → List K
  | _, [] => []
  | b, t :: ts =>
      if (take r b t).1 then t :: granted r (take r b t).2 ts else granted r (take r b t).2 ts

/-! ### The level -/

section Level

variable {r : Rate K} {b : Bucket K} {now now' : K}

lemma level_le_burst (hb : b.tokens ≤ r.burst) (now : K) : level r b now ≤ r.burst := by
  rw [level]
  split
  · exact hb
  · exact min_le_left _ _

@[simp] lemma take_last (r : Rate K) (b : Bucket K) (now : K) : (take r b now).2.last = now := by
  rw [take]
  split <;> rfl

variable [IsStrictOrderedRing K]

lemma level_le (hlast : b.last ≤ now) : level r b now ≤ b.tokens + (now - b.last) / r.window := by
  rw [level]
  split
  · have hgain : 0 ≤ (now - b.last) / r.window :=
      div_nonneg (sub_nonneg.mpr hlast) r.window_pos.le
    linarith
  · exact min_le_right _ _

lemma tokens_le_level (hb : b.tokens ≤ r.burst) (now : K) : b.tokens ≤ level r b now := by
  rw [level]
  split
  · exact le_rfl
  · rename_i hlate
    have hgain : 0 ≤ (now - b.last) / r.window :=
      div_nonneg (sub_nonneg.mpr (not_le.mp hlate).le) r.window_pos.le
    exact le_min hb (by linarith)

/-- A bucket fills up. -/
lemma level_mono (hb : b.tokens ≤ r.burst) (h : now ≤ now') : level r b now ≤ level r b now' := by
  by_cases hlate : now ≤ b.last
  · calc level r b now = b.tokens := if_pos hlate
      _ ≤ level r b now' := tokens_le_level hb now'
  · have hlate' : ¬ now' ≤ b.last := fun hle => hlate (h.trans hle)
    rw [level, level, if_neg hlate, if_neg hlate']
    have hgain : (now - b.last) / r.window ≤ (now' - b.last) / r.window :=
      div_le_div_of_nonneg_right (by linarith) r.window_pos.le
    exact min_le_min le_rfl (by linarith)

/-- A full bucket stays full. -/
lemma level_eq_burst_of_le (hb : b.tokens ≤ r.burst) (hfull : r.burst ≤ level r b now)
    (h : now ≤ now') : level r b now' = r.burst :=
  le_antisymm (level_le_burst hb now') (hfull.trans (level_mono hb h))

/-- A bucket of `burst` tokens is full at all times. -/
lemma level_of_full (hb : b.tokens = r.burst) (now : K) : level r b now = r.burst :=
  le_antisymm (level_le_burst hb.le now) (hb.ge.trans (tokens_le_level hb.le now))

end Level

/-! ### The tokens granted -/

section Granted

variable [IsStrictOrderedRing K] {r : Rate K} {b : Bucket K} {now : K}

/-- A bucket never holds more than the burst. -/
lemma tokens_take_le (hb : b.tokens ≤ r.burst) (now : K) :
    (take r b now).2.tokens ≤ r.burst := by
  have hlevel := level_le_burst hb now
  rw [take]
  split
  · exact hlevel
  · show level r b now - 1 ≤ r.burst
    linarith

/-- A bucket never holds less than nothing. -/
lemma tokens_take_nonneg (hb : b.tokens ≤ r.burst) (hpos : 0 ≤ b.tokens) (now : K) :
    0 ≤ (take r b now).2.tokens := by
  have hlevel := tokens_le_level hb now
  rw [take]
  split
  · exact hpos.trans hlevel
  · rename_i hone
    exact sub_nonneg.mpr (not_lt.mp hone)

omit [IsStrictOrderedRing K] in
lemma granted_sublist (r : Rate K) : ∀ (b : Bucket K) (ts : List K), (granted r b ts).Sublist ts
  | _, [] => List.Sublist.refl _
  | b, t :: ts => by
      rw [granted]
      split
      · exact (granted_sublist r _ ts).cons_cons t
      · exact (granted_sublist r _ ts).cons t

omit [IsStrictOrderedRing K] in
lemma le_of_mem_granted {t x : K} {ts : List K} (hsorted : (t :: ts).Pairwise (· ≤ ·))
    (hx : x ∈ granted r b (t :: ts)) : t ≤ x := by
  obtain rfl | hx := List.mem_cons.mp ((granted_sublist r b _).subset hx)
  · exact le_rfl
  · exact (List.pairwise_cons.mp hsorted).1 x hx

omit [IsStrictOrderedRing K] in
/-- Nothing is granted before the first call. -/
lemma countP_granted_eq_zero {t e : K} {ts : List K} (hsorted : (t :: ts).Pairwise (· ≤ ·))
    (h : e < t) : (granted r b (t :: ts)).countP (· ≤ e) = 0 :=
  List.countP_eq_zero.mpr fun x hx => by
    simpa using h.trans_le (le_of_mem_granted hsorted hx)

omit [IsStrictOrderedRing K] in
/-- A bucket may be looked at before it is taken from. -/
lemma granted_level (r : Rate K) (b : Bucket K) (t : K) (ts : List K) :
    granted r b (t :: ts) = granted r ⟨level r b t, t⟩ (t :: ts) := by
  have hlevel : level r ⟨level r b t, t⟩ t = level r b t := if_pos le_rfl
  rw [granted, granted, take, take, hlevel]

/-- What a bucket grants up to `e` it holds already or gets until then. -/
lemma countP_granted_le_tokens {e : K} : ∀ {b : Bucket K} {ts : List K}, b.tokens ≤ r.burst →
    0 ≤ b.tokens → b.last ≤ e → (∀ t ∈ ts, b.last ≤ t) → ts.Pairwise (· ≤ ·) →
      ((granted r b ts).countP (· ≤ e) : K) ≤ b.tokens + (e - b.last) / r.window
  | b, [], _, hpos, hlast, _, _ => by
      have hgain : 0 ≤ (e - b.last) / r.window :=
        div_nonneg (sub_nonneg.mpr hlast) r.window_pos.le
      simpa [granted] using add_nonneg hpos hgain
  | b, t :: ts, hb, hpos, hlast, hts, hsorted => by
      obtain ⟨hhead, htail⟩ := List.pairwise_cons.mp hsorted
      by_cases hte : t ≤ e
      · have ih := @countP_granted_le_tokens e (take r b t).2 ts (tokens_take_le hb t)
          (tokens_take_nonneg hb hpos t) (by rwa [take_last]) (by rwa [take_last]) htail
        rw [take_last] at ih
        have hlevel : level r b t ≤ b.tokens + (t - b.last) / r.window :=
          level_le (hts t (List.mem_cons_self ..))
        have hsplit : (t - b.last) / r.window + (e - t) / r.window = (e - b.last) / r.window := by
          rw [← add_div, sub_add_sub_cancel']
        rw [granted]
        by_cases hone : level r b t < 1
        · rw [take, if_pos hone] at ih ⊢
          calc _ ≤ level r b t + (e - t) / r.window := ih
            _ ≤ b.tokens + (e - b.last) / r.window := by linarith
        · rw [take, if_neg hone] at ih ⊢
          rw [if_pos rfl, List.countP_cons_of_pos (by simpa using hte), Nat.cast_add, Nat.cast_one]
          calc _ ≤ (level r b t - 1 + (e - t) / r.window) + 1 := by linarith
            _ ≤ b.tokens + (e - b.last) / r.window := by linarith
      · have hgain : 0 ≤ (e - b.last) / r.window :=
          div_nonneg (sub_nonneg.mpr hlast) r.window_pos.le
        rw [countP_granted_eq_zero hsorted (not_le.mp hte), Nat.cast_zero]
        linarith

/-- **An interval of length `T` is granted at most `burst + T / window`
tokens.** -/
theorem countP_granted_le {a T : K} (hT : 0 ≤ T) : ∀ {b : Bucket K} {ts : List K},
    b.tokens ≤ r.burst → 0 ≤ b.tokens → (∀ t ∈ ts, b.last ≤ t) → ts.Pairwise (· ≤ ·) →
      ((granted r b ts).countP (fun t => a ≤ t ∧ t ≤ a + T) : K) ≤ r.burst + T / r.window
  | b, [], _, _, _, _ => by
      have hgain : 0 ≤ T / r.window := div_nonneg hT r.window_pos.le
      have hburst := r.one_le_burst
      simp only [granted, List.countP_nil, Nat.cast_zero]
      linarith
  | b, t :: ts, hb, hpos, hts, hsorted => by
      obtain ⟨hhead, htail⟩ := List.pairwise_cons.mp hsorted
      by_cases hat : a ≤ t
      · -- From the first call of the interval on, all calls are late enough.
        have hlate : ∀ x ∈ granted r b (t :: ts), a ≤ x := fun x hx =>
          hat.trans (le_of_mem_granted hsorted hx)
        have hsame : (granted r b (t :: ts)).countP (fun t => a ≤ t ∧ t ≤ a + T) =
            (granted r b (t :: ts)).countP (· ≤ a + T) :=
          List.countP_congr fun x hx => by simp [hlate x hx]
        have hlevel := level_le_burst hb t
        rw [hsame]
        by_cases hend : t ≤ a + T
        · have hrest : (a + T - t) / r.window ≤ T / r.window :=
            div_le_div_of_nonneg_right (by linarith) r.window_pos.le
          have hafter : ∀ x ∈ t :: ts, t ≤ x := fun x hx => by
            obtain rfl | hx := List.mem_cons.mp hx
            · exact le_rfl
            · exact hhead x hx
          rw [granted_level]
          calc _ ≤ level r b t + (a + T - t) / r.window :=
                @countP_granted_le_tokens _ _ _ _ r _ ⟨level r b t, t⟩ _ hlevel
                  (hpos.trans (tokens_le_level hb t)) hend hafter hsorted
            _ ≤ r.burst + T / r.window := by linarith
        · have hgain : 0 ≤ T / r.window := div_nonneg hT r.window_pos.le
          have hburst := r.one_le_burst
          rw [countP_granted_eq_zero hsorted (not_le.mp hend), Nat.cast_zero]
          linarith
      · have ih := @countP_granted_le a T hT (take r b t).2 ts (tokens_take_le hb t)
          (tokens_take_nonneg hb hpos t) (by rwa [take_last]) htail
        rw [granted]
        split
        · rwa [List.countP_cons_of_neg (by simp [hat])]
        · exact ih

end Granted

end TokenBucket
