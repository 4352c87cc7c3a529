/-
Route arithmetic (`clients/core-ts/src/split.ts`).

* `mergeIntervals`, `subtractIntervals`: lists of intervals;
* `intervalToCidrs`: the prefixes of an interval, the largest first that is
  aligned and fits;
* `complementRoutes`: everything but a list of prefixes;
* `mergeIntervals_separated`, `covers_mergeIntervals`,
  `subtractIntervals_separated`, `covers_subtractIntervals`: **the lists are
  separated and hold what they should**.
-/
import CumulusVpn.Lib.Interval
import CumulusVpn.Split.Cidr
import Mathlib.Data.Int.Bitwise
import Mathlib.Data.List.Sort
import Mathlib.Data.Nat.Factorization.Basic

namespace CumulusVpn.Split

open Intervals

/-! ### Intervals -/

/-- The addresses of a prefix. -/
def cidrToInterval (c : Cidr) : Interval where
  start := c.net
  end_ := c.net + 1 <<< (c.family.bits - c.pfx) - 1

/-- The order `mergeIntervals` sorts by. -/
def StartLE (a b : Interval) : Prop := a.start ≤ b.start

instance : DecidableRel StartLE := fun a b => inferInstanceAs (Decidable (a.start ≤ b.start))

instance : Std.Total StartLE := ⟨fun a b => Nat.le_total a.start b.start⟩

instance : IsTrans Interval StartLE := ⟨fun _ _ _ => Nat.le_trans⟩

/-- The loop of `mergeIntervals`; `last` is the last interval of `out`. -/
def mergeLoop (last : Interval) : List Interval → List Interval
  | [] => [last]
  | iv :: rest =>
      if iv.start ≤ last.end_ + 1 then
        mergeLoop (if iv.end_ > last.end_ then ⟨last.start, iv.end_⟩ else last) rest
      else last :: mergeLoop iv rest

/-- The same addresses as intervals that neither overlap nor touch, in order. -/
def mergeIntervals (intervals : List Interval) : List Interval :=
  match intervals.insertionSort StartLE with
  | [] => []
  | iv :: rest => mergeLoop iv rest

/-- What is left of `iv` from `cursor` on, when the cuts `b` are taken out. -/
def subtractFrom (iv : Interval) (cursor : Nat) : List Interval → List Interval
  | [] => if cursor ≤ iv.end_ then [⟨cursor, iv.end_⟩] else []
  | cut :: b =>
      if cut.end_ < cursor ∨ cut.start > iv.end_ then subtractFrom iv cursor b
      else
        (if cut.start > cursor then [⟨cursor, cut.start - 1⟩] else []) ++
          -- `break`: nothing of `iv` is left behind the cut
          if cut.end_ + 1 > iv.end_ then [] else subtractFrom iv (cut.end_ + 1) b

/-- The addresses of `a` that are in no interval of `b`. -/
def subtractIntervals (a b : List Interval) : List Interval :=
  a.flatMap fun iv => subtractFrom iv iv.start b

/-! ### Prefixes -/

/-- `start & -start`. -/
def lowestBit (start : Nat) : Nat := (Int.land start (-start)).toNat

/-- Halve `size` until it is at most `span`. -/
def shrink (size span : Nat) : Nat := if size > span then shrink (size >>> 1) span else size
termination_by size
decreasing_by
  rw [Nat.shiftRight_eq_div_pow]
  omega

/-- The number of addresses of the next prefix. -/
def blockSize (iv : Interval) (family : Family) : Nat :=
  shrink (if iv.start = 0 then 1 <<< family.bits else lowestBit iv.start)
    (iv.end_ - iv.start + 1)

/-- The lowest set bit is a power of two that divides the number, and every
such power is at most it. -/
lemma lowestBit_eq {n : Nat} (h : n ≠ 0) :
    ∃ t, lowestBit n = 2 ^ t ∧ 2 ^ t ∣ n ∧ ∀ j, 2 ^ j ∣ n → j ≤ t := by
  obtain ⟨t, m, hodd, rfl⟩ := Nat.exists_eq_two_pow_mul_odd h
  obtain ⟨q, rfl⟩ := hodd
  have hn : 2 ^ t * (2 * q + 1) = 2 ^ (t + 1) * q + 2 ^ t := by ring
  refine ⟨t, ?_, Nat.dvd_mul_right _ _, ?_⟩
  · have hpow : 0 < 2 ^ t := Nat.two_pow_pos t
    have hpred : 2 ^ t * (2 * q + 1) = 2 ^ (t + 1) * q + (2 ^ t - 1) + 1 := by omega
    have hneg : -((2 ^ t * (2 * q + 1) : Nat) : Int) =
        Int.negSucc (2 ^ (t + 1) * q + (2 ^ t - 1)) := by
      rw [hpred, Int.negSucc_eq]
      push_cast
      ring
    have hland : lowestBit (2 ^ t * (2 * q + 1)) =
        Nat.ldiff (2 ^ t * (2 * q + 1)) (2 ^ (t + 1) * q + (2 ^ t - 1)) := by
      rw [lowestBit, hneg]
      rfl
    rw [hland, hn]
    apply Nat.eq_of_testBit_eq
    intro i
    have hlt : 2 ^ t < 2 ^ (t + 1) := Nat.pow_lt_pow_right (by decide) (Nat.lt_succ_self t)
    rw [Nat.testBit_ldiff, Nat.testBit_two_pow_mul_add _ hlt,
      Nat.testBit_two_pow_mul_add _ ((Nat.sub_le _ _).trans_lt hlt), Nat.testBit_two_pow,
      Nat.testBit_two_pow_sub_one]
    by_cases hi : i < t + 1
    · simp only [hi, if_true]
      by_cases ht : t = i
      · simp [ht]
      · simp [ht]
    · have ht : t ≠ i := by omega
      simp [hi, ht]
  · intro j hj
    by_contra hlt
    have hdvd : 2 ^ (t + 1) ∣ 2 ^ t * (2 * q + 1) :=
      (Nat.pow_dvd_pow 2 (by omega)).trans hj
    rw [pow_succ] at hdvd
    have htwo : 2 ∣ 2 * q + 1 := Nat.dvd_of_mul_dvd_mul_left (Nat.two_pow_pos t) hdvd
    omega

/-- Halving stops at the largest power that fits. -/
lemma shrink_two_pow {t span : Nat} (hspan : 0 < span) :
    ∃ k ≤ t, shrink (2 ^ t) span = 2 ^ k ∧ 2 ^ k ≤ span ∧
      ∀ j ≤ t, 2 ^ j ≤ span → j ≤ k := by
  induction t with
  | zero =>
      have hle : ¬ 2 ^ 0 > span := Nat.not_lt_of_le hspan
      refine ⟨0, le_rfl, ?_, hspan, fun j hj _ => hj⟩
      rw [shrink, if_neg hle]
  | succ t ih =>
      by_cases hlt : 2 ^ (t + 1) > span
      · obtain ⟨k, hk, hshrink, hfits, hmax⟩ := ih
        have hhalf : 2 ^ (t + 1) >>> 1 = 2 ^ t := by
          rw [Nat.shiftRight_eq_div_pow, pow_succ]
          omega
        refine ⟨k, hk.trans (Nat.le_succ _), ?_, hfits, ?_⟩
        · rw [shrink, if_pos hlt, hhalf, hshrink]
        · intro j hj hjspan
          rcases Nat.lt_or_eq_of_le hj with hj | rfl
          · exact hmax j (Nat.lt_succ_iff.mp hj) hjspan
          · exact absurd hjspan (Nat.not_le_of_gt hlt)
      · refine ⟨t + 1, le_rfl, ?_, Nat.le_of_not_gt hlt, fun j hj _ => hj⟩
        rw [shrink, if_neg hlt]

lemma blockSize_eq (iv : Interval) (family : Family) :
    ∃ k, blockSize iv family = 2 ^ k ∧ 2 ^ k ∣ iv.start ∧ 2 ^ k ≤ iv.end_ - iv.start + 1 ∧
      (iv.start = 0 → k ≤ family.bits) ∧
      ∀ j ≤ family.bits, 2 ^ j ∣ iv.start → 2 ^ j ≤ iv.end_ - iv.start + 1 → j ≤ k := by
  by_cases hstart : iv.start = 0
  · obtain ⟨k, hk, hshrink, hfits, hmax⟩ :=
      @shrink_two_pow family.bits (iv.end_ - iv.start + 1) (Nat.succ_pos _)
    refine ⟨k, ?_, by simp [hstart], hfits, fun _ => hk, fun j hj _ => hmax j hj⟩
    rw [blockSize, if_pos hstart, Nat.one_shiftLeft, hshrink]
  · obtain ⟨t, hlow, hdvd, hlargest⟩ := lowestBit_eq hstart
    obtain ⟨k, hk, hshrink, hfits, hmax⟩ :=
      @shrink_two_pow t (iv.end_ - iv.start + 1) (Nat.succ_pos _)
    refine ⟨k, ?_, (Nat.pow_dvd_pow 2 hk).trans hdvd, hfits, fun h => absurd h hstart,
      fun j _ hj => hmax j (hlargest j hj)⟩
    rw [blockSize, if_neg hstart, hlow, hshrink]

lemma blockSize_pos (iv : Interval) (family : Family) : 0 < blockSize iv family := by
  obtain ⟨k, hk, -⟩ := blockSize_eq iv family
  rw [hk]
  exact Nat.two_pow_pos k

/-- The loop ends: every round moves `start` on. -/
def intervalToCidrs (iv : Interval) (family : Family) : List Cidr :=
  if iv.start ≤ iv.end_ then
    ⟨family, iv.start, family.bits - ((Nat.toDigits 2 (blockSize iv family)).length - 1)⟩ ::
      intervalToCidrs ⟨iv.start + blockSize iv family, iv.end_⟩ family
  else []
termination_by iv.end_ + 1 - iv.start
decreasing_by
  have hpos := blockSize_pos iv family
  omega

/-- `split: not a valid IP or CIDR: "…"`. -/
def invalidCidr (value : String) : String := "split: not a valid IP or CIDR: \"" ++ value ++ "\""

/-- The intervals of the prefixes of one family. -/
def parseIntervals (family : Family) : List String → Except String (List Interval)
  | [] => .ok []
  | value :: cidrs =>
      match parseCidr value with
      | none => .error (invalidCidr value)
      | some cidr =>
          match parseIntervals family cidrs with
          | .error e => .error e
          | .ok parsed =>
              .ok (if cidr.family = family then cidrToInterval cidr :: parsed else parsed)

/-- The addresses of the prefixes of one family; a text that is no prefix throws. -/
def toMergedIntervals (cidrs : List String) (family : Family) : Except String (List Interval) :=
  (parseIntervals family cidrs).map mergeIntervals

/-- The texts of the fewest prefixes for the addresses. -/
def intervalsToStrings (intervals : List Interval) (family : Family) : List String :=
  (intervals.flatMap fun iv => intervalToCidrs iv family).map formatCidr

/-- `0.0.0.0/0` or `::/0`. -/
def Family.full (family : Family) : Interval := ⟨0, 1 <<< family.bits - 1⟩

/-- `'v4' | 'v6' | 'both'` -/
inductive Families
  | v4
  | v6
  | both
deriving DecidableEq, Repr

/-- The families that it names. -/
def Families.toList : Families → List Family
  | .v4 => [.v4]
  | .v6 => [.v6]
  | .both => [.v4, .v6]

/-- The prefixes for every address outside the excluded ones. -/
def complementRoutes (excluded : List String) (family : Families) :
    Except String (List String) := do
  let routes ← family.toList.mapM fun fam => do
    let holes ← toMergedIntervals excluded fam
    return intervalsToStrings (subtractIntervals [fam.full] holes) fam
  return routes.flatten

/-! ### Merging -/

lemma mergeLoop_spec {last : Interval} {rest : List Interval} (hlast : last.start ≤ last.end_)
    (hne : ∀ iv ∈ rest, iv.start ≤ iv.end_) (hle : ∀ iv ∈ rest, last.start ≤ iv.start)
    (hsorted : rest.Pairwise StartLE) :
    Separated (mergeLoop last rest) ∧ (∀ iv ∈ mergeLoop last rest, last.start ≤ iv.start) ∧
      ∀ a, Covers (mergeLoop last rest) a ↔ a ∈ last ∨ Covers rest a := by
  induction rest generalizing last with
  | nil =>
      refine ⟨Separated.singleton hlast, ?_, ?_⟩
      · intro iv hiv
        rw [List.mem_singleton.mp hiv]
      · intro a
        rw [mergeLoop, covers_cons]
  | cons iv rest ih =>
      obtain ⟨hfirst, hsorted⟩ := List.pairwise_cons.mp hsorted
      have hiv := hne iv List.mem_cons_self
      have hlastle := hle iv List.mem_cons_self
      have hne' : ∀ x ∈ rest, x.start ≤ x.end_ := fun x hx => hne x (List.mem_cons_of_mem _ hx)
      by_cases hjoin : iv.start ≤ last.end_ + 1
      · -- the two are joined: `last` grows to the larger end
        rw [mergeLoop, if_pos hjoin]
        obtain ⟨joined, hjoined⟩ : ∃ j : Interval,
            (if iv.end_ > last.end_ then ⟨last.start, iv.end_⟩ else last) = j := ⟨_, rfl⟩
        rw [hjoined]
        have hstart : joined.start = last.start := by
          rw [← hjoined]
          split <;> rfl
        have hend : joined.end_ = max last.end_ iv.end_ := by
          rw [← hjoined]
          split
          · rename_i hgt
            exact (Nat.max_eq_right (Nat.le_of_lt hgt)).symm
          · rename_i hle
            exact (Nat.max_eq_left (Nat.le_of_not_gt hle)).symm
        obtain ⟨hsep, hstarts, hcovers⟩ := @ih joined (by omega) hne'
          (fun x hx => by rw [hstart]; exact hle x (List.mem_cons_of_mem _ hx)) hsorted
        refine ⟨hsep, fun x hx => hstart ▸ hstarts x hx, ?_⟩
        intro a
        rw [hcovers, covers_cons, ← or_assoc]
        refine or_congr_left ?_
        rw [mem_iff, mem_iff, mem_iff, hstart, hend]
        omega
      · rw [mergeLoop, if_neg hjoin]
        obtain ⟨hsep, hstarts, hcovers⟩ := ih hiv hne' hfirst hsorted
        refine ⟨Separated.cons_iff.mpr ⟨hlast, ?_, hsep⟩, ?_, ?_⟩
        · intro x hx
          have hx := hstarts x hx
          omega
        · intro x hx
          rcases List.mem_cons.mp hx with rfl | hx
          · exact le_rfl
          · exact hlastle.trans (hstarts x hx)
        · intro a
          rw [covers_cons, hcovers, covers_cons]

section Merge

variable {l : List Interval} (hne : ∀ iv ∈ l, iv.start ≤ iv.end_)

include hne

lemma mergeIntervals_spec : Separated (mergeIntervals l) ∧
    ∀ a, Covers (mergeIntervals l) a ↔ Covers l a := by
  have hsorted := List.pairwise_insertionSort StartLE l
  have hmem : ∀ iv, iv ∈ l.insertionSort StartLE ↔ iv ∈ l :=
    fun iv => List.mem_insertionSort StartLE
  have hcovers : ∀ a, Covers (l.insertionSort StartLE) a ↔ Covers l a := by
    intro a
    simp only [Covers, hmem]
  rw [mergeIntervals]
  rcases hsort : l.insertionSort StartLE with _ | ⟨iv, rest⟩
  · rw [hsort] at hcovers
    exact ⟨Separated.nil, hcovers⟩
  · rw [hsort] at hcovers hsorted hmem
    obtain ⟨hfirst, hsorted⟩ := List.pairwise_cons.mp hsorted
    have hne' : ∀ x ∈ iv :: rest, x.start ≤ x.end_ := fun x hx => hne x ((hmem x).mp hx)
    obtain ⟨hsep, -, hmerged⟩ := mergeLoop_spec (hne' iv List.mem_cons_self)
      (fun x hx => hne' x (List.mem_cons_of_mem _ hx)) hfirst hsorted
    refine ⟨hsep, fun a => ?_⟩
    rw [hmerged, ← covers_cons, hcovers]

/-- **Merged lists are separated.** -/
theorem mergeIntervals_separated : Separated (mergeIntervals l) := (mergeIntervals_spec hne).1

/-- **Merging keeps what a list holds.** -/
theorem covers_mergeIntervals (a : Nat) : Covers (mergeIntervals l) a ↔ Covers l a :=
  (mergeIntervals_spec hne).2 a

end Merge

/-! ### Subtraction -/

lemma covers_singleton (x : Interval) (a : Nat) : Covers [x] a ↔ a ∈ x := by
  rw [covers_cons, or_iff_left (covers_nil a)]

lemma subtractFrom_spec {iv : Interval} {cursor : Nat} {b : List Interval} (hb : Separated b) :
    Separated (subtractFrom iv cursor b) ∧
      (∀ x ∈ subtractFrom iv cursor b, cursor ≤ x.start ∧ x.end_ ≤ iv.end_) ∧
      ∀ a, Covers (subtractFrom iv cursor b) a ↔ (cursor ≤ a ∧ a ≤ iv.end_) ∧ ¬ Covers b a := by
  induction b generalizing cursor with
  | nil =>
      by_cases hrest : cursor ≤ iv.end_
      · rw [subtractFrom, if_pos hrest]
        refine ⟨Separated.singleton hrest, ?_, ?_⟩
        · intro x hx
          rw [List.mem_singleton.mp hx]
          exact ⟨le_rfl, le_rfl⟩
        · intro a
          rw [covers_singleton, mem_iff]
          exact (and_iff_left (covers_nil a)).symm
      · rw [subtractFrom, if_neg hrest]
        refine ⟨Separated.nil, fun x hx => absurd hx List.not_mem_nil, ?_⟩
        intro a
        refine iff_of_false (covers_nil a) ?_
        omega
  | cons cut b ih =>
      obtain ⟨hcut, hgaps, hsep⟩ := Separated.cons_iff.mp hb
      by_cases hskip : cut.end_ < cursor ∨ cut.start > iv.end_
      · -- the cut does not meet what is left
        obtain ⟨hres, hwithin, hcovers⟩ := @ih cursor hsep
        rw [subtractFrom, if_pos hskip]
        refine ⟨hres, hwithin, ?_⟩
        intro a
        rw [hcovers, covers_cons, mem_iff, not_or]
        refine and_congr_right ?_
        intro ha
        exact (and_iff_right (by omega)).symm
      · obtain ⟨hres, hwithin, hcovers⟩ := @ih (cut.end_ + 1) hsep
        rw [subtractFrom, if_neg hskip]
        obtain ⟨piece, hpiece⟩ : ∃ piece : List Interval,
            (if cut.start > cursor then [⟨cursor, cut.start - 1⟩] else []) = piece := ⟨_, rfl⟩
        obtain ⟨rest, hrest⟩ : ∃ rest : List Interval,
            (if cut.end_ + 1 > iv.end_ then [] else subtractFrom iv (cut.end_ + 1) b) = rest :=
          ⟨_, rfl⟩
        have hrestSep : Separated rest := by
          rw [← hrest]
          split
          · exact Separated.nil
          · exact hres
        have hrestWithin : ∀ x ∈ rest, cut.end_ + 1 ≤ x.start ∧ x.end_ ≤ iv.end_ := by
          intro x hx
          rw [← hrest] at hx
          split at hx
          · cases hx
          · exact hwithin x hx
        have hrestCovers : ∀ a, Covers rest a ↔
            (cut.end_ + 1 ≤ a ∧ a ≤ iv.end_) ∧ ¬ Covers b a := by
          intro a
          rw [← hrest]
          split
          · refine iff_of_false (covers_nil a) ?_
            omega
          · exact hcovers a
        rw [hpiece, hrest]
        -- what lies before the cut lies before all later cuts
        have hlater : ∀ a ≤ cut.end_, ¬ Covers b a := by
          intro a ha hcov
          have hlt := hb.lt_of_covers hcov
          omega
        by_cases hfront : cut.start > cursor
        · rw [if_pos hfront] at hpiece
          rw [← hpiece]
          refine ⟨?_, ?_, ?_⟩
          · refine Separated.cons_iff.mpr ⟨?_, ?_, hrestSep⟩
            · simp only
              omega
            · intro x hx
              have hx := hrestWithin x hx
              simp only
              omega
          · intro x hx
            rcases List.mem_cons.mp hx with rfl | hx
            · simp only
              omega
            · have hx := hrestWithin x hx
              omega
          · intro a
            rw [List.singleton_append, covers_cons, covers_cons, hrestCovers, mem_iff, mem_iff]
            have hbefore := hlater a
            by_cases hcov : Covers b a
            · have hgt : ¬ a ≤ cut.end_ := fun hle => hbefore hle hcov
              simp only [hcov, or_true, not_true_eq_false, and_false, or_false, iff_false]
              omega
            · simp only [hcov, or_false, not_false_eq_true, and_true]
              omega
        · rw [if_neg hfront] at hpiece
          rw [← hpiece, List.nil_append]
          refine ⟨hrestSep, ?_, ?_⟩
          · intro x hx
            have hx := hrestWithin x hx
            omega
          · intro a
            rw [covers_cons, hrestCovers, mem_iff]
            by_cases hcov : Covers b a
            · simp [hcov]
            · simp only [hcov, or_false, not_false_eq_true, and_true]
              omega

section Subtract

variable {a b : List Interval} (ha : Separated a) (hb : Separated b)

include hb

/-- **Subtraction takes out what `b` holds.** -/
theorem covers_subtractIntervals (n : Nat) :
    Covers (subtractIntervals a b) n ↔ Covers a n ∧ ¬ Covers b n := by
  induction a with
  | nil => simp [subtractIntervals]
  | cons iv a ih =>
      rw [subtractIntervals, List.flatMap_cons, covers_append, ← subtractIntervals, ih,
        (subtractFrom_spec hb).2.2, covers_cons, mem_iff, or_and_right]

include ha

/-- **Differences of separated lists are separated.** -/
theorem subtractIntervals_separated : Separated (subtractIntervals a b) := by
  induction a with
  | nil => exact Separated.nil
  | cons iv a ih =>
      obtain ⟨hsep, hwithin, -⟩ := @subtractFrom_spec iv iv.start b hb
      have hrest := ih ha.tail
      rw [subtractIntervals, List.flatMap_cons, ← subtractIntervals]
      refine ⟨?_, List.pairwise_append.mpr ⟨hsep.gaps, hrest.gaps, ?_⟩⟩
      · intro x hx
        rcases List.mem_append.mp hx with hx | hx
        · exact hsep.nonempty x hx
        · exact hrest.nonempty x hx
      · intro x hx y hy
        have hx := (hwithin x hx).2
        have hy : Covers a y.start := by
          refine ((covers_subtractIntervals hb y.start).mp ?_).1
          exact ⟨y, hy, le_rfl, hrest.nonempty y hy⟩
        have hgap := ha.lt_of_covers hy
        omega

end Subtract

end CumulusVpn.Split
