/-
Route lists: what they hold, and when they are as short as can be.

* `RoutesCover`: the addresses of a list of prefixes;
* `Tidy`: canonical texts in ascending order, disjoint and as few as any list
  with the same addresses;
* `intervalToCidrs_covers`, `intervalToCidrs_maximal`: the prefixes of an
  interval hold it, and every prefix within it lies within one of them;
* `routesOf_tidy`: **the prefixes of separated intervals are tidy**;
* `complementRoutes_exact`: **the complement of a list of prefixes**.
-/
import CumulusVpn.Split.CidrText
import CumulusVpn.Split.Routes

namespace CumulusVpn.Split

open Intervals

/-- Some prefix of the list holds the address. -/
def RoutesCover (routes : List String) (family : Family) (a : Nat) : Prop :=
  ∃ s ∈ routes, ∃ c, parseCidr s = some c ∧ c.family = family ∧ a ∈ cidrToInterval c

lemma routesCover_iff_any (routes : List String) (family : Family) (a : Nat) :
    (∃ s ∈ routes, (parseCidr s).any (fun c => c.family = family ∧ a ∈ cidrToInterval c) = true) ↔
      RoutesCover routes family a := by
  simp [RoutesCover, Option.any_eq_true]

instance (routes : List String) (family : Family) (a : Nat) :
    Decidable (RoutesCover routes family a) :=
  decidable_of_iff _ (routesCover_iff_any routes family a)

/-- The order of route lists: IPv4 before IPv6, and ascending without overlap
in a family. -/
def Cidr.Before (x y : Cidr) : Prop :=
  (x.family = .v4 ∧ y.family = .v6) ∨
    (x.family = y.family ∧ (cidrToInterval x).end_ < (cidrToInterval y).start)

/-- A route list in its shortest form. -/
structure Tidy (routes : List String) : Prop where
  /-- every route is the text of an aligned prefix -/
  aligned : ∀ s ∈ routes, ∃ c : Cidr, c.Canonical ∧ formatCidr c = s
  sorted : (routes.filterMap parseCidr).Pairwise Cidr.Before
  minimal : ∀ routes' : List String,
    (∀ family a, RoutesCover routes' family a ↔ RoutesCover routes family a) →
      routes.length ≤ routes'.length

/-! ### The interval of a prefix -/

section Canonical

variable {c : Cidr} (h : c.Canonical)

include h

/-- The interval of a prefix, as a block. -/
lemma Cidr.Canonical.block : ∃ m, (cidrToInterval c).start = m * 2 ^ (c.family.bits - c.pfx) ∧
    (cidrToInterval c).end_ + 1 = (m + 1) * 2 ^ (c.family.bits - c.pfx) ∧
    (m + 1) * 2 ^ (c.family.bits - c.pfx) ≤ 2 ^ c.family.bits := by
  obtain ⟨m, hm⟩ := h.aligned
  have hpow : 0 < 2 ^ (c.family.bits - c.pfx) := Nat.two_pow_pos _
  have hm : c.net = m * 2 ^ (c.family.bits - c.pfx) := by rw [hm, Nat.mul_comm]
  refine ⟨m, hm, ?_, ?_⟩
  · have hend : (cidrToInterval c).end_ = c.net + 1 <<< (c.family.bits - c.pfx) - 1 := rfl
    rw [hend, hm, Nat.one_shiftLeft, Nat.succ_mul]
    omega
  · -- the block of a multiple below `2 ^ bits` ends at `2 ^ bits` at most
    have hbits : 2 ^ c.family.bits = 2 ^ c.pfx * 2 ^ (c.family.bits - c.pfx) := by
      rw [← pow_add, Nat.add_sub_cancel' h.pfx]
    have hlt := h.net
    rw [hm, hbits] at hlt
    rw [hbits]
    exact Nat.mul_le_mul_right _ (Nat.lt_of_mul_lt_mul_right hlt)

lemma Cidr.Canonical.isBlock : IsBlock (cidrToInterval c) := by
  obtain ⟨m, hstart, hend, -⟩ := h.block
  exact ⟨_, m, hstart, hend⟩

lemma Cidr.Canonical.start_le : (cidrToInterval c).start ≤ (cidrToInterval c).end_ :=
  h.isBlock.start_le

lemma Cidr.Canonical.end_lt : (cidrToInterval c).end_ < 2 ^ c.family.bits := by
  obtain ⟨m, -, hend, hle⟩ := h.block
  omega

end Canonical

/-- No address of a family is larger than its bits allow. -/
lemma lt_of_routesCover {routes : List String} {family : Family} {a : Nat}
    (h : RoutesCover routes family a) : a < 2 ^ family.bits := by
  obtain ⟨s, -, c, hc, rfl, ha⟩ := h
  exact (ha.2.trans_lt (canonical_of_parseCidr hc).end_lt)

/-! ### The prefixes of an interval -/

section IntervalToCidrs

variable {iv : Interval} {family : Family}

lemma length_toDigits_two_pow (k : Nat) : (Nat.toDigits 2 (2 ^ k)).length = k + 1 := by
  refine le_antisymm ?_ ?_
  · exact (Nat.length_toDigits_le_iff (by decide) (Nat.succ_pos _)).mpr
      (Nat.pow_lt_pow_right (by decide) (Nat.lt_succ_self k))
  · by_contra hlt
    rcases Nat.eq_zero_or_pos k with rfl | hk
    · exact hlt (Nat.length_toDigits_pos)
    · have hle : 2 ^ k < 2 ^ k :=
        (Nat.length_toDigits_le_iff (by decide) hk).mp (Nat.le_of_lt_succ (Nat.lt_of_not_le hlt))
      exact absurd hle (Nat.lt_irrefl _)

/-- One round of the loop: the largest aligned block that fits is taken off
the front. -/
lemma intervalToCidrs_step (hle : iv.start ≤ iv.end_) (hlt : iv.end_ < 2 ^ family.bits) :
    ∃ k ≤ family.bits, 2 ^ k ∣ iv.start ∧ iv.start + 2 ^ k ≤ iv.end_ + 1 ∧
      (∀ j ≤ family.bits, 2 ^ j ∣ iv.start → iv.start + 2 ^ j ≤ iv.end_ + 1 → j ≤ k) ∧
      intervalToCidrs iv family = ⟨family, iv.start, family.bits - k⟩ ::
        intervalToCidrs ⟨iv.start + 2 ^ k, iv.end_⟩ family := by
  obtain ⟨k, hsize, hdvd, hfits, -, hmax⟩ := blockSize_eq iv family
  have hk : k ≤ family.bits := by
    by_contra hgt
    have hpow : 2 ^ family.bits < 2 ^ k := Nat.pow_lt_pow_right (by decide) (Nat.lt_of_not_le hgt)
    omega
  refine ⟨k, hk, hdvd, by omega, ?_, ?_⟩
  · intro j hj hdvdj hfitsj
    exact hmax j hj hdvdj (by omega)
  · rw [intervalToCidrs, if_pos hle, hsize, length_toDigits_two_pow, Nat.add_sub_cancel]

/-- A property of intervals that passes from what a round leaves to the whole
holds of every interval of the family. -/
lemma intervalToCidrs_induction {motive : Interval → Prop}
    (done : ∀ iv : Interval, iv.end_ < iv.start → motive iv)
    (round : ∀ (iv : Interval) (k : Nat), iv.end_ < 2 ^ family.bits → k ≤ family.bits →
      2 ^ k ∣ iv.start → iv.start + 2 ^ k ≤ iv.end_ + 1 →
      (∀ j ≤ family.bits, 2 ^ j ∣ iv.start → iv.start + 2 ^ j ≤ iv.end_ + 1 → j ≤ k) →
      intervalToCidrs iv family = ⟨family, iv.start, family.bits - k⟩ ::
        intervalToCidrs ⟨iv.start + 2 ^ k, iv.end_⟩ family →
      motive ⟨iv.start + 2 ^ k, iv.end_⟩ → motive iv)
    (iv : Interval) (hlt : iv.end_ < 2 ^ family.bits) : motive iv := by
  obtain ⟨n, hn⟩ : ∃ n, iv.end_ + 1 - iv.start = n := ⟨_, rfl⟩
  induction n using Nat.strong_induction_on generalizing iv with
  | _ n ih =>
      rcases Nat.lt_or_ge iv.end_ iv.start with hgt | hle
      · exact done iv hgt
      · obtain ⟨k, hk, hdvd, hfits, hmax, heq⟩ := intervalToCidrs_step hle hlt
        have hpow : 0 < 2 ^ k := Nat.two_pow_pos k
        have hless : iv.end_ + 1 - (iv.start + 2 ^ k) < n := by omega
        exact round iv k hlt hk hdvd hfits hmax heq (ih _ hless ⟨_, _⟩ hlt rfl)

/-- The prefix that a round takes off. -/
lemma cidrToInterval_round {start k : Nat} (hk : k ≤ family.bits) :
    cidrToInterval ⟨family, start, family.bits - k⟩ = ⟨start, start + 2 ^ k - 1⟩ := by
  simp only [cidrToInterval, Nat.sub_sub_self hk, Nat.one_shiftLeft]

lemma intervalToCidrs_of_lt (h : iv.end_ < iv.start) : intervalToCidrs iv family = [] := by
  rw [intervalToCidrs, if_neg (Nat.not_le_of_lt h)]

variable (hlt : iv.end_ < 2 ^ family.bits)

include hlt

/-- Every prefix of the list is aligned and lies within the interval. -/
lemma intervalToCidrs_canonical : ∀ c ∈ intervalToCidrs iv family,
    c.Canonical ∧ c.family = family ∧ iv.start ≤ (cidrToInterval c).start ∧
      (cidrToInterval c).end_ ≤ iv.end_ := by
  refine intervalToCidrs_induction (motive := fun iv => ∀ c ∈ intervalToCidrs iv family,
    c.Canonical ∧ c.family = family ∧ iv.start ≤ (cidrToInterval c).start ∧
      (cidrToInterval c).end_ ≤ iv.end_) ?_ ?_ iv hlt
  · intro iv hgt c hc
    rw [intervalToCidrs_of_lt hgt] at hc
    cases hc
  · intro iv k hlt hk hdvd hfits _ heq ih c hc
    have hpow : 0 < 2 ^ k := Nat.two_pow_pos k
    rw [heq] at hc
    rcases List.mem_cons.mp hc with rfl | hc
    · rw [cidrToInterval_round hk]
      refine ⟨⟨Nat.sub_le _ _, ?_, ?_⟩, rfl, le_rfl, ?_⟩
      · show iv.start < 2 ^ family.bits
        omega
      · show 2 ^ (family.bits - (family.bits - k)) ∣ iv.start
        rwa [Nat.sub_sub_self hk]
      · show iv.start + 2 ^ k - 1 ≤ iv.end_
        omega
    · obtain ⟨hcan, hfam, hstart, hend⟩ := ih c hc
      exact ⟨hcan, hfam, (Nat.le_add_right _ _).trans hstart, hend⟩

/-- The prefixes are in ascending order and do not overlap. -/
lemma intervalToCidrs_sorted : ((intervalToCidrs iv family).map cidrToInterval).Pairwise
    fun x y => x.end_ < y.start := by
  refine intervalToCidrs_induction (motive := fun iv =>
    ((intervalToCidrs iv family).map cidrToInterval).Pairwise fun x y => x.end_ < y.start)
    ?_ ?_ iv hlt
  · intro iv hgt
    rw [intervalToCidrs_of_lt hgt]
    exact List.Pairwise.nil
  · intro iv k hlt hk _ _ _ heq ih
    have hpow : 0 < 2 ^ k := Nat.two_pow_pos k
    rw [heq, List.map_cons, List.pairwise_cons]
    refine ⟨?_, ih⟩
    intro x hx
    obtain ⟨c, hc, rfl⟩ := List.mem_map.mp hx
    have hstart := (@intervalToCidrs_canonical ⟨iv.start + 2 ^ k, iv.end_⟩ family hlt c hc).2.2.1
    rw [cidrToInterval_round hk]
    simp only at hstart ⊢
    omega

/-- **The prefixes hold the addresses of the interval.** -/
theorem intervalToCidrs_covers (a : Nat) :
    Covers ((intervalToCidrs iv family).map cidrToInterval) a ↔ a ∈ iv := by
  refine intervalToCidrs_induction (motive := fun iv =>
    Covers ((intervalToCidrs iv family).map cidrToInterval) a ↔ a ∈ iv) ?_ ?_ iv hlt
  · intro iv hgt
    rw [intervalToCidrs_of_lt hgt]
    refine iff_of_false (covers_nil a) ?_
    rintro ⟨hstart, hend⟩
    omega
  · intro iv k _ hk _ hfits _ heq ih
    have hpow : 0 < 2 ^ k := Nat.two_pow_pos k
    rw [heq, List.map_cons, covers_cons, ih, cidrToInterval_round hk, mem_iff, mem_iff, mem_iff]
    simp only
    omega

/-- **The prefixes are maximal**: a block within the interval lies within one
of them. -/
theorem intervalToCidrs_maximal {b : Interval} (hb : IsBlock b) (hwithin : Within b iv) :
    ∃ c ∈ intervalToCidrs iv family, Within b (cidrToInterval c) := by
  refine intervalToCidrs_induction (motive := fun iv => Within b iv →
    ∃ c ∈ intervalToCidrs iv family, Within b (cidrToInterval c)) ?_ ?_ iv hlt hwithin
  · intro iv hgt hwithin
    obtain ⟨hstart, hend⟩ := hwithin b.start ⟨le_rfl, hb.start_le⟩
    omega
  · intro iv k hlt hk hdvd hfits hmax heq ih hwithin
    have hpow : 0 < 2 ^ k := Nat.two_pow_pos k
    have hstart := (hwithin b.start ⟨le_rfl, hb.start_le⟩).1
    have hend := (hwithin b.end_ ⟨hb.start_le, le_rfl⟩).2
    rw [heq]
    by_cases hrest : iv.start + 2 ^ k ≤ b.start
    · -- the block lies in what the round leaves
      obtain ⟨c, hc, hin⟩ := ih fun a ha => ⟨hrest.trans ha.1, (hwithin a ha).2⟩
      exact ⟨c, List.mem_cons_of_mem _ hc, hin⟩
    · refine ⟨_, List.mem_cons_self, ?_⟩
      rw [cidrToInterval_round hk]
      have hround : IsBlock ⟨iv.start, iv.start + 2 ^ k - 1⟩ := by
        obtain ⟨m, hm⟩ := hdvd
        refine ⟨k, m, by rw [hm, Nat.mul_comm], ?_⟩
        simp only [Nat.succ_mul]
        rw [hm, Nat.mul_comm]
        omega
      rcases hb.within_or_within hround (a := b.start) ⟨le_rfl, hb.start_le⟩
        ⟨hstart, by simp only; omega⟩ with hin | hout
      · exact hin
      · -- the block begins where the round does, and the round takes the largest
        have hbegin := hout iv.start ⟨le_rfl, by simp only; omega⟩
        have heqstart : b.start = iv.start := le_antisymm hbegin.1 hstart
        obtain ⟨j, m, hbs, hbe⟩ := hb
        have hsucc : b.end_ + 1 = b.start + 2 ^ j := by rw [hbe, hbs, Nat.succ_mul]
        have hjbits : 2 ^ j ≤ 2 ^ family.bits := by omega
        have hj : j ≤ k := by
          refine hmax j ((Nat.pow_le_pow_iff_right (by decide)).mp hjbits) ?_ (by omega)
          rw [← heqstart, hbs]
          exact Nat.dvd_mul_left _ _
        have hle : 2 ^ j ≤ 2 ^ k := Nat.pow_le_pow_right (by decide) hj
        intro a ha
        obtain ⟨halow, hahigh⟩ := ha
        refine ⟨heqstart ▸ halow, ?_⟩
        simp only
        omega

end IntervalToCidrs

/-! ### The prefixes of separated intervals -/

/-- Separated intervals of addresses of the family. -/
structure Proper (family : Family) (l : List Interval) : Prop where
  separated : Separated l
  inRange : ∀ iv ∈ l, iv.end_ < 2 ^ family.bits

lemma Proper.nil (family : Family) : Proper family [] :=
  ⟨Separated.nil, fun _ h => absurd h List.not_mem_nil⟩

lemma Proper.tail {family : Family} {iv : Interval} {l : List Interval}
    (h : Proper family (iv :: l)) : Proper family l :=
  ⟨h.separated.tail, fun x hx => h.inRange x (List.mem_cons_of_mem _ hx)⟩

lemma Proper.lt_of_covers {family : Family} {l : List Interval} (h : Proper family l) {a : Nat}
    (ha : Covers l a) : a < 2 ^ family.bits := by
  obtain ⟨iv, hiv, hin⟩ := ha
  exact hin.2.trans_lt (h.inRange iv hiv)

/-- The prefixes of a list of intervals. -/
def cidrsOf (l : List Interval) (family : Family) : List Cidr :=
  l.flatMap fun iv => intervalToCidrs iv family

section CidrsOf

variable {family : Family} {l : List Interval} (h : Proper family l)

include h

lemma cidrsOf_canonical : ∀ c ∈ cidrsOf l family, c.Canonical ∧ c.family = family := by
  intro c hc
  obtain ⟨iv, hiv, hc⟩ := List.mem_flatMap.mp hc
  obtain ⟨hcan, hfam, -⟩ := intervalToCidrs_canonical (h.inRange iv hiv) c hc
  exact ⟨hcan, hfam⟩

lemma cidrsOf_covers (a : Nat) : Covers ((cidrsOf l family).map cidrToInterval) a ↔ Covers l a := by
  induction l with
  | nil => simp [cidrsOf]
  | cons iv l ih =>
      have hiv := intervalToCidrs_covers (h.inRange iv List.mem_cons_self) a
      rw [cidrsOf, List.flatMap_cons, List.map_append, covers_append, hiv, ← cidrsOf, ih h.tail,
        covers_cons]

lemma cidrsOf_sorted : ((cidrsOf l family).map cidrToInterval).Pairwise
    fun x y => x.end_ < y.start := by
  induction l with
  | nil => exact List.Pairwise.nil
  | cons iv l ih =>
      have hiv := h.inRange iv List.mem_cons_self
      rw [cidrsOf, List.flatMap_cons, List.map_append, List.pairwise_append, ← cidrsOf]
      refine ⟨intervalToCidrs_sorted hiv, ih h.tail, ?_⟩
      intro x hx y hy
      obtain ⟨c, hc, rfl⟩ := List.mem_map.mp hx
      have hend := (intervalToCidrs_canonical hiv c hc).2.2.2
      have hcov : Covers l y.start := by
        refine (cidrsOf_covers h.tail y.start).mp ⟨y, hy, le_rfl, ?_⟩
        obtain ⟨d, hd, rfl⟩ := List.mem_map.mp hy
        exact (cidrsOf_canonical h.tail d hd).1.start_le
      have hgap := h.separated.lt_of_covers hcov
      omega

/-- A block of the addresses lies within one of the prefixes. -/
lemma cidrsOf_maximal {b : Interval} (hb : IsBlock b) (hcovers : ∀ a ∈ b, Covers l a) :
    ∃ c ∈ cidrsOf l family, Within b (cidrToInterval c) := by
  obtain ⟨iv, hiv, hwithin⟩ := h.separated.exists_mem hb.start_le hcovers
  obtain ⟨c, hc, hin⟩ := intervalToCidrs_maximal (h.inRange iv hiv) hb hwithin
  exact ⟨c, List.mem_flatMap.mpr ⟨iv, hiv, hc⟩, hin⟩

end CidrsOf

/-! ### Route lists -/

/-- The routes of intervals of both families, IPv4 first. -/
def routesOf (l : Family → List Interval) : List String :=
  intervalsToStrings (l .v4) .v4 ++ intervalsToStrings (l .v6) .v6

lemma routesOf_eq (l : Family → List Interval) :
    routesOf l = (cidrsOf (l .v4) .v4 ++ cidrsOf (l .v6) .v6).map formatCidr :=
  List.map_append.symm

/-- The prefixes of one family that a list of routes names. -/
def prefixesOf (routes : List String) (family : Family) : List Cidr :=
  (routes.filterMap parseCidr).filter fun c => c.family = family

lemma mem_prefixesOf {routes : List String} {family : Family} {c : Cidr} :
    c ∈ prefixesOf routes family ↔ (∃ s ∈ routes, parseCidr s = some c) ∧ c.family = family := by
  simp [prefixesOf]

lemma routesCover_iff {routes : List String} {family : Family} {a : Nat} :
    RoutesCover routes family a ↔ Covers ((prefixesOf routes family).map cidrToInterval) a := by
  constructor
  · rintro ⟨s, hs, c, hc, hfam, ha⟩
    exact ⟨_, List.mem_map_of_mem (mem_prefixesOf.mpr ⟨⟨s, hs, hc⟩, hfam⟩), ha⟩
  · rintro ⟨iv, hiv, ha⟩
    obtain ⟨c, hc, rfl⟩ := List.mem_map.mp hiv
    obtain ⟨⟨s, hs, hc⟩, hfam⟩ := mem_prefixesOf.mp hc
    exact ⟨s, hs, c, hc, hfam, ha⟩

/-- Every prefix of the list belongs to one of the families. -/
lemma length_prefixesOf_le (routes : List String) :
    (prefixesOf routes .v4).length + (prefixesOf routes .v6).length ≤ routes.length := by
  have hsplit : ∀ cs : List Cidr, (cs.filter fun c => c.family = .v4).length +
      (cs.filter fun c => c.family = .v6).length = cs.length := by
    intro cs
    induction cs with
    | nil => rfl
    | cons c cs ih =>
        cases hc : c.family with
        | v4 =>
            simp only [List.filter_cons, hc, decide_true, if_true, List.length_cons, reduceCtorEq,
              decide_false, Bool.false_eq_true, if_false]
            omega
        | v6 =>
            simp only [List.filter_cons, hc, decide_true, if_true, List.length_cons, reduceCtorEq,
              decide_false, Bool.false_eq_true, if_false]
            omega
  rw [prefixesOf, prefixesOf, hsplit]
  exact List.length_filterMap_le _ _

section RoutesOf

variable {l : Family → List Interval} (h : ∀ family, Proper family (l family))

include h

/-- The texts are read back as the prefixes. -/
lemma filterMap_routesOf :
    (routesOf l).filterMap parseCidr = cidrsOf (l .v4) .v4 ++ cidrsOf (l .v6) .v6 := by
  have hread : ∀ cs : List Cidr, (∀ c ∈ cs, c.Canonical) →
      (cs.map formatCidr).filterMap parseCidr = cs := by
    intro cs hcs
    induction cs with
    | nil => rfl
    | cons c cs ih =>
        rw [List.map_cons, List.filterMap_cons, parseCidr_formatCidr (hcs c List.mem_cons_self)]
        simp only [ih fun d hd => hcs d (List.mem_cons_of_mem _ hd)]
  rw [routesOf_eq]
  refine hread _ ?_
  intro c hc
  rcases List.mem_append.mp hc with hc | hc
  · exact (cidrsOf_canonical (h .v4) c hc).1
  · exact (cidrsOf_canonical (h .v6) c hc).1

lemma prefixesOf_routesOf (family : Family) :
    prefixesOf (routesOf l) family = cidrsOf (l family) family := by
  have hall : ∀ fam, ∀ c ∈ cidrsOf (l fam) fam, c.family = fam := fun fam c hc =>
    (cidrsOf_canonical (h fam) c hc).2
  have hkeep : ∀ fam, (cidrsOf (l fam) fam).filter (fun c => c.family = fam) =
      cidrsOf (l fam) fam :=
    fun fam => List.filter_eq_self.mpr fun c hc => decide_eq_true (hall fam c hc)
  have hdrop : ∀ fam fam', fam' ≠ fam →
      (cidrsOf (l fam') fam').filter (fun c => c.family = fam) = [] := by
    intro fam fam' hne
    refine List.filter_eq_nil_iff.mpr fun c hc => ?_
    rw [hall fam' c hc]
    simpa using hne
  rw [prefixesOf, filterMap_routesOf h, List.filter_append]
  cases family with
  | v4 => rw [hkeep, hdrop _ _ (by decide), List.append_nil]
  | v6 => rw [hkeep, hdrop _ _ (by decide), List.nil_append]

/-- **The routes hold what the intervals hold.** -/
theorem routesCover_routesOf (family : Family) (a : Nat) :
    RoutesCover (routesOf l) family a ↔ Covers (l family) a := by
  rw [routesCover_iff, prefixesOf_routesOf h, cidrsOf_covers (h family)]

/-- **The routes of separated intervals are tidy.** -/
theorem routesOf_tidy : Tidy (routesOf l) where
  aligned := by
    intro s hs
    rw [routesOf_eq] at hs
    obtain ⟨c, hc, rfl⟩ := List.mem_map.mp hs
    refine ⟨c, ?_, rfl⟩
    rcases List.mem_append.mp hc with hc | hc
    · exact (cidrsOf_canonical (h .v4) c hc).1
    · exact (cidrsOf_canonical (h .v6) c hc).1
  sorted := by
    have hfamily : ∀ family, (cidrsOf (l family) family).Pairwise Cidr.Before := by
      intro family
      refine (List.pairwise_map.mp (cidrsOf_sorted (h family))).imp_of_mem ?_
      intro x y hx hy hlt
      have hx := (cidrsOf_canonical (h family) x hx).2
      have hy := (cidrsOf_canonical (h family) y hy).2
      exact Or.inr ⟨hx.trans hy.symm, hlt⟩
    rw [filterMap_routesOf h]
    refine List.pairwise_append.mpr ⟨hfamily .v4, hfamily .v6, ?_⟩
    intro x hx y hy
    exact Or.inl ⟨(cidrsOf_canonical (h .v4) x hx).2, (cidrsOf_canonical (h .v6) y hy).2⟩
  minimal := by
    intro routes' hsame
    have hfamily : ∀ family, (cidrsOf (l family) family).length ≤
        (prefixesOf routes' family).length := by
      intro family
      have hcovers : ∀ a, Covers ((prefixesOf routes' family).map cidrToInterval) a ↔
          Covers (l family) a := by
        intro a
        rw [← routesCover_iff, hsame, routesCover_routesOf h]
      have hle := @length_le_of_maximal ((cidrsOf (l family) family).map cidrToInterval)
        ((prefixesOf routes' family).map cidrToInterval) ?_ (cidrsOf_sorted (h family))
        ?_ ?_
      · simpa using hle
      · intro g hg
        obtain ⟨c, hc, rfl⟩ := List.mem_map.mp hg
        exact (cidrsOf_canonical (h family) c hc).1.start_le
      · -- a prefix of the other list lies within the addresses, hence within one of ours
        intro b hb
        obtain ⟨d, hd, rfl⟩ := List.mem_map.mp hb
        obtain ⟨⟨s, -, hparse⟩, -⟩ := mem_prefixesOf.mp hd
        obtain ⟨c, hc, hin⟩ := cidrsOf_maximal (h family) (canonical_of_parseCidr hparse).isBlock
          fun a ha => (hcovers a).mp ⟨_, List.mem_map_of_mem hd, ha⟩
        exact ⟨_, List.mem_map_of_mem hc, hin⟩
      · intro a ha
        exact (hcovers a).mpr ((cidrsOf_covers (h family) a).mp ha)
    calc (routesOf l).length
        = (cidrsOf (l .v4) .v4).length + (cidrsOf (l .v6) .v6).length := by
          rw [routesOf_eq, List.length_map, List.length_append]
      _ ≤ (prefixesOf routes' .v4).length + (prefixesOf routes' .v6).length :=
          Nat.add_le_add (hfamily .v4) (hfamily .v6)
      _ ≤ routes'.length := length_prefixesOf_le routes'

end RoutesOf

/-! ### Reading route lists -/

/-- Every text of the list is an address or a prefix. -/
def ValidCidrs (cidrs : List String) : Prop := ∀ s ∈ cidrs, (parseCidr s).isSome

lemma ValidCidrs.tail {s : String} {cidrs : List String} (h : ValidCidrs (s :: cidrs)) :
    ValidCidrs cidrs := fun x hx => h x (List.mem_cons_of_mem _ hx)

lemma ValidCidrs.append {cidrs cidrs' : List String} (h : ValidCidrs cidrs)
    (h' : ValidCidrs cidrs') : ValidCidrs (cidrs ++ cidrs') := by
  intro s hs
  rcases List.mem_append.mp hs with hs | hs
  · exact h s hs
  · exact h' s hs

lemma validCidrs_of_aligned {routes : List String}
    (h : ∀ s ∈ routes, ∃ c : Cidr, c.Canonical ∧ formatCidr c = s) : ValidCidrs routes := by
  intro s hs
  obtain ⟨c, hc, rfl⟩ := h s hs
  rw [parseCidr_formatCidr hc]
  rfl

/-- The merged intervals of the prefixes of one family. -/
def mergedOf (cidrs : List String) (family : Family) : List Interval :=
  mergeIntervals ((prefixesOf cidrs family).map cidrToInterval)

lemma parseIntervals_eq {cidrs : List String} (h : ValidCidrs cidrs) (family : Family) :
    parseIntervals family cidrs = .ok ((prefixesOf cidrs family).map cidrToInterval) := by
  induction cidrs with
  | nil => rfl
  | cons s cidrs ih =>
      obtain ⟨c, hc⟩ := Option.isSome_iff_exists.mp (h s List.mem_cons_self)
      rw [parseIntervals, hc, ih h.tail]
      by_cases hfam : c.family = family <;> simp [prefixesOf, hc, hfam]

lemma toMergedIntervals_eq {cidrs : List String} (h : ValidCidrs cidrs) (family : Family) :
    toMergedIntervals cidrs family = .ok (mergedOf cidrs family) := by
  rw [toMergedIntervals, parseIntervals_eq h]
  rfl

lemma prefixesOf_nonempty (cidrs : List String) (family : Family) :
    ∀ iv ∈ (prefixesOf cidrs family).map cidrToInterval, iv.start ≤ iv.end_ := by
  intro iv hiv
  obtain ⟨c, hc, rfl⟩ := List.mem_map.mp hiv
  obtain ⟨⟨s, -, hparse⟩, -⟩ := mem_prefixesOf.mp hc
  exact (canonical_of_parseCidr hparse).start_le

lemma covers_mergedOf (cidrs : List String) (family : Family) (a : Nat) :
    Covers (mergedOf cidrs family) a ↔ RoutesCover cidrs family a := by
  rw [mergedOf, covers_mergeIntervals (prefixesOf_nonempty cidrs family), ← routesCover_iff]

lemma mergedOf_separated (cidrs : List String) (family : Family) :
    Separated (mergedOf cidrs family) :=
  mergeIntervals_separated (prefixesOf_nonempty cidrs family)

/-- Intervals of a separated list hold addresses of the family if the list
does. -/
lemma proper_of_covers {family : Family} {l : List Interval} (h : Separated l)
    (hcovers : ∀ a, Covers l a → a < 2 ^ family.bits) : Proper family l :=
  ⟨h, fun iv hiv => hcovers iv.end_ ⟨iv, hiv, h.nonempty iv hiv, le_rfl⟩⟩

lemma mergedOf_proper (cidrs : List String) (family : Family) :
    Proper family (mergedOf cidrs family) :=
  proper_of_covers (mergedOf_separated cidrs family) fun a ha =>
    lt_of_routesCover ((covers_mergedOf cidrs family a).mp ha)

lemma subtractIntervals_proper {family : Family} {a b : List Interval} (ha : Proper family a)
    (hb : Separated b) : Proper family (subtractIntervals a b) :=
  proper_of_covers (subtractIntervals_separated ha.separated hb) fun n hn =>
    ha.lt_of_covers ((covers_subtractIntervals hb n).mp hn).1

lemma mem_full {family : Family} {a : Nat} : a ∈ family.full ↔ a < 2 ^ family.bits := by
  have hpow : 0 < 2 ^ family.bits := Nat.two_pow_pos _
  rw [mem_iff, Family.full, Nat.one_shiftLeft]
  simp only
  omega

lemma full_proper (family : Family) : Proper family [family.full] := by
  have hpow : 0 < 2 ^ family.bits := Nat.two_pow_pos _
  refine proper_of_covers (Separated.singleton (Nat.zero_le _)) fun a ha => ?_
  exact mem_full.mp ((covers_singleton _ _).mp ha)

/-! ### The complement -/

/-- The addresses of the requested families outside the excluded prefixes. -/
def complementOf (excluded : List String) (family : Families) (fam : Family) : List Interval :=
  if fam ∈ family.toList then subtractIntervals [fam.full] (mergedOf excluded fam) else []

lemma complementOf_proper (excluded : List String) (family : Families) (fam : Family) :
    Proper fam (complementOf excluded family fam) := by
  rw [complementOf]
  split
  · exact subtractIntervals_proper (full_proper fam) (mergedOf_separated excluded fam)
  · exact Proper.nil fam

lemma covers_complementOf (excluded : List String) (family : Families) (fam : Family) (a : Nat) :
    Covers (complementOf excluded family fam) a ↔
      fam ∈ family.toList ∧ a < 2 ^ fam.bits ∧ ¬ RoutesCover excluded fam a := by
  rw [complementOf]
  split
  · rename_i hmem
    rw [covers_subtractIntervals (mergedOf_separated excluded fam), covers_singleton, mem_full,
      covers_mergedOf, and_iff_right hmem]
  · rename_i hmem
    exact iff_of_false (covers_nil a) fun h => hmem h.1

lemma complementRoutes_eq {excluded : List String} (h : ValidCidrs excluded) (family : Families) :
    complementRoutes excluded family = .ok (routesOf (complementOf excluded family)) := by
  have hempty : ∀ fam, intervalsToStrings [] fam = [] := fun _ => rfl
  cases family <;>
    simp [complementRoutes, Families.toList, toMergedIntervals_eq h, routesOf, complementOf, hempty,
      bind, Except.bind, pure, Except.pure]

/-- **The complement is exact**: the routes are tidy and hold the addresses of
the requested families that no excluded prefix holds.  The prefixes of every
interval of addresses hold that interval. -/
theorem complementRoutes_exact {excluded : List String} (h : ValidCidrs excluded)
    (family : Families) :
    (∃ routes, complementRoutes excluded family = .ok routes ∧ Tidy routes ∧
      ∀ fam a, RoutesCover routes fam a ↔
        fam ∈ family.toList ∧ a < 2 ^ fam.bits ∧ ¬ RoutesCover excluded fam a) ∧
    ∀ (fam : Family) (iv : Interval), iv.end_ < 2 ^ fam.bits →
      ∀ a, (∃ c ∈ intervalToCidrs iv fam, a ∈ cidrToInterval c) ↔ a ∈ iv := by
  refine ⟨⟨_, complementRoutes_eq h family, routesOf_tidy (complementOf_proper excluded family),
    ?_⟩, ?_⟩
  · intro fam a
    rw [routesCover_routesOf (complementOf_proper excluded family), covers_complementOf]
  · intro fam iv hiv a
    rw [← intervalToCidrs_covers hiv a]
    simp [Covers]

/-- Half of each family is left. -/
theorem complementRoutes_exact_halves :
    ∃ routes, complementRoutes ["0.0.0.0/1", "8000::/1"] .both = .ok routes ∧ Tidy routes ∧
      ∀ fam a, RoutesCover routes fam a ↔ fam ∈ Families.both.toList ∧ a < 2 ^ fam.bits ∧
        ¬ RoutesCover ["0.0.0.0/1", "8000::/1"] fam a := by
  have hvalid : ValidCidrs ["0.0.0.0/1", "8000::/1"] := by
    rw [ValidCidrs]
    decide +kernel
  exact (complementRoutes_exact hvalid .both).1

end CumulusVpn.Split
