/-
Separated intervals of natural numbers, and their covers by aligned blocks.

* `Covers`: the numbers that a list of intervals holds;
* `Separated`: nonempty intervals in ascending order, with a gap between any
  two;
* `Separated.ext`: **separated lists with the same numbers are equal**;
* `Separated.exists_mem`: what lies within the list lies within one interval;
* `IsBlock`: `2 ^ k` numbers from a multiple of `2 ^ k` on; two blocks are
  nested or disjoint;
* `length_le_of_maximal`: **a list of disjoint intervals that every interval of
  a cover lies within is no longer than the cover**.
-/
import Mathlib.Data.List.Nodup
import Mathlib.Data.List.Perm.Subperm
import Mathlib.Data.Nat.Log
import Mathlib.Tactic.Ring

namespace Intervals

/-- The numbers from `start` to `end_`, both included. -/
structure Interval where
  start : Nat
  end_ : Nat
deriving DecidableEq, Repr

instance : Membership Nat Interval := ⟨fun iv a => iv.start ≤ a ∧ a ≤ iv.end_⟩

lemma mem_iff {iv : Interval} {a : Nat} : a ∈ iv ↔ iv.start ≤ a ∧ a ≤ iv.end_ := Iff.rfl

instance (iv : Interval) (a : Nat) : Decidable (a ∈ iv) :=
  inferInstanceAs (Decidable (_ ∧ _))

/-- Every number of `x` is one of `y`. -/
def Within (x y : Interval) : Prop := ∀ a ∈ x, a ∈ y

/-- The numbers that some interval of the list holds. -/
def Covers (l : List Interval) (a : Nat) : Prop := ∃ iv ∈ l, a ∈ iv

@[simp] lemma covers_nil (a : Nat) : ¬ Covers [] a := by
  rintro ⟨iv, hiv, -⟩
  cases hiv

@[simp] lemma covers_cons (iv : Interval) (l : List Interval) (a : Nat) :
    Covers (iv :: l) a ↔ a ∈ iv ∨ Covers l a := by
  simp [Covers]

@[simp] lemma covers_append (l l' : List Interval) (a : Nat) :
    Covers (l ++ l') a ↔ Covers l a ∨ Covers l' a := by
  simp [Covers, or_and_right, exists_or]

/-! ### Separated lists -/

/-- Nonempty intervals in ascending order with gaps between them. -/
structure Separated (l : List Interval) : Prop where
  nonempty : ∀ iv ∈ l, iv.start ≤ iv.end_
  gaps : l.Pairwise fun x y => x.end_ + 1 < y.start

namespace Separated

variable {x : Interval} {l l' : List Interval}

lemma nil : Separated [] := ⟨by simp, List.Pairwise.nil⟩

lemma singleton (h : x.start ≤ x.end_) : Separated [x] :=
  ⟨by simpa using h, List.pairwise_singleton _ _⟩

lemma cons_iff : Separated (x :: l) ↔
    x.start ≤ x.end_ ∧ (∀ y ∈ l, x.end_ + 1 < y.start) ∧ Separated l := by
  constructor
  · rintro ⟨hne, hgaps⟩
    rw [List.pairwise_cons] at hgaps
    exact ⟨hne x List.mem_cons_self, hgaps.1,
      fun iv hiv => hne iv (List.mem_cons_of_mem _ hiv), hgaps.2⟩
  · rintro ⟨hx, hl, hne, hgaps⟩
    refine ⟨?_, List.pairwise_cons.mpr ⟨hl, hgaps⟩⟩
    intro iv hiv
    rcases List.mem_cons.mp hiv with rfl | hiv
    · exact hx
    · exact hne iv hiv

lemma tail (h : Separated (x :: l)) : Separated l := (cons_iff.mp h).2.2

/-- The rest of the list begins behind a gap. -/
lemma lt_of_covers (h : Separated (x :: l)) {a : Nat} (ha : Covers l a) : x.end_ + 1 < a := by
  obtain ⟨y, hy, hay⟩ := ha
  have hgap := (cons_iff.mp h).2.1 y hy
  exact hgap.trans_le hay.1

/-- Nothing lies before the first interval. -/
lemma start_le (h : Separated (x :: l)) {a : Nat} (ha : Covers (x :: l) a) : x.start ≤ a := by
  rcases (covers_cons _ _ _).mp ha with hx | hl
  · exact hx.1
  · have hlt := h.lt_of_covers hl
    have hne := (cons_iff.mp h).1
    omega

/-- The number after the first interval is not covered. -/
lemma not_covers_succ (h : Separated (x :: l)) : ¬ Covers (x :: l) (x.end_ + 1) := by
  intro ha
  rcases (covers_cons _ _ _).mp ha with hx | hl
  · exact absurd hx.2 (Nat.not_succ_le_self _)
  · exact absurd (h.lt_of_covers hl) (Nat.lt_irrefl _)

lemma head_le {y : Interval} (h' : Separated (y :: l'))
    (hcovers : ∀ a, Covers (x :: l) a → Covers (y :: l') a) (hstart : x.start = y.start) :
    x.end_ ≤ y.end_ := by
  by_contra hlt
  have hy := (cons_iff.mp h').1
  refine h'.not_covers_succ (hcovers _ ?_)
  exact (covers_cons _ _ _).mpr (Or.inl (mem_iff.mpr ⟨by omega, by omega⟩))

/-- **Separated lists with the same numbers are equal.** -/
theorem ext (h : Separated l) (h' : Separated l') (hcovers : ∀ a, Covers l a ↔ Covers l' a) :
    l = l' := by
  induction l generalizing l' with
  | nil =>
      rcases l' with _ | ⟨y, l'⟩
      · rfl
      · have hy := (cons_iff.mp h').1
        exact absurd ((hcovers y.start).mpr ((covers_cons _ _ _).mpr (Or.inl ⟨le_rfl, hy⟩)))
          (covers_nil _)
  | cons x l ih =>
      have hx := (cons_iff.mp h).1
      rcases l' with _ | ⟨y, l'⟩
      · exact absurd ((hcovers x.start).mp ((covers_cons _ _ _).mpr (Or.inl ⟨le_rfl, hx⟩)))
          (covers_nil _)
      · have hy := (cons_iff.mp h').1
        have hstart : x.start = y.start := by
          refine le_antisymm ?_ ?_
          · exact h.start_le ((hcovers _).mpr ((covers_cons _ _ _).mpr (Or.inl ⟨le_rfl, hy⟩)))
          · exact h'.start_le ((hcovers _).mp ((covers_cons _ _ _).mpr (Or.inl ⟨le_rfl, hx⟩)))
        have hend : x.end_ = y.end_ :=
          le_antisymm (h'.head_le (fun a => (hcovers a).mp) hstart)
            (h.head_le (fun a => (hcovers a).mpr) hstart.symm)
        have hxy : x = y := by
          cases x
          cases y
          simp_all
        subst hxy
        rw [ih h.tail h'.tail]
        intro a
        constructor
        · intro ha
          have hlt := h.lt_of_covers ha
          rcases (covers_cons _ _ _).mp ((hcovers a).mp ((covers_cons _ _ _).mpr (Or.inr ha))) with
            hin | hin
          · exact absurd hin.2 (by omega)
          · exact hin
        · intro ha
          have hlt := h'.lt_of_covers ha
          rcases (covers_cons _ _ _).mp ((hcovers a).mpr ((covers_cons _ _ _).mpr (Or.inr ha))) with
            hin | hin
          · exact absurd hin.2 (by omega)
          · exact hin

/-- What lies within the list lies within one of its intervals. -/
lemma exists_mem (h : Separated l) {b : Interval} (hb : b.start ≤ b.end_)
    (hcovers : ∀ a ∈ b, Covers l a) : ∃ iv ∈ l, Within b iv := by
  induction l with
  | nil => exact absurd (hcovers b.start ⟨le_rfl, hb⟩) (covers_nil _)
  | cons x l ih =>
      rcases (covers_cons _ _ _).mp (hcovers b.start ⟨le_rfl, hb⟩) with hx | hl
      · refine ⟨x, List.mem_cons_self, fun a ha => ⟨hx.1.trans ha.1, ?_⟩⟩
        by_contra hlt
        refine h.not_covers_succ (hcovers _ (mem_iff.mpr ⟨?_, ?_⟩))
        · exact hx.2.trans (Nat.le_succ _)
        · have hend := ha.2
          omega
      · have hlt := h.lt_of_covers hl
        obtain ⟨iv, hiv, hwithin⟩ := ih h.tail fun a ha => by
          rcases (covers_cons _ _ _).mp (hcovers a ha) with hx | hl
          · have hstart := ha.1
            exact absurd hx.2 (by omega)
          · exact hl
        exact ⟨iv, List.mem_cons_of_mem _ hiv, hwithin⟩

end Separated

/-! ### Blocks -/

/-- The `2 ^ k` numbers from a multiple of `2 ^ k` on. -/
def IsBlock (iv : Interval) : Prop := ∃ k m, iv.start = m * 2 ^ k ∧ iv.end_ + 1 = (m + 1) * 2 ^ k

lemma IsBlock.start_le {iv : Interval} (h : IsBlock iv) : iv.start ≤ iv.end_ := by
  obtain ⟨k, m, hstart, hend⟩ := h
  have hpow : 0 < 2 ^ k := Nat.two_pow_pos k
  rw [Nat.succ_mul] at hend
  omega

/-- A block that meets a larger one lies within it. -/
lemma within_of_le {k k' m m' a : Nat} (hk : k ≤ k') (ha : m * 2 ^ k ≤ a)
    (ha' : a < (m + 1) * 2 ^ k)
    (hb : m' * 2 ^ k' ≤ a) (hb' : a < (m' + 1) * 2 ^ k') :
    m' * 2 ^ k' ≤ m * 2 ^ k ∧ (m + 1) * 2 ^ k ≤ (m' + 1) * 2 ^ k' := by
  obtain ⟨j, rfl⟩ := Nat.exists_eq_add_of_le hk
  have hpow : ∀ n, n * 2 ^ (k + j) = n * 2 ^ j * 2 ^ k := by
    intro n
    rw [pow_add, Nat.mul_comm (2 ^ k), Nat.mul_assoc]
  rw [hpow] at hb hb' ⊢
  rw [hpow (m' + 1)]
  have hlow : m' * 2 ^ j < m + 1 := Nat.lt_of_mul_lt_mul_right (hb.trans_lt ha')
  have hhigh : m < (m' + 1) * 2 ^ j := Nat.lt_of_mul_lt_mul_right (ha.trans_lt hb')
  exact ⟨Nat.mul_le_mul_right _ (Nat.lt_succ_iff.mp hlow), Nat.mul_le_mul_right _ hhigh⟩

/-- **Two blocks that meet are nested.** -/
lemma IsBlock.within_or_within {x y : Interval} (hx : IsBlock x) (hy : IsBlock y) {a : Nat}
    (hax : a ∈ x) (hay : a ∈ y) : Within x y ∨ Within y x := by
  obtain ⟨k, m, hxs, hxe⟩ := hx
  obtain ⟨k', m', hys, hye⟩ := hy
  rw [mem_iff, hxs] at hax
  rw [mem_iff, hys] at hay
  have hax' : a < (m + 1) * 2 ^ k := hxe ▸ Nat.lt_succ_of_le hax.2
  have hay' : a < (m' + 1) * 2 ^ k' := hye ▸ Nat.lt_succ_of_le hay.2
  rcases Nat.le_total k k' with hk | hk
  · left
    obtain ⟨hlow, hhigh⟩ := within_of_le hk hax.1 hax' hay.1 hay'
    intro b hb
    rw [mem_iff] at hb ⊢
    omega
  · right
    obtain ⟨hlow, hhigh⟩ := within_of_le hk hay.1 hay' hax.1 hax'
    intro b hb
    rw [mem_iff] at hb ⊢
    omega

/-! ### Shortest covers -/

/-- Intervals in ascending order that share a number are one. -/
lemma eq_of_mem {out : List Interval} (hdisjoint : out.Pairwise fun x y => x.end_ < y.start) :
    ∀ x ∈ out, ∀ y ∈ out, ∀ a, a ∈ x → a ∈ y → x = y := by
  have hlt : ∀ {x y : Interval}, x.end_ < y.start → ∀ a, a ∈ x → a ∈ y → x = y := by
    intro x y hlt a hx hy
    rw [mem_iff] at hx hy
    omega
  intro x hx y hy
  exact List.Pairwise.forall_of_forall_of_flip (R := fun x y => ∀ a, a ∈ x → a ∈ y → x = y)
    (fun _ _ _ _ _ => rfl) (hdisjoint.imp hlt)
    (hdisjoint.imp fun h a hy hx => (hlt h a hx hy).symm) hx hy

/-- **Disjoint intervals that every interval of a cover lies within are no
more than the cover.** -/
theorem length_le_of_maximal {out cover : List Interval} (hne : ∀ g ∈ out, g.start ≤ g.end_)
    (hdisjoint : out.Pairwise fun x y => x.end_ < y.start)
    (hmaximal : ∀ b ∈ cover, ∃ g ∈ out, Within b g)
    (hcovers : ∀ a, Covers out a → Covers cover a) : out.length ≤ cover.length := by
  have hunique := eq_of_mem hdisjoint
  have hpick : ∀ g ∈ out, ∃ b ∈ cover, g.start ∈ b := fun g hg =>
    hcovers g.start ⟨g, hg, le_rfl, hne g hg⟩
  choose! pick hmem hstart using hpick
  have hinj : ∀ x ∈ out, ∀ y ∈ out, pick x = pick y → x = y := by
    intro x hx y hy heq
    obtain ⟨g, hg, hwithin⟩ := hmaximal (pick x) (hmem x hx)
    have hxg : x = g := hunique x hx g hg x.start ⟨le_rfl, hne x hx⟩ (hwithin _ (hstart x hx))
    have hyg : y = g :=
      hunique y hy g hg y.start ⟨le_rfl, hne y hy⟩ (hwithin _ (heq ▸ hstart y hy))
    exact hxg.trans hyg.symm
  have hnodup : out.Nodup := by
    refine hdisjoint.imp_of_mem ?_
    rintro x y hx - hlt rfl
    exact absurd hlt (Nat.not_lt_of_le (hne x hx))
  have hsub : out.map pick ⊆ cover := by
    intro b hb
    obtain ⟨g, hg, rfl⟩ := List.mem_map.mp hb
    exact hmem g hg
  calc out.length = (out.map pick).length := (List.length_map _).symm
    _ ≤ cover.length := ((hnodup.map_on hinj).subperm hsub).length_le

end Intervals
