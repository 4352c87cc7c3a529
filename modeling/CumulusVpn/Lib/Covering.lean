/-
Covering a need with as few elements as possible.

* `weight_le_take`: no sublist of a descending list outweighs the first
  elements that are as many;
* `Shortest`: a prefix that covers a need, while no shorter one does;
* `Shortest.length_le`: **no covering choice is smaller than the shortest
  covering prefix of a descending list**.
-/
import Mathlib.Algebra.Order.BigOperators.Group.List
import Mathlib.Data.List.Perm.Subperm

namespace Covering

variable {α M : Type*} [AddCommMonoid M] (f : α → M)

/-- The total weight of a list. -/
def weight (l : List α) : M := (l.map f).sum

variable {f}

@[simp] lemma weight_nil : weight f [] = 0 := rfl

@[simp] lemma weight_cons (a : α) (l : List α) : weight f (a :: l) = f a + weight f l :=
  List.sum_cons

@[simp] lemma weight_append (l l' : List α) : weight f (l ++ l') = weight f l + weight f l' := by
  rw [weight, List.map_append, List.sum_append]
  rfl

lemma weight_perm {l l' : List α} (h : l.Perm l') : weight f l = weight f l' :=
  (h.map f).sum_eq

variable [LinearOrder M]

/-- A prefix of `l` that covers `need`, while no shorter one does. -/
structure Shortest (f : α → M) (need : M) (l xs : List α) : Prop where
  isPrefix : xs <+: l
  covers : need ≤ weight f xs
  least : ∀ ys, ys <+: l → ys.length < xs.length → weight f ys < need

variable [IsOrderedAddMonoid M]

/-- A heavier element in front makes the first elements heavier. -/
lemma weight_take_le_cons {a : α} {l : List α} (h : ∀ b ∈ l, f b ≤ f a) (n : ℕ)
    (hn : n ≤ l.length) : weight f (l.take n) ≤ weight f ((a :: l).take n) := by
  cases n with
  | zero => exact le_rfl
  | succ n =>
      have hlast : l.take (n + 1) = l.take n ++ [l[n]] := (List.take_append_getElem hn).symm
      calc weight f (l.take (n + 1))
          = weight f (l.take n) + f l[n] := by
            rw [hlast, weight_append, weight_cons, weight_nil, add_zero]
        _ ≤ weight f (l.take n) + f a := by
            have hle := h l[n] (List.getElem_mem hn)
            gcongr
        _ = weight f ((a :: l).take (n + 1)) := by
            rw [List.take_succ_cons, weight_cons, add_comm]

/-- **The first elements of a descending list are the heaviest of their
number.** -/
theorem weight_le_take {l xs : List α} (hl : l.Pairwise fun a b => f b ≤ f a)
    (hxs : xs.Sublist l) : weight f xs ≤ weight f (l.take xs.length) := by
  induction hxs with
  | slnil => exact le_rfl
  | @cons xs l a hxs ih =>
      obtain ⟨hhead, htail⟩ := List.pairwise_cons.mp hl
      exact (ih htail).trans (weight_take_le_cons hhead _ hxs.length_le)
  | @cons_cons xs l a hxs ih =>
      rw [List.length_cons, List.take_succ_cons, weight_cons, weight_cons]
      have hrest := ih (List.pairwise_cons.mp hl).2
      gcongr

/-- **No covering choice is smaller than the shortest covering prefix.** -/
theorem Shortest.length_le {need : M} {l xs ys : List α} (h : Shortest f need l xs)
    (hl : l.Pairwise fun a b => f b ≤ f a) (hys : ys.Subperm l) (hcovers : need ≤ weight f ys) :
    xs.length ≤ ys.length := by
  by_contra hlt
  rw [not_le] at hlt
  obtain ⟨zs, hperm, hzs⟩ := hys
  have hlength : (l.take ys.length).length < xs.length := by
    rw [List.length_take]
    omega
  have hlt := h.least _ (List.take_prefix ys.length l) hlength
  have hle := weight_le_take hl hzs
  rw [weight_perm hperm, hperm.length_eq] at hle
  exact absurd (hcovers.trans hle) (not_le_of_gt hlt)

end Covering
