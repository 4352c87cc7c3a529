/-
Counters of slots that tasks take and give back.

A task owes a counter what it has added to it and not yet subtracted, and it
holds a slot of the counter from the moment its addition was granted.

* `Accounted`: every counter shows what the tasks owe;
* `Accounted.append`, `Accounted.set`: a task comes, or makes a step;
* `Accounted.eq_zero`: **a counter that nobody owes is zero**;
* `holders_set_le`: **a grant that looks at the counter bounds the holders**;
* `owed`: what the tasks owe together, where each owes an amount; `owed_set`.
-/
import Mathlib.Algebra.BigOperators.Group.List.Basic
import Mathlib.Algebra.GroupWithZero.Nat
import Mathlib.Data.List.Count
import Mathlib.Logic.Function.Basic
import Mathlib.Algebra.Order.Group.Int

namespace SlotAccounts

variable {T κ : Type*} {owes holds : T → κ → Bool} {count count' : κ → ℤ} {tasks : List T}

/-- Every counter shows what the tasks owe. -/
def Accounted (owes : T → κ → Bool) (count : κ → ℤ) (tasks : List T) : Prop :=
  ∀ k, count k = tasks.countP fun t => owes t k

/-- What one task owes. -/
def debt (owes : T → κ → Bool) (t : T) (k : κ) : ℤ := if owes t k then 1 else 0

lemma accounted_nil : Accounted owes (fun _ => 0) [] := fun _ => rfl

/-- A task that owes nothing comes. -/
lemma Accounted.append (h : Accounted owes count tasks) {t : T} (ht : ∀ k, owes t k = false) :
    Accounted owes count (tasks ++ [t]) := fun k => by
  rw [h k, List.countP_append, List.countP_cons_of_neg (by simp [ht k]), List.countP_nil,
    Nat.add_zero]

/-- How many tasks do, after one of them made a step. -/
lemma countP_set_cast {P : T → Bool} {i : ℕ} (hi : i < tasks.length) (t' : T) :
    ((tasks.set i t').countP P : ℤ) =
      tasks.countP P - (if P tasks[i] then 1 else 0) + (if P t' then 1 else 0) := by
  have hle : (if P tasks[i] then 1 else 0) ≤ tasks.countP P := by
    split
    · rename_i hP
      exact List.countP_pos_iff.mpr ⟨_, List.getElem_mem hi, hP⟩
    · exact Nat.zero_le _
  rw [List.countP_set hi]
  split_ifs at hle ⊢ <;> omega

/-- A task makes a step, and the counters change by what it then owes more. -/
lemma Accounted.set (h : Accounted owes count tasks) {i : ℕ} (hi : i < tasks.length) {t' : T}
    (hstep : ∀ k, count' k = count k + debt owes t' k - debt owes tasks[i] k) :
    Accounted owes count' (tasks.set i t') := fun k => by
  rw [countP_set_cast hi, hstep k, h k, debt, debt]
  omega

/-- **A counter that nobody owes is zero.** -/
lemma Accounted.eq_zero (h : Accounted owes count tasks)
    (hnone : ∀ t ∈ tasks, ∀ k, owes t k = false) (k : κ) : count k = 0 := by
  rw [h k, List.countP_eq_zero.mpr fun t ht => by simp [hnone t ht k]]
  rfl

/-- The tasks that hold a slot owe it. -/
lemma Accounted.holders_le (h : Accounted owes count tasks)
    (howes : ∀ t k, holds t k = true → owes t k = true) (k : κ) :
    (tasks.countP (holds · k) : ℤ) ≤ count k := by
  rw [h k]
  exact_mod_cast List.countP_mono_left fun t _ => howes t k

/-- **Where a task gets a slot only while the counter is below the limit, no
more tasks than that hold one.** -/
lemma holders_set_le {limit : ℤ} {k : κ} (h : Accounted owes count tasks)
    (howes : ∀ t k, holds t k = true → owes t k = true)
    (hbound : (tasks.countP (holds · k) : ℤ) ≤ limit) {i : ℕ} (hi : i < tasks.length) {t' : T}
    (hgrant : holds t' k = true → holds tasks[i] k = true ∨ count k + 1 ≤ limit) :
    ((tasks.set i t').countP (holds · k) : ℤ) ≤ limit := by
  rw [countP_set_cast hi]
  cases hnew : holds t' k with
  | false => split <;> simp <;> omega
  | true =>
      cases hgrant hnew with
      | inl hheld =>
          rw [if_pos hheld, if_pos rfl]
          omega
      | inr hroom =>
          have hle := h.holders_le howes k
          split <;> simp <;> omega

/-! ### Amounts -/

section Amounts

variable {amount : T → ℕ}

/-- What all tasks owe together. -/
def owed (amount : T → ℕ) (tasks : List T) : ℕ := (tasks.map amount).sum

@[simp] lemma owed_nil : owed amount [] = 0 := rfl

@[simp] lemma owed_append (l l' : List T) :
    owed amount (l ++ l') = owed amount l + owed amount l' := by
  simp [owed]

/-- A task makes a step. -/
lemma owed_set {i : ℕ} (hi : i < tasks.length) (t' : T) :
    owed amount (tasks.set i t') + amount tasks[i] = owed amount tasks + amount t' := by
  induction tasks generalizing i with
  | nil => cases hi
  | cons t tasks ih =>
      cases i with
      | zero =>
          simp only [owed, List.set_cons_zero, List.map_cons, List.sum_cons, List.getElem_cons_zero]
          omega
      | succ i =>
          have hrest := ih (Nat.lt_of_succ_lt_succ hi)
          simp only [owed, List.set_cons_succ, List.map_cons, List.sum_cons,
            List.getElem_cons_succ] at hrest ⊢
          omega

end Amounts

end SlotAccounts
