/-
Reordering the inputs of a fold by exchanges that commute where they happen.

Two inputs of a fold may commute in some states only.  `Reorder` relates two
input lists that differ by adjacent exchanges, each of them allowed in the
state it happens in; by `Reorder.foldl_eq` **the folds agree** when every
allowed exchange commutes.
-/
import Mathlib.Tactic.Common

namespace StepSystem

variable {S A : Type*}

/-- The list `bs` is `as` with adjacent inputs exchanged, where `C` allows an
exchange in the state before the two. -/
inductive Reorder (f : S → A → S) (C : S → A → A → Prop) : S → List A → List A → Prop
  | refl (s : S) (as : List A) : Reorder f C s as as
  | cons {s : S} (a : A) {as bs : List A} :
      Reorder f C (f s a) as bs → Reorder f C s (a :: as) (a :: bs)
  | swap {s : S} {a b : A} (as : List A) :
      C s a b → Reorder f C s (a :: b :: as) (b :: a :: as)
  | trans {s : S} {as bs cs : List A} :
      Reorder f C s as bs → Reorder f C s bs cs → Reorder f C s as cs

variable {f : S → A → S} {C : S → A → A → Prop}

/-- **Allowed exchanges that commute do not change the fold.** -/
theorem Reorder.foldl_eq (hC : ∀ s a b, C s a b → f (f s a) b = f (f s b) a) {s : S}
    {as bs : List A} (h : Reorder f C s as bs) : as.foldl f s = bs.foldl f s := by
  induction h with
  | refl _ _ => rfl
  | cons a _ ih => exact ih
  | swap as hab =>
      rw [List.foldl_cons, List.foldl_cons, List.foldl_cons, List.foldl_cons, hC _ _ _ hab]
  | trans _ _ ih ih' => exact ih.trans ih'

end StepSystem
