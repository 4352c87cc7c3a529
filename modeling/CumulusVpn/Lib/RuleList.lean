/-
Ordered lists of filter rules.

A rule that matches gives its verdict; a final rule also ends the evaluation,
and otherwise the last verdict stands.

* `Language`: when a rule matches, its verdict, and whether it is final;
* `evaluate`: the verdict of a list, from the verdict that stands before it;
* `Uniform`: final rules of one verdict, and `Uniform.append`;
* `evaluate_uniform`: **a uniform block in front decides what one of its rules
  matches**, and nothing else.
-/
import Mathlib.Tactic.Common

namespace RuleList

/-- What the rules of type `R` say about the packets of type `P`. -/
structure Language (R P V : Type*) where
  holds : R → P → Bool
  verdict : R → V
  final : R → Bool

variable {R P V : Type*} {L : Language R P V}

namespace Language

/-- The verdict of a list of rules, when `v` stands before it. -/
def evaluate (L : Language R P V) (p : P) : List R → V → V
  | [], v => v
  | r :: rules, v =>
      if L.holds r p then
        if L.final r then L.verdict r else L.evaluate p rules (L.verdict r)
      else L.evaluate p rules v

/-- The rules are final and of one verdict. -/
def Uniform (L : Language R P V) (w : V) (block : List R) : Prop :=
  ∀ r ∈ block, L.final r = true ∧ L.verdict r = w

@[simp] lemma uniform_nil (w : V) : L.Uniform w [] := fun _ h => absurd h List.not_mem_nil

@[simp] lemma uniform_cons (w : V) (r : R) (block : List R) :
    L.Uniform w (r :: block) ↔ (L.final r = true ∧ L.verdict r = w) ∧ L.Uniform w block := by
  simp [Uniform]

lemma uniform_append {w : V} {block block' : List R} (h : L.Uniform w block)
    (h' : L.Uniform w block') : L.Uniform w (block ++ block') := by
  intro r hr
  rcases List.mem_append.mp hr with hr | hr
  · exact h r hr
  · exact h' r hr

lemma uniform_map {A : Type*} {w : V} {f : A → R}
    (h : ∀ a, L.final (f a) = true ∧ L.verdict (f a) = w)
    (as : List A) : L.Uniform w (as.map f) := by
  intro r hr
  obtain ⟨a, -, rfl⟩ := List.mem_map.mp hr
  exact h a

/-- **A uniform block decides what one of its rules matches.** -/
theorem evaluate_uniform {w : V} {block : List R} (h : L.Uniform w block) (p : P) (rules : List R)
    (v : V) : L.evaluate p (block ++ rules) v =
      if block.any fun r => L.holds r p then w else L.evaluate p rules v := by
  induction block with
  | nil => rfl
  | cons r block ih =>
      obtain ⟨⟨hfinal, hverdict⟩, hblock⟩ := (uniform_cons w r block).mp h
      rw [List.cons_append, evaluate, ih hblock, List.any_cons]
      -- a match ends the evaluation
      by_cases hr : L.holds r p = true
      · rw [if_pos hr, if_pos hfinal, hverdict, hr, Bool.true_or, if_pos rfl]
      · rw [if_neg hr, Bool.eq_false_iff.mpr hr, Bool.false_or]

/-- The block at the end of a list. -/
lemma evaluate_uniform_last {w : V} {block : List R} (h : L.Uniform w block) (p : P) (v : V) :
    L.evaluate p block v = if block.any fun r => L.holds r p then w else v := by
  have hend := evaluate_uniform h p [] v
  rwa [List.append_nil] at hend

end Language

end RuleList
