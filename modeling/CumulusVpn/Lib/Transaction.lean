/-
Transactions: computations on a state that may throw, and whose effects are
undone when they do.

* `Tx`: a computation on a state `σ` with failures `ε`;
* `statement`: a statement that may be chosen to fail;
* `run`: commits, or rolls back;
* `run_error`, `run_ok`, `run_keeps`: a failed run leaves the state alone, and
  an invariant of the successful runs is one of all.
-/
import Mathlib.Tactic.Common

namespace Transaction

universe u

variable {σ ε α β : Type u}

lemma bind_eq_ok {x : Except ε α} {f : α → Except ε β} {b : β} (h : (x >>= f) = .ok b) :
    ∃ a, x = .ok a ∧ f a = .ok b := by
  cases x with
  | error e => cases h
  | ok a => exact ⟨a, rfl, h⟩

lemma bind_eq_ok_iff {x : Except ε α} {f : α → Except ε β} {b : β} :
    (x >>= f) = .ok b ↔ ∃ a, x = .ok a ∧ f a = .ok b := by
  refine ⟨bind_eq_ok, ?_⟩
  rintro ⟨a, rfl, hf⟩
  exact hf

/-- A statement of a transaction: it reads and writes the state, or fails. -/
abbrev Tx (σ ε α : Type u) := σ → Except ε (α × σ)

/-- Statement `n` of a transaction whose statement `fault` fails with
`failure`. -/
def statement (failure : ε) (fault : Option Nat) (n : Nat) (stmt : Tx σ ε α) : Tx σ ε α := fun s =>
  if fault = some n then .error failure else stmt s

lemma of_statement {failure : ε} {fault : Option Nat} {n : Nat} {stmt : Tx σ ε α} {s : σ}
    {r : α × σ} (h : statement failure fault n stmt s = .ok r) : stmt s = .ok r := by
  rw [statement] at h
  split at h
  · cases h
  · exact h

/-- Commits the transaction, or rolls back what it did. -/
def run (tx : Tx σ ε α) (s : σ) : Except ε α × σ :=
  match tx s with
  | .ok (a, s') => (.ok a, s')
  | .error e => (.error e, s)

variable {tx : Tx σ ε α} {s s' : σ}

lemma run_ok {a : α} (h : run tx s = (.ok a, s')) : tx s = .ok (a, s') := by
  rw [run] at h
  split at h
  · rename_i heq
    cases h
    exact heq
  · cases h

/-- **A failed transaction leaves the state as it was.** -/
lemma run_error {e : ε} (h : run tx s = (.error e, s')) : s' = s := by
  rw [run] at h
  split at h
  · cases h
  · cases h
    rfl

/-- What the state has and the successful runs keep. -/
lemma run_keeps {I : σ → Prop} (hs : I s) (h : ∀ a s', tx s = .ok (a, s') → I s') :
    I (run tx s).2 := by
  rw [run]
  split
  · rename_i a s' heq
    exact h a s' heq
  · exact hs

end Transaction
