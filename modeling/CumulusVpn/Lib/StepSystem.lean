/-
Guarded runs of a partial step function.

A component that reacts to inputs is a function `step : S → A → Option S`:
`none` means that the input is not possible in that state.  Over it:

* `exec`: the state after a list of inputs, when all of them are possible;
* `Along`: a guard holds at every step of a run;
* `exec_append`, `along_append`: runs and guards compose;
* `exec_invariant`: **the invariant rule**: what holds at the start and is
  preserved by every guarded step holds at the end of every guarded run;
* `exec_history`: the same for what the inputs so far tell;
* `Along.strengthen`: a guard implies a stronger one along the run where an
  invariant helps it;
* `count`, `count_add_le`: **the measure rule**: a run makes no more steps of
  one kind than a measure allows that they decrease; `exec_countP_add_le` is the
  rule for steps that are told by their inputs;
* `total`, `foldl_invariant`: the steps that are always possible, whose runs
  are folds;
* `Reachable`, `Reachable.induction`: the unguarded form over all runs.
-/
import Mathlib.Tactic.Common

namespace StepSystem

variable {S A : Type*} {step : S → A → Option S}

/-! ### Runs -/

/-- The state after the inputs `as`, when every one of them is possible. -/
def exec (step : S → A → Option S) : S → List A → Option S
  | s, [] => some s
  | s, a :: as => (step s a).bind fun s' => exec step s' as

@[simp] lemma exec_nil (s : S) : exec step s [] = some s := rfl

lemma exec_cons (s : S) (a : A) (as : List A) :
    exec step s (a :: as) = (step s a).bind fun s' => exec step s' as := rfl

/-- The first input of a run is possible and the rest runs on from there. -/
lemma exec_cons_eq_some {s t : S} {a : A} {as : List A} :
    exec step s (a :: as) = some t ↔ ∃ s', step s a = some s' ∧ exec step s' as = some t := by
  rw [exec_cons, Option.bind_eq_some_iff]

/-- A run of two lists is the run of the second after the first. -/
lemma exec_append (s : S) (as bs : List A) :
    exec step s (as ++ bs) = (exec step s as).bind fun s' => exec step s' bs := by
  induction as generalizing s with
  | nil => rfl
  | cons a as ih =>
      rw [List.cons_append, exec_cons, exec_cons, Option.bind_assoc]
      exact congrArg _ (funext ih)

/-! ### Guards along a run -/

/-- The guard `G` holds at every step that the run from `s` takes. -/
def Along (step : S → A → Option S) (G : S → A → Prop) : S → List A → Prop
  | _, [] => True
  | s, a :: as => G s a ∧ (match step s a with
      | none => True
      | some s' => Along step G s' as)

instance decidableAlong {G : S → A → Prop} [∀ s a, Decidable (G s a)] :
    ∀ (s : S) (as : List A), Decidable (Along step G s as)
  | _, [] => inferInstanceAs (Decidable True)
  | s, a :: as =>
      have : Decidable (match step s a with
          | none => True
          | some s' => Along step G s' as) := by
        cases step s a with
        | none => exact inferInstanceAs (Decidable True)
        | some s' => exact decidableAlong s' as
      inferInstanceAs (Decidable (_ ∧ _))

/-- A guard that always holds holds along every run. -/
lemma along_of_forall {G : S → A → Prop} (hG : ∀ s a, G s a) (s : S) (as : List A) :
    Along step G s as := by
  induction as generalizing s with
  | nil => trivial
  | cons a as ih =>
      refine ⟨hG s a, ?_⟩
      cases step s a with
      | none => trivial
      | some s' => exact ih s'

/-- A weaker guard holds along the same runs. -/
lemma Along.imp {G H : S → A → Prop} (hGH : ∀ s a, G s a → H s a) {s : S} {as : List A}
    (h : Along step G s as) : Along step H s as := by
  induction as generalizing s with
  | nil => trivial
  | cons a as ih =>
      refine ⟨hGH s a h.1, ?_⟩
      have hrest := h.2
      cases hstep : step s a with
      | none => trivial
      | some s' =>
          rw [hstep] at hrest
          exact ih hrest

/-- Two guards at once. -/
lemma along_and {G H : S → A → Prop} {s : S} {as : List A} (hG : Along step G s as)
    (hH : Along step H s as) : Along step (fun s a => G s a ∧ H s a) s as := by
  induction as generalizing s with
  | nil => trivial
  | cons a as ih =>
      refine ⟨⟨hG.1, hH.1⟩, ?_⟩
      have hrestG := hG.2
      have hrestH := hH.2
      cases hstep : step s a with
      | none => trivial
      | some s' =>
          rw [hstep] at hrestG hrestH
          exact ih hrestG hrestH

/-- The guard along a run of two lists. -/
lemma along_append {G : S → A → Prop} {s t : S} {as bs : List A} (h : exec step s as = some t) :
    Along step G s (as ++ bs) ↔ Along step G s as ∧ Along step G t bs := by
  induction as generalizing s with
  | nil =>
      obtain rfl : s = t := by simpa using h
      exact (iff_of_eq (true_and _)).symm
  | cons a as ih =>
      obtain ⟨s', ha, has⟩ := exec_cons_eq_some.mp h
      rw [List.cons_append, Along, Along, ha, and_assoc]
      exact and_congr_right fun _ => ih has

/-- A guard on the inputs alone. -/
lemma along_of_mem {P : A → Prop} {as : List A} (h : ∀ a ∈ as, P a) (s : S) :
    Along step (fun _ a => P a) s as := by
  induction as generalizing s with
  | nil => trivial
  | cons a as ih =>
      refine ⟨h a List.mem_cons_self, ?_⟩
      cases step s a with
      | none => trivial
      | some s' => exact ih (fun x hx => h x (List.mem_cons_of_mem _ hx)) s'

/-- **The invariant rule**: an invariant of the guarded steps that holds at
the start of a guarded run holds at its end. -/
theorem exec_invariant {G : S → A → Prop} {I : S → Prop}
    (hstep : ∀ s a s', I s → G s a → step s a = some s' → I s')
    {s t : S} {as : List A} (hs : I s) (hG : Along step G s as)
    (h : exec step s as = some t) : I t := by
  induction as generalizing s with
  | nil =>
      obtain rfl : s = t := by simpa using h
      exact hs
  | cons a as ih =>
      obtain ⟨s', ha, has⟩ := exec_cons_eq_some.mp h
      have hrest : Along step G s' as := by
        have := hG.2
        rwa [ha] at this
      exact ih (hstep s a s' hs hG.1 ha) hrest has

/-- The invariant rule for invariants that look at the inputs so far, newest
first. -/
theorem exec_history {I : List A → S → Prop}
    (hstep : ∀ past s a s', I past s → step s a = some s' → I (a :: past) s')
    {s t : S} {past as : List A} (hs : I past s) (h : exec step s as = some t) :
    I (as.reverse ++ past) t := by
  induction as generalizing s past with
  | nil =>
      obtain rfl : s = t := by simpa using h
      exact hs
  | cons a as ih =>
      obtain ⟨s', ha, has⟩ := exec_cons_eq_some.mp h
      have hrest := ih (hstep past s a s' hs ha) has
      rwa [List.reverse_cons, List.append_assoc]

/-- A guard implies another one in the states of a guarded run, which meet
the invariant. -/
theorem Along.strengthen {G H : S → A → Prop} {I : S → Prop}
    (hstep : ∀ s a s', I s → G s a → step s a = some s' → I s')
    (hH : ∀ s a, I s → G s a → H s a) {s : S} {as : List A} (hs : I s)
    (hG : Along step G s as) : Along step H s as := by
  induction as generalizing s with
  | nil => trivial
  | cons a as ih =>
      refine ⟨hH s a hs hG.1, ?_⟩
      have hrest := hG.2
      cases ha : step s a with
      | none => trivial
      | some s' =>
          rw [ha] at hrest
          exact ih (hstep s a s' hs hG.1 ha) hrest

/-- How many steps of a run are of one kind, which may depend on the state in
which a step is made. -/
def count (step : S → A → Option S) (own : S → A → Bool) : S → List A → ℕ
  | _, [] => 0
  | s, a :: as => (own s a).toNat + (match step s a with
      | none => 0
      | some s' => count step own s' as)

/-- Of a run that is possible, the inputs of one kind. -/
lemma count_eq_countP {own : A → Bool} {s t : S} {as : List A} (h : exec step s as = some t) :
    count step (fun _ a => own a) s as = as.countP own := by
  induction as generalizing s with
  | nil => rfl
  | cons a as ih =>
      obtain ⟨s', ha, has⟩ := exec_cons_eq_some.mp h
      have hrest := ih has
      cases hmine : own a with
      | true => simp only [count, ha, hrest, hmine, List.countP_cons, Bool.toNat_true]; simp; omega
      | false => simp [count, ha, hrest, hmine]

/-- **A bound on some of the steps of a guarded run**: where they decrease a
measure that the other steps do not increase. -/
theorem count_add_le {G : S → A → Prop} {I : S → Prop} {own : S → A → Bool} {left : S → ℕ}
    (hI : ∀ s a s', I s → G s a → step s a = some s' → I s')
    (hleft : ∀ s a s', I s → G s a → step s a = some s' → left s' + (own s a).toNat ≤ left s)
    {s t : S} {as : List A} (hs : I s) (hG : Along step G s as) (h : exec step s as = some t) :
    count step own s as + left t ≤ left s := by
  induction as generalizing s with
  | nil =>
      obtain rfl : s = t := by simpa using h
      simp [count]
  | cons a as ih =>
      obtain ⟨s', ha, has⟩ := exec_cons_eq_some.mp h
      have hguard : Along step G s' as := by
        have := hG.2
        rwa [ha] at this
      have hrest := ih (hI s a s' hs hG.1 ha) hguard has
      have hone := hleft s a s' hs hG.1 ha
      simp only [count, ha]
      omega

/-- The measure rule for steps that are told by their inputs. -/
theorem exec_countP_add_le {I : S → Prop} {own : A → Bool} {left : S → ℕ}
    (hI : ∀ s a s', I s → step s a = some s' → I s')
    (hown : ∀ s a s', I s → own a = true → step s a = some s' → left s' + 1 ≤ left s)
    (hother : ∀ s a s', I s → own a = false → step s a = some s' → left s' ≤ left s)
    {s t : S} {as : List A} (hs : I s) (h : exec step s as = some t) :
    as.countP own + left t ≤ left s := by
  have hone : ∀ s a s', I s → True → step s a = some s' → left s' + (own a).toNat ≤ left s := by
    intro s a s' hI' _ ha
    cases hmine : own a with
    | true => exact hown s a s' hI' hmine ha
    | false => exact hother s a s' hI' hmine ha
  rw [← count_eq_countP h]
  exact count_add_le (G := fun _ _ => True) (fun s a s' hI' _ ha => hI s a s' hI' ha) hone hs
    (along_of_forall (fun _ _ => trivial) _ _) h

/-! ### Steps that are always possible -/

/-- A function that is defined everywhere, as a step. -/
def total (f : S → A → S) : S → A → Option S := fun s a => some (f s a)

section Total

variable {f : S → A → S} {G : S → A → Prop}

/-- The run of a total step is a fold. -/
lemma exec_total (s : S) (as : List A) : exec (total f) s as = some (as.foldl f s) := by
  induction as generalizing s with
  | nil => rfl
  | cons a as ih => exact ih (f s a)

@[simp] lemma along_total_nil (s : S) : Along (total f) G s [] := trivial

@[simp] lemma along_total_cons {s : S} {a : A} {as : List A} :
    Along (total f) G s (a :: as) ↔ G s a ∧ Along (total f) G (f s a) as := Iff.rfl

@[simp] lemma along_total_append {s : S} {as bs : List A} :
    Along (total f) G s (as ++ bs) ↔
      Along (total f) G s as ∧ Along (total f) G (as.foldl f s) bs := by
  induction as generalizing s with
  | nil => simp
  | cons a as ih => simp [ih, and_assoc]

/-- The invariant rule for a fold. -/
lemma foldl_invariant {I : S → Prop} (hstep : ∀ s a, I s → G s a → I (f s a)) {s : S}
    {as : List A} (hs : I s) (hG : Along (total f) G s as) : I (as.foldl f s) := by
  have hone : ∀ s a s', I s → G s a → total f s a = some s' → I s' := by
    intro s a s' hI hGa ha
    cases ha
    exact hstep s a hI hGa
  exact exec_invariant hone hs hG (exec_total s as)

end Total

/-! ### Reachable states -/

/-- The states that some run from `init` ends in. -/
def Reachable (step : S → A → Option S) (init t : S) : Prop :=
  ∃ as, exec step init as = some t

/-- A run goes on from a reachable state. -/
lemma Reachable.exec {init s t : S} (h : Reachable step init s) {as : List A}
    (hrun : exec step s as = some t) : Reachable step init t := by
  obtain ⟨bs, hbs⟩ := h
  exact ⟨bs ++ as, by rw [exec_append, hbs, Option.bind_some, hrun]⟩

/-- An invariant of all steps holds in every reachable state. -/
theorem Reachable.induction {I : S → Prop} {init t : S} (h : Reachable step init t)
    (hinit : I init) (hstep : ∀ s a s', I s → step s a = some s' → I s') : I t := by
  obtain ⟨as, has⟩ := h
  exact exec_invariant (G := fun _ _ => True) (fun s a s' hs _ ha => hstep s a s' hs ha)
    hinit (along_of_forall (fun _ _ => trivial) _ _) has

end StepSystem
