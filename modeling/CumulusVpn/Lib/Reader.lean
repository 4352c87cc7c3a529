/-
Readers that take a value off the front of a text, over any alphabet.

* `Reader`, `Reader.whole`: a reader, and what it makes of a whole text;
* `Over`: a reader takes nothing but characters of one kind; `over_bind`,
  `over_orElse`: readers compose; `Over.imp`: a wider kind;
* `Over.whole`: **a text that is read to its end has no other characters**;
* `bind_of_eq_some`, `bind_of_eq_none`, `orElse_of_eq_some`, `orElse_of_eq_none`,
  `whole_of_eq_some`: how a reader goes on.
-/
import Mathlib.Data.List.Basic

namespace TextReader

/-- A reader; a failed one leaves the text to the next. -/
abbrev Reader (α β : Type) : Type := StateT (List α) Option β

variable {α β γ : Type} {P : α → Prop}

namespace Reader

/-- The text is read to its end. -/
def whole (r : Reader α β) (s : List α) : Option β :=
  (r s).bind fun p => if p.2.isEmpty then some p.1 else none

/-- One character. -/
def char [DecidableEq α] (c : α) : Reader α Unit := fun s =>
  match s with
  | [] => none
  | d :: s => if d = c then some ((), s) else none

end Reader

/-- The reader takes nothing but characters with `P`. -/
def Over (P : α → Prop) (r : Reader α β) : Prop :=
  ∀ s v rest, r s = some (v, rest) → ∃ used, s = used ++ rest ∧ ∀ c ∈ used, P c

section Over

variable {r r' : Reader α β} {f : β → Reader α γ}

lemma over_pure (v : β) : Over P (pure v : Reader α β) := by
  intro s w rest h
  obtain ⟨-, rfl⟩ := Prod.mk.inj (Option.some_inj.mp h)
  exact ⟨[], rfl, by simp⟩

lemma over_failure : Over P (failure : Reader α β) := by
  intro s v rest h
  cases h

/-- The character is in front of what is left. -/
lemma eq_of_char [DecidableEq α] {c : α} {s rest : List α} {v : Unit}
    (h : Reader.char c s = some (v, rest)) : s = c :: rest := by
  cases s with
  | nil => cases h
  | cons d s =>
      rw [Reader.char] at h
      split at h
      · rename_i hd
        obtain ⟨-, rfl⟩ := Prod.mk.inj (Option.some_inj.mp h)
        rw [hd]
      · cases h

lemma over_char [DecidableEq α] {c : α} (hc : P c) : Over P (Reader.char c) := by
  intro s v rest h
  exact ⟨[c], eq_of_char h, List.forall_mem_singleton.mpr hc⟩

/-- A reader that takes characters of a narrower kind. -/
lemma Over.imp {Q : α → Prop} (hr : Over P r) (h : ∀ c, P c → Q c) : Over Q r := by
  intro s v rest hread
  obtain ⟨used, hs, hused⟩ := hr s v rest hread
  exact ⟨used, hs, fun c hc => h c (hused c hc)⟩

/-- One reader after another. -/
lemma over_bind (hr : Over P r) (hf : ∀ v, Over P (f v)) : Over P (r >>= f) := by
  intro s w rest h
  obtain ⟨⟨v, mid⟩, hfirst, hthen⟩ := Option.bind_eq_some_iff.mp h
  obtain ⟨used, rfl, hused⟩ := hr s v mid hfirst
  obtain ⟨used', rfl, hused'⟩ := hf v mid w rest hthen
  refine ⟨used ++ used', (List.append_assoc _ _ _).symm, fun c hc => ?_⟩
  exact (List.mem_append.mp hc).elim (hused c) (hused' c)

/-- One reader, or else another. -/
lemma over_orElse (hr : Over P r) (hr' : Over P r') : Over P (r <|> r') := by
  intro s v rest h
  have heq : (r <|> r') s = (r s <|> r' s) := rfl
  rw [heq] at h
  cases hfirst : r s with
  | some p =>
      rw [hfirst] at h
      exact hr s v rest (hfirst.trans h)
  | none =>
      rw [hfirst] at h
      exact hr' s v rest h

/-- **A text that is read to its end has no other characters.** -/
lemma Over.whole (hr : Over P r) {s : List α} {v : β} (h : r.whole s = some v) :
    ∀ c ∈ s, P c := by
  obtain ⟨⟨w, rest⟩, hread, hend⟩ := Option.bind_eq_some_iff.mp h
  obtain ⟨used, rfl, hused⟩ := hr s w rest hread
  split at hend
  · rename_i hempty
    obtain rfl : rest = [] := List.isEmpty_iff.mp hempty
    rw [List.append_nil]
    exact hused
  · cases hend

end Over

section Run

variable {r r' : Reader α β} {f : β → Reader α γ} {s rest : List α} {v : β}

lemma bind_of_eq_some (h : r s = some (v, rest)) : (r >>= f) s = f v rest := by
  show (r s).bind _ = _
  rw [h]
  rfl

lemma bind_of_eq_none (h : r s = none) : (r >>= f) s = none := by
  show (r s).bind _ = _
  rw [h]
  rfl

lemma orElse_of_eq_none (h : r s = none) : (r <|> r') s = r' s := by
  show (r s <|> r' s) = r' s
  rw [h]
  rfl

lemma orElse_of_eq_some (h : r s = some (v, rest)) : (r <|> r') s = some (v, rest) := by
  show (r s <|> r' s) = some (v, rest)
  rw [h]
  rfl

lemma whole_of_eq_some (h : r s = some (v, [])) : r.whole s = some v := by
  rw [Reader.whole, h]
  rfl

lemma char_cons [DecidableEq α] (c : α) (s : List α) : Reader.char c (c :: s) = some ((), s) :=
  if_pos rfl

lemma char_eq_none [DecidableEq α] {c : α} (h : c ∉ s.head?) : Reader.char c s = none := by
  cases s with
  | nil => rfl
  | cons d s => exact if_neg fun heq => h (by simp [heq])

end Run

end TextReader
