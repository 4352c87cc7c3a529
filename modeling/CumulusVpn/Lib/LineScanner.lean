/-
A scanner of lines that takes no line from some length on, over a source that
ends or fails.

* `tokens`, `scan`: the lines without their ends, and whether an error ends
  them; what is left before an error is a line too;
* `scan_lines`: **short lines are scanned as they were written**;
* `scan_eq_iff`: when an error ends them before the first one.
-/
import Mathlib.Data.List.TakeWhile

namespace LineScanner

/-- The line without a carriage return at its end. -/
def dropCR (line : List UInt8) : List UInt8 :=
  if line.getLast? = some 13 then line.dropLast else line

section Scan

variable (limit : Nat) (failing : Bool)

/-- The lines of the parts between the line feeds. -/
def tokens : List (List UInt8) → List (List UInt8) × Bool
  | [] => ([], failing)
  | [last] =>
      if limit ≤ last.length then ([], true)
      else if last = [] then ([], failing)
      else ([dropCR last], failing)
  | line :: part :: parts =>
      if limit ≤ line.length then ([], true)
      else (dropCR line :: (tokens (part :: parts)).1, (tokens (part :: parts)).2)

/-- The lines of a source that fails behind its bytes, or ends there. -/
def scan (bytes : List UInt8) : List (List UInt8) × Bool :=
  tokens limit failing (bytes.splitOn 10)

end Scan

variable {limit : Nat} {failing : Bool}

/-- A line that does not end in a carriage return, and is short. -/
structure IsLine (limit : Nat) (line : List UInt8) : Prop where
  feed : 10 ∉ line
  short : line.length < limit
  last : line.getLast? ≠ some 13

lemma tokens_lines (hlimit : 0 < limit) {lines : List (List UInt8)}
    (h : ∀ line ∈ lines, IsLine limit line) :
    tokens limit failing (lines ++ [[]]) = (lines, failing) := by
  induction lines with
  | nil =>
      have hshort : ¬ limit ≤ ([] : List UInt8).length := Nat.not_le.mpr hlimit
      rw [List.nil_append, tokens, if_neg hshort, if_pos rfl]
  | cons line lines ih =>
      obtain ⟨hline, hlines⟩ := List.forall_mem_cons.mp h
      obtain ⟨part, parts, hparts⟩ := List.exists_cons_of_ne_nil
        (List.append_ne_nil_of_right_ne_nil lines (List.cons_ne_nil [] []))
      have hrest := ih hlines
      rw [hparts] at hrest
      have hdrop : dropCR line = line := if_neg hline.last
      rw [List.cons_append, hparts, tokens, if_neg (Nat.not_le.mpr hline.short), hrest, hdrop]

/-- Lines that end with a separator are the parts between the separators. -/
lemma splitOn_lines {α : Type*} [BEq α] [LawfulBEq α] {sep : α} {lines : List (List α)}
    (h : ∀ line ∈ lines, sep ∉ line) :
    (lines.flatMap (· ++ [sep])).splitOn sep = lines ++ [[]] := by
  have hjoin : ∀ lines : List (List α),
      lines.flatMap (· ++ [sep]) = List.intercalate [sep] (lines ++ [[]]) := by
    intro lines
    induction lines with
    | nil => rfl
    | cons line lines ih =>
        rw [List.flatMap_cons, ih, List.cons_append, List.intercalate_cons_of_ne_nil
          (List.append_ne_nil_of_right_ne_nil lines (List.cons_ne_nil [] []))]
  rw [hjoin, List.splitOn_intercalate sep _ (by simp)]
  intro line hline
  rcases List.mem_append.mp hline with hline | hline
  · exact h line hline
  · rw [List.mem_singleton.mp hline]
    exact List.not_mem_nil

/-- **Short lines are scanned as they were written.** -/
theorem scan_lines (hlimit : 0 < limit) {lines : List (List UInt8)}
    (h : ∀ line ∈ lines, IsLine limit line) :
    scan limit failing (lines.flatMap (· ++ [10])) = (lines, failing) := by
  rw [scan, splitOn_lines fun line hline => (h line hline).feed, tokens_lines hlimit h]

lemma exists_splitOn_eq (bytes : List UInt8) :
    ∃ parts, bytes.splitOn 10 = bytes.takeWhile (· ≠ 10) :: parts := by
  induction bytes with
  | nil => exact ⟨[], List.splitOn_nil 10⟩
  | cons b bytes ih =>
      obtain ⟨parts, hparts⟩ := ih
      rw [List.splitOn_cons_eq_if_modifyHead]
      by_cases hb : b = 10
      · rw [if_pos (beq_iff_eq.mpr hb), List.takeWhile_cons_of_neg (by simpa using hb)]
        exact ⟨bytes.splitOn 10, rfl⟩
      · rw [if_neg (by simpa using hb), List.takeWhile_cons_of_pos (by simpa using hb), hparts]
        exact ⟨parts, rfl⟩

/-- An error ends the lines before the first one: there is nothing in front of
it, or the first line is too long. -/
lemma scan_eq_iff {bytes : List UInt8} : scan limit failing bytes = ([], true) ↔
    (bytes = [] ∧ failing = true) ∨ limit ≤ (bytes.takeWhile (· ≠ 10)).length := by
  obtain ⟨parts, hparts⟩ := exists_splitOn_eq bytes
  have hjoin : List.intercalate [10] (bytes.takeWhile (· ≠ 10) :: parts) = bytes := by
    rw [← hparts, List.intercalate_splitOn]
  rw [scan, hparts]
  generalize bytes.takeWhile (· ≠ 10) = line at hjoin ⊢
  by_cases hlong : limit ≤ line.length
  · refine iff_of_true ?_ (Or.inr hlong)
    cases parts <;> rw [tokens, if_pos hlong]
  · rw [or_iff_left hlong]
    cases parts with
    | nil =>
        rw [List.intercalate_singleton] at hjoin
        subst hjoin
        rw [tokens, if_neg hlong]
        by_cases hempty : line = []
        · rw [if_pos hempty, and_iff_right hempty, Prod.mk.injEq, and_iff_right rfl]
        · rw [if_neg hempty]
          exact iff_of_false nofun fun h => hempty h.1
    | cons part parts =>
        rw [tokens, if_neg hlong]
        refine iff_of_false nofun fun h => ?_
        rw [h.1, List.intercalate_cons_cons] at hjoin
        simp at hjoin

end LineScanner
