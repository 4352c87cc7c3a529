/-
Texts of settings, one `key = value` to a line, over any notion of a blank.

A line that is read is trimmed, and so are the parts on either side of its
first `=`.

* `line`, `readLine`: how a setting is written, and how a line is read;
* `IsKey`, `IsBlank`: what keys are, and what may be called a blank;
  `readLine_line`: **a setting is read as it was written** when there are no
  blanks at the ends of its value;
* `of_readLine`: what is read stands in the line, with no blanks at its ends;
* `splitOn_sections`: the lines of two sections are those that were written.
-/
import CumulusVpn.Lib.Trim

namespace KeyValue

open Trim

/-- A key, and what it is set to. -/
abbrev Setting : Type := List Char × List Char

/-- A setting as it is written. -/
def line (s : Setting) : List Char := s.1 ++ ' ' :: '=' :: ' ' :: s.2

/-- The setting of a line; one without `=` has none. -/
def readLine (blank : Char → Bool) (raw : List Char) : Option Setting :=
  (splitOnce ['='] (trim blank raw)).map fun p => (trim blank p.1, trim blank p.2)

/-- The keys: words of letters and digits. -/
structure IsKey (key : List Char) : Prop where
  ne : key ≠ []
  word : ∀ c ∈ key, c.isAlphanum = true

instance (key : List Char) : Decidable (IsKey key) :=
  decidable_of_iff (key ≠ [] ∧ key.all Char.isAlphanum = true)
    ⟨fun h => ⟨h.1, List.all_eq_true.mp h.2⟩, fun h => ⟨h.ne, List.all_eq_true.mpr h.word⟩⟩

/-- The notions of a blank: a space is one, and what a key is written with is
none. -/
structure IsBlank (blank : Char → Bool) : Prop where
  space : blank ' ' = true
  equals : blank '=' = false
  word : ∀ c : Char, c.isAlphanum = true → blank c = false

/-- The lines of a text with two sections. -/
def sections (head₁ : List Char) (first : List Setting) (head₂ : List Char)
    (second : List Setting) : List (List Char) :=
  head₁ :: (first.map line ++ [] :: head₂ :: (second.map line ++ [[]]))

section Blank

variable {blank : Char → Bool} {key value raw : List Char} {s : Setting}

/-- Behind a character that is no blank, only the end of a text is trimmed. -/
lemma exists_trim_append {a b : List Char} {c : Char}
    (ha : ∀ d ∈ (a ++ [c]).head?, blank d = false) (hc : blank c = false) :
    ∃ w, trim blank (a ++ c :: b) = a ++ c :: w ∧ trim blank w = trim blank b := by
  refine ⟨(b.reverse.dropWhile blank).reverse, ?_, ?_⟩
  · have hhead : (a ++ c :: b).dropWhile blank = a ++ c :: b := by
      cases a with
      | nil => exact List.dropWhile_cons_of_neg (by simp [hc])
      | cons e a => exact List.dropWhile_cons_of_neg (by simp [ha e rfl])
    have hend : (b.reverse ++ c :: a.reverse).dropWhile blank =
        b.reverse.dropWhile blank ++ c :: a.reverse := by
      rw [List.dropWhile_append, List.dropWhile_cons_of_neg (by simp [hc])]
      split
      · rename_i hnil
        rw [List.isEmpty_iff.mp hnil, List.nil_append]
      · rfl
    rw [trim, hhead, List.reverse_append, List.reverse_cons, List.append_assoc,
      List.singleton_append, hend]
    simp
  · have hsplit : b = (b.reverse.dropWhile blank).reverse ++
        (b.reverse.takeWhile blank).reverse := by
      rw [← List.reverse_append, List.takeWhile_append_dropWhile, List.reverse_reverse]
    conv_rhs => rw [hsplit]
    exact (trim_append_right (fun d hd =>
      List.mem_takeWhile_imp (List.mem_reverse.mp hd)) _).symm

/-- The key of a setting is not trimmed, nor are the blank and the `=` behind
it. -/
lemma exists_trim_line (hblank : IsBlank blank) (hkey : IsKey key) (value : List Char) :
    ∃ w, trim blank (line (key, value)) = key ++ [' '] ++ '=' :: w ∧
      trim blank w = trim blank value := by
  have hhead : ∀ d ∈ (key ++ [' '] ++ ['=']).head?, blank d = false := by
    obtain ⟨c, rest, rfl⟩ := List.exists_cons_of_ne_nil hkey.ne
    rintro d ⟨⟩
    exact hblank.word c (hkey.word c List.mem_cons_self)
  obtain ⟨w, htrim, hw⟩ := exists_trim_append (b := [' '] ++ value) hhead hblank.equals
  have hline : line (key, value) = key ++ [' '] ++ '=' :: ([' '] ++ value) := by simp [line]
  rw [trim_append_left (List.forall_mem_singleton.mpr hblank.space)] at hw
  exact ⟨w, hline ▸ htrim, hw⟩

/-- **A setting is read as it was written.** -/
lemma readLine_line (hblank : IsBlank blank) (hkey : IsKey key)
    (hvalue : trim blank value = value) :
    readLine blank (line (key, value)) = some (key, value) := by
  obtain ⟨w, htrim, hw⟩ := exists_trim_line hblank hkey value
  have hnotMem : '=' ∉ key ++ [' '] := by
    rw [List.mem_append]
    rintro (hmem | hmem)
    · exact absurd (hkey.word '=' hmem) (by decide)
    · exact absurd (List.mem_singleton.mp hmem) (by decide)
  have hsplit : splitOnce ['='] (key ++ [' '] ++ '=' :: w) = some (key ++ [' '], w) :=
    splitOnce_of_notMem hnotMem w
  rw [readLine, htrim, hsplit, Option.map_some, hw, hvalue,
    trim_append_right (List.forall_mem_singleton.mpr hblank.space),
    trim_of_forall fun c hc => hblank.word c (hkey.word c hc)]

/-- **What is read stands in the line**, and blanks are all that follows it. -/
lemma of_readLine (h : readLine blank raw = some s) : trim blank s.2 = s.2 ∧
    ∃ front back, raw = front ++ s.2 ++ back ∧ ∀ c ∈ back, blank c = true := by
  obtain ⟨⟨a, b⟩, hsplit, rfl⟩ := Option.map_eq_some_iff.mp h
  refine ⟨trim_trim blank b, ?_⟩
  obtain ⟨l, r, hraw, -, hr⟩ := exists_trim blank raw
  obtain ⟨l', r', hb, -, hr'⟩ := exists_trim blank b
  refine ⟨l ++ (a ++ '=' :: l'), r' ++ r, ?_, fun c hc => ?_⟩
  · conv_lhs => rw [hraw, eq_of_splitOnce hsplit, hb]
    simp
  · exact (List.mem_append.mp hc).elim (hr' c) (hr c)

/-- The first `=` is where a text is split. -/
lemma splitOnce_equals (t : List Char) : splitOnce ['='] t =
    if '=' ∈ t then some (t.takeWhile (· ≠ '='), (t.dropWhile (· ≠ '=')).tail) else none := by
  split
  · rename_i hmem
    obtain ⟨a, b, rfl, ha⟩ := List.eq_append_cons_of_mem hmem
    have hne : ∀ c ∈ a, decide (c ≠ '=') = true := fun c hc =>
      decide_eq_true fun heq => ha (heq ▸ hc)
    have hfirst : splitOnce ['='] (a ++ '=' :: b) = some (a, b) := splitOnce_of_notMem ha b
    rw [hfirst, List.takeWhile_append_of_pos hne, List.dropWhile_append_of_pos hne]
    simp
  · rename_i hmem
    rw [Option.eq_none_iff_forall_ne_some]
    rintro ⟨a, b⟩ hsplit
    refine hmem ?_
    rw [eq_of_splitOnce hsplit]
    simp

end Blank

/-! ### The lines -/

variable {first second : List Setting} {head₁ head₂ : List Char}

/-- Two joined texts, with a separator between them. -/
lemma intercalate_append {α : Type*} {sep : List α} {xs ys : List (List α)} (hxs : xs ≠ [])
    (hys : ys ≠ []) : List.intercalate sep (xs ++ ys) =
      List.intercalate sep xs ++ sep ++ List.intercalate sep ys := by
  induction xs with
  | nil => exact absurd rfl hxs
  | cons x xs ih =>
      by_cases hnil : xs = []
      · rw [hnil, List.singleton_append, List.intercalate_cons_of_ne_nil hys,
          List.intercalate_singleton]
      · rw [List.cons_append, List.intercalate_cons_of_ne_nil (by simp [hys]),
          List.intercalate_cons_of_ne_nil hnil, ih hnil]
        simp

/-- Two sections, with an empty line between them and a line feed at the end. -/
lemma intercalate_sections : List.intercalate ['\n'] (sections head₁ first head₂ second) =
    List.intercalate ['\n'] (head₁ :: first.map line) ++ ['\n', '\n'] ++
      List.intercalate ['\n'] (head₂ :: second.map line) ++ ['\n'] := by
  have hsections : sections head₁ first head₂ second =
      (head₁ :: first.map line) ++ ([[]] ++ ((head₂ :: second.map line) ++ [[]])) := by
    simp [sections]
  rw [hsections, intercalate_append (by simp) (by simp), intercalate_append (by simp) (by simp),
    intercalate_append (by simp) (by simp), List.intercalate_singleton]
  simp

/-- What a reader makes of the lines of two sections. -/
lemma filterMap_sections {read : List Char → Option Setting} {f : Setting → Setting}
    (hhead₁ : read head₁ = none) (hhead₂ : read head₂ = none) (hnil : read [] = none)
    (hlines : ∀ s ∈ first ++ second, read (line s) = some (f s)) :
    (sections head₁ first head₂ second).filterMap read = (first ++ second).map f := by
  have hmap : ∀ l : List Setting, (∀ s ∈ l, read (line s) = some (f s)) →
      (l.map line).filterMap read = l.map f := fun l hl => by
    rw [List.filterMap_map, ← List.filterMap_eq_map]
    exact List.filterMap_congr hl
  simp only [sections, List.filterMap_cons, List.filterMap_append, List.filterMap_nil, hhead₁,
    hhead₂, hnil, List.map_append, List.append_nil]
  rw [hmap first fun s hs => hlines s (List.mem_append_left _ hs),
    hmap second fun s hs => hlines s (List.mem_append_right _ hs)]

/-- **The lines of two sections are those that were written.** -/
lemma splitOn_sections (hhead₁ : '\n' ∉ head₁) (hhead₂ : '\n' ∉ head₂)
    (hlines : ∀ s ∈ first ++ second, IsKey s.1 ∧ '\n' ∉ s.2) :
    (List.intercalate ['\n'] (sections head₁ first head₂ second)).splitOn '\n' =
      sections head₁ first head₂ second := by
  have hlines : ∀ s ∈ first ++ second, '\n' ∉ line s := fun s hs => by
    obtain ⟨hkey, hvalue⟩ := hlines s hs
    simp only [line, List.mem_append, List.mem_cons, hvalue, or_false]
    rintro (hmem | hspace | hequals | hspace)
    · exact absurd (hkey.word '\n' hmem) (by decide)
    · exact absurd hspace (by decide)
    · exact absurd hequals (by decide)
    · exact absurd hspace (by decide)
  refine List.splitOn_intercalate '\n' (fun l hl => ?_) (List.cons_ne_nil _ _)
  simp only [sections, List.mem_cons, List.mem_append, List.mem_map, List.not_mem_nil,
    or_false] at hl
  obtain rfl | ⟨s, hs, rfl⟩ | rfl | rfl | ⟨s, hs, rfl⟩ | rfl := hl
  · exact hhead₁
  · exact hlines s (List.mem_append_left _ hs)
  · exact List.not_mem_nil
  · exact hhead₂
  · exact hlines s (List.mem_append_right _ hs)
  · exact List.not_mem_nil

end KeyValue
