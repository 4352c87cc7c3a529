/-
Texts without the white space at their ends, over any alphabet and any notion
of white space, and the notions of it that Unicode has.

* `isSeparator`, `isWhitespace`: what Unicode calls white space, and the parts
  of it that the languages put together in their own ways;
* `stripPrefix`, `stripSuffix`, `splitOnce`: reading up to a known text;
* `trim`: the text between the white space;
* `trim_append`: white space at the ends is trimmed; `exists_trim`: nothing
  else is;
* `map_trim_splitOn`: **trimming a text before it is split changes none of its
  trimmed parts**, when the separator is no white space.
-/
import Mathlib.Data.List.Basic
import Mathlib.Data.List.TakeWhile

namespace Trim

variable {α : Type*} {p q : α → Bool}

/-! ### White space -/

/-- The white space of ASCII that is no space: tabs and line breaks. -/
def isControlSpace (c : Char) : Bool := 9 ≤ c.toNat && c.toNat ≤ 13

/-- Unicode's category `Zs`: the spaces. -/
def isSeparator (c : Char) : Bool :=
  c.toNat = 0x20 || c.toNat = 0xa0 || c.toNat = 0x1680 ||
    (0x2000 ≤ c.toNat && c.toNat ≤ 0x200a) || c.toNat = 0x202f || c.toNat = 0x205f ||
      c.toNat = 0x3000

/-- Unicode's categories `Zl` and `Zp`: what separates lines and paragraphs. -/
def isLineSeparator (c : Char) : Bool := c.toNat = 0x2028 || c.toNat = 0x2029

/-- Unicode's property `White_Space`: these, and the next line. -/
def isWhitespace (c : Char) : Bool :=
  isControlSpace c || isSeparator c || isLineSeparator c || c.toNat = 0x85

/-- Visible ASCII is neither. -/
lemma not_space_of_visible {c : Char} (hlow : 33 ≤ c.toNat) (hhigh : c.toNat ≤ 126) :
    isControlSpace c = false ∧ isSeparator c = false ∧ isLineSeparator c = false := by
  simp only [isControlSpace, isSeparator, isLineSeparator, Bool.or_eq_false_iff,
    Bool.and_eq_false_iff, decide_eq_false_iff_not]
  omega

/-- So it is no white space. -/
lemma isWhitespace_eq_false {c : Char} (hlow : 33 ≤ c.toNat) (hhigh : c.toNat ≤ 126) :
    isWhitespace c = false := by
  obtain ⟨hcontrol, hseparator, hline⟩ := not_space_of_visible hlow hhigh
  simp only [isWhitespace, hcontrol, hseparator, hline, Bool.false_or, decide_eq_false_iff_not]
  omega

/-- Letters and digits are none. -/
lemma isWhitespace_eq_false_of_isAlphanum {c : Char} (h : c.isAlphanum = true) :
    isWhitespace c = false := by
  have hrange : 33 ≤ c.toNat ∧ c.toNat ≤ 126 := by
    delta Char.isAlphanum Char.isAlpha Char.isUpper Char.isLower Char.isDigit at h
    simp only [Bool.or_eq_true, Bool.and_eq_true, decide_eq_true_eq, ge_iff_le,
      UInt32.le_iff_toNat_le] at h
    have hval : c.toNat = c.val.toNat := rfl
    simp at h
    omega
  exact isWhitespace_eq_false hrange.1 hrange.2

/-! ### Prefixes, suffixes and separators -/

section Separators

variable [DecidableEq α] {pre suf sep t rest a b : List α} {c : α}

/-- What follows a prefix. -/
def stripPrefix (pre t : List α) : Option (List α) := t.dropPrefix? pre

/-- What stands before a suffix. -/
def stripSuffix (suf t : List α) : Option (List α) := t.dropSuffix? suf

lemma stripPrefix_eq_some : stripPrefix pre t = some rest ↔ t = pre ++ rest := by
  simp [stripPrefix, List.dropPrefix?_eq_some_iff]

lemma stripSuffix_eq_some : stripSuffix suf t = some rest ↔ t = rest ++ suf := by
  simp [stripSuffix, List.dropSuffix?_eq_some_iff]

/-- The texts on either side of the first separator. -/
def splitOnce (sep : List α) : List α → Option (List α × List α)
  | [] => (stripPrefix sep []).map fun rest => ([], rest)
  | c :: t =>
      match stripPrefix sep (c :: t) with
      | some rest => some ([], rest)
      | none => (splitOnce sep t).map fun p => (c :: p.1, p.2)

/-- The separator stands between them. -/
lemma eq_of_splitOnce (h : splitOnce sep t = some (a, b)) : t = a ++ (sep ++ b) := by
  induction t generalizing a with
  | nil =>
      obtain ⟨rest, hrest, heq⟩ := Option.map_eq_some_iff.mp h
      cases heq
      exact (stripPrefix_eq_some.mp hrest).trans (List.nil_append _).symm
  | cons c t ih =>
      rw [splitOnce] at h
      split at h
      · rename_i hrest
        cases h
        exact (stripPrefix_eq_some.mp hrest).trans (List.nil_append _).symm
      · obtain ⟨p, hp, heq⟩ := Option.map_eq_some_iff.mp h
        cases heq
        rw [ih hp, List.cons_append]

/-- The split of a text goes past a part in which no separator can begin. -/
lemma splitOnce_append (h : c ∉ a) (t : List α) :
    splitOnce (c :: sep) (a ++ t) = (splitOnce (c :: sep) t).map fun p => (a ++ p.1, p.2) := by
  induction a with
  | nil => simp
  | cons d a ih =>
      obtain ⟨hd, ha⟩ := List.ne_and_not_mem_of_not_mem_cons h
      have hnone : stripPrefix (c :: sep) (d :: (a ++ t)) = none :=
        Option.eq_none_iff_forall_ne_some.mpr fun rest hrest =>
          hd (List.cons.inj (stripPrefix_eq_some.mp hrest)).1.symm
      rw [List.cons_append, splitOnce, hnone, ih ha, Option.map_map]
      rfl

/-- So it is the first separator at which a text is split. -/
lemma splitOnce_of_notMem (h : c ∉ a) (b : List α) :
    splitOnce (c :: sep) (a ++ (c :: sep ++ b)) = some (a, b) := by
  have hnow : splitOnce (c :: sep) (c :: sep ++ b) = some ([], b) := by
    rw [List.cons_append, splitOnce, ← List.cons_append, stripPrefix_eq_some.mpr rfl]
  rw [splitOnce_append h, hnow, Option.map_some, List.append_nil]

end Separators

/-! ### Trimming -/

/-- The text without the white space at its ends. -/
def trim (p : α → Bool) (cs : List α) : List α := ((cs.dropWhile p).reverse.dropWhile p).reverse

@[simp] lemma trim_nil (p : α → Bool) : trim p [] = [] := rfl

/-- A text that begins and ends with other characters is not trimmed. -/
lemma trim_eq_self {cs : List α} (hhead : ∀ c ∈ cs.head?, p c = false)
    (hlast : ∀ c ∈ cs.getLast?, p c = false) : trim p cs = cs := by
  have hdrop : ∀ {l : List α}, (∀ c ∈ l.head?, p c = false) → l.dropWhile p = l := by
    intro l hl
    cases l with
    | nil => rfl
    | cons c l => exact List.dropWhile_cons_of_neg (by simp [hl c rfl])
  rw [trim, hdrop hhead, hdrop (by simpa using hlast), List.reverse_reverse]

/-- A text without white space is not trimmed. -/
lemma trim_of_forall {cs : List α} (h : ∀ c ∈ cs, p c = false) : trim p cs = cs :=
  trim_eq_self (fun c hc => h c (List.mem_of_mem_head? hc))
    fun c hc => h c (List.mem_of_mem_getLast? hc)

lemma trim_append_left {l : List α} (hl : ∀ c ∈ l, p c) (cs : List α) :
    trim p (l ++ cs) = trim p cs := by
  rw [trim, List.dropWhile_append_of_pos hl, trim]

lemma trim_append_right {r : List α} (hr : ∀ c ∈ r, p c) (cs : List α) :
    trim p (cs ++ r) = trim p cs := by
  rw [trim, List.dropWhile_append, trim]
  split
  · rename_i hempty
    rw [List.isEmpty_iff.mp hempty, List.dropWhile_eq_nil_iff.mpr hr]
  · rw [List.reverse_append,
      List.dropWhile_append_of_pos fun c hc => hr c (List.mem_reverse.mp hc)]

/-- White space at the ends is trimmed. -/
lemma trim_append {l r : List α} (hl : ∀ c ∈ l, p c) (hr : ∀ c ∈ r, p c) (cs : List α) :
    trim p (l ++ cs ++ r) = trim p cs := by
  rw [trim_append_right hr, trim_append_left hl]

/-- What is trimmed is white space. -/
lemma exists_trim (p : α → Bool) (cs : List α) :
    ∃ l r, cs = l ++ trim p cs ++ r ∧ (∀ c ∈ l, p c) ∧ ∀ c ∈ r, p c := by
  refine ⟨cs.takeWhile p, ((cs.dropWhile p).reverse.takeWhile p).reverse, ?_,
    fun c hc => List.mem_takeWhile_imp hc,
    fun c hc => List.mem_takeWhile_imp (List.mem_reverse.mp hc)⟩
  have hback : (cs.dropWhile p) = trim p cs ++ ((cs.dropWhile p).reverse.takeWhile p).reverse := by
    rw [trim, ← List.reverse_append, List.takeWhile_append_dropWhile, List.reverse_reverse]
  rw [List.append_assoc, ← hback, List.takeWhile_append_dropWhile]

@[simp] lemma trim_trim (p : α → Bool) (cs : List α) : trim p (trim p cs) = trim p cs := by
  obtain ⟨l, r, hcs, hl, hr⟩ := exists_trim p cs
  have htrim := trim_append hl hr (trim p cs)
  rw [← hcs] at htrim
  exact htrim.symm

/-- What is trimmed for one notion of white space is trimmed for any narrower
one. -/
lemma trim_eq_self_of_imp {cs : List α} (hq : ∀ c, q c → p c) (h : trim p cs = cs) :
    trim q cs = cs := by
  obtain ⟨l, r, hcs, hl, hr⟩ := exists_trim q cs
  obtain ⟨l', r', hinner, -, -⟩ := exists_trim p (trim q cs)
  have hsame : trim p (trim q cs) = cs := by
    rw [← trim_append (fun c hc => hq c (hl c hc)) (fun c hc => hq c (hr c hc)), ← hcs, h]
  have hlength := congrArg List.length hinner
  have hlength' := congrArg List.length hcs
  rw [hsame] at hlength
  simp only [List.length_append] at hlength hlength'
  obtain rfl := List.eq_nil_of_length_eq_zero (l := l) (by omega)
  obtain rfl := List.eq_nil_of_length_eq_zero (l := r) (by omega)
  rw [List.nil_append, List.append_nil] at hcs
  exact hcs.symm

/-- A trimmed text does not begin with white space. -/
lemma of_mem_head?_trim {c : α} {cs : List α} (h : c ∈ (trim p cs).head?) : p c = false := by
  have hpre : trim p cs <+: cs.dropWhile p := by
    have hsuffix := List.dropWhile_suffix p (l := (cs.dropWhile p).reverse)
    rw [← List.reverse_reverse (cs.dropWhile p)]
    exact List.reverse_prefix.mpr hsuffix
  obtain ⟨rest, hrest⟩ := hpre
  have hhead := List.head?_dropWhile_not p cs
  rw [← hrest] at hhead
  cases htrim : trim p cs with
  | nil =>
      rw [htrim] at h
      cases h
  | cons d ds =>
      rw [htrim] at h hhead
      obtain rfl : d = c := Option.some_inj.mp h
      exact hhead

/-- A character that is no white space is not trimmed. -/
lemma mem_trim {c : α} (hc : p c = false) {cs : List α} : c ∈ trim p cs ↔ c ∈ cs := by
  obtain ⟨l, r, hcs, hl, hr⟩ := exists_trim p cs
  have hnot : ∀ {s : List α}, (∀ d ∈ s, p d) → c ∉ s := fun hs hmem => by
    have hblank := hs c hmem
    rw [hc] at hblank
    cases hblank
  have hmem : c ∈ cs ↔ c ∈ l ++ trim p cs ++ r := by rw [← hcs]
  rw [hmem]
  simp only [List.mem_append, hnot hl, hnot hr, false_or, or_false]

/-! ### Splitting -/

/-- No separator is in a part. -/
lemma not_of_mem_splitOnP {part : List α} {c : α} (hc : c ∈ part) :
    ∀ {cs : List α}, part ∈ cs.splitOnP p → p c = false
  | [], h => by
      rw [List.splitOnP_nil, List.mem_singleton] at h
      rw [h] at hc
      cases hc
  | d :: cs, h => by
      rw [List.splitOnP_cons_eq_if_modifyHead] at h
      split at h
      · cases List.mem_cons.mp h with
        | inl hnil =>
            rw [hnil] at hc
            cases hc
        | inr h => exact not_of_mem_splitOnP hc h
      · rename_i hd
        cases hparts : cs.splitOnP p with
        | nil => exact absurd hparts (List.splitOnP_ne_nil p cs)
        | cons first parts =>
            rw [hparts] at h
            rcases List.mem_cons.mp h with rfl | h
            · rcases List.mem_cons.mp hc with rfl | hc
              · exact Bool.not_eq_true _ ▸ hd
              · exact not_of_mem_splitOnP hc (hparts ▸ List.mem_cons_self)
            · exact not_of_mem_splitOnP hc (hparts ▸ List.mem_cons_of_mem first h)

section Split

variable [BEq α] [LawfulBEq α] {sep : α}

omit [LawfulBEq α] in
/-- The characters of a part are in the text. -/
lemma mem_of_mem_splitOn {part : List α} {c : α} (hc : c ∈ part) :
    ∀ {cs : List α}, part ∈ cs.splitOn sep → c ∈ cs
  | [], h => by
      rw [List.splitOn_nil, List.mem_singleton] at h
      rw [h] at hc
      cases hc
  | d :: cs, h => by
      rw [List.splitOn_cons_eq_if_modifyHead] at h
      split at h
      · rcases List.mem_cons.mp h with rfl | h
        · cases hc
        · exact List.mem_cons_of_mem d (mem_of_mem_splitOn hc h)
      · cases hparts : cs.splitOn sep with
        | nil => exact absurd hparts (List.splitOn_ne_nil sep cs)
        | cons first parts =>
            rw [hparts] at h
            rcases List.mem_cons.mp h with rfl | h
            · rcases List.mem_cons.mp hc with rfl | hc
              · exact List.mem_cons_self
              · exact List.mem_cons_of_mem d
                  (mem_of_mem_splitOn hc (hparts ▸ List.mem_cons_self))
            · exact List.mem_cons_of_mem d
                (mem_of_mem_splitOn hc (hparts ▸ List.mem_cons_of_mem first h))

/-- Those of a text are in its parts, or separators. -/
lemma exists_mem_splitOn {c : α} (hne : c ≠ sep) :
    ∀ {cs : List α}, c ∈ cs → ∃ part ∈ cs.splitOn sep, c ∈ part
  | [], h => by cases h
  | d :: cs, h => by
      rw [List.splitOn_cons_eq_if_modifyHead]
      split
      · rename_i hd
        have hmem : c ∈ cs := (List.mem_cons.mp h).resolve_left fun heq =>
          hne (heq.trans (beq_iff_eq.mp hd))
        obtain ⟨part, hpart, hc⟩ := exists_mem_splitOn hne hmem
        exact ⟨part, List.mem_cons_of_mem [] hpart, hc⟩
      · cases hparts : cs.splitOn sep with
        | nil => exact absurd hparts (List.splitOn_ne_nil sep cs)
        | cons first parts =>
            rcases List.mem_cons.mp h with rfl | hmem
            · exact ⟨c :: first, List.mem_cons_self, List.mem_cons_self⟩
            · obtain ⟨part, hpart, hc⟩ := exists_mem_splitOn hne hmem
              rw [hparts] at hpart
              rcases List.mem_cons.mp hpart with rfl | hpart
              · exact ⟨d :: part, List.mem_cons_self, List.mem_cons_of_mem d hc⟩
              · exact ⟨part, List.mem_cons_of_mem _ hpart, hc⟩

/-- The last part takes what is appended. -/
lemma exists_splitOn_append {r : List α} (hr : sep ∉ r) :
    ∀ cs : List α, ∃ init last, cs.splitOn sep = init ++ [last] ∧
      (cs ++ r).splitOn sep = init ++ [last ++ r]
  | [] => ⟨[], [], List.splitOn_nil sep, List.splitOn_eq_singleton hr⟩
  | c :: cs => by
      obtain ⟨init, last, hcs, happend⟩ := exists_splitOn_append hr cs
      rw [List.cons_append, List.splitOn_cons_eq_if_modifyHead, List.splitOn_cons_eq_if_modifyHead,
        hcs, happend]
      split
      · exact ⟨[] :: init, last, rfl, rfl⟩
      · cases init with
        | nil => exact ⟨[], c :: last, rfl, rfl⟩
        | cons part init => exact ⟨(c :: part) :: init, last, rfl, rfl⟩

lemma map_trim_splitOn_append {l r : List α} (hsep : p sep = false) (hl : ∀ c ∈ l, p c)
    (hr : ∀ c ∈ r, p c) (cs : List α) :
    ((l ++ cs ++ r).splitOn sep).map (trim p) = (cs.splitOn sep).map (trim p) := by
  have hnot : ∀ {s : List α}, (∀ c ∈ s, p c) → sep ∉ s := fun hs hmem => by
    have hblank := hs sep hmem
    rw [hsep] at hblank
    cases hblank
  obtain ⟨init, last, hcs, happend⟩ := exists_splitOn_append (hnot hr) (l ++ cs)
  rw [happend, List.map_append, List.map_singleton, trim_append_right hr, ← List.map_singleton,
    ← List.map_append, ← hcs]
  clear hcs happend
  induction l with
  | nil => rfl
  | cons c l ih =>
      have hc : (c == sep) = false := by
        rw [beq_eq_false_iff_ne]
        rintro rfl
        exact hnot hl List.mem_cons_self
      have hl' : ∀ d ∈ l, p d := fun d hd => hl d (List.mem_cons_of_mem c hd)
      rw [List.cons_append, List.splitOn_cons_eq_if_modifyHead, hc, ← ih hl']
      cases (l ++ cs).splitOn sep with
      | nil => rfl
      | cons part parts =>
          have hpart : trim p (c :: part) = trim p part :=
            trim_append_left (l := [c]) (by simpa using hl c List.mem_cons_self) part
          exact congrArg (· :: parts.map (trim p)) hpart

/-- **Trimming a text before it is split changes none of its trimmed
parts.** -/
theorem map_trim_splitOn (hsep : p sep = false) (cs : List α) :
    ((trim p cs).splitOn sep).map (trim p) = (cs.splitOn sep).map (trim p) := by
  obtain ⟨l, r, hcs, hl, hr⟩ := exists_trim p cs
  have hparts := map_trim_splitOn_append hsep hl hr (trim p cs)
  rw [← hcs] at hparts
  exact hparts.symm

end Split

end Trim
