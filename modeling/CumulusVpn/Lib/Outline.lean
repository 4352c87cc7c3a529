/-
Property lists, and the outlines that they are printed as.

An outline has a line for each value, two spaces of indentation for each
level, and a brace at the end of the line above what is inside.

* `lines`, `trimmed`: reading a text;
* `Value`, `Value.outline`: property lists and their lines;
* `Value.legible`: no text in it passes for a brace or breaks its line;
* `Nested`: lines whose braces match; `nested_outline`: **the braces of a
  legible value match**.
-/
import Mathlib.Data.List.Basic
import CumulusVpn.Lib.Trim

namespace Outline

open Trim

/-- A text. -/
abbrev Text := List Char

/-! ### Texts -/

/-- Between a name and its value. -/
def colon : Text := [' ', ':', ' ']

/-- The lines of a text, without their line breaks. -/
def rawLines : Text → List Text
  | [] => []
  | c :: t =>
      if c = '\n' then [] :: rawLines t
      else
        match rawLines t with
        | [] => [[c]]
        | l :: ls => (c :: l) :: ls

/-- `str::lines`: the line break may be preceded by a carriage return. -/
def lines (t : Text) : List Text := (rawLines t).map fun l => (stripSuffix ['\r'] l).getD l

/-- A text of these lines. -/
def unlines (ls : List Text) : Text := ls.flatMap fun l => l ++ ['\n']

/-- A text that does not break its line. -/
def noBreak (t : Text) : Bool := t.all fun c => c ≠ '\n' && c ≠ '\r'

/-- The text without the white space at its end. -/
def trimEnd (t : Text) : Text := (t.reverse.dropWhile isWhitespace).reverse

/-- The text without the white space at its ends. -/
def trimmed (t : Text) : Text := trim isWhitespace t

/-- A name: neither white space nor a colon. -/
def isWord (t : Text) : Bool := !t.isEmpty && t.all fun c => !isWhitespace c && c ≠ ':'

section Texts

variable {t name s : Text} {c : Char}

lemma rawLines_append (h : '\n' ∉ t) (rest : Text) :
    rawLines (t ++ '\n' :: rest) = t :: rawLines rest := by
  induction t with
  | nil => rfl
  | cons c t ih =>
      obtain ⟨hc, ht⟩ := List.ne_and_not_mem_of_not_mem_cons h
      rw [List.cons_append, rawLines, if_neg fun heq => hc heq.symm, ih ht]

lemma noBreak_iff : noBreak t = true ↔ '\n' ∉ t ∧ '\r' ∉ t := by
  rw [noBreak, List.all_eq_true]
  constructor
  · intro h
    exact ⟨fun hmem => by simpa using h _ hmem, fun hmem => by simpa using h _ hmem⟩
  · intro h c hc
    have hn : c ≠ '\n' := fun heq => h.1 (heq ▸ hc)
    have hr : c ≠ '\r' := fun heq => h.2 (heq ▸ hc)
    simp [hn, hr]

lemma noBreak_append {u : Text} : noBreak (t ++ u) = (noBreak t && noBreak u) := List.all_append

/-- The lines of a text are read back. -/
lemma lines_unlines {ls : List Text} (h : ∀ l ∈ ls, noBreak l = true) :
    lines (unlines ls) = ls := by
  induction ls with
  | nil => rfl
  | cons l ls ih =>
      obtain ⟨hl, hls⟩ := List.forall_mem_cons.mp h
      obtain ⟨hn, hr⟩ := noBreak_iff.mp hl
      have hstrip : stripSuffix ['\r'] l = none := by
        refine Option.eq_none_iff_forall_ne_some.mpr fun rest hrest => hr ?_
        rw [stripSuffix_eq_some.mp hrest]
        exact List.mem_append_right rest List.mem_cons_self
      have hih := ih hls
      rw [lines] at hih
      rw [lines, unlines, List.flatMap_cons, List.append_assoc, List.singleton_append,
        rawLines_append hn, List.map_cons, hstrip, Option.getD_none]
      exact congrArg _ hih

lemma trimEnd_append (a s : Text) :
    trimEnd (a ++ s) = if trimEnd s = [] then trimEnd a else a ++ trimEnd s := by
  rw [trimEnd, trimEnd, trimEnd, List.reverse_append, List.dropWhile_append]
  by_cases h : s.reverse.dropWhile isWhitespace = []
  · simp [h]
  · rw [if_neg (by simpa using h), if_neg (by simpa using h), List.reverse_append,
      List.reverse_reverse]

lemma trimEnd_of_last (hc : isWhitespace c = false) (t : Text) : trimEnd (t ++ [c]) = t ++ [c] := by
  rw [trimEnd, List.reverse_append, List.reverse_singleton, List.singleton_append,
    List.dropWhile_cons_of_neg (by rw [hc]; exact Bool.false_ne_true), List.reverse_cons,
    List.reverse_reverse]

/-- Nothing is trimmed off a text that ends in another character. -/
lemma trimEnd_eq_self (hc : isWhitespace c = false) (ht : t.getLast? = some c) : trimEnd t = t := by
  obtain ⟨u, rfl⟩ := List.getLast?_eq_some_iff.mp ht
  exact trimEnd_of_last hc u

/-- Indentation is trimmed. -/
lemma trimmed_indent {indent : Text} (hindent : ∀ c ∈ indent, c = ' ') (hc : isWhitespace c = false)
    (t : Text) : trimmed (indent ++ c :: t) = trimEnd (c :: t) := by
  rw [trimmed, trim, List.dropWhile_append_of_pos fun d hd => by rw [hindent d hd]; rfl,
    List.dropWhile_cons_of_neg (by rw [hc]; exact Bool.false_ne_true), trimEnd]

lemma isWord_iff : isWord t = true ↔
    t ≠ [] ∧ ∀ c ∈ t, isWhitespace c = false ∧ c ≠ ':' := by
  rw [isWord, Bool.and_eq_true, List.all_eq_true]
  simp

/-- A line with a name and a text. -/
lemma trimmed_entry {indent : Text} (hindent : ∀ c ∈ indent, c = ' ') (hname : isWord name = true)
    (s : Text) :
    trimmed (indent ++ (name ++ (colon ++ s))) =
      if trimEnd s = [] then name ++ [' ', ':'] else name ++ (colon ++ trimEnd s) := by
  obtain ⟨hne, hchars⟩ := isWord_iff.mp hname
  obtain ⟨c, cs, rfl⟩ := List.exists_cons_of_ne_nil hne
  have hc := (hchars c List.mem_cons_self).1
  rw [List.cons_append, trimmed_indent hindent hc, ← List.cons_append, ← List.append_assoc,
    trimEnd_append]
  split
  · have hspace : trimEnd [' '] = [] := rfl
    have hsplit : (c :: cs) ++ colon = ((c :: cs) ++ [' ']) ++ [':'] ++ [' '] := by
      simp [colon]
    rw [hsplit, trimEnd_append, if_pos hspace, trimEnd_of_last rfl]
    simp
  · rw [List.append_assoc]

end Texts

/-! ### Property lists -/

/-- A property list; scalars by what is printed of them. -/
inductive Value
  | text (s : Text)
  | array (items : List Value)
  | dict (entries : List (Text × Value))

@[elab_as_elim, induction_eliminator]
theorem Value.induction {P : Value → Prop} (text : ∀ s, P (.text s))
    (array : ∀ items, (∀ v ∈ items, P v) → P (.array items))
    (dict : ∀ entries, (∀ e ∈ entries, P e.2) → P (.dict entries)) (v : Value) : P v :=
  @Value.rec P (fun items => ∀ v ∈ items, P v) (fun entries => ∀ e ∈ entries, P e.2)
    (fun e => P e.2) text array dict (fun _ hv => absurd hv List.not_mem_nil)
    (fun _ _ hv hvs => List.forall_mem_cons.mpr ⟨hv, hvs⟩)
    (fun _ he => absurd he List.not_mem_nil)
    (fun _ _ he hes => List.forall_mem_cons.mpr ⟨he, hes⟩) (fun _ _ hv => hv) v

/-- What opens an array. -/
def arrayOpens : Text := "<array> \x7b".toList

/-- What opens a dictionary. -/
def dictOpens : Text := "<dictionary> \x7b".toList

/-- One level deeper. -/
def deeper (indent : Text) : Text := ' ' :: ' ' :: indent

/-- The line of a text, or the one above what is inside. -/
def entry (indent name s : Text) : Text := indent ++ (name ++ (colon ++ s))

mutual

/-- The lines of a value. -/
def Value.outline (indent name : Text) : Value → List Text
  | .text s => [entry indent name s]
  | .array items =>
      entry indent name arrayOpens :: (outlineItems (deeper indent) 0 items ++ [indent ++ ['}']])
  | .dict entries =>
      entry indent name dictOpens :: (outlineEntries (deeper indent) entries ++ [indent ++ ['}']])

/-- The items of an array are numbered. -/
def outlineItems (indent : Text) (n : Nat) : List Value → List Text
  | [] => []
  | v :: vs => v.outline indent (Nat.toDigits 10 n) ++ outlineItems indent (n + 1) vs

/-- The lines of the entries of a dictionary. -/
def outlineEntries (indent : Text) : List (Text × Value) → List Text
  | [] => []
  | (name, v) :: es => v.outline indent name ++ outlineEntries indent es

end

/-- A text that ends its line without a brace. -/
def plainText (s : Text) : Bool := noBreak s && (trimEnd s).getLast? ≠ some '{'

mutual

/-- No text passes for a brace or breaks its line, and names are words. -/
def Value.legible : Value → Bool
  | .text s => plainText s
  | .array items => legibleItems items
  | .dict entries => legibleEntries entries

/-- Every item is legible. -/
def legibleItems : List Value → Bool
  | [] => true
  | v :: vs => v.legible && legibleItems vs

/-- Every name is a word, and every value is legible. -/
def legibleEntries : List (Text × Value) → Bool
  | [] => true
  | (name, v) :: es => isWord name && (v.legible && legibleEntries es)

end

lemma legibleItems_iff {items : List Value} :
    legibleItems items = true ↔ ∀ v ∈ items, v.legible = true := by
  induction items with
  | nil => simp [legibleItems]
  | cons v vs ih => rw [legibleItems, Bool.and_eq_true, ih, List.forall_mem_cons]

lemma legibleEntries_iff {entries : List (Text × Value)} :
    legibleEntries entries = true ↔
      ∀ e ∈ entries, isWord e.1 = true ∧ e.2.legible = true := by
  induction entries with
  | nil => simp [legibleEntries]
  | cons e es ih =>
      rw [legibleEntries, Bool.and_eq_true, Bool.and_eq_true, ih, List.forall_mem_cons, and_assoc]

/-! ### Braces -/

/-- The line opens a block. -/
def opens (line : Text) : Bool := (trimmed line).getLast? = some '{'

/-- The line closes a block. -/
def closes (line : Text) : Bool := trimmed line = ['}']

/-- Lines whose braces match. -/
inductive Nested : List Text → Prop
  | nil : Nested []
  | plain {l : Text} {ls : List Text} (hopens : opens l = false) (hcloses : closes l = false)
      (h : Nested ls) : Nested (l :: ls)
  | block {l r : Text} {inner ls : List Text} (hopens : opens l = true) (hinner : Nested inner)
      (hnot : opens r = false) (hcloses : closes r = true) (h : Nested ls) :
      Nested (l :: (inner ++ r :: ls))

lemma Nested.append {ls ls' : List Text} (h : Nested ls) (h' : Nested ls') :
    Nested (ls ++ ls') := by
  induction h with
  | nil => exact h'
  | plain hopens hcloses _ ih => exact .plain hopens hcloses ih
  | block hopens hinner hnot hcloses _ _ ih =>
      rw [List.cons_append, List.append_assoc, List.cons_append]
      exact .block hopens hinner hnot hcloses ih

section Lines

variable {indent name : Text} {v : Value}

lemma isWord_toDigits (n : Nat) : isWord (Nat.toDigits 10 n) = true := by
  refine isWord_iff.mpr ⟨Nat.toDigits_ne_nil, fun c hc => ?_⟩
  have hdigit := Nat.isDigit_of_mem_toDigits (by decide) (by decide) hc
  simp only [Char.isDigit, ge_iff_le, Bool.and_eq_true, decide_eq_true_eq,
    UInt32.le_iff_toNat_le] at hdigit
  have hlow : 48 ≤ c.toNat := hdigit.1
  have hhigh : c.toNat ≤ 57 := hdigit.2
  refine ⟨isWhitespace_eq_false (by omega) (by omega), fun heq => ?_⟩
  have hcolon : c.toNat = 58 := heq ▸ rfl
  omega

lemma noBreak_word (h : isWord name = true) : noBreak name = true := by
  refine noBreak_iff.mpr ⟨fun hmem => ?_, fun hmem => ?_⟩
  · exact absurd ((isWord_iff.mp h).2 _ hmem).1 (by decide)
  · exact absurd ((isWord_iff.mp h).2 _ hmem).1 (by decide)

/-- A line that ends in a brace. -/
lemma trimmed_opener (hindent : ∀ c ∈ indent, c = ' ') (hname : isWord name = true) {s : Text}
    (hs : trimEnd s = s) (hne : s ≠ []) : trimmed (entry indent name s) = name ++ (colon ++ s) := by
  rw [entry, trimmed_entry hindent hname, hs, if_neg hne]

lemma trimmed_closer (hindent : ∀ c ∈ indent, c = ' ') : trimmed (indent ++ ['}']) = ['}'] :=
  trimmed_indent hindent rfl []

lemma opens_opener (hindent : ∀ c ∈ indent, c = ' ') (hname : isWord name = true) {s : Text}
    (hs : trimEnd s = s) (hlast : s.getLast? = some '{') : opens (entry indent name s) = true := by
  have hne : s ≠ [] := by
    rintro rfl
    cases hlast
  rw [opens, trimmed_opener hindent hname hs hne, List.getLast?_append, List.getLast?_append, hlast]
  rfl

lemma closes_closer (hindent : ∀ c ∈ indent, c = ' ') : closes (indent ++ ['}']) = true := by
  rw [closes, trimmed_closer hindent]
  rfl

lemma opens_closer (hindent : ∀ c ∈ indent, c = ' ') : opens (indent ++ ['}']) = false := by
  rw [opens, trimmed_closer hindent]
  rfl

lemma plain_entry (hindent : ∀ c ∈ indent, c = ' ') (hname : isWord name = true) {s : Text}
    (hs : plainText s = true) :
    opens (entry indent name s) = false ∧ closes (entry indent name s) = false := by
  have hlast : (trimEnd s).getLast? ≠ some '{' := by simpa using (Bool.and_eq_true_iff.mp hs).2
  have hmem : ':' ∈ trimmed (entry indent name s) ∧
      (trimmed (entry indent name s)).getLast? ≠ some '{' := by
    rw [entry, trimmed_entry hindent hname]
    split
    · simp
    · rename_i hne
      cases hc : (trimEnd s).getLast? with
      | none => exact absurd (List.getLast?_eq_none_iff.mp hc) hne
      | some c =>
          rw [hc] at hlast
          rw [List.getLast?_append, List.getLast?_append, hc]
          exact ⟨by simp [colon], by simpa using hlast⟩
  refine ⟨decide_eq_false hmem.2, decide_eq_false fun heq => ?_⟩
  rw [heq] at hmem
  simp at hmem

lemma deeper_spaces (hindent : ∀ c ∈ indent, c = ' ') : ∀ c ∈ deeper indent, c = ' ' := by
  simpa [deeper] using hindent

/-- The braces of the items match when those of each do. -/
lemma nested_outlineItems {items : List Value}
    (h : ∀ v ∈ items, ∀ n, Nested (v.outline indent (Nat.toDigits 10 n))) (n : Nat) :
    Nested (outlineItems indent n items) := by
  induction items generalizing n with
  | nil => exact .nil
  | cons v vs ih =>
      obtain ⟨hhere, hrest⟩ := List.forall_mem_cons.mp h
      exact (hhere n).append (ih hrest (n + 1))

lemma nested_outlineEntries {entries : List (Text × Value)}
    (h : ∀ e ∈ entries, Nested (e.2.outline indent e.1)) :
    Nested (outlineEntries indent entries) := by
  induction entries with
  | nil => exact .nil
  | cons e es ih =>
      obtain ⟨hhere, hrest⟩ := List.forall_mem_cons.mp h
      exact hhere.append (ih hrest)

/-- **The braces of a legible value match.** -/
theorem nested_outline (v : Value) : ∀ {indent name : Text}, (∀ c ∈ indent, c = ' ') →
    isWord name = true → v.legible = true → Nested (v.outline indent name) := by
  induction v with
  | text s =>
      intro indent name hindent hname hv
      obtain ⟨hopens, hcloses⟩ := plain_entry hindent hname hv
      exact .plain hopens hcloses .nil
  | array items ih =>
      intro indent name hindent hname hv
      refine .block (opens_opener hindent hname rfl rfl)
        (nested_outlineItems (fun v hmem n => ?_) 0)
        (opens_closer hindent) (closes_closer hindent) .nil
      exact ih v hmem (deeper_spaces hindent) (isWord_toDigits n) (legibleItems_iff.mp hv v hmem)
  | dict entries ih =>
      intro indent name hindent hname hv
      refine .block (opens_opener hindent hname rfl rfl) (nested_outlineEntries fun e hmem => ?_)
        (opens_closer hindent) (closes_closer hindent) .nil
      obtain ⟨hword, hlegible⟩ := legibleEntries_iff.mp hv e hmem
      exact ih e hmem (deeper_spaces hindent) hword hlegible

lemma noBreak_spaces (hindent : ∀ c ∈ indent, c = ' ') : noBreak indent = true :=
  noBreak_iff.mpr ⟨fun hmem => absurd (hindent _ hmem) (by decide),
    fun hmem => absurd (hindent _ hmem) (by decide)⟩

lemma noBreak_entry (hindent : ∀ c ∈ indent, c = ' ') (hname : noBreak name = true) {s : Text}
    (hs : noBreak s = true) : noBreak (entry indent name s) = true := by
  rw [entry, noBreak_append, noBreak_append, noBreak_append, noBreak_spaces hindent, hname, hs]
  rfl

lemma noBreak_closer (hindent : ∀ c ∈ indent, c = ' ') : noBreak (indent ++ ['}']) = true := by
  rw [noBreak_append, noBreak_spaces hindent]
  rfl

/-- A line of an array's items is a line of one of them. -/
lemma exists_of_mem_outlineItems {items : List Value} {l : Text} :
    ∀ {n : Nat}, l ∈ outlineItems indent n items →
      ∃ v ∈ items, ∃ m, l ∈ v.outline indent (Nat.toDigits 10 m) := by
  induction items with
  | nil => exact fun h => absurd h List.not_mem_nil
  | cons v vs ih =>
      intro n h
      rcases List.mem_append.mp h with h | h
      · exact ⟨v, List.mem_cons_self, n, h⟩
      · obtain ⟨w, hw, hline⟩ := ih h
        exact ⟨w, List.mem_cons_of_mem v hw, hline⟩

lemma exists_of_mem_outlineEntries {entries : List (Text × Value)} {l : Text}
    (h : l ∈ outlineEntries indent entries) : ∃ e ∈ entries, l ∈ e.2.outline indent e.1 := by
  induction entries with
  | nil => exact absurd h List.not_mem_nil
  | cons e es ih =>
      rcases List.mem_append.mp h with h | h
      · exact ⟨e, List.mem_cons_self, h⟩
      · obtain ⟨f, hf, hline⟩ := ih h
        exact ⟨f, List.mem_cons_of_mem e hf, hline⟩

/-- No line of a legible value is broken. -/
lemma noBreak_outline (v : Value) : ∀ {indent name l : Text}, (∀ c ∈ indent, c = ' ') →
    noBreak name = true → v.legible = true → l ∈ v.outline indent name → noBreak l = true := by
  induction v with
  | text s =>
      intro indent name l hindent hname hv hl
      rw [List.mem_singleton.mp hl]
      exact noBreak_entry hindent hname (Bool.and_eq_true_iff.mp hv).1
  | array items ih =>
      intro indent name l hindent hname hv hl
      rcases List.mem_cons.mp hl with rfl | hl
      · exact noBreak_entry hindent hname rfl
      rcases List.mem_append.mp hl with hl | hl
      · obtain ⟨v, hmem, m, hline⟩ := exists_of_mem_outlineItems hl
        exact ih v hmem (deeper_spaces hindent) (noBreak_word (isWord_toDigits m))
          (legibleItems_iff.mp hv v hmem) hline
      · exact List.mem_singleton.mp hl ▸ noBreak_closer hindent
  | dict entries ih =>
      intro indent name l hindent hname hv hl
      rcases List.mem_cons.mp hl with rfl | hl
      · exact noBreak_entry hindent hname rfl
      rcases List.mem_append.mp hl with hl | hl
      · obtain ⟨e, hmem, hline⟩ := exists_of_mem_outlineEntries hl
        obtain ⟨hword, hlegible⟩ := legibleEntries_iff.mp hv e hmem
        exact ih e hmem (deeper_spaces hindent) (noBreak_word hword) hlegible hline
      · exact List.mem_singleton.mp hl ▸ noBreak_closer hindent

/-- The line above what is inside, that, and the closing brace. -/
lemma outline_block (name : Text) (hindent : ∀ c ∈ indent, c = ' ') (hv : v.legible = true)
    (hnot : ∀ s, v ≠ .text s) : ∃ o inner,
      v.outline indent name = entry indent name o :: (inner ++ [indent ++ ['}']]) ∧
        Nested inner ∧ (o = arrayOpens ∨ o = dictOpens) := by
  have hdeeper := deeper_spaces hindent
  cases v with
  | text s => exact absurd rfl (hnot s)
  | array items =>
      refine ⟨arrayOpens, _, rfl, nested_outlineItems (fun v hmem n => ?_) 0, Or.inl rfl⟩
      exact nested_outline v hdeeper (isWord_toDigits n) (legibleItems_iff.mp hv v hmem)
  | dict entries =>
      refine ⟨dictOpens, _, rfl, nested_outlineEntries fun e hmem => ?_, Or.inr rfl⟩
      obtain ⟨hword, hlegible⟩ := legibleEntries_iff.mp hv e hmem
      exact nested_outline e.2 hdeeper hword hlegible

end Lines

end Outline
