/-
Decimal texts with a bounded number of digits.

* `fixed`: the digits of a number, padded to a width;
* `stripZeros`: a fraction without its trailing zeros;
* `read`: the texts of the form `\d{1,a}(\.\d{1,b})?`, with their value;
* `text`: the shortest text of `n / 10 ^ s`;
* `read_text`: **reading the text gives the number back**, when it has at most
  `a` integer digits;
* `exists_of_read_eq_some`: every number read is of that kind.
-/
import Mathlib.Algebra.Order.Field.Rat
import Mathlib.Data.List.TakeWhile
import Mathlib.Tactic.FieldSimp
import Mathlib.Tactic.Ring

namespace Decimal

/-- The last `w` decimal digits of `n`, most significant first. -/
def fixed : Nat → Nat → List Char
  | 0, _ => []
  | w + 1, n => fixed w (n / 10) ++ [(n % 10).digitChar]

/-- The digits without the zeros at their end. -/
def stripZeros (cs : List Char) : List Char :=
  (cs.reverse.dropWhile fun c => c = '0').reverse

/-- The value of an integer part and a fraction. -/
def value (int frac : List Char) : ℚ :=
  Nat.ofDigitChars 10 int 0 + Nat.ofDigitChars 10 frac 0 / 10 ^ frac.length

/-- The value of a text `\d{1,a}(\.\d{1,b})?`; none for any other text. -/
def read (a b : Nat) (cs : List Char) : Option ℚ :=
  let int := cs.takeWhile Char.isDigit
  if 1 ≤ int.length ∧ int.length ≤ a then
    match cs.dropWhile Char.isDigit with
    | [] => some (value int [])
    | c :: frac =>
        if c = '.' ∧ 1 ≤ frac.length ∧ frac.length ≤ b ∧ frac.all Char.isDigit then
          some (value int frac)
        else none
  else none

/-- The shortest text of `n / 10 ^ s`. -/
def text (s n : Nat) : List Char :=
  let frac := stripZeros (fixed s (n % 10 ^ s))
  Nat.toDigits 10 (n / 10 ^ s) ++ if frac = [] then [] else '.' :: frac

/-! ### Digits -/

@[simp] lemma length_fixed (w n : Nat) : (fixed w n).length = w := by
  induction w generalizing n with
  | zero => rfl
  | succ w ih => simp [fixed, ih]

lemma isDigit_of_mem_fixed {w n : Nat} {c : Char} (h : c ∈ fixed w n) : c.isDigit := by
  induction w generalizing n with
  | zero => cases h
  | succ w ih =>
      rcases List.mem_append.mp h with h | h
      · exact ih h
      · obtain rfl := List.mem_singleton.mp h
        rw [Nat.isDigit_digitChar]
        exact decide_eq_true (Nat.mod_lt n (by decide))

lemma ofDigitChars_fixed {w n : Nat} (h : n < 10 ^ w) : Nat.ofDigitChars 10 (fixed w n) 0 = n := by
  induction w generalizing n with
  | zero =>
      obtain rfl : n = 0 := by simpa using h
      rfl
  | succ w ih =>
      have hdiv : n / 10 < 10 ^ w := Nat.div_lt_of_lt_mul (by rwa [pow_succ, mul_comm] at h)
      rw [fixed, Nat.ofDigitChars_append, ih hdiv,
        Nat.ofDigitChars_cons_digitChar_of_lt_ten (Nat.mod_lt n (by decide)), Nat.ofDigitChars_nil]
      exact Nat.div_add_mod n 10

/-- What is stripped are zeros. -/
lemma exists_stripZeros_append (cs : List Char) :
    ∃ k, cs = stripZeros cs ++ List.replicate k '0' := by
  refine ⟨(cs.reverse.takeWhile fun c => c = '0').length, ?_⟩
  have hzeros : cs.reverse.takeWhile (fun c => c = '0') =
      List.replicate (cs.reverse.takeWhile fun c => c = '0').length '0' :=
    List.eq_replicate_of_mem fun c hc => by simpa using List.mem_takeWhile_imp hc
  have hsplit := congrArg List.reverse
    (List.takeWhile_append_dropWhile (p := fun c => decide (c = '0')) (l := cs.reverse))
  rw [List.reverse_append, List.reverse_reverse, hzeros, List.reverse_replicate] at hsplit
  exact hsplit.symm

/-- Stripping zeros keeps the value of a fraction. -/
lemma value_stripZeros (int cs : List Char) : value int (stripZeros cs) = value int cs := by
  obtain ⟨k, hk⟩ := exists_stripZeros_append cs
  conv_rhs => rw [hk]
  rw [value, value, Nat.ofDigitChars_append, Nat.ofDigitChars_replicate_zero, List.length_append,
    List.length_replicate, pow_add]
  push_cast
  field_simp

lemma isDigit_of_mem_stripZeros {cs : List Char} (h : ∀ c ∈ cs, c.isDigit) {c : Char}
    (hc : c ∈ stripZeros cs) : c.isDigit := by
  refine h c ?_
  obtain ⟨k, hk⟩ := exists_stripZeros_append cs
  rw [hk]
  exact List.mem_append_left _ hc

/-- Only what follows another character is stripped. -/
lemma stripZeros_append_cons {c : Char} (hc : c ≠ '0') (xs ys : List Char) :
    stripZeros (xs ++ c :: ys) = xs ++ c :: stripZeros ys := by
  have hstop : (c :: xs.reverse).dropWhile (fun d => d = '0') = c :: xs.reverse :=
    List.dropWhile_cons_of_neg (by simpa using hc)
  have hreverse : (xs ++ c :: ys).reverse = ys.reverse ++ c :: xs.reverse := by simp
  rw [stripZeros, hreverse, List.dropWhile_append, stripZeros]
  split
  · rename_i hempty
    rw [hstop, List.isEmpty_iff.mp hempty]
    simp
  · simp

lemma length_stripZeros_le (cs : List Char) : (stripZeros cs).length ≤ cs.length := by
  obtain ⟨k, hk⟩ := exists_stripZeros_append cs
  conv_rhs => rw [hk, List.length_append]
  exact Nat.le_add_right _ _

/-- A text holds digits and at most a point. -/
lemma isDigit_of_mem_text {s n : Nat} {c : Char} (h : c ∈ text s n) : c.isDigit ∨ c = '.' := by
  rcases List.mem_append.mp h with h | h
  · exact Or.inl (Nat.isDigit_of_mem_toDigits (by decide) le_rfl h)
  · split at h
    · cases h
    · rcases List.mem_cons.mp h with h | h
      · exact Or.inr h
      · exact Or.inl (isDigit_of_mem_stripZeros (fun _ hd => isDigit_of_mem_fixed hd) h)

/-- What is read is some digits and at most a point. -/
lemma isDigit_of_read {a b : Nat} {cs : List Char} {q : ℚ} (h : read a b cs = some q) :
    cs ≠ [] ∧ ∀ c ∈ cs, c.isDigit ∨ c = '.' := by
  rw [read] at h
  split at h
  · rename_i hint
    refine ⟨?_, fun c hc => ?_⟩
    · rintro rfl
      exact absurd hint.1 (by simp)
    rw [← List.takeWhile_append_dropWhile (p := Char.isDigit) (l := cs)] at hc
    rcases List.mem_append.mp hc with hc | hc
    · exact Or.inl (List.mem_takeWhile_imp hc)
    · split at h
      · rename_i hnil
        rw [hnil] at hc
        cases hc
      · rename_i d frac hcons
        rw [hcons] at hc
        split at h
        · rename_i hfrac
          rcases List.mem_cons.mp hc with rfl | hc
          · exact Or.inr hfrac.1
          · exact Or.inl (List.all_eq_true.mp hfrac.2.2.2 c hc)
        · cases h
  · cases h

/-! ### Reading a text back -/

/-- A text of digits and an optional fraction, read. -/
lemma read_digits {a b : Nat} {int frac : List Char} (hint : ∀ c ∈ int, c.isDigit)
    (hne : int ≠ []) (ha : int.length ≤ a) (hfrac : ∀ c ∈ frac, c.isDigit)
    (hb : frac.length ≤ b) :
    read a b (int ++ if frac = [] then [] else '.' :: frac) = some (value int frac) := by
  have hpos : 1 ≤ int.length := List.length_pos_of_ne_nil hne
  by_cases hf : frac = []
  · subst hf
    have htake : int.takeWhile Char.isDigit = int := List.takeWhile_eq_self_iff.mpr hint
    have hdrop : int.dropWhile Char.isDigit = [] := List.dropWhile_eq_nil_iff.mpr hint
    simp [read, htake, hdrop, hpos, ha]
  · have hdot : ('.' : Char).isDigit = false := rfl
    have htake : (int ++ '.' :: frac).takeWhile Char.isDigit = int := by
      rw [List.takeWhile_append_of_pos hint, List.takeWhile_cons_of_neg (by simp [hdot]),
        List.append_nil]
    have hdrop : (int ++ '.' :: frac).dropWhile Char.isDigit = '.' :: frac := by
      rw [List.dropWhile_append_of_pos hint, List.dropWhile_cons_of_neg (by simp [hdot])]
    have hlen : 1 ≤ frac.length := List.length_pos_of_ne_nil hf
    have hall : frac.all Char.isDigit := List.all_eq_true.mpr hfrac
    simp [read, hf, htake, hdrop, hpos, ha, hlen, hb, hall]

/-- **Reading the text of `n / 10 ^ s` gives the number back.** -/
theorem read_text {a s n : Nat} (ha : 0 < a) (hn : n < 10 ^ (a + s)) :
    read a s (text s n) = some (n / 10 ^ s : ℚ) := by
  have hlow : n % 10 ^ s < 10 ^ s := Nat.mod_lt n (Nat.pow_pos (by decide))
  have hhigh : n / 10 ^ s < 10 ^ a :=
    Nat.div_lt_of_lt_mul (by rwa [← pow_add, Nat.add_comm])
  have hfrac : ∀ c ∈ stripZeros (fixed s (n % 10 ^ s)), c.isDigit := fun c hc =>
    isDigit_of_mem_stripZeros (fun _ h => isDigit_of_mem_fixed h) hc
  have hint : ∀ c ∈ Nat.toDigits 10 (n / 10 ^ s), c.isDigit := fun c hc =>
    Nat.isDigit_of_mem_toDigits (by decide) le_rfl hc
  rw [text, read_digits hint Nat.toDigits_ne_nil
      ((Nat.length_toDigits_le_iff (by decide) ha).mpr hhigh)
    hfrac ((length_stripZeros_le _).trans_eq (length_fixed _ _)), value_stripZeros, value,
    Nat.ofDigitChars_ten_toDigits, ofDigitChars_fixed hlow, length_fixed]
  congr 1
  have hsplit : (n : ℚ) = (n / 10 ^ s : Nat) * 10 ^ s + (n % 10 ^ s : Nat) := by
    exact_mod_cast (Nat.div_add_mod' n (10 ^ s)).symm
  rw [hsplit]
  field_simp

/-! ### What can be read -/

lemma ofDigitChars_lt {cs : List Char} (h : ∀ c ∈ cs, c.isDigit) :
    Nat.ofDigitChars 10 cs 0 < 10 ^ cs.length := by
  induction cs with
  | nil => exact Nat.one_pos
  | cons c cs ih =>
      have hc : c.toNat - '0'.toNat ≤ 9 := by
        have hle : c.toNat ≤ 57 := (Char.isDigit_iff_toNat.mp (h c List.mem_cons_self)).2
        have h0 : '0'.toNat = 48 := rfl
        omega
      have hcs := ih fun d hd => h d (List.mem_cons_of_mem _ hd)
      rw [Nat.ofDigitChars_cons, Nat.ofDigitChars_eq_ofDigitChars_zero, List.length_cons, pow_succ]
      have hmul : 10 ^ cs.length * (10 * 0 + (c.toNat - '0'.toNat)) ≤ 10 ^ cs.length * 9 :=
        Nat.mul_le_mul_left _ (by omega)
      omega

/-- What is read is a multiple of `1 / 10 ^ b` with at most `a` integer
digits. -/
theorem exists_of_read_eq_some {a b : Nat} {cs : List Char} {q : ℚ} (h : read a b cs = some q) :
    ∃ n : Nat, n < 10 ^ (a + b) ∧ q = n / 10 ^ b := by
  have key : ∀ int frac : List Char, (∀ c ∈ int, c.isDigit) → int.length ≤ a →
      (∀ c ∈ frac, c.isDigit) → frac.length ≤ b →
      ∃ n : Nat, n < 10 ^ (a + b) ∧ value int frac = n / 10 ^ b := by
    intro int frac hint ha hfrac hb
    refine ⟨Nat.ofDigitChars 10 int 0 * 10 ^ b +
      Nat.ofDigitChars 10 frac 0 * 10 ^ (b - frac.length), ?_, ?_⟩
    · have hi : Nat.ofDigitChars 10 int 0 + 1 ≤ 10 ^ a :=
        (ofDigitChars_lt hint).trans_le (Nat.pow_le_pow_right (by decide) ha)
      have hf : Nat.ofDigitChars 10 frac 0 * 10 ^ (b - frac.length) < 10 ^ b := by
        calc Nat.ofDigitChars 10 frac 0 * 10 ^ (b - frac.length)
            < 10 ^ frac.length * 10 ^ (b - frac.length) :=
              Nat.mul_lt_mul_of_pos_right (ofDigitChars_lt hfrac) (Nat.pow_pos (by decide))
          _ = 10 ^ b := by rw [← pow_add, Nat.add_sub_cancel' hb]
      calc Nat.ofDigitChars 10 int 0 * 10 ^ b +
            Nat.ofDigitChars 10 frac 0 * 10 ^ (b - frac.length)
          < Nat.ofDigitChars 10 int 0 * 10 ^ b + 10 ^ b := by omega
        _ = (Nat.ofDigitChars 10 int 0 + 1) * 10 ^ b := by ring
        _ ≤ 10 ^ a * 10 ^ b := Nat.mul_le_mul_right _ hi
        _ = 10 ^ (a + b) := (pow_add 10 a b).symm
    · have hpow : (10 : ℚ) ^ b = 10 ^ frac.length * 10 ^ (b - frac.length) := by
        rw [← pow_add, Nat.add_sub_cancel' hb]
      rw [value, hpow]
      push_cast
      rw [hpow]
      field_simp
  unfold read at h
  dsimp only at h
  split at h
  · rename_i hint
    have hdig : ∀ c ∈ cs.takeWhile Char.isDigit, c.isDigit := fun c hc =>
      List.mem_takeWhile_imp hc
    split at h
    · cases h
      exact key _ _ hdig hint.2 (fun c hc => by cases hc) (Nat.zero_le b)
    · split at h
      · rename_i hfrac
        cases h
        exact key _ _ hdig hint.2 (List.all_eq_true.mp hfrac.2.2.2) hfrac.2.2.1
      · cases h
  · cases h

end Decimal
