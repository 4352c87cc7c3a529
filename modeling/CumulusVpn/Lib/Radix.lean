/-
Numbers written in another base, their leading zeros kept one by one.

* `value`: the number of a list of digits, the first one most significant;
* `convert`: the digits in another base, behind as many zeros;
* `convert_convert`: **the way back gives the digits**;
* `length_convert`: how many digits that takes;
* `exists_digits_eq_cons`: the first digit of a number between two powers;
* `Base58`: bytes in base 58; `Base58.decode_encode`, `Base58.encode_of_decode`:
  **texts and bytes correspond**.
-/
import Mathlib.Data.Bool.AllAny
import Mathlib.Data.List.TakeWhile
import Mathlib.Data.Nat.Digits.Lemmas

namespace Radix

variable {a b : Nat}

/-- The number of the digits in base `b`, the first one most significant. -/
def value (b : Nat) (ds : List Nat) : Nat := Nat.ofDigits b ds.reverse

/-- The digits of a number, the first one most significant. -/
def digits (b n : Nat) : List Nat := (Nat.digits b n).reverse

/-- Digits in base `a` as digits in base `b`; a leading zero stays one. -/
def convert (a b : Nat) (ds : List Nat) : List Nat :=
  ds.takeWhile (· = 0) ++ digits b (value a (ds.dropWhile (· = 0)))

lemma value_cons (b d : Nat) (ds : List Nat) :
    value b (d :: ds) = b ^ ds.length * d + value b ds := by
  rw [value, Nat.ofDigits_reverse_cons, value, Nat.add_comm]

lemma value_lt (hb : 1 < b) {ds : List Nat} (h : ∀ d ∈ ds, d < b) : value b ds < b ^ ds.length := by
  rw [value, ← List.length_reverse]
  exact Nat.ofDigits_lt_base_pow_length hb fun d hd => h d (List.mem_reverse.mp hd)

@[simp] lemma value_digits (b n : Nat) : value b (digits b n) = n := by
  rw [value, digits, List.reverse_reverse, Nat.ofDigits_digits]

lemma lt_of_mem_digits (hb : 1 < b) {n d : Nat} (hd : d ∈ digits b n) : d < b :=
  Nat.digits_lt_base hb (List.mem_reverse.mp hd)

/-- No number is written with a leading zero. -/
lemma head?_digits_ne_zero (b n : Nat) : (digits b n).head? ≠ some 0 := by
  rw [digits, List.head?_reverse]
  by_cases hn : n = 0
  · rw [hn, Nat.digits_zero]
    exact nofun
  · rw [List.getLast?_eq_some_getLast (Nat.digits_ne_nil_iff_ne_zero.mpr hn)]
    exact fun h => Nat.getLast_digit_ne_zero b hn (Option.some.inj h)

/-- Digits without a leading zero are those of their number. -/
lemma digits_value (hb : 1 < b) {ds : List Nat} (h : ∀ d ∈ ds, d < b) (hhead : ds.head? ≠ some 0) :
    digits b (value b ds) = ds := by
  rw [digits, value, Nat.digits_ofDigits b hb, List.reverse_reverse]
  · exact fun d hd => h d (List.mem_reverse.mp hd)
  · intro hne hzero
    refine hhead ?_
    rw [List.getLast_reverse] at hzero
    rw [List.head?_eq_some_head (fun hnil => hne (List.reverse_eq_nil_iff.mpr hnil)), hzero]

section Zeros

variable {zs ds : List Nat}

lemma takeWhile_append (hz : ∀ d ∈ zs, d = 0) (hhead : ds.head? ≠ some 0) :
    (zs ++ ds).takeWhile (· = 0) = zs ∧ (zs ++ ds).dropWhile (· = 0) = ds := by
  have hzeros : ∀ d ∈ zs, decide (d = 0) = true := fun d hd => decide_eq_true (hz d hd)
  have hstop : ds.takeWhile (· = 0) = [] ∧ ds.dropWhile (· = 0) = ds := by
    cases ds with
    | nil => exact ⟨rfl, rfl⟩
    | cons d ds =>
        have hd : ¬ decide (d = 0) = true := fun h =>
          hhead (congrArg some (of_decide_eq_true h))
        exact ⟨List.takeWhile_cons_of_neg hd, List.dropWhile_cons_of_neg hd⟩
  rw [List.takeWhile_append_of_pos hzeros, List.dropWhile_append_of_pos hzeros, hstop.1, hstop.2,
    List.append_nil]
  exact ⟨rfl, rfl⟩

lemma head?_dropWhile_ne_zero (ds : List Nat) : (ds.dropWhile (· = 0)).head? ≠ some 0 := by
  intro h
  have hnot := List.head?_dropWhile_not (fun d : Nat => decide (d = 0)) ds
  rw [h] at hnot
  exact absurd hnot (by decide)

lemma eq_zero_of_mem_takeWhile {d : Nat} (h : d ∈ ds.takeWhile (· = 0)) : d = 0 :=
  by simpa using List.mem_takeWhile_imp h

end Zeros

lemma lt_of_mem_convert (hb : 1 < b) {ds : List Nat} {d : Nat} (hd : d ∈ convert a b ds) :
    d < b := by
  cases List.mem_append.mp hd with
  | inl hzero =>
      rw [eq_zero_of_mem_takeWhile hzero]
      omega
  | inr hdigit => exact lt_of_mem_digits hb hdigit

/-- **The way back gives the digits.** -/
theorem convert_convert (ha : 1 < a) {ds : List Nat} (h : ∀ d ∈ ds, d < a) :
    convert b a (convert a b ds) = ds := by
  obtain ⟨htake, hdrop⟩ := takeWhile_append
    (fun d hd => eq_zero_of_mem_takeWhile hd : ∀ d ∈ ds.takeWhile (· = 0), d = 0)
    (head?_digits_ne_zero b (value a (ds.dropWhile (· = 0))))
  calc convert b a (convert a b ds)
      = ds.takeWhile (· = 0) ++ digits a (value b (digits b (value a (ds.dropWhile (· = 0))))) := by
        rw [convert, convert, htake, hdrop]
    _ = ds.takeWhile (· = 0) ++ ds.dropWhile (· = 0) := by
        rw [value_digits, digits_value ha _ (head?_dropWhile_ne_zero ds)]
        exact fun d hd => h d ((List.dropWhile_sublist _).mem hd)
    _ = ds := List.takeWhile_append_dropWhile

/-- A smaller base takes at least as many digits, and with `a ≤ b ^ 2` at most
twice as many. -/
theorem length_convert (hb : 1 < b) (hba : b ≤ a) (hab : a ≤ b ^ 2) {ds : List Nat}
    (h : ∀ d ∈ ds, d < a) :
    ds.length ≤ (convert a b ds).length ∧ (convert a b ds).length ≤ 2 * ds.length := by
  have hsplit : (ds.takeWhile (· = 0)).length + (ds.dropWhile (· = 0)).length = ds.length := by
    rw [← List.length_append, List.takeWhile_append_dropWhile]
  have hrest : ∀ d ∈ ds.dropWhile (· = 0), d < a := fun d hd =>
    h d ((List.dropWhile_sublist _).mem hd)
  have hlow : (ds.dropWhile (· = 0)).length ≤
      (digits b (value a (ds.dropWhile (· = 0)))).length := by
    cases hdrop : ds.dropWhile (· = 0) with
    | nil => exact Nat.zero_le _
    | cons d rest =>
        have hd : 1 ≤ d := Nat.one_le_iff_ne_zero.mpr fun hzero =>
          head?_dropWhile_ne_zero ds (by rw [hdrop, hzero]; rfl)
        have hpow : b ^ rest.length ≤ value a (d :: rest) := by
          rw [value_cons]
          calc b ^ rest.length ≤ a ^ rest.length := Nat.pow_le_pow_left hba _
            _ ≤ a ^ rest.length * d := Nat.le_mul_of_pos_right _ hd
            _ ≤ a ^ rest.length * d + value a rest := Nat.le_add_right _ _
        rw [digits, List.length_reverse]
        exact (Nat.lt_digits_length_iff hb _).mpr hpow
  have hhigh : (digits b (value a (ds.dropWhile (· = 0)))).length ≤
      2 * (ds.dropWhile (· = 0)).length := by
    rw [digits, List.length_reverse]
    refine (Nat.digits_length_le_iff hb _).mpr ?_
    calc value a (ds.dropWhile (· = 0)) < a ^ (ds.dropWhile (· = 0)).length :=
          value_lt (hb.trans_le hba) hrest
      _ ≤ (b ^ 2) ^ (ds.dropWhile (· = 0)).length := Nat.pow_le_pow_left hab _
      _ = b ^ (2 * (ds.dropWhile (· = 0)).length) := (pow_mul b 2 _).symm
  rw [convert, List.length_append]
  omega

/-- The first of `k + 1` digits of a number. -/
theorem exists_digits_eq_cons (hb : 1 < b) {n k : Nat} (hlo : b ^ k ≤ n) (hhi : n < b ^ (k + 1)) :
    ∃ d ds, digits b n = d :: ds ∧ ds.length = k ∧ b ^ k * d ≤ n := by
  have hlength : (digits b n).length = k + 1 := by
    have hle := (Nat.digits_length_le_iff hb n).mpr hhi
    have hlt := (Nat.lt_digits_length_iff hb n).mpr hlo
    rw [digits, List.length_reverse]
    omega
  obtain ⟨d, ds, hds⟩ := List.exists_cons_of_length_eq_add_one hlength
  have hk : ds.length = k := by
    rw [hds, List.length_cons] at hlength
    omega
  have hvalue := value_cons b d ds
  rw [← hds, value_digits, hk] at hvalue
  exact ⟨d, ds, hds, hk, hvalue ▸ Nat.le_add_right _ _⟩

end Radix

namespace Base58

/-- The digits of base 58, in order. -/
def alphabet : List Char :=
  "123456789ABCDEFGHJKLMNPQRSTUVWXYZabcdefghijkmnopqrstuvwxyz".toList

/-- The letter of a digit. -/
def digitChar (d : Nat) : Char := alphabet.getD d '1'

/-- The digit of a letter. -/
def digitOf (c : Char) : Option Nat := alphabet.idxOf? c

/-- The text of the bytes. -/
def encode (bytes : List UInt8) : List Char :=
  (Radix.convert 256 58 (bytes.map UInt8.toNat)).map digitChar

/-- The bytes of a text; none where a letter is no digit. -/
def decode (cs : List Char) : Option (List UInt8) :=
  (cs.mapM digitOf).map fun ds => (Radix.convert 58 256 ds).map UInt8.ofNat

lemma digitOf_digitChar : ∀ d < 58, digitOf (digitChar d) = some d := by decide

lemma digitChar_mem : ∀ d < 58, digitChar d ∈ alphabet := by decide

lemma digitChar_digitOf {c : Char} {d : Nat} (h : digitOf c = some d) :
    d < 58 ∧ digitChar d = c := by
  have hread : ∀ c ∈ alphabet, ∀ d ∈ digitOf c, d < 58 ∧ digitChar d = c :=
    List.all_iff_forall_prop.mp (by decide)
  refine hread c ?_ d h
  by_contra hnot
  rw [digitOf, List.idxOf?_eq_none_iff.mpr hnot] at h
  cases h

lemma mapM_digitOf {ds : List Nat} (h : ∀ d ∈ ds, d < 58) :
    (ds.map digitChar).mapM digitOf = some ds := by
  induction ds with
  | nil => rfl
  | cons d ds ih =>
      obtain ⟨hd, hds⟩ := List.forall_mem_cons.mp h
      rw [List.map_cons, List.mapM_cons, digitOf_digitChar d hd, ih hds]
      rfl

lemma of_mapM_digitOf {cs : List Char} {ds : List Nat} (h : cs.mapM digitOf = some ds) :
    (∀ d ∈ ds, d < 58) ∧ ds.map digitChar = cs := by
  induction cs generalizing ds with
  | nil =>
      cases h
      exact ⟨nofun, rfl⟩
  | cons c cs ih =>
      rw [List.mapM_cons] at h
      simp only [Option.bind_eq_bind, Option.bind_eq_some_iff] at h
      obtain ⟨d, hd, ds', hds, heq⟩ := h
      cases heq
      obtain ⟨hlt, hchar⟩ := digitChar_digitOf hd
      obtain ⟨hall, hmap⟩ := ih hds
      exact ⟨List.forall_mem_cons.mpr ⟨hlt, hall⟩, by rw [List.map_cons, hchar, hmap]⟩

lemma map_ofNat_toNat (bytes : List UInt8) : (bytes.map UInt8.toNat).map UInt8.ofNat = bytes := by
  rw [List.map_map]
  exact (List.map_congr_left fun a _ => UInt8.ofNat_toNat).trans (List.map_id bytes)

lemma map_toNat_ofNat {ns : List Nat} (h : ∀ n ∈ ns, n < 256) :
    (ns.map UInt8.ofNat).map UInt8.toNat = ns := by
  rw [List.map_map]
  refine (List.map_congr_left fun n hn => ?_).trans (List.map_id ns)
  exact UInt8.toNat_ofNat_of_lt' (h n hn)

theorem decode_encode (bytes : List UInt8) : decode (encode bytes) = some bytes := by
  have hbytes : ∀ n ∈ bytes.map UInt8.toNat, n < 256 := fun n hn => by
    obtain ⟨a, -, rfl⟩ := List.mem_map.mp hn
    exact a.toNat_lt
  rw [decode, encode, mapM_digitOf fun d hd => Radix.lt_of_mem_convert (by decide) hd,
    Option.map_some, Radix.convert_convert (by decide) hbytes, map_ofNat_toNat]

/-- A byte takes one or two characters. -/
theorem length_encode (bytes : List UInt8) :
    bytes.length ≤ (encode bytes).length ∧ (encode bytes).length ≤ 2 * bytes.length := by
  have hbytes : ∀ n ∈ bytes.map UInt8.toNat, n < 256 := fun n hn => by
    obtain ⟨a, -, rfl⟩ := List.mem_map.mp hn
    exact a.toNat_lt
  have hlength :=
    Radix.length_convert (a := 256) (b := 58) (by decide) (by decide) (by decide) hbytes
  rw [encode, List.length_map]
  rwa [List.length_map] at hlength

theorem encode_of_decode {cs : List Char} {bytes : List UInt8} (h : decode cs = some bytes) :
    encode bytes = cs := by
  obtain ⟨ds, hds, rfl⟩ := Option.map_eq_some_iff.mp h
  obtain ⟨hlt, hchars⟩ := of_mapM_digitOf hds
  rw [encode, map_toNat_ofNat fun n hn => Radix.lt_of_mem_convert (by decide) hn,
    Radix.convert_convert (by decide) hlt, hchars]

lemma mem_alphabet_of_mem_encode {bytes : List UInt8} {c : Char} (h : c ∈ encode bytes) :
    c ∈ alphabet := by
  obtain ⟨d, hd, rfl⟩ := List.mem_map.mp h
  exact digitChar_mem d (Radix.lt_of_mem_convert (by decide) hd)

end Base58
