/-
The encoder of domain rules is that of RFC 3492
(`clients/core-ts/src/split.ts`).

* `rfc3492`: the parameters of Punycode;
* `Refines`: the encoder of the source beside that of the RFC, which fails
  where `delta` has more than 31 bits;
* `length_le_punycodeEncode`: a label is no longer than its punycode;
* `punycodeEncode_rfc3492`: **the punycode of a label that fits is the one of
  the RFC**, is decoded to the label, and takes no number that is not exact.
-/
import CumulusVpn.Lib.Bootstring
import CumulusVpn.Split.Policy

namespace CumulusVpn.Split

/-! ### The parameters -/

/-- The parameters of section 5, with the digits in lower case; those in upper
case are read as well. -/
def rfc3492 : Bootstring.Params where
  base := 36
  tmin := 1
  tmax := 26
  skew := 38
  damp := 700
  initialBias := 72
  initialN := 0x80
  delimiter := 0x2d
  digit d := if d < 26 then d + 0x61 else d - 26 + 0x30
  value c :=
    if 0x61 ≤ c ∧ c ≤ 0x7a then some (c - 0x61)
    else if 0x41 ≤ c ∧ c ≤ 0x5a then some (c - 0x41)
    else if 0x30 ≤ c ∧ c ≤ 0x39 then some (c - 0x30 + 26)
    else none
  tmin_pos := by decide
  tmin_le := by decide
  tmax_lt := by decide
  tmin_lt := by decide
  value_digit := by decide
  value_delimiter := by decide

/-- The code points of a text. -/
def codes (text : List Char) : List Nat := text.map Char.toNat

namespace Punycode

/-! ### The bias -/

lemma shiftRight_eq {x : Nat} (h : x < 2 ^ 31) : shiftRight x = (x / 2 : Nat) := by
  have hx : (BitVec.ofNat 32 x).toInt = x := by
    rw [BitVec.toInt_eq_toNat_of_lt, BitVec.toNat_ofNat]
    · omega
    · rw [BitVec.toNat_ofNat]
      omega
  rw [shiftRight, BitVec.toInt_sshiftRight, hx, Int.shiftRight_eq_div_pow]
  omega

lemma adaptLoop_eq (d : Nat) : ∀ k, adaptLoop d k =
    (((Bootstring.adaptLoop rfc3492 d k).1 : Int), (Bootstring.adaptLoop rfc3492 d k).2) := by
  have hlimit : ((36 - 1) * 26) >>> 1 = 455 := rfl
  have hlimit' : (rfc3492.base - rfc3492.tmin) * rfc3492.tmax / 2 = 455 := rfl
  have hcut : rfc3492.base - rfc3492.tmin = 35 := rfl
  induction d using Nat.strong_induction_on with
  | _ d ih =>
    intro k
    rw [adaptLoop, Bootstring.adaptLoop, hlimit, hlimit', hcut]
    by_cases hd : d > 455
    · rw [if_pos (by omega), if_pos hd]
      exact ih (d / 35) (by omega) (k + 36)
    · rw [if_neg (by omega), if_neg hd]

/-- What `adapt` begins with, in the source and in the RFC. -/
lemma exists_first {delta : Nat} (h : delta < 2 ^ 31) (firstTime : Bool) : ∃ d ≤ delta,
    (if firstTime then (delta : Int) / 700 else shiftRight delta) = d ∧
      (if firstTime then delta / rfc3492.damp else delta / 2) = d := by
  cases firstTime with
  | true => exact ⟨delta / 700, Nat.div_le_self _ _, rfl, rfl⟩
  | false => exact ⟨delta / 2, Nat.div_le_self _ _, shiftRight_eq h, rfl⟩

/-- The bias is adapted as in the RFC where the shift keeps every bit. -/
lemma adapt_eq {delta : Nat} (h : delta < 2 ^ 31) (numPoints : Nat) (firstTime : Bool) :
    adapt delta numPoints firstTime = Bootstring.adapt rfc3492 delta numPoints firstTime := by
  obtain ⟨d, -, hd, hd'⟩ := exists_first h firstTime
  have hsum : (d : Int) + d / numPoints = (d + d / numPoints : Nat) := by push_cast; rfl
  rw [adapt, Bootstring.adapt, hd, hd', hsum, adaptLoop_eq]
  simp only
  rw [Int.fdiv_eq_ediv_of_nonneg _ (by omega)]
  push_cast
  rfl

/-! ### The digits -/

lemma toNat_digit : ∀ d < 36, (digit d).toNat = rfc3492.digit d := by decide

lemma threshold_eq (bias k : Nat) : threshold bias k = Bootstring.threshold rfc3492 bias k := by
  have hmin : rfc3492.tmin = 1 := rfl
  have hmax : rfc3492.tmax = 26 := rfl
  rw [threshold, Bootstring.threshold, hmin, hmax]
  by_cases hlow : k ≤ bias
  · rw [if_pos (by omega), if_pos hlow]
  · rw [if_neg (by omega), if_neg hlow]
    by_cases hhigh : k ≥ bias + 26
    · rw [if_pos (by omega), if_pos hhigh]
    · rw [if_neg (by omega), if_neg hhigh]
      omega

lemma codes_digits (bias : Nat) (q : Nat) : ∀ k,
    codes (digits bias q k) = Bootstring.digits rfc3492 bias q k := by
  have hbase : rfc3492.base = 36 := rfl
  induction q using Nat.strong_induction_on with
  | _ q ih =>
    intro k
    have hpos := threshold_pos bias k
    have hle := threshold_le bias k
    rw [digits, Bootstring.digits, ← threshold_eq, hbase]
    split
    · rw [codes, List.map_singleton, toNat_digit q (by omega)]
    · rename_i hq
      have hmod := Nat.mod_lt (q - threshold bias k) (Nat.sub_pos_of_lt (Nat.lt_of_le_of_lt hle
        (by omega : 26 < 36)))
      rw [codes, List.map_cons, toNat_digit _ (by omega), ← ih _ (rest_lt hq)]
      rfl

/-! ### The numbers are exact -/

/-- All of the numbers are exact. -/
def AllExact (numbers : List Number) : Prop := ∀ x ∈ numbers, x.Exact

@[simp] lemma allExact_nil : AllExact [] := fun _ hx => absurd hx List.not_mem_nil

@[simp] lemma allExact_result {x : Int} {numbers : List Number} :
    AllExact (.result x :: numbers) ↔
      (-(2 ^ 53 - 1) ≤ x ∧ x ≤ 2 ^ 53 - 1) ∧ AllExact numbers := List.forall_mem_cons

@[simp] lemma allExact_shifted {x : Int} {numbers : List Number} :
    AllExact (.shifted x :: numbers) ↔ (0 ≤ x ∧ x < 2 ^ 31) ∧ AllExact numbers :=
  List.forall_mem_cons

@[simp] lemma allExact_append {xs ys : List Number} :
    AllExact (xs ++ ys) ↔ AllExact xs ∧ AllExact ys := List.forall_mem_append

lemma exact_thresholdNumbers {bias : Int} (hbias : 0 ≤ bias ∧ bias ≤ 2 ^ 40) (k : Nat) :
    AllExact (thresholdNumbers bias k) := by
  rw [thresholdNumbers]
  split
  · exact allExact_nil
  · split
    · simp only [allExact_result, allExact_nil, and_true]
      omega
    · simp only [allExact_result, allExact_nil, and_true]
      omega

/-- The numbers of a digit loop, whose `k` grows while `q` falls. -/
lemma exact_digitsNumbers {bias : Int} (hbias : 0 ≤ bias ∧ bias ≤ 2 ^ 40) (q : Nat) :
    ∀ {k : Nat}, k + 36 * q ≤ 2 ^ 40 → AllExact (digitsNumbers bias q k) := by
  induction q using Nat.strong_induction_on with
  | _ q ih =>
    intro k hk
    have hpos := threshold_pos bias k
    have hle := threshold_le bias k
    have hthreshold := exact_thresholdNumbers hbias k
    rw [digitsNumbers]
    split
    · exact hthreshold
    · rename_i hq
      have hlt := rest_lt hq
      have hnext := ih _ hlt (by omega : k + 36 + 36 * _ ≤ 2 ^ 40)
      generalize threshold bias k = t at *
      have hmod : 0 ≤ ((q : Int) - t) % (36 - t) ∧ ((q : Int) - t) % (36 - t) < 36 - t :=
        ⟨Int.emod_nonneg _ (by omega), Int.emod_lt_of_pos _ (by omega)⟩
      have hdiv : 0 ≤ ((q : Int) - t) / (36 - t) ∧ ((q : Int) - t) / (36 - t) ≤ q - t :=
        ⟨Int.ediv_nonneg (by omega) (by omega), Int.ediv_le_self _ (by omega)⟩
      simp only [allExact_append, allExact_result, allExact_nil, and_true]
      refine ⟨⟨hthreshold, ?_⟩, hnext⟩
      omega

lemma exact_adaptLoopNumbers (d : Nat) : ∀ {k : Nat}, k + 36 * d ≤ 2 ^ 40 →
    AllExact (adaptLoopNumbers d k) := by
  induction d using Nat.strong_induction_on with
  | _ d ih =>
    intro k hk
    rw [adaptLoopNumbers]
    split
    · rename_i hd
      have hnext := ih (d / 35) (by omega) (by omega : k + 36 + 36 * (d / 35) ≤ 2 ^ 40)
      simp only [allExact_append, allExact_result, allExact_nil, and_true]
      refine ⟨?_, hnext⟩
      omega
    · exact allExact_nil

lemma exact_adaptNumbers {delta : Nat} (h : delta < 2 ^ 31) (numPoints : Nat) (firstTime : Bool) :
    AllExact (adaptNumbers delta numPoints firstTime) := by
  obtain ⟨d, hle, hd, -⟩ := exists_first h firstTime
  have hquotient : d / numPoints ≤ d := Nat.div_le_self _ _
  have hquotient' : (d : Int) / numPoints = (d / numPoints : Nat) := by push_cast; rfl
  have hsum : (d : Int) + d / numPoints = (d + d / numPoints : Nat) := by push_cast; rfl
  have hlast := (Bootstring.adaptLoop_le rfc3492 (d + d / numPoints) 0).1
  have hbase : rfc3492.base = 36 := rfl
  have hadapt := Bootstring.adapt_le rfc3492 delta numPoints firstTime
  have hloop := exact_adaptLoopNumbers (d + d / numPoints) (k := 0) (by omega)
  have hoperand : AllExact (if firstTime then [] else [.shifted (delta : Int)]) := by
    split
    · exact allExact_nil
    · simp only [allExact_shifted, allExact_nil, and_true]
      omega
  rw [adaptNumbers, adapt_eq h, hd, hsum, hquotient', adaptLoop_eq]
  generalize (Bootstring.adaptLoop rfc3492 (d + d / numPoints) 0).1 = last at hlast ⊢
  have hfdiv : ((36 - 1 + 1) * (last : Int)).fdiv (last + 38) =
      ((36 * last / (last + 38) : Nat) : Int) := by
    rw [Int.fdiv_eq_ediv_of_nonneg _ (by omega)]
    push_cast
    rfl
  have hfraction : 36 * last / (last + 38) ≤ 36 * last := Nat.div_le_self _ _
  generalize 36 * last / (last + 38) = fraction at hfdiv hfraction
  rw [hbase] at hadapt
  simp only [allExact_append, allExact_result, allExact_nil, and_true, hfdiv]
  refine ⟨⟨⟨hoperand, ?_⟩, hloop⟩, ?_⟩
  · omega
  · omega

/-! ### Beside the encoder of the RFC -/

/-- The variables of the two encoders, while the bias is small. -/
structure Refines (s : State) (S : Bootstring.Encoder) : Prop where
  output : codes s.output = S.output
  delta : s.delta = S.delta
  bias : s.bias = S.bias
  bias_le : S.bias ≤ 2 ^ 40
  handled : s.handled = S.handled

section Refines

variable {maxint basic m n c : Nat} {s : State} {S S' : Bootstring.Encoder} {cps rest : List Nat}

/-- `delta` alone is counted on. -/
lemma Refines.count (h : Refines s S) (k : Nat) :
    Refines { s with delta := s.delta + k } { S with delta := S.delta + k } :=
  { h with delta := congrArg (· + k) h.delta }

/-- One visit: the two encoders do the same. -/
lemma Refines.visit (hmax : maxint < 2 ^ 31) (h : Refines s S) (hdelta : S.delta ≤ maxint)
    (hhandled : S.handled < 2 ^ 52)
    (hvisit : Bootstring.visit rfc3492 maxint basic n S c = some S') :
    Refines (visit n basic s c) S' ∧ S'.delta ≤ maxint ∧ S'.handled ≤ S.handled + 1 ∧
      AllExact (visitNumbers n basic s c) := by
  have hd := h.delta
  have hh := h.handled
  rw [Punycode.visit, visitNumbers]
  obtain ⟨hc, hle, rfl⟩ | ⟨rfl, rfl⟩ | ⟨hc, rfl⟩ := Bootstring.visit_cases hvisit
  · simp only [if_pos hc, if_neg hc.ne]
    refine ⟨h.count 1, hle, Nat.le_succ _, ?_⟩
    simp only [allExact_result, allExact_nil, and_true]
    omega
  · have hbias := h.bias_le
    have hadapt := Bootstring.adapt_le rfc3492 S.delta (S.handled + 1) (S.handled = basic)
    have hbase : rfc3492.base = 36 := rfl
    have hdigits : AllExact (digitsNumbers S.bias S.delta 36) :=
      exact_digitsNumbers (by omega) S.delta (by omega)
    have hnumbers := exact_adaptNumbers (by omega : S.delta < 2 ^ 31) (S.handled + 1)
      (S.handled = basic)
    simp only [if_neg (Nat.lt_irrefl c), if_true, h.bias, hd, hh]
    refine ⟨⟨?_, rfl, adapt_eq (by omega) _ _, ?_, rfl⟩, Nat.zero_le _, le_rfl, ?_⟩
    · rw [codes, List.map_append, hbase, ← codes_digits, ← h.output]
      rfl
    · rw [hbase] at hadapt
      simp only
      omega
    · simp only [allExact_append, allExact_result, allExact_nil, and_true]
      refine ⟨⟨hdigits, ?_⟩, hnumbers⟩
      omega
  · have hlt : ¬ c < n := by omega
    simp only [if_neg hlt, if_neg hc.ne']
    exact ⟨h, hdelta, Nat.le_succ _, allExact_nil⟩

/-- The visits of a round. -/
lemma Refines.foldlM (hmax : maxint < 2 ^ 31) (h : Refines s S) (hdelta : S.delta ≤ maxint)
    (hhandled : S.handled + rest.length ≤ 2 ^ 52)
    (hvisits : rest.foldlM (Bootstring.visit rfc3492 maxint basic n) S = some S') :
    Refines (rest.foldl (Punycode.visit n basic) s) S' ∧ S'.delta ≤ maxint ∧
      AllExact (roundNumbers n basic s rest) := by
  induction rest generalizing s S with
  | nil =>
      cases hvisits
      exact ⟨h, hdelta, allExact_nil⟩
  | cons c rest ih =>
      rw [List.foldlM_cons] at hvisits
      rw [List.length_cons] at hhandled
      obtain ⟨S₁, hvisit, hvisits⟩ := Option.bind_eq_some_iff.mp hvisits
      obtain ⟨h₁, hdelta₁, hhandled₁, hnumbers⟩ := h.visit hmax hdelta (by omega) hvisit
      obtain ⟨h', hdelta', hnumbers'⟩ := ih h₁ hdelta₁ (by omega) hvisits
      exact ⟨h', hdelta', allExact_append.mpr ⟨hnumbers, hnumbers'⟩⟩

lemma nextPoint_eq : nextPoint = Bootstring.nextPoint := rfl

lemma encodeLoop_stops (basic rounds n : Nat) (h : ¬ s.handled < cps.length) :
    encodeLoop cps basic rounds n s = s ∧ loopNumbers cps basic rounds n s = [] := by
  cases rounds with
  | zero => exact ⟨rfl, rfl⟩
  | succ rounds => exact ⟨by rw [encodeLoop, if_neg h], by rw [loopNumbers, if_neg h]⟩

/-- Where the encoder of the RFC fails nowhere, that of the source writes the
same, and all of its numbers are exact. -/
lemma Refines.encodeLoop {output : List Nat} (hmax : maxint < 2 ^ 31)
    (hlength : 2 * cps.length ≤ 2 ^ 52) (hpoints : ∀ c ∈ cps, c < 2 ^ 52) (rounds : Nat)
    (h : Refines s S)
    (hloop : Bootstring.encodeLoop rfc3492 maxint cps basic rounds n S = some output) :
    codes (encodeLoop cps basic rounds n s).output = output ∧
      AllExact (loopNumbers cps basic rounds n s) := by
  induction rounds using Nat.strong_induction_on generalizing n s S with
  | _ rounds ih =>
    have hh := h.handled
    obtain ⟨hhandled, rfl⟩ | ⟨more, m, S₁, rfl, hhandled, hm, hdelta, hvisits, hmore⟩ :=
      Bootstring.encodeLoop_cases hloop
    · obtain ⟨hstop, hnone⟩ := encodeLoop_stops basic rounds n (by rwa [hh])
      rw [hstop, hnone]
      exact ⟨h.output, allExact_nil⟩
    · obtain ⟨hmem, hle, -⟩ := Bootstring.nextPoint_eq_some hm
      have hpoint := hpoints m hmem
      obtain ⟨h₁, hdelta₁, hround⟩ := (h.count ((m - n) * (S.handled + 1))).foldlM hmax hdelta
        (by show S.handled + cps.length ≤ 2 ^ 52; omega) hvisits
      rw [← hh] at h₁ hround
      obtain ⟨houtput, hnumbers⟩ := ih more (Nat.lt_succ_self more) (h₁.count 1) hmore
      rw [Punycode.encodeLoop, loopNumbers, nextPoint_eq, if_pos (by rwa [hh]),
        if_pos (by rwa [hh]), hm]
      refine ⟨houtput, ?_⟩
      have hskipped : ((m : Int) - n) * (s.handled + 1) = ((m - n) * (S.handled + 1) : Nat) := by
        rw [Nat.cast_mul, Nat.cast_sub hle, hh]
        push_cast
        rfl
      simp only [allExact_append, allExact_result, allExact_nil, and_true, hskipped]
      refine ⟨⟨⟨?_, hround⟩, ?_⟩, hnumbers⟩
      · rw [h.delta, hh]
        omega
      · rw [h₁.delta]
        omega

end Refines

/-! ### The length of the punycode -/

section Length

variable {f m n c : Nat} {s : State} {cps : List Nat}

lemma digits_ne_nil (bias : Int) (q k : Nat) : digits bias q k ≠ [] := by
  rw [digits]
  split
  · exact List.cons_ne_nil _ _
  · exact List.cons_ne_nil _ _

/-- A code point is handled, and written with a digit at least, at its turn. -/
lemma visit_handled (h : s.handled ≤ s.output.length) :
    (visit m f s c).handled = s.handled + (if c = m then 1 else 0) ∧
      (visit m f s c).handled ≤ (visit m f s c).output.length := by
  rw [visit]
  rcases Nat.lt_trichotomy c m with hc | rfl | hc
  · simp only [if_pos hc, if_neg hc.ne]
    exact ⟨rfl, h⟩
  · have hdigits := List.length_pos_of_ne_nil (digits_ne_nil s.bias s.delta 36)
    simp only [if_neg (Nat.lt_irrefl c), if_true, List.length_append]
    exact ⟨trivial, by omega⟩
  · simp only [if_neg (not_lt_of_gt hc), if_neg hc.ne']
    exact ⟨rfl, h⟩

lemma foldl_handled (cs : List Nat) (h : s.handled ≤ s.output.length) :
    (cs.foldl (visit m f) s).handled = s.handled + cs.count m ∧
      (cs.foldl (visit m f) s).handled ≤ (cs.foldl (visit m f) s).output.length := by
  induction cs generalizing s with
  | nil => exact ⟨rfl, h⟩
  | cons c cs ih =>
      obtain ⟨hvisit, hle⟩ := visit_handled (m := m) (f := f) (c := c) h
      obtain ⟨hrest, hle'⟩ := ih hle
      refine ⟨?_, hle'⟩
      rw [List.foldl_cons, hrest, hvisit, List.count_cons]
      by_cases hc : c = m
      · simp [hc]
        omega
      · simp [hc]

lemma length_filter_succ (cps : List Nat) (m : Nat) :
    (cps.filter (· < m + 1)).length = (cps.filter (· < m)).length + cps.count m := by
  induction cps with
  | nil => rfl
  | cons c cs ih =>
      rw [List.count_cons]
      rcases Nat.lt_trichotomy c m with hc | rfl | hc
      · rw [List.filter_cons_of_pos (by simpa using hc.le),
          List.filter_cons_of_pos (by simpa using hc), List.length_cons, List.length_cons, ih,
          if_neg (by simpa using hc.ne)]
        omega
      · rw [List.filter_cons_of_pos (by simp), List.filter_cons_of_neg (by simp),
          List.length_cons, ih, if_pos (by simp)]
        omega
      · rw [List.filter_cons_of_neg (by simpa using hc),
          List.filter_cons_of_neg (by simpa using hc.le), ih, if_neg (by simpa using hc.ne'),
          Nat.add_zero]

/-- The rounds are enough for every code point. -/
lemma length_le_encodeLoop (rounds : Nat) (hbelow : s.handled = (cps.filter (· < n)).length)
    (hrounds : cps.length ≤ s.handled + rounds) (h : s.handled ≤ s.output.length) :
    cps.length ≤ (encodeLoop cps f rounds n s).output.length := by
  induction rounds generalizing n s with
  | zero =>
      rw [encodeLoop]
      omega
  | succ rounds ih =>
      rw [encodeLoop, nextPoint_eq]
      split
      · rename_i hhandled
        rw [hbelow] at hhandled
        obtain ⟨c, hc, hn⟩ := List.length_filter_lt_length_iff_exists.mp hhandled
        obtain ⟨m, hm⟩ := Bootstring.exists_nextPoint hc (by simpa using hn)
        have hmem := List.count_pos_iff.mpr (Bootstring.nextPoint_eq_some hm).1
        obtain ⟨hround, hle⟩ := foldl_handled (m := m) (f := f) cps
          (s := { s with delta := s.delta + (m - n) * (s.handled + 1) }) h
        have hbelow' : s.handled + cps.count m = (cps.filter (· < m + 1)).length := by
          rw [length_filter_succ, Bootstring.filter_lt_eq_of_nextPoint hm, hbelow]
        rw [hm]
        refine ih (hround.trans hbelow') ?_ hle
        show cps.length ≤ State.handled _ + rounds
        rw [hround]
        simp only
        omega
      · omega

end Length

end Punycode

/-- A label is no longer than its punycode. -/
lemma length_le_punycodeEncode (cps : List Nat) : cps.length ≤ (punycodeEncode cps).length := by
  refine Punycode.length_le_encodeLoop cps.length rfl (Nat.le_add_left _ _) ?_
  rw [Punycode.start, List.length_append, List.length_map]
  exact Nat.le_add_right _ _

/-! ### The punycode of a label -/

lemma toNat_ofNat : ∀ c < 0x80, (Char.ofNat c).toNat = c := by decide

lemma codes_start (cps : List Nat) : codes (Punycode.start cps).output =
    if Punycode.basic cps = [] then [] else Punycode.basic cps ++ [rfc3492.delimiter] := by
  have hbasic : ((Punycode.basic cps).map Char.ofNat).map Char.toNat = Punycode.basic cps := by
    rw [List.map_map]
    conv_rhs => rw [← List.map_id (Punycode.basic cps)]
    refine List.map_congr_left fun c hc => ?_
    exact toNat_ofNat c (by simpa using (List.mem_filter.mp hc).2)
  rw [codes, Punycode.start, List.map_append, hbasic]
  by_cases hnone : Punycode.basic cps = []
  · rw [if_pos hnone, hnone]
    rfl
  · rw [if_neg hnone, if_pos (List.length_pos_of_ne_nil hnone)]
    rfl

/-- Where no `delta` of the RFC has more than 31 bits, the punycode is that of
the RFC. -/
lemma codes_punycodeEncode {maxint : Nat} {cps output : List Nat} (hmax : maxint < 2 ^ 31)
    (hlength : 2 * cps.length ≤ 2 ^ 52) (hpoints : ∀ c ∈ cps, c < 2 ^ 52)
    (h : Bootstring.encode rfc3492 maxint cps = some output) :
    codes (punycodeEncode cps) = output ∧ Punycode.AllExact (punycodeNumbers cps) := by
  have hstart : Punycode.Refines (Punycode.start cps)
      ⟨if Punycode.basic cps = [] then [] else Punycode.basic cps ++ [rfc3492.delimiter], 0,
        rfc3492.initialBias, (Punycode.basic cps).length⟩ :=
    ⟨codes_start cps, rfl, rfl, (by decide : 72 ≤ 2 ^ 40), rfl⟩
  exact hstart.encodeLoop hmax hlength hpoints cps.length h

section Fits

variable {cps : List Nat}

/-- No number of the RFC's encoder has more than 26 bits where a label fits. -/
lemma encode_of_fits (hpoints : ∀ c ∈ cps, c ≤ 0x10FFFF)
    (hfits : ("xn--".toList ++ punycodeEncode cps).length ≤ 63) :
    cps.length ≤ 59 ∧
      Bootstring.encode rfc3492 (2 ^ 26 - 1) cps = some (codes (punycodeEncode cps)) ∧
      Punycode.AllExact (punycodeNumbers cps) := by
  have hlength : cps.length ≤ 59 := by
    have hle := length_le_punycodeEncode cps
    have hxn : "xn--".toList.length = 4 := rfl
    rw [List.length_append, hxn] at hfits
    omega
  have hroom : (0x10FFFF - rfc3492.initialN) * (cps.length + 1) + cps.length ≤ 2 ^ 26 - 1 := by
    have hinitialN : rfc3492.initialN = 0x80 := rfl
    rw [hinitialN]
    omega
  obtain ⟨output, houtput⟩ := Bootstring.exists_encode hpoints hroom
  obtain ⟨hcodes, hnumbers⟩ := codes_punycodeEncode (by decide) (by omega)
    (fun c hc => lt_of_le_of_lt (hpoints c hc) (by decide)) houtput
  rw [hcodes]
  exact ⟨hlength, houtput, hnumbers⟩

/-- A decoder of the RFC with numbers of 32 bits gives the label back. -/
lemma decode_of_fits (hpoints : ∀ c ∈ cps, c ≤ 0x10FFFF)
    (hfits : ("xn--".toList ++ punycodeEncode cps).length ≤ 63) {limit : Nat}
    (hlimit : 2 ^ 32 - 1 ≤ limit) :
    Bootstring.decode rfc3492 limit (codes (punycodeEncode cps)) = some cps := by
  obtain ⟨hlength, hencode, -⟩ := encode_of_fits hpoints hfits
  have hbase : rfc3492.base = 36 := rfl
  refine Bootstring.decode_encode ?_ (fun c hc => ?_) hencode
  · rw [hbase]
    omega
  · have hc := hpoints c hc
    omega

/-- Labels with one punycode are one label. -/
lemma eq_of_punycodeEncode_eq (hpoints : ∀ c ∈ cps, c ≤ 0x10FFFF)
    (hfits : ("xn--".toList ++ punycodeEncode cps).length ≤ 63) {cps' : List Nat}
    (hpoints' : ∀ c ∈ cps', c ≤ 0x10FFFF) (h : punycodeEncode cps' = punycodeEncode cps) :
    cps' = cps := by
  have hdecode := decode_of_fits hpoints hfits le_rfl
  rw [← h] at hfits hdecode
  exact Option.some.inj ((decode_of_fits hpoints' hfits le_rfl).symm.trans hdecode)

/-- **The encoder is that of RFC 3492**: where the punycode of a label fits
behind `xn--`, it is what the encoder of the RFC makes of the label with
numbers of 26 bits, its decoder gives the label back, no other label has it,
and every number of the run is exact. -/
theorem punycodeEncode_rfc3492 (hpoints : ∀ c ∈ cps, c ≤ 0x10FFFF)
    (hfits : ("xn--".toList ++ punycodeEncode cps).length ≤ 63) :
    Bootstring.encode rfc3492 (2 ^ 26 - 1) cps = some (codes (punycodeEncode cps)) ∧
    (∀ limit ≥ 2 ^ 32 - 1,
      Bootstring.decode rfc3492 limit (codes (punycodeEncode cps)) = some cps) ∧
    (∀ cps' : List Nat, (∀ c ∈ cps', c ≤ 0x10FFFF) →
      "xn--".toList ++ punycodeEncode cps' = "xn--".toList ++ punycodeEncode cps → cps' = cps) ∧
    ∀ x ∈ punycodeNumbers cps, x.Exact := by
  obtain ⟨-, hencode, hnumbers⟩ := encode_of_fits hpoints hfits
  exact ⟨hencode, fun limit hlimit => decode_of_fits hpoints hfits hlimit,
    fun cps' hpoints' h => eq_of_punycodeEncode_eq hpoints hfits hpoints'
      (List.append_cancel_left h), hnumbers⟩

/-- The label `日本`. -/
theorem punycodeEncode_rfc3492_nihon :
    Bootstring.decode rfc3492 (2 ^ 32 - 1) (codes "wgv71a".toList) = some [0x65e5, 0x672c] ∧
      punycodeEncode [0x65e5, 0x672c] = "wgv71a".toList := by
  have hnihon : punycodeEncode [0x65e5, 0x672c] = "wgv71a".toList := by decide +kernel
  refine ⟨?_, hnihon⟩
  rw [← hnihon]
  exact (punycodeEncode_rfc3492 (by decide) (by rw [hnihon]; decide)).2.1 _ le_rfl

end Fits

/-! ### The labels of a rule -/

end CumulusVpn.Split
