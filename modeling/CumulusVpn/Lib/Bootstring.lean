/-
Bootstring: code points written with a few basic ones, and read back
(RFC 3492, sections 3 and 6).

A text holds the basic code points of the input as they are, and behind them
one variable-length integer for every other one: how many states the decoder
passes over before it inserts that code point. A state is the next code point
to insert, and where; the code points go in from the least to the greatest.

* `Params`: what an instance of Bootstring chooses;
* `digits`, `readInteger`: the variable-length integers;
  `readInteger_digits`: **an integer is read back**;
* `encode`, `decode`: the two procedures, which fail when a number passes
  their largest;
* `Aligned`: where the decoder stands while the encoder goes through its input;
* `decode_encode`: **what was encoded is decoded to the input**;
* `exists_encode`: nothing overflows when the input is short enough.
-/
import Mathlib.Data.List.Infix
import Mathlib.Data.List.MinMax
import Mathlib.Data.List.TakeWhile
import Mathlib.Data.Nat.Basic
import Mathlib.Tactic.Ring

namespace Bootstring

/-- The parameters of a Bootstring. -/
structure Params where
  base : Nat
  tmin : Nat
  tmax : Nat
  skew : Nat
  damp : Nat
  initialBias : Nat
  initialN : Nat
  delimiter : Nat
  /-- The basic code point of a digit. -/
  digit : Nat → Nat
  /-- The digit of a code point. -/
  value : Nat → Option Nat
  tmin_pos : 0 < tmin
  tmin_le : tmin ≤ tmax
  tmax_lt : tmax < base
  /-- The loop of the adaptation ends. -/
  tmin_lt : tmin + 1 < base
  value_digit : ∀ d < base, value (digit d) = some d
  value_delimiter : value delimiter = none

/-- A number, unless it passes the largest one. -/
def fits (maxint x : Nat) : Option Nat := if x ≤ maxint then some x else none

lemma fits_eq_some {maxint x y : Nat} : fits maxint x = some y ↔ x ≤ maxint ∧ x = y := by
  rw [fits]
  split <;> simp_all

variable (P : Params)

/-! ### Bias adaptation -/

/-- The loop of `adapt`. -/
def adaptLoop (delta k : Nat) : Nat × Nat :=
  if delta > ((P.base - P.tmin) * P.tmax) / 2 then
    adaptLoop (delta / (P.base - P.tmin)) (k + P.base)
  else (delta, k)
termination_by delta
decreasing_by
  have hbase := P.tmin_lt
  exact Nat.div_lt_self (by omega) (by omega)

/-- The bias for the next delta. -/
def adapt (delta numPoints : Nat) (firstTime : Bool) : Nat :=
  let delta := if firstTime then delta / P.damp else delta / 2
  let (delta, k) := adaptLoop P (delta + delta / numPoints) 0
  k + ((P.base - P.tmin + 1) * delta) / (delta + P.skew)

lemma adaptLoop_le (delta : Nat) : ∀ k, (adaptLoop P delta k).1 ≤ delta ∧
    (adaptLoop P delta k).2 ≤ k + P.base * delta := by
  induction delta using Nat.strong_induction_on with
  | _ delta ih =>
    intro k
    have hbase := P.tmin_lt
    rw [adaptLoop]
    split
    · have hlt : delta / (P.base - P.tmin) < delta := Nat.div_lt_self (by omega) (by omega)
      obtain ⟨hdelta, hk⟩ := ih _ hlt (k + P.base)
      refine ⟨le_trans hdelta hlt.le, le_trans hk ?_⟩
      calc k + P.base + P.base * (delta / (P.base - P.tmin))
          = k + P.base * (delta / (P.base - P.tmin) + 1) := by ring
        _ ≤ k + P.base * delta := Nat.add_le_add_left (Nat.mul_le_mul_left _ hlt) _
    · exact ⟨le_rfl, Nat.le_add_right _ _⟩

/-- The bias stays near what it is adapted to. -/
lemma adapt_le (delta numPoints : Nat) (firstTime : Bool) :
    adapt P delta numPoints firstTime ≤ P.base * (2 * delta) + P.base := by
  have hbase := P.tmin_lt
  have hmin := P.tmin_pos
  have hdelta : (if firstTime then delta / P.damp else delta / 2) ≤ delta := by
    split
    · exact Nat.div_le_self _ _
    · exact Nat.div_le_self _ _
  rw [adapt]
  generalize (if firstTime then delta / P.damp else delta / 2) = d at hdelta ⊢
  have hsum : d + d / numPoints ≤ 2 * delta := by
    have hdiv := Nat.div_le_self d numPoints
    omega
  have hk := (adaptLoop_le P (d + d / numPoints) 0).2
  have hskew : (P.base - P.tmin + 1) * (adaptLoop P (d + d / numPoints) 0).1 /
      ((adaptLoop P (d + d / numPoints) 0).1 + P.skew) ≤ P.base := by
    refine le_trans (Nat.div_le_of_le_mul ?_) (Nat.le_refl _)
    rw [Nat.mul_comm]
    exact Nat.mul_le_mul (Nat.le_add_right _ _) (by omega)
  have hloop : P.base * (d + d / numPoints) ≤ P.base * (2 * delta) := Nat.mul_le_mul_left _ hsum
  simp only
  omega

/-! ### Variable-length integers -/

/-- The threshold of the digit at `k`. -/
def threshold (bias k : Nat) : Nat :=
  if k ≤ bias then P.tmin else if k ≥ bias + P.tmax then P.tmax else k - bias

lemma threshold_pos (bias k : Nat) : 0 < threshold P bias k := by
  have hmin := P.tmin_pos
  have hle := P.tmin_le
  rw [threshold]
  split
  · exact hmin
  · split <;> omega

lemma threshold_lt (bias k : Nat) : threshold P bias k < P.base := by
  have hle := P.tmin_le
  have hlt := P.tmax_lt
  rw [threshold]
  split
  · omega
  · split <;> omega

/-- What is left of an integer after a digit is less. -/
lemma rest_lt {t base q : Nat} (ht : 0 < t) (hq : t ≤ q) : (q - t) / (base - t) < q :=
  lt_of_le_of_lt (Nat.div_le_self _ _) (by omega)

/-- The digits of an integer, from the place `k` on. -/
def digits (bias q k : Nat) : List Nat :=
  if q < threshold P bias k then [P.digit q]
  else
    P.digit (threshold P bias k + (q - threshold P bias k) % (P.base - threshold P bias k)) ::
      digits bias ((q - threshold P bias k) / (P.base - threshold P bias k)) (k + P.base)
termination_by q
decreasing_by exact rest_lt (threshold_pos P bias k) (by omega)

/-- Reads an integer that is added to `i`, from the place `k` on, whose weight
is `w`. -/
def readInteger (maxint bias : Nat) : List Nat → Nat → Nat → Nat → Option (Nat × List Nat)
  | [], _, _, _ => none
  | c :: input, i, w, k => do
      let digit ← P.value c
      let i ← fits maxint (i + digit * w)
      if digit < threshold P bias k then some (i, input)
      else
        let w ← fits maxint (w * (P.base - threshold P bias k))
        readInteger maxint bias input i w (k + P.base)

lemma rest_mul_add {t q : Nat} (base w : Nat) (hq : t ≤ q) :
    (t + (q - t) % (base - t)) * w + (q - t) / (base - t) * (w * (base - t)) = q * w := by
  have hdiv := Nat.mod_add_div (q - t) (base - t)
  calc (t + (q - t) % (base - t)) * w + (q - t) / (base - t) * (w * (base - t))
      = (t + ((q - t) % (base - t) + (base - t) * ((q - t) / (base - t)))) * w := by ring
    _ = q * w := by rw [hdiv, Nat.add_sub_cancel' hq]

/-- **An integer is read back**: what follows it stays, and nothing overflows
when neither the sum nor the weights can. -/
lemma readInteger_digits {maxint bias : Nat} (q : Nat) : ∀ {i w k : Nat} (input : List Nat),
    i + q * w ≤ maxint → P.base * (q * w) ≤ maxint →
      readInteger P maxint bias (digits P bias q k ++ input) i w k = some (i + q * w, input) := by
  induction q using Nat.strong_induction_on with
  | _ q ih =>
    intro i w k input hsum hweight
    have hpos := threshold_pos P bias k
    have hbase := threshold_lt P bias k
    rw [digits]
    split
    · rename_i hq
      rw [List.singleton_append, readInteger, P.value_digit q (by omega)]
      simp only [Option.bind_eq_bind, Option.bind_some]
      rw [fits, if_pos hsum, Option.bind_some, if_pos hq]
    · rename_i hq
      have hle : threshold P bias k ≤ q := Nat.le_of_not_lt hq
      generalize ht : threshold P bias k = t at *
      have hmod : (q - t) % (P.base - t) < P.base - t := Nat.mod_lt _ (by omega)
      have hrest := rest_mul_add P.base w hle
      -- the weight of the next digit is no more than the base times this one's
      have hone : w * (P.base - t) ≤ maxint := by
        calc w * (P.base - t) ≤ w * P.base := Nat.mul_le_mul_left _ (Nat.sub_le _ _)
          _ = P.base * (1 * w) := by ring
          _ ≤ P.base * (q * w) :=
              Nat.mul_le_mul_left _ (Nat.mul_le_mul_right _ (Nat.lt_of_lt_of_le hpos hle))
          _ ≤ maxint := hweight
      rw [List.cons_append, readInteger, P.value_digit _ (by omega)]
      simp only [Option.bind_eq_bind, Option.bind_some]
      rw [fits, if_pos (by omega), Option.bind_some, ht, if_neg (by omega), fits, if_pos hone,
        Option.bind_some, ih _ (rest_lt hpos hle) input (by omega)]
      · rw [Nat.add_assoc, hrest]
      · refine le_trans (Nat.mul_le_mul_left _ ?_) hweight
        omega

/-- No digit is the delimiter. -/
lemma ne_delimiter_of_mem_digits {bias c : Nat} (q : Nat) : ∀ {k : Nat},
    c ∈ digits P bias q k → c ≠ P.delimiter := by
  have hdigit : ∀ d < P.base, P.digit d ≠ P.delimiter := by
    intro d hd hdelimiter
    have hvalue := P.value_digit d hd
    rw [hdelimiter, P.value_delimiter] at hvalue
    cases hvalue
  induction q using Nat.strong_induction_on with
  | _ q ih =>
    intro k hc
    have hpos := threshold_pos P bias k
    have hbase := threshold_lt P bias k
    rw [digits] at hc
    split at hc
    · rename_i hq
      rw [List.mem_singleton.mp hc]
      exact hdigit q (by omega)
    · rename_i hq
      rcases List.mem_cons.mp hc with rfl | hc
      · have hmod := Nat.mod_lt (q - threshold P bias k) (Nat.sub_pos_of_lt hbase)
        exact hdigit _ (by omega)
      · exact ih _ (rest_lt hpos (Nat.le_of_not_lt hq)) hc

lemma digits_ne_nil (bias q k : Nat) : digits P bias q k ≠ [] := by
  rw [digits]
  split
  · exact List.cons_ne_nil _ _
  · exact List.cons_ne_nil _ _

/-! ### The encoder -/

/-- The least code point of the input that is at least `n`. -/
def nextPoint (input : List Nat) (n : Nat) : Option Nat := (input.filter (n ≤ ·)).min?

lemma nextPoint_eq_some {input : List Nat} {n m : Nat} (h : nextPoint input n = some m) :
    m ∈ input ∧ n ≤ m ∧ ∀ c ∈ input, n ≤ c → m ≤ c := by
  obtain ⟨hmem, hleast⟩ := List.min?_eq_some_iff.mp h
  obtain ⟨hm, hn⟩ := List.mem_filter.mp hmem
  exact ⟨hm, of_decide_eq_true hn, fun c hc hnc =>
    hleast c (List.mem_filter.mpr ⟨hc, decide_eq_true hnc⟩)⟩

lemma exists_nextPoint {input : List Nat} {n c : Nat} (hc : c ∈ input) (hn : n ≤ c) :
    ∃ m, nextPoint input n = some m := by
  cases h : nextPoint input n with
  | some m => exact ⟨m, rfl⟩
  | none =>
      rw [nextPoint, List.min?_eq_none_iff, List.filter_eq_nil_iff] at h
      exact absurd (decide_eq_true hn) (h c hc)

/-- The variables of the encoder. -/
structure Encoder where
  output : List Nat
  delta : Nat
  bias : Nat
  handled : Nat

/-- One code point of the input, while those equal to `n` are written. -/
def visit (maxint basic n : Nat) (s : Encoder) (c : Nat) : Option Encoder :=
  if c < n then (fits maxint (s.delta + 1)).map fun delta => { s with delta }
  else if c = n then
    some
      { output := s.output ++ digits P s.bias s.delta P.base
        delta := 0
        bias := adapt P s.delta (s.handled + 1) (s.handled = basic)
        handled := s.handled + 1 }
  else some s

/-- The rounds of the encoder, one for each code point that is not basic. -/
def encodeLoop (maxint : Nat) (input : List Nat) (basic : Nat) :
    Nat → Nat → Encoder → Option (List Nat)
  | 0, _, s => if s.handled < input.length then none else some s.output
  | rounds + 1, n, s =>
      if s.handled < input.length then do
        let m ← nextPoint input n
        let delta ← fits maxint (s.delta + (m - n) * (s.handled + 1))
        let s ← input.foldlM (visit P maxint basic m) { s with delta }
        encodeLoop maxint input basic rounds (m + 1) { s with delta := s.delta + 1 }
      else some s.output

/-- The encoding procedure. -/
def encode (maxint : Nat) (input : List Nat) : Option (List Nat) :=
  let basic := input.filter (· < P.initialN)
  let output := if basic = [] then [] else basic ++ [P.delimiter]
  encodeLoop P maxint input basic.length input.length P.initialN
    ⟨output, 0, P.initialBias, basic.length⟩

section Inversion

variable {P} {maxint basic n c : Nat} {input output : List Nat} {s s' : Encoder}

/-- What a visit does. -/
lemma visit_cases (h : visit P maxint basic n s c = some s') :
    (c < n ∧ s.delta + 1 ≤ maxint ∧ s' = { s with delta := s.delta + 1 }) ∨
    (c = n ∧ s' =
      { output := s.output ++ digits P s.bias s.delta P.base
        delta := 0
        bias := adapt P s.delta (s.handled + 1) (s.handled = basic)
        handled := s.handled + 1 }) ∨
    (n < c ∧ s' = s) := by
  rw [visit] at h
  rcases Nat.lt_trichotomy c n with hc | rfl | hc
  · rw [if_pos hc] at h
    obtain ⟨delta, hfits, rfl⟩ := Option.map_eq_some_iff.mp h
    obtain ⟨hle, rfl⟩ := fits_eq_some.mp hfits
    exact Or.inl ⟨hc, hle, rfl⟩
  · rw [if_neg (Nat.lt_irrefl c), if_pos rfl] at h
    cases h
    exact Or.inr (Or.inl ⟨rfl, rfl⟩)
  · rw [if_neg (by omega), if_neg (by omega)] at h
    cases h
    exact Or.inr (Or.inr ⟨hc, rfl⟩)

/-- What the rounds do: they are over, or there is one more. -/
lemma encodeLoop_cases {rounds : Nat}
    (h : encodeLoop P maxint input basic rounds n s = some output) :
    (¬ s.handled < input.length ∧ s.output = output) ∨
    ∃ more m s₁, rounds = more + 1 ∧ s.handled < input.length ∧ nextPoint input n = some m ∧
      s.delta + (m - n) * (s.handled + 1) ≤ maxint ∧
      input.foldlM (visit P maxint basic m)
        { s with delta := s.delta + (m - n) * (s.handled + 1) } = some s₁ ∧
      encodeLoop P maxint input basic more (m + 1) { s₁ with delta := s₁.delta + 1 } =
        some output := by
  cases rounds with
  | zero =>
      rw [encodeLoop] at h
      split at h
      · cases h
      · rename_i hhandled
        exact Or.inl ⟨hhandled, Option.some.inj h⟩
  | succ rounds =>
      rw [encodeLoop] at h
      split at h
      · rename_i hhandled
        obtain ⟨m, hm, h⟩ := Option.bind_eq_some_iff.mp h
        obtain ⟨delta, hfits, h⟩ := Option.bind_eq_some_iff.mp h
        obtain ⟨hdelta, rfl⟩ := fits_eq_some.mp hfits
        obtain ⟨s₁, hvisits, h⟩ := Option.bind_eq_some_iff.mp h
        exact Or.inr ⟨rounds, m, s₁, rfl, hhandled, hm, hdelta, hvisits, h⟩
      · rename_i hhandled
        exact Or.inl ⟨hhandled, Option.some.inj h⟩

end Inversion

/-! ### The decoder -/

/-- The variables of the decoder. -/
structure Decoder where
  n : Nat
  i : Nat
  bias : Nat
  output : List Nat

/-- Reads one integer, and inserts the code point that it leads to. -/
def decodeStep (maxint : Nat) (d : Decoder) (input : List Nat) : Option (Decoder × List Nat) := do
  let (i, input) ← readInteger P maxint d.bias input d.i 1 P.base
  let size := d.output.length + 1
  let n ← fits maxint (d.n + i / size)
  if n < P.initialN then none
  else
    some (⟨n, i % size + 1, adapt P (i - d.i) size (d.i = 0), d.output.insertIdx (i % size) n⟩,
      input)

/-- The rounds of the decoder, each of which reads a code point at least. -/
def decodeLoop (maxint : Nat) : Nat → Decoder → List Nat → Option (List Nat)
  | _, d, [] => some d.output
  | 0, _, _ :: _ => none
  | rounds + 1, d, c :: input => do
      let (d, input) ← decodeStep P maxint d (c :: input)
      decodeLoop maxint rounds d input

/-- What stands before the last delimiter and behind it; a delimiter that
nothing stands before is none. -/
def splitLast (delimiter : Nat) (input : List Nat) : List Nat × List Nat :=
  let basic := (input.reverse.dropWhile (· ≠ delimiter)).reverse.dropLast
  if basic = [] then ([], input) else (basic, (input.reverse.takeWhile (· ≠ delimiter)).reverse)

/-- The decoding procedure. -/
def decode (maxint : Nat) (input : List Nat) : Option (List Nat) :=
  let (basic, input) := splitLast P.delimiter input
  if basic.any (P.initialN ≤ ·) then none
  else decodeLoop P maxint input.length ⟨P.initialN, 0, P.initialBias, basic⟩ input

/-- The text of the encoder is split as it was put together. -/
lemma splitLast_append {delimiter : Nat} {basic tail : List Nat} (h : ∀ c ∈ tail, c ≠ delimiter) :
    splitLast delimiter ((if basic = [] then [] else basic ++ [delimiter]) ++ tail) =
      (basic, tail) := by
  have htail : ∀ c ∈ tail.reverse, decide (c ≠ delimiter) = true := fun c hc =>
    decide_eq_true (h c (List.mem_reverse.mp hc))
  rw [splitLast]
  by_cases hbasic : basic = []
  · have hnone : tail.reverse.dropWhile (· ≠ delimiter) = [] := List.dropWhile_eq_nil_iff.mpr htail
    rw [if_pos hbasic, List.nil_append, hnone, hbasic]
    rfl
  · have hstop : ¬ (fun c => decide (c ≠ delimiter)) delimiter = true := by simp
    rw [if_neg hbasic, List.reverse_append, List.reverse_append, List.reverse_singleton,
      List.singleton_append, List.dropWhile_append_of_pos htail, List.takeWhile_append_of_pos htail,
      List.dropWhile_cons_of_neg (p := fun c => decide (c ≠ delimiter)) hstop,
      List.takeWhile_cons_of_neg (p := fun c => decide (c ≠ delimiter)) hstop, List.reverse_cons,
      List.reverse_reverse, List.dropLast_concat, if_neg hbasic, List.append_nil,
      List.reverse_reverse]

/-- From `d` on, the decoder makes `result` of the input. -/
def Decodes (maxint : Nat) (d : Decoder) (input : List Nat) (result : List Nat) : Prop :=
  ∀ rounds, input.length ≤ rounds → decodeLoop P maxint rounds d input = some result

/-- The text `tail`, which holds no delimiter, takes the decoder from `d` to
`d'`. -/
structure Reads (maxint : Nat) (d : Decoder) (tail : List Nat) (d' : Decoder) : Prop where
  ne_delimiter : ∀ c ∈ tail, c ≠ P.delimiter
  decodes : ∀ {input result : List Nat},
    Decodes P maxint d' input result → Decodes P maxint d (tail ++ input) result

section Reads

variable {P} {maxint : Nat} {d d' d'' : Decoder} {tail tail' : List Nat}

lemma Reads.refl (d : Decoder) : Reads P maxint d [] d :=
  ⟨fun _ hc => absurd hc List.not_mem_nil, fun h => h⟩

lemma Reads.trans (h : Reads P maxint d tail d') (h' : Reads P maxint d' tail' d'') :
    Reads P maxint d (tail ++ tail') d'' := by
  refine ⟨fun c hc => ?_, fun hdecodes => ?_⟩
  · rcases List.mem_append.mp hc with hc | hc
    · exact h.ne_delimiter c hc
    · exact h'.ne_delimiter c hc
  · rw [List.append_assoc]
    exact h.decodes (h'.decodes hdecodes)

/-- The integer that one step reads. -/
lemma Reads.digits {q : Nat}
    (h : ∀ input, decodeStep P maxint d (digits P d.bias q P.base ++ input) = some (d', input)) :
    Reads P maxint d (digits P d.bias q P.base) d' := by
  refine ⟨fun c hc => ne_delimiter_of_mem_digits P q hc, ?_⟩
  intro input result hdecodes rounds hrounds
  obtain ⟨c, cs, hcs⟩ := List.exists_cons_of_ne_nil (digits_ne_nil P d.bias q P.base)
  have hstep := h input
  rw [hcs, List.cons_append] at hstep hrounds ⊢
  rw [List.length_cons, List.length_append] at hrounds
  obtain _ | rounds := rounds
  · omega
  · rw [decodeLoop, hstep]
    exact hdecodes rounds (by omega)

end Reads

/-! ### Where the decoder stands -/

lemma insertIdx_length_append {α : Type} (xs ys : List α) (a : α) :
    (xs ++ ys).insertIdx xs.length a = xs ++ a :: ys := by
  induction xs with
  | nil => rfl
  | cons x xs ih => rw [List.cons_append, List.length_cons, List.insertIdx_succ_cons, ih,
      List.cons_append]

/-- The encoder, which writes the code points equal to `m`, has visited `past`
and has still to visit `rest`; the decoder has read what is written. What it
holds are the code points below `m`, and those equal to `m` in `past`; `delta`
is what makes it insert the next one behind those of `past`. -/
structure Aligned (past rest : List Nat) (basic m : Nat) (s : Encoder) (d : Decoder) : Prop where
  output : d.output = past.filter (· ≤ m) ++ rest.filter (· < m)
  handled : s.handled = d.output.length
  basic_le : basic ≤ s.handled
  bias : s.bias = d.bias
  first : s.handled = basic ↔ d.i = 0
  initialN_le : P.initialN ≤ d.n
  n_le : d.n ≤ m
  i_le : d.i ≤ s.handled
  delta : s.delta + d.i = (m - d.n) * (s.handled + 1) + (past.filter (· ≤ m)).length

section Aligned

variable {P} {maxint limit basic m c : Nat} {past rest : List Nat} {s s' : Encoder} {d : Decoder}

/-- The integer `delta` makes the decoder insert `m`. -/
lemma Aligned.decodeStep (h : Aligned P past (m :: rest) basic m s d)
    (hsum : d.i + s.delta ≤ limit) (hweight : P.base * s.delta ≤ limit) (hm : m ≤ limit)
    (input : List Nat) :
    decodeStep P limit d (digits P d.bias s.delta P.base ++ input) =
      some (⟨m, (past.filter (· ≤ m)).length + 1,
        adapt P s.delta (s.handled + 1) (s.handled = basic),
        past.filter (· ≤ m) ++ m :: (m :: rest).filter (· < m)⟩, input) := by
  have hpos : (past.filter (· ≤ m)).length < d.output.length + 1 := by
    rw [h.output, List.length_append]
    omega
  have hi : d.i + s.delta = (past.filter (· ≤ m)).length + (d.output.length + 1) * (m - d.n) := by
    rw [Nat.add_comm d.i, h.delta, h.handled, Nat.mul_comm, Nat.add_comm]
  have hdiv : (d.i + s.delta) / (d.output.length + 1) = m - d.n := by
    rw [hi, Nat.add_mul_div_left _ _ (Nat.succ_pos _), Nat.div_eq_of_lt hpos, Nat.zero_add]
  have hmod : (d.i + s.delta) % (d.output.length + 1) = (past.filter (· ≤ m)).length := by
    rw [hi, Nat.add_mul_mod_self_left, Nat.mod_eq_of_lt hpos]
  have hn : d.n + (m - d.n) = m := Nat.add_sub_cancel' h.n_le
  have hfirst : decide (d.i = 0) = decide (s.handled = basic) := decide_eq_decide.mpr h.first.symm
  rw [Bootstring.decodeStep, readInteger_digits P s.delta input (by rwa [Nat.mul_one])
    (by rwa [Nat.mul_one])]
  simp only [Option.bind_eq_bind, Option.bind_some, Nat.mul_one]
  rw [hdiv, hmod, hn, fits, if_pos hm, Option.bind_some,
    if_neg (Nat.not_lt.mpr (le_trans h.initialN_le h.n_le)), Nat.add_sub_cancel_left, hfirst,
    ← h.handled, h.output, insertIdx_length_append]

/-- One visit: the decoder goes along. -/
lemma Aligned.visit (h : Aligned P past (c :: rest) basic m s d)
    (hlimit : P.base * maxint + (past.length + (c :: rest).length) ≤ limit) (hm : m ≤ limit)
    (hdelta : s.delta ≤ maxint) (hvisit : visit P maxint basic m s c = some s') :
    ∃ tail d', s'.output = s.output ++ tail ∧ Reads P limit d tail d' ∧
      Aligned P (past ++ [c]) rest basic m s' d' ∧ s'.delta ≤ maxint := by
  have hi : d.i ≤ past.length + (c :: rest).length := by
    refine le_trans h.i_le ?_
    rw [h.handled, h.output, List.length_append]
    exact Nat.add_le_add (List.length_filter_le _ _) (List.length_filter_le _ _)
  have hbase : s.delta ≤ P.base * s.delta := Nat.le_mul_of_pos_left _ (by have := P.tmin_lt; omega)
  have hweight : P.base * s.delta ≤ P.base * maxint := Nat.mul_le_mul_left _ hdelta
  obtain ⟨hc, hle, rfl⟩ | ⟨rfl, rfl⟩ | ⟨hc, rfl⟩ := visit_cases hvisit
  · -- the decoder holds this code point already, and passes over it
    have hpast : (past ++ [c]).filter (· ≤ m) = past.filter (· ≤ m) ++ [c] := by
      rw [List.filter_append, List.filter_cons_of_pos (by simpa using hc.le), List.filter_nil]
    refine ⟨[], d, (List.append_nil _).symm, .refl d, ?_, hle⟩
    refine { h with output := ?_, delta := ?_ }
    · rw [hpast, h.output, List.filter_cons_of_pos (by simpa using hc), List.append_assoc]
      rfl
    · have hdelta := h.delta
      rw [hpast, List.length_append, List.length_singleton]
      simp only
      omega
  · -- the decoder inserts this code point
    have hpast : (past ++ [c]).filter (· ≤ c) = past.filter (· ≤ c) ++ [c] := by
      rw [List.filter_append, List.filter_cons_of_pos (by simp), List.filter_nil]
    have hrest : (c :: rest).filter (· < c) = rest.filter (· < c) :=
      List.filter_cons_of_neg (by simp)
    have hstep := h.decodeStep (by omega) (le_trans hweight (by omega)) hm
    have houtput := congrArg List.length h.output
    rw [hrest] at hstep houtput
    rw [List.length_append] at houtput
    refine ⟨_, ⟨c, (past.filter (· ≤ c)).length + 1,
      adapt P s.delta (s.handled + 1) (s.handled = basic),
      past.filter (· ≤ c) ++ c :: rest.filter (· < c)⟩, rfl, ?_, ?_, Nat.zero_le _⟩
    · rw [h.bias]
      exact .digits hstep
    · exact
        { output := by rw [hpast, List.append_assoc]; rfl
          handled := by
            show s.handled + 1 = _
            rw [List.length_append, List.length_cons, h.handled, houtput]
            omega
          basic_le := Nat.le_succ_of_le h.basic_le
          bias := rfl
          first := by
            have hle := h.basic_le
            simp only [Nat.add_eq_zero_iff, Nat.one_ne_zero, and_false, iff_false]
            omega
          initialN_le := le_trans h.initialN_le h.n_le
          n_le := le_rfl
          i_le := by
            simp only [h.handled, houtput]
            omega
          delta := by
            rw [hpast, List.length_append, Nat.sub_self, Nat.zero_mul]
            rfl }
  · -- the turn of this code point comes later
    have hpast : (past ++ [c]).filter (· ≤ m) = past.filter (· ≤ m) := by
      rw [List.filter_append, List.filter_cons_of_neg (by simpa using hc), List.filter_nil,
        List.append_nil]
    refine ⟨[], d, (List.append_nil _).symm, .refl d, ?_, hdelta⟩
    refine { h with output := ?_, delta := ?_ }
    · rw [hpast, h.output, List.filter_cons_of_neg (by simpa using hc.le)]
    · rw [hpast]
      exact h.delta

/-- A round's visits. -/
lemma Aligned.foldlM (hlimit : P.base * maxint + (past.length + rest.length) ≤ limit)
    (hm : m ≤ limit) (h : Aligned P past rest basic m s d) (hdelta : s.delta ≤ maxint)
    (hvisits : rest.foldlM (Bootstring.visit P maxint basic m) s = some s') :
    ∃ tail d', s'.output = s.output ++ tail ∧ Reads P limit d tail d' ∧
      Aligned P (past ++ rest) [] basic m s' d' := by
  induction rest generalizing past s d with
  | nil =>
      cases hvisits
      rw [List.append_nil]
      exact ⟨[], d, (List.append_nil _).symm, .refl d, h⟩
  | cons c rest ih =>
      rw [List.foldlM_cons] at hvisits
      obtain ⟨s₁, hvisit, hvisits⟩ := Option.bind_eq_some_iff.mp hvisits
      obtain ⟨tail, d₁, htail, hreads, h₁, hdelta⟩ := h.visit hlimit hm hdelta hvisit
      have hlength : (past ++ [c]).length + rest.length = past.length + (c :: rest).length := by
        rw [List.length_append, List.length_singleton, List.length_cons]
        omega
      obtain ⟨tail', d', htail', hreads', h'⟩ := ih (by rwa [hlength]) h₁ hdelta hvisits
      refine ⟨tail ++ tail', d', ?_, hreads.trans hreads', ?_⟩
      · rw [htail', htail, List.append_assoc]
      · rwa [List.append_assoc] at h'

end Aligned

section Rounds

variable {P} {maxint limit basic n m : Nat} {input : List Nat} {s : Encoder} {d : Decoder}

lemma filter_lt_eq_of_nextPoint (h : nextPoint input n = some m) :
    input.filter (· < m) = input.filter (· < n) := by
  obtain ⟨-, hle, hleast⟩ := nextPoint_eq_some h
  refine List.filter_congr fun c hc => decide_eq_decide.mpr ⟨fun hcm => ?_, fun hcn => by omega⟩
  by_contra hcn
  have := hleast c hc (by omega)
  omega

/-- The code points up to the next one are skipped in one go. -/
lemma Aligned.skip (h : Aligned P [] input basic n s d) (hm : nextPoint input n = some m) :
    Aligned P [] input basic m { s with delta := s.delta + (m - n) * (s.handled + 1) } d := by
  have hle := (nextPoint_eq_some hm).2.1
  have hn := h.n_le
  refine { h with output := ?_, n_le := le_trans hn hle, delta := ?_ }
  · rw [filter_lt_eq_of_nextPoint hm]
    exact h.output
  · have hdelta : s.delta + d.i = (n - d.n) * (s.handled + 1) + 0 := h.delta
    have hsplit : m - d.n = (n - d.n) + (m - n) := by omega
    show s.delta + (m - n) * (s.handled + 1) + d.i = (m - d.n) * (s.handled + 1) + 0
    rw [hsplit, Nat.add_mul]
    omega

/-- After a round the decoder is at the start of the next one. -/
lemma Aligned.turn (h : Aligned P input [] basic m s d) :
    Aligned P [] input basic (m + 1) { s with delta := s.delta + 1 } d := by
  have hn := h.n_le
  have houtput : d.output = input.filter (· ≤ m) := by
    rw [h.output, List.filter_nil, List.append_nil]
  refine { h with output := ?_, n_le := Nat.le_succ_of_le hn, delta := ?_ }
  · rw [houtput, List.filter_nil, List.nil_append]
    exact List.filter_congr fun c _ => decide_eq_decide.mpr Nat.lt_succ_iff.symm
  · have hdelta := h.delta
    have hhandled : (input.filter (· ≤ m)).length = s.handled := by rw [h.handled, houtput]
    show s.delta + 1 + d.i = (m + 1 - d.n) * (s.handled + 1) + 0
    rw [Nat.succ_sub hn, Nat.succ_mul]
    omega

/-- Where every code point is handled, the decoder holds them all. -/
lemma Aligned.finished (h : Aligned P [] input basic n s d)
    (hhandled : ¬ s.handled < input.length) :
    d.output = input := by
  have houtput : d.output = input.filter (· < n) := h.output
  have hlength : (input.filter (· < n)).length = input.length := by
    have hle := List.length_filter_le (fun c => decide (c < n)) input
    rw [h.handled, houtput] at hhandled
    omega
  rw [houtput]
  exact List.filter_eq_self.mpr (List.length_filter_eq_length_iff.mp hlength)

/-- What the encoder writes behind `output` makes the decoder, from `d` on, give
the input back. -/
def Continues (limit : Nat) (input : List Nat) (d : Decoder) (output output' : List Nat) : Prop :=
  ∃ tail, output' = output ++ tail ∧ (∀ c ∈ tail, c ≠ P.delimiter) ∧
    Decodes P limit d tail input

variable {output : List Nat}

lemma Aligned.stops (h : Aligned P [] input basic n s d) (hhandled : ¬ s.handled < input.length) :
    Continues (P := P) limit input d s.output s.output := by
  refine ⟨[], (List.append_nil _).symm, fun c hc => absurd hc List.not_mem_nil, ?_⟩
  intro rounds _
  rw [decodeLoop, h.finished hhandled]

/-- The decoder goes along with the rounds. -/
lemma Aligned.encodeLoop (hlimit : P.base * maxint + input.length ≤ limit)
    (hpoints : ∀ c ∈ input, c ≤ limit) (rounds : Nat) (h : Aligned P [] input basic n s d)
    (hloop : encodeLoop P maxint input basic rounds n s = some output) :
    Continues (P := P) limit input d s.output output := by
  induction rounds using Nat.strong_induction_on generalizing n s d with
  | _ rounds ih =>
    obtain ⟨hhandled, rfl⟩ | ⟨more, m, s₁, rfl, -, hm, hdelta, hvisits, hmore⟩ :=
      encodeLoop_cases hloop
    · exact h.stops hhandled
    · have hlength : ([] : List Nat).length + input.length = input.length := Nat.zero_add _
      obtain ⟨tail, d₁, htail, hreads, h₁⟩ := (h.skip hm).foldlM (by rwa [hlength])
        (hpoints m (nextPoint_eq_some hm).1) hdelta hvisits
      rw [List.nil_append] at h₁
      obtain ⟨tail', htail', hdelimiter, hdecodes⟩ := ih more (Nat.lt_succ_self more) h₁.turn hmore
      refine ⟨tail ++ tail', ?_, fun c hc => ?_, hreads.decodes hdecodes⟩
      · rw [htail', htail, List.append_assoc]
      · rcases List.mem_append.mp hc with hc | hc
        · exact hreads.ne_delimiter c hc
        · exact hdelimiter c hc

/-- The two procedures begin at one place. -/
lemma Aligned.start (input output : List Nat) :
    Aligned P [] input (input.filter (· < P.initialN)).length P.initialN
      ⟨output, 0, P.initialBias, (input.filter (· < P.initialN)).length⟩
      ⟨P.initialN, 0, P.initialBias, input.filter (· < P.initialN)⟩ where
  output := rfl
  handled := rfl
  basic_le := le_rfl
  bias := rfl
  first := Iff.intro (fun _ => rfl) fun _ => rfl
  initialN_le := le_rfl
  n_le := le_rfl
  i_le := Nat.zero_le _
  delta := by rw [Nat.sub_self, Nat.zero_mul]; rfl

/-- **What was encoded is decoded to the input**, by a decoder whose largest
number leaves room for the weights of the digits. -/
theorem decode_encode (hlimit : P.base * maxint + input.length ≤ limit)
    (hpoints : ∀ c ∈ input, c ≤ limit) (h : encode P maxint input = some output) :
    decode P limit output = some input := by
  obtain ⟨tail, rfl, hdelimiter, hdecodes⟩ :=
    (Aligned.start input _).encodeLoop hlimit hpoints input.length h
  have hbasic : (input.filter (· < P.initialN)).any (P.initialN ≤ ·) = false := by
    rw [List.any_eq_false]
    intro c hc hle
    have hlt := (List.mem_filter.mp hc).2
    simp only [decide_eq_true_eq] at hle hlt
    omega
  rw [decode, splitLast_append hdelimiter]
  simp only [hbasic, Bool.false_eq_true, if_false]
  exact hdecodes _ le_rfl

end Rounds

/-! ### Nothing overflows -/

section Bounds

variable {P} {maxint basic n m top : Nat} {past rest input : List Nat} {s : Encoder} {d : Decoder}

/-- How far `delta` is counted. -/
lemma Aligned.delta_le (h : Aligned P past rest basic m s d) (hm : m ≤ top) :
    s.delta ≤ (top - P.initialN) * (past.length + rest.length + 1) + past.length := by
  have hdelta := h.delta
  have hhandled : s.handled ≤ past.length + rest.length := by
    rw [h.handled, h.output, List.length_append]
    exact Nat.add_le_add (List.length_filter_le _ _) (List.length_filter_le _ _)
  have hfar : m - d.n ≤ top - P.initialN := by
    have hle := h.initialN_le
    omega
  have hskipped : (m - d.n) * (s.handled + 1) ≤
      (top - P.initialN) * (past.length + rest.length + 1) :=
    Nat.mul_le_mul hfar (Nat.succ_le_succ hhandled)
  have hpast := List.length_filter_le (fun c => decide (c ≤ m)) past
  omega

/-- No visit of a round overflows. -/
lemma Aligned.exists_foldlM (hm : m ≤ top)
    (hroom : (top - P.initialN) * (past.length + rest.length + 1) + (past.length + rest.length) ≤
      maxint) (h : Aligned P past rest basic m s d) :
    ∃ s' d', rest.foldlM (Bootstring.visit P maxint basic m) s = some s' ∧
      Aligned P (past ++ rest) [] basic m s' d' := by
  induction rest generalizing past s d with
  | nil => exact ⟨s, d, rfl, by rwa [List.append_nil]⟩
  | cons c rest ih =>
      have hdelta := h.delta_le hm
      have hroom' := hroom
      rw [List.length_cons] at hroom' hdelta
      obtain ⟨s₁, hvisit⟩ : ∃ s₁, Bootstring.visit P maxint basic m s c = some s₁ := by
        rw [Bootstring.visit]
        split
        · rw [fits, if_pos (by omega)]
          exact ⟨_, rfl⟩
        · split
          · exact ⟨_, rfl⟩
          · exact ⟨_, rfl⟩
      obtain ⟨-, d₁, -, -, h₁, -⟩ := h.visit (le_max_left _ m) (le_max_right _ m) (by omega) hvisit
      have hlength : (past ++ [c]).length + rest.length = past.length + (rest.length + 1) := by
        rw [List.length_append, List.length_singleton]
        omega
      obtain ⟨s', d', hvisits, h'⟩ := ih (by rwa [hlength]) h₁
      rw [List.append_assoc] at h'
      refine ⟨s', d', ?_, h'⟩
      rw [List.foldlM_cons, hvisit]
      exact hvisits

/-- A round handles a code point at least. -/
lemma length_filter_lt (hm : m ∈ input) (hn : n ≤ m) :
    (input.filter (· < n)).length < (input.filter (· < m + 1)).length := by
  have hsub : input.filter (· < n) = (input.filter (· < m + 1)).filter (· < n) := by
    rw [List.filter_filter]
    refine List.filter_congr fun c _ => ?_
    rw [Bool.eq_iff_iff]
    simp only [decide_eq_true_eq, Bool.and_eq_true]
    omega
  rw [hsub]
  refine List.length_filter_lt_length_iff_exists.mpr ⟨m, ?_, by simpa using hn⟩
  exact List.mem_filter.mpr ⟨hm, decide_eq_true (Nat.lt_succ_self m)⟩

lemma Aligned.exists_encodeLoop (htop : ∀ c ∈ input, c ≤ top)
    (hroom : (top - P.initialN) * (input.length + 1) + input.length ≤ maxint) (rounds : Nat)
    (h : Aligned P [] input basic n s d) (hrounds : input.length ≤ s.handled + rounds) :
    ∃ output, Bootstring.encodeLoop P maxint input basic rounds n s = some output := by
  induction rounds generalizing n s d with
  | zero =>
      rw [Bootstring.encodeLoop, if_neg (by omega)]
      exact ⟨_, rfl⟩
  | succ rounds ih =>
      rw [Bootstring.encodeLoop]
      split
      · rename_i hhandled
        have houtput : d.output = input.filter (· < n) := h.output
        rw [h.handled, houtput] at hhandled
        obtain ⟨c, hc, hn⟩ := List.length_filter_lt_length_iff_exists.mp hhandled
        obtain ⟨m, hm⟩ := exists_nextPoint hc (by simpa using hn)
        obtain ⟨hmem, hle, -⟩ := nextPoint_eq_some hm
        have hskip := h.skip hm
        have hlength : ([] : List Nat).length + input.length = input.length := Nat.zero_add _
        have hdelta : s.delta + (m - n) * (s.handled + 1) ≤ (top - P.initialN) *
            (([] : List Nat).length + input.length + 1) + 0 := hskip.delta_le (htop m hmem)
        have hroom₀ : (top - P.initialN) * (([] : List Nat).length + input.length + 1) +
            (([] : List Nat).length + input.length) ≤ maxint := by rwa [hlength]
        obtain ⟨s₁, d₁, hvisits, h₁⟩ := hskip.exists_foldlM (htop m hmem) hroom₀
        rw [hlength] at hdelta
        have hturn := h₁.turn
        have hgrow := length_filter_lt hmem hle
        have hhandled₁ : s₁.handled = d₁.output.length := h₁.handled
        have houtput₁ : d₁.output = input.filter (· < m + 1) := hturn.output
        obtain ⟨output, hloop⟩ := ih hturn (by
          show input.length ≤ s₁.handled + rounds
          rw [h.handled, houtput] at hrounds
          rw [hhandled₁, houtput₁]
          omega)
        refine ⟨output, ?_⟩
        rw [hm, Option.bind_eq_bind, Option.bind_some, fits, if_pos (by omega)]
        simp only [Option.bind_eq_bind, Option.bind_some]
        rw [hvisits, Option.bind_some]
        exact hloop
      · exact ⟨_, rfl⟩

/-- **Nothing overflows** when every code point of the input is at most `top`
and it is short enough. -/
theorem exists_encode (htop : ∀ c ∈ input, c ≤ top)
    (hroom : (top - P.initialN) * (input.length + 1) + input.length ≤ maxint) :
    ∃ output, encode P maxint input = some output :=
  (Aligned.start input _).exists_encodeLoop htop hroom input.length (Nat.le_add_left _ _)

end Bounds

end Bootstring
