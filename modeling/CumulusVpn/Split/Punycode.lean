/-
The Punycode of a label of a domain rule (`clients/core-ts/src/split.ts`).

A label is the list of its code points. The numbers of the source are integers
here, and `>> 1` works on 32 bits, as in the source.

* `punycodeEncode`: the encoder;
* `punycodeNumbers`: the numbers that its arithmetic comes to on the way;
* `Number.Exact`: a number that the language holds as it is.
-/
import Mathlib.Data.Nat.Notation

namespace CumulusVpn.Split

namespace Punycode

/-- The letter of a digit in base 36. -/
def digit (d : Nat) : Char := if d < 26 then Char.ofNat (d + 0x61) else Char.ofNat (d - 26 + 0x30)

/-- `x >> 1`: on the last 32 bits of `x`, the first of which is a sign. -/
def shiftRight (x : Nat) : Int := ((BitVec.ofNat 32 x).sshiftRight 1).toInt

/-- The loop of `adapt`: `d` is brought below `((base - tmin) * tmax) >> 1`. -/
def adaptLoop (d : Int) (k : Nat) : Int × Nat :=
  if d > (((36 - 1) * 26) >>> 1 : Nat) then adaptLoop (d / (36 - 1)) (k + 36) else (d, k)
termination_by d.toNat
decreasing_by omega

/-- `d + skew` is zero for one `d` only, which is below zero. The bias is then
`-Infinity` in the source and 0 here, and the thresholds are the same. -/
def adapt (delta numPoints : Nat) (firstTime : Bool) : Int :=
  let d : Int := if firstTime then delta / 700 else shiftRight delta
  let (d, k) := adaptLoop (d + d / numPoints) 0
  k + ((36 - 1 + 1) * d).fdiv (d + 38)

/-- The threshold of the digit at `k`. -/
def threshold (bias : Int) (k : Nat) : Nat :=
  if k ≤ bias then 1 else if k ≥ bias + 26 then 26 else (k - bias).toNat

lemma threshold_le (bias : Int) (k : Nat) : threshold bias k ≤ 26 := by
  rw [threshold]
  split
  · omega
  · split <;> omega

lemma threshold_pos (bias : Int) (k : Nat) : 0 < threshold bias k := by
  rw [threshold]
  split
  · omega
  · split <;> omega

/-- What is left of `q` after a digit is less. -/
lemma rest_lt {bias : Int} {q k : Nat} (h : ¬ q < threshold bias k) :
    (q - threshold bias k) / (36 - threshold bias k) < q := by
  have hpos := threshold_pos bias k
  have hdiv := Nat.div_le_self (q - threshold bias k) (36 - threshold bias k)
  omega

/-- The digits of `q` as a variable-length integer. -/
def digits (bias : Int) (q k : Nat) : List Char :=
  if q < threshold bias k then [digit q]
  else
    digit (threshold bias k + (q - threshold bias k) % (36 - threshold bias k)) ::
      digits bias ((q - threshold bias k) / (36 - threshold bias k)) (k + 36)
termination_by q
decreasing_by exact rest_lt ‹_›

/-- `output`, `delta`, `bias` and `handled`. -/
structure State where
  output : List Char
  delta : Nat
  bias : Int
  handled : Nat

/-- One code point of the inner loop. -/
def visit (n firstNonBasicAt : Nat) (s : State) (c : Nat) : State :=
  let s := if c < n then { s with delta := s.delta + 1 } else s
  if c = n then
    { output := s.output ++ digits s.bias s.delta 36
      bias := adapt s.delta (s.handled + 1) (s.handled = firstNonBasicAt)
      delta := 0
      handled := s.handled + 1 }
  else s

/-- The least code point that is at least `n`. -/
def nextPoint (cps : List Nat) (n : Nat) : Option Nat := (cps.filter (n ≤ ·)).min?

/-- The outer loop; every round handles one more code point, so as many rounds
as there are code points are enough. -/
def encodeLoop (cps : List Nat) (firstNonBasicAt : Nat) : Nat → Nat → State → State
  | 0, _, s => s
  | rounds + 1, n, s =>
      if s.handled < cps.length then
        match nextPoint cps n with
        | none => s
        | some m =>
            let s := { s with delta := s.delta + (m - n) * (s.handled + 1) }
            let s := cps.foldl (visit m firstNonBasicAt) s
            encodeLoop cps firstNonBasicAt rounds (m + 1) { s with delta := s.delta + 1 }
      else s

/-- The code points that are copied as they are. -/
def basic (cps : List Nat) : List Nat := cps.filter (· < 0x80)

/-- The variables before the outer loop. -/
def start (cps : List Nat) : State where
  output := (basic cps).map Char.ofNat ++ if (basic cps).length > 0 then ['-'] else []
  delta := 0
  bias := 72
  handled := (basic cps).length

end Punycode

/-- The punycode of a label, without the `xn--` prefix. -/
def punycodeEncode (cps : List Nat) : List Char :=
  (Punycode.encodeLoop cps (Punycode.basic cps).length cps.length 128 (Punycode.start cps)).output

/-! ### The numbers of a run -/

/-- A number that the arithmetic comes to. -/
inductive Number
  | result (x : Int)
  /-- The operand of `>> 1`. -/
  | shifted (x : Int)

/-- `Number.MAX_SAFE_INTEGER` -/
def maxSafeInteger : Int := 9007199254740991

/-- A result is a safe integer, and an operand of `>>` has 31 bits at most. -/
def Number.Exact : Number → Prop
  | .result x => -maxSafeInteger ≤ x ∧ x ≤ maxSafeInteger
  | .shifted x => 0 ≤ x ∧ x < 0x80000000

namespace Punycode

/-- The numbers of the loop of `adapt`. -/
def adaptLoopNumbers (d : Int) (k : Nat) : List Number :=
  if d > (((36 - 1) * 26) >>> 1 : Nat) then
    [.result (d / (36 - 1)), .result (k + 36)] ++ adaptLoopNumbers (d / (36 - 1)) (k + 36)
  else []
termination_by d.toNat
decreasing_by omega

/-- The numbers of one call of `adapt`. -/
def adaptNumbers (delta numPoints : Nat) (firstTime : Bool) : List Number :=
  let operand := if firstTime then [] else [Number.shifted delta]
  let d : Int := if firstTime then delta / 700 else shiftRight delta
  let sum := d + d / numPoints
  let last := (adaptLoop sum 0).1
  operand ++ [.result d, .result (d / numPoints), .result sum] ++ adaptLoopNumbers sum 0 ++
    [.result ((36 - 1 + 1) * last), .result (last + 38),
      .result (((36 - 1 + 1) * last).fdiv (last + 38)), .result (adapt delta numPoints firstTime)]

/-- The numbers of one threshold. -/
def thresholdNumbers (bias : Int) (k : Nat) : List Number :=
  if k ≤ bias then []
  else if k ≥ bias + 26 then [.result (bias + 26)]
  else [.result (bias + 26), .result (k - bias)]

/-- The numbers of the loop that prints one delta. -/
def digitsNumbers (bias : Int) (q k : Nat) : List Number :=
  let t := threshold bias k
  if q < t then thresholdNumbers bias k
  else
    thresholdNumbers bias k ++
      [.result (q - t), .result (36 - t), .result ((q - t) % (36 - t)),
        .result (t + (q - t) % (36 - t)), .result ((q - t) / (36 - t)), .result (k + 36)] ++
      digitsNumbers bias ((q - t) / (36 - t)) (k + 36)
termination_by q
decreasing_by exact rest_lt ‹_›

/-- The numbers of one round of the inner loop. -/
def visitNumbers (n firstNonBasicAt : Nat) (s : State) (c : Nat) : List Number :=
  if c < n then [.result (s.delta + 1)]
  else if c = n then
    digitsNumbers s.bias s.delta 36 ++ [.result (s.handled + 1)] ++
      adaptNumbers s.delta (s.handled + 1) (s.handled = firstNonBasicAt)
  else []

/-- The inner loop over `cs`. -/
def roundNumbers (n firstNonBasicAt : Nat) (s : State) : List Nat → List Number
  | [] => []
  | c :: cs =>
      visitNumbers n firstNonBasicAt s c ++
        roundNumbers n firstNonBasicAt (visit n firstNonBasicAt s c) cs

/-- The numbers of the outer loop. -/
def loopNumbers (cps : List Nat) (firstNonBasicAt : Nat) : Nat → Nat → State → List Number
  | 0, _, _ => []
  | rounds + 1, n, s =>
      if s.handled < cps.length then
        match nextPoint cps n with
        | none => []
        | some m =>
            let s₁ := { s with delta := s.delta + (m - n) * (s.handled + 1) }
            let s₂ := cps.foldl (visit m firstNonBasicAt) s₁
            [.result (m - n), .result (s.handled + 1), .result ((m - n) * (s.handled + 1)),
                .result s₁.delta] ++
              roundNumbers m firstNonBasicAt s₁ cps ++
              [.result (s₂.delta + 1), .result (m + 1)] ++
              loopNumbers cps firstNonBasicAt rounds (m + 1) { s₂ with delta := s₂.delta + 1 }
      else []

end Punycode

/-- The numbers that the delta and the bias of `punycodeEncode` go through. -/
def punycodeNumbers (cps : List Nat) : List Number :=
  Punycode.loopNumbers cps (Punycode.basic cps).length cps.length 128 (Punycode.start cps)

end CumulusVpn.Split
