/-
The FLUX price schedule (`gateway/internal/price/price.go`): which monthly
price a payment mined at a given block height is judged against.

* `Schedule`: a validated schedule; its fields carry what `Parse` checks, so
  an empty schedule or one whose heights do not increase cannot be built;
* `Schedule.index`, `Schedule.at_`, `Schedule.effective`: the lookups, with
  the loops of the source;
* `Schedule.Extends`, `Schedule.HasPrefix`: appended entries only;
* `effective_pos`: every payment is judged against a positive price;
* `Schedule.Extends.effective_eq`: **appending entries above a height
  re-judges nothing at or below it**, grace included.
-/
import Mathlib.Data.List.GetD
import Mathlib.Data.Rat.Floor
import Mathlib.Tactic.Linarith

namespace CumulusVpn

/-- How long the previous price stays payable after a change: 72 h at the
30 s block time. -/
def graceBlocks : Int := 8640

/-- One step of the schedule: from height `from_` on, a 30-day month costs
`flux`. -/
structure Entry where
  from_ : Int
  flux : ℚ
deriving DecidableEq, Repr, Inhabited

/-- An immutable, validated price schedule. -/
structure Schedule where
  entries : List Entry
  /-- the zero value is not usable -/
  nonempty : entries ≠ []
  /-- the first entry starts at height 0 -/
  startsAtZero : (entries.head nonempty).from_ = 0
  /-- heights strictly increase -/
  increasing : entries.Pairwise fun e f => e.from_ < f.from_
  /-- prices are positive -/
  positive : ∀ e ∈ entries, 0 < e.flux

/-- The price that configurations to run have. -/
lemma twenty_pos : (0 : ℚ) < 20 := by norm_num

namespace Schedule

@[ext] lemma ext {s t : Schedule} (h : s.entries = t.entries) : s = t := by
  cases s; cases t; cases h; rfl

/-- `Equal` compares the entries. -/
instance : DecidableEq Schedule := fun s t =>
  decidable_of_iff (s.entries = t.entries) ⟨ext, congrArg _⟩

/-- A schedule with a single price for all of history. -/
def flat (flux : ℚ) (h : 0 < flux) : Schedule where
  entries := [⟨0, flux⟩]
  nonempty := List.cons_ne_nil _ _
  startsAtZero := rfl
  increasing := List.pairwise_singleton _ _
  positive := by simpa using h

/-- The number of entries. -/
def len (s : Schedule) : Nat := s.entries.length

/-- The `i`-th entry. -/
def entry (s : Schedule) (i : Nat) : Entry := s.entries.getD i default

/-- The price of the last entry. -/
def latest (s : Schedule) : ℚ := (s.entry (s.len - 1)).flux

/-- The loop of `index`: down from `i` while the entry starts above `h`. -/
def indexFrom (s : Schedule) (h : Int) : Nat → Nat
  | 0 => 0
  | i + 1 => if (s.entry (i + 1)).from_ > h then s.indexFrom h i else i + 1

/-- The entry in force at height `h`. -/
def index (s : Schedule) (h : Int) : Nat := s.indexFrom h (s.len - 1)

/-- The price in force at height `h`: what a new payment should be quoted. -/
def at_ (s : Schedule) (h : Int) : ℚ := (s.entry (s.index h)).flux

/-- The loop of `Effective` over `j`, downwards from `i - 1`: entry `j` was
still in force at `lo` iff its successor starts above `lo`. -/
def lowestFrom (s : Schedule) (lo : Int) : Nat → ℚ → ℚ
  | 0, p => p
  | j + 1, p =>
      if (s.entry (j + 1)).from_ > lo then s.lowestFrom lo j (min p (s.entry j).flux) else p

/-- The price a tx mined at height `h` is judged against: the lowest price
in force at any height in `[h - graceBlocks, h]`. -/
def effective (s : Schedule) (h : Int) : ℚ :=
  s.lowestFrom (h - graceBlocks) (s.index h) (s.entry (s.index h)).flux

/-- `s` is `prev` with zero or more entries appended, all starting strictly
after height `after`. -/
def Extends (s prev : Schedule) (after : Int) : Prop :=
  prev.entries <+: s.entries ∧
    (prev.len < s.len → after < (s.entry prev.len).from_)

instance (s prev : Schedule) (after : Int) : Decidable (s.Extends prev after) :=
  inferInstanceAs (Decidable (_ ∧ _))

/-- `s` is `prev` with zero or more entries appended, wherever they start. -/
def HasPrefix (s prev : Schedule) : Prop := s.Extends prev (-1)

instance (s prev : Schedule) : Decidable (s.HasPrefix prev) :=
  inferInstanceAs (Decidable (s.Extends prev (-1)))

/-! ### Lookups stay inside the schedule -/

lemma len_pos (s : Schedule) : 0 < s.len := List.length_pos_of_ne_nil s.nonempty

lemma entry_mem (s : Schedule) {i : Nat} (hi : i < s.len) : s.entry i ∈ s.entries := by
  rw [entry, List.getD_eq_getElem _ _ hi]
  exact List.getElem_mem hi

lemma entry_zero (s : Schedule) : s.entry 0 = s.entries.head s.nonempty := by
  obtain ⟨e, es, h⟩ := List.exists_cons_of_ne_nil s.nonempty
  simp [entry, h]

/-- Starts increase with the index. -/
lemma from_lt_from (s : Schedule) {i j : Nat} (hij : i < j) (hj : j < s.len) :
    (s.entry i).from_ < (s.entry j).from_ := by
  have hi : i < s.len := hij.trans hj
  rw [entry, entry, List.getD_eq_getElem _ _ hi, List.getD_eq_getElem _ _ hj]
  exact List.pairwise_iff_getElem.mp s.increasing i j hi hj hij

/-- No entry starts below height 0. -/
lemma from_nonneg (s : Schedule) {i : Nat} (hi : i < s.len) : 0 ≤ (s.entry i).from_ := by
  have h0 : (s.entry 0).from_ = 0 := by
    rw [s.entry_zero]
    exact s.startsAtZero
  cases i with
  | zero => exact h0.ge
  | succ i => exact h0.ge.trans (s.from_lt_from (Nat.succ_pos i) hi).le

lemma indexFrom_le (s : Schedule) (h : Int) (n : Nat) : s.indexFrom h n ≤ n := by
  induction n with
  | zero => exact le_rfl
  | succ n ih =>
      rw [indexFrom]
      split
      · exact ih.trans (Nat.le_succ n)
      · exact le_rfl

lemma index_lt (s : Schedule) (h : Int) : s.index h < s.len :=
  (s.indexFrom_le h _).trans_lt (Nat.sub_lt s.len_pos Nat.one_pos)

/-- The entry found is in force at `h`, or it is the first one. -/
lemma from_indexFrom_le (s : Schedule) (h : Int) (n : Nat) :
    s.indexFrom h n = 0 ∨ (s.entry (s.indexFrom h n)).from_ ≤ h := by
  induction n with
  | zero => exact Or.inl rfl
  | succ n ih =>
      rw [indexFrom]
      split
      · exact ih
      · exact Or.inr (by omega)

lemma lowestFrom_pos (s : Schedule) (lo : Int) {n : Nat} {p : ℚ} (hn : n < s.len) (hp : 0 < p) :
    0 < s.lowestFrom lo n p := by
  induction n generalizing p with
  | zero => exact hp
  | succ n ih =>
      rw [lowestFrom]
      split
      · have hflux : 0 < (s.entry n).flux := s.positive _ (s.entry_mem (by omega))
        exact ih (by omega) (lt_min hp hflux)
      · exact hp

/-- Every tx is judged against a positive price. -/
theorem effective_pos (s : Schedule) (h : Int) : 0 < s.effective h :=
  s.lowestFrom_pos _ (s.index_lt h) (s.positive _ (s.entry_mem (s.index_lt h)))

/-! ### Appending entries -/

lemma Extends.refl (s : Schedule) (after : Int) : s.Extends s after :=
  ⟨List.prefix_refl _, fun h => absurd h (lt_irrefl _)⟩

/-- Extending above a height extends above every lower one. -/
lemma Extends.mono {s prev : Schedule} {a b : Int} (h : s.Extends prev b) (hab : a ≤ b) :
    s.Extends prev a :=
  ⟨h.1, fun hlt => hab.trans_lt (h.2 hlt)⟩

lemma Extends.len_le {s prev : Schedule} {a : Int} (h : s.Extends prev a) : prev.len ≤ s.len :=
  h.1.length_le

/-- The two schedules agree on the entries of the shorter one. -/
lemma Extends.entry_eq {s prev : Schedule} {a : Int} (h : s.Extends prev a) {i : Nat}
    (hi : i < prev.len) : s.entry i = prev.entry i := by
  rw [entry, entry, List.getD_eq_getElem _ _ hi,
    List.getD_eq_getElem _ _ (hi.trans_le h.len_le)]
  exact (h.1.getElem hi).symm

/-- Every appended entry starts above `after`. -/
lemma Extends.lt_from {s prev : Schedule} {a : Int} (h : s.Extends prev a) {i : Nat}
    (hi : prev.len ≤ i) (his : i < s.len) : a < (s.entry i).from_ := by
  rcases hi.lt_or_eq with hlt | rfl
  · exact (h.2 (hlt.trans his)).trans (s.from_lt_from hlt his)
  · exact h.2 his

/-- Appending entries is transitive. -/
lemma Extends.trans {s t u : Schedule} {a : Int} (hst : s.Extends t a) (htu : t.Extends u a) :
    s.Extends u a := by
  refine ⟨htu.1.trans hst.1, fun hlt => ?_⟩
  by_cases h : u.len < t.len
  · rw [hst.entry_eq h]
    exact htu.2 h
  · exact hst.lt_from (Nat.le_of_not_lt h) hlt

/-- The search skips the appended entries at a height none of them reaches. -/
lemma Extends.indexFrom_eq {s prev : Schedule} {a h : Int} (hext : s.Extends prev a) (hle : h ≤ a)
    {n : Nat} (hn : n < s.len) :
    s.indexFrom h n = prev.indexFrom h (min n (prev.len - 1)) := by
  have hpos := prev.len_pos
  induction n with
  | zero => rw [Nat.zero_min]; rfl
  | succ n ih =>
      by_cases hin : n + 1 < prev.len
      · have hm : min (n + 1) (prev.len - 1) = n + 1 := by omega
        have hm' : min n (prev.len - 1) = n := by omega
        rw [hm, indexFrom, indexFrom, hext.entry_eq hin, ih (by omega), hm']
      · have hskip : (s.entry (n + 1)).from_ > h :=
          hle.trans_lt (hext.lt_from (Nat.le_of_not_lt hin) hn)
        have hm : min (n + 1) (prev.len - 1) = min n (prev.len - 1) := by omega
        rw [indexFrom, if_pos hskip, ih (by omega), hm]

/-- The grace window only looks at entries both schedules have. -/
lemma Extends.lowestFrom_eq {s prev : Schedule} {a : Int} (hext : s.Extends prev a) (lo : Int)
    {n : Nat} (hn : n < prev.len) (p : ℚ) : s.lowestFrom lo n p = prev.lowestFrom lo n p := by
  induction n generalizing p with
  | zero => rfl
  | succ n ih =>
      rw [lowestFrom, lowestFrom, hext.entry_eq hn, hext.entry_eq (by omega : n < prev.len),
        ih (by omega)]

lemma Extends.index_eq {s prev : Schedule} {a h : Int} (hext : s.Extends prev a) (hle : h ≤ a) :
    s.index h = prev.index h := by
  have hlen := hext.len_le
  have hpos := prev.len_pos
  have hm : min (s.len - 1) (prev.len - 1) = prev.len - 1 := by omega
  rw [index, hext.indexFrom_eq hle (by omega), hm, index]

/-- **Appending entries above a height re-judges nothing at or below it**:
every tx at or below `after` has the same effective price under both
schedules. -/
theorem Extends.effective_eq {s prev : Schedule} {a h : Int} (hext : s.Extends prev a)
    (hle : h ≤ a) : s.effective h = prev.effective h := by
  rw [effective, effective, hext.index_eq hle, hext.lowestFrom_eq _ (prev.index_lt h),
    hext.entry_eq (prev.index_lt h)]

end Schedule

end CumulusVpn
