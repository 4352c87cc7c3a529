/-
What the effective price is, in the gateway and in its ports
(`bridge/src/price.ts`, `deploy/scripts/price.mjs`).

* `Schedule.index_eq`: the entry in force at a height is the one that starts
  last at or below it;
* `Schedule.isLeast_effective`: the effective price is the lowest price of its
  window;
* `Bridge.PriceSchedule.effective`, `Deploy.effectivePrice`: the ports, over a
  plain list of entries;
* `effective_everywhere`: **the three of them are the minimum over the window,
  and the bridge's `maxEffective` is their maximum over its range**;
* `Schedule.Extends.judges_alike`: **appended entries change no price at or
  below the height they are appended above**.
-/
import CumulusVpn.Bridge.Sizing
import Mathlib.Order.Bounds.Basic

namespace CumulusVpn

namespace Schedule

variable {s : Schedule} {h k : Int} {i j : Nat}

/-! ### The entry in force -/

lemma le_indexFrom {n : Nat} (hj : j ≤ n) (hfrom : (s.entry j).from_ ≤ h) :
    j ≤ s.indexFrom h n := by
  induction n with
  | zero => exact hj
  | succ n ih =>
      rw [indexFrom]
      split
      · rename_i habove
        refine ih (Nat.lt_succ_iff.mp (lt_of_le_of_ne hj ?_))
        rintro rfl
        exact absurd hfrom habove.not_ge
      · exact hj

/-- The entry in force is the last one that has started. -/
lemma le_index_iff (hj : j < s.len) (hpos : 0 < j) : j ≤ s.index h ↔ (s.entry j).from_ ≤ h := by
  constructor
  · intro hle
    rcases s.from_indexFrom_le h (s.len - 1) with hzero | hfrom
    · have : j ≤ s.indexFrom h (s.len - 1) := hle
      omega
    · rcases hle.lt_or_eq with hlt | heq
      · exact (s.from_lt_from hlt (s.index_lt h)).le.trans hfrom
      · rw [heq]
        exact hfrom
  · exact le_indexFrom (by omega)

lemma lt_from_succ_index (hnext : s.index h + 1 < s.len) : h < (s.entry (s.index h + 1)).from_ := by
  have hnot : ¬ s.index h + 1 ≤ s.index h := by omega
  rw [le_index_iff hnext (Nat.succ_pos _)] at hnot
  omega

lemma index_eq (hj : j < s.len) (hfrom : (s.entry j).from_ ≤ h)
    (hnext : j + 1 < s.len → h < (s.entry (j + 1)).from_) : s.index h = j := by
  have hle : j ≤ s.index h := le_indexFrom (by omega) hfrom
  have hlt := s.index_lt h
  by_contra hne
  have hsucc : j + 1 ≤ s.index h := by omega
  have hstarted := (le_index_iff (by omega) (Nat.succ_pos j)).mp hsucc
  exact absurd hstarted (hnext (by omega)).not_ge

lemma index_mono (hk : k ≤ h) : s.index k ≤ s.index h := by
  rcases Nat.eq_zero_or_pos (s.index k) with hzero | hpos
  · omega
  · rw [le_index_iff (s.index_lt k) hpos]
    exact ((le_index_iff (s.index_lt k) hpos).mp le_rfl).trans hk

/-! ### The lowest price of the window -/

lemma lowestFrom_le_self (lo : Int) (n : Nat) (p : ℚ) : s.lowestFrom lo n p ≤ p := by
  induction n generalizing p with
  | zero => exact le_rfl
  | succ n ih =>
      rw [lowestFrom]
      split
      · exact (ih _).trans (min_le_left _ _)
      · exact le_rfl

/-- The loop looks at every entry that was in force at `lo` or later. -/
lemma lowestFrom_le {lo : Int} {n : Nat} {p : ℚ} (hn : n < s.len) (hj : j < n)
    (hlo : lo < (s.entry (j + 1)).from_) : s.lowestFrom lo n p ≤ (s.entry j).flux := by
  induction n generalizing p with
  | zero => cases hj
  | succ n ih =>
      have habove : (s.entry (n + 1)).from_ > lo := by
        rcases (Nat.succ_le_of_lt hj).lt_or_eq with hlt | heq
        · exact hlo.trans (s.from_lt_from hlt hn)
        · rw [← heq]
          exact hlo
      rw [lowestFrom, if_pos habove]
      rcases (Nat.lt_succ_iff.mp hj).lt_or_eq with hlt | rfl
      · exact ih (by omega) hlt
      · exact (lowestFrom_le_self lo j _).trans (min_le_right _ _)

/-- And only at those. -/
lemma lowestFrom_eq {lo : Int} {n : Nat} (p : ℚ) :
    s.lowestFrom lo n p = p ∨
      ∃ j < n, lo < (s.entry (j + 1)).from_ ∧ s.lowestFrom lo n p = (s.entry j).flux := by
  induction n generalizing p with
  | zero => exact Or.inl rfl
  | succ n ih =>
      rw [lowestFrom]
      split
      · rename_i habove
        rcases ih (min p (s.entry n).flux) with heq | ⟨j, hj, hlo, heq⟩
        · rw [heq]
          rcases min_choice p (s.entry n).flux with hmin | hmin
          · exact Or.inl hmin
          · exact Or.inr ⟨n, Nat.lt_succ_self n, habove, hmin⟩
        · exact Or.inr ⟨j, Nat.lt_succ_of_lt hj, hlo, heq⟩
      · exact Or.inl rfl

/-- No price of the window is lower. -/
lemma effective_le_at (hlo : h - graceBlocks ≤ k) (hk : k ≤ h) : s.effective h ≤ s.at_ k := by
  rcases (index_mono (s := s) hk).lt_or_eq with hlt | heq
  · have hlen := s.index_lt h
    have hnext := lt_from_succ_index (s := s) (h := k) (by omega)
    exact lowestFrom_le hlen hlt (by omega)
  · rw [at_, heq]
    exact lowestFrom_le_self _ _ _

/-- **The effective price is the lowest price in force in its window.** -/
lemma isLeast_effective (hh : 0 ≤ h) :
    IsLeast {p | ∃ k, max 0 (h - graceBlocks) ≤ k ∧ k ≤ h ∧ p = s.at_ k} (s.effective h) := by
  have hgrace : (0 : Int) ≤ graceBlocks := by decide
  constructor
  · rcases @lowestFrom_eq s (h - graceBlocks) (s.index h) (s.entry (s.index h)).flux with
      heq | ⟨j, hj, hlo, heq⟩
    · exact ⟨h, by omega, le_rfl, heq⟩
    · have hlen := s.index_lt h
      have hnext : j + 1 < s.len := by omega
      have hfrom : (s.entry j).from_ < (s.entry (j + 1)).from_ :=
        s.from_lt_from (Nat.lt_succ_self j) hnext
      have hstarted : (s.entry (j + 1)).from_ ≤ h :=
        (le_index_iff hnext (Nat.succ_pos j)).mp hj
      have hnonneg := s.from_nonneg (i := j) (by omega)
      -- the last height of the window before the next entry, at the latest
      refine ⟨max (s.entry j).from_ (h - graceBlocks), by omega, by omega, heq.trans ?_⟩
      rw [at_, index_eq (j := j) (by omega) (by omega) fun _ => by omega]
  · rintro p ⟨k, hlo, hk, rfl⟩
    exact effective_le_at (by omega) hk

/-! ### Appended entries -/

lemma Extends.at_eq {s prev : Schedule} {a h : Int} (hext : s.Extends prev a) (hle : h ≤ a) :
    s.at_ h = prev.at_ h := by
  rw [at_, at_, hext.index_eq hle, hext.entry_eq (prev.index_lt h)]

/-- Where no appended entry is in force, both have the same one in force. -/
lemma Extends.index_eq_of_lt {s prev : Schedule} {a h : Int} (hext : s.Extends prev a)
    (hin : s.index h < prev.len) : prev.index h = s.index h := by
  have hlen := hext.len_le
  have hprev := prev.index_lt h
  refine le_antisymm ?_ ?_
  · rcases Nat.eq_zero_or_pos (prev.index h) with hzero | hpos
    · omega
    · rw [le_index_iff (hprev.trans_le hlen) hpos, hext.entry_eq hprev]
      exact (le_index_iff hprev hpos).mp le_rfl
  · rcases Nat.eq_zero_or_pos (s.index h) with hzero | hpos
    · omega
    · rw [le_index_iff hin hpos, ← hext.entry_eq hin]
      exact (le_index_iff (hin.trans_le hlen) hpos).mp le_rfl

/-- **Nothing at or below the cursor is judged anew** under a schedule that
extends the one before above the cursor. -/
theorem Extends.judges_alike {s prev : Schedule} {c : Int} (hext : s.Extends prev c) :
    ∀ h ≤ c, s.at_ h = prev.at_ h ∧ s.effective h = prev.effective h := fun _ hle =>
  ⟨hext.at_eq hle, hext.effective_eq hle⟩

/-- Below the drop it was 20 FLUX all along. -/
theorem Extends.judges_alike_drop :
    Bridge.dropSchedule.at_ 99 = 20 ∧ Bridge.dropSchedule.effective 99 = 20 := by
  have hext : Bridge.dropSchedule.Extends (flat 20 twenty_pos) 99 := by decide +kernel
  exact hext.judges_alike 99 le_rfl

end Schedule

/-! ### The ports -/

/-- The loop of `index`, over a plain list of entries. -/
def indexIn (entries : List Entry) (h : Int) : Nat → Nat
  | 0 => 0
  | i + 1 => if (entries.getD (i + 1) default).from_ > h then indexIn entries h i else i + 1

/-- The loop of `effective`. -/
def lowestIn (entries : List Entry) (lo : Int) : Nat → ℚ → ℚ
  | 0, p => p
  | j + 1, p =>
      if (entries.getD (j + 1) default).from_ > lo then
        lowestIn entries lo j (min p (entries.getD j default).flux)
      else p

namespace Bridge.PriceSchedule

/-- The entry in force at a height. -/
def index (entries : List Entry) (h : Int) : Nat := indexIn entries h (entries.length - 1)

/-- The price in force at a height. -/
def at_ (entries : List Entry) (h : Int) : ℚ := (entries.getD (index entries h) default).flux

/-- The price a payment is held to: the lowest of the last blocks. -/
def effective (entries : List Entry) (h : Int) : ℚ :=
  lowestIn entries (h - graceBlocks) (index entries h) (entries.getD (index entries h) default).flux

end Bridge.PriceSchedule

namespace Deploy

/-- The entry in force at a height. -/
def indexAt (entries : List Entry) (h : Int) : Nat := indexIn entries h (entries.length - 1)

/-- The price in force at height `h`: what a new payment is quoted. -/
def priceAt (entries : List Entry) (h : Int) : ℚ :=
  (entries.getD (indexAt entries h) default).flux

/-- The price a tx mined at height `h` is judged against, grace included. -/
def effectivePrice (entries : List Entry) (h : Int) : ℚ :=
  lowestIn entries (h - graceBlocks) (indexAt entries h)
    (entries.getD (indexAt entries h) default).flux

end Deploy

section Ports

variable (s : Schedule) (h : Int)

lemma indexIn_entries (n : Nat) : indexIn s.entries h n = s.indexFrom h n := by
  induction n with
  | zero => rfl
  | succ n ih => rw [indexIn, ih, Schedule.indexFrom, Schedule.entry]

lemma lowestIn_entries (lo : Int) (n : Nat) (p : ℚ) :
    lowestIn s.entries lo n p = s.lowestFrom lo n p := by
  induction n generalizing p with
  | zero => rfl
  | succ n ih => rw [lowestIn, ih, Schedule.lowestFrom, Schedule.entry, Schedule.entry]

/-- The ports find the entry that the gateway finds. -/
lemma indexAt_entries : Deploy.indexAt s.entries h = s.index h := indexIn_entries s h _

lemma priceAt_entries : Deploy.priceAt s.entries h = s.at_ h := by
  rw [Deploy.priceAt, indexAt_entries, Schedule.at_, Schedule.entry]

lemma effectivePrice_entries : Deploy.effectivePrice s.entries h = s.effective h := by
  rw [Deploy.effectivePrice, indexAt_entries, lowestIn_entries, Schedule.effective, Schedule.entry]

lemma PriceSchedule.effective_entries :
    Bridge.PriceSchedule.effective s.entries h = s.effective h := effectivePrice_entries s h

end Ports

/-- **The effective price everywhere**: in the gateway, the bridge and the
deploy tooling it is the lowest price in force over the window of a height,
and the bridge sizes payouts at the highest effective price over a range. -/
theorem effective_everywhere (s : Schedule) :
    (∀ h, 0 ≤ h → ∀ p ∈ [s.effective h, Bridge.PriceSchedule.effective s.entries h,
        Deploy.effectivePrice s.entries h],
      IsLeast {p | ∃ k, max 0 (h - graceBlocks) ≤ k ∧ k ≤ h ∧ p = s.at_ k} p) ∧
    ∀ lo hi, 0 ≤ lo → lo ≤ hi →
      IsGreatest {p | ∃ h, lo ≤ h ∧ h ≤ hi ∧ p = s.effective h} (Bridge.maxEffective s lo hi) := by
  refine ⟨fun h hh p hp => ?_, fun lo hi _ hle => ⟨Bridge.exists_maxEffective hle, ?_⟩⟩
  · have hsame : p = s.effective h := by
      simpa [PriceSchedule.effective_entries, effectivePrice_entries] using hp
    rw [hsame]
    exact Schedule.isLeast_effective hh
  · rintro p ⟨h, hlo, hhi, rfl⟩
    exact Bridge.effective_le_maxEffective hlo hhi

/-- The grace ends 8640 blocks above the rise. -/
theorem effective_everywhere_rise :
    ∃ s : Schedule, s.entries = [⟨0, 12⟩, ⟨100, 20⟩] ∧
      IsLeast {p | ∃ k, max 0 (8739 - graceBlocks) ≤ k ∧ k ≤ 8739 ∧ p = s.at_ k} 12 ∧
      IsGreatest {p | ∃ h, 8700 ≤ h ∧ h ≤ 8740 ∧ p = s.effective h} 20 := by
  let s : Schedule := ⟨[⟨0, 12⟩, ⟨100, 20⟩], by decide, rfl, by decide, by decide +kernel⟩
  obtain ⟨hleast, hgreatest⟩ := effective_everywhere s
  have heff : Deploy.effectivePrice s.entries 8739 = 12 := by decide +kernel
  have hmax : Bridge.maxEffective s 8700 8740 = 20 := by decide +kernel
  refine ⟨s, rfl, ?_, ?_⟩
  · rw [← heff]
    exact hleast 8739 (by decide) _ (by simp)
  · rw [← hmax]
    exact hgreatest 8700 8740 (by decide) (by decide)

end CumulusVpn
