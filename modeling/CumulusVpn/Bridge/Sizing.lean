/-
What a payout buys at the gateways.

* `effective_eq_pred`: the effective price changes only at an entry start and
  where a grace window ends;
* `effective_le_maxEffective`: **the sized price is the highest of its
  window**, and it is reached there (`exists_maxEffective`);
* `grantDays_payout`: the floor of the gateway against the ceiling of the
  bridge;
* `settlement_sizing`: **a payout that is mined before it expires grants the
  days it was sized for**, and exactly these where the price is constant.
-/
import CumulusVpn.Bridge.Flux
import CumulusVpn.Gateway.Entitle

namespace CumulusVpn

namespace Schedule

variable {s : Schedule}

/-! ### Where the effective price changes -/

/-- No price enters the window of the grace at height `h`, and none leaves
it. -/
def Quiet (s : Schedule) (h : Int) : Prop :=
  ∀ e ∈ s.entries, e.from_ ≠ h ∧ e.from_ + graceBlocks ≠ h

lemma Quiet.indexFrom_eq {h : Int} (hq : s.Quiet h) {n : Nat} (hn : n < s.len) :
    s.indexFrom h n = s.indexFrom (h - 1) n := by
  induction n with
  | zero => rfl
  | succ n ih =>
      have hne := (hq _ (s.entry_mem hn)).1
      have hiff : (s.entry (n + 1)).from_ > h ↔ (s.entry (n + 1)).from_ > h - 1 := by omega
      simp only [indexFrom, hiff, ih (by omega)]

lemma Quiet.lowestFrom_eq {h : Int} (hq : s.Quiet h) {n : Nat} (hn : n < s.len) (p : ℚ) :
    s.lowestFrom (h - graceBlocks) n p = s.lowestFrom (h - 1 - graceBlocks) n p := by
  induction n generalizing p with
  | zero => rfl
  | succ n ih =>
      have hne := (hq _ (s.entry_mem hn)).2
      have hiff : (s.entry (n + 1)).from_ > h - graceBlocks ↔
          (s.entry (n + 1)).from_ > h - 1 - graceBlocks := by omega
      simp only [lowestFrom, hiff, ih (by omega)]

/-- The effective price of a quiet height is that of the height before. -/
lemma effective_eq_pred {h : Int} (hq : s.Quiet h) : s.effective h = s.effective (h - 1) := by
  have hindex : s.index h = s.index (h - 1) :=
    hq.indexFrom_eq (Nat.sub_lt s.len_pos Nat.one_pos)
  rw [effective, effective, hindex, hq.lowestFrom_eq (s.index_lt _)]

/-- The effective price is that of some entry. -/
lemma effective_mem (s : Schedule) (h : Int) : ∃ e ∈ s.entries, s.effective h = e.flux := by
  have hloop : ∀ (lo : Int) (n : Nat) (p : ℚ), n < s.len → (∃ e ∈ s.entries, p = e.flux) →
      ∃ e ∈ s.entries, s.lowestFrom lo n p = e.flux := by
    intro lo n
    induction n with
    | zero => exact fun p _ hp => hp
    | succ n ih =>
        intro p hn hp
        rw [lowestFrom]
        split
        · refine ih _ (by omega) ?_
          rcases min_choice p (s.entry n).flux with hmin | hmin
          · rw [hmin]
            exact hp
          · exact ⟨_, s.entry_mem (by omega), hmin⟩
        · exact hp
  exact hloop _ _ _ (s.index_lt h) ⟨_, s.entry_mem (s.index_lt h), rfl⟩

end Schedule

namespace Bridge

/-! ### The highest price of a window -/

section Window

variable (s : Schedule) (lo hi : Int)

/-- One entry of `maxEffective`. -/
def raise (p : ℚ) (e : Entry) : ℚ :=
  [e.from_, e.from_ + graceBlocks].foldl
    (fun p b => if b > lo ∧ b ≤ hi then max p (s.effective b) else p) p

lemma maxEffective_eq : maxEffective s lo hi = s.entries.foldl (raise s lo hi) (s.effective lo) :=
  rfl

variable {s lo hi}

lemma le_raise (p : ℚ) (e : Entry) : p ≤ raise s lo hi p e := by
  simp only [raise, List.foldl_cons, List.foldl_nil]
  split <;> split <;> simp

lemma effective_le_raise (p : ℚ) (e : Entry) {b : Int}
    (hb : b = e.from_ ∨ b = e.from_ + graceBlocks) (hlo : lo < b) (hhi : b ≤ hi) :
    s.effective b ≤ raise s lo hi p e := by
  simp only [raise, List.foldl_cons, List.foldl_nil]
  have hin : b > lo ∧ b ≤ hi := ⟨hlo, hhi⟩
  rcases hb with rfl | rfl
  · simp only [if_pos hin]
    split <;> simp
  · simp only [if_pos hin]
    exact le_max_right _ _

lemma le_foldl_raise (es : List Entry) (p : ℚ) : p ≤ es.foldl (raise s lo hi) p := by
  induction es generalizing p with
  | nil => exact le_rfl
  | cons e es ih => exact (le_raise p e).trans (ih _)

/-- The price at a boundary of the window is among those compared. -/
lemma effective_le_foldl_raise {es : List Entry} {e : Entry} (he : e ∈ es) (p : ℚ) {b : Int}
    (hb : b = e.from_ ∨ b = e.from_ + graceBlocks) (hlo : lo < b) (hhi : b ≤ hi) :
    s.effective b ≤ es.foldl (raise s lo hi) p := by
  induction es generalizing p with
  | nil => cases he
  | cons e' es ih =>
      rcases List.mem_cons.mp he with rfl | he
      · exact (effective_le_raise p e hb hlo hhi).trans (le_foldl_raise es _)
      · exact ih he _

/-- **The sized price is the highest effective price of its window.** -/
theorem effective_le_maxEffective {h : Int} (hlo : lo ≤ h) (hhi : h ≤ hi) :
    s.effective h ≤ maxEffective s lo hi := by
  rw [maxEffective_eq]
  -- upwards from `lo`: the price changes at a boundary only
  induction h, hlo using Int.leInduction with
  | base => exact le_foldl_raise _ _
  | succ h hlo ih =>
      by_cases hq : s.Quiet (h + 1)
      · rw [Schedule.effective_eq_pred hq, add_sub_cancel_right]
        exact ih (by omega)
      · simp only [Schedule.Quiet, not_forall, not_and_or, not_not] at hq
        obtain ⟨e, he, hb⟩ := hq
        exact effective_le_foldl_raise he _ (hb.imp Eq.symm Eq.symm) (by omega) hhi

/-- The sized price is in effect somewhere in its window. -/
lemma exists_maxEffective (hle : lo ≤ hi) :
    ∃ b, lo ≤ b ∧ b ≤ hi ∧ maxEffective s lo hi = s.effective b := by
  have hstep : ∀ (p : ℚ) (b : Int), (∃ a, lo ≤ a ∧ a ≤ hi ∧ p = s.effective a) →
      ∃ a, lo ≤ a ∧ a ≤ hi ∧
        (if b > lo ∧ b ≤ hi then max p (s.effective b) else p) = s.effective a := by
    intro p b hp
    split
    · rename_i hb
      rcases max_choice p (s.effective b) with hmax | hmax
      · rw [hmax]
        exact hp
      · exact ⟨b, hb.1.le, hb.2, hmax⟩
    · exact hp
  have hfold : ∀ (es : List Entry) (p : ℚ), (∃ a, lo ≤ a ∧ a ≤ hi ∧ p = s.effective a) →
      ∃ a, lo ≤ a ∧ a ≤ hi ∧ es.foldl (raise s lo hi) p = s.effective a := by
    intro es
    induction es with
    | nil => exact fun p hp => hp
    | cons e es ih => exact fun p hp => ih _ (hstep _ _ (hstep _ _ hp))
  exact hfold _ _ ⟨lo, le_rfl, hle, rfl⟩

end Window

/-! ### Ceiling and floor -/

/-- The ceiling covers the days, by less than one zat. -/
lemma zatsForDays_bounds (priceZats days : Int) :
    priceZats * days ≤ 30 * zatsForDays priceZats days ∧
      30 * zatsForDays priceZats days ≤ priceZats * days + 29 := by
  rw [zatsForDays]
  omega

lemma fluxToZats_of_whole {p : ℚ} {z : Int} (h : p * 10 ^ 8 = z) : fluxToZats p = z := by
  have hfloor : ⌊(z : ℚ) + 1 / 2⌋ = z := by
    rw [Int.floor_eq_iff]
    constructor <;> linarith
  rw [fluxToZats, h]
  exact hfloor

/-- The days of a payment in whole zats: the slack is a tenth of one. -/
lemma grantDays_of_whole {tx : Tx} {zats q : Int} {p : ℚ} (hamount : tx.amountTo = zats / 10 ^ 8)
    (hp : p * 10 ^ 8 = q) (hq : 0 < q) (hzats : 0 ≤ zats) :
    grantDays tx p = (30 * zats + 3) / q := by
  obtain ⟨n, rfl⟩ := Int.eq_ofNat_of_zero_le hq.le
  have hn : ((n : Int) : ℚ) ≠ 0 := by exact_mod_cast hq.ne'
  have hval : 30 * (tx.amountTo + epsilon) / p = ((30 * zats + 3 : Int) : ℚ) / (n : ℚ) := by
    have hp0 : p ≠ 0 := by
      rintro rfl
      rw [zero_mul] at hp
      exact hn hp.symm
    rw [div_eq_div_iff hp0 (by exact_mod_cast hn), hamount, ← Int.cast_natCast n, ← hp, epsilon]
    push_cast
    ring
  have hnum : (0 : ℚ) ≤ ((30 * zats + 3 : Int) : ℚ) := by exact_mod_cast (by omega)
  have hnonneg : (0 : ℚ) ≤ ((30 * zats + 3 : Int) : ℚ) / (n : ℚ) := div_nonneg hnum n.cast_nonneg
  rw [grantDays, hval, truncInt, Int.tdiv_eq_ediv_of_nonneg (Rat.num_nonneg.mpr hnonneg),
    ← Rat.floor_def', Rat.floor_intCast_div_natCast]

/-- The floor of the gateway against the ceiling of the bridge: a payout sized
at the price `z` buys its days at any price up to `z`, and no more at `z`
itself. -/
lemma grantDays_payout {tx : Tx} {z q days : Int} {p : ℚ}
    (hamount : tx.amountTo = zatsForDays z days / 10 ^ 8) (hp : p * 10 ^ 8 = q) (hq : 32 < q)
    (hqz : q ≤ z) (hdays : 1 ≤ days) :
    days ≤ grantDays tx p ∧ (q = z → grantDays tx p = days) := by
  obtain ⟨hlow, hhigh⟩ := zatsForDays_bounds z days
  have hpos : 0 < z * days := Int.mul_pos (by omega) (by omega)
  rw [grantDays_of_whole hamount hp (by omega) (by omega)]
  have hle : days * q ≤ 30 * zatsForDays z days + 3 := by
    calc days * q ≤ days * z := Int.mul_le_mul_of_nonneg_left hqz (by omega)
      _ = z * days := Int.mul_comm days z
      _ ≤ 30 * zatsForDays z days + 3 := by omega
  refine ⟨(Int.le_ediv_iff_mul_le (by omega)).mpr hle, ?_⟩
  rintro rfl
  refine Int.le_antisymm ?_ ((Int.le_ediv_iff_mul_le (by omega)).mpr hle)
  refine Int.lt_add_one_iff.mp (Int.ediv_lt_of_lt_mul (by omega) ?_)
  calc 30 * zatsForDays q days + 3 ≤ q * days + 32 := by omega
    _ < q * days + q := by omega
    _ = (days + 1) * q := by ring

/-- Such a payout is worth a day at least. -/
lemma pays_of_payout {tx : Tx} {z q days : Int} {p : ℚ}
    (hamount : tx.amountTo = zatsForDays z days / 10 ^ 8) (hp : p * 10 ^ 8 = q) (hq : 0 < q)
    (hqz : q ≤ z) (hdays : 1 ≤ days) : ¬ 30 * (tx.amountTo + epsilon) < p := by
  obtain ⟨hlow, -⟩ := zatsForDays_bounds z days
  have hz : z ≤ z * days := by
    calc z = z * 1 := (mul_one z).symm
      _ ≤ z * days := Int.mul_le_mul_of_nonneg_left hdays (by omega)
  have hcover : (q : ℚ) ≤ 30 * zatsForDays z days := by
    exact_mod_cast hqz.trans (hz.trans hlow)
  rw [hamount, epsilon, not_lt]
  linarith

/-! ### The settlement -/

/-- A price in whole zatoshis above 32 of them. -/
def WholePrice (flux : ℚ) : Prop := ∃ z : Int, 32 < z ∧ flux * 10 ^ 8 = z

/-- **A payout that is mined before it expires grants the days it was sized
for.**  It grants exactly these where the price is constant over the window. -/
theorem settlement_sizing {c : Config} (hprices : ∀ e ∈ c.priceSchedule.entries, WholePrice e.flux)
    {tip days : Int} (hdays : 1 ≤ days) {tx : Tx} (htip : tip < tx.height)
    (hexpiry : tx.height ≤ tip + expiryDelta)
    (hamount : tx.amountTo = payoutZats c tip days / 10 ^ 8) {code : String}
    (hmemo : memoParse tx.memos = .ok code) (m : PaidMap) (address : String) :
    ∃ granted, grant m tx address c.priceSchedule =
        some (code, m.at_ code, m.insert code (stack (m.at_ code) granted tx.time)) ∧
      days ≤ granted ∧
      ((∀ b, tip ≤ b → b ≤ tip + expiryDelta →
        c.priceSchedule.effective b = c.priceSchedule.effective tx.height) → granted = days) := by
  have hwhole : ∀ b, WholePrice (c.priceSchedule.effective b) := by
    intro b
    obtain ⟨e, he, heq⟩ := c.priceSchedule.effective_mem b
    rw [heq]
    exact hprices e he
  obtain ⟨q, hq, hp⟩ := hwhole tx.height
  obtain ⟨top, htop, htop', hmax⟩ :=
    @exists_maxEffective c.priceSchedule tip (tip + expiryDelta) (by rw [expiryDelta]; omega)
  obtain ⟨z, hz, hpz⟩ := hwhole top
  have hle : c.priceSchedule.effective tx.height ≤ _ := effective_le_maxEffective htip.le hexpiry
  have hqz : q ≤ z := by
    rw [hmax] at hle
    have hcast : (q : ℚ) ≤ z := by linarith
    exact_mod_cast hcast
  rw [payoutZats, hmax, fluxToZats_of_whole hpz] at hamount
  obtain ⟨hge, hexact⟩ := grantDays_payout hamount hp hq hqz hdays
  refine ⟨grantDays tx (c.priceSchedule.effective tx.height), ?_, hge, ?_⟩
  · have hpaid := pays_of_payout hamount hp (by omega) hqz hdays
    have hvalid : validPayment tx address (c.priceSchedule.effective tx.height) = some code := by
      rw [validPayment, if_neg hpaid, hmemo]
    rw [grant_eq, credit, hvalid, Option.bind_some, if_neg (by omega)]
    rfl
  · intro hconst
    refine hexact ?_
    have heq := hconst top htop htop'
    rw [heq, hp] at hpz
    exact_mod_cast hpz

/-- A price drop within the grace. -/
def dropSchedule : Schedule where
  entries := [⟨0, 20⟩, ⟨100, 12⟩]
  nonempty := by decide
  startsAtZero := rfl
  increasing := by decide
  positive := by decide +kernel

/-- The bridge under that schedule. -/
def dropConfig : Config where
  treasury := "t"
  paymentAddress := "p"
  priceSchedule := dropSchedule
  feeZats := 1
  isValidPaymentCode := fun _ => true
  txid := fun _ => ""

/-- Three days, sized below the drop at 20 FLUX and mined above it. -/
theorem settlement_sizing_drop :
    ∃ granted, grant ∅ ⟨"tx", 100, 0, 2, ["CVPN1:abc"]⟩ "p" dropSchedule =
        some ("abc", PaidMap.at_ ∅ "abc",
          (∅ : PaidMap).insert "abc" (stack (PaidMap.at_ ∅ "abc") granted 0)) ∧
      3 ≤ granted ∧
      ((∀ b, 90 ≤ b → b ≤ 90 + expiryDelta →
          dropSchedule.effective b = dropSchedule.effective 100) →
        granted = 3) := by
  have hprices : ∀ e ∈ dropConfig.priceSchedule.entries, WholePrice e.flux := by
    intro e he
    rcases List.mem_cons.mp he with rfl | he
    · exact ⟨2000000000, by decide, by norm_num⟩
    · obtain rfl := List.mem_singleton.mp he
      exact ⟨1200000000, by decide, by norm_num⟩
  exact @settlement_sizing dropConfig hprices 90 3 (by decide) ⟨"tx", 100, 0, 2, ["CVPN1:abc"]⟩
    (by decide) (by decide) (by decide +kernel) "abc" (by decide +kernel) ∅ "p"

end Bridge

end CumulusVpn
