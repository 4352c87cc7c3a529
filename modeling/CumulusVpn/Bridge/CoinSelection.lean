/-
Coin selection (`bridge/src/flux/utxo.ts`) and the transaction built from it.

* `usable`, `zats`: the coins that are not excluded, and what coins total;
* `selectUtxos_eq_ok`: a selection is the shortest covering prefix of the usable
  coins, largest first;
* `buildPaymentTx_fee`: what a transaction leaves to the miners;
* `selection_funds`: **coins are selected just when they suffice, as few as
  possible, and the transaction loses none of their value**.
-/
import CumulusVpn.Lib.Covering
import CumulusVpn.Bridge.Flux

namespace CumulusVpn.Bridge

open Covering (weight Shortest)

/-- The coins that are not excluded. -/
def usable (available : List Utxo) (excluded : List Outpoint) : List Utxo :=
  available.filter fun u => u.outpoint ∉ excluded

/-- What coins total. -/
def zats (coins : List Utxo) : Int := weight Utxo.satoshis coins

/-- The value of an output. -/
def Output.zats : Output → Int
  | .pay _ zats => zats
  | .nullData _ => 0

section Selection

variable {needed : Int} {sel : Selection}

/-- The loop takes the shortest prefix that covers what is still needed. -/
lemma takeUtxos_eq_ok {coins inputs : List Utxo} {total : Int} (htotal : total < needed)
    (h : takeUtxos needed coins inputs total = .ok sel) :
    ∃ taken, Shortest Utxo.satoshis (needed - total) coins taken ∧
      sel = ⟨inputs ++ taken, total + zats taken⟩ := by
  induction coins generalizing inputs total with
  | nil => cases h
  | cons u coins ih =>
      rw [takeUtxos] at h
      split at h
      · rename_i hcovers
        cases h
        refine ⟨[u], ⟨List.prefix_append [u] coins, ?_, fun ys _ hlength => ?_⟩, ?_⟩
        · rw [Covering.weight_cons, Covering.weight_nil]
          omega
        · rw [List.length_eq_zero_iff.mp (Nat.lt_one_iff.mp hlength), Covering.weight_nil]
          omega
        · rw [zats, Covering.weight_cons, Covering.weight_nil, add_zero]
      · rename_i hshort
        obtain ⟨taken, htaken, rfl⟩ := ih (by omega) h
        refine ⟨u :: taken, ⟨?_, ?_, fun ys hys hlength => ?_⟩, ?_⟩
        · exact (List.prefix_cons_inj u).mpr htaken.isPrefix
        · have hcovers := htaken.covers
          rw [Covering.weight_cons]
          omega
        · cases ys with
          | nil =>
              rw [Covering.weight_nil]
              omega
          | cons v ys =>
              obtain ⟨rfl, htail⟩ := List.cons_prefix_cons.mp hys
              have hleast := htaken.least ys htail (Nat.lt_of_succ_lt_succ hlength)
              rw [Covering.weight_cons]
              omega
        · rw [List.append_assoc, List.singleton_append, zats, zats, Covering.weight_cons,
            add_assoc]

/-- Where the loop fails, all coins together are too few. -/
lemma takeUtxos_eq_error {coins inputs : List Utxo} {total : Int} {e : BuildError}
    (htotal : total < needed) (h : takeUtxos needed coins inputs total = .error e) :
    total + zats coins < needed ∧ e = .insufficientFunds needed (total + zats coins) := by
  induction coins generalizing inputs total with
  | nil =>
      cases h
      rw [zats, Covering.weight_nil, add_zero]
      exact ⟨htotal, rfl⟩
  | cons u coins ih =>
      rw [takeUtxos] at h
      split at h
      · cases h
      · rename_i hshort
        have hrest := ih (by omega) h
        rw [zats, Covering.weight_cons, ← add_assoc]
        exact hrest

end Selection

section Sorted

variable {available : List Utxo} {excluded : List Outpoint} {needed : Int} {sel : Selection}

/-- The usable coins, largest first. -/
def largestFirst (available : List Utxo) (excluded : List Outpoint) : List Utxo :=
  (usable available excluded).insertionSort fun a b => b.satoshis ≤ a.satoshis

lemma largestFirst_perm : (largestFirst available excluded).Perm (usable available excluded) :=
  List.perm_insertionSort _ _

lemma largestFirst_sorted :
    (largestFirst available excluded).Pairwise fun a b => b.satoshis ≤ a.satoshis := by
  have htotal : Std.Total fun a b : Utxo => b.satoshis ≤ a.satoshis :=
    ⟨fun a b => le_total b.satoshis a.satoshis⟩
  have htrans : IsTrans Utxo fun a b => b.satoshis ≤ a.satoshis :=
    ⟨fun a b c hab hbc => hbc.trans hab⟩
  exact List.pairwise_insertionSort _ _

/-- A selection is the shortest covering prefix of the usable coins. -/
lemma selectUtxos_eq_ok (hneeded : 0 < needed)
    (h : selectUtxos available excluded needed = .ok sel) :
    Shortest Utxo.satoshis needed (largestFirst available excluded) sel.inputs ∧
      sel.totalZats = zats sel.inputs := by
  obtain ⟨taken, htaken, rfl⟩ := takeUtxos_eq_ok hneeded h
  rw [sub_zero] at htaken
  exact ⟨htaken, zero_add _⟩

lemma selectUtxos_eq_error {e : BuildError} (hneeded : 0 < needed)
    (h : selectUtxos available excluded needed = .error e) :
    zats (usable available excluded) < needed := by
  have hshort := (takeUtxos_eq_error hneeded h).1
  rw [zero_add] at hshort
  have htotal : zats (largestFirst available excluded) = zats (usable available excluded) :=
    Covering.weight_perm largestFirst_perm
  exact htotal ▸ hshort

/-- Selected coins are usable ones. -/
lemma inputs_subperm (hneeded : 0 < needed)
    (h : selectUtxos available excluded needed = .ok sel) :
    sel.inputs.Subperm (usable available excluded) :=
  (selectUtxos_eq_ok hneeded h).1.isPrefix.sublist.subperm.trans largestFirst_perm.subperm

lemma mem_usable {u : Utxo} :
    u ∈ usable available excluded ↔ u ∈ available ∧ u.outpoint ∉ excluded := by
  rw [usable, List.mem_filter, decide_eq_true_iff]

/-- Positive coins total no less than some of them. -/
lemma zats_le_of_subperm {coins coins' : List Utxo} (h : coins.Subperm coins')
    (hpos : ∀ u ∈ coins', 0 < u.satoshis) : zats coins ≤ zats coins' := by
  obtain ⟨zs, hperm, hsub⟩ := h
  rw [zats, ← Covering.weight_perm hperm]
  refine (hsub.map Utxo.satoshis).sum_le_sum fun z hz => ?_
  obtain ⟨u, hu, rfl⟩ := List.mem_map.mp hz
  exact (hpos u hu).le

end Sorted

/-- A transaction leaves the configured fee to the miners, and less than the
dust limit on top. -/
lemma buildPaymentTx_fee {c : Config} {inputs : List Utxo} {amount : Int} {memo : String}
    {tip : Int} (hcovers : amount + c.feeZats ≤ zats inputs) :
    ∃ tx fee, buildPaymentTx c inputs (zats inputs) amount memo tip = .ok tx ∧
      tx.inputs = inputs.map Utxo.outpoint ∧
      zats inputs = (tx.outputs.map Output.zats).sum + fee ∧
      c.feeZats ≤ fee ∧ fee < c.feeZats + dustZats := by
  have hchange : ¬ zats inputs - amount - c.feeZats < 0 := by omega
  by_cases hdust : zats inputs - amount - c.feeZats ≥ dustZats
  · refine ⟨_, c.feeZats, if_neg hchange, rfl, ?_, le_rfl, ?_⟩
    · rw [if_pos hdust]
      simp only [List.map_append, List.map_cons, List.map_nil, List.sum_append, List.sum_cons,
        List.sum_nil, Output.zats]
      omega
    · rw [dustZats]
      omega
  · refine ⟨_, zats inputs - amount, if_neg hchange, rfl, ?_, by omega, by omega⟩
    rw [if_neg hdust]
    simp only [List.append_nil, List.map_cons, List.map_nil, List.sum_cons, List.sum_nil,
      Output.zats]
    omega

/-- **Coins are selected just when the usable ones suffice; they are distinct,
cover the need, and no smaller choice does; and the transaction that is built
from them pays what they total, with a fee below the dust limit above the
configured one.** -/
theorem selection_funds (c : Config) {available : List Utxo} (excluded : List Outpoint)
    {needed : Int} (hdistinct : (available.map Utxo.outpoint).Nodup)
    (hpos : ∀ u ∈ available, 0 < u.satoshis) (hneeded : 0 < needed) :
    ((∃ sel, selectUtxos available excluded needed = .ok sel) ↔
        needed ≤ zats (usable available excluded)) ∧
      ∀ sel, selectUtxos available excluded needed = .ok sel →
        (sel.inputs.map Utxo.outpoint).Nodup ∧
        (∀ u ∈ sel.inputs, u ∈ available ∧ u.outpoint ∉ excluded) ∧
        needed ≤ zats sel.inputs ∧
        (∀ coins : List Utxo, coins.Nodup →
          (∀ u ∈ coins, u ∈ available ∧ u.outpoint ∉ excluded) → needed ≤ zats coins →
            sel.inputs.length ≤ coins.length) ∧
        ∀ amount memo tip, amount + c.feeZats = needed →
          ∃ tx fee, buildPaymentTx c sel.inputs sel.totalZats amount memo tip = .ok tx ∧
            tx.inputs = sel.inputs.map Utxo.outpoint ∧
            zats sel.inputs = (tx.outputs.map Output.zats).sum + fee ∧
            c.feeZats ≤ fee ∧ fee < c.feeZats + dustZats := by
  have husable : ∀ u ∈ usable available excluded, 0 < u.satoshis :=
    fun u hu => hpos u (mem_usable.mp hu).1
  constructor
  · constructor
    · rintro ⟨sel, hsel⟩
      obtain ⟨hshortest, -⟩ := selectUtxos_eq_ok hneeded hsel
      exact hshortest.covers.trans (zats_le_of_subperm (inputs_subperm hneeded hsel) husable)
    · intro hcovers
      cases hsel : selectUtxos available excluded needed with
      | ok sel => exact ⟨sel, rfl⟩
      | error e => exact absurd hcovers (not_le_of_gt (selectUtxos_eq_error hneeded hsel))
  · intro sel hsel
    obtain ⟨hshortest, htotal⟩ := selectUtxos_eq_ok hneeded hsel
    have hinputs := inputs_subperm hneeded hsel
    have hcovers : needed ≤ zats sel.inputs := hshortest.covers
    refine ⟨?_, fun u hu => mem_usable.mp (hinputs.subset hu), hcovers, ?_, ?_⟩
    · obtain ⟨zs, hperm, hzs⟩ := hinputs
      have hsub := (hzs.trans List.filter_sublist).map Utxo.outpoint
      exact (hperm.map Utxo.outpoint).nodup_iff.mp (hsub.nodup hdistinct)
    · intro coins hnodup hcoins hneed
      have hsubset : coins ⊆ usable available excluded := fun u hu => mem_usable.mpr (hcoins u hu)
      have hsub := (List.subperm_of_subset hnodup hsubset).trans largestFirst_perm.symm.subperm
      exact hshortest.length_le largestFirst_sorted hsub hneed
    · intro amount memo tip hamount
      rw [htotal]
      exact buildPaymentTx_fee (by omega)

/-- Three coins of a treasury. -/
def treasuryCoins : List Utxo :=
  [⟨⟨"aa", 0⟩, 700, 1⟩, ⟨⟨"aa", 1⟩, 2500, 0⟩, ⟨⟨"bb", 0⟩, 1200, 3⟩]

/-- A bridge that pays a fee of 500 zats. -/
def treasuryConfig : Config where
  treasury := "t"
  paymentAddress := "p"
  priceSchedule := .flat 20 twenty_pos
  feeZats := 500
  isValidPaymentCode := fun _ => true
  txid := fun _ => ""

/-- The coin in flight is left alone, and the other two pay 1300 zats. -/
theorem selection_funds_treasury :
    ∃ sel, selectUtxos treasuryCoins [⟨"aa", 1⟩] 1800 = .ok sel ∧ 1800 ≤ zats sel.inputs ∧
      ∃ tx fee, buildPaymentTx treasuryConfig sel.inputs sel.totalZats 1300 "memo" 100 = .ok tx ∧
        tx.inputs = sel.inputs.map Utxo.outpoint ∧
        zats sel.inputs = (tx.outputs.map Output.zats).sum + fee ∧ 500 ≤ fee ∧ fee < 1500 := by
  obtain ⟨hsucceeds, hsel⟩ := @selection_funds treasuryConfig treasuryCoins [⟨"aa", 1⟩] 1800
    (by decide) (by decide) (by decide)
  obtain ⟨sel, h⟩ := hsucceeds.mpr (by decide)
  obtain ⟨-, -, hcovers, -, hbuild⟩ := hsel sel h
  exact ⟨sel, h, hcovers, hbuild 1300 "memo" 100 rfl⟩

end CumulusVpn.Bridge
