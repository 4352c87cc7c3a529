/-
Sizing and building the bridge's payment transactions
(`bridge/src/price.ts`, `bridge/src/grants.ts`, `bridge/src/flux/utxo.ts`,
`bridge/src/flux/tx.ts`).

* `Schedule.maxEffective`, `fluxToZats`, `zatsForDays`: what a payout costs;
* `selectUtxos`: largest-first coin selection;
* `buildPaymentTx`: the transaction, which expires `expiryDelta` blocks above
  the tip it was built at;
* `preparePayment_inputs_ne_nil`, `preparePayment_free`: a payment spends coins,
  and none that is excluded.

A raw transaction stands for its signed bytes; `txid` is a parameter of the
configuration, since hashing is outside the model.
-/
import Mathlib.Data.List.Sort
import CumulusVpn.Gateway.Price

namespace CumulusVpn.Bridge

/-- Blocks until an unmined tx expires. -/
def expiryDelta : Int := 40

/-- Below this, change is folded into the fee instead of creating dust. -/
def dustZats : Int := 1000

/-! ### Sizing -/

/-- The highest effective price over heights `[lo, hi]`: effective only
changes at an entry start or where a grace window ends. -/
def maxEffective (s : Schedule) (lo hi : Int) : ℚ :=
  s.entries.foldl
    (fun p e =>
      [e.from_, e.from_ + graceBlocks].foldl
        (fun p b => if b > lo ∧ b ≤ hi then max p (s.effective b) else p) p)
    (s.effective lo)

/-- Whole zats for a FLUX price, as `Math.round` rounds. -/
def fluxToZats (flux : ℚ) : Int := (flux * 10 ^ 8 + 1 / 2).floor

/-- Zat payout for a day grant: `ceil(priceZats * days / 30)`. -/
def zatsForDays (priceZats days : Int) : Int := -(-(priceZats * days) / 30)

/-! ### Coins and transactions -/

/-- An output of an earlier tx. -/
structure Outpoint where
  txid : String
  vout : Nat
deriving DecidableEq, Repr

/-- A coin of the treasury. -/
structure Utxo where
  outpoint : Outpoint
  satoshis : Int
  confirmations : Nat
deriving DecidableEq, Repr

/-- An output of a tx: a payment, or a memo without a value. -/
inductive Output
  | pay (address : String) (zats : Int)
  | nullData (memo : String)
deriving DecidableEq, Repr

/-- A signed transaction. -/
structure RawTx where
  inputs : List Outpoint
  outputs : List Output
  expiryHeight : Int
deriving DecidableEq, Repr

/-- The failures before anything is sent. -/
inductive BuildError
  | insufficientFunds (neededZats availableZats : Int)
  | doesNotCover
  | invalidCode
deriving DecidableEq, Repr

/-- The texts of the failures. -/
def BuildError.message : BuildError → String
  | .insufficientFunds needed available => s!"treasury has {available} zats, need {needed}"
  | .doesNotCover => "buildPaymentTx: inputs do not cover amount + fee"
  | .invalidCode => "memoForCode: invalid payment code"

/-- The coins of a tx, and their sum. -/
structure Selection where
  inputs : List Utxo
  totalZats : Int

/-- The loop of `selectUtxos` over the usable coins, largest first. -/
def takeUtxos (neededZats : Int) : List Utxo → List Utxo → Int → Except BuildError Selection
  | [], _, total => .error (.insufficientFunds neededZats total)
  | u :: usable, inputs, total =>
      let inputs := inputs ++ [u]
      let total := total + u.satoshis
      if total ≥ neededZats then .ok ⟨inputs, total⟩
      else takeUtxos neededZats usable inputs total

/-- Largest-first selection among the coins that are not excluded. -/
def selectUtxos (available : List Utxo) (excluded : List Outpoint) (neededZats : Int) :
    Except BuildError Selection :=
  takeUtxos neededZats
    ((available.filter fun u => u.outpoint ∉ excluded).insertionSort
      fun a b => b.satoshis ≤ a.satoshis) [] 0

/-- What the bridge is configured with, and the third-party code it calls. -/
structure Config where
  treasury : String
  paymentAddress : String
  priceSchedule : Schedule
  feeZats : Int
  isValidPaymentCode : String → Bool
  /-- the hash of the bytes -/
  txid : RawTx → String

/-- The memo that pays for a code. -/
def memoForCode (c : Config) (code : String) : Except BuildError String :=
  if c.isValidPaymentCode code then .ok ("CVPN1:" ++ code) else .error .invalidCode

/-- One output to the payment address, the memo, and the change unless it is
dust. -/
def buildPaymentTx (c : Config) (inputs : List Utxo) (inputTotalZats amountZats : Int)
    (memo : String) (tipHeight : Int) : Except BuildError RawTx :=
  let change := inputTotalZats - amountZats - c.feeZats
  if change < 0 then .error .doesNotCover
  else .ok
    { inputs := inputs.map Utxo.outpoint
      outputs := [.pay c.paymentAddress amountZats, .nullData memo] ++
        if change ≥ dustZats then [.pay c.treasury change] else []
      expiryHeight := tipHeight + expiryDelta }

/-- The amount a payment of `days` is sized at, when its tx is built at
`tip`. -/
def payoutZats (c : Config) (tip days : Int) : Int :=
  zatsForDays (fluxToZats (maxEffective c.priceSchedule tip (tip + expiryDelta))) days

/-- The part of a broadcaster tick between the chain reads and the
write-ahead: sizing, selection and building. -/
def preparePayment (c : Config) (tip : Int) (utxos : List Utxo) (excluded : List Outpoint)
    (days : Int) (code : String) : Except BuildError (RawTx × Int) :=
  let amountZats := payoutZats c tip days
  match selectUtxos utxos excluded (amountZats + c.feeZats) with
  | .error err => .error err
  | .ok sel =>
      match memoForCode c code with
      | .error err => .error err
      | .ok memo =>
          match buildPaymentTx c sel.inputs sel.totalZats amountZats memo tip with
          | .error err => .error err
          | .ok tx => .ok (tx, amountZats)

/-! ### A payment spends coins -/

lemma takeUtxos_inputs_ne_nil {needed total : Int} {usable inputs : List Utxo} {sel : Selection}
    (h : takeUtxos needed usable inputs total = .ok sel) : sel.inputs ≠ [] := by
  induction usable generalizing inputs total with
  | nil => cases h
  | cons u usable ih =>
      rw [takeUtxos] at h
      split at h
      · cases h
        exact List.append_ne_nil_of_right_ne_nil _ (List.cons_ne_nil _ _)
      · exact ih h

/-- A selection takes usable coins. -/
lemma mem_takeUtxos {needed total : Int} {usable inputs : List Utxo} {sel : Selection}
    (h : takeUtxos needed usable inputs total = .ok sel) :
    ∀ u ∈ sel.inputs, u ∈ inputs ∨ u ∈ usable := by
  induction usable generalizing inputs total with
  | nil => cases h
  | cons v usable ih =>
      rw [takeUtxos] at h
      intro u hu
      have hsplit : u ∈ inputs ++ [v] ∨ u ∈ usable := by
        split at h
        · cases h
          exact Or.inl hu
        · exact ih h u hu
      rcases hsplit with hmem | hmem
      · rcases List.mem_append.mp hmem with hmem | hmem
        · exact Or.inl hmem
        · exact Or.inr (List.mem_singleton.mp hmem ▸ List.mem_cons_self)
      · exact Or.inr (List.mem_cons_of_mem v hmem)

/-- A prepared payment spends the coins of a selection. -/
lemma preparePayment_inputs {c : Config} {tip days amount : Int} {utxos : List Utxo}
    {excluded : List Outpoint} {code : String} {tx : RawTx}
    (h : preparePayment c tip utxos excluded days code = .ok (tx, amount)) :
    ∃ sel needed, selectUtxos utxos excluded needed = .ok sel ∧
      tx.inputs = sel.inputs.map Utxo.outpoint := by
  simp only [preparePayment] at h
  split at h
  · cases h
  · rename_i sel hsel
    split at h
    · cases h
    · split at h
      · cases h
      · rename_i tx' hbuild
        cases h
        simp only [buildPaymentTx] at hbuild
        split at hbuild
        · cases hbuild
        · cases hbuild
          exact ⟨sel, _, hsel, rfl⟩

/-- It spends at least one coin. -/
lemma preparePayment_inputs_ne_nil {c : Config} {tip days amount : Int} {utxos : List Utxo}
    {excluded : List Outpoint} {code : String} {tx : RawTx}
    (h : preparePayment c tip utxos excluded days code = .ok (tx, amount)) : tx.inputs ≠ [] := by
  obtain ⟨sel, needed, hsel, hinputs⟩ := preparePayment_inputs h
  rw [hinputs]
  simpa using takeUtxos_inputs_ne_nil hsel

/-- It spends no excluded coin. -/
lemma preparePayment_free {c : Config} {tip days amount : Int} {utxos : List Utxo}
    {excluded : List Outpoint} {code : String} {tx : RawTx}
    (h : preparePayment c tip utxos excluded days code = .ok (tx, amount)) :
    ∀ o ∈ tx.inputs, o ∉ excluded := by
  obtain ⟨sel, needed, hsel, hinputs⟩ := preparePayment_inputs h
  intro o ho
  rw [hinputs] at ho
  obtain ⟨u, hu, rfl⟩ := List.mem_map.mp ho
  rcases mem_takeUtxos hsel u hu with hnil | hmem
  · cases hnil
  · simpa using (List.mem_filter.mp ((List.mem_insertionSort _).mp hmem)).2

end CumulusVpn.Bridge
