/-
What a scan does to the derived state.

* `Ledger.apply`, `Ledger.fold`: a tx of a batch is skipped or taken, and a
  read history is applied and the cursor moved;
* `Ledger.reads`: what a scan reads, when it folds anything at all;
* `Engine.scan_toLedger`: **a scan folds what it reads, and without a read
  leaves the derived state alone**;
* `Ledger.folded`: the txs a batch grants, in order; `Engine.applyTxs_snd`
  counts them and `Ledger.paidUntil_applyAll` stacks them;
* `Poll`, `Engine.polls`, `Engine.polls_toLedger`: runs of scans, and that
  the derived state evolves on its own.
-/
import CumulusVpn.Gateway.Entitle

namespace CumulusVpn

open Std (ExtTreeMap)

/-- `seen` with the tx recorded, unless it has no txid. -/
def record (seen : SeenMap) (tx : Tx) : SeenMap :=
  if tx.txID ≠ "" then seen.insert tx.txID tx.height else seen

lemma getElem?_record (seen : SeenMap) (tx : Tx) (id : String) :
    (record seen tx)[id]? = if tx.txID = id ∧ id ≠ "" then some tx.height else seen[id]? := by
  unfold record
  by_cases h : tx.txID = ""
  · have hne : ¬ (tx.txID = id ∧ id ≠ "") := fun hc => hc.2 (hc.1 ▸ h)
    rw [if_neg (not_not_intro h), if_neg hne]
  · rw [if_pos h, ExtTreeMap.getElem?_insert]
    by_cases hid : tx.txID = id
    · subst hid
      simp [h]
    · simp [hid]

namespace Ledger

/-! ### One tx of a batch -/

/-- A batch up to `upTo` skips the tx: it is unconfirmed, above `upTo`, or
already folded. -/
def Skips (l : Ledger) (upTo : Int) (tx : Tx) : Prop :=
  tx.height ≤ 0 ∨ upTo < tx.height ∨ (tx.txID ∈ l.seen ∧ tx.txID ≠ "")

instance (l : Ledger) (upTo : Int) (tx : Tx) : Decidable (l.Skips upTo tx) :=
  inferInstanceAs (Decidable (_ ∨ _ ∨ _))

/-- The tx is recorded and its credit stacked. -/
def take (l : Ledger) (tx : Tx) : Ledger :=
  { l with
    seen := record l.seen tx
    paidUntil := grantTo l.address l.sched l.paidUntil tx }

/-- The ledger after a tx, which it may skip. -/
def apply (l : Ledger) (upTo : Int) (tx : Tx) : Ledger :=
  if l.Skips upTo tx then l else l.take tx

/-- The ledger after a batch. -/
def applyAll (l : Ledger) (upTo : Int) (txs : List Tx) : Ledger :=
  txs.foldl (fun l tx => l.apply upTo tx) l

/-- A batch read at `height`, and the cursor moved there. -/
def fold (l : Ledger) (height : Int) (txs : List Tx) : Ledger :=
  (l.applyAll height txs).advance height

/-- The txs of a batch that grant something, in order. -/
def folded (l : Ledger) (upTo : Int) : List Tx → List Tx
  | [] => []
  | tx :: txs =>
      if ¬ l.Skips upTo tx ∧ (credit tx l.address l.sched).isSome then
        tx :: (l.apply upTo tx).folded upTo txs
      else (l.apply upTo tx).folded upTo txs

variable (l : Ledger) (upTo height : Int) (tx : Tx) (txs : List Tx)

@[simp] lemma apply_address : (l.apply upTo tx).address = l.address := by
  unfold apply; split <;> rfl

@[simp] lemma apply_sched : (l.apply upTo tx).sched = l.sched := by
  unfold apply; split <;> rfl

@[simp] lemma apply_lastBlock : (l.apply upTo tx).lastBlock = l.lastBlock := by
  unfold apply; split <;> rfl

@[simp] lemma apply_seenFrom : (l.apply upTo tx).seenFrom = l.seenFrom := by
  unfold apply; split <;> rfl

@[simp] lemma applyAll_nil : l.applyAll upTo [] = l := rfl

lemma applyAll_cons :
    l.applyAll upTo (tx :: txs) = (l.apply upTo tx).applyAll upTo txs := rfl

lemma applyAll_append (txs' : List Tx) :
    l.applyAll upTo (txs ++ txs') = (l.applyAll upTo txs).applyAll upTo txs' :=
  List.foldl_append

/-- A batch changes nothing but the map and `seen`. -/
lemma applyAll_frame :
    (l.applyAll upTo txs).address = l.address ∧ (l.applyAll upTo txs).sched = l.sched ∧
      (l.applyAll upTo txs).lastBlock = l.lastBlock ∧
      (l.applyAll upTo txs).seenFrom = l.seenFrom := by
  induction txs generalizing l with
  | nil => exact ⟨rfl, rfl, rfl, rfl⟩
  | cons tx txs ih =>
      rw [applyAll_cons]
      simpa using ih (l.apply upTo tx)

@[simp] lemma applyAll_address : (l.applyAll upTo txs).address = l.address :=
  (l.applyAll_frame upTo txs).1

@[simp] lemma applyAll_sched : (l.applyAll upTo txs).sched = l.sched :=
  (l.applyAll_frame upTo txs).2.1

@[simp] lemma applyAll_lastBlock : (l.applyAll upTo txs).lastBlock = l.lastBlock :=
  (l.applyAll_frame upTo txs).2.2.1

@[simp] lemma applyAll_seenFrom : (l.applyAll upTo txs).seenFrom = l.seenFrom :=
  (l.applyAll_frame upTo txs).2.2.2

@[simp] lemma fold_address : (l.fold height txs).address = l.address :=
  l.applyAll_address height txs

@[simp] lemma fold_sched : (l.fold height txs).sched = l.sched :=
  l.applyAll_sched height txs

@[simp] lemma fold_lastBlock : (l.fold height txs).lastBlock = height := rfl

@[simp] lemma fold_seenFrom : (l.fold height txs).seenFrom = l.seenFrom :=
  l.applyAll_seenFrom height txs

@[simp] lemma fold_paidUntil : (l.fold height txs).paidUntil = (l.applyAll height txs).paidUntil :=
  rfl

/-- `seen` after a scan: what the batch left in it above the new floor. -/
lemma getElem?_seen_fold (id : String) :
    (l.fold height txs).seen[id]? =
      (l.applyAll height txs).seen[id]?.filter fun h => height - overlapBlocks < h := by
  simp [fold, advance]

/-- The map after a batch stacks exactly the folded txs, in order. -/
lemma paidUntil_applyAll :
    (l.applyAll upTo txs).paidUntil =
      (l.folded upTo txs).foldl (grantTo l.address l.sched) l.paidUntil := by
  induction txs generalizing l with
  | nil => rfl
  | cons tx txs ih =>
      rw [applyAll_cons, ih, apply_address, apply_sched, folded]
      by_cases hs : l.Skips upTo tx
      · simp [hs, apply]
      · cases hc : credit tx l.address l.sched with
        | none => simp [hs, apply, take, grantTo, hc]
        | some c => simp [hs, apply, take]

/-! ### What a scan reads -/

/-- The height a scan moves the cursor to and the history it folds: none for
a scan that fails or has nothing new to read. -/
def reads (l : Ledger) (src : TxSource) (force : Bool) : Option (Int × List Tx) :=
  match src.blockCount with
  | .error _ => none
  | .ok height =>
      if height ≤ 0 ∨ height < l.lastBlock ∨ (height = l.lastBlock ∧ ¬ force) then none
      else match src.addressTxs l.address l.scanFrom with
        | .error _ => none
        | .ok txs => some (height, txs)

/-- A scan that reads anything moves to a positive height, never backwards,
and folds what the source has above its floor. -/
lemma reads_eq_some {l : Ledger} {src : TxSource} {force : Bool} {height : Int} {txs : List Tx}
    (h : l.reads src force = some (height, txs)) :
    0 < height ∧ l.lastBlock ≤ height ∧ src.blockCount = .ok height ∧
      src.addressTxs l.address l.scanFrom = .ok txs := by
  unfold reads at h
  cases hb : src.blockCount with
  | error err => simp [hb] at h
  | ok ht =>
      simp only [hb] at h
      split at h
      · cases h
      · cases ha : src.addressTxs l.address l.scanFrom with
        | error err => simp [ha] at h
        | ok ts =>
            simp only [ha, Option.some.injEq, Prod.mk.injEq] at h
            obtain ⟨rfl, rfl⟩ := h
            exact ⟨by omega, by omega, rfl, rfl⟩

/-- The floor of a scan is in the history, at most `overlapBlocks` below the
cursor. -/
lemma scanFrom_bounds (l : Ledger) :
    0 ≤ l.scanFrom ∧ l.lastBlock - overlapBlocks ≤ l.scanFrom := by
  unfold scanFrom
  dsimp only
  split <;> split <;> omega

end Ledger

/-! ### The engine's scan on the derived state -/

namespace Engine

/-- The faithful step on one tx is the ledger's, and reports a grant exactly
when the tx is taken and credits something. -/
lemma applyTx_eq (e : Engine) (tx : Tx) (upTo : Int) :
    (e.applyTx tx upTo).1.toLedger = e.toLedger.apply upTo tx ∧
      (e.applyTx tx upTo).2 =
        decide (¬ e.toLedger.Skips upTo tx ∧ (credit tx e.address e.sched).isSome) := by
  unfold applyTx Ledger.apply
  by_cases hr : tx.height ≤ 0 ∨ tx.height > upTo
  · have hs : e.toLedger.Skips upTo tx := hr.imp_right Or.inl
    simp [hr, hs]
  · by_cases hd : e.seen.contains tx.txID ∧ tx.txID ≠ ""
    · have hs : e.toLedger.Skips upTo tx :=
        Or.inr (Or.inr ⟨ExtTreeMap.contains_iff_mem.mp hd.1, hd.2⟩)
      rw [if_neg hr, if_pos hd, if_pos hs]
      simp [hs]
    · have hs : ¬ e.toLedger.Skips upTo tx := fun hs => by
        rcases hs with h | h | h
        · exact hr (Or.inl h)
        · exact hr (Or.inr h)
        · exact hd ⟨ExtTreeMap.contains_iff_mem.mpr h.1, h.2⟩
      rw [if_neg hr, if_neg hd, if_neg hs]
      by_cases hid : tx.txID = "" <;> cases hc : credit tx e.address e.sched <;>
        simp [hid, hc, hs, grant_eq, grantTo, Ledger.take, record]

/-- A batch does to the derived state what the ledger's batch does. -/
lemma applyTxs_toLedger (e : Engine) (txs : List Tx) (upTo : Int) :
    (e.applyTxs txs upTo).1.toLedger = e.toLedger.applyAll upTo txs := by
  induction txs generalizing e with
  | nil => rfl
  | cons tx txs ih =>
      rw [Ledger.applyAll_cons, ← (e.applyTx_eq tx upTo).1]
      exact ih (e.applyTx tx upTo).1

/-- The number of grants a batch reports is the number of folded txs. -/
lemma applyTxs_snd (e : Engine) (txs : List Tx) (upTo : Int) :
    (e.applyTxs txs upTo).2 = (e.toLedger.folded upTo txs).length := by
  induction txs generalizing e with
  | nil => rfl
  | cons tx txs ih =>
      have hrest := ih (e.applyTx tx upTo).1
      rw [(e.applyTx_eq tx upTo).1] at hrest
      have hn : (e.applyTxs (tx :: txs) upTo).2 =
          if (e.applyTx tx upTo).2 then ((e.applyTx tx upTo).1.applyTxs txs upTo).2 + 1
          else ((e.applyTx tx upTo).1.applyTxs txs upTo).2 := rfl
      rw [hn, (e.applyTx_eq tx upTo).2, hrest, Ledger.folded]
      by_cases h : ¬ e.toLedger.Skips upTo tx ∧ (credit tx e.address e.sched).isSome
      · rw [if_pos h, if_pos (decide_eq_true h), List.length_cons]
      · rw [if_neg h, if_neg (by simpa using h)]

/-- **What a scan does**: it folds what it reads, and without a read it
leaves the derived state alone. -/
theorem scan_toLedger (e : Engine) (src : TxSource) (force : Bool) :
    (e.scan src force).1.toLedger =
      match e.toLedger.reads src force with
      | none => e.toLedger
      | some (height, txs) => e.toLedger.fold height txs := by
  unfold scan Ledger.reads
  cases hb : src.blockCount with
  | error err => rfl
  | ok height =>
      by_cases h0 : height ≤ 0
      · simp [h0]
      · have htip : (if height > e.tip then { e with tip := height } else e).toLedger =
            e.toLedger := by split <;> rfl
        simp only [h0, if_false, false_or]
        generalize (if height > e.tip then { e with tip := height } else e) = e' at htip ⊢
        rw [htip]
        split
        · exact htip
        · cases ha : src.addressTxs e.address e.toLedger.scanFrom with
          | error err => exact htip
          | ok txs =>
              show (Engine.applyTxs e' txs height).1.toLedger.advance height = _
              rw [applyTxs_toLedger, htip]
              rfl

/-- A batch leaves the pending schedule and the state path alone. -/
lemma applyTxs_frame (e : Engine) (txs : List Tx) (upTo : Int) :
    (e.applyTxs txs upTo).1.pending = e.pending ∧
      (e.applyTxs txs upTo).1.statePath = e.statePath := by
  induction txs generalizing e with
  | nil => exact ⟨rfl, rfl⟩
  | cons tx txs ih =>
      have hone : (e.applyTx tx upTo).1.pending = e.pending ∧
          (e.applyTx tx upTo).1.statePath = e.statePath := by
        unfold applyTx
        split
        · exact ⟨rfl, rfl⟩
        · split
          · exact ⟨rfl, rfl⟩
          · by_cases hid : tx.txID = "" <;> cases hc : credit tx e.address e.sched <;>
              simp [hid, hc, grant_eq]
      have hrest := ih (e.applyTx tx upTo).1
      exact ⟨hrest.1.trans hone.1, hrest.2.trans hone.2⟩

/-- A scan leaves the pending schedule and the state path alone. -/
lemma scan_frame (e : Engine) (src : TxSource) (force : Bool) :
    (e.scan src force).1.pending = e.pending ∧ (e.scan src force).1.statePath = e.statePath := by
  unfold scan
  cases src.blockCount with
  | error err => exact ⟨rfl, rfl⟩
  | ok height =>
      have htip : (if height > e.tip then { e with tip := height } else e).pending = e.pending ∧
          (if height > e.tip then { e with tip := height } else e).statePath = e.statePath := by
        split <;> exact ⟨rfl, rfl⟩
      dsimp only
      generalize (if height > e.tip then { e with tip := height } else e) = e' at htip ⊢
      split
      · exact ⟨rfl, rfl⟩
      · split
        · exact htip
        · cases src.addressTxs e'.address e'.scanFrom with
          | error err => exact htip
          | ok txs =>
              have hbatch := e'.applyTxs_frame txs height
              exact ⟨hbatch.1.trans htip.1, hbatch.2.trans htip.2⟩

end Engine

/-! ### Runs of scans -/

/-- One scan of a run: the chain's answers, and whether it is forced. -/
structure Poll where
  src : TxSource
  force : Bool

/-- One scan on the derived state alone. -/
def Ledger.poll (l : Ledger) (p : Poll) : Ledger :=
  match l.reads p.src p.force with
  | none => l
  | some (height, txs) => l.fold height txs

/-- The records of a scan's read that are at a height it folds. -/
def Ledger.records (l : Ledger) (p : Poll) : List Tx :=
  match l.reads p.src p.force with
  | none => []
  | some (height, txs) => txs.filter fun tx => 0 < tx.height ∧ tx.height ≤ height

/-- The txs that one scan folds into the map. -/
def Ledger.foldedIn (l : Ledger) (p : Poll) : List Tx :=
  match l.reads p.src p.force with
  | none => []
  | some (height, txs) => l.folded height txs

/-- The txs that a run folds into the map, in order. -/
def Ledger.foldedOver (l : Ledger) : List Poll → List Tx
  | [] => []
  | p :: ps => l.foldedIn p ++ (l.poll p).foldedOver ps

/-- The engine after a scan. -/
def Engine.poll (e : Engine) (p : Poll) : Engine := (e.scan p.src p.force).1

/-- The engine after a run of scans. -/
def Engine.polls (e : Engine) (ps : List Poll) : Engine := ps.foldl Engine.poll e

@[simp] lemma Engine.poll_toLedger (e : Engine) (p : Poll) :
    (e.poll p).toLedger = e.toLedger.poll p :=
  e.scan_toLedger p.src p.force

/-- The derived state evolves on its own. -/
lemma Engine.polls_toLedger (e : Engine) (ps : List Poll) :
    (e.polls ps).toLedger = ps.foldl Ledger.poll e.toLedger := by
  induction ps generalizing e with
  | nil => rfl
  | cons p ps ih =>
      rw [List.foldl_cons, ← e.poll_toLedger p]
      exact ih (e.poll p)

namespace Ledger

variable (l : Ledger) (p : Poll)

@[simp] lemma poll_address : (l.poll p).address = l.address := by
  unfold poll; split <;> simp

@[simp] lemma poll_sched : (l.poll p).sched = l.sched := by
  unfold poll; split <;> simp

@[simp] lemma poll_seenFrom : (l.poll p).seenFrom = l.seenFrom := by
  unfold poll; split <;> simp

/-- The cursor never moves backwards. -/
lemma lastBlock_le_poll : l.lastBlock ≤ (l.poll p).lastBlock := by
  unfold poll
  cases hr : l.reads p.src p.force with
  | none => exact le_rfl
  | some r => exact (reads_eq_some hr).2.1

lemma polls_address (ps : List Poll) : (ps.foldl Ledger.poll l).address = l.address := by
  induction ps generalizing l with
  | nil => rfl
  | cons p ps ih => rw [List.foldl_cons, ih, poll_address]

lemma polls_sched (ps : List Poll) : (ps.foldl Ledger.poll l).sched = l.sched := by
  induction ps generalizing l with
  | nil => rfl
  | cons p ps ih => rw [List.foldl_cons, ih, poll_sched]

/-- The map after a scan stacks exactly the txs it folds. -/
lemma paidUntil_poll :
    (l.poll p).paidUntil = (l.foldedIn p).foldl (grantTo l.address l.sched) l.paidUntil := by
  unfold poll foldedIn
  split
  · rfl
  · exact l.paidUntil_applyAll _ _

/-- The map after a run stacks exactly the txs it folds. -/
lemma paidUntil_polls (ps : List Poll) :
    (ps.foldl Ledger.poll l).paidUntil =
      (l.foldedOver ps).foldl (grantTo l.address l.sched) l.paidUntil := by
  induction ps generalizing l with
  | nil => rfl
  | cons p ps ih =>
      rw [List.foldl_cons, ih, foldedOver, List.foldl_append, paidUntil_poll, poll_address,
        poll_sched]

end Ledger

end CumulusVpn
