/-
The derived state as a function of a complete history.

* `History`: the payments of the chain, oldest first, each with its own txid;
* `window`: the payments of a range of heights, and `window_split`;
* `Complete`: the answers of a source that neither lags nor loses a tx;
* `Derived`: what the state at a cursor is, in terms of the history alone;
* `applyAll_of_fresh`: a batch of new txs is folded tx by tx, and
  `applyAll_of_seen`: a batch of remembered ones not at all;
* `Derived.read`: what a scan of a complete source reads;
* `Derived.poll`: **every scan of a complete source keeps the state derived**;
* `Derived.ext`: a derived state is determined by its schedule and cursor.
-/
import Mathlib.Data.List.Nodup
import CumulusVpn.Gateway.Ledger

namespace CumulusVpn

open Std (ExtTreeMap)

/-- The payments of a chain: confirmed, oldest first, one record a txid. -/
structure History (hist : List Tx) : Prop where
  confirmed : ∀ tx ∈ hist, 0 < tx.height
  named : ∀ tx ∈ hist, tx.txID ≠ ""
  oldestFirst : hist.Pairwise fun tx tx' => tx.height ≤ tx'.height
  distinct : (hist.map Tx.txID).Nodup

/-- The payments above `a` and up to `b`. -/
def window (hist : List Tx) (a b : Int) : List Tx :=
  hist.filter fun tx => a < tx.height ∧ tx.height ≤ b

lemma mem_window {hist : List Tx} {a b : Int} {tx : Tx} :
    tx ∈ window hist a b ↔ tx ∈ hist ∧ a < tx.height ∧ tx.height ≤ b := by
  simp [window]

lemma window_cons (tx : Tx) (hist : List Tx) (a b : Int) :
    window (tx :: hist) a b =
      if a < tx.height ∧ tx.height ≤ b then tx :: window hist a b else window hist a b := by
  rw [window, List.filter_cons, window]
  simp only [decide_eq_true_eq]

/-- Over an oldest-first history a window is the older part and then the
newer one. -/
lemma window_split {hist : List Tx} (hsort : hist.Pairwise fun tx tx' => tx.height ≤ tx'.height)
    {a b c : Int} (hab : a ≤ b) (hbc : b ≤ c) :
    window hist a c = window hist a b ++ window hist b c := by
  induction hist with
  | nil => rfl
  | cons tx hist ih =>
      obtain ⟨hhead, htail⟩ := List.pairwise_cons.mp hsort
      rw [window_cons, window_cons, window_cons, ih htail]
      by_cases hb : tx.height ≤ b
      · rw [if_neg (by omega : ¬ (b < tx.height ∧ tx.height ≤ c))]
        by_cases ha : a < tx.height
        · rw [if_pos ⟨ha, hb.trans hbc⟩, if_pos ⟨ha, hb⟩, List.cons_append]
        · rw [if_neg fun h => ha h.1, if_neg fun h => ha h.1]
      · -- from here on nothing is at or below `b`
        have hold : window hist a b = [] := by
          refine List.filter_eq_nil_iff.mpr fun t ht => ?_
          have := hhead t ht
          simp only [decide_eq_true_eq, not_and]
          omega
        rw [if_neg (by omega : ¬ (a < tx.height ∧ tx.height ≤ b)), hold, List.nil_append,
          List.nil_append]
        by_cases hc : tx.height ≤ c
        · rw [if_pos ⟨by omega, hc⟩, if_pos ⟨by omega, hc⟩]
        · rw [if_neg (by omega), if_neg (by omega)]

/-- A txid stands for one payment. -/
lemma History.eq_of_txID {hist : List Tx} (hh : History hist) {tx tx' : Tx} (htx : tx ∈ hist)
    (htx' : tx' ∈ hist) (h : tx.txID = tx'.txID) : tx = tx' :=
  List.inj_on_of_nodup_map hh.distinct htx htx' h

lemma History.pairwise_window {hist : List Tx} (hh : History hist) (a b : Int) :
    (window hist a b).Pairwise fun tx tx' => tx.txID ≠ tx'.txID :=
  List.pairwise_map.mp (hh.distinct.sublist (List.filter_sublist.map Tx.txID))

/-- The source answers one poll completely: at chain height `H` every read
holds exactly the payments above the height asked for, up to `H`, besides
what is not folded anyway. -/
def Complete (hist : List Tx) (address : String) (src : TxSource) : Prop :=
  ∀ height after txs, src.blockCount = .ok height → src.addressTxs address after = .ok txs →
    0 ≤ after → (txs.filter fun tx => 0 < tx.height ∧ tx.height ≤ height) =
      window hist after height

/-- The state at a cursor, derived from the history alone. -/
structure Derived (hist : List Tx) (l : Ledger) : Prop where
  seenFrom : l.seenFrom = 0
  lastBlock : 0 ≤ l.lastBlock
  paidUntil : l.paidUntil = (window hist 0 l.lastBlock).foldl (grantTo l.address l.sched) ∅
  seen : ∀ id h, l.seen[id]? = some h ↔
    ∃ tx ∈ window hist (l.lastBlock - overlapBlocks) l.lastBlock, tx.txID = id ∧ tx.height = h

/-- A derived state is determined by its parameters and its cursor. -/
lemma Derived.ext {hist : List Tx} {l l' : Ledger} (h : Derived hist l) (h' : Derived hist l')
    (haddr : l.address = l'.address) (hsched : l.sched = l'.sched)
    (hblock : l.lastBlock = l'.lastBlock) : l = l' := by
  have hpaid : l.paidUntil = l'.paidUntil := by
    rw [h.paidUntil, h'.paidUntil, haddr, hsched, hblock]
  have hseen : l.seen = l'.seen := by
    refine ExtTreeMap.ext_getElem? fun id => Option.ext fun h₀ => ?_
    rw [h.seen, h'.seen, hblock]
  have hfrom : l.seenFrom = l'.seenFrom := by rw [h.seenFrom, h'.seenFrom]
  cases l; cases l'
  simp_all

/-- An empty engine is derived at height 0. -/
lemma derived_new {hist : List Tx} (hh : History hist) (address : String) (sched : Schedule) :
    Derived hist (Engine.new address sched).toLedger := by
  have hempty : ∀ a, window hist a 0 = [] := fun a => by
    refine List.filter_eq_nil_iff.mpr fun tx htx => ?_
    have := hh.confirmed tx htx
    simp only [decide_eq_true_eq, not_and]
    omega
  refine ⟨rfl, le_rfl, ?_, fun id h => ?_⟩
  · show ∅ = (window hist 0 0).foldl _ ∅
    rw [hempty]
    rfl
  · show (∅ : SeenMap)[id]? = some h ↔ ∃ tx ∈ window hist (0 - overlapBlocks) 0, _
    rw [hempty, ExtTreeMap.getElem?_empty]
    simp

/-! ### Batches of a history -/

namespace Ledger

/-- A batch only looks at its eligible records. -/
lemma applyAll_filter (l : Ledger) (upTo : Int) (txs : List Tx) :
    l.applyAll upTo (txs.filter fun tx => 0 < tx.height ∧ tx.height ≤ upTo) =
      l.applyAll upTo txs := by
  induction txs generalizing l with
  | nil => rfl
  | cons tx txs ih =>
      by_cases he : 0 < tx.height ∧ tx.height ≤ upTo
      · rw [List.filter_cons_of_pos (by simpa using he), applyAll_cons, applyAll_cons, ih]
      · have hs : l.Skips upTo tx := by
          unfold Skips
          omega
        rw [List.filter_cons_of_neg (by simpa using he), ih, applyAll_cons, apply, if_pos hs]

/-- A batch of remembered txs changes nothing. -/
lemma applyAll_of_seen {l : Ledger} {upTo : Int} {txs : List Tx}
    (h : ∀ tx ∈ txs, tx.txID ∈ l.seen ∧ tx.txID ≠ "") : l.applyAll upTo txs = l := by
  induction txs with
  | nil => rfl
  | cons tx txs ih =>
      have hs : l.Skips upTo tx := Or.inr (Or.inr (h tx List.mem_cons_self))
      rw [applyAll_cons, apply, if_pos hs]
      exact ih fun t ht => h t (List.mem_cons_of_mem _ ht)

/-- A batch of txs with new and distinct txids is recorded and stacked tx by
tx. -/
lemma applyAll_of_fresh {l : Ledger} {upTo : Int} {txs : List Tx}
    (hrange : ∀ tx ∈ txs, 0 < tx.height ∧ tx.height ≤ upTo)
    (hfresh : ∀ tx ∈ txs, tx.txID ∉ l.seen)
    (hdist : txs.Pairwise fun tx tx' => tx.txID ≠ tx'.txID) :
    l.applyAll upTo txs =
      { l with
        seen := txs.foldl record l.seen
        paidUntil := txs.foldl (grantTo l.address l.sched) l.paidUntil } := by
  induction txs generalizing l with
  | nil => rfl
  | cons tx txs ih =>
      obtain ⟨hne, hdist'⟩ := List.pairwise_cons.mp hdist
      have hr := hrange tx List.mem_cons_self
      have hs : ¬ l.Skips upTo tx := by
        rintro (h | h | ⟨h, -⟩)
        · omega
        · omega
        · exact hfresh tx List.mem_cons_self h
      have hfresh' : ∀ t ∈ txs, t.txID ∉ (l.take tx).seen := fun t ht hmem => by
        have hold := hfresh t (List.mem_cons_of_mem _ ht)
        rw [ExtTreeMap.mem_iff_isSome_getElem?, take, getElem?_record,
          if_neg fun hc => hne t ht hc.1] at hmem
        exact hold (ExtTreeMap.mem_iff_isSome_getElem?.mpr hmem)
      rw [applyAll_cons, apply, if_neg hs,
        ih (fun t ht => hrange t (List.mem_cons_of_mem _ ht)) hfresh' hdist']
      rfl

end Ledger

/-- `seen` after recording txs with distinct txids. -/
lemma getElem?_foldl_record {txs : List Tx}
    (hdist : txs.Pairwise fun tx tx' => tx.txID ≠ tx'.txID) (hnamed : ∀ tx ∈ txs, tx.txID ≠ "")
    (seen : SeenMap) (id : String) (h : Int) :
    (txs.foldl record seen)[id]? = some h ↔
      (∃ tx ∈ txs, tx.txID = id ∧ tx.height = h) ∨
        ((∀ tx ∈ txs, tx.txID ≠ id) ∧ seen[id]? = some h) := by
  induction txs generalizing seen with
  | nil => simp
  | cons tx txs ih =>
      obtain ⟨hne, hdist'⟩ := List.pairwise_cons.mp hdist
      rw [List.foldl_cons, ih hdist' fun t ht => hnamed t (List.mem_cons_of_mem _ ht),
        getElem?_record]
      by_cases hid : tx.txID = id
      · subst hid
        have hno : ∀ t ∈ txs, t.txID ≠ tx.txID := fun t ht he => hne t ht he.symm
        have hnone : ¬ ∃ t ∈ txs, t.txID = tx.txID ∧ t.height = h := fun ⟨t, ht, he, _⟩ =>
          hno t ht he
        rw [if_pos ⟨rfl, hnamed tx List.mem_cons_self⟩]
        constructor
        · rintro (he | ⟨-, he⟩)
          · exact absurd he hnone
          · exact Or.inl ⟨tx, List.mem_cons_self, rfl, Option.some.inj he⟩
        · rintro (⟨t, ht, he, hh⟩ | ⟨hall, -⟩)
          · rcases List.mem_cons.mp ht with rfl | ht
            · exact Or.inr ⟨hno, by rw [hh]⟩
            · exact absurd he (hno t ht)
          · exact absurd rfl (hall tx List.mem_cons_self)
      · rw [if_neg fun hc => hid hc.1]
        simp [hid]

/-! ### Scans of a complete source -/

/-- What a complete source answers a derived state: the part above the cursor
is new, and the part that is read again is remembered. -/
lemma Derived.read {hist : List Tx} (hh : History hist) {l : Ledger} (h : Derived hist l)
    {p : Poll} (hp : Complete hist l.address p.src) {height : Int} {txs : List Tx}
    (hr : l.reads p.src p.force = some (height, txs)) :
    (txs.filter fun tx => 0 < tx.height ∧ tx.height ≤ height) =
        window hist l.scanFrom l.lastBlock ++ window hist l.lastBlock height ∧
      (∀ tx ∈ window hist l.scanFrom l.lastBlock, tx.txID ∈ l.seen ∧ tx.txID ≠ "") ∧
      ∀ tx ∈ window hist l.lastBlock height, (0 < tx.height ∧ tx.height ≤ height) ∧
        tx.txID ∉ l.seen := by
  obtain ⟨-, hle, hb, hread⟩ := Ledger.reads_eq_some hr
  obtain ⟨hfrom0, hfrom⟩ := l.scanFrom_bounds
  have hfromL : l.scanFrom ≤ l.lastBlock := by
    have h0 := h.seenFrom
    have hL := h.lastBlock
    have hoverlap : overlapBlocks = 40 := rfl
    simp only [Ledger.scanFrom]
    split <;> split <;> omega
  refine ⟨?_, ?_, ?_⟩
  · rw [hp height _ txs hb hread hfrom0, window_split hh.oldestFirst hfromL hle]
  · intro tx htx
    obtain ⟨hmem, hlo, hhi⟩ := mem_window.mp htx
    refine ⟨ExtTreeMap.mem_iff_isSome_getElem?.mpr ?_, hh.named tx hmem⟩
    rw [(h.seen _ _).mpr ⟨tx, mem_window.mpr ⟨hmem, hfrom.trans_lt hlo, hhi⟩, rfl, rfl⟩]
    rfl
  · intro tx htx
    obtain ⟨hmem, hlo, hhi⟩ := mem_window.mp htx
    refine ⟨⟨hh.confirmed tx hmem, hhi⟩, fun hin => ?_⟩
    obtain ⟨h₀, hh₀⟩ := Option.isSome_iff_exists.mp (ExtTreeMap.mem_iff_isSome_getElem?.mp hin)
    obtain ⟨tx', htx', hid, -⟩ := (h.seen _ _).mp hh₀
    obtain ⟨hmem', -, hhi'⟩ := mem_window.mp htx'
    obtain rfl := hh.eq_of_txID hmem' hmem hid
    omega

/-- **Every scan of a complete source keeps the state derived.** -/
theorem Derived.poll {hist : List Tx} (hh : History hist) {l : Ledger} (h : Derived hist l)
    {p : Poll} (hp : Complete hist l.address p.src) : Derived hist (l.poll p) := by
  rw [Ledger.poll]
  cases hr : l.reads p.src p.force with
  | none => exact h
  | some r =>
      obtain ⟨height, txs⟩ := r
      obtain ⟨-, hle, -, -⟩ := Ledger.reads_eq_some hr
      obtain ⟨hparts, hseen, hnew⟩ := h.read hh hp hr
      have hbatch : l.applyAll height txs =
          { l with
            seen := (window hist l.lastBlock height).foldl record l.seen
            paidUntil := (window hist l.lastBlock height).foldl (grantTo l.address l.sched)
              l.paidUntil } := by
        rw [← l.applyAll_filter, hparts, Ledger.applyAll_append, Ledger.applyAll_of_seen hseen,
          Ledger.applyAll_of_fresh (fun tx htx => (hnew tx htx).1) (fun tx htx => (hnew tx htx).2)
            (hh.pairwise_window _ _)]
      refine ⟨(l.fold_seenFrom height txs).trans h.seenFrom, h.lastBlock.trans hle, ?_, ?_⟩
      · show (l.fold height txs).paidUntil = _
        rw [l.fold_paidUntil, hbatch, h.paidUntil, l.fold_address, l.fold_sched, l.fold_lastBlock,
          window_split hh.oldestFirst h.lastBlock hle, List.foldl_append]
      · intro id h₀
        show (l.fold height txs).seen[id]? = some h₀ ↔ _
        rw [l.getElem?_seen_fold, hbatch, l.fold_lastBlock, Option.filter_eq_some_iff,
          getElem?_foldl_record (hh.pairwise_window _ _)
            (fun tx htx => hh.named tx (mem_window.mp htx).1), h.seen]
        simp only [mem_window, decide_eq_true_eq]
        constructor
        · rintro ⟨⟨tx, ⟨hmem, hlo, hhi⟩, rfl, rfl⟩ | ⟨-, tx, ⟨hmem, hlo, hhi⟩, rfl, rfl⟩, hfloor⟩
          · exact ⟨tx, ⟨hmem, hfloor, hhi⟩, rfl, rfl⟩
          · exact ⟨tx, ⟨hmem, hfloor, hhi.trans hle⟩, rfl, rfl⟩
        · rintro ⟨tx, ⟨hmem, hlo, hhi⟩, rfl, rfl⟩
          refine ⟨?_, hlo⟩
          by_cases hnew : l.lastBlock < tx.height
          · exact Or.inl ⟨tx, ⟨hmem, hnew, hhi⟩, rfl, rfl⟩
          · refine Or.inr ⟨fun tx' hin hid => ?_, tx, ⟨hmem, by omega, by omega⟩, rfl, rfl⟩
            obtain rfl := hh.eq_of_txID hin.1 hmem hid
            exact hnew hin.2.1

end CumulusVpn
