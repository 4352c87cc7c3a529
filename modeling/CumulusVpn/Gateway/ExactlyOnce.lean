/-
How often a payment is folded over a run of scans.

A folded txid is remembered in `seen` with the height it was first read at,
and forgotten once the cursor is `overlapBlocks` above that height, while a
scan reads whatever the source shows above the cursor less `overlapBlocks`.
The two agree as long as a txid keeps its height.

* `count_folded_of_mem`, `count_folded_of_firstHeight`: what one batch does
  with a txid that is remembered, and with one that is not;
* `Synced`: what `seen` holds of a folded txid; `Synced.poll` keeps it;
* `ChainView`, `Scans`: the chain as each scan of a run finds it, where any
  scan may also fail;
* `records_poll`: **a scan reads what it is shown within the overlap window**;
* `Readable`, `RereadInTime`: a scan is shown the txid within the window, and
  no scan is shown it again too late;
* `exactly_once_iff`: **a readable payment is never lost, and folded exactly
  once iff it is only re-read in time**;
* `ShallowRun`: the chains the overlap is meant for; `ShallowRun.readable`: on
  them the overlap covers the lag of the source;
* `not_exactlyOnce_of_shallowRun`: a reorg that moves a tx up by one block
  gets it folded twice.
-/
import CumulusVpn.Gateway.Ledger

namespace CumulusVpn

open Std (ExtTreeMap)

/-- The height of the first record of a txid. -/
def firstHeight (id : String) (records : List Tx) : Option Int :=
  (records.find? fun tx => tx.txID = id).map Tx.height

lemma firstHeight_eq_none {id : String} {records : List Tx} :
    firstHeight id records = none ↔ ∀ tx ∈ records, tx.txID ≠ id := by
  simp [firstHeight]

namespace Ledger

/-- How often a run folds a txid into the map. -/
def foldCount (l : Ledger) (id : String) (ps : List Poll) : Nat :=
  (l.foldedOver ps).countP fun tx => tx.txID = id

/-! ### One batch -/

/-- The records of a batch at a height it folds. -/
def eligible (upTo : Int) (txs : List Tx) : List Tx :=
  txs.filter fun tx => 0 < tx.height ∧ tx.height ≤ upTo

lemma eligible_cons_pos {upTo : Int} {tx : Tx} (h : 0 < tx.height ∧ tx.height ≤ upTo)
    (txs : List Tx) : eligible upTo (tx :: txs) = tx :: eligible upTo txs :=
  List.filter_cons_of_pos (by simpa using h)

lemma eligible_cons_neg {upTo : Int} {tx : Tx} (h : ¬ (0 < tx.height ∧ tx.height ≤ upTo))
    (txs : List Tx) : eligible upTo (tx :: txs) = eligible upTo txs :=
  List.filter_cons_of_neg (by simpa using h)

/-- What a batch takes is at an eligible height. -/
lemma eligible_of_not_skips {l : Ledger} {upTo : Int} {tx : Tx} (h : ¬ l.Skips upTo tx) :
    0 < tx.height ∧ tx.height ≤ upTo :=
  ⟨Int.not_le.mp fun hc => h (Or.inl hc), Int.not_lt.mp fun hc => h (Or.inr (Or.inl hc))⟩

/-- A batch never takes a remembered txid again. -/
lemma count_folded_of_mem {l : Ledger} {id : String} {h₀ : Int} (hid : id ≠ "")
    (hmem : l.seen[id]? = some h₀) (upTo : Int) (txs : List Tx) :
    (l.folded upTo txs).countP (fun tx => tx.txID = id) = 0 ∧
      (l.applyAll upTo txs).seen[id]? = some h₀ := by
  induction txs generalizing l with
  | nil => exact ⟨rfl, hmem⟩
  | cons tx txs ih =>
      rw [applyAll_cons, folded]
      by_cases hs : l.Skips upTo tx
      · rw [apply, if_pos hs, if_neg fun h => h.1 hs]
        exact ih hmem
      · have htx : tx.txID ≠ id := fun h => hs (Or.inr (Or.inr
          ⟨ExtTreeMap.mem_iff_isSome_getElem?.mpr (by rw [h, hmem]; rfl), h ▸ hid⟩))
        have hmem' : (l.apply upTo tx).seen[id]? = some h₀ := by
          rw [apply, if_neg hs, take, getElem?_record, if_neg fun h => htx h.1, hmem]
        obtain ⟨hcount, hseen⟩ := ih hmem'
        refine ⟨?_, hseen⟩
        split
        · rw [List.countP_cons_of_neg (by simpa using htx), hcount]
        · exact hcount

/-- A batch without an eligible record of a txid leaves it alone. -/
lemma count_folded_of_none {l : Ledger} {upTo : Int} {id : String} {txs : List Tx}
    (hnone : ∀ tx ∈ eligible upTo txs, tx.txID ≠ id) :
    (l.folded upTo txs).countP (fun tx => tx.txID = id) = 0 ∧
      (l.applyAll upTo txs).seen[id]? = l.seen[id]? := by
  induction txs generalizing l with
  | nil => exact ⟨rfl, rfl⟩
  | cons tx txs ih =>
      have hrest : ∀ t ∈ eligible upTo txs, t.txID ≠ id := by
        by_cases he : 0 < tx.height ∧ tx.height ≤ upTo
        · rw [eligible_cons_pos he] at hnone
          exact fun t ht => hnone t (List.mem_cons_of_mem _ ht)
        · rwa [eligible_cons_neg he] at hnone
      rw [applyAll_cons, folded]
      by_cases hs : l.Skips upTo tx
      · rw [apply, if_pos hs, if_neg fun h => h.1 hs]
        exact ih hrest
      · have htx : tx.txID ≠ id := by
          rw [eligible_cons_pos (eligible_of_not_skips hs)] at hnone
          exact hnone tx List.mem_cons_self
        obtain ⟨hcount, hseen⟩ := ih (l := l.apply upTo tx) hrest
        refine ⟨?_, ?_⟩
        · split
          · rw [List.countP_cons_of_neg (by simpa using htx), hcount]
          · exact hcount
        · rw [hseen, apply, if_neg hs, take, getElem?_record, if_neg fun h => htx h.1]

/-- A batch takes a txid it does not remember once, at its first eligible
record. -/
lemma count_folded_of_firstHeight {l : Ledger} {upTo : Int} {id : String} {h₀ : Int}
    {txs : List Tx} (hid : id ≠ "") (hfresh : l.seen[id]? = none)
    (hvalid : ∀ tx ∈ eligible upTo txs, tx.txID = id → (credit tx l.address l.sched).isSome)
    (hfirst : firstHeight id (eligible upTo txs) = some h₀) :
    (l.folded upTo txs).countP (fun tx => tx.txID = id) = 1 ∧
      (l.applyAll upTo txs).seen[id]? = some h₀ := by
  induction txs generalizing l with
  | nil => simp [eligible, firstHeight] at hfirst
  | cons tx txs ih =>
      rw [applyAll_cons, folded]
      by_cases he : 0 < tx.height ∧ tx.height ≤ upTo
      · rw [eligible_cons_pos he] at hvalid hfirst
        by_cases htx : tx.txID = id
        · have hs : ¬ l.Skips upTo tx := by
            rintro (h | h | ⟨h, -⟩)
            · omega
            · omega
            · rw [htx, ExtTreeMap.mem_iff_isSome_getElem?, hfresh] at h
              cases h
          have hh : tx.height = h₀ := by simpa [firstHeight, htx] using hfirst
          have hmem : (l.apply upTo tx).seen[id]? = some h₀ := by
            rw [apply, if_neg hs, take, getElem?_record, if_pos ⟨htx, hid⟩, hh]
          obtain ⟨hcount, hseen⟩ := count_folded_of_mem hid hmem upTo txs
          refine ⟨?_, hseen⟩
          rw [if_pos ⟨hs, hvalid tx List.mem_cons_self htx⟩,
            List.countP_cons_of_pos (by simpa using htx), hcount]
        · have hfresh' : (l.apply upTo tx).seen[id]? = none := by
            unfold apply
            split
            · exact hfresh
            · rw [take, getElem?_record, if_neg fun h => htx h.1, hfresh]
          have hfirst' : firstHeight id (eligible upTo txs) = some h₀ := by
            rw [firstHeight, List.find?_cons_of_neg (by simpa using htx)] at hfirst
            exact hfirst
          obtain ⟨hcount, hseen⟩ := ih hfresh'
            (fun t ht => by simpa using hvalid t (List.mem_cons_of_mem _ ht)) hfirst'
          refine ⟨?_, hseen⟩
          split
          · rw [List.countP_cons_of_neg (by simpa using htx), hcount]
          · exact hcount
      · have hs : l.Skips upTo tx := by
          by_contra hc
          exact he (eligible_of_not_skips hc)
        rw [eligible_cons_neg he] at hvalid hfirst
        rw [apply, if_pos hs, if_neg fun h => h.1 hs]
        exact ih hfresh hvalid hfirst

/-! ### One scan -/

/-- What `seen` holds of a txid first read at `h₀`: the entry, until the
cursor is `overlapBlocks` above it. -/
def Synced (l : Ledger) (id : String) (h₀ : Int) : Prop :=
  l.seen[id]? = if l.lastBlock - overlapBlocks < h₀ then some h₀ else none

/-- A scan keeps what it left of an entry: the cursor only grows. -/
lemma synced_of_applyAll {l : Ledger} {height : Int} {txs : List Tx} {id : String} {h₀ : Int}
    (hseen : (l.applyAll height txs).seen[id]? =
      if l.lastBlock - overlapBlocks < h₀ then some h₀ else none)
    (hle : l.lastBlock ≤ height) : (l.fold height txs).Synced id h₀ := by
  rw [Synced, getElem?_seen_fold, hseen, fold_lastBlock]
  by_cases hold : l.lastBlock - overlapBlocks < h₀
  · rw [if_pos hold, Option.filter_some]
    simp
  · rw [if_neg hold, if_neg (by omega : ¬ height - overlapBlocks < h₀)]
    rfl

/-- A scan that does not re-read the txid too late folds it no further. -/
lemma Synced.poll {l : Ledger} {id : String} {h₀ : Int} (h : l.Synced id h₀) (hid : id ≠ "")
    {p : Poll} (hin : (∃ tx ∈ l.records p, tx.txID = id) → l.lastBlock - overlapBlocks < h₀) :
    (l.foldedIn p).countP (fun tx => tx.txID = id) = 0 ∧ (l.poll p).Synced id h₀ := by
  unfold foldedIn Ledger.poll
  unfold records at hin
  cases hr : l.reads p.src p.force with
  | none => exact ⟨rfl, h⟩
  | some r =>
      obtain ⟨height, txs⟩ := r
      simp only [hr] at hin
      have hle := (reads_eq_some hr).2.1
      by_cases hread : ∃ tx ∈ eligible height txs, tx.txID = id
      · have hin' := hin hread
        have hmem : l.seen[id]? = some h₀ := by rw [h, if_pos hin']
        obtain ⟨hcount, hseen⟩ := count_folded_of_mem hid hmem height txs
        exact ⟨hcount, synced_of_applyAll (by rw [hseen, if_pos hin']) hle⟩
      · push Not at hread
        obtain ⟨hcount, hseen⟩ := count_folded_of_none (l := l) hread
        exact ⟨hcount, synced_of_applyAll (by rw [hseen]; exact h) hle⟩

/-- The scan that first reads a txid folds it once and remembers its height. -/
lemma poll_of_firstHeight {l : Ledger} {id : String} {h₀ : Int} (hid : id ≠ "")
    (hfresh : l.seen[id]? = none) {p : Poll}
    (hvalid : ∀ tx ∈ l.records p, tx.txID = id → (credit tx l.address l.sched).isSome)
    (hfirst : firstHeight id (l.records p) = some h₀) :
    (l.foldedIn p).countP (fun tx => tx.txID = id) = 1 ∧ (l.poll p).Synced id h₀ := by
  unfold foldedIn Ledger.poll
  unfold records at hvalid hfirst
  cases hr : l.reads p.src p.force with
  | none => simp [hr, firstHeight] at hfirst
  | some r =>
      obtain ⟨height, txs⟩ := r
      simp only [hr] at hvalid hfirst
      obtain ⟨hcount, hseen⟩ := count_folded_of_firstHeight hid hfresh hvalid hfirst
      refine ⟨hcount, ?_⟩
      show (l.fold height txs).Synced id h₀
      rw [Synced, getElem?_seen_fold, hseen, fold_lastBlock, Option.filter_some]
      simp

/-- A scan that does not read the txid does not start to remember it. -/
lemma poll_of_no_record {l : Ledger} {id : String} (hfresh : l.seen[id]? = none) {p : Poll}
    (hnone : ∀ tx ∈ l.records p, tx.txID ≠ id) :
    (l.foldedIn p).countP (fun tx => tx.txID = id) = 0 ∧ (l.poll p).seen[id]? = none := by
  unfold foldedIn Ledger.poll
  unfold records at hnone
  cases hr : l.reads p.src p.force with
  | none => exact ⟨rfl, hfresh⟩
  | some r =>
      obtain ⟨height, txs⟩ := r
      simp only [hr] at hnone
      obtain ⟨hcount, hseen⟩ := count_folded_of_none (l := l) hnone
      refine ⟨hcount, ?_⟩
      show (l.fold height txs).seen[id]? = none
      rw [getElem?_seen_fold, hseen, hfresh]
      rfl

lemma foldCount_cons (l : Ledger) (id : String) (p : Poll) (ps : List Poll) :
    l.foldCount id (p :: ps) =
      (l.foldedIn p).countP (fun tx => tx.txID = id) + (l.poll p).foldCount id ps := by
  rw [foldCount, foldedOver, List.countP_append, foldCount]

end Ledger

/-! ### The chain, as the scans of a run find it -/

/-- The chain at one scan: its height, the payments on the active chain, and
the ones the history source shows. -/
structure ChainView where
  height : Int
  chain : List Tx
  shown : List Tx
  force : Bool

/-- A call of the scan fails. -/
def Poll.Fails (p : Poll) : Prop :=
  (∃ err, p.src.blockCount = .error err) ∨
    ∀ address after, ∃ err, p.src.addressTxs address after = .error err

namespace ChainView

/-- The answers of an explorer that shows `shown`. -/
def poll (v : ChainView) : Poll where
  src :=
    { blockCount := .ok v.height
      addressTxs := fun _ after => .ok (v.shown.filter fun tx => after < tx.height) }
  force := v.force

/-- A scan from `cursor` reads the history: there is a new block, or it is the
forced one. -/
def Due (v : ChainView) (cursor : Int) : Prop :=
  0 < v.height ∧ (cursor < v.height ∨ (cursor = v.height ∧ v.force = true))

instance (v : ChainView) (cursor : Int) : Decidable (v.Due cursor) :=
  inferInstanceAs (Decidable (_ ∧ _))

/-- The cursor after the scan: the last height that was scanned to. -/
def next (v : ChainView) (cursor : Int) : Int := if v.Due cursor then v.height else cursor

/-- What is shown within the overlap window below `cursor`, up to the height
of the chain. -/
def inWindow (v : ChainView) (cursor : Int) : List Tx :=
  if v.Due cursor then
    v.shown.filter fun tx =>
      cursor - overlapBlocks < tx.height ∧ 0 < tx.height ∧ tx.height ≤ v.height
  else []

end ChainView

/-- The scans of a run: one of each view, and any number that fail. -/
inductive Scans : List Poll → List ChainView → Prop
  | nil : Scans [] []
  | view {ps : List Poll} {vs : List ChainView} (v : ChainView) (h : Scans ps vs) :
      Scans (v.poll :: ps) (v :: vs)
  | failed {ps : List Poll} {vs : List ChainView} {p : Poll} (hp : p.Fails) (h : Scans ps vs) :
      Scans (p :: ps) vs

lemma scans_map (vs : List ChainView) : Scans (vs.map ChainView.poll) vs := by
  induction vs with
  | nil => exact .nil
  | cons v vs ih => exact .view v ih

namespace Ledger

variable {l : Ledger} {v : ChainView} {p : Poll}

/-- What a scan reads of a view, when it is due. -/
lemma reads_view (hfrom : l.seenFrom = 0) :
    l.reads v.poll.src v.poll.force =
      if v.Due l.lastBlock then
        some (v.height, v.shown.filter fun tx =>
          l.lastBlock - overlapBlocks < tx.height ∧ 0 < tx.height)
      else none := by
  have hfloor : ∀ tx : Tx, l.scanFrom < tx.height ↔
      l.lastBlock - overlapBlocks < tx.height ∧ 0 < tx.height := by
    intro tx
    simp only [scanFrom, hfrom]
    split_ifs <;> omega
  have hdue : ¬ (v.height ≤ 0 ∨ v.height < l.lastBlock ∨
      (v.height = l.lastBlock ∧ ¬ v.force = true)) ↔ v.Due l.lastBlock := by
    rw [ChainView.Due]
    cases v.force <;> simp <;> omega
  have hblock : v.poll.src.blockCount = .ok v.height := rfl
  have htxs : v.poll.src.addressTxs l.address l.scanFrom =
      .ok (v.shown.filter fun tx => l.lastBlock - overlapBlocks < tx.height ∧ 0 < tx.height) := by
    simp only [ChainView.poll, hfloor]
  have hforce : v.poll.force = v.force := rfl
  rw [reads, hblock, htxs, hforce]
  by_cases h : v.Due l.lastBlock
  · rw [if_pos h]
    exact if_neg (hdue.mpr h)
  · rw [if_neg h]
    exact if_pos (not_not.mp (mt hdue.mp h))

/-- **A scan reads what it is shown within the overlap window.** -/
lemma records_poll (hfrom : l.seenFrom = 0) : l.records v.poll = v.inWindow l.lastBlock := by
  rw [records, reads_view hfrom, ChainView.inWindow]
  by_cases h : v.Due l.lastBlock
  · rw [if_pos h, if_pos h]
    dsimp only
    rw [List.filter_filter]
    refine List.filter_congr fun tx _ => ?_
    rw [← Bool.decide_and, decide_eq_decide]
    omega
  · rw [if_neg h, if_neg h]

lemma lastBlock_poll (hfrom : l.seenFrom = 0) : (l.poll v.poll).lastBlock = v.next l.lastBlock := by
  rw [poll, reads_view hfrom, ChainView.next]
  by_cases h : v.Due l.lastBlock
  · rw [if_pos h, if_pos h, fold_lastBlock]
  · rw [if_neg h, if_neg h]

/-- A scan that fails reads nothing and leaves the state alone. -/
lemma reads_of_fails (hp : p.Fails) : l.reads p.src p.force = none := by
  rw [reads]
  rcases hp with ⟨err, herr⟩ | hfails
  · rw [herr]
  · cases p.src.blockCount with
    | error err => rfl
    | ok height =>
        obtain ⟨err, herr⟩ := hfails l.address l.scanFrom
        simp only [herr, ite_self]

lemma foldCount_of_fails (hp : p.Fails) (id : String) (ps : List Poll) :
    l.foldCount id (p :: ps) = l.foldCount id ps := by
  rw [foldCount_cons, foldedIn, poll, reads_of_fails hp]
  exact Nat.zero_add _

end Ledger

/-! ### Runs -/

/-- What the scans of a run are shown within the overlap window. -/
def shownOver : Int → List ChainView → List Tx
  | _, [] => []
  | cursor, v :: vs => v.inWindow cursor ++ shownOver (v.next cursor) vs

/-- Every scan that is shown the txid again within its window, after it was
first shown at height `h₀`, starts less than `overlapBlocks` above `h₀`. -/
def RereadInTime (id : String) : Int → Option Int → List ChainView → Prop
  | _, _, [] => True
  | cursor, none, v :: vs =>
      RereadInTime id (v.next cursor) (firstHeight id (v.inWindow cursor)) vs
  | cursor, some h₀, v :: vs =>
      ((∃ tx ∈ v.inWindow cursor, tx.txID = id) → cursor - overlapBlocks < h₀) ∧
        RereadInTime id (v.next cursor) (some h₀) vs

namespace Ledger

/-- What is shown of a txid is a valid payment. -/
def AllCredit (l : Ledger) (id : String) (vs : List ChainView) : Prop :=
  ∀ v ∈ vs, ∀ tx ∈ v.shown, tx.txID = id → (credit tx l.address l.sched).isSome

lemma AllCredit.head {l : Ledger} {id : String} {v : ChainView} {vs : List ChainView}
    (h : l.AllCredit id (v :: vs)) {cursor : Int} :
    ∀ tx ∈ v.inWindow cursor, tx.txID = id → (credit tx l.address l.sched).isSome := by
  intro tx htx
  rw [ChainView.inWindow] at htx
  split at htx
  · exact h v List.mem_cons_self tx (List.mem_of_mem_filter htx)
  · cases htx

lemma AllCredit.tail {l : Ledger} {id : String} {v : ChainView} {vs : List ChainView}
    (h : l.AllCredit id (v :: vs)) (p : Poll) : (l.poll p).AllCredit id vs := by
  intro w hw tx htx hid
  rw [poll_address, poll_sched]
  exact h w (List.mem_cons_of_mem _ hw) tx htx hid

/-- After its first fold a txid is folded no further iff it is only re-read
in time. -/
lemma Synced.count_eq_zero_iff {l : Ledger} {id : String} {h₀ : Int} (h : l.Synced id h₀)
    (hid : id ≠ "") (hfrom : l.seenFrom = 0) {ps : List Poll} {vs : List ChainView}
    (hscans : Scans ps vs) (hvalid : l.AllCredit id vs) :
    l.foldCount id ps = 0 ↔ RereadInTime id l.lastBlock (some h₀) vs := by
  induction hscans generalizing l with
  | nil => exact iff_of_true rfl trivial
  | failed hp _ ih => rw [foldCount_of_fails hp, ih h hfrom hvalid]
  | @view ps vs v _ ih =>
      have hrecords := records_poll (v := v) hfrom
      rw [foldCount_cons, RereadInTime]
      by_cases hin : (∃ tx ∈ v.inWindow l.lastBlock, tx.txID = id) →
          l.lastBlock - overlapBlocks < h₀
      · obtain ⟨hcount, hsync⟩ := h.poll hid (p := v.poll) (by rwa [hrecords])
        rw [hcount, Nat.zero_add, ih hsync (by simpa using hfrom) (hvalid.tail _),
          lastBlock_poll hfrom]
        exact ⟨fun hr => ⟨hin, hr⟩, fun hr => hr.2⟩
      · -- the entry is gone, so the late record is folded again
        have hfresh : l.seen[id]? = none := by
          rw [h, if_neg fun hc => hin fun _ => hc]
        obtain ⟨h₁, hfirst⟩ : ∃ h₁, firstHeight id (l.records v.poll) = some h₁ := by
          refine Option.ne_none_iff_exists'.mp fun hn => hin fun hr => ?_
          obtain ⟨tx, hmem, htx⟩ := hr
          rw [hrecords] at hn
          exact absurd htx (firstHeight_eq_none.mp hn tx hmem)
        have hcount := (poll_of_firstHeight hid hfresh
          (by rw [hrecords]; exact hvalid.head) hfirst).1
        exact iff_of_false (by omega) fun hr => hin hr.1

/-- The count of a run that starts before the txid was read. -/
lemma foldCount_of_fresh {l : Ledger} {id : String} (hfresh : l.seen[id]? = none)
    (hid : id ≠ "") (hfrom : l.seenFrom = 0) {ps : List Poll} {vs : List ChainView}
    (hscans : Scans ps vs) (hvalid : l.AllCredit id vs)
    (hread : ∃ tx ∈ shownOver l.lastBlock vs, tx.txID = id) :
    1 ≤ l.foldCount id ps ∧ (l.foldCount id ps = 1 ↔ RereadInTime id l.lastBlock none vs) := by
  induction hscans generalizing l with
  | nil =>
      obtain ⟨tx, hmem, -⟩ := hread
      cases hmem
  | failed hp _ ih =>
      rw [foldCount_of_fails hp]
      exact ih hfresh hfrom hvalid hread
  | @view ps vs v hscans ih =>
      have hrecords := records_poll (v := v) hfrom
      have hfrom' : (l.poll v.poll).seenFrom = 0 := by simpa using hfrom
      rw [foldCount_cons, RereadInTime]
      cases hfirst : firstHeight id (v.inWindow l.lastBlock) with
      | none =>
          have hnone := firstHeight_eq_none.mp hfirst
          obtain ⟨hcount, hfresh'⟩ := poll_of_no_record hfresh (p := v.poll) (by rwa [hrecords])
          have hread' : ∃ tx ∈ shownOver (l.poll v.poll).lastBlock vs, tx.txID = id := by
            obtain ⟨tx, hmem, htx⟩ := hread
            rcases List.mem_append.mp hmem with hm | hm
            · exact absurd htx (hnone tx hm)
            · exact ⟨tx, by rwa [lastBlock_poll hfrom], htx⟩
          rw [hcount, Nat.zero_add, ← lastBlock_poll hfrom]
          exact ih hfresh' hfrom' (hvalid.tail _) hread'
      | some h₀ =>
          obtain ⟨hcount, hsync⟩ := poll_of_firstHeight hid hfresh
            (by rw [hrecords]; exact hvalid.head) (by rw [hrecords]; exact hfirst)
          rw [← lastBlock_poll hfrom,
            ← hsync.count_eq_zero_iff hid hfrom' hscans (hvalid.tail _), hcount]
          omega

end Ledger

/-! ### Exactly once -/

/-- A scan that finds a new block, or is forced, is shown the txid at a height
within the overlap window below all heights that were reported before. -/
def Readable (id : String) (vs : List ChainView) : Prop :=
  ∃ before v after tx, vs = before ++ v :: after ∧ tx ∈ v.shown ∧ tx.txID = id ∧
    0 < tx.height ∧ tx.height ≤ v.height ∧ (v.force = true ∨ ∀ w ∈ before, w.height < v.height) ∧
    ∀ w ∈ before, w.height - overlapBlocks < tx.height

/-- The cursor is a height that was reported. -/
lemma foldl_next (vs : List ChainView) (cursor : Int) :
    vs.foldl (fun c v => v.next c) cursor = cursor ∨
      ∃ w ∈ vs, vs.foldl (fun c v => v.next c) cursor = w.height := by
  induction vs generalizing cursor with
  | nil => exact Or.inl rfl
  | cons v vs ih =>
      rw [List.foldl_cons]
      rcases ih (v.next cursor) with h | ⟨w, hw, h⟩
      · rw [h, ChainView.next]
        split
        · exact Or.inr ⟨v, List.mem_cons_self, rfl⟩
        · exact Or.inl rfl
      · exact Or.inr ⟨w, List.mem_cons_of_mem _ hw, h⟩

lemma shownOver_append (cursor : Int) (vs ws : List ChainView) :
    shownOver cursor (vs ++ ws) =
      shownOver cursor vs ++ shownOver (vs.foldl (fun c v => v.next c) cursor) ws := by
  induction vs generalizing cursor with
  | nil => rfl
  | cons v vs ih => rw [List.cons_append, shownOver, ih, shownOver, List.append_assoc]; rfl

/-- What is readable is shown within the window of a scan. -/
lemma Readable.mem_shownOver {id : String} {vs : List ChainView} (h : Readable id vs)
    (hgrows : vs.Pairwise fun v w => v.height ≤ w.height) :
    ∃ tx ∈ shownOver 0 vs, tx.txID = id := by
  obtain ⟨before, v, after, tx, rfl, hshown, hid, hpos, hle, hnew, hnear⟩ := h
  refine ⟨tx, ?_, hid⟩
  rw [shownOver_append]
  refine List.mem_append_right _ (List.mem_append_left _ ?_)
  have hcursor := foldl_next before 0
  generalize before.foldl (fun c v => v.next c) 0 = cursor at hcursor ⊢
  have hbefore : ∀ w ∈ before, w.height ≤ v.height := fun w hw =>
    (List.pairwise_append.mp hgrows).2.2 w hw v List.mem_cons_self
  have hdue : v.Due cursor := by
    refine ⟨by omega, ?_⟩
    rcases hcursor with rfl | ⟨w, hw, rfl⟩
    · exact Or.inl (by omega)
    · rcases hnew with hforce | hnew
      · exact (hbefore w hw).lt_or_eq.imp_right fun heq => ⟨heq, hforce⟩
      · exact Or.inl (hnew w hw)
  have hwindow : cursor - overlapBlocks < tx.height := by
    rcases hcursor with rfl | ⟨w, hw, rfl⟩
    · have hoverlap : (0 : Int) < overlapBlocks := by decide
      omega
    · exact hnear w hw
  rw [ChainView.inWindow, if_pos hdue]
  exact List.mem_filter.mpr ⟨hshown, decide_eq_true ⟨hwindow, hpos, hle⟩⟩

/-- **Exactly once**: over any run of scans of a fresh engine, a valid payment
that is readable within the overlap window is never lost, and it is folded into
`paid_until` exactly once iff every scan that is shown it again starts less
than `overlapBlocks` above the height it was first read at. -/
theorem exactly_once_iff (address : String) (sched : Schedule) {ps : List Poll}
    {vs : List ChainView} (hscans : Scans ps vs)
    (hgrows : vs.Pairwise fun v w => v.height ≤ w.height) (id : String) (hid : id ≠ "")
    (hvalid : ∀ v ∈ vs, ∀ tx ∈ v.shown, tx.txID = id → (credit tx address sched).isSome)
    (hread : Readable id vs) :
    1 ≤ (Engine.new address sched).foldCount id ps ∧
      ((Engine.new address sched).foldCount id ps = 1 ↔ RereadInTime id 0 none vs) :=
  Ledger.foldCount_of_fresh ExtTreeMap.getElem?_empty hid rfl hscans hvalid
    (hread.mem_shownOver hgrows)

/-! ### Chains with a shallow reorg -/

/-- The histories the overlap is meant for. -/
structure ShallowRun (vs : List ChainView) : Prop where
  /-- the reported height only grows -/
  grows : vs.Pairwise fun v w => v.height ≤ w.height
  /-- the payments of the active chain are confirmed, one record each -/
  confirmed : ∀ v ∈ vs, (∀ tx ∈ v.chain, 0 < tx.height ∧ tx.height ≤ v.height) ∧
    v.chain.Pairwise fun tx tx' => tx.txID ≠ tx'.txID
  /-- the source shows only what is on the chain -/
  honest : ∀ v ∈ vs, ∀ tx ∈ v.shown, tx ∈ v.chain
  /-- it shows a tx fewer than `overlapBlocks` blocks late -/
  lag : ∀ v ∈ vs, ∀ tx ∈ v.chain, tx.height + overlapBlocks ≤ v.height + 1 → tx ∈ v.shown
  /-- a reorg keeps every tx, at a height within `overlapBlocks` of the old one -/
  shallow : vs.Pairwise fun v w => ∀ tx ∈ v.chain, ∃ tx' ∈ w.chain, tx'.txID = tx.txID ∧
    tx'.height < tx.height + overlapBlocks ∧ tx.height < tx'.height + overlapBlocks

/-- **The overlap covers the lag**: a payment that no reorg moves is readable
as soon as the source has to show it. -/
lemma ShallowRun.readable {vs : List ChainView} (h : ShallowRun vs) (tx : Tx)
    (hmined : ∀ v ∈ vs, tx.height ≤ v.height → tx ∈ v.chain)
    (hreach : ∃ v ∈ vs, tx.height + overlapBlocks ≤ v.height + 1) : Readable tx.txID vs := by
  have hoverlap : overlapBlocks = 40 := rfl
  obtain ⟨v, hfind⟩ :
      ∃ v, vs.find? (fun v => tx.height + overlapBlocks ≤ v.height + 1) = some v := by
    obtain ⟨w, hw, hreached⟩ := hreach
    exact Option.isSome_iff_exists.mp (List.find?_isSome.mpr ⟨w, hw, decide_eq_true hreached⟩)
  obtain ⟨hreached, before, after, rfl, hearlier⟩ := List.find?_eq_some_iff_append.mp hfind
  have hreached := of_decide_eq_true hreached
  have hearlier : ∀ w ∈ before, w.height + 1 < tx.height + overlapBlocks := fun w hw => by
    simpa using hearlier w hw
  have hv : v ∈ before ++ v :: after := List.mem_append_right _ List.mem_cons_self
  have hchain := hmined v hv (by omega)
  obtain ⟨hpos, hle⟩ := (h.confirmed v hv).1 tx hchain
  refine ⟨before, v, after, tx, rfl, h.lag v hv tx hchain hreached, rfl, hpos, hle,
    Or.inr fun w hw => ?_, fun w hw => ?_⟩
  · have := hearlier w hw
    omega
  · have := hearlier w hw
    omega

/-- A txid that is shown at one height only is always re-read in time. -/
lemma rereadInTime_of_stable {id : String} {h : Int} {vs : List ChainView}
    (hstable : ∀ v ∈ vs, ∀ tx ∈ v.shown, tx.txID = id → tx.height = h) (cursor : Int) :
    RereadInTime id cursor none vs ∧ RereadInTime id cursor (some h) vs := by
  induction vs generalizing cursor with
  | nil => exact ⟨trivial, trivial⟩
  | cons v vs ih =>
      obtain ⟨ihnone, ihsome⟩ := ih (fun w hw => hstable w (List.mem_cons_of_mem _ hw))
        (v.next cursor)
      have hwindow : ∀ tx ∈ v.inWindow cursor, tx.txID = id →
          tx.height = h ∧ cursor - overlapBlocks < tx.height := by
        intro tx htx hid
        rw [ChainView.inWindow] at htx
        split at htx
        · obtain ⟨hshown, hin⟩ := List.mem_filter.mp htx
          exact ⟨hstable v List.mem_cons_self tx hshown hid, (of_decide_eq_true hin).1⟩
        · cases htx
      refine ⟨?_, fun ⟨tx, hmem, htx⟩ => ?_, ihsome⟩
      · rw [RereadInTime]
        cases hfirst : firstHeight id (v.inWindow cursor) with
        | none => exact ihnone
        | some h₀ =>
            obtain ⟨tx, hfind, rfl⟩ := Option.map_eq_some_iff.mp hfirst
            have htx : tx.txID = id := by simpa using List.find?_some hfind
            rw [(hwindow tx (List.mem_of_find?_eq_some hfind) htx).1]
            exact ihsome
      · obtain ⟨hheight, hnear⟩ := hwindow tx hmem htx
        exact hheight ▸ hnear

/-- A month's payment, mined at `height`. -/
def reorgedTx (height : Int) : Tx where
  txID := "r"
  height := height
  time := 1000 * 10 ^ 9
  amountTo := 20
  memos := ["CVPN1:abc"]

/-- The tx is mined at 100, and first shown when the chain is 39 blocks above
it. -/
def laggedViews : List ChainView :=
  [⟨100, [reorgedTx 100], [], true⟩, ⟨120, [reorgedTx 100], [], false⟩,
    ⟨139, [reorgedTx 100], [reorgedTx 100], false⟩, ⟨178, [reorgedTx 100], [reorgedTx 100], false⟩]

lemma shallowRun_laggedViews : ShallowRun laggedViews where
  grows := by decide
  confirmed := by decide
  honest := by decide
  lag := by decide
  shallow := by decide

/-- The payment that is shown late is folded once, at its only height; a scan
in between fails. -/
theorem exactly_once_iff_laggedViews :
    (Engine.new "t1pay" (Schedule.flat 20 twenty_pos)).foldCount "r"
      (⟨⟨.error "daemon", fun _ _ => .ok []⟩, false⟩ :: laggedViews.map ChainView.poll) = 1 := by
  have hread : Readable "r" laggedViews :=
    shallowRun_laggedViews.readable (reorgedTx 100) (by decide) (by decide)
  refine (exactly_once_iff _ _ (.failed (Or.inl ⟨_, rfl⟩) (scans_map laggedViews))
    shallowRun_laggedViews.grows "r" (by decide) ?_ hread).2.mpr
    (rereadInTime_of_stable (h := 100) (by decide) 0).1
  decide +kernel

/-- The tx is folded at 100, re-mined at 101, and read again when the cursor
is at 140. -/
def reorgedViews : List ChainView :=
  [⟨100, [reorgedTx 100], [reorgedTx 100], true⟩,
    ⟨140, [reorgedTx 101], [reorgedTx 101], false⟩,
    ⟨141, [reorgedTx 101], [reorgedTx 101], false⟩]

lemma shallowRun_reorgedViews : ShallowRun reorgedViews where
  grows := by decide
  confirmed := by decide
  honest := by decide
  lag := by decide
  shallow := by decide

/-- The reorged payment is stacked twice. -/
theorem not_exactlyOnce_of_shallowRun :
    ¬ ∀ (address : String) (sched : Schedule) (vs : List ChainView) (id : String),
      ShallowRun vs → id ≠ "" →
      (∀ v ∈ vs, ∀ tx ∈ v.shown, tx.txID = id → (credit tx address sched).isSome) →
      Readable id vs →
      (Engine.new address sched).foldCount id (vs.map ChainView.poll) = 1 := by
  intro h
  have hread : Readable "r" reorgedViews :=
    ⟨[], _, _, reorgedTx 100, rfl, by decide, rfl, by decide, by decide, Or.inl rfl, by decide⟩
  have hone := h "t1pay" (Schedule.flat 20 twenty_pos) reorgedViews "r"
    shallowRun_reorgedViews (by decide) (by decide +kernel) hread
  have htwo : (Engine.new "t1pay" (Schedule.flat 20 twenty_pos)).foldCount "r"
      (reorgedViews.map ChainView.poll) = 2 := by decide +kernel
  omega

end CumulusVpn
