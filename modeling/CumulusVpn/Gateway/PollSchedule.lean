/-
Runs of scans under different schedules.

* `Engine.backfill`: the scan at boot;
* `Engine.reached`: the heights that the successful scans of a run report;
* `Ledger.folded_of_seen`, `Ledger.folded_of_fresh`: which txs of a batch are
  folded;
* `foldedIn_eq`, `foldedOver_eq`: a run folds the payments up to its cursor,
  each once and in order;
* `polls_lastBlock`: the cursor ends at the greatest height reached;
* `polls_eq_backfill`: **a run ends where one backfill ends** that starts from
  nothing at that height.
-/
import CumulusVpn.Gateway.Snapshot

namespace CumulusVpn

open Std (ExtTreeMap)

/-! ### Successful scans -/

namespace Engine

/-- `Backfill`: a forced scan, and a save unless the scan failed; a failed
save is only logged. -/
def backfill (e : Engine) (src : TxSource) (now : Int) (file : Option Snapshot)
    (write : Except String Unit) : Engine × Option Snapshot × Except String Unit :=
  match e.scan src true with
  | (e, .error err) => (e, file, .error err)
  | (e, .ok _) =>
      let (e, file) := e.save now file write
      (e, file, .ok ())

/-- The height that a scan reports, unless the scan fails. -/
def reachedIn (e : Engine) (p : Poll) : Option Int :=
  match (e.scan p.src p.force).2, p.src.blockCount with
  | .ok _, .ok height => some height
  | _, _ => none

/-- The heights that the successful scans of a run report. -/
def reached (e : Engine) : List Poll → List Int
  | [] => []
  | p :: ps => (e.reachedIn p).toList ++ (e.poll p).reached ps

lemma save_toLedger (e : Engine) (now : Int) (file : Option Snapshot)
    (write : Except String Unit) : (e.save now file write).1.toLedger = e.toLedger := by
  rw [save.eq_def]
  split
  · rfl
  · cases write <;> rfl

/-- A save leaves what is derived from the chain alone. -/
lemma backfill_toLedger (e : Engine) (src : TxSource) (now : Int) (file : Option Snapshot)
    (write : Except String Unit) :
    (e.backfill src now file write).1.toLedger = e.toLedger.poll ⟨src, true⟩ := by
  rw [← e.poll_toLedger ⟨src, true⟩, poll, backfill]
  rcases e.scan src true with ⟨e', err | granted⟩
  · rfl
  · exact e'.save_toLedger now file write

/-- A scan succeeds when it has nothing to read, or reads it. -/
lemma reachedIn_eq (e : Engine) (p : Poll) : e.reachedIn p =
    match p.src.blockCount with
    | .error _ => none
    | .ok height =>
        if height ≤ 0 then none
        else if height < e.lastBlock ∨ (height = e.lastBlock ∧ ¬ p.force) then some height
        else match p.src.addressTxs e.address e.scanFrom with
          | .error _ => none
          | .ok _ => some height := by
  rw [reachedIn, scan]
  cases hb : p.src.blockCount with
  | error err => rfl
  | ok height =>
      by_cases h0 : height ≤ 0
      · simp [h0]
      · have htip : (if height > e.tip then { e with tip := height } else e).toLedger =
            e.toLedger := by split <;> rfl
        simp only [h0, if_false]
        generalize (if height > e.tip then { e with tip := height } else e) = e' at htip ⊢
        rw [htip]
        by_cases hold : height < e.lastBlock ∨ (height = e.lastBlock ∧ ¬ p.force)
        · simp only [if_pos hold]
        · simp only [if_neg hold]
          cases p.src.addressTxs e.address e.toLedger.scanFrom <;> rfl

/-- A successful scan moves the cursor up to its height. -/
lemma poll_lastBlock (e : Engine) (p : Poll) :
    (e.poll p).lastBlock = (e.reachedIn p).elim e.lastBlock (max e.lastBlock) := by
  have hpoll : (e.poll p).lastBlock = (e.toLedger.poll p).lastBlock :=
    congrArg Ledger.lastBlock (e.poll_toLedger p)
  rw [hpoll, reachedIn_eq, Ledger.poll, Ledger.reads]
  cases p.src.blockCount with
  | error err => rfl
  | ok height =>
      by_cases h0 : height ≤ 0
      · simp [h0]
      · simp only [h0, if_false, false_or]
        by_cases hold : height < e.lastBlock ∨ (height = e.lastBlock ∧ ¬ p.force)
        · -- nothing new to read
          simp only [if_pos hold, Option.elim_some]
          omega
        · simp only [if_neg hold]
          cases p.src.addressTxs e.address e.toLedger.scanFrom with
          | error err => rfl
          | ok txs =>
              show height = max e.lastBlock height
              omega

end Engine

/-! ### Which txs are folded -/

namespace Ledger

variable {l : Ledger} {upTo : Int}

lemma folded_append (txs txs' : List Tx) :
    l.folded upTo (txs ++ txs') = l.folded upTo txs ++ (l.applyAll upTo txs).folded upTo txs' := by
  induction txs generalizing l with
  | nil => rfl
  | cons tx txs ih =>
      rw [List.cons_append, folded, folded, ih, applyAll_cons]
      split <;> rfl

/-- A batch folds eligible records only. -/
lemma folded_filter (txs : List Tx) :
    l.folded upTo (txs.filter fun tx => 0 < tx.height ∧ tx.height ≤ upTo) = l.folded upTo txs := by
  induction txs generalizing l with
  | nil => rfl
  | cons tx txs ih =>
      by_cases he : 0 < tx.height ∧ tx.height ≤ upTo
      · rw [List.filter_cons_of_pos (by simpa using he), folded, folded, ih]
      · have hs : l.Skips upTo tx := by
          rw [Skips]
          omega
        rw [List.filter_cons_of_neg (by simpa using he), ih, folded, if_neg fun h => h.1 hs, apply,
          if_pos hs]

/-- Remembered txs are not folded again. -/
lemma folded_of_seen {txs : List Tx} (h : ∀ tx ∈ txs, tx.txID ∈ l.seen ∧ tx.txID ≠ "") :
    l.folded upTo txs = [] := by
  induction txs with
  | nil => rfl
  | cons tx txs ih =>
      have hs : l.Skips upTo tx := Or.inr (Or.inr (h tx List.mem_cons_self))
      rw [folded, if_neg fun hfold => hfold.1 hs, apply, if_pos hs]
      exact ih fun t ht => h t (List.mem_cons_of_mem _ ht)

/-- The txs of a list that credit something. -/
def crediting (l : Ledger) (txs : List Tx) : List Tx :=
  txs.filter fun tx => (credit tx l.address l.sched).isSome

/-- New txs are folded when they credit something. -/
lemma folded_of_fresh {txs : List Tx} (hnew : ∀ tx ∈ txs, (0 < tx.height ∧ tx.height ≤ upTo) ∧
    tx.txID ∉ l.seen) (hdist : txs.Pairwise fun tx tx' => tx.txID ≠ tx'.txID) :
    l.folded upTo txs = l.crediting txs := by
  induction txs generalizing l with
  | nil => rfl
  | cons tx txs ih =>
      obtain ⟨hne, hdist'⟩ := List.pairwise_cons.mp hdist
      obtain ⟨hrange, hfresh⟩ := hnew tx List.mem_cons_self
      have hs : ¬ l.Skips upTo tx := by
        rintro (h | h | ⟨h, -⟩)
        · omega
        · omega
        · exact hfresh h
      have hnew' :
          ∀ t ∈ txs, (0 < t.height ∧ t.height ≤ upTo) ∧ t.txID ∉ (l.apply upTo tx).seen := by
        intro t ht
        obtain ⟨htrange, htfresh⟩ := hnew t (List.mem_cons_of_mem _ ht)
        refine ⟨htrange, fun hmem => htfresh ?_⟩
        rw [apply, if_neg hs, ExtTreeMap.mem_iff_isSome_getElem?, take, getElem?_record,
          if_neg fun hc => hne t ht hc.1] at hmem
        exact ExtTreeMap.mem_iff_isSome_getElem?.mpr hmem
      rw [folded, ih hnew' hdist', crediting, crediting, apply_address, apply_sched,
        List.filter_cons]
      simp [hs]

end Ledger

/-! ### Runs against a complete source -/

section Runs

variable {hist : List Tx} (hh : History hist)

include hh

/-- A scan folds the payments between the cursor before it and the cursor
after it. -/
lemma Derived.foldedIn_eq {l : Ledger} (h : Derived hist l) {p : Poll}
    (hp : Complete hist l.address p.src) :
    l.foldedIn p = l.crediting (window hist l.lastBlock (l.poll p).lastBlock) := by
  rw [Ledger.foldedIn, Ledger.poll]
  cases hr : l.reads p.src p.force with
  | none =>
      have hnil : window hist l.lastBlock l.lastBlock = [] := by
        refine List.filter_eq_nil_iff.mpr fun tx _ => ?_
        simp
      show [] = l.crediting (window hist l.lastBlock l.lastBlock)
      rw [hnil]
      rfl
  | some r =>
      obtain ⟨height, txs⟩ := r
      obtain ⟨hparts, hseen, hnew⟩ := h.read hh hp hr
      show l.folded height txs = l.crediting (window hist l.lastBlock height)
      rw [← Ledger.folded_filter, hparts, Ledger.folded_append, Ledger.folded_of_seen hseen,
        List.nil_append, Ledger.applyAll_of_seen hseen,
        Ledger.folded_of_fresh hnew (hh.pairwise_window _ _)]

/-- **A run folds the payments up to its cursor**, each once and in order. -/
theorem Derived.foldedOver_eq {l : Ledger} (h : Derived hist l) {ps : List Poll}
    (hps : ∀ p ∈ ps, Complete hist l.address p.src) :
    Derived hist (ps.foldl Ledger.poll l) ∧ l.lastBlock ≤ (ps.foldl Ledger.poll l).lastBlock ∧
      l.foldedOver ps =
        l.crediting (window hist l.lastBlock (ps.foldl Ledger.poll l).lastBlock) := by
  induction ps generalizing l with
  | nil =>
      have hnil : window hist l.lastBlock l.lastBlock = [] := by
        refine List.filter_eq_nil_iff.mpr fun tx _ => ?_
        simp
      refine ⟨h, le_rfl, ?_⟩
      rw [List.foldl_nil, hnil]
      rfl
  | cons p ps ih =>
      have hp := hps p List.mem_cons_self
      have hle := l.lastBlock_le_poll p
      obtain ⟨hderived, hle', hfolded⟩ := ih (h.poll hh hp) fun q hq => by
        rw [l.poll_address]
        exact hps q (List.mem_cons_of_mem _ hq)
      refine ⟨hderived, hle.trans hle', ?_⟩
      rw [Ledger.foldedOver, h.foldedIn_eq hh hp, hfolded, List.foldl_cons,
        window_split hh.oldestFirst hle hle', Ledger.crediting, Ledger.crediting, Ledger.crediting,
        List.filter_append, l.poll_address, l.poll_sched]

end Runs

/-- The cursor of a run ends at the greatest height that it reached. -/
lemma polls_lastBlock (e : Engine) (ps : List Poll) :
    (e.polls ps).lastBlock = (e.reached ps).foldl max e.lastBlock := by
  induction ps generalizing e with
  | nil => rfl
  | cons p ps ih =>
      have hrun : e.polls (p :: ps) = (e.poll p).polls ps := rfl
      rw [hrun, ih, Engine.reached, List.foldl_append, e.poll_lastBlock p]
      cases e.reachedIn p <;> rfl

/-- The heights that successful scans report are positive. -/
lemma reached_pos {e : Engine} {ps : List Poll} : ∀ h ∈ e.reached ps, 0 < h := by
  induction ps generalizing e with
  | nil => exact fun h hh => absurd hh List.not_mem_nil
  | cons p ps ih =>
      intro h hh
      rw [Engine.reached, List.mem_append, Option.mem_toList] at hh
      rcases hh with hh | hh
      · rw [e.reachedIn_eq] at hh
        split at hh
        · cases hh
        · split at hh
          · cases hh
          · split at hh
            · cases hh
              omega
            · split at hh
              · cases hh
              · cases hh
                omega
      · exact ih h hh

/-- **A run ends where one backfill ends.**  Whatever the polls are and
whichever of them fail, the map and the cursor are those of a backfill from
nothing at the greatest height a successful scan reached; and the run folded
the payments up to that height, each once and in order. -/
theorem polls_eq_backfill {hist : List Tx} (hh : History hist) (address : String)
    (sched : Schedule) {ps : List Poll} (hps : ∀ p ∈ ps, Complete hist address p.src) {top : Int}
    (htop : ((Engine.new address sched).reached ps).max? = some top) {src : TxSource}
    (hsrc : Complete hist address src) (hblock : src.blockCount = .ok top) {txs : List Tx}
    (hread : src.addressTxs address 0 = .ok txs) (now : Int) (file : Option Snapshot)
    (write : Except String Unit) :
    let e := (Engine.new address sched).polls ps
    let filled := ((Engine.new address sched).backfill src now file write).1
    e.paidUntil = filled.paidUntil ∧ e.lastBlock = filled.lastBlock ∧ e.lastBlock = top ∧
      (Engine.new address sched).foldedOver ps =
        (window hist 0 top).filter fun tx => (credit tx address sched).isSome := by
  intro e filled
  have hpos := reached_pos top (List.max?_mem htop)
  have hnew := derived_new hh address sched
  obtain ⟨hderived, -, hfolded⟩ := hnew.foldedOver_eq hh hps
  have hrun : e.toLedger = ps.foldl Ledger.poll (Engine.new address sched).toLedger :=
    Engine.polls_toLedger _ ps
  have hlast : e.lastBlock = top := by
    rw [polls_lastBlock, List.foldl_max, htop]
    exact max_eq_right hpos.le
  have hfilled : filled.toLedger = (Engine.new address sched).toLedger.poll ⟨src, true⟩ :=
    Engine.backfill_toLedger _ src now file write
  have hlast' : filled.lastBlock = top := by
    have hreached : (Engine.new address sched).reachedIn ⟨src, true⟩ = some top := by
      have hscan : (Engine.new address sched).scanFrom = 0 := rfl
      rw [Engine.reachedIn_eq]
      simp only [hblock, hscan]
      rw [if_neg (by omega), if_neg (by simp [Engine.new]; omega)]
      show (match src.addressTxs address 0 with
        | .error _ => none
        | .ok _ => some top) = some top
      rw [hread]
    have hpoll := (Engine.new address sched).poll_lastBlock ⟨src, true⟩
    rw [hreached] at hpoll
    have heq : filled.lastBlock = ((Engine.new address sched).poll ⟨src, true⟩).lastBlock := by
      rw [← (Engine.new address sched).poll_toLedger ⟨src, true⟩] at hfilled
      exact congrArg Ledger.lastBlock hfilled
    rw [heq, hpoll]
    exact max_eq_right hpos.le
  have hsame : e.toLedger = filled.toLedger := by
    rw [← hrun] at hderived
    have hderived' := hnew.poll hh (p := ⟨src, true⟩) hsrc
    rw [← hfilled] at hderived'
    refine hderived.ext hderived' ?_ ?_ (hlast.trans hlast'.symm)
    · rw [hfilled, Ledger.poll_address, hrun, Ledger.polls_address]
    · rw [hfilled, Ledger.poll_sched, hrun, Ledger.polls_sched]
  refine ⟨congrArg Ledger.paidUntil hsame, hlast.trans hlast'.symm, hlast, ?_⟩
  rw [hfolded, ← hrun, hlast]
  rfl

/-- A source that is down. -/
def failingSource : TxSource where
  blockCount := .error "down"
  addressTxs := fun _ _ => .error "down"

/-- A run that fails once and falls back once. -/
def unevenPolls : List Poll :=
  [⟨completeSource lateHistory 110, true⟩, ⟨failingSource, false⟩,
    ⟨completeSource lateHistory 105, true⟩, ⟨completeSource lateHistory 150, false⟩]

theorem polls_eq_backfill_unevenPolls :
    let e := (Engine.new "t1pay" droppedPrice).polls unevenPolls
    let filled := ((Engine.new "t1pay" droppedPrice).backfill (completeSource lateHistory 150) 0
      none (.ok ())).1
    e.paidUntil = filled.paidUntil ∧ e.lastBlock = filled.lastBlock ∧ e.lastBlock = 150 ∧
      (Engine.new "t1pay" droppedPrice).foldedOver unevenPolls =
        (window lateHistory 0 150).filter fun tx => (credit tx "t1pay" droppedPrice).isSome := by
  have hps : ∀ p ∈ unevenPolls, Complete lateHistory "t1pay" p.src := by
    intro p hp
    simp only [unevenPolls, List.mem_cons, List.not_mem_nil, or_false] at hp
    rcases hp with rfl | rfl | rfl | rfl
    · exact complete_completeSource history_lateHistory _ _
    · exact fun height after txs hb => by cases hb
    · exact complete_completeSource history_lateHistory _ _
    · exact complete_completeSource history_lateHistory _ _
  exact polls_eq_backfill history_lateHistory "t1pay" droppedPrice hps (by decide +kernel)
    (complete_completeSource history_lateHistory _ 150) rfl rfl 0 none (.ok ())

end CumulusVpn
