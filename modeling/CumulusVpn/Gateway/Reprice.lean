/-
Hot repricing (`applyPending` and `rebuild` of
`gateway/internal/entitle/entitle.go`).

* `Engine.reprice`, `Engine.rebuild`, `Engine.applyPending`: a schedule is
  handed over, and installed in place or by a rescan of the whole history;
* `applyPending_of_not_installed`: a schedule that is refused or whose
  rebuild fails leaves the derived state alone, and
  `rebuild_eq_error_iff` lists the histories that a rebuild does not trust;
* `Derived.swap`, `rebuild_derived`: the two branches both end in a derived
  state under the new schedule;
* `Derived.applyPending`, `Derived.events`: **every reachable state of a
  complete history is derived**;
* `applyPending_spec`: **a hot reprice is a restart under the new schedule,
  and a failed one changes nothing**.

The checkpoint that follows an installed schedule is `Save`, which leaves
the derived state alone.
-/
import CumulusVpn.Gateway.History

namespace CumulusVpn

open Std (ExtTreeMap)

namespace Engine

/-- `Reprice`: hands the engine a new schedule. -/
def reprice (e : Engine) (s : Schedule) : Engine := { e with pending := some s }

/-! ### Rebuilding the map -/

/-- The variables of the loop of `rebuild`. -/
structure Rebuild where
  fresh : PaidMap
  freshSeen : SeenMap
  all : List String
  n : Nat

/-- One tx of the whole history, skipped when it is out of range or a
repetition. -/
def rebuildTx (address : String) (sched : Schedule) (height : Int) (r : Rebuild) (tx : Tx) :
    Rebuild :=
  if tx.height ≤ 0 ∨ tx.height > height ∨ (tx.txID ≠ "" ∧ tx.txID ∈ r.all) then r
  else
    { fresh := match grant r.fresh tx address sched with
        | none => r.fresh
        | some (_, _, m) => m
      freshSeen :=
        if tx.height > height - overlapBlocks ∧ tx.txID ≠ "" then
          r.freshSeen.insert tx.txID tx.height
        else r.freshSeen
      all := tx.txID :: r.all
      n := r.n + 1 }

/-- The whole history under `sched`, refused when it is visibly
incomplete. -/
def rebuild (e : Engine) (src : TxSource) (sched : Schedule) :
    Except String (PaidMap × SeenMap × Int × Nat) :=
  match src.blockCount with
  | .error err => .error err
  | .ok height =>
      if height ≤ 0 ∨ height < e.lastBlock then
        .error s!"chain height {height} is behind the cursor {e.lastBlock}"
      else match src.addressTxs e.address 0 with
        | .error err => .error err
        | .ok txs =>
            let r := txs.foldl (rebuildTx e.address sched height) ⟨∅, ∅, [], 0⟩
            match e.seen.keys.find? fun id => id ∉ r.all with
            | some id => .error s!"history is missing already-folded tx {id}"
            | none =>
                if e.paidUntil.size > 0 ∧ r.n = 0 then .error "history came back empty"
                else .ok (r.fresh, r.freshSeen, height, r.n)

/-- How `applyPending` ends. -/
inductive Outcome
  /-- nothing was pending -/
  | idle
  /-- the pending schedule is the running one -/
  | same
  /-- it edits the running one -/
  | refused
  /-- swapped in place -/
  | swapped
  /-- rebuilt from `n` txs -/
  | rebuilt (n : Nat)
  /-- the rebuild failed; it is tried again -/
  | failed (err : String)
deriving DecidableEq, Repr

/-- The running schedule is the pending one now. -/
def Outcome.Installed : Outcome → Prop
  | .same | .swapped | .rebuilt _ => True
  | .idle | .refused | .failed _ => False

/-- Installs a pending schedule.  `arrived` is a schedule that `Reprice`
hands over while this runs: it is never overwritten by a retry. -/
def applyPending (e : Engine) (src : TxSource) (arrived : Option Schedule) : Engine × Outcome :=
  match e.pending with
  | none => ({ e with pending := arrived }, .idle)
  | some next =>
      let e := { e with pending := arrived }
      if next = e.sched then (e, .same)
      else if ¬ next.HasPrefix e.sched then (e, .refused)
      else if next.Extends e.sched e.lastBlock then
        ({ e with sched := next, dirty := true }, .swapped)
      else match e.rebuild src next with
        | .error err => ({ e with pending := arrived.or (some next) }, .failed err)
        | .ok (fresh, freshSeen, height, n) =>
            ({ e with
                sched := next
                paidUntil := fresh
                seen := freshSeen
                seenFrom := 0
                lastBlock := height
                dirty := true }, .rebuilt n)

/-! ### What the two can do -/

/-- What a successful rebuild read. -/
lemma rebuild_eq_ok {e : Engine} {src : TxSource} {sched : Schedule} {fresh : PaidMap}
    {freshSeen : SeenMap} {height : Int} {n : Nat}
    (h : e.rebuild src sched = .ok (fresh, freshSeen, height, n)) :
    src.blockCount = .ok height ∧ 0 < height ∧ e.lastBlock ≤ height ∧
      ∃ txs, src.addressTxs e.address 0 = .ok txs ∧
        fresh = (txs.foldl (rebuildTx e.address sched height) ⟨∅, ∅, [], 0⟩).fresh ∧
        freshSeen = (txs.foldl (rebuildTx e.address sched height) ⟨∅, ∅, [], 0⟩).freshSeen := by
  unfold rebuild at h
  cases hb : src.blockCount with
  | error err => simp [hb] at h
  | ok ht =>
      simp only [hb] at h
      split at h
      · cases h
      · rename_i hh
        cases ha : src.addressTxs e.address 0 with
        | error err => simp [ha] at h
        | ok txs =>
            simp only [ha] at h
            split at h
            · cases h
            · split at h
              · cases h
              · simp only [Except.ok.injEq, Prod.mk.injEq] at h
                obtain ⟨rfl, rfl, rfl, -⟩ := h
                exact ⟨rfl, by omega, by omega, txs, rfl, rfl, rfl⟩

/-- A rebuild fails on a failed read, a height behind the cursor, a history
without a tx that is already folded, and an empty one. -/
theorem rebuild_eq_error_iff (e : Engine) (src : TxSource) (sched : Schedule) :
    (∃ err, e.rebuild src sched = .error err) ↔
      match src.blockCount, src.addressTxs e.address 0 with
      | .error _, _ => True
      | .ok _, .error _ => True
      | .ok height, .ok txs =>
          height ≤ 0 ∨ height < e.lastBlock ∨
            (∃ id ∈ e.seen,
              id ∉ (txs.foldl (rebuildTx e.address sched height) ⟨∅, ∅, [], 0⟩).all) ∨
            (0 < e.paidUntil.size ∧
              (txs.foldl (rebuildTx e.address sched height) ⟨∅, ∅, [], 0⟩).n = 0) := by
  unfold rebuild
  cases hb : src.blockCount with
  | error err => simp
  | ok height =>
      by_cases hh : height ≤ 0 ∨ height < e.lastBlock
      · cases src.addressTxs e.address 0 <;> rcases hh with h | h <;> simp [h]
      · cases ha : src.addressTxs e.address 0 with
        | error err => simp [hh]
        | ok txs =>
            dsimp only
            generalize txs.foldl (rebuildTx e.address sched height) ⟨∅, ∅, [], 0⟩ = r
            obtain ⟨h0, hL⟩ := not_or.mp hh
            rw [if_neg hh]
            cases hf : e.seen.keys.find? fun id => id ∉ r.all with
            | some id =>
                have hid : id ∉ r.all := by simpa using List.find?_some hf
                have hmem : id ∈ e.seen := ExtTreeMap.mem_keys.mp (List.mem_of_find?_eq_some hf)
                exact iff_of_true ⟨_, rfl⟩ (Or.inr (Or.inr (Or.inl ⟨id, hmem, hid⟩)))
            | none =>
                have hall : ∀ id ∈ e.seen, id ∈ r.all := fun id hid => by
                  simpa using List.find?_eq_none.mp hf id (ExtTreeMap.mem_keys.mpr hid)
                by_cases hn : e.paidUntil.size > 0 ∧ r.n = 0
                · exact iff_of_true ⟨_, if_pos hn⟩ (Or.inr (Or.inr (Or.inr hn)))
                · refine iff_of_false (fun ⟨err, herr⟩ => ?_) ?_
                  · dsimp only at herr
                    rw [if_neg hn] at herr
                    cases herr
                  · rintro (h | h | ⟨id, hid, hno⟩ | h)
                    · exact h0 h
                    · exact hL h
                    · exact hno (hall id hid)
                    · exact hn h

/-- What `applyPending` does with a pending schedule. -/
lemma applyPending_cases (e : Engine) (src : TxSource) (arrived : Option Schedule)
    {next : Schedule} (hp : e.pending = some next) :
    (next = e.sched ∧ e.applyPending src arrived = ({ e with pending := arrived }, .same)) ∨
    (¬ next.HasPrefix e.sched ∧
      e.applyPending src arrived = ({ e with pending := arrived }, .refused)) ∨
    (next.Extends e.sched e.lastBlock ∧ e.applyPending src arrived =
      ({ e with pending := arrived, sched := next, dirty := true }, .swapped)) ∨
    (next.HasPrefix e.sched ∧ ∃ err, e.rebuild src next = .error err ∧
      e.applyPending src arrived =
        ({ e with pending := arrived.or (some next) }, .failed err)) ∨
    (next.HasPrefix e.sched ∧ ∃ fresh freshSeen height n,
      e.rebuild src next = .ok (fresh, freshSeen, height, n) ∧ e.applyPending src arrived =
        ({ e with
            pending := arrived
            sched := next
            paidUntil := fresh
            seen := freshSeen
            seenFrom := 0
            lastBlock := height
            dirty := true }, .rebuilt n)) := by
  unfold applyPending
  rw [hp]
  dsimp only
  by_cases hsame : next = e.sched
  · exact Or.inl ⟨hsame, if_pos hsame⟩
  rw [if_neg hsame]
  by_cases hpre : next.HasPrefix e.sched
  swap
  · exact Or.inr (Or.inl ⟨hpre, if_pos hpre⟩)
  rw [if_neg (not_not_intro hpre)]
  by_cases hext : next.Extends e.sched e.lastBlock
  · exact Or.inr (Or.inr (Or.inl ⟨hext, if_pos hext⟩))
  rw [if_neg hext]
  have hreb : Engine.rebuild { e with pending := arrived } src next = e.rebuild src next := rfl
  rw [hreb]
  cases hr : e.rebuild src next with
  | error err => exact Or.inr (Or.inr (Or.inr (Or.inl ⟨hpre, err, rfl, rfl⟩)))
  | ok r =>
      obtain ⟨fresh, freshSeen, height, n⟩ := r
      exact Or.inr (Or.inr (Or.inr (Or.inr ⟨hpre, fresh, freshSeen, height, n, rfl, rfl⟩)))

/-- **A schedule that is not installed changes nothing** of the derived
state; after a failed rebuild it stays pending unless a newer one arrived. -/
theorem applyPending_of_not_installed (e : Engine) (src : TxSource) (arrived : Option Schedule)
    {next : Schedule} (hp : e.pending = some next)
    (h : ¬ (e.applyPending src arrived).2.Installed) :
    (e.applyPending src arrived).1.toLedger = e.toLedger ∧
      (∀ err, (e.applyPending src arrived).2 = .failed err →
        (e.applyPending src arrived).1.pending = arrived.or (some next)) := by
  rcases e.applyPending_cases src arrived hp with
    ⟨-, hr⟩ | ⟨-, hr⟩ | ⟨-, hr⟩ | ⟨-, err, -, hr⟩ | ⟨-, fresh, freshSeen, height, n, -, hr⟩
  · rw [hr] at h
    exact absurd trivial h
  · rw [hr]
    exact ⟨rfl, fun err herr => by cases herr⟩
  · rw [hr] at h
    exact absurd trivial h
  · rw [hr]
    exact ⟨rfl, fun _ _ => rfl⟩
  · rw [hr] at h
    exact absurd trivial h

end Engine

/-! ### Both branches derive the state under the new schedule -/

/-- Txs that two schedules credit alike stack to the same map. -/
lemma foldl_grantTo_congr {address : String} {s s' : Schedule} {txs : List Tx}
    (h : ∀ tx ∈ txs, credit tx address s = credit tx address s') (m : PaidMap) :
    txs.foldl (grantTo address s) m = txs.foldl (grantTo address s') m := by
  induction txs generalizing m with
  | nil => rfl
  | cons tx txs ih =>
      have hone : grantTo address s m tx = grantTo address s' m tx := by
        rw [grantTo, grantTo, h tx List.mem_cons_self]
      rw [List.foldl_cons, List.foldl_cons, hone, ih fun t ht => h t (List.mem_cons_of_mem _ ht)]

/-- A swap in place re-judges nothing that is already folded. -/
lemma Derived.swap {hist : List Tx} {l : Ledger} (h : Derived hist l) {next : Schedule}
    (hext : next.Extends l.sched l.lastBlock) : Derived hist { l with sched := next } where
  seenFrom := h.seenFrom
  lastBlock := h.lastBlock
  paidUntil := by
    show l.paidUntil = (window hist 0 l.lastBlock).foldl (grantTo l.address next) ∅
    rw [h.paidUntil]
    exact (foldl_grantTo_congr (fun tx htx =>
      credit_extends hext (mem_window.mp htx).2.2 l.address) ∅).symm
  seen := h.seen

namespace Engine

/-- The loop of a rebuild only looks at the records in range. -/
lemma foldl_rebuildTx_filter (address : String) (sched : Schedule) (height : Int) (txs : List Tx)
    (r : Rebuild) :
    (txs.filter fun tx => 0 < tx.height ∧ tx.height ≤ height).foldl
        (rebuildTx address sched height) r =
      txs.foldl (rebuildTx address sched height) r := by
  induction txs generalizing r with
  | nil => rfl
  | cons tx txs ih =>
      by_cases he : 0 < tx.height ∧ tx.height ≤ height
      · rw [List.filter_cons_of_pos (by simpa using he), List.foldl_cons, List.foldl_cons, ih]
      · have hskip : rebuildTx address sched height r tx = r := if_pos (by omega)
        rw [List.filter_cons_of_neg (by simpa using he), ih, List.foldl_cons, hskip]

/-- Over distinct txs in range a rebuild stacks every one, and remembers the
ones near the new cursor. -/
lemma foldl_rebuildTx (address : String) (sched : Schedule) {height : Int} {txs : List Tx}
    {r : Rebuild} (hrange : ∀ tx ∈ txs, 0 < tx.height ∧ tx.height ≤ height)
    (hfresh : ∀ tx ∈ txs, tx.txID ∉ r.all)
    (hdist : txs.Pairwise fun tx tx' => tx.txID ≠ tx'.txID) :
    (txs.foldl (rebuildTx address sched height) r).fresh =
        txs.foldl (grantTo address sched) r.fresh ∧
      (txs.foldl (rebuildTx address sched height) r).freshSeen =
        (txs.filter fun tx => height - overlapBlocks < tx.height).foldl record r.freshSeen := by
  induction txs generalizing r with
  | nil => exact ⟨rfl, rfl⟩
  | cons tx txs ih =>
      obtain ⟨hne, hdist'⟩ := List.pairwise_cons.mp hdist
      have hr := hrange tx List.mem_cons_self
      have hnew := hfresh tx List.mem_cons_self
      have hstep : rebuildTx address sched height r tx =
          { fresh := grantTo address sched r.fresh tx
            freshSeen := if height - overlapBlocks < tx.height then record r.freshSeen tx
              else r.freshSeen
            all := tx.txID :: r.all
            n := r.n + 1 } := by
        rw [rebuildTx, if_neg (by rintro (h | h | h) <;> [omega; omega; exact hnew h.2]), grant_eq,
          grantTo, record]
        cases credit tx address sched <;> by_cases hn : height - overlapBlocks < tx.height <;>
          by_cases hid : tx.txID = "" <;> simp [hn, hid]
      have hfresh' : ∀ t ∈ txs, t.txID ∉ (rebuildTx address sched height r tx).all := by
        intro t ht hmem
        rw [hstep] at hmem
        rcases List.mem_cons.mp hmem with he | he
        · exact hne t ht he.symm
        · exact hfresh t (List.mem_cons_of_mem _ ht) he
      obtain ⟨hmap, hseen⟩ := ih (fun t ht => hrange t (List.mem_cons_of_mem _ ht)) hfresh' hdist'
      rw [List.foldl_cons, hmap, hseen, hstep, List.filter_cons]
      by_cases hn : height - overlapBlocks < tx.height <;> simp [hn]

/-- A successful rebuild from a complete source derives the state at the
height it read. -/
lemma rebuild_derived {hist : List Tx} (hh : History hist) {e : Engine} {src : TxSource}
    {sched : Schedule} (hsrc : Complete hist e.address src) {fresh : PaidMap}
    {freshSeen : SeenMap} {height : Int} {n : Nat}
    (h : e.rebuild src sched = .ok (fresh, freshSeen, height, n)) :
    Derived hist
      { e.toLedger with
        sched := sched, paidUntil := fresh, seen := freshSeen, seenFrom := 0,
        lastBlock := height } := by
  obtain ⟨hb, hpos, -, txs, ha, rfl, rfl⟩ := rebuild_eq_ok h
  have hcomplete := hsrc height 0 txs hb ha le_rfl
  have hfresh : ∀ tx ∈ window hist 0 height, tx.txID ∉ (⟨∅, ∅, [], 0⟩ : Rebuild).all :=
    fun _ _ => List.not_mem_nil
  obtain ⟨hmap, hseen⟩ := foldl_rebuildTx e.address sched
    (fun tx htx => (mem_window.mp htx).2) hfresh (hh.pairwise_window 0 height)
  rw [← hcomplete, foldl_rebuildTx_filter, hcomplete] at hmap hseen
  have hnear : (window hist 0 height).filter (fun tx => height - overlapBlocks < tx.height) =
      window hist (height - overlapBlocks) height := by
    rw [window, window, List.filter_filter]
    refine List.filter_congr fun tx htx => ?_
    have := hh.confirmed tx htx
    simp [this]
  rw [hnear] at hseen
  refine ⟨rfl, hpos.le, hmap, fun id h₀ => ?_⟩
  show (txs.foldl (rebuildTx e.address sched height) ⟨∅, ∅, [], 0⟩).freshSeen[id]? = some h₀ ↔ _
  rw [hseen, getElem?_foldl_record (hh.pairwise_window _ _)
    fun tx htx => hh.named tx (mem_window.mp htx).1]
  simp

/-- `applyPending` keeps the state derived, and an installed schedule is the
one it is derived under. -/
lemma applyPending_derived {hist : List Tx} (hh : History hist) {e : Engine}
    (h : Derived hist e.toLedger) {src : TxSource} (hsrc : Complete hist e.address src)
    (arrived : Option Schedule) :
    Derived hist (e.applyPending src arrived).1.toLedger ∧
      (e.applyPending src arrived).1.address = e.address ∧
      ((e.applyPending src arrived).2.Installed →
        e.pending = some (e.applyPending src arrived).1.sched) := by
  cases hp : e.pending with
  | none =>
      unfold applyPending
      rw [hp]
      exact ⟨h, rfl, False.elim⟩
  | some next =>
      rcases e.applyPending_cases src arrived hp with
        ⟨rfl, hr⟩ | ⟨-, hr⟩ | ⟨hext, hr⟩ | ⟨-, err, -, hr⟩ |
          ⟨-, fresh, freshSeen, height, n, hreb, hr⟩
      · rw [hr]
        exact ⟨h, rfl, fun _ => rfl⟩
      · rw [hr]
        exact ⟨h, rfl, False.elim⟩
      · rw [hr]
        exact ⟨h.swap hext, rfl, fun _ => rfl⟩
      · rw [hr]
        exact ⟨h, rfl, False.elim⟩
      · rw [hr]
        exact ⟨rebuild_derived hh hsrc hreb, rfl, fun _ => rfl⟩

/-! ### Runs of the engine -/

/-- The steps of `Run` that touch the derived state, and `Reprice`. -/
inductive Event
  | scan (p : Poll)
  | reprice (s : Schedule)
  | applyPending (src : TxSource) (arrived : Option Schedule)

/-- The engine after an event. -/
def event (e : Engine) : Event → Engine
  | .scan p => e.poll p
  | .reprice s => e.reprice s
  | .applyPending src arrived => (e.applyPending src arrived).1

/-- The engine after a run. -/
def events (e : Engine) (evs : List Event) : Engine := evs.foldl event e

/-- The chain's answers to a step are complete. -/
def Event.Complete (hist : List Tx) (address : String) : Event → Prop
  | .scan p => CumulusVpn.Complete hist address p.src
  | .reprice _ => True
  | .applyPending src _ => CumulusVpn.Complete hist address src

/-- One step keeps the state derived. -/
lemma event_derived {hist : List Tx} (hh : History hist) {e : Engine}
    (h : Derived hist e.toLedger) {ev : Event} (hev : ev.Complete hist e.address) :
    Derived hist (e.event ev).toLedger ∧ (e.event ev).address = e.address := by
  cases ev with
  | scan p =>
      show Derived hist (e.poll p).toLedger ∧ (e.poll p).toLedger.address = e.address
      rw [poll_toLedger]
      exact ⟨h.poll hh hev, e.toLedger.poll_address p⟩
  | reprice s => exact ⟨h, rfl⟩
  | applyPending src arrived =>
      obtain ⟨hd, haddr, -⟩ := applyPending_derived hh h hev arrived
      exact ⟨hd, haddr⟩

/-- **Every state reached from a complete history is derived from it.** -/
theorem events_derived {hist : List Tx} (hh : History hist) {e : Engine}
    (h : Derived hist e.toLedger) {evs : List Event}
    (hevs : ∀ ev ∈ evs, ev.Complete hist e.address) :
    Derived hist (e.events evs).toLedger ∧ (e.events evs).address = e.address := by
  induction evs generalizing e with
  | nil => exact ⟨h, rfl⟩
  | cons ev evs ih =>
      obtain ⟨hd, haddr⟩ := event_derived hh h (hevs ev List.mem_cons_self)
      obtain ⟨hd', haddr'⟩ := ih hd fun ev' hev' => haddr ▸ hevs ev' (List.mem_cons_of_mem _ hev')
      exact ⟨hd', haddr'.trans haddr⟩

/-- With a derived state only an edited prefix is refused. -/
lemma applyPending_refused_iff {hist : List Tx} {e : Engine} (h : Derived hist e.toLedger)
    (src : TxSource) (arrived : Option Schedule) {next : Schedule} (hp : e.pending = some next) :
    (e.applyPending src arrived).2 = .refused ↔ ¬ next.HasPrefix e.sched := by
  rcases e.applyPending_cases src arrived hp with
    ⟨rfl, hr⟩ | ⟨hpre, hr⟩ | ⟨hext, hr⟩ | ⟨hpre, err, -, hr⟩ | ⟨hpre, _, _, _, _, -, hr⟩
  · rw [hr]
    exact iff_of_false (by simp) (not_not_intro (Schedule.Extends.refl _ _))
  · rw [hr]
    exact iff_of_true rfl hpre
  · have hL := h.lastBlock
    have hpre : next.HasPrefix e.sched := hext.mono (by omega)
    rw [hr]
    exact iff_of_false (by simp) (not_not_intro hpre)
  · rw [hr]
    exact iff_of_false (by simp) (not_not_intro hpre)
  · rw [hr]
    exact iff_of_false (by simp) (not_not_intro hpre)

/-- The two engines fold the same txs into the same map in every later run. -/
def SameGrants (e e' : Engine) : Prop :=
  ∀ ps, (e.polls ps).toLedger = (e'.polls ps).toLedger ∧ e.foldedOver ps = e'.foldedOver ps

lemma sameGrants_of_toLedger {e e' : Engine} (h : e.toLedger = e'.toLedger) : e.SameGrants e' :=
  fun ps => ⟨by rw [polls_toLedger, polls_toLedger, h], by rw [h]⟩

end Engine

/-- An explorer that neither lags nor loses a tx, at height `height`. -/
def completeSource (hist : List Tx) (height : Int) : TxSource where
  blockCount := .ok height
  addressTxs := fun _ after => .ok (window hist after height)

lemma complete_completeSource {hist : List Tx} (hh : History hist) (address : String)
    (height : Int) : Complete hist address (completeSource hist height) := by
  rintro H after txs hb ha hafter
  obtain rfl : height = H := by simpa [completeSource] using hb
  obtain rfl : window hist after height = txs := by simpa [completeSource] using ha
  rw [window, List.filter_filter]
  refine List.filter_congr fun tx htx => ?_
  have := hh.confirmed tx htx
  simp [this]

/-- A backfill from a complete source reaches its height. -/
lemma backfill_lastBlock (hist : List Tx) (address : String) (sched : Schedule) {height : Int}
    (h : 0 ≤ height) :
    ((Engine.new address sched).polls [⟨completeSource hist height, true⟩]).lastBlock =
      height := by
  rw [Engine.polls_toLedger]
  show (Ledger.poll _ _).lastBlock = height
  rcases h.lt_or_eq with hpos | rfl
  · have hread : (Engine.new address sched).toLedger.reads (completeSource hist height) true =
        some (height, window hist 0 height) := by
      have hn : ¬ (height ≤ 0 ∨ height < 0 ∨ (height = 0 ∧ ¬ true = true)) := by simp; omega
      show (if height ≤ 0 ∨ height < 0 ∨ (height = 0 ∧ ¬ true = true) then none
        else some (height, window hist 0 height)) = _
      rw [if_neg hn]
    simp [Ledger.poll, hread]
  · rfl

/-- **A hot reprice is a restart under the new schedule, and a failed one
changes nothing.**  In every state reached from a complete history: a pending
schedule is refused exactly when it edits the running one; once installed, by
either branch, the engine grants what a fresh engine under the new schedule
grants after any backfill to the same cursor, now and after every later run
of scans, and such a backfill exists; and a schedule that is not installed
leaves the derived state alone, pending again after a failed rebuild unless a
newer one arrived. -/
theorem applyPending_spec {hist : List Tx} (hh : History hist) (address : String)
    (sched₀ : Schedule) (evs : List Engine.Event) (hevs : ∀ ev ∈ evs, ev.Complete hist address)
    (src : TxSource) (arrived : Option Schedule) (next : Schedule)
    (hp : ((Engine.new address sched₀).events evs).pending = some next) :
    let e := (Engine.new address sched₀).events evs
    let e' := (e.applyPending src arrived).1
    let outcome := (e.applyPending src arrived).2
    (outcome = .refused ↔ ¬ next.HasPrefix e.sched) ∧
    (outcome.Installed → Complete hist address src → e'.sched = next ∧
      (∃ ps : List Poll, (∀ p ∈ ps, Complete hist address p.src) ∧
        ((Engine.new address next).polls ps).lastBlock = e'.lastBlock) ∧
      ∀ ps : List Poll, (∀ p ∈ ps, Complete hist address p.src) →
        ((Engine.new address next).polls ps).lastBlock = e'.lastBlock →
        e'.SameGrants ((Engine.new address next).polls ps)) ∧
    (¬ outcome.Installed → e'.toLedger = e.toLedger ∧
      ∀ err, outcome = .failed err → e'.pending = arrived.or (some next)) := by
  intro e e' outcome
  obtain ⟨hd, haddr⟩ := Engine.events_derived hh (derived_new hh address sched₀) hevs
  refine ⟨Engine.applyPending_refused_iff hd src arrived hp, fun hin hsrc => ?_,
    Engine.applyPending_of_not_installed e src arrived hp⟩
  obtain ⟨hd', haddr', hsched⟩ :=
    Engine.applyPending_derived hh hd (by rw [haddr]; exact hsrc) arrived
  have hnext : e'.sched = next := by
    have := hsched hin
    rw [hp] at this
    exact (Option.some.inj this).symm
  refine ⟨hnext, ⟨[⟨completeSource hist e'.lastBlock, true⟩], ?_, ?_⟩, fun ps hps hL => ?_⟩
  · intro p hmem
    obtain rfl := List.mem_singleton.mp hmem
    exact complete_completeSource hh address _
  · exact backfill_lastBlock hist address next hd'.lastBlock
  · refine Engine.sameGrants_of_toLedger ?_
    have hfresh : Derived hist ((Engine.new address next).polls ps).toLedger ∧
        ((Engine.new address next).polls ps).address = address ∧
        ((Engine.new address next).polls ps).sched = next := by
      have hevs' : ∀ ev ∈ ps.map Engine.Event.scan, ev.Complete hist address := by
        intro ev hev
        obtain ⟨p, hmem, rfl⟩ := List.mem_map.mp hev
        exact hps p hmem
      have hrun : (Engine.new address next).polls ps =
          (Engine.new address next).events (ps.map Engine.Event.scan) := by
        rw [Engine.events, List.foldl_map]
        rfl
      obtain ⟨hf, hfa⟩ := Engine.events_derived hh (derived_new hh address next) hevs'
      rw [hrun]
      refine ⟨hf, hfa, ?_⟩
      rw [← hrun, Engine.polls_toLedger, Ledger.polls_sched]
      rfl
    exact hd'.ext hfresh.1 (haddr'.trans (haddr.trans hfresh.2.1.symm))
      (hnext.trans hfresh.2.2.symm) hL.symm

/-! ### A reprice that reaches the node late -/

/-- `20@0,12@120`. -/
def droppedPrice : Schedule where
  entries := [⟨0, 20⟩, ⟨120, 12⟩]
  nonempty := by simp
  startsAtZero := rfl
  increasing := by decide
  positive := by decide

/-- Two months' payments, at heights 100 and 130. -/
def lateHistory : List Tx :=
  [⟨"a", 100, 0, 20, ["CVPN1:abc"]⟩, ⟨"b", 130, 0, 20, ["CVPN1:abc"]⟩]

lemma history_lateHistory : History lateHistory where
  confirmed := by decide
  named := by decide
  oldestFirst := by decide
  distinct := by decide

/-- The drop reaches a node at height 150: it rebuilds, like a restart. -/
theorem applyPending_spec_lateHistory :
    let e := (Engine.new "t1pay" (Schedule.flat 20 twenty_pos)).events
      [.scan ⟨completeSource lateHistory 150, true⟩, .reprice droppedPrice]
    let r := e.applyPending (completeSource lateHistory 151) none
    r.2 = .rebuilt 2 ∧
      r.1.SameGrants ((Engine.new "t1pay" droppedPrice).polls
        [⟨completeSource lateHistory 151, true⟩]) := by
  have hevs : ∀ ev ∈ ([.scan ⟨completeSource lateHistory 150, true⟩, .reprice droppedPrice] :
      List Engine.Event), ev.Complete lateHistory "t1pay" := by
    intro ev hev
    rcases List.mem_cons.mp hev with rfl | hev
    · exact complete_completeSource history_lateHistory _ _
    · obtain rfl := List.mem_singleton.mp hev
      trivial
  have hspec := applyPending_spec history_lateHistory "t1pay" (Schedule.flat 20 twenty_pos) _
    hevs (completeSource lateHistory 151) none droppedPrice rfl
  have hout : (Engine.applyPending ((Engine.new "t1pay" (Schedule.flat 20 twenty_pos)).events
      [.scan ⟨completeSource lateHistory 150, true⟩, .reprice droppedPrice])
      (completeSource lateHistory 151) none).2 = .rebuilt 2 := by decide +kernel
  refine ⟨hout, ?_⟩
  refine (hspec.2.1 (by rw [hout]; trivial) (complete_completeSource history_lateHistory _ _)).2.2 _
    (fun p hp => ?_) ?_
  · obtain rfl := List.mem_singleton.mp hp
    exact complete_completeSource history_lateHistory _ _
  · decide +kernel

end CumulusVpn
