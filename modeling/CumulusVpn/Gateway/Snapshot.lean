/-
Snapshots of the engine (`gateway/internal/entitle/snapshot.go`) and what a
restart changes.

* `Engine.snapshot`, `Engine.save`, `Engine.load`: the file and its checks;
* `reaps`: whether the idle-peer reaper evicts a peer, given its tier;
* `Lived`: the states of a gateway, over scans, reprices and restarts;
* `load_snapshot`: a saved snapshot loads under every extending schedule, when
  the schedule in it can be read back;
* `Ledger.withPaid`, `foldedOver_withPaid`: two engines that differ in the map
  only fold the same txs;
* `Survives`: what a snapshot keeps of a `paid_until`;
* `standing`, `at_poll_standing`: an engine that has lost its cursor reads again
  what was behind it;
* `restart_unobservable_iff`: **a restart is unobservable exactly when the
  schedule is read back, if anything was scanned under it, and every key's
  `paid_until` survives the snapshot**;
* `not_restart_unobservable`: a lapsed subscriber loses the address.
-/
import CumulusVpn.Gateway.Convergence
import CumulusVpn.Gateway.PaymentCode
import CumulusVpn.Gateway.PriceFloats
import CumulusVpn.Gateway.Reprice

namespace CumulusVpn

open Std (ExtTreeMap)

/-- The version that is written and read. -/
def snapshotVersion : Int := 1

/-- The persisted form of the derived state.  `paidUntil` holds Unix seconds,
and `seen` is missing in files from before the overlap existed. -/
structure Snapshot where
  version : Int
  address : String
  /-- the flat price of a single-entry schedule, else 0 -/
  priceFlux : ℚ
  priceSchedule : String
  lastBlock : Int
  paidUntil : ExtTreeMap String Int compare
  seen : Option SeenMap
  seenFrom : Int

/-- The reasons for which `Load` discards a file. -/
inductive LoadError
  /-- the file cannot be read or parsed -/
  | unreadable (err : String)
  /-- snapshot version, want `snapshotVersion` -/
  | version (v : Int)
  /-- snapshot is for another address -/
  | address (a : String)
  /-- snapshot has negative last_block -/
  | lastBlock (n : Int)
  /-- snapshot schedule -/
  | schedule (err : PriceError)
  /-- snapshot has no price -/
  | noPrice
  /-- snapshot priced under another schedule -/
  | pricedUnder (stored : Schedule)

namespace Engine

/-- What `Save` writes at `now`: expired codes are dropped. -/
def snapshot (e : Engine) (now : Int) : Snapshot where
  version := snapshotVersion
  address := e.address
  priceFlux := if e.sched.len = 1 then e.sched.latest else 0
  priceSchedule := e.sched.printed
  lastBlock := e.lastBlock
  paidUntil := e.paidUntil.filterMap fun _ pu => if now < pu then some (pu / 10 ^ 9) else none
  seen := some e.seen
  seenFrom := e.seenFrom

/-- `Save`: the engine after it, and the file it leaves, given the file
before and the outcome of the write. -/
def save (e : Engine) (now : Int) (file : Option Snapshot) (write : Except String Unit) :
    Engine × Option Snapshot :=
  if e.statePath = "" then (e, file)
  else match write with
    | .error _ => (e, file)
    | .ok () => ({ e with dirty := false, lastSaved := now }, some (e.snapshot now))

/-- The schedule a snapshot was derived under: files from before schedules
carry a flat price only. -/
def storedSchedule (s : Snapshot) : Except LoadError Schedule :=
  if s.priceSchedule ≠ "" then
    match parseFloats s.priceSchedule with
    | .error err => .error (.schedule err)
    | .ok stored => .ok stored
  else if h : 0 < s.priceFlux then .ok (Schedule.flat s.priceFlux h)
  else .error .noPrice

/-- `Load`: whether the file was restored, or why not. -/
def load (e : Engine) (file : Except String (Option Snapshot)) :
    Engine × Except LoadError Bool :=
  if e.statePath = "" then (e, .ok false)
  else match file with
    | .error err => (e, .error (.unreadable err))
    | .ok none => (e, .ok false)
    | .ok (some s) =>
        if s.version ≠ snapshotVersion then (e, .error (.version s.version))
        else if s.address ≠ e.address then (e, .error (.address s.address))
        else if s.lastBlock < 0 then (e, .error (.lastBlock s.lastBlock))
        else match storedSchedule s with
          | .error err => (e, .error err)
          | .ok stored =>
              if ¬ e.sched.Extends stored s.lastBlock then (e, .error (.pricedUnder stored))
              else
                let (seen, seenFrom) := match s.seen with
                  | some seen => (seen, s.seenFrom)
                  | none => (∅, s.lastBlock)
                ({ e with
                    paidUntil := s.paidUntil.map fun _ unix => unix * 10 ^ 9
                    lastBlock := s.lastBlock
                    seen := seen
                    seenFrom := seenFrom }, .ok true)

/-- The process that starts after a save at `now`, configured with
`sched`. -/
def restart (e : Engine) (now : Int) (sched : Schedule) : Engine :=
  (load { Engine.new e.address sched with statePath := e.statePath }
    (.ok (some (e.snapshot now)))).1

end Engine

/-! ### The reaper -/

/-- `reapIdlePeers` of `gateway/cmd/gateway/main.go`: whether a peer last seen
at `seen` is evicted at `now`, given the answer of `Tier` about its key. -/
def reaps (tier : Bool × Int) (seen now : Int) : Bool :=
  if tier.1 then false
  else if tier.2 ≠ zeroTime ∧ now - tier.2 < premiumGrace day then false
  else
    let cutoff := if tier.2 ≠ zeroTime then premiumGrace day else freeIdle day
    ¬ (seen = zeroTime ∨ now - seen < cutoff)

/-! ### The states of a gateway -/

/-- The schedules an event hands over are ones the parser builds. -/
def Engine.Event.Floats : Engine.Event → Prop
  | .scan _ => True
  | .reprice s => s.Floats
  | .applyPending _ arrived => ∀ s ∈ arrived, s.Floats

/-- The states a gateway with a state path can be in. -/
inductive Lived (address : String) : Engine → Prop
  | start {sched : Schedule} {path : String} : sched.Floats → path ≠ "" →
      Lived address { Engine.new address sched with statePath := path }
  | event {e : Engine} {ev : Engine.Event} : Lived address e → ev.Floats →
      Lived address (e.event ev)
  | restart {e : Engine} {now : Int} {sched : Schedule} : Lived address e → sched.Floats →
      Lived address (e.restart now sched)

/-- What saving and loading rely on: until a scan has moved the cursor there
is nothing to save. -/
structure Engine.Wellformed (e : Engine) : Prop where
  statePath : e.statePath ≠ ""
  sched : e.sched.Floats
  pending : ∀ s ∈ e.pending, s.Floats
  lastBlock : 0 ≤ e.lastBlock
  blank : e.lastBlock = 0 → e.paidUntil = ∅ ∧ e.seen = ∅ ∧ e.seenFrom = 0

namespace Engine

/-! ### A saved snapshot loads -/

lemma printed_ne_empty (s : Schedule) : s.printed ≠ "" := fun hempty => by
  obtain ⟨e, entries, hentries⟩ := List.exists_cons_of_ne_nil s.nonempty
  have hchars := congrArg String.toList hempty
  rw [Schedule.printed, String.toList_ofList, hentries] at hchars
  cases entries <;> simp [List.intercalate, floatEntryText] at hchars

@[simp] lemma snapshot_version (e : Engine) (now : Int) :
    (e.snapshot now).version = snapshotVersion := rfl

@[simp] lemma snapshot_address (e : Engine) (now : Int) :
    (e.snapshot now).address = e.address := rfl

@[simp] lemma snapshot_lastBlock (e : Engine) (now : Int) :
    (e.snapshot now).lastBlock = e.lastBlock := rfl

lemma storedSchedule_snapshot {e : Engine} (he : e.sched.Floats) (hprintable : e.sched.Printable)
    (now : Int) : storedSchedule (e.snapshot now) = .ok e.sched := by
  have htext : (e.snapshot now).priceSchedule = e.sched.printed := rfl
  rw [storedSchedule, htext, if_pos (printed_ne_empty _),
    Schedule.parseFloats_printed he hprintable]

lemma storedSchedule_snapshot_error {e : Engine} (he : e.sched.Floats)
    (hnot : ¬ e.sched.Printable) (now : Int) :
    ∃ err, storedSchedule (e.snapshot now) = .error err := by
  obtain ⟨err, herr⟩ := Schedule.parseFloats_printed_error he hnot
  have htext : (e.snapshot now).priceSchedule = e.sched.printed := rfl
  rw [storedSchedule, htext, if_pos (printed_ne_empty _), herr]
  exact ⟨_, rfl⟩

/-- The engine `f` with the derived state of the snapshot of `e`. -/
def restored (e f : Engine) (now : Int) : Engine :=
  { f with
    paidUntil := (e.snapshot now).paidUntil.map fun _ unix => unix * 10 ^ 9
    lastBlock := e.lastBlock
    seen := e.seen
    seenFrom := e.seenFrom }

/-- **A snapshot loads exactly under the schedules that extend the saved
one**, when that can be read back. -/
lemma load_snapshot {e f : Engine} (he : e.Wellformed) (hprintable : e.sched.Printable)
    (hpath : f.statePath ≠ "") (haddr : e.address = f.address) (now : Int) :
    f.load (.ok (some (e.snapshot now))) =
      if f.sched.Extends e.sched e.lastBlock then (e.restored f now, .ok true)
      else (f, .error (.pricedUnder e.sched)) := by
  unfold load
  rw [if_neg hpath]
  simp only [storedSchedule_snapshot he.sched hprintable]
  rw [snapshot_version, snapshot_address, snapshot_lastBlock, if_neg (not_not_intro rfl),
    if_neg (not_not_intro haddr), if_neg (Int.not_lt.mpr he.lastBlock)]
  by_cases hext : f.sched.Extends e.sched e.lastBlock
  · rw [if_neg (not_not_intro hext), if_pos hext]
    rfl
  · rw [if_pos hext, if_neg hext]

/-- A snapshot of any other schedule is discarded. -/
lemma load_snapshot_error {e f : Engine} (he : e.Wellformed) (hnot : ¬ e.sched.Printable)
    (hpath : f.statePath ≠ "") (haddr : e.address = f.address) (now : Int) :
    ∃ err, f.load (.ok (some (e.snapshot now))) = (f, .error err) := by
  obtain ⟨err, herr⟩ := storedSchedule_snapshot_error he.sched hnot now
  refine ⟨err, ?_⟩
  unfold load
  rw [if_neg hpath]
  simp only [herr]
  rw [snapshot_version, snapshot_address, snapshot_lastBlock, if_neg (not_not_intro rfl),
    if_neg (not_not_intro haddr), if_neg (Int.not_lt.mpr he.lastBlock)]

/-- A restart restores the snapshot, or starts empty under an edited schedule
or after one that it cannot read. -/
lemma restart_eq {e : Engine} (he : e.Wellformed) (now : Int) (sched : Schedule) :
    e.restart now sched =
      if e.sched.Printable ∧ sched.Extends e.sched e.lastBlock then
        e.restored { Engine.new e.address sched with statePath := e.statePath } now
      else { Engine.new e.address sched with statePath := e.statePath } := by
  by_cases hprintable : e.sched.Printable
  · have hload := load_snapshot
      (f := { Engine.new e.address sched with statePath := e.statePath }) he hprintable
      he.statePath rfl now
    rw [restart, hload]
    simp only [hprintable, true_and]
    exact apply_ite Prod.fst _ _ _
  · obtain ⟨err, hload⟩ := load_snapshot_error
      (f := { Engine.new e.address sched with statePath := e.statePath }) he hprintable
      he.statePath rfl now
    rw [restart, hload, if_neg fun h => hprintable h.1]

/-! ### Every state of a gateway saves and loads -/

/-- A scan that leaves the cursor at zero has read nothing. -/
lemma Wellformed.blank_poll {e : Engine} (h : e.Wellformed) (p : Poll)
    (hzero : (e.toLedger.poll p).lastBlock = 0) :
    (e.toLedger.poll p).paidUntil = ∅ ∧ (e.toLedger.poll p).seen = ∅ ∧
      (e.toLedger.poll p).seenFrom = 0 := by
  rw [Ledger.poll] at hzero ⊢
  cases hreads : e.toLedger.reads p.src p.force with
  | none =>
      rw [hreads] at hzero
      exact h.blank hzero
  | some r =>
      rw [hreads] at hzero
      have hheight : r.1 = 0 := hzero
      have hpos := (Ledger.reads_eq_some hreads).1
      omega

/-- One step keeps what saving relies on. -/
lemma Wellformed.event {e : Engine} (h : e.Wellformed) {ev : Event} (hev : ev.Floats) :
    (e.event ev).Wellformed := by
  cases ev with
  | scan p =>
      obtain ⟨hpending, hpath⟩ := e.scan_frame p.src p.force
      have hledger := e.poll_toLedger p
      have hsched : (e.poll p).sched = e.sched := by
        rw [hledger]
        exact e.toLedger.poll_sched p
      have hblock : e.lastBlock ≤ (e.poll p).lastBlock := by
        rw [hledger]
        exact e.toLedger.lastBlock_le_poll p
      refine ⟨hpath.trans_ne h.statePath, hsched ▸ h.sched,
        fun s hs => h.pending s (hpending ▸ hs), h.lastBlock.trans hblock, fun hzero => ?_⟩
      show (e.poll p).paidUntil = ∅ ∧ (e.poll p).seen = ∅ ∧ (e.poll p).seenFrom = 0
      have hzero : (e.poll p).lastBlock = 0 := hzero
      rw [hledger] at hzero ⊢
      exact h.blank_poll p hzero
  | reprice s =>
      refine ⟨h.statePath, h.sched, fun t ht => ?_, h.lastBlock, h.blank⟩
      obtain rfl : s = t := by simpa [Engine.event, Engine.reprice] using ht
      exact hev
  | applyPending src arrived =>
      show (e.applyPending src arrived).1.Wellformed
      cases hp : e.pending with
      | none =>
          unfold Engine.applyPending
          rw [hp]
          exact ⟨h.statePath, h.sched, hev, h.lastBlock, h.blank⟩
      | some next =>
          have hnext : next.Floats := h.pending next hp
          rcases e.applyPending_cases src arrived hp with
            ⟨-, hr⟩ | ⟨-, hr⟩ | ⟨-, hr⟩ | ⟨-, err, -, hr⟩ | ⟨-, fresh, seen, height, n, hreb, hr⟩
          · rw [hr]
            exact ⟨h.statePath, h.sched, hev, h.lastBlock, h.blank⟩
          · rw [hr]
            exact ⟨h.statePath, h.sched, hev, h.lastBlock, h.blank⟩
          · rw [hr]
            exact ⟨h.statePath, hnext, hev, h.lastBlock, h.blank⟩
          · rw [hr]
            refine ⟨h.statePath, h.sched, fun s hs => ?_, h.lastBlock, h.blank⟩
            cases harr : arrived with
            | none =>
                obtain rfl : next = s := by simpa [harr] using hs
                exact hnext
            | some t =>
                obtain rfl : t = s := by simpa [harr] using hs
                exact hev t harr
          · have hpos := (rebuild_eq_ok hreb).2.1
            rw [hr]
            exact ⟨h.statePath, hnext, hev, hpos.le, fun hzero => absurd hzero hpos.ne'⟩

/-- What a snapshot of an empty map gives back is empty. -/
lemma restored_blank {e : Engine} (f : Engine) (now : Int) (hempty : e.paidUntil = ∅) :
    (e.restored f now).paidUntil = ∅ := by
  show (e.paidUntil.filterMap fun _ pu => if now < pu then some (pu / 10 ^ 9) else none).map
    (fun _ unix => unix * 10 ^ 9) = (∅ : PaidMap)
  rw [hempty]
  refine ExtTreeMap.ext_getElem? fun code => ?_
  simp [ExtTreeMap.getElem?_map]

lemma Wellformed.restart {e : Engine} (h : e.Wellformed) (now : Int) {sched : Schedule}
    (hs : sched.Floats) : (e.restart now sched).Wellformed := by
  rw [restart_eq h]
  split
  · refine ⟨h.statePath, hs, nofun, h.lastBlock, fun hzero => ?_⟩
    obtain ⟨hpaid, hseen, hfrom⟩ := h.blank hzero
    exact ⟨restored_blank _ _ hpaid, hseen, hfrom⟩
  · exact ⟨h.statePath, hs, nofun, le_rfl, fun _ => ⟨rfl, rfl, rfl⟩⟩

/-- **Every state of a gateway can be saved and loaded.** -/
theorem wellformed_of_lived {address : String} {e : Engine} (h : Lived address e) :
    e.Wellformed := by
  induction h with
  | start hs hpath => exact ⟨hpath, hs, nofun, le_rfl, fun _ => ⟨rfl, rfl, rfl⟩⟩
  | event _ hev ih => exact ih.event hev
  | restart _ hs ih => exact ih.restart _ hs

end Engine

/-! ### Engines that differ in the map only -/

namespace Ledger

/-- The derived state with another map. -/
def withPaid (l : Ledger) (m : PaidMap) : Ledger := { l with paidUntil := m }

lemma apply_withPaid (l : Ledger) (m : PaidMap) (upTo : Int) (tx : Tx) :
    ∃ m', (l.withPaid m).apply upTo tx = (l.apply upTo tx).withPaid m' := by
  by_cases hs : l.Skips upTo tx
  · have hs' : (l.withPaid m).Skips upTo tx := hs
    exact ⟨m, by rw [apply, apply, if_pos hs, if_pos hs']⟩
  · have hs' : ¬ (l.withPaid m).Skips upTo tx := hs
    exact ⟨grantTo l.address l.sched m tx, by rw [apply, apply, if_neg hs, if_neg hs']; rfl⟩

lemma applyAll_withPaid (l : Ledger) (m : PaidMap) (upTo : Int) (txs : List Tx) :
    (∃ m', (l.withPaid m).applyAll upTo txs = (l.applyAll upTo txs).withPaid m') ∧
      (l.withPaid m).folded upTo txs = l.folded upTo txs := by
  induction txs generalizing l m with
  | nil => exact ⟨⟨m, rfl⟩, rfl⟩
  | cons tx txs ih =>
      obtain ⟨m₁, h₁⟩ := l.apply_withPaid m upTo tx
      obtain ⟨⟨m₂, h₂⟩, hf⟩ := ih (l.apply upTo tx) m₁
      refine ⟨⟨m₂, by rw [applyAll_cons, applyAll_cons, h₁, h₂]⟩, ?_⟩
      rw [folded, folded, h₁, hf]
      rfl

lemma poll_withPaid (l : Ledger) (m : PaidMap) (p : Poll) :
    (∃ m', (l.withPaid m).poll p = (l.poll p).withPaid m') ∧
      (l.withPaid m).foldedIn p = l.foldedIn p := by
  have hreads : (l.withPaid m).reads p.src p.force = l.reads p.src p.force := rfl
  unfold poll foldedIn
  rw [hreads]
  cases l.reads p.src p.force with
  | none => exact ⟨⟨m, rfl⟩, rfl⟩
  | some r =>
      obtain ⟨⟨m', h⟩, hf⟩ := l.applyAll_withPaid m r.1 r.2
      refine ⟨⟨m', ?_⟩, hf⟩
      show ((l.withPaid m).applyAll r.1 r.2).advance r.1 = _
      rw [h]
      rfl

/-- Two engines that differ in the map only fold the same txs. -/
lemma foldedOver_withPaid (l : Ledger) (m : PaidMap) (ps : List Poll) :
    (l.withPaid m).foldedOver ps = l.foldedOver ps := by
  induction ps generalizing l m with
  | nil => rfl
  | cons p ps ih =>
      obtain ⟨⟨m', h⟩, hf⟩ := l.poll_withPaid m p
      rw [foldedOver, foldedOver, hf, h, ih]

/-- So they agree on a code in every later run once they agree on it. -/
lemma at_polls_withPaid {l : Ledger} {m : PaidMap} {code : String}
    (h : m.at_ code = l.paidUntil.at_ code) (ps : List Poll) :
    (ps.foldl Ledger.poll (l.withPaid m)).paidUntil.at_ code =
      (ps.foldl Ledger.poll l).paidUntil.at_ code := by
  rw [paidUntil_polls, paidUntil_polls, foldedOver_withPaid, at_foldl_grantTo, at_foldl_grantTo]
  show (creditsTo code l.address l.sched _).foldl stackBy (m.at_ code) = _
  rw [h]

end Ledger

/-! ### What a snapshot keeps -/

/-- The `paid_until` of a code survives a snapshot taken at `now`: it is still
running and a whole second, or there is none. -/
def Survives (now pu : Int) : Prop :=
  if now < pu then pu % 10 ^ 9 = 0 else pu = zeroTime

instance (now pu : Int) : Decidable (Survives now pu) :=
  inferInstanceAs (Decidable (if now < pu then _ else _))

/-- The snapshot gives a code its `paid_until` back exactly when it
survives. -/
lemma at_restored_iff (e f : Engine) (now : Int) (code : String) :
    (e.restored f now).paidUntil.at_ code = e.paidUntil.at_ code ↔
      Survives now (e.paidUntil.at_ code) := by
  have hget : (e.restored f now).paidUntil[code]? =
      (e.paidUntil[code]?.bind fun pu => if now < pu then some (pu / 10 ^ 9) else none).map
        fun unix => unix * 10 ^ 9 := by
    show ((e.paidUntil.filterMap fun _ pu =>
      if now < pu then some (pu / 10 ^ 9) else none).map fun _ unix => unix * 10 ^ 9)[code]? = _
    rw [ExtTreeMap.getElem?_map, ExtTreeMap.getElem?_filterMap']
  rw [PaidMap.at_, PaidMap.at_, ExtTreeMap.getD_eq_getD_getElem?, ExtTreeMap.getD_eq_getD_getElem?,
    hget, Survives]
  cases e.paidUntil[code]? with
  | none =>
      refine iff_of_true rfl ?_
      split
      · decide
      · rfl
  | some pu =>
      by_cases hnow : now < pu
      · simp only [Option.bind_some, if_pos hnow, Option.map_some, Option.getD_some]
        omega
      · simp only [Option.bind_some, if_neg hnow, Option.map_none, Option.getD_none,
          Option.getD_some]
        exact eq_comm

/-! ### A lost cursor -/

/-- The price at the cursor, paid to the code: the slack of `ValidPayment`
makes up what it is short of a month. -/
def monthAt (sched : Schedule) (height time : Int) (code : String) : Tx where
  txID := "a"
  height := height
  time := time
  amountTo := sched.effective height - epsilon
  memos := [memoPrefix ++ code]

/-- A scan of a chain that has not grown since `tx` was mined at its tip. -/
def standing (tx : Tx) : Poll where
  src := ⟨.ok tx.height, fun _ _ => .ok [tx]⟩
  force := false

lemma credit_monthAt {sched : Schedule} {height time : Int} {code : String}
    (hcode : memoParse [memoPrefix ++ code] = .ok code) (address : String) :
    credit (monthAt sched height time code) address sched = some (code, 30) := by
  have hpos := sched.effective_pos height
  have hpaid : 30 * ((monthAt sched height time code).amountTo + epsilon) =
      30 * sched.effective height := by simp [monthAt]
  have hvalid : validPayment (monthAt sched height time code) address (sched.effective height) =
      some code := by
    have hpays : ¬ 30 * ((monthAt sched height time code).amountTo + epsilon) <
        sched.effective height := by
      rw [hpaid]
      linarith
    have hmemos : (monthAt sched height time code).memos = [memoPrefix ++ code] := rfl
    rw [validPayment, if_neg hpays, hmemos, hcode]
  have hdays : grantDays (monthAt sched height time code) (sched.effective height) = 30 := by
    rw [grantDays, hpaid, mul_div_assoc, div_self hpos.ne', mul_one]
    rfl
  have hheight : (monthAt sched height time code).height = height := rfl
  rw [credit, hheight, hvalid, Option.bind_some, hdays, if_neg (by decide)]

namespace Ledger

/-- Who has scanned the chain reads nothing. -/
lemma poll_standing {l : Ledger} {tx : Tx} (hcursor : l.lastBlock = tx.height) :
    l.poll (standing tx) = l := by
  have hreads : l.reads (standing tx).src (standing tx).force = none := by
    simp [reads, standing, hcursor]
  rw [poll, hreads]

/-- **Who has lost the cursor reads the payment.** -/
lemma at_poll_standing {address code : String} {sched : Schedule} {height time : Int}
    (hpos : 0 < height) (hcode : memoParse [memoPrefix ++ code] = .ok code) :
    ((Engine.new address sched).toLedger.poll
        (standing (monthAt sched height time code))).paidUntil.at_ code =
      stack zeroTime 30 time := by
  have hreads : (Engine.new address sched).toLedger.reads
      (standing (monthAt sched height time code)).src
      (standing (monthAt sched height time code)).force =
        some (height, [monthAt sched height time code]) := by
    show (if height ≤ 0 ∨ height < 0 ∨ (height = 0 ∧ ¬ false = true) then none
      else some (height, [monthAt sched height time code])) = _
    rw [if_neg (by omega)]
  have hfresh : ¬ (Engine.new address sched).toLedger.Skips height
      (monthAt sched height time code) := by
    have hseen : (Engine.new address sched).seen = ∅ := rfl
    have hheight : (monthAt sched height time code).height = height := rfl
    rw [Skips, hseen, hheight]
    simp [hpos]
  rw [poll, hreads]
  show (((Engine.new address sched).toLedger.apply height
    (monthAt sched height time code)).paidUntil).at_ code = _
  rw [apply, if_neg hfresh]
  show (grantTo address sched ∅ (monthAt sched height time code)).at_ code = _
  rw [grantTo, credit_monthAt hcode]
  show PaidMap.at_ ((∅ : PaidMap).insert code (stack (PaidMap.at_ ∅ code) 30 time)) code = _
  rw [PaidMap.at_insert, if_pos rfl, PaidMap.at_empty]

end Ledger

/-- A month is later than the time it is granted at. -/
lemma lt_stack_month {time : Int} (htime : zeroTime ≤ time) : time < stack zeroTime 30 time := by
  have hmonth : wrapInt64 (30 * day) = 30 * day := by decide
  have hbase : (if zeroTime < time then time else zeroTime) = time := by
    split <;> omega
  have hday : 0 < day := by decide
  have hcap : maxPrepaid = 720 * day := by decide
  rw [stack, hmonth, hbase, if_neg (by omega)]
  omega

/-! ### Codes that can be paid for -/

section Codes

open PaymentCodes

variable {sha256 : List UInt8 → {digest : List UInt8 // digest.length = 32}} {pubkey : String}

/-- A memo with the code of a key is parsed as that code. -/
lemma memoParse_paymentCode (hkey : paymentCode sha256 pubkey ≠ "") :
    memoParse [memoPrefix ++ paymentCode sha256 pubkey] = .ok (paymentCode sha256 pubkey) := by
  have hspace : ∀ c ∈ (paymentCode sha256 pubkey).toList, isSpace c = false := by
    intro c hc
    have halphabet : ∀ c ∈ Base58.alphabet, isSpace c = false :=
      List.all_iff_forall_prop.mp (by decide)
    rw [paymentCode] at hc
    cases hraw : Peers.decodeKey pubkey with
    | none => simp [hraw] at hc
    | some raw =>
        rw [hraw] at hc
        rw [base58Encode_eq] at hc
        exact halphabet c (Base58.mem_alphabet_of_mem_encode hc)
  generalize paymentCode sha256 pubkey = code at hkey hspace
  have hdrop : (memoPrefix ++ code).toList.drop memoPrefix.length = code.toList := by
    rw [String.toList_append, ← String.length_toList, List.drop_left]
  have hprefix : memoPrefix.toList.isPrefixOf (memoPrefix ++ code).toList = true := by
    rw [String.toList_append]
    simp
  simp only [memoParse, memoParseLoop, hprefix, if_true, hdrop, trimSpace_of_not_isSpace hspace,
    String.ofList_toList, if_neg hkey]

/-- There are keys with codes. -/
lemma exists_paymentCode_ne_empty
    (sha256 : List UInt8 → {digest : List UInt8 // digest.length = 32}) :
    ∃ pubkey, paymentCode sha256 pubkey ≠ "" := by
  have hraw : (Peers.decodeKey "AAAAAAAAAAAAAAAAAAAAAAAAAAAAAAAAAAAAAAAAAAA=").isSome := by
    decide +kernel
  obtain ⟨raw, hraw⟩ := Option.isSome_iff_exists.mp hraw
  refine ⟨"AAAAAAAAAAAAAAAAAAAAAAAAAAAAAAAAAAAAAAAAAAA=", fun hempty => ?_⟩
  have hempty : base58Encode ((sha256 raw).1.take 20) = "" := by
    rwa [paymentCode, hraw] at hempty
  have hdecode := decode_base58Encode ((sha256 raw).1.take 20)
  rw [hempty] at hdecode
  have hnil : [] = (sha256 raw).1.take 20 := Option.some.inj hdecode
  have hlength := congrArg List.length hnil
  rw [List.length_take, (sha256 raw).2] at hlength
  simp at hlength

end Codes

/-! ### Restarts -/

namespace Engine

variable {paymentCode : String → String} {e : Engine} {sched : Schedule}

/-- What an engine answers about a code that a key has. -/
lemma tier_polls {pubkey : String} (hkey : paymentCode pubkey ≠ "") (f : Engine) (ps : List Poll)
    (t : Int) : (f.polls ps).tier paymentCode pubkey t =
      (decide (t < (ps.foldl Ledger.poll f.toLedger).paidUntil.at_ (paymentCode pubkey)),
        (ps.foldl Ledger.poll f.toLedger).paidUntil.at_ (paymentCode pubkey)) := by
  rw [tier, if_neg hkey, polls_toLedger]

/-- A schedule that is not read back costs the cursor, and that shows when the
code of a key is paid for. -/
lemma observable_of_lost_cursor (he : e.Wellformed) (hnot : ¬ e.sched.Printable)
    (hcursor : e.lastBlock ≠ 0) (now : Int) (sched : Schedule) {pubkey : String}
    (hkey : paymentCode pubkey ≠ "")
    (hcode : memoParse [memoPrefix ++ paymentCode pubkey] = .ok (paymentCode pubkey)) :
    ∃ ps, ((e.restart now sched).polls ps).tier paymentCode pubkey 0 ≠
      (Engine.polls { e with sched := sched } ps).tier paymentCode pubkey 0 := by
  have hpos : 0 < e.lastBlock := lt_of_le_of_ne he.lastBlock hcursor.symm
  have hnew : (e.restart now sched).toLedger = (Engine.new e.address sched).toLedger := by
    rw [restart_eq he, if_neg fun h => hnot h.1]
  -- the month is paid after all the time that the code has
  refine ⟨[standing (monthAt sched e.lastBlock
    (max zeroTime (e.paidUntil.at_ (paymentCode pubkey))) (paymentCode pubkey))], fun heq => ?_⟩
  rw [tier_polls hkey, tier_polls hkey, List.foldl_cons, List.foldl_nil, List.foldl_cons,
    List.foldl_nil, hnew, Ledger.at_poll_standing hpos hcode, Ledger.poll_standing rfl] at heq
  have hsame : stack zeroTime 30 (max zeroTime (e.paidUntil.at_ (paymentCode pubkey))) =
      e.paidUntil.at_ (paymentCode pubkey) := congrArg Prod.snd heq
  have hlater := lt_stack_month (le_max_left zeroTime (e.paidUntil.at_ (paymentCode pubkey)))
  omega

/-- An engine that has not scanned yet has nothing to lose. -/
lemma restart_toLedger_of_blank (he : e.Wellformed) (hzero : e.lastBlock = 0) (now : Int)
    (sched : Schedule) :
    (e.restart now sched).toLedger = { e.toLedger with sched := sched } := by
  obtain ⟨hpaid, hseen, hfrom⟩ := he.blank hzero
  rw [restart_eq he]
  have hempty : (Engine.new e.address sched).toLedger = { e.toLedger with sched := sched } := by
    show (⟨e.address, sched, ∅, 0, ∅, 0⟩ : Ledger) =
      ⟨e.address, sched, e.paidUntil, e.lastBlock, e.seen, e.seenFrom⟩
    rw [hpaid, hseen, hfrom, hzero]
  split
  · have hmap := restored_blank { Engine.new e.address sched with statePath := e.statePath } now
      hpaid
    show (⟨e.address, sched, (e.restored { Engine.new e.address sched with
      statePath := e.statePath } now).paidUntil, e.lastBlock, e.seen, e.seenFrom⟩ : Ledger) =
        ⟨e.address, sched, e.paidUntil, e.lastBlock, e.seen, e.seenFrom⟩
    rw [hmap, hpaid]
  · exact hempty

/-- A restored engine differs in the map only. -/
lemma restart_toLedger_of_printable (he : e.Wellformed) (hprintable : e.sched.Printable)
    (hext : sched.Extends e.sched e.lastBlock) (now : Int) :
    (e.restart now sched).toLedger =
        Ledger.withPaid { e.toLedger with sched := sched } (e.restart now sched).paidUntil ∧
      ∀ code, (e.restart now sched).paidUntil.at_ code = e.paidUntil.at_ code ↔
        Survives now (e.paidUntil.at_ code) := by
  rw [restart_eq he, if_pos ⟨hprintable, hext⟩]
  exact ⟨rfl, fun code => at_restored_iff e _ now code⟩

end Engine

section Restart

open PaymentCodes

/-- **A restart is unobservable exactly when the schedule is read back, if
anything was scanned under it, and every key's `paid_until` survives the
snapshot**: then, and only then, the restarted engine gives the same `Tier`
answer as the engine that was never restarted and took the extending schedule
over in place, for every key, at every time, after every run of scans. -/
theorem restart_unobservable_iff
    (sha256 : List UInt8 → {digest : List UInt8 // digest.length = 32}) {address : String}
    {e : Engine} (h : Lived address e) (now : Int) {sched : Schedule}
    (hext : sched.Extends e.sched e.lastBlock) :
    (∀ (ps : List Poll) (pubkey : String) (t : Int),
        Engine.tier (paymentCode sha256) ((e.restart now sched).polls ps) pubkey t =
          Engine.tier (paymentCode sha256) (Engine.polls { e with sched := sched } ps) pubkey t) ↔
      (e.sched.Printable ∨ e.lastBlock = 0) ∧
        ∀ pubkey, paymentCode sha256 pubkey ≠ "" →
          Survives now (e.paidUntil.at_ (paymentCode sha256 pubkey)) := by
  have he := Engine.wellformed_of_lived h
  constructor
  · intro hsame
    have hread : e.sched.Printable ∨ e.lastBlock = 0 := by
      by_contra hlost
      obtain ⟨hnot, hcursor⟩ := not_or.mp hlost
      obtain ⟨pubkey, hkey⟩ := exists_paymentCode_ne_empty sha256
      obtain ⟨ps, hobservable⟩ := Engine.observable_of_lost_cursor he hnot hcursor now sched hkey
        (memoParse_paymentCode hkey)
      exact hobservable (hsame ps pubkey 0)
    refine ⟨hread, fun pubkey hkey => ?_⟩
    have htier := hsame [] pubkey 0
    rw [Engine.tier_polls hkey, Engine.tier_polls hkey] at htier
    have hat : (e.restart now sched).paidUntil.at_ (paymentCode sha256 pubkey) =
        e.paidUntil.at_ (paymentCode sha256 pubkey) := congrArg Prod.snd htier
    rcases hread with hprintable | hzero
    · exact ((Engine.restart_toLedger_of_printable he hprintable hext now).2 _).mp hat
    · rw [(he.blank hzero).1, PaidMap.at_empty, Survives]
      split
      · decide
      · rfl
  · rintro ⟨hread, hsurv⟩ ps pubkey t
    by_cases hkey : paymentCode sha256 pubkey = ""
    · rw [Engine.tier, Engine.tier, if_pos hkey, if_pos hkey]
    rw [Engine.tier_polls hkey, Engine.tier_polls hkey]
    rcases hread with hprintable | hzero
    · obtain ⟨hledger, hat⟩ := Engine.restart_toLedger_of_printable he hprintable hext now
      have hcode := (hat _).mpr (hsurv pubkey hkey)
      have hrun := Ledger.at_polls_withPaid (l := { e.toLedger with sched := sched }) hcode ps
      rw [hledger, hrun]
    · rw [Engine.restart_toLedger_of_blank he hzero now sched]

end Restart

/-! ### A lapsed subscriber -/

/-- A hash by which every key has one code. -/
def zeroHash (_ : List UInt8) : {digest : List UInt8 // digest.length = 32} :=
  ⟨List.replicate 32 0, rfl⟩

lemma paymentCode_zeroHash (pubkey : String) :
    PaymentCodes.paymentCode zeroHash pubkey = "" ∨
      PaymentCodes.paymentCode zeroHash pubkey = "11111111111111111111" := by
  rw [PaymentCodes.paymentCode]
  cases Peers.decodeKey pubkey with
  | none => exact Or.inl rfl
  | some raw =>
      right
      show String.ofList (List.replicate 20 '1' ++
        ((PaymentCodes.base58Digits []).map Base58.digitChar).reverse) = _
      rw [PaymentCodes.base58Digits]
      rfl

/-- One month, paid at the block time 0. -/
def lapsedTx : Tx where
  txID := "a"
  height := 100
  time := 0
  amountTo := 20
  memos := ["CVPN1:11111111111111111111"]

/-- The gateway of the subscriber, before the restart. -/
def lapsedEngine : Engine :=
  Engine.event
    { Engine.new "t1pay" (Schedule.flat 20 twenty_pos) with statePath := "/data/entitle.json" }
    (.scan ⟨completeSource [lapsedTx] 150, true⟩)

lemma floats_flat_twenty : (Schedule.flat 20 twenty_pos).Floats where
  len := by decide
  entry := by
    intro e he
    obtain rfl := List.mem_singleton.mp he
    refine ⟨⟨20, ⟨by norm_num, 20 * 10 ^ 8, by norm_num, by norm_num⟩, ?_⟩, by decide⟩
    exact (Binary64.round_natCast (n := 20) (by norm_num)).symm

lemma lived_lapsedEngine : Lived "t1pay" lapsedEngine :=
  .event (.start floats_flat_twenty (by decide)) trivial

lemma extends_lapsedEngine :
    (Schedule.flat 20 twenty_pos).Extends lapsedEngine.sched lapsedEngine.lastBlock := by
  decide +kernel

/-- While the month runs, a restart of its gateway is unobservable. -/
theorem restart_unobservable_iff_running :
    Engine.tier (PaymentCodes.paymentCode zeroHash)
        ((lapsedEngine.restart (29 * day) (Schedule.flat 20 twenty_pos)).polls [])
          "AAAAAAAAAAAAAAAAAAAAAAAAAAAAAAAAAAAAAAAAAAA=" (29 * day) =
      Engine.tier (PaymentCodes.paymentCode zeroHash)
        (Engine.polls { lapsedEngine with sched := Schedule.flat 20 twenty_pos } [])
          "AAAAAAAAAAAAAAAAAAAAAAAAAAAAAAAAAAAAAAAAAAA=" (29 * day) := by
  have hprintable : lapsedEngine.sched.Printable := by decide +kernel
  refine (restart_unobservable_iff zeroHash lived_lapsedEngine (29 * day)
    extends_lapsedEngine).mpr ⟨Or.inl hprintable, fun key hkey => ?_⟩ [] _ (29 * day)
  rw [(paymentCode_zeroHash key).resolve_left hkey]
  decide +kernel

/-- Five days after the month the tier loses its timestamp, and the peer its
address, thirty days early. -/
theorem not_restart_unobservable :
    ¬ ∀ (sha256 : List UInt8 → {digest : List UInt8 // digest.length = 32}) (address : String)
      (e : Engine) (now : Int) (sched : Schedule),
      Lived address e → sched.Extends e.sched e.lastBlock →
      ∀ (ps : List Poll) (pubkey : String) (t seen : Int),
        Engine.tier (PaymentCodes.paymentCode sha256) ((e.restart now sched).polls ps) pubkey t =
            Engine.tier (PaymentCodes.paymentCode sha256)
              (Engine.polls { e with sched := sched } ps) pubkey t ∧
          reaps (Engine.tier (PaymentCodes.paymentCode sha256)
              ((e.restart now sched).polls ps) pubkey t) seen t =
            reaps (Engine.tier (PaymentCodes.paymentCode sha256)
              (Engine.polls { e with sched := sched } ps) pubkey t) seen t := by
  intro h
  obtain ⟨pubkey, hkey⟩ := exists_paymentCode_ne_empty zeroHash
  have hreap := (h zeroHash "t1pay" lapsedEngine (31 * day) (Schedule.flat 20 twenty_pos)
    lived_lapsedEngine extends_lapsedEngine [] pubkey (35 * day) (1 * day)).2
  rw [Engine.tier_polls hkey, Engine.tier_polls hkey,
    (paymentCode_zeroHash pubkey).resolve_left hkey] at hreap
  revert hreap
  decide +kernel

end CumulusVpn
