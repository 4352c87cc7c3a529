/-
The failure breaker of a DoH provider (`available`, `record` and their use in
`Exchange` of `gateway/internal/dnsproxy/proxy.go`).

Every atomic operation of a lookup is a step of its own, and the clock never
goes back.

* `Upstream`, `Stage`, `step`: any number of lookups against one provider;
* `paid`, `since`: the lookups that attempted DoH after the breaker had first
  opened, and those of them since it last opened;
* `failed`, `trips`, `lastOpening`: what the arrivals and answers of a run say
  of the breaker, which the third failure in a row opens;
* `Calm`: no lookup arrives shortly after another one that came after a
  cooldown, unless the breaker was opened again in between;
* `Timely`, `Tells`: the invariants of the runs, on the times and on what the
  events tell; `Timely.next`, `Tells.next`;
* `one_per_cooldown_iff`: **the third failure in a row opens the breaker, and one
  lookup per cooldown attempts DoH, exactly in the calm runs**.
-/
import Mathlib.Data.List.Pairwise
import Mathlib.Tactic.Linarith
import CumulusVpn.Lib.StepSystem

namespace CumulusVpn.DnsProxy

open StepSystem

/-- The failures in a row that open the breaker. -/
abbrev breakerTrips : Int := 3

/-- A minute, in nanoseconds. -/
abbrev breakerCooldown : Int := 60 * 10 ^ 9

/-- Where a lookup stands that attempts DoH. -/
inductive Stage
  | exchanging
  /-- `record` of a success, before `failures` is cleared -/
  | succeeded
  /-- `record` of a failure -/
  | adding
  /-- the breaker trips -/
  | clearing
  | opening
  | ended
deriving DecidableEq, Repr

/-- A provider's breaker, with the lookups that attempt DoH. -/
structure Upstream where
  failures : Int
  /-- unix nanoseconds; DoH is skipped until then -/
  downUntil : Int
  clock : Int
  lookups : List Stage
  /-- the breaker has opened -/
  opened : Bool
  /-- when lookups attempted DoH after the breaker had first opened, newest
  first -/
  paid : List Int
  /-- those since it last opened -/
  since : List Int
deriving DecidableEq, Repr

/-- An upstream before its first lookup. -/
def Upstream.new (clock : Int) : Upstream := ⟨0, 0, clock, [], false, [], []⟩

/-- The breaker is not open. -/
def Upstream.available (u : Upstream) (now : Int) : Bool := u.downUntil ≤ now

/-- What happens at an upstream. -/
inductive Event
  /-- a lookup asks whether DoH is available -/
  | arrive (now : Int)
  /-- the attempt of lookup `i` ends -/
  | exchanged (i : Nat) (ok : Bool)
  /-- the next operation of `record` -/
  | record (i : Nat) (now : Int)
deriving DecidableEq, Repr

/-- An operation of `record`, at the stage the lookup stands. -/
def Upstream.record (u : Upstream) (i : Nat) (now : Int) : Stage → Option Upstream
  | .succeeded => some { u with failures := 0, lookups := u.lookups.set i .ended }
  | .adding =>
      let failures := u.failures + 1
      some { u with
        failures := failures
        lookups := u.lookups.set i (if failures ≥ breakerTrips then .clearing else .ended) }
  | .clearing => some { u with failures := 0, lookups := u.lookups.set i .opening }
  | .opening =>
      some { u with
        downUntil := now + breakerCooldown
        lookups := u.lookups.set i .ended
        opened := true
        since := [] }
  | _ => none

/-- The upstream after an event; none where no lookup is at it. -/
def step (u : Upstream) : Event → Option Upstream
  | .arrive now =>
      if u.clock ≤ now then
        let u := { u with clock := now }
        if u.available now then
          let u := { u with lookups := u.lookups ++ [Stage.exchanging] }
          if u.opened then some { u with paid := now :: u.paid, since := now :: u.since }
          else some u
        else some u
      else none
  | .exchanged i ok =>
      match u.lookups[i]? with
      | some .exchanging =>
          some { u with lookups := u.lookups.set i (if ok then .succeeded else .adding) }
      | _ => none
  | .record i now =>
      if u.clock ≤ now then
        (u.lookups[i]?).bind fun stage => { u with clock := now }.record i now stage
      else none

/-- One lookup per cooldown, newest first. -/
def OnePerCooldown (times : List Int) : Prop :=
  times.Pairwise fun later earlier => earlier + breakerCooldown ≤ later

instance (times : List Int) : Decidable (OnePerCooldown times) :=
  inferInstanceAs (Decidable (times.Pairwise _))

/-! ### What the events tell

The events so far are listed newest first. -/

/-- The event is an operation of the `record` of lookup `i`. -/
def Event.isRecord (i : Nat) : Event → Bool
  | .record j _ => j == i
  | _ => false

/-- How many operations of its `record` a lookup has made. -/
def recorded (i : Nat) (past : List Event) : Nat := past.countP (Event.isRecord i)

/-- The failed answers since the count was last cleared. The first operation of
a `record` counts the answer, and the second, which only a lookup has that opens
the breaker, clears the count. -/
def failed : List Event → Nat
  | [] => 0
  | .record i _ :: past =>
      match recorded i past with
      | 0 => if Event.exchanged i true ∈ past then 0 else failed past + 1
      | 1 => 0
      | _ => failed past
  | _ :: past => failed past

/-- The answer of lookup `i` was recorded as the third failure, or one more,
since the count was last cleared. -/
def trips (i : Nat) : List Event → Bool
  | [] => false
  | e :: past =>
      (e.isRecord i && recorded i past == 0 && !decide (Event.exchanged i true ∈ past) &&
        decide (3 ≤ failed past + 1)) || trips i past

/-- The third operation of a lookup that trips opens the breaker. -/
def opens (past : List Event) : Event → Bool
  | .record i _ => recorded i past == 2 && trips i past
  | _ => false

/-- When the breaker was last opened. -/
def lastOpening : List Event → Option Int
  | [] => none
  | .record i now :: past => if opens past (.record i now) then some now else lastOpening past
  | _ :: past => lastOpening past

/-- The times of the lookups since then, newest first. -/
def arrivals : List Event → List Int
  | [] => []
  | .arrive now :: past => now :: arrivals past
  | .record i now :: past => if opens past (.record i now) then [] else arrivals past
  | _ :: past => arrivals past

/-- A lookup arrives less than a cooldown after another one, and that one came
a cooldown or more after the last opening. -/
def Crowds (past : List Event) : Event → Prop
  | .arrive now => ∃ opening ∈ lastOpening past, ∃ earlier ∈ arrivals past,
      opening + breakerCooldown ≤ earlier ∧ now < earlier + breakerCooldown
  | _ => False

instance (past : List Event) : ∀ e, Decidable (Crowds past e)
  | .arrive _ => inferInstanceAs (Decidable (∃ opening ∈ lastOpening past, _))
  | .exchanged _ _ => inferInstanceAs (Decidable False)
  | .record _ _ => inferInstanceAs (Decidable False)

/-- No lookup crowds another. -/
def Calm : List Event → Prop
  | [] => True
  | e :: past => Calm past ∧ ¬ Crowds past e

instance decidableCalm : ∀ past, Decidable (Calm past)
  | [] => inferInstanceAs (Decidable True)
  | _ :: past =>
      have := decidableCalm past
      inferInstanceAs (Decidable (_ ∧ ¬ _))

/-! ### What the lookups before the last opening are -/

/-- The lookups that paid before the breaker last opened did so a cooldown
before it closes. -/
structure Timely (u : Upstream) : Prop where
  past : ∀ t ∈ u.paid, t ≤ u.clock
  early : ∀ t ∈ u.paid, t ∈ u.since ∨ t + breakerCooldown ≤ u.downUntil
  since_sub : ∀ t ∈ u.since, t ∈ u.paid

/-- In the state of the breaker: it is found closed again, less than a cooldown
after another lookup that found it so since it last opened. -/
def Crowded (u : Upstream) : Event → Prop
  | .arrive now =>
      u.opened = true ∧ u.downUntil ≤ now ∧ ∃ earlier ∈ u.since, now < earlier + breakerCooldown
  | _ => False

lemma timely_new (clock : Int) : Timely (.new clock) := ⟨nofun, nofun, nofun⟩

section Steps

variable {u u' : Upstream} {e : Event}

/-- **What a step does to the lookups that paid**: one is added that finds the
breaker closed, or the breaker opens, or nothing happens to them. -/
inductive Does (u : Upstream) (e : Event) (u' : Upstream) : Prop
  | pays (now : Int) (he : e = .arrive now) (hopened : u.opened = true) (hclock : u.clock ≤ now)
      (hclosed : u.downUntil ≤ now) (hclock' : u'.clock = now) (hdown : u'.downUntil = u.downUntil)
      (hpaid : u'.paid = now :: u.paid) (hsince : u'.since = now :: u.since)
  | opens (now : Int) (hcrowd : ¬ Crowded u e) (hclock : u.clock ≤ now) (hclock' : u'.clock = now)
      (hdown : u'.downUntil = now + breakerCooldown) (hpaid : u'.paid = u.paid)
      (hsince : u'.since = [])
  | other (hcrowd : ¬ Crowded u e) (hclock : u.clock ≤ u'.clock)
      (hdown : u'.downUntil = u.downUntil)
      (hpaid : u'.paid = u.paid) (hsince : u'.since = u.since)

lemma record_does {i : Nat} {now : Int} {stage : Stage} (hclock : u.clock ≤ now)
    (h : { u with clock := now }.record i now stage = some u') : Does u (.record i now) u' := by
  cases stage with
  | exchanging => cases h
  | ended => cases h
  | succeeded =>
      cases h
      exact .other id hclock rfl rfl rfl
  | adding =>
      cases h
      exact .other id hclock rfl rfl rfl
  | clearing =>
      cases h
      exact .other id hclock rfl rfl rfl
  | opening =>
      cases h
      exact .opens now id hclock rfl rfl rfl rfl

lemma step_does (h : step u e = some u') : Does u e u' := by
  cases e with
  | arrive now =>
      rw [step, Option.ite_none_right_eq_some] at h
      obtain ⟨hclock, h⟩ := h
      by_cases hclosed : u.downUntil ≤ now
      · have havailable : { u with clock := now }.available now = true := decide_eq_true hclosed
        simp only [havailable, if_true] at h
        cases hopened : u.opened with
        | true =>
            simp only [hopened, if_true] at h
            cases h
            exact .pays now rfl hopened hclock hclosed rfl rfl rfl rfl
        | false =>
            simp only [hopened, Bool.false_eq_true, if_false] at h
            cases h
            refine .other (fun hcrowd => ?_) hclock rfl rfl rfl
            rw [hcrowd.1] at hopened
            cases hopened
      · have havailable : { u with clock := now }.available now = false :=
          decide_eq_false hclosed
        simp only [havailable, Bool.false_eq_true, if_false] at h
        cases h
        exact .other (fun hcrowd => hclosed hcrowd.2.1) hclock rfl rfl rfl
  | exchanged i ok =>
      rw [step] at h
      split at h
      · cases h
        exact .other id le_rfl rfl rfl rfl
      · cases h
  | record i now =>
      rw [step, Option.ite_none_right_eq_some] at h
      obtain ⟨hclock, h⟩ := h
      obtain ⟨stage, -, h⟩ := Option.bind_eq_some_iff.mp h
      exact record_does hclock h

/-- **The breaker opens for a whole cooldown after all lookups so far.** -/
lemma Timely.next (hu : Timely u) (h : step u e = some u') : Timely u' := by
  cases step_does h with
  | pays now _ _ hclock _ hclock' hdown hpaid hsince =>
      refine ⟨fun t ht => ?_, fun t ht => ?_, fun t ht => ?_⟩
      · rw [hclock']
        rw [hpaid] at ht
        obtain rfl | ht := List.mem_cons.mp ht
        · exact le_rfl
        · exact (hu.past t ht).trans hclock
      · rw [hsince, hdown]
        rw [hpaid] at ht
        obtain rfl | ht := List.mem_cons.mp ht
        · exact Or.inl (List.mem_cons_self ..)
        · exact (hu.early t ht).imp_left (List.mem_cons_of_mem _)
      · rw [hpaid]
        rw [hsince] at ht
        exact List.mem_cons.mpr ((List.mem_cons.mp ht).imp_right (hu.since_sub t))
  | opens now _ hclock hclock' hdown hpaid hsince =>
      refine ⟨fun t ht => ?_, fun t ht => ?_, fun t ht => ?_⟩
      · rw [hpaid] at ht
        rw [hclock']
        exact (hu.past t ht).trans hclock
      · rw [hpaid] at ht
        rw [hdown]
        have hpast := (hu.past t ht).trans hclock
        exact Or.inr (by omega)
      · rw [hsince] at ht
        cases ht
  | other _ hclock hdown hpaid hsince =>
      refine ⟨fun t ht => ?_, fun t ht => ?_, fun t ht => ?_⟩
      · rw [hpaid] at ht
        exact (hu.past t ht).trans hclock
      · rw [hpaid] at ht
        rw [hsince, hdown]
        exact hu.early t ht
      · rw [hsince] at ht
        rw [hpaid]
        exact hu.since_sub t ht

/-- **A step keeps one lookup per cooldown exactly if it does not crowd.** -/
lemma Timely.onePerCooldown_iff (hu : Timely u) (h : step u e = some u') :
    OnePerCooldown u'.paid ↔ OnePerCooldown u.paid ∧ ¬ Crowded u e := by
  cases step_does h with
  | pays now he hopened hclock hclosed hclock' hdown hpaid hsince =>
      rw [hpaid, OnePerCooldown, List.pairwise_cons, and_comm, OnePerCooldown]
      refine and_congr_right fun _ => ⟨fun hall hcrowd => ?_, fun hfree t ht => ?_⟩
      · rw [he] at hcrowd
        obtain ⟨-, -, earlier, hsince, hlate⟩ := hcrowd
        exact absurd (hall earlier (hu.since_sub earlier hsince)) (not_le.mpr hlate)
      · obtain hsince | hearly := hu.early t ht
        · by_contra hlate
          rw [he] at hfree
          exact hfree ⟨hopened, hclosed, t, hsince, not_le.mp hlate⟩
        · exact hearly.trans hclosed
  | opens now hcrowd hclock hclock' hdown hpaid hsince =>
      rw [hpaid]
      exact (and_iff_left hcrowd).symm
  | other hcrowd hclock hdown hpaid hsince =>
      rw [hpaid]
      exact (and_iff_left hcrowd).symm

end Steps

/-! ### The state is what the events tell -/

/-- What the events tell of a lookup at this stage. -/
def Stage.Shows (i : Nat) (past : List Event) : Stage → Prop
  | exchanging | adding => recorded i past = 0 ∧ Event.exchanged i true ∉ past
  | succeeded => recorded i past = 0 ∧ Event.exchanged i true ∈ past
  | clearing => recorded i past = 1 ∧ trips i past = true
  | opening => recorded i past = 2 ∧ trips i past = true
  | ended => 0 < recorded i past ∧ (trips i past = true → recorded i past = 3)

/-- The breaker as the events tell it. -/
structure Tells (past : List Event) (u : Upstream) : Prop where
  failures : u.failures = failed past
  never : lastOpening past = none → u.opened = false
  last : ∀ s ∈ lastOpening past, u.opened = true ∧ u.downUntil = s + breakerCooldown
  since : u.opened = true → u.since = (arrivals past).filter fun t => u.downUntil ≤ t
  stages : ∀ (i : Nat) (stage : Stage), u.lookups[i]? = some stage → stage.Shows i past
  unborn : ∀ i, u.lookups[i]? = none → recorded i past = 0 ∧ Event.exchanged i true ∉ past

lemma tells_new (clock : Int) : Tells [] (.new clock) where
  failures := rfl
  never _ := rfl
  last := nofun
  since := nofun
  stages := nofun
  unborn _ _ := ⟨rfl, List.not_mem_nil⟩

section Tells

variable {past : List Event} {u u' : Upstream} {e : Event} {i : Nat} {now : Int} {stage : Stage}

lemma recorded_pos_of_trips (h : trips i past = true) : 0 < recorded i past := by
  induction past with
  | nil => cases h
  | cons e past ih =>
      rw [trips, Bool.or_eq_true] at h
      rw [recorded, List.countP_cons]
      rcases h with h | h
      · have hrecord : e.isRecord i = true := by
          simp only [Bool.and_eq_true] at h
          exact h.1.1.1
        simp [hrecord]
      · have hpos := ih h
        rw [recorded] at hpos
        omega

lemma trips_eq_false (h : recorded i past = 0) : trips i past = false := by
  by_contra htrips
  have hpos := recorded_pos_of_trips (Bool.eq_true_of_not_eq_false htrips)
  omega

/-- The event is one of another lookup, or of none. -/
def Event.Spares (i : Nat) : Event → Prop
  | .arrive _ => True
  | .exchanged j _ | .record j _ => j ≠ i

lemma Event.Spares.isRecord (h : e.Spares i) : e.isRecord i = false := by
  cases e with
  | record j now => simpa [Event.isRecord, Event.Spares] using h
  | _ => rfl

lemma recorded_cons_of_spares (h : e.Spares i) : recorded i (e :: past) = recorded i past := by
  rw [recorded, List.countP_cons_of_neg (by simp [h.isRecord]), recorded]

lemma trips_cons_of_spares (h : e.Spares i) : trips i (e :: past) = trips i past := by
  rw [trips, h.isRecord]
  rfl

lemma mem_cons_of_spares (h : e.Spares i) :
    Event.exchanged i true ∈ e :: past ↔ Event.exchanged i true ∈ past := by
  have hne : Event.exchanged i true ≠ e := by
    rintro rfl
    exact h rfl
  simp [hne]

/-- An event that spares a lookup tells nothing of it. -/
lemma Stage.shows_cons (h : e.Spares i) : stage.Shows i (e :: past) ↔ stage.Shows i past := by
  cases stage <;>
    simp only [Stage.Shows, recorded_cons_of_spares h, trips_cons_of_spares h, mem_cons_of_spares h]

lemma recorded_cons_self : recorded i (.record i now :: past) = recorded i past + 1 := by
  rw [recorded, List.countP_cons_of_pos (by simp [Event.isRecord]), recorded]

/-- A lookup trips with its first operation, or has tripped. -/
lemma trips_cons_self : trips i (.record i now :: past) =
    ((recorded i past == 0 && !decide (Event.exchanged i true ∈ past) &&
      decide (3 ≤ failed past + 1)) || trips i past) := by
  rw [trips]
  simp [Event.isRecord]

lemma opens_of_recorded (h : recorded i past ≠ 2) : opens past (.record i now) = false := by
  simp [opens, h]

/-- The other lookups, when one makes a step. -/
lemma Tells.others (hu : Tells past u) (hborn : u.lookups[i]? ≠ none)
    (he : ∀ j, j ≠ i → e.Spares j) {next : Stage} (hnext : next.Shows i (e :: past)) :
    (∀ (j : Nat) (stage : Stage), (u.lookups.set i next)[j]? = some stage →
      stage.Shows j (e :: past)) ∧
      ∀ j, (u.lookups.set i next)[j]? = none →
        recorded j (e :: past) = 0 ∧ Event.exchanged j true ∉ e :: past := by
  constructor
  · intro j stage hj
    by_cases hij : j = i
    · subst hij
      obtain ⟨-, rfl⟩ : _ ∧ next = stage := by
        rw [List.getElem?_set] at hj
        simpa using hj
      exact hnext
    · rw [List.getElem?_set_ne (Ne.symm hij)] at hj
      exact (Stage.shows_cons (he j hij)).mpr (hu.stages j stage hj)
  · intro j hj
    by_cases hij : j = i
    · subst hij
      rw [List.getElem?_eq_none_iff, List.length_set, ← List.getElem?_eq_none_iff] at hj
      exact absurd hj hborn
    · rw [List.getElem?_set_ne (Ne.symm hij)] at hj
      rw [recorded_cons_of_spares (he j hij), mem_cons_of_spares (he j hij)]
      exact hu.unborn j hj

/-- **An operation of `record` is what the events tell of it.** -/
lemma Tells.record (hu : Tells past u) (hstage : u.lookups[i]? = some stage)
    (h : { u with clock := now }.record i now stage = some u') :
    Tells (.record i now :: past) u' := by
  have hshows := hu.stages i stage hstage
  have hborn : u.lookups[i]? ≠ none := by simp [hstage]
  have hspares : ∀ j, j ≠ i → (Event.record i now).Spares j := fun j hj => hj.symm
  cases stage with
  | exchanging => cases h
  | ended => cases h
  | succeeded =>
      cases h
      obtain ⟨hnone, hok⟩ := hshows
      have hopens : opens past (.record i now) = false := opens_of_recorded (by omega)
      have hended : Stage.ended.Shows i (.record i now :: past) := by
        refine ⟨by rw [recorded_cons_self]; omega, fun htrips => ?_⟩
        rw [trips_cons_self, trips_eq_false hnone] at htrips
        simp [hok] at htrips
      obtain ⟨hstages, hunborn⟩ := hu.others hborn hspares hended
      refine ⟨?_, ?_, ?_, ?_, hstages, hunborn⟩
      · simp [failed, hnone, hok]
      · simpa [lastOpening, hopens] using hu.never
      · simpa [lastOpening, hopens] using hu.last
      · simpa [arrivals, hopens] using hu.since
  | adding =>
      cases h
      obtain ⟨hnone, hfail⟩ := hshows
      have hopens : opens past (.record i now) = false := opens_of_recorded (by omega)
      have htrips : trips i (.record i now :: past) = decide (3 ≤ failed past + 1) := by
        rw [trips_cons_self, trips_eq_false hnone]
        simp [hnone, hfail]
      have hcount : u.failures + 1 ≥ breakerTrips ↔ 3 ≤ failed past + 1 := by
        rw [hu.failures]
        simp only [breakerTrips]
        omega
      have hnext : (if u.failures + 1 ≥ breakerTrips then Stage.clearing else .ended).Shows i
          (.record i now :: past) := by
        by_cases htrip : u.failures + 1 ≥ breakerTrips
        · rw [if_pos htrip]
          refine ⟨by rw [recorded_cons_self]; omega, ?_⟩
          rw [htrips]
          exact decide_eq_true (hcount.mp htrip)
        · rw [if_neg htrip]
          refine ⟨by rw [recorded_cons_self]; omega, fun hthird => ?_⟩
          rw [htrips] at hthird
          exact absurd (hcount.mpr (of_decide_eq_true hthird)) htrip
      obtain ⟨hstages, hunborn⟩ := hu.others hborn hspares hnext
      refine ⟨?_, ?_, ?_, ?_, hstages, hunborn⟩
      · simp [failed, hnone, hfail, hu.failures]
      · simpa [lastOpening, hopens] using hu.never
      · simpa [lastOpening, hopens] using hu.last
      · simpa [arrivals, hopens] using hu.since
  | clearing =>
      cases h
      obtain ⟨hone, htrips⟩ := hshows
      have hopens : opens past (.record i now) = false := opens_of_recorded (by omega)
      have hopening : Stage.opening.Shows i (.record i now :: past) := by
        refine ⟨by rw [recorded_cons_self]; omega, ?_⟩
        rw [trips_cons_self, htrips, Bool.or_true]
      obtain ⟨hstages, hunborn⟩ := hu.others hborn hspares hopening
      refine ⟨?_, ?_, ?_, ?_, hstages, hunborn⟩
      · simp [failed, hone]
      · simpa [lastOpening, hopens] using hu.never
      · simpa [lastOpening, hopens] using hu.last
      · simpa [arrivals, hopens] using hu.since
  | opening =>
      cases h
      obtain ⟨htwo, htrips⟩ := hshows
      have hopens : opens past (.record i now) = true := by simp [opens, htwo, htrips]
      have hended : Stage.ended.Shows i (.record i now :: past) :=
        ⟨by rw [recorded_cons_self]; omega, fun _ => by rw [recorded_cons_self]; omega⟩
      obtain ⟨hstages, hunborn⟩ := hu.others hborn hspares hended
      refine ⟨?_, ?_, ?_, ?_, hstages, hunborn⟩
      · simp [failed, htwo, hu.failures]
      · simp [lastOpening, hopens]
      · simp [lastOpening, hopens]
      · simp [arrivals, hopens]

/-- **Every step is what the events tell of it.** -/
lemma Tells.next (hu : Tells past u) (h : step u e = some u') : Tells (e :: past) u' := by
  cases e with
  | arrive now =>
      have hspares : ∀ j, (Event.arrive now).Spares j := fun _ => trivial
      have hstages : ∀ (j : Nat) (stage : Stage), u.lookups[j]? = some stage →
          stage.Shows j (.arrive now :: past) :=
        fun j stage hj => (Stage.shows_cons (hspares j)).mpr (hu.stages j stage hj)
      have hunborn : ∀ j, u.lookups[j]? = none →
          recorded j (.arrive now :: past) = 0 ∧ Event.exchanged j true ∉ .arrive now :: past := by
        intro j hj
        rw [recorded_cons_of_spares (hspares j), mem_cons_of_spares (hspares j)]
        exact hu.unborn j hj
      -- the lookup that finds the breaker closed starts to exchange
      have hborn : ∀ (j : Nat) (stage : Stage), (u.lookups ++ [Stage.exchanging])[j]? = some stage →
          stage.Shows j (.arrive now :: past) := by
        intro j stage hj
        rw [List.getElem?_append] at hj
        split at hj
        · exact hstages j stage hj
        · rename_i hge
          have hnew := hunborn j (List.getElem?_eq_none (not_lt.mp hge))
          obtain rfl : stage = .exchanging := by
            have hmem := List.mem_of_getElem? hj
            simpa using hmem
          exact hnew
      have hlater : ∀ j, (u.lookups ++ [Stage.exchanging])[j]? = none →
          recorded j (.arrive now :: past) = 0 ∧ Event.exchanged j true ∉ .arrive now :: past := by
        intro j hj
        refine hunborn j (List.getElem?_eq_none ?_)
        have hlength := List.getElem?_eq_none_iff.mp hj
        rw [List.length_append] at hlength
        omega
      rw [step, Option.ite_none_right_eq_some] at h
      obtain ⟨-, h⟩ := h
      by_cases hclosed : u.downUntil ≤ now
      · have havailable : { u with clock := now }.available now = true := decide_eq_true hclosed
        simp only [havailable, if_true] at h
        split at h
        · rename_i hopened
          cases h
          refine ⟨hu.failures, hu.never, hu.last, fun _ => ?_, hborn, hlater⟩
          simp [arrivals, hclosed, hu.since hopened]
        · rename_i hunopened
          cases h
          exact ⟨hu.failures, hu.never, hu.last, fun hopened => absurd hopened hunopened, hborn,
            hlater⟩
      · have havailable : { u with clock := now }.available now = false := decide_eq_false hclosed
        simp only [havailable, Bool.false_eq_true, if_false] at h
        cases h
        refine ⟨hu.failures, hu.never, hu.last, fun hopened => ?_, hstages, hunborn⟩
        simp [arrivals, hclosed, hu.since hopened]
  | exchanged i ok =>
      rw [step] at h
      split at h
      · rename_i hstage
        cases h
        obtain ⟨hnone, hno⟩ := hu.stages i _ hstage
        have hcount : recorded i (.exchanged i ok :: past) = 0 := by
          rw [recorded, List.countP_cons_of_neg (by simp [Event.isRecord])]
          exact hnone
        have hnext :
            (if ok then Stage.succeeded else .adding).Shows i (.exchanged i ok :: past) := by
          cases ok with
          | true => exact ⟨hcount, List.mem_cons_self⟩
          | false => exact ⟨hcount, by simpa using hno⟩
        have hspares : ∀ j, j ≠ i → (Event.exchanged i ok).Spares j := fun j hj => hj.symm
        obtain ⟨hstages, hunborn⟩ := hu.others (by simp [hstage]) hspares hnext
        exact ⟨hu.failures, hu.never, hu.last, hu.since, hstages, hunborn⟩
      · cases h
  | record i now =>
      rw [step, Option.ite_none_right_eq_some] at h
      obtain ⟨-, h⟩ := h
      obtain ⟨stage, hstage, h⟩ := Option.bind_eq_some_iff.mp h
      exact hu.record hstage h

/-- A lookup crowds in the state just when the events say so. -/
lemma Tells.crowded_iff (hu : Tells past u) (ht : Timely u) (h : step u e = some u') :
    Crowded u e ↔ Crowds past e := by
  cases e with
  | arrive now =>
      rw [step, Option.ite_none_right_eq_some] at h
      constructor
      · rintro ⟨hopened, -, earlier, hsince, hsoon⟩
        cases hlast : lastOpening past with
        | none =>
            rw [hu.never hlast] at hopened
            cases hopened
        | some opening =>
            have hdown := (hu.last opening hlast).2
            rw [hu.since hopened, List.mem_filter, hdown] at hsince
            exact ⟨opening, hlast, earlier, hsince.1, of_decide_eq_true hsince.2, hsoon⟩
      · rintro ⟨opening, hlast, earlier, harrived, hafter, hsoon⟩
        obtain ⟨hopened, hdown⟩ := hu.last opening hlast
        have hsince : earlier ∈ u.since := by
          rw [hu.since hopened, List.mem_filter, hdown]
          exact ⟨harrived, decide_eq_true hafter⟩
        have hpast := ht.past earlier (ht.since_sub earlier hsince)
        exact ⟨hopened, by omega, earlier, hsince, hsoon⟩
  | exchanged i ok => exact Iff.rfl
  | record i now => exact Iff.rfl

/-- Only a lookup that trips goes on after its first operation, to open the
breaker. -/
lemma Tells.goes_on_iff (hu : Tells past u) (hclock : u.clock ≤ now)
    (hfirst : 0 < recorded i past) :
    (step u (.record i now)).isSome ↔ trips i past = true ∧ recorded i past < 3 := by
  rw [step, if_pos hclock]
  cases hstage : u.lookups[i]? with
  | none =>
      have hnone := (hu.unborn i hstage).1
      omega
  | some stage =>
      have hshows := hu.stages i stage hstage
      cases stage with
      | exchanging | adding | succeeded =>
          have hnone := hshows.1
          omega
      | clearing | opening =>
          refine iff_of_true rfl ⟨hshows.2, ?_⟩
          have hcount := hshows.1
          omega
      | ended =>
          refine iff_of_false (by simp [Upstream.record]) fun ⟨htrips, hless⟩ => ?_
          have hcount := hshows.2 htrips
          omega

end Tells

/-! ### Runs -/

/-- **After its first operation a `record` goes on just for the third failure in
a row, and opens the breaker; and after that has first opened, one lookup per
cooldown attempts DoH exactly in the calm runs**: those in which none arrives
less than a cooldown after another one that came after a cooldown, unless three
failures in a row opened the breaker again in between. -/
theorem one_per_cooldown_iff (clock : Int) (events : List Event) (u : Upstream)
    (h : exec step (.new clock) events = some u) :
    (∀ i now, u.clock ≤ now → 0 < recorded i events.reverse →
        ((step u (.record i now)).isSome ↔
          trips i events.reverse = true ∧ recorded i events.reverse < 3)) ∧
      (OnePerCooldown u.paid ↔ Calm events.reverse) := by
  have hrun : Timely u ∧ Tells (events.reverse ++ []) u ∧
      (OnePerCooldown u.paid ↔ Calm (events.reverse ++ [])) := by
    refine exec_history
      (I := fun past u => Timely u ∧ Tells past u ∧ (OnePerCooldown u.paid ↔ Calm past))
      (fun past u e u' hu hstep => ?_)
      ⟨timely_new clock, tells_new clock, iff_of_true List.Pairwise.nil trivial⟩ h
    obtain ⟨htimely, htells, hcalm⟩ := hu
    refine ⟨htimely.next hstep, htells.next hstep, ?_⟩
    rw [htimely.onePerCooldown_iff hstep, hcalm, htells.crowded_iff htimely hstep, Calm]
  rw [List.append_nil] at hrun
  exact ⟨fun i now hclock hfirst => hrun.2.1.goes_on_iff hclock hfirst, hrun.2.2⟩

/-- Three lookups that fail and open the breaker. -/
def threeFail : List Event :=
  [.arrive 0, .arrive 0, .arrive 0, .exchanged 0 false, .exchanged 1 false, .exchanged 2 false,
    .record 0 0, .record 1 0, .record 2 0, .record 2 0, .record 2 0]

/-- Two lookups after the cooldown, a cooldown apart. -/
theorem one_per_cooldown_apart : ∃ u, exec step (.new 0)
    (threeFail ++ [.arrive breakerCooldown, .exchanged 3 false, .record 3 breakerCooldown,
      .arrive (2 * breakerCooldown)]) = some u ∧ OnePerCooldown u.paid := by
  refine ⟨_, rfl, ?_⟩
  refine (one_per_cooldown_iff 0 (threeFail ++ [.arrive breakerCooldown, .exchanged 3 false,
    .record 3 breakerCooldown, .arrive (2 * breakerCooldown)]) _ rfl).2.mpr ?_
  decide

/-- The second lookup after the cooldown comes a second after the first, and
attempts DoH as well. -/
theorem two_in_a_cooldown : ∃ u, exec step (.new 0)
    (threeFail ++ [.arrive breakerCooldown, .exchanged 3 false, .record 3 breakerCooldown,
      .arrive (breakerCooldown + 10 ^ 9)]) = some u ∧ ¬ OnePerCooldown u.paid :=
  ⟨_, rfl, by decide⟩

end CumulusVpn.DnsProxy
