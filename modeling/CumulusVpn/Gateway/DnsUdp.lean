/-
A UDP flow to a resolver (`serveDNSUDP` of `gateway/internal/wg/forward.go`).

The flow's goroutine reads datagrams and starts a goroutine for each, which
looks it up, fits the answer and writes it back.  A first datagram that is no
query hands the flow over to the ordinary relay.

* `Desk`, `Desk.next`: the lookups of one flow, with their slots, their wait
  group and their lock; `Desk.Sound`, `Desk.Sound.step`;
* `Flow`, `step`: the goroutine that reads, and the lookups;
* `Flow.Sound`, `sound_of_reachable`: what holds at any time;
* `lookups_bounded`: **no more lookups than the limit hold a slot, one writes at
  a time, and a flow that is released has left nothing behind**;
* `answers_fitted`: **every datagram that goes back is an answer to a datagram of
  the client, fitted to it, and the only one**;
* `first_handed`: **only a first datagram hands the flow over, which is then
  relayed whole**.
-/
import CumulusVpn.Gateway.Splice
import CumulusVpn.Gateway.DnsLookups

namespace CumulusVpn.DnsUdp

open CopyLoop Lookups SlotAccounts Splice StepSystem

/-! ### The lookups -/

/-- How many queries of a flow are looked up at once. -/
abbrev dnsFlowInFlight : Nat := 64

/-- Where a lookup stands. -/
inductive At
  | asking
  /-- before `lp.WaitN` -/
  | paying (resp : Datagram)
  /-- before `writeMu.Lock` -/
  | locking (resp : Datagram)
  | writing (resp : Datagram)
  /-- before `writeMu.Unlock`, with whether the write went well -/
  | unlocking (resp : Datagram) (ok : Bool)
  /-- before `lp.Count` -/
  | counting (resp : Datagram)
  /-- before the slot is given back -/
  | freeing
  /-- before `inflight.Done` -/
  | finishing
  | ended
deriving DecidableEq, Repr

/-- A query, at one of the operations of its goroutine. -/
structure Lookup where
  query : Datagram
  pos : At
deriving DecidableEq, Repr

/-- What the lookups of a flow share. -/
structure Desk where
  slots : Int
  inflight : Int
  /-- the lookup that holds `writeMu` -/
  lock : Option Nat
  lookups : List Lookup
  /-- what was written, and by whom -/
  answered : List (Nat × Datagram)
  charged : Nat
  counted : Nat
deriving DecidableEq, Repr

/-- What happens to a lookup. -/
inductive Turn
  | exchange (o : Outcome)
  | wait (ok : Bool)
  | lock
  | write (ok : Bool)
  | unlock
  | count
  | free
  | done
deriving DecidableEq, Repr

namespace Desk

/-- A desk before its first query. -/
def new : Desk := ⟨0, 0, none, [], [], 0, 0⟩

/-- A lookup is started. -/
def start (d : Desk) (query : Datagram) : Desk :=
  { d with
    slots := d.slots + 1, inflight := d.inflight + 1, lookups := d.lookups ++ [⟨query, .asking⟩] }

/-- Lookup `i` goes on to another position. -/
def move (d : Desk) (i : Nat) (query : Datagram) (pos : At) : Desk :=
  { d with lookups := d.lookups.set i ⟨query, pos⟩ }

/-- What follows `Exchange`. -/
def afterExchange (lib : Library) (query : Datagram) : Outcome → At
  | .encrypted resp | .plain resp => .paying (fitUDP lib query resp)
  | .notHandled | .notDNS | .busy | .failed => .freeing

/-- A step of lookup `i`; `Exchange` returns what suits the query. -/
def next (lib : Library) (isOpen : Bool) (d : Desk) (i : Nat) (query : Datagram) :
    At → Turn → Option Desk
  | .asking, .exchange o =>
      if o.Suits lib query then some (d.move i query (afterExchange lib query o)) else none
  | .paying resp, .wait ok =>
      if ok then some { d.move i query (.locking resp) with charged := d.charged + resp.length }
      else some (d.move i query .freeing)
  | .locking resp, .lock =>
      if d.lock = none then some { d.move i query (.writing resp) with lock := some i } else none
  | .writing resp, .write ok =>
      if ok then
        if isOpen then
          some { d.move i query (.unlocking resp true) with answered := d.answered ++ [(i, resp)] }
        else none
      else some (d.move i query (.unlocking resp false))
  | .unlocking resp ok, .unlock =>
      some { d.move i query (if ok then .counting resp else .freeing) with lock := none }
  | .counting resp, .count =>
      some { d.move i query .freeing with counted := d.counted + resp.length }
  | .freeing, .free => some { d.move i query .finishing with slots := d.slots - 1 }
  | .finishing, .done => some { d.move i query .ended with inflight := d.inflight - 1 }
  | _, _ => none

end Desk

/-! ### What the lookups keep -/

/-- The counters of the desk. -/
inductive Counter
  | slots
  | inflight
deriving DecidableEq, Repr

/-- What a counter shows. -/
def Desk.count (d : Desk) : Counter → Int
  | .slots => d.slots
  | .inflight => d.inflight

namespace At

/-- What a lookup has added to a counter, and not taken back. -/
def owes : At → Counter → Bool
  | finishing, k => k == .inflight
  | ended, _ => false
  | _, _ => true

/-- The lookup holds `writeMu`. -/
def locked : At → Bool
  | writing _ | unlocking _ _ => true
  | _ => false

/-- The lookup may have written. -/
def wrote : At → Bool
  | asking | paying _ | locking _ | writing _ => false
  | unlocking _ ok => ok
  | counting _ | freeing | finishing | ended => true

/-- What is paid and not yet written. -/
def due : At → Nat
  | locking resp | writing resp => resp.length
  | _ => 0

/-- What is written and not yet counted. -/
def uncounted : At → Nat
  | unlocking resp true | counting resp => resp.length
  | _ => 0

/-- The datagram that is on its way back. -/
def reply : At → Option Datagram
  | paying resp | locking resp | writing resp | unlocking resp _ | counting resp => some resp
  | asking | freeing | finishing | ended => none

end At

/-- The lookup has yet to give back what it took. -/
def owes (l : Lookup) (k : Counter) : Bool := l.pos.owes k

/-- The datagram is an answer to the query, fitted to it. -/
def Fitted (lib : Library) (query resp : Datagram) : Prop :=
  isQuery lib query = true ∧ ∃ whole, Answers query whole ∧ resp = fitUDP lib query whole

/-- What is fitted to a query is no longer than the client takes. -/
lemma Fitted.length_le {lib : Library} {query resp : Datagram} (h : Fitted lib query resp)
    (hbuilt : ∀ whole out, lib.truncated whole = some out → out.length ≤ minUDP) :
    resp.length ≤ udpLimit lib query := by
  obtain ⟨-, whole, -, rfl⟩ := h
  exact length_fitUDP_le (hbuilt whole)

/-- A lookup that has a reply has one fitted to its query. -/
def Settled (lib : Library) (l : Lookup) : Prop :=
  ∀ resp, l.pos.reply = some resp → Fitted lib l.query resp

/-- The bytes of what was written. -/
def Desk.sent (d : Desk) : Nat := owed (fun a => a.2.length) d.answered

/-- **What holds of the lookups at any time.** -/
structure Desk.Sound (lib : Library) (d : Desk) : Prop where
  accounted : Accounted owes d.count d.lookups
  bounded : (d.lookups.countP (owes · .slots) : Int) ≤ dnsFlowInFlight
  /-- the lookup with the lock is the one that writes -/
  locked : ∀ i : Nat, d.lock = some i ↔ ∃ l, d.lookups[i]? = some l ∧ l.pos.locked = true
  settled : ∀ l ∈ d.lookups, Settled lib l
  answers : ∀ a ∈ d.answered, ∃ l, d.lookups[a.1]? = some l ∧ l.pos.wrote = true ∧
    Fitted lib l.query a.2
  once : (d.answered.map Prod.fst).Nodup
  paid : d.sent + owed (·.pos.due) d.lookups ≤ d.charged
  tallied : d.counted + owed (·.pos.uncounted) d.lookups = d.sent

/-- **What a step of a lookup does.** -/
structure Moves (lib : Library) (d : Desk) (i : Nat) (query : Datagram) (pos pos' : At)
    (d' : Desk) : Prop where
  lookups : d'.lookups = d.lookups.set i ⟨query, pos'⟩
  count : ∀ k, d'.count k = d.count k + debt owes ⟨query, pos'⟩ k - debt owes ⟨query, pos⟩ k
  room : pos'.owes .slots = true → pos.owes .slots = true
  lock : d'.lock = d.lock ∧ pos'.locked = pos.locked ∨
    d.lock = none ∧ d'.lock = some i ∧ pos'.locked = true ∨
    pos.locked = true ∧ d'.lock = none ∧ pos'.locked = false
  settled : Settled lib ⟨query, pos⟩ → Settled lib ⟨query, pos'⟩
  wrote : pos.wrote = true → pos'.wrote = true
  answered : d'.answered = d.answered ∨
    ∃ resp, d'.answered = d.answered ++ [(i, resp)] ∧ pos.wrote = false ∧ pos'.wrote = true ∧
      pos.reply = some resp
  paid : d'.sent + pos'.due + d.charged ≤ d'.charged + d.sent + pos.due
  tallied : d'.counted + pos'.uncounted + d.sent = d'.sent + d.counted + pos.uncounted

section Desk

variable {lib : Library} {isOpen : Bool} {d d' : Desk} {i : Nat} {query : Datagram} {pos pos' : At}

lemma sent_append (d : Desk) (l : List Lookup) (a : Nat × Datagram) :
    Desk.sent { d with lookups := l, answered := d.answered ++ [a] } = d.sent + a.2.length := by
  simp [Desk.sent, owed]

/-- A step that is about no bytes. -/
lemma moves_unbilled (hlookups : d'.lookups = d.lookups.set i ⟨query, pos'⟩)
    (hsame : d'.answered = d.answered ∧ d'.charged = d.charged ∧ d'.counted = d.counted)
    (hcount : ∀ k, d'.count k = d.count k + debt owes ⟨query, pos'⟩ k - debt owes ⟨query, pos⟩ k)
    (hroom : pos'.owes .slots = true → pos.owes .slots = true)
    (hlock : d'.lock = d.lock ∧ pos'.locked = pos.locked ∨
      d.lock = none ∧ d'.lock = some i ∧ pos'.locked = true ∨
      pos.locked = true ∧ d'.lock = none ∧ pos'.locked = false)
    (hsettled : Settled lib ⟨query, pos⟩ → Settled lib ⟨query, pos'⟩)
    (hwrote : pos.wrote = true → pos'.wrote = true) (hdue : pos'.due ≤ pos.due)
    (huncounted : pos'.uncounted = pos.uncounted) : Moves lib d i query pos pos' d' := by
  obtain ⟨hanswered, hcharged, hcounted⟩ := hsame
  have hsent : d'.sent = d.sent := by rw [Desk.sent, hanswered, Desk.sent]
  refine ⟨hlookups, hcount, hroom, hlock, hsettled, hwrote, .inl hanswered, ?_, ?_⟩ <;> omega

/-- A step that only moves the lookup. -/
lemma moves_of_move (howes : pos'.owes = pos.owes) (hlocked : pos'.locked = pos.locked)
    (hsettled : Settled lib ⟨query, pos⟩ → Settled lib ⟨query, pos'⟩)
    (hwrote : pos.wrote = true → pos'.wrote = true) (hdue : pos'.due ≤ pos.due)
    (huncounted : pos'.uncounted = pos.uncounted) :
    Moves lib d i query pos pos' (d.move i query pos') := by
  refine moves_unbilled rfl ⟨rfl, rfl, rfl⟩ (fun k => ?_) (by rw [howes]; exact id)
    (.inl ⟨rfl, hlocked⟩)
    hsettled hwrote hdue huncounted
  show d.count k = _
  rw [debt, debt, owes, owes, howes, add_sub_cancel_right]

lemma fitted_of_suits {o : Outcome} (h : o.Suits lib query) :
    Settled lib ⟨query, Desk.afterExchange lib query o⟩ := by
  intro resp hreply
  cases o with
  | encrypted whole | plain whole => cases hreply; exact ⟨h.1, whole, h.2, rfl⟩
  | notHandled | notDNS | busy | failed => cases hreply

lemma moves_of_next {t : Turn} (h : d.next lib isOpen i query pos t = some d') :
    ∃ pos', Moves lib d i query pos pos' d' := by
  -- where the lookup has nothing on its way back
  have hnone : ∀ p : At, p.reply = none → Settled lib ⟨query, p⟩ := fun p hp resp hreply => by
    rw [show (⟨query, p⟩ : Lookup).pos = p from rfl, hp] at hreply
    cases hreply
  unfold Desk.next at h
  split at h
  · rename_i o
    split at h <;> cases h
    refine ⟨_, moves_of_move ?_ ?_ (fun _ => fitted_of_suits ‹_›)
      (fun hno => (by cases hno)) ?_ ?_⟩ <;>
      cases o <;> rfl
  · rename_i resp ok
    split at h <;> cases h
    · refine ⟨.locking resp, rfl, fun k => ?_, id, .inl ⟨rfl, rfl⟩, id, id, .inl rfl, ?_, ?_⟩
      · cases k <;> simp [debt, owes, At.owes, Desk.move, Desk.count]
      · show d.sent + resp.length + d.charged ≤ d.charged + resp.length + d.sent + 0
        omega
      · show d.counted + 0 + d.sent = d.sent + d.counted + 0
        omega
    · exact ⟨_, moves_of_move (by funext k; cases k <;> rfl) rfl (fun _ => hnone _ rfl)
        (fun hno => (by cases hno)) (Nat.le_refl _) rfl⟩
  · rename_i resp
    split at h <;> cases h
    rename_i hfree
    refine ⟨.writing resp, moves_unbilled rfl ⟨rfl, rfl, rfl⟩ (fun k => ?_) id
      (.inr (.inl ⟨hfree, rfl, rfl⟩)) id id (Nat.le_refl _) rfl⟩
    cases k <;> simp [debt, owes, At.owes, Desk.move, Desk.count]
  · rename_i resp ok
    split at h
    · split at h <;> cases h
      have hsent : Desk.sent { d.move i query (.unlocking resp true) with
          answered := d.answered ++ [(i, resp)] } = d.sent + resp.length := sent_append d _ _
      refine ⟨.unlocking resp true, rfl, fun k => ?_, id, .inl ⟨rfl, rfl⟩, id, fun _ => rfl,
        .inr ⟨resp, rfl, rfl, rfl, rfl⟩, ?_, ?_⟩
      · cases k <;> simp [debt, owes, At.owes, Desk.move, Desk.count]
      · rw [hsent]
        show d.sent + resp.length + 0 + d.charged ≤ d.charged + d.sent + resp.length
        omega
      · rw [hsent]
        show d.counted + resp.length + d.sent = d.sent + resp.length + d.counted + 0
        omega
    · cases h
      exact ⟨_, moves_of_move (by funext k; cases k <;> rfl) rfl id (fun hno => (by cases hno))
        (Nat.zero_le _) rfl⟩
  · rename_i resp ok
    cases h
    refine ⟨if ok then .counting resp else .freeing,
      moves_unbilled rfl ⟨rfl, rfl, rfl⟩ (fun k => ?_) ?_
      (.inr (.inr ⟨rfl, rfl, ?_⟩)) ?_ ?_ ?_ ?_⟩
    · cases ok <;> cases k <;> simp [debt, owes, At.owes, Desk.move, Desk.count]
    · exact fun _ => rfl
    · cases ok <;> rfl
    · cases ok with
      | true => exact id
      | false => exact fun _ => hnone _ rfl
    · cases ok <;> exact fun _ => rfl
    · cases ok <;> exact Nat.le_refl _
    · cases ok <;> rfl
  · rename_i resp
    cases h
    refine ⟨.freeing, rfl, fun k => ?_, id, .inl ⟨rfl, rfl⟩, fun _ => hnone _ rfl, id, .inl rfl, ?_,
      ?_⟩
    · cases k <;> simp [debt, owes, At.owes, Desk.move, Desk.count]
    · show d.sent + 0 + d.charged ≤ d.charged + d.sent + 0
      omega
    · show d.counted + resp.length + 0 + d.sent = d.sent + d.counted + resp.length
      omega
  · cases h
    refine ⟨.finishing, moves_unbilled rfl ⟨rfl, rfl, rfl⟩ (fun k => ?_) (fun _ => rfl)
      (.inl ⟨rfl, rfl⟩) (fun _ => hnone _ rfl) id (Nat.le_refl _) rfl⟩
    cases k <;> simp [debt, owes, At.owes, Desk.move, Desk.count]
  · cases h
    refine ⟨.ended, moves_unbilled rfl ⟨rfl, rfl, rfl⟩ (fun k => ?_) (fun hno => (by cases hno))
      (.inl ⟨rfl, rfl⟩) (fun _ => hnone _ rfl) id (Nat.le_refl _) rfl⟩
    cases k <;> simp [debt, owes, At.owes, Desk.move, Desk.count]
  · cases h

lemma Desk.Sound.new : Desk.Sound lib .new where
  accounted := fun k => by cases k <;> rfl
  bounded := by decide
  locked := by simp [Desk.new]
  settled := by simp [Desk.new]
  answers := by simp [Desk.new]
  once := List.nodup_nil
  paid := Nat.le_refl _
  tallied := rfl

/-- A lookup is started while a slot is free. -/
lemma Desk.Sound.start (h : Desk.Sound lib d) (hroom : d.slots < dnsFlowInFlight)
    (query : Datagram) : Desk.Sound lib (d.start query) where
  accounted := fun k => by
    have hcount : (d.start query).count k = d.count k + 1 := by cases k <;> rfl
    have howes : owes ⟨query, .asking⟩ k = true := by cases k <;> rfl
    rw [hcount, h.accounted k, Desk.start, List.countP_append, List.countP_singleton, howes,
      if_pos rfl]
    push_cast
    rfl
  bounded := by
    have hslots : d.slots = d.lookups.countP (owes · .slots) := h.accounted .slots
    have howes : owes ⟨query, .asking⟩ .slots = true := rfl
    rw [Desk.start, List.countP_append, List.countP_singleton, howes, if_pos rfl]
    push_cast
    rw [← hslots]
    exact hroom
  locked := fun i => by
    refine (h.locked i).trans ⟨?_, ?_⟩
    · rintro ⟨l, hl, hlocked⟩
      exact ⟨l, (List.getElem?_append_left (List.getElem?_eq_some_iff.mp hl).1).trans hl, hlocked⟩
    · rintro ⟨l, hl, hlocked⟩
      refine ⟨l, ?_, hlocked⟩
      rcases Nat.lt_trichotomy i d.lookups.length with hlt | rfl | hgt
      · rwa [Desk.start, List.getElem?_append_left hlt] at hl
      · rw [Desk.start, List.getElem?_append_right (Nat.le_refl _), Nat.sub_self] at hl
        obtain rfl := Option.some.inj hl
        cases hlocked
      · rw [Desk.start, List.getElem?_eq_none (by simp; omega)] at hl
        cases hl
  settled := List.forall_mem_append.mpr ⟨h.settled, fun l hl resp hreply => by
    rw [List.mem_singleton.mp hl] at hreply
    cases hreply⟩
  answers := fun a ha => by
    obtain ⟨l, hl, hwrote, hfitted⟩ := h.answers a ha
    refine ⟨l, ?_, hwrote, hfitted⟩
    rw [Desk.start, List.getElem?_append_left (List.getElem?_eq_some_iff.mp hl).1]
    exact hl
  once := h.once
  paid := by
    show d.sent + owed (·.pos.due) (d.lookups ++ [⟨query, .asking⟩]) ≤ d.charged
    rw [owed_append]
    exact h.paid
  tallied := by
    show d.counted + owed (·.pos.uncounted) (d.lookups ++ [⟨query, .asking⟩]) = d.sent
    rw [owed_append]
    exact h.tallied

/-- **A step of a lookup keeps what holds of all.** -/
lemma Desk.Sound.move (h : Desk.Sound lib d) (hl : d.lookups[i]? = some ⟨query, pos⟩)
    (hm : Moves lib d i query pos pos' d') : Desk.Sound lib d' := by
  obtain ⟨hlookups, hcount, hroom, hlock, hsettled, hwrote, hanswered, hpaid, htallied⟩ := hm
  obtain ⟨hi, hget⟩ := List.getElem?_eq_some_iff.mp hl
  have hmine : d'.lookups[i]? = some ⟨query, pos'⟩ := by
    rw [hlookups, List.getElem?_set_self hi]
  have hother : ∀ {j : Nat}, j ≠ i → d'.lookups[j]? = d.lookups[j]? := fun hne => by
    rw [hlookups, List.getElem?_set_ne hne.symm]
  refine ⟨?_, ?_, fun j => ?_, fun l hmem => ?_, fun a ha => ?_, ?_, ?_, ?_⟩
  · rw [hlookups]
    exact h.accounted.set hi (fun k => by rw [hget]; exact hcount k)
  · rw [hlookups]
    exact holders_set_le h.accounted (fun _ _ => id) h.bounded hi fun hslot =>
      .inl (by rw [hget]; exact hroom hslot)
  · -- the lock and the position change together
    have hbefore := h.locked j
    have hown : d.lock = some i ↔ pos.locked = true := by
      rw [h.locked i, hl]
      simp
    by_cases hj : j = i
    · subst hj
      rw [hmine]
      rcases hlock with ⟨hsame, hpos⟩ | ⟨-, htaken, hpos⟩ | ⟨-, hfree, hpos⟩
      · rw [hsame, hown, ← hpos]
        simp
      · simp [htaken, hpos]
      · simp [hfree, hpos]
    · rw [hother hj]
      rcases hlock with ⟨hsame, -⟩ | ⟨hnone, htaken, -⟩ | ⟨hpos, hfree, -⟩
      · rw [hsame]
        exact hbefore
      · rw [htaken, ← hbefore, hnone]
        simp [Ne.symm hj]
      · rw [hfree, ← hbefore, hown.mpr hpos]
        simp [Ne.symm hj]
  · rw [hlookups] at hmem
    rcases List.mem_or_eq_of_mem_set hmem with hold | rfl
    · exact h.settled l hold
    · exact hsettled (h.settled _ (List.mem_of_getElem? hl))
  · -- what was written stays, and the lookup may have written more
    have hold : ∀ a ∈ d.answered, ∃ l, d'.lookups[a.1]? = some l ∧ l.pos.wrote = true ∧
        Fitted lib l.query a.2 := by
      intro a ha
      obtain ⟨l, hl', hw, hfitted⟩ := h.answers a ha
      by_cases hj : a.1 = i
      · rw [hj] at hl' ⊢
        rw [hl] at hl'
        obtain rfl := Option.some.inj hl'
        exact ⟨_, hmine, hwrote hw, hfitted⟩
      · exact ⟨l, by rw [hother hj]; exact hl', hw, hfitted⟩
    rcases hanswered with hsame | ⟨resp, hmore, -, hw, hreply⟩
    · rw [hsame] at ha
      exact hold a ha
    · rw [hmore] at ha
      rcases List.mem_append.mp ha with ha | ha
      · exact hold a ha
      · rw [List.mem_singleton.mp ha]
        exact ⟨_, hmine, hw, h.settled _ (List.mem_of_getElem? hl) resp hreply⟩
  · rcases hanswered with hsame | ⟨resp, hmore, hnot, -, -⟩
    · rw [hsame]
      exact h.once
    · rw [hmore, List.map_append]
      refine List.nodup_append.mpr ⟨h.once, List.nodup_singleton _, ?_⟩
      rintro j hj k hk rfl
      obtain ⟨a, ha, rfl⟩ := List.mem_map.mp hj
      obtain ⟨l, hl', hw, -⟩ := h.answers a ha
      rw [List.mem_singleton.mp hk, hl] at hl'
      obtain rfl := Option.some.inj hl'
      rw [show (⟨query, pos⟩ : Lookup).pos = pos from rfl, hnot] at hw
      cases hw
  · have hsum := @owed_set _ _ (fun l : Lookup => l.pos.due) i hi ⟨query, pos'⟩
    have hbefore := h.paid
    rw [hget] at hsum
    rw [hlookups]
    dsimp only at hsum
    omega
  · have hsum := @owed_set _ _ (fun l : Lookup => l.pos.uncounted) i hi ⟨query, pos'⟩
    have hbefore := h.tallied
    rw [hget] at hsum
    rw [hlookups]
    dsimp only at hsum
    omega

end Desk

section Ended

variable {lib : Library} {d : Desk}

/-- When the wait group is empty, every lookup has ended. -/
lemma Desk.Sound.ended (h : Desk.Sound lib d) (hnone : d.inflight = 0) :
    ∀ l ∈ d.lookups, l.pos = .ended := by
  have hcount : ((d.lookups.countP (owes · .inflight) : Nat) : Int) = 0 :=
    (h.accounted .inflight).symm.trans hnone
  intro l hl
  have hnot := List.countP_eq_zero.mp (Int.ofNat_eq_zero.mp hcount) l hl
  obtain ⟨query, pos⟩ := l
  cases pos with
  | ended => rfl
  | _ => exact absurd rfl hnot

/-- Nothing of the flow's lookups is left. -/
lemma Desk.Sound.left_nothing (h : Desk.Sound lib d) (hnone : d.inflight = 0) :
    d.slots = 0 ∧ d.lock = none ∧ d.counted = d.sent := by
  have hended := h.ended hnone
  refine ⟨?_, ?_, ?_⟩
  · refine (h.accounted .slots).trans ?_
    rw [List.countP_eq_zero.mpr fun l hl => ?_]
    · rfl
    · rw [owes, hended l hl]
      exact Bool.false_ne_true
  · cases hlock : d.lock with
    | none => rfl
    | some i =>
        obtain ⟨l, hl, hlocked⟩ := (h.locked i).mp hlock
        rw [hended l (List.mem_of_getElem? hl)] at hlocked
        cases hlocked
  · have hsum : owed (fun l : Lookup => l.pos.uncounted) d.lookups = 0 := by
      rw [owed, List.sum_eq_zero]
      intro n hn
      obtain ⟨l, hl, rfl⟩ := List.mem_map.mp hn
      rw [hended l hl]
      rfl
    have htallied := h.tallied
    omega

end Ended

/-! ### The flow -/

/-- Where `serveDNSUDP` stands. -/
inductive Reader
  | reading
  /-- before `lp.WaitN`; `last` when the read failed as well -/
  | charging (d : Datagram) (last : Bool)
  | dialing (d : Datagram)
  | sending (d : Datagram)
  /-- `relayUDP` -/
  | relaying
  /-- before `client.Close` -/
  | closing
  /-- before `inflight.Wait` returns -/
  | waiting
  | released
deriving DecidableEq, Repr

/-- A flow to port 53 over UDP, with its lookups and both of its directions. -/
structure Flow where
  pos : Reader
  first : Bool
  handed : Bool
  isOpen : Bool
  /-- from the client, and those written to the host -/
  up : Datagrams
  down : Datagrams
  desk : Desk
deriving DecidableEq, Repr

/-- A flow that has been accepted. -/
def Flow.new : Flow := ⟨.reading, true, false, true, .new, .new, .new⟩

/-- What happens to a flow. -/
inductive Event
  | clientSends (ds : List Datagram)
  | hostSends (ds : List Datagram)
  /-- a datagram; `last` when the read fails as well -/
  | read (last : Bool)
  /-- an error: the flow idles, or is closed -/
  | fail
  | wait (ok : Bool)
  | dial (ok : Bool)
  /-- the write of the first datagram to the host -/
  | send (ok : Bool)
  | up (e : CopyLoop.Event)
  | down (e : CopyLoop.Event)
  /-- `relayUDP` returns -/
  | relayed
  | close
  | drained
  | lookup (i : Nat) (t : Turn)
deriving DecidableEq, Repr

/-- A pipe whose reader took a datagram of so many bytes. -/
def took (p : Datagrams) (n : Nat) : Datagrams :=
  { p with charged := p.charged + n, counted := p.counted + n }

/-- What follows the wait for a datagram. -/
def dispatch (lib : Library) (s : Flow) (d : Datagram) (last : Bool) : Flow :=
  if s.first && ! isQuery lib d then { s with pos := .dialing d }
  else if s.desk.slots < dnsFlowInFlight then
    { s with desk := s.desk.start d, first := false, pos := if last then .closing else .reading }
  -- the loop goes on here, also behind an error
  else { s with first := false, pos := .reading }

/-- A step of the flow. -/
def step (lib : Library) (s : Flow) : Event → Option Flow
  | .clientSends ds => some { s with up := s.up.arrive ds }
  | .hostSends ds => if s.pos = .relaying then some { s with down := s.down.arrive ds } else none
  | .read last =>
      match s.pos, s.up.inbox with
      | .reading, [] :: rest =>
          some { s with
            up := { s.up with inbox := rest }
            first := false
            pos := if last then .closing else .reading }
      | .reading, (b :: d) :: rest =>
          some { s with up := { s.up with inbox := rest }, pos := .charging (b :: d) last }
      | _, _ => none
  | .fail => if s.pos = .reading then some { s with pos := .closing } else none
  | .wait ok =>
      match s.pos, ok with
      | .charging d last, true => some (dispatch lib { s with up := took s.up d.length } d last)
      | .charging _ _, false => some { s with pos := .closing }
      | _, _ => none
  | .dial ok =>
      match s.pos with
      | .dialing d => some { s with pos := if ok then .sending d else .closing }
      | _ => none
  | .send ok =>
      match s.pos, ok with
      | .sending d, true =>
          some { s with up := { s.up with written := [d] }, handed := true, pos := .relaying }
      | .sending _, false => some { s with pos := .closing }
      | _, _ => none
  | .up e =>
      if s.pos = .relaying then
        (copy List.length 1 s.isOpen s.up e).map fun up =>
          { s with up := up, isOpen := s.isOpen && up.pump.runs }
      else none
  | .down e =>
      if s.pos = .relaying then
        (copy List.length 1 s.isOpen s.down e).map fun down =>
          { s with down := down, isOpen := s.isOpen && down.pump.runs }
      else none
  | .relayed =>
      if s.pos = .relaying ∧ s.up.pump = .ended ∧ s.down.pump = .ended then
        some { s with pos := .waiting }
      else none
  | .close => if s.pos = .closing then some { s with isOpen := false, pos := .waiting } else none
  | .drained => if s.pos = .waiting ∧ s.desk.inflight = 0 then some { s with pos := .released }
      else none
  | .lookup i t =>
      (s.desk.lookups[i]?).bind fun l =>
        (s.desk.next lib s.isOpen i l.query l.pos t).map fun desk => { s with desk := desk }

/-! ### What the flow keeps -/

/-- The datagram that is read, and not yet looked up or sent. -/
def Reader.hand : Reader → List Datagram
  | charging d _ | dialing d | sending d => [d]
  | reading | relaying | closing | waiting | released => []

/-- The flow may have been handed over. -/
def Reader.behind : Reader → Bool
  | reading | charging _ _ | dialing _ | sending _ | closing => false
  | relaying | waiting | released => true

/-- What holds where the reader stands, before the flow is handed over. -/
def Opening (lib : Library) (s : Flow) : Prop :=
  match s.pos with
  | .reading => s.first = true → s.up.arrived = s.up.inbox ∧ s.up.charged = 0
  | .charging d _ => d ≠ [] ∧ (s.first = true → s.up.arrived = d :: s.up.inbox ∧ s.up.charged = 0)
  | .dialing d | .sending d =>
      (s.first = true ∧ isQuery lib d = false ∧ d ≠ []) ∧ s.up.arrived = d :: s.up.inbox ∧
        s.up.charged = d.length
  | .relaying => False
  | .closing => True
  | .waiting => s.isOpen = false
  | .released => s.isOpen = false ∧ s.desk.inflight = 0

/-- What holds while the flow serves queries. -/
structure Serving (lib : Library) (s : Flow) : Prop where
  desk : Desk.Sound lib s.desk
  fresh : s.first = true → s.desk = .new
  idle : s.up.written = [] ∧ s.up.pump = .reading ∧ s.down = .new
  asked : ∃ taken, s.up.arrived = taken ++ s.up.inbox ∧
    (s.desk.lookups.map Lookup.query ++ s.pos.hand).Sublist (filled taken)
  even : s.up.counted = s.up.charged
  opening : Opening lib s

/-- What holds once the flow relays to the host. -/
structure Handed (lib : Library) (s : Flow) : Prop where
  desk : s.desk = .new
  up : Relayed s.up
  down : Relayed s.down
  begins : ∃ d rest more, s.up.arrived = d :: rest ∧ isQuery lib d = false ∧
    s.up.written = d :: more
  closed : s.up.pump = .ended ∨ s.down.pump = .ended → s.isOpen = false
  pos : s.pos.behind = true
  shut : s.pos ≠ .relaying → s.isOpen = false

/-- A datagram with a byte is passed on. -/
lemma filled_cons {d : Datagram} (hd : d ≠ []) (ds : List Datagram) :
    filled (d :: ds) = d :: filled ds :=
  List.filter_cons_of_pos (decide_eq_true (List.length_pos_iff.mpr hd))

section Serving

variable {lib : Library} {s s' : Flow}

lemma Serving.new : Serving lib .new where
  desk := .new
  fresh := fun _ => rfl
  idle := ⟨rfl, rfl, rfl⟩
  asked := ⟨[], rfl, List.Sublist.refl _⟩
  even := rfl
  opening := fun _ => ⟨rfl, rfl⟩

lemma Serving.arrive (h : Serving lib s) (ds : List Datagram) :
    Serving lib { s with up := s.up.arrive ds } where
  desk := h.desk
  fresh := h.fresh
  idle := h.idle
  asked := by
    obtain ⟨taken, harrived, hsub⟩ := h.asked
    refine ⟨taken, ?_, hsub⟩
    show s.up.arrived ++ ds = taken ++ (s.up.inbox ++ ds)
    rw [harrived, List.append_assoc]
  even := h.even
  opening := by
    have hopening := h.opening
    unfold Opening at hopening ⊢
    dsimp only
    split <;> rename_i hpos <;> rw [hpos] at hopening
    · intro hfirst
      obtain ⟨harrived, hcharged⟩ := hopening hfirst
      exact ⟨congrArg (· ++ ds) harrived, hcharged⟩
    · refine ⟨hopening.1, fun hfirst => ?_⟩
      obtain ⟨harrived, hcharged⟩ := hopening.2 hfirst
      exact ⟨congrArg (· ++ ds) harrived, hcharged⟩
    all_goals first
      | exact ⟨hopening.1, congrArg (· ++ ds) hopening.2.1, hopening.2.2⟩
      | exact hopening

/-- The reader gives up. -/
lemma Serving.stop (h : Serving lib s) : Serving lib { s with pos := .closing } where
  desk := h.desk
  fresh := h.fresh
  idle := h.idle
  asked := by
    obtain ⟨taken, harrived, hsub⟩ := h.asked
    refine ⟨taken, harrived, ?_⟩
    show (s.desk.lookups.map Lookup.query ++ []).Sublist (filled taken)
    rw [List.append_nil]
    exact (List.sublist_append_left _ _).trans hsub
  even := h.even
  opening := trivial

/-- What is asked of what was read, once the datagram in front is read. -/
lemma asked_read (h : Serving lib s) {d : Datagram} {rest : List Datagram}
    (hinbox : s.up.inbox = d :: rest) (hpos : s.pos = .reading) :
    ∃ taken, s.up.arrived = taken ++ d :: rest ∧
      (s.desk.lookups.map Lookup.query).Sublist (filled taken) := by
  obtain ⟨taken, harrived, hsub⟩ := h.asked
  rw [hpos, Reader.hand, List.append_nil] at hsub
  exact ⟨taken, by rw [harrived, hinbox], hsub⟩

lemma Serving.skip (h : Serving lib s) {rest : List Datagram} (hpos : s.pos = .reading)
    (hinbox : s.up.inbox = [] :: rest) (last : Bool) :
    Serving lib
      { s with
        up := { s.up with inbox := rest }, first := false
        pos := if last then .closing else .reading } where
  desk := h.desk
  fresh := fun hno => by cases hno
  idle := h.idle
  asked := by
    obtain ⟨taken, harrived, hsub⟩ := asked_read h hinbox hpos
    refine ⟨taken ++ [[]], by rw [harrived, List.append_assoc]; rfl, ?_⟩
    have hhand : (if last then Reader.closing else .reading).hand = [] := by cases last <;> rfl
    show (s.desk.lookups.map Lookup.query ++
      (if last then Reader.closing else .reading).hand).Sublist _
    rw [hhand, List.append_nil, filled, kept_append]
    exact hsub.trans (List.sublist_append_left _ _)
  even := h.even
  opening := by
    cases last with
    | true => trivial
    | false => exact fun hno => (by cases hno)

lemma Serving.read (h : Serving lib s) {d : Datagram} {rest : List Datagram}
    (hpos : s.pos = .reading) (hinbox : s.up.inbox = d :: rest) (hd : d ≠ []) (last : Bool) :
    Serving lib { s with up := { s.up with inbox := rest }, pos := .charging d last } where
  desk := h.desk
  fresh := h.fresh
  idle := h.idle
  asked := by
    obtain ⟨taken, harrived, hsub⟩ := asked_read h hinbox hpos
    refine ⟨taken ++ [d], by rw [harrived, List.append_assoc]; rfl, ?_⟩
    show (s.desk.lookups.map Lookup.query ++ [d]).Sublist _
    rw [filled, kept_append]
    exact hsub.append (by rw [← filled, filled_cons hd]; exact List.Sublist.refl _)
  even := h.even
  opening := by
    refine ⟨hd, fun hfirst => ?_⟩
    have hopening := h.opening
    rw [Opening, hpos] at hopening
    obtain ⟨harrived, hcharged⟩ := hopening hfirst
    exact ⟨by rw [harrived, hinbox], hcharged⟩

/-- A datagram that is paid for is sent to the host, looked up or dropped. -/
lemma Serving.dispatch (h : Serving lib s) {d : Datagram} {last : Bool}
    (hpos : s.pos = .charging d last) :
    Serving lib (DnsUdp.dispatch lib { s with up := took s.up d.length } d last) ∧
      (DnsUdp.dispatch lib { s with up := took s.up d.length } d last).handed = s.handed := by
  obtain ⟨hdesk, hfresh, hidle, ⟨taken, harrived, hsub⟩, heven, hopening⟩ := h
  rw [hpos] at hsub
  rw [Opening, hpos] at hopening
  obtain ⟨hd, hopening⟩ := hopening
  have heven' : (took s.up d.length).counted = (took s.up d.length).charged :=
    congrArg (· + d.length) heven
  unfold DnsUdp.dispatch
  split
  · rename_i hfirst
    rw [Bool.and_eq_true, Bool.not_eq_true'] at hfirst
    obtain ⟨hfirst, hquery⟩ := hfirst
    obtain ⟨hall, hcharged⟩ := hopening hfirst
    refine ⟨⟨hdesk, hfresh, hidle, ⟨taken, harrived, hsub⟩, heven', ⟨hfirst, hquery, hd⟩, hall, ?_⟩,
      rfl⟩
    show s.up.charged + d.length = d.length
    rw [hcharged, Nat.zero_add]
  split
  · rename_i hroom
    refine ⟨⟨hdesk.start hroom d, fun hno => (by cases hno), hidle, ⟨taken, harrived, ?_⟩, heven',
      ?_⟩, rfl⟩
    · have hhand : (if last then Reader.closing else .reading).hand = [] := by cases last <;> rfl
      show ((s.desk.lookups ++ [(⟨d, .asking⟩ : Lookup)]).map Lookup.query ++
        (if last then Reader.closing else .reading).hand).Sublist _
      rw [hhand, List.append_nil, List.map_append]
      exact hsub
    · cases last with
      | true => trivial
      | false => exact fun hno => (by cases hno)
  · refine ⟨⟨hdesk, fun hno => (by cases hno), hidle, ⟨taken, harrived, ?_⟩, heven',
      fun hno => (by cases hno)⟩, rfl⟩
    show (s.desk.lookups.map Lookup.query ++ []).Sublist (filled taken)
    rw [List.append_nil]
    exact (List.sublist_append_left _ _).trans hsub

lemma Serving.dial (h : Serving lib s) {d : Datagram} (hpos : s.pos = .dialing d) :
    Serving lib { s with pos := .sending d } where
  desk := h.desk
  fresh := h.fresh
  idle := h.idle
  asked := by
    have hasked := h.asked
    rwa [hpos] at hasked
  even := h.even
  opening := by
    have hopening := h.opening
    rwa [Opening, hpos] at hopening

lemma Serving.close (h : Serving lib s) (hpos : s.pos = .closing) :
    Serving lib { s with isOpen := false, pos := .waiting } where
  desk := h.desk
  fresh := h.fresh
  idle := h.idle
  asked := by
    have hasked := h.asked
    rwa [hpos] at hasked
  even := h.even
  opening := rfl

lemma Serving.drain (h : Serving lib s) (hpos : s.pos = .waiting) (hnone : s.desk.inflight = 0) :
    Serving lib { s with pos := .released } where
  desk := h.desk
  fresh := h.fresh
  idle := h.idle
  asked := by
    have hasked := h.asked
    rwa [hpos] at hasked
  even := h.even
  opening := by
    have hopening := h.opening
    rw [Opening, hpos] at hopening
    exact ⟨hopening, hnone⟩

/-- The first datagram goes to the host. -/
lemma Serving.hand (h : Serving lib s) {d : Datagram} (hpos : s.pos = .sending d) :
    Handed lib { s with up := { s.up with written := [d] }, handed := true, pos := .relaying } := by
  obtain ⟨-, hfresh, ⟨-, hpump, hdown⟩, -, heven, hopening⟩ := h
  rw [Opening, hpos] at hopening
  obtain ⟨⟨hfirst, hquery, hd⟩, harrived, hcharged⟩ := hopening
  have hkept : filled s.up.arrived = d :: filled s.up.inbox := by rw [harrived, filled_cons hd]
  refine ⟨hfresh hfirst, ⟨fun _ => ?_, ?_, ?_, ?_, ?_⟩, ?_,
    ⟨d, s.up.inbox, [], harrived, hquery, rfl⟩, ?_, rfl, fun hno => absurd rfl hno⟩
  · rw [hpump, Pump.hand, List.nil_append]
    exact hkept.symm
  · show [d] <+: filled s.up.arrived
    rw [hkept]
    exact ⟨_, rfl⟩
  · rw [hpump, Pump.paid, hcharged]
    simp [weight]
  · rw [hpump, Pump.paid]
    exact le_of_eq heven
  · rw [hpump]
    exact Nat.zero_le _
  · rw [show ({ s with
        up := { s.up with written := [d] }, handed := true, pos := .relaying } : Flow).down = s.down
      from rfl, hdown]
    exact CopyLoop.Sound.new
  · rintro (hup | hno)
    · have hended : s.up.pump = .ended := hup
      rw [hpump] at hended
      cases hended
    · have hended : s.down.pump = .ended := hno
      rw [hdown] at hended
      cases hended

end Serving

section Run

variable {lib : Library} {s s' : Flow} {e : Event}

/-- A lookup makes a step. -/
lemma Serving.turn (h : Serving lib s) {i : Nat} {l : Lookup} {t : Turn} {desk : Desk}
    (hl : s.desk.lookups[i]? = some l)
    (hnext : s.desk.next lib s.isOpen i l.query l.pos t = some desk) :
    Serving lib { s with desk := desk } := by
  obtain ⟨query, pos⟩ := l
  obtain ⟨pos', hmoves⟩ := moves_of_next hnext
  have hqueries : desk.lookups.map Lookup.query = s.desk.lookups.map Lookup.query := by
    rw [hmoves.lookups, List.map_set]
    refine List.ext_getElem? fun j => ?_
    rw [List.getElem?_set]
    split
    · rename_i hj
      subst hj
      rw [List.getElem?_map, hl]
      simp [(List.getElem?_eq_some_iff.mp hl).1]
    · rfl
  refine ⟨h.desk.move hl hmoves, fun hfirst => ?_, h.idle, ?_, h.even, ?_⟩
  · rw [h.fresh hfirst] at hl
    cases hl
  · obtain ⟨taken, harrived, hsub⟩ := h.asked
    refine ⟨taken, harrived, ?_⟩
    show (desk.lookups.map Lookup.query ++ s.pos.hand).Sublist (filled taken)
    rwa [hqueries]
  · have hopening := h.opening
    unfold Opening at hopening ⊢
    dsimp only
    split <;> rename_i hpos <;> rw [hpos] at hopening
    case h_8 =>
      rw [h.desk.ended hopening.2 _ (List.mem_of_getElem? hl)] at hnext
      cases t <;> cases hnext
    all_goals exact hopening

/-- What holds before the flow is handed over, and from then on. -/
def Flow.Sound (lib : Library) (s : Flow) : Prop := if s.handed then Handed lib s else Serving lib s

lemma Serving.step (h : Serving lib s) (hserved : s.handed = false)
    (hstep : step lib s e = some s') : Flow.Sound lib s' := by
  have hkeep : ∀ {t : Flow}, t.handed = s.handed → Serving lib t → Flow.Sound lib t :=
    fun ht hs => by
    rwa [Flow.Sound, ht, hserved]
  have hnot : s.pos ≠ .relaying := fun hpos => by
    have hopening := h.opening
    rwa [Opening, hpos] at hopening
  cases e with
  | clientSends ds =>
      cases hstep
      exact hkeep rfl (h.arrive ds)
  | hostSends ds => cases (if_neg hnot).symm.trans hstep
  | read last =>
      simp only [DnsUdp.step] at hstep
      split at hstep
      · rename_i rest hpos hinbox
        cases hstep
        exact hkeep rfl (h.skip hpos hinbox last)
      · rename_i b d rest hpos hinbox
        cases hstep
        exact hkeep rfl (h.read hpos hinbox (List.cons_ne_nil b d) last)
      · cases hstep
  | fail =>
      simp only [DnsUdp.step] at hstep
      split at hstep <;> cases hstep
      exact hkeep rfl h.stop
  | wait ok =>
      simp only [DnsUdp.step] at hstep
      split at hstep
      · cases hstep
        obtain ⟨hs, hhanded⟩ := h.dispatch ‹_›
        exact hkeep hhanded hs
      · cases hstep
        exact hkeep rfl h.stop
      · cases hstep
  | dial ok =>
      simp only [DnsUdp.step] at hstep
      split at hstep
      · rename_i d hpos
        cases hstep
        cases ok with
        | true => exact hkeep rfl (h.dial hpos)
        | false => exact hkeep rfl h.stop
      · cases hstep
  | send ok =>
      simp only [DnsUdp.step] at hstep
      split at hstep
      · cases hstep
        exact h.hand ‹_›
      · cases hstep
        exact hkeep rfl h.stop
      · cases hstep
  | up e => cases (if_neg hnot).symm.trans hstep
  | down e => cases (if_neg hnot).symm.trans hstep
  | relayed => cases (if_neg fun hno => hnot hno.1).symm.trans hstep
  | close =>
      simp only [DnsUdp.step] at hstep
      split at hstep <;> cases hstep
      exact hkeep rfl (h.close ‹_›)
  | drained =>
      simp only [DnsUdp.step] at hstep
      split at hstep
      · rename_i hpos
        cases hstep
        exact hkeep rfl (h.drain hpos.1 hpos.2)
      · cases hstep
  | lookup i t =>
      obtain ⟨l, hl, hturn⟩ := Option.bind_eq_some_iff.mp hstep
      obtain ⟨desk, hnext, rfl⟩ := Option.map_eq_some_iff.mp hturn
      exact hkeep rfl (h.turn hl hnext)

lemma Handed.step (h : Handed lib s) (hhanded : s.handed = true) (hstep : step lib s e = some s') :
    Flow.Sound lib s' := by
  have hkeep : ∀ {t : Flow}, t.handed = s.handed → Handed lib t → Flow.Sound lib t :=
    fun ht hs => by
    rwa [Flow.Sound, ht, hhanded]
  obtain ⟨hdesk, hup, hdown, ⟨d, rest, more, harrived, hquery, hwritten⟩, hclosed, hpos, hshut⟩ := h
  have hnot : ∀ {pos : Reader}, pos.behind = false → s.pos ≠ pos := fun hbefore heq => by
    rw [heq, hbefore] at hpos
    cases hpos
  cases e with
  | clientSends ds =>
      cases hstep
      refine hkeep rfl ⟨hdesk, hup.arrive ds, hdown, ⟨d, rest ++ ds, more, ?_, hquery, hwritten⟩,
        hclosed, hpos, hshut⟩
      show s.up.arrived ++ ds = d :: (rest ++ ds)
      rw [harrived, List.cons_append]
  | hostSends ds =>
      simp only [DnsUdp.step] at hstep
      split at hstep <;> cases hstep
      exact hkeep rfl
        ⟨hdesk, hup, hdown.arrive ds, ⟨d, rest, more, harrived, hquery, hwritten⟩, hclosed, hpos,
          hshut⟩
  | read last =>
      simp only [DnsUdp.step] at hstep
      split at hstep
      · exact absurd ‹_› (hnot rfl)
      · exact absurd ‹_› (hnot rfl)
      · cases hstep
  | fail => cases (if_neg (hnot rfl)).symm.trans hstep
  | wait ok =>
      simp only [DnsUdp.step] at hstep
      split at hstep
      · exact absurd ‹_› (hnot rfl)
      · exact absurd ‹_› (hnot rfl)
      · cases hstep
  | dial ok =>
      simp only [DnsUdp.step] at hstep
      split at hstep
      · exact absurd ‹_› (hnot rfl)
      · cases hstep
  | send ok =>
      simp only [DnsUdp.step] at hstep
      split at hstep
      · exact absurd ‹_› (hnot rfl)
      · exact absurd ‹_› (hnot rfl)
      · cases hstep
  | up e =>
      simp only [DnsUdp.step] at hstep
      split at hstep
      · rename_i hrelaying
        obtain ⟨up, hcopy, rfl⟩ := Option.map_eq_some_iff.mp hstep
        have hcopies := copy_copies hcopy
        obtain ⟨hsame, tail, hmore⟩ := hcopies.keeps
        refine hkeep rfl ⟨hdesk, hup.step hcopies, hdown, ⟨d, rest, more ++ tail, ?_, hquery, ?_⟩,
          ?_, hpos, ?_⟩
        · exact hsame.trans harrived
        · show up.written = d :: (more ++ tail)
          rw [← hmore, hwritten, List.cons_append]
        · rintro (hended | hended)
          · simp [show up.pump = .ended from hended, Pump.runs]
          · simp [hclosed (.inr hended)]
        · exact fun hno => absurd hrelaying hno
      · cases hstep
  | down e =>
      simp only [DnsUdp.step] at hstep
      split at hstep
      · rename_i hrelaying
        obtain ⟨down, hcopy, rfl⟩ := Option.map_eq_some_iff.mp hstep
        refine hkeep rfl ⟨hdesk, hup, hdown.step (copy_copies hcopy),
          ⟨d, rest, more, harrived, hquery, hwritten⟩, ?_, hpos, fun hno => absurd hrelaying hno⟩
        rintro (hended | hended)
        · simp [hclosed (.inl hended)]
        · simp [show down.pump = .ended from hended, Pump.runs]
      · cases hstep
  | relayed =>
      simp only [DnsUdp.step] at hstep
      split at hstep
      · rename_i hends
        cases hstep
        exact hkeep rfl ⟨hdesk, hup, hdown, ⟨d, rest, more, harrived, hquery, hwritten⟩, hclosed,
          rfl, fun _ => hclosed (.inl hends.2.1)⟩
      · cases hstep
  | close => cases (if_neg (hnot rfl)).symm.trans hstep
  | drained =>
      simp only [DnsUdp.step] at hstep
      split at hstep
      · rename_i hwaiting
        cases hstep
        refine hkeep rfl ⟨hdesk, hup, hdown, ⟨d, rest, more, harrived, hquery, hwritten⟩, hclosed,
          rfl, fun _ => hshut ?_⟩
        rw [hwaiting.1]
        simp
      · cases hstep
  | lookup i t =>
      rw [DnsUdp.step, hdesk] at hstep
      cases hstep

lemma sound_of_reachable (h : Reachable (step lib) .new s) : Flow.Sound lib s := by
  refine h.induction (show Flow.Sound lib .new from Serving.new) fun s e s' hs hstep => ?_
  unfold Flow.Sound at hs
  split at hs
  · exact hs.step ‹_› hstep
  · exact hs.step (by simpa using ‹¬ s.handed = true›) hstep

/-- The lookups of a flow, whether it is handed over or not. -/
lemma desk_of_reachable (h : Reachable (step lib) .new s) : Desk.Sound lib s.desk := by
  have hs := sound_of_reachable h
  unfold Flow.Sound at hs
  split at hs
  · rw [hs.desk]
    exact .new
  · exact hs.desk

/-- **No more lookups than the limit hold a slot, and one writes at a time**; a
flow that is released has left nothing behind: the client is closed, all lookups
have ended, and what was written is counted. -/
theorem lookups_bounded (h : Reachable (step lib) .new s) :
    ((s.desk.lookups.countP (owes · .slots)) : Int) ≤ dnsFlowInFlight ∧
      (∀ (i j : ℕ) (l l' : Lookup), s.desk.lookups[i]? = some l → s.desk.lookups[j]? = some l' →
        l.pos.locked = true → l'.pos.locked = true → i = j) ∧
      (s.pos = .released → s.isOpen = false ∧ (∀ l ∈ s.desk.lookups, l.pos = .ended) ∧
        s.desk.slots = 0 ∧ s.desk.lock = none ∧ s.desk.counted = s.desk.sent) := by
  have hdesk := desk_of_reachable h
  refine ⟨hdesk.bounded, fun i j l l' hl hl' hlocked hlocked' => ?_, fun hreleased => ?_⟩
  · have hi := (hdesk.locked i).mpr ⟨l, hl, hlocked⟩
    have hj := (hdesk.locked j).mpr ⟨l', hl', hlocked'⟩
    exact Option.some.inj (hi.symm.trans hj)
  · have hs := sound_of_reachable h
    have hdone : s.isOpen = false ∧ s.desk.inflight = 0 := by
      unfold Flow.Sound at hs
      split at hs
      · refine ⟨hs.shut ?_, ?_⟩
        · rw [hreleased]
          simp
        · rw [hs.desk]
          rfl
      · have hopening := hs.opening
        rwa [Opening, hreleased] at hopening
    exact ⟨hdone.1, hdesk.ended hdone.2, hdesk.left_nothing hdone.2⟩

/-- **Every datagram that goes back is an answer to a datagram of the client,
fitted to it, and the only one**; it is no longer than the client can take,
unless the library keeps more of a message than the least a client takes; the
lookups are for datagrams that arrived, in order, and all that is written is paid
for. -/
theorem answers_fitted (h : Reachable (step lib) .new s) :
    (∀ a ∈ s.desk.answered, ∃ l, s.desk.lookups[a.1]? = some l ∧ Fitted lib l.query a.2 ∧
      ((∀ whole out, lib.truncated whole = some out → out.length ≤ minUDP) →
        a.2.length ≤ udpLimit lib l.query)) ∧
      (s.desk.answered.map Prod.fst).Nodup ∧
      (s.desk.lookups.map Lookup.query).Sublist (filled s.up.arrived) ∧
      s.desk.sent ≤ s.desk.charged ∧ s.desk.counted ≤ s.desk.sent := by
  have hdesk := desk_of_reachable h
  refine ⟨fun a ha => ?_, hdesk.once, ?_, ?_, ?_⟩
  · obtain ⟨l, hl, -, hfitted⟩ := hdesk.answers a ha
    exact ⟨l, hl, hfitted, hfitted.length_le⟩
  · have hs := sound_of_reachable h
    unfold Flow.Sound at hs
    split at hs
    · rw [hs.desk]
      exact List.nil_sublist _
    · obtain ⟨taken, harrived, hsub⟩ := hs.asked
      rw [harrived, filled, kept_append]
      exact ((List.sublist_append_left _ _).trans hsub).trans (List.sublist_append_left _ _)
  · have hpaid := hdesk.paid
    omega
  · have htallied := hdesk.tallied
    omega

/-- **Only a first datagram hands the flow over, which is then relayed whole**:
it is no query and had no lookup, and both sides get the datagrams with a byte
that the other one sent, in order and paid for; all of them, while a direction
runs.  Any other flow has sent nothing to the host. -/
theorem first_handed (h : Reachable (step lib) .new s) :
    if s.handed then
      (s.desk.lookups = [] ∧ s.desk.answered = []) ∧
        (∃ d rest, s.up.arrived = d :: rest ∧ isQuery lib d = false ∧ [d] <+: s.up.written) ∧
        (s.up.written <+: filled s.up.arrived ∧ s.down.written <+: filled s.down.arrived) ∧
        (bytesOf s.up.written ≤ s.up.charged ∧ bytesOf s.down.written ≤ s.down.charged) ∧
        (s.up.counted ≤ s.up.charged ∧ s.down.counted ≤ s.down.charged) ∧
        (s.up.pump = .reading → s.up.inbox = [] → s.up.written = filled s.up.arrived) ∧
        (s.down.pump = .reading → s.down.inbox = [] → s.down.written = filled s.down.arrived) ∧
        (s.pos ≠ .relaying → s.isOpen = false)
    else s.up.written = [] ∧ s.down = .new ∧ s.up.counted = s.up.charged := by
  have hs := sound_of_reachable h
  unfold Flow.Sound at hs
  split at hs
  · rename_i hhanded
    rw [if_pos hhanded]
    obtain ⟨d, rest, more, harrived, hquery, hwritten⟩ := hs.begins
    refine ⟨?_, ⟨d, rest, harrived, hquery, ?_⟩, ⟨hs.up.written, hs.down.written⟩,
      ⟨hs.up.weight_written_le, hs.down.weight_written_le⟩, ⟨hs.up.counted_le, hs.down.counted_le⟩,
      hs.up.written_eq, hs.down.written_eq, hs.shut⟩
    · rw [hs.desk]
      exact ⟨rfl, rfl⟩
    · rw [hwritten]
      exact ⟨more, rfl⟩
  · rename_i hserved
    rw [if_neg hserved]
    exact ⟨hs.idle.1, hs.idle.2.2, hs.even⟩

end Run

/-! ### Two flows -/

/-- Two queries whose answers come back in the other order; the flow idles, and is
released. -/
def twoQueries : List Event :=
  [.clientSends [query 5, query 6], .read false, .wait true, .read false, .wait true,
    .lookup 1 (.exchange (.plain (answer 6))), .lookup 1 (.wait true),
    .lookup 0 (.exchange (.encrypted (answer 5))), .lookup 1 .lock, .lookup 0 (.wait true),
    .lookup 1 (.write true), .lookup 1 .unlock, .lookup 0 .lock, .fail, .lookup 0 (.write true),
    .lookup 0 .unlock, .lookup 0 .count, .lookup 1 .count, .close, .lookup 0 .free, .lookup 0 .done,
    .lookup 1 .free, .lookup 1 .done, .drained]

lemma exec_twoQueries : ∃ s, exec (step headerOnly) .new twoQueries = some s ∧ s.pos = .released ∧
    s.desk.answered = [(1, answer 6), (0, answer 5)] ∧ s.desk.charged = 34 :=
      ⟨_, rfl, rfl, rfl, rfl⟩

theorem lookups_bounded_twoQueries : ∃ s, exec (step headerOnly) .new twoQueries = some s ∧
    s.isOpen = false ∧ s.desk.slots = 0 := by
  obtain ⟨s, hexec, hreleased, -⟩ := exec_twoQueries
  obtain ⟨-, -, hleft⟩ := lookups_bounded ⟨_, hexec⟩
  obtain ⟨hclosed, -, hslots, -⟩ := hleft hreleased
  exact ⟨s, hexec, hclosed, hslots⟩

theorem answers_fitted_twoQueries : ∃ s, exec (step headerOnly) .new twoQueries = some s ∧
    (∃ l, s.desk.lookups[1]? = some l ∧ Fitted headerOnly l.query (answer 6) ∧
      (answer 6).length ≤ udpLimit headerOnly l.query) ∧ s.desk.sent ≤ 34 := by
  obtain ⟨s, hexec, -, hanswered, hcharged⟩ := exec_twoQueries
  obtain ⟨hfitted, -, -, hpaid, -⟩ := answers_fitted ⟨_, hexec⟩
  obtain ⟨l, hl, hanswer, hsize⟩ :=
    hfitted (1, answer 6) (by rw [hanswered]; exact List.mem_cons_self)
  exact ⟨s, hexec, ⟨l, hl, hanswer, hsize fun _ _ hnone => by cases hnone⟩, hcharged ▸ hpaid⟩

/-- A first datagram that is no query, and the reply of the host. -/
def noQuery : List Event :=
  [.clientSends [[72, 105]], .read false, .wait true, .dial true, .send true, .hostSends [[79, 75]],
    .down (.read 1 false), .down (.wait true), .down (.write none)]

theorem first_handed_noQuery : ∃ s, exec (step headerOnly) .new noQuery = some s ∧
    s.desk.lookups = [] ∧ s.up.written <+: [[72, 105]] ∧ s.down.written = [[79, 75]] := by
  obtain ⟨s, hexec, hhanded, harrived, hpump, hinbox, hreplies⟩ :
      ∃ s, exec (step headerOnly) .new noQuery = some s ∧ s.handed = true ∧
        filled s.up.arrived = [[72, 105]] ∧ s.down.pump = .reading ∧ s.down.inbox = [] ∧
          filled s.down.arrived = [[79, 75]] := ⟨_, rfl, rfl, rfl, rfl, rfl, rfl⟩
  have hs := first_handed ⟨_, hexec⟩
  rw [if_pos hhanded] at hs
  obtain ⟨⟨hnone, -⟩, -, ⟨hup, -⟩, -, -, -, hdown, -⟩ := hs
  exact ⟨s, hexec, hnone, harrived ▸ hup, hreplies ▸ hdown hpump hinbox⟩

end CumulusVpn.DnsUdp
