/-
The lookups of all flows, which share one proxy (`Exchange` of
`gateway/internal/dnsproxy/proxy.go`).

Every operation of a lookup on the shared slots and counters is a step of its
own, in any order with those of the other lookups.

* `At`, `Lookup`, `Proxy`: where a lookup stands, the slots and the counters;
  `step`;
* `owes`: what a lookup has added to a counter; `Account`: every counter shows
  what the lookups owe, and `Account.step`;
* `Outcome.Suits`: what may be returned for a query; `Settled`: what a lookup
  has to show for where it stands;
* `lookups_accounted`: **no more lookups than the limit are in flight, and each
  is counted once**;
* `outcome_suits`: **what is returned suits the query**.
-/
import CumulusVpn.Lib.SlotAccounts
import CumulusVpn.Lib.StepSystem
import CumulusVpn.Gateway.DnsMessage

namespace CumulusVpn.Lookups

open Egress SlotAccounts StepSystem

/-! ### Lookups -/

/-- What `Exchange` returns. -/
inductive Outcome
  | notHandled
  | notDNS
  /-- shed, with all slots taken -/
  | busy
  /-- over HTTPS -/
  | encrypted (resp : Msg)
  /-- as ordinary DNS -/
  | plain (resp : Msg)
  | failed
deriving DecidableEq, Repr

/-- Where a lookup stands. -/
inductive At
  | arrived
  /-- before `available` -/
  | admitted
  /-- DoH -/
  | attempting
  /-- before `encrypted.Add(1)` -/
  | encrypting (resp : Msg)
  /-- before `fallbacks.Add(1)` -/
  | falling
  | asking
  /-- before `failed.Add(1)` -/
  | failing
  /-- before the slot is given back -/
  | leaving (o : Outcome)
  | ended (o : Outcome)
deriving DecidableEq, Repr

/-- A call of `exchange`, at one of its operations. -/
structure Lookup where
  dst : Ip
  query : Msg
  pos : At
deriving DecidableEq, Repr

/-- How a `Proxy` is built. -/
structure Setting where
  lib : Library
  provs : List Provider
  maxInFlight : Int

/-- The capacity of `slots`. -/
def Setting.capacity (env : Setting) : Nat :=
  if env.maxInFlight ≤ 0 then 512 else env.maxInFlight.toNat

/-- The resolvers by their addresses. -/
def Setting.resolvers (env : Setting) : Resolvers := .new env.provs

/-- The proxy: its slots, its counters, and its lookups. -/
structure Proxy where
  slots : Int
  encrypted : Int
  fallbacks : Int
  failed : Int
  lookups : List Lookup
deriving DecidableEq, Repr

/-- A proxy before its first lookup. -/
def Proxy.new : Proxy := ⟨0, 0, 0, 0, []⟩

/-- What happens to a lookup. -/
inductive Event
  | exchange (dst : Ip) (query : Msg)
  /-- the checks, and the send to `slots` -/
  | enter (i : Nat)
  | available (i : Nat) (yes : Bool)
  /-- DoH ends, and `record` of the provider's breaker -/
  | doh (i : Nat) (reply : Option Reply)
  /-- the next addition to a counter -/
  | count (i : Nat)
  /-- what the resolver sends to `plainExchange` before the deadline -/
  | plain (i : Nat) (datagrams : List Msg) (stream : List UInt8)
  | leave (i : Nat)
deriving DecidableEq, Repr

namespace Proxy

variable (env : Setting)

/-- Lookup `i` goes on to another position. -/
def move (p : Proxy) (i : Nat) (l : Lookup) (pos : At) : Proxy :=
  { p with lookups := p.lookups.set i { l with pos := pos } }

/-- The checks of a lookup, in their order, and the slot it takes. -/
def enter (p : Proxy) (i : Nat) (l : Lookup) : Proxy :=
  if ! env.resolvers.handles l.dst then p.move i l (.ended .notHandled)
  else if ! isQuery env.lib l.query then p.move i l (.ended .notDNS)
  else if p.slots < env.capacity then { p.move i l .admitted with slots := p.slots + 1 }
  else p.move i l (.ended .busy)

/-- A step of one lookup. -/
def next (p : Proxy) (i : Nat) (l : Lookup) : At → Event → Option Proxy
  | .arrived, .enter _ => some (p.enter env i l)
  | .admitted, .available _ yes => some (p.move i l (if yes then .attempting else .falling))
  | .attempting, .doh _ reply =>
      match dohExchange env.lib l.query reply with
      | some resp => some (p.move i l (.encrypting resp))
      | none => some (p.move i l .falling)
  | .encrypting resp, .count _ =>
      some { p.move i l (.leaving (.encrypted resp)) with encrypted := p.encrypted + 1 }
  | .falling, .count _ => some { p.move i l .asking with fallbacks := p.fallbacks + 1 }
  | .asking, .plain _ datagrams stream =>
      match plainExchange env.lib l.query datagrams stream with
      | some resp => some (p.move i l (.leaving (.plain resp)))
      | none => some (p.move i l .failing)
  | .failing, .count _ => some { p.move i l (.leaving .failed) with failed := p.failed + 1 }
  | .leaving o, .leave _ => some { p.move i l (.ended o) with slots := p.slots - 1 }
  | _, _ => none

end Proxy

/-- The lookup that an event is about. -/
def Event.lookup : Event → Option Nat
  | .exchange _ _ => none
  | .enter i | .available i _ | .doh i _ | .count i | .plain i _ _ | .leave i => some i

/-- The proxy after an event; none where the lookup is not at it. -/
def step (env : Setting) (p : Proxy) (e : Event) : Option Proxy :=
  match e, e.lookup with
  | .exchange dst query, _ => some { p with lookups := p.lookups ++ [⟨dst, query, .arrived⟩] }
  | e, some i => (p.lookups[i]?).bind fun l => p.next env i l l.pos e
  | _, none => none

/-! ### The accounts -/

/-- The counters of the proxy. -/
inductive Counter
  | slots
  | encrypted
  | fallbacks
  | failed
deriving DecidableEq, Repr

/-- What a counter shows. -/
def Proxy.count (p : Proxy) : Counter → Int
  | .slots => p.slots
  | .encrypted => p.encrypted
  | .fallbacks => p.fallbacks
  | .failed => p.failed

/-- What an outcome has added to the lifetime counters. -/
def Outcome.owes : Outcome → Counter → Bool
  | .encrypted _, .encrypted => true
  | .plain _, .fallbacks => true
  | .failed, .fallbacks | .failed, .failed => true
  | _, _ => false

/-- What a lookup has added to a counter, and not taken back. -/
def At.owes : At → Counter → Bool
  | .arrived, _ => false
  | .ended o, k => o.owes k
  | _, .slots => true
  | .asking, .fallbacks | .failing, .fallbacks => true
  | .leaving o, k => o.owes k
  | _, _ => false

/-- The lookup has yet to give back what it took. -/
def owes (l : Lookup) (k : Counter) : Bool := l.pos.owes k

/-- What may be returned for a query to a known resolver. -/
def Outcome.Suits (lib : Library) (query : Msg) : Outcome → Prop
  | .notHandled => False
  | .notDNS => isQuery lib query = false
  | .encrypted resp | .plain resp => isQuery lib query = true ∧ Answers query resp
  | .busy | .failed => isQuery lib query = true

instance (lib : Library) (query : Msg) : ∀ o : Outcome, Decidable (o.Suits lib query)
  | .notHandled => inferInstanceAs (Decidable False)
  | .notDNS => inferInstanceAs (Decidable (_ = _))
  | .encrypted _ | .plain _ => inferInstanceAs (Decidable (_ ∧ _))
  | .busy | .failed => inferInstanceAs (Decidable (_ = _))

/-- What a lookup has to show for where it stands. -/
def Settled (env : Setting) (l : Lookup) : Prop :=
  match l.pos with
  | .arrived => True
  | .ended .notHandled => env.resolvers.handles l.dst = false
  | .ended o => env.resolvers.handles l.dst = true ∧ o.Suits env.lib l.query
  | .encrypting resp | .leaving (.encrypted resp) | .leaving (.plain resp) =>
      env.resolvers.handles l.dst = true ∧ isQuery env.lib l.query = true ∧ Answers l.query resp
  | .leaving .failed => env.resolvers.handles l.dst = true ∧ isQuery env.lib l.query = true
  | .leaving _ => False
  | .admitted | .attempting | .falling | .asking | .failing =>
      env.resolvers.handles l.dst = true ∧ isQuery env.lib l.query = true

section Account

variable {env : Setting} {p p' : Proxy} {i : Nat} {l : Lookup} {e : Event}

/-- **What a step of a lookup does**: it moves, and changes the counters by
what it then owes more; it takes a slot only where one is free. -/
structure Moves (env : Setting) (p : Proxy) (i : Nat) (l : Lookup) (pos : At)
    (p' : Proxy) : Prop where
  lookups : p'.lookups = p.lookups.set i { l with pos := pos }
  count : ∀ k, p'.count k = p.count k + debt owes { l with pos := pos } k - debt owes l k
  room : pos.owes .slots = true → l.pos.owes .slots = true ∨ p.slots + 1 ≤ env.capacity
  settled : Settled env l → Settled env { l with pos := pos }

/-- Only the counters that a step is about change. -/
lemma count_move {dst : Ip} {query : Msg} {pos pos' : At} (k : Counter)
    (h : pos'.owes k = pos.owes k) : (p.move i ⟨dst, query, pos⟩ pos').count k =
      p.count k + debt owes ⟨dst, query, pos'⟩ k - debt owes ⟨dst, query, pos⟩ k := by
  have hcount : (p.move i ⟨dst, query, pos⟩ pos').count k = p.count k := by cases k <;> rfl
  have hdebt : debt owes ⟨dst, query, pos'⟩ k = debt owes ⟨dst, query, pos⟩ k := by
    rw [debt, debt, owes, owes, h]
  omega

lemma moves_of_enter (dst : Ip) (query : Msg) :
    ∃ pos, Moves env p i ⟨dst, query, .arrived⟩ pos (p.enter env i ⟨dst, query, .arrived⟩) := by
  -- a lookup that is turned away owes nothing
  have hturned : ∀ o : Outcome, (∀ k, o.owes k = false) → Settled env ⟨dst, query, .ended o⟩ →
      Moves env p i ⟨dst, query, .arrived⟩ (.ended o)
        (p.move i ⟨dst, query, .arrived⟩ (.ended o)) := by
    intro o ho hsettled
    refine ⟨rfl, fun k => count_move k (ho k), fun hslot => ?_, fun _ => hsettled⟩
    have hno : o.owes .slots = true := hslot
    rw [ho] at hno
    cases hno
  unfold Proxy.enter
  split
  · rename_i hhandled
    have hunknown : env.resolvers.handles dst = false := by simpa using hhandled
    exact ⟨_, hturned .notHandled (fun k => by cases k <;> rfl) hunknown⟩
  rename_i hhandled
  have hknown : env.resolvers.handles dst = true := by simpa using hhandled
  split
  · rename_i hquery
    have hother : isQuery env.lib query = false := by simpa using hquery
    exact ⟨_, hturned .notDNS (fun k => by cases k <;> rfl) ⟨hknown, hother⟩⟩
  rename_i hquery
  have hdns : isQuery env.lib query = true := by simpa using hquery
  split
  · rename_i hroom
    refine ⟨.admitted, rfl, fun k => ?_, fun _ => .inr (by omega), fun _ => ⟨hknown, hdns⟩⟩
    cases k <;> simp [debt, owes, At.owes, Proxy.move, Proxy.count]
  · exact ⟨_, hturned .busy (fun k => by cases k <;> rfl) ⟨hknown, hdns⟩⟩

lemma moves_of_next (h : p.next env i l l.pos e = some p') : ∃ pos, Moves env p i l pos p' := by
  obtain ⟨dst, query, pos⟩ := l
  unfold Proxy.next at h
  split at h
  · rename_i hpos
    obtain rfl : pos = .arrived := hpos
    cases h
    exact moves_of_enter dst query
  · rename_i yes hpos
    obtain rfl : pos = .admitted := hpos
    cases h
    refine ⟨_, rfl, fun k => count_move k ?_, fun _ => .inl rfl, fun hs => ?_⟩
    · cases yes <;> cases k <;> rfl
    · cases yes <;> exact hs
  · rename_i reply hpos
    obtain rfl : pos = .attempting := hpos
    split at h
    · rename_i hdoh
      cases h
      refine ⟨_, rfl, fun k => count_move k (by cases k <;> rfl), fun _ => .inl rfl, fun hs => ?_⟩
      exact ⟨hs.1, hs.2, answers_dohExchange hdoh⟩
    · cases h
      exact ⟨_, rfl, fun k => count_move k (by cases k <;> rfl), fun _ => .inl rfl, id⟩
  · rename_i resp _ hpos
    obtain rfl : pos = .encrypting resp := hpos
    cases h
    refine ⟨_, rfl, fun k => ?_, fun _ => .inl rfl, id⟩
    cases k <;> simp [debt, owes, At.owes, Outcome.owes, Proxy.move, Proxy.count]
  · rename_i hpos
    obtain rfl : pos = .falling := hpos
    cases h
    refine ⟨_, rfl, fun k => ?_, fun _ => .inl rfl, id⟩
    cases k <;> simp [debt, owes, At.owes, Proxy.move, Proxy.count]
  · rename_i datagrams stream hpos
    obtain rfl : pos = .asking := hpos
    split at h
    · rename_i hplain
      cases h
      refine ⟨_, rfl, fun k => count_move k (by cases k <;> rfl), fun _ => .inl rfl, fun hs => ?_⟩
      exact ⟨hs.1, hs.2, answers_plainExchange hplain⟩
    · cases h
      exact ⟨_, rfl, fun k => count_move k (by cases k <;> rfl), fun _ => .inl rfl, id⟩
  · rename_i hpos
    obtain rfl : pos = .failing := hpos
    cases h
    refine ⟨_, rfl, fun k => ?_, fun _ => .inl rfl, id⟩
    cases k <;> simp [debt, owes, At.owes, Outcome.owes, Proxy.move, Proxy.count]
  · rename_i o _ hpos
    obtain rfl : pos = .leaving o := hpos
    cases h
    refine ⟨_, rfl, fun k => ?_, fun hslot => ?_, fun hs => ?_⟩
    · cases o <;> cases k <;> simp [debt, owes, At.owes, Outcome.owes, Proxy.move, Proxy.count]
    · cases o <;> cases hslot
    · cases o <;> first | exact hs | cases hs
  · cases h

end Account

/-- **What holds of the proxy at any time.** -/
structure Account (env : Setting) (p : Proxy) : Prop where
  accounted : Accounted owes p.count p.lookups
  bounded : (p.lookups.countP (owes · .slots) : Int) ≤ env.capacity
  settled : ∀ l ∈ p.lookups, Settled env l

section Run

variable {env : Setting} {p p' : Proxy} {e : Event}

lemma Account.new : Account env .new where
  accounted := fun k => by cases k <;> rfl
  bounded := by simp [Proxy.new]
  settled := by simp [Proxy.new]

lemma Account.step (h : Account env p) (hstep : step env p e = some p') : Account env p' := by
  unfold Lookups.step at hstep
  split at hstep
  · rename_i _ dst query
    cases hstep
    have hnone : ∀ k, owes ⟨dst, query, .arrived⟩ k = false := fun k => by cases k <;> rfl
    refine ⟨fun k => ?_, ?_, List.forall_mem_append.mpr ⟨h.settled, fun l hl => ?_⟩⟩
    · exact (h.accounted.append hnone) k
    · rw [List.countP_append, List.countP_singleton, hnone]
      exact h.bounded
    · rw [List.mem_singleton.mp hl]
      trivial
  · obtain ⟨l, hl, hnext⟩ := Option.bind_eq_some_iff.mp hstep
    obtain ⟨pos, hmoves⟩ := moves_of_next hnext
    obtain ⟨hi, rfl⟩ := List.getElem?_eq_some_iff.mp hl
    have hset : ∀ x ∈ p'.lookups, Settled env x := by
      rw [hmoves.lookups]
      intro x hx
      rcases List.mem_or_eq_of_mem_set hx with hold | rfl
      · exact h.settled x hold
      · exact hmoves.settled (h.settled _ (List.getElem_mem hi))
    refine ⟨?_, ?_, hset⟩
    · rw [hmoves.lookups]
      exact h.accounted.set hi hmoves.count
    · rw [hmoves.lookups]
      exact holders_set_le h.accounted (fun _ _ => id) h.bounded hi hmoves.room
  · cases hstep

lemma account_of_reachable (h : Reachable (step env) .new p) : Account env p :=
  h.induction Account.new fun _ _ _ hp hstep => hp.step hstep

/-- What a lookup has returned. -/
def Lookup.outcome (l : Lookup) : Option Outcome :=
  match l.pos with
  | .ended o => some o
  | _ => none

/-- How many lookups returned such an outcome. -/
def Proxy.returned (p : Proxy) (such : Outcome → Bool) : Nat :=
  p.lookups.countP fun l => l.outcome.any such

namespace Outcome

/-- The answer came over DoH. -/
def isEncrypted : Outcome → Bool
  | encrypted _ => true
  | _ => false

/-- The answer came in plain text. -/
def isPlain : Outcome → Bool
  | plain _ => true
  | _ => false

/-- There was no answer. -/
def isFailed : Outcome → Bool
  | failed => true
  | _ => false

end Outcome

/-- The lookups that owe a counter, once they have returned. -/
lemma count_returned (h : Account env p) (hended : ∀ l ∈ p.lookups, l.outcome.isSome = true)
    (k : Counter) (such : Outcome → Bool) (hsuch : ∀ o : Outcome, o.owes k = such o) :
    p.count k = p.returned such := by
  rw [h.accounted k, Proxy.returned]
  refine congrArg Nat.cast (List.countP_congr fun l hl => ?_)
  have hdone := hended l hl
  unfold Lookup.outcome at hdone ⊢
  unfold owes
  split at hdone
  · rename_i o hpos
    rw [hpos, Option.any_some, ← hsuch o]
    cases k <;> exact Iff.rfl
  · cases hdone

lemma countP_or {β : Type} (l : List β) {a b c : β → Bool} (hor : ∀ x, a x = (b x || c x))
    (hnot : ∀ x, b x = true → c x = false) : l.countP a = l.countP b + l.countP c := by
  induction l with
  | nil => rfl
  | cons x l ih =>
      have hx := hor x
      have hboth := hnot x
      simp only [List.countP_cons, ih, hx]
      cases hb : b x with
      | false => simp; omega
      | true =>
          simp [hboth hb]
          omega

/-- **No more lookups than the limit are in flight, and each is counted once**:
when they have all returned, the slots are free, and an answer was encrypted, or
a fallback, which failed or not. -/
theorem lookups_accounted (h : Reachable (step env) .new p) :
    ((p.lookups.countP fun l => l.pos.owes .slots) : Int) ≤ env.capacity ∧ p.failed ≤ p.fallbacks ∧
      ((∀ l ∈ p.lookups, l.outcome.isSome = true) →
        p.slots = 0 ∧ p.encrypted = p.returned Outcome.isEncrypted ∧
          p.fallbacks = p.returned Outcome.isPlain + p.returned Outcome.isFailed ∧
          p.failed = p.returned Outcome.isFailed) := by
  have hp := account_of_reachable h
  refine ⟨hp.bounded, ?_, fun hended => ⟨?_, ?_, ?_, ?_⟩⟩
  · have hfailed := hp.accounted .failed
    have hfallbacks := hp.accounted .fallbacks
    have hmono : (p.lookups.countP fun l => owes l .failed) ≤
        p.lookups.countP fun l => owes l .fallbacks := by
      refine List.countP_mono_left fun l _ => ?_
      obtain ⟨dst, query, pos⟩ := l
      cases pos with
      | leaving o => cases o <;> first | exact id | exact fun _ => rfl
      | ended o => cases o <;> first | exact id | exact fun _ => rfl
      | _ => first | exact id | exact fun _ => rfl
    show p.count .failed ≤ p.count .fallbacks
    rw [hfailed, hfallbacks]
    exact_mod_cast hmono
  · have hslots := count_returned hp hended .slots (fun _ => false) fun o => by cases o <;> rfl
    rw [show p.slots = p.count .slots from rfl, hslots]
    simp [Proxy.returned]
  · exact count_returned hp hended .encrypted Outcome.isEncrypted fun o => by cases o <;> rfl
  · have hfallbacks := count_returned hp hended .fallbacks
      (fun o => o.isPlain || o.isFailed) fun o => by cases o <;> rfl
    rw [show p.fallbacks = p.count .fallbacks from rfl, hfallbacks, Proxy.returned, Proxy.returned,
      Proxy.returned]
    rw [countP_or p.lookups (b := fun l => l.outcome.any Outcome.isPlain)
      (c := fun l => l.outcome.any Outcome.isFailed)]
    · exact Nat.cast_add _ _
    · intro l
      cases l.outcome <;> rfl
    · intro l hplain
      cases ho : l.outcome with
      | none => rfl
      | some o =>
          rw [ho] at hplain
          cases o <;> first | rfl | cases hplain
  · exact count_returned hp hended .failed Outcome.isFailed fun o => by cases o <;> rfl

/-- **What is returned suits the query**: an answer is one for it, and only what
is no query is called so. -/
theorem outcome_suits (h : Reachable (step env) .new p) {l : Lookup} (hl : l ∈ p.lookups)
    {o : Outcome} (ho : l.outcome = some o) :
    if env.resolvers.handles l.dst then o.Suits env.lib l.query else o = .notHandled := by
  have hsettled := (account_of_reachable h).settled l hl
  obtain ⟨dst, query, pos⟩ := l
  unfold Lookup.outcome at ho
  dsimp only at ho
  split at ho
  · cases ho
    cases o with
    | notHandled =>
        have hnot : env.resolvers.handles dst = false := hsettled
        simp [hnot]
    | _ =>
        obtain ⟨hknown, hsuits⟩ := hsettled
        rw [if_pos hknown]
        exact hsuits
  · cases ho

end Run

/-! ### Two lookups -/

/-- The header of a message, and whether a question is behind it. -/
def headerOnly : Library where
  start m :=
    if headerLen ≤ m.length then some ⟨128 ≤ (m.getD 2 0).toNat, (m.getD 2 0).toNat / 8 % 16⟩
    else none
  question m := headerLen < m.length
  optClass _ := none
  truncated _ := none
  headerLen_le m h := by
    by_contra hshort
    rw [if_neg hshort] at h
    cases h

/-- The proxy as it is deployed, without its slots. -/
def production : Setting := ⟨headerOnly, providers, 0⟩

/-- A query for the addresses of the root, with the identifier that is given. -/
def query (id : UInt8) : Msg := [id, 7, 1, 0, 0, 1, 0, 0, 0, 0, 0, 0, 0, 0, 1, 0, 1]

/-- An answer to it. -/
def answer (id : UInt8) : Msg := [id, 7, 129, 128, 0, 1, 0, 0, 0, 0, 0, 0, 0, 0, 1, 0, 1]

/-- Quad9 answers over HTTPS, and for the resolver that it replaced. -/
def twoLookups : List Event :=
  [.exchange (quad 9 9 9 9) (query 5), .exchange (quad 194 242 2 2) (query 6), .enter 0, .enter 1,
    .available 1 false, .available 0 true, .count 1, .plain 1 [answer 8, answer 6] [],
    .doh 0 (some ⟨200, "application/dns-message", answer 0⟩), .count 0, .leave 0, .leave 1]

lemma exec_twoLookups : ∃ p, exec (step production) .new twoLookups = some p ∧
    p.lookups = [⟨quad 9 9 9 9, query 5, .ended (.encrypted (answer 5))⟩,
      ⟨quad 194 242 2 2, query 6, .ended (.plain (answer 6))⟩] := ⟨_, rfl, rfl⟩

theorem lookups_accounted_two : ∃ p : Proxy, p.lookups.length = 2 ∧ p.slots = 0 ∧ p.encrypted = 1 ∧
    p.fallbacks = 1 ∧ p.failed = 0 := by
  obtain ⟨p, hexec, hlookups⟩ := exec_twoLookups
  have hended : ∀ l ∈ p.lookups, l.outcome.isSome = true := by
    rw [hlookups]
    decide
  obtain ⟨-, -, haccount⟩ := lookups_accounted ⟨_, hexec⟩
  obtain ⟨hslots, hencrypted, hfallbacks, hfailed⟩ := haccount hended
  simp only [Proxy.returned, hlookups] at hencrypted hfallbacks hfailed
  exact ⟨p, by rw [hlookups]; rfl, hslots, hencrypted, hfallbacks, hfailed⟩

theorem outcome_suits_two : (Outcome.encrypted (answer 5)).Suits headerOnly (query 5) := by
  obtain ⟨p, hexec, hlookups⟩ := exec_twoLookups
  have hmem : (⟨quad 9 9 9 9, query 5, .ended (.encrypted (answer 5))⟩ : Lookup) ∈ p.lookups := by
    rw [hlookups]
    exact List.mem_cons_self
  have hsuits := outcome_suits ⟨_, hexec⟩ hmem rfl
  rwa [if_pos (by decide)] at hsuits

end CumulusVpn.Lookups
