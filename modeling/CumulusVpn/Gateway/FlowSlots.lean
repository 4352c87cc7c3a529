/-
The slots of the forwarders' flows (`acquirePeerFlow` and `releasePeerFlow` of
`gateway/internal/wg/forward.go`).

* `System`, `Slots`, `step`: any number of flows on any number of forwarders
  that share a limiter; a step is one atomic addition, or none;
* `Flow.owes`, `Flow.holds`: what a flow has added, and what it was granted;
* `Leads.debt_eq`: **a step changes what its flow owes by what it adds**;
* `Leads.grant`: a slot is granted by an addition within the limit;
* `Accounts`: the invariant of all runs; `Accounts.step`;
* `balance_eq`: along every path a flow gives back what it took;
* `At.Ends`, `At.Closing`, `At.left`: the steps that end a flow's work, and
  the way from there on;
* `exists_step`: **a flow that has not ended can make a step**, and one that
  leads nearer to its end;
* `Closing.run`: **a flow that gives back does so in a bounded number of its
  own steps**, whatever the others do;
* `slots_conserved`: **the limits hold, and no slot is lost**.
-/
import CumulusVpn.Gateway.Forward
import CumulusVpn.Lib.SlotAccounts
import CumulusVpn.Lib.StepSystem

namespace CumulusVpn.Egress

open StepSystem SlotAccounts

/-! ### What a flow owes -/

/-- The flow has added to the counter and not yet subtracted. -/
def At.owes : At → Which → Bool
  | arrived, _ | refused, _ | ended, _ | takingGlobal, _ => false
  | undoingGlobal, w | takingPeer, w | returningGlobal, w => w == .global
  | releasingPeer, w => w == .peer
  | undoingPeer, _ | creating, _ | dialing, _ | relaying, _ | lookups _ _, _ | handing, _ |
    draining _, _ | releasing, _ => true

/-- The flow was granted a slot and has it still. -/
def At.holds : At → Which → Bool
  | arrived, _ | refused, _ | ended, _ | takingGlobal, _ | undoingGlobal, _ => false
  | takingPeer, w | undoingPeer, w | returningGlobal, w => w == .global
  | releasingPeer, w => w == .peer
  | creating, _ | dialing, _ | relaying, _ | lookups _ _, _ | handing, _ | draining _, _ |
    releasing, _ => true

/-- What the next step adds to a counter. -/
def At.adds (pos : At) (w : Which) : Int :=
  match pos.effect with
  | some (w', d) => if w' = w then d else 0
  | none => 0

/-- What the flow adds to the counter. -/
def At.debt (pos : At) (w : Which) : Int := if pos.owes w then 1 else 0

lemma At.owes_of_holds {pos : At} {w : Which} (h : pos.holds w = true) : pos.owes w = true := by
  cases pos <;> cases w <;> first | rfl | cases h

section Handle

variable {f : Forwarder} {proto : Proto} {dst : Ip} {port : UInt16} {pos pos' : At} {e : Event}

/-- **What a step can do**, but for the checks before the slots and the serving
of lookups. -/
inductive Leads : At → Event → At → Prop
  | admitted (known : Bool) {pos' : At} (h : ∀ w, pos'.owes w = false) :
      Leads .arrived (.source known) pos'
  | grantedGlobal : Leads .takingGlobal (.added true) .takingPeer
  | refusedGlobal : Leads .takingGlobal (.added false) .undoingGlobal
  | undone : Leads .undoingGlobal .subtracted .refused
  | grantedPeer : Leads .takingPeer (.added true) .creating
  | refusedPeer : Leads .takingPeer (.added false) .undoingPeer
  | undonePeer : Leads .undoingPeer .subtracted .returningGlobal
  | returned : Leads .returningGlobal .subtracted .refused
  /-- between the two slots' taking and their giving back -/
  | working {pos pos' : At} {e : Event} (hnone : pos.effect = none)
      (hpos : ∀ w, pos.holds w = true) (hpos' : ∀ w, pos'.holds w = true) : Leads pos e pos'
  | released : Leads .releasing .subtracted .releasingPeer
  | releasedPeer : Leads .releasingPeer .subtracted .ended

lemma checked_owes (known : Bool) (w : Which) :
    (checked f proto dst port known).owes w = false := by
  rw [checked]
  split_ifs <;> rfl

lemma serveDNSTCP_holds (first : Bool) (m : Message) (w : Which) :
    (serveDNSTCP first m).holds w = true := by
  cases m <;> cases first <;> rfl

lemma serveDNSUDP_holds (first : Bool) (n : Nat) (d : Datagram) (w : Which) :
    (serveDNSUDP first n d).holds w = true := by
  cases d with
  | broken => rfl
  | uncharged => rfl
  | read isQuery room last =>
      rw [serveDNSUDP]
      cases last <;> split <;> rfl

lemma handle_leads (h : handle f proto dst port pos e = some pos') : Leads pos e pos' := by
  cases pos with
  | arrived =>
      cases e with
      | source known =>
          cases h
          exact .admitted known (checked_owes known)
      | _ => cases h
  | takingGlobal =>
      cases e with
      | added within =>
          cases h
          cases within with
          | false => exact .refusedGlobal
          | true => exact .grantedGlobal
      | _ => cases h
  | undoingGlobal =>
      cases e with
      | subtracted =>
          cases h
          exact .undone
      | _ => cases h
  | takingPeer =>
      cases e with
      | added within =>
          cases h
          cases within with
          | false => exact .refusedPeer
          | true => exact .grantedPeer
      | _ => cases h
  | undoingPeer =>
      cases e with
      | subtracted =>
          cases h
          exact .undonePeer
      | _ => cases h
  | returningGlobal =>
      cases e with
      | subtracted =>
          cases h
          exact .returned
      | _ => cases h
  | refused => cases e <;> cases h
  | creating =>
      cases e with
      | endpoint ok =>
          cases h
          refine .working rfl (fun _ => rfl) fun w => ?_
          split_ifs <;> rfl
      | _ => cases h
  | dialing =>
      cases e with
      | dial ok =>
          cases h
          refine .working rfl (fun _ => rfl) fun w => ?_
          split_ifs <;> rfl
      | _ => cases h
  | relaying =>
      cases e with
      | closed =>
          cases h
          exact .working rfl (fun _ => rfl) fun _ => rfl
      | _ => cases h
  | lookups first n =>
      cases e with
      | message m =>
          simp only [handle, Option.ite_none_right_eq_some] at h
          obtain ⟨-, h⟩ := h
          cases h
          exact .working rfl (fun _ => rfl) (serveDNSTCP_holds first m)
      | datagram d =>
          simp only [handle, Option.ite_none_right_eq_some] at h
          obtain ⟨-, h⟩ := h
          cases h
          exact .working rfl (fun _ => rfl) (serveDNSUDP_holds first n d)
      | answered =>
          cases n with
          | zero => cases h
          | succ n =>
              cases h
              exact .working rfl (fun _ => rfl) fun _ => rfl
      | _ => cases h
  | handing =>
      cases e with
      | dial ok =>
          cases h
          refine .working rfl (fun _ => rfl) fun w => ?_
          split_ifs <;> rfl
      | _ => cases h
  | draining n =>
      cases n with
      | zero =>
          cases e with
          | waited =>
              cases h
              exact .working rfl (fun _ => rfl) fun _ => rfl
          | _ => cases h
      | succ n =>
          cases e with
          | answered =>
              cases h
              exact .working rfl (fun _ => rfl) fun _ => rfl
          | _ => cases h
  | releasing =>
      cases e with
      | subtracted =>
          cases h
          exact .released
      | _ => cases h
  | releasingPeer =>
      cases e with
      | subtracted =>
          cases h
          exact .releasedPeer
      | _ => cases h
  | ended => cases e <;> cases h

/-- **A step changes what its flow owes by what it adds.** -/
lemma Leads.debt_eq (h : Leads pos e pos') (w : Which) : pos'.debt w = pos.debt w + pos.adds w := by
  cases h with
  | admitted known h =>
      have hnone : pos'.debt w = 0 := by rw [At.debt, h w]; rfl
      rw [hnone]
      rfl
  | working hnone hpos hpos' =>
      have hadds : pos.adds w = 0 := by rw [At.adds, hnone]
      rw [At.debt, At.debt, At.owes_of_holds (hpos w), At.owes_of_holds (hpos' w), hadds]
      rfl
  | _ => cases w <;> rfl

/-- **A slot is granted by an addition within the limit.** -/
lemma Leads.grant (h : Leads pos e pos') {w : Which} (hholds : pos'.holds w = true) :
    pos.holds w = true ∨ (e = .added true ∧ pos.effect = some (w, 1)) := by
  cases h with
  | admitted known h =>
      have hnone := h w
      rw [At.owes_of_holds hholds] at hnone
      cases hnone
  | working hnone hpos hpos' => exact Or.inl (hpos w)
  | grantedGlobal =>
      cases w with
      | global => exact Or.inr ⟨rfl, rfl⟩
      | peer => cases hholds
  | grantedPeer =>
      cases w with
      | global => exact Or.inl rfl
      | peer => exact Or.inr ⟨rfl, rfl⟩
  | refusedGlobal => cases hholds
  | undone => cases hholds
  | returned => cases hholds
  | releasedPeer => cases hholds
  | refusedPeer => exact Or.inl hholds
  | undonePeer => exact Or.inl hholds
  | released => exact Or.inl rfl

end Handle

/-! ### All flows -/

/-- What a flow owes the counters. -/
def Flow.owes (x : Flow) (k : Counter) : Bool :=
  [Which.global, .peer].any fun w => x.counter w = k && x.pos.owes w

/-- The counters of which a flow holds a slot. -/
def Flow.holds (x : Flow) (k : Counter) : Bool :=
  [Which.global, .peer].any fun w => x.counter w = k && x.pos.holds w

/-- How many flows of a protocol a forwarder has at once. -/
abbrev maxFlows : Int := 1024

/-- `SetMaxPeerFlows`. -/
def setMaxPeerFlows (n : Int) : Int := if n ≤ 0 then maxFlows else n

/-- The forwarders, which share a limiter and the setting of its entries. -/
structure System where
  forwarder : Nat → Forwarder
  maxPeerFlows : Int

/-- What a counter is held to. -/
def System.limit (sys : System) : Counter → Int
  | .flows _ _ => maxFlows
  | .peer _ _ => setMaxPeerFlows sys.maxPeerFlows

/-- The counters of all forwarders and limiters, and the flows they count. -/
structure Slots where
  count : Counter → Int
  flows : List Flow

/-- The counters before the first flow. -/
def Slots.init : Slots := ⟨fun _ => 0, []⟩

/-- The counters after the addition of a flow's step. -/
def Slots.after (s : Slots) (x : Flow) : Counter → Int :=
  match x.pos.effect with
  | none => s.count
  | some (w, d) => Function.update s.count (x.counter w) (s.count (x.counter w) + d)

/-- Whether the addition that a flow makes next stays within the limit. -/
def Slots.within (sys : System) (s : Slots) (x : Flow) : Bool :=
  match x.pos.effect with
  | some (w, d) => s.count (x.counter w) + d ≤ sys.limit (x.counter w)
  | none => true

/-- Whether the event is what the step finds: `n.Add(1) > limit`. -/
def Slots.finds (sys : System) (s : Slots) (x : Flow) (e : Event) : Bool :=
  match e, x.pos.effect with
  | .added within, some (w, d) =>
      within == decide (s.count (x.counter w) + d ≤ sys.limit (x.counter w))
  | _, _ => true

/-- A flow arrives, or one of them takes a step. -/
inductive Move
  | arrive (fwd : Nat) (proto : Proto) (entry : Nat) (dst : Ip) (port : UInt16)
  | step (i : Nat) (e : Event)

/-- A flow arrives, or makes a step. -/
def step (sys : System) (s : Slots) : Move → Option Slots
  | .arrive fwd proto entry dst port =>
      some { s with flows := s.flows ++ [⟨fwd, proto, entry, dst, port, .arrived⟩] }
  | .step i e =>
      match s.flows[i]? with
      | none => none
      | some x =>
          if s.finds sys x e then
            (handle (sys.forwarder x.fwd) x.proto x.dst x.port x.pos e).map fun pos =>
              { count := s.after x, flows := s.flows.set i (x.moved pos) }
          else none

/-- How many flows hold a slot of the counter. -/
def Slots.holders (s : Slots) (k : Counter) : Nat := s.flows.countP fun x => x.holds k

/-- The counters show what the flows owe, and the limits hold. -/
structure Accounts (sys : System) (s : Slots) : Prop where
  accounted : Accounted Flow.owes s.count s.flows
  bounded : ∀ k, (s.holders k : Int) ≤ sys.limit k

lemma Flow.owes_of_holds (x : Flow) (k : Counter) (h : x.holds k = true) : x.owes k = true := by
  obtain ⟨w, hw, hholds⟩ := List.any_eq_true.mp h
  rw [Bool.and_eq_true] at hholds
  exact List.any_eq_true.mpr ⟨w, hw, by rw [hholds.1, At.owes_of_holds hholds.2]; rfl⟩

/-- A counter is one of the two of a flow, or neither. -/
lemma Flow.debt_eq (x : Flow) (w : Which) : debt Flow.owes x (x.counter w) = x.pos.debt w := by
  cases w <;> simp [debt, Flow.owes, Flow.counter, At.debt]

lemma Flow.owes_other (x : Flow) {k : Counter} (h : ∀ w, x.counter w ≠ k) : x.owes k = false := by
  simp [Flow.owes, h]

section Step

variable {sys : System} {s s' : Slots} {x : Flow} {e : Event} {pos : At}

lemma Slots.after_counter (s : Slots) (x : Flow) (w : Which) :
    s.after x (x.counter w) = s.count (x.counter w) + x.pos.adds w := by
  rw [Slots.after, At.adds]
  cases x.pos.effect with
  | none => exact (add_zero _).symm
  | some effect =>
      obtain ⟨w', d⟩ := effect
      simp only
      by_cases hw : w' = w
      · rw [if_pos hw, hw, Function.update_self]
      · have hother : x.counter w ≠ x.counter w' := by
          cases w <;> cases w' <;> first | exact absurd rfl hw | nofun
        rw [if_neg hw, Function.update_of_ne hother, add_zero]

lemma Slots.after_other (s : Slots) (x : Flow) {k : Counter} (h : ∀ w, x.counter w ≠ k) :
    s.after x k = s.count k := by
  rw [Slots.after]
  cases x.pos.effect with
  | none => rfl
  | some effect => exact Function.update_of_ne (h effect.1).symm _ _

/-- The counters change by what the flow then owes more. -/
lemma Leads.after_eq (h : Leads x.pos e pos) (s : Slots) (k : Counter) :
    s.after x k = s.count k + debt Flow.owes (x.moved pos) k - debt Flow.owes x k := by
  by_cases hk : ∃ w, x.counter w = k
  · obtain ⟨w, rfl⟩ := hk
    have hmoved : debt Flow.owes (x.moved pos) (x.counter w) = pos.debt w :=
      (x.moved pos).debt_eq w
    rw [s.after_counter, hmoved, x.debt_eq, h.debt_eq w]
    omega
  · have hother : ∀ w, x.counter w ≠ k := fun w hw => hk ⟨w, hw⟩
    have hmoved : (x.moved pos).owes k = false := (x.moved pos).owes_other hother
    rw [s.after_other x hother, debt, debt, hmoved, x.owes_other hother]
    omega

/-- A slot is granted only while the counter is below the limit. -/
lemma Leads.room (h : Leads x.pos e pos) (hfinds : s.finds sys x e = true) {k : Counter}
    (hholds : (x.moved pos).holds k = true) :
    x.holds k = true ∨ s.count k + 1 ≤ sys.limit k := by
  obtain ⟨w, hw, hgranted⟩ := List.any_eq_true.mp hholds
  rw [Bool.and_eq_true, Flow.moved_counter, Flow.moved_pos] at hgranted
  obtain rfl := of_decide_eq_true hgranted.1
  obtain hheld | ⟨rfl, heffect⟩ := h.grant hgranted.2
  · exact Or.inl (List.any_eq_true.mpr ⟨w, hw, by rw [hheld, decide_eq_true rfl]; rfl⟩)
  · right
    simpa [Slots.finds, heffect] using hfinds

/-- What a step of a flow does. -/
lemma step_step {i : Nat} (h : step sys s (.step i e) = some s') :
    ∃ x pos, ∃ hi : i < s.flows.length, s.flows[i] = x ∧ s.finds sys x e = true ∧
      Leads x.pos e pos ∧ s' = ⟨s.after x, s.flows.set i (x.moved pos)⟩ := by
  rw [step] at h
  cases hx : s.flows[i]? with
  | none =>
      rw [hx] at h
      cases h
  | some x =>
      rw [hx] at h
      simp only [Option.ite_none_right_eq_some] at h
      obtain ⟨hfinds, h⟩ := h
      obtain ⟨pos, hpos, rfl⟩ := Option.map_eq_some_iff.mp h
      obtain ⟨hi, hget⟩ := List.getElem?_eq_some_iff.mp hx
      exact ⟨x, pos, hi, hget, hfinds, handle_leads hpos, rfl⟩

/-- **Every step keeps the accounts and the limits.** -/
lemma Accounts.step (hs : Accounts sys s) (m : Move) (h : step sys s m = some s') :
    Accounts sys s' := by
  cases m with
  | arrive fwd proto entry dst port =>
      cases h
      refine ⟨hs.accounted.append fun k => by simp [Flow.owes, At.owes], fun k => ?_⟩
      have hnew : (⟨fwd, proto, entry, dst, port, .arrived⟩ : Flow).holds k = false := by
        simp [Flow.holds, At.holds]
      rw [Slots.holders, List.countP_append, List.countP_cons_of_neg (by simp [hnew]),
        List.countP_nil, Nat.add_zero]
      exact hs.bounded k
  | step i e =>
      obtain ⟨x, pos, hi, rfl, hfinds, hleads, rfl⟩ := step_step h
      exact ⟨hs.accounted.set hi fun k => hleads.after_eq s k, fun k =>
        holders_set_le hs.accounted Flow.owes_of_holds (hs.bounded k) hi (hleads.room hfinds)⟩

end Step

lemma accounts_init (sys : System) : Accounts sys Slots.init where
  accounted := accounted_nil
  bounded k := by
    cases k with
    | flows fwd proto => exact (by decide : (0 : Int) ≤ maxFlows)
    | peer entry proto =>
        show (0 : Int) ≤ setMaxPeerFlows sys.maxPeerFlows
        rw [setMaxPeerFlows]
        split
        · decide
        · omega

/-! ### One path -/

section Path

variable (f : Forwarder) (proto : Proto) (dst : Ip) (port : UInt16)

/-- What a flow adds to a counter along a path. -/
def balance : At → List Event → Which → Int
  | _, [], _ => 0
  | pos, e :: events, w =>
      pos.adds w + (match handle f proto dst port pos e with
        | none => 0
        | some pos' => balance pos' events w)

/-- **Along every path a flow adds what it then owes.** -/
lemma balance_eq {pos pos' : At} {events : List Event}
    (h : exec (handle f proto dst port) pos events = some pos') (w : Which) :
    pos'.debt w = pos.debt w + balance f proto dst port pos events w := by
  induction events generalizing pos with
  | nil =>
      obtain rfl : pos = pos' := by simpa using h
      exact (add_zero _).symm
  | cons e events ih =>
      obtain ⟨next, hnext, hrest⟩ := exec_cons_eq_some.mp h
      have hstep := (handle_leads hnext).debt_eq w
      have hlater := ih hrest
      rw [balance, hnext]
      simp only
      omega

end Path

/-! ### The way to the end -/

namespace At

/-- The flow has ended. -/
def Gone (pos : At) : Prop := pos = .refused ∨ pos = .ended

instance : DecidablePred Gone := fun pos => inferInstanceAs (Decidable (pos = _ ∨ pos = _))

lemma Gone.owes {pos : At} (h : pos.Gone) (w : Which) : pos.owes w = false := by
  obtain rfl | rfl := h <;> rfl

/-- What is left to the flow is to wait for its lookups and to give back what
it took. -/
def Closing : At → Prop
  | undoingGlobal | undoingPeer | returningGlobal | draining _ | releasing | releasingPeer |
    refused | ended => True
  | arrived | takingGlobal | takingPeer | creating | dialing | relaying | lookups _ _ | handing =>
    False

/-- The least number of steps that lead the flow to its end. -/
def left : At → Nat
  | refused | ended => 0
  | arrived | undoingGlobal | returningGlobal | releasingPeer => 1
  | undoingPeer | releasing => 2
  | creating | dialing | relaying | handing => 3
  | takingPeer => 4
  | takingGlobal => 5
  | draining n => n + 3
  | lookups _ n => n + 4

lemma left_eq_zero_iff {pos : At} : pos.left = 0 ↔ pos.Gone := by
  cases pos <;> simp [left, Gone]

end At

section Ends

variable (f : Forwarder) (proto : Proto) (dst : Ip) (port : UInt16)

/-- The steps after which a handler only gives back: the destination or the
port is refused, a slot is not granted, the endpoint or a dial fails, the relay
ends, or nothing more is read of the lookups. -/
def At.Ends : At → Event → Prop
  | .arrived, .source known =>
      known = false ∨ f.destAllowed dst = false ∨ f.portAllowed port (proto = .udp) = false
  | .takingGlobal, .added within | .takingPeer, .added within => within = false
  | .creating, .endpoint ok | .dialing, .dial ok | .handing, .dial ok => ok = false
  | .relaying, .closed => True
  | .lookups first _, .message m => m = .broken ∨ (first = false ∧ m = .notDNS)
  | .lookups first _, .datagram d =>
      d = .broken ∨ d = .uncharged ∨
        ∃ isQuery room, d = .read isQuery room true ∧ (first = true → isQuery = true)
  | _, _ => False

variable {f proto dst port} {pos pos' : At} {e : Event}

/-- **A handler that ends its work turns to give back.** -/
lemma At.Ends.closing (hends : pos.Ends f proto dst port e)
    (h : handle f proto dst port pos e = some pos') : pos'.Closing := by
  cases pos with
  | arrived =>
      cases e with
      | source known =>
          obtain rfl : checked f proto dst port known = pos' := Option.some.inj h
          rw [checked]
          rcases hends with hknown | hdst | hport
          · simp [hknown, Closing]
          · simp [hdst, Closing]
          · simp only [hport]
            split_ifs <;> trivial
      | _ => cases h
  | takingGlobal | takingPeer | creating | dialing | handing =>
      cases e <;> cases h
      simp only [Ends] at hends
      subst hends
      trivial
  | relaying =>
      cases e <;> cases h
      trivial
  | lookups first n =>
      cases e with
      | message m =>
          simp only [handle, Option.ite_none_right_eq_some] at h
          obtain ⟨-, h⟩ := h
          cases h
          rcases hends with rfl | ⟨rfl, rfl⟩ <;> trivial
      | datagram d =>
          simp only [handle, Option.ite_none_right_eq_some] at h
          obtain ⟨-, h⟩ := h
          cases h
          rcases hends with rfl | rfl | ⟨isQuery, room, rfl, hfirst⟩
          · trivial
          · trivial
          · have hquery : (first && !isQuery) = false := by cases first <;> simp_all
            simp [serveDNSUDP, hquery, Closing]
      | _ => exact hends.elim
  | _ => cases e <;> exact hends.elim

/-- **Each step of a flow that gives back is one towards its end.** -/
lemma At.Closing.step (hclosing : pos.Closing) (h : handle f proto dst port pos e = some pos') :
    pos'.Closing ∧ pos'.left + 1 = pos.left := by
  cases pos with
  | undoingGlobal | undoingPeer | returningGlobal | releasing | releasingPeer =>
      cases e <;> cases h
      exact ⟨trivial, rfl⟩
  | draining n =>
      cases n <;> cases e <;> cases h <;> exact ⟨trivial, rfl⟩
  | refused | ended => cases e <;> cases h
  | _ => exact hclosing.elim

/-- The next step of a handler that is not at its end: what an addition finds
is given, and either way the handler is nearer. -/
lemma exists_handle (f : Forwarder) (proto : Proto) (dst : Ip) (port : UInt16) (found : Bool)
    (hpos : ¬ pos.Gone) :
    ∃ e pos', (∀ within, e = .added within → within = found) ∧
      handle f proto dst port pos e = some pos' ∧ pos'.left < pos.left := by
  cases pos with
  | arrived => exact ⟨.source false, .ended, nofun, rfl, by decide⟩
  | takingGlobal | takingPeer =>
      refine ⟨.added found, _, fun _ h => (Event.added.inj h).symm, rfl, ?_⟩
      split <;> decide
  | undoingGlobal | undoingPeer | returningGlobal | releasing | releasingPeer =>
      exact ⟨.subtracted, _, nofun, rfl, by decide⟩
  | creating => exact ⟨.endpoint false, .releasing, nofun, rfl, by decide⟩
  | dialing | handing => exact ⟨.dial false, .releasing, nofun, rfl, by decide⟩
  | relaying => exact ⟨.closed, .releasing, nofun, rfl, by decide⟩
  | lookups first n =>
      cases proto with
      | tcp =>
          refine ⟨.message .broken, .releasing, nofun, rfl, ?_⟩
          simp only [At.left]
          omega
      | udp => exact ⟨.datagram .broken, .draining n, nofun, rfl, Nat.lt_succ_self _⟩
  | draining n =>
      cases n with
      | zero => exact ⟨.waited, .releasing, nofun, rfl, by decide⟩
      | succ n => exact ⟨.answered, .draining n, nofun, rfl, Nat.lt_succ_self _⟩
  | refused => exact absurd (Or.inl rfl) hpos
  | ended => exact absurd (Or.inr rfl) hpos

end Ends

section Progress

variable {sys : System} {s t : Slots} {i : Nat} {x : Flow}

/-- **A flow that has not ended can make a step**, whatever the counters
show, and one that leads nearer to its end. -/
lemma exists_step (sys : System) (s : Slots) (hx : ¬ x.pos.Gone) :
    ∃ e pos, s.finds sys x e = true ∧
      handle (sys.forwarder x.fwd) x.proto x.dst x.port x.pos e = some pos ∧
        pos.left < x.pos.left := by
  obtain ⟨e, pos, hfound, hpos, hless⟩ := exists_handle (sys.forwarder x.fwd) x.proto x.dst x.port
    (s.within sys x) hx
  refine ⟨e, pos, ?_, hpos, hless⟩
  cases e with
  | added within =>
      rw [hfound within rfl]
      unfold Slots.finds Slots.within
      cases x.pos.effect <;> simp
  | _ => rfl

/-- How far a flow is from its end. -/
def farness (x : Flow) : Nat := x.pos.left

/-- How far the flows are from their ends. -/
def Slots.left (s : Slots) : Nat := owed farness s.flows

lemma exists_step_left (sys : System) (hi : s.flows[i]? = some x) (hx : ¬ x.pos.Gone) :
    ∃ e t, step sys s (.step i e) = some t ∧ t.left < s.left := by
  obtain ⟨e, pos, hfinds, hpos, hless⟩ := exists_step sys s hx
  obtain ⟨hlength, rfl⟩ := List.getElem?_eq_some_iff.mp hi
  refine ⟨e, ⟨s.after s.flows[i], s.flows.set i (s.flows[i].moved pos)⟩, ?_, ?_⟩
  · rw [step, hi]
    simp only [hfinds, if_true, hpos, Option.map_some]
  · have hset : owed farness (s.flows.set i (s.flows[i].moved pos)) + s.flows[i].pos.left =
        owed farness s.flows + pos.left := owed_set hlength _
    show owed farness (s.flows.set i (s.flows[i].moved pos)) < owed farness s.flows
    omega

/-- **All flows can be led to their ends** by steps of their own. -/
lemma exists_run_to_end (sys : System) (s : Slots) :
    ∃ ms t, (∀ m ∈ ms, ∃ i e, m = Move.step i e) ∧ exec (step sys) s ms = some t ∧
      ∀ x ∈ t.flows, x.pos.Gone := by
  induction hleft : s.left using Nat.strong_induction_on generalizing s with
  | h n ih =>
      by_cases hgone : ∀ x ∈ s.flows, x.pos.Gone
      · exact ⟨[], s, nofun, rfl, hgone⟩
      · obtain ⟨x, hx⟩ := not_forall.mp hgone
        obtain ⟨hmem, hnot⟩ := Classical.not_imp.mp hx
        obtain ⟨i, hi⟩ := List.mem_iff_getElem?.mp hmem
        obtain ⟨e, t, hstep, hless⟩ := exists_step_left sys hi hnot
        obtain ⟨ms, u, hms, hrun, hend⟩ := ih t.left (hleft ▸ hless) t rfl
        refine ⟨.step i e :: ms, u, ?_, exec_cons_eq_some.mpr ⟨t, hstep, hrun⟩, hend⟩
        intro m hm
        rcases List.mem_cons.mp hm with rfl | hm
        · exact ⟨i, e, rfl⟩
        · exact hms m hm

/-- The move is a step of the flow. -/
def Move.isOf (i : Nat) : Move → Bool
  | .arrive _ _ _ _ _ => false
  | .step j _ => j == i

/-- The flow is giving back what it took, or has done so. -/
def Slots.Closes (s : Slots) (i : Nat) : Prop := ∃ x, s.flows[i]? = some x ∧ x.pos.Closing

/-- A move of another flow leaves this one alone. -/
lemma flow_of_other {m : Move} (hi : s.flows[i]? = some x) (hm : m.isOf i = false)
    (h : step sys s m = some t) : t.flows[i]? = some x := by
  cases m with
  | arrive fwd proto entry dst port =>
      cases h
      obtain ⟨hlength, -⟩ := List.getElem?_eq_some_iff.mp hi
      rwa [List.getElem?_append_left hlength]
  | step j e =>
      obtain ⟨y, pos, -, -, -, -, rfl⟩ := step_step h
      have hne : j ≠ i := by simpa [Move.isOf] using hm
      rwa [List.getElem?_set_ne hne]

/-- Its own move is a step of its handler. -/
lemma flow_of_own {m : Move} (hi : s.flows[i]? = some x) (hm : m.isOf i = true)
    (h : step sys s m = some t) :
    ∃ e pos, m = .step i e ∧ handle (sys.forwarder x.fwd) x.proto x.dst x.port x.pos e = some pos ∧
      t.flows[i]? = some (x.moved pos) := by
  cases m with
  | arrive fwd proto entry dst port => cases hm
  | step j e =>
      obtain rfl : j = i := by simpa [Move.isOf] using hm
      obtain ⟨hlength, -⟩ := List.getElem?_eq_some_iff.mp hi
      rw [step, hi] at h
      simp only [Option.ite_none_right_eq_some] at h
      obtain ⟨-, h⟩ := h
      obtain ⟨pos, hpos, rfl⟩ := Option.map_eq_some_iff.mp h
      exact ⟨e, pos, rfl, hpos, List.getElem?_set_self hlength⟩

/-- How far one of the flows is from its end. -/
def Slots.leftOf (i : Nat) (s : Slots) : Nat := (s.flows[i]?.map farness).getD 0

lemma Slots.leftOf_eq (hi : s.flows[i]? = some x) : s.leftOf i = x.pos.left := by
  rw [leftOf, hi]
  rfl

lemma Slots.Closes.step {m : Move} (hs : s.Closes i) (h : step sys s m = some t) : t.Closes i := by
  obtain ⟨x, hi, hclosing⟩ := hs
  cases hm : m.isOf i with
  | false => exact ⟨x, flow_of_other hi hm h, hclosing⟩
  | true =>
      obtain ⟨e, pos, -, hpos, ht⟩ := flow_of_own hi hm h
      exact ⟨_, ht, (hclosing.step hpos).1⟩

/-- **A flow that gives back has done so after a bounded number of its own
steps**, whatever the others do in between. -/
lemma Slots.Closes.run {ms : List Move} (hs : s.Closes i)
    (hrun : exec (Egress.step sys) s ms = some t) :
    t.Closes i ∧ ms.countP (Move.isOf i) + t.leftOf i ≤ s.leftOf i := by
  constructor
  · exact exec_invariant (I := fun s => s.Closes i) (G := fun _ _ => True)
      (fun _ _ _ hI _ h => hI.step h) hs (along_of_forall (fun _ _ => trivial) _ _) hrun
  · refine @exec_countP_add_le _ _ _ (fun s => s.Closes i) (Move.isOf i) (Slots.leftOf i)
      (fun _ _ _ hI h => hI.step h) (fun s m s' hI hm h => ?_)
      (fun s m s' hI hm h => ?_) _ _ _ hs hrun
    · obtain ⟨x, hi, hclosing⟩ := hI
      obtain ⟨e, pos, -, hpos, ht⟩ := flow_of_own hi hm h
      rw [Slots.leftOf_eq hi, Slots.leftOf_eq ht, Flow.moved_pos]
      exact (hclosing.step hpos).2.le
    · obtain ⟨x, hi, hclosing⟩ := hI
      rw [Slots.leftOf_eq hi, Slots.leftOf_eq (flow_of_other hi hm h)]

end Progress

/-- **In every run no more flows than the limits hold slots of a forwarder and
of an entry, the counters are what the flows have taken and not given back, and
zero once all flows have ended; and every path of a flow, refused or not, ends
with having given back what it took.** No flow is stuck before its end; the step
that ends its work turns it to give back, which it has done after so many steps
of its own in every run; and all flows can be led to their ends, where every
counter is zero. -/
theorem slots_conserved (sys : System) :
    (∀ s, Reachable (step sys) Slots.init s →
      (∀ k, (s.holders k : Int) ≤ sys.limit k) ∧
      (∀ k, s.count k = s.flows.countP fun x => x.owes k) ∧
      ((∀ x ∈ s.flows, x.pos.Gone) → ∀ k, s.count k = 0)) ∧
    (∀ f proto dst port events pos,
      exec (handle f proto dst port) .arrived events = some pos →
      ∀ w, balance f proto dst port .arrived events w = (if pos.owes w then 1 else 0) ∧
        (pos.Gone → balance f proto dst port .arrived events w = 0)) ∧
    ∀ s, Reachable (step sys) Slots.init s →
      (∀ i x, s.flows[i]? = some x →
        (¬ x.pos.Gone → ∃ e t, step sys s (.step i e) = some t) ∧
        (∀ e t, step sys s (.step i e) = some t →
          x.pos.Ends (sys.forwarder x.fwd) x.proto x.dst x.port e → t.Closes i) ∧
        (x.pos.Closing → ∀ ms t, exec (step sys) s ms = some t →
          ∃ y, t.flows[i]? = some y ∧ y.pos.Closing ∧
            ms.countP (Move.isOf i) + y.pos.left ≤ x.pos.left ∧ (y.pos.left = 0 ↔ y.pos.Gone))) ∧
      ∃ ms t, (∀ m ∈ ms, ∃ i e, m = Move.step i e) ∧ exec (step sys) s ms = some t ∧
        (∀ x ∈ t.flows, x.pos.Gone) ∧ ∀ k, t.count k = 0 := by
  have haccounts : ∀ s, Reachable (step sys) Slots.init s → Accounts sys s := fun s hs =>
    hs.induction (accounts_init sys) fun s m s' hI h => hI.step m h
  have hzero : ∀ s, Reachable (step sys) Slots.init s → (∀ x ∈ s.flows, x.pos.Gone) →
      ∀ k, s.count k = 0 := fun s hs hgone k => by
    refine (haccounts s hs).accounted.eq_zero (fun x hx k => ?_) k
    simp [Flow.owes, (hgone x hx).owes]
  refine ⟨fun s hs => ⟨(haccounts s hs).bounded, (haccounts s hs).accounted, hzero s hs⟩,
    fun f proto dst port events pos hpos w => ?_, fun s hs => ⟨fun i x hi => ⟨?_, ?_, ?_⟩, ?_⟩⟩
  · have hbalance := balance_eq f proto dst port hpos w
    have hnone : At.arrived.debt w = 0 := rfl
    rw [hnone, zero_add, At.debt] at hbalance
    refine ⟨hbalance.symm, fun hgone => ?_⟩
    rw [← hbalance, hgone.owes w]
    rfl
  · intro hnot
    obtain ⟨e, t, hstep, -⟩ := exists_step_left sys hi hnot
    exact ⟨e, t, hstep⟩
  · intro e t hstep hends
    obtain ⟨e', pos, heq, hpos, ht⟩ := flow_of_own hi (by simp [Move.isOf]) hstep
    cases heq
    exact ⟨_, ht, hends.closing hpos⟩
  · intro hclosing ms t hrun
    obtain ⟨⟨y, hy, hycloses⟩, hcount⟩ := Slots.Closes.run ⟨x, hi, hclosing⟩ hrun
    rw [Slots.leftOf_eq hi, Slots.leftOf_eq hy] at hcount
    exact ⟨y, hy, hycloses, hcount, At.left_eq_zero_iff⟩
  · obtain ⟨ms, t, hms, hrun, hend⟩ := exists_run_to_end sys s
    exact ⟨ms, t, hms, hrun, hend, hzero t (hs.exec hrun) hend⟩

/-- One flow of each peer and protocol, and a resolver at `1.1.1.1`. -/
def oneEach : System where
  forwarder _ := ⟨none, false, false, some (· == .v4 0x01010101)⟩
  maxPeerFlows := 1

/-- A TCP flow is relayed while the next one of the same entry is refused and a
UDP flow to the resolver is handed over; a flow to a mail port takes no slot. -/
def relayedRun : List Move :=
  [.arrive 0 .tcp 7 (.v4 0x5db8d822) 443, .step 0 (.source true), .step 0 (.added true),
    .arrive 0 .tcp 7 (.v4 0x5db8d822) 443, .step 0 (.added true), .step 1 (.source true),
    .step 1 (.added true), .step 0 (.endpoint true), .step 1 (.added false),
    .arrive 0 .udp 7 (.v4 0x01010101) 53, .step 2 (.source true), .step 1 .subtracted,
    .step 2 (.added true), .step 2 (.added true), .step 0 (.dial true), .step 2 (.endpoint true),
    .step 2 (.datagram (.read false false false)), .step 1 .subtracted, .step 2 (.dial true),
    .arrive 0 .tcp 7 (.v4 0x5db8d822) 25, .step 3 (.source true), .step 2 .closed,
    .step 0 .closed, .step 2 .subtracted, .step 0 .subtracted, .step 0 .subtracted,
    .step 2 .subtracted]

/-- All of it is given back. -/
theorem slots_conserved_relayed :
    ∃ s, exec (step oneEach) Slots.init relayedRun = some s ∧
      s.flows.map (·.pos) = [.ended, .refused, .ended, .ended] ∧ ∀ k, s.count k = 0 := by
  have hends : (exec (step oneEach) Slots.init relayedRun).map (fun s => s.flows.map (·.pos)) =
      some [.ended, .refused, .ended, .ended] := by decide +kernel
  obtain ⟨s, hrun, hpos⟩ := Option.map_eq_some_iff.mp hends
  refine ⟨s, hrun, hpos, ((slots_conserved oneEach).1 s ⟨_, hrun⟩).2.2 fun x hx => ?_⟩
  have hmem : x.pos ∈ s.flows.map (·.pos) := List.mem_map_of_mem hx
  rw [hpos] at hmem
  simp only [List.mem_cons, List.not_mem_nil, or_false] at hmem
  obtain h | h | h | h := hmem <;> simp [h, At.Gone]

end CumulusVpn.Egress
