/-
The relay's cap on live connections (`Serve` of
`gateway/internal/tlsrelay/relay.go`).

One goroutine accepts; every connection that is served has a goroutine of its
own, which gives its slot back when it returns.

* `Conn`, `Relay`, `step`: the counter, the accepting goroutine and the
  connections that are served;
* `Capped`: what the counter shows; `Capped.step`;
* `Event.givesBack`, `Relay.due`: the steps that give slots back, and how many of
  them are due; `due_step`, `exists_givesBack`;
* `conns_capped`: **no more connections than the cap are served, one is refused
  only while that many are, and every slot is given back**.
-/
import CumulusVpn.Lib.SlotAccounts
import CumulusVpn.Lib.StepSystem

namespace CumulusVpn.TlsRelay

open SlotAccounts StepSystem

/-- How many connections the relay serves at once. -/
abbrev maxConns : Int := 512

/-- Where a connection stands that is served. -/
inductive Conn
  | handling
  /-- `handle` has returned, before `conns.Add(-1)` -/
  | returned
  | released
deriving DecidableEq, Repr

/-- The connection has its slot. -/
def Conn.live : Conn → Bool
  | handling | returned => true
  | released => false

/-- The relay: its counter, the accepting goroutine, and the connections it took. -/
structure Relay where
  conns : Int
  /-- the accepting goroutine has added one past the cap -/
  refusing : Bool
  served : List Conn
  /-- the listener is open -/
  serving : Bool
deriving DecidableEq, Repr

/-- A relay before its first connection. -/
def Relay.new : Relay := ⟨0, false, [], true⟩

/-- How many connections have their slot. -/
def Relay.live (r : Relay) : Nat := r.served.countP Conn.live

/-- A step of the accepting goroutine or of a connection's. -/
inductive Event
  /-- `Accept`, and `conns.Add(1)` -/
  | accept
  /-- `conns.Add(-1)` of the accepting goroutine -/
  | refuse
  | ret (i : Nat)
  /-- `conns.Add(-1)` of a connection's goroutine -/
  | release (i : Nat)
  /-- the listener is closed -/
  | stop
deriving DecidableEq, Repr

/-- The relay after a step; none where no goroutine is at it. -/
def step (r : Relay) : Event → Option Relay
  | .accept =>
      if r.serving && ! r.refusing then
        if r.conns + 1 > maxConns then some { r with conns := r.conns + 1, refusing := true }
        else some { r with conns := r.conns + 1, served := r.served ++ [.handling] }
      else none
  | .refuse => if r.refusing then some { r with conns := r.conns - 1, refusing := false } else none
  | .ret i =>
      if r.served[i]? = some .handling then some { r with served := r.served.set i .returned }
      else none
  | .release i =>
      if r.served[i]? = some .returned then
        some { r with conns := r.conns - 1, served := r.served.set i .released }
      else none
  | .stop => some { r with serving := false }

/-! ### What the counter shows -/

/-- The counter is the number of live connections, and of the one that is being
refused; no more are live than the cap. -/
structure Capped (r : Relay) : Prop where
  count : r.conns = r.live + (if r.refusing then 1 else 0)
  live_le : (r.live : Int) ≤ maxConns

lemma Capped.new : Capped .new := ⟨rfl, by decide⟩

section Step

variable {r r' : Relay} {e : Event}

/-- A connection's step changes the number of live ones by its own part. -/
lemma live_set {i : Nat} {c : Conn} (h : r.served[i]? = some c) (c' : Conn) :
    ((r.served.set i c').countP Conn.live : Int) =
      r.served.countP Conn.live - (if c.live then 1 else 0) + (if c'.live then 1 else 0) := by
  obtain ⟨hi, rfl⟩ := List.getElem?_eq_some_iff.mp h
  exact countP_set_cast hi c'

/-- **What an accepted connection finds.** -/
lemma accept_cases (h : step r .accept = some r') :
    (r.conns + 1 > maxConns ∧ r' = { r with conns := r.conns + 1, refusing := true } ∧
        r.refusing = false) ∨
      (r.conns + 1 ≤ maxConns ∧ r.refusing = false ∧
        r' = { r with conns := r.conns + 1, served := r.served ++ [.handling] }) := by
  rw [step] at h
  split at h
  · rename_i hready
    have hrefusing : r.refusing = false := by simpa using (Bool.and_eq_true_iff.mp hready).2
    split at h <;> cases h
    · exact .inl ⟨‹_›, rfl, hrefusing⟩
    · exact .inr ⟨by omega, hrefusing, rfl⟩
  · cases h

lemma Capped.step (hr : Capped r) (h : step r e = some r') : Capped r' := by
  obtain ⟨hcount, hlive⟩ := hr
  simp only [Relay.live] at hcount hlive
  cases e with
  | accept =>
      cases accept_cases h with
      | inl hpast =>
          obtain ⟨-, rfl, hrefusing⟩ := hpast
          rw [hrefusing] at hcount
          exact ⟨by simp [Relay.live] at hcount ⊢; omega, hlive⟩
      | inr hroom =>
          obtain ⟨hle, hrefusing, rfl⟩ := hroom
          have hmore : ((r.served ++ [Conn.handling]).countP Conn.live : Int) =
              r.served.countP Conn.live + 1 := by
            simp [Conn.live]
          rw [hrefusing] at hcount
          simp only [Bool.false_eq_true, if_false, Int.add_zero] at hcount
          refine ⟨?_, ?_⟩
          · simp only [Relay.live, hmore, hrefusing, hcount, Bool.false_eq_true, if_false,
              Int.add_zero]
          · simp only [Relay.live, hmore]
            omega
  | refuse =>
      rw [TlsRelay.step] at h
      split at h <;> cases h
      rename_i hrefusing
      rw [if_pos hrefusing] at hcount
      exact ⟨by simp [Relay.live]; omega, hlive⟩
  | ret i =>
      rw [TlsRelay.step] at h
      split at h <;> cases h
      have hsame := live_set ‹_› .returned
      simp only [Conn.live, if_true] at hsame
      refine ⟨?_, ?_⟩
      · simp only [Relay.live, hsame, hcount]
        omega
      · simp only [Relay.live, hsame]
        omega
  | release i =>
      rw [TlsRelay.step] at h
      split at h <;> cases h
      have hless := live_set ‹_› .released
      simp only [Conn.live, if_true, Bool.false_eq_true, if_false] at hless
      refine ⟨?_, ?_⟩
      · simp only [Relay.live, hless, hcount]
        omega
      · simp only [Relay.live, hless]
        omega
  | stop =>
      cases h
      exact ⟨hcount, hlive⟩

end Step

/-! ### What gives the slots back -/

/-- A step of the relay that gives a slot back, or leads to that. -/
def Event.givesBack : Event → Bool
  | .refuse | .ret _ | .release _ => true
  | .accept | .stop => false

/-- The steps until a connection has given its slot back. -/
def Conn.due : Conn → ℕ
  | handling => 2
  | returned => 1
  | released => 0

/-- Those of all connections, and of the one that is being refused. -/
def Relay.due (r : Relay) : ℕ := owed Conn.due r.served + if r.refusing then 1 else 0

section GiveBack

variable {r r' : Relay} {e : Event}

/-- A connection that takes a step is one step nearer. -/
lemma due_set {i : ℕ} {c : Conn} (h : r.served[i]? = some c) (c' : Conn)
    (hc : c.due = c'.due + 1) :
    owed Conn.due (r.served.set i c') + 1 = owed Conn.due r.served := by
  obtain ⟨hi, hi'⟩ := List.getElem?_eq_some_iff.mp h
  have hset : owed Conn.due (r.served.set i c') + r.served[i].due = _ := owed_set hi c'
  rw [hi', hc] at hset
  omega

lemma due_step (he : e.givesBack = true) (h : step r e = some r') : r'.due + 1 = r.due := by
  cases e with
  | refuse =>
      rw [step] at h
      split at h <;> cases h
      rename_i hrefusing
      simp [Relay.due, hrefusing]
  | ret i =>
      rw [step] at h
      split at h <;> cases h
      have hless := due_set ‹_› .returned rfl
      simp only [Relay.due]
      omega
  | release i =>
      rw [step] at h
      split at h <;> cases h
      have hless := due_set ‹_› .released rfl
      simp only [Relay.due]
      omega
  | _ => cases he

/-- While the counter is not at zero, a step that gives back can be taken. -/
lemma exists_givesBack (hr : Capped r) (h : r.conns ≠ 0) :
    ∃ e, e.givesBack = true ∧ (step r e).isSome := by
  by_cases hrefusing : r.refusing = true
  · exact ⟨.refuse, rfl, by rw [step, if_pos hrefusing]; rfl⟩
  · have hcount := hr.count
    rw [if_neg hrefusing] at hcount
    have hlive : 0 < r.served.countP Conn.live := by
      simp only [Relay.live] at hcount
      omega
    obtain ⟨c, hc, hlive⟩ := List.countP_pos_iff.mp hlive
    obtain ⟨i, hi⟩ := List.getElem?_of_mem hc
    cases c with
    | handling => exact ⟨.ret i, rfl, by rw [step, if_pos hi]; rfl⟩
    | returned => exact ⟨.release i, rfl, by rw [step, if_pos hi]; rfl⟩
    | released => cases hlive

lemma due_exec {es : List Event} (he : ∀ e ∈ es, e.givesBack = true)
    (h : exec step r es = some r') :
    es.length + r'.due = r.due := by
  induction es generalizing r with
  | nil =>
      cases h
      exact Nat.zero_add _
  | cons e es ih =>
      obtain ⟨r₁, hstep, hrest⟩ := exec_cons_eq_some.mp h
      have hfirst := due_step (he e List.mem_cons_self) hstep
      have hothers := ih (fun e' he' => he e' (List.mem_cons_of_mem _ he')) hrest
      rw [List.length_cons]
      omega

lemma capped_of_reachable (h : Reachable step .new r) : Capped r :=
  h.induction (I := Capped) Capped.new fun _ _ _ hs ha => hs.step ha

/-- **No more connections than the cap are served**; the counter shows those and
the one that is being refused; one is refused only while that many are served.
**Every slot is given back**: nothing but the connections and the refusal
themselves is needed for that, in no more steps than are due, and as long as the
counter is not at zero one of these steps can be taken. -/
theorem conns_capped (h : Reachable step .new r) :
    (r.live : Int) ≤ maxConns ∧ r.conns = r.live + (if r.refusing then 1 else 0) ∧
      (∀ r', step r .accept = some r' →
        (r'.refusing = true ↔ (r.live : Int) = maxConns) ∧
          (r'.refusing = false → r'.served = r.served ++ [.handling])) ∧
      (r.refusing = false → (∀ c ∈ r.served, c = .released) → r.conns = 0) ∧
      ∀ es r', (∀ e ∈ es, e.givesBack = true) → exec step r es = some r' →
        es.length ≤ r.due ∧ (r'.conns = 0 ∨ ∃ e, e.givesBack = true ∧ (step r' e).isSome) := by
  obtain ⟨hcount, hlive⟩ := capped_of_reachable h
  refine ⟨hlive, hcount, fun r' hr' => ?_, fun hrefusing hall => ?_, fun es r' hes hrun => ?_⟩
  · cases accept_cases hr' with
    | inl hpast =>
        obtain ⟨hgt, rfl, hrefusing⟩ := hpast
        rw [hrefusing] at hcount
        simp only [Bool.false_eq_true, if_false, Int.add_zero] at hcount
        refine ⟨⟨fun _ => by omega, fun _ => rfl⟩, fun hfalse => ?_⟩
        cases hfalse
    | inr hroom =>
        obtain ⟨hle, hrefusing, rfl⟩ := hroom
        rw [hrefusing] at hcount
        simp only [Bool.false_eq_true, if_false, Int.add_zero] at hcount
        refine ⟨⟨fun htrue => ?_, fun hfull => ?_⟩, fun _ => rfl⟩
        · rw [show _ = r.refusing from rfl, hrefusing] at htrue
          cases htrue
        · omega
  · have hnone : r.live = 0 := by
      rw [Relay.live, List.countP_eq_zero]
      intro c hc
      rw [hall c hc]
      exact Bool.false_ne_true
    rw [hcount, hnone, hrefusing]
    rfl
  · have hdue := due_exec hes hrun
    refine ⟨by omega, or_iff_not_imp_left.mpr fun hne => ?_⟩
    exact exists_givesBack (capped_of_reachable (Reachable.exec h hrun)) hne

/-- A connection that comes, another one that comes with it, and the listener that
closes over both. -/
theorem conns_capped_two :
    ∃ r, exec step .new [.accept, .accept, .ret 1, .stop, .release 1, .ret 0, .release 0] = some r ∧
      r.conns = 0 :=
  ⟨_, rfl, (conns_capped ⟨[.accept, .accept, .ret 1, .stop, .release 1, .ret 0, .release 0],
    rfl⟩).2.2.2.1 rfl (by decide)⟩

end GiveBack

end CumulusVpn.TlsRelay
