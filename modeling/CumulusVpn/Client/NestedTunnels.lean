/-
The native tunnels of the mobile apps (`wgnest/nest.go` and
`wgnest/wgmobile/wgmobile.go`).

Calls come from any threads and interleave; every fallible operation of one and
every closing of a device is a step of its own.  A tun that was wrapped belongs
to the call that starts a tunnel on it, then to the table of handles, then to
the call that stops it.

* `At`, `Native`, `step`: where a call stands, the table and the tuns;
* `At.owns`, `Native.owned`: who has to close a tun;
* `Moves`, `step_moves`: **every step, by what it does**;
* `Owned`, `Owned.step`: every tun has one owner until it is closed, and every
  handle is live or was stopped;
* `tuns_closed_once`: **no tun is closed twice, and none is lost**;
* `handles_kept`: **a handle keeps its tunnel until its own `Stop`, and no other
  gets the handle**.
-/
import Mathlib.Data.List.Range
import CumulusVpn.Lib.SlotAccounts
import CumulusVpn.Lib.StepSystem

namespace CumulusVpn.WgNest

open SlotAccounts StepSystem
open scoped List

/-! ### Calls -/

/-- A tun, and the device on it. -/
abbrev Tun : Type := Nat

/-- `NestedTunnel`; a single hop has no outer device. -/
structure Tunnel where
  inner : Tun
  outer : Option Tun
deriving DecidableEq, Repr

namespace Tunnel

/-- What `Close` closes, in this order. -/
def tuns (w : Tunnel) : List Tun := w.inner :: w.outer.toList

/-- The device with the real socket. -/
def socket (w : Tunnel) : Tun := w.outer.getD w.inner

end Tunnel

/-- Where a call stands. -/
inductive At
  /-- before `tunFromFD` -/
  | wrapping (nested : Bool)
  /-- the addresses of the gateways -/
  | parsing (nested : Bool) (t : Tun)
  /-- `b64ToHex` of the keys -/
  | keys (nested : Bool) (t : Tun)
  /-- `CreateNetTUN` -/
  | outerTun (t : Tun)
  | outerSet (t o : Tun)
  | outerUp (t o : Tun)
  /-- `IpcSet` of the device on the tun of the caller -/
  | innerSet (w : Tunnel)
  | innerUp (w : Tunnel)
  | registering (w : Tunnel)
  /-- the devices and tuns that are still to be closed -/
  | closing (tuns : List Tun)
  /-- `Stop` -/
  | taking (handle : Nat)
  /-- `Rebind` -/
  | finding (handle : Nat)
  | rebinding (w : Tunnel)
  | started (handle : Nat)
  | ended
deriving DecidableEq, Repr

/-- The process: its table of handles, and its calls. -/
structure Native where
  nextID : Nat
  byID : List (Nat × Tunnel)
  calls : List At
  /-- how many tuns were made, and how often each was closed -/
  made : Nat
  closes : List Tun
  /-- the handles that `Stop` took -/
  stopped : List Nat
  /-- the devices whose socket was opened again -/
  rebound : List Tun
deriving DecidableEq, Repr

/-- A process before its first call. -/
def Native.new : Native := ⟨0, [], [], 0, [], [], []⟩

/-- A call begins, or does its next operation. -/
inductive Event
  | start (nested : Bool)
  | stop (handle : Nat)
  | rebind (handle : Nat)
  /-- the next operation of a call goes well -/
  | pass (i : Nat)
  /-- it fails -/
  | fail (i : Nat)
deriving DecidableEq, Repr

namespace Native

/-- The process with a call at another place. -/
def move (s : Native) (i : Nat) (pos : At) : Native := { s with calls := s.calls.set i pos }

/-- `byID[handle]`. -/
def lookup (s : Native) (handle : Nat) : Option Tunnel :=
  (s.byID.find? (·.1 = handle)).map Prod.snd

/-- The next operation of call `i` goes well. -/
def pass (s : Native) (i : Nat) : At → Option Native
  | .wrapping nested => some { s.move i (.parsing nested s.made) with made := s.made + 1 }
  | .parsing nested t => some (s.move i (.keys nested t))
  | .keys true t => some (s.move i (.outerTun t))
  | .keys false t => some (s.move i (.innerSet ⟨t, none⟩))
  | .outerTun t => some { s.move i (.outerSet t s.made) with made := s.made + 1 }
  | .outerSet t o => some (s.move i (.outerUp t o))
  | .outerUp t o => some (s.move i (.innerSet ⟨t, some o⟩))
  | .innerSet w => some (s.move i (.innerUp w))
  | .innerUp w => some (s.move i (.registering w))
  | .registering w =>
      some { s.move i (.started (s.nextID + 1)) with
        nextID := s.nextID + 1
        byID := s.byID ++ [(s.nextID + 1, w)] }
  | .closing (t :: ts) => some { s.move i (.closing ts) with closes := s.closes ++ [t] }
  | .closing [] => some (s.move i .ended)
  | .taking handle =>
      match s.lookup handle with
      | some w => some { s.move i (.closing w.tuns) with
          byID := s.byID.filter (·.1 ≠ handle)
          stopped := s.stopped ++ [handle] }
      | none => some (s.move i .ended)
  | .finding handle =>
      match s.lookup handle with
      | some w => some (s.move i (.rebinding w))
      | none => some (s.move i .ended)
  | .rebinding w => some { s.move i .ended with rebound := s.rebound ++ [w.socket] }
  | .started _ | .ended => none

/-- What is closed when the next operation of a call fails. -/
def failing : At → Option (List Tun)
  | .wrapping _ => some []
  | .parsing _ t | .keys _ t | .outerTun t => some [t]
  | .outerSet t o | .outerUp t o => some [o, t]
  | .innerSet w | .innerUp w => some w.tuns
  -- `BindUpdate` returns an error
  | .rebinding _ => some []
  | .registering _ | .closing _ | .taking _ | .finding _ | .started _ | .ended => none

end Native

/-- The process after an event; none where the call is not at it. -/
def step (s : Native) : Event → Option Native
  | .start nested => some { s with calls := s.calls ++ [.wrapping nested] }
  | .stop handle => some { s with calls := s.calls ++ [.taking handle] }
  | .rebind handle => some { s with calls := s.calls ++ [.finding handle] }
  | .pass i => (s.calls[i]?).bind fun pos => s.pass i pos
  | .fail i =>
      (s.calls[i]?).bind fun pos => (Native.failing pos).map fun ts => s.move i (.closing ts)

/-! ### Who has to close a tun -/

namespace At

/-- The tuns that a call has to close, or to hand on. -/
def owns : At → List Tun
  | parsing _ t | keys _ t | outerTun t => [t]
  | outerSet t o | outerUp t o => [t, o]
  | innerSet w | innerUp w | registering w => w.tuns
  | closing ts => ts
  | wrapping _ | taking _ | finding _ | rebinding _ | started _ | ended => []

end At

namespace Native

/-- The handles in the table. -/
def handles (s : Native) : List Nat := s.byID.map Prod.fst

/-- The tuns of the tunnels that are up. -/
def live (s : Native) : List Tun := s.byID.flatMap fun e => e.2.tuns

/-- How often a tun is owned or was closed. -/
def owned (s : Native) (t : Tun) : Nat :=
  owed (fun pos : At => pos.owns.count t) s.calls + s.live.count t + s.closes.count t

end Native

/-- **Every tun has one owner until it is closed, and every handle is live or was
stopped.** -/
structure Owned (s : Native) : Prop where
  tuns : ∀ t, s.owned t = (List.range s.made).count t
  handles : (s.handles ++ s.stopped).Perm (List.range' 1 s.nextID)

/-! ### What a step can do -/

/-- **Every step, by what it does.** -/
inductive Moves (s : Native) : Native → Prop
  | called {pos : At} (h : pos.owns = []) : Moves s { s with calls := s.calls ++ [pos] }
  /-- the call keeps its tuns, or gives them to be closed -/
  | moved {i : Nat} {pos pos' : At} (hi : s.calls[i]? = some pos)
      (h : ∀ t, pos'.owns.count t = pos.owns.count t) : Moves s (s.move i pos')
  | wrapped {i : Nat} {pos pos' : At} (hi : s.calls[i]? = some pos)
      (h : ∀ t, pos'.owns.count t = pos.owns.count t + [s.made].count t) :
      Moves s { s.move i pos' with made := s.made + 1 }
  | registered {i : Nat} {w : Tunnel} (hi : s.calls[i]? = some (.registering w)) :
      Moves s
        { s.move i (.started (s.nextID + 1)) with
          nextID := s.nextID + 1
          byID := s.byID ++ [(s.nextID + 1, w)] }
  | closed {i : Nat} {t : Tun} {ts : List Tun} (hi : s.calls[i]? = some (.closing (t :: ts))) :
      Moves s { s.move i (.closing ts) with closes := s.closes ++ [t] }
  | taken {i handle : Nat} {w : Tunnel} (hi : s.calls[i]? = some (.taking handle))
      (hw : s.lookup handle = some w) :
      Moves s
        { s.move i (.closing w.tuns) with
          byID := s.byID.filter (·.1 ≠ handle)
          stopped := s.stopped ++ [handle] }
  | rebound {i : Nat} {w : Tunnel} (hi : s.calls[i]? = some (.rebinding w)) :
      Moves s { s.move i .ended with rebound := s.rebound ++ [w.socket] }

section Moves

variable {s s' : Native} {e : Event} {i : Nat} {pos : At}

lemma pass_moves (hi : s.calls[i]? = some pos) (h : s.pass i pos = some s') : Moves s s' := by
  cases pos with
  | wrapping nested => cases h; exact .wrapped hi fun t => (Nat.zero_add _).symm
  | parsing nested t => cases h; exact .moved hi fun _ => rfl
  | keys nested t =>
      cases nested with
      | true => cases h; exact .moved hi fun _ => rfl
      | false => cases h; exact .moved hi fun _ => rfl
  | outerTun t =>
      cases h
      refine .wrapped hi fun t' => ?_
      show [t, s.made].count t' = [t].count t' + [s.made].count t'
      rw [← List.count_append]
      rfl
  | outerSet t o => cases h; exact .moved hi fun _ => rfl
  | outerUp t o => cases h; exact .moved hi fun _ => rfl
  | innerSet w => cases h; exact .moved hi fun _ => rfl
  | innerUp w => cases h; exact .moved hi fun _ => rfl
  | registering w => cases h; exact .registered hi
  | closing ts =>
      cases ts with
      | nil => cases h; exact .moved hi fun _ => rfl
      | cons t ts => cases h; exact .closed hi
  | taking handle =>
      simp only [Native.pass] at h
      split at h
      · cases h
        exact .taken hi ‹_›
      · cases h
        exact .moved hi fun _ => rfl
  | finding handle =>
      simp only [Native.pass] at h
      split at h <;> cases h <;> exact .moved hi fun _ => rfl
  | rebinding w => cases h; exact .rebound hi
  | started handle => cases h
  | ended => cases h

/-- A call that fails closes what it owns. -/
lemma failing_count {ts : List Tun} (h : Native.failing pos = some ts) (t : Tun) :
    ts.count t = pos.owns.count t := by
  cases pos with
  | outerSet t' o | outerUp t' o =>
      cases h
      exact (List.Perm.swap t' o []).count_eq t
  | wrapping _ | parsing _ _ | keys _ _ | outerTun _ | innerSet _ | innerUp _ | rebinding _ =>
      cases h
      rfl
  | registering _ | closing _ | taking _ | finding _ | started _ | ended => cases h

theorem step_moves (h : step s e = some s') : Moves s s' := by
  cases e with
  | start nested => cases h; exact .called rfl
  | stop handle => cases h; exact .called rfl
  | rebind handle => cases h; exact .called rfl
  | pass i =>
      obtain ⟨pos, hi, hpass⟩ := Option.bind_eq_some_iff.mp h
      exact pass_moves hi hpass
  | fail i =>
      obtain ⟨pos, hi, hfail⟩ := Option.bind_eq_some_iff.mp h
      obtain ⟨ts, hts, rfl⟩ := Option.map_eq_some_iff.mp hfail
      exact .moved hi (failing_count hts)

end Moves

/-! ### What every run keeps -/

section Table

variable {byID : List (Nat × Tunnel)} {handle : Nat} {w : Tunnel}

lemma mem_of_lookup (hw : (byID.find? (·.1 = handle)).map Prod.snd = some w) :
    (handle, w) ∈ byID := by
  obtain ⟨e, he, rfl⟩ := Option.map_eq_some_iff.mp hw
  have hkey : e.1 = handle := by simpa using List.find?_some he
  subst hkey
  exact List.mem_of_find?_eq_some he

lemma lookup_of_mem (hnodup : (byID.map Prod.fst).Nodup) (hmem : (handle, w) ∈ byID) :
    (byID.find? (·.1 = handle)).map Prod.snd = some w := by
  induction byID with
  | nil => cases hmem
  | cons e byID ih =>
      rw [List.map_cons, List.nodup_cons] at hnodup
      cases List.mem_cons.mp hmem with
      | inl heq => simp [← heq]
      | inr hrest =>
          have hne : e.1 ≠ handle := fun heq =>
            hnodup.1 (List.mem_map.mpr ⟨_, hrest, heq.symm⟩)
          rw [List.find?_cons_of_neg (by simpa using hne)]
          exact ih hnodup.2 hrest

/-- The other entries stay. -/
lemma perm_filter (hnodup : (byID.map Prod.fst).Nodup) (hmem : (handle, w) ∈ byID) :
    byID.Perm ((handle, w) :: byID.filter (·.1 ≠ handle)) := by
  induction byID with
  | nil => cases hmem
  | cons e byID ih =>
      rw [List.map_cons, List.nodup_cons] at hnodup
      cases List.mem_cons.mp hmem with
      | inl heq =>
          subst heq
          have hall : byID.filter (·.1 ≠ handle) = byID := by
            refine List.filter_eq_self.mpr fun x hx => ?_
            have hne : x.1 ≠ handle := fun hsame => hnodup.1 (List.mem_map.mpr ⟨x, hx, hsame⟩)
            simpa using hne
          rw [List.filter_cons_of_neg (by simp), hall]
      | inr hrest =>
          have hne : e.1 ≠ handle := fun heq =>
            hnodup.1 (List.mem_map.mpr ⟨_, hrest, heq.symm⟩)
          rw [List.filter_cons_of_pos (by simpa using hne)]
          exact ((ih hnodup.2 hrest).cons e).trans (List.Perm.swap _ _ _)

end Table

section Owned

variable {s s' : Native} {e : Event}

lemma Owned.new : Owned .new where
  tuns := fun _ => rfl
  handles := List.Perm.refl _

lemma Owned.nodup (h : Owned s) : (s.handles ++ s.stopped).Nodup :=
  h.handles.nodup_iff.mpr List.nodup_range'

/-- What a call that moves owns more. -/
lemma owed_move {i : Nat} {pos : At} (hi : s.calls[i]? = some pos) (pos' : At) (t : Tun) :
    owed (fun p : At => p.owns.count t) (s.calls.set i pos') + pos.owns.count t =
      owed (fun p : At => p.owns.count t) s.calls + pos'.owns.count t := by
  obtain ⟨hlt, hget⟩ := List.getElem?_eq_some_iff.mp hi
  have hset := @owed_set _ _ (fun p : At => p.owns.count t) i hlt pos'
  rwa [hget] at hset

lemma Owned.step (h : Owned s) (hs : Moves s s') : Owned s' := by
  cases hs with
  | @called pos hnone =>
      refine ⟨fun t => ?_, h.handles⟩
      have hcall : owed (fun p : At => p.owns.count t) [pos] = 0 := by simp [owed, hnone]
      have hbefore := h.tuns t
      simp only [Native.owned, owed_append, Native.live] at hbefore ⊢
      omega
  | @moved i pos pos' hi hcount =>
      refine ⟨fun t => ?_, h.handles⟩
      have hmove := owed_move hi pos' t
      have hbefore := h.tuns t
      have hsame := hcount t
      simp only [Native.owned, Native.move, Native.live] at hbefore ⊢
      omega
  | @wrapped i pos pos' hi hcount =>
      refine ⟨fun t => ?_, h.handles⟩
      have hmove := owed_move hi pos' t
      have hbefore := h.tuns t
      have hmore := hcount t
      simp only [Native.owned, Native.move, Native.live, List.range_succ, List.count_append]
        at hbefore ⊢
      omega
  | @registered i w hi =>
      refine ⟨fun t => ?_, ?_⟩
      · have hmove := owed_move hi (.started (s.nextID + 1)) t
        have hbefore := h.tuns t
        have hentry : [(s.nextID + 1, w)].flatMap (fun e => e.2.tuns) = w.tuns := by simp
        have howns : (At.registering w).owns.count t = w.tuns.count t := rfl
        have hnone : (At.started (s.nextID + 1)).owns.count t = 0 := rfl
        simp only [Native.owned, Native.move, Native.live, List.flatMap_append,
          List.count_append, hentry] at hbefore ⊢
        omega
      · show ((s.byID ++ [(s.nextID + 1, w)]).map Prod.fst ++ s.stopped).Perm _
        calc ((s.byID ++ [(s.nextID + 1, w)]).map Prod.fst ++ s.stopped)
            = s.handles ++ [s.nextID + 1] ++ s.stopped := by simp [Native.handles]
          _ = s.handles ++ ([s.nextID + 1] ++ s.stopped) := List.append_assoc _ _ _
          _ ~ s.handles ++ (s.stopped ++ [s.nextID + 1]) :=
              List.Perm.append_left _ List.perm_append_comm
          _ = s.handles ++ s.stopped ++ [s.nextID + 1] := (List.append_assoc _ _ _).symm
          _ ~ List.range' 1 s.nextID ++ [s.nextID + 1] := h.handles.append_right _
          _ = List.range' 1 (s.nextID + 1) := by
              rw [List.range'_concat, Nat.one_mul, Nat.add_comm 1]
  | @closed i t' ts hi =>
      refine ⟨fun t => ?_, h.handles⟩
      have hmove := owed_move hi (.closing ts) t
      have hbefore := h.tuns t
      have howns : (At.closing (t' :: ts)).owns.count t = [t'].count t + ts.count t := by
        rw [← List.count_append]
        rfl
      have hrest : (At.closing ts).owns.count t = ts.count t := rfl
      simp only [Native.owned, Native.move, Native.live, List.count_append] at hbefore ⊢
      omega
  | @taken i handle w hi hw =>
      have hperm := perm_filter (List.nodup_append.mp h.nodup).1 (mem_of_lookup hw)
      refine ⟨fun t => ?_, ?_⟩
      · have hmove := owed_move hi (.closing w.tuns) t
        have hbefore := h.tuns t
        have htable : s.live.count t =
            w.tuns.count t +
              ((s.byID.filter (·.1 ≠ handle)).flatMap fun e => e.2.tuns).count t := by
          rw [← List.count_append]
          exact (hperm.flatMap_right _).count_eq t
        have hnone : (At.taking handle).owns.count t = 0 := rfl
        have howns : (At.closing w.tuns).owns.count t = w.tuns.count t := rfl
        simp only [Native.owned, Native.move] at hbefore ⊢
        simp only [Native.live] at htable hbefore ⊢
        omega
      · show ((s.byID.filter (·.1 ≠ handle)).map Prod.fst ++ (s.stopped ++ [handle])).Perm _
        calc ((s.byID.filter (·.1 ≠ handle)).map Prod.fst ++ (s.stopped ++ [handle]))
            ~ [handle] ++ ((s.byID.filter (·.1 ≠ handle)).map Prod.fst ++ s.stopped) := by
              rw [← List.append_assoc]
              exact List.perm_append_comm
          _ ~ s.handles ++ s.stopped := (hperm.map Prod.fst).symm.append_right _
          _ ~ List.range' 1 s.nextID := h.handles
  | @rebound i w hi =>
      refine ⟨fun t => ?_, h.handles⟩
      have hmove := owed_move hi .ended t
      have hbefore := h.tuns t
      have hsame : At.ended.owns.count t = (At.rebinding w).owns.count t := rfl
      simp only [Native.owned, Native.move, Native.live] at hbefore ⊢
      omega

lemma owned_of_reachable (hs : Reachable step .new s) : Owned s :=
  hs.induction .new fun _ _ _ h hstep => h.step (step_moves hstep)

/-- A call that cannot go on owns nothing. -/
lemma owns_of_pass_eq_none {i : Nat} {pos : At} (h : s.pass i pos = none) : pos.owns = [] := by
  cases pos with
  | started handle | ended | taking handle | finding handle | rebinding w | wrapping nested => rfl
  | keys nested t => cases nested <;> cases h
  | closing ts =>
      cases ts with
      | nil => rfl
      | cons t ts => cases h
  | parsing _ _ | outerTun _ | outerSet _ _ | outerUp _ _ | innerSet _ | innerUp _
  | registering _ => cases h

/-- **No tun is closed twice, nor while its tunnel is up, and once no call can go
on, every tun that was made is closed or belongs to one tunnel that is up.** -/
theorem tuns_closed_once (hs : Reachable step .new s) :
    (s.closes ++ s.live).Nodup ∧
      ((∀ i < s.calls.length, step s (.pass i) = none) →
        (s.closes ++ s.live).Perm (List.range s.made)) := by
  have howned := owned_of_reachable hs
  constructor
  · refine List.nodup_iff_count.mpr fun t => ?_
    have honce := List.nodup_iff_count.mp (List.nodup_range (n := s.made)) t
    have htuns := howned.tuns t
    rw [Native.owned] at htuns
    rw [List.count_append]
    omega
  · intro hquiet
    refine List.perm_iff_count.mpr fun t => ?_
    have hnone : owed (fun p : At => p.owns.count t) s.calls = 0 := by
      refine List.sum_eq_zero fun n hn => ?_
      obtain ⟨pos, hpos, rfl⟩ := List.mem_map.mp hn
      obtain ⟨i, hi, rfl⟩ := List.mem_iff_getElem.mp hpos
      have hpass : s.pass i s.calls[i] = none := by
        have := hquiet i hi
        rwa [step, List.getElem?_eq_getElem hi] at this
      rw [owns_of_pass_eq_none hpass, List.count_nil]
    have htuns := howned.tuns t
    rw [Native.owned] at htuns
    rw [List.count_append]
    omega

/-- Two calls at once; the first fails on a key, and the second is stopped. -/
theorem tuns_closed_once_two :
    ∃ s : Native, (s.closes ++ s.live).Perm (List.range s.made) ∧ s.closes = [0, 1, 2] :=
  ⟨_, (tuns_closed_once
    ⟨[.start false, .start true, .pass 0, .pass 1, .pass 0, .pass 1, .fail 0, .pass 0, .pass 1,
      .pass 0, .pass 1, .pass 1, .pass 1, .pass 1, .pass 1, .pass 1, .stop 1, .pass 2, .pass 2,
      .pass 2, .pass 2], rfl⟩).2 (by decide), rfl⟩

/-! ### Handles -/

/-- What a step does to the tunnels that are up. -/
lemma kept_step (hs : Moves s s') :
    (∀ handle ∈ s.stopped, handle ∈ s'.stopped) ∧
      ∀ e ∈ s.byID, e ∈ s'.byID ∨ e.1 ∈ s'.stopped := by
  cases hs with
  | called _ | moved _ _ | wrapped _ _ | closed _ | rebound _ =>
      exact ⟨fun _ h => h, fun _ he => .inl he⟩
  | registered _ => exact ⟨fun _ h => h, fun _ he => .inl (List.mem_append_left _ he)⟩
  | @taken i handle w _ _ =>
      refine ⟨fun _ h => List.mem_append_left _ h, fun e he => ?_⟩
      by_cases hkey : e.1 = handle
      · exact .inr (List.mem_append_right _ (List.mem_singleton.mpr hkey))
      · exact .inl (List.mem_filter.mpr ⟨he, by simpa using hkey⟩)

/-- **A handle keeps its tunnel until its own `Stop`, whatever else is called, and
after that it stands for none.** -/
theorem handles_kept {es : List Event} (hs : Reachable step .new s)
    (hexec : exec step s es = some s') :
    (s'.handles ++ s'.stopped).Perm (List.range' 1 s'.nextID) ∧
      (∀ e ∈ s.byID, s'.lookup e.1 = some e.2 ∨ e.1 ∈ s'.stopped) ∧
        ∀ handle ∈ s.stopped, s'.lookup handle = none := by
  have howned : Owned s' := by
    obtain ⟨es₀, h₀⟩ := hs
    refine owned_of_reachable ⟨es₀ ++ es, ?_⟩
    rw [exec_append, h₀]
    exact hexec
  obtain ⟨hstopped, hkept⟩ : (∀ handle ∈ s.stopped, handle ∈ s'.stopped) ∧
      ∀ e ∈ s.byID, e ∈ s'.byID ∨ e.1 ∈ s'.stopped := by
    refine exec_invariant (G := fun _ _ => True)
      (I := fun x : Native => (∀ handle ∈ s.stopped, handle ∈ x.stopped) ∧
        ∀ e ∈ s.byID, e ∈ x.byID ∨ e.1 ∈ x.stopped)
      (fun x _ x' hx _ hstep => ?_) ⟨fun _ h => h, fun _ he => .inl he⟩
      (along_of_forall (fun _ _ => trivial) _ _) hexec
    obtain ⟨hgrow, hstay⟩ := kept_step (step_moves hstep)
    refine ⟨fun handle h => hgrow handle (hx.1 handle h), fun e he => ?_⟩
    cases hx.2 e he with
    | inl hlive => exact hstay e hlive
    | inr hgone => exact .inr (hgrow _ hgone)
  have hnodup := howned.nodup
  refine ⟨howned.handles, fun e he => ?_, fun handle h => ?_⟩
  · cases hkept e he with
    | inl hlive => exact .inl (lookup_of_mem (List.nodup_append.mp hnodup).1 hlive)
    | inr hgone => exact .inr hgone
  · refine Option.eq_none_iff_forall_ne_some.mpr fun w hw => ?_
    have hmem : handle ∈ s'.handles := List.mem_map.mpr ⟨_, mem_of_lookup hw, rfl⟩
    exact (List.nodup_append.mp hnodup).2.2 _ hmem _ (hstopped handle h) rfl

/-- One tunnel is up. -/
def single : Native where
  nextID := 1
  byID := [(1, ⟨0, none⟩)]
  calls := [.started 1]
  made := 1
  closes := []
  stopped := []
  rebound := []

/-- It is rebound while it is stopped, and a second came up. -/
def replaced : Native where
  nextID := 2
  byID := [(2, ⟨1, none⟩)]
  calls := [.started 1, .ended, .closing [], .started 2]
  made := 2
  closes := [0]
  stopped := [1]
  rebound := [0]

theorem handles_kept_replaced :
    (replaced.lookup 1 = some ⟨0, none⟩ ∨ 1 ∈ replaced.stopped) ∧
      replaced.lookup 2 = some ⟨1, none⟩ :=
  ⟨(@handles_kept single replaced
    [.rebind 1, .pass 1, .stop 1, .start false, .pass 2, .pass 3, .pass 1, .pass 3, .pass 3,
      .pass 3, .pass 3, .pass 3, .pass 2]
    ⟨[.start false, .pass 0, .pass 0, .pass 0, .pass 0, .pass 0, .pass 0], by decide⟩
    (by decide)).2.1 (1, ⟨0, none⟩) (by decide), by decide⟩

end Owned

end CumulusVpn.WgNest
