/-
A loop that copies what one end sends to another end, and pays for it.

The loop reads a piece of at most so many units, waits until it may send it,
writes it and counts it.  A unit has a size (one for the bytes of a stream, its
length for a datagram), and what has no size is not passed on.  Any read, wait
or write may fail, and a write may fail after some units.

* `Pump`, `Pipe`: where the loop stands, and the units of one direction;
* `copy`, `Copies`, `copy_copies`: **every step of the loop**;
* `Sound`, `Sound.step`: **nothing is lost, reordered or written unpaid**;
* `Sound.written_eq`: a loop that waits has written everything;
* `Ends`, `exchange`: two loops between two ends, which close together;
  `Ends.Sound`, `Ends.sound_of_reachable`: **both directions are sound in every run**.
-/
import CumulusVpn.Lib.StepSystem
import Mathlib.Algebra.BigOperators.Group.List.Basic
import Mathlib.Algebra.GroupWithZero.Nat
import Mathlib.Data.List.Infix

namespace CopyLoop

variable {α : Type*}

/-! ### The loop -/

/-- Where the loop stands; `last` when the read failed behind the piece. -/
inductive Pump (α : Type*)
  | reading
  | charging (piece : List α) (last : Bool)
  | writing (piece : List α) (last : Bool)
  | ended
deriving DecidableEq, Repr

namespace Pump

/-- What is read and not yet written. -/
def hand : Pump α → List α
  | reading | ended => []
  | charging piece _ | writing piece _ => piece

/-- The pump has not ended. -/
def runs : Pump α → Bool
  | reading | charging _ _ | writing _ _ => true
  | ended => false

end Pump

/-- One direction: what arrived, where the pump stands, and what it has passed
on. -/
structure Pipe (α : Type*) where
  /-- everything that arrived -/
  arrived : List α
  /-- what of it is not yet read -/
  inbox : List α
  pump : Pump α
  written : List α
  /-- what the waits let pass -/
  charged : Nat
  counted : Nat
deriving DecidableEq, Repr

namespace Pipe

/-- A direction before anything arrives. -/
def new : Pipe α := ⟨[], [], .reading, [], 0, 0⟩

/-- More arrives. -/
def arrive (p : Pipe α) (units : List α) : Pipe α :=
  { p with arrived := p.arrived ++ units, inbox := p.inbox ++ units }

end Pipe

/-- A step of the pump. -/
inductive Event
  /-- the read gives `n` units; `last` when it fails as well -/
  | read (n : Nat) (last : Bool)
  | wait (ok : Bool)
  /-- the write may fail after some units -/
  | write (failed : Option Nat)
deriving DecidableEq, Repr

section Size

variable (size : α → Nat)

/-- The size of all units. -/
def weight (units : List α) : Nat := (units.map size).sum

/-- What is passed on. -/
def kept (units : List α) : List α := units.filter (0 < size ·)

/-- Where the loop goes on behind a piece. -/
def behind (last : Bool) : Pump α := if last then .ended else .reading

/-- A step of the loop with pieces of at most `most` units, while the ends are
open or not. -/
def copy (most : Nat) (isOpen : Bool) (p : Pipe α) : Event → Option (Pipe α)
  | .read n last =>
      match p.pump with
      | .reading =>
          if n = 0 then if last then some { p with pump := .ended } else none
          else if isOpen ∧ n ≤ most ∧ n ≤ p.inbox.length then
            match kept size (p.inbox.take n) with
            | [] => some { p with inbox := p.inbox.drop n, pump := behind last }
            | u :: piece =>
                some { p with inbox := p.inbox.drop n, pump := .charging (u :: piece) last }
          else none
      | _ => none
  | .wait ok =>
      match p.pump with
      | .charging piece last =>
          if ok then
            some { p with charged := p.charged + weight size piece, pump := .writing piece last }
          else some { p with pump := .ended }
      | _ => none
  | .write failed =>
      match p.pump, failed with
      | .writing piece _, some n =>
          if n < piece.length then
            some { p with written := p.written ++ piece.take n, pump := .ended }
          else none
      | .writing piece last, none =>
          if isOpen then
            some { p with
              written := p.written ++ piece
              counted := p.counted + weight size piece
              pump := behind last }
          else none
      | _, _ => none

/-- **Every step of the loop.** -/
inductive Copies (most : Nat) (p : Pipe α) : Pipe α → Prop
  | gaveUp : Copies most p { p with pump := .ended }
  | skipped {n : Nat} (last : Bool) (h : p.pump = .reading)
      (hnone : kept size (p.inbox.take n) = []) :
      Copies most p { p with inbox := p.inbox.drop n, pump := behind last }
  | read {n : Nat} (last : Bool) (h : p.pump = .reading) (hn : n ≤ most) :
      Copies most p
        { p with inbox := p.inbox.drop n, pump := .charging (kept size (p.inbox.take n)) last }
  | paid {piece : List α} {last : Bool} (h : p.pump = .charging piece last) :
      Copies most p { p with charged := p.charged + weight size piece, pump := .writing piece last }
  | broke {piece : List α} {last : Bool} (n : Nat) (h : p.pump = .writing piece last) :
      Copies most p { p with written := p.written ++ piece.take n, pump := .ended }
  | wrote {piece : List α} {last : Bool} (h : p.pump = .writing piece last) :
      Copies most p
        { p with
          written := p.written ++ piece
          counted := p.counted + weight size piece
          pump := behind last }

end Size

section Steps

variable {size : α → Nat} {most : Nat} {isOpen : Bool} {p p' : Pipe α} {e : Event}

lemma copy_copies (h : copy size most isOpen p e = some p') : Copies size most p p' := by
  unfold copy at h
  split at h
  · split at h
    · split at h
      · split at h <;> cases h
        exact .gaveUp
      · split at h
        · rename_i hpump _ hn
          split at h
          · rename_i hnone
            cases h
            exact .skipped _ hpump hnone
          · rename_i hpiece
            cases h
            rw [← hpiece]
            exact .read _ hpump hn.2.1
        · cases h
    · cases h
  · split at h
    · split at h <;> cases h
      · exact .paid ‹_›
      · exact .gaveUp
    · cases h
  · split at h
    · split at h <;> cases h
      exact .broke _ ‹_›
    · split at h <;> cases h
      exact .wrote ‹_›
    · cases h

/-- The loop takes nothing back. -/
lemma Copies.keeps (h : Copies size most p p') :
    p'.arrived = p.arrived ∧ p.written <+: p'.written := by
  cases h with
  | broke n _ => exact ⟨rfl, List.prefix_append _ _⟩
  | wrote _ => exact ⟨rfl, List.prefix_append _ _⟩
  | _ => exact ⟨rfl, List.prefix_rfl⟩

end Steps

/-! ### What a run keeps -/

section Sound

variable (size : α → Nat) (most : Nat)

/-- What is paid and not yet written. -/
def Pump.paid : Pump α → Nat
  | reading | charging _ _ | ended => 0
  | writing piece _ => weight size piece

/-- **Nothing is lost, reordered or written unpaid.** -/
structure Sound (p : Pipe α) : Prop where
  copied : p.pump ≠ .ended → p.written ++ (p.pump.hand ++ kept size p.inbox) = kept size p.arrived
  written : p.written <+: kept size p.arrived
  paid : weight size p.written + p.pump.paid size ≤ p.charged
  counted : p.counted + p.pump.paid size ≤ p.charged
  piece : p.pump.hand.length ≤ most

variable {size most} {p p' : Pipe α}

@[simp] lemma weight_nil : weight size [] = 0 := rfl

@[simp] lemma weight_append (a b : List α) :
    weight size (a ++ b) = weight size a + weight size b := by
  simp [weight]

lemma weight_take_le (n : Nat) (units : List α) :
    weight size (units.take n) ≤ weight size units := by
  have h : weight size (units.take n ++ units.drop n) =
      weight size (units.take n) + weight size (units.drop n) :=
    weight_append _ _
  rw [List.take_append_drop] at h
  omega

@[simp] lemma kept_append (a b : List α) : kept size (a ++ b) = kept size a ++ kept size b :=
  List.filter_append a b

@[simp] lemma hand_behind (last : Bool) : (behind last : Pump α).hand = [] := by cases last <;> rfl

@[simp] lemma paid_behind (last : Bool) : (behind last : Pump α).paid size = 0 := by
  cases last <;> rfl

@[simp] lemma weight_one (units : List α) : weight (fun _ => 1) units = units.length := by
  simp [weight]

@[simp] lemma kept_one (units : List α) : kept (fun _ => 1) units = units := by simp [kept]

lemma Sound.new : Sound size most Pipe.new :=
  ⟨fun _ => rfl, List.prefix_rfl, Nat.le_refl _, Nat.le_refl _, Nat.zero_le _⟩

lemma Sound.arrive (h : Sound size most p) (units : List α) : Sound size most (p.arrive units) where
  copied := fun hne => by
    show p.written ++ (p.pump.hand ++ kept size (p.inbox ++ units)) = kept size (p.arrived ++ units)
    rw [kept_append, kept_append, ← h.copied hne]
    simp only [List.append_assoc]
  written := by
    refine h.written.trans ?_
    show kept size p.arrived <+: kept size (p.arrived ++ units)
    rw [kept_append]
    exact List.prefix_append _ _
  paid := h.paid
  counted := h.counted
  piece := h.piece

lemma Sound.gaveUp (h : Sound size most p) : Sound size most { p with pump := .ended } where
  copied := fun hne => absurd rfl hne
  written := h.written
  paid := (Nat.le_add_right _ _).trans h.paid
  counted := (Nat.le_add_right _ _).trans h.counted
  piece := Nat.zero_le _

/-- What is in the inbox is in the first `n` units, or behind them. -/
lemma kept_take_append_drop (n : Nat) (units : List α) :
    kept size (units.take n) ++ kept size (units.drop n) = kept size units := by
  rw [← kept_append, List.take_append_drop]

lemma Sound.skipped (h : Sound size most p) {n : Nat} (last : Bool) (hpump : p.pump = .reading)
    (hnone : kept size (p.inbox.take n) = []) :
    Sound size most { p with inbox := p.inbox.drop n, pump := behind last } := by
  obtain ⟨hcopied, hwritten, hpaid, hcounted, -⟩ := h
  rw [hpump] at hcopied hpaid hcounted
  have hinbox : kept size (p.inbox.drop n) = kept size p.inbox := by
    rw [← kept_take_append_drop n p.inbox, hnone, List.nil_append]
  refine ⟨fun _ => ?_, hwritten, ?_, ?_, ?_⟩
  · show p.written ++ ((behind last : Pump α).hand ++ kept size (p.inbox.drop n)) =
      kept size p.arrived
    rw [hand_behind, hinbox]
    exact hcopied (by simp)
  · show weight size p.written + (behind last : Pump α).paid size ≤ p.charged
    rw [paid_behind]
    exact hpaid
  · show p.counted + (behind last : Pump α).paid size ≤ p.charged
    rw [paid_behind]
    exact hcounted
  · show (behind last : Pump α).hand.length ≤ most
    rw [hand_behind]
    exact Nat.zero_le _

lemma Sound.read (h : Sound size most p) {n : Nat} (last : Bool) (hpump : p.pump = .reading)
    (hn : n ≤ most) :
    Sound size most
      { p with inbox := p.inbox.drop n, pump := .charging (kept size (p.inbox.take n)) last } := by
  obtain ⟨hcopied, hwritten, hpaid, hcounted, -⟩ := h
  rw [hpump] at hcopied hpaid hcounted
  refine ⟨fun _ => ?_, hwritten, hpaid, hcounted, ?_⟩
  · show p.written ++ (kept size (p.inbox.take n) ++ kept size (p.inbox.drop n)) =
      kept size p.arrived
    rw [kept_take_append_drop]
    exact hcopied (by simp)
  · calc (kept size (p.inbox.take n)).length ≤ (p.inbox.take n).length := List.length_filter_le _ _
      _ ≤ n := List.length_take_le _ _
      _ ≤ most := hn

lemma Sound.pay (h : Sound size most p) {piece : List α} {last : Bool}
    (hpump : p.pump = .charging piece last) :
    Sound size most
      { p with charged := p.charged + weight size piece, pump := .writing piece last } := by
  obtain ⟨hcopied, hwritten, hpaid, hcounted, hpiece⟩ := h
  rw [hpump] at hcopied hpaid hcounted hpiece
  exact ⟨fun _ => hcopied (by simp), hwritten, Nat.add_le_add_right hpaid _,
    Nat.add_le_add_right hcounted _, hpiece⟩

/-- What the loop has in hand may be written. -/
lemma Sound.writable (h : Sound size most p) {piece : List α} {last : Bool}
    (hpump : p.pump = .writing piece last) :
    p.written ++ piece ++ kept size p.inbox = kept size p.arrived ∧
      weight size p.written + weight size piece ≤ p.charged ∧
        p.counted + weight size piece ≤ p.charged := by
  obtain ⟨hcopied, -, hpaid, hcounted, -⟩ := h
  rw [hpump] at hcopied hpaid hcounted
  refine ⟨?_, hpaid, hcounted⟩
  rw [List.append_assoc]
  exact hcopied (by simp)

lemma Sound.broke (h : Sound size most p) {piece : List α} {last : Bool} (n : Nat)
    (hpump : p.pump = .writing piece last) :
    Sound size most { p with written := p.written ++ piece.take n, pump := .ended } := by
  obtain ⟨hall, hpaid, hcounted⟩ := h.writable hpump
  refine ⟨fun hne => absurd rfl hne, ?_, ?_, (Nat.le_add_right _ _).trans hcounted, Nat.zero_le _⟩
  · show p.written ++ piece.take n <+: kept size p.arrived
    rw [← hall, List.append_assoc]
    exact (List.prefix_append_right_inj _).mpr
      ((List.take_prefix n piece).trans (List.prefix_append _ _))
  · have htake : weight size (piece.take n) ≤ weight size piece := weight_take_le n piece
    show weight size (p.written ++ piece.take n) + 0 ≤ p.charged
    rw [weight_append]
    omega

lemma Sound.wrote (h : Sound size most p) {piece : List α} {last : Bool}
    (hpump : p.pump = .writing piece last) :
    Sound size most
      { p with
        written := p.written ++ piece
        counted := p.counted + weight size piece
        pump := behind last } := by
  obtain ⟨hall, hpaid, hcounted⟩ := h.writable hpump
  refine ⟨fun _ => ?_, ?_, ?_, ?_, ?_⟩
  · show p.written ++ piece ++ ((behind last : Pump α).hand ++ kept size p.inbox) =
      kept size p.arrived
    rw [hand_behind, List.nil_append, hall]
  · show p.written ++ piece <+: kept size p.arrived
    rw [← hall]
    exact List.prefix_append _ _
  · show weight size (p.written ++ piece) + (behind last : Pump α).paid size ≤ p.charged
    rw [weight_append, paid_behind]
    exact hpaid
  · show p.counted + weight size piece + (behind last : Pump α).paid size ≤ p.charged
    rw [paid_behind]
    exact hcounted
  · show (behind last : Pump α).hand.length ≤ most
    rw [hand_behind]
    exact Nat.zero_le _

theorem Sound.step (h : Sound size most p) (hs : Copies size most p p') : Sound size most p' := by
  cases hs with
  | gaveUp => exact h.gaveUp
  | skipped last hpump hnone => exact h.skipped last hpump hnone
  | read last hpump hn => exact h.read last hpump hn
  | paid hpump => exact h.pay hpump
  | broke n hpump => exact h.broke n hpump
  | wrote hpump => exact h.wrote hpump

/-- A loop that waits for a read has written everything that was read. -/
lemma Sound.written_eq (h : Sound size most p) (hpump : p.pump = .reading) (hinbox : p.inbox = []) :
    p.written = kept size p.arrived := by
  have hcopied := h.copied (by simp [hpump])
  rw [hpump, hinbox] at hcopied
  simpa [Pump.hand, kept] using hcopied

lemma Sound.weight_written_le (h : Sound size most p) : weight size p.written ≤ p.charged :=
  (Nat.le_add_right _ _).trans h.paid

lemma Sound.counted_le (h : Sound size most p) : p.counted ≤ p.charged :=
  (Nat.le_add_right _ _).trans h.counted

end Sound

/-! ### Two ends -/

/-- Two directions over the same sockets. -/
structure Ends (α : Type*) where
  up : Pipe α
  down : Pipe α
  isOpen : Bool
deriving DecidableEq, Repr

/-- Two directions before anything arrives. -/
def Ends.new : Ends α := ⟨.new, .new, true⟩

/-- A unit arrives at one end, or a pump takes a step. -/
inductive Activity (α : Type*)
  | upSends (units : List α)
  | downSends (units : List α)
  | up (e : Event)
  | down (e : Event)
deriving DecidableEq, Repr

section Ends

variable (size : α → Nat) (most : Nat)

/-- A step of either loop; the one that ends first closes both ends. -/
def exchange (s : Ends α) : Activity α → Option (Ends α)
  | .upSends units => some { s with up := s.up.arrive units }
  | .downSends units => some { s with down := s.down.arrive units }
  | .up e => (copy size most s.isOpen s.up e).map fun up =>
      { s with up := up, isOpen := s.isOpen && up.pump.runs }
  | .down e => (copy size most s.isOpen s.down e).map fun down =>
      { s with down := down, isOpen := s.isOpen && down.pump.runs }

/-- Both loops are sound, and the ends do not outlive one. -/
structure Ends.Sound (s : Ends α) : Prop where
  up : CopyLoop.Sound size most s.up
  down : CopyLoop.Sound size most s.down
  closed : s.up.pump = .ended ∨ s.down.pump = .ended → s.isOpen = false

variable {size most} {s s' : Ends α} {a : Activity α}

lemma Ends.Sound.new : Ends.Sound size most Ends.new :=
  ⟨CopyLoop.Sound.new, CopyLoop.Sound.new, by rintro (h | h) <;> cases h⟩

lemma Ends.Sound.step (h : Ends.Sound size most s) (hstep : exchange size most s a = some s') :
    Ends.Sound size most s' := by
  cases a with
  | upSends units =>
      cases hstep
      exact ⟨h.up.arrive units, h.down, h.closed⟩
  | downSends units =>
      cases hstep
      exact ⟨h.up, h.down.arrive units, h.closed⟩
  | up e =>
      obtain ⟨up, hcopy, rfl⟩ := Option.map_eq_some_iff.mp hstep
      refine ⟨h.up.step (copy_copies hcopy), h.down, ?_⟩
      rintro (hup | hdown)
      · simp [show up.pump = .ended from hup, Pump.runs]
      · simp [h.closed (.inr hdown)]
  | down e =>
      obtain ⟨down, hcopy, rfl⟩ := Option.map_eq_some_iff.mp hstep
      refine ⟨h.up, h.down.step (copy_copies hcopy), ?_⟩
      rintro (hup | hdown)
      · simp [h.closed (.inl hup)]
      · simp [show down.pump = .ended from hdown, Pump.runs]

theorem Ends.sound_of_reachable (h : StepSystem.Reachable (exchange size most) .new s) :
    Ends.Sound size most s :=
  h.induction .new fun _ _ _ hs hstep => hs.step hstep

end Ends

end CopyLoop
