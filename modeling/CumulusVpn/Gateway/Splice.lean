/-
Flows that are relayed to the host they are for (`splice`, `rateCopy` and
`relayUDP` of `gateway/internal/wg/forward.go`).

Each direction has a goroutine that reads, waits until the peer may send it,
writes and counts; the one that ends first closes both sockets.  A splice reads
pieces of a stream, and a UDP relay reads datagrams, of which it drops those
without a byte.

* `rateCopy`, `splice`, `relayUDP`: the copying loop over bytes, and over
  datagrams;
* `spliced_faithful`, `relayed_faithful`: **both sides get what the other one
  sent, in order, and paid for**.
-/
import CumulusVpn.Lib.CopyLoop

namespace CumulusVpn.Splice

open CopyLoop StepSystem

/-! ### Streams -/

/-- How much is read at once. -/
abbrev copyBufSize : Nat := 32 * 1024

/-- One direction of a spliced connection. -/
abbrev Stream : Type := Pipe UInt8

/-- Every byte counts. -/
abbrev one : UInt8 → Nat := fun _ => 1

/-- One direction after an event. -/
def rateCopy (isOpen : Bool) (p : Stream) (e : CopyLoop.Event) : Option Stream :=
  copy one copyBufSize isOpen p e

/-- Both directions after an event. -/
def splice (s : Ends UInt8) (a : Activity UInt8) : Option (Ends UInt8) :=
  exchange one copyBufSize s a

/-- What a step of a direction can do. -/
abbrev Copied (p p' : Stream) : Prop := Copies one copyBufSize p p'

/-- What holds of a direction between two steps. -/
abbrev Faithful (p : Stream) : Prop := Sound one copyBufSize p

section Stream

variable {p p' : Stream} {s : Ends UInt8}

lemma rateCopy_copied {isOpen : Bool} {e : CopyLoop.Event} (h : rateCopy isOpen p e = some p') :
    Copied p p' :=
  copy_copies h

lemma Faithful.prefix_arrived (h : Faithful p) : p.written <+: p.arrived := by
  simpa using h.written

lemma Faithful.length_written_le (h : Faithful p) : p.written.length ≤ p.charged := by
  simpa using h.weight_written_le

lemma Faithful.eq_arrived (h : Faithful p) (hpump : p.pump = .reading) (hinbox : p.inbox = []) :
    p.written = p.arrived := by
  simpa using h.written_eq hpump hinbox

/-- **Both sides get what the other one sent, in order, and paid for**; all of
it, while both directions run; and the sockets do not outlive a direction. -/
theorem spliced_faithful (h : Reachable splice .new s) :
    (s.up.written <+: s.up.arrived ∧ s.down.written <+: s.down.arrived) ∧
      (s.up.written.length ≤ s.up.charged ∧ s.down.written.length ≤ s.down.charged) ∧
      (s.up.counted ≤ s.up.charged ∧ s.down.counted ≤ s.down.charged) ∧
      (s.up.pump = .reading → s.up.inbox = [] → s.up.written = s.up.arrived) ∧
      (s.down.pump = .reading → s.down.inbox = [] → s.down.written = s.down.arrived) ∧
      (s.up.pump = .ended ∨ s.down.pump = .ended → s.isOpen = false) := by
  obtain ⟨hup, hdown, hclosed⟩ := Ends.sound_of_reachable h
  exact ⟨⟨Faithful.prefix_arrived hup, Faithful.prefix_arrived hdown⟩,
    ⟨Faithful.length_written_le hup, Faithful.length_written_le hdown⟩,
    ⟨hup.counted_le, hdown.counted_le⟩, Faithful.eq_arrived hup, Faithful.eq_arrived hdown, hclosed⟩

end Stream

/-- A request in two pieces; the client hangs up during the reply. -/
def hungUp : List (Activity UInt8) :=
  [.upSends [71, 69, 84], .up (.read 2 false), .up (.wait true), .up (.write none),
    .downSends [79, 75], .up (.read 1 true), .down (.read 2 false), .up (.wait true),
    .up (.write none), .down (.wait true), .down (.write (some 1))]

theorem spliced_faithful_hungUp : ∃ s, exec splice .new hungUp = some s ∧
    s.up.written <+: [71, 69, 84] ∧ s.down.written <+: [79, 75] ∧ s.isOpen = false := by
  obtain ⟨s, hexec, hup, hdown, hended⟩ : ∃ s, exec splice .new hungUp = some s ∧
      s.up.arrived = [71, 69, 84] ∧ s.down.arrived = [79, 75] ∧ s.up.pump = .ended :=
    ⟨_, rfl, rfl, rfl, rfl⟩
  obtain ⟨⟨hsent, hreply⟩, -, -, -, -, hclosed⟩ := spliced_faithful ⟨_, hexec⟩
  exact ⟨s, hexec, hup ▸ hsent, hdown ▸ hreply, hclosed (.inl hended)⟩

/-! ### Datagrams -/

/-- The payload of a datagram. -/
abbrev Datagram : Type := List UInt8

/-- One direction of a relayed flow. -/
abbrev Datagrams : Type := Pipe Datagram

/-- A read gives one datagram, and it counts with its bytes. -/
def relayUDP (s : Ends Datagram) (a : Activity Datagram) : Option (Ends Datagram) :=
  exchange List.length 1 s a

/-- What holds of a direction between two steps. -/
abbrev Relayed (p : Datagrams) : Prop := Sound List.length 1 p

/-- The datagrams that have a byte. -/
abbrev filled (ds : List Datagram) : List Datagram := kept List.length ds

/-- The bytes of the datagrams. -/
abbrev bytesOf (ds : List Datagram) : Nat := weight List.length ds

/-- **Both sides get the datagrams with a byte that the other one sent, in order,
and paid for**; all of them, while the direction runs; and the sockets do not
outlive one. -/
theorem relayed_faithful {s : Ends Datagram} (h : Reachable relayUDP .new s) :
    (s.up.written <+: filled s.up.arrived ∧ s.down.written <+: filled s.down.arrived) ∧
      (bytesOf s.up.written ≤ s.up.charged ∧ bytesOf s.down.written ≤ s.down.charged) ∧
      (s.up.counted ≤ s.up.charged ∧ s.down.counted ≤ s.down.charged) ∧
      (s.up.pump = .reading → s.up.inbox = [] → s.up.written = filled s.up.arrived) ∧
      (s.down.pump = .reading → s.down.inbox = [] → s.down.written = filled s.down.arrived) ∧
      (s.up.pump = .ended ∨ s.down.pump = .ended → s.isOpen = false) := by
  obtain ⟨hup, hdown, hclosed⟩ := Ends.sound_of_reachable h
  exact ⟨⟨hup.written, hdown.written⟩, ⟨hup.weight_written_le, hdown.weight_written_le⟩,
    ⟨hup.counted_le, hdown.counted_le⟩, hup.written_eq, hdown.written_eq, hclosed⟩

end CumulusVpn.Splice
