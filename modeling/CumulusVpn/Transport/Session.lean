/-
A client bridge and the gateway's relay over one TLS connection (`ClientBridge`
and `Relay.handle` of `gateway/internal/tlsrelay/relay.go`).

Both ends run two pumps.  Every read, write and channel operation of a pump is a
step of its own, in any order with those of the others, and any read or write
may fail.

* `Upload`, `Download`, `Inbound`, `Outbound`: where `udpToTLS`, `tlsToUDP` and
  the relay's pumps stand; `Session`, `step`;
* `Relays`, `Relays.step`: no datagram is lost or reordered;
* `Follows`, `Follows.step`: the channel of sources holds the newest one;
* `relays_in_order`: **datagrams arrive in order and unchanged, both ways**;
* `replies_follow`: **replies go to the source that was heard last, and a source
  is published without blocking**;
* `Torn`, `torn_down`: **when a pump has ended, the other one ends as well, and
  both sockets are closed**.
-/
import CumulusVpn.Lib.StepSystem
import CumulusVpn.Transport.Frames

namespace CumulusVpn.WgTls

open Framing StepSystem

variable {α : Type}

/-! ### The pumps -/

/-- Where `udpToTLS` of the bridge stands. -/
inductive Upload (α : Type)
  | reading
  /-- a new source, before it goes to the channel -/
  | publishing (src : α) (pkt : Datagram)
  /-- the channel was full -/
  | draining (src : α) (pkt : Datagram)
  | sending (src : α) (pkt : Datagram)
  | writing (pkt : Datagram)
  | ended (unsent : Option Datagram)
deriving DecidableEq

/-- Where `tlsToUDP` of the bridge stands. -/
inductive Download
  | reading
  | adopting (pkt : List UInt8)
  | writing (pkt : List UInt8)
  | ended
deriving DecidableEq

/-- Where the relay's pump from TLS stands. -/
inductive Inbound
  | reading
  | writing (pkt : List UInt8)
  | ended (undelivered : Option (List UInt8))
deriving DecidableEq

/-- Where the relay's pump to TLS stands. -/
inductive Outbound
  | reading
  | writing (pkt : Datagram)
  | ended (unsent : Option Datagram)
deriving DecidableEq

/-- A reply, as `tlsToUDP` sends it on. -/
structure Reply (α : Type) where
  pkt : List UInt8
  /-- none drops it -/
  dst : Option α
  /-- `udpToTLS` was not about to publish a source -/
  settled : Bool
  /-- how many datagrams had been heard -/
  after : Nat
deriving DecidableEq

/-- A session: where the pumps of both ends stand, what is on the way between them,
and what has passed so far. -/
structure Session (α : Type) where
  upload : Upload α
  lastSrc : Option α
  wgSrcCh : Option α
  download : Download
  dst : Option α
  /-- the sockets of the bridge that are open -/
  bridgeTls : Bool
  bridgeUdp : Bool
  toGateway : Link
  toClient : Link
  inbound : Inbound
  outbound : Outbound
  /-- the sockets of the relay that are open -/
  relayTls : Bool
  relayUdp : Bool
  /-- what the client's WireGuard device sent, and from where -/
  heard : List (α × Datagram)
  /-- what the gateway's WireGuard device got -/
  delivered : List (List UInt8)
  /-- what the gateway's WireGuard device sent -/
  answered : List Datagram
  replies : List (Reply α)
deriving DecidableEq

namespace Upload

/-- The pump is not about to publish a source. -/
def settled : Upload α → Bool
  | publishing _ _ | draining _ _ | sending _ _ => false
  | reading | writing _ | ended _ => true

/-- The source to publish. -/
def source : Upload α → Option α
  | publishing src _ | draining src _ | sending src _ => some src
  | reading | writing _ | ended _ => none

/-- What is read and not yet written. -/
def hand : Upload α → List (List UInt8)
  | publishing _ pkt | draining _ pkt | sending _ pkt | writing pkt => [pkt.val]
  | reading => []
  | ended unsent => unsent.toList.map Subtype.val

/-- The pump has returned. -/
def hasEnded : Upload α → Bool
  | ended _ => true
  | _ => false

end Upload

namespace Download

/-- The reply that is read and has no destination yet. -/
def hand : Download → List (List UInt8)
  | adopting pkt => [pkt]
  | reading | writing _ | ended => []

end Download

namespace Inbound

/-- What is read from TLS and not yet handed to WireGuard. -/
def hand : Inbound → List (List UInt8)
  | reading => []
  | writing pkt => [pkt]
  | ended undelivered => undelivered.toList

/-- The pump has returned. -/
def hasEnded : Inbound → Bool
  | ended _ => true
  | _ => false

end Inbound

namespace Outbound

/-- What WireGuard answered and is not yet on its way. -/
def hand : Outbound → List (List UInt8)
  | reading => []
  | writing pkt => [pkt.val]
  | ended unsent => unsent.toList.map Subtype.val

/-- The pump has returned. -/
def hasEnded : Outbound → Bool
  | ended _ => true
  | _ => false

end Outbound

namespace Session

/-- A session before its first datagram: the pumps read, and every socket is open. -/
def new : Session α where
  upload := .reading
  lastSrc := none
  wgSrcCh := none
  download := .reading
  dst := none
  bridgeTls := true
  bridgeUdp := true
  toGateway := .new
  toClient := .new
  inbound := .reading
  outbound := .reading
  relayTls := true
  relayUdp := true
  heard := []
  delivered := []
  answered := []
  replies := []

end Session

/-! ### Steps -/

/-- A step of a pump, or of the network between the two ends. -/
inductive Event (α : Type)
  /-- `ReadFromUDP` of the bridge; none fails -/
  | hear (read : Option (α × Datagram))
  /-- the next step of publishing a source -/
  | publish
  /-- `writeFrame` of the bridge; it may fail after some bytes -/
  | write (failed : Option Nat)
  | carryUp (n : Nat)
  /-- `readFrame` of the relay -/
  | arrive (ok : Bool)
  /-- `udp.Write` -/
  | deliver (ok : Bool)
  /-- `udp.Read` of the relay; none fails -/
  | answer (read : Option Datagram)
  /-- `writeFrame` of the relay -/
  | respond (failed : Option Nat)
  | carryDown (n : Nat)
  /-- `readFrame` of the bridge -/
  | take (ok : Bool)
  | adopt
  /-- `WriteToUDP`, which ends the pump when the socket is closed -/
  | reply
  /-- `Close` of the bridge -/
  | close
deriving DecidableEq

/-- The pump of the bridge from the UDP socket.  It publishes a new source before it
forwards the datagram, and closes the connection when it ends. -/
def udpToTLS [DecidableEq α] (s : Session α) : Event α → Option (Session α)
  | .hear none =>
      match s.upload with
      | .reading => some { s with bridgeTls := false, upload := .ended none }
      | _ => none
  | .hear (some (src, pkt)) =>
      match s.upload, s.bridgeUdp with
      | .reading, true =>
          some { s with
            heard := s.heard ++ [(src, pkt)]
            lastSrc := some src
            upload := if s.lastSrc = some src then .writing pkt else .publishing src pkt }
      | _, _ => none
  | .publish =>
      match s.upload, s.wgSrcCh with
      | .publishing src pkt, none => some { s with wgSrcCh := some src, upload := .writing pkt }
      | .publishing src pkt, some _ => some { s with upload := .draining src pkt }
      | .draining src pkt, _ => some { s with wgSrcCh := none, upload := .sending src pkt }
      | .sending src pkt, none => some { s with wgSrcCh := some src, upload := .writing pkt }
      | _, _ => none
  | .write (some n) =>
      match s.upload with
      | .writing pkt =>
          if n < (frame 2 pkt.val).length then
            some { s with
              toGateway := s.toGateway.breakOff 2 pkt.val n
              bridgeTls := false
              bridgeUdp := false
              upload := .ended (some pkt) }
          else none
      | _ => none
  | .write none =>
      match s.upload, s.bridgeTls with
      | .writing pkt, true =>
          some { s with toGateway := s.toGateway.send 2 pkt.val, upload := .reading }
      | _, _ => none
  | _ => none

/-- The pump of the bridge to the UDP socket.  It adopts the newest source that was
published, and drops a reply while there is none. -/
def tlsToUDP (s : Session α) : Event α → Option (Session α)
  | .take false =>
      match s.download with
      | .reading => some { s with bridgeUdp := false, download := .ended }
      | _ => none
  | .take true =>
      match s.download, s.bridgeTls with
      | .reading, true => (s.toClient.receive 2).map fun read =>
          { s with toClient := read.2, download := .adopting read.1 }
      | _, _ => none
  | .adopt =>
      match s.download with
      | .adopting pkt =>
          let dst := s.wgSrcCh.or s.dst
          some { s with
            dst := dst
            wgSrcCh := none
            replies := s.replies ++ [⟨pkt, dst, s.upload.settled, s.heard.length⟩]
            download := if dst = none then .reading else .writing pkt }
      | _ => none
  | .reply =>
      match s.download with
      | .writing _ => some { s with download := if s.bridgeUdp then .reading else .ended }
      | _ => none
  | _ => none

/-- The pumps of `handle`. -/
def handle (s : Session α) : Event α → Option (Session α)
  | .arrive false =>
      match s.inbound with
      | .reading => some { s with relayUdp := false, inbound := .ended none }
      | _ => none
  | .arrive true =>
      match s.inbound, s.relayTls with
      | .reading, true => (s.toGateway.receive 2).map fun read =>
          { s with toGateway := read.2, inbound := .writing read.1 }
      | _, _ => none
  | .deliver false =>
      match s.inbound with
      | .writing pkt => some { s with relayUdp := false, inbound := .ended (some pkt) }
      | _ => none
  | .deliver true =>
      match s.inbound, s.relayUdp with
      | .writing pkt, true => some { s with delivered := s.delivered ++ [pkt], inbound := .reading }
      | _, _ => none
  | .answer none =>
      match s.outbound with
      | .reading => some { s with relayTls := false, outbound := .ended none }
      | _ => none
  | .answer (some pkt) =>
      match s.outbound, s.relayUdp with
      | .reading, true => some { s with answered := s.answered ++ [pkt], outbound := .writing pkt }
      | _, _ => none
  | .respond (some n) =>
      match s.outbound with
      | .writing pkt =>
          if n < (frame 2 pkt.val).length then
            some { s with
              toClient := s.toClient.breakOff 2 pkt.val n
              relayTls := false
              outbound := .ended (some pkt) }
          else none
      | _ => none
  | .respond none =>
      match s.outbound, s.relayTls with
      | .writing pkt, true =>
          some { s with toClient := s.toClient.send 2 pkt.val, outbound := .reading }
      | _, _ => none
  | _ => none

/-- One step of a session; none where the pump is not at the operation, or its socket
is closed. -/
def step [DecidableEq α] (s : Session α) (e : Event α) : Option (Session α) :=
  match e with
  | .hear _ | .publish | .write _ => udpToTLS s e
  | .take _ | .adopt | .reply => tlsToUDP s e
  | .arrive _ | .deliver _ | .answer _ | .respond _ => handle s e
  | .carryUp n => some { s with toGateway := s.toGateway.carry n }
  | .carryDown n => some { s with toClient := s.toClient.carry n }
  | .close => some { s with bridgeTls := false, bridgeUdp := false }

/-! ### What a step can do -/

/-- **Every step of a session.** -/
inductive Moves (s : Session α) : Event α → Session α → Prop
  | hearFailed (h : s.upload = .reading) :
      Moves s (.hear none) { s with bridgeTls := false, upload := .ended none }
  | heardAgain {src : α} {pkt : Datagram} (h : s.upload = .reading) (hudp : s.bridgeUdp = true)
      (hsrc : s.lastSrc = some src) :
      Moves s (.hear (some (src, pkt)))
        { s with heard := s.heard ++ [(src, pkt)], lastSrc := some src, upload := .writing pkt }
  | heardNew {src : α} {pkt : Datagram} (h : s.upload = .reading) (hudp : s.bridgeUdp = true) :
      Moves s (.hear (some (src, pkt)))
        { s with
          heard := s.heard ++ [(src, pkt)], lastSrc := some src, upload := .publishing src pkt }
  | published {src : α} {pkt : Datagram}
      (h : s.upload = .publishing src pkt ∨ s.upload = .sending src pkt) (hch : s.wgSrcCh = none) :
      Moves s .publish { s with wgSrcCh := some src, upload := .writing pkt }
  | full {src : α} {pkt : Datagram} (h : s.upload = .publishing src pkt) :
      Moves s .publish { s with upload := .draining src pkt }
  | drained {src : α} {pkt : Datagram} (h : s.upload = .draining src pkt) :
      Moves s .publish { s with wgSrcCh := none, upload := .sending src pkt }
  | writeFailed {pkt : Datagram} {n : Nat} (h : s.upload = .writing pkt)
      (hn : n < (frame 2 pkt.val).length) :
      Moves s (.write (some n))
        { s with
          toGateway := s.toGateway.breakOff 2 pkt.val n
          bridgeTls := false
          bridgeUdp := false
          upload := .ended (some pkt) }
  | written {pkt : Datagram} (h : s.upload = .writing pkt) (htls : s.bridgeTls = true) :
      Moves s (.write none) { s with toGateway := s.toGateway.send 2 pkt.val, upload := .reading }
  | carriedUp (n : Nat) : Moves s (.carryUp n) { s with toGateway := s.toGateway.carry n }
  | arriveFailed (h : s.inbound = .reading) :
      Moves s (.arrive false) { s with relayUdp := false, inbound := .ended none }
  | arrived {pkt : List UInt8} {l : Link} (h : s.inbound = .reading) (htls : s.relayTls = true)
      (hread : s.toGateway.receive 2 = some (pkt, l)) :
      Moves s (.arrive true) { s with toGateway := l, inbound := .writing pkt }
  | deliverFailed {pkt : List UInt8} (h : s.inbound = .writing pkt) :
      Moves s (.deliver false) { s with relayUdp := false, inbound := .ended (some pkt) }
  | delivered {pkt : List UInt8} (h : s.inbound = .writing pkt) (hudp : s.relayUdp = true) :
      Moves s (.deliver true) { s with delivered := s.delivered ++ [pkt], inbound := .reading }
  | answerFailed (h : s.outbound = .reading) :
      Moves s (.answer none) { s with relayTls := false, outbound := .ended none }
  | answered {pkt : Datagram} (h : s.outbound = .reading) (hudp : s.relayUdp = true) :
      Moves s (.answer (some pkt))
        { s with answered := s.answered ++ [pkt], outbound := .writing pkt }
  | respondFailed {pkt : Datagram} {n : Nat} (h : s.outbound = .writing pkt)
      (hn : n < (frame 2 pkt.val).length) :
      Moves s (.respond (some n))
        { s with
          toClient := s.toClient.breakOff 2 pkt.val n
          relayTls := false
          outbound := .ended (some pkt) }
  | responded {pkt : Datagram} (h : s.outbound = .writing pkt) (htls : s.relayTls = true) :
      Moves s (.respond none) { s with toClient := s.toClient.send 2 pkt.val, outbound := .reading }
  | carriedDown (n : Nat) : Moves s (.carryDown n) { s with toClient := s.toClient.carry n }
  | takeFailed (h : s.download = .reading) :
      Moves s (.take false) { s with bridgeUdp := false, download := .ended }
  | taken {pkt : List UInt8} {l : Link} (h : s.download = .reading) (htls : s.bridgeTls = true)
      (hread : s.toClient.receive 2 = some (pkt, l)) :
      Moves s (.take true) { s with toClient := l, download := .adopting pkt }
  | adopted {pkt : List UInt8} (h : s.download = .adopting pkt) :
      Moves s .adopt
        { s with
          dst := s.wgSrcCh.or s.dst
          wgSrcCh := none
          replies := s.replies ++ [⟨pkt, s.wgSrcCh.or s.dst, s.upload.settled, s.heard.length⟩]
          download := if s.wgSrcCh.or s.dst = none then .reading else .writing pkt }
  | replied {pkt : List UInt8} (h : s.download = .writing pkt) :
      Moves s .reply { s with download := if s.bridgeUdp then .reading else .ended }
  | closed : Moves s .close { s with bridgeTls := false, bridgeUdp := false }

section Moves

variable {s s' : Session α} {e : Event α}

lemma udpToTLS_moves [DecidableEq α] (h : udpToTLS s e = some s') : Moves s e s' := by
  unfold udpToTLS at h
  split at h
  · split at h <;> cases h
    exact .hearFailed ‹_›
  · split at h <;> cases h
    split
    · exact .heardAgain ‹_› ‹_› ‹_›
    · exact .heardNew ‹_› ‹_›
  · split at h <;> cases h
    · exact .published (.inl ‹_›) ‹_›
    · exact .full ‹_›
    · exact .drained ‹_›
    · exact .published (.inr ‹_›) ‹_›
  · split at h
    · split at h <;> cases h
      exact .writeFailed ‹_› ‹_›
    · cases h
  · split at h <;> cases h
    exact .written ‹_› ‹_›
  · cases h

lemma tlsToUDP_moves (h : tlsToUDP s e = some s') : Moves s e s' := by
  unfold tlsToUDP at h
  split at h
  · split at h <;> cases h
    exact .takeFailed ‹_›
  · split at h
    · obtain ⟨⟨pkt, l⟩, hread, rfl⟩ := Option.map_eq_some_iff.mp h
      exact .taken ‹_› ‹_› hread
    · cases h
  · split at h <;> cases h
    exact .adopted ‹_›
  · split at h <;> cases h
    exact .replied ‹_›
  · cases h

lemma handle_moves (h : handle s e = some s') : Moves s e s' := by
  unfold handle at h
  split at h
  · split at h <;> cases h
    exact .arriveFailed ‹_›
  · split at h
    · obtain ⟨⟨pkt, l⟩, hread, rfl⟩ := Option.map_eq_some_iff.mp h
      exact .arrived ‹_› ‹_› hread
    · cases h
  · split at h <;> cases h
    exact .deliverFailed ‹_›
  · split at h <;> cases h
    exact .delivered ‹_› ‹_›
  · split at h <;> cases h
    exact .answerFailed ‹_›
  · split at h <;> cases h
    exact .answered ‹_› ‹_›
  · split at h
    · split at h <;> cases h
      exact .respondFailed ‹_› ‹_›
    · cases h
  · split at h <;> cases h
    exact .responded ‹_› ‹_›
  · cases h

lemma step_moves [DecidableEq α] (h : step s e = some s') : Moves s e s' := by
  unfold step at h
  split at h
  · exact udpToTLS_moves h
  · exact udpToTLS_moves h
  · exact udpToTLS_moves h
  · exact tlsToUDP_moves h
  · exact tlsToUDP_moves h
  · exact tlsToUDP_moves h
  · exact handle_moves h
  · exact handle_moves h
  · exact handle_moves h
  · exact handle_moves h
  · cases h
    exact .carriedUp _
  · cases h
    exact .carriedDown _
  · cases h
    exact .closed

end Moves

/-! ### Nothing is lost or reordered -/

/-- Every datagram is where the pumps and the streams have brought it. -/
structure Relays (s : Session α) : Prop where
  up : s.toGateway.Sound 2
  down : s.toClient.Sound 2
  heard : s.heard.map (·.2.val) = s.toGateway.sent ++ s.upload.hand
  delivered : s.toGateway.received = s.delivered ++ s.inbound.hand
  answered : s.answered.map Subtype.val = s.toClient.sent ++ s.outbound.hand
  replies : s.toClient.received = s.replies.map Reply.pkt ++ s.download.hand
  wholeUp : s.upload.hasEnded = false → s.toGateway.cut = []
  wholeDown : s.outbound.hasEnded = false → s.toClient.cut = []

lemma Relays.new : Relays (Session.new : Session α) :=
  ⟨Link.Sound.new Nat.two_pos, Link.Sound.new Nat.two_pos, rfl, rfl, rfl, rfl, fun _ => rfl,
    fun _ => rfl⟩

lemma Relays.step [DecidableEq α] {s s' : Session α} {e : Event α} (h : Relays s)
    (hs : step s e = some s') : Relays s' := by
  obtain ⟨hup, hdown, hheard, hdelivered, hanswered, hreplies, hwhole, hwhole'⟩ := h
  cases step_moves hs with
  | hearFailed hpos =>
      rw [hpos] at hheard
      exact ⟨hup, hdown, hheard, hdelivered, hanswered, hreplies, fun h => (by cases h), hwhole'⟩
  | heardAgain hpos =>
      rw [hpos] at hheard hwhole
      refine ⟨hup, hdown, ?_, hdelivered, hanswered, hreplies, fun _ => hwhole rfl, hwhole'⟩
      simp [hheard, Upload.hand]
  | heardNew hpos =>
      rw [hpos] at hheard hwhole
      refine ⟨hup, hdown, ?_, hdelivered, hanswered, hreplies, fun _ => hwhole rfl, hwhole'⟩
      simp [hheard, Upload.hand]
  | published hpos =>
      cases hpos with
      | inl hpos =>
          rw [hpos] at hheard hwhole
          exact ⟨hup, hdown, hheard, hdelivered, hanswered, hreplies, fun _ => hwhole rfl, hwhole'⟩
      | inr hpos =>
          rw [hpos] at hheard hwhole
          exact ⟨hup, hdown, hheard, hdelivered, hanswered, hreplies, fun _ => hwhole rfl, hwhole'⟩
  | full hpos =>
      rw [hpos] at hheard hwhole
      exact ⟨hup, hdown, hheard, hdelivered, hanswered, hreplies, fun _ => hwhole rfl, hwhole'⟩
  | drained hpos =>
      rw [hpos] at hheard hwhole
      exact ⟨hup, hdown, hheard, hdelivered, hanswered, hreplies, fun _ => hwhole rfl, hwhole'⟩
  | writeFailed hpos hn =>
      rw [hpos] at hheard hwhole
      exact ⟨hup.breakOff (hwhole rfl) (fits_datagram _) hn, hdown, hheard, hdelivered, hanswered,
        hreplies, fun h => (by cases h), hwhole'⟩
  | written hpos =>
      rw [hpos] at hheard hwhole
      exact ⟨hup.send (hwhole rfl) (fits_datagram _), hdown, by simp [hheard, Upload.hand],
        hdelivered, hanswered, hreplies, fun _ => hwhole rfl, hwhole'⟩
  | carriedUp n =>
      exact ⟨hup.carry n, hdown, hheard, hdelivered, hanswered, hreplies, hwhole, hwhole'⟩
  | arriveFailed hpos =>
      rw [hpos] at hdelivered
      exact ⟨hup, hdown, hheard, hdelivered, hanswered, hreplies, hwhole, hwhole'⟩
  | arrived hpos _ hread =>
      obtain ⟨hsent, hreceived, -, hcut, -⟩ := Link.receive_eq_some hread
      rw [hpos] at hdelivered
      refine ⟨hup.receive hread, hdown, ?_, ?_, hanswered, hreplies, ?_, hwhole'⟩
      · rw [hheard, hsent]
      · rw [hreceived, hdelivered]
        simp [Inbound.hand]
      · rwa [hcut]
  | deliverFailed hpos =>
      rw [hpos] at hdelivered
      exact ⟨hup, hdown, hheard, hdelivered, hanswered, hreplies, hwhole, hwhole'⟩
  | delivered hpos =>
      rw [hpos] at hdelivered
      exact ⟨hup, hdown, hheard, by simp [hdelivered, Inbound.hand], hanswered, hreplies, hwhole,
        hwhole'⟩
  | answerFailed hpos =>
      rw [hpos] at hanswered
      exact ⟨hup, hdown, hheard, hdelivered, hanswered, hreplies, hwhole, fun h => (by cases h)⟩
  | answered hpos =>
      rw [hpos] at hanswered hwhole'
      refine ⟨hup, hdown, hheard, hdelivered, ?_, hreplies, hwhole, fun _ => hwhole' rfl⟩
      simp [hanswered, Outbound.hand]
  | respondFailed hpos hn =>
      rw [hpos] at hanswered hwhole'
      exact ⟨hup, hdown.breakOff (hwhole' rfl) (fits_datagram _) hn, hheard, hdelivered, hanswered,
        hreplies, hwhole, fun h => (by cases h)⟩
  | responded hpos =>
      rw [hpos] at hanswered hwhole'
      exact ⟨hup, hdown.send (hwhole' rfl) (fits_datagram _), hheard, hdelivered,
        by simp [hanswered, Outbound.hand], hreplies, hwhole, fun _ => hwhole' rfl⟩
  | carriedDown n =>
      exact ⟨hup, hdown.carry n, hheard, hdelivered, hanswered, hreplies, hwhole, hwhole'⟩
  | takeFailed hpos =>
      rw [hpos] at hreplies
      exact ⟨hup, hdown, hheard, hdelivered, hanswered, hreplies, hwhole, hwhole'⟩
  | taken hpos _ hread =>
      obtain ⟨hsent, hreceived, -, hcut, -⟩ := Link.receive_eq_some hread
      rw [hpos] at hreplies
      refine ⟨hup, hdown.receive hread, hheard, hdelivered, ?_, ?_, hwhole, ?_⟩
      · rw [hanswered, hsent]
      · rw [hreceived, hreplies]
        simp [Download.hand]
      · rwa [hcut]
  | adopted hpos =>
      rw [hpos] at hreplies
      refine ⟨hup, hdown, hheard, hdelivered, hanswered, ?_, hwhole, hwhole'⟩
      rw [hreplies]
      split <;> simp [Download.hand]
  | replied hpos =>
      rw [hpos] at hreplies
      refine ⟨hup, hdown, hheard, hdelivered, hanswered, ?_, hwhole, hwhole'⟩
      rw [hreplies]
      split <;> simp [Download.hand]
  | closed => exact ⟨hup, hdown, hheard, hdelivered, hanswered, hreplies, hwhole, hwhole'⟩

/-! ### The source of the replies -/

/-- The source of the last datagram. -/
def lastHeard (heard : List (α × Datagram)) : Option α := (heard.map Prod.fst).getLast?

lemma lastHeard_append (heard : List (α × Datagram)) (src : α) (pkt : Datagram) :
    lastHeard (heard ++ [(src, pkt)]) = some src := by
  simp [lastHeard]

/-- The channel, or else what was adopted from it, has the newest source that is
published. -/
structure Follows (s : Session α) : Prop where
  last : s.lastSrc = lastHeard s.heard
  source : ∀ src, s.upload.source = some src → s.lastSrc = some src
  settled : s.upload.settled = true → s.wgSrcCh.or s.dst = s.lastSrc
  sending : ∀ src pkt, s.upload = .sending src pkt → s.wgSrcCh = none
  known : ∀ src, s.wgSrcCh = some src ∨ s.dst = some src → src ∈ s.heard.map Prod.fst
  replies : ∀ r ∈ s.replies, (r.settled = true → r.dst = lastHeard (s.heard.take r.after)) ∧
    (∀ src, r.dst = some src → src ∈ s.heard.map Prod.fst) ∧ r.after ≤ s.heard.length

lemma Follows.new : Follows (Session.new : Session α) where
  last := rfl
  source := fun src h => by cases h
  settled := fun _ => rfl
  sending := fun src pkt h => by cases h
  known := fun src h => by cases h <;> contradiction
  replies := fun r hr => by cases hr

/-- A datagram more changes nothing about the replies before it. -/
lemma Follows.replies_append {s : Session α} (h : Follows s) (src : α) (pkt : Datagram) :
    ∀ r ∈ s.replies,
      (r.settled = true → r.dst = lastHeard ((s.heard ++ [(src, pkt)]).take r.after)) ∧
        (∀ src', r.dst = some src' → src' ∈ (s.heard ++ [(src, pkt)]).map Prod.fst) ∧
        r.after ≤ (s.heard ++ [(src, pkt)]).length := by
  intro r hr
  obtain ⟨hsettled, hknown, hafter⟩ := h.replies r hr
  refine ⟨?_, ?_, ?_⟩
  · rw [List.take_append_of_le_length hafter]
    exact hsettled
  · intro src' hsrc'
    rw [List.map_append]
    exact List.mem_append_left _ (hknown src' hsrc')
  · rw [List.length_append]
    omega

lemma mem_heard_append {heard : List (α × Datagram)} {src' : α} (h : src' ∈ heard.map Prod.fst)
    (src : α) (pkt : Datagram) : src' ∈ (heard ++ [(src, pkt)]).map Prod.fst := by
  rw [List.map_append]
  exact List.mem_append_left _ h

lemma mem_of_lastHeard {heard : List (α × Datagram)} {src : α} (h : lastHeard heard = some src) :
    src ∈ heard.map Prod.fst := List.mem_of_getLast? h

lemma Follows.step [DecidableEq α] {s s' : Session α} {e : Event α} (h : Follows s)
    (hs : step s e = some s') : Follows s' := by
  have hall := h
  obtain ⟨hlast, hsource, hsettled, hsending, hknown, hreplies⟩ := hall
  cases step_moves hs with
  | hearFailed hpos =>
      rw [hpos] at hsettled
      exact ⟨hlast, by simp [Upload.source], fun _ => hsettled rfl, by simp, hknown, hreplies⟩
  | @heardAgain src pkt hpos hudp hsrc =>
      rw [hpos] at hsettled
      refine ⟨(lastHeard_append _ _ _).symm, by simp [Upload.source], fun _ => ?_, by simp,
        fun src' h' => mem_heard_append (hknown src' h') _ _, h.replies_append src pkt⟩
      rw [← hsrc]
      exact hsettled rfl
  | @heardNew src pkt hpos hudp =>
      refine ⟨(lastHeard_append _ _ _).symm, fun src' h' => h', by simp [Upload.settled], by simp,
        fun src' h' => mem_heard_append (hknown src' h') _ _, h.replies_append src pkt⟩
  | @published src pkt hpos hch =>
      have hsrc : s.lastSrc = some src := by
        cases hpos with
        | inl hpos => exact hsource src (by rw [hpos]; rfl)
        | inr hpos => exact hsource src (by rw [hpos]; rfl)
      refine ⟨hlast, by simp [Upload.source], fun _ => ?_, by simp, ?_, hreplies⟩
      · rw [hsrc, Option.some_or]
      · intro src' h'
        cases h' with
        | inl h' =>
            obtain rfl := Option.some.inj h'
            exact mem_of_lastHeard (hlast ▸ hsrc)
        | inr h' => exact hknown src' (.inr h')
  | full hpos =>
      rw [hpos] at hsource
      exact ⟨hlast, hsource, by simp [Upload.settled], by simp, hknown, hreplies⟩
  | drained hpos =>
      rw [hpos] at hsource
      refine ⟨hlast, hsource, by simp [Upload.settled], fun _ _ _ => rfl, ?_, hreplies⟩
      intro src' h'
      cases h' with
      | inl h' => cases h'
      | inr h' => exact hknown src' (.inr h')
  | writeFailed hpos =>
      rw [hpos] at hsettled
      exact ⟨hlast, by simp [Upload.source], fun _ => hsettled rfl, by simp, hknown, hreplies⟩
  | written hpos htls =>
      rw [hpos] at hsettled
      exact ⟨hlast, by simp [Upload.source], fun _ => hsettled rfl, by simp, hknown, hreplies⟩
  | adopted hpos =>
      have hdst : ∀ src, s.wgSrcCh.or s.dst = some src → src ∈ s.heard.map Prod.fst := by
        intro src h'
        cases hch : s.wgSrcCh with
        | none => exact hknown src (.inr (by rwa [hch, Option.none_or] at h'))
        | some src' =>
            rw [hch, Option.some_or] at h'
            exact hknown src (.inl (hch.trans h'))
      refine ⟨hlast, hsource, hsettled, fun _ _ _ => rfl, ?_, ?_⟩
      · intro src' h'
        cases h' with
        | inl h' => cases h'
        | inr h' => exact hdst src' h'
      · intro r hr
        cases List.mem_append.mp hr with
        | inl hr => exact hreplies r hr
        | inr hr =>
            obtain rfl := List.mem_singleton.mp hr
            refine ⟨fun hset => ?_, hdst, Nat.le_refl _⟩
            rw [List.take_length, ← hlast]
            exact hsettled hset
  | carriedUp | arriveFailed | arrived | deliverFailed | delivered | answerFailed | answered |
    respondFailed | responded | carriedDown | takeFailed | taken | replied | closed =>
      exact ⟨hlast, hsource, hsettled, hsending, hknown, hreplies⟩

section Reachable

variable [DecidableEq α] {s : Session α}

lemma relays_of_reachable (h : Reachable step Session.new s) : Relays s :=
  h.induction Relays.new fun _ _ _ hs ha => hs.step ha

lemma follows_of_reachable (h : Reachable step Session.new s) : Follows s :=
  h.induction Follows.new fun _ _ _ hs ha => hs.step ha

/-- **Datagrams arrive in order and unchanged, both ways**, whatever the order of
the steps and whatever fails; and they have all arrived once nothing is in a
pump's hand or on the way. -/
theorem relays_in_order (h : Reachable step Session.new s) :
    s.delivered <+: s.heard.map (·.2.val) ∧
      s.replies.map Reply.pkt <+: s.answered.map Subtype.val ∧
      (s.upload = .reading → s.inbound = .reading → s.toGateway.flying = [] →
        s.toGateway.receive 2 = none → s.delivered = s.heard.map (·.2.val)) ∧
      (s.outbound = .reading → s.download = .reading → s.toClient.flying = [] →
        s.toClient.receive 2 = none → s.replies.map Reply.pkt = s.answered.map Subtype.val) := by
  have hr := relays_of_reachable h
  have hup := hr.up.prefix_sent Nat.two_pos
  have hdown := hr.down.prefix_sent Nat.two_pos
  rw [hr.delivered] at hup
  rw [hr.replies] at hdown
  refine ⟨?_, ?_, ?_, ?_⟩
  · rw [hr.heard]
    exact (List.prefix_append _ _).trans (hup.trans (List.prefix_append _ _))
  · rw [hr.answered]
    exact (List.prefix_append _ _).trans (hdown.trans (List.prefix_append _ _))
  · intro hupload hinbound hflying hheld
    have hall := hr.up.received_eq Nat.two_pos hflying hheld
    rw [hr.delivered, hinbound, Inbound.hand, List.append_nil] at hall
    rw [hr.heard, hupload, Upload.hand, List.append_nil, hall]
  · intro houtbound hdownload hflying hheld
    have hall := hr.down.received_eq Nat.two_pos hflying hheld
    rw [hr.replies, hdownload, Download.hand, List.append_nil] at hall
    rw [hr.answered, houtbound, Outbound.hand, List.append_nil, hall]

/-- Two datagrams from two sources and two answers, all of them on the way
together. -/
def roundTrip : List (Event Nat) :=
  [.hear (some (7, ⟨[1, 2], by decide⟩)), .publish, .write none,
    .hear (some (8, ⟨[3], by decide⟩)), .publish, .publish, .publish, .write none, .carryUp 5,
    .arrive true, .carryUp 2, .deliver true, .arrive true, .deliver true,
    .answer (some ⟨[9], by decide⟩), .respond none, .answer (some ⟨[8, 8], by decide⟩),
    .respond none, .carryDown 2, .carryDown 5, .take true, .adopt, .reply, .take true, .adopt,
    .reply]

theorem relays_in_order_roundTrip : ∃ s, exec step Session.new roundTrip = some s ∧
    s.delivered = [[1, 2], [3]] ∧ s.replies.map Reply.pkt = [[9], [8, 8]] ∧
      s.delivered <+: s.heard.map (·.2.val) :=
  ⟨_, rfl, rfl, rfl, (relays_in_order ⟨roundTrip, rfl⟩).1⟩

/-- A source is published without waiting for the other pump. -/
lemma publish_isSome (h : Reachable step Session.new s) (hset : s.upload.settled = false) :
    (step s .publish).isSome = true := by
  have hf := follows_of_reachable h
  rw [step, udpToTLS]
  cases hpos : s.upload with
  | publishing src pkt => cases s.wgSrcCh <;> rfl
  | draining src pkt => rfl
  | sending src pkt =>
      rw [hf.sending src pkt hpos]
      rfl
  | reading => rw [hpos] at hset; cases hset
  | writing pkt => rw [hpos] at hset; cases hset
  | ended unsent => rw [hpos] at hset; cases hset

/-- **Replies go to the source that was heard last**, but for those taken while
a new one is being published, which go to a source heard before; and the
publishing of a source never blocks. -/
theorem replies_follow (h : Reachable step Session.new s) :
    (∀ r ∈ s.replies, (r.settled = true → r.dst = lastHeard (s.heard.take r.after)) ∧
      (∀ src, r.dst = some src → src ∈ s.heard.map Prod.fst)) ∧
      (s.upload.settled = false → (step s .publish).isSome = true) := by
  have hf := follows_of_reachable h
  exact ⟨fun r hr => ⟨(hf.replies r hr).1, (hf.replies r hr).2.1⟩, publish_isSome h⟩

theorem replies_follow_roundTrip : ∃ s, exec step Session.new roundTrip = some s ∧
    s.replies = [⟨[9], some 8, true, 2⟩, ⟨[8, 8], some 8, true, 2⟩] ∧
      ∀ r ∈ s.replies, ∀ src, r.dst = some src → src ∈ s.heard.map Prod.fst :=
  ⟨_, rfl, rfl, fun r hr => ((replies_follow ⟨roundTrip, rfl⟩).1 r hr).2⟩

end Reachable

/-! ### Teardown -/

/-- A pump that has ended has closed a socket of its end. -/
structure Torn (s : Session α) : Prop where
  upload : s.upload.hasEnded = true → s.bridgeTls = false
  download : s.download = .ended → s.bridgeUdp = false
  inbound : s.inbound.hasEnded = true → s.relayUdp = false
  outbound : s.outbound.hasEnded = true → s.relayTls = false

lemma Torn.new : Torn (Session.new : Session α) :=
  ⟨fun h => (by cases h), fun h => (by cases h), fun h => (by cases h), fun h => (by cases h)⟩

lemma Torn.step [DecidableEq α] {s s' : Session α} {e : Event α} (h : Torn s)
    (hs : step s e = some s') : Torn s' := by
  obtain ⟨hup, hdown, hin, hout⟩ := h
  cases step_moves hs with
  | hearFailed => exact ⟨fun _ => rfl, hdown, hin, hout⟩
  | writeFailed | closed => exact ⟨fun _ => rfl, fun _ => rfl, hin, hout⟩
  | heardAgain | heardNew | published | full | drained | written =>
      exact ⟨fun h => (by cases h), hdown, hin, hout⟩
  | arriveFailed | deliverFailed => exact ⟨hup, hdown, fun _ => rfl, hout⟩
  | arrived | delivered => exact ⟨hup, hdown, fun h => (by cases h), hout⟩
  | answerFailed | respondFailed => exact ⟨hup, hdown, hin, fun _ => rfl⟩
  | answered | responded => exact ⟨hup, hdown, hin, fun h => (by cases h)⟩
  | takeFailed => exact ⟨hup, fun _ => rfl, hin, hout⟩
  | taken => exact ⟨hup, fun h => (by cases h), hin, hout⟩
  | adopted => exact ⟨hup, fun h => (by split at h <;> cases h), hin, hout⟩
  | replied =>
      refine ⟨hup, fun h => ?_, hin, hout⟩
      cases hudp : s.bridgeUdp with
      | false => rfl
      | true =>
          rw [hudp] at h
          cases h
  | carriedUp | carriedDown => exact ⟨hup, hdown, hin, hout⟩

/-! ### The other pump -/

namespace Upload

/-- How many steps `udpToTLS` has left once nothing is read any more. -/
def left : Upload α → Nat
  | ended _ => 0
  | reading => 1
  | writing _ => 2
  | sending _ _ => 3
  | draining _ _ => 4
  | publishing _ _ => 5

lemma left_le (u : Upload α) : u.left ≤ 5 := by cases u <;> simp [left]

end Upload

namespace Download

/-- How many steps `tlsToUDP` has left once nothing is read any more. -/
def left : Download → Nat
  | ended => 0
  | reading => 1
  | writing _ => 2
  | adopting _ => 3

lemma left_le (d : Download) : d.left ≤ 3 := by cases d <;> simp [left]

end Download

namespace Inbound

/-- How many steps the relay's pump from TLS has left once nothing is
read any more. -/
def left : Inbound → Nat
  | ended _ => 0
  | reading => 1
  | writing _ => 2

lemma left_le (i : Inbound) : i.left ≤ 2 := by cases i <;> simp [left]

end Inbound

namespace Outbound

/-- How many steps the relay's pump to TLS has left once nothing is
read any more. -/
def left : Outbound → Nat
  | ended _ => 0
  | reading => 1
  | writing _ => 2

lemma left_le (o : Outbound) : o.left ≤ 2 := by cases o <;> simp [left]

end Outbound

namespace Event

/-- The step is one of `udpToTLS`. -/
def isUpload : Event α → Bool
  | hear _ | publish | write _ => true
  | _ => false

/-- The step is one of `tlsToUDP`. -/
def isDownload : Event α → Bool
  | take _ | adopt | reply => true
  | _ => false

/-- The step is one of the relay's pump from TLS. -/
def isInbound : Event α → Bool
  | arrive _ | deliver _ => true
  | _ => false

/-- The step is one of the relay's pump to TLS. -/
def isOutbound : Event α → Bool
  | answer _ | respond _ => true
  | _ => false

end Event

section Left

variable [DecidableEq α] {s s' t : Session α} {e : Event α} {es : List (Event α)}

/-- A closed socket stays closed. -/
lemma step_closed (h : step s e = some s') :
    (s.bridgeTls = false → s'.bridgeTls = false) ∧ (s.bridgeUdp = false → s'.bridgeUdp = false) ∧
      (s.relayTls = false → s'.relayTls = false) ∧ (s.relayUdp = false → s'.relayUdp = false) := by
  cases step_moves h <;> simp

lemma upload_left (hudp : s.bridgeUdp = false) (h : step s e = some s') :
    s'.upload.left + (if e.isUpload then 1 else 0) ≤ s.upload.left := by
  cases step_moves h with
  | heardAgain _ hopen => rw [hudp] at hopen; cases hopen
  | heardNew _ hopen => rw [hudp] at hopen; cases hopen
  | published hpos => cases hpos with
    | inl hpos => simp [hpos, Upload.left, Event.isUpload]
    | inr hpos => simp [hpos, Upload.left, Event.isUpload]
  | hearFailed hpos => simp [hpos, Upload.left, Event.isUpload]
  | full hpos => simp [hpos, Upload.left, Event.isUpload]
  | drained hpos => simp [hpos, Upload.left, Event.isUpload]
  | writeFailed hpos => simp [hpos, Upload.left, Event.isUpload]
  | written hpos => simp [hpos, Upload.left, Event.isUpload]
  | _ => simp [Event.isUpload]

lemma download_left (htls : s.bridgeTls = false) (h : step s e = some s') :
    s'.download.left + (if e.isDownload then 1 else 0) ≤ s.download.left := by
  cases step_moves h with
  | taken _ hopen => rw [htls] at hopen; cases hopen
  | takeFailed hpos => simp [hpos, Download.left, Event.isDownload]
  | adopted hpos =>
      simp only [hpos, Event.isDownload]
      split <;> simp [Download.left]
  | replied hpos =>
      simp only [hpos, Event.isDownload]
      split <;> simp [Download.left]
  | _ => simp [Event.isDownload]

lemma inbound_left (htls : s.relayTls = false) (h : step s e = some s') :
    s'.inbound.left + (if e.isInbound then 1 else 0) ≤ s.inbound.left := by
  cases step_moves h with
  | arrived _ hopen => rw [htls] at hopen; cases hopen
  | arriveFailed hpos => simp [hpos, Inbound.left, Event.isInbound]
  | deliverFailed hpos => simp [hpos, Inbound.left, Event.isInbound]
  | delivered hpos => simp [hpos, Inbound.left, Event.isInbound]
  | _ => simp [Event.isInbound]

lemma outbound_left (hudp : s.relayUdp = false) (h : step s e = some s') :
    s'.outbound.left + (if e.isOutbound then 1 else 0) ≤ s.outbound.left := by
  cases step_moves h with
  | answered _ hopen => rw [hudp] at hopen; cases hopen
  | answerFailed hpos => simp [hpos, Outbound.left, Event.isOutbound]
  | respondFailed hpos => simp [hpos, Outbound.left, Event.isOutbound]
  | responded hpos => simp [hpos, Outbound.left, Event.isOutbound]
  | _ => simp [Event.isOutbound]

/-- A measure that own steps decrease, while a socket is closed. -/
lemma countP_left (own : Event α → Bool) (left : Session α → Nat) {I : Session α → Prop}
    (hI : ∀ s e s', I s → step s e = some s' → I s')
    (hleft : ∀ s e s', I s → step s e = some s' → left s' + (if own e then 1 else 0) ≤ left s)
    (hs : I s) (h : exec step s es = some t) : es.countP own + left t ≤ left s := by
  refine exec_countP_add_le hI ?_ ?_ hs h
  · intro s e s' hs hown he
    have := hleft s e s' hs he
    rwa [if_pos hown] at this
  · intro s e s' hs hown he
    have := hleft s e s' hs he
    rwa [if_neg (by simp [hown])] at this

/-- From here on the pump makes at most `n` steps, none of which can be held up. -/
def Stops (own : Event α → Bool) (hasEnded : Session α → Bool) (n : Nat) (s : Session α) : Prop :=
  ∀ es t, exec step s es = some t →
    es.countP own ≤ n ∧ (hasEnded t = true ∨ ∃ e, own e = true ∧ (step t e).isSome = true)

/-- A frame has its header. -/
lemma frame_length_pos (pkt : Datagram) : 0 < (frame 2 pkt.val).length := by
  rw [length_frame]
  omega

lemma upload_free (h : Reachable step Session.new t) :
    t.upload.hasEnded = true ∨ ∃ e, Event.isUpload e = true ∧ (step t e).isSome = true := by
  cases hset : t.upload.settled with
  | false => exact .inr ⟨.publish, rfl, publish_isSome h hset⟩
  | true =>
      cases hpos : t.upload with
      | ended unsent => exact .inl rfl
      | reading => exact .inr ⟨.hear none, rfl, by simp [step, udpToTLS, hpos]⟩
      | writing pkt =>
          have hroom : 0 < (frame 2 pkt.val).length := frame_length_pos pkt
          exact .inr ⟨.write (some 0), rfl,
            by simp only [step, udpToTLS, hpos, if_pos hroom, Option.isSome_some]⟩
      | publishing src pkt => rw [hpos] at hset; cases hset
      | draining src pkt => rw [hpos] at hset; cases hset
      | sending src pkt => rw [hpos] at hset; cases hset

lemma download_free (t : Session α) :
    decide (t.download = .ended) = true ∨ ∃ e, Event.isDownload e = true ∧
      (step t e).isSome = true := by
  cases hpos : t.download with
  | ended => exact .inl rfl
  | reading => exact .inr ⟨.take false, rfl, by simp [step, tlsToUDP, hpos]⟩
  | adopting pkt => exact .inr ⟨.adopt, rfl, by simp [step, tlsToUDP, hpos]⟩
  | writing pkt => exact .inr ⟨.reply, rfl, by simp [step, tlsToUDP, hpos]⟩

lemma inbound_free (t : Session α) :
    t.inbound.hasEnded = true ∨ ∃ e, Event.isInbound e = true ∧ (step t e).isSome = true := by
  cases hpos : t.inbound with
  | ended undelivered => exact .inl rfl
  | reading => exact .inr ⟨.arrive false, rfl, by simp [step, handle, hpos]⟩
  | writing pkt => exact .inr ⟨.deliver false, rfl, by simp [step, handle, hpos]⟩

lemma outbound_free (t : Session α) :
    t.outbound.hasEnded = true ∨ ∃ e, Event.isOutbound e = true ∧ (step t e).isSome = true := by
  cases hpos : t.outbound with
  | ended unsent => exact .inl rfl
  | reading => exact .inr ⟨.answer none, rfl, by simp [step, handle, hpos]⟩
  | writing pkt =>
      have hroom : 0 < (frame 2 pkt.val).length := frame_length_pos pkt
      exact .inr ⟨.respond (some 0), rfl,
        by simp only [step, handle, hpos, if_pos hroom, Option.isSome_some]⟩

/-- **When a pump of an end has ended, the other one ends within a few steps of
its own, whatever the rest does; and when both have, both sockets of the end are
closed.** -/
theorem torn_down (h : Reachable step Session.new s) :
    (s.download = .ended → Stops Event.isUpload (·.upload.hasEnded) 5 s) ∧
      (s.upload.hasEnded = true → Stops Event.isDownload (·.download = .ended) 3 s) ∧
      (s.outbound.hasEnded = true → Stops Event.isInbound (·.inbound.hasEnded) 2 s) ∧
      (s.inbound.hasEnded = true → Stops Event.isOutbound (·.outbound.hasEnded) 2 s) ∧
      (s.upload.hasEnded = true → s.download = .ended → s.bridgeTls = false ∧ s.bridgeUdp = false) ∧
      (s.inbound.hasEnded = true → s.outbound.hasEnded = true →
        s.relayTls = false ∧ s.relayUdp = false) := by
  have ht : Torn s := h.induction Torn.new fun _ _ _ hs ha => hs.step ha
  refine ⟨?_, ?_, ?_, ?_, fun hup hdown => ⟨ht.upload hup, ht.download hdown⟩,
    fun hin hout => ⟨ht.outbound hout, ht.inbound hin⟩⟩
  · intro hend es t hrun
    have hcount := countP_left Event.isUpload (·.upload.left)
      (fun _ _ _ hs he => (step_closed he).2.1 hs) (fun _ _ _ hs he => upload_left hs he)
      (ht.download hend) hrun
    have := s.upload.left_le
    exact ⟨by omega, upload_free (h.exec hrun)⟩
  · intro hend es t hrun
    have hcount := countP_left Event.isDownload (·.download.left)
      (fun _ _ _ hs he => (step_closed he).1 hs) (fun _ _ _ hs he => download_left hs he)
      (ht.upload hend) hrun
    have := s.download.left_le
    exact ⟨by omega, download_free t⟩
  · intro hend es t hrun
    have hcount := countP_left Event.isInbound (·.inbound.left)
      (fun _ _ _ hs he => (step_closed he).2.2.1 hs) (fun _ _ _ hs he => inbound_left hs he)
      (ht.outbound hend) hrun
    have := s.inbound.left_le
    exact ⟨by omega, inbound_free t⟩
  · intro hend es t hrun
    have hcount := countP_left Event.isOutbound (·.outbound.left)
      (fun _ _ _ hs he => (step_closed he).2.2.2 hs) (fun _ _ _ hs he => outbound_left hs he)
      (ht.inbound hend) hrun
    have := s.outbound.left_le
    exact ⟨by omega, outbound_free t⟩

/-- The gateway closes the connection before anything is sent. -/
theorem torn_down_refused : ∃ s : Session Nat, exec step Session.new [.take false] = some s ∧
    Stops Event.isUpload (·.upload.hasEnded) 5 s :=
  ⟨_, rfl, (torn_down ⟨[.take false], rfl⟩).1 rfl⟩

end Left

end CumulusVpn.WgTls
