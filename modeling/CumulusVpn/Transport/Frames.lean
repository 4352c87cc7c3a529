/-
WireGuard datagrams on a TLS stream, as the gateway's relay and the clients'
bridges frame them (`gateway/internal/tlsrelay/relay.go`, the desktop's
`tlsbridge.rs`, `WgTlsBridge.kt` and `WgTlsBridge.swift`).

* `writeFrame`, `readFrame`: the gateway; `Android.length`, `Ios.drainFrames`:
  where a client reads a frame in another way;
* `Peer.written`, `Peer.delivered`: what a pump puts on the stream for a
  datagram, and the datagrams that another one takes off it;
* `readFrame_eq`, `Android.readFrame_eq`, `Ios.drainFrames_eq`: **every reader
  pops frames**;
* `Peer.interoperates`: **every client understands the relay, and the relay
  every client**.
-/
import CumulusVpn.Lib.Framing

namespace CumulusVpn.WgTls

open Framing

/-- The longest payload that the two bytes of a header can give. -/
abbrev maxDatagram : Nat := 65535

/-- What a UDP socket hands over. -/
abbrev Datagram : Type := { pkt : List UInt8 // pkt.length ≤ maxDatagram }

/-! ### The gateway -/

/-- `binary.BigEndian.PutUint16`, and `to_be_bytes` of the desktop. -/
def putUint16 (n : UInt16) : List UInt8 := [(n >>> 8).toUInt8, n.toUInt8]

/-- `binary.BigEndian.Uint16`, and `from_be_bytes`. -/
def uint16 : List UInt8 → UInt16
  | b0 :: b1 :: _ => b1.toUInt16 ||| b0.toUInt16 <<< 8
  | _ => 0

/-- The frame of a datagram; none is the error for one that is too long. -/
def writeFrame (pkt : List UInt8) : Option (List UInt8) :=
  if pkt.length > maxDatagram then none
  else some (putUint16 (UInt16.ofNat pkt.length) ++ pkt)

/-- None while the frame has not arrived. -/
def readFrame (r : List UInt8) : Option (List UInt8 × List UInt8) := do
  let (hdr, r) ← readFull 2 r
  readFull (uint16 hdr).toNat r

/-! ### The clients -/

namespace Desktop

/-- A frame of the pump from the WireGuard device. -/
def frame (buf : List UInt8) : List UInt8 := putUint16 (UInt16.ofNat buf.length) ++ buf

end Desktop

namespace Android

/-- `(n ushr 8).toByte()` and `n.toByte()`. -/
def header (n : BitVec 32) : List UInt8 := [⟨(n >>> 8).setWidth 8⟩, ⟨n.setWidth 8⟩]

/-- `toInt()` of a byte keeps its sign, which the mask takes off. -/
def length (hdr0 hdr1 : UInt8) : BitVec 32 :=
  (hdr0.toBitVec.signExtend 32 &&& 0xff) <<< 8 ||| (hdr1.toBitVec.signExtend 32 &&& 0xff)

/-- A frame of the pump from the WireGuard device. -/
def frame (buf : List UInt8) : List UInt8 := header (BitVec.ofNat 32 buf.length) ++ buf

/-- None while the frame has not arrived. -/
def readFrame (inp : List UInt8) : Option (List UInt8 × List UInt8) := do
  let (hdr, inp) ← readFull 2 inp
  readFull (length (hdr.getD 0 0) (hdr.getD 1 0)).toNat inp

end Android

namespace Ios

/-- The loop of `drainFrames`, from the bytes consumed so far. -/
def drainLoop (rx : List UInt8) : Nat → Nat → List (List UInt8) × Nat
  | 0, consumed => ([], consumed)
  | fuel + 1, consumed =>
      if rx.length - consumed ≥ 2 then
        let len := (rx.getD consumed 0).toNat <<< 8 ||| (rx.getD (consumed + 1) 0).toNat
        if rx.length - consumed < 2 + len then ([], consumed)
        else
          let pkt := (rx.drop (consumed + 2)).take len
          let more := drainLoop rx fuel (consumed + (2 + len))
          (pkt :: more.1, more.2)
      else ([], consumed)

/-- The datagrams sent on, and what stays in `rx`. -/
def drainFrames (rx : List UInt8) : List (List UInt8) × List UInt8 :=
  let drained := drainLoop rx rx.length 0
  (drained.1, rx.drop drained.2)

/-- A callback of `readTLS`: the datagrams sent on so far, and `rx`. -/
def readTLS (st : List (List UInt8) × List UInt8) (data : List UInt8) :
    List (List UInt8) × List UInt8 :=
  let drained := drainFrames (st.2 ++ data)
  (st.1 ++ drained.1, drained.2)

/-- `readUDP`: an empty datagram is not sent on. -/
def frame (data : List UInt8) : List UInt8 :=
  if data ≠ [] ∧ data.length ≤ maxDatagram then putUint16 (UInt16.ofNat data.length) ++ data
  else []

end Ios

/-! ### The pumps -/

/-- Who stands at an end of a TLS connection. -/
inductive Peer
  | gateway
  | desktop
  | android
  | ios
deriving DecidableEq, Repr

namespace Peer

/-- What a pump writes for a datagram that it has read. -/
def written (p : Peer) (pkt : Datagram) : List UInt8 :=
  match p with
  | gateway => (writeFrame pkt).getD []
  | desktop => Desktop.frame pkt
  | android => Android.frame pkt
  | ios => Ios.frame pkt

/-- The datagrams that a pump has taken off the stream, when it has arrived in
these pieces. -/
def delivered (p : Peer) (chunks : List (List UInt8)) : List (List UInt8) :=
  match p with
  | gateway => (readAll readFrame chunks.flatten.length chunks.flatten).1
  | desktop => (readAll readFrame chunks.flatten.length chunks.flatten).1
  | android => (readAll Android.readFrame chunks.flatten.length chunks.flatten).1
  | ios => (chunks.foldl Ios.readTLS ([], [])).1

/-- The datagrams that a pump sends on. -/
def forwards (p : Peer) (pkt : Datagram) : Bool := p ≠ ios || pkt.val ≠ []

end Peer

/-! ### The length of a datagram -/

lemma ofBigEndian_pair (b0 b1 : UInt8) : ofBigEndian [b0, b1] = b0.toNat * 256 + b1.toNat := by
  simp [ofBigEndian]

lemma shift_or {b : Nat} (hb : b < 256) (a : Nat) : a <<< 8 ||| b = a * 256 + b := by
  rw [← Nat.shiftLeft_add_eq_or_of_lt (i := 8) hb a, Nat.shiftLeft_eq]

lemma putUint16_ofNat {n : Nat} (h : n ≤ maxDatagram) :
    putUint16 (UInt16.ofNat n) = bigEndian 2 n := by
  have hn : n % 65536 = n := Nat.mod_eq_of_lt (Nat.lt_succ_of_le h)
  have hhi : (UInt16.ofNat n >>> 8).toUInt8 = UInt8.ofNat (n / 256) := by
    apply UInt8.toNat_inj.mp
    simp [Nat.shiftRight_eq_div_pow, hn]
  have hlo : (UInt16.ofNat n).toUInt8 = UInt8.ofNat n := by
    apply UInt8.toNat_inj.mp
    simp
  rw [putUint16, hhi, hlo]
  rfl

lemma uint16_toNat (b0 b1 : UInt8) : (uint16 [b0, b1]).toNat = ofBigEndian [b0, b1] := by
  have h0 := b0.toNat_lt
  have h1 := b1.toNat_lt
  have hshift : b0.toNat <<< 8 % 65536 = b0.toNat <<< 8 := by
    rw [Nat.shiftLeft_eq]
    omega
  rw [uint16, UInt16.toNat_or, UInt16.toNat_shiftLeft, ofBigEndian_pair, Nat.or_comm]
  simp only [UInt8.toNat_toUInt16]
  show b0.toNat <<< 8 % 65536 ||| _ = _
  rw [hshift, shift_or h1]

namespace Android

lemma header_ofNat (n : Nat) : header (BitVec.ofNat 32 n) = bigEndian 2 n := by
  have hhi : (⟨(BitVec.ofNat 32 n >>> 8).setWidth 8⟩ : UInt8) = UInt8.ofNat (n / 256) := by
    apply UInt8.toNat_inj.mp
    show ((BitVec.ofNat 32 n >>> 8).setWidth 8).toNat = _
    simp [Nat.shiftRight_eq_div_pow]
    omega
  have hlo : (⟨(BitVec.ofNat 32 n).setWidth 8⟩ : UInt8) = UInt8.ofNat n := by
    apply UInt8.toNat_inj.mp
    show ((BitVec.ofNat 32 n).setWidth 8).toNat = _
    simp
  rw [header, hhi, hlo]
  rfl

/-- The mask takes the sign off. -/
lemma signExtend_and (b : BitVec 8) : b.signExtend 32 &&& 0xff = b.setWidth 32 := by
  revert b
  decide

lemma length_toNat (hdr0 hdr1 : UInt8) : (length hdr0 hdr1).toNat = ofBigEndian [hdr0, hdr1] := by
  have h0 := hdr0.toNat_lt
  have h1 := hdr1.toNat_lt
  have hshift : hdr0.toNat <<< 8 % 2 ^ 32 = hdr0.toNat <<< 8 := by
    rw [Nat.shiftLeft_eq]
    omega
  rw [length, signExtend_and, signExtend_and, ofBigEndian_pair, BitVec.toNat_or,
    BitVec.toNat_shiftLeft, BitVec.toNat_setWidth, BitVec.toNat_setWidth]
  show (hdr0.toNat % 2 ^ 32) <<< 8 % 2 ^ 32 ||| hdr1.toNat % 2 ^ 32 = _
  rw [Nat.mod_eq_of_lt (by omega : hdr0.toNat < 2 ^ 32),
    Nat.mod_eq_of_lt (by omega : hdr1.toNat < 2 ^ 32), hshift, shift_or h1]

end Android

/-! ### Every writer frames -/

lemma fits_datagram (pkt : Datagram) : Fits 2 pkt.val := Nat.lt_succ_of_le pkt.property

/-- The size of a datagram is never refused. -/
lemma writeFrame_eq (pkt : Datagram) : writeFrame pkt = some (frame 2 pkt.val) := by
  rw [writeFrame, if_neg (Nat.not_lt.mpr pkt.property), putUint16_ofNat pkt.property]
  rfl

/-- What is written is the frame of what is sent on. -/
lemma Peer.written_eq (p : Peer) (pkt : Datagram) :
    p.written pkt = if p.forwards pkt then frame 2 pkt.val else [] := by
  cases p with
  | gateway => simp [written, writeFrame_eq, forwards]
  | desktop => simp [written, Desktop.frame, putUint16_ofNat pkt.property, forwards, frame]
  | android => simp [written, Android.frame, Android.header_ofNat, forwards, frame]
  | ios =>
      have hlength : pkt.val.length ≤ 65535 := pkt.property
      by_cases hempty : pkt.val = []
      · simp [written, Ios.frame, forwards, hempty]
      · simp [written, Ios.frame, forwards, hempty, hlength, putUint16_ofNat hlength, frame]

/-! ### Every reader pops frames -/

lemma readFull_two_eq_some {s hdr rest : List UInt8} (h : readFull 2 s = some (hdr, rest)) :
    ∃ b0 b1, hdr = [b0, b1] := List.length_eq_two.mp (readFull_eq_some_iff.mp h).1

theorem readFrame_eq (r : List UInt8) : readFrame r = pop 2 r := by
  rw [readFrame, pop]
  cases h : readFull 2 r with
  | none => rfl
  | some read =>
      obtain ⟨hdr, rest⟩ := read
      obtain ⟨b0, b1, rfl⟩ := readFull_two_eq_some h
      show readFull (uint16 [b0, b1]).toNat rest = readFull (ofBigEndian [b0, b1]) rest
      rw [uint16_toNat]

theorem Android.readFrame_eq (inp : List UInt8) : Android.readFrame inp = pop 2 inp := by
  rw [Android.readFrame, pop]
  cases h : readFull 2 inp with
  | none => rfl
  | some read =>
      obtain ⟨hdr, rest⟩ := read
      obtain ⟨b0, b1, rfl⟩ := readFull_two_eq_some h
      show readFull (Android.length b0 b1).toNat rest = readFull (ofBigEndian [b0, b1]) rest
      rw [Android.length_toNat]

lemma pop_short {s : List UInt8} (h : s.length < 2) : pop 2 s = none := by
  rw [pop, readFull_eq_none_iff.mpr h, Option.bind_none]

lemma pop_pair (b0 b1 : UInt8) (rest : List UInt8) :
    pop 2 (b0 :: b1 :: rest) = readFull (b0.toNat <<< 8 ||| b1.toNat) rest := by
  have hheader : readFull 2 (b0 :: b1 :: rest) = some ([b0, b1], rest) :=
    readFull_eq_some_iff.mpr ⟨rfl, rfl⟩
  rw [pop, hheader, Option.bind_some, ofBigEndian_pair, shift_or b1.toNat_lt]

namespace Ios

/-- The loop goes on where `readAll` does. -/
lemma drainLoop_eq (rx : List UInt8) (fuel consumed : Nat) :
    (drainLoop rx fuel consumed).1 = (readAll (pop 2) fuel (rx.drop consumed)).1 ∧
      rx.drop (drainLoop rx fuel consumed).2 = (readAll (pop 2) fuel (rx.drop consumed)).2 := by
  induction fuel generalizing consumed with
  | zero => exact ⟨rfl, rfl⟩
  | succ fuel ih =>
      have hlength : (rx.drop consumed).length = rx.length - consumed := List.length_drop
      by_cases hshort : (rx.drop consumed).length < 2
      · rw [drainLoop, if_neg (by omega), readAll, pop_short hshort]
        exact ⟨rfl, rfl⟩
      · obtain ⟨b0, s, hb0⟩ := List.exists_cons_of_length_pos (l := rx.drop consumed) (by omega)
        have hs : rx.drop (consumed + 1) = s := by
          rw [← List.drop_drop, hb0]
          rfl
        have hslength : s.length + 1 = rx.length - consumed := by
          rw [← hlength, hb0, List.length_cons]
        obtain ⟨b1, rest, rfl⟩ := List.exists_cons_of_length_pos (l := s) (by omega)
        have hrest : rx.drop (consumed + 2) = rest := by
          rw [show consumed + 2 = consumed + 1 + 1 from rfl, ← List.drop_drop, hs]
          rfl
        have hget0 : rx.getD consumed 0 = b0 := by
          rw [List.getD_eq_getElem?_getD, ← List.head?_drop, hb0]
          rfl
        have hget1 : rx.getD (consumed + 1) 0 = b1 := by
          rw [List.getD_eq_getElem?_getD, ← List.head?_drop, hs]
          rfl
        rw [drainLoop, if_pos (by omega), hget0, hget1, hrest, hb0, readAll, pop_pair]
        generalize b0.toNat <<< 8 ||| b1.toNat = len
        have hnext : rx.drop (consumed + (2 + len)) = rest.drop len := by
          rw [← Nat.add_assoc, ← List.drop_drop, hrest]
        have hrestlength : rest.length + 2 = rx.length - consumed := hslength
        by_cases hlen : rest.length < len
        · dsimp only
          rw [if_pos (by omega), readFull_eq_none_iff.mpr hlen]
          exact ⟨rfl, hb0⟩
        · have hread : readFull len rest = some (rest.take len, rest.drop len) := if_pos (by omega)
          dsimp only
          rw [if_neg (by omega), hread]
          obtain ⟨hpkts, htail⟩ := ih (consumed + (2 + len))
          rw [hnext] at hpkts htail
          exact ⟨congrArg _ hpkts, htail⟩

theorem drainFrames_eq (rx : List UInt8) : drainFrames rx = drain 2 rx := by
  obtain ⟨hpkts, hrest⟩ := drainLoop_eq rx rx.length 0
  exact Prod.ext hpkts hrest

/-- The callbacks keep what a receiver of frames keeps. -/
lemma readTLS_eq : readTLS = feed 2 := by
  funext st data
  rw [readTLS, drainFrames_eq]
  rfl

end Ios

namespace Peer

/-- **On any stream at all, every reader finds the same datagrams.** -/
theorem delivered_eq (p : Peer) (chunks : List (List UInt8)) :
    p.delivered chunks = (drain 2 chunks.flatten).1 := by
  have hgateway : readFrame = pop 2 := funext readFrame_eq
  have handroid : Android.readFrame = pop 2 := funext Android.readFrame_eq
  cases p with
  | gateway => rw [delivered, hgateway, drain]
  | desktop => rw [delivered, hgateway, drain]
  | android => rw [delivered, handroid, drain]
  | ios => rw [delivered, Ios.readTLS_eq, feed_chunks Nat.two_pos]

/-- What is written for some datagrams is the frames of those sent on. -/
lemma flatMap_written (p : Peer) (pkts : List Datagram) :
    pkts.flatMap p.written = frames 2 ((pkts.filter p.forwards).map Subtype.val) := by
  induction pkts with
  | nil => rfl
  | cons pkt pkts ih =>
      rw [List.flatMap_cons, written_eq, ih, List.filter_cons]
      split <;> simp

/-- **Every client understands the relay, and the relay every client**: of the
stream that one end writes for its datagrams, however it arrives in pieces, the
other end delivers the datagrams that were sent on, in order and unchanged; of a
stream that has arrived in part it delivers exactly those whose frames are all
there. -/
theorem interoperates (a b : Peer) (pkts : List Datagram) (chunks : List (List UInt8))
    (h : chunks.flatten <+: pkts.flatMap a.written) :
    b.delivered chunks <+: (pkts.filter a.forwards).map Subtype.val ∧
      (∀ k, ((pkts.take k).filter a.forwards).map Subtype.val <+: b.delivered chunks ↔
        (pkts.take k).flatMap a.written <+: chunks.flatten) ∧
      (chunks.flatten = pkts.flatMap a.written →
        b.delivered chunks = (pkts.filter a.forwards).map Subtype.val) := by
  have hfits : ∀ sent : List Datagram,
      ∀ body ∈ (sent.filter a.forwards).map Subtype.val, Fits 2 body := by
    intro sent body hbody
    obtain ⟨pkt, -, rfl⟩ := List.mem_map.mp hbody
    exact fits_datagram pkt
  have hall := drain_frames Nat.two_pos (hfits pkts)
  rw [flatMap_written] at h ⊢
  rw [delivered_eq]
  refine ⟨?_, fun k => ?_, fun heq => ?_⟩
  · have hprefix := drain_prefix Nat.two_pos h
    rwa [hall] at hprefix
  · rw [flatMap_written]
    exact (frames_prefix_iff Nat.two_pos (hfits (pkts.take k))).symm
  · rw [heq, hall]

/-- Three datagrams of Android; two have reached the relay in three pieces. -/
theorem interoperates_android :
    [[7, 8], [9]] <+: gateway.delivered [[0], [2, 7, 8, 0], [1, 9, 0]] :=
  ((interoperates android gateway
    [⟨[7, 8], by decide⟩, ⟨[9], by decide⟩, ⟨[10], by decide⟩] [[0], [2, 7, 8, 0], [1, 9, 0]]
    ⟨[1, 10], rfl⟩).2.1 2).mpr ⟨[0], rfl⟩

end Peer

end CumulusVpn.WgTls
