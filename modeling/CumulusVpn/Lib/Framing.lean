/-
Bodies on a byte stream, each behind its length in a fixed number of
big-endian bytes.

* `bigEndian`, `ofBigEndian`: numbers as bytes, the most significant first;
* `readFull`, `frame`, `pop`: a body on the stream, and the first body of what
  has arrived;
* `pop_eq_some_iff`: **a body is popped exactly from a stream that begins with
  its frame**;
* `Cut`, `Cut.unique`: **a stream is cut into frames in one way**;
* `readAll`, `drain`, `feed_chunks`: **the bodies do not depend on how the
  stream arrives in pieces**;
* `Link`, `Link.Sound`: a stream between a sender and a receiver;
  `Link.Sound.prefix_sent`, `Link.Sound.received_eq`: **what is received is
  what was sent, in order, and all of it in the end**.
-/
import Mathlib.Algebra.GroupWithZero.Nat
import Mathlib.Data.List.Infix
import Mathlib.Tactic.Common

namespace Framing

/-! ### Numbers as bytes -/

/-- The last `k` bytes of a number, the most significant first. -/
def bigEndian : Nat → Nat → List UInt8
  | 0, _ => []
  | k + 1, n => bigEndian k (n / 256) ++ [UInt8.ofNat n]

/-- The number of the bytes, most significant first. -/
def ofBigEndian (bytes : List UInt8) : Nat := bytes.foldl (fun n byte => n * 256 + byte.toNat) 0

@[simp] lemma length_bigEndian (k n : Nat) : (bigEndian k n).length = k := by
  induction k generalizing n with
  | zero => rfl
  | succ k ih => simp [bigEndian, ih]

@[simp] lemma ofBigEndian_nil : ofBigEndian [] = 0 := rfl

@[simp] lemma ofBigEndian_concat (bytes : List UInt8) (byte : UInt8) :
    ofBigEndian (bytes ++ [byte]) = ofBigEndian bytes * 256 + byte.toNat := by
  simp [ofBigEndian]

lemma ofBigEndian_lt (bytes : List UInt8) : ofBigEndian bytes < 256 ^ bytes.length := by
  induction bytes using List.reverseRecOn with
  | nil => simp
  | append_singleton bytes byte ih =>
      have hbyte := byte.toNat_lt
      rw [ofBigEndian_concat, List.length_append, List.length_singleton, Nat.pow_succ]
      omega

lemma ofBigEndian_bigEndian {k n : Nat} (h : n < 256 ^ k) : ofBigEndian (bigEndian k n) = n := by
  induction k generalizing n with
  | zero =>
      rw [Nat.pow_zero] at h
      simp [bigEndian]
      omega
  | succ k ih =>
      have hdiv : n / 256 < 256 ^ k := by
        rw [Nat.pow_succ] at h
        exact Nat.div_lt_of_lt_mul (by omega)
      rw [bigEndian, ofBigEndian_concat, ih hdiv, UInt8.toNat_ofNat']
      omega

/-- Every `k` bytes are those of their number. -/
lemma bigEndian_ofBigEndian (bytes : List UInt8) :
    bigEndian bytes.length (ofBigEndian bytes) = bytes := by
  induction bytes using List.reverseRecOn with
  | nil => rfl
  | append_singleton bytes byte ih =>
      have hbyte := byte.toNat_lt
      have hdiv : (ofBigEndian bytes * 256 + byte.toNat) / 256 = ofBigEndian bytes := by omega
      have hlast : UInt8.ofNat (ofBigEndian bytes * 256 + byte.toNat) = byte := by
        apply UInt8.toNat_inj.mp
        rw [UInt8.toNat_ofNat']
        omega
      rw [ofBigEndian_concat, List.length_append, List.length_singleton, bigEndian, hdiv, ih, hlast]

/-! ### One frame -/

/-- The first `n` bytes of a stream with the rest, once they are all there. -/
def readFull (n : Nat) (s : List UInt8) : Option (List UInt8 × List UInt8) :=
  if n ≤ s.length then some (s.take n, s.drop n) else none

lemma readFull_eq_some_iff {n : Nat} {s a rest : List UInt8} :
    readFull n s = some (a, rest) ↔ a.length = n ∧ s = a ++ rest := by
  rw [readFull]
  constructor
  · intro h
    split at h
    · rename_i hle
      obtain ⟨rfl, rfl⟩ := Prod.mk.inj (Option.some.inj h)
      exact ⟨List.length_take_of_le hle, (List.take_append_drop n s).symm⟩
    · cases h
  · rintro ⟨rfl, rfl⟩
    simp

@[simp] lemma readFull_append (a rest : List UInt8) :
    readFull a.length (a ++ rest) = some (a, rest) := readFull_eq_some_iff.mpr ⟨rfl, rfl⟩

lemma readFull_eq_none_iff {n : Nat} {s : List UInt8} : readFull n s = none ↔ s.length < n := by
  rw [readFull]
  split <;> simp <;> omega

/-- The body's length has `k` bytes. -/
def Fits (k : Nat) (body : List UInt8) : Prop := body.length < 256 ^ k

instance (k : Nat) (body : List UInt8) : Decidable (Fits k body) :=
  inferInstanceAs (Decidable (_ < _))

/-- A body behind its length. -/
def frame (k : Nat) (body : List UInt8) : List UInt8 := bigEndian k body.length ++ body

@[simp] lemma length_frame (k : Nat) (body : List UInt8) :
    (frame k body).length = k + body.length := by
  simp [frame]

/-- The first body of a stream with what is behind its frame, once the frame is
all there. -/
def pop (k : Nat) (s : List UInt8) : Option (List UInt8 × List UInt8) :=
  (readFull k s).bind fun header => readFull (ofBigEndian header.1) header.2

lemma pop_frame_append {k : Nat} {body : List UInt8} (h : Fits k body) (rest : List UInt8) :
    pop k (frame k body ++ rest) = some (body, rest) := by
  have hheader : readFull k (frame k body ++ rest) = some (bigEndian k body.length, body ++ rest) :=
    readFull_eq_some_iff.mpr ⟨length_bigEndian k _, List.append_assoc _ _ _⟩
  rw [pop, hheader, Option.bind_some, ofBigEndian_bigEndian h, readFull_append]

/-- **A body is popped exactly from a stream that begins with its frame.** -/
theorem pop_eq_some_iff {k : Nat} {s body rest : List UInt8} :
    pop k s = some (body, rest) ↔ Fits k body ∧ s = frame k body ++ rest := by
  constructor
  · intro h
    obtain ⟨⟨header, behind⟩, hheader, hbody⟩ := Option.bind_eq_some_iff.mp h
    obtain ⟨hlength, rfl⟩ := readFull_eq_some_iff.mp hheader
    obtain ⟨hsize, rfl⟩ := readFull_eq_some_iff.mp hbody
    have hbytes : bigEndian k body.length = header := by
      rw [hsize, ← hlength, bigEndian_ofBigEndian]
    refine ⟨?_, ?_⟩
    · rw [Fits, hsize, ← hlength]
      exact ofBigEndian_lt header
    · rw [frame, hbytes, List.append_assoc]
  · rintro ⟨hfits, rfl⟩
    exact pop_frame_append hfits rest

/-- More bytes do not change a body that is all there. -/
lemma pop_append {k : Nat} {s body rest : List UInt8} (h : pop k s = some (body, rest))
    (more : List UInt8) : pop k (s ++ more) = some (body, rest ++ more) := by
  obtain ⟨hfits, rfl⟩ := pop_eq_some_iff.mp h
  exact pop_eq_some_iff.mpr ⟨hfits, List.append_assoc _ _ _⟩

lemma pop_length_lt {k : Nat} (hk : 0 < k) {s body rest : List UInt8}
    (h : pop k s = some (body, rest)) : rest.length < s.length := by
  obtain ⟨-, rfl⟩ := pop_eq_some_iff.mp h
  rw [List.length_append, length_frame]
  omega

/-- A frame that is not all there is no frame. -/
lemma pop_take_frame {k : Nat} {body : List UInt8} (h : Fits k body) {n : Nat}
    (hn : n < (frame k body).length) : pop k ((frame k body).take n) = none := by
  cases hpop : pop k ((frame k body).take n) with
  | none => rfl
  | some popped =>
      obtain ⟨body', rest⟩ := popped
      have hall := pop_append hpop ((frame k body).drop n)
      have hwhole := pop_frame_append h []
      rw [List.append_nil] at hwhole
      rw [List.take_append_drop, hwhole] at hall
      have hdrop := (List.append_eq_nil_iff.mp (Prod.mk.inj (Option.some.inj hall)).2.symm).2
      rw [List.drop_eq_nil_iff] at hdrop
      omega

@[simp] lemma pop_nil {k : Nat} (hk : 0 < k) : pop k [] = none := by
  rw [pop, readFull_eq_none_iff.mpr hk, Option.bind_none]

/-! ### Streams of frames -/

/-- The frames of some bodies, one after the other. -/
def frames (k : Nat) (bodies : List (List UInt8)) : List UInt8 := bodies.flatMap (frame k)

@[simp] lemma frames_nil (k : Nat) : frames k [] = [] := rfl

@[simp] lemma frames_cons (k : Nat) (body : List UInt8) (bodies : List (List UInt8)) :
    frames k (body :: bodies) = frame k body ++ frames k bodies := rfl

@[simp] lemma frames_append (k : Nat) (bodies bodies' : List (List UInt8)) :
    frames k (bodies ++ bodies') = frames k bodies ++ frames k bodies' := List.flatMap_append

/-- A stream is the frames of these bodies, and then no whole frame. -/
structure Cut (k : Nat) (s : List UInt8) (bodies : List (List UInt8))
    (tail : List UInt8) : Prop where
  eq : s = frames k bodies ++ tail
  fits : ∀ body ∈ bodies, Fits k body
  rest : pop k tail = none

section Cut

variable {k : Nat} {s tail tail' : List UInt8} {bodies bodies' : List (List UInt8)}

/-- **A stream is cut into frames in one way.** -/
theorem Cut.unique (h : Cut k s bodies tail) (h' : Cut k s bodies' tail') :
    bodies = bodies' ∧ tail = tail' := by
  induction bodies generalizing s bodies' with
  | nil =>
      cases bodies' with
      | nil => exact ⟨rfl, h.eq.symm.trans h'.eq⟩
      | cons body' bodies' =>
          have hpop : pop k s = some (body', frames k bodies' ++ tail') :=
            pop_eq_some_iff.mpr ⟨h'.fits body' List.mem_cons_self, by
              rw [h'.eq, frames_cons, List.append_assoc]⟩
          rw [h.eq, frames_nil, List.nil_append, h.rest] at hpop
          cases hpop
  | cons body bodies ih =>
      have hpop : pop k s = some (body, frames k bodies ++ tail) :=
        pop_eq_some_iff.mpr ⟨h.fits body List.mem_cons_self, by
          rw [h.eq, frames_cons, List.append_assoc]⟩
      cases bodies' with
      | nil =>
          rw [h'.eq, frames_nil, List.nil_append, h'.rest] at hpop
          cases hpop
      | cons body' bodies' =>
          have hpop' : pop k s = some (body', frames k bodies' ++ tail') :=
            pop_eq_some_iff.mpr ⟨h'.fits body' List.mem_cons_self, by
              rw [h'.eq, frames_cons, List.append_assoc]⟩
          obtain ⟨rfl, hrest⟩ := Prod.mk.inj (Option.some.inj (hpop.symm.trans hpop'))
          obtain ⟨rfl, rfl⟩ := ih (s := frames k bodies ++ tail)
            ⟨rfl, fun b hb => h.fits b (List.mem_cons_of_mem _ hb), h.rest⟩
            ⟨hrest, fun b hb => h'.fits b (List.mem_cons_of_mem _ hb), h'.rest⟩
          exact ⟨rfl, rfl⟩

/-- A cut of what follows goes on from the cut's tail. -/
lemma Cut.append {more : List UInt8} (h : Cut k s bodies tail)
    (h' : Cut k (tail ++ more) bodies' tail') : Cut k (s ++ more) (bodies ++ bodies') tail' where
  eq := by rw [h.eq, List.append_assoc, h'.eq, frames_append, List.append_assoc]
  fits := fun body hbody => (List.mem_append.mp hbody).elim (h.fits body) (h'.fits body)
  rest := h'.rest

end Cut

/-- What a reader of bodies finds one after the other, with the rest of the
stream. -/
def readAll (read : List UInt8 → Option (List UInt8 × List UInt8)) :
    Nat → List UInt8 → List (List UInt8) × List UInt8
  | 0, s => ([], s)
  | fuel + 1, s =>
      match read s with
      | none => ([], s)
      | some (body, rest) => (body :: (readAll read fuel rest).1, (readAll read fuel rest).2)

/-- The bodies whose frames are all there, with the rest of the stream. -/
def drain (k : Nat) (s : List UInt8) : List (List UInt8) × List UInt8 := readAll (pop k) s.length s

section Drain

variable {k : Nat} (hk : 0 < k)

include hk

lemma readAll_cut {fuel : Nat} {s : List UInt8} (h : s.length ≤ fuel) :
    Cut k s (readAll (pop k) fuel s).1 (readAll (pop k) fuel s).2 := by
  induction fuel generalizing s with
  | zero =>
      have hnil : s = [] := List.length_eq_zero_iff.mp (Nat.le_zero.mp h)
      exact ⟨rfl, by simp [readAll], by rw [hnil]; exact pop_nil hk⟩
  | succ fuel ih =>
      cases hpop : pop k s with
      | none =>
          rw [readAll, hpop]
          exact ⟨rfl, by simp, hpop⟩
      | some popped =>
          obtain ⟨body, rest⟩ := popped
          have hshort := pop_length_lt hk hpop
          have hrest := ih (s := rest) (by omega)
          obtain ⟨hfits, hs⟩ := pop_eq_some_iff.mp hpop
          rw [readAll, hpop]
          refine ⟨?_, ?_, hrest.rest⟩
          · rw [frames_cons, List.append_assoc, ← hrest.eq, hs]
          · exact List.forall_mem_cons.mpr ⟨hfits, hrest.fits⟩

lemma drain_cut (s : List UInt8) : Cut k s (drain k s).1 (drain k s).2 :=
  readAll_cut hk (Nat.le_refl _)

/-- A cut of the stream is what `drain` finds. -/
lemma drain_eq {s tail : List UInt8} {bodies : List (List UInt8)} (h : Cut k s bodies tail) :
    drain k s = (bodies, tail) := by
  obtain ⟨hbodies, htail⟩ := (drain_cut hk s).unique h
  exact Prod.ext hbodies htail

lemma drain_none {s : List UInt8} (h : pop k s = none) : drain k s = ([], s) :=
  drain_eq hk ⟨rfl, by simp, h⟩

lemma drain_frames {bodies : List (List UInt8)} (h : ∀ body ∈ bodies, Fits k body) :
    drain k (frames k bodies) = (bodies, []) :=
  drain_eq hk ⟨(List.append_nil _).symm, h, pop_nil hk⟩

/-- What arrives later is drained from the rest of what arrived before. -/
theorem drain_append (s more : List UInt8) :
    drain k (s ++ more) =
      ((drain k s).1 ++ (drain k ((drain k s).2 ++ more)).1,
        (drain k ((drain k s).2 ++ more)).2) :=
  drain_eq hk ((drain_cut hk s).append (drain_cut hk _))

/-- The bodies of the beginning of a stream come first among those of the
stream. -/
lemma drain_prefix {s t : List UInt8} (h : s <+: t) : (drain k s).1 <+: (drain k t).1 := by
  obtain ⟨more, rfl⟩ := h
  rw [drain_append hk]
  exact List.prefix_append _ _

/-- **Bodies are drained from a stream just when it begins with their frames.** -/
theorem frames_prefix_iff {bodies : List (List UInt8)} {s : List UInt8}
    (h : ∀ body ∈ bodies, Fits k body) : frames k bodies <+: s ↔ bodies <+: (drain k s).1 := by
  constructor
  · intro hprefix
    have hdrain := drain_prefix hk hprefix
    rwa [drain_frames hk h] at hdrain
  · rintro ⟨more, hmore⟩
    rw [(drain_cut hk s).eq, ← hmore, frames_append, List.append_assoc]
    exact List.prefix_append _ _

end Drain

/-- A receiver takes a piece of the stream: the bodies so far, and the bytes it
holds. -/
def feed (k : Nat) (st : List (List UInt8) × List UInt8) (chunk : List UInt8) :
    List (List UInt8) × List UInt8 :=
  (st.1 ++ (drain k (st.2 ++ chunk)).1, (drain k (st.2 ++ chunk)).2)

/-- **The bodies do not depend on how the stream arrives in pieces.** -/
theorem feed_chunks {k : Nat} (hk : 0 < k) (chunks : List (List UInt8)) :
    chunks.foldl (feed k) ([], []) = drain k chunks.flatten := by
  -- by induction from the right: the receiver stands where `drain` left off
  induction chunks using List.reverseRecOn with
  | nil => rfl
  | append_singleton chunks chunk ih =>
      rw [List.foldl_append, List.foldl_cons, List.foldl_nil, ih, List.flatten_append,
        List.flatten_cons, List.flatten_nil, List.append_nil, drain_append hk]
      rfl

/-! ### A stream between a sender and a receiver -/

/-- The bodies sent and received, the bytes on the way and those that have
arrived and are not yet a body received. -/
structure Link where
  sent : List (List UInt8)
  /-- the beginning of a frame that failed to be sent -/
  cut : List UInt8
  flying : List UInt8
  held : List UInt8
  received : List (List UInt8)
deriving DecidableEq, Repr

namespace Link

/-- A link over which nothing was sent. -/
def new : Link := ⟨[], [], [], [], []⟩

/-- The sender writes a frame. -/
def send (k : Nat) (l : Link) (body : List UInt8) : Link :=
  { l with sent := l.sent ++ [body], flying := l.flying ++ frame k body }

/-- The sender fails after `n` bytes of a frame. -/
def breakOff (k : Nat) (l : Link) (body : List UInt8) (n : Nat) : Link :=
  { l with cut := (frame k body).take n, flying := l.flying ++ (frame k body).take n }

/-- The next `n` bytes arrive. -/
def carry (l : Link) (n : Nat) : Link :=
  { l with flying := l.flying.drop n, held := l.held ++ l.flying.take n }

/-- The receiver reads a body, once its frame has arrived. -/
def receive (k : Nat) (l : Link) : Option (List UInt8 × Link) :=
  (pop k l.held).map fun popped =>
    (popped.1, { l with held := popped.2, received := l.received ++ [popped.1] })

/-- Every byte is that of a body received, or has arrived, or is on the way. -/
structure Sound (k : Nat) (l : Link) : Prop where
  eq : frames k l.sent ++ l.cut = frames k l.received ++ (l.held ++ l.flying)
  fits : ∀ body ∈ l.sent, Fits k body
  fits_received : ∀ body ∈ l.received, Fits k body
  cut : pop k l.cut = none

variable {k : Nat} {l l' : Link} {body : List UInt8}

@[simp] lemma send_sent : (l.send k body).sent = l.sent ++ [body] := rfl
@[simp] lemma send_received : (l.send k body).received = l.received := rfl
@[simp] lemma send_cut : (l.send k body).cut = l.cut := rfl
@[simp] lemma breakOff_sent (n : Nat) : (l.breakOff k body n).sent = l.sent := rfl
@[simp] lemma breakOff_received (n : Nat) : (l.breakOff k body n).received = l.received := rfl
@[simp] lemma carry_sent (n : Nat) : (l.carry n).sent = l.sent := rfl
@[simp] lemma carry_received (n : Nat) : (l.carry n).received = l.received := rfl
@[simp] lemma carry_cut (n : Nat) : (l.carry n).cut = l.cut := rfl

lemma receive_eq_some (h : l.receive k = some (body, l')) :
    l'.sent = l.sent ∧ l'.received = l.received ++ [body] ∧ l'.flying = l.flying ∧ l'.cut = l.cut ∧
      pop k l.held = some (body, l'.held) := by
  obtain ⟨⟨body', rest⟩, hpop, heq⟩ := Option.map_eq_some_iff.mp h
  obtain ⟨rfl, rfl⟩ := Prod.mk.inj heq
  exact ⟨rfl, rfl, rfl, rfl, hpop⟩

lemma Sound.new (hk : 0 < k) : Sound k new :=
  ⟨rfl, by simp [Link.new], by simp [Link.new], pop_nil hk⟩

lemma Sound.send (h : Sound k l) (hcut : l.cut = []) (hbody : Fits k body) :
    Sound k (l.send k body) where
  eq := by
    have heq := h.eq
    rw [hcut, List.append_nil] at heq
    simp only [Link.send, frames_append, frames_cons, frames_nil, List.append_nil, heq, hcut,
      List.append_assoc]
  fits := fun b hb => (List.mem_append.mp hb).elim (h.fits b) fun hb => by
    rwa [List.mem_singleton.mp hb]
  fits_received := h.fits_received
  cut := h.cut

lemma Sound.breakOff (h : Sound k l) (hcut : l.cut = []) (hbody : Fits k body) {n : Nat}
    (hn : n < (frame k body).length) : Sound k (l.breakOff k body n) where
  eq := by
    have heq := h.eq
    rw [hcut, List.append_nil] at heq
    simp only [Link.breakOff, heq, List.append_assoc]
  fits := h.fits
  fits_received := h.fits_received
  cut := pop_take_frame hbody hn

lemma Sound.carry (h : Sound k l) (n : Nat) : Sound k (l.carry n) where
  eq := by
    simp only [Link.carry, h.eq, List.append_assoc]
    rw [List.take_append_drop]
  fits := h.fits
  fits_received := h.fits_received
  cut := h.cut

lemma Sound.receive (h : Sound k l) (hl : l.receive k = some (body, l')) : Sound k l' := by
  obtain ⟨hsent, hreceived, hflying, hcut, hpop⟩ := receive_eq_some hl
  obtain ⟨hfits, hheld⟩ := pop_eq_some_iff.mp hpop
  refine ⟨?_, hsent ▸ h.fits, ?_, hcut ▸ h.cut⟩
  · rw [hsent, hcut, h.eq, hreceived, hflying, hheld]
    simp
  · rw [hreceived]
    exact fun b hb => (List.mem_append.mp hb).elim (h.fits_received b) fun hb => by
      rwa [List.mem_singleton.mp hb]

/-- The bodies received, and those on the way. -/
lemma Sound.sent_eq (hk : 0 < k) (h : Sound k l) :
    l.sent = l.received ++ (drain k (l.held ++ l.flying)).1 := by
  have hcut := drain_cut hk (l.held ++ l.flying)
  have hall : Cut k (frames k l.sent ++ l.cut) (l.received ++ (drain k (l.held ++ l.flying)).1)
      (drain k (l.held ++ l.flying)).2 := by
    refine ⟨?_, ?_, hcut.rest⟩
    · rw [h.eq, frames_append, List.append_assoc, ← hcut.eq]
    · exact fun b hb => (List.mem_append.mp hb).elim (h.fits_received b) (hcut.fits b)
  exact (Cut.unique ⟨rfl, h.fits, h.cut⟩ hall).1

/-- **What is received is what was sent, in order.** -/
theorem Sound.prefix_sent (hk : 0 < k) (h : Sound k l) : l.received <+: l.sent := by
  rw [h.sent_eq hk]
  exact List.prefix_append _ _

/-- A body that is received is one less that is not. -/
lemma Sound.pending_receive (hk : 0 < k) (h : Sound k l) (hl : l.receive k = some (body, l')) :
    l'.sent.length - l'.received.length + 1 = l.sent.length - l.received.length := by
  have hle := ((h.receive hl).prefix_sent hk).length_le
  obtain ⟨hsent, hreceived, -, -, -⟩ := receive_eq_some hl
  rw [hreceived, hsent, List.length_append, List.length_singleton] at hle
  rw [hreceived, hsent, List.length_append, List.length_singleton]
  omega

/-- Of a stream that was not cut off, what has arrived and what is on the way
are the frames of the bodies that are not received yet. -/
lemma Sound.rest_eq (hk : 0 < k) (h : Sound k l) (hcut : l.cut = []) :
    l.held ++ l.flying = frames k (l.sent.drop l.received.length) := by
  obtain ⟨more, hmore⟩ := h.prefix_sent hk
  have heq := h.eq
  rw [hcut, List.append_nil, ← hmore, frames_append] at heq
  rw [← hmore, List.drop_left]
  exact (List.append_cancel_left heq).symm

/-- **Once everything has arrived, all that is not received can be.** -/
theorem Sound.received_eq (hk : 0 < k) (h : Sound k l) (hflying : l.flying = [])
    (hheld : l.receive k = none) : l.received = l.sent := by
  have hpop : pop k l.held = none := Option.map_eq_none_iff.mp hheld
  rw [h.sent_eq hk, hflying, List.append_nil, drain_none hk hpop, List.append_nil]

end Link

end Framing
