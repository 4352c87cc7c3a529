/-
A TCP flow to a resolver (`serveDNSTCP` of `gateway/internal/wg/forward.go`).

The flow's messages are answered one after the other.  A first message that is
no query hands the flow over: what was read is replayed to the real
destination, and the two sockets are spliced.

* `At`, `Flow`, `step`: where the flow stands, with what was asked and answered;
* `Flow.Serving`, `Flow.Handed`: the bytes of the client in either mode;
  `Flow.Sound`, `Flow.Sound.step`;
* `answered_in_order`: **a flow that is served gets the answers to its queries, in
  order**;
* `handed_unchanged`: **a flow that is handed over is relayed from its first byte
  on**.
-/
import CumulusVpn.Gateway.Splice
import CumulusVpn.Gateway.DnsLookups

namespace CumulusVpn.DnsTcp

open CopyLoop Framing Lookups Splice StepSystem

/-! ### The flow -/

/-- Where `serveDNSTCP` stands. -/
inductive At
  | reading
  | charging (query : Msg)
  | asking (query : Msg)
  | dialing (query : Msg)
  | replaying (query : Msg)
  | paying (resp : Msg)
  | writing (resp : Msg)
  | spliced
  | closed
deriving DecidableEq, Repr

/-- A flow to port 53 over TCP, with both of its directions. -/
structure Flow where
  pos : At
  first : Bool
  handed : Bool
  /-- from the client: the bytes that arrived, and those written to the host -/
  up : Stream
  down : Stream
  /-- the sockets, once they are spliced -/
  isOpen : Bool
  /-- the answers, as they were written -/
  answered : List UInt8
  asked : List Msg
  answers : List Msg
deriving DecidableEq, Repr

/-- A flow that has been accepted. -/
def Flow.new : Flow := ⟨.reading, true, false, .new, .new, true, [], [], []⟩

/-- What happens to a flow. -/
inductive Event
  | clientSends (bytes : List UInt8)
  | hostSends (bytes : List UInt8)
  /-- the two calls of `io.ReadFull`, which may time out -/
  | message (ok : Bool)
  /-- `lp.WaitN` -/
  | wait (ok : Bool)
  | exchange (o : Outcome)
  | dial (ok : Bool)
  /-- the write of what was read; it may fail after some bytes -/
  | replay (failed : Option Nat)
  /-- the write of an answer -/
  | write (failed : Option Nat)
  | up (e : CopyLoop.Event)
  | down (e : CopyLoop.Event)
deriving DecidableEq, Repr

/-- A pipe whose reader paid for `n` bytes. -/
def pay (p : Stream) (n : Nat) : Stream := { p with charged := p.charged + n }

/-- The direction with these bytes counted. -/
def count (p : Stream) (n : Nat) : Stream := { p with counted := p.counted + n }

/-- What follows `Exchange`. -/
def serve (s : Flow) (query : Msg) : Outcome → Flow
  | .encrypted resp | .plain resp =>
      { s with pos := .paying resp, asked := s.asked ++ [query], answers := s.answers ++ [resp] }
  | .notDNS =>
      if s.first then { s with pos := .dialing query, handed := true, asked := s.asked ++ [query] }
      else { s with pos := .closed, asked := s.asked ++ [query] }
  | .busy | .failed | .notHandled => { s with pos := .closed, asked := s.asked ++ [query] }

/-- A step of the flow; `Exchange` returns what suits the query. -/
def step (lib : Library) (s : Flow) : Event → Option Flow
  | .clientSends bytes => some { s with up := s.up.arrive bytes }
  | .hostSends bytes =>
      if s.pos = .spliced then some { s with down := s.down.arrive bytes } else none
  | .message ok =>
      match s.pos, ok with
      | .reading, false => some { s with pos := .closed }
      | .reading, true => (pop 2 s.up.inbox).map fun read =>
          { s with up := { s.up with inbox := read.2 }, pos := .charging read.1 }
      | _, _ => none
  | .wait ok =>
      match s.pos, ok with
      | .charging query, true =>
          let n := 2 + query.length
          some { s with up := count (pay s.up n) n, pos := .asking query }
      | .paying resp, true =>
          some { s with down := pay s.down (2 + resp.length), pos := .writing resp }
      | .charging _, false | .paying _, false => some { s with pos := .closed }
      | _, _ => none
  | .exchange o =>
      match s.pos with
      | .asking query => if o.Suits lib query then some (serve s query o) else none
      | _ => none
  | .dial ok =>
      match s.pos with
      | .dialing query => some { s with pos := if ok then .replaying query else .closed }
      | _ => none
  | .replay failed =>
      match s.pos, failed with
      | .replaying query, none =>
          some { s with up := { s.up with written := frame 2 query }, pos := .spliced }
      | .replaying query, some n =>
          if n < (frame 2 query).length then
            some { s with up := { s.up with written := (frame 2 query).take n }, pos := .closed }
          else none
      | _, _ => none
  | .write failed =>
      match s.pos, failed with
      | .writing resp, none =>
          some { s with
            answered := s.answered ++ frame 2 resp
            down := count s.down (2 + resp.length)
            first := false
            pos := .reading }
      | .writing resp, some n =>
          if n < (frame 2 resp).length then
            some { s with answered := s.answered ++ (frame 2 resp).take n, pos := .closed }
          else none
      | _, _ => none
  | .up e =>
      if s.pos = .spliced then
        (rateCopy s.isOpen s.up e).map fun up =>
          { s with up := up, isOpen := s.isOpen && up.pump.runs }
      else none
  | .down e =>
      if s.pos = .spliced then
        (rateCopy s.isOpen s.down e).map fun down =>
          { s with down := down, isOpen := s.isOpen && down.pump.runs }
      else none

/-! ### What a step can do -/

/-- **Every step of the flow.** -/
inductive Moves (lib : Library) (s : Flow) : Flow → Prop
  | clientSent (bytes : List UInt8) : Moves lib s { s with up := s.up.arrive bytes }
  | hostSent (bytes : List UInt8) (h : s.pos = .spliced) :
      Moves lib s { s with down := s.down.arrive bytes }
  | read {query : Msg} {rest : List UInt8} (h : s.pos = .reading)
      (hpop : pop 2 s.up.inbox = some (query, rest)) :
      Moves lib s { s with up := { s.up with inbox := rest }, pos := .charging query }
  | charged {query : Msg} (h : s.pos = .charging query) :
      Moves lib s
        { s with
          up := count (pay s.up (2 + query.length)) (2 + query.length), pos := .asking query }
  | answered {query resp : Msg} (h : s.pos = .asking query) (hquery : isQuery lib query = true)
      (hresp : Answers query resp) :
      Moves lib s
        { s with pos := .paying resp, asked := s.asked ++ [query], answers := s.answers ++ [resp] }
  | handed {query : Msg} (h : s.pos = .asking query) (hquery : isQuery lib query = false)
      (hfirst : s.first = true) :
      Moves lib s { s with pos := .dialing query, handed := true, asked := s.asked ++ [query] }
  | unanswered {query : Msg} (h : s.pos = .asking query) :
      Moves lib s { s with pos := .closed, asked := s.asked ++ [query] }
  | paid {resp : Msg} (h : s.pos = .paying resp) :
      Moves lib s { s with down := pay s.down (2 + resp.length), pos := .writing resp }
  | wrote {resp : Msg} (h : s.pos = .writing resp) :
      Moves lib s
        { s with
          answered := s.answered ++ frame 2 resp
          down := count s.down (2 + resp.length)
          first := false
          pos := .reading }
  | wroteSome {resp : Msg} (h : s.pos = .writing resp) (n : Nat) :
      Moves lib s { s with answered := s.answered ++ (frame 2 resp).take n, pos := .closed }
  | dialed {query : Msg} (h : s.pos = .dialing query) :
      Moves lib s { s with pos := .replaying query }
  | replayed {query : Msg} (h : s.pos = .replaying query) :
      Moves lib s { s with up := { s.up with written := frame 2 query }, pos := .spliced }
  | replayedSome {query : Msg} (h : s.pos = .replaying query) (n : Nat) :
      Moves lib s { s with up := { s.up with written := (frame 2 query).take n }, pos := .closed }
  | closed (h : s.pos ≠ .spliced) : Moves lib s { s with pos := .closed }
  | copiedUp {up : Stream} (isOpen : Bool) (h : s.pos = .spliced) (hcopy : Copied s.up up) :
      Moves lib s { s with up := up, isOpen := isOpen }
  | copiedDown {down : Stream} (isOpen : Bool) (h : s.pos = .spliced) (hcopy : Copied s.down down) :
      Moves lib s { s with down := down, isOpen := isOpen }

section Moves

variable {lib : Library} {s s' : Flow} {e : Event}

lemma serve_moves {query : Msg} {o : Outcome} (h : s.pos = .asking query)
    (hsuits : o.Suits lib query) : Moves lib s (serve s query o) := by
  cases o with
  | encrypted resp => exact .answered h hsuits.1 hsuits.2
  | plain resp => exact .answered h hsuits.1 hsuits.2
  | notDNS =>
      rw [serve]
      split
      · exact .handed h hsuits ‹_›
      · exact .unanswered h
  | busy => exact .unanswered h
  | failed => exact .unanswered h
  | notHandled => exact .unanswered h

theorem step_moves (h : step lib s e = some s') : Moves lib s s' := by
  unfold step at h
  split at h
  · cases h
    exact .clientSent _
  · split at h <;> cases h
    exact .hostSent _ ‹_›
  · split at h
    · cases h
      exact .closed (by simp [*])
    · obtain ⟨⟨query, rest⟩, hpop, rfl⟩ := Option.map_eq_some_iff.mp h
      exact .read ‹_› hpop
    · cases h
  · split at h <;> cases h
    · exact .charged ‹_›
    · exact .paid ‹_›
    · exact .closed (by simp [*])
    · exact .closed (by simp [*])
  · split at h
    · split at h <;> cases h
      exact serve_moves ‹_› ‹_›
    · cases h
  · split at h
    · rename_i ok _ query hpos
      cases h
      cases ok with
      | true => exact .dialed hpos
      | false => exact .closed (by simp [hpos])
    · cases h
  · split at h
    · cases h
      exact .replayed ‹_›
    · split at h <;> cases h
      exact .replayedSome ‹_› _
    · cases h
  · split at h
    · cases h
      exact .wrote ‹_›
    · split at h <;> cases h
      exact .wroteSome ‹_› _
    · cases h
  · split at h
    · obtain ⟨up, hcopy, rfl⟩ := Option.map_eq_some_iff.mp h
      exact .copiedUp _ ‹_› (rateCopy_copied hcopy)
    · cases h
  · split at h
    · obtain ⟨down, hcopy, rfl⟩ := Option.map_eq_some_iff.mp h
      exact .copiedDown _ ‹_› (rateCopy_copied hcopy)
    · cases h

end Moves

/-! ### A flow that is served -/

namespace At

/-- The query that is read, and not yet asked. -/
def hand : At → List Msg
  | charging query | asking query => [query]
  | reading | dialing _ | replaying _ | paying _ | writing _ | spliced | closed => []

/-- The query that is paid, and not yet asked. -/
def paid : At → List Msg
  | asking query => [query]
  | reading | charging _ | dialing _ | replaying _ | paying _ | writing _ | spliced | closed => []

/-- The answer that is not yet written. -/
def unwritten : At → List Msg
  | paying resp | writing resp => [resp]
  | reading | charging _ | asking _ | dialing _ | replaying _ | spliced | closed => []

/-- What of it is paid. -/
def due : At → Nat
  | writing resp => 2 + resp.length
  | reading | charging _ | asking _ | dialing _ | replaying _ | paying _ | spliced | closed => 0

/-- The flow is not handed over. -/
def serves : At → Bool
  | dialing _ | replaying _ | spliced => false
  | _ => true

end At

/-- The bytes of both directions, while the flow is served. -/
structure Serving (lib : Library) (s : Flow) : Prop where
  serves : s.pos.serves = true
  fits : ∀ query ∈ s.asked ++ s.pos.hand, Fits 2 query
  asked : frames 2 (s.asked ++ s.pos.hand) <+: s.up.arrived
  inbox : s.pos ≠ .closed → s.up.arrived = frames 2 (s.asked ++ s.pos.hand) ++ s.up.inbox
  answered : s.answered <+: frames 2 s.answers
  written : s.pos ≠ .closed → s.answered ++ frames 2 s.pos.unwritten = frames 2 s.answers
  even : s.pos ≠ .closed → s.answers.length = s.asked.length
  first : s.first = true → s.pos.unwritten = [] → s.pos ≠ .closed → s.asked = []
  matched : ∀ (i : Nat) (resp : Msg), s.answers[i]? = some resp →
    ∃ query, s.asked[i]? = some query ∧ isQuery lib query = true ∧ Answers query resp
  idle : s.up.written = [] ∧ s.up.pump = .reading ∧ s.down.written = [] ∧ s.down.inbox = [] ∧
    s.down.arrived = [] ∧ s.down.pump = .reading
  queries : s.pos ≠ .closed → s.up.charged = (frames 2 (s.asked ++ s.pos.paid)).length
  counted : s.up.counted = s.up.charged
  replies : s.answered.length + s.pos.due ≤ s.down.charged ∧
    s.down.counted + s.pos.due ≤ s.down.charged

lemma frames_singleton (body : List UInt8) : frames 2 [body] = frame 2 body := by simp

section Serving

variable {lib : Library} {s s' : Flow}

lemma Serving.new : Serving lib .new where
  serves := rfl
  fits := by simp [Flow.new, At.hand]
  asked := List.nil_prefix
  inbox := fun _ => rfl
  answered := List.nil_prefix
  written := fun _ => rfl
  even := fun _ => rfl
  first := fun _ _ _ => rfl
  matched := by simp [Flow.new]
  idle := ⟨rfl, rfl, rfl, rfl, rfl, rfl⟩
  queries := fun _ => rfl
  counted := rfl
  replies := ⟨Nat.le_refl _, Nat.le_refl _⟩

/-- The flow is closed, and what was asked and answered stays. -/
lemma Serving.close (h : Serving lib s) : Serving lib { s with pos := .closed } where
  serves := rfl
  fits := fun query hq => h.fits query (List.mem_append_left _ (by simpa [At.hand] using hq))
  asked := by
    refine List.IsPrefix.trans ?_ h.asked
    simp [At.hand]
  inbox := fun hne => absurd rfl hne
  answered := h.answered
  written := fun hne => absurd rfl hne
  even := fun hne => absurd rfl hne
  first := fun _ _ hne => absurd rfl hne
  matched := h.matched
  idle := h.idle
  queries := fun hne => absurd rfl hne
  counted := h.counted
  replies := by
    obtain ⟨hanswered, hcounted⟩ := h.replies
    exact ⟨by simp only [At.due]; omega, by simp only [At.due]; omega⟩

lemma Serving.arrive (h : Serving lib s) (bytes : List UInt8) :
    Serving lib { s with up := s.up.arrive bytes } where
  serves := h.serves
  fits := h.fits
  asked := h.asked.trans (List.prefix_append _ _)
  inbox := fun hne => by
    show s.up.arrived ++ bytes = _ ++ (s.up.inbox ++ bytes)
    rw [h.inbox hne, List.append_assoc]
  answered := h.answered
  written := h.written
  even := h.even
  first := h.first
  matched := h.matched
  idle := h.idle
  queries := h.queries
  counted := h.counted
  replies := h.replies

lemma Serving.read (h : Serving lib s) {query : Msg} {rest : List UInt8} (hpos : s.pos = .reading)
    (hpop : pop 2 s.up.inbox = some (query, rest)) :
    Serving lib { s with up := { s.up with inbox := rest }, pos := .charging query } := by
  obtain ⟨hfits, hinbox⟩ := pop_eq_some_iff.mp hpop
  obtain ⟨-, hall, hasked, harrived, hanswered, hwritten, heven, hfirst, hmatched, hidle, hqueries,
    hcounted, hreplies⟩ := h
  rw [hpos] at hall hasked harrived hwritten heven hfirst hqueries hreplies
  have hnow : s.up.arrived = frames 2 (s.asked ++ [query]) ++ rest := by
    rw [harrived (by simp), hinbox, At.hand, List.append_nil, frames_append, frames_singleton,
      List.append_assoc]
  refine ⟨rfl, ?_, ?_, fun _ => hnow, hanswered, fun _ => hwritten (by simp),
    fun _ => heven (by simp), fun hf _ _ => hfirst hf rfl (by simp), hmatched, hidle,
    fun _ => hqueries (by simp), hcounted, hreplies⟩
  · refine List.forall_mem_append.mpr ⟨fun q hq => hall q (List.mem_append_left _ hq),
      fun q hq => ?_⟩
    rwa [List.mem_singleton.mp hq]
  · show frames 2 (s.asked ++ [query]) <+: s.up.arrived
    rw [hnow]
    exact List.prefix_append _ _

lemma Serving.charge (h : Serving lib s) {query : Msg} (hpos : s.pos = .charging query) :
    Serving lib
      { s with
        up := count (pay s.up (2 + query.length)) (2 + query.length), pos := .asking query } := by
  obtain ⟨-, hall, hasked, harrived, hanswered, hwritten, heven, hfirst, hmatched, hidle, hqueries,
    hcounted, hreplies⟩ := h
  rw [hpos] at hall hasked harrived hwritten heven hfirst hqueries hreplies
  refine ⟨rfl, hall, hasked, fun _ => harrived (by simp), hanswered, fun _ => hwritten (by simp),
    fun _ => heven (by simp), fun hf _ _ => hfirst hf rfl (by simp), hmatched, hidle, fun _ => ?_,
    ?_, hreplies⟩
  · have hbefore : s.up.charged = (frames 2 s.asked).length := by
      rw [hqueries (by simp), At.paid, List.append_nil]
    show s.up.charged + (2 + query.length) = (frames 2 (s.asked ++ [query])).length
    rw [hbefore, frames_append, frames_singleton, List.length_append, length_frame]
  · show s.up.counted + (2 + query.length) = s.up.charged + (2 + query.length)
    rw [hcounted]

lemma Serving.answer (h : Serving lib s) {query resp : Msg} (hpos : s.pos = .asking query)
    (hquery : isQuery lib query = true) (hresp : Answers query resp) :
    Serving lib
      { s with
        pos := .paying resp, asked := s.asked ++ [query], answers := s.answers ++ [resp] } := by
  obtain ⟨-, hall, hasked, harrived, hanswered, hwritten, heven, hfirst, hmatched, hidle, hqueries,
    hcounted, hreplies⟩ := h
  rw [hpos] at hall hasked harrived hwritten heven hqueries hreplies
  have hlength := heven (by simp)
  have hbefore : s.answered = frames 2 s.answers := by
    have hw := hwritten (by simp)
    rwa [At.unwritten, frames_nil, List.append_nil] at hw
  refine ⟨rfl, by simpa [At.hand] using hall, by simpa [At.hand] using hasked, fun _ => ?_, ?_,
    fun _ => ?_, fun _ => ?_, fun _ hno => (by cases hno), ?_, hidle, fun _ => ?_, hcounted,
    hreplies⟩
  · have harr := harrived (by simp)
    simpa [At.hand] using harr
  · rw [frames_append]
    exact hanswered.trans (List.prefix_append _ _)
  · show s.answered ++ frames 2 [resp] = frames 2 (s.answers ++ [resp])
    rw [hbefore, frames_append]
  · show (s.answers ++ [resp]).length = (s.asked ++ [query]).length
    rw [List.length_append, List.length_append, hlength]
    rfl
  · intro i r hr
    rcases Nat.lt_trichotomy i s.answers.length with hlt | rfl | hgt
    · rw [List.getElem?_append_left hlt] at hr
      obtain ⟨q, hq, hmatch⟩ := hmatched i r hr
      exact ⟨q, by rw [List.getElem?_append_left (by omega)]; exact hq, hmatch⟩
    · rw [List.getElem?_append_right (Nat.le_refl _), Nat.sub_self] at hr
      obtain rfl := Option.some.inj hr
      refine ⟨query, ?_, hquery, hresp⟩
      rw [hlength, List.getElem?_append_right (Nat.le_refl _), Nat.sub_self]
      rfl
    · rw [List.getElem?_eq_none
        (by rw [List.length_append, List.length_singleton]; exact hgt)] at hr
      cases hr
  · have hq := hqueries (by simp)
    simpa [At.paid] using hq

lemma Serving.unanswer (h : Serving lib s) {query : Msg} (hpos : s.pos = .asking query) :
    Serving lib { s with pos := .closed, asked := s.asked ++ [query] } := by
  obtain ⟨-, hall, hasked, -, hanswered, -, -, -, hmatched, hidle, -, hcounted, hreplies⟩ := h
  rw [hpos] at hall hasked hreplies
  refine ⟨rfl, by simpa [At.hand] using hall, by simpa [At.hand] using hasked,
    fun hne => absurd rfl hne, hanswered, fun hne => absurd rfl hne, fun hne => absurd rfl hne,
    fun _ _ hne => absurd rfl hne, ?_, hidle, fun hne => absurd rfl hne, hcounted, hreplies⟩
  intro i r hr
  obtain ⟨q, hq, hmatch⟩ := hmatched i r hr
  refine ⟨q, ?_, hmatch⟩
  rw [List.getElem?_append_left (List.getElem?_eq_some_iff.mp hq).1]
  exact hq

lemma Serving.pay (h : Serving lib s) {resp : Msg} (hpos : s.pos = .paying resp) :
    Serving lib { s with down := DnsTcp.pay s.down (2 + resp.length), pos := .writing resp } := by
  obtain ⟨-, hall, hasked, harrived, hanswered, hwritten, heven, hfirst, hmatched, hidle, hqueries,
    hcounted, hreplies⟩ := h
  rw [hpos] at hall hasked harrived hwritten heven hqueries hreplies
  obtain ⟨hsent, hcount⟩ := hreplies
  refine ⟨rfl, hall, hasked, fun _ => harrived (by simp), hanswered, fun _ => hwritten (by simp),
    fun _ => heven (by simp), fun _ hno => (by cases hno), hmatched, hidle,
    fun _ => hqueries (by simp), hcounted, ?_, ?_⟩
  · show s.answered.length + (2 + resp.length) ≤ s.down.charged + (2 + resp.length)
    exact Nat.add_le_add_right hsent _
  · show s.down.counted + (2 + resp.length) ≤ s.down.charged + (2 + resp.length)
    exact Nat.add_le_add_right hcount _

lemma Serving.write (h : Serving lib s) {resp : Msg} (hpos : s.pos = .writing resp) :
    Serving lib
      { s with
        answered := s.answered ++ frame 2 resp
        down := count s.down (2 + resp.length)
        first := false
        pos := .reading } := by
  obtain ⟨-, hall, hasked, harrived, -, hwritten, heven, -, hmatched, hidle, hqueries, hcounted,
    hsent, hcount⟩ := h
  rw [hpos] at hall hasked harrived hwritten heven hqueries hsent hcount
  have hall' : s.answered ++ frame 2 resp = frames 2 s.answers := by
    have hw := hwritten (by simp)
    rwa [At.unwritten, frames_singleton] at hw
  refine ⟨rfl, hall, hasked, fun _ => harrived (by simp), ?_, fun _ => ?_, fun _ => heven (by simp),
    fun hno => (by cases hno), hmatched, hidle, fun _ => hqueries (by simp), hcounted, ?_, ?_⟩
  · rw [hall']
  · show s.answered ++ frame 2 resp ++ frames 2 [] = _
    rw [frames_nil, List.append_nil, hall']
  · show (s.answered ++ frame 2 resp).length + 0 ≤ s.down.charged
    rw [List.length_append, length_frame]
    exact hsent
  · show s.down.counted + (2 + resp.length) + 0 ≤ s.down.charged
    exact hcount

lemma Serving.writeSome (h : Serving lib s) {resp : Msg} (hpos : s.pos = .writing resp) (n : Nat) :
    Serving lib { s with answered := s.answered ++ (frame 2 resp).take n, pos := .closed } := by
  obtain ⟨-, hall, hasked, -, -, hwritten, -, -, hmatched, hidle, -, hcounted, hsent, hcount⟩ := h
  rw [hpos] at hall hasked hwritten hsent hcount
  refine ⟨rfl, hall, hasked, fun hne => absurd rfl hne, ?_, fun hne => absurd rfl hne,
    fun hne => absurd rfl hne, fun _ _ hne => absurd rfl hne, hmatched, hidle,
    fun hne => absurd rfl hne, hcounted, ?_, ?_⟩
  · have hw := hwritten (by simp)
    rw [At.unwritten, frames_singleton] at hw
    rw [← hw]
    exact (List.prefix_append_right_inj _).mpr (List.take_prefix n _)
  · have hlength := length_frame 2 resp
    show (s.answered ++ (frame 2 resp).take n).length + 0 ≤ s.down.charged
    rw [List.length_append, List.length_take]
    have hsent' : s.answered.length + (2 + resp.length) ≤ s.down.charged := hsent
    omega
  · have hcount' : s.down.counted + (2 + resp.length) ≤ s.down.charged := hcount
    show s.down.counted + 0 ≤ s.down.charged
    omega

end Serving

/-! ### A flow that is handed over -/

/-- The bytes of both directions, from the first byte on. -/
structure Handed (lib : Library) (s : Flow) : Prop where
  asked : ∃ query, s.asked = [query] ∧ isQuery lib query = false ∧
    match s.pos with
    | .dialing q | .replaying q =>
        q = query ∧ s.up.arrived = frame 2 query ++ s.up.inbox ∧ s.up.pump = .reading ∧
          s.up.written = [] ∧ s.up.charged = (frame 2 query).length
    | .spliced => Faithful s.up
    | .closed => True
    | _ => False
  unanswered : s.answers = [] ∧ s.answered = []
  written : s.up.written <+: s.up.arrived
  paid : s.up.written.length ≤ s.up.charged
  counted : s.up.counted ≤ s.up.charged
  down : Faithful s.down

section Handed

variable {lib : Library} {s s' : Flow}

/-- The first message is no query. -/
lemma Serving.hand (h : Serving lib s) {query : Msg} (hpos : s.pos = .asking query)
    (hquery : isQuery lib query = false) (hfirst : s.first = true) :
    Handed lib { s with pos := .dialing query, handed := true, asked := s.asked ++ [query] } := by
  obtain ⟨-, -, -, harrived, hanswered, -, heven, hnone, -, hidle, hqueries, hcounted, hsent,
    hcount⟩ := h
  rw [hpos] at harrived heven hnone hqueries hsent hcount
  have hasked : s.asked = [] := hnone hfirst rfl (by simp)
  have hanswers : s.answers = [] := by
    have heq := heven (by simp)
    rw [hasked] at heq
    exact List.length_eq_zero_iff.mp heq
  obtain ⟨hwritten, hpump, hdown, hdinbox, hdarrived, hdpump⟩ := hidle
  have harr := harrived (by simp)
  have hcharged := hqueries (by simp)
  rw [hasked, List.nil_append, At.hand, frames_singleton] at harr
  rw [hasked, List.nil_append, At.paid, frames_singleton] at hcharged
  refine ⟨⟨query, by simp [hasked], hquery, rfl, harr, hpump, hwritten, hcharged⟩, ⟨hanswers, ?_⟩,
    ?_, ?_, le_of_eq hcounted, ?_⟩
  · rw [hanswers, frames_nil] at hanswered
    exact List.prefix_nil.mp hanswered
  · show s.up.written <+: s.up.arrived
    rw [hwritten]
    exact List.nil_prefix
  · show s.up.written.length ≤ s.up.charged
    rw [hwritten]
    exact Nat.zero_le _
  · have hc : s.down.counted ≤ s.down.charged := hcount
    refine ⟨fun _ => ?_, ?_, ?_, ?_, ?_⟩ <;> simp [hdown, hdinbox, hdarrived, hdpump, Pump.hand,
      Pump.paid, hc]

lemma Handed.step (h : Handed lib s) (hs : Moves lib s s') : Handed lib s' := by
  obtain ⟨⟨query, hasked, hquery, hat⟩, hnone, hwritten, hpaid, hcounted, hdown⟩ := h
  cases hs with
  | clientSent bytes =>
      refine ⟨⟨query, hasked, hquery, ?_⟩, hnone, hwritten.trans (List.prefix_append _ _), hpaid,
        hcounted, hdown⟩
      cases hpos : s.pos with
      | dialing q | replaying q =>
          rw [hpos] at hat
          obtain ⟨rfl, harrived, hpump, hnothing, hcharged⟩ := hat
          refine ⟨rfl, ?_, hpump, hnothing, hcharged⟩
          show s.up.arrived ++ bytes = frame 2 q ++ (s.up.inbox ++ bytes)
          rw [harrived, List.append_assoc]
      | spliced =>
          rw [hpos] at hat
          exact hat.arrive bytes
      | closed => trivial
      | _ =>
          rw [hpos] at hat
          exact hat
  | hostSent bytes hpos => exact ⟨⟨query, hasked, hquery, hat⟩, hnone, hwritten, hpaid, hcounted,
      hdown.arrive bytes⟩
  | dialed hpos =>
      rw [hpos] at hat
      exact ⟨⟨query, hasked, hquery, hat⟩, hnone, hwritten, hpaid, hcounted, hdown⟩
  | @replayed q hpos =>
      rw [hpos] at hat
      obtain ⟨rfl, harrived, hpump, -, hcharged⟩ := hat
      have hprefix : frame 2 q <+: s.up.arrived := by
        rw [harrived]
        exact List.prefix_append _ _
      have hsound : Faithful { s.up with written := frame 2 q } := by
        refine ⟨fun _ => ?_, ?_, ?_, ?_, ?_⟩
        · rw [hpump, Pump.hand, List.nil_append, kept_one, kept_one, harrived]
        · rwa [kept_one]
        · rw [hpump, Pump.paid, weight_one, hcharged]
          exact Nat.le_refl _
        · rw [hpump, Pump.paid]
          exact hcounted
        · rw [hpump]
          exact Nat.zero_le _
      exact ⟨⟨q, hasked, hquery, hsound⟩, hnone, hprefix, le_of_eq hcharged.symm, hcounted, hdown⟩
  | @replayedSome q hpos n =>
      rw [hpos] at hat
      obtain ⟨rfl, harrived, -, -, hcharged⟩ := hat
      refine ⟨⟨q, hasked, hquery, trivial⟩, hnone, ?_, ?_, hcounted, hdown⟩
      · show (frame 2 q).take n <+: s.up.arrived
        rw [harrived]
        exact (List.take_prefix n _).trans (List.prefix_append _ _)
      · show ((frame 2 q).take n).length ≤ s.up.charged
        rw [hcharged, List.length_take]
        exact min_le_right _ _
  | closed _ => exact ⟨⟨query, hasked, hquery, trivial⟩, hnone, hwritten, hpaid, hcounted, hdown⟩
  | @copiedUp up isOpen hpos hcopy =>
      rw [hpos] at hat
      have hup : Faithful up := hat.step hcopy
      refine ⟨⟨query, hasked, hquery, ?_⟩, hnone, hup.prefix_arrived, hup.length_written_le,
        hup.counted_le, hdown⟩
      rw [hpos]
      exact hup
  | copiedDown isOpen hpos hcopy =>
      exact ⟨⟨query, hasked, hquery, hat⟩, hnone, hwritten, hpaid, hcounted, hdown.step hcopy⟩
  | read hpos _ | charged hpos | answered hpos _ _ | handed hpos _ _ | unanswered hpos | paid hpos
  | wrote hpos | wroteSome hpos _ =>
      rw [hpos] at hat
      exact hat.elim

end Handed

/-! ### Whole runs -/

/-- The flow is served, or it is handed over. -/
def Flow.Sound (lib : Library) (s : Flow) : Prop :=
  if s.handed then Handed lib s else Serving lib s

section Run

variable {lib : Library} {s s' : Flow} {e : Event}

lemma Flow.Sound.step (h : Flow.Sound lib s) (hs : Moves lib s s') : Flow.Sound lib s' := by
  unfold Flow.Sound at h ⊢
  split at h
  · rename_i hhanded
    have hstays : s'.handed = true := by cases hs <;> first | exact hhanded | rfl
    rw [if_pos hstays]
    exact h.step hs
  · rename_i hserved
    -- a flow that is served has no host
    have hhere : ∀ {p : At}, p.serves = false → s.pos = p → Serving lib s' := fun hp hpos => by
      have hserves := h.serves
      rw [hpos, hp] at hserves
      cases hserves
    cases hs with
    | clientSent bytes => rw [if_neg hserved]; exact h.arrive bytes
    | hostSent bytes hpos => rw [if_neg hserved]; exact hhere rfl hpos
    | read hpos hpop => rw [if_neg hserved]; exact h.read hpos hpop
    | charged hpos => rw [if_neg hserved]; exact h.charge hpos
    | answered hpos hquery hresp => rw [if_neg hserved]; exact h.answer hpos hquery hresp
    | handed hpos hquery hfirst => exact h.hand hpos hquery hfirst
    | unanswered hpos => rw [if_neg hserved]; exact h.unanswer hpos
    | paid hpos => rw [if_neg hserved]; exact h.pay hpos
    | wrote hpos => rw [if_neg hserved]; exact h.write hpos
    | wroteSome hpos n => rw [if_neg hserved]; exact h.writeSome hpos n
    | dialed hpos => rw [if_neg hserved]; exact hhere rfl hpos
    | replayed hpos => rw [if_neg hserved]; exact hhere rfl hpos
    | replayedSome hpos n => rw [if_neg hserved]; exact hhere rfl hpos
    | closed _ => rw [if_neg hserved]; exact h.close
    | copiedUp isOpen hpos hcopy => rw [if_neg hserved]; exact hhere rfl hpos
    | copiedDown isOpen hpos hcopy => rw [if_neg hserved]; exact hhere rfl hpos

lemma sound_of_reachable (h : Reachable (step lib) .new s) : Flow.Sound lib s :=
  h.induction Serving.new fun _ _ _ hs hstep => hs.step (step_moves hstep)

/-- What was asked is paid for. -/
def Flow.Prepaid (s : Flow) : Prop :=
  s.handed = false → (frames 2 (s.asked ++ s.pos.paid)).length ≤ s.up.charged

lemma Flow.Prepaid.step (h : s.Prepaid) (hsound : Flow.Sound lib s) (hs : Moves lib s s') :
    s'.Prepaid := by
  intro hserved
  have hsound' := hsound.step hs
  rw [Flow.Sound, if_neg (by simp [hserved])] at hsound'
  by_cases hclosed : s'.pos = .closed
  · have hbefore : s.handed = false := by cases hs <;> first | exact hserved | cases hserved
    have hpaid := h hbefore
    have hasked : (frames 2 s.asked).length ≤ s.up.charged := by
      rw [frames_append, List.length_append] at hpaid
      omega
    cases hs with
    | clientSent bytes => exact hpaid
    | unanswered hpos => simpa [hpos, At.paid] using hpaid
    | wroteSome | replayedSome | closed => simpa [At.paid] using hasked
    | hostSent _ hpos | copiedUp _ hpos _ | copiedDown _ hpos _ =>
        have hspliced : s.pos = .closed := hclosed
        rw [hpos] at hspliced
        cases hspliced
    | _ => cases hclosed
  · exact le_of_eq (hsound'.queries hclosed).symm

lemma prepaid_of_reachable (h : Reachable (step lib) .new s) : s.Prepaid := by
  have hboth : Flow.Sound lib s ∧ s.Prepaid :=
    h.induction (I := fun s => Flow.Sound lib s ∧ s.Prepaid) ⟨Serving.new, fun _ => Nat.le_refl _⟩
      fun _ _ _ hs hstep => ⟨hs.1.step (step_moves hstep), hs.2.step hs.1 (step_moves hstep)⟩
  exact hboth.2

/-- **A flow that is served gets the answers to its queries, in order**: what the
client makes of the bytes are answers, each to the query at its place; nothing
reaches the host, and every byte is paid for before it is asked or answered. -/
theorem answered_in_order (h : Reachable (step lib) .new s) (hserved : s.handed = false) :
    (frames 2 s.asked <+: s.up.arrived ∧ s.up.written = [] ∧ s.answered <+: frames 2 s.answers) ∧
      (drain 2 s.answered).1 <+: s.answers ∧
      (∀ (i : ℕ) (resp : Msg), s.answers[i]? = some resp →
        ∃ query, s.asked[i]? = some query ∧ isQuery lib query = true ∧ Answers query resp) ∧
      ((frames 2 s.asked).length ≤ s.up.charged ∧ s.up.counted = s.up.charged ∧
        s.answered.length ≤ s.down.charged ∧ s.down.counted ≤ s.down.charged) ∧
      (s.pos = .reading → s.up.arrived = frames 2 s.asked ++ s.up.inbox ∧
        s.up.charged = (frames 2 s.asked).length ∧ (drain 2 s.answered).1 = s.answers ∧
        s.answers.length = s.asked.length) := by
  have hprepaid := prepaid_of_reachable h hserved
  have hs := sound_of_reachable h
  rw [Flow.Sound, if_neg (by simp [hserved])] at hs
  have hfits : ∀ resp ∈ s.answers, Fits 2 resp := by
    intro resp hresp
    obtain ⟨i, hi⟩ := List.mem_iff_getElem?.mp hresp
    obtain ⟨_, -, -, hanswers⟩ := hs.matched i resp hi
    exact Nat.lt_succ_of_le hanswers.fits
  have hdrained := drain_frames (by decide : 0 < 2) hfits
  refine ⟨⟨(List.prefix_append _ _).trans (frames_append 2 _ _ ▸ hs.asked), hs.idle.1, hs.answered⟩,
    ?_, hs.matched, ⟨?_, hs.counted, ?_, ?_⟩, fun hpos => ?_⟩
  · have hprefix := drain_prefix (by decide : 0 < 2) hs.answered
    rwa [hdrained] at hprefix
  · rw [frames_append, List.length_append] at hprepaid
    omega
  · exact (Nat.le_add_right _ _).trans hs.replies.1
  · exact (Nat.le_add_right _ _).trans hs.replies.2
  · obtain ⟨-, -, -, hinbox, -, hwritten, heven, -, -, -, hqueries, -, -⟩ := hs
    rw [hpos] at hinbox hwritten heven hqueries
    have hall : s.answered = frames 2 s.answers := by
      have hw := hwritten (by simp)
      rwa [At.unwritten, frames_nil, List.append_nil] at hw
    have harr := hinbox (by simp)
    have hcharged := hqueries (by simp)
    rw [At.hand, List.append_nil] at harr
    rw [At.paid, List.append_nil] at hcharged
    exact ⟨harr, hcharged, by rw [hall, hdrained], heven (by simp)⟩

/-- **A flow that is handed over is relayed from its first byte on**: its only
message is no query and has no answer; both sides get what the other one sent,
in order, and paid for; and all of it, while the direction runs. -/
theorem handed_unchanged (h : Reachable (step lib) .new s) (hhanded : s.handed = true) :
    (∃ query, s.asked = [query] ∧ isQuery lib query = false) ∧
      (s.answers = [] ∧ s.answered = []) ∧
      (s.up.written <+: s.up.arrived ∧ s.down.written <+: s.down.arrived) ∧
      (s.up.written.length ≤ s.up.charged ∧ s.down.written.length ≤ s.down.charged) ∧
      (s.up.counted ≤ s.up.charged ∧ s.down.counted ≤ s.down.charged) ∧
      (s.pos = .spliced → s.up.pump = .reading → s.up.inbox = [] → s.up.written = s.up.arrived) ∧
      (s.down.pump = .reading → s.down.inbox = [] → s.down.written = s.down.arrived) := by
  have hs := sound_of_reachable h
  rw [Flow.Sound, if_pos hhanded] at hs
  obtain ⟨⟨query, hasked, hquery, hat⟩, hnone, hwritten, hpaid, hcounted, hdown⟩ := hs
  refine ⟨⟨query, hasked, hquery⟩, hnone, ⟨hwritten, hdown.prefix_arrived⟩,
    ⟨hpaid, hdown.length_written_le⟩, ⟨hcounted, hdown.counted_le⟩, fun hpos => ?_,
    hdown.eq_arrived⟩
  rw [hpos] at hat
  exact Faithful.eq_arrived hat

end Run

/-! ### Two flows -/

/-- Two queries that arrive in two pieces, and their answers. -/
def twoQueries : List Event :=
  [.clientSends ((frame 2 (query 5) ++ frame 2 (query 6)).take 7),
    .clientSends ((frame 2 (query 5) ++ frame 2 (query 6)).drop 7),
    .message true, .wait true, .exchange (.encrypted (answer 5)), .wait true, .write none,
    .message true, .wait true, .exchange (.plain (answer 6)), .wait true, .write none]

theorem answered_in_order_twoQueries : ∃ s, exec (step headerOnly) .new twoQueries = some s ∧
    s.asked = [query 5, query 6] ∧ (drain 2 s.answered).1 = [answer 5, answer 6] := by
  obtain ⟨s, hexec, hserved, hpos, hasked, hanswers⟩ :
      ∃ s, exec (step headerOnly) .new twoQueries = some s ∧ s.handed = false ∧
        s.pos = .reading ∧ s.asked = [query 5, query 6] ∧ s.answers = [answer 5, answer 6] :=
    ⟨_, rfl, rfl, rfl, rfl, rfl⟩
  obtain ⟨-, -, -, -, hreading⟩ := answered_in_order ⟨_, hexec⟩ hserved
  exact ⟨s, hexec, hasked, (hreading hpos).2.2.1.trans hanswers⟩

/-- Two bytes that are no query, and the reply of the host. -/
def noQuery : List Event :=
  [.clientSends [0, 2, 72, 105, 33], .message true, .wait true, .exchange .notDNS, .dial true,
    .replay none, .up (.read 1 false), .up (.wait true), .up (.write none), .hostSends [79, 75],
    .down (.read 2 false), .down (.wait true), .down (.write none)]

theorem handed_unchanged_noQuery : ∃ s, exec (step headerOnly) .new noQuery = some s ∧
    s.up.written = [0, 2, 72, 105, 33] ∧ s.down.written = [79, 75] := by
  obtain ⟨s, hexec, hhanded, hpos, hup, hdown⟩ : ∃ s, exec (step headerOnly) .new noQuery = some s ∧
      s.handed = true ∧ s.pos = .spliced ∧
      (s.up.pump = .reading ∧ s.up.inbox = [] ∧ s.up.arrived = [0, 2, 72, 105, 33]) ∧
      (s.down.pump = .reading ∧ s.down.inbox = [] ∧ s.down.arrived = [79, 75]) :=
    ⟨_, rfl, rfl, rfl, ⟨rfl, rfl, rfl⟩, ⟨rfl, rfl, rfl⟩⟩
  obtain ⟨-, -, -, -, -, hwhole, hreply⟩ := handed_unchanged ⟨_, hexec⟩ hhanded
  exact ⟨s, hexec, (hwhole hpos hup.1 hup.2.1).trans hup.2.2,
    (hreply hdown.1 hdown.2.1).trans hdown.2.2⟩

end CumulusVpn.DnsTcp
