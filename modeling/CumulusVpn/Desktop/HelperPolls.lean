/-
Polls of the privileged helper, over all runs in which it goes on.

The connection that the app keeps may belong to a helper that was stopped, and
it may break at any moment of an exchange.  `request` then dials once more for a
call that only asks.

* `System.works`, `System.toGo`: a step of the call, of the thread that serves
  it or of the bytes between them, and how many of them are left;
* `toGo_step`: **every one of them leaves less to do**;
* `System.Polled.works_possible`: **one of them is possible until the call
  returns**;
* `Goes`: nothing breaks that the second exchange of a call needs;
* `System.Polled.step`: every such step keeps the call from failing;
* `poll_answered`: **a call that only asks is answered**, whatever happened
  before and whatever breaks on the first connection.
-/
import CumulusVpn.Desktop.HelperReplies

namespace CumulusVpn.Desktop.Helper

open Framing StepSystem

variable {env : Setting}

/-! ### What is left of a call -/

/-- The connection that a call uses. -/
def Phase.hand : Phase → Option Nat
  | .writing _ _ i _ | .reading _ _ i _ => some i
  | .idle | .dialling .. => none

/-- The connection of the second exchange of a call. -/
def Phase.again : Phase → Option Nat
  | .writing _ _ i true | .reading _ _ i true => some i
  | _ => none

/-- A step of the thread of a connection, or of its bytes, that gets on. -/
def Conn.works (c : Conn) : Event → Bool
  | .carryUp _ n => 0 < n ∧ c.up.flying ≠ []
  | .carryDown _ n => 0 < n ∧ c.down.flying ≠ []
  | .authenticate _ none | .receive _ | .dispatch _ _ | .respond _ none => true
  | _ => false

/-- A step of the call, or of the connection that it uses, that gets on. -/
def System.works (s : System) (e : Event) : Bool :=
  match e.conn, e with
  | some i, e => s.phase.hand = some i ∧ (s.conns[i]?).any fun c => c.works e
  | none, .dial _ | none, .write none | none, .read none => true
  | none, _ => false

/-- The size of the largest frame. -/
def largest : Nat := 4 + maxFrame

/-- How many steps are left to a thread, with the bytes that it may still
write. -/
def Server.toGo : Server → Nat
  | .accepted => largest + 2
  | .reading => 1
  | .serving _ => largest + 3
  | .replying _ => largest + 2
  | .ended => 0

/-- How many steps the wire and the helper have left for what a connection was
sent. -/
def Conn.toGo (c : Conn) : Nat :=
  c.up.flying.length + c.down.flying.length +
    (c.up.sent.length - c.up.received.length) * (largest + 3) + c.server.toGo

/-- What a write adds: its bytes, and a request for the thread. -/
def written : Nat := 2 * largest + 3

/-- How many steps are left to an exchange on a new connection, and to the
second exchange of a call. -/
def exchange : Nat := largest + written + 5

/-- What a second attempt takes, while there may be one. -/
def again (second : Bool) : Nat := if second then 0 else exchange

/-- How many steps are left to the call. -/
def System.toGo (s : System) : Nat :=
  match s.phase with
  | .idle => 0
  | .dialling _ _ second => exchange + again second
  | .writing _ _ i second => (s.conns[i]?).elim 0 Conn.toGo + written + 2 + again second
  | .reading _ _ i second => (s.conns[i]?).elim 0 Conn.toGo + 1 + again second

section ToGo

variable {s s' : System} {c c' : Conn} {e : Event}

lemma frame_le_largest {body : List UInt8} (h : body.length ≤ maxFrame) :
    (frame 4 body).length ≤ largest := by
  rw [length_frame, largest]
  omega

/-- A carry brings what is on the way closer, if there is anything. -/
lemma length_flying_carry (l : Link) (n : Nat) :
    (l.carry n).flying.length + (decide (0 < n ∧ l.flying ≠ [])).toNat ≤ l.flying.length := by
  have hlength : (l.carry n).flying.length = l.flying.length - n := List.length_drop
  rw [hlength]
  by_cases h : 0 < n ∧ l.flying ≠ []
  · have hpos := List.length_pos_iff.mpr h.2
    simp only [h, decide_true, Bool.toNat_true, ne_eq, not_false_eq_true, and_self]
    omega
  · simp [h]

/-- A frame that is sent puts at most the largest one on the way. -/
lemma length_flying_send {l : Link} {body : List UInt8} (h : body.length ≤ maxFrame) :
    (l.send 4 body).flying.length ≤ l.flying.length + largest := by
  have hsize := frame_le_largest h
  simp only [Link.send, List.length_append]
  omega

/-- So does a frame that is broken off. -/
lemma length_flying_breakOff {l : Link} {body : List UInt8} {n : Nat}
    (h : body.length ≤ maxFrame) :
    (l.breakOff 4 body n).flying.length ≤ l.flying.length + largest := by
  have hsize := frame_le_largest h
  simp only [Link.breakOff, List.length_append, List.length_take]
  omega

/-- A thread that answers has the bytes of its answer among the steps it has
left. -/
lemma Conn.toGo_answers {down : Link} {server : Server}
    (hflying : down.flying.length ≤ c.down.flying.length + largest)
    (hroom : server.toGo + largest + 1 ≤ c.server.toGo) :
    ({ c with down := down, server := server } : Conn).toGo + 1 ≤ c.toGo := by
  simp only [Conn.toGo]
  omega

/-- **A step of the thread, or of the bytes, leaves less to do.** -/
lemma Conn.Hears.toGo_serve (h : c.Hears env) (happ : c.app = true)
    (hs : c.serve env e = some c') : c'.toGo + (c.works e).toNat ≤ c.toGo := by
  cases e with
  | carryUp i n =>
      obtain rfl := Option.some.inj hs
      have hcarry := length_flying_carry c.up n
      simp only [Conn.toGo, Conn.works, Link.carry_sent, Link.carry_received]
      omega
  | carryDown i n =>
      obtain rfl := Option.some.inj hs
      have hcarry := length_flying_carry c.down n
      simp only [Conn.toGo, Conn.works]
      omega
  | authenticate i failed =>
      have hone : c'.toGo + 1 ≤ c.toGo := by
        simp only [Conn.serve] at hs
        split at hs
        · rename_i hserver _
          cases hs
          simp only [Conn.toGo, hserver, Server.toGo]
          omega
        · rename_i hserver _
          have hroom : Server.ended.toGo + largest + 1 ≤ c.server.toGo := by
            simp only [hserver, Server.toGo]
            omega
          split at hs
          · cases hs
            exact Conn.toGo_answers (Nat.le_add_right _ _) hroom
          · rename_i hw
            cases hs
            exact Conn.toGo_answers (length_flying_send (writeFrame_eq_ok hw).2) hroom
          · rename_i hw
            obtain ⟨rfl, hsize⟩ := writeFrame_eq_ok hw
            split at hs <;> cases hs
            exact Conn.toGo_answers (length_flying_breakOff hsize) hroom
        · cases hs
      exact (Nat.add_le_add_left (Bool.toNat_le _) _).trans hone
  | receive i =>
      simp only [Conn.serve] at hs
      split at hs
      · rename_i hserver
        split at hs
        · cases hs
          simp only [Conn.toGo, Conn.works, hserver, Server.toGo, Bool.toNat_true]
          omega
        · obtain ⟨⟨body, l⟩, hl, rfl⟩ := Option.map_eq_some_iff.mp hs
          have hpending := h.up.pending_receive (by omega) hl
          obtain ⟨-, -, hflying, -, -⟩ := Link.receive_eq_some hl
          simp only [Conn.toGo, Conn.works, hserver, Server.toGo, Bool.toNat_true, hflying,
            ← hpending, Nat.succ_mul]
          omega
        · cases hs
      · cases hs
  | dispatch i result =>
      simp only [Conn.serve] at hs
      split at hs
      · rename_i hserver
        cases hs
        simp only [Conn.toGo, Conn.works, hserver, Server.toGo, Bool.toNat_true]
        omega
      · cases hs
  | respond i failed =>
      have hone : c'.toGo + 1 ≤ c.toGo := by
        simp only [Conn.serve] at hs
        split at hs
        · rename_i hserver
          have hleft : c.server.toGo = largest + 2 := congrArg Server.toGo hserver
          have hroom : ∀ server : Server, server.toGo ≤ 1 →
              server.toGo + largest + 1 ≤ c.server.toGo := by
            intro server hone
            omega
          split at hs
          · cases hs
            exact Conn.toGo_answers (Nat.le_add_right _ _) (hroom _ (Nat.zero_le _))
          · rename_i hw
            cases hs
            exact Conn.toGo_answers (length_flying_send (writeFrame_eq_ok hw).2) (hroom _ le_rfl)
          · rename_i hw
            obtain ⟨rfl, hsize⟩ := writeFrame_eq_ok hw
            split at hs <;> cases hs
            exact Conn.toGo_answers (length_flying_breakOff hsize) (hroom _ (Nat.zero_le _))
        · cases hs
      exact (Nat.add_le_add_left (Bool.toNat_le _) _).trans hone
  | stop i =>
      obtain rfl := Option.some.inj hs
      simp only [Conn.toGo, Conn.works, Server.toGo, Bool.toNat_false]
      omega
  | inject i bytes => simp [Conn.serve, happ] at hs
  | _ => cases hs

/-- A step of the helper, of the bytes or of another peer. -/
lemma step_conn {i : Nat} (hi : e.conn = some i) (h : step env s e = some s') :
    ∃ c c', s.conns[i]? = some c ∧ c.serve env e = some c' ∧
      s' = { s with conns := s.conns.set i c' } := by
  have hbind : ((s.conns[i]?).bind fun c => (c.serve env e).map fun c' =>
      { s with conns := s.conns.set i c' }) = some s' := by
    cases e <;> cases hi <;> exact h
  obtain ⟨c, hc, hmap⟩ := Option.bind_eq_some_iff.mp hbind
  obtain ⟨c', hserve, rfl⟩ := Option.map_eq_some_iff.mp hmap
  exact ⟨c, c', hc, hserve, rfl⟩

/-- A step of the call, or another peer. -/
lemma step_client (hnone : e.conn = none) (h : step env s e = some s') :
    (∃ authorised, e = .intrude authorised ∧
      s' = { s with conns := s.conns ++ [.new false authorised] }) ∨
      s.client env e = some s' := by
  cases e with
  | call req => exact .inr h
  | dial found => exact .inr h
  | write failed => exact .inr h
  | read failed => exact .inr h
  | intrude authorised => exact .inl ⟨authorised, rfl, (Option.some.inj h).symm⟩
  | _ => cases hnone

/-- The connection of a call is one of the app's. -/
lemma System.Inv.app_of_hand (h : s.Inv env) {i : Nat} (hhand : s.phase.hand = some i)
    (hc : s.conns[i]? = some c) : c.app = true := by
  cases hphase : s.phase with
  | idle => simp [hphase, Phase.hand] at hhand
  | dialling id req second => simp [hphase, Phase.hand] at hhand
  | writing id req j second =>
      obtain rfl : j = i := by simpa [hphase, Phase.hand] using hhand
      exact (h.writing hphase hc).2.2.2.app
  | reading id req j second =>
      obtain rfl : j = i := by simpa [hphase, Phase.hand] using hhand
      exact (h.reading hphase hc).2.2.app

/-- What is left of a call whose connection changes. -/
lemma toGo_set {i : Nat} (hc : s.conns[i]? = some c) {n : Nat}
    (hle : s.phase.hand = some i → c'.toGo + n ≤ c.toGo) (hn : s.phase.hand ≠ some i → n = 0) :
    System.toGo { s with conns := s.conns.set i c' } + n ≤ s.toGo := by
  have hi := (List.getElem?_eq_some_iff.mp hc).1
  have hget : ∀ j, s.phase.hand = some j →
      ((s.conns.set i c')[j]?).elim 0 Conn.toGo + n ≤ (s.conns[j]?).elim 0 Conn.toGo := by
    intro j hj
    by_cases hij : i = j
    · subst hij
      rw [List.getElem?_set_self hi, hc]
      exact hle hj
    · have hnone : n = 0 := hn fun hsome => hij (Option.some.inj (hsome.symm.trans hj))
      rw [List.getElem?_set_ne hij, hnone]
      exact Nat.le_refl _
  cases hphase : s.phase with
  | idle =>
      have hnone : n = 0 := hn (by simp [hphase, Phase.hand])
      simp [System.toGo, hphase, hnone]
  | dialling id req second =>
      have hnone : n = 0 := hn (by simp [hphase, Phase.hand])
      simp [System.toGo, hphase, hnone]
  | writing id req j second =>
      have hj := hget j (by rw [hphase]; rfl)
      simp only [System.toGo, hphase]
      omega
  | reading id req j second =>
      have hj := hget j (by rw [hphase]; rfl)
      simp only [System.toGo, hphase]
      omega

/-- Another peer is nothing to the call. -/
lemma System.Inv.toGo_intruded (h : s.Inv env) (authorised : Bool) :
    System.toGo { s with conns := s.conns ++ [.new false authorised] } = s.toGo := by
  have hstands := h.stands
  cases hphase : s.phase with
  | idle => simp [System.toGo, hphase]
  | dialling id req second => simp [System.toGo, hphase]
  | writing id req i second =>
      rw [hphase] at hstands
      obtain ⟨-, -, -, c, hc, -⟩ := hstands
      have hi := (List.getElem?_eq_some_iff.mp hc).1
      simp [System.toGo, hphase, List.getElem?_append_left hi]
  | reading id req i second =>
      rw [hphase] at hstands
      obtain ⟨-, -, -, c, hc, -⟩ := hstands
      have hi := (List.getElem?_eq_some_iff.mp hc).1
      simp [System.toGo, hphase, List.getElem?_append_left hi]

/-- After a failed exchange at most the second one is left. -/
lemma toGo_fail (env : Setting) (s : System) (id : Nat) (req : Request) (i : Nat) (c : Conn)
    (second : Bool) (e : IoError) :
    (s.fail env id req i c second e).toGo ≤ again second := by
  unfold System.fail
  cases second with
  | true => exact Nat.zero_le _
  | false =>
      cases hretriable : req.retriable with
      | true => exact Nat.le_refl _
      | false => exact Nat.zero_le _

/-- **A step of the call leaves less to do.** -/
lemma toGo_client (hcall : ∀ req, e ≠ .call req) (h : s.client env e = some s') :
    s'.toGo + 1 ≤ s.toGo := by
  unfold System.client at h
  split at h
  · exact absurd rfl (hcall _)
  · split at h
    · rename_i hphase
      cases h
      simp only [System.toGo, hphase, exchange]
      omega
    · rename_i hphase
      cases h
      simp [System.toGo, hphase, exchange, Conn.toGo, Conn.new, Link.new, Server.toGo]
      omega
    · cases h
  · split at h
    · rename_i id req i second hphase
      have hroom : again second + 1 ≤ s.toGo := by
        simp only [System.toGo, hphase]
        omega
      split at h
      · rename_i c e _ _
        cases h
        have hfail := toGo_fail env s id req i c second e
        omega
      · rename_i c bytes n e _ _
        split at h <;> cases h
        have hfail := toGo_fail env s id req i
          { c with up := c.up.breakOff 4 (env.requests.toVec req) n } second e
        omega
      · rename_i c bytes hc hw
        cases h
        have hi := (List.getElem?_eq_some_iff.mp hc).1
        have hsize := frame_le_largest (writeFrame_eq_ok hw).2
        have hpending : c.up.sent.length + 1 - c.up.received.length ≤
            c.up.sent.length - c.up.received.length + 1 := by omega
        have hmul := Nat.mul_le_mul_right (largest + 3) hpending
        rw [Nat.succ_mul] at hmul
        simp only [System.toGo, hphase, hc, List.getElem?_set_self hi, Option.elim_some, Conn.toGo,
          Link.send, List.length_append, List.length_singleton, written]
        omega
      · cases h
    · cases h
  · split at h
    · rename_i id req i second hphase
      have hroom : again second + 1 ≤ s.toGo := by
        simp only [System.toGo, hphase]
        omega
      split at h
      · rename_i c e _
        cases h
        have hfail := toGo_fail env s id req i c second e
        omega
      · rename_i c _
        split at h
        · rename_i e _
          cases h
          have hfail := toGo_fail env s id req i c second e
          omega
        · obtain ⟨read, -, rfl⟩ := Option.map_eq_some_iff.mp h
          show 0 + 1 ≤ s.toGo
          omega
        · cases h
      · cases h
    · cases h
  · cases h

/-- **Every step but a new call leaves no more to do**, and one that gets on
leaves less. -/
theorem toGo_step (hinv : s.Inv env) (hcall : ∀ req, e ≠ .call req)
    (h : step env s e = some s') : s'.toGo + (s.works e).toNat ≤ s.toGo := by
  cases hconn : e.conn with
  | some i =>
      obtain ⟨c, c', hc, hserve, rfl⟩ := step_conn hconn h
      have hworks : s.works e = decide (s.phase.hand = some i ∧ c.works e = true) := by
        simp [System.works, hconn, hc]
      refine toGo_set hc (fun hhand => ?_) fun hhand => ?_
      · -- the connection in hand is one of the app's
        have happ : c.app = true := hinv.app_of_hand hhand hc
        have hle := ((hinv.log.conn hc).hears happ).toGo_serve happ hserve
        simpa [hworks, hhand] using hle
      · simp [hworks, hhand]
  | none =>
      obtain ⟨authorised, rfl, rfl⟩ | hclient := step_client hconn h
      · have hworks : s.works (.intrude authorised) = false := rfl
        rw [hworks]
        exact (hinv.toGo_intruded authorised).le
      · exact (Nat.add_le_add_left (Bool.toNat_le _) _).trans (toGo_client hcall hclient)

end ToGo

/-! ### A stream that is read without a failure -/

section Streams

variable {α : Type} {codec : Codec α} {l : Link} {r : List UInt8}

/-- What arrives of a good frame is no failure. -/
lemma readFrame_of_append_eq {body rest flying : List UInt8} {value : α}
    (h : r ++ flying = frame 4 body ++ rest) (hsize : body.length ≤ maxFrame)
    (hslice : codec.fromSlice body = .ok value) (e : IoError) :
    readFrame codec false r ≠ some (.error e) := by
  have hwhole := pop_frame_append (fits_of_le hsize) rest
  cases hpop : pop 4 r with
  | some popped =>
      obtain ⟨body', left⟩ := popped
      have hall := pop_append hpop flying
      rw [h, hwhole] at hall
      obtain ⟨rfl, -⟩ := Prod.mk.inj (Option.some.inj hall)
      rw [readFrame_eq_ok_iff.mpr ⟨body, hsize, hpop, hslice⟩]
      simp
  | none =>
      cases hheader : readFull 4 r with
      | none => simp [readFrame, hheader]
      | some header =>
          obtain ⟨lenBuf, behind⟩ := header
          obtain ⟨hlength, rfl⟩ := readFull_eq_some_iff.mp hheader
          -- the length has arrived, and it is that of the body
          have hlen : lenBuf = bigEndian 4 body.length := by
            rw [frame, List.append_assoc, List.append_assoc] at h
            exact (List.append_inj h (by rw [hlength, length_bigEndian])).1
          have hbytes : ofBigEndian lenBuf = body.length := by
            rw [hlen, ofBigEndian_bigEndian (fits_of_le hsize)]
          rw [pop, hheader, Option.bind_some] at hpop
          rw [hbytes] at hpop
          have hle : ¬ body.length > maxFrame := by omega
          simp [readFrame, hheader, hbytes, hle, hpop]

/-- **A stream of good frames that was not cut off is read without a
failure.** -/
lemma readFrame_of_sound (h : l.Sound 4) (hcut : l.cut = [])
    (hgood : ∀ body ∈ l.sent, body.length ≤ maxFrame ∧ ∃ value, codec.fromSlice body = .ok value)
    (e : IoError) : readFrame codec false l.held ≠ some (.error e) := by
  have hrest := h.rest_eq (by omega) hcut
  cases hdrop : l.sent.drop l.received.length with
  | nil =>
      rw [hdrop, frames_nil] at hrest
      rw [(List.append_eq_nil_iff.mp hrest).1]
      simp [readFrame, readFull]
  | cons body bodies =>
      have hmem : body ∈ l.sent :=
        List.mem_of_mem_drop (by rw [hdrop]; exact List.mem_cons_self)
      obtain ⟨hsize, value, hslice⟩ := hgood body hmem
      rw [hdrop, frames_cons] at hrest
      exact readFrame_of_append_eq hrest hsize hslice e

/-- A frame that has arrived is read, for good or ill. -/
lemma readFrame_isSome {closed : Bool} (h : closed = true ∨ (pop 4 r).isSome = true) :
    (readFrame codec closed r).isSome = true := by
  unfold readFrame
  unfold pop at h
  cases hheader : readFull 4 r with
  | none =>
      have hclosed : closed = true := by simpa [hheader] using h
      simp [hclosed]
  | some header =>
      obtain ⟨lenBuf, behind⟩ := header
      rw [hheader, Option.bind_some] at h
      dsimp only at h ⊢
      split
      · rfl
      · cases hbody : readFull (ofBigEndian lenBuf) behind with
        | none =>
            have hclosed : closed = true := by simpa [hbody] using h
            simp [hclosed]
        | some read =>
            dsimp only
            split <;> rfl

end Streams

/-! ### What goes on -/

/-- An answer that can be written and is read. -/
def Setting.Conveys (env : Setting) (resp : Response) : Prop :=
  (env.responses.toVec resp).length ≤ maxFrame ∧
    (env.responses.fromSlice (env.responses.toVec resp)).isOk = true

/-- The thread of a connection goes on, and what it answers is read. -/
def Conn.Goes (env : Setting) (c : Conn) : Event → Prop
  | .stop _ => False
  | .respond _ failed => failed = none
  | .dispatch _ result =>
      match c.server with
      | .serving req => env.Conveys (dispatch env.version req result)
      | _ => True
  | _ => True

/-- The helper can be dialled and accepts the app, and nothing fails that the
second exchange of a call needs; there is no other call. -/
def Goes (env : Setting) (s : System) (e : Event) : Prop :=
  match e.conn, e with
  | some i, e => s.phase.again = some i → ∀ c ∈ s.conns[i]?, c.Goes env e
  | none, .call _ => False
  | none, .dial found => found = .ok true
  | none, .write failed => s.phase.again ≠ none → failed = none
  | none, .read failed => s.phase.again ≠ none → failed = none
  | none, _ => True

instance (resp : Response) : Decidable (env.Conveys resp) := inferInstanceAs (Decidable (_ ∧ _))

instance (c : Conn) : (e : Event) → Decidable (c.Goes env e)
  | .stop _ => inferInstanceAs (Decidable False)
  | .respond _ failed => inferInstanceAs (Decidable (failed = none))
  | .dispatch _ result =>
      match h : c.server with
      | .serving req =>
          decidable_of_iff (env.Conveys (dispatch env.version req result)) (by simp [Conn.Goes, h])
      | .accepted | .reading | .replying _ | .ended => isTrue (by simp [Conn.Goes, h])
  | .call _ | .dial _ | .write _ | .read _ | .carryUp _ _ | .carryDown _ _ | .authenticate _ _
  | .receive _ | .intrude _ | .inject _ _ => isTrue trivial

lemma goes_conn {s : System} {e : Event} {i : Nat} (hi : e.conn = some i) :
    Goes env s e ↔ (s.phase.again = some i → ∀ c ∈ s.conns[i]?, c.Goes env e) := by
  unfold Goes
  rw [hi]

instance (s : System) (e : Event) : Decidable (Goes env s e) :=
  match h : e.conn with
  | some _ => decidable_of_iff _ (goes_conn h).symm
  | none =>
      match e, h with
      | .call _, _ => inferInstanceAs (Decidable False)
      | .dial found, _ => inferInstanceAs (Decidable (found = .ok true))
      | .write failed, _ => inferInstanceAs (Decidable (s.phase.again ≠ none → failed = none))
      | .read failed, _ => inferInstanceAs (Decidable (s.phase.again ≠ none → failed = none))
      | .intrude _, _ => inferInstanceAs (Decidable True)

/-- A step of the call is possible, or one of what it waits for. -/
def GetsOn (env : Setting) (s : System) : Prop :=
  ∃ e s', s.works e = true ∧ Goes env s e ∧ step env s e = some s'

/-- A connection of the second exchange of a call. -/
structure Conn.Again (env : Setting) (a : Asked) (c : Conn) : Prop where
  authorised : c.authorised = true
  going : c.server ≠ .ended
  asked : ∀ b ∈ c.asked, b = a
  conveyed : ∀ d ∈ c.served, env.Conveys d.response

section Again

variable {c c' : Conn} {a : Asked} {e : Event} {got : Request}

lemma Conn.Again.new (a : Asked) : (Conn.new true true).Again env a :=
  ⟨rfl, by simp [Conn.new], by simp [Conn.new], by simp [Conn.new]⟩

/-- **The thread of the second exchange goes on.** -/
lemma Conn.Again.serve (h : c.Again env a) (hok : c.Ok env) (happ : c.app = true)
    (hopen : c.isOpen = true) (hsize : (env.requests.toVec a.request).length ≤ maxFrame)
    (hreads : env.requests.Reads a.request got) (hgoes : c.Goes env e)
    (hs : c.serve env e = some c') : c'.Again env a := by
  have hhears := hok.hears happ
  cases e with
  | carryUp i n =>
      obtain rfl := Option.some.inj hs
      exact ⟨h.authorised, h.going, h.asked, h.conveyed⟩
  | carryDown i n =>
      obtain rfl := Option.some.inj hs
      exact ⟨h.authorised, h.going, h.asked, h.conveyed⟩
  | authenticate i failed =>
      simp only [Conn.serve] at hs
      split at hs
      · cases hs
        exact ⟨h.authorised, by simp, h.asked, h.conveyed⟩
      · rename_i hauth
        rw [h.authorised] at hauth
        cases hauth
      · cases hs
  | receive i =>
      simp only [Conn.serve] at hs
      split at hs
      · split at hs
        · rename_i e hread
          refine absurd hread ?_
          have hclosed : (decide (! c.isOpen ∧ c.up.flying = [])) = false := by simp [hopen]
          rw [hclosed]
          refine readFrame_of_sound hhears.up (hhears.cut hopen) (fun body hbody => ?_) e
          rw [hhears.asked] at hbody
          obtain ⟨b, hb, rfl⟩ := List.mem_map.mp hbody
          rw [h.asked b hb]
          exact ⟨hsize, got, hreads⟩
        · obtain ⟨⟨body, l⟩, -, rfl⟩ := Option.map_eq_some_iff.mp hs
          exact ⟨h.authorised, by simp, h.asked, h.conveyed⟩
        · cases hs
      · cases hs
  | dispatch i result =>
      simp only [Conn.serve] at hs
      split at hs
      · rename_i req hserver
        cases hs
        refine ⟨h.authorised, by simp, h.asked, List.forall_mem_append.mpr ⟨h.conveyed, ?_⟩⟩
        intro d hd
        rw [List.mem_singleton.mp hd]
        rw [Conn.Goes, hserver] at hgoes
        exact hgoes
      · cases hs
  | respond i failed =>
      obtain rfl : failed = none := hgoes
      simp only [Conn.serve] at hs
      split at hs
      · rename_i resp hserver
        -- the reply that is due is that of the last request served
        have hpending := hok.answers.pending
        rw [Conn.Pending, hserver] at hpending
        have hmem : env.responses.toVec resp ∈ c.replies env := by
          rw [← hpending.2]
          simp
        obtain ⟨d, hd, htext⟩ := List.mem_map.mp hmem
        have hle := (h.conveyed d hd).1
        rw [htext] at hle
        rw [writeFrame_of_le hle] at hs
        cases hs
        exact ⟨h.authorised, by simp, h.asked, h.conveyed⟩
      · cases hs
  | stop i => exact absurd hgoes id
  | inject i bytes => simp [Conn.serve, happ] at hs
  | _ => cases hs

/-- What the app reads of it is no failure. -/
lemma Conn.Again.read (h : c.Again env a) (hok : c.Ok env) (e : IoError) :
    readFrame env.responses (c.server = .ended ∧ c.down.flying = []) c.down.held ≠
      some (.error e) := by
  have hclosed : decide (c.server = .ended ∧ c.down.flying = []) = false := by simp [h.going]
  rw [hclosed]
  refine readFrame_of_sound hok.answers.down (hok.answers.cut h.going) (fun body hbody => ?_) e
  have hdue := hok.answers.sent.subset hbody
  rw [Conn.due, if_pos h.authorised] at hdue
  obtain ⟨d, hd, rfl⟩ := List.mem_map.mp hdue
  obtain ⟨hsize, hread⟩ := h.conveyed d hd
  refine ⟨hsize, ?_⟩
  cases hslice : env.responses.fromSlice (env.responses.toVec d.response) with
  | ok value => exact ⟨value, rfl⟩
  | error text => simp [hslice, Except.isOk, Except.toBool] at hread

end Again

/-! ### A call that only asks -/

/-- The connection of a call that only asks: a refusal on it was read before,
and on the second one nothing fails. -/
structure Conn.Tried (env : Setting) (a : Asked) (second : Bool) (c : Conn) : Prop where
  told : c.authorised = false → c.down.received ≠ []
  again : second = true → c.Again env a

/-- Where a call that only asks stands before it returns. -/
def Phase.Polls (env : Setting) (a : Asked) (conns : List Conn) : Phase → Prop
  | .idle => False
  | .dialling id req _ => (⟨id, req⟩ : Asked) = a
  | .writing id req i second | .reading id req i second =>
      (⟨id, req⟩ : Asked) = a ∧ At conns i (Conn.Tried env a second)

/-- The call returned what the helper answered to it. -/
def System.Told (env : Setting) (id : Nat) (s : System) : Prop :=
  ∃ resp, (id, .ok resp) ∈ s.returned ∧
    ∃ d ∈ s.dispatched, d.call = some id ∧ env.responses.Reads d.response resp

/-- **The call has not failed**, and goes on or has its answer. -/
structure System.Polled (env : Setting) (a : Asked) (s : System) : Prop where
  inv : s.Inv env
  unfailed : ∀ failure, (a.call, .error failure) ∉ s.returned
  stands : (s.phase = .idle ∧ s.Told env a.call) ∨ s.phase.Polls env a s.conns

section Polled

variable {s s' : System} {c c' : Conn} {a : Asked} {e : Event} {got : Request}

lemma System.Told.mono (h : s.Told env a.call) (hreturned : s'.returned = s.returned)
    (hdispatched : ∀ d ∈ s.dispatched, d ∈ s'.dispatched) : s'.Told env a.call := by
  obtain ⟨resp, hr, d, hd, hown⟩ := h
  exact ⟨resp, hreturned ▸ hr, d, hdispatched d hd, hown⟩

/-- A step of a thread, or of the bytes. -/
lemma System.Polled.serve (h : s.Polled env a) {i : Nat}
    (hsize : (env.requests.toVec a.request).length ≤ maxFrame)
    (hreads : env.requests.Reads a.request got) (hc : s.conns[i]? = some c)
    (hgoes : s.phase.again = some i → c.Goes env e) (hs : c.serve env e = some c') :
    System.Polled env a { s with conns := s.conns.set i c' } := by
  have hok := h.inv.log.conn hc
  have hkept := Conn.kept_of_serves (serve_serves hs)
  have htried : ∀ second : Bool, (second = true → s.phase.again = some i) → c.app = true →
      c.isOpen = true → c.Tried env a second → c'.Tried env a second := by
    intro second hagain happ hopen ht
    refine ⟨fun hauth => ?_, fun hsecond => ?_⟩
    · rw [hkept.got]
      exact ht.told (hkept.authorised ▸ hauth)
    · exact (ht.again hsecond).serve hok happ hopen hsize hreads (hgoes (hagain hsecond)) hs
  refine ⟨h.inv.serve hc (serve_serves hs), h.unfailed, ?_⟩
  obtain ⟨hidle, htold⟩ | hpolls := h.stands
  · refine .inl ⟨hidle, htold.mono rfl fun d hd => ?_⟩
    obtain ⟨b, hb, hdb⟩ := List.mem_flatMap.mp hd
    obtain ⟨b', hb', hdb'⟩ := exists_mem_set (P := fun b => d ∈ b.served) ⟨b, hb, hdb⟩ hc
      fun hmem => hkept.served.subset hmem
    exact List.mem_flatMap.mpr ⟨b', hb', hdb'⟩
  · refine .inr ?_
    cases hphase : s.phase with
    | idle => simp [hphase, Phase.Polls] at hpolls
    | dialling id req second =>
        rw [hphase] at hpolls
        exact hpolls
    | writing id req j second =>
        rw [hphase] at hpolls
        refine ⟨hpolls.1, hpolls.2.set_of hc fun hij ht => ?_⟩
        subst hij
        have hq := (h.inv.writing hphase hc).2.2.2
        refine htried second (fun hsecond => ?_) hq.app hq.isOpen ht
        rw [hphase, hsecond]
        rfl
    | reading id req j second =>
        rw [hphase] at hpolls
        refine ⟨hpolls.1, hpolls.2.set_of hc fun hij ht => ?_⟩
        subst hij
        have hw := (h.inv.reading hphase hc).2.2
        refine htried second (fun hsecond => ?_) hw.app hw.isOpen ht
        rw [hphase, hsecond]
        rfl

/-- A call that only asks is made once more. -/
lemma fail_retriable {id : Nat} {req : Request} (hasks : req.retriable = true) (i : Nat) (c : Conn)
    (e : IoError) :
    s.fail env id req i c false e =
      { s with
        conns := s.conns.set i { c with isOpen := false }, pool := none
        phase := .dialling id req true } := by
  simp [System.fail, hasks]

/-- What the call reads of its connection is the answer to it. -/
lemma Conn.Tried.reply {second : Bool} (h : c.Tried env a second) (hok : c.Ok env)
    (hw : c.Waiting a) {body : List UInt8} {l : Link} {resp : Response}
    (hl : c.down.receive 4 = some (body, l)) (hread : env.responses.fromSlice body = .ok resp) :
    ∃ d ∈ c.served, d.call = some a.call ∧ env.responses.Reads d.response resp := by
  obtain hserved | ⟨hauth, -⟩ := hok.reply hw hl hread
  · exact hserved
  · -- a second refusal was never sent
    have hpre := (hok.answers.down.receive hl).prefix_sent (by omega)
    obtain ⟨hsent, hreceived, -, -, -⟩ := Link.receive_eq_some hl
    rw [hsent, hreceived] at hpre
    have hlength := (hpre.trans hok.answers.sent).length_le
    rw [Conn.due, hauth] at hlength
    have hnil : c.down.received = [] := by
      rw [← List.length_eq_zero_iff]
      simpa using hlength
    exact absurd hnil (h.told hauth)

/-- The call stands where its phase says. -/
lemma System.Polled.polls (h : s.Polled env a) (hphase : s.phase ≠ .idle) :
    s.phase.Polls env a s.conns := h.stands.resolve_left fun hidle => hphase hidle.1

lemma System.Polled.dial (h : s.Polled env a) (hstep : s.client env (.dial (.ok true)) = some s') :
    s'.Polled env a := by
  have hinv : s'.Inv env := h.inv.step (e := .dial (.ok true)) hstep
  simp only [System.client] at hstep
  split at hstep
  · rename_i hfound
    cases hfound
  · rename_i id req second _ hphase hfound
    cases hfound
    have hpolls := h.polls (by simp [hphase])
    rw [hphase] at hpolls
    cases hstep
    refine ⟨hinv, h.unfailed, .inr ⟨hpolls, At.concat _ ⟨?_, fun _ => .new a⟩⟩⟩
    intro hauth
    cases hauth
  · cases hstep

lemma System.Polled.write (h : s.Polled env a) (hasks : a.request.retriable = true)
    (hsize : (env.requests.toVec a.request).length ≤ maxFrame) {failed : Option (Nat × IoError)}
    (hgoes : s.phase.again ≠ none → failed = none)
    (hstep : s.client env (.write failed) = some s') : s'.Polled env a := by
  have hinv : s'.Inv env := h.inv.step (e := .write failed) hstep
  simp only [System.client] at hstep
  split at hstep
  · rename_i id req i second hphase
    have hpolls := h.polls (by simp [hphase])
    rw [hphase] at hpolls
    obtain ⟨rfl, hat⟩ := hpolls
    rw [writeFrame_of_le hsize] at hstep
    split at hstep
    · rename_i hw
      cases hw
    · rename_i c _ n e hc hw
      -- only a first exchange may fail
      have hfirst : second = false := by
        cases second with
        | false => rfl
        | true => simp [hphase, Phase.again] at hgoes
      subst hfirst
      split at hstep <;> cases hstep
      rw [fail_retriable hasks] at hinv ⊢
      exact ⟨hinv, h.unfailed, .inr rfl⟩
    · rename_i c _ hc _
      cases hstep
      refine ⟨hinv, h.unfailed, .inr ⟨rfl, ?_⟩⟩
      obtain ⟨d, hd, htold, hagain⟩ := hat
      obtain rfl := Option.some.inj (hc.symm.trans hd)
      refine At.set_self hc ⟨htold, fun hsecond => ?_⟩
      obtain ⟨hauth, hgoing, hasked, hconveyed⟩ := hagain hsecond
      refine ⟨hauth, hgoing, List.forall_mem_append.mpr ⟨hasked, ?_⟩, hconveyed⟩
      simp
    · cases hstep
  · cases hstep

lemma System.Polled.read (h : s.Polled env a) (hasks : a.request.retriable = true)
    {failed : Option IoError} (hgoes : s.phase.again ≠ none → failed = none)
    (hstep : s.client env (.read failed) = some s') : s'.Polled env a := by
  have hinv : s'.Inv env := h.inv.step (e := .read failed) hstep
  simp only [System.client] at hstep
  split at hstep
  · rename_i id req i second hphase
    have hpolls := h.polls (by simp [hphase])
    rw [hphase] at hpolls
    obtain ⟨rfl, hat⟩ := hpolls
    split at hstep
    · rename_i c e hc
      have hfirst : second = false := by
        cases second with
        | false => rfl
        | true => simp [hphase, Phase.again] at hgoes
      subst hfirst
      cases hstep
      rw [fail_retriable hasks] at hinv ⊢
      exact ⟨hinv, h.unfailed, .inr rfl⟩
    · rename_i c hc
      obtain ⟨d, hd, htried⟩ := hat
      obtain rfl := Option.some.inj (hc.symm.trans hd)
      have hok := h.inv.log.conn hc
      split at hstep
      · rename_i e hread
        cases second with
        | true => exact absurd hread ((htried.again rfl).read hok e)
        | false =>
            cases hstep
            rw [fail_retriable hasks] at hinv ⊢
            exact ⟨hinv, h.unfailed, .inr rfl⟩
      · rename_i resp _ hread
        obtain ⟨⟨body, l⟩, hl, rfl⟩ := Option.map_eq_some_iff.mp hstep
        have hw := (h.inv.reading hphase hc).2.2
        obtain ⟨d, hserved, hown⟩ := htried.reply hok hw hl (receive_of_readFrame hread hl)
        refine ⟨hinv, fun failure hr => ?_, .inl ⟨rfl, resp, by simp [System.finish], d, ?_, hown⟩⟩
        · have hmem : (id, Except.error failure) ∈ s.returned := by
            simpa [System.finish] using hr
          exact h.unfailed failure hmem
        · have hat : At (s.finish id i { c with down := l } second resp).conns i
              fun b => d ∈ b.served := At.set_self hc hserved
          obtain ⟨b, hb, hdb⟩ := hat
          exact List.mem_flatMap.mpr ⟨b, List.mem_of_getElem? hb, hdb⟩
      · cases hstep
    · cases hstep
  · cases hstep

/-- Another peer is nothing to the call. -/
lemma System.Polled.intruded (h : s.Polled env a) (authorised : Bool) :
    System.Polled env a { s with conns := s.conns ++ [.new false authorised] } := by
  refine ⟨h.inv.intruded authorised, h.unfailed, ?_⟩
  obtain ⟨hidle, htold⟩ | hpolls := h.stands
  · refine .inl ⟨hidle, htold.mono rfl fun d hd => ?_⟩
    rw [System.dispatched, List.flatMap_append]
    exact List.mem_append_left _ hd
  · refine .inr ?_
    cases hphase : s.phase with
    | idle => simp [hphase, Phase.Polls] at hpolls
    | dialling id req second =>
        rw [hphase] at hpolls
        exact hpolls
    | writing id req i second =>
        rw [hphase] at hpolls
        exact ⟨hpolls.1, hpolls.2.append _⟩
    | reading id req i second =>
        rw [hphase] at hpolls
        exact ⟨hpolls.1, hpolls.2.append _⟩

/-- **Every step keeps the call from failing.** -/
theorem System.Polled.step (h : s.Polled env a) (hasks : a.request.retriable = true)
    (hsize : (env.requests.toVec a.request).length ≤ maxFrame)
    (hreads : env.requests.Reads a.request got) (hgoes : Goes env s e)
    (hstep : Helper.step env s e = some s') : s'.Polled env a := by
  cases hconn : e.conn with
  | some i =>
      obtain ⟨c, c', hc, hserve, rfl⟩ := step_conn hconn hstep
      exact h.serve hsize hreads hc (fun hagain => (goes_conn hconn).mp hgoes hagain c hc) hserve
  | none =>
      obtain ⟨authorised, rfl, rfl⟩ | hclient := step_client hconn hstep
      · exact h.intruded authorised
      · cases e with
        | call req => exact absurd hgoes id
        | dial found =>
            obtain rfl : found = .ok true := hgoes
            exact h.dial hclient
        | write failed => exact h.write hasks hsize hgoes hclient
        | read failed => exact h.read hasks hgoes hclient
        | _ => cases hclient

/-! ### The call gets on -/

/-- A step of the thread in hand, or of its bytes, that is possible there. -/
lemma possible_conn {i : Nat} (hhand : s.phase.hand = some i) (hc : s.conns[i]? = some c)
    (hi : e.conn = some i) (hworks : c.works e = true)
    (hgoes : s.phase.again = some i → c.Goes env e) (hs : (c.serve env e).isSome = true) :
    GetsOn env s := by
  obtain ⟨c', hs⟩ := Option.isSome_iff_exists.mp hs
  refine ⟨e, { s with conns := s.conns.set i c' }, by simp [System.works, hi, hhand, hc, hworks],
    (goes_conn hi).mpr fun hagain d hd => ?_, ?_⟩
  · obtain rfl := Option.some.inj (hc.symm.trans hd)
    exact hgoes hagain
  · cases e <;> cases hi <;> simp [step, Event.conn, hc, hs]

/-- A step of the call that is possible. -/
lemma possible_client (hclient : step env s e = s.client env e) (hworks : s.works e = true)
    (hgoes : Goes env s e) (hs : (s.client env e).isSome = true) : GetsOn env s := by
  obtain ⟨s', hs⟩ := Option.isSome_iff_exists.mp hs
  exact ⟨e, s', hworks, hgoes, hclient.trans hs⟩

/-- A reply that has arrived, or the end of the stream, is read. -/
lemma possible_read {id i : Nat} {req : Request} {second : Bool}
    (hphase : s.phase = .reading id req i second) (hc : s.conns[i]? = some c)
    (hread : (c.server = .ended ∧ c.down.flying = []) ∨ (pop 4 c.down.held).isSome = true) :
    GetsOn env s := by
  have hsome : (readFrame env.responses (c.server = .ended ∧ c.down.flying = [])
      c.down.held).isSome = true := readFrame_isSome (by simpa using hread)
  obtain ⟨result, hresult⟩ := Option.isSome_iff_exists.mp hsome
  refine possible_client (e := .read none) rfl rfl (fun _ => rfl) ?_
  cases result with
  | error e =>
      simp only [System.client, hphase, hc, hresult]
      rfl
  | ok got =>
      obtain ⟨body, -, hpop, -⟩ := readFrame_eq_ok_iff.mp hresult
      simp only [System.client, hphase, hc, hresult, Link.receive, hpop, Option.map_some]
      rfl

lemma Conn.authenticate_possible (h : c.server = .accepted) (i : Nat) :
    (c.serve env (.authenticate i none)).isSome = true := by
  cases hauth : c.authorised with
  | true => simp [Conn.serve, h, hauth]
  | false => cases hw : writeFrame env.responses .refusal <;> simp [Conn.serve, h, hauth, hw]

lemma Conn.receive_possible (h : c.server = .reading) {read : List UInt8 × Link}
    (hl : c.up.receive 4 = some read) (i : Nat) :
    (c.serve env (.receive i)).isSome = true := by
  have hpop : (pop 4 c.up.held).isSome = true := by
    rw [Link.receive] at hl
    obtain ⟨popped, hpop, -⟩ := Option.map_eq_some_iff.mp hl
    rw [hpop]
    rfl
  have hread : (readFrame env.requests (! c.isOpen ∧ c.up.flying = []) c.up.held).isSome = true :=
    readFrame_isSome (.inr hpop)
  obtain ⟨result, hresult⟩ := Option.isSome_iff_exists.mp hread
  cases result with
  | error e =>
      simp only [Conn.serve, h, hresult]
      rfl
  | ok got =>
      simp only [Conn.serve, h, hresult, hl, Option.map_some]
      rfl

lemma Conn.respond_possible {resp : Response} (h : c.server = .replying resp) (i : Nat) :
    (c.serve env (.respond i none)).isSome = true := by
  cases hw : writeFrame env.responses resp <;> simp [Conn.serve, h, hw]

/-- The thread serves what the call asks. -/
lemma Conn.Again.serving (h : c.Again env a) (hhears : c.Hears env)
    (hreads : env.requests.Reads a.request got) {req : Request}
    (hserver : c.server = .serving req) : req = got := by
  have hheard := hhears.heard
  rw [Conn.Heard, hserver] at hheard
  obtain ⟨-, b, hb, hread⟩ := hheard
  obtain rfl := h.asked b (List.mem_of_getElem? hb)
  exact Except.ok.inj (hread.symm.trans hreads)

/-- Once every request was received and served, a reply is there. -/
lemma Conn.Ok.replied (hok : c.Ok env) (hw : c.Waiting a) (hserver : c.server = .reading)
    (hup : c.up.flying = []) (hdown : c.down.flying = []) (hreceive : c.up.receive 4 = none) :
    (pop 4 c.down.held).isSome = true := by
  have hhears := hok.hears hw.app
  have hheard := hhears.heard
  have hpending := hok.answers.pending
  rw [Conn.Heard, hserver] at hheard
  rw [Conn.Pending, hserver] at hpending
  have hreceived := congrArg List.length (hhears.up.received_eq (by omega) hup hreceive)
  have hasked := congrArg List.length hhears.asked
  have hsent := congrArg List.length hpending.2
  rw [List.length_map] at hasked
  rw [Conn.replies, List.length_map] at hsent
  have hbehind := hw.behind
  cases hpop : pop 4 c.down.held with
  | some popped => rfl
  | none =>
      have hnone : c.down.receive 4 = none := by rw [Link.receive, hpop, Option.map_none]
      have hall := congrArg List.length (hok.answers.down.received_eq (by omega) hdown hnone)
      omega

/-- **Until the call returns, a step of it is possible**, or of the thread that
serves it, or of the bytes between them. -/
theorem System.Polled.works_possible (h : s.Polled env a) (hphase : s.phase ≠ .idle)
    (hsize : (env.requests.toVec a.request).length ≤ maxFrame)
    (hreads : env.requests.Reads a.request got) {result : Except TunnelError TunnelStatus}
    (hconveys : env.Conveys (dispatch env.version got result)) :
    GetsOn env s := by
  have hpolls := h.polls hphase
  cases hnow : s.phase with
  | idle => exact absurd hnow hphase
  | dialling id req second =>
      exact possible_client (e := .dial (.ok true)) rfl rfl rfl (by simp [System.client, hnow])
  | writing id req i second =>
      rw [hnow] at hpolls
      obtain ⟨rfl, c, hc, -⟩ := hpolls
      exact possible_client (e := .write none) rfl rfl (fun _ => rfl)
        (by simp [System.client, hnow, hc, writeFrame_of_le hsize])
  | reading id req i second =>
      rw [hnow] at hpolls
      obtain ⟨rfl, c, hc, htried⟩ := hpolls
      have hok := h.inv.log.conn hc
      have hw := (h.inv.reading hnow hc).2.2
      have hhand : s.phase.hand = some i := by rw [hnow]; rfl
      have hdown : c.down.flying ≠ [] → GetsOn env s := fun hne =>
        possible_conn (e := .carryDown i 1) hhand hc rfl (by simp [Conn.works, hne])
          (fun _ => trivial) rfl
      cases hserver : c.server with
      | accepted =>
          exact possible_conn (e := .authenticate i none) hhand hc rfl rfl (fun _ => trivial)
            (Conn.authenticate_possible hserver i)
      | reading =>
          by_cases hup : c.up.flying = []
          · by_cases hflying : c.down.flying = []
            · cases hreceive : c.up.receive 4 with
              | some read =>
                  exact possible_conn (e := .receive i) hhand hc rfl rfl (fun _ => trivial)
                    (Conn.receive_possible hserver hreceive i)
              | none =>
                  exact possible_read hnow hc
                    (.inr (hok.replied hw hserver hup hflying hreceive))
            · exact hdown hflying
          · exact possible_conn (e := .carryUp i 1) hhand hc rfl (by simp [Conn.works, hup])
              (fun _ => trivial) rfl
      | serving served =>
          refine possible_conn (e := .dispatch i result) hhand hc rfl rfl (fun hagain => ?_)
            (by simp [Conn.serve, hserver])
          have hsecond : second = true := by
            rw [hnow] at hagain
            cases second with
            | true => rfl
            | false => cases hagain
          rw [Conn.Goes, hserver, (htried.again hsecond).serving (hok.hears hw.app) hreads hserver]
          exact hconveys
      | replying resp =>
          exact possible_conn (e := .respond i none) hhand hc rfl rfl (fun _ => rfl)
            (Conn.respond_possible hserver i)
      | ended =>
          by_cases hflying : c.down.flying = []
          · exact possible_read hnow hc (.inl ⟨hserver, hflying⟩)
          · exact hdown hflying

/-! ### Whole runs -/

/-- The connection that is kept between two calls was used. -/
def System.Used (s : System) : Prop :=
  s.phase = .idle → ∀ i, s.pool = some i → At s.conns i fun c => c.asked ≠ []

lemma System.Used.fail {id : Nat} {req : Request} {i : Nat} {second : Bool} (c : Conn) (e : IoError)
    (hpool : s.pool = kept second i) : (s.fail env id req i c second e).Used := by
  unfold System.fail
  cases second with
  | true =>
      intro _ j hj
      have hnone : s.pool = some j := hj
      rw [hpool] at hnone
      cases hnone
  | false =>
      cases hretriable : req.retriable with
      | true => exact fun hphase => by cases hphase
      | false => exact fun _ j hj => by cases hj

lemma System.Used.step (h : s.Used) (hinv : s.Inv env) (hstep : Helper.step env s e = some s') :
    s'.Used := by
  obtain hasks | ⟨i, c, c', hc, hs, rfl⟩ := step_moves hstep
  · cases hasks with
    | called req hphase =>
        intro hidle
        cases hpool : s.pool <;> simp [hpool] at hidle
    | @dialFailed id req second hphase e =>
        have hstands := hinv.stands
        rw [hphase] at hstands
        intro _ i hi
        have hi' : s.pool = some i := hi
        rw [hstands.2.2] at hi'
        cases hi'
    | dialled hphase authorised => exact fun hidle => by cases hidle
    | @notWritten id i req second c hphase hc e =>
        exact System.Used.fail c e (hinv.writing hphase hc).2.2.1
    | @writeFailed id i n req second c hphase hc hsize hn e =>
        exact System.Used.fail _ e (hinv.writing hphase hc).2.2.1
    | written hphase hc hsize => exact fun hidle => by cases hidle
    | @readFailed id i req second c hphase hc e =>
        exact System.Used.fail c e (hinv.reading hphase hc).2.1
    | @replied id i req second c body l resp hphase hc hl hread =>
        obtain ⟨-, hpool, hw⟩ := hinv.reading hphase hc
        intro _ j hj
        by_cases hrefused : resp = .refusal
        · simp [System.finish, hrefused] at hj
        · have hji : j = i := by
            cases second with
            | true => simpa [System.finish, hrefused, eq_comm] using hj
            | false => simpa [System.finish, hrefused, hpool, kept, eq_comm] using hj
          subst hji
          refine At.set_self hc fun hnil => ?_
          have hlast := hw.last
          simp [show c.asked = [] from hnil] at hlast
    | intruded authorised => exact fun hidle i hi => (h hidle i hi).append _
  · intro hidle j hj
    exact (h hidle j hj).set hc fun hused => by rwa [(Conn.kept_of_serves hs).asked]

lemma System.used_of_reachable (h : Reachable (Helper.step env) .new s) : s.Used := by
  have hboth : s.Inv env ∧ s.Used := h.induction (I := fun s => s.Inv env ∧ s.Used)
    ⟨.new, fun _ i hi => by cases hi⟩ fun _ _ _ hs hstep => ⟨hs.1.step hstep, hs.2.step hs.1 hstep⟩
  exact hboth.2

/-- A call that only asks begins, on whatever connection is kept. -/
lemma System.Polled.called {req : Request} (hinv : s.Inv env) (hused : s.Used)
    (hidle : s.phase = .idle) (hstep : Helper.step env s (.call req) = some s') :
    s'.Polled env ⟨s.calls.length, req⟩ := by
  have hinv' : s'.Inv env := hinv.step hstep
  have hstands := hinv.stands
  rw [hidle] at hstands
  simp only [Helper.step, Event.conn, System.client, hidle] at hstep
  cases hstep
  refine ⟨hinv', fun failure hr => Nat.lt_irrefl _ (hinv.log.known _ hr), .inr ?_⟩
  cases hpool : s.pool with
  | none => exact rfl
  | some i =>
      obtain ⟨c, hc, hq⟩ := hstands i hpool
      obtain ⟨d, hd, hasked⟩ := hused hidle i hpool
      obtain rfl := Option.some.inj (hc.symm.trans hd)
      refine ⟨rfl, c, hc, fun _ hnil => hasked ?_, fun hsecond => by cases hsecond⟩
      rw [← List.length_eq_zero_iff, hq.even, hnil, List.length_nil]

/-- **A call that only asks is answered**, whatever happened before and whatever
breaks on the first connection that it uses: it never fails, some step of it or
of what it waits for is possible until it returns, boundedly many of them are
made, and then it returned what the helper answered to it. -/
theorem poll_answered (h : Reachable (step env) .new s) (hidle : s.phase = .idle) {req : Request}
    {result : Except TunnelError TunnelStatus} (hasks : req.retriable = true)
    (hsize : (env.requests.toVec req).length ≤ maxFrame) (hreads : env.requests.Reads req got)
    (hconveys : env.Conveys (dispatch env.version got result)) :
    ∃ s₁ bound, step env s (.call req) = some s₁ ∧
      ∀ es s', Along (step env) (Goes env) s₁ es → exec (step env) s₁ es = some s' →
        count (step env) System.works s₁ es ≤ bound ∧
        (∀ failure, (s.calls.length, .error failure) ∉ s'.returned) ∧
        (s'.phase ≠ .idle → GetsOn env s') ∧
        (s'.phase = .idle → s'.Told env s.calls.length) := by
  obtain ⟨s₁, hcall⟩ : ∃ s₁, step env s (.call req) = some s₁ :=
    ⟨_, by simp only [step, Event.conn, System.client, hidle]; rfl⟩
  refine ⟨s₁, s₁.toGo, hcall, fun es s' hgoes hexec => ?_⟩
  have hstart : s₁.Polled env ⟨s.calls.length, req⟩ :=
    .called (System.inv_of_reachable h) (System.used_of_reachable h) hidle hcall
  have hkeeps : ∀ t e t', System.Polled env ⟨s.calls.length, req⟩ t → Goes env t e →
      step env t e = some t' → t'.Polled env ⟨s.calls.length, req⟩ :=
    fun t e t' ht hgoes hstep => ht.step hasks hsize hreads hgoes hstep
  have hend : s'.Polled env ⟨s.calls.length, req⟩ := exec_invariant hkeeps hstart hgoes hexec
  have hleft : ∀ t e t', System.Polled env ⟨s.calls.length, req⟩ t → Goes env t e →
      step env t e = some t' → t'.toGo + (t.works e).toNat ≤ t.toGo := by
    intro t e t' ht hgoes hstep
    refine toGo_step ht.inv (fun other hother => ?_) hstep
    subst hother
    exact hgoes
  have hcount := count_add_le hkeeps hleft hstart hgoes hexec
  refine ⟨by omega, hend.unfailed, fun hphase => hend.works_possible hphase hsize hreads hconveys,
    fun hphase => ?_⟩
  obtain ⟨-, htold⟩ | hpolls := hend.stands
  · exact htold
  · simp [hphase, Phase.Polls] at hpolls

/-- The helper is started again between two pings: the second one is written to
the connection of the first, and answered on one of its own. -/
theorem poll_answered_restarted : ∃ s s' : System,
    exec (step pingSetting) .new
      (.call .ping :: served pingSetting 0 .ping .ping (.error .notConnected) ++ [.stop 0]) =
        some s ∧
    exec (step pingSetting) s (.call .ping :: [.write none, .read none] ++
      served pingSetting 1 .ping .ping (.error .notConnected)) = some s' ∧
    s'.Told pingSetting 1 ∧ ∀ failure, (1, .error failure) ∉ s'.returned := by
  obtain ⟨s, s₁, s', hs, hidle, hlength, hcall, hexec, hgoes, hdone⟩ :
      ∃ s s₁ s' : System, exec (step pingSetting) .new
          (.call .ping :: served pingSetting 0 .ping .ping (.error .notConnected) ++ [.stop 0]) =
            some s ∧ s.phase = .idle ∧ s.calls.length = 1 ∧
        step pingSetting s (.call .ping) = some s₁ ∧
        exec (step pingSetting) s₁ ([.write none, .read none] ++
          served pingSetting 1 .ping .ping (.error .notConnected)) = some s' ∧
        Along (step pingSetting) (Goes pingSetting) s₁ ([.write none, .read none] ++
          served pingSetting 1 .ping .ping (.error .notConnected)) ∧ s'.phase = .idle :=
    ⟨_, _, _, rfl, rfl, rfl, rfl, rfl, by decide, rfl⟩
  have hreads : pingSetting.requests.Reads .ping .ping := rfl
  have hconveys : pingSetting.Conveys
      (dispatch pingSetting.version .ping (.error .notConnected)) := by decide
  obtain ⟨t, bound, ht, hrun⟩ := poll_answered ⟨_, hs⟩ hidle rfl (by decide) hreads hconveys
  obtain rfl := Option.some.inj (hcall.symm.trans ht)
  obtain ⟨-, hunfailed, -, htold⟩ := hrun _ _ hgoes hexec
  rw [hlength] at hunfailed htold
  exact ⟨s, s', hs, exec_cons_eq_some.mpr ⟨s₁, hcall, hexec⟩, htold hdone, hunfailed⟩

end Polled

end CumulusVpn.Desktop.Helper
