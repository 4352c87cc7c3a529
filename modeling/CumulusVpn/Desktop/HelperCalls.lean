/-
Calls of the app to its privileged helper (`HelperClient::request` of
`helper_client.rs`, `serve` of `helper/src/server.rs`).

The app's calls take turns at a lock and share one pooled connection; every
connection that the helper accepts has a thread of its own.  Reads, writes and
dispatches are steps of their own, in any order with those of the other
threads, any read or write may fail, and peers other than the app may connect
and send any bytes.

* `Conn`, `Phase`, `System`: the two ends, with what they wrote and did;
* `System.client`, `Conn.serve`, `step`: one step of a call, of a thread of the
  helper, or of the bytes on the way;
* `Serves`, `Asks`, `step_moves`: **every step, by what it does**.
-/
import CumulusVpn.Lib.StepSystem
import CumulusVpn.Desktop.HelperFrames

namespace CumulusVpn.Desktop.Helper

open Framing StepSystem

/-! ### The two ends -/

/-- A request that was written to a connection. -/
structure Asked where
  call : Nat
  request : Request
deriving DecidableEq

/-- A request that reached `dispatch`. -/
structure Dispatch where
  /-- the call of the app that asked for it -/
  call : Option Nat
  request : Request
  response : Response
deriving DecidableEq

/-- Where a thread of `serve` stands. -/
inductive Server
  | accepted
  | reading
  | serving (request : Request)
  | replying (response : Response)
  | ended
deriving DecidableEq

/-- A connection to the helper's socket, with both of its ends. -/
structure Conn where
  /-- the peer is the app -/
  app : Bool
  /-- what `auth` says about the peer -/
  authorised : Bool
  /-- the peer's end is open -/
  isOpen : Bool
  up : Link
  down : Link
  server : Server
  asked : List Asked
  served : List Dispatch
deriving DecidableEq

/-- A connection that has been accepted. -/
def Conn.new (app authorised : Bool) : Conn :=
  ⟨app, authorised, true, .new, .new, .accepted, [], []⟩

/-- Where `request` stands; `second` once it has reconnected. -/
inductive Phase
  | idle
  | dialling (id : Nat) (req : Request) (second : Bool)
  | writing (id : Nat) (req : Request) (conn : Nat) (second : Bool)
  | reading (id : Nat) (req : Request) (conn : Nat) (second : Bool)
deriving DecidableEq

/-- The app and the connections to the helper. -/
structure System where
  conns : List Conn
  /-- the connection that is kept -/
  pool : Option Nat
  phase : Phase
  calls : List Request
  returned : List (Nat × Except Failure Response)
deriving DecidableEq

namespace System

/-- An app without a connection. -/
def new : System := ⟨[], none, .idle, [], []⟩

/-- Everything the helper did, connection by connection. -/
def dispatched (s : System) : List Dispatch := s.conns.flatMap Conn.served

/-- Everything the app wrote. -/
def asked (s : System) : List Asked := s.conns.flatMap Conn.asked

end System

/-- What the two ends are built with. -/
structure Setting where
  os : Os
  version : String
  requests : Codec Request
  responses : Codec Response

/-- The request may be sent a second time: it changes nothing. -/
def Request.retriable : Request → Bool
  | .status | .ping => true
  | .connect _ | .connectMultihop _ | .disconnect => false

/-! ### Steps -/

/-- A step of the app, of the helper, or of the wire. -/
inductive Event
  /-- a call takes the lock -/
  | call (req : Request)
  /-- `dial`, with what the helper's authenticator will say -/
  | dial (found : Except IoError Bool)
  /-- `write_frame` of the app; it may fail after some bytes -/
  | write (failed : Option (Nat × IoError))
  /-- `read_frame` of the app, which may time out -/
  | read (failed : Option IoError)
  | carryUp (conn n : Nat)
  | carryDown (conn n : Nat)
  /-- the check of the peer, and the refusal, whose write may fail -/
  | authenticate (conn : Nat) (failed : Option Nat)
  /-- `read_frame` of the helper -/
  | receive (conn : Nat)
  /-- `dispatch`, with what the tunnel manager makes of it -/
  | dispatch (conn : Nat) (result : Except TunnelError TunnelStatus)
  /-- `write_frame` of the helper -/
  | respond (conn : Nat) (failed : Option Nat)
  /-- a read fails, or the helper is stopped -/
  | stop (conn : Nat)
  /-- another peer connects -/
  | intrude (authorised : Bool)
  /-- and writes -/
  | inject (conn : Nat) (bytes : List UInt8)

namespace System

variable (env : Setting)

/-- The failure of an exchange: the connection is dropped, and a call that only
asks is made once more. -/
def fail (s : System) (id : Nat) (req : Request) (i : Nat) (c : Conn) (second : Bool)
    (e : IoError) : System :=
  let s := { s with conns := s.conns.set i { c with isOpen := false } }
  if second then
    { s with phase := .idle, returned := s.returned ++ [(id, .error (.fromIo env.os e))] }
  else if req.retriable then { s with pool := none, phase := .dialling id req true }
  else
    { s with
      pool := none, phase := .idle, returned := s.returned ++ [(id, .error (.fromIo env.os e))] }

/-- A reply: its connection is kept, unless it is a refusal. -/
def finish (s : System) (id i : Nat) (c : Conn) (second : Bool) (resp : Response) : System :=
  let refused : Bool := resp = .refusal
  { s with
    conns := s.conns.set i { c with isOpen := ! refused }
    pool := if refused then none else if second then some i else s.pool
    phase := .idle
    returned := s.returned ++ [(id, .ok resp)] }

/-- A step of `request`. -/
def client (s : System) : Event → Option System
  | .call req =>
      match s.phase with
      | .idle => some { s with
          calls := s.calls ++ [req]
          phase := match s.pool with
            | none => .dialling s.calls.length req false
            | some i => .writing s.calls.length req i false }
      | _ => none
  | .dial found =>
      match s.phase, found with
      | .dialling id _ _, .error e => some { s with
          phase := .idle, returned := s.returned ++ [(id, .error (.fromIo env.os e))] }
      | .dialling id req second, .ok authorised => some { s with
          conns := s.conns ++ [.new true authorised]
          pool := if second then s.pool else some s.conns.length
          phase := .writing id req s.conns.length second }
      | _, _ => none
  | .write failed =>
      match s.phase with
      | .writing id req i second =>
          match s.conns[i]?, writeFrame env.requests req, failed with
          | some c, .error e, _ => some (s.fail env id req i c second e)
          | some c, .ok bytes, some (n, e) =>
              if n < bytes.length then
                some (s.fail env id req i
                  { c with up := c.up.breakOff 4 (env.requests.toVec req) n } second e)
              else none
          | some c, .ok _, none => some { s with
              conns := s.conns.set i { c with
                up := c.up.send 4 (env.requests.toVec req), asked := c.asked ++ [⟨id, req⟩] }
              phase := .reading id req i second }
          | none, _, _ => none
      | _ => none
  | .read failed =>
      match s.phase with
      | .reading id req i second =>
          match s.conns[i]?, failed with
          | some c, some e => some (s.fail env id req i c second e)
          | some c, none =>
              match readFrame env.responses (c.server = .ended ∧ c.down.flying = [])
                  c.down.held with
              | some (.error e) => some (s.fail env id req i c second e)
              | some (.ok (resp, _)) => (c.down.receive 4).map fun read =>
                  s.finish id i { c with down := read.2 } second resp
              | none => none
          | none, _ => none
      | _ => none
  | _ => none

end System

namespace Conn

variable (env : Setting)

/-- A step of `serve`, or of the bytes on the way. -/
def serve (c : Conn) : Event → Option Conn
  | .carryUp _ n => some { c with up := c.up.carry n }
  | .carryDown _ n => some { c with down := c.down.carry n }
  | .authenticate _ failed =>
      match c.server, c.authorised, failed with
      | .accepted, true, _ => some { c with server := .reading }
      | .accepted, false, failed =>
          match writeFrame env.responses .refusal, failed with
          | .error _, _ => some { c with server := .ended }
          | .ok _, none => some { c with
              down := c.down.send 4 (env.responses.toVec .refusal), server := .ended }
          | .ok bytes, some n =>
              if n < bytes.length then some { c with
                down := c.down.breakOff 4 (env.responses.toVec .refusal) n, server := .ended }
              else none
      | _, _, _ => none
  | .receive _ =>
      match c.server with
      | .reading =>
          match readFrame env.requests (! c.isOpen ∧ c.up.flying = []) c.up.held with
          | some (.error _) => some { c with server := .ended }
          | some (.ok (req, _)) => (c.up.receive 4).map fun read =>
              { c with up := read.2, server := .serving req }
          | none => none
      | _ => none
  | .dispatch _ result =>
      match c.server with
      | .serving req =>
          let response := Helper.dispatch env.version req result
          some { c with
            server := .replying response
            served := c.served ++ [⟨c.asked[c.served.length]?.map Asked.call, req, response⟩] }
      | _ => none
  | .respond _ failed =>
      match c.server with
      | .replying response =>
          match writeFrame env.responses response, failed with
          | .error _, _ => some { c with server := .ended }
          | .ok _, none => some { c with
              down := c.down.send 4 (env.responses.toVec response), server := .reading }
          | .ok bytes, some n =>
              if n < bytes.length then some { c with
                down := c.down.breakOff 4 (env.responses.toVec response) n, server := .ended }
              else none
      | _ => none
  | .stop _ => some { c with server := .ended }
  | .inject _ bytes =>
      if c.app then none else some { c with up := { c.up with flying := c.up.flying ++ bytes } }
  | _ => none

end Conn

/-- The connection that an event of the helper is about. -/
def Event.conn : Event → Option Nat
  | .carryUp i _ | .carryDown i _ | .authenticate i _ | .receive i | .dispatch i _ | .respond i _
  | .stop i | .inject i _ => some i
  | _ => none

/-- The system after a step; none where nobody is at it. -/
def step (env : Setting) (s : System) (e : Event) : Option System :=
  match e, e.conn with
  | _, some i =>
      (s.conns[i]?).bind fun c => (c.serve env e).map fun c' => { s with conns := s.conns.set i c' }
  | .intrude authorised, none => some { s with conns := s.conns ++ [.new false authorised] }
  | e, none => s.client env e

/-! ### What a step can do -/

/-- **Every step of the helper, and of the bytes on the way.** -/
inductive Serves (env : Setting) (c : Conn) : Conn → Prop
  | carriedUp (n : Nat) : Serves env c { c with up := c.up.carry n }
  | carriedDown (n : Nat) : Serves env c { c with down := c.down.carry n }
  | admitted (h : c.server = .accepted) (hauth : c.authorised = true) :
      Serves env c { c with server := .reading }
  | refused (h : c.server = .accepted) (hauth : c.authorised = false)
      (hsize : (env.responses.toVec .refusal).length ≤ maxFrame) :
      Serves env c { c with down := c.down.send 4 (env.responses.toVec .refusal), server := .ended }
  | refusalFailed {n : Nat} (h : c.server = .accepted)
      (hsize : (env.responses.toVec .refusal).length ≤ maxFrame)
      (hn : n < (frame 4 (env.responses.toVec .refusal)).length) :
      Serves env c
        { c with down := c.down.breakOff 4 (env.responses.toVec .refusal) n, server := .ended }
  | received {body : List UInt8} {l : Link} {req : Request} (h : c.server = .reading)
      (hl : c.up.receive 4 = some (body, l)) (hread : env.requests.fromSlice body = .ok req) :
      Serves env c { c with up := l, server := .serving req }
  | dispatched {req : Request} (h : c.server = .serving req)
      (result : Except TunnelError TunnelStatus) :
      Serves env c
        { c with
          server := .replying (dispatch env.version req result)
          served := c.served ++ [⟨c.asked[c.served.length]?.map Asked.call, req,
            dispatch env.version req result⟩] }
  | responded {resp : Response} (h : c.server = .replying resp)
      (hsize : (env.responses.toVec resp).length ≤ maxFrame) :
      Serves env c { c with down := c.down.send 4 (env.responses.toVec resp), server := .reading }
  | respondFailed {resp : Response} {n : Nat} (h : c.server = .replying resp)
      (hsize : (env.responses.toVec resp).length ≤ maxFrame)
      (hn : n < (frame 4 (env.responses.toVec resp)).length) :
      Serves env c
        { c with down := c.down.breakOff 4 (env.responses.toVec resp) n, server := .ended }
  | ended : Serves env c { c with server := .ended }
  | injected (h : c.app = false) (bytes : List UInt8) :
      Serves env c { c with up := { c.up with flying := c.up.flying ++ bytes } }

/-- **Every step of the app's calls**, and the arrival of other peers. -/
inductive Asks (env : Setting) (s : System) : System → Prop
  | called (req : Request) (h : s.phase = .idle) :
      Asks env s
        { s with
          calls := s.calls ++ [req]
          phase := match s.pool with
            | none => .dialling s.calls.length req false
            | some i => .writing s.calls.length req i false }
  | dialFailed {id : Nat} {req : Request} {second : Bool} (h : s.phase = .dialling id req second)
      (e : IoError) :
      Asks env s
        { s with phase := .idle, returned := s.returned ++ [(id, .error (.fromIo env.os e))] }
  | dialled {id : Nat} {req : Request} {second : Bool} (h : s.phase = .dialling id req second)
      (authorised : Bool) :
      Asks env s
        { s with
          conns := s.conns ++ [.new true authorised]
          pool := if second then s.pool else some s.conns.length
          phase := .writing id req s.conns.length second }
  | notWritten {id i : Nat} {req : Request} {second : Bool} {c : Conn}
      (h : s.phase = .writing id req i second) (hc : s.conns[i]? = some c) (e : IoError) :
      Asks env s (s.fail env id req i c second e)
  | writeFailed {id i n : Nat} {req : Request} {second : Bool} {c : Conn}
      (h : s.phase = .writing id req i second) (hc : s.conns[i]? = some c)
      (hsize : (env.requests.toVec req).length ≤ maxFrame)
      (hn : n < (frame 4 (env.requests.toVec req)).length) (e : IoError) :
      Asks env s
        (s.fail env id req i { c with up := c.up.breakOff 4 (env.requests.toVec req) n } second e)
  | written {id i : Nat} {req : Request} {second : Bool} {c : Conn}
      (h : s.phase = .writing id req i second) (hc : s.conns[i]? = some c)
      (hsize : (env.requests.toVec req).length ≤ maxFrame) :
      Asks env s
        { s with
          conns := s.conns.set i { c with
            up := c.up.send 4 (env.requests.toVec req), asked := c.asked ++ [⟨id, req⟩] }
          phase := .reading id req i second }
  | readFailed {id i : Nat} {req : Request} {second : Bool} {c : Conn}
      (h : s.phase = .reading id req i second) (hc : s.conns[i]? = some c) (e : IoError) :
      Asks env s (s.fail env id req i c second e)
  | replied {id i : Nat} {req : Request} {second : Bool} {c : Conn} {body : List UInt8} {l : Link}
      {resp : Response} (h : s.phase = .reading id req i second) (hc : s.conns[i]? = some c)
      (hl : c.down.receive 4 = some (body, l)) (hread : env.responses.fromSlice body = .ok resp) :
      Asks env s (s.finish id i { c with down := l } second resp)
  | intruded (authorised : Bool) :
      Asks env s { s with conns := s.conns ++ [.new false authorised] }

section Moves

variable {env : Setting}

/-- A message that is read is a body that is received. -/
lemma receive_of_readFrame {α : Type} {c : Codec α} {closed : Bool} {l l' : Link} {value : α}
    {body rest : List UInt8} (hread : readFrame c closed l.held = some (.ok (value, rest)))
    (hl : l.receive 4 = some (body, l')) : c.fromSlice body = .ok value := by
  obtain ⟨body', -, hpop, hslice⟩ := readFrame_eq_ok_iff.mp hread
  have hpop' := (Link.receive_eq_some hl).2.2.2.2
  rw [hpop] at hpop'
  rwa [(Prod.mk.inj (Option.some.inj hpop')).1] at hslice

lemma serve_serves {c c' : Conn} {e : Event} (h : c.serve env e = some c') : Serves env c c' := by
  unfold Conn.serve at h
  split at h
  · cases h
    exact .carriedUp _
  · cases h
    exact .carriedDown _
  · split at h
    · cases h
      exact .admitted ‹_› ‹_›
    · split at h
      · cases h
        exact .ended
      · rename_i hw
        cases h
        exact .refused ‹_› ‹_› (writeFrame_eq_ok hw).2
      · rename_i hw
        split at h <;> cases h
        obtain ⟨rfl, hsize⟩ := writeFrame_eq_ok hw
        exact .refusalFailed ‹_› hsize ‹_›
    · cases h
  · split at h
    · split at h
      · cases h
        exact .ended
      · rename_i hread
        obtain ⟨⟨body, l⟩, hl, rfl⟩ := Option.map_eq_some_iff.mp h
        exact .received ‹_› hl (receive_of_readFrame hread hl)
      · cases h
    · cases h
  · split at h
    · cases h
      exact .dispatched ‹_› _
    · cases h
  · split at h
    · split at h
      · cases h
        exact .ended
      · rename_i hw
        cases h
        exact .responded ‹_› (writeFrame_eq_ok hw).2
      · rename_i hw
        split at h <;> cases h
        obtain ⟨rfl, hsize⟩ := writeFrame_eq_ok hw
        exact .respondFailed ‹_› hsize ‹_›
    · cases h
  · cases h
    exact .ended
  · split at h <;> cases h
    rename_i happ
    exact .injected (Bool.eq_false_iff.mpr happ) _
  · cases h

lemma client_asks {s s' : System} {e : Event} (h : s.client env e = some s') : Asks env s s' := by
  unfold System.client at h
  split at h
  · split at h <;> cases h
    exact .called _ ‹_›
  · split at h <;> cases h
    · exact .dialFailed ‹_› _
    · exact .dialled ‹_› _
  · split at h
    · split at h
      · cases h
        exact .notWritten ‹_› ‹_› _
      · rename_i hw
        split at h <;> cases h
        obtain ⟨rfl, hsize⟩ := writeFrame_eq_ok hw
        exact .writeFailed ‹_› ‹_› hsize ‹_› _
      · rename_i hw
        cases h
        exact .written ‹_› ‹_› (writeFrame_eq_ok hw).2
      · cases h
    · cases h
  · split at h
    · split at h
      · cases h
        exact .readFailed ‹_› ‹_› _
      · split at h
        · cases h
          exact .readFailed ‹_› ‹_› _
        · rename_i hread
          obtain ⟨⟨body, l⟩, hl, rfl⟩ := Option.map_eq_some_iff.mp h
          exact .replied ‹_› ‹_› hl (receive_of_readFrame hread hl)
        · cases h
      · cases h
    · cases h
  · cases h

/-- **A step is one of a call, or one of the helper on one connection.** -/
theorem step_moves {s s' : System} {e : Event} (h : step env s e = some s') :
    Asks env s s' ∨
      ∃ i c c', s.conns[i]? = some c ∧ Serves env c c' ∧
        s' = { s with conns := s.conns.set i c' } := by
  unfold step at h
  split at h
  · obtain ⟨c, hc, hmap⟩ := Option.bind_eq_some_iff.mp h
    obtain ⟨c', hserve, rfl⟩ := Option.map_eq_some_iff.mp hmap
    exact .inr ⟨_, c, c', hc, serve_serves hserve, rfl⟩
  · cases h
    exact .inl (.intruded _)
  · exact .inl (client_asks h)

end Moves

end CumulusVpn.Desktop.Helper
