/-
Replies of the privileged helper, over all runs of the two ends.

* `Conn.Answers`: a connection answers what it has served, or refuses;
* `Conn.Hears`: it serves what was asked, in order and once;
* `System.Stands`: where a call stands; `Phase.left`: how often it may still be
  sent;
* `answers_own`: **a reply belongs to the call that returns it**;
* `dispatched_once`: **a command is dispatched at most once for a call**, and a
  status poll at most twice;
* `refused_unheard`: **a refused peer is told so and never read**.
-/
import CumulusVpn.Desktop.HelperCalls

namespace CumulusVpn.Desktop.Helper

open Framing StepSystem

variable {env : Setting}

/-! ### One connection -/

namespace Conn

/-- The replies that are due, as texts. -/
def replies (env : Setting) (c : Conn) : List (List UInt8) :=
  c.served.map fun d => env.responses.toVec d.response

/-- Everything that may be said on a connection. -/
def due (env : Setting) (c : Conn) : List (List UInt8) :=
  if c.authorised then c.replies env else [env.responses.toVec .refusal]

/-- What the thread has to say before it reads on. -/
def Pending (env : Setting) (c : Conn) : Prop :=
  match c.server with
  | .accepted => c.down.sent = [] ∧ c.served = [] ∧ c.up.received = []
  | .reading | .serving _ => c.authorised = true ∧ c.down.sent = c.replies env
  | .replying resp =>
      c.authorised = true ∧ c.down.sent ++ [env.responses.toVec resp] = c.replies env
  | .ended => True

/-- **The helper answers what it has served, or refuses.** -/
structure Answers (env : Setting) (c : Conn) : Prop where
  down : c.down.Sound 4
  cut : c.server ≠ .ended → c.down.cut = []
  sent : c.down.sent <+: c.due env
  pending : c.Pending env
  refused : c.authorised = false → c.served = [] ∧ c.up.received = []
  own : ∀ d ∈ c.served, d.response ≠ .refusal

/-- What the thread has heard of what was asked. -/
def Heard (env : Setting) (c : Conn) : Prop :=
  match c.server with
  | .accepted | .reading | .replying _ => c.up.received.length = c.served.length
  | .serving req =>
      c.up.received.length = c.served.length + 1 ∧
        ∃ a, c.asked[c.served.length]? = some a ∧ env.requests.Reads a.request req
  | .ended => True

/-- A request that was served was asked at the same place. -/
def Matches (env : Setting) (a : Asked) (d : Dispatch) : Prop :=
  d.call = some a.call ∧ env.requests.Reads a.request d.request

/-- **The helper serves what the app asked, in order and once.** -/
structure Hears (env : Setting) (c : Conn) : Prop where
  up : c.up.Sound 4
  cut : c.isOpen = true → c.up.cut = []
  asked : c.up.sent = c.asked.map fun a => env.requests.toVec a.request
  heard : c.Heard env
  served : ∀ (k : Nat) (d : Dispatch), c.served[k]? = some d →
    ∃ a, c.asked[k]? = some a ∧ Matches env a d

/-- No call of the app is served on a connection of another peer. -/
structure Foreign (c : Conn) : Prop where
  asked : c.asked = []
  served : ∀ d ∈ c.served, d.call = none

/-- What a connection has said and heard fits. -/
structure Ok (env : Setting) (c : Conn) : Prop where
  answers : c.Answers env
  hears : c.app = true → c.Hears env
  foreign : c.app = false → c.Foreign

section Serves

variable {c c' : Conn}

lemma replies_concat (c : Conn) (d : Dispatch) (server : Server) :
    replies env { c with server := server, served := c.served ++ [d] } =
      c.replies env ++ [env.responses.toVec d.response] := by
  simp [replies]

lemma Answers.step (h : c.Answers env) (hs : Serves env c c') : c'.Answers env := by
  have hpending := h.pending
  cases hs with
  | carriedUp n => exact ⟨h.down, h.cut, h.sent, h.pending, h.refused, h.own⟩
  | carriedDown n => exact ⟨h.down.carry n, h.cut, h.sent, h.pending, h.refused, h.own⟩
  | admitted hserver hauth =>
      rw [Pending, hserver] at hpending
      obtain ⟨hsent, hserved, -⟩ := hpending
      refine ⟨h.down, fun _ => h.cut (by simp [hserver]), h.sent, ⟨hauth, ?_⟩, h.refused, h.own⟩
      show c.down.sent = c.replies env
      rw [hsent, replies, hserved, List.map_nil]
  | refused hserver hauth hsize =>
      rw [Pending, hserver] at hpending
      obtain ⟨hsent, -, -⟩ := hpending
      refine ⟨h.down.send (h.cut (by simp [hserver])) (fits_of_le hsize), fun hne => absurd rfl hne,
        ?_, trivial, h.refused, h.own⟩
      show c.down.sent ++ [_] <+: due env c
      rw [hsent, due, hauth]
      exact List.prefix_rfl
  | refusalFailed hserver hsize hn =>
      exact ⟨h.down.breakOff (h.cut (by simp [hserver])) (fits_of_le hsize) hn,
        fun hne => absurd rfl hne, h.sent, trivial, h.refused, h.own⟩
  | @received body l req hserver hl hread =>
      rw [Pending, hserver] at hpending
      obtain ⟨hauth, hsent⟩ := hpending
      refine ⟨h.down, fun _ => h.cut (by simp [hserver]), h.sent, ⟨hauth, hsent⟩, fun hfalse => ?_,
        h.own⟩
      rw [hauth] at hfalse
      cases hfalse
  | @dispatched req hserver result =>
      rw [Pending, hserver] at hpending
      obtain ⟨hauth, hsent⟩ := hpending
      let d : Dispatch := ⟨c.asked[c.served.length]?.map Asked.call, req,
        dispatch env.version req result⟩
      have hreplies : replies env
        { c with server := .replying d.response, served := c.served ++ [d] } =
          c.replies env ++ [env.responses.toVec d.response] := replies_concat c d _
      refine ⟨h.down, fun _ => h.cut (by simp [hserver]), ?_, ⟨hauth, ?_⟩, ?_,
        List.forall_mem_append.mpr ⟨h.own, ?_⟩⟩
      · show c.down.sent <+: if c.authorised then _ else _
        rw [if_pos hauth, hreplies, ← hsent]
        exact List.prefix_append _ _
      · show c.down.sent ++ [_] = _
        rw [hreplies, hsent]
      · intro hfalse
        have hboth : c.authorised = false := hfalse
        rw [hauth] at hboth
        cases hboth
      · intro d hd
        rw [List.mem_singleton.mp hd]
        exact dispatch_ne_refusal _ _ _
  | responded hserver hsize =>
      rw [Pending, hserver] at hpending
      obtain ⟨hauth, hsent⟩ := hpending
      refine ⟨h.down.send (h.cut (by simp [hserver])) (fits_of_le hsize),
        fun _ => h.cut (by simp [hserver]), ?_, ⟨hauth, hsent⟩, h.refused, h.own⟩
      show c.down.sent ++ [_] <+: due env c
      rw [hsent, due, if_pos hauth]
  | respondFailed hserver hsize hn =>
      exact ⟨h.down.breakOff (h.cut (by simp [hserver])) (fits_of_le hsize) hn,
        fun hne => absurd rfl hne, h.sent, trivial, h.refused, h.own⟩
  | ended => exact ⟨h.down, fun hne => absurd rfl hne, h.sent, trivial, h.refused, h.own⟩
  | injected _ bytes => exact ⟨h.down, h.cut, h.sent, h.pending, h.refused, h.own⟩

/-- What the helper reads at a place is what was asked there. -/
lemma Hears.reads (h : c.Hears env) {body : List UInt8} {l : Link} {req : Request}
    (hl : c.up.receive 4 = some (body, l)) (hread : env.requests.fromSlice body = .ok req) :
    ∃ a, c.asked[c.up.received.length]? = some a ∧ env.requests.Reads a.request req := by
  have hprefix := (h.up.receive hl).prefix_sent (by omega)
  obtain ⟨hsent, hreceived, -, -, -⟩ := Link.receive_eq_some hl
  rw [hsent, hreceived] at hprefix
  have hat : c.up.sent[c.up.received.length]? = some body := by
    obtain ⟨more, hmore⟩ := hprefix
    rw [← hmore]
    simp
  rw [h.asked, List.getElem?_map] at hat
  obtain ⟨a, ha, rfl⟩ := Option.map_eq_some_iff.mp hat
  exact ⟨a, ha, hread⟩

lemma Hears.step (h : c.Hears env) (happ : c.app = true) (hs : Serves env c c') : c'.Hears env := by
  have hheard := h.heard
  cases hs with
  | carriedUp n => exact ⟨h.up.carry n, h.cut, h.asked, h.heard, h.served⟩
  | carriedDown n => exact ⟨h.up, h.cut, h.asked, h.heard, h.served⟩
  | admitted hserver _ =>
      rw [Heard, hserver] at hheard
      exact ⟨h.up, h.cut, h.asked, hheard, h.served⟩
  | refused _ _ _ => exact ⟨h.up, h.cut, h.asked, trivial, h.served⟩
  | refusalFailed _ _ _ => exact ⟨h.up, h.cut, h.asked, trivial, h.served⟩
  | @received body l req hserver hl hread =>
      rw [Heard, hserver] at hheard
      obtain ⟨a, ha, hreads⟩ := h.reads hl hread
      obtain ⟨hsent, hreceived, -, hcut, -⟩ := Link.receive_eq_some hl
      refine ⟨h.up.receive hl, fun hopen => hcut.trans (h.cut hopen), hsent.trans h.asked,
        ⟨?_, a, ?_, hreads⟩, h.served⟩
      · show l.received.length = c.served.length + 1
        rw [hreceived, List.length_append, List.length_singleton, hheard]
      · rwa [hheard] at ha
  | @dispatched req hserver result =>
      rw [Heard, hserver] at hheard
      obtain ⟨hlength, a, ha, hreads⟩ := hheard
      refine ⟨h.up, h.cut, h.asked, ?_, ?_⟩
      · show c.up.received.length = (c.served ++ [_]).length
        rw [hlength, List.length_append, List.length_singleton]
      · intro k d hd
        rcases Nat.lt_trichotomy k c.served.length with hlt | rfl | hgt
        · rw [List.getElem?_append_left hlt] at hd
          exact h.served k d hd
        · rw [List.getElem?_append_right (Nat.le_refl _), Nat.sub_self] at hd
          obtain rfl := Option.some.inj hd
          exact ⟨a, ha, congrArg (Option.map Asked.call) ha, hreads⟩
        · rw [List.getElem?_eq_none
            (by rw [List.length_append, List.length_singleton]; exact hgt)] at hd
          cases hd
  | responded hserver _ =>
      rw [Heard, hserver] at hheard
      exact ⟨h.up, h.cut, h.asked, hheard, h.served⟩
  | respondFailed _ _ _ => exact ⟨h.up, h.cut, h.asked, trivial, h.served⟩
  | ended => exact ⟨h.up, h.cut, h.asked, trivial, h.served⟩
  | injected hforeign _ =>
      rw [happ] at hforeign
      cases hforeign

lemma Foreign.step (h : c.Foreign) (hs : Serves env c c') : c'.Foreign := by
  cases hs with
  | @dispatched req hserver result =>
      refine ⟨h.asked, fun d hd => (List.mem_append.mp hd).elim (h.served d) fun hlast => ?_⟩
      rw [List.mem_singleton.mp hlast, h.asked]
      rfl
  | _ => exact ⟨h.asked, h.served⟩

/-- What a step of the helper leaves alone. -/
structure Kept (c c' : Conn) : Prop where
  app : c'.app = c.app
  authorised : c'.authorised = c.authorised
  isOpen : c'.isOpen = c.isOpen
  asked : c'.asked = c.asked
  got : c'.down.received = c.down.received
  served : c.served <+: c'.served

lemma kept_of_serves (hs : Serves env c c') : Kept c c' := by
  cases hs with
  | dispatched => exact ⟨rfl, rfl, rfl, rfl, rfl, List.prefix_append _ _⟩
  | _ => exact ⟨rfl, rfl, rfl, rfl, rfl, List.prefix_rfl⟩

lemma Ok.step (h : c.Ok env) (hs : Serves env c c') : c'.Ok env := by
  have hkept := kept_of_serves hs
  refine ⟨h.answers.step hs, fun happ => ?_, fun happ => ?_⟩
  · rw [hkept.app] at happ
    exact (h.hears happ).step happ hs
  · rw [hkept.app] at happ
    exact (h.foreign happ).step hs

lemma Ok.new (app authorised : Bool) : (Conn.new app authorised).Ok env where
  answers := ⟨.new (by omega), fun _ => rfl, List.nil_prefix, ⟨rfl, rfl, rfl⟩, fun _ => ⟨rfl, rfl⟩,
    by simp [Conn.new]⟩
  hears := fun _ => ⟨.new (by omega), fun _ => rfl, rfl, rfl, by simp [Conn.new]⟩
  foreign := fun _ => ⟨rfl, by simp [Conn.new]⟩

end Serves

/-! ### The app's end of a connection -/

/-- Every request on the connection has its reply. -/
structure Quiet (c : Conn) : Prop where
  app : c.app = true
  isOpen : c.isOpen = true
  even : c.asked.length = c.down.received.length

/-- The last request on the connection has no reply yet. -/
structure Waiting (a : Asked) (c : Conn) : Prop where
  app : c.app = true
  isOpen : c.isOpen = true
  behind : c.asked.length = c.down.received.length + 1
  last : c.asked[c.down.received.length]? = some a

section Asks

variable {c c' : Conn} {a : Asked}

lemma Quiet.kept (h : c.Quiet) (hkept : Kept c c') : c'.Quiet :=
  ⟨hkept.app.trans h.app, hkept.isOpen.trans h.isOpen, by rw [hkept.asked, hkept.got, h.even]⟩

lemma Waiting.kept (h : c.Waiting a) (hkept : Kept c c') : c'.Waiting a :=
  ⟨hkept.app.trans h.app, hkept.isOpen.trans h.isOpen, by rw [hkept.asked, hkept.got, h.behind],
    by rw [hkept.asked, hkept.got, h.last]⟩

lemma Quiet.ask (h : c.Quiet) (l : Link) :
    Waiting a { c with up := l, asked := c.asked ++ [a] } where
  app := h.app
  isOpen := h.isOpen
  behind := by
    show (c.asked ++ [a]).length = _
    rw [List.length_append, List.length_singleton, h.even]
  last := by
    show (c.asked ++ [a])[c.down.received.length]? = _
    rw [← h.even]
    simp

lemma Waiting.get (h : c.Waiting a) {body : List UInt8} {l : Link}
    (hl : c.down.receive 4 = some (body, l)) : Quiet { c with down := l } where
  app := h.app
  isOpen := h.isOpen
  even := by
    show c.asked.length = l.received.length
    rw [h.behind, (Link.receive_eq_some hl).2.1, List.length_append, List.length_singleton]

/-- The app may hang up at any time. -/
lemma Ok.drop (h : c.Ok env) (isOpen : Bool) (hopen : isOpen = true → c.isOpen = true) :
    Ok env { c with isOpen := isOpen } where
  answers := ⟨h.answers.down, h.answers.cut, h.answers.sent, h.answers.pending, h.answers.refused,
    h.answers.own⟩
  hears := fun happ =>
    have hh := h.hears happ
    ⟨hh.up, fun hyes => hh.cut (hopen hyes), hh.asked, hh.heard, hh.served⟩
  foreign := fun happ => ⟨(h.foreign happ).asked, (h.foreign happ).served⟩

/-- It also hangs up after a frame that it could not write to the end. -/
lemma Ok.breakOff (h : c.Ok env) (hq : c.Quiet) {body : List UInt8} (hsize : body.length ≤ maxFrame)
    {n : Nat} (hn : n < (frame 4 body).length) :
    Ok env { c with up := c.up.breakOff 4 body n, isOpen := false } where
  answers := ⟨h.answers.down, h.answers.cut, h.answers.sent, h.answers.pending, h.answers.refused,
    h.answers.own⟩
  hears := fun happ =>
    have hh := h.hears happ
    ⟨hh.up.breakOff (hh.cut hq.isOpen) (fits_of_le hsize) hn, (fun hyes => by cases hyes), hh.asked,
      hh.heard, hh.served⟩
  foreign := fun happ => ⟨(h.foreign happ).asked, (h.foreign happ).served⟩

lemma Ok.ask (h : c.Ok env) (hq : c.Quiet) (id : Nat) {req : Request}
    (hsize : (env.requests.toVec req).length ≤ maxFrame) :
    Ok env
      { c with up := c.up.send 4 (env.requests.toVec req), asked := c.asked ++ [⟨id, req⟩] } where
  answers := ⟨h.answers.down, h.answers.cut, h.answers.sent, h.answers.pending, h.answers.refused,
    h.answers.own⟩
  hears := fun happ => by
    have hh := h.hears happ
    -- what was asked before stays at its place
    have hstay : ∀ (k : Nat) a, c.asked[k]? = some a →
        (c.asked ++ [(⟨id, req⟩ : Asked)])[k]? = some a := by
      intro k a ha
      rwa [List.getElem?_append_left (List.getElem?_eq_some_iff.mp ha).1]
    refine ⟨hh.up.send (hh.cut hq.isOpen) (fits_of_le hsize), hh.cut, ?_, ?_, ?_⟩
    · show c.up.sent ++ [_] = _
      rw [hh.asked, List.map_append]
      rfl
    · have hheard := hh.heard
      unfold Heard at hheard ⊢
      cases hserver : c.server with
      | serving req' =>
          rw [hserver] at hheard
          obtain ⟨hlength, a, ha, hreads⟩ := hheard
          exact ⟨hlength, a, hstay _ a ha, hreads⟩
      | _ =>
          rw [hserver] at hheard
          exact hheard
    · intro k d hd
      obtain ⟨a, ha, hmatch⟩ := hh.served k d hd
      exact ⟨a, hstay k a ha, hmatch⟩
  foreign := fun happ => by
    have hforeign : c.app = false := happ
    rw [hq.app] at hforeign
    cases hforeign

lemma Ok.get (h : c.Ok env) {body : List UInt8} {l : Link}
    (hl : c.down.receive 4 = some (body, l)) : Ok env { c with down := l } where
  answers := by
    obtain ⟨hsent, -, -, hcut, -⟩ := Link.receive_eq_some hl
    refine ⟨h.answers.down.receive hl, fun hne => hcut.trans (h.answers.cut hne), ?_, ?_,
      h.answers.refused,
    h.answers.own⟩
    · show l.sent <+: c.due env
      rw [hsent]
      exact h.answers.sent
    · have hpending := h.answers.pending
      unfold Pending at hpending ⊢
      rwa [← hsent] at hpending
  hears := fun happ =>
    have hh := h.hears happ
    ⟨hh.up, hh.cut, hh.asked, hh.heard, hh.served⟩
  foreign := fun happ => ⟨(h.foreign happ).asked, (h.foreign happ).served⟩

/-- **What the app reads answers the request that it waits for**, or is a
refusal. -/
theorem Ok.reply (h : c.Ok env) (hw : c.Waiting a) {body : List UInt8} {l : Link} {resp : Response}
    (hl : c.down.receive 4 = some (body, l)) (hread : env.responses.fromSlice body = .ok resp) :
    (∃ d ∈ c.served, d.call = some a.call ∧ env.responses.Reads d.response resp) ∨
      (c.authorised = false ∧ env.responses.Reads .refusal resp) := by
  have hprefix := (h.answers.down.receive hl).prefix_sent (by omega)
  obtain ⟨hsent, hreceived, -, -, -⟩ := Link.receive_eq_some hl
  rw [hsent, hreceived] at hprefix
  -- the place of the reply is the place of the request
  have hat : (c.due env)[c.down.received.length]? = some body := by
    obtain ⟨more, hmore⟩ := hprefix.trans h.answers.sent
    rw [← hmore]
    simp
  rw [due] at hat
  split at hat
  · rw [replies, List.getElem?_map] at hat
    obtain ⟨d, hd, rfl⟩ := Option.map_eq_some_iff.mp hat
    obtain ⟨a', ha', hcall, -⟩ := (h.hears hw.app).served _ d hd
    obtain rfl := Option.some.inj (hw.last.symm.trans ha')
    exact .inl ⟨d, List.mem_of_getElem? hd, hcall, hread⟩
  · rename_i hauth
    obtain rfl := List.mem_singleton.mp (List.mem_of_getElem? hat)
    exact .inr ⟨Bool.eq_false_iff.mpr hauth, hread⟩

end Asks

end Conn

/-! ### All connections -/

/-- One connection of a list. -/
def At (conns : List Conn) (i : Nat) (P : Conn → Prop) : Prop := ∃ c, conns[i]? = some c ∧ P c

section Conns

variable {conns : List Conn} {i j : Nat} {c c' : Conn} {P : Conn → Prop}

lemma exists_split (h : conns[i]? = some c) :
    ∃ before after, conns = before ++ c :: after ∧
      ∀ c', conns.set i c' = before ++ c' :: after := by
  obtain ⟨hi, rfl⟩ := List.getElem?_eq_some_iff.mp h
  refine ⟨conns.take i, conns.drop (i + 1), ?_,
    fun c' => List.set_eq_take_append_cons_drop ▸ if_pos hi⟩
  rw [List.getElem_cons_drop, List.take_append_drop]

lemma At.set_of (h : At conns i P) (hc : conns[j]? = some c) (hP : j = i → P c → P c') :
    At (conns.set j c') i P := by
  obtain ⟨d, hd, hPd⟩ := h
  have hj := (List.getElem?_eq_some_iff.mp hc).1
  by_cases hij : j = i
  · subst hij
    obtain rfl := Option.some.inj (hd.symm.trans hc)
    exact ⟨c', by rw [List.getElem?_set_self hj], hP rfl hPd⟩
  · exact ⟨d, by rw [List.getElem?_set_ne hij, hd], hPd⟩

lemma At.set (h : At conns i P) (hc : conns[j]? = some c) (hP : P c → P c') :
    At (conns.set j c') i P := h.set_of hc fun _ => hP

lemma At.set_self (hc : conns[i]? = some c) (hP : P c') : At (conns.set i c') i P :=
  ⟨c', List.getElem?_set_self (List.getElem?_eq_some_iff.mp hc).1, hP⟩

lemma At.append (h : At conns i P) (more : List Conn) : At (conns ++ more) i P := by
  obtain ⟨c, hc, hP⟩ := h
  exact ⟨c, by rw [List.getElem?_append_left (List.getElem?_eq_some_iff.mp hc).1, hc], hP⟩

lemma At.concat (c : Conn) (hP : P c) : At (conns ++ [c]) conns.length P :=
  ⟨c, by simp, hP⟩

lemma exists_mem_set (h : ∃ d ∈ conns, P d) (hc : conns[i]? = some c) (hP : P c → P c') :
    ∃ d ∈ conns.set i c', P d := by
  obtain ⟨d, hd, hPd⟩ := h
  obtain ⟨before, after, rfl, hset⟩ := exists_split hc
  rw [hset]
  rcases List.mem_append.mp hd with hbefore | hafter
  · exact ⟨d, List.mem_append_left _ hbefore, hPd⟩
  · rcases List.mem_cons.mp hafter with rfl | hafter
    · exact ⟨c', by simp, hP hPd⟩
    · exact ⟨d, by simp [hafter], hPd⟩

lemma forall_mem_set (h : ∀ d ∈ conns, P d) (hP : P c') : ∀ d ∈ conns.set i c', P d :=
  fun d hd => (List.mem_or_eq_of_mem_set hd).elim (h d) fun heq => heq ▸ hP

lemma flatMap_set {β : Type} {f : Conn → List β} (hc : conns[i]? = some c) (hf : f c' = f c) :
    (conns.set i c').flatMap f = conns.flatMap f := by
  obtain ⟨before, after, rfl, hset⟩ := exists_split hc
  rw [hset]
  simp [hf]

lemma perm_flatMap_set {β : Type} {f : Conn → List β} {b : β} (hc : conns[i]? = some c)
    (hf : f c' = f c ++ [b]) : ((conns.set i c').flatMap f).Perm (b :: conns.flatMap f) := by
  obtain ⟨before, after, rfl, hset⟩ := exists_split hc
  rw [hset]
  simp only [List.flatMap_append, List.flatMap_cons, hf, List.append_assoc]
  refine (List.Perm.append_left _ ?_).trans List.perm_middle
  exact List.perm_middle

end Conns

/-! ### Where a call stands -/

/-- How often a request may be written for one call. -/
def Request.budget (req : Request) : Nat := if req.retriable then 2 else 1

/-- How often the request of a call may still be written. -/
def Phase.left (phase : Phase) (k : Nat) : Nat :=
  match phase with
  | .idle => 0
  | .dialling id req second | .writing id req _ second =>
      if id = k then (if second then 1 else req.budget) else 0
  | .reading id req _ second => if id = k ∧ ¬ second then req.budget - 1 else 0

/-- The connection in hand is kept, unless it is a second one. -/
def kept (second : Bool) (i : Nat) : Option Nat := if second then none else some i

/-- **Where a call stands.** -/
def Phase.Stands (phase : Phase) (conns : List Conn) (pool : Option Nat)
    (calls : List Request) : Prop :=
  match phase with
  | .idle => ∀ i, pool = some i → At conns i Conn.Quiet
  | .dialling id req second =>
      calls[id]? = some req ∧ (second = true → req.retriable = true) ∧ pool = none
  | .writing id req i second =>
      calls[id]? = some req ∧ (second = true → req.retriable = true) ∧ pool = kept second i ∧
        At conns i Conn.Quiet
  | .reading id req i second =>
      calls[id]? = some req ∧ (second = true → req.retriable = true) ∧ pool = kept second i ∧
        At conns i (Conn.Waiting ⟨id, req⟩)

section Stands

variable {conns : List Conn} {pool : Option Nat} {calls : List Request} {phase : Phase} {j : Nat}
  {c c' : Conn}

lemma Phase.Stands.set (h : phase.Stands conns pool calls) (hc : conns[j]? = some c)
    (hkept : c.Kept c') : phase.Stands (conns.set j c') pool calls := by
  cases phase with
  | idle => exact fun i hi => (h i hi).set hc fun hq => hq.kept hkept
  | dialling id req second => exact h
  | writing id req i second =>
      obtain ⟨hcall, hsecond, hpool, hat⟩ := h
      exact ⟨hcall, hsecond, hpool, hat.set hc fun hq => hq.kept hkept⟩
  | reading id req i second =>
      obtain ⟨hcall, hsecond, hpool, hat⟩ := h
      exact ⟨hcall, hsecond, hpool, hat.set hc fun hw => hw.kept hkept⟩

lemma Phase.Stands.append (h : phase.Stands conns pool calls) (more : List Conn) :
    phase.Stands (conns ++ more) pool calls := by
  cases phase with
  | idle => exact fun i hi => (h i hi).append more
  | dialling id req second => exact h
  | writing id req i second =>
      obtain ⟨hcall, hsecond, hpool, hat⟩ := h
      exact ⟨hcall, hsecond, hpool, hat.append more⟩
  | reading id req i second =>
      obtain ⟨hcall, hsecond, hpool, hat⟩ := h
      exact ⟨hcall, hsecond, hpool, hat.append more⟩

end Stands

/-! ### What was asked, done and returned -/

/-- How often the request of a call was written. -/
def writes (conns : List Conn) (k : Nat) : Nat :=
  (conns.flatMap Conn.asked).countP fun a => a.call = k

/-- The reply comes from the work for this call, or from a refusal. -/
def Conn.Explains (env : Setting) (id : Nat) (resp : Response) (c : Conn) : Prop :=
  (∃ d ∈ c.served, d.call = some id ∧ env.responses.Reads d.response resp) ∨
    (c.authorised = false ∧ (∃ a ∈ c.asked, a.call = id) ∧ env.responses.Reads .refusal resp)

/-- One of the connections explains the response. -/
def Answered (env : Setting) (conns : List Conn) (id : Nat) (resp : Response) : Prop :=
  ∃ c ∈ conns, c.Explains env id resp

/-- What the app has asked and been told fits what is on its connections. -/
structure Log (env : Setting) (conns : List Conn) (calls : List Request)
    (returned : List (Nat × Except Failure Response)) : Prop where
  ok : ∀ c ∈ conns, c.Ok env
  asked : ∀ a ∈ conns.flatMap Conn.asked, calls[a.call]? = some a.request
  known : ∀ r ∈ returned, r.1 < calls.length
  answered : ∀ id resp, (id, .ok resp) ∈ returned → Answered env conns id resp

section Log

variable {conns : List Conn} {calls : List Request}
    {returned : List (Nat × Except Failure Response)}
  {i id : Nat} {req : Request} {c c' : Conn} {resp : Response}

lemma Answered.set (h : Answered env conns id resp) (hc : conns[i]? = some c)
    (hauth : c'.authorised = c.authorised) (hserved : c.served <+: c'.served)
    (hasked : c.asked <+: c'.asked) : Answered env (conns.set i c') id resp := by
  refine exists_mem_set h hc fun hone => ?_
  rcases hone with ⟨d, hd, hdone⟩ | ⟨hrefused, ⟨a, ha, hcall⟩, hreads⟩
  · exact .inl ⟨d, hserved.subset hd, hdone⟩
  · exact .inr ⟨hauth.trans hrefused, ⟨a, hasked.subset ha, hcall⟩, hreads⟩

lemma Answered.append (h : Answered env conns id resp) (more : List Conn) :
    Answered env (conns ++ more) id resp := by
  obtain ⟨c, hc, hone⟩ := h
  exact ⟨c, List.mem_append_left _ hc, hone⟩

lemma Log.conn (h : Log env conns calls returned) (hc : conns[i]? = some c) : c.Ok env :=
  h.ok c (List.mem_of_getElem? hc)

lemma Log.set (h : Log env conns calls returned) (hc : conns[i]? = some c) (hok : c'.Ok env)
    (hasked : c'.asked = c.asked) (hauth : c'.authorised = c.authorised)
    (hserved : c.served <+: c'.served) : Log env (conns.set i c') calls returned where
  ok := forall_mem_set h.ok hok
  asked := by
    rw [flatMap_set hc hasked]
    exact h.asked
  known := h.known
  answered := fun id resp hr => (h.answered id resp hr).set hc hauth hserved
    (hasked ▸ List.prefix_rfl)

lemma Log.ask (h : Log env conns calls returned) (hc : conns[i]? = some c) (hok : c'.Ok env)
    (hcall : calls[id]? = some req) (hasked : c'.asked = c.asked ++ [⟨id, req⟩])
    (hauth : c'.authorised = c.authorised) (hserved : c'.served = c.served) :
    Log env (conns.set i c') calls returned where
  ok := forall_mem_set h.ok hok
  asked := fun a ha => by
    rcases List.mem_cons.mp ((perm_flatMap_set hc hasked).mem_iff.mp ha) with rfl | hbefore
    · exact hcall
    · exact h.asked a hbefore
  known := h.known
  answered := fun id resp hr => (h.answered id resp hr).set hc hauth (hserved ▸ List.prefix_rfl)
    (hasked ▸ List.prefix_append _ _)

lemma Log.append (h : Log env conns calls returned) (app authorised : Bool) :
    Log env (conns ++ [.new app authorised]) calls returned where
  ok := List.forall_mem_append.mpr
    ⟨h.ok, fun c hc => List.mem_singleton.mp hc ▸ Conn.Ok.new app authorised⟩
  asked := by
    rw [List.flatMap_append]
    exact fun a ha => (List.mem_append.mp ha).elim (h.asked a) fun hnew => by
      simp [Conn.new] at hnew
  known := h.known
  answered := fun id resp hr => (h.answered id resp hr).append _

lemma Log.call (h : Log env conns calls returned) (req : Request) :
    Log env conns (calls ++ [req]) returned where
  ok := h.ok
  asked := fun a ha => by
    have hbefore := h.asked a ha
    rwa [List.getElem?_append_left (List.getElem?_eq_some_iff.mp hbefore).1]
  known := fun r hr => by
    have hbefore := h.known r hr
    rw [List.length_append]
    omega
  answered := h.answered

lemma Log.failed (h : Log env conns calls returned) (hcall : calls[id]? = some req)
    (failure : Failure) : Log env conns calls (returned ++ [(id, .error failure)]) where
  ok := h.ok
  asked := h.asked
  known := List.forall_mem_append.mpr ⟨h.known, fun r hr => by
    rw [List.mem_singleton.mp hr]
    exact (List.getElem?_eq_some_iff.mp hcall).1⟩
  answered := fun k resp hr => by
    rcases List.mem_append.mp hr with hbefore | hnew
    · exact h.answered k resp hbefore
    · simp at hnew

lemma Log.replied (h : Log env conns calls returned) (hcall : calls[id]? = some req)
    (hanswered : Answered env conns id resp) :
    Log env conns calls (returned ++ [(id, .ok resp)]) where
  ok := h.ok
  asked := h.asked
  known := List.forall_mem_append.mpr ⟨h.known, fun r hr => by
    rw [List.mem_singleton.mp hr]
    exact (List.getElem?_eq_some_iff.mp hcall).1⟩
  answered := fun k resp' hr => by
    rcases List.mem_append.mp hr with hbefore | hnew
    · exact h.answered k resp' hbefore
    · obtain ⟨rfl, heq⟩ := Prod.mk.inj (List.mem_singleton.mp hnew)
      cases heq
      exact hanswered

end Log

/-! ### One step -/

namespace System

/-- What holds of every reachable system. -/
structure Inv (env : Setting) (s : System) : Prop where
  log : Log env s.conns s.calls s.returned
  stands : s.phase.Stands s.conns s.pool s.calls
  spent : ∀ (k : Nat) (req : Request), s.calls[k]? = some req →
    writes s.conns k + s.phase.left k ≤ req.budget

section Step

variable {s s' : System} {i id : Nat} {req : Request} {second : Bool} {c c' : Conn}

lemma Inv.new : Inv env new where
  log := ⟨by simp [System.new], by simp [System.new], by simp [System.new], by simp [System.new]⟩
  stands := fun _ hi => by cases hi
  spent := fun k req hk => by simp [System.new] at hk

lemma writes_set (hc : s.conns[i]? = some c) (hasked : c'.asked = c.asked) (k : Nat) :
    writes (s.conns.set i c') k = writes s.conns k := by
  rw [writes, writes, flatMap_set hc hasked]

lemma writes_append (app authorised : Bool) (k : Nat) :
    writes (s.conns ++ [.new app authorised]) k = writes s.conns k := by
  simp [writes, Conn.new]

/-- A call that was not made wrote nothing. -/
lemma Inv.writes_fresh (h : s.Inv env) : writes s.conns s.calls.length = 0 := by
  rw [writes, List.countP_eq_zero]
  intro a ha hcall
  have hlt := (List.getElem?_eq_some_iff.mp (h.log.asked a ha)).1
  have : a.call = s.calls.length := by simpa using hcall
  omega

lemma Inv.serve (h : s.Inv env) (hc : s.conns[i]? = some c) (hs : Serves env c c') :
    Inv env { s with conns := s.conns.set i c' } := by
  have hkept := Conn.kept_of_serves hs
  refine ⟨h.log.set hc ((h.log.conn hc).step hs) hkept.asked hkept.authorised hkept.served,
    h.stands.set hc hkept, fun k req hk => ?_⟩
  show writes (s.conns.set i c') k + _ ≤ _
  rw [writes_set hc hkept.asked]
  exact h.spent k req hk

/-- A failed exchange leaves room for the second one. -/
lemma Inv.fail (h : s.Inv env) (hcall : s.calls[id]? = some req) (hpool : s.pool = kept second i)
    (hleft : second = false → req.retriable = true → 1 ≤ s.phase.left id)
    (hc : s.conns[i]? = some c) (c' : Conn) (hok : Conn.Ok env { c' with isOpen := false })
    (hasked : c'.asked = c.asked) (hauth : c'.authorised = c.authorised)
    (hserved : c'.served = c.served) (e : IoError) : Inv env (s.fail env id req i c' second e) := by
  have hlog : Log env (s.conns.set i { c' with isOpen := false }) s.calls s.returned :=
    h.log.set hc hok hasked hauth (hserved ▸ List.prefix_rfl)
  have hwrites := writes_set hc
    (show ({ c' with isOpen := false } : Conn).asked = c.asked from hasked)
  have hspent : ∀ (k : Nat) (r : Request), s.calls[k]? = some r →
      writes (s.conns.set i { c' with isOpen := false }) k ≤ r.budget := by
    intro k r hk
    have := h.spent k r hk
    rw [hwrites]
    omega
  unfold System.fail
  cases second with
  | true =>
      refine ⟨hlog.failed hcall _, fun j hj => ?_, hspent⟩
      have hnone : s.pool = some j := hj
      rw [hpool] at hnone
      cases hnone
  | false =>
      cases hretriable : req.retriable with
      | false => exact ⟨hlog.failed hcall _, fun j hj => (by cases hj), hspent⟩
      | true =>
          refine ⟨hlog, ⟨hcall, fun _ => hretriable, rfl⟩, fun k r hk => ?_⟩
          have hbefore := h.spent k r hk
          show writes (s.conns.set i { c' with isOpen := false }) k + (if id = k then 1 else 0) ≤
            r.budget
          rw [hwrites]
          by_cases hid : id = k
          · have hroom := hleft rfl hretriable
            subst hid
            rw [if_pos rfl]
            omega
          · rw [if_neg hid]
            omega

lemma Inv.finish (h : s.Inv env) (hcall : s.calls[id]? = some req) (hpool : s.pool = kept second i)
    (hc : s.conns[i]? = some c) (hw : c.Waiting ⟨id, req⟩) {body : List UInt8} {l : Link}
    {resp : Response} (hl : c.down.receive 4 = some (body, l))
    (hread : env.responses.fromSlice body = .ok resp) :
    Inv env (s.finish id i { c with down := l } second resp) := by
  have hok := h.log.conn hc
  have hok' : ∀ isOpen : Bool, Conn.Ok env { c with down := l, isOpen := isOpen } := fun isOpen =>
    (hok.get hl).drop isOpen fun _ => hw.isOpen
  have hlog : ∀ isOpen : Bool,
      Log env (s.conns.set i { c with down := l, isOpen := isOpen }) s.calls s.returned :=
        fun isOpen =>
    h.log.set hc (hok' isOpen) rfl rfl List.prefix_rfl
  have hanswered : ∀ isOpen : Bool,
      Answered env (s.conns.set i { c with down := l, isOpen := isOpen }) id resp := by
    intro isOpen
    have hlast : (⟨id, req⟩ : Asked) ∈ c.asked := List.mem_of_getElem? hw.last
    have hone : Conn.Explains env id resp { c with down := l, isOpen := isOpen } :=
      (hok.reply hw hl hread).imp_right fun hr => ⟨hr.1, ⟨_, hlast, rfl⟩, hr.2⟩
    obtain ⟨d, hd, hexplains⟩ := At.set_self hc hone
    exact ⟨d, List.mem_of_getElem? hd, hexplains⟩
  unfold System.finish
  refine ⟨(hlog _).replied hcall (hanswered _), fun j hj => ?_, fun k r hk => ?_⟩
  · by_cases hrefused : resp = .refusal
    · simp [hrefused] at hj
    · have hj' : (if second then some i else s.pool) = some j := by simpa [hrefused] using hj
      have hji : j = i := by
        rw [hpool, kept] at hj'
        cases second <;> exact (Option.some.inj hj').symm
      subst hji
      refine At.set_self hc ?_
      have hq := hw.get hl
      exact ⟨hq.app, by simp [hrefused], hq.even⟩
  · have hbefore := h.spent k r hk
    have hwrites := writes_set hc
      (show ({ c with down := l, isOpen := ! decide (resp = .refusal) } : Conn).asked =
        c.asked from rfl) k
    show writes (s.conns.set i { c with down := l, isOpen := ! decide (resp = .refusal) }) k + 0 ≤ _
    omega

lemma Inv.called (h : s.Inv env) (req : Request) (hphase : s.phase = .idle) :
    Inv env
      { s with
        calls := s.calls ++ [req]
        phase := match s.pool with
          | none => .dialling s.calls.length req false
          | some i => .writing s.calls.length req i false } := by
  have hstands := h.stands
  rw [hphase] at hstands
  have hcall : (s.calls ++ [req])[s.calls.length]? = some req := by simp
  refine ⟨h.log.call req, ?_, fun k r hk => ?_⟩
  · cases hpool : s.pool with
    | none => exact ⟨hcall, fun hno => (by cases hno), rfl⟩
    | some i => exact ⟨hcall, fun hno => (by cases hno), rfl, hstands i hpool⟩
  · have hspent : writes s.conns k + (if s.calls.length = k then req.budget else 0) ≤ r.budget := by
      by_cases hfresh : s.calls.length = k
      · subst hfresh
        obtain rfl := Option.some.inj (hcall.symm.trans hk)
        rw [h.writes_fresh, if_pos rfl, Nat.zero_add]
      · have hlt : k < s.calls.length := by
          have hlength := (List.getElem?_eq_some_iff.mp hk).1
          rw [List.length_append, List.length_singleton] at hlength
          omega
        rw [List.getElem?_append_left hlt] at hk
        have hbefore := h.spent k r hk
        rw [if_neg hfresh]
        omega
    cases s.pool with
    | none => exact hspent
    | some i => exact hspent

lemma Inv.dialFailed (h : s.Inv env) (hphase : s.phase = .dialling id req second) (e : IoError) :
    Inv env
      { s with phase := .idle, returned := s.returned ++ [(id, .error (.fromIo env.os e))] } := by
  have hstands := h.stands
  rw [hphase] at hstands
  obtain ⟨hcall, -, hpool⟩ := hstands
  refine ⟨h.log.failed hcall _, fun i hi => ?_, fun k r hk => ?_⟩
  · have hi' : s.pool = some i := hi
    rw [hpool] at hi'
    cases hi'
  · have hbefore := h.spent k r hk
    show writes s.conns k + 0 ≤ _
    omega

lemma Inv.dialled (h : s.Inv env) (hphase : s.phase = .dialling id req second) (authorised : Bool) :
    Inv env
      { s with
        conns := s.conns ++ [.new true authorised]
        pool := if second then s.pool else some s.conns.length
        phase := .writing id req s.conns.length second } := by
  have hstands := h.stands
  rw [hphase] at hstands
  obtain ⟨hcall, hsecond, hpool⟩ := hstands
  refine ⟨h.log.append true authorised, ⟨hcall, hsecond, ?_, At.concat _ ⟨rfl, rfl, rfl⟩⟩, ?_⟩
  · cases second with
    | true => exact hpool
    | false => rfl
  · intro k r hk
    have hbefore := h.spent k r hk
    rw [hphase] at hbefore
    show writes (s.conns ++ [.new true authorised]) k + _ ≤ _
    rw [writes_append]
    exact hbefore

lemma Inv.writing (h : s.Inv env) (hphase : s.phase = .writing id req i second)
    (hc : s.conns[i]? = some c) :
    s.calls[id]? = some req ∧ (second = true → req.retriable = true) ∧ s.pool = kept second i ∧
      c.Quiet := by
  have hstands := h.stands
  rw [hphase] at hstands
  obtain ⟨hcall, hsecond, hpool, d, hd, hq⟩ := hstands
  obtain rfl := Option.some.inj (hc.symm.trans hd)
  exact ⟨hcall, hsecond, hpool, hq⟩

lemma Inv.reading (h : s.Inv env) (hphase : s.phase = .reading id req i second)
    (hc : s.conns[i]? = some c) :
    s.calls[id]? = some req ∧ s.pool = kept second i ∧ c.Waiting ⟨id, req⟩ := by
  have hstands := h.stands
  rw [hphase] at hstands
  obtain ⟨hcall, -, hpool, d, hd, hw⟩ := hstands
  obtain rfl := Option.some.inj (hc.symm.trans hd)
  exact ⟨hcall, hpool, hw⟩

/-- A first exchange of a call that only asks leaves a second one. -/
lemma one_le_left
    (hphase : s.phase = .writing id req i second ∨ s.phase = .reading id req i second) :
    second = false → req.retriable = true → 1 ≤ s.phase.left id := by
  rintro rfl hretriable
  obtain hphase | hphase := hphase
  all_goals
    rw [hphase]
    simp [Phase.left, Request.budget, hretriable]

lemma Inv.written (h : s.Inv env) (hphase : s.phase = .writing id req i second)
    (hc : s.conns[i]? = some c) (hsize : (env.requests.toVec req).length ≤ maxFrame) :
    Inv env
      { s with
        conns := s.conns.set i { c with
          up := c.up.send 4 (env.requests.toVec req), asked := c.asked ++ [⟨id, req⟩] }
        phase := .reading id req i second } := by
  obtain ⟨hcall, hsecond, hpool, hq⟩ := h.writing hphase hc
  refine ⟨h.log.ask hc ((h.log.conn hc).ask hq id hsize) hcall rfl rfl rfl,
    ⟨hcall, hsecond, hpool, At.set_self hc (hq.ask _)⟩, fun k r hk => ?_⟩
  have hperm := perm_flatMap_set hc (show Conn.asked { c with
    up := c.up.send 4 (env.requests.toVec req), asked := c.asked ++ [⟨id, req⟩] } =
      c.asked ++ [⟨id, req⟩] from rfl)
  -- the write that is made is one of those that were left
  have hleft : (if id = k then 1 else 0) + (Phase.reading id req i second).left k ≤
      (Phase.writing id req i second).left k := by
    have hbudget : 1 ≤ req.budget := by
      unfold Request.budget
      split <;> omega
    by_cases hid : id = k
    · cases second with
      | true => simp [Phase.left, hid]
      | false =>
          simp only [Phase.left, hid, if_true]
          simp
          omega
    · simp [Phase.left, hid]
  have hbefore := h.spent k r hk
  rw [hphase] at hbefore
  show List.countP _ (List.flatMap Conn.asked (s.conns.set i _)) + _ ≤ _
  rw [hperm.countP_eq, List.countP_cons]
  have hone : (if decide (id = k) = true then 1 else 0) = if id = k then 1 else 0 := by simp
  show writes s.conns k + (if decide (id = k) = true then 1 else 0) +
    (Phase.reading id req i second).left k ≤ _
  omega

lemma Inv.intruded (h : s.Inv env) (authorised : Bool) :
    Inv env { s with conns := s.conns ++ [.new false authorised] } := by
  refine ⟨h.log.append false authorised, h.stands.append _, fun k r hk => ?_⟩
  show writes (s.conns ++ [.new false authorised]) k + _ ≤ _
  rw [writes_append]
  exact h.spent k r hk

/-- **Every step keeps the account.** -/
theorem Inv.step {e : Event} (h : s.Inv env) (hstep : step env s e = some s') : s'.Inv env := by
  obtain hasks | ⟨i, c, c', hc, hs, rfl⟩ := step_moves hstep
  · cases hasks with
    | called req hphase => exact h.called req hphase
    | dialFailed hphase e => exact h.dialFailed hphase e
    | dialled hphase authorised => exact h.dialled hphase authorised
    | @notWritten id i req second c hphase hc e =>
        obtain ⟨hcall, -, hpool, -⟩ := h.writing hphase hc
        exact h.fail hcall hpool (one_le_left (.inl hphase)) hc c
          ((h.log.conn hc).drop false fun hno => by cases hno) rfl rfl rfl e
    | @writeFailed id i n req second c hphase hc hsize hn e =>
        obtain ⟨hcall, -, hpool, hq⟩ := h.writing hphase hc
        exact h.fail hcall hpool (one_le_left (.inl hphase)) hc
          { c with up := c.up.breakOff 4 (env.requests.toVec req) n }
          ((h.log.conn hc).breakOff hq hsize hn) rfl rfl rfl e
    | written hphase hc hsize => exact h.written hphase hc hsize
    | @readFailed id i req second c hphase hc e =>
        obtain ⟨hcall, hpool, -⟩ := h.reading hphase hc
        exact h.fail hcall hpool (one_le_left (.inr hphase)) hc c
          ((h.log.conn hc).drop false fun hno => by cases hno) rfl rfl rfl e
    | replied hphase hc hl hread =>
        obtain ⟨hcall, hpool, hw⟩ := h.reading hphase hc
        exact h.finish hcall hpool hc hw hl hread
    | intruded authorised => exact h.intruded authorised
  · exact h.serve hc hs

lemma inv_of_reachable (h : Reachable (Helper.step env) new s) : s.Inv env :=
  h.induction Inv.new fun _ _ _ hs hstep => hs.step hstep

end Step

end System

/-! ### What was dispatched -/

/-- The calls of a connection are served in the order in which they were
written. -/
lemma Conn.Hears.calls_heard {c : Conn} (h : c.Hears env) :
    c.served.map Dispatch.call <+: c.asked.map fun a => some a.call := by
  rw [List.prefix_iff_getElem?]
  intro k hk
  rw [List.length_map] at hk
  obtain ⟨a, ha, hcall, -⟩ := h.served k c.served[k] (List.getElem?_eq_getElem hk)
  rw [List.getElem?_map, ha, Option.map_some, List.getElem_map, hcall]

lemma Conn.Ok.served_le {c : Conn} (h : c.Ok env) (id : Nat) :
    (c.served.countP fun d => d.call = some id) ≤ c.asked.countP fun a => a.call = id := by
  cases happ : c.app with
  | true =>
      have hcount := (h.hears happ).calls_heard.sublist.countP_le (p := fun call => call = some id)
      rw [List.countP_map, List.countP_map] at hcount
      refine hcount.trans (le_of_eq (List.countP_congr fun a _ => ?_))
      simp
  | false =>
      have hnone : (c.served.countP fun d => d.call = some id) = 0 := by
        rw [List.countP_eq_zero]
        intro d hd hcall
        have hforeign := (h.foreign happ).served d hd
        simp [hforeign] at hcall
      omega

lemma dispatched_le {conns : List Conn} (h : ∀ c ∈ conns, c.Ok env) (id : Nat) :
    ((conns.flatMap Conn.served).countP fun d => d.call = some id) ≤ writes conns id := by
  induction conns with
  | nil => exact Nat.le_refl _
  | cons c conns ih =>
      have hhead := (h c List.mem_cons_self).served_le id
      have htail := ih fun d hd => h d (List.mem_cons_of_mem _ hd)
      rw [writes] at htail ⊢
      rw [List.flatMap_cons, List.flatMap_cons, List.countP_append, List.countP_append]
      omega

/-- Where a refused connection was asked, the helper did less than was asked. -/
lemma dispatched_lt {conns : List Conn} (h : ∀ c ∈ conns, c.Ok env) {c : Conn} (hc : c ∈ conns)
    {id : Nat} (hauth : c.authorised = false) (ha : ∃ a ∈ c.asked, a.call = id) :
    ((conns.flatMap Conn.served).countP fun d => d.call = some id) < writes conns id := by
  obtain ⟨before, after, rfl⟩ := List.append_of_mem hc
  have hserved : c.served = [] := ((h c hc).answers.refused hauth).1
  have hasked : 0 < c.asked.countP fun a => a.call = id := by
    obtain ⟨a, hmem, hcall⟩ := ha
    exact List.countP_pos_iff.mpr ⟨a, hmem, by simpa using hcall⟩
  have hbefore := dispatched_le (fun d hd => h d (List.mem_append_left _ hd)) id
  have hafter := dispatched_le
    (fun d hd => h d (List.mem_append_right _ (List.mem_cons_of_mem _ hd))) id
  rw [writes] at hbefore hafter ⊢
  simp only [List.flatMap_append, List.flatMap_cons, List.countP_append, hserved, List.countP_nil]
  omega

/-! ### Whole runs -/

section Runs

variable {s : System} {id : Nat}

/-- What was done for a call is what it asked. -/
lemma System.Inv.request (h : s.Inv env) {req : Request} (hcall : s.calls[id]? = some req)
    {d : Dispatch}
    (hd : d ∈ s.dispatched) (hfor : d.call = some id) : env.requests.Reads req d.request := by
  obtain ⟨c, hc, hserved⟩ := List.mem_flatMap.mp hd
  have hok := h.log.ok c hc
  cases happ : c.app with
  | true =>
      obtain ⟨k, hk⟩ := List.getElem?_of_mem hserved
      obtain ⟨a, ha, hacall, hreads⟩ := (hok.hears happ).served k d hk
      obtain rfl := Option.some.inj (hacall.symm.trans hfor)
      have hasked := h.log.asked a (List.mem_flatMap.mpr ⟨c, hc, List.mem_of_getElem? ha⟩)
      obtain rfl := Option.some.inj (hasked.symm.trans hcall)
      exact hreads
  | false =>
      have hnone := (hok.foreign happ).served d hserved
      rw [hnone] at hfor
      cases hfor

/-- **A command is dispatched at most once for a call**, and a request that
only asks at most twice; what is dispatched is what the call asks. -/
theorem dispatched_once (h : Reachable (step env) .new s) {req : Request}
    (hcall : s.calls[id]? = some req) :
    (s.dispatched.countP fun d => d.call = some id) ≤ (if req.retriable then 2 else 1) ∧
      ∀ d ∈ s.dispatched, d.call = some id → env.requests.Reads req d.request := by
  have hinv := System.inv_of_reachable h
  refine ⟨?_, fun d hd hfor => hinv.request hcall hd hfor⟩
  have hspent := hinv.spent id req hcall
  calc (s.dispatched.countP fun d => d.call = some id)
      ≤ writes s.conns id := dispatched_le hinv.log.ok id
    _ ≤ req.budget := by omega

/-- **A reply belongs to the call that returns it**: the helper gave it to a
request of this very call, or it is the refusal of this app, and then a command
was not dispatched at all. -/
theorem answers_own (h : Reachable (step env) .new s) {resp : Response}
    (hr : (id, .ok resp) ∈ s.returned) :
    ∃ req, s.calls[id]? = some req ∧
      ((∃ d ∈ s.dispatched, d.call = some id ∧ env.requests.Reads req d.request ∧
          d.response ≠ .refusal ∧ env.responses.Reads d.response resp) ∨
        (env.responses.Reads .refusal resp ∧
          (req.retriable = false → ∀ d ∈ s.dispatched, d.call ≠ some id))) := by
  have hinv := System.inv_of_reachable h
  obtain ⟨req, hcall⟩ : ∃ req, s.calls[id]? = some req :=
    ⟨_, List.getElem?_eq_getElem (hinv.log.known _ hr)⟩
  refine ⟨req, hcall, ?_⟩
  obtain ⟨c, hc, ⟨d, hd, hfor, hreads⟩ | ⟨hauth, ha, hreads⟩⟩ := hinv.log.answered id resp hr
  · have hmem : d ∈ s.dispatched := List.mem_flatMap.mpr ⟨c, hc, hd⟩
    exact .inl ⟨d, hmem, hfor, hinv.request hcall hmem hfor, (hinv.log.ok c hc).answers.own d hd,
      hreads⟩
  · refine .inr ⟨hreads, fun honce d hd hfor => ?_⟩
    -- the only write of the command was on the refused connection
    have hlt := dispatched_lt hinv.log.ok hc hauth ha
    have hspent := hinv.spent id req hcall
    have hbudget : req.budget = 1 := by simp [Request.budget, honce]
    have hpos : 0 < s.dispatched.countP fun d => d.call = some id :=
      List.countP_pos_iff.mpr ⟨d, hd, by simpa using hfor⟩
    rw [System.dispatched] at hpos
    omega

/-- **A refused peer is told so and never read**, whatever it sends. -/
theorem refused_unheard (h : Reachable (step env) .new s) {c : Conn} (hc : c ∈ s.conns)
    (hauth : c.authorised = false) :
    c.up.received = [] ∧ c.served = [] ∧ c.down.sent <+: [env.responses.toVec .refusal] := by
  have hanswers := ((System.inv_of_reachable h).log.ok c hc).answers
  obtain ⟨hserved, hreceived⟩ := hanswers.refused hauth
  have hsent := hanswers.sent
  rw [Conn.due, hauth] at hsent
  exact ⟨hreceived, hserved, hsent⟩

end Runs

/-! ### A ping and a command -/

/-- The bytes of an ASCII text. -/
def text (t : String) : List UInt8 := t.toList.map fun c => UInt8.ofNat c.toNat

/-- `serde_json` for a ping and its answer, the end of the tunnel and its
failure, and the refusal. -/
def pingSetting : Setting where
  os := .linux
  version := "1.0.0"
  requests :=
    { toVec := fun
        | .disconnect => text "\x7b\"op\":\"disconnect\"\x7d"
        | _ => text "\x7b\"op\":\"ping\"\x7d"
      fromSlice := fun body =>
        if body = text "\x7b\"op\":\"ping\"\x7d" then .ok .ping
        else if body = text "\x7b\"op\":\"disconnect\"\x7d" then .ok .disconnect
        else .error "expected value" }
  responses :=
    { toVec := fun
        | .error message =>
            text ("\x7b\"result\":\"error\",\"message\":\"" ++ message ++ "\"\x7d")
        | _ => text "\x7b\"result\":\"pong\",\"version\":\"1.0.0\"\x7d"
      fromSlice := fun body =>
        if body = text "\x7b\"result\":\"pong\",\"version\":\"1.0.0\"\x7d" then .ok (.pong "1.0.0")
        else if body = text "\x7b\"result\":\"error\",\"message\":\"not authorised\"\x7d" then
          .ok .refusal
        else .error "expected value" }

/-- The steps of a call that dials connection `n` and is served there. -/
def served (env : Setting) (n : Nat) (req got : Request)
    (result : Except TunnelError TunnelStatus) : List Event :=
  [.dial (.ok true), .authenticate n none, .write none,
    .carryUp n (frame 4 (env.requests.toVec req)).length, .receive n, .dispatch n result,
    .respond n none,
    .carryDown n (frame 4 (env.responses.toVec (dispatch env.version got result))).length,
    .read none]

lemma exec_ping : ∃ s, exec (step pingSetting) .new
    (.call .ping :: served pingSetting 0 .ping .ping (.error .notConnected)) = some s ∧
      s.returned = [(0, .ok (.pong "1.0.0"))] ∧ s.calls = [.ping] := ⟨_, rfl, rfl, rfl⟩

theorem answers_own_ping : ∃ s : System, s.returned = [(0, .ok (.pong "1.0.0"))] ∧
    ∃ d ∈ s.dispatched, d.call = some 0 ∧
      pingSetting.responses.Reads d.response (.pong "1.0.0") := by
  obtain ⟨s, hexec, hreturned, hcalls⟩ := exec_ping
  have hmem : (0, .ok (.pong "1.0.0")) ∈ s.returned := by simp [hreturned]
  obtain ⟨req, -, ⟨d, hd, hfor, -, -, hreads⟩ | ⟨hreads, -⟩⟩ := answers_own ⟨_, hexec⟩ hmem
  · exact ⟨s, hreturned, d, hd, hfor, hreads⟩
  · exact absurd hreads (by decide)

/-- The helper takes the tunnel down and is stopped before it answers: the app
finds the connection dead, and does not ask again. -/
theorem dispatched_once_disconnect : ∃ s, exec (step pingSetting) .new
    (.call .ping :: served pingSetting 0 .ping .ping (.error .notConnected) ++
      [.call .disconnect, .write none, .carryUp 0 100, .receive 0,
        .dispatch 0 (.error .notConnected), .stop 0, .read none]) = some s ∧
    s.phase = .idle ∧ s.pool = none ∧
    (s.dispatched.countP fun d => d.call = some 1) ≤ 1 ∧
    ∀ d ∈ s.dispatched, d.call = some 1 → d.request = .disconnect := by
  obtain ⟨s, hexec, hphase, hpool, hcall⟩ : ∃ s, exec (step pingSetting) .new
      (.call .ping :: served pingSetting 0 .ping .ping (.error .notConnected) ++
        [.call .disconnect, .write none, .carryUp 0 100, .receive 0,
          .dispatch 0 (.error .notConnected), .stop 0, .read none]) = some s ∧
      s.phase = .idle ∧ s.pool = none ∧ s.calls[1]? = some .disconnect := ⟨_, rfl, rfl, rfl, rfl⟩
  obtain ⟨hcount, hreads⟩ := dispatched_once ⟨_, hexec⟩ hcall
  refine ⟨s, hexec, hphase, hpool, hcount, fun d hd hfor => ?_⟩
  have hread : pingSetting.requests.Reads .disconnect .disconnect := rfl
  exact (Except.ok.inj (hread.symm.trans (hreads d hd hfor))).symm

/-- A peer that is refused and goes on sending. -/
theorem refused_unheard_intruder : ∃ s, exec (step pingSetting) .new
    [.intrude false, .inject 0 [0, 0, 0, 0], .authenticate 0 none, .carryUp 0 4] = some s ∧
      ∀ c ∈ s.conns, c.up.received = [] ∧ c.served = [] := by
  obtain ⟨s, hexec, hauth⟩ : ∃ s, exec (step pingSetting) .new
      [.intrude false, .inject 0 [0, 0, 0, 0], .authenticate 0 none, .carryUp 0 4] = some s ∧
        ∀ c ∈ s.conns, c.authorised = false := ⟨_, rfl, by decide⟩
  refine ⟨s, hexec, fun c hc => ?_⟩
  obtain ⟨hreceived, hserved, -⟩ := refused_unheard ⟨_, hexec⟩ hc (hauth c hc)
  exact ⟨hreceived, hserved⟩

end CumulusVpn.Desktop.Helper
