/-
Leak protection across automatic reconnects.

The kill switch survives a reconnect as long as no command of the reconnect
opens it: `connect` lifts it on every failure exit past its first engage, a
sweep out of transports tears the tunnel down, and on Linux a re-engage
deletes the table before it loads the new one.

* `Answers.delivers`, `Answers.deliversMultihop`: nothing past the first
  engage fails;
* `firewall_connect`, `firewall_connectMultihop`: what a connect does to the
  firewall;
* `App.Guarded`: with the kill switch on, a tunnel that is up is guarded;
* `leak_protection_survives`: **along every run without such a command the
  firewall never stops blocking**.
-/
import CumulusVpn.Desktop.App

namespace CumulusVpn.Desktop

open StepSystem

namespace Manager

/-! ### The firewall of one connect -/

lemma firewall_replace (m : Manager) (country endpoint : String) :
    (m.replace country endpoint).sys.firewall = m.sys.firewall := by
  rw [replace, firewall_releaseRoutes, (frame_shutdown_elim _ _).1, firewall_killDevices,
    firewall_restoreDns]

/-- The firewall after the re-engage of phase 2. -/
def tunFirewall (b : Backend) (killSwitch : Bool) (bypass : List String) (a : EngageAnswer)
    (l : FwLog) : FwLog :=
  if killSwitch && killSwitchNeedsTunPass b then (Desktop.engage b bypass a l).2 else l

/-- The devices come up and the routes go in. -/
def Answers.delivers (a : Answers) (b : Backend) (r : ConnectRequest) : Bool :=
  let bypass := (r.split.map SplitParams.bypassRoutes).getD []
  let tunnel := (r.split.map SplitParams.tunnelRoutes).getD []
  let bypassRoute := Route.mk (stripEndpointPort r.endpoint) none
  (r.tls.isNone || a.bridge.isOk) &&
  (!killSwitchNeedsTunPass b || a.engageTun.Completes b bypass) &&
  a.configure.isOk && (addRoute a.route bypassRoute []).1.isOk &&
  match a.spawn with
  | .ok dev => (addSessionRoutes a.route tunnel bypass dev [bypassRoute]).1.isOk
  | .error _ => false

/-- Both devices come up and the routes go in. -/
def Answers.deliversMultihop (a : Answers) (b : Backend) (r : MultihopRequest) : Bool :=
  let bypass := (r.split.map SplitParams.bypassRoutes).getD []
  let tunnel := (r.split.map SplitParams.tunnelRoutes).getD []
  let bypassRoute := Route.mk (stripEndpointPort r.entryEndpoint) none
  (!killSwitchNeedsTunPass b ||
    (a.engageTun.Completes b bypass && a.engageTuns.Completes b bypass)) &&
  a.configure.isOk && a.configureExit.isOk && (addRoute a.route bypassRoute []).1.isOk &&
  match a.spawn, a.spawnExit with
  | .ok entry, .ok exit_ =>
      let exitRoute := Route.mk (stripEndpointPort r.exitEndpoint) (some entry)
      (addRoute a.route exitRoute [bypassRoute]).1.isOk &&
      (addSessionRoutes a.route tunnel bypass exit_ [bypassRoute, exitRoute]).1.isOk
  | _, _ => false

lemma engage_of_completes {a : EngageAnswer} {b : Backend} {bypass : List String}
    (h : a.Completes b bypass) (l : FwLog) : (Desktop.engage b bypass a l).1 = .ok () := by
  cases a with
  | invalid text => exact absurd h id
  | runs done => simp only [Desktop.engage, List.drop_eq_nil_iff.mpr h]

lemma eq_ok_of_isOk {α : Type} {x : Except TunnelError α} (h : x.isOk = true) :
    ∃ y, x = .ok y := by
  cases x with
  | ok y => exact ⟨y, rfl⟩
  | error e => cases h

lemma error_ne_ok {e : TunnelError} {st : TunnelStatus} : (.error e : Reply) ≠ .ok st := by
  intro h
  cases h

/-- What `engageWithTuns` does to the manager. -/
lemma engageWithTuns_firewall {m m' : Manager} {killSwitch : Bool} {bypass : List String}
    {a : EngageAnswer} (h : m.engageWithTuns killSwitch bypass a = (.ok (), m')) :
    m' = { m with sys := { m.sys with
      firewall := tunFirewall m.inner.backend killSwitch bypass a m.sys.firewall } } ∧
    (m.sys.firewall.now.Blocking m.inner.backend →
      (tunFirewall m.inner.backend killSwitch bypass a m.sys.firewall).now.Blocking
        m.inner.backend) := by
  rw [engageWithTuns] at h
  rw [tunFirewall]
  split at h
  · rename_i hpass
    rw [if_pos hpass]
    split at h
    · rename_i s heq
      cases h
      have hs : s = (m.sys.engage m.inner.backend bypass a).2 := by rw [heq]
      have hok : (Desktop.engage m.inner.backend bypass a m.sys.firewall).1 = .ok () :=
        congrArg Prod.fst heq
      exact ⟨by rw [hs]; rfl, fun _ => blocking_of_engage hok⟩
    · cases h
  · rename_i hpass
    rw [if_neg hpass]
    cases h
    exact ⟨rfl, id⟩

lemma engageWithTuns_of_completes {m : Manager} (killSwitch : Bool) {bypass : List String}
    {a : EngageAnswer} (h : !killSwitchNeedsTunPass m.inner.backend ||
      a.Completes m.inner.backend bypass) :
    ∃ m', m.engageWithTuns killSwitch bypass a = (.ok (), m') := by
  rw [engageWithTuns]
  split
  · rename_i hpass
    have hcompletes : a.Completes m.inner.backend bypass := by
      rcases Bool.or_eq_true_iff.mp h with hnot | hdone
      · rw [Bool.and_eq_true] at hpass
        rw [hpass.2] at hnot
        cases hnot
      · exact of_decide_eq_true hdone
    have hok := engage_of_completes hcompletes m.sys.firewall
    rw [Sys.engage]
    split
    · exact ⟨_, rfl⟩
    · rename_i text s heq
      have herr : (Desktop.engage m.inner.backend bypass a m.sys.firewall).1 = .error text :=
        congrArg Prod.fst heq
      rw [hok] at herr
      cases herr
  · exact ⟨m, rfl⟩

lemma addRoute_eq_ok {a : RouteAnswers} {r : Route} {routes : List Route}
    (h : (addRoute a r routes).1.isOk = true) : addRoute a r routes = (.ok (), routes ++ [r]) := by
  rw [addRoute] at h ⊢
  split at h
  · rfl
  · cases h

lemma eq_ok_of_fst_isOk {x : Except TunnelError Unit × List Route} (h : x.1.isOk = true) :
    ∃ routes, x = (.ok (), routes) := by
  obtain ⟨y, routes⟩ := x
  obtain ⟨⟨⟩, rfl⟩ := eq_ok_of_isOk h
  exact ⟨routes, rfl⟩

/-! ### Single-hop -/

section SingleHop

variable {c : Checks} {a : Answers} {r : ConnectRequest} {config : WgConfig}
  {bridge : Option String} {m m' : Manager} {status : TunnelStatus}

lemma firewall_installSession {dev : String}
    (h : installSession c a r config dev bridge m = (.ok status, m')) :
    m'.sys.firewall = m.sys.firewall := by
  simp only [installSession] at h
  split at h
  · cases h
  · split at h
    · cases h
    · rename_i routes _
      rcases hstart : DnsSession.start _ a.dns { m.sys with routes := routes } with ⟨dns, s⟩
      obtain ⟨b, rfl⟩ := exists_dns_of_start hstart
      rw [hstart] at h
      cases h
      rfl

/-- What a completed bring-up leaves of the firewall. -/
lemma firewall_bringUp (h : bringUp c a r config bridge m = (.ok status, m')) :
    m'.sys.firewall = tunFirewall m.inner.backend r.killSwitch
        ((r.split.map SplitParams.bypassRoutes).getD []) a.engageTun m.sys.firewall ∧
      (m.sys.firewall.now.Blocking m.inner.backend →
        m'.sys.firewall.now.Blocking m.inner.backend) := by
  simp only [bringUp] at h
  split at h
  · cases h
  · split at h
    · cases h
    · rename_i m₁ heq
      obtain ⟨rfl, hblock⟩ := engageWithTuns_firewall heq
      split at h
      · cases h
      · rw [firewall_installSession h]
        exact ⟨rfl, hblock⟩

lemma installSession_of_delivers {dev : String} (hroutes : m.sys.routes = [])
    (hentry : (addRoute a.route ⟨stripEndpointPort r.endpoint, none⟩ []).1.isOk = true)
    (hsession : (addSessionRoutes a.route ((r.split.map SplitParams.tunnelRoutes).getD [])
      ((r.split.map SplitParams.bypassRoutes).getD []) dev
      [⟨stripEndpointPort r.endpoint, none⟩]).1.isOk = true) :
    ∃ status m', installSession c a r config dev bridge m = (.ok status, m') := by
  obtain ⟨routes, hok⟩ := eq_ok_of_fst_isOk hsession
  simp only [installSession, hroutes, addRoute_eq_ok hentry, List.nil_append, hok]
  exact ⟨_, _, rfl⟩

lemma bringUp_of_delivers (h : a.delivers m.inner.backend r = true) (hroutes : m.sys.routes = []) :
    ∃ status m', bringUp c a r config bridge m = (.ok status, m') := by
  simp only [Answers.delivers, Bool.and_eq_true] at h
  obtain ⟨⟨⟨⟨-, htun⟩, hconfigure⟩, hentry⟩, hspawn⟩ := h
  obtain ⟨⟨⟩, hconf⟩ := eq_ok_of_isOk hconfigure
  split at hspawn
  · rename_i dev hdev
    obtain ⟨m₁, heq⟩ := engageWithTuns_of_completes
      (m := { m with sys := { m.sys with sidecars := dev :: m.sys.sidecars } }) r.killSwitch htun
    obtain ⟨rfl, -⟩ := engageWithTuns_firewall heq
    simp only [bringUp, hdev, heq, hconf]
    exact installSession_of_delivers hroutes hentry hspawn
  · cases hspawn

end SingleHop

/-- What the first engage does to a manager that guards its session. -/
lemma engageFirst_on {m m' : Manager} {bypass : List String} {a : EngageAnswer}
    {x : Except TunnelError Unit} (h : m.engageFirst true bypass a = (x, m')) :
    m' = { m with sys := { m.sys with
      firewall := (Desktop.engage m.inner.backend bypass a m.sys.firewall).2 } } ∧
    (x = .ok () → (Desktop.engage m.inner.backend bypass a m.sys.firewall).1 = .ok ()) := by
  rw [engageFirst, if_pos rfl] at h
  split at h
  · rename_i s heq
    cases h
    have hs : s = (m.sys.engage m.inner.backend bypass a).2 := by rw [heq]
    exact ⟨by rw [hs]; rfl, fun _ => congrArg Prod.fst heq⟩
  · rename_i text s heq
    cases h
    have hs : s = (m.sys.engage m.inner.backend bypass a).2 := by rw [heq]
    exact ⟨by rw [hs]; rfl, fun hok => by cases hok⟩

lemma completes_of_engage {a : EngageAnswer} {b : Backend} {bypass : List String} {l : FwLog}
    (h : (Desktop.engage b bypass a l).1 = .ok ()) : a.Completes b bypass := by
  cases a with
  | invalid text => cases h
  | runs done =>
      simp only [Desktop.engage] at h
      split at h
      · rename_i hdrop
        exact List.drop_eq_nil_iff.mp hdrop
      · cases h

/-- An engage and what follows it (`delivers`) open nothing: it stops before
its first command, or it does not delete its rules first and nothing fails
once it is complete. -/
def harmlessEngage (a : EngageAnswer) (b : Backend) (bypass : List String) (delivers : Bool) :
    Bool :=
  match a with
  | .invalid _ => true
  | .runs _ => b ≠ .linuxNftables && (!a.Completes b bypass || delivers)

/-- No command of this connect opens the kill switch. -/
def harmlessConnect (c : Checks) (a : Answers) (b : Backend) (r : ConnectRequest) : Bool :=
  !(c.accept r).isOk ||
    harmlessEngage a.engage b ((r.split.map SplitParams.bypassRoutes).getD []) (a.delivers b r)

/-- The same for a multi-hop connect. -/
def harmlessMultihop (c : Checks) (a : Answers) (b : Backend) (r : MultihopRequest) : Bool :=
  !(c.acceptMultihop r).isOk ||
    harmlessEngage a.engage b ((r.split.map SplitParams.bypassRoutes).getD [])
      (a.deliversMultihop b r)

lemma blocking_of_harmlessEngage {a : EngageAnswer} {b : Backend} {bypass : List String}
    {delivers : Bool} (h : harmlessEngage a b bypass delivers = true) {l : FwLog}
    (hblock : l.Blocking b) : (Desktop.engage b bypass a l).2.Blocking b := by
  cases a with
  | invalid text => exact hblock
  | runs done =>
      simp only [harmlessEngage, Bool.and_eq_true, decide_eq_true_eq] at h
      exact blocking_engage h.1 hblock bypass (.runs done)

lemma delivers_of_harmlessEngage {a : EngageAnswer} {b : Backend} {bypass : List String}
    {delivers : Bool} (h : harmlessEngage a b bypass delivers = true)
    (hcompletes : a.Completes b bypass) : b ≠ .linuxNftables ∧ delivers = true := by
  cases a with
  | invalid text => exact absurd hcompletes id
  | runs done =>
      simp only [harmlessEngage, Bool.and_eq_true, decide_eq_true_eq, Bool.or_eq_true,
        Bool.not_eq_true', decide_eq_false_iff_not] at h
      exact ⟨h.1, h.2.resolve_left fun hnot => hnot hcompletes⟩

lemma tunFirewall_blocking {b : Backend} (hb : b ≠ .linuxNftables) {l : FwLog}
    (h : l.Blocking b) (killSwitch : Bool) (bypass : List String) (a : EngageAnswer) :
    (tunFirewall b killSwitch bypass a l).Blocking b := by
  rw [tunFirewall]
  split
  · exact blocking_engage hb h bypass a
  · exact h

/-- A result that guards its tunnel: when the tunnel is up the firewall
blocks, and (`delivers`) it always did if it did before. -/
def Guards (b : Backend) (delivers : Bool) (before : FwLog) (x : Reply × Manager) : Prop :=
  (∀ st, x.1 = .ok st → x.2.sys.firewall.now.Blocking b) ∧
  (delivers = true → b ≠ .linuxNftables → before.Blocking b → x.2.sys.firewall.Blocking b)

/-- The first engage, followed by what guards its tunnel. -/
lemma guards_engageFirst {m : Manager} {bypass : List String} {a : EngageAnswer}
    {delivers : Bool} {next : Manager → Reply × Manager}
    (hnext : ∀ firewall : FwLog, firewall.now.Blocking m.inner.backend →
      Guards m.inner.backend delivers firewall
        (next ⟨m.inner, { m.sys with firewall := firewall }⟩)) :
    let x : Reply × Manager := match m.engageFirst true bypass a with
      | (.error e, m) => (.error e, m)
      | (.ok (), m) => next m
    (∀ st, x.1 = .ok st → x.2.sys.firewall.now.Blocking m.inner.backend) ∧
    (harmlessEngage a m.inner.backend bypass delivers = true →
      m.sys.firewall.Blocking m.inner.backend →
      x.2.sys.firewall.Blocking m.inner.backend) := by
  rcases heng : m.engageFirst true bypass a with ⟨x, m₁⟩
  obtain ⟨rfl, hok⟩ := engageFirst_on heng
  rcases x with e | ⟨⟩
  · refine ⟨fun _ hst => absurd hst error_ne_ok, ?_⟩
    intro hharmless hblock
    exact blocking_of_harmlessEngage hharmless hblock
  · obtain ⟨hup, hdown⟩ := hnext _ (blocking_of_engage (hok rfl))
    refine ⟨hup, ?_⟩
    intro hharmless hblock
    obtain ⟨hlinux, hdelivers⟩ :=
      delivers_of_harmlessEngage hharmless (completes_of_engage (hok rfl))
    exact hdown hdelivers hlinux (blocking_of_harmlessEngage hharmless hblock)

/-- The bring-up guards its tunnel. -/
lemma guards_bringUp {c : Checks} {a : Answers} {r : ConnectRequest} {config : WgConfig}
    {bridge : Option String} {m : Manager} (hroutes : m.sys.routes = [])
    (hnow : m.sys.firewall.now.Blocking m.inner.backend) :
    Guards m.inner.backend (a.delivers m.inner.backend r) m.sys.firewall
      (bringUp c a r config bridge m) := by
  constructor
  · intro st hst
    rcases hbring : bringUp c a r config bridge m with ⟨reply, m'⟩
    rw [hbring] at hst
    obtain rfl : reply = .ok st := hst
    exact (firewall_bringUp hbring).2 hnow
  · intro hdelivers hb hblock
    obtain ⟨st, m', hbring⟩ := bringUp_of_delivers (c := c) (a := a) (r := r) hdelivers hroutes
    rw [hbring, (firewall_bringUp hbring).1]
    exact tunFirewall_blocking hb hblock _ _ _

/-- **What `connect` does to the firewall** with the kill switch on. -/
lemma firewall_connect {c : Checks} {a : Answers} {r : ConnectRequest} {m : Manager}
    (hm : m.Tracked) (hks : r.killSwitch = true) :
    (∀ st, (connect c a r m).1 = .ok st →
      (connect c a r m).2.sys.firewall.now.Blocking m.inner.backend) ∧
    (harmlessConnect c a m.inner.backend r = true → m.sys.firewall.Blocking m.inner.backend →
      (connect c a r m).2.sys.firewall.Blocking m.inner.backend) := by
  rw [connect, harmlessConnect]
  rcases c.accept r with e | config
  · exact ⟨fun _ hst => absurd hst error_ne_ok, fun _ hblock => hblock⟩
  · have hfw := m.firewall_replace r.country r.endpoint
    have hroutes := (hm.holds_replace r.country r.endpoint).toWithin.nil_routes.2.2
    rw [← hfw, hks]
    refine guards_engageFirst (m := m.replace r.country r.endpoint) ?_
    intro firewall hnow
    rcases htls : r.tls with _ | tls
    · exact guards_bringUp (m := ⟨_, _⟩) hroutes hnow
    · rcases hbridge : a.bridge with e | bridge
      · refine ⟨fun _ hst => absurd hst error_ne_ok, ?_⟩
        intro hdelivers
        simp [Answers.delivers, htls, hbridge, Except.isOk, Except.toBool] at hdelivers
      · exact guards_bringUp (m := ⟨_, _⟩) hroutes hnow

/-! ### Multi-hop -/

section Multihop

variable {c : Checks} {a : Answers} {r : MultihopRequest} {innerCfg : WgConfig} {entry : String}
  {m m' : Manager} {status : TunnelStatus}

lemma firewall_installMultihop {exit_ : String}
    (h : installMultihop c a r innerCfg entry exit_ m = (.ok status, m')) :
    m'.sys.firewall = m.sys.firewall := by
  simp only [installMultihop] at h
  split at h
  · cases h
  · split at h
    · cases h
    · split at h
      · cases h
      · rename_i routes _
        rcases hstart : DnsSession.start _ a.dns { m.sys with routes := routes } with ⟨dns, s⟩
        obtain ⟨b, rfl⟩ := exists_dns_of_start hstart
        rw [hstart] at h
        cases h
        rfl

lemma firewall_bringUpExit (h : bringUpExit c a r innerCfg entry m = (.ok status, m')) :
    m'.sys.firewall = tunFirewall m.inner.backend r.killSwitch
        ((r.split.map SplitParams.bypassRoutes).getD []) a.engageTuns m.sys.firewall ∧
      (m.sys.firewall.now.Blocking m.inner.backend →
        m'.sys.firewall.now.Blocking m.inner.backend) := by
  simp only [bringUpExit] at h
  split at h
  · cases h
  · split at h
    · cases h
    · rename_i m₁ heq
      obtain ⟨rfl, hblock⟩ := engageWithTuns_firewall heq
      split at h
      · cases h
      · rw [firewall_installMultihop h]
        exact ⟨rfl, hblock⟩

lemma firewall_bringUpEntry (h : bringUpEntry c a r innerCfg m = (.ok status, m')) :
    m'.sys.firewall = tunFirewall m.inner.backend r.killSwitch
        ((r.split.map SplitParams.bypassRoutes).getD []) a.engageTuns
        (tunFirewall m.inner.backend r.killSwitch
          ((r.split.map SplitParams.bypassRoutes).getD []) a.engageTun m.sys.firewall) ∧
      (m.sys.firewall.now.Blocking m.inner.backend →
        m'.sys.firewall.now.Blocking m.inner.backend) := by
  simp only [bringUpEntry] at h
  split at h
  · cases h
  · split at h
    · cases h
    · rename_i m₁ heq
      obtain ⟨rfl, hblock⟩ := engageWithTuns_firewall heq
      split at h
      · cases h
      · obtain ⟨hfw, hblock'⟩ := firewall_bringUpExit h
        exact ⟨hfw, fun hnow => hblock' (hblock hnow)⟩

lemma installMultihop_of_delivers {exit_ : String} (hroutes : m.sys.routes = [])
    (hentry : (addRoute a.route ⟨stripEndpointPort r.entryEndpoint, none⟩ []).1.isOk = true)
    (hexit : (addRoute a.route ⟨stripEndpointPort r.exitEndpoint, some entry⟩
      [⟨stripEndpointPort r.entryEndpoint, none⟩]).1.isOk = true)
    (hsession : (addSessionRoutes a.route ((r.split.map SplitParams.tunnelRoutes).getD [])
      ((r.split.map SplitParams.bypassRoutes).getD []) exit_
      [⟨stripEndpointPort r.entryEndpoint, none⟩,
        ⟨stripEndpointPort r.exitEndpoint, some entry⟩]).1.isOk = true) :
    ∃ status m', installMultihop c a r innerCfg entry exit_ m = (.ok status, m') := by
  obtain ⟨routes, hok⟩ := eq_ok_of_fst_isOk hsession
  simp only [installMultihop, hroutes, addRoute_eq_ok hentry, List.nil_append,
    addRoute_eq_ok hexit, List.cons_append, hok]
  exact ⟨_, _, rfl⟩

lemma bringUpEntry_of_delivers (h : a.deliversMultihop m.inner.backend r = true)
    (hroutes : m.sys.routes = []) :
    ∃ status m', bringUpEntry c a r innerCfg m = (.ok status, m') := by
  simp only [Answers.deliversMultihop, Bool.and_eq_true] at h
  obtain ⟨⟨⟨⟨htun, hconfigure⟩, hconfigureExit⟩, hentry⟩, hspawn⟩ := h
  obtain ⟨⟨⟩, hconf⟩ := eq_ok_of_isOk hconfigure
  obtain ⟨⟨⟩, hconfExit⟩ := eq_ok_of_isOk hconfigureExit
  rw [Bool.or_and_distrib_left, Bool.and_eq_true] at htun
  split at hspawn
  · rename_i entry exit_ hentryDev hexitDev
    rw [Bool.and_eq_true] at hspawn
    have hexit : ∀ m₁ : Manager, m₁.inner = m.inner → m₁.sys.routes = [] →
        ∃ status m', bringUpExit c a r innerCfg entry m₁ = (.ok status, m') := by
      intro m₁ hinner hroutes₁
      obtain ⟨m₂, heq⟩ := engageWithTuns_of_completes
        (m := { m₁ with sys := { m₁.sys with sidecars := exit_ :: m₁.sys.sidecars } })
        r.killSwitch (hinner ▸ htun.2)
      obtain ⟨rfl, -⟩ := engageWithTuns_firewall heq
      simp only [bringUpExit, hexitDev, heq, hconfExit]
      exact installMultihop_of_delivers hroutes₁ hentry hspawn.1 hspawn.2
    obtain ⟨m₁, heq⟩ := engageWithTuns_of_completes
      (m := { m with sys := { m.sys with sidecars := entry :: m.sys.sidecars } })
      r.killSwitch htun.1
    obtain ⟨rfl, -⟩ := engageWithTuns_firewall heq
    simp only [bringUpEntry, hentryDev, heq, hconf]
    exact hexit ⟨_, _⟩ rfl hroutes
  · cases hspawn

/-- The bring-up of a multi-hop pair guards its tunnel. -/
lemma guards_bringUpEntry (hroutes : m.sys.routes = [])
    (hnow : m.sys.firewall.now.Blocking m.inner.backend) :
    Guards m.inner.backend (a.deliversMultihop m.inner.backend r) m.sys.firewall
      (bringUpEntry c a r innerCfg m) := by
  constructor
  · intro st hst
    rcases hbring : bringUpEntry c a r innerCfg m with ⟨reply, m'⟩
    rw [hbring] at hst
    obtain rfl : reply = .ok st := hst
    exact (firewall_bringUpEntry hbring).2 hnow
  · intro hdelivers hb hblock
    obtain ⟨st, m', hbring⟩ := bringUpEntry_of_delivers (c := c) (a := a) (r := r) hdelivers
      hroutes
    rw [hbring, (firewall_bringUpEntry hbring).1]
    exact tunFirewall_blocking hb (tunFirewall_blocking hb hblock _ _ _) _ _ _

/-- **What `connect_multihop` does to the firewall** with the kill switch
on. -/
lemma firewall_connectMultihop (hm : m.Tracked) (hks : r.killSwitch = true) :
    (∀ st, (connectMultihop c a r m).1 = .ok st →
      (connectMultihop c a r m).2.sys.firewall.now.Blocking m.inner.backend) ∧
    (harmlessMultihop c a m.inner.backend r = true → m.sys.firewall.Blocking m.inner.backend →
      (connectMultihop c a r m).2.sys.firewall.Blocking m.inner.backend) := by
  rw [connectMultihop, harmlessMultihop]
  rcases c.acceptMultihop r with e | innerCfg
  · exact ⟨fun _ hst => absurd hst error_ne_ok, fun _ hblock => hblock⟩
  · have hfw := m.firewall_replace r.exitCountry r.entryEndpoint
    have hroutes := (hm.holds_replace r.exitCountry r.entryEndpoint).toWithin.nil_routes.2.2
    rw [← hfw, hks]
    refine guards_engageFirst (m := m.replace r.exitCountry r.entryEndpoint) ?_
    intro firewall hnow
    exact guards_bringUpEntry (m := ⟨_, _⟩) hroutes hnow

end Multihop

/-! ### Status polls -/

lemma frame_repairAfterRoam (m : Manager) (a : StatusAnswers) :
    (m.repairAfterRoam a).sys.firewall = m.sys.firewall ∧
      (m.repairAfterRoam a).inner.backend = m.inner.backend := by
  rw [repairAfterRoam]
  split
  · dsimp only
    split
    · exact ⟨rfl, rfl⟩
    · split
      · exact ⟨rfl, rfl⟩
      · split
        · exact ⟨rfl, rfl⟩
        · split <;> exact ⟨rfl, rfl⟩
  · exact ⟨rfl, rfl⟩

lemma frame_reassertDns (m : Manager) (a : StatusAnswers) :
    (m.reassertDns a).sys.firewall = m.sys.firewall ∧
      (m.reassertDns a).inner.backend = m.inner.backend := by
  rw [reassertDns]
  split
  · exact ⟨rfl, rfl⟩
  · rename_i d _
    simp only
    rcases hr : d.reassert a.dns m.sys with ⟨d', s⟩
    obtain ⟨b, rfl⟩ := exists_dns_of_reassert hr
    exact ⟨rfl, trivial⟩

lemma backend_refreshStats (i : Inner) (stats : Option WgStats) :
    (refreshStats i stats).backend = i.backend := by
  simp only [refreshStats]
  split <;> rfl

lemma backend_watchdog (a : StatusAnswers) (i : Inner) : (watchdog a i).backend = i.backend := by
  rw [watchdog]
  split <;> rfl

/-- A status poll leaves the firewall alone, and brings nothing up. -/
lemma frame_status (m : Manager) (a : StatusAnswers) :
    (m.status a).2.sys.firewall = m.sys.firewall ∧
    (m.status a).2.inner.backend = m.inner.backend ∧
    ((m.status a).2.inner.state = .up → m.inner.state = .up) := by
  have hrepair := m.frame_repairAfterRoam a
  have hdns := (m.repairAfterRoam a).frame_reassertDns a
  rw [status]
  split
  · rename_i hup
    refine ⟨hdns.1.trans hrepair.1, ?_, fun _ => hup⟩
    exact ((backend_watchdog _ _).trans (backend_refreshStats _ _)).trans
      (hdns.2.trans hrepair.2)
  · exact ⟨rfl, rfl, id⟩

/-- However a connect ends, an error does not bring the tunnel up. -/
lemma up_of_outcome {m : Manager} {completes : Prop} {x : Reply × Manager}
    (ho : Outcome m completes x) (hup : x.2.inner.state = .up) :
    (∃ st, x.1 = .ok st) ∨ x.2 = m := by
  cases ho with
  | refused e => exact Or.inr rfl
  | stopped e m' _ _ hstate => exact absurd (hup.symm.trans hstate) (by decide)
  | unwound e m' hunwound => exact absurd (hup.symm.trans hunwound.1) (by decide)
  | up st m' => exact Or.inl ⟨st, rfl⟩

lemma backend_of_outcome {m : Manager} {completes : Prop} {x : Reply × Manager}
    (ho : Outcome m completes x) : x.2.inner.backend = m.inner.backend := by
  cases ho with
  | refused e => rfl
  | stopped e m' _ _ _ hbackend => exact hbackend
  | unwound e m' _ hbackend => exact hbackend
  | up st m' _ _ _ hbackend => exact hbackend

/-- A manager whose tunnel, when it is up, is guarded. -/
structure Guarding (b : Backend) (m : Manager) : Prop where
  tracked : m.Tracked
  backend : m.inner.backend = b
  up : m.inner.state = .up → m.sys.firewall.now.Blocking b

namespace Guarding

variable {b : Backend} {m : Manager}

lemma new (b : Backend) : (new b).Guarding b :=
  ⟨tracked_new b, rfl, fun h => TunnelState.noConfusion h⟩

/-- A connect with the kill switch on guards what it brings up. -/
lemma of_outcome (h : m.Guarding b) {completes : Prop} {x : Reply × Manager}
    (ho : Outcome m completes x)
    (hok : ∀ st, x.1 = .ok st → x.2.sys.firewall.now.Blocking m.inner.backend) :
    x.2.Guarding b := by
  refine ⟨h.tracked.of_outcome ho, (backend_of_outcome ho).trans h.backend, ?_⟩
  intro hup
  rcases up_of_outcome ho hup with ⟨st, hst⟩ | hsame
  · exact h.backend ▸ hok st hst
  · rw [hsame] at hup ⊢
    exact h.up hup

lemma connect (h : m.Guarding b) (c : Checks) (a : Answers) {r : ConnectRequest}
    (hks : r.killSwitch = true) : (connect c a r m).2.Guarding b :=
  h.of_outcome (outcome_connect h.tracked) (firewall_connect h.tracked hks).1

lemma connectMultihop (h : m.Guarding b) (c : Checks) (a : Answers) {r : MultihopRequest}
    (hks : r.killSwitch = true) : (connectMultihop c a r m).2.Guarding b :=
  h.of_outcome (outcome_connectMultihop h.tracked) (firewall_connectMultihop h.tracked hks).1

lemma status (h : m.Guarding b) (a : StatusAnswers) : (m.status a).2.Guarding b := by
  obtain ⟨hfw, hbackend, hup⟩ := m.frame_status a
  refine ⟨h.tracked.status a, hbackend.trans h.backend, ?_⟩
  intro hstate
  rw [hfw]
  exact h.up (hup hstate)

lemma disconnect (h : m.Guarding b) : m.disconnect.2.Guarding b :=
  ⟨tracked_of_clean h.tracked.clean_disconnect, h.backend, fun hup => TunnelState.noConfusion hup⟩

end Guarding

/-- The call does not connect with the kill switch off. -/
def Call.Guarded : Call → Prop
  | .connect _ r => r.killSwitch = true
  | .connectMultihop _ r => r.killSwitch = true
  | _ => True

lemma Guarding.step {c : Checks} {b : Backend} {m m' : Manager} (h : m.Guarding b) {q : Call}
    (hguard : q.Guarded) (hq : step c m q = some m') : m'.Guarding b := by
  cases q with
  | connect a r =>
      cases hq
      exact h.connect c a hguard
  | connectMultihop a r =>
      cases hq
      exact h.connectMultihop c a hguard
  | status a =>
      cases hq
      exact h.status a
  | disconnect =>
      cases hq
      exact h.disconnect
  | disconnectIfActive =>
      cases hq
      rw [disconnectIfActive]
      split
      · exact h
      · exact h.disconnect

/-- No command of this call opens the kill switch. -/
def Call.Harmless (c : Checks) (b : Backend) : Call → Prop
  | .connect a r => harmlessConnect c a b r = true
  | .connectMultihop a r => harmlessMultihop c a b r = true
  | .status _ => True
  | .disconnect | .disconnectIfActive => False

instance (c : Checks) (b : Backend) (q : Call) : Decidable (q.Harmless c b) := by
  cases q with
  | connect a r => exact inferInstanceAs (Decidable (_ = true))
  | connectMultihop a r => exact inferInstanceAs (Decidable (_ = true))
  | status a => exact inferInstanceAs (Decidable True)
  | disconnect => exact inferInstanceAs (Decidable False)
  | disconnectIfActive => exact inferInstanceAs (Decidable False)

lemma Guarding.blocking_step {c : Checks} {b : Backend} {m m' : Manager} (h : m.Guarding b)
    {q : Call} (hguard : q.Guarded) (hharmless : q.Harmless c m.inner.backend)
    (hblock : m.sys.firewall.Blocking b) (hq : Manager.step c m q = some m') :
    m'.sys.firewall.Blocking b := by
  obtain rfl := h.backend
  cases q with
  | connect a r =>
      cases hq
      exact (firewall_connect h.tracked hguard).2 hharmless hblock
  | connectMultihop a r =>
      cases hq
      exact (firewall_connectMultihop h.tracked hguard).2 hharmless hblock
  | status a =>
      cases hq
      rw [(m.frame_status a).1]
      exact hblock
  | disconnect => exact hharmless.elim
  | disconnectIfActive => exact hharmless.elim

end Manager

/-! ### The hook with the kill switch on -/

/-- What may be on its way to the manager while the kill switch is on;
`open_` says whether a Disconnect may be. -/
def Command.Guarded (open_ : Bool) : Command → Prop
  | .connect _ r => r.killSwitch = true
  | .connectMultihop _ r => r.killSwitch = true
  | .disconnect _ => open_ = true
  | .teardown _ => True
  | .status => True

/-- The command takes the session down. -/
def Command.isDisconnect : Command → Bool
  | .disconnect _ => true
  | _ => false

/-- The user keeps the kill switch on. -/
def Action.keepsKillSwitch : Action → Bool
  | .changeSettings settings => settings.killSwitch
  | _ => true

namespace App

/-- The user disconnects. -/
def disconnects (s : App) : Action → Bool
  | .press => s.phase = .connecting ∨ s.phase = .connected
  | _ => false

/-- Everything that the hook is about to do carries the kill switch. -/
structure Armed (open_ : Bool) (s : App) : Prop where
  killSwitch : s.settings.killSwitch = true
  sweeps : ∀ w ∈ s.sweeps, w.killSwitch = true
  queue : ∀ cmd ∈ s.queue, cmd.Guarded open_

namespace Armed

variable {open_ : Bool} {s : App}

lemma setPhase (h : s.Armed open_) (phase : Phase) : (s.setPhase phase).Armed open_ := by
  obtain ⟨-, hsettings, -, hsweeps, -, hqueue, -⟩ := s.frame_setPhase phase
  refine ⟨?_, ?_, ?_⟩
  · rw [hsettings]
    exact h.killSwitch
  · rw [hsweeps]
    exact h.sweeps
  · rw [hqueue]
    exact h.queue

lemma settle (h : s.Armed open_) (id : Nat) (phase : Phase) : (s.settle id phase).Armed open_ := by
  have hphase := h.setPhase phase
  exact ⟨hphase.killSwitch, fun w hw => h.sweeps w (List.mem_filter.mp hw).1, hphase.queue⟩

lemma setAwait (h : s.Armed open_) (id : Nat) (await : Await) {commands : List Command}
    (hcommands : ∀ cmd ∈ commands, cmd.Guarded open_) :
    (s.setAwait id await commands).Armed open_ := by
  refine ⟨h.killSwitch, ?_, ?_⟩
  · intro w hw
    obtain ⟨v, hv, rfl⟩ := List.mem_map.mp hw
    split
    · exact h.sweeps v hv
    · exact h.sweeps v hv
  · intro cmd hcmd
    rcases List.mem_append.mp hcmd with hold | hnew
    · exact h.queue cmd hold
    · exact hcommands cmd hnew

lemma attempt (h : s.Armed open_) {w : Sweep} (hw : w ∈ s.sweeps) (i : Nat)
    (chain : List Attempt) : (s.attempt w i chain).Armed open_ := by
  rcases s.attempt_cases w i chain with heq | ⟨-, heq⟩ | ⟨-, a, heq⟩
  · rw [heq]
    refine h.setAwait _ _ ?_
    simp [Command.Guarded]
  · rw [heq]
    exact h.settle _ _
  · rw [heq]
    refine h.setAwait _ _ ?_
    simpa [Command.Guarded, Attempt.request] using h.sweeps w hw

lemma abortSweep (h : s.Armed open_) : s.abortSweep.Armed open_ := by
  refine ⟨h.killSwitch, ?_, h.queue⟩
  intro w hw
  obtain ⟨v, hv, rfl⟩ := List.mem_map.mp hw
  split
  · exact h.sweeps v hv
  · exact h.sweeps v hv

lemma connect (h : s.Armed open_) : s.connect.Armed open_ := by
  rw [App.connect]
  split
  · exact h
  · have habort := (h.setPhase .connecting).abortSweep
    refine ⟨habort.killSwitch, ?_, habort.queue⟩
    intro w hw
    rcases List.mem_append.mp hw with hold | hnew
    · exact habort.sweeps w hold
    · rw [List.mem_singleton.mp hnew]
      exact habort.killSwitch

lemma disconnect (h : s.Armed true) : s.disconnect.Armed true := by
  refine ⟨h.killSwitch, h.abortSweep.sweeps, ?_⟩
  intro cmd hcmd
  rcases List.mem_append.mp hcmd with hold | hnew
  · exact h.queue cmd hold
  · rw [List.mem_singleton.mp hnew]
    rfl

lemma connectAnswered (h : s.Armed open_) (id : Nat) (r : Reply) :
    (s.connectAnswered id r).Armed open_ := by
  rw [App.connectAnswered]
  split
  · exact h
  · rename_i w hw
    split
    · exact h.setAwait _ _ (by simp)
    · split
      · exact h.attempt (mem_of_find hw).1 _ _
      · exact h.settle _ _
    · exact h

lemma polled (h : s.Armed open_) (status : TunnelStatus) : (s.polled status).Armed open_ := by
  rw [App.polled]
  split
  · exact h.setPhase _
  · exact h

/-- Serving a command leaves the rest of the queue. -/
lemma rest (h : s.Armed open_) {cmd : Command} {rest : List Command}
    (hqueue : s.queue = cmd :: rest) : ∀ x ∈ rest, x.Guarded open_ := by
  intro x hx
  exact h.queue x (by rw [hqueue]; exact List.mem_cons_of_mem _ hx)

/-- The hook stays armed while the user keeps the kill switch on. -/
lemma step {c : Checks} {s' : App} {action : Action} (h : s.Armed open_)
    (hkeep : action.keepsKillSwitch)
    (hopen : s.disconnects action → open_ = true)
    (hstep : App.step c s action = some s') : s'.Armed open_ := by
  cases moves_of_step hstep with
  | disconnect hphase =>
      obtain rfl := hopen (decide_eq_true hphase)
      exact h.disconnect
  | connect hphase => exact h.connect
  | reconnect htimer => exact connect ⟨h.killSwitch, h.sweeps, h.queue⟩
  | autoConnect hphase => exact connect ⟨h.killSwitch, h.sweeps, h.queue⟩
  | changeSettings settings hphase => exact ⟨hkeep, h.sweeps, h.queue⟩
  | reschedule settings hphase =>
      obtain ⟨-, hsettings, -, hsweeps, -, hqueue, -⟩ :=
        frame_scheduleReconnect { s with settings := settings }
      exact ⟨by rw [hsettings]; exact hkeep, by rw [hsweeps]; exact h.sweeps,
        by rw [hqueue]; exact h.queue⟩
  | enrolled chain hw hawait => exact h.attempt hw _ _
  | hopsEnrolled hops hw hawait =>
      refine h.setAwait _ _ ?_
      simpa [Command.Guarded, Hops.request] using h.sweeps _ hw
  | enrollFailed hw hawait => exact h.settle _ _
  | probeCancelled up hw hawait haborted => exact h.settle _ _
  | probedUp hw hawait haborted => exact h.settle _ _
  | probedDead hw hawait haborted => exact h.attempt hw _ _
  | poll hphase =>
      refine ⟨h.killSwitch, h.sweeps, ?_⟩
      intro cmd hcmd
      rcases List.mem_append.mp hcmd with hold | hnew
      · exact h.queue cmd hold
      · rw [List.mem_singleton.mp hnew]
        trivial
  | connectServed a sa hqueue =>
      refine connectAnswered ?_ _ _
      exact ⟨h.killSwitch, h.sweeps, h.rest hqueue⟩
  | multihopServed a sa hqueue phase hphase =>
      refine settle ?_ _ _
      exact ⟨h.killSwitch, h.sweeps, h.rest hqueue⟩
  | teardownServed a sa hqueue =>
      refine settle ?_ _ _
      exact ⟨h.killSwitch, h.sweeps, h.rest hqueue⟩
  | disconnectServed a sa hqueue =>
      refine setPhase ?_ _
      exact ⟨h.killSwitch, h.sweeps, h.rest hqueue⟩
  | statusServed a sa hqueue =>
      refine polled ?_ _
      exact ⟨h.killSwitch, h.sweeps, h.rest hqueue⟩
  | repair sa => exact ⟨h.killSwitch, h.sweeps, h.queue⟩

/-- The calls of an armed hook connect with the kill switch on. -/
lemma guarded_call (h : s.Armed open_) {action : Action} {q : Manager.Call}
    (hq : s.call action = some q) : q.Guarded := by
  cases action with
  | serve a sa =>
      rw [call] at hq
      obtain ⟨cmd, hhead, rfl⟩ := Option.map_eq_some_iff.mp hq
      have hcmd := h.queue cmd (List.mem_of_mem_head? hhead)
      cases cmd with
      | connect id r => exact hcmd
      | connectMultihop id r => exact hcmd
      | teardown id => trivial
      | disconnect before => trivial
      | status => trivial
  | repair sa =>
      cases hq
      trivial
  | press => cases hq
  | reconnect => cases hq
  | autoConnect => cases hq
  | changeSettings settings => cases hq
  | enrolled id chain => cases hq
  | hopsEnrolled id hops => cases hq
  | enrollFailed id => cases hq
  | probed id up => cases hq
  | poll => cases hq

end Armed

/-! ### Runs -/

/-- A tunnel that is up is guarded, and stays guarded as long as the user
keeps the kill switch on. -/
structure Guarded (b : Backend) (open_ : Bool) (s : App) : Prop where
  armed : s.Armed open_
  guarding : s.manager.Guarding b

lemma Guarded.step {c : Checks} {b : Backend} {open_ : Bool} {s s' : App} {action : Action}
    (h : s.Guarded b open_) (hkeep : action.keepsKillSwitch)
    (hopen : s.disconnects action → open_ = true) (hstep : App.step c s action = some s') :
    s'.Guarded b open_ := by
  refine ⟨h.armed.step hkeep hopen hstep, ?_⟩
  rcases manager_of_step hstep with ⟨-, hsame⟩ | ⟨q, hcall, hq⟩
  · rw [hsame]
    exact h.guarding
  · exact h.guarding.step (h.armed.guarded_call hcall) hq

lemma guarded_boot {b : Backend} {m : Manager} (h : m.Guarding b) {settings : Settings}
    (hks : settings.killSwitch = true) : (boot m settings).Guarded b true := by
  have hfresh : ∀ s : App, s.settings.killSwitch = true → s.sweeps = [] → s.queue = [] →
      s.manager = m → ∀ phase, (s.setPhase phase).Guarded b true := by
    intro s hsettings hsweeps hqueue hm phase
    refine ⟨Armed.setPhase ⟨hsettings, ?_, ?_⟩ phase, ?_⟩
    · simp [hsweeps]
    · simp [hqueue]
    · rw [(s.frame_setPhase phase).2.2.2.2.2.2.1, hm]
      exact h
  simp only [boot]
  split
  · exact hfresh _ hks rfl rfl rfl _
  · exact hfresh _ hks rfl rfl rfl _
  · exact hfresh _ hks rfl rfl rfl _
  · exact hfresh _ hks rfl rfl rfl _

/-- The firewall's record starts afresh. -/
def newRecord (s : App) : App :=
  { s with manager := { s.manager with
      sys := { s.manager.sys with firewall := ⟨s.manager.sys.firewall.now, []⟩ } } }

/-- The user neither disconnects nor turns the kill switch off. -/
def Unattended (s : App) (action : Action) : Prop :=
  action.keepsKillSwitch ∧ s.disconnects action = false

instance (s : App) (action : Action) : Decidable (s.Unattended action) :=
  inferInstanceAs (Decidable (_ ∧ _))

/-- The call that the step makes, if any, opens no kill switch. -/
def Harmless (c : Checks) (s : App) (action : Action) : Prop :=
  ∀ q ∈ s.call action, q.Harmless c s.manager.inner.backend

instance (c : Checks) (s : App) (action : Action) : Decidable (s.Harmless c action) :=
  inferInstanceAs (Decidable (∀ q ∈ s.call action, _))

/-- No Disconnect is on its way. -/
def Undisturbed (s : App) : Prop := ∀ cmd ∈ s.queue, cmd.isDisconnect = false

instance (s : App) : Decidable s.Undisturbed :=
  inferInstanceAs (Decidable (∀ cmd ∈ s.queue, cmd.isDisconnect = false))

lemma Guarded.newRecord {b : Backend} {s : App} (h : s.Guarded b true) (hopen : s.Undisturbed) :
    s.newRecord.Guarded b false := by
  refine ⟨⟨h.armed.killSwitch, h.armed.sweeps, ?_⟩, ?_⟩
  · intro cmd hcmd
    have hguarded := h.armed.queue cmd hcmd
    cases cmd with
    | connect id r => exact hguarded
    | connectMultihop id r => exact hguarded
    | teardown id => trivial
    | disconnect before => exact absurd (hopen _ hcmd) nofun
    | status => trivial
  · obtain ⟨⟨hwithin, hdns, hnative, hdown⟩, hbackend, hup⟩ := h.guarding
    exact ⟨⟨⟨hwithin.sidecars, hwithin.bridges, hwithin.routes⟩, hdns, hnative, hdown⟩, hbackend,
      hup⟩

/-- One step of an unattended app that opens nothing. -/
lemma blocking_step {c : Checks} {b : Backend} {s s' : App} {action : Action}
    (h : s.Guarded b false) (hharmless : s.Harmless c action)
    (hblock : s.manager.sys.firewall.Blocking b) (hstep : App.step c s action = some s') :
    s'.manager.sys.firewall.Blocking b := by
  rcases manager_of_step hstep with ⟨-, hsame⟩ | ⟨q, hcall, hq⟩
  · rw [hsame]
    exact hblock
  · exact h.guarding.blocking_step (h.armed.guarded_call hcall) (hharmless q hcall) hblock hq

/-- **Leak protection survives** every run of automatic reconnects whose calls
open nothing: once a tunnel is up with the kill switch on, every state that
the firewall passes through blocks. -/
theorem leak_protection_survives (c : Checks) (b : Backend) (qs : List Manager.Call) {m : Manager}
    (settings : Settings) (as bs : List Action) {s t : App} (hqs : ∀ q ∈ qs, q.Guarded)
    (hm : exec (Manager.step c) (Manager.new b) qs = some m) (hks : settings.killSwitch = true)
    (has : ∀ action ∈ as, action.keepsKillSwitch)
    (hs : exec (step c) (boot m settings) as = some s) (hup : s.manager.inner.state = .up)
    (hopen : s.Undisturbed)
    (hbs : Along (step c) (fun s action => s.Unattended action ∧ s.Harmless c action) s.newRecord
      bs)
    (ht : exec (step c) s.newRecord bs = some t) : t.manager.sys.firewall.Blocking b := by
  have hguarding : m.Guarding b :=
    exec_invariant (fun _ _ _ hm hq hstep => hm.step hq hstep) (Manager.Guarding.new b)
      (along_of_mem hqs _) hm
  have hguarded : s.Guarded b true :=
    exec_invariant (fun _ _ _ hs hkeep hstep => hs.step hkeep (fun _ => rfl) hstep)
      (guarded_boot hguarding hks) (along_of_mem has _) hs
  have hblock : s.newRecord.manager.sys.firewall.Blocking b := by
    refine ⟨hguarded.guarding.up hup, ?_⟩
    intro f hf
    cases hf
  refine (exec_invariant (I := fun s => s.Guarded b false ∧ s.manager.sys.firewall.Blocking b)
    ?_ ⟨hguarded.newRecord hopen, hblock⟩ hbs ht).2
  intro s action s' hs hguard hstep
  obtain ⟨⟨hkeep, hstays⟩, hharmless⟩ := hguard
  exact ⟨hs.1.step hkeep (fun hopens => absurd (hopens.symm.trans hstays) nofun) hstep,
    blocking_step hs.1 hharmless hs.2 hstep⟩

/-! ### A reconnect that works and one that fails -/

/-- The last handshake is stale. -/
def staleHandshake : Manager.StatusAnswers :=
  { Manager.quietPoll with stats := some ⟨1024, 1024, some 100⟩, instant := 400, now := 400 }

/-- An attempt over UDP, without split tunnelling. -/
def plainAttempt : Attempt where
  country := "de"
  wgConfig := "[Interface]"
  endpoint := "1.2.3.4:51820"
  assignedIp := "10.8.0.2"
  tls := none
  split := none

/-- The settings of somebody who has the kill switch on. -/
def guardedSettings : Settings where
  selected := true
  multihop := false
  killSwitch := true
  autoConnect := false

/-- The user connects. -/
def connectRun : List Action :=
  [.press, .enrolled 0 [plainAttempt], .serve Manager.everythingWorks staleHandshake,
    .probed 0 true]

/-- The tunnel dies, and the app reconnects. -/
def reconnectRun (a : Manager.Answers) : List Action :=
  [.repair staleHandshake, .poll, .serve a staleHandshake, .reconnect,
    .enrolled 1 [plainAttempt], .serve a staleHandshake]

/-- The connected app on macOS. -/
def connectedApp : App :=
  let s := boot (.new .macosPf) guardedSettings
  (exec (step Manager.lenientChecks) s connectRun).getD s

/-- The same app after its reconnect. -/
def reconnectedApp (a : Manager.Answers) : App :=
  (exec (step Manager.lenientChecks) connectedApp.newRecord (reconnectRun a)).getD connectedApp

/-- A reconnect that works keeps the kill switch on. -/
theorem leak_protection_survives_reconnect :
    exec (step Manager.lenientChecks) connectedApp.newRecord
      (reconnectRun Manager.everythingWorks) =
        some (reconnectedApp Manager.everythingWorks) ∧
      (reconnectedApp Manager.everythingWorks).phase = .connecting ∧
      (reconnectedApp Manager.everythingWorks).manager.sys.firewall.Blocking .macosPf := by
  refine ⟨by decide +kernel, by decide +kernel, ?_⟩
  exact leak_protection_survives (s := connectedApp) Manager.lenientChecks .macosPf []
    guardedSettings connectRun (reconnectRun Manager.everythingWorks) (by simp) rfl rfl
    (by decide +kernel) (by decide +kernel) (by decide +kernel) (by decide +kernel)
    (by decide +kernel) (by decide +kernel)

/-- A reconnect whose sidecar does not spawn opens the kill switch. -/
theorem not_leak_protection_survives :
    ¬ ∀ (c : Checks) (b : Backend) (qs : List Manager.Call) (m : Manager) (settings : Settings)
      (as bs : List Action) (s t : App), (∀ q ∈ qs, q.Guarded) →
      exec (Manager.step c) (Manager.new b) qs = some m → settings.killSwitch = true →
      (∀ action ∈ as, action.keepsKillSwitch) →
      exec (step c) (boot m settings) as = some s → s.phase = .connected →
      s.manager.inner.state = .up → s.Undisturbed →
      Along (step c) (fun s action => s.Unattended action) s.newRecord bs →
      exec (step c) s.newRecord bs = some t → t.manager.sys.firewall.Blocking b := by
  intro h
  have hblock := h Manager.lenientChecks .macosPf [] _ guardedSettings connectRun
    (reconnectRun Manager.noSidecar) connectedApp (reconnectedApp Manager.noSidecar) (by simp) rfl
    rfl (by decide +kernel) (by decide +kernel) (by decide +kernel) (by decide +kernel)
    (by decide +kernel) (by decide +kernel) (by decide +kernel)
  exact absurd hblock (by decide +kernel)

end App

end CumulusVpn.Desktop
