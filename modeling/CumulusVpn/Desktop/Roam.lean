/-
The roam repair over the sessions of the manager
(`clients/desktop/src-tauri/tunnel/src/lib.rs`).

The source address that the last poll saw outlives its session: `disconnect`
forgets it, a connect that replaces a session does not.

* `Manager.roamAction`: what the repair does to the transport of a session;
* `Manager.Connected`: what a connect leaves of the remembered address;
* `World`: the manager in a machine that changes networks;
* `World.Remembered`: the remembered address is one of this session;
* `no_spurious_roam`: **the repair acts only on an address that has changed
  since the session came up, where no session comes up beside the remembered
  address of another network**.
-/
import CumulusVpn.Desktop.Unwind

namespace CumulusVpn.Desktop

open StepSystem

/-! ### The repair -/

/-- What a poll does about another network. -/
inductive RoamAction
  /-- a wg-tls session is failed -/
  | fail
  | rebind
deriving DecidableEq, Repr

namespace Manager

/-- What `repair_after_roam` does to the transport of the session. -/
def roamAction (a : StatusAnswers) (m : Manager) : Option RoamAction :=
  match m.inner.endpoint, a.localSource with
  | some endpoint, some src =>
      if m.inner.localSrc = none ∨ m.inner.localSrc = some src then none
      else if m.inner.bridge.isSome then some .fail
      else
        let s := m.sys.removeRoute (stripEndpointPort endpoint)
        match addRoute a.route ⟨stripEndpointPort endpoint, none⟩ s.routes, m.inner.sidecar with
        | (.ok (), _), some _ => some .rebind
        | _, _ => none
  | _, _ => none

section Repair

variable {m : Manager} {a : StatusAnswers}

/-- **What a repair leaves**, by what it does to the transport. -/
inductive Repaired (m : Manager) (a : StatusAnswers) : Option RoamAction → Manager → Prop
  | untouched {m' : Manager} (hstate : m'.inner.state = m.inner.state)
      (hsocket : m.inner.sidecar.isSome → m'.inner.repairedAt = m.inner.repairedAt) :
      Repaired m a none m'
  | failed {m' : Manager} (hstate : m'.inner.state = .error)
      (herror : m'.inner.error = some "network changed — reconnecting") :
      Repaired m a (some .fail) m'
  | rebound {m' : Manager} (hok : ∀ u, a.rebind = .ok u → m'.inner.repairedAt = some a.instant)
      (herror : ∀ e, a.rebind = .error e → m'.inner.error =
        some ("rebind after network change failed: " ++ e.message)) :
      Repaired m a (some .rebind) m'

/-- The action is what the repair does. -/
theorem repaired (m : Manager) (a : StatusAnswers) :
    Repaired m a (m.roamAction a) (m.repairAfterRoam a) := by
  cases hep : m.inner.endpoint with
  | none =>
      rw [roamAction, repairAfterRoam, hep]
      exact .untouched rfl fun _ => rfl
  | some endpoint =>
      cases hsrc : a.localSource with
      | none =>
          rw [roamAction, repairAfterRoam, hep, hsrc]
          exact .untouched rfl fun _ => rfl
      | some src =>
          rw [roamAction, repairAfterRoam, hep, hsrc]
          dsimp only
          by_cases hsame : m.inner.localSrc = none ∨ m.inner.localSrc = some src
          · rw [if_pos hsame, if_pos hsame]
            exact .untouched rfl fun _ => rfl
          · rw [if_neg hsame, if_neg hsame]
            by_cases hbridge : m.inner.bridge.isSome
            · rw [if_pos hbridge, if_pos hbridge]
              exact .failed rfl rfl
            · rw [if_neg hbridge, if_neg hbridge]
              generalize addRoute a.route ⟨stripEndpointPort endpoint, none⟩
                (m.sys.removeRoute (stripEndpointPort endpoint)).routes = added
              obtain ⟨answer, routes⟩ := added
              cases answer with
              | error e => exact .untouched rfl fun _ => rfl
              | ok u =>
                  cases hdev : m.inner.sidecar with
                  | none =>
                      refine .untouched rfl fun hdown => ?_
                      rw [hdev] at hdown
                      cases hdown
                  | some dev =>
                      refine .rebound (fun u hok => ?_) fun e herror => ?_
                      · rw [hok]
                      · rw [herror]

/-- An action needs a remembered address that is not the OS's. -/
lemma exists_moved_of_roamAction (h : (m.roamAction a).isSome) :
    ∃ endpoint p src, m.inner.endpoint = some endpoint ∧ m.inner.localSrc = some p ∧
      a.localSource = some src ∧ p ≠ src := by
  rw [roamAction] at h
  split at h
  · rename_i endpoint src hep hsrc
    split at h
    · cases h
    · rename_i hmoved
      obtain ⟨p, hp⟩ := Option.ne_none_iff_exists'.mp fun hnone => hmoved (Or.inl hnone)
      exact ⟨endpoint, p, src, hep, hp, hsrc, fun heq => hmoved (Or.inr (heq ▸ hp))⟩
  · cases h

/-- The remembered address after a repair is the one before, or the OS's. -/
lemma localSrc_repairAfterRoam (m : Manager) (a : StatusAnswers) :
    (m.repairAfterRoam a).inner.endpoint = m.inner.endpoint ∧
      ((m.repairAfterRoam a).inner.localSrc = m.inner.localSrc ∨
        m.inner.endpoint.isSome ∧ (m.repairAfterRoam a).inner.localSrc = a.localSource) := by
  rw [repairAfterRoam]
  split
  · rename_i endpoint src hep hsrc
    dsimp only
    split
    · exact ⟨rfl, Or.inr ⟨hep ▸ rfl, hsrc.symm⟩⟩
    · split
      · exact ⟨rfl, Or.inr ⟨hep ▸ rfl, hsrc.symm⟩⟩
      · split
        · exact ⟨rfl, Or.inl rfl⟩
        · split
          · exact ⟨rfl, Or.inl rfl⟩
          · exact ⟨rfl, Or.inr ⟨hep ▸ rfl, hsrc.symm⟩⟩
  · exact ⟨rfl, Or.inl rfl⟩

lemma localSrc_reassertDns (m : Manager) (a : StatusAnswers) :
    (m.reassertDns a).inner.endpoint = m.inner.endpoint ∧
      (m.reassertDns a).inner.localSrc = m.inner.localSrc := by
  rw [reassertDns]
  split <;> exact ⟨rfl, rfl⟩

lemma localSrc_refreshStats (i : Inner) (stats : Option WgStats) :
    (refreshStats i stats).endpoint = i.endpoint ∧
      (refreshStats i stats).localSrc = i.localSrc := by
  simp only [refreshStats]
  split <;> exact ⟨rfl, rfl⟩

lemma localSrc_watchdog (a : StatusAnswers) (i : Inner) :
    (watchdog a i).endpoint = i.endpoint ∧ (watchdog a i).localSrc = i.localSrc := by
  rw [watchdog]
  split <;> exact ⟨rfl, rfl⟩

/-- The remembered address after a poll. -/
lemma localSrc_status (m : Manager) (a : StatusAnswers) :
    (m.status a).2.inner.endpoint = m.inner.endpoint ∧
      ((m.status a).2.inner.localSrc = m.inner.localSrc ∨
        m.inner.endpoint.isSome ∧ (m.status a).2.inner.localSrc = a.localSource) := by
  rw [status]
  split
  · obtain ⟨hep, hsrc⟩ := m.localSrc_repairAfterRoam a
    obtain ⟨hep', hsrc'⟩ := (m.repairAfterRoam a).localSrc_reassertDns a
    have hstats := localSrc_refreshStats ((m.repairAfterRoam a).reassertDns a).inner a.stats
    have hdog := localSrc_watchdog a
      (refreshStats ((m.repairAfterRoam a).reassertDns a).inner a.stats)
    have hend := hdog.1.trans (hstats.1.trans (hep'.trans hep))
    have hkept := hdog.2.trans (hstats.2.trans hsrc')
    refine ⟨hend, ?_⟩
    rcases hsrc with hold | ⟨hsome, hnew⟩
    · exact Or.inl (hkept.trans hold)
    · exact Or.inr ⟨hsome, hkept.trans hnew⟩
  · exact ⟨rfl, Or.inl rfl⟩

end Repair

/-! ### Connects -/

/-- A connect on `m` that has begun: nothing has been forgotten. -/
structure Fresh (m : Manager) (endpoint : String) (i : Inner) : Prop where
  endpoint : i.endpoint = some endpoint
  localSrc : i.localSrc = m.inner.localSrc

/-- What a connect leaves of the remembered address. -/
inductive Connected (m : Manager) (endpoint : String) : Reply × Manager → Prop
  | refused (e : TunnelError) : Connected m endpoint (.error e, m)
  | failed (e : TunnelError) (m' : Manager) (hdown : m'.inner.state ≠ .up) :
      Connected m endpoint (.error e, m')
  | up (status : TunnelStatus) (m' : Manager) (hfresh : Fresh m endpoint m'.inner)
      (hstate : m'.inner.state = .up) (hdev : m'.inner.sidecar.isSome) :
      Connected m endpoint (.ok status, m')

section Connects

variable {m₀ m : Manager} {endpoint : String} {c : Checks} {a : Answers} {bridge : Option String}

lemma connected_fail (m : Manager) (e : TunnelError) : Connected m₀ endpoint (m.fail e) :=
  .failed e _ nofun

lemma connected_unwindSidecar (dev : String) (e : TunnelError) :
    Connected m₀ endpoint (unwindSidecar m dev bridge e) :=
  connected_fail _ e

lemma connected_unwindMultihop {exitIp entryIp : String} {entry exit_ : Option String}
    {routed : Bool} (e : TunnelError) :
    Connected m₀ endpoint (unwindMultihop m exitIp entryIp entry exit_ routed e) :=
  connected_fail _ e

lemma fresh_replace (m : Manager) (country endpoint : String) :
    Fresh m endpoint (m.replace country endpoint).inner := ⟨rfl, rfl⟩

lemma connected_installSession {r : ConnectRequest} {config : WgConfig} {dev : String}
    (h : Fresh m₀ r.endpoint m.inner) :
    Connected m₀ r.endpoint (installSession c a r config dev bridge m) := by
  rw [installSession]
  dsimp only
  split
  · exact connected_unwindSidecar dev _
  · split
    · exact connected_unwindSidecar dev _
    · exact .up _ _ ⟨h.endpoint, h.localSrc⟩ rfl rfl

lemma connected_bringUp {r : ConnectRequest} {config : WgConfig}
    (h : Fresh m₀ r.endpoint m.inner) :
    Connected m₀ r.endpoint (bringUp c a r config bridge m) := by
  rw [bringUp]
  dsimp only
  split
  · exact connected_fail _ _
  · rename_i dev _
    split
    · exact connected_unwindSidecar dev _
    · rename_i m' heq
      obtain ⟨s, rfl, -⟩ := engageWithTuns_eq heq
      split
      · exact connected_unwindSidecar dev _
      · exact connected_installSession ⟨h.endpoint, h.localSrc⟩

/-- A connect that comes up carries the remembered address over. -/
lemma connected_connect (c : Checks) (a : Answers) (r : ConnectRequest) (m : Manager) :
    Connected m r.endpoint (connect c a r m) := by
  rw [connect]
  have hfresh := fresh_replace m r.country r.endpoint
  split
  · exact .refused _
  · dsimp only
    split
    · rename_i e m' heq
      obtain ⟨s, rfl, -⟩ := engageFirst_eq heq
      exact .failed e _ fun hok => by cases hok
    · rename_i m' heq
      obtain ⟨s, rfl, -⟩ := engageFirst_eq heq
      split
      · exact connected_bringUp ⟨hfresh.endpoint, hfresh.localSrc⟩
      · split
        · exact connected_fail _ _
        · exact connected_bringUp ⟨hfresh.endpoint, hfresh.localSrc⟩

lemma connected_installMultihop {r : MultihopRequest} {innerCfg : WgConfig}
    {entry exit_ : String} (h : Fresh m₀ r.entryEndpoint m.inner) :
    Connected m₀ r.entryEndpoint (installMultihop c a r innerCfg entry exit_ m) := by
  rw [installMultihop]
  dsimp only
  split
  · exact connected_unwindMultihop _
  · split
    · exact connected_unwindMultihop _
    · split
      · exact connected_unwindMultihop _
      · exact .up _ _ ⟨h.endpoint, h.localSrc⟩ rfl rfl

lemma connected_bringUpExit {r : MultihopRequest} {innerCfg : WgConfig} {entry : String}
    (h : Fresh m₀ r.entryEndpoint m.inner) :
    Connected m₀ r.entryEndpoint (bringUpExit c a r innerCfg entry m) := by
  rw [bringUpExit]
  dsimp only
  split
  · exact connected_unwindMultihop _
  · split
    · exact connected_unwindMultihop _
    · rename_i m' heq
      obtain ⟨s, rfl, -⟩ := engageWithTuns_eq heq
      split
      · exact connected_unwindMultihop _
      · exact connected_installMultihop ⟨h.endpoint, h.localSrc⟩

lemma connected_bringUpEntry {r : MultihopRequest} {innerCfg : WgConfig}
    (h : Fresh m₀ r.entryEndpoint m.inner) :
    Connected m₀ r.entryEndpoint (bringUpEntry c a r innerCfg m) := by
  rw [bringUpEntry]
  dsimp only
  split
  · exact connected_unwindMultihop _
  · split
    · exact connected_unwindMultihop _
    · rename_i m' heq
      obtain ⟨s, rfl, -⟩ := engageWithTuns_eq heq
      split
      · exact connected_unwindMultihop _
      · exact connected_bringUpExit ⟨h.endpoint, h.localSrc⟩

lemma connected_connectMultihop (c : Checks) (a : Answers) (r : MultihopRequest) (m : Manager) :
    Connected m r.entryEndpoint (connectMultihop c a r m) := by
  rw [connectMultihop]
  have hfresh := fresh_replace m r.exitCountry r.entryEndpoint
  split
  · exact .refused _
  · dsimp only
    split
    · rename_i e m' heq
      obtain ⟨s, rfl, -⟩ := engageFirst_eq heq
      exact .failed e _ fun hok => by cases hok
    · rename_i m' heq
      obtain ⟨s, rfl, -⟩ := engageFirst_eq heq
      exact connected_bringUpEntry ⟨hfresh.endpoint, hfresh.localSrc⟩

end Connects

end Manager

/-! ### Networks -/

/-- The manager in a machine that changes networks. -/
structure World where
  manager : Manager
  /-- the address the OS would send from, by endpoint -/
  source : String → Option String
  /-- the sources in force since the session came up -/
  since : List (String → Option String)

/-- A call of the window, or a change of the network. -/
inductive Event
  | call (q : Manager.Call)
  /-- the OS has another source for an endpoint, or none -/
  | network (source : String → Option String)

namespace World

/-- A machine before the first session. -/
def start (b : Backend) (source : String → Option String) : World := ⟨.new b, source, [source]⟩

/-- The answers to a poll, with the OS's source for the endpoint of the session. -/
def answers (w : World) (a : Manager.StatusAnswers) : Manager.StatusAnswers :=
  { a with localSource := w.manager.inner.endpoint.bind w.source }

/-- A connect: a session that comes up begins with the source of now. -/
def connected (w : World) (x : Reply × Manager) : World where
  manager := x.2
  source := w.source
  since := if x.1.isOk then [w.source] else w.since

/-- The machine after an event. -/
def step (c : Checks) (w : World) : Event → World
  | .call (.connect a r) => w.connected (w.manager.connect c a r)
  | .call (.connectMultihop a r) => w.connected (w.manager.connectMultihop c a r)
  | .call (.status a) => { w with manager := (w.manager.status (w.answers a)).2 }
  | .call .disconnect => { w with manager := w.manager.disconnect.2 }
  | .call .disconnectIfActive => { w with manager := w.manager.disconnectIfActive.2 }
  | .network source => { w with source := source, since := source :: w.since }

/-- The next poll rebinds the socket of the session or fails it. -/
def Acts (w : World) (a : Manager.StatusAnswers) : Prop :=
  w.manager.inner.state = .up ∧ (w.manager.roamAction (w.answers a)).isSome

/-- The endpoint of the session has had two addresses since it came up. -/
def Changed (w : World) : Prop :=
  ∃ endpoint, w.manager.inner.endpoint = some endpoint ∧ ∃ f ∈ w.since, ∃ g ∈ w.since,
    ∃ p q, f endpoint = some p ∧ g endpoint = some q ∧ p ≠ q

/-- No address is remembered beside a session that comes up, or the OS's. -/
def Current (w : World) (endpoint : String) (x : Reply × Manager) : Prop :=
  x.1.isOk → w.manager.inner.localSrc = none ∨ w.manager.inner.localSrc = w.source endpoint

/-- The session that a call starts is over the network that the machine is on. -/
def Guard (c : Checks) (w : World) : Event → Prop
  | .call (.connect a r) => w.Current r.endpoint (w.manager.connect c a r)
  | .call (.connectMultihop a r) => w.Current r.entryEndpoint (w.manager.connectMultihop c a r)
  | _ => True

/-- The remembered address is one that the endpoint has had in this session. -/
structure Remembered (w : World) : Prop where
  now : w.source ∈ w.since
  seen : w.manager.inner.state = .up → ∀ endpoint p, w.manager.inner.endpoint = some endpoint →
    w.manager.inner.localSrc = some p → ∃ f ∈ w.since, f endpoint = some p

section Steps

variable {c : Checks} {w : World} {endpoint : String} {x : Reply × Manager}
  {a : Manager.StatusAnswers}

lemma remembered_start (b : Backend) (source : String → Option String) :
    (start b source).Remembered := ⟨List.mem_singleton_self source, nofun⟩

lemma Remembered.connected (h : w.Remembered) (hx : Manager.Connected w.manager endpoint x)
    (hcurrent : w.Current endpoint x) : (w.connected x).Remembered := by
  cases hx with
  | refused e => exact ⟨h.now, h.seen⟩
  | failed e m' hdown => exact ⟨h.now, fun hup => absurd hup hdown⟩
  | up status m' hfresh hstate hdev =>
      refine ⟨List.mem_singleton_self _, fun _ endpoint' p hep hp => ?_⟩
      have hsame : endpoint' = endpoint := Option.some.inj (hep.symm.trans hfresh.endpoint)
      have hold : w.manager.inner.localSrc = some p := hfresh.localSrc.symm.trans hp
      refine ⟨w.source, List.mem_singleton_self _, ?_⟩
      rcases hcurrent rfl with hnone | hsource
      · rw [hold] at hnone
        cases hnone
      · rw [hsame, ← hsource, hold]

lemma Remembered.poll (h : w.Remembered) (a : Manager.StatusAnswers) :
    ({ w with manager := (w.manager.status (w.answers a)).2 } : World).Remembered := by
  obtain ⟨hep, hsrc⟩ := w.manager.localSrc_status (w.answers a)
  refine ⟨h.now, fun hup endpoint p hendpoint hp => ?_⟩
  dsimp only at hup hendpoint hp
  rw [hep] at hendpoint
  rcases hsrc with hold | ⟨-, hnew⟩
  · have hstate : w.manager.inner.state = .up := by
      by_contra hdown
      rw [Manager.status, if_neg hdown] at hup
      exact hdown hup
    exact h.seen hstate endpoint p hendpoint (hold.symm.trans hp)
  · refine ⟨w.source, h.now, ?_⟩
    have hanswer : (w.answers a).localSource = some p := hnew.symm.trans hp
    rw [answers, hendpoint] at hanswer
    exact hanswer

/-- A step keeps the remembered address to the session. -/
lemma Remembered.step (h : w.Remembered) {e : Event} (hg : w.Guard c e) :
    (w.step c e).Remembered := by
  cases e with
  | network source =>
      refine ⟨List.mem_cons_self, fun hup endpoint p hep hp => ?_⟩
      obtain ⟨f, hf, hfp⟩ := h.seen hup endpoint p hep hp
      exact ⟨f, List.mem_cons_of_mem _ hf, hfp⟩
  | call q =>
      cases q with
      | connect a r => exact h.connected (w.manager.connected_connect c a r) hg
      | connectMultihop a r => exact h.connected (w.manager.connected_connectMultihop c a r) hg
      | status a => exact h.poll a
      | disconnect => exact ⟨h.now, fun hup => by cases hup⟩
      | disconnectIfActive =>
          rw [World.step, Manager.disconnectIfActive]
          split
          · exact h
          · exact ⟨h.now, fun hup => by cases hup⟩

lemma Remembered.changed (h : w.Remembered) (hacts : w.Acts a) : w.Changed := by
  obtain ⟨hup, haction⟩ := hacts
  obtain ⟨endpoint, p, src, hep, hp, hsrc, hne⟩ := Manager.exists_moved_of_roamAction haction
  obtain ⟨f, hf, hfp⟩ := h.seen hup endpoint p hep hp
  have hnow : w.source endpoint = some src := by
    rw [answers, hep] at hsrc
    exact hsrc
  exact ⟨endpoint, hep, f, hf, w.source, h.now, p, src, hfp, hnow, hne⟩

end Steps

/-! ### A session beside the address of another network -/

section Stale

variable {w : World} {endpoint p src : String} {a : Manager.StatusAnswers}

/-- A poll whose routes go through acts on an address that is not the OS's. -/
lemma acts_of_stale (hup : w.manager.inner.state = .up)
    (hep : w.manager.inner.endpoint = some endpoint) (hdev : w.manager.inner.sidecar.isSome)
    (hp : w.manager.inner.localSrc = some p) (hsrc : w.source endpoint = some src)
    (hne : p ≠ src) (hroute : ∀ routes r, a.route routes r = .ok ()) : w.Acts a := by
  have hanswer : (w.answers a).localSource = some src := by
    rw [answers, hep]
    exact hsrc
  refine ⟨hup, ?_⟩
  rw [Manager.roamAction, hep, hanswer]
  dsimp only
  have hmoved : ¬ (w.manager.inner.localSrc = none ∨ w.manager.inner.localSrc = some src) := by
    rw [hp]
    rintro (hnone | hsome)
    · cases hnone
    · exact hne (Option.some.inj hsome)
  rw [if_neg hmoved]
  split
  · rfl
  · obtain ⟨dev, hdev⟩ := Option.isSome_iff_exists.mp hdev
    have hadd : ∀ r routes, addRoute (w.answers a).route r routes = (.ok (), routes ++ [r]) := by
      intro r routes
      have hok : (w.answers a).route routes r = .ok () := hroute routes r
      rw [addRoute, hok]
    rw [hadd, hdev]
    rfl

/-- Sources that have one address for the endpoint. -/
lemma not_changed (hep : w.manager.inner.endpoint = some endpoint)
    (hone : ∀ f ∈ w.since, f endpoint = none ∨ f endpoint = some src) : ¬ w.Changed := by
  rintro ⟨endpoint', hep', f, hf, g, hg, x, y, hx, hy, hne⟩
  obtain rfl : endpoint = endpoint' := Option.some.inj (hep.symm.trans hep')
  have hsrc : ∀ f ∈ w.since, ∀ z, f endpoint = some z → z = src := by
    intro f hf z hz
    rcases hone f hf with hnone | hsome
    · rw [hnone] at hz
      cases hz
    · exact Option.some.inj (hz.symm.trans hsome)
  exact hne ((hsrc f hf x hx).trans (hsrc g hg y hy).symm)

/-- A session that comes up beside another address than the OS's is repaired
by its first poll, though its endpoint has had one address only. -/
lemma exists_spurious {c : Checks} {x : Reply × Manager}
    (hx : Manager.Connected w.manager endpoint x) (hstale : ¬ w.Current endpoint x) :
    ∃ f, ∀ a : Manager.StatusAnswers, (∀ routes r, a.route routes r = .ok ()) →
      ((w.connected x).step c (.network f)).Acts a ∧
        ¬ ((w.connected x).step c (.network f)).Changed := by
  rw [Current, Classical.not_imp, not_or] at hstale
  obtain ⟨hok, hsome, hother⟩ := hstale
  obtain ⟨p, hp⟩ := Option.ne_none_iff_exists'.mp hsome
  rw [hp] at hother
  cases hx with
  | refused e => cases hok
  | failed e m' hdown => cases hok
  | up status m' hfresh hstate hdev =>
      have hkept := hfresh.localSrc.trans hp
      cases hsource : w.source endpoint with
      | some src =>
          rw [hsource] at hother
          refine ⟨w.source, fun a hroute => ⟨?_, ?_⟩⟩
          · exact acts_of_stale hstate hfresh.endpoint hdev hkept hsource
              (fun heq => hother (congrArg some heq)) hroute
          · refine @not_changed _ _ src hfresh.endpoint fun f hf => ?_
            obtain rfl : f = w.source := by
              rcases List.mem_cons.mp hf with rfl | hf
              · rfl
              · exact List.mem_singleton.mp hf
            exact Or.inr hsource
      | none =>
          -- the first network that has an address for the endpoint will do
          obtain ⟨src, hne⟩ : ∃ src : String, p ≠ src := by
            by_cases hempty : p = ""
            · exact ⟨"0", by rw [hempty]; decide⟩
            · exact ⟨"", hempty⟩
          refine ⟨fun _ => some src, fun a hroute => ⟨?_, ?_⟩⟩
          · exact acts_of_stale hstate hfresh.endpoint hdev hkept rfl hne hroute
          · refine @not_changed _ _ src hfresh.endpoint fun f hf => ?_
            rcases List.mem_cons.mp hf with rfl | hf
            · exact Or.inr rfl
            · obtain rfl := List.mem_singleton.mp hf
              exact Or.inl hsource

end Stale

end World

/-! ### Runs -/

/-- **The roam repair acts only on an address that has changed** since the
session came up, in every run whose sessions come up with no address remembered,
or with the OS's; and wherever one comes up otherwise, the repair of its first
poll is spurious on some network. -/
theorem no_spurious_roam (c : Checks) (b : Backend) (source : String → Option String)
    (events : List Event) :
    (Along (total (World.step c)) (World.Guard c) (.start b source) events →
      ∀ a, (events.foldl (World.step c) (.start b source)).Acts a →
        (events.foldl (World.step c) (.start b source)).Changed) ∧
    ∀ e, ¬ (events.foldl (World.step c) (.start b source)).Guard c e →
      ∃ f, ∀ a : Manager.StatusAnswers, (∀ routes r, a.route routes r = .ok ()) →
        ((events ++ [e, .network f]).foldl (World.step c) (.start b source)).Acts a ∧
          ¬ ((events ++ [e, .network f]).foldl (World.step c) (.start b source)).Changed := by
  refine ⟨fun hguard a hacts => ?_, fun e hbroken => ?_⟩
  · have hremembered : (events.foldl (World.step c) (.start b source)).Remembered :=
      foldl_invariant (fun _ _ h hg => h.step hg) (World.remembered_start b source) hguard
    exact hremembered.changed hacts
  · have hrun : ∀ f, (events ++ [e, .network f]).foldl (World.step c) (.start b source) =
        ((events.foldl (World.step c) (.start b source)).step c e).step c (.network f) :=
      fun f => List.foldl_append
    simp only [hrun]
    cases e with
    | network source => exact absurd trivial hbroken
    | call q =>
        cases q with
        | connect a r =>
            exact World.exists_spurious (Manager.connected_connect c a r _) hbroken
        | connectMultihop a r =>
            exact World.exists_spurious (Manager.connected_connectMultihop c a r _) hbroken
        | status a => exact absurd trivial hbroken
        | disconnect => exact absurd trivial hbroken
        | disconnectIfActive => exact absurd trivial hbroken

/-! ### A switch of networks between two sessions -/

section Example

/-- A session over a TLS bridge. -/
def overTls : ConnectRequest := { Manager.guardedRequest with tls := some ⟨"1.2.3.4:443", "host"⟩ }

/-- The network at home. -/
def home : String → Option String := fun _ => some "192.168.0.2"

/-- The network at the office. -/
def office : String → Option String := fun _ => some "10.0.0.7"

instance (w : World) (a : Manager.StatusAnswers) : Decidable (w.Acts a) :=
  inferInstanceAs (Decidable (_ ∧ _))

instance (w : World) (endpoint : String) (x : Reply × Manager) :
    Decidable (w.Current endpoint x) := inferInstanceAs (Decidable (_ → _))

/-- A session over TLS whose machine changes networks. -/
def roaming : List Event :=
  [.call (.connect Manager.everythingWorks overTls), .call (.status Manager.quietPoll),
    .network office]

/-- The session roams, and the one that replaces it comes up beside the address
of another network. -/
theorem no_spurious_roam_office :
    (roaming.foldl (World.step Manager.lenientChecks) (.start .macosPf home)).Changed ∧
    ∃ f, ∀ a : Manager.StatusAnswers, (∀ routes r, a.route routes r = .ok ()) →
      ((roaming ++ [Event.call (.connect Manager.everythingWorks overTls), .network f]).foldl
        (World.step Manager.lenientChecks) (.start .macosPf home)).Acts a ∧
      ¬ ((roaming ++ [Event.call (.connect Manager.everythingWorks overTls), .network f]).foldl
        (World.step Manager.lenientChecks) (.start .macosPf home)).Changed := by
  have hmain := no_spurious_roam Manager.lenientChecks .macosPf home roaming
  refine ⟨hmain.1 ⟨fun _ => Or.inl rfl, trivial, trivial, trivial⟩ Manager.quietPoll
    (by decide +kernel), ?_⟩
  refine hmain.2 (.call (.connect Manager.everythingWorks overTls)) fun hcurrent => ?_
  exact absurd (hcurrent (by decide +kernel)) (by decide +kernel)

/-- The network changes, the session is replaced without a `disconnect`, and the
first poll of the new session fails it for a change it has not seen. -/
theorem not_no_spurious_roam :
    ¬ ∀ (c : Checks) (b : Backend) (source : String → Option String) (events : List Event)
      (a : Manager.StatusAnswers), (events.foldl (World.step c) (.start b source)).Acts a →
        (events.foldl (World.step c) (.start b source)).Changed := by
  intro h
  obtain ⟨endpoint, -, f, hf, g, hg, p, q, hp, hq, hne⟩ :=
    h Manager.lenientChecks .macosPf home
      (roaming ++ [.call (.connect Manager.everythingWorks overTls)]) Manager.quietPoll
      (by decide +kernel)
  obtain rfl := List.mem_singleton.mp hf
  obtain rfl := List.mem_singleton.mp hg
  exact hne (Option.some.inj (hp.symm.trans hq))

end Example

end CumulusVpn.Desktop
