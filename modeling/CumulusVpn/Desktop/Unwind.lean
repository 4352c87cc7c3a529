/-
A failed connect unwinds.

The manager remembers everything it installs (`Manager.Tracked`), so every
exit can release it.

* `Sys.Within`: what is installed lies within given devices, bridges and
  route destinations, and what each removal leaves of it;
* `Manager.Tracked`: the installed set lies within what the manager
  remembers, and nothing is installed while it is down;
* `Manager.Outcome`: how a connect ends: refused, stopped by its first
  kill-switch engage, unwound, or up; `outcome_connect`,
  `outcome_connectMultihop`;
* `failed_connect_unwinds`: **over every sequence of calls**.
-/
import CumulusVpn.Desktop.Manager
import CumulusVpn.Lib.StepSystem

namespace CumulusVpn.Desktop

open StepSystem

/-! ### What is installed -/

namespace Sys

/-- Nothing of ours is left. -/
def Clean (s : Sys) : Prop :=
  s.sidecars = [] ∧ s.bridges = [] ∧ s.routes = [] ∧ s.dns = false ∧
    s.firewall.now = Firewall.clear

instance (s : Sys) : Decidable s.Clean := inferInstanceAs (Decidable (_ ∧ _ ∧ _ ∧ _ ∧ _))

/-- The devices, bridges and routes that are installed are among these. -/
structure Within (s : Sys) (devs bridges dests : List String) : Prop where
  sidecars : ∀ d ∈ s.sidecars, d ∈ devs
  bridges : ∀ b ∈ s.bridges, b ∈ bridges
  routes : ∀ r ∈ s.routes, (∃ d ∈ devs, r.dev = some d) ∨ r.dest ∈ dests

namespace Within

variable {s : Sys} {devs devs' bridges bridges' dests dests' : List String}

lemma kill (h : s.Within devs bridges dests) {dev : String}
    (hdevs : ∀ d ∈ devs, d = dev ∨ d ∈ devs') : (s.kill dev).Within devs' bridges dests := by
  refine ⟨?_, h.bridges, ?_⟩
  · intro d hd
    obtain ⟨hd, hne⟩ := List.mem_filter.mp hd
    exact (hdevs d (h.sidecars d hd)).resolve_left (by simpa using hne)
  · intro r hr
    obtain ⟨hr, hne⟩ := List.mem_filter.mp hr
    rcases h.routes r hr with ⟨d, hd, heq⟩ | hdest
    · refine Or.inl ⟨d, (hdevs d hd).resolve_left ?_, heq⟩
      rintro rfl
      simp [heq] at hne
    · exact Or.inr hdest

lemma shutdown (h : s.Within devs bridges dests) {bridge : String}
    (hbridges : ∀ b ∈ bridges, b = bridge ∨ b ∈ bridges') :
    (s.shutdown bridge).Within devs bridges' dests := by
  refine ⟨h.sidecars, ?_, h.routes⟩
  intro b hb
  obtain ⟨hb, hne⟩ := List.mem_filter.mp hb
  exact (hbridges b (h.bridges b hb)).resolve_left (by simpa using hne)

lemma removeRoute (h : s.Within devs bridges dests) {dest : String}
    (hdests : ∀ d ∈ dests, d = dest ∨ d ∈ dests') :
    (s.removeRoute dest).Within devs bridges dests' := by
  refine ⟨h.sidecars, h.bridges, ?_⟩
  intro r hr
  obtain ⟨hr, hne⟩ := List.mem_filter.mp hr
  exact (h.routes r hr).imp_right fun hdest =>
    (hdests r.dest hdest).resolve_left (by simpa using hne)

lemma removeBypassRoutes {cidrs : List String} (h : s.Within devs bridges (dests ++ cidrs)) :
    (s.removeBypassRoutes cidrs).Within devs bridges dests := by
  induction cidrs generalizing s with
  | nil => exact (List.append_nil dests) ▸ h
  | cons cidr cidrs ih =>
      refine ih (h.removeRoute ?_)
      simp only [List.mem_append, List.mem_cons]
      tauto

lemma weaken (h : s.Within devs bridges dests) (hdevs : ∀ d ∈ devs, d ∈ devs')
    (hdests : ∀ d ∈ dests, d ∈ dests') : s.Within devs' bridges dests' := by
  refine ⟨fun d hd => hdevs d (h.sidecars d hd), h.bridges, ?_⟩
  intro r hr
  rcases h.routes r hr with ⟨d, hd, heq⟩ | hdest
  · exact Or.inl ⟨d, hdevs d hd, heq⟩
  · exact Or.inr (hdests _ hdest)

/-- Nothing remembered is nothing installed. -/
lemma nil_routes (h : s.Within [] [] []) : s.sidecars = [] ∧ s.bridges = [] ∧ s.routes = [] := by
  refine ⟨?_, ?_, ?_⟩
  · exact List.eq_nil_iff_forall_not_mem.mpr fun d hd => by simpa using h.sidecars d hd
  · exact List.eq_nil_iff_forall_not_mem.mpr fun b hb => by simpa using h.bridges b hb
  · exact List.eq_nil_iff_forall_not_mem.mpr fun r hr => by simpa using h.routes r hr

end Within

/-- New routes through the physical network or through a known device. -/
lemma Within.routes_added {s : Sys} {devs bridges dests dests' : List String}
    (h : s.Within devs bridges dests) {routes : List Route}
    (hnew : ∀ r ∈ routes, r ∈ s.routes ∨ (∃ d ∈ devs, r.dev = some d) ∨ r.dest ∈ dests')
    (hdests : ∀ d ∈ dests, d ∈ dests') :
    ({ s with routes := routes } : Sys).Within devs bridges dests' := by
  refine ⟨h.sidecars, h.bridges, ?_⟩
  intro r hr
  rcases hnew r hr with hold | hdev | hdest
  · exact (h.routes r hold).imp_right (hdests _)
  · exact Or.inl hdev
  · exact Or.inr hdest

end Sys

/-! ### What the route commands add -/

lemma mem_addRoute {a : RouteAnswers} {r x : Route} {routes : List Route}
    (h : x ∈ (addRoute a r routes).2) : x ∈ routes ∨ x = r := by
  rw [addRoute] at h
  split at h
  · simpa using h
  · exact Or.inl h

lemma routes_of_addRoute_error {a : RouteAnswers} {r : Route} {routes routes' : List Route}
    {e : TunnelError} (h : addRoute a r routes = (.error e, routes')) : routes' = routes := by
  rw [addRoute] at h
  split at h
  · cases h
  · cases h
    rfl

lemma mem_addRoutes {a : RouteAnswers} {optional : String → Bool} {dev : Option String}
    {cidrs : List String} {routes : List Route} {x : Route}
    (h : x ∈ (addRoutes a optional dev cidrs routes).2) :
    x ∈ routes ∨ (x.dev = dev ∧ x.dest ∈ cidrs) := by
  induction cidrs generalizing routes with
  | nil => exact Or.inl h
  | cons cidr cidrs ih =>
      have hhead : ∀ routes' : List Route, (∀ y ∈ routes', y ∈ routes ∨ y = ⟨cidr, dev⟩) →
          x ∈ routes' ∨ (x.dev = dev ∧ x.dest ∈ cidrs) →
          x ∈ routes ∨ (x.dev = dev ∧ x.dest ∈ cidr :: cidrs) := by
        intro routes' hroutes hx
        rcases hx with hx | ⟨hdev, hdest⟩
        · rcases hroutes x hx with hx | rfl
          · exact Or.inl hx
          · exact Or.inr ⟨rfl, List.mem_cons_self⟩
        · exact Or.inr ⟨hdev, List.mem_cons_of_mem _ hdest⟩
      have hadd : ∀ y ∈ (addRoute a ⟨cidr, dev⟩ routes).2, y ∈ routes ∨ y = ⟨cidr, dev⟩ :=
        fun y hy => mem_addRoute hy
      rw [addRoutes] at h
      split at h
      · rename_i routes' heq
        rw [heq] at hadd
        exact hhead routes' hadd (ih h)
      · rename_i e routes' heq
        rw [heq] at hadd
        split at h
        · exact hhead routes' hadd (ih h)
        · exact hhead routes' hadd (Or.inl h)

/-- The routes of a session go through its device or to a bypass prefix. -/
lemma mem_addSessionRoutes {a : RouteAnswers} {splitTunnel splitBypass : List String}
    {dev : String} {routes : List Route} {x : Route}
    (h : x ∈ (addSessionRoutes a splitTunnel splitBypass dev routes).2) :
    x ∈ routes ∨ x.dev = some dev ∨ x.dest ∈ splitBypass := by
  rw [addSessionRoutes] at h
  split at h
  · exact (mem_addRoutes h).imp_right fun hx => Or.inl hx.1
  · have hdefault : ∀ y ∈ (addDefaultRoute a dev routes).2, y ∈ routes ∨ y.dev = some dev :=
      fun y hy => (mem_addRoutes hy).imp_right And.left
    split at h
    · rename_i routes' heq
      rw [heq] at hdefault
      rcases mem_addRoutes h with hx | hx
      · exact (hdefault x hx).imp_right Or.inl
      · exact Or.inr (Or.inr hx.2)
    · rename_i e routes' heq
      rw [heq] at hdefault
      exact (hdefault x h).imp_right Or.inl

/-- Setting the resolver installs nothing else. -/
lemma exists_dns_of_start {t : DnsTarget} {a : DnsAnswer} {s s' : Sys} {d : DnsSession}
    (h : DnsSession.start t a s = (d, s')) : ∃ b, s' = { s with dns := b } := by
  rw [DnsSession.start] at h
  split at h
  · cases h
    exact ⟨s.dns, rfl⟩
  · cases h
    exact ⟨_, rfl⟩

lemma exists_dns_of_reassert {a : Option DnsAnswer} {s s' : Sys} {d d' : DnsSession}
    (h : d.reassert a s = (d', s')) : ∃ b, s' = { s with dns := b } := by
  simp only [DnsSession.reassert] at h
  split at h
  · cases h
    exact ⟨s.dns, rfl⟩
  · split at h
    · cases h
      exact ⟨s.dns, rfl⟩
    · cases h
      exact ⟨_, rfl⟩

/-! ### A connect in progress -/

namespace Sys

/-- What is installed while a connect of this backend is under way. -/
structure Holds (s : Sys) (b : Backend) (devs bridges dests : List String) : Prop extends
    s.Within devs bridges dests where
  dns : s.dns = false
  native : s.firewall.now.Native b

namespace Holds

variable {s : Sys} {b : Backend} {devs bridges dests : List String}

lemma engage (h : s.Holds b devs bridges dests) (bypass : List String) (a : EngageAnswer) :
    (s.engage b bypass a).2.Holds b devs bridges dests :=
  ⟨⟨h.sidecars, h.bridges, h.routes⟩, h.dns, native_engage h.native bypass a⟩

lemma spawn (h : s.Holds b devs bridges dests) (dev : String) :
    ({ s with sidecars := dev :: s.sidecars } : Sys).Holds b (dev :: devs) bridges dests := by
  refine ⟨⟨?_, h.bridges, ?_⟩, h.dns, h.native⟩
  · intro d hd
    rcases List.mem_cons.mp hd with rfl | hd
    · exact List.mem_cons_self
    · exact List.mem_cons_of_mem _ (h.sidecars d hd)
  · intro r hr
    exact (h.routes r hr).imp_left fun ⟨d, hd, heq⟩ => ⟨d, List.mem_cons_of_mem _ hd, heq⟩

/-- Lifting the kill switch leaves only what else is installed. -/
lemma disengage (h : s.Holds b devs bridges dests) : (s.disengage b).Holds b devs bridges dests :=
  ⟨⟨h.sidecars, h.bridges, h.routes⟩, h.dns, by
    rw [Sys.disengage, now_disengage h.native]
    exact Firewall.native_clear b⟩

/-- With nothing else installed, lifting the kill switch leaves nothing. -/
lemma clean (h : s.Holds b [] [] []) (hfw : s.firewall.now = Firewall.clear) : s.Clean := by
  obtain ⟨hsidecars, hbridges, hroutes⟩ := h.toWithin.nil_routes
  exact ⟨hsidecars, hbridges, hroutes, h.dns, hfw⟩

lemma clean_disengage (h : s.Holds b [] [] []) : (s.disengage b).Clean :=
  h.disengage.clean (now_disengage h.native)

end Holds

end Sys

namespace Manager

/-- Where the routes of a session lead. -/
def dests (i : Inner) : List String :=
  i.exitIp.toList ++ (i.endpoint.map stripEndpointPort).toList ++ i.bypassRoutes

/-- The manager remembers everything that is installed, and nothing is
installed while it is down. -/
structure Tracked (m : Manager) : Prop where
  within : m.sys.Within (m.inner.sidecar.toList ++ m.inner.exitSidecar.toList)
    m.inner.bridge.toList (dests m.inner)
  dns : m.sys.dns = true → m.inner.dns.isSome
  native : m.sys.firewall.now.Native m.inner.backend
  down : m.inner.state = .down → m.sys.Clean

/-- The error is reported and nothing of ours is left. -/
def Unwound (m : Manager) : Prop := m.inner.state = .error ∧ m.sys.Clean

instance (m : Manager) : Decidable m.Unwound := inferInstanceAs (Decidable (_ ∧ _))

lemma tracked_of_clean {m : Manager} (h : m.sys.Clean) : m.Tracked := by
  obtain ⟨hsidecars, hbridges, hroutes, hdns, hfw⟩ := h
  refine ⟨⟨?_, ?_, ?_⟩, ?_, ?_, fun _ => ⟨hsidecars, hbridges, hroutes, hdns, hfw⟩⟩
  · simp [hsidecars]
  · simp [hbridges]
  · simp [hroutes]
  · simp [hdns]
  · rw [hfw]
    exact Firewall.native_clear _

lemma tracked_new (b : Backend) : (new b).Tracked := tracked_of_clean ⟨rfl, rfl, rfl, rfl, rfl⟩

lemma within_killDevices {i : Inner} {s : Sys} {bridges dests : List String}
    (h : s.Within (i.sidecar.toList ++ i.exitSidecar.toList) bridges dests) :
    (killDevices i s).Within [] bridges dests := by
  rw [killDevices]
  revert h
  rcases i.sidecar with _ | d <;> rcases i.exitSidecar with _ | e <;> intro h
  · exact h
  · exact h.kill (by simp)
  · exact h.kill (by simp)
  · have hkill : (s.kill d).Within [e] bridges dests := h.kill (by simp)
    exact hkill.kill (by simp)

lemma within_releaseRoutes {i : Inner} {s : Sys} {bridges : List String}
    (h : s.Within [] bridges (dests i)) : (releaseRoutes i s).Within [] bridges [] := by
  rw [releaseRoutes]
  refine Sys.Within.removeBypassRoutes ?_
  rw [dests] at h
  revert h
  rcases i.exitIp with _ | x <;> rcases i.endpoint with _ | ep <;> intro h
  · exact h
  · exact h.removeRoute (by simp)
  · exact h.removeRoute (by simp)
  · have hpin : (s.removeRoute x).Within [] bridges (stripEndpointPort ep :: i.bypassRoutes) :=
      h.removeRoute (by simp)
    exact hpin.removeRoute (by simp)

@[simp] lemma firewall_killDevices (i : Inner) (s : Sys) :
    (killDevices i s).firewall = s.firewall := by
  rw [killDevices]
  cases i.sidecar <;> cases i.exitSidecar <;> rfl

@[simp] lemma dns_killDevices (i : Inner) (s : Sys) : (killDevices i s).dns = s.dns := by
  rw [killDevices]
  cases i.sidecar <;> cases i.exitSidecar <;> rfl

@[simp] lemma frame_removeBypassRoutes (s : Sys) (cidrs : List String) :
    (s.removeBypassRoutes cidrs).firewall = s.firewall ∧
      (s.removeBypassRoutes cidrs).dns = s.dns := by
  induction cidrs generalizing s with
  | nil => exact ⟨rfl, rfl⟩
  | cons cidr cidrs ih => exact ih (s.removeRoute cidr)

@[simp] lemma firewall_releaseRoutes (i : Inner) (s : Sys) :
    (releaseRoutes i s).firewall = s.firewall := by
  rw [releaseRoutes, (frame_removeBypassRoutes _ _).1]
  cases i.exitIp <;> cases i.endpoint <;> rfl

@[simp] lemma dns_releaseRoutes (i : Inner) (s : Sys) : (releaseRoutes i s).dns = s.dns := by
  rw [releaseRoutes, (frame_removeBypassRoutes _ _).2]
  cases i.exitIp <;> cases i.endpoint <;> rfl

/-- `restore_dns` puts the resolver back. -/
lemma Tracked.dns_restoreDns {m : Manager} (h : m.Tracked) : m.restoreDns.sys.dns = false := by
  rw [restoreDns]
  split
  · rfl
  · rename_i hnone
    exact Bool.eq_false_iff.mpr fun hdns => hnone (h.dns hdns)

lemma firewall_restoreDns (m : Manager) : m.restoreDns.sys.firewall = m.sys.firewall := by
  rw [restoreDns]
  split <;> rfl

lemma Tracked.within_restoreDns {m : Manager} (h : m.Tracked) :
    m.restoreDns.sys.Within (m.inner.sidecar.toList ++ m.inner.exitSidecar.toList)
      m.inner.bridge.toList (dests m.inner) := by
  rw [restoreDns]
  split
  · exact ⟨h.within.sidecars, h.within.bridges, h.within.routes⟩
  · exact h.within

lemma within_shutdown_elim {s : Sys} {devs dests : List String} {bridge : Option String}
    (h : s.Within devs bridge.toList dests) :
    (bridge.elim s s.shutdown).Within devs [] dests := by
  rcases bridge with _ | b
  · exact h
  · exact h.shutdown (by simp)

lemma frame_shutdown_elim (s : Sys) (bridge : Option String) :
    (bridge.elim s s.shutdown).firewall = s.firewall ∧
      (bridge.elim s s.shutdown).dns = s.dns := by
  cases bridge <;> exact ⟨rfl, rfl⟩

/-- A new connect, as the prologue leaves it. -/
structure Begun (i : Inner) (endpoint : String) : Prop where
  sidecar : i.sidecar = none
  exitSidecar : i.exitSidecar = none
  bridge : i.bridge = none
  exitIp : i.exitIp = none
  endpoint : i.endpoint = some endpoint

lemma begun_replace (m : Manager) (country endpoint : String) :
    Begun (m.replace country endpoint).inner endpoint := ⟨rfl, rfl, rfl, rfl, rfl⟩

/-- **The prologue releases the previous session** but for the kill switch. -/
lemma Tracked.holds_replace {m : Manager} (h : m.Tracked) (country endpoint : String) :
    (m.replace country endpoint).sys.Holds m.inner.backend [] [] [] := by
  refine ⟨?_, ?_, ?_⟩
  · exact within_releaseRoutes
      (within_shutdown_elim (within_killDevices (i := m.restoreDns.inner) h.within_restoreDns))
  · rw [replace, dns_releaseRoutes, (frame_shutdown_elim _ _).2, dns_killDevices,
      h.dns_restoreDns]
  · rw [replace, firewall_releaseRoutes, (frame_shutdown_elim _ _).1, firewall_killDevices,
      firewall_restoreDns]
    exact h.native

/-- **`disconnect` removes everything** that was installed. -/
lemma Tracked.clean_disconnect {m : Manager} (h : m.Tracked) : m.disconnect.2.sys.Clean := by
  have hwithin : (releaseRoutes m.restoreDns.inner
      (killDevices m.restoreDns.inner m.restoreDns.sys)).Within [] m.inner.bridge.toList [] :=
    within_releaseRoutes (within_killDevices (i := m.restoreDns.inner) h.within_restoreDns)
  refine Sys.Holds.clean_disengage ⟨within_shutdown_elim hwithin, ?_, ?_⟩
  · rw [(frame_shutdown_elim _ _).2, dns_releaseRoutes, dns_killDevices, h.dns_restoreDns]
  · rw [(frame_shutdown_elim _ _).1, firewall_releaseRoutes, firewall_killDevices,
      firewall_restoreDns]
    exact h.native

end Manager

/-! ### How a connect ends -/

/-- The `engage` with this answer carries out all of its commands. -/
def EngageAnswer.Completes (a : EngageAnswer) (b : Backend) (bypass : List String) : Prop :=
  match a with
  | .invalid _ => False
  | .runs done => (engageCommands bypass b).length ≤ done

instance (a : EngageAnswer) (b : Backend) (bypass : List String) :
    Decidable (a.Completes b bypass) := by
  cases a with
  | invalid text => exact inferInstanceAs (Decidable False)
  | runs done => exact inferInstanceAs (Decidable (_ ≤ _))

lemma not_completes_of_error {a : EngageAnswer} {b : Backend} {bypass : List String} {l : FwLog}
    {text : String} (h : (engage b bypass a l).1 = .error text) : ¬ a.Completes b bypass := by
  cases a with
  | invalid text => exact id
  | runs done =>
      intro hdone
      rw [engage, List.drop_eq_nil_iff.mpr hdone] at h
      cases h

namespace Manager

/-- The four ways a connect ends. -/
inductive Outcome (m : Manager) (completes : Prop) : Reply × Manager → Prop
  /-- refused before anything is touched -/
  | refused (e : TunnelError) : Outcome m completes (.error e, m)
  /-- stopped by its first kill-switch engage -/
  | stopped (e : TunnelError) (m' : Manager) (hengage : ¬ completes) (htracked : m'.Tracked)
      (hstate : m'.inner.state = .connecting) (hbackend : m'.inner.backend = m.inner.backend) :
      Outcome m completes (.error e, m')
  /-- failed later, and unwound -/
  | unwound (e : TunnelError) (m' : Manager) (hunwound : m'.Unwound)
      (hbackend : m'.inner.backend = m.inner.backend) : Outcome m completes (.error e, m')
  | up (status : TunnelStatus) (m' : Manager) (hstatus : status = m'.inner.snapshot)
      (htracked : m'.Tracked) (hstate : m'.inner.state = .up)
      (hbackend : m'.inner.backend = m.inner.backend) : Outcome m completes (.ok status, m')

/-- Engaging the kill switch changes nothing else. -/
lemma engageFirst_eq {m m' : Manager} {killSwitch : Bool} {bypass : List String}
    {a : EngageAnswer} {r : Except TunnelError Unit}
    (h : m.engageFirst killSwitch bypass a = (r, m')) :
    ∃ s, m' = { m with sys := s } ∧
      (∀ devs bridges dests, m.sys.Holds m.inner.backend devs bridges dests →
        s.Holds m.inner.backend devs bridges dests) ∧
      (∀ e, r = .error e → ¬ (killSwitch = true → a.Completes m.inner.backend bypass)) := by
  rw [engageFirst] at h
  split at h
  · rename_i hon
    split at h
    · rename_i s heq
      cases h
      have hs : s = (m.sys.engage m.inner.backend bypass a).2 := by rw [heq]
      exact ⟨s, rfl, fun _ _ _ hholds => hs ▸ hholds.engage bypass a, fun e he => nomatch he⟩
    · rename_i text s heq
      cases h
      have hs : s = (m.sys.engage m.inner.backend bypass a).2 := by rw [heq]
      refine ⟨s, rfl, fun _ _ _ hholds => hs ▸ hholds.engage bypass a, ?_⟩
      intro e _ hcompletes
      have herr : (Desktop.engage m.inner.backend bypass a m.sys.firewall).1 = .error text :=
        congrArg Prod.fst heq
      exact not_completes_of_error herr (hcompletes hon)
  · cases h
    exact ⟨_, rfl, fun _ _ _ hholds => hholds.disengage, fun e he => nomatch he⟩

lemma engageWithTuns_eq {m m' : Manager} {killSwitch : Bool} {bypass : List String}
    {a : EngageAnswer} {r : Except TunnelError Unit}
    (h : m.engageWithTuns killSwitch bypass a = (r, m')) :
    ∃ s, m' = { m with sys := s } ∧
      (∀ devs bridges dests, m.sys.Holds m.inner.backend devs bridges dests →
        s.Holds m.inner.backend devs bridges dests) := by
  rw [engageWithTuns] at h
  split at h
  · split at h
    · rename_i s heq
      cases h
      have hs : s = (m.sys.engage m.inner.backend bypass a).2 := by rw [heq]
      exact ⟨s, rfl, fun _ _ _ hholds => hs ▸ hholds.engage bypass a⟩
    · rename_i text s heq
      cases h
      have hs : s = (m.sys.engage m.inner.backend bypass a).2 := by rw [heq]
      exact ⟨s, rfl, fun _ _ _ hholds => hs ▸ hholds.engage bypass a⟩
  · cases h
    exact ⟨m.sys, rfl, fun _ _ _ hholds => hholds⟩

section Outcomes

variable {m₀ m : Manager} {completes : Prop}

/-- With only firewall rules installed, the manager is on track. -/
lemma tracked_of_holds {i : Inner} {s : Sys} {b : Backend} (h : s.Holds b [] [] [])
    (hb : i.backend = b) (hstate : i.state = .connecting) : Tracked ⟨i, s⟩ := by
  obtain ⟨hsidecars, hbridges, hroutes⟩ := h.toWithin.nil_routes
  refine ⟨⟨?_, ?_, ?_⟩, ?_, hb ▸ h.native, ?_⟩
  · simp [hsidecars]
  · simp [hbridges]
  · simp [hroutes]
  · simp [h.dns]
  · exact fun hdown => absurd (hdown.symm.trans hstate) (by decide)

lemma outcome_fail {s : Sys} (hclean : s.Clean) (hb : m.inner.backend = m₀.inner.backend)
    (e : TunnelError) : Outcome m₀ completes (fail { m with sys := s } e) :=
  .unwound e _ ⟨rfl, hclean⟩ hb

/-- Lifting the kill switch and dropping the bridge leave nothing. -/
lemma clean_drop {s : Sys} {b : Backend} {bridge : Option String}
    (h : s.Holds b [] bridge.toList []) :
    (bridge.elim (s.disengage b) (s.disengage b).shutdown).Clean := by
  have hheld := h.disengage
  refine Sys.Holds.clean (b := b) ⟨within_shutdown_elim hheld.toWithin, ?_, ?_⟩ ?_
  · rw [(frame_shutdown_elim _ _).2, hheld.dns]
  · rw [(frame_shutdown_elim _ _).1]
    exact hheld.native
  · rw [(frame_shutdown_elim _ _).1]
    exact now_disengage h.native

lemma outcome_unwindSidecar {s : Sys} {dev : String} {bridge : Option String}
    (h : s.Holds m.inner.backend [dev] bridge.toList [])
    (hb : m.inner.backend = m₀.inner.backend) (e : TunnelError) :
    Outcome m₀ completes (unwindSidecar { m with sys := s } dev bridge e) := by
  have hkill : (s.kill dev).Holds m.inner.backend [] bridge.toList [] :=
    ⟨h.kill (by simp), h.dns, h.native⟩
  rw [unwindSidecar]
  exact outcome_fail (clean_drop hkill) hb e

lemma outcome_installSession {c : Checks} {a : Answers} {r : ConnectRequest} {config : WgConfig}
    {dev : String} {bridge : Option String}
    (h : m.sys.Holds m.inner.backend [dev] bridge.toList []) (hbegun : Begun m.inner r.endpoint)
    (hb : m.inner.backend = m₀.inner.backend) :
    Outcome m₀ completes (installSession c a r config dev bridge m) := by
  simp only [installSession]
  split
  · rename_i e routes heq
    obtain rfl := routes_of_addRoute_error heq
    exact outcome_unwindSidecar h hb e
  · rename_i routes heq
    have hone : ∀ x ∈ routes, x ∈ m.sys.routes ∨ x = ⟨stripEndpointPort r.endpoint, none⟩ := by
      intro x hx
      exact mem_addRoute (a := a.route) (by rwa [heq])
    have hall : ∀ routes', (addSessionRoutes a.route
        ((r.split.map SplitParams.tunnelRoutes).getD [])
        ((r.split.map SplitParams.bypassRoutes).getD []) dev routes).2 = routes' →
        ({ m.sys with routes := routes' } : Sys).Within [dev] bridge.toList
          ([stripEndpointPort r.endpoint] ++ (r.split.map SplitParams.bypassRoutes).getD []) := by
      rintro routes' rfl
      refine h.toWithin.routes_added ?_ (by simp)
      intro x hx
      rcases mem_addSessionRoutes hx with hx | hdev | hdest
      · rcases hone x hx with hx | rfl
        · exact Or.inl hx
        · exact Or.inr (Or.inr (by simp))
      · exact Or.inr (Or.inl ⟨dev, List.mem_singleton_self dev, hdev⟩)
      · exact Or.inr (Or.inr (List.mem_append_right _ hdest))
    split
    · rename_i e routes' heq'
      refine outcome_unwindSidecar ⟨?_, ?_, ?_⟩ hb e
      · have hbypass := (hall routes' (by rw [heq'])).removeBypassRoutes
        exact hbypass.removeRoute (by simp)
      · rw [Sys.removeRoute, (frame_removeBypassRoutes _ _).2, h.dns]
      · rw [Sys.removeRoute, (frame_removeBypassRoutes _ _).1]
        exact h.native
    · rename_i routes' heq'
      have hin := hall routes' (by rw [heq'])
      rcases hstart : DnsSession.start _ a.dns { m.sys with routes := routes' } with ⟨dns, s⟩
      obtain ⟨b, rfl⟩ := exists_dns_of_start hstart
      refine .up _ _ rfl ⟨?_, ?_, ?_, ?_⟩ rfl hb
      · rw [hbegun.exitSidecar, dests, hbegun.exitIp, hbegun.endpoint]
        exact ⟨hin.sidecars, hin.bridges, hin.routes⟩
      · exact fun _ => rfl
      · exact h.native
      · exact fun hdown => TunnelState.noConfusion hdown

lemma outcome_bringUp {c : Checks} {a : Answers} {r : ConnectRequest} {config : WgConfig}
    {bridge : Option String} (h : m.sys.Holds m.inner.backend [] bridge.toList [])
    (hbegun : Begun m.inner r.endpoint) (hb : m.inner.backend = m₀.inner.backend) :
    Outcome m₀ completes (bringUp c a r config bridge m) := by
  simp only [bringUp]
  split
  · exact outcome_fail (clean_drop h) hb _
  · rename_i dev _
    split
    · rename_i e m' heq
      obtain ⟨s, rfl, hs⟩ := engageWithTuns_eq heq
      exact outcome_unwindSidecar (hs _ _ _ (h.spawn dev)) hb e
    · rename_i m' heq
      obtain ⟨s, rfl, hs⟩ := engageWithTuns_eq heq
      split
      · exact outcome_unwindSidecar (hs _ _ _ (h.spawn dev)) hb _
      · exact outcome_installSession (m := ⟨m.inner, s⟩) (hs _ _ _ (h.spawn dev)) hbegun hb

/-- **How `connect` ends**, from any state that the manager can be in. -/
lemma outcome_connect {c : Checks} {a : Answers} {r : ConnectRequest} (h : m.Tracked) :
    Outcome m (r.killSwitch = true →
        a.engage.Completes m.inner.backend ((r.split.map SplitParams.bypassRoutes).getD []))
      (connect c a r m) := by
  rw [connect]
  split
  · exact .refused _
  · simp only
    have hholds := h.holds_replace r.country r.endpoint
    have hbegun := m.begun_replace r.country r.endpoint
    split
    · rename_i e m' heq
      obtain ⟨s, rfl, hs, herr⟩ := engageFirst_eq heq
      exact .stopped e _ (herr e rfl) (tracked_of_holds (hs _ _ _ hholds) rfl rfl) rfl rfl
    · rename_i m' heq
      obtain ⟨s, rfl, hs, -⟩ := engageFirst_eq heq
      split
      · exact outcome_bringUp (m := ⟨_, s⟩) (hs _ _ _ hholds) hbegun rfl
      · split
        · have hb : (m.replace r.country r.endpoint).inner.backend = m.inner.backend := rfl
          rw [disengage]
          exact outcome_fail (hs _ _ _ hholds).clean_disengage hb _
        · rename_i bridge _
          have hbridge : ({ s with bridges := bridge :: s.bridges } : Sys).Holds m.inner.backend
              [] [bridge] [] := by
            have hwithin := hs _ _ _ hholds
            refine ⟨⟨hwithin.sidecars, ?_, hwithin.routes⟩, hwithin.dns, hwithin.native⟩
            simp [hwithin.toWithin.nil_routes.2.1]
          refine outcome_bringUp (m := ⟨_, _⟩) ?_ hbegun rfl
          exact hbridge

/-! ### Multi-hop -/

lemma outcome_unwindMultihop (dests : List String) {s : Sys} {exitIp entryIp : String}
    {entry exit_ : Option String} {routed : Bool}
    (h : s.Holds m.inner.backend (exit_.toList ++ entry.toList) [] dests)
    (hdests : ∀ d ∈ dests, (routed = true ∧ d = exitIp) ∨ d = entryIp)
    (hb : m.inner.backend = m₀.inner.backend) (e : TunnelError) :
    Outcome m₀ completes
      (unwindMultihop { m with sys := s } exitIp entryIp entry exit_ routed e) := by
  have hrouted : (if routed then s.removeRoute exitIp else s).Holds m.inner.backend
      (exit_.toList ++ entry.toList) [] [entryIp] := by
    split
    · refine ⟨h.removeRoute ?_, h.dns, h.native⟩
      intro d hd
      exact (hdests d hd).imp And.right (by simp)
    · rename_i hnot
      refine ⟨h.weaken (fun _ => id) ?_, h.dns, h.native⟩
      intro d hd
      simpa using (hdests d hd).resolve_left fun hx => hnot hx.1
  have hentry : ((if routed then s.removeRoute exitIp else s).removeRoute entryIp).Holds
      m.inner.backend (exit_.toList ++ entry.toList) [] [] :=
    ⟨hrouted.removeRoute (by simp), hrouted.dns, hrouted.native⟩
  rw [unwindMultihop]
  refine outcome_fail (Sys.Holds.clean_disengage ?_) hb e
  rcases exit_ with _ | x <;> rcases entry with _ | n
  · exact hentry
  · exact ⟨hentry.kill (by simp), hentry.dns, hentry.native⟩
  · exact ⟨hentry.kill (by simp), hentry.dns, hentry.native⟩
  · have hexit : (((if routed then s.removeRoute exitIp else s).removeRoute entryIp).kill x).Within
        [n] [] [] := hentry.kill (by simp)
    exact ⟨hexit.kill (by simp), hentry.dns, hentry.native⟩

lemma outcome_installMultihop {c : Checks} {a : Answers} {r : MultihopRequest}
    {innerCfg : WgConfig} {entry exit_ : String}
    (h : m.sys.Holds m.inner.backend [exit_, entry] [] []) (hbegun : Begun m.inner r.entryEndpoint)
    (hb : m.inner.backend = m₀.inner.backend) :
    Outcome m₀ completes (installMultihop c a r innerCfg entry exit_ m) := by
  simp only [installMultihop]
  split
  · rename_i e routes heq
    obtain rfl := routes_of_addRoute_error heq
    refine outcome_unwindMultihop [] ?_ (by simp) hb e
    exact h
  · rename_i routes heq
    have hone : ∀ x ∈ routes,
        x ∈ m.sys.routes ∨ x = ⟨stripEndpointPort r.entryEndpoint, none⟩ := by
      intro x hx
      exact mem_addRoute (a := a.route) (by rwa [heq])
    have hentry : ({ m.sys with routes := routes } : Sys).Holds m.inner.backend [exit_, entry] []
        [stripEndpointPort r.entryEndpoint] := by
      refine ⟨h.toWithin.routes_added ?_ (by simp), h.dns, h.native⟩
      intro x hx
      rcases hone x hx with hx | rfl
      · exact Or.inl hx
      · exact Or.inr (Or.inr List.mem_cons_self)
    split
    · rename_i e routes' heq'
      obtain rfl := routes_of_addRoute_error heq'
      refine outcome_unwindMultihop [stripEndpointPort r.entryEndpoint] ?_ (by simp) hb e
      exact hentry
    · rename_i routes' heq'
      have htwo : ∀ x ∈ routes', x ∈ routes ∨
          x = ⟨stripEndpointPort r.exitEndpoint, some entry⟩ := by
        intro x hx
        exact mem_addRoute (a := a.route) (by rwa [heq'])
      have hall : ∀ routes₂, (addSessionRoutes a.route
          ((r.split.map SplitParams.tunnelRoutes).getD [])
          ((r.split.map SplitParams.bypassRoutes).getD []) exit_ routes').2 = routes₂ →
          ({ m.sys with routes := routes₂ } : Sys).Within [exit_, entry] []
            ([stripEndpointPort r.entryEndpoint] ++
              (r.split.map SplitParams.bypassRoutes).getD []) := by
        rintro routes₂ rfl
        refine hentry.toWithin.routes_added ?_ (by simp)
        intro x hx
        rcases mem_addSessionRoutes hx with hx | hdev | hdest
        · rcases htwo x hx with hx | rfl
          · exact Or.inl hx
          · exact Or.inr (Or.inl ⟨entry, by simp, rfl⟩)
        · exact Or.inr (Or.inl ⟨exit_, by simp, hdev⟩)
        · exact Or.inr (Or.inr (List.mem_append_right _ hdest))
      split
      · rename_i e routes₂ heq₂
        refine outcome_unwindMultihop [stripEndpointPort r.entryEndpoint] ?_ (by simp) hb e
        refine ⟨(hall routes₂ (by rw [heq₂])).removeBypassRoutes, ?_, ?_⟩
        · rw [(frame_removeBypassRoutes _ _).2, h.dns]
        · rw [(frame_removeBypassRoutes _ _).1]
          exact h.native
      · rename_i routes₂ heq₂
        have hin := hall routes₂ (by rw [heq₂])
        rcases hstart : DnsSession.start _ a.dns { m.sys with routes := routes₂ } with ⟨dns, s⟩
        obtain ⟨b, rfl⟩ := exists_dns_of_start hstart
        refine .up _ _ rfl ⟨?_, ?_, ?_, ?_⟩ rfl hb
        · rw [hbegun.bridge, dests, hbegun.endpoint]
          have hweak : ({ m.sys with routes := routes₂ } : Sys).Within [entry, exit_] []
              ([stripEndpointPort r.exitEndpoint] ++ [stripEndpointPort r.entryEndpoint] ++
                (r.split.map SplitParams.bypassRoutes).getD []) := by
            refine hin.weaken (by simp) ?_
            intro d hd
            exact List.mem_cons_of_mem _ hd
          exact ⟨hweak.sidecars, hweak.bridges, hweak.routes⟩
        · exact fun _ => rfl
        · exact h.native
        · exact fun hdown => TunnelState.noConfusion hdown

lemma outcome_bringUpExit {c : Checks} {a : Answers} {r : MultihopRequest} {innerCfg : WgConfig}
    {entry : String} (h : m.sys.Holds m.inner.backend [entry] [] [])
    (hbegun : Begun m.inner r.entryEndpoint) (hb : m.inner.backend = m₀.inner.backend) :
    Outcome m₀ completes (bringUpExit c a r innerCfg entry m) := by
  simp only [bringUpExit]
  split
  · exact outcome_unwindMultihop [] h (by simp) hb _
  · rename_i exit_ _
    split
    · rename_i e m' heq
      obtain ⟨s, rfl, hs⟩ := engageWithTuns_eq heq
      have hheld : s.Holds m.inner.backend [exit_, entry] [] [] := hs _ _ _ (h.spawn exit_)
      refine outcome_unwindMultihop [] ?_ (by simp) hb e
      exact hheld
    · rename_i m' heq
      obtain ⟨s, rfl, hs⟩ := engageWithTuns_eq heq
      have hheld : s.Holds m.inner.backend [exit_, entry] [] [] := hs _ _ _ (h.spawn exit_)
      split
      · refine outcome_unwindMultihop [] ?_ (by simp) hb _
        exact hheld
      · exact outcome_installMultihop (m := ⟨m.inner, s⟩) hheld hbegun hb

lemma outcome_bringUpEntry {c : Checks} {a : Answers} {r : MultihopRequest} {innerCfg : WgConfig}
    (h : m.sys.Holds m.inner.backend [] [] []) (hbegun : Begun m.inner r.entryEndpoint)
    (hb : m.inner.backend = m₀.inner.backend) :
    Outcome m₀ completes (bringUpEntry c a r innerCfg m) := by
  simp only [bringUpEntry]
  split
  · exact outcome_unwindMultihop [] h (by simp) hb _
  · rename_i entry _
    split
    · rename_i e m' heq
      obtain ⟨s, rfl, hs⟩ := engageWithTuns_eq heq
      have hheld : s.Holds m.inner.backend [entry] [] [] := hs _ _ _ (h.spawn entry)
      refine outcome_unwindMultihop [] ?_ (by simp) hb e
      exact hheld
    · rename_i m' heq
      obtain ⟨s, rfl, hs⟩ := engageWithTuns_eq heq
      have hheld : s.Holds m.inner.backend [entry] [] [] := hs _ _ _ (h.spawn entry)
      split
      · refine outcome_unwindMultihop [] ?_ (by simp) hb _
        exact hheld
      · exact outcome_bringUpExit (m := ⟨m.inner, s⟩) hheld hbegun hb

/-- **How `connect_multihop` ends**, from any state that the manager can be
in. -/
lemma outcome_connectMultihop {c : Checks} {a : Answers} {r : MultihopRequest} (h : m.Tracked) :
    Outcome m (r.killSwitch = true →
        a.engage.Completes m.inner.backend ((r.split.map SplitParams.bypassRoutes).getD []))
      (connectMultihop c a r m) := by
  rw [connectMultihop]
  split
  · exact .refused _
  · simp only
    have hholds := h.holds_replace r.exitCountry r.entryEndpoint
    have hbegun := m.begun_replace r.exitCountry r.entryEndpoint
    split
    · rename_i e m' heq
      obtain ⟨s, rfl, hs, herr⟩ := engageFirst_eq heq
      exact .stopped e _ (herr e rfl) (tracked_of_holds (hs _ _ _ hholds) rfl rfl) rfl rfl
    · rename_i m' heq
      obtain ⟨s, rfl, hs, -⟩ := engageFirst_eq heq
      exact outcome_bringUpEntry (m := ⟨_, s⟩) (hs _ _ _ hholds) hbegun rfl

end Outcomes

/-! ### Status and runs -/

section Runs

variable {m : Manager}

/-- Repointing the endpoint bypass installs nothing but that route. -/
lemma Tracked.within_repoint (h : m.Tracked) {endpoint : String}
    (hep : m.inner.endpoint = some endpoint) {routes : List Route}
    (hroutes : ∀ x ∈ routes, x ∈ (m.sys.removeRoute (stripEndpointPort endpoint)).routes ∨
      x = ⟨stripEndpointPort endpoint, none⟩) :
    ({ m.sys.removeRoute (stripEndpointPort endpoint) with routes := routes } : Sys).Within
      (m.inner.sidecar.toList ++ m.inner.exitSidecar.toList) m.inner.bridge.toList
      (dests m.inner) := by
  have hremoved : (m.sys.removeRoute (stripEndpointPort endpoint)).Within
      (m.inner.sidecar.toList ++ m.inner.exitSidecar.toList) m.inner.bridge.toList
      (dests m.inner) := h.within.removeRoute fun _ => Or.inr
  refine hremoved.routes_added ?_ fun _ => id
  intro x hx
  rcases hroutes x hx with hx | rfl
  · exact Or.inl hx
  · exact Or.inr (Or.inr (by simp [dests, hep]))

/-- The roam repair of a tunnel that is up. -/
lemma Tracked.repairAfterRoam (h : m.Tracked) (hup : m.inner.state = .up) (a : StatusAnswers) :
    (m.repairAfterRoam a).Tracked ∧ (m.repairAfterRoam a).inner.state ≠ .down := by
  have hnot : m.inner.state ≠ .down := by rw [hup]; decide
  rw [Manager.repairAfterRoam]
  split
  · rename_i endpoint src hep _
    simp only
    split
    · exact ⟨⟨h.within, h.dns, h.native, fun hd => absurd hd hnot⟩, hnot⟩
    · split
      · exact ⟨⟨h.within, h.dns, h.native, fun hd => TunnelState.noConfusion hd⟩, nofun⟩
      · split
        · rename_i e routes heq
          have hw := h.within_repoint hep fun x (hx : x ∈ routes) =>
            mem_addRoute (a := a.route) (by rwa [heq])
          exact ⟨⟨⟨hw.sidecars, hw.bridges, hw.routes⟩, h.dns, h.native,
            fun hd => absurd hd hnot⟩, hnot⟩
        · rename_i routes heq
          have hw := h.within_repoint hep fun x (hx : x ∈ routes) =>
            mem_addRoute (a := a.route) (by rwa [heq])
          split
          · exact ⟨⟨⟨hw.sidecars, hw.bridges, hw.routes⟩, h.dns, h.native,
              fun hd => absurd hd hnot⟩, hnot⟩
          · exact ⟨⟨⟨hw.sidecars, hw.bridges, hw.routes⟩, h.dns, h.native,
              fun hd => absurd hd hnot⟩, hnot⟩
  · exact ⟨h, hnot⟩

lemma Tracked.reassertDns (h : m.Tracked) (hnot : m.inner.state ≠ .down) (a : StatusAnswers) :
    (m.reassertDns a).Tracked := by
  rw [Manager.reassertDns]
  split
  · exact h
  · rename_i d _
    simp only
    rcases hr : d.reassert a.dns m.sys with ⟨d', s⟩
    obtain ⟨b, rfl⟩ := exists_dns_of_reassert hr
    exact ⟨⟨h.within.sidecars, h.within.bridges, h.within.routes⟩, fun _ => rfl, h.native,
      fun hd => absurd hd hnot⟩

/-- The counters and the watchdog leave what is remembered alone. -/
lemma tracked_watchdog {i : Inner} {s : Sys} (h : Tracked ⟨i, s⟩) (a : StatusAnswers) :
    Tracked ⟨watchdog a (refreshStats i a.stats), s⟩ := by
  have hstats : Tracked ⟨refreshStats i a.stats, s⟩ ∧ (refreshStats i a.stats).state = i.state := by
    simp only [refreshStats]
    split
    · exact ⟨⟨h.within, h.dns, h.native, h.down⟩, rfl⟩
    · exact ⟨h, rfl⟩
  rw [watchdog]
  split
  · exact ⟨hstats.1.within, hstats.1.dns, hstats.1.native, fun hd => TunnelState.noConfusion hd⟩
  · exact hstats.1

/-- A status poll keeps the manager on track. -/
lemma Tracked.status (h : m.Tracked) (a : StatusAnswers) : (m.status a).2.Tracked := by
  rw [Manager.status]
  split
  · rename_i hup
    obtain ⟨hrepair, hnot⟩ := h.repairAfterRoam hup a
    exact tracked_watchdog (hrepair.reassertDns hnot a) a
  · exact h

lemma Tracked.of_outcome {completes : Prop} {x : Reply × Manager} (h : m.Tracked)
    (ho : Outcome m completes x) : x.2.Tracked := by
  cases ho with
  | refused e => exact h
  | stopped e m' _ htracked => exact htracked
  | unwound e m' hunwound => exact tracked_of_clean hunwound.2
  | up status m' _ htracked => exact htracked

end Runs

/-- The calls on the manager. -/
inductive Call
  | connect (a : Answers) (r : ConnectRequest)
  | connectMultihop (a : Answers) (r : MultihopRequest)
  | status (a : StatusAnswers)
  | disconnect
  | disconnectIfActive

/-- The manager after a call. -/
def step (c : Checks) (m : Manager) : Call → Option Manager
  | .connect a r => some (connect c a r m).2
  | .connectMultihop a r => some (connectMultihop c a r m).2
  | .status a => some (m.status a).2
  | .disconnect => some m.disconnect.2
  | .disconnectIfActive => some m.disconnectIfActive.2

lemma Tracked.step {c : Checks} {m m' : Manager} (h : m.Tracked) {q : Call}
    (hq : step c m q = some m') : m'.Tracked := by
  cases q with
  | connect a r =>
      cases hq
      exact h.of_outcome (outcome_connect h)
  | connectMultihop a r =>
      cases hq
      exact h.of_outcome (outcome_connectMultihop h)
  | status a =>
      cases hq
      exact h.status a
  | disconnect =>
      cases hq
      exact tracked_of_clean h.clean_disconnect
  | disconnectIfActive =>
      cases hq
      rw [disconnectIfActive]
      split
      · exact h
      · exact tracked_of_clean h.clean_disconnect

lemma tracked_of_exec {c : Checks} {b : Backend} {qs : List Call} {m : Manager}
    (h : exec (Manager.step c) (new b) qs = some m) : m.Tracked :=
  Reachable.induction ⟨qs, h⟩ (tracked_new b) fun _ _ _ hm hq => hm.step hq

/-- An error leaves the manager as it was, or unwound. -/
def RefusedOrUnwound (m : Manager) (x : Reply × Manager) : Prop :=
  ∀ e, x.1 = .error e → x.2 = m ∨ x.2.Unwound

instance (m : Manager) (x : Reply × Manager) : Decidable (RefusedOrUnwound m x) :=
  match x with
  | (.ok _, _) => .isTrue fun _ h => nomatch h
  | (.error e, m') =>
      decidable_of_iff (m' = m ∨ m'.Unwound) ⟨fun h _ _ => h, fun h => h e rfl⟩

lemma refusedOrUnwound_of_outcome {m : Manager} {completes : Prop} {x : Reply × Manager}
    (ho : Outcome m completes x) (hcompletes : completes) : RefusedOrUnwound m x := by
  intro e he
  cases ho with
  | refused e => exact Or.inl rfl
  | stopped e m' hengage => exact absurd hcompletes hengage
  | unwound e m' hunwound => exact Or.inr hunwound
  | up status m' => cases he

/-- **A failed connect unwinds**: after any calls, a connect whose first
kill-switch engage, if it has one, goes through and that returns an error was
refused, with nothing changed, or leaves the state `Error` and nothing of
ours; the manager is down only when nothing of ours is installed; and
`disconnect` removes everything. -/
theorem failed_connect_unwinds (c : Checks) (b : Backend) (qs : List Call) {m : Manager}
    (h : exec (step c) (new b) qs = some m) :
    (∀ (a : Answers) (r : ConnectRequest),
      (r.killSwitch = true →
        a.engage.Completes m.inner.backend ((r.split.map SplitParams.bypassRoutes).getD [])) →
      RefusedOrUnwound m (connect c a r m)) ∧
    (∀ (a : Answers) (r : MultihopRequest),
      (r.killSwitch = true →
        a.engage.Completes m.inner.backend ((r.split.map SplitParams.bypassRoutes).getD [])) →
      RefusedOrUnwound m (connectMultihop c a r m)) ∧
    (m.inner.state = .down → m.sys.Clean) ∧
    m.disconnect.1.state = .down ∧ m.disconnect.2.sys.Clean := by
  have htracked := tracked_of_exec h
  refine ⟨?_, ?_, htracked.down, rfl, htracked.clean_disconnect⟩
  · intro a r hengage
    exact refusedOrUnwound_of_outcome (outcome_connect htracked) hengage
  · intro a r hengage
    exact refusedOrUnwound_of_outcome (outcome_connectMultihop htracked) hengage

/-! ### A sidecar that does not spawn -/

/-- Checks that let everything pass. -/
def lenientChecks : Checks where
  ensureElevated := .ok ()
  parse := fun _ => .ok ⟨"10.8.0.2", some "10.8.0.1", ""⟩
  validateConnect := fun _ => .ok ()
  validateMultihop := fun _ => .ok ()
  parseServers := fun s => [s]
  parseIp := some

/-- Everything works but the sidecar. -/
def noSidecar : Answers where
  engage := .runs 6
  engageTun := .runs 6
  engageTuns := .runs 6
  bridge := .ok "127.0.0.1:4000"
  spawn := .error (.sidecar "wireguard-go not found")
  spawnExit := .error (.sidecar "wireguard-go not found")
  configure := .ok ()
  configureExit := .ok ()
  route := fun _ _ => .ok ()
  dns := ⟨true, none⟩

/-- Everything works. -/
def everythingWorks : Answers :=
  { noSidecar with spawn := .ok "utun7", spawnExit := .ok "utun8" }

/-- Nothing to repair, and no statistics. -/
def quietPoll : StatusAnswers where
  localSource := none
  route := fun _ _ => .ok ()
  rebind := .ok ()
  dns := none
  stats := none
  instant := 0
  now := 0

/-- A request with the kill switch on. -/
def guardedRequest : ConnectRequest where
  country := "de"
  wgConfig := "[Interface]"
  endpoint := "1.2.3.4:51820"
  assignedIp := "10.8.0.2"
  killSwitch := true
  tls := none
  split := none

/-- The failed connect reports `Error` with nothing left. -/
theorem failed_connect_unwinds_noSidecar :
    let m := (connect lenientChecks noSidecar guardedRequest (new .macosPf)).2
    exec (step lenientChecks) (new .macosPf) [.connect noSidecar guardedRequest] = some m ∧
      RefusedOrUnwound m (connect lenientChecks noSidecar guardedRequest m) ∧
      m.Unwound ∧ m.disconnect.2.sys.Clean := by
  refine ⟨rfl, ?_, by decide +kernel, ?_⟩
  · exact (failed_connect_unwinds lenientChecks .macosPf
      [.connect noSidecar guardedRequest] rfl).1 noSidecar guardedRequest
      fun _ => by decide +kernel
  · exact (failed_connect_unwinds lenientChecks .macosPf
      [.connect noSidecar guardedRequest] rfl).2.2.2.2

/-- A failed connect leaves nothing of ours in the state `Error`, not
`Down`. -/
theorem not_down_iff_clean :
    ¬ ∀ (c : Checks) (b : Backend) (qs : List Call) (m : Manager),
      exec (step c) (new b) qs = some m →
      (∀ (a : Answers) (r : ConnectRequest), RefusedOrUnwound m (connect c a r m)) ∧
      (∀ (a : Answers) (r : MultihopRequest), RefusedOrUnwound m (connectMultihop c a r m)) ∧
      (m.inner.state = .down ↔ m.sys.Clean) ∧
      m.disconnect.1.state = .down ∧ m.disconnect.2.sys.Clean := by
  intro h
  obtain ⟨-, -, hiff, -⟩ := h lenientChecks .macosPf [.connect noSidecar guardedRequest] _ rfl
  exact absurd (hiff.mpr (by decide +kernel)) (by decide +kernel)

end Manager

end CumulusVpn.Desktop
