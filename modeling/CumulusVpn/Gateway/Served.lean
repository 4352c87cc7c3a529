/-
The transports that a gateway advertises, and what stands behind them
(`gateway/cmd/gateway/main.go` and `New` of `gateway/internal/api/api.go`).

The client leaves out what is advertised with the tier `premium` when the user
does not pay, and the gateway keeps those users' keys off the device behind it:
one gate, written down on either side.

* `Listening`, `extraTransports`, `advertised`: what the configuration opens,
  and how it is advertised;
* `Gateway.serving`: the device behind an advertised transport;
* `SameShape`, `SameShape.step`: which devices there are, and which of them are
  gated, never changes;
* `negotiated_served`: **what a client may dial knows its key**, once its
  enrollment has gone through.
-/
import CumulusVpn.Client.Negotiation
import CumulusVpn.Gateway.Atomic

namespace CumulusVpn.Peers

open StepSystem
open Negotiation (Transport TransportMode Gated transportFallbackChain mem_chain advertisedOrLegacy)

/-! ### What is advertised -/

/-- The part of the configuration that opens listeners. -/
structure Listening where
  obfsEnable : Bool
  tlsEnable : Bool
  tlsPort : Int
  tlsSNI : String
  tlsPremium : Bool
deriving DecidableEq, Repr

/-- `DefaultObfsParams.Map()` -/
def defaultObfsParams : List (String × String) :=
  [("jc", "4"), ("jmin", "40"), ("jmax", "70"), ("s1", "50"), ("s2", "100"), ("h1", "1148746654"),
    ("h2", "1148746655"), ("h3", "1148746656"), ("h4", "1148746657")]

section Config

variable (l : Listening) (fails : String → Fails)

/-- The additional listeners, each with its advertisement; the relay has a device
of its own only when it is gated. -/
def extraTransports : List (Listener × Transport) :=
  (if l.obfsEnable then
      [(⟨some (fails "awg"), false⟩, ⟨"awg", 51821, some defaultObfsParams⟩)]
    else []) ++
  if l.tlsEnable then
    [(⟨if l.tlsPremium then some (fails "wg-tls") else none, l.tlsPremium⟩,
      ⟨"wg-tls", l.tlsPort,
        some (("sni", l.tlsSNI) :: if l.tlsPremium then [("tier", "premium")] else [])⟩)]
  else []

/-- `Info.Transports` -/
def advertised : List Transport :=
  ⟨"wg", 51820, none⟩ :: (extraTransports l fails).map Prod.snd

end Config

/-- The device behind an advertised transport. -/
def Gateway.serving (g : Gateway) : Nat → Option Device
  | 0 => some g.dev
  | k + 1 => (g.extra[k]?).map fun e => e.device.getD g.dev

/-- A listener is gated just when it is advertised as such. -/
lemma gated_extraTransports {l : Listening} {fails : String → Fails} {e : Listener × Transport}
    (he : e ∈ extraTransports l fails) : e.1.premiumOnly ↔ Gated e.2 := by
  rw [extraTransports, List.mem_append] at he
  cases he with
  | inl he =>
      split at he
      · rw [List.mem_singleton.mp he]
        have hnone : defaultObfsParams.lookup "tier" = none := by decide
        exact iff_of_false (by simp) (by simp [Gated, Transport.param, hnone])
      · cases he
  | inr he =>
      split at he
      · rw [List.mem_singleton.mp he]
        cases hpremium : l.tlsPremium with
        | true => exact iff_of_true rfl rfl
        | false => exact iff_of_false (by simp) (by simp [Gated, Transport.param])
      · cases he

/-! ### The devices stay -/

/-- The same devices are there, and the same of them are gated. -/
structure SameShape (g g' : Gateway) : Prop where
  length : g'.extra.length = g.extra.length
  device : ∀ k, (g'.device k).isSome = (g.device k).isSome
  premiumOnly : ∀ k, g'.premiumOnly k = g.premiumOnly k

section Shape

variable {c : Config} {g g' g'' : Gateway} {now : Int} {engine : Bool}

lemma SameShape.of_extra (h : g'.extra = g.extra) : SameShape g g' where
  length := congrArg List.length h
  device k := by rw [Gateway.device, h, Gateway.device]
  premiumOnly k := by rw [Gateway.premiumOnly, h, Gateway.premiumOnly]

lemma SameShape.trans (h : SameShape g g') (h' : SameShape g' g'') : SameShape g g'' where
  length := h'.length.trans h.length
  device k := (h'.device k).trans (h.device k)
  premiumOnly k := (h'.premiumOnly k).trans (h.premiumOnly k)

/-- The same transports take a peer. -/
lemma SameShape.mirrored (h : SameShape g g') (k : Nat) (premium : Bool) :
    g'.mirrored k premium = g.mirrored k premium := by
  rw [Gateway.mirrored, h.device, h.premiumOnly, Gateway.mirrored]

lemma Edited.sameShape {k : Nat} {d d' : Device} (h : Edited g g' k d d') : SameShape g g' := by
  refine ⟨?_, fun j => ?_, h.premiumOnly⟩
  · obtain ⟨extra, hlength, rfl⟩ := h.rest
    exact hlength
  · rw [h.device]
    by_cases hj : j = k
    · rw [if_pos hj, hj, h.before]
      rfl
    · rw [if_neg hj]

lemma sameShape_addPeer {k : Nat} {pubkey : String} {addr : Addr}
    (h : g.addPeer k pubkey addr now engine = some g') : SameShape g g' := by
  obtain ⟨d, d', -, hedit⟩ := addPeer_edited h
  exact hedit.sameShape

lemma sameShape_removePeer (g : Gateway) (k : Nat) (pubkey : String) (engine : Bool) :
    SameShape g (g.removePeer k pubkey engine) := by
  rcases removePeer_edited g k pubkey engine with ⟨d, d', -, hedit⟩ | ⟨hsame, -⟩
  · exact hedit.sameShape
  · exact .of_extra (by rw [hsame])

lemma PremiumStep.sameShape {pubkey : String} {premium : Bool} {call : SyncPremium}
    {r : Gateway × Option SyncPremium} (h : PremiumStep g pubkey premium now engine call r) :
    SameShape g r.1 := by
  cases h with
  | add h => exact sameShape_addPeer h
  | remove => exact sameShape_removePeer g _ pubkey engine
  | _ => exact .of_extra rfl

lemma EnrollStep.sameShape {p : Enroll} {r : Gateway × Enroll} (h : EnrollStep g now engine p r) :
    SameShape g r.1 := by
  cases h with
  | mirror _ h => exact sameShape_addPeer h
  | undo => exact sameShape_removePeer g _ _ engine
  | _ => exact .of_extra rfl

lemma SyncStep.sameShape {p : Sync} {r : Gateway × Sync} (h : SyncStep g now engine p r) :
    SameShape g r.1 := by
  cases h with
  | sync h => exact h.sameShape
  | synced h => exact h.sameShape
  | _ => exact .of_extra rfl

lemma ReaperStep.sameShape {p : Reaper} {r : Gateway × Reaper} (h : ReaperStep g now engine p r) :
    SameShape g r.1 := by
  cases h with
  | unmirror => exact sameShape_removePeer g _ _ engine
  | sync h => exact h.sameShape
  | synced h => exact h.sameShape
  | _ => exact .of_extra rfl

/-- **Which devices there are never changes.** -/
lemma SameShape.step {e : Event} (h : step c g e = some g') : SameShape g g' := by
  cases e with
  | request pubkey premium =>
      rw [Peers.step] at h
      split at h <;> cases h
      exact .of_extra rfl
  | enroll now engine =>
      obtain ⟨r, hr, rfl⟩ := Option.map_eq_some_iff.mp h
      exact (enroll_step hr).sameShape.trans (.of_extra rfl)
  | tick peers =>
      rw [Peers.step] at h
      split at h <;> cases h
      exact .of_extra rfl
  | sync tier now engine =>
      obtain ⟨r, hr, rfl⟩ := Option.map_eq_some_iff.mp h
      exact (sync_step hr).sameShape.trans (.of_extra rfl)
  | touch handshakes =>
      rw [Peers.step] at h
      split at h <;> cases h
      exact .of_extra rfl
  | sweep now recs =>
      rw [Peers.step] at h
      split at h <;> cases h
      exact .of_extra rfl
  | reap tier clock engine =>
      obtain ⟨r, hr, rfl⟩ := Option.map_eq_some_iff.mp h
      exact (reaper_step hr).sameShape.trans (.of_extra rfl)
  | flow k src =>
      obtain ⟨pubkey, -, rfl⟩ := Option.map_eq_some_iff.mp h
      exact .of_extra rfl
  | limit pubkey =>
      rw [Peers.step] at h
      split at h <;> cases h
      exact .of_extra rfl

lemma SameShape.run {es : List Event} (h : exec (Peers.step c) g es = some g') : SameShape g g' :=
  exec_invariant (I := SameShape g) (G := fun _ _ => True)
    (fun _ _ _ hs _ hstep => hs.trans (.step hstep)) (.of_extra rfl)
    (along_of_forall (fun _ _ => trivial) _ _) h

end Shape

/-! ### What is served -/

/-- The gateway has the devices that its configuration asks for. -/
def Listens (l : Listening) (fails : String → Fails) (g : Gateway) : Prop :=
  ∀ k e, (extraTransports l fails)[k]? = some e →
    k < g.extra.length ∧ (g.device k).isSome = e.1.device.isSome ∧ g.premiumOnly k = e.1.premiumOnly

lemma SameShape.listens {l : Listening} {fails : String → Fails} {g g' : Gateway}
    (h : SameShape g g') (hg : Listens l fails g) : Listens l fails g' := fun k e he => by
  obtain ⟨hk, hdevice, hpremium⟩ := hg k e he
  exact ⟨h.length ▸ hk, (h.device k).trans hdevice, (h.premiumOnly k).trans hpremium⟩

/-- So it comes up. -/
lemma listens_boot (l : Listening) (own : Identity) (now : Int) (recs : List PeerRecord)
    (vanilla : Fails) (fails : String → Fails) :
    Listens l fails (.boot own now recs vanilla ((extraTransports l fails).map Prod.fst)) := by
  intro k e he
  have hextra : (Gateway.boot own now recs vanilla
      ((extraTransports l fails).map Prod.fst)).extra[k]? = some (e.1.boot own now recs) := by
    rw [Gateway.boot, List.getElem?_map, List.getElem?_map, he]
    rfl
  refine ⟨(List.getElem?_eq_some_iff.mp hextra).1, ?_, ?_⟩
  · rw [Gateway.device, hextra, Option.bind_some, Listener.boot, Option.isSome_map]
  · rw [Gateway.premiumOnly, hextra, Option.any_some, Listener.boot]

/-- The vanilla device has the peer at its address, and so has every transport
below `k` that takes it. -/
def TakenBelow (g : Gateway) (pubkey : String) (premium : Bool) (addr : Addr) (k : Nat) : Prop :=
  g.dev.peerAddr pubkey = some addr ∧ ∀ j < k, g.mirrored j premium → g.Holds j pubkey addr

/-- What an enrollment of the peer has brought about at each of its calls. -/
inductive Taking (g : Gateway) (pubkey : String) (premium : Bool) : Enroll → Prop
  | idle : Taking g pubkey premium .idle
  | counting : Taking g pubkey premium (.counting pubkey premium)
  | looking {free : Int} {total : Nat} :
      Taking g pubkey premium (.looking pubkey premium free total)
  | assigning {existed : Bool} : Taking g pubkey premium (.assigning pubkey premium existed)
  | registering {existed : Bool} {addr : Addr} :
      Taking g pubkey premium (.registering pubkey premium existed addr)
  | mirroring {existed : Bool} {addr : Addr} {k : Nat} (h : TakenBelow g pubkey premium addr k) :
      Taking g pubkey premium (.mirroring pubkey premium existed addr k)
  -- what takes the peer back never comes to its tier
  | dropping {k : Nat} : Taking g pubkey premium (.dropping pubkey premium k)
  | unmirroring {k j : Nat} : Taking g pubkey premium (.unmirroring pubkey premium k j)
  | tiering {call : SetTier} (h : Enrolled g pubkey premium) :
      Taking g pubkey premium (.tiering pubkey premium call)

section Served

variable {c : Config} {g g' g₁ g₂ : Gateway} {pubkey : String} {premium : Bool} {now : Int}
  {engine : Bool} {calls : List Event}

lemma TakenBelow.edit {k : Nat} {d d' : Device} {addr : Addr}
    (h : TakenBelow g pubkey premium addr k) (hedit : Edited g g' k d d')
    (hadd : d'.peerAddr pubkey = some addr) : TakenBelow g' pubkey premium addr (k + 1) := by
  obtain ⟨hdev, hbelow⟩ := h
  refine ⟨?_, fun j hj hmirrored => ?_⟩
  · obtain ⟨extra, -, hrest⟩ := hedit.rest
    rwa [hrest]
  · rw [Gateway.Holds, hedit.device]
    by_cases hjk : j = k
    · exact ⟨d', if_pos hjk, hadd⟩
    · rw [if_neg hjk]
      rw [hedit.sameShape.mirrored] at hmirrored
      exact hbelow j (by omega) hmirrored

/-- A call of an enrollment goes on with what has been taken. -/
lemma Taking.next {p : Enroll} {r : Gateway × Enroll} (h : Taking g pubkey premium p)
    (hnext : p.next c g now engine = some r) :
    Taking { r.1 with enroll := r.2 } pubkey premium r.2 := by
  cases h with
  | counting =>
      cases hnext
      exact .looking
  | looking =>
      rw [Enroll.next] at hnext
      split at hnext <;> cases hnext
      · exact .idle
      · exact .assigning
  | assigning =>
      rw [Enroll.next] at hnext
      split at hnext <;> cases hnext
      · exact .idle
      · exact .registering
  | registering =>
      rw [Enroll.next] at hnext
      split at hnext
      · cases hnext
        exact .idle
      · rename_i d hadd
        cases hnext
        refine .mirroring ⟨(peerAddr_addPeer hadd pubkey).trans (if_pos rfl), fun j hj => ?_⟩
        cases hj
  | @mirroring existed addr k h =>
      rw [Enroll.next] at hnext
      split at hnext
      · rename_i hk
        cases hnext
        refine .tiering ⟨addr, h.1, fun j hmirrored => h.2 j ?_ hmirrored⟩
        obtain ⟨d, hd⟩ := Option.isSome_iff_exists.mp (Bool.and_eq_true_iff.mp hmirrored).1
        exact (lt_of_device hd).trans_le hk
      · split at hnext
        · rename_i hskip
          cases hnext
          refine .mirroring ⟨h.1, fun j hj hmirrored => h.2 j ?_ hmirrored⟩
          have hjk : j ≠ k := fun hjk => hskip (hjk ▸ hmirrored)
          omega
        · split at hnext
          · rename_i g' hadd
            cases hnext
            obtain ⟨d, d', hdevice, hedit⟩ := addPeer_edited hadd
            have hafter := h.edit hedit ((peerAddr_addPeer hdevice pubkey).trans (if_pos rfl))
            exact .mirroring ⟨hafter.1, hafter.2⟩
          · cases hnext
            dsimp only
            split
            · exact .idle
            · exact .dropping
  | dropping =>
      cases hnext
      exact .unmirroring
  | unmirroring =>
      rw [Enroll.next] at hnext
      split at hnext
      · cases hnext
        exact .idle
      · split at hnext <;> cases hnext <;> exact .unmirroring
  | tiering h =>
      cases hnext
      dsimp only
      split
      · exact .tiering h
      · exact .idle
  | idle => cases hnext

lemma Taking.run (h : Taking g pubkey premium g.enroll) (hcalls : ∀ e ∈ calls, e.IsEnroll)
    (hrun : exec (Peers.step c) g calls = some g') : Taking g' pubkey premium g'.enroll := by
  refine exec_invariant (I := fun g => Taking g pubkey premium g.enroll)
    (G := fun _ e => e.IsEnroll) (fun g e g' h he hstep => ?_) h
    (along_of_mem hcalls g) hrun
  cases e with
  | enroll now engine =>
      obtain ⟨r, hr, rfl⟩ := Option.map_eq_some_iff.mp hstep
      exact h.next hr
  | _ => exact he.elim

/-- The end of an enrollment that all devices took. -/
lemma enrolled_of_last (hcalls : ∀ e ∈ calls, e.IsEnroll)
    (hrun : exec (step c) g (.request pubkey premium :: calls) = some g₁)
    (hlast : step c g₁ (.enroll now engine) = some g₂) (htiers : g₁.enroll.Tiers) :
    Enrolled g₂ pubkey premium := by
  obtain ⟨g', hrequest, hrest⟩ := exec_cons_eq_some.mp hrun
  have hstart : Taking g' pubkey premium g'.enroll := by
    obtain ⟨-, -, rfl, -⟩ := enrolling_of_request hrequest
    exact .counting
  have htaking := hstart.run hcalls hrest
  obtain ⟨r, hr, rfl⟩ := Option.map_eq_some_iff.mp hlast
  -- the last call sets the tier, and leaves the devices as they are
  generalize g₁.enroll = p at htaking hr htiers
  cases htaking with
  | tiering h =>
      cases hr
      exact h
  | _ => exact htiers.elim

/-- What an enrolled client may dial. -/
lemma served_of_enrolled {l : Listening} {fails : String → Fails} {tier : Negotiation.Tier}
    (hg : Listens l fails g) (henrolled : Enrolled g pubkey (tier = .premium)) :
    ∃ addr, ∀ mode implemented,
      ∀ t ∈ transportFallbackChain (some (advertised l fails)) mode implemented tier,
        ∀ k, (advertised l fails)[k]? = some t →
          ∃ d, g.serving k = some d ∧ d.peerAddr pubkey = some addr := by
  obtain ⟨addr, hdev, hmirrors⟩ := henrolled
  refine ⟨addr, fun mode implemented t ht k hk => ?_⟩
  obtain ⟨-, -, hgate⟩ := mem_chain.mp ht
  cases k with
  | zero => exact ⟨g.dev, rfl, hdev⟩
  | succ k =>
      rw [advertised, List.getElem?_cons_succ, List.getElem?_map] at hk
      obtain ⟨e, he, rfl⟩ := Option.map_eq_some_iff.mp hk
      obtain ⟨hlt, hdevice, hpremium⟩ := hg k e he
      have hserving : g.serving (k + 1) = some ((g.device k).getD g.dev) := by
        rw [Gateway.serving, Gateway.device, List.getElem?_eq_getElem hlt]
        rfl
      cases hd : g.device k with
      | none =>
          -- the relay goes to the vanilla device
          rw [hd] at hserving
          exact ⟨g.dev, hserving, hdev⟩
      | some d =>
          have hmirrored : g.mirrored k (tier = .premium) := by
            rw [Gateway.mirrored, hd, hpremium]
            cases hgated : e.1.premiumOnly with
            | false => rfl
            | true =>
                have htier := hgate ((gated_extraTransports (List.mem_of_getElem? he)).mp hgated)
                simp [htier]
          obtain ⟨d', hd', haddr⟩ := hmirrors k hmirrored
          obtain rfl : d = d' := Option.some_inj.mp (hd.symm.trans hd')
          rw [hd] at hserving
          exact ⟨d, hserving, haddr⟩

/-- **What a client may dial knows its key**: whatever the handlers of the gateway
have done before, once an enrollment whose calls follow on one another has come to
its tier, every transport of the client's chain, in any mode and for any build, has
a device behind it with the key at the one address that it was assigned, when the
client goes by the tier that the gateway gave it. -/
theorem negotiated_served {l : Listening} {fails : String → Fails} {start : Gateway}
    {tier : Negotiation.Tier} {before : List Event} (hlistens : Listens l fails start)
    (hbefore : exec (step c) start before = some g) (hcalls : ∀ e ∈ calls, e.IsEnroll)
    (hrun : exec (step c) g (.request pubkey (tier = .premium) :: calls) = some g₁)
    (hlast : step c g₁ (.enroll now engine) = some g₂) (htiers : g₁.enroll.Tiers) :
    ∃ addr, ∀ mode implemented,
      ∀ t ∈ transportFallbackChain (some (advertised l fails)) mode implemented tier,
        ∀ k, (advertised l fails)[k]? = some t →
          ∃ d, g₂.serving k = some d ∧ d.peerAddr pubkey = some addr := by
  have hshape : SameShape start g₂ :=
    ((SameShape.run hbefore).trans (.run hrun)).trans (.step hlast)
  exact served_of_enrolled (hshape.listens hlistens) (enrolled_of_last hcalls hrun hlast htiers)

/-- All listeners, and the relay for paying users only. -/
def stealthNode : Listening := ⟨true, true, 443, "cdn.example.net", true⟩

/-- It comes up without a cache. -/
def stealthGateway : Gateway :=
  .boot [9] 0 [] (fun _ => false) ((extraTransports stealthNode fun _ _ => false).map Prod.fst)

/-- A free peer may dial the obfuscated listener, with a reconciliation in flight. -/
theorem negotiated_served_free :
    ∃ g₂ d, exec (step roomy) stealthGateway (.tick [] :: freePeer) = some g₂ ∧
      g₂.serving 1 = some d ∧ (d.peerAddr zeroKey).isSome := by
  have hrun : (exec (step roomy) stealthGateway [.tick []]).any fun g =>
      (exec (step roomy) g (.request zeroKey false :: List.replicate 8 (.enroll 0 true))).any
        fun g₁ => g₁.enroll.Tiers ∧ (step roomy g₁ (.enroll 0 true)).isSome := by
    decide +kernel
  obtain ⟨g, hg, hrun⟩ := (Option.any_eq_true _ _).mp hrun
  obtain ⟨g₁, hg₁, hall⟩ := (Option.any_eq_true _ _).mp hrun
  obtain ⟨htiers, hlast⟩ := of_decide_eq_true hall
  obtain ⟨g₂, hg₂⟩ := Option.isSome_iff_exists.mp hlast
  obtain ⟨addr, hserved⟩ := @negotiated_served roomy g g₁ g₂ zeroKey 0 true
    (List.replicate 8 (.enroll 0 true)) stealthNode (fun _ _ => false) stealthGateway .free
    [.tick []] (listens_boot _ _ _ _ _ _) hg
    (fun e he => by rw [List.eq_of_mem_replicate he]; trivial) hg₁ hg₂ htiers
  obtain ⟨d, hd, haddr⟩ := hserved .auto ["wg", "awg", "wg-tls"]
    ⟨"awg", 51821, some defaultObfsParams⟩
    (mem_chain.mpr (by decide)) 1 rfl
  refine ⟨g₂, d, ?_, hd, by rw [haddr]; rfl⟩
  have hsplit : .tick [] :: freePeer = [.tick []] ++
      ((.request zeroKey false :: List.replicate 8 (.enroll 0 true)) ++ [.enroll 0 true]) := rfl
  rw [hsplit, exec_append, hg, Option.bind_some, exec_append, hg₁, Option.bind_some, exec_cons, hg₂]
  rfl

end Served

end CumulusVpn.Peers
