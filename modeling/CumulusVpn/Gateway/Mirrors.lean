/-
The additional transports mirror the vanilla device (`handleEnroll` and
`SyncPremiumPeers` of `gateway/internal/api/api.go`, `reapIdlePeers` of
`gateway/cmd/gateway/main.go`).

* `Mirrored`: no transport gives a peer an address that the vanilla device
  does not give it;
* `Doomed`: an operation in flight is going to remove the peer from the
  transport;
* `MirrorGuard`: no step leaves a peer behind on a transport;
* `MirrorInv`: what such steps keep;
* `mirrors_follow`: **a quiet gateway is mirrored** after a run of such steps;
  `not_mirrors_follow` is a run in which the reaper comes between the two
  devices of an enrollment.
-/
import CumulusVpn.Gateway.PeerTable

namespace CumulusVpn.Peers

open StepSystem

/-! ### Devices after an edit -/

section Devices

variable {g g' : Gateway} {k : Nat} {pubkey : String} {addr : Addr} {now : Int} {engine : Bool}

lemma device_setDevice (d : Device) {e : Device} (h : g.device k = some e) (j : Nat) :
    (g.setDevice k d).device j = if j = k then some d else g.device j := by
  obtain ⟨t, ht, -⟩ := Option.bind_eq_some_iff.mp h
  rw [Gateway.device, Gateway.setDevice, List.getElem?_modify]
  by_cases hj : j = k
  · rw [if_pos hj, hj, ht]
    simp
  · have hk : k ≠ j := fun hk => hj hk.symm
    rw [if_neg hj]
    simp [Gateway.device, hk]

@[simp] lemma premiumOnly_setDevice (d : Device) (j : Nat) :
    (g.setDevice k d).premiumOnly j = g.premiumOnly j := by
  rw [Gateway.premiumOnly, Gateway.setDevice, List.getElem?_modify, Gateway.premiumOnly]
  cases g.extra[j]? with
  | none => rfl
  | some t =>
      by_cases hj : k = j
      · simp [hj]
      · simp [hj]

/-- What an edit of transport `k` leaves behind. -/
structure Edited (g g' : Gateway) (k : Nat) (d d' : Device) : Prop where
  before : g.device k = some d
  device : ∀ j, g'.device j = if j = k then some d' else g.device j
  premiumOnly : ∀ j, g'.premiumOnly j = g.premiumOnly j
  rest : ∃ extra, extra.length = g.extra.length ∧ g' = { g with extra := extra }

lemma setDevice_edited {d d' : Device} (h : g.device k = some d) :
    Edited g (g.setDevice k d') k d d' where
  before := h
  device := device_setDevice d' h
  premiumOnly := premiumOnly_setDevice d'
  rest := ⟨_, List.length_modify _ _ _, rfl⟩

lemma addPeer_edited (h : g.addPeer k pubkey addr now engine = some g') :
    ∃ d d', d.addPeer pubkey addr now engine = some d' ∧ Edited g g' k d d' := by
  obtain ⟨d', hd', rfl⟩ := Option.map_eq_some_iff.mp h
  obtain ⟨d, hd, hadd⟩ := Option.bind_eq_some_iff.mp hd'
  exact ⟨d, d', hadd, setDevice_edited hd⟩

/-- A removal takes the peer off transport `k`, or fails. -/
lemma removePeer_edited (g : Gateway) (k : Nat) (pubkey : String) (engine : Bool) :
    (∃ d d', d.removePeer pubkey engine = some d' ∧
        Edited g (g.removePeer k pubkey engine) k d d') ∨
      (g.removePeer k pubkey engine = g ∧
        ∀ d, g.device k = some d → d.removePeer pubkey engine = none) := by
  rw [Gateway.removePeer]
  split
  · rename_i hnone
    exact Or.inr ⟨rfl, fun d hd => by rwa [hd] at hnone⟩
  · rename_i d' hd'
    obtain ⟨d, hd, hremove⟩ := Option.bind_eq_some_iff.mp hd'
    exact Or.inl ⟨d, d', hremove, setDevice_edited hd⟩

end Devices

/-! ### The invariant -/

/-- Transport `k` gives the peer this address. -/
def Gateway.Holds (g : Gateway) (k : Nat) (pubkey : String) (addr : Addr) : Prop :=
  ∃ d, g.device k = some d ∧ d.peerAddr pubkey = some addr

/-- No transport gives a peer an address that the vanilla device does not, and
so no address is one key's on one device and another's on a second. -/
structure Mirrored (g : Gateway) : Prop where
  contained : ∀ k pubkey addr, g.Holds k pubkey addr → g.dev.peerAddr pubkey = some addr
  disjoint : ∀ k j d d' pubkey pubkey' addr, g.flowDevice k = some d → g.flowDevice j = some d' →
    d.peerAddr pubkey = some addr → d'.peerAddr pubkey' = some addr → pubkey = pubkey'

/-- The reaper is going to remove the peer from transport `k`. -/
def Reaper.Dooms (premiumOnly : Bool) (pubkey : String) (k : Nat) : Reaper → Prop
  | .unmirroring pk j _ _ => pk = pubkey ∧ (j ≤ k ∨ premiumOnly)
  | .forgetting pk _ _ => pk = pubkey ∧ premiumOnly
  | .syncing pk (.check j) _ _ => pk = pubkey ∧ premiumOnly ∧ j ≤ k
  | .syncing pk (.remove j) _ _ => pk = pubkey ∧ premiumOnly ∧ j ≤ k
  | _ => False

/-- A rollback is going to remove the peer from transport `k`. -/
def Enroll.Dooms (premiumOnly : Bool) (pubkey : String) (k : Nat) : Enroll → Prop
  | .unmirroring pk premium i j => pk = pubkey ∧ j ≤ k ∧ k < i ∧ (premiumOnly → premium)
  | _ => False

/-- One of the two operations is going to remove the peer from transport
`k`. -/
def Doomed (g : Gateway) (enroll : Enroll) (reaper : Reaper) (k : Nat) (pubkey : String) : Prop :=
  reaper.Dooms (g.premiumOnly k) pubkey k ∨ enroll.Dooms (g.premiumOnly k) pubkey k

instance (b : Bool) (pubkey : String) (k : Nat) : (p : Reaper) → Decidable (p.Dooms b pubkey k)
  | .unmirroring .. => inferInstanceAs (Decidable (_ ∧ (_ ∨ _)))
  | .forgetting .. => inferInstanceAs (Decidable (_ ∧ _))
  | .syncing _ (.check _) _ _ => inferInstanceAs (Decidable (_ ∧ _ ∧ _))
  | .syncing _ (.remove _) _ _ => inferInstanceAs (Decidable (_ ∧ _ ∧ _))
  | .syncing _ (.look _) _ _ | .syncing _ (.add _ _) _ _ | .idle | .judging .. | .dropping .. =>
      inferInstanceAs (Decidable False)

instance (b : Bool) (pubkey : String) (k : Nat) : (p : Enroll) → Decidable (p.Dooms b pubkey k)
  | .unmirroring .. => inferInstanceAs (Decidable (_ ∧ _ ∧ _ ∧ (_ → _)))
  | .idle | .counting .. | .looking .. | .assigning .. | .registering .. | .mirroring ..
  | .dropping .. | .tiering .. => inferInstanceAs (Decidable False)

/-- Transport `k` holds the peer, at an address that is not the vanilla
device's. -/
def Gateway.Strays (g : Gateway) (k : Nat) (pubkey : String) : Bool :=
  ((g.device k).bind fun d => d.peerAddr pubkey).any fun addr => g.dev.peerAddr pubkey ≠ some addr

/-! ### The guard -/

/-- The peer that a step adds to a transport. -/
def adds (g : Gateway) : Event → Option (String × Addr)
  | .enroll _ engine =>
      match g.enroll with
      | .mirroring pubkey premium _ addr k =>
          if engine ∧ g.mirrored k premium then some (pubkey, addr) else none
      | _ => none
  | .sync _ _ engine =>
      match g.sync with
      | .syncing pubkey _ (.add _ addr) _ => if engine then some (pubkey, addr) else none
      | _ => none
  | .reap _ _ engine =>
      match g.reaper with
      | .syncing pubkey (.add _ addr) _ _ => if engine then some (pubkey, addr) else none
      | _ => none
  | _ => none

/-- The new peer that a rollback takes off the vanilla device, with its tier
and the number of transports it goes on to. -/
def rollsBack (g : Gateway) : Event → Option (String × Bool × Nat)
  | .enroll _ engine =>
      match g.enroll with
      | .dropping pubkey premium k => if engine then some (pubkey, premium, k) else none
      | _ => none
  | _ => none

/-- A last removal from a transport that the engine refuses, with whether the
other operation is going to remove the peer too. -/
def failsToRemove (g : Gateway) : Event → Option (Nat × String × Bool)
  | .enroll _ engine =>
      match g.enroll with
      | .unmirroring pubkey _ _ j =>
          if engine then none
          else some (j, pubkey, decide (g.reaper.Dooms (g.premiumOnly j) pubkey j))
      | _ => none
  | .reap _ _ engine =>
      match g.reaper with
      | .unmirroring pubkey k _ _ =>
          if engine ∨ g.premiumOnly k then none
          else some (k, pubkey, decide (g.enroll.Dooms (g.premiumOnly k) pubkey k))
      | .syncing pubkey (.remove k) _ _ =>
          if engine then none
          else some (k, pubkey, decide (g.enroll.Dooms (g.premiumOnly k) pubkey k))
      | _ => none
  | _ => none

/-- No step leaves a peer behind: a transport takes a peer that the vanilla
device still has at that address; a rollback goes on to every transport that
has the peer, unless the reaper does; and a removal of a stray succeeds, unless
another one follows. -/
def MirrorGuard (g : Gateway) (e : Event) : Prop :=
  (∀ x ∈ adds g e, g.dev.peerAddr x.1 = some x.2) ∧
    (∀ x ∈ rollsBack g e, ∀ j < g.extra.length, g.onDevice j x.1 →
      (j < x.2.2 ∧ (g.premiumOnly j → x.2.1)) ∨ g.reaper.Dooms (g.premiumOnly j) x.1 j) ∧
    ∀ x ∈ failsToRemove g e, g.Strays x.1 x.2.1 → x.2.2

instance (g : Gateway) (e : Event) : Decidable (MirrorGuard g e) :=
  inferInstanceAs (Decidable ((∀ x ∈ adds g e, _) ∧ (∀ x ∈ rollsBack g e, _) ∧
    ∀ x ∈ failsToRemove g e, _))

/-! ### What the steps keep -/

/-- A transport holds what the vanilla device holds, or is about to lose it,
with the operations where they are. -/
structure MirrorInv (g : Gateway) (enroll : Enroll) (reaper : Reaper) : Prop where
  held : ∀ k pubkey addr, g.Holds k pubkey addr →
    g.dev.peerAddr pubkey = some addr ∨ Doomed g enroll reaper k pubkey
  decodes : ∀ k pubkey addr, g.Holds k pubkey addr → (decodeKey pubkey).isSome

namespace MirrorInv

variable {g g' : Gateway} {k : Nat} {pubkey : String} {addr : Addr} {now : Int} {engine : Bool}
  {enroll enroll' : Enroll} {reaper reaper' : Reaper}

lemma holds_lt (h : g.Holds k pubkey addr) : k < g.extra.length := by
  obtain ⟨d, hd, -⟩ := h
  obtain ⟨t, ht, -⟩ := Option.bind_eq_some_iff.mp hd
  exact (List.getElem?_eq_some_iff.mp ht).1

lemma onDevice_of_holds (h : g.Holds k pubkey addr) : g.onDevice k pubkey := by
  obtain ⟨d, hd, haddr⟩ := h
  rw [Gateway.onDevice, hd, Option.any_some, haddr]
  rfl

lemma device_of_holds (h : g.Holds k pubkey addr) : (g.device k).isSome := by
  obtain ⟨d, hd, -⟩ := h
  rw [hd]
  rfl

lemma strays_of_holds (h : g.Holds k pubkey addr) (hdev : g.dev.peerAddr pubkey ≠ some addr) :
    g.Strays k pubkey := by
  obtain ⟨d, hd, haddr⟩ := h
  rw [Gateway.Strays, hd, Option.bind_some, haddr, Option.any_some]
  exact decide_eq_true hdev

lemma holds_of_strays (h : g.Strays k pubkey) :
    ∃ addr, g.Holds k pubkey addr ∧ g.dev.peerAddr pubkey ≠ some addr := by
  obtain ⟨addr, haddr, hne⟩ := (Option.any_eq_true _ _).mp h
  obtain ⟨d, hd, hpk⟩ := Option.bind_eq_some_iff.mp haddr
  exact ⟨addr, ⟨d, hd, hpk⟩, of_decide_eq_true hne⟩

/-- What a transport holds after an addition. -/
lemma holds_add {d d' : Device} (hadd : d.addPeer pubkey addr now engine = some d')
    (hedit : Edited g g' k d d') {j : Nat} {pk : String} {a : Addr} (h : g'.Holds j pk a) :
    g.Holds j pk a ∨ (pk = pubkey ∧ a = addr) := by
  obtain ⟨e, he, hpk⟩ := h
  rw [hedit.device] at he
  split at he
  · rename_i hj
    cases he
    rw [peerAddr_addPeer hadd] at hpk
    split at hpk
    · rename_i heq
      exact Or.inr ⟨heq, (Option.some_inj.mp hpk).symm⟩
    · exact Or.inl ⟨d, hj ▸ hedit.before, hpk⟩
  · exact Or.inl ⟨e, he, hpk⟩

/-- What a transport holds after a removal. -/
lemma holds_remove {d d' : Device} (hremove : d.removePeer pubkey engine = some d')
    (hedit : Edited g g' k d d') {j : Nat} {pk : String} {a : Addr} (h : g'.Holds j pk a) :
    g.Holds j pk a ∧ ¬ (j = k ∧ pk = pubkey) := by
  obtain ⟨e, he, hpk⟩ := h
  rw [hedit.device] at he
  split at he
  · rename_i hj
    cases he
    rw [peerAddr_removePeer hremove] at hpk
    split at hpk
    · cases hpk
    · rename_i hne
      exact ⟨⟨d, hj ▸ hedit.before, hpk⟩, fun hboth => hne hboth.2⟩
  · rename_i hj
    exact ⟨⟨e, he, hpk⟩, fun hboth => hj hboth.1⟩

/-- A step that leaves the transports alone. -/
lemma frame (h : MirrorInv g enroll reaper) (hextra : g'.extra = g.extra)
    (hdev : ∀ k pubkey addr, g.Holds k pubkey addr → g.dev.peerAddr pubkey = some addr →
      g'.dev.peerAddr pubkey = some addr ∨ Doomed g enroll' reaper' k pubkey)
    (hdoomed : ∀ k pubkey addr, g.Holds k pubkey addr → Doomed g enroll reaper k pubkey →
      Doomed g enroll' reaper' k pubkey) : MirrorInv g' enroll' reaper' := by
  have hdevice : ∀ k, g'.device k = g.device k := fun k => by
    rw [Gateway.device, hextra, Gateway.device]
  have hpremium : ∀ k, g'.premiumOnly k = g.premiumOnly k := fun k => by
    rw [Gateway.premiumOnly, hextra, Gateway.premiumOnly]
  have hholds : ∀ {k pubkey addr}, g'.Holds k pubkey addr → g.Holds k pubkey addr := by
    rintro k pubkey addr ⟨d, hd, haddr⟩
    exact ⟨d, hdevice k ▸ hd, haddr⟩
  refine ⟨fun k pubkey addr hk => ?_, fun k pubkey addr hk => h.decodes k pubkey addr (hholds hk)⟩
  rw [Doomed, hpremium]
  rcases h.held k pubkey addr (hholds hk) with heq | hdoom
  · exact hdev k pubkey addr (hholds hk) heq
  · exact Or.inr (hdoomed k pubkey addr (hholds hk) hdoom)

/-- The invariant reads the transports and the keys of the vanilla device. -/
lemma congr (h : MirrorInv g enroll reaper) (hextra : g'.extra = g.extra)
    (hkeys : g'.dev.byKey = g.dev.byKey) : MirrorInv g' enroll reaper := by
  refine h.frame hextra (fun k pubkey addr _ hdev => Or.inl ?_) fun _ _ _ _ => id
  rwa [Device.peerAddr, hkeys]

/-- An addition of a peer that the vanilla device has at that address. -/
lemma add (h : MirrorInv g enroll reaper) (hadd : g.addPeer k pubkey addr now engine = some g')
    (hdev : g.dev.peerAddr pubkey = some addr)
    (hdoomed : ∀ j pk a, g.Holds j pk a → Doomed g enroll reaper j pk →
      Doomed g enroll' reaper' j pk) : MirrorInv g' enroll' reaper' := by
  obtain ⟨d, d', hdevice, hedit⟩ := addPeer_edited hadd
  obtain ⟨extra, -, hrest⟩ := hedit.rest
  have hsame : g'.dev = g.dev := by rw [hrest]
  refine ⟨fun j pk a hk => ?_, fun j pk a hk => ?_⟩
  · rw [hsame, Doomed, hedit.premiumOnly]
    rcases holds_add hdevice hedit hk with hk | ⟨hpk, ha⟩
    · exact (h.held j pk a hk).imp_right (hdoomed j pk a hk)
    · rw [hpk, ha]
      exact Or.inl hdev
  · rcases holds_add hdevice hedit hk with hk | ⟨hpk, ha⟩
    · exact h.decodes j pk a hk
    · obtain ⟨raw, hraw, -⟩ := addPeer_some hdevice
      rw [hpk, hraw]
      rfl

/-- A removal, which takes the peer off its transport or is not the last. -/
lemma remove (h : MirrorInv g enroll reaper)
    (hdoomed : ∀ j pk a, g.Holds j pk a → ¬ (j = k ∧ pk = pubkey) →
      Doomed g enroll reaper j pk → Doomed g enroll' reaper' j pk)
    (hfails : engine = false → g.Strays k pubkey → Doomed g enroll' reaper' k pubkey) :
    MirrorInv (g.removePeer k pubkey engine) enroll' reaper' := by
  rcases removePeer_edited g k pubkey engine with ⟨d, d', hremove, hedit⟩ | ⟨hsame, hrefused⟩
  · obtain ⟨extra, -, hrest⟩ := hedit.rest
    have hsame : (g.removePeer k pubkey engine).dev = g.dev := by rw [hrest]
    refine ⟨fun j pk a hk => ?_, fun j pk a hk => ?_⟩
    · obtain ⟨hold, hother⟩ := holds_remove hremove hedit hk
      rw [hsame, Doomed, hedit.premiumOnly]
      exact (h.held j pk a hold).imp_right (hdoomed j pk a hold hother)
    · exact h.decodes j pk a (holds_remove hremove hedit hk).1
  · rw [hsame]
    refine ⟨fun j pk a hk => ?_, h.decodes⟩
    by_cases hpk : j = k ∧ pk = pubkey
    · obtain ⟨rfl, rfl⟩ := hpk
      by_cases hdev : g.dev.peerAddr pk = some a
      · exact Or.inl hdev
      · refine Or.inr (hfails ?_ (strays_of_holds hk hdev))
        obtain ⟨d, hd, -⟩ := id hk
        obtain ⟨raw, hraw⟩ := Option.isSome_iff_exists.mp (h.decodes j pk a hk)
        have hnone := hrefused d hd
        rw [Device.removePeer, hraw] at hnone
        cases engine with
        | false => rfl
        | true => cases hnone
    · exact (h.held j pk a hk).imp_right (hdoomed j pk a hk hpk)

end MirrorInv

/-! ### Steps -/

section Steps

variable {c : Config} {g g' : Gateway} {now : Int} {engine : Bool}

lemma EnrollStep.reaper_sync {p : Enroll} {r : Gateway × Enroll} (h : EnrollStep g now engine p r) :
    r.1.reaper = g.reaper ∧ r.1.sync = g.sync := by
  cases h with
  | mirror _ hadd =>
      obtain ⟨extra, rfl⟩ := addPeer_extra hadd
      exact ⟨rfl, rfl⟩
  | @undo pubkey premium k j =>
      obtain ⟨extra, hextra⟩ := removePeer_extra g j pubkey engine
      rw [hextra]
      exact ⟨rfl, rfl⟩
  | _ => exact ⟨rfl, rfl⟩

/-- A peer keeps its entry on the vanilla device when it is registered
again. -/
lemma peerAddr_register (halloc : AllocInv g) {pubkey : String} {premium existed : Bool}
    {addr : Addr} (hphase : g.enroll = .registering pubkey premium existed addr) {d : Device}
    (hadd : g.dev.addPeer pubkey addr now engine = some d) {pk : String} {a : Addr}
    (h : g.dev.peerAddr pk = some a) : d.peerAddr pk = some a := by
  rw [peerAddr_addPeer hadd]
  split
  · rename_i hpk
    rw [(halloc.registering hphase).1 a (hpk ▸ h)]
  · exact h

lemma MirrorInv.enroll {p : Enroll} {r : Gateway × Enroll} (hphase : g.enroll = p)
    (halloc : AllocInv g) (h : MirrorInv g p g.reaper)
    (hguard : MirrorGuard g (.enroll now engine)) (hstep : EnrollStep g now engine p r) :
    MirrorInv r.1 r.2 g.reaper := by
  obtain ⟨hadds, hback, hfails⟩ := hguard
  have hreaper : ∀ {p' : Enroll} {j : Nat} {pk : String}, (∀ b pk j, ¬ p.Dooms b pk j) →
      Doomed g p g.reaper j pk → Doomed g p' g.reaper j pk :=
    fun hnone hdoom => Or.inl (hdoom.resolve_right (hnone _ _ _))
  cases hstep with
  | @register pubkey premium existed addr d hadd =>
      exact h.frame rfl (fun _ _ _ _ hdev => Or.inl (peerAddr_register halloc hphase hadd hdev))
        fun _ _ _ _ hdoom => hreaper (fun _ _ _ => id) hdoom
  | @skip pubkey premium existed addr k =>
      exact h.frame rfl (fun _ _ _ _ => Or.inl) fun _ _ _ _ hdoom =>
        hreaper (fun _ _ _ => id) hdoom
  | @mirror pubkey premium existed addr k g' hmirrored hadd =>
      refine h.add hadd (hadds (pubkey, addr) ?_)
        fun _ _ _ _ hdoom => hreaper (fun _ _ _ => id) hdoom
      obtain ⟨d, d', hdevice, -⟩ := addPeer_edited hadd
      simp only [adds, hphase]
      rw [if_pos ⟨engine_of_addPeer hdevice, hmirrored⟩]
      rfl
  | @takeBack pubkey premium k d hremove =>
      refine h.frame rfl (fun j pk a hk hdev => ?_) fun _ _ _ _ hdoom =>
        hreaper (fun _ _ _ => id) hdoom
      change d.peerAddr pk = some a ∨ _
      rw [peerAddr_removePeer hremove]
      split
      · rename_i hpk
        subst hpk
        have hrolls : (pk, premium, k) ∈ rollsBack g (.enroll now engine) := by
          simp only [rollsBack, hphase]
          rw [if_pos (engine_of_removePeer hremove)]
          rfl
        rcases hback _ hrolls j (MirrorInv.holds_lt hk) (MirrorInv.onDevice_of_holds hk) with
          ⟨hjk, hpremium⟩ | hdoom
        · exact Or.inr (Or.inr ⟨rfl, Nat.zero_le j, hjk, hpremium⟩)
        · exact Or.inr (Or.inl hdoom)
      · exact Or.inl hdev
  | @undone pubkey premium k j hj =>
      refine h.frame rfl (fun _ _ _ _ => Or.inl) fun i pk a _ hdoom => Or.inl ?_
      refine hdoom.resolve_right fun hdoom => ?_
      obtain ⟨-, hij, hik, -⟩ := hdoom
      omega
  | @skipUndo pubkey premium k j hmirrored =>
      refine h.frame rfl (fun _ _ _ _ => Or.inl) fun i pk a hk hdoom => hdoom.imp_right ?_
      rintro ⟨hpk, hij, hik, hpremium⟩
      refine ⟨hpk, Nat.lt_of_le_of_ne hij fun heq => hmirrored ?_, hik, hpremium⟩
      subst heq
      rw [Gateway.mirrored, MirrorInv.device_of_holds hk, Bool.true_and]
      cases hgated : g.premiumOnly j with
      | false => rfl
      | true => exact hpremium hgated
  | @undo pubkey premium k j =>
      refine h.remove (fun i pk a hk hother hdoom => hdoom.imp_right ?_) fun hengine hstray => ?_
      · rintro ⟨hpk, hij, hik, hpremium⟩
        refine ⟨hpk, Nat.lt_of_le_of_ne hij fun heq => hother ⟨heq.symm, hpk.symm⟩, hik, hpremium⟩
      · have hlast : (j, pubkey, decide (g.reaper.Dooms (g.premiumOnly j) pubkey j)) ∈
            failsToRemove g (.enroll now engine) := by
          simp only [failsToRemove, hphase, hengine]
          rfl
        exact Or.inl (of_decide_eq_true (hfails _ hlast hstray))
  | _ =>
      exact h.frame rfl (fun _ _ _ _ => Or.inl) fun _ _ _ _ hdoom =>
        hreaper (fun _ _ _ => id) hdoom

/-- A call of `SyncPremiumPeers` by the sync loop. -/
lemma MirrorInv.premium {pubkey : String} {premium : Bool} {call : SyncPremium}
    {r : Gateway × Option SyncPremium} (h : MirrorInv g g.enroll g.reaper)
    (hadds : ∀ k addr, call = .add k addr → engine = true → g.dev.peerAddr pubkey = some addr)
    (hstep : PremiumStep g pubkey premium now engine call r) :
    MirrorInv r.1 g.enroll g.reaper := by
  cases hstep with
  | @add k addr g' hadd =>
      obtain ⟨d, d', hdevice, -⟩ := addPeer_edited hadd
      exact h.add hadd (hadds k addr rfl (engine_of_addPeer hdevice)) fun _ _ _ _ => id
  | @remove k =>
      refine h.remove (fun _ _ _ _ _ => id) fun _ hstray => ?_
      obtain ⟨addr, hk, hne⟩ := MirrorInv.holds_of_strays hstray
      exact (h.held k pubkey addr hk).resolve_left hne
  | _ => exact h

lemma MirrorInv.sync {p : Sync} {r : Gateway × Sync} {tier : Tier} (hphase : g.sync = p)
    (h : MirrorInv g g.enroll g.reaper) (hguard : MirrorGuard g (.sync tier now engine))
    (hstep : SyncStep g now engine p r) : MirrorInv r.1 g.enroll g.reaper := by
  have hadds : ∀ {pubkey premium call rest}, p = .syncing pubkey premium call rest →
      ∀ k addr, call = .add k addr → engine = true → g.dev.peerAddr pubkey = some addr := by
    rintro pubkey premium call rest rfl k addr rfl hengine
    refine hguard.1 (pubkey, addr) ?_
    simp only [adds, hphase, hengine]
    rfl
  cases hstep with
  | sync hpremium => exact h.premium (hadds rfl) hpremium
  | synced hpremium => exact h.premium (hadds rfl) hpremium
  | _ => exact h.frame rfl (fun _ _ _ _ => Or.inl) fun _ _ _ _ => id

lemma MirrorInv.reap {p : Reaper} {r : Gateway × Reaper} {tier : Tier} {clock : Int}
    (hphase : g.reaper = p) (h : MirrorInv g g.enroll p)
    (hguard : MirrorGuard g (.reap tier clock engine)) (hstep : ReaperStep g clock engine p r) :
    MirrorInv r.1 g.enroll r.2 := by
  obtain ⟨hadds, -, hfails⟩ := hguard
  cases hstep with
  | @drop pubkey now rest d hremove =>
      refine h.frame rfl (fun j pk a hk hdev => ?_) fun _ _ _ _ hdoom =>
        Or.inr (hdoom.resolve_left id)
      change d.peerAddr pk = some a ∨ _
      rw [peerAddr_removePeer hremove]
      split
      · rename_i hpk
        exact Or.inr (Or.inl ⟨hpk.symm, Or.inl (Nat.zero_le j)⟩)
      · exact Or.inl hdev
  | @unmirrored pubkey k now rest hk =>
      refine h.frame rfl (fun _ _ _ _ => Or.inl) fun j pk a hj hdoom => hdoom.imp_left ?_
      rintro ⟨hpk, hle | hpremium⟩
      · exact absurd (MirrorInv.holds_lt hj) (by omega)
      · exact ⟨hpk, hpremium⟩
  | @skip pubkey k now rest hnone =>
      refine h.frame rfl (fun _ _ _ _ => Or.inl) fun j pk a hj hdoom => hdoom.imp_left ?_
      rintro ⟨hpk, hle⟩
      refine ⟨hpk, hle.imp_left fun hle => Nat.lt_of_le_of_ne hle ?_⟩
      rintro rfl
      have hsome := MirrorInv.device_of_holds hj
      rw [hnone] at hsome
      cases hsome
  | @unmirror pubkey k now rest =>
      refine h.remove (fun j pk a hj hother hdoom => hdoom.imp_left ?_) fun hengine hstray => ?_
      · rintro ⟨hpk, hle⟩
        exact ⟨hpk, hle.imp_left fun hle =>
          Nat.lt_of_le_of_ne hle fun heq => hother ⟨heq.symm, hpk.symm⟩⟩
      · cases hpremium : g.premiumOnly k with
        | true => exact Or.inl ⟨rfl, Or.inr hpremium⟩
        | false =>
            have hlast : (k, pubkey, decide (g.enroll.Dooms (g.premiumOnly k) pubkey k)) ∈
                failsToRemove g (.reap tier clock engine) := by
              simp only [failsToRemove, hphase, hengine, hpremium]
              rfl
            exact Or.inr (of_decide_eq_true (hfails _ hlast hstray))
  | @forget pubkey now rest =>
      refine h.frame rfl (fun _ _ _ _ => Or.inl) fun j pk a hj hdoom => hdoom.imp_left ?_
      rintro ⟨hpk, hpremium⟩
      exact ⟨hpk, hpremium, Nat.zero_le j⟩
  | @sync pubkey call call' now rest g' hpremium =>
      cases hpremium with
      | @skip k hk hskip =>
          refine h.frame rfl (fun _ _ _ _ => Or.inl) fun j pk a hj hdoom => hdoom.imp_left ?_
          rintro ⟨hpk, hpremium, hle⟩
          refine ⟨hpk, hpremium, Nat.lt_of_le_of_ne hle ?_⟩
          rintro rfl
          have hgated : g.gated k := by
            rw [Gateway.gated, MirrorInv.device_of_holds hj, hpremium]
            rfl
          exact absurd (hskip hgated (hpk ▸ MirrorInv.onDevice_of_holds hj)) nofun
      | missing _ hpremium => cases hpremium
      | lapsed => exact h.frame rfl (fun _ _ _ _ => Or.inl) fun _ _ _ _ => id
      | unknown =>
          exact h.frame rfl (fun _ _ _ _ => Or.inl) fun _ _ _ _ hdoom =>
            Or.inr (hdoom.resolve_left id)
      | found =>
          exact h.frame rfl (fun _ _ _ _ => Or.inl) fun _ _ _ _ hdoom =>
            Or.inr (hdoom.resolve_left id)
      | addFails =>
          exact h.frame rfl (fun _ _ _ _ => Or.inl) fun _ _ _ _ hdoom =>
            Or.inr (hdoom.resolve_left id)
      | @add k addr g' hadd =>
          obtain ⟨d, d', hdevice, -⟩ := addPeer_edited hadd
          refine h.add hadd (hadds (pubkey, addr) ?_) fun _ _ _ _ hdoom =>
            Or.inr (hdoom.resolve_left id)
          simp only [adds, hphase, engine_of_addPeer hdevice]
          rfl
      | @remove k =>
          refine h.remove (fun j pk a hj hother hdoom => hdoom.imp_left ?_) fun hengine hstray => ?_
          · rintro ⟨hpk, hpremium, hle⟩
            exact ⟨hpk, hpremium,
              Nat.lt_of_le_of_ne hle fun heq => hother ⟨heq.symm, hpk.symm⟩⟩
          · have hlast : (k, pubkey, decide (g.enroll.Dooms (g.premiumOnly k) pubkey k)) ∈
                failsToRemove g (.reap tier clock engine) := by
              simp only [failsToRemove, hphase, hengine]
              rfl
            exact Or.inr (of_decide_eq_true (hfails _ hlast hstray))
  | @synced pubkey call now rest g' hpremium =>
      cases hpremium with
      | @return_ k hk =>
          refine h.frame rfl (fun _ _ _ _ => Or.inl) fun j pk a hj hdoom =>
            Or.inr (hdoom.resolve_left ?_)
          rintro ⟨-, -, hle⟩
          have hlt := MirrorInv.holds_lt hj
          omega
  | _ =>
      exact h.frame rfl (fun _ _ _ _ => Or.inl)
        fun _ _ _ _ hdoom => Or.inr (hdoom.resolve_left id)

lemma ReaperStep.enroll {p : Reaper} {r : Gateway × Reaper} (h : ReaperStep g now engine p r) :
    r.1.enroll = g.enroll := by
  cases h with
  | @unmirror pubkey k _ rest =>
      obtain ⟨extra, hextra⟩ := removePeer_extra g k pubkey engine
      rw [hextra]
  | sync hpremium =>
      obtain ⟨extra, hextra⟩ := hpremium.extra
      cases hextra
      rfl
  | synced hpremium =>
      obtain ⟨extra, hextra⟩ := hpremium.extra
      cases hextra
      rfl
  | _ => rfl

lemma SyncStep.enroll_reaper {p : Sync} {r : Gateway × Sync} (h : SyncStep g now engine p r) :
    r.1.enroll = g.enroll ∧ r.1.reaper = g.reaper := by
  cases h with
  | sync hpremium =>
      obtain ⟨extra, hextra⟩ := hpremium.extra
      cases hextra
      exact ⟨rfl, rfl⟩
  | synced hpremium =>
      obtain ⟨extra, hextra⟩ := hpremium.extra
      cases hextra
      exact ⟨rfl, rfl⟩
  | _ => exact ⟨rfl, rfl⟩

lemma MirrorInv.step {e : Event} (halloc : AllocInv g) (h : MirrorInv g g.enroll g.reaper)
    (hguard : MirrorGuard g e) (hstep : step c g e = some g') :
    MirrorInv g' g'.enroll g'.reaper := by
  cases e with
  | request pubkey premium =>
      rw [Peers.step] at hstep
      split at hstep
      · rename_i hidle
        cases hstep
        rw [hidle.1] at h
        exact h.frame rfl (fun _ _ _ _ => Or.inl) fun _ _ _ _ hdoom =>
          Or.inl (hdoom.resolve_right id)
      · cases hstep
  | enroll now engine =>
      obtain ⟨r, hr, rfl⟩ := Option.map_eq_some_iff.mp hstep
      have hcall := enroll_step hr
      have hkept := h.enroll rfl halloc hguard hcall
      rw [← hcall.reaper_sync.1] at hkept
      exact hkept.congr rfl rfl
  | tick peers =>
      rw [Peers.step] at hstep
      split at hstep <;> cases hstep
      exact h.congr rfl rfl
  | sync tier now engine =>
      obtain ⟨r, hr, rfl⟩ := Option.map_eq_some_iff.mp hstep
      have hcall := sync_step hr
      have hkept := h.sync rfl hguard hcall
      rw [← hcall.enroll_reaper.1, ← hcall.enroll_reaper.2] at hkept
      exact hkept.congr rfl rfl
  | touch handshakes =>
      rw [Peers.step] at hstep
      split at hstep <;> cases hstep
      exact h.congr rfl rfl
  | sweep now recs =>
      rw [Peers.step] at hstep
      split at hstep
      · rename_i hidle
        cases hstep
        rw [hidle.1] at h
        exact h.frame rfl (fun _ _ _ _ => Or.inl) fun _ _ _ _ => id
      · cases hstep
  | reap tier clock engine =>
      obtain ⟨r, hr, rfl⟩ := Option.map_eq_some_iff.mp hstep
      have hcall := reaper_step hr
      have hkept := h.reap rfl hguard hcall
      rw [← hcall.enroll] at hkept
      exact hkept.congr rfl rfl
  | flow k src =>
      obtain ⟨pubkey, -, rfl⟩ := Option.map_eq_some_iff.mp hstep
      exact h.congr rfl rfl
  | limit pubkey =>
      rw [Peers.step] at hstep
      split at hstep <;> cases hstep
      exact h.congr rfl rfl

end Steps

/-! ### Runs -/

/-- What the vanilla device takes of a cache, another device that takes no
more gets at the same address. -/
lemma restorePeers_contained {fails fails' : Fails} {now : Int} :
    ∀ {recs : List PeerRecord} {d e : Device}, (recs.map PeerRecord.pubKey).Nodup →
      (∀ r ∈ recs, fails r → fails' r) → (∀ r ∈ recs, e.peerAddr r.pubKey = none) →
      (∀ pk a, e.peerAddr pk = some a → d.peerAddr pk = some a ∧ (decodeKey pk).isSome) →
      ∀ pk a, (e.restorePeers fails' now recs).peerAddr pk = some a →
        (d.restorePeers fails now recs).peerAddr pk = some a ∧ (decodeKey pk).isSome
  | [], d, e, _, _, _, h => h
  | r :: recs, d, e, hkeys, hfails, hnew, h => by
      obtain ⟨hkey, hkeys⟩ := List.nodup_cons.mp hkeys
      have hfails' : ∀ r' ∈ recs, fails r' → fails' r' := fun r' hr' =>
        hfails r' (List.mem_cons_of_mem r hr')
      have hnone := hnew r List.mem_cons_self
      have hrest : ∀ r' ∈ recs, e.peerAddr r'.pubKey = none := fun r' hr' =>
        hnew r' (List.mem_cons_of_mem r hr')
      rw [Device.restorePeers, Device.restorePeers]
      cases hadd : d.addPeer r.pubKey r.addr now (¬ fails r) with
      | none =>
          have hrefused : e.addPeer r.pubKey r.addr now (¬ fails' r) = none := by
            rw [Device.addPeer] at hadd ⊢
            split
            · rfl
            · rename_i raw hraw
              rw [hraw] at hadd
              cases hfail : fails r with
              | false => simp [hfail] at hadd
              | true => simp [hfails r List.mem_cons_self hfail]
          rw [hrefused]
          exact restorePeers_contained hkeys hfails' hrest h
      | some d' =>
          have hd' : ∀ pk a, e.peerAddr pk = some a → d'.peerAddr pk = some a ∧
              (decodeKey pk).isSome := by
            intro pk a hpk
            rw [peerAddr_addPeer hadd, if_neg]
            · exact h pk a hpk
            · rintro rfl
              rw [hnone] at hpk
              cases hpk
          cases hadd' : e.addPeer r.pubKey r.addr now (¬ fails' r) with
          | none => exact restorePeers_contained (d := d'.stamp r) hkeys hfails' hrest hd'
          | some e' =>
              refine restorePeers_contained (d := d'.stamp r) (e := e'.stamp r) hkeys hfails'
                (fun r' hr' => ?_) fun pk a hpk => ?_
              · change e'.peerAddr r'.pubKey = none
                rw [peerAddr_addPeer hadd', if_neg]
                · exact hrest r' hr'
                · exact fun heq => hkey (List.mem_map.mpr ⟨r', hr', heq⟩)
              · change e'.peerAddr pk = some a at hpk
                change d'.peerAddr pk = some a ∧ _
                rw [peerAddr_addPeer hadd'] at hpk
                split at hpk
                · rename_i heq
                  obtain ⟨raw, hraw, -⟩ := addPeer_some hadd'
                  rw [peerAddr_addPeer hadd, if_pos heq, heq, hraw]
                  exact ⟨hpk, rfl⟩
                · exact hd' pk a hpk

section Boot

variable {own : Identity} {max : Nat} {now : Int} {cache : Option (List (List Char))}
  {fails : Fails}
  {listeners : List Listener}

lemma AllocInv.boot (haddrs : ((loadPeerCache max now cache).1.map PeerRecord.addr).Nodup) :
    AllocInv (Gateway.boot own now (loadPeerCache max now cache).1 fails listeners) where
  inverse := restorePeers_inverse (loadPeerCache_nodup max now cache) haddrs
    (fun _ _ => ⟨rfl, rfl⟩) fun _ _ => iff_of_false nofun nofun
  host := hostPart_two
  registering := nofun

lemma MirrorInv.boot (hfails : ∀ l ∈ listeners, l.premiumOnly = false → ∀ f, l.device = some f →
      ∀ r, fails r → f r) :
    MirrorInv (Gateway.boot own now (loadPeerCache max now cache).1 fails listeners) .idle
      .idle := by
  have hheld : ∀ k pk a,
      (Gateway.boot own now (loadPeerCache max now cache).1 fails listeners).Holds k pk a →
      ((Device.new own).restorePeers fails now (loadPeerCache max now cache).1).peerAddr pk =
        some a ∧ (decodeKey pk).isSome := by
    rintro k pk a ⟨d, hd, hpk⟩
    obtain ⟨t, ht, hdevice⟩ := Option.bind_eq_some_iff.mp hd
    obtain ⟨l, hl, rfl⟩ := List.mem_map.mp (List.mem_of_getElem? ht)
    obtain ⟨f, hf, rfl⟩ := Option.map_eq_some_iff.mp hdevice
    split at hpk
    · cases hpk
    · rename_i hpremium
      refine restorePeers_contained (loadPeerCache_nodup max now cache)
        (fun r _ => hfails l hl (Bool.eq_false_iff.mpr hpremium) f hf r) (fun _ _ => rfl)
        (fun pk a hnone => ?_) pk a hpk
      cases hnone
  exact ⟨fun k pk a hk => Or.inl (hheld k pk a hk).1, fun k pk a hk => (hheld k pk a hk).2⟩

/-- **A quiet gateway is mirrored** after every run of guarded steps, from a
cache without double addresses of which no open transport took more than the
vanilla device. -/
theorem mirrors_follow (c : Config)
    (haddrs : ((loadPeerCache max now cache).1.map PeerRecord.addr).Nodup)
    (hfails : ∀ l ∈ listeners, l.premiumOnly = false → ∀ f, l.device = some f →
      ∀ r, fails r → f r)
    {es : List Event} {g : Gateway}
    (h : exec (step c) (Gateway.boot own now (loadPeerCache max now cache).1 fails listeners) es =
      some g)
    (hguard : Along (step c) MirrorGuard
      (Gateway.boot own now (loadPeerCache max now cache).1 fails listeners) es)
    (hquiet : g.Quiet) : Mirrored g := by
  have hboth : AllocInv g ∧ MirrorInv g g.enroll g.reaper := by
    refine exec_invariant (I := fun g => AllocInv g ∧ MirrorInv g g.enroll g.reaper)
      (fun _ _ _ hi hg hs => ⟨hi.1.step hs, hi.2.step hi.1 hg hs⟩) ?_ hguard h
    exact ⟨.boot haddrs, .boot hfails⟩
  obtain ⟨halloc, hmirror⟩ := hboth
  obtain ⟨henroll, -, hreaper, -⟩ := hquiet
  have hcontained : ∀ k pubkey addr, g.Holds k pubkey addr →
      g.dev.peerAddr pubkey = some addr := by
    intro k pubkey addr hk
    refine (hmirror.held k pubkey addr hk).resolve_right ?_
    rw [henroll, hreaper, Doomed]
    exact fun hdoom => hdoom.elim id id
  have hvanilla : ∀ {k d pubkey addr}, g.flowDevice k = some d → d.peerAddr pubkey = some addr →
      g.dev.peerAddr pubkey = some addr := by
    intro k d pubkey addr hd hpk
    cases k with
    | none =>
        cases hd
        exact hpk
    | some k => exact hcontained k pubkey addr ⟨d, hd, hpk⟩
  refine ⟨hcontained, fun k j d d' pubkey pubkey' addr hd hd' hpk hpk' => ?_⟩
  have haddr := (halloc.inverse pubkey addr).mp (hvanilla hd hpk)
  exact Option.some_inj.mp
    (haddr.symm.trans ((halloc.inverse pubkey' addr).mp (hvanilla hd' hpk')))

end Boot

section Runs

/-- An open listener and a premium one. -/
def twoListeners : List Listener := [⟨some fun _ => false, false⟩, ⟨some fun _ => false, true⟩]

/-- A gateway with two transports and no peer. -/
def twoTransports : Gateway :=
  .boot [9] 0 (loadPeerCache 100 0 none).1 (fun _ => false) twoListeners

/-- A peer enrolls, pays, and is synced. -/
def payingRun : List Event :=
  .request zeroKey false :: List.replicate 9 (.enroll 0 true) ++ .tick [zeroKey] ::
    List.replicate 10 (.sync ⟨true, none⟩ 0 true)

theorem mirrors_follow_paying :
    ∃ g, exec (step roomy) twoTransports payingRun = some g ∧ g.onDevice 1 zeroKey ∧
      Mirrored g := by
  have hrun : (exec (step roomy) twoTransports payingRun).any fun g =>
      g.onDevice 1 zeroKey ∧ g.Quiet := by decide +kernel
  obtain ⟨g, hg, hboth⟩ := (Option.any_eq_true _ _).mp hrun
  obtain ⟨hon, hquiet⟩ := of_decide_eq_true hboth
  refine ⟨g, hg, hon,
    @mirrors_follow [9] 100 0 none (fun _ => false) twoListeners roomy ?_ ?_ payingRun g hg ?_
      hquiet⟩
  · exact List.nodup_nil
  · exact fun _ _ _ _ _ _ hfails => by cases hfails
  · decide +kernel

/-- An idle peer enrolls again while the reaper sweeps: the reaper comes
between the vanilla device and the mirror. -/
def reapedRun : List Event :=
  enrollment zeroKey ++
    [.sweep 3000000 [⟨zeroKey, ⟨10, 8, 0, 2⟩, some 0⟩], .request zeroKey false] ++
    List.replicate 4 (.enroll 3000000 true) ++
    List.replicate 8 (.reap ⟨false, none⟩ 3000000 true) ++
    List.replicate 4 (.enroll 3000000 true)

theorem not_mirrors_follow :
    ¬ ∀ (es : List Event) (g : Gateway),
      exec (step roomy) (bootGateway []) es = some g → g.Quiet → Mirrored g := by
  intro h
  have hrun : (exec (step roomy) (bootGateway []) reapedRun).any fun g =>
      g.Quiet ∧ g.Strays 0 zeroKey := by decide +kernel
  obtain ⟨g, hg, hboth⟩ := (Option.any_eq_true _ _).mp hrun
  obtain ⟨hquiet, hstray⟩ := of_decide_eq_true hboth
  obtain ⟨addr, hholds, hne⟩ := MirrorInv.holds_of_strays hstray
  exact hne ((h reapedRun g hg hquiet).contained 0 zeroKey addr hholds)

end Runs

end CumulusVpn.Peers
