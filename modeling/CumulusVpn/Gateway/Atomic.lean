/-
One enrollment across all devices (`handleEnroll` and `SyncPremiumPeers` of
`gateway/internal/api/api.go`), with handlers that run one at a time.

* `Device.Alike`: two devices with the same peers, stamps and allowed IPs;
  `alike_undo`: a peer that is added and removed again leaves no trace, when
  the device knew neither its key, its identity nor its address;
* `Sound`: the tables are intact and the transports follow the vanilla device;
* `Enrolling`: what an enrollment has done to each device when it stands where
  it does; `Enrolling.next`: a call of it;
* `Reconciling`: what the sync loop has settled; `Reconciling.next`: a call of
  it;
* `InTurn`: one handler runs at a time, and no key is enrolled beside a second
  spelling of it;
* `enrollment_atomic`: **an enrollment takes everywhere or nowhere, and a
  reconciliation leaves the premium transports with the premium peers**;
  `not_enrollment_atomic` is a rollback of a second spelling.
-/
import CumulusVpn.Gateway.Mirrors

namespace CumulusVpn.Peers

open StepSystem

/-! ### A peer that comes and goes -/

/-- The same peers, stamps and allowed IPs. -/
structure Device.Alike (d d' : Device) : Prop where
  own : d'.own = d.own
  peerAddr : ∀ pk, d'.peerAddr pk = d.peerAddr pk
  peerByAddr : ∀ a, d'.peerByAddr a = d.peerByAddr a
  seen : ∀ pk, d'.seen.lookup pk = d.seen.lookup pk
  allowed : ∀ a, d'.allowed a = d.allowed a

lemma Device.Alike.refl (d : Device) : d.Alike d :=
  ⟨rfl, fun _ => rfl, fun _ => rfl, fun _ => rfl, fun _ => rfl⟩

/-- Only registered peers have a stamp. -/
def Device.Stamped (d : Device) : Prop :=
  ∀ pk, d.peerAddr pk = none → d.seen.lookup pk = none

/-- The device took the peer. -/
def Device.Took (pubkey : String) (addr : Addr) (d d' : Device) : Prop :=
  ∃ now engine, d.addPeer pubkey addr now engine = some d'

section Devices

variable {d d' d'' dev dev' : Device} {pubkey : String} {addr : Addr} {now : Int} {engine : Bool}

/-- An intact table holds one spelling of each of its keys. -/
lemma Device.Intact.oneSpelling (h : d.Intact) {a : Addr} (hpk : d.peerAddr pubkey = some a) :
    d.OneSpelling pubkey := fun pk hmem hsame => by
  obtain ⟨a', ha'⟩ := mem_keys_iff.mp hmem
  exact h.eq_of_identity ha' hpk hsame

/-- **A peer that is added and removed again leaves no trace.** -/
lemma alike_undo (h : d.Intact) (hstamped : d.Stamped) (hone : d.OneSpelling pubkey)
    (hnew : d.peerAddr pubkey = none) (hfree : d.peerByAddr addr = none)
    (hadd : d.addPeer pubkey addr now engine = some d')
    (hremove : d'.removePeer pubkey true = some d'') : d.Alike d'' := by
  obtain ⟨raw, hraw, hown, -, -, hallowed⟩ := addPeer_some hadd
  obtain ⟨raw', hraw', hown', -, haddrs, hallowed'⟩ := removePeer_some hremove
  obtain rfl : raw = raw' := Option.some_inj.mp (hraw.symm.trans hraw')
  -- nobody has the identity, and nobody the address
  have hidentity : ∀ a, d.allowed a ≠ some raw := by
    intro a ha
    obtain ⟨-, pk, hpk, hdecode⟩ := (h.allowedIps a raw).mp ha
    have hpk := (h.inverse pk a).mpr hpk
    have hsame := hone pk (mem_keys_iff.mpr ⟨a, hpk⟩) (hdecode.trans hraw.symm)
    rw [hsame, hnew] at hpk
    cases hpk
  have haddr : d.allowed addr = none := by
    refine Option.eq_none_iff_forall_ne_some.mpr fun r hr => ?_
    obtain ⟨-, pk, hpk, -⟩ := (h.allowedIps addr r).mp hr
    rw [hfree] at hpk
    cases hpk
  refine ⟨hown'.trans hown, fun pk => ?_, fun a => ?_, fun pk => ?_, fun a => ?_⟩
  · rw [peerAddr_removePeer hremove, peerAddr_addPeer hadd]
    by_cases hpk : pk = pubkey
    · rw [if_pos hpk, hpk, hnew]
    · rw [if_neg hpk, if_neg hpk]
  · rw [haddrs, peerAddr_addPeer hadd, if_pos rfl, peerByAddr_addPeer hadd]
    by_cases ha : a = addr
    · rw [ha, if_pos rfl, hfree]
    · rw [if_neg fun heq => ha (Option.some_inj.mp heq).symm, if_neg ha]
  · rw [seen_removePeer hremove, seen_addPeer hadd]
    by_cases hpk : pk = pubkey
    · rw [if_pos hpk, hpk, hstamped pubkey hnew]
    · rw [if_neg hpk, if_neg fun hboth => hpk hboth.1]
  · rw [hallowed', hallowed]
    by_cases hself : raw = d.own
    · rw [if_pos hself, if_neg (hidentity a)]
    · rw [if_neg hself]
      by_cases ha : a = addr
      · rw [ha, Function.update_self, if_pos rfl, haddr]
      · rw [Function.update_of_ne ha, if_neg (hidentity a)]

lemma Device.Alike.intact (h : d.Alike d') (hd : d.Intact) : d'.Intact where
  inverse pk a := by
    rw [h.peerAddr, h.peerByAddr]
    exact hd.inverse pk a
  oneAddress pk pk' a a' := by
    rw [h.peerAddr, h.peerAddr]
    exact hd.oneAddress pk pk' a a'
  unshared pk pk' a := by
    rw [h.peerAddr, h.peerAddr]
    exact hd.unshared pk pk' a
  routable pk a := by
    rw [h.peerAddr]
    exact hd.routable pk a
  allowedIps a raw := by
    simp only [h.allowed, h.own, h.peerByAddr]
    exact hd.allowedIps a raw

lemma Device.Alike.stamped (h : d.Alike d') (hd : d.Stamped) : d'.Stamped := fun pk hpk => by
  rw [h.peerAddr] at hpk
  rw [h.seen, hd pk hpk]

lemma stamped_addPeer (hd : d.Stamped) (h : d.addPeer pubkey addr now engine = some d') :
    d'.Stamped := fun pk hpk => by
  rw [peerAddr_addPeer h] at hpk
  split at hpk
  · cases hpk
  · rename_i hne
    rw [seen_addPeer h, if_neg fun hboth => hne hboth.1, hd pk hpk]

lemma stamped_removePeer (hd : d.Stamped) (h : d.removePeer pubkey engine = some d') :
    d'.Stamped := fun pk hpk => by
  rw [peerAddr_removePeer h] at hpk
  rw [seen_removePeer h]
  split at hpk
  · rename_i heq
    rw [if_pos heq]
  · rename_i hne
    rw [if_neg hne, hd pk hpk]

/-! ### A transport and the vanilla device -/

/-- The peers of a transport are peers of the vanilla device, at their
addresses. -/
structure Follows (dev d : Device) : Prop where
  intact : d.Intact
  stamped : d.Stamped
  contained : ∀ pk a, d.peerAddr pk = some a → dev.peerAddr pk = some a

/-- The address of an enrollment: the peer's own, or a free one. -/
structure Assigned (dev : Device) (pubkey : String) (addr : Addr) : Prop where
  mine : ∀ a, dev.peerAddr pubkey = some a → a = addr
  free : ∀ pk, dev.peerByAddr addr = some pk → pk = pubkey
  routable : addr ≠ gatewayAddr ∧ addr ≠ networkAddr

lemma Follows.oneSpelling (h : Follows dev d) (hone : dev.OneSpelling pubkey) :
    d.OneSpelling pubkey := fun pk hmem => by
  obtain ⟨a, ha⟩ := mem_keys_iff.mp hmem
  exact hone pk (mem_keys_iff.mpr ⟨a, h.contained pk a ha⟩)

lemma Follows.assigned (h : Follows dev d) (hdev : dev.Intact) (ha : Assigned dev pubkey addr) :
    Assigned d pubkey addr where
  mine a hpk := ha.mine a (h.contained pubkey a hpk)
  free pk hpk := by
    have hheld := h.contained pk addr ((h.intact.inverse pk addr).mpr hpk)
    exact ha.free pk ((hdev.inverse pk addr).mp hheld)
  routable := ha.routable

/-- A peer of the vanilla device is mirrored. -/
lemma Follows.addPeer (h : Follows dev d) (hdev : dev.Intact)
    (hpk : dev.peerAddr pubkey = some addr) (hadd : d.addPeer pubkey addr now engine = some d') :
    Follows dev d' := by
  have hassigned : Assigned dev pubkey addr :=
    ⟨fun a ha => Option.some_inj.mp (ha.symm.trans hpk),
      fun pk hfree => Option.some_inj.mp (hfree.symm.trans ((hdev.inverse pubkey addr).mp hpk)),
      hdev.routable pubkey addr hpk⟩
  have hd := h.assigned hdev hassigned
  refine ⟨h.intact.addPeer hadd (h.oneSpelling (hdev.oneSpelling hpk)) hd.mine hd.free hd.routable,
    stamped_addPeer h.stamped hadd, fun pk a ha => ?_⟩
  rw [peerAddr_addPeer hadd] at ha
  split at ha
  · rename_i heq
    cases ha
    exact heq ▸ hpk
  · exact h.contained pk a ha

lemma Follows.removePeer (h : Follows dev d) {a : Addr} (hpk : d.peerAddr pubkey = some a)
    (hremove : d.removePeer pubkey engine = some d') : Follows dev d' := by
  refine ⟨h.intact.removePeer hremove (h.intact.oneSpelling hpk),
    stamped_removePeer h.stamped hremove, fun pk a ha => ?_⟩
  rw [peerAddr_removePeer hremove] at ha
  split at ha
  · cases ha
  · exact h.contained pk a ha

/-- A transport follows the vanilla device when that takes a peer. -/
lemma Follows.mono (h : Follows dev d) (ha : Assigned dev pubkey addr)
    (hadd : dev.addPeer pubkey addr now engine = some dev') : Follows dev' d where
  intact := h.intact
  stamped := h.stamped
  contained pk a hpk := by
    have hheld := h.contained pk a hpk
    rw [peerAddr_addPeer hadd]
    split
    · rename_i heq
      rw [ha.mine a (heq ▸ hheld)]
    · exact hheld

end Devices

/-- What holds between two handlers. -/
structure Sound (g : Gateway) : Prop where
  intact : g.dev.Intact
  stamped : g.dev.Stamped
  /-- every peer has a key -/
  keys : ∀ pk a, g.dev.peerAddr pk = some a → (decodeKey pk).isSome
  follows : ∀ k d, g.device k = some d → Follows g.dev d

/-! ### Where an enrollment stands -/

/-- Each transport is what the relation says of the transport before. -/
structure Spread (R : Nat → Device → Device → Prop) (g₀ g : Gateway) : Prop where
  premiumOnly : ∀ k, g.premiumOnly k = g₀.premiumOnly k
  length : g.extra.length = g₀.extra.length
  devices : ∀ k, Option.Rel (R k) (g₀.device k) (g.device k)

/-- The devices and the limiters are as before. -/
structure Untouched (g₀ g : Gateway) : Prop where
  dev : g.dev = g₀.dev
  extra : g.extra = g₀.extra
  lim : g.lim = g₀.lim

/-- The peer is on the transports below `n` that it is eligible for. -/
def TookBelow (g₀ : Gateway) (premium : Bool) (pubkey : String) (addr : Addr) (n : Nat) :
    Nat → Device → Device → Prop := fun k d d' =>
  if k < n ∧ g₀.mirrored k premium then d.Took pubkey addr d' else d' = d

/-- And it has been taken off those below `j` again. -/
def UndoneBelow (g₀ : Gateway) (premium : Bool) (pubkey : String) (addr : Addr) (n j : Nat) :
    Nat → Device → Device → Prop := fun k d d' =>
  if k < n ∧ g₀.mirrored k premium then
    if k < j then d.Alike d' else d.Took pubkey addr d'
  else d' = d

/-- What the enrollment has done since the gateway was `g₀`. -/
inductive Enrolling (g₀ : Gateway) (pubkey : String) (premium : Bool) (g : Gateway) :
    Enroll → Prop
  | counting (h : Untouched g₀ g) : Enrolling g₀ pubkey premium g (.counting pubkey premium)
  | looking {free : Int} {total : Nat} (h : Untouched g₀ g) :
      Enrolling g₀ pubkey premium g (.looking pubkey premium free total)
  | assigning {existed : Bool} (h : Untouched g₀ g)
      (hexisted : existed = (g₀.dev.peerAddr pubkey).isSome) :
      Enrolling g₀ pubkey premium g (.assigning pubkey premium existed)
  | registering {existed : Bool} {addr : Addr} (h : Untouched g₀ g)
      (hexisted : existed = (g₀.dev.peerAddr pubkey).isSome) (ha : Assigned g₀.dev pubkey addr) :
      Enrolling g₀ pubkey premium g (.registering pubkey premium existed addr)
  | mirroring {existed : Bool} {addr : Addr} {k : Nat}
      (hexisted : existed = (g₀.dev.peerAddr pubkey).isSome) (ha : Assigned g₀.dev pubkey addr)
      (hdev : g₀.dev.Took pubkey addr g.dev)
      (hextra : Spread (TookBelow g₀ premium pubkey addr k) g₀ g) (hlim : g.lim = g₀.lim) :
      Enrolling g₀ pubkey premium g (.mirroring pubkey premium existed addr k)
  | dropping {addr : Addr} {k : Nat} (hnew : g₀.dev.peerAddr pubkey = none)
      (ha : Assigned g₀.dev pubkey addr) (hdev : g₀.dev.Took pubkey addr g.dev)
      (hextra : Spread (TookBelow g₀ premium pubkey addr k) g₀ g) (hlim : g.lim = g₀.lim) :
      Enrolling g₀ pubkey premium g (.dropping pubkey premium k)
  | unmirroring {addr : Addr} {k j : Nat} (hnew : g₀.dev.peerAddr pubkey = none)
      (ha : Assigned g₀.dev pubkey addr) (hdev : g₀.dev.Alike g.dev)
      (hextra : Spread (UndoneBelow g₀ premium pubkey addr k j) g₀ g) (hlim : g.lim = g₀.lim) :
      Enrolling g₀ pubkey premium g (.unmirroring pubkey premium k j)
  | tiering {addr : Addr} {call : SetTier} (ha : Assigned g₀.dev pubkey addr)
      (hdev : g₀.dev.Took pubkey addr g.dev)
      (hextra : Spread (TookBelow g₀ premium pubkey addr g₀.extra.length) g₀ g) :
      Enrolling g₀ pubkey premium g (.tiering pubkey premium call)

/-- The peer has been registered everywhere, and only its tier is left. -/
def Enroll.Tiers : Enroll → Prop
  | .tiering .. => True
  | _ => False

instance : (p : Enroll) → Decidable p.Tiers := fun p => by
  cases p with
  | tiering => exact inferInstanceAs (Decidable True)
  | _ => exact inferInstanceAs (Decidable False)

/-- The peer has one address, on the vanilla device and wherever it is
eligible. -/
def Enrolled (g : Gateway) (pubkey : String) (premium : Bool) : Prop :=
  ∃ addr, g.dev.peerAddr pubkey = some addr ∧ ∀ k, g.mirrored k premium → g.Holds k pubkey addr

/-- Every device has the peers that it had, and the limiters are as before. -/
structure Restored (g₀ g : Gateway) : Prop where
  dev : g₀.dev.Alike g.dev
  extra : Spread (fun _ => Device.Alike) g₀ g
  lim : g.lim = g₀.lim

section Enrollment

variable {g₀ g g' : Gateway} {R R' : Nat → Device → Device → Prop} {pubkey : String}
  {premium : Bool} {addr : Addr} {k : Nat}

/-- Two transports that are related, or neither is there. -/
lemma rel_imp {P Q : Device → Device → Prop} {o o' : Option Device} (h : Option.Rel P o o')
    (himp : ∀ d d', o = some d → o' = some d' → P d d' → Q d d') : Option.Rel Q o o' := by
  cases h with
  | none => exact .none
  | some hrel => exact .some (himp _ _ rfl rfl hrel)

lemma rel_isSome {P : Device → Device → Prop} {o o' : Option Device} (h : Option.Rel P o o') :
    o'.isSome = o.isSome := by
  cases h <;> rfl

lemma rel_some {P : Device → Device → Prop} {o : Option Device} {d' : Device}
    (h : Option.Rel P o (some d')) : ∃ d, o = some d ∧ P d d' := by
  cases h with
  | some hrel => exact ⟨_, rfl, hrel⟩

lemma lt_of_device {d : Device} (h : g.device k = some d) : k < g.extra.length := by
  obtain ⟨t, ht, -⟩ := Option.bind_eq_some_iff.mp h
  exact (List.getElem?_eq_some_iff.mp ht).1

lemma Spread.refl (hR : ∀ k d, R k d d) (h : g.extra = g₀.extra) : Spread R g₀ g where
  premiumOnly k := by rw [Gateway.premiumOnly, Gateway.premiumOnly, h]
  length := by rw [h]
  devices k := by
    rw [Gateway.device, Gateway.device, h]
    cases (g₀.extra[k]?).bind ExtraTransport.device with
    | none => exact .none
    | some d => exact .some (hR k d)

lemma Spread.congr (h : Spread R g₀ g) (hextra : g'.extra = g.extra) : Spread R g₀ g' where
  premiumOnly k := by
    rw [← h.premiumOnly, Gateway.premiumOnly, hextra, Gateway.premiumOnly]
  length := hextra ▸ h.length
  devices k := by
    have hdevice : g'.device k = g.device k := by rw [Gateway.device, hextra, Gateway.device]
    rw [hdevice]
    exact h.devices k

lemma Spread.imp (h : Spread R g₀ g)
    (himp : ∀ k d d', k < g₀.extra.length → g₀.device k = some d → R k d d' → R' k d d') :
    Spread R' g₀ g where
  premiumOnly := h.premiumOnly
  length := h.length
  devices k := rel_imp (h.devices k) fun d d' hd _ hrel => himp k d d' (lt_of_device hd) hd hrel

/-- The transport before, and what became of it. -/
lemma Spread.exists_before (h : Spread R g₀ g) {d' : Device} (hd' : g.device k = some d') :
    ∃ d, g₀.device k = some d ∧ R k d d' := by
  have hk := h.devices k
  rw [hd'] at hk
  exact rel_some hk

lemma Spread.mirrored (h : Spread R g₀ g) (k : Nat) (premium : Bool) :
    g.mirrored k premium = g₀.mirrored k premium := by
  rw [Gateway.mirrored, Gateway.mirrored, h.premiumOnly, rel_isSome (h.devices k)]

/-- One transport is edited. -/
lemma Spread.edit {d d' : Device} (h : Spread R g₀ g) (hedit : Edited g g' k d d')
    (hother : ∀ j e e', j ≠ k → R j e e' → R' j e e')
    (hhere : ∀ e, g₀.device k = some e → R k e d → R' k e d') : Spread R' g₀ g' where
  premiumOnly j := (hedit.premiumOnly j).trans (h.premiumOnly j)
  length := by
    obtain ⟨extra, hlength, rfl⟩ := hedit.rest
    exact hlength.trans h.length
  devices j := by
    rw [hedit.device]
    by_cases hj : j = k
    · subst hj
      obtain ⟨e, he, hrel⟩ := h.exists_before hedit.before
      rw [if_pos rfl, he]
      exact .some (hhere e he hrel)
    · rw [if_neg hj]
      exact rel_imp (h.devices j) fun e e' _ _ => hother j e e' hj

lemma Untouched.spread (h : Untouched g₀ g) (hR : ∀ k d, R k d d) : Spread R g₀ g :=
  Spread.refl hR h.extra

lemma Untouched.restored (h : Untouched g₀ g) : Restored g₀ g where
  dev := h.dev ▸ Device.Alike.refl _
  extra := h.spread fun _ => Device.Alike.refl
  lim := h.lim

/-- A device that is restored follows as it did. -/
lemma Restored.sound (h : Restored g₀ g) (hs : Sound g₀) : Sound g where
  intact := h.dev.intact hs.intact
  stamped := h.dev.stamped hs.stamped
  keys pk a hpk := hs.keys pk a (by rwa [h.dev.peerAddr] at hpk)
  follows k d' hd' := by
    obtain ⟨d, hd, halike⟩ := h.extra.exists_before hd'
    have hfollows := hs.follows k d hd
    refine ⟨halike.intact hfollows.intact, halike.stamped hfollows.stamped, fun pk a hpk => ?_⟩
    rw [halike.peerAddr] at hpk
    rw [h.dev.peerAddr]
    exact hfollows.contained pk a hpk

/-- The tables are sound when the peer is on the vanilla device, on whatever
transports besides. -/
lemma Sound.took {n : Nat} (hs : Sound g₀) (ha : Assigned g₀.dev pubkey addr)
    (hone : g₀.dev.OneSpelling pubkey) (hdev : g₀.dev.Took pubkey addr g.dev)
    (hextra : Spread (TookBelow g₀ premium pubkey addr n) g₀ g) : Sound g := by
  obtain ⟨now, engine, hadd⟩ := hdev
  have hintact := hs.intact.addPeer hadd hone ha.mine ha.free ha.routable
  have hheld : g.dev.peerAddr pubkey = some addr := by rw [peerAddr_addPeer hadd, if_pos rfl]
  refine ⟨hintact, stamped_addPeer hs.stamped hadd, fun pk a hpk => ?_, fun k d' hd' => ?_⟩
  · rw [peerAddr_addPeer hadd] at hpk
    split at hpk
    · rename_i heq
      obtain ⟨raw, hraw, -⟩ := addPeer_some hadd
      rw [heq, hraw]
      rfl
    · exact hs.keys pk a hpk
  · obtain ⟨d, hd, hrel⟩ := hextra.exists_before hd'
    have hfollows := (hs.follows k d hd).mono ha hadd
    rw [TookBelow] at hrel
    split at hrel
    · obtain ⟨now', engine', hadd'⟩ := hrel
      exact hfollows.addPeer hintact hheld hadd'
    · exact hrel ▸ hfollows

/-- A new peer is taken off a transport again. -/
lemma Sound.undo (hs : Sound g₀) (ha : Assigned g₀.dev pubkey addr)
    (hone : g₀.dev.OneSpelling pubkey) (hnew : g₀.dev.peerAddr pubkey = none) {d d' d'' : Device}
    (hd : g₀.device k = some d) (htook : d.Took pubkey addr d')
    (hremove : d'.removePeer pubkey true = some d'') : d.Alike d'' := by
  obtain ⟨now, engine, hadd⟩ := htook
  have hfollows := hs.follows k d hd
  have hnone : d.peerAddr pubkey = none := by
    refine Option.eq_none_iff_forall_ne_some.mpr fun a hpk => ?_
    rw [hfollows.contained pubkey a hpk] at hnew
    cases hnew
  refine alike_undo hfollows.intact hfollows.stamped (hfollows.oneSpelling hone) hnone
    ?_ hadd hremove
  refine Option.eq_none_iff_forall_ne_some.mpr fun pk hpk => ?_
  obtain rfl := (hfollows.assigned hs.intact ha).free pk hpk
  rw [(hfollows.intact.inverse pk addr).mpr hpk] at hnone
  cases hnone

lemma removePeer_of_key {d : Device} (hkey : (decodeKey pubkey).isSome) :
    ∃ d', d.removePeer pubkey true = some d' := by
  obtain ⟨raw, hraw⟩ := Option.isSome_iff_exists.mp hkey
  rw [Device.removePeer]
  simp only [hraw, if_true]
  exact ⟨_, rfl⟩

end Enrollment

/-! ### The calls of an enrollment -/

/-- A call that takes a new peer back. -/
def Enroll.Removes : Enroll → Prop
  | .dropping .. | .unmirroring .. => True
  | _ => False

instance : (p : Enroll) → Decidable p.Removes := fun p => by
  cases p with
  | dropping => exact inferInstanceAs (Decidable True)
  | unmirroring => exact inferInstanceAs (Decidable True)
  | _ => exact inferInstanceAs (Decidable False)

/-- What the last call of an enrollment leaves. -/
structure Settled (g₀ : Gateway) (pubkey : String) (premium : Bool) (p : Enroll) (g : Gateway) :
    Prop where
  sound : Sound g
  taken : p.Tiers → Enrolled g pubkey premium
  restored : ¬ p.Tiers → g₀.dev.peerAddr pubkey = none → Restored g₀ g

section Calls

variable {c : Config} {g₀ g : Gateway} {pubkey : String} {premium : Bool} {addr : Addr}
  {now : Int} {engine : Bool} {r : Gateway × Enroll}

/-- An address that is assigned is the peer's own, or free. -/
lemma assigned_of_assign {dev : Device} {host : Nat} (hdev : dev.Intact) (hhost : HostPart host)
    (h : (assign dev host pubkey).1 = some addr) : Assigned dev pubkey addr := by
  rcases (assign_spec hhost pubkey).2 addr h with hown | ⟨hnone, hfree, hroutable⟩
  · exact ⟨fun a ha => Option.some_inj.mp (ha.symm.trans hown),
      fun pk hpk => Option.some_inj.mp (hpk.symm.trans ((hdev.inverse pubkey addr).mp hown)),
      hdev.routable pubkey addr hown⟩
  · refine ⟨fun a ha => ?_, fun pk hpk => ?_, hroutable⟩
    · rw [hnone] at ha
      cases ha
    · rw [hfree] at hpk
      cases hpk

/-- An enrollment that changed nothing. -/
lemma Untouched.settled {p : Enroll} (h : Untouched g₀ g) (hs : Sound g₀) (hp : ¬ p.Tiers) :
    Settled g₀ pubkey premium p g :=
  ⟨h.restored.sound hs, fun hp' => absurd hp' hp, fun _ _ => h.restored⟩

/-- A new peer's address is free. -/
lemma Assigned.unused {dev : Device} (ha : Assigned dev pubkey addr) (hdev : dev.Intact)
    (hnew : dev.peerAddr pubkey = none) : dev.peerByAddr addr = none := by
  refine Option.eq_none_iff_forall_ne_some.mpr fun pk hpk => ?_
  obtain rfl := ha.free pk hpk
  rw [(hdev.inverse pk addr).mpr hpk] at hnew
  cases hnew

lemma tookBelow_congr {n n' k : Nat} (h : g₀.mirrored k premium → (k < n ↔ k < n'))
    {d d' : Device} :
    TookBelow g₀ premium pubkey addr n k d d' ↔ TookBelow g₀ premium pubkey addr n' k d d' := by
  rw [TookBelow, TookBelow]
  exact Iff.of_eq (if_congr (and_congr_left h) rfl rfl)

lemma next_mirroring (hs : Sound g₀) (hone : g₀.dev.OneSpelling pubkey) {existed : Bool} {k : Nat}
    (hexisted : existed = (g₀.dev.peerAddr pubkey).isSome) (ha : Assigned g₀.dev pubkey addr)
    (hdev : g₀.dev.Took pubkey addr g.dev)
    (hextra : Spread (TookBelow g₀ premium pubkey addr k) g₀ g) (hlim : g.lim = g₀.lim)
    (hnext : (Enroll.mirroring pubkey premium existed addr k).next c g now engine = some r) :
    Enrolling g₀ pubkey premium { r.1 with enroll := r.2 } r.2 ∨
      r.2 = .idle ∧
        Settled g₀ pubkey premium (.mirroring pubkey premium existed addr k)
          { r.1 with enroll := r.2 } := by
  rw [Enroll.next] at hnext
  split at hnext
  · rename_i hk
    cases hnext
    rw [hextra.length] at hk
    refine Or.inl (.tiering ha hdev (Spread.congr (hextra.imp fun j d d' hj _ hrel => ?_) rfl))
    exact (tookBelow_congr fun _ => by omega).mp hrel
  · rename_i hk
    split at hnext
    · rename_i hskip
      cases hnext
      refine Or.inl (.mirroring hexisted ha hdev
        (Spread.congr (hextra.imp fun j d d' _ _ hrel => ?_) rfl) hlim)
      rw [hextra.mirrored] at hskip
      refine (tookBelow_congr fun hmirrored => ?_).mp hrel
      have hj : j ≠ k := fun hj => hskip (hj ▸ hmirrored)
      omega
    · rename_i hmirrored
      rw [not_not, hextra.mirrored] at hmirrored
      split at hnext
      · rename_i g' hadd
        cases hnext
        obtain ⟨d, d', hdevice, hedit⟩ := addPeer_edited hadd
        obtain ⟨extra, -, hrest⟩ := hedit.rest
        have hsame : g'.dev = g.dev ∧ g'.lim = g.lim := by
          rw [hrest]
          exact ⟨rfl, rfl⟩
        refine Or.inl (.mirroring hexisted ha (hsame.1 ▸ hdev) (Spread.congr
          (hextra.edit hedit (fun j e e' hj hrel => ?_) fun e _ hrel => ?_) rfl)
          (hsame.2.trans hlim))
        · exact (tookBelow_congr fun _ => by omega).mp hrel
        · rw [TookBelow, if_neg fun hboth => absurd hboth.1 (lt_irrefl k)] at hrel
          rw [TookBelow, if_pos ⟨Nat.lt_succ_self k, hmirrored⟩]
          exact ⟨now, engine, hrel ▸ hdevice⟩
      · cases hnext
        cases hnew : g₀.dev.peerAddr pubkey with
        | none =>
            rw [hnew] at hexisted
            subst hexisted
            exact Or.inl (.dropping hnew ha hdev (Spread.congr hextra rfl) hlim)
        | some a =>
            rw [hnew] at hexisted
            subst hexisted
            refine Or.inr ⟨rfl, hs.took ha hone hdev (Spread.congr hextra rfl), fun hp => hp.elim,
              fun _ hnone => ?_⟩
            rw [hnew] at hnone
            cases hnone

lemma next_dropping (hs : Sound g₀) (hone : g₀.dev.OneSpelling pubkey)
    (hkey : (decodeKey pubkey).isSome) {k : Nat} (hnew : g₀.dev.peerAddr pubkey = none)
    (ha : Assigned g₀.dev pubkey addr) (hdev : g₀.dev.Took pubkey addr g.dev)
    (hextra : Spread (TookBelow g₀ premium pubkey addr k) g₀ g) (hlim : g.lim = g₀.lim)
    (hnext : (Enroll.dropping pubkey premium k).next c g now true = some r) :
    Enrolling g₀ pubkey premium { r.1 with enroll := r.2 } r.2 := by
  cases hnext
  obtain ⟨d', hremove⟩ := removePeer_of_key (d := g.dev) hkey
  obtain ⟨now', engine', hadd⟩ := hdev
  have halike := alike_undo hs.intact hs.stamped hone hnew (ha.unused hs.intact hnew) hadd hremove
  rw [hremove, Option.getD_some]
  refine .unmirroring hnew ha halike (Spread.congr (hextra.imp fun j d e _ _ hrel => ?_) rfl) hlim
  rw [TookBelow] at hrel
  simpa only [UndoneBelow, Nat.not_lt_zero, if_false] using hrel

lemma next_unmirroring (hs : Sound g₀) (hone : g₀.dev.OneSpelling pubkey)
    (hkey : (decodeKey pubkey).isSome) {k j : Nat} (hnew : g₀.dev.peerAddr pubkey = none)
    (ha : Assigned g₀.dev pubkey addr) (hdev : g₀.dev.Alike g.dev)
    (hextra : Spread (UndoneBelow g₀ premium pubkey addr k j) g₀ g) (hlim : g.lim = g₀.lim)
    (hnext : (Enroll.unmirroring pubkey premium k j).next c g now true = some r) :
    Enrolling g₀ pubkey premium { r.1 with enroll := r.2 } r.2 ∨
      r.2 = .idle ∧
        Settled g₀ pubkey premium (.unmirroring pubkey premium k j)
          { r.1 with enroll := r.2 } := by
  rw [Enroll.next] at hnext
  split at hnext
  · rename_i hj
    cases hnext
    have hrestored : Restored g₀ { g with enroll := .idle } := by
      refine ⟨hdev, Spread.congr (hextra.imp fun i d d' _ _ hrel => ?_) rfl, hlim⟩
      rw [UndoneBelow] at hrel
      split at hrel
      · rename_i hboth
        rwa [if_pos (lt_of_lt_of_le hboth.1 hj)] at hrel
      · exact hrel ▸ Device.Alike.refl d
    exact Or.inr ⟨rfl, hrestored.sound hs, fun hp => hp.elim, fun _ _ => hrestored⟩
  · split at hnext
    · rename_i hskip
      cases hnext
      rw [hextra.mirrored] at hskip
      refine Or.inl (.unmirroring hnew ha hdev
        (Spread.congr (hextra.imp fun i d d' _ _ hrel => ?_) rfl) hlim)
      rw [UndoneBelow] at hrel ⊢
      split at hrel
      · rename_i hboth
        have hi : i ≠ j := fun hi => hskip (hi ▸ hboth.2)
        have hlt : i < j + 1 ↔ i < j := by omega
        rw [if_pos hboth]
        simpa only [hlt] using hrel
      · rename_i hother
        rwa [if_neg hother]
    · rename_i hj hmirrored
      cases hnext
      rw [not_not, hextra.mirrored] at hmirrored
      rcases removePeer_edited g j pubkey true with
        ⟨d, d', hremove, hedit⟩ | ⟨-, hrefused⟩
      · obtain ⟨extra, -, hrest⟩ := hedit.rest
        have hsame : (g.removePeer j pubkey true).dev = g.dev ∧
            (g.removePeer j pubkey true).lim = g.lim := by
          rw [hrest]
          exact ⟨rfl, rfl⟩
        refine Or.inl (.unmirroring hnew ha (hsame.1 ▸ hdev) (Spread.congr
          (hextra.edit hedit (fun i e e' hi hrel => ?_) fun e he hrel => ?_) rfl)
          (hsame.2.trans hlim))
        · have hlt : i < j + 1 ↔ i < j := by omega
          simpa only [UndoneBelow, hlt] using hrel
        · rw [UndoneBelow, if_pos ⟨not_le.mp hj, hmirrored⟩, if_neg (lt_irrefl j)] at hrel
          rw [UndoneBelow, if_pos ⟨not_le.mp hj, hmirrored⟩, if_pos (Nat.lt_succ_self j)]
          exact hs.undo ha hone hnew he hrel hremove
      · have hsome := (Bool.and_eq_true_iff.mp hmirrored).1
        rw [← rel_isSome (hextra.devices j)] at hsome
        obtain ⟨d, hd⟩ := Option.isSome_iff_exists.mp hsome
        obtain ⟨d', hremove⟩ := removePeer_of_key (d := d) hkey
        rw [hrefused d hd] at hremove
        cases hremove

/-- **A call of an enrollment**: it goes on, and what it did is known, or it is
the last. -/
lemma Enrolling.next {p : Enroll} (h : Enrolling g₀ pubkey premium g p) (hs : Sound g₀)
    (hhost : HostPart g.nextHost) (hone : g₀.dev.OneSpelling pubkey)
    (hkey : (decodeKey pubkey).isSome) (hremoves : p.Removes → engine = true)
    (hnext : p.next c g now engine = some r) :
    Enrolling g₀ pubkey premium { r.1 with enroll := r.2 } r.2 ∨
      r.2 = .idle ∧ Settled g₀ pubkey premium p { r.1 with enroll := r.2 } := by
  cases h with
  | counting h =>
      cases hnext
      exact Or.inl (.looking ⟨h.dev, h.extra, h.lim⟩)
  | looking h =>
      rw [Enroll.next] at hnext
      split at hnext
      · cases hnext
        exact Or.inr ⟨rfl, Untouched.settled ⟨h.dev, h.extra, h.lim⟩ hs id⟩
      · cases hnext
        exact Or.inl (.assigning ⟨h.dev, h.extra, h.lim⟩ (by rw [h.dev]))
  | assigning h hexisted =>
      rw [Enroll.next, h.dev] at hnext
      split at hnext
      · cases hnext
        exact Or.inr ⟨rfl, Untouched.settled ⟨rfl, h.extra, h.lim⟩ hs id⟩
      · rename_i a host hassign
        cases hnext
        refine Or.inl (.registering ⟨rfl, h.extra, h.lim⟩ hexisted
          (assigned_of_assign hs.intact hhost ?_))
        rw [hassign]
  | @registering existed a h hexisted ha =>
      rw [Enroll.next, h.dev] at hnext
      split at hnext
      · cases hnext
        exact Or.inr ⟨rfl, Untouched.settled ⟨h.dev, h.extra, h.lim⟩ hs id⟩
      · rename_i d hadd
        cases hnext
        refine Or.inl (.mirroring hexisted ha ⟨now, engine, hadd⟩
          (Spread.refl (fun k d => ?_) h.extra) h.lim)
        rw [TookBelow, if_neg fun hboth => absurd hboth.1 (Nat.not_lt_zero k)]
  | mirroring hexisted ha hdev hextra hlim =>
      exact next_mirroring hs hone hexisted ha hdev hextra hlim hnext
  | dropping hnew ha hdev hextra hlim =>
      obtain rfl := hremoves trivial
      exact Or.inl (next_dropping hs hone hkey hnew ha hdev hextra hlim hnext)
  | unmirroring hnew ha hdev hextra hlim =>
      obtain rfl := hremoves trivial
      exact next_unmirroring hs hone hkey hnew ha hdev hextra hlim hnext
  | @tiering a call ha hdev hextra =>
      cases hnext
      dsimp only
      split
      · exact Or.inl (.tiering ha hdev (Spread.congr hextra rfl))
      · refine Or.inr ⟨rfl, hs.took ha hone hdev (Spread.congr hextra rfl), fun _ => ⟨a, ?_,
          fun k hk => ?_⟩, fun hp => (hp trivial).elim⟩
        · obtain ⟨now', engine', hadd⟩ := hdev
          exact (peerAddr_addPeer hadd pubkey).trans (if_pos rfl)
        · have hmirrored : g.mirrored k premium := hk
          obtain ⟨d', hd'⟩ := Option.isSome_iff_exists.mp (Bool.and_eq_true_iff.mp hmirrored).1
          obtain ⟨d, hd, hrel⟩ := hextra.exists_before hd'
          rw [hextra.mirrored] at hmirrored
          rw [TookBelow, if_pos ⟨lt_of_device hd, hmirrored⟩] at hrel
          obtain ⟨now', engine', hadd⟩ := hrel
          exact ⟨d', hd', (peerAddr_addPeer hadd pubkey).trans (if_pos rfl)⟩

end Calls

/-! ### Reconciliation -/

/-- Premium transports below `k` have the peer when it is premium. -/
def SettledBelow (g : Gateway) (pubkey : String) (premium : Bool) (k : Nat) : Prop :=
  ∀ j < k, g.gated j → g.onDevice j pubkey = premium

/-- What a call of `SyncPremiumPeers` knows. -/
def SyncPremium.Knows (g : Gateway) (pubkey : String) (premium : Bool) : SyncPremium → Prop
  | .check k => SettledBelow g pubkey premium k
  | .look k => SettledBelow g pubkey premium k ∧ premium = true
  | .add k addr =>
      SettledBelow g pubkey premium k ∧ premium = true ∧ g.dev.peerAddr pubkey = some addr
  | .remove k =>
      SettledBelow g pubkey premium k ∧ premium = false ∧ g.onDevice k pubkey = true

/-- What a call of `SyncPremiumPeers` leaves alone. -/
structure SyncFrame (g g' : Gateway) (pubkey : String) : Prop where
  dev : g'.dev = g.dev
  nextHost : g'.nextHost = g.nextHost
  gated : ∀ j, g'.gated j = g.gated j
  length : g'.extra.length = g.extra.length
  onDevice : ∀ j pk, pk ≠ pubkey → g'.onDevice j pk = g.onDevice j pk

lemma SyncFrame.refl (g : Gateway) (pubkey : String) : SyncFrame g g pubkey :=
  ⟨rfl, rfl, fun _ => rfl, rfl, fun _ _ _ => rfl⟩

section Syncs

variable {g g' : Gateway} {d d' : Device} {pubkey : String} {premium : Bool} {addr : Addr}
  {k : Nat} {now : Int}

lemma Edited.gated (h : Edited g g' k d d') (j : Nat) : g'.gated j = g.gated j := by
  rw [Gateway.gated, Gateway.gated, h.premiumOnly, h.device]
  by_cases hj : j = k
  · rw [if_pos hj, hj, h.before]
    rfl
  · rw [if_neg hj]

lemma Edited.onDevice (h : Edited g g' k d d') (j : Nat) (pk : String) :
    g'.onDevice j pk = if j = k then (d'.peerAddr pk).isSome else g.onDevice j pk := by
  rw [Gateway.onDevice, h.device]
  by_cases hj : j = k
  · rw [if_pos hj, if_pos hj, Option.any_some]
  · rw [if_neg hj, if_neg hj, Gateway.onDevice]

/-- An edit that touches one peer. -/
lemma Edited.syncFrame (h : Edited g g' k d d')
    (hother : ∀ pk, pk ≠ pubkey → d'.peerAddr pk = d.peerAddr pk) : SyncFrame g g' pubkey := by
  obtain ⟨extra, hlength, hrest⟩ := h.rest
  refine ⟨by rw [hrest], by rw [hrest], h.gated, by rw [hrest, ← hlength], fun j pk hpk => ?_⟩
  rw [h.onDevice]
  by_cases hj : j = k
  · rw [if_pos hj, hj, hother pk hpk, Gateway.onDevice, h.before, Option.any_some]
  · rw [if_neg hj]

/-- And settles it on its transport. -/
lemma SettledBelow.edit (h : SettledBelow g pubkey premium k) (hedit : Edited g g' k d d')
    (hhere : (d'.peerAddr pubkey).isSome = premium) : SettledBelow g' pubkey premium (k + 1) := by
  intro j hj hgated
  rw [hedit.gated] at hgated
  rw [hedit.onDevice]
  by_cases hk : j = k
  · rw [if_pos hk, hhere]
  · rw [if_neg hk]
    exact h j (by omega) hgated

lemma SettledBelow.skip (h : SettledBelow g pubkey premium k)
    (hk : g.gated k → g.onDevice k pubkey = premium) : SettledBelow g pubkey premium (k + 1) := by
  intro j hj hgated
  rcases Nat.lt_succ_iff_lt_or_eq.mp hj with hlt | rfl
  · exact h j hlt hgated
  · exact hk hgated

lemma addPeer_of_key (hkey : (decodeKey pubkey).isSome) :
    ∃ d', d.addPeer pubkey addr now true = some d' := by
  obtain ⟨raw, hraw⟩ := Option.isSome_iff_exists.mp hkey
  rw [Device.addPeer]
  simp only [hraw, if_true]
  exact ⟨_, rfl⟩

/-- The tables are sound when a transport is edited and still follows. -/
lemma Sound.edit (hs : Sound g) (hedit : Edited g g' k d d') (hfollows : Follows g.dev d') :
    Sound g' := by
  obtain ⟨extra, -, hrest⟩ := hedit.rest
  have hdev : g'.dev = g.dev := by rw [hrest]
  refine ⟨hdev ▸ hs.intact, hdev ▸ hs.stamped, hdev ▸ hs.keys, fun j e he => ?_⟩
  rw [hedit.device] at he
  rw [hdev]
  split at he
  · cases he
    exact hfollows
  · exact hs.follows j e he

/-- **A call of `SyncPremiumPeers`** keeps the tables sound, touches one peer
and goes on from what it knows, until the peer is settled. -/
lemma SyncPremium.Knows.next {call : SyncPremium} (h : call.Knows g pubkey premium) (now : Int)
    (hs : Sound g) (hpk : (g.dev.peerAddr pubkey).isSome) :
    Sound (call.next g pubkey premium now true).1 ∧
      SyncFrame g (call.next g pubkey premium now true).1 pubkey ∧
      ∀ o, (call.next g pubkey premium now true).2 = o →
        o.elim (SettledBelow (call.next g pubkey premium now true).1 pubkey premium g.extra.length)
          (Knows (call.next g pubkey premium now true).1 pubkey premium) := by
  obtain ⟨a, ha⟩ := Option.isSome_iff_exists.mp hpk
  cases call with
  | check k =>
      have hframe := SyncFrame.refl g pubkey
      rw [SyncPremium.next]
      split
      · rename_i hk
        exact ⟨hs, hframe, fun o ho => ho ▸ fun j hj => h j (lt_of_lt_of_le hj hk)⟩
      split
      · rename_i hgated
        exact ⟨hs, hframe, fun o ho => ho ▸ h.skip fun hgated' => absurd hgated' hgated⟩
      split
      · rename_i hmissing
        exact ⟨hs, hframe, fun o ho => ho ▸ ⟨h, hmissing.1⟩⟩
      split
      · rename_i hlapsed
        exact ⟨hs, hframe, fun o ho => ho ▸ ⟨h, Bool.not_eq_true _ ▸ hlapsed.1, hlapsed.2⟩⟩
      · rename_i hmissing hlapsed
        refine ⟨hs, hframe, fun o ho => ho ▸ h.skip fun _ => ?_⟩
        cases premium with
        | true => exact by_contra fun hon => hmissing ⟨rfl, hon⟩
        | false => exact Bool.eq_false_iff.mpr fun hon => hlapsed ⟨Bool.false_ne_true, hon⟩
  | look k =>
      rw [SyncPremium.next, ha]
      exact ⟨hs, .refl g pubkey, fun o ho => ho ▸ ⟨h.1, h.2, ha⟩⟩
  | add k addr =>
      obtain ⟨hbelow, rfl, haddr⟩ := h
      rw [SyncPremium.next]
      cases hadd : g.addPeer k pubkey addr now true with
      | none =>
          refine ⟨hs, .refl g pubkey, fun o ho => ho ▸ hbelow.skip fun hgated => ?_⟩
          obtain ⟨d, hd⟩ := Option.isSome_iff_exists.mp (Bool.and_eq_true_iff.mp hgated).1
          obtain ⟨d', hd'⟩ : ∃ d', d.addPeer pubkey addr now true = some d' :=
            addPeer_of_key (hs.keys pubkey addr haddr)
          rw [Gateway.addPeer, hd, Option.bind_some, hd'] at hadd
          cases hadd
      | some g' =>
          obtain ⟨d, d', hdevice, hedit⟩ := addPeer_edited hadd
          have hfollows := (hs.follows k d hedit.before).addPeer hs.intact haddr hdevice
          refine ⟨hs.edit hedit hfollows, hedit.syncFrame fun pk hne => ?_,
            fun o ho => ho ▸ hbelow.edit hedit ?_⟩
          · rw [peerAddr_addPeer hdevice, if_neg hne]
          · rw [peerAddr_addPeer hdevice, if_pos rfl]
            rfl
  | remove k =>
      obtain ⟨hbelow, rfl, hon⟩ := h
      obtain ⟨e, he, hheld⟩ := (Option.any_eq_true _ _).mp hon
      obtain ⟨b, hb⟩ := Option.isSome_iff_exists.mp hheld
      rw [SyncPremium.next]
      rcases removePeer_edited g k pubkey true with
        ⟨d, d', hdevice, hedit⟩ | ⟨-, hrefused⟩
      · obtain rfl : d = e := Option.some_inj.mp (hedit.before.symm.trans he)
        have hfollows := (hs.follows k d he).removePeer hb hdevice
        refine ⟨hs.edit hedit hfollows, hedit.syncFrame fun pk hne => ?_,
          fun o ho => ho ▸ hbelow.edit hedit ?_⟩
        · rw [peerAddr_removePeer hdevice, if_neg hne]
        · rw [peerAddr_removePeer hdevice, if_pos rfl]
          rfl
      · obtain ⟨d', hd'⟩ := removePeer_of_key (d := e) (hs.keys pubkey a ha)
        rw [hrefused e he] at hd'
        cases hd'

/-- The transports that are premium only have the peer when it is premium. -/
def Gateway.SettledOn (g : Gateway) (pubkey : String) (premium : Bool) : Prop :=
  SettledBelow g pubkey premium g.extra.length

/-- Where a reconciliation stands, with answers that meet `A`: the peers that
are not ahead of it are settled. -/
inductive Reconciling (A : String → Bool → Prop) (g : Gateway) : Sync → Prop
  | asking {rest : List String} (hrest : ∀ pk ∈ rest, (g.dev.peerAddr pk).isSome)
      (hdone : ∀ pk, (g.dev.peerAddr pk).isSome → pk ∉ rest → ∃ b, A pk b ∧ g.SettledOn pk b) :
      Reconciling A g (.asking rest)
  | tiering {pubkey : String} {premium : Bool} {call : SetTier} {rest : List String}
      (hA : A pubkey premium) (hrest : ∀ pk ∈ pubkey :: rest, (g.dev.peerAddr pk).isSome)
      (hdone : ∀ pk, (g.dev.peerAddr pk).isSome → pk ∉ pubkey :: rest →
        ∃ b, A pk b ∧ g.SettledOn pk b) :
      Reconciling A g (.tiering pubkey premium call rest)
  | syncing {pubkey : String} {premium : Bool} {call : SyncPremium} {rest : List String}
      (hA : A pubkey premium) (hrest : ∀ pk ∈ pubkey :: rest, (g.dev.peerAddr pk).isSome)
      (hdone : ∀ pk, (g.dev.peerAddr pk).isSome → pk ∉ pubkey :: rest →
        ∃ b, A pk b ∧ g.SettledOn pk b)
      (hcall : call.Knows g pubkey premium) :
      Reconciling A g (.syncing pubkey premium call rest)

lemma SyncFrame.settledOn (h : SyncFrame g g' pubkey) {pk : String} (hpk : pk ≠ pubkey) {b : Bool}
    (hs : g.SettledOn pk b) : g'.SettledOn pk b := by
  intro j hj hgated
  rw [h.length] at hj
  rw [h.gated] at hgated
  rw [h.onDevice j pk hpk]
  exact hs j hj hgated

lemma SyncPremium.Knows.congr {call : SyncPremium} (h : call.Knows g pubkey premium)
    (hdev : g'.dev = g.dev) (hextra : g'.extra = g.extra) : call.Knows g' pubkey premium := by
  have hgated : ∀ j, g'.gated j = g.gated j := fun j => by
    rw [Gateway.gated, Gateway.premiumOnly, Gateway.device, hextra, Gateway.gated,
      Gateway.premiumOnly, Gateway.device]
  have hon : ∀ j pk, g'.onDevice j pk = g.onDevice j pk := fun j pk => by
    rw [Gateway.onDevice, Gateway.device, hextra, Gateway.onDevice, Gateway.device]
  cases call <;>
    simpa only [SyncPremium.Knows, SettledBelow, hgated, hon, hdev] using h

/-- **A call of the reconciliation** keeps the tables sound and goes on, until
every peer is settled. -/
lemma Reconciling.next {A : String → Bool → Prop} {p : Sync} {tier : Tier}
    (h : Reconciling A g p) (hs : Sound g)
    (hA : ∀ pk rest, p = .asking (pk :: rest) → A pk tier.premium) {r : Gateway × Sync}
    (hnext : p.next g tier now true = some r) :
    Sound { r.1 with sync := r.2 } ∧ r.1.dev = g.dev ∧ r.1.nextHost = g.nextHost ∧
      r.1.enroll = g.enroll ∧
      (Reconciling A { r.1 with sync := r.2 } r.2 ∨
        r.2 = .idle ∧ ∀ pk, (g.dev.peerAddr pk).isSome →
          ∃ b, A pk b ∧ Gateway.SettledOn { r.1 with sync := r.2 } pk b) := by
  cases h with
  | @asking rest hrest hdone =>
      cases rest with
      | nil =>
          cases hnext
          exact ⟨⟨hs.intact, hs.stamped, hs.keys, hs.follows⟩, rfl, rfl, rfl,
            Or.inr ⟨rfl, fun pk hpk => hdone pk hpk List.not_mem_nil⟩⟩
      | cons pubkey rest =>
          cases hnext
          exact ⟨⟨hs.intact, hs.stamped, hs.keys, hs.follows⟩, rfl, rfl, rfl,
            Or.inl (.tiering (hA pubkey rest rfl) hrest hdone)⟩
  | tiering hanswer hrest hdone =>
      cases hnext
      refine ⟨⟨hs.intact, hs.stamped, hs.keys, hs.follows⟩, rfl, rfl, rfl, Or.inl ?_⟩
      dsimp only
      split
      · exact .tiering hanswer hrest hdone
      · exact .syncing hanswer hrest hdone fun j hj => absurd hj (Nat.not_lt_zero j)
  | @syncing pubkey premium call rest hanswer hrest hdone hcall =>
      cases hnext
      have hpresent := hrest pubkey List.mem_cons_self
      obtain ⟨hsound, hframe, hgo⟩ := hcall.next now hs hpresent
      have henroll : (call.next g pubkey premium now true).1.enroll = g.enroll := by
        obtain ⟨extra, hextra⟩ := (premium_step g pubkey premium now true call).extra
        rw [hextra]
      generalize call.next g pubkey premium now true = q at hsound hframe hgo henroll
      obtain ⟨g', o⟩ := q
      refine ⟨⟨hsound.intact, hsound.stamped, hsound.keys, hsound.follows⟩, hframe.dev,
        hframe.nextHost, henroll, Or.inl ?_⟩
      have hrest' : ∀ pk ∈ pubkey :: rest, (g'.dev.peerAddr pk).isSome := fun pk hpk => by
        rw [hframe.dev]
        exact hrest pk hpk
      have hdone' : ∀ pk, (g'.dev.peerAddr pk).isSome → pk ∉ pubkey :: rest →
          ∃ b, A pk b ∧ g'.SettledOn pk b := fun pk hpk hnot => by
        rw [hframe.dev] at hpk
        obtain ⟨b, hb, hsettled⟩ := hdone pk hpk hnot
        exact ⟨b, hb, hframe.settledOn (fun heq => hnot (heq ▸ List.mem_cons_self)) hsettled⟩
      cases o with
      | some call' => exact .syncing hanswer hrest' hdone' ((hgo _ rfl).congr rfl rfl)
      | none =>
          refine .asking (fun pk hpk => hrest' pk (List.mem_cons_of_mem _ hpk))
            fun pk hpk hnot => ?_
          by_cases heq : pk = pubkey
          · have hsettled : g'.SettledOn pk premium := by
              rw [Gateway.SettledOn, hframe.length, heq]
              exact hgo none rfl
            exact ⟨premium, heq ▸ hanswer, hsettled⟩
          · exact hdone' pk hpk fun hmem => hnot ((List.mem_cons.mp hmem).resolve_left heq)

end Syncs

/-! ### Handlers in turn -/

/-- One handler runs at a time, the removals of a rollback and the writes of a
reconciliation succeed, and no key is enrolled beside a second spelling of
it. -/
def InTurn (g : Gateway) : Event → Prop
  | .request pubkey _ => g.sync = .idle ∧ g.dev.OneSpelling pubkey
  | .enroll _ engine => g.enroll.Removes → engine = true
  | .tick _ => g.enroll = .idle
  | .sync _ _ engine => engine = true
  | _ => False

instance (g : Gateway) (e : Event) : Decidable (InTurn g e) := by
  cases e with
  | request pubkey premium => exact inferInstanceAs (Decidable (_ ∧ _))
  | enroll now engine => exact inferInstanceAs (Decidable (_ → _))
  | tick peers => exact inferInstanceAs (Decidable (_ = _))
  | sync tier now engine => exact inferInstanceAs (Decidable (_ = _))
  | _ => exact inferInstanceAs (Decidable False)

/-- A call of an enrollment, or of the reconciliation. -/
def Event.IsEnroll : Event → Prop
  | .enroll .. => True
  | _ => False

/-- The step is one of the sync loop. -/
def Event.IsSync : Event → Prop
  | .sync .. => True
  | _ => False

/-- The entitlement engine answers with `T`. -/
def Answers (T : String → Bool) (g : Gateway) : Event → Prop
  | .sync tier _ _ => ∀ pubkey rest, g.sync = .asking (pubkey :: rest) → tier.premium = T pubkey
  | _ => True

/-- The gateway between two handlers, or in one of them. -/
inductive Serial (g : Gateway) : Prop
  | quiet (hs : Sound g) (henroll : g.enroll = .idle) (hsync : g.sync = .idle)
  | enrolling {g₀ : Gateway} {pubkey : String} {premium : Bool} (hs : Sound g₀)
      (hone : g₀.dev.OneSpelling pubkey) (hkey : (decodeKey pubkey).isSome)
      (hsync : g.sync = .idle) (h : Enrolling g₀ pubkey premium g g.enroll)
  | syncing (hs : Sound g) (henroll : g.enroll = .idle)
      (h : Reconciling (fun _ _ => True) g g.sync)

section Runs

variable {c : Config} {g g' : Gateway} {e : Event} {pubkey : String} {premium : Bool}
  {now : Int} {engine : Bool}

lemma EnrollStep.host {p : Enroll} {r : Gateway × Enroll} (h : EnrollStep g now engine p r)
    (hhost : HostPart g.nextHost) : HostPart r.1.nextHost := by
  cases h with
  | @exhausted pubkey premium existed next hassign =>
      have hnext := (assign_spec (d := g.dev) hhost pubkey).1
      rwa [hassign] at hnext
  | @assign pubkey premium existed addr next hassign =>
      have hnext := (assign_spec (d := g.dev) hhost pubkey).1
      rwa [hassign] at hnext
  | mirror _ hadd =>
      obtain ⟨extra, rfl⟩ := addPeer_extra hadd
      exact hhost
  | @undo pubkey premium k j =>
      obtain ⟨extra, hextra⟩ := removePeer_extra g j pubkey engine
      rw [hextra]
      exact hhost
  | _ => exact hhost

/-- What a request starts. -/
lemma enrolling_of_request (h : step c g (.request pubkey premium) = some g') :
    g.enroll = .idle ∧ (decodeKey pubkey).isSome ∧
      g' = { g with enroll := .counting pubkey premium } ∧
      Enrolling g pubkey premium g' g'.enroll := by
  rw [step] at h
  split at h
  · rename_i hboth
    cases h
    exact ⟨hboth.1, hboth.2, rfl, .counting ⟨rfl, rfl, rfl⟩⟩
  · cases h

/-- What a tick starts. -/
lemma reconciling_of_tick {A : String → Bool → Prop} {peers : List String}
    (h : step c g (.tick peers) = some g') :
    g.sync = .idle ∧ g' = { g with sync := .asking peers } ∧ Reconciling A g' g'.sync := by
  rw [step] at h
  split at h
  · rename_i hboth
    cases h
    refine ⟨hboth.1, rfl, .asking (fun pk hpk => ?_) fun pk hpk hnot => absurd ?_ hnot⟩
    · obtain ⟨a, ha⟩ := mem_keys_iff.mp (hboth.2.mem_iff.mp hpk)
      exact Option.isSome_iff_exists.mpr ⟨a, ha⟩
    · exact hboth.2.mem_iff.mpr (mem_keys_iff.mpr (Option.isSome_iff_exists.mp hpk))
  · cases h

lemma Serial.step (h : Serial g ∧ HostPart g.nextHost) (hguard : InTurn g e)
    (hstep : step c g e = some g') : Serial g' ∧ HostPart g'.nextHost := by
  obtain ⟨h, hhost⟩ := h
  cases e with
  | request pubkey premium =>
      obtain ⟨hidle, hkey, hg', henrolling⟩ := enrolling_of_request hstep
      refine ⟨?_, by rwa [hg']⟩
      cases h with
      | quiet hs _ hsync => exact .enrolling hs hguard.2 hkey (by rwa [hg']) henrolling
      | enrolling _ _ _ _ h =>
          rw [hidle] at h
          cases h
      | syncing _ _ h =>
          rw [hguard.1] at h
          cases h
  | enroll now engine =>
      obtain ⟨r, hr, rfl⟩ := Option.map_eq_some_iff.mp hstep
      have hcase := enroll_step hr
      refine ⟨?_, hcase.host hhost⟩
      cases h with
      | quiet _ henroll _ =>
          rw [henroll] at hr
          cases hr
      | syncing _ henroll _ =>
          rw [henroll] at hr
          cases hr
      | enrolling hs hone hkey hsync h =>
          have hsync' : r.1.sync = .idle := hcase.reaper_sync.2.trans hsync
          rcases h.next hs hhost hone hkey hguard hr with hgo | ⟨hidle, hsettled⟩
          · exact .enrolling hs hone hkey hsync' hgo
          · exact .quiet hsettled.sound hidle hsync'
  | tick peers =>
      obtain ⟨hidle, hg', hreconciling⟩ := reconciling_of_tick hstep
      refine ⟨?_, by rwa [hg']⟩
      cases h with
      | quiet hs henroll _ =>
          refine .syncing ?_ (by rwa [hg']) hreconciling
          rw [hg']
          exact ⟨hs.intact, hs.stamped, hs.keys, hs.follows⟩
      | enrolling _ _ _ _ h =>
          have henroll : g.enroll = .idle := hguard
          rw [henroll] at h
          cases h
      | syncing _ _ h =>
          rw [hidle] at h
          cases h
  | sync tier now engine =>
      obtain rfl : engine = true := hguard
      obtain ⟨r, hr, rfl⟩ := Option.map_eq_some_iff.mp hstep
      cases h with
      | quiet _ _ hsync =>
          rw [hsync] at hr
          cases hr
      | enrolling _ _ _ hsync _ =>
          rw [hsync] at hr
          cases hr
      | syncing hs henroll h =>
          obtain ⟨hsound, -, hnext, hsame, hgo⟩ := h.next hs (fun _ _ _ => trivial) hr
          refine ⟨?_, hnext ▸ hhost⟩
          rcases hgo with hgo | ⟨hidle, -⟩
          · exact .syncing hsound (hsame.trans henroll) hgo
          · exact .quiet hsound (hsame.trans henroll) hidle
  | _ => exact hguard.elim

/-- The calls of an enrollment, up to its last. -/
lemma Enrolling.run {g₀ : Gateway} (hs : Sound g₀) (hone : g₀.dev.OneSpelling pubkey)
    (hkey : (decodeKey pubkey).isSome) {calls : List Event} (hcalls : ∀ e ∈ calls, e.IsEnroll)
    (h : Enrolling g₀ pubkey premium g g.enroll ∨ g.enroll = .idle) (hhost : HostPart g.nextHost)
    (hturn : Along (Peers.step c) InTurn g calls) (hrun : exec (Peers.step c) g calls = some g') :
    (Enrolling g₀ pubkey premium g' g'.enroll ∨ g'.enroll = .idle) ∧ HostPart g'.nextHost := by
  induction calls generalizing g with
  | nil =>
      cases hrun
      exact ⟨h, hhost⟩
  | cons e calls ih =>
      obtain ⟨g₁, hstep, hrest⟩ := exec_cons_eq_some.mp hrun
      have hturn' := hturn.2
      rw [hstep] at hturn'
      cases e with
      | enroll now engine =>
          obtain ⟨r, hr, rfl⟩ := Option.map_eq_some_iff.mp hstep
          refine ih (g := { r.1 with enroll := r.2 })
            (fun e he => hcalls e (List.mem_cons_of_mem _ he)) ?_ ((enroll_step hr).host hhost)
            hturn' hrest
          rcases h with h | hidle
          · exact (h.next hs hhost hone hkey hturn.1 hr).imp_right And.left
          · rw [hidle] at hr
            cases hr
      | _ => exact (hcalls _ List.mem_cons_self).elim

/-- The calls of a reconciliation, to its end. -/
lemma Reconciling.run {T : String → Bool} {calls : List Event} (hcalls : ∀ e ∈ calls, e.IsSync)
    (hs : Sound g) (h : Reconciling (fun pk b => b = T pk) g g.sync)
    (hturn : Along (Peers.step c) InTurn g calls)
    (hanswers : Along (Peers.step c) (Answers T) g calls)
    (hrun : exec (Peers.step c) g calls = some g') (hidle : g'.sync = .idle) :
    Sound g' ∧ g'.dev = g.dev ∧
      ∀ pk, (g.dev.peerAddr pk).isSome → g'.SettledOn pk (T pk) := by
  induction calls generalizing g with
  | nil =>
      cases hrun
      rw [hidle] at h
      cases h
  | cons e calls ih =>
      obtain ⟨g₁, hstep, hrest⟩ := exec_cons_eq_some.mp hrun
      have hturn' := hturn.2
      have hanswers' := hanswers.2
      rw [hstep] at hturn' hanswers'
      cases e with
      | sync tier now engine =>
          obtain rfl : engine = true := hturn.1
          obtain ⟨r, hr, rfl⟩ := Option.map_eq_some_iff.mp hstep
          obtain ⟨hsound, hdev, -, -, hgo⟩ := h.next hs hanswers.1 hr
          rw [← hdev]
          rcases hgo with hgo | ⟨hidle', hdone⟩
          · exact ih (g := { r.1 with sync := r.2 })
              (fun e he => hcalls e (List.mem_cons_of_mem _ he)) hsound hgo hturn' hanswers' hrest
          · cases calls with
            | nil =>
                cases hrest
                refine ⟨hsound, rfl, fun pk hpk => ?_⟩
                obtain ⟨b, rfl, hsettled⟩ := hdone pk (hdev ▸ hpk)
                exact hsettled
            | cons e' calls =>
                obtain ⟨g₂, hstep', -⟩ := exec_cons_eq_some.mp hrest
                have hsync := hcalls e' (List.mem_cons_of_mem _ List.mem_cons_self)
                cases e' with
                | sync tier' now' engine' =>
                    obtain ⟨r', hr', -⟩ := Option.map_eq_some_iff.mp hstep'
                    dsimp only at hr'
                    rw [hidle'] at hr'
                    cases hr'
                | _ => exact hsync.elim
      | _ => exact (hcalls _ List.mem_cons_self).elim

end Runs

/-- **Enrollment is atomic across devices**, in runs whose handlers take turns
and register no second spelling of a key: a new peer that some device refuses
leaves no trace on any; one that all take has one address everywhere; and a
reconciliation leaves the premium transports with the premium peers. -/
theorem enrollment_atomic {c : Config} {start g : Gateway} (hs : Sound start)
    (hhost : HostPart start.nextHost) (hstart : start.enroll = .idle ∧ start.sync = .idle)
    {before : List Event} (hturns : Along (step c) InTurn start before)
    (hbefore : exec (step c) start before = some g) (hquiet : g.enroll = .idle ∧ g.sync = .idle) :
    (∀ (pubkey : String) (premium : Bool) (calls : List Event) (now : Int) (engine : Bool)
        (g₁ g₂ : Gateway),
      (∀ e ∈ calls, e.IsEnroll) →
      Along (step c) InTurn g (.request pubkey premium :: calls ++ [.enroll now engine]) →
      exec (step c) g (.request pubkey premium :: calls) = some g₁ →
      step c g₁ (.enroll now engine) = some g₂ → g₂.enroll = .idle →
      (¬ g₁.enroll.Tiers → g.dev.peerAddr pubkey = none → Restored g g₂) ∧
        (g₁.enroll.Tiers → Enrolled g₂ pubkey premium)) ∧
    ∀ (T : String → Bool) (peers : List String) (calls : List Event) (g₁ : Gateway),
      (∀ e ∈ calls, e.IsSync) → Along (step c) InTurn g (.tick peers :: calls) →
      Along (step c) (Answers T) g (.tick peers :: calls) →
      exec (step c) g (.tick peers :: calls) = some g₁ → g₁.sync = .idle →
      ∀ k d, g₁.device k = some d → g₁.premiumOnly k →
        ∀ pk, (d.peerAddr pk).isSome ↔ (g₁.dev.peerAddr pk).isSome ∧ T pk := by
  have hserial : Serial start ∧ HostPart start.nextHost :=
    ⟨.quiet hs hstart.1 hstart.2, hhost⟩
  obtain ⟨hg, hghost⟩ := exec_invariant (I := fun g => Serial g ∧ HostPart g.nextHost)
    (fun _ _ _ h => Serial.step h) hserial hturns hbefore
  -- between two handlers the tables are sound
  have hsound : Sound g := by
    cases hg with
    | quiet hs _ _ => exact hs
    | enrolling _ _ _ _ h =>
        rw [hquiet.1] at h
        cases h
    | syncing _ _ h =>
        rw [hquiet.2] at h
        cases h
  constructor
  · intro pubkey premium calls now engine g₁ g₂ hcalls hturn hrun hlast hidle
    obtain ⟨hturn₁, hturn₂⟩ := (along_append hrun).mp hturn
    obtain ⟨g', hrequest, hrest⟩ := exec_cons_eq_some.mp hrun
    obtain ⟨-, hkey, hg', henrolling⟩ := enrolling_of_request hrequest
    have hturn' := hturn₁.2
    rw [hrequest] at hturn'
    obtain ⟨h₁, hhost₁⟩ := Enrolling.run hsound hturn.1.2 hkey hcalls (Or.inl henrolling)
      (by rwa [hg']) hturn' hrest
    obtain ⟨r, hr, rfl⟩ := Option.map_eq_some_iff.mp hlast
    have hp : r.2 = .idle := hidle
    rcases h₁ with h₁ | hidle₁
    · rcases h₁.next hsound hhost₁ hturn.1.2 hkey hturn₂.1 hr with hgo | ⟨-, hsettled⟩
      · rw [hp] at hgo
        cases hgo
      · exact ⟨hsettled.restored, hsettled.taken⟩
    · rw [hidle₁] at hr
      cases hr
  · intro T peers calls g₁ hcalls hturn hanswers hrun hidle k d hd hpremium pk
    obtain ⟨g', htick, hrest⟩ := exec_cons_eq_some.mp hrun
    obtain ⟨-, hg', hreconciling⟩ := reconciling_of_tick (A := fun pk b => b = T pk) htick
    have hturn' := hturn.2
    have hanswers' := hanswers.2
    rw [htick] at hturn' hanswers'
    have hsound' : Sound g' := by
      rw [hg']
      exact ⟨hsound.intact, hsound.stamped, hsound.keys, hsound.follows⟩
    obtain ⟨hsound₁, hdev, hdone⟩ :=
      Reconciling.run hcalls hsound' hreconciling hturn' hanswers' hrest hidle
    have hgated : g₁.gated k := by
      rw [Gateway.gated, hd, hpremium]
      rfl
    have hon : g₁.onDevice k pk = (d.peerAddr pk).isSome := by
      rw [Gateway.onDevice, hd, Option.any_some]
    constructor
    · intro hpk
      obtain ⟨a, ha⟩ := Option.isSome_iff_exists.mp hpk
      have hdevice := (hsound₁.follows k d hd).contained pk a ha
      have henrolled : (g₁.dev.peerAddr pk).isSome := by
        rw [hdevice]
        rfl
      have hsettled := hdone pk (hdev ▸ henrolled) k (lt_of_device hd) hgated
      rw [hon, hpk] at hsettled
      exact ⟨henrolled, hsettled.symm⟩
    · rintro ⟨hpk, hT⟩
      rw [← hon, hdone pk (hdev ▸ hpk) k (lt_of_device hd) hgated, hT]

section Boot

variable {own : Identity} {now : Int} {fails : Fails} {listeners : List Listener}

/-- A gateway without a cache starts sound. -/
lemma sound_boot : Sound (.boot own now [] fails listeners) := by
  have hnew : ∀ d : Device, d = .new own → Follows (.new own) d := fun d hd => by
    rw [hd]
    exact ⟨.new own, fun _ _ => rfl, fun _ _ => id⟩
  refine ⟨.new own, fun _ _ => rfl, nofun, fun k d hd => hnew d ?_⟩
  obtain ⟨t, ht, hdevice⟩ := Option.bind_eq_some_iff.mp hd
  obtain ⟨l, -, rfl⟩ := List.mem_map.mp (List.mem_of_getElem? ht)
  obtain ⟨fails', -, rfl⟩ := Option.map_eq_some_iff.mp hdevice
  split <;> rfl

end Boot

section Examples

/-- A free peer, on the vanilla device and the open transport. -/
def freePeer : List Event := .request zeroKey false :: List.replicate 9 (.enroll 0 true)

/-- It has paid when the reconciliation comes. -/
def paidTick : List Event := List.replicate 10 (.sync ⟨true, none⟩ 0 true)

theorem enrollment_atomic_paid :
    ∃ g g₁ d, exec (step roomy) twoTransports freePeer = some g ∧
      exec (step roomy) g (.tick [zeroKey] :: paidTick) = some g₁ ∧
      g₁.device 1 = some d ∧ (d.peerAddr zeroKey).isSome := by
  have hrun : (exec (step roomy) twoTransports freePeer).any fun g =>
      (g.enroll = .idle ∧ g.sync = .idle) ∧
        Along (step roomy) InTurn g (.tick [zeroKey] :: paidTick) ∧
        (exec (step roomy) g (.tick [zeroKey] :: paidTick)).any fun g₁ =>
          g₁.sync = .idle ∧ (g₁.device 1).isSome ∧ g₁.premiumOnly 1 ∧
            (g₁.dev.peerAddr zeroKey).isSome := by decide +kernel
  obtain ⟨g, hg, hall⟩ := (Option.any_eq_true _ _).mp hrun
  obtain ⟨hquiet, hturns, hrun'⟩ := of_decide_eq_true hall
  obtain ⟨g₁, hg₁, hall'⟩ := (Option.any_eq_true _ _).mp hrun'
  obtain ⟨hidle, hdevice, hpremium, henrolled⟩ := of_decide_eq_true hall'
  obtain ⟨d, hd⟩ := Option.isSome_iff_exists.mp hdevice
  refine ⟨g, g₁, d, hg, hg₁, hd, ?_⟩
  have hstart : Sound twoTransports := sound_boot
  have hanswers : Along (step roomy) (Answers fun _ => true) g (.tick [zeroKey] :: paidTick) := by
    refine (along_of_mem (P := fun e => e = .tick [zeroKey] ∨ e = .sync ⟨true, none⟩ 0 true)
      (fun e he => ?_) g).imp fun g e he => ?_
    · exact (List.mem_cons.mp he).imp_right List.eq_of_mem_replicate
    · rcases he with rfl | rfl
      · trivial
      · exact fun _ _ _ => rfl
  refine ((enrollment_atomic hstart hostPart_two (by decide) (by decide +kernel) hg hquiet).2
    (fun _ => true) [zeroKey] paidTick g₁ (fun e he => ?_) hturns hanswers hg₁ hidle 1 d hd hpremium
    zeroKey).mpr ⟨henrolled, rfl⟩
  rw [List.eq_of_mem_replicate he]
  trivial

/-- A second spelling enrolls, and the open transport does not take it. -/
def refusedSpelling : List Event :=
  [.enroll 0 true, .enroll 0 true, .enroll 0 true, .enroll 0 true, .enroll 0 false, .enroll 0 true]

/-- The removals of a rollback succeed. -/
def RemovalsSucceed (g : Gateway) : Event → Prop
  | .enroll _ engine => g.enroll.Removes → engine = true
  | _ => True

instance (g : Gateway) (e : Event) : Decidable (RemovalsSucceed g e) := by
  cases e with
  | enroll now engine => exact inferInstanceAs (Decidable (_ → _))
  | _ => exact inferInstanceAs (Decidable True)

/-- The rollback takes the identity of an enrolled peer off the device. -/
theorem not_enrollment_atomic :
    ¬ ∀ (before : List Event) (g : Gateway) (pubkey : String) (premium : Bool) (calls : List Event)
        (g₁ g₂ : Gateway),
      exec (step roomy) (bootGateway []) before = some g → g.Quiet → (∀ e ∈ calls, e.IsEnroll) →
      Along (step roomy) RemovalsSucceed g (.request pubkey premium :: calls ++ [.enroll 0 true]) →
      exec (step roomy) g (.request pubkey premium :: calls) = some g₁ →
      step roomy g₁ (.enroll 0 true) = some g₂ → g₂.enroll = .idle → ¬ g₁.enroll.Tiers →
      g.dev.peerAddr pubkey = none → Restored g g₂ := by
  intro h
  have hrun : (exec (step roomy) (bootGateway []) (enrollment zeroKey)).any fun g =>
      g.Quiet ∧ g.dev.peerAddr zeroKeyLine = none ∧
        Along (step roomy) RemovalsSucceed g
          (.request zeroKeyLine false :: refusedSpelling ++ [.enroll 0 true]) ∧
        (exec (step roomy) g (.request zeroKeyLine false :: refusedSpelling)).any fun g₁ =>
          ¬ g₁.enroll.Tiers ∧ (step roomy g₁ (.enroll 0 true)).any fun g₂ =>
            g₂.enroll = .idle ∧ g₂.dev.allowed ⟨10, 8, 0, 2⟩ ≠ g.dev.allowed ⟨10, 8, 0, 2⟩ := by
    decide +kernel
  obtain ⟨g, hg, hall⟩ := (Option.any_eq_true _ _).mp hrun
  obtain ⟨hquiet, hnew, hremovals, hrun'⟩ := of_decide_eq_true hall
  obtain ⟨g₁, hg₁, hall'⟩ := (Option.any_eq_true _ _).mp hrun'
  obtain ⟨htiers, hrun''⟩ := of_decide_eq_true hall'
  obtain ⟨g₂, hg₂, hall''⟩ := (Option.any_eq_true _ _).mp hrun''
  obtain ⟨hidle, hallowed⟩ := of_decide_eq_true hall''
  have hrestored := h _ g zeroKeyLine false refusedSpelling g₁ g₂ hg hquiet
    (by simp [refusedSpelling, Event.IsEnroll]) hremovals hg₁ hg₂ hidle htiers hnew
  exact hallowed (hrestored.dev.allowed _)

end Examples

end CumulusVpn.Peers
