/-
The integrity of the peer table (`gateway/internal/wg/device.go`).

* `Device.Inverse`: the maps are inverse; `Device.Inverse.addPeer`,
  `Device.Inverse.removePeer`: the edits keep them so;
* `Device.Intact`: moreover an identity has one address, which is a client's
  and nobody else's; `Device.Intact.addPeer`, `Device.Intact.removePeer`: the
  edits keep it when they find no second spelling of the key;
* `restorePeers_inverse`, `restorePeers_intact`: so does a cache without double
  entries;
* `DeviceStep`, `DevChange`, `AllocChange`: what a step does to the vanilla
  device, to its table and to the allocator;
* `AllocInv`: what an enrollment may rely on when it has its address;
* `peer_table_intact`: **the table is intact in every state of a run that
  meets no second spelling**; `not_peer_table_intact` is a run that does.
-/
import CumulusVpn.Gateway.Enroll

namespace CumulusVpn.Peers

open StepSystem

/-- The maps of a peer table are inverse. -/
def Device.Inverse (d : Device) : Prop :=
  ∀ pk a, d.peerAddr pk = some a ↔ d.peerByAddr a = some pk

/-- The integrity of a peer table, and that of the engine behind it. -/
structure Device.Intact (d : Device) : Prop where
  inverse : d.Inverse
  /-- an identity holds one address -/
  oneAddress : ∀ pk pk' a a', d.peerAddr pk = some a → d.peerAddr pk' = some a' →
    decodeKey pk = decodeKey pk' → a = a'
  /-- no two identities share one -/
  unshared : ∀ pk pk' a, d.peerAddr pk = some a → d.peerAddr pk' = some a →
    decodeKey pk = decodeKey pk'
  routable : ∀ pk a, d.peerAddr pk = some a → a ≠ gatewayAddr ∧ a ≠ networkAddr
  allowedIps : ∀ a raw, d.allowed a = some raw ↔
    raw ≠ d.own ∧ ∃ pk, d.peerByAddr a = some pk ∧ decodeKey pk = some raw

/-- No other spelling of the key is registered. -/
def Device.OneSpelling (d : Device) (pubkey : String) : Prop :=
  ∀ pk ∈ d.byKey.keys, decodeKey pk = decodeKey pubkey → pk = pubkey

instance (d : Device) (pubkey : String) : Decidable (d.OneSpelling pubkey) :=
  inferInstanceAs (Decidable (∀ pk ∈ d.byKey.keys, _))

lemma mem_keys_iff {d : Device} {pk : String} :
    pk ∈ d.byKey.keys ↔ ∃ a, d.peerAddr pk = some a := by
  rw [← AList.mem_keys, ← AList.lookup_isSome, Option.isSome_iff_exists]
  rfl

/-- The records of a cache that name no identity and no address twice, and no
address of the gateway's. -/
structure Restorable (recs : List PeerRecord) : Prop where
  identities : (recs.map fun r => decodeKey r.pubKey).Nodup
  addresses : (recs.map PeerRecord.addr).Nodup
  routable : ∀ r ∈ recs, r.addr ≠ gatewayAddr ∧ r.addr ≠ networkAddr

/-! ### The edits -/

section Edits

variable {d d' : Device} {pubkey : String} {addr : Addr} {now : Int} {engine : Bool}

/-- A registration under the peer's own address or a free one. -/
lemma Device.Inverse.addPeer (h : d.Inverse) (hadd : d.addPeer pubkey addr now engine = some d')
    (hkey : ∀ a, d.peerAddr pubkey = some a → a = addr)
    (haddr : ∀ pk, d.peerByAddr addr = some pk → pk = pubkey) : d'.Inverse := by
  intro pk a
  rw [peerAddr_addPeer hadd, peerByAddr_addPeer hadd]
  by_cases hpk : pk = pubkey
  · by_cases ha : a = addr
    · rw [if_pos hpk, if_pos ha, hpk, ha]
      exact iff_of_true rfl rfl
    · rw [if_pos hpk, if_neg ha, hpk]
      refine iff_of_false (fun heq => ha (Option.some_inj.mp heq).symm) fun heq => ?_
      exact ha (hkey a ((h pubkey a).mpr heq))
  · by_cases ha : a = addr
    · rw [if_neg hpk, if_pos ha, ha]
      refine iff_of_false (fun heq => hpk (haddr pk ((h pk addr).mp heq))) fun heq => ?_
      exact hpk (Option.some_inj.mp heq).symm
    · rw [if_neg hpk, if_neg ha]
      exact h pk a

lemma Device.Inverse.removePeer (h : d.Inverse) (hremove : d.removePeer pubkey engine = some d') :
    d'.Inverse := by
  intro pk a
  rw [peerAddr_removePeer hremove, peerByAddr_removePeer hremove]
  by_cases hpk : pk = pubkey
  · rw [if_pos hpk, hpk]
    refine iff_of_false nofun fun heq => ?_
    split at heq
    · cases heq
    · rename_i hne
      exact hne ((h pubkey a).mpr heq)
  · rw [if_neg hpk]
    by_cases ha : d.peerAddr pubkey = some a
    · rw [if_pos ha]
      refine iff_of_false (fun heq => hpk ?_) nofun
      exact Option.some_inj.mp (((h pk a).mp heq).symm.trans ((h pubkey a).mp ha))
    · rw [if_neg ha]
      exact h pk a

end Edits

namespace Device.Intact

variable {d d' : Device} {pubkey : String} {addr : Addr} {now : Int} {engine : Bool}

lemma new (own : Identity) : (Device.new own).Intact where
  inverse _ _ := iff_of_false nofun nofun
  oneAddress _ _ _ _ h := by cases h
  unshared _ _ _ h := by cases h
  routable _ _ h := by cases h
  allowedIps _ _ := iff_of_false nofun fun ⟨_, _, h, _⟩ => by cases h

lemma eq_of_identity (h : d.Intact) {pk pk' : String} {a a' : Addr} (hpk : d.peerAddr pk = some a)
    (hpk' : d.peerAddr pk' = some a') (hsame : decodeKey pk = decodeKey pk') : pk = pk' := by
  obtain rfl := h.oneAddress pk pk' a a' hpk hpk' hsame
  exact Option.some_inj.mp (((h.inverse pk a).mp hpk).symm.trans ((h.inverse pk' a).mp hpk'))

/-- A registration under the peer's own address or a free one. -/
lemma addPeer (h : d.Intact) (hadd : d.addPeer pubkey addr now engine = some d')
    (hone : d.OneSpelling pubkey)
    (hkey : ∀ a, d.peerAddr pubkey = some a → a = addr)
    (haddr : ∀ pk, d.peerByAddr addr = some pk → pk = pubkey)
    (hroutable : addr ≠ gatewayAddr ∧ addr ≠ networkAddr) : d'.Intact := by
  obtain ⟨raw, hraw, hown, -, -, hallowed⟩ := addPeer_some hadd
  have hother : ∀ {pk a}, d.peerAddr pk = some a → pk ≠ pubkey → decodeKey pk ≠ decodeKey pubkey :=
    fun hpk hne hsame => hne (hone _ (mem_keys_iff.mpr ⟨_, hpk⟩) hsame)
  have hfree : ∀ {pk a}, d.peerAddr pk = some a → pk ≠ pubkey → a ≠ addr := by
    rintro pk a hpk hne rfl
    exact hne (haddr pk ((h.inverse pk a).mp hpk))
  refine ⟨h.inverse.addPeer hadd hkey haddr, fun pk pk' a a' => ?_, fun pk pk' a => ?_,
    fun pk a => ?_, fun a raw' => ?_⟩
  · rw [peerAddr_addPeer hadd, peerAddr_addPeer hadd]
    by_cases hpk : pk = pubkey
    · by_cases hpk' : pk' = pubkey
      · rw [if_pos hpk, if_pos hpk']
        exact fun ha ha' _ => (Option.some_inj.mp ha).symm.trans (Option.some_inj.mp ha')
      · rw [if_pos hpk, if_neg hpk', hpk]
        exact fun _ ha' hsame => absurd hsame.symm (hother ha' hpk')
    · by_cases hpk' : pk' = pubkey
      · rw [if_neg hpk, if_pos hpk', hpk']
        exact fun ha _ hsame => absurd hsame (hother ha hpk)
      · rw [if_neg hpk, if_neg hpk']
        exact h.oneAddress pk pk' a a'
  · rw [peerAddr_addPeer hadd, peerAddr_addPeer hadd]
    by_cases hpk : pk = pubkey
    · by_cases hpk' : pk' = pubkey
      · intro _ _
        rw [hpk, hpk']
      · rw [if_pos hpk, if_neg hpk']
        exact fun ha ha' => absurd (Option.some_inj.mp ha).symm (hfree ha' hpk')
    · by_cases hpk' : pk' = pubkey
      · rw [if_neg hpk, if_pos hpk']
        exact fun ha ha' => absurd (Option.some_inj.mp ha').symm (hfree ha hpk)
      · rw [if_neg hpk, if_neg hpk']
        exact h.unshared pk pk' a
  · rw [peerAddr_addPeer hadd]
    by_cases hpk : pk = pubkey
    · rw [if_pos hpk]
      exact fun ha => Option.some_inj.mp ha ▸ hroutable
    · rw [if_neg hpk]
      exact h.routable pk a
  · simp only [peerByAddr_addPeer hadd]
    rw [hallowed, hown]
    by_cases ha : a = addr
    · subst ha
      simp only [if_true, Option.some.injEq]
      by_cases hself : raw = d.own
      · -- the engine ignores its own key, and nobody else held the address
        rw [if_pos hself, h.allowedIps]
        refine and_congr_right fun hne => iff_of_false ?_ ?_
        · rintro ⟨pk, hpk, hdecode⟩
          rw [haddr pk hpk, hraw] at hdecode
          exact hne ((Option.some_inj.mp hdecode).symm.trans hself)
        · rintro ⟨pk, rfl, hdecode⟩
          rw [hraw] at hdecode
          exact hne ((Option.some_inj.mp hdecode).symm.trans hself)
      · rw [if_neg hself, Function.update_self, Option.some_inj]
        constructor
        · rintro rfl
          exact ⟨hself, pubkey, rfl, hraw⟩
        · rintro ⟨-, pk, rfl, hdecode⟩
          exact Option.some_inj.mp (hraw.symm.trans hdecode)
    · rw [if_neg ha]
      have hsame :
          (if raw = d.own then d.allowed else Function.update d.allowed addr (some raw)) a =
          d.allowed a := by
        split
        · rfl
        · exact Function.update_of_ne ha _ _
      rw [hsame]
      exact h.allowedIps a raw'

/-- The removal of the only spelling of a key. -/
lemma removePeer (h : d.Intact) (hremove : d.removePeer pubkey engine = some d')
    (hone : d.OneSpelling pubkey) : d'.Intact := by
  obtain ⟨raw, hraw, hown, -, -, hallowed⟩ := removePeer_some hremove
  have hkept : ∀ {pk a}, d'.peerAddr pk = some a → d.peerAddr pk = some a := by
    intro pk a hpk
    rw [peerAddr_removePeer hremove] at hpk
    split at hpk
    · cases hpk
    · exact hpk
  refine ⟨h.inverse.removePeer hremove, fun pk pk' a a' hpk hpk' => ?_,
    fun pk pk' a hpk hpk' => ?_, fun pk a hpk => ?_, fun a raw' => ?_⟩
  · exact h.oneAddress pk pk' a a' (hkept hpk) (hkept hpk')
  · exact h.unshared pk pk' a (hkept hpk) (hkept hpk')
  · exact h.routable pk a (hkept hpk)
  · rw [hallowed, hown, peerByAddr_removePeer hremove]
    by_cases ha : d.peerAddr pubkey = some a
    · rw [if_pos ha]
      refine iff_of_false (fun heq => ?_) fun ⟨_, _, hnone, _⟩ => by cases hnone
      split at heq
      · cases heq
      · rename_i hne
        obtain ⟨-, pk, hpk, hdecode⟩ := (h.allowedIps a raw').mp heq
        rw [(h.inverse pubkey a).mp ha] at hpk
        cases hpk
        rw [hraw] at hdecode
        cases hdecode
        exact hne heq
    · rw [if_neg ha]
      split
      · rename_i hraw'
        refine iff_of_false nofun fun ⟨_, pk, hpk, hdecode⟩ => ha ?_
        obtain ⟨-, pk', hpk', hdecode'⟩ := (h.allowedIps a raw).mp hraw'
        have hspelling := hone pk' (mem_keys_iff.mpr ⟨a, (h.inverse pk' a).mpr hpk'⟩)
          (hdecode'.trans hraw.symm)
        exact hspelling ▸ (h.inverse pk' a).mpr hpk'
      · exact h.allowedIps a raw'

end Device.Intact

/-! ### The boot -/

/-- A cache names no spelling twice. -/
lemma loadRecords_nodup {max : Nat} {now : Int} :
    ∀ {lines : List (List Char)} {recs : List PeerRecord}, (recs.map PeerRecord.pubKey).Nodup →
      ((loadRecords max now lines recs).1.map PeerRecord.pubKey).Nodup
  | [], recs, h => h
  | line :: lines, recs, h => by
      rw [loadRecords]
      split
      · exact loadRecords_nodup h
      · rename_i r _
        split
        · exact loadRecords_nodup h
        · rename_i hnew
          have hsnoc : ((recs ++ [r]).map PeerRecord.pubKey).Nodup := by
            rw [List.map_append, List.nodup_append]
            refine ⟨h, List.nodup_singleton _, ?_⟩
            intro pk hpk pk' hpk' heq
            obtain ⟨r', hr', rfl⟩ := List.mem_map.mp hpk
            obtain rfl : pk' = r.pubKey := by simpa using hpk'
            exact hnew (List.any_eq_true.mpr ⟨r', hr', decide_eq_true heq⟩)
          split
          · exact hsnoc
          · exact loadRecords_nodup hsnoc

lemma loadPeerCache_nodup (max : Nat) (now : Int) (cache : Option (List (List Char))) :
    ((loadPeerCache max now cache).1.map PeerRecord.pubKey).Nodup := by
  rw [loadPeerCache.eq_def]
  split
  · exact List.nodup_nil
  · exact List.nodup_nil
  · split
    · exact loadRecords_nodup List.nodup_nil
    · exact List.nodup_nil

/-- The maps stay inverse when a cache names no address twice. -/
lemma restorePeers_inverse {fails : Fails} {now : Int} :
    ∀ {recs : List PeerRecord} {d : Device}, (recs.map PeerRecord.pubKey).Nodup →
      (recs.map PeerRecord.addr).Nodup →
      (∀ r ∈ recs, d.peerAddr r.pubKey = none ∧ d.peerByAddr r.addr = none) → d.Inverse →
      (d.restorePeers fails now recs).Inverse
  | [], d, _, _, _, h => h
  | r :: recs, d, hkeys, haddrs, hnew, h => by
      obtain ⟨hkey, hkeys⟩ := List.nodup_cons.mp hkeys
      obtain ⟨haddr, haddrs⟩ := List.nodup_cons.mp haddrs
      obtain ⟨hkeyNew, haddrNew⟩ := hnew r List.mem_cons_self
      rw [Device.restorePeers]
      split
      · exact restorePeers_inverse hkeys haddrs
          (fun r' hr' => hnew r' (List.mem_cons_of_mem r hr')) h
      · rename_i d' hadd
        have hinverse : d'.Inverse := h.addPeer hadd
          (fun a ha => by rw [hkeyNew] at ha; cases ha)
          (fun pk hpk => by rw [haddrNew] at hpk; cases hpk)
        have hnew' : ∀ r' ∈ recs, d'.peerAddr r'.pubKey = none ∧ d'.peerByAddr r'.addr = none := by
          intro r' hr'
          obtain ⟨hkey', haddr'⟩ := hnew r' (List.mem_cons_of_mem r hr')
          rw [peerAddr_addPeer hadd, peerByAddr_addPeer hadd, if_neg, if_neg]
          · exact ⟨hkey', haddr'⟩
          · exact fun heq => haddr (List.mem_map.mpr ⟨r', hr', heq⟩)
          · exact fun heq => hkey (List.mem_map.mpr ⟨r', hr', heq⟩)
        exact restorePeers_inverse (d := d'.stamp r) hkeys haddrs hnew' hinverse

/-- The records to come are of identities and addresses that the table does
not hold. -/
def Awaits (d : Device) (recs : List PeerRecord) : Prop :=
  ∀ r ∈ recs, (∀ pk a, d.peerAddr pk = some a → decodeKey pk ≠ decodeKey r.pubKey) ∧
    d.peerByAddr r.addr = none

/-- A cache without double entries is restored intact. -/
lemma restorePeers_intact {fails : Fails} {now : Int} :
    ∀ {recs : List PeerRecord} {d : Device}, Restorable recs → Awaits d recs → d.Intact →
      (d.restorePeers fails now recs).Intact
  | [], d, _, _, h => h
  | r :: recs, d, hrecs, hawaits, h => by
      have hrest : Restorable recs :=
        ⟨(List.nodup_cons.mp hrecs.identities).2, (List.nodup_cons.mp hrecs.addresses).2,
          fun r' hr' => hrecs.routable r' (List.mem_cons_of_mem r hr')⟩
      obtain ⟨hidentity, haddr⟩ := hawaits r List.mem_cons_self
      rw [Device.restorePeers]
      split
      · exact restorePeers_intact hrest
          (fun r' hr' => hawaits r' (List.mem_cons_of_mem r hr')) h
      · rename_i d' hadd
        have hone : d.OneSpelling r.pubKey := fun pk hpk hsame => by
          obtain ⟨a, ha⟩ := mem_keys_iff.mp hpk
          exact absurd hsame (hidentity pk a ha)
        have hintact : d'.Intact := h.addPeer hadd hone
          (fun a ha => absurd rfl (hidentity r.pubKey a ha))
          (fun pk hpk => by rw [haddr] at hpk; cases hpk)
          (hrecs.routable r List.mem_cons_self)
        have hawaits' : Awaits d' recs := by
          intro r' hr'
          obtain ⟨hidentity', haddr'⟩ := hawaits r' (List.mem_cons_of_mem r hr')
          constructor
          · intro pk a hpk hsame
            rw [peerAddr_addPeer hadd] at hpk
            split at hpk
            · rename_i heq
              subst heq
              exact (List.nodup_cons.mp hrecs.identities).1
                (List.mem_map.mpr ⟨r', hr', hsame.symm⟩)
            · exact hidentity' pk a hpk hsame
          · rw [peerByAddr_addPeer hadd, if_neg, haddr']
            intro heq
            exact (List.nodup_cons.mp hrecs.addresses).1 (List.mem_map.mpr ⟨r', hr', heq⟩)
        -- the stamp is no part of the table
        exact restorePeers_intact (d := d'.stamp r) hrest hawaits'
          ⟨hintact.1, hintact.2, hintact.3, hintact.4, hintact.5⟩

/-! ### What a step does to the vanilla device -/

/-- The tables of two devices are the same. -/
structure SameTable (d d' : Device) : Prop where
  own : d'.own = d.own
  byKey : d'.byKey = d.byKey
  byAddr : d'.byAddr = d.byAddr
  allowed : d'.allowed = d.allowed

lemma SameTable.refl (d : Device) : SameTable d d := ⟨rfl, rfl, rfl, rfl⟩

/-- The edit of the vanilla device in a step: none, the handshakes of a
snapshot, or an enrollment or the reaper at work on its peer. -/
inductive DeviceStep (g : Gateway) : Device → Event → Prop
  | idle {e : Event} : DeviceStep g g.dev e
  | touch {handshakes : List (String × Int)} :
      DeviceStep g (g.dev.touchFromHandshakes handshakes) (.touch handshakes)
  | register {pubkey : String} {premium existed : Bool} {addr : Addr} {now : Int} {engine : Bool}
      {d : Device} (hphase : g.enroll = .registering pubkey premium existed addr)
      (h : g.dev.addPeer pubkey addr now engine = some d) : DeviceStep g d (.enroll now engine)
  | takeBack {pubkey : String} {premium : Bool} {k : Nat} {now : Int} {engine : Bool} {d : Device}
      (hphase : g.enroll = .dropping pubkey premium k)
      (h : g.dev.removePeer pubkey engine = some d) : DeviceStep g d (.enroll now engine)
  | reap {pubkey : String} {now : Int} {rest : List PeerRecord} {tier : Tier} {clock : Int}
      {engine : Bool} {d : Device} (hphase : g.reaper = .dropping pubkey now rest)
      (h : g.dev.removePeer pubkey engine = some d) : DeviceStep g d (.reap tier clock engine)

/-- What becomes of the vanilla device: nothing but the stamps changes, an
enrollment registers its peer or takes it back, or the reaper drops one. -/
inductive DevChange (g : Gateway) (d : Device) : Event → Prop
  | same {e : Event} (h : SameTable g.dev d) : DevChange g d e
  | register {pubkey : String} {premium existed : Bool} {addr : Addr} {now : Int} {engine : Bool}
      (hphase : g.enroll = .registering pubkey premium existed addr)
      (h : g.dev.addPeer pubkey addr now engine = some d) : DevChange g d (.enroll now engine)
  | takeBack {pubkey : String} {premium : Bool} {k : Nat} {now : Int} {engine : Bool}
      (hphase : g.enroll = .dropping pubkey premium k)
      (h : g.dev.removePeer pubkey engine = some d) : DevChange g d (.enroll now engine)
  | reap {pubkey : String} {now : Int} {rest : List PeerRecord} {tier : Tier} {clock : Int}
      {engine : Bool} (hphase : g.reaper = .dropping pubkey now rest)
      (h : g.dev.removePeer pubkey engine = some d) : DevChange g d (.reap tier clock engine)

section Steps

variable {c : Config} {g g' : Gateway}

lemma step_device {e : Event} (h : step c g e = some g') : DeviceStep g g'.dev e := by
  cases e with
  | request pubkey premium =>
      rw [step] at h
      split at h <;> cases h
      exact .idle
  | enroll now engine =>
      obtain ⟨r, hr, rfl⟩ := Option.map_eq_some_iff.mp h
      generalize hphase : g.enroll = p at hr
      cases enroll_step hr with
      | register hadd => exact .register hphase hadd
      | takeBack hremove => exact .takeBack hphase hremove
      | mirror _ hadd =>
          obtain ⟨extra, rfl⟩ := addPeer_extra hadd
          exact .idle
      | @undo pubkey premium k j =>
          obtain ⟨extra, hextra⟩ := removePeer_extra g j pubkey engine
          rw [hextra]
          exact .idle
      | _ => exact .idle
  | tick peers =>
      rw [step] at h
      split at h <;> cases h
      exact .idle
  | sync tier now engine =>
      obtain ⟨r, hr, rfl⟩ := Option.map_eq_some_iff.mp h
      generalize g.sync = p at hr
      cases sync_step hr with
      | sync hpremium =>
          obtain ⟨extra, hextra⟩ := hpremium.extra
          cases hextra
          exact .idle
      | synced hpremium =>
          obtain ⟨extra, hextra⟩ := hpremium.extra
          cases hextra
          exact .idle
      | _ => exact .idle
  | touch handshakes =>
      rw [step] at h
      split at h <;> cases h
      exact .touch
  | sweep now recs =>
      rw [step] at h
      split at h <;> cases h
      exact .idle
  | reap tier clock engine =>
      obtain ⟨r, hr, rfl⟩ := Option.map_eq_some_iff.mp h
      generalize hphase : g.reaper = p at hr
      cases reaper_step hr with
      | drop hremove => exact .reap hphase hremove
      | @unmirror pubkey k now rest =>
          obtain ⟨extra, hextra⟩ := removePeer_extra g k pubkey engine
          rw [hextra]
          exact .idle
      | sync hpremium =>
          obtain ⟨extra, hextra⟩ := hpremium.extra
          cases hextra
          exact .idle
      | synced hpremium =>
          obtain ⟨extra, hextra⟩ := hpremium.extra
          cases hextra
          exact .idle
      | _ => exact .idle
  | flow k src =>
      obtain ⟨pubkey, -, rfl⟩ := Option.map_eq_some_iff.mp h
      exact .idle
  | limit pubkey =>
      rw [step] at h
      split at h <;> cases h
      exact .idle

lemma step_dev {e : Event} (h : step c g e = some g') : DevChange g g'.dev e := by
  have hstep := step_device h
  generalize g'.dev = d at hstep ⊢
  cases hstep with
  | idle => exact .same (.refl _)
  | touch => exact .same ⟨rfl, rfl, rfl, rfl⟩
  | register hphase hadd => exact .register hphase hadd
  | takeBack hphase hremove => exact .takeBack hphase hremove
  | reap hphase hremove => exact .reap hphase hremove

/-- What becomes of the allocator and of the enrollment: nothing, a request
takes the lock, or `assign` gives out an address. -/
inductive AllocChange (g g' : Gateway) : Prop
  | same (hhost : g'.nextHost = g.nextHost) (hphase : g'.enroll = g.enroll) : AllocChange g g'
  | other (hhost : g'.nextHost = g.nextHost)
      (hphase : ∀ pubkey premium existed addr,
        g'.enroll ≠ .registering pubkey premium existed addr) : AllocChange g g'
  | exhausted {pubkey : String} (hhost : g'.nextHost = (assign g.dev g.nextHost pubkey).2)
      (hphase : g'.enroll = .idle) : AllocChange g g'
  | assign {pubkey : String} {premium existed : Bool} {addr : Addr}
      (hassign : (assign g.dev g.nextHost pubkey).1 = some addr)
      (hhost : g'.nextHost = (assign g.dev g.nextHost pubkey).2)
      (hphase : g'.enroll = .registering pubkey premium existed addr) (hdev : g'.dev = g.dev) :
      AllocChange g g'

lemma step_alloc {e : Event} (h : step c g e = some g') : AllocChange g g' := by
  cases e with
  | request pubkey premium =>
      rw [step] at h
      split at h <;> cases h
      exact .other rfl nofun
  | enroll now engine =>
      obtain ⟨r, hr, rfl⟩ := Option.map_eq_some_iff.mp h
      generalize g.enroll = p at hr
      cases enroll_step hr with
      | exhausted hassign => exact .exhausted (congrArg Prod.snd hassign).symm rfl
      | assign hassign =>
          exact .assign (congrArg Prod.fst hassign) (congrArg Prod.snd hassign).symm rfl rfl
      | mirror _ hadd =>
          obtain ⟨extra, rfl⟩ := addPeer_extra hadd
          exact .other rfl nofun
      | @undo pubkey premium k j =>
          obtain ⟨extra, hextra⟩ := removePeer_extra g j pubkey engine
          rw [hextra]
          exact .other rfl nofun
      | @mirrorFails pubkey premium existed addr k =>
          refine .other rfl ?_
          cases existed <;> nofun
      | _ => exact .other rfl nofun
  | tick peers =>
      rw [step] at h
      split at h <;> cases h
      exact .same rfl rfl
  | sync tier now engine =>
      obtain ⟨r, hr, rfl⟩ := Option.map_eq_some_iff.mp h
      generalize g.sync = p at hr
      cases sync_step hr with
      | sync hpremium =>
          obtain ⟨extra, hextra⟩ := hpremium.extra
          cases hextra
          exact .same rfl rfl
      | synced hpremium =>
          obtain ⟨extra, hextra⟩ := hpremium.extra
          cases hextra
          exact .same rfl rfl
      | _ => exact .same rfl rfl
  | touch handshakes =>
      rw [step] at h
      split at h <;> cases h
      exact .same rfl rfl
  | sweep now recs =>
      rw [step] at h
      split at h <;> cases h
      exact .same rfl rfl
  | reap tier clock engine =>
      obtain ⟨r, hr, rfl⟩ := Option.map_eq_some_iff.mp h
      generalize g.reaper = p at hr
      cases reaper_step hr with
      | @unmirror pubkey k now rest =>
          obtain ⟨extra, hextra⟩ := removePeer_extra g k pubkey engine
          rw [hextra]
          exact .same rfl rfl
      | sync hpremium =>
          obtain ⟨extra, hextra⟩ := hpremium.extra
          cases hextra
          exact .same rfl rfl
      | synced hpremium =>
          obtain ⟨extra, hextra⟩ := hpremium.extra
          cases hextra
          exact .same rfl rfl
      | _ => exact .same rfl rfl
  | flow k src =>
      obtain ⟨pubkey, -, rfl⟩ := Option.map_eq_some_iff.mp h
      exact .same rfl rfl
  | limit pubkey =>
      rw [step] at h
      split at h <;> cases h
      exact .same rfl rfl

end Steps

/-! ### Runs -/

/-- The key that a step registers or drops. -/
def edits (g : Gateway) : Event → Option String
  | .enroll _ _ =>
      match g.enroll with
      | .registering pubkey _ _ _ => some pubkey
      | .dropping pubkey _ _ => some pubkey
      | _ => none
  | .reap _ _ _ =>
      match g.reaper with
      | .dropping pubkey _ _ => some pubkey
      | _ => none
  | _ => none

/-- A key that is registered or dropped has no second spelling in the
table. -/
def Guard (g : Gateway) (e : Event) : Prop := ∀ pubkey ∈ edits g e, g.dev.OneSpelling pubkey

instance (g : Gateway) (e : Event) : Decidable (Guard g e) :=
  inferInstanceAs (Decidable (∀ pubkey ∈ edits g e, _))

lemma SameTable.peerAddr {d d' : Device} (h : SameTable d d') (pk : String) :
    d'.peerAddr pk = d.peerAddr pk := by
  rw [Device.peerAddr, h.byKey, Device.peerAddr]

lemma SameTable.peerByAddr {d d' : Device} (h : SameTable d d') (a : Addr) :
    d'.peerByAddr a = d.peerByAddr a := by
  rw [Device.peerByAddr, h.byAddr, Device.peerByAddr]

lemma SameTable.inverse {d d' : Device} (h : SameTable d d') (hd : d.Inverse) : d'.Inverse := by
  intro pk a
  rw [h.peerAddr, h.peerByAddr]
  exact hd pk a

lemma SameTable.intact {d d' : Device} (h : SameTable d d') (hd : d.Intact) : d'.Intact := by
  refine ⟨h.inverse hd.inverse, ?_, ?_, ?_, ?_⟩
  · simpa only [h.peerAddr] using hd.oneAddress
  · simpa only [h.peerAddr] using hd.unshared
  · simpa only [h.peerAddr] using hd.routable
  · simpa only [h.peerByAddr, h.allowed, h.own] using hd.allowedIps

/-- The maps are inverse, and an enrollment that has its address finds it free
or its own. -/
structure AllocInv (g : Gateway) : Prop where
  inverse : g.dev.Inverse
  host : HostPart g.nextHost
  registering : ∀ {pubkey premium existed addr},
    g.enroll = .registering pubkey premium existed addr →
      (∀ a, g.dev.peerAddr pubkey = some a → a = addr) ∧
      ∀ pk, g.dev.peerByAddr addr = some pk → pk = pubkey

section Invariants

variable {c : Config} {g g' : Gateway} {e : Event}

lemma AllocInv.step (h : AllocInv g) (hstep : step c g e = some g') : AllocInv g' := by
  have hinverse : g'.dev.Inverse := by
    cases step_dev hstep with
    | same hsame => exact hsame.inverse h.inverse
    | register hphase hadd =>
        obtain ⟨hkey, haddr⟩ := h.registering hphase
        exact h.inverse.addPeer hadd hkey haddr
    | takeBack _ hremove => exact h.inverse.removePeer hremove
    | reap _ hremove => exact h.inverse.removePeer hremove
  refine ⟨hinverse, ?_, ?_⟩
  · cases step_alloc hstep with
    | same hhost _ => exact hhost ▸ h.host
    | other hhost _ => exact hhost ▸ h.host
    | exhausted hhost _ => exact hhost ▸ (assign_spec h.host _).1
    | assign _ hhost _ _ => exact hhost ▸ (assign_spec h.host _).1
  · intro pubkey premium existed addr hphase
    cases step_alloc hstep with
    | same _ hsame =>
        -- others may drop a peer under the enrollment, but add none
        obtain ⟨hkey, haddr⟩ := h.registering (hsame.symm.trans hphase)
        have hdropped : ∀ {pk : String} {engine : Bool},
            g.dev.removePeer pk engine = some g'.dev →
              (∀ a, g'.dev.peerAddr pubkey = some a → a = addr) ∧
              ∀ pk, g'.dev.peerByAddr addr = some pk → pk = pubkey := by
          intro pk engine hremove
          constructor
          · intro a ha
            rw [peerAddr_removePeer hremove] at ha
            split at ha
            · cases ha
            · exact hkey a ha
          · intro pk' hpk'
            rw [peerByAddr_removePeer hremove] at hpk'
            split at hpk'
            · cases hpk'
            · exact haddr pk' hpk'
        cases step_dev hstep with
        | same hsame =>
            exact ⟨fun a ha => hkey a (hsame.peerAddr pubkey ▸ ha),
              fun pk hpk => haddr pk (hsame.peerByAddr addr ▸ hpk)⟩
        | register hbefore hadd =>
            cases hbefore.symm.trans (hsame.symm.trans hphase)
            refine ⟨fun a ha => ?_, fun pk hpk => ?_⟩
            · rw [peerAddr_addPeer hadd, if_pos rfl] at ha
              exact (Option.some_inj.mp ha).symm
            · rw [peerByAddr_addPeer hadd, if_pos rfl] at hpk
              exact (Option.some_inj.mp hpk).symm
        | takeBack _ hremove => exact hdropped hremove
        | reap _ hremove => exact hdropped hremove
    | other _ hother => exact absurd hphase (hother _ _ _ _)
    | exhausted _ hidle =>
        rw [hidle] at hphase
        cases hphase
    | assign hassign _ hbefore hdev =>
        cases hbefore.symm.trans hphase
        rw [hdev]
        rcases (assign_spec h.host pubkey).2 addr hassign with hown | ⟨hnone, hfree, -⟩
        · refine ⟨fun a ha => ?_, fun pk hpk => ?_⟩
          · exact Option.some_inj.mp (ha.symm.trans hown)
          · exact Option.some_inj.mp (hpk.symm.trans ((h.inverse pubkey addr).mp hown))
        · refine ⟨fun a ha => ?_, fun pk hpk => ?_⟩
          · rw [hnone] at ha
            cases ha
          · rw [hfree] at hpk
            cases hpk

/-- The table is intact, and so is it after an enrollment that has its
address. -/
structure TableInv (g : Gateway) : Prop extends AllocInv g where
  intact : g.dev.Intact
  routable : ∀ {pubkey premium existed addr},
    g.enroll = .registering pubkey premium existed addr →
      addr ≠ gatewayAddr ∧ addr ≠ networkAddr

lemma TableInv.step (h : TableInv g) (hguard : Guard g e) (hstep : step c g e = some g') :
    TableInv g' := by
  refine ⟨h.toAllocInv.step hstep, ?_, ?_⟩
  · cases step_dev hstep with
    | same hsame => exact hsame.intact h.intact
    | register hphase hadd =>
        rw [Guard, edits, hphase] at hguard
        obtain ⟨hkey, haddr⟩ := h.registering hphase
        exact h.intact.addPeer hadd (hguard _ rfl) hkey haddr (h.routable hphase)
    | takeBack hphase hremove =>
        rw [Guard, edits, hphase] at hguard
        exact h.intact.removePeer hremove (hguard _ rfl)
    | reap hphase hremove =>
        rw [Guard, edits, hphase] at hguard
        exact h.intact.removePeer hremove (hguard _ rfl)
  · intro pubkey premium existed addr hphase
    cases step_alloc hstep with
    | same _ hsame => exact h.routable (hsame.symm.trans hphase)
    | other _ hother => exact absurd hphase (hother _ _ _ _)
    | exhausted _ hidle =>
        rw [hidle] at hphase
        cases hphase
    | assign hassign _ hbefore hdev =>
        cases hbefore.symm.trans hphase
        rcases (assign_spec h.host pubkey).2 addr hassign with hown | ⟨-, -, hroutable⟩
        · exact h.intact.routable pubkey addr hown
        · exact hroutable

end Invariants

/-- **The table is intact in every state of a run** from a cache without
double entries, when no key is registered or dropped beside a second spelling
of it. -/
theorem peer_table_intact (c : Config) (own : Identity) (max : Nat) (now : Int)
    (cache : Option (List (List Char))) (fails : Fails) (listeners : List Listener)
    (hcache : Restorable (loadPeerCache max now cache).1) {es : List Event} {g : Gateway}
    (h : exec (step c) (Gateway.boot own now (loadPeerCache max now cache).1 fails listeners) es =
      some g)
    (hguard : Along (step c) Guard
      (Gateway.boot own now (loadPeerCache max now cache).1 fails listeners) es) :
    g.dev.Intact := by
  have hboot : TableInv
      (Gateway.boot own now (loadPeerCache max now cache).1 fails listeners) := by
    have hempty : Awaits (Device.new own) (loadPeerCache max now cache).1 := by
      intro r _
      refine ⟨fun pk a hpk => ?_, rfl⟩
      cases hpk
    have hintact :
        ((Device.new own).restorePeers fails now (loadPeerCache max now cache).1).Intact :=
      restorePeers_intact hcache hempty (.new own)
    exact ⟨⟨hintact.inverse, hostPart_two, nofun⟩, hintact, nofun⟩
  exact (exec_invariant (fun _ _ _ hi hg hs => hi.step hg hs) hboot hguard h).intact

section Runs

/-- Thirty-two zero bytes, and a second spelling of them. -/
def zeroKey : String := "AAAAAAAAAAAAAAAAAAAAAAAAAAAAAAAAAAAAAAAAAAA="

/-- A key with a line break behind it. -/
def zeroKeyLine : String := "AAAAAAAAAAAAAAAAAAAAAAAAAAAAAAAAAAAAAAAAAAA=\n"

/-- Another key. -/
def oneKey : String := "AQAAAAAAAAAAAAAAAAAAAAAAAAAAAAAAAAAAAAAAAAA="

/-- A gateway with an obfuscated listener. -/
def bootGateway (recs : List PeerRecord) : Gateway :=
  .boot [9] 0 recs (fun _ => false) [⟨some fun _ => false, false⟩]

/-- Room for a hundred peers. -/
def roomy : Config := ⟨100, 100⟩

/-- A request and the calls of its enrollment. -/
def enrollment (pubkey : String) : List Event :=
  .request pubkey false :: List.replicate 8 (.enroll 0 true)

/-- A restored peer, and one that enrolls. -/
def restoredCache : Option (List (List Char)) :=
  some ["cvpn-peers-v2".toList, (oneKey ++ " 10.8.0.2 1000").toList]

theorem peer_table_intact_restored :
    ∃ g, exec (step roomy) (bootGateway (loadPeerCache 100 0 restoredCache).1)
        (enrollment zeroKey) = some g ∧
      g.dev.peerAddr oneKey = some ⟨10, 8, 0, 2⟩ ∧ g.dev.peerAddr zeroKey = some ⟨10, 8, 0, 3⟩ ∧
      g.dev.Intact := by
  have hrun : (exec (step roomy) (bootGateway (loadPeerCache 100 0 restoredCache).1)
      (enrollment zeroKey)).any fun g =>
        g.dev.peerAddr oneKey = some ⟨10, 8, 0, 2⟩ ∧
          g.dev.peerAddr zeroKey = some ⟨10, 8, 0, 3⟩ := by decide +kernel
  obtain ⟨g, hg, haddrs⟩ := (Option.any_eq_true _ _).mp hrun
  obtain ⟨hone, hzero⟩ := of_decide_eq_true haddrs
  refine ⟨g, hg, hone, hzero, ?_⟩
  exact peer_table_intact roomy [9] 100 0 restoredCache (fun _ => false) _
    ⟨by decide +kernel, by decide +kernel, by decide +kernel⟩ hg (by decide +kernel)

/-- A cache that gives two peers the gateway's own address. -/
def doubleCache : Option (List (List Char)) :=
  some ["cvpn-peers-v2".toList, (zeroKey ++ " 10.8.0.1 9").toList, (oneKey ++ " 10.8.0.1 9").toList]

/-- One identity gets two addresses under two spellings, and a cache may give
two peers one address, the gateway's. -/
theorem not_peer_table_intact :
    ¬ (∀ (es : List Event) (g : Gateway),
        exec (step roomy) (bootGateway []) es = some g → g.dev.Intact) ∧
      ¬ (bootGateway (loadPeerCache 100 0 doubleCache).1).dev.Intact := by
  constructor
  · intro h
    have hrun : (exec (step roomy) (bootGateway []) (enrollment zeroKey ++
        enrollment zeroKeyLine)).any fun g =>
          g.dev.peerAddr zeroKey = some ⟨10, 8, 0, 2⟩ ∧
            g.dev.peerAddr zeroKeyLine = some ⟨10, 8, 0, 3⟩ := by decide +kernel
    obtain ⟨g, hg, haddrs⟩ := (Option.any_eq_true _ _).mp hrun
    obtain ⟨hzero, hline⟩ := of_decide_eq_true haddrs
    exact absurd ((h _ g hg).oneAddress _ _ _ _ hzero hline (by decide +kernel)) (by decide)
  · intro h
    have hzero : (bootGateway (loadPeerCache 100 0 doubleCache).1).dev.peerAddr zeroKey =
        some gatewayAddr := by decide +kernel
    exact absurd rfl (h.routable _ _ hzero).1

end Runs

end CumulusVpn.Peers
