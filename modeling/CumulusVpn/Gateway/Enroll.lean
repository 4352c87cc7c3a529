/-
The gateway's operations on its peers, one call at a time (`handleEnroll` and
`SyncPremiumPeers` of `gateway/internal/api/api.go`, `syncTiers` and
`reapIdlePeers` of `gateway/cmd/gateway/main.go`, `handleTCP` of
`gateway/internal/wg/forward.go`).

Every call on a device, on the limiter and of `assign` is a step of its own,
and so is each half of `SetTier`.  What a step is told from outside: the
answer of the entitlement engine, whether the WireGuard engine takes a peer,
the clock, and the order in which a map is walked.

* `Enroll`, `Sync`, `Reaper`: where an operation stands, with what it
  remembers; `SyncPremium`: the same within `SyncPremiumPeers`;
* `Gateway`, `Gateway.boot`: the whole, after the peer cache was restored;
* `step`: one call of one operation;
* `PremiumStep`, `EnrollStep`, `SyncStep`, `ReaperStep`: **what a call can
  do**, case by case.
-/
import CumulusVpn.Gateway.Limiter
import CumulusVpn.Lib.StepSystem

namespace CumulusVpn.Peers

open StepSystem

/-- An additional listener; without a device it relays into the vanilla
one. -/
structure ExtraTransport where
  device : Option Device
  premiumOnly : Bool

/-- Where a call of `SyncPremiumPeers` stands, at transport `k`. -/
inductive SyncPremium
  | check (k : Nat)
  /-- looking up the peer's address on the vanilla device -/
  | look (k : Nat)
  | add (k : Nat) (addr : Addr)
  | remove (k : Nat)
deriving DecidableEq, Repr

/-- The enrollment that holds the enroll lock. -/
inductive Enroll
  | idle
  | counting (pubkey : String) (premium : Bool)
  | looking (pubkey : String) (premium : Bool) (free : Int) (total : Nat)
  | assigning (pubkey : String) (premium existed : Bool)
  | registering (pubkey : String) (premium existed : Bool) (addr : Addr)
  | mirroring (pubkey : String) (premium existed : Bool) (addr : Addr) (k : Nat)
  /-- undoing a new peer that transport `k` did not take -/
  | dropping (pubkey : String) (premium : Bool) (k : Nat)
  | unmirroring (pubkey : String) (premium : Bool) (k j : Nat)
  | tiering (pubkey : String) (premium : Bool) (call : SetTier)
deriving DecidableEq, Repr

/-- The tier-sync loop over its snapshot. -/
inductive Sync
  | idle
  | asking (rest : List String)
  | tiering (pubkey : String) (premium : Bool) (call : SetTier) (rest : List String)
  | syncing (pubkey : String) (premium : Bool) (call : SyncPremium) (rest : List String)
deriving DecidableEq, Repr

/-- The idle reaper over its snapshot. -/
inductive Reaper
  | idle
  | judging (now : Int) (rest : List PeerRecord)
  | dropping (pubkey : String) (now : Int) (rest : List PeerRecord)
  | unmirroring (pubkey : String) (k : Nat) (now : Int) (rest : List PeerRecord)
  | forgetting (pubkey : String) (now : Int) (rest : List PeerRecord)
  | syncing (pubkey : String) (call : SyncPremium) (now : Int) (rest : List PeerRecord)
deriving DecidableEq, Repr

/-- How many peers there may be. -/
structure Config where
  maxPeersTotal : Nat
  maxPeersFree : Nat

/-- A gateway: its transports, its limiters, and where its goroutines stand. -/
structure Gateway where
  /-- the vanilla device -/
  dev : Device
  extra : List ExtraTransport
  nextHost : Nat
  lim : Manager
  enroll : Enroll
  sync : Sync
  reaper : Reaper
  /-- the peers of flows that are about to take their limiter -/
  flows : List String

namespace Gateway

/-- The device of transport `k`. -/
def device (g : Gateway) (k : Nat) : Option Device := (g.extra[k]?).bind ExtraTransport.device

/-- The transport takes no free peers. -/
def premiumOnly (g : Gateway) (k : Nat) : Bool := (g.extra[k]?).any ExtraTransport.premiumOnly

/-- The gateway with another device of a transport. -/
def setDevice (g : Gateway) (k : Nat) (d : Device) : Gateway :=
  { g with extra := g.extra.modify k fun e => { e with device := some d } }

/-- Adds a peer to transport `k`. -/
def addPeer (g : Gateway) (k : Nat) (pubkey : String) (addr : Addr) (now : Int) (engine : Bool) :
    Option Gateway :=
  ((g.device k).bind fun d => d.addPeer pubkey addr now engine).map (g.setDevice k)

/-- Removes a peer from transport `k`; a failure is ignored. -/
def removePeer (g : Gateway) (k : Nat) (pubkey : String) (engine : Bool) : Gateway :=
  match (g.device k).bind fun d => d.removePeer pubkey engine with
  | none => g
  | some d => g.setDevice k d

/-- The transports that an enrollment mirrors onto. -/
def mirrored (g : Gateway) (k : Nat) (premium : Bool) : Bool :=
  (g.device k).isSome && (!g.premiumOnly k || premium)

/-- The key is on the device of a transport. -/
def onDevice (g : Gateway) (k : Nat) (pubkey : String) : Bool :=
  (g.device k).any fun d => (d.peerAddr pubkey).isSome

/-- The device that a flow arrives on: the vanilla one, or that of a
transport. -/
def flowDevice (g : Gateway) : Option Nat → Option Device
  | none => some g.dev
  | some k => g.device k

/-- The transports that `SyncPremiumPeers` reconciles. -/
def gated (g : Gateway) (k : Nat) : Bool := (g.device k).isSome && g.premiumOnly k

end Gateway

/-- Which records a device does not take. -/
abbrev Fails := PeerRecord → Bool

/-- An additional listener at boot: with a device of its own or without, and
premium only or not. -/
structure Listener where
  device : Option Fails
  premiumOnly : Bool

/-- A listener after the cache was restored: a gated one starts empty. -/
def Listener.boot (own : Identity) (now : Int) (recs : List PeerRecord) (l : Listener) :
    ExtraTransport where
  device :=
    l.device.map fun fails =>
      if l.premiumOnly then .new own else (Device.new own).restorePeers fails now recs
  premiumOnly := l.premiumOnly

/-- The gateway after the cache was restored. -/
def Gateway.boot (own : Identity) (now : Int) (recs : List PeerRecord) (fails : Fails)
    (listeners : List Listener) : Gateway where
  dev := (Device.new own).restorePeers fails now recs
  extra := listeners.map (Listener.boot own now recs)
  nextHost := 2
  lim := .new
  enroll := .idle
  sync := .idle
  reaper := .idle
  flows := []

/-! ### The operations -/

/-- The next call of `SyncPremiumPeers(pubkey, premium)`; `none` when it
returns. -/
def SyncPremium.next (g : Gateway) (pubkey : String) (premium : Bool) (now : Int)
    (engine : Bool) : SyncPremium → Gateway × Option SyncPremium
  | .check k =>
      if k ≥ g.extra.length then (g, none)
      else if ¬ g.gated k then (g, some (.check (k + 1)))
      else if premium ∧ ¬ g.onDevice k pubkey then (g, some (.look k))
      else if ¬ premium ∧ g.onDevice k pubkey then (g, some (.remove k))
      else (g, some (.check (k + 1)))
  | .look k =>
      match g.dev.peerAddr pubkey with
      | none => (g, some (.check (k + 1)))
      | some addr => (g, some (.add k addr))
  | .add k addr => ((g.addPeer k pubkey addr now engine).getD g, some (.check (k + 1)))
  | .remove k => (g.removePeer k pubkey engine, some (.check (k + 1)))

/-- The next call of the enrollment; `none` while there is none. -/
def Enroll.next (c : Config) (g : Gateway) (now : Int) (engine : Bool) :
    Enroll → Option (Gateway × Enroll)
  | .idle => none
  | .counting pubkey premium =>
      some (g, .looking pubkey premium g.lim.counts.1 g.lim.counts.2)
  | .looking pubkey premium free total =>
      if (g.dev.peerAddr pubkey).isNone ∧
          (total ≥ c.maxPeersTotal ∨ (¬ premium ∧ free ≥ c.maxPeersFree)) then
        some (g, .idle)
      else some (g, .assigning pubkey premium (g.dev.peerAddr pubkey).isSome)
  | .assigning pubkey premium existed =>
      match assign g.dev g.nextHost pubkey with
      | (none, next) => some ({ g with nextHost := next }, .idle)
      | (some addr, next) =>
          some ({ g with nextHost := next }, .registering pubkey premium existed addr)
  | .registering pubkey premium existed addr =>
      match g.dev.addPeer pubkey addr now engine with
      | none => some (g, .idle)
      | some d => some ({ g with dev := d }, .mirroring pubkey premium existed addr 0)
  | .mirroring pubkey premium existed addr k =>
      if k ≥ g.extra.length then some (g, .tiering pubkey premium .get)
      else if ¬ g.mirrored k premium then some (g, .mirroring pubkey premium existed addr (k + 1))
      else
        match g.addPeer k pubkey addr now engine with
        | some g' => some (g', .mirroring pubkey premium existed addr (k + 1))
        | none => some (g, if existed then .idle else .dropping pubkey premium k)
  | .dropping pubkey premium k =>
      some ({ g with dev := (g.dev.removePeer pubkey engine).getD g.dev },
        .unmirroring pubkey premium k 0)
  | .unmirroring pubkey premium k j =>
      if j ≥ k then some (g, .idle)
      else if ¬ g.mirrored j premium then some (g, .unmirroring pubkey premium k (j + 1))
      else some (g.removePeer j pubkey engine, .unmirroring pubkey premium k (j + 1))
  | .tiering pubkey premium call =>
      some ({ g with lim := (call.next g.lim pubkey premium).1 },
        match (call.next g.lim pubkey premium).2 with
        | some call => .tiering pubkey premium call
        | none => .idle)

/-- What the entitlement engine says of a key. -/
structure Tier where
  premium : Bool
  paidUntil : Option Int
deriving DecidableEq, Repr

/-- The next call of the tier-sync loop; `none` while it waits. -/
def Sync.next (g : Gateway) (tier : Tier) (now : Int) (engine : Bool) :
    Sync → Option (Gateway × Sync)
  | .idle => none
  | .asking [] => some (g, .idle)
  | .asking (pubkey :: rest) => some (g, .tiering pubkey tier.premium .get rest)
  | .tiering pubkey premium call rest =>
      some ({ g with lim := (call.next g.lim pubkey premium).1 },
        match (call.next g.lim pubkey premium).2 with
        | some call => .tiering pubkey premium call rest
        | none => .syncing pubkey premium (.check 0) rest)
  | .syncing pubkey premium call rest =>
      some ((call.next g pubkey premium now engine).1,
        match (call.next g pubkey premium now engine).2 with
        | some call => .syncing pubkey premium call rest
        | none => .asking rest)

/-- The seconds of a day. -/
def dayS : Int := 86400

/-- The reaper's verdict on a record. -/
def isIdle (now : Int) (tier : Tier) (rec : PeerRecord) : Bool :=
  if tier.premium then false
  else
    match tier.paidUntil with
    | none => rec.seen.any fun seen => freeIdle dayS ≤ now - seen
    | some paidUntil =>
        premiumGrace dayS ≤ now - paidUntil ∧
          rec.seen.any fun seen => premiumGrace dayS ≤ now - seen

/-- The next call of the reaper; `none` while it waits. -/
def Reaper.next (g : Gateway) (tier : Tier) (clock : Int) (engine : Bool) :
    Reaper → Option (Gateway × Reaper)
  | .idle => none
  | .judging _ [] => some (g, .idle)
  | .judging now (rec :: rest) =>
      some (g, if isIdle now tier rec then .dropping rec.pubKey now rest else .judging now rest)
  | .dropping pubkey now rest =>
      match g.dev.removePeer pubkey engine with
      | none => some (g, .judging now rest)
      | some d => some ({ g with dev := d }, .unmirroring pubkey 0 now rest)
  | .unmirroring pubkey k now rest =>
      if k ≥ g.extra.length then some (g, .forgetting pubkey now rest)
      else if (g.device k).isNone then some (g, .unmirroring pubkey (k + 1) now rest)
      else some (g.removePeer k pubkey engine, .unmirroring pubkey (k + 1) now rest)
  | .forgetting pubkey now rest =>
      some ({ g with lim := g.lim.remove pubkey }, .syncing pubkey (.check 0) now rest)
  | .syncing pubkey call now rest =>
      some ((call.next g pubkey false clock engine).1,
        match (call.next g pubkey false clock engine).2 with
        | some call => .syncing pubkey call now rest
        | none => .judging now rest)

/-- A step of one of the goroutines. -/
inductive Event
  /-- a request that passed its checks takes the enroll lock -/
  | request (pubkey : String) (premium : Bool)
  /-- the next call of the enrollment -/
  | enroll (now : Int) (engine : Bool)
  /-- the sync loop takes its snapshot, in some order -/
  | tick (peers : List String)
  | sync (tier : Tier) (now : Int) (engine : Bool)
  /-- the reaper reads the handshakes -/
  | touch (handshakes : List (String × Int))
  /-- and takes its snapshot -/
  | sweep (now : Int) (recs : List PeerRecord)
  | reap (tier : Tier) (clock : Int) (engine : Bool)
  /-- a flow from this address -/
  | flow (k : Option Nat) (src : Addr)
  /-- a flow takes its limiter -/
  | limit (pubkey : String)

/-- One call of one operation. -/
def step (c : Config) (g : Gateway) : Event → Option Gateway
  | .request pubkey premium =>
      if g.enroll = .idle ∧ (decodeKey pubkey).isSome then
        some { g with enroll := .counting pubkey premium }
      else none
  | .enroll now engine =>
      (g.enroll.next c g now engine).map fun r => { r.1 with enroll := r.2 }
  | .tick peers =>
      if g.sync = .idle ∧ peers.Perm g.dev.byKey.keys then some { g with sync := .asking peers }
      else none
  | .sync tier now engine =>
      (g.sync.next g tier now engine).map fun r => { r.1 with sync := r.2 }
  | .touch handshakes =>
      if g.reaper = .idle then some { g with dev := g.dev.touchFromHandshakes handshakes } else none
  | .sweep now recs =>
      if g.reaper = .idle ∧ recs.Perm g.dev.peerRecords then
        some { g with reaper := .judging now recs }
      else none
  | .reap tier clock engine =>
      (g.reaper.next g tier clock engine).map fun r => { r.1 with reaper := r.2 }
  | .flow k src =>
      ((g.flowDevice k).bind fun d => d.peerByAddr src).map fun pubkey =>
        { g with flows := pubkey :: g.flows }
  | .limit pubkey =>
      if pubkey ∈ g.flows then
        some { g with lim := (g.lim.get pubkey).1, flows := g.flows.erase pubkey }
      else none

/-- No operation is in flight. -/
def Gateway.Quiet (g : Gateway) : Prop :=
  g.enroll = .idle ∧ g.sync = .idle ∧ g.reaper = .idle ∧ g.flows = []

instance (g : Gateway) : Decidable g.Quiet := inferInstanceAs (Decidable (_ ∧ _ ∧ _ ∧ _))

/-! ### What a call can do -/

section Cases

variable {c : Config} {g g' : Gateway} {now : Int} {engine : Bool}

/-- Edits of the transports leave the rest alone. -/
lemma addPeer_extra {k : Nat} {pubkey : String} {addr : Addr}
    (h : g.addPeer k pubkey addr now engine = some g') :
    ∃ extra, g' = { g with extra := extra } := by
  obtain ⟨d, -, rfl⟩ := Option.map_eq_some_iff.mp h
  exact ⟨_, rfl⟩

lemma removePeer_extra (g : Gateway) (k : Nat) (pubkey : String) (engine : Bool) :
    ∃ extra, g.removePeer k pubkey engine = { g with extra := extra } := by
  rw [Gateway.removePeer]
  split <;> exact ⟨_, rfl⟩

/-- The calls of `SyncPremiumPeers`. -/
inductive PremiumStep (g : Gateway) (pubkey : String) (premium : Bool) (now : Int)
    (engine : Bool) : SyncPremium → Gateway × Option SyncPremium → Prop
  | return_ {k : Nat} (hk : k ≥ g.extra.length) :
      PremiumStep g pubkey premium now engine (.check k) (g, none)
  | skip {k : Nat} (hk : k < g.extra.length) (h : g.gated k → g.onDevice k pubkey → premium) :
      PremiumStep g pubkey premium now engine (.check k) (g, some (.check (k + 1)))
  | missing {k : Nat} (hgated : g.gated k) (hpremium : premium) :
      PremiumStep g pubkey premium now engine (.check k) (g, some (.look k))
  | lapsed {k : Nat} (hgated : g.gated k) (hpremium : ¬ premium) :
      PremiumStep g pubkey premium now engine (.check k) (g, some (.remove k))
  | unknown {k : Nat} (h : g.dev.peerAddr pubkey = none) :
      PremiumStep g pubkey premium now engine (.look k) (g, some (.check (k + 1)))
  | found {k : Nat} {addr : Addr} (h : g.dev.peerAddr pubkey = some addr) :
      PremiumStep g pubkey premium now engine (.look k) (g, some (.add k addr))
  | add {k : Nat} {addr : Addr} {g' : Gateway} (h : g.addPeer k pubkey addr now engine = some g') :
      PremiumStep g pubkey premium now engine (.add k addr) (g', some (.check (k + 1)))
  | addFails {k : Nat} {addr : Addr} (h : g.addPeer k pubkey addr now engine = none) :
      PremiumStep g pubkey premium now engine (.add k addr) (g, some (.check (k + 1)))
  | remove {k : Nat} :
      PremiumStep g pubkey premium now engine (.remove k)
        (g.removePeer k pubkey engine, some (.check (k + 1)))

lemma premium_step (g : Gateway) (pubkey : String) (premium : Bool) (now : Int) (engine : Bool)
    (call : SyncPremium) :
    PremiumStep g pubkey premium now engine call (call.next g pubkey premium now engine) := by
  cases call with
  | check k =>
      rw [SyncPremium.next]
      split
      · rename_i hk
        exact .return_ hk
      rename_i hk
      split
      · rename_i hgated
        exact .skip (not_le.mp hk) fun h => absurd h hgated
      rename_i hgated
      split
      · rename_i hmissing
        exact .missing (not_not.mp hgated) hmissing.1
      split
      · rename_i hlapsed
        exact .lapsed (not_not.mp hgated) hlapsed.1
      · rename_i hkept
        exact .skip (not_le.mp hk) fun _ hon => by_contra fun hpremium => hkept ⟨hpremium, hon⟩
  | look k =>
      rw [SyncPremium.next]
      split
      · rename_i hnone
        exact .unknown hnone
      · rename_i addr haddr
        exact .found haddr
  | add k addr =>
      rw [SyncPremium.next]
      cases hadd : g.addPeer k pubkey addr now engine with
      | none => exact .addFails hadd
      | some g' => exact .add hadd
  | remove k => exact .remove

lemma PremiumStep.extra {pubkey : String} {premium : Bool} {call : SyncPremium}
    {r : Gateway × Option SyncPremium} (h : PremiumStep g pubkey premium now engine call r) :
    ∃ extra, r.1 = { g with extra := extra } := by
  cases h with
  | add h => exact addPeer_extra h
  | remove => exact removePeer_extra g _ pubkey engine
  | _ => exact ⟨_, rfl⟩

/-- The calls of an enrollment. -/
inductive EnrollStep (g : Gateway) (now : Int) (engine : Bool) :
    Enroll → Gateway × Enroll → Prop
  | count {pubkey : String} {premium : Bool} :
      EnrollStep g now engine (.counting pubkey premium)
        (g, .looking pubkey premium g.lim.counts.1 g.lim.counts.2)
  | refuse {pubkey : String} {premium : Bool} {free : Int} {total : Nat} :
      EnrollStep g now engine (.looking pubkey premium free total) (g, .idle)
  | look {pubkey : String} {premium : Bool} {free : Int} {total : Nat} :
      EnrollStep g now engine (.looking pubkey premium free total)
        (g, .assigning pubkey premium (g.dev.peerAddr pubkey).isSome)
  | exhausted {pubkey : String} {premium existed : Bool} {next : Nat}
      (h : assign g.dev g.nextHost pubkey = (none, next)) :
      EnrollStep g now engine (.assigning pubkey premium existed)
        ({ g with nextHost := next }, .idle)
  | assign {pubkey : String} {premium existed : Bool} {addr : Addr} {next : Nat}
      (h : assign g.dev g.nextHost pubkey = (some addr, next)) :
      EnrollStep g now engine (.assigning pubkey premium existed)
        ({ g with nextHost := next }, .registering pubkey premium existed addr)
  | registerFails {pubkey : String} {premium existed : Bool} {addr : Addr} :
      EnrollStep g now engine (.registering pubkey premium existed addr) (g, .idle)
  | register {pubkey : String} {premium existed : Bool} {addr : Addr} {d : Device}
      (h : g.dev.addPeer pubkey addr now engine = some d) :
      EnrollStep g now engine (.registering pubkey premium existed addr)
        ({ g with dev := d }, .mirroring pubkey premium existed addr 0)
  | mirrored {pubkey : String} {premium existed : Bool} {addr : Addr} {k : Nat} :
      EnrollStep g now engine (.mirroring pubkey premium existed addr k)
        (g, .tiering pubkey premium .get)
  | skip {pubkey : String} {premium existed : Bool} {addr : Addr} {k : Nat} :
      EnrollStep g now engine (.mirroring pubkey premium existed addr k)
        (g, .mirroring pubkey premium existed addr (k + 1))
  | mirror {pubkey : String} {premium existed : Bool} {addr : Addr} {k : Nat} {g' : Gateway}
      (hmirrored : g.mirrored k premium) (h : g.addPeer k pubkey addr now engine = some g') :
      EnrollStep g now engine (.mirroring pubkey premium existed addr k)
        (g', .mirroring pubkey premium existed addr (k + 1))
  | mirrorFails {pubkey : String} {premium existed : Bool} {addr : Addr} {k : Nat} :
      EnrollStep g now engine (.mirroring pubkey premium existed addr k)
        (g, if existed then .idle else .dropping pubkey premium k)
  | takeBack {pubkey : String} {premium : Bool} {k : Nat} {d : Device}
      (h : g.dev.removePeer pubkey engine = some d) :
      EnrollStep g now engine (.dropping pubkey premium k)
        ({ g with dev := d }, .unmirroring pubkey premium k 0)
  | takeBackFails {pubkey : String} {premium : Bool} {k : Nat} :
      EnrollStep g now engine (.dropping pubkey premium k) (g, .unmirroring pubkey premium k 0)
  | undone {pubkey : String} {premium : Bool} {k j : Nat} (hj : j ≥ k) :
      EnrollStep g now engine (.unmirroring pubkey premium k j) (g, .idle)
  | skipUndo {pubkey : String} {premium : Bool} {k j : Nat} (h : ¬ g.mirrored j premium) :
      EnrollStep g now engine (.unmirroring pubkey premium k j)
        (g, .unmirroring pubkey premium k (j + 1))
  | undo {pubkey : String} {premium : Bool} {k j : Nat} :
      EnrollStep g now engine (.unmirroring pubkey premium k j)
        (g.removePeer j pubkey engine, .unmirroring pubkey premium k (j + 1))
  | tier {pubkey : String} {premium : Bool} {call call' : SetTier}
      (h : (call.next g.lim pubkey premium).2 = some call') :
      EnrollStep g now engine (.tiering pubkey premium call)
        ({ g with lim := (call.next g.lim pubkey premium).1 }, .tiering pubkey premium call')
  | tiered {pubkey : String} {premium : Bool} {call : SetTier}
      (h : (call.next g.lim pubkey premium).2 = none) :
      EnrollStep g now engine (.tiering pubkey premium call)
        ({ g with lim := (call.next g.lim pubkey premium).1 }, .idle)

lemma enroll_step {p : Enroll} {r : Gateway × Enroll} (h : p.next c g now engine = some r) :
    EnrollStep g now engine p r := by
  cases p with
  | idle => cases h
  | counting pubkey premium =>
      cases h
      exact .count
  | looking pubkey premium free total =>
      rw [Enroll.next] at h
      split at h <;> cases h
      · exact .refuse
      · exact .look
  | assigning pubkey premium existed =>
      rw [Enroll.next] at h
      split at h
      · rename_i next hassign
        cases h
        exact .exhausted hassign
      · rename_i addr next hassign
        cases h
        exact .assign hassign
  | registering pubkey premium existed addr =>
      rw [Enroll.next] at h
      split at h
      · cases h
        exact .registerFails
      · rename_i d hadd
        cases h
        exact .register hadd
  | mirroring pubkey premium existed addr k =>
      rw [Enroll.next] at h
      split at h
      · cases h
        exact .mirrored
      · split at h
        · cases h
          exact .skip
        · rename_i hmirrored
          split at h
          · rename_i g' hadd
            cases h
            exact .mirror (not_not.mp hmirrored) hadd
          · cases h
            exact .mirrorFails
  | dropping pubkey premium k =>
      cases h
      cases hremove : g.dev.removePeer pubkey engine with
      | none => exact .takeBackFails
      | some d => exact .takeBack hremove
  | unmirroring pubkey premium k j =>
      rw [Enroll.next] at h
      split at h
      · rename_i hj
        cases h
        exact .undone hj
      · split at h
        · rename_i hmirrored
          cases h
          exact .skipUndo hmirrored
        · cases h
          exact .undo
  | tiering pubkey premium call =>
      cases h
      cases hcall : (call.next g.lim pubkey premium).2 with
      | none => exact .tiered hcall
      | some call' => exact .tier hcall

/-- The calls of the tier-sync loop. -/
inductive SyncStep (g : Gateway) (now : Int) (engine : Bool) : Sync → Gateway × Sync → Prop
  | done : SyncStep g now engine (.asking []) (g, .idle)
  | ask {pubkey : String} {rest : List String} (premium : Bool) :
      SyncStep g now engine (.asking (pubkey :: rest)) (g, .tiering pubkey premium .get rest)
  | tier {pubkey : String} {premium : Bool} {call call' : SetTier} {rest : List String}
      (h : (call.next g.lim pubkey premium).2 = some call') :
      SyncStep g now engine (.tiering pubkey premium call rest)
        ({ g with lim := (call.next g.lim pubkey premium).1 },
          .tiering pubkey premium call' rest)
  | tiered {pubkey : String} {premium : Bool} {call : SetTier} {rest : List String}
      (h : (call.next g.lim pubkey premium).2 = none) :
      SyncStep g now engine (.tiering pubkey premium call rest)
        ({ g with lim := (call.next g.lim pubkey premium).1 },
          .syncing pubkey premium (.check 0) rest)
  | sync {pubkey : String} {premium : Bool} {call call' : SyncPremium} {rest : List String}
      {g' : Gateway} (h : PremiumStep g pubkey premium now engine call (g', some call')) :
      SyncStep g now engine (.syncing pubkey premium call rest)
        (g', .syncing pubkey premium call' rest)
  | synced {pubkey : String} {premium : Bool} {call : SyncPremium} {rest : List String}
      {g' : Gateway} (h : PremiumStep g pubkey premium now engine call (g', none)) :
      SyncStep g now engine (.syncing pubkey premium call rest) (g', .asking rest)

lemma sync_step {tier : Tier} {p : Sync} {r : Gateway × Sync}
    (h : p.next g tier now engine = some r) : SyncStep g now engine p r := by
  cases p with
  | idle => cases h
  | asking rest =>
      cases rest with
      | nil =>
          cases h
          exact .done
      | cons pubkey rest =>
          cases h
          exact .ask tier.premium
  | tiering pubkey premium call rest =>
      cases h
      cases hcall : (call.next g.lim pubkey premium).2 with
      | none => exact .tiered hcall
      | some call' => exact .tier hcall
  | syncing pubkey premium call rest =>
      have hstep := premium_step g pubkey premium now engine call
      cases hr : call.next g pubkey premium now engine with
      | mk g' call' =>
        rw [hr] at hstep
        rw [Sync.next, hr] at h
        cases h
        cases call' with
        | none => exact .synced hstep
        | some call' => exact .sync hstep

/-- The calls of the reaper. -/
inductive ReaperStep (g : Gateway) (clock : Int) (engine : Bool) :
    Reaper → Gateway × Reaper → Prop
  | done {now : Int} : ReaperStep g clock engine (.judging now []) (g, .idle)
  | spare {now : Int} {rec : PeerRecord} {rest : List PeerRecord} :
      ReaperStep g clock engine (.judging now (rec :: rest)) (g, .judging now rest)
  | condemn {now : Int} {rec : PeerRecord} {rest : List PeerRecord} :
      ReaperStep g clock engine (.judging now (rec :: rest)) (g, .dropping rec.pubKey now rest)
  | dropFails {pubkey : String} {now : Int} {rest : List PeerRecord} :
      ReaperStep g clock engine (.dropping pubkey now rest) (g, .judging now rest)
  | drop {pubkey : String} {now : Int} {rest : List PeerRecord} {d : Device}
      (h : g.dev.removePeer pubkey engine = some d) :
      ReaperStep g clock engine (.dropping pubkey now rest)
        ({ g with dev := d }, .unmirroring pubkey 0 now rest)
  | unmirrored {pubkey : String} {k : Nat} {now : Int} {rest : List PeerRecord}
      (hk : k ≥ g.extra.length) :
      ReaperStep g clock engine (.unmirroring pubkey k now rest) (g, .forgetting pubkey now rest)
  | skip {pubkey : String} {k : Nat} {now : Int} {rest : List PeerRecord}
      (h : g.device k = none) :
      ReaperStep g clock engine (.unmirroring pubkey k now rest)
        (g, .unmirroring pubkey (k + 1) now rest)
  | unmirror {pubkey : String} {k : Nat} {now : Int} {rest : List PeerRecord} :
      ReaperStep g clock engine (.unmirroring pubkey k now rest)
        (g.removePeer k pubkey engine, .unmirroring pubkey (k + 1) now rest)
  | forget {pubkey : String} {now : Int} {rest : List PeerRecord} :
      ReaperStep g clock engine (.forgetting pubkey now rest)
        ({ g with lim := g.lim.remove pubkey }, .syncing pubkey (.check 0) now rest)
  | sync {pubkey : String} {call call' : SyncPremium} {now : Int} {rest : List PeerRecord}
      {g' : Gateway} (h : PremiumStep g pubkey false clock engine call (g', some call')) :
      ReaperStep g clock engine (.syncing pubkey call now rest)
        (g', .syncing pubkey call' now rest)
  | synced {pubkey : String} {call : SyncPremium} {now : Int} {rest : List PeerRecord}
      {g' : Gateway} (h : PremiumStep g pubkey false clock engine call (g', none)) :
      ReaperStep g clock engine (.syncing pubkey call now rest) (g', .judging now rest)

lemma reaper_step {tier : Tier} {clock : Int} {p : Reaper} {r : Gateway × Reaper}
    (h : p.next g tier clock engine = some r) : ReaperStep g clock engine p r := by
  cases p with
  | idle => cases h
  | judging now rest =>
      cases rest with
      | nil =>
          cases h
          exact .done
      | cons rec rest =>
          cases h
          split
          · exact .condemn
          · exact .spare
  | dropping pubkey now rest =>
      rw [Reaper.next] at h
      split at h
      · cases h
        exact .dropFails
      · rename_i d hremove
        cases h
        exact .drop hremove
  | unmirroring pubkey k now rest =>
      rw [Reaper.next] at h
      split at h
      · rename_i hk
        cases h
        exact .unmirrored hk
      · split at h
        · rename_i hnone
          cases h
          exact .skip (Option.isNone_iff_eq_none.mp hnone)
        · cases h
          exact .unmirror
  | forgetting pubkey now rest =>
      cases h
      exact .forget
  | syncing pubkey call now rest =>
      have hstep := premium_step g pubkey false clock engine call
      cases hr : call.next g pubkey false clock engine with
      | mk g' call' =>
        rw [hr] at hstep
        rw [Reaper.next, hr] at h
        cases h
        cases call' with
        | none => exact .synced hstep
        | some call' => exact .sync hstep

end Cases

end CumulusVpn.Peers
