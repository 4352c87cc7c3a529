/-
A WireGuard device and its peer table (`gateway/internal/wg/device.go`,
`gateway/internal/wg/peercache.go`, `assign` of
`gateway/internal/api/api.go`).

* `decodeKey`: a base64 key, of which one identity has several spellings;
* `Device`: the two maps and the allowed IPs of the engine; `addPeer`,
  `removePeer`, `restorePeers`: the edits of them;
* `loadPeerCache`: the records of a peer cache;
* `assign`: the address of a new peer;
* `peerAddr_addPeer`, `peerByAddr_addPeer`, `seen_addPeer`, `peerAddr_removePeer`,
  `peerByAddr_removePeer`, `seen_removePeer`: what an edit leaves in the maps;
* `assign_spec`: **a new address is free, and a client's**.
-/
import Mathlib.Data.List.AList
import CumulusVpn.Gateway.Entitle
import CumulusVpn.Lib.Base64

namespace CumulusVpn.Peers

/-- A Go map. -/
abbrev GoMap (κ ν : Type) := AList fun _ : κ => ν

/-! ### Keys -/

/-- A decoded public key. -/
abbrev Identity := List UInt8

/-- A base64 WireGuard key; the decoder ignores line breaks, and the bits that
the padding cuts off. -/
def decodeKey (b64 : String) : Option Identity :=
  (Base64.decodeQuanta (b64.toList.filter fun c => ¬ (c = '\n' ∨ c = '\r'))).filter fun raw =>
    raw.length = 32

/-! ### The device -/

/-- An IPv4 address, by its octets. -/
structure Addr where
  b0 : Nat
  b1 : Nat
  b2 : Nat
  b3 : Nat
deriving DecidableEq, Repr

/-- `10.8.0.1`. -/
def gatewayAddr : Addr := ⟨10, 8, 0, 1⟩

/-- `10.8.0.0`. -/
def networkAddr : Addr := ⟨10, 8, 0, 0⟩

/-- A peer, as the cache has it. -/
structure PeerRecord where
  pubKey : String
  addr : Addr
  seen : Option Int
deriving DecidableEq, Repr

/-- A WireGuard device: our maps, and what the engine routes. -/
structure Device where
  /-- the device's own identity, which the engine takes for no peer's -/
  own : Identity
  byKey : GoMap String Addr
  byAddr : GoMap Addr String
  seen : GoMap String Int
  /-- the allowed IPs of the engine: an address belongs to one identity -/
  allowed : Addr → Option Identity

namespace Device

/-- A device without peers. -/
def new (own : Identity) : Device := ⟨own, ∅, ∅, ∅, fun _ => none⟩

/-- The address of a key. -/
def peerAddr (d : Device) (pubkey : String) : Option Addr := d.byKey.lookup pubkey

/-- The key of an address. -/
def peerByAddr (d : Device) (addr : Addr) : Option String := d.byAddr.lookup addr

/-- Registers a peer with its address; `engine` says whether the engine takes
it. -/
def addPeer (d : Device) (pubkey : String) (addr : Addr) (now : Int) (engine : Bool) :
    Option Device :=
  match decodeKey pubkey with
  | none => none
  | some raw =>
      if engine then
        some { d with
          allowed := if raw = d.own then d.allowed else Function.update d.allowed addr (some raw)
          byKey := d.byKey.insert pubkey addr
          byAddr := d.byAddr.insert addr pubkey
          seen := if (d.seen.lookup pubkey).isSome then d.seen else d.seen.insert pubkey now }
      else none

/-- Drops a peer from the engine and the maps. -/
def removePeer (d : Device) (pubkey : String) (engine : Bool) : Option Device :=
  match decodeKey pubkey with
  | none => none
  | some raw =>
      if engine then
        some { d with
          allowed := fun addr => if d.allowed addr = some raw then none else d.allowed addr
          byKey := d.byKey.erase pubkey
          byAddr :=
            match d.byKey.lookup pubkey with
            | some addr => d.byAddr.erase addr
            | none => d.byAddr
          seen := d.seen.erase pubkey }
      else none

/-- Carries the stamp of a record forward. -/
def stamp (d : Device) (r : PeerRecord) : Device :=
  { d with
    seen :=
      match r.seen with
      | none => d.seen
      | some seen => d.seen.insert r.pubKey seen }

/-- Re-registers the records of a cache; one that fails is skipped. -/
def restorePeers (fails : PeerRecord → Bool) (now : Int) : List PeerRecord → Device → Device
  | [], d => d
  | r :: recs, d =>
      match d.addPeer r.pubKey r.addr now (¬ fails r) with
      | none => restorePeers fails now recs d
      | some d' => restorePeers fails now recs (d'.stamp r)

/-- The handshakes that the engine reports, by canonical key. -/
def touchFromHandshakes (d : Device) (hs : List (String × Int)) : Device where
  own := d.own
  byKey := d.byKey
  byAddr := d.byAddr
  allowed := d.allowed
  seen :=
    hs.foldl (fun seen h =>
      if (d.byKey.lookup h.1).isSome ∧ ((seen.lookup h.1).all fun t => t < h.2) then
        seen.insert h.1 h.2
      else seen) d.seen

/-- The peer table with its stamps. -/
def peerRecords (d : Device) : List PeerRecord :=
  d.byKey.entries.map fun e => ⟨e.1, e.2, d.seen.lookup e.1⟩

end Device

/-! ### The peer cache -/

/-- `strings.Fields`. -/
def fields (cs : List Char) : List (List Char) :=
  (cs.splitOnP fun c => isSpace c).filter fun field => field ≠ []

/-- A decimal octet without a leading zero. -/
def parseOctet (cs : List Char) : Option Nat :=
  if cs ≠ [] ∧ cs.length ≤ 3 ∧ cs.all Char.isDigit ∧ (cs.head? = some '0' → cs.length = 1) ∧
      Nat.ofDigitChars 10 cs 0 ≤ 255 then
    some (Nat.ofDigitChars 10 cs 0)
  else none

/-- `netip.ParseAddr`, when it reads an IPv4 address. -/
def parseAddr4 (cs : List Char) : Option Addr :=
  match (cs.splitOn '.').mapM parseOctet with
  | some [b0, b1, b2, b3] => some ⟨b0, b1, b2, b3⟩
  | _ => none

/-- A positive number of seconds. -/
def parseStamp (cs : List Char) : Option Int :=
  let digits := if cs.head? = some '+' then cs.tail else cs
  if digits ≠ [] ∧ digits.all Char.isDigit ∧ 0 < Nat.ofDigitChars 10 digits 0 ∧
      Nat.ofDigitChars 10 digits 0 < 2 ^ 63 then
    some (Nat.ofDigitChars 10 digits 0)
  else none

/-- The record of a line that has a key and an IPv4 address. -/
def parseRecord (now : Int) (line : List Char) : Option PeerRecord :=
  match fields line with
  | pk :: addrStr :: rest =>
      if (decodeKey (String.ofList pk)).isNone then none
      else
        match parseAddr4 addrStr with
        | none => none
        | some addr =>
            some ⟨String.ofList pk, addr, some ((rest.head?.bind parseStamp).getD now)⟩
  | _ => none

/-- The records of the lines, after `recs`; a spelling is taken once. -/
def loadRecords (max : Nat) (now : Int) : List (List Char) → List PeerRecord →
    List PeerRecord × Bool
  | [], recs => (recs, true)
  | line :: lines, recs =>
      match parseRecord now line with
      | none => loadRecords max now lines recs
      | some r =>
          if recs.any fun r' => r'.pubKey = r.pubKey then loadRecords max now lines recs
          else if max > 0 ∧ recs.length + 1 ≥ max then (recs ++ [r], false)
          else loadRecords max now lines (recs ++ [r])

/-- The records of a cache file, if there is one, and whether it was read
completely. -/
def loadPeerCache (max : Nat) (now : Int) : Option (List (List Char)) → List PeerRecord × Bool
  | none => ([], true)
  | some [] => ([], true)
  | some (version :: lines) =>
      if trimSpace version = "cvpn-peers-v2".toList ∨
          trimSpace version = "cvpn-peers-v1".toList then
        loadRecords max now lines []
      else ([], false)

/-! ### Addresses -/

/-- The walk over the host parts, from `host` on; the second component is
where the next walk starts. -/
def assignFrom (d : Device) : Nat → Nat → Option Addr × Nat
  | 0, host => (none, host)
  | n + 1, host =>
      let next := if host + 1 ≥ 65536 then 2 else host + 1
      let b2 := host / 256 % 256
      let b3 := host % 256
      if b3 = 0 ∨ b3 = 255 then assignFrom d n next
      else if (d.peerByAddr ⟨10, 8, b2, b3⟩).isNone then (some ⟨10, 8, b2, b3⟩, next)
      else assignFrom d n next

/-- The peer's address, or the next free one. -/
def assign (d : Device) (nextHost : Nat) (pubkey : String) : Option Addr × Nat :=
  match d.peerAddr pubkey with
  | some addr => (some addr, nextHost)
  | none => assignFrom d 65534 nextHost

/-! ### What an edit leaves behind -/

lemma lookup_insert {κ ν : Type} [DecidableEq κ] (m : GoMap κ ν) (k k' : κ) (v : ν) :
    (m.insert k v).lookup k' = if k' = k then some v else m.lookup k' := by
  split
  · rename_i heq
    rw [heq, AList.lookup_insert]
  · rename_i hne
    exact AList.lookup_insert_ne hne

lemma lookup_erase {κ ν : Type} [DecidableEq κ] (m : GoMap κ ν) (k k' : κ) :
    (m.erase k).lookup k' = if k' = k then none else m.lookup k' := by
  split
  · rename_i heq
    rw [heq, AList.lookup_erase]
  · rename_i hne
    exact AList.lookup_erase_ne hne

section Edits

variable {d d' : Device} {pubkey : String} {addr : Addr} {now : Int} {engine : Bool}

/-- A registration that succeeds. -/
lemma addPeer_some (h : d.addPeer pubkey addr now engine = some d') :
    ∃ raw, decodeKey pubkey = some raw ∧ d'.own = d.own ∧
      d'.byKey = d.byKey.insert pubkey addr ∧ d'.byAddr = d.byAddr.insert addr pubkey ∧
      d'.allowed =
        if raw = d.own then d.allowed else Function.update d.allowed addr (some raw) := by
  rw [Device.addPeer] at h
  split at h
  · cases h
  · rename_i raw hraw
    split at h
    · cases h
      exact ⟨raw, hraw, rfl, rfl, rfl, rfl⟩
    · cases h

/-- A removal that succeeds. -/
lemma removePeer_some (h : d.removePeer pubkey engine = some d') :
    ∃ raw, decodeKey pubkey = some raw ∧ d'.own = d.own ∧ d'.byKey = d.byKey.erase pubkey ∧
      (∀ a, d'.peerByAddr a = if d.peerAddr pubkey = some a then none else d.peerByAddr a) ∧
      ∀ a, d'.allowed a = if d.allowed a = some raw then none else d.allowed a := by
  rw [Device.removePeer] at h
  split at h
  · cases h
  · rename_i raw hraw
    split at h
    · cases h
      refine ⟨raw, hraw, rfl, rfl, fun a => ?_, fun a => rfl⟩
      change AList.lookup a (match d.byKey.lookup pubkey with
        | some addr => d.byAddr.erase addr
        | none => d.byAddr) = _
      split
      · rename_i addr hlookup
        rw [show d.peerAddr pubkey = some addr from hlookup, lookup_erase]
        by_cases ha : a = addr
        · rw [if_pos ha, if_pos (congrArg some ha.symm)]
        · rw [if_neg ha, if_neg fun heq => ha (Option.some_inj.mp heq).symm]
          rfl
      · rename_i hlookup
        rw [show d.peerAddr pubkey = none from hlookup, if_neg nofun]
        rfl
    · cases h

lemma engine_of_addPeer (h : d.addPeer pubkey addr now engine = some d') : engine = true := by
  rw [Device.addPeer] at h
  split at h
  · cases h
  · split at h
    · assumption
    · cases h

lemma engine_of_removePeer (h : d.removePeer pubkey engine = some d') : engine = true := by
  rw [Device.removePeer] at h
  split at h
  · cases h
  · split at h
    · assumption
    · cases h

lemma peerAddr_addPeer (h : d.addPeer pubkey addr now engine = some d') (pk : String) :
    d'.peerAddr pk = if pk = pubkey then some addr else d.peerAddr pk := by
  obtain ⟨raw, -, -, hkey, -⟩ := addPeer_some h
  rw [Device.peerAddr, hkey, lookup_insert]
  rfl

lemma peerByAddr_addPeer (h : d.addPeer pubkey addr now engine = some d') (a : Addr) :
    d'.peerByAddr a = if a = addr then some pubkey else d.peerByAddr a := by
  obtain ⟨raw, -, -, -, haddr, -⟩ := addPeer_some h
  rw [Device.peerByAddr, haddr, lookup_insert]
  rfl

lemma peerAddr_removePeer (h : d.removePeer pubkey engine = some d') (pk : String) :
    d'.peerAddr pk = if pk = pubkey then none else d.peerAddr pk := by
  obtain ⟨raw, -, -, hkey, -⟩ := removePeer_some h
  rw [Device.peerAddr, hkey, lookup_erase]
  rfl

lemma peerByAddr_removePeer (h : d.removePeer pubkey engine = some d') (a : Addr) :
    d'.peerByAddr a = if d.peerAddr pubkey = some a then none else d.peerByAddr a := by
  obtain ⟨raw, -, -, -, haddr, -⟩ := removePeer_some h
  exact haddr a

lemma seen_addPeer (h : d.addPeer pubkey addr now engine = some d') (pk : String) :
    d'.seen.lookup pk =
      if pk = pubkey ∧ d.seen.lookup pubkey = none then some now else d.seen.lookup pk := by
  rw [Device.addPeer] at h
  split at h
  · cases h
  · split at h
    · cases h
      dsimp only
      cases hseen : d.seen.lookup pubkey with
      | none =>
          rw [if_neg (by simp), lookup_insert]
          simp
      | some t => simp
    · cases h

lemma seen_removePeer (h : d.removePeer pubkey engine = some d') (pk : String) :
    d'.seen.lookup pk = if pk = pubkey then none else d.seen.lookup pk := by
  rw [Device.removePeer] at h
  split at h
  · cases h
  · split at h
    · cases h
      exact lookup_erase _ _ _
    · cases h

end Edits

/-! ### New addresses -/

/-- Where a walk may start. -/
def HostPart (host : Nat) : Prop := 2 ≤ host ∧ host < 65536

lemma hostPart_two : HostPart 2 := ⟨le_rfl, by decide⟩

/-- The cursor wraps around to where it began. -/
lemma hostPart_next {host : Nat} (h : HostPart host) :
    HostPart (if host + 1 ≥ 65536 then 2 else host + 1) := by
  rw [HostPart] at h ⊢
  split <;> omega

/-- A walk that finds an address finds a free one of a client, and the next
walk may start where it ended. -/
lemma assignFrom_spec {d : Device} :
    ∀ {n host : Nat}, HostPart host → HostPart (assignFrom d n host).2 ∧
      ∀ a, (assignFrom d n host).1 = some a →
        d.peerByAddr a = none ∧ a ≠ gatewayAddr ∧ a ≠ networkAddr
  | 0, host, h => ⟨h, fun a ha => by cases ha⟩
  | n + 1, host, h => by
      have hnext := hostPart_next h
      rw [assignFrom]
      split
      · exact assignFrom_spec hnext
      · rename_i hclient
        split
        · rename_i hfree
          refine ⟨hnext, fun a ha => ?_⟩
          cases ha
          refine ⟨Option.isNone_iff_eq_none.mp hfree, ?_, ?_⟩
          · intro heq
            simp only [gatewayAddr, Addr.mk.injEq] at heq
            rw [HostPart] at h
            omega
          · intro heq
            simp only [networkAddr, Addr.mk.injEq] at heq
            omega
        · exact assignFrom_spec hnext

/-- **A peer keeps its address, or gets a free one of a client.** -/
lemma assign_spec {d : Device} {host : Nat} (h : HostPart host) (pubkey : String) :
    HostPart (assign d host pubkey).2 ∧
      ∀ a, (assign d host pubkey).1 = some a →
        d.peerAddr pubkey = some a ∨
          (d.peerAddr pubkey = none ∧ d.peerByAddr a = none ∧ a ≠ gatewayAddr ∧
            a ≠ networkAddr) := by
  rw [assign.eq_def]
  split
  · rename_i addr haddr
    exact ⟨h, fun a ha => Or.inl (haddr.trans ha)⟩
  · rename_i hnone
    obtain ⟨hnext, hfound⟩ := assignFrom_spec (d := d) (n := 65534) h
    exact ⟨hnext, fun a ha => Or.inr ⟨hnone, hfound a ha⟩⟩

end CumulusVpn.Peers
