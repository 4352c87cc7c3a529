/-
The bandwidth limiters (`gateway/internal/limiter/limiter.go`).

* `Manager`: the table of peers, whose `Peer` values live on while a caller
  holds them, and the counter beside it;
* `get`, `swap`, `count`, `remove`, `counts`: the atomic steps;
* `SetTier`: where a call of `SetTier` stands between them.
-/
import CumulusVpn.Gateway.Device

namespace CumulusVpn.Peers

/-- The limiters, and how many keys are on the free tier. -/
structure Manager where
  /-- the limiter of each public key -/
  peers : GoMap String Nat
  /-- the tier of each limiter ever made -/
  premium : Nat → Bool
  /-- the limiters made so far -/
  made : Nat
  freeCount : Int

namespace Manager

/-- A manager before its first key. -/
def new : Manager := ⟨∅, fun _ => false, 0, 0⟩

/-- The limiter of a key, made free if it has none. -/
def get (m : Manager) (pubkey : String) : Manager × Nat :=
  match m.peers.lookup pubkey with
  | some p => (m, p)
  | none =>
      ({ m with
          peers := m.peers.insert pubkey m.made
          premium := Function.update m.premium m.made false
          made := m.made + 1
          freeCount := m.freeCount + 1 },
        m.made)

/-- `p.premium.Swap`, and what the counter then has to take. -/
def swap (m : Manager) (p : Nat) (premium : Bool) : Manager × Option Int :=
  if m.premium p = premium then (m, none)
  else ({ m with premium := Function.update m.premium p premium }, some (if premium then -1 else 1))

/-- The manager with another count. -/
def count (m : Manager) (delta : Int) : Manager := { m with freeCount := m.freeCount + delta }

/-- Drops the limiter of a key. -/
def remove (m : Manager) (pubkey : String) : Manager :=
  match m.peers.lookup pubkey with
  | none => m
  | some p =>
      { m with
        peers := m.peers.erase pubkey
        freeCount := if m.premium p then m.freeCount else m.freeCount - 1 }

/-- The counter and the number of peers. -/
def counts (m : Manager) : Int × Nat := (m.freeCount, m.peers.entries.length)

/-- The limiters in the table that are free. -/
def free (m : Manager) : Nat := m.peers.entries.countP fun e => m.premium e.2 = false

end Manager

/-- Where a call of `SetTier` stands. -/
inductive SetTier
  | get
  | swap (p : Nat)
  | count (delta : Int)
deriving DecidableEq, Repr

/-- The next step of `SetTier(pubkey, premium)`; `none` when it returns. -/
def SetTier.next (m : Manager) (pubkey : String) (premium : Bool) :
    SetTier → Manager × Option SetTier
  | .get => ((m.get pubkey).1, some (.swap (m.get pubkey).2))
  | .swap p => ((m.swap p premium).1, (m.swap p premium).2.map .count)
  | .count delta => (m.count delta, none)

end CumulusVpn.Peers
