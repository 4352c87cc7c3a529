/-
The entitlement engine (`gateway/internal/entitle/entitle.go`): the chain
scanner that derives the `paid_until` map from the payments to one address.

* `stack`, `validPayment`, `grant`: what one tx grants;
* `Engine.applyTxs`, `Engine.scan`: the fold of a read history behind the
  `seen` map, and the cursor that moves over the chain;
* `Ledger`, `Engine`: the state, with the part derived from the chain apart;
* `Engine.tier`: the answer about a public key;
* `grant_eq`: the code and the days a tx credits do not depend on the map;
* `credit_extends`: nor on schedule entries appended above the tx.

Times are nanoseconds since the Unix epoch and FLUX amounts are rationals,
added, multiplied and divided exactly (`GrantBounds` has the `float64`s of the
source); the `onChange` callback and the log lines are left out.
-/
import Mathlib.Algebra.Order.Group.Unbundled.Int
import Std.Data.ExtTreeMap
import CumulusVpn.Gateway.Price
import CumulusVpn.Lib.Trim

namespace CumulusVpn

open Std (ExtTreeMap)

/-! ### Time and maps -/

/-- `time.Time{}`, midnight of January 1, year 1, in nanoseconds since the
Unix epoch: the form of every time here. -/
def zeroTime : Int := -62135596800 * 10 ^ 9

/-- A day in nanoseconds. -/
def day : Int := 24 * 3600 * 10 ^ 9

/-- What a whole price buys: thirty days. -/
def period : Int := 30 * day

/-- The cap: 24 months (720 days) of prepaid time from now. -/
def maxPrepaid : Int := 24 * period

/-- How long the reaper of `gateway/cmd/gateway/main.go` leaves an idle peer
that never paid alone: thirty times what a day is. -/
def freeIdle (day : Int) : Int := 30 * day

/-- And one whose time ran out. -/
def premiumGrace (day : Int) : Int := 35 * day

/-- How far below the cursor every scan re-reads (20 min). -/
def overlapBlocks : Int := 40

/-- The 64-bit wrap-around of a `time.Duration`. -/
def wrapInt64 (n : Int) : Int := n.bmod (2 ^ 64)

/-- `map[string]time.Time`: code to paid_until. -/
abbrev PaidMap := ExtTreeMap String Int compare

/-- `map[string]int64`: txid to the height it was folded at. -/
abbrev SeenMap := ExtTreeMap String Int compare

/-- `m[code]`: the zero time when there is no entry. -/
def PaidMap.at_ (m : PaidMap) (code : String) : Int := m.getD code zeroTime

@[simp] lemma PaidMap.at_empty (code : String) : PaidMap.at_ ∅ code = zeroTime := by
  simp [PaidMap.at_]

lemma PaidMap.at_insert (m : PaidMap) (c code : String) (t : Int) :
    PaidMap.at_ (m.insert c t) code = if c = code then t else m.at_ code := by
  simp [PaidMap.at_, ExtTreeMap.getD_insert]

/-! ### Memos -/

/-- The white space that `strings.TrimSpace` trims. -/
abbrev isSpace (c : Char) : Bool := Trim.isWhitespace c

/-- `strings.TrimSpace`. -/
def trimSpace (s : List Char) : List Char := Trim.trim isSpace s

/-- What a memo that pays for a code begins with. -/
def memoPrefix : String := "CVPN1:"

/-- The memo failures of the source. -/
inductive MemoError
  | noMemo
  | multiMemo
  | badCode
deriving DecidableEq, Repr

/-- The loop of `MemoParse`: the last code found and how many there were. -/
def memoParseLoop : List String → String → Nat → Except MemoError (String × Nat)
  | [], found, n => .ok (found, n)
  | m :: memos, found, n =>
      if memoPrefix.toList.isPrefixOf m.toList then
        let code := String.ofList (trimSpace (m.toList.drop memoPrefix.length))
        if code = "" then .error .badCode else memoParseLoop memos code (n + 1)
      else memoParseLoop memos found n

/-- The single payment code among a tx's memos. -/
def memoParse (memos : List String) : Except MemoError String :=
  match memoParseLoop memos "" 0 with
  | .error e => .error e
  | .ok (_, 0) => .error .noMemo
  | .ok (found, 1) => .ok found
  | .ok (_, _) => .error .multiMemo

/-! ### One payment -/

/-- A normalized transaction paying the address. -/
structure Tx where
  txID : String
  height : Int
  time : Int
  amountTo : ℚ
  memos : List String
deriving DecidableEq, Repr

/-- The rounding slack of float sums, `1e-9`. -/
def epsilon : ℚ := 1 / 10 ^ 9

/-- `int(q)`: truncation towards zero. -/
def truncInt (q : ℚ) : Int := q.num.tdiv q.den

/-- The payment code of a tx that pays at least one day's worth and carries
exactly one memo. -/
def validPayment (tx : Tx) (_address : String) (priceFlux : ℚ) : Option String :=
  if 30 * (tx.amountTo + epsilon) < priceFlux then none
  else match memoParse tx.memos with
    | .error _ => none
    | .ok c => some c

/-- A grant of `days` on top of `current`, capped at `now + maxPrepaid`. -/
def stack (current : Int) (days : Int) (now : Int) : Int :=
  let base := if current < now then now else current
  let result := base + wrapInt64 (days * day)
  if result > now + maxPrepaid then now + maxPrepaid else result

/-- The days a tx buys at price `p`. -/
def grantDays (tx : Tx) (p : ℚ) : Int := truncInt (30 * (tx.amountTo + epsilon) / p)

/-- One tx applied to `m` under `sched`: the code it credits, that code's
paid_until before the grant, and the map after it. -/
def grant (m : PaidMap) (tx : Tx) (address : String) (sched : Schedule) :
    Option (String × Int × PaidMap) :=
  let p := sched.effective tx.height
  match validPayment tx address p with
  | none => none
  | some code =>
      let days := grantDays tx p
      if days < 1 then none
      else
        let prev := m.at_ code
        some (code, prev, m.insert code (stack prev days tx.time))

/-- The code and the days a tx credits under `sched`. -/
def credit (tx : Tx) (address : String) (sched : Schedule) : Option (String × Int) :=
  (validPayment tx address (sched.effective tx.height)).bind fun code =>
    if grantDays tx (sched.effective tx.height) < 1 then none
    else some (code, grantDays tx (sched.effective tx.height))

/-- What a tx credits does not depend on the map it is stacked onto. -/
lemma grant_eq (m : PaidMap) (tx : Tx) (address : String) (sched : Schedule) :
    grant m tx address sched = (credit tx address sched).map fun c =>
      (c.1, m.at_ c.1, m.insert c.1 (stack (m.at_ c.1) c.2 tx.time)) := by
  cases hv : validPayment tx address (sched.effective tx.height) with
  | none => simp [grant, credit, hv]
  | some code =>
      by_cases hd : grantDays tx (sched.effective tx.height) < 1 <;> simp [grant, credit, hv, hd]

/-- The map after one tx: a tx that grants nothing leaves it alone. -/
def grantTo (address : String) (sched : Schedule) (m : PaidMap) (tx : Tx) : PaidMap :=
  match credit tx address sched with
  | none => m
  | some (code, days) => m.insert code (stack (m.at_ code) days tx.time)

/-- A schedule that appends entries above a tx credits it the same. -/
lemma credit_extends {s prev : Schedule} {a : Int} (hext : s.Extends prev a) {tx : Tx}
    (hle : tx.height ≤ a) (address : String) : credit tx address s = credit tx address prev := by
  rw [credit, credit, hext.effective_eq hle]

/-! ### The engine -/

/-- The answers of the chain during one scan: the current height, and the
txs paying an address above a height, oldest first. -/
structure TxSource where
  blockCount : Except String Int
  addressTxs : String → Int → Except String (List Tx)

/-- The part of the engine that is derived from the chain: what decides
later grants. -/
structure Ledger where
  address : String
  /-- the schedule `paidUntil` was derived under -/
  sched : Schedule
  paidUntil : PaidMap
  lastBlock : Int
  /-- folded txids near the cursor, with their heights -/
  seen : SeenMap
  /-- `seen` is only complete above this height -/
  seenFrom : Int

/-- The engine: the derived state and its bookkeeping. -/
structure Engine extends Ledger where
  /-- the latest chain height reported, what a quote prices -/
  tip : Int
  /-- a schedule handed over by `Reprice` -/
  pending : Option Schedule
  statePath : String
  dirty : Bool
  lastSaved : Int

/-- `scanFromLocked`: the height a scan reads history above. -/
def Ledger.scanFrom (l : Ledger) : Int :=
  let from_ := l.lastBlock - overlapBlocks
  let from_ := if from_ < l.seenFrom then l.seenFrom else from_
  if from_ < 0 then 0 else from_

/-- The end of a scan: the cursor moves to `height` and `seen` forgets what
it holds at `height - overlapBlocks` and below. -/
def Ledger.advance (l : Ledger) (height : Int) : Ledger :=
  { l with
    lastBlock := height
    seen := l.seen.filter fun _ h => ¬ h ≤ height - overlapBlocks }

/-- `New`: an empty engine. -/
def Engine.new (address : String) (sched : Schedule) : Engine where
  address := address
  sched := sched
  paidUntil := ∅
  lastBlock := 0
  tip := 0
  seen := ∅
  seenFrom := 0
  pending := none
  statePath := ""
  dirty := false
  lastSaved := zeroTime

namespace Engine

/-- One tx of a batch: skipped when it is unconfirmed, above `upTo` or
already folded; else recorded in `seen` and granted. -/
def applyTx (e : Engine) (tx : Tx) (upTo : Int) : Engine × Bool :=
  if tx.height ≤ 0 ∨ tx.height > upTo then (e, false)
  else if e.seen.contains tx.txID ∧ tx.txID ≠ "" then (e, false)
  else
    let e := if tx.txID ≠ "" then { e with seen := e.seen.insert tx.txID tx.height } else e
    match grant e.paidUntil tx e.address e.sched with
    | none => (e, false)
    | some (_, _, m) => ({ e with paidUntil := m, dirty := true }, true)

/-- A batch of oldest-first txs, with the number of grants applied. -/
def applyTxs (e : Engine) : List Tx → Int → Engine × Nat
  | [], _ => (e, 0)
  | tx :: txs, upTo =>
      let (e, granted) := e.applyTx tx upTo
      let (e, n) := e.applyTxs txs upTo
      (e, if granted then n + 1 else n)

/-- Fold every payment up to the current chain height and advance the cursor
to it; `force` scans even when no new block has arrived. -/
def scan (e : Engine) (src : TxSource) (force : Bool) : Engine × Except String Nat :=
  match src.blockCount with
  | .error err => (e, .error err)
  | .ok height =>
      if height ≤ 0 then (e, .error s!"entitle: implausible chain height {height}")
      else
        let e := if height > e.tip then { e with tip := height } else e
        if height < e.lastBlock ∨ (height = e.lastBlock ∧ ¬ force) then (e, .ok 0)
        else match src.addressTxs e.address e.scanFrom with
          | .error err => (e, .error err)
          | .ok txs =>
              let (e, granted) := e.applyTxs txs height
              ({ e with toLedger := e.toLedger.advance height, dirty := true }, .ok granted)

/-- `Tier`: whether a code is premium at `now`, and until when. -/
def tier (paymentCode : String → String) (e : Engine) (pubkey : String) (now : Int) :
    Bool × Int :=
  if paymentCode pubkey = "" then (false, zeroTime)
  else (now < e.paidUntil.at_ (paymentCode pubkey), e.paidUntil.at_ (paymentCode pubkey))

end Engine

end CumulusVpn
