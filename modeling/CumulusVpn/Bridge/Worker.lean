/-
The bridge's workers and the chain they pay on
(`bridge/src/worker/broadcaster.ts`, `bridge/src/worker/confirmer.ts`,
`ChainClient` of `bridge/src/flux/chain.ts`).

A step runs one worker from one await to the next, records a grant, lets the
process crash, or adds a block.  The answers of the chain client are inputs
of the steps: any tip, any list of coins, any lookup result, except that a
`not-found` tells the truth about a view of the chain that is at most
`expirySlack` blocks behind the tip the confirmer read.

* `Broadcaster`, `Confirmer`: where a worker waits, with what it remembers;
* `Chain.includeTx`, `Chain.block`: a submitted tx is mined at most up to its
  expiry height, and spends its coins for good;
* `System`, `step`: the whole, with the ghost list `built` of the txs built
  for each row;
* `anyStep`: the same without that condition on the answers;
* `anyStep_statement`: **what a step does to the tables**.
-/
import CumulusVpn.Bridge.Payments
import CumulusVpn.Lib.StepSystem

namespace CumulusVpn.Bridge

open StepSystem

/-- Blocks past nExpiryHeight before a positively absent tx is declared
dead. -/
def expirySlack : Int := 20

/-! ### The chain -/

/-- A tx in a block. -/
structure Mined where
  tx : RawTx
  height : Int
deriving DecidableEq, Repr

/-- The chain, newest tx first; blocks are not reorganised. -/
structure Chain where
  height : Int
  mined : List Mined

namespace Chain

/-- A coin is spent by a mined tx. -/
def Spent (c : Chain) (o : Outpoint) : Prop := ∃ m ∈ c.mined, o ∈ m.tx.inputs

instance (c : Chain) (o : Outpoint) : Decidable (c.Spent o) :=
  inferInstanceAs (Decidable (∃ m ∈ c.mined, _))

/-- One tx of the block at the current height. -/
def includeTx (submitted : List RawTx) (c : Chain) (tx : RawTx) : Option Chain :=
  if tx ∈ submitted ∧ c.height ≤ tx.expiryHeight ∧ ∀ o ∈ tx.inputs, ¬ c.Spent o then
    some { c with mined := ⟨tx, c.height⟩ :: c.mined }
  else none

/-- A new block with the given txs. -/
def block (submitted : List RawTx) (c : Chain) (txs : List RawTx) : Option Chain :=
  exec (includeTx submitted) { c with height := c.height + 1 } txs

end Chain

/-! ### The workers -/

/-- Where the broadcaster stands. -/
inductive Broadcaster
  /-- between two ticks -/
  | idle
  /-- awaiting the tip and the coins for a pending row -/
  | reading (row : PaymentRow)
  /-- awaiting the response to the submission -/
  | sending

/-- Where the confirmer stands. -/
inductive Confirmer
  /-- between two ticks -/
  | idle
  /-- awaiting the tip, with the broadcast rows read from the table -/
  | readingTip (rows : List PaymentRow)
  /-- awaiting the lookup of `txid` for `row` -/
  | lookup (tip : Int) (row : PaymentRow) (txid : String) (rest : List PaymentRow)
  /-- awaiting the response to a resubmission -/
  | resending (tip : Int) (rest : List PaymentRow)

/-- The next row of a confirmer tick that has a txid. -/
def Confirmer.next (tip : Int) : List PaymentRow → Confirmer
  | [] => .idle
  | row :: rest =>
      match row.txid with
      | none => next tip rest
      | some txid => if txid = "" then next tip rest else .lookup tip row txid rest

/-- What `ChainClient.tx` comes back with. -/
inductive TxAnswer
  | found (confirmations : Nat)
  /-- the daemon does not know the tx, in its view of the chain -/
  | notFound (view : Int)
  /-- a transport error -/
  | failed

/-- The bridge: its database, its two workers, and the chain. -/
structure System where
  db : Db
  broadcaster : Broadcaster
  confirmer : Confirmer
  chain : Chain
  /-- the txs that ever left the process -/
  submitted : List RawTx
  /-- the txs ever built, with the row they were built for -/
  built : List (Nat × RawTx)

/-- An empty database at some height of the chain. -/
def System.init (height : Int) : System where
  db := ⟨[], []⟩
  broadcaster := .idle
  confirmer := .idle
  chain := ⟨height, []⟩
  submitted := []
  built := []

/-- What happens to the system. -/
inductive Action
  /-- a verified payment event -/
  | grant (p : NewPayment) (now : Int)
  /-- the broadcaster's timer fires -/
  | broadcasterTick (now : Int)
  /-- its chain reads come back -/
  | chainRead (tip : Int) (utxos : List Utxo) (now : Int)
  | chainReadFailed (error : String) (now : Int)
  /-- the submission is answered, or its response is lost -/
  | submitDone
  /-- the confirmer's timer fires -/
  | confirmerTick
  | tipRead (tip : Int)
  | tipReadFailed
  | txRead (answer : TxAnswer) (now : Int)
  | resubmitDone
  /-- the process dies and starts again -/
  | crash
  /-- a block with these txs -/
  | block (txs : List RawTx)

/-- A `not-found` is a positive answer about a view that is at least as high
as the tip less `expirySlack`. -/
def TxAnswer.Truthful (c : Config) (chain : Chain) (tip : Int) (txid : String) :
    TxAnswer → Prop
  | .notFound view =>
      tip - expirySlack ≤ view ∧ view ≤ chain.height ∧
        ∀ m ∈ chain.mined, c.txid m.tx = txid → view < m.height
  | .found _ => True
  | .failed => True

instance (c : Config) (chain : Chain) (tip : Int) (txid : String) (a : TxAnswer) :
    Decidable (a.Truthful c chain tip txid) := by
  cases a with
  | notFound view => exact inferInstanceAs (Decidable (_ ∧ _ ∧ ∀ m ∈ chain.mined, _))
  | found n => exact inferInstanceAs (Decidable True)
  | failed => exact inferInstanceAs (Decidable True)

/-- `recordGrant`: invalid codes are refused. -/
def recordGrant (c : Config) (s : System) (p : NewPayment) (now : Int) : System :=
  if c.isValidPaymentCode p.paymentCode then
    { s with db := (s.db.insertIdempotent p now).1 }
  else s

/-- The broadcaster after its chain reads: the bytes and the held outpoints
are persisted before the tx leaves the process. -/
def broadcastRow (c : Config) (s : System) (row : PaymentRow) (tip : Int) (utxos : List Utxo)
    (now : Int) : System :=
  match preparePayment c tip utxos s.db.excluded row.days row.paymentCode with
  | .error err =>
      { s with
        db := s.db.recordFailure row.id row.attempts err.message now
        broadcaster := .idle }
  | .ok (tx, amountZats) =>
      { s with
        db := s.db.markBroadcast row.id (c.txid tx) tx amountZats now
        broadcaster := .sending
        submitted := tx :: s.submitted
        built := (row.id, tx) :: s.built }

/-- The confirmer after the lookup of a row's tx. -/
def confirmRow (s : System) (tip : Int) (row : PaymentRow) (txid : String)
    (rest : List PaymentRow) (answer : TxAnswer) (now : Int) : System :=
  match answer with
  | .failed => { s with confirmer := .next tip rest }
  | .found confirmations =>
      if confirmations ≥ 1 then
        { s with db := s.db.markConfirmed row.id now, confirmer := .next tip rest }
      else { s with confirmer := .next tip rest }
  | .notFound _ =>
      if row.expiryHeight.any fun h => tip > h + expirySlack then
        { s with db := s.db.resetExpired row.id txid, confirmer := .next tip rest }
      else
        match row.rawHex with
        | some tx => { s with submitted := tx :: s.submitted, confirmer := .resending tip rest }
        | none => { s with confirmer := .next tip rest }

/-- One step: from one await to the next. -/
def step (c : Config) (s : System) : Action → Option System
  | .grant p now => some (recordGrant c s p now)
  | .broadcasterTick now =>
      match s.broadcaster with
      | .idle =>
          match s.db.nextPending now with
          | none => some s
          | some row => some { s with broadcaster := .reading row }
      | _ => none
  | .chainRead tip utxos now =>
      match s.broadcaster with
      | .reading row => some (broadcastRow c s row tip utxos now)
      | _ => none
  | .chainReadFailed error now =>
      match s.broadcaster with
      | .reading row =>
          some { s with
            db := s.db.recordFailure row.id row.attempts error now
            broadcaster := .idle }
      | _ => none
  | .submitDone =>
      match s.broadcaster with
      | .sending => some { s with broadcaster := .idle }
      | _ => none
  | .confirmerTick =>
      match s.confirmer with
      | .idle =>
          if s.db.allBroadcast = [] then some s
          else some { s with confirmer := .readingTip s.db.allBroadcast }
      | _ => none
  | .tipRead tip =>
      match s.confirmer with
      | .readingTip rows => some { s with confirmer := .next tip rows }
      | _ => none
  | .tipReadFailed =>
      match s.confirmer with
      | .readingTip _ => some { s with confirmer := .idle }
      | _ => none
  | .txRead answer now =>
      match s.confirmer with
      | .lookup tip row txid rest =>
          if answer.Truthful c s.chain tip txid then
            some (confirmRow s tip row txid rest answer now)
          else none
      | _ => none
  | .resubmitDone =>
      match s.confirmer with
      | .resending tip rest => some { s with confirmer := .next tip rest }
      | _ => none
  | .crash => some { s with broadcaster := .idle, confirmer := .idle }
  | .block txs => (s.chain.block s.submitted txs).map fun chain => { s with chain := chain }

/-- A step of the workers, whatever the chain answers. -/
def anyStep (c : Config) (s : System) : Action → Option System
  | .txRead answer now =>
      match s.confirmer with
      | .lookup tip row txid rest => some (confirmRow s tip row txid rest answer now)
      | _ => none
  | a => step c s a

lemma step_le_anyStep {c : Config} {s s' : System} {a : Action} (h : step c s a = some s') :
    anyStep c s a = some s' := by
  cases a with
  | txRead answer now =>
      simp only [step] at h
      simp only [anyStep]
      split at h
      · split at h
        · exact h
        · cases h
      · cases h
  | _ => exact h

/-! ### What a step does to the tables -/

/-- The statements of a step on the tables. -/
inductive Statement (c : Config) (s : System) (db : Db) : Action → Prop
  | none {a : Action} (h : db = s.db) : Statement c s db a
  | insert (p : NewPayment) (now : Int) (h : db = (s.db.insertIdempotent p now).1) :
      Statement c s db (.grant p now)
  | failure {a : Action} {row : PaymentRow} (hrow : s.broadcaster = .reading row) (error : String)
      (now : Int) (h : db = s.db.recordFailure row.id row.attempts error now) : Statement c s db a
  | broadcast {a : Action} {row : PaymentRow} (hrow : s.broadcaster = .reading row) {tip : Int}
      {utxos : List Utxo} {tx : RawTx} {amountZats : Int}
      (hprepared : preparePayment c tip utxos s.db.excluded row.days row.paymentCode =
        .ok (tx, amountZats)) (now : Int)
      (h : db = s.db.markBroadcast row.id (c.txid tx) tx amountZats now) : Statement c s db a
  | confirmed {a : Action} {tip : Int} {row : PaymentRow} {txid : String} {rest : List PaymentRow}
      (hrow : s.confirmer = .lookup tip row txid rest) (now : Int)
      (h : db = s.db.markConfirmed row.id now) : Statement c s db a
  | expired {a : Action} {tip : Int} {row : PaymentRow} {txid : String} {rest : List PaymentRow}
      (hrow : s.confirmer = .lookup tip row txid rest)
      (h : db = s.db.resetExpired row.id txid) : Statement c s db a

/-- **A step runs at most one statement.** -/
lemma anyStep_statement {c : Config} {s s' : System} {a : Action} (h : anyStep c s a = some s') :
    Statement c s s'.db a := by
  cases a with
  | grant p now =>
      cases h
      rw [recordGrant]
      split
      · exact .insert p now rfl
      · exact .none rfl
  | broadcasterTick now =>
      simp only [anyStep, step] at h
      split at h
      · split at h <;> cases h <;> exact .none rfl
      · cases h
  | chainRead tip utxos now =>
      simp only [anyStep, step] at h
      split at h
      · rename_i row hrow
        cases h
        rw [broadcastRow.eq_def]
        split
        · exact .failure hrow _ now rfl
        · rename_i tx amountZats hprepared
          exact .broadcast hrow hprepared now rfl
      · cases h
  | chainReadFailed error now =>
      simp only [anyStep, step] at h
      split at h
      · rename_i row hrow
        cases h
        exact .failure hrow error now rfl
      · cases h
  | submitDone =>
      simp only [anyStep, step] at h
      split at h <;> cases h
      exact .none rfl
  | confirmerTick =>
      simp only [anyStep, step] at h
      split at h
      · split at h <;> cases h <;> exact .none rfl
      · cases h
  | tipRead tip =>
      simp only [anyStep, step] at h
      split at h <;> cases h
      exact .none rfl
  | tipReadFailed =>
      simp only [anyStep, step] at h
      split at h <;> cases h
      exact .none rfl
  | txRead answer now =>
      simp only [anyStep] at h
      split at h
      · rename_i tip row txid rest hrow
        cases h
        rw [confirmRow.eq_def]
        split
        · exact .none rfl
        · split
          · exact .confirmed hrow now rfl
          · exact .none rfl
        · split
          · exact .expired hrow rfl
          · split <;> exact .none rfl
      · cases h
  | resubmitDone =>
      simp only [anyStep, step] at h
      split at h <;> cases h
      exact .none rfl
  | crash =>
      cases h
      exact .none rfl
  | block txs =>
      obtain ⟨chain, -, rfl⟩ := Option.map_eq_some_iff.mp h
      exact .none rfl

end CumulusVpn.Bridge
