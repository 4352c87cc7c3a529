/-
The payments table and the ledger of held outpoints
(`bridge/src/db/payments.ts`).

* `PaymentRow`, `Db`: the tables;
* `Db.insertIdempotent`, `Db.nextPending`, `Db.allBroadcast`,
  `Db.markBroadcast`, `Db.markConfirmed`, `Db.resetExpired`,
  `Db.recordFailure`: the statements;
* `mem_updateRow`: what an update by id leaves in the table;
* `Db.HasKeys`: ids are distinct; `map_id_updateRow` and
  `Db.HasKeys.insertIdempotent`: every statement keeps them so;
* `Db.UniqueEvents`: no event has two rows, which an insert keeps.
-/
import Mathlib.Data.List.Nodup
import CumulusVpn.Bridge.Flux

namespace CumulusVpn.Bridge

/-- Where a payment came from. -/
inductive Rail
  | stripe
  | apple
  | google
  | voucher
deriving DecidableEq, Repr

/-- How far a payment has come. -/
inductive PaymentStatus
  | pending
  | broadcast
  | confirmed
  | failed
deriving DecidableEq, Repr

/-- A row of the `payments` table. -/
structure PaymentRow where
  id : Nat
  rail : Rail
  eventKey : String
  externalRef : String
  paymentCode : String
  days : Int
  fluxZats : Int
  status : PaymentStatus
  txid : Option String
  rawHex : Option RawTx
  expiryHeight : Option Int
  attempts : Nat
  nextRetryAt : Int
  lastError : Option String
  createdAt : Int
  broadcastAt : Option Int
  confirmedAt : Option Int
deriving DecidableEq, Repr

/-- A row of the `spent_outpoints` table. -/
structure SpentOutpoint where
  outpoint : Outpoint
  spentBy : String
  createdAt : Int
deriving DecidableEq, Repr

/-- The two tables; `payments` is ordered by id. -/
structure Db where
  payments : List PaymentRow
  spentOutpoints : List SpentOutpoint

/-- A payment to be queued. -/
structure NewPayment where
  rail : Rail
  eventKey : String
  externalRef : String
  paymentCode : String
  days : Int
  fluxZats : Int

/-- `UPDATE payments … WHERE id = ?`. -/
def updateRow (id : Nat) (f : PaymentRow → PaymentRow) (rows : List PaymentRow) :
    List PaymentRow :=
  rows.map fun r => if r.id = id then f r else r

namespace Db

/-- The next `INTEGER PRIMARY KEY`: rows are never deleted. -/
def nextId (db : Db) : Nat := (db.payments.map PaymentRow.id).foldr max 0 + 1

/-- Inserts a row unless this `(rail, event_key)` was already recorded. -/
def insertIdempotent (db : Db) (p : NewPayment) (now : Int) : Db × Option Nat :=
  if db.payments.any fun r => r.rail = p.rail ∧ r.eventKey = p.eventKey then (db, none)
  else
    ({ db with
        payments := db.payments ++
          [{ id := db.nextId
             rail := p.rail
             eventKey := p.eventKey
             externalRef := p.externalRef
             paymentCode := p.paymentCode
             days := p.days
             fluxZats := p.fluxZats
             status := .pending
             txid := none
             rawHex := none
             expiryHeight := none
             attempts := 0
             nextRetryAt := 0
             lastError := none
             createdAt := now
             broadcastAt := none
             confirmedAt := none }] },
      some db.nextId)

/-- The oldest pending payment whose retry time has come. -/
def nextPending (db : Db) (now : Int) : Option PaymentRow :=
  db.payments.find? fun r => r.status = .pending ∧ r.nextRetryAt ≤ now

/-- The rows whose tx has been sent and is not confirmed. -/
def allBroadcast (db : Db) : List PaymentRow :=
  db.payments.filter fun r => r.status = .broadcast

/-- `INSERT OR IGNORE INTO spent_outpoints`. -/
def insertSpent (spent : List SpentOutpoint) (o : SpentOutpoint) : List SpentOutpoint :=
  if spent.any fun s => s.outpoint = o.outpoint then spent else spent ++ [o]

/-- Write-ahead commit of an intended spend. -/
def markBroadcast (db : Db) (id : Nat) (txid : String) (tx : RawTx) (fluxZats now : Int) : Db where
  payments := updateRow id (fun r =>
    { r with
      status := .broadcast
      txid := some txid
      rawHex := some tx
      expiryHeight := some tx.expiryHeight
      broadcastAt := some now
      lastError := none
      fluxZats := fluxZats }) db.payments
  spentOutpoints :=
    tx.inputs.foldl (fun spent o => insertSpent spent ⟨o, txid, now⟩) db.spentOutpoints

/-- A row is confirmed, and its coins are the chain's business. -/
def markConfirmed (db : Db) (id : Nat) (now : Int) : Db where
  payments := updateRow id (fun r =>
    { r with status := .confirmed, rawHex := none, confirmedAt := some now }) db.payments
  spentOutpoints :=
    match (db.payments.find? fun r => r.id = id).bind PaymentRow.txid with
    | none => db.spentOutpoints
    | some txid =>
        if txid = "" then db.spentOutpoints
        else db.spentOutpoints.filter fun s => s.spentBy ≠ txid

/-- Forgets a tx that expired unmined and requeues the row for a fresh
build. -/
def resetExpired (db : Db) (id : Nat) (staleTxid : String) : Db where
  payments := updateRow id (fun r =>
    { r with
      status := .pending
      txid := none
      rawHex := none
      expiryHeight := none
      broadcastAt := none
      nextRetryAt := 0
      lastError := some "tx expired unmined" }) db.payments
  spentOutpoints := db.spentOutpoints.filter fun s => s.spentBy ≠ staleTxid

/-- Records a failed attempt with exponential backoff (1 min to 6 h). -/
def recordFailure (db : Db) (id attempts : Nat) (error : String) (now : Int) : Db where
  payments := updateRow id (fun r =>
    { r with
      attempts := attempts + 1
      nextRetryAt := now + min (60 * 2 ^ attempts) (6 * 3600)
      lastError := some (String.ofList (error.toList.take 500)) }) db.payments
  spentOutpoints := db.spentOutpoints

/-- The outpoints that in-flight txs already consume. -/
def excluded (db : Db) : List Outpoint := db.spentOutpoints.map SpentOutpoint.outpoint

end Db

/-! ### Rows and their ids -/

/-- Row ids are distinct. -/
def Db.HasKeys (db : Db) : Prop := (db.payments.map PaymentRow.id).Nodup

lemma Db.HasKeys.eq_of_id {db : Db} (h : db.HasKeys) {r r' : PaymentRow} (hr : r ∈ db.payments)
    (hr' : r' ∈ db.payments) (hid : r.id = r'.id) : r = r' :=
  List.inj_on_of_nodup_map h hr hr' hid

lemma mem_updateRow {id : Nat} {f : PaymentRow → PaymentRow} {rows : List PaymentRow}
    {r : PaymentRow} :
    r ∈ updateRow id f rows ↔
      (r ∈ rows ∧ r.id ≠ id) ∨ ∃ r₀ ∈ rows, r₀.id = id ∧ r = f r₀ := by
  rw [updateRow, List.mem_map]
  constructor
  · rintro ⟨r₀, hmem, rfl⟩
    by_cases hid : r₀.id = id
    · rw [if_pos hid]
      exact Or.inr ⟨r₀, hmem, hid, rfl⟩
    · rw [if_neg hid]
      exact Or.inl ⟨hmem, hid⟩
  · rintro (⟨hmem, hid⟩ | ⟨r₀, hmem, hid, rfl⟩)
    · exact ⟨r, hmem, if_neg hid⟩
    · exact ⟨r₀, hmem, if_pos hid⟩

/-- An update that leaves a datum of the rows alone keeps its list. -/
lemma map_updateRow {β : Type} {g : PaymentRow → β} {id : Nat} {f : PaymentRow → PaymentRow}
    (hf : ∀ r, g (f r) = g r) (rows : List PaymentRow) :
    (updateRow id f rows).map g = rows.map g := by
  rw [updateRow, List.map_map]
  refine List.map_congr_left fun r _ => ?_
  rw [Function.comp_apply]
  split
  · exact hf r
  · rfl

lemma map_id_updateRow {id : Nat} {f : PaymentRow → PaymentRow} (hf : ∀ r, (f r).id = r.id)
    (rows : List PaymentRow) :
    (updateRow id f rows).map PaymentRow.id = rows.map PaymentRow.id :=
  map_updateRow hf rows

lemma le_foldr_max {ns : List Nat} {n : Nat} (hn : n ∈ ns) : n ≤ ns.foldr max 0 := by
  induction ns with
  | nil => cases hn
  | cons m ns ih =>
      rcases List.mem_cons.mp hn with rfl | hn
      · exact le_max_left _ _
      · exact (ih hn).trans (le_max_right _ _)

lemma Db.lt_nextId {db : Db} {r : PaymentRow} (h : r ∈ db.payments) : r.id < db.nextId :=
  Nat.lt_succ_of_le (le_foldr_max (List.mem_map_of_mem h))

/-- An insert adds at most one row, pending and with a new id. -/
lemma Db.payments_insertIdempotent (db : Db) (p : NewPayment) (now : Int) :
    (db.insertIdempotent p now).1.payments = db.payments ∨
      ∃ r, r.id = db.nextId ∧ r.status = .pending ∧
        (db.insertIdempotent p now).1.payments = db.payments ++ [r] := by
  rw [Db.insertIdempotent]
  split
  · exact Or.inl rfl
  · exact Or.inr ⟨_, rfl, rfl, rfl⟩

/-- An insert keeps the rows. -/
lemma Db.mem_insertIdempotent {db : Db} {r : PaymentRow} (h : r ∈ db.payments) (p : NewPayment)
    (now : Int) : r ∈ (db.insertIdempotent p now).1.payments := by
  rcases db.payments_insertIdempotent p now with heq | ⟨_, -, -, heq⟩
  · rwa [heq]
  · rw [heq]
    exact List.mem_append_left _ h

lemma Db.HasKeys.insertIdempotent {db : Db} (h : db.HasKeys) (p : NewPayment) (now : Int) :
    (db.insertIdempotent p now).1.HasKeys := by
  rcases db.payments_insertIdempotent p now with heq | ⟨r, hid, -, heq⟩
  · rwa [HasKeys, heq]
  · rw [HasKeys, heq, List.map_append, List.nodup_append]
    refine ⟨h, List.nodup_singleton _, ?_⟩
    intro i hi j hj
    obtain ⟨r', hr', rfl⟩ := List.mem_map.mp hi
    obtain rfl : j = r.id := by simpa using hj
    have hlt := db.lt_nextId hr'
    omega

/-! ### Events -/

/-- The event of a row: `UNIQUE (rail, event_key)`. -/
def PaymentRow.event (r : PaymentRow) : Rail × String := (r.rail, r.eventKey)

/-- No event has two rows. -/
def Db.UniqueEvents (db : Db) : Prop := (db.payments.map PaymentRow.event).Nodup

/-- A new row is that of the inserted payment, whose event had none. -/
lemma Db.insertIdempotent_cases (db : Db) (p : NewPayment) (now : Int) :
    ((∃ r ∈ db.payments, r.rail = p.rail ∧ r.eventKey = p.eventKey) ∧
        (db.insertIdempotent p now).1 = db) ∨
      ((∀ r ∈ db.payments, r.event ≠ (p.rail, p.eventKey)) ∧
        ∃ r, r.event = (p.rail, p.eventKey) ∧ r.days = p.days ∧
          (db.insertIdempotent p now).1.payments = db.payments ++ [r]) := by
  rw [Db.insertIdempotent]
  split
  · rename_i hany
    simp only [List.any_eq_true, decide_eq_true_eq] at hany
    exact Or.inl ⟨hany, rfl⟩
  · rename_i hnone
    simp only [List.any_eq_true, decide_eq_true_eq, not_exists, not_and] at hnone
    refine Or.inr ⟨fun r hr hevent => ?_, _, rfl, rfl, rfl⟩
    exact hnone r hr (congrArg Prod.fst hevent) (congrArg Prod.snd hevent)

lemma Db.UniqueEvents.insertIdempotent {db : Db} (h : db.UniqueEvents) (p : NewPayment)
    (now : Int) : (db.insertIdempotent p now).1.UniqueEvents := by
  rcases db.insertIdempotent_cases p now with ⟨-, heq⟩ | ⟨hnew, r, hevent, -, heq⟩
  · rwa [heq]
  · rw [UniqueEvents, heq, List.map_append, List.nodup_append]
    refine ⟨h, List.nodup_singleton _, ?_⟩
    rintro _ hmem _ hr rfl
    obtain ⟨r', hr', hsame⟩ := List.mem_map.mp hmem
    rw [List.map_singleton, List.mem_singleton] at hr
    exact hnew r' hr' (hsame.trans (hr.trans hevent))

end CumulusVpn.Bridge
