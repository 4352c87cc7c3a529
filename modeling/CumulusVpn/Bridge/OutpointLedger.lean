/-
The ledger of held outpoints (`bridge/src/db/payments.ts`,
`bridge/src/worker/`).

* `Ledger`: the held outpoints are the inputs of the broadcast rows, each with
  the txid of its row, and no outpoint is the input of two;
* `Accounts.insert`, `Accounts.recordFailure`, `Accounts.markBroadcast`,
  `Accounts.release`: every statement keeps it;
* `pending_step`: a pending row stays so, or leaves with its bytes;
* `outpoint_ledger`: **it holds in every reachable state, and a row leaves
  `pending` only together with its bytes and its inputs**.
-/
import CumulusVpn.Bridge.PayOnce

namespace CumulusVpn.Bridge

open StepSystem

/-! ### The ledger -/

/-- The row holds the outpoint under this txid. -/
def PaymentRow.Holds (r : PaymentRow) (o : Outpoint) (txid : String) : Prop :=
  r.status = .broadcast ∧ r.txid = some txid ∧ ∃ tx, r.rawHex = some tx ∧ o ∈ tx.inputs

/-- The held outpoints are exactly the inputs of the broadcast rows. -/
structure Ledger (db : Db) : Prop where
  held : ∀ o txid, (∃ e ∈ db.spentOutpoints, e.outpoint = o ∧ e.spentBy = txid) ↔
    ∃ r ∈ db.payments, r.Holds o txid
  disjoint : ∀ r ∈ db.payments, ∀ r' ∈ db.payments, ∀ o txid txid',
    r.Holds o txid → r'.Holds o txid' → r.id = r'.id
  once : (db.spentOutpoints.map SpentOutpoint.outpoint).Nodup
  bare : ∀ r ∈ db.payments, r.status ≠ .broadcast → r.rawHex = none

/-- The row has left `pending` with its bytes, and its inputs are held. -/
def Reserved (c : Config) (db : Db) (r : PaymentRow) : Prop :=
  r.status = .broadcast ∧ ∃ tx, r.rawHex = some tx ∧ r.txid = some (c.txid tx) ∧
    tx.inputs ≠ [] ∧
    ∀ o ∈ tx.inputs, ∃ e ∈ db.spentOutpoints, e.outpoint = o ∧ e.spentBy = c.txid tx

/-- No two of the built txs share a txid. -/
def NoCollision (c : Config) (built : List (Nat × RawTx)) : Prop :=
  ∀ b ∈ built, ∀ b' ∈ built, c.txid b.2 = c.txid b'.2 → b.2 = b'.2

instance (c : Config) (built : List (Nat × RawTx)) : Decidable (NoCollision c built) :=
  inferInstanceAs (Decidable (∀ b ∈ built, ∀ b' ∈ built, _))

/-! ### What the statements keep -/

/-- The ledger, and the broadcast rows hold txs that were built. -/
structure Accounts (c : Config) (db : Db) (built : List (Nat × RawTx)) : Prop extends
    Ledger db where
  rows : ∀ r ∈ db.payments, r.status = .broadcast → ∃ tx, r.rawHex = some tx ∧
    r.txid = some (c.txid tx) ∧ tx.inputs ≠ [] ∧ ∃ id, (id, tx) ∈ built

/-- What the ledger reads of a row. -/
def PaymentRow.core (r : PaymentRow) : Nat × PaymentStatus × Option String × Option RawTx :=
  (r.id, r.status, r.txid, r.rawHex)

lemma holds_congr {r r' : PaymentRow} (h : r.core = r'.core) (o : Outpoint) (txid : String) :
    r.Holds o txid ↔ r'.Holds o txid := by
  simp only [PaymentRow.core, Prod.mk.injEq] at h
  rw [PaymentRow.Holds, PaymentRow.Holds, h.2.1, h.2.2.1, h.2.2.2]

/-- An update of one row by id, in a table whose ids are distinct. -/
lemma Db.HasKeys.mem_updateRow {db : Db} (keys : db.HasKeys) {r : PaymentRow}
    (hr : r ∈ db.payments) {f : PaymentRow → PaymentRow} {r' : PaymentRow} :
    r' ∈ updateRow r.id f db.payments ↔ (r' ∈ db.payments ∧ r'.id ≠ r.id) ∨ r' = f r := by
  rw [Bridge.mem_updateRow]
  refine or_congr_right ⟨?_, ?_⟩
  · rintro ⟨r₀, hmem, hid, rfl⟩
    rw [keys.eq_of_id hmem hr hid]
  · rintro rfl
    exact ⟨r, hr, rfl, rfl⟩

section Statements

variable {c : Config} {db db' : Db} {built : List (Nat × RawTx)} {r : PaymentRow}

/-- A statement that keeps what the ledger reads. -/
lemma Accounts.frame (h : Accounts c db built)
    (hrows : db'.payments.map PaymentRow.core = db.payments.map PaymentRow.core)
    (hspent : db'.spentOutpoints = db.spentOutpoints) : Accounts c db' built := by
  have hback : ∀ r' ∈ db'.payments, ∃ r ∈ db.payments, r.core = r'.core := by
    intro r' hr'
    have hmem := List.mem_map_of_mem (f := PaymentRow.core) hr'
    rw [hrows] at hmem
    exact List.mem_map.mp hmem
  have hforth : ∀ r ∈ db.payments, ∃ r' ∈ db'.payments, r'.core = r.core := by
    intro r hr
    have hmem := List.mem_map_of_mem (f := PaymentRow.core) hr
    rw [← hrows] at hmem
    exact List.mem_map.mp hmem
  refine ⟨⟨fun o txid => ?_, ?_, hspent ▸ h.once, ?_⟩, ?_⟩
  · rw [hspent, h.held o txid]
    constructor
    · rintro ⟨r, hr, hholds⟩
      obtain ⟨r', hr', hcore⟩ := hforth r hr
      exact ⟨r', hr', (holds_congr hcore o txid).mpr hholds⟩
    · rintro ⟨r', hr', hholds⟩
      obtain ⟨r, hr, hcore⟩ := hback r' hr'
      exact ⟨r, hr, (holds_congr hcore o txid).mpr hholds⟩
  · intro r₁ hr₁ r₂ hr₂ o txid txid' hholds₁ hholds₂
    obtain ⟨r, hr, hcore⟩ := hback r₁ hr₁
    obtain ⟨r', hr', hcore'⟩ := hback r₂ hr₂
    have hid := h.disjoint r hr r' hr' o txid txid' ((holds_congr hcore o txid).mpr hholds₁)
      ((holds_congr hcore' o txid').mpr hholds₂)
    exact (congrArg Prod.fst hcore).symm.trans (hid.trans (congrArg Prod.fst hcore'))
  · intro r' hr' hstatus
    obtain ⟨r, hr, hcore⟩ := hback r' hr'
    simp only [PaymentRow.core, Prod.mk.injEq] at hcore
    rw [← hcore.2.2.2]
    exact h.bare r hr (hcore.2.1 ▸ hstatus)
  · intro r' hr' hstatus
    obtain ⟨r, hr, hcore⟩ := hback r' hr'
    simp only [PaymentRow.core, Prod.mk.injEq] at hcore
    rw [← hcore.2.2.1, ← hcore.2.2.2]
    exact h.rows r hr (hcore.2.1 ▸ hstatus)

/-- A new row holds nothing. -/
lemma Accounts.insert (h : Accounts c db built) (p : NewPayment) (now : Int) :
    Accounts c (db.insertIdempotent p now).1 built := by
  have hnew : (db.insertIdempotent p now).1 = db ∨ ∃ new : PaymentRow, new.status = .pending ∧
      new.rawHex = none ∧
      (db.insertIdempotent p now).1 = { db with payments := db.payments ++ [new] } := by
    rw [Db.insertIdempotent]
    split
    · exact Or.inl rfl
    · exact Or.inr ⟨_, rfl, rfl, rfl⟩
  rcases hnew with heq | ⟨new, hpending, hbare, heq⟩
  · rwa [heq]
  · have hold : ∀ r ∈ db.payments ++ [new], r.status = .broadcast → r ∈ db.payments := by
      intro r hr hb
      rcases List.mem_append.mp hr with hr | hr
      · exact hr
      · rw [List.mem_singleton.mp hr, hpending] at hb
        cases hb
    rw [heq]
    refine ⟨⟨fun o txid => (h.held o txid).trans ⟨?_, ?_⟩, ?_, h.once, ?_⟩, ?_⟩
    · rintro ⟨r, hr, hholds⟩
      exact ⟨r, List.mem_append_left _ hr, hholds⟩
    · rintro ⟨r, hr, hholds⟩
      exact ⟨r, hold r hr hholds.1, hholds⟩
    · intro r hr r' hr' o txid txid' hholds hholds'
      exact h.disjoint r (hold r hr hholds.1) r' (hold r' hr' hholds'.1) o txid txid' hholds hholds'
    · intro r hr hstatus
      rcases List.mem_append.mp hr with hr | hr
      · exact h.bare r hr hstatus
      · rw [List.mem_singleton.mp hr, hbare]
    · exact fun r hr hb => h.rows r (hold r hr hb) hb

lemma Accounts.recordFailure (h : Accounts c db built) (id attempts : Nat) (error : String)
    (now : Int) : Accounts c (db.recordFailure id attempts error now) built :=
  h.frame (map_updateRow (g := PaymentRow.core) (by exact fun _ => rfl) _) rfl

/-- A row that was broadcast lets its inputs go. -/
lemma Accounts.release (h : Accounts c db built) (keys : db.HasKeys) (hr : r ∈ db.payments)
    (hbroadcast : r.status = .broadcast) {txid : String} (htxid : r.txid = some txid)
    (hcollision : NoCollision c built) {f : PaymentRow → PaymentRow}
    (hstatus : (f r).status ≠ .broadcast) (hbare : (f r).rawHex = none) :
    Accounts c ⟨updateRow r.id f db.payments,
      db.spentOutpoints.filter fun e => e.spentBy ≠ txid⟩ built := by
  obtain ⟨tx, hraw, htx, hne, id, hbuilt⟩ := h.rows r hr hbroadcast
  obtain rfl : c.txid tx = txid := Option.some_inj.mp (htx.symm.trans htxid)
  have hold : ∀ r' ∈ updateRow r.id f db.payments, r'.status = .broadcast →
      r' ∈ db.payments ∧ r'.id ≠ r.id := by
    intro r' hr' hb
    rcases (keys.mem_updateRow hr).mp hr' with hmem | rfl
    · exact hmem
    · exact absurd hb hstatus
  -- another broadcast row has another txid, since they share no input
  have hother : ∀ r' ∈ db.payments, r'.id ≠ r.id → ∀ o txid', r'.Holds o txid' →
      txid' ≠ c.txid tx := by
    rintro r' hr' hid o txid' ⟨hb', htxid', tx', hraw', ho⟩ heq
    obtain ⟨tx₀, hraw₀, htx₀, -, id', hbuilt'⟩ := h.rows r' hr' hb'
    obtain rfl : tx' = tx₀ := Option.some_inj.mp (hraw'.symm.trans hraw₀)
    have hsame : c.txid tx' = c.txid tx :=
      (Option.some_inj.mp (htx₀.symm.trans htxid')).trans heq
    obtain rfl := hcollision _ hbuilt' _ hbuilt hsame
    exact hid (h.disjoint r' hr' r hr o _ _ ⟨hb', htx₀, tx', hraw', ho⟩
      ⟨hbroadcast, htx, tx', hraw, ho⟩)
  refine ⟨⟨fun o txid => ?_, ?_, h.once.sublist (List.filter_sublist.map _), ?_⟩, ?_⟩
  · constructor
    · rintro ⟨e, he, rfl, rfl⟩
      obtain ⟨hmem, hby⟩ := List.mem_filter.mp he
      obtain ⟨r', hr', hholds⟩ := (h.held _ _).mp ⟨e, hmem, rfl, rfl⟩
      refine ⟨r', (keys.mem_updateRow hr).mpr (Or.inl ⟨hr', fun hid => ?_⟩), hholds⟩
      obtain rfl := keys.eq_of_id hr' hr hid
      have hsame := Option.some_inj.mp (hholds.2.1.symm.trans htx)
      exact of_decide_eq_true hby hsame
    · rintro ⟨r', hr', hholds⟩
      obtain ⟨hmem, hid⟩ := hold r' hr' hholds.1
      obtain ⟨e, he, rfl, rfl⟩ := (h.held _ _).mpr ⟨r', hmem, hholds⟩
      exact ⟨e, List.mem_filter.mpr ⟨he, decide_eq_true (hother r' hmem hid _ _ hholds)⟩, rfl, rfl⟩
  · intro r₁ hr₁ r₂ hr₂ o txid txid' hholds₁ hholds₂
    exact h.disjoint r₁ (hold r₁ hr₁ hholds₁.1).1 r₂ (hold r₂ hr₂ hholds₂.1).1 o txid txid'
      hholds₁ hholds₂
  · intro r' hr' hb
    rcases (keys.mem_updateRow hr).mp hr' with ⟨hmem, -⟩ | rfl
    · exact h.bare r' hmem hb
    · exact hbare
  · exact fun r' hr' hb => h.rows r' (hold r' hr' hb).1 hb

/-! ### The write-ahead -/

lemma mem_insertSpent {spent : List SpentOutpoint} {new e : SpentOutpoint}
    (hfree : ∀ e ∈ spent, e.outpoint = new.outpoint → e = new) :
    e ∈ Db.insertSpent spent new ↔ e ∈ spent ∨ e = new := by
  rw [Db.insertSpent]
  split
  · rename_i hany
    obtain ⟨e', he', hsame⟩ := List.any_eq_true.mp hany
    refine ⟨Or.inl, ?_⟩
    rintro (he | rfl)
    · exact he
    · exact hfree e' he' (of_decide_eq_true hsame) ▸ he'
  · rw [List.mem_append, List.mem_singleton]

lemma nodup_insertSpent {spent : List SpentOutpoint} (new : SpentOutpoint)
    (h : (spent.map SpentOutpoint.outpoint).Nodup) :
    ((Db.insertSpent spent new).map SpentOutpoint.outpoint).Nodup := by
  rw [Db.insertSpent]
  split
  · exact h
  · rename_i hnone
    simp only [List.any_eq_true, decide_eq_true_eq, not_exists, not_and] at hnone
    rw [List.map_append, List.map_singleton, List.nodup_append]
    refine ⟨h, List.nodup_singleton _, ?_⟩
    rintro _ hmem _ hnew rfl
    obtain ⟨e, he, hsame⟩ := List.mem_map.mp hmem
    exact hnone e he (hsame.trans (List.mem_singleton.mp hnew))

/-- The inputs of a tx that holds nothing yet are reserved for it, each
once. -/
lemma mem_foldl_insertSpent {txid : String} {now : Int} {inputs : List Outpoint}
    {spent : List SpentOutpoint}
    (hfree : ∀ o ∈ inputs, ∀ e ∈ spent, e.outpoint = o → e = ⟨o, txid, now⟩) {e : SpentOutpoint} :
    e ∈ inputs.foldl (fun spent o => Db.insertSpent spent ⟨o, txid, now⟩) spent ↔
      e ∈ spent ∨ e.outpoint ∈ inputs ∧ e = ⟨e.outpoint, txid, now⟩ := by
  induction inputs generalizing spent with
  | nil => simp
  | cons o inputs ih =>
      have hone : ∀ e, e ∈ Db.insertSpent spent ⟨o, txid, now⟩ ↔ e ∈ spent ∨ e = ⟨o, txid, now⟩ :=
        fun e => mem_insertSpent (hfree o List.mem_cons_self)
      rw [List.foldl_cons, ih, hone]
      · constructor
        · rintro ((he | rfl) | ⟨hmem, heq⟩)
          · exact Or.inl he
          · exact Or.inr ⟨List.mem_cons_self, rfl⟩
          · exact Or.inr ⟨List.mem_cons_of_mem _ hmem, heq⟩
        · rintro (he | ⟨hmem, heq⟩)
          · exact Or.inl (Or.inl he)
          · rcases List.mem_cons.mp hmem with hfirst | hmem
            · exact Or.inl (Or.inr (hfirst ▸ heq))
            · exact Or.inr ⟨hmem, heq⟩
      · intro o' ho' e he hsame
        rcases (hone e).mp he with he | rfl
        · exact hfree o' (List.mem_cons_of_mem _ ho') e he hsame
        · rw [← hsame]

lemma nodup_foldl_insertSpent {txid : String} {now : Int} (inputs : List Outpoint)
    {spent : List SpentOutpoint} (h : (spent.map SpentOutpoint.outpoint).Nodup) :
    ((inputs.foldl (fun spent o => Db.insertSpent spent ⟨o, txid, now⟩) spent).map
      SpentOutpoint.outpoint).Nodup := by
  induction inputs generalizing spent with
  | nil => exact h
  | cons o inputs ih => exact ih (nodup_insertSpent _ h)

/-- The write-ahead reserves the inputs for its row. -/
lemma mem_spent_markBroadcast {tx : RawTx} {txid : String} {amount now : Int}
    (hfree : ∀ o ∈ tx.inputs, ∀ e ∈ db.spentOutpoints, e.outpoint ≠ o) {e : SpentOutpoint} :
    e ∈ (db.markBroadcast r.id txid tx amount now).spentOutpoints ↔
      e ∈ db.spentOutpoints ∨ e.outpoint ∈ tx.inputs ∧ e = ⟨e.outpoint, txid, now⟩ :=
  mem_foldl_insertSpent fun o ho e he hsame => absurd hsame (hfree o ho e he)

/-- A pending row takes free outpoints. -/
lemma Accounts.markBroadcast (h : Accounts c db built) (keys : db.HasKeys) (hr : r ∈ db.payments)
    (hpending : r.status = .pending) {tx : RawTx} (hne : tx.inputs ≠ [])
    (hfree : ∀ o ∈ tx.inputs, ∀ e ∈ db.spentOutpoints, e.outpoint ≠ o) (amount now : Int) :
    Accounts c (db.markBroadcast r.id (c.txid tx) tx amount now) ((r.id, tx) :: built) := by
  set db' := db.markBroadcast r.id (c.txid tx) tx amount now with hdb'
  obtain ⟨new, hrows, hb, htxid, hraw⟩ : ∃ new : PaymentRow,
      (∀ r', r' ∈ db'.payments ↔ (r' ∈ db.payments ∧ r'.id ≠ r.id) ∨ r' = new) ∧
      new.status = .broadcast ∧ new.txid = some (c.txid tx) ∧ new.rawHex = some tx :=
    ⟨_, fun r' => keys.mem_updateRow hr, rfl, rfl, rfl⟩
  have hspent : ∀ e, e ∈ db'.spentOutpoints ↔
      e ∈ db.spentOutpoints ∨ e.outpoint ∈ tx.inputs ∧ e = ⟨e.outpoint, c.txid tx, now⟩ :=
    fun e => mem_spent_markBroadcast hfree
  -- the row held nothing while it was pending
  have hkept : ∀ o txid r', r' ∈ db.payments → r'.Holds o txid → r'.id ≠ r.id := by
    intro o txid r' hr' hholds hsame
    obtain rfl := keys.eq_of_id hr' hr hsame
    exact absurd (hpending.symm.trans hholds.1) (by decide)
  have hnew : ∀ o txid, new.Holds o txid ↔ o ∈ tx.inputs ∧ txid = c.txid tx := by
    intro o txid
    rw [PaymentRow.Holds, htxid, hraw]
    constructor
    · rintro ⟨-, heq, tx', htx', ho⟩
      exact ⟨Option.some_inj.mp htx' ▸ ho, (Option.some_inj.mp heq).symm⟩
    · rintro ⟨ho, rfl⟩
      exact ⟨hb, rfl, tx, rfl, ho⟩
  -- and nobody else holds the inputs
  have hapart : ∀ r' ∈ db.payments, ∀ o txid, r'.Holds o txid → o ∉ tx.inputs := by
    intro r' hr' o txid hholds ho
    obtain ⟨e, he, hsame, -⟩ := (h.held o txid).mpr ⟨r', hr', hholds⟩
    exact hfree o ho e he hsame
  refine ⟨⟨fun o txid => ?_, ?_, nodup_foldl_insertSpent _ h.once, ?_⟩, ?_⟩
  · constructor
    · rintro ⟨e, he, rfl, rfl⟩
      rcases (hspent e).mp he with he | ⟨ho, heq⟩
      · obtain ⟨r', hr', hholds⟩ := (h.held _ _).mp ⟨e, he, rfl, rfl⟩
        exact ⟨r', (hrows r').mpr (Or.inl ⟨hr', hkept _ _ r' hr' hholds⟩), hholds⟩
      · exact ⟨new, (hrows new).mpr (Or.inr rfl),
          (hnew _ _).mpr ⟨ho, congrArg SpentOutpoint.spentBy heq⟩⟩
    · rintro ⟨r', hr', hholds⟩
      rcases (hrows r').mp hr' with ⟨hmem, -⟩ | rfl
      · obtain ⟨e, he, hsame⟩ := (h.held o txid).mpr ⟨r', hmem, hholds⟩
        exact ⟨e, (hspent e).mpr (Or.inl he), hsame⟩
      · obtain ⟨ho, rfl⟩ := (hnew _ _).mp hholds
        exact ⟨⟨o, c.txid tx, now⟩, (hspent _).mpr (Or.inr ⟨ho, rfl⟩), rfl, rfl⟩
  · intro r₁ hr₁ r₂ hr₂ o txid txid' hholds₁ hholds₂
    rcases (hrows r₁).mp hr₁ with ⟨hmem₁, -⟩ | rfl
    · rcases (hrows r₂).mp hr₂ with ⟨hmem₂, -⟩ | rfl
      · exact h.disjoint r₁ hmem₁ r₂ hmem₂ o txid txid' hholds₁ hholds₂
      · exact absurd ((hnew _ _).mp hholds₂).1 (hapart r₁ hmem₁ o txid hholds₁)
    · rcases (hrows r₂).mp hr₂ with ⟨hmem₂, -⟩ | rfl
      · exact absurd ((hnew _ _).mp hholds₁).1 (hapart r₂ hmem₂ o txid' hholds₂)
      · rfl
  · intro r' hr' hstatus
    rcases (hrows r').mp hr' with ⟨hmem, -⟩ | rfl
    · exact h.bare r' hmem hstatus
    · exact absurd hb hstatus
  · intro r' hr' hstatus
    rcases (hrows r').mp hr' with ⟨hmem, -⟩ | rfl
    · obtain ⟨tx', hraw', htxid', hne', id, hbuilt⟩ := h.rows r' hmem hstatus
      exact ⟨tx', hraw', htxid', hne', id, List.mem_cons_of_mem _ hbuilt⟩
    · exact ⟨tx, hraw, htxid, hne, r.id, List.mem_cons_self⟩

end Statements

/-! ### The workers -/

/-- Where the workers stand: they hold rows as they are in the table. -/
structure Stand (s : System) : Prop where
  keys : s.db.HasKeys
  broadcaster : s.broadcaster.Ok s.db
  confirmer : s.confirmer.Ok s.db
  named : ∀ tip row txid rest, s.confirmer = .lookup tip row txid rest → txid ≠ ""

lemma Confirmer.ne_empty_of_next {tip tip' : Int} {rows rest : List PaymentRow} {row : PaymentRow}
    {txid : String} (h : Confirmer.next tip rows = .lookup tip' row txid rest) : txid ≠ "" := by
  induction rows with
  | nil => cases h
  | cons r rows ih =>
      rw [Confirmer.next] at h
      split at h
      · exact ih h
      · split at h
        · exact ih h
        · rename_i hne
          cases h
          exact hne

/-- The workers stand well, and so do the accounts if no txids collide. -/
structure LedgerInv (c : Config) (s : System) : Prop extends Stand s where
  accounts : NoCollision c s.built → Accounts c s.db s.built

section Steps

variable {c : Config} {s : System}

/-- The confirmer moves on to the next row that it holds. -/
lemma Stand.next (h : Stand s) (tip : Int) {rows : List PaymentRow}
    (hrows : ∀ r ∈ rows, r ∈ s.db.payments ∧ r.status = .broadcast)
    (hdistinct : (rows.map PaymentRow.id).Nodup) :
    Stand { s with confirmer := .next tip rows } :=
  ⟨h.keys, h.broadcaster, Confirmer.Ok.next tip hrows hdistinct,
    fun _ _ _ _ hw => Confirmer.ne_empty_of_next hw⟩

/-- The confirmer moves on after it has settled its row. -/
lemma Stand.settle (h : Stand s) {tip : Int} {row : PaymentRow} {txid : String}
    {rest : List PaymentRow} (hw : s.confirmer = .lookup tip row txid rest)
    {f : PaymentRow → PaymentRow} (hf : ∀ r, (f r).id = r.id) (spent : List SpentOutpoint) :
    Stand { s with
      db := ⟨updateRow row.id f s.db.payments, spent⟩
      confirmer := .next tip rest } := by
  have hok := h.confirmer
  rw [hw] at hok
  obtain ⟨hrow, hbroadcast⟩ := hok.held row List.mem_cons_self
  refine ⟨?_, h.broadcaster.of_update h.keys hbroadcast hrow f spent, hok.next_of_update f spent,
    fun _ _ _ _ hw => Confirmer.ne_empty_of_next hw⟩
  rw [Db.HasKeys, map_id_updateRow hf]
  exact h.keys

/-- The broadcaster is done with its row. -/
lemma Stand.broadcast (h : Stand s) {row : PaymentRow} (hw : s.broadcaster = .reading row)
    {f : PaymentRow → PaymentRow} (hf : ∀ r, (f r).id = r.id) (spent : List SpentOutpoint)
    {w : Broadcaster} (hdone : ∀ r, w ≠ .reading r) (submitted : List RawTx)
    (built : List (Nat × RawTx)) :
    Stand { s with
      db := ⟨updateRow row.id f s.db.payments, spent⟩
      broadcaster := w
      submitted := submitted
      built := built } := by
  obtain ⟨hrow, hpending⟩ := h.broadcaster row hw
  refine ⟨?_, fun r hr => absurd hr (hdone r), h.confirmer.of_update h.keys hpending hrow f spent,
    h.named⟩
  rw [Db.HasKeys, map_id_updateRow hf]
  exact h.keys

/-- Fewer txs collide less. -/
lemma NoCollision.mono {built built' : List (Nat × RawTx)} (h : NoCollision c built')
    (hsub : built ⊆ built') : NoCollision c built :=
  fun b hb b' hb' => h b (hsub hb) b' (hsub hb')

lemma LedgerInv.recordFailure (h : LedgerInv c s) {row : PaymentRow}
    (hw : s.broadcaster = .reading row) (error : String) (now : Int) :
    LedgerInv c { s with
      db := s.db.recordFailure row.id row.attempts error now
      broadcaster := .idle } where
  toStand := h.toStand.broadcast hw (by exact fun _ => rfl) _ (by exact fun _ hr => by cases hr) _ _
  accounts hcollision := (h.accounts hcollision).recordFailure _ _ _ _

lemma LedgerInv.broadcastRow (h : LedgerInv c s) {row : PaymentRow}
    (hw : s.broadcaster = .reading row) (tip : Int) (utxos : List Utxo) (now : Int) :
    LedgerInv c (broadcastRow c s row tip utxos now) := by
  rw [Bridge.broadcastRow]
  split
  · exact h.recordFailure hw _ now
  · rename_i tx amountZats hprep
    obtain ⟨hrow, hpending⟩ := h.broadcaster row hw
    refine ⟨h.toStand.broadcast hw (by exact fun _ => rfl) _
      (by exact fun _ hr => by cases hr) _ _, ?_⟩
    intro hcollision
    refine (h.accounts (hcollision.mono (List.subset_cons_self _ _))).markBroadcast h.keys hrow
      hpending (preparePayment_inputs_ne_nil hprep) ?_ amountZats now
    rintro o ho e he rfl
    exact preparePayment_free hprep _ ho (List.mem_map_of_mem he)

lemma LedgerInv.confirmRow (h : LedgerInv c s) {tip : Int} {row : PaymentRow} {txid : String}
    {rest : List PaymentRow} (hw : s.confirmer = .lookup tip row txid rest) (answer : TxAnswer)
    (now : Int) : LedgerInv c (confirmRow s tip row txid rest answer now) := by
  have hok := h.confirmer
  rw [hw] at hok
  obtain ⟨hrow, hbroadcast⟩ := hok.held row List.mem_cons_self
  have htxid : row.txid = some txid := hok.asked tip row txid rest rfl
  have hskip : LedgerInv c { s with confirmer := .next tip rest } :=
    ⟨h.toStand.next tip (fun r hr => hok.held r (List.mem_cons_of_mem _ hr))
      (List.nodup_cons.mp hok.distinct).2, h.accounts⟩
  cases answer with
  | failed => exact hskip
  | found confirmations =>
      simp only [Bridge.confirmRow]
      split
      · refine ⟨h.toStand.settle hw (by exact fun _ => rfl) _, fun hcollision => ?_⟩
        -- the row in the table has the txid that was asked for
        have hspent : (s.db.markConfirmed row.id now).spentOutpoints =
            s.db.spentOutpoints.filter fun e => e.spentBy ≠ txid := by
          have hfind : s.db.payments.find? (fun r => r.id = row.id) = some row := by
            have hsome : (s.db.payments.find? fun r => r.id = row.id).isSome :=
              List.find?_isSome.mpr ⟨row, hrow, decide_eq_true rfl⟩
            obtain ⟨r, hr⟩ := Option.isSome_iff_exists.mp hsome
            rw [hr, h.keys.eq_of_id (List.mem_of_find?_eq_some hr) hrow
              (of_decide_eq_true (List.find?_some hr :))]
          simp only [Db.markConfirmed, hfind, Option.bind_some, htxid]
          rw [if_neg (h.named tip row txid rest hw)]
        rw [show s.db.markConfirmed row.id now = ⟨(s.db.markConfirmed row.id now).payments,
          (s.db.markConfirmed row.id now).spentOutpoints⟩ from rfl, hspent]
        exact (h.accounts hcollision).release h.keys hrow hbroadcast htxid hcollision
          (fun hb => by cases hb) rfl
      · exact hskip
  | notFound view =>
      simp only [Bridge.confirmRow]
      split
      · exact ⟨h.toStand.settle hw (by exact fun _ => rfl) _, fun hcollision =>
          (h.accounts hcollision).release h.keys hrow hbroadcast htxid hcollision
            (fun hb => by cases hb) rfl⟩
      · split
        · refine ⟨⟨h.keys, h.broadcaster, ?_, fun _ _ _ _ hw' => by cases hw'⟩, h.accounts⟩
          refine ⟨fun r hr => hok.held r (List.mem_cons_of_mem _ hr),
            (List.nodup_cons.mp hok.distinct).2, ?_⟩
          intro _ _ _ _ hw'
          cases hw'
        · exact hskip

/-- Every step keeps the invariant. -/
lemma anyStep_ledgerInv {s' : System} (h : LedgerInv c s) {a : Action}
    (ha : anyStep c s a = some s') : LedgerInv c s' := by
  cases a with
  | grant p now =>
      cases ha
      rw [recordGrant]
      split
      · refine ⟨⟨h.keys.insertIdempotent p now, fun r hr => ?_, ?_, h.named⟩, fun hcollision =>
          (h.accounts hcollision).insert p now⟩
        · exact ⟨Db.mem_insertIdempotent (h.broadcaster r hr).1 p now, (h.broadcaster r hr).2⟩
        · exact h.confirmer.frame fun r _ hr => Db.mem_insertIdempotent hr p now
      · exact h
  | broadcasterTick now =>
      simp only [anyStep, step] at ha
      split at ha
      · split at ha
        · cases ha
          exact h
        · rename_i row hnext
          cases ha
          refine ⟨⟨h.keys, ?_, h.confirmer, h.named⟩, h.accounts⟩
          intro row' hw
          cases hw
          have hp := List.find?_some hnext
          exact ⟨List.mem_of_find?_eq_some hnext, by simpa using (decide_eq_true_iff.mp hp).1⟩
      · cases ha
  | chainRead tip utxos now =>
      simp only [anyStep, step] at ha
      split at ha
      · rename_i row hw
        cases ha
        exact h.broadcastRow hw tip utxos now
      · cases ha
  | chainReadFailed error now =>
      simp only [anyStep, step] at ha
      split at ha
      · rename_i row hw
        cases ha
        exact h.recordFailure hw error now
      · cases ha
  | submitDone =>
      simp only [anyStep, step] at ha
      split at ha
      · cases ha
        exact ⟨⟨h.keys, .idle _, h.confirmer, h.named⟩, h.accounts⟩
      · cases ha
  | confirmerTick =>
      simp only [anyStep, step] at ha
      split at ha
      · split at ha
        · cases ha
          exact h
        · cases ha
          refine ⟨⟨h.keys, h.broadcaster, ⟨?_, ?_, ?_⟩, fun _ _ _ _ hw => by cases hw⟩,
            h.accounts⟩
          · intro r hr
            simpa [Db.allBroadcast] using List.mem_filter.mp hr
          · exact h.keys.sublist (List.filter_sublist.map _)
          · intro _ _ _ _ hw
            cases hw
      · cases ha
  | tipRead tip =>
      simp only [anyStep, step] at ha
      split at ha
      · rename_i rows hw
        cases ha
        have hok := h.confirmer
        rw [hw] at hok
        exact ⟨h.toStand.next tip hok.held hok.distinct, h.accounts⟩
      · cases ha
  | tipReadFailed =>
      simp only [anyStep, step] at ha
      split at ha
      · cases ha
        exact ⟨⟨h.keys, h.broadcaster, .idle _, fun _ _ _ _ hw => by cases hw⟩, h.accounts⟩
      · cases ha
  | txRead answer now =>
      simp only [anyStep] at ha
      split at ha
      · rename_i tip row txid rest hw
        cases ha
        exact h.confirmRow hw answer now
      · cases ha
  | resubmitDone =>
      simp only [anyStep, step] at ha
      split at ha
      · rename_i tip rest hw
        cases ha
        have hok := h.confirmer
        rw [hw] at hok
        exact ⟨h.toStand.next tip hok.held hok.distinct, h.accounts⟩
      · cases ha
  | crash =>
      cases ha
      exact ⟨⟨h.keys, .idle _, .idle _, fun _ _ _ _ hw => by cases hw⟩, h.accounts⟩
  | block txs =>
      simp only [anyStep, step] at ha
      obtain ⟨chain, -, rfl⟩ := Option.map_eq_some_iff.mp ha
      exact ⟨⟨h.keys, h.broadcaster, h.confirmer, h.named⟩, h.accounts⟩

/-- A pending row stays pending, or leaves with its bytes and its inputs. -/
lemma pending_step {s' : System} (h : LedgerInv c s) {a : Action} (ha : anyStep c s a = some s')
    {r : PaymentRow} (hr : r ∈ s.db.payments) (hpending : r.status = .pending) :
    ∃ r' ∈ s'.db.payments, r'.id = r.id ∧ (r'.status = .pending ∨ Reserved c s'.db r') := by
  -- the confirmer settles other rows
  have hother : ∀ {tip row txid rest}, s.confirmer = .lookup tip row txid rest →
      ∀ (f : PaymentRow → PaymentRow), r ∈ updateRow row.id f s.db.payments := by
    intro tip row txid rest hw f
    have hok := h.confirmer
    rw [hw] at hok
    obtain ⟨hrow, hbroadcast⟩ := hok.held row List.mem_cons_self
    refine mem_updateRow.mpr (Or.inl ⟨hr, fun hid => ?_⟩)
    obtain rfl := h.keys.eq_of_id hr hrow hid
    exact absurd (hpending.symm.trans hbroadcast) (by decide)
  cases anyStep_statement ha with
  | none hdb => exact ⟨r, hdb ▸ hr, rfl, Or.inl hpending⟩
  | insert p now hdb =>
      rw [hdb]
      exact ⟨r, Db.mem_insertIdempotent hr p now, rfl, Or.inl hpending⟩
  | @failure _ row hrow error now hdb =>
      obtain ⟨hmem, -⟩ := h.broadcaster row hrow
      rw [hdb]
      by_cases hid : r.id = row.id
      · obtain rfl := h.keys.eq_of_id hr hmem hid
        exact ⟨_, (h.keys.mem_updateRow hr).mpr (Or.inr rfl), rfl, Or.inl hpending⟩
      · exact ⟨r, (h.keys.mem_updateRow hmem).mpr (Or.inl ⟨hr, hid⟩), rfl, Or.inl hpending⟩
  | @broadcast _ row hrow tip utxos tx amountZats hprepared now hdb =>
      obtain ⟨hmem, -⟩ := h.broadcaster row hrow
      rw [hdb]
      by_cases hid : r.id = row.id
      · obtain rfl := h.keys.eq_of_id hr hmem hid
        refine ⟨_, (h.keys.mem_updateRow hr).mpr (Or.inr rfl), rfl, Or.inr ⟨rfl, tx, rfl, rfl,
          preparePayment_inputs_ne_nil hprepared, fun o ho => ?_⟩⟩
        have hfree : ∀ o ∈ tx.inputs, ∀ e ∈ s.db.spentOutpoints, e.outpoint ≠ o := by
          rintro o ho e he rfl
          exact preparePayment_free hprepared _ ho (List.mem_map_of_mem he)
        exact ⟨⟨o, c.txid tx, now⟩,
          (mem_spent_markBroadcast hfree).mpr (Or.inr ⟨ho, rfl⟩), rfl, rfl⟩
      · exact ⟨r, (h.keys.mem_updateRow hmem).mpr (Or.inl ⟨hr, hid⟩), rfl, Or.inl hpending⟩
  | confirmed hrow now hdb => exact ⟨r, hdb ▸ hother hrow _, rfl, Or.inl hpending⟩
  | expired hrow hdb => exact ⟨r, hdb ▸ hother hrow _, rfl, Or.inl hpending⟩

lemma LedgerInv.init (c : Config) (height : Int) : LedgerInv c (System.init height) where
  keys := List.nodup_nil
  broadcaster := .idle _
  confirmer := .idle _
  named _ _ _ _ hw := by cases hw
  accounts _ := by
    refine ⟨⟨fun o txid => ?_, ?_, List.nodup_nil, ?_⟩, ?_⟩
    · simp [System.init]
    · exact fun r hr => by cases hr
    · exact fun r hr => by cases hr
    · exact fun r hr => by cases hr

end Steps

/-- **In every reachable state the held outpoints are the inputs of the
broadcast rows, and a row leaves `pending` only together with its bytes and
its inputs.** -/
theorem outpoint_ledger (c : Config) (height : Int) {as : List Action} {s : System}
    (h : exec (anyStep c) (System.init height) as = some s) (hcollision : NoCollision c s.built) :
    Ledger s.db ∧ ∀ a s', anyStep c s a = some s' →
      ∀ r ∈ s.db.payments, r.status = .pending →
        ∀ r' ∈ s'.db.payments, r'.id = r.id → r'.status ≠ .pending → Reserved c s'.db r' := by
  have hinv : LedgerInv c s := Reachable.induction ⟨as, h⟩ (LedgerInv.init c height)
    fun _ _ _ hi ha => anyStep_ledgerInv hi ha
  refine ⟨(hinv.accounts hcollision).toLedger, ?_⟩
  intro a s' ha r hr hpending r' hr' hid hleft
  obtain ⟨r₁, hr₁, hid₁, hor⟩ := pending_step hinv ha hr hpending
  obtain rfl := (anyStep_ledgerInv hinv ha).keys.eq_of_id hr' hr₁ (hid.trans hid₁.symm)
  exact hor.resolve_left hleft

/-- Two payments take turns with one coin: the first tx expires unmined, and
its row is built again after the second. -/
def sharedCoinRun : List Action :=
  [.grant ⟨.stripe, "evt", "cs", "abc", 30, 0⟩ 0, .grant ⟨.stripe, "evt2", "cs", "abc", 30, 0⟩ 0,
    .broadcasterTick 1, .chainRead 100 [rebuiltCoin] 2, .submitDone, .broadcasterTick 3,
    .chainRead 100 [rebuiltCoin] 4, .confirmerTick, .tipRead 162, .txRead (.notFound 162) 5,
    .broadcasterTick 64, .chainRead 162 [rebuiltCoin] 65]

theorem outpoint_ledger_sharedCoin :
    ∃ s, exec (anyStep rebuiltConfig) (System.init 100) sharedCoinRun = some s ∧
      s.built.length = 2 ∧ s.db.excluded = [rebuiltCoin.outpoint] ∧ Ledger s.db := by
  have hrun : (exec (anyStep rebuiltConfig) (System.init 100) sharedCoinRun).any fun s =>
      s.built.length = 2 ∧ s.db.excluded = [rebuiltCoin.outpoint] ∧
        NoCollision rebuiltConfig s.built := by decide +kernel
  obtain ⟨s, hs, hthree⟩ := (Option.any_eq_true _ _).mp hrun
  obtain ⟨hbuilt, hexcluded, hcollision⟩ := of_decide_eq_true hthree
  exact ⟨s, hs, hbuilt, hexcluded, (outpoint_ledger rebuiltConfig 100 hs hcollision).1⟩

end CumulusVpn.Bridge
