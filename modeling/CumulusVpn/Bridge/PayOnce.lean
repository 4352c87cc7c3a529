/-
Every payments row is paid at most once.

A row is rebuilt only after its last tx is *dead*: its expiry height has
passed and it was never mined, so it never will be.  The reset of the
confirmer is exactly such a moment, because the view of a `not-found` lies
above the expiry height.

* `Chain.Dead`, `Chain.Sound`: dead txs stay dead and coins are spent once,
  block by block (`Chain.Sound.block`, `Chain.Dead.block`);
* `RowOk`: at most one tx built for a row is not dead, and it is the one the
  row holds;
* `BooksOk`, `Inv`: the invariant of the whole system, with `step_inv`;
* `minedFor_length_le_one`: **at most one tx for each row is ever mined**.
-/
import CumulusVpn.Bridge.Worker

namespace CumulusVpn.Bridge

open StepSystem

/-! ### The chain -/

namespace Chain

/-- The tx can no longer be mined, and was not. -/
def Dead (c : Chain) (tx : RawTx) : Prop :=
  tx.expiryHeight ≤ c.height ∧ ∀ m ∈ c.mined, m.tx ≠ tx

/-- What every chain grown from submitted txs satisfies. -/
structure Sound (submitted : List RawTx) (c : Chain) : Prop where
  submitted : ∀ m ∈ c.mined, m.tx ∈ submitted
  heights : ∀ m ∈ c.mined, m.height ≤ c.height ∧ m.height ≤ m.tx.expiryHeight
  spentOnce : c.mined.Pairwise fun m m' => ∀ o ∈ m.tx.inputs, o ∉ m'.tx.inputs

lemma includeTx_eq_some {submitted : List RawTx} {c c' : Chain} {tx : RawTx}
    (h : includeTx submitted c tx = some c') :
    tx ∈ submitted ∧ c.height ≤ tx.expiryHeight ∧ (∀ o ∈ tx.inputs, ¬ c.Spent o) ∧
      c' = { c with mined := ⟨tx, c.height⟩ :: c.mined } := by
  rw [includeTx] at h
  split at h
  · rename_i hc
    cases h
    exact ⟨hc.1, hc.2.1, hc.2.2, rfl⟩
  · cases h

/-- Including a tx keeps the chain sound, and a tx whose expiry height is
below the block dead. -/
lemma Sound.includeTx {submitted : List RawTx} {c c' : Chain} {tx : RawTx}
    (hs : c.Sound submitted) (h : includeTx submitted c tx = some c') :
    c'.Sound submitted := by
  obtain ⟨hsub, hexp, hfree, rfl⟩ := includeTx_eq_some h
  refine ⟨?_, ?_, ?_⟩
  · intro m hm
    rcases List.mem_cons.mp hm with rfl | hm
    · exact hsub
    · exact hs.submitted m hm
  · intro m hm
    rcases List.mem_cons.mp hm with rfl | hm
    · exact ⟨le_rfl, hexp⟩
    · exact hs.heights m hm
  · refine List.pairwise_cons.mpr ⟨?_, hs.spentOnce⟩
    intro m hm o ho ho'
    exact hfree o ho ⟨m, hm, ho'⟩

lemma Sound.block {submitted : List RawTx} {c c' : Chain} {txs : List RawTx}
    (hs : c.Sound submitted) (h : c.block submitted txs = some c') : c'.Sound submitted := by
  have hup : Sound submitted { c with height := c.height + 1 } := by
    refine ⟨hs.submitted, ?_, hs.spentOnce⟩
    intro m hm
    obtain ⟨hle, hexp⟩ := hs.heights m hm
    exact ⟨hle.trans (by simp), hexp⟩
  exact exec_invariant (G := fun _ _ => True) (fun _ _ _ hi _ ha => hi.includeTx ha) hup
    (along_of_forall (fun _ _ => trivial) _ _) h

/-- What is dead stays dead. -/
lemma Dead.block {submitted : List RawTx} {c c' : Chain} {txs : List RawTx} {tx : RawTx}
    (hd : c.Dead tx) (h : c.block submitted txs = some c') : c'.Dead tx := by
  have hkey : tx.expiryHeight < c'.height ∧ ∀ m ∈ c'.mined, m.tx ≠ tx := by
    refine exec_invariant (G := fun _ _ => True)
      (I := fun c => tx.expiryHeight < c.height ∧ ∀ m ∈ c.mined, m.tx ≠ tx) ?_ ?_
      (along_of_forall (fun _ _ => trivial) _ _) h
    · rintro c tx' c' ⟨hexp, hne⟩ - ha
      obtain ⟨-, hle, -, rfl⟩ := includeTx_eq_some ha
      refine ⟨hexp, ?_⟩
      intro m hm
      rcases List.mem_cons.mp hm with rfl | hm
      · rintro rfl
        exact absurd hexp (Int.not_lt.mpr hle)
      · exact hne m hm
    · exact ⟨Int.lt_add_one_of_le hd.1, hd.2⟩
  exact ⟨hkey.1.le, hkey.2⟩

lemma Sound.mono {submitted : List RawTx} {c : Chain} (hs : c.Sound submitted) (tx : RawTx) :
    c.Sound (tx :: submitted) :=
  ⟨fun m hm => List.mem_cons_of_mem _ (hs.submitted m hm), hs.heights, hs.spentOnce⟩

end Chain

/-! ### Rows -/

/-- Every tx built for the row but `current` is dead. -/
def Settled (chain : Chain) (built : List (Nat × RawTx)) (id : Nat) (current : Option RawTx) :
    Prop :=
  ∀ tx, (id, tx) ∈ built → some tx = current ∨ chain.Dead tx

/-- At most one tx built for the row is not dead: none when it is pending,
and the one it holds when it is broadcast. -/
structure RowOk (c : Config) (chain : Chain) (built : List (Nat × RawTx)) (r : PaymentRow) :
    Prop where
  settled : ∃ current, Settled chain built r.id current
  pending : r.status = .pending → Settled chain built r.id none
  broadcast : r.status = .broadcast → ∃ tx, Settled chain built r.id (some tx) ∧
    r.rawHex = some tx ∧ r.txid = some (c.txid tx) ∧ r.expiryHeight = some tx.expiryHeight ∧
    (r.id, tx) ∈ built

/-- The table and the txs built so far. -/
structure BooksOk (c : Config) (db : Db) (chain : Chain) (built : List (Nat × RawTx)) : Prop where
  keys : db.HasKeys
  rows : ∀ r ∈ db.payments, RowOk c chain built r
  owned : ∀ b ∈ built, (∃ r ∈ db.payments, r.id = b.1) ∧ b.2.inputs ≠ []

namespace BooksOk

variable {c : Config} {db : Db} {chain : Chain} {built : List (Nat × RawTx)}

/-- An update of one row that leaves its id alone. -/
lemma update (h : BooksOk c db chain built) {r : PaymentRow} (hr : r ∈ db.payments)
    {f : PaymentRow → PaymentRow} (hf : ∀ r, (f r).id = r.id)
    (hok : RowOk c chain built (f r)) (spent : List SpentOutpoint) :
    BooksOk c ⟨updateRow r.id f db.payments, spent⟩ chain built := by
  refine ⟨?_, ?_, ?_⟩
  · rw [Db.HasKeys, map_id_updateRow hf]
    exact h.keys
  · intro r' hr'
    rcases mem_updateRow.mp hr' with ⟨hmem, -⟩ | ⟨r₀, hmem, hid, rfl⟩
    · exact h.rows r' hmem
    · obtain rfl := h.keys.eq_of_id hmem hr hid
      exact hok
  · intro b hb
    obtain ⟨⟨r₀, hmem, hid⟩, hne⟩ := h.owned b hb
    refine ⟨?_, hne⟩
    by_cases hr₀ : r₀.id = r.id
    · exact ⟨f r₀, mem_updateRow.mpr (Or.inr ⟨r₀, hmem, hr₀, rfl⟩), (hf r₀).trans hid⟩
    · exact ⟨r₀, mem_updateRow.mpr (Or.inl ⟨hmem, hr₀⟩), hid⟩

/-- A new row has no txs yet. -/
lemma insert (h : BooksOk c db chain built) (p : NewPayment) (now : Int) :
    BooksOk c (db.insertIdempotent p now).1 chain built := by
  rcases db.payments_insertIdempotent p now with heq | ⟨r, hid, hpending, heq⟩
  · exact ⟨h.keys.insertIdempotent p now, fun r hr => h.rows r (heq ▸ hr), fun b hb => by
      rw [heq]
      exact h.owned b hb⟩
  · have hnone : ∀ tx, (r.id, tx) ∉ built := by
      intro tx hmem
      obtain ⟨⟨r₀, hr₀, hid₀⟩, -⟩ := h.owned _ hmem
      have hlt := db.lt_nextId hr₀
      simp only at hid₀
      omega
    refine ⟨h.keys.insertIdempotent p now, ?_, ?_⟩
    · intro r' hr'
      rw [heq] at hr'
      rcases List.mem_append.mp hr' with hr' | hr'
      · exact h.rows r' hr'
      · obtain rfl := List.mem_singleton.mp hr'
        exact ⟨⟨none, fun tx hmem => absurd hmem (hnone tx)⟩,
          fun _ tx hmem => absurd hmem (hnone tx),
          fun hb => absurd (hpending.symm.trans hb) (by decide)⟩
    · intro b hb
      obtain ⟨⟨r₀, hr₀, hid₀⟩, hne⟩ := h.owned b hb
      exact ⟨⟨r₀, heq ▸ List.mem_append_left _ hr₀, hid₀⟩, hne⟩

/-- A block only adds dead txs. -/
lemma block (h : BooksOk c db chain built) {chain' : Chain}
    (hdead : ∀ tx, chain.Dead tx → chain'.Dead tx) : BooksOk c db chain' built := by
  have hset : ∀ {id cur}, Settled chain built id cur → Settled chain' built id cur :=
    fun hs tx hmem => (hs tx hmem).imp_right (hdead tx)
  refine ⟨h.keys, ?_, h.owned⟩
  intro r hr
  obtain ⟨⟨cur, hcur⟩, hpend, hbroad⟩ := h.rows r hr
  refine ⟨⟨cur, hset hcur⟩, fun hp => hset (hpend hp), fun hb => ?_⟩
  obtain ⟨tx, hs, hrest⟩ := hbroad hb
  exact ⟨tx, hset hs, hrest⟩

/-- The write-ahead: a pending row holds a fresh tx. -/
lemma markBroadcast (h : BooksOk c db chain built) {r : PaymentRow} (hr : r ∈ db.payments)
    (hpending : r.status = .pending) {tx : RawTx} (hne : tx.inputs ≠ []) (amount now : Int) :
    BooksOk c (db.markBroadcast r.id (c.txid tx) tx amount now) chain ((r.id, tx) :: built) := by
  have hother : ∀ r' ∈ db.payments, r'.id ≠ r.id → RowOk c chain ((r.id, tx) :: built) r' := by
    intro r' hr' hid
    have hset : ∀ {cur}, Settled chain built r'.id cur →
        Settled chain ((r.id, tx) :: built) r'.id cur := by
      intro cur hs tx' hmem
      rcases List.mem_cons.mp hmem with heq | hmem
      · exact absurd (congrArg Prod.fst heq) hid
      · exact hs tx' hmem
    obtain ⟨⟨cur, hcur⟩, hpend, hbroad⟩ := h.rows r' hr'
    refine ⟨⟨cur, hset hcur⟩, fun hp => hset (hpend hp), fun hb => ?_⟩
    obtain ⟨t, hs, hraw, htx, hexp, hmem⟩ := hbroad hb
    exact ⟨t, hset hs, hraw, htx, hexp, List.mem_cons_of_mem _ hmem⟩
  have hnew : Settled chain ((r.id, tx) :: built) r.id (some tx) := by
    intro tx' hmem
    rcases List.mem_cons.mp hmem with heq | hmem
    · exact Or.inl (congrArg some (congrArg Prod.snd heq))
    · exact Or.inr (((h.rows r hr).pending hpending tx' hmem).resolve_left (by simp))
  have hids : (db.markBroadcast r.id (c.txid tx) tx amount now).payments.map PaymentRow.id =
      db.payments.map PaymentRow.id := map_id_updateRow (fun _ => by rfl) db.payments
  refine ⟨?_, ?_, ?_⟩
  · rw [Db.HasKeys, hids]
    exact h.keys
  · intro r' hr'
    rcases mem_updateRow.mp hr' with ⟨hmem, hid⟩ | ⟨r₀, hmem, hid, rfl⟩
    · exact hother r' hmem hid
    · obtain rfl := h.keys.eq_of_id hmem hr hid
      refine ⟨⟨some tx, hnew⟩, ?_, fun _ => ⟨tx, hnew, rfl, rfl, rfl, List.mem_cons_self⟩⟩
      exact fun hp => PaymentStatus.noConfusion hp
  · have hrow : ∀ r₀ ∈ db.payments,
        ∃ r' ∈ (db.markBroadcast r.id (c.txid tx) tx amount now).payments, r'.id = r₀.id := by
      intro r₀ hr₀
      have hmem : r₀.id ∈ db.payments.map PaymentRow.id := List.mem_map_of_mem hr₀
      rw [← hids] at hmem
      exact List.mem_map.mp hmem
    intro b hb
    rcases List.mem_cons.mp hb with rfl | hb
    · exact ⟨hrow r hr, hne⟩
    · obtain ⟨⟨r₀, hr₀, hid₀⟩, hne'⟩ := h.owned b hb
      obtain ⟨r', hr', hid'⟩ := hrow r₀ hr₀
      exact ⟨⟨r', hr', hid'.trans hid₀⟩, hne'⟩

lemma recordFailure (h : BooksOk c db chain built) {r : PaymentRow} (hr : r ∈ db.payments)
    (attempts : Nat) (error : String) (now : Int) :
    BooksOk c (db.recordFailure r.id attempts error now) chain built := by
  obtain ⟨hset, hpend, hbroad⟩ := h.rows r hr
  refine h.update hr ?_ ?_ _
  · exact fun _ => rfl
  · exact ⟨hset, hpend, hbroad⟩

lemma markConfirmed (h : BooksOk c db chain built) {r : PaymentRow} (hr : r ∈ db.payments)
    (now : Int) : BooksOk c (db.markConfirmed r.id now) chain built := by
  refine h.update hr ?_ ?_ _
  · exact fun _ => rfl
  · exact ⟨(h.rows r hr).settled, fun hp => PaymentStatus.noConfusion hp,
      fun hb => PaymentStatus.noConfusion hb⟩

/-- A row whose own tx is dead may be built again. -/
lemma resetExpired (h : BooksOk c db chain built) {r : PaymentRow} (hr : r ∈ db.payments)
    (hdead : ∀ tx, (r.id, tx) ∈ built → chain.Dead tx) (txid : String) :
    BooksOk c (db.resetExpired r.id txid) chain built := by
  have hset : Settled chain built r.id none := fun tx hmem => Or.inr (hdead tx hmem)
  refine h.update hr ?_ ?_ _
  · exact fun _ => rfl
  · exact ⟨⟨none, hset⟩, fun _ => hset, fun hb => PaymentStatus.noConfusion hb⟩

end BooksOk

/-! ### The workers -/

/-- The rows a confirmer tick has still to handle. -/
def Confirmer.rows : Confirmer → List PaymentRow
  | .idle => []
  | .readingTip rows => rows
  | .lookup _ row _ rest => row :: rest
  | .resending _ rest => rest

lemma Confirmer.rows_next_sublist (tip : Int) (rows : List PaymentRow) :
    (Confirmer.next tip rows).rows.Sublist rows := by
  induction rows with
  | nil => exact List.Sublist.refl _
  | cons row rest ih =>
      rw [Confirmer.next]
      split
      · exact ih.cons row
      · split
        · exact ih.cons row
        · exact List.Sublist.refl _

lemma Confirmer.txid_of_next {tip tip' : Int} {rows rest : List PaymentRow} {row : PaymentRow}
    {txid : String} (h : Confirmer.next tip rows = .lookup tip' row txid rest) :
    row.txid = some txid := by
  induction rows with
  | nil => cases h
  | cons r rows ih =>
      rw [Confirmer.next] at h
      split at h
      · exact ih h
      · split at h
        · exact ih h
        · rename_i htx _
          cases h
          exact htx

/-- The broadcaster holds a pending row as it stands in the table. -/
def Broadcaster.Ok (db : Db) (w : Broadcaster) : Prop :=
  ∀ row, w = .reading row → row ∈ db.payments ∧ row.status = .pending

lemma Broadcaster.Ok.idle (db : Db) : Broadcaster.Ok db .idle := by
  intro row hw
  cases hw

lemma Broadcaster.Ok.sending (db : Db) : Broadcaster.Ok db .sending := by
  intro row hw
  cases hw

/-- The confirmer holds different broadcast rows as they stand in the table,
and asks for the tx of the first. -/
structure Confirmer.Ok (db : Db) (w : Confirmer) : Prop where
  held : ∀ r ∈ w.rows, r ∈ db.payments ∧ r.status = .broadcast
  distinct : (w.rows.map PaymentRow.id).Nodup
  asked : ∀ tip row txid rest, w = .lookup tip row txid rest → row.txid = some txid

namespace Confirmer

lemma Ok.idle (db : Db) : Ok db .idle := by
  refine ⟨?_, List.nodup_nil, ?_⟩
  · intro r hr
    cases hr
  · intro tip row txid rest hw
    cases hw

/-- Whatever leaves the held rows alone leaves the confirmer alone. -/
lemma Ok.frame {db db' : Db} {w : Confirmer} (h : Ok db w)
    (hkeep : ∀ r ∈ w.rows, r ∈ db.payments → r ∈ db'.payments) : Ok db' w :=
  ⟨fun r hr => ⟨hkeep r hr (h.held r hr).1, (h.held r hr).2⟩, h.distinct, h.asked⟩

/-- Moving on to the next row. -/
lemma Ok.next {db : Db} {rows : List PaymentRow} (tip : Int)
    (hheld : ∀ r ∈ rows, r ∈ db.payments ∧ r.status = .broadcast)
    (hdistinct : (rows.map PaymentRow.id).Nodup) : Ok db (Confirmer.next tip rows) := by
  have hsub := rows_next_sublist tip rows
  refine ⟨?_, ?_, ?_⟩
  · intro r hr
    exact hheld r (hsub.subset hr)
  · exact hdistinct.sublist (hsub.map _)
  · intro tip' row txid rest hw
    exact txid_of_next hw

/-- Moving on after the row in hand was updated. -/
lemma Ok.next_of_update {db : Db} {tip : Int} {row : PaymentRow} {txid : String}
    {rest : List PaymentRow} (h : Ok db (.lookup tip row txid rest))
    (f : PaymentRow → PaymentRow) (spent : List SpentOutpoint) :
    Ok ⟨updateRow row.id f db.payments, spent⟩ (Confirmer.next tip rest) := by
  obtain ⟨hne, hdistinct⟩ := List.nodup_cons.mp h.distinct
  refine Ok.next tip ?_ hdistinct
  intro r hr
  obtain ⟨hmem, hst⟩ := h.held r (List.mem_cons_of_mem _ hr)
  refine ⟨mem_updateRow.mpr (Or.inl ⟨hmem, ?_⟩), hst⟩
  intro hid
  exact hne (hid ▸ List.mem_map_of_mem hr)

end Confirmer

/-- A step of the broadcaster on its row is not about a row of the
confirmer. -/
lemma Confirmer.Ok.of_update {db : Db} {w : Confirmer} (h : w.Ok db) (keys : db.HasKeys)
    {row : PaymentRow} (hpending : row.status = .pending) (hrow : row ∈ db.payments)
    (f : PaymentRow → PaymentRow) (spent : List SpentOutpoint) :
    w.Ok ⟨updateRow row.id f db.payments, spent⟩ := by
  refine h.frame ?_
  intro r hr hmem
  refine mem_updateRow.mpr (Or.inl ⟨hmem, ?_⟩)
  intro hid
  obtain rfl := keys.eq_of_id hmem hrow hid
  exact absurd (hpending.symm.trans (h.held r hr).2) (by decide)

/-- A step of the confirmer on its row is not about the row of the
broadcaster. -/
lemma Broadcaster.Ok.of_update {db : Db} {w : Broadcaster} (h : w.Ok db) (keys : db.HasKeys)
    {row : PaymentRow} (hbroadcast : row.status = .broadcast) (hrow : row ∈ db.payments)
    (f : PaymentRow → PaymentRow) (spent : List SpentOutpoint) :
    w.Ok ⟨updateRow row.id f db.payments, spent⟩ := by
  intro r hw
  obtain ⟨hmem, hst⟩ := h r hw
  refine ⟨mem_updateRow.mpr (Or.inl ⟨hmem, ?_⟩), hst⟩
  intro hid
  obtain rfl := keys.eq_of_id hmem hrow hid
  exact absurd (hst.symm.trans hbroadcast) (by decide)

/-! ### The system -/

/-- The invariant of the whole system. -/
structure Inv (c : Config) (s : System) : Prop where
  books : BooksOk c s.db s.chain s.built
  chain : s.chain.Sound s.submitted
  origin : ∀ tx ∈ s.submitted, ∃ id, (id, tx) ∈ s.built
  broadcaster : s.broadcaster.Ok s.db
  confirmer : s.confirmer.Ok s.db

/-- A truthful `not-found` far above the expiry height means that the tx is
dead. -/
lemma TxAnswer.Truthful.dead {c : Config} {submitted : List RawTx} {chain : Chain} {tip : Int}
    {view : Int} {tx : RawTx} (hs : chain.Sound submitted)
    (h : (TxAnswer.notFound view).Truthful c chain tip (c.txid tx))
    (hexp : tip > tx.expiryHeight + expirySlack) : chain.Dead tx := by
  obtain ⟨hslack, hview, habove⟩ := h
  have hlt : tx.expiryHeight < view := by omega
  refine ⟨hlt.le.trans hview, ?_⟩
  rintro m hm rfl
  have hle := (hs.heights m hm).2
  have hgt := habove m hm rfl
  omega

section Steps

variable {c : Config} {s : System}

lemma Inv.recordGrant (h : Inv c s) (p : NewPayment) (now : Int) :
    Inv c (recordGrant c s p now) := by
  rw [Bridge.recordGrant]
  split
  · exact ⟨h.books.insert p now, h.chain, h.origin,
      fun row hw => ⟨Db.mem_insertIdempotent (h.broadcaster row hw).1 p now,
        (h.broadcaster row hw).2⟩,
      h.confirmer.frame fun _ _ hr => Db.mem_insertIdempotent hr p now⟩
  · exact h

lemma Inv.recordFailure (h : Inv c s) {row : PaymentRow} (hw : s.broadcaster = .reading row)
    (error : String) (now : Int) :
    Inv c { s with
      db := s.db.recordFailure row.id row.attempts error now
      broadcaster := .idle } := by
  obtain ⟨hrow, hpending⟩ := h.broadcaster row hw
  exact ⟨h.books.recordFailure hrow _ _ _, h.chain, h.origin, .idle _,
    h.confirmer.of_update h.books.keys hpending hrow _ _⟩

lemma Inv.broadcastRow (h : Inv c s) {row : PaymentRow} (hw : s.broadcaster = .reading row)
    (tip : Int) (utxos : List Utxo) (now : Int) :
    Inv c (broadcastRow c s row tip utxos now) := by
  rw [Bridge.broadcastRow]
  split
  · exact h.recordFailure hw _ now
  · rename_i tx amountZats hprep
    obtain ⟨hrow, hpending⟩ := h.broadcaster row hw
    refine ⟨?_, h.chain.mono tx, ?_, .sending _,
      h.confirmer.of_update h.books.keys hpending hrow _ _⟩
    · exact h.books.markBroadcast hrow hpending (preparePayment_inputs_ne_nil hprep) amountZats now
    · intro tx' htx'
      rcases List.mem_cons.mp htx' with rfl | htx'
      · exact ⟨row.id, List.mem_cons_self⟩
      · obtain ⟨id, hid⟩ := h.origin tx' htx'
        exact ⟨id, List.mem_cons_of_mem _ hid⟩

/-- The confirmer moves on and leaves its row as it is. -/
lemma Inv.skip (h : Inv c s) {tip : Int} {row : PaymentRow} {txid : String}
    {rest : List PaymentRow} (hw : s.confirmer = .lookup tip row txid rest) :
    Inv c { s with confirmer := .next tip rest } := by
  have hok := h.confirmer
  rw [hw] at hok
  refine ⟨h.books, h.chain, h.origin, h.broadcaster, Confirmer.Ok.next tip ?_ ?_⟩
  · exact fun r hr => hok.held r (List.mem_cons_of_mem _ hr)
  · exact (List.nodup_cons.mp hok.distinct).2

lemma Inv.confirmRow (h : Inv c s) {tip : Int} {row : PaymentRow} {txid : String}
    {rest : List PaymentRow} (hw : s.confirmer = .lookup tip row txid rest)
    {answer : TxAnswer} (htrue : answer.Truthful c s.chain tip txid) (now : Int) :
    Inv c (confirmRow s tip row txid rest answer now) := by
  have hok := h.confirmer
  rw [hw] at hok
  obtain ⟨hrow, hbroadcast⟩ := hok.held row List.mem_cons_self
  obtain ⟨tx, hset, hraw, htxid, hexp, hbuilt⟩ := (h.books.rows row hrow).broadcast hbroadcast
  cases answer with
  | failed => exact h.skip hw
  | found confirmations =>
      simp only [Bridge.confirmRow]
      split
      · exact ⟨h.books.markConfirmed hrow now, h.chain, h.origin,
          h.broadcaster.of_update h.books.keys hbroadcast hrow _ _, hok.next_of_update _ _⟩
      · exact h.skip hw
  | notFound view =>
      simp only [Bridge.confirmRow]
      split
      · rename_i hlate
        have hdead : s.chain.Dead tx := by
          have hasked : txid = c.txid tx := by
            simpa [htxid] using (hok.asked tip row txid rest rfl).symm
          refine TxAnswer.Truthful.dead h.chain (hasked ▸ htrue) ?_
          simpa [hexp] using hlate
        refine ⟨h.books.resetExpired hrow ?_ txid, h.chain, h.origin,
          h.broadcaster.of_update h.books.keys hbroadcast hrow _ _, hok.next_of_update _ _⟩
        intro tx' hmem
        rcases hset tx' hmem with heq | hd
        · cases heq
          exact hdead
        · exact hd
      · rw [hraw]
        refine ⟨h.books, h.chain.mono tx, ?_, h.broadcaster, ?_⟩
        · intro tx' htx'
          rcases List.mem_cons.mp htx' with rfl | htx'
          · exact ⟨row.id, hbuilt⟩
          · exact h.origin tx' htx'
        · refine ⟨fun r hr => hok.held r (List.mem_cons_of_mem _ hr),
            (List.nodup_cons.mp hok.distinct).2, ?_⟩
          intro _ _ _ _ hw'
          cases hw'

lemma Inv.block (h : Inv c s) {txs : List RawTx} {chain : Chain}
    (hb : s.chain.block s.submitted txs = some chain) : Inv c { s with chain := chain } :=
  ⟨h.books.block fun _ hd => hd.block hb, h.chain.block hb, h.origin, h.broadcaster, h.confirmer⟩

/-- Every step keeps the invariant. -/
lemma step_inv {s' : System} (h : Inv c s) {a : Action} (ha : step c s a = some s') :
    Inv c s' := by
  cases a with
  | grant p now =>
      cases ha
      exact h.recordGrant p now
  | broadcasterTick now =>
      simp only [step] at ha
      split at ha
      · split at ha
        · cases ha
          exact h
        · rename_i row hnext
          cases ha
          refine ⟨h.books, h.chain, h.origin, ?_, h.confirmer⟩
          intro row' hw
          cases hw
          have hp := List.find?_some hnext
          exact ⟨List.mem_of_find?_eq_some hnext, by simpa using (decide_eq_true_iff.mp hp).1⟩
      · cases ha
  | chainRead tip utxos now =>
      simp only [step] at ha
      split at ha
      · rename_i row hw
        cases ha
        exact h.broadcastRow hw tip utxos now
      · cases ha
  | chainReadFailed error now =>
      simp only [step] at ha
      split at ha
      · rename_i row hw
        cases ha
        exact h.recordFailure hw error now
      · cases ha
  | submitDone =>
      simp only [step] at ha
      split at ha
      · cases ha
        exact ⟨h.books, h.chain, h.origin, .idle _, h.confirmer⟩
      · cases ha
  | confirmerTick =>
      simp only [step] at ha
      split at ha
      · split at ha
        · cases ha
          exact h
        · cases ha
          refine ⟨h.books, h.chain, h.origin, h.broadcaster, ?_, ?_, ?_⟩
          · intro r hr
            simpa [Db.allBroadcast] using List.mem_filter.mp hr
          · exact h.books.keys.sublist (List.filter_sublist.map _)
          · intro _ _ _ _ hw
            cases hw
      · cases ha
  | tipRead tip =>
      simp only [step] at ha
      split at ha
      · rename_i rows hw
        cases ha
        have hok := h.confirmer
        rw [hw] at hok
        exact ⟨h.books, h.chain, h.origin, h.broadcaster,
          Confirmer.Ok.next tip hok.held hok.distinct⟩
      · cases ha
  | tipReadFailed =>
      simp only [step] at ha
      split at ha
      · cases ha
        exact ⟨h.books, h.chain, h.origin, h.broadcaster, .idle _⟩
      · cases ha
  | txRead answer now =>
      simp only [step] at ha
      split at ha
      · rename_i tip row txid rest hw
        split at ha
        · rename_i htrue
          cases ha
          exact h.confirmRow hw htrue now
        · cases ha
      · cases ha
  | resubmitDone =>
      simp only [step] at ha
      split at ha
      · rename_i tip rest hw
        cases ha
        have hok := h.confirmer
        rw [hw] at hok
        exact ⟨h.books, h.chain, h.origin, h.broadcaster,
          Confirmer.Ok.next tip hok.held hok.distinct⟩
      · cases ha
  | crash =>
      cases ha
      exact ⟨h.books, h.chain, h.origin, .idle _, .idle _⟩
  | block txs =>
      simp only [step] at ha
      obtain ⟨chain, hb, rfl⟩ := Option.map_eq_some_iff.mp ha
      exact h.block hb

end Steps

lemma Inv.init (c : Config) (height : Int) : Inv c (System.init height) where
  books := ⟨List.nodup_nil, List.forall_mem_nil _, List.forall_mem_nil _⟩
  chain := ⟨List.forall_mem_nil _, List.forall_mem_nil _, List.Pairwise.nil⟩
  origin := List.forall_mem_nil _
  broadcaster := .idle _
  confirmer := .idle _

/-- The mined txs that were built for a row. -/
def System.minedFor (s : System) (id : Nat) : List Mined :=
  s.chain.mined.filter fun m => (id, m.tx) ∈ s.built

/-- Under the invariant the mined txs of a row share their coins, so there is
at most one of them. -/
lemma Inv.length_minedFor {c : Config} {s : System} (h : Inv c s) (id : Nat) :
    (s.minedFor id).length ≤ 1 := by
  have hpair := h.chain.spentOnce.sublist (List.filter_sublist (p := fun m => (id, m.tx) ∈ s.built))
  have hmem : ∀ m ∈ s.minedFor id, m ∈ s.chain.mined ∧ (id, m.tx) ∈ s.built := by
    intro m hm
    simpa using List.mem_filter.mp hm
  rcases hlist : s.minedFor id with _ | ⟨m, _ | ⟨m', rest⟩⟩
  · simp
  · simp
  · rw [hlist] at hmem
    obtain ⟨hm, hb⟩ := hmem m List.mem_cons_self
    obtain ⟨hm', hb'⟩ := hmem m' (List.mem_cons_of_mem _ List.mem_cons_self)
    obtain ⟨⟨r, hr, rfl⟩, hne⟩ := h.books.owned _ hb
    obtain ⟨cur, hcur⟩ := (h.books.rows r hr).settled
    have halive : ∀ m ∈ s.chain.mined, (r.id, m.tx) ∈ s.built → some m.tx = cur := by
      intro m hm hb
      exact (hcur m.tx hb).resolve_right fun hd => hd.2 m hm rfl
    have htx : m.tx = m'.tx := Option.some.inj ((halive m hm hb).trans (halive m' hm' hb').symm)
    have hdisj : ∀ o ∈ m.tx.inputs, o ∉ m'.tx.inputs := by
      rw [System.minedFor] at hlist
      rw [hlist] at hpair
      exact (List.pairwise_cons.mp hpair).1 m' List.mem_cons_self
    obtain ⟨o, ho⟩ := List.exists_mem_of_ne_nil _ hne
    exact absurd (htx ▸ ho) (hdisj o ho)

/-- **Pay at most once**: after any run from an empty database every mined tx
was built for some row, and at most one tx is mined for each row. -/
theorem minedFor_length_le_one (c : Config) (height : Int) {as : List Action} {s : System}
    (h : exec (step c) (System.init height) as = some s) :
    (∀ m ∈ s.chain.mined, ∃ id, m ∈ s.minedFor id) ∧ ∀ id, (s.minedFor id).length ≤ 1 := by
  have hinv : Inv c s :=
    Reachable.induction ⟨as, h⟩ (Inv.init c height) fun _ _ _ hi ha => step_inv hi ha
  refine ⟨?_, hinv.length_minedFor⟩
  intro m hm
  obtain ⟨id, hid⟩ := hinv.origin m.tx (hinv.chain.submitted m hm)
  exact ⟨id, List.mem_filter.mpr ⟨hm, by simpa using hid⟩⟩

/-! ### A row that is built twice -/

/-- A bridge that pays for one code. -/
def rebuiltConfig : Config where
  treasury := "t1treasury"
  paymentAddress := "t1pay"
  priceSchedule := .flat 20 twenty_pos
  feeZats := 2000
  isValidPaymentCode := fun code => code = "abc"
  txid := fun tx => toString tx.expiryHeight

/-- A coin that covers a payment. -/
def rebuiltCoin : Utxo := ⟨⟨"c0", 1⟩, 3000000000, 10⟩

/-- The second tx of the row. -/
def rebuiltTx : RawTx where
  inputs := [rebuiltCoin.outpoint]
  outputs := [.pay "t1pay" 2000000000, .nullData "CVPN1:abc", .pay "t1treasury" 999998000]
  expiryHeight := 202

/-- The process dies while the first tx is sent; it is never mined, and the
row is built again from the same coin. -/
def rebuiltRun : List Action :=
  [.grant ⟨.stripe, "evt", "cs", "abc", 30, 0⟩ 0, .broadcasterTick 1,
    .chainRead 100 [rebuiltCoin] 2, .crash] ++
  List.replicate 62 (.block []) ++
  [.confirmerTick, .tipRead 162, .txRead (.notFound 161) 3, .broadcasterTick 4,
    .chainRead 162 [rebuiltCoin] 5, .submitDone, .block [rebuiltTx], .confirmerTick,
    .tipRead 163, .txRead (.found 1) 6]

/-- The row has two txs, of which one is mined. -/
theorem minedFor_length_le_one_rebuiltRun :
    ∃ s, exec (step rebuiltConfig) (System.init 100) rebuiltRun = some s ∧
      s.built.length = 2 ∧ (s.minedFor 1).length = 1 ∧
      (∀ m ∈ s.chain.mined, ∃ id, m ∈ s.minedFor id) ∧ ∀ id, (s.minedFor id).length ≤ 1 := by
  have hrun : (exec (step rebuiltConfig) (System.init 100) rebuiltRun).any fun s =>
      s.built.length = 2 ∧ (s.minedFor 1).length = 1 := by decide +kernel
  obtain ⟨s, hs, hlen⟩ := (Option.any_eq_true _ _).mp hrun
  obtain ⟨hbuilt, hmined⟩ := decide_eq_true_iff.mp hlen
  exact ⟨s, hs, hbuilt, hmined, minedFor_length_le_one rebuiltConfig 100 hs⟩

end CumulusVpn.Bridge
