/-
Reading the history of the payment address (`gateway/internal/fluxnode`).

* `decodeOpReturn`, `normalizeTx`: a transaction of the explorer, and what the
  engine keeps of it;
* `History`: what an explorer lists, unconfirmed entries first and then the
  confirmed ones, newest first;
* `Reader`, `readPage`, `AddressTxs.step`: the loop of `AddressTxs`, a page at a
  time, with what happens to the history in between;
* `Steady`: no payment crosses the offset unread between two pages;
* `Reading`: what has been read and what is still ahead;
* `addressTxs_complete`: **a steady call returns every payment once, oldest
  first**; `not_addressTxs_complete` is a call that loses one.
-/
import Mathlib.Data.List.Nodup
import CumulusVpn.Gateway.Entitle
import CumulusVpn.Lib.StepSystem
import CumulusVpn.Split.Cidr

namespace CumulusVpn.Fluxnode

open StepSystem

/-! ### Transactions -/

/-- An output, as the explorer shows it. -/
structure Vout where
  /-- what the text of the amount reads as, if it is a number -/
  value : Option ℚ
  /-- the script -/
  hex : String
  addresses : List String
deriving DecidableEq, Repr

/-- A transaction as the explorer lists it; it has no height before it is mined. -/
structure InsightTx where
  txid : String
  blockheight : Int
  time : Int
  vout : List Vout
deriving DecidableEq, Repr

namespace InsightTx

/-- The tx is in a block. -/
def Confirmed (t : InsightTx) : Prop := 0 < t.blockheight

instance (t : InsightTx) : Decidable t.Confirmed := inferInstanceAs (Decidable (0 < _))

end InsightTx

/-- `hex.DecodeString` -/
def decodeHex : List Char → Option (List Nat)
  | [] => some []
  | [_] => none
  | a :: b :: cs =>
      if Split.isHex a && Split.isHex b then
        (decodeHex cs).map ((16 * Split.hexDigitValue a + Split.hexDigitValue b) :: ·)
      else none

/-- The text of some bytes; bytes that are no UTF-8 are kept one by one. -/
def bytesText (data : List Nat) : String :=
  (String.fromUTF8? ⟨(data.map UInt8.ofNat).toArray⟩).getD (String.ofList (data.map Char.ofNat))

/-- The string of the first `n` bytes, if there are so many. -/
def pushed (n : Nat) (data : List Nat) : Option String :=
  if data.length < n then none else some (bytesText (data.take n))

/-- The memo of a script that is `OP_RETURN` with one push. -/
def decodeOpReturn (scriptHex : String) : Option String :=
  match decodeHex scriptHex.toList with
  | some (0x6a :: n :: data) =>
      if n ≤ 0x4b then pushed n data
      else if n = 0x4c then
        match data with
        | [] => none
        | n :: data => pushed n data
      else none
  | _ => none

/-- What an output pays to the address. -/
def Vout.amountTo (addr : String) (v : Vout) : ℚ :=
  if (decodeOpReturn v.hex).isSome ∨ addr = "" then 0
  else v.addresses.count addr * v.value.getD 0

/-- What the ledger takes of a tx. -/
def normalizeTx (tx : InsightTx) (addr : String) : Tx where
  txID := tx.txid
  height := tx.blockheight
  time := tx.time
  amountTo := (tx.vout.map (Vout.amountTo addr)).sum
  memos := tx.vout.filterMap fun v => decodeOpReturn v.hex

/-! ### The history at the explorer -/

/-- What the explorer lists of an address. -/
structure History where
  mempool : List InsightTx
  chain : List InsightTx
  tip : Int
  unconfirmed : ∀ t ∈ mempool, t.blockheight = -1
  confirmed : ∀ t ∈ chain, t.Confirmed ∧ t.blockheight ≤ tip
  newestFirst : chain.Pairwise fun t u => u.blockheight ≤ t.blockheight
  once : ((mempool ++ chain).map InsightTx.txid).Nodup
  tip_nonneg : 0 ≤ tip

namespace History

/-- The list that is served page by page. -/
def items (h : History) : List InsightTx := h.mempool ++ h.chain

/-- An unconfirmed transaction at the head. -/
def arrive (h : History) (t : InsightTx)
    (hnew : t.blockheight = -1 ∧ t.txid ∉ h.items.map InsightTx.txid) : History where
  mempool := t :: h.mempool
  chain := h.chain
  tip := h.tip
  unconfirmed := List.forall_mem_cons.mpr ⟨hnew.1, h.unconfirmed⟩
  confirmed := h.confirmed
  newestFirst := h.newestFirst
  once := List.nodup_cons.mpr ⟨hnew.2, h.once⟩
  tip_nonneg := h.tip_nonneg

lemma once_filter (h : History) (p : InsightTx → Bool) :
    ((h.mempool.filter p ++ h.chain).map InsightTx.txid).Nodup :=
  h.once.sublist ((List.filter_sublist.append (List.Sublist.refl _)).map _)

/-- An unconfirmed transaction is given up. -/
def drop (h : History) (txid : String) : History where
  mempool := h.mempool.filter fun t => t.txid ≠ txid
  chain := h.chain
  tip := h.tip
  unconfirmed t ht := h.unconfirmed t (List.mem_of_mem_filter ht)
  confirmed := h.confirmed
  newestFirst := h.newestFirst
  once := h.once_filter _
  tip_nonneg := h.tip_nonneg

/-- The transactions of the next block. -/
def Mines (h : History) (txs : List InsightTx) : Prop :=
  (∀ t ∈ txs, t.blockheight = h.tip + 1 ∧ t.txid ∉ h.chain.map InsightTx.txid) ∧
    (txs.map InsightTx.txid).Nodup

instance (h : History) (txs : List InsightTx) : Decidable (h.Mines txs) :=
  inferInstanceAs (Decidable (_ ∧ _))

/-- A block is mined. -/
def block (h : History) (txs : List InsightTx) (hmines : h.Mines txs) : History where
  mempool := h.mempool.filter fun t => t.txid ∉ txs.map InsightTx.txid
  chain := txs ++ h.chain
  tip := h.tip + 1
  unconfirmed t ht := h.unconfirmed t (List.mem_of_mem_filter ht)
  confirmed t ht := by
    have hnonneg := h.tip_nonneg
    rcases List.mem_append.mp ht with hnew | hold
    · have hheight := (hmines.1 t hnew).1
      refine ⟨?_, hheight.le⟩
      change 0 < t.blockheight
      omega
    · exact ⟨(h.confirmed t hold).1, (h.confirmed t hold).2.trans (by omega)⟩
  newestFirst := by
    refine List.pairwise_append.mpr ⟨?_, h.newestFirst, fun t ht u hu => ?_⟩
    · refine List.pairwise_of_forall_mem_list fun t ht u hu => ?_
      rw [(hmines.1 t ht).1, (hmines.1 u hu).1]
    · rw [(hmines.1 t ht).1]
      exact (h.confirmed u hu).2.trans (by omega)
  once := by
    have hsplit := List.nodup_append.mp (by simpa using h.once)
    have hmempool : ((h.mempool.filter fun t => t.txid ∉ txs.map InsightTx.txid).map
        InsightTx.txid).Nodup :=
      (h.once_filter _).sublist ((List.sublist_append_left _ _).map _)
    have hchain : ((txs ++ h.chain).map InsightTx.txid).Nodup := by
      rw [List.map_append]
      refine List.nodup_append.mpr ⟨hmines.2, hsplit.2.1, fun a ha b hb hab => ?_⟩
      obtain ⟨t, ht, rfl⟩ := List.mem_map.mp ha
      exact (hmines.1 t ht).2 (hab ▸ hb)
    rw [List.map_append]
    refine List.nodup_append.mpr ⟨hmempool, hchain, fun a ha b hb hab => ?_⟩
    subst hab
    obtain ⟨t, ht, rfl⟩ := List.mem_map.mp ha
    obtain ⟨hold, hnot⟩ := List.mem_filter.mp ht
    rw [List.map_append, List.mem_append] at hb
    rcases hb with hmined | hlisted
    · exact of_decide_eq_true hnot hmined
    · exact hsplit.2.2 _ (List.mem_map_of_mem hold) _ hlisted rfl
  tip_nonneg := by
    have hnonneg := h.tip_nonneg
    omega

lemma mem_chain {h : History} {t : InsightTx} (ht : t ∈ h.items) (hconf : t.Confirmed) :
    t ∈ h.chain := by
  rcases List.mem_append.mp ht with hpending | hmined
  · rw [InsightTx.Confirmed, h.unconfirmed t hpending] at hconf
    exact absurd hconf (by decide)
  · exact hmined

/-- One txid, one transaction. -/
lemma eq_of_txid_eq {h : History} {t u : InsightTx} (ht : t ∈ h.chain) (hu : u ∈ h.chain)
    (htxid : t.txid = u.txid) : t = u := by
  have hsplit := List.nodup_append.mp (by simpa using h.once)
  exact List.inj_on_of_nodup_map hsplit.2.1 ht hu htxid

/-- Behind a confirmed entry there is none that is newer. -/
lemma items_newestFirst (h : History) : h.items.Pairwise fun t u =>
    t.Confirmed → u.Confirmed → u.blockheight ≤ t.blockheight := by
  refine List.pairwise_append.mpr
    ⟨?_, h.newestFirst.imp fun hle _ _ => hle, fun t ht u _ hconf => ?_⟩
  · refine List.pairwise_of_forall_mem_list fun t ht u _ hconf => ?_
    rw [InsightTx.Confirmed, h.unconfirmed t ht] at hconf
    exact absurd hconf (by decide)
  · rw [InsightTx.Confirmed, h.unconfirmed t ht] at hconf
    exact absurd hconf (by decide)

end History

/-! ### The loop -/

/-- How many txs the explorer shows on a page. -/
def pageSize : Nat := 50

/-- The loop variables of `AddressTxs`, and what it has returned. -/
structure Reader where
  from_ : Nat
  seen : List String
  /-- newest first -/
  out : List Tx
  returned : Option (List Tx)
deriving DecidableEq

/-- The entries of one page, up to the first that is not above the cursor. -/
def readPage (addr : String) (afterHeight : Int) : List InsightTx → Reader → Reader
  | [], r => r
  | tx :: items, r =>
      -- unconfirmed
      if tx.blockheight ≤ 0 then readPage addr afterHeight items r
      else if tx.txid ∈ r.seen then readPage addr afterHeight items r
      else if tx.blockheight ≤ afterHeight then
        { r with seen := tx.txid :: r.seen, returned := some r.out.reverse }
      else
        readPage addr afterHeight items
          { r with seen := tx.txid :: r.seen, out := r.out ++ [normalizeTx tx addr] }

/-- The page between two positions, and the number of entries that there are. -/
def addrTxPage (items : List InsightTx) (from_ to_ : Nat) : Nat × List InsightTx :=
  (items.length, (items.take to_).drop from_)

/-- One turn of the loop. -/
def Reader.turn (addr : String) (afterHeight : Int) (items : List InsightTx) (r : Reader) :
    Reader :=
  let page := addrTxPage items r.from_ (r.from_ + pageSize)
  let r := readPage addr afterHeight page.2 r
  if r.returned.isSome then r
  else
    let r := { r with from_ := r.from_ + pageSize }
    if page.1 ≤ r.from_ ∨ page.2.length = 0 then { r with returned := some r.out.reverse } else r

/-- A call, and the history at the explorer. -/
structure AddressTxs where
  history : History
  /-- what was listed when the last page was served -/
  served : List InsightTx
  reader : Reader

namespace AddressTxs

/-- A page that is read, or a change at the explorer between two pages. -/
inductive Event
  | arrive (t : InsightTx)
  | drop (txid : String)
  | block (txs : List InsightTx)
  | page
deriving DecidableEq

/-- A read that begins. -/
def begin_ (h : History) : AddressTxs := ⟨h, h.items, ⟨0, [], [], none⟩⟩

/-- The read after an event; none where it cannot happen. -/
def step (addr : String) (afterHeight : Int) (c : AddressTxs) : Event → Option AddressTxs
  | .arrive t =>
      if hnew : t.blockheight = -1 ∧ t.txid ∉ c.history.items.map InsightTx.txid then
        some { c with history := c.history.arrive t hnew }
      else none
  | .drop txid => some { c with history := c.history.drop txid }
  | .block txs =>
      if hmines : c.history.Mines txs then
        some { c with history := c.history.block txs hmines }
      else none
  | .page =>
      if c.reader.returned.isNone then
        some { c with
          served := c.history.items
          reader := c.reader.turn addr afterHeight c.history.items }
      else none

/-- Since the last page no payment has moved ahead of the offset unread, and,
once one has been read, no other one behind it. -/
def Steady (afterHeight : Int) (c : AddressTxs) : Event → Prop
  | .page =>
      (∀ t ∈ c.served.drop c.reader.from_, t ∈ c.history.items.take c.reader.from_ →
        t.Confirmed → t.txid ∈ c.reader.seen ∨ t.blockheight ≤ afterHeight) ∧
      (c.reader.out ≠ [] → ∀ t ∈ c.history.items.drop c.reader.from_, t.Confirmed →
        t.txid ∈ c.reader.seen ∨ t ∈ c.served.drop c.reader.from_)
  | _ => True

instance (afterHeight : Int) (c : AddressTxs) : (e : Event) → Decidable (Steady afterHeight c e)
  | .page => inferInstanceAs (Decidable (_ ∧ _))
  | .arrive _ | .drop _ | .block _ => inferInstanceAs (Decidable True)

/-- Every transaction above the cursor once, oldest first. -/
structure Complete (addr : String) (afterHeight : Int) (began : List InsightTx)
    (txs : List Tx) : Prop where
  once : ∀ t ∈ began, afterHeight < t.blockheight →
    txs.filter (fun tx => tx.txID = t.txid) = [normalizeTx t addr]
  oldestFirst : txs.Pairwise fun tx tx' => tx.height ≤ tx'.height

/-! ### What has been read -/

/-- The transactions `read` have been read, and what is still to be read of
those there were when the call began is `ahead`. -/
structure Reading (addr : String) (afterHeight : Int) (began chain : List InsightTx)
    (r : Reader) (read ahead : List InsightTx) : Prop where
  out : r.out = read.map fun t => normalizeTx t addr
  seen : ∀ id, id ∈ r.seen ↔ id ∈ read.map InsightTx.txid
  returned : r.returned = none
  mined : ∀ t ∈ read, t ∈ chain
  once : (read.map InsightTx.txid).Nodup
  newestFirst : read.Pairwise fun t u => u.blockheight ≤ t.blockheight
  unread : ∀ t ∈ began, afterHeight < t.blockheight → t ∈ read ∨ t ∈ ahead
  older : ∀ t ∈ ahead, t.Confirmed → t.txid ∉ r.seen → ∀ u ∈ read,
    t.blockheight ≤ u.blockheight

namespace Reading

variable {addr : String} {afterHeight : Int} {began chain ahead : List InsightTx} {r : Reader}
  {read : List InsightTx} {h : History} {t : InsightTx}

lemma filter_txid {l : List InsightTx} (hnodup : (l.map InsightTx.txid).Nodup) (ht : t ∈ l) :
    l.filter (fun u => u.txid = t.txid) = [t] := by
  have hcongr : l.filter (fun u => u.txid = t.txid) = l.filter (fun u => u = t) :=
    List.filter_congr fun u hu => by
      refine decide_eq_decide.mpr ⟨fun htxid => ?_, fun hut => hut ▸ rfl⟩
      exact List.inj_on_of_nodup_map hnodup hu ht htxid
  calc l.filter (fun u => u.txid = t.txid)
      = l.filter (fun u => u = t) := hcongr
    _ = List.replicate (l.count t) t := List.filter_eq _
    _ = [t] := by rw [List.count_eq_one_of_mem (List.Nodup.of_map _ hnodup) ht]; rfl

/-- With nothing due ahead, what has been read is all. -/
lemma complete (hr : Reading addr afterHeight began chain r read ahead)
    (hnone : ∀ t ∈ began, t ∈ ahead → t.blockheight ≤ afterHeight) :
    Complete addr afterHeight began r.out.reverse where
  once t ht habove := by
    have hread : t ∈ read := (hr.unread t ht habove).resolve_right fun hahead =>
      absurd habove (not_lt.mpr (hnone t ht hahead))
    have hone := filter_txid hr.once hread
    rw [hr.out, ← List.map_reverse, List.filter_map, List.filter_reverse]
    change ((read.filter fun u => u.txid = t.txid).reverse).map _ = _
    rw [hone]
    rfl
  oldestFirst := by
    rw [hr.out, List.pairwise_reverse, List.pairwise_map]
    exact hr.newestFirst

/-- An entry that the loop passes over. -/
lemma skip (hr : Reading addr afterHeight began h.chain r read (t :: ahead))
    (hbegan : ∀ t ∈ began, t ∈ h.chain) (hskip : ¬ t.Confirmed ∨ t.txid ∈ r.seen) :
    Reading addr afterHeight began h.chain r read ahead where
  out := hr.out
  seen := hr.seen
  returned := hr.returned
  mined := hr.mined
  once := hr.once
  newestFirst := hr.newestFirst
  unread u hu habove := by
    rcases hr.unread u hu habove with hread | hahead
    · exact Or.inl hread
    · rcases List.mem_cons.mp hahead with rfl | hlater
      · have hmined := hbegan u hu
        have hseen := hskip.resolve_left (not_not_intro (h.confirmed u hmined).1)
        obtain ⟨v, hv, htxid⟩ := List.mem_map.mp ((hr.seen _).mp hseen)
        exact Or.inl (History.eq_of_txid_eq (hr.mined v hv) hmined htxid ▸ hv)
      · exact Or.inr hlater
  older u hu := hr.older u (List.mem_cons_of_mem _ hu)

/-- A payment is read. -/
lemma take (hr : Reading addr afterHeight began h.chain r read (t :: ahead))
    (hconf : t.Confirmed) (hmined : t ∈ h.chain) (hnew : t.txid ∉ r.seen)
    (hsorted : ∀ u ∈ ahead, u.Confirmed → u.blockheight ≤ t.blockheight) :
    Reading addr afterHeight began h.chain
      { r with seen := t.txid :: r.seen, out := r.out ++ [normalizeTx t addr] }
      (read ++ [t]) ahead where
  out := by simp [hr.out]
  seen id := by simp [hr.seen id, or_comm]
  returned := hr.returned
  mined u hu := by
    rcases List.mem_append.mp hu with hread | hlast
    · exact hr.mined u hread
    · exact List.mem_singleton.mp hlast ▸ hmined
  once := by
    rw [List.map_append, List.nodup_append]
    refine ⟨hr.once, List.nodup_singleton _, fun a ha b hb hab => ?_⟩
    rw [List.map_singleton, List.mem_singleton] at hb
    exact hnew ((hr.seen _).mpr (hb ▸ hab ▸ ha))
  newestFirst := by
    refine List.pairwise_append.mpr
      ⟨hr.newestFirst, List.pairwise_singleton _ _, fun u hu v hv => ?_⟩
    rw [List.mem_singleton.mp hv]
    exact hr.older t List.mem_cons_self hconf hnew u hu
  unread u hu habove := by
    rcases hr.unread u hu habove with hread | hahead
    · exact Or.inl (List.mem_append_left _ hread)
    · rcases List.mem_cons.mp hahead with rfl | hlater
      · exact Or.inl (List.mem_append_right _ List.mem_cons_self)
      · exact Or.inr hlater
  older u hu hconf' hunseen v hv := by
    rcases List.mem_append.mp hv with hread | hlast
    · exact hr.older u (List.mem_cons_of_mem _ hu) hconf'
        (fun hseen => hunseen (List.mem_cons_of_mem _ hseen)) v hread
    · rw [List.mem_singleton.mp hlast]
      exact hsorted u hu hconf'

/-- A page is read to its end, or to where the call returns. -/
lemma readPage_cases {page rest : List InsightTx}
    (hr : Reading addr afterHeight began h.chain r read (page ++ rest))
    (hbegan : ∀ t ∈ began, t ∈ h.chain)
    (hmined : ∀ t ∈ page, t.Confirmed → t ∈ h.chain)
    (hsorted : (page ++ rest).Pairwise fun t u =>
      t.Confirmed → u.Confirmed → u.blockheight ≤ t.blockheight) :
    (∃ txs, (readPage addr afterHeight page r).returned = some txs ∧
      Complete addr afterHeight began txs) ∨
    (readPage addr afterHeight page r).from_ = r.from_ ∧
      ∃ read', Reading addr afterHeight began h.chain (readPage addr afterHeight page r)
        read' rest := by
  induction page generalizing r read with
  | nil => exact Or.inr ⟨rfl, read, hr⟩
  | cons t page ih =>
      obtain ⟨hfirst, hsorted⟩ := List.pairwise_cons.mp hsorted
      have hmined' : ∀ u ∈ page, u.Confirmed → u ∈ h.chain := fun u hu =>
        hmined u (List.mem_cons_of_mem _ hu)
      rw [readPage]
      split
      · rename_i hunconf
        exact ih (hr.skip hbegan (Or.inl (not_lt.mpr hunconf))) hmined' hsorted
      · rename_i hconf
        have hconf : t.Confirmed := not_le.mp hconf
        split
        · rename_i hseen
          exact ih (hr.skip hbegan (Or.inr hseen)) hmined' hsorted
        · rename_i hnew
          split
          · -- the first that is not above the cursor: nothing behind it is either
            rename_i hcursor
            refine Or.inl ⟨_, rfl, hr.complete fun u hu hahead => ?_⟩
            rcases List.mem_cons.mp hahead with rfl | hlater
            · exact hcursor
            · exact (hfirst u hlater hconf (h.confirmed u (hbegan u hu)).1).trans hcursor
          · exact ih (hr.take hconf (hmined t List.mem_cons_self hconf) hnew fun u hu =>
              hfirst u hu hconf) hmined' hsorted

/-- One turn of the loop. -/
lemma turn (hr : Reading addr afterHeight began h.chain r read (h.items.drop r.from_))
    (hbegan : ∀ t ∈ began, t ∈ h.chain) :
    (∃ txs, (r.turn addr afterHeight h.items).returned = some txs ∧
      Complete addr afterHeight began txs) ∨
    ∃ read', Reading addr afterHeight began h.chain (r.turn addr afterHeight h.items) read'
      (h.items.drop (r.turn addr afterHeight h.items).from_) := by
  set page := (h.items.take (r.from_ + pageSize)).drop r.from_ with hpage
  have hpage' : page = (h.items.drop r.from_).take pageSize := by
    rw [hpage, List.take_drop, Nat.add_comm]
  have hsplit : page ++ h.items.drop (r.from_ + pageSize) = h.items.drop r.from_ := by
    rw [hpage', ← List.drop_drop, List.take_append_drop]
  have hcases := readPage_cases (hsplit ▸ hr) hbegan
    (fun t ht hconf => History.mem_chain (List.mem_of_mem_drop (hsplit ▸ List.mem_append_left _ ht))
      hconf) (hsplit ▸ h.items_newestFirst.drop)
  have hturn : r.turn addr afterHeight h.items =
      if (readPage addr afterHeight page r).returned.isSome then readPage addr afterHeight page r
      else if h.items.length ≤ (readPage addr afterHeight page r).from_ + pageSize ∨
          page.length = 0 then
        { readPage addr afterHeight page r with
          from_ := (readPage addr afterHeight page r).from_ + pageSize
          returned := some (readPage addr afterHeight page r).out.reverse }
      else { readPage addr afterHeight page r with
          from_ := (readPage addr afterHeight page r).from_ + pageSize } := rfl
  rw [hturn]
  rcases hcases with ⟨txs, htxs, hcomplete⟩ | ⟨hfrom, read', hr'⟩
  · rw [if_pos (by rw [htxs]; rfl)]
    exact Or.inl ⟨txs, htxs, hcomplete⟩
  · rw [if_neg (by rw [hr'.returned]; exact Bool.false_ne_true), hfrom]
    split
    · rename_i hend
      -- nothing is listed behind the page
      have hrest : h.items.drop (r.from_ + pageSize) = [] := by
        rcases hend with hlast | hempty
        · exact List.drop_eq_nil_of_le hlast
        · have hnil : h.items.drop r.from_ = [] := by
            rw [hpage', List.length_take] at hempty
            refine List.length_eq_zero_iff.mp ?_
            rw [pageSize] at hempty
            omega
          rw [← List.drop_drop, hnil, List.drop_nil]
      rw [hrest] at hr'
      exact Or.inl ⟨_, rfl, hr'.complete fun t _ hahead => absurd hahead List.not_mem_nil⟩
    · exact Or.inr ⟨read', hr'.out, hr'.seen, hr'.returned, hr'.mined, hr'.once, hr'.newestFirst,
        hr'.unread, hr'.older⟩

/-- The chain grows under the call. -/
lemma grow {chain' : List InsightTx} (hr : Reading addr afterHeight began chain r read ahead)
    (hgrow : ∀ t ∈ chain, t ∈ chain') : Reading addr afterHeight began chain' r read ahead where
  out := hr.out
  seen := hr.seen
  returned := hr.returned
  mined t ht := hgrow t (hr.mined t ht)
  once := hr.once
  newestFirst := hr.newestFirst
  unread := hr.unread
  older := hr.older

/-- What is ahead in a steady call is listed behind the offset. -/
lemma steady {c : AddressTxs}
    (hr : Reading addr afterHeight began c.history.chain c.reader read
      (c.served.drop c.reader.from_))
    (hbegan : ∀ t ∈ began, t ∈ c.history.chain) (hsteady : Steady afterHeight c .page) :
    Reading addr afterHeight began c.history.chain c.reader read
      (c.history.items.drop c.reader.from_) where
  out := hr.out
  seen := hr.seen
  returned := hr.returned
  mined := hr.mined
  once := hr.once
  newestFirst := hr.newestFirst
  unread t ht habove := by
    rcases hr.unread t ht habove with hread | hahead
    · exact Or.inl hread
    · have hmined := hbegan t ht
      have hitem :
          t ∈ c.history.items.take c.reader.from_ ++ c.history.items.drop c.reader.from_ := by
        rw [List.take_append_drop]
        exact List.mem_append_right _ hmined
      rcases List.mem_append.mp hitem with hbefore | hbehind
      · rcases hsteady.1 t hahead hbefore (c.history.confirmed t hmined).1 with hseen | hcursor
        · obtain ⟨u, hu, htxid⟩ := List.mem_map.mp ((hr.seen _).mp hseen)
          exact Or.inl (History.eq_of_txid_eq (hr.mined u hu) hmined htxid ▸ hu)
        · exact absurd habove (not_lt.mpr hcursor)
      · exact Or.inr hbehind
  older t ht hconf hnew u hu := by
    have hsome : c.reader.out ≠ [] := by
      rw [hr.out]
      exact fun hnil => List.ne_nil_of_mem hu (List.map_eq_nil_iff.mp hnil)
    exact hr.older t ((hsteady.2 hsome t ht hconf).resolve_left hnew) hconf hnew u hu

end Reading

/-! ### A call -/

/-- The call has returned every payment, or is still reading. -/
structure Sound (addr : String) (afterHeight : Int) (began : List InsightTx) (c : AddressTxs) :
    Prop where
  kept : ∀ t ∈ began, t ∈ c.history.chain
  reads : (∃ txs, c.reader.returned = some txs ∧ Complete addr afterHeight began txs) ∨
    ∃ read, Reading addr afterHeight began c.history.chain c.reader read
      (c.served.drop c.reader.from_)

namespace Sound

variable {addr : String} {afterHeight : Int} {began : List InsightTx} {c c' : AddressTxs}

lemma grow {h : History} (hs : Sound addr afterHeight began c)
    (hgrow : ∀ t ∈ c.history.chain, t ∈ h.chain) :
    Sound addr afterHeight began { c with history := h } where
  kept t ht := hgrow t (hs.kept t ht)
  reads := hs.reads.imp_right fun ⟨read, hr⟩ => ⟨read, hr.grow hgrow⟩

lemma step {e : Event} (hs : Sound addr afterHeight began c) (hsteady : Steady afterHeight c e)
    (hstep : AddressTxs.step addr afterHeight c e = some c') :
    Sound addr afterHeight began c' := by
  cases e with
  | arrive t =>
      rw [AddressTxs.step] at hstep
      split at hstep <;> cases hstep
      exact hs.grow fun t ht => ht
  | drop txid =>
      cases hstep
      exact hs.grow fun t ht => ht
  | block txs =>
      rw [AddressTxs.step] at hstep
      split at hstep <;> cases hstep
      exact hs.grow fun t ht => List.mem_append_right _ ht
  | page =>
      rw [AddressTxs.step] at hstep
      split at hstep <;> cases hstep
      rename_i hreading
      rcases hs.reads with ⟨txs, htxs, -⟩ | ⟨read, hr⟩
      · rw [htxs] at hreading
        cases hreading
      · exact ⟨hs.kept, (hr.steady hs.kept hsteady).turn hs.kept⟩

lemma start (h : History) : Sound addr afterHeight h.chain (begin_ h) where
  kept t ht := ht
  reads := by
    refine Or.inr ⟨[], rfl, fun id => by simp [begin_], rfl, ?_, List.nodup_nil, List.Pairwise.nil,
      fun t ht _ => Or.inr (List.mem_append_right _ ht), ?_⟩
    · exact fun t ht => absurd ht List.not_mem_nil
    · exact fun t _ _ _ u hu => absurd hu List.not_mem_nil

end Sound

/-! ### It returns -/

lemma readPage_from (addr : String) (afterHeight : Int) (page : List InsightTx) (r : Reader) :
    (readPage addr afterHeight page r).from_ = r.from_ := by
  induction page generalizing r with
  | nil => rfl
  | cons t page ih =>
      rw [readPage]
      split
      · exact ih r
      · split
        · exact ih r
        · split
          · rfl
          · exact ih _

/-- A turn that does not return leaves more to read behind the offset. -/
lemma turn_from {addr : String} {afterHeight : Int} {items : List InsightTx} {r : Reader}
    (hnone : (r.turn addr afterHeight items).returned = none) :
    (r.turn addr afterHeight items).from_ = r.from_ + pageSize ∧
      r.from_ + pageSize < items.length := by
  simp only [Reader.turn, addrTxPage, readPage_from] at hnone ⊢
  split at hnone
  · rename_i hsome
    rw [hnone] at hsome
    cases hsome
  · rename_i hsome
    rw [if_neg hsome]
    split at hnone
    · cases hnone
    · rename_i hmore
      rw [if_neg hmore]
      exact ⟨rfl, not_le.mp fun hle => hmore (Or.inl hle)⟩

/-- The call returns when the history stays as it is. -/
lemma exists_returned (addr : String) (afterHeight : Int) (c : AddressTxs) :
    ∃ n c', exec (step addr afterHeight) c (List.replicate n .page) = some c' ∧
      c'.reader.returned.isSome := by
  induction hleft : c.history.items.length - c.reader.from_ using Nat.strong_induction_on
    generalizing c with
  | _ left ih =>
      cases hret : c.reader.returned with
      | some txs => exact ⟨0, c, rfl, by rw [hret]; rfl⟩
      | none =>
          obtain ⟨next, hstep, hhistory, hreader⟩ : ∃ next,
              step addr afterHeight c .page = some next ∧ next.history = c.history ∧
                next.reader = c.reader.turn addr afterHeight c.history.items := by
            refine ⟨⟨c.history, c.history.items, c.reader.turn addr afterHeight c.history.items⟩,
              ?_, rfl, rfl⟩
            rw [step, if_pos (by rw [hret]; rfl)]
          cases hturn : (c.reader.turn addr afterHeight c.history.items).returned with
          | some txs =>
              refine ⟨1, next, ?_, by rw [hreader, hturn]; rfl⟩
              rw [List.replicate_one, exec_cons, hstep]
              rfl
          | none =>
              obtain ⟨hfrom, hmore⟩ := turn_from hturn
              have hless : next.history.items.length - next.reader.from_ < left := by
                rw [hhistory, hreader, hfrom, ← hleft]
                rw [pageSize] at hmore ⊢
                omega
              obtain ⟨n, c', hrun, hsome⟩ := ih _ hless next rfl
              refine ⟨n + 1, c', ?_, hsome⟩
              rw [List.replicate_succ, exec_cons, hstep]
              exact hrun

/-- **A steady call loses no payment and repeats none**, and it returns once
the history stays as it is. -/
theorem addressTxs_complete {addr : String} {afterHeight : Int} {h : History}
    {events : List Event} {c : AddressTxs}
    (hsteady : Along (step addr afterHeight) (Steady afterHeight) (begin_ h) events)
    (hrun : exec (step addr afterHeight) (begin_ h) events = some c) :
    (∀ txs, c.reader.returned = some txs → Complete addr afterHeight h.chain txs) ∧
      ∃ n c', exec (step addr afterHeight) c (List.replicate n .page) = some c' ∧
        c'.reader.returned.isSome := by
  have hsound : Sound addr afterHeight h.chain c :=
    exec_invariant (fun _ _ _ hs hG hstep => Sound.step hs hG hstep) (Sound.start h) hsteady hrun
  refine ⟨fun txs htxs => ?_, exists_returned addr afterHeight c⟩
  rcases hsound.reads with ⟨txs', htxs', hcomplete⟩ | ⟨read, hr⟩
  · rw [htxs] at htxs'
    cases htxs'
    exact hcomplete
  · rw [hr.returned] at htxs
    cases htxs

/-- A payment, as the explorer lists it. -/
def payment (txid : String) (blockheight : Int) : InsightTx := ⟨txid, blockheight, 0, []⟩

/-- The name of the `n`-th transaction. -/
def nth (n : Nat) : String := String.ofList (List.replicate n 'x')

lemma nth_injective : Function.Injective nth := fun m n hmn => by
  have hlists : List.replicate m 'x' = List.replicate n 'x' := by
    simpa only [nth, String.toList_ofList] using congrArg String.toList hmn
  simpa using congrArg List.length hlists

/-- Unconfirmed entries fill all of the first page but its last place. -/
def longHistory : History where
  mempool := (List.range 49).map fun n => payment (nth n) (-1)
  chain := [payment (nth 51) 3, payment (nth 50) 2, payment (nth 49) 1]
  tip := 3
  unconfirmed t ht := by
    obtain ⟨n, -, rfl⟩ := List.mem_map.mp ht
    rfl
  confirmed := by decide
  newestFirst := by decide
  once := by
    have hids : ((List.range 49).map (fun n => payment (nth n) (-1)) ++
        [payment (nth 51) 3, payment (nth 50) 2, payment (nth 49) 1]).map InsightTx.txid =
        (List.range 49 ++ [51, 50, 49]).map nth := by
      rw [List.map_append, List.map_append, List.map_map]
      rfl
    rw [hids]
    exact List.Nodup.map nth_injective (by decide)
  tip_nonneg := by decide

/-- The call on two pages, between which another payment arrives. -/
def longCall : AddressTxs :=
  (exec (step "a" 0) (begin_ longHistory)
    [.page, .arrive (payment (nth 52) (-1)), .page]).get (by decide +kernel)

/-- What was the last entry of the first page is read again on the second one,
and returned once. -/
theorem addressTxs_complete_long :
    Complete "a" 0 longHistory.chain
      [normalizeTx (payment (nth 49) 1) "a", normalizeTx (payment (nth 50) 2) "a",
        normalizeTx (payment (nth 51) 3) "a"] ∧
    ∃ n c', exec (step "a" 0) longCall (List.replicate n .page) = some c' ∧
      c'.reader.returned.isSome := by
  have hsteady : Along (step "a" 0) (Steady 0) (begin_ longHistory)
      [.page, .arrive (payment (nth 52) (-1)), .page] := by decide +kernel
  have hrun : exec (step "a" 0) (begin_ longHistory)
      [.page, .arrive (payment (nth 52) (-1)), .page] = some longCall :=
    (Option.some_get _).symm
  obtain ⟨hcomplete, hreturns⟩ := addressTxs_complete hsteady hrun
  exact ⟨hcomplete _ (by decide +kernel), hreturns⟩

/-- One of them is dropped between the two pages: what was the first entry of
the second page is the last one of the first page now. -/
theorem not_addressTxs_complete : ∃ c txs,
    exec (step "a" 0) (begin_ longHistory) [.page, .drop (nth 0), .page] = some c ∧
      c.reader.returned = some txs ∧ ¬ Complete "a" 0 longHistory.chain txs := by
  have hheights : ((exec (step "a" 0) (begin_ longHistory) [.page, .drop (nth 0), .page]).bind
      fun c => c.reader.returned.map fun txs => txs.map Tx.height) = some [1, 3] := by
    decide +kernel
  obtain ⟨c, hrun, hreturned⟩ := Option.bind_eq_some_iff.mp hheights
  obtain ⟨txs, htxs, hheights⟩ := Option.map_eq_some_iff.mp hreturned
  refine ⟨c, txs, hrun, htxs, fun hcomplete => ?_⟩
  have hone := hcomplete.once (payment (nth 50) 2) (by decide) (by decide)
  have hmem : normalizeTx (payment (nth 50) 2) "a" ∈ txs :=
    List.mem_of_mem_filter (hone ▸ List.mem_cons_self)
  have hheight : (2 : Int) ∈ txs.map Tx.height := List.mem_map_of_mem hmem
  rw [hheights] at hheight
  exact absurd hheight (by decide)

end AddressTxs

end CumulusVpn.Fluxnode
