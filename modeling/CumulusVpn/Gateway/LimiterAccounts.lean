/-
The accounts of the limiters (`gateway/internal/limiter/limiter.go`).

* `Caller`: a call of `SetTier` in flight; `Accounts`: the counter is right up
  to what the calls in flight still have to count;
* `Accounts.next`, `Accounts.get`, `Accounts.remove`: the atomic steps keep
  them;
* `LimiterGuard`: no limiter is dropped under a call that is about to change
  its tier, and none is made for or left to a peer that is not enrolled;
* `limiters_accounted`: **the accounts of a quiet gateway are right** after a
  run of such steps; `not_limiters_accounted` are two runs of others.
-/
import CumulusVpn.Gateway.Mirrors

namespace CumulusVpn.Peers

open StepSystem

/-! ### The table of the limiters -/

/-- The entry of a key, in the table and in what is left without it. -/
lemma entries_split {m : GoMap String Nat} {pubkey : String} {p : Nat}
    (h : m.lookup pubkey = some p) : ∃ l₁ l₂, m.entries = l₁ ++ ⟨pubkey, p⟩ :: l₂ ∧
      (m.erase pubkey).entries = l₁ ++ l₂ := by
  have hmem : pubkey ∈ m.entries.keys := AList.lookup_isSome.mp (by rw [h]; rfl)
  obtain ⟨p', l₁, l₂, -, hentries, herase⟩ := List.exists_of_kerase hmem
  have hlookup : m.lookup pubkey = some p' :=
    AList.mem_lookup_iff.mpr (hentries ▸ List.mem_append_right l₁ List.mem_cons_self)
  rw [h] at hlookup
  cases hlookup
  exact ⟨l₁, l₂, hentries, herase⟩

/-- The limiters in the table. -/
def Manager.limiters (m : Manager) : List Nat := m.peers.entries.map fun e => e.2

lemma Manager.mem_limiters {m : Manager} {pubkey : String} {p : Nat}
    (h : m.peers.lookup pubkey = some p) : p ∈ m.limiters :=
  List.mem_map_of_mem (f := fun e : (_ : String) × Nat => e.2) (AList.mem_lookup_iff.mp h)

/-- The tier of a limiter that is not among them does not count. -/
lemma countP_update {f : Nat → Bool} {p : Nat} {v : Bool} {l : List ((_ : String) × Nat)}
    (h : p ∉ l.map fun e => e.2) :
    (l.countP fun e => Function.update f p v e.2 = false) = l.countP fun e => f e.2 = false := by
  refine List.countP_congr fun e he => ?_
  rw [Function.update_of_ne]
  rintro rfl
  exact h (List.mem_map_of_mem he)

/-! ### The accounts -/

/-- A call of `SetTier`. -/
structure Caller where
  pubkey : String
  premium : Bool
  call : SetTier

/-- What a call still has to count. -/
def Caller.pending (x : Caller) : Int :=
  match x.call with
  | .count delta => delta
  | _ => 0

/-- A call that is about to swap has the limiter of its key, or one that was
dropped and has its tier. -/
def Caller.Sound (m : Manager) (x : Caller) : Prop :=
  ∀ p, x.call = .swap p → p < m.made ∧
    (m.peers.lookup x.pubkey = some p ∨ (p ∉ m.limiters ∧ m.premium p = x.premium))

/-- The count is the number of free limiters, but for what the callers have yet
to count. -/
structure Accounts (m : Manager) (callers : List Caller) : Prop where
  counted : m.freeCount + (callers.map Caller.pending).sum = m.free
  nodup : m.limiters.Nodup
  made : ∀ p ∈ m.limiters, p < m.made
  sound : ∀ x ∈ callers, x.Sound m

namespace Accounts

variable {m : Manager} {callers : List Caller} {pubkey : String} {premium : Bool}

lemma new : Accounts .new [] where
  counted := rfl
  nodup := List.nodup_nil
  made p hp := by cases hp
  sound x hx := by cases hx

/-- A key takes its limiter. -/
lemma get (h : Accounts m callers) (pubkey : String) : Accounts (m.get pubkey).1 callers := by
  rw [Manager.get]
  split
  · exact h
  · rename_i hnone
    have habsent : pubkey ∉ m.peers := AList.lookup_eq_none.mp hnone
    have hfresh : m.made ∉ m.limiters := fun hmem => Nat.lt_irrefl _ (h.made _ hmem)
    have hentries : (m.peers.insert pubkey m.made).entries = ⟨pubkey, m.made⟩ :: m.peers.entries :=
      AList.entries_insert_of_notMem habsent
    refine ⟨?_, ?_, ?_, fun x hx p hcall => ?_⟩
    · have hfree : ((m.peers.insert pubkey m.made).entries.countP fun e =>
          Function.update m.premium m.made false e.2 = false) = m.free + 1 := by
        rw [hentries, List.countP_cons, countP_update hfresh, Manager.free]
        simp
      have hcounted := h.counted
      simp only [Manager.free, hfree]
      rw [Manager.free] at hcounted
      push_cast
      omega
    · rw [Manager.limiters, hentries]
      exact List.nodup_cons.mpr ⟨hfresh, h.nodup⟩
    · intro p hp
      rw [Manager.limiters, hentries] at hp
      rcases List.mem_cons.mp hp with rfl | hp
      · exact Nat.lt_succ_self _
      · exact Nat.lt_succ_of_lt (h.made p hp)
    · obtain ⟨hmade, hp⟩ := h.sound x hx p hcall
      refine ⟨Nat.lt_succ_of_lt hmade, ?_⟩
      rcases hp with hlookup | ⟨hdropped, htier⟩
      · refine Or.inl ?_
        simp only [lookup_insert]
        rw [if_neg]
        · exact hlookup
        · rintro heq
          rw [heq, hnone] at hlookup
          cases hlookup
      · refine Or.inr ⟨fun hmem => ?_, ?_⟩
        · rw [Manager.limiters, hentries] at hmem
          rcases List.mem_cons.mp hmem with rfl | hmem
          · exact Nat.lt_irrefl _ hmade
          · exact hdropped hmem
        · simp only
          rwa [Function.update_of_ne hmade.ne]

lemma lookup_get (m : Manager) (pubkey : String) :
    (m.get pubkey).1.peers.lookup pubkey = some (m.get pubkey).2 := by
  rw [Manager.get]
  split
  · rename_i p hlookup
    exact hlookup
  · exact AList.lookup_insert _

/-- A limiter in the table changes its tier, or one that keeps its tier is
swapped. -/
lemma swap (h : Accounts m callers) {p : Nat}
    (hp : m.peers.lookup pubkey = some p ∨ (p ∉ m.limiters ∧ m.premium p = premium)) :
    (m.swap p premium).1.freeCount + (callers.map Caller.pending).sum +
        ((m.swap p premium).2.getD 0) = (m.swap p premium).1.free ∧
      (m.swap p premium).1.peers = m.peers ∧ (m.swap p premium).1.made = m.made ∧
      ∀ x ∈ callers, x.Sound (m.swap p premium).1 := by
  rw [Manager.swap]
  split
  · refine ⟨?_, rfl, rfl, h.sound⟩
    rw [Option.getD_none, add_zero]
    exact h.counted
  · rename_i hne
    have hlookup := hp.resolve_right fun hboth => hne hboth.2
    obtain ⟨l₁, l₂, hentries, -⟩ := entries_split hlookup
    have hnodup := h.nodup
    rw [Manager.limiters, hentries, List.map_append, List.map_cons, List.nodup_middle] at hnodup
    obtain ⟨hp₁, hp₂⟩ := not_or.mp fun hmem =>
      (List.nodup_cons.mp hnodup).1 (List.mem_append.mpr hmem)
    refine ⟨?_, rfl, rfl, fun x hx q hcall => ?_⟩
    · have hcounted := h.counted
      simp only [Manager.free, hentries, List.countP_append, List.countP_cons, countP_update hp₁,
        countP_update hp₂, Function.update_self, Option.getD_some] at hcounted ⊢
      cases premium with
      | true =>
          have hfree : m.premium p = false := Bool.eq_false_iff.mpr hne
          simp [hfree] at hcounted ⊢
          omega
      | false =>
          have hpaid : m.premium p = true := (Bool.eq_false_or_eq_true _).resolve_right hne
          simp [hpaid] at hcounted ⊢
          omega
    · obtain ⟨hmade, hq⟩ := h.sound x hx q hcall
      refine ⟨hmade, hq.imp_right fun ⟨hdropped, htier⟩ => ⟨hdropped, ?_⟩⟩
      simp only
      rwa [Function.update_of_ne]
      rintro rfl
      exact hdropped (Manager.mem_limiters hlookup)

/-- A call goes on as `xs`, which have as much to count. -/
lemma replace {l₁ l₂ : List Caller} {x : Caller} (h : Accounts m (l₁ ++ x :: l₂))
    (xs : List Caller) (hpending : (xs.map Caller.pending).sum = x.pending)
    (hsound : ∀ y ∈ xs, y.Sound m) : Accounts m (l₁ ++ xs ++ l₂) where
  counted := by
    have hcounted := h.counted
    simp only [List.map_append, List.sum_append, List.map_cons, List.sum_cons] at hcounted ⊢
    omega
  nodup := h.nodup
  made := h.made
  sound y hy := by
    rcases List.mem_append.mp hy with hy | hy
    · rcases List.mem_append.mp hy with hy | hy
      · exact h.sound y (List.mem_append_left _ hy)
      · exact hsound y hy
    · exact h.sound y (List.mem_append_right _ (List.mem_cons_of_mem x hy))

/-- The atomic steps of a call of `SetTier`. -/
lemma next (l₁ l₂ : List Caller) {call : SetTier}
    (h : Accounts m (l₁ ++ ⟨pubkey, premium, call⟩ :: l₂)) :
    Accounts (call.next m pubkey premium).1
      (l₁ ++ ((call.next m pubkey premium).2.map fun call => ⟨pubkey, premium, call⟩).toList ++
        l₂) := by
  cases call with
  | get =>
      refine (h.get pubkey).replace [⟨pubkey, premium, .swap (m.get pubkey).2⟩] rfl
        fun y hy p hcall => ?_
      obtain rfl := List.mem_singleton.mp hy
      cases hcall
      exact ⟨(h.get pubkey).made _ (Manager.mem_limiters (lookup_get m pubkey)),
        Or.inl (lookup_get m pubkey)⟩
  | swap p =>
      obtain ⟨hmade, hp⟩ :=
        h.sound _ (List.mem_append_right _ List.mem_cons_self) p rfl
      obtain ⟨hcounted, hpeers, hmadeSame, hsound⟩ := h.swap hp
      have hlimiters : (m.swap p premium).1.limiters = m.limiters := by
        rw [Manager.limiters, hpeers, Manager.limiters]
      have hrest : ∀ y ∈ l₁ ++ l₂, y.Sound (m.swap p premium).1 := fun y hy => by
        refine hsound y ?_
        rcases List.mem_append.mp hy with hy | hy
        · exact List.mem_append_left _ hy
        · exact List.mem_append_right _ (List.mem_cons_of_mem _ hy)
      simp only [SetTier.next]
      refine ⟨?_, hlimiters ▸ h.nodup, fun q hq => hmadeSame ▸ h.made q (hlimiters ▸ hq),
        fun y hy => ?_⟩
      · simp only [List.map_append, List.sum_append, List.map_cons, List.sum_cons] at hcounted ⊢
        cases hdelta : (m.swap p premium).2 with
        | none =>
            rw [hdelta] at hcounted
            simp [Caller.pending] at hcounted ⊢
            omega
        | some delta =>
            rw [hdelta] at hcounted
            simp [Caller.pending] at hcounted ⊢
            omega
      · rcases List.mem_append.mp hy with hy | hy
        · rcases List.mem_append.mp hy with hy | hy
          · exact hrest y (List.mem_append_left _ hy)
          · obtain ⟨call, hcall, rfl⟩ := Option.map_eq_some_iff.mp (Option.mem_toList.mp hy)
            obtain ⟨delta, -, rfl⟩ := Option.map_eq_some_iff.mp hcall
            exact fun q hq => by cases hq
        · exact hrest y (List.mem_append_right _ hy)
  | count delta =>
      refine ⟨?_, h.nodup, h.made, fun y hy => ?_⟩
      · have hcounted := h.counted
        change m.freeCount + delta + _ = (m.free : Int)
        simp only [List.map_append, List.sum_append, List.map_cons, List.sum_cons, Caller.pending]
          at hcounted
        simp only [SetTier.next, Option.map_none, Option.toList_none, List.append_nil,
          List.map_append, List.sum_append]
        omega
      · simp only [SetTier.next, Option.map_none, Option.toList_none, List.append_nil] at hy
        rcases List.mem_append.mp hy with hy | hy
        · exact h.sound y (List.mem_append_left _ hy)
        · exact h.sound y (List.mem_append_right _ (List.mem_cons_of_mem _ hy))

/-- A limiter is dropped that no call is about to give another tier. -/
lemma remove (h : Accounts m callers)
    (hkeeps : ∀ x ∈ callers, ∀ p, x.call = .swap p → m.peers.lookup pubkey = some p →
      m.premium p = x.premium) : Accounts (m.remove pubkey) callers := by
  rw [Manager.remove]
  split
  · exact h
  · rename_i p hlookup
    obtain ⟨l₁, l₂, hentries, herase⟩ := entries_split hlookup
    have hnodup := h.nodup
    rw [Manager.limiters, hentries, List.map_append, List.map_cons, List.nodup_middle] at hnodup
    obtain ⟨hp, hrest⟩ := List.nodup_cons.mp hnodup
    have hsub : ∀ q ∈ (m.peers.erase pubkey).entries.map fun e => e.2, q ∈ m.limiters := by
      intro q hq
      rw [herase, List.map_append] at hq
      rw [Manager.limiters, hentries, List.map_append, List.map_cons]
      rcases List.mem_append.mp hq with hq | hq
      · exact List.mem_append_left _ hq
      · exact List.mem_append_right _ (List.mem_cons_of_mem _ hq)
    refine ⟨?_, ?_, fun q hq => h.made q (hsub q hq), fun x hx q hcall => ?_⟩
    · have hcounted := h.counted
      simp only [Manager.free, hentries, herase, List.countP_append, List.countP_cons]
        at hcounted ⊢
      cases htier : m.premium p with
      | true =>
          simp [htier] at hcounted ⊢
          omega
      | false =>
          simp [htier] at hcounted ⊢
          omega
    · rw [Manager.limiters, herase, List.map_append]
      exact hrest
    · obtain ⟨hmade, hq⟩ := h.sound x hx q hcall
      refine ⟨hmade, ?_⟩
      by_cases hqp : q = p
      · subst hqp
        refine Or.inr ⟨?_, hkeeps x hx q hcall hlookup⟩
        rw [Manager.limiters, herase, List.map_append]
        exact hp
      · rcases hq with hq | ⟨hdropped, htier⟩
        · refine Or.inl ?_
          simp only [lookup_erase]
          rw [if_neg]
          · exact hq
          · intro heq
            rw [heq, hlookup] at hq
            exact hqp (Option.some_inj.mp hq).symm
        · exact Or.inr ⟨fun hmem => hdropped (hsub q hmem), htier⟩

/-- A call begins. -/
lemma start (l₁ l₂ : List Caller) (h : Accounts m (l₁ ++ l₂)) (pubkey : String) (premium : Bool) :
    Accounts m (l₁ ++ ⟨pubkey, premium, .get⟩ :: l₂) where
  counted := by
    have hcounted := h.counted
    simp only [List.map_append, List.sum_append, List.map_cons, List.sum_cons, Caller.pending,
      zero_add] at hcounted ⊢
    exact hcounted
  nodup := h.nodup
  made := h.made
  sound x hx := by
    rcases List.mem_append.mp hx with hx | hx
    · exact h.sound x (List.mem_append_left _ hx)
    · rcases List.mem_cons.mp hx with rfl | hx
      · exact fun p hp => by cases hp
      · exact h.sound x (List.mem_append_right _ hx)

end Accounts

/-! ### The keys of the table -/

section Keys

variable {m : Manager} {pubkey pk : String}

lemma mem_get : pk ∈ (m.get pubkey).1.peers ↔ pk ∈ m.peers ∨ pk = pubkey := by
  rw [Manager.get]
  split
  · rename_i p hlookup
    refine (or_iff_left_of_imp ?_).symm
    rintro rfl
    exact AList.lookup_isSome.mp (by rw [hlookup]; rfl)
  · rw [AList.mem_insert, or_comm]

lemma mem_next {premium : Bool} {call : SetTier}
    (h : pk ∈ (call.next m pubkey premium).1.peers) :
    pk ∈ m.peers ∨ (call = .get ∧ pk = pubkey) := by
  cases call with
  | get => exact (mem_get.mp h).imp_right fun hpk => ⟨rfl, hpk⟩
  | swap p =>
      rw [SetTier.next, Manager.swap] at h
      split at h <;> exact Or.inl h
  | count delta => exact Or.inl h

lemma mem_remove (h : pk ∈ (m.remove pubkey).peers) : pk ∈ m.peers ∧ pk ≠ pubkey := by
  rw [Manager.remove] at h
  split at h
  · rename_i hnone
    refine ⟨h, ?_⟩
    rintro rfl
    exact AList.lookup_eq_none.mp hnone h
  · exact ⟨(AList.mem_erase.mp h).2, (AList.mem_erase.mp h).1⟩

end Keys

/-! ### The guard -/

/-- The call that the enrollment is in. -/
def Enroll.callers : Enroll → List Caller
  | .tiering pubkey premium call => [⟨pubkey, premium, call⟩]
  | _ => []

/-- The call that the sync loop is in. -/
def Sync.callers : Sync → List Caller
  | .tiering pubkey premium call _ => [⟨pubkey, premium, call⟩]
  | _ => []

/-- The calls of `SetTier` in flight. -/
def Gateway.callers (g : Gateway) : List Caller := g.enroll.callers ++ g.sync.callers

/-- The reaper is going to drop the limiter of the peer. -/
def Reaper.Forgets (pubkey : String) : Reaper → Prop
  | .unmirroring pk _ _ _ => pk = pubkey
  | .forgetting pk _ _ => pk = pubkey
  | _ => False

instance (pubkey : String) (p : Reaper) : Decidable (p.Forgets pubkey) := by
  cases p with
  | unmirroring pk k now rest => exact inferInstanceAs (Decidable (pk = pubkey))
  | forgetting pk now rest => exact inferInstanceAs (Decidable (pk = pubkey))
  | _ => exact inferInstanceAs (Decidable False)

/-- The key whose limiter a step takes. -/
def takes (g : Gateway) : Event → Option String
  | .enroll _ _ =>
      match g.enroll with
      | .tiering pubkey _ .get => some pubkey
      | _ => none
  | .sync _ _ _ =>
      match g.sync with
      | .tiering pubkey _ .get _ => some pubkey
      | _ => none
  | .limit pubkey => some pubkey
  | _ => none

/-- The key whose limiter the next call of the reaper drops. -/
def Reaper.forgets : Reaper → Option String
  | .forgetting pubkey _ _ => some pubkey
  | _ => none

/-- The key whose limiter a step drops. -/
def forgets (g : Gateway) : Event → Option String
  | .reap _ _ _ => g.reaper.forgets
  | _ => none

/-- The limiter that a call is about to swap. -/
def Caller.swapping (x : Caller) : Option Nat :=
  match x.call with
  | .swap p => some p
  | _ => none

/-- A limiter is made for a peer that is enrolled, or about to be forgotten; a
rollback leaves none behind, unless it is; and none is dropped under a call
that is about to change its tier. -/
def LimiterGuard (g : Gateway) (e : Event) : Prop :=
  (∀ pubkey ∈ takes g e, pubkey ∉ g.lim.peers →
      (g.dev.peerAddr pubkey).isSome ∨ g.reaper.Forgets pubkey) ∧
    (∀ x ∈ rollsBack g e, x.1 ∈ g.lim.peers → g.reaper.Forgets x.1) ∧
    ∀ pubkey ∈ forgets g e, ∀ x ∈ g.callers, ∀ p ∈ x.swapping,
      g.lim.peers.lookup pubkey = some p → g.lim.premium p = x.premium

instance (g : Gateway) (e : Event) : Decidable (LimiterGuard g e) :=
  inferInstanceAs (Decidable ((∀ pubkey ∈ takes g e, _) ∧ (∀ x ∈ rollsBack g e, _) ∧
    ∀ pubkey ∈ forgets g e, _))

/-! ### What the steps keep -/

/-- The accounts are right up to the calls in flight, and every limiter is of a
peer that is enrolled, or about to be forgotten. -/
structure LimiterInv (g : Gateway) : Prop where
  accounts : Accounts g.lim g.callers
  enrolled : ∀ pubkey ∈ g.lim.peers,
    (g.dev.peerAddr pubkey).isSome ∨ g.reaper.Forgets pubkey

section Steps

variable {c : Config} {g g' : Gateway} {now : Int} {engine : Bool}

lemma EnrollStep.accounts {p : Enroll} {r : Gateway × Enroll} {callers : List Caller}
    (h : EnrollStep g now engine p r) (haccounts : Accounts g.lim (p.callers ++ callers)) :
    Accounts r.1.lim (r.2.callers ++ callers) := by
  cases h with
  | @mirrored pubkey premium existed addr k => exact .start [] callers haccounts pubkey premium
  | @mirrorFails pubkey premium existed addr k =>
      cases existed <;> exact haccounts
  | mirror _ hadd =>
      obtain ⟨extra, rfl⟩ := addPeer_extra hadd
      exact haccounts
  | @undo pubkey premium k j =>
      obtain ⟨extra, hextra⟩ := removePeer_extra g j pubkey engine
      rw [hextra]
      exact haccounts
  | @tier pubkey premium call call' hcall =>
      have hnext := Accounts.next [] callers haccounts
      rw [hcall] at hnext
      exact hnext
  | @tiered pubkey premium call hcall =>
      have hnext := Accounts.next [] callers haccounts
      rw [hcall] at hnext
      exact hnext
  | _ => exact haccounts

lemma SyncStep.accounts {p : Sync} {r : Gateway × Sync} {callers : List Caller}
    (h : SyncStep g now engine p r) (haccounts : Accounts g.lim (callers ++ p.callers)) :
    Accounts r.1.lim (callers ++ r.2.callers) := by
  cases h with
  | @ask pubkey rest premium => exact .start callers [] haccounts pubkey premium
  | @tier pubkey premium call call' rest hcall =>
      have hnext := Accounts.next callers [] haccounts
      rw [hcall, List.append_nil] at hnext
      exact hnext
  | @tiered pubkey premium call rest hcall =>
      have hnext := Accounts.next callers [] haccounts
      rw [hcall, List.append_nil] at hnext
      exact hnext
  | sync hpremium =>
      obtain ⟨extra, hextra⟩ := hpremium.extra
      cases hextra
      exact haccounts
  | synced hpremium =>
      obtain ⟨extra, hextra⟩ := hpremium.extra
      cases hextra
      exact haccounts
  | _ => exact haccounts

/-- The reaper only forgets. -/
lemma ReaperStep.limiters {p : Reaper} {r : Gateway × Reaper} (h : ReaperStep g now engine p r) :
    r.1.sync = g.sync ∧ r.1.lim = p.forgets.elim g.lim g.lim.remove := by
  cases h with
  | @unmirror pubkey k _ rest =>
      obtain ⟨extra, hextra⟩ := removePeer_extra g k pubkey engine
      rw [hextra]
      exact ⟨rfl, rfl⟩
  | sync hpremium =>
      obtain ⟨extra, hextra⟩ := hpremium.extra
      cases hextra
      exact ⟨rfl, rfl⟩
  | synced hpremium =>
      obtain ⟨extra, hextra⟩ := hpremium.extra
      cases hextra
      exact ⟨rfl, rfl⟩
  | _ => exact ⟨rfl, rfl⟩

/-- The accounts are right after a step. -/
lemma step_accounts {e : Event} (haccounts : Accounts g.lim g.callers) (hguard : LimiterGuard g e)
    (h : step c g e = some g') : Accounts g'.lim g'.callers := by
  cases e with
  | request pubkey premium =>
      rw [step] at h
      split at h
      · rename_i hidle
        cases h
        rw [Gateway.callers, hidle.1] at haccounts
        exact haccounts
      · cases h
  | enroll now engine =>
      obtain ⟨r, hr, rfl⟩ := Option.map_eq_some_iff.mp h
      have hcall := enroll_step hr
      have hnext := hcall.accounts haccounts
      rw [← hcall.reaper_sync.2] at hnext
      exact hnext
  | tick peers =>
      rw [step] at h
      split at h
      · rename_i hidle
        cases h
        rw [Gateway.callers, hidle.1] at haccounts
        exact haccounts
      · cases h
  | sync tier now engine =>
      obtain ⟨r, hr, rfl⟩ := Option.map_eq_some_iff.mp h
      have hcall := sync_step hr
      have hnext := hcall.accounts haccounts
      rw [← hcall.enroll_reaper.1] at hnext
      exact hnext
  | touch handshakes =>
      rw [step] at h
      split at h <;> cases h
      exact haccounts
  | sweep now recs =>
      rw [step] at h
      split at h <;> cases h
      exact haccounts
  | reap tier clock engine =>
      obtain ⟨r, hr, rfl⟩ := Option.map_eq_some_iff.mp h
      have hcall := reaper_step hr
      obtain ⟨hsync, hlim⟩ := hcall.limiters
      have hcallers : r.1.callers = g.callers := by
        rw [Gateway.callers, hcall.enroll, hsync, Gateway.callers]
      change Accounts r.1.lim r.1.callers
      rw [hcallers]
      have hforgets := hguard.2.2
      rw [hlim]
      rw [forgets] at hforgets
      cases hpubkey : g.reaper.forgets with
      | none => exact haccounts
      | some pubkey =>
          refine haccounts.remove fun x hx p hcall hlookup => ?_
          refine hforgets pubkey hpubkey x hx p ?_ hlookup
          rw [Caller.swapping, hcall]
          rfl
  | flow k src =>
      obtain ⟨pubkey, -, rfl⟩ := Option.map_eq_some_iff.mp h
      exact haccounts
  | limit pubkey =>
      rw [step] at h
      split at h <;> cases h
      exact haccounts.get pubkey

/-- A limiter was there, or is taken, and is not dropped. -/
lemma step_limiters {e : Event} {pk : String} (h : step c g e = some g')
    (hpk : pk ∈ g'.lim.peers) : (pk ∈ g.lim.peers ∨ pk ∈ takes g e) ∧ pk ∉ forgets g e := by
  cases e with
  | enroll now engine =>
      obtain ⟨r, hr, rfl⟩ := Option.map_eq_some_iff.mp h
      refine ⟨?_, Option.not_mem_none pk⟩
      rw [takes]
      generalize g.enroll = p at hr
      cases enroll_step hr with
      | mirror _ hadd =>
          obtain ⟨extra, rfl⟩ := addPeer_extra hadd
          exact Or.inl hpk
      | @undo pubkey premium k j =>
          obtain ⟨extra, hextra⟩ := removePeer_extra g j pubkey engine
          rw [hextra] at hpk
          exact Or.inl hpk
      | tier =>
          refine (mem_next hpk).imp_right ?_
          rintro ⟨hget, heq⟩
          rw [hget, heq]
          rfl
      | tiered =>
          refine (mem_next hpk).imp_right ?_
          rintro ⟨hget, heq⟩
          rw [hget, heq]
          rfl
      | _ => exact Or.inl hpk
  | sync tier now engine =>
      obtain ⟨r, hr, rfl⟩ := Option.map_eq_some_iff.mp h
      refine ⟨?_, Option.not_mem_none pk⟩
      rw [takes]
      generalize g.sync = p at hr
      cases sync_step hr with
      | tier =>
          refine (mem_next hpk).imp_right ?_
          rintro ⟨hget, heq⟩
          rw [hget, heq]
          rfl
      | tiered =>
          refine (mem_next hpk).imp_right ?_
          rintro ⟨hget, heq⟩
          rw [hget, heq]
          rfl
      | sync hpremium =>
          obtain ⟨extra, hextra⟩ := hpremium.extra
          cases hextra
          exact Or.inl hpk
      | synced hpremium =>
          obtain ⟨extra, hextra⟩ := hpremium.extra
          cases hextra
          exact Or.inl hpk
      | _ => exact Or.inl hpk
  | reap tier clock engine =>
      obtain ⟨r, hr, rfl⟩ := Option.map_eq_some_iff.mp h
      obtain ⟨-, hlim⟩ := (reaper_step hr).limiters
      change pk ∈ r.1.lim.peers at hpk
      rw [hlim] at hpk
      rw [forgets]
      cases hpubkey : g.reaper.forgets with
      | none =>
          rw [hpubkey] at hpk
          exact ⟨Or.inl hpk, Option.not_mem_none pk⟩
      | some pubkey =>
          rw [hpubkey] at hpk
          obtain ⟨hpk, hne⟩ := mem_remove hpk
          exact ⟨Or.inl hpk, fun heq => hne (Option.some_inj.mp heq).symm⟩
  | limit pubkey =>
      rw [step] at h
      split at h <;> cases h
      exact ⟨(mem_get.mp hpk).imp_right fun heq => by rw [heq]; rfl, Option.not_mem_none pk⟩
  | request pubkey premium =>
      rw [step] at h
      split at h <;> cases h
      exact ⟨Or.inl hpk, Option.not_mem_none pk⟩
  | tick peers =>
      rw [step] at h
      split at h <;> cases h
      exact ⟨Or.inl hpk, Option.not_mem_none pk⟩
  | touch handshakes =>
      rw [step] at h
      split at h <;> cases h
      exact ⟨Or.inl hpk, Option.not_mem_none pk⟩
  | sweep now recs =>
      rw [step] at h
      split at h <;> cases h
      exact ⟨Or.inl hpk, Option.not_mem_none pk⟩
  | flow k src =>
      obtain ⟨pubkey, -, rfl⟩ := Option.map_eq_some_iff.mp h
      exact ⟨Or.inl hpk, Option.not_mem_none pk⟩

/-- The reaper forgets what it dropped. -/
lemma ReaperStep.forgets {p : Reaper} {r : Gateway × Reaper} {pk : String}
    (h : ReaperStep g now engine p r) (hpk : p.Forgets pk) : r.2.Forgets pk ∨ pk ∈ p.forgets := by
  cases h with
  | unmirrored => exact Or.inl hpk
  | skip => exact Or.inl hpk
  | unmirror => exact Or.inl hpk
  | forget => exact Or.inr (congrArg some hpk)
  | _ => exact hpk.elim

lemma step_forgets {e : Event} {pk : String} (h : step c g e = some g')
    (hpk : g.reaper.Forgets pk) : g'.reaper.Forgets pk ∨ pk ∈ forgets g e := by
  cases e with
  | enroll now engine =>
      obtain ⟨r, hr, rfl⟩ := Option.map_eq_some_iff.mp h
      rw [← (enroll_step hr).reaper_sync.1] at hpk
      exact Or.inl hpk
  | sync tier now engine =>
      obtain ⟨r, hr, rfl⟩ := Option.map_eq_some_iff.mp h
      rw [← (sync_step hr).enroll_reaper.2] at hpk
      exact Or.inl hpk
  | reap tier clock engine =>
      obtain ⟨r, hr, rfl⟩ := Option.map_eq_some_iff.mp h
      exact (reaper_step hr).forgets hpk
  | sweep now recs =>
      rw [step] at h
      split at h
      · rename_i hidle
        rw [hidle.1] at hpk
        exact hpk.elim
      · cases h
  | request pubkey premium =>
      rw [step] at h
      split at h <;> cases h
      exact Or.inl hpk
  | tick peers =>
      rw [step] at h
      split at h <;> cases h
      exact Or.inl hpk
  | touch handshakes =>
      rw [step] at h
      split at h <;> cases h
      exact Or.inl hpk
  | flow k src =>
      obtain ⟨pubkey, -, rfl⟩ := Option.map_eq_some_iff.mp h
      exact Or.inl hpk
  | limit pubkey =>
      rw [step] at h
      split at h <;> cases h
      exact Or.inl hpk

/-- A peer that leaves the vanilla device is rolled back, or forgotten in the
end. -/
lemma step_enrolled {e : Event} {pk : String} (h : step c g e = some g')
    (hpk : (g.dev.peerAddr pk).isSome) :
    (g'.dev.peerAddr pk).isSome ∨ g'.reaper.Forgets pk ∨ ∃ x ∈ rollsBack g e, x.1 = pk := by
  cases step_dev h with
  | same hsame =>
      rw [hsame.peerAddr]
      exact Or.inl hpk
  | register _ hadd =>
      rw [peerAddr_addPeer hadd]
      split
      · exact Or.inl rfl
      · exact Or.inl hpk
  | @takeBack pubkey premium k now engine hphase hremove =>
      rw [peerAddr_removePeer hremove]
      split
      · rename_i heq
        refine Or.inr (Or.inr ⟨(pubkey, premium, k), ?_, heq.symm⟩)
        rw [rollsBack, hphase]
        simp only [engine_of_removePeer hremove]
        rfl
      · exact Or.inl hpk
  | @reap pubkey now rest tier clock engine hphase hremove =>
      rw [peerAddr_removePeer hremove]
      split
      · rename_i heq
        obtain ⟨r, hr, hreaper⟩ := Option.map_eq_some_iff.mp h
        rw [hphase, Reaper.next, hremove] at hr
        cases hr
        refine Or.inr (Or.inl ?_)
        rw [← hreaper]
        exact heq.symm
      · exact Or.inl hpk

lemma LimiterInv.step {e : Event} (h : LimiterInv g) (hguard : LimiterGuard g e)
    (hstep : step c g e = some g') : LimiterInv g' := by
  refine ⟨step_accounts h.accounts hguard hstep, fun pk hpk => ?_⟩
  obtain ⟨hbefore, hkept⟩ := step_limiters hstep hpk
  have hpeer : (g.dev.peerAddr pk).isSome ∨ g.reaper.Forgets pk := by
    by_cases hmem : pk ∈ g.lim.peers
    · exact h.enrolled pk hmem
    · exact hguard.1 pk (hbefore.resolve_left hmem) hmem
  have hforgotten : g.reaper.Forgets pk → g'.reaper.Forgets pk := fun hforgets =>
    (step_forgets hstep hforgets).resolve_right hkept
  rcases hpeer with hpeer | hforgets
  · rcases step_enrolled hstep hpeer with henrolled | hforgets | ⟨x, hx, rfl⟩
    · exact Or.inl henrolled
    · exact Or.inr hforgets
    · -- a rollback takes no limiter, and leaves none unless the reaper forgets it
      refine Or.inr (hforgotten (hguard.2.1 x hx (hbefore.resolve_right fun htakes => ?_)))
      cases e with
      | enroll now engine =>
          rw [rollsBack] at hx
          rw [takes] at htakes
          split at htakes
          · rename_i hphase
            rw [hphase] at hx
            cases hx
          · cases htakes
      | _ => cases hx
  · exact Or.inr (hforgotten hforgets)

end Steps

/-! ### Runs -/

section Runs

/-- The counter is the number of the free limiters, and every limiter is of an
enrolled peer. -/
structure Accounted (g : Gateway) : Prop where
  counted : g.lim.freeCount = g.lim.free
  nonneg : 0 ≤ g.lim.freeCount
  enrolled : ∀ pubkey ∈ g.lim.peers, (g.dev.peerAddr pubkey).isSome

/-- **The accounts of a quiet gateway are right** after every run of guarded
steps. -/
theorem limiters_accounted (c : Config) (own : Identity) (max : Nat) (now : Int)
    (cache : Option (List (List Char))) (fails : Fails) (listeners : List Listener)
    {es : List Event} {g : Gateway}
    (h : exec (step c) (Gateway.boot own now (loadPeerCache max now cache).1 fails listeners) es =
      some g)
    (hguard : Along (step c) LimiterGuard
      (Gateway.boot own now (loadPeerCache max now cache).1 fails listeners) es)
    (hquiet : g.Quiet) : Accounted g := by
  have hboot : LimiterInv
      (Gateway.boot own now (loadPeerCache max now cache).1 fails listeners) :=
    ⟨.new, fun pubkey hpubkey => absurd hpubkey (List.not_mem_nil)⟩
  have hinv := exec_invariant (fun _ _ _ hi hg hs => LimiterInv.step hi hg hs) hboot hguard h
  obtain ⟨henroll, hsync, hreaper, -⟩ := hquiet
  have hcounted := hinv.accounts.counted
  rw [Gateway.callers, henroll, hsync] at hcounted
  have hfree : g.lim.freeCount = g.lim.free := (add_zero _).symm.trans hcounted
  refine ⟨hfree, ?_, fun pubkey hpubkey => ?_⟩
  · rw [hfree]
    exact Int.natCast_nonneg _
  · refine (hinv.enrolled pubkey hpubkey).resolve_right ?_
    rw [hreaper]
    exact id

theorem limiters_accounted_paying :
    ∃ g, exec (step roomy) twoTransports payingRun = some g ∧ zeroKey ∈ g.lim.peers ∧
      Accounted g := by
  have hrun : (exec (step roomy) twoTransports payingRun).any fun g =>
      zeroKey ∈ g.lim.peers ∧ g.Quiet := by decide +kernel
  obtain ⟨g, hg, hboth⟩ := (Option.any_eq_true _ _).mp hrun
  obtain ⟨hmem, hquiet⟩ := of_decide_eq_true hboth
  refine ⟨g, hg, hmem, ?_⟩
  exact limiters_accounted roomy [9] 100 0 none (fun _ => false) twoListeners hg
    (by decide +kernel) hquiet

/-- The reaper forgets a peer while the sync loop is between the limiter of
the peer and its tier. -/
def forgottenRun : List Event :=
  enrollment zeroKey ++ [.tick [zeroKey], .sync ⟨true, none⟩ 0 true, .sync ⟨true, none⟩ 0 true,
      .sweep 3000000 [⟨zeroKey, ⟨10, 8, 0, 2⟩, some 0⟩]] ++
    List.replicate 8 (.reap ⟨false, none⟩ 3000000 true) ++
    List.replicate 5 (.sync ⟨true, none⟩ 3000000 true)

/-- The counter may stay below zero, and a peer that was reaped in the middle
of its enrollment may keep a limiter. -/
theorem not_limiters_accounted :
    ¬ (∀ (es : List Event) (g : Gateway),
        exec (step roomy) (bootGateway []) es = some g → g.Quiet → 0 ≤ g.lim.freeCount) ∧
      ¬ ∀ (es : List Event) (g : Gateway),
        exec (step roomy) (bootGateway []) es = some g → g.Quiet →
          ∀ pubkey ∈ g.lim.peers, (g.dev.peerAddr pubkey).isSome := by
  constructor
  · intro h
    have hrun : (exec (step roomy) (bootGateway []) forgottenRun).any fun g =>
        g.Quiet ∧ g.lim.freeCount = -1 := by decide +kernel
    obtain ⟨g, hg, hboth⟩ := (Option.any_eq_true _ _).mp hrun
    obtain ⟨hquiet, hcount⟩ := of_decide_eq_true hboth
    have hnonneg := h forgottenRun g hg hquiet
    omega
  · intro h
    have hrun : (exec (step roomy) (bootGateway []) reapedRun).any fun g =>
        g.Quiet ∧ zeroKey ∈ g.lim.peers ∧ g.dev.peerAddr zeroKey = none := by decide +kernel
    obtain ⟨g, hg, hthree⟩ := (Option.any_eq_true _ _).mp hrun
    obtain ⟨hquiet, hmem, hnone⟩ := of_decide_eq_true hthree
    have hsome := h reapedRun g hg hquiet zeroKey hmem
    rw [hnone] at hsome
    cases hsome

end Runs

end CumulusVpn.Peers
