/-
The DNS override on macOS is undone (`plan_apply` and `plan_restore` of
`clients/desktop/src-tauri/tunnel/src/dns.rs`).

* `Undoable`: every key is its owner's, or carries our marker beside a backup
  that puts the owner's back;
* `Safe`: a script keeps the store undoable before each of its commands, and
  ends with a goal; `Safe.edit`: what happens under keys that it does not name
  is nothing to it;
* `Block`, `safe_blocks`: a script of blocks, one for each service;
* `safe_apply`, `safe_restore`: the scripts of the tunnel;
* `dns_undone`: **a restore leaves each key as its owner published it**, and an
  apply is complete; `not_dns_undone`: unless that is an empty dictionary.
-/
import CumulusVpn.Desktop.DnsSnapshot

namespace CumulusVpn.Desktop.Dns

open Outline StepSystem Trim

/-! ### The store and its owners -/

/-- What is under each key. -/
abbrev View := Text → Option Dictionary

/-- What the keys of the store hold. -/
def view (store : Store) : View := fun key => store.lookup key

/-- The keys of a service. -/
def dnsOf (k : Service) : Text := dnsKey k.1 k.2

/-- The backup of a service. -/
def backupOf (k : Service) : Text := backupKey k.1 k.2

/-- What the owners of the services have published. -/
abbrev Owners := Service → Option Dictionary

/-- The dictionary is one of ours. -/
def Marked (d : Dictionary) : Prop := (readDict d).scalar marker ≠ none

instance (d : Dictionary) : Decidable (Marked d) := inferInstanceAs (Decidable (_ ≠ _))

/-- A backup that stands for no dictionary. -/
def Wiped (d : Dictionary) : Prop := (readDict d).scalar absent ≠ none ∨ (readDict d).isEmpty = true

instance (d : Dictionary) : Decidable (Wiped d) := inferInstanceAs (Decidable (_ ∨ _))

/-- A dictionary that is told apart from our own, and from none. -/
structure Plain (d : Dictionary) : Prop where
  legible : legibleEntries (pairs d) = true
  unmarked : ¬ Marked d
  kept : ¬ Wiped d

instance (d : Dictionary) : Decidable (Plain d) :=
  decidable_of_iff (legibleEntries (pairs d) = true ∧ ¬ Marked d ∧ ¬ Wiped d)
    ⟨fun h => ⟨h.1, h.2.1, h.2.2⟩, fun h => ⟨h.legible, h.unmarked, h.kept⟩⟩

/-- The backup puts back what the owner published. -/
def Restores (b p : Option Dictionary) : Prop :=
  ∃ d, b = some d ∧ p = if Wiped d then none else some d

/-- The key is as its owner published it, or it is ours and the backup puts
that back. -/
def SlotOk (v b p : Option Dictionary) : Prop :=
  (v = p ∧ ∀ d, v = some d → ¬ Marked d) ∨ (∃ d, v = some d ∧ Marked d) ∧ Restores b p

/-- **The override can be undone.** -/
structure Undoable (σ : View) (p : Owners) : Prop where
  slots : ∀ k, SlotOk (σ (dnsOf k)) (σ (backupOf k)) (p k)
  /-- backups are of services that are read -/
  safe : ∀ k d, σ (backupOf k) = some d → isSafeServiceId k.2 = true
  legible : ∀ key d, σ key = some d → readPattern key = true →
    noBreak key = true ∧ legibleEntries (pairs d) = true
  plain : ∀ k d, p k = some d → Plain d

section Keys

variable {k k' : Service}

lemma dnsOf_inj : dnsOf k = dnsOf k' ↔ k = k' := dnsKey_injective

lemma backupOf_inj : backupOf k = backupOf k' ↔ k = k' := backupKey_injective

lemma backupOf_ne_dnsOf : backupOf k ≠ dnsOf k' := backup_ne_dnsKey

lemma globalKey_ne_dnsOf (v6 : Bool) : globalKey v6 ≠ dnsOf k := globalKey_ne_dnsKey v6

lemma globalKey_ne_backupOf (v6 : Bool) : globalKey v6 ≠ backupOf k :=
  (backup_ne_globalKey v6).symm

end Keys

namespace Undoable

variable {σ : View} {p : Owners} {k : Service} {v b : Option Dictionary}

/-- The keys are read after one of them has changed. -/
lemma legible_update (h : Undoable σ p) {key : Text} (hlegible : ∀ d, v = some d →
      readPattern key = true → noBreak key = true ∧ legibleEntries (pairs d) = true) :
    ∀ key' d, Function.update σ key v key' = some d → readPattern key' = true →
      noBreak key' = true ∧ legibleEntries (pairs d) = true := by
  intro key' d hd
  by_cases hkey : key' = key
  · subst hkey
    rw [Function.update_self] at hd
    exact hlegible d hd
  · rw [Function.update_of_ne hkey] at hd
    exact h.legible key' d hd

/-- A key of a service changes, and the service is still in order. -/
lemma set_dns (h : Undoable σ p) (hslot : SlotOk v (σ (backupOf k)) (p k))
    (hlegible : ∀ d, v = some d → readPattern (dnsOf k) = true →
      noBreak (dnsOf k) = true ∧ legibleEntries (pairs d) = true) :
    Undoable (Function.update σ (dnsOf k) v) p where
  slots k' := by
    rw [Function.update_of_ne backupOf_ne_dnsOf]
    by_cases hk : k' = k
    · rw [hk, Function.update_self]
      exact hslot
    · rw [Function.update_of_ne fun heq => hk (dnsOf_inj.mp heq)]
      exact h.slots k'
  safe k' d hd := by
    rw [Function.update_of_ne backupOf_ne_dnsOf] at hd
    exact h.safe k' d hd
  legible := h.legible_update hlegible
  plain := h.plain

lemma set_backup (h : Undoable σ p) (hslot : SlotOk (σ (dnsOf k)) b (p k))
    (hsafe : ∀ d, b = some d → isSafeServiceId k.2 = true)
    (hlegible : ∀ d, b = some d → readPattern (backupOf k) = true →
      noBreak (backupOf k) = true ∧ legibleEntries (pairs d) = true) :
    Undoable (Function.update σ (backupOf k) b) p where
  slots k' := by
    rw [Function.update_of_ne backupOf_ne_dnsOf.symm]
    by_cases hk : k' = k
    · rw [hk, Function.update_self]
      exact hslot
    · rw [Function.update_of_ne fun heq => hk (backupOf_inj.mp heq)]
      exact h.slots k'
  safe k' d hd := by
    by_cases hk : k' = k
    · rw [hk, Function.update_self] at hd
      exact hk ▸ hsafe d hd
    · rw [Function.update_of_ne fun heq => hk (backupOf_inj.mp heq)] at hd
      exact h.safe k' d hd
  legible := h.legible_update hlegible
  plain := h.plain

/-- The owner publishes or removes a key. -/
lemma owner (h : Undoable σ p) (hplain : ∀ d, v = some d → Plain d ∧
      (readPattern (dnsOf k) = true → noBreak (dnsOf k) = true)) :
    Undoable (Function.update σ (dnsOf k) v) (Function.update p k v) where
  slots k' := by
    rw [Function.update_of_ne backupOf_ne_dnsOf]
    by_cases hk : k' = k
    · rw [hk, Function.update_self, Function.update_self]
      exact Or.inl ⟨rfl, fun d hd => (hplain d hd).1.unmarked⟩
    · rw [Function.update_of_ne fun heq => hk (dnsOf_inj.mp heq), Function.update_of_ne hk]
      exact h.slots k'
  safe k' d hd := by
    rw [Function.update_of_ne backupOf_ne_dnsOf] at hd
    exact h.safe k' d hd
  legible := h.legible_update fun d hd hread => ⟨(hplain d hd).2 hread, (hplain d hd).1.legible⟩
  plain k' d hd := by
    by_cases hk : k' = k
    · rw [hk, Function.update_self] at hd
      exact (hplain d hd).1
    · rw [Function.update_of_ne hk] at hd
      exact h.plain k' d hd

/-- A global key changes. -/
lemma primary (h : Undoable σ p) (v6 : Bool)
    (hlegible : ∀ d, v = some d → legibleEntries (pairs d) = true) :
    Undoable (Function.update σ (globalKey v6) v) p where
  slots k' := by
    rw [Function.update_of_ne (globalKey_ne_dnsOf v6).symm,
      Function.update_of_ne (globalKey_ne_backupOf v6).symm]
    exact h.slots k'
  safe k' d hd := by
    rw [Function.update_of_ne (globalKey_ne_backupOf v6).symm] at hd
    exact h.safe k' d hd
  legible := h.legible_update fun d hd _ => ⟨by cases v6 <;> rfl, hlegible d hd⟩
  plain := h.plain

end Undoable

/-! ### Scripts -/

/-- A command, on what is under each key. -/
def Command.act (c : Command) (s : View × Dictionary) : View × Dictionary :=
  match c with
  | .init => (s.1, ∅)
  | .get key => (s.1, (s.1 key).getD s.2)
  | .set key => (Function.update s.1 key (some s.2), s.2)
  | .remove key => (Function.update s.1 key none, s.2)
  | .removeEntry name => (s.1, s.2.erase name)
  | .addArray name values => (s.1, s.2.insert name (.array (values.map .text)))
  | .add name value => (s.1, s.2.insert name (.text value))
  | .addNumber name value => (s.1, s.2.insert name (.text (Nat.toDigits 10 value)))
  | .quit => s

/-- The key that a command names. -/
def Command.names : Command → Option Text
  | .get key | .set key | .remove key => some key
  | _ => none

lemma view_insert (store : Store) (key : Text) (d : Dictionary) :
    view (store.insert key d) = Function.update (view store) key (some d) := by
  funext key'
  by_cases hkey : key' = key
  · rw [hkey, Function.update_self, view, AList.lookup_insert]
  · rw [Function.update_of_ne hkey, view, view, AList.lookup_insert_ne hkey]

lemma view_erase (store : Store) (key : Text) :
    view (store.erase key) = Function.update (view store) key none := by
  funext key'
  by_cases hkey : key' = key
  · rw [hkey, Function.update_self, view, AList.lookup_erase]
  · rw [Function.update_of_ne hkey, view, view, AList.lookup_erase_ne hkey]

/-- **The commands do the same to the store.** -/
lemma act_view (c : Command) (store : Store) (d : Dictionary) :
    c.act (view store, d) = (view (c.run (store, d)).1, (c.run (store, d)).2) := by
  cases c with
  | set key => exact Prod.ext (view_insert store key d).symm rfl
  | remove key => exact Prod.ext (view_erase store key).symm rfl
  | _ => rfl

/-- The store is undoable before each command, and at the end of the script
meets its goal. -/
def Safe (G : View → Owners → Prop) (p : Owners) : View → Dictionary → List Command → Prop
  | σ, _, [] => Undoable σ p ∧ G σ p
  | σ, d, c :: rest => Undoable σ p ∧ Safe G p (c.act (σ, d)).1 (c.act (σ, d)).2 rest

namespace Safe

variable {G G' : View → Owners → Prop} {p p' : Owners} {σ : View} {d : Dictionary}
  {cmds rest : List Command} {key : Text} {v : Option Dictionary}

lemma undoable (h : Safe G p σ d cmds) : Undoable σ p := by
  cases cmds with
  | nil => exact h.1
  | cons c rest => exact h.1

lemma mono (hG : ∀ τ, Undoable τ p → G τ p → G' τ p) (h : Safe G p σ d cmds) :
    Safe G' p σ d cmds := by
  induction cmds generalizing σ d with
  | nil => exact ⟨h.1, hG σ h.1 h.2⟩
  | cons c rest ih => exact ⟨h.1, ih h.2⟩

/-- One script after another. -/
lemma append (h : Safe (fun τ _ => ∀ d', Safe G p τ d' rest) p σ d cmds) :
    Safe G p σ d (cmds ++ rest) := by
  induction cmds generalizing σ d with
  | nil => exact h.2 d
  | cons c cmds ih => exact ⟨h.1, ih h.2⟩

/-- What happens under a key that the script does not name. -/
lemma edit (hnames : ∀ c ∈ cmds, c.names ≠ some key)
    (hundoable : ∀ τ, Undoable τ p → Undoable (Function.update τ key v) p')
    (hG : ∀ τ, G τ p → G (Function.update τ key v) p') (h : Safe G p σ d cmds) :
    Safe G p' (Function.update σ key v) d cmds := by
  induction cmds generalizing σ d with
  | nil => exact ⟨hundoable σ h.1, hG σ h.2⟩
  | cons c cmds ih =>
      obtain ⟨hc, hrest⟩ := List.forall_mem_cons.mp hnames
      have hact : c.act (Function.update σ key v, d) =
          (Function.update (c.act (σ, d)).1 key v, (c.act (σ, d)).2) := by
        cases c with
        | get key' =>
            have hne : key' ≠ key := fun heq => hc (congrArg some heq)
            exact Prod.ext rfl (congrArg (fun v => v.getD d) (Function.update_of_ne hne v σ))
        | set key' =>
            have hne : key' ≠ key := fun heq => hc (congrArg some heq)
            exact Prod.ext (Function.update_comm hne _ _ _).symm rfl
        | remove key' =>
            have hne : key' ≠ key := fun heq => hc (congrArg some heq)
            exact Prod.ext (Function.update_comm hne _ _ _).symm rfl
        | _ => rfl
      refine ⟨hundoable σ h.1, ?_⟩
      rw [hact]
      exact ih hrest h.2

end Safe

/-! ### Blocks -/

/-- The commands for one service keep the store undoable, leave `Q` behind and
the other keys alone. -/
def Block (Q : Service → View → Prop) (p : Owners) (k : Service) (σ : View) (cmds : List Command) :
    Prop :=
  ∀ τ d, Undoable τ p → τ (dnsOf k) = σ (dnsOf k) → τ (backupOf k) = σ (backupOf k) →
    Safe (fun τ' _ => Q k τ' ∧ ∀ key, key ≠ dnsOf k → key ≠ backupOf k → τ' key = τ key) p τ d cmds

/-- `Q` reads the keys of its service. -/
def Local (Q : Service → View → Prop) : Prop :=
  ∀ k σ τ, τ (dnsOf k) = σ (dnsOf k) → τ (backupOf k) = σ (backupOf k) → Q k σ → Q k τ

/-- **A script of blocks**, one for each service. -/
lemma safe_blocks {Q : Service → View → Prop} (hlocal : Local Q) {G : View → Owners → Prop}
    {p : Owners} : ∀ {jobs : List (Service × List Command)} {σ : View},
      (jobs.map Prod.fst).Nodup → (∀ j ∈ jobs, Block Q p j.1 σ j.2) →
      (∀ τ, Undoable τ p → (∀ j ∈ jobs, Q j.1 τ) →
        (∀ key, (∀ j ∈ jobs, key ≠ dnsOf j.1 ∧ key ≠ backupOf j.1) → τ key = σ key) → G τ p) →
      Undoable σ p → ∀ d, Safe G p σ d (jobs.flatMap Prod.snd) := by
  intro jobs
  induction jobs with
  | nil =>
      intro σ _ _ hG hσ d
      exact ⟨hσ, hG σ hσ (fun _ hj => absurd hj List.not_mem_nil) fun _ _ => rfl⟩
  | cons j js ih =>
      intro σ hnodup hblocks hG hσ d
      obtain ⟨hhere, hrest⟩ := List.forall_mem_cons.mp hblocks
      obtain ⟨hnew, hnodup⟩ := List.nodup_cons.mp hnodup
      have hother : ∀ j' ∈ js, dnsOf j'.1 ≠ dnsOf j.1 ∧ backupOf j'.1 ≠ backupOf j.1 := by
        intro j' hj'
        have hne : j'.1 ≠ j.1 := fun heq => hnew (heq ▸ List.mem_map_of_mem hj')
        exact ⟨fun heq => hne (dnsOf_inj.mp heq), fun heq => hne (backupOf_inj.mp heq)⟩
      rw [List.flatMap_cons]
      refine ((hhere σ d hσ rfl rfl).mono fun τ hτ hdone d' => ?_).append
      obtain ⟨hQ, hframe⟩ := hdone
      refine ih hnodup (fun j' hj' τ' d'' hτ' hdns hbackup => ?_)
        (fun τ' hτ' hQs hframe' => ?_) hτ d'
      · rw [hframe _ (hother j' hj').1 backupOf_ne_dnsOf.symm] at hdns
        rw [hframe _ backupOf_ne_dnsOf (hother j' hj').2] at hbackup
        exact hrest j' hj' τ' d'' hτ' hdns hbackup
      · have hdns := hframe' (dnsOf j.1) fun j' hj' =>
          ⟨(hother j' hj').1.symm, backupOf_ne_dnsOf.symm⟩
        have hbackup := hframe' (backupOf j.1) fun j' hj' =>
          ⟨backupOf_ne_dnsOf, (hother j' hj').2.symm⟩
        refine hG τ' hτ' (List.forall_mem_cons.mpr ⟨hlocal j.1 τ τ' hdns hbackup hQ, hQs⟩)
          fun key hkey => ?_
        obtain ⟨hkeyhere, hkeyrest⟩ := List.forall_mem_cons.mp hkey
        rw [hframe' key hkeyrest, hframe key hkeyhere.1 hkeyhere.2]

/-- The script's last command does nothing. -/
lemma safe_script {G : View → Owners → Prop} {p : Owners} {σ : View} {d : Dictionary}
    {out : List Command} (h : Safe G p σ d out) : Safe G p σ d (script out) := by
  rw [script]
  split
  · rename_i hnil
    rwa [hnil] at h
  · exact (h.mono fun τ hτ hgoal _ => ⟨hτ, hτ, hgoal⟩).append

/-! ### Applying -/

section Apply

variable {σ : View} {p : Owners} {k : Service} {servers : List AddressText} {d : Dictionary}

/-- The override of a dictionary. -/
def override (servers : List AddressText) (d : Dictionary) : Dictionary :=
  ((d.erase "ServerPort".toList).insert "ServerAddresses".toList
    (.array ((servers.map Subtype.val).map .text))).insert marker (.text (markerValue servers))

lemma isWhitespace_of_address {c : Char} (h : isAddressChar c = true) : isWhitespace c = false := by
  simp only [isAddressChar, Char.isDigit, Bool.or_eq_true, Bool.and_eq_true, decide_eq_true_eq,
    ge_iff_le, UInt32.le_iff_toNat_le, Char.le_def] at h
  have hbounds : 33 ≤ c.val.toNat ∧ c.val.toNat ≤ 126 := by
    rcases h with ((h | h) | rfl) | rfl
    · exact ⟨le_trans (by decide) h.1, le_trans h.2 (by decide)⟩
    · exact ⟨le_trans (by decide) h.1, le_trans h.2 (by decide)⟩
    · decide
    · decide
  exact isWhitespace_eq_false hbounds.1 hbounds.2

/-- The text of an address, or of several with commas between them. -/
lemma plainText_addresses {t : Text} {c : Char} (hc : isAddressChar c = true)
    (ht : ∀ x ∈ t, isAddressChar x = true ∨ x = ',') : plainText (t ++ [c]) = true := by
  have hlast : c ≠ '{' := by
    rintro rfl
    cases hc
  have hnot : ∀ x, isAddressChar x = false → x ≠ ',' → x ∉ t ++ [c] := by
    intro x hx hcomma hmem
    rcases List.mem_append.mp hmem with hmem | hmem
    · rcases ht x hmem with haddr | heq
      · rw [hx] at haddr
        cases haddr
      · exact hcomma heq
    · rw [List.mem_singleton.mp hmem, hc] at hx
      cases hx
  rw [plainText, trimEnd_of_last (isWhitespace_of_address hc), noBreak_iff.mpr
    ⟨hnot _ rfl (by decide), hnot _ rfl (by decide)⟩]
  simpa using hlast

lemma exists_address (s : AddressText) : ∃ t c, s.1 = t ++ [c] ∧ isAddressChar c = true ∧
    ∀ x ∈ t, isAddressChar x = true := by
  obtain ⟨t, ht, hchars⟩ := s
  obtain ⟨u, c, hu⟩ := (List.eq_nil_or_concat t).resolve_left ht
  rw [List.concat_eq_append] at hu
  refine ⟨u, c, hu, hchars c ?_, fun x hx => hchars x ?_⟩
  · simp [hu]
  · simp [hu, hx]

lemma exists_markerValue (hservers : servers ≠ []) : ∃ t c, markerValue servers = t ++ [c] ∧
    isAddressChar c = true ∧ ∀ x ∈ t, isAddressChar x = true ∨ x = ',' := by
  induction servers with
  | nil => exact absurd rfl hservers
  | cons s ss ih =>
      obtain ⟨t, c, hs, hc, ht⟩ := exists_address s
      cases ss with
      | nil =>
          have hone : markerValue [s] = s.1 := by simp [markerValue]
          exact ⟨t, c, hone.trans hs, hc, fun x hx => Or.inl (ht x hx)⟩
      | cons s' ss =>
          obtain ⟨t', c', hrest, hc', ht'⟩ := ih (List.cons_ne_nil s' ss)
          have hcons : markerValue (s :: s' :: ss) = s.1 ++ (',' :: markerValue (s' :: ss)) := by
            simp [markerValue, List.intercalate]
          refine ⟨s.1 ++ (',' :: t'), c', by rw [hcons, hrest, List.append_assoc, List.cons_append],
            hc', fun x hx => ?_⟩
          rcases List.mem_append.mp hx with hx | hx
          · exact Or.inl (s.2.2 x hx)
          · rcases List.mem_cons.mp hx with rfl | hx
            · exact Or.inr rfl
            · exact ht' x hx

lemma markerValue_spec (hservers : servers ≠ []) :
    plainText (markerValue servers) = true ∧ trimEnd (markerValue servers) = markerValue servers ∧
      markerValue servers ≠ [] := by
  obtain ⟨t, c, hvalue, hc, ht⟩ := exists_markerValue hservers
  rw [hvalue]
  exact ⟨plainText_addresses hc ht, trimEnd_of_last (isWhitespace_of_address hc) t, by simp⟩

lemma scalar_override (hservers : servers ≠ []) (d : Dictionary) :
    (readDict (override servers d)).scalar marker = some (markerValue servers) := by
  obtain ⟨-, htrim, hne⟩ := markerValue_spec hservers
  rw [scalar_readDict, override, AList.lookup_insert, Option.bind_some, itemText, htrim, if_neg hne]

lemma legible_override (hservers : servers ≠ []) (h : legibleEntries (pairs d) = true) :
    legibleEntries (pairs (override servers d)) = true := by
  have hitems : (Value.array ((servers.map Subtype.val).map .text)).legible = true := by
    refine legibleItems_iff.mpr fun v hv => ?_
    obtain ⟨t, ht, rfl⟩ := List.mem_map.mp hv
    obtain ⟨s, -, rfl⟩ := List.mem_map.mp ht
    obtain ⟨t, c, hs, hc, ht⟩ := exists_address s
    rw [Value.legible, hs]
    exact plainText_addresses hc fun x hx => Or.inl (ht x hx)
  exact legible_insert (legible_insert (legible_erase h _) (by decide +kernel) hitems)
    (by decide +kernel) (markerValue_spec hservers).1

/-- Our marker, for these servers. -/
def Taken (servers : List AddressText) (k : Service) (σ : View) : Prop :=
  ∃ d, σ (dnsOf k) = some d ∧ (readDict d).scalar marker = some (markerValue servers)

lemma local_taken : Local (Taken servers) := fun _ _ _ hdns _ ⟨d, hd, hmarker⟩ =>
  ⟨d, hdns.trans hd, hmarker⟩

lemma noBreak_of_safe {id : Text} (h : isSafeServiceId id = true) : noBreak id = true := by
  have hchars := List.all_eq_true.mp (Bool.and_eq_true_iff.mp h).2
  refine noBreak_iff.mpr ⟨fun hmem => ?_, fun hmem => ?_⟩
  · cases hchars _ hmem
  · cases hchars _ hmem

lemma noBreak_dnsOf (h : noBreak k.2 = true) : noBreak (dnsOf k) = true := by
  obtain ⟨layer, id⟩ := k
  rw [dnsOf, dnsKey, noBreak_append, noBreak_append, h]
  cases layer <;> rfl

lemma noBreak_backupOf (h : noBreak k.2 = true) : noBreak (backupOf k) = true := by
  obtain ⟨layer, id⟩ := k
  have hcons : noBreak ('/' :: id) = true := by
    rw [← List.singleton_append, noBreak_append, h]
    rfl
  rw [backupOf, backupKey, noBreak_append, noBreak_append, hcons]
  cases layer <;> rfl

lemma marked_override (hservers : servers ≠ []) (d : Dictionary) : Marked (override servers d) := by
  rw [Marked, scalar_override hservers]
  exact Option.some_ne_none _

/-- The override of a legible dictionary goes where a backup restores the key. -/
lemma Undoable.taken (h : Undoable σ p) (hservers : servers ≠ []) (hid : noBreak k.2 = true)
    (hd : legibleEntries (pairs d) = true) (hrestores : Restores (σ (backupOf k)) (p k)) :
    Undoable (Function.update σ (dnsOf k) (some (override servers d))) p := by
  refine h.set_dns (Or.inr ⟨⟨_, rfl, marked_override hservers d⟩, hrestores⟩) ?_
  rintro _ ⟨⟩ -
  exact ⟨noBreak_dnsOf hid, legible_override hservers hd⟩

lemma taken_override (hservers : servers ≠ []) :
    Taken servers k (Function.update σ (dnsOf k) (some (override servers d))) :=
  ⟨_, Function.update_self .., scalar_override hservers d⟩

/-- A service of which there is no backup yet. -/
lemma block_unmarked (hservers : servers ≠ []) (hsafe : isSafeServiceId k.2 = true)
    (hd : σ (dnsOf k) = some d) (hunmarked : ¬ Marked d) :
    Block (Taken servers) p k σ
      (.init :: .get (dnsOf k) :: .set (backupOf k) :: overrideLines (dnsOf k) servers) := by
  intro τ d₀ hτ hdns _
  have hvalue : τ (dnsOf k) = some d := hdns.trans hd
  have hget : (τ (dnsOf k)).getD ∅ = d := by rw [hvalue, Option.getD_some]
  have howner : p k = some d := by
    rcases hτ.slots k with ⟨heq, -⟩ | ⟨⟨d', hd', hmarked⟩, -⟩
    · rw [← heq, hvalue]
    · obtain rfl := Option.some_inj.mp (hvalue.symm.trans hd')
      exact absurd hmarked hunmarked
  have hplain := hτ.plain k d howner
  have hcopied : Undoable (Function.update τ (backupOf k) (some d)) p := by
    refine hτ.set_backup (Or.inl ⟨hvalue.trans howner.symm, ?_⟩) (fun _ _ => hsafe) ?_
    · intro d' hd'
      obtain rfl := Option.some_inj.mp (hvalue.symm.trans hd')
      exact hunmarked
    · rintro _ ⟨⟩ -
      exact ⟨noBreak_backupOf (noBreak_of_safe hsafe), hplain.legible⟩
  have htaken := hcopied.taken (k := k) hservers (noBreak_of_safe hsafe) hplain.legible
    ⟨d, Function.update_self .., by rw [if_neg hplain.kept, howner]⟩
  have hend : Safe (fun τ' _ => Taken servers k τ' ∧
      ∀ key, key ≠ dnsOf k → key ≠ backupOf k → τ' key = τ key) p
      (Function.update τ (backupOf k) (some d)) d (overrideLines (dnsOf k) servers) := by
    refine ⟨hcopied, hcopied, hcopied, hcopied, htaken,
      taken_override hservers, fun key hkey hkey' => ?_⟩
    exact (Function.update_of_ne hkey _ _).trans (Function.update_of_ne hkey' _ _)
  refine ⟨hτ, hτ, hτ, ?_⟩
  dsimp only [Command.act]
  rw [hget]
  exact hend

/-- A service that is ours, for other servers. -/
lemma block_marked (hservers : servers ≠ []) (hsafe : isSafeServiceId k.2 = true)
    (hd : σ (dnsOf k) = some d) (hmarked : Marked d) :
    Block (Taken servers) p k σ
      (.init :: .get (dnsOf k) :: overrideLines (dnsOf k) servers) := by
  intro τ d₀ hτ hdns _
  have hvalue : τ (dnsOf k) = some d := hdns.trans hd
  have hget : (τ (dnsOf k)).getD ∅ = d := by rw [hvalue, Option.getD_some]
  have hrestores : Restores (τ (backupOf k)) (p k) := by
    rcases hτ.slots k with ⟨-, hnot⟩ | ⟨-, hrestores⟩
    · exact absurd hmarked (hnot d hvalue)
    · exact hrestores
  have hlegible := (hτ.legible _ d hvalue (readPattern_dnsKey hsafe)).2
  have htaken := hτ.taken hservers (noBreak_of_safe hsafe) hlegible hrestores
  have hend : Safe (fun τ' _ => Taken servers k τ' ∧
      ∀ key, key ≠ dnsOf k → key ≠ backupOf k → τ' key = τ key) p τ d
      (overrideLines (dnsOf k) servers) :=
    ⟨hτ, hτ, hτ, hτ, htaken, taken_override hservers,
      fun key hkey _ => Function.update_of_ne hkey _ _⟩
  refine ⟨hτ, hτ, ?_⟩
  dsimp only [Command.act]
  rw [hget]
  exact hend

/-- What stands for no dictionary. -/
def nothing : Dictionary := AList.insert absent (.text (Nat.toDigits 10 1)) ∅

/-- A primary service that has no dictionary. -/
lemma block_primary {id : Text} (hservers : servers ≠ []) (hsafe : isSafeServiceId id = true)
    (hd : σ (dnsOf (.state, id)) = none) :
    Block (Taken servers) p (.state, id) σ (planPrimary servers id) := by
  intro τ d₀ hτ hdns _
  have hvalue : τ (dnsOf (.state, id)) = none := hdns.trans hd
  have howner : p (.state, id) = none := by
    rcases hτ.slots (.state, id) with ⟨heq, -⟩ | ⟨⟨d', hd', -⟩, -⟩
    · rw [← heq, hvalue]
    · rw [hvalue] at hd'
      cases hd'
  have hcopied : Undoable (Function.update τ (backupOf (.state, id)) (some nothing)) p := by
    refine hτ.set_backup (Or.inl ⟨hvalue.trans howner.symm, ?_⟩) (fun _ _ => hsafe) ?_
    · intro d' hd'
      rw [hvalue] at hd'
      cases hd'
    · rintro _ ⟨⟩ -
      exact ⟨noBreak_backupOf (noBreak_of_safe hsafe), by decide +kernel⟩
  have hwiped : Wiped nothing := by decide +kernel
  have htaken := hcopied.taken (k := (.state, id)) (d := ∅) hservers (noBreak_of_safe hsafe)
    (by decide +kernel) ⟨nothing, Function.update_self .., by rw [if_pos hwiped, howner]⟩
  refine ⟨hτ, hτ, hτ, hcopied, hcopied, hcopied, hcopied, hcopied, htaken, taken_override hservers,
    fun key hkey hkey' => ?_⟩
  exact (Function.update_of_ne hkey _ _).trans (Function.update_of_ne hkey' _ _)

lemma Undoable.legible_store {store : Store} (h : Undoable (view store) p) : Legible store :=
  h.legible

/-- What the tunnel does about a service that is read. -/
lemma block_entry (hservers : servers ≠ []) (hsafe : isSafeServiceId k.2 = true)
    (hd : σ (dnsOf k) = some d) :
    Block (Taken servers) p k σ (planEntry servers (k, readDict d)) := by
  rw [planEntry]
  cases hmarker : (readDict d).scalar marker with
  | none => exact block_unmarked hservers hsafe hd fun hmarked => hmarked hmarker
  | some value =>
      dsimp only
      split
      · rename_i heq
        intro τ d₀ hτ hdns _
        exact ⟨hτ, ⟨d, hdns.trans hd, by rw [hmarker, heq]⟩, fun _ _ _ => rfl⟩
      · exact block_marked hservers hsafe hd (by rw [Marked, hmarker]; exact Option.some_ne_none _)

/-- Every service that is read is ours, and every primary service has a DNS key. -/
structure Override (servers : List AddressText) (σ : View) : Prop where
  taken : ∀ k, isSafeServiceId k.2 = true → ∀ d, σ (dnsOf k) = some d →
    (readDict d).scalar marker = some (markerValue servers)
  primaries : ∀ id, isSafeServiceId id = true → ∀ v6 d, σ (globalKey v6) = some d →
    (readDict d).scalar "PrimaryService".toList = some id → ∃ layer, (σ (dnsOf (layer, id))).isSome

lemma lookup_dns_seen {store : Store} (hsafe : isSafeServiceId k.2 = true) :
    (seen store).dns.lookup k = (view store (dnsOf k)).map readDict :=
  dns_seen.trans (if_pos hsafe)

lemma exists_of_dns_seen {store : Store} {r : Dict} (h : (seen store).dns.lookup k = some r) :
    isSafeServiceId k.2 = true ∧ ∃ d, view store (dnsOf k) = some d ∧ readDict d = r := by
  rw [dns_seen] at h
  split at h
  · rename_i hsafe
    exact ⟨hsafe, Option.map_eq_some_iff.mp h⟩
  · cases h

lemma hasDns_seen {store : Store} {id : Text} (hsafe : isSafeServiceId id = true) :
    (seen store).hasDns id = true ↔ ∃ layer, (view store (dnsOf (layer, id))).isSome := by
  rw [Snapshot.hasDns, lookup_dns_seen (k := (.state, id)) hsafe,
    lookup_dns_seen (k := (.setup, id)) hsafe,
    Bool.or_eq_true, Option.isSome_map, Option.isSome_map]
  constructor
  · rintro (h | h)
    · exact ⟨.state, h⟩
    · exact ⟨.setup, h⟩
  · rintro ⟨layer, h⟩
    cases layer with
    | state => exact Or.inl h
    | setup => exact Or.inr h

/-- **The script of an apply.** -/
lemma safe_apply {store : Store} {cmds : List Command}
    (hcmds : planApply (read store) servers = cmds) (hservers : servers ≠ [])
    (h : Undoable (view store) p) (d : Dictionary) :
    Safe (fun τ _ => Override servers τ) p (view store) d cmds := by
  rw [← hcmds, read_eq h.legible_store, planApply]
  refine safe_script ?_
  have hprimaries : ∀ id ∈ (seen store).primaries.filter fun id => !(seen store).hasDns id,
      isSafeServiceId id = true ∧ ∀ layer, view store (dnsOf (layer, id)) = none := by
    intro id hid
    obtain ⟨hmem, hnot⟩ := List.mem_filter.mp hid
    have hsafe := (mem_primaries_seen.mp hmem).1
    refine ⟨hsafe, fun layer => Option.not_isSome_iff_eq_none.mp fun hsome => ?_⟩
    rw [(hasDns_seen hsafe).mpr ⟨layer, hsome⟩] at hnot
    cases hnot
  have hjobs : ((inOrder (seen store).dns).map (fun e => (e.1, planEntry servers e)) ++
      ((seen store).primaries.filter fun id => !(seen store).hasDns id).map
        fun id => ((Layer.state, id), planPrimary servers id)).flatMap Prod.snd =
      (inOrder (seen store).dns).flatMap (planEntry servers) ++
        ((seen store).primaries.filter fun id => !(seen store).hasDns id).flatMap
          (planPrimary servers) := by
    rw [List.flatMap_append, List.flatMap_map, List.flatMap_map]
  rw [← hjobs]
  refine safe_blocks (Q := Taken servers) local_taken ?_ ?_ ?_ h d
  · rw [List.map_append, List.map_map, List.map_map]
    refine List.nodup_append.mpr ⟨nodup_inOrder _, ?_, ?_⟩
    · exact (nodup_primaries_seen.filter _).map fun _ _ heq => (Prod.mk.inj heq).2
    · rintro _ hleft _ hright rfl
      obtain ⟨e, he, rfl⟩ := List.mem_map.mp hleft
      obtain ⟨id, hid, heq⟩ := List.mem_map.mp hright
      obtain ⟨-, d', hd', -⟩ := exists_of_dns_seen (mem_inOrder.mp he)
      have heq : (Layer.state, id) = e.1 := heq
      rw [← heq, (hprimaries id hid).2] at hd'
      cases hd'
  · intro j hj
    rcases List.mem_append.mp hj with hj | hj
    · obtain ⟨⟨k, r⟩, he, rfl⟩ := List.mem_map.mp hj
      obtain ⟨hsafe, d', hd', rfl⟩ := exists_of_dns_seen (mem_inOrder.mp he)
      exact block_entry hservers hsafe hd'
    · obtain ⟨id, hid, rfl⟩ := List.mem_map.mp hj
      exact block_primary hservers (hprimaries id hid).1 ((hprimaries id hid).2 .state)
  · intro τ _ htaken hframe
    have hentry : ∀ k, isSafeServiceId k.2 = true → ∀ d', view store (dnsOf k) = some d' →
        Taken servers k τ := fun k hsafe d' hd' =>
      htaken (k, planEntry servers (k, readDict d')) (List.mem_append_left _ (List.mem_map.mpr
        ⟨(k, readDict d'), mem_inOrder.mpr (by rw [lookup_dns_seen hsafe, hd']; rfl), rfl⟩))
    constructor
    · intro k hsafe d' hd'
      have hk : Taken servers k τ := by
        by_contra hnot
        refine hnot ?_
        have hkey : τ (dnsOf k) = view store (dnsOf k) := hframe _ fun j hj =>
          ⟨fun heq => hnot (dnsOf_inj.mp heq ▸ htaken j hj), backupOf_ne_dnsOf.symm⟩
        exact hentry k hsafe d' (hkey ▸ hd')
      obtain ⟨d'', hd'', hmarker⟩ := hk
      obtain rfl := Option.some_inj.mp (hd'.symm.trans hd'')
      exact hmarker
    · intro id hsafe v6 d' hd' hprimary
      have hkey : τ (globalKey v6) = view store (globalKey v6) := hframe _ fun j _ =>
        ⟨globalKey_ne_dnsOf v6, globalKey_ne_backupOf v6⟩
      have hmem : id ∈ (seen store).primaries :=
        mem_primaries_seen.mpr ⟨hsafe, v6, d', hkey.symm.trans hd', hprimary⟩
      have htake : ∃ layer, Taken servers (layer, id) τ := by
        by_cases hdns : (seen store).hasDns id = true
        · obtain ⟨layer, hsome⟩ := (hasDns_seen hsafe).mp hdns
          obtain ⟨d'', hd''⟩ := Option.isSome_iff_exists.mp hsome
          exact ⟨layer, hentry (layer, id) hsafe d'' hd''⟩
        · refine ⟨.state, htaken ((.state, id), planPrimary servers id) (List.mem_append_right _
            (List.mem_map.mpr ⟨id, List.mem_filter.mpr ⟨hmem, ?_⟩, rfl⟩))⟩
          rw [Bool.not_eq_true] at hdns
          rw [hdns]
          rfl
      obtain ⟨layer, d'', hd'', -⟩ := htake
      exact ⟨layer, hd'' ▸ rfl⟩

end Apply

/-! ### Restoring -/

section Restore

variable {σ : View} {p : Owners} {k : Service} {d b : Dictionary}

/-- The key is as its owner published it, and there is no backup. -/
def Back (p : Owners) (k : Service) (σ : View) : Prop :=
  σ (dnsOf k) = p k ∧ σ (backupOf k) = none

lemma local_back : Local (Back p) := fun _ _ _ hdns hbackup ⟨hv, hb⟩ =>
  ⟨hdns.trans hv, hbackup.trans hb⟩

/-- The backup of a key that is as its owner published it goes. -/
lemma safe_dropped {τ τ₀ : View} (hτ : Undoable τ p) (hvalue : τ (dnsOf k) = p k)
    (hframe : ∀ key, key ≠ dnsOf k → key ≠ backupOf k → τ key = τ₀ key) :
    Safe (fun τ' _ => Back p k τ' ∧ ∀ key, key ≠ dnsOf k → key ≠ backupOf k → τ' key = τ₀ key) p τ d
      [.remove (backupOf k)] := by
  have hslot : SlotOk (τ (dnsOf k)) none (p k) :=
    Or.inl ⟨hvalue, fun d hd => (hτ.plain k d (hvalue ▸ hd)).unmarked⟩
  refine ⟨hτ, hτ.set_backup hslot nofun nofun, ⟨?_, ?_⟩, ?_⟩
  · exact (Function.update_of_ne backupOf_ne_dnsOf.symm _ _).trans hvalue
  · exact Function.update_self ..
  · exact fun key hkey hkey' => (Function.update_of_ne hkey' _ _).trans (hframe key hkey hkey')

/-- What the tunnel does about a backup. -/
lemma block_backup {store : Store} (hsafe : isSafeServiceId k.2 = true)
    (hb : view store (backupOf k) = some b) :
    Block (Back p) p k (view store) (planBackup (seen store) (k, readDict b)) := by
  intro τ d₀ hτ hdns hbackup
  have hcopy : τ (backupOf k) = some b := hbackup.trans hb
  rw [planBackup, lookup_dns_seen hsafe, ← hdns]
  split
  · rename_i hours
    obtain ⟨r, hr, hmarked⟩ := (Option.any_eq_true _ _).mp hours
    obtain ⟨d, hd, rfl⟩ := Option.map_eq_some_iff.mp hr
    have hrestores : p k = if Wiped b then none else some b := by
      rcases hτ.slots k with ⟨-, hnot⟩ | ⟨-, b', hb', howner⟩
      · exact absurd (Option.isSome_iff_ne_none.mp hmarked) (hnot d hd)
      · obtain rfl := Option.some_inj.mp (hcopy.symm.trans hb')
        exact howner
    have hwiped : ((readDict b).scalar absent).isSome = true ∨ (readDict b).isEmpty = true ↔
        Wiped b := by
      rw [Wiped, Option.isSome_iff_ne_none]
    simp only [Bool.or_eq_true, hwiped]
    split
    · -- the owner had none
      rename_i hgone
      rw [if_pos hgone] at hrestores
      have hremoved : Undoable (Function.update τ (dnsOf k) none) p :=
        hτ.set_dns (Or.inl ⟨hrestores.symm, nofun⟩) nofun
      exact ⟨hτ, safe_dropped hremoved ((Function.update_self ..).trans hrestores.symm)
        fun key hkey _ => Function.update_of_ne hkey _ _⟩
    · rename_i hkept
      rw [if_neg hkept] at hrestores
      have hplain := hτ.plain k b hrestores
      have hput : Undoable (Function.update τ (dnsOf k) (some b)) p := by
        refine hτ.set_dns (Or.inl ⟨hrestores.symm, ?_⟩) ?_
        · rintro _ ⟨⟩
          exact hplain.unmarked
        · rintro _ ⟨⟩ -
          exact ⟨noBreak_dnsOf (noBreak_of_safe hsafe), hplain.legible⟩
      have hget : (τ (backupOf k)).getD ∅ = b := by rw [hcopy, Option.getD_some]
      have hend := safe_dropped (d := b) hput ((Function.update_self ..).trans hrestores.symm)
        fun key hkey _ => Function.update_of_ne hkey _ _
      refine ⟨hτ, hτ, hτ, ?_⟩
      dsimp only [Command.act]
      rw [show (τ (backupKey k.1 k.2)).getD ∅ = b from hget]
      exact hend
  · rename_i hours
    rw [List.nil_append]
    refine safe_dropped hτ ?_ fun _ _ _ => rfl
    rcases hτ.slots k with ⟨heq, -⟩ | ⟨⟨d, hd, hmarked⟩, -⟩
    · exact heq
    · rw [hd] at hours
      exact absurd (Option.isSome_iff_ne_none.mpr hmarked) hours

lemma exists_of_backups_seen {store : Store} {r : Dict}
    (h : (seen store).backups.lookup k = some r) :
    isSafeServiceId k.2 = true ∧ ∃ b, view store (backupOf k) = some b ∧ readDict b = r := by
  rw [backups_seen] at h
  split at h
  · rename_i hsafe
    exact ⟨hsafe, Option.map_eq_some_iff.mp h⟩
  · cases h

/-- **The script of a restore.** -/
lemma safe_restore {store : Store} {cmds : List Command} (hcmds : planRestore (read store) = cmds)
    (h : Undoable (view store) p) (d : Dictionary) :
    Safe (fun τ q => ∀ k, Back q k τ) p (view store) d cmds := by
  rw [← hcmds, read_eq h.legible_store, planRestore]
  refine safe_script ?_
  have hjobs :
      ((inOrder (seen store).backups).map fun e => (e.1, planBackup (seen store) e)).flatMap
      Prod.snd = (inOrder (seen store).backups).flatMap (planBackup (seen store)) := by
    rw [List.flatMap_map]
  rw [← hjobs]
  refine safe_blocks (Q := Back p) local_back ?_ ?_ ?_ h d
  · rw [List.map_map]
    exact nodup_inOrder _
  · intro j hj
    obtain ⟨⟨k, r⟩, he, rfl⟩ := List.mem_map.mp hj
    obtain ⟨hsafe, b, hb, rfl⟩ := exists_of_backups_seen (mem_inOrder.mp he)
    exact block_backup hsafe hb
  · intro τ _ hback hframe k
    by_contra hnot
    -- there is no backup: the key is as its owner published it
    have hkeys := fun key (hkey : key = dnsOf k ∨ key = backupOf k) => hframe key fun j hj => by
      have hne : j.1 ≠ k := fun heq => hnot (heq ▸ hback j hj)
      rcases hkey with rfl | rfl
      · exact ⟨fun heq => hne (dnsOf_inj.mp heq).symm, backupOf_ne_dnsOf.symm⟩
      · exact ⟨backupOf_ne_dnsOf, fun heq => hne (backupOf_inj.mp heq).symm⟩
    have hnone : view store (backupOf k) = none := by
      by_contra hsome
      obtain ⟨b, hb⟩ := Option.ne_none_iff_exists'.mp hsome
      have hsafe := h.safe k b hb
      have hlisted : (seen store).backups.lookup k = some (readDict b) := by
        rw [backups_seen, if_pos hsafe]
        exact congrArg (Option.map readDict) hb
      exact hnot (hback (k, planBackup (seen store) (k, readDict b))
        (List.mem_map.mpr ⟨(k, readDict b), mem_inOrder.mpr hlisted, rfl⟩))
    refine hnot ⟨?_, (hkeys _ (Or.inr rfl)).trans hnone⟩
    rw [hkeys _ (Or.inl rfl)]
    rcases h.slots k with ⟨heq, -⟩ | ⟨-, b, hb, -⟩
    · exact heq
    · rw [hnone] at hb
      cases hb

end Restore

/-! ### Runs -/

section Runs

variable {G : View → Owners → Prop} {m m' : Mac} {e : Event} {servers : List AddressText}

/-- A command of the tunnel names the keys of a service, if any. -/
def Command.OfService (c : Command) : Prop :=
  c.names = none ∨ ∃ k, c.names = some (dnsOf k) ∨ c.names = some (backupOf k)

lemma Command.OfService.not_global {c : Command} (h : c.OfService) (v6 : Bool) :
    c.names ≠ some (globalKey v6) := by
  intro heq
  rcases h with hnone | ⟨k, hdns | hbackup⟩
  · rw [hnone] at heq
    cases heq
  · exact globalKey_ne_dnsOf v6 (Option.some_inj.mp (heq.symm.trans hdns))
  · exact globalKey_ne_backupOf v6 (Option.some_inj.mp (heq.symm.trans hbackup))

lemma ofService_overrideLines {k : Service} :
    ∀ c ∈ overrideLines (dnsKey k.1 k.2) servers, c.OfService := by
  simp only [overrideLines, List.forall_mem_cons]
  exact ⟨Or.inl rfl, Or.inl rfl, Or.inl rfl, Or.inr ⟨k, Or.inl rfl⟩, nofun⟩

lemma ofService_planEntry (e : Service × Dict) : ∀ c ∈ planEntry servers e, c.OfService := by
  rw [planEntry]
  split
  · split
    · exact nofun
    · simp only [List.forall_mem_cons]
      exact ⟨Or.inl rfl, Or.inr ⟨e.1, Or.inl rfl⟩, ofService_overrideLines⟩
  · simp only [List.forall_mem_cons]
    exact ⟨Or.inl rfl, Or.inr ⟨e.1, Or.inl rfl⟩, Or.inr ⟨e.1, Or.inr rfl⟩, ofService_overrideLines⟩

lemma ofService_planPrimary (id : Text) : ∀ c ∈ planPrimary servers id, c.OfService := by
  simp only [planPrimary, List.forall_mem_cons]
  exact ⟨Or.inl rfl, Or.inl rfl, Or.inr ⟨(.state, id), Or.inr rfl⟩, Or.inl rfl,
    ofService_overrideLines (k := (.state, id))⟩

lemma ofService_planBackup (snap : Snapshot) (e : Service × Dict) :
    ∀ c ∈ planBackup snap e, c.OfService := by
  have hdrop : ∀ c ∈ [Command.remove (backupKey e.1.1 e.1.2)], c.OfService := by
    simp only [List.forall_mem_cons]
    exact ⟨Or.inr ⟨e.1, Or.inr rfl⟩, nofun⟩
  rw [planBackup]
  split
  · split
    · simp only [List.singleton_append, List.forall_mem_cons]
      exact ⟨Or.inr ⟨e.1, Or.inl rfl⟩, List.forall_mem_cons.mp hdrop⟩
    · simp only [List.cons_append, List.nil_append, List.forall_mem_cons]
      exact ⟨Or.inl rfl, Or.inr ⟨e.1, Or.inr rfl⟩, Or.inr ⟨e.1, Or.inl rfl⟩,
        List.forall_mem_cons.mp hdrop⟩
  · exact hdrop

lemma ofService_script {out : List Command} (h : ∀ c ∈ out, c.OfService) :
    ∀ c ∈ script out, c.OfService := by
  intro c hc
  rw [script] at hc
  split at hc
  · cases hc
  · rcases List.mem_append.mp hc with hc | hc
    · exact h c hc
    · rw [List.mem_singleton.mp hc]
      exact Or.inl rfl

lemma ofService_planApply (snap : Snapshot) : ∀ c ∈ planApply snap servers, c.OfService := by
  refine ofService_script fun c hc => ?_
  rcases List.mem_append.mp hc with hc | hc
  · obtain ⟨e, -, hc⟩ := List.mem_flatMap.mp hc
    exact ofService_planEntry e c hc
  · obtain ⟨id, -, hc⟩ := List.mem_flatMap.mp hc
    exact ofService_planPrimary id c hc

lemma ofService_planRestore (snap : Snapshot) : ∀ c ∈ planRestore snap, c.OfService := by
  refine ofService_script fun c hc => ?_
  obtain ⟨e, -, hc⟩ := List.mem_flatMap.mp hc
  exact ofService_planBackup snap e c hc

/-- Owners publish dictionaries that are told apart from our own and from
none, and leave a key alone while the script names it. -/
def Polite (m : Mac) : Event → Prop
  | .publish k d => Plain d ∧ (readPattern (dnsOf k) = true → noBreak (dnsOf k) = true) ∧
      ∀ c ∈ m.pending, c.names ≠ some (dnsOf k)
  | .withdraw k => ∀ c ∈ m.pending, c.names ≠ some (dnsOf k)
  | .primary _ (some d) => legibleEntries (pairs d) = true
  | _ => True

instance (m : Mac) (e : Event) : Decidable (Polite m e) := by
  cases e with
  | publish k d => exact inferInstanceAs (Decidable (_ ∧ (_ → _) ∧ _))
  | withdraw k => exact inferInstanceAs (Decidable (∀ c ∈ m.pending, _))
  | primary v6 d =>
      cases d with
      | none => exact inferInstanceAs (Decidable True)
      | some d => exact inferInstanceAs (Decidable (_ = _))
  | _ => exact inferInstanceAs (Decidable True)

/-- The tunnel neither starts anything nor crashes. -/
def Event.Passive : Event → Prop
  | .apply _ | .restore | .crash => False
  | _ => True

/-- The rest of the script is safe, and ends with `G`. -/
structure Underway (G : View → Owners → Prop) (m : Mac) : Prop where
  safe : Safe G m.published (view m.store) m.value m.pending
  ofService : ∀ c ∈ m.pending, c.OfService

/-- What an owner does to a key, or to the primary services, is nothing to `G`. -/
structure Steady (G : View → Owners → Prop) : Prop where
  owner : ∀ τ p k v, G τ p → G (Function.update τ (dnsOf k) v) (Function.update p k v)
  primary : ∀ τ p v6 v, G τ p → G (Function.update τ (globalKey v6) v) p

lemma steady_true : Steady fun _ _ => True := ⟨fun _ _ _ _ _ => trivial, fun _ _ _ _ _ => trivial⟩

lemma steady_back : Steady fun τ p => ∀ k, Back p k τ := by
  constructor
  · intro τ p k v h k'
    rw [Back, Function.update_of_ne backupOf_ne_dnsOf]
    by_cases hk : k' = k
    · subst hk
      rw [Function.update_self, Function.update_self]
      exact ⟨rfl, (h k').2⟩
    · rw [Function.update_of_ne fun heq => hk (dnsOf_inj.mp heq), Function.update_of_ne hk]
      exact h k'
  · intro τ p v6 v h k
    rw [Back, Function.update_of_ne (globalKey_ne_dnsOf v6).symm,
      Function.update_of_ne (globalKey_ne_backupOf v6).symm]
    exact h k

namespace Underway

lemma undoable (h : Underway G m) : Undoable (view m.store) m.published := h.safe.undoable

/-- One command. -/
lemma command (h : Underway G m) (hstep : step m .command = some m') : Underway G m' := by
  obtain ⟨store, published, value, pending⟩ := m
  cases pending with
  | nil => cases hstep
  | cons c rest =>
      cases hstep
      have hsafe := h.safe.2
      rw [act_view] at hsafe
      exact ⟨hsafe, (List.forall_mem_cons.mp h.ofService).2⟩

/-- The owners act. -/
lemma passive (hG : Steady G) (h : Underway G m) (hpassive : e.Passive) (hpolite : Polite m e)
    (hstep : step m e = some m') : Underway G m' := by
  cases e with
  | publish k d =>
      cases hstep
      obtain ⟨hplain, hbreak, hnames⟩ := hpolite
      refine ⟨?_, h.ofService⟩
      rw [view_insert]
      have howner : ∀ d', some d = some d' → Plain d' ∧
          (readPattern (dnsOf k) = true → noBreak (dnsOf k) = true) := by
        rintro _ ⟨⟩
        exact ⟨hplain, hbreak⟩
      exact h.safe.edit hnames (fun τ hτ => hτ.owner howner) fun τ => hG.owner τ _ k _
  | withdraw k =>
      cases hstep
      refine ⟨?_, h.ofService⟩
      rw [view_erase]
      exact h.safe.edit hpolite (fun τ hτ => hτ.owner nofun) fun τ => hG.owner τ _ k _
  | primary v6 d =>
      have hnames : ∀ c ∈ m.pending, c.names ≠ some (globalKey v6) := fun c hc =>
        (h.ofService c hc).not_global v6
      cases d with
      | none =>
          cases hstep
          refine ⟨?_, h.ofService⟩
          rw [view_erase]
          exact h.safe.edit hnames (fun τ hτ => hτ.primary v6 nofun) fun τ => hG.primary τ _ v6 _
      | some d =>
          cases hstep
          refine ⟨?_, h.ofService⟩
          rw [view_insert]
          exact h.safe.edit hnames
            (fun τ hτ => hτ.primary v6 fun _ hd => Option.some_inj.mp hd ▸ hpolite)
            fun τ => hG.primary τ _ v6 _
  | command => exact h.command hstep
  | _ => exact hpassive.elim

/-- The script runs out. -/
lemma runs_out (h : Underway G m) : ∃ n m', exec step m (List.replicate n .command) = some m' ∧
    m'.pending = [] := by
  obtain ⟨store, published, value, pending⟩ := m
  induction pending generalizing store value with
  | nil => exact ⟨0, _, rfl, rfl⟩
  | cons c rest ih =>
      obtain ⟨n, m', hrun, hdone⟩ := ih _ _ (h.command rfl)
      exact ⟨n + 1, m', hrun, hdone⟩

lemma commands {n : Nat} (h : Underway G m)
    (hrun : exec step m (List.replicate n .command) = some m') : Underway G m' := by
  induction n generalizing m with
  | zero =>
      obtain rfl : m = m' := Option.some_inj.mp hrun
      exact h
  | succ n ih =>
      rw [List.replicate_succ] at hrun
      obtain ⟨m₁, hm₁, hrest⟩ := exec_cons_eq_some.mp hrun
      exact ih (h.command hm₁) hrest

/-- At the end of the script. -/
lemma goal (h : Underway G m) (hdone : m.pending = []) : G (view m.store) m.published := by
  have hsafe := h.safe
  rw [hdone] at hsafe
  exact hsafe.2

/-- The tunnel restores. -/
lemma restore (h : Underway G m) (hstep : step m .restore = some m') :
    Underway (fun τ p => ∀ k, Back p k τ) m' := by
  rw [step] at hstep
  split at hstep
  · cases hstep
  · -- the commands are a variable, so that their safety is not unfolded over the plan
    generalize hcmds : planRestore (read m.store) = cmds at hstep
    obtain rfl := Option.some_inj.mp hstep
    have hofService : ∀ c ∈ cmds, c.OfService := hcmds ▸ ofService_planRestore (read m.store)
    exact ⟨safe_restore hcmds h.undoable ∅, hofService⟩

/-- The tunnel applies. -/
lemma apply (h : Underway G m) (hservers : servers ≠ [])
    (hstep : step m (.apply servers) = some m') :
    Underway (fun τ _ => Override servers τ) m' := by
  rw [step, if_neg hservers] at hstep
  split at hstep
  · cases hstep
  · generalize hcmds : planApply (read m.store) servers = cmds at hstep
    obtain rfl := Option.some_inj.mp hstep
    have hofService : ∀ c ∈ cmds, c.OfService := hcmds ▸ ofService_planApply (read m.store)
    exact ⟨safe_apply hcmds hservers h.undoable ∅, hofService⟩

lemma weaken (h : Underway G m) : Underway (fun _ _ => True) m :=
  ⟨h.safe.mono fun _ _ _ => trivial, h.ofService⟩

/-- **Every step keeps the store undoable.** -/
lemma step (h : Underway (fun _ _ => True) m) (hpolite : Polite m e)
    (hstep : Dns.step m e = some m') : Underway (fun _ _ => True) m' := by
  cases e with
  | apply servers =>
      by_cases hservers : servers = []
      · rw [Dns.step, if_pos hservers] at hstep
        split at hstep
        · cases hstep
        · cases hstep
          exact h
      · exact (h.apply hservers hstep).weaken
  | restore => exact (h.restore hstep).weaken
  | crash =>
      cases hstep
      exact ⟨⟨h.undoable, trivial⟩, nofun⟩
  | _ => exact h.passive steady_true (by trivial) hpolite hstep

end Underway

/-- Each key is as its owner published it, and nothing of ours is left. -/
def Restored (m : Mac) : Prop :=
  ∀ k, m.store.lookup (dnsOf k) = m.published k ∧ m.store.lookup (backupOf k) = none ∧
    ∀ d, m.store.lookup (dnsOf k) = some d → ¬ Marked d

/-- There is nothing to do, and the check passes. -/
def Applied (servers : List AddressText) (m : Mac) : Prop :=
  planApply (read m.store) servers = [] ∧ verify (read m.store) servers = .ok ()

lemma restored_of_back (h : Undoable (view m.store) m.published)
    (hback : ∀ k, Back m.published k (view m.store)) : Restored m := fun k =>
  ⟨(hback k).1, (hback k).2, fun d hd => (h.plain k d ((hback k).1.symm.trans hd)).unmarked⟩

/-- The owners go on acting while the tunnel restores. -/
lemma Underway.restored {calls : List Event} (h : Underway (fun τ p => ∀ k, Back p k τ) m)
    (hcalls : ∀ e ∈ calls, e.Passive) (halong : Along Dns.step Polite m calls)
    (hrun : exec Dns.step m calls = some m') (hdone : m'.pending = []) : Restored m' := by
  have hboth : Along Dns.step (fun m e => Polite m e ∧ e.Passive) m calls :=
    along_and halong (along_of_mem hcalls m)
  have hm' := exec_invariant (I := Underway fun τ p => ∀ k, Back p k τ)
    (fun s e s' hs hG => hs.passive steady_back hG.2 hG.1) h hboth hrun
  exact restored_of_back hm'.undoable (hm'.goal hdone)

lemma along_commands (n : Nat) (m : Mac) : Along step Polite m (List.replicate n .command) := by
  refine (along_of_mem (P := fun e => e = .command)
    (fun e he => List.eq_of_mem_replicate he) m).imp ?_
  rintro s e rfl
  trivial

/-- Nothing is planned over an override that is complete. -/
lemma applied_of_override {p : Owners} (h : Undoable (view m.store) p)
    (hover : Override servers (view m.store)) : Applied servers m := by
  have hmarked : ∀ k r, (seen m.store).dns.lookup k = some r →
      r.scalar marker = some (markerValue servers) := by
    intro k r hr
    obtain ⟨hsafe, d, hd, rfl⟩ := exists_of_dns_seen hr
    exact hover.taken k hsafe d hd
  have hhas : ∀ id ∈ (seen m.store).primaries, (seen m.store).hasDns id = true := by
    intro id hid
    obtain ⟨hsafe, v6, d, hd, hprimary⟩ := mem_primaries_seen.mp hid
    exact (hasDns_seen hsafe).mpr (hover.primaries id hsafe v6 d hd hprimary)
  rw [Applied, read_eq h.legible_store]
  constructor
  · have hentries : (inOrder (seen m.store).dns).flatMap (planEntry servers) = [] := by
      refine List.flatMap_eq_nil_iff.mpr fun e he => ?_
      rw [planEntry, hmarked e.1 e.2 (mem_inOrder.mp he)]
      exact if_pos rfl
    have hprimaries :
        ((seen m.store).primaries.filter fun id => !(seen m.store).hasDns id) = [] := by
      refine List.filter_eq_nil_iff.mpr fun id hid => ?_
      rw [hhas id hid]
      exact Bool.false_ne_true
    rw [planApply, hentries, hprimaries]
    rfl
  · have hnone : ((seen m.store).dns.entries.filter fun e =>
        e.2.scalar marker ≠ some (markerValue servers)) = [] := by
      refine List.filter_eq_nil_iff.mpr fun e he => ?_
      rw [hmarked e.1 e.2 (AList.mem_lookup_iff.mpr he)]
      simp
    have hall : ((seen m.store).primaries.any fun id => !(seen m.store).hasDns id) = false := by
      refine List.any_eq_false.mpr fun id hid => ?_
      rw [hhas id hid]
      exact Bool.false_ne_true
    rw [verify, hnone, hall]
    rfl

/-- **The override is undone, whatever came before.**  After any polite run from
a store that can be undone, a restore during which the owners may go on acting
leaves each key as its owner published it, and nothing of ours; an apply that
nobody interferes with leaves nothing to do.  Both end. -/
theorem dns_undone {start m : Mac} {es : List Event}
    (hstart : Undoable (view start.store) start.published) (hidle : start.pending = [])
    (hpolite : Along step Polite start es) (hrun : exec step start es = some m)
    (hdone : m.pending = []) :
    (∀ calls m', (∀ e ∈ calls, e.Passive) → Along step Polite m (.restore :: calls) →
      exec step m (.restore :: calls) = some m' → m'.pending = [] → Restored m') ∧
    (∃ n m', exec step m (.restore :: List.replicate n .command) = some m' ∧
      m'.pending = [] ∧ Restored m') ∧
    ∀ servers, servers ≠ [] →
      (∀ n m', exec step m (.apply servers :: List.replicate n .command) = some m' →
        m'.pending = [] → Applied servers m') ∧
      ∃ n m', exec step m (.apply servers :: List.replicate n .command) = some m' ∧
        m'.pending = [] ∧ Applied servers m' := by
  have hbegin : Underway (fun _ _ => True) start := by
    refine ⟨?_, hidle ▸ nofun⟩
    rw [hidle]
    exact ⟨hstart, trivial⟩
  have hm : Underway (fun _ _ => True) m :=
    exec_invariant (I := Underway fun _ _ => True)
      (fun s e s' hs hG => hs.step hG) hbegin hpolite hrun
  have hstarted : ∀ e m₁ cmds, step m e = some m₁ → exec step m (e :: cmds) = exec step m₁ cmds :=
    fun e m₁ cmds he => by rw [exec_cons, he, Option.bind_some]
  have hrestore : ∃ m₁, step m .restore = some m₁ := ⟨_, if_neg (not_not.mpr hdone)⟩
  obtain ⟨m₁, hm₁⟩ := hrestore
  have hback := hm.restore hm₁
  refine ⟨fun calls m' hcalls halong hcall hend => ?_, ?_, fun servers hservers => ?_⟩
  · have halong := halong.2
    rw [hm₁] at halong
    rw [hstarted _ _ _ hm₁] at hcall
    exact hback.restored hcalls halong hcall hend
  · obtain ⟨n, m', hcommands, hend⟩ := hback.runs_out
    exact ⟨n, m', (hstarted _ _ _ hm₁).trans hcommands, hend, hback.restored
      (fun e he => by rw [List.eq_of_mem_replicate he]; trivial)
      (along_commands n m₁) hcommands hend⟩
  · have happly : ∃ m₂, step m (.apply servers) = some m₂ := by
      rw [step, if_neg (not_not.mpr hdone), if_neg hservers]
      exact ⟨_, rfl⟩
    obtain ⟨m₂, hm₂⟩ := happly
    have hover := hm.apply hservers hm₂
    have happlied : ∀ n m', exec step m₂ (List.replicate n .command) = some m' → m'.pending = [] →
        Applied servers m' := by
      intro n m' hcommands hend
      have hm' := hover.commands hcommands
      have hgoal := hm'.goal hend
      exact applied_of_override hm'.undoable hgoal
    obtain ⟨n, m', hcommands, hend⟩ := hover.runs_out
    refine ⟨fun n m' hcommands => happlied n m' (hstarted _ _ _ hm₂ ▸ hcommands), n, m', ?_, hend,
      happlied n m' hcommands hend⟩
    rw [hstarted _ _ _ hm₂, hcommands]

end Runs

/-- A store with nothing in it. -/
def bare : Mac := ⟨∅, fun _ => none, ∅, []⟩

lemma undoable_bare : Undoable (view bare.store) bare.published :=
  ⟨fun _ => Or.inl ⟨rfl, nofun⟩, nofun, nofun, nofun⟩

/-- A service. -/
def wifi : Service := (.state, "A".toList)

/-- The resolver of the tunnel. -/
def resolver : AddressText := ⟨"10.64.0.1".toList, nofun, List.all_eq_true.mp (by decide +kernel)⟩

/-- The one of another tunnel. -/
def otherResolver : AddressText :=
  ⟨"10.64.0.2".toList, nofun, List.all_eq_true.mp (by decide +kernel)⟩

/-- What DHCP publishes. -/
def leased : Dictionary :=
  AList.insert "ServerAddresses".toList (.array [.text "192.168.0.1".toList]) ∅

/-- A crash in the middle of an apply, a renewed lease, and another gateway;
the primary service has no DNS key of its own. -/
def roaming : List Event :=
  [.publish wifi leased,
    .primary true (some (AList.insert "PrimaryService".toList (.text "B".toList) ∅)),
    .apply [resolver]] ++ List.replicate 9 .command ++
  [.crash, .publish wifi leased, .apply [otherResolver]] ++ List.replicate 16 .command

/-- The theorem at that run. -/
theorem roaming_undone : ∃ m, exec step bare roaming = some m ∧
    ∃ n m', exec step m (.restore :: List.replicate n .command) = some m' ∧
      m'.pending = [] ∧ Restored m' := by
  obtain ⟨m, hm⟩ := Option.isSome_iff_exists.mp
    (show (exec step bare roaming).isSome = true by decide +kernel)
  have hdone : (exec step bare roaming).map Mac.pending = some [] := by decide +kernel
  rw [hm] at hdone
  exact ⟨m, hm,
    (dns_undone undoable_bare rfl (by decide +kernel) hm (Option.some_inj.mp hdone)).2.1⟩

/-- A dictionary with nothing in it but another one, which a read skips. -/
def nested : Dictionary :=
  AList.insert "Options".toList (.dict [("Port".toList, .text "53".toList)]) ∅

/-- The service is published, and the tunnel takes it over. -/
def overridden : List Event :=
  [.publish wifi nested, .apply [resolver]] ++ List.replicate 8 .command

/-- **A dictionary that reads as empty is lost**: the restore takes its backup for
the mark of a key that did not exist. -/
theorem not_dns_undone : ¬ ∀ es m n m', exec step bare es = some m → m.pending = [] →
    exec step m (.restore :: List.replicate n .command) = some m' → m'.pending = [] →
      Restored m' := by
  intro h
  have hdone : (exec step bare overridden).map Mac.pending = some [] := by decide +kernel
  have hlost : (exec step bare (overridden ++ .restore :: List.replicate 3 .command)).map (fun m =>
      (m.pending, (m.store.lookup (dnsOf wifi)).isSome, (m.published wifi).isSome)) =
        some ([], false, true) := by
    decide +kernel
  obtain ⟨m, hm, hpending⟩ := Option.map_eq_some_iff.mp hdone
  obtain ⟨m', hm', heq⟩ := Option.map_eq_some_iff.mp hlost
  rw [exec_append, hm, Option.bind_some] at hm'
  obtain ⟨hpending', hnone, hsome⟩ : m'.pending = [] ∧
      (m'.store.lookup (dnsOf wifi)).isSome = false ∧ (m'.published wifi).isSome = true := by
    simpa using heq
  have hback := (h overridden m 3 m' hm hpending hm' hpending' wifi).1
  rw [hback, hsome] at hnone
  cases hnone

end CumulusVpn.Desktop.Dns
