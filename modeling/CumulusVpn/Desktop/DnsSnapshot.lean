/-
What a read of the dynamic store sees (`parse_snapshot` of
`clients/desktop/src-tauri/tunnel/src/dns.rs`).

* `readDict`: the scalars and arrays of a dictionary;
* `Legible`: the outline of the store can be told apart again;
* `read_eq`: **the outline of a legible store reads back**, key by key;
* `dns_seen`, `backups_seen`, `mem_primaries_seen`: what is under each service.
-/
import CumulusVpn.Desktop.Dns

namespace CumulusVpn.Desktop.Dns

open Outline Trim

/-! ### One dictionary -/

/-- What is read of an item of a list. -/
def itemText : Value → Option Text
  | .text s => if trimEnd s = [] then none else some (trimEnd s)
  | _ => none

/-- A dictionary after an entry is read. -/
def readEntry (d : Dict) (name : Text) : Value → Dict
  | .text s => if trimEnd s = [] then d else { d with scalars := d.scalars.insert name (trimEnd s) }
  | .array items => { d with arrays := d.arrays.insert name (items.filterMap itemText) }
  | .dict _ => d

/-- The scalars and arrays of a dictionary. -/
def readDict (d : Dictionary) : Dict := d.entries.foldl (fun r e => readEntry r e.1 e.2) .empty

namespace Parser

variable {s : Parser} {indent name : Text} {v : Value}

/-- A block is skipped. -/
lemma skipped {ls : List Text} (h : Nested ls) :
    ∀ {s : Parser}, 0 < s.skip → ls.foldl line s = s := by
  induction h with
  | nil => exact fun _ => rfl
  | plain hopens hcloses _ ih =>
      intro s hs
      rw [List.foldl_cons, line, if_pos hs, hopens, hcloses]
      exact ih hs
  | @block l r inner ls hopens _ hnot hcloses _ ihinner ih =>
      intro s hs
      have hopen : line s l = { s with skip := s.skip + 1 } := by
        rw [line, if_pos hs, if_pos hopens]
      have hclose : line { s with skip := s.skip + 1 } r = s := by
        rw [line, if_pos (Nat.succ_pos _), hnot, hcloses]
        rfl
      rw [List.foldl_cons, List.foldl_append, hopen, ihinner (Nat.succ_pos _), List.foldl_cons,
        hclose]
      exact ih hs

lemma indent_entry (hindent : ∀ c ∈ indent, c = ' ') {c : Char} (hc : c ≠ ' ') (t : Text) :
    ((indent ++ c :: t).takeWhile (· = ' ')).length = indent.length := by
  rw [List.takeWhile_append_of_pos fun d hd => decide_eq_true (hindent d hd),
    List.takeWhile_cons_of_neg (by simpa using hc), List.append_nil]

lemma indent_word (hindent : ∀ c ∈ indent, c = ' ') (hname : isWord name = true) (t : Text) :
    ((entry indent name t).takeWhile (· = ' ')).length = indent.length := by
  obtain ⟨hne, hchars⟩ := isWord_iff.mp hname
  obtain ⟨c, cs, rfl⟩ := List.exists_cons_of_ne_nil hne
  refine indent_entry hindent (fun hc => ?_) _
  have hspace := (hchars c List.mem_cons_self).1
  rw [hc] at hspace
  cases hspace

/-- What a line of four or six spaces and a name splits into. -/
lemma splitOnce_trimmed (hindent : ∀ c ∈ indent, c = ' ') (hname : isWord name = true) (t : Text) :
    splitOnce colon (trimmed (entry indent name t)) =
      if trimEnd t = [] then none else some (name, trimEnd t) := by
  have hspace : ' ' ∉ name := fun hmem => by
    cases ((isWord_iff.mp hname).2 ' ' hmem).1
  rw [entry, trimmed_entry hindent hname]
  split
  · have hbare : splitOnce colon [' ', ':'] = none := rfl
    rw [colon, splitOnce_append hspace, ← colon, hbare, Option.map_none]
  · exact splitOnce_of_notMem hspace _

lemma trimmed_ne_closer (hindent : ∀ c ∈ indent, c = ' ') (hname : isWord name = true) (t : Text) :
    trimmed (entry indent name t) ≠ ['}'] := by
  intro heq
  have hmem : ':' ∈ trimmed (entry indent name t) := by
    rw [entry, trimmed_entry hindent hname]
    split <;> simp [colon]
  rw [heq] at hmem
  simp at hmem

lemma spaces (n : Nat) : ∀ c ∈ List.replicate n ' ', c = ' ' := fun _ => List.eq_of_mem_replicate

lemma line_property (hskip : s.skip = 0) (hkey : s.key.isSome) {t : Text}
    (hname : isWord name = true) :
    s.line (entry (List.replicate 4 ' ') name t) =
      s.property (trimmed (entry (List.replicate 4 ' ') name t)) := by
  rw [line, hskip, if_neg (lt_irrefl 0), indent_word (spaces 4) hname]
  simp [hkey]

lemma line_item (hskip : s.skip = 0) (harray : s.array.isSome) {t : Text}
    (hname : isWord name = true) :
    s.line (entry (List.replicate 6 ' ') name t) =
      s.item (trimmed (entry (List.replicate 6 ' ') name t)) := by
  rw [line, hskip, if_neg (lt_irrefl 0), indent_word (spaces 6) hname]
  simp [harray]

lemma closed {n : Nat} (hskip : s.skip = 0) :
    line { s with skip := 1 } (List.replicate n ' ' ++ ['}']) = s := by
  rw [line, if_pos Nat.one_pos, opens_closer (spaces n), closes_closer (spaces n)]
  cases s
  cases hskip
  rfl

/-- A line of an array's text. -/
lemma line_itemText (hskip : s.skip = 0) {items : List Text} {key : Text}
    (harray : s.array = some (key, items)) (hname : isWord name = true) {t : Text}
    (ht : plainText t = true) :
    s.line (entry (List.replicate 6 ' ') name t) =
      { s with array := some (key, items ++ (itemText (.text t)).toList) } := by
  have hlast : (trimEnd t).getLast? ≠ some '{' := by simpa using (Bool.and_eq_true_iff.mp ht).2
  rw [line_item hskip (by rw [harray]; rfl) hname, item,
    splitOnce_trimmed (spaces 6) hname, itemText]
  by_cases hblank : trimEnd t = []
  · rw [if_pos hblank, if_pos hblank]
    dsimp only
    rw [Option.toList_none, List.append_nil, ← harray]
  · rw [if_neg hblank, if_neg hblank]
    dsimp only
    rw [if_neg hlast, harray]
    rfl

/-- The lines of an item. -/
lemma foldl_item (hskip : s.skip = 0) {items : List Text} {key : Text}
    (harray : s.array = some (key, items)) (hname : isWord name = true) (hv : v.legible = true) :
    (v.outline (List.replicate 6 ' ') name).foldl line s =
      { s with array := some (key, items ++ (itemText v).toList) } := by
  by_cases htext : ∃ t, v = .text t
  · obtain ⟨t, rfl⟩ := htext
    exact line_itemText hskip harray hname hv
  · have hnone : itemText v = none := by
      cases v with
      | text t => exact absurd ⟨t, rfl⟩ htext
      | _ => rfl
    obtain ⟨o, inner, houtline, hnested, ho⟩ :=
      outline_block name (spaces 6) hv fun t ht => htext ⟨t, ht⟩
    have hopen : s.line (entry (List.replicate 6 ' ') name o) = { s with skip := 1 } := by
      rw [line_item hskip (by rw [harray]; rfl) hname, item, splitOnce_trimmed (spaces 6) hname]
      rcases ho with rfl | rfl <;> rfl
    rw [houtline, List.foldl_cons, hopen, List.foldl_append, skipped hnested Nat.one_pos,
      List.foldl_cons, closed hskip, hnone, Option.toList_none, List.append_nil, ← harray]
    rfl

lemma foldl_items (hskip : s.skip = 0) {items : List Text} {key : Text}
    (harray : s.array = some (key, items)) {vs : List Value} (hvs : ∀ v ∈ vs, v.legible = true)
    (n : Nat) :
    (outlineItems (List.replicate 6 ' ') n vs).foldl line s =
      { s with array := some (key, items ++ vs.filterMap itemText) } := by
  induction vs generalizing s items n with
  | nil =>
      rw [List.filterMap_nil, List.append_nil, ← harray]
      rfl
  | cons v vs ih =>
      obtain ⟨hhere, hrest⟩ := List.forall_mem_cons.mp hvs
      rw [outlineItems, List.foldl_append, foldl_item hskip harray (isWord_toDigits n) hhere,
        ih (s := { s with array := some (key, items ++ (itemText v).toList) }) hskip rfl hrest]
      have hcons : (v :: vs).filterMap itemText = (itemText v).toList ++ vs.filterMap itemText := by
        cases h : itemText v <;> simp [h]
      rw [hcons, List.append_assoc]

/-- The lines of an entry. -/
lemma foldl_entry (hskip : s.skip = 0) (hkey : s.key.isSome) (harray : s.array = none)
    (hname : isWord name = true) (hv : v.legible = true) :
    (v.outline (List.replicate 4 ' ') name).foldl line s =
      { s with dict := readEntry s.dict name v } := by
  have hclosed : s.line (List.replicate 4 ' ' ++ ['}']) = s.property ['}'] := by
    rw [line, hskip, if_neg (lt_irrefl 0), indent_entry (spaces 4) (by decide),
      trimmed_closer (spaces 4)]
    simp [hkey]
  cases v with
  | text t =>
      have hlast : (trimEnd t).getLast? ≠ some '{' := by simpa using (Bool.and_eq_true_iff.mp hv).2
      have harrow : trimEnd t ≠ arrayOpens := fun heq => hlast (heq ▸ rfl)
      have hline : ([entry (List.replicate 4 ' ') name t]).foldl line s =
          s.property (trimmed (entry (List.replicate 4 ' ') name t)) :=
        line_property hskip hkey hname
      rw [Value.outline, hline, property, if_neg (trimmed_ne_closer (spaces 4) hname t),
        splitOnce_trimmed (spaces 4) hname, readEntry]
      by_cases hblank : trimEnd t = []
      · rw [if_pos hblank, if_pos hblank]
      · rw [if_neg hblank, if_neg hblank]
        dsimp only
        rw [if_neg harrow, if_neg hlast]
  | array items =>
      have hopen : s.line (entry (List.replicate 4 ' ') name arrayOpens) =
          { s with array := some (name, []) } := by
        rw [line_property hskip hkey hname, property, if_neg (trimmed_ne_closer (spaces 4) hname _),
          splitOnce_trimmed (spaces 4) hname]
        rfl
      have hclose : line { s with array := some (name, items.filterMap itemText) }
          (List.replicate 4 ' ' ++ ['}']) =
            { s with dict := readEntry s.dict name (.array items) } := by
        rw [line, hskip, if_neg (lt_irrefl 0), indent_entry (spaces 4) (by decide),
          trimmed_closer (spaces 4)]
        simp only [hkey, property, readEntry, harray]
        cases s
        cases harray
        rfl
      have hitems := foldl_items (s := { s with array := some (name, []) }) hskip rfl
        (legibleItems_iff.mp hv) 0
      rw [Value.outline, List.foldl_cons, hopen, List.foldl_append]
      exact (congrArg (fun q => line q _) hitems).trans hclose
  | dict entries =>
      obtain ⟨o, inner, houtline, hnested, ho⟩ :=
        outline_block name (spaces 4) hv fun t ht => by cases ht
      have ho : o = dictOpens := by
        have hfirst := (List.cons.inj houtline).1
        exact (List.append_cancel_left (List.append_cancel_left
          (List.append_cancel_left hfirst))).symm
      have hopen : s.line (entry (List.replicate 4 ' ') name dictOpens) = { s with skip := 1 } := by
        rw [line_property hskip hkey hname, property, if_neg (trimmed_ne_closer (spaces 4) hname _),
          splitOnce_trimmed (spaces 4) hname]
        rfl
      rw [houtline, ho, List.foldl_cons, hopen, List.foldl_append, skipped hnested Nat.one_pos,
        List.foldl_cons, closed hskip]
      rfl

lemma foldl_entries (hskip : s.skip = 0) (hkey : s.key.isSome) (harray : s.array = none)
    {es : List (Text × Value)} (hes : legibleEntries es = true) :
    (outlineEntries (List.replicate 4 ' ') es).foldl line s =
      { s with dict := es.foldl (fun r e => readEntry r e.1 e.2) s.dict } := by
  induction es generalizing s with
  | nil => rfl
  | cons e es ih =>
      obtain ⟨hhere, hrest⟩ := List.forall_mem_cons.mp (legibleEntries_iff.mp hes)
      rw [outlineEntries, List.foldl_append, foldl_entry hskip hkey harray hhere.1 hhere.2,
        ih (s := { s with dict := readEntry s.dict e.1 e.2 }) hskip hkey harray
          (legibleEntries_iff.mpr hrest)]
      rfl

end Parser

/-- The entries of a dictionary, as a list. -/
def pairs (d : Dictionary) : List (Text × Value) := d.entries.map fun e => (e.1, e.2)

lemma readDict_eq (d : Dictionary) :
    readDict d = (pairs d).foldl (fun r e => readEntry r e.1 e.2) .empty := by
  rw [readDict, pairs, List.foldl_map]

/-- The lines of a key. -/
lemma Parser.foldl_key {c : Char} {t : Text} (hc : isWhitespace c = false) {d : Dictionary}
    (hd : legibleEntries (pairs d) = true) (snap : Snapshot) :
    (outlineKey (c :: t) d).foldl Parser.line ⟨snap, none, .empty, none, 0⟩ =
      ⟨snap.insert (c :: t) (readDict d), none, .empty, none, 0⟩ := by
  have hspace : c ≠ ' ' := by
    rintro rfl
    cases hc
  have hopen :
      Parser.line ⟨snap, none, .empty, none, 0⟩ (entry (List.replicate 2 ' ') (c :: t) dictOpens) =
      ⟨snap, some (c :: t), .empty, none, 0⟩ := by
    have htrim : trimmed (entry (List.replicate 2 ' ') (c :: t) dictOpens) =
        (c :: t) ++ (colon ++ dictOpens) := by
      rw [entry, List.cons_append, trimmed_indent (spaces 2) hc, ← List.cons_append]
      refine trimEnd_eq_self (c := '{') rfl ?_
      rw [List.getLast?_append, List.getLast?_append]
      rfl
    have hne : (c :: t) ++ (colon ++ dictOpens) ≠ ['}'] := fun heq => by
      have hlen := congrArg List.length heq
      simp [colon] at hlen
    rw [Parser.line, if_neg (lt_irrefl 0), entry, List.cons_append, indent_entry (spaces 2) hspace,
      ← List.cons_append, ← entry, htrim, storeKey, if_neg hne, stripSuffix_eq_some.mpr rfl]
    rfl
  have hentries := foldl_entries (s := ⟨snap, some (c :: t), .empty, none, 0⟩) rfl rfl rfl hd
  rw [outlineKey, Value.outline, List.foldl_cons, hopen, List.foldl_append]
  refine (congrArg (fun q => [_].foldl Parser.line q) hentries).trans ?_
  rw [readDict_eq]
  rfl


/-! ### The whole store -/

/-- A key that is read is on one line, and its outline can be told apart. -/
def Legible (store : Store) : Prop :=
  ∀ key d, store.lookup key = some d → readPattern key = true →
    noBreak key = true ∧ legibleEntries (pairs d) = true

/-- What a read is going to see. -/
def seen (store : Store) : Snapshot :=
  (store.entries.filter fun e => readPattern e.1).foldl (fun s e => s.insert e.1 (readDict e.2))
    .empty

section Keys

variable {layer layer' : Layer} {id id' key : Text}

lemma serviceOf_eq_some : Snapshot.serviceOf layer key = some id ↔ key = dnsKey layer id := by
  rw [Snapshot.serviceOf, Option.bind_eq_some_iff]
  constructor
  · rintro ⟨rest, hrest, hid⟩
    rw [stripPrefix_eq_some.mp hrest, stripSuffix_eq_some.mp hid]
    rfl
  · rintro rfl
    exact ⟨id ++ dnsSuffix, stripPrefix_eq_some.mpr rfl, stripSuffix_eq_some.mpr rfl⟩

/-- All keys that are read begin with an `S`. -/
lemma exists_of_readPattern (h : readPattern key = true) : ∃ t, key = 'S' :: t := by
  have hlayer : ∀ layer : Layer, ∃ t, layer.name = 'S' :: t := fun layer => by
    cases layer <;> exact ⟨_, rfl⟩
  rw [readPattern, Bool.or_eq_true, Bool.or_eq_true, decide_eq_true_eq, decide_eq_true_eq] at h
  rcases h with (rfl | rfl) | h
  · exact ⟨_, rfl⟩
  · exact ⟨_, rfl⟩
  · obtain ⟨layer, -, h⟩ := List.any_eq_true.mp h
    rcases Bool.or_eq_true_iff.mp h with h | h
    · obtain ⟨id, hid, -⟩ := (Option.any_eq_true _ _).mp h
      obtain ⟨t, ht⟩ := hlayer layer
      exact ⟨_, (serviceOf_eq_some.mp hid).trans (by rw [dnsKey, servicePrefix, ht]; rfl)⟩
    · obtain ⟨id, hid, -⟩ := (Option.any_eq_true _ _).mp h
      exact ⟨_, (stripPrefix_eq_some.mp hid).trans rfl⟩

end Keys

/-- **The outline of a legible store reads back.** -/
theorem read_eq {store : Store} (h : Legible store) : read store = seen store := by
  have hkeys : ∀ e ∈ store.entries.filter fun e => readPattern e.1,
      readPattern e.1 = true ∧ noBreak e.1 = true ∧ legibleEntries (pairs e.2) = true := by
    intro e he
    obtain ⟨hmem, hread⟩ := List.mem_filter.mp he
    exact ⟨hread, h e.1 e.2 (AList.mem_lookup_iff.mpr hmem) hread⟩
  have hbreaks : ∀ l ∈ dictOpens :: ((store.entries.filter fun e => readPattern e.1).flatMap
      fun e => outlineKey e.1 e.2) ++ [['}']], noBreak l = true := by
    intro l hl
    rcases List.mem_append.mp hl with hl | hl
    · rcases List.mem_cons.mp hl with rfl | hl
      · rfl
      · obtain ⟨e, he, hline⟩ := List.mem_flatMap.mp hl
        obtain ⟨-, hkey, hentries⟩ := hkeys e he
        exact noBreak_outline (.dict (pairs e.2)) (Parser.spaces 2) hkey hentries hline
    · rw [List.mem_singleton.mp hl]
      rfl
  rw [read, scutilShow, parseSnapshot, lines_unlines hbreaks, seen]
  have hfold : ∀ es : List (Sigma fun _ : Text => Dictionary),
      (∀ e ∈ es, readPattern e.1 = true ∧ noBreak e.1 = true ∧ legibleEntries (pairs e.2) = true) →
      ∀ snap,
        (es.flatMap fun e => outlineKey e.1 e.2).foldl Parser.line ⟨snap, none, .empty, none, 0⟩ =
        ⟨es.foldl (fun s e => s.insert e.1 (readDict e.2)) snap, none, .empty, none, 0⟩ := by
    intro es
    induction es with
    | nil => exact fun _ _ => rfl
    | cons e es ih =>
        intro hes snap
        obtain ⟨⟨hread, -, hentries⟩, hrest⟩ := List.forall_mem_cons.mp hes
        obtain ⟨t, ht⟩ := exists_of_readPattern hread
        have hkey := Parser.foldl_key (c := 'S') (t := t) rfl hentries snap
        rw [← ht] at hkey
        rw [List.flatMap_cons, List.foldl_append, hkey, ih hrest]
        rfl
  have hopen : Parser.line .start dictOpens = ⟨.empty, none, .empty, none, 0⟩ := rfl
  have hclose : ∀ snap, Parser.line ⟨snap, none, .empty, none, 0⟩ ['}'] =
      ⟨snap, none, .empty, none, 0⟩ :=
    fun _ => rfl
  rw [List.cons_append, List.foldl_cons, hopen, List.foldl_append, hfold _ hkeys, List.foldl_cons,
    hclose]
  rfl

/-! ### What is under each service -/

section Keys

variable {layer layer' : Layer} {id id' key rest : Text} {k k' : Service}

lemma dnsKey_injective : dnsKey k.1 k.2 = dnsKey k'.1 k'.2 ↔ k = k' := by
  constructor
  · intro h
    have hlayer : k.1 = k'.1 := by
      cases hk : k.1 <;> cases hk' : k'.1 <;> rw [hk, hk'] at h
      · cases h
      · cases h
    rw [hlayer] at h
    exact Prod.ext hlayer (List.append_cancel_right (List.append_cancel_left h))
  · rintro rfl
    rfl

lemma backupKey_injective : backupKey k.1 k.2 = backupKey k'.1 k'.2 ↔ k = k' := by
  constructor
  · intro h
    have h := List.append_cancel_left h
    have hlayer : k.1 = k'.1 := by
      cases hk : k.1 <;> cases hk' : k'.1 <;> rw [hk, hk'] at h
      · cases h
      · cases h
    rw [hlayer] at h
    exact Prod.ext hlayer (List.cons.inj (List.append_cancel_left h)).2
  · rintro rfl
    rfl

/-- The first sixteen characters tell the kinds of keys apart. -/
lemma take_backupPrefix : (backupPrefix ++ rest).take 16 = "State:/Network/C".toList := by
  rw [List.take_append_of_le_length (by decide)]
  decide

lemma take_globalKey (v6 : Bool) : (globalKey v6).take 16 = "State:/Network/G".toList := by
  cases v6 <;> decide

lemma take_dnsKey : (dnsKey layer id).take 16 = (servicePrefix layer).take 16 := by
  rw [dnsKey, List.take_append_of_le_length]
  cases layer <;> decide

lemma backup_ne_dnsKey : backupPrefix ++ rest ≠ dnsKey layer id := by
  intro h
  have htake := congrArg (List.take 16) h
  rw [take_backupPrefix, take_dnsKey] at htake
  revert htake
  cases layer <;> decide

lemma backup_ne_globalKey (v6 : Bool) : backupPrefix ++ rest ≠ globalKey v6 := by
  intro h
  have htake := congrArg (List.take 16) h
  rw [take_backupPrefix, take_globalKey] at htake
  exact absurd htake (by decide)

lemma globalKey_ne_dnsKey (v6 : Bool) : globalKey v6 ≠ dnsKey layer id := by
  intro h
  have htake := congrArg (List.take 16) h
  rw [take_globalKey, take_dnsKey] at htake
  revert htake
  cases layer <;> decide

/-- The layer and the service of a backup. -/
lemma split_backup :
    (Layer.parse (rest.takeWhile (· ≠ '/')) = some layer ∧
      ∃ c, rest.dropWhile (· ≠ '/') = c :: id) ↔
      rest = layer.name ++ '/' :: id := by
  constructor
  · rintro ⟨hlayer, c, hid⟩
    have hname : rest.takeWhile (· ≠ '/') = layer.name := by
      rw [Layer.parse] at hlayer
      split at hlayer
      · rename_i heq
        cases hlayer
        exact heq
      · split at hlayer
        · rename_i heq
          cases hlayer
          exact heq
        · cases hlayer
    have hslash : c = '/' := by
      have hhead := List.head?_dropWhile_not (· ≠ '/') rest
      rw [hid] at hhead
      simpa using hhead
    rw [← List.takeWhile_append_dropWhile (p := (· ≠ '/')) (l := rest), hid, hname, hslash]
  · rintro rfl
    cases layer <;> exact ⟨rfl, '/', rfl⟩

end Keys

namespace Snapshot

variable {s : Snapshot} {key id : Text} {d : Dict} {k : Service}

lemma lookup_insert {m : BTreeMap Service Dict} {k' : Service} :
    AList.lookup k (m.insert k' d) = if k = k' then some d else m.lookup k := by
  split
  · rename_i heq
    rw [heq, AList.lookup_insert]
  · rename_i hne
    exact AList.lookup_insert_ne hne

/-- A service is looked up after another has been inserted, if it is safe; `same`
says of the keys that the services are one. -/
lemma lookup_insertSafe {m m' : BTreeMap Service Dict} {k' : Service} {same : Prop}
    [Decidable same] (hsame : same ↔ k = k')
    (hm : m' = if isSafeServiceId k'.2 = true then m.insert k' d else m) :
    m'.lookup k = if isSafeServiceId k.2 = true ∧ same then some d else m.lookup k := by
  rw [hm]
  by_cases hk : k = k'
  · subst hk
    by_cases hsafe : isSafeServiceId k.2 = true
    · rw [if_pos hsafe, if_pos ⟨hsafe, hsame.mpr rfl⟩]
      exact AList.lookup_insert _
    · rw [if_neg hsafe, if_neg fun hboth => hsafe hboth.1]
  · have hne : ¬ (isSafeServiceId k.2 = true ∧ same) := fun hboth => hk (hsame.mp hboth.2)
    rw [if_neg hne]
    split
    · exact AList.lookup_insert_ne hk
    · rfl

lemma dns_insert : (s.insert key d).dns.lookup k =
    if isSafeServiceId k.2 = true ∧ key = dnsKey k.1 k.2 then some d else s.dns.lookup k := by
  have hservice : ∀ {layer id'}, key = dnsKey layer id' →
      (if isSafeServiceId id' = true then { s with dns := s.dns.insert (layer, id') d }
        else s).dns.lookup k =
        if isSafeServiceId k.2 = true ∧ key = dnsKey k.1 k.2 then some d else s.dns.lookup k := by
    rintro layer id' rfl
    have hiff : dnsKey layer id' = dnsKey k.1 k.2 ↔ k = (layer, id') := by
      rw [eq_comm (a := k)]
      exact dnsKey_injective (k := (layer, id'))
    exact lookup_insertSafe hiff (by split <;> rfl)
  rw [insert]
  split
  · rename_i rest hrest
    have hne : ¬ (isSafeServiceId k.2 = true ∧ key = dnsKey k.1 k.2) := fun hboth =>
      backup_ne_dnsKey ((stripPrefix_eq_some.mp hrest).symm.trans hboth.2)
    rw [if_neg hne]
    split
    · split <;> rfl
    · rfl
  · split
    · rename_i hglobal
      have hne : ¬ (isSafeServiceId k.2 = true ∧ key = dnsKey k.1 k.2) := by
        rintro ⟨-, rfl⟩
        rcases hglobal with h | h
        · exact globalKey_ne_dnsKey false h.symm
        · exact globalKey_ne_dnsKey true h.symm
      rw [if_neg hne]
      split
      · split <;> rfl
      · rfl
    · split
      · rename_i hid
        exact hservice (serviceOf_eq_some.mp hid)
      · rename_i hstate
        split
        · rename_i hid
          exact hservice (serviceOf_eq_some.mp hid)
        · rename_i hsetup
          have hne : ¬ (isSafeServiceId k.2 = true ∧ key = dnsKey k.1 k.2) := by
            rintro ⟨-, hkey⟩
            obtain ⟨layer, id'⟩ := k
            cases layer with
            | state => rw [serviceOf_eq_some.mpr hkey] at hstate; cases hstate
            | setup => rw [serviceOf_eq_some.mpr hkey] at hsetup; cases hsetup
          rw [if_neg hne]

lemma backups_insert : (s.insert key d).backups.lookup k =
    if isSafeServiceId k.2 = true ∧ key = backupKey k.1 k.2 then some d
    else s.backups.lookup k := by
  have hother : stripPrefix backupPrefix key = none →
      ¬ (isSafeServiceId k.2 = true ∧ key = backupKey k.1 k.2) := by
    rintro hnone ⟨-, rfl⟩
    rw [backupKey, stripPrefix_eq_some.mpr rfl] at hnone
    cases hnone
  rw [insert]
  split
  · rename_i rest hrest
    obtain rfl := stripPrefix_eq_some.mp hrest
    split
    · rename_i layer c id' hlayer hid
      have hsplit : rest = layer.name ++ '/' :: id' := split_backup.mp ⟨hlayer, c, hid⟩
      subst hsplit
      have hiff : backupPrefix ++ (layer.name ++ '/' :: id') = backupKey k.1 k.2 ↔
          k = (layer, id') := by
        rw [eq_comm (a := k)]
        exact backupKey_injective (k := (layer, id'))
      exact lookup_insertSafe hiff (by split <;> rfl)
    · rename_i hnone
      have hne : ¬ (isSafeServiceId k.2 = true ∧ backupPrefix ++ rest = backupKey k.1 k.2) := by
        rintro ⟨-, hkey⟩
        obtain ⟨hlayer, c, hid⟩ := split_backup.mpr (List.append_cancel_left hkey)
        exact hnone _ _ _ hlayer hid
      rw [if_neg hne]
  · rename_i hnone
    rw [if_neg (hother hnone)]
    split
    · split
      · split <;> rfl
      · rfl
    · split
      · split <;> rfl
      · split
        · split <;> rfl
        · rfl

/-- The primary services that a key names. -/
lemma primaries_insert : (s.insert key d).primaries =
    if (key = globalKey false ∨ key = globalKey true) then
      match d.scalar "PrimaryService".toList with
      | some primary =>
          if isSafeServiceId primary = true ∧ primary ∉ s.primaries then s.primaries ++ [primary]
          else s.primaries
      | none => s.primaries
    else s.primaries := by
  rw [insert]
  split
  · rename_i rest hrest
    have hne : ¬ (key = globalKey false ∨ key = globalKey true) := by
      rw [stripPrefix_eq_some.mp hrest]
      rintro (h | h)
      · exact backup_ne_globalKey false h
      · exact backup_ne_globalKey true h
    rw [if_neg hne]
    split
    · split <;> rfl
    · rfl
  · split
    · cases d.scalar "PrimaryService".toList with
      | none => rfl
      | some primary =>
          have hany : s.primaries.any (· = primary) = true ↔ primary ∈ s.primaries := by simp
          simp only [hany]
          split <;> rfl
    · split
      · split <;> rfl
      · split
        · split <;> rfl
        · rfl

end Snapshot

section Seen

variable {layer : Layer} {id : Text} {k : Service} {store : Store}

lemma isServiceName_of_safe (h : isSafeServiceId id = true) : isServiceName id = true := by
  simp only [isSafeServiceId, Bool.and_eq_true] at h
  have hslash : '/' ∉ id := fun hmem => by
    have hchar := List.all_eq_true.mp h.2 _ hmem
    cases hchar
  rw [isServiceName, h.1.1, decide_eq_true hslash]
  rfl

lemma readPattern_dnsKey (h : isSafeServiceId id = true) :
    readPattern (dnsKey layer id) = true := by
  rw [readPattern, Bool.or_eq_true]
  refine Or.inr (List.any_eq_true.mpr ⟨layer, by cases layer <;> simp, ?_⟩)
  rw [serviceOf_eq_some.mpr rfl, Option.any_some, isServiceName_of_safe h, Bool.true_or]

lemma readPattern_backupKey (h : isSafeServiceId id = true) :
    readPattern (backupKey layer id) = true := by
  have hkey : backupKey layer id = backupPrefix ++ (layer.name ++ ['/']) ++ id := by
    rw [backupKey, List.append_assoc, List.append_assoc]
    rfl
  rw [readPattern, Bool.or_eq_true]
  refine Or.inr (List.any_eq_true.mpr ⟨layer, by cases layer <;> simp, ?_⟩)
  rw [stripPrefix_eq_some.mpr hkey, Option.any_some, isServiceName_of_safe h, Bool.or_true]

lemma readPattern_globalKey (v6 : Bool) : readPattern (globalKey v6) = true := by
  cases v6 <;> simp [readPattern]

/-- What is kept under one key is what the store has there. -/
lemma look_seen (look : Snapshot → Option Dict) {key : Text} (hkey : readPattern key = true)
    (hempty : look .empty = none)
    (hinsert : ∀ s key' d, look (s.insert key' d) = if key' = key then some d else look s) :
    look (seen store) = (store.lookup key).map readDict := by
  have hfold : ∀ es : List (Sigma fun _ : Text => Dictionary), es.NodupKeys → ∀ s,
      look ((es.filter fun e => readPattern e.1).foldl (fun s e => s.insert e.1 (readDict e.2)) s) =
        ((es.dlookup key).map readDict).or (look s) := by
    intro es
    induction es with
    | nil => exact fun _ _ => rfl
    | cons e es ih =>
        intro hnodup s
        obtain ⟨hnew, hrest⟩ := List.nodupKeys_cons.mp hnodup
        rw [List.filter_cons]
        by_cases heq : e.1 = key
        · rw [if_pos (heq ▸ hkey), List.foldl_cons, ih hrest, hinsert, if_pos heq]
          have hnone : es.dlookup key = none := List.dlookup_eq_none.mpr (heq ▸ hnew)
          obtain ⟨key', d⟩ := e
          obtain rfl : key' = key := heq
          rw [hnone, List.dlookup_cons_eq]
          rfl
        · obtain ⟨key', d⟩ := e
          have hnext : List.dlookup key (⟨key', d⟩ :: es) = es.dlookup key :=
            List.dlookup_cons_ne es _ fun h => heq h.symm
          rw [hnext]
          split
          · rw [List.foldl_cons, ih hrest, hinsert, if_neg heq]
          · exact ih hrest s
  have hseen := hfold store.entries store.nodupKeys .empty
  rw [hempty, Option.or_none] at hseen
  exact hseen

/-- What every key keeps holds of the whole. -/
lemma seen_induction {P : Snapshot → Prop} (hempty : P .empty)
    (hinsert : ∀ s key d, P s → P (s.insert key d)) : P (seen store) := by
  rw [seen]
  have hfold : ∀ (es : List (Sigma fun _ : Text => Dictionary)) (s : Snapshot), P s →
      P (es.foldl (fun s e => s.insert e.1 (readDict e.2)) s) := by
    intro es
    induction es with
    | nil => exact fun _ => id
    | cons e es ih => exact fun s hs => ih _ (hinsert s e.1 _ hs)
  exact hfold _ _ hempty

lemma dns_seen : (seen store).dns.lookup k =
    if isSafeServiceId k.2 = true then (store.lookup (dnsKey k.1 k.2)).map readDict else none := by
  split
  · rename_i hsafe
    refine look_seen (fun s => s.dns.lookup k) (readPattern_dnsKey hsafe) rfl fun s key d => ?_
    rw [Snapshot.dns_insert]
    exact if_congr (and_iff_right hsafe) rfl rfl
  · rename_i hsafe
    refine seen_induction (P := fun s => s.dns.lookup k = none) rfl fun s key d hs => ?_
    rw [Snapshot.dns_insert, if_neg fun hboth => hsafe hboth.1, hs]

lemma backups_seen : (seen store).backups.lookup k =
    if isSafeServiceId k.2 = true then (store.lookup (backupKey k.1 k.2)).map readDict
    else none := by
  split
  · rename_i hsafe
    refine look_seen (fun s => s.backups.lookup k) (readPattern_backupKey hsafe) rfl
      fun s key d => ?_
    rw [Snapshot.backups_insert]
    exact if_congr (and_iff_right hsafe) rfl rfl
  · rename_i hsafe
    refine seen_induction (P := fun s => s.backups.lookup k = none) rfl fun s key d hs => ?_
    rw [Snapshot.backups_insert, if_neg fun hboth => hsafe hboth.1, hs]

/-- The primary services are those that the global keys name. -/
lemma mem_primaries_seen : id ∈ (seen store).primaries ↔ isSafeServiceId id = true ∧
    ∃ v6 d, store.lookup (globalKey v6) = some d ∧
      (readDict d).scalar "PrimaryService".toList = some id := by
  have hinsert : ∀ (s : Snapshot) key d, id ∈ (s.insert key d).primaries ↔ id ∈ s.primaries ∨
      (∃ v6, key = globalKey v6) ∧ d.scalar "PrimaryService".toList = some id ∧
        isSafeServiceId id = true := by
    intro s key d
    have hglobal : (key = globalKey false ∨ key = globalKey true) ↔ ∃ v6, key = globalKey v6 := by
      simp [Bool.exists_bool]
    rw [Snapshot.primaries_insert, ← hglobal]
    split
    · rename_i hkey
      rw [and_iff_right hkey]
      cases hp : d.scalar "PrimaryService".toList with
      | none => simp
      | some primary =>
          dsimp only
          by_cases hnew : isSafeServiceId primary = true ∧ primary ∉ s.primaries
          · rw [if_pos hnew, List.mem_append, List.mem_singleton]
            refine or_congr_right ⟨?_, fun h => (Option.some_inj.mp h.1).symm⟩
            rintro rfl
            exact ⟨rfl, hnew.1⟩
          · rw [if_neg hnew]
            refine ⟨Or.inl, fun h => h.elim (fun h => h) fun h => ?_⟩
            obtain rfl := Option.some_inj.mp h.1
            exact by_contra fun hmem => hnew ⟨h.2, hmem⟩
    · rename_i hkey
      simp [hkey]
  have hfold : ∀ (es : List (Sigma fun _ : Text => Dictionary)) (s : Snapshot),
      id ∈ ((es.filter fun e => readPattern e.1).foldl
          (fun s e => s.insert e.1 (readDict e.2)) s).primaries ↔
        id ∈ s.primaries ∨ ∃ e ∈ es, (∃ v6, e.1 = globalKey v6) ∧
          (readDict e.2).scalar "PrimaryService".toList = some id ∧ isSafeServiceId id = true := by
    intro es
    induction es with
    | nil => simp
    | cons e es ih =>
        intro s
        rw [List.filter_cons, List.exists_mem_cons_iff]
        split
        · rw [List.foldl_cons, ih, hinsert, or_assoc]
        · rename_i hread
          rw [ih]
          refine or_congr_right ⟨Or.inr, fun h => h.elim ?_ fun h => h⟩
          rintro ⟨⟨v6, hkey⟩, -⟩
          exact absurd (hkey ▸ readPattern_globalKey v6) hread
  rw [seen, hfold]
  constructor
  · rintro (h | ⟨⟨key, d⟩, hmem, ⟨v6, rfl⟩, hscalar, hsafe⟩)
    · cases h
    · exact ⟨hsafe, v6, d, AList.mem_lookup_iff.mpr hmem, hscalar⟩
  · rintro ⟨hsafe, v6, d, hlookup, hscalar⟩
    exact Or.inr ⟨⟨globalKey v6, d⟩, AList.mem_lookup_iff.mp hlookup, ⟨v6, rfl⟩, hscalar, hsafe⟩

lemma nodup_primaries_seen : (seen store).primaries.Nodup := by
  refine seen_induction (P := fun s => s.primaries.Nodup) List.nodup_nil fun s key d hs => ?_
  rw [Snapshot.primaries_insert]
  split
  · split
    · split
      · rename_i hnew
        exact List.nodup_append.mpr ⟨hs, List.nodup_singleton _, fun a ha b hb heq =>
          hnew.2 (List.mem_singleton.mp hb ▸ heq ▸ ha)⟩
      · exact hs
    · exact hs
  · exact hs

end Seen

/-! ### Lookups -/

/-- A scalar is read where it is. -/
lemma scalar_readDict (d : Dictionary) (name : Text) :
    (readDict d).scalar name = (d.lookup name).bind itemText := by
  have hstep : ∀ (r : Dict) (name' : Text) (v : Value), (readEntry r name' v).scalar name =
      if name = name' then (itemText v).or (r.scalar name) else r.scalar name := by
    intro r name' v
    have hinsert : ∀ t, AList.lookup name (r.scalars.insert name' t) =
        if name = name' then some t else r.scalars.lookup name := by
      intro t
      split
      · rename_i heq
        rw [heq, AList.lookup_insert]
      · rename_i hne
        exact AList.lookup_insert_ne hne
    cases v with
    | text t =>
        rw [readEntry, itemText]
        by_cases hblank : trimEnd t = []
        · rw [if_pos hblank, if_pos hblank]
          simp
        · rw [if_neg hblank, if_neg hblank]
          exact hinsert _
    | _ => simp [readEntry, itemText, Dict.scalar]
  have hfold : ∀ es : List (Sigma fun _ : Text => Value), es.NodupKeys → ∀ r : Dict,
      (es.foldl (fun r e => readEntry r e.1 e.2) r).scalar name =
        ((es.dlookup name).bind itemText).or (r.scalar name) := by
    intro es
    induction es with
    | nil => exact fun _ _ => rfl
    | cons e es ih =>
        intro hnodup r
        obtain ⟨hnew, hrest⟩ := List.nodupKeys_cons.mp hnodup
        obtain ⟨name', v⟩ := e
        rw [List.foldl_cons, ih hrest, hstep]
        by_cases heq : name = name'
        · have hnone : es.dlookup name = none := List.dlookup_eq_none.mpr (heq ▸ hnew)
          rw [if_pos heq, hnone]
          subst heq
          rw [List.dlookup_cons_eq]
          rfl
        · have hnext : List.dlookup name (⟨name', v⟩ :: es) = es.dlookup name :=
            List.dlookup_cons_ne es _ heq
          rw [if_neg heq, hnext]
  have hread := hfold d.entries d.nodupKeys .empty
  rw [show Dict.empty.scalar name = none from rfl, Option.or_none] at hread
  exact hread

/-- Every entry of the dictionary can be told apart. -/
lemma legible_iff {d : Dictionary} : legibleEntries (pairs d) = true ↔
    ∀ name v, d.lookup name = some v → isWord name = true ∧ v.legible = true := by
  rw [legibleEntries_iff]
  constructor
  · intro h name v hv
    exact h (name, v) (List.mem_map.mpr ⟨⟨name, v⟩, AList.mem_lookup_iff.mp hv, rfl⟩)
  · intro h e he
    obtain ⟨⟨name, v⟩, hmem, rfl⟩ := List.mem_map.mp he
    exact h name v (AList.mem_lookup_iff.mpr hmem)

lemma legible_insert {d : Dictionary} (h : legibleEntries (pairs d) = true)
    {name : Text} {v : Value}
    (hname : isWord name = true) (hv : v.legible = true) :
    legibleEntries (pairs (d.insert name v)) = true := by
  rw [legible_iff] at h ⊢
  intro name' v' hlookup
  by_cases heq : name' = name
  · rw [heq, AList.lookup_insert] at hlookup
    obtain rfl := Option.some_inj.mp hlookup
    exact ⟨heq ▸ hname, hv⟩
  · rw [AList.lookup_insert_ne heq] at hlookup
    exact h name' v' hlookup

lemma legible_erase {d : Dictionary} (h : legibleEntries (pairs d) = true) (name : Text) :
    legibleEntries (pairs (d.erase name)) = true := by
  rw [legible_iff] at h ⊢
  intro name' v' hlookup
  by_cases heq : name' = name
  · rw [heq, AList.lookup_erase] at hlookup
    cases hlookup
  · rw [AList.lookup_erase_ne heq] at hlookup
    exact h name' v' hlookup

lemma mem_inOrder {m : BTreeMap Service Dict} {e : Service × Dict} :
    e ∈ inOrder m ↔ m.lookup e.1 = some e.2 := by
  rw [inOrder, (List.perm_insertionSort _ _).mem_iff, List.mem_map]
  constructor
  · rintro ⟨⟨k, d⟩, hmem, rfl⟩
    exact AList.mem_lookup_iff.mpr hmem
  · intro h
    exact ⟨⟨e.1, e.2⟩, AList.mem_lookup_iff.mp h, rfl⟩

lemma nodup_inOrder (m : BTreeMap Service Dict) : ((inOrder m).map Prod.fst).Nodup := by
  have hperm := (List.perm_insertionSort (fun e f : Service × Dict => keyLe e.1 f.1)
    (m.entries.map fun e => (e.1, e.2))).map Prod.fst
  rw [inOrder, hperm.nodup_iff, List.map_map]
  exact m.nodupKeys

end CumulusVpn.Desktop.Dns
