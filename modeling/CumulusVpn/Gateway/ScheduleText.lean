/-
The language of price schedules: which texts are schedules, and of which
entries, for any notion of white space.

* `EntryText`: an entry, with white space around its price and its height;
* `ScheduleText`: the entries between the commas, from height 0 on and with
  increasing heights;
* `parseScheduleWith`: the parser, by the white space it trims;
* `parseScheduleWith_iff`: **the parser accepts the language**;
* `parse_iff`: so does the gateway's `Parse`.
-/
import CumulusVpn.Gateway.PriceText
import CumulusVpn.Lib.Trim
import Mathlib.Data.List.Chain

namespace CumulusVpn

open Trim

/-! ### The language -/

/-- The text with white space around it. -/
def Spaced (sp : Char → Bool) (cs raw : List Char) : Prop :=
  ∃ l r, raw = l ++ cs ++ r ∧ (∀ c ∈ l, sp c) ∧ ∀ c ∈ r, sp c

/-- The text of an entry: its price, and the height it starts at. -/
inductive EntryText (sp : Char → Bool) : List Char → Entry → Prop
  | price {raw cs : List Char} {q : ℚ} (hcs : Spaced sp cs raw) (hq : readFlux cs = some q) :
      EntryText sp raw ⟨0, q⟩
  | priceAt {before after cs hs : List Char} {q : ℚ} {h : Int} (hcs : Spaced sp cs before)
      (hq : readFlux cs = some q) (hhs : Spaced sp hs after) (hh : readHeight hs = some h) :
      EntryText sp (before ++ '@' :: after) ⟨h, q⟩

/-- The text of a schedule: the entries between its commas, of which only the
first may leave out its height. -/
structure ScheduleText (sp : Char → Bool) (cs : List Char) (entries : List Entry) : Prop where
  texts : List.Forall₂ (EntryText sp) (cs.splitOn ',') entries
  startsAtZero : ∀ e ∈ entries.head?, e.from_ = 0
  heights : ∀ part ∈ (cs.splitOn ',').tail, '@' ∈ part
  increasing : entries.Pairwise fun e f => e.from_ < f.from_
  len : entries.length ≤ maxEntries

/-! ### The parser -/

/-- The entry after `entries`. -/
def parseEntryWith (sp : Char → Bool) (entries : List Entry) (raw : List Char) :
    Except PriceError Entry :=
  let i := entries.length
  let raw := trim sp raw
  let (fluxStr, fromStr, hasFrom) := cut '@' raw
  match readFlux (trim sp fluxStr) with
  | none => .error (.badPrice i raw)
  | some flux =>
      match parseFrom i raw (trim sp fromStr) hasFrom with
      | .error err => .error err
      | .ok from_ =>
          match entries.getLast? with
          | none => if from_ ≠ 0 then .error (.firstNotZero raw) else .ok ⟨from_, flux⟩
          | some last =>
              if from_ ≤ last.from_ then .error (.notIncreasing i raw) else .ok ⟨from_, flux⟩

/-- The entries of the parts, in order; each is checked against those before it. -/
def parseEntriesWith (sp : Char → Bool) :
    List Entry → List (List Char) → Except PriceError (List Entry)
  | entries, [] => .ok entries
  | entries, raw :: parts =>
      match parseEntryWith sp entries raw with
      | .error err => .error err
      | .ok e => parseEntriesWith sp (entries ++ [e]) parts

/-- The entries of a text, or why there are none. -/
def parseScheduleWith (sp : Char → Bool) (cs : List Char) : Except PriceError (List Entry) :=
  let s := trim sp cs
  if s = [] then .error .emptySchedule
  else
    let parts := s.splitOn ','
    if parts.length > maxEntries then .error (.tooMany parts.length)
    else parseEntriesWith sp [] parts

/-! ### Prices and heights -/

lemma isDigit_of_readFlux {cs : List Char} {q : ℚ} (h : readFlux cs = some q) :
    cs ≠ [] ∧ ∀ c ∈ cs, c.isDigit ∨ c = '.' := by
  rw [readFlux, Option.filter_eq_some_iff] at h
  exact Decimal.isDigit_of_read h.1

lemma isDigit_of_readHeight {cs : List Char} {h : Int} (heq : readHeight cs = some h) :
    cs ≠ [] ∧ ∀ c ∈ cs, c.isDigit := by
  rw [readHeight] at heq
  split at heq
  · rename_i hcs
    exact ⟨List.ne_nil_of_length_pos hcs.1, List.all_eq_true.mp hcs.2.2.1⟩
  · cases heq

section Language

variable {sp : Char → Bool} (hsp : ∀ c, IsWireChar c → sp c = false)

/-- A text of other characters is what is left of the spaced one. -/
lemma spaced_iff {cs raw : List Char} (hcs : ∀ c ∈ cs, sp c = false) :
    Spaced sp cs raw ↔ trim sp raw = cs := by
  constructor
  · rintro ⟨l, r, rfl, hl, hr⟩
    rw [trim_append hl hr]
    exact trim_eq_self (fun c hc => hcs c (List.mem_of_mem_head? hc))
      fun c hc => hcs c (List.mem_of_getLast? hc)
  · rintro rfl
    exact exists_trim sp raw

include hsp

lemma not_space_of_readFlux {cs : List Char} {q : ℚ} (h : readFlux cs = some q) :
    ∀ c ∈ cs, sp c = false := fun c hc =>
  hsp c (((isDigit_of_readFlux h).2 c hc).imp_right Or.inl)

lemma not_space_of_readHeight {cs : List Char} {h : Int} (heq : readHeight cs = some h) :
    ∀ c ∈ cs, sp c = false := fun c hc => hsp c (Or.inl ((isDigit_of_readHeight heq).2 c hc))

end Language

/-- What `cut` cuts. -/
lemma cut_spec (c : Char) (cs : List Char) :
    (c ∉ cs ∧ cut c cs = (cs, [], false)) ∨
      ∃ as bs, cs = as ++ c :: bs ∧ c ∉ as ∧ cut c cs = (as, bs, true) := by
  by_cases hc : c ∈ cs
  · obtain ⟨as, bs, hcs, has⟩ := List.eq_append_cons_of_mem hc
    refine Or.inr ⟨as, bs, hcs, has, ?_⟩
    rw [hcs]
    exact cut_append has bs
  · refine Or.inl ⟨hc, ?_⟩
    have hall : ∀ d ∈ cs, decide (d ≠ c) = true := fun d hd =>
      decide_eq_true fun heq => hc (heq ▸ hd)
    rw [cut, List.takeWhile_eq_self_iff.mpr hall, List.dropWhile_eq_nil_iff.mpr hall]
    simp [hc]

/-! ### Entries -/

section Entries

variable {sp : Char → Bool} {raw : List Char} {e : Entry}

lemma at_not_space (hsp : ∀ c, IsWireChar c → sp c = false) : sp '@' = false :=
  hsp '@' (Or.inr (Or.inr (Or.inl rfl)))

lemma at_not_mem_flux {cs : List Char} {q : ℚ} (h : readFlux cs = some q) : '@' ∉ cs :=
  fun hmem => by
    rcases (isDigit_of_readFlux h).2 _ hmem with hat | hat
    · exact absurd hat (by decide)
    · exact absurd hat (by decide)

/-- Between its outer white space, an entry with a height begins with its price
and ends with its height. -/
lemma trim_priceAt (hsp : ∀ c, IsWireChar c → sp c = false) {l cs r l' hs r' : List Char} {q : ℚ}
    {h : Int} (hq : readFlux cs = some q) (hh : readHeight hs = some h) (hl : ∀ c ∈ l, sp c)
    (hr' : ∀ c ∈ r', sp c) :
    trim sp (l ++ cs ++ r ++ '@' :: (l' ++ hs ++ r')) = cs ++ r ++ '@' :: (l' ++ hs) := by
  have hself : trim sp (cs ++ r ++ '@' :: (l' ++ hs)) = cs ++ r ++ '@' :: (l' ++ hs) := by
    refine trim_eq_self (fun c hc => ?_) fun c hc => ?_
    · rw [List.append_assoc, List.head?_append_of_ne_nil _ (isDigit_of_readFlux hq).1] at hc
      exact not_space_of_readFlux hsp hq c (List.mem_of_mem_head? hc)
    · rw [List.getLast?_append_of_ne_nil _ (List.cons_ne_nil _ _), ← List.cons_append,
        List.getLast?_append_of_ne_nil _ (isDigit_of_readHeight hh).1] at hc
      exact not_space_of_readHeight hsp hh c (List.mem_of_getLast? hc)
  calc trim sp (l ++ cs ++ r ++ '@' :: (l' ++ hs ++ r'))
      = trim sp (l ++ (cs ++ r ++ '@' :: (l' ++ hs)) ++ r') := by simp
    _ = trim sp (cs ++ r ++ '@' :: (l' ++ hs)) := trim_append hl hr' _
    _ = cs ++ r ++ '@' :: (l' ++ hs) := hself

/-- What the parser reads before and after the `@`. -/
def ReadsEntry (sp : Char → Bool) (raw : List Char) (e : Entry) : Prop :=
  readFlux (trim sp (cut '@' (trim sp raw)).1) = some e.flux ∧
    if '@' ∈ raw then readHeight (trim sp (cut '@' (trim sp raw)).2.1) = some e.from_
    else e.from_ = 0

lemma EntryText.reads (hsp : ∀ c, IsWireChar c → sp c = false) (h : EntryText sp raw e) :
    ReadsEntry sp raw e := by
  cases h with
  | @price _ cs q hcs hq =>
      have htrim := (spaced_iff (not_space_of_readFlux hsp hq)).mp hcs
      have hno : '@' ∉ raw := fun hmem =>
        at_not_mem_flux hq (htrim ▸ (mem_trim (at_not_space hsp)).mpr hmem)
      have hcut : cut '@' (trim sp raw) = (cs, [], false) := by
        rw [htrim]
        rcases cut_spec '@' cs with ⟨-, hcut⟩ | ⟨as, bs, rfl, -⟩
        · exact hcut
        · exact absurd (List.mem_append_right as List.mem_cons_self) (at_not_mem_flux hq)
      rw [ReadsEntry, hcut, if_neg hno]
      refine ⟨?_, rfl⟩
      rw [← htrim, trim_trim, htrim]
      exact hq
  | @priceAt before after cs hs q h hcs hq hhs hh =>
      obtain ⟨l, r, rfl, hl, hr⟩ := hcs
      obtain ⟨l', r', rfl, hl', hr'⟩ := hhs
      have hno : '@' ∉ cs ++ r := fun hmem => by
        rcases List.mem_append.mp hmem with hmem | hmem
        · exact at_not_mem_flux hq hmem
        · exact absurd (hr _ hmem) (by simp [at_not_space hsp])
      rw [ReadsEntry, trim_priceAt hsp hq hh hl hr', cut_append hno,
        if_pos (List.mem_append_right _ List.mem_cons_self)]
      constructor
      · rw [(spaced_iff (not_space_of_readFlux hsp hq)).mp ⟨[], r, by simp, by simp, hr⟩]
        exact hq
      · rw [(spaced_iff (not_space_of_readHeight hsp hh)).mp ⟨l', [], by simp, hl', by simp⟩]
        exact hh

lemma ReadsEntry.text (hsp : ∀ c, IsWireChar c → sp c = false) (h : ReadsEntry sp raw e) :
    EntryText sp raw e := by
  obtain ⟨hflux, hfrom⟩ := h
  obtain ⟨l, r, hraw, hl, hr⟩ := exists_trim sp raw
  obtain ⟨from_, flux⟩ := e
  rcases cut_spec '@' (trim sp raw) with ⟨hno, hcut⟩ | ⟨before, after, htrim, -, hcut⟩
  · rw [if_neg fun hmem => hno ((mem_trim (at_not_space hsp)).mpr hmem)] at hfrom
    obtain rfl : from_ = 0 := hfrom
    rw [hcut] at hflux
    refine .price ?_ hflux
    rw [spaced_iff (not_space_of_readFlux hsp hflux), trim_trim]
  · have hmem : '@' ∈ trim sp raw := htrim ▸ List.mem_append_right _ List.mem_cons_self
    rw [if_pos ((mem_trim (at_not_space hsp)).mp hmem), hcut] at hfrom
    rw [hcut] at hflux
    have hparts : raw = (l ++ before) ++ '@' :: (after ++ r) := by
      rw [hraw, htrim]
      simp
    rw [hparts]
    refine .priceAt ?_ hflux ?_ hfrom
    · rw [spaced_iff (not_space_of_readFlux hsp hflux), trim_append_left hl]
    · rw [spaced_iff (not_space_of_readHeight hsp hfrom), trim_append_right hr]

/-- An entry is what the parser reads before and after the `@`. -/
lemma entryText_iff (hsp : ∀ c, IsWireChar c → sp c = false) :
    EntryText sp raw e ↔ ReadsEntry sp raw e := ⟨EntryText.reads hsp, ReadsEntry.text hsp⟩

lemma parseFrom_iff {i : Nat} {cs fromStr : List Char} {hasFrom : Bool} {h : Int} :
    parseFrom i cs fromStr hasFrom = .ok h ↔
      (if hasFrom then readHeight fromStr = some h else h = 0) ∧ (0 < i → hasFrom) := by
  rw [parseFrom]
  cases hasFrom with
  | true =>
      cases hread : readHeight fromStr with
      | none => simp
      | some h' => simp
  | false =>
      by_cases hi : i > 0
      · simp [hi]
      · simp [hi, eq_comm]

/-- What the parser takes for the entry after `entries`. -/
lemma parseEntryWith_iff (hsp : ∀ c, IsWireChar c → sp c = false) {entries : List Entry} :
    parseEntryWith sp entries raw = .ok e ↔
      EntryText sp raw e ∧ (entries = [] → e.from_ = 0) ∧ (entries ≠ [] → '@' ∈ raw) ∧
        ∀ last ∈ entries.getLast?, last.from_ < e.from_ := by
  have hat : (cut '@' (trim sp raw)).2.2 = true ↔ '@' ∈ raw := by
    rw [← mem_trim (at_not_space hsp), cut]
    exact List.contains_iff_mem
  rw [entryText_iff hsp, ReadsEntry, parseEntryWith]
  generalize cut '@' (trim sp raw) = parts at hat ⊢
  obtain ⟨fluxStr, fromStr, hasFrom⟩ := parts
  obtain ⟨from_, flux⟩ := e
  simp only at hat ⊢
  simp only [← hat]
  cases hflux : readFlux (trim sp fluxStr) with
  | none => simp
  | some q =>
    cases hfrom : parseFrom entries.length (trim sp raw) (trim sp fromStr) hasFrom with
    | error err =>
        refine iff_of_false (fun hok => by cases hok) ?_
        rintro ⟨⟨-, hread⟩, -, hlater, -⟩
        have hok : parseFrom entries.length (trim sp raw) (trim sp fromStr) hasFrom = .ok from_ :=
          parseFrom_iff.mpr ⟨hread, fun hpos => hlater (List.ne_nil_of_length_pos hpos)⟩
        rw [hfrom] at hok
        cases hok
    | ok h =>
        obtain ⟨hread, hlater⟩ := parseFrom_iff.mp hfrom
        have hheight : (if hasFrom = true then readHeight (trim sp fromStr) = some from_
            else from_ = 0) ↔ h = from_ := by
          cases hasFrom with
          | true =>
              have hsome : readHeight (trim sp fromStr) = some h := hread
              rw [if_pos rfl, hsome, Option.some_inj]
          | false =>
              have hzero : h = 0 := hread
              rw [if_neg Bool.false_ne_true, hzero, eq_comm]
        have hok : (Except.ok ⟨h, q⟩ : Except PriceError Entry) = .ok ⟨from_, flux⟩ ↔
            some q = some flux ∧ h = from_ := by
          rw [Except.ok.injEq, Entry.mk.injEq, Option.some_inj, and_comm]
        rw [hheight]
        cases hlast : entries.getLast? with
        | none =>
            obtain rfl := List.getLast?_eq_none_iff.mp hlast
            by_cases hzero : h = 0
            · simp only [hzero, ne_eq, not_true_eq_false, if_false] at hok ⊢
              grind
            · simp only [hzero, ne_eq, not_false_eq_true, if_true, reduceCtorEq, false_iff]
              grind
        | some last =>
            have hne : entries ≠ [] := fun hnil => by
              rw [hnil] at hlast
              cases hlast
            have hmem := hlater (List.length_pos_of_ne_nil hne)
            by_cases hle : h ≤ last.from_
            · simp only [hle, if_true, reduceCtorEq, false_iff]
              grind
            · simp only [hle, if_false, hok]
              grind

/-- What the parser takes after `entries`: entries whose heights go on. -/
lemma parseEntriesWith_iff (hsp : ∀ c, IsWireChar c → sp c = false) {entries : List Entry}
    {parts : List (List Char)} {all : List Entry}
    (hchain : entries.IsChain fun e f => e.from_ < f.from_) :
    parseEntriesWith sp entries parts = .ok all ↔
      ∃ rest, all = entries ++ rest ∧ List.Forall₂ (EntryText sp) parts rest ∧
        (entries = [] → ∀ e ∈ rest.head?, e.from_ = 0) ∧
        (∀ part ∈ (if entries = [] then parts.tail else parts), '@' ∈ part) ∧
        (entries ++ rest).IsChain fun e f => e.from_ < f.from_ := by
  induction parts generalizing entries with
  | nil =>
      rw [parseEntriesWith, Except.ok.injEq]
      constructor
      · rintro rfl
        refine ⟨[], by simp, .nil, by simp, by simp, by simpa using hchain⟩
      · rintro ⟨rest, rfl, hrest, -⟩
        cases hrest
        exact (List.append_nil _).symm
  | cons raw parts ih =>
      have hnext : ∀ e : Entry, entries ++ [e] ≠ [] := fun e => by simp
      constructor
      · intro h
        rw [parseEntriesWith] at h
        split at h
        · cases h
        · rename_i e he
          obtain ⟨htext, hfirst, hlater, hlast⟩ := (parseEntryWith_iff hsp).mp he
          have hchain' : (entries ++ [e]).IsChain fun e f => e.from_ < f.from_ :=
            List.isChain_append.mpr ⟨hchain, List.isChain_singleton e, by simpa using hlast⟩
          obtain ⟨rest, rfl, htexts, -, hheights, hall⟩ := (ih hchain').mp h
          rw [if_neg (hnext e)] at hheights
          refine ⟨e :: rest, by simp, .cons htext htexts, ?_, ?_, by simpa using hall⟩
          · rintro hnil f hf
            cases hf
            exact hfirst hnil
          · split
            · exact hheights
            · rename_i hne
              exact List.forall_mem_cons.mpr ⟨hlater hne, hheights⟩
      · rintro ⟨rest, rfl, htexts, hfirst, hheights, hall⟩
        cases htexts with
        | @cons _ e _ rest htext htexts =>
          obtain ⟨-, -, hlast⟩ := List.isChain_append.mp hall
          have he : parseEntryWith sp entries raw = .ok e := by
            refine (parseEntryWith_iff hsp).mpr
              ⟨htext, fun hnil => hfirst hnil e rfl, fun hne => ?_,
              fun last hl => hlast last hl e rfl⟩
            rw [if_neg hne] at hheights
            exact hheights raw List.mem_cons_self
          have hparts : ∀ part ∈ parts, '@' ∈ part := by
            split at hheights
            · exact hheights
            · exact (List.forall_mem_cons.mp hheights).2
          have hall' : ((entries ++ [e]) ++ rest).IsChain fun e f => e.from_ < f.from_ := by
            simpa using hall
          have hchain' := (List.isChain_append.mp hall').1
          rw [parseEntriesWith, he]
          refine (ih hchain').mpr ⟨rest, by simp, htexts, fun hnil => absurd hnil (hnext e), ?_,
            hall'⟩
          rw [if_neg (hnext e)]
          exact hparts

/-- White space around an entry says nothing. -/
lemma entryText_trim (hsp : ∀ c, IsWireChar c → sp c = false) :
    EntryText sp (trim sp raw) e ↔ EntryText sp raw e := by
  rw [entryText_iff hsp, entryText_iff hsp, ReadsEntry, ReadsEntry, trim_trim]
  simp only [mem_trim (at_not_space hsp)]

end Entries

/-! ### Schedules -/

section Schedules

variable {sp sp' : Char → Bool} {cs : List Char} {entries : List Entry}

/-- Neither does white space around the whole. -/
lemma scheduleText_trim (hsp : ∀ c, IsWireChar c → sp c = false) :
    ScheduleText sp (trim sp cs) entries ↔ ScheduleText sp cs entries := by
  have hcomma : sp ',' = false := hsp ',' (Or.inr (Or.inr (Or.inr rfl)))
  have hparts := map_trim_splitOn hcomma cs
  have hiff : ∀ {ps qs : List (List Char)}, ps.map (trim sp) = qs.map (trim sp) →
      List.Forall₂ (EntryText sp) ps entries → (∀ part ∈ ps.tail, '@' ∈ part) →
      List.Forall₂ (EntryText sp) qs entries ∧ ∀ part ∈ qs.tail, '@' ∈ part := by
    intro ps qs heq htexts hheights
    have htail : ps.tail.map (trim sp) = qs.tail.map (trim sp) := by
      rw [List.map_tail, heq, List.map_tail]
    constructor
    · have htrimmed : List.Forall₂ (EntryText sp) (ps.map (trim sp)) entries := by
        rw [List.forall₂_map_left_iff]
        exact htexts.imp fun _ _ => (entryText_trim hsp).mpr
      rw [heq, List.forall₂_map_left_iff] at htrimmed
      exact htrimmed.imp fun _ _ => (entryText_trim hsp).mp
    · intro part hpart
      have hmem : trim sp part ∈ ps.tail.map (trim sp) := htail ▸ List.mem_map_of_mem hpart
      obtain ⟨part', hpart', heq'⟩ := List.mem_map.mp hmem
      rw [← mem_trim (at_not_space hsp), ← heq', mem_trim (at_not_space hsp)]
      exact hheights part' hpart'
  constructor
  · intro h
    obtain ⟨htexts, hheights⟩ := hiff hparts h.texts h.heights
    exact ⟨htexts, h.startsAtZero, hheights, h.increasing, h.len⟩
  · intro h
    obtain ⟨htexts, hheights⟩ := hiff hparts.symm h.texts h.heights
    exact ⟨htexts, h.startsAtZero, hheights, h.increasing, h.len⟩

lemma not_scheduleText_nil (hsp : ∀ c, IsWireChar c → sp c = false) :
    ¬ ScheduleText sp [] entries := by
  rintro ⟨htexts, -⟩
  rw [List.splitOn_nil] at htexts
  cases htexts with
  | cons htext _ => cases ((entryText_iff hsp).mp htext).1

/-- **The parser accepts the language of schedules**, whatever it trims. -/
theorem parseScheduleWith_iff (hsp : ∀ c, IsWireChar c → sp c = false) :
    parseScheduleWith sp cs = .ok entries ↔ ScheduleText sp cs entries := by
  have hloop : parseEntriesWith sp [] ((trim sp cs).splitOn ',') = .ok entries ∧
      ¬ ((trim sp cs).splitOn ',').length > maxEntries ↔
        ScheduleText sp (trim sp cs) entries := by
    rw [parseEntriesWith_iff hsp List.isChain_nil]
    constructor
    · rintro ⟨⟨rest, rfl, htexts, hfirst, hheights, hall⟩, hlen⟩
      refine ⟨htexts, hfirst rfl, hheights, hall.pairwise, ?_⟩
      rw [htexts.length_eq] at hlen
      exact Nat.not_lt.mp hlen
    · intro h
      refine ⟨⟨entries, rfl, h.texts, fun _ => h.startsAtZero, h.heights, h.increasing.isChain⟩, ?_⟩
      rw [h.texts.length_eq]
      exact Nat.not_lt.mpr h.len
  rw [← scheduleText_trim hsp, ← hloop, parseScheduleWith]
  by_cases hnil : trim sp cs = []
  · rw [if_pos hnil]
    exact iff_of_false nofun fun h => not_scheduleText_nil hsp (hnil ▸ hloop.mp h)
  · rw [if_neg hnil]
    by_cases hlen : ((trim sp cs).splitOn ',').length > maxEntries
    · simp [hlen]
    · simp [hlen]

lemma Spaced.chars {raw : List Char} (h : Spaced sp cs raw) :
    ∀ c ∈ raw, sp c ∨ c ∈ cs := by
  obtain ⟨l, r, rfl, hl, hr⟩ := h
  intro c hc
  rcases List.mem_append.mp hc with hc | hc
  · exact (List.mem_append.mp hc).imp_left (hl c)
  · exact Or.inl (hr c hc)

lemma Spaced.mono {raw : List Char} (h : Spaced sp cs raw) (hsub : ∀ c ∈ raw, sp c → sp' c) :
    Spaced sp' cs raw := by
  obtain ⟨l, r, rfl, hl, hr⟩ := h
  refine ⟨l, r, rfl, fun c hc => hsub c ?_ (hl c hc), fun c hc => hsub c ?_ (hr c hc)⟩
  · exact List.mem_append_left _ (List.mem_append_left _ hc)
  · exact List.mem_append_right _ hc

lemma EntryText.chars {raw : List Char} {e : Entry} (h : EntryText sp raw e) :
    ∀ c ∈ raw, sp c ∨ IsWireChar c := by
  cases h with
  | price hcs hq =>
      intro c hc
      exact (hcs.chars c hc).imp_right fun hmem =>
        ((isDigit_of_readFlux hq).2 c hmem).imp_right Or.inl
  | priceAt hcs hq hhs hh =>
      intro c hc
      rcases List.mem_append.mp hc with hc | hc
      · exact (hcs.chars c hc).imp_right fun hmem =>
          ((isDigit_of_readFlux hq).2 c hmem).imp_right Or.inl
      · rcases List.mem_cons.mp hc with rfl | hc
        · exact Or.inr (Or.inr (Or.inr (Or.inl rfl)))
        · exact (hhs.chars c hc).imp_right fun hmem =>
            Or.inl ((isDigit_of_readHeight hh).2 c hmem)

lemma EntryText.mono {raw : List Char} {e : Entry} (h : EntryText sp raw e)
    (hsub : ∀ c ∈ raw, sp c → sp' c) : EntryText sp' raw e := by
  cases h with
  | price hcs hq => exact .price (hcs.mono hsub) hq
  | priceAt hcs hq hhs hh =>
      refine .priceAt (hcs.mono fun c hc => hsub c ?_) hq (hhs.mono fun c hc => hsub c ?_) hh
      · exact List.mem_append_left _ hc
      · exact List.mem_append_right _ (List.mem_cons_of_mem _ hc)

/-- A schedule is a text of wire characters and white space. -/
lemma ScheduleText.chars (h : ScheduleText sp cs entries) : ∀ c ∈ cs, sp c ∨ IsWireChar c := by
  intro c hc
  by_cases hcomma : c = ','
  · exact Or.inr (Or.inr (Or.inr (Or.inr hcomma)))
  · obtain ⟨part, hpart, hmem⟩ := exists_mem_splitOn hcomma hc
    have hparts : ∀ part ∈ cs.splitOn ',', ∀ c ∈ part, sp c ∨ IsWireChar c :=
      ((List.forall₂_and_left _ _).mp (h.texts.imp fun _ _ htext => ⟨htext.chars, htext⟩)).1
    exact hparts part hpart c hmem

/-- White space of the text that is white space of another kind too. -/
lemma ScheduleText.mono (h : ScheduleText sp cs entries) (hsub : ∀ c ∈ cs, sp c → sp' c) :
    ScheduleText sp' cs entries := by
  refine ⟨?_, h.startsAtZero, h.heights, h.increasing, h.len⟩
  have hparts : List.Forall₂ (fun part e => part ∈ cs.splitOn ',' ∧ EntryText sp part e)
      (cs.splitOn ',') entries := (List.forall₂_and_left _ _).mpr ⟨fun _ => id, h.texts⟩
  exact hparts.imp fun part e hboth =>
    hboth.2.mono fun c hc => hsub c (mem_of_mem_splitOn hc hboth.1)

/-- What is read off a text is a schedule the format can carry. -/
lemma EntryText.onWire {raw : List Char} {e : Entry} (h : EntryText sp raw e) :
    FluxOnWire e.flux ∧ e.from_ ≤ maxHeight := by
  cases h with
  | price _ hq => exact ⟨readFlux_eq_some hq, (by decide : (0 : Int) ≤ maxHeight)⟩
  | priceAt _ hq _ hh => exact ⟨readFlux_eq_some hq, (readHeight_eq_some hh).2⟩

lemma ScheduleText.exists_schedule (h : ScheduleText sp cs entries) :
    ∃ s : Schedule, s.entries = entries ∧ s.OnWire := by
  have hne : entries ≠ [] := by
    rintro rfl
    exact List.splitOn_ne_nil ',' cs (List.forall₂_nil_right_iff.mp h.texts)
  have hwire : ∀ e ∈ entries, FluxOnWire e.flux ∧ e.from_ ≤ maxHeight := by
    have hflip : List.Forall₂ (fun e raw => (FluxOnWire e.flux ∧ e.from_ ≤ maxHeight) ∧
        EntryText sp raw e) entries (cs.splitOn ',') :=
      (h.texts.imp fun _ _ htext => ⟨htext.onWire, htext⟩).flip
    exact ((List.forall₂_and_left _ _).mp hflip).1
  refine ⟨⟨entries, hne, h.startsAtZero _ (List.head?_eq_some_head hne), h.increasing,
    fun e he => (hwire e he).1.1⟩, rfl, h.len, hwire⟩

end Schedules

/-! ### The gateway -/

lemma parseEntries_eq : ∀ (parts : List (List Char)) (entries : List Entry),
    parseEntries entries parts = parseEntriesWith isSpace entries parts
  | [], _ => rfl
  | raw :: parts, entries => by
      rw [parseEntries, parseEntriesWith]
      change (match parseEntryWith isSpace entries raw with
        | .error err => Except.error err
        | .ok e => parseEntries (entries ++ [e]) parts) = _
      split
      · rfl
      · exact parseEntries_eq parts _

lemma isSpace_wire (c : Char) (h : IsWireChar c) : isSpace c = false := isSpace_of_isWireChar h

/-- **`Parse` accepts the language of schedules.** -/
theorem parse_iff {text : String} {s : Schedule} :
    parse text = .ok s ↔ ScheduleText isSpace text.toList s.entries := by
  rw [← parseScheduleWith_iff isSpace_wire, parse, parseScheduleWith]
  change _ ↔ (if trimSpace text.toList = [] then _ else
    if ((trimSpace text.toList).splitOn ',').length > maxEntries then _
    else parseEntriesWith isSpace [] ((trimSpace text.toList).splitOn ',')) = _
  rw [← parseEntries_eq]
  dsimp only
  by_cases hnil : trimSpace text.toList = []
  · rw [if_pos hnil, if_pos hnil]
    exact iff_of_false nofun nofun
  rw [if_neg hnil, if_neg hnil]
  by_cases hlen : ((trimSpace text.toList).splitOn ',').length > maxEntries
  · rw [if_pos hlen, if_pos hlen]
    exact iff_of_false nofun nofun
  rw [if_neg hlen, if_neg hlen]
  split
  · rename_i err heq
    rw [heq]
    exact iff_of_false nofun nofun
  · rename_i entries heq
    have hentries : Except.ok entries = (Except.ok s.entries : Except PriceError (List Entry)) ↔
        parseEntries [] ((trimSpace text.toList).splitOn ',') = .ok s.entries :=
      (congrArg (· = _) heq).to_iff.symm
    rw [← hentries, Except.ok.injEq, Except.ok.injEq]
    exact ⟨congrArg Schedule.entries, fun h => Schedule.ext h⟩

end CumulusVpn
