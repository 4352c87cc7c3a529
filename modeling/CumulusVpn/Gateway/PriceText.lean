/-
The wire format of price schedules (`Parse` and `String` of
`gateway/internal/price/price.go`):

    20                     flat price
    20@0,12@2215000        20 FLUX until block 2214999, 12 FLUX from 2215000

* `parse`, `parseEntry`: the parser, with its error paths;
* `Schedule.toString`: the canonical text;
* `Schedule.OnWire`: the schedules the format can carry, and
  `onWire_of_parse`: the parser builds no others;
* `parse_toString`: **the canonical text of such a schedule parses back to
  it**.

Prices are the decimals of the text (`PriceFloats` rounds them to `float64`s).
-/
import CumulusVpn.Gateway.Entitle
import CumulusVpn.Lib.Decimal

namespace CumulusVpn

/-! ### The parser -/

/-- Heights stop at `2^53 - 1`, the largest the JavaScript implementations
hold exactly. -/
def maxHeight : Int := 2 ^ 53 - 1

/-- The most entries of a schedule. -/
def maxEntries : Nat := 256

/-- The errors of `Parse`; `i` is the index of the entry `raw`. -/
inductive PriceError
  /-- empty schedule -/
  | emptySchedule
  /-- more than `maxEntries` entries -/
  | tooMany (n : Nat)
  /-- price must be a positive number -/
  | badPrice (i : Nat) (raw : List Char)
  /-- height must be a non-negative integer -/
  | badHeight (i : Nat) (raw : List Char)
  /-- needs an @height -/
  | needsHeight (i : Nat) (raw : List Char)
  /-- the first entry must start at height 0 -/
  | firstNotZero (raw : List Char)
  /-- heights must strictly increase -/
  | notIncreasing (i : Nat) (raw : List Char)
deriving DecidableEq, Repr

/-- `strings.Cut`: the text before and after the first `c`, and whether there
is one. -/
def cut (c : Char) (cs : List Char) : List Char × List Char × Bool :=
  (cs.takeWhile fun d => d ≠ c, (cs.dropWhile fun d => d ≠ c).tail, cs.contains c)

/-- A price: at most nine integer digits and eight decimals, and positive. -/
def readFlux (cs : List Char) : Option ℚ :=
  (Decimal.read 9 8 cs).filter fun q => 0 < q

/-- A height: at most sixteen digits and at most `maxHeight`. -/
def readHeight (cs : List Char) : Option Int :=
  if 1 ≤ cs.length ∧ cs.length ≤ 16 ∧ cs.all Char.isDigit ∧
      Nat.ofDigitChars 10 cs 0 ≤ maxHeight then
    some (Nat.ofDigitChars 10 cs 0)
  else none

/-- The height of entry `i`: only the first may leave it out. -/
def parseFrom (i : Nat) (raw fromStr : List Char) (hasFrom : Bool) : Except PriceError Int :=
  if hasFrom then
    match readHeight fromStr with
    | none => .error (.badHeight i raw)
    | some from_ => .ok from_
  else if i > 0 then .error (.needsHeight i raw)
  else .ok 0

/-- The entry after `entries`. -/
def parseEntry (entries : List Entry) (raw : List Char) : Except PriceError Entry :=
  let i := entries.length
  let raw := trimSpace raw
  let (fluxStr, fromStr, hasFrom) := cut '@' raw
  match readFlux (trimSpace fluxStr) with
  | none => .error (.badPrice i raw)
  | some flux =>
      match parseFrom i raw (trimSpace fromStr) hasFrom with
      | .error err => .error err
      | .ok from_ =>
          match entries.getLast? with
          | none => if from_ ≠ 0 then .error (.firstNotZero raw) else .ok ⟨from_, flux⟩
          | some last =>
              if from_ ≤ last.from_ then .error (.notIncreasing i raw) else .ok ⟨from_, flux⟩

/-- The loop of `Parse`. -/
def parseEntries : List Entry → List (List Char) → Except PriceError (List Entry)
  | entries, [] => .ok entries
  | entries, raw :: parts =>
      match parseEntry entries raw with
      | .error err => .error err
      | .ok e => parseEntries (entries ++ [e]) parts

/-! ### What the parser builds -/

/-- A price the format can carry: a positive number of units of `1e-8`, with
at most nine integer digits. -/
def FluxOnWire (q : ℚ) : Prop := 0 < q ∧ ∃ n : Nat, n < 10 ^ 17 ∧ q = n / 10 ^ 8

/-- Entries as the parser accepts them. -/
structure Accepted (entries : List Entry) : Prop where
  startsAtZero : ∀ e ∈ entries.head?, e.from_ = 0
  increasing : entries.Pairwise fun e f => e.from_ < f.from_
  onWire : ∀ e ∈ entries, FluxOnWire e.flux ∧ 0 ≤ e.from_ ∧ e.from_ ≤ maxHeight

lemma readHeight_eq_some {cs : List Char} {h : Int} (heq : readHeight cs = some h) :
    0 ≤ h ∧ h ≤ maxHeight := by
  unfold readHeight at heq
  split at heq
  · cases heq
    omega
  · cases heq

lemma readFlux_eq_some {cs : List Char} {q : ℚ} (h : readFlux cs = some q) : FluxOnWire q := by
  rw [readFlux, Option.filter_eq_some_iff] at h
  exact ⟨by simpa using h.2, Decimal.exists_of_read_eq_some h.1⟩

lemma parseFrom_eq_ok {i : Nat} {raw fromStr : List Char} {hasFrom : Bool} {h : Int}
    (heq : parseFrom i raw fromStr hasFrom = .ok h) : 0 ≤ h ∧ h ≤ maxHeight := by
  unfold parseFrom at heq
  split at heq
  · split at heq
    · cases heq
    · cases heq
      exact readHeight_eq_some ‹_›
  · split at heq
    · cases heq
    · cases heq
      exact ⟨le_rfl, by decide⟩

/-- An accepted entry keeps the list accepted. -/
lemma Accepted.append {entries : List Entry} (h : Accepted entries) {raw : List Char} {e : Entry}
    (heq : parseEntry entries raw = .ok e) : Accepted (entries ++ [e]) := by
  unfold parseEntry at heq
  dsimp only at heq
  split at heq
  · cases heq
  rename_i flux hflux
  split at heq
  · cases heq
  rename_i from_ hfrom
  have hwire : ∀ e ∈ entries ++ [⟨from_, flux⟩],
      FluxOnWire e.flux ∧ 0 ≤ e.from_ ∧ e.from_ ≤ maxHeight := by
    intro e he
    rcases List.mem_append.mp he with he | he
    · exact h.onWire e he
    · obtain rfl := List.mem_singleton.mp he
      exact ⟨readFlux_eq_some hflux, parseFrom_eq_ok hfrom⟩
  split at heq
  · rename_i hnone
    obtain rfl := List.getLast?_eq_none_iff.mp hnone
    split at heq
    · cases heq
    · rename_i h0
      cases heq
      refine ⟨fun e he => ?_, List.pairwise_singleton _ _, hwire⟩
      obtain rfl : (⟨from_, flux⟩ : Entry) = e := by simpa using he
      exact not_not.mp h0
  · rename_i last hlast
    split at heq
    · cases heq
    · rename_i hgt
      cases heq
      obtain ⟨init, rfl⟩ := List.getLast?_eq_some_iff.mp hlast
      refine ⟨fun e he => h.startsAtZero e ?_, ?_, hwire⟩
      · rwa [List.head?_append_of_ne_nil _ (by simp)] at he
      · refine List.pairwise_append.mpr ⟨h.increasing, List.pairwise_singleton _ _, ?_⟩
        intro a ha b hb
        obtain rfl := List.mem_singleton.mp hb
        have hlt : last.from_ < from_ := Int.not_le.mp hgt
        rcases List.mem_append.mp ha with ha | ha
        · exact ((List.pairwise_append.mp h.increasing).2.2 a ha last (by simp)).trans hlt
        · obtain rfl := List.mem_singleton.mp ha
          exact hlt

lemma Accepted.parseEntries {entries entries' : List Entry} {parts : List (List Char)}
    (h : Accepted entries) (heq : parseEntries entries parts = .ok entries') :
    Accepted entries' ∧ entries'.length = entries.length + parts.length := by
  induction parts generalizing entries with
  | nil =>
      cases heq
      exact ⟨h, rfl⟩
  | cons raw parts ih =>
      rw [CumulusVpn.parseEntries] at heq
      split at heq
      · cases heq
      · obtain ⟨hacc, hlen⟩ := ih (h.append ‹_›) heq
        refine ⟨hacc, ?_⟩
        simp only [hlen, List.length_append, List.length_cons, List.length_nil]
        omega

/-- Accepted entries make a schedule. -/
def Accepted.schedule {entries : List Entry} (h : Accepted entries) (hne : entries ≠ []) :
    Schedule where
  entries := entries
  nonempty := hne
  startsAtZero := h.startsAtZero _ (List.head?_eq_some_head hne)
  increasing := h.increasing
  positive := fun e he => (h.onWire e he).1.1

/-- `Parse`: reads the wire format. -/
def parse (s : String) : Except PriceError Schedule :=
  let cs := trimSpace s.toList
  if cs = [] then .error .emptySchedule
  else
    let parts := cs.splitOn ','
    if parts.length > maxEntries then .error (.tooMany parts.length)
    else
      match heq : parseEntries [] parts with
      | .error err => .error err
      | .ok entries =>
          have h := Accepted.parseEntries ⟨by simp, List.Pairwise.nil, by simp⟩ heq
          have hne : entries ≠ [] := by
            rintro rfl
            have hlen : parts.length = 0 := by simpa using h.2.symm
            exact List.splitOn_ne_nil ',' cs (List.length_eq_zero_iff.mp hlen)
          .ok (h.1.schedule hne)

namespace Schedule

/-- The schedules the format can carry. -/
structure OnWire (s : Schedule) : Prop where
  len : s.len ≤ maxEntries
  entry : ∀ e ∈ s.entries, FluxOnWire e.flux ∧ e.from_ ≤ maxHeight

end Schedule

/-- The parser builds only schedules the format can carry. -/
theorem onWire_of_parse {text : String} {s : Schedule} (h : parse text = .ok s) : s.OnWire := by
  unfold parse at h
  dsimp only at h
  split at h
  · cases h
  · split at h
    · cases h
    · rename_i hlen
      split at h
      · cases h
      · rename_i entries heq
        cases h
        obtain ⟨hacc, hcount⟩ := Accepted.parseEntries ⟨by simp, List.Pairwise.nil, by simp⟩ heq
        refine ⟨?_, fun e he => ⟨(hacc.onWire e he).1, (hacc.onWire e he).2.2⟩⟩
        show entries.length ≤ maxEntries
        simp only [List.length_nil, Nat.zero_add] at hcount
        omega

/-! ### The canonical text -/

/-- `strconv.FormatFloat(q, 'f', -1, 64)`: the shortest decimal text. -/
def formatFlux (q : ℚ) : List Char := Decimal.text 8 (q * 10 ^ 8).floor.toNat

/-- `strconv.FormatInt(h, 10)`. -/
def formatHeight (h : Int) : List Char :=
  (if h < 0 then ['-'] else []) ++ Nat.toDigits 10 h.natAbs

/-- The text of an entry. -/
def entryText (e : Entry) : List Char := formatFlux e.flux ++ '@' :: formatHeight e.from_

/-- `String`: the canonical wire form. -/
def Schedule.toString (s : Schedule) : String :=
  String.ofList ([','].intercalate (s.entries.map entryText))

/-! ### The canonical text parses back -/

/-- The characters of canonical texts. -/
def IsWireChar (c : Char) : Prop := c.isDigit ∨ c = '.' ∨ c = '@' ∨ c = ','

lemma isSpace_of_isWireChar {c : Char} (h : IsWireChar c) : isSpace c = false := by
  rcases h with h | rfl | rfl | rfl
  · obtain ⟨hlo, hhi⟩ := Char.isDigit_iff_toNat.mp h
    have h0 : '0'.toNat = 48 := rfl
    have h9 : '9'.toNat = 57 := rfl
    exact Trim.isWhitespace_eq_false (by omega) (by omega)
  · rfl
  · rfl
  · rfl

/-- A text without white space is not trimmed. -/
lemma trimSpace_of_not_isSpace {cs : List Char} (h : ∀ c ∈ cs, isSpace c = false) :
    trimSpace cs = cs := Trim.trim_of_forall h

lemma trimSpace_eq_self {cs : List Char} (h : ∀ c ∈ cs, IsWireChar c) : trimSpace cs = cs :=
  trimSpace_of_not_isSpace fun c hc => isSpace_of_isWireChar (h c hc)

lemma cut_append {c : Char} {as : List Char} (h : c ∉ as) (bs : List Char) :
    cut c (as ++ c :: bs) = (as, bs, true) := by
  have hp : ∀ d ∈ as, decide (d ≠ c) = true := fun d hd =>
    decide_eq_true fun heq => h (heq ▸ hd)
  have htake : (as ++ c :: bs).takeWhile (fun d => d ≠ c) = as := by
    rw [List.takeWhile_append_of_pos hp, List.takeWhile_cons_of_neg (by simp), List.append_nil]
  have hdrop : (as ++ c :: bs).dropWhile (fun d => d ≠ c) = c :: bs := by
    rw [List.dropWhile_append_of_pos hp, List.dropWhile_cons_of_neg (by simp)]
  rw [cut, htake, hdrop]
  simp

lemma isDigit_of_mem_formatFlux {q : ℚ} {c : Char} (h : c ∈ formatFlux q) :
    c.isDigit ∨ c = '.' :=
  Decimal.isDigit_of_mem_text h

lemma isDigit_of_mem_formatHeight {h : Int} (h0 : 0 ≤ h) {c : Char} (hc : c ∈ formatHeight h) :
    c.isDigit := by
  rw [formatHeight, if_neg (Int.not_lt.mpr h0), List.nil_append] at hc
  exact Nat.isDigit_of_mem_toDigits (by decide) le_rfl hc

lemma readFlux_formatFlux {q : ℚ} (h : FluxOnWire q) : readFlux (formatFlux q) = some q := by
  obtain ⟨hpos, n, hn, rfl⟩ := h
  have hfloor : ((n / 10 ^ 8 : ℚ) * 10 ^ 8).floor.toNat = n := by
    rw [div_mul_cancel₀ _ (by norm_num)]
    exact congrArg Int.toNat (Rat.floor_intCast n)
  rw [readFlux, formatFlux, hfloor, Decimal.read_text (by decide) hn,
    Option.filter_some, if_pos (by simpa using hpos)]

lemma readHeight_formatHeight {h : Int} (h0 : 0 ≤ h) (hmax : h ≤ maxHeight) :
    readHeight (formatHeight h) = some h := by
  have hval : Nat.ofDigitChars 10 (formatHeight h) 0 = h.natAbs := by
    rw [formatHeight, if_neg (Int.not_lt.mpr h0), List.nil_append, Nat.ofDigitChars_ten_toDigits]
  have hlen : (formatHeight h).length ≤ 16 := by
    rw [formatHeight, if_neg (Int.not_lt.mpr h0), List.nil_append,
      Nat.length_toDigits_le_iff (by decide) (by decide)]
    unfold maxHeight at hmax
    omega
  have hpos : 1 ≤ (formatHeight h).length := by
    rw [formatHeight, if_neg (Int.not_lt.mpr h0), List.nil_append]
    exact Nat.length_toDigits_pos
  have hall : (formatHeight h).all Char.isDigit :=
    List.all_eq_true.mpr fun c hc => isDigit_of_mem_formatHeight h0 hc
  have habs : (h.natAbs : Int) = h := Int.natAbs_of_nonneg h0
  rw [readHeight, hval, habs, if_pos ⟨hpos, hlen, hall, hmax⟩]

lemma isWireChar_of_mem_entryText {e : Entry} (h0 : 0 ≤ e.from_) {c : Char}
    (hc : c ∈ entryText e) : IsWireChar c ∧ c ≠ ',' := by
  rcases List.mem_append.mp hc with hc | hc
  · rcases isDigit_of_mem_formatFlux hc with h | rfl
    · exact ⟨Or.inl h, fun heq => by subst heq; revert h; decide⟩
    · exact ⟨Or.inr (Or.inl rfl), by decide⟩
  · rcases List.mem_cons.mp hc with rfl | hc
    · exact ⟨Or.inr (Or.inr (Or.inl rfl)), by decide⟩
    · have h := isDigit_of_mem_formatHeight h0 hc
      exact ⟨Or.inl h, fun heq => by subst heq; revert h; decide⟩

lemma cut_entryText (e : Entry) :
    cut '@' (entryText e) = (formatFlux e.flux, formatHeight e.from_, true) := by
  have hat : '@' ∉ formatFlux e.flux := fun hc => by
    rcases isDigit_of_mem_formatFlux hc with h | h
    · revert h; decide
    · revert h; decide
  exact cut_append hat _

/-- The text of an entry parses back, after the entries before it. -/
lemma parseEntry_entryText {entries : List Entry} {e : Entry} (hflux : FluxOnWire e.flux)
    (h0 : 0 ≤ e.from_) (hmax : e.from_ ≤ maxHeight) (hfirst : entries = [] → e.from_ = 0)
    (hlast : ∀ last ∈ entries, last.from_ < e.from_) :
    parseEntry entries (entryText e) = .ok e := by
  have htrim : trimSpace (entryText e) = entryText e :=
    trimSpace_eq_self fun c hc => (isWireChar_of_mem_entryText h0 hc).1
  have hflux' : trimSpace (formatFlux e.flux) = formatFlux e.flux :=
    trimSpace_eq_self fun c hc => (isDigit_of_mem_formatFlux hc).imp_right Or.inl
  have hheight' : trimSpace (formatHeight e.from_) = formatHeight e.from_ :=
    trimSpace_eq_self fun c hc => Or.inl (isDigit_of_mem_formatHeight h0 hc)
  have hfrom :
      parseFrom entries.length (entryText e) (formatHeight e.from_) true = .ok e.from_ := by
    rw [parseFrom, if_pos rfl, readHeight_formatHeight h0 hmax]
  unfold parseEntry
  simp only [htrim, cut_entryText, hflux', hheight', readFlux_formatFlux hflux, hfrom]
  cases hl : entries.getLast? with
  | none =>
      have hzero := hfirst (List.getLast?_eq_none_iff.mp hl)
      simp only [ne_eq, hzero, not_true_eq_false, if_false]
      rw [← hzero]
  | some last =>
      have hlt := hlast last (List.mem_of_getLast? hl)
      simp [Int.not_le.mpr hlt]

lemma parseEntries_map_entryText {entries rest : List Entry}
    (hwire : ∀ e ∈ rest, FluxOnWire e.flux ∧ 0 ≤ e.from_ ∧ e.from_ ≤ maxHeight)
    (hfirst : entries = [] → ∀ e ∈ rest.head?, e.from_ = 0)
    (hsorted : (entries ++ rest).Pairwise fun e f => e.from_ < f.from_) :
    parseEntries entries (rest.map entryText) = .ok (entries ++ rest) := by
  induction rest generalizing entries with
  | nil => rw [List.append_nil]; rfl
  | cons e rest ih =>
      obtain ⟨hflux, h0, hmax⟩ := hwire e List.mem_cons_self
      have hlast : ∀ last ∈ entries, last.from_ < e.from_ := fun last hl =>
        (List.pairwise_append.mp hsorted).2.2 last hl e List.mem_cons_self
      have happ : entries ++ e :: rest = (entries ++ [e]) ++ rest := by simp
      rw [List.map_cons, parseEntries,
        parseEntry_entryText hflux h0 hmax (fun h => hfirst h e rfl) hlast, happ]
      exact ih (fun f hf => hwire f (List.mem_cons_of_mem _ hf)) (fun h => by simp at h)
        (happ ▸ hsorted)

lemma mem_intercalate_comma {parts : List (List Char)} {c : Char}
    (h : c ∈ [','].intercalate parts) : c = ',' ∨ ∃ p ∈ parts, c ∈ p := by
  induction parts with
  | nil => cases h
  | cons p parts ih =>
      cases parts with
      | nil => exact Or.inr ⟨p, List.mem_cons_self, by simpa [List.intercalate] using h⟩
      | cons q parts =>
          have hcons : [','].intercalate (p :: q :: parts) =
              p ++ ',' :: [','].intercalate (q :: parts) := by
            simp [List.intercalate]
          rw [hcons] at h
          rcases List.mem_append.mp h with h | h
          · exact Or.inr ⟨p, List.mem_cons_self, h⟩
          · rcases List.mem_cons.mp h with h | h
            · exact Or.inl h
            · exact (ih h).imp_right fun ⟨r, hr, hc⟩ => ⟨r, List.mem_cons_of_mem _ hr, hc⟩

lemma Schedule.from_nonneg_of_mem (s : Schedule) {e : Entry} (he : e ∈ s.entries) :
    0 ≤ e.from_ := by
  obtain ⟨i, hi, rfl⟩ := List.getElem_of_mem he
  have := s.from_nonneg hi
  rwa [Schedule.entry, List.getD_eq_getElem _ _ hi] at this

lemma isWireChar_of_mem_texts {entries : List Entry} (h0 : ∀ e ∈ entries, 0 ≤ e.from_) {c : Char}
    (hc : c ∈ [','].intercalate (entries.map entryText)) : IsWireChar c := by
  rcases mem_intercalate_comma hc with rfl | ⟨p, hp, hcp⟩
  · exact Or.inr (Or.inr (Or.inr rfl))
  · obtain ⟨e, he, rfl⟩ := List.mem_map.mp hp
    exact (isWireChar_of_mem_entryText (h0 e he) hcp).1

/-- The joined texts of entries are taken apart again: what is parsed is each
of them. -/
lemma parse_entryTexts {entries : List Entry} {text : String} (hne : entries ≠ [])
    (h0 : ∀ e ∈ entries, 0 ≤ e.from_) (hlen : entries.length ≤ maxEntries)
    (htext : text.toList = [','].intercalate (entries.map entryText)) :
    (parse text).map Schedule.entries = parseEntries [] (entries.map entryText) := by
  have hne : entries.map entryText ≠ [] := by simpa using hne
  have hsplit : ([','].intercalate (entries.map entryText)).splitOn ',' =
      entries.map entryText := by
    refine List.splitOn_intercalate ',' (fun p hp hc => ?_) hne
    obtain ⟨e, he, rfl⟩ := List.mem_map.mp hp
    exact (isWireChar_of_mem_entryText (h0 e he) hc).2 rfl
  have hnil : [','].intercalate (entries.map entryText) ≠ [] := fun hnil => by
    rw [hnil, List.splitOn_nil] at hsplit
    have hmem : [] ∈ entries.map entryText := hsplit ▸ List.mem_singleton_self _
    obtain ⟨e, -, he⟩ := List.mem_map.mp hmem
    simp [entryText] at he
  have hcount : ¬ (entries.map entryText).length > maxEntries := by
    rw [List.length_map]
    exact Nat.not_lt.mpr hlen
  have htext : trimSpace text.toList = [','].intercalate (entries.map entryText) := by
    rw [htext, trimSpace_eq_self fun c hc => isWireChar_of_mem_texts h0 hc]
  unfold parse
  dsimp only
  rw [if_neg (htext ▸ hnil), if_neg (by rwa [htext, hsplit])]
  split
  · rename_i err heq
    rw [htext, hsplit] at heq
    rw [heq]
    rfl
  · rename_i accepted heq
    rw [htext, hsplit] at heq
    rw [heq]
    rfl

/-- What is parsed has the entries that were accepted. -/
lemma parse_eq_ok_of_entries {text : String} {s : Schedule}
    (h : (parse text).map Schedule.entries = .ok s.entries) : parse text = .ok s := by
  cases hparse : parse text with
  | error err =>
      rw [hparse] at h
      cases h
  | ok t =>
      rw [hparse] at h
      have hentries : t.entries = s.entries := Except.ok.inj h
      rw [Schedule.ext hentries]

/-- **The canonical text of a schedule parses back to it.** -/
theorem parse_toString {s : Schedule} (h : s.OnWire) : parse s.toString = .ok s := by
  have h0 : ∀ e ∈ s.entries, 0 ≤ e.from_ := fun e he => s.from_nonneg_of_mem he
  have hentries : parseEntries [] (s.entries.map entryText) = .ok s.entries :=
    parseEntries_map_entryText (fun e he => ⟨(h.entry e he).1, h0 e he, (h.entry e he).2⟩)
      (fun _ e he => by
        rw [List.head?_eq_some_head s.nonempty] at he
        cases he
        exact s.startsAtZero)
      s.increasing
  have htext : s.toString.toList = [','].intercalate (s.entries.map entryText) := by
    rw [Schedule.toString, String.toList_ofList]
  exact parse_eq_ok_of_entries ((parse_entryTexts s.nonempty h0 h.len htext).trans hentries)

end CumulusVpn
