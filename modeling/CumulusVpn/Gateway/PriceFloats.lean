/-
Price schedules as the gateway holds them (`Parse` and `String` of
`gateway/internal/price/price.go`): a price is a `float64`, which `ParseFloat`
rounds the decimal to and `FormatFloat` prints as the shortest one.

* `parseFloats`: `Parse`, over the grammar of `parse`;
* `Schedule.Floats`: the schedules it builds (`floats_of_parseFloats`);
* `Schedule.printed`: `String`;
* `Schedule.Printable`: no price is ten to the ninth, which has a digit more
  than the grammar takes;
* `parseFloats_printed`: **a printable schedule is read back from its text**;
* `parseFloats_printed_error`: **no other is**.
-/
import CumulusVpn.Gateway.PriceText
import CumulusVpn.Lib.Binary64

namespace CumulusVpn

/-! ### Parsing -/

/-- The least price that the format can carry is above `2 ^ (-27)`, which is a
`float64`. -/
lemma FluxOnWire.round_pos {q : ℚ} (h : FluxOnWire q) : 0 < Binary64.round q := by
  obtain ⟨hpos, n, -, rfl⟩ := h
  have hn : (1 : ℚ) ≤ n := by
    have hne : n ≠ 0 := by
      rintro rfl
      simp at hpos
    exact_mod_cast Nat.one_le_iff_ne_zero.mpr hne
  have hsmall : ((1 : ℤ) * 2 ^ (-27 : ℤ) : ℚ) ≤ n / 10 ^ 8 := by
    rw [le_div_iff₀ (by norm_num)]
    refine le_trans ?_ hn
    norm_num
  have hround := Binary64.round_mono (by norm_num) hsmall
  rw [Binary64.round_eq_self (by norm_num) (by norm_num) (by norm_num)] at hround
  exact lt_of_lt_of_le (by norm_num) hround

namespace Schedule

/-- The schedule with its prices rounded. -/
def rounded (s : Schedule) (h : s.OnWire) : Schedule where
  entries := s.entries.map fun e => { e with flux := Binary64.round e.flux }
  nonempty := by simpa using s.nonempty
  startsAtZero := by
    rw [List.head_map]
    exact s.startsAtZero
  increasing := List.pairwise_map.mpr s.increasing
  positive := by
    intro e he
    obtain ⟨f, hf, rfl⟩ := List.mem_map.mp he
    exact (h.entry f hf).1.round_pos

/-- The schedules that the gateway can hold: each price is what one that the
format can carry is rounded to. -/
structure Floats (s : Schedule) : Prop where
  len : s.len ≤ maxEntries
  entry : ∀ e ∈ s.entries,
    (∃ q, FluxOnWire q ∧ e.flux = Binary64.round q) ∧ e.from_ ≤ maxHeight

end Schedule

/-- `Parse`, with the prices that `strconv.ParseFloat` makes of the texts. -/
def parseFloats (text : String) : Except PriceError Schedule :=
  match h : parse text with
  | .error err => .error err
  | .ok s => .ok (s.rounded (onWire_of_parse h))

lemma parseFloats_of_ok {text : String} {s : Schedule} (h : parse text = .ok s) :
    parseFloats text = .ok (s.rounded (onWire_of_parse h)) := by
  unfold parseFloats
  split
  · rename_i err herr
    rw [h] at herr
    cases herr
  · rename_i t ht
    obtain rfl : s = t := Except.ok.inj (h.symm.trans ht)
    rfl

lemma parseFloats_of_error {text : String} {err : PriceError} (h : parse text = .error err) :
    parseFloats text = .error err := by
  unfold parseFloats
  split
  · rename_i err' herr
    rw [← herr, h]
  · rename_i t ht
    rw [h] at ht
    cases ht

/-- The gateway holds no other schedules. -/
theorem floats_of_parseFloats {text : String} {s : Schedule} (h : parseFloats text = .ok s) :
    s.Floats := by
  cases hparse : parse text with
  | error err =>
      rw [parseFloats_of_error hparse] at h
      cases h
  | ok t =>
      rw [parseFloats_of_ok hparse] at h
      obtain rfl := Except.ok.inj h
      have hwire := onWire_of_parse hparse
      refine ⟨by simpa [Schedule.len, Schedule.rounded] using hwire.len, fun e he => ?_⟩
      obtain ⟨f, hf, rfl⟩ := List.mem_map.mp he
      exact ⟨⟨f.flux, (hwire.entry f hf).1, rfl⟩, (hwire.entry f hf).2⟩

/-! ### Printing -/

/-- The decimal that is printed for a price: the shortest one that
`ParseFloat` rounds back to it. -/
def shortestFlux (x : ℚ) : ℚ := (Binary64.shortest 8 x).getD x

/-- `strconv.FormatFloat(x, 'f', -1, 64)`. -/
def formatFloat (x : ℚ) : List Char := formatFlux (shortestFlux x)

/-- The text of an entry, by the shortest decimal of its price. -/
def floatEntryText (e : Entry) : List Char := formatFloat e.flux ++ '@' :: formatHeight e.from_

/-- `String`: the text that a snapshot stores. -/
def Schedule.printed (s : Schedule) : String :=
  String.ofList ([','].intercalate (s.entries.map floatEntryText))

/-- Every price has at most nine integer digits. -/
def Schedule.Printable (s : Schedule) : Prop := ∀ e ∈ s.entries, e.flux < 10 ^ 9

instance (s : Schedule) : Decidable s.Printable := inferInstanceAs (Decidable (∀ e ∈ _, _))

/-- The entry whose exact text is printed. -/
def Entry.shortest (e : Entry) : Entry := { e with flux := shortestFlux e.flux }

lemma map_floatEntryText (entries : List Entry) :
    entries.map floatEntryText = (entries.map Entry.shortest).map entryText := by
  rw [List.map_map]
  rfl

/-! ### What is printed is read back -/

lemma ten_pow_nine_round : Binary64.round (10 ^ 9) = 10 ^ 9 := by
  have hwhole := Binary64.round_natCast (n := 10 ^ 9) (by norm_num)
  exact_mod_cast hwhole

section Shortest

variable {q : ℚ}

/-- A price is what the decimal printed for it is rounded to. -/
lemma FluxOnWire.round_shortestFlux (h : FluxOnWire q) :
    Binary64.round (shortestFlux (Binary64.round q)) = Binary64.round q := by
  obtain ⟨-, n, -, rfl⟩ := h
  obtain ⟨d, hd, hround, -⟩ := Binary64.shortest_spec n 8
  rw [shortestFlux, hd, Option.getD_some, hround]

/-- The decimal has at most eight places, as the format wants, and nine digits
before them when the price has. -/
lemma FluxOnWire.shortestFlux (h : FluxOnWire q) (hlt : Binary64.round q < 10 ^ 9) :
    FluxOnWire (shortestFlux (Binary64.round q)) := by
  have hpos := h.round_pos
  obtain ⟨-, n, -, rfl⟩ := h
  obtain ⟨d, hd, hround, k, hk, m, rfl⟩ := Binary64.shortest_spec n 8
  rw [CumulusVpn.shortestFlux, hd, Option.getD_some]
  rw [← hround] at hlt hpos
  have hnonneg : (0 : ℚ) ≤ m / 10 ^ k := by positivity
  have hdigits : (m / 10 ^ k : ℚ) < 10 ^ 9 := by
    by_contra hge
    have hmono := Binary64.round_mono (by norm_num) (not_lt.mp hge)
    rw [ten_pow_nine_round] at hmono
    exact absurd hlt hmono.not_gt
  have hscale : (10 : ℚ) ^ 8 = 10 ^ (8 - k) * 10 ^ k := by rw [← pow_add, Nat.sub_add_cancel hk]
  refine ⟨Binary64.pos_of_round_pos hnonneg hpos, m * 10 ^ (8 - k), ?_, ?_⟩
  · have hcast : (m * 10 ^ (8 - k) : ℚ) < 10 ^ 17 := by
      calc (m * 10 ^ (8 - k) : ℚ) = m / 10 ^ k * 10 ^ 8 := by
            rw [hscale]
            field_simp
        _ < 10 ^ 9 * 10 ^ 8 := by gcongr
        _ = 10 ^ 17 := by norm_num
    exact_mod_cast hcast
  · rw [hscale]
    push_cast
    field_simp

end Shortest

namespace Schedule

variable {s : Schedule}

lemma Floats.length_shortest (h : s.Floats) :
    (s.entries.map Entry.shortest).length ≤ maxEntries := by
  rw [List.length_map]
  exact h.len

lemma from_nonneg_of_mem_shortest (s : Schedule) :
    ∀ e ∈ s.entries.map Entry.shortest, 0 ≤ e.from_ := by
  intro e he
  obtain ⟨f, hf, rfl⟩ := List.mem_map.mp he
  exact s.from_nonneg_of_mem (e := f) hf

/-- The text is parsed entry by entry. -/
lemma Floats.parse_printed (h : s.Floats) :
    (parse s.printed).map Schedule.entries =
      parseEntries [] ((s.entries.map Entry.shortest).map entryText) := by
  refine parse_entryTexts (by simpa using s.nonempty) s.from_nonneg_of_mem_shortest
    h.length_shortest ?_
  rw [printed, String.toList_ofList, map_floatEntryText]

/-- **A printable schedule is read back from the text that is printed for
it.** -/
theorem parseFloats_printed (h : s.Floats) (hprintable : s.Printable) :
    parseFloats s.printed = .ok s := by
  have hwire : ∀ e ∈ s.entries.map Entry.shortest,
      FluxOnWire e.flux ∧ 0 ≤ e.from_ ∧ e.from_ ≤ maxHeight := by
    intro e he
    have h0 := s.from_nonneg_of_mem_shortest e he
    obtain ⟨f, hf, rfl⟩ := List.mem_map.mp he
    obtain ⟨⟨q, hq, hflux⟩, hmax⟩ := h.entry f hf
    have hlt := hprintable f hf
    rw [hflux] at hlt
    refine ⟨?_, h0, hmax⟩
    rw [Entry.shortest, hflux]
    exact hq.shortestFlux hlt
  have hparsed : parseEntries [] ((s.entries.map Entry.shortest).map entryText) =
      .ok (s.entries.map Entry.shortest) := by
    refine parseEntries_map_entryText hwire (fun _ e he => ?_) (List.pairwise_map.mpr s.increasing)
    rw [List.head?_map, List.head?_eq_some_head s.nonempty] at he
    obtain rfl := Option.mem_some.mp he
    exact s.startsAtZero
  cases hparse : parse s.printed with
  | error err =>
      have herr := h.parse_printed
      rw [hparse, hparsed] at herr
      cases herr
  | ok t =>
      have hentries := h.parse_printed
      rw [hparse, hparsed] at hentries
      have ht : t.entries = s.entries.map Entry.shortest := Except.ok.inj hentries
      rw [parseFloats_of_ok hparse]
      refine congrArg Except.ok (Schedule.ext ?_)
      show t.entries.map (fun e => { e with flux := Binary64.round e.flux }) = s.entries
      -- each price is rounded back to what was printed
      have hback : ∀ e ∈ s.entries,
          ({ e.shortest with flux := Binary64.round e.shortest.flux } : Entry) = e := by
        intro e he
        obtain ⟨⟨q, hq, hflux⟩, -⟩ := h.entry e he
        have hround : Binary64.round e.shortest.flux = e.flux := by
          rw [Entry.shortest, hflux, hq.round_shortestFlux]
        rw [hround]
        rfl
      rw [ht, List.map_map]
      exact (List.map_congr_left hback).trans (List.map_id' _)

end Schedule

/-! ### What is printed and refused -/

/-- A text that is refused after any entries is refused among others. -/
lemma parseEntries_error_of_mem {raw : List Char} {parts : List (List Char)} (hmem : raw ∈ parts)
    (hraw : ∀ entries, ∃ err, parseEntry entries raw = .error err) (entries : List Entry) :
    ∃ err, parseEntries entries parts = .error err := by
  induction parts generalizing entries with
  | nil => cases hmem
  | cons part parts ih =>
      rw [parseEntries]
      cases hpart : parseEntry entries part with
      | error err => exact ⟨err, rfl⟩
      | ok e =>
          rcases List.mem_cons.mp hmem with rfl | hmem
          · obtain ⟨err, herr⟩ := hraw entries
            rw [hpart] at herr
            cases herr
          · exact ih hmem _

/-- Ten integer digits are no price. -/
lemma parseEntry_ten_digits (entries : List Entry) {e : Entry} (h0 : 0 ≤ e.from_)
    (hflux : e.flux = 10 ^ 9) : ∃ err, parseEntry entries (entryText e) = .error err := by
  have htrim : trimSpace (entryText e) = entryText e :=
    trimSpace_eq_self fun c hc => (isWireChar_of_mem_entryText h0 hc).1
  have hflux' : trimSpace (formatFlux e.flux) = formatFlux e.flux :=
    trimSpace_eq_self fun c hc => (isDigit_of_mem_formatFlux hc).imp_right Or.inl
  have hread : readFlux (formatFlux e.flux) = none := by
    rw [hflux]
    decide +kernel
  unfold parseEntry
  simp only [htrim, cut_entryText, hflux', hread]
  exact ⟨_, rfl⟩

/-- The greatest price that the format can carry is rounded up to `10 ^ 9`. -/
lemma FluxOnWire.round_le {q : ℚ} (h : FluxOnWire q) : Binary64.round q ≤ 10 ^ 9 := by
  obtain ⟨hpos, n, hn, rfl⟩ := h
  have hle : (n / 10 ^ 8 : ℚ) ≤ 10 ^ 9 := by
    rw [div_le_iff₀ (by norm_num)]
    exact_mod_cast hn.le
  calc Binary64.round (n / 10 ^ 8) ≤ Binary64.round (10 ^ 9) := Binary64.round_mono hpos.le hle
    _ = 10 ^ 9 := ten_pow_nine_round

lemma shortestFlux_ten_pow_nine : shortestFlux (10 ^ 9) = 10 ^ 9 := by decide +kernel

/-- **A schedule that is not printable is refused when it is read back.** -/
theorem Schedule.parseFloats_printed_error {s : Schedule} (h : s.Floats) (hnot : ¬ s.Printable) :
    ∃ err, parseFloats s.printed = .error err := by
  obtain ⟨e, he, hge⟩ : ∃ e ∈ s.entries, ¬ e.flux < 10 ^ 9 := by simpa [Printable] using hnot
  obtain ⟨⟨q, hq, hflux⟩, -⟩ := h.entry e he
  have hten : e.flux = 10 ^ 9 := le_antisymm (hflux.trans_le hq.round_le) (not_lt.mp hge)
  have hshortest : e.shortest.flux = 10 ^ 9 := by
    rw [Entry.shortest, hten]
    exact shortestFlux_ten_pow_nine
  have hmem : entryText e.shortest ∈ (s.entries.map Entry.shortest).map entryText :=
    List.mem_map_of_mem (List.mem_map_of_mem he)
  have h0 : 0 ≤ e.shortest.from_ := s.from_nonneg_of_mem (e := e) he
  obtain ⟨err, herr⟩ := parseEntries_error_of_mem hmem
    (fun entries => parseEntry_ten_digits entries h0 hshortest) []
  cases hparse : parse s.printed with
  | error err => exact ⟨err, parseFloats_of_error hparse⟩
  | ok t =>
      have hparsed := h.parse_printed
      rw [hparse, herr] at hparsed
      cases hparsed

/-- The greatest price that is accepted has ten digits when it is printed. -/
example : (parseFloats "999999999.99999999").map Schedule.printed = .ok "1000000000@0" := by
  decide +kernel

end CumulusVpn
