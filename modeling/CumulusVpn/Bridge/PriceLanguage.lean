/-
One language of price schedules: the gateway's `Parse`, and its ports
(`bridge/src/price.ts`, `deploy/scripts/price.mjs`).

* `Bridge.PriceSchedule.parse`, `Deploy.parseSchedule`: the ports, which trim
  what `String.prototype.trim` trims;
* `toFixed8`, `dropZeros`: how the ports print a price;
* `formatFlux_eq`: as the gateway does;
* `OneLanguage`: the three parsers agree on a text, and read each other's
  canonical texts;
* `one_language`: **they do on every text but the schedules with one kind of
  white space that only one side trims**; `not_one_language` is such a text.
-/
import CumulusVpn.Gateway.ScheduleText
import CumulusVpn.Split.Cidr
import Mathlib.Logic.Basic

namespace CumulusVpn

open Trim

/-! ### The ports -/

/-- `toFixed(8)` of a positive number. -/
def toFixed8 (flux : ℚ) : List Char :=
  let n := (flux * 10 ^ 8 + 1 / 2).floor.toNat
  Nat.toDigits 10 (n / 10 ^ 8) ++ '.' :: Decimal.fixed 8 (n % 10 ^ 8)

/-- `replace(/\.?0+$/, '')`: without the zeros at the end, and the point before
them. -/
def dropZeros (cs : List Char) : List Char :=
  let body := Decimal.stripZeros cs
  if body ≠ cs ∧ body.getLast? = some '.' then body.dropLast else body

namespace Bridge

/-- The text of a price. -/
def formatFlux (flux : ℚ) : List Char := dropZeros (toFixed8 flux)

namespace PriceSchedule

/-- The entries of a text, or why there are none. -/
def parse (raw : String) : Except PriceError (List Entry) :=
  parseScheduleWith Split.isSpace raw.toList

/-- The text of a schedule. -/
def toString (entries : List Entry) : String :=
  String.ofList ([','].intercalate
    (entries.map fun e => Bridge.formatFlux e.flux ++ '@' :: formatHeight e.from_))

end PriceSchedule

end Bridge

namespace Deploy

/-- The entries of a text, or why there are none. -/
def parseSchedule (raw : String) : Except PriceError (List Entry) :=
  parseScheduleWith Split.isSpace raw.toList

/-- The text of a price. -/
def formatFlux (flux : ℚ) : List Char := dropZeros (toFixed8 flux)

/-- The text of a schedule. -/
def formatSchedule (entries : List Entry) : String :=
  String.ofList ([','].intercalate
    (entries.map fun e => Deploy.formatFlux e.flux ++ '@' :: formatHeight e.from_))

end Deploy

/-! ### Canonical prices -/

/-- The ports print a price as the gateway does. -/
lemma formatFlux_eq {q : ℚ} (h : FluxOnWire q) : dropZeros (toFixed8 q) = formatFlux q := by
  obtain ⟨-, n, -, rfl⟩ := h
  have hscale : (n / 10 ^ 8 : ℚ) * 10 ^ 8 = n := div_mul_cancel₀ _ (by norm_num)
  have hround : ((n / 10 ^ 8 : ℚ) * 10 ^ 8 + 1 / 2).floor.toNat = n := by
    have hfloor : ⌊(n : ℚ) + 1 / 2⌋ = n := by
      rw [Int.floor_natCast_add]
      norm_num
    rw [hscale]
    exact congrArg Int.toNat hfloor
  have hfloor : ((n / 10 ^ 8 : ℚ) * 10 ^ 8).floor.toNat = n := by
    rw [hscale]
    exact congrArg Int.toNat (Rat.floor_intCast n)
  rw [toFixed8, hround, formatFlux, hfloor, Decimal.text]
  generalize Nat.toDigits 10 (n / 10 ^ 8) = int
  have hlen : (Decimal.fixed 8 (n % 10 ^ 8)).length = 8 := Decimal.length_fixed _ _
  have hdigits : ∀ c ∈ Decimal.stripZeros (Decimal.fixed 8 (n % 10 ^ 8)), c.isDigit := fun c hc =>
    Decimal.isDigit_of_mem_stripZeros (fun _ => Decimal.isDigit_of_mem_fixed) hc
  generalize Decimal.fixed 8 (n % 10 ^ 8) = frac at hlen hdigits ⊢
  rw [dropZeros, Decimal.stripZeros_append_cons (by decide)]
  by_cases hnil : Decimal.stripZeros frac = []
  · have hne : int ++ ['.'] ≠ int ++ '.' :: frac := fun heq => by
      have := congrArg List.length heq
      simp [hlen] at this
    rw [hnil, if_pos ⟨hne, List.getLast?_concat⟩, if_pos rfl, List.dropLast_concat, List.append_nil]
  · have hlast : (int ++ '.' :: Decimal.stripZeros frac).getLast? ≠ some '.' := fun heq => by
      rw [List.append_cons, List.getLast?_append_of_ne_nil _ hnil] at heq
      exact absurd (hdigits '.' (List.mem_of_getLast? heq)) (by decide)
    rw [if_neg fun hboth => hlast hboth.2, if_neg hnil]

lemma toString_eq {s : Schedule} (h : s.OnWire) :
    Bridge.PriceSchedule.toString s.entries = s.toString ∧
      Deploy.formatSchedule s.entries = s.toString := by
  have htexts :
      (s.entries.map fun e => dropZeros (toFixed8 e.flux) ++ '@' :: formatHeight e.from_) =
      s.entries.map entryText :=
    List.map_congr_left fun e he => by rw [formatFlux_eq (h.entry e he).1, entryText]
  exact ⟨congrArg (fun texts => String.ofList ([','].intercalate texts)) htexts,
    congrArg (fun texts => String.ofList ([','].intercalate texts)) htexts⟩

/-! ### The white space -/

/-- What either side trims. -/
def isAnySpace (c : Char) : Bool := isSpace c || Split.isSpace c

/-- The sides trim the same, the next line and the byte order mark apart. -/
lemma isSpace_iff (c : Char) :
    isSpace c = true ↔ (Split.isSpace c = true ∧ c ≠ '\ufeff') ∨ c = '\x85' := by
  have heq : ∀ d : Char, c = d ↔ c.toNat = d.toNat := fun d => Char.toNat_inj.symm
  simp only [isSpace, Trim.isWhitespace, Split.isSpace, Trim.isControlSpace, Trim.isSeparator,
    Trim.isLineSeparator, Bool.or_eq_true, Bool.and_eq_true, decide_eq_true_eq, ne_eq, heq,
    Char.reduceToNat]
  omega

lemma splitIsSpace_wire (c : Char) (h : IsWireChar c) : Split.isSpace c = false := by
  have hne : c ≠ '\ufeff' := by
    rintro rfl
    rcases h with h | h | h | h
    all_goals exact absurd h (by decide)
  refine Bool.eq_false_iff.mpr fun hspace => ?_
  have := (isSpace_iff c).mpr (Or.inl ⟨hspace, hne⟩)
  rw [isSpace_of_isWireChar h] at this
  cases this

/-! ### One language -/

/-- The entries that the gateway takes from a text. -/
def gatewayEntries (text : String) : Option (List Entry) :=
  (parse text).toOption.map Schedule.entries

/-- Each canonical text of a schedule is the schedule to the other two. -/
structure RoundTrips (s : Schedule) : Prop where
  gateway : (Bridge.PriceSchedule.parse s.toString).toOption = some s.entries ∧
    (Deploy.parseSchedule s.toString).toOption = some s.entries
  bridge : gatewayEntries (Bridge.PriceSchedule.toString s.entries) = some s.entries ∧
    (Deploy.parseSchedule (Bridge.PriceSchedule.toString s.entries)).toOption = some s.entries
  deploy : gatewayEntries (Deploy.formatSchedule s.entries) = some s.entries ∧
    (Bridge.PriceSchedule.parse (Deploy.formatSchedule s.entries)).toOption = some s.entries

/-- The three parsers take the same entries from a text, or none; and what one
takes is a schedule that round trips. -/
structure OneLanguage (text : String) : Prop where
  bridge : (Bridge.PriceSchedule.parse text).toOption = gatewayEntries text
  deploy : (Deploy.parseSchedule text).toOption = gatewayEntries text
  canonical : ∀ entries, gatewayEntries text = some entries ∨
    (Bridge.PriceSchedule.parse text).toOption = some entries ∨
    (Deploy.parseSchedule text).toOption = some entries →
      ∃ s : Schedule, s.entries = entries ∧ RoundTrips s

/-- The text has white space that only the gateway trims, or white space that
only the ports trim, but not both. -/
def OneSided (text : String) : Prop :=
  ¬ ('\x85' ∈ text.toList ↔ '\ufeff' ∈ text.toList)

section Language

variable {text : String} {entries : List Entry}

lemma toOption_iff {ε α : Type*} {x : Except ε α} {a : α} : x.toOption = some a ↔ x = .ok a := by
  cases x <;> simp [Except.toOption]

lemma port_iff : (parseScheduleWith Split.isSpace text.toList).toOption = some entries ↔
    ScheduleText Split.isSpace text.toList entries := by
  rw [toOption_iff, parseScheduleWith_iff splitIsSpace_wire]

lemma gateway_iff : gatewayEntries text = some entries ↔
    ScheduleText isSpace text.toList entries := by
  rw [gatewayEntries, Option.map_eq_some_iff]
  constructor
  · rintro ⟨s, hs, rfl⟩
    exact parse_iff.mp (toOption_iff.mp hs)
  · intro h
    obtain ⟨s, rfl, -⟩ := h.exists_schedule
    exact ⟨s, toOption_iff.mpr (parse_iff.mpr h), rfl⟩

/-- A text without the next line is a schedule to the ports if it is one to the
gateway. -/
lemma port_of_gateway (h : ScheduleText isSpace text.toList entries)
    (hno : '\x85' ∉ text.toList) : ScheduleText Split.isSpace text.toList entries := by
  refine h.mono fun c hc hspace => ?_
  rcases (isSpace_iff c).mp hspace with hboth | rfl
  · exact hboth.1
  · exact absurd hc hno

lemma gateway_of_port (h : ScheduleText Split.isSpace text.toList entries)
    (hno : '\ufeff' ∉ text.toList) : ScheduleText isSpace text.toList entries := by
  refine h.mono fun c hc hspace => (isSpace_iff c).mpr (Or.inl ⟨hspace, ?_⟩)
  rintro rfl
  exact hno hc

/-- The ports refuse the next line. -/
lemma not_port (hmem : '\x85' ∈ text.toList) : ¬ ScheduleText Split.isSpace text.toList entries :=
  fun h => (h.chars _ hmem).elim (fun hspace => absurd hspace (by decide)) fun hwire => by
    rcases hwire with h | h | h | h
    all_goals exact absurd h (by decide)

/-- The gateway refuses the byte order mark. -/
lemma not_gateway (hmem : '\ufeff' ∈ text.toList) : ¬ ScheduleText isSpace text.toList entries :=
  fun h => (h.chars _ hmem).elim (fun hspace => absurd hspace (by decide)) fun hwire => by
    rcases hwire with h | h | h | h
    all_goals exact absurd h (by decide)

lemma roundTrips {s : Schedule} (h : s.OnWire) : RoundTrips s := by
  have hgateway : ScheduleText isSpace s.toString.toList s.entries :=
    parse_iff.mp (parse_toString h)
  have hno : '\x85' ∉ s.toString.toList := by
    rw [Schedule.toString, String.toList_ofList]
    intro hmem
    rcases isWireChar_of_mem_texts (fun _ he => s.from_nonneg_of_mem he) hmem with h | h | h | h
    all_goals exact absurd h (by decide)
  have hport := port_iff.mpr (port_of_gateway hgateway hno)
  obtain ⟨hbridge, hdeploy⟩ := toString_eq h
  refine ⟨⟨hport, hport⟩, ?_, ?_⟩
  · rw [hbridge]
    exact ⟨gateway_iff.mpr hgateway, hport⟩
  · rw [hdeploy]
    exact ⟨gateway_iff.mpr hgateway, hport⟩

/-- **One language**: the three parsers agree on a text unless it is a schedule
whose white space only one side trims. -/
theorem one_language (text : String) :
    OneLanguage text ↔
      ¬ (OneSided text ∧ ∃ entries, ScheduleText isAnySpace text.toList entries) := by
  constructor
  · rintro h ⟨hone, entries, hany⟩
    by_cases hline : '\x85' ∈ text.toList
    · have hmark : '\ufeff' ∉ text.toList := fun hmark => hone (iff_of_true hline hmark)
      have hgateway : ScheduleText isSpace text.toList entries := by
        refine hany.mono fun c hc hspace => ?_
        rcases Bool.or_eq_true_iff.mp hspace with hspace | hspace
        · exact hspace
        · refine (isSpace_iff c).mpr (Or.inl ⟨hspace, ?_⟩)
          rintro rfl
          exact hmark hc
      exact not_port hline (port_iff.mp (h.bridge.trans (gateway_iff.mpr hgateway)))
    · have hmark : '\ufeff' ∈ text.toList := by_contra fun hmark =>
        hone (iff_of_false hline hmark)
      have hport : ScheduleText Split.isSpace text.toList entries := by
        refine hany.mono fun c hc hspace => ?_
        rcases Bool.or_eq_true_iff.mp hspace with hspace | hspace
        · rcases (isSpace_iff c).mp hspace with hboth | rfl
          · exact hboth.1
          · exact absurd hc hline
        · exact hspace
      exact not_gateway hmark (gateway_iff.mp (h.bridge.symm.trans (port_iff.mpr hport)))
  · intro hno
    have hsame : ∀ entries, ScheduleText Split.isSpace text.toList entries ↔
        ScheduleText isSpace text.toList entries := by
      intro entries
      constructor
      · intro h
        refine gateway_of_port h fun hmark => hno ⟨fun hiff => ?_, entries, ?_⟩
        · exact not_port (hiff.mpr hmark) h
        · exact h.mono fun c _ hspace => Bool.or_eq_true_iff.mpr (Or.inr hspace)
      · intro h
        refine port_of_gateway h fun hline => hno ⟨fun hiff => ?_, entries, ?_⟩
        · exact not_gateway (hiff.mp hline) h
        · exact h.mono fun c _ hspace => Bool.or_eq_true_iff.mpr (Or.inl hspace)
    have hports : (parseScheduleWith Split.isSpace text.toList).toOption = gatewayEntries text := by
      refine Option.ext fun entries => ?_
      rw [port_iff, gateway_iff]
      exact hsame entries
    refine ⟨hports, hports, fun entries h => ?_⟩
    have hgateway : ScheduleText isSpace text.toList entries := by
      rcases h with h | h | h
      · exact gateway_iff.mp h
      · exact gateway_iff.mp (hports.symm.trans h)
      · exact gateway_iff.mp (hports.symm.trans h)
    obtain ⟨s, hs, hwire⟩ := hgateway.exists_schedule
    exact ⟨s, hs, roundTrips hwire⟩

/-- A price with the next line behind it is a schedule to the gateway only. -/
theorem not_one_language : ¬ ∀ text, OneLanguage text := by
  intro h
  have hgateway : (parseScheduleWith isSpace "20\x85".toList) = .ok [⟨0, 20⟩] := by
    decide +kernel
  have hbridge := (h "20\x85").bridge
  rw [gateway_iff.mpr ((parseScheduleWith_iff isSpace_wire).mp hgateway)] at hbridge
  exact not_port (by decide) (port_iff.mp hbridge)

end Language

end CumulusVpn
