/-
What the fleet update refuses to push (`deploy/scripts/price.mjs`,
`deploy/scripts/update-image.mjs`).

* `scheduleFromEnv`: the schedule that an app's environment stands for;
* `priceRefusal`: why a schedule is not pushed onto an app;
* `Schedule.restrict`: a prefix of a schedule is one;
* `exists_cheap`: below a stale rise there is no price above the live one;
* `priceRefusal_protects`: **whoever pays the price that the live schedule
  quoted is not judged by a higher one**, for what the grace leaves of the time.
-/
import CumulusVpn.Bridge.EffectivePrice
import CumulusVpn.Bridge.PriceLanguage

namespace CumulusVpn.Deploy

/-! ### The environment of an app -/

/-- What `Number` reads from a text. -/
inductive Number
  | finite (q : ℚ)
  | infinite (negative : Bool)
  | nan
deriving DecidableEq, Repr

namespace Number

/-- Digits with a point among them, or without one. -/
def readPlain (cs : List Char) : Option ℚ :=
  let int := cs.takeWhile (· ≠ '.')
  let frac := (cs.dropWhile (· ≠ '.')).tail
  if int.all Char.isDigit ∧ frac.all Char.isDigit ∧ int ++ frac ≠ [] then
    some (Decimal.value int frac)
  else none

/-- The exponent behind an `e`. -/
def readExponent (cs : List Char) : Option Int :=
  let digits := if cs.head? = some '-' ∨ cs.head? = some '+' then cs.tail else cs
  if digits ≠ [] ∧ digits.all Char.isDigit then
    some (if cs.head? = some '-' then -Nat.ofDigitChars 10 digits 0
      else Nat.ofDigitChars 10 digits 0)
  else none

/-- The number of a text without a sign, with an exponent or without. -/
def readUnsigned (cs : List Char) : Option ℚ :=
  let mantissa := cs.takeWhile fun c => c ≠ 'e' ∧ c ≠ 'E'
  match cs.dropWhile fun c => c ≠ 'e' ∧ c ≠ 'E' with
  | [] => readPlain mantissa
  | _ :: e => (readPlain mantissa).bind fun q => (readExponent e).map fun n => q * 10 ^ n

/-- `0x`, `0o` and `0b`. -/
def readRadix (cs : List Char) : Option ℚ :=
  match cs with
  | '0' :: c :: digits =>
      let base := if c = 'x' ∨ c = 'X' then 16 else if c = 'o' ∨ c = 'O' then 8
        else if c = 'b' ∨ c = 'B' then 2 else 0
      if digits ≠ [] ∧ digits.all fun d => Split.isHex d ∧ Split.hexDigitValue d < base then
        some ((digits.foldl (fun acc d => base * acc + Split.hexDigitValue d) 0 : Nat) : ℚ)
      else none
  | _ => none

/-- `Number(text)` -/
def read (text : List Char) : Number :=
  let cs := Split.trim text
  let unsigned := if cs.head? = some '-' ∨ cs.head? = some '+' then cs.tail else cs
  if cs = [] then finite 0
  else if unsigned = "Infinity".toList then infinite (cs.head? = some '-')
  else match readRadix cs, readUnsigned unsigned with
    | some q, _ => finite q
    | none, some q => finite (if cs.head? = some '-' then -q else q)
    | none, none => nan

example : read " 12.50 ".toList = finite (25 / 2) ∧ read "1e2".toList = finite 100 ∧
    read "20 FLUX".toList = nan := by decide +kernel

end Number

/-- The schedule of an app; a flat price may be `Infinity`. -/
inductive Live
  | schedule (entries : List Entry)
  | infinite
deriving DecidableEq, Repr

/-- `env.get(key)`: of the assignments to a variable the first one counts. -/
def envGet (envList : List String) (key : String) : Option (List Char) :=
  (envList.find? fun kv => '=' ∈ kv.toList ∧ kv.toList.takeWhile (· ≠ '=') = key.toList).map
    fun kv => (kv.toList.dropWhile (· ≠ '=')).tail

/-- The schedule that an environment stands for; none if it throws. -/
def scheduleFromEnv (envList : List String) : Option Live :=
  match (envGet envList "CVPN_PRICE_SCHEDULE").filter fun text => Split.trim text ≠ [] with
  | some text => (parseSchedule (String.ofList text)).toOption.map .schedule
  | none =>
      match ((envGet envList "CVPN_PRICE_FLUX").map Number.read).getD .nan with
      | .finite flux => if 0 < flux then some (.schedule [⟨0, flux⟩]) else none
      | .infinite false => some .infinite
      | .infinite true | .nan => none

/-! ### The refusal -/

/-- A new price rise older than this is refused: 24 h. -/
def staleEntryBlocks : Int := 24 * 3600 / 30

/-- Why a push is refused. -/
inductive Refusal
  /-- on-chain price is not a prefix: pushing it would re-judge past payments -/
  | notPrefix
  /-- price rise started too many blocks ago -/
  | staleRise (e : Entry)
deriving DecidableEq, Repr

/-- The first new rise that is stale at `height`. -/
def staleRise (live desired : List Entry) (height : Int) : Option Entry :=
  ((List.range desired.length).find? fun i =>
    i ≥ live.length ∧ i > 0 ∧ (desired.getD i default).flux > (desired.getD (i - 1) default).flux ∧
      height - (desired.getD i default).from_ > staleEntryBlocks).map fun i =>
        desired.getD i default

/-- Why pushing `desired` onto an app would be unsafe, for its live schedule. -/
def refusal (live desired : List Entry) (height : Int) (allowStale : Bool) : Option Refusal :=
  if ¬ live <+: desired then some .notPrefix
  else match staleRise live desired height with
    | some e => if allowStale then none else some (.staleRise e)
    | none => none

/-- And for its live environment; one that is not readable has nothing to
protect. -/
def priceRefusal (liveEnv : List String) (desired : List Entry) (height : Int)
    (allowStale : Bool) : Option Refusal :=
  match scheduleFromEnv liveEnv with
  | none => none
  | some .infinite => some .notPrefix
  | some (.schedule live) => refusal live desired height allowStale

/-! ### Prefixes of a schedule -/

/-- A schedule's entries come from a parser, or they are one flat price. -/
lemma scheduleFromEnv_ne_nil {envList : List String} {live : List Entry}
    (h : scheduleFromEnv envList = some (.schedule live)) : live ≠ [] := by
  rw [scheduleFromEnv] at h
  split at h
  · rename_i text _
    obtain ⟨entries, hparse, heq⟩ := Option.map_eq_some_iff.mp h
    cases heq
    have htext := (parseScheduleWith_iff splitIsSpace_wire).mp (toOption_iff.mp hparse)
    obtain ⟨s, rfl, -⟩ := htext.exists_schedule
    exact s.nonempty
  · split at h
    · split at h <;> cases h
      exact List.cons_ne_nil _ _
    · cases h
    · cases h
    · cases h

/-- A prefix of a schedule is a schedule. -/
def restrict (s : Schedule) (live : List Entry) (hne : live ≠ []) (hpre : live <+: s.entries) :
    Schedule where
  entries := live
  nonempty := hne
  startsAtZero := by
    obtain ⟨e, rest, rfl⟩ := List.exists_cons_of_ne_nil hne
    obtain ⟨more, hmore⟩ := hpre
    have hzero := s.startsAtZero
    simpa [← hmore] using hzero
  increasing := s.increasing.sublist hpre.sublist
  positive := fun e he => s.positive e (hpre.subset he)

lemma extends_restrict (s : Schedule) (live : List Entry) (hne : live ≠ [])
    (hpre : live <+: s.entries) : s.Extends (restrict s live hne hpre) (-1) :=
  ⟨hpre, fun hlt => by
    have hnonneg := s.from_nonneg hlt
    omega⟩

/-! ### The price that was quoted -/

section Quoted

variable {s t : Schedule} {height : Int}

/-- Among the entries behind the live ones, each is no dearer than the live
price, or a rise from below it comes before. -/
lemma le_or_rise {i : Nat} (hi : t.len - 1 ≤ i) :
    (s.entry i).flux ≤ (s.entry (t.len - 1)).flux ∨
      ∃ r, t.len ≤ r ∧ r ≤ i ∧ (s.entry (r - 1)).flux ≤ (s.entry (t.len - 1)).flux ∧
        (s.entry (r - 1)).flux < (s.entry r).flux := by
  have hlen := t.len_pos
  induction i, hi using Nat.le_induction with
  | base => exact Or.inl le_rfl
  | succ i hi ih =>
      rcases ih with hle | ⟨r, hr, hri, hrise⟩
      · by_cases hrise : (s.entry i).flux < (s.entry (i + 1)).flux
        · refine Or.inr ⟨i + 1, by omega, le_rfl, ?_⟩
          rw [Nat.add_sub_cancel]
          exact ⟨hle, hrise⟩
        · exact Or.inl ((not_lt.mp hrise).trans hle)
      · exact Or.inr ⟨r, hr, by omega, hrise⟩

/-- A rise that is not refused has started lately. -/
lemma not_stale (hnone : staleRise t.entries s.entries height = none) {r : Nat}
    (hr : t.len ≤ r) (hlen : r < s.len) (hrise : (s.entry (r - 1)).flux < (s.entry r).flux) :
    height - (s.entry r).from_ ≤ staleEntryBlocks := by
  rw [staleRise, Option.map_eq_none_iff, List.find?_eq_none] at hnone
  have hpos := t.len_pos
  have hno := hnone r (List.mem_range.mpr hlen)
  by_contra hstale
  exact hno (decide_eq_true ⟨hr, hpos.trans_le hr, hrise, not_le.mp hstale⟩)

/-- Within the time that the grace leaves, some price in force is no higher
than the one that was quoted. -/
lemma exists_cheap (hext : s.Extends t (-1)) (hnone : staleRise t.entries s.entries height = none)
    {q m : Int} (hq : q ≤ height) (hqm : q ≤ m)
    (hm : m < q + (graceBlocks - staleEntryBlocks)) :
    ∃ k, m - graceBlocks ≤ k ∧ k ≤ m ∧ s.at_ k ≤ t.at_ q := by
  have hgrace : graceBlocks = 8640 := rfl
  have hstale : staleEntryBlocks = 2880 := by decide
  have hpos := t.len_pos
  have hslen := s.index_lt q
  by_cases hin : s.index q < t.len
  · -- no new entry is in force at the quote
    refine ⟨q, by omega, hqm, ?_⟩
    rw [Schedule.at_, Schedule.at_, hext.index_eq_of_lt hin, hext.entry_eq hin]
  · have hstarted : (s.entry (s.index q)).from_ ≤ q :=
      (Schedule.le_index_iff hslen (by omega)).mp le_rfl
    have hlast : t.at_ q = (s.entry (t.len - 1)).flux := by
      have hfrom : (t.entry (t.len - 1)).from_ ≤ q := by
        rw [← hext.entry_eq (by omega : t.len - 1 < t.len)]
        exact (s.from_lt_from (by omega) hslen).le.trans hstarted
      rw [Schedule.at_, Schedule.index_eq (by omega) hfrom fun _ => by omega,
        hext.entry_eq (by omega : t.len - 1 < t.len)]
    rw [hlast]
    rcases le_or_rise (s := s) (t := t) (i := s.index q) (by omega) with
      hle | ⟨r, hr, hri, hle, hrise⟩
    · exact ⟨q, by omega, hqm, hle⟩
    · -- the price before the first rise is still in the window
      have hrecent := not_stale hnone hr (hri.trans_lt hslen) hrise
      have hrq : (s.entry r).from_ ≤ q :=
        (Schedule.le_index_iff (hri.trans_lt hslen) (by omega)).mp hri
      have hbefore : (s.entry (r - 1)).from_ < (s.entry r).from_ :=
        s.from_lt_from (by omega) (hri.trans_lt hslen)
      have hsucc : r - 1 + 1 = r := by omega
      refine ⟨(s.entry r).from_ - 1, by omega, by omega, ?_⟩
      rw [Schedule.at_, Schedule.index_eq (j := r - 1) (by omega) (by omega) fun _ => ?_]
      · exact hle
      · rw [hsucc]
        omega

end Quoted

/-- **Whoever pays the quoted price in time loses no days**: what is not refused
extends the live schedule, and above a quote, for as long as the grace outlasts
the oldest rise, no payment is judged by more than the live price. -/
theorem priceRefusal_protects {liveEnv : List String} {live : List Entry} {desired : Schedule}
    {height : Int} (hlive : scheduleFromEnv liveEnv = some (.schedule live))
    (hnull : priceRefusal liveEnv desired.entries height false = none) :
    live <+: desired.entries ∧
      ∀ q m, q ≤ height → q ≤ m → m < q + (graceBlocks - staleEntryBlocks) →
        effectivePrice desired.entries m ≤ priceAt live q := by
  rw [priceRefusal, hlive] at hnull
  dsimp only [refusal] at hnull
  split at hnull
  · cases hnull
  · rename_i hpre
    rw [not_not] at hpre
    refine ⟨hpre, fun q m hq hqm hm => ?_⟩
    have hnone : staleRise live desired.entries height = none := by
      cases hstale : staleRise live desired.entries height with
      | none => rfl
      | some e =>
          rw [hstale] at hnull
          cases hnull
    have hne := scheduleFromEnv_ne_nil hlive
    obtain ⟨k, hlo, hk, hle⟩ :=
      exists_cheap (extends_restrict desired live hne hpre) hnone hq hqm hm
    calc effectivePrice desired.entries m = desired.effective m := effectivePrice_entries desired m
      _ ≤ desired.at_ k := Schedule.effective_le_at hlo hk
      _ ≤ (restrict desired live hne hpre).at_ q := hle
      _ = priceAt live q := (priceAt_entries (restrict desired live hne hpre) q).symm

/-- A rise of a day ago is pushed; the price that was quoted before is still
charged 5759 blocks later. -/
theorem priceRefusal_protects_rise :
    effectivePrice [⟨0, 12⟩, ⟨1000, 20⟩] 9639 ≤ priceAt [⟨0, 12⟩] 3880 := by
  let desired : Schedule := ⟨[⟨0, 12⟩, ⟨1000, 20⟩], by decide, rfl, by decide, by decide +kernel⟩
  have hprotects := @priceRefusal_protects ["CVPN_PRICE_FLUX=12"] [⟨0, 12⟩] desired 3880
    (by decide +kernel) (by decide +kernel)
  exact hprotects.2 3880 9639 (by decide) (by decide) (by decide)

end CumulusVpn.Deploy
