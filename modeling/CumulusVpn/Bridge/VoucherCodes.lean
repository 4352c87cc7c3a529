/-
Voucher codes as they are shown and typed (`normalizeCode`, `displayCode` and
`generateCode` of `bridge/src/db/vouchers.ts`).

* `generateCode`: the characters that random bytes stand for;
* `Stored`: the codes of the table;
* `normalizeCode_displayCode`: what the displayed form of a code is read as;
* `Doubled`: a long code that begins with the prefix of the display;
* `voucher_codes_read_back`: **a code is read from its displayed form just when
  it is not doubled**, and two codes are read alike just when one is the other
  behind a prefix.
-/
import Mathlib.Data.Bool.AllAny
import CumulusVpn.Bridge.VoucherAccounting

namespace CumulusVpn.Bridge.Vouchers

/-! ### Codes -/

/-- The displayed form: `CVPN-XXXXX-XXXXX` for a code of the generated length. -/
def displayCode (canonical : String) : String :=
  if canonical.toList.length = generatedLen then
    "CVPN-" ++ String.ofList (canonical.toList.take 5) ++ "-" ++
      String.ofList (canonical.toList.drop 5)
  else canonical

/-- The character of the first byte that is below 248, the largest multiple of
the alphabet's size, and the bytes behind it. -/
def randomChar : List UInt8 → Option (Char × List UInt8)
  | [] => none
  | b :: bytes =>
      if b.toNat < 248 then some (codeAlphabet.getD (b.toNat % codeAlphabet.length) '2', bytes)
      else randomChar bytes

/-- So many characters, each drawn until it is unbiased. -/
def randomChars : Nat → List UInt8 → Option (List Char × List UInt8)
  | 0, bytes => some ([], bytes)
  | n + 1, bytes => do
      let (c, bytes) ← randomChar bytes
      let (cs, bytes) ← randomChars n bytes
      return (c :: cs, bytes)

/-- The code of random bytes; `none` where they do not suffice. -/
def generateCode (bytes : List UInt8) : Option String :=
  (randomChars generatedLen bytes).map fun p => String.ofList p.1

/-- A code of the table: an admin's, or a generated one. -/
def Stored (c : VoucherConfig) (code : String) : Prop :=
  (∃ input, normalizeCode c input = some code) ∨ ∃ bytes, generateCode bytes = some code

/-- Text without letters of other alphabets in upper case. -/
def VoucherConfig.UpperCase (c : VoucherConfig) : Prop :=
  ∀ s : String, (∀ ch ∈ s.toList, ch.toNat < 128) →
    c.toUpperCase s = String.ofList (s.toList.map Char.toUpper)

/-- A canonical code. -/
structure IsCode (code : List Char) : Prop where
  alphabet : ∀ ch ∈ code, ch ∈ codeAlphabet
  long : 6 ≤ code.length
  short : code.length ≤ 20

lemma mem_alphabet_of_randomChar {bytes rest : List UInt8} {ch : Char}
    (h : randomChar bytes = some (ch, rest)) : ch ∈ codeAlphabet := by
  have hletter : ∀ n < codeAlphabet.length, codeAlphabet.getD n '2' ∈ codeAlphabet := by decide
  induction bytes with
  | nil => cases h
  | cons b bytes ih =>
      rw [randomChar] at h
      by_cases hb : b.toNat < 248
      · rw [if_pos hb] at h
        cases h
        exact hletter _ (Nat.mod_lt _ (by decide))
      · rw [if_neg hb] at h
        exact ih h

lemma of_randomChars {n : Nat} {bytes rest : List UInt8} {cs : List Char}
    (h : randomChars n bytes = some (cs, rest)) :
    cs.length = n ∧ ∀ ch ∈ cs, ch ∈ codeAlphabet := by
  induction n generalizing bytes cs with
  | zero =>
      cases h
      exact ⟨rfl, nofun⟩
  | succ n ih =>
      rw [randomChars] at h
      simp only [Option.bind_eq_bind, Option.bind_eq_some_iff] at h
      obtain ⟨⟨ch, bytes'⟩, hch, ⟨cs', rest'⟩, hcs, heq⟩ := h
      cases heq
      obtain ⟨hlength, hall⟩ := ih hcs
      refine ⟨by rw [List.length_cons, hlength], ?_⟩
      exact List.forall_mem_cons.mpr ⟨mem_alphabet_of_randomChar hch, hall⟩

lemma isCode_of_normalizeCode {c : VoucherConfig} {input code : String}
    (h : normalizeCode c input = some code) : IsCode code.toList := by
  have hcode : ∀ s : List Char, (if s.length < 6 ∨ s.length > 20 then none
      else if s.all fun ch => codeAlphabet.contains ch then some (String.ofList s) else none) =
        some code → IsCode code.toList := by
    intro s hs
    by_cases hlength : s.length < 6 ∨ s.length > 20
    · rw [if_pos hlength] at hs
      cases hs
    · rw [if_neg hlength] at hs
      split at hs
      · rename_i hall
        cases hs
        rw [String.toList_ofList]
        refine ⟨fun ch hch => ?_, by omega, by omega⟩
        exact List.contains_iff_mem.mp (List.all_eq_true.mp hall ch hch)
      · cases hs
  exact hcode _ h

lemma isCode_of_stored {c : VoucherConfig} {code : String} (h : Stored c code) :
    IsCode code.toList := by
  rcases h with ⟨input, h⟩ | ⟨bytes, h⟩
  · exact isCode_of_normalizeCode h
  · obtain ⟨⟨cs, rest⟩, hcs, rfl⟩ := Option.map_eq_some_iff.mp h
    obtain ⟨hlength, hall⟩ := of_randomChars hcs
    rw [String.toList_ofList]
    exact ⟨hall, by rw [hlength]; decide, by rw [hlength]; decide⟩

/-! ### Reading what is shown -/

/-- A code that is longer than a generated one and begins with the prefix of
the displayed form. -/
def Doubled (code : List Char) : Prop := "CVPN".toList <+: code ∧ generatedLen < code.length

instance (code : List Char) : Decidable (Doubled code) :=
  inferInstanceAs (Decidable (_ ∧ _))

/-- The letters without a prefix. -/
def undressed (letters : List Char) : List Char :=
  if Doubled letters then letters.drop 4 else letters

section Reading

variable {c : VoucherConfig} {code : List Char}

lemma codeAlphabet_text : ∀ ch ∈ codeAlphabet, ch.toNat < 128 ∧ ch.toUpper = ch ∧ ch ≠ '-' ∧
    Split.isSpace ch = false :=
  List.all_iff_forall_prop.mp (by decide)

/-- Letters with dashes among them are read as the letters. -/
lemma normalizeCode_of_letters (hupper : c.UpperCase) {s : String} {letters : List Char}
    (hs : ∀ ch ∈ s.toList, ch ∈ codeAlphabet ∨ ch = '-')
    (hletters : s.toList.filter (· ≠ '-') = letters) :
    normalizeCode c s =
      if (undressed letters).length < 6 ∨ (undressed letters).length > 20 then none
      else some (String.ofList (undressed letters)) := by
  have htext : ∀ ch ∈ s.toList, ch.toNat < 128 ∧ ch.toUpper = ch ∧ Split.isSpace ch = false := by
    intro ch hch
    rcases hs ch hch with hmem | rfl
    · obtain ⟨hascii, hup, -, hspace⟩ := codeAlphabet_text ch hmem
      exact ⟨hascii, hup, hspace⟩
    · decide
  have hsame : c.toUpperCase s = s := by
    rw [hupper s fun ch hch => (htext ch hch).1,
      (List.map_congr_left fun ch hch => (htext ch hch).2.1).trans (List.map_id' _),
      String.ofList_toList]
  have hfilter : s.toList.filter (fun ch => ¬ (Split.isSpace ch ∨ ch = '-')) = letters := by
    rw [← hletters]
    refine List.filter_congr fun ch hch => ?_
    rw [(htext ch hch).2.2]
    simp
  have hall : (undressed letters).all (fun ch => codeAlphabet.contains ch) = true := by
    refine List.all_eq_true.mpr fun ch hch => List.contains_iff_mem.mpr ?_
    have hmem : ch ∈ letters := by
      rw [undressed] at hch
      split at hch
      · exact List.mem_of_mem_drop hch
      · exact hch
    rw [← hletters, List.mem_filter] at hmem
    exact (hs ch hmem.1).resolve_right (by simpa using hmem.2)
  rw [normalizeCode, hsame, hfilter]
  change (if (undressed letters).length < 6 ∨ (undressed letters).length > 20 then none
    else if (undressed letters).all fun ch => codeAlphabet.contains ch then
      some (String.ofList (undressed letters)) else none) = _
  rw [if_pos hall]

/-- The letters of the displayed form. -/
lemma letters_displayCode (h : IsCode code) :
    (∀ ch ∈ (displayCode (String.ofList code)).toList, ch ∈ codeAlphabet ∨ ch = '-') ∧
    (displayCode (String.ofList code)).toList.filter (· ≠ '-') =
      if code.length = generatedLen then "CVPN".toList ++ code else code := by
  have hdash : ∀ cs : List Char, (∀ ch ∈ cs, ch ∈ codeAlphabet) → cs.filter (· ≠ '-') = cs :=
    fun cs hcs => List.filter_eq_self.mpr fun ch hch =>
      decide_eq_true (codeAlphabet_text ch (hcs ch hch)).2.2.1
  rw [displayCode, String.toList_ofList]
  by_cases hlength : code.length = generatedLen
  · rw [if_pos hlength, if_pos hlength]
    simp only [String.toList_append, String.toList_ofList]
    have htake : ∀ ch ∈ code.take 5, ch ∈ codeAlphabet := fun ch hch =>
      h.alphabet ch (List.mem_of_mem_take hch)
    have hdrop : ∀ ch ∈ code.drop 5, ch ∈ codeAlphabet := fun ch hch =>
      h.alphabet ch (List.mem_of_mem_drop hch)
    have hdressing : ∀ ch ∈ "CVPN-".toList, ch ∈ codeAlphabet ∨ ch = '-' :=
      List.all_iff_forall_prop.mp (by decide)
    refine ⟨fun ch hch => ?_, ?_⟩
    · simp only [List.mem_append] at hch
      rcases hch with ((hch | hch) | hch) | hch
      · exact hdressing ch hch
      · exact Or.inl (htake ch hch)
      · exact Or.inr (by simpa using hch)
      · exact Or.inl (hdrop ch hch)
    · rw [List.filter_append, List.filter_append, List.filter_append, hdash _ htake, hdash _ hdrop,
        show "CVPN-".toList.filter (· ≠ '-') = "CVPN".toList by decide,
        show "-".toList.filter (· ≠ '-') = [] by decide, List.append_nil, List.append_assoc,
        List.take_append_drop]
  · rw [if_neg hlength, if_neg hlength, String.toList_ofList]
    exact ⟨fun ch hch => Or.inl (h.alphabet ch hch), hdash code h.alphabet⟩

/-- **What the displayed form of a code is read as.** -/
theorem normalizeCode_displayCode (hupper : c.UpperCase) (h : IsCode code) :
    normalizeCode c (displayCode (String.ofList code)) = some (String.ofList (undressed code)) := by
  obtain ⟨hchars, hletters⟩ := letters_displayCode h
  have hlong := h.long
  have hshort := h.short
  by_cases hlength : code.length = generatedLen
  · rw [if_pos hlength] at hletters
    have hdressed : undressed ("CVPN".toList ++ code) = code := by
      rw [undressed, if_pos]
      · rfl
      · refine ⟨List.prefix_append _ _, ?_⟩
        rw [List.length_append, hlength]
        decide
    have hplain : undressed code = code := if_neg fun hd => absurd hd.2 (by omega)
    rw [normalizeCode_of_letters hupper hchars hletters, hdressed, hplain, if_neg (by omega)]
  · rw [if_neg hlength] at hletters
    rw [normalizeCode_of_letters hupper hchars hletters, if_neg]
    rw [undressed]
    split
    · rename_i hd
      have hten : 10 < code.length := hd.2
      rw [List.length_drop]
      omega
    · omega

end Reading

/-- The codes are read alike though they differ: one is the other behind a
prefix. -/
def Shadows (code code' : List Char) : Prop :=
  Doubled code ∧ ¬ Doubled code' ∧ code.drop 4 = code'

/-- A doubled code is its prefix and what it is read as. -/
lemma Doubled.eq_append {code : List Char} (h : Doubled code) :
    code = "CVPN".toList ++ undressed code := by
  obtain ⟨rest, hrest⟩ := h.1
  rw [undressed, if_pos h, ← hrest]
  rfl

lemma undressed_eq_iff {code code' : List Char} (hne : code ≠ code') :
    undressed code = undressed code' ↔ Shadows code code' ∨ Shadows code' code := by
  by_cases h : Doubled code <;> by_cases h' : Doubled code'
  · refine iff_of_false (fun heq => hne ?_) ?_
    · rw [h.eq_append, h'.eq_append, heq]
    · rintro (hs | hs)
      · exact hs.2.1 h'
      · exact hs.2.1 h
  · rw [undressed, if_pos h, undressed, if_neg h', or_iff_left fun hs => h' hs.1]
    exact ⟨fun heq => ⟨h, h', heq⟩, fun hs => hs.2.2⟩
  · rw [undressed, if_neg h, undressed, if_pos h', or_iff_right fun hs => h hs.1]
    exact ⟨fun heq => ⟨h', h, heq.symm⟩, fun hs => hs.2.2.symm⟩
  · rw [undressed, if_neg h, undressed, if_neg h']
    refine iff_of_false hne ?_
    rintro (hs | hs)
    · exact h hs.1
    · exact h' hs.1

/-- **A code is read from its displayed form just when it is not doubled, and two
codes are read alike just when one is the other behind a prefix.** -/
theorem voucher_codes_read_back (c : VoucherConfig) (hupper : c.UpperCase) (code code' : String)
    (hcode : Stored c code) (hcode' : Stored c code') :
    (normalizeCode c (displayCode code) = some code ↔ ¬ Doubled code.toList) ∧
    (code ≠ code' → (normalizeCode c (displayCode code) ≠ normalizeCode c (displayCode code') ↔
      ¬ (Shadows code.toList code'.toList ∨ Shadows code'.toList code.toList))) := by
  have hread : ∀ code, Stored c code → normalizeCode c (displayCode code) =
      some (String.ofList (undressed code.toList)) := fun code hcode => by
    have hletters := normalizeCode_displayCode hupper (isCode_of_stored hcode)
    rwa [String.ofList_toList] at hletters
  rw [hread code hcode, hread code' hcode']
  refine ⟨?_, fun hne => ?_⟩
  · rw [Option.some.injEq]
    constructor
    · intro heq hd
      have hcycle : undressed code.toList = code.toList := by
        rw [← String.toList_inj, String.toList_ofList] at heq
        exact heq
      have happend := hd.eq_append
      rw [hcycle] at happend
      have hlength := congrArg List.length happend
      rw [List.length_append] at hlength
      have hfour : "CVPN".toList.length = 4 := by decide
      omega
    · intro hd
      rw [undressed, if_neg hd, String.ofList_toList]
  · have hne' : code.toList ≠ code'.toList := fun heq => hne (String.toList_inj.mp heq)
    rw [Ne, Option.some.injEq, ← undressed_eq_iff hne']
    refine not_congr ⟨fun heq => ?_, fun heq => by rw [heq]⟩
    rwa [← String.toList_inj, String.toList_ofList, String.toList_ofList] at heq

lemma upperCase_campaignConfig : campaignConfig.UpperCase := by
  intro s _
  rw [← String.toList_inj, String.toList_ofList]
  exact String.toList_map

/-- A generated code, and an admin's. -/
theorem voucher_codes_read_back_summer :
    (normalizeCode campaignConfig (displayCode "3222222222") = some "3222222222" ↔
      ¬ Doubled "3222222222".toList) ∧
    (normalizeCode campaignConfig (displayCode "3222222222") ≠
        normalizeCode campaignConfig (displayCode "SUMMER26") ↔
      ¬ (Shadows "3222222222".toList "SUMMER26".toList ∨
        Shadows "SUMMER26".toList "3222222222".toList)) := by
  have hgenerated : generateCode (250 :: 32 :: List.replicate 9 0) = some "3222222222" := by
    decide +kernel
  have hadmin : normalizeCode campaignConfig "cvpn-summer 26" = some "SUMMER26" := by
    decide +kernel
  obtain ⟨hone, htwo⟩ := voucher_codes_read_back campaignConfig upperCase_campaignConfig
    "3222222222" "SUMMER26" (Or.inr ⟨_, hgenerated⟩) (Or.inl ⟨_, hadmin⟩)
  exact ⟨hone, htwo (by decide)⟩

/-- A code typed behind two prefixes keeps one, and redeems the code behind it. -/
theorem not_voucher_codes_read_back :
    normalizeCode campaignConfig "CVPN-CVPN-ABCDEFG" = some "CVPNABCDEFG" ∧
    normalizeCode campaignConfig "ABCDEFG" = some "ABCDEFG" ∧
    normalizeCode campaignConfig (displayCode "CVPNABCDEFG") = some "ABCDEFG" ∧
    normalizeCode campaignConfig (displayCode "ABCDEFG") = some "ABCDEFG" := by
  decide +kernel

end CumulusVpn.Bridge.Vouchers
