/-
The rules that the gate of split tunneling lets out
(`clients/core-ts/src/split.ts`).

* `Unicode.FixesDomains`: the tables leave the text of a domain rule alone;
* `DomainLabels`: the labels of a domain rule, `domainText` its text;
* `exists_labels_of_normalizeDomainValue`: what a domain rule is stored as;
* `normalizeValue_normalizeValue`: **a stored value is its own canonical
  form**, of every kind;
* `normalizeSplitRule_toJson`: a rule that has passed the gate passes it again
  unchanged, whatever fewer endpoints are named.
-/
import CumulusVpn.Split.Policy
import CumulusVpn.Lib.Transaction
import CumulusVpn.Lib.Trim

namespace CumulusVpn.Split

open Transaction

/-! ### The labels of a domain -/

/-- The characters of a domain rule. -/
def isDomainChar (c : Char) : Bool := isLabelChar c || c = '-' || c = '.' || c = '*'

/-- The text of a domain rule is in lower case and composed. -/
structure Unicode.FixesDomains (unicode : Unicode) : Prop where
  toLowerCase : ∀ cs, (∀ c ∈ cs, isDomainChar c) → unicode.toLowerCase cs = cs
  normalize : ∀ cs, (∀ c ∈ cs, isDomainChar c) → unicode.normalize cs = cs

lemma toNat_lt_of_isLabelChar {c : Char} (h : isLabelChar c) : c.toNat < 128 := by
  simp only [isLabelChar, isDigit, Bool.or_eq_true, Bool.and_eq_true, decide_eq_true_eq,
    Char.le_def, UInt32.le_iff_toNat_le] at h
  have hz : c.toNat ≤ 'z'.toNat ∨ c.toNat ≤ '9'.toNat ∨ c = '_' := by
    rcases h with (h | h) | h
    · exact Or.inl h.2
    · exact Or.inr (Or.inl h.2)
    · exact Or.inr (Or.inr h)
  rcases hz with h | h | rfl
  · exact lt_of_le_of_lt h (by decide)
  · exact lt_of_le_of_lt h (by decide)
  · decide

lemma labelChar_text : ∀ n < 128, isLabelChar (Char.ofNat n) →
    Char.ofNat n ≠ '.' ∧ Char.ofNat n ≠ '*' ∧ Char.ofNat n ≠ ':' ∧ ' ' ≤ Char.ofNat n ∧
      Char.ofNat n ≤ '~' ∧ isSpace (Char.ofNat n) = false := by
  decide

/-- A character of a label separates nothing, and is printed. -/
lemma labelChar_plain {c : Char} (h : isLabelChar c) :
    c ≠ '.' ∧ c ≠ '*' ∧ c ≠ ':' ∧ ' ' ≤ c ∧ c ≤ '~' ∧ isSpace c = false := by
  have hplain := labelChar_text c.toNat (toNat_lt_of_isLabelChar h)
  rw [Char.ofNat_toNat] at hplain
  exact hplain h

/-- A character in the middle of a label as well. -/
lemma innerChar_plain {c : Char} (h : isLabelChar c || c = '-') :
    c ≠ '.' ∧ c ≠ '*' ∧ c ≠ ':' ∧ ' ' ≤ c ∧ c ≤ '~' ∧ isSpace c = false := by
  rcases Bool.or_eq_true_iff.mp h with h | h
  · exact labelChar_plain h
  · obtain rfl : c = '-' := by simpa using h
    decide

section Labels

variable {label : List Char}

lemma innerChar_of_isLabel (h : isLabel label) {c : Char} (hc : c ∈ label) :
    isLabelChar c || c = '-' := by
  rw [isLabel, Bool.and_eq_true, Bool.and_eq_true] at h
  exact List.all_eq_true.mp h.2 c hc

/-- A label begins with a character that is no hyphen, and ends with one. -/
lemma ends_of_isLabel (h : isLabel label) :
    (∃ c cs, label = c :: cs ∧ isLabelChar c) ∧ ∃ cs c, label = cs ++ [c] ∧ isLabelChar c := by
  rw [isLabel, Bool.and_eq_true, Bool.and_eq_true, Option.any_eq_true, Option.any_eq_true] at h
  obtain ⟨⟨⟨c, hhead, hc⟩, ⟨d, hlast, hd⟩⟩, -⟩ := h
  refine ⟨?_, ?_⟩
  · obtain ⟨cs, hcs⟩ := List.head?_eq_some_iff.mp hhead
    exact ⟨c, cs, hcs, hc⟩
  · obtain ⟨cs, hcs⟩ := List.getLast?_eq_some_iff.mp hlast
    exact ⟨cs, d, hcs, hd⟩

/-- A label that has been read is read as itself. -/
lemma normalizeLabel_of_isLabel (raw : String) (h : isLabel label) (hlength : label.length ≤ 63) :
    normalizeLabel raw label = .ok label := by
  have hprintable : isPrintable label = true := List.all_eq_true.mpr fun c hc => by
    obtain ⟨-, -, -, hlow, hhigh, -⟩ := innerChar_plain (innerChar_of_isLabel h hc)
    simp [hlow, hhigh]
  rw [normalizeLabel, if_pos hprintable, h, if_neg (by simpa using hlength)]

/-- What a label is read as: itself, or its punycode. -/
lemma of_normalizeLabel {raw : String} {l : List Char} (h : normalizeLabel raw l = .ok label) :
    (isLabel label ∧ label.length ≤ 63) ∧ (label = l ∨ 'x' ∈ label) := by
  have hread : ∀ ascii : List Char,
      (if !isLabel ascii || ascii.length > 63 then .error (.invalidDomain raw) else .ok ascii :
        Except RuleError (List Char)) = .ok label →
      (isLabel label ∧ label.length ≤ 63) ∧ label = ascii := by
    intro ascii hascii
    split at hascii
    · cases hascii
    · rename_i hok
      cases hascii
      refine ⟨?_, rfl⟩
      simpa only [Bool.or_eq_true, Bool.not_eq_true', decide_eq_true_eq, not_or,
        Bool.not_eq_false, Nat.not_lt] using hok
  rw [normalizeLabel] at h
  by_cases hprintable : isPrintable l
  · rw [if_pos hprintable] at h
    obtain ⟨hkept, heq⟩ := hread l h
    exact ⟨hkept, Or.inl heq⟩
  · rw [if_neg hprintable] at h
    obtain ⟨hkept, rfl⟩ := hread _ h
    exact ⟨hkept, Or.inr (List.mem_append_left _ (by decide))⟩

end Labels

/-! ### Maps that can fail -/

section MapM

variable {ε α β : Type} {f : α → Except ε β}

lemma forall₂_of_mapM {xs : List α} {ys : List β} (h : xs.mapM f = .ok ys) :
    List.Forall₂ (fun y x => f x = .ok y) ys xs := by
  induction xs generalizing ys with
  | nil =>
      cases h
      exact .nil
  | cons x xs ih =>
      rw [List.mapM_cons] at h
      cases hx : f x with
      | error e =>
          rw [hx] at h
          cases h
      | ok y =>
          cases hxs : xs.mapM f with
          | error e =>
              rw [hx, hxs] at h
              cases h
          | ok zs =>
              rw [hx, hxs] at h
              cases h
              exact .cons hx (ih hxs)

lemma mapM_eq_self {f : α → Except ε α} {xs : List α} (h : ∀ x ∈ xs, f x = .ok x) :
    xs.mapM f = .ok xs := by
  induction xs with
  | nil => rfl
  | cons x xs ih =>
      rw [List.mapM_cons, h x List.mem_cons_self, ih fun y hy => h y (List.mem_cons_of_mem x hy)]
      rfl

end MapM

/-! ### Domains -/

/-- The labels of a domain rule. -/
structure DomainLabels (labels : List (List Char)) : Prop where
  label : ∀ l ∈ labels, isLabel l ∧ l.length ≤ 63
  several : 2 ≤ labels.length
  short : (List.intercalate ['.'] labels).length ≤ 253
  /-- no address -/
  name : isIpLiteral (List.intercalate ['.'] labels) = false

/-- The text of a domain rule with these labels. -/
def domainText (wildcard : Bool) (labels : List (List Char)) : List Char :=
  if wildcard then '*' :: '.' :: List.intercalate ['.'] labels else List.intercalate ['.'] labels

section Domain

variable {labels : List (List Char)}

lemma splitOn_labels (h : ∀ l ∈ labels, isLabel l) (hne : labels ≠ []) :
    (List.intercalate ['.'] labels).splitOn '.' = labels := by
  refine List.splitOn_intercalate '.' (fun l hl hdot => ?_) hne
  exact (innerChar_plain (innerChar_of_isLabel (h l hl) hdot)).1 rfl

lemma mem_labels (h : ∀ l ∈ labels, isLabel l) {c : Char}
    (hc : c ∈ List.intercalate ['.'] labels) :
    isDomainChar c ∧ c ≠ '*' ∧ c ≠ ':' ∧ isSpace c = false := by
  rcases mem_intercalate hc with rfl | ⟨l, hl, hc⟩
  · decide
  · have hinner := innerChar_of_isLabel (h l hl) hc
    obtain ⟨-, hstar, hcolon, -, -, hspace⟩ := innerChar_plain hinner
    refine ⟨?_, hstar, hcolon, hspace⟩
    rw [isDomainChar, hinner, Bool.true_or, Bool.true_or]

/-- The text begins and ends with characters of labels. -/
lemma ends_of_labels (h : ∀ l ∈ labels, isLabel l) (hne : labels ≠ []) :
    (∃ c cs, List.intercalate ['.'] labels = c :: cs ∧ isLabelChar c) ∧
      ∃ cs c, List.intercalate ['.'] labels = cs ++ [c] ∧ isLabelChar c := by
  induction labels with
  | nil => exact absurd rfl hne
  | cons l ls ih =>
      obtain ⟨hfirst, hlast⟩ := ends_of_isLabel (h l List.mem_cons_self)
      by_cases hnil : ls = []
      · subst hnil
        rw [List.intercalate_singleton]
        exact ⟨hfirst, hlast⟩
      · obtain ⟨-, cs, c, hcs, hc⟩ := ih (fun m hm => h m (List.mem_cons_of_mem l hm)) hnil
        obtain ⟨d, ds, rfl, hd⟩ := hfirst
        rw [List.intercalate_cons_of_ne_nil hnil, hcs]
        exact ⟨⟨d, _, rfl, hd⟩, ⟨_, c, (List.append_assoc _ _ _).symm, hc⟩⟩

/-- An address among the texts of labels has the octets as labels. -/
lemma isDigit_of_isIpLiteral (h : ∀ l ∈ labels, isLabel l) (hne : labels ≠ [])
    (hip : isIpLiteral (List.intercalate ['.'] labels)) :
    ∀ l ∈ labels, ∀ c ∈ l, isDigit c := by
  have hv6 : parseIpv6 (List.intercalate ['.'] labels) = none := by
    rw [parseIpv6, if_pos fun hcolon => (mem_labels h hcolon).2.2.1 rfl]
  rw [isIpLiteral, hv6, Option.isSome_none, Bool.or_false] at hip
  obtain ⟨v, hv⟩ := Option.isSome_iff_exists.mp hip
  obtain ⟨a, b, c, d, -, -, -, -, hsplit, -⟩ := exists_octets_of_parseIpv4 hv
  rw [splitOn_labels h hne] at hsplit
  intro l hl x hx
  rw [hsplit] at hl
  obtain ⟨n, -, rfl⟩ := List.mem_map.mp hl
  exact ((decimal_text n).2.2 x hx).1

/-- The text whose labels are read, with its wildcard. -/
def lowered (unicode : Unicode) (raw : String) : List Char :=
  stripDots (unicode.normalize (unicode.toLowerCase (trim raw.toList)))

/-- The text behind a wildcard. -/
def hostPart (text : List Char) : List Char :=
  if text.take 2 = ['*', '.'] then text.drop 2 else text

lemma normalizeDomainValue_eq_ok_iff {unicode : Unicode} {raw v : String} :
    normalizeDomainValue unicode raw = .ok v ↔
      hostPart (lowered unicode raw) ≠ [] ∧ '*' ∉ hostPart (lowered unicode raw) ∧
      isIpLiteral (hostPart (lowered unicode raw)) = false ∧
      ∃ labels, ((hostPart (lowered unicode raw)).splitOn '.').mapM (normalizeLabel raw) =
          .ok labels ∧ 2 ≤ labels.length ∧ (List.intercalate ['.'] labels).length ≤ 253 ∧
        v = String.ofList (domainText ((lowered unicode raw).take 2 = ['*', '.']) labels) := by
  rw [normalizeDomainValue]
  rw [← lowered, ← hostPart]
  generalize hostPart (lowered unicode raw) = host
  by_cases hempty : host = [] ∨ '*' ∈ host
  · rw [if_pos hempty]
    refine iff_of_false nofun ?_
    rintro ⟨hne, hstar, -⟩
    exact hempty.elim hne hstar
  rw [if_neg hempty]
  obtain ⟨hne, hstar⟩ := not_or.mp hempty
  by_cases hip : isIpLiteral host = true
  · dsimp only
    rw [if_pos hip]
    refine iff_of_false nofun ?_
    rintro ⟨-, -, hnot, -⟩
    rw [hip] at hnot
    cases hnot
  dsimp only
  rw [if_neg hip]
  cases hlabels : (host.splitOn '.').mapM (normalizeLabel raw) with
  | error e =>
      refine iff_of_false nofun ?_
      rintro ⟨-, -, -, labels, hread, -⟩
      cases hread
  | ok labels =>
      have hresult : (∃ labels', Except.ok labels = Except.ok (ε := RuleError) labels' ∧
          2 ≤ labels'.length ∧ (List.intercalate ['.'] labels').length ≤ 253 ∧
          v = String.ofList (domainText ((lowered unicode raw).take 2 = ['*', '.']) labels')) ↔
          2 ≤ labels.length ∧ (List.intercalate ['.'] labels).length ≤ 253 ∧
          v = String.ofList (domainText ((lowered unicode raw).take 2 = ['*', '.']) labels) := by
        simp
      rw [hresult, and_iff_right hne, and_iff_right hstar,
        and_iff_right (Bool.eq_false_of_not_eq_true hip)]
      change (if labels.length < 2 then _ else _) = _ ↔ _
      by_cases hfew : labels.length < 2
      · rw [if_pos hfew]
        exact iff_of_false nofun fun h => absurd h.1 (by omega)
      rw [if_neg hfew, and_iff_right (by omega)]
      by_cases hlong : (List.intercalate ['.'] labels).length > 253
      · rw [if_pos hlong]
        exact iff_of_false nofun fun h => absurd h.1 (by omega)
      rw [if_neg hlong, and_iff_right (by omega)]
      simp only [domainText, decide_eq_true_eq]
      exact ⟨fun h => (Except.ok.inj h).symm, fun h => congrArg Except.ok h.symm⟩

/-- What a domain rule is stored as. -/
lemma exists_labels_of_normalizeDomainValue {unicode : Unicode} {raw v : String}
    (h : normalizeDomainValue unicode raw = .ok v) :
    ∃ wildcard labels, DomainLabels labels ∧ v = String.ofList (domainText wildcard labels) := by
  obtain ⟨hne, -, hip, labels, hread, hseveral, hshort, rfl⟩ := normalizeDomainValue_eq_ok_iff.mp h
  obtain ⟨hlabel, hself⟩ := (List.forall₂_and_left _ _).mp
    ((forall₂_of_mapM hread).imp fun _ _ => of_normalizeLabel)
  have hlabels : ∀ l ∈ labels, isLabel l := fun l hl => (hlabel l hl).1
  have hne' : labels ≠ [] := List.length_pos_iff.mp (lt_of_lt_of_le Nat.two_pos hseveral)
  refine ⟨_, labels, ⟨hlabel, hseveral, hshort, ?_⟩, rfl⟩
  by_contra hip'
  have hdigits := isDigit_of_isIpLiteral hlabels hne' (Bool.eq_true_of_not_eq_false hip')
  -- an octet is no punycode, so the labels are those of the text that was read
  have heq : labels = (hostPart (lowered unicode raw)).splitOn '.' := by
    have hplain : ∀ l ∈ labels, 'x' ∉ l := fun l hl hx => absurd (hdigits l hl 'x' hx) (by decide)
    have hsame := ((List.forall₂_and_left _ _).mpr ⟨hplain, hself⟩).imp
      fun l l' h => h.2.resolve_right h.1
    rwa [List.forall₂_eq_eq_eq] at hsame
  rw [heq, List.intercalate_splitOn] at hip'
  exact hip' hip

/-- A stored domain is read as itself. -/
lemma normalizeDomainValue_domainText {unicode : Unicode} (hunicode : unicode.FixesDomains)
    (wildcard : Bool) (h : DomainLabels labels) :
    normalizeDomainValue unicode (String.ofList (domainText wildcard labels)) =
      .ok (String.ofList (domainText wildcard labels)) := by
  have hlabels : ∀ l ∈ labels, isLabel l := fun l hl => (h.label l hl).1
  have hne : labels ≠ [] := List.length_pos_iff.mp (lt_of_lt_of_le Nat.two_pos h.several)
  obtain ⟨⟨c, cs, hhead, hc⟩, ds, d, hlast, hd⟩ := ends_of_labels hlabels hne
  have hchars : ∀ x ∈ domainText wildcard labels, isDomainChar x ∧ isSpace x = false := by
    intro x hx
    rw [domainText] at hx
    have hjoined : x ∈ List.intercalate ['.'] labels → isDomainChar x ∧ isSpace x = false :=
      fun hx => ⟨(mem_labels hlabels hx).1, (mem_labels hlabels hx).2.2.2⟩
    split at hx
    · rcases List.mem_cons.mp hx with rfl | hx
      · decide
      · rcases List.mem_cons.mp hx with rfl | hx
        · decide
        · exact hjoined hx
    · exact hjoined hx
  have hlowered : lowered unicode (String.ofList (domainText wildcard labels)) =
      domainText wildcard labels := by
    have hdots : stripDots (domainText wildcard labels) = domainText wildcard labels := by
      obtain ⟨es, hes⟩ : ∃ es, domainText wildcard labels = es ++ [d] := by
        rw [domainText, hlast]
        cases wildcard with
        | true => exact ⟨'*' :: '.' :: ds, rfl⟩
        | false => exact ⟨ds, rfl⟩
      have hdot : ¬ (d = '.') := (labelChar_plain hd).1
      rw [hes, stripDots, List.reverse_append, List.reverse_singleton, List.singleton_append,
        List.dropWhile_cons_of_neg (by simpa using hdot), List.reverse_cons, List.reverse_reverse]
    rw [lowered, String.toList_ofList, trim_eq_self fun x hx => (hchars x hx).2,
      hunicode.toLowerCase _ fun x hx => (hchars x hx).1,
      hunicode.normalize _ fun x hx => (hchars x hx).1, hdots]
  have hwild : decide ((domainText wildcard labels).take 2 = ['*', '.']) = wildcard := by
    cases wildcard with
    | true => rfl
    | false =>
        rw [domainText, if_neg Bool.false_ne_true, hhead]
        have hstar : c ≠ '*' := (labelChar_plain hc).2.1
        simp [hstar]
  have hhost : hostPart (domainText wildcard labels) = List.intercalate ['.'] labels := by
    rw [hostPart]
    cases wildcard with
    | true => rfl
    | false => exact if_neg (of_decide_eq_false hwild)
  rw [normalizeDomainValue_eq_ok_iff, hlowered, hhost, hwild]
  refine ⟨by simp [hhead], fun hstar => (mem_labels hlabels hstar).2.1 rfl, h.name, labels, ?_,
    h.several, h.short, rfl⟩
  rw [splitOn_labels hlabels hne]
  exact mapM_eq_self fun l hl => normalizeLabel_of_isLabel _ (hlabels l hl) (h.label l hl).2

end Domain

/-! ### Rules -/

section Rules

variable {unicode : Unicode} {endpointIps endpointIps' : List String}

lemma normalizeCidrValue_eq_ok_iff {raw v : String} :
    normalizeCidrValue raw endpointIps = .ok v ↔
      ∃ c, parseCidr raw = some c ∧ c.pfx ≠ 0 ∧ endpointIps.find? c.containsEndpoint = none ∧
        formatCidr c = v := by
  rw [normalizeCidrValue]
  cases hread : parseCidr raw with
  | none => exact iff_of_false nofun fun ⟨c, hc, _⟩ => nomatch hc
  | some cidr =>
      simp only [Option.some.injEq, exists_eq_left']
      by_cases hpfx : cidr.pfx = 0
      · rw [if_pos hpfx]
        exact iff_of_false nofun fun h => h.1 hpfx
      · rw [if_neg hpfx, and_iff_right hpfx]
        cases hfind : endpointIps.find? cidr.containsEndpoint with
        | some endpoint => exact iff_of_false nofun fun h => nomatch h.1
        | none => exact ⟨fun h => ⟨rfl, Except.ok.inj h⟩, fun h => congrArg Except.ok h.2⟩

/-- A stored prefix is read as itself. -/
lemma normalizeCidrValue_of_ok {raw v : String} (h : normalizeCidrValue raw endpointIps = .ok v)
    (hsub : endpointIps' ⊆ endpointIps) : normalizeCidrValue v endpointIps' = .ok v := by
  obtain ⟨c, hread, hpfx, hfind, rfl⟩ := normalizeCidrValue_eq_ok_iff.mp h
  refine normalizeCidrValue_eq_ok_iff.mpr ⟨c, ?_, hpfx, ?_, rfl⟩
  · exact parseCidr_formatCidr (canonical_of_parseCidr hread)
  · exact List.find?_eq_none.mpr fun x hx => List.find?_eq_none.mp hfind x (hsub hx)

/-- A stored identity is read as itself. -/
lemma normalizeAppValue_of_ok {raw v : String} {platform : Option SplitPlatform}
    (h : normalizeAppValue unicode raw platform = .ok v) :
    platform.isSome ∧ normalizeAppValue unicode v platform = .ok v := by
  rw [normalizeAppValue.eq_def] at h
  dsimp only at h
  by_cases hempty : trim raw.toList = []
  · rw [if_pos hempty] at h
    cases h
  · rw [if_neg hempty] at h
    cases platform with
    | none => cases h
    | some p =>
        dsimp only at h
        by_cases hown : "cumulusvpn".toList <:+: unicode.toLowerCase (trim raw.toList)
        · rw [if_pos hown] at h
          cases h
        · rw [if_neg hown] at h
          cases h
          have htrim : trim (trim raw.toList) = trim raw.toList := Trim.trim_trim isSpace raw.toList
          refine ⟨rfl, ?_⟩
          rw [normalizeAppValue.eq_def, String.toList_ofList, htrim]
          dsimp only
          rw [if_neg hempty, if_neg hown]

/-- **A stored value is its own canonical form.** -/
theorem normalizeValue_normalizeValue (hunicode : unicode.FixesDomains) {kind : SplitRuleKind}
    {raw v : String} {platform : Option SplitPlatform}
    (h : normalizeValue unicode kind raw platform endpointIps = .ok v)
    (hsub : endpointIps' ⊆ endpointIps) :
    normalizeValue unicode kind v platform endpointIps' = .ok v := by
  cases kind with
  | app => exact (normalizeAppValue_of_ok h).2
  | domain =>
      obtain ⟨wildcard, labels, hlabels, rfl⟩ := exists_labels_of_normalizeDomainValue h
      exact normalizeDomainValue_domainText hunicode wildcard hlabels
  | cidr => exact normalizeCidrValue_of_ok h hsub

/-- What passes the gate, field by field. -/
lemma normalizeSplitRule_eq_ok_iff {rule : Json} {r : SplitRule} :
    normalizeSplitRule unicode rule endpointIps = .ok r ↔
      ∃ raw, readEnum SplitRuleKind.ofText (rule.get? "kind") = some r.kind ∧
        rule.get? "value" = some (.str raw) ∧
        readPlatform r.kind (rule.get? "platform") = .ok r.platform ∧
        normalizeValue unicode r.kind raw r.platform endpointIps = .ok r.value ∧
        r.label = rule.get? "label" ∧ r.enabled = readEnabled (rule.get? "enabled") := by
  rw [normalizeSplitRule]
  constructor
  · intro h
    split at h
    · cases h
    · split at h
      · rename_i kind hkind
        split at h
        · rename_i raw hraw
          obtain ⟨platform, hplatform, h⟩ := bind_eq_ok h
          obtain ⟨value, hvalue, h⟩ := bind_eq_ok h
          cases h
          exact ⟨raw, hkind, hraw, hplatform, hvalue, rfl, rfl⟩
        · cases h
      · cases h
  · obtain ⟨kind, value, label, platform, enabled⟩ := r
    rintro ⟨raw, hkind, hraw, hplatform, hvalue, rfl, rfl⟩
    have hobject : rule.isNull = false := by
      cases rule with
      | null => cases hraw
      | _ => rfl
    dsimp only at hkind hplatform hvalue
    rw [hobject, hkind, hraw]
    simp only [Bool.false_eq_true, if_false, hplatform]
    change (normalizeValue unicode kind raw platform endpointIps >>= _) = _
    rw [hvalue]
    rfl

end Rules

/-! ### Rules as values -/

/-- The text that names the kind. -/
def SplitRuleKind.text : SplitRuleKind → String
  | .app => "app"
  | .domain => "domain"
  | .cidr => "cidr"

/-- The text that names the platform. -/
def SplitPlatform.text : SplitPlatform → String
  | .android => "android"
  | .ios => "ios"
  | .macos => "macos"
  | .windows => "windows"
  | .linux => "linux"

/-- The text that names the mode. -/
def SplitMode.text : SplitMode → String
  | .off => "off"
  | .exclude => "exclude"
  | .includeOnly => "include"

/-- The text that names the resolver. -/
def ExcludedDns.text : ExcludedDns → String
  | .tunnel => "tunnel"
  | .system => "system"

@[simp] lemma SplitRuleKind.ofText_text (kind : SplitRuleKind) : ofText kind.text = some kind := by
  cases kind <;> rfl

@[simp] lemma SplitPlatform.ofText_text (p : SplitPlatform) : ofText p.text = some p := by
  cases p <;> rfl

@[simp] lemma SplitMode.ofText_text (mode : SplitMode) : ofText mode.text = some mode := by
  cases mode <;> rfl

@[simp] lemma ExcludedDns.ofText_text (dns : ExcludedDns) : ofText dns.text = some dns := by
  cases dns <;> rfl

namespace SplitRule

/-- The object of a rule; a field that is `undefined` is left out. -/
def toJson (r : SplitRule) : Json :=
  .obj ([("kind", .str r.kind.text), ("value", .str r.value)] ++
    (r.label.map fun label => ("label", label)).toList ++
    (r.platform.map fun platform => ("platform", .str platform.text)).toList ++
    [("enabled", .bool r.enabled)])

@[simp] lemma get?_kind (r : SplitRule) : r.toJson.get? "kind" = some (.str r.kind.text) := rfl

@[simp] lemma get?_value (r : SplitRule) : r.toJson.get? "value" = some (.str r.value) := rfl

@[simp] lemma get?_label (r : SplitRule) : r.toJson.get? "label" = r.label := by
  obtain ⟨kind, value, label, platform, enabled⟩ := r
  cases label <;> cases platform <;> rfl

@[simp] lemma get?_platform (r : SplitRule) :
    r.toJson.get? "platform" = r.platform.map fun platform => .str platform.text := by
  obtain ⟨kind, value, label, platform, enabled⟩ := r
  cases label <;> cases platform <;> rfl

@[simp] lemma get?_enabled (r : SplitRule) :
    r.toJson.get? "enabled" = some (.bool r.enabled) := by
  obtain ⟨kind, value, label, platform, enabled⟩ := r
  cases label <;> cases platform <;> rfl

end SplitRule

section Gate

variable {unicode : Unicode} {endpointIps endpointIps' : List String}

/-- The platform of a rule that has passed reads back. -/
lemma readPlatform_of_ok {r : SplitRule} {raw : String} {field : Option Json}
    (h : readPlatform r.kind field = .ok r.platform)
    (hvalue : normalizeValue unicode r.kind raw r.platform endpointIps = .ok r.value) :
    readPlatform r.kind (r.platform.map fun platform => .str platform.text) = .ok r.platform := by
  cases hkind : r.kind with
  | app =>
      rw [hkind] at hvalue
      obtain ⟨platform, hplatform⟩ := Option.isSome_iff_exists.mp (normalizeAppValue_of_ok hvalue).1
      rw [hplatform, Option.map_some, readPlatform, readEnum, SplitPlatform.ofText_text]
  | domain =>
      rw [hkind] at h
      exact h
  | cidr =>
      rw [hkind] at h
      exact h

/-- **A rule that has passed the gate passes it again unchanged.** -/
theorem normalizeSplitRule_toJson (hunicode : unicode.FixesDomains) {rule : Json} {r : SplitRule}
    (h : normalizeSplitRule unicode rule endpointIps = .ok r) (hsub : endpointIps' ⊆ endpointIps) :
    normalizeSplitRule unicode r.toJson endpointIps' = .ok r := by
  obtain ⟨raw, -, -, hplatform, hvalue, -, -⟩ := normalizeSplitRule_eq_ok_iff.mp h
  refine normalizeSplitRule_eq_ok_iff.mpr ⟨r.value, ?_, r.get?_value, ?_, ?_, r.get?_label.symm, ?_⟩
  · rw [r.get?_kind, readEnum, SplitRuleKind.ofText_text]
  · rw [r.get?_platform]
    exact readPlatform_of_ok hplatform hvalue
  · exact normalizeValue_normalizeValue hunicode hvalue hsub
  · rw [r.get?_enabled]
    cases r.enabled <;> rfl

end Gate

/-! ### Policies as values -/

/-- The object of a policy. -/
def SplitPolicy.toJson (policy : SplitPolicy) : Json :=
  .obj [("version", .num 1), ("mode", .str policy.mode.text),
    ("rules", .arr (policy.rules.map SplitRule.toJson)), ("lanBypass", .bool policy.lanBypass),
    ("excludedDns", .str policy.excludedDns.text)]

/-- The rules have passed the gate, whatever endpoints were named. -/
def SplitPolicy.Gated (unicode : Unicode) (policy : SplitPolicy) : Prop :=
  ∀ r ∈ policy.rules, ∃ rule endpointIps, normalizeSplitRule unicode rule endpointIps = .ok r

section Policies

variable {unicode : Unicode}

lemma exists_of_normalizeRules {rules : List Json} {rs : List SplitRule}
    (h : normalizeRules unicode rules = .ok rs) :
    ∀ r ∈ rs, ∃ rule ∈ rules, normalizeSplitRule unicode rule [] = .ok r := by
  induction rules generalizing rs with
  | nil =>
      cases h
      exact fun r hr => absurd hr List.not_mem_nil
  | cons rule rules ih =>
      obtain ⟨first, hfirst, h⟩ := bind_eq_ok h
      obtain ⟨rest, hrest, h⟩ := bind_eq_ok h
      cases h
      intro r hr
      cases List.mem_cons.mp hr with
      | inl heq => exact ⟨rule, List.mem_cons_self, heq ▸ hfirst⟩
      | inr hmem =>
          obtain ⟨rule', hrule', hgate⟩ := ih hrest r hmem
          exact ⟨rule', List.mem_cons_of_mem rule hrule', hgate⟩

lemma normalizeRules_toJson {rs : List SplitRule}
    (h : ∀ r ∈ rs, normalizeSplitRule unicode r.toJson [] = .ok r) :
    normalizeRules unicode (rs.map SplitRule.toJson) = .ok rs := by
  induction rs with
  | nil => rfl
  | cons r rs ih =>
      rw [List.map_cons, normalizeRules, h r List.mem_cons_self,
        ih fun r' hr' => h r' (List.mem_cons_of_mem r hr')]
      rfl

/-- **A policy of gated rules is sanitized to itself.** -/
theorem sanitizeSplitPolicy_toJson (hunicode : unicode.FixesDomains) {policy : SplitPolicy}
    (h : policy.Gated unicode) : sanitizeSplitPolicy unicode policy.toJson = policy := by
  have hrules : normalizeRules unicode (policy.rules.map SplitRule.toJson) = .ok policy.rules := by
    refine normalizeRules_toJson fun r hr => ?_
    obtain ⟨rule, endpointIps, hgate⟩ := h r hr
    exact normalizeSplitRule_toJson hunicode hgate (List.nil_subset endpointIps)
  have hmode : readEnum SplitMode.ofText (policy.toJson.get? "mode") = some policy.mode :=
    policy.mode.ofText_text
  have hdns : readEnum ExcludedDns.ofText (policy.toJson.get? "excludedDns") =
      some policy.excludedDns := policy.excludedDns.ofText_text
  have hget : policy.toJson.get? "rules" = some (.arr (policy.rules.map SplitRule.toJson)) := rfl
  have hversion : policy.toJson.get? "version" = some (.num 1) := rfl
  have hlan : policy.toJson.get? "lanBypass" = some (.bool policy.lanBypass) := rfl
  rw [sanitizeSplitPolicy, hversion, hmode, hlan, hdns, hget]
  simp only [hrules]

/-- The rules of a sanitized policy are rules of the value that have passed the
gate. -/
lemma exists_of_mem_sanitizeSplitPolicy {value : Json} {r : SplitRule}
    (hr : r ∈ (sanitizeSplitPolicy unicode value).rules) :
    ∃ rules, value.get? "rules" = some (.arr rules) ∧
      ∃ rule ∈ rules, normalizeSplitRule unicode rule [] = .ok r := by
  rw [sanitizeSplitPolicy] at hr
  split at hr
  · rename_i hrules
    split at hr
    · cases hr
    · rename_i hok
      exact ⟨_, hrules, exists_of_normalizeRules hok r hr⟩
  · cases hr

lemma gated_sanitizeSplitPolicy (unicode : Unicode) (value : Json) :
    (sanitizeSplitPolicy unicode value).Gated unicode := by
  intro r hr
  obtain ⟨rules, -, rule, -, hgate⟩ := exists_of_mem_sanitizeSplitPolicy hr
  exact ⟨rule, [], hgate⟩

end Policies

end CumulusVpn.Split
