/-
Both mobile tunnels against the compiled routes.

* `routeOf`: the route of a prefix; both ports read it from the text
  (`Android.parseRoute_v4`, `Ios.ipv4Route_formatCidr` and the like);
* `Agree`: the Android and the iOS routes are the compiled ones with the
  resolvers;
* `AgreeWhen`: when they are;
* `agree_iff`: **the ports agree exactly when the line splits IPv4**, or is the
  full tunnel.
-/
import CumulusVpn.Mobile.Routes

namespace CumulusVpn.Mobile

open CumulusVpn.Split Intervals

/-! ### The characters of a prefix -/

/-- The characters that addresses and prefixes consist of. -/
def IsPlain (c : Char) : Prop := isHex c = true ∨ c = ':' ∨ c = '.' ∨ c = '/'

lemma isHex_of_isDigit {c : Char} (h : isDigit c = true) : isHex c = true := by
  rw [isHex, h]
  rfl

lemma plain_of_mem_formatAddress {family : Family} {v : Nat} {c : Char}
    (h : c ∈ formatAddress family v) : IsPlain c := by
  have hhex :
      ∀ gs : List Nat, c ∈ List.intercalate [':'] (gs.map (Nat.toDigits 16)) → IsPlain c := by
    intro gs hc
    rcases mem_intercalate hc with rfl | ⟨t, ht, hct⟩
    · exact Or.inr (Or.inl rfl)
    · obtain ⟨n, -, rfl⟩ := List.mem_map.mp ht
      exact Or.inl ((hex_text n).2 c hct).1
  cases family with
  | v4 =>
      rcases mem_intercalate h with rfl | ⟨t, ht, hct⟩
      · exact Or.inr (Or.inr (Or.inl rfl))
      · obtain ⟨n, -, rfl⟩ := List.mem_map.mp ht
        exact Or.inl (isHex_of_isDigit ((decimal_text n).2.2 c hct).1)
  | v6 =>
      simp only [formatAddress, formatIpv6] at h
      split at h
      · exact hhex _ h
      · rw [← List.map_take, ← List.map_drop] at h
        simp only [List.mem_append] at h
        rcases h with (h | h) | h
        · exact hhex _ h
        · simp only [List.mem_cons, List.not_mem_nil, or_false, or_self] at h
          exact Or.inr (Or.inl h)
        · exact hhex _ h

/-- The text of a prefix. -/
lemma toList_formatCidr (c : Cidr) :
    (formatCidr c).toList = formatAddress c.family c.net ++ '/' :: Nat.toDigits 10 c.pfx := by
  rw [formatCidr, String.toList_ofList]
  rfl

lemma plain_of_mem_formatCidr {x : Cidr} {c : Char} (h : c ∈ (formatCidr x).toList) :
    IsPlain c := by
  rw [toList_formatCidr] at h
  rcases List.mem_append.mp h with h | h
  · exact plain_of_mem_formatAddress h
  · rcases List.mem_cons.mp h with rfl | h
    · exact Or.inr (Or.inr (Or.inr rfl))
    · exact Or.inl (isHex_of_isDigit ((decimal_text x.pfx).2.2 c h).1)

/-- A plain character lies between `.` and `f`. -/
lemma IsPlain.toNat_mem {c : Char} (h : IsPlain c) : 46 ≤ c.toNat ∧ c.toNat ≤ 102 := by
  rcases h with h | rfl | rfl | rfl
  · simp only [isHex, isDigit, Bool.or_eq_true, Bool.and_eq_true, decide_eq_true_eq, Char.le_def,
      UInt32.le_iff_toNat_le] at h
    have hc : c.toNat = c.val.toNat := rfl
    rw [hc]
    rcases h with (⟨hlow, hhigh⟩ | ⟨hlow, hhigh⟩) | ⟨hlow, hhigh⟩
    · have h0 : ('0' : Char).val.toNat = 48 := rfl
      have h9 : ('9' : Char).val.toNat = 57 := rfl
      omega
    · have ha : ('a' : Char).val.toNat = 97 := rfl
      have hf : ('f' : Char).val.toNat = 102 := rfl
      omega
    · have hA : ('A' : Char).val.toNat = 65 := rfl
      have hF : ('F' : Char).val.toNat = 70 := rfl
      omega
  all_goals decide

/-- A predicate for white space that takes the space and no plain character. -/
structure IsSpaceTest (space : Char → Bool) : Prop where
  blank : space ' ' = true
  plain : ∀ c, IsPlain c → space c = false

lemma android_isWhitespace : IsSpaceTest Android.isWhitespace where
  blank := by decide
  plain := by
    intro c hc
    have hc := hc.toNat_mem
    obtain ⟨hcontrol, hseparator, hline⟩ := Trim.not_space_of_visible (c := c) (by omega) (by omega)
    simp [Android.isWhitespace, hcontrol, hseparator, hline]
    omega

lemma ios_isWhitespace : IsSpaceTest Ios.isWhitespace where
  blank := by decide
  plain := by
    intro c hc
    have hc := hc.toNat_mem
    obtain ⟨-, hseparator, -⟩ := Trim.not_space_of_visible (c := c) (by omega) (by omega)
    simp [Ios.isWhitespace, hseparator]
    omega

/-- A text without white space is its own trimming, and a space in front of it
is trimmed away. -/
lemma trim_plain {space : Char → Bool} (hspace : IsSpaceTest space) {cs : List Char}
    (h : ∀ c ∈ cs, IsPlain c) :
    Trim.trim space cs = cs ∧ Trim.trim space (' ' :: cs) = cs := by
  have hself : Trim.trim space cs = cs := Trim.trim_of_forall fun c hc => hspace.plain c (h c hc)
  have hblank : ∀ c ∈ [' '], space c := by simpa using hspace.blank
  exact ⟨hself, (Trim.trim_append_left hblank cs).trans hself⟩

/-- The texts of prefixes, one line. -/
def lineOf (cs : List Cidr) : List Char := (", ".intercalate (cs.map formatCidr)).toList

/-- The entries of the line, trimmed, are the texts. -/
lemma map_trim_lineOf {space : Char → Bool} (hspace : IsSpaceTest space) {cs : List Cidr}
    (hne : cs ≠ []) :
    ((lineOf cs).splitOn ',').map (Trim.trim space) = cs.map fun c => (formatCidr c).toList := by
  obtain ⟨c, cs, rfl⟩ := List.exists_cons_of_ne_nil hne
  have hcomma : ∀ s ∈ formatCidr c :: cs.map formatCidr, ',' ∉ s.toList := by
    intro s hs
    rcases List.mem_cons.mp hs with rfl | hs
    · exact comma_not_mem_formatCidr c
    · obtain ⟨d, -, rfl⟩ := List.mem_map.mp hs
      exact comma_not_mem_formatCidr d
  rw [lineOf, List.map_cons, splitOn_intercalate_comma hcomma, List.map_cons, List.map_map,
    List.map_map, List.map_cons, (trim_plain hspace fun _ => plain_of_mem_formatCidr).1]
  refine congrArg _ (List.map_congr_left fun d _ => ?_)
  exact (trim_plain hspace fun _ => plain_of_mem_formatCidr).2

/-! ### The parts of a prefix -/

lemma slash_not_mem_formatAddress (family : Family) (v : Nat) : '/' ∉ formatAddress family v :=
  fun h => (chars_formatAddress h).1 rfl

lemma slash_not_mem_toDigits (n : Nat) : '/' ∉ Nat.toDigits 10 n :=
  fun h => ((decimal_text n).2.2 '/' h).2.2.1 rfl

lemma substringBefore_formatCidr (c : Cidr) :
    substringBefore (formatCidr c).toList = formatAddress c.family c.net := by
  have hall : ∀ d ∈ formatAddress c.family c.net, decide (d ≠ '/') = true := fun d hd =>
    decide_eq_true (chars_formatAddress hd).1
  rw [toList_formatCidr, substringBefore, List.takeWhile_append_of_pos hall,
    List.takeWhile_cons_of_neg (by decide), List.append_nil]

lemma substringAfter_formatCidr (c : Cidr) (default : List Char) :
    substringAfter (formatCidr c).toList default = Nat.toDigits 10 c.pfx := by
  have hall : ∀ d ∈ formatAddress c.family c.net, decide (d ≠ '/') = true := fun d hd =>
    decide_eq_true (chars_formatAddress hd).1
  rw [toList_formatCidr, substringAfter, List.dropWhile_append_of_pos hall,
    List.dropWhile_cons_of_neg (by decide)]

lemma readInt_toDigits (n : Nat) : readInt (Nat.toDigits 10 n) = some (Int.ofNat n) := by
  obtain ⟨hvalue, -, hchars⟩ := decimal_text n
  rw [readInt_of_digits Nat.toDigits_ne_nil fun c hc => (hchars c hc).1, hvalue]

lemma split_formatCidr (c : Cidr) :
    Ios.split (formatCidr c).toList '/' =
      [formatAddress c.family c.net, Nat.toDigits 10 c.pfx] := by
  have hne : formatAddress c.family c.net ≠ [] := by
    cases c.family with
    | v4 => simp [formatAddress, formatIpv4, octets]
    | v6 =>
        simp only [formatAddress, formatIpv6, groups]
        split <;> simp
  rw [Ios.split, toList_formatCidr,
    List.splitOn_append_cons_self_of_not_mem (slash_not_mem_formatAddress _ _),
    List.splitOn_eq_singleton (slash_not_mem_toDigits _)]
  simp [hne]

lemma prefixPart_formatCidr (c : Cidr) (full : Int) :
    Ios.prefixPart (Ios.split (formatCidr c).toList '/') full = Int.ofNat c.pfx := by
  rw [split_formatCidr, Ios.prefixPart, readInt_toDigits]
  rfl

/-! ### Dotted quads and groups -/

section Quads

variable {v : Nat} (hv : v < 2 ^ 32)

lemma splitOn_formatIpv4 (v : Nat) :
    (formatIpv4 v).splitOn '.' = (octets v).map (Nat.toDigits 10) := by
  refine List.splitOn_intercalate '.' ?_ (by simp [octets])
  intro text htext hdot
  obtain ⟨n, -, rfl⟩ := List.mem_map.mp htext
  exact ((decimal_text n).2.2 '.' hdot).2.1 rfl

lemma isIpv4_formatIpv4 (v : Nat) : Android.isIpv4 (formatIpv4 v) = true := by
  have hoctet : ∀ n < 256, (Nat.toDigits 10 n ≠ [] && (Nat.toDigits 10 n).length ≤ 3 &&
      (Nat.toDigits 10 n).all isDigit && decimalValue (Nat.toDigits 10 n) ≤ 255) = true := by
    intro n hn
    obtain ⟨hvalue, -, hchars⟩ := decimal_text n
    have hall : (Nat.toDigits 10 n).all isDigit = true :=
      List.all_eq_true.mpr fun c hc => (hchars c hc).1
    have hlength := length_decimal_text (hn.trans (by decide))
    have hle : n ≤ 255 := Nat.lt_succ_iff.mp hn
    simp [hvalue, hall, hlength, hle]
  rw [Android.isIpv4, splitOn_formatIpv4, List.all_map, Bool.and_eq_true]
  refine ⟨by simp [octets], List.all_eq_true.mpr fun n hn => ?_⟩
  exact hoctet n (octets_lt hn)

include hv

lemma ipToLong_formatIpv4 : Android.ipToLong (formatIpv4 v) = v := by
  have hvalue : ∀ n, decimalValue (Nat.toDigits 10 n) = n := fun n => (decimal_text n).1
  have hlt : ∀ a, a % 2 ^ 8 < 2 ^ 8 := fun a => Nat.mod_lt a (by decide)
  rw [Android.ipToLong, splitOn_formatIpv4, octets_eq]
  simp only [List.map_cons, List.map_nil, List.foldl_cons, List.foldl_nil, hvalue]
  rw [shiftLeft_or (hlt _), shiftLeft_or (hlt _), shiftLeft_or (hlt _), shiftLeft_or (hlt _)]
  omega

lemma inetAddr_formatIpv4 : Ios.inetAddr (formatIpv4 v) = some v := by
  have hnumber : ∀ n, Ios.inetNumber (Nat.toDigits 10 n) = some n := by
    intro n
    obtain ⟨hvalue, hhead, hchars⟩ := decimal_text n
    have hall : (Nat.toDigits 10 n).all isDigit = true :=
      List.all_eq_true.mpr fun c hc => (hchars c hc).1
    rw [Ios.inetNumber.eq_def]
    split
    · -- a leading zero is that of zero, which has one digit only
      rename_i hds
      rcases Nat.eq_zero_or_pos n with rfl | hn
      · cases hds
      · exact absurd (congrArg List.head? hds) (hhead hn)
    · rw [if_pos ⟨Nat.toDigits_ne_nil, hall⟩, hvalue]
  have hmap : ((octets v).map (Nat.toDigits 10)).mapM Ios.inetNumber = some (octets v) := by
    simp [octets, hnumber]
  have hlt : ∀ a, a % 2 ^ 8 < 2 ^ 8 := fun a => Nat.mod_lt a (by decide)
  rw [Ios.inetAddr, splitOn_formatIpv4, hmap, octets_eq]
  simp only [hlt, and_self, if_true]
  refine congrArg some ?_
  omega

end Quads

/-! ### The entries of the line -/

/-- The route of a prefix. -/
def routeOf (c : Cidr) : Route := ⟨c.net, c.pfx⟩

/-- IPv6 entries are told by their colons. -/
lemma colon_mem_formatCidr (c : Cidr) : ':' ∈ (formatCidr c).toList ↔ c.family = .v6 := by
  have hdigits : ∀ n, ':' ∉ Nat.toDigits 10 n := by
    intro n h
    have hdigit := ((decimal_text n).2.2 ':' h).1
    revert hdigit
    decide
  rw [toList_formatCidr]
  cases c.family with
  | v4 =>
      refine iff_of_false ?_ nofun
      intro h
      rcases List.mem_append.mp h with h | h
      · rcases mem_intercalate h with h | ⟨t, ht, hct⟩
        · revert h
          decide
        · obtain ⟨n, -, rfl⟩ := List.mem_map.mp ht
          exact hdigits n hct
      · rcases List.mem_cons.mp h with h | h
        · revert h
          decide
        · exact hdigits _ h
  | v6 =>
      refine iff_of_true (List.mem_append_left _ ?_) rfl
      simp only [formatAddress, formatIpv6]
      split
      · simp [groups]
      · simp

/-- An entry with the text of an address and a length in range. -/
lemma Ios.ipv4Route_of_split {s : List Char} {v p : Nat} (hv : v < 2 ^ 32) (hp : p ≤ 32)
    (haddr : (Ios.split s '/').head? = some (formatIpv4 v))
    (hpfx : Ios.prefixPart (Ios.split s '/') 32 = Int.ofNat p) : Ios.ipv4Route s = some ⟨v, p⟩ := by
  have hrange : ¬ (Int.ofNat p < 0 ∨ Int.ofNat p > 32) := by
    simp only [Int.ofNat_eq_natCast]
    omega
  rw [Ios.ipv4Route, hpfx, haddr]
  simp only [if_neg hrange, inetAddr_formatIpv4 hv]
  -- the all-ones address is told by its text
  by_cases hones : v = 0xffffffff
  · have htext : formatIpv4 v = "255.255.255.255".toList := by
      rw [hones]
      decide
    rw [if_pos htext, hones]
    rfl
  · have htext : formatIpv4 v ≠ "255.255.255.255".toList := by
      intro heq
      have hread := parseIpv4_formatIpv4 hv
      rw [heq] at hread
      have hvalue : parseIpv4 "255.255.255.255".toList = some 0xffffffff := by decide +kernel
      rw [hvalue] at hread
      exact hones (Option.some.inj hread).symm
    rw [if_neg htext, if_neg hones]
    rfl

/-- A prefix that the parsers take. -/
lemma in_range {p bits : Nat} (hp : p ≤ bits) : ¬ (Int.ofNat p < 0 ∨ Int.ofNat p > bits) := by
  simp only [Int.ofNat_eq_natCast]
  omega

section Entries

variable {c : Cidr} (h : c.Canonical)

lemma toList_formatCidr_ne_nil (c : Cidr) : (formatCidr c).toList ≠ [] := by
  rw [toList_formatCidr]
  simp

include h

lemma bounds_v4 (hfam : c.family = .v4) : c.pfx ≤ 32 ∧ c.net < 2 ^ 32 := by
  have hle := h.pfx
  have hlt := h.net
  rw [hfam] at hle hlt
  exact ⟨hle, hlt⟩

lemma bounds_v6 (hfam : c.family = .v6) : c.pfx ≤ 128 ∧ c.net < 2 ^ 128 := by
  have hle := h.pfx
  have hlt := h.net
  rw [hfam] at hle hlt
  exact ⟨hle, hlt⟩

lemma toIntOrNull_pfx : Android.toIntOrNull (Nat.toDigits 10 c.pfx) = some (Int.ofNat c.pfx) := by
  have hle : c.pfx ≤ 128 := h.pfx.trans (by cases c.family <;> decide)
  rw [Android.toIntOrNull, readInt_toDigits, Option.filter_some, if_pos]
  simp only [Bool.and_eq_true, decide_eq_true_eq, Int.ofNat_eq_natCast]
  omega

lemma Android.parseRoute_v4 (hfam : c.family = .v4) :
    Android.parseRoute (formatCidr c).toList = some (routeOf c) := by
  have hcolon : ':' ∉ (formatCidr c).toList := by
    rw [colon_mem_formatCidr, hfam]
    nofun
  obtain ⟨hpfx, hnet⟩ := bounds_v4 h hfam
  have hrange : ¬ (Int.ofNat c.pfx < 0 ∨ Int.ofNat c.pfx > 32) := in_range hpfx
  rw [Android.parseRoute, if_neg (not_or.mpr ⟨toList_formatCidr_ne_nil c, ?_⟩),
    substringBefore_formatCidr, substringAfter_formatCidr, toIntOrNull_pfx h, hfam]
  · simp only [formatAddress, isIpv4_formatIpv4, Bool.not_true, Bool.false_eq_true, false_or,
      if_neg hrange, ipToLong_formatIpv4 hnet]
    rfl
  · exact hcolon

lemma Android.parseRoute6_v6 (hfam : c.family = .v6) :
    Android.parseRoute6 (formatCidr c).toList = some (formatIpv6 c.net, c.pfx) := by
  have hcolon : ':' ∈ (formatCidr c).toList := (colon_mem_formatCidr c).mpr hfam
  have hpfx := (bounds_v6 h hfam).1
  have hrange : ¬ (Int.ofNat c.pfx < 0 ∨ Int.ofNat c.pfx > 128) := in_range hpfx
  rw [Android.parseRoute6, if_neg (not_or.mpr ⟨toList_formatCidr_ne_nil c, ?_⟩),
    substringBefore_formatCidr, substringAfter_formatCidr, toIntOrNull_pfx h, hfam]
  · simp only [if_neg hrange]
    rfl
  · exact not_not_intro hcolon

omit h in
lemma Android.parseRoute_v6 (hfam : c.family = .v6) :
    Android.parseRoute (formatCidr c).toList = none := by
  rw [Android.parseRoute, if_pos (Or.inr ((colon_mem_formatCidr c).mpr hfam))]

omit h in
lemma Android.parseRoute6_v4 (hfam : c.family = .v4) :
    Android.parseRoute6 (formatCidr c).toList = none := by
  have hcolon : ':' ∉ (formatCidr c).toList := by
    rw [colon_mem_formatCidr, hfam]
    nofun
  rw [Android.parseRoute6, if_pos (Or.inr hcolon)]

lemma Ios.ipv4Route_formatCidr (hfam : c.family = .v4) :
    Ios.ipv4Route (formatCidr c).toList = some (routeOf c) := by
  obtain ⟨hpfx, hnet⟩ := bounds_v4 h hfam
  refine Ios.ipv4Route_of_split hnet hpfx ?_ (prefixPart_formatCidr c 32)
  rw [split_formatCidr, hfam]
  rfl

lemma Ios.ipv6Route_formatCidr (hfam : c.family = .v6) :
    Ios.ipv6Route (formatCidr c).toList = some (routeOf c) := by
  obtain ⟨hpfx, hnet⟩ := bounds_v6 h hfam
  have hrange : ¬ (Int.ofNat c.pfx < 0 ∨ Int.ofNat c.pfx > 128) := in_range hpfx
  have hdot : '.' ∉ ((formatIpv6 c.net).reverse.dropWhile (· ≠ ':')).reverse := by
    intro hdot
    have hmem := List.mem_reverse.mp ((List.dropWhile_sublist _).mem (List.mem_reverse.mp hdot))
    exact (@chars_formatAddress .v6 c.net '.' hmem).2.2 rfl rfl
  rw [Ios.ipv6Route, prefixPart_formatCidr, split_formatCidr, hfam]
  simp only [List.head?_cons, if_neg hrange, formatAddress, Ios.ipv6Value, if_neg hdot,
    parseIpv6_formatIpv6 hnet]
  rfl

/-- The prefix covers an address in the text as in the route. -/
lemma Ios.covers_formatCidr (hfam : c.family = .v4) {ip : Nat} (hip : ip < 2 ^ 32) :
    Ios.covers (formatCidr c).toList ip = true ↔ (routeOf c).Holds 32 ip := by
  obtain ⟨hpfx, hnet⟩ := bounds_v4 h hfam
  have hrange : ¬ (Int.ofNat c.pfx < 0 ∨ Int.ofNat c.pfx > 32) := in_range hpfx
  rw [Ios.covers, prefixPart_formatCidr, split_formatCidr, hfam]
  simp only [List.head?_cons, Option.bind_some, formatAddress, Ios.ipv4Value,
    parseIpv4_formatIpv4 hnet, if_neg hrange, decide_eq_true_eq]
  by_cases hzero : c.pfx = 0
  · have hholds : (routeOf c).Holds 32 ip := by
      rw [Route.Holds, routeOf, hzero]
      show ip / 2 ^ 32 = c.net / 2 ^ 32
      rw [Nat.div_eq_of_lt hip, Nat.div_eq_of_lt hnet]
    refine iff_of_true ?_ hholds
    rw [hzero]
    simp
  · have hne : ¬ Int.ofNat c.pfx = 0 := by
      simp only [Int.ofNat_eq_natCast]
      omega
    have htoNat : (Int.ofNat c.pfx).toNat = c.pfx := rfl
    rw [if_neg hne, htoNat, and_mask_eq_iff hnet hip (by omega), eq_comm]
    rfl

end Entries

/-! ### The routes of the line -/

/-- The prefixes of one family. -/
def ofFamily (cs : List Cidr) (family : Family) : List Cidr := cs.filter fun c => c.family = family

lemma mem_ofFamily {cs : List Cidr} {family : Family} {c : Cidr} :
    c ∈ ofFamily cs family ↔ c ∈ cs ∧ c.family = family := by
  simp [ofFamily]

lemma ofFamily_cons (c : Cidr) (cs : List Cidr) (family : Family) :
    ofFamily (c :: cs) family =
      if c.family = family then c :: ofFamily cs family else ofFamily cs family := by
  rw [ofFamily, List.filter_cons]
  simp [ofFamily]

/-- Reading the texts of one family, and none of the other. -/
lemma filterMap_texts {α : Type} {read : List Char → Option α} {value : Cidr → α} {family : Family}
    {cs : List Cidr}
    (hin : ∀ c ∈ cs, c.family = family → read (formatCidr c).toList = some (value c))
    (hout : ∀ c ∈ cs, c.family ≠ family → read (formatCidr c).toList = none) :
    (cs.map fun c => (formatCidr c).toList).filterMap read = (ofFamily cs family).map value := by
  induction cs with
  | nil => rfl
  | cons c cs ih =>
      have ih := ih (fun d hd => hin d (List.mem_cons_of_mem _ hd))
        fun d hd => hout d (List.mem_cons_of_mem _ hd)
      rw [List.map_cons, ofFamily_cons]
      by_cases hfam : c.family = family
      · rw [List.filterMap_cons_some (hin c List.mem_cons_self hfam), ih, if_pos hfam,
          List.map_cons]
      · rw [List.filterMap_cons_none (hout c List.mem_cons_self hfam), ih, if_neg hfam]

/-- The text of the default route, and no other. -/
lemma formatCidr_eq_default_iff {c : Cidr} (h : c.Canonical) (family : Family) :
    (formatCidr c).toList = (formatCidr ⟨family, 0, 0⟩).toList ↔ c = ⟨family, 0, 0⟩ := by
  refine ⟨fun heq => ?_, fun heq => by rw [heq]⟩
  have hdefault : (⟨family, 0, 0⟩ : Cidr).Canonical :=
    ⟨Nat.zero_le _, Nat.two_pow_pos _, Nat.dvd_zero _⟩
  have hread := parseCidr_formatCidr h
  rw [String.toList_inj.mp heq, parseCidr_formatCidr hdefault] at hread
  exact (Option.some.inj hread).symm

section Line

variable {cs : List Cidr} (hcs : ∀ c ∈ cs, c.Canonical) (hne : cs ≠ [])

include hcs hne

lemma Android.parseRoutesCsv_lineOf :
    Android.parseRoutesCsv (lineOf cs) = (ofFamily cs .v4).map routeOf := by
  rw [Android.parseRoutesCsv, Android.items, map_trim_lineOf android_isWhitespace hne]
  refine filterMap_texts (fun c hc hfam => Android.parseRoute_v4 (hcs c hc) hfam) ?_
  intro c _ hfam
  refine Android.parseRoute_v6 ?_
  cases hv : c.family with
  | v4 => exact absurd hv hfam
  | v6 => rfl

lemma Android.addRoutes6_lineOf :
    Android.addRoutes6 (Android.parseRoutes6Csv (lineOf cs)) = (ofFamily cs .v6).map routeOf := by
  have hparse : Android.parseRoutes6Csv (lineOf cs) =
      (ofFamily cs .v6).map fun c => (formatIpv6 c.net, c.pfx) := by
    rw [Android.parseRoutes6Csv, Android.items, map_trim_lineOf android_isWhitespace hne]
    refine filterMap_texts (fun c hc hfam => Android.parseRoute6_v6 (hcs c hc) hfam) ?_
    intro c _ hfam
    refine Android.parseRoute6_v4 ?_
    cases hv : c.family with
    | v4 => rfl
    | v6 => exact absurd hv hfam
  have hadd : ∀ ds : List Cidr, (∀ d ∈ ds, d.net < 2 ^ 128) →
      Android.addRoutes6 (ds.map fun c => (formatIpv6 c.net, c.pfx)) = ds.map routeOf := by
    intro ds hds
    induction ds with
    | nil => rfl
    | cons d ds ih =>
        rw [List.map_cons, Android.addRoutes6, parseIpv6_formatIpv6 (hds d List.mem_cons_self)]
        simp only [ih fun x hx => hds x (List.mem_cons_of_mem _ hx), List.map_cons]
        rfl
  rw [hparse]
  refine hadd _ fun d hd => ?_
  obtain ⟨hd, hfam⟩ := mem_ofFamily.mp hd
  have hlt := (hcs d hd).net
  rwa [hfam] at hlt

omit hcs in
lemma Ios.allowedIps_lineOf :
    Ios.allowedIps (lineOf cs) = cs.map fun c => (formatCidr c).toList := by
  have hnonempty : ∀ raw ∈ (lineOf cs).splitOn ',', raw ≠ [] := by
    rintro raw hraw rfl
    have hmem : Trim.trim Ios.isWhitespace [] ∈ cs.map fun c => (formatCidr c).toList := by
      rw [← map_trim_lineOf ios_isWhitespace hne]
      exact List.mem_map_of_mem hraw
    obtain ⟨c, -, hc⟩ := List.mem_map.mp hmem
    exact toList_formatCidr_ne_nil c hc
  have hsplit : Ios.split (lineOf cs) ',' = (lineOf cs).splitOn ',' := by
    rw [Ios.split]
    exact List.filter_eq_self.mpr fun raw hraw => decide_eq_true (hnonempty raw hraw)
  rw [Ios.allowedIps, hsplit, map_trim_lineOf ios_isWhitespace hne]

omit hcs in
lemma Ios.v4Entries_lineOf :
    Ios.v4Entries (Ios.allowedIps (lineOf cs)) =
      (ofFamily cs .v4).map fun c => (formatCidr c).toList := by
  rw [Ios.allowedIps_lineOf hne, Ios.v4Entries, List.filter_map, ofFamily]
  refine congrArg _ (List.filter_congr fun c _ => ?_)
  have hcolon := colon_mem_formatCidr c
  cases hfam : c.family with
  | v4 => simpa [hfam] using hcolon
  | v6 => simpa [hfam] using hcolon

end Line

/-! ### The addresses of the routes -/

/-- A route holds the interval of its prefix. -/
lemma holds_routeOf {c : Cidr} (h : c.Canonical) (a : Nat) :
    (routeOf c).Holds c.family.bits a ↔ a ∈ cidrToInterval c := by
  obtain ⟨m, hstart, hend, -⟩ := h.block
  have hpow : 0 < 2 ^ (c.family.bits - c.pfx) := Nat.two_pow_pos _
  have hnet : c.net = m * 2 ^ (c.family.bits - c.pfx) := hstart
  rw [Route.Holds, routeOf]
  simp only
  rw [hnet, Nat.mul_div_cancel _ hpow, mem_iff, hstart, Nat.div_eq_iff hpow]
  rw [Nat.succ_mul] at hend
  omega

section Cover

variable {cs : List Cidr} (hcs : ∀ c ∈ cs, c.Canonical)

include hcs

lemma held_ofFamily (family : Family) (a : Nat) :
    Held family.bits ((ofFamily cs family).map routeOf) a ↔
      RoutesCover (cs.map formatCidr) family a := by
  constructor
  · rintro ⟨r, hr, ha⟩
    obtain ⟨c, hc, rfl⟩ := List.mem_map.mp hr
    obtain ⟨hmem, rfl⟩ := mem_ofFamily.mp hc
    exact ⟨_, List.mem_map_of_mem hmem, c, parseCidr_formatCidr (hcs c hmem), rfl,
      (holds_routeOf (hcs c hmem) a).mp ha⟩
  · rintro ⟨s, hs, c, hparse, rfl, ha⟩
    obtain ⟨d, hd, rfl⟩ := List.mem_map.mp hs
    have hdc : d = c := by
      rw [parseCidr_formatCidr (hcs d hd)] at hparse
      exact Option.some.inj hparse
    subst hdc
    exact ⟨_, List.mem_map_of_mem (mem_ofFamily.mpr ⟨hd, rfl⟩), (holds_routeOf (hcs d hd) a).mpr ha⟩

lemma routesCover_map {family : Family} {a : Nat} :
    RoutesCover (cs.map formatCidr) family a ↔
      ∃ c ∈ cs, c.family = family ∧ a ∈ cidrToInterval c := by
  rw [← held_ofFamily hcs]
  constructor
  · rintro ⟨r, hr, ha⟩
    obtain ⟨c, hc, rfl⟩ := List.mem_map.mp hr
    obtain ⟨hmem, rfl⟩ := mem_ofFamily.mp hc
    exact ⟨c, hmem, rfl, (holds_routeOf (hcs c hmem) a).mp ha⟩
  · rintro ⟨c, hc, rfl, ha⟩
    exact ⟨_, List.mem_map_of_mem (mem_ofFamily.mpr ⟨hc, rfl⟩), (holds_routeOf (hcs c hc) a).mpr ha⟩

/-- **A tidy line that covers a family names its default route**, and no other
prefix of the family. -/
lemma eq_default_of_covers (htidy : Tidy (cs.map formatCidr)) {family : Family}
    (hall : ∀ a < 2 ^ family.bits, RoutesCover (cs.map formatCidr) family a) :
    ofFamily cs family = [⟨family, 0, 0⟩] := by
  have hpow : 0 < 2 ^ family.bits := Nat.two_pow_pos _
  have hdefault : (⟨family, 0, 0⟩ : Cidr).Canonical := ⟨Nat.zero_le _, hpow, Nat.dvd_zero _⟩
  obtain ⟨others, hothers⟩ : ∃ others, cs.filter (fun c => !decide (c.family = family)) = others :=
    ⟨_, rfl⟩
  have hmem : ∀ c, c ∈ others ↔ c ∈ cs ∧ c.family ≠ family := by
    intro c
    simp [← hothers]
  have hcs' : ∀ c ∈ (⟨family, 0, 0⟩ : Cidr) :: others, c.Canonical := by
    intro c hc
    rcases List.mem_cons.mp hc with rfl | hc
    · exact hdefault
    · exact hcs c ((hmem c).mp hc).1
  -- the default route stands for all prefixes of the family
  have hlength := htidy.minimal (((⟨family, 0, 0⟩ : Cidr) :: others).map formatCidr) fun fam a => by
    rw [routesCover_map hcs', routesCover_map hcs, List.exists_mem_cons_iff]
    constructor
    · rintro (⟨rfl, ha⟩ | ⟨c, hc, hfam, ha⟩)
      · refine (routesCover_map hcs).mp (hall a ?_)
        exact ha.2.trans_lt hdefault.end_lt
      · exact ⟨c, ((hmem c).mp hc).1, hfam, ha⟩
    · rintro ⟨c, hc, rfl, ha⟩
      by_cases hfam : c.family = family
      · left
        refine ⟨hfam.symm, Nat.zero_le _, ?_⟩
        have hend := (hcs c hc).end_lt
        have hlast : (cidrToInterval ⟨family, 0, 0⟩).end_ = 2 ^ family.bits - 1 := by
          simp [cidrToInterval, Nat.one_shiftLeft]
        rw [hfam] at hend
        have hle := ha.2
        omega
      · exact Or.inr ⟨c, (hmem c).mpr ⟨hc, hfam⟩, rfl, ha⟩
  have hsum : cs.length = (ofFamily cs family).length + others.length := by
    rw [← hothers, ofFamily]
    exact List.length_eq_length_filter_add _
  rw [List.length_map, List.length_map, List.length_cons] at hlength
  obtain ⟨c, hc, hfam, hzero⟩ := (routesCover_map hcs).mp (hall 0 hpow)
  have hcmem := mem_ofFamily.mpr ⟨hc, hfam⟩
  obtain ⟨d, hd⟩ : ∃ d, ofFamily cs family = [d] := by
    refine List.length_eq_one_iff.mp ?_
    have hpos := List.length_pos_of_mem hcmem
    omega
  have hdc : d = c := by
    rw [hd] at hcmem
    exact (List.mem_singleton.mp hcmem).symm
  -- the only prefix holds the first and the last address
  obtain ⟨e, he, hefam, hlast⟩ := (routesCover_map hcs).mp (hall (2 ^ family.bits - 1) (by omega))
  have hec : e = c := by
    have hmem' := mem_ofFamily.mpr ⟨he, hefam⟩
    rw [hd, hdc] at hmem'
    exact List.mem_singleton.mp hmem'
  rw [hec] at hlast
  obtain ⟨fam, net, pfx⟩ := c
  obtain rfl : fam = family := hfam
  have hnet : net = 0 := Nat.le_zero.mp hzero.1
  have hpfx : pfx = 0 := by
    have hle := (hcs _ hc).pfx
    have hend := hlast.2
    simp only [cidrToInterval, Nat.one_shiftLeft, hnet] at hend hle
    have hpow' : 0 < 2 ^ (fam.bits - pfx) := Nat.two_pow_pos _
    have hbits : 2 ^ fam.bits ≤ 2 ^ (fam.bits - pfx) := by omega
    have hbits := (Nat.pow_le_pow_iff_right (by decide)).mp hbits
    have hpos : 0 < fam.bits := by cases fam <;> decide
    omega
  rw [hd, hdc, hnet, hpfx]

end Cover

/-! ### Resolvers -/

/-- An address of either family. -/
structure Address where
  family : Family
  value : Nat
  lt : value < 2 ^ family.bits

/-- The text of an address. -/
def Address.text (r : Address) : List Char := formatAddress r.family r.value

/-- The address is that of an IPv4 resolver. -/
def Resolves (resolvers : List Address) (a : Nat) : Prop :=
  ∃ r ∈ resolvers, r.family = .v4 ∧ r.value = a

lemma Address.isIpv4_text (r : Address) : Android.isIpv4 r.text = true ↔ r.family = .v4 := by
  rw [Address.text]
  cases hfam : r.family with
  | v4 => exact iff_of_true (isIpv4_formatIpv4 _) rfl
  | v6 =>
      refine iff_of_false ?_ nofun
      have hsplit : (formatIpv6 r.value).splitOn '.' = [formatIpv6 r.value] :=
        List.splitOn_eq_singleton fun hdot => (@chars_formatAddress .v6 r.value _ hdot).2.2 rfl rfl
      rw [formatAddress, Android.isIpv4, hsplit]
      simp

lemma Address.ipv4Value_text (r : Address) :
    Ios.ipv4Value r.text = if r.family = .v4 then some r.value else none := by
  have hlt := r.lt
  rw [Address.text]
  cases hfam : r.family with
  | v4 =>
      rw [hfam] at hlt
      exact parseIpv4_formatIpv4 hlt
  | v6 =>
      have hsplit : (formatIpv6 r.value).splitOn '.' = [formatIpv6 r.value] :=
        List.splitOn_eq_singleton fun hdot => (@chars_formatAddress .v6 r.value _ hdot).2.2 rfl rfl
      rw [formatAddress, Ios.ipv4Value, parseIpv4, hsplit]
      rfl

lemma Address.ipToLong_text {r : Address} (h : r.family = .v4) :
    Android.ipToLong r.text = r.value := by
  have hlt := r.lt
  rw [h] at hlt
  rw [Address.text, h]
  exact ipToLong_formatIpv4 hlt

/-- A bare address is a host route. -/
lemma Address.ipv4Route_text {r : Address} (h : r.family = .v4) :
    Ios.ipv4Route r.text = some ⟨r.value, 32⟩ := by
  have hlt := r.lt
  rw [h] at hlt
  have hne : formatIpv4 r.value ≠ [] := by simp [formatIpv4, octets]
  have hsplit : Ios.split r.text '/' = [formatIpv4 r.value] := by
    rw [Ios.split, Address.text, List.splitOn_eq_singleton (slash_not_mem_formatAddress _ _), h]
    simp [formatAddress, hne]
  exact Ios.ipv4Route_of_split hlt le_rfl (by rw [hsplit]; rfl) (by rw [hsplit]; rfl)

lemma exists_isIpv4_iff {resolvers : List Address} {a : Nat} :
    (∃ s ∈ resolvers.map Address.text, Android.isIpv4 s = true ∧ Android.ipToLong s = a) ↔
      Resolves resolvers a := by
  constructor
  · rintro ⟨s, hs, hv4, ha⟩
    obtain ⟨r, hr, rfl⟩ := List.mem_map.mp hs
    have hfam := r.isIpv4_text.mp hv4
    exact ⟨r, hr, hfam, (Address.ipToLong_text hfam).symm.trans ha⟩
  · rintro ⟨r, hr, hfam, ha⟩
    exact ⟨_, List.mem_map_of_mem hr, r.isIpv4_text.mpr hfam, (Address.ipToLong_text hfam).trans ha⟩

/-! ### The two tunnels -/

section Tunnels

variable {cs : List Cidr} (hcs : ∀ c ∈ cs, c.Canonical) (hne : cs ≠ [])

include hcs hne

/-- The services pass no routes on when the line names default routes only. -/
lemma Android.extraRoutes_lineOf (hdefault : ∀ c ∈ cs, c.pfx = 0) :
    Android.extraRoutes (lineOf cs) = none := by
  have hfull : Android.isFullTunnel (lineOf cs) = true := by
    rw [Android.isFullTunnel, Android.items, map_trim_lineOf android_isWhitespace hne,
      List.all_eq_true]
    intro item hitem
    obtain ⟨c, hc, rfl⟩ := List.mem_map.mp (List.mem_of_mem_filter hitem)
    have hpfx := hdefault c hc
    have hnet : c.net = 0 := by
      have haligned := (hcs c hc).aligned
      rw [hpfx, Nat.sub_zero] at haligned
      exact Nat.eq_zero_of_dvd_of_lt haligned (hcs c hc).net
    obtain ⟨family, net, pfx⟩ := c
    obtain rfl : net = 0 := hnet
    obtain rfl : pfx = 0 := hpfx
    cases family <;> decide +kernel
  rw [Android.extraRoutes, if_neg]
  rintro ⟨-, hnot⟩
  rw [hfull] at hnot
  cases hnot

/-- They pass the line on when it names another prefix. -/
lemma Android.extraRoutes_lineOf_of_ne {c : Cidr} (hc : c ∈ cs) (hpfx : c.pfx ≠ 0) :
    Android.extraRoutes (lineOf cs) = some (lineOf cs) := by
  have hnil : lineOf cs ≠ [] := by
    intro hnil
    have htexts := map_trim_lineOf android_isWhitespace hne
    rw [hnil] at htexts
    have hmem : (formatCidr c).toList ∈ [Trim.trim Android.isWhitespace []] := by
      have hin := List.mem_map_of_mem (f := fun c => (formatCidr c).toList) hc
      rw [← htexts] at hin
      exact hin
    exact toList_formatCidr_ne_nil c (List.mem_singleton.mp hmem)
  have hfull : ¬ Android.isFullTunnel (lineOf cs) = true := by
    rw [Android.isFullTunnel, Android.items, map_trim_lineOf android_isWhitespace hne,
      List.all_eq_true]
    intro hall
    have hitem := hall (formatCidr c).toList (List.mem_filter.mpr
      ⟨List.mem_map_of_mem hc, decide_eq_true (toList_formatCidr_ne_nil c)⟩)
    rw [Bool.or_eq_true, decide_eq_true_eq, decide_eq_true_eq] at hitem
    rcases hitem with hv4 | hv6
    · have hc := (formatCidr_eq_default_iff (hcs c hc) .v4).mp (hv4.trans (by decide))
      exact hpfx (by rw [hc])
    · have hc := (formatCidr_eq_default_iff (hcs c hc) .v6).mp (hv6.trans (by decide +kernel))
      exact hpfx (by rw [hc])
  rw [Android.extraRoutes, if_pos ⟨hnil, by simpa using hfull⟩]

omit hne in
lemma ofFamily_wellformed : ∀ r ∈ (ofFamily cs .v4).map routeOf, r.Wellformed := by
  intro r hr
  obtain ⟨c, hc, rfl⟩ := List.mem_map.mp hr
  obtain ⟨hc, hfam⟩ := mem_ofFamily.mp hc
  have hcan := hcs c hc
  have hnet := hcan.net
  have hpfx := hcan.pfx
  rw [hfam] at hnet hpfx
  exact ⟨hnet, hpfx⟩

/-- The IPv4 routes of a split line on Android: the line and the resolvers
without the gateway. -/
lemma Android.held_tunRoutes {c : Cidr} (hc : c ∈ cs) (hpfx : c.pfx ≠ 0) (resolvers : List Address)
    {entry : Nat} (hentry : entry < 2 ^ 32) {a : Nat} (ha : a < 2 ^ 32) :
    Held 32 (Android.tunRoutes (lineOf cs) (resolvers.map Address.text) (formatIpv4 entry)) a ↔
      (RoutesCover (cs.map formatCidr) .v4 a ∨ Resolves resolvers a) ∧ a ≠ entry := by
  have hservers : ∀ s ∈ resolvers.map Address.text, Android.isIpv4 s = true →
      Android.ipToLong s < 2 ^ 32 := by
    intro s hs hv4
    obtain ⟨r, -, rfl⟩ := List.mem_map.mp hs
    have hfam := r.isIpv4_text.mp hv4
    have hlt := r.lt
    rw [Address.ipToLong_text hfam]
    rwa [hfam] at hlt
  have hhost : Android.ipToLong (formatIpv4 entry) < 2 ^ 32 := by
    rwa [ipToLong_formatIpv4 hentry]
  obtain ⟨hwf, hdns⟩ := held_withDnsRoutes (ofFamily_wellformed hcs) hservers
  rw [Android.tunRoutes, Android.extraRoutes_lineOf_of_ne hcs hne hc hpfx]
  simp only
  rw [Android.parseRoutesCsv_lineOf hcs hne, held_subtractHost hwf hhost,
    ipToLong_formatIpv4 hentry, hdns a ha, exists_isIpv4_iff]
  exact and_congr_left fun _ => or_congr_left (held_ofFamily hcs .v4 a)

/-- The IPv6 routes of a split line on Android. -/
lemma Android.held_tunRoutes6 {c : Cidr} (hc : c ∈ cs) (hpfx : c.pfx ≠ 0) (a : Nat) :
    Held 128 (Android.tunRoutes6 (lineOf cs)) a ↔ RoutesCover (cs.map formatCidr) .v6 a := by
  rw [Android.tunRoutes6, Android.extraRoutes_lineOf_of_ne hcs hne hc hpfx]
  simp only
  rw [Android.addRoutes6_lineOf hcs hne]
  exact held_ofFamily hcs .v6 a

/-- The extension takes a line for the full tunnel when it names no IPv4 prefix
or the IPv4 default route. -/
lemma Ios.isFullTunnel_lineOf : Ios.isFullTunnel (Ios.allowedIps (lineOf cs)) = true ↔
    ofFamily cs .v4 = [] ∨ (⟨.v4, 0, 0⟩ : Cidr) ∈ cs := by
  rw [Ios.isFullTunnel, Ios.v4Entries_lineOf hne, Bool.or_eq_true, decide_eq_true_eq,
    decide_eq_true_eq, List.map_eq_nil_iff]
  refine or_congr_right ?_
  have htext : "0.0.0.0/0".toList = (formatCidr ⟨.v4, 0, 0⟩).toList := by decide
  rw [htext]
  constructor
  · intro h
    obtain ⟨c, hc, heq⟩ := List.mem_map.mp h
    obtain ⟨hc, -⟩ := mem_ofFamily.mp hc
    rwa [← (formatCidr_eq_default_iff (hcs c hc) .v4).mp heq]
  · intro h
    exact List.mem_map.mpr ⟨_, mem_ofFamily.mpr ⟨h, rfl⟩, rfl⟩

/-- The IPv4 routes of a split line on iOS: the line and the resolvers. -/
lemma Ios.held_includedV4Routes (hsplit : ¬ (ofFamily cs .v4 = [] ∨ (⟨.v4, 0, 0⟩ : Cidr) ∈ cs))
    (resolvers : List Address) (a : Nat) :
    Held 32 (Ios.includedV4Routes (Ios.allowedIps (lineOf cs)) (resolvers.map Address.text)) a ↔
      RoutesCover (cs.map formatCidr) .v4 a ∨ Resolves resolvers a := by
  have hv4 : ofFamily cs .v4 ≠ [] := fun h => hsplit (Or.inl h)
  have hroutes : ((ofFamily cs .v4).map fun c => (formatCidr c).toList).filterMap Ios.ipv4Route =
      (ofFamily cs .v4).map routeOf := by
    have hself : ofFamily (ofFamily cs .v4) .v4 = ofFamily cs .v4 :=
      List.filter_eq_self.mpr fun c hc => decide_eq_true (mem_ofFamily.mp hc).2
    have hread := @filterMap_texts Route Ios.ipv4Route routeOf .v4 (ofFamily cs .v4)
      (fun c hc hfam => Ios.ipv4Route_formatCidr (hcs c (mem_ofFamily.mp hc).1) hfam)
      fun c hc hfam => absurd (mem_ofFamily.mp hc).2 hfam
    rw [hread, hself]
  have hcovered : ∀ ip < 2 ^ 32, (((ofFamily cs .v4).map fun c => (formatCidr c).toList).any
      fun cidr => Ios.covers cidr ip) = true ↔ RoutesCover (cs.map formatCidr) .v4 ip := by
    intro ip hip
    rw [← held_ofFamily hcs, List.any_eq_true]
    constructor
    · rintro ⟨s, hs, hin⟩
      obtain ⟨c, hc, rfl⟩ := List.mem_map.mp hs
      obtain ⟨hmem, hfam⟩ := mem_ofFamily.mp hc
      exact ⟨_, List.mem_map_of_mem hc, (Ios.covers_formatCidr (hcs c hmem) hfam hip).mp hin⟩
    · rintro ⟨r, hr, hin⟩
      obtain ⟨c, hc, rfl⟩ := List.mem_map.mp hr
      obtain ⟨hmem, hfam⟩ := mem_ofFamily.mp hc
      exact ⟨_, List.mem_map_of_mem hc, (Ios.covers_formatCidr (hcs c hmem) hfam hip).mpr hin⟩
  have hhost : ∀ v b : Nat, (⟨v, 32⟩ : Route).Holds 32 b ↔ v = b := by
    intro v b
    rw [Route.Holds]
    simpa using eq_comm
  have hfull : ¬ Ios.isFullTunnel (Ios.allowedIps (lineOf cs)) = true := fun h =>
    hsplit ((Ios.isFullTunnel_lineOf hcs hne).mp h)
  rw [Ios.includedV4Routes, if_neg hfull, Ios.v4Entries_lineOf hne]
  simp only [hroutes]
  have hline : Held 32 ((ofFamily cs .v4).map routeOf) a ↔ RoutesCover (cs.map formatCidr) .v4 a :=
    held_ofFamily hcs .v4 a
  rw [if_neg (by simpa using hv4), held_append, hline]
  -- a resolver is added where no entry of the line covers it
  constructor
  · rintro (h | ⟨route, hroute, ha⟩)
    · exact Or.inl h
    · obtain ⟨s, hs, hread⟩ := List.mem_filterMap.mp hroute
      obtain ⟨hs, hfresh⟩ := List.mem_filter.mp hs
      obtain ⟨r, hr, rfl⟩ := List.mem_map.mp hs
      rw [r.ipv4Value_text] at hfresh
      by_cases hfam : r.family = .v4
      · rw [Address.ipv4Route_text hfam] at hread
        cases hread
        exact Or.inr ⟨r, hr, hfam, (hhost _ _).mp ha⟩
      · rw [if_neg hfam] at hfresh
        cases hfresh
  · rintro (h | ⟨r, hr, hfam, rfl⟩)
    · exact Or.inl h
    · by_cases hin : RoutesCover (cs.map formatCidr) .v4 r.value
      · exact Or.inl hin
      · have hlt := r.lt
        rw [hfam] at hlt
        refine Or.inr ⟨⟨r.value, 32⟩, List.mem_filterMap.mpr ⟨r.text, List.mem_filter.mpr
          ⟨List.mem_map_of_mem hr, ?_⟩, Address.ipv4Route_text hfam⟩, (hhost _ _).mpr rfl⟩
        rw [r.ipv4Value_text, if_pos hfam]
        simp only [Bool.not_eq_true', ← Bool.not_eq_true, hcovered r.value hlt]
        exact hin

/-- The IPv6 routes of a split line on iOS. -/
lemma Ios.held_ipv6Settings (hsplit : ¬ (ofFamily cs .v4 = [] ∨ (⟨.v4, 0, 0⟩ : Cidr) ∈ cs))
    (a : Nat) : Held 128 ((Ios.ipv6Settings (Ios.allowedIps (lineOf cs))).getD []) a ↔
      RoutesCover (cs.map formatCidr) .v6 a := by
  have hentries : (Ios.allowedIps (lineOf cs)).filter (':' ∈ ·) =
      (ofFamily cs .v6).map fun c => (formatCidr c).toList := by
    rw [Ios.allowedIps_lineOf hne, List.filter_map, ofFamily]
    refine congrArg _ (List.filter_congr fun c _ => ?_)
    have hcolon := colon_mem_formatCidr c
    cases hfam : c.family with
    | v4 => simpa [hfam] using hcolon
    | v6 => simpa [hfam] using hcolon
  have hroutes : ((ofFamily cs .v6).map fun c => (formatCidr c).toList).filterMap Ios.ipv6Route =
      (ofFamily cs .v6).map routeOf := by
    have hself : ofFamily (ofFamily cs .v6) .v6 = ofFamily cs .v6 :=
      List.filter_eq_self.mpr fun c hc => decide_eq_true (mem_ofFamily.mp hc).2
    have hread := @filterMap_texts Route Ios.ipv6Route routeOf .v6 (ofFamily cs .v6)
      (fun c hc hfam => Ios.ipv6Route_formatCidr (hcs c (mem_ofFamily.mp hc).1) hfam)
      fun c hc hfam => absurd (mem_ofFamily.mp hc).2 hfam
    rw [hread, hself]
  have hfull : ¬ Ios.isFullTunnel (Ios.allowedIps (lineOf cs)) = true := fun h =>
    hsplit ((Ios.isFullTunnel_lineOf hcs hne).mp h)
  have hheld := held_ofFamily hcs .v6 a
  rw [Ios.ipv6Settings, if_neg hfull, hentries]
  simp only [hroutes]
  split
  · rename_i hnil
    rw [hnil] at hheld
    exact hheld
  · exact hheld

end Tunnels

/-! ### When the ports agree -/

/-- Both tunnels route the compiled routes and the IPv4 resolvers, the address
of the gateway aside. -/
structure Agree (line : List Char) (routes : List String) (resolvers : List Address)
    (entry : Nat) : Prop where
  v4 : ∀ a < 2 ^ 32, a ≠ entry →
    (Held 32 (Android.tunRoutes line (resolvers.map Address.text) (formatIpv4 entry)) a ↔
      RoutesCover routes .v4 a ∨ Resolves resolvers a) ∧
    (Held 32 (Ios.includedV4Routes (Ios.allowedIps line) (resolvers.map Address.text)) a ↔
      RoutesCover routes .v4 a ∨ Resolves resolvers a)
  v6 : ∀ a < 2 ^ 128,
    (Held 128 (Android.tunRoutes6 line) a ↔ RoutesCover routes .v6 a) ∧
    (Held 128 ((Ios.ipv6Settings (Ios.allowedIps line)).getD []) a ↔ RoutesCover routes .v6 a)

/-- The routes hold some IPv4 addresses and not all of them, or all addresses of
both families; or they are the IPv6 default route alone and every IPv4 address
but the gateway's is a resolver. -/
def AgreeWhen (routes : List String) (resolvers : List Address) (entry : Nat) : Prop :=
  ((∃ a < 2 ^ 32, RoutesCover routes .v4 a) ∧ ∃ a < 2 ^ 32, ¬ RoutesCover routes .v4 a) ∨
    (∀ family : Family, ∀ a < 2 ^ family.bits, RoutesCover routes family a) ∨
    ((∀ a < 2 ^ 128, RoutesCover routes .v6 a) ∧ (∀ a < 2 ^ 32, ¬ RoutesCover routes .v4 a) ∧
      ∀ a < 2 ^ 32, a ≠ entry → Resolves resolvers a)

lemma held_default {bits a : Nat} (ha : a < 2 ^ bits) : Held bits [⟨0, 0⟩] a := by
  rw [held_cons, Route.Holds]
  left
  show a / 2 ^ bits = 0 / 2 ^ bits
  rw [Nat.div_eq_of_lt ha, Nat.zero_div]

section Agreement

variable {cs : List Cidr} (hcs : ∀ c ∈ cs, c.Canonical) (hne : cs ≠ [])

include hcs hne

/-- A line of default routes sends everything into the Android tunnel. -/
lemma Android.held_default_line (hdefault : ∀ c ∈ cs, c.pfx = 0) (resolvers : List Address)
    {entry : Nat} (hentry : entry < 2 ^ 32) :
    (∀ a < 2 ^ 32, a ≠ entry →
      Held 32 (Android.tunRoutes (lineOf cs) (resolvers.map Address.text) (formatIpv4 entry)) a) ∧
      ∀ a < 2 ^ 128, Held 128 (Android.tunRoutes6 (lineOf cs)) a := by
  have hnone := Android.extraRoutes_lineOf hcs hne hdefault
  have hhost : Android.ipToLong (formatIpv4 entry) < 2 ^ 32 := by
    rwa [ipToLong_formatIpv4 hentry]
  refine ⟨fun a ha hne => ?_, fun a ha => ?_⟩
  · rw [Android.tunRoutes, hnone]
    refine (held_routesExcluding hhost ha).mpr ?_
    rwa [ipToLong_formatIpv4 hentry]
  · rw [Android.tunRoutes6, hnone]
    exact held_default ha

/-- The extension sends everything into the tunnel for what it takes for the
full tunnel. -/
lemma Ios.held_full (hfull : ofFamily cs .v4 = [] ∨ (⟨.v4, 0, 0⟩ : Cidr) ∈ cs)
    (resolvers : List Address) :
    (∀ a < 2 ^ 32, Held 32
      (Ios.includedV4Routes (Ios.allowedIps (lineOf cs)) (resolvers.map Address.text)) a) ∧
      ∀ a < 2 ^ 128, Held 128 ((Ios.ipv6Settings (Ios.allowedIps (lineOf cs))).getD []) a := by
  have hfull := (Ios.isFullTunnel_lineOf hcs hne).mpr hfull
  refine ⟨fun a ha => ?_, fun a ha => ?_⟩
  · rw [Ios.includedV4Routes, if_pos hfull]
    exact held_default ha
  · rw [Ios.ipv6Settings, if_pos hfull]
    exact held_default ha

/-- A line that splits IPv4 is read alike. -/
lemma agree_of_split (hsome : ∃ a < 2 ^ 32, RoutesCover (cs.map formatCidr) .v4 a)
    (hleft : ∃ a < 2 ^ 32, ¬ RoutesCover (cs.map formatCidr) .v4 a) (resolvers : List Address)
    {entry : Nat} (hentry : entry < 2 ^ 32) :
    Agree (lineOf cs) (cs.map formatCidr) resolvers entry := by
  obtain ⟨b, hb, hnot⟩ := hleft
  obtain ⟨a, -, hin⟩ := hsome
  obtain ⟨c, hc, hfam, hac⟩ := (routesCover_map hcs).mp hin
  have hdefault : (⟨.v4, 0, 0⟩ : Cidr) ∉ cs := by
    intro hmem
    refine hnot ((routesCover_map hcs).mpr ⟨_, hmem, rfl, Nat.zero_le _, ?_⟩)
    have hend : (cidrToInterval ⟨.v4, 0, 0⟩).end_ = 2 ^ 32 - 1 := rfl
    omega
  have hpfx : c.pfx ≠ 0 := by
    intro hzero
    have haligned := (hcs c hc).aligned
    rw [hzero, Nat.sub_zero] at haligned
    have hnet := Nat.eq_zero_of_dvd_of_lt haligned (hcs c hc).net
    obtain ⟨family, net, pfx⟩ := c
    obtain rfl : family = .v4 := hfam
    obtain rfl : net = 0 := hnet
    obtain rfl : pfx = 0 := hzero
    exact hdefault hc
  have hsplit : ¬ (ofFamily cs .v4 = [] ∨ (⟨.v4, 0, 0⟩ : Cidr) ∈ cs) := by
    rintro (hnil | hmem)
    · have hmem := mem_ofFamily.mpr ⟨hc, hfam⟩
      rw [hnil] at hmem
      cases hmem
    · exact hdefault hmem
  refine ⟨fun a ha hne' => ⟨?_, Ios.held_includedV4Routes hcs hne hsplit resolvers a⟩, fun a _ =>
    ⟨Android.held_tunRoutes6 hcs hne hc hpfx a, Ios.held_ipv6Settings hcs hne hsplit a⟩⟩
  rw [Android.held_tunRoutes hcs hne hc hpfx resolvers hentry ha, and_iff_left hne']

omit hne in
/-- The prefixes of a tidy line that covers its families are default routes. -/
lemma pfx_eq_zero (htidy : Tidy (cs.map formatCidr))
    (hall : ∀ c ∈ cs, ∀ a < 2 ^ c.family.bits, RoutesCover (cs.map formatCidr) c.family a) :
    ∀ c ∈ cs, c.pfx = 0 := by
  intro c hc
  have hmem := mem_ofFamily.mpr ⟨hc, rfl⟩
  rw [eq_default_of_covers hcs htidy (hall c hc)] at hmem
  rw [List.mem_singleton.mp hmem]

/-- **The ports agree exactly when** the line splits IPv4 or is the full
tunnel. -/
theorem agree_iff (htidy : Tidy (cs.map formatCidr)) (resolvers : List Address) {entry : Nat}
    (hentry : entry < 2 ^ 32) : Agree (lineOf cs) (cs.map formatCidr) resolvers entry ↔
      AgreeWhen (cs.map formatCidr) resolvers entry := by
  have hv4 : ofFamily cs .v4 = [] ∨ (∀ a < 2 ^ 32, RoutesCover (cs.map formatCidr) .v4 a) ∨
      ((∃ a < 2 ^ 32, RoutesCover (cs.map formatCidr) .v4 a) ∧
        ∃ a < 2 ^ 32, ¬ RoutesCover (cs.map formatCidr) .v4 a) := by
    rcases hnil : ofFamily cs .v4 with _ | ⟨c, _⟩
    · exact Or.inl rfl
    · obtain ⟨hc, hfam⟩ := mem_ofFamily.mp (hnil ▸ List.mem_cons_self : c ∈ ofFamily cs .v4)
      right
      by_cases hall : ∀ a < 2 ^ 32, RoutesCover (cs.map formatCidr) .v4 a
      · exact Or.inl hall
      · push Not at hall
        have hnet := (hcs c hc).net
        rw [hfam] at hnet
        exact Or.inr ⟨⟨c.net, hnet, (routesCover_map hcs).mpr ⟨c, hc, hfam, le_rfl,
          (hcs c hc).start_le⟩⟩, hall⟩
  have hnone : ofFamily cs .v4 = [] → ∀ a < 2 ^ 32, ¬ RoutesCover (cs.map formatCidr) .v4 a := by
    intro hnil a _ ha
    obtain ⟨c, hc, hfam, -⟩ := (routesCover_map hcs).mp ha
    have hmem := mem_ofFamily.mpr ⟨hc, hfam⟩
    rw [hnil] at hmem
    cases hmem
  constructor
  · rintro ⟨hagree4, hagree6⟩
    rcases hv4 with hnil | hall | hsplit
    · -- no IPv4 prefix: the extension routes everything
      obtain ⟨hios4, hios6⟩ := Ios.held_full hcs hne (Or.inl hnil) resolvers
      refine Or.inr (Or.inr ⟨fun a ha => (hagree6 a ha).2.mp (hios6 a ha), hnone hnil, ?_⟩)
      intro a ha hne'
      exact ((hagree4 a ha hne').2.mp (hios4 a ha)).resolve_left (hnone hnil a ha)
    · -- the IPv4 default route: the extension routes all of IPv6 with it
      have hmem : (⟨.v4, 0, 0⟩ : Cidr) ∈ cs := by
        have hin : (⟨.v4, 0, 0⟩ : Cidr) ∈ ofFamily cs .v4 := by
          rw [@eq_default_of_covers cs hcs htidy .v4 hall]
          exact List.mem_singleton_self _
        exact (mem_ofFamily.mp hin).1
      obtain ⟨-, hios6⟩ := Ios.held_full hcs hne (Or.inr hmem) resolvers
      refine Or.inr (Or.inl fun family => ?_)
      cases family with
      | v4 => exact hall
      | v6 => exact fun a ha => (hagree6 a ha).2.mp (hios6 a ha)
    · exact Or.inl hsplit
  · rintro (⟨hsome, hleft⟩ | hall | ⟨hall6, hnone4, hresolve⟩)
    · exact agree_of_split hcs hne hsome hleft resolvers hentry
    · have hdefault := pfx_eq_zero hcs htidy fun c _ => hall c.family
      have hmem : (⟨.v4, 0, 0⟩ : Cidr) ∈ cs := by
        have hin : (⟨.v4, 0, 0⟩ : Cidr) ∈ ofFamily cs .v4 := by
          rw [eq_default_of_covers hcs htidy (hall .v4)]
          exact List.mem_singleton_self _
        exact (mem_ofFamily.mp hin).1
      obtain ⟨hand4, hand6⟩ := Android.held_default_line hcs hne hdefault resolvers hentry
      obtain ⟨hios4, hios6⟩ := Ios.held_full hcs hne (Or.inr hmem) resolvers
      refine ⟨fun a ha hne' => ?_, fun a ha => ?_⟩
      · exact ⟨iff_of_true (hand4 a ha hne') (Or.inl (hall .v4 a ha)),
          iff_of_true (hios4 a ha) (Or.inl (hall .v4 a ha))⟩
      · exact ⟨iff_of_true (hand6 a ha) (hall .v6 a ha), iff_of_true (hios6 a ha) (hall .v6 a ha)⟩
    · have hnil : ofFamily cs .v4 = [] := by
        refine List.eq_nil_iff_forall_not_mem.mpr fun c hc => ?_
        obtain ⟨hc, hfam⟩ := mem_ofFamily.mp hc
        have hnet := (hcs c hc).net
        rw [hfam] at hnet
        exact hnone4 c.net hnet
          ((routesCover_map hcs).mpr ⟨c, hc, hfam, le_rfl, (hcs c hc).start_le⟩)
      have hdefault := pfx_eq_zero hcs htidy fun c hc => by
        cases hfam : c.family with
        | v4 =>
            have hmem := mem_ofFamily.mpr ⟨hc, hfam⟩
            rw [hnil] at hmem
            cases hmem
        | v6 => exact hall6
      obtain ⟨hand4, hand6⟩ := Android.held_default_line hcs hne hdefault resolvers hentry
      obtain ⟨hios4, hios6⟩ := Ios.held_full hcs hne (Or.inl hnil) resolvers
      refine ⟨fun a ha hne' => ?_, fun a ha => ?_⟩
      · exact ⟨iff_of_true (hand4 a ha hne') (Or.inr (hresolve a ha hne')),
          iff_of_true (hios4 a ha) (Or.inr (hresolve a ha hne'))⟩
      · exact ⟨iff_of_true (hand6 a ha) (hall6 a ha), iff_of_true (hios6 a ha) (hall6 a ha)⟩

end Agreement

/-! ### Compiled lines -/

/-- The prefixes that the line of a plan names. -/
def renderedRoutes (split : CompiledSplit) : List String :=
  if split.isNoop ∨ split.tunnelRoutes = [] then ["0.0.0.0/0", "::/0"] else split.tunnelRoutes

lemma allowedIpsFor_eq (split : CompiledSplit) :
    allowedIpsFor (some split) = ", ".intercalate (renderedRoutes split) := by
  simp only [allowedIpsFor, renderedRoutes]
  split
  · decide
  · rfl

lemma renderedRoutes_ne_nil (split : CompiledSplit) : renderedRoutes split ≠ [] := by
  rw [renderedRoutes]
  split
  · simp
  · rename_i h
    exact fun hnil => h (Or.inr hnil)

/-- The full tunnel is tidy: it is the complement of nothing. -/
lemma tidy_full : Tidy ["0.0.0.0/0", "::/0"] := by
  have hfull : complementRoutes [] .both = .ok ["0.0.0.0/0", "::/0"] := by decide +kernel
  have hroutes := complementRoutes_eq (fun _ hs => absurd hs List.not_mem_nil) .both
  rw [hfull] at hroutes
  rw [Except.ok.inj hroutes]
  exact routesOf_tidy (complementOf_proper [] .both)

/-- **The mobile tunnels route the compiled routes exactly when** the line
splits IPv4, or is the full tunnel. -/
theorem compiled_agree_iff (unicode : Unicode) (value : Json) (ctx : CompileSplitContext)
    {split : CompiledSplit}
    (hsplit : compileSplitPolicy (sanitizeSplitPolicy unicode value) ctx = .ok split)
    (resolvers : List Address) {entry : Nat} (hentry : entry < 2 ^ 32) :
    Agree (allowedIpsFor (some split)).toList (renderedRoutes split) resolvers entry ↔
      AgreeWhen (renderedRoutes split) resolvers entry := by
  have htidy : Tidy (renderedRoutes split) := by
    obtain ⟨split', hsplit', hdenotes⟩ :=
      @compile_denotes (sanitizeSplitPolicy unicode value) ctx (sanitized_valid unicode value)
    rw [hsplit] at hsplit'
    cases hsplit'
    rw [renderedRoutes]
    split
    · exact tidy_full
    · exact hdenotes.tunnelTidy
  obtain ⟨cs, hcs, hroutes⟩ : ∃ cs : List Cidr, (∀ c ∈ cs, c.Canonical) ∧
      cs.map formatCidr = renderedRoutes split := by
    refine ⟨(renderedRoutes split).filterMap parseCidr, ?_, ?_⟩
    · intro c hc
      obtain ⟨s, -, hparse⟩ := List.mem_filterMap.mp hc
      exact canonical_of_parseCidr hparse
    · rw [List.map_filterMap]
      refine (List.filterMap_congr fun s hs => ?_).trans List.filterMap_some
      obtain ⟨c, hc, rfl⟩ := htidy.aligned s hs
      rw [parseCidr_formatCidr hc]
      rfl
  have hne : cs ≠ [] := by
    rintro rfl
    exact renderedRoutes_ne_nil split hroutes.symm
  rw [← hroutes] at htidy
  rw [allowedIpsFor_eq, ← hroutes]
  exact agree_iff hcs hne htidy resolvers hentry

/-- The plan of a rule that takes in the lower half of IPv4. -/
theorem compiled_agree_iff_half :
    Agree "0.0.0.0/1".toList ["0.0.0.0/1"] [] 0x01020304 ↔
      AgreeWhen ["0.0.0.0/1"] [] 0x01020304 := by
  have hsplit : compileSplitPolicy (sanitizeSplitPolicy asciiUnicode
      (jsonPolicy "include" false [jsonRule "cidr" "0.0.0.0/1"])) ⟨.ios, false, []⟩ =
      .ok ⟨["0.0.0.0/1"], [], [], [], [], [], false⟩ := by
    decide +kernel
  exact compiled_agree_iff asciiUnicode _ _ hsplit [] (by decide)

/-- The extension routes an excluded IPv6 network into the tunnel.  Where only
IPv6 is to be tunnelled, it routes all of IPv4 as well. -/
theorem not_compiled_agree :
    (∃ split, compileSplitPolicy (sanitizeSplitPolicy asciiUnicode
        (jsonPolicy "exclude" false [jsonRule "cidr" "8000::/1"])) ⟨.ios, false, []⟩ = .ok split ∧
      ¬ RoutesCover split.tunnelRoutes .v6 (2 ^ 127) ∧
      Held 128 ((Ios.ipv6Settings (Ios.allowedIps (allowedIpsFor (some split)).toList)).getD [])
        (2 ^ 127) ∧
      ¬ Held 128 (Android.tunRoutes6 (allowedIpsFor (some split)).toList) (2 ^ 127)) ∧
    ∃ split, compileSplitPolicy (sanitizeSplitPolicy asciiUnicode
        (jsonPolicy "include" false [jsonRule "cidr" "2000::/3"])) ⟨.ios, false, []⟩ =
        .ok split ∧
      ¬ RoutesCover split.tunnelRoutes .v4 0x08080808 ∧
      Held 32 (Ios.includedV4Routes (Ios.allowedIps (allowedIpsFor (some split)).toList) [])
        0x08080808 ∧
      ¬ Held 32 (Android.tunRoutes (allowedIpsFor (some split)).toList [] "1.2.3.4".toList)
        0x08080808 := by
  refine ⟨⟨⟨["0.0.0.0/0", "::/1"], [], [], [], [], [], false⟩, ?_⟩,
    ⟨["2000::/3"], [], [], [], [], [], false⟩, ?_⟩
  · decide +kernel
  · decide +kernel

end CumulusVpn.Mobile
