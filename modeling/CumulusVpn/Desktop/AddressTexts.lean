/-
The texts of addresses that the clients write (`clients/core-ts/src/split.ts`), read
by the privileged side.

The check of a request must not refuse what its own clients send: a prefix that
is formatted in TypeScript is read here by `std::net`.

* `readNumber_append`: **digits are read**, in any radix, up to what is no digit;
* `parseIpAddr_formatIpv4`, `parseIpAddr_formatIpv6`: the text of an address gives
  the address;
* `readGroups_groupsText`: **groups are read**, up to where no more can be;
* `compiled_accepted`: **the prefixes that the clients compile are accepted as
  routes**.
-/
import CumulusVpn.Desktop.Validate
import CumulusVpn.Split.CidrText

namespace CumulusVpn.Desktop.Validate

open Net TextReader

/-! ### Numbers -/

section Displayed

variable {n v : Nat} {rest : List Char}

lemma toDigit_of_isDigit {c : Char} (h : Split.isDigit c = true) :
    toDigit 10 c = some (c.toNat - 48) := by
  have hdigit : '0' ≤ c ∧ c ≤ '9' := by simpa [Split.isDigit] using h
  have hle : c.toNat ≤ 57 := hdigit.2
  have hlt : c.toNat - 48 < 10 := by omega
  rw [toDigit, digitValue, if_pos hdigit]
  simp [Option.filter, hlt]

lemma toDigit_of_isHex {c : Char} (h : Split.isHex c = true) :
    toDigit 16 c = some (Split.hexDigitValue c) := by
  simp only [Split.isHex, Split.isDigit, Bool.or_eq_true, Bool.and_eq_true,
    decide_eq_true_eq] at h
  have hno : 57 < c.toNat → ¬ ('0' ≤ c ∧ c ≤ '9') := fun hgt hdigit => by
    have hle : c.toNat ≤ 57 := hdigit.2
    omega
  rcases h with (hdigit | hlower) | hupper
  · have hle : c.toNat ≤ 57 := hdigit.2
    have hlt : c.toNat - 48 < 16 := by omega
    rw [toDigit, digitValue, if_pos hdigit, Split.hexDigitValue,
      if_pos (by simpa [Split.isDigit] using hdigit)]
    simp [Option.filter, hlt]
  · have hle : c.toNat ≤ 102 := hlower.2
    have hge : 97 ≤ c.toNat := hlower.1
    have hlt : c.toNat - 87 < 16 := by omega
    have hno := hno (by omega)
    have hrange : 'a' ≤ c ∧ c ≤ 'z' := ⟨hlower.1, Char.le_trans hlower.2 (by decide)⟩
    rw [toDigit, digitValue, if_neg hno, if_pos hrange, Split.hexDigitValue,
      if_neg (by simpa [Split.isDigit] using hno), if_pos (by simpa using hlower)]
    simp [Option.filter, hlt]
  · have hle : c.toNat ≤ 70 := hupper.2
    have hge : 65 ≤ c.toNat := hupper.1
    have hlt : c.toNat - 55 < 16 := by omega
    have hno := hno (by omega)
    have hlower : ∀ d : Char, ¬ ('a' ≤ c ∧ c ≤ d) := fun d hrange => by
      have hge : 97 ≤ c.toNat := hrange.1
      omega
    have hrange : 'A' ≤ c ∧ c ≤ 'Z' := ⟨hupper.1, Char.le_trans hupper.2 (by decide)⟩
    rw [toDigit, digitValue, if_neg hno, if_neg (hlower 'z'), if_pos hrange, Split.hexDigitValue,
      if_neg (by simpa [Split.isDigit] using hno), if_neg (by simpa using hlower 'f')]
    simp [Option.filter, hlt]

/-- Decimal digits stand for the same number on either side. -/
lemma number_eq_decimalValue {ds : List Char} (h : ∀ c ∈ ds, Split.isDigit c = true) :
    number 10 ds = Split.decimalValue ds :=
  List.foldl_ext _ _ 0 fun k c hc => by
    rw [toDigit_of_isDigit (h c hc), Option.getD_some, Nat.mul_comm]

lemma number_toDigits (n : Nat) : number 10 (Nat.toDigits 10 n) = n := by
  obtain ⟨hvalue, -, hchars⟩ := Split.decimal_text n
  exact (number_eq_decimalValue fun c hc => (hchars c hc).1).trans hvalue

lemma number_toDigits_hex (n : Nat) : number 16 (Nat.toDigits 16 n) = n := by
  obtain ⟨hvalue, hchars⟩ := Split.hex_text n
  have hsame : number 16 (Nat.toDigits 16 n) = Split.hexValue (Nat.toDigits 16 n) :=
    List.foldl_ext _ _ 0 fun k c hc => by
      rw [toDigit_of_isHex (hchars c hc).1, Option.getD_some, Nat.mul_comm]
  exact hsame.trans hvalue

/-- **Digits are read**, up to what is no digit. -/
lemma readNumber_append {radix max : Nat} {maxDigits : Option Nat} {allowZeroPrefix : Bool}
    {ds : List Char} (hne : ds ≠ []) (hdigits : ∀ c ∈ ds, (toDigit radix c).isSome = true)
    (hlength : ∀ k ∈ maxDigits, ds.length ≤ k)
    (hzero : allowZeroPrefix = true ∨ ds.head? ≠ some '0' ∨ ds.length ≤ 1)
    (hmax : number radix ds ≤ max) (hrest : ∀ c ∈ rest.head?, toDigit radix c = none) :
    readNumber radix maxDigits allowZeroPrefix max (ds ++ rest) =
      some (number radix ds, rest) := by
  have htake : (ds ++ rest).takeWhile (fun c => (toDigit radix c).isSome) = ds := by
    rw [List.takeWhile_append_of_pos hdigits]
    cases rest with
    | nil => simp
    | cons c rest => rw [List.takeWhile_cons_of_neg (by simp [hrest c rfl]), List.append_nil]
  have hdrop : (ds ++ rest).dropWhile (fun c => (toDigit radix c).isSome) = rest := by
    rw [List.dropWhile_append_of_pos hdigits]
    cases rest with
    | nil => rfl
    | cons c rest => exact List.dropWhile_cons_of_neg (by simp [hrest c rfl])
  rw [readNumber]
  simp only [htake, hdrop]
  rw [if_neg]
  rintro (hnil | hlong | ⟨hno, hlead, hlong⟩ | hlarge)
  · exact hne hnil
  · cases maxDigits with
    | none => cases hlong
    | some k => exact absurd (hlength k rfl) (by simpa using hlong)
  · rcases hzero with hallow | hhead | hshort
    · rw [hno] at hallow
      cases hallow
    · exact hhead hlead
    · omega
  · omega

lemma readNumber_toDigits {max : Nat} {maxDigits : Option Nat} {allowZeroPrefix : Bool}
    (hn : n ≤ max) (hlength : ∀ k ∈ maxDigits, (Nat.toDigits 10 n).length ≤ k)
    (hrest : ∀ c ∈ rest.head?, toDigit 10 c = none) :
    readNumber 10 maxDigits allowZeroPrefix max (Nat.toDigits 10 n ++ rest) = some (n, rest) := by
  obtain ⟨-, hhead, hchars⟩ := Split.decimal_text n
  have hread : readNumber 10 maxDigits allowZeroPrefix max (Nat.toDigits 10 n ++ rest) =
      some (number 10 (Nat.toDigits 10 n), rest) := by
    refine readNumber_append Nat.toDigits_ne_nil (fun c hc => ?_) hlength ?_
      ((number_toDigits n).trans_le hn) hrest
    · rw [toDigit_of_isDigit (hchars c hc).1, Option.isSome_some]
    · rcases Nat.eq_zero_or_pos n with rfl | hpos
      · exact .inr (.inr (by decide))
      · exact .inr (.inl (hhead hpos))
  rw [hread, number_toDigits]

/-! ### IPv4 -/

lemma readIpv4Addr_formatIpv4 (hv : v < 2 ^ 32) (hrest : ∀ c ∈ rest.head?, toDigit 10 c = none) :
    readIpv4Addr (Split.formatIpv4 v ++ rest) = some (v, rest) := by
  have hoctet : ∀ {n : Nat} {rest : List Char}, (∀ c ∈ rest.head?, toDigit 10 c = none) →
      readNumber 10 (some 3) false 255 (Nat.toDigits 10 (n % 2 ^ 8) ++ rest) =
        some (n % 2 ^ 8, rest) := fun {n rest} hrest => by
    have hlt : n % 2 ^ 8 < 2 ^ 8 := Nat.mod_lt n (by decide)
    refine readNumber_toDigits (by omega) ?_ hrest
    rintro k ⟨⟩
    exact Split.length_decimal_text (by omega)
  have hnext : ∀ {n : Nat} {rest : List Char}, (∀ c ∈ rest.head?, toDigit 10 c = none) →
      readSeparator '.' false (readNumber 10 (some 3) false 255)
        ('.' :: (Nat.toDigits 10 (n % 2 ^ 8) ++ rest)) = some (n % 2 ^ 8, rest) := fun hrest =>
    (bind_of_eq_some (char_cons '.' _)).trans (hoctet hrest)
  have hdot : ∀ {s : List Char}, ∀ c ∈ ('.' :: s).head?, toDigit 10 c = none := by
    rintro s c ⟨⟩
    decide
  have hparts : Split.formatIpv4 v ++ rest = Nat.toDigits 10 (v / 2 ^ 24 % 2 ^ 8) ++
      '.' :: (Nat.toDigits 10 (v / 2 ^ 16 % 2 ^ 8) ++ '.' :: (Nat.toDigits 10 (v / 2 ^ 8 % 2 ^ 8) ++
        '.' :: (Nat.toDigits 10 (v % 2 ^ 8) ++ rest))) := by
    simp [Split.formatIpv4, Split.octets_eq, List.intercalate]
  have hvalue : ((v / 2 ^ 24 % 2 ^ 8 * 256 + v / 2 ^ 16 % 2 ^ 8) * 256 + v / 2 ^ 8 % 2 ^ 8) * 256 +
      v % 2 ^ 8 = v := by omega
  calc readIpv4Addr (Split.formatIpv4 v ++ rest)
      = some (((v / 2 ^ 24 % 2 ^ 8 * 256 + v / 2 ^ 16 % 2 ^ 8) * 256 + v / 2 ^ 8 % 2 ^ 8) * 256 +
          v % 2 ^ 8, rest) := by
        rw [hparts]
        exact (bind_of_eq_some (hoctet hdot)).trans <| (bind_of_eq_some (hnext hdot)).trans <|
          (bind_of_eq_some (hnext hdot)).trans (bind_of_eq_some (hnext hrest))
    _ = some (v, rest) := by rw [hvalue]

lemma parseIpAddr_formatIpv4 (hv : v < 2 ^ 32) :
    parseIpAddr (Split.formatIpv4 v) = some (.ofNat .v4 v) := by
  have hread : readIpv4Addr (Split.formatIpv4 v ++ []) = some (v, []) :=
    readIpv4Addr_formatIpv4 hv (by simp)
  rw [List.append_nil] at hread
  exact whole_of_eq_some (orElse_of_eq_some (bind_of_eq_some hread))

/-! ### IPv6 -/

/-- What comes after a number that is read. -/
lemma readNumber_suffix {radix max : Nat} {maxDigits : Option Nat} {allowZeroPrefix : Bool}
    {s : List Char} (h : readNumber radix maxDigits allowZeroPrefix max s = some (n, rest)) :
    rest <:+ s := by
  rw [readNumber] at h
  split at h
  · cases h
  · obtain ⟨-, rfl⟩ := Prod.mk.inj (Option.some_inj.mp h)
    exact List.dropWhile_suffix _

/-- Without a dot there is no IPv4 address. -/
lemma readIpv4Addr_eq_none {s : List Char} (h : '.' ∉ s) : readIpv4Addr s = none := by
  cases hread : readNumber 10 (some 3) false 255 s with
  | none => exact bind_of_eq_none hread
  | some p =>
      have hdot : '.' ∉ p.2 := fun hmem => h ((readNumber_suffix hread).mem hmem)
      have hchar : Reader.char '.' p.2 = none := char_eq_none fun hhead =>
        hdot (List.mem_of_mem_head? hhead)
      exact (bind_of_eq_some hread).trans (bind_of_eq_none (bind_of_eq_none hchar))

/-- The groups as they stand in the text, behind a colon or not. -/
def groupsText : Bool → List Nat → List Char
  | _, [] => []
  | true, g :: gs => Nat.toDigits 16 g ++ groupsText false gs
  | false, g :: gs => ':' :: (Nat.toDigits 16 g ++ groupsText false gs)

lemma intercalate_eq_groupsText (gs : List Nat) :
    List.intercalate [':'] (gs.map (Nat.toDigits 16)) = groupsText true gs := by
  induction gs with
  | nil => rfl
  | cons g gs ih =>
      cases gs with
      | nil => simp [groupsText, List.intercalate]
      | cons g' gs =>
          rw [List.map_cons, List.map_cons, List.intercalate_cons_cons, ← List.map_cons, ih]
          simp [groupsText]

/-- No group can be read. -/
def Stops (s : List Char) : Prop :=
  ∀ first, readSeparator ':' first (readNumber 16 (some 4) true 65535) s = none

lemma stops_nil : Stops [] := by
  intro first
  cases first <;> rfl

lemma stops_compressed (s : List Char) : Stops (':' :: ':' :: s) := by
  have hcolon : ∀ s : List Char, readNumber 16 (some 4) true 65535 (':' :: s) = none := fun s => by
    rw [readNumber]
    exact if_pos (Or.inl rfl)
  intro first
  cases first with
  | true => exact hcolon (':' :: s)
  | false => exact (bind_of_eq_some (char_cons ':' _)).trans (hcolon s)

lemma toDigit_colon : toDigit 16 ':' = none := rfl

/-- What comes after a group is no hex digit. -/
lemma head_groupsText {gs : List Nat} (hrest : ∀ c ∈ rest.head?, toDigit 16 c = none) :
    ∀ c ∈ (groupsText false gs ++ rest).head?, toDigit 16 c = none := by
  cases gs with
  | nil => exact hrest
  | cons g gs =>
      rintro c ⟨⟩
      exact toDigit_colon

lemma readNumber_group {g : Nat} (hg : g < 2 ^ 16)
    (hrest : ∀ c ∈ rest.head?, toDigit 16 c = none) :
    readNumber 16 (some 4) true 65535 (Nat.toDigits 16 g ++ rest) = some (g, rest) := by
  have hread : readNumber 16 (some 4) true 65535 (Nat.toDigits 16 g ++ rest) =
      some (number 16 (Nat.toDigits 16 g), rest) := by
    refine readNumber_append Nat.toDigits_ne_nil (fun c hc => ?_) ?_ (.inl rfl) ?_ hrest
    · rw [toDigit_of_isHex ((Split.hex_text g).2 c hc).1, Option.isSome_some]
    · rintro k ⟨⟩
      exact (Nat.length_toDigits_le_iff (by decide) (by decide)).mpr hg
    · rw [number_toDigits_hex]
      omega
  rw [hread, number_toDigits_hex]

lemma readSeparator_groupsText {g : Nat} {gs : List Nat} (hg : g < 2 ^ 16)
    (hrest : ∀ c ∈ rest.head?, toDigit 16 c = none) (first : Bool) :
    readSeparator ':' first (readNumber 16 (some 4) true 65535)
      (groupsText first (g :: gs) ++ rest) = some (g, groupsText false gs ++ rest) := by
  have hgroup : readNumber 16 (some 4) true 65535
      (Nat.toDigits 16 g ++ (groupsText false gs ++ rest)) =
        some (g, groupsText false gs ++ rest) :=
    readNumber_group hg (head_groupsText hrest)
  cases first with
  | true =>
      rw [groupsText, List.append_assoc]
      exact hgroup
  | false =>
      rw [groupsText, List.cons_append, List.append_assoc]
      exact (bind_of_eq_some (char_cons ':' _)).trans hgroup

/-- Without a dot no group is an IPv4 address. -/
lemma readSeparator_ipv4_eq_none {s : List Char} (h : '.' ∉ s) (first : Bool) :
    readSeparator ':' first readIpv4Addr s = none := by
  cases first with
  | true => exact readIpv4Addr_eq_none h
  | false =>
      cases s with
      | nil => rfl
      | cons c s =>
          by_cases hc : c = ':'
          · subst hc
            exact (bind_of_eq_some (char_cons ':' s)).trans
              (readIpv4Addr_eq_none fun hmem => h (List.mem_cons_of_mem _ hmem))
          · exact bind_of_eq_none (if_neg hc)

/-- Without a dot there is an IPv4 address in no group. -/
lemma readLast_eq_none {s : List Char} (h : '.' ∉ s) (left : Nat) (first : Bool) :
    (do
      let v4 ← (if 0 < left then readSeparator ':' first readIpv4Addr else failure)
      return ([v4 / 65536, v4 % 65536], true) : Reader Char (List Nat × Bool)) s = none := by
  refine bind_of_eq_none ?_
  split
  · exact readSeparator_ipv4_eq_none h first
  · rfl

/-- **Groups are read**, up to where no more can be. -/
lemma readGroups_groupsText {gs : List Nat} (hgs : ∀ g ∈ gs, g < 2 ^ 16) (hstops : Stops rest)
    (hrest : ∀ c ∈ rest.head?, toDigit 16 c = none) {left : Nat} (hleft : gs.length ≤ left)
    (first : Bool) (hdot : '.' ∉ groupsText first gs ++ rest) :
    readGroups left first (groupsText first gs ++ rest) = some ((gs, false), rest) := by
  induction gs generalizing left first with
  | nil =>
      have htext : groupsText first [] ++ rest = rest := by cases first <;> rfl
      rw [htext] at hdot ⊢
      cases left with
      | zero => rfl
      | succ left =>
          rw [readGroups, orElse_of_eq_none (readLast_eq_none hdot left first),
            orElse_of_eq_none (bind_of_eq_none (hstops first))]
          rfl
  | cons g gs ih =>
      obtain ⟨hg, hgs⟩ := List.forall_mem_cons.mp hgs
      have hread : readSeparator ':' first (readNumber 16 (some 4) true 65535)
          (groupsText first (g :: gs) ++ rest) = some (g, groupsText false gs ++ rest) :=
        readSeparator_groupsText hg hrest first
      cases left with
      | zero => cases hleft
      | succ left =>
          have hafter : '.' ∉ groupsText false gs ++ rest := fun hmem => hdot <| by
            cases first <;> simp [groupsText] at hmem ⊢ <;> tauto
          have hgroups := ih hgs (Nat.le_of_succ_le_succ hleft) false hafter
          rw [readGroups, orElse_of_eq_none (readLast_eq_none hdot left first)]
          exact orElse_of_eq_some ((bind_of_eq_some hread).trans (bind_of_eq_some hgroups))

lemma readIpv6Addr_formatIpv6 (v : Nat) (hdot : '.' ∉ Split.formatIpv6 v) :
    readIpv6Addr (Split.formatIpv6 v) = some (Split.groups v, []) := by
  have hlt : ∀ g ∈ Split.groups v, g < 2 ^ 16 := fun g hg => Split.groups_lt hg
  have hlength : (Split.groups v).length = 8 := rfl
  have hrun := Split.isRun_bestRun (Split.groups v) [] (i := 0) rfl (none, 1) (by decide) (by simp)
  rw [Split.formatIpv6] at hdot ⊢
  rcases hbest : Split.bestRun 0 (none, 1) (Split.groups v) with ⟨_ | start, len⟩
  · rw [hbest] at hdot
    dsimp only at hdot ⊢
    rw [intercalate_eq_groupsText] at hdot ⊢
    have hread := readGroups_groupsText hlt stops_nil (by simp) hlength.le true
      (by rwa [List.append_nil])
    rw [List.append_nil] at hread
    exact (bind_of_eq_some hread).trans rfl
  · rw [hbest] at hdot hrun
    obtain ⟨hlen, hle, hzeros⟩ := hrun start rfl
    rw [List.nil_append, hlength] at hle
    rw [List.nil_append] at hzeros
    dsimp only at hdot ⊢
    rw [← List.map_take, ← List.map_drop, intercalate_eq_groupsText, intercalate_eq_groupsText,
      List.append_assoc] at hdot ⊢
    set front := (Split.groups v).take start with hfront
    set back := (Split.groups v).drop (start + len) with hback
    have hfrontLength : front.length = start := by
      rw [hfront, List.length_take, hlength]
      omega
    have hbackLength : back.length = 8 - (start + len) := by
      rw [hback, List.length_drop, hlength]
    have hhead := readGroups_groupsText (fun g hg => hlt g (List.mem_of_mem_take hg))
      (stops_compressed (groupsText true back)) (by rintro c ⟨⟩; exact toDigit_colon)
      (show front.length ≤ 8 by omega) true hdot
    have htail := readGroups_groupsText (fun g hg => hlt g (List.mem_of_mem_drop hg))
      stops_nil (by simp) (show back.length ≤ 8 - (front.length + 1) by omega) true
      (by
        rw [List.append_nil]
        exact fun hmem => hdot (List.mem_append_right _ (List.mem_append_right _ hmem)))
    rw [List.append_nil] at htail
    have hgroups : front ++ List.replicate (8 - front.length - back.length) 0 ++ back =
        Split.groups v := by
      rw [show 8 - front.length - back.length = len by omega, ← hzeros, hfront, hback,
        List.append_assoc, ← List.drop_drop, List.take_append_drop, List.take_append_drop]
    refine (bind_of_eq_some hhead).trans ?_
    show (if front.length = 8 then (pure front : Reader Char (List Nat)) else _) _ = _
    rw [if_neg (by omega), if_neg Bool.false_ne_true]
    exact (bind_of_eq_some (char_cons ':' _)).trans <| (bind_of_eq_some (char_cons ':' _)).trans <|
      (bind_of_eq_some htail).trans (congrArg (fun gs => some (gs, [])) hgroups)

lemma parseIpAddr_formatIpv6 (v : Nat) :
    parseIpAddr (Split.formatIpv6 v) = some (.ofNat .v6 (Split.joinGroups (Split.groups v))) := by
  have hdot : '.' ∉ Split.formatIpv6 v := fun h => by
    have hchar : '.' ∈ Split.formatAddress .v6 v := h
    exact (Split.chars_formatAddress hchar).2.2 rfl rfl
  have hipv4 : (do return .ofNat .v4 (← readIpv4Addr) : Reader Char IpAddr)
      (Split.formatIpv6 v) = none := bind_of_eq_none (readIpv4Addr_eq_none hdot)
  refine whole_of_eq_some ((orElse_of_eq_none hipv4).trans ?_)
  exact bind_of_eq_some (readIpv6Addr_formatIpv6 v hdot)

/-! ### What the clients write -/

/-- **The text that the clients write of an address gives the address.** -/
lemma parseIpAddr_formatAddress {family : Split.Family} {v : Nat} (hv : v < 2 ^ family.bits) :
    parseIpAddr (Split.formatAddress family v) = some (.ofNat family v) := by
  cases family with
  | v4 => exact parseIpAddr_formatIpv4 hv
  | v6 =>
      have hparse := parseIpAddr_formatIpv6 v
      rwa [Split.joinGroups_groups hv] at hparse

/-- The text of a prefix is read as a route. -/
lemma cidr_formatCidr {route : Split.Cidr} (h : route.Canonical) :
    cidr (Split.formatCidr route) = .ok () := by
  obtain ⟨family, net, pfx⟩ := route
  have htext : (Split.formatCidr ⟨family, net, pfx⟩).toList =
      Split.formatAddress family net ++ '/' :: Nat.toDigits 10 pfx := by
    rw [Split.formatCidr, String.toList_ofList]
    rfl
  have hslash : '/' ∉ Split.formatAddress family net := fun hmem =>
    (Split.chars_formatAddress hmem).1 rfl
  have hsplit : Trim.splitOnce ['/']
      (Split.formatAddress family net ++ '/' :: Nat.toDigits 10 pfx) =
        some (Split.formatAddress family net, Nat.toDigits 10 pfx) :=
    Trim.splitOnce_of_notMem hslash _
  have hdigits : (Nat.toDigits 10 pfx).all isAsciiDigit = true :=
    List.all_eq_true.mpr fun c hc => by
      simpa [Split.isDigit, isAsciiDigit] using ((Split.decimal_text pfx).2.2 c hc).1
  have hpfx : pfx ≤ family.bits := h.pfx
  have hbits : family.bits ≤ 255 := by cases family <;> decide
  have hlen : prefixLen (.ofNat family net) (Nat.toDigits 10 pfx) = .ok () := by
    rw [prefixLen, if_neg (by simp [hdigits, Nat.toDigits_ne_nil]), number_toDigits,
      if_pos ⟨by omega, hpfx⟩]
  have haddr : parsed "route is not an address prefix" (Split.formatAddress family net) =
      .ok (.ofNat family net) := by
    rw [parsed, parseIpAddr_formatAddress h.net]
  rw [cidr, address, htext]
  simp only [hsplit, haddr]
  exact hlen

/-- **The prefixes that the clients compile are accepted as routes.** -/
theorem compiled_accepted {route : Split.Cidr} (h : route.Canonical) :
    cidr (Split.formatCidr route) = .ok () := cidr_formatCidr h

theorem compiled_accepted_compressed :
    Split.formatCidr ⟨.v6, 0x20010db8000000000000000000000001, 128⟩ = "2001:db8::1/128" ∧
      cidr (Split.formatCidr ⟨.v6, 0x20010db8000000000000000000000001, 128⟩) = .ok () :=
  ⟨by decide +kernel,
    compiled_accepted { pfx := by decide, net := by decide, aligned := by decide }⟩

/-! ### Ports -/

lemma isDigit_of_toDigit {c : Char} (h : (toDigit 10 c).isSome = true) :
    Split.isDigit c = true := by
  rw [toDigit, digitValue] at h
  split at h
  · rename_i hdigit
    simpa [Split.isDigit] using hdigit
  · rename_i hno
    exfalso
    split at h
    · rename_i hlower
      have hge : 97 ≤ c.toNat := hlower.1
      simp [Option.filter] at h
      omega
    · split at h
      · rename_i hupper
        have hge : 65 ≤ c.toNat := hupper.1
        simp [Option.filter] at h
        omega
      · cases h

/-- The reader takes a text that ends in a colon and the digits of a port. -/
def EndsInPort (r : Reader Char (IpAddr × Nat)) : Prop :=
  ∀ s v rest, r s = some (v, rest) → ∃ host port, s = host ++ ':' :: (port ++ rest) ∧ port ≠ [] ∧
    (∀ c ∈ port, Split.isDigit c = true) ∧ Split.decimalValue port = v.2 ∧ v.2 ≤ 65535

lemma EndsInPort.bind {β : Type} {P : Char → Prop} {r : Reader Char β}
    {f : β → Reader Char (IpAddr × Nat)} (hr : Over P r) (hf : ∀ v, EndsInPort (f v)) :
    EndsInPort (r >>= f) := by
  intro s v rest h
  obtain ⟨⟨w, mid⟩, hfirst, hthen⟩ := Option.bind_eq_some_iff.mp h
  obtain ⟨used, rfl, -⟩ := hr s w mid hfirst
  obtain ⟨host, port, rfl, hport⟩ := hf w mid v rest hthen
  exact ⟨used ++ host, port, (List.append_assoc _ _ _).symm, hport⟩

lemma EndsInPort.orElse {r r' : Reader Char (IpAddr × Nat)} (hr : EndsInPort r)
    (hr' : EndsInPort r') : EndsInPort (r <|> r') := by
  intro s v rest h
  cases hfirst : r s with
  | some p =>
      rw [orElse_of_eq_some hfirst] at h
      exact hr s v rest (hfirst.trans h)
  | none =>
      rw [orElse_of_eq_none hfirst] at h
      exact hr' s v rest h

lemma endsInPort_readPort (ip : IpAddr) :
    EndsInPort (readPort >>= fun port => pure (ip, port)) := by
  intro s v rest h
  obtain ⟨⟨port, mid⟩, hport, hthen⟩ := Option.bind_eq_some_iff.mp h
  obtain ⟨rfl, rfl⟩ := Prod.mk.inj (Option.some_inj.mp hthen)
  obtain ⟨⟨_, t⟩, hcolon, hnumber⟩ := Option.bind_eq_some_iff.mp hport
  obtain rfl := eq_of_char hcolon
  dsimp only at hnumber
  rw [readNumber] at hnumber
  split at hnumber
  · cases hnumber
  · rename_i hgood
    obtain ⟨hvalue, hrest⟩ := Prod.mk.inj (Option.some_inj.mp hnumber)
    simp only [not_or, not_lt] at hgood
    have hdigits : ∀ c ∈ t.takeWhile fun c => (toDigit 10 c).isSome, Split.isDigit c = true :=
      fun c hc => isDigit_of_toDigit (by simpa using List.mem_takeWhile_imp hc)
    refine ⟨[], t.takeWhile fun c => (toDigit 10 c).isSome, ?_, hgood.1, hdigits, ?_, ?_⟩
    · rw [← hrest, List.takeWhile_append_dropWhile, List.nil_append]
    · rw [← number_eq_decimalValue hdigits, hvalue]
    · exact hvalue ▸ hgood.2.2.2

/-- **An endpoint ends in a colon and the digits of its port.** -/
lemma exists_port_of_parseSocketAddr {s : List Char} {ip : IpAddr} {n : Nat}
    (h : parseSocketAddr s = some (ip, n)) : ∃ host port, s = host ++ ':' :: port ∧ port ≠ [] ∧
      (∀ c ∈ port, Split.isDigit c = true) ∧ Split.decimalValue port = n ∧ n ≤ 65535 := by
  have hends : EndsInPort readSocketAddr := by
    refine .orElse ?_ ?_
    · exact .bind over_readIpv4Addr fun _ => endsInPort_readPort _
    · have hscope : Over IsAddressChar readScopeId :=
        over_bind (over_char (by decide)) fun _ =>
          (over_readNumber (by decide)).imp fun _ => IsIpChar.isAddressChar
      have hopen : Over IsAddressChar (Reader.char '[') := over_char (by decide)
      have hclose : Over IsAddressChar (Reader.char ']') := over_char (by decide)
      exact .bind hopen fun _ => .bind over_readIpv6Addr fun _ =>
        .bind (over_orElse hscope (over_pure 0)) fun _ => .bind hclose fun _ =>
          endsInPort_readPort _
  obtain ⟨⟨v, rest⟩, hread, hend⟩ := Option.bind_eq_some_iff.mp h
  split at hend
  · rename_i hempty
    obtain rfl : rest = [] := List.isEmpty_iff.mp hempty
    obtain rfl := Option.some_inj.mp hend
    obtain ⟨host, port, hs, hport⟩ := hends s _ [] hread
    rw [List.append_nil] at hs
    exact ⟨host, port, hs, hport⟩
  · cases hend

end Displayed

end CumulusVpn.Desktop.Validate
