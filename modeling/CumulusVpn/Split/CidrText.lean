/-
The canonical text of a prefix is read back.

* `parseIpv4_formatIpv4`, `parseIpv6_formatIpv6`: addresses;
* `parseCidr_formatCidr`: **prefixes**;
* `canonical_of_parseCidr`: what is read is canonical.
-/
import CumulusVpn.Split.Cidr
import Mathlib.Data.List.Induction

namespace CumulusVpn.Split

/-! ### Bits -/

lemma shiftLeft_or {a b w : Nat} (h : b < 2 ^ w) : a <<< w ||| b = a * 2 ^ w + b := by
  rw [← Nat.shiftLeft_add_eq_or_of_lt h, Nat.shiftLeft_eq]

lemma and_mask (a w : Nat) : a &&& (2 ^ w - 1) = a % 2 ^ w := Nat.and_two_pow_sub_one_eq_mod a w

/-! ### IPv4 -/

lemma decimalDigit_text : ∀ d < 10, isDigit d.digitChar = true ∧ d.digitChar.toNat - 48 = d ∧
    (0 < d → d.digitChar ≠ '0') ∧ d.digitChar ≠ '.' ∧ d.digitChar ≠ '/' ∧ d.digitChar ≠ ',' ∧
      isSpace d.digitChar = false := by
  decide

lemma decimalValue_append (cs : List Char) (c : Char) :
    decimalValue (cs ++ [c]) = 10 * decimalValue cs + (c.toNat - 48) := by
  rw [decimalValue, List.foldl_append]
  rfl

/-- The decimal text of a number, read back: it does not begin with a zero, and
its digits end neither an address nor the trimming. -/
lemma decimal_text (n : Nat) : decimalValue (Nat.toDigits 10 n) = n ∧
    (0 < n → (Nat.toDigits 10 n).head? ≠ some '0') ∧
    ∀ c ∈ Nat.toDigits 10 n, isDigit c = true ∧ c ≠ '.' ∧ c ≠ '/' ∧ c ≠ ',' ∧
      isSpace c = false := by
  induction n using Nat.strongRecOn with
  | ind n ih =>
      rcases Nat.lt_or_ge n 10 with hlt | hge
      · obtain ⟨hdigit, hvalue, hzero, hchars⟩ := decimalDigit_text n hlt
        rw [Nat.toDigits_of_lt_base hlt]
        refine ⟨by simpa [decimalValue] using hvalue, fun hn => by simpa using hzero hn, ?_⟩
        intro c hc
        rw [List.mem_singleton.mp hc]
        exact ⟨hdigit, hchars⟩
      · obtain ⟨hdigit, hvalue, -, hchars⟩ := decimalDigit_text (n % 10) (Nat.mod_lt n (by decide))
        obtain ⟨ihvalue, ihhead, ihchars⟩ := ih (n / 10) (Nat.div_lt_self (by omega) (by decide))
        rw [Nat.toDigits_of_base_le (by decide) hge]
        refine ⟨?_, fun _ => ?_, ?_⟩
        · rw [decimalValue_append, ihvalue, hvalue]
          exact Nat.div_add_mod n 10
        · obtain ⟨d, ds, hds⟩ :=
            List.exists_cons_of_ne_nil (Nat.toDigits_ne_nil (n := n / 10) (b := 10))
          have hfirst := ihhead (by omega)
          rw [hds] at hfirst ⊢
          exact hfirst
        · intro c hc
          rcases List.mem_append.mp hc with hc | hc
          · exact ihchars c hc
          · rw [List.mem_singleton.mp hc]
            exact ⟨hdigit, hchars⟩

/-- The text of a number below 1000 has at most three digits. -/
lemma length_decimal_text {n : Nat} (h : n < 1000) : (Nat.toDigits 10 n).length ≤ 3 :=
  (Nat.length_toDigits_le_iff (by decide) (by decide)).mpr h

/-- The decimal text of an octet, read back. -/
lemma octet_text {n : Nat} (h : n < 256) : parseOctet (Nat.toDigits 10 n) = some n := by
  obtain ⟨hvalue, hhead, hchars⟩ := decimal_text n
  have hlength := length_decimal_text (h.trans (by decide))
  have hall : (Nat.toDigits 10 n).all isDigit = true :=
    List.all_eq_true.mpr fun c hc => (hchars c hc).1
  have hzero : ¬ (1 < (Nat.toDigits 10 n).length ∧ (Nat.toDigits 10 n).head? = some '0') := by
    rintro ⟨hlong, hfirst⟩
    rcases Nat.eq_zero_or_pos n with rfl | hn
    · revert hlong
      decide
    · exact hhead hn hfirst
  rw [parseOctet, if_neg, hvalue, if_neg (by omega)]
  rintro (hnil | hlong | hdigit | hlead)
  · exact Nat.toDigits_ne_nil hnil
  · omega
  · simp [hall] at hdigit
  · exact hzero hlead

lemma octets_eq (v : Nat) : octets v =
    [v / 2 ^ 24 % 2 ^ 8, v / 2 ^ 16 % 2 ^ 8, v / 2 ^ 8 % 2 ^ 8, v % 2 ^ 8] := by
  simp only [octets, Nat.shiftRight_eq_div_pow]
  rw [show (0xff : Nat) = 2 ^ 8 - 1 from rfl, and_mask, and_mask, and_mask, and_mask]

lemma octets_lt {v n : Nat} (h : n ∈ octets v) : n < 256 := by
  rw [octets_eq] at h
  simp only [List.mem_cons, List.not_mem_nil, or_false] at h
  rcases h with rfl | rfl | rfl | rfl <;> exact Nat.mod_lt _ (by decide)

theorem parseIpv4_formatIpv4 {v : Nat} (h : v < 2 ^ 32) : parseIpv4 (formatIpv4 v) = some v := by
  have hsplit : (formatIpv4 v).splitOn '.' = (octets v).map (Nat.toDigits 10) := by
    refine List.splitOn_intercalate '.' ?_ (by simp [octets])
    intro text htext hdot
    obtain ⟨n, hn, rfl⟩ := List.mem_map.mp htext
    exact ((decimal_text n).2.2 '.' hdot).2.1 rfl
  have hread : ∀ n ∈ octets v, parseOctet (Nat.toDigits 10 n) = some n := fun n hn =>
    octet_text (octets_lt hn)
  rw [parseIpv4, hsplit]
  rw [octets_eq] at hread ⊢
  simp only [List.mem_cons, List.not_mem_nil, or_false, forall_eq_or_imp, forall_eq] at hread
  obtain ⟨ha, hb, hc, hd⟩ := hread
  simp only [List.map_cons, List.map_nil, ha, hb, hc, hd, Option.bind_eq_bind, Option.bind_some]
  have hlt : ∀ a, a % 2 ^ 8 < 2 ^ 8 := fun a => Nat.mod_lt a (by decide)
  rw [shiftLeft_or (hlt _), shiftLeft_or (hlt _), shiftLeft_or (hlt _), shiftLeft_or (hlt _)]
  congr 1
  omega

/-! ### Hex groups -/

lemma hexDigit_text : ∀ d < 16, isHex d.digitChar = true ∧ hexDigitValue d.digitChar = d ∧
    d.digitChar ≠ ':' ∧ d.digitChar ≠ '.' ∧ d.digitChar ≠ '/' ∧ isSpace d.digitChar = false := by
  decide

lemma hexValue_append (cs : List Char) (c : Char) :
    hexValue (cs ++ [c]) = 16 * hexValue cs + hexDigitValue c := by
  rw [hexValue, List.foldl_append]
  rfl

/-- The hex text of a number, read back. -/
lemma hex_text (n : Nat) : hexValue (Nat.toDigits 16 n) = n ∧
    ∀ c ∈ Nat.toDigits 16 n, isHex c = true ∧ c ≠ ':' ∧ c ≠ '.' ∧ c ≠ '/' ∧ isSpace c = false := by
  induction n using Nat.strongRecOn with
  | ind n ih =>
      rcases Nat.lt_or_ge n 16 with hlt | hge
      · obtain ⟨hhex, hvalue, hchars⟩ := hexDigit_text n hlt
        rw [Nat.toDigits_of_lt_base hlt]
        refine ⟨by simpa [hexValue] using hvalue, ?_⟩
        intro c hc
        rw [List.mem_singleton.mp hc]
        exact ⟨hhex, hchars⟩
      · obtain ⟨hhex, hvalue, hchars⟩ := hexDigit_text (n % 16) (Nat.mod_lt n (by decide))
        obtain ⟨ihvalue, ihchars⟩ := ih (n / 16) (Nat.div_lt_self (by omega) (by decide))
        rw [Nat.toDigits_of_base_le (by decide) hge]
        refine ⟨?_, ?_⟩
        · rw [hexValue_append, ihvalue, hvalue]
          exact Nat.div_add_mod n 16
        · intro c hc
          rcases List.mem_append.mp hc with hc | hc
          · exact ihchars c hc
          · rw [List.mem_singleton.mp hc]
            exact ⟨hhex, hchars⟩

lemma parseGroup_text {n : Nat} (h : n < 2 ^ 16) (last : Bool) :
    parseGroup (Nat.toDigits 16 n) last = some [n] := by
  have hlength : (Nat.toDigits 16 n).length ≤ 4 :=
    (Nat.length_toDigits_le_iff (by decide) (by decide)).mpr (by norm_num at h ⊢; exact h)
  have hhex : (Nat.toDigits 16 n).all isHex = true :=
    List.all_eq_true.mpr fun c hc => ((hex_text n).2 c hc).1
  rw [parseGroup, if_pos ⟨Nat.toDigits_ne_nil, hlength, hhex⟩, (hex_text n).1]

lemma parseGroupList_text {gs : List Nat} (h : ∀ g ∈ gs, g < 2 ^ 16) :
    parseGroupList (gs.map (Nat.toDigits 16)) = some gs := by
  induction gs with
  | nil => rfl
  | cons g gs ih =>
      have hg := parseGroup_text (h g List.mem_cons_self)
      rcases gs with _ | ⟨g', gs⟩
      · exact hg true
      · have htail := ih fun x hx => h x (List.mem_cons_of_mem _ hx)
        rw [List.map_cons] at htail
        rw [List.map_cons, List.map_cons, parseGroupList, hg false, htail]
        · rfl
        · simp

/-- The text of a run of groups, read back. -/
lemma parseGroups_text {gs : List Nat} (h : ∀ g ∈ gs, g < 2 ^ 16) :
    parseGroups (List.intercalate [':'] (gs.map (Nat.toDigits 16))) = some gs := by
  rcases gs with _ | ⟨g, gs⟩
  · rfl
  · have hsplit : (List.intercalate [':'] ((g :: gs).map (Nat.toDigits 16))).splitOn ':' =
        (g :: gs).map (Nat.toDigits 16) := by
      refine List.splitOn_intercalate ':' ?_ (by simp)
      intro text htext hcolon
      obtain ⟨n, -, rfl⟩ := List.mem_map.mp htext
      exact ((hex_text n).2 ':' hcolon).2.1 rfl
    rw [parseGroups, if_neg, hsplit, parseGroupList_text h]
    intro hnil
    have hne : List.intercalate [':'] ((g :: gs).map (Nat.toDigits 16)) ≠ [] := by
      rw [List.map_cons]
      rcases gs with _ | ⟨g', gs⟩
      · simp [Nat.toDigits_ne_nil]
      · simp
    exact hne hnil

/-! ### The compression of zeros -/

/-- No two colons in a row, and none at the end. -/
def Calm : List Char → Prop
  | [] => True
  | [c] => c ≠ ':'
  | c :: d :: cs => ¬ (c = ':' ∧ d = ':') ∧ Calm (d :: cs)

lemma splitCompression_calm {xs : List Char} (h : Calm xs) : splitCompression xs = [xs] := by
  induction xs using Calm.induct with
  | case1 => rfl
  | case2 c => rfl
  | case3 c d cs ih => rw [splitCompression, if_neg h.1, ih h.2]

lemma splitCompression_append {xs : List Char} (h : Calm xs) (ys : List Char) :
    splitCompression (xs ++ ':' :: ':' :: ys) = xs :: splitCompression ys := by
  induction xs using Calm.induct with
  | case1 => rfl
  | case2 c =>
      have hne : ¬ (c = ':' ∧ ':' = ':') := fun hc => h hc.1
      rw [List.singleton_append, splitCompression, if_neg hne, splitCompression, if_pos ⟨rfl, rfl⟩]
  | case3 c d cs ih =>
      have htail := ih h.2
      rw [List.cons_append] at htail
      rw [List.cons_append, List.cons_append, splitCompression, if_neg h.1, htail]

/-- A text without colons, a colon, and a calm text that does not begin with
one. -/
lemma calm_append {xs ys : List Char} (hxs : xs ≠ []) (hcolon : ':' ∉ xs) {y : Char}
    (hy : y ≠ ':') (hys : Calm (y :: ys)) : Calm (xs ++ ':' :: y :: ys) := by
  induction xs with
  | nil => exact absurd rfl hxs
  | cons x xs ih =>
      have hx : x ≠ ':' := fun hx => hcolon (by rw [hx]; exact List.mem_cons_self)
      rcases xs with _ | ⟨x', xs⟩
      · exact ⟨fun h => hx h.1, fun h => hy h.2, hys⟩
      · refine ⟨fun h => hx h.1, ?_⟩
        exact ih (by simp) fun hmem => hcolon (List.mem_cons_of_mem _ hmem)

lemma calm_of_not_mem {xs : List Char} (hcolon : ':' ∉ xs) : Calm xs := by
  induction xs using Calm.induct with
  | case1 => trivial
  | case2 c => exact fun hc => hcolon (by rw [hc]; exact List.mem_cons_self)
  | case3 c d cs ih =>
      refine ⟨fun h => hcolon (by rw [h.1]; exact List.mem_cons_self), ih ?_⟩
      exact fun hmem => hcolon (List.mem_cons_of_mem _ hmem)

/-- Texts without colons, joined by colons, are calm. -/
lemma calm_intercalate {ts : List (List Char)} (h : ∀ t ∈ ts, t ≠ [] ∧ ':' ∉ t) :
    Calm (List.intercalate [':'] ts) ∧
    (ts ≠ [] → ∃ y ys, List.intercalate [':'] ts = y :: ys ∧ y ≠ ':') := by
  induction ts with
  | nil => exact ⟨trivial, fun hne => absurd rfl hne⟩
  | cons t ts ih =>
      obtain ⟨hne, hcolon⟩ := h t List.mem_cons_self
      obtain ⟨y, ys, rfl⟩ := List.exists_cons_of_ne_nil hne
      have hy : y ≠ ':' := fun hy => hcolon (hy ▸ List.mem_cons_self)
      rcases ts with _ | ⟨t', ts⟩
      · rw [List.intercalate_singleton]
        exact ⟨calm_of_not_mem hcolon, fun _ => ⟨y, ys, rfl, hy⟩⟩
      · obtain ⟨hcalm, hrest⟩ := ih fun u hu => h u (List.mem_cons_of_mem _ hu)
        obtain ⟨z, zs, hz, hzne⟩ := hrest (List.cons_ne_nil _ _)
        rw [hz] at hcalm
        rw [List.intercalate_cons_cons, hz, List.append_assoc]
        exact ⟨calm_append hne hcolon hzne hcalm, fun _ => ⟨y, ys ++ ':' :: z :: zs, rfl, hy⟩⟩

/-- The text of a run of groups is calm. -/
lemma calm_groups (gs : List Nat) : Calm (List.intercalate [':'] (gs.map (Nat.toDigits 16))) := by
  refine (calm_intercalate fun t ht => ?_).1
  obtain ⟨n, -, rfl⟩ := List.mem_map.mp ht
  exact ⟨Nat.toDigits_ne_nil, fun hmem => ((hex_text n).2 ':' hmem).2.1 rfl⟩

/-- A run of at least two zeros. -/
def IsRun (gs : List Nat) (start len : Nat) : Prop :=
  2 ≤ len ∧ start + len ≤ gs.length ∧ (gs.drop start).take len = List.replicate len 0

lemma zeroRun_cons_zero (gs : List Nat) : zeroRun (0 :: gs) = zeroRun gs + 1 := by
  simp [zeroRun]

lemma take_zeroRun (gs : List Nat) :
    zeroRun gs ≤ gs.length ∧ gs.take (zeroRun gs) = List.replicate (zeroRun gs) 0 := by
  have hpre : gs.takeWhile (· = 0) <+: gs := List.takeWhile_prefix _
  refine ⟨hpre.length_le, ?_⟩
  rw [zeroRun, ← List.prefix_iff_eq_take.mp hpre]
  refine List.eq_replicate_of_mem fun g hg => ?_
  simpa using List.mem_takeWhile_imp hg

/-- The scan ends with a run, or none. -/
lemma isRun_bestRun (gs pre : List Nat) {i : Nat} (hi : i = pre.length)
    (best : Option Nat × Nat) (hpos : 1 ≤ best.2)
    (hbest : ∀ start, best.1 = some start → IsRun (pre ++ gs) start best.2) :
    ∀ start, (bestRun i best gs).1 = some start →
      IsRun (pre ++ gs) start (bestRun i best gs).2 := by
  induction i, best, gs using bestRun.induct generalizing pre with
  | case1 i best => simpa [bestRun] using hbest
  | case2 i best g gs hg ih =>
      rw [bestRun, if_pos hg]
      have happend : pre ++ g :: gs = (pre ++ [g]) ++ gs := by simp
      rw [happend] at hbest ⊢
      exact ih (pre ++ [g]) (by simp [hi]) hpos hbest
  | case3 i best g gs hg ih =>
      have hzero : g = 0 := by simpa using hg
      subst hzero
      rw [bestRun, if_neg hg]
      obtain ⟨hle, htake⟩ := take_zeroRun (0 :: gs)
      have happend : pre ++ 0 :: gs =
          (pre ++ List.replicate (zeroRun (0 :: gs)) 0) ++ gs.drop (zeroRun gs) := by
        rw [List.append_assoc, ← htake, zeroRun_cons_zero, List.take_succ_cons, List.cons_append,
          List.take_append_drop]
      have hrun : zeroRun (0 :: gs) > best.2 → IsRun (pre ++ 0 :: gs) i (zeroRun (0 :: gs)) := by
        intro hgt
        refine ⟨by omega, ?_, ?_⟩
        · rw [List.length_append, hi]
          omega
        · rw [hi, List.drop_left, htake]
      rw [happend] at hbest hrun ⊢
      refine ih (pre ++ List.replicate (zeroRun (0 :: gs)) 0) (by simp [hi]) ?_ ?_
      · split <;> omega
      · intro start hstart
        split at hstart
        · rename_i hgt
          rw [dif_pos hgt]
          obtain rfl := Option.some.inj hstart
          exact hrun hgt
        · rename_i hle'
          rw [dif_neg hle']
          exact hbest start hstart

/-! ### IPv6 -/

lemma groups_eq (v : Nat) : groups v =
    [v / 2 ^ 112 % 2 ^ 16, v / 2 ^ 96 % 2 ^ 16, v / 2 ^ 80 % 2 ^ 16, v / 2 ^ 64 % 2 ^ 16,
      v / 2 ^ 48 % 2 ^ 16, v / 2 ^ 32 % 2 ^ 16, v / 2 ^ 16 % 2 ^ 16, v % 2 ^ 16] := by
  simp only [groups, Nat.shiftRight_eq_div_pow, List.map_cons, List.map_nil]
  rw [show (0xffff : Nat) = 2 ^ 16 - 1 from rfl]
  simp only [and_mask]
  norm_num

lemma groups_lt {v n : Nat} (h : n ∈ groups v) : n < 2 ^ 16 := by
  rw [groups_eq] at h
  simp only [List.mem_cons, List.not_mem_nil, or_false] at h
  rcases h with rfl | rfl | rfl | rfl | rfl | rfl | rfl | rfl <;> exact Nat.mod_lt _ (by decide)

lemma joinGroups_groups {v : Nat} (h : v < 2 ^ 128) : joinGroups (groups v) = v := by
  rw [groups_eq, joinGroups]
  have hlt : ∀ a, a % 2 ^ 16 < 2 ^ 16 := fun a => Nat.mod_lt a (by decide)
  simp only [List.foldl_cons, List.foldl_nil, shiftLeft_or (hlt _)]
  omega

theorem parseIpv6_formatIpv6 {v : Nat} (h : v < 2 ^ 128) : parseIpv6 (formatIpv6 v) = some v := by
  have hlt : ∀ g ∈ groups v, g < 2 ^ 16 := fun g hg => groups_lt hg
  have hlength : (groups v).length = 8 := rfl
  have hrun := isRun_bestRun (groups v) [] (i := 0) rfl (none, 1) (by decide) (by simp)
  rw [formatIpv6]
  rcases hbest : bestRun 0 (none, 1) (groups v) with ⟨_ | start, len⟩
  · dsimp only
    have hcolon : ':' ∈ List.intercalate [':'] ((groups v).map (Nat.toDigits 16)) := by
      rw [groups_eq, List.map_cons, List.map_cons, List.intercalate_cons_cons]
      simp
    rw [parseIpv6, if_neg (not_not_intro hcolon), splitCompression_calm (calm_groups _)]
    dsimp only
    rw [parseGroups_text hlt]
    simp [hlength, joinGroups_groups h]
  · rw [hbest] at hrun
    obtain ⟨hlen, hle, hzeros⟩ := hrun start rfl
    rw [List.nil_append, hlength] at hle
    rw [List.nil_append] at hzeros
    dsimp only
    rw [← List.map_take, ← List.map_drop]
    have hcolon : ':' ∈ List.intercalate [':'] (((groups v).take start).map (Nat.toDigits 16)) ++
        [':', ':'] ++ List.intercalate [':'] (((groups v).drop (start + len)).map
          (Nat.toDigits 16)) := by
      simp
    rw [parseIpv6, if_neg (not_not_intro hcolon), List.append_assoc, List.cons_append,
      List.singleton_append, splitCompression_append (calm_groups _),
      splitCompression_calm (calm_groups _)]
    dsimp only
    rw [parseGroups_text fun g hg => hlt g (List.mem_of_mem_take hg),
      parseGroups_text fun g hg => hlt g (List.mem_of_mem_drop hg)]
    have htotal : ((groups v).take start).length + ((groups v).drop (start + len)).length =
        8 - len := by
      rw [List.length_take, List.length_drop, hlength]
      omega
    have hgroups : (groups v).take start ++ List.replicate (8 - (8 - len)) 0 ++
        (groups v).drop (start + len) = groups v := by
      rw [show 8 - (8 - len) = len by omega, ← hzeros, List.append_assoc, ← List.drop_drop,
        List.take_append_drop, List.take_append_drop]
    simp only [Option.bind_eq_bind, Option.bind_some, htotal]
    rw [if_neg (by omega), hgroups, joinGroups_groups h]

/-! ### Prefixes -/

lemma mem_intercalate {s c : Char} {ts : List (List Char)} (h : c ∈ List.intercalate [s] ts) :
    c = s ∨ ∃ t ∈ ts, c ∈ t := by
  induction ts with
  | nil => cases h
  | cons t ts ih =>
      rcases ts with _ | ⟨t', ts⟩
      · rw [List.intercalate_singleton] at h
        exact Or.inr ⟨t, List.mem_cons_self, h⟩
      · rw [List.intercalate_cons_cons] at h
        simp only [List.append_assoc, List.mem_append, List.mem_singleton] at h
        rcases h with h | h | h
        · exact Or.inr ⟨t, List.mem_cons_self, h⟩
        · exact Or.inl h
        · rcases ih h with hs | ⟨u, hu, hcu⟩
          · exact Or.inl hs
          · exact Or.inr ⟨u, List.mem_cons_of_mem _ hu, hcu⟩

/-- The text of an address. -/
def formatAddress (family : Family) (v : Nat) : List Char :=
  match family with
  | .v4 => formatIpv4 v
  | .v6 => formatIpv6 v

/-- A character of the text of an address ends neither it nor the trimming. -/
lemma chars_formatAddress {family : Family} {v : Nat} {c : Char}
    (h : c ∈ formatAddress family v) :
    c ≠ '/' ∧ isSpace c = false ∧ (family = .v6 → c ≠ '.') := by
  have hhex : ∀ gs : List Nat, c ∈ List.intercalate [':'] (gs.map (Nat.toDigits 16)) →
      c ≠ '/' ∧ isSpace c = false ∧ c ≠ '.' := by
    intro gs hc
    rcases mem_intercalate hc with rfl | ⟨t, ht, hct⟩
    · decide
    · obtain ⟨n, -, rfl⟩ := List.mem_map.mp ht
      obtain ⟨-, -, hdot, hslash, hspace⟩ := (hex_text n).2 c hct
      exact ⟨hslash, hspace, hdot⟩
  cases family with
  | v4 =>
      rcases mem_intercalate h with rfl | ⟨t, ht, hct⟩
      · decide
      · obtain ⟨n, hn, rfl⟩ := List.mem_map.mp ht
        obtain ⟨-, -, hslash, -, hspace⟩ := (decimal_text n).2.2 c hct
        exact ⟨hslash, hspace, nofun⟩
  | v6 =>
      have hc : c ≠ '/' ∧ isSpace c = false ∧ c ≠ '.' := by
        simp only [formatAddress, formatIpv6] at h
        split at h
        · exact hhex _ h
        · rw [← List.map_take, ← List.map_drop] at h
          simp only [List.mem_append] at h
          rcases h with (h | h) | h
          · exact hhex _ h
          · simp only [List.mem_cons, List.not_mem_nil, or_false, or_self] at h
            rw [h]
            decide
          · exact hhex _ h
      exact ⟨hc.1, hc.2.1, fun _ => hc.2.2⟩

/-- Reading the text of an address gives it back. -/
lemma parseAddress_formatAddress {family : Family} {v : Nat} (h : v < 2 ^ family.bits) :
    parseAddress (formatAddress family v) = some (family, v) := by
  cases family with
  | v4 => rw [parseAddress, formatAddress, parseIpv4_formatIpv4 h]
  | v6 =>
      have hsplit : (formatIpv6 v).splitOn '.' = [formatIpv6 v] :=
        List.splitOn_eq_singleton fun hdot =>
          (@chars_formatAddress .v6 v _ hdot).2.2 rfl rfl
      have hnone : parseIpv4 (formatIpv6 v) = none := by rw [parseIpv4, hsplit]
      simp only [parseAddress, formatAddress, hnone, parseIpv6_formatIpv6 h]

/-- A text without white space is not trimmed. -/
lemma trim_eq_self {cs : List Char} (h : ∀ c ∈ cs, isSpace c = false) : trim cs = cs :=
  Trim.trim_of_forall h

/-- The text of a prefix length, read back. -/
lemma pfx_text {family : Family} {p : Nat} (h : p ≤ family.bits) :
    parsePrefix family (Nat.toDigits 10 p) = some p := by
  obtain ⟨hvalue, -, hchars⟩ := decimal_text p
  have hlt : p < 1000 := by
    have hbits : family.bits < 129 := by cases family <;> decide
    omega
  have hall : (Nat.toDigits 10 p).all isDigit = true :=
    List.all_eq_true.mpr fun c hc => (hchars c hc).1
  have hlength := length_decimal_text hlt
  rw [parsePrefix, if_neg, hvalue, if_neg (Nat.not_lt_of_le h)]
  rintro (hnil | hlong | hdigit)
  · exact Nat.toDigits_ne_nil hnil
  · omega
  · simp [hall] at hdigit

lemma mask_of_aligned {family : Family} {net pfx : Nat} (h : 2 ^ (family.bits - pfx) ∣ net) :
    mask family net pfx = ⟨family, net, pfx⟩ := by
  rw [mask, Nat.shiftRight_eq_div_pow, Nat.shiftLeft_eq, Nat.div_mul_cancel h]

/-- **Reading the canonical text gives the prefix back.** -/
theorem parseCidr_formatCidr {c : Cidr} (h : c.Canonical) : parseCidr (formatCidr c) = some c := by
  obtain ⟨family, net, pfx⟩ := c
  obtain ⟨hpfx, hnet, haligned⟩ := h
  dsimp only at hpfx hnet haligned
  have hdigits : ∀ c ∈ Nat.toDigits 10 pfx, isSpace c = false := fun c hc =>
    ((decimal_text pfx).2.2 c hc).2.2.2.2
  have htext : (formatCidr ⟨family, net, pfx⟩).toList =
      formatAddress family net ++ '/' :: Nat.toDigits 10 pfx := by
    rw [formatCidr, String.toList_ofList]
    rfl
  have hspace : ∀ c ∈ formatAddress family net ++ '/' :: Nat.toDigits 10 pfx,
      isSpace c = false := by
    intro c hc
    rcases List.mem_append.mp hc with hc | hc
    · exact (chars_formatAddress hc).2.1
    · rcases List.mem_cons.mp hc with rfl | hc
      · decide
      · exact hdigits c hc
  have hslash : ∀ c ∈ formatAddress family net, decide (c ≠ '/') = true := fun c hc =>
    decide_eq_true (chars_formatAddress hc).1
  have htake : (formatAddress family net ++ '/' :: Nat.toDigits 10 pfx).takeWhile (· ≠ '/') =
      formatAddress family net := by
    rw [List.takeWhile_append_of_pos hslash, List.takeWhile_cons_of_neg (by decide),
      List.append_nil]
  have hdrop : (formatAddress family net ++ '/' :: Nat.toDigits 10 pfx).dropWhile (· ≠ '/') =
      '/' :: Nat.toDigits 10 pfx := by
    rw [List.dropWhile_append_of_pos hslash, List.dropWhile_cons_of_neg (by decide)]
  simp only [parseCidr, htext, trim_eq_self hspace, htake, hdrop,
    parseAddress_formatAddress hnet, pfx_text hpfx, Option.map_some, mask_of_aligned haligned]

/-! ### What is read -/

lemma parseOctet_lt {part : List Char} {n : Nat} (h : parseOctet part = some n) : n < 2 ^ 8 := by
  rw [parseOctet] at h
  split at h
  · cases h
  · split at h
    · cases h
    · cases h
      omega

lemma parseIpv4_lt {s : List Char} {v : Nat} (h : parseIpv4 s = some v) : v < 2 ^ 32 := by
  rw [parseIpv4] at h
  split at h
  · rename_i a b c d _
    simp only [Option.bind_eq_bind, Option.bind_eq_some_iff] at h
    obtain ⟨a', ha, b', hb, c', hc, d', hd, heq⟩ := h
    have ha' := parseOctet_lt ha
    have hb' := parseOctet_lt hb
    have hc' := parseOctet_lt hc
    have hd' := parseOctet_lt hd
    rw [shiftLeft_or ha', shiftLeft_or hb', shiftLeft_or hc', shiftLeft_or hd'] at heq
    cases heq
    omega
  · cases h

lemma hexDigitValue_lt {c : Char} (h : isHex c = true) : hexDigitValue c < 16 := by
  simp only [isHex, isDigit, Bool.or_eq_true, Bool.and_eq_true, decide_eq_true_eq,
    Char.le_def, UInt32.le_iff_toNat_le] at h
  rw [hexDigitValue]
  simp only [isDigit, Bool.and_eq_true, decide_eq_true_eq, Char.le_def, UInt32.le_iff_toNat_le]
  have h0 : ('0' : Char).val.toNat = 48 := rfl
  have h9 : ('9' : Char).val.toNat = 57 := rfl
  have ha : ('a' : Char).val.toNat = 97 := rfl
  have hf : ('f' : Char).val.toNat = 102 := rfl
  have hA : ('A' : Char).val.toNat = 65 := rfl
  have hF : ('F' : Char).val.toNat = 70 := rfl
  rw [h0, h9, ha, hf, hA, hF] at h
  have hc : c.toNat = c.val.toNat := rfl
  rw [h0, h9, ha, hf, hc]
  split
  · omega
  · split <;> omega

lemma hexValue_lt {cs : List Char} (h : ∀ c ∈ cs, isHex c = true) :
    hexValue cs < 16 ^ cs.length := by
  induction cs using List.reverseRecOn with
  | nil => exact Nat.one_pos
  | append_singleton cs c ih =>
      have hc := hexDigitValue_lt (h c (by simp))
      have hcs := ih fun d hd => h d (List.mem_append_left _ hd)
      rw [hexValue_append, List.length_append, List.length_singleton, pow_succ]
      omega

lemma parseGroup_lt {g : List Char} {last : Bool} {ns : List Nat}
    (h : parseGroup g last = some ns) : ∀ n ∈ ns, n < 2 ^ 16 := by
  rw [parseGroup] at h
  split at h
  · rename_i hhex
    cases h
    intro n hn
    rw [List.mem_singleton.mp hn]
    have hlt := hexValue_lt fun c hc => List.all_eq_true.mp hhex.2.2 c hc
    exact hlt.trans_le (Nat.pow_le_pow_right (by decide) hhex.2.1)
  · split at h
    · split at h
      · rename_i v4 hv4
        have hlt := parseIpv4_lt hv4
        cases h
        intro n hn
        rw [show (0xffff : Nat) = 2 ^ 16 - 1 from rfl, and_mask, Nat.shiftRight_eq_div_pow] at hn
        simp only [List.mem_cons, List.not_mem_nil, or_false] at hn
        rcases hn with rfl | rfl
        · omega
        · exact Nat.mod_lt _ (by decide)
      · cases h
    · cases h

lemma parseGroups_lt {part : List Char} {ns : List Nat} (h : parseGroups part = some ns) :
    ∀ n ∈ ns, n < 2 ^ 16 := by
  have hlist : ∀ gs ns, parseGroupList gs = some ns → ∀ n ∈ ns, n < 2 ^ 16 := by
    intro gs
    induction gs using parseGroupList.induct with
    | case1 =>
        intro ns h
        cases h
        simp
    | case2 g =>
        intro ns h
        exact parseGroup_lt h
    | case3 g gs hne ih =>
        intro ns h
        rw [parseGroupList] at h
        · simp only [Option.bind_eq_bind, Option.bind_eq_some_iff] at h
          obtain ⟨head, hhead, tail, htail, heq⟩ := h
          cases heq
          intro n hn
          rcases List.mem_append.mp hn with hn | hn
          · exact parseGroup_lt hhead n hn
          · exact ih tail htail n hn
        · exact hne
  rw [parseGroups] at h
  split at h
  · cases h
    simp
  · exact hlist _ _ h

lemma joinGroups_lt {ns : List Nat} (h : ∀ n ∈ ns, n < 2 ^ 16) :
    joinGroups ns < 2 ^ (16 * ns.length) := by
  induction ns using List.reverseRecOn with
  | nil => exact Nat.one_pos
  | append_singleton ns n ih =>
      have hn := h n (by simp)
      have hns := ih fun m hm => h m (List.mem_append_left _ hm)
      rw [joinGroups] at hns ⊢
      rw [List.foldl_append, List.foldl_cons, List.foldl_nil, shiftLeft_or hn,
        List.length_append, List.length_singleton, Nat.mul_add, pow_add]
      have hmul := Nat.mul_le_mul_right (2 ^ 16) (Nat.succ_le_of_lt hns)
      rw [Nat.succ_mul] at hmul
      omega

lemma parseIpv6_lt {s : List Char} {v : Nat} (h : parseIpv6 s = some v) : v < 2 ^ 128 := by
  rw [parseIpv6] at h
  split at h
  · cases h
  · split at h
    · simp only [Option.bind_eq_bind, Option.bind_eq_some_iff] at h
      obtain ⟨ns, hns, heq⟩ := h
      split at heq
      · cases heq
      · rename_i hlength
        cases heq
        have hlt := joinGroups_lt (parseGroups_lt hns)
        rwa [not_not.mp hlength] at hlt
    · simp only [Option.bind_eq_bind, Option.bind_eq_some_iff] at h
      obtain ⟨head, hhead, tail, htail, heq⟩ := h
      split at heq
      · cases heq
      · rename_i hlength
        cases heq
        have hall : ∀ n ∈ head ++ List.replicate (8 - (head.length + tail.length)) 0 ++ tail,
            n < 2 ^ 16 := by
          intro n hn
          rcases List.mem_append.mp hn with hn | hn
          · rcases List.mem_append.mp hn with hn | hn
            · exact parseGroups_lt hhead n hn
            · rw [List.eq_of_mem_replicate hn]
              decide
          · exact parseGroups_lt htail n hn
        have hlt := joinGroups_lt hall
        have height : (head ++ List.replicate (8 - (head.length + tail.length)) 0 ++ tail).length
            = 8 := by
          rw [List.length_append, List.length_append, List.length_replicate]
          omega
        rwa [height] at hlt
    · cases h

lemma parseAddress_lt {s : List Char} {family : Family} {v : Nat}
    (h : parseAddress s = some (family, v)) : v < 2 ^ family.bits := by
  rw [parseAddress] at h
  split at h
  · rename_i a ha
    cases h
    exact parseIpv4_lt ha
  · split at h
    · rename_i a ha
      cases h
      exact parseIpv6_lt ha
    · cases h

lemma canonical_mask {family : Family} {v pfx : Nat} (hv : v < 2 ^ family.bits)
    (hpfx : pfx ≤ family.bits) : (mask family v pfx).Canonical := by
  refine ⟨hpfx, ?_, ?_⟩
  · rw [mask, Nat.shiftRight_eq_div_pow, Nat.shiftLeft_eq]
    exact (Nat.div_mul_le_self _ _).trans_lt hv
  · rw [mask, Nat.shiftLeft_eq]
    exact Dvd.intro_left _ rfl

/-- What is read has its host bits zeroed. -/
theorem canonical_of_parseCidr {value : String} {c : Cidr} (h : parseCidr value = some c) :
    c.Canonical := by
  simp only [parseCidr] at h
  split at h
  · cases h
  · rename_i family addr haddr
    have hlt := parseAddress_lt haddr
    split at h
    · cases h
      exact canonical_mask hlt le_rfl
    · rename_i pfx _
      obtain ⟨p, hp, rfl⟩ := Option.map_eq_some_iff.mp h
      refine canonical_mask hlt ?_
      rw [parsePrefix] at hp
      split at hp
      · cases hp
      · split at hp
        · cases hp
        · cases hp
          omega

/-! ### The family of a text -/

lemma colon_not_mem_of_digits {cs : List Char} (h : cs.all isDigit = true) : ':' ∉ cs := by
  intro hmem
  have hdigit := List.all_eq_true.mp h ':' hmem
  revert hdigit
  decide

lemma isDigit_of_parseOctet {part : List Char} {n : Nat} (h : parseOctet part = some n) :
    part.all isDigit = true := by
  rw [parseOctet] at h
  split at h
  · cases h
  · rename_i hnot
    simp only [not_or, Bool.not_eq_true', Bool.not_eq_false] at hnot
    exact hnot.2.2.1

lemma colon_not_mem_of_parseIpv4 {s : List Char} {v : Nat} (h : parseIpv4 s = some v) :
    ':' ∉ s := by
  intro hmem
  rw [parseIpv4] at h
  split at h
  · rename_i a b c d hsplit
    simp only [Option.bind_eq_bind, Option.bind_eq_some_iff] at h
    obtain ⟨a', ha, b', hb, c', hc, d', hd, -⟩ := h
    have hjoin : List.intercalate ['.'] (s.splitOn '.') = s := List.intercalate_splitOn '.'
    rw [← hjoin, hsplit] at hmem
    rcases mem_intercalate hmem with hdot | ⟨t, ht, hin⟩
    · revert hdot
      decide
    · have hdigits : t.all isDigit = true := by
        simp only [List.mem_cons, List.not_mem_nil, or_false] at ht
        rcases ht with rfl | rfl | rfl | rfl
        · exact isDigit_of_parseOctet ha
        · exact isDigit_of_parseOctet hb
        · exact isDigit_of_parseOctet hc
        · exact isDigit_of_parseOctet hd
      exact colon_not_mem_of_digits hdigits hin
  · cases h

/-- Trimming leaves the other characters. -/
lemma mem_trim {c : Char} (hc : isSpace c = false) {cs : List Char} : c ∈ trim cs ↔ c ∈ cs :=
  Trim.mem_trim hc

/-- The text of a prefix has a colon exactly when its family is IPv6. -/
theorem colon_iff_of_parseCidr {s : String} {c : Cidr} (h : parseCidr s = some c) :
    ':' ∈ s.toList ↔ c.family = .v6 := by
  rw [← mem_trim (by decide : isSpace ':' = false)]
  simp only [parseCidr] at h
  generalize trim s.toList = trimmed at h
  have hparts : ':' ∈ trimmed ↔
      ':' ∈ trimmed.takeWhile (· ≠ '/') ∨ ':' ∈ trimmed.dropWhile (· ≠ '/') := by
    rw [← List.mem_append, List.takeWhile_append_dropWhile]
  split at h
  · cases h
  · rename_i family addr haddr
    -- the length has no colon, and the address has one when it is IPv6
    have hrest : ':' ∉ trimmed.dropWhile (· ≠ '/') ∧ c.family = family := by
      split at h
      · rename_i hnil
        cases h
        exact ⟨hnil ▸ List.not_mem_nil, rfl⟩
      · rename_i slash pfx hcons
        obtain ⟨p, hp, rfl⟩ := Option.map_eq_some_iff.mp h
        refine ⟨?_, rfl⟩
        have hslash : slash = '/' := by
          have hhead := List.head?_dropWhile_not (fun c : Char => decide (c ≠ '/')) trimmed
          rw [hcons] at hhead
          simpa using hhead
        have hdigits : pfx.all isDigit = true := by
          rw [parsePrefix] at hp
          split at hp
          · cases hp
          · rename_i hnot
            simp only [not_or, Bool.not_eq_true', Bool.not_eq_false] at hnot
            exact hnot.2.2
        rw [hcons, hslash, List.mem_cons]
        rintro (hc | hc)
        · revert hc
          decide
        · exact colon_not_mem_of_digits hdigits hc
    rw [hparts, or_iff_left hrest.1, hrest.2]
    rw [parseAddress] at haddr
    split at haddr
    · rename_i a ha
      cases haddr
      exact iff_of_false (colon_not_mem_of_parseIpv4 ha) nofun
    · split at haddr
      · rename_i a ha
        cases haddr
        refine iff_of_true ?_ rfl
        by_contra hnot
        rw [parseIpv6, if_pos hnot] at ha
        cases ha
      · cases haddr

/-! ### The texts of a dotted quad -/

lemma digitChar_of_isDigit {c : Char} (h : isDigit c = true) :
    c.toNat - 48 < 10 ∧ (c.toNat - 48).digitChar = c ∧ (c ≠ '0' → 0 < c.toNat - 48) := by
  simp only [isDigit, Bool.and_eq_true, decide_eq_true_eq, Char.le_def, UInt32.le_iff_toNat_le] at h
  have hlo : 48 ≤ c.toNat := h.1
  have hhi : c.toNat ≤ 57 := h.2
  have hc : Char.ofNat c.toNat = c := Char.ofNat_toNat c
  have hdigit : ∀ d < 10, d.digitChar = Char.ofNat (48 + d) := by decide
  have heq : 48 + (c.toNat - 48) = c.toNat := by omega
  refine ⟨by omega, ?_, fun hne => ?_⟩
  · rw [hdigit _ (by omega), heq, hc]
  · by_contra hzero
    refine hne ?_
    have hforty : c.toNat = 48 := by omega
    rw [← hc, hforty]

/-- Digits that do not begin with a zero are the text of their value. -/
lemma toDigits_decimalValue {cs : List Char} (hne : cs ≠ []) (hdigits : ∀ c ∈ cs, isDigit c = true)
    (hhead : 1 < cs.length → cs.head? ≠ some '0') :
    Nat.toDigits 10 (decimalValue cs) = cs ∧ (cs.head? ≠ some '0' → 0 < decimalValue cs) := by
  induction cs using List.reverseRecOn with
  | nil => exact absurd rfl hne
  | append_singleton cs c ih =>
      obtain ⟨hlt, hchar, hpos⟩ := digitChar_of_isDigit (hdigits c (by simp))
      rw [decimalValue_append]
      rcases cs with _ | ⟨d, ds⟩
      · have hone : 10 * decimalValue [] + (c.toNat - 48) = c.toNat - 48 := Nat.zero_add _
        rw [hone, Nat.toDigits_of_lt_base hlt, hchar]
        exact ⟨rfl, fun hfirst => hpos fun heq => hfirst (congrArg some heq)⟩
      · have hfirst : (d :: ds).head? ≠ some '0' := hhead (by simp)
        obtain ⟨htext, hvalue⟩ := ih (List.cons_ne_nil d ds)
          (fun x hx => hdigits x (List.mem_append_left _ hx)) fun _ => hfirst
        have hten : 10 ≤ 10 * decimalValue (d :: ds) + (c.toNat - 48) := by
          have := hvalue hfirst
          omega
        refine ⟨?_, fun _ => by omega⟩
        rw [Nat.toDigits_of_base_le (by decide) hten, Nat.mul_add_div (by decide),
          Nat.div_eq_of_lt hlt, Nat.add_zero, htext, Nat.mul_add_mod, Nat.mod_eq_of_lt hlt, hchar]

/-- An octet is read from its decimal text only. -/
lemma parseOctet_eq_some_iff {part : List Char} {n : Nat} :
    parseOctet part = some n ↔ part = Nat.toDigits 10 n ∧ n < 256 := by
  constructor
  · intro h
    refine ⟨?_, parseOctet_lt h⟩
    rw [parseOctet] at h
    split at h
    · cases h
    · rename_i hok
      simp only [not_or, Bool.not_eq_true', Bool.not_eq_false, not_and] at hok
      obtain ⟨hne, -, hdigits, hhead⟩ := hok
      split at h
      · cases h
      · cases h
        exact (toDigits_decimalValue hne (List.all_eq_true.mp hdigits) hhead).1.symm
  · rintro ⟨rfl, hlt⟩
    exact octet_text hlt

/-- The octets of a quad that is read. -/
lemma exists_octets_of_parseIpv4 {s : List Char} {v : Nat} (h : parseIpv4 s = some v) :
    ∃ a b c d, a < 256 ∧ b < 256 ∧ c < 256 ∧ d < 256 ∧
      s.splitOn '.' = [a, b, c, d].map (Nat.toDigits 10) ∧
      v = ((a * 256 + b) * 256 + c) * 256 + d := by
  rw [parseIpv4] at h
  split at h
  · rename_i w x y z hsplit
    simp only [Option.bind_eq_bind, Option.bind_eq_some_iff] at h
    obtain ⟨a, ha, b, hb, c, hc, d, hd, heq⟩ := h
    obtain ⟨rfl, hlta⟩ := parseOctet_eq_some_iff.mp ha
    obtain ⟨rfl, hltb⟩ := parseOctet_eq_some_iff.mp hb
    obtain ⟨rfl, hltc⟩ := parseOctet_eq_some_iff.mp hc
    obtain ⟨rfl, hltd⟩ := parseOctet_eq_some_iff.mp hd
    rw [shiftLeft_or (w := 8) hlta, shiftLeft_or (w := 8) hltb, shiftLeft_or (w := 8) hltc,
      shiftLeft_or (w := 8) hltd] at heq
    refine ⟨a, b, c, d, hlta, hltb, hltc, hltd, hsplit, ?_⟩
    cases heq
    omega
  · cases h

/-- A dotted quad is read from its canonical text only. -/
theorem parseIpv4_eq_some_iff {s : List Char} {v : Nat} :
    parseIpv4 s = some v ↔ s = formatIpv4 v ∧ v < 2 ^ 32 := by
  constructor
  · intro h
    obtain ⟨a, b, c, d, ha, hb, hc, hd, hsplit, rfl⟩ := exists_octets_of_parseIpv4 h
    refine ⟨?_, parseIpv4_lt h⟩
    have hoctets : octets (((a * 256 + b) * 256 + c) * 256 + d) = [a, b, c, d] := by
      rw [octets_eq]
      simp only [List.cons.injEq, and_true]
      omega
    rw [formatIpv4, hoctets, ← hsplit]
    exact (List.intercalate_splitOn '.').symm
  · rintro ⟨rfl, hlt⟩
    exact parseIpv4_formatIpv4 hlt

end CumulusVpn.Split
