/-
The language of prefixes (`clients/core-ts/src/split.ts`).

* `Rfc5952`: the canonical form of an IPv6 text;
* `rfc5952_formatIpv6`: **IPv6 addresses are written in it**;
* `Quad`, `Ipv6Text`, `CidrText`: what an address and a prefix look like;
* `Misplaced`: a dotted quad right before the `::`;
* `parseIpv6_isSome_iff`: what the parser accepts;
* `cidr_grammar_iff`: **the parser accepts the language, and misplaced quads**.
-/
import CumulusVpn.Split.CidrText

namespace CumulusVpn.Split

/-! ### The longest run of zeros -/

/-- A run of at least two zeros, by its positions. -/
lemma isRun_iff_getElem? {gs : List Nat} {start len : Nat} : IsRun gs start len ↔
    2 ≤ len ∧ start + len ≤ gs.length ∧ ∀ k, start ≤ k → k < start + len → gs[k]? = some 0 := by
  rw [IsRun]
  refine and_congr_right fun _ => and_congr_right fun hle => ?_
  constructor
  · intro h k hlo hhi
    have hget := congrArg (fun l : List Nat => l[k - start]?) h
    have hk : start + (k - start) = k := by omega
    simp only [List.getElem?_take, List.getElem?_drop, List.getElem?_replicate, hk] at hget
    rwa [if_pos (by omega), if_pos (by omega)] at hget
  · intro h
    refine List.ext_getElem? fun k => ?_
    rw [List.getElem?_take, List.getElem?_drop, List.getElem?_replicate]
    split
    · exact h (start + k) (by omega) (by omega)
    · rfl

/-- The best run is as long as any, and the leftmost of its length. -/
structure Best (gs : List Nat) (best : Option Nat × Nat) : Prop where
  bound : ∀ start len, IsRun gs start len →
    len ≤ best.2 ∧ (len = best.2 → ∃ s, best.1 = some s ∧ s ≤ start)
  /-- it lies in the list -/
  found : 2 ≤ best.2 → ∃ s, best.1 = some s ∧ s ≤ gs.length

section BestRun

variable {pre rest : List Nat} {best : Option Nat × Nat} {start len : Nat}

/-- A run that ends in the first part is a run of it. -/
lemma IsRun.of_append (h : IsRun (pre ++ rest) start len) (hend : start + len ≤ pre.length) :
    IsRun pre start len := by
  obtain ⟨hlen, -, hzeros⟩ := isRun_iff_getElem?.mp h
  refine isRun_iff_getElem?.mpr ⟨hlen, hend, fun k hlo hhi => ?_⟩
  rw [← hzeros k hlo hhi, List.getElem?_append_left (by omega)]

lemma Best.append_pos {g : Nat} (h : Best pre best) (hg : g ≠ 0) : Best (pre ++ [g]) best := by
  refine ⟨fun start len hrun => ?_, fun htwo => ?_⟩
  · refine h.bound start len (hrun.of_append ?_)
    obtain ⟨hlen, hend, hzeros⟩ := isRun_iff_getElem?.mp hrun
    by_contra hlast
    rw [List.length_append, List.length_singleton] at hend
    have hzero := hzeros pre.length (by omega) (by omega)
    rw [List.getElem?_append_right le_rfl, Nat.sub_self] at hzero
    exact hg (Option.some.inj hzero)
  · obtain ⟨s, hs, hle⟩ := h.found htwo
    exact ⟨s, hs, by rw [List.length_append]; omega⟩

/-- No run goes on into a stretch of zeros that stands behind something else. -/
lemma IsRun.within_stretch {n : Nat} (h : IsRun (pre ++ List.replicate n 0) start len)
    (hfresh : ∀ k, pre.length = k + 1 → pre[k]? ≠ some 0) :
    start + len ≤ pre.length ∨ pre.length ≤ start ∧ start + len ≤ pre.length + n := by
  obtain ⟨hlen, hend, hzeros⟩ := isRun_iff_getElem?.mp h
  rw [List.length_append, List.length_replicate] at hend
  by_cases hin : start + len ≤ pre.length
  · exact Or.inl hin
  · refine Or.inr ⟨?_, hend⟩
    by_contra hcross
    obtain ⟨k, hk⟩ : ∃ k, pre.length = k + 1 := ⟨pre.length - 1, by omega⟩
    refine hfresh k hk ?_
    rw [← hzeros k (by omega) (by omega), List.getElem?_append_left (by omega)]

lemma Best.append_zeros {n : Nat} (h : Best pre best)
    (hfresh : ∀ k, pre.length = k + 1 → pre[k]? ≠ some 0) :
    Best (pre ++ List.replicate n 0) (if n > best.2 then (some pre.length, n) else best) := by
  refine ⟨fun start len hrun => ?_, fun htwo => ?_⟩
  · have htwo : 2 ≤ len := hrun.1
    rcases hrun.within_stretch hfresh with hin | ⟨hlo, hhi⟩
    · obtain ⟨hle, hleft⟩ := h.bound start len (hrun.of_append hin)
      split
      · exact ⟨by dsimp only; omega, fun heq => absurd heq (by dsimp only; omega)⟩
      · exact ⟨hle, hleft⟩
    · split
      · exact ⟨by dsimp only; omega, fun _ => ⟨pre.length, rfl, hlo⟩⟩
      · refine ⟨by omega, fun heq => ?_⟩
        obtain ⟨s, hs, hle⟩ := h.found (by omega)
        exact ⟨s, hs, by omega⟩
  · split
    · exact ⟨pre.length, rfl, by simp⟩
    · rename_i hnot
      rw [if_neg hnot] at htwo
      obtain ⟨s, hs, hle⟩ := h.found htwo
      exact ⟨s, hs, by rw [List.length_append]; omega⟩

end BestRun

/-- The zeros at the head of a list end where something else stands. -/
lemma head?_drop_zeroRun (gs : List Nat) : (gs.drop (zeroRun gs)).head? ≠ some 0 := by
  induction gs with
  | nil => nofun
  | cons g gs ih =>
      by_cases hg : g = 0
      · rw [hg, zeroRun_cons_zero, List.drop_succ_cons]
        exact ih
      · have hnone : zeroRun (g :: gs) = 0 := by simp [zeroRun, hg]
        rw [hnone]
        exact fun h => hg (Option.some.inj h)

/-- **The scan ends with the best run.** -/
lemma best_bestRun (gs pre : List Nat) {i : Nat} (hi : i = pre.length) (best : Option Nat × Nat)
    (hpos : 1 ≤ best.2) (hfresh : gs.head? = some 0 → ∀ k, pre.length = k + 1 → pre[k]? ≠ some 0)
    (hbest : Best pre best) : Best (pre ++ gs) (bestRun i best gs) := by
  induction i, best, gs using bestRun.induct generalizing pre with
  | case1 i best =>
      rw [bestRun, List.append_nil]
      exact hbest
  | case2 i best g gs hg ih =>
      rw [bestRun, if_pos hg, List.append_cons]
      refine ih (pre ++ [g]) (by simp [hi]) hpos (fun _ k hk hzero => hg ?_) (hbest.append_pos hg)
      have hlast : k = pre.length := by simpa using hk.symm
      rw [hlast, List.getElem?_append_right le_rfl, Nat.sub_self] at hzero
      exact Option.some.inj hzero
  | case3 i best g gs hg ih =>
      have hzero : g = 0 := by simpa using hg
      subst hzero
      rw [bestRun, if_neg hg]
      have happend : pre ++ 0 :: gs =
          (pre ++ List.replicate (zeroRun (0 :: gs)) 0) ++ gs.drop (zeroRun gs) := by
        rw [List.append_assoc, ← (take_zeroRun (0 :: gs)).2, zeroRun_cons_zero, List.take_succ_cons,
          List.cons_append, List.take_append_drop]
      rw [happend, hi]
      subst hi
      refine ih (pre ++ List.replicate (zeroRun (0 :: gs)) 0) (by simp) ?_ ?_ ?_
      · split
        · dsimp only
          omega
        · exact hpos
      · exact fun hnext => absurd hnext (head?_drop_zeroRun gs)
      · exact hbest.append_zeros (hfresh rfl)

/-! ### The canonical form -/

/-- RFC 5952: hex groups without leading zeros, in lower case, where the longest
run of at least two zeros, the leftmost of its length, is written `::`. -/
def Rfc5952 (v : Nat) (text : List Char) : Prop :=
  ((∀ start len, ¬ IsRun (groups v) start len) ∧
    text = List.intercalate [':'] ((groups v).map (Nat.toDigits 16))) ∨
  ∃ start len, IsRun (groups v) start len ∧
    (∀ start' len', IsRun (groups v) start' len' → len' ≤ len ∧ (len' = len → start ≤ start')) ∧
    text = List.intercalate [':'] (((groups v).take start).map (Nat.toDigits 16)) ++ [':', ':'] ++
      List.intercalate [':'] (((groups v).drop (start + len)).map (Nat.toDigits 16))

/-- **IPv6 addresses are written in canonical form.** -/
lemma rfc5952_formatIpv6 (v : Nat) : Rfc5952 v (formatIpv6 v) := by
  have hstart : Best [] (none, 1) := by
    refine ⟨fun start len hrun => ?_, fun htwo => absurd htwo (by decide)⟩
    obtain ⟨hlen, hend, -⟩ := isRun_iff_getElem?.mp hrun
    rw [List.length_nil] at hend
    omega
  have hbest := best_bestRun (groups v) [] rfl (none, 1) le_rfl nofun hstart
  have hrun := isRun_bestRun (groups v) [] rfl (none, 1) (by decide) (by simp)
  rw [List.nil_append] at hbest hrun
  rw [formatIpv6]
  rcases hscan : bestRun 0 (none, 1) (groups v) with ⟨_ | start, len⟩
  · rw [List.length_nil, hscan] at hbest
    refine Or.inl ⟨fun start' len' hrun' => ?_, rfl⟩
    obtain ⟨hle, -⟩ := hbest.bound start' len' hrun'
    obtain ⟨s, hs, -⟩ := hbest.found (hrun'.1.trans hle)
    cases hs
  · rw [List.length_nil, hscan] at hbest hrun
    refine Or.inr ⟨start, len, hrun start rfl, fun start' len' hrun' => ?_, ?_⟩
    · obtain ⟨hle, hleft⟩ := hbest.bound start' len' hrun'
      refine ⟨hle, fun heq => ?_⟩
      obtain ⟨s, hs, hs'⟩ := hleft heq
      cases hs
      exact hs'
    · rw [List.map_take, List.map_drop]

/-! ### The language -/

/-- A dotted quad: four octets in decimal, without leading zeros. -/
def Quad (s : List Char) : Prop :=
  ∃ a b c d, a < 256 ∧ b < 256 ∧ c < 256 ∧ d < 256 ∧
    s = List.intercalate ['.'] ([a, b, c, d].map (Nat.toDigits 10))

/-- One to four hex digits. -/
def H16 (g : List Char) : Prop := g ≠ [] ∧ g.length ≤ 4 ∧ ∀ c ∈ g, isHex c = true

/-- Groups joined by colons, the last of them a quad if there is one; a quad is
two of the `n` groups. -/
def GroupsText (part : List Char) (quad : Option (List Char)) (n : Nat) : Prop :=
  ∃ gs : List (List Char), (∀ g ∈ gs, H16 g) ∧ (∀ q ∈ quad, Quad q) ∧
    part = List.intercalate [':'] (gs ++ quad.toList) ∧ n = gs.length + 2 * quad.toList.length

/-- The textual form of an IPv6 address (RFC 4291): eight groups, or fewer with
one `::` among them; a quad stands for the last 32 bits only. -/
inductive Ipv6Text : List Char → Prop
  | full {s : List Char} {quad : Option (List Char)} (h : GroupsText s quad 8) : Ipv6Text s
  | compressed {head tail : List Char} {quad : Option (List Char)} {m n : Nat}
      (hhead : GroupsText head none m) (htail : GroupsText tail quad n) (hle : m + n ≤ 7) :
      Ipv6Text (head ++ [':', ':'] ++ tail)

/-- The address of a family. -/
def AddressText : Family → List Char → Prop
  | .v4 => Quad
  | .v6 => Ipv6Text

/-- One to three digits, not above the width of the family. -/
def PrefixText (family : Family) (p : List Char) : Prop :=
  p ≠ [] ∧ p.length ≤ 3 ∧ (∀ c ∈ p, isDigit c = true) ∧ decimalValue p ≤ family.bits

/-- An address, and a prefix length behind a slash if there is one. -/
def WithPrefix (family : Family) (address : List Char → Prop) (t : List Char) : Prop :=
  ∃ addr, address addr ∧ (t = addr ∨ ∃ p, PrefixText family p ∧ t = addr ++ '/' :: p)

/-- What a prefix looks like, after trimming. -/
def CidrText (value : String) : Prop :=
  ∃ family, WithPrefix family (AddressText family) (trim value.toList)

/-- A quad right before the `::`, where it is not the last 32 bits. -/
def Misplaced (s : List Char) : Prop :=
  ∃ head tail q quad m n, GroupsText head (some q) m ∧ GroupsText tail quad n ∧ m + n ≤ 7 ∧
    s = head ++ [':', ':'] ++ tail

/-- A prefix whose address has a misplaced quad. -/
def MisplacedCidr (value : String) : Prop := WithPrefix .v6 Misplaced (trim value.toList)

/-! ### Characters -/

section Characters

variable {s part : List Char} {quad : Option (List Char)} {n : Nat} {c : Char}

lemma quad_iff : Quad s ↔ ∃ v, parseIpv4 s = some v := by
  constructor
  · rintro ⟨a, b, c, d, ha, hb, hc, hd, rfl⟩
    refine ⟨((a * 256 + b) * 256 + c) * 256 + d, parseIpv4_eq_some_iff.mpr ⟨?_, by omega⟩⟩
    have hoctets : octets (((a * 256 + b) * 256 + c) * 256 + d) = [a, b, c, d] := by
      rw [octets_eq]
      simp only [List.cons.injEq, and_true]
      omega
    rw [formatIpv4, hoctets]
  · rintro ⟨v, hv⟩
    obtain ⟨a, b, c, d, ha, hb, hc, hd, hsplit, -⟩ := exists_octets_of_parseIpv4 hv
    refine ⟨a, b, c, d, ha, hb, hc, hd, ?_⟩
    rw [← hsplit]
    exact (List.intercalate_splitOn '.').symm

lemma isHex_ne (h : isHex c = true) : c ≠ ':' ∧ c ≠ '.' ∧ c ≠ '/' := by
  refine ⟨?_, ?_, ?_⟩ <;> rintro rfl <;> revert h <;> decide

/-- The characters of a quad. -/
lemma Quad.chars (h : Quad s) : s ≠ [] ∧ '.' ∈ s ∧ ':' ∉ s ∧ '/' ∉ s := by
  obtain ⟨v, hv⟩ := quad_iff.mp h
  have hcolon := colon_not_mem_of_parseIpv4 hv
  obtain ⟨a, b, c, d, -, -, -, -, rfl⟩ := h
  refine ⟨by simp, by simp, hcolon, fun hslash => ?_⟩
  rcases mem_intercalate hslash with hdot | ⟨t, ht, hin⟩
  · revert hdot
    decide
  · obtain ⟨n, -, rfl⟩ := List.mem_map.mp ht
    exact ((decimal_text n).2.2 '/' hin).2.2.1 rfl

lemma Quad.not_h16 (h : Quad s) : ¬ H16 s := fun hhex =>
  (isHex_ne (hhex.2.2 '.' h.chars.2.1)).2.1 rfl

/-- A group of a text is not empty and has no colon. -/
lemma group_chars {gs : List (List Char)} (hgs : ∀ g ∈ gs, H16 g) (hq : ∀ q ∈ quad, Quad q) :
    ∀ t ∈ gs ++ quad.toList, t ≠ [] ∧ ':' ∉ t := by
  intro t ht
  rcases List.mem_append.mp ht with ht | ht
  · exact ⟨(hgs t ht).1, fun hmem => (isHex_ne ((hgs t ht).2.2 ':' hmem)).1 rfl⟩
  · have hchars := (hq t (Option.mem_toList.mp ht)).chars
    exact ⟨hchars.1, hchars.2.2.1⟩

lemma GroupsText.calm (h : GroupsText part quad n) : Calm part := by
  obtain ⟨gs, hgs, hq, rfl, -⟩ := h
  exact (calm_intercalate (group_chars hgs hq)).1

/-- Without a quad there is no dot. -/
lemma GroupsText.dot_not_mem (h : GroupsText part none n) : '.' ∉ part := by
  obtain ⟨gs, hgs, -, rfl, -⟩ := h
  intro hdot
  rcases mem_intercalate hdot with hcolon | ⟨t, ht, hin⟩
  · revert hcolon
    decide
  · rw [Option.toList_none, List.append_nil] at ht
    exact (isHex_ne ((hgs t ht).2.2 '.' hin)).2.1 rfl

lemma mem_intercalate_of_mem {sep c : Char} {ts : List (List Char)} {t : List Char} (ht : t ∈ ts)
    (hc : c ∈ t) : c ∈ List.intercalate [sep] ts := by
  induction ts with
  | nil => cases ht
  | cons u ts ih =>
      rcases ts with _ | ⟨u', ts⟩
      · rw [List.intercalate_singleton, ← List.mem_singleton.mp ht]
        exact hc
      · rw [List.intercalate_cons_cons, List.append_assoc]
        rcases List.mem_cons.mp ht with rfl | ht
        · exact List.mem_append_left _ hc
        · exact List.mem_append_right _ (List.mem_append_right _ (ih ht))

/-- With a quad there is a dot. -/
lemma GroupsText.dot_mem {q : List Char} (h : GroupsText part (some q) n) : '.' ∈ part := by
  obtain ⟨gs, -, hq, rfl, -⟩ := h
  exact mem_intercalate_of_mem (List.mem_append_right gs (List.mem_singleton_self q))
    (hq q rfl).chars.2.1

/-- No text of groups holds a slash. -/
lemma GroupsText.slash_not_mem (h : GroupsText part quad n) : '/' ∉ part := by
  obtain ⟨gs, hgs, hq, rfl, -⟩ := h
  intro hslash
  rcases mem_intercalate hslash with hcolon | ⟨t, ht, hin⟩
  · revert hcolon
    decide
  · rcases List.mem_append.mp ht with ht | ht
    · exact (isHex_ne ((hgs t ht).2.2 '/' hin)).2.2 rfl
    · exact (hq t (Option.mem_toList.mp ht)).chars.2.2.2 hin

end Characters

/-! ### What the parser accepts -/

section Parser

variable {s part : List Char} {ns : List Nat} {n : Nat}

lemma parseGroup_h16 {g : List Char} (h : H16 g) (last : Bool) :
    parseGroup g last = some [hexValue g] := by
  rw [parseGroup, if_pos ⟨h.1, h.2.1, List.all_eq_true.mpr h.2.2⟩]

lemma parseGroup_quad {q : List Char} (h : Quad q) :
    ∃ ns, parseGroup q true = some ns ∧ ns.length = 2 := by
  obtain ⟨v, hv⟩ := quad_iff.mp h
  have hnot : ¬ (q ≠ [] ∧ q.length ≤ 4 ∧ q.all isHex = true) := fun hhex =>
    h.not_h16 ⟨hhex.1, hhex.2.1, List.all_eq_true.mp hhex.2.2⟩
  rw [parseGroup, if_neg hnot, if_pos ⟨h.chars.2.1, rfl⟩, hv]
  exact ⟨_, rfl, rfl⟩

/-- A group is hex digits, or the last one and a quad. -/
lemma of_parseGroup {g : List Char} {last : Bool} (h : parseGroup g last = some ns) :
    H16 g ∧ ns.length = 1 ∨ last = true ∧ Quad g ∧ ns.length = 2 := by
  rw [parseGroup] at h
  split at h
  · rename_i hhex
    cases h
    exact Or.inl ⟨⟨hhex.1, hhex.2.1, List.all_eq_true.mp hhex.2.2⟩, rfl⟩
  · split at h
    · rename_i hquad
      split at h
      · rename_i v hv
        cases h
        exact Or.inr ⟨hquad.2, quad_iff.mpr ⟨v, hv⟩, rfl⟩
      · cases h
    · cases h

/-- The groups that are read: hex digits, and a quad at the end. -/
lemma of_parseGroupList {gs : List (List Char)} (h : parseGroupList gs = some ns) :
    ∃ (hs : List (List Char)) (quad : Option (List Char)), gs = hs ++ quad.toList ∧
      (∀ g ∈ hs, H16 g) ∧ (∀ q ∈ quad, Quad q) ∧
        ns.length = hs.length + 2 * quad.toList.length := by
  have hnone : ∀ q ∈ (none : Option (List Char)), Quad q := fun q hq => by cases hq
  induction gs using parseGroupList.induct generalizing ns with
  | case1 =>
      cases h
      exact ⟨[], none, rfl, List.forall_mem_nil _, hnone, rfl⟩
  | case2 g =>
      rcases of_parseGroup h with ⟨hhex, hlength⟩ | ⟨-, hquad, hlength⟩
      · refine ⟨[g], none, rfl, fun g' hg' => ?_, hnone, hlength⟩
        exact List.mem_singleton.mp hg' ▸ hhex
      · refine ⟨[], some g, rfl, List.forall_mem_nil _, fun q hq => ?_, hlength⟩
        exact Option.some.inj hq ▸ hquad
  | case3 g gs hne ih =>
      have hread : ∃ head, parseGroup g false = some head ∧
          ∃ tail, parseGroupList gs = some tail ∧ head ++ tail = ns := by
        rw [parseGroupList] at h
        · simpa [Option.bind_eq_some_iff] using h
        · exact hne
      obtain ⟨head, hhead, tail, htail, rfl⟩ := hread
      obtain ⟨hs, quad, rfl, hhs, hquad, hlength⟩ := ih htail
      rcases of_parseGroup hhead with ⟨hhex, hone⟩ | ⟨hlast, -⟩
      · refine ⟨g :: hs, quad, rfl, fun g' hg' => ?_, hquad, ?_⟩
        · rcases List.mem_cons.mp hg' with rfl | hg'
          · exact hhex
          · exact hhs g' hg'
        · rw [List.length_append, List.length_cons]
          omega
      · cases hlast

lemma parseGroupList_groups {hs : List (List Char)} {quad : Option (List Char)}
    (hhs : ∀ g ∈ hs, H16 g) (hquad : ∀ q ∈ quad, Quad q) :
    ∃ ns, parseGroupList (hs ++ quad.toList) = some ns ∧
      ns.length = hs.length + 2 * quad.toList.length := by
  induction hs with
  | nil =>
      cases quad with
      | none => exact ⟨[], rfl, rfl⟩
      | some q =>
          obtain ⟨ns, hns, hlength⟩ := parseGroup_quad (hquad q rfl)
          exact ⟨ns, hns, hlength⟩
  | cons g hs ih =>
      have hg := parseGroup_h16 (hhs g List.mem_cons_self)
      obtain ⟨tail, htail, hlength⟩ := ih fun g' hg' => hhs g' (List.mem_cons_of_mem _ hg')
      rw [List.cons_append]
      rcases hrest : hs ++ quad.toList with _ | ⟨g', gs⟩
      · obtain ⟨rfl, hnone⟩ := List.append_eq_nil_iff.mp hrest
        refine ⟨[hexValue g], hg true, ?_⟩
        rw [hnone]
        rfl
      · rw [hrest] at htail
        refine ⟨hexValue g :: tail, ?_, ?_⟩
        · rw [parseGroupList, hg false, htail]
          · rfl
          · exact List.cons_ne_nil g' gs
        · rw [List.length_cons, List.length_cons, hlength]
          omega

/-- **What is read as groups.** -/
lemma parseGroups_iff : (∃ ns, parseGroups part = some ns ∧ ns.length = n) ↔
    ∃ quad, GroupsText part quad n := by
  constructor
  · rintro ⟨ns, hns, rfl⟩
    rw [parseGroups] at hns
    split at hns
    · rename_i hempty
      cases hns
      exact ⟨none, [], List.forall_mem_nil _, (fun _ hq => by cases hq), hempty, rfl⟩
    · obtain ⟨hs, quad, hsplit, hhs, hquad, hlength⟩ := of_parseGroupList hns
      refine ⟨quad, hs, hhs, hquad, ?_, hlength⟩
      rw [← hsplit]
      exact (List.intercalate_splitOn ':').symm
  · rintro ⟨quad, hs, hhs, hquad, rfl, rfl⟩
    have hchars := group_chars hhs hquad
    rw [parseGroups]
    split
    · rename_i hempty
      have hnil : hs ++ quad.toList = [] := by
        by_contra hne
        obtain ⟨y, ys, hcons, -⟩ := (calm_intercalate hchars).2 hne
        rw [hempty] at hcons
        cases hcons
      obtain ⟨rfl, hnone⟩ := List.append_eq_nil_iff.mp hnil
      refine ⟨[], rfl, ?_⟩
      rw [hnone]
      rfl
    · rename_i hne
      have hcons : hs ++ quad.toList ≠ [] := fun hnil => hne (by rw [hnil]; rfl)
      rw [List.splitOn_intercalate ':' (fun t ht => (hchars t ht).2) hcons]
      exact parseGroupList_groups hhs hquad

lemma splitCompression_ne_nil (s : List Char) : splitCompression s ≠ [] := by
  induction s using splitCompression.induct with
  | case1 => exact List.cons_ne_nil _ _
  | case2 c => exact List.cons_ne_nil _ _
  | case3 c d cs hcolons ih =>
      rw [splitCompression, if_pos hcolons]
      exact List.cons_ne_nil _ _
  | case4 c d cs hcolons hparts ih => exact absurd hparts ih
  | case5 c d cs hcolons p ps hparts ih =>
      rw [splitCompression, if_neg hcolons, hparts]
      exact List.cons_ne_nil _ _

/-- The parts between the `::` make up the text. -/
lemma intercalate_splitCompression (s : List Char) :
    List.intercalate [':', ':'] (splitCompression s) = s := by
  induction s using splitCompression.induct with
  | case1 => rfl
  | case2 c => rfl
  | case3 c d cs hcolons ih =>
      obtain ⟨rfl, rfl⟩ := hcolons
      obtain ⟨p, ps, hparts⟩ := List.exists_cons_of_ne_nil (splitCompression_ne_nil cs)
      rw [splitCompression, if_pos ⟨rfl, rfl⟩, hparts, List.intercalate_cons_cons, ← hparts, ih]
      rfl
  | case4 c d cs hcolons hparts ih => exact absurd hparts (splitCompression_ne_nil (d :: cs))
  | case5 c d cs hcolons p ps hparts ih =>
      rw [hparts] at ih
      rw [splitCompression, if_neg hcolons, hparts, ← ih]
      rcases ps with _ | ⟨p', ps⟩
      · dsimp only
        rw [List.intercalate_singleton, List.intercalate_singleton]
      · dsimp only
        rw [List.intercalate_cons_cons, List.intercalate_cons_cons]
        rfl

lemma splitCompression_compressed {head tail : List Char} (hhead : Calm head) (htail : Calm tail) :
    splitCompression (head ++ [':', ':'] ++ tail) = [head, tail] := by
  rw [List.append_assoc, List.cons_append, List.singleton_append,
    splitCompression_append hhead, splitCompression_calm htail]

/-- A text of eight groups has colons. -/
lemma GroupsText.colon_mem {quad : Option (List Char)} (h : GroupsText part quad 8) :
    ':' ∈ part := by
  obtain ⟨gs, -, -, rfl, hlength⟩ := h
  have hle : quad.toList.length ≤ 1 := by cases quad <;> simp
  obtain ⟨g, gs, rfl⟩ :=
    List.exists_cons_of_ne_nil (l := gs) (by rintro rfl; simp at hlength; omega)
  obtain ⟨g', gs, rfl⟩ :=
    List.exists_cons_of_ne_nil (l := gs) (by rintro rfl; simp at hlength; omega)
  rw [List.cons_append, List.cons_append, List.intercalate_cons_cons]
  simp

/-- **What is read as an IPv6 address.** -/
lemma parseIpv6_isSome_iff : (parseIpv6 s).isSome ↔ Ipv6Text s ∨ Misplaced s := by
  constructor
  · intro h
    obtain ⟨v, h⟩ := Option.isSome_iff_exists.mp h
    rw [parseIpv6] at h
    split at h
    · cases h
    · split at h
      · rename_i all hparts
        simp only [Option.bind_eq_bind, Option.bind_eq_some_iff] at h
        obtain ⟨ns, hns, h⟩ := h
        split at h
        · cases h
        · rename_i height
          have hs : s = all := by
            rw [← intercalate_splitCompression s, hparts, List.intercalate_singleton]
          obtain ⟨quad, hgroups⟩ := parseGroups_iff.mp ⟨ns, hns, not_not.mp height⟩
          exact Or.inl (hs ▸ .full hgroups)
      · rename_i head tail hparts
        simp only [Option.bind_eq_bind, Option.bind_eq_some_iff] at h
        obtain ⟨ns, hns, ms, hms, h⟩ := h
        split at h
        · cases h
        · rename_i hcount
          have hs : s = head ++ [':', ':'] ++ tail := by
            rw [← intercalate_splitCompression s, hparts, List.intercalate_cons_cons,
              List.intercalate_singleton]
          obtain ⟨quad, hhead⟩ := parseGroups_iff.mp ⟨ns, hns, rfl⟩
          obtain ⟨quad', htail⟩ := parseGroups_iff.mp ⟨ms, hms, rfl⟩
          cases quad with
          | none => exact Or.inl (hs ▸ .compressed hhead htail (by omega))
          | some q => exact Or.inr ⟨head, tail, q, quad', _, _, hhead, htail, by omega, hs⟩
      · cases h
  · have hcompressed : ∀ head tail quad quad' m n, GroupsText head quad m →
        GroupsText tail quad' n → m + n ≤ 7 → (parseIpv6 (head ++ [':', ':'] ++ tail)).isSome := by
      intro head tail quad quad' m n hhead htail hle
      obtain ⟨ns, hns, rfl⟩ := parseGroups_iff.mpr ⟨quad, hhead⟩
      obtain ⟨ms, hms, rfl⟩ := parseGroups_iff.mpr ⟨quad', htail⟩
      have hcolon : ':' ∈ head ++ [':', ':'] ++ tail := by simp
      rw [parseIpv6, if_neg (not_not_intro hcolon),
        splitCompression_compressed hhead.calm htail.calm]
      simp only [hns, hms, Option.bind_eq_bind, Option.bind_some]
      rw [if_neg (by omega)]
      rfl
    rintro (h | ⟨head, tail, q, quad, m, n, hhead, htail, hle, rfl⟩)
    · cases h with
      | @full s quad h =>
          obtain ⟨ns, hns, height⟩ := parseGroups_iff.mpr ⟨quad, h⟩
          rw [parseIpv6, if_neg (not_not_intro h.colon_mem), splitCompression_calm h.calm]
          simp only [hns, Option.bind_eq_bind, Option.bind_some]
          rw [if_neg (not_not_intro height)]
          rfl
      | compressed hhead htail hle => exact hcompressed _ _ _ _ _ _ hhead htail hle
    · exact hcompressed _ _ _ _ _ _ hhead htail hle

/-- A misplaced quad is outside the language. -/
lemma Misplaced.not_ipv6Text (h : Misplaced s) : ¬ Ipv6Text s := by
  obtain ⟨head, tail, q, quad, m, n, hhead, htail, -, rfl⟩ := h
  have hparts := splitCompression_compressed hhead.calm htail.calm
  intro htext
  generalize htotal : head ++ [':', ':'] ++ tail = total at htext hparts
  cases htext with
  | full hfull =>
      rw [splitCompression_calm hfull.calm] at hparts
      cases hparts
  | @compressed head' tail' quad' m' n' hhead' htail' =>
      rw [splitCompression_compressed hhead'.calm htail'.calm] at hparts
      cases hparts
      exact hhead'.dot_not_mem hhead.dot_mem

end Parser

/-! ### Prefixes -/

section Prefixes

variable {family : Family} {s t p : List Char} {value : String}

lemma parsePrefix_isSome_iff : (parsePrefix family p).isSome ↔ PrefixText family p := by
  rw [parsePrefix, PrefixText]
  constructor
  · intro h
    split at h
    · cases h
    · rename_i hok
      simp only [not_or, Bool.not_eq_true', Bool.not_eq_false] at hok
      split at h
      · cases h
      · exact ⟨hok.1, by omega, List.all_eq_true.mp hok.2.2, by omega⟩
  · rintro ⟨hne, hlength, hdigits, hle⟩
    have hok : ¬ (p = [] ∨ 3 < p.length ∨ (!p.all isDigit) = true) := by
      rintro (hnil | hlong | hother)
      · exact hne hnil
      · omega
      · rw [List.all_eq_true.mpr hdigits] at hother
        cases hother
    rw [if_neg hok, if_neg (by omega)]
    rfl

lemma Ipv6Text.chars (h : Ipv6Text s ∨ Misplaced s) : ':' ∈ s ∧ '/' ∉ s := by
  have hcompressed : ∀ head tail quad quad' m n, GroupsText head quad m → GroupsText tail quad' n →
      ':' ∈ head ++ [':', ':'] ++ tail ∧ '/' ∉ head ++ [':', ':'] ++ tail := by
    intro head tail quad quad' m n hhead htail
    have hslash := hhead.slash_not_mem
    have hslash' := htail.slash_not_mem
    simp [hslash, hslash']
  rcases h with h | ⟨head, tail, q, quad, m, n, hhead, htail, -, rfl⟩
  · cases h with
    | full h => exact ⟨h.colon_mem, h.slash_not_mem⟩
    | compressed hhead htail hle => exact hcompressed _ _ _ _ _ _ hhead htail
  · exact hcompressed _ _ _ _ _ _ hhead htail

/-- What is read as an address of a family. -/
def Read : Family → List Char → Prop
  | .v4, s => Quad s
  | .v6, s => Ipv6Text s ∨ Misplaced s

lemma Read.slash_not_mem (h : Read family s) : '/' ∉ s := by
  cases family with
  | v4 => exact Quad.chars (s := s) h |>.2.2.2
  | v6 => exact (Ipv6Text.chars h).2

lemma parseAddress_iff : (∃ v, parseAddress s = some (family, v)) ↔ Read family s := by
  have hv4 : (∃ v, parseIpv4 s = some v) ↔ Quad s := quad_iff.symm
  rw [parseAddress]
  cases hread : parseIpv4 s with
  | some v =>
      have hquad : Quad s := hv4.mp ⟨v, hread⟩
      cases family with
      | v4 => exact iff_of_true ⟨v, rfl⟩ hquad
      | v6 =>
          refine iff_of_false (by simp) fun h => ?_
          exact hquad.chars.2.2.1 (Ipv6Text.chars h).1
  | none =>
      have hnot : ¬ Quad s := fun h => by
        obtain ⟨v, hv⟩ := hv4.mpr h
        rw [hread] at hv
        cases hv
      cases family with
      | v4 =>
          refine iff_of_false ?_ hnot
          rintro ⟨v, hv⟩
          dsimp only at hv
          split at hv <;> cases hv
      | v6 =>
          rw [Read, ← parseIpv6_isSome_iff]
          dsimp only
          cases parseIpv6 s with
          | none => simp
          | some v => simp

/-- An address before the first slash. -/
lemma takeWhile_of_withPrefix {addr : List Char} (hslash : '/' ∉ addr)
    (h : t = addr ∨ ∃ p, PrefixText family p ∧ t = addr ++ '/' :: p) :
    t.takeWhile (· ≠ '/') = addr ∧
      (t = addr ∧ t.dropWhile (· ≠ '/') = [] ∨
        ∃ p, PrefixText family p ∧ t.dropWhile (· ≠ '/') = '/' :: p) := by
  have hother : ∀ c ∈ addr, decide (c ≠ '/') = true := fun c hc =>
    decide_eq_true fun heq => hslash (heq ▸ hc)
  rcases h with rfl | ⟨p, hp, rfl⟩
  · exact ⟨List.takeWhile_eq_self_iff.mpr hother,
      Or.inl ⟨rfl, List.dropWhile_eq_nil_iff.mpr hother⟩⟩
  · rw [List.takeWhile_append_of_pos hother, List.dropWhile_append_of_pos hother]
    exact ⟨by simp, Or.inr ⟨p, hp, by simp⟩⟩

/-- **What is read as a prefix.** -/
lemma parseCidr_isSome_iff : (parseCidr value).isSome ↔
    ∃ family, WithPrefix family (Read family) (trim value.toList) := by
  constructor
  · intro h
    obtain ⟨c, h⟩ := Option.isSome_iff_exists.mp h
    rw [parseCidr] at h
    split at h
    · cases h
    · rename_i family addr haddr
      have htext := List.takeWhile_append_dropWhile (p := (· ≠ '/')) (l := trim value.toList)
      refine ⟨family, _, parseAddress_iff.mp ⟨addr, haddr⟩, ?_⟩
      split at h
      · rename_i hdrop
        rw [hdrop, List.append_nil] at htext
        exact Or.inl htext.symm
      · rename_i x pfx hdrop
        obtain ⟨n, hn, -⟩ := Option.map_eq_some_iff.mp h
        have hx : x = '/' := by
          have hhead := List.head?_dropWhile_not (fun c => decide (c ≠ '/')) (trim value.toList)
          rw [hdrop] at hhead
          simpa using hhead
        refine Or.inr ⟨pfx, parsePrefix_isSome_iff.mp (hn ▸ rfl), ?_⟩
        rw [hx] at hdrop
        rw [← hdrop]
        exact htext.symm
  · rintro ⟨family, addr, haddr, htext⟩
    obtain ⟨v, hv⟩ := parseAddress_iff.mpr haddr
    obtain ⟨htake, hrest⟩ := takeWhile_of_withPrefix haddr.slash_not_mem htext
    rw [parseCidr, htake, hv]
    dsimp only
    rcases hrest with ⟨-, hdrop⟩ | ⟨p, hp, hdrop⟩
    · rw [hdrop]
      rfl
    · rw [hdrop]
      dsimp only
      rw [Option.isSome_map]
      exact parsePrefix_isSome_iff.mpr hp

lemma read_iff : Read family s ↔ AddressText family s ∨ family = .v6 ∧ Misplaced s := by
  cases family with
  | v4 => exact (or_iff_left fun h => nomatch h.1).symm
  | v6 => exact or_congr_right (and_iff_right rfl).symm

/-- A prefix with a misplaced quad is outside the language. -/
lemma MisplacedCidr.not_cidrText (h : MisplacedCidr value) : ¬ CidrText value := by
  obtain ⟨addr, hmis, htext⟩ := h
  rintro ⟨family, addr', haddr', htext'⟩
  have hread : Read family addr' := read_iff.mpr (Or.inl haddr')
  have hchars := Ipv6Text.chars (Or.inr hmis)
  obtain ⟨htake, -⟩ := takeWhile_of_withPrefix hchars.2 htext
  obtain ⟨htake', -⟩ := takeWhile_of_withPrefix hread.slash_not_mem htext'
  obtain rfl : addr = addr' := htake.symm.trans htake'
  cases family with
  | v4 => exact (Quad.chars (s := addr) haddr').2.2.1 hchars.1
  | v6 => exact hmis.not_ipv6Text haddr'

end Prefixes

/-- **Prefixes are read back, IPv6 ones are written in canonical form, and the
parser accepts the language** just for the texts without a misplaced quad. -/
theorem cidr_grammar_iff (c : Cidr) (value : String) :
    (c.Canonical → parseCidr (formatCidr c) = some c ∧ (c.family = .v6 →
      ∃ text, Rfc5952 c.net text ∧ (formatCidr c).toList = text ++ '/' :: Nat.toDigits 10 c.pfx)) ∧
    (((parseCidr value).isSome ↔ CidrText value) ↔ ¬ MisplacedCidr value) := by
  refine ⟨fun hc => ⟨parseCidr_formatCidr hc, fun hfam => ?_⟩, ?_⟩
  · refine ⟨formatIpv6 c.net, rfc5952_formatIpv6 c.net, ?_⟩
    rw [formatCidr, hfam, String.toList_ofList]
  · have hread : (parseCidr value).isSome ↔ CidrText value ∨ MisplacedCidr value := by
      rw [parseCidr_isSome_iff]
      constructor
      · rintro ⟨family, addr, haddr, htext⟩
        rcases read_iff.mp haddr with hin | ⟨rfl, hmis⟩
        · exact Or.inl ⟨family, addr, hin, htext⟩
        · exact Or.inr ⟨addr, hmis, htext⟩
      · rintro (⟨family, addr, hin, htext⟩ | ⟨addr, hmis, htext⟩)
        · exact ⟨family, addr, read_iff.mpr (Or.inl hin), htext⟩
        · exact ⟨.v6, addr, Or.inr hmis, htext⟩
    rw [hread]
    constructor
    · intro hiff hmis
      exact hmis.not_cidrText (hiff.mp (Or.inr hmis))
    · exact fun hnot => or_iff_left hnot

/-- The loopback address. -/
theorem cidr_grammar_iff_loopback : parseCidr (formatCidr ⟨.v6, 1, 128⟩) = some ⟨.v6, 1, 128⟩ ∧
    ∃ text, Rfc5952 1 text ∧
      (formatCidr ⟨.v6, 1, 128⟩).toList = text ++ '/' :: Nat.toDigits 10 128 := by
  have hcanonical : (⟨.v6, 1, 128⟩ : Cidr).Canonical := ⟨le_rfl, by decide, by decide⟩
  obtain ⟨hread, hform⟩ := (cidr_grammar_iff ⟨.v6, 1, 128⟩ "::1").1 hcanonical
  exact ⟨hread, hform rfl⟩

/-- A quad before the `::` is read as the first 32 bits. -/
theorem not_cidr_grammar : ¬ ((parseCidr "1.2.3.4::").isSome ↔ CidrText "1.2.3.4::") := by
  intro h
  have hread : (parseCidr "1.2.3.4::").isSome = true := by decide +kernel
  have htrim : trim "1.2.3.4::".toList = "1.2.3.4".toList ++ [':', ':'] ++ [] := by decide +kernel
  have hmis : MisplacedCidr "1.2.3.4::" := by
    refine ⟨_, ⟨"1.2.3.4".toList, [], "1.2.3.4".toList, none, 2, 0, ?_, ?_, by decide, rfl⟩,
      Or.inl htrim⟩
    · refine ⟨[], nofun, fun q hq => ?_, by decide, rfl⟩
      obtain rfl := Option.some.inj hq
      exact ⟨1, 2, 3, 4, by decide, by decide, by decide, by decide, by decide +kernel⟩
    · exact ⟨[], nofun, nofun, rfl, rfl⟩
  exact hmis.not_cidrText (h.mp hread)

end CumulusVpn.Split
