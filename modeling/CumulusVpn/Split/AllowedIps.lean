/-
The two route forms of an exclude policy.

A platform with bypass routes tunnels everything else; a config lists what it
tunnels in `AllowedIPs`.

* `allowedIps`: the prefixes that a config lists;
* `routesCover_allowedIps`: they hold what the joined routes hold;
* `allowedIpsFor_agrees`: **both forms tunnel the same addresses**, unless no
  address is left for the tunnel.
-/
import CumulusVpn.Split.Denotation

namespace CumulusVpn.Split

open Intervals Transaction

/-- The entries of an `AllowedIPs` line. -/
def allowedIps (line : String) : List String := (line.toList.splitOn ',').map String.ofList

/-! ### The text of the line -/

lemma comma_not_mem_toDigits (n : Nat) : ',' ∉ Nat.toDigits 10 n := by
  intro hc
  exact ((decimal_text n).2.2 ',' hc).2.2.2.1 rfl

lemma comma_not_mem_formatAddress {family : Family} {v : Nat} : ',' ∉ formatAddress family v := by
  have hhex : ∀ gs : List Nat, ',' ∉ List.intercalate [':'] (gs.map (Nat.toDigits 16)) := by
    intro gs hc
    rcases mem_intercalate hc with hc | ⟨t, ht, hct⟩
    · revert hc
      decide
    · obtain ⟨n, -, rfl⟩ := List.mem_map.mp ht
      have hhex := ((hex_text n).2 ',' hct).1
      revert hhex
      decide
  cases family with
  | v4 =>
      intro hc
      rcases mem_intercalate hc with hc | ⟨t, ht, hct⟩
      · revert hc
        decide
      · obtain ⟨n, hn, rfl⟩ := List.mem_map.mp ht
        exact comma_not_mem_toDigits n hct
  | v6 =>
      intro hc
      simp only [formatAddress, formatIpv6] at hc
      split at hc
      · exact hhex _ hc
      · rw [← List.map_take, ← List.map_drop] at hc
        simp only [List.mem_append] at hc
        rcases hc with (hc | hc) | hc
        · exact hhex _ hc
        · revert hc
          decide
        · exact hhex _ hc

lemma comma_not_mem_formatCidr (c : Cidr) : ',' ∉ (formatCidr c).toList := by
  have htext : (formatCidr c).toList =
      formatAddress c.family c.net ++ '/' :: Nat.toDigits 10 c.pfx := by
    rw [formatCidr, String.toList_ofList]
    rfl
  rw [htext]
  intro hc
  rcases List.mem_append.mp hc with hc | hc
  · exact comma_not_mem_formatAddress hc
  · rcases List.mem_cons.mp hc with hc | hc
    · revert hc
      decide
    · exact comma_not_mem_toDigits _ hc

/-- A space in front of a prefix is trimmed away. -/
lemma parseCidr_space (cs : List Char) :
    parseCidr (String.ofList (' ' :: cs)) = parseCidr (String.ofList cs) := by
  have hblank : ∀ c ∈ [' '], isSpace c := List.forall_mem_singleton.mpr rfl
  have htrim : trim (' ' :: cs) = trim cs := Trim.trim_append_left hblank cs
  simp only [parseCidr, String.toList_ofList, htrim]

lemma intercalate_comma_space (s : List Char) (rest : List (List Char)) :
    List.intercalate [',', ' '] (s :: rest) =
      List.intercalate [','] (s :: rest.map fun r => ' ' :: r) := by
  induction rest generalizing s with
  | nil => simp
  | cons r rest ih =>
      rw [List.map_cons, List.intercalate_cons_cons, List.intercalate_cons_cons, ih]
      rcases rest with _ | ⟨q, rest⟩
      · simp
      · rw [List.map_cons, List.intercalate_cons_cons, List.intercalate_cons_cons]
        simp

/-- The entries of the joined routes: all but the first follow a space. -/
lemma splitOn_intercalate_comma {route : String} {routes : List String}
    (h : ∀ s ∈ route :: routes, ',' ∉ s.toList) :
    (", ".intercalate (route :: routes)).toList.splitOn ',' =
      route.toList :: routes.map fun s => ' ' :: s.toList := by
  have htext : (", ".intercalate (route :: routes)).toList =
      List.intercalate [','] (route.toList :: routes.map fun s => ' ' :: s.toList) := by
    have hcomma : ", ".toList = [',', ' '] := by decide
    rw [String.toList_intercalate, hcomma, List.map_cons, intercalate_comma_space, List.map_map]
    rfl
  have hcomma : ∀ t ∈ route.toList :: routes.map fun s => ' ' :: s.toList, ',' ∉ t := by
    intro t ht hmem
    rcases List.mem_cons.mp ht with rfl | ht
    · exact h route List.mem_cons_self hmem
    · obtain ⟨s, hs, rfl⟩ := List.mem_map.mp ht
      rcases List.mem_cons.mp hmem with hspace | hmem
      · revert hspace
        decide
      · exact h s (List.mem_cons_of_mem _ hs) hmem
  rw [htext, List.splitOn_intercalate ',' hcomma (by simp)]

lemma allowedIps_intercalate {route : String} {routes : List String}
    (h : ∀ s ∈ route :: routes, ',' ∉ s.toList) :
    allowedIps (", ".intercalate (route :: routes)) =
      route :: routes.map fun s => String.ofList (' ' :: s.toList) := by
  rw [allowedIps, splitOn_intercalate_comma h, List.map_cons, List.map_map, String.ofList_toList]
  rfl

/-- **The line holds what its routes hold.** -/
lemma routesCover_allowedIps {routes : List String} (h : Tidy routes) (hne : routes ≠ [])
    (family : Family) (a : Nat) :
    RoutesCover (allowedIps (", ".intercalate routes)) family a ↔ RoutesCover routes family a := by
  obtain ⟨route, routes, rfl⟩ := List.exists_cons_of_ne_nil hne
  have hcomma : ∀ s ∈ route :: routes, ',' ∉ s.toList := by
    intro s hs
    obtain ⟨c, -, rfl⟩ := h.aligned s hs
    exact comma_not_mem_formatCidr c
  have hread : ∀ s : String, parseCidr (String.ofList (' ' :: s.toList)) = parseCidr s := by
    intro s
    rw [parseCidr_space, String.ofList_toList]
  rw [allowedIps_intercalate hcomma]
  simp only [RoutesCover, List.mem_cons, List.mem_map]
  constructor
  · rintro ⟨s, rfl | ⟨t, ht, rfl⟩, c, hc, hin⟩
    · exact ⟨s, Or.inl rfl, c, hc, hin⟩
    · exact ⟨t, Or.inr ht, c, hread t ▸ hc, hin⟩
  · rintro ⟨s, rfl | hs, c, hc, hin⟩
    · exact ⟨s, Or.inl rfl, c, hc, hin⟩
    · exact ⟨_, Or.inr ⟨s, hs, rfl⟩, c, (hread s).trans hc, hin⟩

/-! ### The two forms -/

/-- A list that is merged without an error is valid. -/
lemma validCidrs_of_merged {cidrs routes : List String} (h : mergedCidrStrings cidrs = .ok routes) :
    ValidCidrs cidrs := by
  obtain ⟨v4, hv4, -⟩ := bind_eq_ok h
  rw [toMergedIntervals] at hv4
  have hparse : ∀ l, parseIntervals .v4 cidrs = .ok l → ValidCidrs cidrs := by
    clear hv4 h
    induction cidrs with
    | nil => exact fun _ _ _ hs => absurd hs List.not_mem_nil
    | cons s cidrs ih =>
        intro l hl
        rw [parseIntervals] at hl
        split at hl
        · cases hl
        · rename_i c hc
          split at hl
          · cases hl
          · rename_i parsed hparsed
            intro t ht
            rcases List.mem_cons.mp ht with rfl | ht
            · rw [hc]
              rfl
            · exact ih parsed hparsed t ht
  cases hl : parseIntervals .v4 cidrs with
  | error e =>
      rw [hl] at hv4
      cases hv4
  | ok l => exact hparse l hl

section Forms

variable {policy : SplitPolicy} (hmode : policy.mode = .exclude)

include hmode

/-- Both forms fail where the routes cannot be merged. -/
lemma compileSplitPolicy_error {ctx : CompileSplitContext} {e : String}
    (h : mergedCidrStrings (policy.excludedCidrs ctx.endpointIps) = .error e) :
    compileSplitPolicy policy ctx = .error e := by
  rw [SplitPolicy.excludedCidrs, if_pos hmode] at h
  simp [compileSplitPolicy, hmode, h, bind, Except.bind]

/-- **Both forms tunnel the same addresses** as long as an address is left to
tunnel.  Where none is, the config falls back to the full tunnel. -/
theorem allowedIpsFor_agrees (ctx : CompileSplitContext) :
    (∃ e, compileSplitPolicy policy { ctx with supportsExcludeRoute := true } = .error e ∧
      compileSplitPolicy policy { ctx with supportsExcludeRoute := false } = .error e) ∨
    ∃ native listed,
      compileSplitPolicy policy { ctx with supportsExcludeRoute := true } = .ok native ∧
      compileSplitPolicy policy { ctx with supportsExcludeRoute := false } = .ok listed ∧
      ((∃ family, ∃ a < 2 ^ family.bits, ¬ RoutesCover native.bypassRoutes family a) →
        ∀ family, ∀ a < 2 ^ family.bits, (¬ RoutesCover native.bypassRoutes family a ↔
          RoutesCover (allowedIps (allowedIpsFor (some listed))) family a)) ∧
      ((∀ family, ∀ a < 2 ^ family.bits, RoutesCover native.bypassRoutes family a) →
        allowedIpsFor (some listed) = "0.0.0.0/0, ::/0") := by
  cases hmerged : mergedCidrStrings (policy.excludedCidrs ctx.endpointIps) with
  | error e =>
      left
      exact ⟨e, compileSplitPolicy_error hmode hmerged, compileSplitPolicy_error hmode hmerged⟩
  | ok bypass =>
      right
      have hvalid := validCidrs_of_merged hmerged
      have hinclude : policy.mode ≠ .includeOnly := by
        rw [hmode]
        nofun
      have hrun : policy.mode = .off → policy.lanBypass = true := by
        rw [hmode]
        nofun
      refine ⟨_, _, compileSplitPolicy_exclude hvalid hinclude hrun,
        compileSplitPolicy_exclude hvalid hinclude hrun, ?_, ?_⟩
      all_goals
        simp only [if_true, Bool.false_eq_true, if_false, allowedIpsFor, false_or]
      · rintro ⟨family, a, ha, hleft⟩ family' a' ha'
        have hcover : ∀ fam n, n < 2 ^ fam.bits →
            (RoutesCover (routesOf (complementOf (policy.bypassOf ctx.endpointIps) .both)) fam n ↔
              ¬ RoutesCover (policy.bypassOf ctx.endpointIps) fam n) := by
          intro fam n hn
          have hfam : fam ∈ Families.both.toList := by cases fam <;> decide
          rw [routesCover_routesOf (complementOf_proper _ _), covers_complementOf,
            and_iff_right hfam, and_iff_right hn]
        have hne : routesOf (complementOf (policy.bypassOf ctx.endpointIps) .both) ≠ [] := by
          intro hnil
          have hin := (hcover family a ha).mpr hleft
          rw [hnil] at hin
          exact not_routesCover_nil hin
        rw [if_neg hne, routesCover_allowedIps (routesOf_tidy (complementOf_proper _ _)) hne,
          hcover family' a' ha']
      · intro hall
        refine if_pos ?_
        have hnil : ∀ fam, complementOf (policy.bypassOf ctx.endpointIps) .both fam = [] := by
          intro fam
          refine (complementOf_proper _ _ fam).separated.ext Separated.nil fun a => ?_
          rw [covers_complementOf]
          refine iff_of_false ?_ (covers_nil a)
          rintro ⟨-, ha, hnot⟩
          exact hnot (hall fam a ha)
        rw [routesOf, hnil, hnil]
        rfl

end Forms

/-- A prefix rule, in both forms. -/
theorem allowedIpsFor_agrees_rule :
    (∃ e, compileSplitPolicy ⟨.exclude, [plainRule .cidr "10.0.0.0/8"], false, .tunnel⟩
        ⟨.linux, true, []⟩ = .error e ∧
      compileSplitPolicy ⟨.exclude, [plainRule .cidr "10.0.0.0/8"], false, .tunnel⟩
        ⟨.linux, false, []⟩ = .error e) ∨
    ∃ native listed,
      compileSplitPolicy ⟨.exclude, [plainRule .cidr "10.0.0.0/8"], false, .tunnel⟩
        ⟨.linux, true, []⟩ = .ok native ∧
      compileSplitPolicy ⟨.exclude, [plainRule .cidr "10.0.0.0/8"], false, .tunnel⟩
        ⟨.linux, false, []⟩ = .ok listed ∧
      ((∃ family, ∃ a < 2 ^ family.bits, ¬ RoutesCover native.bypassRoutes family a) →
        ∀ family, ∀ a < 2 ^ family.bits, (¬ RoutesCover native.bypassRoutes family a ↔
          RoutesCover (allowedIps (allowedIpsFor (some listed))) family a)) ∧
      ((∀ family, ∀ a < 2 ^ family.bits, RoutesCover native.bypassRoutes family a) →
        allowedIpsFor (some listed) = "0.0.0.0/0, ::/0") :=
  @allowedIpsFor_agrees ⟨.exclude, [plainRule .cidr "10.0.0.0/8"], false, .tunnel⟩ rfl linuxContext

/-- Rules for the halves of both families leave nothing to tunnel, and the
config tunnels everything. -/
theorem not_allowedIpsFor_agrees :
    ∃ native listed,
      compileSplitPolicy (sanitizeSplitPolicy asciiUnicode (jsonPolicy "exclude" false
        [jsonRule "cidr" "0.0.0.0/1", jsonRule "cidr" "128.0.0.0/1", jsonRule "cidr" "::/1",
          jsonRule "cidr" "8000::/1"])) ⟨.linux, true, []⟩ = .ok native ∧
      compileSplitPolicy (sanitizeSplitPolicy asciiUnicode (jsonPolicy "exclude" false
        [jsonRule "cidr" "0.0.0.0/1", jsonRule "cidr" "128.0.0.0/1", jsonRule "cidr" "::/1",
          jsonRule "cidr" "8000::/1"])) ⟨.linux, false, []⟩ = .ok listed ∧
      RoutesCover native.bypassRoutes .v4 0x08080808 ∧
      RoutesCover (allowedIps (allowedIpsFor (some listed))) .v4 0x08080808 := by
  refine ⟨⟨[], ["0.0.0.0/0", "::/0"], [], [], [], [], false⟩, ⟨[], [], [], [], [], [], false⟩, ?_⟩
  decide +kernel

end CumulusVpn.Split
