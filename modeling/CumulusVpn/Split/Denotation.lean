/-
What a compiled policy means.

* `SplitPolicy.Names`: an enabled prefix rule that holds no endpoint holds the
  address;
* `CompiledSplit.Bypassed`: the address goes past the tunnel, in either form of
  the routes;
* `Denotes`: the routes of a plan are those of its policy, tidy and without
  endpoints;
* `SameUpToOrder`: two plans differ in the order of domain matchers at most;
* `compileSplitPolicy_denotes`: **the plan denotes the policy, whatever the
  order and the repetitions of its rules**.
-/
import CumulusVpn.Split.Canonical

namespace CumulusVpn.Split

open Intervals Transaction

/-! ### Sets of strings -/

lemma utf16Units_append_inj {c d : Char} {us vs : List Nat}
    (h : utf16Units c ++ us = utf16Units d ++ vs) : c = d ∧ us = vs := by
  have hc : c.toNat < 0xd800 ∨ (0xdfff < c.toNat ∧ c.toNat < 0x110000) := c.valid
  have hd : d.toNat < 0xd800 ∨ (0xdfff < d.toNat ∧ d.toNat < 0x110000) := d.valid
  have heq : c.toNat = d.toNat → c = d := fun h => Char.ext (UInt32.toNat_inj.mp h)
  rw [utf16Units, utf16Units] at h
  split at h <;> split at h
  · simp only [List.cons_append, List.nil_append, List.cons.injEq] at h
    exact ⟨heq h.1, h.2⟩
  · simp only [List.cons_append, List.nil_append, List.cons.injEq] at h
    omega
  · simp only [List.cons_append, List.nil_append, List.cons.injEq] at h
    omega
  · simp only [List.cons_append, List.nil_append, List.cons.injEq] at h
    exact ⟨heq (by omega), h.2.2⟩

/-- A string is told by its UTF-16 units. -/
lemma utf16_injective {a b : String} (h : utf16 a = utf16 b) : a = b := by
  have hlists : ∀ cs ds : List Char, cs.flatMap utf16Units = ds.flatMap utf16Units → cs = ds := by
    intro cs
    induction cs with
    | nil =>
        intro ds hds
        rcases ds with _ | ⟨d, ds⟩
        · rfl
        · rw [List.flatMap_cons, utf16Units] at hds
          split at hds <;> simp at hds
    | cons c cs ih =>
        intro ds hds
        rcases ds with _ | ⟨d, ds⟩
        · rw [List.flatMap_cons, utf16Units] at hds
          split at hds <;> simp at hds
        · rw [List.flatMap_cons, List.flatMap_cons] at hds
          obtain ⟨rfl, hrest⟩ := utf16Units_append_inj hds
          rw [ih ds hrest]
  exact String.toList_inj.mp (hlists _ _ h)

lemma stringLE_iff {a b : String} : StringLE a b ↔ utf16 a ≤ utf16 b := by
  rw [StringLE, not_lt]

instance : Std.Total StringLE := ⟨fun a b => by
  rw [stringLE_iff, stringLE_iff]
  exact le_total _ _⟩

instance : IsTrans String StringLE := ⟨fun a b c hab hbc => by
  rw [stringLE_iff] at hab hbc ⊢
  exact hab.trans hbc⟩

instance : Std.Antisymm StringLE := ⟨fun _ _ hab hba =>
  utf16_injective (le_antisymm (stringLE_iff.mp hab) (stringLE_iff.mp hba))⟩

@[simp] lemma mem_distinct {v : String} {values : List String} :
    v ∈ distinct values ↔ v ∈ values := by
  induction values with
  | nil => rfl
  | cons w values ih =>
      rw [distinct, List.mem_cons, List.mem_cons, List.mem_filter, ih]
      by_cases h : v = w <;> simp [h]

lemma nodup_distinct (values : List String) : (distinct values).Nodup := by
  induction values with
  | nil => exact List.nodup_nil
  | cons w values ih =>
      rw [distinct, List.nodup_cons]
      refine ⟨?_, ih.filter _⟩
      simp

/-- Lists with the same strings hold the same distinct ones. -/
lemma distinct_perm {values values' : List String} (h : ∀ v, v ∈ values ↔ v ∈ values') :
    (distinct values).Perm (distinct values') := by
  refine (List.perm_ext_iff_of_nodup (nodup_distinct _) (nodup_distinct _)).mpr fun v => ?_
  rw [mem_distinct, mem_distinct, h]

/-- Sorted, they are the same list. -/
lemma sort_distinct_eq {values values' : List String} (h : ∀ v, v ∈ values ↔ v ∈ values') :
    (distinct values).insertionSort StringLE = (distinct values').insertionSort StringLE := by
  refine List.Perm.eq_of_pairwise' (List.pairwise_insertionSort StringLE _)
    (List.pairwise_insertionSort StringLE _) ?_
  exact ((List.perm_insertionSort StringLE _).trans (distinct_perm h)).trans
    (List.perm_insertionSort StringLE _).symm

/-! ### Sanitized policies -/

section Sanitized

variable {unicode : Unicode}

/-- A prefix rule that passes the gate is the text of a prefix. -/
lemma normalizeSplitRule_cidr {json : Json} {endpointIps : List String} {rule : SplitRule}
    (h : normalizeSplitRule unicode json endpointIps = .ok rule) (hkind : rule.kind = .cidr) :
    ∃ c : Cidr, c.Canonical ∧ formatCidr c = rule.value := by
  obtain ⟨raw, -, -, -, hvalue, -, -⟩ := normalizeSplitRule_eq_ok_iff.mp h
  rw [hkind] at hvalue
  obtain ⟨c, hread, -, -, heq⟩ := normalizeCidrValue_eq_ok_iff.mp hvalue
  exact ⟨c, canonical_of_parseCidr hread, heq⟩

/-- **The prefix rules of a sanitized policy are texts of prefixes.** -/
lemma sanitized_cidr {value : Json} : ∀ rule ∈ (sanitizeSplitPolicy unicode value).rules,
    rule.kind = .cidr → ∃ c : Cidr, c.Canonical ∧ formatCidr c = rule.value := by
  intro rule hrule
  obtain ⟨rules, -, json, -, hgate⟩ := exists_of_mem_sanitizeSplitPolicy hrule
  exact normalizeSplitRule_cidr hgate

end Sanitized

/-! ### The meaning of a policy -/

/-- The address lies in an enabled prefix rule that holds no endpoint. -/
def SplitPolicy.Names (policy : SplitPolicy) (endpointIps : List String) (family : Family)
    (a : Nat) : Prop :=
  ∃ rule ∈ policy.rules, rule.enabled = true ∧ rule.kind = .cidr ∧
    ∃ c, parseCidr rule.value = some c ∧ c.family = family ∧ a ∈ cidrToInterval c ∧
      ∀ endpoint ∈ endpointIps, ∀ ep, parseCidr endpoint = some ep → ep.family = c.family →
        ep.net ∉ cidrToInterval c

/-- The address lies in one of the canned prefixes. -/
def InLan (family : Family) (a : Nat) : Prop := RoutesCover lanBypassCidrs family a

/-- The address does not enter the tunnel: it lies in a bypass route, or in no
tunnel route where the platform has no bypass routes. -/
def CompiledSplit.Bypassed (split : CompiledSplit) (supportsExcludeRoute : Bool) (family : Family)
    (a : Nat) : Prop :=
  if supportsExcludeRoute then RoutesCover split.bypassRoutes family a
  else a < 2 ^ family.bits ∧ ¬ RoutesCover split.tunnelRoutes family a

/-- The prefixes of the rules are valid. -/
def SplitPolicy.Valid (policy : SplitPolicy) : Prop :=
  ∀ rule ∈ policy.rules, rule.kind = .cidr → (parseCidr rule.value).isSome

lemma sanitized_valid (unicode : Unicode) (value : Json) :
    (sanitizeSplitPolicy unicode value).Valid := by
  intro rule hrule hkind
  obtain ⟨c, hc, heq⟩ := sanitized_cidr rule hrule hkind
  rw [← heq, parseCidr_formatCidr hc]
  rfl

section Cidrs

variable {policy : SplitPolicy} {endpointIps : List String}

lemma mem_active {kind : SplitRuleKind} {rule : SplitRule} :
    rule ∈ policy.active kind ↔ rule ∈ policy.rules ∧ rule.enabled = true ∧ rule.kind = kind := by
  simp [SplitPolicy.active]

lemma mem_cidrs {v : String} : v ∈ policy.cidrs endpointIps ↔
    (∃ rule ∈ policy.rules, rule.enabled = true ∧ rule.kind = .cidr ∧ rule.value = v) ∧
      containsAnyEndpoint v endpointIps = false := by
  simp only [SplitPolicy.cidrs, List.mem_filter, List.mem_map, mem_active, Bool.not_eq_true']
  refine and_congr_left fun _ => exists_congr fun rule => ?_
  tauto

lemma containsAnyEndpoint_eq_false {v : String} {c : Cidr} (hc : parseCidr v = some c) :
    containsAnyEndpoint v endpointIps = false ↔
      ∀ endpoint ∈ endpointIps, ∀ ep, parseCidr endpoint = some ep → ep.family = c.family →
        ep.net ∉ cidrToInterval c := by
  have hone : ∀ endpoint, c.containsEndpoint endpoint = false ↔
      ∀ ep, parseCidr endpoint = some ep → ep.family = c.family → ep.net ∉ cidrToInterval c := by
    intro endpoint
    rw [Cidr.containsEndpoint]
    cases parseCidr endpoint with
    | none => simp
    | some ep => simp
  simp only [containsAnyEndpoint, hc, List.any_eq_false, Bool.not_eq_true, hone]

/-- The prefixes that are compiled hold what the policy names. -/
lemma routesCover_cidrs {family : Family} {a : Nat} :
    RoutesCover (policy.cidrs endpointIps) family a ↔ policy.Names endpointIps family a := by
  constructor
  · rintro ⟨v, hv, c, hc, hfam, ha⟩
    obtain ⟨⟨rule, hrule, henabled, hkind, rfl⟩, hfree⟩ := mem_cidrs.mp hv
    exact ⟨rule, hrule, henabled, hkind, c, hc, hfam, ha,
      (containsAnyEndpoint_eq_false hc).mp hfree⟩
  · rintro ⟨rule, hrule, henabled, hkind, c, hc, hfam, ha, hfree⟩
    exact ⟨rule.value, mem_cidrs.mpr ⟨⟨rule, hrule, henabled, hkind, rfl⟩,
      (containsAnyEndpoint_eq_false hc).mpr hfree⟩, c, hc, hfam, ha⟩

lemma cidrs_valid (h : policy.Valid) : ValidCidrs (policy.cidrs endpointIps) := by
  intro v hv
  obtain ⟨⟨rule, hrule, -, hkind, rfl⟩, -⟩ := mem_cidrs.mp hv
  exact h rule hrule hkind

end Cidrs

lemma lanBypassCidrs_valid : ValidCidrs lanBypassCidrs := by
  rw [ValidCidrs]
  decide +kernel

lemma routesCover_append {routes routes' : List String} {family : Family} {a : Nat} :
    RoutesCover (routes ++ routes') family a ↔
      RoutesCover routes family a ∨ RoutesCover routes' family a := by
  simp only [RoutesCover, List.mem_append, or_and_right, exists_or]

@[simp] lemma not_routesCover_nil {family : Family} {a : Nat} : ¬ RoutesCover [] family a := by
  rintro ⟨s, hs, -⟩
  cases hs

lemma tidy_nil : Tidy [] where
  aligned := fun _ hs => absurd hs List.not_mem_nil
  sorted := List.Pairwise.nil
  minimal := fun _ _ => Nat.zero_le _

/-! ### The three operations -/

lemma mergedCidrStrings_eq {cidrs : List String} (h : ValidCidrs cidrs) :
    mergedCidrStrings cidrs = .ok (routesOf (mergedOf cidrs)) := by
  rw [mergedCidrStrings, toMergedIntervals_eq h, toMergedIntervals_eq h]
  rfl

lemma routesCover_merged (cidrs : List String) (family : Family) (a : Nat) :
    RoutesCover (routesOf (mergedOf cidrs)) family a ↔ RoutesCover cidrs family a := by
  rw [routesCover_routesOf (mergedOf_proper cidrs), covers_mergedOf]

/-- The intervals of `a \ b`. -/
def differenceOf (a b : List String) (family : Family) : List Interval :=
  subtractIntervals (mergedOf a family) (mergedOf b family)

lemma differenceOf_proper (a b : List String) (family : Family) :
    Proper family (differenceOf a b family) :=
  subtractIntervals_proper (mergedOf_proper a family) (mergedOf_separated b family)

lemma subtractCidrStrings_eq {a b : List String} (ha : ValidCidrs a) (hb : ValidCidrs b) :
    subtractCidrStrings a b = .ok (routesOf (differenceOf a b)) := by
  rw [subtractCidrStrings, subtractFamily, subtractFamily, toMergedIntervals_eq ha,
    toMergedIntervals_eq ha, toMergedIntervals_eq hb, toMergedIntervals_eq hb]
  rfl

lemma routesCover_difference (a b : List String) (family : Family) (n : Nat) :
    RoutesCover (routesOf (differenceOf a b)) family n ↔
      RoutesCover a family n ∧ ¬ RoutesCover b family n := by
  rw [routesCover_routesOf (differenceOf_proper a b), differenceOf,
    covers_subtractIntervals (mergedOf_separated b family), covers_mergedOf, covers_mergedOf]

/-- Lists with the same addresses are merged to the same intervals. -/
lemma mergedOf_congr {cidrs cidrs' : List String}
    (h : ∀ family a, RoutesCover cidrs family a ↔ RoutesCover cidrs' family a) :
    mergedOf cidrs = mergedOf cidrs' := by
  funext family
  refine (mergedOf_separated cidrs family).ext (mergedOf_separated cidrs' family) fun a => ?_
  rw [covers_mergedOf, covers_mergedOf, h]

/-! ### The plans -/

/-- The prefixes that go past the tunnel: those of the rules in exclude mode,
and the canned ones. -/
def SplitPolicy.excludedCidrs (policy : SplitPolicy) (endpointIps : List String) : List String :=
  (if policy.mode = .exclude then policy.cidrs endpointIps else []) ++
    if policy.lanBypass then lanBypassCidrs else []

/-- The prefixes that enter the tunnel in include mode. -/
def SplitPolicy.includedOf (policy : SplitPolicy) (endpointIps : List String) :
    Family → List Interval :=
  if policy.lanBypass then differenceOf (policy.cidrs endpointIps) lanBypassCidrs
  else mergedOf (policy.cidrs endpointIps)

section Plans

variable {policy : SplitPolicy} {ctx : CompileSplitContext}

lemma excludedCidrs_valid (h : policy.Valid) :
    ValidCidrs (policy.excludedCidrs ctx.endpointIps) := by
  rw [SplitPolicy.excludedCidrs]
  refine ValidCidrs.append ?_ ?_
  · split
    · exact cidrs_valid h
    · exact fun _ hs => absurd hs List.not_mem_nil
  · split
    · exact lanBypassCidrs_valid
    · exact fun _ hs => absurd hs List.not_mem_nil

lemma includedOf_proper (family : Family) :
    Proper family (policy.includedOf ctx.endpointIps family) := by
  rw [SplitPolicy.includedOf]
  split
  · exact differenceOf_proper _ _ family
  · exact mergedOf_proper _ family

lemma routesCover_includedOf (family : Family) (a : Nat) :
    RoutesCover (routesOf (policy.includedOf ctx.endpointIps)) family a ↔
      policy.Names ctx.endpointIps family a ∧ ¬ (policy.lanBypass = true ∧ InLan family a) := by
  rw [SplitPolicy.includedOf]
  split
  · rename_i hlan
    rw [routesCover_difference, routesCover_cidrs, hlan, InLan, eq_self_iff_true, true_and]
  · rename_i hlan
    rw [routesCover_merged, routesCover_cidrs]
    exact (and_iff_left fun h => hlan h.1).symm

lemma routesCover_excludedCidrs (family : Family) (a : Nat) :
    RoutesCover (policy.excludedCidrs ctx.endpointIps) family a ↔
      (policy.mode = .exclude ∧ policy.Names ctx.endpointIps family a) ∨
        (policy.lanBypass = true ∧ InLan family a) := by
  rw [SplitPolicy.excludedCidrs, routesCover_append]
  refine or_congr ?_ ?_
  · split
    · rename_i hmode
      rw [routesCover_cidrs, and_iff_right hmode]
    · rename_i hmode
      exact iff_of_false not_routesCover_nil fun h => hmode h.1
  · split
    · rename_i hlan
      rw [and_iff_right hlan, InLan]
    · rename_i hlan
      exact iff_of_false not_routesCover_nil fun h => hlan h.1

lemma compileSplitPolicy_noop (hmode : policy.mode = .off) (hlan : policy.lanBypass = false) :
    compileSplitPolicy policy ctx = .ok noopSplit := by
  simp [compileSplitPolicy, hmode, hlan, pure, Except.pure]

lemma compileSplitPolicy_include (h : policy.Valid) (hmode : policy.mode = .includeOnly) :
    compileSplitPolicy policy ctx = .ok ⟨routesOf (policy.includedOf ctx.endpointIps), [],
      policy.apps ctx.platform, [], toMatchers policy.domains, [], false⟩ := by
  cases hlan : policy.lanBypass with
  | true =>
      simp [compileSplitPolicy, hmode, hlan, SplitPolicy.includedOf,
        subtractCidrStrings_eq (cidrs_valid h) lanBypassCidrs_valid, bind, Except.bind, pure,
        Except.pure]
  | false =>
      simp [compileSplitPolicy, hmode, hlan, SplitPolicy.includedOf,
        mergedCidrStrings_eq (cidrs_valid h), bind, Except.bind, pure, Except.pure]

/-- The bypass routes of a policy, and the tunnel routes that stand for them
where the platform has none. -/
def SplitPolicy.bypassOf (policy : SplitPolicy) (endpointIps : List String) : List String :=
  routesOf (mergedOf (policy.excludedCidrs endpointIps))

lemma compileSplitPolicy_exclude (h : ValidCidrs (policy.excludedCidrs ctx.endpointIps))
    (hmode : policy.mode ≠ .includeOnly)
    (hnoop : policy.mode = .off → policy.lanBypass = true) :
    compileSplitPolicy policy ctx = .ok
      ⟨if ctx.supportsExcludeRoute then []
          else routesOf (complementOf (policy.bypassOf ctx.endpointIps) .both),
        if ctx.supportsExcludeRoute then policy.bypassOf ctx.endpointIps else [], [],
        if policy.mode = .exclude then policy.apps ctx.platform else [], [],
        toMatchers (if policy.mode = .exclude then policy.domains else []), false⟩ := by
  have hmerged := mergedCidrStrings_eq h
  have hvalid : ValidCidrs (policy.bypassOf ctx.endpointIps) :=
    validCidrs_of_aligned (routesOf_tidy (mergedOf_proper _)).aligned
  have hcomplement := complementRoutes_eq hvalid .both
  have hrun : ¬ (policy.mode = .off ∧ (!policy.lanBypass) = true) := by
    rintro ⟨hoff, hlan⟩
    simp [hnoop hoff] at hlan
  rw [compileSplitPolicy, if_neg hrun, if_neg hmode]
  rw [SplitPolicy.excludedCidrs] at hmerged
  simp only [decide_eq_true_eq, hmerged, bind, Except.bind]
  rw [SplitPolicy.bypassOf, SplitPolicy.excludedCidrs] at hcomplement ⊢
  cases ctx.supportsExcludeRoute with
  | true => simp [pure, Except.pure]
  | false => simp [hcomplement, pure, Except.pure]

end Plans

/-! ### The plan denotes the policy -/

/-- The plan says what the policy says. -/
structure Denotes (policy : SplitPolicy) (ctx : CompileSplitContext) (split : CompiledSplit) :
    Prop where
  exclude : policy.mode = .exclude → ∀ family, ∀ a < 2 ^ family.bits,
    (split.Bypassed ctx.supportsExcludeRoute family a ↔
      policy.Names ctx.endpointIps family a ∨ (policy.lanBypass = true ∧ InLan family a))
  lanOnly : policy.mode = .off → policy.lanBypass = true → ∀ family, ∀ a < 2 ^ family.bits,
    (split.Bypassed ctx.supportsExcludeRoute family a ↔ InLan family a)
  includeOnly : policy.mode = .includeOnly → ∀ family a,
    (RoutesCover split.tunnelRoutes family a ↔
      policy.Names ctx.endpointIps family a ∧ ¬ (policy.lanBypass = true ∧ InLan family a))
  tunnelTidy : Tidy split.tunnelRoutes
  bypassTidy : Tidy split.bypassRoutes
  /-- only a canned prefix takes an endpoint past the tunnel, none takes it in -/
  endpoints : ∀ endpoint ∈ ctx.endpointIps, ∀ ep, parseCidr endpoint = some ep →
    (policy.mode = .includeOnly → ¬ RoutesCover split.tunnelRoutes ep.family ep.net) ∧
    (policy.mode = .exclude → RoutesCover split.bypassRoutes ep.family ep.net →
      policy.lanBypass = true ∧ InLan ep.family ep.net)

/-- The same policy but for the order and the repetitions of its rules. -/
structure SameRules (policy policy' : SplitPolicy) : Prop where
  mode : policy.mode = policy'.mode
  lanBypass : policy.lanBypass = policy'.lanBypass
  rules : ∀ rule, rule ∈ policy.rules ↔ rule ∈ policy'.rules

/-- The same plan but for the order of the domain matchers. -/
structure SameUpToOrder (split split' : CompiledSplit) : Prop where
  tunnelRoutes : split.tunnelRoutes = split'.tunnelRoutes
  bypassRoutes : split.bypassRoutes = split'.bypassRoutes
  appsIncluded : split.appsIncluded = split'.appsIncluded
  appsExcluded : split.appsExcluded = split'.appsExcluded
  domainsIncluded : split.domainsIncluded.Perm split'.domainsIncluded
  domainsExcluded : split.domainsExcluded.Perm split'.domainsExcluded
  isNoop : split.isNoop = split'.isNoop

lemma SameUpToOrder.refl (split : CompiledSplit) : SameUpToOrder split split :=
  ⟨rfl, rfl, rfl, rfl, List.Perm.refl _, List.Perm.refl _, rfl⟩

/-- An endpoint lies in no rule that the policy names. -/
lemma not_names_endpoint {policy : SplitPolicy} {endpointIps : List String} {endpoint : String}
    {ep : Cidr} (hmem : endpoint ∈ endpointIps) (hep : parseCidr endpoint = some ep) :
    ¬ policy.Names endpointIps ep.family ep.net := by
  rintro ⟨rule, -, -, -, c, -, hfam, ha, hfree⟩
  exact hfree endpoint hmem ep hep hfam.symm ha

section Denotation

variable {policy : SplitPolicy} {ctx : CompileSplitContext}

/-- The bypass routes hold what the policy takes past the tunnel, and so does
the complement of the tunnel routes. -/
lemma bypassed_iff {split : CompiledSplit}
    (htunnel : split.tunnelRoutes = if ctx.supportsExcludeRoute then []
      else routesOf (complementOf (policy.bypassOf ctx.endpointIps) .both))
    (hbypass : split.bypassRoutes =
      if ctx.supportsExcludeRoute then policy.bypassOf ctx.endpointIps else [])
    {family : Family} {a : Nat} (ha : a < 2 ^ family.bits) :
    split.Bypassed ctx.supportsExcludeRoute family a ↔
      (policy.mode = .exclude ∧ policy.Names ctx.endpointIps family a) ∨
        (policy.lanBypass = true ∧ InLan family a) := by
  rw [← routesCover_excludedCidrs, ← routesCover_merged, ← SplitPolicy.bypassOf,
    CompiledSplit.Bypassed, htunnel, hbypass]
  cases ctx.supportsExcludeRoute with
  | true => simp
  | false =>
      have hfam : family ∈ Families.both.toList := by cases family <;> decide
      simp only [Bool.false_eq_true, if_false]
      rw [routesCover_routesOf (complementOf_proper _ _), covers_complementOf]
      tauto

/-- The route lists of a plan are in their shortest form. -/
lemma compileSplitPolicy_tidy {split : CompiledSplit} (h : policy.Valid)
    (hsplit : compileSplitPolicy policy ctx = .ok split) :
    Tidy split.tunnelRoutes ∧ Tidy split.bypassRoutes := by
  by_cases hnoop : policy.mode = .off ∧ policy.lanBypass = false
  · obtain rfl := Except.ok.inj ((compileSplitPolicy_noop hnoop.1 hnoop.2).symm.trans hsplit)
    exact ⟨tidy_nil, tidy_nil⟩
  · by_cases hinclude : policy.mode = .includeOnly
    · obtain rfl := Except.ok.inj ((compileSplitPolicy_include h hinclude).symm.trans hsplit)
      exact ⟨routesOf_tidy includedOf_proper, tidy_nil⟩
    · have hrun : policy.mode = .off → policy.lanBypass = true := by
        intro hoff
        simpa [hoff] using hnoop
      obtain rfl := Except.ok.inj
        ((compileSplitPolicy_exclude (excludedCidrs_valid h) hinclude hrun).symm.trans hsplit)
      dsimp only
      cases ctx.supportsExcludeRoute with
      | true => exact ⟨tidy_nil, routesOf_tidy (mergedOf_proper _)⟩
      | false => exact ⟨routesOf_tidy (complementOf_proper _ _), tidy_nil⟩

/-- **The plan of a policy with valid prefixes denotes it.** -/
theorem compile_denotes (h : policy.Valid) :
    ∃ split, compileSplitPolicy policy ctx = .ok split ∧ Denotes policy ctx split := by
  by_cases hnoop : policy.mode = .off ∧ policy.lanBypass = false
  · obtain ⟨hmode, hlan⟩ := hnoop
    refine ⟨_, compileSplitPolicy_noop hmode hlan, ?_⟩
    refine ⟨?_, ?_, ?_, tidy_nil, tidy_nil, fun _ _ _ _ => ⟨?_, ?_⟩⟩ <;> simp [hmode, hlan]
  · by_cases hinclude : policy.mode = .includeOnly
    · refine ⟨_, compileSplitPolicy_include h hinclude, ?_⟩
      refine ⟨?_, ?_, ?_, routesOf_tidy includedOf_proper, tidy_nil, ?_⟩
      · simp [hinclude]
      · simp [hinclude]
      · intro _ family a
        exact routesCover_includedOf family a
      · intro endpoint hmem ep hep
        refine ⟨fun _ hcover => ?_, by simp [hinclude]⟩
        exact not_names_endpoint hmem hep ((routesCover_includedOf _ _).mp hcover).1
    · have hrun : policy.mode = .off → policy.lanBypass = true := by
        intro hoff
        simpa [hoff] using hnoop
      have hsplit := @compileSplitPolicy_exclude policy ctx (excludedCidrs_valid h) hinclude hrun
      obtain ⟨htunnel, hbypass⟩ := compileSplitPolicy_tidy h hsplit
      refine ⟨_, hsplit, ?_⟩
      refine ⟨?_, ?_, ?_, htunnel, hbypass, ?_⟩
      · intro hmode family a ha
        rw [bypassed_iff rfl rfl ha, and_iff_right hmode]
      · intro hmode hlan family a ha
        rw [bypassed_iff rfl rfl ha]
        simp [hmode, hlan]
      · exact fun hmode => absurd hmode hinclude
      · intro endpoint hmem ep hep
        refine ⟨fun hmode => absurd hmode hinclude, ?_⟩
        intro _ hcover
        simp only at hcover
        split at hcover
        · rw [SplitPolicy.bypassOf, routesCover_merged, routesCover_excludedCidrs] at hcover
          rcases hcover with ⟨-, hnames⟩ | hlan
          · exact absurd hnames (not_names_endpoint hmem hep)
          · exact hlan
        · exact absurd hcover not_routesCover_nil

end Denotation

/-! ### The order of the rules -/

section Order

variable {policy policy' : SplitPolicy} (h : SameRules policy policy')

include h

lemma SameRules.valid (hvalid : policy.Valid) : policy'.Valid := fun rule hrule =>
  hvalid rule ((h.rules rule).mpr hrule)

lemma SameRules.cidrs (endpointIps : List String) (family : Family) (a : Nat) :
    RoutesCover (policy.cidrs endpointIps) family a ↔
      RoutesCover (policy'.cidrs endpointIps) family a := by
  simp only [routesCover_cidrs, SplitPolicy.Names, h.rules]

lemma SameRules.includedOf (endpointIps : List String) :
    policy.includedOf endpointIps = policy'.includedOf endpointIps := by
  have hmerged := mergedOf_congr (h.cidrs endpointIps)
  have hdifference : differenceOf (policy.cidrs endpointIps) lanBypassCidrs =
      differenceOf (policy'.cidrs endpointIps) lanBypassCidrs := by
    funext family
    rw [differenceOf, differenceOf, hmerged]
  rw [SplitPolicy.includedOf, SplitPolicy.includedOf, h.lanBypass, hdifference, hmerged]

lemma SameRules.bypassOf (endpointIps : List String) :
    policy.bypassOf endpointIps = policy'.bypassOf endpointIps := by
  have hcovers : ∀ family a, RoutesCover (policy.excludedCidrs endpointIps) family a ↔
      RoutesCover (policy'.excludedCidrs endpointIps) family a := by
    intro family a
    rw [SplitPolicy.excludedCidrs, SplitPolicy.excludedCidrs, routesCover_append,
      routesCover_append, h.mode, h.lanBypass]
    refine or_congr_left ?_
    split
    · exact h.cidrs endpointIps family a
    · exact Iff.rfl
  rw [SplitPolicy.bypassOf, SplitPolicy.bypassOf, mergedOf_congr hcovers]

lemma SameRules.apps (platform : SplitPlatform) : policy.apps platform = policy'.apps platform := by
  refine sort_distinct_eq fun v => ?_
  simp only [List.mem_map, List.mem_filter, mem_active, h.rules]

lemma SameRules.domains : (toMatchers policy.domains).Perm (toMatchers policy'.domains) := by
  have hperm : policy.domains.Perm policy'.domains := by
    refine distinct_perm fun v => ?_
    simp only [List.mem_map, mem_active, h.rules]
  exact ((List.perm_insertionSort SuffixLE _).trans (hperm.map toMatcher)).trans
    (List.perm_insertionSort SuffixLE _).symm

/-- **The plan does not depend on the order and the repetitions of the
rules.** -/
theorem compile_sameRules (hvalid : policy.Valid) (ctx : CompileSplitContext)
    {split : CompiledSplit} (hsplit : compileSplitPolicy policy ctx = .ok split) :
    ∃ split', compileSplitPolicy policy' ctx = .ok split' ∧ SameUpToOrder split split' := by
  have hvalid' := h.valid hvalid
  by_cases hnoop : policy.mode = .off ∧ policy.lanBypass = false
  · obtain ⟨hmode, hlan⟩ := hnoop
    rw [compileSplitPolicy_noop hmode hlan] at hsplit
    cases hsplit
    exact ⟨_, compileSplitPolicy_noop (h.mode ▸ hmode) (h.lanBypass ▸ hlan),
      SameUpToOrder.refl _⟩
  · by_cases hinclude : policy.mode = .includeOnly
    · rw [compileSplitPolicy_include hvalid hinclude] at hsplit
      cases hsplit
      refine ⟨_, compileSplitPolicy_include hvalid' (h.mode ▸ hinclude), ?_⟩
      rw [← h.includedOf, ← h.apps]
      exact ⟨rfl, rfl, rfl, rfl, h.domains, List.Perm.refl _, rfl⟩
    · have hrun : policy.mode = .off → policy.lanBypass = true := by
        intro hoff
        simpa [hoff] using hnoop
      rw [compileSplitPolicy_exclude (excludedCidrs_valid hvalid) hinclude hrun] at hsplit
      cases hsplit
      refine ⟨_, compileSplitPolicy_exclude (excludedCidrs_valid hvalid')
        (h.mode ▸ hinclude) (fun hoff => h.lanBypass ▸ hrun (h.mode.trans hoff)), ?_⟩
      rw [← h.bypassOf, ← h.apps, ← h.mode]
      refine ⟨rfl, rfl, rfl, rfl, List.Perm.refl _, ?_, rfl⟩
      simp only
      split
      · exact h.domains
      · exact List.Perm.refl _

end Order

/-- **The compiled plan of a sanitized policy denotes it**, and depends on the
order and the repetitions of the rules in the order of its domain matchers at
most. -/
theorem compileSplitPolicy_denotes (unicode : Unicode) (value : Json) (ctx : CompileSplitContext) :
    ∃ split, compileSplitPolicy (sanitizeSplitPolicy unicode value) ctx = .ok split ∧
      Denotes (sanitizeSplitPolicy unicode value) ctx split ∧
      ∀ policy', SameRules (sanitizeSplitPolicy unicode value) policy' →
        ∃ split', compileSplitPolicy policy' ctx = .ok split' ∧ SameUpToOrder split split' := by
  have hvalid := sanitized_valid unicode value
  obtain ⟨split, hsplit, hdenotes⟩ := @compile_denotes _ ctx hvalid
  exact ⟨split, hsplit, hdenotes, fun policy' hsame =>
    compile_sameRules hsame hvalid ctx hsplit⟩

/-! ### Off with the LAN bypass, and matchers of one suffix -/

/-- The tables of the platform, on ASCII. -/
def asciiUnicode : Unicode := ⟨List.map Char.toLower, id⟩

/-- What is on disk for a policy of the mode. -/
def jsonPolicy (mode : String) (lanBypass : Bool) (rules : List Json) : Json :=
  .obj [("version", .num 1), ("mode", .str mode), ("rules", .arr rules),
    ("lanBypass", .bool lanBypass), ("excludedDns", .str "tunnel")]

/-- What is on disk for a rule. -/
def jsonRule (kind value : String) : Json := .obj [("kind", .str kind), ("value", .str value)]

/-- An enabled rule without a label. -/
def plainRule (kind : SplitRuleKind) (value : String) : SplitRule := ⟨kind, value, none, none, true⟩

/-- A platform with bypass routes. -/
def linuxContext : CompileSplitContext := ⟨.linux, true, []⟩

/-- Off with the LAN bypass and one rule, as it is read from disk. -/
lemma sanitize_lanOnly : sanitizeSplitPolicy asciiUnicode
    (jsonPolicy "off" true [jsonRule "cidr" "8.8.8.8"]) =
      ⟨.off, [plainRule .cidr "8.8.8.8/32"], true, .tunnel⟩ := by
  with_unfolding_all rfl

lemma sanitize_suffixes : sanitizeSplitPolicy asciiUnicode
    (jsonPolicy "exclude" false
      [jsonRule "domain" "*.example.com", jsonRule "domain" "example.com"]) =
      ⟨.exclude, [plainRule .domain "*.example.com", plainRule .domain "example.com"], false,
        .tunnel⟩ := by
  with_unfolding_all rfl

/-- The rule of a policy that is off goes through the tunnel although the
policy names its address, and two matchers of one suffix keep the order of
their rules. -/
theorem not_denotes_off :
    (∃ split, compileSplitPolicy (sanitizeSplitPolicy asciiUnicode
        (jsonPolicy "off" true [jsonRule "cidr" "8.8.8.8"])) linuxContext = .ok split ∧
      (sanitizeSplitPolicy asciiUnicode
        (jsonPolicy "off" true [jsonRule "cidr" "8.8.8.8"])).Names [] .v4 0x08080808 ∧
      ¬ split.Bypassed linuxContext.supportsExcludeRoute .v4 0x08080808) ∧
    ∃ policy', SameRules (sanitizeSplitPolicy asciiUnicode (jsonPolicy "exclude" false
        [jsonRule "domain" "*.example.com", jsonRule "domain" "example.com"])) policy' ∧
      compileSplitPolicy (sanitizeSplitPolicy asciiUnicode (jsonPolicy "exclude" false
        [jsonRule "domain" "*.example.com", jsonRule "domain" "example.com"]))
          linuxContext ≠ compileSplitPolicy policy' linuxContext := by
  rw [sanitize_lanOnly, sanitize_suffixes]
  refine ⟨⟨_, compileSplitPolicy_exclude (excludedCidrs_valid ?_) nofun fun _ => rfl, ?_, ?_⟩,
    ⟨.exclude, [plainRule .domain "example.com", plainRule .domain "*.example.com"], false,
      .tunnel⟩, ⟨rfl, rfl, fun rule => ?_⟩, by decide +kernel⟩
  · intro rule hrule _
    rw [List.mem_singleton.mp hrule]
    decide +kernel
  · exact ⟨plainRule .cidr "8.8.8.8/32", List.mem_cons_self, rfl, rfl, ⟨.v4, 0x08080808, 32⟩,
      by decide +kernel, rfl, by decide +kernel, fun _ h => absurd h List.not_mem_nil⟩
  · intro hbypassed
    rcases (bypassed_iff rfl rfl (by decide)).mp hbypassed with ⟨hmode, -⟩ | ⟨-, hlan⟩
    · cases hmode
    · revert hlan
      rw [InLan]
      decide +kernel
  · simp only [List.mem_cons, List.not_mem_nil, or_false]
    exact or_comm

end CumulusVpn.Split
