/-
The store of the split-tunneling policy (`clients/desktop/src/lib/storage.ts`,
`clients/mobile/src/state/storage.ts`, `clients/web/src/lib/splitPolicy.ts`).

* `Json.toValue`, `Json.ofValue`: values as `JSON` prints and reads them;
* `Json.Plain`: values whose keys keep their order; `Plain.parse_toValue`: they
  read back;
* `saveSplitPolicy`, `loadSplitPolicy`: the store;
* `loadSplitPolicy_saveSplitPolicy`: **a stored policy is the one that is
  loaded**;
* `policy_survives_reload`: rules and policies are fixed points of the gates.
-/
import CumulusVpn.Lib.Json
import CumulusVpn.Split.Denotation

namespace CumulusVpn.Split

/-! ### Values -/

/-- The code units of a string. -/
def unitsOf (s : String) : JsonText.Str := s.toList.flatMap JsonText.units

lemma unitsOf_injective : Function.Injective unitsOf := by
  intro s t h
  have hchars := congrArg JsonText.charsOf h
  rw [unitsOf, unitsOf, JsonText.charsOf_flatMap_units, JsonText.charsOf_flatMap_units] at hchars
  exact String.toList_injective (Option.some.inj hchars)

mutual

/-- The value that is printed. -/
def Json.toValue : Json → JsonText.Json
  | .null => .null
  | .bool b => .bool b
  | .num n => .num (.ofInt n)
  | .str s => .str (unitsOf s)
  | .arr items => .arr (Json.toItems items)
  | .obj fields => .obj (Json.toMembers fields)

/-- The items of an array that is printed. -/
def Json.toItems : List Json → List JsonText.Json
  | [] => []
  | v :: vs => v.toValue :: Json.toItems vs

/-- The members of an object that is printed. -/
def Json.toMembers : List (String × Json) → List (JsonText.Str × JsonText.Json)
  | [] => []
  | (k, v) :: fields => (unitsOf k, v.toValue) :: Json.toMembers fields

end

mutual

/-- The value that is read; `none` for a fraction and for half a surrogate
pair. -/
def Json.ofValue : JsonText.Json → Option Json
  | .null => some .null
  | .bool b => some (.bool b)
  | .num n => n.toInt?.map .num
  | .str s => (JsonText.charsOf s).map fun cs => .str (String.ofList cs)
  | .arr items => (Json.ofItems items).map .arr
  | .obj members => (Json.ofMembers members).map .obj

/-- The items of an array that is read. -/
def Json.ofItems : List JsonText.Json → Option (List Json)
  | [] => some []
  | v :: vs => do
      let w ← Json.ofValue v
      let ws ← Json.ofItems vs
      return w :: ws

/-- The members of an object that is read. -/
def Json.ofMembers : List (JsonText.Str × JsonText.Json) → Option (List (String × Json))
  | [] => some []
  | (k, v) :: members => do
      let cs ← JsonText.charsOf k
      let w ← Json.ofValue v
      let fields ← Json.ofMembers members
      return (String.ofList cs, w) :: fields

end

namespace Json

lemma toItems_eq (items : List Json) : toItems items = items.map toValue := by
  induction items with
  | nil => rfl
  | cons v vs ih => rw [toItems, ih, List.map_cons]

lemma toMembers_eq (fields : List (String × Json)) :
    toMembers fields = fields.map fun f => (unitsOf f.1, f.2.toValue) := by
  induction fields with
  | nil => rfl
  | cons f fields ih => rw [toMembers, ih, List.map_cons]

lemma ofItems_toItems {items : List Json} (h : ∀ v ∈ items, ofValue v.toValue = some v) :
    ofItems (toItems items) = some items := by
  induction items with
  | nil => rfl
  | cons v vs ih =>
      obtain ⟨hv, hvs⟩ := List.forall_mem_cons.mp h
      rw [toItems, ofItems, hv, ih hvs]
      rfl

lemma ofMembers_toMembers {fields : List (String × Json)}
    (h : ∀ f ∈ fields, ofValue f.2.toValue = some f.2) :
    ofMembers (toMembers fields) = some fields := by
  induction fields with
  | nil => rfl
  | cons f fields ih =>
      obtain ⟨k, v⟩ := f
      obtain ⟨hv, hvs⟩ := List.forall_mem_cons.mp h
      rw [toMembers, ofMembers, unitsOf, JsonText.charsOf_flatMap_units, hv, ih hvs]
      simp

/-- A value whose text reads back as it is: no object has a key twice, or a key
that is an array index. -/
inductive Plain : Json → Prop
  | null : Plain .null
  | bool (b : Bool) : Plain (.bool b)
  | num (n : Int) (h : (JsonText.Number.ofInt n).toInt? = some n) : Plain (.num n)
  | str (s : String) : Plain (.str s)
  | arr (items : List Json) (h : ∀ v ∈ items, Plain v) : Plain (.arr items)
  | obj (fields : List (String × Json)) (hnodup : (fields.map Prod.fst).Nodup)
      (hkeys : ∀ f ∈ fields, JsonText.arrayIndex (unitsOf f.1) = none)
      (h : ∀ f ∈ fields, Plain f.2) : Plain (.obj fields)

/-- The value that is printed, and what it is read as. -/
structure Faithful (v : Json) : Prop where
  proper : v.toValue.proper = true
  ordered : v.toValue.rearrange JsonText.ownOrder = v.toValue
  read : ofValue v.toValue = some v

lemma Plain.faithful {v : Json} (h : Plain v) : Faithful v := by
  induction h with
  | null => exact ⟨rfl, rfl, rfl⟩
  | bool b => exact ⟨rfl, rfl, rfl⟩
  | num n h => exact ⟨rfl, rfl, by rw [toValue, ofValue, h]; rfl⟩
  | str s =>
      refine ⟨rfl, rfl, ?_⟩
      rw [toValue, ofValue, unitsOf, JsonText.charsOf_flatMap_units, Option.map_some,
        String.ofList_toList]
  | arr items _ ih =>
      have hitems : (toItems items).map (JsonText.Json.rearrange JsonText.ownOrder) =
          toItems items := by
        rw [toItems_eq, List.map_map]
        exact List.map_congr_left fun v hv => (ih v hv).ordered
      refine ⟨?_, ?_, ?_⟩
      · rw [toValue, JsonText.proper_arr, toItems_eq]
        intro w hw
        obtain ⟨v, hv, rfl⟩ := List.mem_map.mp hw
        exact (ih v hv).proper
      · rw [toValue, JsonText.Json.rearrange, JsonText.rearrangeItems_eq, hitems]
      · rw [toValue, ofValue, ofItems_toItems fun v hv => (ih v hv).read, Option.map_some]
  | obj fields hnodup hkeys _ ih =>
      have hmembers : (toMembers fields).map
          (fun m => (m.1, m.2.rearrange JsonText.ownOrder)) = toMembers fields := by
        rw [toMembers_eq, List.map_map]
        exact List.map_congr_left fun f hf => congrArg (Prod.mk (unitsOf f.1)) (ih f hf).ordered
      have hown : JsonText.ownOrder (toMembers fields) = toMembers fields := by
        refine JsonText.ownOrder_eq_self fun m hm => ?_
        rw [toMembers_eq] at hm
        obtain ⟨f, hf, rfl⟩ := List.mem_map.mp hm
        exact hkeys f hf
      refine ⟨?_, ?_, ?_⟩
      · rw [toValue, JsonText.proper_obj, toMembers_eq]
        refine ⟨?_, fun m hm => ?_⟩
        · have hkeysMap := hnodup.map unitsOf_injective
          rwa [List.map_map] at hkeysMap ⊢
        · obtain ⟨f, hf, rfl⟩ := List.mem_map.mp hm
          exact (ih f hf).proper
      · rw [toValue, JsonText.Json.rearrange, JsonText.rearrangeMembers_eq, hmembers, hown]
      · rw [toValue, ofValue, ofMembers_toMembers fun f hf => (ih f hf).read, Option.map_some]

/-- **A plain value reads back from its text.** -/
theorem Plain.parse_toValue {v : Json} (h : Plain v) :
    ∃ w, JsonText.parse (JsonText.stringify [] [] v.toValue) = some w ∧ ofValue w = some v := by
  have hblank : JsonText.Blank [] := by decide
  have hparse := JsonText.parse_stringify hblank hblank h.faithful.proper
  rw [List.append_nil, h.faithful.ordered] at hparse
  exact ⟨v.toValue, hparse, h.faithful.read⟩

end Json

/-! ### The store -/

/-- `JSON.stringify(policy)` -/
def saveSplitPolicy (policy : SplitPolicy) : List Char :=
  JsonText.stringify [] [] policy.toJson.toValue

/-- The policy of a stored text, if there is one; `none` where the text holds a
fraction or half a surrogate pair. -/
def loadSplitPolicy (unicode : Unicode) : Option (List Char) → Option SplitPolicy
  | none => some emptyPolicy
  | some [] => some emptyPolicy
  | some raw =>
      match JsonText.parse raw with
      | none => some emptyPolicy
      | some value => (Json.ofValue value).map (sanitizeSplitPolicy unicode)

/-- The label of a rule is a string, or there is none. -/
def SplitRule.HasTextLabel (r : SplitRule) : Prop := ∀ label ∈ r.label, ∃ s, label = .str s

/-- The rules of a value have strings for labels, or none. -/
def HasTextLabels (value : Json) : Prop :=
  ∀ rules, value.get? "rules" = some (.arr rules) → ∀ rule ∈ rules,
    ∀ label ∈ rule.get? "label", ∃ s, label = .str s

section Reload

variable {unicode : Unicode}

lemma SplitRule.plain_toJson {r : SplitRule} (h : r.HasTextLabel) : r.toJson.Plain := by
  obtain ⟨kind, value, label, platform, enabled⟩ := r
  have hindex : ∀ k ∈ ["kind", "value"] ++ ["label"] ++ ["platform"] ++ ["enabled"],
      JsonText.arrayIndex (unitsOf k) = none := by
    decide +kernel
  have hsub : (([("kind", .str kind.text), ("value", .str value)] ++
        (label.map fun label => ("label", label)).toList ++
        (platform.map fun platform => ("platform", .str platform.text)).toList ++
        [("enabled", .bool enabled)] : List (String × Json)).map Prod.fst).Sublist
      (["kind", "value"] ++ ["label"] ++ ["platform"] ++ ["enabled"]) := by
    rw [List.map_append, List.map_append, List.map_append]
    refine (((List.Sublist.refl _).append ?_).append ?_).append (List.Sublist.refl _)
    · cases label with
      | none => exact List.nil_sublist _
      | some label => exact List.Sublist.refl _
    · cases platform with
      | none => exact List.nil_sublist _
      | some platform => exact List.Sublist.refl _
  refine .obj _ (hsub.nodup (by decide)) (fun f hf => ?_) ?_
  · exact hindex f.1 (hsub.subset (List.mem_map_of_mem hf))
  · refine List.forall_mem_append.mpr ⟨List.forall_mem_append.mpr
      ⟨List.forall_mem_append.mpr ⟨?_, ?_⟩, ?_⟩, ?_⟩
    · exact List.forall_mem_cons.mpr ⟨.str _, List.forall_mem_singleton.mpr (.str _)⟩
    · cases label with
      | none => exact nofun
      | some label =>
          obtain ⟨s, rfl⟩ := h label rfl
          exact List.forall_mem_singleton.mpr (.str s)
    · cases platform with
      | none => exact nofun
      | some platform => exact List.forall_mem_singleton.mpr (.str _)
    · exact List.forall_mem_singleton.mpr (.bool _)

lemma SplitPolicy.plain_toJson {policy : SplitPolicy} (h : ∀ r ∈ policy.rules, r.HasTextLabel) :
    policy.toJson.Plain := by
  have hindex : ∀ k ∈ ["version", "mode", "rules", "lanBypass", "excludedDns"],
      JsonText.arrayIndex (unitsOf k) = none := by
    decide +kernel
  have hnodup : ["version", "mode", "rules", "lanBypass", "excludedDns"].Nodup := by decide
  have hrules : Json.Plain (.arr (policy.rules.map SplitRule.toJson)) := by
    refine .arr _ fun v hv => ?_
    obtain ⟨r, hr, rfl⟩ := List.mem_map.mp hv
    exact SplitRule.plain_toJson (h r hr)
  refine .obj _ hnodup (fun f hf => hindex f.1 (List.mem_map_of_mem hf)) ?_
  simp only [List.forall_mem_cons]
  exact ⟨.num 1 (by decide +kernel), .str _, hrules, .bool _, .str _, nofun⟩

/-- **A stored policy is the one that is loaded.** -/
theorem loadSplitPolicy_saveSplitPolicy (hunicode : unicode.FixesDomains) {policy : SplitPolicy}
    (hgated : policy.Gated unicode) (hlabels : ∀ r ∈ policy.rules, r.HasTextLabel) :
    loadSplitPolicy unicode (some (saveSplitPolicy policy)) = some policy := by
  obtain ⟨w, hparse, hread⟩ := (SplitPolicy.plain_toJson hlabels).parse_toValue
  rw [saveSplitPolicy]
  cases htext : JsonText.stringify [] [] policy.toJson.toValue with
  | nil =>
      rw [htext] at hparse
      cases hparse
  | cons c cs =>
      rw [htext] at hparse
      rw [loadSplitPolicy, hparse]
      dsimp only
      rw [hread, Option.map_some, sanitizeSplitPolicy_toJson hunicode hgated]
      exact List.cons_ne_nil c cs

lemma hasTextLabel_of_normalizeSplitRule {rule : Json} {endpointIps : List String} {r : SplitRule}
    (h : normalizeSplitRule unicode rule endpointIps = .ok r)
    (hlabel : ∀ label ∈ rule.get? "label", ∃ s, label = .str s) : r.HasTextLabel := by
  obtain ⟨raw, -, -, -, -, hread, -⟩ := normalizeSplitRule_eq_ok_iff.mp h
  rw [SplitRule.HasTextLabel, hread]
  exact hlabel

end Reload

/-- **Rules are fixed points of their gate, sanitized values and stored policies
survive the store.** -/
theorem policy_survives_reload (unicode : Unicode) (hunicode : unicode.FixesDomains) :
    (∀ rule endpointIps r, normalizeSplitRule unicode rule endpointIps = .ok r →
      normalizeSplitRule unicode r.toJson endpointIps = .ok r) ∧
    (∀ value, HasTextLabels value →
      loadSplitPolicy unicode (some (saveSplitPolicy (sanitizeSplitPolicy unicode value))) =
        some (sanitizeSplitPolicy unicode value)) ∧
    ∀ policy : SplitPolicy, policy.Gated unicode → (∀ r ∈ policy.rules, r.HasTextLabel) →
      loadSplitPolicy unicode (some (saveSplitPolicy policy)) = some policy := by
  refine ⟨fun rule endpointIps r h => ?_, fun value hvalue => ?_, fun policy hgated hlabels => ?_⟩
  · exact normalizeSplitRule_toJson hunicode h (List.Subset.refl endpointIps)
  · refine loadSplitPolicy_saveSplitPolicy hunicode (gated_sanitizeSplitPolicy unicode value) ?_
    intro r hr
    obtain ⟨rules, hrules, rule, hrule, hgate⟩ := exists_of_mem_sanitizeSplitPolicy hr
    exact hasTextLabel_of_normalizeSplitRule hgate (hvalue rules hrules rule hrule)
  · exact loadSplitPolicy_saveSplitPolicy hunicode hgated hlabels

lemma asciiUnicode_fixesDomains : asciiUnicode.FixesDomains := by
  have hlower : ∀ cs : List Char, (∀ c ∈ cs, isDomainChar c) → cs.map Char.toLower = cs := by
    intro cs h
    refine (List.map_congr_left fun c hc => ?_).trans (List.map_id cs)
    have hascii : ∀ n < 128, isDomainChar (Char.ofNat n) →
        (Char.ofNat n).toLower = Char.ofNat n := by
      decide
    have hlt : c.toNat < 128 := by
      have hdomain := h c hc
      simp only [isDomainChar, Bool.or_eq_true, decide_eq_true_eq] at hdomain
      rcases hdomain with ((hlabel | rfl) | rfl) | rfl
      · exact toNat_lt_of_isLabelChar hlabel
      · decide
      · decide
      · decide
    have hc' := hascii c.toNat hlt
    rw [Char.ofNat_toNat] at hc'
    exact hc' (h c hc)
  exact ⟨hlower, fun _ _ => rfl⟩

/-- A wildcard in capitals. -/
def shoutedRule : Json :=
  .obj [("kind", .str "domain"), ("value", .str " *.Example.COM. "), ("label", .str "Café")]

/-- The rule it is kept as. -/
def quietRule : SplitRule := ⟨.domain, "*.example.com", some (.str "Café"), none, true⟩

lemma normalizeSplitRule_shoutedRule :
    normalizeSplitRule asciiUnicode shoutedRule [] = .ok quietRule := by
  with_unfolding_all rfl

theorem policy_survives_reload_shouted :
    normalizeSplitRule asciiUnicode quietRule.toJson [] = .ok quietRule ∧
    loadSplitPolicy asciiUnicode (some (saveSplitPolicy
      (sanitizeSplitPolicy asciiUnicode (jsonPolicy "exclude" false [shoutedRule])))) =
        some (sanitizeSplitPolicy asciiUnicode (jsonPolicy "exclude" false [shoutedRule])) ∧
    loadSplitPolicy asciiUnicode (some (saveSplitPolicy ⟨.exclude, [quietRule], false, .tunnel⟩)) =
      some ⟨.exclude, [quietRule], false, .tunnel⟩ := by
  obtain ⟨hrule, hvalue, hpolicy⟩ :=
    policy_survives_reload asciiUnicode asciiUnicode_fixesDomains
  refine ⟨hrule _ _ _ normalizeSplitRule_shoutedRule, hvalue _ ?_, hpolicy _ ?_ ?_⟩
  · intro rules hrules rule hmem label hlabel
    cases hrules
    obtain rfl := List.mem_singleton.mp hmem
    cases hlabel
    exact ⟨"Café", rfl⟩
  · intro r hr
    obtain rfl := List.mem_singleton.mp hr
    exact ⟨shoutedRule, [], normalizeSplitRule_shoutedRule⟩
  · intro r hr label hlabel
    obtain rfl := List.mem_singleton.mp hr
    cases hlabel
    exact ⟨"Café", rfl⟩

end CumulusVpn.Split
