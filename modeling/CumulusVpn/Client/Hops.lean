/-
The hops of a route (`clients/core-ts/src/multihop.ts`).

* `selectHops`: the entry, and the exit that goes with it;
* `rank`: load, country and address, in this order;
* `Admissible`: what the style and the options ask of the hops;
* `selectHops_exact`: **hops are returned just when some are admissible, and
  then the least ones**, in whatever order the gateways are listed.
-/
import CumulusVpn.Lib.SortedSearch
import CumulusVpn.Split.CidrText
import CumulusVpn.Split.Denotation
import Mathlib.Data.Prod.Lex
import Mathlib.Data.Rat.Defs
import Mathlib.Algebra.Order.Ring.Rat
import Mathlib.Tactic.Linarith

namespace CumulusVpn.Client

open CumulusVpn.Split

/-! ### Gateways and options -/

/-- A gateway; `info` is the rest of what it says of itself. -/
structure GatewayInfo (α : Type) where
  ip : String
  country : String
  load : ℚ
  info : α
deriving DecidableEq, Repr

/-- How the hops of a route are chosen. -/
inductive RouteStyle
  | single
  | sameCountry
  | crossJurisdiction
deriving DecidableEq, Repr

/-- What a caller asks of the hops; what is `none` is left to the selection. -/
structure SelectHopsOptions where
  entryCountry : Option String
  exitCountry : Option String
  /-- the addresses at the entry city -/
  entryIps : Option (List String)
  exitIps : Option (List String)
  requireDistinctSubnet : Bool
deriving DecidableEq, Repr

/-- An entry, and an exit where the style has one. -/
structure SelectedHops (α : Type) where
  entry : GatewayInfo α
  exit : Option (GatewayInfo α)
deriving DecidableEq, Repr

/-- A country that is picked: the empty string is none. -/
def picked (country : Option String) : Option String := country.filter (· ≠ "")

/-- `!ips || ips.has(ip)` -/
def among (ips : Option (List String)) (ip : String) : Bool := ips.all fun ips => ip ∈ ips

/-! ### The selection -/

/-- IPv4 addresses go by their first three octets, IPv6 ones by three hextets;
any other text stands for itself. -/
def subnetGroup (unicode : Unicode) (ip : String) : List Char :=
  let s := ip.toList
  if ':' ∈ s then unicode.toLowerCase (List.intercalate [':'] ((s.splitOn ':').take 3))
  else if (s.splitOn '.').length = 4 then List.intercalate ['.'] ((s.splitOn '.').take 3)
  else s

/-- The comparison of the sort: the least loaded gateway first, and ties by country
and by address, so that the order is one of the gateways alone. -/
def byLoadThenCountry {α : Type} (a b : GatewayInfo α) : ℚ :=
  if a.load ≠ b.load then a.load - b.load
  else if a.country ≠ b.country then if utf16 a.country < utf16 b.country then -1 else 1
  else if a.ip ≠ b.ip then if utf16 a.ip < utf16 b.ip then -1 else 1
  else 0

section Selection

variable {α : Type} (unicode : Unicode) (style : RouteStyle) (opts : SelectHopsOptions)

/-- The gateway may be an entry. -/
def entryAllowed (g : GatewayInfo α) : Bool :=
  (picked opts.entryCountry).all (g.country = ·) && among opts.entryIps g.ip

/-- The tests of `exitFor`, in their order. -/
def exitAllowed (entry g : GatewayInfo α) : Bool :=
  if g.ip = entry.ip then false
  else if (picked opts.exitCountry).any (g.country ≠ ·) then false
  else if !among opts.exitIps g.ip then false
  else if opts.requireDistinctSubnet && subnetGroup unicode g.ip = subnetGroup unicode entry.ip then
    false
  else if style = .sameCountry then g.country = entry.country
  else g.country ≠ entry.country

/-- What is thrown where no gateway may be an entry. -/
def noEntry : String :=
  if (picked opts.entryCountry).isSome || opts.entryIps.isSome then
    "selectHops: no gateway available" ++
      (picked opts.entryCountry).elim "" (fun c => " in entry country \"" ++ c ++ "\"") ++
      (if opts.entryIps.isSome then " at the chosen entry city" else "")
  else "selectHops: no gateways available"

/-- What is thrown where no entry has an exit. -/
def noExit (entry : GatewayInfo α) : String :=
  "selectHops: no distinct exit " ++
    (if style = .crossJurisdiction then
      "in a different country from entry \"" ++ entry.country ++ "\""
    else "in country \"" ++ entry.country ++ "\"") ++
    (if opts.exitIps.isSome then " at the chosen exit city" else "") ++
    (if opts.requireDistinctSubnet then " on a distinct subnet" else "")

/-- The gateways in the order in which they are tried. -/
def sortHops (gateways : List (GatewayInfo α)) : List (GatewayInfo α) :=
  gateways.mergeSort fun a b => byLoadThenCountry a b ≤ 0

/-- The hops with an entry, if there is an exit for it. -/
def hopsFrom (sorted : List (GatewayInfo α)) (candidate : GatewayInfo α) :
    Option (SelectedHops α) :=
  (sorted.find? (exitAllowed unicode style opts candidate)).map fun exit => ⟨candidate, some exit⟩

/-- The first entry that has an exit, with the first exit it has. -/
def selectHops (gateways : List (GatewayInfo α)) : Except String (SelectedHops α) :=
  let sorted := sortHops gateways
  let entryPool := sorted.filter (entryAllowed opts)
  match entryPool.head? with
  | none => .error (noEntry opts)
  | some entry =>
      if style = .single then .ok ⟨entry, none⟩
      else
        match entryPool.findSome? (hopsFrom unicode style opts sorted) with
        | some hops => .ok hops
        | none => .error (noExit style opts entry)

end Selection

/-! ### What is asked of the hops -/

section Admissible

variable {α : Type}

/-- Load, country and address, in this order. -/
def rank (g : GatewayInfo α) : ℚ ×ₗ List Nat ×ₗ List Nat :=
  toLex (g.load, toLex (utf16 g.country, utf16 g.ip))

/-- Both gateways sit in one /24. -/
def SameSubnet (a b : GatewayInfo α) : Prop :=
  ∃ v w, parseIpv4 a.ip.toList = some v ∧ parseIpv4 b.ip.toList = some w ∧ v / 256 = w / 256

/-- What the options ask of an entry. -/
structure EntryFits (opts : SelectHopsOptions) (entry : GatewayInfo α) : Prop where
  country : ∀ c, opts.entryCountry = some c → c ≠ "" → entry.country = c
  city : ∀ ips, opts.entryIps = some ips → entry.ip ∈ ips

/-- What the style and the options ask of the exit for an entry. -/
structure ExitFits (style : RouteStyle) (opts : SelectHopsOptions) (entry exit : GatewayInfo α) :
    Prop where
  distinct : exit.ip ≠ entry.ip
  country : ∀ c, opts.exitCountry = some c → c ≠ "" → exit.country = c
  city : ∀ ips, opts.exitIps = some ips → exit.ip ∈ ips
  subnet : opts.requireDistinctSubnet = true → ¬ SameSubnet exit entry
  jurisdiction : match style with
    | .single => False
    | .sameCountry => exit.country = entry.country
    | .crossJurisdiction => exit.country ≠ entry.country

/-- Hops among the gateways that are as the style and the options ask. -/
structure Admissible (gateways : List (GatewayInfo α)) (style : RouteStyle)
    (opts : SelectHopsOptions) (hops : SelectedHops α) : Prop where
  listed : hops.entry ∈ gateways
  entry : EntryFits opts hops.entry
  exit : match hops.exit with
    | none => style = .single
    | some exit => exit ∈ gateways ∧ ExitFits style opts hops.entry exit

end Admissible

/-! ### The order -/

section Order

variable {α : Type} {gateways gateways' : List (GatewayInfo α)} {a b : GatewayInfo α}

lemma byLoadThenCountry_nonpos_iff : byLoadThenCountry a b ≤ 0 ↔ rank a ≤ rank b := by
  rw [byLoadThenCountry, rank, rank, Prod.Lex.toLex_le_toLex, Prod.Lex.toLex_le_toLex]
  dsimp only
  by_cases hload : a.load = b.load
  · rw [if_neg (not_not_intro hload), or_iff_right hload.not_lt, and_iff_right hload]
    by_cases hcountry : a.country = b.country
    · rw [if_neg (not_not_intro hcountry), hcountry, or_iff_right (lt_irrefl _), and_iff_right rfl]
      by_cases hip : a.ip = b.ip
      · rw [if_neg (not_not_intro hip), hip]
        exact iff_of_true le_rfl le_rfl
      · have hlt_iff : utf16 a.ip ≤ utf16 b.ip ↔ utf16 a.ip < utf16 b.ip :=
          le_iff_lt_or_eq.trans (or_iff_left fun h => hip (utf16_injective h))
        rw [if_pos hip, hlt_iff]
        split
        · rename_i hlt
          exact iff_of_true (by norm_num) hlt
        · rename_i hge
          exact iff_of_false (by norm_num) hge
    · have hne : utf16 a.country ≠ utf16 b.country := fun h => hcountry (utf16_injective h)
      rw [if_pos hcountry, or_iff_left fun h => hne h.1]
      split
      · rename_i hlt
        exact iff_of_true (by norm_num) hlt
      · rename_i hge
        exact iff_of_false (by norm_num) hge
  · have hlt_iff : a.load ≤ b.load ↔ a.load < b.load := le_iff_lt_or_eq.trans (or_iff_left hload)
    rw [if_pos hload, or_iff_left fun h => hload h.1, sub_nonpos, hlt_iff]

lemma decide_nonpos_iff (a b : GatewayInfo α) :
    decide (byLoadThenCountry a b ≤ 0) = true ↔ rank a ≤ rank b := by
  rw [decide_eq_true_eq, byLoadThenCountry_nonpos_iff]

lemma mem_sortHops : a ∈ sortHops gateways ↔ a ∈ gateways := List.mem_mergeSort

lemma pairwise_sortHops (gateways : List (GatewayInfo α)) :
    (sortHops gateways).Pairwise fun a b => rank a ≤ rank b :=
  SortedSearch.pairwise_mergeSort_rank decide_nonpos_iff gateways

/-- Gateways with different addresses are tried in one order. -/
lemma sortHops_eq_of_perm (h : gateways.Perm gateways')
    (hips : (gateways.map GatewayInfo.ip).Nodup) :
    sortHops gateways = sortHops gateways' := by
  refine SortedSearch.mergeSort_eq_of_perm decide_nonpos_iff h fun a ha b hb heq => ?_
  have hlex := congrArg (fun x => (ofLex (ofLex x).2).2) heq
  exact List.inj_on_of_nodup_map hips ha hb (utf16_injective hlex)

end Order

/-! ### The tests -/

section Tests

variable {α : Type} {unicode : Unicode} {style : RouteStyle} {opts : SelectHopsOptions}
  {a b entry g : GatewayInfo α}

lemma picked_all_iff {country : Option String} {p : String → Bool} :
    (picked country).all p = true ↔ ∀ c, country = some c → c ≠ "" → p c = true := by
  rw [picked, Option.all_eq_true]
  refine forall_congr' fun c => ?_
  rw [Option.filter_eq_some_iff, decide_eq_true_eq, and_imp]

lemma among_iff {ips : Option (List String)} {ip : String} :
    among ips ip = true ↔ ∀ l, ips = some l → ip ∈ l := by
  rw [among, Option.all_eq_true]
  exact forall_congr' fun l => imp_congr_right fun _ => decide_eq_true_iff

lemma entryAllowed_iff : entryAllowed opts g = true ↔ EntryFits opts g := by
  rw [entryAllowed, Bool.and_eq_true, picked_all_iff, among_iff]
  constructor
  · rintro ⟨hcountry, hcity⟩
    exact ⟨fun c hc hne => of_decide_eq_true (hcountry c hc hne), hcity⟩
  · rintro ⟨hcountry, hcity⟩
    exact ⟨fun c hc hne => decide_eq_true (hcountry c hc hne), hcity⟩

/-- The group of a dotted quad is the text of its first three octets. -/
lemma exists_subnetGroup {ip : String} {v : Nat} (h : parseIpv4 ip.toList = some v) :
    ∃ x y z, y < 256 ∧ z < 256 ∧ v / 256 = (x * 256 + y) * 256 + z ∧
      subnetGroup unicode ip = List.intercalate ['.'] ([x, y, z].map (Nat.toDigits 10)) := by
  obtain ⟨x, y, z, w, -, hy, hz, hw, hsplit, rfl⟩ := exists_octets_of_parseIpv4 h
  refine ⟨x, y, z, hy, hz, by omega, ?_⟩
  rw [subnetGroup, if_neg (colon_not_mem_of_parseIpv4 h), hsplit]
  rfl

/-- Two quads have one group just when they sit in one /24. -/
lemma subnetGroup_eq_iff {v w : Nat} (ha : parseIpv4 a.ip.toList = some v)
    (hb : parseIpv4 b.ip.toList = some w) :
    subnetGroup unicode a.ip = subnetGroup unicode b.ip ↔ SameSubnet a b := by
  have hsame : SameSubnet a b ↔ v / 256 = w / 256 := by
    constructor
    · rintro ⟨v', w', hv, hw, heq⟩
      obtain rfl := Option.some.inj (ha.symm.trans hv)
      obtain rfl := Option.some.inj (hb.symm.trans hw)
      exact heq
    · exact fun heq => ⟨v, w, ha, hb, heq⟩
  obtain ⟨x, y, z, hy, hz, hv, hgroup⟩ := @exists_subnetGroup unicode _ _ ha
  obtain ⟨x', y', z', hy', hz', hw, hgroup'⟩ := @exists_subnetGroup unicode _ _ hb
  have hdot : ∀ ns : List Nat, ∀ t ∈ ns.map (Nat.toDigits 10), '.' ∉ t := by
    intro ns t ht hmem
    obtain ⟨n, -, rfl⟩ := List.mem_map.mp ht
    exact ((decimal_text n).2.2 '.' hmem).2.1 rfl
  have hinj : Function.Injective (Nat.toDigits 10) := fun m n h => by
    rw [← (decimal_text m).1, h, (decimal_text n).1]
  rw [hsame, hgroup, hgroup', hv, hw]
  constructor
  · intro h
    have htexts := congrArg (List.splitOn '.') h
    rw [List.splitOn_intercalate '.' (hdot _) (by simp),
      List.splitOn_intercalate '.' (hdot _) (by simp)] at htexts
    have hoctets := List.map_injective_iff.mpr hinj htexts
    simp only [List.cons.injEq, and_true] at hoctets
    omega
  · intro h
    have hx : x = x' := by omega
    have hy : y = y' := by omega
    have hz : z = z' := by omega
    rw [hx, hy, hz]

/-- An IPv4 address in dotted form. -/
def Dotted (g : GatewayInfo α) : Prop := (parseIpv4 g.ip.toList).isSome

instance (g : GatewayInfo α) : Decidable (Dotted g) :=
  inferInstanceAs (Decidable (Option.isSome _ = true))

lemma exitAllowed_iff (hstyle : style ≠ .single) (hg : Dotted g) (hentry : Dotted entry) :
    exitAllowed unicode style opts entry g = true ↔ ExitFits style opts entry g := by
  obtain ⟨v, hv⟩ := Option.isSome_iff_exists.mp hg
  obtain ⟨w, hw⟩ := Option.isSome_iff_exists.mp hentry
  have hpicked : (picked opts.exitCountry).any (g.country ≠ ·) = true ↔
      ¬ ∀ c, opts.exitCountry = some c → c ≠ "" → g.country = c := by
    rw [picked]
    cases opts.exitCountry with
    | none => simp
    | some c => by_cases hc : c = "" <;> simp [hc]
  have hamong := @among_iff opts.exitIps g.ip
  have hsubnet : (opts.requireDistinctSubnet &&
      subnetGroup unicode g.ip = subnetGroup unicode entry.ip) = true ↔
      ¬ (opts.requireDistinctSubnet = true → ¬ SameSubnet g entry) := by
    rw [Bool.and_eq_true, decide_eq_true_eq, subnetGroup_eq_iff hv hw, Classical.not_imp, not_not]
  rw [exitAllowed]
  constructor
  · intro h
    split at h
    · cases h
    · rename_i hip
      split at h
      · cases h
      · rename_i hcountry
        split at h
        · cases h
        · rename_i hcity
          split at h
          · cases h
          · rename_i hgroup
            refine ⟨hip, ?_, hamong.mp (by simpa using hcity), ?_, ?_⟩
            · exact not_not.mp fun hnot => hcountry (hpicked.mpr hnot)
            · exact not_not.mp fun hnot => hgroup (hsubnet.mpr hnot)
            · cases style with
              | single => exact absurd rfl hstyle
              | sameCountry => exact of_decide_eq_true h
              | crossJurisdiction => exact of_decide_eq_true h
  · rintro ⟨hip, hcountry, hcity, hgroup, hrule⟩
    rw [if_neg hip, if_neg fun h => hpicked.mp h hcountry,
      if_neg (by simpa using hamong.mpr hcity), if_neg fun h => hsubnet.mp h hgroup]
    cases style with
    | single => exact absurd rfl hstyle
    | sameCountry => exact decide_eq_true hrule
    | crossJurisdiction => exact decide_eq_true hrule

end Tests

/-! ### What is selected -/

section Selected

variable {α : Type} {unicode : Unicode} {style : RouteStyle} {opts : SelectHopsOptions}
  {gateways gateways' : List (GatewayInfo α)} {candidate g : GatewayInfo α} {hops : SelectedHops α}

/-- The gateways that are tried as entries. -/
lemma mem_entryPool : g ∈ (sortHops gateways).filter (entryAllowed opts) ↔
    g ∈ gateways ∧ EntryFits opts g := by
  rw [List.mem_filter, mem_sortHops, entryAllowed_iff]

lemma pairwise_entryPool (opts : SelectHopsOptions) (gateways : List (GatewayInfo α)) :
    ((sortHops gateways).filter (entryAllowed opts)).Pairwise fun a b => rank a ≤ rank b :=
  (pairwise_sortHops gateways).sublist List.filter_sublist

/-- An admissible entry is tried. -/
lemma Admissible.mem_entryPool (h : Admissible gateways style opts hops) :
    hops.entry ∈ (sortHops gateways).filter (entryAllowed opts) :=
  Client.mem_entryPool.mpr ⟨h.listed, h.entry⟩

/-- With more than one hop, an admissible choice has an exit. -/
lemma Admissible.exists_exit (h : Admissible gateways style opts hops) (hstyle : style ≠ .single) :
    ∃ exit ∈ gateways, ExitFits style opts hops.entry exit := by
  have hexit := h.exit
  split at hexit
  · exact absurd hexit hstyle
  · exact ⟨_, hexit⟩

section Exits

variable (hdotted : ∀ g ∈ gateways, Dotted g) (hstyle : style ≠ .single)
  (hcandidate : candidate ∈ gateways)

include hdotted hstyle hcandidate

/-- The exit for an entry is the least one that fits. -/
lemma of_hopsFrom (h : hopsFrom unicode style opts (sortHops gateways) candidate = some hops) :
    ∃ exit ∈ gateways, hops = ⟨candidate, some exit⟩ ∧ ExitFits style opts candidate exit ∧
      ∀ exit' ∈ gateways, ExitFits style opts candidate exit' → rank exit ≤ rank exit' := by
  obtain ⟨exit, hfind, rfl⟩ := Option.map_eq_some_iff.mp h
  obtain ⟨⟨hmem, hallowed⟩, hleast⟩ := SortedSearch.find?_least (pairwise_sortHops gateways) hfind
  have hexit := mem_sortHops.mp hmem
  refine ⟨exit, hexit, rfl, ?_, fun exit' hexit' hfits => ?_⟩
  · exact (exitAllowed_iff hstyle (hdotted exit hexit) (hdotted candidate hcandidate)).mp hallowed
  · have hallowed' : exitAllowed unicode style opts candidate exit' = true :=
      (exitAllowed_iff hstyle (hdotted exit' hexit') (hdotted candidate hcandidate)).mpr hfits
    rcases hleast exit' (mem_sortHops.mpr hexit') hallowed' with rfl | hle
    · exact le_rfl
    · exact hle

lemma hopsFrom_isSome (unicode : Unicode) {exit : GatewayInfo α} (hexit : exit ∈ gateways)
    (hfits : ExitFits style opts candidate exit) :
    (hopsFrom unicode style opts (sortHops gateways) candidate).isSome := by
  rw [hopsFrom, Option.isSome_map, List.find?_isSome]
  exact ⟨exit, mem_sortHops.mpr hexit, (exitAllowed_iff hstyle (hdotted exit hexit)
    (hdotted candidate hcandidate)).mpr hfits⟩

end Exits

/-- The least hops of those that are admissible. -/
structure Least (gateways : List (GatewayInfo α)) (style : RouteStyle) (opts : SelectHopsOptions)
    (hops : SelectedHops α) : Prop where
  admissible : Admissible gateways style opts hops
  entry : ∀ hops', Admissible gateways style opts hops' → rank hops.entry ≤ rank hops'.entry
  exit : ∀ exit ∈ hops.exit, ∀ exit' ∈ gateways, ExitFits style opts hops.entry exit' →
    rank exit ≤ rank exit'

/-- What is returned is admissible, and the least of it. -/
lemma least_of_selectHops (hdotted : ∀ g ∈ gateways, Dotted g)
    (h : selectHops unicode style opts gateways = .ok hops) : Least gateways style opts hops := by
  rw [selectHops] at h
  split at h
  · cases h
  · rename_i entry hhead
    obtain ⟨rest, hpool⟩ := List.head?_eq_some_iff.mp hhead
    split at h
    · rename_i hsingle
      cases h
      have hentry := mem_entryPool.mp (hpool ▸ List.mem_cons_self)
      refine ⟨⟨hentry.1, hentry.2, hsingle⟩, fun hops' hadm => ?_, nofun⟩
      have hsorted := pairwise_entryPool opts gateways
      rw [hpool] at hsorted
      have hmem := hadm.mem_entryPool
      rw [hpool] at hmem
      rcases List.mem_cons.mp hmem with heq | hrest
      · exact heq ▸ le_rfl
      · exact List.rel_of_pairwise_cons hsorted hrest
    · rename_i hstyle
      split at h
      · rename_i found hfound
        cases h
        obtain ⟨candidate, hmem, hfrom, hfirst⟩ :=
          SortedSearch.findSome?_least (pairwise_entryPool opts gateways) hfound
        obtain ⟨hcandidate, hfits⟩ := mem_entryPool.mp hmem
        obtain ⟨exit, hexit, rfl, hexitFits, hleast⟩ :=
          of_hopsFrom hdotted hstyle hcandidate hfrom
        refine ⟨⟨hcandidate, hfits, hexit, hexitFits⟩, fun hops' hadm => ?_, fun x hx => ?_⟩
        · obtain ⟨exit', hexit', hfits'⟩ := hadm.exists_exit hstyle
          have hsome := hopsFrom_isSome hdotted hstyle hadm.listed unicode hexit' hfits'
          rcases hfirst hops'.entry hadm.mem_entryPool hsome with heq | hle
          · rw [heq]
          · exact hle
        · obtain rfl := Option.some.inj hx
          exact hleast
      · cases h

/-- Where hops are admissible, some are returned. -/
lemma exists_selectHops (hdotted : ∀ g ∈ gateways, Dotted g)
    (hadm : Admissible gateways style opts hops) :
    ∃ hops', selectHops unicode style opts gateways = .ok hops' := by
  have hmem := hadm.mem_entryPool
  rw [selectHops]
  split
  · rename_i hnone
    rw [List.head?_eq_none_iff.mp hnone] at hmem
    cases hmem
  · split
    · exact ⟨_, rfl⟩
    · rename_i hstyle
      split
      · exact ⟨_, rfl⟩
      · rename_i hnone
        obtain ⟨exit, hexit, hfits⟩ := hadm.exists_exit hstyle
        have hsome := hopsFrom_isSome hdotted hstyle hadm.listed unicode hexit hfits
        rw [List.findSome?_eq_none_iff.mp hnone _ hmem] at hsome
        cases hsome

end Selected

/-- **`selectHops` is sound and complete**: it returns hops just when some choice
among the gateways is admissible, and then the least one; with different
addresses the order of the list does not matter. -/
theorem selectHops_exact {α : Type} (unicode : Unicode) (style : RouteStyle)
    (opts : SelectHopsOptions) {gateways : List (GatewayInfo α)}
    (hdotted : ∀ g ∈ gateways, Dotted g) :
    ((∃ hops, selectHops unicode style opts gateways = .ok hops) ↔
      ∃ hops, Admissible gateways style opts hops) ∧
    (∀ hops, selectHops unicode style opts gateways = .ok hops → Least gateways style opts hops) ∧
    ∀ gateways', gateways.Perm gateways' → (gateways.map GatewayInfo.ip).Nodup →
      selectHops unicode style opts gateways' = selectHops unicode style opts gateways := by
  refine ⟨⟨?_, ?_⟩, fun hops => least_of_selectHops hdotted, fun gateways' hperm hips => ?_⟩
  · rintro ⟨hops, hok⟩
    exact ⟨hops, (least_of_selectHops hdotted hok).admissible⟩
  · rintro ⟨hops, hadm⟩
    exact exists_selectHops hdotted hadm
  · rw [selectHops, selectHops, sortHops_eq_of_perm hperm hips]

/-- The least loaded entry has no exit in another country on another subnet, so
the next one is taken. -/
theorem selectHops_exact_backtrack :
    let opts : SelectHopsOptions := ⟨none, none, none, none, true⟩
    let gateways : List (GatewayInfo Unit) :=
      [⟨"10.0.0.1", "DE", 0, ()⟩, ⟨"10.0.0.2", "FR", 1 / 4, ()⟩, ⟨"10.0.1.3", "DE", 1 / 2, ()⟩]
    selectHops asciiUnicode .crossJurisdiction opts gateways =
      .ok ⟨⟨"10.0.0.2", "FR", 1 / 4, ()⟩, some ⟨"10.0.1.3", "DE", 1 / 2, ()⟩⟩ ∧
    Least gateways .crossJurisdiction opts
      ⟨⟨"10.0.0.2", "FR", 1 / 4, ()⟩, some ⟨"10.0.1.3", "DE", 1 / 2, ()⟩⟩ := by
  intro opts gateways
  have hsorted : sortHops gateways = gateways := List.mergeSort_of_pairwise (by decide +kernel)
  have hrun : selectHops asciiUnicode .crossJurisdiction opts gateways =
      .ok ⟨⟨"10.0.0.2", "FR", 1 / 4, ()⟩, some ⟨"10.0.1.3", "DE", 1 / 2, ()⟩⟩ := by
    rw [selectHops, hsorted]
    decide +kernel
  have hdotted : ∀ g ∈ gateways, Dotted g := by decide +kernel
  exact ⟨hrun, (selectHops_exact asciiUnicode .crossJurisdiction opts hdotted).2.1 _ hrun⟩

end CumulusVpn.Client
