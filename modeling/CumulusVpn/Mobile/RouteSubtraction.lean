/-
The route subtraction of the Android services is exact
(`CumulusMultihopVpnService.kt`).

* `Route.Canonical`: an IPv4 network whose host bits are zero;
* `ipToLong_lt`: a dotted quad is an address;
* `pairwise_siblings`: the siblings of a host hold different addresses;
* `route_subtraction`: **the routes and the resolvers, without the host**, as
  aligned prefixes that are disjoint where the routes are.
-/
import CumulusVpn.Mobile.Routes

namespace CumulusVpn.Mobile

open CumulusVpn.Split

namespace Route

/-- An IPv4 network with its host bits zeroed. -/
structure Canonical (r : Route) : Prop extends r.Wellformed where
  aligned : 2 ^ (32 - r.pfx) ∣ r.net

/-- No address is held by both. -/
def Disjoint (r r' : Route) : Prop := ∀ a, ¬ (r.Holds 32 a ∧ r'.Holds 32 a)

end Route

namespace Android

/-! ### Addresses -/

/-- The next octet of a quad. -/
lemma shiftLeft_octet_lt {a o n : Nat} (ha : a < 2 ^ n) (ho : o ≤ 255) :
    a <<< 8 ||| o < 2 ^ (n + 8) := by
  have hhigh : a <<< 8 < 2 ^ (n + 8) := by
    rw [Nat.shiftLeft_eq, pow_add]
    exact Nat.mul_lt_mul_of_pos_right ha (by decide)
  have hlow : o < 2 ^ (n + 8) :=
    calc o < 2 ^ 8 := by omega
      _ ≤ 2 ^ (n + 8) := Nat.pow_le_pow_right (by decide) (Nat.le_add_left 8 n)
  exact Nat.or_lt_two_pow hhigh hlow

lemma foldl_octets_lt {os : List (List Char)} (hos : ∀ o ∈ os, decimalValue o ≤ 255) {a n : Nat}
    (ha : a < 2 ^ n) :
    os.foldl (fun acc o => acc <<< 8 ||| decimalValue o) a < 2 ^ (n + 8 * os.length) := by
  induction os generalizing a n with
  | nil => exact ha
  | cons o os ih =>
      have hrest := ih (fun o ho => hos o (List.mem_cons_of_mem _ ho))
        (shiftLeft_octet_lt ha (hos o List.mem_cons_self))
      rw [List.foldl_cons, List.length_cons, Nat.mul_succ, Nat.add_comm (8 * os.length),
        ← Nat.add_assoc]
      exact hrest

/-- A dotted quad is an IPv4 address. -/
lemma ipToLong_lt {s : List Char} (h : isIpv4 s = true) : ipToLong s < 2 ^ 32 := by
  rw [isIpv4, Bool.and_eq_true, decide_eq_true_eq] at h
  obtain ⟨hlength, hoctets⟩ := h
  have hlt : ipToLong s < 2 ^ (0 + 8 * (s.splitOn '.').length) := by
    refine foldl_octets_lt (fun o ho => ?_) (by decide)
    have hoctet := List.all_eq_true.mp hoctets o ho
    simp only [Bool.and_eq_true, decide_eq_true_eq] at hoctet
    exact hoctet.2
  rwa [hlength] at hlt

/-! ### Aligned prefixes -/

lemma canonical_host {ip : Nat} (hip : ip < 2 ^ 32) : Route.Canonical ⟨ip, 32⟩ :=
  ⟨⟨hip, le_rfl⟩, one_dvd ip⟩

lemma canonical_sibling {ip pfx : Nat} (hip : ip < 2 ^ 32) (hpfx : 0 < pfx) (hle : pfx ≤ 32) :
    (sibling ip pfx).Canonical := by
  have hxor : ip ^^^ 1 <<< (32 - pfx) < 2 ^ 32 := by
    refine Nat.xor_lt_two_pow hip ?_
    rw [Nat.one_shiftLeft]
    exact Nat.pow_lt_pow_right (by decide) (by omega)
  have hnet : (sibling ip pfx).net =
      (ip ^^^ 1 <<< (32 - pfx)) / 2 ^ (32 - pfx) * 2 ^ (32 - pfx) := and_mask hxor (by omega)
  refine ⟨⟨?_, hle⟩, ?_⟩
  · rw [hnet]
    exact (Nat.div_mul_le_self _ _).trans_lt hxor
  · rw [hnet]
    exact Nat.dvd_mul_left _ _

lemma mem_siblings {ip pfx : Nat} {r : Route} :
    r ∈ siblings ip pfx ↔ ∃ p, pfx < p ∧ p ≤ 32 ∧ sibling ip p = r := by
  rw [siblings, List.mem_map]
  refine exists_congr fun p => ?_
  rw [List.mem_range'_1, and_assoc]
  constructor
  · rintro ⟨hlo, hhi, rfl⟩
    exact ⟨by omega, by omega, rfl⟩
  · rintro ⟨hlo, hhi, rfl⟩
    exact ⟨by omega, by omega, rfl⟩

lemma canonical_siblings {ip pfx : Nat} (hip : ip < 2 ^ 32) :
    ∀ r ∈ siblings ip pfx, r.Canonical := by
  intro r hr
  obtain ⟨p, hlo, hhi, rfl⟩ := mem_siblings.mp hr
  exact canonical_sibling hip (by omega) hhi

/-! ### Disjoint routes -/

/-- The siblings of a host hold different addresses. -/
lemma pairwise_siblings {ip pfx : Nat} (hip : ip < 2 ^ 32) (hle : pfx ≤ 32) :
    (siblings ip pfx).Pairwise Route.Disjoint := by
  obtain ⟨n, hn⟩ : ∃ n, pfx = 32 - n ∧ n ≤ 32 := ⟨32 - pfx, by omega, by omega⟩
  obtain ⟨rfl, hn⟩ := hn
  induction n with
  | zero => exact List.Pairwise.nil
  | succ n ih =>
      have hlt : 32 - (n + 1) < 32 := by omega
      have hnext : 32 - (n + 1) + 1 = 32 - n := by omega
      rw [siblings_succ hlt, hnext, List.pairwise_cons]
      refine ⟨fun r hr a ha => ?_, ih (by omega) (by omega)⟩
      -- the later siblings hold addresses that agree with the host in this bit
      have hsib := (sibling_holds hip (by omega) (by omega)).mp ha.1
      have hrest := (held_siblings hip (by omega)).mp ⟨r, hr, ha.2⟩
      exact hsib.1 hrest.1

section Subtract

variable {routes : List Route} {host : List Char}

/-- What is left of one route. -/
lemma subtractHost_eq_flatMap (routes : List Route) (host : List Char) :
    subtractHost routes host = routes.flatMap fun r => subtractHost [r] host := by
  rw [subtractHost]
  refine congrArg (fun f => routes.flatMap f) (funext fun r => ?_)
  rw [subtractHost, List.flatMap_singleton]

lemma canonical_subtractHost (hcanon : ∀ r ∈ routes, r.Canonical)
    (hhost : ipToLong host < 2 ^ 32) : ∀ r ∈ subtractHost routes host, r.Canonical := by
  intro r hr
  obtain ⟨r', hr', hmem⟩ := List.mem_flatMap.mp hr
  split at hmem
  · rw [List.mem_singleton.mp hmem]
    exact hcanon r' hr'
  · exact canonical_siblings hhost r hmem

lemma pairwise_subtractHost_singleton {r : Route} (hr : r.Wellformed)
    (hhost : ipToLong host < 2 ^ 32) : (subtractHost [r] host).Pairwise Route.Disjoint := by
  rw [subtractHost, List.flatMap_singleton]
  split
  · exact List.pairwise_singleton _ r
  · exact pairwise_siblings hhost hr.pfx

/-- What is left of a route is of the route. -/
lemma holds_of_mem_subtractHost {r x : Route} (hr : r.Wellformed) (hhost : ipToLong host < 2 ^ 32)
    (hx : x ∈ subtractHost [r] host) {a : Nat} (ha : x.Holds 32 a) : r.Holds 32 a := by
  have hwf : ∀ r' ∈ [r], r'.Wellformed := fun r' hr' => List.mem_singleton.mp hr' ▸ hr
  have hheld := ((held_subtractHost hwf hhost).mp ⟨x, hx, ha⟩).1
  rw [held_cons] at hheld
  exact hheld.resolve_right (held_nil 32 a)

lemma pairwise_subtractHost (hwf : ∀ r ∈ routes, r.Wellformed) (hhost : ipToLong host < 2 ^ 32)
    (h : routes.Pairwise Route.Disjoint) : (subtractHost routes host).Pairwise Route.Disjoint := by
  rw [subtractHost_eq_flatMap, List.pairwise_flatMap]
  refine ⟨fun r hr => pairwise_subtractHost_singleton (hwf r hr) hhost, ?_⟩
  refine h.imp_of_mem fun {r r'} hr hr' hdisjoint x hx x' hx' a ha => hdisjoint a ⟨?_, ?_⟩
  · exact holds_of_mem_subtractHost (hwf r hr) hhost hx ha.1
  · exact holds_of_mem_subtractHost (hwf r' hr') hhost hx' ha.2

end Subtract

section Resolvers

variable {servers : List (List Char)}

/-- The resolvers that are put in are hosts that no route holds so far. -/
lemma canonical_withDnsRoutes {routes : List Route} (hcanon : ∀ r ∈ routes, r.Canonical) :
    ∀ r ∈ withDnsRoutes routes servers, r.Canonical := by
  induction servers generalizing routes with
  | nil => exact hcanon
  | cons s servers ih =>
      rw [withDnsRoutes]
      split
      · exact ih hcanon
      · rename_i hv4
        split
        · exact ih hcanon
        · refine ih fun r hr => ?_
          rcases List.mem_append.mp hr with hr | hr
          · exact hcanon r hr
          · rw [List.mem_singleton.mp hr]
            exact canonical_host (ipToLong_lt (by simpa using hv4))

lemma pairwise_withDnsRoutes {routes : List Route} (hcanon : ∀ r ∈ routes, r.Canonical)
    (h : routes.Pairwise Route.Disjoint) :
    (withDnsRoutes routes servers).Pairwise Route.Disjoint := by
  induction servers generalizing routes with
  | nil => exact h
  | cons s servers ih =>
      rw [withDnsRoutes]
      split
      · exact ih hcanon h
      · rename_i hv4
        have hip : ipToLong s < 2 ^ 32 := ipToLong_lt (by simpa using hv4)
        split
        · exact ih hcanon h
        · rename_i hnew
          refine ih (fun r hr => ?_) (List.pairwise_append.mpr ⟨h, List.pairwise_singleton _ _, ?_⟩)
          · rcases List.mem_append.mp hr with hr | hr
            · exact hcanon r hr
            · rw [List.mem_singleton.mp hr]
              exact canonical_host hip
          · intro r hr r' hr' a ha
            rw [List.mem_singleton.mp hr'] at ha
            have hsame : a = ipToLong s := by
              have hhost := ha.2
              rw [Route.Holds] at hhost
              simpa using hhost
            refine hnew (List.any_eq_true.mpr ⟨r, hr, ?_⟩)
            exact (covers_iff (hcanon r hr).toWellformed hip).mpr (hsame ▸ ha.1)

end Resolvers

/-! ### The subtraction -/

lemma routesExcluding_eq (host : List Char) :
    routesExcluding host = subtractHost [⟨0, 0⟩] host := by
  have hall : ipToLong host &&& routeMask 0 = 0 &&& routeMask 0 := by
    rw [routeMask, if_pos (by decide), Nat.and_zero, Nat.and_zero]
  rw [subtractHost, List.flatMap_singleton, if_neg (not_not_intro hall), routesExcluding]

/-- **The route subtraction is exact**: the tun holds the addresses of the
routes and of the resolvers but for the host, in aligned prefixes, which are
disjoint where the routes are. -/
theorem route_subtraction {routes : List Route} (servers : List (List Char)) {host : List Char}
    (hcanon : ∀ r ∈ routes, r.Canonical) (hhost : isIpv4 host = true) :
    (∀ a < 2 ^ 32, (Held 32 (subtractHost (withDnsRoutes routes servers) host) a ↔
      (Held 32 routes a ∨ ∃ s ∈ servers, isIpv4 s = true ∧ ipToLong s = a) ∧ a ≠ ipToLong host)) ∧
    (∀ r ∈ subtractHost (withDnsRoutes routes servers) host, r.Canonical) ∧
    (routes.Pairwise Route.Disjoint →
      (subtractHost (withDnsRoutes routes servers) host).Pairwise Route.Disjoint) ∧
    routesExcluding host = subtractHost [⟨0, 0⟩] host := by
  have hip := ipToLong_lt hhost
  have hcanon' : ∀ r ∈ withDnsRoutes routes servers, r.Canonical :=
    canonical_withDnsRoutes hcanon
  refine ⟨fun a ha => ?_, canonical_subtractHost hcanon' hip, fun hdisjoint => ?_,
    routesExcluding_eq host⟩
  · have hheld := @held_withDnsRoutes routes servers (fun r hr => (hcanon r hr).toWellformed)
      fun s _ hs => ipToLong_lt hs
    rw [held_subtractHost hheld.1 hip, hheld.2 a ha]
  · exact pairwise_subtractHost (fun r hr => (hcanon' r hr).toWellformed) hip
      (pairwise_withDnsRoutes hcanon hdisjoint)

/-- `10.0.0.0/8` and the resolver `1.1.1.1`, without `10.0.0.1`. -/
theorem route_subtraction_ten :
    Held 32 (subtractHost (withDnsRoutes [⟨0x0a000000, 8⟩] ["1.1.1.1".toList])
      "10.0.0.1".toList) 0x01010101 ∧
    (subtractHost (withDnsRoutes [⟨0x0a000000, 8⟩] ["1.1.1.1".toList])
      "10.0.0.1".toList).Pairwise Route.Disjoint := by
  have hten : ∀ r ∈ [(⟨0x0a000000, 8⟩ : Route)], r.Canonical := by
    intro r hr
    rw [List.mem_singleton.mp hr]
    exact ⟨⟨by decide, by decide⟩, by decide⟩
  have hhost : isIpv4 "10.0.0.1".toList = true := by decide +kernel
  obtain ⟨hheld, -, hdisjoint, -⟩ :=
    route_subtraction ["1.1.1.1".toList] hten hhost
  refine ⟨(hheld _ (by decide)).mpr ⟨Or.inr ?_, by decide +kernel⟩, hdisjoint ?_⟩
  · exact ⟨_, List.mem_singleton_self _, by decide +kernel, by decide +kernel⟩
  · exact List.pairwise_singleton _ _

end Android

end CumulusVpn.Mobile
