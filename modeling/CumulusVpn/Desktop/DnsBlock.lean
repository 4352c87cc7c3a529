/-
The firewall rules for DNS on Windows (`mod windows` of
`clients/desktop/src-tauri/tunnel/src/dns.rs`).

* `pushGaps`, `complementRanges`: the addresses that are not excluded;
* `dnsBlockRules`: the rules, as records of what their statements name;
* `Rule.Blocks`, `Unblocked`: what the rules let out;
* `pushGaps_spec`: the gaps are what is not in the list;
* `spans_complementRanges`: a family's ranges are the addresses that are not excluded;
* `blocked_iff`: **what the rules block**, for any packet;
* `dns_filter_exact`: **the ranges are exact, and DNS goes out only to the
  endpoints, and to the resolvers from the tunnel's address**.
-/
import Mathlib.Data.List.Sort
import Mathlib.Tactic.Tauto
import CumulusVpn.Desktop.Net
import CumulusVpn.Lib.Interval

namespace CumulusVpn.Desktop.Dns.Windows

open Net Intervals
open Split (Family)

/-! ### Ranges -/

/-- The greatest address of a family. -/
def maxOf (f : Family) : Nat := 2 ^ f.bits - 1

/-- `u128::checked_add(1)`. -/
def checkedSucc (n : Nat) : Option Nat := if n + 1 < 2 ^ 128 then some (n + 1) else none

/-- The gaps of a sorted list from `next` on, the first value that is not yet
covered. -/
def pushGaps (max : Nat) : Option Nat → List Nat → List Interval
  | none, _ => []
  | some start, [] => [⟨start, max⟩]
  | some start, x :: sorted =>
      let gaps := pushGaps max ((checkedSucc x).filter fun n => n ≤ max) sorted
      if start < x then ⟨start, x - 1⟩ :: gaps else gaps

/-- `Vec::dedup`: removes consecutive repetitions. -/
def dedup : List Nat → List Nat
  | [] => []
  | [x] => [x]
  | x :: y :: l => if x = y then dedup (y :: l) else x :: dedup (y :: l)

/-- The addresses of one family, in order. -/
def sortedOf (excluded : List IpAddr) (f : Family) : List Nat :=
  dedup (((excluded.filter fun ip => ip.family = f).map IpAddr.value).insertionSort (· ≤ ·))

/-- The ranges of one family. -/
def rangesOf (excluded : List IpAddr) (f : Family) : List Interval :=
  pushGaps (maxOf f) (some 0) (sortedOf excluded f)

/-- A range of addresses of a family. -/
structure Range where
  family : Family
  span : Interval
deriving DecidableEq, Repr

/-- Every address that is not excluded, IPv4 then IPv6. -/
def complementRanges (excluded : List IpAddr) : List Range :=
  (rangesOf excluded .v4).map (⟨.v4, ·⟩) ++ (rangesOf excluded .v6).map (⟨.v6, ·⟩)

/-- The ranges of a family among others. -/
def spans (ranges : List Range) (f : Family) : List Interval :=
  (ranges.filter fun r => r.family = f).map Range.span

/-! ### Rules -/

/-- A rule that blocks outbound DNS, on ports 53 and 853. -/
structure Rule where
  /-- in the name of the rule -/
  what : String
  proto : Proto
  localAddress : Option (List Range)
  remoteAddress : List Range
deriving DecidableEq, Repr

/-- DNS to every address but the resolvers and the endpoints, and DNS from every local
address but that of the tunnel. -/
def dnsBlockRules (resolvers : List IpAddr) (tunnelAddress : Option IpAddr)
    (endpoints : List IpAddr) : List Rule :=
  let otherServers := complementRanges (resolvers ++ endpoints)
  let notEndpoint := complementRanges endpoints
  [Proto.udp, .tcp].map (fun proto => ⟨"DNS to other servers", proto, none, otherServers⟩) ++
    match tunnelAddress with
    | none => []
    | some tunnel =>
        let notTunnel := complementRanges [tunnel]
        [Proto.udp, .tcp].map fun proto =>
          ⟨"DNS outside the tunnel", proto, some notTunnel, notEndpoint⟩

/-! ### What the rules let out -/

/-- DNS over one of the protocols. -/
def DnsOver (proto : Proto) (p : Packet) : Prop :=
  ∃ port, p.transport = some (proto, port) ∧ (port = 53 ∨ port = 853)

/-- The address is in one of the ranges. -/
def InRanges (ranges : List Range) (ip : IpAddr) : Prop :=
  ∃ r ∈ ranges, r.family = ip.family ∧ ip.value ∈ r.span

/-- The rule blocks the packet. -/
def Rule.Blocks (r : Rule) (p : Packet) : Prop :=
  DnsOver r.proto p ∧ InRanges r.remoteAddress p.remote ∧
    ∀ ranges ∈ r.localAddress, InRanges ranges p.local_

/-- No rule blocks the packet. -/
def Unblocked (rules : List Rule) (p : Packet) : Prop := ∀ r ∈ rules, ¬ r.Blocks p

/-! ### The gaps -/

lemma checkedSucc_filter {x max : Nat} (hmax : max < 2 ^ 128) :
    (checkedSucc x).filter (fun n => n ≤ max) = if x + 1 ≤ max then some (x + 1) else none := by
  rw [checkedSucc]
  split
  · rw [Option.filter_some]
    simp
  · rw [Option.filter_none, if_neg (by omega)]

/-- **The gaps are what is not in the list.** -/
lemma pushGaps_spec {max : Nat} (hmax : max < 2 ^ 128) : ∀ {sorted : List Nat} {start : Nat},
    start ≤ max → sorted.Pairwise (· < ·) → (∀ x ∈ sorted, start ≤ x ∧ x ≤ max) →
      Separated (pushGaps max (some start) sorted) ∧
        ∀ a, Covers (pushGaps max (some start) sorted) a ↔
          start ≤ a ∧ a ≤ max ∧ a ∉ sorted
  | [], start, hstart, _, _ => by
      refine ⟨.singleton hstart, fun a => ?_⟩
      simp [pushGaps, mem_iff]
  | x :: sorted, start, hstart, hsorted, hin => by
      obtain ⟨hhead, htail⟩ := List.pairwise_cons.mp hsorted
      obtain ⟨hlow, hhigh⟩ := hin x (List.mem_cons_self ..)
      have hrest : Separated (pushGaps max (if x + 1 ≤ max then some (x + 1) else none) sorted) ∧
          ∀ a, Covers (pushGaps max (if x + 1 ≤ max then some (x + 1) else none) sorted) a ↔
            x + 1 ≤ a ∧ a ≤ max ∧ a ∉ sorted := by
        split
        · rename_i hnext
          exact pushGaps_spec hmax hnext htail fun y hy =>
            ⟨hhead y hy, (hin y (List.mem_cons_of_mem _ hy)).2⟩
        · have hnone : pushGaps max none sorted = [] := by rw [pushGaps]
          rw [hnone]
          refine ⟨.nil, fun a => ?_⟩
          simp only [covers_nil, false_iff]
          omega
      obtain ⟨hsep, hcovers⟩ := hrest
      have hout : ∀ a, a ∈ sorted → x + 1 ≤ a := hhead
      rw [pushGaps, checkedSucc_filter hmax]
      split
      · rename_i hgap
        refine ⟨Separated.cons_iff.mpr ⟨Nat.le_sub_one_of_lt hgap, fun y hy => ?_, hsep⟩,
          fun a => ?_⟩
        · have hstart' := ((hcovers y.start).mp ⟨y, hy, le_rfl, hsep.nonempty y hy⟩).1
          show x - 1 + 1 < y.start
          omega
        · rw [covers_cons, hcovers, mem_iff, List.mem_cons, not_or]
          have hbelow : a ∈ sorted → x + 1 ≤ a := hhead a
          constructor
          · rintro (⟨hge, hle⟩ | ⟨hge, hle, hnot⟩)
            · simp only at hge hle
              exact ⟨hge, by omega, by omega, fun h => by have := hbelow h; omega⟩
            · exact ⟨by omega, hle, by omega, hnot⟩
          · rintro ⟨hge, hle, hne, hnot⟩
            by_cases hlt : a < x
            · exact Or.inl ⟨hge, by simp only; omega⟩
            · exact Or.inr ⟨by omega, hle, hnot⟩
      · rename_i hgap
        refine ⟨hsep, fun a => ?_⟩
        have hx : x = start := by omega
        rw [hcovers, List.mem_cons, not_or, hx]
        constructor
        · rintro ⟨hge, hle, hnot⟩
          exact ⟨by omega, hle, by omega, hnot⟩
        · rintro ⟨hge, hle, hne, hnot⟩
          exact ⟨by omega, hle, hnot⟩

/-! ### The ranges of a family -/

lemma mem_dedup : ∀ {l : List Nat} {a : Nat}, a ∈ dedup l ↔ a ∈ l
  | [], a => Iff.rfl
  | [x], a => Iff.rfl
  | x :: y :: l, a => by
      rw [dedup]
      split
      · rename_i heq
        rw [mem_dedup, heq, List.mem_cons (b := y) (l := y :: l), List.mem_cons, or_self_left]
      · rw [List.mem_cons, mem_dedup, List.mem_cons (b := x)]

lemma pairwise_dedup : ∀ {l : List Nat}, l.Pairwise (· ≤ ·) → (dedup l).Pairwise (· < ·)
  | [], _ => List.Pairwise.nil
  | [x], _ => List.pairwise_singleton _ _
  | x :: y :: l, h => by
      obtain ⟨hhead, htail⟩ := List.pairwise_cons.mp h
      rw [dedup]
      split
      · exact pairwise_dedup htail
      · rename_i hne
        refine List.pairwise_cons.mpr ⟨fun a ha => ?_, pairwise_dedup htail⟩
        have hlt : x < y := lt_of_le_of_ne (hhead y (List.mem_cons_self ..)) hne
        obtain rfl | ha := List.mem_cons.mp (mem_dedup.mp ha)
        · exact hlt
        · exact hlt.trans_le ((List.pairwise_cons.mp htail).1 a ha)

lemma mem_sortedOf {excluded : List IpAddr} {f : Family} {a : Nat} :
    a ∈ sortedOf excluded f ↔ ∃ ip ∈ excluded, ip.family = f ∧ ip.value = a := by
  rw [sortedOf, mem_dedup, List.mem_insertionSort, List.mem_map]
  simp [and_assoc]

/-- **The ranges of a family are its addresses that are not excluded.** -/
lemma rangesOf_spec (excluded : List IpAddr) (f : Family) :
    Separated (rangesOf excluded f) ∧
      ∀ a, Covers (rangesOf excluded f) a ↔
        a < 2 ^ f.bits ∧ ∀ ip ∈ excluded, ip.family = f → ip.value ≠ a := by
  have hmax : maxOf f + 1 = 2 ^ f.bits := by cases f <;> rfl
  have hbits : maxOf f < 2 ^ 128 := by cases f <;> decide
  have hsorted : (sortedOf excluded f).Pairwise (· < ·) :=
    pairwise_dedup (List.pairwise_insertionSort (· ≤ ·) _)
  obtain ⟨hsep, hcovers⟩ := pushGaps_spec hbits (Nat.zero_le _) hsorted fun x hx => by
    obtain ⟨ip, -, rfl, rfl⟩ := mem_sortedOf.mp hx
    have hlt := ip.lt
    exact ⟨Nat.zero_le _, by omega⟩
  refine ⟨hsep, fun a => ?_⟩
  rw [rangesOf, hcovers, mem_sortedOf]
  constructor
  · rintro ⟨-, hle, hnot⟩
    exact ⟨by omega, fun ip hip hfamily hvalue => hnot ⟨ip, hip, hfamily, hvalue⟩⟩
  · rintro ⟨hlt, hnot⟩
    refine ⟨Nat.zero_le _, by omega, ?_⟩
    rintro ⟨ip, hip, hfamily, hvalue⟩
    exact hnot ip hip hfamily hvalue

lemma spans_map (f f' : Family) (ivs : List Interval) :
    spans (ivs.map (⟨f', ·⟩)) f = if f' = f then ivs else [] := by
  rw [spans]
  by_cases hf : f' = f
  · rw [if_pos hf, List.filter_eq_self.mpr (by simp [hf]), List.map_map]
    exact List.map_id ivs
  · rw [if_neg hf, List.filter_eq_nil_iff.mpr (by simp [hf]), List.map_nil]

lemma spans_complementRanges (excluded : List IpAddr) (f : Family) :
    spans (complementRanges excluded) f = rangesOf excluded f := by
  have happend : spans (complementRanges excluded) f =
      spans ((rangesOf excluded .v4).map (⟨.v4, ·⟩)) f ++
        spans ((rangesOf excluded .v6).map (⟨.v6, ·⟩)) f := by
    rw [complementRanges, spans, List.filter_append, List.map_append, spans, spans]
  rw [happend, spans_map, spans_map]
  cases f <;> simp

/-- An address is in the ranges just where it is not excluded. -/
lemma inRanges_complementRanges {excluded : List IpAddr} {ip : IpAddr} :
    InRanges (complementRanges excluded) ip ↔ ip ∉ excluded := by
  have hfamily : InRanges (complementRanges excluded) ip ↔
      Covers (rangesOf excluded ip.family) ip.value := by
    rw [InRanges, complementRanges, Covers]
    constructor
    · rintro ⟨r, hr, hfamily, hmem⟩
      obtain hr | hr := List.mem_append.mp hr
      · obtain ⟨iv, hiv, rfl⟩ := List.mem_map.mp hr
        exact ⟨iv, by rwa [← hfamily], hmem⟩
      · obtain ⟨iv, hiv, rfl⟩ := List.mem_map.mp hr
        exact ⟨iv, by rwa [← hfamily], hmem⟩
    · rintro ⟨iv, hiv, hmem⟩
      refine ⟨⟨ip.family, iv⟩, ?_, rfl, hmem⟩
      cases hf : ip.family with
      | v4 =>
          rw [hf] at hiv
          exact List.mem_append_left _ (List.mem_map_of_mem hiv)
      | v6 =>
          rw [hf] at hiv
          exact List.mem_append_right _ (List.mem_map_of_mem hiv)
  rw [hfamily, (rangesOf_spec excluded ip.family).2]
  constructor
  · rintro ⟨-, hnot⟩ hin
    exact hnot ip hin rfl rfl
  · intro hnot
    refine ⟨ip.lt, fun ip' hin hfamily' hvalue => hnot ?_⟩
    rwa [← IpAddr.ext_value hfamily' hvalue]

/-! ### The filter -/

section Filter

variable {resolvers endpoints : List IpAddr} {tunnelAddress : Option IpAddr} {p : Packet}

/-- What a rule of the first kind blocks. -/
lemma blocks_otherServers {what : String} {proto : Proto} :
    Rule.Blocks ⟨what, proto, none, complementRanges (resolvers ++ endpoints)⟩ p ↔
      DnsOver proto p ∧ p.remote ∉ resolvers ∧ p.remote ∉ endpoints := by
  simp [Rule.Blocks, inRanges_complementRanges]

/-- What a rule of the second kind blocks. -/
lemma blocks_outsideTunnel {what : String} {proto : Proto} {tunnel : IpAddr} :
    Rule.Blocks ⟨what, proto, some (complementRanges [tunnel]), complementRanges endpoints⟩ p ↔
      DnsOver proto p ∧ p.remote ∉ endpoints ∧ p.local_ ≠ tunnel := by
  simp [Rule.Blocks, inRanges_complementRanges]

/-- DNS is over one of the two protocols. -/
lemma isDns_iff_exists : p.IsDns ↔ ∃ proto ∈ [Proto.udp, .tcp], DnsOver proto p := by
  have hboth : ∀ proto, proto ∈ [Proto.udp, .tcp] := fun proto => by cases proto <;> simp
  rw [Packet.IsDns]
  constructor
  · rintro ⟨⟨proto, port⟩, htransport, hport⟩
    exact ⟨proto, hboth proto, port, htransport, hport⟩
  · rintro ⟨proto, -, port, htransport, hport⟩
    exact ⟨(proto, port), htransport, hport⟩

/-- A pair of rules for the two protocols blocks the DNS that both of them mean. -/
lemma exists_pair_iff {rule : Proto → Rule} {P : Prop}
    (hrule : ∀ proto, (rule proto).Blocks p ↔ DnsOver proto p ∧ P) :
    (∃ r ∈ [Proto.udp, .tcp].map rule, r.Blocks p) ↔ p.IsDns ∧ P := by
  rw [isDns_iff_exists]
  constructor
  · rintro ⟨r, hr, hblocks⟩
    obtain ⟨proto, hmem, rfl⟩ := List.mem_map.mp hr
    obtain ⟨hover, hP⟩ := (hrule proto).mp hblocks
    exact ⟨⟨proto, hmem, hover⟩, hP⟩
  · rintro ⟨⟨proto, hmem, hover⟩, hP⟩
    exact ⟨rule proto, List.mem_map_of_mem hmem, (hrule proto).mpr ⟨hover, hP⟩⟩

/-- **DNS is blocked** unless it goes to an endpoint, or to a resolver from the
address of the tunnel, where that is known; nothing else is blocked. -/
lemma blocked_iff :
    (∃ r ∈ dnsBlockRules resolvers tunnelAddress endpoints, r.Blocks p) ↔
      p.IsDns ∧ p.remote ∉ endpoints ∧
        (p.remote ∉ resolvers ∨ ∃ tunnel ∈ tunnelAddress, p.local_ ≠ tunnel) := by
  have hservers : (∃ r ∈ [Proto.udp, .tcp].map (fun proto => (⟨"DNS to other servers", proto, none,
      complementRanges (resolvers ++ endpoints)⟩ : Rule)), r.Blocks p) ↔
        p.IsDns ∧ p.remote ∉ resolvers ∧ p.remote ∉ endpoints :=
    exists_pair_iff fun _ => blocks_otherServers
  rw [dnsBlockRules.eq_def]
  simp only [List.mem_append, or_and_right, exists_or]
  rw [hservers]
  cases tunnelAddress with
  | none =>
      simp
      tauto
  | some tunnel =>
      have htunnel : (∃ r ∈ [Proto.udp, .tcp].map (fun proto => (⟨"DNS outside the tunnel", proto,
          some (complementRanges [tunnel]), complementRanges endpoints⟩ : Rule)), r.Blocks p) ↔
            p.IsDns ∧ p.remote ∉ endpoints ∧ p.local_ ≠ tunnel :=
        exists_pair_iff fun _ => blocks_outsideTunnel
      rw [htunnel]
      simp only [Option.mem_some_iff, exists_eq_left']
      tauto

/-- **DNS goes out to the endpoints, and to the resolvers from the address of
the tunnel, where it is known.** -/
lemma unblocked_iff (hdns : p.IsDns) :
    Unblocked (dnsBlockRules resolvers tunnelAddress endpoints) p ↔
      p.remote ∈ endpoints ∨ (p.remote ∈ resolvers ∧ ∀ tunnel ∈ tunnelAddress,
        p.local_ = tunnel) := by
  have hblocked := @blocked_iff resolvers endpoints tunnelAddress p
  rw [and_iff_right hdns] at hblocked
  rw [Unblocked, ← not_iff_not]
  simp only [not_forall, not_not, exists_prop]
  rw [hblocked, not_or, not_and_or]
  simp only [not_forall, exists_prop, ne_eq]

end Filter

/-- **The ranges of each family are disjoint, in order, and all that is not
excluded; and a DNS packet is blocked unless it goes to an endpoint, or to a
resolver from the address of the tunnel, where that is known.** -/
theorem dns_filter_exact :
    (∀ excluded f, Separated (spans (complementRanges excluded) f) ∧
      ∀ a, Covers (spans (complementRanges excluded) f) a ↔
        a < 2 ^ f.bits ∧ ∀ ip ∈ excluded, ip.family = f → ip.value ≠ a) ∧
    ∀ resolvers tunnelAddress endpoints (p : Packet), p.IsDns →
      (Unblocked (dnsBlockRules resolvers tunnelAddress endpoints) p ↔
        p.remote ∈ endpoints ∨ (p.remote ∈ resolvers ∧ ∀ tunnel ∈ tunnelAddress,
          p.local_ = tunnel)) := by
  refine ⟨fun excluded f => ?_, fun _ _ _ _ => unblocked_iff⟩
  rw [spans_complementRanges]
  exact rangesOf_spec excluded f

/-- `1.0.0.1` among the edges of IPv4. -/
example : pushGaps (maxOf .v4) (some 0) [0, 0x1000001, 0xffffffff] =
    [⟨1, 0x1000000⟩, ⟨0x1000002, 0xfffffffe⟩] := by decide

end CumulusVpn.Desktop.Dns.Windows
