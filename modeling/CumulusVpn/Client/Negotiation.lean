/-
Which transport a client dials (`clients/core-ts/src/transport.ts`).

A gateway advertises its transports; the user's mode, the build and the tier
say which of them may be dialled, and the mode in which order.

* `transportFallbackChain`, `requireTransport`: the transports to try, and the
  one to take;
* `Dialable`, `Best`: what the mode and the build allow, and the choice among it;
* `chain_exact`: **the chain is what may be dialled, type by type**;
* `requireTransport_exact`: **the best transport is taken, and each refusal says
  why there is none**;
* `host_kept_iff`: **which endpoints keep their host** when transports are
  applied to them, one after another.
-/
import CumulusVpn.Lib.SortedSearch
import CumulusVpn.Lib.Trim
import CumulusVpn.Split.CidrText
import Mathlib.Data.Rat.Defs

namespace CumulusVpn.Negotiation

open SortedSearch

/-! ### Transports -/

/-- What the user has paid for. -/
inductive Tier
  | free
  | premium
deriving DecidableEq, Repr

/-- What the user wants of a connection. -/
inductive TransportMode
  | auto
  | speed
  | stealth
deriving DecidableEq, Repr

/-- A transport as a gateway advertises it; its port is any JSON number. -/
structure Transport where
  type : String
  port : ℚ
  params : Option (List (String × String))
deriving DecidableEq, Repr

/-- `t.params?.[name]` -/
def Transport.param (t : Transport) (name : String) : Option String :=
  t.params.bind fun params => params.lookup name

/-- The port of plain WireGuard. -/
def wgPort : ℚ := 51820

/-- The types of each mode, the most preferred first. -/
def preference : TransportMode → List String
  | .speed => ["wg", "awg"]
  | .auto => ["wg", "awg", "wg-tls"]
  | .stealth => ["wg-tls", "awg"]

/-- A gateway that advertises nothing has plain WireGuard. -/
def advertisedOrLegacy (transports : Option (List Transport)) : List Transport :=
  (transports.filter (· ≠ [])).getD [⟨"wg", wgPort, none⟩]

/-- Only an integer that is a port number may be dialled. -/
def isValidPort (port : ℚ) : Bool := port.den = 1 ∧ 1 ≤ port ∧ port ≤ 65535

/-- What is advertised for paying users is left out for the others. -/
def tierAllows (t : Transport) (tier : Tier) : Bool :=
  t.param "tier" ≠ some "premium" ∨ tier = .premium

/-! ### The choice -/

/-- Why there is no transport. -/
inductive Refusal
  | premiumOnly
  | notStealthy
  | notCompatible
deriving DecidableEq, Repr

/-- What the user is told of a refusal. -/
def Refusal.message : Refusal → String
  | .premiumOnly =>
      "This location's DPI-resistant transport is Premium-only. Upgrade, or turn off Stealth " ++
        "mode in Settings."
  | .notStealthy =>
      "Stealth mode: this location offers no DPI-resistant transport. Pick another location, " ++
        "or turn off Stealth mode in Settings."
  | .notCompatible => "This location offers no transport compatible with the selected mode."

section Choice

variable (transports : Option (List Transport)) (mode : TransportMode) (implemented : List String)
  (tier : Tier)

/-- The tests of the chain. -/
def passes (t : Transport) : Bool :=
  implemented.contains t.type && (preference mode).contains t.type && isValidPort t.port &&
    tierAllows t tier

/-- The transports to try, the most preferred first; a stable sort keeps the order of
the gateway within a type. -/
def transportFallbackChain : List Transport :=
  ((advertisedOrLegacy transports).filter (passes mode implemented tier)).mergeSort
    fun a b => ((preference mode).idxOf a.type : Int) - (preference mode).idxOf b.type ≤ 0

/-- The transport to dial first. -/
def selectTransport : Option Transport :=
  (transportFallbackChain transports mode implemented tier).head?

/-- The transport to dial; a refusal tells a user who would find one as a paying user
from one who finds none at all. -/
def requireTransport : Except Refusal Transport :=
  match selectTransport transports mode implemented tier with
  | some t => .ok t
  | none =>
      if tier ≠ .premium ∧
          0 < (transportFallbackChain transports mode implemented .premium).length then
        .error .premiumOnly
      else if mode = .stealth then .error .notStealthy
      else .error .notCompatible

end Choice

/-! ### Endpoints -/

/-- `s.slice(0, s.lastIndexOf(c))` -/
def beforeLast (c : Char) (s : List Char) : List Char :=
  ((s.reverse.dropWhile (· ≠ c)).drop 1).reverse

/-- The host of an endpoint that is trimmed. -/
def hostOf (s : List Char) : List Char :=
  if s.head? = some '[' then
    if ']' ∈ s then s.take (s.idxOf ']' + 1) else s
  else if ':' ∈ s ∧ (s.splitOn ':').length = 2 then beforeLast ':' s
  else s

/-- The host of an endpoint, without the port behind it. -/
def stripEndpointPort (endpoint : List Char) : List Char := hostOf (Split.trim endpoint)

/-- The port as a template literal prints it, when it is an integer. -/
def portText (port : ℚ) : List Char := (toString port.num).toList

/-- The endpoint with the port of the transport. -/
def applyTransportToEndpoint (endpoint : List Char) (t : Transport) : List Char :=
  stripEndpointPort endpoint ++ ':' :: portText t.port

/-! ### What is chosen -/

/-- What the mode and the build allow, at any tier. -/
def Dialable (mode : TransportMode) (implemented : List String) (t : Transport) : Prop :=
  t.type ∈ implemented ∧ t.type ∈ preference mode ∧ isValidPort t.port

instance (mode : TransportMode) (implemented : List String) (t : Transport) :
    Decidable (Dialable mode implemented t) := inferInstanceAs (Decidable (_ ∧ _ ∧ _))

/-- Only paying users may dial it. -/
def Gated (t : Transport) : Prop := t.param "tier" = some "premium"

instance (t : Transport) : Decidable (Gated t) := inferInstanceAs (Decidable (_ = _))

/-- The first of the transports with a property that the mode prefers most. -/
def Best (mode : TransportMode) (P : Transport → Prop) (l : List Transport)
    (t : Transport) : Prop :=
  ∃ earlier later, l = earlier ++ t :: later ∧ P t ∧
    (∀ u ∈ earlier, P u → (preference mode).idxOf t.type < (preference mode).idxOf u.type) ∧
      ∀ u ∈ later, P u → (preference mode).idxOf t.type ≤ (preference mode).idxOf u.type

section Chosen

variable {transports : Option (List Transport)} {mode : TransportMode} {implemented : List String}
  {tier : Tier} {t : Transport}

/-- No mode prefers a type twice. -/
lemma preference_nodup (mode : TransportMode) : (preference mode).Nodup := by
  cases mode <;> decide

lemma tierAllows_iff : tierAllows t tier ↔ (Gated t → tier = .premium) := by
  rw [tierAllows, decide_eq_true_iff]
  exact imp_iff_not_or.symm

/-- The tests of the chain say what they are for. -/
lemma passes_iff : passes mode implemented tier t ↔
    Dialable mode implemented t ∧ (Gated t → tier = .premium) := by
  rw [passes, Bool.and_eq_true, Bool.and_eq_true, Bool.and_eq_true, List.contains_iff_mem,
    List.contains_iff_mem, tierAllows_iff, Dialable, and_assoc (a := t.type ∈ implemented)]

/-- The comparison of the sort goes by the ranks of the types. -/
lemma precedes_iff (a b : Transport) :
    decide (((preference mode).idxOf a.type : Int) - (preference mode).idxOf b.type ≤ 0) = true ↔
      (preference mode).idxOf a.type ≤ (preference mode).idxOf b.type := by
  rw [decide_eq_true_iff]
  omega

/-- **The chain is what may be dialled, type by type**, each time in the order in
which the gateway advertises it. -/
theorem chain_exact (transports : Option (List Transport)) (mode : TransportMode)
    (implemented : List String) (tier : Tier) :
    transportFallbackChain transports mode implemented tier =
      (preference mode).flatMap fun type => (advertisedOrLegacy transports).filter fun t =>
        (Dialable mode implemented t ∧ (Gated t → tier = .premium)) ∧ t.type = type := by
  rw [transportFallbackChain, mergeSort_idxOf (preference_nodup mode) precedes_iff
    fun t ht => (passes_iff.mp (List.mem_filter.mp ht).2).1.2.1]
  refine List.flatMap_congr fun type _ => ?_
  rw [List.filter_filter]
  refine List.filter_congr fun t _ => ?_
  rw [Bool.eq_iff_iff, Bool.and_eq_true, passes_iff, decide_eq_true_iff, decide_eq_true_iff,
    and_comm]

/-- What is tried is what is advertised and may be dialled. -/
lemma mem_chain : t ∈ transportFallbackChain transports mode implemented tier ↔
    t ∈ advertisedOrLegacy transports ∧ Dialable mode implemented t ∧
      (Gated t → tier = .premium) := by
  rw [transportFallbackChain, List.mem_mergeSort, List.mem_filter, passes_iff]

/-- Nothing is tried just when all that could be dialled is for paying users only. -/
lemma chain_eq_nil_iff : transportFallbackChain transports mode implemented tier = [] ↔
    ∀ t ∈ advertisedOrLegacy transports, Dialable mode implemented t →
      Gated t ∧ tier = .free := by
  rw [List.eq_nil_iff_forall_not_mem]
  refine forall_congr' fun t => ?_
  rw [mem_chain, not_and, not_and, Classical.not_imp]
  cases tier <;> simp

/-- The head of the sorted chain is the best of what may be dialled. -/
lemma selectTransport_iff : selectTransport transports mode implemented tier = some t ↔
    Best mode (fun t => Dialable mode implemented t ∧ (Gated t → tier = .premium))
      (advertisedOrLegacy transports) t := by
  rw [selectTransport, transportFallbackChain, head?_mergeSort_iff precedes_iff]
  constructor
  · rintro ⟨earlier, later, hsplit, hearlier, hlater⟩
    obtain ⟨l, rest, hl, rfl, hrest⟩ := List.filter_eq_append_iff.mp hsplit
    obtain ⟨skipped, l', rfl, hskipped, ht, rfl⟩ := List.filter_eq_cons_iff.mp hrest
    refine ⟨l ++ skipped, l', by rw [hl, List.append_assoc], passes_iff.mp ht,
      fun u hu hP => ?_, fun u hu hP => ?_⟩
    · cases List.mem_append.mp hu with
      | inl hu => exact hearlier u (List.mem_filter.mpr ⟨hu, passes_iff.mpr hP⟩)
      | inr hu => exact absurd (passes_iff.mpr hP) (hskipped u hu)
    · exact hlater u (List.mem_filter.mpr ⟨hu, passes_iff.mpr hP⟩)
  · rintro ⟨earlier, later, hsplit, ht, hearlier, hlater⟩
    refine ⟨_, _, by rw [hsplit, List.filter_append, List.filter_cons_of_pos (passes_iff.mpr ht)],
      fun u hu => ?_, fun u hu => ?_⟩
    · obtain ⟨hu, hP⟩ := List.mem_filter.mp hu
      exact hearlier u hu (passes_iff.mp hP)
    · obtain ⟨hu, hP⟩ := List.mem_filter.mp hu
      exact hlater u hu (passes_iff.mp hP)

/-- A paying user would find a transport just when one may be dialled at any tier. -/
lemma premiumChain_pos_iff :
    0 < (transportFallbackChain transports mode implemented .premium).length ↔
      ∃ t ∈ advertisedOrLegacy transports, Dialable mode implemented t := by
  rw [List.length_pos_iff_ne_nil, Ne, chain_eq_nil_iff, not_forall]
  refine exists_congr fun t => ?_
  rw [Classical.not_imp, Classical.not_imp]
  simp

/-- A transport that is selected is taken. -/
lemma requireTransport_of_some (h : selectTransport transports mode implemented tier = some t) :
    requireTransport transports mode implemented tier = .ok t := by
  rw [requireTransport, h]

/-- Without a transport the refusal depends on what a paying user would find, and on
the mode. -/
lemma requireTransport_of_none (h : selectTransport transports mode implemented tier = none) :
    requireTransport transports mode implemented tier =
      if tier = .free ∧ ∃ t ∈ advertisedOrLegacy transports, Dialable mode implemented t then
        .error .premiumOnly
      else if mode = .stealth then .error .notStealthy
      else .error .notCompatible := by
  have htier : tier ≠ .premium ↔ tier = .free := by cases tier <;> simp
  rw [requireTransport, h]
  simp only [premiumChain_pos_iff, htier]

/-- **The best transport is taken, and each refusal says why there is none**: that
only paying users may dial what there is, or that there is nothing. -/
theorem requireTransport_exact (transports : Option (List Transport)) (mode : TransportMode)
    (implemented : List String) (tier : Tier) :
    (∀ t, requireTransport transports mode implemented tier = .ok t ↔
      Best mode (fun t => Dialable mode implemented t ∧ (Gated t → tier = .premium))
        (advertisedOrLegacy transports) t) ∧
    (requireTransport transports mode implemented tier = .error .premiumOnly ↔
      (∃ t ∈ advertisedOrLegacy transports, Dialable mode implemented t) ∧ tier = .free ∧
        ∀ t ∈ advertisedOrLegacy transports, Dialable mode implemented t → Gated t) ∧
    (requireTransport transports mode implemented tier = .error .notStealthy ↔
      mode = .stealth ∧ ∀ t ∈ advertisedOrLegacy transports, ¬ Dialable mode implemented t) ∧
    (requireTransport transports mode implemented tier = .error .notCompatible ↔
      mode ≠ .stealth ∧ ∀ t ∈ advertisedOrLegacy transports, ¬ Dialable mode implemented t) := by
  cases hselect : selectTransport transports mode implemented tier with
  | some t =>
      have hrequire := requireTransport_of_some hselect
      obtain ⟨earlier, later, hsplit, ⟨ht, htier⟩, -⟩ := selectTransport_iff.mp hselect
      have hmem : t ∈ advertisedOrLegacy transports := by simp [hsplit]
      refine ⟨fun u => ?_, ?_, ?_, ?_⟩
      · rw [hrequire, ← selectTransport_iff, hselect, Except.ok.injEq, Option.some_inj]
      · refine iff_of_false (by simp [hrequire]) ?_
        rintro ⟨-, rfl, hgated⟩
        cases htier (hgated t hmem ht)
      · exact iff_of_false (by simp [hrequire]) fun h => h.2 t hmem ht
      · exact iff_of_false (by simp [hrequire]) fun h => h.2 t hmem ht
  | none =>
      have hrequire := requireTransport_of_none hselect
      rw [selectTransport, List.head?_eq_none_iff, chain_eq_nil_iff] at hselect
      refine ⟨fun u => iff_of_false ?_ ?_, ?_⟩
      · rw [hrequire]
        split_ifs <;> simp
      · rintro ⟨earlier, later, hsplit, ⟨hu, htier⟩, -⟩
        obtain ⟨hgated, rfl⟩ := hselect u (by simp [hsplit]) hu
        cases htier hgated
      by_cases hexists : ∃ t ∈ advertisedOrLegacy transports, Dialable mode implemented t
      · obtain ⟨t, hmem, ht⟩ := hexists
        have hfree := (hselect t hmem ht).2
        rw [hrequire, if_pos ⟨hfree, t, hmem, ht⟩]
        exact ⟨iff_of_true rfl ⟨⟨t, hmem, ht⟩, hfree, fun u hu hd => (hselect u hu hd).1⟩,
          iff_of_false (by simp) fun h => h.2 t hmem ht,
          iff_of_false (by simp) fun h => h.2 t hmem ht⟩
      · have hnothing : ∀ t ∈ advertisedOrLegacy transports, ¬ Dialable mode implemented t :=
          fun t hmem ht => hexists ⟨t, hmem, ht⟩
        rw [hrequire, if_neg fun h => hexists h.2]
        by_cases hmode : mode = .stealth
        · rw [if_pos hmode]
          exact ⟨iff_of_false (by simp) fun h => hexists h.1, iff_of_true rfl ⟨hmode, hnothing⟩,
            iff_of_false (by simp) fun h => h.1 hmode⟩
        · rw [if_neg hmode]
          exact ⟨iff_of_false (by simp) fun h => hexists h.1,
            iff_of_false (by simp) fun h => hmode h.1, iff_of_true rfl ⟨hmode, hnothing⟩⟩

end Chosen

/-! ### Hosts -/

/-- A host in brackets, or one without more than the colon before its port. -/
def Hosted (endpoint : List Char) : Prop :=
  (Split.trim endpoint).head? = some '[' ∧ ']' ∈ Split.trim endpoint ∨
    (Split.trim endpoint).head? ≠ some '[' ∧ (Split.trim endpoint).count ':' ≤ 1

instance (endpoint : List Char) : Decidable (Hosted endpoint) :=
  inferInstanceAs (Decidable (_ ∨ _))

section Hosts

variable {s h d : List Char}

/-- A text has one more part than it has separators. -/
lemma length_splitOn (c : Char) (s : List Char) : (s.splitOn c).length = s.count c + 1 := by
  induction s with
  | nil => rfl
  | cons x s ih =>
      rw [List.splitOn_cons_eq_if_modifyHead]
      by_cases hx : x = c
      · rw [if_pos (by simpa using hx), hx, List.count_cons_self, List.length_cons, ih]
      · rw [if_neg (by simpa using hx), List.length_modifyHead, ih,
          List.count_cons_of_ne hx]

/-- What stands before the last separator is found from behind. -/
lemma beforeLast_append {c : Char} {a b : List Char} (hb : c ∉ b) :
    beforeLast c (a ++ c :: b) = a := by
  have hall : ∀ x ∈ b.reverse, decide (x ≠ c) = true := fun x hx =>
    decide_eq_true fun heq => hb (heq ▸ List.mem_reverse.mp hx)
  rw [beforeLast, List.reverse_append, List.reverse_cons, List.append_assoc,
    List.dropWhile_append_of_pos hall, List.singleton_append,
    List.dropWhile_cons_of_neg (by simp), List.drop_one, List.tail_cons, List.reverse_reverse]

/-- With a single colon the host is what stands before it. -/
lemma hostOf_colon {a b : List Char} (hhead : (a ++ ':' :: b).head? ≠ some '[') (ha : ':' ∉ a)
    (hb : ':' ∉ b) : hostOf (a ++ ':' :: b) = a := by
  have hcount : ((a ++ ':' :: b).splitOn ':').length = 2 := by
    rw [length_splitOn, List.count_append, List.count_cons_self, List.count_eq_zero_of_not_mem ha,
      List.count_eq_zero_of_not_mem hb]
  rw [hostOf, if_neg hhead, if_pos ⟨by simp, hcount⟩, beforeLast_append hb]

/-- With no colon, or with more than one, an endpoint without a bracket is all
host. -/
lemma hostOf_eq_self (hhead : s.head? ≠ some '[') (hcount : s.count ':' ≠ 1) : hostOf s = s := by
  rw [hostOf, if_neg hhead, if_neg]
  rintro ⟨-, hlength⟩
  rw [length_splitOn] at hlength
  omega

/-- The host in a closed bracket ends with the bracket. -/
lemma hostOf_bracket {a b : List Char} (hhead : a.head? = some '[') (ha : ']' ∉ a) :
    hostOf (a ++ ']' :: b) = a ++ [']'] := by
  have hne : a ≠ [] := by
    rintro rfl
    cases hhead
  have hindex : (a ++ ']' :: b).idxOf ']' = a.length := by
    rw [List.idxOf_append_of_notMem ha, List.idxOf_cons_self, Nat.add_zero]
  rw [hostOf, if_pos (by rw [List.head?_append_of_ne_nil _ hne, hhead]), if_pos (by simp), hindex,
    List.take_append, List.take_of_length_le (Nat.le_succ _)]
  simp

/-- The port of a transport that is dialled, as it is printed. -/
lemma exists_port {port : ℚ} (h : isValidPort port) :
    ∃ n : ℕ, port = n ∧ 1 ≤ n ∧ n ≤ 65535 ∧ portText port = Nat.toDigits 10 n := by
  obtain ⟨hden, hpos, hle⟩ := of_decide_eq_true h
  obtain ⟨n, hn⟩ := Int.eq_ofNat_of_zero_le (Rat.num_nonneg.mpr (zero_le_one.trans hpos))
  have hport : port = (n : ℚ) := by
    rw [← Rat.coe_int_num_of_den_eq_one hden, hn]
    rfl
  rw [hport] at hpos hle
  refine ⟨n, hport, by exact_mod_cast hpos, by exact_mod_cast hle, ?_⟩
  rw [portText, hn]
  exact Nat.toList_repr

/-- So no character of it ends a host. -/
lemma digits_portText {port : ℚ} (h : isValidPort port) :
    portText port ≠ [] ∧ ∀ c ∈ portText port, c ≠ ':' ∧ c ≠ ']' ∧ Split.isSpace c = false := by
  obtain ⟨n, -, -, -, htext⟩ := exists_port h
  rw [htext]
  refine ⟨Nat.toDigits_ne_nil, fun c hc => ?_⟩
  obtain ⟨hdigit, -, -, -, hspace⟩ := (Split.decimal_text n).2.2 c hc
  refine ⟨?_, ?_, hspace⟩ <;> rintro rfl <;> exact absurd hdigit (by decide)

/-- A host with a port behind it is trimmed already. -/
lemma trim_host (hhead : ∀ c ∈ h.head?, Split.isSpace c = false) (hne : d ≠ [])
    (hd : ∀ c ∈ d, Split.isSpace c = false) : Split.trim (h ++ ':' :: d) = h ++ ':' :: d := by
  refine Trim.trim_eq_self (fun c hc => ?_) fun c hc => ?_
  · cases h with
    | nil =>
        obtain rfl : ':' = c := Option.some_inj.mp hc
        decide
    | cons x h => exact hhead c hc
  · rw [List.getLast?_append_of_ne_nil _ (List.cons_ne_nil _ _),
      List.getLast?_cons_of_ne_nil hne] at hc
    exact hd c (List.mem_of_mem_getLast? hc)

/-- The host of a trimmed endpoint is found again behind its new port just when the
bracket is closed, or there is no second colon. -/
lemma hostOf_kept_iff (hs : ∀ c ∈ s.head?, Split.isSpace c = false) (hne : d ≠ [])
    (hd : ∀ c ∈ d, c ≠ ':' ∧ c ≠ ']' ∧ Split.isSpace c = false) :
    hostOf (Split.trim (hostOf s ++ ':' :: d)) = hostOf s ↔
      s.head? = some '[' ∧ ']' ∈ s ∨ s.head? ≠ some '[' ∧ s.count ':' ≤ 1 := by
  have hspaces : ∀ c ∈ d, Split.isSpace c = false := fun c hc => (hd c hc).2.2
  have hcolon : ':' ∉ d := fun h => (hd _ h).1 rfl
  have hlonger : s ++ ':' :: d ≠ s := by simp
  -- what is in front of the port begins like the endpoint
  have hfront : ∀ {x y : List Char}, s = x ++ y → ∀ c ∈ x.head?, Split.isSpace c = false := by
    rintro x y rfl c hc
    cases x with
    | nil => cases hc
    | cons _ _ => exact hs c hc
  by_cases hbracket : s.head? = some '['
  · by_cases hmem : ']' ∈ s
    · obtain ⟨a, b, hab, ha⟩ := List.eq_append_cons_of_mem hmem
      have hhead : a.head? = some '[' := by
        rw [hab] at hbracket
        cases a with
        | nil => exact absurd hbracket (by simp)
        | cons _ _ => exact hbracket
      have hhost : hostOf s = a ++ [']'] := by rw [hab, hostOf_bracket hhead ha]
      have hsplit : s = a ++ [']'] ++ b := by simp [hab]
      rw [hhost, trim_host (hfront hsplit) hne hspaces, List.append_assoc, List.singleton_append,
        hostOf_bracket hhead ha]
      exact iff_of_true rfl (.inl ⟨hbracket, hmem⟩)
    · have hhost : hostOf s = s := by rw [hostOf, if_pos hbracket, if_neg hmem]
      have hstill : (s ++ ':' :: d).head? = some '[' := by
        rw [List.head?_append, hbracket, Option.some_or]
      have hopen : ']' ∉ s ++ ':' :: d := by
        rw [List.mem_append, List.mem_cons]
        rintro (h | h | h)
        · exact hmem h
        · cases h
        · exact (hd _ h).2.1 rfl
      rw [hhost, trim_host hs hne hspaces, hostOf, if_pos hstill, if_neg hopen]
      exact iff_of_false hlonger (by simp [hbracket, hmem])
  · have hhead : ∀ {x y : List Char}, s = x ++ y → (x ++ ':' :: d).head? ≠ some '[' := by
      rintro x y rfl
      cases x with
      | nil => simp
      | cons _ _ => exact hbracket
    rcases Nat.lt_trichotomy (s.count ':') 1 with hnone | hone | hmany
    · have hzero : s.count ':' = 0 := Nat.lt_one_iff.mp hnone
      have hnot : ':' ∉ s := List.count_eq_zero.mp hzero
      rw [hostOf_eq_self hbracket hnone.ne, trim_host hs hne hspaces,
        hostOf_colon (hhead (List.append_nil s).symm) hnot hcolon]
      exact iff_of_true rfl (.inr ⟨hbracket, hnone.le⟩)
    · obtain ⟨a, b, hab, ha⟩ := List.eq_append_cons_of_mem
        (List.count_pos_iff.mp (hone ▸ Nat.one_pos))
      have hb : ':' ∉ b := by
        rw [hab, List.count_append, List.count_cons_self] at hone
        exact List.count_eq_zero.mp (by omega)
      have hhost : hostOf s = a := by
        rw [hab, hostOf_colon (hab ▸ hbracket) ha hb]
      rw [hhost, trim_host (hfront hab) hne hspaces, hostOf_colon (hhead hab) ha hcolon]
      exact iff_of_true rfl (.inr ⟨hbracket, hone.le⟩)
    · have hmore : (s ++ ':' :: d).count ':' ≠ 1 := by
        rw [List.count_append, List.count_cons_self]
        omega
      rw [hostOf_eq_self hbracket hmany.ne', trim_host hs hne hspaces,
        hostOf_eq_self (hhead (List.append_nil s).symm) hmore]
      exact iff_of_false hlonger (by simp [hbracket]; omega)

/-- The endpoint that a transport has been applied to has a host as before. -/
lemma stripEndpointPort_apply_iff {endpoint : List Char} {t : Transport}
    (ht : isValidPort t.port) :
    stripEndpointPort (applyTransportToEndpoint endpoint t) = stripEndpointPort endpoint ↔
      Hosted endpoint := by
  obtain ⟨hne, hd⟩ := digits_portText ht
  exact hostOf_kept_iff (fun c hc => Trim.of_mem_head?_trim hc) hne hd

/-- Such an endpoint keeps its host whatever is applied to it. -/
lemma Hosted.apply {endpoint : List Char} {t : Transport} (h : Hosted endpoint)
    (ht : isValidPort t.port) : Hosted (applyTransportToEndpoint endpoint t) := by
  have hhost := (stripEndpointPort_apply_iff ht).mpr h
  refine (stripEndpointPort_apply_iff ht).mp ?_
  rw [applyTransportToEndpoint, hhost]
  exact hhost

/-- **Which endpoints keep their host** when a transport is applied to them: the port
is that of the transport, and the host is found again just when it stands in a
closed bracket, or before at most one colon.  Only then the transports of a fallback
chain, one applied after another, each give what they give alone. -/
theorem host_kept_iff {endpoint : List Char} {t : Transport} (ht : isValidPort t.port) :
    (∃ n : ℕ, t.port = n ∧ 1 ≤ n ∧ n ≤ 65535 ∧ applyTransportToEndpoint endpoint t =
        stripEndpointPort endpoint ++ ':' :: Nat.toDigits 10 n) ∧
      (stripEndpointPort (applyTransportToEndpoint endpoint t) = stripEndpointPort endpoint ↔
        Hosted endpoint) ∧
      ((∀ ts : List Transport, (∀ u ∈ ts, isValidPort u.port) →
          applyTransportToEndpoint (ts.foldl applyTransportToEndpoint endpoint) t =
            applyTransportToEndpoint endpoint t) ↔
        Hosted endpoint) := by
  refine ⟨?_, stripEndpointPort_apply_iff ht, fun hall => ?_, fun hhosted ts hts => ?_⟩
  · obtain ⟨n, hport, hpos, hle, htext⟩ := exists_port ht
    exact ⟨n, hport, hpos, hle, by rw [applyTransportToEndpoint, htext]⟩
  · have hagain := hall [t] (by simpa using ht)
    simp only [List.foldl_cons, List.foldl_nil] at hagain
    rw [applyTransportToEndpoint] at hagain
    nth_rewrite 2 [applyTransportToEndpoint] at hagain
    exact (stripEndpointPort_apply_iff ht).mp (List.append_cancel_right hagain)
  · -- by induction on the transports that were applied before
    induction ts generalizing endpoint with
    | nil => rfl
    | cons u us ih =>
        obtain ⟨hu, hus⟩ := List.forall_mem_cons.mp hts
        rw [List.foldl_cons, ih (hhosted.apply hu) hus, applyTransportToEndpoint,
          (stripEndpointPort_apply_iff hu).mpr hhosted, applyTransportToEndpoint]

/-- A gateway's address, dialled over each of its transports in turn. -/
theorem host_kept_iff_gateway :
    applyTransportToEndpoint
        ([⟨"wg-tls", 443, none⟩, ⟨"wg", 51820, none⟩].foldl applyTransportToEndpoint
          "203.0.113.7:51820".toList) ⟨"awg", 51821, none⟩ = "203.0.113.7:51821".toList := by
  have hall := (@host_kept_iff "203.0.113.7:51820".toList ⟨"awg", 51821, none⟩
    (by decide)).2.2.mpr (by decide)
  rw [hall [⟨"wg-tls", 443, none⟩, ⟨"wg", 51820, none⟩] (by decide)]
  rfl

end Hosts

end CumulusVpn.Negotiation
