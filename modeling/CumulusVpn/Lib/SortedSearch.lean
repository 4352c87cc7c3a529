/-
Searching a list that is sorted by a rank.

* `findSome?_least`, `find?_least`: **the first hit is the least one**;
* `pairwise_mergeSort_rank`: sorting by a comparison that compares ranks;
* `head?_mergeSort_iff`: **the sorted list begins with the first of the least
  elements**;
* `mergeSort_eq_of_perm`: **the order of the list does not matter** where no two
  elements have one rank;
* `mergeSort_idxOf`: **sorting by the place of a key in a list of keys** gathers
  the elements key by key, each time in the order in which they stand.
-/
import Mathlib.Data.List.Basic
import Mathlib.Order.Lattice
import Mathlib.Tactic.Common

namespace SortedSearch

variable {α β κ : Type*} {l l' : List α}

/-! ### First hits -/

section FirstHit

variable {r : α → α → Prop}

/-- The first hit of a search comes before all others. -/
theorem findSome?_least {f : α → Option β} {b : β} (hl : l.Pairwise r)
    (h : l.findSome? f = some b) :
    ∃ x ∈ l, f x = some b ∧ ∀ y ∈ l, (f y).isSome → y = x ∨ r x y := by
  induction l with
  | nil => cases h
  | cons a l ih =>
      obtain ⟨ha, hl⟩ := List.pairwise_cons.mp hl
      rw [List.findSome?_cons] at h
      cases hfa : f a with
      | some c =>
          rw [hfa] at h
          cases h
          exact ⟨a, List.mem_cons_self, hfa, fun y hy _ => (List.mem_cons.mp hy).imp_right (ha y)⟩
      | none =>
          rw [hfa] at h
          obtain ⟨x, hx, hfx, hleast⟩ := ih hl h
          refine ⟨x, List.mem_cons_of_mem a hx, hfx, fun y hy hsome => ?_⟩
          rcases List.mem_cons.mp hy with rfl | hy
          · rw [hfa] at hsome
            cases hsome
          · exact hleast y hy hsome

theorem find?_least {p : α → Bool} {x : α} (hl : l.Pairwise r) (h : l.find? p = some x) :
    (x ∈ l ∧ p x = true) ∧ ∀ y ∈ l, p y = true → y = x ∨ r x y := by
  rw [List.find?_eq_findSome?_guard] at h
  obtain ⟨z, hz, hguard, hleast⟩ := findSome?_least hl h
  obtain ⟨rfl, hp⟩ := Option.guard_eq_some_iff.mp hguard
  exact ⟨⟨hz, hp⟩, fun y hy hpy => hleast y hy (Option.isSome_guard.trans hpy)⟩

end FirstHit

/-! ### Sorting by a rank -/

section Rank

variable [LinearOrder κ] {rank : α → κ} {le : α → α → Bool}
  (hle : ∀ a b, le a b = true ↔ rank a ≤ rank b)

include hle

lemma pairwise_mergeSort_rank (l : List α) :
    (l.mergeSort le).Pairwise fun a b => rank a ≤ rank b := by
  have htrans : ∀ a b c, le a b = true → le b c = true → le a c = true := by
    intro a b c hab hbc
    rw [hle] at hab hbc ⊢
    exact hab.trans hbc
  have htotal : ∀ a b, (le a b || le b a) = true := by
    intro a b
    rw [Bool.or_eq_true, hle, hle]
    exact le_total (rank a) (rank b)
  exact (List.pairwise_mergeSort htrans htotal l).imp fun {a b} hab => (hle a b).mp hab

/-- **What a sorted list begins with**: the first of the least elements. -/
theorem head?_mergeSort_iff {a : α} :
    (l.mergeSort le).head? = some a ↔ ∃ earlier later, l = earlier ++ a :: later ∧
      (∀ b ∈ earlier, rank a < rank b) ∧ ∀ b ∈ later, rank a ≤ rank b := by
  have htrans : ∀ a b c, le a b = true → le b c = true → le a c = true := by
    intro a b c hab hbc
    rw [hle] at hab hbc ⊢
    exact hab.trans hbc
  have htotal : ∀ a b, (le a b || le b a) = true := by
    intro a b
    rw [Bool.or_eq_true, hle, hle]
    exact le_total (rank a) (rank b)
  have hlt : ∀ {b c}, (!le b c) = true → rank c < rank b := fun {b c} h =>
    lt_of_not_ge fun hbc => by simp [(hle b c).mpr hbc] at h
  constructor
  · intro h
    induction l with
    | nil => simp at h
    | cons b l ih =>
        obtain ⟨before, after, hsort, hrest, hbefore⟩ := List.mergeSort_cons htrans htotal b l
        rw [hsort] at h
        cases before with
        | nil =>
            obtain rfl : b = a := Option.some_inj.mp h
            refine ⟨[], l, rfl, by simp, fun c hc => ?_⟩
            have hsorted := pairwise_mergeSort_rank hle (b :: l)
            rw [hsort] at hsorted
            have hmem : c ∈ l.mergeSort le := List.mem_mergeSort.mpr hc
            rw [hrest] at hmem
            exact List.rel_of_pairwise_cons hsorted hmem
        | cons c before =>
            obtain rfl : c = a := Option.some_inj.mp h
            obtain ⟨earlier, later, rfl, hearlier, hlater⟩ := ih (by rw [hrest]; rfl)
            exact ⟨b :: earlier, later, rfl,
              List.forall_mem_cons.mpr ⟨hlt (hbefore c List.mem_cons_self), hearlier⟩, hlater⟩
  · rintro ⟨earlier, later, rfl, hearlier, hlater⟩
    induction earlier with
    | nil =>
        obtain ⟨before, after, hsort, hrest, hbefore⟩ := List.mergeSort_cons htrans htotal a later
        rw [List.nil_append, hsort]
        cases before with
        | nil => rfl
        | cons c before =>
            have hmem : c ∈ later.mergeSort le := by
              rw [hrest]
              exact List.mem_cons_self
            exact absurd (hlater c (List.mem_mergeSort.mp hmem))
              (not_le_of_gt (hlt (hbefore c List.mem_cons_self)))
    | cons b earlier ih =>
        obtain ⟨hb, hearlier⟩ := List.forall_mem_cons.mp hearlier
        have hhead := ih hearlier
        obtain ⟨before, after, hsort, hrest, hbefore⟩ :=
          List.mergeSort_cons htrans htotal b (earlier ++ a :: later)
        rw [List.cons_append, hsort]
        rw [hrest] at hhead
        cases before with
        | nil =>
            have hsorted := pairwise_mergeSort_rank hle (b :: (earlier ++ a :: later))
            rw [hsort] at hsorted
            have hle' := List.rel_of_pairwise_cons hsorted (List.mem_of_mem_head? hhead)
            exact absurd hle' (not_le_of_gt hb)
        | cons c before => exact hhead

/-- Lists with the same elements are sorted alike. -/
theorem mergeSort_eq_of_perm (h : l.Perm l')
    (hinj : ∀ a ∈ l, ∀ b ∈ l, rank a = rank b → a = b) : l.mergeSort le = l'.mergeSort le := by
  refine List.Perm.eq_of_pairwise (fun a b ha hb hab hba => ?_) (pairwise_mergeSort_rank hle l)
    (pairwise_mergeSort_rank hle l') ?_
  · have hb' : b ∈ l := h.mem_iff.mpr (List.mem_mergeSort.mp hb)
    exact hinj a (List.mem_mergeSort.mp ha) b hb' (le_antisymm hab hba)
  · exact (List.mergeSort_perm l le).trans (h.trans (List.mergeSort_perm l' le).symm)

end Rank

/-! ### Sorting by the place of a key -/

section Buckets

/-- A list whose elements with a property all stand first. -/
lemma eq_filter_append_filter {p : α → Bool} (hl : l.Pairwise fun a b => p b = true → p a = true) :
    l = l.filter p ++ l.filter fun a => !p a := by
  induction l with
  | nil => rfl
  | cons a l ih =>
      obtain ⟨ha, hl⟩ := List.pairwise_cons.mp hl
      cases hpa : p a with
      | true =>
          rw [List.filter_cons_of_pos hpa, List.filter_cons_of_neg (by simp [hpa]),
            List.cons_append, ← ih hl]
      | false =>
          have hnone : ∀ b ∈ l, ¬ p b = true := fun b hb hpb => by simp [ha b hb hpb] at hpa
          have hall : ∀ b ∈ a :: l, (!p b) = true := List.forall_mem_cons.mpr
            ⟨by simp [hpa], fun b hb => by simpa using hnone b hb⟩
          rw [List.filter_cons_of_neg (by simp [hpa]), List.filter_eq_nil_iff.mpr hnone,
            List.nil_append, List.filter_eq_self.mpr hall]

variable [DecidableEq κ] {key : α → κ}

/-- A list that is sorted by the place of a key is gathered. -/
lemma eq_flatMap_filter {place : κ → ℕ} {order : List κ}
    (horder : order.Pairwise fun k k' => place k < place k')
    (hl : l.Pairwise fun a b => place (key a) ≤ place (key b)) (hmem : ∀ a ∈ l, key a ∈ order) :
    l = order.flatMap fun k => l.filter (key · = k) := by
  induction order generalizing l with
  | nil =>
      cases l with
      | nil => rfl
      | cons a l => exact absurd (hmem a List.mem_cons_self) List.not_mem_nil
  | cons k order ih =>
      obtain ⟨hk, horder⟩ := List.pairwise_cons.mp horder
      have hle : ∀ a ∈ l, place k ≤ place (key a) := fun a ha => by
        cases List.mem_cons.mp (hmem a ha) with
        | inl heq => rw [heq]
        | inr hrest => exact (hk _ hrest).le
      have hfirst : l.Pairwise fun a b =>
          decide (key b = k) = true → decide (key a = k) = true := by
        refine hl.imp_of_mem fun {a b} ha _ hab hb => ?_
        obtain rfl : key b = k := of_decide_eq_true hb
        refine decide_eq_true ?_
        cases List.mem_cons.mp (hmem a ha) with
        | inl heq => exact heq
        | inr hrest => exact absurd hab (Nat.not_le.mpr (hk _ hrest))
      -- what has another key is gathered under the other keys
      have hrest : (l.filter fun a => !decide (key a = k)) =
          order.flatMap fun k' => l.filter (key · = k') := by
        have hothers := ih (l := l.filter fun a => !decide (key a = k)) horder (hl.filter _)
          fun a ha => by
            obtain ⟨hal, hne⟩ := List.mem_filter.mp ha
            exact (List.mem_cons.mp (hmem a hal)).resolve_left (by simpa using hne)
        rw [hothers]
        refine List.flatMap_congr fun k' hk' => ?_
        rw [List.filter_filter]
        refine List.filter_congr fun a _ => ?_
        have hne : k' ≠ k := fun heq => Nat.lt_irrefl _ (heq ▸ hk k' hk')
        by_cases ha : key a = k'
        · simp [ha, hne]
        · simp [ha]
      rw [List.flatMap_cons, ← hrest]
      exact eq_filter_append_filter hfirst

/-- **Sorting by the place of a key gathers the elements key by key.** -/
theorem mergeSort_idxOf {order : List κ} (hnodup : order.Nodup) {le : α → α → Bool}
    (hle : ∀ a b, le a b = true ↔ order.idxOf (key a) ≤ order.idxOf (key b))
    (hmem : ∀ a ∈ l, key a ∈ order) :
    l.mergeSort le = order.flatMap fun k => l.filter (key · = k) := by
  have hsorted := pairwise_mergeSort_rank hle l
  have hperm := List.mergeSort_perm l le
  have hplaces : order.Pairwise fun k k' => order.idxOf k < order.idxOf k' := by
    refine List.pairwise_iff_getElem.mpr fun i j hi hj hij => ?_
    rwa [hnodup.idxOf_getElem, hnodup.idxOf_getElem]
  have hgather := eq_flatMap_filter hplaces hsorted fun a ha => hmem a (hperm.mem_iff.mp ha)
  rw [hgather]
  refine List.flatMap_congr fun k _ => ?_
  -- the sort is stable
  have htrans : ∀ a b c, le a b = true → le b c = true → le a c = true := by
    intro a b c hab hbc
    rw [hle] at hab hbc ⊢
    exact hab.trans hbc
  have htotal : ∀ a b, (le a b || le b a) = true := by
    intro a b
    rw [Bool.or_eq_true, hle, hle]
    exact le_total _ _
  have halike : (l.filter (key · = k)).Pairwise fun a b => le a b = true := by
    refine List.pairwise_of_forall_mem_list fun a ha b hb => (hle a b).mpr ?_
    rw [of_decide_eq_true (List.mem_filter.mp ha).2, of_decide_eq_true (List.mem_filter.mp hb).2]
  have hsub := (List.sublist_mergeSort htrans htotal halike List.filter_sublist).filter (key · = k)
  rw [List.filter_filter] at hsub
  simp only [Bool.and_self] at hsub
  exact (hsub.eq_of_length (hperm.filter _).length_eq.symm).symm

end Buckets

end SortedSearch
