/-
Merging entries with keys into a list: what is wanted takes the place of the
first entry with its key, and comes last where there is none.

* `put`, `ofList`: a map in order of insertion, as the list of its entries;
* `merge`: the list with what is wanted merged in;
* `filter_merge`: **the entries with other keys stay as they are**;
* `filter_key_merge`: **each key that is wanted is there once**;
* `merge_merge`: **merging again changes nothing**.
-/
import Mathlib.Data.List.Nodup
import Mathlib.Tactic.Common

namespace KeyedMerge

variable {α κ : Type*} [DecidableEq κ]

/-! ### Maps in order of insertion -/

/-- The value of a key changes where the key is, a new key comes last. -/
def put (key : α → κ) (m : List α) (e : α) : List α :=
  if key e ∈ m.map key then m.map fun x => if key x = key e then e else x else m ++ [e]

/-- The map of a list: an element replaces one with its key. -/
def ofList (key : α → κ) (es : List α) : List α := es.foldl (put key) []

/-- The element of a key. -/
def get (key : α → κ) (m : List α) (k : κ) : Option α := m.find? fun e => key e = k

/-- No key is there twice. -/
def Distinct (key : α → κ) (m : List α) : Prop := (m.map key).Nodup

section Maps

variable {key : α → κ} {m : List α} {e w : α} {k : κ}

lemma map_put : (put key m e).map key =
    if key e ∈ m.map key then m.map key else m.map key ++ [key e] := by
  rw [put]
  split
  · rw [List.map_map]
    refine List.map_congr_left fun x _ => ?_
    by_cases hx : key x = key e
    · simp [hx]
    · simp [hx]
  · rw [List.map_append, List.map_singleton]

lemma distinct_put (h : Distinct key m) : Distinct key (put key m e) := by
  rw [Distinct, map_put]
  split
  · exact h
  · rename_i hnew
    rw [← List.concat_eq_append]
    exact List.Nodup.concat hnew h

lemma distinct_ofList (es : List α) : Distinct key (ofList key es) := by
  rw [ofList]
  have hfold : ∀ m, Distinct key m → Distinct key (es.foldl (put key) m) := by
    induction es with
    | nil => exact fun _ h => h
    | cons e es ih => exact fun m h => ih _ (distinct_put h)
  exact hfold [] List.nodup_nil

/-- The keys are those of the entries. -/
lemma mem_map_ofList {es : List α} : k ∈ (ofList key es).map key ↔ k ∈ es.map key := by
  have hfold : ∀ m, k ∈ (es.foldl (put key) m).map key ↔ k ∈ m.map key ∨ k ∈ es.map key := by
    induction es with
    | nil => simp
    | cons e es ih =>
        intro m
        rw [List.foldl_cons, ih, map_put, List.map_cons, List.mem_cons]
        split
        · rename_i hold
          constructor
          · exact Or.imp_right Or.inr
          · rintro (h | rfl | h)
            · exact Or.inl h
            · exact Or.inl hold
            · exact Or.inr h
        · rw [List.mem_append, List.mem_singleton, or_assoc]
  rw [ofList, hfold []]
  simp

lemma mem_of_mem_ofList {es : List α} (h : e ∈ ofList key es) : e ∈ es := by
  have hfold : ∀ m, e ∈ es.foldl (put key) m → e ∈ m ∨ e ∈ es := by
    clear h
    induction es with
    | nil => exact fun m h => Or.inl h
    | cons x es ih =>
        intro m h
        rcases ih _ h with hput | hrest
        · rw [put] at hput
          split at hput
          · obtain ⟨y, hy, rfl⟩ := List.mem_map.mp hput
            split
            · exact Or.inr List.mem_cons_self
            · exact Or.inl hy
          · rcases List.mem_append.mp hput with hm | hx
            · exact Or.inl hm
            · exact Or.inr (List.mem_singleton.mp hx ▸ List.mem_cons_self)
        · exact Or.inr (List.mem_cons_of_mem x hrest)
  exact (hfold [] h).resolve_left List.not_mem_nil

/-- An entry list whose keys differ is a map. -/
lemma ofList_eq_self {es : List α} (h : Distinct key es) : ofList key es = es := by
  have hfold : ∀ m, Distinct key (m ++ es) → es.foldl (put key) m = m ++ es := by
    clear h
    induction es with
    | nil => simp
    | cons e es ih =>
        intro m h
        have hnew : key e ∉ m.map key := by
          rw [Distinct, List.map_append, List.map_cons] at h
          exact fun hmem => List.disjoint_of_nodup_append h hmem List.mem_cons_self
        have hput : put key m e = m ++ [e] := if_neg hnew
        rw [List.foldl_cons, hput, ih _ (by rwa [List.append_assoc]), List.append_assoc]
        rfl
  exact hfold [] h

lemma get_eq_some (h : Distinct key m) : get key m k = some w ↔ w ∈ m ∧ key w = k := by
  rw [get]
  constructor
  · intro hfind
    exact ⟨List.mem_of_find?_eq_some hfind, by simpa using List.find?_some hfind⟩
  · rintro ⟨hw, rfl⟩
    cases hfind : m.find? fun e => key e = key w with
    | none => exact absurd (decide_eq_true rfl) (List.find?_eq_none.mp hfind w hw)
    | some e =>
        have hkey : key e = key w := by simpa using List.find?_some hfind
        rw [List.inj_on_of_nodup_map h (List.mem_of_find?_eq_some hfind) hw hkey]

/-- An entry is the only one with its key. -/
lemma filter_key (h : Distinct key m) (hw : w ∈ m) : m.filter (fun e => key e = key w) = [w] := by
  induction m with
  | nil => cases hw
  | cons e m ih =>
      obtain ⟨hnew, hrest⟩ := List.nodup_cons.mp h
      rcases List.mem_cons.mp hw with rfl | hw
      · have hnone : m.filter (fun e => key e = key w) = [] := by
          refine List.filter_eq_nil_iff.mpr fun e he heq => hnew ?_
          rw [← of_decide_eq_true heq]
          exact List.mem_map_of_mem he
        rw [List.filter_cons, hnone]
        exact if_pos (decide_eq_true rfl)
      · have hne : key e ≠ key w := fun heq => hnew (heq ▸ List.mem_map_of_mem hw)
        rw [List.filter_cons_of_neg (by simpa using hne), ih hrest hw]

lemma get_eq_none : get key m k = none ↔ k ∉ m.map key := by
  rw [get, List.find?_eq_none]
  simp

end Maps

/-! ### Merging -/

/-- The entries from here on, where the keys `placed` have been met. -/
def place (key : α → κ) (want : List α) : List α → List κ → List α
  | [], placed => want.filter fun w => key w ∉ placed
  | e :: current, placed =>
      match get key want (key e) with
      | none => e :: place key want current placed
      | some w =>
          if key e ∈ placed then place key want current placed
          else w :: place key want current (key e :: placed)

/-- The current elements with the desired ones in their places, and what is new
behind them. -/
def merge (key : α → κ) (current desired : List α) : List α :=
  place key (ofList key desired) current []

section Merge

variable {key : α → κ} {want current desired : List α} {placed : List κ} {w : α} {k : κ}

/-- The entries with other keys. -/
lemma filter_place : (place key want current placed).filter (fun e => key e ∉ want.map key) =
    current.filter fun e => key e ∉ want.map key := by
  induction current generalizing placed with
  | nil =>
      rw [place, List.filter_filter, List.filter_nil, List.filter_eq_nil_iff]
      intro w hw
      simp [List.mem_map_of_mem hw]
  | cons e current ih =>
      rw [place]
      cases hget : get key want (key e) with
      | none =>
          have hother : key e ∉ want.map key := get_eq_none.mp hget
          dsimp only
          rw [List.filter_cons, List.filter_cons, ih]
      | some w =>
          have hown : key e ∈ want.map key := by
            by_contra hno
            rw [get_eq_none.mpr hno] at hget
            cases hget
          have hw : key w ∈ want.map key :=
            List.mem_map_of_mem (List.mem_of_find?_eq_some hget)
          have hskip : (e :: current).filter (fun e => key e ∉ want.map key) =
              current.filter fun e => key e ∉ want.map key := by
            rw [List.filter_cons]
            exact if_neg (by simpa using hown)
          rw [hskip]
          dsimp only
          split
          · exact ih
          · rw [List.filter_cons, if_neg (by simpa using hw), ih]

/-- An entry that is wanted comes once, unless its key has been met. -/
lemma filter_key_place (hwant : Distinct key want) (hw : w ∈ want) :
    (place key want current placed).filter (fun e => key e = key w) =
      if key w ∈ placed then [] else [w] := by
  induction current generalizing placed with
  | nil =>
      rw [place, List.filter_filter]
      split
      · rename_i hmet
        refine List.filter_eq_nil_iff.mpr fun e _ => ?_
        simp only [Bool.and_eq_true, decide_eq_true_eq, not_and, not_not]
        exact fun heq => heq ▸ hmet
      · rename_i hnew
        rw [← filter_key hwant hw]
        refine List.filter_congr fun e _ => ?_
        rw [Bool.and_eq_left_iff_imp, decide_eq_true_eq, decide_eq_true_eq]
        exact fun heq => heq ▸ hnew
  | cons e current ih =>
      rw [place]
      cases hget : get key want (key e) with
      | none =>
          have hne : key e ≠ key w := fun heq =>
            get_eq_none.mp hget (heq ▸ List.mem_map_of_mem hw)
          rw [List.filter_cons_of_neg (by simpa using hne)]
          exact ih
      | some v =>
          obtain ⟨hv, hkey⟩ := (get_eq_some hwant).mp hget
          dsimp only
          split
          · exact ih
          · rename_i hnew
            rw [List.filter_cons, ih, hkey]
            by_cases heq : key e = key w
            · obtain rfl := List.inj_on_of_nodup_map hwant hv hw (hkey.trans heq)
              rw [if_pos (decide_eq_true heq), if_pos (heq ▸ List.mem_cons_self),
                if_neg (heq ▸ hnew)]
            · have hmem : key w ∈ key e :: placed ↔ key w ∈ placed :=
                (List.mem_cons).trans (or_iff_right (Ne.symm heq))
              rw [if_neg (by simpa using heq), if_congr hmem rfl rfl]

/-- What is left of the map, where nothing else has been met. -/
lemma place_filter (hwant : Distinct key want) {rest : List α} (hrest : Distinct key rest)
    (hsub : ∀ w ∈ rest, w ∈ want ∧ key w ∉ placed)
    (hall : ∀ w ∈ want, key w ∉ placed → w ∈ rest) : place key want rest placed = rest := by
  induction rest generalizing placed with
  | nil =>
      rw [place]
      exact List.filter_eq_nil_iff.mpr fun w hw hnew =>
        List.not_mem_nil (hall w hw (of_decide_eq_true hnew))
  | cons w rest ih =>
      obtain ⟨hw, hnew⟩ := hsub w List.mem_cons_self
      obtain ⟨hfresh, hdistinct⟩ := List.nodup_cons.mp hrest
      rw [place, (get_eq_some hwant).mpr ⟨hw, rfl⟩]
      dsimp only
      rw [if_neg hnew, ih hdistinct]
      · intro v hv
        obtain ⟨hv', hnew'⟩ := hsub v (List.mem_cons_of_mem w hv)
        refine ⟨hv', fun hmem => ?_⟩
        rcases List.mem_cons.mp hmem with heq | hmem
        · exact hfresh (heq ▸ List.mem_map_of_mem hv)
        · exact hnew' hmem
      · intro v hv hnot
        have hne : key v ≠ key w := fun heq => hnot (heq ▸ List.mem_cons_self)
        rcases List.mem_cons.mp
            (hall v hv fun hmem => hnot (List.mem_cons_of_mem _ hmem)) with rfl | hv
        · exact absurd rfl hne
        · exact hv

/-- What has been merged is merged. -/
lemma place_place (hwant : Distinct key want) :
    place key want (place key want current placed) placed = place key want current placed := by
  induction current generalizing placed with
  | nil =>
      rw [place]
      refine place_filter hwant ?_ (fun w hw => ?_) fun w hw hnew => ?_
      · exact hwant.sublist (List.filter_sublist.map key)
      · obtain ⟨hw, hnew⟩ := List.mem_filter.mp hw
        exact ⟨hw, of_decide_eq_true hnew⟩
      · exact List.mem_filter.mpr ⟨hw, decide_eq_true hnew⟩
  | cons e current ih =>
      rw [place]
      cases hget : get key want (key e) with
      | none =>
          dsimp only
          rw [place, hget]
          dsimp only
          rw [ih]
      | some w =>
          obtain ⟨hw, hkey⟩ := (get_eq_some hwant).mp hget
          dsimp only
          split
          · exact ih
          · rename_i hnew
            rw [place, hkey, hget]
            dsimp only
            rw [if_neg hnew, ih]

/-- **The entries with other keys stay**, in their order. -/
theorem filter_merge (current desired : List α) :
    (merge key current desired).filter (fun e => key e ∉ desired.map key) =
      current.filter fun e => key e ∉ desired.map key := by
  have hkeys :
      ∀ e, decide (key e ∉ desired.map key) = decide (key e ∉ (ofList key desired).map key) :=
    fun e => decide_eq_decide.mpr (not_congr mem_map_ofList.symm)
  simp only [hkeys]
  exact filter_place

/-- **Each entry that is wanted is there once**, and alone with its key. -/
theorem filter_key_merge (current desired : List α) (hw : w ∈ ofList key desired) :
    (merge key current desired).filter (fun e => key e = key w) = [w] :=
  (filter_key_place (distinct_ofList desired) hw).trans (if_neg List.not_mem_nil)

/-- **Merging again changes nothing.** -/
theorem merge_merge (current desired : List α) :
    merge key (merge key current desired) desired = merge key current desired :=
  place_place (distinct_ofList desired)

end Merge

end KeyedMerge
