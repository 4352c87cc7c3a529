/-
JSON values, their texts and what is read of them.

* `Json`: values, an object as its own keys in order; `Json.induction`;
* `stringify`, `parse`: `JSON.stringify` with an indentation, and `JSON.parse`;
* `parse_stringify`: **a printed value reads back**, its keys in the order of
  the language;
* `Json.rearrange`: a value with the keys of every object in another order;
* `Json.read`: what a path leads to; `read_rearrange`: the order of the keys
  does not show;
* `stringify_injective`: values with one text are equal but for that order.
-/
import Mathlib.Data.List.Nodup
import CumulusVpn.Lib.JsonLexeme

namespace JsonText

/-- A JSON value; the members of an object in the order of its keys. -/
inductive Json
  | null
  | bool (b : Bool)
  | num (n : Number)
  | str (s : Str)
  | arr (items : List Json)
  | obj (members : List (Str × Json))

namespace Json

@[elab_as_elim, induction_eliminator]
theorem induction {P : Json → Prop} (null : P .null) (bool : ∀ b, P (.bool b))
    (num : ∀ n, P (.num n)) (str : ∀ s, P (.str s))
    (arr : ∀ items, (∀ v ∈ items, P v) → P (.arr items))
    (obj : ∀ members, (∀ m ∈ members, P m.2) → P (.obj members)) (v : Json) : P v :=
  @Json.rec P (fun items => ∀ v ∈ items, P v) (fun members => ∀ m ∈ members, P m.2)
    (fun m => P m.2) null bool num str arr obj (fun _ hv => absurd hv List.not_mem_nil)
    (fun _ _ hv hvs => List.forall_mem_cons.mpr ⟨hv, hvs⟩)
    (fun _ hm => absurd hm List.not_mem_nil)
    (fun _ _ hm hms => List.forall_mem_cons.mpr ⟨hm, hms⟩) (fun _ _ hv => hv) v

end Json

/-! ### Printing -/

/-- The texts with a separator between them. -/
def join (sep : List Char) : List (List Char) → List Char
  | [] => []
  | [t] => t
  | t :: u :: ts => t ++ (sep ++ join sep (u :: ts))

/-- A line break, when the text is indented at all. -/
def newline (gap indent : List Char) : List Char := if gap = [] then [] else '\n' :: indent

/-- The texts of an array or an object between their brackets. -/
def bracket (opening closing : Char) (gap indent : List Char) (texts : List (List Char)) :
    List Char :=
  if texts = [] then [opening, closing]
  else opening :: (newline gap (indent ++ gap) ++
    (join (',' :: newline gap (indent ++ gap)) texts ++ (newline gap indent ++ [closing])))

/-- A member of an object. -/
def memberText (gap : List Char) (k : Str) (text : List Char) : List Char :=
  quote k ++ (':' :: ((if gap = [] then [] else [' ']) ++ text))

mutual

/-- `JSON.stringify` with the text `gap` as its unit of indentation. -/
def stringify (gap indent : List Char) : Json → List Char
  | .null => ['n', 'u', 'l', 'l']
  | .bool true => ['t', 'r', 'u', 'e']
  | .bool false => ['f', 'a', 'l', 's', 'e']
  | .num n => n.text
  | .str s => quote s
  | .arr items => bracket '[' ']' gap indent (stringifyItems gap (indent ++ gap) items)
  | .obj members => bracket '{' '}' gap indent (stringifyMembers gap (indent ++ gap) members)

/-- The texts of the items of an array. -/
def stringifyItems (gap indent : List Char) : List Json → List (List Char)
  | [] => []
  | v :: vs => stringify gap indent v :: stringifyItems gap indent vs

/-- The texts of the members of an object. -/
def stringifyMembers (gap indent : List Char) : List (Str × Json) → List (List Char)
  | [] => []
  | (k, v) :: ms =>
      memberText gap k (stringify gap indent v) :: stringifyMembers gap indent ms

end

/-! ### Reading -/

/-- What may stand between two tokens. -/
def isSpace (c : Char) : Bool := c = ' ' || c = '\t' || c = '\n' || c = '\r'

/-- The text from its next token on. -/
def skipSpace (cs : List Char) : List Char := cs.dropWhile isSpace

/-- Digits are looked at one by one, also where `UInt16` is known to be finite. -/
instance decidableDigits (k : Str) : Decidable (∀ u ∈ k, 48 ≤ u.toNat ∧ u.toNat < 58) :=
  List.decidableBAll _ k

/-- The number that a key stands for, if it is an array index. -/
def arrayIndex (k : Str) : Option Nat :=
  if k ≠ [] ∧ (∀ u ∈ k, 48 ≤ u.toNat ∧ u.toNat < 58) ∧ (k.head? = some 48 → k = [48]) then
    let n := k.foldl (fun n u => 10 * n + (u.toNat - 48)) 0
    if n < 4294967295 then some n else none
  else none

/-- The own keys of an object: array indices first, in ascending order. -/
def ownOrder (members : List (Str × Json)) : List (Str × Json) :=
  (members.filter fun m => (arrayIndex m.1).isSome).mergeSort
      (fun m m' => (arrayIndex m.1).getD 0 ≤ (arrayIndex m'.1).getD 0) ++
    members.filter fun m => !(arrayIndex m.1).isSome

/-- A key is set: in its place, or behind the others. -/
def assign (members : List (Str × Json)) (m : Str × Json) : List (Str × Json) :=
  if m.1 ∈ members.map Prod.fst then members.map fun m' => if m'.1 = m.1 then m else m'
  else members ++ [m]

/-- The object of these members: a later one replaces an earlier one of its key. -/
def fromEntries (members : List (Str × Json)) : List (Str × Json) :=
  ownOrder (members.foldl assign [])

/-- The value of a word, behind its first letter. -/
def keyword (word : List Char) (v : Json) (cs : List Char) : Option (Json × List Char) :=
  if word <+: cs then some (v, cs.drop word.length) else none

mutual

/-- A value and what follows it; the fuel bounds the depth and the length. -/
def parseValue : Nat → List Char → Option (Json × List Char)
  | 0, _ => none
  | fuel + 1, cs =>
      match skipSpace cs with
      | [] => none
      | c :: cs =>
          if c = '"' then (parseUnits cs).map fun p => (.str p.1, p.2)
          else if c = '[' then
            if (skipSpace cs).head? = some ']' then some (.arr [], (skipSpace cs).tail)
            else (parseItems fuel cs).map fun p => (.arr p.1, p.2)
          else if c = '{' then
            if (skipSpace cs).head? = some '}' then some (.obj [], (skipSpace cs).tail)
            else (parseMembers fuel cs).map fun p => (.obj (fromEntries p.1), p.2)
          else if c = 'n' then keyword ['u', 'l', 'l'] .null cs
          else if c = 't' then keyword ['r', 'u', 'e'] (.bool true) cs
          else if c = 'f' then keyword ['a', 'l', 's', 'e'] (.bool false) cs
          else (parseNumber (c :: cs)).map fun p => (.num p.1, p.2)

/-- The items of an array up to its bracket. -/
def parseItems : Nat → List Char → Option (List Json × List Char)
  | 0, _ => none
  | fuel + 1, cs => do
      let (v, cs) ← parseValue fuel cs
      match skipSpace cs with
      | [] => none
      | c :: cs =>
          if c = ',' then (parseItems fuel cs).map fun p => (v :: p.1, p.2)
          else if c = ']' then some ([v], cs)
          else none

/-- The members of an object up to its brace. -/
def parseMembers : Nat → List Char → Option (List (Str × Json) × List Char)
  | 0, _ => none
  | fuel + 1, cs =>
      if (skipSpace cs).head? = some '"' then do
        let (k, cs) ← parseUnits (skipSpace cs).tail
        if (skipSpace cs).head? = some ':' then do
          let (v, cs) ← parseValue fuel (skipSpace cs).tail
          match skipSpace cs with
          | [] => none
          | c :: cs =>
              if c = ',' then (parseMembers fuel cs).map fun p => ((k, v) :: p.1, p.2)
              else if c = '}' then some ([(k, v)], cs)
              else none
        else none
      else none

end

/-- `JSON.parse` -/
def parse (cs : List Char) : Option Json :=
  match parseValue (cs.length + 1) cs with
  | some (v, rest) => if skipSpace rest = [] then some v else none
  | none => none

/-! ### The order of the keys -/

section Rearrange

variable (f : List (Str × Json) → List (Str × Json))

mutual

/-- The members of every object in another order. -/
def Json.rearrange : Json → Json
  | .arr items => .arr (rearrangeItems items)
  | .obj members => .obj (f (rearrangeMembers members))
  | .null => .null
  | .bool b => .bool b
  | .num n => .num n
  | .str s => .str s

/-- The items of an array, rearranged. -/
def rearrangeItems : List Json → List Json
  | [] => []
  | v :: vs => v.rearrange :: rearrangeItems vs

/-- The members of an object with their values rearranged. -/
def rearrangeMembers : List (Str × Json) → List (Str × Json)
  | [] => []
  | (k, v) :: ms => (k, v.rearrange) :: rearrangeMembers ms

end

lemma rearrangeItems_eq (items : List Json) :
    rearrangeItems f items = items.map (Json.rearrange f) := by
  induction items with
  | nil => rfl
  | cons v vs ih => rw [rearrangeItems, ih, List.map_cons]

lemma rearrangeMembers_eq (members : List (Str × Json)) :
    rearrangeMembers f members = members.map fun m => (m.1, m.2.rearrange f) := by
  induction members with
  | nil => rfl
  | cons m ms ih => rw [rearrangeMembers, ih, List.map_cons]

end Rearrange

mutual

/-- No object has a key twice. -/
def Json.proper : Json → Bool
  | .arr items => properItems items
  | .obj members => decide (members.map Prod.fst).Nodup && properMembers members
  | .null => true
  | .bool _ => true
  | .num _ => true
  | .str _ => true

/-- Every item is proper. -/
def properItems : List Json → Bool
  | [] => true
  | v :: vs => v.proper && properItems vs

/-- Every value is proper. -/
def properMembers : List (Str × Json) → Bool
  | [] => true
  | (_, v) :: ms => v.proper && properMembers ms

end

lemma properItems_eq_true {items : List Json} :
    properItems items = true ↔ ∀ v ∈ items, v.proper = true := by
  induction items with
  | nil => simp [properItems]
  | cons v vs ih => rw [properItems, Bool.and_eq_true, ih, List.forall_mem_cons]

lemma properMembers_eq_true {members : List (Str × Json)} :
    properMembers members = true ↔ ∀ m ∈ members, m.2.proper = true := by
  induction members with
  | nil => simp [properMembers]
  | cons m ms ih => rw [properMembers, Bool.and_eq_true, ih, List.forall_mem_cons]

lemma proper_arr {items : List Json} :
    (Json.arr items).proper = true ↔ ∀ v ∈ items, v.proper = true := properItems_eq_true

lemma proper_obj {members : List (Str × Json)} :
    (Json.obj members).proper = true ↔
      (members.map Prod.fst).Nodup ∧ ∀ m ∈ members, m.2.proper = true := by
  rw [Json.proper, Bool.and_eq_true, decide_eq_true_eq, properMembers_eq_true]

lemma ownOrder_perm (members : List (Str × Json)) : (ownOrder members).Perm members :=
  ((List.mergeSort_perm _ _).append_right _).trans (List.filter_append_perm _ _)

/-- Keys that are no array indices stay where they are. -/
lemma ownOrder_eq_self {members : List (Str × Json)}
    (h : ∀ m ∈ members, arrayIndex m.1 = none) : ownOrder members = members := by
  have hindex : members.filter (fun m => (arrayIndex m.1).isSome) = [] :=
    List.filter_eq_nil_iff.mpr fun m hm => by simp [h m hm]
  have hother : members.filter (fun m => !(arrayIndex m.1).isSome) = members :=
    List.filter_eq_self.mpr fun m hm => by simp [h m hm]
  rw [ownOrder, hindex, hother, List.mergeSort_nil, List.nil_append]

/-- Keys that differ are set one behind the other. -/
lemma foldl_assign {members : List (Str × Json)} (h : (members.map Prod.fst).Nodup) :
    members.foldl assign [] = members := by
  have hgeneral : ∀ before : List (Str × Json), ((before ++ members).map Prod.fst).Nodup →
      members.foldl assign before = before ++ members := by
    clear h
    induction members with
    | nil => simp
    | cons m ms ih =>
        intro before hnodup
        have hnew : m.1 ∉ before.map Prod.fst := by
          rw [List.map_append, List.map_cons] at hnodup
          exact fun hmem => (List.nodup_append.mp hnodup).2.2 _ hmem _ List.mem_cons_self rfl
        rw [List.foldl_cons, assign, if_neg hnew,
          ih _ (by rwa [List.append_assoc, List.singleton_append]), List.append_assoc,
          List.singleton_append]
  exact hgeneral [] h

lemma fromEntries_eq {members : List (Str × Json)} (h : (members.map Prod.fst).Nodup) :
    fromEntries members = ownOrder members := by
  rw [fromEntries, foldl_assign h]

/-! ### What is printed reads back -/

/-- White space. -/
def Blank (cs : List Char) : Prop := ∀ c ∈ cs, isSpace c = true

instance (cs : List Char) : Decidable (Blank cs) := List.decidableBAll _ cs

lemma skipSpace_append {ws cs : List Char} (hws : Blank ws) :
    skipSpace (ws ++ cs) = skipSpace cs := List.dropWhile_append_of_pos hws

lemma skipSpace_cons {c : Char} (hc : isSpace c = false) (cs : List Char) :
    skipSpace (c :: cs) = c :: cs := List.dropWhile_cons_of_neg (by simp [hc])

lemma blank_newline (gap : List Char) {indent : List Char} (h : Blank indent) :
    Blank (newline gap indent) := by
  rw [newline]
  split
  · exact fun c hc => absurd hc List.not_mem_nil
  · exact List.forall_mem_cons.mpr ⟨rfl, h⟩

/-- White space in front of a value is passed over. -/
lemma parseValue_append {ws cs : List Char} (hws : Blank ws) (fuel : Nat) :
    parseValue fuel (ws ++ cs) = parseValue fuel cs := by
  cases fuel with
  | zero => rfl
  | succ fuel => rw [parseValue, parseValue, skipSpace_append hws]

lemma endsNumber_newline {gap indent : List Char} {c : Char} (hc : ¬ c.isDigit ∧ c ≠ '.' ∧
    c ≠ 'e' ∧ c ≠ 'E') (rest : List Char) : EndsNumber (newline gap indent ++ (c :: rest)) := by
  intro d hd
  rw [newline] at hd
  split at hd
  · obtain rfl : c = d := by simpa using hd
    exact hc
  · obtain rfl : '\n' = d := by simpa using hd
    decide

lemma parseUnits_quote (s : Str) (rest : List Char) :
    quote s ++ rest = '"' :: (quoteUnits s ++ ('"' :: rest)) := by
  rw [quote, List.cons_append, List.append_assoc, List.singleton_append]

/-- Every text of the value reads back. -/
def ReadsBack (gap : List Char) (v : Json) : Prop :=
  ∀ indent rest fuel, Blank indent → EndsNumber rest → (stringify gap indent v).length < fuel →
    parseValue fuel (stringify gap indent v ++ rest) = some (v.rearrange ownOrder, rest)

/-- A separated list of texts, one taken off. -/
lemma join_cons (sep t : List Char) (ts : List (List Char)) :
    join sep (t :: ts) = t ++ if ts = [] then [] else sep ++ join sep ts := by
  cases ts with
  | nil => simp [join]
  | cons u ts => rfl

lemma stringifyItems_ne_nil (gap indent : List Char) {items : List Json} (h : items ≠ []) :
    stringifyItems gap indent items ≠ [] := by
  cases items with
  | nil => exact absurd rfl h
  | cons v vs => exact List.cons_ne_nil _ _

lemma stringifyMembers_ne_nil (gap indent : List Char) {members : List (Str × Json)}
    (h : members ≠ []) : stringifyMembers gap indent members ≠ [] := by
  cases members with
  | nil => exact absurd rfl h
  | cons m ms => exact List.cons_ne_nil _ _

lemma endsNumber_comma (rest : List Char) : EndsNumber (',' :: rest) := by
  intro c hc
  obtain rfl : ',' = c := by simpa using hc
  decide

lemma parseItems_text {gap indent nl nl' : List Char} (rest : List Char) {items : List Json}
    (hne : items ≠ [])
    (hread : ∀ v ∈ items, ReadsBack gap v) (hindent : Blank indent) (hnl : Blank nl)
    (hnl' : ∀ rest, EndsNumber (nl' ++ (']' :: rest))) (hblank : Blank nl') {fuel : Nat}
    (hfuel : (join (',' :: nl) (stringifyItems gap indent items)).length + 1 < fuel) :
    parseItems fuel (nl ++ (join (',' :: nl) (stringifyItems gap indent items) ++
      (nl' ++ (']' :: rest)))) = some (rearrangeItems ownOrder items, rest) := by
  induction items generalizing fuel with
  | nil => exact absurd rfl hne
  | cons v vs ih =>
      obtain ⟨fuel, rfl⟩ : ∃ n, fuel = n + 1 := ⟨fuel - 1, by omega⟩
      obtain ⟨hv, hvs⟩ := List.forall_mem_cons.mp hread
      rw [stringifyItems, join_cons] at hfuel ⊢
      rw [parseItems, parseValue_append hnl]
      by_cases hlast : vs = []
      · subst hlast
        simp only [stringifyItems, if_true, List.append_nil] at hfuel ⊢
        rw [hv indent _ fuel hindent (hnl' rest) (by omega)]
        simp only [Option.bind_eq_bind, Option.bind_some, skipSpace_append hblank]
        rw [skipSpace_cons (by decide)]
        rfl
      · rw [if_neg (stringifyItems_ne_nil _ _ hlast)] at hfuel ⊢
        simp only [List.length_append, List.length_cons, List.cons_append,
          List.append_assoc] at hfuel ⊢
        rw [hv indent _ fuel hindent (endsNumber_comma _) (by omega)]
        simp only [Option.bind_eq_bind, Option.bind_some]
        rw [skipSpace_cons (by decide)]
        simp only [if_true]
        rw [ih hlast hvs (by omega)]
        rfl

lemma length_memberText (gap : List Char) (k : Str) (text : List Char) :
    text.length + 3 ≤ (memberText gap k text).length := by
  simp only [memberText, quote, List.length_append, List.length_cons, List.length_nil]
  omega

/-- One member, up to what follows its value. -/
lemma parseMembers_memberText {gap indent nl rest : List Char} {k : Str} {v : Json}
    (hv : ReadsBack gap v) (hindent : Blank indent) (hnl : Blank nl) (hrest : EndsNumber rest)
    {fuel : Nat} (hfuel : (stringify gap indent v).length < fuel) :
    parseMembers (fuel + 1) (nl ++ (memberText gap k (stringify gap indent v) ++ rest)) =
      match skipSpace rest with
      | [] => none
      | c :: cs =>
          if c = ',' then
            (parseMembers fuel cs).map fun p => ((k, v.rearrange ownOrder) :: p.1, p.2)
          else if c = '}' then some ([(k, v.rearrange ownOrder)], cs)
          else none := by
  have hspace : Blank (if gap = [] then [] else [' ']) := by split <;> decide
  rw [parseMembers, skipSpace_append hnl, memberText, List.append_assoc, parseUnits_quote,
    skipSpace_cons (by decide)]
  simp only [List.head?_cons, if_true, List.tail_cons, parseUnits_quoteUnits, Option.bind_eq_bind,
    Option.bind_some, List.cons_append, List.append_assoc]
  rw [skipSpace_cons (by decide)]
  simp only [List.head?_cons, if_true, List.tail_cons]
  rw [parseValue_append hspace, hv indent rest fuel hindent hrest hfuel]
  rfl

lemma parseMembers_text {gap indent nl nl' : List Char} (rest : List Char)
    {members : List (Str × Json)} (hne : members ≠ []) (hread : ∀ m ∈ members, ReadsBack gap m.2)
    (hindent : Blank indent)
    (hnl : Blank nl) (hnl' : ∀ rest, EndsNumber (nl' ++ ('}' :: rest))) (hblank : Blank nl')
    {fuel : Nat}
    (hfuel : (join (',' :: nl) (stringifyMembers gap indent members)).length + 1 < fuel) :
    parseMembers fuel (nl ++ (join (',' :: nl) (stringifyMembers gap indent members) ++
      (nl' ++ ('}' :: rest)))) = some (rearrangeMembers ownOrder members, rest) := by
  induction members generalizing fuel with
  | nil => exact absurd rfl hne
  | cons m ms ih =>
      obtain ⟨fuel, rfl⟩ : ∃ n, fuel = n + 1 := ⟨fuel - 1, by omega⟩
      obtain ⟨hm, hms⟩ := List.forall_mem_cons.mp hread
      have hlength := length_memberText gap m.1 (stringify gap indent m.2)
      rw [stringifyMembers, join_cons] at hfuel ⊢
      by_cases hlast : ms = []
      · subst hlast
        simp only [stringifyMembers, if_true, List.append_nil] at hfuel ⊢
        rw [parseMembers_memberText hm hindent hnl (hnl' rest) (by omega), skipSpace_append hblank,
          skipSpace_cons (by decide)]
        rfl
      · rw [if_neg (stringifyMembers_ne_nil _ _ hlast)] at hfuel ⊢
        simp only [List.length_append, List.length_cons, List.cons_append,
          List.append_assoc] at hfuel ⊢
        rw [parseMembers_memberText hm hindent hnl (endsNumber_comma _) (by omega),
          skipSpace_cons (by decide)]
        simp only [if_true]
        rw [ih hlast hms (by omega)]
        rfl

lemma length_bracket {opening closing : Char} {gap indent : List Char} {texts : List (List Char)}
    (h : texts ≠ []) :
    (join (',' :: newline gap (indent ++ gap)) texts).length + 2 ≤
      (bracket opening closing gap indent texts).length := by
  rw [bracket, if_neg h]
  simp only [List.length_cons, List.length_append, List.length_nil]
  omega

lemma readsBack_keyword {gap : List Char} {v : Json} {c : Char} {word : List Char}
    (htext : ∀ indent, stringify gap indent v = c :: word)
    (hparse :
      ∀ fuel rest, parseValue (fuel + 1) (c :: (word ++ rest)) = keyword word v (word ++ rest))
    (hv : v.rearrange ownOrder = v) : ReadsBack gap v := by
  intro indent rest fuel _ _ hfuel
  obtain ⟨fuel, rfl⟩ : ∃ n, fuel = n + 1 := ⟨fuel - 1, by omega⟩
  rw [htext, List.cons_append, hparse, keyword, if_pos (List.prefix_append _ _), List.drop_left, hv]

lemma readsBack_str (gap : List Char) (s : Str) : ReadsBack gap (.str s) := by
  intro indent rest fuel _ _ hfuel
  obtain ⟨fuel, rfl⟩ : ∃ n, fuel = n + 1 := ⟨fuel - 1, by omega⟩
  rw [stringify, parseUnits_quote, parseValue, skipSpace_cons (by decide)]
  simp only [if_true, parseUnits_quoteUnits]
  rfl

lemma readsBack_num (gap : List Char) (n : Number) : ReadsBack gap (.num n) := by
  intro indent rest fuel _ hrest hfuel
  obtain ⟨fuel, rfl⟩ : ∃ n, fuel = n + 1 := ⟨fuel - 1, by omega⟩
  obtain ⟨c, cs, htext, hc⟩ := exists_number_text n
  have hne : ∀ d, ¬ (d.isDigit ∨ d = '-') → c ≠ d := fun d hd hcd => hd (hcd ▸ hc)
  have hspace : isSpace c = false := by
    simp only [isSpace, Bool.or_eq_false_iff, decide_eq_false_iff_not]
    exact ⟨⟨⟨hne _ (by decide), hne _ (by decide)⟩, hne _ (by decide)⟩, hne _ (by decide)⟩
  have hparse := parseNumber_text n hrest
  rw [htext, List.cons_append] at hparse
  rw [stringify, htext, List.cons_append, parseValue, skipSpace_cons hspace]
  simp only [if_neg (hne '"' (by decide)), if_neg (hne '[' (by decide)),
    if_neg (hne '{' (by decide)), if_neg (hne 'n' (by decide)), if_neg (hne 't' (by decide)),
    if_neg (hne 'f' (by decide)), hparse]
  rfl

/-- No value starts with white space or with a closing bracket. -/
lemma exists_stringify (gap indent : List Char) (v : Json) :
    ∃ c cs, stringify gap indent v = c :: cs ∧ isSpace c = false ∧ c ≠ ']' := by
  cases v with
  | null => exact ⟨'n', _, rfl, by decide⟩
  | bool b =>
      cases b with
      | true => exact ⟨'t', _, rfl, by decide⟩
      | false => exact ⟨'f', _, rfl, by decide⟩
  | num n =>
      obtain ⟨c, cs, htext, hc⟩ := exists_number_text n
      have hne : ∀ d, ¬ (d.isDigit ∨ d = '-') → c ≠ d := fun d hd hcd => hd (hcd ▸ hc)
      refine ⟨c, cs, htext, ?_, hne _ (by decide)⟩
      simp only [isSpace, Bool.or_eq_false_iff, decide_eq_false_iff_not]
      exact ⟨⟨⟨hne _ (by decide), hne _ (by decide)⟩, hne _ (by decide)⟩, hne _ (by decide)⟩
  | str s => exact ⟨'"', _, rfl, by decide⟩
  | arr items =>
      rw [stringify, bracket]
      split
      · exact ⟨'[', _, rfl, by decide⟩
      · exact ⟨'[', _, rfl, by decide⟩
  | obj members =>
      rw [stringify, bracket]
      split
      · exact ⟨'{', _, rfl, by decide⟩
      · exact ⟨'{', _, rfl, by decide⟩

lemma head?_texts {nl t cs : List Char} {c : Char} (sep rest : List Char) (ts : List (List Char))
    (hnl : Blank nl) (ht : t = c :: cs) (hc : isSpace c = false) :
    (skipSpace (nl ++ (join sep (t :: ts) ++ rest))).head? = some c := by
  subst ht
  rw [skipSpace_append hnl, join_cons, List.cons_append, List.cons_append, skipSpace_cons hc]
  rfl

lemma readsBack_arr {gap : List Char} (hgap : Blank gap) {items : List Json}
    (hread : ∀ v ∈ items, ReadsBack gap v) : ReadsBack gap (.arr items) := by
  intro indent rest fuel hindent _ hfuel
  obtain ⟨fuel, rfl⟩ : ∃ n, fuel = n + 1 := ⟨fuel - 1, by omega⟩
  rw [stringify] at hfuel ⊢
  by_cases hnil : items = []
  · subst hnil
    simp only [stringifyItems, bracket, if_true, List.cons_append, List.nil_append]
    rw [parseValue, skipSpace_cons (by decide)]
    simp only [Char.reduceEq, if_false, if_true]
    rw [skipSpace_cons (by decide)]
    rfl
  · have hdeeper : Blank (indent ++ gap) := List.forall_mem_append.mpr ⟨hindent, hgap⟩
    have hnl := blank_newline gap hdeeper
    have hlength := @length_bracket '[' ']' gap indent _
      (stringifyItems_ne_nil gap (indent ++ gap) hnil)
    have hitems := parseItems_text rest hnil hread hdeeper hnl
      (fun rest => endsNumber_newline (by decide) rest) (blank_newline gap hindent)
      (by omega : _ < fuel)
    rw [bracket, if_neg (stringifyItems_ne_nil _ _ hnil)]
    simp only [List.cons_append, List.append_assoc, List.nil_append]
    rw [parseValue, skipSpace_cons (by decide)]
    simp only [Char.reduceEq, if_false, if_true]
    obtain ⟨v, vs, rfl⟩ := List.exists_cons_of_ne_nil hnil
    obtain ⟨c, cs, hc, hspace, hbracket⟩ := exists_stringify gap (indent ++ gap) v
    have hhead :=
      head?_texts (',' :: newline gap (indent ++ gap)) (newline gap indent ++ (']' :: rest))
      (stringifyItems gap (indent ++ gap) vs) hnl hc hspace
    rw [← stringifyItems] at hhead
    rw [hhead, if_neg (by simpa using hbracket), hitems]
    rfl

lemma readsBack_obj {gap : List Char} (hgap : Blank gap) {members : List (Str × Json)}
    (hnodup : (members.map Prod.fst).Nodup) (hread : ∀ m ∈ members, ReadsBack gap m.2) :
    ReadsBack gap (.obj members) := by
  intro indent rest fuel hindent _ hfuel
  obtain ⟨fuel, rfl⟩ : ∃ n, fuel = n + 1 := ⟨fuel - 1, by omega⟩
  rw [stringify] at hfuel ⊢
  by_cases hnil : members = []
  · subst hnil
    simp only [stringifyMembers, bracket, if_true, List.cons_append, List.nil_append]
    rw [parseValue, skipSpace_cons (by decide)]
    simp only [Char.reduceEq, if_false, if_true]
    have hempty : ownOrder [] = [] := (ownOrder_perm []).eq_nil
    rw [skipSpace_cons (by decide), Json.rearrange, rearrangeMembers, hempty]
    rfl
  · have hdeeper : Blank (indent ++ gap) := List.forall_mem_append.mpr ⟨hindent, hgap⟩
    have hnl := blank_newline gap hdeeper
    have hlength := @length_bracket '{' '}' gap indent _
      (stringifyMembers_ne_nil gap (indent ++ gap) hnil)
    have hmembers := parseMembers_text rest hnil hread hdeeper hnl
      (fun rest => endsNumber_newline (by decide) rest) (blank_newline gap hindent)
      (by omega : _ < fuel)
    rw [bracket, if_neg (stringifyMembers_ne_nil _ _ hnil)]
    simp only [List.cons_append, List.append_assoc, List.nil_append]
    rw [parseValue, skipSpace_cons (by decide)]
    simp only [Char.reduceEq, if_false, if_true]
    obtain ⟨m, ms, rfl⟩ := List.exists_cons_of_ne_nil hnil
    have hhead :=
      head?_texts (',' :: newline gap (indent ++ gap)) (newline gap indent ++ ('}' :: rest))
      (stringifyMembers gap (indent ++ gap) ms) hnl
      (rfl : memberText gap m.1 (stringify gap (indent ++ gap) m.2) = '"' :: _)
      (by decide : isSpace '"' = false)
    rw [← stringifyMembers] at hhead
    rw [hhead, if_neg (by decide), hmembers]
    have hkeys : ((rearrangeMembers ownOrder (m :: ms)).map Prod.fst).Nodup := by
      rw [rearrangeMembers_eq, List.map_map]
      exact hnodup
    simp only [Option.map_some, fromEntries_eq hkeys]
    rfl

/-- **A printed value reads back**, its keys in the order of the language. -/
theorem readsBack {gap : List Char} (hgap : Blank gap) {v : Json} (hv : v.proper = true) :
    ReadsBack gap v := by
  induction v with
  | null => exact readsBack_keyword (fun _ => rfl) (fun _ _ => rfl) rfl
  | bool b =>
      cases b with
      | true => exact readsBack_keyword (fun _ => rfl) (fun _ _ => rfl) rfl
      | false => exact readsBack_keyword (fun _ => rfl) (fun _ _ => rfl) rfl
  | num n => exact readsBack_num gap n
  | str s => exact readsBack_str gap s
  | arr items ih => exact readsBack_arr hgap fun v hmem => ih v hmem (proper_arr.mp hv v hmem)
  | obj members ih =>
      have hproper := proper_obj.mp hv
      exact readsBack_obj hgap hproper.1 fun m hmem => ih m hmem (hproper.2 m hmem)

theorem parse_stringify {gap ws : List Char} (hgap : Blank gap) (hws : Blank ws) {v : Json}
    (hv : v.proper = true) : parse (stringify gap [] v ++ ws) = some (v.rearrange ownOrder) := by
  have hends : EndsNumber ws := by
    intro c hc
    have hspace := hws c (List.mem_of_head? hc)
    simp only [isSpace, Bool.or_eq_true, decide_eq_true_eq] at hspace
    rcases hspace with ((rfl | rfl) | rfl) | rfl <;> decide
  have hempty : skipSpace ws = [] := by
    rw [skipSpace, List.dropWhile_eq_nil_iff]
    exact hws
  have hread := readsBack hgap hv [] ws ((stringify gap [] v ++ ws).length + 1)
    (by decide) hends (by simp only [List.length_append]; omega)
  rw [parse, hread]
  exact if_pos hempty

/-! ### What is read of a value -/

/-- Into an object or an array. -/
inductive Step
  | key (k : Str)
  | index (i : Nat)
deriving DecidableEq

/-- What a value is, its parts apart. -/
inductive Shape
  | null
  | bool (b : Bool)
  | num (n : Number)
  | str (s : Str)
  | arr
  | obj
deriving DecidableEq

namespace Json

/-- What a value is without what is inside it. -/
def shape : Json → Shape
  | .null => .null
  | .bool b => .bool b
  | .num n => .num n
  | .str s => .str s
  | .arr _ => .arr
  | .obj _ => .obj

/-- What one step of a path leads to. -/
def get : Json → Step → Option Json
  | .obj members, .key k => members.lookup k
  | .arr items, .index i => items[i]?
  | _, _ => none

/-- What is at the end of a path, if it leads anywhere. -/
def read : Json → List Step → Option Shape
  | v, [] => some v.shape
  | v, s :: path => (v.get s).bind fun w => w.read path

end Json

/-- With every key once, a lookup is a membership. -/
lemma lookup_eq_some_iff_mem {β : Type*} {l : List (Str × β)} (h : (l.map Prod.fst).Nodup)
    {k : Str} {v : β} : l.lookup k = some v ↔ (k, v) ∈ l := by
  induction l with
  | nil => simp
  | cons m ms ih =>
      obtain ⟨k', v'⟩ := m
      obtain ⟨hnew, hnodup⟩ := List.nodup_cons.mp h
      by_cases hk : k = k'
      · subst hk
        rw [List.lookup_cons_self, List.mem_cons, Option.some.injEq, Prod.mk.injEq]
        refine ⟨fun hv => Or.inl ⟨rfl, hv.symm⟩, fun hmem => ?_⟩
        rcases hmem with ⟨-, hv⟩ | hmem
        · exact hv.symm
        · exact absurd (List.mem_map_of_mem hmem) hnew
      · rw [List.lookup_cons, beq_false_of_ne hk, ih hnodup, List.mem_cons, Prod.mk.injEq]
        simp [hk]

lemma lookup_perm {β : Type*} {l l' : List (Str × β)} (h : (l.map Prod.fst).Nodup)
    (hperm : l'.Perm l) (k : Str) : l'.lookup k = l.lookup k := by
  have h' : (l'.map Prod.fst).Nodup := (hperm.map _).nodup_iff.mpr h
  ext v
  rw [lookup_eq_some_iff_mem h', lookup_eq_some_iff_mem h, hperm.mem_iff]

lemma lookup_map {α β : Type*} (g : α → β) (l : List (Str × α)) (k : Str) :
    (l.map fun m => (m.1, g m.2)).lookup k = (l.lookup k).map g := by
  induction l with
  | nil => rfl
  | cons m ms ih =>
      rw [List.map_cons, List.lookup_cons, List.lookup_cons, ih]
      cases k == m.1 <;> rfl

lemma get_proper {v w : Json} {s : Step} (hv : v.proper = true) (hget : v.get s = some w) :
    w.proper = true := by
  cases v with
  | arr items =>
      cases s with
      | index i => exact proper_arr.mp hv w (List.mem_of_getElem? hget)
      | key k => cases hget
  | obj members =>
      cases s with
      | key k =>
          have hproper := proper_obj.mp hv
          exact hproper.2 (k, w) ((lookup_eq_some_iff_mem hproper.1).mp hget)
      | index i => cases hget
  | null => cases s <;> cases hget
  | bool b => cases s <;> cases hget
  | num n => cases s <;> cases hget
  | str t => cases s <;> cases hget

section Rearrange

variable {f : List (Str × Json) → List (Str × Json)}

lemma get_rearrange (hf : ∀ l, (f l).Perm l) {v : Json} (hv : v.proper = true) (s : Step) :
    (v.rearrange f).get s = (v.get s).map (Json.rearrange f) := by
  cases v with
  | arr items =>
      cases s with
      | index i =>
          rw [Json.rearrange, rearrangeItems_eq]
          exact List.getElem?_map
      | key k => rfl
  | obj members =>
      cases s with
      | key k =>
          have hkeys : ((rearrangeMembers f members).map Prod.fst).Nodup := by
            rw [rearrangeMembers_eq, List.map_map]
            exact (proper_obj.mp hv).1
          calc ((Json.obj members).rearrange f).get (.key k)
              = (f (rearrangeMembers f members)).lookup k := rfl
            _ = (rearrangeMembers f members).lookup k := lookup_perm hkeys (hf _) k
            _ = (members.lookup k).map (Json.rearrange f) := by
                rw [rearrangeMembers_eq, lookup_map]
      | index i => rfl
  | null => cases s <;> rfl
  | bool b => cases s <;> rfl
  | num n => cases s <;> rfl
  | str t => cases s <;> rfl

/-- **The order of the keys does not show.** -/
theorem read_rearrange (hf : ∀ l, (f l).Perm l) {v : Json} (hv : v.proper = true)
    (path : List Step) : (v.rearrange f).read path = v.read path := by
  induction path generalizing v with
  | nil => cases v <;> rfl
  | cons s path ih =>
      rw [Json.read, Json.read, get_rearrange hf hv]
      cases hget : v.get s with
      | none => rfl
      | some w => exact ih (get_proper hv hget)

end Rearrange

/-- **One text, one value** up to the order of its keys. -/
theorem stringify_injective {gap : List Char} (hgap : Blank gap) {v w : Json}
    (hv : v.proper = true) (hw : w.proper = true)
    (htext : stringify gap [] v = stringify gap [] w) (path : List Step) :
    v.read path = w.read path := by
  have hnil : Blank [] := by decide
  have hparse := (parse_stringify hgap hnil hv).symm.trans
    ((congrArg (fun t => parse (t ++ [])) htext).trans (parse_stringify hgap hnil hw))
  rw [← read_rearrange ownOrder_perm hv, ← read_rearrange ownOrder_perm hw,
    Option.some.inj hparse]

end JsonText
