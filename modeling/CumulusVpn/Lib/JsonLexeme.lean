/-
The strings and the numbers of a JSON text.

Strings are sequences of UTF-16 code units, lone surrogates among them; a
finite number is its shortest decimal.

* `quoteUnits`, `parseUnits`: the inside of a string literal;
* `parseUnits_quoteUnits`: **a quoted string reads back**, whatever its units;
* `charsOf_flatMap_units`: the characters of a string that has some;
* `Digits`, `Number`: a decimal without superfluous zeros, and where its point
  stands;
* `Number.text`, `parseNumber`: integers, fractions and exponents;
* `parseNumber_text`: **a printed number reads back**.
-/
import CumulusVpn.Lib.Decimal

namespace JsonText

/-! ### Strings -/

/-- The code units of a string. -/
abbrev Str := List UInt16

/-- A string of characters outside the surrogates. -/
def ascii (cs : String) : Str := cs.toList.map fun c => UInt16.ofNat c.toNat

/-- The first half of a surrogate pair. -/
def isLead (u : UInt16) : Bool := 0xD800 ≤ u.toNat && u.toNat < 0xDC00

/-- The second half of a surrogate pair. -/
def isTrail (u : UInt16) : Bool := 0xDC00 ≤ u.toNat && u.toNat < 0xE000

/-- The character of a surrogate pair. -/
def pairChar (lead trail : UInt16) : Char :=
  Char.ofNat (0x10000 + (lead.toNat - 0xD800) * 0x400 + (trail.toNat - 0xDC00))

/-- The code units of a character. -/
def units (c : Char) : Str :=
  if c.toNat < 0x10000 then [UInt16.ofNat c.toNat]
  else [UInt16.ofNat (0xD800 + (c.toNat - 0x10000) / 0x400),
    UInt16.ofNat (0xDC00 + (c.toNat - 0x10000) % 0x400)]

/-- The units with an escape of one character. -/
def escapes : List (UInt16 × Char) :=
  [(8, 'b'), (9, 't'), (10, 'n'), (12, 'f'), (13, 'r'), (34, '"'), (92, '\\')]

/-- Four hex digits, in lower case. -/
def hex4 (n : Nat) : List Char :=
  [(n / 4096 % 16).digitChar, (n / 256 % 16).digitChar, (n / 16 % 16).digitChar,
    (n % 16).digitChar]

/-- A unit that is no half of a pair. -/
def quoteUnit (u : UInt16) : List Char :=
  match escapes.lookup u with
  | some c => ['\\', c]
  | none =>
      if u.toNat < 0x20 ∨ isLead u ∨ isTrail u then '\\' :: 'u' :: hex4 u.toNat
      else [Char.ofNat u.toNat]

/-- The inside of the literal of a string. -/
def quoteUnits : Str → List Char
  | [] => []
  | [u] => quoteUnit u
  | u :: v :: us =>
      if isLead u ∧ isTrail v then pairChar u v :: quoteUnits us
      else quoteUnit u ++ quoteUnits (v :: us)

/-- The literal of a text. -/
def quote (s : Str) : List Char := '"' :: (quoteUnits s ++ ['"'])

/-- The unit behind a backslash. -/
def unescape (c : Char) : Option UInt16 :=
  if c = '/' then some 47 else (escapes.find? fun e => e.2 = c).map Prod.fst

/-- The value of a hex digit, in either case. -/
def hexValue (c : Char) : Option Nat :=
  if c.isDigit then some (c.toNat - 48)
  else if 'a' ≤ c ∧ c ≤ 'f' then some (c.toNat - 87)
  else if 'A' ≤ c ∧ c ≤ 'F' then some (c.toNat - 55)
  else none

/-- The units up to the closing quote, and the text behind it. -/
def parseUnits : List Char → Option (Str × List Char)
  | [] => none
  | c :: cs =>
      if c = '"' then some ([], cs)
      else if c = '\\' then
        match cs with
        | [] => none
        | e :: cs =>
            if e = 'u' then
              match cs with
              | a :: b :: x :: y :: cs => do
                  let u := UInt16.ofNat (((← hexValue a) * 16 + (← hexValue b)) * 256 +
                    ((← hexValue x) * 16 + (← hexValue y)))
                  let (us, rest) ← parseUnits cs
                  some (u :: us, rest)
              | _ => none
            else do
              let u ← unescape e
              let (us, rest) ← parseUnits cs
              some (u :: us, rest)
      else if c.toNat < 0x20 then none
      else do
        let (us, rest) ← parseUnits cs
        some (units c ++ us, rest)

lemma hexValue_digitChar : ∀ d < 16, hexValue d.digitChar = some d := by decide

lemma unescape_escapes : ∀ e ∈ escapes, e.2 ≠ 'u' ∧ unescape e.2 = some e.1 := by decide

/-- What reads back as the unit `u`. -/
def ReadsAs (us : Str) (text : List Char) : Prop :=
  ∀ cs, parseUnits (text ++ cs) = (parseUnits cs).map fun p => (us ++ p.1, p.2)

lemma readsAs_escape {e : UInt16 × Char} (he : e ∈ escapes) : ReadsAs [e.1] ['\\', e.2] := by
  intro cs
  obtain ⟨hu, hunescape⟩ := unescape_escapes e he
  change parseUnits ('\\' :: e.2 :: cs) = _
  rw [parseUnits.eq_def]
  simp only [Char.reduceEq, if_true, if_false, if_neg hu, hunescape, Option.bind_eq_bind,
    Option.bind_some]
  cases parseUnits cs <;> rfl

lemma readsAs_hex4 (u : UInt16) : ReadsAs [u] ('\\' :: 'u' :: hex4 u.toNat) := by
  intro cs
  have hlt : u.toNat < 65536 := u.toNat_lt
  have hvalue : ∀ d, hexValue (d % 16).digitChar = some (d % 16) := fun d =>
    hexValue_digitChar _ (Nat.mod_lt _ (by decide))
  have hsum : ((u.toNat / 4096 % 16) * 16 + u.toNat / 256 % 16) * 256 +
      ((u.toNat / 16 % 16) * 16 + u.toNat % 16) = u.toNat := by
    omega
  change parseUnits ('\\' :: 'u' :: _ :: _ :: _ :: _ :: cs) = _
  rw [parseUnits.eq_def]
  simp only [Char.reduceEq, if_true, if_false, hvalue, Option.bind_eq_bind, Option.bind_some, hsum,
    UInt16.ofNat_toNat]
  cases parseUnits cs <;> rfl

lemma readsAs_char {c : Char} (hquote : c ≠ '"') (hslash : c ≠ '\\') (hcontrol : 0x20 ≤ c.toNat) :
    ReadsAs (units c) [c] := by
  intro cs
  change parseUnits (c :: cs) = _
  rw [parseUnits.eq_def]
  simp only [if_neg hquote, if_neg hslash, if_neg (not_lt.mpr hcontrol), Option.bind_eq_bind]
  cases parseUnits cs <;> rfl

lemma toNat_ofNat {n : Nat} (h : n.isValidChar) : (Char.ofNat n).toNat = n := by
  rw [Char.ofNat, dif_pos h]
  rfl

lemma toNat_escape : ∀ e ∈ escapes, (Char.ofNat e.1.toNat).toNat = e.1.toNat := by decide

lemma readsAs_quoteUnit (u : UInt16) : ReadsAs [u] (quoteUnit u) := by
  rw [quoteUnit]
  split
  · rename_i c hlookup
    obtain ⟨l, l', hsplit, -⟩ := List.lookup_eq_some_iff.mp hlookup
    exact readsAs_escape (hsplit ▸ List.mem_append_right _ List.mem_cons_self)
  · rename_i hlookup
    split
    · exact readsAs_hex4 u
    · rename_i hplain
      have hlt : u.toNat < 65536 := u.toNat_lt
      have hsurrogate : ¬ (0xD800 ≤ u.toNat ∧ u.toNat < 0xE000) := by
        simp only [isLead, isTrail, Bool.and_eq_true, decide_eq_true_eq, not_or] at hplain
        omega
      have hvalid : u.toNat.isValidChar := by
        rw [Nat.isValidChar]
        omega
      have hchar := toNat_ofNat hvalid
      have hunits : units (Char.ofNat u.toNat) = [u] := by
        rw [units, hchar, if_pos hlt, UInt16.ofNat_toNat]
      rw [← hunits]
      have hne : ∀ e ∈ escapes, Char.ofNat u.toNat ≠ Char.ofNat e.1.toNat := by
        intro e he heq
        have hnat := congrArg Char.toNat heq
        rw [hchar, toNat_escape e he] at hnat
        have hkey := List.lookup_eq_none_iff.mp hlookup e he
        rw [UInt16.toNat_inj.mp hnat] at hkey
        simp at hkey
      refine readsAs_char ?_ ?_ (by rw [hchar]; omega)
      · exact hne (34, '"') (by decide)
      · exact hne (92, '\\') (by decide)

lemma readsAs_pairChar {u v : UInt16} (hu : isLead u) (hv : isTrail v) :
    ReadsAs [u, v] [pairChar u v] := by
  simp only [isLead, isTrail, Bool.and_eq_true, decide_eq_true_eq] at hu hv
  have hvalid : (0x10000 + (u.toNat - 0xD800) * 0x400 + (v.toNat - 0xDC00)).isValidChar := by
    rw [Nat.isValidChar]
    omega
  have hchar := toNat_ofNat hvalid
  have hunits : units (pairChar u v) = [u, v] := by
    have hlead : 0xD800 + (0x10000 + (u.toNat - 0xD800) * 0x400 + (v.toNat - 0xDC00) - 0x10000) /
        0x400 = u.toNat := by omega
    have htrail : 0xDC00 + (0x10000 + (u.toNat - 0xD800) * 0x400 + (v.toNat - 0xDC00) - 0x10000) %
        0x400 = v.toNat := by omega
    rw [units, pairChar, hchar, if_neg (by omega), hlead, htrail, UInt16.ofNat_toNat,
      UInt16.ofNat_toNat]
  rw [← hunits]
  have hlarge : 0x10000 ≤ (pairChar u v).toNat := by
    rw [pairChar, hchar]
    omega
  refine readsAs_char ?_ ?_ (le_trans (by decide) hlarge)
  · rintro heq
    rw [heq] at hlarge
    exact absurd hlarge (by decide)
  · rintro heq
    rw [heq] at hlarge
    exact absurd hlarge (by decide)

lemma parseUnits_end (rest : List Char) : parseUnits ('"' :: rest) = some ([], rest) := by
  rw [parseUnits.eq_def]
  simp only [if_true]

/-- **A quoted string reads back.** -/
theorem parseUnits_quoteUnits (s : Str) (rest : List Char) :
    parseUnits (quoteUnits s ++ '"' :: rest) = some (s, rest) := by
  induction s using quoteUnits.induct with
  | case1 => exact parseUnits_end rest
  | case2 u =>
      rw [quoteUnits, readsAs_quoteUnit u, parseUnits_end]
      rfl
  | case3 u v us hpair ih =>
      rw [quoteUnits, if_pos hpair]
      have hread := readsAs_pairChar hpair.1 hpair.2 (quoteUnits us ++ '"' :: rest)
      rw [ih] at hread
      exact hread
  | case4 u v us hpair ih =>
      rw [quoteUnits, if_neg hpair, List.append_assoc, readsAs_quoteUnit u, ih]
      rfl

/-- The characters of a string; `none` where half a surrogate pair stands
alone. -/
def charsOf : Str → Option (List Char)
  | [] => some []
  | [u] => if isLead u ∨ isTrail u then none else some [Char.ofNat u.toNat]
  | u :: v :: us =>
      if isLead u ∧ isTrail v then (charsOf us).map (pairChar u v :: ·)
      else if isLead u ∨ isTrail u then none
      else (charsOf (v :: us)).map (Char.ofNat u.toNat :: ·)

lemma charsOf_cons {u : UInt16} (hlead : isLead u = false) (htrail : isTrail u = false) (us : Str) :
    charsOf (u :: us) = (charsOf us).map (Char.ofNat u.toNat :: ·) := by
  cases us with
  | nil => simp [charsOf, hlead, htrail]
  | cons v us => simp [charsOf, hlead, htrail]

/-- The units of a character read back. -/
lemma charsOf_units_append (c : Char) (us : Str) :
    charsOf (units c ++ us) = (charsOf us).map (c :: ·) := by
  have hvalid : c.toNat < 0xD800 ∨ 0xDFFF < c.toNat ∧ c.toNat < 0x110000 := c.valid
  rw [units]
  split
  · rename_i hsmall
    have hunit : (UInt16.ofNat c.toNat).toNat = c.toNat := UInt16.toNat_ofNat_of_lt' hsmall
    have hlead : isLead (UInt16.ofNat c.toNat) = false := by
      simp only [isLead, hunit, Bool.and_eq_false_iff, decide_eq_false_iff_not]
      omega
    have htrail : isTrail (UInt16.ofNat c.toNat) = false := by
      simp only [isTrail, hunit, Bool.and_eq_false_iff, decide_eq_false_iff_not]
      omega
    rw [List.singleton_append, charsOf_cons hlead htrail, hunit, Char.ofNat_toNat]
  · rename_i hlarge
    have hu : (UInt16.ofNat (0xD800 + (c.toNat - 0x10000) / 0x400)).toNat =
        0xD800 + (c.toNat - 0x10000) / 0x400 := UInt16.toNat_ofNat_of_lt' (by
      rw [UInt16.size]
      omega)
    have hv : (UInt16.ofNat (0xDC00 + (c.toNat - 0x10000) % 0x400)).toNat =
        0xDC00 + (c.toNat - 0x10000) % 0x400 := UInt16.toNat_ofNat_of_lt' (by
      rw [UInt16.size]
      omega)
    have hpair : pairChar (UInt16.ofNat (0xD800 + (c.toNat - 0x10000) / 0x400))
        (UInt16.ofNat (0xDC00 + (c.toNat - 0x10000) % 0x400)) = c := by
      have hpoint : 0x10000 + (0xD800 + (c.toNat - 0x10000) / 0x400 - 0xD800) * 0x400 +
          (0xDC00 + (c.toNat - 0x10000) % 0x400 - 0xDC00) = c.toNat := by omega
      rw [pairChar, hu, hv, hpoint, Char.ofNat_toNat]
    rw [List.cons_append, List.singleton_append, charsOf, if_pos, hpair]
    simp only [isLead, isTrail, hu, hv, Bool.and_eq_true, decide_eq_true_eq]
    omega

/-- **Characters read back from their units.** -/
theorem charsOf_flatMap_units (cs : List Char) : charsOf (cs.flatMap units) = some cs := by
  induction cs with
  | nil => rfl
  | cons c cs ih => rw [List.flatMap_cons, charsOf_units_append, ih, Option.map_some]

/-! ### Numbers -/

/-- The digits of a number without zeros at either end. -/
def IsSignificand (ds : List Char) : Prop :=
  ds ≠ [] ∧ (∀ c ∈ ds, c.isDigit) ∧ ds.head? ≠ some '0' ∧ ds.getLast? ≠ some '0'

instance (ds : List Char) : Decidable (IsSignificand ds) :=
  @instDecidableAnd _ _ _ (@instDecidableAnd _ _ (List.decidableBAll _ ds) _)

/-- A finite number, as its shortest decimal: zero, or `0.ds` with the point
moved by `point` places. -/
inductive Number
  | zero
  | decimal (negative : Bool) (ds : {ds : List Char // IsSignificand ds}) (point : Int)
deriving DecidableEq

/-- The integer digits, the digits behind the point and the exponent. -/
structure Parts where
  int : List Char
  frac : List Char
  exponent : Option Int
deriving DecidableEq

/-- `Number::toString` -/
def parts (ds : List Char) (point : Int) : Parts :=
  if ds.length ≤ point ∧ point ≤ 21 then
    ⟨ds ++ List.replicate (point - ds.length).toNat '0', [], none⟩
  else if 0 < point ∧ point ≤ 21 then ⟨ds.take point.toNat, ds.drop point.toNat, none⟩
  else if -6 < point ∧ point ≤ 0 then
    ⟨['0'], List.replicate (-point).toNat '0' ++ ds, none⟩
  else ⟨ds.take 1, ds.drop 1, some (point - 1)⟩

/-- The digits behind the point, with it. -/
def fracText (frac : List Char) : List Char := if frac = [] then [] else '.' :: frac

/-- The exponent, which always has a sign. -/
def exponentText : Option Int → List Char
  | none => []
  | some e => 'e' :: (if 0 < e then '+' else '-') :: Nat.toDigits 10 e.natAbs

/-- The text of the parts. -/
def Parts.text (p : Parts) : List Char := p.int ++ (fracText p.frac ++ exponentText p.exponent)

/-- The text of a number. -/
def Number.text : Number → List Char
  | .zero => ['0']
  | .decimal negative ds point => (if negative then ['-'] else []) ++ (parts ds.1 point).text

example : (Number.decimal false ⟨['1'], by decide⟩ 22).text = "1e+21".toList ∧
    (Number.decimal true ⟨['1', '5'], by decide⟩ (-6)).text = "-1.5e-7".toList ∧
    (Number.decimal false ⟨['2', '5'], by decide⟩ (-1)).text = "0.025".toList := by decide

/-- The text in front of the first character that is no digit, and the rest. -/
def spanDigits (cs : List Char) : List Char × List Char :=
  (cs.takeWhile Char.isDigit, cs.dropWhile Char.isDigit)

/-- The digits behind a point, if there is one. -/
def parseFrac : List Char → Option (List Char × List Char)
  | '.' :: cs =>
      let (frac, rest) := spanDigits cs
      if frac = [] then none else some (frac, rest)
  | cs => some ([], cs)

/-- The exponent; zero if there is none. -/
def parseExponent : List Char → Option (Int × List Char)
  | [] => some (0, [])
  | c :: cs =>
      if c = 'e' ∨ c = 'E' then
        let (ds, rest) :=
          spanDigits (if cs.head? = some '+' ∨ cs.head? = some '-' then cs.tail else cs)
        if ds = [] then none
        else
          let e : Int := Nat.ofDigitChars 10 ds 0
          some (if cs.head? = some '-' then -e else e, rest)
      else some (0, c :: cs)

/-- The number `0.ds` with the point moved, whatever zeros there are. -/
def normal (negative : Bool) (ds : List Char) (point : Int) : Number :=
  let ds' := Decimal.stripZeros (ds.dropWhile (· = '0'))
  if h : IsSignificand ds' then
    .decimal negative ⟨ds', h⟩ (point - (ds.takeWhile (· = '0')).length)
  else .zero

/-- A number behind its sign. -/
def parseUnsigned (negative : Bool) (cs : List Char) : Option (Number × List Char) :=
  let (int, cs) := spanDigits cs
  if int = [] ∨ (int.head? = some '0' ∧ int ≠ ['0']) then none
  else do
    let (frac, cs) ← parseFrac cs
    let (e, cs) ← parseExponent cs
    some (normal negative (int ++ frac) (int.length + e), cs)

/-- A number and what follows it. -/
def parseNumber : List Char → Option (Number × List Char)
  | [] => none
  | c :: cs => if c = '-' then parseUnsigned true cs else parseUnsigned false (c :: cs)

/-- The number of an integer. -/
def Number.ofInt (n : Int) : Number :=
  normal (n < 0) (Nat.toDigits 10 n.natAbs) (Nat.toDigits 10 n.natAbs).length

/-- The integer that a number is; `none` for a fraction. -/
def Number.toInt? : Number → Option Int
  | .zero => some 0
  | .decimal negative ds point =>
      if ds.1.length ≤ point then
        let n : Int := Nat.ofDigitChars 10 ds.1 0 * 10 ^ (point - ds.1.length).toNat
        some (if negative then -n else n)
      else none

example : (Number.ofInt (-1200)).toInt? = some (-1200) := by decide +kernel

lemma stripZeros_replicate (n : Nat) : Decimal.stripZeros (List.replicate n '0') = [] := by
  rw [Decimal.stripZeros, List.reverse_replicate, List.dropWhile_replicate]
  simp

/-- Zeros at either end are not kept. -/
lemma normal_pad (negative : Bool) (ds : {ds : List Char // IsSignificand ds}) (z t : Nat)
    (point : Int) :
    normal negative (List.replicate z '0' ++ (ds.1 ++ List.replicate t '0')) point =
      .decimal negative ds (point - z) := by
  obtain ⟨ds, hds⟩ := ds
  have hstrip : Decimal.stripZeros (ds ++ List.replicate t '0') = ds := by
    obtain ⟨init, c, rfl⟩ := List.eq_nil_or_concat'  ds |>.resolve_left hds.1
    have hc : c ≠ '0' := fun h => hds.2.2.2 (by simp [h])
    rw [List.append_assoc, List.singleton_append, Decimal.stripZeros_append_cons hc,
      stripZeros_replicate]
  obtain ⟨c, cs, rfl⟩ := List.exists_cons_of_ne_nil hds.1
  have hc : c ≠ '0' := fun h => hds.2.2.1 (by simp [h])
  have hzeros : ∀ d ∈ List.replicate z '0', decide (d = '0') = true := fun d hd => by
    simpa using List.eq_of_mem_replicate hd
  have htake : (List.replicate z '0' ++ (c :: cs ++ List.replicate t '0')).takeWhile (· = '0') =
      List.replicate z '0' := by
    rw [List.takeWhile_append_of_pos hzeros, List.cons_append,
      List.takeWhile_cons_of_neg (by simpa using hc), List.append_nil]
  have hdrop : (List.replicate z '0' ++ (c :: cs ++ List.replicate t '0')).dropWhile (· = '0') =
      c :: cs ++ List.replicate t '0' := by
    rw [List.dropWhile_append_of_pos hzeros, List.cons_append,
      List.dropWhile_cons_of_neg (by simpa using hc)]
  rw [normal]
  simp only [htake, hdrop, hstrip, dif_pos hds, List.length_replicate]

/-- The text does not go on with what a number is made of. -/
def EndsNumber (rest : List Char) : Prop :=
  ∀ c, rest.head? = some c → ¬ c.isDigit ∧ c ≠ '.' ∧ c ≠ 'e' ∧ c ≠ 'E'

lemma spanDigits_append {ds rest : List Char} (hds : ∀ c ∈ ds, c.isDigit)
    (hrest : ∀ c, rest.head? = some c → ¬ c.isDigit) : spanDigits (ds ++ rest) = (ds, rest) := by
  rw [spanDigits, List.takeWhile_append_of_pos hds, List.dropWhile_append_of_pos hds]
  cases rest with
  | nil => simp
  | cons c rest =>
      have hc := hrest c rfl
      rw [List.takeWhile_cons_of_neg hc, List.dropWhile_cons_of_neg hc, List.append_nil]

lemma parseExponent_text (e : Option Int) {rest : List Char} (hrest : EndsNumber rest) :
    parseExponent (exponentText e ++ rest) = some (e.getD 0, rest) := by
  cases e with
  | none =>
      cases rest with
      | nil => rfl
      | cons c rest =>
          have hc := hrest c rfl
          rw [exponentText, List.nil_append, parseExponent, if_neg (by tauto)]
          rfl
  | some e =>
      have hspan := @spanDigits_append (Nat.toDigits 10 e.natAbs) rest
        (fun c hc => Nat.isDigit_of_mem_toDigits (by decide) (by decide) hc)
        fun c hc => (hrest c hc).1
      rw [exponentText, List.cons_append, List.cons_append, parseExponent, if_pos (Or.inl rfl)]
      by_cases hpos : 0 < e
      · simp only [if_pos hpos, List.head?_cons, List.tail_cons, true_or, if_true, hspan,
          if_neg Nat.toDigits_ne_nil, Nat.ofDigitChars_toDigits (b := 10) (by decide) (by decide)]
        simp
        omega
      · simp only [if_neg hpos, List.head?_cons, List.tail_cons, or_true, if_true, hspan,
          if_neg Nat.toDigits_ne_nil, Nat.ofDigitChars_toDigits (b := 10) (by decide) (by decide)]
        have habs : -((e.natAbs : Nat) : Int) = e := by omega
        rw [habs]
        rfl

lemma head?_exponentText {e : Option Int} {rest : List Char} (hrest : EndsNumber rest) {c : Char}
    (hc : (exponentText e ++ rest).head? = some c) : ¬ c.isDigit ∧ c ≠ '.' := by
  cases e with
  | none => exact ⟨(hrest c hc).1, (hrest c hc).2.1⟩
  | some e =>
      obtain rfl : 'e' = c := by simpa [exponentText] using hc
      decide

lemma parseFrac_text {frac rest : List Char} {e : Option Int} (hfrac : ∀ c ∈ frac, c.isDigit)
    (hrest : EndsNumber rest) :
    parseFrac (fracText frac ++ (exponentText e ++ rest)) =
      some (frac, exponentText e ++ rest) := by
  rw [fracText]
  split
  · rename_i hnil
    subst hnil
    cases htext : exponentText e ++ rest with
    | nil => rfl
    | cons c cs =>
        have hc := (head?_exponentText hrest (by rw [htext]; rfl : _ = some c)).2
        rw [List.nil_append, parseFrac.eq_def]
        split
        · rename_i hcons
          exact absurd (List.cons.inj hcons).1 hc
        · rfl
  · rename_i hne
    rw [List.cons_append, parseFrac,
      spanDigits_append hfrac fun c hc => (head?_exponentText hrest hc).1]
    simp only [if_neg hne]

/-- The parts are those of a number with zeros at its ends. -/
lemma parts_spec (ds : {ds : List Char // IsSignificand ds}) (point : Int) :
    (∃ z t, (parts ds.1 point).int ++ (parts ds.1 point).frac =
        List.replicate z '0' ++ (ds.1 ++ List.replicate t '0') ∧
      (parts ds.1 point).int.length + (parts ds.1 point).exponent.getD 0 = point + z) ∧
    (∀ c ∈ (parts ds.1 point).int, c.isDigit) ∧ (∀ c ∈ (parts ds.1 point).frac, c.isDigit) ∧
    (parts ds.1 point).int ≠ [] ∧
    ((parts ds.1 point).int.head? = some '0' → (parts ds.1 point).int = ['0']) := by
  obtain ⟨ds, hds⟩ := ds
  obtain ⟨c, cs, rfl⟩ := List.exists_cons_of_ne_nil hds.1
  have hc : c ≠ '0' := fun h => hds.2.2.1 (by simp [h])
  have hzero : ∀ n, ∀ d ∈ List.replicate n '0', d.isDigit := fun n d hd => by
    rw [List.eq_of_mem_replicate hd]
    decide
  dsimp only
  rw [parts]
  split
  · -- an integer
    rename_i hint
    refine ⟨⟨0, (point - (c :: cs).length).toNat, by simp, ?_⟩, fun d hd => ?_, by simp, by simp,
      by simp [hc]⟩
    · simp only [List.length_append, List.length_replicate, Option.getD_none]
      omega
    · rcases List.mem_append.mp hd with hd | hd
      · exact hds.2.1 d hd
      · exact hzero _ d hd
  · split
    · rename_i hpoint
      obtain ⟨n, hn⟩ : ∃ n : Nat, point.toNat = n + 1 := ⟨point.toNat - 1, by omega⟩
      refine ⟨⟨0, 0, by simp, ?_⟩, fun d hd => hds.2.1 d (List.mem_of_mem_take hd),
        fun d hd => hds.2.1 d (List.mem_of_mem_drop hd), ?_, ?_⟩
      · simp only [List.length_take, Option.getD_none]
        omega
      · rw [hn]
        simp
      · rw [hn]
        simp [hc]
    · split
      · rename_i hsmall
        refine ⟨⟨1 + (-point).toNat, 0, ?_, ?_⟩, by simp, fun d hd => ?_, by simp, by simp⟩
        · rw [List.replicate_add]
          simp
        · simp only [List.length_singleton, Option.getD_none]
          push_cast
          omega
        · rcases List.mem_append.mp hd with hd | hd
          · exact hzero _ d hd
          · exact hds.2.1 d hd
      · refine ⟨⟨0, 0, by simp, by simp⟩, fun d hd => hds.2.1 d (List.mem_of_mem_take hd),
          fun d hd => hds.2.1 d (List.mem_of_mem_drop hd), by simp, by simp [hc]⟩

/-- What is read of the parts. -/
lemma parseUnsigned_text (negative : Bool) {p : Parts} (hint : ∀ c ∈ p.int, c.isDigit)
    (hfrac : ∀ c ∈ p.frac, c.isDigit) (hne : p.int ≠ [])
    (hzero : p.int.head? = some '0' → p.int = ['0']) {rest : List Char}
    (hrest : EndsNumber rest) :
    parseUnsigned negative (p.text ++ rest) =
      some (normal negative (p.int ++ p.frac) (p.int.length + p.exponent.getD 0), rest) := by
  have hspan : spanDigits (p.text ++ rest) =
      (p.int, fracText p.frac ++ (exponentText p.exponent ++ rest)) := by
    rw [Parts.text, List.append_assoc, List.append_assoc]
    refine spanDigits_append hint fun c hc => ?_
    rw [fracText] at hc
    split at hc
    · exact (head?_exponentText hrest hc).1
    · obtain rfl : '.' = c := by simpa using hc
      decide
  have hlead : ¬ (p.int = [] ∨ (p.int.head? = some '0' ∧ p.int ≠ ['0'])) := by tauto
  rw [parseUnsigned, hspan]
  simp only [if_neg hlead, parseFrac_text hfrac hrest, parseExponent_text _ hrest,
    Option.bind_eq_bind, Option.bind_some]

/-- The text starts with a digit. -/
lemma exists_text {p : Parts} (hint : ∀ c ∈ p.int, c.isDigit) (hne : p.int ≠ []) :
    ∃ c cs, p.text = c :: cs ∧ c.isDigit := by
  obtain ⟨c, cs, hcs⟩ := List.exists_cons_of_ne_nil hne
  refine ⟨c, cs ++ (fracText p.frac ++ exponentText p.exponent), ?_,
    hint c (hcs ▸ List.mem_cons_self)⟩
  rw [Parts.text, hcs, List.cons_append]

/-- The text of a number starts with a digit or its sign. -/
lemma exists_number_text (n : Number) :
    ∃ c cs, n.text = c :: cs ∧ (c.isDigit ∨ c = '-') := by
  cases n with
  | zero => exact ⟨'0', [], rfl, by decide⟩
  | decimal negative ds point =>
      obtain ⟨-, hint, -, hne, -⟩ := parts_spec ds point
      obtain ⟨c, cs, htext, hdigit⟩ := exists_text hint hne
      cases negative with
      | true => exact ⟨'-', (parts ds.1 point).text, rfl, Or.inr rfl⟩
      | false => exact ⟨c, cs, htext, Or.inl hdigit⟩

/-- **A printed number reads back.** -/
theorem parseNumber_text (n : Number) {rest : List Char} (hrest : EndsNumber rest) :
    parseNumber (n.text ++ rest) = some (n, rest) := by
  cases n with
  | zero =>
      have hread := @parseUnsigned_text false ⟨['0'], [], none⟩ (by simp) (by simp)
        (List.cons_ne_nil '0' []) (fun _ => rfl) rest hrest
      exact hread
  | decimal negative ds point =>
      obtain ⟨⟨z, t, hpad, hpoint⟩, hint, hfrac, hne, hzero⟩ := parts_spec ds point
      have hnormal : normal negative ((parts ds.1 point).int ++ (parts ds.1 point).frac)
          ((parts ds.1 point).int.length + (parts ds.1 point).exponent.getD 0) =
          .decimal negative ds point := by
        rw [hpad, normal_pad, hpoint]
        congr 1
        omega
      have hread := parseUnsigned_text negative hint hfrac hne hzero hrest
      rw [hnormal] at hread
      cases negative with
      | true => exact hread
      | false =>
          obtain ⟨c, cs, htext, hdigit⟩ := exists_text hint hne
          have hsign : c ≠ '-' := by
            rintro rfl
            exact absurd hdigit (by decide)
          change parseNumber ((parts ds.1 point).text ++ rest) = _
          rw [htext, List.cons_append, parseNumber, if_neg hsign, ← List.cons_append, ← htext]
          exact hread

end JsonText
