/-
The round trip of the peer cache (`gateway/internal/wg/peercache.go`).

* `Graphic`, `Writable`: what a row carries unharmed;
* `parseRecord_rowText`: such a record is read from its row;
* `loadRecords_map`, `length_lt_of_loadRecords`: rows are taken below the
  ceiling, which a clean load stays under;
* `Device.Kept`: the keys, addresses and stamps of a device can be written;
  `Kept.step`: they stay so where the clock is a time;
* `peer_cache_round_trip`: **a reachable table is read back and found clean**,
  just where no key holds a line break and the table is below the ceiling.
-/
import Mathlib.Data.Bool.AllAny
import CumulusVpn.Gateway.PeerCacheFile
import CumulusVpn.Lib.Trim

namespace CumulusVpn.Peers

open StepSystem

/-! ### Characters -/

/-- A printing character of ASCII. -/
def Graphic (c : Char) : Prop := 32 < c.toNat ∧ c.toNat < 128

instance (c : Char) : Decidable (Graphic c) := inferInstanceAs (Decidable (_ ∧ _))

lemma toNat_of_isSpace {c : Char} (h : isSpace c = true) : c.toNat ≤ 32 ∨ 128 ≤ c.toNat := by
  simp only [isSpace, Trim.isWhitespace, Trim.isControlSpace, Trim.isSeparator,
    Trim.isLineSeparator, Bool.or_eq_true, Bool.and_eq_true, decide_eq_true_eq] at h
  omega

lemma Graphic.isSpace {c : Char} (h : Graphic c) : isSpace c = false := by
  rw [← Bool.not_eq_true]
  intro hspace
  rw [Graphic] at h
  have hnat := toNat_of_isSpace hspace
  omega

lemma graphic_of_isDigit {c : Char} (h : c.isDigit) : Graphic c := by
  have hnat : 48 ≤ c.toNat ∧ c.toNat ≤ 57 := Char.isDigit_iff_toNat.mp h
  rw [Graphic]
  omega

lemma graphic_of_sextet {c : Char} (h : (Base64.sextet c).isSome) : Graphic c := by
  have hle : ∀ {a b : Char}, a ≤ b → a.toNat ≤ b.toNat := Char.le_def.mp
  have hrange : ∀ {a b : Char}, 32 < a.toNat → b.toNat < 128 → a ≤ c ∧ c ≤ b → Graphic c :=
    fun ha hb hc => ⟨lt_of_lt_of_le ha (hle hc.1), lt_of_le_of_lt (hle hc.2) hb⟩
  by_contra hnot
  rw [Base64.sextet, if_neg fun hc => hnot (hrange (by decide) (by decide) hc),
    if_neg fun hc => hnot (hrange (by decide) (by decide) hc),
    if_neg fun hc => hnot (hrange (by decide) (by decide) hc)] at h
  by_cases hplus : c = '+'
  · exact hnot (hplus ▸ by decide)
  · rw [if_neg hplus] at h
    by_cases hslash : c = '/'
    · exact hnot (hslash ▸ by decide)
    · rw [if_neg hslash] at h
      cases h

/-! ### Keys -/

/-- A key without line breaks. -/
def Unbroken (pk : String) : Prop := ∀ c ∈ pk.toList, c ≠ '\n' ∧ c ≠ '\r'

instance (pk : String) : Decidable (Unbroken pk) :=
  List.decidableBAll _ pk.toList

lemma decodeKey_text {pk : String} (h : (decodeKey pk).isSome) (hunbroken : Unbroken pk) :
    (∀ c ∈ pk.toList, Graphic c) ∧ pk.toList ≠ [] ∧ pk.toList.length ≤ 128 := by
  have hself : (pk.toList.filter fun c => ¬ (c = '\n' ∨ c = '\r')) = pk.toList := by
    refine List.filter_eq_self.mpr fun c hc => decide_eq_true fun hbreak => ?_
    exact hbreak.elim (hunbroken c hc).1 (hunbroken c hc).2
  obtain ⟨raw, hraw⟩ := Option.isSome_iff_exists.mp h
  rw [decodeKey, hself, Option.filter_eq_some_iff] at hraw
  obtain ⟨hquanta, hlength⟩ := hraw
  have hlength : raw.length = 32 := of_decide_eq_true hlength
  obtain ⟨hletters, pad, hpad, htext⟩ := Base64.decodeQuanta_text hquanta
  have hequals : Graphic '=' := by decide
  refine ⟨fun c hc => ?_, fun hnil => ?_, by omega⟩
  · rcases hletters c hc with hletter | rfl
    · exact graphic_of_sextet hletter
    · exact hequals
  · rw [hnil, List.length_nil] at htext
    omega

/-! ### Addresses and stamps -/

/-- The numbers are octets. -/
def Addr.Octets (a : Addr) : Prop := a.b0 ≤ 255 ∧ a.b1 ≤ 255 ∧ a.b2 ≤ 255 ∧ a.b3 ≤ 255

/-- A positive number of seconds that fits. -/
def Stamp (s : Int) : Prop := 0 < s ∧ s < 2 ^ 63

instance (s : Int) : Decidable (Stamp s) := inferInstanceAs (Decidable (_ ∧ _))

lemma graphic_toDigits {n : Nat} {c : Char} (h : c ∈ Nat.toDigits 10 n) : Graphic c :=
  graphic_of_isDigit (Nat.isDigit_of_mem_toDigits (by decide) (by decide) h)

lemma length_toDigits_lt {n k : Nat} (hk : 0 < k) (h : n < 10 ^ k) :
    (Nat.toDigits 10 n).length ≤ k :=
  (Nat.length_toDigits_le_iff (by decide) hk).mpr h

lemma parseOctet_toDigits {n : Nat} (h : n ≤ 255) : parseOctet (Nat.toDigits 10 n) = some n := by
  have hall : ∀ n < 256, parseOctet (Nat.toDigits 10 n) = some n := by decide +kernel
  exact hall n (Nat.lt_succ_of_le h)

lemma addrText_eq (a : Addr) :
    addrText a = Nat.toDigits 10 a.b0 ++ '.' :: (Nat.toDigits 10 a.b1 ++
      '.' :: (Nat.toDigits 10 a.b2 ++ '.' :: Nat.toDigits 10 a.b3)) := by
  simp [addrText]

lemma graphic_addrText {a : Addr} {c : Char} (h : c ∈ addrText a) : Graphic c := by
  have hdot : Graphic '.' := by decide
  simp only [addrText_eq, List.mem_append, List.mem_cons] at h
  rcases h with h | rfl | h | rfl | h | rfl | h
  · exact graphic_toDigits h
  · exact hdot
  · exact graphic_toDigits h
  · exact hdot
  · exact graphic_toDigits h
  · exact hdot
  · exact graphic_toDigits h

lemma length_addrText {a : Addr} (h : a.Octets) : (addrText a).length ≤ 15 := by
  have hoctet : ∀ {n : Nat}, n ≤ 255 → (Nat.toDigits 10 n).length ≤ 3 := fun hn =>
    length_toDigits_lt (by decide) (lt_of_le_of_lt hn (by decide))
  have h0 := hoctet h.1
  have h1 := hoctet h.2.1
  have h2 := hoctet h.2.2.1
  have h3 := hoctet h.2.2.2
  rw [addrText_eq]
  simp only [List.length_append, List.length_cons]
  omega

lemma parseAddr4_addrText {a : Addr} (h : a.Octets) : parseAddr4 (addrText a) = some a := by
  have hsplit : (addrText a).splitOn '.' = [a.b0, a.b1, a.b2, a.b3].map (Nat.toDigits 10) := by
    rw [addrText]
    refine List.splitOn_intercalate '.' ?_ (by simp)
    intro digits hdigits hdot
    obtain ⟨n, -, rfl⟩ := List.mem_map.mp hdigits
    exact absurd (Nat.isDigit_of_mem_toDigits (by decide) (by decide) hdot) (by decide)
  rw [parseAddr4, hsplit]
  simp [parseOctet_toDigits h.1, parseOctet_toDigits h.2.1, parseOctet_toDigits h.2.2.1,
    parseOctet_toDigits h.2.2.2]

lemma parseOctet_le {cs : List Char} {n : Nat} (h : parseOctet cs = some n) : n ≤ 255 := by
  rw [parseOctet] at h
  split at h
  · rename_i hcs
    cases h
    exact hcs.2.2.2.2
  · cases h

lemma mapM_parseOctet_le : ∀ {parts : List (List Char)} {bytes : List Nat},
    parts.mapM parseOctet = some bytes → ∀ n ∈ bytes, n ≤ 255
  | [], bytes, h => by
      cases h
      exact nofun
  | part :: parts, bytes, h => by
      rw [List.mapM_cons] at h
      simp only [Option.bind_eq_bind, Option.bind_eq_some_iff] at h
      obtain ⟨n, hn, rest, hrest, hbytes⟩ := h
      cases hbytes
      exact List.forall_mem_cons.mpr ⟨parseOctet_le hn, mapM_parseOctet_le hrest⟩

lemma octets_of_parseAddr4 {cs : List Char} {a : Addr} (h : parseAddr4 cs = some a) : a.Octets := by
  rw [parseAddr4] at h
  split at h
  · rename_i b0 b1 b2 b3 hparts
    cases h
    have hle := mapM_parseOctet_le hparts
    simp only [List.forall_mem_cons] at hle
    exact ⟨hle.1, hle.2.1, hle.2.2.1, hle.2.2.2.1⟩
  · cases h

lemma stamp_of_parseStamp {cs : List Char} {s : Int} (h : parseStamp cs = some s) : Stamp s := by
  rw [parseStamp] at h
  generalize (if cs.head? = some '+' then cs.tail else cs) = digits at h
  split at h
  · rename_i hdigits
    cases h
    rw [Stamp]
    omega
  · cases h

lemma stampText_eq {s : Int} (h : Stamp s) : stampText (some s) = Nat.toDigits 10 s.natAbs := by
  rw [stampText, Option.getD_some]
  rw [if_neg (not_lt.mpr h.1.le), List.nil_append]

lemma parseStamp_stampText {s : Int} (h : Stamp s) : parseStamp (stampText (some s)) = some s := by
  have hvalue : Nat.ofDigitChars 10 (Nat.toDigits 10 s.natAbs) 0 = s.natAbs :=
    Nat.ofDigitChars_toDigits (by decide) (by decide)
  have hdigit : ∀ c ∈ Nat.toDigits 10 s.natAbs, c.isDigit := fun c hc =>
    Nat.isDigit_of_mem_toDigits (by decide) (by decide) hc
  have hplus : (Nat.toDigits 10 s.natAbs).head? ≠ some '+' := fun hhead =>
    absurd (hdigit '+' (List.mem_of_mem_head? hhead)) (by decide)
  have hne : Nat.toDigits 10 s.natAbs ≠ [] := List.length_pos_iff.mp Nat.length_toDigits_pos
  rw [Stamp] at h
  rw [stampText_eq h, parseStamp, if_neg hplus]
  rw [hvalue, if_pos ⟨hne, List.all_eq_true.mpr hdigit, by omega, by omega⟩, Option.some_inj]
  omega

/-! ### Rows -/

/-- A record that a row carries unharmed. -/
structure Writable (r : PeerRecord) : Prop where
  key : (decodeKey r.pubKey).isSome
  unbroken : Unbroken r.pubKey
  octets : r.addr.Octets
  seen : ∃ s, r.seen = some s ∧ Stamp s

lemma fields_append {word rest : List Char} (hne : word ≠ [])
    (hword : ∀ c ∈ word, isSpace c = false) :
    fields (word ++ ' ' :: rest) = word :: fields rest := by
  have hblank : isSpace ' ' = true := by decide
  have hsplit : (word ++ ' ' :: rest).splitOnP (fun c => isSpace c) =
      word :: rest.splitOnP fun c => isSpace c :=
    List.splitOnP_append_cons_of_forall_mem hword ' ' hblank rest
  rw [fields, hsplit, List.filter_cons_of_pos (by simpa using hne), fields]

lemma fields_word {word : List Char} (hne : word ≠ []) (hword : ∀ c ∈ word, isSpace c = false) :
    fields word = [word] := by
  have hsplit : word.splitOnP (fun c => isSpace c) = [word] := List.splitOnP_eq_singleton hword
  rw [fields, hsplit, List.filter_cons_of_pos (by simpa using hne), List.filter_nil]

lemma parseRecord_rowText {r : PeerRecord} (h : Writable r) (later : Int) :
    parseRecord later (rowText r) = some r := by
  obtain ⟨s, hseen, hs⟩ := h.seen
  obtain ⟨hkey, hkeyNe, -⟩ := decodeKey_text h.key h.unbroken
  have haddrNe : addrText r.addr ≠ [] := by
    rw [addrText_eq]
    exact List.append_ne_nil_of_right_ne_nil _ (List.cons_ne_nil _ _)
  have hstampNe : stampText (some s) ≠ [] := by
    rw [stampText_eq hs]
    exact List.length_pos_iff.mp Nat.length_toDigits_pos
  have hstamp : ∀ c ∈ stampText (some s), isSpace c = false := by
    rw [stampText_eq hs]
    exact fun c hc => (graphic_toDigits hc).isSpace
  have hfields : fields (rowText r) =
      [r.pubKey.toList, addrText r.addr, stampText (some s)] := by
    rw [rowText, hseen, fields_append hkeyNe fun c hc => (hkey c hc).isSpace,
      fields_append haddrNe fun c hc => (graphic_addrText hc).isSpace, fields_word hstampNe hstamp]
  rw [parseRecord, hfields]
  dsimp only
  have hdecodes : ¬ (decodeKey r.pubKey).isNone = true := by
    rw [Option.isNone_iff_eq_none, ← ne_eq, ← Option.isSome_iff_ne_none]
    exact h.key
  rw [String.ofList_toList, if_neg hdecodes, parseAddr4_addrText h.octets]
  dsimp only [List.head?_cons, Option.bind_some]
  rw [parseStamp_stampText hs, Option.getD_some, ← hseen]

/-- The characters of a row. -/
lemma rowText_mem {r : PeerRecord} (h : Writable r) {c : Char} (hc : c ∈ rowText r) :
    32 ≤ c.toNat ∧ c.toNat < 128 := by
  obtain ⟨s, hseen, hs⟩ := h.seen
  have hgraphic : Graphic c → 32 ≤ c.toNat ∧ c.toNat < 128 := fun hg => ⟨hg.1.le, hg.2⟩
  have hblank : 32 ≤ (' ').toNat ∧ (' ').toNat < 128 := by decide
  rw [rowText, hseen, stampText_eq hs] at hc
  simp only [List.mem_append, List.mem_cons] at hc
  rcases hc with hc | rfl | hc | rfl | hc
  · exact hgraphic ((decodeKey_text h.key h.unbroken).1 c hc)
  · exact hblank
  · exact hgraphic (graphic_addrText hc)
  · exact hblank
  · exact hgraphic (graphic_toDigits hc)

lemma length_rowText {r : PeerRecord} (h : Writable r) : (rowText r).length < maxScanTokenSize := by
  obtain ⟨s, hseen, hs⟩ := h.seen
  have hkey := (decodeKey_text h.key h.unbroken).2.2
  have haddr := length_addrText h.octets
  have hstamp : (stampText (some s)).length ≤ 19 := by
    rw [stampText_eq hs]
    rw [Stamp] at hs
    exact length_toDigits_lt (by decide) (by omega)
  rw [rowText, hseen, maxScanTokenSize]
  simp only [List.length_append, List.length_cons]
  omega

/-! ### Bytes -/

/-- The characters of ASCII are decoded. -/
def DecodesAscii (runes : Bytes → List Char) : Prop :=
  ∀ cs : List Char, (∀ c ∈ cs, c.toNat < 128) → runes (utf8 cs) = cs

lemma utf8_ascii {cs : List Char} (h : ∀ c ∈ cs, c.toNat < 128) :
    utf8 cs = cs.map fun c => UInt8.ofNat c.toNat := by
  rw [utf8, ← List.flatMap_singleton' (cs.map _), List.flatMap_map]
  refine List.flatMap_congr fun c hc => ?_
  have hsize : c.utf8Size = 1 := by
    rw [Char.utf8Size_eq_one_iff]
    exact UInt32.le_iff_toNat_le.mpr (Nat.le_of_lt_succ (h c hc))
  rw [String.utf8EncodeChar_eq_singleton hsize]
  rfl

lemma isLine_utf8 {cs : List Char} (h : ∀ c ∈ cs, 32 ≤ c.toNat ∧ c.toNat < 128)
    (hlength : cs.length < maxScanTokenSize) : LineScanner.IsLine maxScanTokenSize (utf8 cs) := by
  rw [utf8_ascii fun c hc => (h c hc).2]
  have hbyte : ∀ b : UInt8, b.toNat < 32 → b ∉ cs.map fun c => UInt8.ofNat c.toNat := by
    intro b hb hmem
    obtain ⟨c, hc, rfl⟩ := List.mem_map.mp hmem
    rw [UInt8.toNat_ofNat', Nat.mod_eq_of_lt (lt_trans (h c hc).2 (by decide))] at hb
    exact absurd (h c hc).1 (Nat.not_le.mpr hb)
  refine ⟨hbyte 10 (by decide), by rwa [List.length_map], fun hlast => ?_⟩
  exact hbyte 13 (by decide) (List.mem_of_getLast? hlast)

/-! ### Reading -/

section Load

variable {runes : Bytes → List Char} {max : Nat} {now : Int}

lemma exists_of_mem_loadRecords {r : PeerRecord} :
    ∀ {lines : List (List Char)} {acc : List PeerRecord},
      r ∈ (loadRecords max now lines acc).1 → r ∈ acc ∨ ∃ line, parseRecord now line = some r
  | [], acc, h => Or.inl h
  | line :: lines, acc, h => by
      rw [loadRecords] at h
      cases hparse : parseRecord now line with
      | none =>
          rw [hparse] at h
          exact exists_of_mem_loadRecords h
      | some r' =>
          rw [hparse] at h
          dsimp only at h
          have hsnoc : r ∈ acc ++ [r'] → r ∈ acc ∨ ∃ line, parseRecord now line = some r := by
            intro hr
            refine (List.mem_append.mp hr).imp_right fun hr => ⟨line, ?_⟩
            rw [List.mem_singleton.mp hr, hparse]
          split at h
          · exact exists_of_mem_loadRecords h
          · split at h
            · exact hsnoc h
            · exact (exists_of_mem_loadRecords h).elim hsnoc Or.inr

/-- A clean load stays below the ceiling. -/
lemma length_lt_of_loadRecords : ∀ {lines : List (List Char)} {acc : List PeerRecord},
    (max = 0 ∨ acc.length < max) → (loadRecords max now lines acc).2 = true →
      max = 0 ∨ (loadRecords max now lines acc).1.length < max
  | [], acc, hroom, _ => hroom
  | line :: lines, acc, hroom, h => by
      rw [loadRecords] at h ⊢
      cases hparse : parseRecord now line with
      | none =>
          rw [hparse] at h
          exact length_lt_of_loadRecords hroom h
      | some r =>
          rw [hparse] at h
          dsimp only at h ⊢
          by_cases hdup : acc.any (fun r' => r'.pubKey = r.pubKey) = true
          · rw [if_pos hdup] at h ⊢
            exact length_lt_of_loadRecords hroom h
          · rw [if_neg hdup] at h ⊢
            by_cases hfull : max > 0 ∧ acc.length + 1 ≥ max
            · rw [if_pos hfull] at h
              cases h
            · rw [if_neg hfull] at h ⊢
              refine length_lt_of_loadRecords ?_ h
              rw [List.length_append, List.length_singleton]
              omega

/-- Rows of different keys are taken while they stay below the ceiling. -/
lemma loadRecords_map : ∀ {recs acc : List PeerRecord}, (∀ r ∈ recs, Writable r) →
    ((acc ++ recs).map PeerRecord.pubKey).Nodup → (max = 0 ∨ acc.length + recs.length < max) →
      loadRecords max now (recs.map rowText) acc = (acc ++ recs, true)
  | [], acc, _, _, _ => by rw [List.map_nil, loadRecords, List.append_nil]
  | r :: recs, acc, hwritable, hnodup, hroom => by
      obtain ⟨hr, hrecs⟩ := List.forall_mem_cons.mp hwritable
      have hnew : ¬ acc.any (fun r' => r'.pubKey = r.pubKey) = true := by
        intro hany
        obtain ⟨r', hr', hsame⟩ := List.any_eq_true.mp hany
        rw [List.map_append, List.nodup_append] at hnodup
        exact hnodup.2.2 r'.pubKey (List.mem_map_of_mem hr') r.pubKey
          (List.mem_map_of_mem List.mem_cons_self) (of_decide_eq_true hsame)
      have hbelow : ¬ (max > 0 ∧ acc.length + 1 ≥ max) := by
        rw [List.length_cons] at hroom
        omega
      have hassoc : acc ++ [r] ++ recs = acc ++ r :: recs := by
        rw [List.append_assoc, List.singleton_append]
      rw [List.map_cons, loadRecords, parseRecord_rowText hr]
      dsimp only
      rw [if_neg hnew, if_neg hbelow, loadRecords_map hrecs (hassoc ▸ hnodup), hassoc]
      rw [List.length_append, List.length_singleton, Nat.add_right_comm]
      exact hroom

/-- What is read of a file are the records of some lines. -/
lemma loadPeerCacheFile_lines (file : CacheFile) :
    (loadPeerCacheFile runes max now file).1 = [] ∨
      ∃ lines, (loadPeerCacheFile runes max now file).1 = (loadRecords max now lines []).1 ∧
        ((loadPeerCacheFile runes max now file).2 = true →
          (loadRecords max now lines []).2 = true) := by
  cases file with
  | absent => exact Or.inl rfl
  | unreadable => exact Or.inl rfl
  | content bytes failing =>
      rw [loadPeerCacheFile]
      cases hscan : scanFile bytes failing with
      | mk lines err =>
          cases lines with
          | nil => exact Or.inl rfl
          | cons version lines =>
              dsimp only
              split
              · right
                refine ⟨lines.map runes, ?_⟩
                cases hload : loadRecords max now (lines.map runes) [] with
                | mk recs done =>
                    cases done with
                    | false => exact ⟨rfl, fun h => h⟩
                    | true => exact ⟨rfl, fun _ => rfl⟩
              · exact Or.inl rfl

lemma exists_of_mem_load {file : CacheFile} {r : PeerRecord}
    (h : r ∈ (loadPeerCacheFile runes max now file).1) : ∃ line, parseRecord now line = some r := by
  rcases @loadPeerCacheFile_lines runes max now file with hnil | ⟨lines, hlines, -⟩
  · rw [hnil] at h
    cases h
  · rw [hlines] at h
    exact (exists_of_mem_loadRecords h).resolve_left List.not_mem_nil

lemma length_lt_of_load {file : CacheFile} (h : (loadPeerCacheFile runes max now file).2 = true) :
    max = 0 ∨ (loadPeerCacheFile runes max now file).1.length < max := by
  rcases @loadPeerCacheFile_lines runes max now file with hnil | ⟨lines, hlines, hclean⟩
  · rw [hnil, List.length_nil]
    omega
  · rw [hlines]
    refine length_lt_of_loadRecords ?_ (hclean h)
    rw [List.length_nil]
    omega

/-- What is read of a row can be written. -/
lemma parseRecord_some {line : List Char} {r : PeerRecord} (h : parseRecord now line = some r)
    (hnow : Stamp now) : r.addr.Octets ∧ ∃ s, r.seen = some s ∧ Stamp s := by
  rw [parseRecord] at h
  split at h
  · rename_i pk addrStr rest hfields
    split at h
    · cases h
    · split at h
      · cases h
      · rename_i addr haddr
        cases h
        refine ⟨octets_of_parseAddr4 haddr, _, rfl, ?_⟩
        cases hstamp : rest.head?.bind parseStamp with
        | none => exact hnow
        | some s =>
            obtain ⟨cs, -, hs⟩ := Option.bind_eq_some_iff.mp hstamp
            exact stamp_of_parseStamp hs
  · cases h

/-- A field holds no white space. -/
lemma unbroken_of_parseRecord {line : List Char} {r : PeerRecord}
    (h : parseRecord now line = some r) : Unbroken r.pubKey := by
  rw [parseRecord] at h
  split at h
  · rename_i pk addrStr rest hfields
    split at h
    · cases h
    · split at h
      · cases h
      · cases h
        have hpk : pk ∈ fields line := hfields ▸ List.mem_cons_self
        rw [fields] at hpk
        intro c hc
        rw [String.toList_ofList] at hc
        have hspace : isSpace c = false :=
          Trim.not_of_mem_splitOnP hc (List.mem_of_mem_filter hpk)
        constructor
        · rintro rfl
          exact absurd hspace (by decide)
        · rintro rfl
          exact absurd hspace (by decide)
  · cases h

/-- A line that is scanned and decoded as it was written. -/
def Plain (line : List Char) : Prop :=
  (∀ c ∈ line, 32 ≤ c.toNat ∧ c.toNat < 128) ∧ line.length < maxScanTokenSize

lemma scanFile_lines {lines : List (List Char)} (h : ∀ line ∈ lines, Plain line) :
    scanFile (lines.flatMap fun line => utf8 line ++ [10]) false = (lines.map utf8, false) := by
  have hbytes : (lines.flatMap fun line => utf8 line ++ [10]) =
      (lines.map utf8).flatMap (· ++ [10]) :=
    (List.flatMap_map utf8 (· ++ [10]) lines).symm
  rw [hbytes]
  refine LineScanner.scan_lines (by decide) fun line hline => ?_
  obtain ⟨cs, hcs, rfl⟩ := List.mem_map.mp hline
  exact isLine_utf8 (h cs hcs).1 (h cs hcs).2

lemma DecodesAscii.map_utf8 (hrunes : DecodesAscii runes) {lines : List (List Char)}
    (h : ∀ line ∈ lines, Plain line) : (lines.map utf8).map runes = lines := by
  calc
    (lines.map utf8).map runes = lines.map fun line => runes (utf8 line) := List.map_map
    _ = lines.map id :=
        List.map_congr_left fun line hline => hrunes line fun c hc => ((h line hline).1 c hc).2
    _ = lines := List.map_id lines

/-- Writable records of different keys are read back from their file. -/
lemma loadPeerCacheFile_save (hrunes : DecodesAscii runes) {recs : List PeerRecord}
    (hwritable : ∀ r ∈ recs, Writable r) (hnodup : (recs.map PeerRecord.pubKey).Nodup)
    (hroom : max = 0 ∨ recs.length < max) :
    loadPeerCacheFile runes max now (.content (savePeerCache recs) false) =
      (recs.insertionSort KeyLE, true) := by
  have hperm : (recs.insertionSort KeyLE).Perm recs := List.perm_insertionSort KeyLE recs
  rw [loadPeerCacheFile, savePeerCache]
  generalize recs.insertionSort KeyLE = sorted at hperm ⊢
  have hsorted : ∀ r ∈ sorted, Writable r := fun r hr => hwritable r (hperm.mem_iff.mp hr)
  have hnodup' : ((([] : List PeerRecord) ++ sorted).map PeerRecord.pubKey).Nodup :=
    ((hperm.map PeerRecord.pubKey).nodup_iff).mpr hnodup
  have hroom' : max = 0 ∨ ([] : List PeerRecord).length + sorted.length < max := by
    rw [hperm.length_eq, List.length_nil, Nat.zero_add]
    exact hroom
  have hversion : Plain "cvpn-peers-v2".toList :=
    ⟨List.all_iff_forall_prop.mp (by decide), by decide⟩
  have hrows : ∀ line ∈ sorted.map rowText, Plain line := by
    intro line hline
    obtain ⟨r, hr, rfl⟩ := List.mem_map.mp hline
    exact ⟨fun c hc => rowText_mem (hsorted r hr) hc, length_rowText (hsorted r hr)⟩
  have hheader : runes (utf8 "cvpn-peers-v2".toList) = "cvpn-peers-v2".toList :=
    hrunes _ fun c hc => (hversion.1 c hc).2
  rw [scanFile_lines (List.forall_mem_cons.mpr ⟨hversion, hrows⟩), List.map_cons]
  dsimp only
  rw [hheader, if_pos (Or.inl (by decide)), hrunes.map_utf8 hrows,
    loadRecords_map hsorted hnodup' hroom']
  rfl

end Load

/-! ### What a device keeps -/

/-- The keys, addresses and stamps of a device can be written. -/
structure Device.Kept (d : Device) : Prop where
  keys : ∀ pk a, d.peerAddr pk = some a → (decodeKey pk).isSome
  octets : ∀ pk a, d.peerAddr pk = some a → a.Octets
  stamped : ∀ pk a, d.peerAddr pk = some a → (d.seen.lookup pk).isSome
  stamps : ∀ pk s, d.seen.lookup pk = some s → Stamp s

namespace Device.Kept

variable {d d' : Device} {pubkey : String} {addr : Addr} {now : Int} {engine : Bool}

lemma new (own : Identity) : (Device.new own).Kept where
  keys _ _ h := by cases h
  octets _ _ h := by cases h
  stamped _ _ h := by cases h
  stamps _ _ h := by cases h

lemma addPeer (h : d.Kept) (hadd : d.addPeer pubkey addr now engine = some d')
    (haddr : addr.Octets) (hnow : Stamp now) : d'.Kept := by
  obtain ⟨raw, hraw, -⟩ := addPeer_some hadd
  refine ⟨fun pk a hpk => ?_, fun pk a hpk => ?_, fun pk a hpk => ?_, fun pk s hs => ?_⟩
  · rw [peerAddr_addPeer hadd] at hpk
    by_cases heq : pk = pubkey
    · rw [heq, hraw]
      rfl
    · rw [if_neg heq] at hpk
      exact h.keys pk a hpk
  · rw [peerAddr_addPeer hadd] at hpk
    by_cases heq : pk = pubkey
    · rw [if_pos heq] at hpk
      cases hpk
      exact haddr
    · rw [if_neg heq] at hpk
      exact h.octets pk a hpk
  · rw [peerAddr_addPeer hadd] at hpk
    rw [seen_addPeer hadd]
    by_cases heq : pk = pubkey
    · by_cases hnone : d.seen.lookup pubkey = none
      · rw [if_pos ⟨heq, hnone⟩]
        rfl
      · rw [if_neg fun hboth => hnone hboth.2, heq]
        exact Option.isSome_iff_ne_none.mpr hnone
    · rw [if_neg heq] at hpk
      rw [if_neg fun hboth => heq hboth.1]
      exact h.stamped pk a hpk
  · rw [seen_addPeer hadd] at hs
    split at hs
    · cases hs
      exact hnow
    · exact h.stamps pk s hs

lemma removePeer (h : d.Kept) (hremove : d.removePeer pubkey engine = some d') : d'.Kept := by
  have hkept : ∀ {pk a}, d'.peerAddr pk = some a → pk ≠ pubkey ∧ d.peerAddr pk = some a := by
    intro pk a hpk
    rw [peerAddr_removePeer hremove] at hpk
    split at hpk
    · cases hpk
    · rename_i hne
      exact ⟨hne, hpk⟩
  refine ⟨fun pk a hpk => h.keys pk a (hkept hpk).2, fun pk a hpk => h.octets pk a (hkept hpk).2,
    fun pk a hpk => ?_, fun pk s hs => ?_⟩
  · obtain ⟨hne, hpk⟩ := hkept hpk
    rw [seen_removePeer hremove, if_neg hne]
    exact h.stamped pk a hpk
  · rw [seen_removePeer hremove] at hs
    split at hs
    · cases hs
    · exact h.stamps pk s hs

/-- A new stamp of a peer. -/
lemma insert (h : d.Kept) {s : Int} (hs : Stamp s) :
    ({ d with seen := d.seen.insert pubkey s } : Device).Kept := by
  refine ⟨h.keys, h.octets, fun pk a hpk => ?_, fun pk t ht => ?_⟩
  · have hstamped := h.stamped pk a hpk
    change ((d.seen.insert pubkey s).lookup pk).isSome
    rw [lookup_insert]
    split
    · rfl
    · exact hstamped
  · change (d.seen.insert pubkey s).lookup pk = some t at ht
    rw [lookup_insert] at ht
    split at ht
    · cases ht
      exact hs
    · exact h.stamps pk t ht

lemma touch (h : d.Kept) {handshakes : List (String × Int)} (hs : ∀ hs ∈ handshakes, Stamp hs.2) :
    (d.touchFromHandshakes handshakes).Kept := by
  have hfold : ∀ (handshakes : List (String × Int)) (seen : GoMap String Int),
      (∀ hs ∈ handshakes, Stamp hs.2) → ({ d with seen := seen } : Device).Kept →
        ({ d with seen := handshakes.foldl (fun seen h =>
            if (d.byKey.lookup h.1).isSome ∧ ((seen.lookup h.1).all fun t => t < h.2) then
              seen.insert h.1 h.2
            else seen) seen } : Device).Kept := by
    intro handshakes
    induction handshakes with
    | nil => exact fun seen _ hseen => hseen
    | cons first rest ih =>
        intro seen hstamps hseen
        obtain ⟨hfirst, hrest⟩ := List.forall_mem_cons.mp hstamps
        rw [List.foldl_cons]
        refine ih _ hrest ?_
        split
        · exact hseen.insert hfirst
        · exact hseen
  exact hfold handshakes d.seen hs h

/-- A cache of addresses and stamps is restored. -/
lemma restorePeers {fails : Fails} (hnow : Stamp now) : ∀ {recs : List PeerRecord} {d : Device},
    (∀ r ∈ recs, r.addr.Octets ∧ ∃ s, r.seen = some s ∧ Stamp s) → d.Kept →
      (d.restorePeers fails now recs).Kept
  | [], d, _, h => h
  | r :: recs, d, hrecs, h => by
      obtain ⟨⟨haddr, s, hseen, hs⟩, hrecs⟩ := List.forall_mem_cons.mp hrecs
      rw [Device.restorePeers]
      split
      · exact restorePeers hnow hrecs h
      · rename_i d' hadd
        refine restorePeers hnow hrecs ?_
        rw [Device.stamp, hseen]
        exact (h.addPeer hadd haddr hnow).insert hs

end Device.Kept

/-! ### Runs -/

/-- The clock of an event is a time. -/
def Clocked : Event → Prop
  | .enroll now _ => Stamp now
  | .touch handshakes => ∀ h ∈ handshakes, Stamp h.2
  | _ => True

instance : DecidablePred Clocked
  | .enroll now _ => inferInstanceAs (Decidable (Stamp now))
  | .touch handshakes => inferInstanceAs (Decidable (∀ h ∈ handshakes, Stamp h.2))
  | .request _ _ => isTrue trivial
  | .tick _ => isTrue trivial
  | .sync _ _ _ => isTrue trivial
  | .sweep _ _ => isTrue trivial
  | .reap _ _ _ => isTrue trivial
  | .flow _ _ => isTrue trivial
  | .limit _ => isTrue trivial

/-- The device can be written, and so can an address on its way to it. -/
structure Kept (g : Gateway) : Prop where
  device : g.dev.Kept
  octets : ∀ {pubkey premium existed addr},
    g.enroll = .registering pubkey premium existed addr → addr.Octets

lemma octets_assignFrom {d : Device} : ∀ {n host : Nat} {a : Addr},
    (assignFrom d n host).1 = some a → a.Octets
  | 0, host, a, h => by cases h
  | n + 1, host, a, h => by
      rw [assignFrom] at h
      split at h
      · exact octets_assignFrom h
      · split at h
        · cases h
          have hbyte : ∀ k : Nat, k % 256 ≤ 255 := fun k =>
            Nat.le_of_lt_succ (Nat.mod_lt k (by decide))
          exact ⟨Nat.le_add_left 10 245, Nat.le_add_left 8 247, hbyte _, hbyte _⟩
        · exact octets_assignFrom h

lemma Kept.step {c : Config} {g g' : Gateway} {e : Event} (h : Kept g) (hclock : Clocked e)
    (hstep : step c g e = some g') : Kept g' := by
  constructor
  · have hdevice := step_device hstep
    generalize g'.dev = d at hdevice ⊢
    cases hdevice with
    | idle => exact h.device
    | touch => exact h.device.touch hclock
    | register hphase hadd => exact h.device.addPeer hadd (h.octets hphase) hclock
    | takeBack _ hremove => exact h.device.removePeer hremove
    | reap _ hremove => exact h.device.removePeer hremove
  · intro pubkey premium existed addr hphase
    cases step_alloc hstep with
    | same _ hsame => exact h.octets (hsame.symm.trans hphase)
    | other _ hother => exact absurd hphase (hother _ _ _ _)
    | exhausted _ hidle =>
        rw [hidle] at hphase
        cases hphase
    | assign hassign _ hbefore _ =>
        cases hbefore.symm.trans hphase
        rw [assign.eq_def] at hassign
        split at hassign
        · rename_i own hown
          cases hassign
          exact h.device.octets _ _ hown
        · exact octets_assignFrom hassign

lemma mem_peerRecords {d : Device} {r : PeerRecord} :
    r ∈ d.peerRecords ↔ d.peerAddr r.pubKey = some r.addr ∧ r.seen = d.seen.lookup r.pubKey := by
  rw [Device.peerRecords, List.mem_map, Device.peerAddr]
  constructor
  · rintro ⟨⟨pk, a⟩, hmem, rfl⟩
    exact ⟨AList.mem_lookup_iff.mpr hmem, rfl⟩
  · rintro ⟨haddr, hseen⟩
    refine ⟨⟨r.pubKey, r.addr⟩, AList.mem_lookup_iff.mp haddr, ?_⟩
    rw [← hseen]

lemma peerRecords_nodup (d : Device) : (d.peerRecords.map PeerRecord.pubKey).Nodup := by
  rw [Device.peerRecords, List.map_map]
  exact d.byKey.nodupKeys

lemma Device.Kept.writable {d : Device} (h : d.Kept) {r : PeerRecord} (hr : r ∈ d.peerRecords)
    (hunbroken : Unbroken r.pubKey) : Writable r := by
  obtain ⟨haddr, hseen⟩ := mem_peerRecords.mp hr
  obtain ⟨s, hs⟩ := Option.isSome_iff_exists.mp (h.stamped _ _ haddr)
  exact ⟨h.keys _ _ haddr, hunbroken, h.octets _ _ haddr, s, hseen.trans hs, h.stamps _ _ hs⟩

/-- **A table that a run reaches is read back from its file, and the file found
clean**, just where no key of it holds a line break and it is below the
ceiling. -/
theorem peer_cache_round_trip (runes : Bytes → List Char) (hrunes : DecodesAscii runes)
    (c : Config) (own : Identity) (ceiling : Nat) (now : Int) (hnow : Stamp now) (file : CacheFile)
    (fails : Fails) (listeners : List Listener) {es : List Event} {g : Gateway}
    (h : exec (step c) (Gateway.boot own now (loadPeerCacheFile runes ceiling now file).1 fails
      listeners) es = some g)
    (hclock : ∀ e ∈ es, Clocked e) (max : Nat) (later : Int) :
    ((loadPeerCacheFile runes max later
        (.content (savePeerCache g.dev.peerRecords) false)).1.Perm g.dev.peerRecords ∧
      (loadPeerCacheFile runes max later
        (.content (savePeerCache g.dev.peerRecords) false)).2 = true) ↔
      (∀ pk ∈ g.dev.byKey.keys, Unbroken pk) ∧ (max = 0 ∨ g.dev.byKey.keys.length < max) := by
  have hboot : Kept (Gateway.boot own now (loadPeerCacheFile runes ceiling now file).1 fails
      listeners) := by
    refine ⟨.restorePeers hnow (fun r hr => ?_) (.new own), nofun⟩
    obtain ⟨line, hline⟩ := exists_of_mem_load hr
    exact parseRecord_some hline hnow
  have hkept : Kept g := exec_invariant (fun _ _ _ hi hg hs => hi.step hg hs) hboot
    (along_of_mem hclock _) h
  have hlength : g.dev.peerRecords.length = g.dev.byKey.keys.length := by
    rw [Device.peerRecords, List.length_map, AList.keys, List.keys, List.length_map]
  rw [← hlength]
  constructor
  · rintro ⟨hperm, hclean⟩
    constructor
    · intro pk hpk
      obtain ⟨a, ha⟩ := mem_keys_iff.mp hpk
      have hmem : ⟨pk, a, g.dev.seen.lookup pk⟩ ∈ g.dev.peerRecords := mem_peerRecords.mpr ⟨ha, rfl⟩
      obtain ⟨line, hline⟩ := exists_of_mem_load (hperm.mem_iff.mpr hmem)
      exact unbroken_of_parseRecord hline
    · rw [← hperm.length_eq]
      exact length_lt_of_load hclean
  · rintro ⟨hunbroken, hroom⟩
    have hwritable : ∀ r ∈ g.dev.peerRecords, Writable r := by
      intro r hr
      refine hkept.device.writable hr (hunbroken r.pubKey ?_)
      exact mem_keys_iff.mpr ⟨r.addr, (mem_peerRecords.mp hr).1⟩
    rw [loadPeerCacheFile_save hrunes hwritable (peerRecords_nodup g.dev) hroom]
    exact ⟨List.perm_insertionSort KeyLE g.dev.peerRecords, rfl⟩

section Examples

lemma decodesAscii_asciiRunes : DecodesAscii asciiRunes := by
  intro cs h
  rw [utf8_ascii h, asciiRunes, List.map_map]
  calc
    cs.map (_ ∘ fun c => UInt8.ofNat c.toNat) = cs.map id := by
        refine List.map_congr_left fun c hc => ?_
        have hmod : c.toNat % 2 ^ 8 = c.toNat := Nat.mod_eq_of_lt (lt_trans (h c hc) (by decide))
        rw [Function.comp_apply, UInt8.toNat_ofNat', hmod, Char.ofNat_toNat, id]
    _ = cs := List.map_id cs

/-- A gateway without a peer cache. -/
def freshGateway : Gateway :=
  .boot [9] 1000 (loadPeerCacheFile asciiRunes 100 1000 .absent).1 (fun _ => false)
    [⟨some fun _ => false, false⟩]

/-- An enrollment that runs to its end. -/
def enrollmentAt (now : Int) (pubkey : String) : List Event :=
  .request pubkey false :: List.replicate 8 (.enroll now true)

theorem peer_cache_round_trip_enrolled :
    ∃ g, exec (step roomy) freshGateway (enrollmentAt 1000 zeroKey ++ enrollmentAt 2000 oneKey) =
        some g ∧
      g.dev.byKey.keys = [oneKey, zeroKey] ∧
      ((loadPeerCacheFile asciiRunes 100 3000
          (.content (savePeerCache g.dev.peerRecords) false)).1.Perm g.dev.peerRecords ∧
        (loadPeerCacheFile asciiRunes 100 3000
          (.content (savePeerCache g.dev.peerRecords) false)).2 = true) := by
  have hrun : (exec (step roomy) freshGateway
      (enrollmentAt 1000 zeroKey ++ enrollmentAt 2000 oneKey)).any fun g =>
        g.dev.byKey.keys = [oneKey, zeroKey] := by decide +kernel
  obtain ⟨g, hg, hkeys⟩ := (Option.any_eq_true _ _).mp hrun
  have hkeys := of_decide_eq_true hkeys
  refine ⟨g, hg, hkeys, ?_⟩
  refine (peer_cache_round_trip asciiRunes decodesAscii_asciiRunes roomy [9] 100 1000 (by decide)
    .absent (fun _ => false) _ hg (by decide) 100 3000).mpr ?_
  rw [hkeys]
  exact ⟨by decide, by decide⟩

/-- Room for one peer. -/
def tight : Config := ⟨1, 1⟩

/-- A second spelling of the key. -/
def lineZeroKey : String := "\nAAAAAAAAAAAAAAAAAAAAAAAAAAAAAAAAAAAAAAAAAAA="

/-- A table as large as the ceiling is not read cleanly, and the row of a key
that starts with a line break takes the place of another. -/
theorem not_peer_cache_round_trip :
    (¬ ∀ (es : List Event) (g : Gateway), (∀ e ∈ es, Clocked e) →
      exec (step tight) freshGateway es = some g → g.dev.byKey.keys.length ≤ tight.maxPeersTotal →
        (loadPeerCacheFile asciiRunes tight.maxPeersTotal 3000
          (.content (savePeerCache g.dev.peerRecords) false)).2 = true) ∧
    ∃ g, exec (step roomy) freshGateway
        (enrollmentAt 1000 zeroKey ++ enrollmentAt 2000 lineZeroKey) = some g ∧
      g.dev.peerAddr zeroKey = some ⟨10, 8, 0, 2⟩ ∧
      g.dev.peerAddr lineZeroKey = some ⟨10, 8, 0, 3⟩ ∧
      loadPeerCacheFile asciiRunes 100 3000 (.content (savePeerCache g.dev.peerRecords) false) =
        ([⟨zeroKey, ⟨10, 8, 0, 3⟩, some 2000⟩], true) := by
  constructor
  · intro hclean
    have hrun : (exec (step tight) freshGateway (enrollmentAt 1000 zeroKey)).any fun g =>
        g.dev.byKey.keys.length ≤ 1 ∧
          (loadPeerCacheFile asciiRunes 1 3000
            (.content (savePeerCache g.dev.peerRecords) false)).2 = false := by decide +kernel
    obtain ⟨g, hg, hfull⟩ := (Option.any_eq_true _ _).mp hrun
    obtain ⟨hlength, hunclean⟩ := of_decide_eq_true hfull
    exact absurd (hclean _ g (by decide) hg hlength) (by rw [tight, hunclean]; decide)
  · have hrun : (exec (step roomy) freshGateway
        (enrollmentAt 1000 zeroKey ++ enrollmentAt 2000 lineZeroKey)).any fun g =>
          g.dev.peerAddr zeroKey = some ⟨10, 8, 0, 2⟩ ∧
          g.dev.peerAddr lineZeroKey = some ⟨10, 8, 0, 3⟩ ∧
          loadPeerCacheFile asciiRunes 100 3000
              (.content (savePeerCache g.dev.peerRecords) false) =
            ([⟨zeroKey, ⟨10, 8, 0, 3⟩, some 2000⟩], true) := by decide +kernel
    obtain ⟨g, hg, hrow⟩ := (Option.any_eq_true _ _).mp hrun
    exact ⟨g, hg, of_decide_eq_true hrow⟩

end Examples

end CumulusVpn.Peers
