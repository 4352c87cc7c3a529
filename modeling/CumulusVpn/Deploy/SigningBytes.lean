/-
The bytes that the signature of a directory covers
(`deploy/directory/make-directory.mjs`, `clients/core-ts/src/discovery.ts`).

* `canonical`, `canonicalJson`: the two serialisations with sorted keys, the
  tool's and the client's;
* `payload`: a directory without its signature and its comments;
* `signingBytes`, `message`: what is signed, and what is verified;
* `canonical_eq`: both are the plain text of the value with sorted keys;
* `signing_bytes`: **a signed file verifies over the bytes that were signed, and
  the bytes fix whatever is read of a directory**.
-/
import Mathlib.Data.List.Lex
import CumulusVpn.Lib.Json

namespace CumulusVpn.Deploy

open JsonText

/-! ### Canonical texts -/

/-- The order of strings by their code units. -/
def keyLe (k k' : Str) : Bool := decide (k.map UInt16.toNat ≤ k'.map UInt16.toNat)

mutual

/-- `canonical` of the signing tool: the keys are sorted and looked up. -/
def canonical : Json → List Char
  | .arr items => '[' :: (join [','] (canonicalItems items) ++ [']'])
  | .obj members =>
      let texts := canonicalMembers members
      '{' :: (join [','] (((texts.map Prod.fst).mergeSort keyLe).map fun k =>
        quote k ++ (':' :: (texts.lookup k).getD [])) ++ ['}'])
  | .null => stringify [] [] .null
  | .bool b => stringify [] [] (.bool b)
  | .num n => stringify [] [] (.num n)
  | .str s => stringify [] [] (.str s)

/-- The texts of the items of an array. -/
def canonicalItems : List Json → List (List Char)
  | [] => []
  | v :: vs => canonical v :: canonicalItems vs

/-- The keys with the canonical texts of their values. -/
def canonicalMembers : List (Str × Json) → List (Str × List Char)
  | [] => []
  | (k, v) :: ms => (k, canonical v) :: canonicalMembers ms

end

mutual

/-- `canonicalJson` of the client: the entries are sorted. -/
def canonicalJson : Json → List Char
  | .arr items => '[' :: (join [','] (canonicalJsonItems items) ++ [']'])
  | .obj members =>
      '{' :: (join [','] (((canonicalJsonMembers members).mergeSort fun m m' => keyLe m.1 m'.1).map
        fun m => quote m.1 ++ (':' :: m.2)) ++ ['}'])
  | .null => stringify [] [] .null
  | .bool b => stringify [] [] (.bool b)
  | .num n => stringify [] [] (.num n)
  | .str s => stringify [] [] (.str s)

/-- The texts of the items of an array. -/
def canonicalJsonItems : List Json → List (List Char)
  | [] => []
  | v :: vs => canonicalJson v :: canonicalJsonItems vs

/-- The texts of the members of an object. -/
def canonicalJsonMembers : List (Str × Json) → List (Str × List Char)
  | [] => []
  | (k, v) :: ms => (k, canonicalJson v) :: canonicalJsonMembers ms

end

/-! ### Signing and verifying -/

/-- The signature, its key, and the comments. -/
def isEnvelope (k : Str) : Bool :=
  k = ascii "sig" || k = ascii "sign_pubkey" || (ascii "//").isPrefixOf k

/-- `payload[k] = v`, which sets no own key for `__proto__`. -/
def setOwn (payload : List (Str × Json)) (m : Str × Json) : List (Str × Json) :=
  if m.1 = ascii "__proto__" then payload else assign payload m

/-- The members that are signed. -/
def payload (dir : List (Str × Json)) : List (Str × Json) :=
  ownOrder (dir.foldl (fun payload m => if isEnvelope m.1 then payload else setOwn payload m) [])

/-- What the tool signs. -/
def signingBytes (dir : List (Str × Json)) : ByteArray :=
  (String.ofList (canonical (.obj (payload dir)))).toUTF8

/-- What the client verifies the signature over. -/
def message (dir : List (Str × Json)) : ByteArray :=
  (String.ofList (canonicalJson (.obj (payload dir)))).toUTF8

/-- The directory with a signature. -/
def signInto (dir : List (Str × Json)) (pub sig : Str) : List (Str × Json) :=
  assign (assign dir (ascii "sign_pubkey", .str pub)) (ascii "sig", .str sig)

/-! ### The value with sorted keys -/

/-- The members in the order of their keys. -/
def sortKeys (members : List (Str × Json)) : List (Str × Json) :=
  members.mergeSort fun m m' => keyLe m.1 m'.1

lemma sortKeys_perm (members : List (Str × Json)) : (sortKeys members).Perm members :=
  List.mergeSort_perm _ _

lemma keyLe_eq_true {k k' : Str} :
    keyLe k k' = true ↔ k.map UInt16.toNat ≤ k'.map UInt16.toNat := decide_eq_true_iff

lemma keyLe_trans {a b c : Str} (hab : keyLe a b = true) (hbc : keyLe b c = true) :
    keyLe a c = true :=
  keyLe_eq_true.mpr (le_trans (keyLe_eq_true.mp hab) (keyLe_eq_true.mp hbc))

lemma keyLe_total (a b : Str) : (keyLe a b || keyLe b a) = true := by
  rw [Bool.or_eq_true]
  exact (le_total (a.map UInt16.toNat) (b.map UInt16.toNat)).imp keyLe_eq_true.mpr keyLe_eq_true.mpr

lemma keyLe_antisymm {a b : Str} (hab : keyLe a b = true) (hba : keyLe b a = true) : a = b :=
  List.map_injective_iff.mpr (fun _ _ h => UInt16.toNat_inj.mp h)
    (le_antisymm (keyLe_eq_true.mp hab) (keyLe_eq_true.mp hba))

/-- Two orders of the same members are sorted alike. -/
lemma sortKeys_eq {l l' : List (Str × Json)} (hperm : l.Perm l') (h : (l.map Prod.fst).Nodup) :
    sortKeys l = sortKeys l' := by
  have hsorted : ∀ ms : List (Str × Json),
      (sortKeys ms).Pairwise fun m m' => keyLe m.1 m'.1 = true := fun ms =>
    @List.pairwise_mergeSort _ (fun m m' => keyLe m.1 m'.1)
      (fun a b c => @keyLe_trans a.1 b.1 c.1) (fun a b => keyLe_total a.1 b.1) ms
  refine ((sortKeys_perm l).trans (hperm.trans (sortKeys_perm l').symm)).eq_of_pairwise
    (fun m m' hm hm' hle hle' => ?_) (hsorted l) (hsorted l')
  have hm : m ∈ l := (sortKeys_perm l).mem_iff.mp hm
  have hm' : m' ∈ l := hperm.mem_iff.mpr ((sortKeys_perm l').mem_iff.mp hm')
  exact List.inj_on_of_nodup_map h hm hm' (keyLe_antisymm hle hle')

/-- Sorting by the keys looks at the keys alone. -/
lemma mergeSort_map {β γ : Type} (g : Str × β → Str × γ) (hg : ∀ m, (g m).1 = m.1)
    (l : List (Str × β)) : (l.map g).mergeSort (fun m m' => keyLe m.1 m'.1) =
      (l.mergeSort fun m m' => keyLe m.1 m'.1).map g :=
  (List.map_mergeSort fun m _ m' _ => by rw [hg, hg]).symm

lemma mergeSort_keys {β : Type} (l : List (Str × β)) : (l.map Prod.fst).mergeSort keyLe =
    (l.mergeSort fun m m' => keyLe m.1 m'.1).map Prod.fst :=
  (@List.map_mergeSort _ _ (fun m m' => keyLe m.1 m'.1) keyLe Prod.fst l fun _ _ _ _ => rfl).symm

lemma canonicalItems_eq (items : List Json) : canonicalItems items = items.map canonical := by
  induction items with
  | nil => rfl
  | cons v vs ih => rw [canonicalItems, ih, List.map_cons]

lemma canonicalMembers_eq (members : List (Str × Json)) :
    canonicalMembers members = members.map fun m => (m.1, canonical m.2) := by
  induction members with
  | nil => rfl
  | cons m ms ih => rw [canonicalMembers, ih, List.map_cons]

lemma canonicalJsonItems_eq (items : List Json) :
    canonicalJsonItems items = items.map canonicalJson := by
  induction items with
  | nil => rfl
  | cons v vs ih => rw [canonicalJsonItems, ih, List.map_cons]

lemma canonicalJsonMembers_eq (members : List (Str × Json)) :
    canonicalJsonMembers members = members.map fun m => (m.1, canonicalJson m.2) := by
  induction members with
  | nil => rfl
  | cons m ms ih => rw [canonicalJsonMembers, ih, List.map_cons]

lemma stringifyItems_eq (gap indent : List Char) (items : List Json) :
    stringifyItems gap indent items = items.map (stringify gap indent) := by
  induction items with
  | nil => rfl
  | cons v vs ih => rw [stringifyItems, ih, List.map_cons]

lemma stringifyMembers_eq (gap indent : List Char) (members : List (Str × Json)) :
    stringifyMembers gap indent members =
      members.map fun m => memberText gap m.1 (stringify gap indent m.2) := by
  induction members with
  | nil => rfl
  | cons m ms ih => rw [stringifyMembers, ih, List.map_cons]

/-- Without indentation the brackets stand next to the texts. -/
lemma bracket_plain (opening closing : Char) (texts : List (List Char)) :
    bracket opening closing [] [] texts = opening :: (join [','] texts ++ [closing]) := by
  rw [bracket]
  split
  · rename_i hnil
    rw [hnil]
    rfl
  · rfl

/-- The client's text is the plain one of the value with sorted keys. -/
lemma canonicalJson_eq (v : Json) : canonicalJson v = stringify [] [] (v.rearrange sortKeys) := by
  induction v with
  | null => rfl
  | bool b => rfl
  | num n => rfl
  | str s => rfl
  | arr items ih =>
      rw [canonicalJson, Json.rearrange, stringify, bracket_plain, canonicalJsonItems_eq,
        rearrangeItems_eq, stringifyItems_eq, List.map_map]
      congr 3
      exact List.map_congr_left ih
  | obj members ih =>
      have htexts : canonicalJsonMembers members = (rearrangeMembers sortKeys members).map
          fun m => (m.1, stringify [] [] m.2) := by
        rw [canonicalJsonMembers_eq, rearrangeMembers_eq, List.map_map]
        exact List.map_congr_left fun m hm => Prod.ext rfl (ih m hm)
      rw [canonicalJson, Json.rearrange, stringify, bracket_plain, htexts, stringifyMembers_eq,
        sortKeys, mergeSort_map (fun m : Str × Json => (m.1, stringify [] [] m.2)) fun _ => rfl,
        List.map_map]
      rfl

/-- And so is the tool's. -/
lemma canonical_eq {v : Json} (hv : v.proper = true) : canonical v = canonicalJson v := by
  induction v with
  | null => rfl
  | bool b => rfl
  | num n => rfl
  | str s => rfl
  | arr items ih =>
      have hproper := proper_arr.mp hv
      rw [canonical, canonicalJson, canonicalItems_eq, canonicalJsonItems_eq]
      congr 3
      exact List.map_congr_left fun v hmem => ih v hmem (hproper v hmem)
  | obj members ih =>
      obtain ⟨hnodup, hproper⟩ := proper_obj.mp hv
      have htexts : canonicalMembers members = canonicalJsonMembers members := by
        rw [canonicalMembers_eq, canonicalJsonMembers_eq]
        exact List.map_congr_left fun m hm => Prod.ext rfl (ih m hm (hproper m hm))
      have hkeys : ((canonicalJsonMembers members).map Prod.fst).Nodup := by
        rw [canonicalJsonMembers_eq, List.map_map]
        exact hnodup
      rw [canonical, canonicalJson, htexts]
      congr 3
      rw [mergeSort_keys, List.map_map]
      refine List.map_congr_left fun m hm => ?_
      have hlookup := (lookup_eq_some_iff_mem hkeys).mpr ((List.mergeSort_perm _ _).mem_iff.mp hm)
      simp only [Function.comp_apply, hlookup, Option.getD_some]

/-- Sorting the keys of an object forgets what their order was. -/
lemma rearrange_sortKeys_obj {l l' : List (Str × Json)} (h : (l.map Prod.fst).Nodup)
    (hperm : (rearrangeMembers sortKeys l).Perm (rearrangeMembers sortKeys l')) :
    (Json.obj l).rearrange sortKeys = (Json.obj l').rearrange sortKeys := by
  rw [Json.rearrange, Json.rearrange, sortKeys_eq hperm]
  rw [rearrangeMembers_eq, List.map_map]
  exact h

lemma rearrange_sortKeys {f : List (Str × Json) → List (Str × Json)}
    (hf : ∀ l, (f l).Perm l) {v : Json} (hv : v.proper = true) :
    (v.rearrange f).rearrange sortKeys = v.rearrange sortKeys := by
  induction v with
  | null => rfl
  | bool b => rfl
  | num n => rfl
  | str s => rfl
  | arr items ih =>
      have hproper := proper_arr.mp hv
      rw [Json.rearrange, Json.rearrange, Json.rearrange, rearrangeItems_eq, rearrangeItems_eq,
        rearrangeItems_eq, List.map_map]
      congr 1
      exact List.map_congr_left fun v hmem => ih v hmem (hproper v hmem)
  | obj members ih =>
      obtain ⟨hnodup, hproper⟩ := proper_obj.mp hv
      have hkeys : ((f (rearrangeMembers f members)).map Prod.fst).Nodup := by
        refine ((hf _).map _).nodup_iff.mpr ?_
        rw [rearrangeMembers_eq, List.map_map]
        exact hnodup
      have hsame : rearrangeMembers sortKeys (rearrangeMembers f members) =
          rearrangeMembers sortKeys members := by
        rw [rearrangeMembers_eq, rearrangeMembers_eq, rearrangeMembers_eq, List.map_map]
        exact List.map_congr_left fun m hm => Prod.ext rfl (ih m hm (hproper m hm))
      refine rearrange_sortKeys_obj hkeys ?_
      rw [← hsame, rearrangeMembers_eq, rearrangeMembers_eq sortKeys (rearrangeMembers f members)]
      exact (hf _).map _

/-! ### What is signed of a directory -/

/-- The key of a member that is signed. -/
def isSigned (k : Str) : Bool := !isEnvelope k && !decide (k = ascii "__proto__")

lemma payload_perm {dir : List (Str × Json)} (h : (dir.map Prod.fst).Nodup) :
    (payload dir).Perm (dir.filter fun m => isSigned m.1) := by
  have hloop :
      dir.foldl (fun payload m => if isEnvelope m.1 then payload else setOwn payload m) [] =
      (dir.filter fun m => isSigned m.1).foldl assign [] := by
    rw [List.foldl_filter]
    congr 1
    funext payload m
    rw [setOwn, isSigned]
    by_cases henvelope : isEnvelope m.1 = true
    · simp [henvelope]
    · by_cases hproto : m.1 = ascii "__proto__"
      · simp [hproto]
      · simp [henvelope, hproto]
  have hnodup : ((dir.filter fun m => isSigned m.1).map Prod.fst).Nodup :=
    h.sublist (List.filter_sublist.map _)
  rw [payload, hloop, foldl_assign hnodup]
  exact ownOrder_perm _

lemma filter_assign {l : List (Str × Json)} {m : Str × Json} (hm : isSigned m.1 = false) :
    (assign l m).filter (fun m => isSigned m.1) = l.filter fun m => isSigned m.1 := by
  rw [assign]
  split
  · clear * - hm
    induction l with
    | nil => rfl
    | cons m' ms ih =>
        rw [List.map_cons, List.filter_cons, List.filter_cons, ih]
        by_cases hkey : m'.1 = m.1
        · simp [hkey, hm]
        · simp [hkey]
  · rw [List.filter_append, List.filter_cons_of_neg (by simp [hm]), List.filter_nil,
      List.append_nil]

lemma proper_assign {l : List (Str × Json)} {m : Str × Json}
    (hl : (Json.obj l).proper = true) (hm : m.2.proper = true) :
    (Json.obj (assign l m)).proper = true := by
  obtain ⟨hnodup, hproper⟩ := proper_obj.mp hl
  rw [assign]
  split
  · refine proper_obj.mpr ⟨?_, fun m' hm' => ?_⟩
    · have hkeys : (l.map fun m' => if m'.1 = m.1 then m else m').map Prod.fst =
          l.map Prod.fst := by
        rw [List.map_map]
        refine List.map_congr_left fun m' _ => ?_
        by_cases hkey : m'.1 = m.1 <;> simp [hkey]
      rw [hkeys]
      exact hnodup
    · obtain ⟨m'', hmem, rfl⟩ := List.mem_map.mp hm'
      split
      · exact hm
      · exact hproper m'' hmem
  · rename_i hnew
    refine proper_obj.mpr ⟨?_, fun m' hm' => ?_⟩
    · rw [List.map_append, List.nodup_append]
      refine ⟨hnodup, by simp, fun a ha b hb hab => hnew ?_⟩
      obtain rfl : b = m.1 := by simpa using hb
      exact hab ▸ ha
    · rcases List.mem_append.mp hm' with hold | hlast
      · exact hproper m' hold
      · exact List.mem_singleton.mp hlast ▸ hm

lemma proper_signInto {dir : List (Str × Json)} (h : (Json.obj dir).proper = true) (pub sig : Str) :
    (Json.obj (signInto dir pub sig)).proper = true :=
  proper_assign (proper_assign h rfl) rfl

lemma filter_signInto (dir : List (Str × Json)) (pub sig : Str) :
    (signInto dir pub sig).filter (fun m => isSigned m.1) = dir.filter fun m => isSigned m.1 := by
  have hsig : isSigned (ascii "sig") = false := by decide
  have hpub : isSigned (ascii "sign_pubkey") = false := by decide
  rw [signInto, filter_assign hsig, filter_assign hpub]

lemma proper_payload {dir : List (Str × Json)} (h : (Json.obj dir).proper = true) :
    (Json.obj (payload dir)).proper = true := by
  obtain ⟨hnodup, hproper⟩ := proper_obj.mp h
  have hperm := payload_perm hnodup
  refine proper_obj.mpr ⟨?_, fun m hm => ?_⟩
  · exact (hperm.map _).nodup_iff.mpr (hnodup.sublist (List.filter_sublist.map _))
  · exact hproper m (List.mem_of_mem_filter (hperm.mem_iff.mp hm))

/-- What the file holds of the payload when it is read, its keys sorted. -/
lemma payload_reread {dir : List (Str × Json)} (h : (Json.obj dir).proper = true) (pub sig : Str) :
    (Json.obj (payload (ownOrder (rearrangeMembers ownOrder (signInto dir pub sig))))).rearrange
      sortKeys = (Json.obj (payload dir)).rearrange sortKeys := by
  have hsigned := proper_obj.mp (proper_signInto h pub sig)
  obtain ⟨hnodup, hproper⟩ := proper_obj.mp h
  set signed := signInto dir pub sig
  have hkeys : ((rearrangeMembers ownOrder signed).map Prod.fst).Nodup := by
    rw [rearrangeMembers_eq, List.map_map]
    exact hsigned.1
  have hkeys' : ((ownOrder (rearrangeMembers ownOrder signed)).map Prod.fst).Nodup :=
    ((ownOrder_perm _).map _).nodup_iff.mpr hkeys
  have hperm := payload_perm hkeys'
  have hfilter : (rearrangeMembers ownOrder signed).filter (fun m => isSigned m.1) =
      rearrangeMembers ownOrder (dir.filter fun m => isSigned m.1) := by
    rw [rearrangeMembers_eq, rearrangeMembers_eq, List.filter_map, ← filter_signInto dir pub sig]
    rfl
  have hsame : rearrangeMembers sortKeys (rearrangeMembers ownOrder
      (dir.filter fun m => isSigned m.1)) =
      rearrangeMembers sortKeys (dir.filter fun m => isSigned m.1) := by
    rw [rearrangeMembers_eq, rearrangeMembers_eq, rearrangeMembers_eq, List.map_map]
    refine List.map_congr_left fun m hm => Prod.ext rfl ?_
    exact rearrange_sortKeys ownOrder_perm (hproper m (List.mem_of_mem_filter hm))
  refine rearrange_sortKeys_obj ?_ ?_
  · exact (hperm.map _).nodup_iff.mpr (hkeys'.sublist (List.filter_sublist.map _))
  · have hread : (payload (ownOrder (rearrangeMembers ownOrder signed))).Perm
        (rearrangeMembers ownOrder (dir.filter fun m => isSigned m.1)) := by
      rw [← hfilter]
      exact hperm.trans ((ownOrder_perm _).filter _)
    have hmapped : ∀ {l l' : List (Str × Json)}, l.Perm l' →
        (rearrangeMembers sortKeys l).Perm (rearrangeMembers sortKeys l') := by
      intro l l' hll'
      rw [rearrangeMembers_eq, rearrangeMembers_eq]
      exact hll'.map _
    exact (hmapped hread).trans (hsame ▸ (hmapped (payload_perm hnodup)).symm)

lemma signingBytes_eq {dir : List (Str × Json)} (h : (Json.obj dir).proper = true) :
    signingBytes dir =
      (String.ofList (stringify [] [] ((Json.obj (payload dir)).rearrange sortKeys))).toUTF8 := by
  rw [signingBytes, canonical_eq (proper_payload h), canonicalJson_eq]

/-- What is read of the payload is what is read of the directory. -/
lemma read_payload {dir : List (Str × Json)} (h : (Json.obj dir).proper = true)
    (hproto : ascii "__proto__" ∉ dir.map Prod.fst) {k : Str} (hk : isEnvelope k = false)
    (path : List Step) :
    (Json.obj (payload dir)).read (.key k :: path) = (Json.obj dir).read (.key k :: path) := by
  have hnodup := (proper_obj.mp h).1
  have hsigned : (dir.filter fun m => isSigned m.1).lookup k = dir.lookup k := by
    ext v
    rw [lookup_eq_some_iff_mem (hnodup.sublist (List.filter_sublist.map _)),
      lookup_eq_some_iff_mem hnodup, List.mem_filter, and_iff_left_iff_imp]
    intro hmem
    have hne : k ≠ ascii "__proto__" := fun hkey =>
      hproto (hkey ▸ List.mem_map_of_mem (f := Prod.fst) hmem)
    simp [isSigned, hk, hne]
  have hlookup : (payload dir).lookup k = dir.lookup k :=
    (lookup_perm (hnodup.sublist (List.filter_sublist.map _)) (payload_perm hnodup) k).trans hsigned
  rw [Json.read, Json.read, Json.get, Json.get, hlookup]

/-- A rearranged value is as proper as before. -/
lemma proper_rearrange {f : List (Str × Json) → List (Str × Json)} (hf : ∀ l, (f l).Perm l)
    {v : Json} (hv : v.proper = true) : (v.rearrange f).proper = true := by
  induction v with
  | null => rfl
  | bool b => rfl
  | num n => rfl
  | str s => rfl
  | arr items ih =>
      have hproper := proper_arr.mp hv
      rw [Json.rearrange, rearrangeItems_eq, proper_arr]
      intro w hw
      obtain ⟨v, hmem, rfl⟩ := List.mem_map.mp hw
      exact ih v hmem (hproper v hmem)
  | obj members ih =>
      obtain ⟨hnodup, hproper⟩ := proper_obj.mp hv
      rw [Json.rearrange, rearrangeMembers_eq, proper_obj]
      refine ⟨((hf _).map _).nodup_iff.mpr ?_, fun m hm => ?_⟩
      · rw [List.map_map]
        exact hnodup
      · obtain ⟨m', hmem, rfl⟩ := List.mem_map.mp ((hf _).mem_iff.mp hm)
        exact ih m' hmem (hproper m' hmem)

/-- **The signed bytes**: the client verifies a signed file over the bytes that
were signed, however the file is indented; and two directories with the same
bytes have the same value at every path, outside the signature and comments. -/
theorem signing_bytes {dir : List (Str × Json)} (h : (Json.obj dir).proper = true)
    (hproto : ascii "__proto__" ∉ dir.map Prod.fst) :
    (∀ (pub sig : Str) (gap ws : List Char), Blank gap → Blank ws → ∃ signed,
      JsonText.parse (stringify gap [] (.obj (signInto dir pub sig)) ++ ws) = some (.obj signed) ∧
        message signed = signingBytes dir) ∧
    ∀ dir', (Json.obj dir').proper = true → ascii "__proto__" ∉ dir'.map Prod.fst →
      signingBytes dir' = signingBytes dir → ∀ (k : Str) (path : List Step),
        isEnvelope k = false →
          (Json.obj dir').read (.key k :: path) = (Json.obj dir).read (.key k :: path) := by
  refine ⟨fun pub sig gap ws hgap hws => ⟨_, parse_stringify hgap hws (proper_signInto h pub sig),
    ?_⟩, fun dir' h' hproto' hbytes k path hk => ?_⟩
  · rw [message, canonicalJson_eq, payload_reread h, signingBytes_eq h]
  · rw [signingBytes_eq h, signingBytes_eq h'] at hbytes
    have htext := String.ofList_injective (String.toByteArray_inj.mp hbytes)
    have hread := stringify_injective (by decide : Blank [])
      (proper_rearrange sortKeys_perm (proper_payload h'))
      (proper_rearrange sortKeys_perm (proper_payload h)) htext (.key k :: path)
    rw [read_rearrange sortKeys_perm (proper_payload h'),
      read_rearrange sortKeys_perm (proper_payload h)] at hread
    rw [← read_payload h' hproto' hk, ← read_payload h hproto hk, hread]

/-- A directory with a comment in it, and a comment further in. -/
def sample : List (Str × Json) :=
  [(ascii "10", .bool true), (ascii "2", .arr [.null]), (ascii "//", .str (ascii "note")),
    (ascii "specs", .obj [(ascii "//", .str [0xD800])])]

lemma proper_sample : (Json.obj sample).proper = true := by decide

theorem signing_bytes_sample :
    (∃ signed, JsonText.parse (stringify [' ', ' '] []
        (.obj (signInto sample (ascii "pub") (ascii "sig"))) ++ ['\n']) = some (.obj signed) ∧
      message signed = signingBytes sample) ∧
    (Json.obj (signInto sample (ascii "pub") (ascii "sig"))).read [.key (ascii "specs")] =
      (Json.obj sample).read [.key (ascii "specs")] := by
  have h := signing_bytes proper_sample (by decide)
  exact ⟨h.1 (ascii "pub") (ascii "sig") [' ', ' '] ['\n'] (by decide) (by decide),
    h.2 _ (proper_signInto proper_sample _ _) (by decide) rfl _ _ (by decide)⟩

end CumulusVpn.Deploy
