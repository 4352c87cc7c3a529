/-
The recovery key (`clients/core-ts/src/recoveryKey.ts`).

SHA-256, the derivation of a public key and `toUpperCase` are parameters
(`Platform`).

* `encodeRecoveryKey`, `decodeRecoveryKey`: the printed form and its reading;
* `Presents`: what is forgiven of the printed form;
* `head_encode_body`: the body begins with `2`, `3` or `4`;
* `bare_of_presents`: so no body is taken for a prefix;
* `recovery_key_survives`: **a key is read from every presentation, and nothing
  else is read as it**.
-/
import CumulusVpn.Lib.Base64
import CumulusVpn.Lib.Radix
import CumulusVpn.Split.Cidr

namespace CumulusVpn.Client

/-! ### The printed form -/

/-- What the platform provides. -/
structure Platform where
  sha256 : List UInt8 → {digest : List UInt8 // digest.length = 32}
  publicKeyFromPrivate : List Char → List Char
  toUpperCase : List Char → List Char

/-- ASCII text in upper case. -/
def Platform.UpperCase (p : Platform) : Prop :=
  ∀ cs : List Char, (∀ c ∈ cs, c.toNat < 128) → p.toUpperCase cs = cs.map Char.toUpper

/-- A WireGuard key pair, in base64. -/
structure Keypair where
  privateKey : List Char
  publicKey : List Char

/-- What `encodeRecoveryKey` throws. -/
inductive KeyError
  /-- by the base64 decoder -/
  | notBase64
  | length (got : Nat)
deriving DecidableEq, Repr

/-- The message of its own. -/
def KeyError.message : KeyError → Option String
  | .notBase64 => none
  | .length got => some ("encodeRecoveryKey: expected a 32-byte key, got " ++ toString got)

/-- Why a recovery key was rejected. -/
inductive RecoveryKeyError
  | format
  | checksum
  | version
deriving DecidableEq, Repr

/-- The reason that the error carries. -/
def RecoveryKeyError.reason : RecoveryKeyError → String
  | .format => "format"
  | .checksum => "checksum"
  | .version => "version"

/-- Its message, which shows the reason. -/
def RecoveryKeyError.message (e : RecoveryKeyError) : String :=
  "invalid recovery key (" ++ e.reason ++ ")"

/-- `RECOVERY_KEY_PREFIX` -/
def recoveryKeyPrefix : List Char := ['C', 'V', 'P', 'N']

/-- The groups of five of the printed form. -/
def groups (encoded : List Char) : List (List Char) :=
  if encoded = [] then [] else encoded.take 5 :: groups (encoded.drop 5)
termination_by encoded.length
decreasing_by
  rename_i hne
  have hpos := List.length_pos_iff.mpr hne
  rw [List.length_drop]
  omega

section Code

variable (p : Platform)

/-- The first four bytes of the hash of a payload. -/
def checksum (payload : List UInt8) : List UInt8 := (p.sha256 payload).1.take 4

/-- The version and the key, with their checksum. -/
def keyBody (key : List UInt8) : List UInt8 := 1 :: key ++ checksum p (1 :: key)

/-- The recovery key of a private key, for paper. -/
def encodeRecoveryKey (privateKeyB64 : List Char) : Except KeyError (List Char) :=
  match Base64.decode privateKeyB64 with
  | none => .error .notBase64
  | some key =>
      if key.length ≠ 32 then .error (.length key.length)
      else
        let encoded := Base58.encode (keyBody p key)
        .ok (List.intercalate ['-'] (recoveryKeyPrefix :: groups encoded))

/-- The text without white space, prefix and dashes. -/
def bare (input : List Char) : List Char :=
  let s := input.filter fun c => !Split.isSpace c
  let s := if p.toUpperCase (s.take 4) = recoveryKeyPrefix then s.drop 4 else s
  s.filter (· ≠ '-')

/-- The key pair of a recovery key as somebody typed it. -/
def decodeRecoveryKey (input : List Char) : Except RecoveryKeyError Keypair :=
  match Base58.decode (bare p input) with
  | none => .error .format
  | some body =>
      if body.length ≠ 37 then .error .format
      else
        let payload := body.take 33
        let given := body.drop 33
        if ¬ checksum p payload <+: given then .error .checksum
        else if payload.head? ≠ some 1 then .error .version
        else
          let privateKey := Base64.encode payload.tail
          .ok ⟨privateKey, p.publicKeyFromPrivate privateKey⟩

end Code

/-! ### Presentations -/

/-- The text presents the printed form `enc`: white space is anywhere, the
prefix in any case or missing, dashes are anywhere behind it. -/
def Presents (enc text : List Char) : Prop :=
  ∃ pre rest, (text.filter fun c => !Split.isSpace c) = pre ++ rest ∧
    (pre = [] ∨ pre.map Char.toUpper = recoveryKeyPrefix) ∧
    rest.filter (· ≠ '-') = (enc.drop 4).filter (· ≠ '-')

lemma flatten_groups (encoded : List Char) : (groups encoded).flatten = encoded := by
  induction encoded using groups.induct with
  | case1 => rw [groups, if_pos rfl, List.flatten_nil]
  | case2 encoded hne ih =>
      rw [groups, if_neg hne, List.flatten_cons, ih, List.take_append_drop]

lemma intercalate_cons (sep : Char) (t : List Char) (ts : List (List Char)) :
    List.intercalate [sep] (t :: ts) = t ++ ts.flatMap (sep :: ·) := by
  induction ts generalizing t with
  | nil => rw [List.intercalate_singleton, List.flatMap_nil, List.append_nil]
  | cons u ts ih =>
      rw [List.intercalate_cons_cons, ih, List.flatMap_cons, List.append_assoc,
        List.singleton_append, List.cons_append]

/-- Without its dashes the printed form is the body. -/
lemma filter_printed {encoded : List Char} (h : '-' ∉ encoded) :
    ((List.intercalate ['-'] (recoveryKeyPrefix :: groups encoded)).drop 4).filter (· ≠ '-') =
      encoded := by
  have hgroups : ∀ ts : List (List Char), '-' ∉ ts.flatten →
      (ts.flatMap ('-' :: ·)).filter (· ≠ '-') = ts.flatten := by
    intro ts hts
    induction ts with
    | nil => rfl
    | cons t ts ih =>
        rw [List.flatten_cons, List.mem_append, not_or] at hts
        have ht : t.filter (· ≠ '-') = t :=
          List.filter_eq_self.mpr fun c hc => decide_eq_true fun heq => hts.1 (heq ▸ hc)
        rw [List.flatMap_cons, List.filter_append, ih hts.2, List.flatten_cons,
          List.filter_cons_of_neg (by decide), ht]
  rw [intercalate_cons, show 4 = recoveryKeyPrefix.length from rfl, List.drop_left,
    hgroups _ (by rwa [flatten_groups]), flatten_groups]

/-! ### The body -/

lemma length_checksum (p : Platform) (payload : List UInt8) : (checksum p payload).length = 4 := by
  rw [checksum, List.length_take, (p.sha256 payload).2]
  rfl

lemma length_keyBody (p : Platform) {key : List UInt8} (h : key.length = 32) :
    (keyBody p key).length = 37 := by
  rw [keyBody, List.length_append, List.length_cons, length_checksum, h]

/-- Thirty-seven bytes that begin with a one, in base 58. -/
lemma head_encode_body {body : List UInt8} (h : body.length = 37) (hversion : body.head? = some 1) :
    ∃ c cs, Base58.encode body = c :: cs ∧ c ∈ ['1', '2', '3', '4'] := by
  obtain ⟨bytes, rfl⟩ := List.head?_eq_some_iff.mp hversion
  have hlength : bytes.length = 36 := by simpa using h
  have hlt : ∀ n ∈ bytes.map UInt8.toNat, n < 256 := fun n hn => by
    obtain ⟨a, -, rfl⟩ := List.mem_map.mp hn
    exact a.toNat_lt
  have hrest := Radix.value_lt (by decide) hlt
  have hvalue := Radix.value_cons 256 1 (bytes.map UInt8.toNat)
  rw [List.length_map, hlength] at hrest hvalue
  obtain ⟨d, ds, hdigits, -, hle⟩ := @Radix.exists_digits_eq_cons 58 (by decide)
    (Radix.value 256 (1 :: bytes.map UInt8.toNat)) 49
    (by rw [hvalue]; exact le_trans (by norm_num) (Nat.le_add_right _ _))
    (by rw [hvalue]; exact lt_of_lt_of_le (Nat.add_lt_add_left hrest _) (by norm_num))
  have hd : d ≤ 3 := by
    by_contra hlarge
    have hfour : 58 ^ 49 * 4 ≤ 58 ^ 49 * d := Nat.mul_le_mul_left _ (by omega)
    have hmax : 256 ^ 36 * 1 + 256 ^ 36 ≤ 58 ^ 49 * 4 := by norm_num
    omega
  have hchar : ∀ d ≤ 3, Base58.digitChar d ∈ ['1', '2', '3', '4'] := by decide
  refine ⟨Base58.digitChar d, ds.map Base58.digitChar, ?_, hchar d hd⟩
  have hstart : (1 :: bytes.map UInt8.toNat).takeWhile (· = 0) = [] ∧
      (1 :: bytes.map UInt8.toNat).dropWhile (· = 0) = 1 :: bytes.map UInt8.toNat :=
    ⟨rfl, rfl⟩
  rw [Base58.encode, List.map_cons, show (1 : UInt8).toNat = 1 from rfl, Radix.convert, hstart.1,
    hstart.2, hdigits]
  rfl

lemma toNat_lt_of_mem_alphabet : ∀ c ∈ Base58.alphabet, c.toNat < 128 ∧ c ≠ '-' ∧
    Split.isSpace c = false :=
  List.all_iff_forall_prop.mp (by decide)

lemma toNat_lt_of_toUpper {c : Char} (h : c.toUpper.toNat < 128) : c.toNat < 128 := by
  delta Char.toUpper at h
  split at h
  · rename_i hlower
    have hz : c.toNat ≤ 'z'.toNat := UInt32.le_iff_toNat_le.mp hlower.2
    exact lt_of_le_of_lt hz (by decide)
  · exact h

section Presentations

variable {p : Platform} {body : List UInt8}

/-- **No body is taken for a prefix**: every presentation leaves the body. -/
theorem bare_of_presents (hupper : p.UpperCase) (hlength : body.length = 37)
    (hversion : body.head? = some 1) {text : List Char}
    (h : Presents
      (List.intercalate ['-'] (recoveryKeyPrefix :: groups (Base58.encode body))) text) :
    bare p text = Base58.encode body := by
  have hplain : ∀ c ∈ Base58.encode body, c.toNat < 128 ∧ c ≠ '-' ∧ Split.isSpace c = false :=
    fun c hc => toNat_lt_of_mem_alphabet c (Base58.mem_alphabet_of_mem_encode hc)
  obtain ⟨pre, rest, htext, hpre, hrest⟩ := h
  rw [filter_printed fun hdash => (hplain _ hdash).2.1 rfl] at hrest
  rw [bare, htext]
  rcases hpre with rfl | hpre
  · -- the first four characters are not a prefix
    have hnot : p.toUpperCase (rest.take 4) ≠ recoveryKeyPrefix := by
      intro hprefix
      have hascii : ∀ c ∈ rest.take 4, c.toNat < 128 := by
        intro c hc
        by_cases hdash : c = '-'
        · rw [hdash]
          decide
        · have hmem : c ∈ rest.filter (· ≠ '-') :=
            List.mem_filter.mpr ⟨List.mem_of_mem_take hc, by simpa using hdash⟩
          rw [hrest] at hmem
          exact (hplain c hmem).1
      rw [hupper _ hascii] at hprefix
      cases rest with
      | nil => cases hprefix
      | cons c cs =>
          have hc : c.toUpper = 'C' := by
            rw [List.take_succ_cons, List.map_cons, recoveryKeyPrefix] at hprefix
            exact (List.cons.inj hprefix).1
          have hdash : c ≠ '-' := by
            rintro rfl
            exact absurd hc (by decide)
          obtain ⟨d, ds, hbody, hd⟩ := head_encode_body hlength hversion
          rw [List.filter_cons_of_pos (by simpa using hdash), hbody] at hrest
          obtain rfl := (List.cons.inj hrest).1
          have hupperDigit : ∀ c ∈ ['1', '2', '3', '4'], c.toUpper ≠ 'C' :=
            List.all_iff_forall_prop.mp (by decide)
          exact hupperDigit c hd hc
    rw [List.nil_append, if_neg hnot, hrest]
  · have hfour : pre.length = 4 := by
      have hlen := congrArg List.length hpre
      rwa [List.length_map] at hlen
    have hascii : ∀ c ∈ pre, c.toNat < 128 := by
      intro c hc
      have hmem : c.toUpper ∈ recoveryKeyPrefix := hpre ▸ List.mem_map_of_mem hc
      have hletters : ∀ c ∈ recoveryKeyPrefix, c.toNat < 128 :=
        List.all_iff_forall_prop.mp (by decide)
      exact toNat_lt_of_toUpper (hletters _ hmem)
    rw [List.take_left' hfour, hupper pre hascii, if_pos hpre, List.drop_left' hfour, hrest]

/-- The printed form presents itself. -/
lemma presents_self {encoded : List Char} (h : ∀ c ∈ encoded, Split.isSpace c = false) :
    Presents (List.intercalate ['-'] (recoveryKeyPrefix :: groups encoded))
      (List.intercalate ['-'] (recoveryKeyPrefix :: groups encoded)) := by
  rw [intercalate_cons]
  refine ⟨recoveryKeyPrefix, (groups encoded).flatMap ('-' :: ·), ?_, Or.inr (by decide), ?_⟩
  · refine List.filter_eq_self.mpr fun c hc => ?_
    have hgroup : ∀ c ∈ (groups encoded).flatten, Split.isSpace c = false := by rwa [flatten_groups]
    rcases List.mem_append.mp hc with hc | hc
    · have hletters : ∀ c ∈ recoveryKeyPrefix, (!Split.isSpace c) = true :=
        List.all_iff_forall_prop.mp (by decide)
      exact hletters c hc
    · obtain ⟨t, ht, hc⟩ := List.mem_flatMap.mp hc
      rcases List.mem_cons.mp hc with rfl | hc
      · decide
      · rw [hgroup c (List.mem_flatten.mpr ⟨t, ht, hc⟩), Bool.not_false]
  · rw [show 4 = recoveryKeyPrefix.length from rfl, List.drop_left]

end Presentations

/-! ### Reading -/

section Reading

variable {p : Platform} {key : List UInt8}

lemma encodeRecoveryKey_encode (p : Platform) (h : key.length = 32) :
    encodeRecoveryKey p (Base64.encode key) =
      .ok (List.intercalate ['-']
        (recoveryKeyPrefix :: groups (Base58.encode (keyBody p key)))) := by
  rw [encodeRecoveryKey, Base64.decode_encode]
  dsimp only
  rw [if_neg (by simpa using h)]

/-- A body is read as its key. -/
lemma decodeRecoveryKey_of_bare (h : key.length = 32) {text : List Char}
    (htext : bare p text = Base58.encode (keyBody p key)) :
    decodeRecoveryKey p text =
      .ok ⟨Base64.encode key, p.publicKeyFromPrivate (Base64.encode key)⟩ := by
  have hpayload : (1 :: key).length = 33 := by rw [List.length_cons, h]
  rw [decodeRecoveryKey, htext, Base58.decode_encode]
  dsimp only
  rw [if_neg (by simpa using length_keyBody p h), keyBody, List.take_left' hpayload,
    List.drop_left' hpayload, if_neg (by simp), if_neg (by simp)]
  rfl

/-- What is read is a body. -/
lemma exists_key_of_decodeRecoveryKey {text : List Char} {keypair : Keypair}
    (h : decodeRecoveryKey p text = .ok keypair) :
    ∃ key, key.length = 32 ∧ bare p text = Base58.encode (keyBody p key) ∧
      keypair = ⟨Base64.encode key, p.publicKeyFromPrivate (Base64.encode key)⟩ := by
  rw [decodeRecoveryKey] at h
  cases hread : Base58.decode (bare p text) with
  | none =>
      rw [hread] at h
      cases h
  | some body =>
      rw [hread] at h
      dsimp only at h
      by_cases hlength : body.length = 37
      · rw [if_neg (not_not.mpr hlength)] at h
        by_cases hsum : checksum p (body.take 33) <+: body.drop 33
        · rw [if_neg (not_not.mpr hsum)] at h
          by_cases hversion : (body.take 33).head? = some 1
          · rw [if_neg (not_not.mpr hversion)] at h
            cases h
            obtain ⟨key, hkey⟩ := List.head?_eq_some_iff.mp hversion
            have hlen : (body.take 33).length = 33 := by
              rw [List.length_take, hlength]
              rfl
            have hgiven : checksum p (body.take 33) = body.drop 33 := by
              refine hsum.eq_of_length ?_
              rw [length_checksum, List.length_drop, hlength]
            refine ⟨key, ?_, ?_, ?_⟩
            · rw [hkey, List.length_cons] at hlen
              omega
            · rw [keyBody, ← hkey, hgiven, List.take_append_drop]
              exact (Base58.encode_of_decode hread).symm
            · rw [hkey, List.tail_cons]
          · rw [if_pos hversion] at h
            cases h
        · rw [if_pos hsum] at h
          cases h
      · rw [if_pos hlength] at h
        cases h

end Reading

/-- **A key is read from every presentation of its printed form, and a text that
is read has the body of the printed form of the key.** -/
theorem recovery_key_survives (p : Platform) (hupper : p.UpperCase) :
    (∀ key : List UInt8, key.length = 32 → ∃ enc,
      encodeRecoveryKey p (Base64.encode key) = .ok enc ∧ Presents enc enc ∧
      ∀ text, Presents enc text → decodeRecoveryKey p text =
        .ok ⟨Base64.encode key, p.publicKeyFromPrivate (Base64.encode key)⟩) ∧
    ∀ text keypair, decodeRecoveryKey p text = .ok keypair → ∃ key enc, key.length = 32 ∧
      keypair.privateKey = Base64.encode key ∧
      encodeRecoveryKey p keypair.privateKey = .ok enc ∧
      bare p text = (enc.drop 4).filter (· ≠ '-') ∧ bare p text = bare p enc := by
  have hplain : ∀ body, ∀ c ∈ Base58.encode body, c ≠ '-' ∧ Split.isSpace c = false :=
    fun body c hc =>
    (toNat_lt_of_mem_alphabet c (Base58.mem_alphabet_of_mem_encode hc)).2
  have hself : ∀ body, Presents
      (List.intercalate ['-'] (recoveryKeyPrefix :: groups (Base58.encode body)))
      (List.intercalate ['-'] (recoveryKeyPrefix :: groups (Base58.encode body))) := fun body =>
    presents_self fun c hc => (hplain body c hc).2
  refine ⟨fun key hkey => ?_, fun text keypair hread => ?_⟩
  · refine ⟨_, encodeRecoveryKey_encode p hkey, hself _, fun text htext => ?_⟩
    exact decodeRecoveryKey_of_bare hkey (bare_of_presents hupper (length_keyBody p hkey) rfl htext)
  · obtain ⟨key, hkey, hbare, rfl⟩ := exists_key_of_decodeRecoveryKey hread
    refine ⟨key, _, hkey, rfl, encodeRecoveryKey_encode p hkey, ?_, ?_⟩
    · rw [hbare, filter_printed fun hdash => (hplain _ _ hdash).1 rfl]
    · rw [hbare, bare_of_presents hupper (length_keyBody p hkey) rfl (hself _)]

/-- A platform whose digests are all zeros. -/
def zeroPlatform : Platform where
  sha256 _ := ⟨List.replicate 32 0, List.length_replicate⟩
  publicKeyFromPrivate key := key
  toUpperCase := List.map Char.toUpper

/-- The characters behind the prefix. -/
def undashed (enc : List Char) : List Char := (enc.drop 4).filter (· ≠ '-')

/-- As it may be typed: the prefix in small letters, and a blank and a dash
behind every character. -/
def typed (enc : List Char) : List Char :=
  " cvpn ".toList ++ (undashed enc).flatMap fun c => [c, ' ', '-']

lemma not_isSpace_of_mem_undashed {enc : List Char} (h : Presents enc enc) :
    ∀ c ∈ undashed enc, Split.isSpace c = false := by
  obtain ⟨pre, rest, hfilter, -, hrest⟩ := h
  intro c hc
  have hmem : c ∈ enc.filter fun c => !Split.isSpace c := by
    rw [hfilter]
    rw [undashed, ← hrest] at hc
    exact List.mem_append_right _ (List.mem_of_mem_filter hc)
  simpa using (List.mem_filter.mp hmem).2

lemma presents_typed {enc : List Char} (h : Presents enc enc) : Presents enc (typed enc) := by
  have hplain := not_isSpace_of_mem_undashed h
  have hdashes : ∀ c ∈ undashed enc, c ≠ '-' := fun c hc => by simpa using (List.mem_filter.mp hc).2
  refine ⟨"cvpn".toList, (undashed enc).flatMap fun c => [c, '-'], ?_, .inr (by decide), ?_⟩
  · rw [typed, List.filter_append]
    refine congrArg₂ _ (by decide) ?_
    rw [List.filter_flatMap]
    refine List.flatMap_congr fun c hc => ?_
    have hblank : Split.isSpace ' ' = true := by decide
    have hdash : Split.isSpace '-' = false := by decide
    simp [hplain c hc, hblank, hdash]
  · rw [List.filter_flatMap]
    calc ((undashed enc).flatMap fun c => [c, '-'].filter (· ≠ '-'))
        = (undashed enc).flatMap fun c => [c] :=
          List.flatMap_congr fun c hc => by simp [hdashes c hc]
      _ = undashed enc := by simp

/-- Without its prefix and its dashes. -/
lemma presents_undashed {enc : List Char} (h : Presents enc enc) : Presents enc (undashed enc) := by
  refine ⟨[], undashed enc, List.filter_eq_self.mpr fun c hc => ?_, .inl rfl, ?_⟩
  · rw [not_isSpace_of_mem_undashed h c hc, Bool.not_false]
  · rw [undashed, List.filter_filter]
    simp

theorem recovery_key_survives_zero : ∃ enc,
    encodeRecoveryKey zeroPlatform (Base64.encode (List.replicate 32 0)) = .ok enc ∧
    decodeRecoveryKey zeroPlatform (typed enc) =
      .ok ⟨Base64.encode (List.replicate 32 0), Base64.encode (List.replicate 32 0)⟩ ∧
    decodeRecoveryKey zeroPlatform (undashed enc) =
      .ok ⟨Base64.encode (List.replicate 32 0), Base64.encode (List.replicate 32 0)⟩ ∧
    ∃ key enc', key.length = 32 ∧ Base64.encode (List.replicate 32 0) = Base64.encode key ∧
      encodeRecoveryKey zeroPlatform (Base64.encode (List.replicate 32 0)) = .ok enc' ∧
      bare zeroPlatform (typed enc) = undashed enc' ∧
      bare zeroPlatform (typed enc) = bare zeroPlatform enc' := by
  obtain ⟨hkeys, htexts⟩ := recovery_key_survives zeroPlatform fun _ _ => rfl
  obtain ⟨enc, henc, hself, hread⟩ := hkeys (List.replicate 32 0) rfl
  have htyped := hread (typed enc) (presents_typed hself)
  exact ⟨enc, henc, htyped, hread _ (presents_undashed hself), htexts _ _ htyped⟩

end CumulusVpn.Client
