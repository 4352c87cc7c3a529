/-
Payment codes (`PaymentCode` and `base58Encode` of
`gateway/internal/entitle/entitle.go`) and their validators
(`isValidPaymentCode` of `bridge/src/codes.ts` and of
`clients/core-ts/src/paymentCode.ts`).

* `dividePass`, `base58Digits`: the repeated division of a buffer;
* `base58Encode`, `paymentCode`: the encoding, and the code of a key;
* `isValidPaymentCode`: both validators;
* `dividePass_spec`: a pass is a division by 58;
* `head?_rest_ne_zero`: **each pass makes at most one leading byte zero**;
* `base58Encode_eq`: the encoding is base58;
* `payment_codes_valid`: **texts and bytes correspond, and every code of a key
  is valid**.
-/
import CumulusVpn.Gateway.Device
import CumulusVpn.Lib.Radix

namespace CumulusVpn.PaymentCodes

open Peers (decodeKey)

/-! ### The division of a buffer -/

/-- One pass of the division by 58, with the remainder so far. -/
def dividePass : Nat → List UInt8 → List UInt8 × Nat
  | rem, [] => ([], rem)
  | rem, b :: buf =>
      let acc := rem * 256 + b.toNat
      let (quotient, rem) := dividePass (acc % 58) buf
      (UInt8.ofNat (acc / 58) :: quotient, rem)

/-- The number of a buffer. -/
def number (buf : List UInt8) : Nat := Radix.value 256 (buf.map UInt8.toNat)

@[simp] lemma number_nil : number [] = 0 := rfl

lemma number_cons (b : UInt8) (buf : List UInt8) :
    number (b :: buf) = 256 ^ buf.length * b.toNat + number buf := by
  rw [number, List.map_cons, Radix.value_cons, List.length_map, number]

lemma number_lt (buf : List UInt8) : number buf < 256 ^ buf.length := by
  have hbytes : ∀ d ∈ buf.map UInt8.toNat, d < 256 := fun d hd => by
    obtain ⟨b, -, rfl⟩ := List.mem_map.mp hd
    exact b.toNat_lt
  have hlength : (buf.map UInt8.toNat).length = buf.length := List.length_map _
  rw [number, ← hlength]
  exact Radix.value_lt (by omega) hbytes

/-- **A pass is a division by 58.** -/
lemma dividePass_spec : ∀ {rem : Nat} (buf : List UInt8), rem < 58 →
    (dividePass rem buf).1.length = buf.length ∧ (dividePass rem buf).2 < 58 ∧
      rem * 256 ^ buf.length + number buf =
        58 * number (dividePass rem buf).1 + (dividePass rem buf).2
  | rem, [], hrem => by
      refine ⟨rfl, hrem, ?_⟩
      simp [dividePass]
  | rem, b :: buf, hrem => by
      have hb := b.toNat_lt
      obtain ⟨hlength, hlt, hvalue⟩ :=
        dividePass_spec buf (Nat.mod_lt (rem * 256 + b.toNat) (by omega : 0 < 58))
      have hbyte : (UInt8.ofNat ((rem * 256 + b.toNat) / 58)).toNat = (rem * 256 + b.toNat) / 58 :=
        UInt8.toNat_ofNat_of_lt' (by show _ < 256; omega)
      refine ⟨congrArg (· + 1) hlength, hlt, ?_⟩
      have hacc : 58 * ((rem * 256 + b.toNat) / 58) + (rem * 256 + b.toNat) % 58 =
          rem * 256 + b.toNat := Nat.div_add_mod _ _
      rw [dividePass]
      simp only
      rw [number_cons, number_cons, hbyte, hlength, List.length_cons]
      calc rem * 256 ^ (buf.length + 1) + (256 ^ buf.length * b.toNat + number buf)
          = (rem * 256 + b.toNat) * 256 ^ buf.length + number buf := by ring
        _ = (58 * ((rem * 256 + b.toNat) / 58) + (rem * 256 + b.toNat) % 58) *
              256 ^ buf.length + number buf := by rw [hacc]
        _ = 58 * (256 ^ buf.length * ((rem * 256 + b.toNat) / 58)) +
              ((rem * 256 + b.toNat) % 58 * 256 ^ buf.length + number buf) := by ring
        _ = 58 * (256 ^ buf.length * ((rem * 256 + b.toNat) / 58) +
              number (dividePass ((rem * 256 + b.toNat) % 58) buf).1) +
                (dividePass ((rem * 256 + b.toNat) % 58) buf).2 := by rw [hvalue]; ring

/-- The buffer from the next start on. -/
def rest (quotient : List UInt8) : List UInt8 :=
  if quotient.head? = some 0 then quotient.tail else quotient

lemma number_rest (quotient : List UInt8) : number (rest quotient) = number quotient := by
  rw [rest]
  split
  · rename_i hzero
    obtain ⟨quotient, rfl⟩ := List.head?_eq_some_iff.mp hzero
    rw [List.tail_cons, number_cons]
    simp
  · rfl

/-- **The loop ends**: every pass makes the number or the buffer smaller. -/
lemma rest_decreases {buf : List UInt8} (h : buf ≠ []) :
    number (rest (dividePass 0 buf).1) + (rest (dividePass 0 buf).1).length <
      number buf + buf.length := by
  obtain ⟨hlength, -, hvalue⟩ := dividePass_spec buf (by omega : 0 < 58)
  rw [number_rest]
  have hpos := List.length_pos_iff.mpr h
  rw [rest]
  split
  · rw [List.length_tail]
    omega
  · rename_i hhead
    have hquotient : 0 < number (dividePass 0 buf).1 := by
      cases hq : (dividePass 0 buf).1 with
      | nil =>
          rw [hq] at hlength
          exact absurd hlength.symm hpos.ne'
      | cons b quotient =>
          have hb : b ≠ 0 := fun hb => hhead (by rw [hq, hb]; rfl)
          have hbpos : 0 < b.toNat := Nat.pos_of_ne_zero fun hzero => hb (UInt8.toNat_inj.mp hzero)
          rw [number_cons]
          have hpow : 0 < 256 ^ quotient.length * b.toNat := Nat.mul_pos (by positivity) hbpos
          omega
    omega

/-- The remainders of all passes, least significant first. -/
def base58Digits (buf : List UInt8) : List Nat :=
  if _h : buf = [] then []
  else (dividePass 0 buf).2 :: base58Digits (rest (dividePass 0 buf).1)
termination_by number buf + buf.length
decreasing_by exact rest_decreases _h

/-! ### Codes -/

/-- The base58 text of the bytes: a `1` for each leading zero, then the number. -/
def base58Encode (input : List UInt8) : String :=
  let zeros := (input.takeWhile (· = 0)).length
  String.ofList (List.replicate zeros '1' ++
    ((base58Digits (input.drop zeros)).map Base58.digitChar).reverse)

/-- The code of a base64 key; `""` if the key is malformed. -/
def paymentCode (sha256 : List UInt8 → {digest : List UInt8 // digest.length = 32})
    (pubkeyB64 : String) : String :=
  match decodeKey pubkeyB64 with
  | none => ""
  | some raw => base58Encode ((sha256 raw).1.take 20)

/-- The length of a JavaScript string. -/
def utf16Length (s : String) : Nat :=
  (s.toList.map fun c => if c.toNat < 0x10000 then 1 else 2).sum

/-- The text is base58 of so many bytes; its length is checked first. -/
def isBase58Of (min max bytes : Nat) (code : String) : Bool :=
  if utf16Length code < min ∨ utf16Length code > max then false
  else
    match Base58.decode code.toList with
    | none => false
    | some decoded => decoded.length == bytes

/-- The validator of the bridge. -/
def Bridge.isValidPaymentCode : String → Bool := isBase58Of 20 40 20

/-- The validator of the client. -/
def Core.isValidPaymentCode : String → Bool := isBase58Of 20 40 20

/-! ### The encoding -/

/-- **Each pass makes at most one leading byte zero**: the quotient of a number
of `n` bytes has `n - 1` bytes at least. -/
lemma head?_rest_ne_zero {buf : List UInt8} (h : buf.head? ≠ some 0) :
    (rest (dividePass 0 buf).1).head? ≠ some 0 := by
  obtain ⟨hlength, hrem, hvalue⟩ := dividePass_spec buf (by omega : 0 < 58)
  rw [rest]
  split
  · rename_i hzero
    obtain ⟨quotient, hquotient⟩ := List.head?_eq_some_iff.mp hzero
    rw [hquotient, List.tail_cons]
    intro hhead
    obtain ⟨tail, htail⟩ := List.head?_eq_some_iff.mp hhead
    -- Two leading zeros would make the quotient smaller than it is.
    have hsmall : number (dividePass 0 buf).1 < 256 ^ tail.length := by
      rw [hquotient, htail, number_cons, number_cons]
      simpa using number_lt tail
    cases buf with
    | nil => cases hzero
    | cons b buf =>
        have hb : 1 ≤ b.toNat := Nat.one_le_iff_ne_zero.mpr fun hb =>
          h (congrArg some (UInt8.toNat_inj.mp hb))
        have hlarge : 256 * 256 ^ tail.length ≤ number (b :: buf) := by
          have hbuf : buf.length = tail.length + 1 := by
            rw [hquotient, htail] at hlength
            simpa using hlength.symm
          rw [number_cons, hbuf, pow_succ]
          have hmul : 256 ^ tail.length * 256 * 1 ≤ 256 ^ tail.length * 256 * b.toNat :=
            Nat.mul_le_mul_left _ hb
          omega
        omega
  · rename_i hhead
    exact hhead

/-- The remainders are the digits. -/
lemma base58Digits_eq (buf : List UInt8) (h : buf.head? ≠ some 0) :
    base58Digits buf = Nat.digits 58 (number buf) := by
  induction buf using base58Digits.induct with
  | case1 =>
      rw [base58Digits]
      simp
  | case2 buf hne ih =>
      obtain ⟨hlength, hrem, hvalue⟩ := dividePass_spec buf (by omega : 0 < 58)
      have hpos : 0 < number buf := by
        cases buf with
        | nil => exact absurd rfl hne
        | cons b buf =>
            have hb : 0 < b.toNat := Nat.pos_of_ne_zero fun hb =>
              h (congrArg some (UInt8.toNat_inj.mp hb))
            rw [number_cons]
            have hpow : 0 < 256 ^ buf.length * b.toNat := Nat.mul_pos (by positivity) hb
            omega
      rw [base58Digits, dif_neg hne, ih (head?_rest_ne_zero h), number_rest,
        Nat.digits_def' (by omega) hpos]
      have hmod : (dividePass 0 buf).2 = number buf % 58 := by omega
      have hdiv : number (dividePass 0 buf).1 = number buf / 58 := by omega
      rw [hmod, hdiv]

lemma takeWhile_map_toNat (input : List UInt8) :
    (input.map UInt8.toNat).takeWhile (· = 0) = List.replicate (input.takeWhile (· = 0)).length 0 ∧
      (input.map UInt8.toNat).dropWhile (· = 0) =
        (input.drop (input.takeWhile (· = 0)).length).map UInt8.toNat := by
  induction input with
  | nil => exact ⟨rfl, rfl⟩
  | cons b input ih =>
      by_cases hb : b = 0
      · subst hb
        simpa [List.replicate_succ] using ih
      · have hnat : b.toNat ≠ 0 := fun hzero => hb (UInt8.toNat_inj.mp hzero)
        simp [hb, hnat]

/-- **The encoding is base58.** -/
lemma base58Encode_eq (input : List UInt8) : (base58Encode input).toList = Base58.encode input := by
  obtain ⟨htake, hdrop⟩ := takeWhile_map_toNat input
  have hhead : (input.drop (input.takeWhile (· = 0)).length).head? ≠ some 0 := by
    intro hzero
    have hmapped := Radix.head?_dropWhile_ne_zero (input.map UInt8.toNat)
    rw [hdrop, List.head?_map, hzero] at hmapped
    exact hmapped rfl
  rw [base58Encode, String.toList_ofList, Base58.encode, Radix.convert, htake, hdrop,
    List.map_append, List.map_replicate, base58Digits_eq _ hhead, Radix.digits, ← List.map_reverse]
  rfl

/-- The base-58 digits of a number, without a leading zero. -/
structure IsDigits (n : Nat) (ds : List Nat) : Prop where
  value_eq : Radix.value 58 ds = n
  lt : ∀ d ∈ ds, d < 58
  head : ds.head? ≠ some 0

lemma isDigits_digits (n : Nat) : IsDigits n (Radix.digits 58 n) :=
  ⟨Radix.value_digits 58 n, fun _ hd => Radix.lt_of_mem_digits (by decide) hd,
    Radix.head?_digits_ne_zero 58 n⟩

lemma IsDigits.eq {n : Nat} {ds : List Nat} (h : IsDigits n ds) : ds = Radix.digits 58 n := by
  rw [← h.value_eq, Radix.digits_value (by decide) h.lt h.head]

/-- A `1` for every leading zero, and the digits of the rest. -/
lemma base58Encode_digits (input : List UInt8) : (base58Encode input).toList =
    List.replicate (input.takeWhile (· = 0)).length '1' ++
      (Radix.digits 58 (number (input.drop (input.takeWhile (· = 0)).length))).map
        Base58.digitChar := by
  obtain ⟨htake, hdrop⟩ := takeWhile_map_toNat input
  rw [base58Encode_eq, Base58.encode, Radix.convert, htake, hdrop, List.map_append,
    List.map_replicate]
  rfl

/-- The leading zeros do not count. -/
lemma number_drop_zeros (input : List UInt8) :
    number (input.drop (input.takeWhile (· = 0)).length) = number input := by
  induction input with
  | nil => rfl
  | cons b input ih =>
      by_cases hb : b = 0
      · subst hb
        rw [number_cons]
        simpa using ih
      · simp [hb]

lemma decode_base58Encode (input : List UInt8) :
    Base58.decode (base58Encode input).toList = some input := by
  rw [base58Encode_eq, Base58.decode_encode]

/-! ### The codes of keys -/

/-- ASCII text has a unit for each character. -/
lemma utf16Length_base58Encode (input : List UInt8) :
    utf16Length (base58Encode input) = (Base58.encode input).length := by
  have hascii : ∀ c ∈ Base58.alphabet, (if c.toNat < 0x10000 then 1 else 2) = 1 :=
    List.all_iff_forall_prop.mp (by decide)
  rw [utf16Length, base58Encode_eq, List.map_congr_left (fun c hc =>
    hascii c (Base58.mem_alphabet_of_mem_encode hc)), List.map_const']
  simp

/-- The code of 20 bytes is valid. -/
lemma isBase58Of_base58Encode {input : List UInt8} (h : input.length = 20) :
    isBase58Of 20 40 20 (base58Encode input) = true := by
  obtain ⟨hlow, hhigh⟩ := Base58.length_encode input
  rw [isBase58Of, utf16Length_base58Encode, if_neg (by omega), decode_base58Encode]
  simpa using h

/-- **The encoding is the base58 text, which is read back; and the code of every
key is valid, and read back as 20 bytes.** -/
theorem payment_codes_valid :
    (∀ input, ∃ ds, (base58Encode input).toList =
        List.replicate (input.takeWhile (· = 0)).length '1' ++ ds.map Base58.digitChar ∧
      IsDigits (number input) ds ∧ ∀ ds', IsDigits (number input) ds' → ds' = ds) ∧
    (∀ input, Base58.decode (base58Encode input).toList = some input) ∧
    Function.Injective base58Encode ∧
    ∀ (sha256 : List UInt8 → {digest : List UInt8 // digest.length = 32}) pubkeyB64,
      (decodeKey pubkeyB64 = none ∧ paymentCode sha256 pubkeyB64 = "") ∨
      (Bridge.isValidPaymentCode (paymentCode sha256 pubkeyB64) = true ∧
        Core.isValidPaymentCode (paymentCode sha256 pubkeyB64) = true ∧
        ∃ bytes, Base58.decode (paymentCode sha256 pubkeyB64).toList = some bytes ∧
          bytes.length = 20) := by
  refine ⟨fun input => ?_, decode_base58Encode, fun input input' heq => ?_,
    fun sha256 pubkeyB64 => ?_⟩
  · refine ⟨Radix.digits 58 (number input), ?_, isDigits_digits _, fun ds' h => h.eq⟩
    rw [base58Encode_digits, number_drop_zeros]
  · have hdecode := decode_base58Encode input
    rw [heq, decode_base58Encode] at hdecode
    exact (Option.some.inj hdecode).symm
  · cases hkey : decodeKey pubkeyB64 with
    | none => exact Or.inl ⟨rfl, by rw [paymentCode, hkey]⟩
    | some raw =>
        right
        have hcode : paymentCode sha256 pubkeyB64 =
            base58Encode ((sha256 raw).1.take 20) := by rw [paymentCode, hkey]
        have hlength : ((sha256 raw).1.take 20).length = 20 := by
          rw [List.length_take, (sha256 raw).2]
          rfl
        rw [hcode]
        exact ⟨isBase58Of_base58Encode hlength, isBase58Of_base58Encode hlength, _,
          decode_base58Encode _, hlength⟩

end CumulusVpn.PaymentCodes
