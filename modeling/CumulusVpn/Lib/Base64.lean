/-
The standard base64 of a list of bytes, padded.

* `encode`: the text of the bytes, four letters for three of them;
* `decodeQuanta`: the bytes of a text; the bits that the padding cuts off may
  be anything;
* `decode`: the strict decoder, which takes no text but that of the bytes;
* `decode_encode`: **the text reads back**; `encode_of_decode`: nothing else is
  read;
* `decodeQuanta_text`: what a text is made of, and how long it is.
-/
import Mathlib.Data.List.Basic

namespace Base64

/-- The letters, in the order of the six bits that they stand for. -/
def alphabet : List Char :=
  "ABCDEFGHIJKLMNOPQRSTUVWXYZabcdefghijklmnopqrstuvwxyz0123456789+/".toList

/-- The letter of six bits. -/
def letter (n : Nat) : Char := alphabet.getD n '='

/-- The six bits of a letter. -/
def sextet (c : Char) : Option Nat :=
  if 'A' ≤ c ∧ c ≤ 'Z' then some (c.toNat - 'A'.toNat)
  else if 'a' ≤ c ∧ c ≤ 'z' then some (c.toNat - 'a'.toNat + 26)
  else if '0' ≤ c ∧ c ≤ '9' then some (c.toNat - '0'.toNat + 52)
  else if c = '+' then some 62
  else if c = '/' then some 63
  else none

/-- The text of the bytes. -/
def encode : List UInt8 → List Char
  | [] => []
  | [a] => [letter (a.toNat / 4), letter (a.toNat % 4 * 16), '=', '=']
  | [a, b] =>
      [letter (a.toNat / 4), letter (a.toNat % 4 * 16 + b.toNat / 16),
        letter (b.toNat % 16 * 4), '=']
  | a :: b :: c :: bytes =>
      letter (a.toNat / 4) :: letter (a.toNat % 4 * 16 + b.toNat / 16) ::
        letter (b.toNat % 16 * 4 + c.toNat / 64) :: letter (c.toNat % 64) :: encode bytes

/-- The bytes of a text, four letters at a time. -/
def decodeQuanta : List Char → Option (List UInt8)
  | [] => some []
  | w :: x :: y :: z :: cs => do
      let w ← sextet w
      let x ← sextet x
      if y = '=' then
        if z = '=' ∧ cs = [] then return [.ofNat (w * 4 + x / 16)] else none
      else
        let y ← sextet y
        if z = '=' then
          if cs = [] then return [.ofNat (w * 4 + x / 16), .ofNat (x % 16 * 16 + y / 4)]
          else none
        else
          let z ← sextet z
          let bytes ← decodeQuanta cs
          return .ofNat (w * 4 + x / 16) :: .ofNat (x % 16 * 16 + y / 4) ::
            .ofNat (y % 4 * 64 + z) :: bytes
  | _ => none

/-- The bytes of a text that is the one for them. -/
def decode (cs : List Char) : Option (List UInt8) :=
  (decodeQuanta cs).filter fun bytes => encode bytes = cs

lemma sextet_letter : ∀ n < 64, sextet (letter n) = some n ∧ letter n ≠ '=' := by
  decide +kernel

lemma decodeQuanta_encode (bytes : List UInt8) : decodeQuanta (encode bytes) = some bytes := by
  have hbyte : ∀ (a : UInt8) (n : Nat), n = a.toNat → UInt8.ofNat n = a := by
    rintro a n rfl
    exact UInt8.ofNat_toNat
  induction bytes using encode.induct with
  | case1 => rfl
  | case2 a =>
      have ha : a.toNat < 256 := a.toNat_lt
      obtain ⟨hw, -⟩ := sextet_letter (a.toNat / 4) (by omega)
      obtain ⟨hx, -⟩ := sextet_letter (a.toNat % 4 * 16) (by omega)
      simp only [encode, decodeQuanta, hw, hx, Option.bind_eq_bind, Option.bind_some, and_self,
        if_true]
      rw [hbyte a _ (by omega)]
      rfl
  | case3 a b =>
      have ha : a.toNat < 256 := a.toNat_lt
      have hb : b.toNat < 256 := b.toNat_lt
      obtain ⟨hw, -⟩ := sextet_letter (a.toNat / 4) (by omega)
      obtain ⟨hx, -⟩ := sextet_letter (a.toNat % 4 * 16 + b.toNat / 16) (by omega)
      obtain ⟨hy, hypad⟩ := sextet_letter (b.toNat % 16 * 4) (by omega)
      simp only [encode, decodeQuanta, hw, hx, hy, if_neg hypad, Option.bind_eq_bind,
        Option.bind_some, if_true]
      rw [hbyte a _ (by omega), hbyte b _ (by omega)]
      rfl
  | case4 a b c bytes ih =>
      have ha : a.toNat < 256 := a.toNat_lt
      have hb : b.toNat < 256 := b.toNat_lt
      have hc : c.toNat < 256 := c.toNat_lt
      obtain ⟨hw, -⟩ := sextet_letter (a.toNat / 4) (by omega)
      obtain ⟨hx, -⟩ := sextet_letter (a.toNat % 4 * 16 + b.toNat / 16) (by omega)
      obtain ⟨hy, hypad⟩ := sextet_letter (b.toNat % 16 * 4 + c.toNat / 64) (by omega)
      obtain ⟨hz, hzpad⟩ := sextet_letter (c.toNat % 64) (by omega)
      simp only [encode, decodeQuanta, hw, hx, hy, hz, if_neg hypad, if_neg hzpad,
        Option.bind_eq_bind, Option.bind_some, ih]
      rw [hbyte a _ (by omega), hbyte b _ (by omega), hbyte c _ (by omega)]
      rfl

/-- A text is made of letters and padding, four characters for three bytes or
for less at its end. -/
lemma decodeQuanta_text {cs : List Char} {bytes : List UInt8} (h : decodeQuanta cs = some bytes) :
    (∀ c ∈ cs, (sextet c).isSome ∨ c = '=') ∧
      ∃ pad ≤ 2, 4 * (bytes.length + pad) = 3 * cs.length := by
  have hletter : ∀ {c : Char} {n : Nat}, sextet c = some n → (sextet c).isSome ∨ c = '=' :=
    fun hc => Or.inl (Option.isSome_of_eq_some hc)
  match cs, h with
  | [], h =>
      cases h
      exact ⟨nofun, 0, Nat.zero_le 2, rfl⟩
  | w :: x :: y :: z :: cs, h =>
      rw [decodeQuanta] at h
      simp only [Option.bind_eq_bind, Option.bind_eq_some_iff] at h
      obtain ⟨a, hw, b, hx, h⟩ := h
      split at h
      · rename_i hy
        split at h
        · rename_i hz
          obtain ⟨hz, rfl⟩ := hz
          cases h
          refine ⟨?_, 2, Nat.le_refl 2, rfl⟩
          simp only [List.forall_mem_cons]
          exact ⟨hletter hw, hletter hx, .inr hy, .inr hz, nofun⟩
        · cases h
      · simp only [Option.bind_eq_some_iff] at h
        obtain ⟨c, hy, h⟩ := h
        split at h
        · rename_i hz
          split at h
          · rename_i hcs
            subst hcs
            cases h
            refine ⟨?_, 1, by omega, rfl⟩
            simp only [List.forall_mem_cons]
            exact ⟨hletter hw, hletter hx, hletter hy, .inr hz, nofun⟩
          · cases h
        · simp only [Option.bind_eq_some_iff] at h
          obtain ⟨d, hz, rest, hrest, h⟩ := h
          cases h
          obtain ⟨hmem, pad, hpad, hlength⟩ := decodeQuanta_text hrest
          refine ⟨?_, pad, hpad, ?_⟩
          · simp only [List.forall_mem_cons]
            exact ⟨hletter hw, hletter hx, hletter hy, hletter hz, hmem⟩
          · simp only [List.length_cons]
            omega

/-- **The text reads back.** -/
theorem decode_encode (bytes : List UInt8) : decode (encode bytes) = some bytes := by
  rw [decode, decodeQuanta_encode, Option.filter_some, if_pos (by simp)]

/-- Nothing else is read. -/
lemma encode_of_decode {cs : List Char} {bytes : List UInt8} (h : decode cs = some bytes) :
    encode bytes = cs := by
  rw [decode, Option.filter_eq_some_iff] at h
  simpa using h.2

end Base64
