import Mathlib

/-!
# Text encodings

UTF-8 and base64url as Node's buffers have them. Decoding base64url passes over what is not in the
alphabet and stops at padding; decoding UTF-8 fails where Node replaces, and a text with a
replacement encodes to other bytes.
-/
namespace CodexHost.Foundation.TextEncoding
open List

/-- `Buffer.from(text, "utf8")` -/
def utf8Bytes (text : List Char) : List UInt8 := text.flatMap String.utf8EncodeChar

/-- `buffer.toString("utf8")` of well-formed bytes. -/
def utf8Text (bytes : List UInt8) : Option (List Char) :=
  bytes.toByteArray.utf8Decode?.map Array.toList

theorem utf8Text_utf8Bytes (text : List Char) : utf8Text (utf8Bytes text) = some text := by
  have decoded : (utf8Bytes text).toByteArray.utf8Decode? = some text.toArray :=
    utf8Decode?_utf8Encode
  rw [utf8Text, decoded]
  rfl

/-- A character that is no control character has no control byte. -/
theorem utf8EncodeChar_printable {c : Char} (printable : 0x20 ≤ c.toNat) :
    ∀ byte ∈ String.utf8EncodeChar c, 0x20 ≤ byte.toNat := by
  have code : c.val.toNat = c.toNat := rfl
  intro byte member
  unfold String.utf8EncodeChar at member
  generalize c.toNat = n at *
  dsimp only at member
  split at member
  · rw [mem_singleton] at member
    rw [member, UInt8.toNat_ofNat']
    omega
  · split at member
    · simp only [mem_cons, not_mem_nil, or_false] at member
      rcases member with is | is <;> rw [is, UInt8.toNat_ofNat'] <;> omega
    · split at member
      · simp only [mem_cons, not_mem_nil, or_false] at member
        rcases member with is | is | is <;> rw [is, UInt8.toNat_ofNat'] <;> omega
      · simp only [mem_cons, not_mem_nil, or_false] at member
        rcases member with is | is | is | is <;> rw [is, UInt8.toNat_ofNat'] <;> omega

theorem utf8Bytes_printable {text : List Char} (printable : ∀ c ∈ text, 0x20 ≤ c.toNat) :
    ∀ byte ∈ utf8Bytes text, 0x20 ≤ byte.toNat := by
  intro byte member
  obtain ⟨c, inside, here⟩ := mem_flatMap.mp member
  exact utf8EncodeChar_printable (printable c inside) byte here

/-- The character of a group of six bits: letters, digits, `-` and `_`. -/
def digit (value : Nat) : Char :=
  Char.ofNat (if value < 26 then 65 + value else if value < 52 then 71 + value
    else if value < 62 then value - 4 else if value = 62 then 45 else 95)

/-- The six bits of a character; the characters of plain base64 are read too. -/
def digitValue (c : Char) : Option Nat :=
  let code := c.toNat
  if 65 ≤ code ∧ code < 91 then some (code - 65)
  else if 97 ≤ code ∧ code < 123 then some (code - 71)
  else if 48 ≤ code ∧ code < 58 then some (code + 4)
  else if c = '-' ∨ c = '+' then some 62
  else if c = '_' ∨ c = '/' then some 63
  else none

theorem digitValue_digit : ∀ value, value < 64 → digitValue (digit value) = some value := by decide

theorem digit_ne_padding : ∀ value, value < 64 → digit value ≠ '=' := by decide

/-- The groups of six bits of a sequence of bytes; the last one is filled up with zeros. -/
def sextets : List UInt8 → List Nat
  | [] => []
  | [a] => [a.toNat / 4, a.toNat % 4 * 16]
  | [a, b] => [a.toNat / 4, a.toNat % 4 * 16 + b.toNat / 16, b.toNat % 16 * 4]
  | a :: b :: c :: rest =>
    a.toNat / 4 :: (a.toNat % 4 * 16 + b.toNat / 16) :: (b.toNat % 16 * 4 + c.toNat / 64) ::
      c.toNat % 64 :: sextets rest

/-- The bytes that groups of six bits make up; bits that fill no byte are dropped. -/
def bytesOf : List Nat → List UInt8
  | a :: b :: c :: d :: rest =>
    UInt8.ofNat (a * 4 + b / 16) :: UInt8.ofNat (b % 16 * 16 + c / 4) ::
      UInt8.ofNat (c % 4 * 64 + d) :: bytesOf rest
  | [a, b, c] => [UInt8.ofNat (a * 4 + b / 16), UInt8.ofNat (b % 16 * 16 + c / 4)]
  | [a, b] => [UInt8.ofNat (a * 4 + b / 16)]
  | _ => []

/-- `buffer.toString("base64url")` -/
def base64url (bytes : List UInt8) : List Char := (sextets bytes).map digit

/-- `Buffer.from(text, "base64url")` -/
def fromBase64url (text : List Char) : List UInt8 :=
  bytesOf ((text.takeWhile (· ≠ '=')).filterMap digitValue)

theorem sextets_lt (bytes : List UInt8) : ∀ value ∈ sextets bytes, value < 64 := by
  induction bytes using sextets.induct with
  | case1 => simp [sextets]
  | case2 a =>
    have := a.toNat_lt
    simp only [sextets, mem_cons, not_mem_nil, or_false]
    omega
  | case3 a b =>
    have := a.toNat_lt
    have := b.toNat_lt
    simp only [sextets, mem_cons, not_mem_nil, or_false]
    omega
  | case4 a b c rest ih =>
    have := a.toNat_lt
    have := b.toNat_lt
    have := c.toNat_lt
    simp only [sextets, mem_cons]
    rintro value (rfl | rfl | rfl | rfl | member)
    · omega
    · omega
    · omega
    · omega
    · exact ih value member

theorem ofNat_eq {value : Nat} (byte : UInt8) (same : value = byte.toNat) : UInt8.ofNat value = byte := by
  rw [same, UInt8.ofNat_toNat]

theorem bytesOf_sextets (bytes : List UInt8) : bytesOf (sextets bytes) = bytes := by
  induction bytes using sextets.induct with
  | case1 => rfl
  | case2 a =>
    simp only [sextets, bytesOf]
    rw [ofNat_eq a (by omega)]
  | case3 a b =>
    have := b.toNat_lt
    simp only [sextets, bytesOf]
    rw [ofNat_eq a (by omega), ofNat_eq b (by omega)]
  | case4 a b c rest ih =>
    have := b.toNat_lt
    have := c.toNat_lt
    simp only [sextets, bytesOf]
    rw [ofNat_eq a (by omega), ofNat_eq b (by omega), ofNat_eq c (by omega), ih]

theorem fromBase64url_base64url (bytes : List UInt8) : fromBase64url (base64url bytes) = bytes := by
  have small := sextets_lt bytes
  have plain : (base64url bytes).takeWhile (· ≠ '=') = base64url bytes := by
    rw [takeWhile_eq_self_iff]
    intro c member
    obtain ⟨value, here, rfl⟩ := mem_map.mp member
    simpa using digit_ne_padding value (small value here)
  have values : (base64url bytes).filterMap digitValue = sextets bytes := by
    rw [base64url, filterMap_map]
    generalize sextets bytes = groups at small
    induction groups with
    | nil => rfl
    | cons value rest ih =>
      have first : (digitValue ∘ digit) value = some value :=
        digitValue_digit value (small value mem_cons_self)
      rw [filterMap_cons_some first, ih fun other member => small other (mem_cons_of_mem value member)]
  rw [fromBase64url, plain, values, bytesOf_sextets]

end CodexHost.Foundation.TextEncoding
