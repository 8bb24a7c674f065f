import CodexHost.Foundation.Json
import CodexHost.Foundation.TextEncoding

/-!
# Sizes of JSON texts

How many UTF-8 bytes the text of a JSON value has: each character counts its own bytes, and an array or an
object adds its brackets, its commas and, for an object, a colon for every member.
-/
namespace CodexHost.Foundation
open TextEncoding JsonText List Json

/-- The number of UTF-8 bytes of a text. -/
def utf8Size (text : List Char) : Nat := (utf8Bytes text).length

theorem utf8Size_cons (c : Char) (rest : List Char) : utf8Size (c :: rest) = c.utf8Size + utf8Size rest := by
  rw [utf8Size, utf8Bytes, flatMap_cons, length_append, String.length_utf8EncodeChar]
  rfl

theorem utf8Size_append (front back : List Char) :
    utf8Size (front ++ back) = utf8Size front + utf8Size back := by
  rw [utf8Size, utf8Bytes, flatMap_append, length_append]
  rfl

theorem utf8Size_ascii {c : Char} (small : c.toNat < 0x80) : c.utf8Size = 1 := by
  rw [Char.utf8Size, if_pos (UInt32.le_iff_toNat_le.2 (by simp; omega))]

theorem utf8Size_ascii_text {text : List Char} (small : ∀ c ∈ text, c.toNat < 0x80) :
    utf8Size text = text.length := by
  induction text with
  | nil => rfl
  | cons c rest ih =>
    rw [utf8Size_cons, utf8Size_ascii (small c mem_cons_self),
      ih fun d later => small d (mem_cons_of_mem c later), length_cons]
    omega

theorem utf8Size_number {c : Char} (numeric : Json.isNumberChar c = true) : c.toNat < 0x80 := by
  rw [isNumberChar] at numeric
  simp only [Bool.or_eq_true, decide_eq_true_eq, Char.isDigit, Bool.and_eq_true] at numeric
  rcases numeric with ((((digit | is) | is) | is) | is) | is
  · have upper : c.val.toNat ≤ '9'.val.toNat := UInt32.le_iff_toNat_le.1 digit.2
    have nine : '9'.val.toNat = 57 := rfl
    have same : c.toNat = c.val.toNat := rfl
    omega
  all_goals
    rw [is]
    decide

/-- The bytes of a character by its code. -/
theorem utf8Size_toNat (c : Char) : c.utf8Size =
    if c.toNat < 0x80 then 1 else if c.toNat < 0x800 then 2 else if c.toNat < 0x10000 then 3 else 4 := by
  change (if c.toNat ≤ 0x7F then 1 else if c.toNat ≤ 0x7FF then 2 else if c.toNat ≤ 0xFFFF then 3 else 4) = _
  split_ifs <;> omega

theorem hexDigit_small : ∀ value, value < 16 → (hexDigit value).toNat < 0x80 := by decide

theorem utf8Size_hexText (unit : UInt16) : utf8Size (hexText unit) = 4 := by
  have bound := unit.toNat_lt
  refine utf8Size_ascii_text fun c member => ?_
  simp only [hexText, mem_cons, not_mem_nil, or_false] at member
  rcases member with is | is | is | is <;> rw [is] <;> apply hexDigit_small <;> omega

/-- A surrogate pair is one character of four bytes. -/
theorem utf8Size_pairChar {high low : UInt16} (isHigh : Utf16.isHighSurrogate high = true)
    (isLow : Utf16.isLowSurrogate low = true) : (Utf16.pairChar high low).utf8Size = 4 := by
  have code := Utf16.toNat_pairChar isHigh isLow
  rw [utf8Size_toNat, if_neg (by omega), if_neg (by omega), if_neg (by omega)]

/-- A unit that is neither escaped nor a surrogate is the character of its code. -/
theorem utf8Size_unitChar {unit : UInt16} (isHigh : Utf16.isHighSurrogate unit = false)
    (isLow : Utf16.isLowSurrogate unit = false) :
    (Char.ofNat unit.toNat).utf8Size =
      if unit.toNat < 0x80 then 1 else if unit.toNat < 0x800 then 2 else 3 := by
  have bound := unit.toNat_lt
  rw [utf8Size_toNat, Utf16.toNat_unitChar isHigh isLow]
  split_ifs <;> omega

section Values
variable {N : Type} (format : NumberFormat N)

/-- The number of UTF-8 bytes of a value's text. -/
def Json.size (value : Json N) : Nat := utf8Size (value.write format)

def quotedSize (value : Utf16) : Nat := utf8Size (Json.quoted value)

theorem quotedSize_eq (value : Utf16) : quotedSize value = 2 + utf8Size (stringText value) := by
  rw [quotedSize, quoted, utf8Size_cons, utf8Size_append]
  change 1 + (utf8Size (stringText value) + 1) = _
  omega

theorem writeItems_size (items : List (Json N)) :
    utf8Size (Json.writeItems format items) = items.length + 1 + (items.map (Json.size format)).sum := by
  induction items with
  | nil => rfl
  | cons item items ih =>
    rw [writeItems, utf8Size_cons, utf8Size_append, ih, map_cons, sum_cons, length_cons, size]
    change 1 + _ = _
    omega

theorem size_array (items : List (Json N)) :
    Json.size format (.array items) = 2 + (items.length - 1) + (items.map (Json.size format)).sum := by
  cases items with
  | nil => rfl
  | cons item items =>
    rw [size, write, utf8Size_cons, utf8Size_append, writeItems_size, map_cons, sum_cons,
      length_cons, size]
    change 1 + _ = _
    omega

/-- A member with its colon. -/
def memberSize (member : Utf16 × Json N) : Nat := quotedSize member.1 + 1 + Json.size format member.2

theorem memberSize_eq (key : Utf16) (value : Json N) (rest : List Char) :
    utf8Size (Json.quoted key ++ ':' :: (value.write format ++ rest)) =
      memberSize format (key, value) + utf8Size rest := by
  rw [utf8Size_append, utf8Size_cons, utf8Size_append, memberSize, quotedSize, size]
  change _ + (1 + _) = utf8Size (quoted key) + 1 + utf8Size (value.write format) + _
  omega

theorem writeMembers_size (members : List (Utf16 × Json N)) : utf8Size (Json.writeMembers format members) =
      members.length + 1 + (members.map (memberSize format)).sum := by
  induction members with
  | nil => rfl
  | cons member members ih =>
    obtain ⟨key, value⟩ := member
    rw [writeMembers, utf8Size_cons, memberSize_eq, ih, map_cons, sum_cons, length_cons]
    change 1 + _ = _
    omega

theorem size_object (members : List (Utf16 × Json N)) : Json.size format (.object members) =
      2 + (members.length - 1) + (members.map (memberSize format)).sum := by
  cases members with
  | nil => rfl
  | cons member members =>
    obtain ⟨key, value⟩ := member
    rw [size, write, utf8Size_cons, memberSize_eq, writeMembers_size, map_cons, sum_cons,
      length_cons]
    change 1 + _ = _
    omega

end Values

namespace Json
variable {N : Type}

mutual

/-- A value, its items and all that is inside of them. -/
def nodes : Json N → Nat
  | .array items => 1 + nodesItems items
  | .object members => 1 + nodesMembers members
  | .null | .bool _ | .number _ | .string _ => 1

def nodesItems : List (Json N) → Nat
  | [] => 0
  | item :: items => nodes item + nodesItems items

def nodesMembers : List (Utf16 × Json N) → Nat
  | [] => 0
  | (_, value) :: members => nodes value + nodesMembers members

end

mutual

/-- How deep the values inside a value lie. -/
def depth : Json N → Nat
  | .array items => depthItems items
  | .object members => depthMembers members
  | .null | .bool _ | .number _ | .string _ => 0

def depthItems : List (Json N) → Nat
  | [] => 0
  | item :: items => max (depth item + 1) (depthItems items)

def depthMembers : List (Utf16 × Json N) → Nat
  | [] => 0
  | (_, value) :: members => max (depth value + 1) (depthMembers members)

end

mutual

/-- No array in a value has more items than the limit. -/
def ArraysWithin (limit : Nat) : Json N → Prop
  | .array items => items.length ≤ limit ∧ ArraysWithinItems limit items
  | .object members => ArraysWithinMembers limit members
  | .null | .bool _ | .number _ | .string _ => True

def ArraysWithinItems (limit : Nat) : List (Json N) → Prop
  | [] => True
  | item :: items => ArraysWithin limit item ∧ ArraysWithinItems limit items

def ArraysWithinMembers (limit : Nat) : List (Utf16 × Json N) → Prop
  | [] => True
  | (_, value) :: members => ArraysWithin limit value ∧ ArraysWithinMembers limit members

end

theorem nodes_pos (value : Json N) : 0 < value.nodes := by
  cases value <;> rw [nodes] <;> omega

end Json

end CodexHost.Foundation
