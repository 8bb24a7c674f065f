import CodexHost.Foundation.EcmaString

/-!
# JSON strings

ECMAScript strings as sequences of UTF-16 code units, the text that `JSON.stringify` writes for
one between its quotes, and what `JSON.parse` reads from it: a surrogate that is not part of a
pair is written as an escape, so the text is well-formed for every string.
-/
namespace CodexHost.Foundation
open List

/-- An ECMAScript string. -/
abbrev Utf16 := List UInt16

namespace Utf16

/-- The code units of a character. -/
def ofChar (c : Char) : Utf16 := (EcmaString.unitsOf c).map UInt16.ofNat

def ofString (s : String) : Utf16 := s.toList.flatMap ofChar

def isHighSurrogate (unit : UInt16) : Bool := 0xD800 ≤ unit.toNat && unit.toNat < 0xDC00

def isLowSurrogate (unit : UInt16) : Bool := 0xDC00 ≤ unit.toNat && unit.toNat < 0xE000

/-- The character of a surrogate pair. -/
def pairChar (high low : UInt16) : Char :=
  Char.ofNat (0x10000 + (high.toNat - 0xD800) * 0x400 + (low.toNat - 0xDC00))

theorem toNat_charOfNat {n : Nat} (valid : n.isValidChar) : (Char.ofNat n).toNat = n := by
  rw [Char.ofNat, dif_pos valid]
  rfl

theorem toNat_pairChar {high low : UInt16} (isHigh : isHighSurrogate high = true)
    (isLow : isLowSurrogate low = true) : (pairChar high low).toNat =
      0x10000 + (high.toNat - 0xD800) * 0x400 + (low.toNat - 0xDC00) := by
  simp only [isHighSurrogate, isLowSurrogate, Bool.and_eq_true, decide_eq_true_eq] at isHigh isLow
  exact toNat_charOfNat (.inr ⟨by omega, by omega⟩)

theorem ofChar_pairChar {high low : UInt16} (isHigh : isHighSurrogate high = true)
    (isLow : isLowSurrogate low = true) : ofChar (pairChar high low) = [high, low] := by
  have value := toNat_pairChar isHigh isLow
  simp only [isHighSurrogate, isLowSurrogate, Bool.and_eq_true, decide_eq_true_eq] at isHigh isLow
  have front : 0xD800 + (high.toNat - 0xD800) = high.toNat := by omega
  have back : 0xDC00 + (low.toNat - 0xDC00) = low.toNat := by omega
  have quotient : ((pairChar high low).toNat - 0x10000) / 0x400 = high.toNat - 0xD800 := by omega
  have remainder : ((pairChar high low).toNat - 0x10000) % 0x400 = low.toNat - 0xDC00 := by omega
  rw [ofChar, EcmaString.unitsOf, if_neg (by omega), quotient, remainder, front, back]
  simp

/-- A code unit that is no surrogate is a character. -/
theorem toNat_unitChar {unit : UInt16} (isHigh : isHighSurrogate unit = false)
    (isLow : isLowSurrogate unit = false) : (Char.ofNat unit.toNat).toNat = unit.toNat := by
  have bound := unit.toNat_lt
  simp only [isHighSurrogate, isLowSurrogate, Bool.and_eq_false_iff, decide_eq_false_iff_not] at isHigh isLow
  apply toNat_charOfNat
  by_cases small : unit.toNat < 0xD800
  · exact .inl small
  · exact .inr ⟨by omega, by omega⟩

theorem ofChar_unitChar {unit : UInt16} (isHigh : isHighSurrogate unit = false)
    (isLow : isLowSurrogate unit = false) : ofChar (Char.ofNat unit.toNat) = [unit] := by
  have bound := unit.toNat_lt
  rw [ofChar, EcmaString.unitsOf, toNat_unitChar isHigh isLow, if_pos (by omega)]
  simp

/-- The code units of a text. -/
def ofText (text : List Char) : Utf16 := text.flatMap ofChar

/-- The character of a code unit that is not part of a pair. -/
def unitChar (unit : UInt16) : Char :=
  if isHighSurrogate unit || isLowSurrogate unit then Char.ofNat 0xFFFD else Char.ofNat unit.toNat

/-- The text of a string; U+FFFD stands for a surrogate that is not part of a pair. -/
def text : Utf16 → List Char
  | [] => []
  | [unit] => [unitChar unit]
  | unit :: next :: rest =>
    if isHighSurrogate unit ∧ isLowSurrogate next then pairChar unit next :: text rest
    else unitChar unit :: text (next :: rest)

/-- A character is one code unit that is no surrogate, or a surrogate pair. -/
theorem ofChar_cases (c : Char) :
    (∃ unit, ofChar c = [unit] ∧ isHighSurrogate unit = false ∧ unitChar unit = c) ∨
      ∃ high low, ofChar c = [high, low] ∧ isHighSurrogate high = true ∧ isLowSurrogate low = true ∧
        pairChar high low = c := by
  have plain := EcmaString.not_surrogate c
  unfold ofChar EcmaString.unitsOf
  split
  · next small =>
    have value : (UInt16.ofNat c.toNat).toNat = c.toNat := by
      rw [UInt16.toNat_ofNat']
      omega
    have isHigh : isHighSurrogate (UInt16.ofNat c.toNat) = false := by
      unfold isHighSurrogate
      simp only [Bool.and_eq_false_iff, decide_eq_false_iff_not]
      omega
    have isLow : isLowSurrogate (UInt16.ofNat c.toNat) = false := by
      unfold isLowSurrogate
      simp only [Bool.and_eq_false_iff, decide_eq_false_iff_not]
      omega
    refine .inl ⟨UInt16.ofNat c.toNat, rfl, isHigh, ?_⟩
    rw [unitChar, isHigh, isLow, value]
    exact Char.ofNat_toNat c
  · next large =>
    have high : (UInt16.ofNat (0xD800 + (c.toNat - 0x10000) / 0x400)).toNat =
        0xD800 + (c.toNat - 0x10000) / 0x400 := by
      rw [UInt16.toNat_ofNat']
      omega
    have low : (UInt16.ofNat (0xDC00 + (c.toNat - 0x10000) % 0x400)).toNat =
        0xDC00 + (c.toNat - 0x10000) % 0x400 := by
      rw [UInt16.toNat_ofNat']
      omega
    have isHigh : isHighSurrogate (UInt16.ofNat (0xD800 + (c.toNat - 0x10000) / 0x400)) = true := by
      unfold isHighSurrogate
      simp only [Bool.and_eq_true, decide_eq_true_eq]
      omega
    have isLow : isLowSurrogate (UInt16.ofNat (0xDC00 + (c.toNat - 0x10000) % 0x400)) = true := by
      unfold isLowSurrogate
      rw [low]
      simp only [Bool.and_eq_true, decide_eq_true_eq]
      omega
    refine .inr ⟨_, _, rfl, isHigh, isLow, Char.toNat_inj.mp ?_⟩
    rw [toNat_pairChar isHigh isLow, high, low]
    omega

/-- A text is the text of its code units. -/
theorem text_ofText (characters : List Char) : text (ofText characters) = characters := by
  induction characters with
  | nil => rfl
  | cons c rest ih =>
    rw [ofText, flatMap_cons, ← ofText]
    rcases ofChar_cases c with ⟨unit, is, isHigh, value⟩ | ⟨high, low, is, isHigh, isLow, value⟩
    · rw [is, singleton_append]
      cases later : ofText rest with
      | nil =>
        rw [later] at ih
        rw [text, value, ← ih]
        rfl
      | cons next others =>
        rw [later] at ih
        rw [text, if_neg (by simp [isHigh]), value, ih]
    · rw [is, cons_append, singleton_append, text, if_pos ⟨isHigh, isLow⟩, value, ih]

theorem ofString_inj {a b : String} : ofString a = ofString b ↔ a = b := by
  refine ⟨fun same => String.toList_injective ?_, congrArg _⟩
  have texts := congrArg text same
  rwa [ofString, ofString, ← ofText, ← ofText, text_ofText, text_ofText] at texts

end Utf16

namespace JsonText

def hexDigit (value : Nat) : Char := Char.ofNat (if value < 10 then 48 + value else 87 + value)

def hexValue (c : Char) : Option Nat :=
  if 48 ≤ c.toNat ∧ c.toNat < 58 then some (c.toNat - 48)
  else if 97 ≤ c.toNat ∧ c.toNat < 103 then some (c.toNat - 87)
  else if 65 ≤ c.toNat ∧ c.toNat < 71 then some (c.toNat - 55)
  else none

theorem hexValue_hexDigit : ∀ value, value < 16 → hexValue (hexDigit value) = some value := by decide

/-- A code unit as four hexadecimal digits. -/
def hexText (unit : UInt16) : List Char :=
  [hexDigit (unit.toNat / 4096), hexDigit (unit.toNat / 256 % 16), hexDigit (unit.toNat / 16 % 16),
    hexDigit (unit.toNat % 16)]

def hexUnit (a b c d : Char) : Option UInt16 := do
  return UInt16.ofNat ((← hexValue a) * 4096 + (← hexValue b) * 256 + (← hexValue c) * 16 + (← hexValue d))

/-- `QuoteJSONString` for one code unit that is not part of a surrogate pair. -/
def unitText (unit : UInt16) : List Char :=
  if unit = 0x22 then ['\\', '"']
  else if unit = 0x5C then ['\\', '\\']
  else if unit = 0x08 then ['\\', 'b']
  else if unit = 0x09 then ['\\', 't']
  else if unit = 0x0A then ['\\', 'n']
  else if unit = 0x0C then ['\\', 'f']
  else if unit = 0x0D then ['\\', 'r']
  else if unit.toNat < 0x20 ∨ Utf16.isHighSurrogate unit ∨ Utf16.isLowSurrogate unit then
    '\\' :: 'u' :: hexText unit
  else [Char.ofNat unit.toNat]

/-- The text of a string between its quotes. -/
def stringText : Utf16 → List Char
  | [] => []
  | [unit] => unitText unit
  | unit :: next :: rest =>
    if Utf16.isHighSurrogate unit ∧ Utf16.isLowSurrogate next then
      Utf16.pairChar unit next :: stringText rest
    else unitText unit ++ stringText (next :: rest)

/-- What a backslash and this character stand for. -/
def escapedUnit (c : Char) : Option UInt16 :=
  if c = '"' then some 0x22
  else if c = '\\' then some 0x5C
  else if c = '/' then some 0x2F
  else if c = 'b' then some 0x08
  else if c = 't' then some 0x09
  else if c = 'n' then some 0x0A
  else if c = 'f' then some 0x0C
  else if c = 'r' then some 0x0D
  else none

/-- Reads a string after its opening quote, up to the closing one. -/
def readString : List Char → Option (Utf16 × List Char)
  | [] => none
  | '"' :: rest => some ([], rest)
  | '\\' :: 'u' :: a :: b :: c :: d :: rest => do
    let unit ← hexUnit a b c d
    let (units, after) ← readString rest
    return (unit :: units, after)
  | '\\' :: escaped :: rest => do
    let unit ← escapedUnit escaped
    let (units, after) ← readString rest
    return (unit :: units, after)
  | c :: rest => do
    if c.toNat < 0x20 ∨ c = '\\' then none
    else
      let (units, after) ← readString rest
      return (Utf16.ofChar c ++ units, after)

/-- A string that starts with these units. -/
def prepend (units : Utf16) (read : Utf16 × List Char) : Utf16 × List Char :=
  (units ++ read.1, read.2)

theorem readString_char {c : Char} (rest : List Char) (printable : 0x20 ≤ c.toNat)
    (notQuote : c ≠ '"') (notBackslash : c ≠ '\\') :
    readString (c :: rest) = (readString rest).map (prepend (Utf16.ofChar c)) := by
  rw [readString.eq_def]
  split
  · next none => cases none
  · next quote =>
    cases quote
    exact absurd rfl notQuote
  · next escape =>
    cases escape
    exact absurd rfl notBackslash
  · next escape =>
    cases escape
    exact absurd rfl notBackslash
  · next same =>
    cases same
    rw [if_neg (by
      rintro (control | backslash)
      · omega
      · exact notBackslash backslash)]
    cases readString rest <;> rfl

theorem readString_escaped {escaped : Char} {unit : UInt16} (rest : List Char)
    (notUnicode : escaped ≠ 'u') (known : escapedUnit escaped = some unit) :
    readString ('\\' :: escaped :: rest) = (readString rest).map (prepend [unit]) := by
  rw [readString.eq_def]
  split
  · next none => cases none
  · next quote => cases quote
  · next unicode =>
    cases unicode
    exact absurd rfl notUnicode
  · next same =>
    cases same
    rw [known]
    cases readString rest <;> rfl
  · next other same =>
    cases same
    exact (other escaped rest rfl rfl).elim

theorem readString_hexText (unit : UInt16) (rest : List Char) :
    readString ('\\' :: 'u' :: (hexText unit ++ rest)) = (readString rest).map (prepend [unit]) := by
  have bound := unit.toNat_lt
  have value : hexUnit (hexDigit (unit.toNat / 4096)) (hexDigit (unit.toNat / 256 % 16))
      (hexDigit (unit.toNat / 16 % 16)) (hexDigit (unit.toNat % 16)) = some unit := by
    have sum : unit.toNat / 4096 * 4096 + unit.toNat / 256 % 16 * 256 + unit.toNat / 16 % 16 * 16 +
        unit.toNat % 16 = unit.toNat := by omega
    simp only [hexUnit, hexValue_hexDigit _ (show unit.toNat / 4096 < 16 by omega),
      hexValue_hexDigit _ (show unit.toNat / 256 % 16 < 16 by omega),
      hexValue_hexDigit _ (show unit.toNat / 16 % 16 < 16 by omega),
      hexValue_hexDigit _ (show unit.toNat % 16 < 16 by omega), bind, Option.bind, pure, sum,
      UInt16.ofNat_toNat]
  simp only [hexText, cons_append, nil_append]
  rw [readString, value]
  cases readString rest <;> rfl

theorem readString_unitText (unit : UInt16) (rest : List Char) :
    readString (unitText unit ++ rest) = (readString rest).map (prepend [unit]) := by
  unfold unitText
  split
  · next same => exact readString_escaped rest (by decide) (by rw [same]; rfl)
  split
  · next same => exact readString_escaped rest (by decide) (by rw [same]; rfl)
  split
  · next same => exact readString_escaped rest (by decide) (by rw [same]; rfl)
  split
  · next same => exact readString_escaped rest (by decide) (by rw [same]; rfl)
  split
  · next same => exact readString_escaped rest (by decide) (by rw [same]; rfl)
  split
  · next same => exact readString_escaped rest (by decide) (by rw [same]; rfl)
  split
  · next same => exact readString_escaped rest (by decide) (by rw [same]; rfl)
  split
  · exact readString_hexText unit rest
  · next notQuote notBackslash _ _ _ _ _ plain =>
    simp only [not_or, Nat.not_lt, Bool.not_eq_true] at plain
    obtain ⟨printable, isHigh, isLow⟩ := plain
    have value := Utf16.toNat_unitChar isHigh isLow
    have apart : ∀ special : UInt16, unit ≠ special → ∀ c : Char, c.toNat = special.toNat →
        Char.ofNat unit.toNat ≠ c := by
      intro special different c code same
      rw [same, code] at value
      exact different (UInt16.toNat_inj.mp value).symm
    rw [singleton_append, readString_char rest (by omega) (apart 0x22 notQuote _ rfl)
      (apart 0x5C notBackslash _ rfl), Utf16.ofChar_unitChar isHigh isLow]

/-- The text of a string reads back as the string. -/
theorem readString_stringText (units : Utf16) (rest : List Char) :
    readString (stringText units ++ '"' :: rest) = some (units, rest) := by
  induction units using stringText.induct with
  | case1 => rfl
  | case2 unit =>
    rw [stringText, readString_unitText]
    rfl
  | case3 unit next units pair ih =>
    have value := Utf16.toNat_pairChar pair.1 pair.2
    have apart : ∀ c : Char, c.toNat < 0x10000 → Utf16.pairChar unit next ≠ c := by
      rintro c small rfl
      omega
    rw [stringText, if_pos pair, cons_append, readString_char _ (by omega)
      (apart '"' (by decide)) (apart '\\' (by decide)), ih, Utf16.ofChar_pairChar pair.1 pair.2]
    rfl
  | case4 unit next units single ih =>
    rw [stringText, if_neg single, append_assoc, readString_unitText, ih]
    rfl

/-- No character of the text is a control character. -/
def Printable (text : List Char) : Prop := ∀ c ∈ text, 0x20 ≤ c.toNat

theorem printable_append {front back : List Char} :
    Printable (front ++ back) ↔ Printable front ∧ Printable back :=
  forall_mem_append

theorem printable_cons {c : Char} {rest : List Char} :
    Printable (c :: rest) ↔ 0x20 ≤ c.toNat ∧ Printable rest :=
  forall_mem_cons

theorem printable_nil : Printable [] := forall_mem_nil _

theorem printable_word {word : List Char} (visible : word.all (0x20 ≤ ·.toNat) = true) : Printable word := by
  simpa [Printable] using visible

theorem printable_hexDigit : ∀ value, value < 16 → 0x20 ≤ (hexDigit value).toNat := by decide

theorem printable_unitText (unit : UInt16) : Printable (unitText unit) := by
  have bound := unit.toNat_lt
  unfold unitText
  split
  · exact printable_word (by decide)
  split
  · exact printable_word (by decide)
  split
  · exact printable_word (by decide)
  split
  · exact printable_word (by decide)
  split
  · exact printable_word (by decide)
  split
  · exact printable_word (by decide)
  split
  · exact printable_word (by decide)
  split
  · simp only [printable_cons, hexText]
    exact ⟨by decide, by decide, printable_hexDigit _ (by omega), printable_hexDigit _ (by omega),
      printable_hexDigit _ (by omega), printable_hexDigit _ (by omega), printable_nil⟩
  · next plain =>
    simp only [not_or, Nat.not_lt, Bool.not_eq_true] at plain
    obtain ⟨printable, isHigh, isLow⟩ := plain
    rw [printable_cons, Utf16.toNat_unitChar isHigh isLow]
    exact ⟨printable, printable_nil⟩

theorem printable_stringText (units : Utf16) : Printable (stringText units) := by
  induction units using stringText.induct with
  | case1 => exact printable_nil
  | case2 unit => exact printable_unitText unit
  | case3 unit next units pair ih =>
    have value := Utf16.toNat_pairChar pair.1 pair.2
    rw [stringText, if_pos pair, printable_cons]
    exact ⟨by omega, ih⟩
  | case4 unit next units single ih =>
    rw [stringText, if_neg single, printable_append]
    exact ⟨printable_unitText unit, ih⟩

end JsonText

end CodexHost.Foundation
