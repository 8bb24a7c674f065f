import CodexHost.Foundation.Json

/-!
# JSON number literals

A literal stands for an exact decimal. Integers are kept as their value, other numbers as their
literal; the rounding of literals to doubles is not modelled.
-/
namespace CodexHost.Foundation
open Nat

inductive JsonNumber where
  | integer (value : Int)
  | other (literal : List Char)
  deriving DecidableEq, Repr

namespace JsonNumber

def digitsValue (digits : List Char) : Nat :=
  digits.foldl (fun value c => value * 10 + (c.toNat - 48)) 0

/-- A sign, and what follows it. -/
def splitSign : List Char → Int × List Char
  | '-' :: rest => (-1, rest)
  | rest => (1, rest)

/-- Digits and what follows them. -/
def splitDigits (text : List Char) : List Char × List Char :=
  (text.takeWhile Char.isDigit, text.dropWhile Char.isDigit)

/-- The fraction of a literal, if there is one, and what follows it. -/
def splitFraction : List Char → Option (List Char × List Char)
  | '.' :: rest =>
    let (digits, rest) := splitDigits rest
    if digits = [] then none else some (digits, rest)
  | rest => some ([], rest)

/-- The exponent of a literal, which ends it. -/
def readExponent (text : List Char) : Option Int :=
  match text with
  | [] => some 0
  | e :: rest =>
    if e ≠ 'e' ∧ e ≠ 'E' then none
    else
      let (sign, digits) : Int × List Char :=
        match rest with
        | '+' :: digits => (1, digits)
        | rest => splitSign rest
      if digits = [] ∨ !digits.all Char.isDigit then none else some (sign * digitsValue digits)

/-- The mantissa and the power of ten of a number literal. -/
def readDecimal (text : List Char) : Option (Int × Int) := do
  let (sign, rest) := splitSign text
  let (whole, rest) := splitDigits rest
  if whole = [] ∨ (whole.head? = some '0' ∧ whole.length ≠ 1) then none
  else
    let (fraction, rest) ← splitFraction rest
    let exponent ← readExponent rest
    return (sign * digitsValue (whole ++ fraction), exponent - fraction.length)

/-- The largest power of ten that doubles reach. -/
def maxExponent : Nat := 308

/-- The integer that a decimal is, if it is one. -/
def integerOf (mantissa exponent : Int) : Option Int :=
  if mantissa = 0 then some 0
  else if 0 ≤ exponent ∧ exponent.toNat ≤ maxExponent then some (mantissa * 10 ^ exponent.toNat)
  else if exponent < 0 ∧ (-exponent).toNat ≤ maxExponent ∧ mantissa % 10 ^ (-exponent).toNat = 0 then
    some (mantissa / 10 ^ (-exponent).toNat)
  else none

def read (text : List Char) : Option JsonNumber := do
  let (mantissa, exponent) ← readDecimal text
  return (integerOf mantissa exponent).elim (.other text) .integer

def write : JsonNumber → List Char
  | .integer value => (toString value).toList
  | .other literal => literal

def format : NumberFormat JsonNumber := ⟨write, read⟩

theorem digitsValue_append (digits : List Char) (c : Char) :
    digitsValue (digits ++ [c]) = digitsValue digits * 10 + (c.toNat - 48) := by
  simp [digitsValue]

/-- The digits of a number have its value, and no zero in front unless the number is zero. -/
theorem toDigits_value (n : Nat) : digitsValue (Nat.toDigits 10 n) = n ∧
    (0 < n → (Nat.toDigits 10 n).head? ≠ some '0') := by
  induction n using Nat.strong_induction_on with
  | _ n ih =>
    by_cases small : n < 10
    · rw [Nat.toDigits_of_lt_base small]
      refine ⟨?_, fun positive zero => ?_⟩
      · simp [digitsValue, Nat.toNat_digitChar_sub_48_of_lt_ten small]
      · rw [List.head?_cons, Option.some.injEq, Nat.digitChar_eq_zero] at zero
        omega
    · have last : n % 10 < 10 := Nat.mod_lt n (by decide)
      obtain ⟨value, front⟩ := ih (n / 10) (by omega)
      rw [Nat.toDigits_of_base_le (by decide) (by omega)]
      refine ⟨?_, fun _ => ?_⟩
      · rw [digitsValue_append, value, Nat.toNat_digitChar_sub_48_of_lt_ten last]
        omega
      · rw [List.head?_append_of_ne_nil _ Nat.toDigits_ne_nil]
        exact front (by omega)

/-- A natural number reads back from its text. -/
theorem faithful_natural (n : Nat) : Json.Faithful format (.integer n) := by
  have text : format.write (.integer n) = Nat.toDigits 10 n := by
    change (Nat.repr n).toList = _
    rw [toList_repr]
  have digits : ∀ c ∈ Nat.toDigits 10 n, c.isDigit = true := fun c member =>
    isDigit_of_mem_toDigits (by decide) (by decide) member
  refine ⟨?_, text ▸ toDigits_ne_nil, ?_⟩
  · rw [text]
    obtain ⟨value, front⟩ := toDigits_value n
    have plain : splitSign (Nat.toDigits 10 n) = (1, Nat.toDigits 10 n) := by
      cases is : Nat.toDigits 10 n with
      | nil => rfl
      | cons c rest =>
        have first := digits c (by simp [is])
        unfold splitSign
        split
        · next same =>
          cases same
          exact absurd first (by decide)
        · rfl
    have whole : splitDigits (Nat.toDigits 10 n) = (Nat.toDigits 10 n, []) := by
      unfold splitDigits
      rw [List.takeWhile_eq_self_iff.mpr digits, List.dropWhile_eq_nil_iff.mpr digits]
    have leading : ¬ (Nat.toDigits 10 n = [] ∨ (Nat.toDigits 10 n).head? = some '0' ∧
        (Nat.toDigits 10 n).length ≠ 1) := by
      rintro (none | ⟨zero, long⟩)
      · exact toDigits_ne_nil none
      · by_cases positive : 0 < n
        · exact front positive zero
        · have isZero : n = 0 := by omega
          rw [isZero] at long
          exact long rfl
    have decimal : readDecimal (Nat.toDigits 10 n) = some ((n : Int), 0) := by
      unfold readDecimal
      rw [plain]
      simp only [whole]
      rw [if_neg leading]
      simp [splitFraction, readExponent, value]
    have integer : integerOf n 0 = some (n : Int) := by
      unfold integerOf
      by_cases zero : (n : Int) = 0
      · rw [if_pos zero, zero]
      · rw [if_neg zero, if_pos ⟨by decide, by decide⟩]
        simp
    change read (Nat.toDigits 10 n) = some (.integer n)
    unfold read
    rw [decimal]
    simp [integer]
  · rw [text]
    intro c member
    unfold Json.isNumberChar
    rw [digits c member]
    rfl

end JsonNumber

end CodexHost.Foundation
