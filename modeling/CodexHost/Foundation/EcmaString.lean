import Mathlib

/-!
# ECMAScript string measures

Length, blankness, code units and order of strings as ECMAScript has them: a string is
a sequence of UTF-16 code units, a character above U+FFFF being two of them.
-/
namespace CodexHost.Foundation.EcmaString

def unitsOf (c : Char) : List Nat :=
  if c.toNat < 0x10000 then [c.toNat]
  else [0xD800 + (c.toNat - 0x10000) / 0x400, 0xDC00 + (c.toNat - 0x10000) % 0x400]

def codeUnits (s : String) : List Nat := s.toList.flatMap unitsOf

def length (s : String) : Nat := (codeUnits s).length

/-- The white space and line terminators that `String.prototype.trim` removes. -/
def isWhiteSpace (c : Char) : Bool :=
  (0x0009 ≤ c.toNat && c.toNat ≤ 0x000D) || c.toNat = 0x0020 || c.toNat = 0x00A0 ||
  c.toNat = 0x1680 || (0x2000 ≤ c.toNat && c.toNat ≤ 0x200A) || c.toNat = 0x2028 ||
  c.toNat = 0x2029 || c.toNat = 0x202F || c.toNat = 0x205F || c.toNat = 0x3000 ||
  c.toNat = 0xFEFF

/-- `value.trim().length === 0` -/
def isBlank (s : String) : Bool := s.toList.all isWhiteSpace

/-- The operator `<` on strings. -/
def lessThan (a b : String) : Prop := codeUnits a < codeUnits b

instance (a b : String) : Decidable (lessThan a b) :=
  inferInstanceAs (Decidable (codeUnits a < codeUnits b))

theorem not_surrogate (c : Char) : c.toNat < 0xD800 ∨ (0xDFFF < c.toNat ∧ c.toNat < 0x110000) := c.valid

/-- The first code units of a text determine its first character: a unit that opens a pair
is no character by itself. -/
theorem unitsOf_append_inj {c d : Char} {rest rest' : List Nat}
    (same : unitsOf c ++ rest = unitsOf d ++ rest') : c = d ∧ rest = rest' := by
  have plain := not_surrogate c
  have plain' := not_surrogate d
  unfold unitsOf at same
  split at same <;> split at same <;> simp only [List.cons_append, List.nil_append, List.cons.injEq] at same
  · exact ⟨Char.toNat_inj.mp same.1, same.2⟩
  · omega
  · omega
  · exact ⟨Char.toNat_inj.mp (by omega), same.2.2⟩

theorem unitsOf_ne_nil (c : Char) : unitsOf c ≠ [] := by
  unfold unitsOf
  split <;> simp

theorem flatMap_unitsOf_inj {a b : List Char} (same : a.flatMap unitsOf = b.flatMap unitsOf) : a = b := by
  induction a generalizing b with
  | nil =>
    cases b with
    | nil => rfl
    | cons d rest => simp [unitsOf_ne_nil] at same
  | cons c text ih =>
    cases b with
    | nil => simp [unitsOf_ne_nil] at same
    | cons d rest =>
      obtain ⟨rfl, tails⟩ := unitsOf_append_inj same
      rw [ih tails]

theorem codeUnits_injective : Function.Injective codeUnits :=
  fun _ _ same => String.toList_inj.mp (flatMap_unitsOf_inj same)

theorem lessThan_irrefl (a : String) : ¬ lessThan a a := lt_irrefl (codeUnits a)

theorem lessThan_trans {a b c : String} (first : lessThan a b) (second : lessThan b c) :
    lessThan a c := lt_trans first second

/-- Two texts of which neither comes first are the same. -/
theorem lessThan_trichotomy (a b : String) : lessThan a b ∨ a = b ∨ lessThan b a := by
  rcases lt_trichotomy (codeUnits a) (codeUnits b) with before | same | after
  · exact .inl before
  · exact .inr (.inl (codeUnits_injective same))
  · exact .inr (.inr after)

end CodexHost.Foundation.EcmaString
