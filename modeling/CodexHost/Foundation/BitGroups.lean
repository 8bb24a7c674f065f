import Mathlib

/-!
# Bit strings in groups

A text of bytes as a string of bits, the first bit the highest, cut into groups of one width. The last
group is filled with zeros. Base 16, 32 and 64 are such texts with a letter for each group.
-/
namespace CodexHost.Foundation.BitGroups
open List Nat

/-- The number that the bits write, the first bit the highest. -/
def value : List Bool → Nat
  | [] => 0
  | bit :: bits => bit.toNat * 2 ^ bits.length + value bits

/-- The lowest `width` bits of a number, the highest of them first. -/
def bitsOf : Nat → Nat → List Bool
  | 0, _ => []
  | width + 1, number => number.testBit width :: bitsOf width number

def byteBits (bytes : List UInt8) : List Bool := bytes.flatMap fun byte => bitsOf 8 byte.toNat

/-- A group of fewer bits than the width, with zeros after it. -/
def filled (width : Nat) (bits : List Bool) : List Bool :=
  bits ++ List.replicate (width - bits.length) false

def groups (width : Nat) (bits : List Bool) : List (List Bool) :=
  if 0 < width ∧ 0 < bits.length then
    filled width (bits.take width) :: groups width (bits.drop width)
  else []
termination_by bits.length
decreasing_by simp only [List.length_drop]; omega

theorem value_append (before bits : List Bool) :
    value (before ++ bits) = value before * 2 ^ bits.length + value bits := by
  induction before with
  | nil => simp [value]
  | cons bit before ih =>
    simp only [cons_append, value, ih, length_append, pow_add]
    ring

theorem value_lt (bits : List Bool) : value bits < 2 ^ bits.length := by
  induction bits with
  | nil => simp [value]
  | cons bit bits ih =>
    simp only [value, length_cons, pow_succ]
    cases bit <;> simp <;> omega

@[simp] theorem bitsOf_length (width number : Nat) : (bitsOf width number).length = width := by
  induction width with
  | zero => rfl
  | succ width ih => simp [bitsOf, ih]

theorem value_bitsOf (width number : Nat) : value (bitsOf width number) = number % 2 ^ width := by
  induction width with
  | zero => simp [bitsOf, value, mod_one]
  | succ width ih =>
    rw [bitsOf, value, bitsOf_length, ih, mod_pow_succ, toNat_testBit]
    ring

theorem value_replicate (count : Nat) : value (List.replicate count false) = 0 := by
  induction count with
  | zero => rfl
  | succ count ih => simp [replicate_succ, value, ih]

theorem value_injective {bits others : List Bool} (length : bits.length = others.length)
    (same : value bits = value others) : bits = others := by
  induction bits generalizing others with
  | nil => exact (length_eq_zero_iff.1 length.symm).symm
  | cons bit bits ih =>
    cases others with
    | nil => simp at length
    | cons other others =>
      have shorter : bits.length = others.length := by simpa using length
      have below := value_lt bits
      have otherBelow := value_lt others
      simp only [value, shorter] at same below
      cases bit <;> cases other <;> simp at same
      · rw [ih shorter same]
      · omega
      · omega
      · rw [ih shorter same]

@[simp] theorem filled_length {width : Nat} {bits : List Bool} (short : bits.length ≤ width) :
    (filled width bits).length = width := by
  simp only [filled, length_append, length_replicate]
  omega

theorem filled_full {width : Nat} {bits : List Bool} (full : bits.length = width) :
    filled width bits = bits := by
  simp [filled, full]

@[simp] theorem groups_nil (width : Nat) : groups width [] = [] := by
  rw [groups, if_neg (by simp)]

/-- A whole group at the front is the first group. -/
theorem groups_append {width : Nat} (positive : 0 < width) {group : List Bool}
    (full : group.length = width) (bits : List Bool) :
    groups width (group ++ bits) = group :: groups width bits := by
  rw [groups, if_pos ⟨positive, by simp only [length_append]; omega⟩]
  rw [← full, take_left, drop_left, filled_full rfl]

/-- Fewer bits than a group are the last group. -/
theorem groups_short {width : Nat} {bits : List Bool} (some : 0 < bits.length)
    (short : bits.length ≤ width) : groups width bits = [filled width bits] := by
  rw [groups, if_pos ⟨by omega, some⟩, take_of_length_le short, drop_eq_nil_of_le short, groups_nil]

theorem groups_width {width : Nat} {bits group : List Bool} (taken : group ∈ groups width bits) :
    group.length = width := by
  induction bits using groups.induct width with
  | case1 bits room ih =>
    rw [groups, if_pos room, mem_cons] at taken
    obtain rfl | later := taken
    · exact filled_length (by simp [length_take])
    · exact ih later
  | case2 bits done =>
    rw [groups, if_neg done] at taken
    simp at taken

theorem groups_length {width : Nat} (positive : 0 < width) (bits : List Bool) :
    (groups width bits).length = (bits.length + (width - 1)) / width := by
  induction bits using groups.induct width with
  | case1 bits room ih =>
    rw [groups, if_pos room, length_cons, ih, length_drop]
    obtain small | large := Nat.lt_or_ge bits.length width
    · have one : bits.length + (width - 1) = (bits.length - 1) + width := by omega
      rw [Nat.sub_eq_zero_of_le small.le, Nat.zero_add, Nat.div_eq_of_lt (by omega), one,
        Nat.add_div_right _ positive, Nat.div_eq_of_lt (by omega)]
    · rw [← Nat.add_div_right _ positive]
      congr 1
      omega
  | case2 bits done =>
    rw [groups, if_neg done, Nat.div_eq_of_lt (by omega)]
    rfl

/-- The groups hold the bits, with zeros only after them. -/
theorem groups_flatten {width : Nat} (positive : 0 < width) (bits : List Bool) :
    ∃ zeros, (groups width bits).flatten = bits ++ List.replicate zeros false := by
  induction bits using groups.induct width with
  | case1 bits room ih =>
    obtain ⟨zeros, later⟩ := ih
    rw [groups, if_pos room, flatten_cons, later]
    obtain small | large := lt_or_ge bits.length width
    · refine ⟨width - bits.length + zeros, ?_⟩
      rw [take_of_length_le small.le, drop_eq_nil_of_le small.le, nil_append, filled,
        append_assoc, replicate_append_replicate]
    · refine ⟨zeros, ?_⟩
      rw [filled_full (length_take_of_le large), ← append_assoc, take_append_drop]
  | case2 bits done =>
    have empty : bits = [] := by
      rw [← length_eq_zero_iff]
      omega
    exact ⟨0, by simp [empty]⟩

theorem groups_injective {width : Nat} (positive : 0 < width) {bits others : List Bool}
    (length : bits.length = others.length) (same : groups width bits = groups width others) :
    bits = others := by
  obtain ⟨zeros, first⟩ := groups_flatten positive bits
  obtain ⟨more, second⟩ := groups_flatten positive others
  rw [same, second] at first
  exact (append_inj_left first length.symm).symm

@[simp] theorem byteBits_length (bytes : List UInt8) : (byteBits bytes).length = 8 * bytes.length := by
  induction bytes with
  | nil => rfl
  | cons byte bytes ih =>
    have first : byteBits (byte :: bytes) = bitsOf 8 byte.toNat ++ byteBits bytes := rfl
    rw [first, length_append, ih, bitsOf_length, length_cons]
    omega

theorem byteBits_injective {bytes others : List UInt8} (same : byteBits bytes = byteBits others) :
    bytes = others := by
  induction bytes generalizing others with
  | nil =>
    have length := congrArg List.length same
    exact (length_eq_zero_iff.1 (by simpa using length.symm)).symm
  | cons byte bytes ih =>
    cases others with
    | nil => simpa using congrArg List.length same
    | cons other others =>
      have split : bitsOf 8 byte.toNat ++ byteBits bytes = bitsOf 8 other.toNat ++ byteBits others :=
        same
      obtain ⟨head, tail⟩ := append_inj split (by simp)
      have number := congrArg value head
      rw [value_bitsOf, value_bitsOf, mod_eq_of_lt byte.toNat_lt,
        mod_eq_of_lt other.toNat_lt] at number
      rw [UInt8.toNat_inj.1 number, ih tail]

end CodexHost.Foundation.BitGroups
