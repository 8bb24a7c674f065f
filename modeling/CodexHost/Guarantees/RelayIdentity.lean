import CodexHost.Foundation.BitGroups
import CodexHost.Source.RemoteRelay.Protocol

/-!
# Relay identities

The number in the encoder grows beyond 32 bits and turns negative. Only its lowest bits are pending, and
these are always the bits read and not yet written.
-/
namespace CodexHost.Guarantees.RelayIdentity
open Foundation Foundation.BitGroups Foundation.EcmaInt32 List Nat
open Source.RemoteRelay.Protocol

/-- The letter of a group of five bits. -/
def base32Letter (group : List Bool) : Char := letter (value group)

/-- Base 32 without padding: a letter for each five bits, the last group filled with zeros. -/
def base32 (bytes : List UInt8) : String :=
  String.ofList ((groups 5 (byteBits bytes)).map base32Letter)

/-- A digest of 16 bytes. -/
abbrev Digest : Type := { bytes : List UInt8 // bytes.length = 16 }

theorem letter_injective {left right : List Bool} (narrow : left.length = 5) (same : right.length = 5)
    (letters : base32Letter left = base32Letter right) : left = right := by
  have leftBelow := value_lt left
  have rightBelow := value_lt right
  rw [narrow] at leftBelow
  rw [same] at rightBelow
  have distinct : ∀ i < 32, ∀ j < 32, letter (i : Nat) = letter (j : Nat) → i = j := by decide
  exact value_injective (narrow.trans same.symm) (distinct _ leftBelow _ rightBelow letters)

theorem letter_alphanumeric {group : List Bool} (narrow : group.length = 5) :
    isAlphanumeric (base32Letter group) = true := by
  have below := value_lt group
  rw [narrow] at below
  have all : ∀ i < 32, isAlphanumeric (letter (i : Nat)) = true := by decide
  exact all _ below

theorem map_letter_injective {left right : List (List Bool)} (narrow : ∀ group ∈ left, group.length = 5)
    (others : ∀ group ∈ right, group.length = 5)
    (same : left.map base32Letter = right.map base32Letter) : left = right := by
  induction left generalizing right with
  | nil => exact (map_eq_nil_iff.1 same.symm).symm
  | cons group left ih =>
    cases right with
    | nil => simp at same
    | cons other right =>
      simp only [map_cons, List.cons.injEq] at same
      have head : group = other := letter_injective (narrow group (by simp)) (others other (by simp)) same.1
      have tail : left = right :=
        ih (fun g taken => narrow g (by simp [taken])) (fun g taken => others g (by simp [taken])) same.2
      rw [head, tail]

section Encoder

/-- The encoder has read the bits: its pending bits are the lowest of its number, and what it has
written with what is to be written for the pending bits is the text of all bits read. -/
structure Reads (encoder : Encoder) (read : List Bool) (pending : List Bool) : Prop where
  count : encoder.bits = pending.length
  low : (int32 encoder.value).toNat % 2 ^ pending.length = value pending
  written : ∀ rest, encoder.id.toList ++ (groups 5 (pending ++ rest)).map base32Letter =
    (groups 5 (read ++ rest)).map base32Letter

theorem reads_start : Reads { bits := 0, value := 0, id := "" } [] [] :=
  ⟨rfl, rfl, fun _ => rfl⟩

/-- The five highest of the pending bits are `(value >>> bits) & 31`. -/
theorem emitted_letter {number : Int} {group pending : List Bool} (five : group.length = 5)
    (few : pending.length < 27)
    (low : (int32 number).toNat % 2 ^ (group ++ pending).length = value (group ++ pending)) :
    bitAnd (shiftRight number pending.length) 31 = value group := by
  have mask := bitAnd_mask (shiftRight number pending.length : Int) (by decide : 5 < 32)
  have below := value_lt pending
  rw [length_append, five, value_append, Nat.add_comm 5] at low
  rw [show ((2 ^ 5 - 1 : Nat) : Int) = 31 from rfl] at mask
  rw [mask, int32_natCast, EcmaInt32.shiftRight_eq _ (by omega), Nat.mod_mod_of_dvd _ (by decide : 2 ^ 5 ∣ 2 ^ 32)]
  have quotient : (int32 number).toNat / 2 ^ pending.length % 2 ^ 5 =
      (int32 number).toNat % (2 ^ pending.length * 2 ^ 5) / 2 ^ pending.length := by
    rw [Nat.mod_mul_right_div_self]
  rw [quotient, ← pow_add, low, Nat.add_comm, Nat.add_mul_div_right _ _ (Nat.two_pow_pos _),
    Nat.div_eq_of_lt below, Nat.zero_add]

variable {encoder : Encoder}

theorem Reads.emitted {read group pending : List Bool} (five : group.length = 5)
    (few : pending.length < 27) (reads : Reads encoder read (group ++ pending)) :
    Reads { encoder with
      bits := encoder.bits - 5
      id := encoder.id.push (letter (bitAnd (shiftRight encoder.value (encoder.bits - 5)) 31)) }
      read pending := by
  have count : encoder.bits - 5 = pending.length := by
    rw [reads.count, length_append]
    omega
  have low : (int32 encoder.value).toNat % 2 ^ pending.length = value pending := by
    have all := congrArg (· % 2 ^ pending.length) reads.low
    have divides : 2 ^ pending.length ∣ 2 ^ (group ++ pending).length :=
      pow_dvd_pow 2 (by simp)
    simpa only [mod_mod_of_dvd _ divides, value_append, mul_add_mod_self_right,
      mod_eq_of_lt (value_lt pending)] using all
  refine ⟨count, low, fun rest => ?_⟩
  have before := reads.written rest
  rw [append_assoc, groups_append (by decide) five, map_cons] at before
  rw [← before, count, emitted_letter five few reads.low, String.toList_push, append_assoc]
  rfl

variable {read pending : List Bool}

/-- The inner loop writes whole groups until fewer than five bits are pending. -/
theorem Reads.drained (few : pending.length < 32) (reads : Reads encoder read pending) :
    ∃ rest, rest.length < 5 ∧ Reads (emit encoder) read rest := by
  fun_induction emit encoder generalizing pending with
  | case1 encoder room ih =>
    have enough : 5 ≤ pending.length := reads.count ▸ room
    have five : (pending.take 5).length = 5 := by
      rw [length_take]
      omega
    have shorter : (pending.drop 5).length < 27 := by
      rw [length_drop]
      omega
    rw [← take_append_drop 5 pending] at reads
    exact ih (by omega) (reads.emitted five shorter)
  | case2 encoder done => exact ⟨pending, by rw [← reads.count]; omega, reads⟩

/-- One byte more: eight bits are shifted in below the pending ones. -/
theorem Reads.shifted (few : pending.length < 5) (reads : Reads encoder read pending) (byte : UInt8) :
    ∃ rest, rest.length < 5 ∧ Reads (absorb encoder byte) (read ++ bitsOf 8 byte.toNat) rest := by
  have length : (pending ++ bitsOf 8 byte.toNat).length = pending.length + 8 := by simp
  apply Reads.drained (by rw [length]; omega)
  refine ⟨?_, ?_, fun rest => ?_⟩
  · rw [length, ← reads.count]
  · rw [length, bitOr_low _ (by omega) (by decide) byte.toNat_lt, reads.low, value_append,
      value_bitsOf, bitsOf_length, mod_eq_of_lt byte.toNat_lt]
  · rw [append_assoc, append_assoc]
    exact reads.written _

theorem reads_bytes (bytes : List UInt8) (few : pending.length < 5) (reads : Reads encoder read pending) :
    ∃ rest, rest.length < 5 ∧ Reads (bytes.foldl absorb encoder) (read ++ byteBits bytes) rest := by
  induction bytes generalizing encoder read pending with
  | nil => exact ⟨pending, few, by simpa [byteBits] using reads⟩
  | cons byte bytes ih =>
    obtain ⟨rest, fewer, next⟩ := reads.shifted few byte
    obtain ⟨last, fewest, done⟩ := ih fewer next
    rw [append_assoc] at done
    exact ⟨last, fewest, done⟩

/-- The loop writes the base 32 text, for any number of bytes. -/
theorem encodeDigest_eq (bytes : List UInt8) : encodeDigest bytes = base32 bytes := by
  obtain ⟨rest, few, reads⟩ := reads_bytes bytes (by decide : ([] : List Bool).length < 5) reads_start
  have written := reads.written []
  rw [append_nil, append_nil, nil_append] at written
  rw [← String.toList_inj, encodeDigest, base32, String.toList_ofList, ← written]
  rcases Nat.eq_zero_or_pos rest.length with none | some
  · rw [if_neg (by rw [reads.count]; omega), length_eq_zero_iff.1 none]
    simp
  · have zeros : (List.replicate (5 - rest.length) false).length = 5 - rest.length := by simp
    have last : value (filled 5 rest) = value rest * 2 ^ (5 - rest.length) := by
      rw [filled, value_append, value_replicate, zeros, Nat.add_zero]
    have mask := bitAnd_mask (shiftLeft
      (bytes.foldl absorb { bits := 0, value := 0, id := "" }).value (5 - rest.length))
      (by decide : 5 < 32)
    have low := shiftLeft_low (bytes.foldl absorb { bits := 0, value := 0, id := "" }).value
      (by omega : rest.length + (5 - rest.length) ≤ 32) (by omega)
    rw [show rest.length + (5 - rest.length) = 5 by omega, reads.low, ← last] at low
    rw [low, show ((2 ^ 5 - 1 : Nat) : Int) = 31 from rfl] at mask
    rw [if_pos (by rw [reads.count]; omega), String.toList_push, reads.count, mask, groups_short some few.le]
    rfl

end Encoder

theorem base32_length (bytes : List UInt8) : (base32 bytes).length = (8 * bytes.length + 4) / 5 := by
  rw [base32, String.length_ofList, length_map, groups_length (by decide), byteBits_length]

theorem base32_alphanumeric (bytes : List UInt8) :
    ∀ character ∈ (base32 bytes).toList, isAlphanumeric character = true := by
  intro character taken
  rw [base32, String.toList_ofList, mem_map] at taken
  obtain ⟨group, taken, rfl⟩ := taken
  exact letter_alphanumeric (groups_width taken)

theorem base32_injective {left right : List UInt8} (length : left.length = right.length)
    (same : base32 left = base32 right) : left = right := by
  have letters := congrArg String.toList same
  rw [base32, base32, String.toList_ofList, String.toList_ofList] at letters
  have groups := map_letter_injective (fun _ taken => groups_width taken)
    (fun _ taken => groups_width taken) letters
  refine byteBits_injective (groups_injective (by decide) ?_ groups)
  rw [byteBits_length, byteBits_length, length]

/-- Letters and digits only, from one to 63 of them, are a label. -/
theorem isDnsLabel_of_alphanumeric {name : String} (some : 0 < name.length) (short : name.length ≤ 63)
    (letters : ∀ character ∈ name.toList, isAlphanumeric character = true) :
    isDnsLabel name = true := by
  rw [← String.length_toList] at some short
  rw [isDnsLabel]
  cases characters : name.toList with
  | nil => simp [characters] at some
  | cons first rest =>
    rw [characters] at letters short
    have head : isAlphanumeric first = true := letters first (by simp)
    cases last : rest.getLast? with
    | none => simp [head, last]
    | some final =>
      have tail : isAlphanumeric final = true :=
        letters final (mem_cons_of_mem _ (mem_of_getLast? last))
      have middle : rest.dropLast.all (fun character => isAlphanumeric character || character == '-') = true := by
        rw [all_eq_true]
        intro character taken
        rw [letters character (mem_cons_of_mem _ (dropLast_subset _ taken)), Bool.true_or]
      have bound : rest.length ≤ 62 := by
        rw [length_cons] at short
        omega
      simp [head, last, tail, middle, bound]

/-- The id of every digest of 16 bytes is its base 32 text of 26 letters, a label of its own, and a key's
id is that of its digest. -/
theorem identity_encoded :
    (∀ digest : Digest, encodeDigest digest = base32 digest ∧ (encodeDigest digest).length = 26 ∧
      isDnsLabel (encodeDigest digest) = true) ∧
    (Function.Injective fun digest : Digest => encodeDigest digest) ∧
    ∀ sha256 publicKey, deriveId sha256 publicKey = base32 ((sha256 publicKey).take 16) := by
  refine ⟨fun digest => ?_, fun left right same => ?_, fun sha256 publicKey => encodeDigest_eq _⟩
  · have length : (encodeDigest digest).length = 26 := by
      rw [encodeDigest_eq, base32_length, digest.2]
    refine ⟨encodeDigest_eq digest, length, isDnsLabel_of_alphanumeric (by omega) (by omega) ?_⟩
    rw [encodeDigest_eq]
    exact base32_alphanumeric digest
  · have texts : base32 left = base32 right := by
      rw [← encodeDigest_eq, ← encodeDigest_eq]
      exact same
    exact Subtype.ext (base32_injective (left.2.trans right.2.symm) texts)

end CodexHost.Guarantees.RelayIdentity
