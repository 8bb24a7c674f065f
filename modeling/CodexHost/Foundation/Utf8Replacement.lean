import CodexHost.Foundation.JsonString
import CodexHost.Foundation.TextEncoding

/-!
# Decoding UTF-8 with replacements

`buffer.toString("utf8")`: what is no character becomes a replacement character, one for each longest part
that could have been the beginning of one. Bytes that begin inside of a character give replacements for the
rest of that character, and the text after it.
-/
namespace CodexHost.Foundation.Utf8Replacement
open TextEncoding List

def replacement : UInt16 := 0xFFFD

/-- How many bytes follow a first byte, and the range of the second. -/
def leadRange (lead : UInt8) : Nat × UInt8 × UInt8 :=
  if 0xC2 ≤ lead ∧ lead ≤ 0xDF then (1, 0x80, 0xBF)
  else if lead = 0xE0 then (2, 0xA0, 0xBF)
  else if lead = 0xED then (2, 0x80, 0x9F)
  else if 0xE1 ≤ lead ∧ lead ≤ 0xEF then (2, 0x80, 0xBF)
  else if lead = 0xF0 then (3, 0x90, 0xBF)
  else if lead = 0xF4 then (3, 0x80, 0x8F)
  else if 0xF1 ≤ lead ∧ lead ≤ 0xF3 then (3, 0x80, 0xBF)
  else (0, 0x80, 0xBF)

def isContinuation (byte : UInt8) : Bool := 0x80 ≤ byte && byte ≤ 0xBF

/-- The bytes that one replacement stands for, when no character is there. -/
def malformedLength (lead : UInt8) (rest : List UInt8) : Nat :=
  let (needed, lower, upper) := leadRange lead
  match needed, rest with
  | 0, _ => 1
  | _, [] => 1
  | more + 1, second :: others =>
    if lower ≤ second ∧ second ≤ upper then 2 + min (others.takeWhile isContinuation).length (more - 1) else 1

/-- The decoder; it takes at least one byte in a round. -/
def lossyFrom : Nat → List UInt8 → Utf16
  | 0, _ => []
  | _, [] => []
  | fuel + 1, lead :: rest =>
    match (lead :: rest).toByteArray.utf8DecodeChar? 0 with
    | some c => Utf16.ofChar c ++ lossyFrom fuel ((lead :: rest).drop c.utf8Size)
    | none => replacement :: lossyFrom fuel ((lead :: rest).drop (malformedLength lead rest))

def lossyText (bytes : List UInt8) : Utf16 := lossyFrom bytes.length bytes

theorem utf8Bytes_cons (c : Char) (text : List Char) :
    utf8Bytes (c :: text) = String.utf8EncodeChar c ++ utf8Bytes text := flatMap_cons

theorem decode_utf8Bytes (c : Char) (text : List Char) :
    (utf8Bytes (c :: text)).toByteArray.utf8DecodeChar? 0 = some c :=
  utf8DecodeChar?_utf8Encode_cons

theorem utf8Bytes_length (c : Char) (text : List Char) :
    (utf8Bytes (c :: text)).length = c.utf8Size + (utf8Bytes text).length := by
  rw [utf8Bytes_cons, length_append, String.length_utf8EncodeChar]

theorem lossyFrom_cons {fuel : Nat} (c : Char) (text : List Char) :
    lossyFrom (fuel + 1) (utf8Bytes (c :: text)) = Utf16.ofChar c ++ lossyFrom fuel (utf8Bytes text) := by
  have decoded := decode_utf8Bytes c text
  have tail : (utf8Bytes (c :: text)).drop c.utf8Size = utf8Bytes text := by
    rw [utf8Bytes_cons, ← String.length_utf8EncodeChar, drop_left]
  cases bytes : utf8Bytes (c :: text) with
  | nil =>
    have positive := c.utf8Size_pos
    have length := utf8Bytes_length c text
    rw [bytes, length_nil] at length
    omega
  | cons lead rest =>
    rw [bytes] at decoded tail
    rw [lossyFrom, decoded]
    dsimp only
    rw [tail]

theorem lossyFrom_text (text : List Char) {fuel : Nat} (enough : (utf8Bytes text).length ≤ fuel) :
    lossyFrom fuel (utf8Bytes text) = Utf16.ofText text := by
  induction text generalizing fuel with
  | nil => cases fuel <;> rfl
  | cons c text ih =>
    have positive := c.utf8Size_pos
    have length := utf8Bytes_length c text
    obtain ⟨less, rfl⟩ : ∃ less, fuel = less + 1 := ⟨fuel - 1, by omega⟩
    rw [lossyFrom_cons, ih (by omega)]
    rfl

/-- Whole characters decode to their text. -/
theorem lossyText_text (text : List Char) : lossyText (utf8Bytes text) = Utf16.ofText text :=
  lossyFrom_text text (Nat.le_refl _)

theorem leadRange_inside : ∀ code, code < 256 → ¬ (UInt8.ofNat code).IsUTF8FirstByte →
    (leadRange (UInt8.ofNat code)).1 = 0 := by decide +kernel

theorem decode_inside {byte : UInt8} (inside : ¬ byte.IsUTF8FirstByte) (rest : List UInt8) :
    (byte :: rest).toByteArray.utf8DecodeChar? 0 = none := by
  cases decoded : (byte :: rest).toByteArray.utf8DecodeChar? 0 with
  | none => rfl
  | some c =>
    obtain ⟨back, bytes⟩ := ByteArray.exists_of_utf8DecodeChar?_eq_some decoded
    have lists := congrArg (fun array => array.data.toList) bytes
    simp only [data_toByteArray, ByteArray.data_append, Array.toList_append] at lists
    have positive : 0 < (String.utf8EncodeChar c).length := by
      rw [String.length_utf8EncodeChar]
      exact c.utf8Size_pos
    have first : (String.utf8EncodeChar c)[0] = byte := by
      have head := congrArg (fun list => list[0]?) lists
      simp only [getElem?_cons_zero, getElem?_append_left positive, getElem?_eq_getElem positive] at head
      exact (Option.some.inj head).symm
    have lead : (String.utf8EncodeChar c)[0].IsUTF8FirstByte := UInt8.isUTF8FirstByte_getElem_utf8EncodeChar.2 rfl
    rw [first] at lead
    exact absurd lead inside

/-- A byte that is no first byte begins no character, and its replacement stands for it alone. -/
theorem lossyFrom_inside {fuel : Nat} {byte : UInt8} (inside : ¬ byte.IsUTF8FirstByte) (rest : List UInt8) :
    lossyFrom (fuel + 1) (byte :: rest) = replacement :: lossyFrom fuel rest := by
  have alone : malformedLength byte rest = 1 := by
    have range := leadRange_inside byte.toNat byte.toNat_lt (by rwa [UInt8.ofNat_toNat])
    rw [UInt8.ofNat_toNat] at range
    rw [malformedLength]
    split
    next needed lower upper same =>
      have zero : needed = 0 := by
        rw [same] at range
        exact range
      rw [zero]
  rw [lossyFrom, decode_inside inside]
  rw [alone]
  rfl

theorem lossyFrom_insides {front : List UInt8} (inside : ∀ byte ∈ front, ¬ byte.IsUTF8FirstByte)
    (text : List Char) {fuel : Nat} (enough : front.length + (utf8Bytes text).length ≤ fuel) :
    lossyFrom fuel (front ++ utf8Bytes text) =
      List.replicate front.length replacement ++ Utf16.ofText text := by
  induction front generalizing fuel with
  | nil => exact lossyFrom_text text (by simpa using enough)
  | cons byte front ih =>
    rw [length_cons] at enough
    obtain ⟨less, rfl⟩ : ∃ less, fuel = less + 1 := ⟨fuel - 1, by omega⟩
    rw [cons_append, lossyFrom_inside (inside byte mem_cons_self),
      ih (fun other member => inside other (mem_cons_of_mem _ member)) (by omega)]
    rfl

theorem encode_drop_inside (c : Char) {count : Nat} (positive : 0 < count) :
    ∀ byte ∈ (String.utf8EncodeChar c).drop count, ¬ byte.IsUTF8FirstByte := by
  intro byte member
  obtain ⟨index, bound, rfl⟩ := mem_iff_getElem.1 member
  rw [getElem_drop, UInt8.isUTF8FirstByte_getElem_utf8EncodeChar]
  omega

/-- Bytes that begin anywhere in a text: replacements for the rest of a character, and then text. -/
theorem lossyText_drop (text : List Char) (count : Nat) : ∃ broken back front, text = front ++ back ∧
      lossyText ((utf8Bytes text).drop count) = List.replicate broken replacement ++ Utf16.ofText back := by
  induction text generalizing count with
  | nil => exact ⟨0, [], [], rfl, by simp [utf8Bytes, lossyText, lossyFrom, Utf16.ofText]⟩
  | cons c text ih =>
    have length := String.length_utf8EncodeChar c
    rcases Nat.eq_zero_or_pos count with rfl | positive
    · exact ⟨0, c :: text, [], rfl, lossyText_text (c :: text)⟩
    · rcases Nat.lt_or_ge count c.utf8Size with inside | beyond
      · refine ⟨c.utf8Size - count, text, [c], rfl, ?_⟩
        rw [utf8Bytes_cons, drop_append_of_le_length (by omega), lossyText,
          lossyFrom_insides (encode_drop_inside c positive) text (by rw [length_append]),
          length_drop, length]
      · obtain ⟨broken, back, front, rfl, decoded⟩ := ih (count - c.utf8Size)
        refine ⟨broken, back, c :: front, rfl, ?_⟩
        rw [utf8Bytes_cons, drop_append, length, drop_of_length_le (by omega), nil_append]
        exact decoded

end CodexHost.Foundation.Utf8Replacement
