import CodexHost.Source.HostRuntime.DelegationThreadListMerge

/-!
# The cursor of a merged Thread list

A merged cursor decodes to the positions it was made of, for the same query, sessions and
generation.
-/
namespace CodexHost.Guarantees.DelegationThreadList
open Foundation Source.HostRuntime.Delegation List Option TextEncoding JsonNumber

theorem version_faithful : Json.Faithful JsonNumber.format (.integer 2) := by
  refine ⟨by decide, by decide, ?_⟩
  have written : format.write (.integer 2) = ['2'] := rfl
  rw [written, forall_mem_singleton]
  decide

theorem ofString_ofList (text : List Char) :
    Utf16.ofString (String.ofList text) = text.flatMap Utf16.ofChar := by
  rw [Utf16.ofString, String.toList_ofList]

theorem units_ascii {text : List Char} (ascii : ∀ c ∈ text, c.toNat < 128) :
    (text.flatMap Utf16.ofChar).map (fun unit => Char.ofNat unit.toNat) = text := by
  induction text with
  | nil => rfl
  | cons c text ih =>
    have small := ascii c mem_cons_self
    have first : Utf16.ofChar c = [UInt16.ofNat c.toNat] := by
      rw [Utf16.ofChar, EcmaString.unitsOf, if_pos (by omega)]
      rfl
    have back : (UInt16.ofNat c.toNat).toNat = c.toNat := by
      rw [UInt16.toNat_ofNat']
      omega
    rw [flatMap_cons, first, singleton_append, map_cons, back, Char.ofNat_toNat,
      ih fun d member => ascii d (mem_cons_of_mem c member)]

theorem digit_ascii : ∀ value, value < 64 → (TextEncoding.digit value).toNat < 128 := by decide

theorem base64url_ascii (bytes : List UInt8) : ∀ c ∈ TextEncoding.base64url bytes, c.toNat < 128 := by
  intro c member
  obtain ⟨value, here, rfl⟩ := mem_map.mp member
  exact digit_ascii value (sextets_lt bytes value here)

theorem decodeCursorText_encodeCursor (cursor : JsonValue) :
    decodeCursorText (encodeCursor cursor) = some (cursor.write JsonNumber.format) := by
  let text := cursor.write format
  have units : (encodeCursor cursor).map (fun unit => Char.ofNat unit.toNat) =
      base64url (utf8Bytes text) := by
    rw [encodeCursor, ofString_ofList]
    exact units_ascii (base64url_ascii _)
  rw [decodeCursorText]
  simp only [units, fromBase64url_base64url, utf8Text_utf8Bytes,
    bind_eq_bind, bind_some]
  exact if_pos rfl

/-- The position can be taken up: its cursor is not the empty string. -/
def Resumable (position : SessionPosition) : Prop := position ≠ some (some [])

/-- The JSON value of a position. -/
def positionValue (position : SessionPosition) : JsonValue :=
  position.elim .null fun cursor =>
    .object [(Utf16.ofString "cursor", cursor.elim .null .string)]

theorem positionValue_regular (position : SessionPosition) :
    Json.Regular JsonNumber.format (positionValue position) := by
  cases position with
  | none => trivial
  | some cursor =>
    refine ⟨by simp, ?_, trivial⟩
    cases cursor <;> trivial

theorem validPosition_positionValue {position : SessionPosition} (resumable : Resumable position) :
    validPosition (positionValue position) = some position := by
  cases position with
  | none => rfl
  | some cursor =>
    have found : member (positionValue (some cursor)) "cursor" = some (cursor.elim .null .string) := by
      simp [member, positionValue]
    cases cursor with
    | none =>
      simp only [elim_none] at found
      simp only [validPosition, positionValue, elim_some] at found ⊢
      rw [found]
    | some cursor =>
      have filled : cursor ≠ [] := fun empty => resumable (by rw [empty])
      simp only [validPosition, positionValue, elim_some] at found ⊢
      rw [found]
      exact if_neg filled

theorem regularItems_map {α : Type} {value : α → JsonValue}
    (regular : ∀ a, Json.Regular JsonNumber.format (value a)) (list : List α) :
    Json.RegularItems JsonNumber.format (list.map value) := by
  induction list with
  | nil => trivial
  | cons a list ih => exact ⟨regular a, ih⟩

theorem mergedListCursor_regular (cwd : Option Utf16) (sort : ThreadListSort) (generation : Utf16)
    (sessions : List SessionPosition) :
    Json.Regular JsonNumber.format (mergedListCursor cwd sort generation sessions) := by
  refine ⟨by simp only [map_cons, map_nil]; decide, version_faithful, ?_, trivial, trivial,
    regularItems_map positionValue_regular sessions, trivial⟩
  cases cwd <;> trivial

/-- A cursor decodes, for the query and the sessions it was made for, to its positions. -/
theorem decodeCursor_encodeCursor {input : ThreadListInput} {generation : Utf16}
    {positions : List SessionPosition} (resumable : ∀ position ∈ positions, Resumable position) :
    decodeCursor (encodeCursor (mergedListCursor input.cwd input.sort generation positions)) input
      positions.length generation = .ok positions := by
  let value := mergedListCursor input.cwd input.sort generation positions
  have parsed : (decodeCursorText (encodeCursor value)).bind (Json.parse format) = some value := by
    rw [decodeCursorText_encodeCursor, bind_some,
      Json.parse_write format (mergedListCursor_regular _ _ _ _)]
  have version : member value "v" = some (.number (.integer 2)) := rfl
  have sessions : member value "sessions" = some (.array (positions.map positionValue)) := rfl
  have sort : member value "sort" = some (.string (Utf16.ofString input.sort.text)) := rfl
  have issued : member value "generation" = some (.string generation) := rfl
  have cwd : member value "cwd" = some (input.cwd.elim .null .string) := rfl
  have valid : (positions.map positionValue).mapM validPosition = some positions := by
    clear * - resumable
    induction positions with
    | nil => rfl
    | cons position positions ih =>
      rw [map_cons, mapM_cons, validPosition_positionValue (resumable position mem_cons_self),
        ih fun other later => resumable other (mem_cons_of_mem position later)]
      rfl
  unfold decodeCursor
  rw [parsed]
  simp only [version, sessions, sort, issued, cwd, valid]
  cases input.cwd <;> simp <;> rfl

end CodexHost.Guarantees.DelegationThreadList
