import CodexHost.Foundation.JsonNumber
import CodexHost.Source.ProtocolCore.Jsonl

/-!
# JSONL frames do not depend on the cuts

What is pending between two chunks is the line that was begun. A line that is too long is refused at
the first chunk that makes it so, and no frame comes between that and its line feed: the frames and
the error are those of the whole sequence.
-/
namespace CodexHost.Guarantees.JsonlFrames
open Foundation Source.ProtocolCore.Jsonl

/-- The frames of the lines of a whole sequence, up to the first line that is too long. The last line
has no line feed. -/
def wholeLines (maximum : FrameLimit) : List (List UInt8) → Reading
  | [] => ⟨[], none⟩
  | [last] =>
    if maximum.exceeded last.length then ⟨[], some "Protocol frame exceeds its limit"⟩
    else if last ≠ [] then ⟨[], some "Protocol stream ended with an unterminated JSONL frame"⟩
    else ⟨[], none⟩
  | frame :: line :: lines =>
    if maximum.exceeded frame.length then ⟨[], some "Protocol frame exceeds its limit"⟩
    else ⟨frame :: (wholeLines maximum (line :: lines)).frames, (wholeLines maximum (line :: lines)).error⟩

/-- Splitting the whole sequence at line feeds. -/
def wholeFrames (maximum : FrameLimit) (bytes : List UInt8) : Reading :=
  wholeLines maximum (bytes.splitOn newline)

section Frames
variable {maximum : FrameLimit} {pending : Pending}

theorem wholeFrames_open {bytes : List UInt8} (one : newline ∉ bytes) :
    wholeFrames maximum bytes = wholeLines maximum [bytes] := by
  rw [wholeFrames, List.splitOn_eq_singleton one]

theorem wholeFrames_line {front : List UInt8} (rest : List UInt8) (one : newline ∉ front) :
    wholeFrames maximum (front ++ newline :: rest) =
      if maximum.exceeded front.length then ⟨[], some "Protocol frame exceeds its limit"⟩
      else ⟨front :: (wholeFrames maximum rest).frames, (wholeFrames maximum rest).error⟩ := by
  rw [wholeFrames, List.splitOn_append_cons_self_of_not_mem one, wholeFrames]
  obtain ⟨line, lines, is⟩ := List.exists_cons_of_ne_nil (List.splitOn_ne_nil newline rest)
  rw [is, wholeLines]

/-- A line that is too long is refused wherever the sequence ends. -/
theorem wholeFrames_exceeded {front : List UInt8} (rest : List UInt8) (one : newline ∉ front)
    (long : maximum.exceeded front.length = true) :
    wholeFrames maximum (front ++ rest) = ⟨[], some "Protocol frame exceeds its limit"⟩ := by
  have longer : ∀ more : List UInt8, maximum.exceeded (front ++ more).length = true := by
    intro more
    cases maximum with
    | safeInteger value =>
      simp only [FrameLimit.exceeded, decide_eq_true_eq, List.length_append] at long ⊢
      omega
    | infinity | other => cases long
  by_cases line : newline ∈ rest
  · obtain ⟨more, later, is, first⟩ := List.eq_append_cons_of_mem line
    have whole : newline ∉ front ++ more := by
      rw [List.mem_append, not_or]
      exact ⟨one, first⟩
    rw [is, ← List.append_assoc, wholeFrames_line later whole, if_pos (longer more)]
  · have whole : newline ∉ front ++ rest := by
      rw [List.mem_append, not_or]
      exact ⟨one, line⟩
    rw [wholeFrames_open whole, wholeLines, if_pos (longer rest)]

/-- The pending chunks are the line that was begun. -/
structure Good (maximum : FrameLimit) (pending : Pending) : Prop where
  length : pending.pendingLength = pending.pendingChunks.flatten.length
  empty : pending.pendingLength = 0 → pending.pendingChunks = []
  one : newline ∉ pending.pendingChunks.flatten
  within : maximum.exceeded pending.pendingLength = false

theorem concat_flatten (chunks : List (List UInt8)) {length : Nat} (is : length = chunks.flatten.length) :
    concat chunks length = chunks.flatten := by
  rw [concat, is, Nat.sub_self, List.replicate_zero, List.append_nil, List.take_length]

theorem good_start (valid : maximum.valid = true) : Good maximum ⟨[], 0⟩ where
  length := rfl
  empty _ := rfl
  one := List.not_mem_nil
  within := by
    cases maximum with
    | safeInteger value =>
      simp only [FrameLimit.valid, FrameLimit.exceeded, decide_eq_true_eq, decide_eq_false_iff_not] at valid ⊢
      omega
    | infinity | other => rfl

/-- The search for a line feed cuts the chunk in front of it. -/
theorem bytes_cut {bytes : List UInt8} {index : Nat} (search : bytes.idxOf? newline = some index) :
    newline ∉ bytes.take index ∧ bytes = bytes.take index ++ newline :: bytes.drop (index + 1) := by
  rw [List.idxOf?, List.findIdx?_eq_some_iff_getElem] at search
  obtain ⟨bound, is, earlier⟩ := search
  refine ⟨fun member => ?_, ?_⟩
  · obtain ⟨place, below, is'⟩ := List.mem_iff_getElem.mp member
    rw [List.length_take] at below
    rw [List.getElem_take] at is'
    exact absurd (earlier place (by omega)) (by simp [is'])
  · have at_ : bytes[index] = newline := by simpa using is
    rw [← at_, ← List.drop_eq_getElem_cons, List.take_append_drop]

/-- A chunk gives the frames of its lines, and leaves the line that it begins. -/
theorem readChunk_whole (valid : maximum.valid = true) (bytes : List UInt8) (good : Good maximum pending)
    (later : List UInt8) :
    match readChunk maximum pending bytes with
    | (frames, .error error) =>
      wholeFrames maximum (pending.pendingChunks.flatten ++ bytes ++ later) = ⟨frames, some error⟩
    | (frames, .ok pending') => Good maximum pending' ∧
      wholeFrames maximum (pending.pendingChunks.flatten ++ bytes ++ later) =
        ⟨frames ++ (wholeFrames maximum (pending'.pendingChunks.flatten ++ later)).frames,
          (wholeFrames maximum (pending'.pendingChunks.flatten ++ later)).error⟩ := by
  have line : ∀ {pending : Pending} {bytes : List UInt8} {index : Nat}, Good maximum pending →
      bytes.idxOf? newline = some index →
      newline ∉ pending.pendingChunks.flatten ++ bytes.take index ∧
      pending.pendingChunks.flatten ++ bytes ++ later = pending.pendingChunks.flatten ++ bytes.take index ++
          newline :: (bytes.drop (index + 1) ++ later) := by
    intro pending bytes index good search
    obtain ⟨open_, cut⟩ := bytes_cut search
    refine ⟨?_, ?_⟩
    · rw [List.mem_append, not_or]
      exact ⟨good.one, open_⟩
    · conv_lhs => rw [cut]
      simp
  fun_induction readChunk maximum pending bytes with
  | case1 pending bytes index search _ tail frameLength long =>
    obtain ⟨one, cut⟩ := line good search
    rw [cut, wholeFrames_exceeded _ one]
    rwa [List.length_append, ← good.length]
  | case2 pending bytes index search _ tail frameLength short empty frames rest is ih =>
    obtain ⟨one, cut⟩ := line good search
    have fits : maximum.exceeded (pending.pendingChunks.flatten ++ bytes.take index).length = false := by
      rw [List.length_append, ← good.length]
      exact Bool.eq_false_iff.mpr short
    have nothing : pending.pendingChunks.flatten = [] := by rw [good.empty empty, List.flatten_nil]
    have others := ih good
    rw [is] at others
    rw [cut, wholeFrames_line _ one, fits, if_neg Bool.false_ne_true]
    simp only [nothing, List.nil_append] at others ⊢
    cases rest with
    | error error =>
      rw [others]
    | ok pending' =>
      rw [others.2]
      exact ⟨others.1, rfl⟩
  | case3 pending bytes index search _ tail frameLength short some frames rest is ih =>
    obtain ⟨one, cut⟩ := line good search
    have length : frameLength = (pending.pendingChunks ++ [tail]).flatten.length := by
      simp [frameLength, good.length]
    have fits : maximum.exceeded (pending.pendingChunks.flatten ++ bytes.take index).length = false := by
      rw [List.length_append, ← good.length]
      exact Bool.eq_false_iff.mpr short
    have others := ih (good_start valid)
    rw [is] at others
    rw [cut, wholeFrames_line _ one, fits, if_neg Bool.false_ne_true, concat_flatten _ length,
      List.flatten_append, List.flatten_singleton]
    simp only [List.flatten_nil, List.nil_append] at others ⊢
    cases rest with
    | error error =>
      rw [others]
    | ok pending' =>
      rw [others.2]
      exact ⟨others.1, rfl⟩
  | case4 pending bytes search some pendingLength long =>
    have one : newline ∉ pending.pendingChunks.flatten ++ bytes := by
      rw [List.mem_append, not_or]
      exact ⟨good.one, List.idxOf?_eq_none_iff.mp search⟩
    rw [wholeFrames_exceeded _ one]
    rwa [List.length_append, ← good.length]
  | case5 pending bytes search some pendingLength short =>
    have one : newline ∉ pending.pendingChunks.flatten ++ bytes := by
      rw [List.mem_append, not_or]
      exact ⟨good.one, List.idxOf?_eq_none_iff.mp search⟩
    have flat : (pending.pendingChunks ++ [bytes]).flatten = pending.pendingChunks.flatten ++ bytes := by
      rw [List.flatten_append, List.flatten_singleton]
    refine ⟨⟨?_, fun zero => ?_, ?_, ?_⟩, ?_⟩
    · rw [flat, List.length_append, ← good.length]
    · exact absurd zero (Nat.add_pos_right _ some).ne'
    · rwa [flat]
    · simpa using short
    · rw [flat]
      rfl
  | case6 pending bytes search empty =>
    have nothing : bytes = [] := List.length_eq_zero_iff.mp (Nat.eq_zero_of_not_pos empty)
    refine ⟨good, ?_⟩
    rw [nothing, List.append_nil]
    rfl

/-- The chunks give the frames and the error of what is pending and all that arrives. -/
theorem readChunks_whole (valid : maximum.valid = true) (stream : List (List UInt8))
    (good : Good maximum pending) :
    readChunks maximum pending stream =
      wholeFrames maximum (pending.pendingChunks.flatten ++ stream.flatten) := by
  induction stream generalizing pending with
  | nil =>
    rw [List.flatten_nil, List.append_nil, wholeFrames_open good.one, wholeLines, ← good.length,
      good.within, if_neg Bool.false_ne_true, readChunks]
    by_cases zero : pending.pendingLength = 0
    · simp [zero, good.empty zero]
    · have some : pending.pendingChunks.flatten ≠ [] := by
        intro nothing
        rw [good.length, nothing] at zero
        exact zero rfl
      rw [if_pos zero, if_pos some]
  | cons bytes stream ih =>
    have chunk := readChunk_whole valid bytes good stream.flatten
    rw [List.flatten_cons, ← List.append_assoc, readChunks]
    rcases is : readChunk maximum pending bytes with ⟨frames, error | pending'⟩
    · rw [is] at chunk
      exact chunk.symm
    · rw [is] at chunk
      dsimp only at chunk ⊢
      rw [chunk.2, ih chunk.1]

end Frames

section Values
variable {N : Type} {format : NumberFormat N}

/-- A JSON value. -/
abbrev Value (format : NumberFormat N) := { value : Json N // Json.Regular format value }

/-- The schema returns the value as it is. -/
def Returned (jsonValueSchema : Json N → Option (Json N)) (values : List (Value format)) : Prop :=
  ∀ value ∈ values, jsonValueSchema value.1 = some value.1

/-- The text of a value, as a line. -/
def line (value : Value format) : List UInt8 := TextEncoding.utf8Bytes (value.1.write format)

theorem newline_not_mem_line (value : Value format) : newline ∉ line value := by
  intro member
  have printable := TextEncoding.utf8Bytes_printable (Json.printable_write format value.2) _ member
  exact absurd printable (by decide)

theorem line_ne_nil (value : Value format) : line value ≠ [] := by
  obtain ⟨c, text, is, -⟩ := Json.write_head format value.2
  rw [line, is, TextEncoding.utf8Bytes, List.flatMap_cons]
  intro empty
  exact String.utf8EncodeChar_ne_nil (List.append_eq_nil_iff.mp empty).1

variable {jsonValueSchema : Json N → Option (Json N)}

theorem encodeJsonFrame_line {value : Value format} (returned : jsonValueSchema value.1 = some value.1) :
    encodeJsonFrame format jsonValueSchema value.1 = some (line value ++ [newline]) := by
  rw [encodeJsonFrame, returned, Option.map_some, TextEncoding.utf8Bytes, List.flatMap_append]
  rfl

/-- A text has no byte order mark at its start. -/
theorem head_write (value : Value format) : (value.1.write format).head? ≠ some '\uFEFF' := by
  obtain ⟨value, regular⟩ := value
  cases value with
  | null =>
    intro first
    cases first
  | bool value =>
    intro first
    cases value <;> cases first
  | number value =>
    intro first
    have numeric := regular.2.2 _ (List.mem_of_head? first)
    exact absurd numeric (by decide)
  | string value =>
    intro first
    cases first
  | array items =>
    intro first
    cases items <;> cases first
  | object members =>
    intro first
    cases members <;> cases first

theorem parseJsonFrame_line {value : Value format} (returned : jsonValueSchema value.1 = some value.1) :
    parseJsonFrame format jsonValueSchema (line value) = .ok value.1 := by
  have some : (line value).length ≠ 0 := fun empty => line_ne_nil value (List.length_eq_zero_iff.mp empty)
  have text : decode (line value) = .some (value.1.write format) := by
    rw [decode, line, TextEncoding.utf8Text_utf8Bytes, Option.map_some, if_neg (head_write value)]
  rw [parseJsonFrame, if_neg some, text, Option.bind_some, Json.parse_write format value.2, Option.bind_some,
    returned]

theorem encoded_lines {values : List (Value format)} (returned : Returned jsonValueSchema values) :
    values.mapM (fun value => encodeJsonFrame format jsonValueSchema value.1) =
      some (values.map fun value => line value ++ [newline]) := by
  induction values with
  | nil => rfl
  | cons value values ih =>
    rw [Returned, List.forall_mem_cons] at returned
    rw [List.mapM_cons, encodeJsonFrame_line returned.1, ih returned.2]
    rfl

theorem parsed_lines {values : List (Value format)} (returned : Returned jsonValueSchema values) :
    (values.map line).map (parseJsonFrame format jsonValueSchema) = values.map fun value => .ok value.1 := by
  rw [List.map_map]
  exact List.map_congr_left fun value member => parseJsonFrame_line (returned value member)

theorem wholeFrames_lines (values : List (Value format)) :
    wholeFrames .infinity (values.flatMap fun value => line value ++ [newline]) =
      ⟨values.map line, none⟩ := by
  induction values with
  | nil => rfl
  | cons value values ih =>
    rw [List.flatMap_cons, List.append_assoc, List.singleton_append,
      wholeFrames_line _ (newline_not_mem_line value), ih]
    rfl

end Values

/-- The frames and the error are those of the whole sequence, and values that are encoded, cut and read
come back. -/
theorem jsonl_frames {N : Type} {format : NumberFormat N} {jsonValueSchema : Json N → Option (Json N)} :
    (∀ stream maxFrameBytes, readLfFrames stream maxFrameBytes =
      if (maxFrameBytes.getD .infinity).valid then
        wholeFrames (maxFrameBytes.getD .infinity) stream.flatten
      else ⟨[], some "Invalid protocol frame limit"⟩) ∧
    ∀ (values : List (Value format)) (encoded : List (List UInt8)) (stream : List (List UInt8)),
      Returned jsonValueSchema values →
      values.mapM (fun value => encodeJsonFrame format jsonValueSchema value.1) = some encoded →
      stream.flatten = encoded.flatten → (readLfFrames stream none).error = none ∧
          (readLfFrames stream none).frames.map (parseJsonFrame format jsonValueSchema) =
            values.map fun value => .ok value.1 := by
  have whole : ∀ stream maxFrameBytes, readLfFrames stream maxFrameBytes =
      if (maxFrameBytes.getD .infinity).valid then
        wholeFrames (maxFrameBytes.getD .infinity) stream.flatten
      else ⟨[], some "Invalid protocol frame limit"⟩ := by
    intro stream maxFrameBytes
    by_cases valid : (maxFrameBytes.getD .infinity).valid = true
    · rw [readLfFrames, if_pos valid, if_pos valid, readChunks_whole valid stream (good_start valid)]
      rfl
    · rw [readLfFrames, if_neg valid, if_neg valid]
  refine ⟨whole, fun values encoded stream returned encodes cut => ?_⟩
  rw [encoded_lines returned, Option.some.injEq] at encodes
  have read : readLfFrames stream none = ⟨values.map line, none⟩ := by
    rw [whole, Option.getD_none, if_pos (show FrameLimit.infinity.valid = true from rfl), cut, ← encodes, ← List.flatMap_def, wholeFrames_lines]
  rw [read]
  exact ⟨rfl, parsed_lines returned⟩

def sampleValues : List (Value JsonNumber.format) :=
  [⟨.null, trivial⟩, ⟨.string [97], trivial⟩]

theorem jsonl_frames_sample : (readLfFrames [[110, 117], [108, 108, 10, 34], [97, 34, 10]] none).frames.map
        (parseJsonFrame JsonNumber.format some) = sampleValues.map fun value => .ok value.1 :=
  (jsonl_frames.2 sampleValues (sampleValues.map fun value => line value ++ [newline])
    [[110, 117], [108, 108, 10, 34], [97, 34, 10]] (fun _ _ => rfl) (encoded_lines fun _ _ => rfl)
    (by decide +kernel)).2

end CodexHost.Guarantees.JsonlFrames
