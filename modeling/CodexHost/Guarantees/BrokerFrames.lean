import CodexHost.Foundation.JsonNumber
import CodexHost.Source.HarnessBroker.Framing

/-!
# The frames that a broker connection delivers

What the consumer keeps between two chunks is the unfinished last line of what arrived. So the values
that are delivered do not depend on the cuts, but the size check does: it compares the unfinished line
and the whole next chunk with the size of one frame.
-/
namespace CodexHost.Guarantees.BrokerFrames
open Foundation Source.HarnessBroker Source.HarnessBroker.Framing List TextEncoding JsonNumber

/-- What follows the last line feed. -/
def unfinished (bytes : List UInt8) : List UInt8 := bytes.rtakeWhile (· ≠ NEWLINE)

theorem unfinished_open {bytes : List UInt8} (one : NEWLINE ∉ bytes) : unfinished bytes = bytes := by
  refine rtakeWhile_eq_self_iff.mpr fun byte member => ?_
  rw [decide_eq_true_eq]
  rintro rfl
  exact one member

theorem unfinished_line (front back : List UInt8) :
    unfinished (front ++ NEWLINE :: back) = unfinished back := by
  induction back using List.reverseRecOn with
  | nil => exact rtakeWhile_concat_neg _ _ _ (by simp)
  | append_singleton back byte ih =>
    have whole : front ++ NEWLINE :: (back ++ [byte]) = (front ++ NEWLINE :: back) ++ [byte] := by simp
    rw [whole, unfinished, unfinished, rtakeWhile_concat, rtakeWhile_concat]
    rw [unfinished, unfinished] at ih
    rw [ih]

theorem unfinished_append (earlier chunk : List UInt8) :
    unfinished (unfinished earlier ++ chunk) = unfinished (earlier ++ chunk) := by
  induction chunk using List.reverseRecOn with
  | nil =>
    rw [append_nil, append_nil]
    exact rtakeWhile_idempotent _ _
  | append_singleton chunk byte ih =>
    rw [← append_assoc, ← append_assoc]
    simp only [unfinished, rtakeWhile_concat] at ih ⊢
    rw [ih]

theorem newline_not_mem_unfinished (bytes : List UInt8) : NEWLINE ∉ unfinished bytes := by
  intro member
  have other := mem_rtakeWhile_imp member
  simp at other

/-- Whenever a chunk arrives, the unfinished line and the chunk have at most the size of a frame. -/
def Fits (earlier : List UInt8) : List (List UInt8) → Prop
  | [] => True
  | chunk :: chunks =>
    (unfinished earlier).length + chunk.length ≤ HARNESS_BROKER_MAX_FRAME_BYTES ∧
      Fits (earlier ++ chunk) chunks

section Frames
variable {N : Type} (format : NumberFormat N)

/-- A JSON value. -/
abbrev Value := { value : Json N // Json.Regular format value }

/-- The concatenated frames of some values. -/
def stream (values : List (Value format)) : List UInt8 :=
  values.flatMap fun value => frameBytes format value.1

variable {format} (value : Value format)

/-- The line of a value. -/
def line (value : Value format) : List UInt8 := TextEncoding.utf8Bytes (value.1.write format)

theorem frameBytes_eq : frameBytes format value.1 = line value ++ [NEWLINE] := by
  rw [frameBytes, utf8Bytes, flatMap_append]
  rfl

theorem newline_not_mem_line : NEWLINE ∉ line value := by
  intro member
  have printable := utf8Bytes_printable (Json.printable_write format value.2) _ member
  exact absurd printable (by decide)

theorem line_ne_nil : line value ≠ [] := by
  obtain ⟨c, text, is, -⟩ := Json.write_head format value.2
  rw [line, is, utf8Bytes, flatMap_cons]
  intro empty
  exact String.utf8EncodeChar_ne_nil (append_eq_nil_iff.mp empty).1

theorem parseFrame_line : parseFrame format (line value) = some value.1 := by
  rw [parseFrame, line, utf8Text_utf8Bytes, Option.bind_some, Json.parse_write format value.2]

theorem stream_cons (values : List (Value format)) :
    stream format (value :: values) = line value ++ NEWLINE :: stream format values := by
  rw [stream, flatMap_cons, frameBytes_eq, append_assoc, singleton_append]
  rfl

variable (onFrame : Json N → Option String)

theorem drain_open {bytes : List UInt8} (one : NEWLINE ∉ bytes) :
    drain format onFrame bytes = ([], ⟨bytes, false⟩) := by
  rw [drain]
  split
  · rfl
  · next newline search =>
    rw [idxOf?_eq_none_iff.mpr one] at search
    cases search

/-- The loop takes a line off the buffer. -/
theorem drain_line (rest : List UInt8) : drain format onFrame (line value ++ NEWLINE :: rest) =
      match onFrame value.1 with
      | none =>
        (.frame value.1 :: (drain format onFrame rest).1, (drain format onFrame rest).2)
      | some error => ([.frame value.1, .error error], ⟨rest, true⟩) := by
  have found : (line value ++ NEWLINE :: rest).idxOf? NEWLINE = some (line value).length := by
    have none : (line value).idxOf? NEWLINE = none :=
      idxOf?_eq_none_iff.mpr (newline_not_mem_line value)
    rw [List.idxOf?] at none ⊢
    rw [findIdx?_append, none, findIdx?_cons]
    simp
  rw [drain]
  split
  · next search =>
    rw [found] at search
    cases search
  · next newline search =>
    rw [found] at search
    cases search
    have frame : (line value ++ NEWLINE :: rest).take (line value).length = line value := take_left
    have after : (line value ++ NEWLINE :: rest).drop ((line value).length + 1) = rest := by simp
    cases accepts : onFrame value.1 <;>
      simp only [frame, after, length_pos_iff.mpr (line_ne_nil value), parseFrame_line, accepts, if_true]

/-- The calls for the frames of some values. -/
def delivered (values : List (Value format)) : List (FrameEvent N) :=
  values.map fun value => .frame value.1

/-- The consumer has reported an error. -/
def Reports (events : List (FrameEvent N)) : Prop := ∃ message, .error message ∈ events

theorem delivered_quiet (values : List (Value format)) : ¬Reports (delivered values) := by
  rintro ⟨message, member⟩
  obtain ⟨value, -, is⟩ := mem_map.mp member
  cases is

/-- The callback accepts these values. -/
def Accepts (values : List (Value format)) : Prop := ∀ value ∈ values, onFrame value.1 = none

/-- The loop delivers the values whose lines are complete, and keeps the unfinished line. -/
theorem drain_cases {values : List (Value format)} {bytes later : List UInt8}
    (cut : bytes ++ later = stream format values) :
    (∃ front back, values = front ++ back ∧ Accepts onFrame front ∧
      drain format onFrame bytes = (delivered front, ⟨unfinished bytes, false⟩) ∧
      unfinished bytes ++ later = stream format back) ∨
    Reports (drain format onFrame bytes).1 ∧ ¬Accepts onFrame values := by
  induction values generalizing bytes with
  | nil =>
    have empty : bytes = [] := (append_eq_nil_iff.mp cut).1
    subst empty
    exact .inl ⟨[], [], rfl, by simp [Accepts], drain_open onFrame not_mem_nil, cut⟩
  | cons value values ih =>
    rw [stream_cons] at cut
    rcases append_eq_append_iff.mp cut with ⟨more, isLine, isLater⟩ | ⟨more, isBytes, isRest⟩
    · have one : NEWLINE ∉ bytes := fun member =>
        newline_not_mem_line value (isLine ▸ mem_append_left more member)
      have open_ := unfinished_open one
      refine .inl ⟨[], value :: values, rfl, by simp [Accepts], ?_, ?_⟩
      · rw [open_]
        exact drain_open onFrame one
      · rw [open_, stream_cons]
        exact cut
    · cases more with
      | nil =>
        have isLine : bytes = line value := by rw [isBytes, append_nil]
        have one : NEWLINE ∉ bytes := isLine ▸ newline_not_mem_line value
        have open_ := unfinished_open one
        refine .inl ⟨[], value :: values, rfl, by simp [Accepts], ?_, ?_⟩
        · rw [open_]
          exact drain_open onFrame one
        · rw [open_, stream_cons]
          exact cut
      | cons byte rest =>
        rw [cons_append, List.cons.injEq] at isRest
        obtain ⟨rfl, isRest⟩ := isRest
        have taken := drain_line value onFrame rest
        rw [← isBytes] at taken
        cases accepts : onFrame value.1 with
        | some error =>
          rw [accepts] at taken
          refine .inr ⟨⟨error, by simp [taken]⟩, fun all => ?_⟩
          have none := all value mem_cons_self
          rw [accepts] at none
          cases none
        | none =>
          rw [accepts] at taken
          have kept : unfinished bytes = unfinished rest := by rw [isBytes, unfinished_line]
          rcases ih isRest.symm with ⟨front, back, rfl, all, is, remains⟩ | ⟨⟨message, member⟩, refuses⟩
          · refine .inl ⟨value :: front, back, rfl, forall_mem_cons.mpr ⟨accepts, all⟩, ?_, ?_⟩
            · rw [taken, is, kept]
              rfl
            · rw [kept]
              exact remains
          · refine .inr ⟨⟨message, ?_⟩, fun all => refuses fun other inside =>
              all other (mem_cons_of_mem value inside)⟩
            rw [taken]
            exact mem_cons_of_mem _ member

/-- The chunks deliver the values, each once and in order, or an error is reported. -/
theorem consume_cases {values : List (Value format)} {earlier : List UInt8} {chunks : List (List UInt8)}
    (cut : unfinished earlier ++ chunks.flatten = stream format values) :
    consumeBrokerFrames.consume format onFrame ⟨unfinished earlier, false⟩ chunks = delivered values ∧
      Fits earlier chunks ∧ Accepts onFrame values ∨
    Reports (consumeBrokerFrames.consume format onFrame ⟨unfinished earlier, false⟩ chunks) ∧
      ¬(Fits earlier chunks ∧ Accepts onFrame values) := by
  induction chunks generalizing earlier values with
  | nil =>
    rw [flatten_nil, append_nil] at cut
    cases values with
    | nil => exact .inl ⟨rfl, trivial, by simp [Accepts]⟩
    | cons value values =>
      have line : NEWLINE ∈ unfinished earlier := by
        rw [cut, stream_cons]
        simp
      exact absurd line (newline_not_mem_unfinished earlier)
  | cons chunk chunks ih =>
    rw [flatten_cons, ← append_assoc] at cut
    by_cases large : (unfinished earlier ++ chunk).length > HARNESS_BROKER_MAX_FRAME_BYTES
    · refine .inr ⟨⟨"Harness broker frame exceeds the maximum size", ?_⟩, fun both => ?_⟩
      · rw [consumeBrokerFrames.consume]
        simp only [data, Bool.false_eq_true, if_false, if_pos large]
        exact mem_append_left _ mem_cons_self
      · have fits := both.1.1
        rw [length_append] at large
        omega
    · have arrives : data format onFrame ⟨unfinished earlier, false⟩ chunk =
          drain format onFrame (unfinished earlier ++ chunk) := by
        simp only [data, Bool.false_eq_true, if_false, if_neg large]
      have step : consumeBrokerFrames.consume format onFrame ⟨unfinished earlier, false⟩
          (chunk :: chunks) = (drain format onFrame (unfinished earlier ++ chunk)).1 ++
            consumeBrokerFrames.consume format onFrame
              (drain format onFrame (unfinished earlier ++ chunk)).2 chunks := by
        rw [consumeBrokerFrames.consume, arrives]
      rw [step]
      rcases drain_cases onFrame cut with ⟨front, back, rfl, all, is, remains⟩ | ⟨⟨message, member⟩, refuses⟩
      · rw [unfinished_append] at is remains
        rw [is]
        rw [length_append] at large
        rcases ih remains with ⟨rest, fits, accepts⟩ | ⟨⟨message, member⟩, not⟩
        · refine .inl ⟨?_, ⟨by omega, fits⟩, forall_mem_append.mpr ⟨all, accepts⟩⟩
          rw [rest]
          exact map_append.symm
        · exact .inr ⟨⟨message, mem_append_right _ member⟩, fun both =>
            not ⟨both.1.2, (forall_mem_append.mp both.2).2⟩⟩
      · exact .inr ⟨⟨message, mem_append_left _ member⟩, fun both => refuses both.2⟩

end Frames

/-- The values are delivered, each once and in order and without an error, exactly if each chunk fits
together with the unfinished line before it and the callback accepts the values. -/
theorem frames_delivered_iff {N : Type} {format : NumberFormat N} {onFrame : Json N → Option String}
    {values : List (Value format)} {chunks : List (List UInt8)}
    (cut : chunks.flatten = stream format values) :
    consumeBrokerFrames format onFrame chunks = delivered values ↔
      Fits [] chunks ∧ Accepts onFrame values := by
  rcases consume_cases onFrame (show unfinished [] ++ chunks.flatten = stream format values from cut) with
    ⟨is, good⟩ | ⟨reports, bad⟩
  · exact iff_of_true is good
  · refine iff_of_false (fun is => ?_) bad
    change consumeBrokerFrames.consume format onFrame ⟨unfinished [], false⟩ chunks = _ at is
    rw [is] at reports
    exact delivered_quiet values reports

def nullValue : Value JsonNumber.format := ⟨.null, trivial⟩

theorem frames_delivered_iff_sample :
    consumeBrokerFrames JsonNumber.format (fun _ => none) [[110, 117], [108, 108, 10]] =
        delivered [nullValue] ↔
      Fits [] [[110, 117], [108, 108, 10]] ∧ Accepts (fun _ => none) [nullValue] :=
  frames_delivered_iff (by decide +kernel)

/-- A string of this many letters `a`. -/
def letters (count : Nat) : Value JsonNumber.format := ⟨.string (List.replicate count 97), trivial⟩

theorem stringText_letter (rest : Utf16) :
    JsonText.stringText (97 :: rest) = 'a' :: JsonText.stringText rest := by
  cases rest with
  | nil => decide
  | cons unit rest =>
    rfl

theorem line_letters_length (count : Nat) : (line (letters count)).length = count + 2 := by
  have text : JsonText.stringText (List.replicate count 97) = List.replicate count 'a' := by
    induction count with
    | zero => rfl
    | succ count ih => rw [replicate_succ, stringText_letter, ih, replicate_succ]
  have quote : String.utf8EncodeChar '"' = [34] := by decide
  have letter : Char.utf8Size 'a' = 1 := by decide
  simp [line, letters, Json.write, Json.quoted, utf8Bytes, text, quote, letter]

/-- A frame of the maximum size and another one, cut before the end of the first: an error is
reported. -/
theorem frames_lost : ¬∀ (values : List (Value JsonNumber.format)) (chunks : List (List UInt8)),
    (∀ value ∈ values, writeBrokerFrame JsonNumber.format value.1 =
      .ok (frameBytes JsonNumber.format value.1)) →
    chunks.flatten = stream JsonNumber.format values →
    consumeBrokerFrames JsonNumber.format (fun _ => none) chunks = delivered values := by
  intro always
  let long := letters (HARNESS_BROKER_MAX_FRAME_BYTES - 3)
  have size : (line long).length = HARNESS_BROKER_MAX_FRAME_BYTES - 1 := line_letters_length _
  have sendable : ∀ value ∈ [long, nullValue], writeBrokerFrame format value.1 =
      .ok (frameBytes format value.1) := by
    intro value member
    have short : (frameBytes format value.1).length ≤ HARNESS_BROKER_MAX_FRAME_BYTES := by
      rw [frameBytes_eq, length_append, length_singleton]
      simp only [mem_cons, not_mem_nil, or_false] at member
      rcases member with rfl | rfl
      · rw [size]
        decide
      · decide
    rw [writeBrokerFrame, if_neg (by omega)]
  have cut : [line long, NEWLINE :: frameBytes format nullValue.1].flatten =
      stream format [long, nullValue] := by
    rw [stream_cons]
    simp [stream]
  obtain ⟨⟨-, fits, -⟩, -⟩ := (frames_delivered_iff cut).mp (always _ _ sendable cut)
  rw [nil_append, unfinished_open (newline_not_mem_line long), size] at fits
  exact absurd fits (by decide)

end CodexHost.Guarantees.BrokerFrames
