import CodexHost.Foundation.TextEncoding
import CodexHost.Foundation.Json
import CodexHost.Source.HarnessBroker.Connection

/-!
# Frames of the Harness broker

`packages/harness-broker/src/framing.ts`: a frame is the JSON text of a value on a line of its own. The
consumer collects what arrives and hands on the value of each line. Its callback may throw an error.
-/
namespace CodexHost.Source.HarnessBroker.Framing
open Foundation

def NEWLINE : UInt8 := 0x0a

section Write
variable {N : Type} (format : NumberFormat N)

/-- `JSON.stringify(value)` and a line feed. -/
def frameBytes (value : Json N) : List UInt8 :=
  TextEncoding.utf8Bytes (value.write format ++ ['\n'])

/-- The bytes that `writeBrokerFrame` sends. -/
def writeBrokerFrame (value : Json N) : Except String (List UInt8) :=
  if (frameBytes format value).length > HARNESS_BROKER_MAX_FRAME_BYTES then
    .error "Harness broker frame exceeds the maximum size"
  else .ok (frameBytes format value)

end Write

/-- The calls of `onFrame` and `onError`. -/
inductive FrameEvent (N : Type) where
  | frame (value : Json N)
  | error (message : String)

/-- What the consumer has kept, and whether it has destroyed the socket. -/
structure Consumer where
  buffered : List UInt8
  destroyed : Bool

section Consume
variable {N : Type} (format : NumberFormat N) (onFrame : Json N → Option String)

def parseFrame (frame : List UInt8) : Option (Json N) :=
  (TextEncoding.utf8Text frame).bind (Json.parse format)

/-- The loop over the lines of the buffer. -/
def drain (buffered : List UInt8) : List (FrameEvent N) × Consumer :=
  match search : buffered.idxOf? NEWLINE with
  | none => ([], ⟨buffered, false⟩)
  | some newline =>
    let frame := buffered.take newline
    let rest := buffered.drop (newline + 1)
    have : rest.length < buffered.length := by
      have found : newline < buffered.length := (List.findIdx?_eq_some_iff_findIdx_eq.mp search).1
      simp only [rest, List.length_drop]
      omega
    if frame.length > 0 then
      match parseFrame format frame with
      | some value =>
        match onFrame value with
        | none =>
          let (events, consumer) := drain rest
          (.frame value :: events, consumer)
        | some error => ([.frame value, .error error], ⟨rest, true⟩)
      | none => ([.error "Harness broker received invalid JSON"], ⟨rest, true⟩)
    else drain rest
termination_by buffered.length

/-- The `data` event of the socket; a destroyed one emits none. -/
def data (consumer : Consumer) (chunk : List UInt8) : List (FrameEvent N) × Consumer :=
  if consumer.destroyed then ([], consumer)
  else
    let buffered := consumer.buffered ++ chunk
    if buffered.length > HARNESS_BROKER_MAX_FRAME_BYTES then
      ([.error "Harness broker frame exceeds the maximum size"], ⟨buffered, true⟩)
    else drain format onFrame buffered

/-- `consumeBrokerFrames`, with the chunks that arrive after it. -/
def consumeBrokerFrames (chunks : List (List UInt8)) : List (FrameEvent N) :=
  let rec consume (consumer : Consumer) : List (List UInt8) → List (FrameEvent N)
    | [] => []
    | chunk :: chunks =>
      let (events, consumer) := data format onFrame consumer chunk
      events ++ consume consumer chunks
  consume ⟨[], false⟩ chunks

end Consume

end CodexHost.Source.HarnessBroker.Framing
