import CodexHost.Foundation.TextEncoding
import CodexHost.Foundation.Json

/-!
# Frames of JSONL streams

`packages/protocol-core/src/jsonl.ts`: a frame is a line of a stream, and its text is a JSON value. The
stream arrives in chunks. The schema of JSON values is a parameter.
-/
namespace CodexHost.Source.ProtocolCore.Jsonl
open Foundation

def newline : UInt8 := 0x0a

/-- `options.maxFrameBytes` -/
inductive FrameLimit where
  | infinity
  | safeInteger (value : Int)
  | other
  deriving DecidableEq, Repr

def FrameLimit.valid : FrameLimit → Bool
  | .infinity => true
  | .safeInteger value => 1 ≤ value
  | .other => false

/-- `length > maximum` -/
def FrameLimit.exceeded (maximum : FrameLimit) (length : Nat) : Bool :=
  match maximum with
  | .safeInteger value => value < length
  | _ => false

/-- The frames that were yielded, and the error that ended the iteration. -/
structure Reading where
  frames : List (List UInt8)
  error : Option String
  deriving DecidableEq, Repr

section Read

structure Pending where
  pendingChunks : List (List UInt8)
  pendingLength : Nat

/-- `Buffer.concat(chunks, totalLength)`: cut off or filled with zeros. -/
def concat (chunks : List (List UInt8)) (totalLength : Nat) : List UInt8 :=
  (chunks.flatten ++ List.replicate (totalLength - chunks.flatten.length) 0).take totalLength

variable (maximum : FrameLimit)

/-- The loop over the lines of a chunk, from `frameStart` on. -/
def readChunk (pending : Pending) (bytes : List UInt8) : List (List UInt8) × Except String Pending :=
  match search : bytes.idxOf? newline with
  | some newlineIndex =>
    have : (bytes.drop (newlineIndex + 1)).length < bytes.length := by
      have found : newlineIndex < bytes.length := (List.findIdx?_eq_some_iff_findIdx_eq.mp search).1
      rw [List.length_drop]
      omega
    let tail := bytes.take newlineIndex
    let frameLength := pending.pendingLength + tail.length
    if maximum.exceeded frameLength then ([], .error "Protocol frame exceeds its limit")
    else if pending.pendingLength = 0 then
      let (frames, rest) := readChunk pending (bytes.drop (newlineIndex + 1))
      (tail :: frames, rest)
    else
      let (frames, rest) := readChunk ⟨[], 0⟩ (bytes.drop (newlineIndex + 1))
      (concat (pending.pendingChunks ++ [tail]) frameLength :: frames, rest)
  | none =>
    if 0 < bytes.length then
      let pendingLength := pending.pendingLength + bytes.length
      if maximum.exceeded pendingLength then ([], .error "Protocol frame exceeds its limit")
      else ([], .ok ⟨pending.pendingChunks ++ [bytes], pendingLength⟩)
    else ([], .ok pending)
termination_by bytes.length

/-- The loop over the chunks of the stream. -/
def readChunks (pending : Pending) : List (List UInt8) → Reading
  | [] =>
    ⟨[], if pending.pendingLength ≠ 0 then
      some "Protocol stream ended with an unterminated JSONL frame" else none⟩
  | bytes :: stream =>
    match readChunk maximum pending bytes with
    | (frames, .error error) => ⟨frames, some error⟩
    | (frames, .ok pending) =>
      let rest := readChunks pending stream
      ⟨frames ++ rest.frames, rest.error⟩

def readLfFrames (stream : List (List UInt8)) (maxFrameBytes : Option FrameLimit) : Reading :=
  let maximum := maxFrameBytes.getD .infinity
  if maximum.valid then readChunks maximum ⟨[], 0⟩ stream else ⟨[], some "Invalid protocol frame limit"⟩

end Read

section Values
variable {N : Type} (format : NumberFormat N) (jsonValueSchema : Json N → Option (Json N))

/-- `decoder.decode(frame)`: a byte order mark at the start is dropped. -/
def decode (frame : List UInt8) : Option (List Char) :=
  (TextEncoding.utf8Text frame).map fun text =>
    if text.head? = some '\uFEFF' then text.drop 1 else text

def parseJsonFrame (frame : List UInt8) : Except String (Json N) :=
  if frame.length = 0 then .error "Protocol stream contained an empty JSONL frame"
  else
    match ((decode frame).bind (Json.parse format)).bind jsonValueSchema with
    | some value => .ok value
    | none => .error "Protocol stream contained invalid JSONL"

/-- Nothing if the schema refuses the value. -/
def encodeJsonFrame (value : Json N) : Option (List UInt8) :=
  (jsonValueSchema value).map fun value => TextEncoding.utf8Bytes (value.write format ++ ['\n'])

end Values

end CodexHost.Source.ProtocolCore.Jsonl
