import CodexHost.Foundation.Utf8Replacement
import CodexHost.Source.ProtocolCore.CodexApproval

/-!
# The standard error of the managed process

The `data` listener of `#performConnect` in
`packages/adapters/deepseek-harness/src/modern/remote-connection.ts`, what `#performClose` does to its state,
`redactModernCredential` of `wire.ts` and `sanitizeDiagnosticTail` of `packages/harness-adapter`. Each pattern
is what it finds at a place: how many units it keeps there and how many it replaces.
-/
namespace CodexHost.Source.DeepseekHarness.RemoteDiagnostics
open Foundation Source.ProtocolCore.CodexApproval

/-- Case folding as far as these patterns can tell letters apart. -/
def foldUnit (unit : UInt16) : UInt16 :=
  if 0x41 ≤ unit ∧ unit ≤ 0x5A then unit + 0x20
  else if unit = 0x17F then 0x73
  else if unit = 0x212A then 0x6B
  else unit

/-- The text begins with these letters, in any case. -/
def beginsFolded (letters : String) (text : Utf16) : Bool :=
  (text.take letters.length).map foldUnit = Utf16.ofString letters

/-- `[A-Za-z0-9_-]` -/
def isWordUnit (unit : UInt16) : Bool :=
  (0x41 ≤ unit && unit ≤ 0x5A) || (0x61 ≤ unit && unit ≤ 0x7A) || (0x30 ≤ unit && unit ≤ 0x39) ||
    unit = 0x5F || unit = 0x2D

/-- `[^\s&)]` -/
def isTokenUnit (unit : UInt16) : Bool := !isWhiteSpace unit && unit ≠ 0x26 && unit ≠ 0x29

/-- `([?&]token=)[^\s&)]*` with its first group kept. -/
def findToken (text : Utf16) : Option (Nat × Nat) :=
  match text with
  | [] => none
  | first :: rest =>
    if (first = 0x3F ∨ first = 0x26) ∧ beginsFolded "token=" rest then
      some (7, ((rest.drop 6).takeWhile isTokenUnit).length)
    else none

def cookiePrefix : Utf16 := Utf16.ofString "dsh-auth-"
def cookieVersion : Utf16 := Utf16.ofString "v1."

/-- A run of word units and what comes after it; none is empty. -/
def word (text : Utf16) : Option (Utf16 × Utf16) :=
  if text.takeWhile isWordUnit = [] then none
  else some (text.takeWhile isWordUnit, text.dropWhile isWordUnit)

/-- What follows these units. -/
def afterUnits (units text : Utf16) : Option Utf16 :=
  if units.isPrefixOf text then some (text.drop units.length) else none

/-- `(dsh-auth-[A-Za-z0-9_-]+=)v1\.[A-Za-z0-9_-]+\.[A-Za-z0-9_-]+` with its first group kept. -/
def findCookie (text : Utf16) : Option (Nat × Nat) := do
  let text ← afterUnits cookiePrefix text
  let (name, text) ← word text
  let text ← afterUnits [0x3D] text
  let text ← afterUnits cookieVersion text
  let (payload, text) ← word text
  let text ← afterUnits [0x2E] text
  let (signature, _) ← word text
  return (cookiePrefix.length + name.length + 1, cookieVersion.length + payload.length + 1 + signature.length)

/-- `[A-Za-z0-9._~+/=-]` in any case. -/
def isBearerUnit (unit : UInt16) : Bool :=
  isWordUnit (foldUnit unit) || unit = 0x2E || unit = 0x7E || unit = 0x2B || unit = 0x2F || unit = 0x3D

/-- `\bBearer\s+[A-Za-z0-9._~+/=-]+`, after this unit, with nothing kept. -/
def findBearer (before : Option UInt16) (text : Utf16) : Option (Nat × Nat) :=
  let joined := before.any fun unit => (isWordUnit (foldUnit unit) && unit ≠ 0x2D)
  let spaces := ((text.drop 6).takeWhile isWhiteSpace).length
  let value := ((text.drop (6 + spaces)).takeWhile isBearerUnit).length
  if beginsFolded "bearer" text && !joined && spaces ≠ 0 && value ≠ 0 then some (0, 6 + spaces + value)
  else none

/-- The letters of a sensitive name at the beginning of a text. -/
def sensitiveName (text : Utf16) : Option Nat :=
  ["api_key", "api-key", "apikey", "access_token", "access-token", "accesstoken", "authorization", "auth",
    "password", "secret"].findSome? fun letters =>
      if beginsFolded letters text then some letters.length else none

/-- `[:=]` with the white space around it. -/
def separatorLength (text : Utf16) : Option Nat :=
  let spaces := (text.takeWhile isWhiteSpace).length
  match text.drop spaces with
  | unit :: rest =>
    if unit = 0x3A ∨ unit = 0x3D then some (spaces + 1 + (rest.takeWhile isWhiteSpace).length) else none
  | [] => none

/-- The pattern of sensitive values, `(name)(\s*[:=]\s*)([^\s,;]+)`, with its first two groups kept. -/
def findSensitive (text : Utf16) : Option (Nat × Nat) := do
  let name ← sensitiveName text
  let separator ← separatorLength (text.drop name)
  let value := ((text.drop (name + separator)).takeWhile fun unit =>
    !isWhiteSpace unit && unit ≠ 0x2C && unit ≠ 0x3B).length
  if value = 0 then none else some (name + separator, value)

section Redaction
variable {U : Type} (unit : U → UInt16)

/-- `text.replace(pattern, …)`: every match, from the left, keeps some units and replaces others. The units
are of any type, so that what a text keeps can be told from what it is given. -/
def replaceAll (find : Option UInt16 → Utf16 → Option (Nat × Nat)) (inserted : List U) :
    Option UInt16 → Nat → List U → List U
  | _, _, [] => []
  | _, skip + 1, first :: rest => replaceAll find inserted (some (unit first)) skip rest
  | before, 0, first :: rest =>
    match find before ((first :: rest).map unit) with
    | some (keep, dropped) =>
      (first :: rest).take keep ++ inserted ++
        replaceAll find inserted (some (unit first)) (keep + dropped - 1) rest
    | none => first :: replaceAll find inserted (some (unit first)) 0 rest

variable (literal : UInt16 → U)

def DIAGNOSTIC_TAIL_MAX_LENGTH : Nat := 8000

/-- `text.slice(-length)` of a text that may be shorter. -/
def lastUnits {V : Type} (length : Nat) (text : List V) : List V := text.drop (text.length - length)

def sanitizeDiagnosticTail (value : List U) : List U :=
  let value := replaceAll unit findBearer ((Utf16.ofString "Bearer [redacted]").map literal) none 0 value
  let value := replaceAll unit (fun _ => findSensitive) ((Utf16.ofString "[redacted]").map literal) none 0 value
  lastUnits DIAGNOSTIC_TAIL_MAX_LENGTH value

def redacted : Utf16 := Utf16.ofString "<redacted>"

def redactUnits (value : List U) : List U :=
  let value := replaceAll unit (fun _ => findToken) (redacted.map literal) none 0 value
  let value := replaceAll unit (fun _ => findCookie) (redacted.map literal) none 0 value
  sanitizeDiagnosticTail unit literal value

def redactModernCredential (value : Utf16) : Utf16 := redactUnits id id value

end Redaction

def STDERR_CHUNK_TAIL_MAX_LENGTH : Nat := 16 * 1024

/-- A chunk of the stream: a text, or the bytes of a buffer. -/
inductive Chunk where
  | text (value : Utf16)
  | bytes (value : List UInt8)

def Chunk.length : Chunk → Nat
  | .text value => value.length
  | .bytes value => value.length

/-- The last units of a chunk, of the bytes those that are left of the last bytes. -/
def Chunk.bounded : Chunk → Utf16
  | .text value => lastUnits STDERR_CHUNK_TAIL_MAX_LENGTH value
  | .bytes value => Utf8Replacement.lossyText (lastUnits STDERR_CHUNK_TAIL_MAX_LENGTH value)

/-- What follows the first white space, when there is one. -/
def afterWhiteSpace : Utf16 → Option Utf16
  | [] => none
  | unit :: rest => if isWhiteSpace unit then some rest else afterWhiteSpace rest

structure StandardError where
  stderrTail : Utf16
  stderrRawCarry : Utf16
  stderrDiscardUntilWhitespace : Bool
  deriving DecidableEq

def initial : StandardError :=
  { stderrTail := [], stderrRawCarry := [], stderrDiscardUntilWhitespace := false }

namespace StandardError
variable (redact : Utf16 → Utf16)

def keep (s : StandardError) (combined : Utf16) : StandardError :=
  { s with stderrRawCarry := combined, stderrTail := redact combined }

def discard (s : StandardError) : StandardError :=
  { s with stderrRawCarry := [], stderrDiscardUntilWhitespace := true }

/-- The end of the listener: the carried text with what was admitted of the chunk. -/
def combine (s : StandardError) (bounded : Utf16) : StandardError :=
  let combined := s.stderrRawCarry ++ bounded
  if combined.length > STDERR_CHUNK_TAIL_MAX_LENGTH then
    match afterWhiteSpace (lastUnits STDERR_CHUNK_TAIL_MAX_LENGTH combined) with
    | none => s.discard
    | some rest => s.keep redact rest
  else s.keep redact combined

/-- Nothing of a word that was cut is carried on. -/
def resume (s : StandardError) : StandardError :=
  { s with stderrRawCarry := [], stderrDiscardUntilWhitespace := false }

def onData (s : StandardError) (chunk : Chunk) : StandardError :=
  if chunk.length > STDERR_CHUNK_TAIL_MAX_LENGTH then
    match afterWhiteSpace chunk.bounded with
    | none => s.discard
    | some rest => s.resume.combine redact rest
  else if s.stderrDiscardUntilWhitespace then
    match afterWhiteSpace chunk.bounded with
    | none => s
    | some rest => s.resume.combine redact rest
  else s.combine redact chunk.bounded

/-- What is left after `#performClose`. -/
def close (s : StandardError) : StandardError := s.resume

end StandardError

inductive Event where
  | data (chunk : Chunk)
  | close

def step (redact : Utf16 → Utf16) (s : StandardError) : Event → StandardError
  | .data chunk => s.onData redact chunk
  | .close => s.close

def after (redact : Utf16 → Utf16) (events : List Event) : StandardError :=
  events.foldl (step redact) initial

end CodexHost.Source.DeepseekHarness.RemoteDiagnostics
