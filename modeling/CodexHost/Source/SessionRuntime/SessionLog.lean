import Mathlib

/-!
# The journal of a Session

`packages/session-runtime/src/session-log.ts`: the events, densely numbered, and the stream of
one assistant attempt. What the followers are pushed is the list of frames.
-/
namespace CodexHost.Source.SessionRuntime

/-- A text as its UTF-16 code units. -/
abbrev Text := List UInt16

inductive EventType where
  | turnStart
  | stepStart
  | userMessage
  | assistantMessage
  | toolCall
  | toolResult
  | stepEnd
  | turnEnd
  deriving DecidableEq, Repr

structure WireEvent (α : Type) where
  type : EventType
  seq : Nat
  data : α
  /-- `surfaceOp` is "append". -/
  surface : Bool
  sourceEventSeqs : Option (List Nat)
  deriving DecidableEq, Repr

inductive BlockKind where
  | reasoning
  | text
  deriving DecidableEq, Repr

/-- A chunk of the assistant stream. -/
inductive Chunk where
  | blockStart (index : Nat) (kind : BlockKind)
  | delta (index : Nat) (kind : BlockKind) (text : Text)
  | blockEnd (index : Nat) (kind : BlockKind) (text : Text)
  | finish (toolCalls : Bool)
  deriving DecidableEq, Repr

structure ActiveAttempt where
  attempt : Nat
  turn : Nat
  step : Nat
  stream : List Chunk
  deriving DecidableEq, Repr

/-- The end of an attempt: the chunks that were streamed, and the event they were committed as. -/
structure EndedAttempt where
  attempt : Nat
  stream : List Chunk
  committed : Option Nat
  deriving DecidableEq, Repr

structure SessionLog (α : Type) where
  events : List (WireEvent α)
  sequenceStart : Nat
  attempt : Option ActiveAttempt
  attemptCounter : Nat
  /-- The attempts whose end was pushed, in order. -/
  ended : List EndedAttempt

namespace SessionLog
variable {α : Type}

def append (log : SessionLog α) (type : EventType) (data : α) (surface : Bool)
    (sourceEventSeqs : Option (List Nat)) : SessionLog α :=
  { log with
    events := log.events ++ [⟨type, log.sequenceStart + log.events.length, data, surface, sourceEventSeqs⟩] }

def startAttempt (log : SessionLog α) (turn step : Nat) : SessionLog α :=
  { log with
    attempt := some ⟨log.attemptCounter + 1, turn, step, []⟩
    attemptCounter := log.attemptCounter + 1 }

def chunk (log : SessionLog α) (chunk : Chunk) : SessionLog α :=
  { log with attempt := log.attempt.map fun attempt =>
      { attempt with stream := attempt.stream ++ [chunk] } }

def endAttempt (log : SessionLog α) (committed : Option Nat) : SessionLog α :=
  match log.attempt with
  | none => log
  | some attempt =>
    { log with
      attempt := none
      ended := log.ended ++ [⟨attempt.attempt, attempt.stream, committed⟩] }

end SessionLog

end CodexHost.Source.SessionRuntime
