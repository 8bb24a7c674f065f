import CodexHost.Source.SharedContracts

/-!
# A Session's journal and its followers

`SessionLog` of `packages/session-runtime/src/session-log.ts` with what it pushes to the sinks that
follow it: a snapshot when a sink joins, then every event and every frame of the assistant stream. A
pushed value is serialized at once. Event data, stream chunks and projections are of any type.
`StreamBaseline.fold` is `accept` of `SessionAssistantStreamAccumulator`, in
`apps/web-ui/packages/api/session-controller/src/assistant-stream.ts`, which turns the frames of the
stream into a baseline again.
-/
namespace CodexHost.Source.SessionRuntime.Followed
open Source.SharedContracts

structure WireEvent (α : Type) where
  type : String
  seq : Int
  time : Int
  data : α
  surfaceOp : Option String
  sourceEventSeqs : Option (List Int)
  ignorable : Bool
  deriving DecidableEq, Repr

structure SessionHeader where
  id : String
  createdAt : Int
  cwd : Option String
  agentPreset : Option String
  deriving DecidableEq, Repr

structure ActiveAttempt (γ : Type) where
  attemptId : String
  startedAfterSeq : Int
  turn : Int
  step : Int
  nextIndex : Nat
  stream : List (Int × γ)
  deriving DecidableEq, Repr

/-- A bound on a count; `none` is never reached. -/
abbrev Bound := Option Int

def Bound.reached (bound : Bound) (count : Nat) : Bool :=
  match bound with
  | none => false
  | some least => least ≤ count

structure PageWindow where
  maxMessages : Option Bound
  /-- `minMessages` and `minTurns` -/
  turnWindow : Option (Bound × Bound)

structure Resume where
  epoch : String
  /-- `none` if the number is no integer. -/
  cursor : Option Int

structure FollowRequest where
  window : PageWindow
  assistantStream : Bool
  resume : Option Resume

inductive AttemptOutcome where
  | abandoned
  | committed (eventType : String) (seq : Int)
  deriving DecidableEq, Repr

/-- A frame of the assistant stream. -/
inductive StreamFrame (γ : Type) where
  | start (attemptId : String) (revision : Nat) (startedAfterSeq turn step : Int)
  | chunk (attemptId : String) (revision index : Nat) (time : Int) (chunk : γ)
  | end (attemptId : String) (revision index : Nat) (outcome : AttemptOutcome)
  deriving DecidableEq, Repr

structure StreamBaseline (γ : Type) where
  revision : Nat
  activeAttempt : Option (ActiveAttempt γ)
  deriving DecidableEq, Repr

namespace StreamBaseline
variable {γ : Type}

/-- The baseline with the attempt of the next frame, or without one if the frame does not fit. -/
def fold (baseline : StreamBaseline γ) (durableCursor : Int) : StreamFrame γ → StreamBaseline γ
  | .start attemptId revision _ turn step =>
    let known := if revision = 1 then 0 else baseline.revision
    ⟨revision, if revision = known + 1 then some ⟨attemptId, durableCursor, turn, step, 0, []⟩ else none⟩
  | .chunk attemptId revision index time chunk =>
    let attempt := baseline.activeAttempt.filter fun attempt =>
      revision = baseline.revision + 1 ∧ attempt.attemptId = attemptId ∧ index = attempt.nextIndex
    ⟨revision, attempt.map fun attempt => { attempt with
      stream := attempt.stream ++ [(time, chunk)]
      nextIndex := attempt.nextIndex + 1 }⟩
  | .end _ revision _ _ => ⟨revision, none⟩

end StreamBaseline

structure Snapshot (α γ π : Type) where
  epoch : String
  resumedAfter : Option Int
  header : SessionHeader
  cursor : Int
  records : List (WireEvent α)
  hasMore : Bool
  /-- `asOfSeq` and the values. -/
  projections : Int × π
  assistantStream : Option (StreamBaseline γ)

/-- What a sink is pushed. -/
inductive Frame (α γ π : Type) where
  | snapshot (snapshot : Snapshot α γ π)
  | event (event : WireEvent α)
  | assistantStream (frame : StreamFrame γ)

/-- The followers are the sinks' numbers. -/
structure SessionLog (α γ π : Type) where
  header : SessionHeader
  events : List (WireEvent α)
  projections : π
  followers : List Nat
  revision : Nat
  epoch : String
  attempt : Option (ActiveAttempt γ)
  attemptCounter : Nat
  sequenceStart : Int

namespace SessionLog
variable {α γ π : Type}

/-- The constructor, with the stored events. -/
def new (header : SessionHeader) (stored : List (WireEvent α)) (projections : π) (epoch : String)
    (sequenceStart : Int) : SessionLog α γ π where
  header := header
  events := stored
  projections := projections
  followers := []
  revision := 0
  epoch := epoch
  attempt := none
  attemptCounter := (stored.filter (·.type = "assistant/message")).length
  sequenceStart := sequenceStart

def lastSeq (log : SessionLog α γ π) : Int := log.sequenceStart + log.events.length - 1

def firstSeq (log : SessionLog α γ π) : Int := log.sequenceStart

/-- The frames that a push to every follower is. -/
def push (log : SessionLog α γ π) (frame : Frame α γ π) : List (Nat × Frame α γ π) :=
  log.followers.map (·, frame)

def renumber (shift : Int) (event : WireEvent α) : WireEvent α :=
  { event with
    seq := event.seq + shift
    sourceEventSeqs := event.sourceEventSeqs.map (List.map (· + shift)) }

def prepend (log : SessionLog α γ π) (events : List (WireEvent α)) : Except String (SessionLog α γ π) :=
  match events with
  | [] => .ok log
  | first :: _ =>
    let start := log.sequenceStart - events.length
    if start < 0 then .error "History rendering sequence range exhausted"
    else
      let shift := start - first.seq
      .ok { log with events := events.map (renumber shift) ++ log.events, sequenceStart := start }

/-- `time` is that of the event, the replay clock or the system. -/
def append (log : SessionLog α γ π) (type : String) (data : α) (surfaceOp : Option String)
    (sourceEventSeqs : Option (List Int)) (ignorable : Bool) (time : Int) :
    SessionLog α γ π × List (Nat × Frame α γ π) :=
  let event : WireEvent α :=
    ⟨type, log.sequenceStart + log.events.length, time, data, surfaceOp, sourceEventSeqs, ignorable⟩
  ({ log with events := log.events ++ [event] }, log.push (.event event))

def startAttempt (log : SessionLog α γ π) (turn step : Int) : SessionLog α γ π × List (Nat × Frame α γ π) :=
  let attempt : ActiveAttempt γ :=
    ⟨s!"{log.header.id}:{log.attemptCounter + 1}", log.lastSeq, turn, step, 0, []⟩
  ({ log with
      attemptCounter := log.attemptCounter + 1
      attempt := some attempt
      revision := log.revision + 1 },
    log.push (.assistantStream
      (.start attempt.attemptId (log.revision + 1) attempt.startedAfterSeq turn step)))

def chunk (log : SessionLog α γ π) (chunk : γ) (time : Int) : SessionLog α γ π × List (Nat × Frame α γ π) :=
  match log.attempt with
  | none => (log, [])
  | some attempt =>
    ({ log with
        attempt := some { attempt with
          stream := attempt.stream ++ [(time, chunk)]
          nextIndex := attempt.nextIndex + 1 }
        revision := log.revision + 1 },
      log.push (.assistantStream (.chunk attempt.attemptId (log.revision + 1) attempt.nextIndex time chunk)))

def endAttempt (log : SessionLog α γ π) (committed : Option (WireEvent α)) :
    SessionLog α γ π × List (Nat × Frame α γ π) :=
  match log.attempt with
  | none => (log, [])
  | some attempt =>
    let outcome : AttemptOutcome :=
      match committed with
      | none => .abandoned
      | some event => .committed event.type event.seq
    ({ log with attempt := none, revision := log.revision + 1 },
      log.push (.assistantStream (.end attempt.attemptId (log.revision + 1) attempt.nextIndex outcome)))

/-- The last start of a Turn among these events, the newest first; the number counts their indexes. -/
def turnStart : List (WireEvent α) → Option Nat
  | [] => none
  | event :: earlier => if event.type = "turn/start" then some earlier.length else turnStart earlier

/-- The loop of `window` over the events, the newest first. -/
def windowStart (maxMessages minMessages minTurns : Bound) : List (WireEvent α) → (messages turns : Nat) → Nat
  | [], _, _ => 0
  | event :: earlier, messages, turns =>
    let message := (event.type = "user/message" ∨ event.type = "assistant/message") ∧
      event.surfaceOp = some "append"
    let messages := if message then messages + 1 else messages
    let turns := if event.type = "turn/start" then turns + 1 else turns
    if event.type = "turn/start" ∧ minMessages.reached messages ∧ minTurns.reached turns then
      earlier.length
    else if maxMessages.reached messages then (turnStart (event :: earlier)).getD earlier.length
    else windowStart maxMessages minMessages minTurns earlier messages turns

/-- The start of the window that ends before the index `end_`. -/
def window (log : SessionLog α γ π) (end_ : Nat) (request : PageWindow) : Nat :=
  let maxMessages := request.maxMessages.getD (some 500)
  let minMessages := request.turnWindow.elim maxMessages Prod.fst
  let minTurns := request.turnWindow.elim none Prod.snd
  windowStart maxMessages minMessages minTurns (log.events.take end_).reverse 0 0

/-- The cursor after which the request can be resumed. -/
def resumeCursor (log : SessionLog α γ π) (request : FollowRequest) : Option Int := do
  let resume ← request.resume
  let cursor ← resume.cursor
  if resume.epoch = log.epoch ∧ cursor.natAbs ≤ maxSafeInteger ∧ log.firstSeq - 1 ≤ cursor ∧
      cursor ≤ log.lastSeq then some cursor
  else none

/-- The index of the first event that the snapshot shows. -/
def snapshotStart (log : SessionLog α γ π) (request : FollowRequest) : Nat :=
  match log.resumeCursor request with
  | some cursor => (cursor + 1 - log.firstSeq).toNat
  | none => log.window log.events.length request.window

/-- `hasEarlier` is the answer of the log's callback. -/
def follow (log : SessionLog α γ π) (sink : Nat) (request : FollowRequest) (hasEarlier : Bool) :
    SessionLog α γ π × List (Nat × Frame α γ π) :=
  let start := log.snapshotStart request
  let snapshot : Snapshot α γ π := {
    epoch := log.epoch
    resumedAfter := log.resumeCursor request
    header := log.header
    cursor := log.lastSeq
    records := log.events.drop start
    hasMore := start > 0 || hasEarlier
    projections := (max log.lastSeq 0, log.projections)
    assistantStream := if request.assistantStream then some ⟨log.revision, log.attempt⟩ else none }
  ({ log with followers := if sink ∈ log.followers then log.followers else log.followers ++ [sink] },
    [(sink, .snapshot snapshot)])

/-- The close listener of a sink. -/
def close (log : SessionLog α γ π) (sink : Nat) : SessionLog α γ π :=
  { log with followers := log.followers.filter (· ≠ sink) }

/-- The calls of the log. -/
inductive Call (α γ : Type) where
  | prepend (events : List (WireEvent α))
  | append (type : String) (data : α) (surfaceOp : Option String)
      (sourceEventSeqs : Option (List Int)) (ignorable : Bool) (time : Int)
  | startAttempt (turn step : Int)
  | chunk (chunk : γ) (time : Int)
  | endAttempt (committed : Option (WireEvent α))
  | follow (sink : Nat) (request : FollowRequest) (hasEarlier : Bool)
  | close (sink : Nat)

def call (log : SessionLog α γ π) : Call α γ → SessionLog α γ π × List (Nat × Frame α γ π)
  | .prepend events =>
    match log.prepend events with
    | .ok log => (log, [])
    | .error _ => (log, [])
  | .append type data surfaceOp sourceEventSeqs ignorable time =>
    log.append type data surfaceOp sourceEventSeqs ignorable time
  | .startAttempt turn step => log.startAttempt turn step
  | .chunk chunk time => log.chunk chunk time
  | .endAttempt committed => log.endAttempt committed
  | .follow sink request hasEarlier => log.follow sink request hasEarlier
  | .close sink => (log.close sink, [])

/-- A run of calls: the log after them and all that they push. -/
def run (log : SessionLog α γ π) : List (Call α γ) → SessionLog α γ π × List (Nat × Frame α γ π)
  | [] => (log, [])
  | call :: calls =>
    let (log, pushed) := log.call call
    let (log, later) := run log calls
    (log, pushed ++ later)

end SessionLog

end CodexHost.Source.SessionRuntime.Followed
