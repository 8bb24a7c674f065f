import CodexHost.Foundation.JsonNumber
import CodexHost.Foundation.TextEncoding
import CodexHost.Foundation.Transition

/-!
# Opening the journal of a Session

`openModernJournal` of `packages/adapters/deepseek-harness/src/modern/journal.ts`. The history is
read backwards page by page while the pump takes live items from the same stream. What a record, a
live item or the assistant baseline says is the profile's to read, a parameter as in the source.
-/
namespace CodexHost.Source.DeepseekHarness.Journal
open Foundation

/-- A value of the wire. -/
abbrev Wire := Json JsonNumber

inductive ModernJournalErrorCode where
  | authenticationRequired
  | cancelled
  | limitExceeded
  | notInstalled
  | processExited
  | protocolError
  | remoteError
  | unavailable
  deriving DecidableEq, Repr

structure ModernJournalError where
  code : ModernJournalErrorCode
  message : String
  deriving DecidableEq, Repr

def protocolError (message : String) : ModernJournalError := ⟨.protocolError, message⟩

def limitError (message : String) : ModernJournalError := ⟨.limitExceeded, message⟩

structure ModernJournalEvent where
  seq : Int
  /-- The whole event, as it is measured. -/
  value : Wire

inductive DeepSeekAssistantFrame where
  | start (attemptId : Utf16) (revision startedAfterSeq turn step : Int)
  | chunk (attemptId : Utf16) (revision index time : Int) (chunk : Wire)
  | finish (attemptId : Utf16) (revision index : Int) (outcome : Wire)

inductive ModernJournalLiveItem where
  | event (event : ModernJournalEvent)
  | assistantStream (frame : DeepSeekAssistantFrame)

structure DeepSeekAssistantAttempt where
  attemptId : Utf16
  startedAfterSeq : Int
  turn : Int
  step : Int
  stream : Wire

structure DeepSeekAssistantBaseline where
  revision : Int
  activeAttempt : Option DeepSeekAssistantAttempt

structure ModernJournalOpenRequest where
  sessionId : String
  cwd : Option String

/-- The rules of the Session format; `H` is the header that they read. -/
structure DeepSeekModernProfile (H : Type) where
  snapshotKeys : List String
  parseHeader : Option Wire → ModernJournalOpenRequest → Except ModernJournalError H
  parseHistoryRecord : Wire → Int → Except ModernJournalError (List ModernJournalEvent)
  parseLiveItem : Wire → Except ModernJournalError ModernJournalLiveItem
  parseAssistantBaseline : Option Wire → Except ModernJournalError DeepSeekAssistantBaseline
  /-- The times and chunks of a compact stream. -/
  expandAssistantStream : Wire → Except ModernJournalError (List (Int × Wire))
  inheritedEventCount : H → List ModernJournalEvent → Except ModernJournalError (Option Nat)

structure Limits (α : Type) where
  pageMaxMessages : α
  maxRecordsPerPage : α
  maxRecordBytes : α
  maxPageRequests : α
  maxEvents : α
  maxHistoryBytes : α
  maxBufferedLiveEvents : α
  maxBufferedLiveBytes : α

abbrev ResolvedOptions := Limits Nat

def defaultLimits : ResolvedOptions where
  pageMaxMessages := 200
  maxRecordsPerPage := 100000
  maxRecordBytes := 32 * 1024 * 1024
  maxPageRequests := 10000
  maxEvents := 1000000
  maxHistoryBytes := 128 * 1024 * 1024
  maxBufferedLiveEvents := 8192
  maxBufferedLiveBytes := 32 * 1024 * 1024

def MAX_SAFE_INTEGER : Int := 2 ^ 53 - 1

/-- A limit that may be given; the error is the name of one that is no positive safe integer. -/
def resolveLimit (name : String) (standard : Nat) : Option JsonNumber → Except String Nat
  | none => .ok standard
  | some (.integer value) =>
    if value ≤ 0 ∨ MAX_SAFE_INTEGER < value then
      .error (name ++ " must be a positive safe integer")
    else .ok value.toNat
  | some (.other _) => .error (name ++ " must be a positive safe integer")

def resolveOptions (options : Limits (Option JsonNumber)) : Except String ResolvedOptions := do
  let d := defaultLimits
  return {
    pageMaxMessages := ← resolveLimit "pageMaxMessages" d.pageMaxMessages options.pageMaxMessages
    maxRecordsPerPage :=
      ← resolveLimit "maxRecordsPerPage" d.maxRecordsPerPage options.maxRecordsPerPage
    maxRecordBytes := ← resolveLimit "maxRecordBytes" d.maxRecordBytes options.maxRecordBytes
    maxPageRequests := ← resolveLimit "maxPageRequests" d.maxPageRequests options.maxPageRequests
    maxEvents := ← resolveLimit "maxEvents" d.maxEvents options.maxEvents
    maxHistoryBytes := ← resolveLimit "maxHistoryBytes" d.maxHistoryBytes options.maxHistoryBytes
    maxBufferedLiveEvents :=
      ← resolveLimit "maxBufferedLiveEvents" d.maxBufferedLiveEvents options.maxBufferedLiveEvents
    maxBufferedLiveBytes :=
      ← resolveLimit "maxBufferedLiveBytes" d.maxBufferedLiveBytes options.maxBufferedLiveBytes }

def isRecord : Wire → Bool
  | .object _ => true
  | _ => false

/-- `value[key]`, and nothing for what is no record. -/
def member (value : Wire) (key : String) : Option Wire :=
  match value with
  | .object members => members.lookup (Utf16.ofString key)
  | _ => none

def hasExactKeys (value : Wire) (keys : List String) : Bool :=
  match value with
  | .object members => members.length = keys.length && keys.all fun key => (member value key).isSome
  | _ => false

def asBoolean : Option Wire → Option Bool
  | some (.bool value) => some value
  | _ => none

/-- The number, when `isCursor` accepts the value. -/
def asCursor : Option Wire → Option Int
  | some (.number (.integer value)) =>
    if value = -1 ∨ (0 ≤ value ∧ value ≤ MAX_SAFE_INTEGER) then some value else none
  | _ => none

mutual

/-- How deep arrays and objects are nested. -/
def depth : Wire → Nat
  | .array items => itemsDepth items + 1
  | .object members => membersDepth members + 1
  | _ => 0

def itemsDepth : List Wire → Nat
  | [] => 0
  | item :: items => max (depth item) (itemsDepth items)

def membersDepth : List (Utf16 × Wire) → Nat
  | [] => 0
  | (_, value) :: members => max (depth value) (membersDepth members)

end

def MODERN_JOURNAL_MAX_JSON_DEPTH : Nat := 100

def assertJsonValue (value : Wire) (label : String) : Except ModernJournalError Unit :=
  if depth value > MODERN_JOURNAL_MAX_JSON_DEPTH then
    .error (limitError (label ++ " exceeded its JSON depth bound"))
  else .ok ()

/-- `Buffer.byteLength(JSON.stringify(value), "utf8")` -/
def wireBytes (value : Wire) : Nat := (TextEncoding.utf8Bytes (Json.write JsonNumber.format value)).length

def assertWireBytes (value : Option Wire) (maxBytes : Nat) (label : String) : Except ModernJournalError Nat :=
  match value with
  | none => .error (protocolError (label ++ " is not a JSON value"))
  | some value =>
    if wireBytes value > maxBytes then
      .error (limitError (label ++ " exceeded maxRecordBytes"))
    else .ok (wireBytes value)

section Parsers
variable {H : Type} (profile : DeepSeekModernProfile H) (limits : ResolvedOptions)

structure ParsedWindow where
  events : List ModernJournalEvent
  hasMore : Bool
  retainedBytes : Nat

/-- Each number is the successor of the one before it. -/
def contiguous : List ModernJournalEvent → Bool
  | first :: second :: rest => second.seq = first.seq + 1 && contiguous (second :: rest)
  | _ => true

def assertContiguous (events : List ModernJournalEvent) (label : String) : Except ModernJournalError Unit :=
  if contiguous events then .ok ()
  else .error (protocolError (label ++ " is not sequence-contiguous"))

/-- The loop body of `parseWindow`: the events and bytes so far, and one more record. -/
def readRecord (label : String) (logicalLimit : Int) (soFar : List ModernJournalEvent × Nat)
    (record : Wire) : Except ModernJournalError (List ModernJournalEvent × Nat) := do
  let _ ← assertWireBytes (some record) limits.maxRecordBytes (label ++ " record")
  let remaining := min (limits.maxEvents : Int) logicalLimit - soFar.1.length
  let expanded ← profile.parseHistoryRecord record remaining
  let expandedBytes := (expanded.map fun event => wireBytes event.value).sum
  if (expandedBytes : Int) > (limits.maxHistoryBytes : Int) - soFar.2 then
    throw (limitError "journal history exceeded maxHistoryBytes")
  else return (soFar.1 ++ expanded, soFar.2 + expandedBytes)

/-- The checks of `parseWindow` on the events that were read. -/
def checkWindow (window : ParsedWindow) (expectedLastSeq : Int) (label : String) :
    Except ModernJournalError ParsedWindow :=
  if expectedLastSeq = -1 then
    if !window.events.isEmpty || window.hasMore then
      .error (protocolError (label ++ " is invalid for an empty log"))
    else .ok window
  else
    match window.events with
    | [] => .error (protocolError (label ++ " omitted required events"))
    | first :: rest => do
      assertContiguous (first :: rest) label
      if ((first :: rest).getLast?.map (·.seq)) ≠ some expectedLastSeq then
        throw (protocolError (label ++ " overlaps or leaves a sequence gap"))
      else if window.hasMore ≠ decide (first.seq > 0) then
        throw (protocolError (label ++ " has an inconsistent hasMore boundary"))
      else return window

def parseWindow (records : Option Wire) (hasMore : Bool) (expectedLastSeq : Int) (label : String) :
    Except ModernJournalError ParsedWindow :=
  match records with
  | some (.array records) =>
    if records.length > limits.maxRecordsPerPage then
      .error (limitError (label ++ " exceeded maxRecordsPerPage"))
    else do
      let logicalLimit := if expectedLastSeq < 0 then 0 else expectedLastSeq + 1
      let read ← records.foldlM (readRecord profile limits label logicalLimit) ([], 0)
      checkWindow ⟨read.1, hasMore, read.2⟩ expectedLastSeq label
  | _ => .error (protocolError (label ++ " records must be an array"))

def parsePage (value : Wire) (throughSeq expectedLastSeq : Int) : Except ModernJournalError ParsedWindow :=
  match asBoolean (member value "hasMore") with
  | some hasMore =>
    if hasExactKeys value ["records", "hasMore"] ∨ (hasExactKeys value ["cursor", "records", "hasMore"] ∧
          asCursor (member value "cursor") = some throughSeq) then
      parseWindow profile limits (member value "records") hasMore expectedLastSeq "journal page"
    else .error (protocolError "session/page returned an invalid page")
  | none => .error (protocolError "session/page returned an invalid page")

def parseProjections (value : Option Wire) (cursor : Int) : Except ModernJournalError Wire := do
  let _ ← assertWireBytes value limits.maxRecordBytes "journal projections"
  let invalid := protocolError "journal snapshot has an invalid projection baseline"
  match value with
  | none => throw invalid
  | some value =>
    match member value "values" with
    | none => throw invalid
    | some values =>
      if hasExactKeys value ["asOfSeq", "values"] ∧
          asCursor (member value "asOfSeq") = some cursor ∧ isRecord values then do
        assertJsonValue values "journal projection values"
        return value
      else throw invalid

structure OpeningSnapshot (H : Type) where
  header : H
  cursor : Int
  events : List ModernJournalEvent
  hasMore : Bool
  projections : Wire
  retainedBytes : Nat
  assistantStream : DeepSeekAssistantBaseline

/-- The members of a snapshot that are read before the others: the cursor and `hasMore`. -/
def snapshotScalars (value : Wire) : Option (Int × Bool) :=
  match member value "type", asCursor (member value "cursor"), asBoolean (member value "hasMore") with
  | some (.string type), some cursor, some hasMore =>
    if hasExactKeys value profile.snapshotKeys ∧ type = Utf16.ofString "snapshot" then
      some (cursor, hasMore)
    else none
  | _, _, _ => none

def parseOpeningSnapshot (value : Wire) (request : ModernJournalOpenRequest) :
    Except ModernJournalError (OpeningSnapshot H) :=
  match snapshotScalars profile value with
  | none => .error (protocolError "journal follow emitted an invalid opening snapshot")
  | some (cursor, hasMore) =>
    if cursor + 1 > limits.maxEvents then
      .error (limitError "journal opening cursor exceeded maxEvents")
    else do
      let _ ← assertWireBytes (member value "header") limits.maxRecordBytes "journal header"
      let header ← profile.parseHeader (member value "header") request
      let projections ← parseProjections limits (member value "projections") cursor
      let window ← parseWindow profile limits (member value "records") hasMore cursor "journal snapshot"
      let _ ← assertWireBytes (member value "assistantStream") limits.maxRecordBytes
        "assistant stream baseline"
      let assistantStream ← profile.parseAssistantBaseline (member value "assistantStream")
      if assistantStream.activeAttempt.any fun attempt => attempt.startedAfterSeq > cursor then
        throw (protocolError "assistant stream baseline starts after the durable cursor")
      else
        return ⟨header, cursor, window.events, window.hasMore, projections, window.retainedBytes,
          assistantStream⟩

/-- `parseLiveItem` and the bytes of the item. -/
def parseLiveItem (value : Wire) : Except ModernJournalError (ModernJournalLiveItem × Nat) := do
  let retainedBytes ← assertWireBytes (some value) limits.maxRecordBytes "journal live record"
  return (← profile.parseLiveItem value, retainedBytes)

end Parsers

namespace DeepSeekAssistantFrame

def revision : DeepSeekAssistantFrame → Int
  | .start _ revision _ _ _ => revision
  | .chunk _ revision _ _ _ => revision
  | .finish _ revision _ _ => revision

/-- A frame that restarts the lifecycle. -/
def restarts : DeepSeekAssistantFrame → Bool
  | .start _ revision _ _ _ => revision = 1
  | _ => false

def number (value : Int) : Wire := .number (.integer value)

def text (value : String) : Wire := .string (Utf16.ofString value)

/-- The frame as it is written. -/
def toWire : DeepSeekAssistantFrame → Wire
  | .start attemptId revision startedAfterSeq turn step =>
    .object [(Utf16.ofString "type", text "start"), (Utf16.ofString "attemptId", .string attemptId),
      (Utf16.ofString "revision", number revision),
      (Utf16.ofString "startedAfterSeq", number startedAfterSeq),
      (Utf16.ofString "turn", number turn), (Utf16.ofString "step", number step)]
  | .chunk attemptId revision index time value =>
    .object [(Utf16.ofString "type", text "chunk"), (Utf16.ofString "attemptId", .string attemptId),
      (Utf16.ofString "revision", number revision), (Utf16.ofString "index", number index),
      (Utf16.ofString "time", number time), (Utf16.ofString "chunk", value)]
  | .finish attemptId revision index outcome =>
    .object [(Utf16.ofString "type", text "end"), (Utf16.ofString "attemptId", .string attemptId),
      (Utf16.ofString "revision", number revision), (Utf16.ofString "index", number index),
      (Utf16.ofString "outcome", outcome)]

/-- The live item of a frame as it is written. -/
def itemWire (frame : DeepSeekAssistantFrame) : Wire :=
  .object [(Utf16.ofString "type", text "assistant-stream"), (Utf16.ofString "frame", frame.toWire)]

end DeepSeekAssistantFrame

structure LiveBuffer where
  maxItems : Nat
  maxBytes : Nat
  items : List (ModernJournalLiveItem × Nat)
  retainedBytes : Nat
  done : Bool
  failure : Option ModernJournalError

/-- What `next` of the buffer settles with. -/
inductive Taken where
  | item (item : ModernJournalLiveItem)
  | ended
  | failed (error : ModernJournalError)

namespace LiveBuffer
variable (buffer : LiveBuffer)

def new (maxItems maxBytes : Nat) : LiveBuffer := ⟨maxItems, maxBytes, [], 0, false, none⟩

def push (event : ModernJournalLiveItem) (retainedBytes : Nat) : Except ModernJournalError LiveBuffer :=
  if buffer.done || buffer.failure.isSome then .ok buffer
  else if buffer.items.length ≥ buffer.maxItems then
    .error (limitError "journal live buffer exceeded maxBufferedLiveEvents")
  else if (retainedBytes : Int) > (buffer.maxBytes : Int) - buffer.retainedBytes then
    .error (limitError "journal live buffer exceeded maxBufferedLiveBytes")
  else .ok { buffer with
    items := buffer.items ++ [(event, retainedBytes)]
    retainedBytes := buffer.retainedBytes + retainedBytes }

def fail (error : ModernJournalError) : LiveBuffer :=
  if buffer.done || buffer.failure.isSome then buffer
  else { buffer with failure := some error, items := [], retainedBytes := 0 }

def «end» : LiveBuffer :=
  if buffer.done then buffer else { buffer with done := true, items := [], retainedBytes := 0 }

/-- `#next`; nothing while it waits. -/
def next : Option (Taken × LiveBuffer) :=
  match buffer.failure, buffer.items with
  | some error, _ => some (.failed error, buffer)
  | none, (event, retainedBytes) :: rest =>
    some (.item event, { buffer with items := rest, retainedBytes := buffer.retainedBytes - retainedBytes })
  | none, [] => if buffer.done then some (.ended, buffer) else none

end LiveBuffer

section Opening
variable {H : Type} (profile : DeepSeekModernProfile H) (limits : ResolvedOptions)

structure ModernJournal (H : Type) where
  header : H
  inheritedEventCount : Option Nat
  cursor : Int
  projections : Wire
  events : List ModernJournalEvent

/-- The variables of the history loop; the segments in the order they were read. -/
structure Paging where
  segments : List (List ModernJournalEvent)
  totalEvents : Nat
  oldestSeq : Int
  hasMore : Bool
  pageRequests : Nat

/-- Where `openModernJournal` is: at its first `await`, at a page, releasing the stream before it
throws, and settled. -/
inductive Control (H : Type) where
  | first
  | page (opening : OpeningSnapshot H) (paging : Paging)
  | releasing (failure : ModernJournalError)
  | failed (failure : ModernJournalError)
  | returned (journal : ModernJournal H)

inductive Pump where
  | off
  | reading
  | releasing
  | ended
  deriving DecidableEq, Repr

/-- The promise of `returnFollow`. -/
inductive ReturnFollow where
  | uncalled
  | pending
  | settled
  deriving DecidableEq, Repr

structure JournalState (H : Type) where
  control : Control H
  pump : Pump
  returnFollow : ReturnFollow
  closing : Bool
  aborted : Bool
  liveClaimed : Bool
  pumpFailure : Option ModernJournalError
  retainedHistoryBytes : Nat
  liveBuffer : LiveBuffer
  expectedLiveSeq : Int
  assistantRevision : Int
  /-- The calls of `session/page` and of `iterator.return`, the live events that the pump took and
  the items that the consumer got; for the properties only. -/
  pageCalls : Nat
  returnCalls : Nat
  accepted : List ModernJournalEvent
  delivered : List ModernJournalLiveItem

def JournalState.start {H : Type} : JournalState H where
  control := .first
  pump := .off
  returnFollow := .uncalled
  closing := false
  aborted := false
  liveClaimed := false
  pumpFailure := none
  retainedHistoryBytes := 0
  liveBuffer := .new 0 0
  expectedLiveSeq := 0
  assistantRevision := 0
  pageCalls := 0
  returnCalls := 0
  accepted := []
  delivered := []

/-- The frames that stand for the attempt that was active at the opening. -/
def openingFrames (assistantStream : DeepSeekAssistantBaseline) :
    Except ModernJournalError (List DeepSeekAssistantFrame) :=
  match assistantStream.activeAttempt with
  | none => .ok []
  | some attempt => do
    let chunks ← profile.expandAssistantStream attempt.stream
    return .start attempt.attemptId assistantStream.revision attempt.startedAfterSeq attempt.turn
        attempt.step ::
      chunks.zipIdx.map fun (chunk, index) =>
        .chunk attempt.attemptId assistantStream.revision index chunk.1 chunk.2

def pushFrame (buffer : LiveBuffer) (frame : DeepSeekAssistantFrame) :
    Except ModernJournalError LiveBuffer := do
  let bytes ← assertWireBytes (some frame.itemWire) limits.maxRecordBytes "assistant baseline"
  buffer.push (.assistantStream frame) bytes

/-- The live buffer with the assistant baseline. -/
def openingBuffer (assistantStream : DeepSeekAssistantBaseline) : Except ModernJournalError LiveBuffer := do
  let frames ← openingFrames profile assistantStream
  frames.foldlM (pushFrame limits) (.new limits.maxBufferedLiveEvents limits.maxBufferedLiveBytes)

def reserveHistoryBytes (retainedHistoryBytes bytes : Nat) : Except ModernJournalError Nat :=
  if (bytes : Int) > (limits.maxHistoryBytes : Int) - retainedHistoryBytes then
    .error (limitError "journal history exceeded maxHistoryBytes")
  else .ok (retainedHistoryBytes + bytes)

/-- The checks on the history once nothing older is left. -/
def joinHistory (opening : OpeningSnapshot H) (segments : List (List ModernJournalEvent)) :
    Except ModernJournalError (ModernJournal H) := do
  let events := segments.reverse.flatten
  if (events.length : Int) ≠ opening.cursor + 1 ∨
      (opening.cursor ≥ 0 ∧ (events.head?.map (·.seq)) ≠ some 0) then
    throw (protocolError "journal history is not a complete zero-based event prefix")
  else do
    assertContiguous events "journal history"
    let inheritedEventCount ← profile.inheritedEventCount opening.header events
    return ⟨opening.header, inheritedEventCount, opening.cursor, opening.projections, events⟩

namespace JournalState
variable (s : JournalState H)

/-- `returnFollow()` -/
def returnOnce : JournalState H := { s with
  returnFollow := if s.returnFollow = .uncalled then .pending else s.returnFollow
  returnCalls := if s.returnFollow = .uncalled then s.returnCalls + 1 else s.returnCalls }

/-- A failure before the pump starts. -/
def openingFailed (error : ModernJournalError) : JournalState H :=
  { s with aborted := true, control := .releasing error }.returnOnce

def close : JournalState H :=
  if s.closing then s
  else { s with closing := true, aborted := true, liveBuffer := s.liveBuffer.end }.returnOnce

/-- The `catch` of the history loop. -/
def historyFailed (error : ModernJournalError) : JournalState H :=
  { s with control := .releasing (s.pumpFailure.getD error) }.close

/-- From the head of the history loop to its next `await` or to the end. -/
def advance (opening : OpeningSnapshot H) (paging : Paging) : JournalState H :=
  if paging.hasMore then
    if paging.pageRequests ≥ limits.maxPageRequests then
      s.historyFailed (limitError "journal pagination exceeded maxPageRequests")
    else { s with
      control := .page opening { paging with pageRequests := paging.pageRequests + 1 }
      pageCalls := s.pageCalls + 1 }
  else
    match s.pumpFailure with
    | some failure => s.historyFailed failure
    | none =>
      match joinHistory profile opening paging.segments with
      | .error error => s.historyFailed error
      | .ok journal => { s with control := .returned journal }

/-- A page that was answered: the loop variables and the bytes after it. -/
def readPage (opening : OpeningSnapshot H) (paging : Paging) (value : Wire) :
    Except ModernJournalError (Paging × Nat) := do
  let page ← parsePage profile limits value opening.cursor (paging.oldestSeq - 1)
  match page.events with
  | [] => throw (protocolError "journal page made no backwards progress")
  | first :: _ =>
    if first.seq ≥ paging.oldestSeq then
      throw (protocolError "journal page made no backwards progress")
    else if paging.totalEvents + page.events.length > limits.maxEvents then
      throw (limitError "journal history exceeded maxEvents")
    else do
      let retained ← reserveHistoryBytes limits s.retainedHistoryBytes page.retainedBytes
      return ({ paging with
        segments := paging.segments ++ [page.events]
        totalEvents := paging.totalEvents + page.events.length
        oldestSeq := first.seq
        hasMore := page.hasMore }, retained)

/-- The body of the pump's loop for one item. -/
def accept (value : Wire) : Except ModernJournalError (JournalState H) := do
  let (item, retainedBytes) ← parseLiveItem profile limits value
  match item with
  | .assistantStream frame =>
    if !frame.restarts && frame.revision ≠ s.assistantRevision + 1 then
      throw (protocolError "journal assistant stream is not revision-contiguous")
    else do
      let buffer ← s.liveBuffer.push item retainedBytes
      return { s with assistantRevision := frame.revision, liveBuffer := buffer }
  | .event event =>
    if event.seq ≠ s.expectedLiveSeq then
      throw (protocolError "journal live events are not sequence-contiguous")
    else do
      let retained ← reserveHistoryBytes limits s.retainedHistoryBytes retainedBytes
      let buffer ← s.liveBuffer.push item retainedBytes
      return { s with
        expectedLiveSeq := s.expectedLiveSeq + 1
        retainedHistoryBytes := retained
        liveBuffer := buffer
        accepted := s.accepted ++ [event] }

/-- The pump's way out of its loop without an error. -/
def pumpEnded : JournalState H := { s with liveBuffer := s.liveBuffer.end, pump := .ended }

/-- The pump's `catch`. -/
def pumpFailed (error : ModernJournalError) : JournalState H :=
  if s.closing then s.pumpEnded
  else { s with
    pumpFailure := some error
    liveBuffer := s.liveBuffer.fail error
    aborted := true
    pump := .releasing }.returnOnce

end JournalState

/-- What the stream of `session/follow` gives. -/
inductive Streamed where
  | item (value : Wire)
  | done
  | error (error : ModernJournalError)

/-- How `session/page` ends: with a result, with a failure of the remote, or not at all. -/
inductive PageAnswer where
  | ok (value : Wire)
  | refused (error : ModernJournalError)
  | error (error : ModernJournalError)

inductive Event where
  | first (answer : Streamed)
  | page (answer : PageAnswer)
  | live (answer : Streamed)
  | followReturned
  | pumpReleased
  | thrown
  | iterate
  | next
  | close

namespace JournalState
variable (request : ModernJournalOpenRequest) (s : JournalState H)

/-- The opening snapshot, or what came in its place. -/
def onFirst : Streamed → JournalState H
  | .done => s.openingFailed (protocolError "journal follow ended before its opening snapshot")
  | .error error => s.openingFailed error
  | .item value =>
    match parseOpeningSnapshot profile limits value request with
    | .error error => s.openingFailed error
    | .ok opening =>
      match openingBuffer profile limits opening.assistantStream with
      | .error error =>
        { s with retainedHistoryBytes := opening.retainedBytes }.openingFailed error
      | .ok buffer =>
        let oldestSeq := (opening.events.head?.map (·.seq)).getD (opening.cursor + 1)
        { s with
          retainedHistoryBytes := opening.retainedBytes
          liveBuffer := buffer
          expectedLiveSeq := opening.cursor + 1
          assistantRevision := opening.assistantStream.revision
          pump := .reading }.advance profile limits opening
            ⟨[opening.events], opening.events.length, oldestSeq, opening.hasMore, 0⟩

def onPage (opening : OpeningSnapshot H) (paging : Paging) : PageAnswer → JournalState H
  | .error error => s.historyFailed error
  | .refused error => s.historyFailed error
  | .ok value =>
    match s.pumpFailure with
    | some failure => s.historyFailed failure
    | none =>
      match s.readPage profile limits opening paging value with
      | .error error => s.historyFailed error
      | .ok (paging, retained) =>
        { s with retainedHistoryBytes := retained }.advance profile limits opening paging

def onLive : Streamed → JournalState H
  | .done =>
    if s.closing then s.pumpEnded
    else s.pumpFailed ⟨.unavailable, "journal follow ended unexpectedly"⟩
  | .error error => s.pumpFailed error
  | .item value =>
    match s.accept profile limits value with
    | .error error => s.pumpFailed error
    | .ok s => if s.closing then s.pumpEnded else s

end JournalState

/-- One step of the opening, the pump, the stream or the consumer; nothing where it cannot be. -/
def step (request : ModernJournalOpenRequest) (s : JournalState H) : Event → Option (JournalState H)
  | .first answer =>
    match s.control with
    | .first => some (s.onFirst profile limits request answer)
    | _ => none
  | .page answer =>
    match s.control with
    | .page opening paging => some (s.onPage profile limits opening paging answer)
    | _ => none
  | .live answer => if s.pump = .reading then some (s.onLive profile limits answer) else none
  | .followReturned =>
    if s.returnFollow = .pending then some { s with returnFollow := .settled } else none
  | .pumpReleased =>
    if s.pump = .releasing ∧ s.returnFollow = .settled then some { s with pump := .ended } else none
  | .thrown =>
    match s.control with
    | .releasing failure =>
      if s.returnFollow = .settled ∧ (s.pump = .off ∨ s.pump = .ended) then
        some { s with control := .failed failure }
      else none
    | _ => none
  | .iterate =>
    match s.control with
    | .returned _ => if s.liveClaimed then some s else some { s with liveClaimed := true }
    | _ => none
  | .next =>
    if s.liveClaimed then
      s.liveBuffer.next.map fun (taken, buffer) => { s with
        liveBuffer := buffer
        delivered := s.delivered ++ (match taken with | .item item => [item] | _ => []) }
    else none
  | .close =>
    match s.control with
    | .returned _ => some s.close
    | _ => none

end Opening

end CodexHost.Source.DeepseekHarness.Journal
