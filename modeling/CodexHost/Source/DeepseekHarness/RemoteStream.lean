import CodexHost.Source.ProtocolCore.JsonObject

/-!
# Streams of the managed process

`SocketInbox` and `#stream` of `packages/adapters/deepseek-harness/src/modern/remote-connection.ts`: one
stream over its own socket, read by one consumer, with every signal that can reach it between two reads.
What the stream sends, and the texts that redaction changes, are left out.
-/
namespace CodexHost.Source.DeepseekHarness.RemoteConnection
open Foundation Source.ProtocolCore

structure ModernRemoteFailure where
  code : Utf16
  message : Utf16
  details : JsonObject

/-- What a frame says, without its stream. -/
inductive FrameBody where
  | item (value : Option JsonValue)
  | error (error : ModernRemoteFailure)
  | end_

structure ModernRemoteStreamFrame where
  streamId : Utf16
  body : FrameBody

/-- A frame after which none of its stream follows. -/
def FrameBody.isTerminal : FrameBody → Bool
  | .item _ => false
  | _ => true

def hasExactKeys (value : JsonObject) (keys : List String) : Bool :=
  value.length = keys.length && keys.all fun key => (JsonObject.get value key).isSome

def asFailure : Option JsonValue → Option ModernRemoteFailure
  | some (.object value) =>
    match hasExactKeys value ["code", "message", "details"], JsonObject.get value "code",
        JsonObject.get value "message", JsonObject.get value "details" with
    | true, some (.string code), some (.string message), some (.object details) =>
      some { code, message, details }
    | _, _, _, _ => none
  | _ => none

/-- The stream a frame names, when it names one. -/
def frameStream (value : JsonObject) : Option Utf16 :=
  match JsonObject.get value "streamId" with
  | some (.string streamId) => if streamId.isEmpty then none else some streamId
  | _ => none

def invalidFrame : Utf16 := Utf16.ofString "Modern DSH Web emitted an invalid Remote stream frame"

def frameBody (value : JsonObject) : Option FrameBody :=
  if JsonObject.hasText value "type" "item" &&
      (hasExactKeys value ["type", "streamId"] || hasExactKeys value ["type", "streamId", "value"]) then
    some (.item (JsonObject.get value "value"))
  else if JsonObject.hasText value "type" "error" && hasExactKeys value ["type", "streamId", "error"] then
    (asFailure (JsonObject.get value "error")).map .error
  else if JsonObject.hasText value "type" "end" && hasExactKeys value ["type", "streamId"] then
    some .end_
  else none

/-- `parseStreamFrame` on what `JSON.parse` makes of the text; `none` is a text it refuses. -/
def parseStreamFrame : Option JsonValue → Except Utf16 ModernRemoteStreamFrame
  | none => .error (Utf16.ofString "Modern DSH Web emitted a non-JSON Remote stream frame")
  | some (.object value) =>
    match frameStream value, frameBody value with
    | some streamId, some body => .ok { streamId, body }
    | _, _ => .error invalidFrame
  | some _ => .error invalidFrame

/-- One message of the socket: `rawByteLength` and `rawText`, the latter as `JSON.parse` reads it. -/
structure SocketMessage where
  isBinary : Bool
  rawByteLength : Except Utf16 Nat
  rawText : Except Utf16 (Option JsonValue)

inductive ModernRemoteConnectionErrorCode where
  | authenticationRequired | cancelled | notInstalled | processExited | protocolError | unavailable
  deriving DecidableEq, Repr

structure ModernRemoteConnectionError where
  code : ModernRemoteConnectionErrorCode
  message : Utf16
  nativeCode : Option Utf16
  remoteFailure : Option ModernRemoteFailure

def connectionError (code : ModernRemoteConnectionErrorCode) (message : Utf16) : ModernRemoteConnectionError :=
  { code, message, nativeCode := none, remoteFailure := none }

def protocolFailure (message : Utf16) : ModernRemoteConnectionError :=
  connectionError .protocolError message

def unavailable (message : String) : ModernRemoteConnectionError :=
  connectionError .unavailable (Utf16.ofString message)

/-- An error of the socket: its `code`, when it has one, and its `message`. -/
structure SocketError where
  code : Option Utf16
  message : Utf16

inductive SocketEvent where
  | frame (frame : ModernRemoteStreamFrame)
  | error (error : SocketError)
  | unexpectedResponse (statusCode : Option Nat)
  | close

structure SocketInbox where
  items : List (SocketEvent × Nat)
  bytes : Nat
  failure : Option ModernRemoteConnectionError
  maxFrames : Nat
  maxBytes : Nat

def SocketInbox.fail (inbox : SocketInbox) (error : ModernRemoteConnectionError) : SocketInbox :=
  if inbox.failure.isSome then inbox
  else { inbox with failure := some error, items := [], bytes := 0 }

def SocketInbox.push (inbox : SocketInbox) (item : SocketEvent) (bytes : Nat) : SocketInbox :=
  if inbox.failure.isSome then inbox
  else if inbox.items.length + 1 > inbox.maxFrames ∨ inbox.bytes + bytes > inbox.maxBytes then
    inbox.fail (protocolFailure (Utf16.ofString "DeepSeek Harness Remote stream exceeded its bounded inbox"))
  else { inbox with items := inbox.items ++ [(item, bytes)], bytes := inbox.bytes + bytes }

/-- How far `#doCloseTrackedSocket` has come with a socket. -/
inductive CloseProgress where
  | firstWait
  | secondWait
  | settled (failure : Option ModernRemoteConnectionError)

structure TrackedSocket where
  closePromise : Option CloseProgress
  didClose : Bool
  quiescing : Bool

/-- How the stream came to its end: by itself, by an error, or because its consumer left it. -/
inductive Outcome where
  | ended
  | failed (error : ModernRemoteConnectionError)
  | left

/-- Where the generator stands. -/
inductive Phase where
  | idle
  | connecting
  /-- It awaits `inbox.take()`. -/
  | taking
  /-- `inbox.take()` has answered; the loop body has not run yet. -/
  | taken (event : SocketEvent)
  | yielded
  /-- It is in its `finally`; `awaits` tells whether the socket was still in the table. -/
  | cleaning (outcome : Outcome) (awaits : Bool)
  | done (outcome : Outcome)

/-- The part of the connection that one stream sees, and the stream. -/
structure RemoteStream where
  streamId : Utf16
  callerAborted : Bool
  closing : Bool
  fault : Option ModernRemoteConnectionError
  /-- The socket exists. -/
  created : Bool
  /-- The socket is a key of `#sockets`. -/
  inTable : Bool
  tracking : TrackedSocket
  inbox : SocketInbox
  /-- The listeners that `quiesce` takes off are on. -/
  listening : Bool
  openTimer : Bool
  abortListener : Bool
  transportOpened : Bool
  openSent : Bool
  terminalQueued : Bool
  phase : Phase
  /-- The values the consumer was given. -/
  output : List (Option JsonValue)
  /-- The frames of this stream that reached the socket. -/
  received : List FrameBody

/-- A stream whose consumer has not read yet, on a connection without a fault. -/
def initial (streamId : Utf16) (maxQueuedStreamFrames maxQueuedStreamBytes : Nat) : RemoteStream where
  streamId
  callerAborted := false
  closing := false
  fault := none
  created := false
  inTable := false
  tracking := { closePromise := none, didClose := false, quiescing := false }
  inbox := { items := [], bytes := 0, failure := none
             maxFrames := maxQueuedStreamFrames, maxBytes := maxQueuedStreamBytes }
  listening := false
  openTimer := false
  abortListener := false
  transportOpened := false
  openSent := false
  terminalQueued := false
  phase := .idle
  output := []
  received := []

namespace RemoteStream

def push (s : RemoteStream) (event : SocketEvent) (bytes : Nat) : RemoteStream :=
  { s with inbox := s.inbox.push event bytes }

def fail (s : RemoteStream) (error : ModernRemoteConnectionError) : RemoteStream :=
  { s with inbox := s.inbox.fail error }

def transportFailure (s : RemoteStream) (message : String) (error : Utf16) : ModernRemoteConnectionError :=
  s.fault.getD (connectionError .unavailable (Utf16.ofString (message ++ ": ") ++ error))

/-- `quiesce()` -/
def quiesce (s : RemoteStream) : RemoteStream := { s with openTimer := false, listening := false }

/-- The `finally` of `#doCloseTrackedSocket`, after which its promise is settled. -/
def settleClosing (s : RemoteStream) (failure : Option ModernRemoteConnectionError) : RemoteStream :=
  { s.quiesce with inTable := false
                   tracking := { s.tracking with closePromise := some (.settled failure) } }

/-- `#closeTrackedSocket`, up to the first wait of `#doCloseTrackedSocket`; `closeThrows` is the answer of
`socket.close()`. -/
def closeTrackedSocket (s : RemoteStream) (closeThrows : Bool) : RemoteStream :=
  if s.inTable = false ∨ s.tracking.closePromise.isSome then s
  else
    let s := { s.quiesce with tracking := { s.tracking with quiescing := true } }
    if s.tracking.didClose then s.settleClosing none
    else
      let progress := if closeThrows then CloseProgress.secondWait else CloseProgress.firstWait
      { s with tracking := { s.tracking with closePromise := some progress } }

/-- A wait for the close of the socket has ended: with `closed`, or by its timeout. -/
def waited (s : RemoteStream) (closed : Bool) : RemoteStream :=
  if closed && !s.tracking.didClose then s
  else match s.tracking.closePromise with
    | some .firstWait =>
      if closed || s.tracking.didClose then s.settleClosing none
      else { s with tracking := { s.tracking with closePromise := some .secondWait } }
    | some .secondWait =>
      if closed then s.settleClosing none
      else s.settleClosing
        (some (unavailable "DeepSeek Harness Remote stream did not close within cleanup bounds"))
    | _ => s

/-- `abort` as the listener of `streamSignal`, which it hears once. -/
def abort (s : RemoteStream) : RemoteStream :=
  if s.abortListener then { s with abortListener := false }.push .close 0 else s

def callerAbort (s : RemoteStream) : RemoteStream := { s with callerAborted := true }.abort

def publishFault (s : RemoteStream) (error : ModernRemoteConnectionError) : RemoteStream :=
  if s.fault.isSome ∨ s.closing then s else { s with fault := some error }.abort

/-- `close()`, which closes once. -/
def performClose (s : RemoteStream) (closeThrows : Bool) : RemoteStream :=
  if s.closing then s else ({ s with closing := true }.abort).closeTrackedSocket closeThrows

def openTimeout (s : RemoteStream) : RemoteStream :=
  if !s.openTimer then s
  else
    let s := { s with openTimer := false }
    if s.tracking.quiescing then s
    else s.push (.error ⟨none, Utf16.ofString "DeepSeek Harness Remote stream did not open in time"⟩) 0

/-- `onOpen`: whether the socket is open, and what `socket.send` throws. -/
def onOpen (s : RemoteStream) (isOpen : Bool) (sendThrows : Option Utf16) : RemoteStream :=
  if !s.listening then s
  else
    let s := { s with openTimer := false }
    if s.tracking.quiescing then s
    else if s.transportOpened then
      s.fail (protocolFailure (Utf16.ofString "Remote stream opened twice"))
    else
      let s := { s with transportOpened := true }
      if !isOpen then s.fail (unavailable "DeepSeek Harness Remote stream closed before logical open")
      else match sendThrows with
        | none => { s with openSent := true }
        | some error => s.fail (s.transportFailure "Remote stream open failed" error)

/-- The `try` of `onMessage` up to the push: the frame and its bytes, or the message of what it throws. -/
def frameOf (s : RemoteStream) (message : SocketMessage) : Except Utf16 (ModernRemoteStreamFrame × Nat) :=
  if !s.openSent then
    .error (Utf16.ofString "Remote stream emitted a frame before logical open completed")
  else if message.isBinary then .error (Utf16.ofString "Remote stream emitted a binary frame")
  else match message.rawByteLength, message.rawText with
    | .error error, _ => .error error
    | .ok _, .error error => .error error
    | .ok bytes, .ok text =>
      match parseStreamFrame text with
      | .error error => .error error
      | .ok frame =>
        if frame.streamId ≠ s.streamId then
          .error (Utf16.ofString "Remote stream emitted an unexpected stream identity")
        else if s.terminalQueued then
          .error (Utf16.ofString "Remote stream emitted a frame after its terminal frame")
        else .ok (frame, bytes)

def onMessage (s : RemoteStream) (message : SocketMessage) : RemoteStream :=
  if !s.listening || s.tracking.quiescing then s
  else match s.frameOf message with
    | .error error => s.fail (protocolFailure error)
    | .ok (frame, bytes) =>
      { s with terminalQueued := s.terminalQueued || frame.body.isTerminal }.push (.frame frame) bytes

/-- The frame of this stream that a message is, whatever the stream makes of it. -/
def frameWithin (s : RemoteStream) (message : SocketMessage) : List FrameBody :=
  match message.isBinary, message.rawText with
  | false, .ok text =>
    match parseStreamFrame text with
    | .ok frame => if frame.streamId = s.streamId then [frame.body] else []
    | .error _ => []
  | _, _ => []

/-- A message reaches the socket. -/
def message (s : RemoteStream) (message : SocketMessage) : RemoteStream :=
  if !s.created then s
  else { s.onMessage message with received := s.received ++ s.frameWithin message }

def onError (s : RemoteStream) (error : SocketError) : RemoteStream :=
  if !s.inTable || s.tracking.quiescing then s else s.push (.error error) 0

def onUnexpectedResponse (s : RemoteStream) (statusCode : Option Nat) : RemoteStream :=
  if !s.listening || s.tracking.quiescing then s else s.push (.unexpectedResponse statusCode) 0

def onClose (s : RemoteStream) : RemoteStream :=
  if !s.inTable then s
  else
    let s := { s with tracking := { s.tracking with didClose := true } }
    if s.tracking.quiescing then s else s.push .close 0

/-- The generator's `finally`, up to its wait for the socket. -/
def cleanUp (s : RemoteStream) (closeThrows : Bool) : RemoteStream :=
  ({ s with abortListener := false }.quiesce).closeTrackedSocket closeThrows

def finish (s : RemoteStream) (outcome : Outcome) (closeThrows : Bool) : RemoteStream :=
  { s.cleanUp closeThrows with phase := .cleaning outcome s.inTable }

/-- `next()` of the consumer. -/
def read (s : RemoteStream) : RemoteStream :=
  match s.phase with
  | .idle =>
    if s.callerAborted then
      { s with phase := .done (.failed (connectionError .cancelled
          (Utf16.ofString "DeepSeek Harness Remote stream was cancelled before startup"))) }
    else { s with phase := .connecting }
  | .yielded => { s with phase := .taking }
  | _ => s

/-- `return()` of the consumer. -/
def leave (s : RemoteStream) (closeThrows : Bool) : RemoteStream :=
  match s.phase with
  | .idle => { s with phase := .done .left }
  | .yielded => s.finish .left closeThrows
  | _ => s

/-- The socket is made and its listeners are on. -/
def opened (s : RemoteStream) : RemoteStream :=
  let s := { s with created := true, inTable := true, listening := true, openTimer := true
                    abortListener := true, phase := .taking
                    tracking := { closePromise := none, didClose := false, quiescing := false }
                    inbox := { s.inbox with items := [], bytes := 0, failure := none } }
  if s.callerAborted || s.closing || s.fault.isSome then s.abort else s

/-- `connect()` has answered; `createThrows` is what `createWebSocket` throws. -/
def connected (s : RemoteStream) (connect : Option ModernRemoteConnectionError)
    (createThrows : Option Utf16) : RemoteStream :=
  match s.phase, connect with
  | .connecting, some error => { s with phase := .done (.failed error) }
  | .connecting, none =>
    if s.callerAborted || s.closing then { s with phase := .done .ended }
    else match s.fault, createThrows with
      | some fault, _ => { s with phase := .done (.failed fault) }
      | none, some error =>
        { s with phase := .done (.failed (s.transportFailure "Remote stream could not open" error)) }
      | none, none => s.opened
  | _, _ => s

/-- `inbox.take()` answers, if it can. -/
def take (s : RemoteStream) (closeThrows : Bool) : RemoteStream :=
  match s.phase, s.inbox.failure, s.inbox.items with
  | .taking, some error, _ => s.finish (.failed error) closeThrows
  | .taking, none, (event, bytes) :: rest =>
    { s with phase := .taken event, inbox := { s.inbox with items := rest, bytes := s.inbox.bytes - bytes } }
  | _, _, _ => s

def socketFailure (error : SocketError) (processFault : Option ModernRemoteConnectionError) :
    ModernRemoteConnectionError :=
  processFault.getD <|
    if error.code = some (Utf16.ofString "WS_ERR_UNSUPPORTED_MESSAGE_LENGTH") then
      protocolFailure (Utf16.ofString "DeepSeek Harness Remote stream exceeded its WebSocket payload limit")
    else connectionError .unavailable
      (Utf16.ofString "DeepSeek Harness Remote stream failed: " ++ error.message)

def upgradeFailure (statusCode : Option Nat) : ModernRemoteConnectionError :=
  if statusCode = some 401 ∨ statusCode = some 403 then
    connectionError .authenticationRequired
      (Utf16.ofString "DeepSeek Harness Web authentication is no longer valid")
  else unavailable ("DeepSeek Harness Remote WebSocket upgrade failed with HTTP " ++
    (statusCode.map toString).getD "unknown")

def remoteError (error : ModernRemoteFailure) : ModernRemoteConnectionError :=
  { code := .unavailable, message := error.message, nativeCode := some error.code
    remoteFailure := some error }

/-- How the loop body ends the stream on an event, unless it yields its value. -/
def verdict (s : RemoteStream) : SocketEvent → Outcome
  | .error error => .failed (socketFailure error s.fault)
  | .unexpectedResponse statusCode => .failed (upgradeFailure statusCode)
  | .close =>
    if s.callerAborted || s.closing then .ended
    else .failed (s.fault.getD (unavailable "DeepSeek Harness Remote stream closed unexpectedly"))
  | .frame { body := .error error, .. } => .failed (remoteError error)
  | .frame _ => .ended

/-- The loop body on the event it took. -/
def handle (s : RemoteStream) (closeThrows : Bool) : RemoteStream :=
  match s.phase with
  | .taken (.frame ⟨_, .item value⟩) => { s with phase := .yielded, output := s.output ++ [value] }
  | .taken event => s.finish (s.verdict event) closeThrows
  | _ => s

/-- The wait of the `finally` is over, if it can be. -/
def cleaned (s : RemoteStream) : RemoteStream :=
  match s.phase, s.tracking.closePromise with
  | .cleaning outcome false, _ => { s with phase := .done outcome }
  | .cleaning outcome true, some (.settled none) => { s with phase := .done outcome }
  | .cleaning _ true, some (.settled (some error)) => { s with phase := .done (.failed error) }
  | _, _ => s

end RemoteStream

/-- What can happen next to the stream. -/
inductive Event where
  | read
  | leave (closeThrows : Bool)
  | connected (connect : Option ModernRemoteConnectionError) (createThrows : Option Utf16)
  | take (closeThrows : Bool)
  | handle (closeThrows : Bool)
  | cleaned
  | openTimeout
  | open_ (isOpen : Bool) (sendThrows : Option Utf16)
  | message (message : SocketMessage)
  | error (error : SocketError)
  | unexpectedResponse (statusCode : Option Nat)
  | close
  | callerAbort
  | fault (error : ModernRemoteConnectionError)
  | connectionClose (closeThrows : Bool)
  | waited (closed : Bool)

def step (s : RemoteStream) : Event → RemoteStream
  | .read => s.read
  | .leave closeThrows => s.leave closeThrows
  | .connected connect createThrows => s.connected connect createThrows
  | .take closeThrows => s.take closeThrows
  | .handle closeThrows => s.handle closeThrows
  | .cleaned => s.cleaned
  | .openTimeout => s.openTimeout
  | .open_ isOpen sendThrows => s.onOpen isOpen sendThrows
  | .message message => s.message message
  | .error error => s.onError error
  | .unexpectedResponse statusCode => s.onUnexpectedResponse statusCode
  | .close => s.onClose
  | .callerAbort => s.callerAbort
  | .fault error => s.publishFault error
  | .connectionClose closeThrows => s.performClose closeThrows
  | .waited closed => s.waited closed

/-- The stream after a run of events. -/
def after (s : RemoteStream) (events : List Event) : RemoteStream := events.foldl step s

end CodexHost.Source.DeepseekHarness.RemoteConnection
