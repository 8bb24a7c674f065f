import CodexHost.Foundation.Transition

/-!
# One connection of the Harness broker

`packages/harness-broker/src/framing.ts`, `BrokerConnection` of `client.ts` and the request queue
of `server.ts`, after the handshake. Both sides number their frames, and refuse to write a line
that is too long. The events carry the lengths of the lines in bytes.
-/
namespace CodexHost.Source.HarnessBroker
open Foundation

def HARNESS_BROKER_MAX_FRAME_BYTES : Nat := 8 * 1024 * 1024
def HARNESS_BROKER_MAX_PENDING_REQUESTS : Nat := 32

/-- `writeBrokerFrame` sends a line of this length. -/
def fitsFrame (bytes : Nat) : Bool := bytes ≤ HARNESS_BROKER_MAX_FRAME_BYTES

namespace Connection

structure RequestFrame where
  sequence : Nat
  id : Nat
  deriving DecidableEq, Repr

inductive ServerFrame where
  | response (sequence id : Nat) (ok : Bool)
  | output (sequence session : Nat)
  deriving DecidableEq, Repr

def ServerFrame.sequence : ServerFrame → Nat
  | .response sequence _ _ => sequence
  | .output sequence _ => sequence

/-- Why the client gives the connection up. -/
inductive ClientFailure where
  /-- "Aqua Harness broker response generation or sequence is invalid" -/
  | sequence
  /-- "Aqua Harness broker returned an unknown response ID" -/
  | unknownResponse
  /-- "Aqua Harness broker connection closed" -/
  | closed
  deriving DecidableEq, Repr

/-- Why the server destroys the socket. -/
inductive ServerFailure where
  /-- The frame is no request with the next number. -/
  | sequence
  /-- More frames are queued than allowed. -/
  | queue
  /-- The response could not be written either. -/
  | response
  | closed
  deriving DecidableEq, Repr

/-- What a caller of `request` gets. -/
inductive Reply where
  /-- `BrokerRequestNotDeliveredError` -/
  | notDelivered
  | timedOut
  | answered (ok : Bool)
  | lost
  deriving DecidableEq, Repr

structure Client where
  inputSequence : Nat
  outputSequence : Nat
  pending : List Nat
  failure : Option ClientFailure
  replies : List (Nat × Reply)
  /-- The Sessions whose outputs arrive, in order. -/
  outputs : List Nat
  deriving DecidableEq, Repr

structure Server where
  inputSequence : Nat
  outputSequence : Nat
  queue : List RequestFrame
  /-- The request that `handleRequest` works on. -/
  working : Option Nat
  failure : Option ServerFailure
  /-- The Sessions whose `forwardOutputs` has ended with an error. -/
  faulted : List Nat
  deriving DecidableEq, Repr

structure State where
  client : Client
  server : Server
  /-- The lines under way. -/
  requests : List RequestFrame
  frames : List ServerFrame
  /-- `randomUUID()` -/
  nextId : Nat
  deriving DecidableEq, Repr

/-- After the handshake, whose frames have the number 1. -/
def initial : State where
  client := ⟨1, 1, [], none, [], []⟩
  server := ⟨1, 1, [], none, none, []⟩
  requests := []
  frames := []
  nextId := 0

inductive Event where
  /-- A call of `request`. -/
  | request (bytes : Nat)
  /-- The next line of the client arrives. -/
  | arrive
  /-- The queue goes on with its next frame. -/
  | handle
  /-- `handleRequest` returns a value whose response has this length, or throws; and the length
  of the response with an error. -/
  | respond (value : Option Nat) (error : Nat)
  /-- `forwardOutputs` sends an output of the Session. -/
  | output (session bytes : Nat)
  /-- The next line of the server arrives. -/
  | receive
  | timeout (id : Nat)
  /-- One side learns that the other has closed the socket. -/
  | clientClosed
  | serverClosed
  deriving DecidableEq, Repr

def Client.request (client : Client) (id bytes : Nat) : Client × Option RequestFrame :=
  let sequence := client.inputSequence + 1
  if fitsFrame bytes then
    ({ client with inputSequence := sequence, pending := client.pending ++ [id] }, some ⟨sequence, id⟩)
  else
    ({ client with
      inputSequence := sequence
      replies := client.replies ++ [(id, .notDelivered)] }, none)

def Client.fail (client : Client) (failure : ClientFailure) : Client :=
  if client.failure.isSome then client
  else { client with
    failure := some failure
    pending := []
    replies := client.replies ++ client.pending.map fun id => (id, .lost) }

def Client.frame (client : Client) (frame : ServerFrame) : Client :=
  if client.failure.isSome then client
  else if frame.sequence ≠ client.outputSequence + 1 then client.fail .sequence
  else
    let client := { client with outputSequence := frame.sequence }
    match frame with
    | .output _ session => { client with outputs := client.outputs ++ [session] }
    | .response _ id ok =>
      if id ∈ client.pending then
        { client with
          pending := client.pending.erase id
          replies := client.replies ++ [(id, .answered ok)] }
      else client.fail .unknownResponse

/-- `send`: the frame that is written, if any. -/
def Server.send (server : Server) (bytes : Nat) (frame : Nat → ServerFrame) : Server × Option ServerFrame :=
  let sequence := server.outputSequence + 1
  ({ server with outputSequence := sequence },
    if fitsFrame bytes then some (frame sequence) else none)

/-- The answers of the queue to a request. -/
def Server.respond (server : Server) (id : Nat) (value : Option Nat) (error : Nat) :
    Server × Option ServerFrame :=
  let server := { server with working := none }
  let refuse := fun (server : Server) =>
    match server.send error (.response · id false) with
    | (server, some frame) => (server, some frame)
    | (server, none) => ({ server with failure := some .response }, none)
  match value with
  | none => refuse server
  | some bytes =>
    match server.send bytes (.response · id true) with
    | (server, some frame) => (server, some frame)
    | (server, none) => refuse server

/-- The state after the event; none when the event is not due. -/
def step (s : State) : Event → Option State
  | .request bytes =>
    if s.client.failure.isSome then none
    else if HARNESS_BROKER_MAX_PENDING_REQUESTS ≤ s.client.pending.length then none
    else
      let (client, frame) := s.client.request s.nextId bytes
      some { s with
        client := client
        requests := s.requests ++ frame.toList
        nextId := s.nextId + 1 }
  | .arrive =>
    match s.requests with
    | [] => none
    | frame :: requests =>
      if s.server.failure.isSome then none
      else
        let queue := s.server.queue ++ [frame]
        let failure := if HARNESS_BROKER_MAX_PENDING_REQUESTS <
            queue.length + s.server.working.toList.length then some .queue else none
        some { s with
          requests := requests
          server := { s.server with queue := queue, failure := failure } }
  | .handle =>
    if s.server.failure.isSome || s.server.working.isSome then none
    else
      match s.server.queue with
      | [] => none
      | frame :: queue =>
        some { s with
          server :=
            if frame.sequence ≠ s.server.inputSequence + 1 then
              { s.server with queue := queue, failure := some .sequence }
            else { s.server with
              queue := queue
              inputSequence := frame.sequence
              working := some frame.id } }
  | .respond value error =>
    match s.server.working with
    | none => none
    | some id =>
      if s.server.failure.isSome then none
      else
        let (server, frame) := s.server.respond id value error
        some { s with server := server, frames := s.frames ++ frame.toList }
  | .output session bytes =>
    if s.server.failure.isSome || session ∈ s.server.faulted then none
    else
      let (server, frame) := s.server.send bytes (.output · session)
      some { s with
        server := if frame.isSome then server
          else { server with faulted := session :: server.faulted }
        frames := s.frames ++ frame.toList }
  | .receive =>
    match s.frames with
    | [] => none
    | frame :: frames => some { s with client := s.client.frame frame, frames := frames }
  | .timeout id =>
    if id ∈ s.client.pending then
      some { s with
        client := { s.client with
          pending := s.client.pending.erase id
          replies := s.client.replies ++ [(id, .timedOut)] } }
    else none
  | .clientClosed =>
    if s.server.failure.isSome then some { s with client := s.client.fail .closed } else none
  | .serverClosed =>
    if s.client.failure.isSome && s.server.failure.isNone then
      some { s with server := { s.server with failure := some .closed } }
    else none

def Reaches (events : List Event) (s : State) : Prop :=
  Run (fun s event s' => step s event = some s') initial events s

end Connection

end CodexHost.Source.HarnessBroker
