import CodexHost.Foundation.OrderedMap
import CodexHost.Foundation.Transition

/-!
# The owner of shared Threads

`packages/host-runtime/src/shared-thread-owner.ts` and the `StreamThreadPeer` that it forwards
to. A request is forwarded by writing its frame; the promise that its caller holds settles when
the frame is written and the answer is there, and only then the receipt of a submission is
looked at again.
-/
namespace CodexHost.Source.HostRuntime.SharedThreadOwner
open Foundation

/-- What the owner reads of the parameters of a request. -/
structure Params where
  /-- `threadId` as the template text has it. -/
  threadId : String
  /-- Only if it is a string. -/
  clientUserMessageId : Option String
  /-- `JSON.stringify(params)` -/
  text : String
  deriving DecidableEq, Repr

inductive Reply where
  | answered (error : Bool)
  | timedOut
  | disconnected
  deriving DecidableEq, Repr

/-- A request of the peer. -/
structure Request where
  method : String
  params : Params
  /-- The frame went to the runtime. -/
  forwarded : Bool
  /-- How `writeJsonFrame` has ended. -/
  written : Option Bool
  reply : Option Reply
  deriving DecidableEq, Repr

structure Receipt where
  fingerprint : String
  /-- The request whose promise is the `result`. -/
  request : Nat
  deriving DecidableEq, Repr

structure State where
  /-- The requests of the peer, by their number. -/
  requests : List Request
  pending : List Nat
  /-- `#stopped` of the peer -/
  stopped : Bool
  /-- `#closed` of the owner -/
  closed : Bool
  receipts : OrderedMap String Receipt
  /-- The requests whose promise has settled, and whose receipt was looked at then. -/
  noted : List Nat
  /-- The clients that have connected, and whether they are closed. -/
  clients : List Bool
  deriving DecidableEq

def initial : State where
  requests := []
  pending := []
  stopped := false
  closed := false
  receipts := .empty
  noted := []
  clients := []

/-- The key of a submission. -/
def keyOf (method : String) (params : Params) : Option String :=
  if method = "turn/start" then params.clientUserMessageId.map (params.threadId ++ "\x00" ++ ·)
  else none

def Request.key (request : Request) : Option String := keyOf request.method request.params

/-- The promise of the request has settled: whether with the answer. -/
def Request.settled (request : Request) : Option (Option Bool) :=
  match request.written, request.reply with
  | some false, _ => some none
  | some true, some (.answered error) => some (some error)
  | some true, some _ => some none
  | _, _ => none

/-- `StreamThreadPeer.request` -/
def State.forward (s : State) (method : String) (params : Params) : State :=
  if s.stopped then
    { s with requests := s.requests ++ [⟨method, params, false, some true, some .disconnected⟩] }
  else
    { s with
      requests := s.requests ++ [⟨method, params, true, none, none⟩]
      pending := s.pending ++ [s.requests.length] }

/-- What a caller gets: the promise of a request, or an error. -/
inductive Answer where
  | result (request : Nat)
  | error (code : Int) (message : String)
  deriving DecidableEq, Repr

def State.request (s : State) (method : String) (params : Params) : State × Answer :=
  match keyOf method params with
  | none => (s.forward method params, .result s.requests.length)
  | some key =>
    match s.receipts.get? key with
    | some existing =>
      (s, if existing.fingerprint = params.text then .result existing.request
        else .error (-32602) "Message ID was already used with different input")
    | none =>
      ({ s.forward method params with
        receipts := s.receipts.set key ⟨params.text, s.requests.length⟩ },
        .result s.requests.length)

def State.setRequest (s : State) (number : Nat) (change : Request → Request) : State :=
  { s with requests := s.requests.modify number change }

/-- The peer is done with the request. -/
def State.unpend (s : State) (number : Nat) : State :=
  { s with pending := s.pending.erase number }

def RECEIPT_LIMIT : Nat := 256

/-- The oldest receipts go while there are more than the limit. -/
def evict (receipts : OrderedMap String Receipt) : OrderedMap String Receipt :=
  receipts.dropFirst (receipts.entries.length - RECEIPT_LIMIT)

/-- The receipt of a submission whose promise has settled. -/
def settleReceipt (receipts : OrderedMap String Receipt) (key : String) (answer : Option Bool) :
    OrderedMap String Receipt :=
  match answer with
  | none => receipts.delete key
  | some true => evict (receipts.delete key)
  | some false => evict receipts

/-- `StreamThreadPeer.close` -/
def State.stop (s : State) : State :=
  if s.stopped then s
  else
    { s with
      stopped := true
      pending := []
      requests := s.requests.mapIdx fun number request =>
        if number ∈ s.pending then { request with reply := some .disconnected } else request }

/-- `SharedThreadOwner.close` -/
def State.close (s : State) : State :=
  if s.closed then s
  else
    { s.stop with
      closed := true
      clients := s.clients.map fun _ => true
      receipts := .empty }

inductive Event where
  | connect
  | disconnect (client : Nat)
  | request (client : Nat) (method : String) (params : Params)
  /-- The write of the frame ends. -/
  | written (number : Nat) (ok : Bool)
  /-- The runtime answers. -/
  | answer (number : Nat) (error : Bool)
  | timeout (number : Nat)
  /-- The promise of the request has settled, and the owner is told. -/
  | note (number : Nat)
  /-- The streams of the peer end. -/
  | stop
  | close
  deriving DecidableEq, Repr

/-- The state after the event; none when the event is not due. -/
def step (s : State) : Event → Option State
  | .connect => some { s with clients := s.clients ++ [s.closed] }
  | .disconnect client => some { s with clients := s.clients.set client true }
  | .request client method params =>
    if s.clients[client]? = some false then some (s.request method params).1 else none
  | .written number ok =>
    match s.requests[number]? with
    | none => none
    | some request =>
      if request.written.isSome then none
      else
        let s := s.setRequest number ({ · with written := some ok })
        some (if ok then s else s.unpend number)
  | .answer number error =>
    if number ∈ s.pending then
      some ((s.setRequest number ({ · with reply := some (.answered error) })).unpend number)
    else none
  | .timeout number =>
    if number ∈ s.pending then
      some ((s.setRequest number ({ · with reply := some .timedOut })).unpend number)
    else none
  | .note number =>
    match s.requests[number]? with
    | none => none
    | some request =>
      if number ∈ s.noted then none
      else
        match request.key, request.settled with
        | some key, some answer =>
          some { s with
            noted := number :: s.noted
            receipts := settleReceipt s.receipts key answer }
        | _, _ => none
  | .stop => some s.stop
  | .close => some s.close

end CodexHost.Source.HostRuntime.SharedThreadOwner
