import CodexHost.Source.ProtocolCore.JsonObject

/-!
# Queues of external Threads

`packages/host-runtime/src/external-thread-queue.ts`: the inputs that wait for a Thread. Objects are
numbered, as a receipt and the queue may share one; UUIDs are counted with them. The text of an input
(`externalTurnInputText`) is a parameter.
-/
namespace CodexHost.Source.HostRuntime.ExternalQueue
open Foundation Source.ProtocolCore

inductive ExternalQueueError where
  | code (code : Int) (message : String)
  | plain (message : String)
  deriving DecidableEq, Repr

inductive PausedReason where
  | interrupted | outcomeUnknown | failed
  deriving DecidableEq, Repr

abbrev Input := List JsonObject

structure ExternalQueuedSubmission where
  id : Nat
  clientUserMessageId : String
  input : Input
  presentationInput : Option Input
  sourceHostId : Option String
  deriving Inhabited

structure TakenSubmission where
  submission : ExternalQueuedSubmission
  sourceHostId : Option String
  index : Nat
  pausedReason : Option PausedReason

/-- The items are references to objects. -/
structure ThreadState where
  items : List Nat
  pausedReason : Option PausedReason
  deriving DecidableEq

structure ExternalThreadQueue where
  objects : Nat → ExternalQueuedSubmission
  next : Nat
  receipts : OrderedMap String Nat
  acceptedSteers : OrderedMap Nat String
  states : OrderedMap String ThreadState

def MAX_QUEUED_SUBMISSIONS : Nat := 32

def MAX_RECEIPTS : Nat := 256

def MAX_ACCEPTED_STEERS : Nat := 128

def inputJson (input : Input) : JsonValue := .array (input.map .object)

def sameInput (left right : Input) : Bool :=
  (inputJson left).write JsonNumber.format = (inputJson right).write JsonNumber.format

/-- `JSON.stringify` of an input or null. -/
def presentationText (input : Option Input) : List Char :=
  (input.elim .null inputJson).write JsonNumber.format

namespace ExternalThreadQueue

def initial : ExternalThreadQueue := ⟨fun _ => default, 0, .empty, .empty, .empty⟩

def receiptKey (threadId clientUserMessageId : String) : String :=
  threadId ++ "\u0000" ++ clientUserMessageId

variable (queue : ExternalThreadQueue)

def submissions (threadId : String) : List ExternalQueuedSubmission :=
  (queue.states.get? threadId).elim [] fun state => state.items.map queue.objects

def snapshot (threadId : String) : List ExternalQueuedSubmission × Option PausedReason :=
  (queue.submissions threadId, (queue.states.get? threadId).bind (·.pausedReason))

def find (threadId : String) (itemId : Nat) : Option ExternalQueuedSubmission :=
  (queue.submissions threadId).find? (·.id = itemId)

def head (threadId : String) : Option ExternalQueuedSubmission := (queue.submissions threadId).head?

def isPaused (threadId : String) : Bool := (queue.snapshot threadId).2.isSome

def has (threadId : String) : Bool := 0 < (queue.submissions threadId).length

def prune (threadId : String) (state : ThreadState) : ExternalThreadQueue :=
  { queue with
    states := if state.items.length = 0 then queue.states.delete threadId
      else queue.states.set threadId state }

/-- The receipt of an identified input. -/
def receipt (threadId : String) (clientUserMessageId : Option String) : Option Nat :=
  match clientUserMessageId with
  | some client => if client = "" then none else queue.receipts.get? (receiptKey threadId client)
  | none => none

def keepReceipt (threadId : String) (clientUserMessageId : Option String) (item : Nat) :
    OrderedMap String Nat :=
  match clientUserMessageId with
  | some client =>
    if client = "" then queue.receipts
    else
      let receipts := queue.receipts.set (receiptKey threadId client) item
      if receipts.entries.length > MAX_RECEIPTS then receipts.dropFirst 1 else receipts
  | none => queue.receipts

/-- `generated` is the UUID of an input that its client has not identified. -/
def add (threadId : String) (input : Input) (clientUserMessageId : Option String)
    (presentationInput : Option Input) (sourceHostId : Option String) (generated : String) :
    Except ExternalQueueError ExternalQueuedSubmission × ExternalThreadQueue :=
  match queue.receipt threadId clientUserMessageId with
  | some item =>
    let existing := queue.objects item
    if !sameInput existing.input input ||
        presentationText existing.presentationInput ≠ presentationText presentationInput then
      (.error (.plain "Message ID was already used with different input"), queue)
    else (.ok existing, queue)
  | none =>
    let state := (queue.states.get? threadId).getD ⟨[], none⟩
    if state.items.length ≥ MAX_QUEUED_SUBMISSIONS then
      (.error (.plain "External Thread queue is full"), queue)
    else
      let item : ExternalQueuedSubmission :=
        { id := queue.next
          clientUserMessageId := clientUserMessageId.getD generated
          input, presentationInput, sourceHostId }
      (.ok item, { queue with
          objects := Function.update queue.objects queue.next item
          next := queue.next + 1
          receipts := queue.keepReceipt threadId clientUserMessageId queue.next
          states := queue.states.set threadId { state with items := state.items ++ [queue.next] } })

def rewrite (item : Nat) (input : Input) (presentationInput : Option Input) : ExternalThreadQueue :=
  { queue with
    objects := Function.update queue.objects item { queue.objects item with input, presentationInput } }

def update (threadId : String) (itemId : Nat) (input : Input) (presentationInput : Option Input) :
    Option ExternalQueuedSubmission × ExternalThreadQueue :=
  let items := (queue.states.get? threadId).elim [] (·.items)
  match items.find? fun candidate => (queue.objects candidate).id = itemId with
  | none => (none, queue)
  | some item =>
    let edited := queue.rewrite item input presentationInput
    let client := (queue.objects item).clientUserMessageId
    let queue := match queue.receipts.get? (receiptKey threadId client) with
      | some receipt => edited.rewrite receipt input presentationInput
      | none => edited
    (some (queue.objects item), queue)

def delete (threadId : String) (itemId : Nat) : Bool × ExternalThreadQueue :=
  match queue.states.get? threadId with
  | none => (queue.acceptedSteers.get? itemId = some threadId, queue)
  | some state =>
    match state.items.findIdx? fun item => (queue.objects item).id = itemId with
    | none => (queue.acceptedSteers.get? itemId = some threadId, queue)
    | some index => (true, queue.prune threadId { state with items := state.items.eraseIdx index })

def reorder (threadId : String) (itemIds : List Nat) : Bool × ExternalThreadQueue :=
  match queue.states.get? threadId with
  | none => (itemIds.length = 0, queue)
  | some state =>
    if itemIds.length > state.items.length ∨ ¬itemIds.Nodup then (false, queue)
    else
      let named := fun id => state.items.find? fun item => (queue.objects item).id = id
      match itemIds.mapM named with
      | none => (false, queue)
      | some reordered =>
        let rest := state.items.filter fun item => (queue.objects item).id ∉ itemIds
        (true, { queue with states := queue.states.set threadId { state with items := reordered ++ rest } })

section Steering
variable (externalTurnInputText : JsonValue → Except String String)

/-- Reserves a queued input, so that automatic advancement cannot deliver it during steering. -/
def takeSteered (threadId : String) (clientUserMessageId : Option String) (input : JsonValue) :
    Except ExternalQueueError (Option TakenSubmission) × ExternalThreadQueue :=
  match clientUserMessageId, queue.states.get? threadId with
  | some client, some state =>
    let isMatch := fun item => (queue.objects item).clientUserMessageId = client
    match state.items.filter isMatch with
    | [] => (.ok none, queue)
    | item :: others =>
      let changed := (.error (.code (-32602) "Queued steering input changed before delivery"), queue)
      if others ≠ [] then changed
      else
        match externalTurnInputText (inputJson (queue.objects item).input), externalTurnInputText input with
        | .error error, _ => (.error (.plain error), queue)
        | _, .error error => (.error (.plain error), queue)
        | .ok queued, .ok given =>
          if queued ≠ given then changed
          else
            let index := state.items.idxOf item
            (.ok (some
              { submission := queue.objects item
                sourceHostId := (queue.objects item).sourceHostId
                index
                pausedReason := state.pausedReason }),
              queue.prune threadId { state with items := state.items.eraseIdx index })
  | _, _ => (.ok none, queue)

end Steering

def acceptSteered (threadId : String) (taken : TakenSubmission) : ExternalThreadQueue :=
  let steers := queue.acceptedSteers.set taken.submission.id threadId
  { queue with acceptedSteers := steers.dropFirst (steers.entries.length - MAX_ACCEPTED_STEERS) }

def restore (threadId : String) (taken : TakenSubmission) : ExternalThreadQueue :=
  let state := (queue.states.get? threadId).getD ⟨[], taken.pausedReason⟩
  if state.items.any fun item => (queue.objects item).id = taken.submission.id then queue
  else
    { queue with
      objects := Function.update queue.objects queue.next taken.submission
      next := queue.next + 1
      states := queue.states.set threadId
        { state with items := state.items.insertIdx (min taken.index state.items.length) queue.next } }

def pause (threadId : String) (reason : PausedReason) : Bool × ExternalThreadQueue :=
  match queue.states.get? threadId with
  | none => (false, queue)
  | some state =>
    if state.items.length = 0 ∨ state.pausedReason = some reason then (false, queue)
    else (true, { queue with states := queue.states.set threadId { state with pausedReason := some reason } })

def resume (threadId : String) : Bool × ExternalThreadQueue :=
  match queue.states.get? threadId with
  | none => (false, queue)
  | some state =>
    if state.pausedReason = none then (false, queue)
    else (true, { queue with states := queue.states.set threadId { state with pausedReason := none } })

def clear (threadId : String) : ExternalThreadQueue :=
  { queue with
    states := queue.states.delete threadId
    receipts := ⟨queue.receipts.entries.filter fun entry =>
        !(threadId ++ "\u0000").toList.isPrefixOf entry.1.toList,
      queue.receipts.keys_nodup.sublist (List.filter_sublist.map Prod.fst)⟩
    acceptedSteers := ⟨queue.acceptedSteers.entries.filter fun entry => entry.2 ≠ threadId,
      queue.acceptedSteers.keys_nodup.sublist (List.filter_sublist.map Prod.fst)⟩ }

end ExternalThreadQueue

end CodexHost.Source.HostRuntime.ExternalQueue
