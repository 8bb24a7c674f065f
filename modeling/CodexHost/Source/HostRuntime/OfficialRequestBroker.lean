import CodexHost.Source.ProtocolCore.JsonObject

/-!
# Internal requests to the official server

`packages/host-runtime/src/official-request-broker.ts`. The promises and the timers are numbered by the
calls of `request`; an event names the request that a callback was made for by its id.
-/
namespace CodexHost.Source.HostRuntime
open Foundation Source.ProtocolCore

namespace OfficialRequestBroker

def INTERNAL_REQUEST_PREFIX : Utf16 := Utf16.ofString "codexhost:official:"

def MAX_RETIRED_IDS : Nat := 1024

structure PendingRequest where
  /-- The promise that `resolve` and `reject` belong to. -/
  promise : Nat
  timeout : Nat
  deriving DecidableEq, Repr

inductive Settlement where
  | resolve (value : JsonValue)
  | reject (error : String)

end OfficialRequestBroker

open OfficialRequestBroker

structure OfficialRequestBroker where
  pending : OrderedMap Utf16 PendingRequest
  retired : List Utf16
  retiredOrder : List Utf16
  /-- How many promises `request` has made. -/
  promises : Nat
  /-- The settled promises, in the order of their settlement. -/
  settled : List (Nat × Settlement)
  /-- The timers that are running. -/
  timers : List Nat

namespace OfficialRequestBroker

def initial : OfficialRequestBroker :=
  { pending := .empty, retired := [], retiredOrder := [], promises := 0, settled := [], timers := [] }

def retire (broker : OfficialRequestBroker) (id : Utf16) : OfficialRequestBroker :=
  if broker.retired.contains id then broker
  else
    let broker := { broker with
      retired := broker.retired ++ [id]
      retiredOrder := broker.retiredOrder ++ [id] }
    if broker.retiredOrder.length > MAX_RETIRED_IDS then
      match broker.retiredOrder with
      | [] => broker
      | expired :: order =>
        { broker with
          retired := if expired ≠ [] then broker.retired.filter (· ≠ expired) else broker.retired
          retiredOrder := order }
    else broker

def settle (broker : OfficialRequestBroker) (promise : Nat) (settlement : Settlement) :
    OfficialRequestBroker :=
  { broker with settled := broker.settled ++ [(promise, settlement)] }

def clearTimeout (broker : OfficialRequestBroker) (timeout : Nat) : OfficialRequestBroker :=
  { broker with timers := broker.timers.filter (· ≠ timeout) }

/-- What every way to settle an entry does beside its removal. A timer that has fired runs no more. -/
def finish (broker : OfficialRequestBroker) (id : Utf16) (pending : PendingRequest)
    (settlement : Settlement) : OfficialRequestBroker :=
  settle (retire (clearTimeout broker pending.timeout) id) pending.promise settlement

def request (broker : OfficialRequestBroker) (id : Utf16) : OfficialRequestBroker :=
  let promise := broker.promises
  let broker := { broker with promises := promise + 1 }
  if !INTERNAL_REQUEST_PREFIX.isPrefixOf id || broker.pending.has id || broker.retired.contains id then
    settle broker promise (.reject "Official internal request ID is invalid or duplicated")
  else
    { broker with
      timers := broker.timers ++ [promise]
      pending := broker.pending.set id { promise, timeout := promise } }

/-- The callbacks of the timer and of a failed send. -/
def fail (broker : OfficialRequestBroker) (id : Utf16) (error : String) : OfficialRequestBroker :=
  match broker.pending.get? id with
  | none => broker
  | some pending =>
    finish { broker with pending := broker.pending.delete id } id pending (.reject error)

def timedOut : String := "Official internal request timed out"

/-- The `id` of a message that is a record with a text for it. -/
def messageId : JsonValue → Option Utf16
  | .object members =>
    match JsonObject.get members "id" with
    | some (.string id) => some id
    | _ => none
  | _ => none

def handle (broker : OfficialRequestBroker) (value : JsonValue) : Bool × OfficialRequestBroker :=
  match messageId value with
  | none => (false, broker)
  | some id =>
    match broker.pending.get? id with
    | none => (broker.retired.contains id, broker)
    | some pending =>
      (true, finish { broker with pending := broker.pending.delete id } id pending (.resolve value))

def failAll (broker : OfficialRequestBroker) (error : String) : OfficialRequestBroker :=
  { broker.pending.entries.foldl (fun broker entry => finish broker entry.1 entry.2 (.reject error)) broker
    with pending := .empty }

inductive Event where
  | request (id : Utf16)
  | handle (value : JsonValue)
  | sendFailed (id : Utf16) (error : String)
  | timedOut (id : Utf16)
  | failAll (error : String)

def perform (broker : OfficialRequestBroker) : Event → OfficialRequestBroker
  | .request id => broker.request id
  | .handle value => (broker.handle value).2
  | .sendFailed id error => broker.fail id error
  | .timedOut id => broker.fail id timedOut
  | .failAll error => broker.failAll error

/-- The broker after a run. -/
def after (run : List Event) : OfficialRequestBroker := run.foldl perform initial

end OfficialRequestBroker

end CodexHost.Source.HostRuntime
