import CodexHost.Foundation.OrderedMap

/-!
# The order of Desktop requests

`packages/host-runtime/src/desktop-request-queue.ts`. The calls of `run` are numbered; a number
stands for the promise `settled` of its call in both tables. Which waiting reaction runs next is
left open, so what holds does not rest on the order in which they were queued. An operation that
throws is one whose promise is rejected at once; errors are their texts.
-/
namespace CodexHost.Source.HostRuntime
open Foundation

namespace DesktopRequestQueue

/-- What a promise of an operation settles with. -/
abbrev Outcome := Except String Unit

/-- What happens to a call. -/
inductive Action where
  /-- The reaction of the previous promise: it calls the operation. -/
  | start
  /-- The promise that the operation gave settles. -/
  | finish (outcome : Outcome)
  /-- `task`, which the caller holds, follows it. -/
  | answer
  /-- The reaction of `task`, after either outcome: `settled` is fulfilled. -/
  | settle
  /-- The reaction of `settled` that clears the tables. -/
  | clear
  deriving DecidableEq

inductive Phase where
  | waiting
  | running
  | finished (outcome : Outcome)
  | answered (outcome : Outcome)
  | settled (outcome : Outcome)
  | cleared (outcome : Outcome)
  deriving DecidableEq

def Phase.next : Phase → Action → Option Phase
  | .waiting, .start => some .running
  | .running, .finish outcome => some (.finished outcome)
  | .finished outcome, .answer => some (.answered outcome)
  | .answered outcome, .settle => some (.settled outcome)
  | .settled outcome, .clear => some (.cleared outcome)
  | _, _ => none

def Phase.isSettled : Phase → Bool
  | .settled _ | .cleared _ => true
  | _ => false

structure Drain where
  /-- What `Promise.all` was given. -/
  awaited : List Nat
  /-- How many calls of `run` came before. -/
  calls : Nat
  resolved : Bool

end DesktopRequestQueue

open DesktopRequestQueue

structure DesktopRequestQueue where
  threads : OrderedMap String Nat
  pending : List Nat
  /-- How many calls of `run` there were. -/
  calls : Nat
  threadId : Nat → Option String
  /-- The promise that the operation is a reaction of; none for `Promise.resolve()`. -/
  previous : Nat → Option Nat
  phase : Nat → Phase
  drains : List Drain

namespace DesktopRequestQueue

def initial : DesktopRequestQueue where
  threads := .empty
  pending := []
  calls := 0
  threadId _ := none
  previous _ := none
  phase _ := .waiting
  drains := []

def run (queue : DesktopRequestQueue) (threadId : Option String) : DesktopRequestQueue :=
  let settled := queue.calls
  { queue with
    calls := queue.calls + 1
    threadId := Function.update queue.threadId settled threadId
    previous := Function.update queue.previous settled (threadId.bind queue.threads.get?)
    pending := queue.pending ++ [settled]
    threads := match threadId with
      | none => queue.threads
      | some threadId => queue.threads.set threadId settled }

def isSettled (queue : DesktopRequestQueue) (settled : Nat) : Bool := (queue.phase settled).isSettled

/-- The reaction of `settled` that clears the tables. -/
def clear (queue : DesktopRequestQueue) (settled : Nat) : DesktopRequestQueue :=
  { queue with
    pending := queue.pending.filter (· ≠ settled)
    threads := match queue.threadId settled with
      | none => queue.threads
      | some threadId =>
        if queue.threads.get? threadId = some settled then queue.threads.delete threadId
        else queue.threads }

def drain (queue : DesktopRequestQueue) : DesktopRequestQueue :=
  { queue with drains := queue.drains ++ [⟨queue.pending, queue.calls, false⟩] }

/-- A call comes to its next phase; its operation starts once the previous promise is settled. -/
def advance (queue : DesktopRequestQueue) (call : Nat) (action : Action) : Option DesktopRequestQueue :=
  if call < queue.calls ∧ (action = .start → (queue.previous call).all queue.isSettled) then
    ((queue.phase call).next action).map fun phase =>
      let queue := { queue with phase := Function.update queue.phase call phase }
      if action = .clear then queue.clear call else queue
  else none

inductive Event where
  | run (threadId : Option String)
  | call (call : Nat) (action : Action)
  | drain
  /-- The promise of a `drain` is resolved. -/
  | drained (drain : Nat)
  deriving DecidableEq

def step (queue : DesktopRequestQueue) : Event → Option DesktopRequestQueue
  | .run threadId => some (queue.run threadId)
  | .call call action => queue.advance call action
  | .drain => some queue.drain
  | .drained index =>
    (queue.drains[index]?).bind fun drain =>
      if drain.awaited.all queue.isSettled then
        some { queue with drains := queue.drains.set index { drain with resolved := true } }
      else none

end DesktopRequestQueue

end CodexHost.Source.HostRuntime
