import CodexHost.Foundation.OrderedMap
import CodexHost.Source.DesktopControl.HostClientChannel

/-!
# The reads of followed Threads

`packages/web-server/src/ch-realtime.ts`. The catalog has the empty ID; what a read returns is
not looked at, only whether it fails.
-/
namespace CodexHost.Source.WebServer
open Foundation Source.HostRuntime Source.DesktopControl

structure ChRealtime where
  watched : OrderedMap String Nat
  dirty : List String
  running : List String
  timers : List String
  closed : Bool
  online : Bool
  /-- The reads that have started; for the properties only. -/
  reads : List String
  deriving DecidableEq

namespace ChRealtime

def initial : ChRealtime := ⟨.empty, [], [], [], false, false, []⟩

variable (s : ChRealtime)

def schedule (id : String) : ChRealtime :=
  let s := { s with dirty := s.dirty.insert id }
  if !s.online || s.closed || id ∈ s.running || id ∈ s.timers then s
  else { s with timers := id :: s.timers }

def invalidate (id : String) : ChRealtime := if s.watched.has id then s.schedule id else s

def follow (id : String) : ChRealtime :=
  { s with watched := s.watched.set id ((s.watched.get? id).getD 0 + 1) }

/-- What `follow` returns. -/
def unfollow (id : String) : ChRealtime :=
  let count := (s.watched.get? id).getD 1 - 1
  { s with watched := if count ≠ 0 then s.watched.set id count else s.watched.delete id }

/-- The changes that the catalog is read for. -/
def listed (method : String) : Bool :=
  "thread/".toList.isPrefixOf method.toList || method = "turn/started" || method = "turn/completed" ||
    method = "codexhost/thread/pins/changed"

def receiveChange : Change → ChRealtime
  | .changed threadId method =>
    let s := if s.watched.has threadId then s.schedule threadId else s
    if listed method then s.schedule "" else s
  | .displaySettingsChanged => s
  | .preferencesChanged _ => s

def receive (update : HostClientUpdate) : ChRealtime :=
  if s.closed then s
  else
    match update with
    | .connection online =>
      { s with online := online, timers := if online then s.timers else [] }
    | .event (.hello _ _) => (s.watched.keys.foldl schedule s).schedule ""
    | .event (.change event) => s.receiveChange event.change

/-- `reconcile`, up to the read. -/
def reconcile (id : String) : ChRealtime :=
  let s := { s with dirty := s.dirty.filter (· ≠ id) }
  if s.closed || !s.online || (id ≠ "" && !s.watched.has id) then s
  else { s with running := s.running.insert id, reads := s.reads ++ [id] }

/-- The timer of `schedule` fires. -/
def fire (id : String) : ChRealtime :=
  { s with timers := s.timers.filter (· ≠ id) }.reconcile id

/-- `reconcile`, after the read. -/
def settle (id : String) (failed : Bool) : ChRealtime :=
  let s := { s with
    dirty := if failed then s.dirty.insert id else s.dirty
    running := s.running.filter (· ≠ id) }
  if id ∈ s.dirty then s.schedule id else s

def close : ChRealtime := { s with closed := true, timers := [], watched := .empty, dirty := [] }

inductive Event where
  | update (update : HostClientUpdate)
  | invalidate (id : String)
  | follow (id : String)
  | unfollow (id : String)
  | fire (id : String)
  | settle (id : String) (failed : Bool)
  | close
  deriving DecidableEq, Repr

/-- The state after the event; none when the event is not due. -/
def step (s : ChRealtime) : Event → Option ChRealtime
  | .update update => some (s.receive update)
  | .invalidate id => some (s.invalidate id)
  | .follow id => some (s.follow id)
  | .unfollow id => some (s.unfollow id)
  | .fire id => if id ∈ s.timers then some (s.fire id) else none
  | .settle id failed => if id ∈ s.running then some (s.settle id failed) else none
  | .close => some s.close

end ChRealtime

end CodexHost.Source.WebServer
