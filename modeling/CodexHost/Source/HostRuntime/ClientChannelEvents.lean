import Mathlib

/-!
# The events of a Host

`packages/host-runtime/src/client-channel-events.ts`. The UUID of an epoch is a number here, and
no two Hosts have the same.
-/
namespace CodexHost.Source.HostRuntime

structure ClientChannelCursor where
  epoch : Nat
  sequence : Nat
  deriving DecidableEq, Repr

inductive Change where
  | changed (threadId method : String)
  | displaySettingsChanged
  | preferencesChanged (revision : Nat)
  deriving DecidableEq, Repr

/-- An event that is not a `hello`. -/
structure ChangeEvent where
  cursor : ClientChannelCursor
  change : Change
  deriving DecidableEq, Repr

inductive ClientChannelEvent where
  | hello (cursor : ClientChannelCursor) (reset : Bool)
  | change (event : ChangeEvent)
  deriving DecidableEq, Repr

/-- `push`, then `shift` while there are more than the capacity. -/
def pushBounded (capacity : Nat) (history : List ChangeEvent) (event : ChangeEvent) : List ChangeEvent :=
  if (history ++ [event]).length > capacity then (history ++ [event]).drop 1
  else history ++ [event]

/-- Whether the history has all that comes after the cursor. -/
def replays (cursor : ClientChannelCursor) (history : List ChangeEvent)
    (after : ClientChannelCursor) : Bool :=
  let oldest := (history.head?.map (·.cursor.sequence)).getD (cursor.sequence + 1)
  after.epoch = cursor.epoch && oldest - 1 ≤ after.sequence && after.sequence ≤ cursor.sequence

/-- What a listener gets first, of a Host or of its client. -/
def greeting (cursor : ClientChannelCursor) (history : List ChangeEvent)
    (after : Option ClientChannelCursor) : List ClientChannelEvent :=
  match after.filter (replays cursor history) with
  | some after => .hello cursor false ::
      (history.filter (after.sequence < ·.cursor.sequence)).map .change
  | none => [.hello cursor true]

structure ClientChannelEvents where
  epoch : Nat
  capacity : Nat
  sequence : Nat
  history : List ChangeEvent
  /-- All that was published; for the properties only. -/
  log : List ChangeEvent
  deriving DecidableEq, Repr

namespace ClientChannelEvents
variable (events : ClientChannelEvents)

def start (epoch capacity : Nat) : ClientChannelEvents := ⟨epoch, capacity, 0, [], []⟩

def cursor : ClientChannelCursor := ⟨events.epoch, events.sequence⟩

/-- The event of `changed`, `displaySettingsChanged` or `preferencesChanged`. -/
def next (change : Change) : ChangeEvent := ⟨⟨events.epoch, events.sequence + 1⟩, change⟩

def publish (change : Change) : ClientChannelEvents :=
  { events with
    sequence := events.sequence + 1
    history := pushBounded events.capacity events.history (events.next change)
    log := events.log ++ [events.next change] }

/-- What the listener is called with by `subscribe`. -/
def subscribe (after : Option ClientChannelCursor) : List ClientChannelEvent :=
  greeting events.cursor events.history after

def clear : ClientChannelEvents := { events with history := [] }

end ClientChannelEvents

end CodexHost.Source.HostRuntime
