import CodexHost.Foundation.Transition
import CodexHost.Source.HostRuntime.ClientChannelEvents

/-!
# A client of the events of the Hosts

`packages/desktop-control/src/host-client-channel.ts` with the connection to a Host. A frame is
one line of the response; the connection can end before any of them. A listener that throws is
one that leaves.
-/
namespace CodexHost.Source.DesktopControl
open Foundation Source.HostRuntime

inductive HostClientUpdate where
  | event (event : ClientChannelEvent)
  | connection (online : Bool)
  deriving DecidableEq, Repr

structure HostClientChannel where
  cursor : Option ClientChannelCursor
  history : List ChangeEvent
  online : Bool
  stopped : Bool
  deriving DecidableEq, Repr

namespace HostClientChannel
variable (channel : HostClientChannel)

/-- What the listener is called with by `subscribe`. -/
def subscribe (after : Option ClientChannelCursor) : List HostClientUpdate :=
  .connection channel.online ::
    match channel.online, channel.cursor with
    | true, some cursor => (greeting cursor channel.history after).map .event
    | _, _ => []

/-- A line of the response, with what it publishes; none when it throws. The epoch is the one of
the descriptor. -/
def receive (epoch : Nat) : ClientChannelEvent → Option (HostClientChannel × List HostClientUpdate)
  | .hello cursor reset =>
    if cursor.epoch ≠ epoch then none
    else
      let channel :=
        if reset || channel.cursor.isNone then { channel with cursor := some cursor, history := [] }
        else channel
      some ({ channel with online := true }, [.connection true, .event (.hello cursor reset)])
  | .change event =>
    match channel.cursor with
    | none => none
    | some cursor =>
      if event.cursor.epoch ≠ cursor.epoch || event.cursor.sequence ≠ cursor.sequence + 1 then none
      else
        some ({ channel with
          cursor := some event.cursor
          history := pushBounded 512 channel.history event }, [.event (.change event)])

end HostClientChannel

/-- A listener. The last two fields are for the properties only. -/
structure Subscriber where
  listening : Bool
  updates : List HostClientUpdate
  /-- The position that its events go on from. -/
  start : Option ClientChannelCursor
  /-- How much each Host had published when it joined. -/
  joined : Nat → Nat

def Subscriber.publish (updates : List HostClientUpdate) (subscriber : Subscriber) : Subscriber :=
  if subscriber.listening then { subscriber with updates := subscriber.updates ++ updates }
  else subscriber

/-- The response of a Host that the client reads. -/
structure Connection where
  host : Nat
  /-- The epoch in the descriptor that was found. -/
  epoch : Nat
  /-- The Host has not detached the listener. -/
  attached : Bool
  frames : List ClientChannelEvent

structure System where
  hosts : Nat → ClientChannelEvents
  channel : HostClientChannel
  connection : Option Connection
  subscribers : List Subscriber

def initial (capacity : Nat → Nat) : System where
  hosts host := .start host (capacity host)
  channel := ⟨none, [], false, false⟩
  connection := none
  subscribers := []

namespace System
variable (s : System)

/-- `publish` of the client -/
def publish (updates : List HostClientUpdate) : System :=
  { s with subscribers := s.subscribers.map (·.publish updates) }

def setHost (host : Nat) (events : ClientChannelEvents) : System :=
  { s with hosts := fun other => if other = host then events else s.hosts other }

/-- The Host writes a frame to the client, if it listens. -/
def send (host : Nat) (event : ClientChannelEvent) : System :=
  { s with connection := s.connection.map fun connection =>
      if connection.host = host && connection.attached then
        { connection with frames := connection.frames ++ [event] }
      else connection }

/-- The Host writes no more frames. -/
def detach (host : Nat) : System :=
  { s with connection := s.connection.map fun connection =>
      if connection.host = host then { connection with attached := false } else connection }

/-- The attempt to connect fails, or the connection ends. -/
def fail : System :=
  let channel := { s.channel with online := false }
  { s with connection := none, channel := channel }.publish [.connection false]

/-- The position from which a new listener is told of events. -/
def startOf (after : Option ClientChannelCursor) : Option ClientChannelCursor :=
  match s.channel.online, s.channel.cursor with
  | true, some cursor => (after.filter (replays cursor s.channel.history)).getD cursor
  | _, cursor => cursor

def subscribe (after : Option ClientChannelCursor) : System :=
  let joined := fun host => (s.hosts host).log.length
  { s with
    subscribers := s.subscribers ++ [⟨true, s.channel.subscribe after, s.startOf after, joined⟩] }

/-- The client reads a frame. -/
def receive (connection : Connection) (frame : ClientChannelEvent)
    (rest : List ClientChannelEvent) : System :=
  match s.channel.receive connection.epoch frame with
  | none => s.fail
  | some (channel, updates) =>
    let connection := { connection with frames := rest }
    { s with channel := channel, connection := some connection }.publish updates

def close : System :=
  let channel := { s.channel with stopped := true, online := false }
  let s := { s with connection := none, channel := channel }.publish [.connection false]
  { s with subscribers := s.subscribers.map ({ · with listening := false }) }

end System

inductive Event where
  /-- A Host publishes. -/
  | change (host : Nat) (change : Change)
  | clear (host : Nat)
  /-- A Host detaches a slow client. -/
  | detach (host : Nat)
  /-- The client reaches a Host, with the epoch of the descriptor that it found. -/
  | connect (host epoch : Nat)
  | receive
  | fail
  | subscribe (after : Option ClientChannelCursor)
  | unsubscribe (subscriber : Nat)
  | close
  deriving DecidableEq, Repr

/-- The state after the event; none when the event is not due. -/
def step (s : System) : Event → Option System
  | .change host change =>
    some ((s.setHost host ((s.hosts host).publish change)).send host (.change ((s.hosts host).next change)))
  | .clear host => some ((s.setHost host (s.hosts host).clear).detach host)
  | .detach host => some (s.detach host)
  | .connect host epoch =>
    if s.connection.isNone && !s.channel.stopped then
      let frames := (s.hosts host).subscribe s.channel.cursor
      some { s with connection := some ⟨host, epoch, true, frames⟩ }
    else none
  | .receive =>
    match s.connection with
    | none => none
    | some connection =>
      match connection.frames with
      | [] => none
      | frame :: rest => some (s.receive connection frame rest)
  | .fail => if s.channel.stopped then none else some s.fail
  | .subscribe after => some (s.subscribe after)
  | .unsubscribe number =>
    some { s with subscribers := s.subscribers.modify number ({ · with listening := false }) }
  | .close => some s.close

end CodexHost.Source.DesktopControl
