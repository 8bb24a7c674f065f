import Mathlib

/-!
# The connections of a computer at the relay

`Usage` of `packages/remote-relay/src/usage.ts`, `forward` and its `transfer` of `forward.ts`, and
what `registration.ts` and `index.ts` do to the usage and the agent of one computer. The clock counts
UTC hours; it may go on between any two looks at it.
-/
namespace CodexHost.Source.RemoteRelay

/-- The UTC day of an hour. -/
def dayOf (hour : Nat) : Nat := hour / 24

structure Usage where
  day : Nat
  acmeHour : Option Nat
  acmeBytes : Int
  bytes : Nat
  quota : Option Nat
  /-- The rate of both buckets. -/
  rate : Option Nat
  deriving DecidableEq, Repr

namespace Usage
variable (u : Usage)

def expired (now : Nat) : Bool := u.day < dayOf now

/-- `exceeded`: the answer, and the usage after the look at the clock. -/
def exceeded (now : Nat) : Bool × Usage :=
  let u := if dayOf now ≠ u.day then { u with day := dayOf now, bytes := 0 } else u
  (u.quota.any (· ≤ u.bytes), u)

def acmeRemaining (now : Nat) : Int × Usage :=
  let u := if u.acmeHour ≠ some now then { u with acmeHour := some now, acmeBytes := 0 } else u
  (1024 * 1024 - u.acmeBytes, u)

/-- `expired` looks at `now`, the new day is the one of `now'`. -/
def configure (rate quota : Option Nat) (usedToday now now' : Nat) : Usage :=
  let u := if u.expired now then { u with day := dayOf now', bytes := usedToday } else u
  { u with quota := quota, rate := rate }

/-- The constructor. -/
def new (rate quota : Option Nat) (usedToday now now' now'' : Nat) : Usage :=
  let u := configure ⟨dayOf now, none, 0, 0, quota, none⟩ rate quota usedToday now' now''
  { u with bytes := usedToday }

/-- `add`: true only on the first crossing of the quota of this day. -/
def add (bytes : Nat) (validation : Bool) (now now' now'' : Nat) : Bool × Usage :=
  let (exceeded, u) := u.exceeded now
  let u :=
    if validation then
      let (acmeRemaining, u) := u.acmeRemaining now'
      { u with acmeBytes := 1024 * 1024 - acmeRemaining + bytes }
    else u
  let (exceeded', u) := ({ u with bytes := u.bytes + bytes } : Usage).exceeded now''
  (exceeded' && !exceeded, u)

end Usage

/-- The variables of one direction. -/
structure Transfer where
  timer : Bool
  blocked : Bool
  deriving DecidableEq, Repr

inductive Direction where
  | upload
  | download
  deriving DecidableEq, Repr

/-- A phone connection: its socket and its stream. -/
structure Connection where
  agent : Nat
  usage : Nat
  validation : Bool
  /-- The rate of the buckets that it was opened with. -/
  rate : Option Nat
  bytes : Nat
  /-- The socket or the stream is destroyed. -/
  destroyed : Bool
  /-- The socket has told its close. -/
  closed : Bool
  upload : Transfer
  download : Transfer
  deriving DecidableEq, Repr

def Connection.transfer (c : Connection) : Direction → Transfer
  | .upload => c.upload
  | .download => c.download

def Connection.setTransfer (c : Connection) (direction : Direction) (transfer : Transfer) : Connection :=
  match direction with
  | .upload => { c with upload := transfer }
  | .download => { c with download := transfer }

/-- A chunk that was forwarded, for the properties only. -/
structure Forwarded where
  connection : Nat
  validation : Bool
  /-- The hour in which it was written. -/
  hour : Nat
  size : Nat
  /-- The quota in force. -/
  quota : Option Nat
  quotaExceeded : Bool
  /-- The number of connections that were opened before. -/
  opened : Nat
  deriving DecidableEq, Repr

/-- The relay, as far as one computer is concerned. -/
structure Relay where
  now : Nat
  usages : Nat → Usage
  nextUsage : Nat
  /-- `usageByName.get(name)` -/
  usageByName : Option Nat
  /-- `agents.get(name)` -/
  agent : Option Nat
  nextAgent : Nat
  connections : Nat → Connection
  nextConnection : Nat
  forwarded : List Forwarded

namespace Relay

def new (now : Nat) : Relay where
  now := now
  usages _ := ⟨0, none, 0, 0, none, none⟩
  nextUsage := 0
  usageByName := none
  agent := none
  nextAgent := 0
  connections _ := ⟨0, 0, false, none, 0, true, true, ⟨false, false⟩, ⟨false, false⟩⟩
  nextConnection := 0
  forwarded := []

variable (r : Relay)

def setUsage (now usage : Nat) (u : Usage) : Relay :=
  { r with now := now, usages := Function.update r.usages usage u }

def setConnection (id : Nat) (c : Connection) : Relay :=
  { r with connections := Function.update r.connections id c }

/-- `agent.phones.size` -/
def phones (agent : Nat) : Nat :=
  (List.range r.nextConnection).countP fun id =>
    (r.connections id).agent = agent && !(r.connections id).closed

/-- `for (const phone of agent.phones) phone.destroy()` -/
def destroyPhones (agent : Nat) : Relay :=
  { r with connections := fun id =>
      if (r.connections id).agent = agent then { r.connections id with destroyed := true }
      else r.connections id }

def abort (id : Nat) : Relay := r.setConnection id { r.connections id with destroyed := true }

/-- The clock between the looks of `forward`. -/
structure ForwardLapses where
  first : Nat
  second : Nat
  acme : Nat
  deriving DecidableEq, Repr

/-- `forward`, when the computer is registered. -/
def forward (acme : Bool) (lapses : ForwardLapses) : Relay :=
  match r.agent, r.usageByName with
  | some agent, some usage =>
    let now := r.now + lapses.first
    let (exceeded, u) := (r.usages usage).exceeded now
    let validation := exceeded && acme
    let accept (r : Relay) : Relay :=
      { r.setConnection r.nextConnection ⟨agent, usage, validation, (r.usages usage).rate, 0, false,
          false, ⟨false, false⟩, ⟨false, false⟩⟩ with
        nextConnection := r.nextConnection + 1 }
    if 32 ≤ r.phones agent then r.setUsage now usage u
    else
      let now := now + lapses.second
      let (exceeded, u) := u.exceeded now
      if !exceeded then accept (r.setUsage now usage u)
      else if !validation then r.setUsage now usage u
      else
        let now := now + lapses.acme
        let (acmeRemaining, u) := u.acmeRemaining now
        if acmeRemaining = 0 then r.setUsage now usage u else accept (r.setUsage now usage u)
  | _, _ => r

/-- The clock between the looks of one turn of the loop in `pump`. -/
structure Lapses where
  limit : Nat
  write : Nat
  added : Nat
  acme : Nat
  exceeded : Nat
  last : Nat
  deriving DecidableEq, Repr

/-- What one turn of the loop in `pump` finds. -/
structure Iteration where
  readableLength : Nat
  /-- The bucket asks to wait. -/
  wait : Bool
  /-- What `target.write` returns. -/
  accepted : Bool
  lapses : Lapses
  deriving DecidableEq, Repr

/-- The limits of a chunk that every connection has: the buffer, 16 KiB and the rate. -/
def chunkSize (rate : Option Nat) (readableLength : Nat) : Int :=
  let size : Int := min readableLength (16 * 1024)
  match rate with
  | some rate => min size rate
  | none => size

/-- The size of the next chunk, and the relay after the look at the validation limits. -/
def size (id : Nat) (iteration : Iteration) : Int × Relay :=
  let c := r.connections id
  let size := chunkSize c.rate iteration.readableLength
  if c.validation then
    let now := r.now + iteration.lapses.limit
    let (acmeRemaining, u) := (r.usages c.usage).acmeRemaining now
    (min size (min (64 * 1024 - c.bytes) acmeRemaining), r.setUsage now c.usage u)
  else (size, r)

/-- The part of `account` that counts: `bytes`, `usage.add` and what a crossing does. -/
def count (id written size : Nat) (lapses : Lapses) : Relay :=
  let c := r.connections id
  let now := written + lapses.added
  let now' := now + lapses.acme
  let now'' := now' + lapses.exceeded
  let (quotaExceeded, u) := (r.usages c.usage).add size c.validation now now' now''
  let entry : Forwarded := ⟨id, c.validation, written, size, (r.usages c.usage).quota, quotaExceeded,
    r.nextConnection⟩
  let r := (r.setConnection id { c with bytes := c.bytes + size }).setUsage now'' c.usage u
  let r := { r with forwarded := r.forwarded ++ [entry] }
  if quotaExceeded then r.destroyPhones c.agent else r

/-- `account`, for a chunk that was written at `written`. -/
def account (id written size : Nat) (lapses : Lapses) : Relay :=
  let r := r.count id written size lapses
  let c := r.connections id
  if c.validation then
    if 64 * 1024 ≤ c.bytes then r.abort id
    else
      let now := r.now + lapses.last
      let (acmeRemaining, u) := (r.usages c.usage).acmeRemaining now
      let r := r.setUsage now c.usage u
      if acmeRemaining = 0 then r.abort id else r
  else r

/-- One turn of the loop in `pump`; whether the loop goes on. -/
def turn (id : Nat) (direction : Direction) (iteration : Iteration) : Bool × Relay :=
  let (size, r) := r.size id iteration
  let c := r.connections id
  if size = 0 then (false, r.abort id)
  else if c.rate.isSome && iteration.wait then
    (false, r.setConnection id (c.setTransfer direction { c.transfer direction with timer := true }))
  else
    let c := c.setTransfer direction { c.transfer direction with blocked := !iteration.accepted }
    let r := (r.setConnection id c).account id (r.now + iteration.lapses.write) size.toNat iteration.lapses
    (iteration.accepted && !(r.connections id).destroyed, r)

/-- The loop in `pump`. -/
def pumpLoop (id : Nat) (direction : Direction) : List Iteration → Relay → Relay
  | [], r => r
  | iteration :: rest, r =>
    if iteration.readableLength = 0 then r
    else
      let (goesOn, r) := r.turn id direction iteration
      if goesOn then pumpLoop id direction rest r else r

def pump (id : Nat) (direction : Direction) (iterations : List Iteration) : Relay :=
  let c := r.connections id
  let transfer := c.transfer direction
  if transfer.timer || transfer.blocked || c.destroyed then r else pumpLoop id direction iterations r

/-- The timer of a direction is over. -/
def timeout (id : Nat) (direction : Direction) (iterations : List Iteration) : Relay :=
  let c := r.connections id
  let transfer := c.transfer direction
  if transfer.timer then
    (r.setConnection id (c.setTransfer direction { transfer with timer := false })).pump id direction
      iterations
  else r

def drain (id : Nat) (direction : Direction) (iterations : List Iteration) : Relay :=
  let c := r.connections id
  (r.setConnection id (c.setTransfer direction { c.transfer direction with blocked := false })).pump id
    direction iterations

/-- The `close` of the socket. -/
def socketClose (id : Nat) : Relay :=
  r.setConnection id { r.connections id with destroyed := true, closed := true }

def unregister (agent : Nat) : Relay :=
  { r with agent := if r.agent = some agent then none else r.agent }.destroyPhones agent

/-- The clock between the looks of a registration. -/
structure RegisterLapses where
  first : Nat
  second : Nat
  third : Nat
  last : Nat
  deriving DecidableEq, Repr

/-- The usage of the computer that registers: a new one, or the one of its name; `checked` when the
relay has a `check`. -/
def usageAt (checked : Bool) (rate dailyQuota : Option Nat) (usedToday : Nat)
    (lapses : RegisterLapses) : Nat × Relay :=
  let now := r.now + lapses.first
  let now' := now + lapses.second
  let now'' := now' + lapses.third
  match r.usageByName with
  | none =>
    let r := r.setUsage now'' r.nextUsage (Usage.new rate dailyQuota usedToday now now' now'')
    (r.nextUsage, { r with usageByName := some r.nextUsage, nextUsage := r.nextUsage + 1 })
  | some usage =>
    if checked then
      (usage, r.setUsage now'' usage ((r.usages usage).configure rate dailyQuota usedToday now' now''))
    else (usage, r)

/-- The agent before is closed, the new one takes its place. -/
def replaceAgent : Relay :=
  let r := match r.agent with
    | some replaced => r.unregister replaced
    | none => r
  { r with agent := some r.nextAgent, nextAgent := r.nextAgent + 1 }

/-- A registration that is accepted. -/
def register (checked : Bool) (rate dailyQuota : Option Nat) (usedToday : Nat)
    (lapses : RegisterLapses) : Relay :=
  let (usage, r) := r.usageAt checked rate dailyQuota usedToday lapses
  let r := r.replaceAgent
  let now := r.now + lapses.last
  r.setUsage now usage ((r.usages usage).exceeded now).2

def pruneUsage : Relay :=
  match r.agent, r.usageByName with
  | none, some usage => if (r.usages usage).expired r.now then { r with usageByName := none } else r
  | _, _ => r

end Relay

inductive Event where
  | wait (lapse : Nat)
  | connect (acme : Bool) (lapses : Relay.ForwardLapses)
  | readable (id : Nat) (direction : Direction) (iterations : List Relay.Iteration)
  | drain (id : Nat) (direction : Direction) (iterations : List Relay.Iteration)
  | timeout (id : Nat) (direction : Direction) (iterations : List Relay.Iteration)
  /-- An error, an end, a refusal of the computer or the deadline. -/
  | abort (id : Nat)
  | socketClose (id : Nat)
  | register (checked : Bool) (rate dailyQuota : Option Nat) (usedToday : Nat)
      (lapses : Relay.RegisterLapses)
  /-- An agent closes, fails or does not answer. -/
  | unregister (agent : Nat)
  | pruneUsage

namespace Relay

def step (r : Relay) : Event → Relay
  | .wait lapse => { r with now := r.now + lapse }
  | .connect acme lapses => r.forward acme lapses
  | .readable id direction iterations => r.pump id direction iterations
  | .drain id direction iterations => r.drain id direction iterations
  | .timeout id direction iterations => r.timeout id direction iterations
  | .abort id => r.abort id
  | .socketClose id => r.socketClose id
  | .register checked rate dailyQuota usedToday lapses =>
    r.register checked rate dailyQuota usedToday lapses
  | .unregister agent => r.unregister agent
  | .pruneUsage => r.pruneUsage

def run (now : Nat) (events : List Event) : Relay := events.foldl step (.new now)

end Relay

end CodexHost.Source.RemoteRelay
