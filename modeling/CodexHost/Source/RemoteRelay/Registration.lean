import CodexHost.Foundation.TextEncoding

/-!
# The registry of the relay

`registerAgent` of `packages/remote-relay/src/registration.ts` and `disconnect` of `index.ts`: the
connections of computers, and the registry of their agents by name. A connection is its number. What
its web socket, its HTTP/2 session, its timers and its check do are events. Signatures and the ID of a
key are parameters; the usage of a name is that of `Forward`.
-/
namespace CodexHost.Source.RemoteRelay.Registration
open Foundation

namespace closeCodes
def normal : Nat := 1000
def invalidSignature : Nat := 4401
def registrationTimeout : Nat := 4408
def replaced : Nat := 4409
def invite : Nat := 4410
def nameTaken : Nat := 4411
def banned : Nat := 4412
def full : Nat := 4413
end closeCodes

/-- The relay's options, and what its libraries do. -/
structure Setup where
  /-- The normalized control host. -/
  controlHost : String
  /-- `options.check` is given. -/
  check : Bool
  deriveId : List UInt8 → String
  /-- `verify` of a content by an Ed25519 key. -/
  verify : String → List UInt8 → List UInt8 → Bool

def registrationContent (controlHost challenge : String) : String :=
  "codexhost-relay-register-v1\n" ++ controlHost ++ "\n" ++ challenge

def isLabelChar (c : Char) : Bool :=
  ('a' ≤ c && c ≤ 'z') || ('A' ≤ c && c ≤ 'Z') || ('0' ≤ c && c ≤ '9')

/-- `/^[a-z0-9](?:[a-z0-9-]{0,61}[a-z0-9])?$/i` -/
def isDnsLabel (name : String) : Bool :=
  let text := name.toList
  text.length ≤ 63 && text.all (fun c => isLabelChar c || c = '-') &&
    text.head?.any isLabelChar && text.getLast?.any isLabelChar

/-- The response to the registration request; a header may be repeated. -/
structure RegistrationResponse where
  status : Nat
  publicKey : List String
  signature : List String
  name : Option String
  invite : Option String
  deriving DecidableEq, Repr

structure RegistrationRequest where
  id : String
  ip : Option String
  name : Option String
  invite : Option String
  deriving DecidableEq, Repr

def decodeField (value : String) (length : Nat) : Option (List UInt8) :=
  let decoded := TextEncoding.fromBase64url value.toList
  if decoded.length ≠ length ∨ TextEncoding.base64url decoded ≠ value.toList then none else some decoded

/-- The only value of a header. -/
def single : List String → Option String
  | [value] => some value
  | _ => none

/-- The key of a response, if its fields and its signature are valid. -/
def registrationKey (setup : Setup) (challenge : String) (response : RegistrationResponse) :
    Option (List UInt8) := do
  let publicKey ← decodeField (← single response.publicKey) 32
  let signature ← decodeField (← single response.signature) 64
  if response.status ≠ 200 ∨
      !setup.verify (registrationContent setup.controlHost challenge) publicKey signature then none
  else some publicKey

inductive Rejection where
  | invite | nameTaken | banned | full
  deriving DecidableEq, Repr

def Rejection.code : Rejection → Nat
  | .invite => closeCodes.invite
  | .nameTaken => closeCodes.nameTaken
  | .banned => closeCodes.banned
  | .full => closeCodes.full

/-- How the check of a registration ends. -/
inductive CheckAnswer where
  /-- The name, and whether what follows the registration throws. -/
  | accepted (name : String) (throws : Bool)
  | reject (rejection : Rejection)
  | throws
  deriving DecidableEq, Repr

inductive ReadyState where
  | open | closing | closed
  deriving DecidableEq, Repr

structure Connection where
  readyState : ReadyState
  ip : Option String
  challenge : String
  name : Option String
  pong : Bool
  /-- The registration timer is set. -/
  timeout : Bool
  /-- The registration request has had its response. -/
  responded : Bool
  /-- The request that is being checked. -/
  checking : Option RegistrationRequest
  /-- The code that the relay closed the connection with. -/
  closeCode : Option Nat
  deriving DecidableEq, Repr

inductive Reason where
  | replace | unregister | timeout
  deriving DecidableEq, Repr

/-- A call of `onConnection` for a computer. -/
inductive Notice where
  | online (name : String) (ip : Option String)
  | offline (name : String) (ip : Option String) (reason : Reason)
  deriving DecidableEq, Repr

structure Relay where
  connection : Nat → Option Connection
  opened : Nat
  agents : String → Option Nat
  notices : List Notice

namespace Relay

def empty : Relay := ⟨fun _ => none, 0, fun _ => none, []⟩

def setConnection (relay : Relay) (c : Nat) (connection : Connection) : Relay :=
  { relay with connection := Function.update relay.connection c (some connection) }

/-- Changes a connection that there is. -/
def modify (relay : Relay) (c : Nat) (change : Connection → Connection) : Relay :=
  match relay.connection c with
  | some connection => relay.setConnection c (change connection)
  | none => relay

def unregister (relay : Relay) (c : Nat) (reason : Reason) : Relay :=
  match relay.connection c with
  | none => relay
  | some connection =>
    match connection.name with
    | none => relay
    | some name =>
      if relay.agents name = some c then
        { relay with
          agents := Function.update relay.agents name none
          notices := relay.notices ++ [.offline name connection.ip reason] }
      else relay

/-- `ws.close(code)` and `ws.terminate()`: a socket that is open starts to close. -/
def closeState : ReadyState → ReadyState
  | .open => .closing
  | state => state

def terminate (relay : Relay) (c : Nat) : Relay :=
  relay.modify c fun connection => { connection with readyState := closeState connection.readyState }

/-- `agent.close` -/
def close (relay : Relay) (c : Nat) (code : Nat) : Relay :=
  (relay.unregister c (if code = closeCodes.replaced then .replace else .unregister)).modify c
    fun connection => { connection with
      readyState := closeState connection.readyState
      closeCode := connection.closeCode.or (some code) }

/-- `agents.get(name)?.close(closeCodes.replaced)` -/
def closePrevious (relay : Relay) (name : String) : Relay :=
  match relay.agents name with
  | some previous => relay.close previous closeCodes.replaced
  | none => relay

/-- What follows the check of an open connection. -/
def admission (relay : Relay) (c : Nat) (result : String) (throws : Bool) : Relay :=
  if !isDnsLabel result then relay.close c closeCodes.normal
  else
    let name := result.toLower
    let relay := (relay.modify c fun connection =>
      { connection with name := some name, timeout := false }).closePrevious name
    let ip := (relay.connection c).bind (·.ip)
    let relay := { relay with
      agents := Function.update relay.agents name (some c)
      notices := relay.notices ++ [.online name ip] }
    if throws then relay.close c closeCodes.normal else relay

/-- The response of a connection with this state. -/
def respond (relay : Relay) (setup : Setup) (c : Nat) (connection : Connection)
    (response : RegistrationResponse) (throws : Bool) : Relay :=
  let relay := relay.modify c fun connection => { connection with responded := true }
  if connection.readyState ≠ .open then relay
  else
    match registrationKey setup connection.challenge response with
    | none => relay.close c closeCodes.invalidSignature
    | some publicKey =>
      let id := setup.deriveId publicKey
      if setup.check then
        relay.modify c fun connection =>
          { connection with checking := some ⟨id, connection.ip, response.name, response.invite⟩ }
      else relay.admission c id throws

/-- The answer of the check of a connection with this state. -/
def answerCheck (relay : Relay) (c : Nat) (connection : Connection) (answer : CheckAnswer) : Relay :=
  let relay := relay.modify c fun connection => { connection with checking := none }
  match answer with
  | .throws => relay.close c closeCodes.normal
  | .reject rejection =>
    if connection.readyState ≠ .open then relay else relay.close c rejection.code
  | .accepted name throws =>
    if connection.readyState ≠ .open then relay else relay.admission c name throws

inductive Event where
  | connect (challenge : String) (ip : Option String)
  /-- `throws`: what follows a registration without a check throws. -/
  | response (c : Nat) (response : RegistrationResponse) (throws : Bool)
  | checked (c : Nat) (answer : CheckAnswer)
  | timeout (c : Nat)
  | heartbeat (c : Nat)
  | pong (c : Nat)
  /-- The other side starts to close the socket. -/
  | closing (c : Nat)
  | closed (c : Nat)
  /-- An error of the socket, the stream or the session, or the session is told to go away. -/
  | abort (c : Nat)
  | sessionClosed (c : Nat)
  | requestError (c : Nat)
  /-- `disconnect` of a name in lower case. -/
  | disconnect (name : String)
  deriving DecidableEq, Repr

def step (setup : Setup) (relay : Relay) : Event → Option Relay
  | .connect challenge ip =>
    some { relay.setConnection relay.opened
        ⟨.open, ip, challenge, none, true, true, false, none, none⟩ with opened := relay.opened + 1 }
  | .response c response throws =>
    match relay.connection c with
    | some connection =>
      if connection.responded then none else some (relay.respond setup c connection response throws)
    | none => none
  | .checked c answer =>
    match relay.connection c with
    | some connection =>
      if connection.checking.isSome then some (relay.answerCheck c connection answer) else none
    | none => none
  | .timeout c =>
    match relay.connection c with
    | some connection =>
      if connection.timeout then
        some ((relay.modify c fun connection => { connection with timeout := false }).close c
          closeCodes.registrationTimeout)
      else none
    | none => none
  | .heartbeat c =>
    match relay.connection c with
    | some connection =>
      if connection.readyState = .closed then none
      else if connection.pong then some (relay.modify c fun connection => { connection with pong := false })
      else some ((relay.unregister c .timeout).terminate c)
    | none => none
  | .pong c => some (relay.modify c fun connection => { connection with pong := true })
  | .closing c =>
    some (relay.modify c fun connection =>
      { connection with readyState := closeState connection.readyState })
  | .closed c =>
    some ((relay.unregister c .unregister).modify c fun connection =>
      { connection with readyState := .closed, timeout := false })
  | .abort c => some ((relay.unregister c .unregister).terminate c)
  | .sessionClosed c => some ((relay.unregister c .unregister).terminate c)
  | .requestError c => some (relay.terminate c)
  | .disconnect name =>
    match relay.agents name with
    | some c => some (relay.close c closeCodes.normal)
    | none => some relay

end Relay

end CodexHost.Source.RemoteRelay.Registration
