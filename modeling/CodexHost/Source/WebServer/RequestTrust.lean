import CodexHost.Foundation.HttpHeaders

/-!
# What a request may claim about where it came from

`packages/web-server/src/request-trust.ts`. `isIP` of `node:net`, the URL parser and `toLowerCase` are a
parameter; the relay's sockets are a table by the socket's number.
-/
namespace CodexHost.Source.WebServer.RequestTrust
open Foundation Foundation.HttpHeaders

structure Url where
  host : Text
  hostname : Text
  port : Text
  deriving DecidableEq, Repr

/-- What Node brings. `new URL` throws where there is no value. -/
structure Platform where
  isIP : Text → Nat
  toLowerCase : Text → Text
  parseUrl : Text → Option Url

structure Socket where
  number : Nat
  remoteAddress : Option Text
  localPort : Option Nat
  deriving DecidableEq, Repr

/-- A request's socket and its header fields as they were received. -/
structure IncomingMessage where
  socket : Socket
  fields : List (Text × Text)

/-- `Array.isArray(value) ? value.join(",") : value` -/
def joinedText : HeaderValue → Text
  | .text value => value
  | .many values => [','].intercalate values

namespace IncomingMessage

def headers (request : IncomingMessage) : Headers := headersOf request.fields

/-- A header that is a text. -/
def header (request : IncomingMessage) (name : String) : Option Text :=
  (request.headers.get? name.toList).map joinedText

end IncomingMessage

structure RelaySocket where
  address : Text
  origin : Text
  deriving DecidableEq, Repr

structure RequestTrust where
  proxies : List Text
  trustLoopback : Bool
  relaySockets : OrderedMap Nat RelaySocket

section Functions
variable (platform : Platform)

def mappedPrefix : Text := "::ffff:".toList

def normalizedAddress (address : Option Text) : Text :=
  let value := platform.toLowerCase (trim (address.getD []))
  if mappedPrefix.isPrefixOf value then value.drop mappedPrefix.length else value

def isLoopbackAddress (address : Text) : Bool :=
  address == "::1".toList || (platform.isIP address == 4 && "127.".toList.isPrefixOf address)

def lastHeaderValue (value : Option HeaderValue) : Option Text :=
  let text := value.map joinedText
  let last := text.map fun text => trim (lastPart text)
  if last = some [] then none else last

/-- `name === "forwarded" || name.startsWith("x-forwarded-")` -/
def isForwarding (name : Text) : Bool :=
  name == "forwarded".toList || "x-forwarded-".toList.isPrefixOf name

/-- `Number(port || 80)` for the port of a URL. -/
def portNumber (port : Text) : Option Nat :=
  if port = [] then some 80 else (String.ofList port).toNat?

def isLocalConnection (request : IncomingMessage) : Bool :=
  let address := normalizedAddress platform request.socket.remoteAddress
  if !isLoopbackAddress platform address then false
  else if request.headers.keys.any isForwarding then false
  else
    match platform.parseUrl ("http://".toList ++ (request.header "host").getD []) with
    | none => false
    | some url =>
      (url.hostname == "127.0.0.1".toList || url.hostname == "localhost".toList) &&
        (portNumber url.port).isSome && portNumber url.port == request.socket.localPort

namespace RequestTrust

/-- The constructor. -/
def create (trustedProxies : Option Text) : Except String RequestTrust :=
  let addresses := (((trustedProxies.getD []).splitOn ',').map trim).filter (· ≠ [])
  match addresses.find? fun address => platform.isIP address == 0 with
  | some address => .error ("--trusted-proxy: " ++ String.ofList address ++ " is not an IP address")
  | none =>
    .ok {
      proxies := addresses.map fun address => normalizedAddress platform (some address)
      trustLoopback := false
      relaySockets := .empty }

variable (trust : RequestTrust)

def relay (request : IncomingMessage) : Option RelaySocket := trust.relaySockets.get? request.socket.number

def fromTrustedProxy (request : IncomingMessage) : Bool :=
  let address := normalizedAddress platform request.socket.remoteAddress
  trust.proxies.contains address || (trust.trustLoopback && isLoopbackAddress platform address)

/-- The value of a forwarding header that the request may claim. -/
def forwarded (request : IncomingMessage) (name : String) : Option Text :=
  if trust.fromTrustedProxy platform request then lastHeaderValue (request.headers.get? name.toList) else none

def clientAddress (request : IncomingMessage) : Text :=
  match trust.relay request with
  | some relay => relay.address
  | none =>
    (trust.forwarded platform request "x-forwarded-for").getD
      (normalizedAddress platform request.socket.remoteAddress)

def secure (request : IncomingMessage) : Bool :=
  if (trust.relay request).isSome then true
  else
    trust.fromTrustedProxy platform request &&
      lastHeaderValue (request.headers.get? "x-forwarded-proto".toList) == some "https".toList

def sameOrigin (request : IncomingMessage) : Bool :=
  match request.header "origin" with
  | none => true
  | some origin =>
    if origin = "null".toList then false
    else
      match trust.relay request with
      | some relay => origin == relay.origin
      | none =>
        let forwardedHost := trust.forwarded platform request "x-forwarded-host"
        match platform.parseUrl origin with
        | none => false
        | some url => some url.host == forwardedHost.or (request.header "host")

end RequestTrust

end Functions

end CodexHost.Source.WebServer.RequestTrust
