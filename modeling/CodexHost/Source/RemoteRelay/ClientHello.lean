import Mathlib

/-!
# The ClientHello of a TLS connection

`packages/remote-relay/src/client-hello.ts`: the relay reads the server name and the protocols that a
connection asks for, and puts what it has read back on the socket. A read outside a buffer throws.
-/
namespace CodexHost.Source.RemoteRelay.ClientHello

def maxHelloSize : Nat := 16 * 1024

inductive HelloError where
  | outOfRange
  | message (text : String)
  deriving DecidableEq, Repr

structure ClientHello where
  servername : String
  alpn : List String
  deriving DecidableEq, Repr

section Buffer
variable (buffer : List UInt8)

/-- The byte at an offset that is inside the buffer. -/
def byteAt (offset : Nat) : Nat := (buffer.getD offset 0).toNat

def uint16At (offset : Nat) : Nat := byteAt buffer offset * 256 + byteAt buffer (offset + 1)

def uint24At (offset : Nat) : Nat := uint16At buffer offset * 256 + byteAt buffer (offset + 2)

def readUInt8 (offset : Nat) : Except HelloError Nat :=
  if offset < buffer.length then .ok (byteAt buffer offset) else .error .outOfRange

def readUInt16BE (offset : Nat) : Except HelloError Nat :=
  if offset + 1 < buffer.length then .ok (uint16At buffer offset) else .error .outOfRange

def subarray (start end_ : Nat) : List UInt8 := (buffer.take end_).drop start

/-- `buffer.toString("ascii", start, end)` -/
def asciiText (start end_ : Nat) : String :=
  String.ofList ((subarray buffer start end_).map fun byte => Char.ofNat (byte.toNat % 128))

end Buffer

section Extensions
variable (hello : List UInt8)

/-- The loop over the server names of an extension that ends at `next`. -/
def serverName (next cursor : Nat) (servername : String) : Except HelloError String :=
  if cursor < next then
    match readUInt8 hello cursor, readUInt16BE hello (cursor + 1) with
    | .error error, _ => .error error
    | _, .error error => .error error
    | .ok nameType, .ok size =>
      if cursor + 3 + size > next then .error (.message "Invalid SNI")
      else
        serverName next (cursor + 3 + size)
          (if nameType = 0 then asciiText hello (cursor + 3) (cursor + 3 + size) else servername)
  else .ok servername
termination_by next - cursor

/-- The loop over the protocols of an extension that ends at `next`. -/
def protocols (next cursor : Nat) (alpn : List String) : Except HelloError (List String) :=
  if cursor < next then
    match readUInt8 hello cursor with
    | .error error => .error error
    | .ok size =>
      if cursor + 1 + size > next then .error (.message "Invalid ALPN")
      else protocols next (cursor + 1 + size) (alpn ++ [asciiText hello (cursor + 1) (cursor + 1 + size)])
  else .ok alpn
termination_by next - cursor

/-- The content of an extension between these offsets. -/
def extension (type offset next : Nat) (read : ClientHello) : Except HelloError ClientHello :=
  if type = 0 then do
    return { read with servername := ← serverName hello next (offset + 2) read.servername }
  else if type = 16 then do
    return { read with alpn := ← protocols hello next (offset + 2) read.alpn }
  else .ok read

/-- The loop over the extensions. -/
def extensionList (end_ offset : Nat) (read : ClientHello) : Except HelloError ClientHello :=
  if offset < end_ then
    match readUInt16BE hello offset, readUInt16BE hello (offset + 2) with
    | .error error, _ => .error error
    | _, .error error => .error error
    | .ok type, .ok length =>
      if offset + 4 + length > hello.length then .error (.message "Invalid ClientHello extension")
      else
        match extension hello type (offset + 4) (offset + 4 + length) read with
        | .error error => .error error
        | .ok read => extensionList end_ (offset + 4 + length) read
  else .ok read
termination_by end_ - offset

def extensions : Except HelloError ClientHello := do
  let offset := 4 + 2 + 32
  let offset := offset + 1 + (← readUInt8 hello offset)
  let offset := offset + 2 + (← readUInt16BE hello offset)
  let offset := offset + 1 + (← readUInt8 hello offset)
  let end_ := offset + 2 + (← readUInt16BE hello offset)
  let read ← extensionList hello end_ (offset + 2) ⟨"", []⟩
  if end_ ≠ hello.length ∨ read.servername = "" then
    throw (.message "Missing SNI or invalid ClientHello")
  return read

end Extensions

def tooLong : HelloError := .message "ClientHello exceeds 16 KiB"

/-- What the fragments so far decide. -/
def inspect (hello : List UInt8) : Option (Except HelloError ClientHello) :=
  if 4 ≤ hello.length then
    if byteAt hello 0 ≠ 1 then some (.error (.message "Expected ClientHello"))
    else
      let helloLength := 4 + uint24At hello 1
      if helloLength > maxHelloSize - 5 then some (.error tooLong)
      else if hello.length ≥ helloLength then some (extensions (subarray hello 0 helloLength))
      else none
  else none

/-- The loop over the records from an offset on; nothing if more bytes are needed. -/
def parseFrom (bytes : List UInt8) (offset : Nat) (fragments : List (List UInt8)) :
    Except HelloError (Option ClientHello) :=
  if offset + 5 ≤ bytes.length then
    if byteAt bytes offset ≠ 22 then .error (.message "Expected TLS handshake record")
    else
      let recordEnd := offset + 5 + uint16At bytes (offset + 3)
      if recordEnd > maxHelloSize then .error tooLong
      else if recordEnd > bytes.length then .ok none
      else
        let fragments := fragments ++ [subarray bytes (offset + 5) recordEnd]
        match inspect fragments.flatten with
        | some result => result.map some
        | none => parseFrom bytes recordEnd fragments
  else if bytes.length ≥ maxHelloSize then .error tooLong
  else .ok none
termination_by bytes.length - offset

def parseClientHello (bytes : List UInt8) : Except HelloError (Option ClientHello) := parseFrom bytes 0 []

/-- The readable queue of the socket, and what `readClientHello` has read from it. -/
structure Reader where
  queue : List UInt8
  bytes : List UInt8
  settled : Option (Except HelloError ClientHello)

inductive Event where
  | arrives (chunk : List UInt8)
  | readable
  | timeout
  | socketError (text : String)
  | ended

/-- The `read` function; its listeners are removed when the promise is settled. -/
def Reader.read (reader : Reader) : Reader :=
  let size := min reader.queue.length (maxHelloSize - reader.bytes.length)
  if size = 0 then reader
  else
    let bytes := reader.bytes ++ reader.queue.take size
    let queue := reader.queue.drop size
    match parseClientHello bytes with
    | .ok none => { reader with bytes, queue }
    | .ok (some hello) => { bytes, queue := bytes ++ queue, settled := some (.ok hello) }
    | .error error => { bytes, queue, settled := some (.error error) }

def Reader.fail (reader : Reader) (error : HelloError) : Reader :=
  { reader with settled := some (.error error) }

def Reader.step (reader : Reader) : Event → Reader
  | .arrives chunk => { reader with queue := reader.queue ++ chunk }
  | event =>
    if reader.settled.isSome then reader
    else
      match event with
      | .arrives _ => reader
      | .readable => reader.read
      | .timeout => reader.fail (.message "ClientHello timed out")
      | .socketError text => reader.fail (.message text)
      | .ended => reader.fail (.message "Connection closed during ClientHello")

/-- The call of `readClientHello` on a socket with this queue, and the events after it. -/
def readClientHello (queue : List UInt8) (events : List Event) : Reader :=
  events.foldl Reader.step (Reader.read ⟨queue, [], none⟩)

end CodexHost.Source.RemoteRelay.ClientHello
