import CodexHost.Foundation.EcmaInt32

/-!
# The relay protocol: identities

`packages/remote-relay/src/protocol.ts`: the id of a device is a text of the first bytes of its key's
digest. Numbers are JavaScript's, with 32-bit shifts.
-/
namespace CodexHost.Source.RemoteRelay.Protocol
open Foundation.EcmaInt32

def alphabet : String := "abcdefghijklmnopqrstuvwxyz234567"

/-- `alphabet[index]`. The loop's indexes are all inside. -/
def letter (index : Int) : Char := alphabet.toList.getD index.toNat ' '

structure Encoder where
  bits : Nat
  value : Int
  id : String
  deriving DecidableEq, Repr

/-- `while (bits >= 5)` -/
def emit (encoder : Encoder) : Encoder :=
  if 5 ≤ encoder.bits then
    emit { encoder with
      bits := encoder.bits - 5
      id := encoder.id.push (letter (bitAnd (shiftRight encoder.value (encoder.bits - 5)) 31)) }
  else encoder
termination_by encoder.bits

/-- The body of the loop over the bytes. -/
def absorb (encoder : Encoder) (byte : UInt8) : Encoder :=
  emit { encoder with
    value := bitOr (shiftLeft encoder.value 8) byte.toNat
    bits := encoder.bits + 8 }

/-- `deriveId` after the digest. -/
def encodeDigest (digest : List UInt8) : String :=
  let encoder := digest.foldl absorb { bits := 0, value := 0, id := "" }
  if 0 < encoder.bits then
    encoder.id.push (letter (bitAnd (shiftLeft encoder.value (5 - encoder.bits)) 31))
  else encoder.id

def deriveId (sha256 : List UInt8 → List UInt8) (publicKey : List UInt8) : String :=
  encodeDigest ((sha256 publicKey).take 16)

/-- `[a-z0-9]` without regard to case. -/
def isAlphanumeric (character : Char) : Bool :=
  ('a'.val ≤ character.val && character.val ≤ 'z'.val) ||
    ('A'.val ≤ character.val && character.val ≤ 'Z'.val) ||
    ('0'.val ≤ character.val && character.val ≤ '9'.val)

/-- `/^[a-z0-9](?:[a-z0-9-]{0,61}[a-z0-9])?$/i` -/
def isDnsLabel (name : String) : Bool :=
  match name.toList with
  | [] => false
  | first :: rest =>
    isAlphanumeric first &&
      match rest.getLast? with
      | none => true
      | some last =>
        rest.length ≤ 62 && isAlphanumeric last &&
          rest.dropLast.all fun character => isAlphanumeric character || character == '-'

end CodexHost.Source.RemoteRelay.Protocol
