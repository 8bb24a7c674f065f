import CodexHost.Foundation.JsonNumber

/-!
# JSON objects of the protocol

`JsonValue` and `JsonObject` of `packages/protocol-core`, and what the Host does with an object: it
reads, replaces and deletes members.
-/
namespace CodexHost.Source.ProtocolCore
open Foundation

abbrev JsonValue := Json JsonNumber

abbrev JsonObject := List (Utf16 × JsonValue)

namespace JsonObject

/-- `object[key]`; `none` is undefined. -/
def get (object : JsonObject) (key : String) : Option JsonValue :=
  object.lookup (Utf16.ofString key)

/-- `{ ...object, [key]: value }` -/
def set (object : JsonObject) (key : String) (value : JsonValue) : JsonObject :=
  if (object.get key).isSome then OrderedMap.replaceEntry (Utf16.ofString key) value object
  else object ++ [(Utf16.ofString key, value)]

/-- `delete object[key]` -/
def delete (object : JsonObject) (key : String) : JsonObject :=
  object.filter fun entry => entry.1 ≠ Utf16.ofString key

/-- `object[key] === text` -/
def hasText (object : JsonObject) (key text : String) : Bool :=
  match object.get key with
  | some (.string value) => value = Utf16.ofString text
  | _ => false

end JsonObject

end CodexHost.Source.ProtocolCore
