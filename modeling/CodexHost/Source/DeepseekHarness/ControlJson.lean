import CodexHost.Foundation.JsonSize
import CodexHost.Source.DeepseekHarness.ControlStore

/-!
# The size of control JSON

`jsonStringBytes`, `measureJson` and `measureProjection` of
`packages/adapters/deepseek-harness/src/modern/control-store.ts`. A value may be an object that other values
share: objects live in a heap and are named by their addresses, so that a value may also contain itself.
-/
namespace CodexHost.Source.DeepseekHarness.ControlJson
open Foundation

def MAX_COLLECTION_ITEMS : Nat := 4096
def MAX_JSON_DEPTH : Nat := 64
def MAX_JSON_NODES : Nat := 100000

/-- The bytes of one code unit outside a surrogate pair. -/
def unitBytes (code : Nat) : Nat :=
  if code = 0x22 ∨ code = 0x5c ∨ code = 0x08 ∨ code = 0x0c ∨ code = 0x0a ∨ code = 0x0d ∨ code = 0x09 then 2
  else if code ≤ 0x1f ∨ (0xd800 ≤ code ∧ code ≤ 0xdfff) then 6
  else if code ≤ 0x7f then 1
  else if code ≤ 0x7ff then 2
  else 3

/-- The unit and the next one are a surrogate pair. -/
def isPair (code next : Nat) : Bool :=
  0xd800 ≤ code && code ≤ 0xdbff && 0xdc00 ≤ next && next ≤ 0xdfff

/-- The loop of `jsonStringBytes`, which stops early beyond the limit. -/
def stringBytesFrom (bytes : Nat) : Utf16 → Nat
  | [] => bytes
  | [unit] => bytes + unitBytes unit.toNat
  | unit :: next :: rest =>
    if isPair unit.toNat next.toNat then
      if bytes + 4 > MAX_SESSION_PROJECTION_BYTES then bytes + 4 else stringBytesFrom (bytes + 4) rest
    else if bytes + unitBytes unit.toNat > MAX_SESSION_PROJECTION_BYTES then bytes + unitBytes unit.toNat
    else stringBytesFrom (bytes + unitBytes unit.toNat) (next :: rest)

def jsonStringBytes (value : Utf16) : Nat := stringBytesFrom 2 value

/-- A finite number, as the text that `String` and `JSON.stringify` make of it. -/
structure FiniteNumber where
  text : List Char
  numeric : ∀ c ∈ text, Json.isNumberChar c = true

/-- A value of the program; `other` is undefined, a function, a symbol or a bigint. -/
inductive Value (A : Type) where
  | null
  | boolean (value : Bool)
  | string (value : Utf16)
  | number (value : FiniteNumber)
  | nonFinite
  | other
  | object (address : A)

/-- An object of the heap: an array, or a record with its own keys, of which `none` is a symbol. -/
inductive Object (A : Type) where
  | array (items : List (Value A))
  | record (isPlain : Bool) (members : List (Option Utf16 × Value A))

section Measuring
variable {A : Type} [DecidableEq A]

/-- What the recursion has counted and the objects it is inside of. -/
structure Measure (A : Type) where
  bytes : Nat
  nodes : Nat
  seen : List A

def boundExceeded : StoreError :=
  ⟨.resourceLimit, "DeepSeek Harness control JSON exceeded its bound"⟩

def arrayExceeded : StoreError :=
  ⟨.resourceLimit, "DeepSeek Harness control array exceeded its bound"⟩

def nonJson : StoreError :=
  ⟨.protocolError, "DeepSeek Harness control frame contains non-JSON data"⟩

def cyclicData : StoreError :=
  ⟨.protocolError, "DeepSeek Harness control frame contains cyclic data"⟩

def add (amount : Nat) (m : Measure A) : Except StoreError (Measure A) :=
  if m.bytes + amount > MAX_SESSION_PROJECTION_BYTES then .error byteLimitExceeded
  else .ok { m with bytes := m.bytes + amount }

/-- One after the other, up to the first error. -/
def inTurn {B : Type} (visit : B → Measure A → Except StoreError (Measure A)) :
    List B → Measure A → Except StoreError (Measure A)
  | [], m => .ok m
  | first :: rest, m => (visit first m).bind (inTurn visit rest)

def visitMember (visit : Value A → Measure A → Except StoreError (Measure A))
    (member : Option Utf16 × Value A) (m : Measure A) : Except StoreError (Measure A) :=
  match member.1 with
  | none => .error nonJson
  | some key => (add (jsonStringBytes key + 1) m).bind (visit member.2)

/-- What stands between `seen.add` and `seen.delete`. -/
def visitObject (visit : Value A → Measure A → Except StoreError (Measure A)) :
    Object A → Measure A → Except StoreError (Measure A)
  | .array items, m =>
    if items.length > MAX_COLLECTION_ITEMS then .error arrayExceeded
    else (add (2 + (items.length - 1)) m).bind (inTurn visit items)
  | .record false _, _ => .error nonJson
  | .record true members, m =>
    (add (2 + (members.length - 1)) m).bind (inTurn (visitMember visit) members)

variable (heap : A → Object A)

/-- `visit`; there are as many levels left as the depth may still grow, and none beyond the bound. -/
def visit : Nat → Value A → Measure A → Except StoreError (Measure A)
  | 0, _, _ => .error boundExceeded
  | levels + 1, candidate, m =>
    if m.nodes + 1 > MAX_JSON_NODES then .error boundExceeded
    else
      let m := { m with nodes := m.nodes + 1 }
      match candidate with
      | .null => add 4 m
      | .boolean value => add (if value then 4 else 5) m
      | .string value => add (jsonStringBytes value) m
      | .number value => add value.text.length m
      | .nonFinite => .error nonJson
      | .other => .error nonJson
      | .object address =>
        if address ∈ m.seen then .error cyclicData
        else (visitObject (visit levels) (heap address) { m with seen := address :: m.seen }).map
          fun m => { m with seen := m.seen.erase address }

/-- `measureJson`: the bytes, and the nodes of the budget after it. -/
def measureJson (value : Value A) (nodes : Nat) : Except StoreError (Nat × Nat) :=
  (visit heap (MAX_JSON_DEPTH + 1) value { bytes := 0, nodes, seen := [] }).map fun m => (m.bytes, m.nodes)

def measureProjection (key : Utf16) (value : Value A) (nodes : Nat) : Except StoreError (Nat × Nat) :=
  (measureJson heap value nodes).map fun measured => (jsonStringBytes key + 1 + measured.1, measured.2)

end Measuring

end CodexHost.Source.DeepseekHarness.ControlJson
