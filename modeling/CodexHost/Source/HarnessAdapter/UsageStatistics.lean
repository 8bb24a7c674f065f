import CodexHost.Foundation.Json

/-!
# Usage entries of a Harness

`packages/harness-adapter/src/usage-statistics.ts`: the session title that the Host shows, and the
check of an entry that an Adapter has read. What ECMAScript does with numbers is a parameter.
-/
namespace CodexHost.Source.HarnessAdapter.UsageStatistics
open Foundation

/-- Numbers, with their texts. The texts of finite numbers read back. -/
structure Numbers (N : Type) where
  format : NumberFormat N
  isFinite : N → Bool
  isNegative : N → Bool
  safeInteger : N → Option Int
  faithful : ∀ value, isFinite value = true → Json.Faithful format value
  safe_finite : ∀ value integer, safeInteger value = some integer → isFinite value = true

/-- The code units that `\\s` matches. -/
def isWhiteSpace (unit : UInt16) : Bool :=
  (9 ≤ unit && unit ≤ 13) || unit = 0x20 || unit = 0xA0 || unit = 0x1680 ||
    (0x2000 ≤ unit && unit ≤ 0x200A) || unit = 0x2028 || unit = 0x2029 || unit = 0x202F ||
    unit = 0x205F || unit = 0x3000 || unit = 0xFEFF

def SPACE : UInt16 := 0x20

def ELLIPSIS : UInt16 := 0x2026

def MAX_SESSION_TITLE_LENGTH : Nat := 200

/-- One space for each run of white space; the flag says that the last unit was in such a run. -/
def collapse : Bool → Utf16 → Utf16
  | _, [] => []
  | inRun, unit :: rest =>
    if isWhiteSpace unit then
      if inRun then collapse true rest else SPACE :: collapse true rest
    else unit :: collapse false rest

def trimStart (value : Utf16) : Utf16 := value.dropWhile isWhiteSpace

def trimEnd (value : Utf16) : Utf16 := value.rdropWhile isWhiteSpace

/-- The loop over the code points, after this many code units. -/
def truncate (length : Nat) : Utf16 → Utf16
  | [] => []
  | [unit] => if length + 1 ≥ MAX_SESSION_TITLE_LENGTH then [] else [unit]
  | first :: second :: rest =>
    if Utf16.isHighSurrogate first && Utf16.isLowSurrogate second then
      if length + 2 ≥ MAX_SESSION_TITLE_LENGTH then []
      else first :: second :: truncate (length + 2) rest
    else if length + 1 ≥ MAX_SESSION_TITLE_LENGTH then []
    else first :: truncate (length + 1) (second :: rest)

def normalized (value : Utf16) : Utf16 :=
  trimEnd (trimStart (collapse false (value.filter (· ≠ 0))))

/-- `usageSessionTitle` of a string. -/
def titleOf (value : Utf16) : Option Utf16 :=
  let normalized := normalized value
  if normalized = [] then none
  else if normalized.length ≤ MAX_SESSION_TITLE_LENGTH then some normalized
  else some (trimEnd (truncate 0 normalized) ++ [ELLIPSIS])

def usageSessionTitle {N : Type} : Json N → Option Utf16
  | .string value => titleOf value
  | _ => none

def MAX_SESSION_ID_LENGTH : Nat := 512

def MAX_CWD_LENGTH : Nat := 4096

structure HarnessUsageEntry (N : Type) where
  id : Utf16
  occurredAtMs : N
  model : Option Utf16
  inputTokens : N
  cachedInputTokens : Option N
  cacheWriteInputTokens : Option N
  cacheWrite1hInputTokens : Option N
  outputTokens : N
  reasoningOutputTokens : Option N
  sessionId : Option Utf16
  sessionTitle : Option Utf16
  cwd : Option Utf16
  costUsd : Option N
  tokensUnknown : Bool
  credits : Option N

section Checks

def sessionIdOk (value : Utf16) : Bool := 0 < value.length && value.length ≤ MAX_SESSION_ID_LENGTH

/-- `/^[A-Za-z]:[\\\\/]/u` -/
def startsWithDrive : Utf16 → Bool
  | letter :: colon :: slash :: _ =>
    ((65 ≤ letter && letter ≤ 90) || (97 ≤ letter && letter ≤ 122)) && colon = 58 &&
      (slash = 92 || slash = 47)
  | _ => false

def cwdOk (value : Utf16) : Bool :=
  0 < value.length && value.length ≤ MAX_CWD_LENGTH && !value.contains 0 &&
    (value.head? = some 47 || startsWithDrive value || value.take 2 = [92, 92])

variable {N : Type} (numbers : Numbers N)

/-- A safe integer that is not negative. -/
def tokenCount (value : N) : Bool :=
  match numbers.safeInteger value with
  | some integer => 0 ≤ integer
  | none => false

def integer (value : N) : Int := (numbers.safeInteger value).getD 0

def amountOk (value : N) : Bool := numbers.isFinite value && !numbers.isNegative value

end Checks

section Parse
variable {N : Type} (numbers : Numbers N)

/-- A string that passes a check. -/
def text (ok : Utf16 → Bool) : Json N → Option Utf16
  | .string value => if ok value then some value else none
  | _ => none

/-- A number that passes a check. -/
def number (ok : N → Bool) : Json N → Option N
  | .number value => if ok value then some value else none
  | _ => none

def true? : Json N → Option Bool
  | .bool true => some true
  | _ => none

/-- A member that has to be there. -/
def required {α : Type} (read : Json N → Option α) (value : Option (Json N)) : Option α := value.bind read

/-- A member that may be undefined. -/
def unlessUndefined {α : Type} (read : Json N → Option α) : Option (Json N) → Option (Option α)
  | none => some none
  | some value => (read value).map some

/-- The entry in the members of an object. -/
def parseMembers (member : String → Option (Json N)) : Option (HarnessUsageEntry N) := do
  let count := number (tokenCount numbers)
  let id ← required (text fun value => value ≠ [] && value.length ≤ 512) (member "id")
  let occurredAtMs ← required (number fun value => tokenCount numbers value && integer numbers value ≠ 0)
    (member "occurredAtMs")
  let model ← unlessUndefined (text (· ≠ [])) (member "model")
  let inputTokens ← required count (member "inputTokens")
  let outputTokens ← required count (member "outputTokens")
  let cachedInputTokens ← unlessUndefined count (member "cachedInputTokens")
  let cacheWriteInputTokens ← unlessUndefined count (member "cacheWriteInputTokens")
  let cacheWrite1hInputTokens ← unlessUndefined count (member "cacheWrite1hInputTokens")
  let reasoningOutputTokens ← unlessUndefined count (member "reasoningOutputTokens")
  let cached := cachedInputTokens.elim 0 (integer numbers)
  let written := cacheWriteInputTokens.elim 0 (integer numbers)
  guard (cached + written ≤ integer numbers inputTokens)
  guard (cacheWrite1hInputTokens.elim 0 (integer numbers) ≤ written)
  guard (reasoningOutputTokens.elim 0 (integer numbers) ≤ integer numbers outputTokens)
  let sessionId ← unlessUndefined (text sessionIdOk) (member "sessionId")
  let cwd ← unlessUndefined (text cwdOk) (member "cwd")
  let sessionTitle ← unlessUndefined usageSessionTitle (member "sessionTitle")
  let tokensUnknown ← unlessUndefined true? (member "tokensUnknown")
  let costUsd ← unlessUndefined (number (amountOk numbers)) (member "costUsd")
  let credits ← unlessUndefined (number (amountOk numbers)) (member "credits")
  return { id, occurredAtMs, model, inputTokens, cachedInputTokens, cacheWriteInputTokens,
           cacheWrite1hInputTokens, outputTokens, reasoningOutputTokens, sessionId, sessionTitle, cwd,
           costUsd, tokensUnknown := tokensUnknown.getD false, credits }

/-- Nothing for what the Host must not count. -/
def parseHarnessUsageEntry : Json N → Option (HarnessUsageEntry N)
  | .object members => parseMembers numbers fun key => members.lookup (Utf16.ofString key)
  | _ => none

end Parse

end CodexHost.Source.HarnessAdapter.UsageStatistics
