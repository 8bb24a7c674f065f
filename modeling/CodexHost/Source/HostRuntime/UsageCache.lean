import CodexHost.Source.HarnessAdapter.UsageStatistics

/-!
# Cached usage entries

`packages/host-runtime/src/usage-statistics.ts`: the positional form of an entry in the cache file.
-/
namespace CodexHost.Source.HostRuntime.UsageCache
open Foundation Source.HarnessAdapter.UsageStatistics

variable {N : Type}

/-- `value ?? null` -/
def orNull {α : Type} (write : α → Json N) : Option α → Json N
  | some value => write value
  | none => .null

def compact (entry : HarnessUsageEntry N) : Json N :=
  .array [.string entry.id, .number entry.occurredAtMs, orNull .string entry.model,
    .number entry.inputTokens, orNull .number entry.cachedInputTokens,
    orNull .number entry.cacheWriteInputTokens, orNull .number entry.cacheWrite1hInputTokens,
    .number entry.outputTokens, orNull .number entry.reasoningOutputTokens,
    orNull .string entry.sessionId, orNull .string entry.cwd, orNull .number entry.costUsd,
    orNull .number entry.credits, .bool entry.tokensUnknown, orNull .string entry.sessionTitle]

def field (key : String) (value : Json N) : List (Utf16 × Json N) := [(Utf16.ofString key, value)]

/-- `...(value !== null ? { [key]: value } : {})` -/
def unlessNull (key : String) : Json N → List (Utf16 × Json N)
  | .null => []
  | value => field key value

/-- `...(value === true ? { [key]: value } : {})` -/
def ifTrue (key : String) : Json N → List (Utf16 × Json N)
  | .bool true => field key (.bool true)
  | _ => []

def expand (numbers : Numbers N) : Json N → Option (HarnessUsageEntry N)
  | .array [id, occurredAtMs, model, input, cached, written, written1h, output, reasoning, sessionId, cwd,
      costUsd, credits, tokensUnknown, sessionTitle] =>
    parseHarnessUsageEntry numbers (.object (
      field "id" id ++ field "occurredAtMs" occurredAtMs ++ unlessNull "model" model ++
      field "inputTokens" input ++ unlessNull "cachedInputTokens" cached ++
      unlessNull "cacheWriteInputTokens" written ++ unlessNull "cacheWrite1hInputTokens" written1h ++
      field "outputTokens" output ++ unlessNull "reasoningOutputTokens" reasoning ++
      unlessNull "sessionId" sessionId ++ unlessNull "cwd" cwd ++ unlessNull "costUsd" costUsd ++
      unlessNull "credits" credits ++ ifTrue "tokensUnknown" tokensUnknown ++
      unlessNull "sessionTitle" sessionTitle))
  | _ => none

end CodexHost.Source.HostRuntime.UsageCache
