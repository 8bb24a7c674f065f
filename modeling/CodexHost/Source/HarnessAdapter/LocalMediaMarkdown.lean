import CodexHost.Foundation.JsonString

/-!
# The stream of rewritten agent text

`LocalMediaMarkdownStream`, `packages/harness-adapter/src/local-media-markdown.ts:58-142`. The rewriting
itself, over the files that exist at that moment, is given with each call.
-/
namespace CodexHost.Source.HarnessAdapter.LocalMediaMarkdown
open Foundation

/-- The projected text, and the length of the native text that it covers. -/
structure LocalMediaProjection where
  text : Utf16
  consumed : Nat
  deriving DecidableEq, Repr

/-- `projectLocalMedia` of a native text; the flag is `holdIncomplete`. -/
abbrev ProjectLocalMedia := Utf16 → Bool → LocalMediaProjection

structure LocalMediaMarkdownStream where
  native : Utf16
  /-- Published so far. -/
  text : Utf16
  consumed : Nat
  verbatim : Bool
  deriving DecidableEq, Repr

namespace LocalMediaMarkdownStream

def initial : LocalMediaMarkdownStream := ⟨[], [], 0, false⟩

variable (project : ProjectLocalMedia)

/-- What becomes publishable. -/
def advance (holdIncomplete : Bool) (stream : LocalMediaMarkdownStream) : Utf16 × LocalMediaMarkdownStream :=
  let next := project stream.native holdIncomplete
  if !stream.verbatim && stream.text.isPrefixOf next.text then
    let delta := next.text.drop stream.text.length
    (delta, { stream with text := stream.text ++ delta, consumed := next.consumed })
  else
    -- Published text cannot be retracted, so the native text goes on verbatim.
    let delta := stream.native.drop stream.consumed
    (delta, { stream with text := stream.text ++ delta, consumed := stream.native.length, verbatim := true })

def append (text : Utf16) (stream : LocalMediaMarkdownStream) : Utf16 × LocalMediaMarkdownStream :=
  advance project true { stream with native := stream.native ++ text }

def flush (stream : LocalMediaMarkdownStream) : Utf16 × LocalMediaMarkdownStream :=
  advance project false stream

end LocalMediaMarkdownStream

/-- `createAgentMedia`, `packages/protocol-core/src/codex-agent-media.ts` -/
def createAgentMedia (project : ProjectLocalMedia) (text : Utf16) : LocalMediaMarkdownStream :=
  (LocalMediaMarkdownStream.initial.append project text).2

end CodexHost.Source.HarnessAdapter.LocalMediaMarkdown
