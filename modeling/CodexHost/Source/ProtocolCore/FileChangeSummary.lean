import CodexHost.Foundation.LineEdits
import CodexHost.Foundation.OrderedMap

/-!
# Summaries of file changes

`packages/protocol-core/src/file-change-summary.ts`: one display entry per path, whose patches are composed
without the file. The `diff` library and `node:path` are parameters; a line object is a number.
-/
namespace CodexHost.Source.ProtocolCore.FileChangeSummary
open Foundation

abbrev Text := List Char

inductive ChangeKind where
  | add | update | delete
  deriving DecidableEq, Repr

structure HostFileChange where
  path : Text
  kind : ChangeKind
  unifiedDiff : Text
  /-- `diffScope === "fragment"` -/
  fragment : Bool
  deriving DecidableEq, Repr

structure Hunk where
  oldStart : Nat
  oldLines : Nat
  newStart : Nat
  newLines : Nat
  lines : List Text
  deriving DecidableEq, Repr

/-- `formatPatch`'s argument; both headers are empty. -/
structure FormattedPatch where
  oldFileName : Text
  newFileName : Text
  hunks : List Hunk
  deriving DecidableEq, Repr

/-- The `diff` library. `parsePatch` gives the hunks of every patch of a text, unless it throws. -/
structure DiffLibrary where
  parsePatch : Text → Option (List (List Hunk))
  diffArrays : (Nat → Nat → Bool) → List Nat → List Nat → List (DiffPart Nat)
  formatPatch : FormattedPatch → Text

structure Paths where
  win32Resolve : Text → Text → Text
  posixResolve : Text → Text → Text
  toLowerCase : Text → Text

/-- `/^[a-z]:[/\\]/i` -/
def isWindows : Text → Bool
  | drive :: ':' :: separator :: _ => drive.isAlpha && (separator = '/' || separator = '\\')
  | _ => false

def filePathKey (paths : Paths) (file cwd : Text) : Text :=
  let windows := isWindows cwd || isWindows file
  let resolve := if windows then paths.win32Resolve else paths.posixResolve
  let resolved := (resolve cwd file).map fun c => if c = '\\' then '/' else c
  if windows then paths.toLowerCase resolved else resolved

/-- The lines of the file before and after, and the texts that native patches have supplied. -/
structure Composition where
  original : List Nat
  current : List Nat
  texts : Nat → Option Text
  next : Nat

namespace Composition

def initial : Composition := ⟨[], [], fun _ => none, 0⟩

/-- Lines whose text is unknown, up to this many in the current file. -/
def extend (lines : Nat) (s : Composition) : Composition :=
  let unknown := List.range' s.next (lines - s.current.length)
  { s with
    original := s.original ++ unknown, current := s.current ++ unknown, next := s.next + unknown.length }

def known (line : Nat) (text : Text) (s : Composition) : Composition :=
  { s with texts := Function.update s.texts line (some text) }

/-- A new line object. -/
def supply (text : Text) (s : Composition) : Composition :=
  { s.known s.next text with next := s.next + 1 }

end Composition

/-- `hunk.lines[i + 1]?.startsWith("\\")` -/
def marksEnd (rest : List Text) : Bool := rest.head?.any fun next => next.head? = some '\\'

/-- The text of an entry, given the entries behind it. -/
def entryText (entry : Text) (rest : List Text) : Text := entry.tail ++ if marksEnd rest then [] else ['\n']

/-- The replacement of the current lines from the start of a hunk on. -/
def replaceLines : List Text → List Nat → Composition → Option (List Nat × Composition)
  | [], _, s => some ([], s)
  | entry :: rest, current, s =>
    let operation := entry.head?
    if operation = some '\\' then replaceLines rest current s
    else
      let text := entryText entry rest
      if operation = some '+' then
        (replaceLines rest current (s.supply text)).map fun replaced => (s.next :: replaced.1, replaced.2)
      else
        match current with
        | [] => none
        | line :: current =>
          if (s.texts line).any (· ≠ text) then none
          else
            (replaceLines rest current (s.known line text)).map fun replaced =>
              (if operation = some ' ' then line :: replaced.1 else replaced.1, replaced.2)

/-- One hunk. Where `oldStart` is 0, the start is -1: no line is there, and lines are spliced in front of
the last one. -/
def composeHunk (s : Composition) (hunk : Hunk) : Option Composition :=
  let s := s.extend (hunk.oldStart + hunk.oldLines - 1)
  let start := if hunk.oldStart = 0 then s.current.length - 1 else hunk.oldStart - 1
  let lines := if hunk.oldStart = 0 then [] else s.current.drop start
  (replaceLines hunk.lines lines s).map fun replaced =>
    { replaced.2 with current := s.current.take start ++ replaced.1 ++ s.current.drop (start + hunk.oldLines) }

section Composing
variable (diff : DiffLibrary)

/-- The hunks of the one patch of a change. -/
def onePatch (change : HostFileChange) : Option (List Hunk) :=
  match diff.parsePatch change.unifiedDiff with
  | some [patch] => some patch
  | _ => none

def composeChange (s : Composition) (change : HostFileChange) : Option Composition :=
  (onePatch diff change).bind fun hunks => hunks.reverse.foldlM composeHunk s

/-- `a === b || (a.text !== undefined && a.text === b.text)` -/
def sameLine (texts : Nat → Option Text) (a b : Nat) : Bool := a = b || (texts a).isSome && texts a = texts b

/-- `"\\ No newline at end of file"` -/
def noNewline : Text := "\\ No newline at end of file".toList

/-- The entries of lines whose texts are known. -/
def entriesOf (operation : Char) (texts : Nat → Option Text) : List Nat → Option (List Text)
  | [] => some []
  | line :: rest =>
    match texts line with
    | none => none
    | some text =>
      (entriesOf operation texts rest).map fun entries =>
        if text.getLast? = some '\n' then (operation :: text.dropLast) :: entries
        else (operation :: text) :: noNewline :: entries

/-- The hunks of the parts; `hunk` is the one that the next part may continue. -/
def hunksOf (texts : Nat → Option Text) : List (DiffPart Nat) → Nat → Nat → Option Hunk → Option (List Hunk)
  | [], _, _, hunk => some hunk.toList
  | .common count :: parts, oldStart, newStart, hunk =>
    (hunksOf texts parts (oldStart + count) (newStart + count) none).map (hunk.toList ++ ·)
  | .removed lines :: parts, oldStart, newStart, hunk =>
    let hunk := hunk.getD ⟨oldStart, 0, newStart, 0, []⟩
    (entriesOf '-' texts lines).bind fun entries =>
      hunksOf texts parts (oldStart + lines.length) newStart
        (some { hunk with oldLines := hunk.oldLines + lines.length, lines := hunk.lines ++ entries })
  | .added lines :: parts, oldStart, newStart, hunk =>
    let hunk := hunk.getD ⟨oldStart, 0, newStart, 0, []⟩
    (entriesOf '+' texts lines).bind fun entries =>
      hunksOf texts parts oldStart (newStart + lines.length)
        (some { hunk with newLines := hunk.newLines + lines.length, lines := hunk.lines ++ entries })

def composePatches (changes : List HostFileChange) : Option (List Hunk) :=
  if changes.any (·.fragment) then none
  else
    (changes.foldlM (composeChange diff) .initial).bind fun s =>
      hunksOf s.texts (diff.diffArrays (sameLine s.texts) s.original s.current) 1 1 none

/-- `text.slice(text.indexOf("@@"))`, where there is one. -/
def fromHunks : Text → Option Text
  | [] => none
  | c :: rest => if "@@".toList.isPrefixOf (c :: rest) then some (c :: rest) else fromHunks rest

/-- The entry of the changes of one path. -/
def summarizeGroup (group : List HostFileChange) : List HostFileChange :=
  match group with
  | [] => []
  | [first] => [first]
  | first :: rest =>
    let last := rest.getLast?.getD first
    let kind := if last.kind = .delete then .delete else if first.kind = .add then .add else .update
    match composePatches diff group with
    | some hunks =>
      if hunks.length = 0 ∧ ((first.kind ≠ .add) ↔ (last.kind ≠ .delete)) then []
      else
        [{ path := first.path
           kind
           unifiedDiff := diff.formatPatch
             { oldFileName := if first.kind = .add then "/dev/null".toList else "a/".toList ++ first.path
               newFileName := if last.kind = .delete then "/dev/null".toList else "b/".toList ++ first.path
               hunks }
           fragment := false }]
    | none =>
      -- Fragments without a common coordinate system cannot yield a net patch.
      let bodies := group.map fun change => (fromHunks change.unifiedDiff).getD change.unifiedDiff
      let header := (fromHunks first.unifiedDiff).elim [] fun body =>
        first.unifiedDiff.take (first.unifiedDiff.length - body.length)
      [{ path := first.path, kind, unifiedDiff := header ++ ['\n'].intercalate bodies, fragment := true }]

/-- The changes of every path, in their order. -/
def groupsOf (paths : Paths) (changes : List HostFileChange) (cwd : Text) :
    OrderedMap Text (List HostFileChange) :=
  changes.foldl (fun groups change =>
    let key := filePathKey paths change.path cwd
    groups.set key ((groups.get? key).getD [] ++ [change])) .empty

def summarizeFileChanges (paths : Paths) (changes : List HostFileChange) (cwd : Text) : List HostFileChange :=
  (groupsOf paths changes cwd).values.flatMap (summarizeGroup diff)

end Composing

end CodexHost.Source.ProtocolCore.FileChangeSummary
