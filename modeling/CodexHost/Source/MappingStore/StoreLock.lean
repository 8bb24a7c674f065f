import CodexHost.Foundation.Transition
import CodexHost.Source.MappingStore.Records

/-!
# The lock of the store directory

`packages/mapping-store/src/mapping-store.ts:222-345,1111-1123,1378-1417`: `#acquireLock`
with its takeover of a stale lock, `close()`, and `lockOwnerIsLive`. Processes share one
file name, `store.lock`; a lock file keeps its identity when it is renamed aside, and its
creator keeps writing to it through the open handle. Every awaited file operation is one
step of one process. What the operating system tells about a process ID is an answer that
comes with the step that asks.
-/
namespace CodexHost.Source.MappingStore
open Foundation Source.SharedContracts

/-- `Partial<LockRecord>` as the takeover reads it. A date that does not parse is `some none`;
an absent or empty text is `none`. -/
structure LockRecord where
  pid : Option Nat
  instanceId : Option String
  executablePath : Option String
  processStartedAt : Option (Option Timestamp)
  deriving DecidableEq, Repr

structure ProcessIdentity where
  executablePath : Option String
  startedAt : Option Timestamp
  deriving DecidableEq, Repr

inductive Platform where
  | win32 | darwin | other
  deriving DecidableEq, Repr

/-- `process.platform` and the lower case of the runtime. -/
structure LockMachine where
  platform : Platform
  toLowerCase : String → String

def LockMachine.normalizeExecutablePath (machine : LockMachine) (value : String) : String :=
  if machine.platform = .win32 then machine.toLowerCase (value.replace "/" "\\") else value

def LockMachine.isNodeExecutable (machine : LockMachine) (value : String) : Bool :=
  let normalized := machine.normalizeExecutablePath value
  normalized.endsWith "\\node.exe" || normalized.endsWith "/node"

/-- `Math.abs(actual - expected) > 5_000`, for a date that parses. -/
def startedElsewhere (recorded : Option (Option Timestamp)) (actual : Timestamp) : Bool :=
  match recorded with
  | some (some expected) => 5000 < (actual - expected).natAbs
  | _ => false

/-- The executable of a running process is not the recorded one. A record without a path is
an old one, which only a Node process can have written. -/
def runsElsewhere (machine : LockMachine) (running recorded : Option String) : Bool :=
  match running, recorded with
  | some running, some recorded =>
    machine.normalizeExecutablePath running ≠ machine.normalizeExecutablePath recorded
  | some running, none => !machine.isNodeExecutable running
  | none, _ => false

/-- `lockOwnerIsLive` in the process `pid`, `execPath`, `startedAt`, with the answer of
`processIdentity(lock.pid)`. -/
def lockOwnerIsLive (machine : LockMachine) (pid : Nat) (execPath : String) (startedAt : Timestamp)
    (identity : Option ProcessIdentity) (lock : LockRecord) : Bool :=
  let recordedPath := lock.executablePath.filter (· ≠ "")
  match lock.pid with
  | none => false
  | some owner =>
    if owner = pid then
      if recordedPath.any (machine.normalizeExecutablePath · ≠
          machine.normalizeExecutablePath execPath) then false
      else !startedElsewhere lock.processStartedAt startedAt
    else match identity with
      | none => false
      | some identity =>
        if machine.platform = .other then true
        else if runsElsewhere machine (identity.executablePath.filter (· ≠ "")) recordedPath then
          false
        else match identity.startedAt with
          | none => true
          | some actual => !startedElsewhere lock.processStartedAt actual

/-- The processes that may ever use the directory, and what is constant about each. -/
structure Contenders (P : Type) where
  pid : P → Nat
  /-- `randomUUID()` of the store. -/
  instanceId : P → String
  execPath : P → String
  startedAt : P → Timestamp
  instanceId_injective : Function.Injective instanceId
  execPath_nonempty : ∀ process, execPath process ≠ ""

/-- Where a process stands. The numbers name lock files: the one it created, or the one it
read. -/
inductive LockStage where
  | absent
  /-- Before an attempt, after a rejection or after `close()`. -/
  | idle
  /-- Created its lock file, and is about to write the owner. -/
  | opened (file : Nat)
  /-- Wrote the owner, and is about to return from the sync. -/
  | written (file : Nat)
  /-- Its first attempt met a lock file. -/
  | contended
  | read (seen : Option Nat) (existing : Option LockRecord)
  /-- Judged what it read stale, and is about to rename the lock file aside. -/
  | stale (seen : Option Nat) (existing : Option LockRecord)
  /-- About to make its second attempt. -/
  | retrying
  | holding (file : Nat)
  | closing
  /-- Read its own instance in the lock file, and is about to remove it. -/
  | removing (file : Nat)
  | dead
  deriving DecidableEq, Repr

def LockStage.live : LockStage → Bool
  | .absent | .dead => false
  | _ => true

/-- The lock file that the process acquires with, holds or is about to remove. -/
def LockStage.file? : LockStage → Option Nat
  | .opened file | .written file | .holding file | .removing file => some file
  | _ => none

/-- A lock file: who created it, and the owner in it once that was written whole. -/
structure LockFile (P : Type) where
  creator : Option P
  owner : Option LockRecord

structure LockWorld (P : Type) where
  stage : P → LockStage
  lockPath : Option Nat
  files : Nat → LockFile P
  /-- The number of the next lock file. -/
  next : Nat

inductive LockEvent (P : Type) where
  /-- A process starts. -/
  | start (process : P)
  /-- `open(lockPath, "wx")`, by either attempt. -/
  | openExclusive (process : P)
  /-- The open fails for another reason than an existing file, or a write or sync fails. -/
  | attemptFails (process : P)
  /-- The owner is written, with this reading of the process's own start. -/
  | writeOwner (process : P) (startedAt : Timestamp)
  /-- The sync ends and `#acquireLock` returns. -/
  | acquired (process : P)
  | readLock (process : P)
  /-- `lockOwnerIsLive`, with what the operating system answers and the own start. -/
  | judge (process : P) (identity : Option ProcessIdentity) (startedAt : Timestamp)
  | renameAside (process : P)
  | renameFails (process : P)
  | close (process : P)
  /-- The read of `close()`. -/
  | readBack (process : P)
  | unlink (process : P)
  | unlinkFails (process : P)
  | die (process : P)

section Steps
variable {P : Type} [DecidableEq P] (machine : LockMachine) (contenders : Contenders P)

def LockWorld.become (w : LockWorld P) (process : P) (stage : LockStage) : LockWorld P :=
  { w with stage := Function.update w.stage process stage }

def LockWorld.ownerAt (w : LockWorld P) : Option LockRecord :=
  w.lockPath.bind fun file => (w.files file).owner

/-- The lock record that a process writes. -/
def lockRecord (process : P) (startedAt : Timestamp) : LockRecord :=
  ⟨some (contenders.pid process), some (contenders.instanceId process),
    some (contenders.execPath process), some (some startedAt)⟩

/-- The world after the event; none when the process is not at that step. -/
def LockEvent.happen (w : LockWorld P) : LockEvent P → Option (LockWorld P)
  | .start process =>
    match w.stage process with
    | .absent => some (w.become process .idle)
    | _ => none
  | .openExclusive process =>
    let created : LockWorld P :=
      { w.become process (.opened w.next) with
        lockPath := some w.next
        files := Function.update w.files w.next ⟨some process, none⟩
        next := w.next + 1 }
    match w.stage process with
    | .idle => some (if w.lockPath.isSome then w.become process .contended else created)
    | .retrying => some (if w.lockPath.isSome then w.become process .idle else created)
    | _ => none
  | .attemptFails process =>
    match w.stage process with
    | .idle | .retrying | .opened _ | .written _ => some (w.become process .idle)
    | _ => none
  | .writeOwner process startedAt =>
    match w.stage process with
    | .opened file =>
      some { w.become process (.written file) with
        files := Function.update w.files file
          { w.files file with owner := some (lockRecord contenders process startedAt) } }
    | _ => none
  | .acquired process =>
    match w.stage process with
    | .written file => some (w.become process (.holding file))
    | _ => none
  | .readLock process =>
    match w.stage process with
    | .contended => some (w.become process (.read w.lockPath w.ownerAt))
    | _ => none
  | .judge process identity startedAt =>
    match w.stage process with
    | .read seen existing =>
      some (w.become process (if existing.any (lockOwnerIsLive machine (contenders.pid process)
            (contenders.execPath process) startedAt identity) then .idle
        else .stale seen existing))
    | _ => none
  | .renameAside process =>
    match w.stage process with
    | .stale _ _ => some { w.become process .retrying with lockPath := none }
    | _ => none
  | .renameFails process =>
    match w.stage process with
    | .stale _ _ => some (w.become process .retrying)
    | _ => none
  | .close process =>
    match w.stage process with
    | .idle | .holding _ => some (w.become process .closing)
    | _ => none
  | .readBack process =>
    match w.stage process, w.lockPath with
    | .closing, some file =>
      some (w.become process
        (if ((w.files file).owner.bind (·.instanceId)) = some (contenders.instanceId process) then
          .removing file
        else .idle))
    | .closing, none => some (w.become process .idle)
    | _, _ => none
  | .unlink process =>
    match w.stage process with
    | .removing _ => some { w.become process .idle with lockPath := none }
    | _ => none
  | .unlinkFails process =>
    match w.stage process with
    | .removing _ => some (w.become process .idle)
    | _ => none
  | .die process => if (w.stage process).live then some (w.become process .dead) else none

/-- What is expected of the operating system: live processes have different IDs; readings of
a process's start are at most 2.5 seconds off; and the identity of a live process's ID is
that process's. -/
def LockEvent.Truthful (w : LockWorld P) : LockEvent P → Prop
  | .start process => ∀ other, (w.stage other).live → other ≠ process →
    contenders.pid other ≠ contenders.pid process
  | .writeOwner process startedAt =>
    (startedAt - contenders.startedAt process).natAbs ≤ 2500
  | .judge process identity startedAt =>
    (startedAt - contenders.startedAt process).natAbs ≤ 2500 ∧
    ∀ other seen existing, (w.stage other).live → w.stage process = .read seen (some existing) →
      existing.pid = some (contenders.pid other) →
      ∃ known, identity = some known ∧
        (∀ path, known.executablePath = some path → machine.normalizeExecutablePath path =
          machine.normalizeExecutablePath (contenders.execPath other)) ∧
        ∀ actual, known.startedAt = some actual → (actual - contenders.startedAt other).natAbs ≤ 2500
  | _ => True

def LockStep (w : LockWorld P) (event : LockEvent P) (w' : LockWorld P) : Prop :=
  event.Truthful machine contenders w ∧ event.happen machine contenders w = some w'

end Steps

/-- No process has started; the directory may hold a lock file that none of them created. -/
structure LockWorld.Initial {P : Type} (contenders : Contenders P) (w : LockWorld P) : Prop where
  stage : ∀ process, w.stage process = .absent
  fresh : ∀ file, w.lockPath = some file → file < w.next
  creator : ∀ file, (w.files file).creator = none
  foreign : ∀ file owner process, (w.files file).owner = some owner →
    owner.instanceId ≠ some (contenders.instanceId process)

end CodexHost.Source.MappingStore
