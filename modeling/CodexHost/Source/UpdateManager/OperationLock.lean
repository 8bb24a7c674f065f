import CodexHost.Foundation.Transition

/-!
# The lock of an update operation

`packages/update-manager/src/operation-state.ts`: `acquireUpdateOperationLock`, the lock that it
returns, and `recoverUpdateOperationLock`, step by step on the lock file. A file is an inode with
its content; the lock path names at most one. An open handle keeps its inode when the name goes.
-/
namespace CodexHost.Source.UpdateManager
open Foundation

structure Path where
  text : String
  isAbsolute : Bool
  deriving DecidableEq, Repr

/-- What is read of the JSON of a lock file. -/
structure LockRecord where
  /-- Only if it is a number; 0 stands for one that is no process ID. -/
  ownerPid : Option Nat
  statusPath : Option Path
  remoteUpdate : Bool
  deriving DecidableEq, Repr

/-- A file. `operation` is the one whose lock it is, and serves the properties only. -/
structure Inode where
  /-- Nothing while it is not JSON. -/
  content : Option LockRecord
  operation : Option Nat
  deriving DecidableEq, Repr

inductive Phase where
  /-- The lock file is created, not yet written. -/
  | opened
  | held
  /-- `released` is set, the file not yet removed. -/
  | releasing
  | released
  deriving DecidableEq, Repr

/-- An operation that created the lock file. The last five fields serve the properties only. -/
structure Operation where
  /-- The process that runs it. -/
  pid : Nat
  phase : Phase
  /-- The inode that `open` returned. -/
  handle : Nat
  operationStatusPath : Option Path
  /-- `setStatusPath` has opened this inode. -/
  writing : Option (Nat × Path)
  /-- `transferTo` has written this to its temporary file. -/
  transferring : Option LockRecord
  /-- The process that the lock names, and whether it has exited since. -/
  owner : Nat
  ownerGone : Bool
  statusPaths : List Path
  /-- A status of the operation has been terminal. -/
  ended : Bool
  /-- `recoverUpdateOperationLock` has removed the lock file. -/
  lost : Bool
  deriving DecidableEq, Repr

/-- A call of `recoverUpdateOperationLock`. The inode that was read serves the properties only. -/
inductive Recovery where
  | found
  | read (inode : Nat) (record : LockRecord)
  /-- The lock is stale: `rm` is under way. -/
  | removing (inode : Nat)
  | done
  deriving DecidableEq, Repr

/-- A removal of the lock file, with the inode that it was. -/
inductive Removal where
  | recovered (read removed : Nat)
  | released (operation removed : Nat)
  deriving DecidableEq, Repr

structure State where
  inode : Nat → Inode
  nextInode : Nat
  /-- The inode that the lock path names. -/
  lock : Option Nat
  alive : List Nat
  /-- Whether the status in a file is terminal; nothing if there is none. -/
  status : Path → Option Bool
  operation : Nat → Operation
  nextOperation : Nat
  recovery : Nat → Recovery
  nextRecovery : Nat
  removals : List Removal

/-- Before any operation, perhaps with a lock file that was left. -/
def initial (left : Option (Option LockRecord)) (status : Path → Option Bool) (alive : List Nat) : State where
  inode _ := ⟨left.join, none⟩
  nextInode := 1
  lock := left.map fun _ => 0
  alive := alive
  status := status
  operation _ := ⟨0, .released, 0, none, none, none, 0, true, [], false, false⟩
  nextOperation := 0
  recovery _ := .done
  nextRecovery := 0
  removals := []

namespace State
variable (s : State)

def processIsAlive (pid : Nat) : Bool := 0 < pid && pid ∈ s.alive

def setOperation (number : Nat) (operation : Operation) : State :=
  { s with operation := Function.update s.operation number operation }

def setRecovery (number : Nat) (recovery : Recovery) : State :=
  { s with recovery := Function.update s.recovery number recovery }

/-- The content of an inode. -/
def writeInode (inode : Nat) (content : Option LockRecord) : State :=
  { s with inode := Function.update s.inode inode { s.inode inode with content := content } }

/-- A new file at the lock path. -/
def createLock (content : Option LockRecord) (operation : Nat) : State :=
  { s with
    inode := Function.update s.inode s.nextInode ⟨content, some operation⟩
    nextInode := s.nextInode + 1
    lock := some s.nextInode }

/-- A process has exited: the operations that name it have lost their owner. -/
def exit (pid : Nat) : State :=
  { s with
    alive := s.alive.filter (· ≠ pid)
    operation := fun number =>
      { s.operation number with
        ownerGone := (s.operation number).ownerGone || decide ((s.operation number).owner = pid) } }

/-- A status file is written, or is gone: an operation whose status is terminal has ended. -/
def writeStatus (path : Path) (terminal : Option Bool) : State :=
  { s with
    status := Function.update s.status path terminal
    operation := fun number =>
      { s.operation number with
        ended := (s.operation number).ended ||
          (terminal = some true && path ∈ (s.operation number).statusPaths) } }

/-- `open(lockPath, "wx")`; nothing happens if the file exists. -/
def acquire (pid : Nat) : State :=
  if s.lock.isSome then s
  else
    { (s.createLock none s.nextOperation).setOperation s.nextOperation
        ⟨pid, .opened, s.nextInode, none, none, none, pid, false, [], false, false⟩ with
      nextOperation := s.nextOperation + 1 }

/-- The first content of the lock file. -/
def write (number : Nat) : State :=
  (s.writeInode (s.operation number).handle
    (some ⟨some (s.operation number).pid, none, false⟩)).setOperation number
    { s.operation number with phase := .held }

/-- `writeFile` opens the lock file and empties it; it creates one that is missing. -/
def openLock (number : Nat) : State × Nat :=
  match s.lock with
  | some inode => (s.writeInode inode none, inode)
  | none => (s.createLock none number, s.nextInode)

/-- `setStatusPath`, up to the write. -/
def setStatusPath (number : Nat) (path : Path) : State :=
  (s.openLock number).1.setOperation number
    { s.operation number with writing := some ((s.openLock number).2, path) }

/-- `setStatusPath` writes the lock file that it has opened. -/
def writeStatusPath (number inode : Nat) (path : Path) : State :=
  let operation := s.operation number
  (s.writeInode inode (some ⟨some operation.pid, some path, false⟩)).setOperation number { operation with
      operationStatusPath := some path
      writing := none
      owner := if s.lock = some inode then operation.pid else operation.owner
      ownerGone :=
        if s.lock = some inode && operation.owner ≠ operation.pid then
          !s.processIsAlive operation.pid
        else operation.ownerGone
      statusPaths := path :: operation.statusPaths
      ended := operation.ended || s.status path = some true }

/-- `rename(temporary, lockPath)` -/
def rename (number : Nat) (record : LockRecord) : State :=
  (s.createLock (some record) number).setOperation number { s.operation number with
      transferring := none
      owner := record.ownerPid.getD 0
      ownerGone := !s.processIsAlive (record.ownerPid.getD 0) }

/-- `rm(lockPath, { force: true })` -/
def remove (removal : Nat → Removal) : State :=
  match s.lock with
  | none => s
  | some inode => { s with lock := none, removals := s.removals ++ [removal inode] }

/-- The operation whose lock file the path names has lost it. -/
def loseLock : State :=
  match s.lock.bind fun inode => (s.inode inode).operation with
  | some number => s.setOperation number { s.operation number with lost := true }
  | none => s

/-- What `recoverUpdateOperationLock` does with the lock file that it reads. -/
def judge : Recovery :=
  match s.lock with
  | none => .done
  | some inode =>
    match (s.inode inode).content with
    | none => .done
    | some record =>
      if record.remoteUpdate && record.ownerPid.any fun pid => 0 < pid && !s.processIsAlive pid then
        .removing inode
      else if record.statusPath.any (·.isAbsolute) then .read inode record
      else .done

/-- What it does with the status that the record names. -/
def judgeStatus (inode : Nat) (record : LockRecord) : Recovery :=
  match record.statusPath.bind s.status with
  | none => .done
  | some terminal =>
    if terminal || record.ownerPid.all fun pid => !s.processIsAlive pid then .removing inode
    else .done

end State

inductive Event where
  | start (pid : Nat)
  | exit (pid : Nat)
  | status (path : Path) (terminal : Option Bool)
  | acquire (pid : Nat)
  | write (operation : Nat)
  | setStatusPath (operation : Nat) (path : Path)
  | statusPathWritten (operation : Nat)
  | transferTo (operation pid : Nat)
  | rename (operation : Nat)
  | release (operation : Nat)
  | remove (operation : Nat)
  /-- `recoverUpdateOperationLock` finds the lock file. -/
  | recover
  | readLock (recovery : Nat)
  | readStatus (recovery : Nat)
  | removeLock (recovery : Nat)
  /-- The process of the call exits, or the call fails. -/
  | abandon (recovery : Nat)
  deriving DecidableEq, Repr

/-- The state after the event; none when the event is not due. -/
def step (s : State) : Event → Option State
  | .start pid => some { s with alive := pid :: s.alive }
  | .exit pid => some (s.exit pid)
  | .status path terminal => some (s.writeStatus path terminal)
  | .acquire pid => if s.processIsAlive pid then some (s.acquire pid) else none
  | .write number =>
    if (s.operation number).phase = .opened then some (s.write number) else none
  | .setStatusPath number path =>
    if (s.operation number).phase = .held && path.isAbsolute && (s.operation number).writing.isNone then
      some (s.setStatusPath number path)
    else none
  | .statusPathWritten number =>
    (s.operation number).writing.map fun writing => s.writeStatusPath number writing.1 writing.2
  | .transferTo number pid =>
    if (s.operation number).phase = .held && 0 < pid && (s.operation number).transferring.isNone then
      (s.operation number).operationStatusPath.map fun path =>
        s.setOperation number { s.operation number with
          transferring := some ⟨some pid, some path, false⟩ }
    else none
  | .rename number => (s.operation number).transferring.map (s.rename number)
  | .release number =>
    if (s.operation number).phase = .held then
      some (s.setOperation number { s.operation number with phase := .releasing })
    else none
  | .remove number =>
    if (s.operation number).phase = .releasing then
      some ((s.remove (.released number)).setOperation number { s.operation number with phase := .released })
    else none
  | .recover =>
    some (if s.lock.isSome then
      { s.setRecovery s.nextRecovery .found with nextRecovery := s.nextRecovery + 1 } else s)
  | .readLock number =>
    if s.recovery number = .found then some (s.setRecovery number s.judge) else none
  | .readStatus number =>
    match s.recovery number with
    | .read inode record => some (s.setRecovery number (s.judgeStatus inode record))
    | _ => none
  | .removeLock number =>
    match s.recovery number with
    | .removing inode => some ((s.loseLock.remove (.recovered inode)).setRecovery number .done)
    | _ => none
  | .abandon number => some (s.setRecovery number .done)

end CodexHost.Source.UpdateManager
