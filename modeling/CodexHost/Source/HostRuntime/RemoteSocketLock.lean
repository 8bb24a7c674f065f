import CodexHost.Foundation.OrderedMap
import CodexHost.Foundation.Transition
import CodexHost.Source.SharedContracts

/-!
# The lock of the app-server socket

`packages/host-runtime/src/remote-socket-lock.ts`: the ticket lock that serializes bind and
unlink of a control socket. Each call owns one register `owner-<token>.json` in a shared
directory, replaces it by renaming a written temporary over it, and reads the registers of
the others from a listing that is not atomic. Every awaited file operation is one step of one
call. The directory here holds its regular files: a reader skips everything else.
-/
namespace CodexHost.Source.HostRuntime
open Foundation Source.SharedContracts

def lockRetryCount : Nat := 200

def lockMalformedGraceMs : Int := 1000

def lockMaxAgeMs : Int := 30000

def lockEntryPrefix : String := "owner-"

def lockEntrySuffix : String := ".json"

structure RemoteSocketLockRecord where
  ownerToken : String
  pid : Int
  bootTimeSeconds : Int
  choosing : Bool
  ticket : Nat
  deriving DecidableEq, Repr

def validOwnerFields (record : RemoteSocketLockRecord) : Bool :=
  record.ownerToken ≠ "" && record.pid ≤ maxSafeInteger && 0 < record.pid &&
    record.bootTimeSeconds.natAbs ≤ maxSafeInteger

/-- `source` is what the text holds when it is an object of version 2 whose fields have the
types of the record. -/
def parseLockRecord (source : Option RemoteSocketLockRecord) : Option RemoteSocketLockRecord :=
  source.filter fun record =>
    validOwnerFields record && record.ticket ≤ maxSafeInteger &&
      (if record.choosing then record.ticket = 0 else record.ticket ≠ 0)

/-- What the clock and the process table answer. -/
structure LockReading where
  /-- `Date.now()` -/
  now : Int
  currentBootTimeSeconds : Int
  processIsRunning : Int → Bool

def ownerIsAbandoned (reading : LockReading) (record : RemoteSocketLockRecord) (mtimeMs : Int) : Bool :=
  if 5 < (record.bootTimeSeconds - reading.currentBootTimeSeconds).natAbs then true
  else if lockMaxAgeMs ≤ max 0 (reading.now - mtimeMs) then true
  else !reading.processIsRunning record.pid

def lockEntryName (ownerToken : String) : String := lockEntryPrefix ++ ownerToken ++ lockEntrySuffix

def isLockEntryName (name : String) : Bool :=
  lockEntryPrefix.toList.isPrefixOf name.toList && lockEntrySuffix.toList.isSuffixOf name.toList

/-- A file of the lock directory. A file is never written again under its name. -/
structure LockEntryFile where
  source : Option RemoteSocketLockRecord
  /-- Device and inode. -/
  identity : Nat
  mtimeMs : Int
  deriving DecidableEq, Repr

structure LockEntrySnapshot where
  filePath : String
  source : Option RemoteSocketLockRecord
  identity : Nat
  mtimeMs : Int
  record : Option RemoteSocketLockRecord
  deriving DecidableEq, Repr

/-- What `readLockEntrySnapshot` returns after `lstat` answered with `metadata` and the read
found `file`. -/
def lockEntrySnapshot (filePath : String) (metadata file : LockEntryFile) : LockEntrySnapshot :=
  { filePath := filePath
    source := file.source
    identity := metadata.identity
    mtimeMs := metadata.mtimeMs
    record := (parseLockRecord file.source).filter (filePath = lockEntryName ·.ownerToken) }

def lockEntryIsAbandoned (reading : LockReading) (snapshot : LockEntrySnapshot) : Bool :=
  match snapshot.record with
  | some record => ownerIsAbandoned reading record snapshot.mtimeMs
  | none => lockMalformedGraceMs ≤ max 0 (reading.now - snapshot.mtimeMs)

/-- The reread of `removeAbandonedLockEntry` found the same abandoned file. -/
def stillAbandoned (reading : LockReading) (current snapshot : LockEntrySnapshot) : Bool :=
  current.source = snapshot.source && current.identity = snapshot.identity &&
    lockEntryIsAbandoned reading current

def recordHasPriority (left right : RemoteSocketLockRecord) : Bool :=
  left.ticket < right.ticket ||
    (left.ticket = right.ticket && EcmaString.lessThan left.ownerToken right.ownerToken)

/-- `maximumTicket` of the choosing catalog. -/
def maximumTicket (entries : List LockEntrySnapshot) : Nat :=
  entries.foldl (fun maximum entry => max maximum ((entry.record.map (·.ticket)).getD 0)) 0

def ownsPublishedEntry (ownerToken : String) (entries : List LockEntrySnapshot) : Bool :=
  entries.any fun entry => entry.record.map (·.ownerToken) = some ownerToken

def blockedByBakery (own : RemoteSocketLockRecord) (entries : List LockEntrySnapshot) : Bool :=
  entries.any fun entry =>
    match entry.record with
    | none => false
    | some record =>
      record.ownerToken ≠ own.ownerToken && (record.choosing || recordHasPriority record own)

/-- The answer of `legacyLockState`. -/
inductive LegacyLockState where
  | absent | abandoned | blocking
  deriving DecidableEq, Repr

/-- The two uses of a catalog: for the ticket, and in an attempt to go ahead with it. -/
inductive CatalogUse where
  | choosing
  | waiting (ticket attempt : Nat)
  deriving DecidableEq, Repr

/-- How far `readLockEntryCatalog` is with the first of its names. -/
inductive EntryProgress where
  | unread
  | found (metadata : LockEntryFile)
  /-- Judged abandoned, and about to be reread. -/
  | suspected (snapshot : LockEntrySnapshot)
  | suspectFound (snapshot : LockEntrySnapshot) (metadata : LockEntryFile)
  | condemned
  deriving DecidableEq, Repr

/-- `readLockEntryCatalog` after its listing: the names it has not dealt with, and what it
returns so far. -/
structure CatalogScan where
  names : List String
  progress : EntryProgress
  entries : List LockEntrySnapshot
  unsettled : Bool
  deriving DecidableEq, Repr

def CatalogScan.next (scan : CatalogScan) : CatalogScan :=
  { scan with names := scan.names.tail, progress := .unread }

def CatalogScan.unsettle (scan : CatalogScan) : CatalogScan := { scan.next with unsettled := true }

/-- Deals with a snapshot that is not abandoned. -/
def CatalogScan.take (scan : CatalogScan) (snapshot : LockEntrySnapshot) : CatalogScan :=
  if snapshot.record = none then scan.unsettle
  else { scan.next with entries := scan.entries ++ [snapshot] }

/-- The snapshot is null. -/
def CatalogScan.vanish (scan : CatalogScan) : CatalogScan :=
  match scan.progress with
  | .unread | .found _ => scan.next
  | _ => scan.unsettle

/-- Where a call of `withRemoteAppServerSocketInitializationLock` stands. -/
inductive SocketLockStage where
  | absent
  /-- About to publish that it is choosing. -/
  | announcing
  /-- About to list the directory. -/
  | surveying (use : CatalogUse)
  | listing (use : CatalogUse) (names : List String)
  | reading (use : CatalogUse) (scan : CatalogScan)
  /-- About to publish its ticket. -/
  | ticketing (ticket : Nat)
  /-- About to create the legacy marker. -/
  | guarding (ticket attempt : Nat)
  /-- Created the marker, and asks for its identity. -/
  | openedGuard (ticket guard : Nat)
  | writingGuard (ticket guard : Nat)
  /-- Met a legacy marker. -/
  | inspecting (ticket attempt : Nat)
  /-- Runs the protected action. -/
  | acting (ticket : Nat) (guard : Option Nat)
  | releasingGuard (guard : Nat)
  | unlinkingGuard
  | delaying (ticket attempt : Nat)
  /-- In `removeOwnedLockEntry`, before its read. -/
  | withdrawing
  | removing
  | finished
  deriving DecidableEq, Repr

/-- What is constant about each call. -/
structure SocketContenders (P : Type) where
  /-- `randomUUID()` -/
  ownerToken : P → String
  pid : P → Int
  bootTimeSeconds : P → Int
  ownerToken_injective : Function.Injective ownerToken
  /-- The records of a call pass its own check. -/
  valid : ∀ p, validOwnerFields ⟨ownerToken p, pid p, bootTimeSeconds p, true, 0⟩

section Contenders
variable {P : Type} (contenders : SocketContenders P)

def SocketContenders.choosingRecord (p : P) : RemoteSocketLockRecord :=
  ⟨contenders.ownerToken p, contenders.pid p, contenders.bootTimeSeconds p, true, 0⟩

def SocketContenders.ownRecord (p : P) (ticket : Nat) : RemoteSocketLockRecord :=
  ⟨contenders.ownerToken p, contenders.pid p, contenders.bootTimeSeconds p, false, ticket⟩

def SocketContenders.entryPath (p : P) : String := lockEntryName (contenders.ownerToken p)

end Contenders

structure SocketLockWorld (P : Type) where
  stage : P → SocketLockStage
  directory : OrderedMap String LockEntryFile
  /-- The names that were in the directory when the listing of the call began, and ever
  since: a listing may miss a name that appears or disappears under way, but not these. -/
  due : P → List String
  /-- The identity of the file at the legacy path. -/
  legacy : Option Nat
  nextIdentity : Nat

inductive SocketLockEvent (P : Type) where
  | call (p : P)
  /-- The temporary is renamed onto the register; then its old name is removed, or that
  fails. -/
  | publish (p : P) (mtimeMs : Int) (cleaned : Bool)
  | beginListing (p : P)
  | listName (p : P) (name : String)
  | endListing (p : P)
  | statEntry (p : P)
  | readEntry (p : P) (reading : LockReading)
  | removeAbandoned (p : P)
  /-- The catalog is complete. -/
  | useCatalog (p : P)
  | openGuard (p : P)
  | statGuard (p : P)
  | writeGuard (p : P)
  | inspectLegacy (p : P) (state : LegacyLockState)
  /-- The action ends, in whatever way. -/
  | settle (p : P)
  | compareGuard (p : P)
  | unlinkGuard (p : P)
  | delayed (p : P)
  | readOwn (p : P)
  | removeOwn (p : P)
  /-- The awaited operation rejects. -/
  | fail (p : P)
  | die (p : P)
  /-- Something else happens to a name of the directory, or at the legacy path. -/
  | foreign (name : String) (file : Option LockEntryFile)
  | foreignLegacy (legacy : Option Nat)

section Steps
variable {P : Type} [DecidableEq P] (contenders : SocketContenders P)

def SocketLockWorld.become (w : SocketLockWorld P) (p : P) (stage : SocketLockStage) : SocketLockWorld P :=
  { w with stage := Function.update w.stage p stage }

/-- A file under a name, in place of what was there. -/
def SocketLockWorld.put (w : SocketLockWorld P) (name : String) (file : LockEntryFile) : SocketLockWorld P :=
  { w with directory := w.directory.set name file }

def SocketLockWorld.unlink (w : SocketLockWorld P) (name : String) : SocketLockWorld P :=
  { w with
    directory := w.directory.delete name
    due := fun p => (w.due p).filter (· ≠ name) }

/-- `writeLockRecordAtomic`, up to its rename. -/
def SocketLockWorld.publish (w : SocketLockWorld P) (p : P) (record : RemoteSocketLockRecord)
    (mtimeMs : Int) : SocketLockWorld P :=
  { w.put (contenders.entryPath p) ⟨some record, w.nextIdentity, mtimeMs⟩ with
    nextIdentity := w.nextIdentity + 1 }

/-- What follows the wait for another attempt. -/
def nextAttempt (ticket attempt : Nat) : SocketLockStage :=
  if attempt + 1 < lockRetryCount then .surveying (.waiting ticket (attempt + 1)) else .withdrawing

/-- What a call does with its complete catalog. -/
def afterCatalog (p : P) (scan : CatalogScan) : CatalogUse → SocketLockStage
  | .choosing =>
    if maxSafeInteger ≤ maximumTicket scan.entries then .withdrawing
    else .ticketing (maximumTicket scan.entries + 1)
  | .waiting ticket attempt =>
    if !ownsPublishedEntry (contenders.ownerToken p) scan.entries then .withdrawing
    else if !scan.unsettled && !blockedByBakery (contenders.ownRecord p ticket) scan.entries then
      .guarding ticket attempt
    else .delaying ticket attempt

/-- What a rejection leads to: the `finally` blocks of the calls under way. -/
def afterFailure : SocketLockStage → Option SocketLockStage
  | .announcing | .withdrawing | .removing => some .finished
  | .surveying _ | .listing .. | .reading .. | .ticketing _ | .guarding .. | .openedGuard ..
  | .inspecting .. | .delaying .. | .releasingGuard _ | .unlinkingGuard => some .withdrawing
  | .writingGuard _ guard => some (.releasingGuard guard)
  | .absent | .acting .. | .finished => none

/-- The scan of the call after its `lstat` of the next name answered. -/
def CatalogScan.stat (scan : CatalogScan) (answer : Option LockEntryFile) : Option CatalogScan :=
  match scan.names, scan.progress, answer with
  | _ :: _, .unread, some file => some { scan with progress := .found file }
  | _ :: _, .suspected snapshot, some file =>
    some { scan with progress := .suspectFound snapshot file }
  | _ :: _, .unread, none | _ :: _, .suspected _, none => some scan.vanish
  | _, _, _ => none

/-- The scan after the `readFile` that follows. -/
def CatalogScan.read (scan : CatalogScan) (reading : LockReading) (answer : Option LockEntryFile) :
    Option CatalogScan :=
  match scan.names, scan.progress, answer with
  | name :: _, .found metadata, some file =>
    let snapshot := lockEntrySnapshot name metadata file
    some (if lockEntryIsAbandoned reading snapshot then
        { scan with progress := .suspected snapshot }
      else scan.take snapshot)
  | name :: _, .suspectFound snapshot metadata, some file =>
    some (if stillAbandoned reading (lockEntrySnapshot name metadata file) snapshot then
        { scan with progress := .condemned }
      else scan.unsettle)
  | _ :: _, .found _, none | _ :: _, .suspectFound _ _, none => some scan.vanish
  | _, _, _ => none

/-- The file under the next name of the scan. -/
def SocketLockWorld.nextFile (w : SocketLockWorld P) (scan : CatalogScan) : Option LockEntryFile :=
  scan.names.head?.bind w.directory.get?

/-- The world after the event; none when the call is not at that step. -/
def SocketLockEvent.happen (w : SocketLockWorld P) : SocketLockEvent P → Option (SocketLockWorld P)
  | .call p =>
    match w.stage p with
    | .absent => some (w.become p .announcing)
    | _ => none
  | .publish p mtimeMs cleaned =>
    match w.stage p with
    | .announcing =>
      some ((w.publish contenders p (contenders.choosingRecord p) mtimeMs).become p
        (if cleaned then .surveying .choosing else .finished))
    | .ticketing ticket =>
      some ((w.publish contenders p (contenders.ownRecord p ticket) mtimeMs).become p
        (if cleaned then .surveying (.waiting ticket 0) else .withdrawing))
    | _ => none
  | .beginListing p =>
    match w.stage p with
    | .surveying use =>
      some { w.become p (.listing use []) with
        due := Function.update w.due p w.directory.keys }
    | _ => none
  | .listName p name =>
    match w.stage p with
    | .listing use names =>
      if w.directory.has name then some (w.become p (.listing use (names ++ [name]))) else none
    | _ => none
  | .endListing p =>
    match w.stage p with
    | .listing use names =>
      if w.due p ⊆ names then
        some (w.become p (.reading use ⟨names.filter isLockEntryName, .unread, [], false⟩))
      else none
    | _ => none
  | .statEntry p =>
    match w.stage p with
    | .reading use scan =>
      (scan.stat (w.nextFile scan)).map fun scan => w.become p (.reading use scan)
    | _ => none
  | .readEntry p reading =>
    match w.stage p with
    | .reading use scan =>
      (scan.read reading (w.nextFile scan)).map fun scan => w.become p (.reading use scan)
    | _ => none
  | .removeAbandoned p =>
    match w.stage p with
    | .reading use scan =>
      match scan.names, scan.progress with
      | name :: _, .condemned => some ((w.unlink name).become p (.reading use scan.next))
      | _, _ => none
    | _ => none
  | .useCatalog p =>
    match w.stage p with
    | .reading use scan =>
      if scan.names = [] then some (w.become p (afterCatalog contenders p scan use)) else none
    | _ => none
  | .openGuard p =>
    match w.stage p, w.legacy with
    | .guarding ticket _, none =>
      some { w.become p (.openedGuard ticket w.nextIdentity) with
        legacy := some w.nextIdentity
        nextIdentity := w.nextIdentity + 1 }
    | .guarding ticket attempt, some _ => some (w.become p (.inspecting ticket attempt))
    | _, _ => none
  | .statGuard p =>
    match w.stage p with
    | .openedGuard ticket guard => some (w.become p (.writingGuard ticket guard))
    | _ => none
  | .writeGuard p =>
    match w.stage p with
    | .writingGuard ticket guard => some (w.become p (.acting ticket (some guard)))
    | _ => none
  | .inspectLegacy p state =>
    match w.stage p with
    | .inspecting ticket attempt =>
      some (w.become p (if state = .abandoned then .acting ticket none
        else .delaying ticket attempt))
    | _ => none
  | .settle p =>
    match w.stage p with
    | .acting _ (some guard) => some (w.become p (.releasingGuard guard))
    | .acting _ none => some (w.become p .withdrawing)
    | _ => none
  | .compareGuard p =>
    match w.stage p with
    | .releasingGuard guard =>
      some (w.become p (if w.legacy = some guard then .unlinkingGuard else .withdrawing))
    | _ => none
  | .unlinkGuard p =>
    match w.stage p with
    | .unlinkingGuard => some { w.become p .withdrawing with legacy := none }
    | _ => none
  | .delayed p =>
    match w.stage p with
    | .delaying ticket attempt => some (w.become p (nextAttempt ticket attempt))
    | _ => none
  | .readOwn p =>
    match w.stage p with
    | .withdrawing =>
      let own := (w.directory.get? (contenders.entryPath p)).any fun file =>
        (lockEntrySnapshot (contenders.entryPath p) file file).record.map (·.ownerToken) =
          some (contenders.ownerToken p)
      some (w.become p (if own then .removing else .finished))
    | _ => none
  | .removeOwn p =>
    match w.stage p with
    | .removing => some ((w.unlink (contenders.entryPath p)).become p .finished)
    | _ => none
  | .fail p => (afterFailure (w.stage p)).map (w.become p)
  | .die p => some (w.become p .finished)
  | .foreign name file =>
    some (match file with
      | some file => w.put name file
      | none => w.unlink name)
  | .foreignLegacy legacy => some { w with legacy := legacy }

/-- Only a call itself writes the register with its token; others may remove it through
`removeAbandoned` alone. -/
def SocketLockEvent.Lawful : SocketLockEvent P → Prop
  | .foreign name _ => ∀ p, name ≠ contenders.entryPath p
  | _ => True

def SocketLockStep (w : SocketLockWorld P) (event : SocketLockEvent P) (w' : SocketLockWorld P) : Prop :=
  event.Lawful contenders ∧ event.happen contenders w = some w'

/-- The event is the read of an entry that is then considered abandoned. -/
def SocketLockEvent.judgesAbandoned (w : SocketLockWorld P) : SocketLockEvent P → Bool
  | .readEntry p reading =>
    match w.stage p with
    | .reading _ scan =>
      match scan.names, scan.progress, w.nextFile scan with
      | name :: _, .found metadata, some file =>
        lockEntryIsAbandoned reading (lockEntrySnapshot name metadata file)
      | _, _, _ => false
    | _ => false
  | _ => false

end Steps

/-- No call has begun, and none has a register. The directory may hold anything else. -/
structure SocketLockWorld.Initial {P : Type} (contenders : SocketContenders P)
    (w : SocketLockWorld P) : Prop where
  stage : ∀ p, w.stage p = .absent
  register : ∀ p, w.directory.get? (contenders.entryPath p) = none

end CodexHost.Source.HostRuntime
