import CodexHost.Source.MappingStore.Records

/-!
# Section placements and superseded sessions

The two single-file lists beside the Thread records:
`packages/mapping-store/src/section-placements.ts` and `superseded-sessions.ts`.
Both parsers reject a list as a whole; the caller falls back to an empty one.
-/
namespace CodexHost.Source.MappingStore
open Foundation Source.SharedContracts

structure ThreadSectionAppearance where
  icon : Option String
  color : Option String
  deriving DecidableEq, Repr

structure StoredThreadSection where
  id : String
  name : String
  appearance : Option ThreadSectionAppearance
  deriving DecidableEq, Repr

structure StoredSectionPlacementV1 where
  hostThreadId : HostThreadId
  «section» : StoredThreadSection
  enteredAt : Timestamp
  /-- Thread (official or External) this one sits before; none places it last. -/
  beforeThreadId : Option String
  deriving DecidableEq, Repr

def threadIdSchema (value : String) : Bool := value ≠ "" && EcmaString.length value ≤ 1024

def storedSectionPlacementV1Schema (placement : StoredSectionPlacementV1) : Bool :=
  hostThreadIdSchema placement.hostThreadId && threadIdSchema placement.section.id &&
    EcmaString.length placement.section.name ≤ 4096 && placement.beforeThreadId.all threadIdSchema

/-- A Thread can have only one section placement. -/
def parseSectionPlacements (placements : List StoredSectionPlacementV1) :
    Option (List StoredSectionPlacementV1) :=
  if placements.all storedSectionPlacementV1Schema ∧ (placements.map (·.hostThreadId)).Nodup then
    some placements
  else none

structure StoredSupersededSessionV1 where
  harnessId : HarnessId
  nativeSessionId : String
  hostThreadId : HostThreadId
  supersededAt : Timestamp
  deriving DecidableEq, Repr

def SUPERSEDED_SESSIONS_MAX : Nat := 20000

def storedSupersededSessionV1Schema (session : StoredSupersededSessionV1) : Bool :=
  harnessIdSchema session.harnessId && session.nativeSessionId ≠ "" &&
    EcmaString.length session.nativeSessionId ≤ 1024 && hostThreadIdSchema session.hostThreadId

def parseSupersededSessions (sessions : List StoredSupersededSessionV1) :
    Option (List StoredSupersededSessionV1) :=
  if sessions.all storedSupersededSessionV1Schema then some sessions else none

/-- `sessions.slice(-SUPERSEDED_SESSIONS_MAX)` -/
def latestSupersededSessions (sessions : List StoredSupersededSessionV1) : List StoredSupersededSessionV1 :=
  sessions.drop (sessions.length - SUPERSEDED_SESSIONS_MAX)

end CodexHost.Source.MappingStore
