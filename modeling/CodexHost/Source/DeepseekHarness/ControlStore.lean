import CodexHost.Foundation.OrderedMap
import CodexHost.Foundation.Selection
import CodexHost.Foundation.Transition

/-!
# The projections of the attached Sessions

`packages/adapters/deepseek-harness/src/modern/control-store.ts`, on frames and seeds that have
been parsed. The values are of any type, and `measure` is `measureProjection`: the bytes of a key
and its value in JSON. Listeners only look, and are left out.
-/
namespace CodexHost.Source.DeepseekHarness
open Foundation

inductive StoreErrorCode where
  | authenticationRequired
  | cancelled
  | closed
  | detached
  | notInstalled
  | processExited
  | protocolError
  | resourceLimit
  | timeout
  | unavailable
  deriving DecidableEq, Repr

structure StoreError where
  code : StoreErrorCode
  message : String
  deriving DecidableEq, Repr

structure ProjectionRow (V : Type) where
  value : V
  seq : Int
  deriving DecidableEq, Repr

structure ProjectionBaseline (V : Type) where
  asOfSeq : Int
  values : OrderedMap String V

structure ProjectionChange (V : Type) where
  key : String
  value : V

inductive ControlFrame (V : Type) where
  | baseline (projections : OrderedMap String (ProjectionBaseline V))
  | projection (sessionId : String) (seq : Int) (changes : List (ProjectionChange V))

structure SessionState (V : Type) where
  rows : OrderedMap String (ProjectionRow V)
  rowBytes : OrderedMap String Nat
  bytes : Nat
  seeded : Bool
  /-- What was applied to a key since it was last absent; for the properties only. -/
  applied : String → List (ProjectionRow V)

def MAX_SESSION_PROJECTION_BYTES : Nat := 4 * 1024 * 1024

def projectionMapBytes (rowBytes : OrderedMap String Nat) : Nat :=
  2 + (rowBytes.entries.length - 1) + rowBytes.values.sum

def keyLimitExceeded : StoreError :=
  ⟨.resourceLimit, "DeepSeek Harness projection key limit was exceeded"⟩

def byteLimitExceeded : StoreError :=
  ⟨.resourceLimit, "DeepSeek Harness Session projections exceeded their byte limit"⟩

section Sessions
variable {V : Type} [DecidableEq V] (measure : String → V → Nat) (maxKeys : Nat)

def SessionState.empty : SessionState V := ⟨.empty, .empty, 2, false, fun _ => []⟩

namespace SessionState
variable (session : SessionState V)

/-- The row and the bytes of a key that the baseline has. -/
def pickValue (asOfSeq : Int) (entry : String × V) :
    Except StoreError (Option (String × ProjectionRow V × Nat)) :=
  let fresh := (entry.1, ⟨entry.2, asOfSeq⟩, measure entry.1 entry.2)
  match session.rows.get? entry.1 with
  | none => .ok (some fresh)
  | some current =>
    let kept := (entry.1, current, (session.rowBytes.get? entry.1).getD 0)
    if current.seq > asOfSeq then .ok (some kept)
    else if current.seq = asOfSeq then
      if current.value ≠ entry.2 then
        .error ⟨.protocolError, "DeepSeek Harness control baseline conflicts at the same projection sequence"⟩
      else .ok (some kept)
    else .ok (some fresh)

/-- The row and the bytes of a key that only the Session has. -/
def pickRow (baseline : ProjectionBaseline V) (entry : String × ProjectionRow V) :
    Except StoreError (Option (String × ProjectionRow V × Nat)) :=
  if baseline.values.has entry.1 then .ok none
  else if entry.2.seq > baseline.asOfSeq then
    .ok (some (entry.1, entry.2, (session.rowBytes.get? entry.1).getD 0))
  else if entry.2.seq = baseline.asOfSeq then
    .error ⟨.protocolError, "DeepSeek Harness control baseline omits a same-sequence projection"⟩
  else .ok none

/-- What has been applied to a key, after a value that may be there. -/
def applyAt (key : String) (row : Option (ProjectionRow V)) : List (ProjectionRow V) :=
  (if (session.rows.get? key).isSome then session.applied key else []) ++ row.toList

/-- `#reconcile`, committed. -/
def reconcile (baseline : ProjectionBaseline V) : Except StoreError (SessionState V) :=
  match pickAll (session.pickValue measure baseline.asOfSeq) baseline.values.entries with
  | .error error => .error error
  | .ok stated =>
    match pickAll (session.pickRow baseline) session.rows.entries with
    | .error error => .error error
    | .ok newer =>
      let next := OrderedMap.empty.setAll ((stated ++ newer).map fun pick => (pick.1, pick.2.1))
      let nextRowBytes := OrderedMap.empty.setAll ((stated ++ newer).map fun pick => (pick.1, pick.2.2))
      if next.entries.length > maxKeys then .error keyLimitExceeded
      else if projectionMapBytes nextRowBytes > MAX_SESSION_PROJECTION_BYTES then
        .error byteLimitExceeded
      else
        .ok { session with
          rows := next
          rowBytes := nextRowBytes
          bytes := projectionMapBytes nextRowBytes
          applied := fun key => if (next.get? key).isNone then [] else
            session.applyAt key ((baseline.values.get? key).map (⟨·, baseline.asOfSeq⟩)) }

/-- The bytes with the row of a key. -/
def bytesWith (key : String) (row : ProjectionRow V) : Nat :=
  let previousBytes := session.rowBytes.get? key
  session.bytes - previousBytes.getD 0 + measure key row.value +
    (if previousBytes.isNone && session.rows.entries.length > 0 then 1 else 0)

/-- A change has come; only the properties see it. -/
def tell (key : String) (row : ProjectionRow V) : SessionState V :=
  { session with applied := fun other =>
      if other = key then session.applyAt key (some row) else session.applied other }

/-- The end of `#apply`: a row that is new or newer. -/
def store (key : String) (row : ProjectionRow V) : Except StoreError (SessionState V) :=
  if session.bytesWith measure key row > MAX_SESSION_PROJECTION_BYTES then .error byteLimitExceeded
  else
    .ok { session.tell key row with
      rows := session.rows.set key row
      rowBytes := session.rowBytes.set key (measure key row.value)
      bytes := session.bytesWith measure key row }

/-- `#apply` for an attached Session. -/
def apply (key : String) (row : ProjectionRow V) : Except StoreError (SessionState V) :=
  match session.rows.get? key with
  | some current =>
    if row.seq < current.seq then .ok (session.tell key row)
    else if row.seq = current.seq then
      if current.value = row.value then .ok (session.tell key row)
      else
        .error ⟨.protocolError, "DeepSeek Harness projection conflicts at the same sequence"⟩
    else session.store measure key row
  | none =>
    if session.rows.entries.length ≥ maxKeys then .error keyLimitExceeded
    else session.store measure key row

/-- The keys whose row has changed. -/
def changed (next : SessionState V) : List String :=
  (session.rows.keys ++ next.rows.keys).eraseDups.filter fun key =>
    decide (session.rows.get? key ≠ next.rows.get? key)

/-- `committedWatermark` -/
def watermark : Int := (session.rows.values.map (·.seq)).foldl max (-1)

end SessionState

end Sessions

inductive WaitOutcome (V : Type) where
  | resolved (row : ProjectionRow V)
  | rejected (error : StoreError)
  | predicateFailed
  deriving DecidableEq, Repr

/-- A call of `waitFor`; it is in `#waiters` until it has an outcome. -/
structure Waiter (V : Type) where
  sessionId : String
  key : String
  afterSeq : Int
  /-- Nothing where it throws. -/
  predicate : V → Option Bool
  outcome : Option (WaitOutcome V)

structure ControlStore (V : Type) where
  maxSessions : Nat
  maxKeys : Nat
  maxWaiters : Nat
  sessions : OrderedMap String (SessionState V)
  waiters : List (Waiter V)
  fault : Option StoreError
  closing : Bool
  opened : Bool
  started : Bool
  /-- `#run` has not returned. -/
  running : Bool
  generationOpened : Bool
  replacementUsed : Bool

def ControlStore.initial {V : Type} (maxSessions maxKeys maxWaiters : Nat) : ControlStore V where
  maxSessions := maxSessions
  maxKeys := maxKeys
  maxWaiters := maxWaiters
  sessions := .empty
  waiters := []
  fault := none
  closing := false
  opened := false
  started := false
  running := false
  generationOpened := false
  replacementUsed := false

namespace Waiter
variable {V : Type} (waiter : Waiter V)

/-- `#settleWaiter` -/
def settle (outcome : WaitOutcome V) : Waiter V :=
  if waiter.outcome.isSome then waiter else { waiter with outcome := some outcome }

/-- The outcome that the row gives it. -/
def judge (row : ProjectionRow V) : Option (WaitOutcome V) :=
  if row.seq ≤ waiter.afterSeq then none
  else
    match waiter.predicate row.value with
    | some true => some (.resolved row)
    | some false => none
    | none => some .predicateFailed

/-- `#changed` -/
def notify (sessionId key : String) (row : Option (ProjectionRow V)) : Waiter V :=
  if waiter.sessionId = sessionId && waiter.key = key then
    match row.bind waiter.judge with
    | some outcome => waiter.settle outcome
    | none => waiter
  else waiter

end Waiter

namespace ControlStore
variable {V : Type} [DecidableEq V] (measure : String → V → Nat) (s : ControlStore V)

def rejectWaiters (predicate : Waiter V → Bool) (error : StoreError) : ControlStore V :=
  { s with waiters := s.waiters.map fun waiter =>
      if predicate waiter then waiter.settle (.rejected error) else waiter }

def fail (error : StoreError) : ControlStore V :=
  if s.fault.isSome || s.closing then s
  else { s with fault := some error }.rejectWaiters (fun _ => true) error

/-- What `#assertUsable` throws. -/
def unusable : Option StoreError :=
  match s.fault with
  | some fault => some fault
  | none => if s.closing then some ⟨.closed, "Control store is closed"⟩ else none

/-- The rows of a Session are new: those who wait are told of what has changed. -/
def publish (sessionId : String) (session next : SessionState V) : ControlStore V :=
  let tell := fun waiter : Waiter V => (session.changed next).foldl
    (fun waiter key => waiter.notify sessionId key (next.rows.get? key)) waiter
  { s with waiters := s.waiters.map tell }

/-- `#apply`; a change of a Session that is not attached is dropped. -/
def apply (sessionId : String) (seq : Int) (change : ProjectionChange V) : ControlStore V :=
  match s.sessions.get? sessionId with
  | none => s
  | some session =>
    match session.apply measure s.maxKeys change.key ⟨change.value, seq⟩ with
    | .error error => s.fail error
    | .ok next =>
      { s with sessions := s.sessions.set sessionId next }.publish sessionId session next

/-- The changes of a frame, until one fails. -/
def applyAll (sessionId : String) (seq : Int) : ControlStore V → List (ProjectionChange V) → ControlStore V
  | s, [] => s
  | s, change :: rest =>
    let s := s.apply measure sessionId seq change
    if s.fault.isSome then { s with running := false } else applyAll sessionId seq s rest

/-- What a replacement makes of an attached Session. -/
def replacement (projections : OrderedMap String (ProjectionBaseline V)) (requireComplete : Bool)
    (entry : String × SessionState V) :
    Except StoreError (Option (String × SessionState V)) :=
  match projections.get? entry.1 with
  | none =>
    if requireComplete && entry.2.seeded then
      .error ⟨.protocolError, "DeepSeek Harness replacement baseline omitted an attached Session"⟩
    else .ok none
  | some block =>
    if requireComplete && entry.2.seeded && block.asOfSeq < entry.2.watermark then
      .error ⟨.protocolError, "DeepSeek Harness replacement baseline is behind an attached Session watermark"⟩
    else (entry.2.reconcile measure s.maxKeys block).map fun next => some (entry.1, next)

/-- `#replace`: all Sessions are reconciled before one is committed. -/
def replace (projections : OrderedMap String (ProjectionBaseline V)) (requireComplete : Bool) :
    Except StoreError (ControlStore V) :=
  (pickAll (s.replacement measure projections requireComplete) s.sessions.entries).map
    fun replacements =>
      let committed := { s with sessions := s.sessions.setAll replacements }
      replacements.foldl (fun committed entry =>
        committed.publish entry.1 ((s.sessions.get? entry.1).getD .empty) entry.2) committed

/-- `#seed` -/
def seedSession (sessionId : String) (session : SessionState V) (seed : ProjectionBaseline V) :
    ControlStore V :=
  match session.reconcile measure s.maxKeys seed with
  | .error error => s.fail error
  | .ok next =>
    let next := { next with seeded := true }
    { s with sessions := s.sessions.set sessionId next }.publish sessionId session next

/-- `attach`, with a seed that has been parsed. -/
def attach (sessionId : String) (seed : Option (ProjectionBaseline V)) : ControlStore V :=
  if s.unusable.isSome then s
  else
    match s.sessions.get? sessionId with
    | some session =>
      match seed with
      | none => s
      | some seed => s.seedSession measure sessionId session seed
    | none =>
      if s.sessions.entries.length ≥ s.maxSessions then s
      else
        let attached := { s with sessions := s.sessions.set sessionId .empty }
        match seed with
        | none => attached
        | some seed => attached.seedSession measure sessionId .empty seed

def seed (sessionId : String) (seed : ProjectionBaseline V) : ControlStore V :=
  if s.unusable.isSome then s
  else
    match s.sessions.get? sessionId with
    | none => s
    | some session => s.seedSession measure sessionId session seed

def detach (sessionId : String) : ControlStore V :=
  if (s.sessions.get? sessionId).isNone then s
  else
    { s with sessions := s.sessions.delete sessionId }.rejectWaiters (·.sessionId = sessionId)
      ⟨.detached, "DeepSeek Harness Session detached from control state"⟩

def replaceBaseline (projections : OrderedMap String (ProjectionBaseline V)) : ControlStore V :=
  if s.unusable.isSome then s
  else
    match s.replace measure projections true with
    | .error error => s.fail error
    | .ok next => next

/-- The `catch` of `#run`: the stream is opened once again, or the store fails. -/
def streamFailed (error : StoreError) : ControlStore V :=
  if s.closing then { s with running := false }
  else if s.opened && !s.replacementUsed && error.code = .unavailable then
    { s with replacementUsed := true, generationOpened := false }
  else { s.fail error with running := false }

/-- A frame of the stream. -/
def receive : ControlFrame V → ControlStore V
  | .baseline projections =>
    if s.generationOpened then
      s.streamFailed ⟨.protocolError, "DeepSeek Harness control stream emitted a second physical baseline"⟩
    else
      match s.replace measure projections s.opened with
      | .error error => s.streamFailed error
      | .ok next => { next with generationOpened := true, opened := true }
  | .projection sessionId seq changes =>
    if s.generationOpened then s.applyAll measure sessionId seq changes
    else
      s.streamFailed ⟨.protocolError, "DeepSeek Harness control stream omitted its baseline"⟩

/-- The outcome that `waitFor` has at once. -/
def waitNow (waiter : Waiter V) (aborted : Bool) : Option (WaitOutcome V) :=
  match s.unusable with
  | some error => some (.rejected error)
  | none =>
    match s.sessions.get? waiter.sessionId with
    | none => some (.rejected ⟨.detached, "DeepSeek Harness Session is not attached"⟩)
    | some session =>
      if aborted then
        some (.rejected ⟨.cancelled, "DeepSeek Harness projection wait was cancelled"⟩)
      else
        match (session.rows.get? waiter.key).bind waiter.judge with
        | some outcome => some outcome
        | none =>
          if (s.waiters.filter (·.outcome.isNone)).length ≥ s.maxWaiters then
            some (.rejected ⟨.resourceLimit, "Control store waiter limit was exceeded"⟩)
          else none

def waitFor (sessionId key : String) (afterSeq : Int) (predicate : V → Option Bool)
    (aborted : Bool) : ControlStore V :=
  let waiter : Waiter V := ⟨sessionId, key, afterSeq, predicate, none⟩
  { s with waiters := s.waiters ++ [{ waiter with outcome := s.waitNow waiter aborted }] }

def close : ControlStore V :=
  let s := { s with closing := true }.rejectWaiters (fun _ => true)
    ⟨.closed, "Control store is closed"⟩
  { s with sessions := .empty }

end ControlStore

inductive Event (V : Type) where
  | start
  | attach (sessionId : String) (seed : Option (ProjectionBaseline V))
  | seed (sessionId : String) (seed : ProjectionBaseline V)
  | detach (sessionId : String)
  | replaceBaseline (projections : OrderedMap String (ProjectionBaseline V))
  | frame (frame : ControlFrame V)
  /-- The stream ends, or a frame or a seed cannot be parsed. -/
  | streamFailed (error : StoreError)
  | seedFailed (error : StoreError)
  | waitFor (sessionId key : String) (afterSeq : Int) (predicate : V → Option Bool) (aborted : Bool)
  /-- A waiter is timed out or aborted. -/
  | giveUp (waiter : Nat) (error : StoreError)
  | close

/-- The state after the event; none when the event is not due. -/
def step {V : Type} [DecidableEq V] (measure : String → V → Nat) (s : ControlStore V) :
    Event V → Option (ControlStore V)
  | .start =>
    if s.unusable.isSome || s.started then none
    else some { s with started := true, running := true }
  | .attach sessionId seed => some (s.attach measure sessionId seed)
  | .seed sessionId seed => some (s.seed measure sessionId seed)
  | .detach sessionId => some (s.detach sessionId)
  | .replaceBaseline projections => some (s.replaceBaseline measure projections)
  | .frame frame => if s.running then some (s.receive measure frame) else none
  | .streamFailed error => if s.running then some (s.streamFailed error) else none
  | .seedFailed error => some (s.fail error)
  | .waitFor sessionId key afterSeq predicate aborted =>
    some (s.waitFor sessionId key afterSeq predicate aborted)
  | .giveUp waiter error =>
    some { s with waiters := s.waiters.modify waiter (·.settle (.rejected error)) }
  | .close => some s.close

end CodexHost.Source.DeepseekHarness
