import CodexHost.Foundation.Transition

/-!
# Releasing idle Sessions

`packages/host-runtime/src/external-thread-idle-release.ts`. Every continuation after an `await`
is one event, so a run interleaves the operations, the sweeps and the releases at their await
points. The event loop runs the continuations that are ready before the next timer: `check`
waits for the operations whose release is over.
-/
namespace CodexHost.Source.HostRuntime.IdleRelease
open Foundation

def CLOSE_FAILURE : String :=
  "External Session resource release failed. Further use is blocked to avoid duplicate writers. " ++
  "Restart Codex Desktop to retry recovery; residual processes may require manual cleanup."

structure IdleReleaseSettings where
  enabled : Bool
  timeoutMinutes : Nat
  deriving DecidableEq, Repr

def DEFAULT_IDLE_RELEASE_SETTINGS : IdleReleaseSettings := ⟨false, 30⟩

/-- `idleReleaseSettingsSchema` -/
def validSettings (settings : IdleReleaseSettings) : Bool :=
  5 ≤ settings.timeoutMinutes && settings.timeoutMinutes ≤ 1440

/-- An object of a Thread: its id never changes, its fields (`ThreadFacts`) do. -/
structure ExternalThread where
  id : String
  object : Nat
  deriving DecidableEq, Repr

structure ThreadFacts where
  subagent : Bool
  recordState : String
  nativeSessionRef : Option String
  persistenceError : Option String
  running : Bool
  activeTurnId : Option String
  /-- The answer of `options.canRelease`. -/
  canRelease : Bool
  deriving DecidableEq, Repr

structure Activity where
  lastActivity : Int
  outputFailed : Bool
  closeFailed : Bool
  deriving DecidableEq, Repr

/-- An entry of `#closing`, with the object whose Session is closed. -/
structure Release where
  number : Nat
  thread : ExternalThread
  /-- The promise of `#close` has settled. -/
  settled : Bool
  deriving DecidableEq, Repr

/-- Where a call of `runOperation` or `consumeOutput` stands. -/
inductive OperationStage where
  /-- Awaits an entry of `#closing`. -/
  | waiting (release : Nat)
  /-- Counted in `#operations`. -/
  | admitted
  | finished
  | refused (message : String)
  deriving DecidableEq, Repr

structure Operation where
  /-- Nothing for a call without a Thread, or with an empty id. -/
  id : Option String
  /-- The call is `consumeOutput`. -/
  consumes : Bool
  stage : OperationStage
  deriving DecidableEq, Repr

/-- A Session that was asked to close, and what `session.close()`, its output task and
`onClosed` came to: nothing while they are under way. -/
structure SessionClose where
  thread : ExternalThread
  answer : Option (Except String Unit)

structure State where
  activity : ExternalThread → Option Activity
  operations : String → Option Nat
  closing : String → Option Release
  /-- `#scheduled`, with the job of the candidate in the request queue. -/
  scheduled : String → Option ExternalThread
  settings : IdleReleaseSettings
  stopped : Bool
  calls : List Operation
  /-- The releases, by number. -/
  sessions : List SessionClose
  /-- `options.threads()` -/
  threads : List ExternalThread
  facts : ExternalThread → ThreadFacts
  /-- `Date.now()` -/
  now : Int

def initial (threads : List ExternalThread) (facts : ExternalThread → ThreadFacts) (now : Int) : State where
  activity _ := none
  operations _ := none
  closing _ := none
  scheduled _ := none
  settings := DEFAULT_IDLE_RELEASE_SETTINGS
  stopped := false
  calls := []
  sessions := []
  threads := threads
  facts := facts
  now := now

def State.get (s : State) (id : String) : Option ExternalThread := s.threads.find? (·.id = id)

def State.touch (s : State) (thread : ExternalThread) : State :=
  { s with activity := Function.update s.activity thread (some (match s.activity thread with
      | some state => { state with lastActivity := s.now }
      | none => ⟨s.now, false, false⟩)) }

def State.touchLoaded (s : State) (id : String) : State :=
  match s.get id with
  | some thread => s.touch thread
  | none => s

/-- Changes the state of a Thread that has one. -/
def State.amend (s : State) (thread : ExternalThread) (change : Activity → Activity) : State :=
  { s with activity := Function.update s.activity thread ((s.activity thread).map change) }

def State.outputFailed (s : State) (thread : ExternalThread) : State :=
  (s.touch thread).amend thread ({ · with outputFailed := true })

def State.clearOutputFailed (s : State) (thread : ExternalThread) : State :=
  match s.activity thread with
  | some _ => s.amend thread ({ · with outputFailed := false, lastActivity := s.now })
  | none => s.touch thread

def State.failure (s : State) (thread : ExternalThread) : Option String :=
  if (s.activity thread).any (·.closeFailed) then some CLOSE_FAILURE else none

def State.eligible (s : State) (thread : ExternalThread) : Bool :=
  let facts := s.facts thread
  !s.stopped && s.settings.enabled &&
    (s.activity thread).any (fun state => !state.outputFailed && !state.closeFailed &&
      s.settings.timeoutMinutes * 60000 ≤ s.now - state.lastActivity) &&
    s.get thread.id = some thread && (s.closing thread.id).isNone &&
    (s.operations thread.id).isNone && !facts.subagent && facts.recordState = "ready" &&
    facts.nativeSessionRef.isSome && facts.persistenceError.isNone && !facts.running &&
    facts.activeTurnId.isNone && facts.canRelease

/-- The start of `#track`. -/
def State.enter (s : State) (id : Option String) : State :=
  match id with
  | none => s
  | some id => { s with
      operations := Function.update s.operations id (some ((s.operations id).getD 0 + 1)) }

/-- The `finally` of `#track`. -/
def State.leave (s : State) (id : Option String) : State :=
  match id with
  | none => s
  | some id =>
    let remaining := (s.operations id).getD 1 - 1
    if remaining ≠ 0 then
      { s with operations := Function.update s.operations id (some remaining) }
    else
      { s with operations := Function.update s.operations id none }.touchLoaded id

/-- The call waits while its Thread closes; else it is counted, unless the Host shuts down. -/
def State.admission (s : State) (id : Option String) : OperationStage :=
  match id.bind s.closing with
  | some release => .waiting release.number
  | none => if s.stopped then .refused "Host is shutting down" else .admitted

def State.setStage (s : State) (call : Nat) (operation : Operation) (stage : OperationStage) : State :=
  { s with calls := s.calls.set call { operation with stage := stage } }

/-- Counts a call whose stage says so. -/
def State.count (s : State) (id : Option String) (stage : OperationStage) : State :=
  if stage = .admitted then s.enter id else s

/-- The release that a call waits for is over, and its continuation ready. -/
def State.woken (s : State) (call : Operation) : Bool :=
  match call.stage with
  | .waiting number => (call.id.bind s.closing).all (·.number ≠ number)
  | _ => false

/-- Schedules the candidates of a sweep. -/
def State.schedule (s : State) (candidates : List ExternalThread) : State :=
  candidates.foldl (fun s thread =>
    if (s.scheduled thread.id).isSome || !s.eligible thread then s
    else { s with scheduled := Function.update s.scheduled thread.id (some thread) }) s

/-- The start of `#close`: the entry, and the Session that is asked to close. -/
def State.close (s : State) (thread : ExternalThread) : State :=
  { s with
    closing := Function.update s.closing thread.id (some ⟨s.sessions.length, thread, false⟩)
    sessions := s.sessions ++ [⟨thread, none⟩] }

def State.remove (s : State) (id : String) : State :=
  { s with threads := s.threads.filter (·.id ≠ id) }

/-- The outcome of the race of `#close`; none while it is open. -/
def State.raced (s : State) (release : Release) (timedOut : Bool) : Option (Except String Unit) :=
  match (s.sessions[release.number]?).bind (·.answer) with
  | some answer => if timedOut then none else some answer
  | none => if timedOut then some (.error "Session release timed out") else none

/-- What `#close` does after its race: the error it meets, or the removal of the Thread. -/
def State.retire (s : State) (thread : ExternalThread) (answer : Except String Unit) : Except String State :=
  match answer with
  | .error error => .error error
  | .ok _ =>
    let facts := s.facts thread
    if (s.activity thread).any (·.outputFailed) || facts.persistenceError.isSome ||
        facts.recordState ≠ "ready" || facts.nativeSessionRef.isNone then
      .error "Session release could not confirm persisted history and identity"
    else if s.get thread.id ≠ some thread then .error "Session changed during release"
    else .ok (s.remove thread.id)

/-- The end of `#close`. -/
def State.conclude (s : State) (thread : ExternalThread) (answer : Except String Unit) : State :=
  match s.retire thread answer with
  | .ok s => s
  | .error _ => s.amend thread ({ · with closeFailed := true })

inductive Event where
  | configure (settings : IdleReleaseSettings)
  | touch (thread : ExternalThread)
  | outputFailed (thread : ExternalThread)
  | clearOutputFailed (thread : ExternalThread)
  /-- A call of `runOperation`. -/
  | run (id : Option String)
  /-- The continuation of a call after its `await`. -/
  | resume (call : Nat)
  | consume (thread : ExternalThread)
  /-- The operation of a call settles. -/
  | settle (call : Nat)
  /-- The timer. -/
  | check
  /-- The request queue runs the job of a candidate. -/
  | release (id : String)
  | sessionClosed (number : Nat) (answer : Except String Unit)
  /-- The race of `#close` is over, by the timeout or by the Session. -/
  | released (id : String) (timedOut : Bool)
  /-- The job continues after its `await`. -/
  | unlock (id : String)
  | disable
  | stop
  /-- The Threads of the runtime, their fields or the clock change. -/
  | threads (threads : List ExternalThread)
  | facts (thread : ExternalThread) (facts : ThreadFacts)
  | clock (now : Int)

/-- The state after the event; none when the event is not due. -/
def step (s : State) : Event → Option State
  | .configure settings =>
    some (if validSettings settings && !s.stopped then { s with settings := settings } else s)
  | .touch thread => some (s.touch thread)
  | .outputFailed thread => some (s.outputFailed thread)
  | .clearOutputFailed thread => some (s.clearOutputFailed thread)
  | .run id =>
    let stage := if s.stopped then .refused "Host is shutting down" else s.admission id
    some { s.count id stage with calls := s.calls ++ [⟨id, false, stage⟩] }
  | .resume call =>
    match s.calls[call]? with
    | some operation =>
      if s.woken operation then
        let stage := s.admission operation.id
        some ((s.count operation.id stage).setStage call operation stage)
      else none
    | none => none
  | .consume thread =>
    let s := s.touch thread
    some { s.enter (some thread.id) with calls := s.calls ++ [⟨some thread.id, true, .admitted⟩] }
  | .settle call =>
    match s.calls[call]? with
    | some operation =>
      if operation.stage = .admitted then some ((s.leave operation.id).setStage call operation .finished)
      else none
    | none => none
  | .check => if s.calls.any s.woken then none else some (s.schedule s.threads)
  | .release id =>
    match s.scheduled id, s.closing id with
    | some thread, none =>
      some (if s.eligible thread then s.close thread
        else { s with scheduled := Function.update s.scheduled id none })
    | _, _ => none
  | .sessionClosed number answer =>
    match s.sessions[number]? with
    | some ⟨thread, none⟩ =>
      some { s with sessions := s.sessions.set number ⟨thread, some answer⟩ }
    | _ => none
  | .released id timedOut =>
    match s.closing id with
    | some release =>
      if release.settled then none
      else
        (s.raced release timedOut).map fun answer =>
          { s with
            closing := Function.update s.closing id (some { release with settled := true })
          }.conclude release.thread answer
    | none => none
  | .unlock id =>
    match s.closing id with
    | some release =>
      if release.settled then
        some { s with
          closing := Function.update s.closing id none
          scheduled := Function.update s.scheduled id none }
      else none
    | none => none
  | .disable => some { s with settings := { s.settings with enabled := false } }
  | .stop => some { s with stopped := true, settings := { s.settings with enabled := false } }
  | .threads threads => some { s with threads := threads }
  | .facts thread facts => some { s with facts := Function.update s.facts thread facts }
  | .clock now => some { s with now := now }

/-- The runs from a state in which nothing has happened. -/
def Reaches (threads : List ExternalThread) (facts : ExternalThread → ThreadFacts) (now : Int)
    (events : List Event) (s : State) : Prop :=
  Run (fun s event s' => step s event = some s') (initial threads facts now) events s

end CodexHost.Source.HostRuntime.IdleRelease
