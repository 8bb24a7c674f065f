import CodexHost.Foundation.OrderedMap
import CodexHost.Foundation.Transition

/-!
# The owner of the official runtime

`packages/host-runtime/src/codex-runtime/official-runtime-owner.ts` with `official-work-gate.ts`
and the closing of `codex-runtime.ts`. Every continuation after an `await` is one event. Objects
(clients, runtimes, promises, operations) have numbers; an operation's number is also the symbol
that the gate admitted it with. A request that waits at a closing runtime has been rejected by
`failAll`.
-/
namespace CodexHost.Source.HostRuntime.OfficialRuntimeOwner
open Foundation

inductive Phase where
  | stopped
  | starting
  | running
  | stopping
  | unavailable
  deriving DecidableEq, Repr

/-- `typeof id`, with the id: `requestKey`. -/
inductive RequestId where
  | string (value : String)
  | number (value : Int)
  deriving DecidableEq, Repr

/-- What `#remember` reads of a response. -/
structure Response where
  error : Bool
  /-- `result.thread.id`, if it is a string. -/
  thread : Option String
  deriving DecidableEq, Repr

structure Pending where
  method : String
  /-- `params.threadId`, if it is a string. -/
  thread : Option String
  /-- `finish` releases this operation. -/
  token : Nat
  deriving DecidableEq, Repr

/-- An object of `client.threads`. -/
structure Subscription where
  object : Nat
  generation : Nat
  restoring : Option Nat
  deriving DecidableEq, Repr

structure Client where
  runtime : Option Nat
  connecting : Option Nat
  pending : OrderedMap RequestId Pending
  threads : String → Option Subscription

def Client.new : Client := ⟨none, none, .empty, fun _ => none⟩

/-- A `CodexRuntime`. -/
structure Runtime where
  client : Nat
  generation : Nat
  closing : Bool
  deriving DecidableEq, Repr

/-- A promise of `#connection`: nothing, a runtime or a rejection. -/
structure Connecting where
  client : Nat
  backend : Nat
  outcome : Option (Option Nat)
  deriving DecidableEq, Repr

/-- A promise of `#restore`, with the answer to its "thread/resume". -/
structure Restoring where
  client : Nat
  runtime : Nat
  thread : String
  subscription : Nat
  answer : Option Bool
  outcome : Option Bool
  deriving DecidableEq, Repr

/-- What `#connection` returned. -/
inductive ConnectionWait where
  | rejected
  | runtime (runtime : Nat)
  | promise (connecting : Nat)
  deriving DecidableEq, Repr

/-- The `await` at which an operation stands. -/
inductive Stage where
  | connection (wait : ConnectionWait)
  /-- Awaits `#restore`, and its promise if there is something to restore. -/
  | restore (runtime : Nat) (restoring : Option Nat)
  /-- Awaits `runtime.request`: nothing yet, a rejection or a response. -/
  | request (runtime : Nat) (answer : Option (Option Response))
  /-- Awaits `runtime.send`. -/
  | send (runtime : Nat) (written : Option Bool)
  | done
  deriving DecidableEq, Repr

/-- A call of `#request`, or of `#send` with an ID, that the gate has admitted. -/
structure Operation where
  client : Nat
  id : Option RequestId
  method : String
  thread : Option String
  stage : Stage
  deriving DecidableEq, Repr

/-- Where `stop` stands. -/
inductive Stopping where
  | starting
  | backend
  deriving DecidableEq, Repr

structure State where
  /-- The phase of the gate is "ready". -/
  ready : Bool
  /-- `#requests` of the gate. -/
  requests : List Nat
  clients : List Nat
  client : Nat → Client
  clientCount : Nat
  /-- The backend, by the generation that it began. -/
  backend : Option Nat
  generation : Nat
  phase : Phase
  starting : Bool
  stopping : Option Stopping
  runtime : Nat → Runtime
  runtimeCount : Nat
  connecting : Nat → Connecting
  connectingCount : Nat
  restoring : Nat → Restoring
  restoringCount : Nat
  subscriptionCount : Nat
  operation : Nat → Option Operation
  operationCount : Nat

def initial : State where
  ready := false
  requests := []
  clients := []
  client _ := .new
  clientCount := 0
  backend := none
  generation := 0
  phase := .stopped
  starting := false
  stopping := none
  runtime _ := ⟨0, 0, true⟩
  runtimeCount := 0
  connecting _ := ⟨0, 0, some none⟩
  connectingCount := 0
  restoring _ := ⟨0, 0, "", 0, some false, some false⟩
  restoringCount := 0
  subscriptionCount := 0
  operation _ := none
  operationCount := 0

def State.setClient (s : State) (client : Nat) (change : Client → Client) : State :=
  { s with client := Function.update s.client client (change (s.client client)) }

/-- `client.threads.set` and `delete`, and changes of the object that is there. -/
def State.setThread (s : State) (client : Nat) (thread : String)
    (subscription : Option Subscription) : State :=
  s.setClient client (fun client =>
    { client with threads := Function.update client.threads thread subscription })

def State.setStage (s : State) (number : Nat) (stage : Stage) : State :=
  { s with
    operation := Function.update s.operation number ((s.operation number).map ({ · with stage := stage })) }

def State.setRestoring (s : State) (number : Nat) (promise : Restoring) : State :=
  { s with restoring := Function.update s.restoring number promise }

def State.active (s : State) : Bool := s.phase = .starting || s.phase = .running

/-- `finish`: the function that `admit` returned. -/
def State.release (s : State) (token : Nat) : State :=
  { s with requests := s.requests.erase token }

/-- The end of an operation that calls `finish`. -/
def State.finish (s : State) (number : Nat) : State := (s.release number).setStage number .done

/-- `runtime.retire` and `runtime.close` -/
def State.closeRuntimes (s : State) (closing : List Nat) : State :=
  { s with runtime := fun number =>
      if number ∈ closing then { s.runtime number with closing := true } else s.runtime number }

/-- `#retire` of these clients. -/
def State.retire (s : State) (retired : List Nat) : State :=
  let finished := retired.flatMap fun number => (s.client number).pending.values.map (·.token)
  let forget (client : Client) : Client := { client with
    pending := .empty
    threads := fun id => (client.threads id).map ({ · with restoring := none }) }
  { s.closeRuntimes (retired.filterMap fun number => (s.client number).runtime) with
    requests := s.requests.filter (· ∉ finished)
    client := fun number =>
      if number ∈ retired then forget (s.client number) else s.client number }

def State.unavailable (s : State) : State :=
  { s.retire s.clients with phase := .unavailable, ready := false }

/-- `#connection` calls `backend.connect()`. -/
def State.connect (s : State) (client backend : Nat) : State :=
  { s.setClient client ({ · with connecting := some s.connectingCount }) with
    connecting := Function.update s.connecting s.connectingCount ⟨client, backend, none⟩
    connectingCount := s.connectingCount + 1 }

/-- `#connection` up to its first `await`. -/
def State.connection (s : State) (client : Nat) : State × ConnectionWait :=
  match s.backend with
  | none => (s, .rejected)
  | some backend =>
    if client ∉ s.clients || !s.active then (s, .rejected)
    else
      match (s.client client).runtime, (s.client client).connecting with
      | some runtime, _ => (s, .runtime runtime)
      | none, some connecting => (s, .promise connecting)
      | none, none => (s.connect client backend, .promise s.connectingCount)

/-- The promise of `#connection` is over. -/
def State.connectionOver (s : State) (number : Nat) (outcome : Option Nat) : State :=
  { s with
    connecting := Function.update s.connecting number { s.connecting number with outcome := some outcome } }

/-- `new CodexRuntime` -/
def State.newRuntime (s : State) (client generation : Nat) : State :=
  { s.setClient client ({ · with runtime := some s.runtimeCount }) with
    runtime := Function.update s.runtime s.runtimeCount ⟨client, generation, false⟩
    runtimeCount := s.runtimeCount + 1 }

/-- `#connection` after `backend.connect()`. -/
def State.connected (s : State) (number : Nat) (ok : Bool) : State :=
  let promise := s.connecting number
  if ok && s.backend = some promise.backend && promise.client ∈ s.clients && s.active then
    (s.connectionOver number (some s.runtimeCount)).newRuntime promise.client promise.backend
  else s.connectionOver number none

/-- The methods before which `#restore` resumes a Thread. -/
def restores (method : String) : Bool :=
  method.startsWith "turn/" || method.startsWith "thread/realtime/" ||
    method ∈ ["thread/compact/start", "thread/queue/start", "thread/shellCommand",
      "thread/settings/update", "thread/rollback", "thread/revert"] ||
    method.startsWith "thread/backgroundTerminals/"

/-- `#restore` up to its first `await`: the promise, if there is something to restore. -/
def State.restore (s : State) (client runtime : Nat) (method : String) (thread : Option String) :
    State × Option Nat :=
  match thread with
  | none => (s, none)
  | some id =>
    if !restores method then (s, none)
    else
      match (s.client client).threads id with
      | none => (s, none)
      | some subscription =>
        if subscription.generation = (s.runtime runtime).generation then (s, none)
        else
          match subscription.restoring with
          | some restoring => (s, some restoring)
          | none =>
            let number := s.restoringCount
            ({ s.setThread client id (some { subscription with restoring := some number }) with
              restoring := Function.update s.restoring number
                ⟨client, runtime, id, subscription.object, none, none⟩
              restoringCount := number + 1 }, some number)

/-- The promise of `#restore` after the answer: whether the Thread is restored. -/
def State.restored (s : State) (number : Nat) (ok : Bool) : State :=
  let promise := s.restoring number
  let current := (s.client promise.client).runtime = some promise.runtime &&
    (s.runtime promise.runtime).generation = s.generation
  let outcome := ok && current
  let settle := fun (subscription : Subscription) =>
    if subscription.object = promise.subscription && outcome then
      { subscription with generation := s.generation }
    else subscription
  let threads := (s.client promise.client).threads
  (s.setThread promise.client promise.thread ((threads promise.thread).map settle)).setRestoring
    number { promise with outcome := some outcome }

/-- The `finally` of `#restore`. -/
def State.restoreForgotten (s : State) (number : Nat) : State :=
  let promise := s.restoring number
  let forget := fun (subscription : Subscription) =>
    if subscription.object = promise.subscription && subscription.restoring = some number then
      { subscription with restoring := none }
    else subscription
  let threads := (s.client promise.client).threads
  s.setThread promise.client promise.thread ((threads promise.thread).map forget)

/-- `#remember` of an archived Thread. -/
def State.forgetThread (s : State) (client : Nat) (method : String) (thread : Option String) : State :=
  match thread with
  | some id =>
    if method ∈ ["thread/archive", "thread/unsubscribe"] then s.setThread client id none else s
  | none => s

def State.remember (s : State) (client : Nat) (method : String) (thread : Option String)
    (response : Response) : State :=
  if response.error then s
  else
    let s := s.forgetThread client method thread
    match response.thread with
    | some id =>
      if method ∈ ["thread/start", "thread/resume", "thread/fork"] then
        { s.setThread client id (some ⟨s.subscriptionCount, s.generation, none⟩) with
          subscriptionCount := s.subscriptionCount + 1 }
      else s
    | none => s

/-- Admits a call and runs it up to its first `await`; nothing when `#checkMethod` or the gate
refuses it. -/
def State.admit (s : State) (client : Nat) (id : Option RequestId) (method : String)
    (thread : Option String) : Option State :=
  if method = "initialize" || !s.ready then none
  else
    let (s', wait) := s.connection client
    some { s' with
      requests := s.requests ++ [s.operationCount]
      operation := Function.update s.operation s.operationCount
        (some ⟨client, id, method, thread, .connection wait⟩)
      operationCount := s.operationCount + 1 }

/-- The operation has its connection. -/
def State.proceed (s : State) (number : Nat) (operation : Operation) (runtime : Nat) : State :=
  let (s, restoring) := s.restore operation.client runtime operation.method operation.thread
  s.setStage number (.restore runtime restoring)

/-- The operation has nothing more to restore. -/
def State.transmit (s : State) (number : Nat) (operation : Operation) (runtime : Nat) : State :=
  match operation.id with
  | none => s.setStage number (.request runtime none)
  | some id =>
    -- "Duplicate official request ID"
    if (s.client operation.client).pending.has id then s.finish number
    else
      let rejected := if (s.runtime runtime).closing then some false else none
      (s.setClient operation.client (fun client => { client with
        pending := client.pending.set id ⟨operation.method, operation.thread, number⟩ })).setStage
          number (.send runtime rejected)

/-- The end of `#request`. -/
def State.settle (s : State) (number : Nat) (operation : Operation) (runtime : Nat)
    (response : Response) : State :=
  if (s.client operation.client).runtime = some runtime &&
      (s.runtime runtime).generation = s.generation && s.phase = .running then
    (s.remember operation.client operation.method operation.thread response).finish number
  else s.finish number

/-- The `catch` of `#send`. -/
def State.unsent (s : State) (number : Nat) (operation : Operation) (id : RequestId) : State :=
  (s.setClient operation.client ({ · with
    pending := (s.client operation.client).pending.delete id })).finish number

/-- The continuation of an operation; none while what it awaits is open. -/
def State.resume (s : State) (number : Nat) (operation : Operation) : Option State :=
  match operation.stage with
  | .connection .rejected => some (s.finish number)
  | .connection (.runtime runtime) => some (s.proceed number operation runtime)
  | .connection (.promise promise) =>
    match (s.connecting promise).outcome with
    | none => none
    | some none => some (s.finish number)
    | some (some runtime) => some (s.proceed number operation runtime)
  | .restore runtime none => some (s.transmit number operation runtime)
  | .restore runtime (some promise) =>
    match (s.restoring promise).outcome with
    | none => none
    | some false => some (s.finish number)
    | some true => some (s.transmit number operation runtime)
  | .request runtime none =>
    if (s.runtime runtime).closing then some (s.finish number) else none
  | .request _ (some none) => some (s.finish number)
  | .request runtime (some (some response)) =>
    some (s.settle number operation runtime response)
  | .send _ none => none
  | .send _ (some true) => some (s.setStage number .done)
  | .send _ (some false) =>
    match operation.id with
    | none => none
    | some id => some (s.unsent number operation id)
  | .done => none

/-- `stop` once no start is under way. -/
def State.stopBackend (s : State) : State :=
  match s.backend with
  | none => { s with phase := .stopped, stopping := none }
  | some _ =>
    { s.retire s.clients with phase := .stopping, ready := false, stopping := some .backend }

def State.stop (s : State) : State :=
  if s.stopping.isSome then s
  else if s.starting then { s with stopping := some .starting }
  else s.stopBackend

/-- `stop` after `backend.stop()` and `backend.closed`. -/
def State.stopped (s : State) (ok : Bool) : State :=
  if ok then
    let detach := fun (client : Client) => { client with runtime := none, connecting := none }
    { s.closeRuntimes (s.clients.filterMap fun number => (s.client number).runtime) with
      client := fun number =>
        if number ∈ s.clients then detach (s.client number) else s.client number
      backend := none
      phase := .stopped
      stopping := none }
  else { s.unavailable with stopping := none }

inductive Event where
  | attach
  | close (client : Nat)
  /-- `start` and `#initialize` call `#connection`. -/
  | connect (client : Nat)
  | connected (connecting : Nat) (ok : Bool)
  /-- The `finally` of `#connection`. -/
  | forget (connecting : Nat)
  /-- A call of `start`, and whether the factory returns a backend. -/
  | start (created : Bool)
  | started (ok : Bool)
  | stop
  /-- `stop` after `#starting`. -/
  | stopWaited
  | stopped (ok : Bool)
  | backendClosed (backend : Nat)
  /-- `onClosed` with an error. -/
  | runtimeClosed (runtime : Nat)
  /-- Calls of the gate's methods from outside. -/
  | gateInitialized
  | gateUnavailable
  | request (client : Nat) (method : String) (thread : Option String)
  | send (client : Nat) (id : RequestId) (method : String) (thread : Option String)
  | resume (operation : Nat)
  | restoreAnswered (restoring : Nat) (ok : Bool)
  | restoreResumed (restoring : Nat)
  | restoreForgotten (restoring : Nat)
  /-- `runtime.request` is answered, or rejected. -/
  | answered (operation : Nat) (response : Option Response)
  /-- `runtime.send` is over. -/
  | written (operation : Nat) (ok : Bool)
  /-- `#output` of a response. -/
  | response (runtime : Nat) (id : RequestId) (response : Response)

/-- The state after the event; none when the event is not due. -/
def step (s : State) : Event → Option State
  | .attach =>
    some { s with clients := s.clients ++ [s.clientCount], clientCount := s.clientCount + 1 }
  | .close client =>
    some { s.retire [client] with clients := s.clients.erase client }
  | .connect client => some (s.connection client).1
  | .connected number ok =>
    if (s.connecting number).outcome = none then some (s.connected number ok) else none
  | .forget number =>
    let client := (s.connecting number).client
    if (s.connecting number).outcome.isSome && (s.client client).connecting = some number then
      some (s.setClient client ({ · with connecting := none }))
    else none
  | .start created =>
    if s.starting || s.backend.isSome || s.phase ≠ .stopped || !created then some s
    else some { s with
      phase := .starting
      backend := some (s.generation + 1)
      generation := s.generation + 1
      starting := true }
  | .started ok =>
    if s.starting then
      if ok && s.phase = .starting then some { s with phase := .running, starting := false }
      else some { s.unavailable with starting := false }
    else none
  | .stop => some s.stop
  | .stopWaited =>
    if s.stopping = some .starting && !s.starting then some s.stopBackend else none
  | .stopped ok => if s.stopping = some .backend then some (s.stopped ok) else none
  | .backendClosed backend =>
    if s.backend ≠ some backend || s.phase = .stopping then some s
    else some s.unavailable.stop
  | .runtimeClosed number =>
    let runtime := s.runtime number
    if !runtime.closing && runtime.client ∈ s.clients && runtime.generation = s.generation &&
        s.phase ≠ .stopping then
      some s.unavailable
    else some s
  | .gateInitialized => some (if s.requests.isEmpty then { s with ready := true } else s)
  | .gateUnavailable => some { s with ready := false }
  | .request client method thread => s.admit client none method thread
  | .send client id method thread => s.admit client (some id) method thread
  | .resume number => (s.operation number).bind (s.resume number)
  | .restoreAnswered number ok =>
    let promise := s.restoring number
    if promise.answer = none && !(s.runtime promise.runtime).closing then
      some (s.setRestoring number { promise with answer := some ok })
    else none
  | .restoreResumed number =>
    let promise := s.restoring number
    if promise.outcome.isSome then none
    else
      match promise.answer with
      | some ok => some (s.restored number ok)
      | none =>
        if (s.runtime promise.runtime).closing then some (s.restored number false) else none
  | .restoreForgotten number =>
    if (s.restoring number).outcome.isSome then some (s.restoreForgotten number) else none
  | .answered number response =>
    match (s.operation number).map Operation.stage with
    | some (.request runtime none) =>
      if (s.runtime runtime).closing then none
      else some (s.setStage number (.request runtime (some response)))
    | _ => none
  | .written number ok =>
    match (s.operation number).map Operation.stage with
    | some (.send runtime none) => some (s.setStage number (.send runtime (some ok)))
    | _ => none
  | .response number id response =>
    let runtime := s.runtime number
    if runtime.closing || runtime.client ∉ s.clients || runtime.generation ≠ s.generation ||
        !s.active then
      some s
    else
      match (s.client runtime.client).pending.get? id with
      | none => some s
      | some pending =>
        some (((s.remember runtime.client pending.method pending.thread response).setClient
          runtime.client (fun client => { client with pending := client.pending.delete id })).release
            pending.token)

def Reaches (events : List Event) (s : State) : Prop :=
  Run (fun s event s' => step s event = some s') initial events s

end CodexHost.Source.HostRuntime.OfficialRuntimeOwner
