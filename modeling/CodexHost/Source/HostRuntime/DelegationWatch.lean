import CodexHost.Foundation.EcmaString
import CodexHost.Source.HostRuntime.DelegationSnapshot

/-!
# Watches for the end of a Thread

`DelegationWatchService` of `packages/host-runtime/src/delegation-watch.ts`. What the service waits for
(the reads of a request, the timer, the read of a watched Thread, the answer to a send) are events; it
runs on to its next wait in one step. The watches and the sends are numbered.
-/
namespace CodexHost.Source.HostRuntime.DelegationWatch
open Foundation Source.SharedContracts
open Source.HostRuntime.DelegationSnapshot (DelegationThreadStatus)

def DELIVERY_WINDOW_MS : Int := 6 * 60 * 60000
def MAX_UNDELIVERABLE_ENTRIES : Nat := 50
def UNREADABLE_GRACE_MS : Int := 60000

/-- A failed operation; `control` is a `DelegationControlError` with two of its details. -/
inductive ApiError where
  | control (code : String) (readOnly notStarted : Bool) (message : String)
  | other (message : String)
  deriving DecidableEq, Repr

def ApiError.message : ApiError → String
  | .control _ _ _ message => message
  | .other message => message

def errorCode : ApiError → Option String
  | .control code _ _ _ => some code
  | .other _ => none

inductive DeliveryFailure where
  | permanent | rejected | unknown
  deriving DecidableEq, Repr

def deliveryFailure : ApiError → DeliveryFailure
  | .other _ => .unknown
  | .control code readOnly notStarted _ =>
    if code = "THREAD_NOT_FOUND" ∨ readOnly then .permanent
    else if code = "THREAD_BUSY" ∨ notStarted then .rejected
    else .unknown

/-- What a read answers: the status, and the latest Turn. -/
structure ReadSnapshot where
  status : DelegationThreadStatus
  turnId : Option String
  deriving DecidableEq, Repr

abbrev ReadResult := Except ApiError ReadSnapshot

inductive ThreadWatchOutcome where
  | completed | failed | interrupted | timedOut | unreadable | notFound
  deriving DecidableEq, Repr

def ThreadWatchOutcome.text : ThreadWatchOutcome → String
  | .completed => "completed"
  | .failed => "failed"
  | .interrupted => "interrupted"
  | .timedOut => "timedOut"
  | .unreadable => "unreadable"
  | .notFound => "notFound"

/-- The outcome that a terminal status is. -/
def terminal : DelegationThreadStatus → Option ThreadWatchOutcome
  | .running => none
  | .completed => some .completed
  | .failed => some .failed
  | .interrupted => some .interrupted

inductive WatchState where
  | watching | pendingDelivery | undeliverable
  deriving DecidableEq, Repr

structure Watch where
  id : Nat
  threadId : String
  notifyThreadId : String
  state : WatchState
  outcome : Option ThreadWatchOutcome
  turnId : Option String
  reason : Option String
  registeredAt : Int
  timeoutMs : Int
  deadline : Int
  deliveryDeadline : Option Int
  unreadableSince : Option Int
  lastReadError : Option String
  deriving DecidableEq, Repr

def threadLink (threadId : String) : String := s!"codex://threads/{threadId}"

/-- `Math.round(value / unit)` of a number that is not negative. -/
def rounded (value unit : Int) : Int := (2 * value + unit) / (2 * unit)

def duration (milliseconds : Int) : String :=
  if milliseconds < 60000 then s!"{rounded milliseconds 1000} s" else s!"{rounded milliseconds 60000} min"

def describe (watch : Watch) : String :=
  let link := threadLink watch.threadId
  match watch.outcome with
  | some .timedOut => link ++ " has not reached a terminal state after " ++ duration watch.timeoutMs ++
      "; this watch expired. Run 'codexhost thread watch' again to keep waiting."
  | some .unreadable => link ++ s!" could not be read for {rounded UNREADABLE_GRACE_MS 1000} s, so its state is unknown (" ++
      watch.lastReadError.getD "unknown error" ++ ")."
  | some .notFound => s!"{link} no longer exists."
  | outcome =>
    let text := (outcome.map ThreadWatchOutcome.text).getD "undefined"
    match watch.turnId with
    | some turnId => if turnId = "" then s!"{link}: {text}." else s!"{link}: {text} (Turn {turnId})."
    | none => s!"{link}: {text}."

def notification (watches : List Watch) : String :=
  "\n".intercalate
    ("[codexhost thread watch] Watched Threads stopped or the watch expired. This reports execution state only, not that the work is correct or accepted. Inspect each Thread with 'codexhost thread read <thread>' before relying on it." ::
      watches.map fun watch => s!"- {describe watch}")

structure ThreadWatchInput where
  threadId : String
  notifyThreadId : String
  /-- `none` if the number is no integer. -/
  timeoutMs : Option Int
  deriving DecidableEq, Repr

structure ThreadWatchResult where
  threadId : String
  notifyThreadId : String
  /-- `state` is "alreadyTerminal". -/
  alreadyTerminal : Bool
  status : DelegationThreadStatus
  timeoutMs : Int
  deriving DecidableEq, Repr

/-- A `DelegationControlError` of the service: its code and message. -/
structure WatchError where
  code : String
  message : String
  deriving DecidableEq, Repr

/-- Where the tick of the service waits. -/
inductive Phase where
  | idle
  /-- For the read of a watch; the watches that the loop still has to look at. -/
  | observing (watch : Nat) (rest : List Nat)
  /-- For the answer to a send of these watches; the subscribers after this one. -/
  | delivering (pending : List Nat) (rest : List String)
  deriving DecidableEq, Repr

/-- A send to a subscriber, with the watches it is for and its answer. -/
structure Send where
  threadId : String
  message : String
  watches : List Nat
  answer : Option (Except ApiError Unit)

/-- The service and all sends so far, also those of the services before a restart. -/
structure Service where
  watches : List Watch
  closed : Bool
  /-- The timer is set or its tick is running. -/
  timer : Bool
  phase : Phase
  /-- The requests whose reads are going on. -/
  requests : List (ThreadWatchInput × Int)
  nextWatch : Nat
  sends : List Send

namespace Service

def new (nextWatch : Nat) (sends : List Send) : Service := ⟨[], false, false, .idle, [], nextWatch, sends⟩

def schedule (service : Service) : Service :=
  if service.closed ∨ service.timer then service
  else if service.watches.any (·.state ≠ .undeliverable) then { service with timer := true }
  else service

/-- The checks of `watch` before its reads; the timeout is then an integer. -/
def validateWatch (service : Service) (input : ThreadWatchInput) : Except WatchError Int :=
  if service.closed then .error ⟨"INTERNAL_ERROR", "Host Runtime is closing"⟩
  else if EcmaString.isBlank input.threadId then
    .error ⟨"INVALID_ARGUMENT", "Thread identifier is required"⟩
  else if EcmaString.isBlank input.notifyThreadId then
    .error ⟨"INVALID_ARGUMENT", "Notified Thread is required; pass --notify <thread>"⟩
  else if input.threadId = input.notifyThreadId then
    .error ⟨"INVALID_ARGUMENT", "A Thread cannot watch itself"⟩
  else
    match input.timeoutMs with
    | some timeoutMs =>
      if timeoutMs.natAbs > maxSafeInteger ∨ timeoutMs ≤ 0 then
        .error ⟨"INVALID_ARGUMENT", "timeoutMs must be a positive integer"⟩
      else .ok timeoutMs
    | none => .error ⟨"INVALID_ARGUMENT", "timeoutMs must be a positive integer"⟩

/-- The watch that a request finds. -/
def existing (service : Service) (input : ThreadWatchInput) : Option Watch :=
  service.watches.find? fun watch =>
    watch.state = .watching && watch.threadId = input.threadId && watch.notifyThreadId = input.notifyThreadId

/-- `watch` after its reads. -/
def register (service : Service) (input : ThreadWatchInput) (timeoutMs : Int)
    (status : DelegationThreadStatus) (now : Int) : Except WatchError ThreadWatchResult × Service :=
  let result : ThreadWatchResult := ⟨input.threadId, input.notifyThreadId, false, status, timeoutMs⟩
  if (terminal status).isSome then (.ok { result with alreadyTerminal := true }, service)
  else
    match service.existing input with
    | some existing => (.ok { result with timeoutMs := existing.timeoutMs }, service)
    | none =>
      if service.closed then (.error ⟨"INTERNAL_ERROR", "Host Runtime is closing"⟩, service)
      else
        let watch : Watch :=
          { id := service.nextWatch
            threadId := input.threadId
            notifyThreadId := input.notifyThreadId
            state := .watching
            outcome := none
            turnId := none
            reason := none
            registeredAt := now
            timeoutMs := timeoutMs
            deadline := now + timeoutMs
            deliveryDeadline := none
            unreadableSince := none
            lastReadError := none }
        (.ok result, { service with
          watches := service.watches ++ [watch]
          nextWatch := service.nextWatch + 1 }.schedule)

def close (service : Service) : Service :=
  { service with closed := true, timer := false, watches := [] }

/-- The end of a tick. -/
def finish (service : Service) : Service := { service with phase := .idle, timer := false }.schedule

/-- The watches that are pending for a subscriber. -/
def pendingFor (service : Service) (notifyThreadId : String) : List Watch :=
  service.watches.filter fun watch =>
    watch.state = .pendingDelivery && watch.notifyThreadId = notifyThreadId

/-- The loop over the subscribers, up to the answer to its next send. -/
def deliverNext (service : Service) : List String → Service
  | [] => service.finish
  | notifyThreadId :: rest =>
    if service.closed then service.finish
    else
      let pending := service.pendingFor notifyThreadId
      { service with
        phase := .delivering (pending.map (·.id)) rest
        sends := service.sends ++ [⟨notifyThreadId, notification pending, pending.map (·.id), none⟩] }

/-- The subscribers with pending watches, each once, in the order of the watches. -/
def subscribers (service : Service) : List String :=
  (service.watches.filter (·.state = .pendingDelivery)).foldl (fun subscribers watch =>
      if watch.notifyThreadId ∈ subscribers then subscribers else subscribers ++ [watch.notifyThreadId])
    []

/-- The loop over the watches, up to its next read. -/
def observeNext (service : Service) : List Nat → Service
  | [] => service.deliverNext service.subscribers
  | id :: rest =>
    if service.closed then service.finish
    else if service.watches.any fun watch => watch.id = id && watch.state = .watching then
      { service with phase := .observing id rest }
    else observeNext service rest

/-- Changes the watches with one of these numbers. -/
def updateWatches (service : Service) (ids : List Nat) (update : Watch → Watch) : Service :=
  { service with
    watches := service.watches.map fun watch => if watch.id ∈ ids then update watch else watch }

/-- `observe` of a watch: what it keeps about the read, and the outcome. -/
def observe (watch : Watch) (read : ReadResult) (now : Int) :
    Watch × Option (ThreadWatchOutcome × Option String) :=
  let expired (watch : Watch) := if now ≥ watch.deadline then some (.timedOut, none) else none
  match read with
  | .ok snapshot =>
    match terminal snapshot.status with
    | some outcome => (watch, some (outcome, snapshot.turnId))
    | none =>
      let watch := { watch with unreadableSince := none }
      (watch, expired watch)
  | .error error =>
    if errorCode error = some "THREAD_NOT_FOUND" then (watch, some (.notFound, none))
    else
      let since := watch.unreadableSince.getD now
      let watch := { watch with unreadableSince := some since, lastReadError := some error.message }
      if now - since ≥ UNREADABLE_GRACE_MS then (watch, some (.unreadable, none))
      else (watch, expired watch)

/-- A watch after the read of its Thread. -/
def observed (read : ReadResult) (now : Int) (watch : Watch) : Watch :=
  let (watch, outcome) := observe watch read now
  match outcome with
  | none => watch
  | some (outcome, turnId) =>
    { watch with
      state := .pendingDelivery
      outcome := some outcome
      turnId := if turnId.any (· ≠ "") then turnId else watch.turnId
      deliveryDeadline := some (now + DELIVERY_WINDOW_MS) }

/-- A pending watch after a failed send. -/
def notDelivered (error : ApiError) (now : Int) (watch : Watch) : Watch :=
  if deliveryFailure error ≠ .rejected ∨ now ≥ watch.deliveryDeadline.getD 0 then
    { watch with
      state := .undeliverable
      reason := some (if deliveryFailure error = .unknown then
        s!"Delivery outcome unknown; the notification may already have started a Turn, so it is not retried ({error.message})"
        else error.message) }
  else watch

/-- Keeps the last undeliverable watches only. -/
def trimUndeliverable (service : Service) : Service :=
  let undeliverable := service.watches.filter (·.state = .undeliverable)
  let old := (undeliverable.take (undeliverable.length - MAX_UNDELIVERABLE_ENTRIES)).map (·.id)
  { service with watches := service.watches.filter (·.id ∉ old) }

/-- `deliver` after the answer to its send. -/
def delivered (service : Service) (pending : List Nat) (answer : Except ApiError Unit) (now : Int) :
    Service :=
  match answer with
  | .ok () => { service with watches := service.watches.filter (·.id ∉ pending) }
  | .error error => (service.updateWatches pending (notDelivered error now)).trimUndeliverable

/-- The last send has this answer. -/
def answerSend (service : Service) (answer : Except ApiError Unit) : Service :=
  { service with
    sends := service.sends.dropLast ++
      (service.sends.getLast?.map fun send => { send with answer := some answer }).toList }

/-- What happens to the service. -/
inductive Event where
  /-- A request starts its reads. -/
  | call (input : ThreadWatchInput)
  /-- The reads of a request are answered. -/
  | answered (request : Nat) (target subscriber : ReadResult) (now : Int)
  | timer
  | read (result : ReadResult) (now : Int)
  | sendAnswered (answer : Except ApiError Unit) (now : Int)
  | close
  /-- The Host restarts, at any time. -/
  | restart

def step (service : Service) : Event → Option Service
  | .call input =>
    match service.validateWatch input with
    | .ok timeoutMs => some { service with requests := service.requests ++ [(input, timeoutMs)] }
    | .error _ => some service
  | .answered request target subscriber now =>
    service.requests[request]?.map fun (input, timeoutMs) =>
      let service := { service with requests := service.requests.eraseIdx request }
      match target, subscriber with
      | .ok target, .ok _ => (service.register input timeoutMs target.status now).2
      | _, _ => service
  | .timer =>
    if service.timer ∧ service.phase = .idle then some (service.observeNext (service.watches.map (·.id)))
    else none
  | .read result now =>
    match service.phase with
    | .observing watch rest =>
      some ((service.updateWatches [watch] (observed result now)).observeNext rest)
    | _ => none
  | .sendAnswered answer now =>
    match service.phase with
    | .delivering pending rest =>
      some (((service.answerSend answer).delivered pending answer now).deliverNext rest)
    | _ => none
  | .close => some service.close
  | .restart => some (new service.nextWatch service.sends)

end Service

end CodexHost.Source.HostRuntime.DelegationWatch
