import CodexHost.Foundation.OrderedMap

/-!
# Session occupancy for background Claude Subagents

`packages/adapters/claude-code/src/background-occupancy.ts`. A task is an object in one map only, so a
change of its fields is a new value under its key.
-/
namespace CodexHost.Source.ClaudeCode
open Foundation

inductive OccupiedState where
  | running
  | notified
  deriving DecidableEq, Repr

structure OccupiedSubagent where
  state : OccupiedState
  callId : Option String
  nativeSubagentId : Option String
  deriving DecidableEq, Repr

structure ClaudeBackgroundOccupancy where
  tasks : OrderedMap String OccupiedSubagent
  keyByCall : OrderedMap String String
  keyByAgent : OrderedMap String String

namespace ClaudeBackgroundOccupancy

def initial : ClaudeBackgroundOccupancy := { tasks := .empty, keyByCall := .empty, keyByAgent := .empty }

/-- An id that is there and not empty. -/
def truthy (id : Option String) : Option String := id.filter (· ≠ "")

section Reads
variable (occupancy : ClaudeBackgroundOccupancy)

def unsettled : Bool := decide (occupancy.tasks.entries.length > 0)

def awaitingContinuation : Bool := occupancy.tasks.values.any (·.state == .notified)

def lookup (callId nativeSubagentId : Option String) : Option String :=
  match (truthy nativeSubagentId).bind occupancy.keyByAgent.get? with
  | some key => some key
  | none => (truthy callId).bind occupancy.keyByCall.get?

def runningTaskIds : List String :=
  occupancy.tasks.values.filterMap fun task =>
    if task.state = .running then truthy task.nativeSubagentId else none

end Reads

section Operations
variable (occupancy : ClaudeBackgroundOccupancy)

def bind (callId nativeSubagentId : String) : ClaudeBackgroundOccupancy :=
  match occupancy.lookup (some callId) (some nativeSubagentId) with
  | none => occupancy
  | some key =>
    match occupancy.tasks.get? key with
    | none => occupancy
    | some task =>
      { tasks := occupancy.tasks.set key
          { task with callId := some callId, nativeSubagentId := some nativeSubagentId }
        keyByCall := occupancy.keyByCall.set callId key
        keyByAgent := occupancy.keyByAgent.set nativeSubagentId key }

def occupySpawn (callId : String) (nativeSubagentId : Option String) : ClaudeBackgroundOccupancy :=
  match occupancy.lookup (some callId) nativeSubagentId, truthy nativeSubagentId with
  | some _, some agent => occupancy.bind callId agent
  | some _, none => occupancy
  | none, agent =>
    { tasks := occupancy.tasks.set callId
        { state := .running, callId := some callId, nativeSubagentId := agent }
      keyByCall := occupancy.keyByCall.set callId callId
      keyByAgent :=
        match agent with
        | some agent => occupancy.keyByAgent.set agent callId
        | none => occupancy.keyByAgent }

def setState (key : String) (state : OccupiedState) : ClaudeBackgroundOccupancy :=
  match occupancy.tasks.get? key with
  | none => occupancy
  | some task => { occupancy with tasks := occupancy.tasks.set key { task with state } }

def occupyAgent (nativeSubagentId : String) : ClaudeBackgroundOccupancy :=
  match (occupancy.lookup none (some nativeSubagentId)).filter occupancy.tasks.has with
  | some key => occupancy.setState key .running
  | none =>
    { occupancy with
      tasks := occupancy.tasks.set nativeSubagentId
        { state := .running, callId := none, nativeSubagentId := some nativeSubagentId }
      keyByAgent := occupancy.keyByAgent.set nativeSubagentId nativeSubagentId }

def notify (callId nativeSubagentId : Option String) : ClaudeBackgroundOccupancy :=
  match occupancy.lookup callId nativeSubagentId with
  | none => occupancy
  | some key =>
    match truthy callId, truthy nativeSubagentId with
    | some call, some agent => (occupancy.bind call agent).setState key .notified
    | _, _ => occupancy.setState key .notified

def remove (key : String) : ClaudeBackgroundOccupancy :=
  match occupancy.tasks.get? key with
  | none => occupancy
  | some task =>
    { tasks := occupancy.tasks.delete key
      keyByCall :=
        match truthy task.callId with
        | some callId => occupancy.keyByCall.delete callId
        | none => occupancy.keyByCall
      keyByAgent :=
        match truthy task.nativeSubagentId with
        | some agent => occupancy.keyByAgent.delete agent
        | none => occupancy.keyByAgent }

def release (callId nativeSubagentId : Option String) : ClaudeBackgroundOccupancy :=
  match occupancy.lookup callId nativeSubagentId with
  | none => occupancy
  | some key => occupancy.remove key

def observeLive (nativeSubagentIds : List String) : ClaudeBackgroundOccupancy :=
  occupancy.tasks.entries.foldl (fun occupancy entry =>
    match entry.2.state, truthy entry.2.nativeSubagentId with
    | .running, some agent =>
      if nativeSubagentIds.contains agent then occupancy else occupancy.setState entry.1 .notified
    | _, _ => occupancy) occupancy

def releaseContinuations : ClaudeBackgroundOccupancy :=
  occupancy.tasks.entries.foldl (fun occupancy entry =>
    if entry.2.state = .notified then occupancy.remove entry.1 else occupancy) occupancy

def clear : ClaudeBackgroundOccupancy := initial

def interruptAll : List String × ClaudeBackgroundOccupancy :=
  (occupancy.tasks.values.filterMap fun task => truthy task.nativeSubagentId, clear)

end Operations

inductive Operation where
  | occupySpawn (callId : String) (nativeSubagentId : Option String)
  | occupyAgent (nativeSubagentId : String)
  | bind (callId nativeSubagentId : String)
  | notify (callId nativeSubagentId : Option String)
  | release (callId nativeSubagentId : Option String)
  | observeLive (nativeSubagentIds : List String)
  | releaseContinuations
  | interruptAll
  | clear
  deriving DecidableEq, Repr

def perform (occupancy : ClaudeBackgroundOccupancy) : Operation → ClaudeBackgroundOccupancy
  | .occupySpawn callId nativeSubagentId => occupancy.occupySpawn callId nativeSubagentId
  | .occupyAgent nativeSubagentId => occupancy.occupyAgent nativeSubagentId
  | .bind callId nativeSubagentId => occupancy.bind callId nativeSubagentId
  | .notify callId nativeSubagentId => occupancy.notify callId nativeSubagentId
  | .release callId nativeSubagentId => occupancy.release callId nativeSubagentId
  | .observeLive nativeSubagentIds => occupancy.observeLive nativeSubagentIds
  | .releaseContinuations => occupancy.releaseContinuations
  | .interruptAll => occupancy.interruptAll.2
  | .clear => clear

/-- The occupancy after a run. -/
def after (run : List Operation) : ClaudeBackgroundOccupancy := run.foldl perform initial

end ClaudeBackgroundOccupancy

end CodexHost.Source.ClaudeCode
