import CodexHost.Foundation.OrderedMap
import CodexHost.Foundation.Transition
import CodexHost.Source.SharedContracts

/-!
# The store of usage measurements

`packages/host-runtime/src/usage-measurements-store.ts`. Any number of stores share the files of
one directory, one file for each Thread, named by a hash of its scope and session. Stores of one
process queue their writes of a file in the shared `writes`. Every awaited file operation is one
event, which may also fail.
-/
namespace CodexHost.Source.HostRuntime.UsageMeasurements
open Foundation Source.SharedContracts

inductive Field where
  | outputTokensPerSecond | timeToFirstOutputMs
  deriving DecidableEq, Repr

def fields : List Field := [.outputTokensPerSecond, .timeToFirstOutputMs]

abbrev StoredUsageMeasurements := UsageMeasurementsSnapshot

def noValues : StoredUsageMeasurements := ⟨none, none⟩

def value (values : StoredUsageMeasurements) : Field → Option UsageMeasurement
  | .outputTokensPerSecond => values.outputTokensPerSecond
  | .timeToFirstOutputMs => values.timeToFirstOutputMs

def setValue (values : StoredUsageMeasurements) (field : Field) (measurement : UsageMeasurement) :
    StoredUsageMeasurements :=
  match field with
  | .outputTokensPerSecond => { values with outputTokensPerSecond := some measurement }
  | .timeToFirstOutputMs => { values with timeToFirstOutputMs := some measurement }

/-- `merge`, for one field. -/
def mergeField (source target : StoredUsageMeasurements) (field : Field) : StoredUsageMeasurements :=
  match value source field with
  | none => target
  | some measurement =>
    if (value target field).all (·.at_ < measurement.at_) then setValue target field measurement
    else target

def merge (target source : StoredUsageMeasurements) : StoredUsageMeasurements :=
  fields.foldl (mergeField source) target

structure Thread where
  scope : String
  sessionId : String
  deriving DecidableEq, Repr

/-- What is at the path of a file. -/
inductive Stored where
  | absent
  /-- A text that is not a document of version 1. -/
  | corrupt
  | document (values : StoredUsageMeasurements)
  deriving DecidableEq, Repr

/-- What `disk` returns; none for null. -/
def Stored.disk : Stored → Option StoredUsageMeasurements
  | .absent => none
  | .corrupt => some noValues
  | .document values => some values

structure BufferedSnapshot where
  values : StoredUsageMeasurements
  revision : Nat
  dirty : Bool
  /-- Whether `loaded` is there. -/
  loaded : Bool
  deriving DecidableEq, Repr

def BufferedSnapshot.empty : BufferedSnapshot := ⟨noValues, 0, false, false⟩

/-- Where the task of a `flushFile` stands. -/
inductive TaskStage where
  /-- Awaits the task before it. -/
  | queued
  | reading
  | readingLegacy
  /-- About to rename the temporary file over the file. -/
  | writing
  | written
  /-- About to remove the legacy log. -/
  | removing
  | done (failed : Bool)
  deriving DecidableEq, Repr

def TaskStage.isDone : TaskStage → Bool
  | .done _ => true
  | _ => false

/-- A task of `writes`, with its local variables. -/
structure WriteTask (I : Type) where
  store : I
  thread : Thread
  previous : Option Nat
  revision : Nat
  captured : StoredUsageMeasurements
  stage : TaskStage
  deriving DecidableEq

/-- A call of `read`. -/
inductive ReadStage where
  | reading
  | readingLegacy
  | found (values : StoredUsageMeasurements) (legacy : Bool)
  | done
  deriving DecidableEq, Repr

structure Read (I : Type) where
  store : I
  thread : Thread
  /-- The call is the one that loads. -/
  loads : Bool
  stage : ReadStage
  deriving DecidableEq

/-- Where the `close` of a store stands, with the tasks it awaits. -/
inductive CloseStage where
  | absent
  | draining (tasks : List Nat)
  | flushing (tasks : List Nat)
  | closed (tasks : List Nat)
  deriving DecidableEq, Repr

/-- A measurement that `record` put into its store. -/
structure Accepted (I : Type) where
  store : I
  thread : Thread
  field : Field
  at_ : Rat
  deriving DecidableEq

structure State (I P : Type) where
  snapshots : I → OrderedMap Thread BufferedSnapshot
  closing : I → CloseStage
  /-- `writes` of each process. -/
  writes : P → Thread → Option Nat
  tasks : List (WriteTask I)
  reads : List (Read I)
  files : Thread → Stored
  /-- What the legacy logs come to. -/
  legacy : Thread → StoredUsageMeasurements
  /-- What the stores have accepted. -/
  accepted : List (Accepted I)

def initial {I P : Type} (files : Thread → Stored) (legacy : Thread → StoredUsageMeasurements) :
    State I P where
  snapshots _ := .empty
  closing _ := .absent
  writes _ _ := none
  tasks := []
  reads := []
  files := files
  legacy := legacy
  accepted := []

section Store
variable {I P : Type} [DecidableEq I] [DecidableEq P] (process : I → P)

/-- `state` -/
def State.buffered (s : State I P) (store : I) (thread : Thread) : BufferedSnapshot :=
  ((s.snapshots store).get? thread).getD .empty

def State.setBuffered (s : State I P) (store : I) (thread : Thread) (buffered : BufferedSnapshot) :
    State I P :=
  { s with
    snapshots := Function.update s.snapshots store ((s.snapshots store).set thread buffered) }

/-- `usageMeasurementsSchema.safeParse` of one field. -/
def parseField (field : Field) (measurement : UsageMeasurement) : Option UsageMeasurement :=
  if usageMeasurementsSchema (setValue noValues field measurement) then some measurement else none

/-- The measurement that a field of a `record` puts in the place of another. -/
def accepts (values : StoredUsageMeasurements) (turnId : String) (at_ : Rat) (field : Field)
    (given : Option Rat) : Option UsageMeasurement :=
  (given.bind fun given => parseField field ⟨given, turnId, at_⟩).filter fun next =>
    (value values field).all fun prior =>
      !(at_ < prior.at_ || (prior.turnId = turnId && prior.value = next.value))

/-- The loop of `record`, for one field. -/
def State.recordField (store : I) (thread : Thread) (turnId : String) (at_ : Rat)
    (values : Field → Option Rat) (s : State I P) (field : Field) : State I P :=
  let buffered := s.buffered store thread
  match accepts buffered.values turnId at_ field (values field) with
  | none => s
  | some next =>
    { s.setBuffered store thread { buffered with
        values := setValue buffered.values field next
        revision := buffered.revision + 1
        dirty := true } with
      accepted := s.accepted ++ [⟨store, thread, field, at_⟩] }

def State.record (s : State I P) (store : I) (thread : Thread) (turnId : String) (at_ : Rat)
    (values : Field → Option Rat) : State I P :=
  if s.closing store ≠ .absent then s
  else fields.foldl (State.recordField store thread turnId at_ values)
    (s.setBuffered store thread (s.buffered store thread))

/-- The task of a flush, behind the one in `writes`. -/
def State.newTask (s : State I P) (store : I) (thread : Thread) (buffered : BufferedSnapshot) : WriteTask I :=
  { store := store, thread := thread, previous := s.writes (process store) thread
    revision := buffered.revision, captured := buffered.values, stage := .queued }

def State.enqueue (s : State I P) (store : I) (thread : Thread) (buffered : BufferedSnapshot) : State I P :=
  { s with
    tasks := s.tasks ++ [s.newTask process store thread buffered]
    writes := Function.update s.writes (process store)
      (Function.update (s.writes (process store)) thread (some s.tasks.length)) }

/-- `flushFile`, with the task it returns. -/
def State.flushFile (s : State I P) (store : I) (thread : Thread) : State I P × Option Nat :=
  match ((s.snapshots store).get? thread).filter (·.dirty) with
  | none => (s, none)
  | some buffered => (s.enqueue process store thread buffered, some s.tasks.length)

/-- The flushes of `close`. -/
def State.flushAll (s : State I P) (store : I) : List Thread → State I P × List Nat
  | [] => (s, [])
  | thread :: threads =>
    let (s, task) := s.flushFile process store thread
    let (s, tasks) := s.flushAll store threads
    (s, task.toList ++ tasks)

def State.doneTask (s : State I P) (task : Nat) : Bool :=
  (s.tasks[task]?).any (·.stage.isDone)

def State.setTask (s : State I P) (number : Nat) (task : WriteTask I) : State I P :=
  { s with tasks := s.tasks.set number task }

/-- The `finally` of a task. -/
def State.settle (s : State I P) (number : Nat) (task : WriteTask I) (failed : Bool) : State I P :=
  let owner := process task.store
  let writes := if s.writes owner task.thread = some number then
      Function.update s.writes owner (Function.update (s.writes owner) task.thread none)
    else s.writes
  { s.setTask number { task with stage := .done failed } with writes := writes }

/-- A task that knows the values on disk and those of the legacy log. -/
def State.decide (s : State I P) (number : Nat) (task : WriteTask I)
    (disk : Option StoredUsageMeasurements) (legacy : StoredUsageMeasurements) : State I P :=
  let captured := merge task.captured (disk.getD legacy)
  if !usageMeasurementsSchema captured then s.settle process number task true
  else
    s.setTask number { task with
      captured := captured
      stage := if disk ≠ some captured then .writing else .written }

/-- The continuation of a task after its `await`. -/
def State.advance (s : State I P) (number : Nat) (task : WriteTask I) : Option (State I P) :=
  match task.stage with
  | .queued =>
    if task.previous.all s.doneTask then
      some (if !(s.buffered task.store task.thread).dirty then s.settle process number task false
        else s.setTask number { task with stage := .reading })
    else none
  | .reading =>
    match (s.files task.thread).disk with
    | none => some (s.setTask number { task with stage := .readingLegacy })
    | some disk => some (s.decide process number task (some disk) noValues)
  | .readingLegacy => some (s.decide process number task none (s.legacy task.thread))
  | .writing =>
    some { s.setTask number { task with stage := .written } with
      files := Function.update s.files task.thread (.document task.captured) }
  | .written =>
    let buffered := s.buffered task.store task.thread
    some ((s.setBuffered task.store task.thread { buffered with
      values := merge buffered.values task.captured
      dirty := buffered.dirty && buffered.revision ≠ task.revision }).setTask number
        { task with stage := .removing })
  | .removing =>
    some { s.settle process number task false with
      legacy := Function.update s.legacy task.thread noValues }
  | .done _ => none

/-- The continuation of a call of `read`. -/
def State.advanceRead (s : State I P) (number : Nat) (read : Read I) : Option (State I P) :=
  let become := fun stage => { s with reads := s.reads.set number { read with stage := stage } }
  let buffered := s.buffered read.store read.thread
  match read.stage with
  | .reading =>
    match (s.files read.thread).disk with
    | some disk => some (become (.found disk false))
    | none => some (become (if read.loads then .readingLegacy else .done))
  | .readingLegacy => some (become (.found (s.legacy read.thread) true))
  | .found values legacy =>
    some ({ s with reads := s.reads.set number { read with stage := .done } }.setBuffered
      read.store read.thread { buffered with
        values := merge buffered.values values
        dirty := buffered.dirty || (legacy && values ≠ noValues) })
  | .done => none

inductive Event (I : Type) where
  | record (store : I) (thread : Thread) (turnId : String) (at_ : Rat) (values : Field → Option Rat)
  | flush (store : I) (thread : Thread)
  | read (store : I) (thread : Thread)
  /-- The awaited operation of a task or of a read succeeds. -/
  | advance (task : Nat)
  | advanceRead (read : Nat)
  /-- The awaited operation fails. -/
  | fail (task : Nat)
  | failRead (read : Nat)
  | close (store : I)
  /-- A call of `close` goes on after its `await`. -/
  | closeNext (store : I)

/-- The tasks of a store that have not settled: `pending`. -/
def State.pending (s : State I P) (store : I) : List Nat :=
  (List.range s.tasks.length).filter fun number =>
    (s.tasks[number]?).any fun task => task.store = store && !task.stage.isDone

/-- The state after the event; none when the event is not due. -/
def step (s : State I P) : Event I → Option (State I P)
  | .record store thread turnId at_ values => some (s.record store thread turnId at_ values)
  | .flush store thread => some (s.flushFile process store thread).1
  | .read store thread =>
    let buffered := s.buffered store thread
    some { s.setBuffered store thread { buffered with loaded := true } with
      reads := s.reads ++ [⟨store, thread, !buffered.loaded, .reading⟩] }
  | .advance number => (s.tasks[number]?).bind (s.advance process number)
  | .advanceRead number => (s.reads[number]?).bind (s.advanceRead number)
  | .fail number => (s.tasks[number]?).bind fun task =>
    match task.stage with
    | .queued | .done _ => none
    | _ => some (s.settle process number task true)
  | .failRead number => (s.reads[number]?).bind fun read =>
    match read.stage with
    | .reading =>
      let buffered := s.buffered read.store read.thread
      some ({ s with reads := s.reads.set number { read with stage := .done } }.setBuffered
        read.store read.thread { buffered with loaded := buffered.loaded && !read.loads })
    | _ => none
  | .close store =>
    some (if s.closing store = .absent then
      { s with closing := Function.update s.closing store (.draining (s.pending store)) } else s)
  | .closeNext store =>
    match s.closing store with
    | .draining tasks =>
      if tasks.all s.doneTask then
        let (s, tasks) := s.flushAll process store (s.snapshots store).keys
        some { s with closing := Function.update s.closing store (.flushing tasks) }
      else none
    | .flushing tasks =>
      if tasks.all s.doneTask then
        some { s with closing := Function.update s.closing store (.closed tasks) }
      else none
    | .absent | .closed _ => none

/-- The runs over the files of a directory. -/
def Reaches (files : Thread → Stored) (legacy : Thread → StoredUsageMeasurements)
    (events : List (Event I)) (s : State I P) : Prop :=
  Run (fun s event s' => step process s event = some s') (initial files legacy) events s

end Store

end CodexHost.Source.HostRuntime.UsageMeasurements
