import CodexHost.Source.ClaudeCode.BackgroundOccupancy

/-!
# Background tasks under two keys

A binding writes new index entries and leaves the old ones, and the removal of a task deletes only the
entries of its last ids. So the indexes are right as long as a binding only adds ids that were missing.
-/
namespace CodexHost.Guarantees.BackgroundTasks
open Foundation Source.ClaudeCode Source.ClaudeCode.ClaudeBackgroundOccupancy OrderedMap

variable {key : String} {task : OccupiedSubagent}

section Indexes

/-- An index names exactly the tasks with an id of its kind. -/
def IndexOf (idOf : OccupiedSubagent → Option String) (tasks : OrderedMap String OccupiedSubagent)
    (index : OrderedMap String String) : Prop :=
  ∀ id key, index.get? id = some key ↔ ∃ task, tasks.get? key = some task ∧ idOf task = some id

variable {idOf : OccupiedSubagent → Option String} {tasks : OrderedMap String OccupiedSubagent}
variable {index : OrderedMap String String}

/-- The index with an entry for an id, if there is one. -/
def filed (index : OrderedMap String String) (id : Option String) (key : String) : OrderedMap String String :=
  match id with
  | some id => index.set id key
  | none => index

section
variable (right : IndexOf idOf tasks index)
include right

/-- A task may get an id that it did not have and that no other task has. -/
theorem IndexOf.set
    (same : ∀ old, tasks.get? key = some old → idOf old = none ∨ idOf old = idOf task)
    (free : ∀ id, idOf task = some id → index.get? id = none ∨ index.get? id = some key) :
    IndexOf idOf (tasks.set key task) (filed index (idOf task) key) := by
  intro id other
  have entry : (filed index (idOf task) key).get? id =
      if idOf task = some id then some key else index.get? id := by
    cases is : idOf task with
    | none => rfl
    | some own =>
      rw [filed, get?_set]
      by_cases equal : id = own
      · simp [equal]
      · simp [equal, Ne.symm equal]
  rw [entry, get?_set]
  by_cases own : idOf task = some id
  · rw [if_pos own]
    by_cases this : other = key
    · simp [this, own]
    · rw [if_neg this, Option.some.injEq]
      constructor
      · exact fun is => absurd is.symm this
      · intro has
        have known := (right id other).2 has
        rcases free id own with none | at_
        · rw [none] at known
          simp at known
        · rw [at_] at known
          exact Option.some.inj known
  · rw [if_neg own]
    by_cases this : other = key
    · subst this
      rw [if_pos rfl, right id other]
      constructor
      · rintro ⟨old, has, is⟩
        rcases same old has with none | equal
        · rw [none] at is
          simp at is
        · exact absurd (equal ▸ is) own
      · rintro ⟨new, is, named⟩
        rw [Option.some.injEq] at is
        exact absurd (is ▸ named) own
    · rw [if_neg this]
      exact right id other

theorem IndexOf.keep {old task : OccupiedSubagent}
    (has : tasks.get? key = some old) (same : idOf task = idOf old) :
    IndexOf idOf (tasks.set key task) index := by
  intro id other
  rw [right id other, get?_set]
  by_cases this : other = key
  · simp [this, has, same]
  · simp [this]

theorem IndexOf.remove
    (has : tasks.get? key = some task) (named : idOf task ≠ some "") :
    IndexOf idOf (tasks.delete key)
      (match truthy (idOf task) with | some id => index.delete id | none => index) := by
  have entry (id : String) : (match truthy (idOf task) with | some id => index.delete id | none => index).get? id =
      if idOf task = some id then none else index.get? id := by
    cases is : idOf task with
    | none => rfl
    | some own =>
      have present : truthy (some own) = some own := by
        rw [truthy, Option.filter_some, if_pos]
        rw [is] at named
        simpa using named
      rw [present]
      rw [get?_delete]
      by_cases equal : id = own
      · simp [equal]
      · simp [equal, Ne.symm equal]
  intro id other
  rw [entry, get?_delete]
  by_cases own : idOf task = some id
  · rw [if_pos own]
    by_cases this : other = key
    · simp [this]
    · rw [if_neg this]
      constructor
      · intro none
        simp at none
      · intro known
        have first := (right id key).2 ⟨task, has, own⟩
        rw [(right id other).2 known, Option.some.injEq] at first
        exact absurd first this
  · rw [if_neg own]
    by_cases this : other = key
    · subst this
      rw [if_pos rfl, right id other]
      constructor
      · rintro ⟨old, is, known⟩
        rw [has, Option.some.injEq] at is
        exact absurd (is ▸ known) own
      · rintro ⟨_, none, _⟩
        simp at none
    · rw [if_neg this]
      exact right id other

end

end Indexes

/-- Both indexes name exactly the present tasks, each of which has ids that are not empty. -/
structure Filed (occupancy : ClaudeBackgroundOccupancy) : Prop where
  calls : IndexOf (·.callId) occupancy.tasks occupancy.keyByCall
  agents : IndexOf (·.nativeSubagentId) occupancy.tasks occupancy.keyByAgent
  named : ∀ key task, occupancy.tasks.get? key = some task →
    task.callId ≠ some "" ∧ task.nativeSubagentId ≠ some ""

/-- A binding finds a task, if any, that has no other ids, and the call is that task's or no task's. -/
structure Binds (occupancy : ClaudeBackgroundOccupancy) (callId nativeSubagentId : String) : Prop where
  call : callId ≠ ""
  agent : nativeSubagentId ≠ ""
  task : ∀ key task, occupancy.lookup (some callId) (some nativeSubagentId) = some key →
    occupancy.tasks.get? key = some task → (task.callId = none ∨ task.callId = some callId) ∧
      (task.nativeSubagentId = none ∨ task.nativeSubagentId = some nativeSubagentId) ∧
      (occupancy.keyByCall.get? callId = none ∨ occupancy.keyByCall.get? callId = some key)

/-- The condition on one operation: ids are not empty, a new task does not take another task's key, and a
binding only adds ids. -/
def Orderly (occupancy : ClaudeBackgroundOccupancy) : Operation → Prop
  | .occupySpawn callId nativeSubagentId =>
    callId ≠ "" ∧
    match occupancy.lookup (some callId) nativeSubagentId, truthy nativeSubagentId with
    | none, _ => occupancy.tasks.get? callId = none
    | some _, some agent => Binds occupancy callId agent
    | some _, none => True
  | .occupyAgent nativeSubagentId =>
    nativeSubagentId ≠ "" ∧
      (occupancy.keyByAgent.get? nativeSubagentId = none → occupancy.tasks.get? nativeSubagentId = none)
  | .bind callId nativeSubagentId => Binds occupancy callId nativeSubagentId
  | .notify callId nativeSubagentId =>
    ∀ call agent, truthy callId = some call → truthy nativeSubagentId = some agent →
      Binds occupancy call agent
  | _ => True

/-- Every operation of a run meets the condition in the state it finds. -/
def OrderlyRun (occupancy : ClaudeBackgroundOccupancy) : List Operation → Prop
  | [] => True
  | operation :: run => Orderly occupancy operation ∧ OrderlyRun (perform occupancy operation) run

section Lookup
variable {occupancy : ClaudeBackgroundOccupancy}

theorem truthy_some {id : String} (present : id ≠ "") : truthy (some id) = some id := by
  rw [truthy, Option.filter_some, if_pos (by simpa using present)]

theorem truthy_eq_some {id : Option String} {is : String} (known : truthy id = some is) :
    id = some is ∧ is ≠ "" := by
  rw [truthy, Option.filter_eq_some_iff] at known
  exact ⟨known.1, by simpa using known.2⟩

/-- An agent that is filed is found first. -/
theorem lookup_agent {callId : Option String} {agent key : String} (present : agent ≠ "")
    (filed : occupancy.keyByAgent.get? agent = some key) :
    occupancy.lookup callId (some agent) = some key := by
  rw [lookup, truthy_some present]
  simp [filed]

variable {callId nativeSubagentId : Option String}

theorem lookup_some (found : occupancy.lookup callId nativeSubagentId = some key) :
    (∃ agent, truthy nativeSubagentId = some agent ∧ occupancy.keyByAgent.get? agent = some key) ∨
      ((truthy nativeSubagentId).bind occupancy.keyByAgent.get? = none ∧
        ∃ call, truthy callId = some call ∧ occupancy.keyByCall.get? call = some key) := by
  rw [lookup] at found
  split at found
  · rename_i other is
    rw [Option.bind_eq_some_iff] at is
    rw [← found]
    exact .inl is
  · rename_i none
    rw [Option.bind_eq_some_iff] at found
    exact .inr ⟨none, found⟩

theorem lookup_none (missing : occupancy.lookup callId nativeSubagentId = none) :
    (∀ agent, truthy nativeSubagentId = some agent → occupancy.keyByAgent.get? agent = none) ∧
      ∀ call, truthy callId = some call → occupancy.keyByCall.get? call = none := by
  rw [lookup] at missing
  split at missing
  · simp at missing
  · rename_i none
    refine ⟨fun agent is => ?_, fun call is => ?_⟩
    · rwa [is] at none
    · rwa [is] at missing

theorem Filed.found (right : Filed occupancy) (found : occupancy.lookup callId nativeSubagentId = some key) :
    ∃ task, occupancy.tasks.get? key = some task := by
  rcases lookup_some found with ⟨agent, _, known⟩ | ⟨_, call, _, known⟩
  · obtain ⟨task, has, _⟩ := (right.agents agent key).1 known
    exact ⟨task, has⟩
  · obtain ⟨task, has, _⟩ := (right.calls call key).1 known
    exact ⟨task, has⟩

theorem Filed.lookup_present (right : Filed occupancy) (callId nativeSubagentId : Option String) :
    (occupancy.lookup callId nativeSubagentId).filter occupancy.tasks.has =
      occupancy.lookup callId nativeSubagentId := by
  cases found : occupancy.lookup callId nativeSubagentId with
  | none => rfl
  | some key =>
    obtain ⟨task, has⟩ := right.found found
    have known : occupancy.tasks.has key = true := (has_iff _ _).2 ⟨task, has⟩
    rw [Option.filter_some, if_pos known]

end Lookup

variable {operation : Operation}

section Operations
variable {occupancy : ClaudeBackgroundOccupancy}

theorem filed_initial : Filed initial := by
  have empty (idOf : OccupiedSubagent → Option String) : IndexOf idOf .empty .empty := by
    intro id key
    simp
  exact ⟨empty _, empty _, fun _ _ has => by simp [initial] at has⟩

section
variable (right : Filed occupancy)
include right

theorem Filed.bound {callId agent : String} (binds : Binds occupancy callId agent) :
    Filed (occupancy.bind callId agent) := by
  rw [ClaudeBackgroundOccupancy.bind]
  cases found : occupancy.lookup (some callId) (some agent) with
  | none => exact right
  | some key =>
    dsimp only
    cases has : occupancy.tasks.get? key with
    | none => exact right
    | some task =>
      obtain ⟨call, native, free⟩ := binds.task key task found has
      have agentFree : occupancy.keyByAgent.get? agent = none ∨ occupancy.keyByAgent.get? agent = some key := by
        cases known : occupancy.keyByAgent.get? agent with
        | none => exact .inl rfl
        | some other =>
          rw [lookup_agent binds.agent known] at found
          exact .inr found
      refine ⟨?_, ?_, fun other task' is => ?_⟩
      · refine right.calls.set (fun old is => ?_) fun id is => ?_
        · rw [has, Option.some.injEq] at is
          exact is ▸ call
        · rw [← Option.some.inj is]
          exact free
      · refine right.agents.set (fun old is => ?_) fun id is => ?_
        · rw [has, Option.some.injEq] at is
          exact is ▸ native
        · rw [← Option.some.inj is]
          exact agentFree
      · rw [get?_set] at is
        by_cases this : other = key
        · rw [if_pos this, Option.some.injEq] at is
          subst is
          exact ⟨by simpa using binds.call, by simpa using binds.agent⟩
        · rw [if_neg this] at is
          exact right.named other task' is

theorem Filed.created (task : OccupiedSubagent)
    (absent : occupancy.tasks.get? key = none)
    (named : task.callId ≠ some "" ∧ task.nativeSubagentId ≠ some "")
    (call : ∀ id, task.callId = some id → occupancy.keyByCall.get? id = none)
    (agent : ∀ id, task.nativeSubagentId = some id → occupancy.keyByAgent.get? id = none) :
    Filed { tasks := occupancy.tasks.set key task
            keyByCall := filed occupancy.keyByCall task.callId key
            keyByAgent := filed occupancy.keyByAgent task.nativeSubagentId key } := by
  have none (old : OccupiedSubagent) (is : occupancy.tasks.get? key = some old) : False := by
    rw [absent] at is
    simp at is
  refine ⟨?_, ?_, fun other task' is => ?_⟩
  · exact right.calls.set (fun old is => (none old is).elim) fun id is => .inl (call id is)
  · exact right.agents.set (fun old is => (none old is).elim) fun id is => .inl (agent id is)
  · rw [get?_set] at is
    by_cases this : other = key
    · rw [if_pos this, Option.some.injEq] at is
      exact is ▸ named
    · rw [if_neg this] at is
      exact right.named other task' is

theorem Filed.spawned {callId : String} {nativeSubagentId : Option String}
    (orderly : Orderly occupancy (.occupySpawn callId nativeSubagentId)) :
    Filed (occupancy.occupySpawn callId nativeSubagentId) := by
  obtain ⟨present, rest⟩ := orderly
  rw [occupySpawn]
  cases found : occupancy.lookup (some callId) nativeSubagentId with
  | none =>
    rw [found] at rest
    obtain ⟨agents, calls⟩ := lookup_none found
    cases agent : truthy nativeSubagentId with
    | none =>
      have created := right.created
        { state := .running, callId := some callId, nativeSubagentId := none } rest
        ⟨by simpa using present, by simp⟩
        (fun id is => calls id (by rw [truthy_some present]; exact is)) (fun id is => by simp at is)
      exact created
    | some native =>
      have created := right.created
        { state := .running, callId := some callId, nativeSubagentId := some native } rest
        ⟨by simpa using present, by simpa using (truthy_eq_some agent).2⟩
        (fun id is => calls id (by rw [truthy_some present]; exact is))
        (fun id is => agents id (by rw [agent]; exact is))
      exact created
  | some key =>
    rw [found] at rest
    cases agent : truthy nativeSubagentId with
    | none => exact right
    | some native =>
      rw [agent] at rest
      exact right.bound rest

theorem Filed.stateSet (key : String) (state : OccupiedState) :
    Filed (occupancy.setState key state) := by
  rw [setState]
  cases has : occupancy.tasks.get? key with
  | none => exact right
  | some task =>
    refine ⟨right.calls.keep has rfl, right.agents.keep has rfl, fun other task' is => ?_⟩
    rw [get?_set] at is
    by_cases this : other = key
    · rw [if_pos this, Option.some.injEq] at is
      exact is ▸ right.named key task has
    · rw [if_neg this] at is
      exact right.named other task' is

theorem Filed.agentOccupied {agent : String}
    (orderly : Orderly occupancy (.occupyAgent agent)) : Filed (occupancy.occupyAgent agent) := by
  obtain ⟨present, free⟩ := orderly
  rw [occupyAgent, right.lookup_present]
  cases found : occupancy.lookup none (some agent) with
  | none =>
    have unknown := (lookup_none found).1 agent (truthy_some present)
    have created := right.created
      { state := .running, callId := none, nativeSubagentId := some agent } (free unknown)
      ⟨by simp, by simpa using present⟩ (fun id is => by simp at is)
      (fun id is => Option.some.inj is ▸ unknown)
    exact created
  | some key => exact right.stateSet key .running

theorem Filed.removed (key : String) : Filed (occupancy.remove key) := by
  rw [remove]
  cases has : occupancy.tasks.get? key with
  | none => exact right
  | some task =>
    obtain ⟨call, agent⟩ := right.named key task has
    refine ⟨right.calls.remove has call, right.agents.remove has agent, fun other task' is => ?_⟩
    exact right.named other task' (kept_of_delete is).2

/-- Every operation that meets the condition keeps the indexes right. -/
theorem Filed.performed
    (orderly : Orderly occupancy operation) : Filed (perform occupancy operation) := by
  cases operation with
  | occupySpawn callId agent => exact right.spawned orderly
  | occupyAgent agent => exact right.agentOccupied orderly
  | bind callId agent => exact right.bound orderly
  | notify callId agent =>
    rw [perform, notify]
    cases occupancy.lookup callId agent with
    | none => exact right
    | some key =>
      cases call : truthy callId with
      | none => exact right.stateSet key .notified
      | some call' =>
        cases native : truthy agent with
        | none => exact right.stateSet key .notified
        | some native' => exact (right.bound (orderly call' native' call native)).stateSet key .notified
  | release callId agent =>
    rw [perform, release]
    cases occupancy.lookup callId agent with
    | none => exact right
    | some key => exact right.removed key
  | observeLive live =>
    rw [perform, observeLive]
    generalize occupancy.tasks.entries = entries
    induction entries generalizing occupancy with
    | nil => exact right
    | cons entry entries ih =>
      rw [List.foldl_cons]
      refine ih ?_ trivial
      split
      · split
        · exact right
        · exact right.stateSet _ _
      · exact right
  | releaseContinuations =>
    rw [perform, releaseContinuations]
    generalize occupancy.tasks.entries = entries
    induction entries generalizing occupancy with
    | nil => exact right
    | cons entry entries ih =>
      rw [List.foldl_cons]
      refine ih ?_ trivial
      split
      · exact right.removed _
      · exact right
  | interruptAll | clear => exact filed_initial

theorem Filed.run {run : List Operation} (orderly : OrderlyRun occupancy run) :
    Filed (run.foldl perform occupancy) := by
  induction run generalizing occupancy with
  | nil => exact right
  | cons operation run ih => exact ih (right.performed orderly.1) orderly.2

end

end Operations

section Presence

/-- What a task is known by. -/
inductive Identity where
  | call (id : String)
  | agent (id : String)
  deriving DecidableEq, Repr

def Names : Identity → OccupiedSubagent → Prop
  | .call id, task => task.callId = some id
  | .agent id, task => task.nativeSubagentId = some id

/-- A task with this id is present. -/
def Occupied (occupancy : ClaudeBackgroundOccupancy) (identity : Identity) : Prop :=
  ∃ key task, occupancy.tasks.get? key = some task ∧ Names identity task

/-- The operation is to take the task of this key away. -/
def Removes (occupancy : ClaudeBackgroundOccupancy) : Operation → String → Prop
  | .release callId agent, key => occupancy.lookup callId agent = some key
  | .releaseContinuations, key => ∃ task, occupancy.tasks.get? key = some task ∧ task.state = .notified
  | .interruptAll, _ => True
  | .clear, _ => True
  | _, _ => False

/-- No operation of a run takes away the task with this id. -/
def Unended (identity : Identity) (occupancy : ClaudeBackgroundOccupancy) : List Operation → Prop
  | [] => True
  | operation :: run =>
    (∀ key task, occupancy.tasks.get? key = some task → Names identity task →
      ¬ Removes occupancy operation key) ∧
    Unended identity (perform occupancy operation) run

/-- The operation occupies the Session for a task with this id. -/
def Occupies : Operation → Identity → Prop
  | .occupySpawn callId _, .call id => id = callId
  | .occupySpawn _ nativeSubagentId, .agent id => truthy nativeSubagentId = some id
  | .occupyAgent nativeSubagentId, .agent id => id = nativeSubagentId
  | _, _ => False

/-- The task of a key is there still, with all its ids. -/
def Stays (before after : ClaudeBackgroundOccupancy) (key : String) : Prop :=
  ∀ task, before.tasks.get? key = some task →
    ∃ task', after.tasks.get? key = some task' ∧ ∀ identity, Names identity task → Names identity task'

variable {occupancy : ClaudeBackgroundOccupancy}

theorem Stays.refl (occupancy : ClaudeBackgroundOccupancy) (key : String) : Stays occupancy occupancy key :=
  fun task has => ⟨task, has, fun _ named => named⟩

theorem Stays.trans {first second third : ClaudeBackgroundOccupancy} {key : String}
    (stays : Stays first second key) (next : Stays second third key) : Stays first third key := by
  intro task has
  obtain ⟨task', has', named⟩ := stays task has
  obtain ⟨task'', has'', named'⟩ := next task' has'
  exact ⟨task'', has'', fun identity is => named' identity (named identity is)⟩

theorem stays_set {tasks : OrderedMap String OccupiedSubagent} {keyByCall keyByAgent : OrderedMap String String}
    {key written : String} (is : tasks = occupancy.tasks.set written task)
    (keeps : ∀ old, occupancy.tasks.get? written = some old → ∀ identity, Names identity old → Names identity task) :
    Stays occupancy { tasks, keyByCall, keyByAgent } key := by
  intro old has
  subst is
  rw [get?_set]
  by_cases this : key = written
  · subst this
    exact ⟨task, by simp, keeps old has⟩
  · exact ⟨old, by rw [if_neg this, has], fun _ named => named⟩

theorem stays_setState (occupancy : ClaudeBackgroundOccupancy) (key other : String) (state : OccupiedState) :
    Stays occupancy (occupancy.setState other state) key := by
  rw [setState]
  cases has : occupancy.tasks.get? other with
  | none => exact Stays.refl _ _
  | some task =>
    refine stays_set rfl fun old is identity named => ?_
    rw [has, Option.some.injEq] at is
    subst is
    cases identity <;> exact named

theorem Binds.stays {callId agent : String} (binds : Binds occupancy callId agent) (key : String) :
    Stays occupancy (occupancy.bind callId agent) key := by
  rw [ClaudeBackgroundOccupancy.bind]
  cases found : occupancy.lookup (some callId) (some agent) with
  | none => exact Stays.refl _ _
  | some bound =>
    dsimp only
    cases has : occupancy.tasks.get? bound with
    | none => exact Stays.refl _ _
    | some task =>
      obtain ⟨call, native, _⟩ := binds.task bound task found has
      refine stays_set rfl fun old is identity named => ?_
      rw [has, Option.some.injEq] at is
      subst is
      cases identity with
      | call id =>
        rcases call with none | same
        · exact absurd (none.symm.trans named) (by simp)
        · exact same.symm.trans named
      | agent id =>
        rcases native with none | same
        · exact absurd (none.symm.trans named) (by simp)
        · exact same.symm.trans named

theorem stays_remove {key other : String} (differs : key ≠ other) :
    Stays occupancy (occupancy.remove other) key := by
  intro task has
  rw [remove]
  cases occupancy.tasks.get? other with
  | none => exact ⟨task, has, fun _ named => named⟩
  | some removed => exact ⟨task, by rw [get?_delete, if_neg differs, has], fun _ named => named⟩

/-- Nothing but a removal takes a task away. -/
theorem stays_perform (right : Filed occupancy) (orderly : Orderly occupancy operation)
    (remains : ¬ Removes occupancy operation key) : Stays occupancy (perform occupancy operation) key := by
  cases operation with
  | occupySpawn callId agent =>
    obtain ⟨_, rest⟩ := orderly
    rw [perform, occupySpawn]
    cases found : occupancy.lookup (some callId) agent with
    | none =>
      rw [found] at rest
      cases native : truthy agent with
      | none => exact stays_set rfl fun old is => by simp [rest] at is
      | some id => exact stays_set rfl fun old is => by simp [rest] at is
    | some bound =>
      rw [found] at rest
      cases native : truthy agent with
      | none => exact Stays.refl _ _
      | some id =>
        rw [native] at rest
        exact rest.stays key
  | occupyAgent agent =>
    rw [perform, occupyAgent, right.lookup_present]
    cases found : occupancy.lookup none (some agent) with
    | some bound => exact stays_setState _ _ _ _
    | none =>
      have absent := orderly.2 ((lookup_none found).1 agent (truthy_some orderly.1))
      exact stays_set rfl fun old is => by simp [absent] at is
  | bind callId agent => exact Binds.stays orderly key
  | notify callId agent =>
    rw [perform, notify]
    cases occupancy.lookup callId agent with
    | none => exact Stays.refl _ _
    | some bound =>
      cases call : truthy callId with
      | none => exact stays_setState _ _ _ _
      | some call' =>
        cases native : truthy agent with
        | none => exact stays_setState _ _ _ _
        | some native' =>
          exact ((orderly call' native' call native).stays key).trans (stays_setState _ _ _ _)
  | release callId agent =>
    rw [perform, release]
    cases found : occupancy.lookup callId agent with
    | none => exact Stays.refl _ _
    | some bound => exact stays_remove fun same => remains (by rw [Removes, found, same])
  | observeLive live =>
    rw [perform, observeLive]
    clear remains orderly right
    generalize occupancy.tasks.entries = entries
    induction entries generalizing occupancy with
    | nil => exact Stays.refl _ _
    | cons entry entries ih =>
      rw [List.foldl_cons]
      refine Stays.trans ?_ ih
      split
      · split
        · exact Stays.refl _ _
        · exact stays_setState _ _ _ _
      · exact Stays.refl _ _
  | releaseContinuations =>
    rw [perform, releaseContinuations]
    have others : ∀ entry ∈ occupancy.tasks.entries, entry.2.state = .notified → key ≠ entry.1 := by
      intro entry has notified same
      exact remains ⟨entry.2, (mem_entries_iff _ _ _).1 (same ▸ has), notified⟩
    clear remains orderly right
    generalize occupancy.tasks.entries = entries at others
    induction entries generalizing occupancy with
    | nil => exact Stays.refl _ _
    | cons entry entries ih =>
      rw [List.foldl_cons]
      refine Stays.trans ?_ (ih fun entry later => others entry (List.mem_cons_of_mem _ later))
      split
      · rename_i notified
        exact stays_remove (others entry List.mem_cons_self notified)
      · exact Stays.refl _ _
  | interruptAll | clear => exact absurd trivial remains

variable {identity : Identity}

/-- After an operation that occupies, the task is present. -/
theorem Filed.occupied (right : Filed occupancy)
    (orderly : Orderly occupancy operation) (occupies : Occupies operation identity) :
    Occupied (perform occupancy operation) identity := by
  cases operation with
  | occupySpawn callId agent =>
    rw [perform, occupySpawn]
    cases found : occupancy.lookup (some callId) agent with
    | none =>
      cases native : truthy agent with
      | none =>
        refine ⟨callId, _, by rw [get?_set, if_pos rfl], ?_⟩
        cases identity with
        | call id => exact congrArg some (Eq.symm occupies)
        | agent id => exact absurd (native.symm.trans occupies) (by simp)
      | some id =>
        refine ⟨callId, _, by rw [get?_set, if_pos rfl], ?_⟩
        cases identity with
        | call id => exact congrArg some (Eq.symm occupies)
        | agent id => exact native.symm.trans occupies
    | some key =>
      obtain ⟨task, has⟩ := right.found found
      cases native : truthy agent with
      | none =>
        cases identity with
        | call id =>
          rcases lookup_some found with ⟨agent', is, _⟩ | ⟨_, call, is, known⟩
          · rw [native] at is
            simp at is
          · obtain ⟨task, has, named⟩ := (right.calls call key).1 known
            have same : callId = call := Option.some.inj (truthy_eq_some is).1
            refine ⟨key, task, has, ?_⟩
            rw [Names, occupies, same]
            exact named
        | agent id => exact absurd (native.symm.trans occupies) (by simp)
      | some id =>
        have again : occupancy.lookup (some callId) (some id) = some key := by
          obtain ⟨is, _⟩ := truthy_eq_some native
          rwa [← is]
        dsimp only
        rw [ClaudeBackgroundOccupancy.bind, again]
        dsimp only
        rw [has]
        refine ⟨key, _, by rw [get?_set, if_pos rfl], ?_⟩
        cases identity with
        | call id => exact congrArg some (Eq.symm occupies)
        | agent id => exact native.symm.trans occupies
  | occupyAgent agent =>
    cases identity with
    | call id => exact occupies.elim
    | agent id =>
      subst occupies
      rw [perform, occupyAgent, right.lookup_present]
      cases found : occupancy.lookup none (some id) with
      | none =>
        refine ⟨id, _, by rw [get?_set, if_pos rfl], ?_⟩
        rfl
      | some key =>
        rcases lookup_some found with ⟨agent, is, known⟩ | ⟨_, call, is, _⟩
        · obtain ⟨task, has, named⟩ := (right.agents agent key).1 known
          obtain ⟨task', has', names⟩ := stays_setState occupancy key key .running task has
          have same : id = agent := Option.some.inj (truthy_eq_some is).1
          refine ⟨key, task', has', names (.agent id) ?_⟩
          rw [Names, same]
          exact named
        · simp [truthy] at is
  | _ => exact occupies.elim

/-- A task stays present as long as nothing takes it away. -/
theorem Filed.stays_occupied (right : Filed occupancy) {run : List Operation}
    (orderly : OrderlyRun occupancy run) (unended : Unended identity occupancy run)
    (occupied : Occupied occupancy identity) : Occupied (run.foldl perform occupancy) identity := by
  induction run generalizing occupancy with
  | nil => exact occupied
  | cons operation run ih =>
    obtain ⟨key, task, has, named⟩ := occupied
    obtain ⟨task', has', names⟩ := stays_perform right orderly.1 (unended.1 key task has named) task has
    exact ih (right.performed orderly.1) orderly.2 unended.2 ⟨key, task', has', names identity named⟩

theorem unsettled_of_occupied (occupied : Occupied occupancy identity) : occupancy.unsettled = true := by
  obtain ⟨key, task, has, _⟩ := occupied
  have entry := (mem_entries_iff _ _ _).2 has
  rw [unsettled, decide_eq_true_eq]
  exact List.length_pos_of_mem entry

end Presence

/-- Every index entry names a present task, and every present task is filed under its ids. -/
structure Indexed (occupancy : ClaudeBackgroundOccupancy) : Prop where
  calls : ∀ id key, occupancy.keyByCall.get? id = some key → occupancy.tasks.has key = true
  agents : ∀ id key, occupancy.keyByAgent.get? id = some key → occupancy.tasks.has key = true
  tasks : ∀ key task, occupancy.tasks.get? key = some task →
    (∀ id, task.callId = some id → occupancy.keyByCall.get? id = some key) ∧
    ∀ id, task.nativeSubagentId = some id → occupancy.keyByAgent.get? id = some key

theorem Filed.indexed {occupancy : ClaudeBackgroundOccupancy} (right : Filed occupancy) :
    Indexed occupancy := by
  refine ⟨fun id key known => ?_, fun id key known => ?_, fun key task has => ⟨fun id named => ?_, fun id named => ?_⟩⟩
  · obtain ⟨task, has, _⟩ := (right.calls id key).1 known
    exact (has_iff _ _).2 ⟨task, has⟩
  · obtain ⟨task, has, _⟩ := (right.agents id key).1 known
    exact (has_iff _ _).2 ⟨task, has⟩
  · exact (right.calls id key).2 ⟨task, has, named⟩
  · exact (right.agents id key).2 ⟨task, has, named⟩

theorem orderlyRun_append {occupancy : ClaudeBackgroundOccupancy} {first second : List Operation} :
    OrderlyRun occupancy (first ++ second) ↔
      OrderlyRun occupancy first ∧ OrderlyRun (first.foldl perform occupancy) second := by
  induction first generalizing occupancy with
  | nil => simp [OrderlyRun]
  | cons operation first ih => simp [OrderlyRun, ih, and_assoc]

/-- In a run whose bindings only add missing ids, the indexes are right, and a task that was occupied is
present until an operation takes it away. -/
theorem background_tasks_indexed (run : List Operation) (orderly : OrderlyRun initial run) :
    Indexed (after run) ∧ ∀ before operation later identity, run = before ++ operation :: later →
      Occupies operation identity → Unended identity (after (before ++ [operation])) later →
      Occupied (after run) identity ∧ (after run).unsettled = true := by
  refine ⟨(filed_initial.run orderly).indexed, fun before operation later identity is occupies unended => ?_⟩
  subst is
  obtain ⟨earlier, step, rest⟩ := orderlyRun_append.1 orderly
  have right := filed_initial.run earlier
  have state : after (before ++ [operation]) = perform (before.foldl perform initial) operation := by
    rw [after, List.foldl_append, List.foldl_cons, List.foldl_nil]
  rw [state] at unended
  have last := (right.performed step).stays_occupied rest unended (right.occupied step occupies)
  have whole : after (before ++ operation :: later) =
      later.foldl perform (perform (before.foldl perform initial) operation) := by
    rw [after, List.foldl_append, List.foldl_cons]
  rw [whole]
  exact ⟨last, unsettled_of_occupied last⟩

/-- One call, its agent bound later, and another task that is released. -/
def boundLater : List Operation :=
  [.occupySpawn "toolu_1" none, .occupySpawn "toolu_2" (some "agent_2"), .bind "toolu_1" "agent_1",
    .release (some "toolu_2") none]

theorem background_tasks_indexed_bound :
    Occupied (after boundLater) (.call "toolu_1") ∧ (after boundLater).unsettled = true := by
  have orderly : OrderlyRun initial boundLater := by
    refine ⟨⟨by decide, rfl⟩, ⟨by decide, rfl⟩, ⟨by decide, by decide, ?_⟩, trivial, trivial⟩
    intro key task found has
    have key' : key = "toolu_1" := (Option.some.inj found).symm
    subst key'
    have task' : task = _ := (Option.some.inj has).symm
    subst task'
    exact ⟨.inr rfl, .inl rfl, .inr rfl⟩
  refine (background_tasks_indexed boundLater orderly).2 [] (.occupySpawn "toolu_1" none) _ (.call "toolu_1")
    rfl rfl ⟨fun _ _ _ _ removes => removes, fun _ _ _ _ removes => removes, ?_, trivial⟩
  intro key task has named removes
  have key' : key = "toolu_2" := (Option.some.inj removes).symm
  subst key'
  have task' : task = _ := (Option.some.inj has).symm
  subst task'
  exact absurd (Option.some.inj named) (by decide)

/-- An agent bound to a second call, and released under it. -/
def rebound : List Operation :=
  [.occupySpawn "toolu_1" (some "agent_1"), .bind "toolu_2" "agent_1",
    .release (some "toolu_2") (some "agent_1")]

/-- The entry of the first call stays behind, and a new task of that call is not occupied. -/
theorem rebinding_leaves_entry : ¬ Indexed (after rebound) ∧
      (after (rebound ++ [.occupySpawn "toolu_1" none])).unsettled = false := by
  refine ⟨fun indexed => ?_, by decide⟩
  exact absurd (indexed.calls "toolu_1" "toolu_1" (by decide)) (by decide)

end CodexHost.Guarantees.BackgroundTasks
