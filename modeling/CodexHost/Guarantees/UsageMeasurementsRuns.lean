import CodexHost.Guarantees.UsageMeasurements

/-!
# Runs of the usage measurement stores of one process
-/
namespace CodexHost.Guarantees.UsageMeasurements
open Foundation Source.SharedContracts List
open Source.HostRuntime.UsageMeasurements

variable {thread : Thread}

section Invariant
variable {I P : Type}

/-- The task holds what its store accepted, as long as its revision is the current one. -/
def Current (s : State I P) (task : WriteTask I) : Prop :=
  task.revision = (s.buffered task.store task.thread).revision

/-- The task has read the file, and is to write it. -/
def HasRead (stage : TaskStage) : Prop := stage = .writing ∨ stage = .readingLegacy

/-- What is saved of a measurement that a closing store accepted: it is on disk, or one of these
tasks is to write it, or has failed to. -/
def Settling (s : State I P) (tasks : List Nat) (measurement : Accepted I) : Prop :=
  OnDisk s measurement.thread measurement.field measurement.at_ ∨
    ∃ number ∈ tasks, ∃ task, s.tasks[number]? = some task ∧ task.store = measurement.store ∧
      task.thread = measurement.thread ∧
      (task.stage.isDone = false ∧ Current s task ∨ task.stage = .done true)

structure Kept (s : State I P) : Prop where
  known : ∀ a ∈ s.accepted, a.thread ∈ (s.snapshots a.store).keys
  held : ∀ a ∈ s.accepted, Covers (s.buffered a.store a.thread).values a.field a.at_
  saved : ∀ a ∈ s.accepted, (s.buffered a.store a.thread).dirty = false → OnDisk s a.thread a.field a.at_
  revision : ∀ (number : Nat) task, s.tasks[number]? = some task →
    task.revision ≤ (s.buffered task.store task.thread).revision
  captured : ∀ (number : Nat) task, s.tasks[number]? = some task → task.stage.isDone = false →
    Current s task → ∀ a ∈ s.accepted, a.store = task.store → a.thread = task.thread →
      Covers task.captured a.field a.at_
  writing : ∀ (number : Nat) task, s.tasks[number]? = some task → HasRead task.stage →
    ∀ field at_, OnDisk s task.thread field at_ → Covers task.captured field at_
  written : ∀ (number : Nat) task, s.tasks[number]? = some task →
    task.stage = .written ∨ task.stage = .removing →
      ∀ field at_, Covers task.captured field at_ → OnDisk s task.thread field at_
  flushing : ∀ store tasks, s.closing store = .flushing tasks ∨ s.closing store = .closed tasks →
    ∀ a ∈ s.accepted, a.store = store → Settling s tasks a
  closed : ∀ store tasks, s.closing store = .closed tasks → ∀ number ∈ tasks,
    ∃ task, s.tasks[number]? = some task ∧ task.stage.isDone = true

/-- What may become of a task in a step that accepts nothing. -/
structure TaskStep (s s' : State I P) (task task' : WriteTask I) : Prop where
  store : task'.store = task.store
  thread : task'.thread = task.thread
  revision : task'.revision = task.revision
  running : task'.stage.isDone = false → task.stage.isDone = false ∧
    ∀ field at_, Covers task.captured field at_ → Covers task'.captured field at_
  writing : HasRead task'.stage →
    ∀ field at_, OnDisk s' task.thread field at_ → Covers task'.captured field at_
  written : task'.stage = .written ∨ task'.stage = .removing →
    ∀ field at_, Covers task'.captured field at_ → OnDisk s' task.thread field at_
  ended : task'.stage.isDone = true → task.stage = task'.stage ∨
    task.stage.isDone = false ∧ (task'.stage = .done true ∨
      ∀ a ∈ s.accepted, a.store = task.store → a.thread = task.thread → Current s task →
        OnDisk s' a.thread a.field a.at_)

/-- A step that accepts nothing and closes nothing. -/
structure Quiet (s s' : State I P) : Prop where
  accepted : s'.accepted = s.accepted
  closing : s'.closing = s.closing
  known : ∀ store thread, thread ∈ (s.snapshots store).keys → thread ∈ (s'.snapshots store).keys
  disk : ∀ thread field at_, OnDisk s thread field at_ → OnDisk s' thread field at_
  revision : ∀ store thread, (s'.buffered store thread).revision = (s.buffered store thread).revision
  values : ∀ store thread field at_, Covers (s.buffered store thread).values field at_ →
    Covers (s'.buffered store thread).values field at_
  clean : ∀ store thread, (s'.buffered store thread).dirty = false → (s.buffered store thread).dirty = false ∨
      ∀ a ∈ s.accepted, a.store = store → a.thread = thread → OnDisk s' thread a.field a.at_
  tasks : ∀ (number : Nat) task, s.tasks[number]? = some task →
    ∃ task', s'.tasks[number]? = some task' ∧ TaskStep s s' task task'
  fresh : ∀ number : Nat, s.tasks[number]? = none → s'.tasks[number]? = none

variable {s s' : State I P}

variable {number : Nat}

theorem Quiet.back (quiet : Quiet s s') {task' : WriteTask I} (here : s'.tasks[number]? = some task') :
    ∃ task, s.tasks[number]? = some task ∧ TaskStep s s' task task' := by
  cases before : s.tasks[number]? with
  | none =>
    rw [quiet.fresh number before] at here
    cases here
  | some task =>
    obtain ⟨task'', here', steps⟩ := quiet.tasks number task before
    rw [here] at here'
    cases here'
    exact ⟨task, rfl, steps⟩

theorem Quiet.current (quiet : Quiet s s') {task task' : WriteTask I} (steps : TaskStep s s' task task') :
    Current s' task' ↔ Current s task := by
  unfold Current
  rw [steps.revision, steps.store, steps.thread, quiet.revision]

theorem Quiet.settling (quiet : Quiet s s') {tasks : List Nat} {a : Accepted I}
    (member : a ∈ s.accepted) (settling : Settling s tasks a) : Settling s' tasks a := by
  rcases settling with onDisk | ⟨number, listed, task, here, store, thread, stage⟩
  · exact .inl (quiet.disk _ _ _ onDisk)
  · obtain ⟨task', here', steps⟩ := quiet.tasks number task here
    have current := quiet.current steps
    cases done : task'.stage.isDone with
    | false =>
      rcases stage with ⟨-, isCurrent⟩ | failed
      · exact .inr ⟨number, listed, task', here', steps.store.trans store,
          steps.thread.trans thread, .inl ⟨done, current.mpr isCurrent⟩⟩
      · have running := (steps.running done).1
        rw [failed] at running
        cases running
    | true =>
      rcases steps.ended done with same | ⟨running, ends⟩
      · rcases stage with ⟨running, -⟩ | failed
        · rw [same, done] at running
          cases running
        · exact .inr ⟨number, listed, task', here', steps.store.trans store,
            steps.thread.trans thread, .inr (same ▸ failed)⟩
      · rcases stage with ⟨-, isCurrent⟩ | failed
        · rcases ends with failed | onDisk
          · exact .inr ⟨number, listed, task', here', steps.store.trans store,
              steps.thread.trans thread, .inr failed⟩
          · exact .inl (onDisk a member store.symm thread.symm isCurrent)
        · rw [failed] at running
          cases running

/-- The invariant survives a step that accepts nothing. -/
theorem Kept.quiet (kept : Kept s) (quiet : Quiet s s') : Kept s' := by
  obtain ⟨known, held, saved, revision, captured, writing, written, flushing, closed⟩ := kept
  constructor
  · intro a member
    rw [quiet.accepted] at member
    exact quiet.known _ _ (known a member)
  · intro a member
    rw [quiet.accepted] at member
    exact quiet.values _ _ _ _ (held a member)
  · intro a member clean
    rw [quiet.accepted] at member
    rcases quiet.clean _ _ clean with before | onDisk
    · exact quiet.disk _ _ _ (saved a member before)
    · exact onDisk a member rfl rfl
  · intro number task' here'
    obtain ⟨task, here, steps⟩ := quiet.back here'
    rw [steps.revision, steps.store, steps.thread, quiet.revision]
    exact revision number task here
  · intro number task' here' running current a member store thread
    rw [quiet.accepted] at member
    obtain ⟨task, here, steps⟩ := quiet.back here'
    obtain ⟨running', covers⟩ := steps.running running
    exact covers _ _ (captured number task here running' ((quiet.current steps).mp current) a member
      (store.trans steps.store) (thread.trans steps.thread))
  · intro number task' here' stage
    obtain ⟨task, here, steps⟩ := quiet.back here'
    rw [steps.thread]
    exact steps.writing stage
  · intro number task' here' stage
    obtain ⟨task, here, steps⟩ := quiet.back here'
    rw [steps.thread]
    exact steps.written stage
  · intro store tasks closing a member same
    rw [quiet.accepted] at member
    rw [quiet.closing] at closing
    exact quiet.settling member (flushing store tasks closing a member same)
  · intro store tasks closing number listed
    rw [quiet.closing] at closing
    obtain ⟨task, here, done⟩ := closed store tasks closing number listed
    obtain ⟨task', here', steps⟩ := quiet.tasks number task here
    refine ⟨task', here', ?_⟩
    by_contra running
    rw [Bool.not_eq_true] at running
    rw [(steps.running running).1] at done
    cases done

theorem TaskStep.refl (kept : Kept s) {task : WriteTask I} (here : s.tasks[number]? = some task)
    (disk : ∀ field at_, OnDisk s task.thread field at_ → OnDisk s' task.thread field at_)
    (writing : HasRead task.stage → ∀ field at_, OnDisk s' task.thread field at_ →
      OnDisk s task.thread field at_) : TaskStep s s' task task where
  store := rfl
  thread := rfl
  revision := rfl
  running running := ⟨running, fun _ _ covers => covers⟩
  writing stage field at_ onDisk :=
    kept.writing number task here stage field at_ (writing stage field at_ onDisk)
  written stage field at_ covers := disk field at_ (kept.written number task here stage field at_ covers)
  ended _ := .inl rfl

/-- One task moves on; files, snapshots and closings stay. -/
theorem Kept.setTask (kept : Kept s) {task moved : WriteTask I}
    (here : s.tasks[number]? = some task) (tasks : s'.tasks = s.tasks.set number moved)
    (steps : TaskStep s s' task moved) (accepted : s'.accepted = s.accepted)
    (closing : s'.closing = s.closing) (files : s'.files = s.files)
    (snapshots : s'.snapshots = s.snapshots) : Kept s' := by
  have disk : ∀ thread field at_, OnDisk s' thread field at_ ↔ OnDisk s thread field at_ := by
    intro thread field at_
    unfold OnDisk
    rw [files]
  have buffered : ∀ store thread, s'.buffered store thread = s.buffered store thread := by
    intro store thread
    unfold State.buffered
    rw [snapshots]
  refine kept.quiet ⟨accepted, closing, ?_, fun _ _ _ onDisk => (disk _ _ _).mpr onDisk, ?_, ?_,
    ?_, ?_, ?_⟩
  · rw [snapshots]
    exact fun _ _ member => member
  · intro store thread
    rw [buffered]
  · intro store thread field at_ covers
    rwa [buffered]
  · intro store thread clean
    rw [buffered] at clean
    exact .inl clean
  · intro number' task' here'
    rw [tasks]
    by_cases this : number = number'
    · subst this
      rw [here] at here'
      cases here'
      exact ⟨moved, List.getElem?_set_self (List.getElem?_eq_some_iff.mp here).1, steps⟩
    · exact ⟨task', by rw [List.getElem?_set_ne this]; exact here', TaskStep.refl kept here'
        (fun _ _ => (disk _ _ _).mpr) fun _ _ _ => (disk _ _ _).mp⟩
  · intro number' absent
    rw [tasks, List.getElem?_set, absent]
    split
    · next same =>
      rw [same, absent] at here
      cases here
    · rfl

/-- The file changes; the tasks about to write it know what comes there. -/
theorem Kept.setFile (kept : Kept s) {values : StoredUsageMeasurements}
    (later : ∀ field at_, OnDisk s thread field at_ → Covers values field at_)
    (writers : ∀ (number : Nat) task, s.tasks[number]? = some task → task.thread = thread →
      HasRead task.stage → ∀ field at_, Covers values field at_ → Covers task.captured field at_) :
    Kept { s with files := Function.update s.files thread (.document values) } := by
  have disk : ∀ thread' field at_,
      OnDisk { s with files := Function.update s.files thread (.document values) } thread' field at_ ↔
        if thread' = thread then Covers values field at_ else OnDisk s thread' field at_ := by
    intro thread' field at_
    unfold OnDisk
    by_cases same : thread' = thread
    · subst same
      simp [Stored.disk]
    · simp [same]
  have grows : ∀ thread' field at_, OnDisk s thread' field at_ →
      OnDisk { s with files := Function.update s.files thread (.document values) } thread' field at_ := by
    intro thread' field at_ onDisk
    rw [disk]
    split
    · next same => exact later field at_ (same ▸ onDisk)
    · exact onDisk
  refine kept.quiet ⟨rfl, rfl, fun _ _ => id, grows, fun _ _ => rfl, fun _ _ _ _ => id,
    fun _ _ => .inl, ?_, fun _ => id⟩
  intro number task here
  refine ⟨task, here, ⟨rfl, rfl, rfl, fun running => ⟨running, fun _ _ covers => covers⟩, ?_, ?_,
    fun _ => .inl rfl⟩⟩
  · intro stage field at_ onDisk
    rw [disk] at onDisk
    split at onDisk
    · next same => exact writers number task here same stage field at_ onDisk
    · exact kept.writing number task here stage field at_ onDisk
  · intro stage field at_ covers
    exact grows _ _ _ (kept.written number task here stage field at_ covers)

end Invariant

section Buffers
variable {I P : Type} [DecidableEq I] {s : State I P}

theorem keys_setBuffered (s : State I P) (store other : I) (thread thread' : Thread)
    (buffered : BufferedSnapshot) :
    thread' ∈ ((s.setBuffered store thread buffered).snapshots other).keys ↔
      thread' ∈ (s.snapshots other).keys ∨ other = store ∧ thread' = thread := by
  unfold State.setBuffered
  by_cases same : other = store
  · subst same
    simp only [Function.update_self, true_and, OrderedMap.mem_keys_iff, OrderedMap.get?_set]
    by_cases this : thread' = thread <;> simp [this]
  · simp [same]

theorem Kept.setBuffered (kept : Kept s) {store : I} {buffered : BufferedSnapshot}
    (revision : buffered.revision = (s.buffered store thread).revision)
    (values : ∀ field at_, Covers (s.buffered store thread).values field at_ →
      Covers buffered.values field at_)
    (clean : buffered.dirty = false → (s.buffered store thread).dirty = false ∨
      ∀ a ∈ s.accepted, a.store = store → a.thread = thread → OnDisk s thread a.field a.at_) :
    Kept (s.setBuffered store thread buffered) := by
  refine kept.quiet ⟨rfl, rfl, ?_, fun _ _ _ => id, ?_, ?_, ?_, ?_, fun _ => id⟩
  · intro other thread' member
    exact (keys_setBuffered s store other thread thread' buffered).mpr (.inl member)
  · intro other thread'
    rw [buffered_setBuffered]
    split
    · next same => rw [same.1, same.2, revision]
    · rfl
  · intro other thread' field at_ covers
    rw [buffered_setBuffered]
    split
    · next same =>
      rw [same.1, same.2] at covers
      exact values field at_ covers
    · exact covers
  · intro other thread' isClean
    rw [buffered_setBuffered] at isClean
    split at isClean
    · next same =>
      rw [same.1, same.2]
      exact clean isClean
    · exact .inl isClean
  · intro number task here
    exact ⟨task, here, TaskStep.refl kept here (fun _ _ => id) fun _ _ _ => id⟩

theorem Kept.accept (kept : Kept s) {store : I} (open' : s.closing store = .absent)
    {turnId : String} {at_ : Rat} {field : Field} {given : Option Rat} {next : UsageMeasurement}
    (accepted : accepts (s.buffered store thread).values turnId at_ field given = some next) :
    Kept { s.setBuffered store thread { (s.buffered store thread) with
        values := setValue (s.buffered store thread).values field next
        revision := (s.buffered store thread).revision + 1
        dirty := true } with
      accepted := s.accepted ++ [⟨store, thread, field, at_⟩] } := by
  obtain ⟨same, latest⟩ := accepts_spec accepted
  obtain ⟨known, held, saved, revision, captured, writing, written, flushing, closed⟩ := kept
  have grows : ∀ field' at_', Covers (s.buffered store thread).values field' at_' →
      Covers (setValue (s.buffered store thread).values field next) field' at_' := by
    rintro field' at_' ⟨measurement, is, older⟩
    unfold Covers
    rw [value_setValue]
    by_cases this : field' = field
    · subst this
      rw [if_pos rfl]
      exact ⟨next, rfl, by rw [same]; exact older.trans (latest measurement is)⟩
    · rw [if_neg this]
      exact ⟨measurement, is, older⟩
  constructor
  · intro a member
    refine (keys_setBuffered s store _ thread _ _).mpr ?_
    rcases mem_append.mp member with before | last
    · exact .inl (known a before)
    · cases mem_singleton.mp last
      exact .inr ⟨rfl, rfl⟩
  · intro a member
    show Covers (State.buffered (s.setBuffered store thread _) a.store a.thread).values _ _
    rw [buffered_setBuffered]
    rcases mem_append.mp member with before | last
    · split
      · next here =>
        refine grows _ _ ?_
        rw [← here.1, ← here.2]
        exact held a before
      · exact held a before
    · cases mem_singleton.mp last
      rw [if_pos ⟨rfl, rfl⟩]
      exact ⟨next, by rw [value_setValue, if_pos rfl], same.ge⟩
  · intro a member clean
    have clean : (State.buffered (s.setBuffered store thread _) a.store a.thread).dirty = false :=
      clean
    rw [buffered_setBuffered] at clean
    split at clean
    · cases clean
    · next apart =>
      rcases mem_append.mp member with before | last
      · exact saved a before clean
      · cases mem_singleton.mp last
        exact absurd ⟨rfl, rfl⟩ apart
  · intro number task here
    show task.revision ≤ (State.buffered (s.setBuffered store thread _) task.store task.thread).revision
    rw [buffered_setBuffered]
    have before := revision number task here
    split
    · next same =>
      rw [same.1, same.2] at before
      exact Nat.le_succ_of_le before
    · exact before
  · intro number task here running current a member sameStore sameThread
    have current : task.revision =
      (State.buffered (s.setBuffered store thread _) task.store task.thread).revision := current
    rw [buffered_setBuffered] at current
    have before := revision number task here
    split at current
    · next same =>
      rw [same.1, same.2] at before
      simp only at current
      omega
    · next apart =>
      rcases mem_append.mp member with earlier | last
      · exact captured number task here running current a earlier sameStore sameThread
      · cases mem_singleton.mp last
        exact absurd ⟨sameStore.symm, sameThread.symm⟩ apart
  · exact writing
  · exact written
  · intro other tasks closing a member sameStore
    rcases mem_append.mp member with before | last
    · rcases flushing other tasks closing a before sameStore with
        onDisk | ⟨number, listed, task, here, sameStore', sameThread, stage⟩
      · exact .inl onDisk
      · refine .inr ⟨number, listed, task, here, sameStore', sameThread, stage.imp_left
          fun ⟨running, current⟩ => ⟨running, ?_⟩⟩
        show task.revision = (State.buffered (s.setBuffered store thread _) task.store task.thread).revision
        rw [buffered_setBuffered, if_neg]
        · exact current
        · rintro ⟨sameStore'', -⟩
          have closing : s.closing other = .flushing tasks ∨ s.closing other = .closed tasks :=
            closing
          rw [← sameStore, ← sameStore', sameStore'', open'] at closing
          rcases closing with closing | closing <;> cases closing
    · cases mem_singleton.mp last
      have closing : s.closing other = .flushing tasks ∨ s.closing other = .closed tasks := closing
      rw [← sameStore, open'] at closing
      rcases closing with closing | closing <;> cases closing
  · exact closed

end Buffers

end CodexHost.Guarantees.UsageMeasurements
