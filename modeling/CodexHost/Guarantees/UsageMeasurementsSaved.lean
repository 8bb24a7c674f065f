import CodexHost.Guarantees.UsageMeasurementsRuns

/-!
# Closed stores have saved what they accepted
-/
namespace CodexHost.Guarantees.UsageMeasurements
open Foundation Source.SharedContracts List Option Function
open Source.HostRuntime.UsageMeasurements

/-- The invariant of the stores of one process. -/
structure Sound {I P : Type} [DecidableEq I] (process : I → P) (s : State I P) : Prop extends
  Kept s, Queued process s

section Flushes
variable {I P : Type} {s : State I P}

/-- What a flush leaves alone. -/
structure Flushed (s s' : State I P) : Prop where
  accepted : s'.accepted = s.accepted
  closing : s'.closing = s.closing
  snapshots : s'.snapshots = s.snapshots
  files : s'.files = s.files
  tasks : ∀ (number : Nat) task, s.tasks[number]? = some task → s'.tasks[number]? = some task

theorem Flushed.settling {s' : State I P} (flushed : Flushed s s') {tasks tasks' : List Nat}
    (more : tasks ⊆ tasks') {a : Accepted I} (settling : Settling s tasks a) :
    Settling s' tasks' a := by
  rcases settling with onDisk | ⟨number, listed, task, here, store, thread, stage⟩
  · refine .inl ?_
    unfold OnDisk at onDisk ⊢
    rwa [flushed.files]
  · refine .inr ⟨number, more listed, task, flushed.tasks number task here, store, thread, ?_⟩
    unfold Current State.buffered at stage ⊢
    rwa [flushed.snapshots]

/-- The invariant survives a new task. -/
theorem Kept.append (kept : Kept s) {task : WriteTask I} (waits : task.stage = .queued)
    (current : Current s task) (captured : task.captured = (s.buffered task.store task.thread).values)
    {s' : State I P} (tasks : s'.tasks = s.tasks ++ [task]) (flushed : Flushed s s') : Kept s' := by
  have buffered : ∀ store thread, s'.buffered store thread = s.buffered store thread := by
    intro store thread
    unfold State.buffered
    rw [flushed.snapshots]
  have disk : ∀ thread field at_, OnDisk s' thread field at_ ↔ OnDisk s thread field at_ := by
    intro thread field at_
    unfold OnDisk
    rw [flushed.files]
  have split : ∀ {number : Nat} {other : WriteTask I}, s'.tasks[number]? = some other →
      s.tasks[number]? = some other ∨ other = task := by
    intro number other here
    rw [tasks] at here
    exact (getElem?_snoc here).imp_right fun last => last.2
  constructor
  · rw [flushed.accepted, flushed.snapshots]
    exact kept.known
  · intro a member
    rw [flushed.accepted] at member
    rw [buffered]
    exact kept.held a member
  · intro a member clean
    rw [flushed.accepted] at member
    rw [buffered] at clean
    exact (disk _ _ _).mpr (kept.saved a member clean)
  · intro number other here
    rw [buffered]
    rcases split here with old | rfl
    · exact kept.revision number other old
    · exact current.le
  · intro number other here running isCurrent a member store thread
    rw [flushed.accepted] at member
    unfold Current at isCurrent
    rw [buffered] at isCurrent
    rcases split here with old | rfl
    · exact kept.captured number other old running isCurrent a member store thread
    · rw [captured, ← store, ← thread]
      exact kept.held a member
  · intro number other here reads field at_ onDisk
    rcases split here with old | rfl
    · exact kept.writing number other old reads field at_ ((disk _ _ _).mp onDisk)
    · rw [waits] at reads
      rcases reads with reads | reads <;> cases reads
  · intro number other here stage field at_ covers
    rcases split here with old | rfl
    · exact (disk _ _ _).mpr (kept.written number other old stage field at_ covers)
    · rw [waits] at stage
      rcases stage with stage | stage <;> cases stage
  · intro store listed closing a member same
    rw [flushed.accepted] at member
    rw [flushed.closing] at closing
    exact flushed.settling (fun _ => id) (kept.flushing store listed closing a member same)
  · intro store listed closing number inside
    rw [flushed.closing] at closing
    obtain ⟨other, here, done⟩ := kept.closed store listed closing number inside
    exact ⟨other, flushed.tasks number other here, done⟩

end Flushes

variable {number : Nat}

section Tasks
variable {I P : Type} [DecidableEq I] {process : I → P} {s : State I P}

section
variable (sound : Sound process s)
include sound

theorem Sound.setBuffered {store : I} {thread : Thread}
    {buffered : BufferedSnapshot}
    (revision : buffered.revision = (s.buffered store thread).revision)
    (values : ∀ field at_, Covers (s.buffered store thread).values field at_ →
      Covers buffered.values field at_)
    (clean : buffered.dirty = false → (s.buffered store thread).dirty = false ∨
      ∀ a ∈ s.accepted, a.store = store → a.thread = thread → OnDisk s thread a.field a.at_) :
    Sound process (s.setBuffered store thread buffered) :=
  ⟨sound.toKept.setBuffered revision values clean, sound.toQueued.frame rfl rfl⟩

theorem Sound.setTask {task moved : WriteTask I}
    (here : s.tasks[number]? = some task) (steps : TaskStep s (s.setTask number moved) task moved)
    (previous : moved.previous = task.previous) (running : task.stage.isDone = false)
    (begins : task.stage = .queued → task.previous.all s.doneTask = true) :
    Sound process (s.setTask number moved) := by
  refine ⟨sound.toKept.setTask here rfl steps rfl rfl rfl rfl, ?_⟩
  refine sound.toQueued.move (Further.move here steps.store steps.thread previous ?_ begins rfl)
    fun _ _ => .inl rfl
  intro done
  rw [running] at done
  cases done

theorem Sound.write (single : ∀ store other, process store = process other) {task : WriteTask I} (here : s.tasks[number]? = some task)
    (stage : task.stage = .writing) :
    Sound process { s.setTask number { task with stage := .written } with
      files := Function.update s.files task.thread (.document task.captured) } := by
  have running : task.stage.isDone = false := by rw [stage]; rfl
  have begun : task.stage ≠ .queued := by rw [stage]; nofun
  have filed : Sound process
      { s with files := Function.update s.files task.thread (.document task.captured) } := by
    refine ⟨sound.toKept.setFile (sound.writing number task here (.inl stage)) ?_,
      sound.toQueued.frame rfl rfl⟩
    intro number' task' here' same reads field at_ covers
    have begun' : task'.stage ≠ .queued := by rcases reads with is | is <;> rw [is] <;> nofun
    have running' : task'.stage.isDone = false := by rcases reads with is | is <;> rw [is] <;> rfl
    have equal := sound.toQueued.running_unique here here' ⟨single _ _, same.symm⟩ begun begun'
      running running'
    subst equal
    rw [here] at here'
    cases here'
    exact covers
  refine filed.setTask here ⟨rfl, rfl, rfl, fun _ => ⟨running, fun _ _ => id⟩, ?_, ?_, nofun⟩ rfl
    running fun waits => absurd waits begun
  · rintro (stage | stage) <;> cases stage
  · intro _ field at_ covers
    show Covers ((Function.update s.files task.thread (Stored.document task.captured)
      task.thread).disk.getD noValues) field at_
    rw [update_self]
    exact covers

theorem Sound.recordField {store : I} (open' : s.closing store = .absent)
    (thread : Thread) (turnId : String) (at_ : Rat) (values : Field → Option Rat) (field : Field) :
    Sound process (s.recordField store thread turnId at_ values field) ∧
      (s.recordField store thread turnId at_ values field).closing store = .absent := by
  unfold State.recordField
  simp only
  split
  · exact ⟨sound, open'⟩
  · next next accepted =>
    exact ⟨⟨sound.toKept.accept open' accepted, sound.toQueued.frame rfl rfl⟩, open'⟩

theorem Sound.record (store : I) (thread : Thread) (turnId : String)
    (at_ : Rat) (values : Field → Option Rat) :
    Sound process (s.record store thread turnId at_ values) := by
  unfold State.record
  split
  · exact sound
  · next open' =>
    have open' := not_not.mp open'
    have known : Sound process (s.setBuffered store thread (s.buffered store thread)) :=
      sound.setBuffered rfl (fun _ _ => id) .inl
    have first := known.recordField open' thread turnId at_ values .outputTokensPerSecond
    exact (first.1.recordField first.2 thread turnId at_ values .timeToFirstOutputMs).1

theorem Sound.closeNext {store : I} {stage : CloseStage}
    (flushing : ∀ tasks, stage = .flushing tasks ∨ stage = .closed tasks →
      ∀ a ∈ s.accepted, a.store = store → Settling s tasks a)
    (closed : ∀ tasks, stage = .closed tasks → ∀ number ∈ tasks,
      ∃ task, s.tasks[number]? = some task ∧ task.stage.isDone = true) :
    Sound process { s with closing := Function.update s.closing store stage } := by
  obtain ⟨⟨known, held, saved, revision, captured, writing, written, before, before'⟩, queued⟩ :=
    sound
  refine ⟨⟨known, held, saved, revision, captured, writing, written, ?_, ?_⟩, queued.frame rfl rfl⟩
  · intro other tasks is
    by_cases same : other = store
    · subst same
      simp only [update_self] at is
      exact flushing tasks is
    · simp only [update_of_ne same] at is
      exact before other tasks is
  · intro other tasks is
    by_cases same : other = store
    · subst same
      simp only [update_self] at is
      exact closed tasks is
    · simp only [update_of_ne same] at is
      exact before' other tasks is

theorem Sound.reads (reads : List (Read I)) :
    Sound process { s with reads := reads } := by
  obtain ⟨⟨known, held, saved, revision, captured, writing, written, flushing, closed⟩, queued⟩ :=
    sound
  exact ⟨⟨known, held, saved, revision, captured, writing, written, flushing, closed⟩, queued.frame rfl rfl⟩

theorem Sound.advanceRead {read : Read I} {s' : State I P}
    (steps : s.advanceRead number read = some s') : Sound process s' := by
  unfold State.advanceRead at steps
  split at steps
  · split at steps <;> cases steps <;> exact sound.reads _
  · cases steps
    exact sound.reads _
  · cases steps
    refine (sound.reads _).setBuffered rfl
      (fun field at_ covers => (covers_merge _ _ _ _).mpr (.inl covers)) fun clean => .inl ?_
    exact (Bool.or_eq_false_iff.mp clean).1
  · cases steps

end

end Tasks

section Steps
variable {I P : Type} [DecidableEq I] [DecidableEq P] {process : I → P} {s : State I P}

section
variable (sound : Sound process s)
include sound

theorem Sound.settle {task : WriteTask I}
    (here : s.tasks[number]? = some task) {failed : Bool} (running : task.stage.isDone = false)
    (begins : task.stage = .queued → task.previous.all s.doneTask = true)
    (ended : failed = false → ∀ a ∈ s.accepted, a.store = task.store → a.thread = task.thread →
      Current s task → OnDisk s a.thread a.field a.at_) :
    Sound process (s.settle process number task failed) := by
  have steps : TaskStep s (s.settle process number task failed) task { task with stage := .done failed } := by
    refine ⟨rfl, rfl, rfl, nofun, ?_, ?_, fun _ => .inr ⟨running, ?_⟩⟩
    · rintro (stage | stage) <;> cases stage
    · rintro (stage | stage) <;> cases stage
    · cases failed with
      | true => exact .inl rfl
      | false => exact .inr (ended rfl)
  refine ⟨sound.toKept.setTask here rfl steps rfl rfl rfl rfl, ?_⟩
  have further : Further s (s.settle process number task failed) := by
    refine @Further.move _ _ s number task { task with stage := .done failed } here rfl rfl rfl ?_
      begins _ rfl
    exact fun _ => rfl
  refine sound.toQueued.move further ?_
  · intro owner thread
    simp only [State.settle]
    split
    · next written =>
      by_cases same : owner = process task.store ∧ thread = task.thread
      · obtain ⟨rfl, rfl⟩ := same
        refine .inr ⟨by simp, number, { task with stage := .done failed }, written, ?_, rfl⟩
        exact List.getElem?_set_self (List.getElem?_eq_some_iff.mp here).1
      · refine .inl ?_
        by_cases this : owner = process task.store
        · subst this
          have other : thread ≠ task.thread := fun equal => same ⟨rfl, equal⟩
          simp [other]
        · simp [this]
    · exact .inl rfl

theorem Sound.decide {task : WriteTask I}
    (here : s.tasks[number]? = some task) (running : task.stage.isDone = false)
    (begun : task.stage ≠ .queued) {disk : Option StoredUsageMeasurements}
    {legacy : StoredUsageMeasurements}
    (read : ∀ field at_, OnDisk s task.thread field at_ →
      Covers (merge task.captured (disk.getD legacy)) field at_)
    (unchanged : ∀ values, disk = some values → (s.files task.thread).disk = some values) :
    Sound process (s.decide process number task disk legacy) := by
  simp only [State.decide]
  split
  · exact sound.settle here running (fun waits => absurd waits begun) nofun
  · refine sound.setTask here ?_ rfl running fun waits => absurd waits begun
    refine ⟨rfl, rfl, rfl, fun _ => ⟨running, ?_⟩, fun _ => read, ?_, ?_⟩
    · intro field at_ covers
      exact (covers_merge _ _ _ _).mpr (.inl covers)
    · rintro stage field at_ covers
      by_cases changes : disk ≠ some (merge task.captured (disk.getD legacy))
      · simp only [if_pos changes] at stage
        rcases stage with stage | stage <;> cases stage
      · show Covers ((s.files task.thread).disk.getD noValues) field at_
        rw [unchanged _ (not_not.mp changes)]
        exact covers
    · intro done
      split at done <;> cases done

theorem Sound.advance
    (single : ∀ store other, process store = process other) {task : WriteTask I}
    (here : s.tasks[number]? = some task) {s' : State I P}
    (steps : s.advance process number task = some s') : Sound process s' := by
  unfold State.advance at steps
  split at steps
  · next stage =>
    have running : task.stage.isDone = false := by rw [stage]; rfl
    split at steps
    · next due =>
      cases steps
      split
      · next clean =>
        refine sound.settle here running (fun _ => due) fun _ a member store thread _ => ?_
        refine sound.saved a member ?_
        rw [store, thread]
        simpa using clean
      · refine sound.setTask here ⟨rfl, rfl, rfl, fun _ => ⟨running, fun _ _ => id⟩, ?_, ?_, nofun⟩
          rfl running fun _ => due
        · rintro (stage | stage) <;> cases stage
        · rintro (stage | stage) <;> cases stage
    · cases steps
  · next stage =>
    have running : task.stage.isDone = false := by rw [stage]; rfl
    have begun : task.stage ≠ .queued := by rw [stage]; nofun
    split at steps
    · next absent =>
      cases steps
      refine sound.setTask here ⟨rfl, rfl, rfl, fun _ => ⟨running, fun _ _ => id⟩, ?_, ?_, nofun⟩
        rfl running fun waits => absurd waits begun
      · intro _ field at_ onDisk
        have onDisk : Covers ((s.files task.thread).disk.getD noValues) field at_ := onDisk
        rw [absent] at onDisk
        exact absurd onDisk (not_covers_noValues field at_)
      · rintro (stage | stage) <;> cases stage
    · next disk found =>
      cases steps
      refine sound.decide here running begun ?_ ?_
      · intro field at_ onDisk
        unfold OnDisk at onDisk
        rw [found] at onDisk
        exact (covers_merge _ _ _ _).mpr (.inr onDisk)
      · intro values is
        cases is
        exact found
  · next stage =>
    have running : task.stage.isDone = false := by rw [stage]; rfl
    have begun : task.stage ≠ .queued := by rw [stage]; nofun
    cases steps
    refine sound.decide here running begun ?_ nofun
    intro field at_ onDisk
    exact (covers_merge _ _ _ _).mpr (.inl (sound.writing number task here (.inr stage) field at_ onDisk))
  · next stage =>
    cases steps
    exact sound.write single here stage
  · next stage =>
    have running : task.stage.isDone = false := by rw [stage]; rfl
    have begun : task.stage ≠ .queued := by rw [stage]; nofun
    cases steps
    have buffered : Sound process (s.setBuffered task.store task.thread
        { s.buffered task.store task.thread with
          values := merge (s.buffered task.store task.thread).values task.captured
          dirty := (s.buffered task.store task.thread).dirty &&
            (s.buffered task.store task.thread).revision ≠ task.revision }) := by
      refine sound.setBuffered rfl
        (fun field at_ covers => (covers_merge _ _ _ _).mpr (.inl covers)) fun clean => ?_
      rcases Bool.and_eq_false_iff.mp clean with clean | current
      · exact .inl clean
      · refine .inr fun a member store thread => ?_
        have current : Current s task := (not_not.mp (of_decide_eq_false current)).symm
        exact sound.written number task here (.inl stage) _ _
          (sound.captured number task here running current a member store thread)
    refine buffered.setTask here ⟨rfl, rfl, rfl, fun _ => ⟨running, fun _ _ => id⟩, ?_, ?_, nofun⟩
      rfl running fun waits => absurd waits begun
    · rintro (stage | stage) <;> cases stage
    · exact fun _ => sound.written number task here (.inl stage)
  · next stage =>
    have running : task.stage.isDone = false := by rw [stage]; rfl
    have begun : task.stage ≠ .queued := by rw [stage]; nofun
    cases steps
    have settled : Sound process (s.settle process number task false) := by
      refine sound.settle here running (fun waits => absurd waits begun) ?_
      intro _ a member store thread current
      have covers := sound.captured number task here running current a member store thread
      rw [thread]
      exact sound.written number task here (.inr stage) _ _ covers
    obtain ⟨⟨known, held, saved, revision, captured, writing, written, flushing, closed⟩, queued⟩ :=
      settled
    exact ⟨⟨known, held, saved, revision, captured, writing, written, flushing, closed⟩, queued.frame rfl rfl⟩
  · cases steps

theorem Sound.enqueue {store : I} {thread : Thread}
    {buffered : BufferedSnapshot} (is : s.buffered store thread = buffered) :
    Sound process (s.enqueue process store thread buffered) ∧
      Flushed s (s.enqueue process store thread buffered) := by
  have flushed : Flushed s (s.enqueue process store thread buffered) := by
    refine ⟨rfl, rfl, rfl, rfl, fun number task here => ?_⟩
    rw [State.enqueue, List.getElem?_append_left (List.getElem?_eq_some_iff.mp here).1]
    exact here
  have current : Current s (s.newTask process store thread buffered) :=
    congrArg BufferedSnapshot.revision is.symm
  exact ⟨⟨sound.toKept.append rfl current (congrArg BufferedSnapshot.values is.symm) rfl flushed,
    sound.toQueued.append rfl rfl rfl rfl⟩, flushed⟩

theorem flushFile_spec (store : I) (thread : Thread) :
    Sound process (s.flushFile process store thread).1 ∧ Flushed s (s.flushFile process store thread).1 ∧
      ∀ a ∈ s.accepted, a.store = store → a.thread = thread → Settling (s.flushFile process store thread).1
          (s.flushFile process store thread).2.toList a := by
  cases found : ((s.snapshots store).get? thread).filter (·.dirty) with
  | none =>
    have same : s.flushFile process store thread = (s, none) := by simp [State.flushFile, found]
    rw [same]
    refine ⟨sound, ⟨rfl, rfl, rfl, rfl, fun _ _ => id⟩, fun a member here there => .inl ?_⟩
    refine sound.saved a member ?_
    rw [here, there, State.buffered]
    cases held : (s.snapshots store).get? thread with
    | none => rfl
    | some buffered => simpa [held, Option.filter] using found
  | some buffered =>
    have is : s.buffered store thread = buffered := by
      simp [State.buffered, (filter_eq_some_iff.mp found).1]
    have moved : s.flushFile process store thread =
        (s.enqueue process store thread buffered, some s.tasks.length) := by
      simp [State.flushFile, found]
    rw [moved]
    obtain ⟨sound', flushed⟩ := sound.enqueue is
    refine ⟨sound', flushed, fun a member here there => ?_⟩
    refine .inr ⟨s.tasks.length, mem_singleton_self _,
      s.newTask process store thread buffered, by simp [State.enqueue], here.symm, there.symm,
      .inl ⟨rfl, ?_⟩⟩
    exact congrArg BufferedSnapshot.revision is.symm

theorem flushAll_spec (store : I) (threads : List Thread) :
    Sound process (s.flushAll process store threads).1 ∧ Flushed s (s.flushAll process store threads).1 ∧
      ∀ a ∈ s.accepted, a.store = store → a.thread ∈ threads →
        Settling (s.flushAll process store threads).1 (s.flushAll process store threads).2 a := by
  induction threads generalizing s with
  | nil => exact ⟨sound, ⟨rfl, rfl, rfl, rfl, fun _ _ => id⟩, nofun⟩
  | cons thread threads ih =>
    obtain ⟨sound', flushed, settling⟩ := flushFile_spec sound store thread
    obtain ⟨sound'', flushed', settling'⟩ := ih sound'
    refine ⟨sound'', ⟨flushed'.accepted.trans flushed.accepted,
      flushed'.closing.trans flushed.closing, flushed'.snapshots.trans flushed.snapshots,
      flushed'.files.trans flushed.files, fun number task here =>
        flushed'.tasks number task (flushed.tasks number task here)⟩, ?_⟩
    intro a member here there
    rcases mem_cons.mp there with same | later
    · exact flushed'.settling (subset_append_left _ _) (settling a member here same)
    · have member' : a ∈ (s.flushFile process store thread).1.accepted := by
        rw [flushed.accepted]
        exact member
      exact Flushed.settling ⟨rfl, rfl, rfl, rfl, fun _ _ => id⟩ (subset_append_right _ _)
        (settling' a member' here later)

end

theorem step_sound (single : ∀ store other, process store = process other)
    (sound : Sound process s) {event : Event I} {s' : State I P}
    (steps : step process s event = some s') : Sound process s' := by
  cases event with
  | record store thread turnId at_ values =>
    cases steps
    exact sound.record store thread turnId at_ values
  | flush store thread =>
    cases steps
    exact (flushFile_spec sound store thread).1
  | read store thread =>
    cases steps
    have loaded : Sound process (s.setBuffered store thread
        { s.buffered store thread with loaded := true }) :=
      sound.setBuffered rfl (fun _ _ => id) .inl
    exact loaded.reads _
  | advance number =>
    obtain ⟨task, here, steps⟩ := bind_eq_some_iff.mp steps
    exact sound.advance single here steps
  | advanceRead number =>
    obtain ⟨read, -, steps⟩ := bind_eq_some_iff.mp steps
    exact sound.advanceRead steps
  | fail number =>
    obtain ⟨task, here, steps⟩ := bind_eq_some_iff.mp steps
    cases stage : task.stage with
    | queued | done failed =>
      rw [stage] at steps
      cases steps
    | reading | readingLegacy | writing | written | removing =>
      rw [stage] at steps
      cases steps
      refine sound.settle here (by rw [stage]; rfl) (fun waits => ?_) nofun
      rw [stage] at waits
      cases waits
  | failRead number =>
    obtain ⟨read, -, steps⟩ := bind_eq_some_iff.mp steps
    split at steps
    · cases steps
      exact (sound.reads _).setBuffered rfl (fun _ _ => id) .inl
    · cases steps
  | close store =>
    simp only [step, some_inj] at steps
    subst steps
    split
    · refine sound.closeNext (fun tasks is => ?_) fun tasks is => ?_
      · rcases is with is | is <;> cases is
      · cases is
    · exact sound
  | closeNext store =>
    simp only [step] at steps
    split at steps
    · split at steps
      · cases steps
        obtain ⟨sound', flushed, settling⟩ :=
          flushAll_spec sound store (s.snapshots store).keys
        refine sound'.closeNext (fun tasks is a member same => ?_) fun tasks is => by cases is
        rcases is with is | is
        · cases is
          rw [flushed.accepted] at member
          refine settling a member same ?_
          rw [← same]
          exact sound.known a member
        · cases is
      · cases steps
    · next tasks closing =>
      split at steps
      · next done =>
        cases steps
        refine sound.closeNext (fun tasks' is => ?_) fun tasks' is => ?_
        · rcases is with is | is
          · cases is
          · cases is
            exact sound.flushing store tasks (.inl closing)
        · cases is
          intro number listed
          have isDone := all_eq_true.mp done number listed
          unfold State.doneTask at isDone
          cases here : s.tasks[number]? with
          | none =>
            rw [here] at isDone
            cases isDone
          | some task =>
            rw [here] at isDone
            exact ⟨task, rfl, isDone⟩
      · cases steps
    · cases steps
    · cases steps

end Steps

section Runs
variable {I P : Type} [DecidableEq I] [DecidableEq P] {process : I → P}
  {files : Thread → Stored} {legacy : Thread → StoredUsageMeasurements} {events : List (Event I)}
  {s : State I P}

omit [DecidableEq P] in
theorem initial_sound : Sound process (initial files legacy : State I P) := by
  refine ⟨⟨nofun, nofun, nofun, nofun, nofun, nofun, nofun, ?_, nofun⟩, ⟨nofun, nofun, nofun, nofun, nofun⟩⟩
  exact fun _ _ _ => nofun

end Runs

/-- One Thread, two stores, and no file yet. -/
def sampleThread : Thread := ⟨"scope", "session"⟩

def sampleRecord (store : Bool) (at_ : Rat) : Event Bool :=
  .record store sampleThread "turn" at_ fun
    | .outputTokensPerSecond => some at_
    | .timeToFirstOutputMs => none

def sampleRun {P : Type} [DecidableEq P] (process : Bool → P) (events : List (Event Bool)) :
    Option (State Bool P) :=
  events.foldlM (step process) (initial (fun _ => .absent) fun _ => noValues)

/-- The second store of the process accepts the older measurement, and saves it later. -/
def sampleEvents : List (Event Bool) :=
  [sampleRecord false 2, sampleRecord true 1, .flush false sampleThread, .flush true sampleThread,
    .advance 0, .advance 0, .advance 0, .advance 0, .advance 0, .advance 0, .advance 1, .advance 1,
    .advance 1, .advance 1, .close true, .closeNext true, .closeNext true]

/-- The reads and the writes of two processes overlap. -/
def overlappingEvents : List (Event Bool) :=
  [sampleRecord false 1, sampleRecord true 2, .flush false sampleThread, .flush true sampleThread,
    .advance 0, .advance 0, .advance 0, .advance 1, .advance 1, .advance 1, .advance 1, .advance 0,
    .advance 0, .advance 0, .advance 1, .advance 1, .close false, .closeNext false,
    .closeNext false, .close true, .closeNext true, .closeNext true]

/-- The last flush fails. -/
def failingEvents : List (Event Bool) :=
  [sampleRecord false 1, .close false, .closeNext false, .advance 0, .advance 0, .advance 0,
    .fail 0, .closeNext false]

end CodexHost.Guarantees.UsageMeasurements
