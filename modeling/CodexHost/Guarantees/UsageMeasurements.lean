import CodexHost.Source.HostRuntime.UsageMeasurementsStore

/-!
# The usage measurements that a store keeps

A store is ahead of the file only while it is dirty, and a task whose revision is the current one
holds everything its store has accepted. The tasks of one process run one after the other on each
file, so nothing comes between the read of a task and its write.
-/
namespace CodexHost.Guarantees.UsageMeasurements
open Foundation Source.SharedContracts
open Source.HostRuntime.UsageMeasurements

/-- The field holds a measurement that is not older. -/
def Covers (values : StoredUsageMeasurements) (field : Field) (at_ : Rat) : Prop :=
  ∃ measurement, value values field = some measurement ∧ at_ ≤ measurement.at_

theorem value_setValue (values : StoredUsageMeasurements) (field other : Field)
    (measurement : UsageMeasurement) : value (setValue values field measurement) other =
      if other = field then some measurement else value values other := by
  cases field <;> cases other <;> rfl

theorem not_covers_noValues (field : Field) (at_ : Rat) : ¬ Covers noValues field at_ := by
  rintro ⟨measurement, is, -⟩
  cases field <;> cases is

theorem value_mergeField (source target : StoredUsageMeasurements) (field other : Field) :
    value (mergeField source target field) other =
      if other = field then (match value source field with
        | none => value target field
        | some measurement => if (value target field).all (·.at_ < measurement.at_) then
            some measurement else value target field)
      else value target other := by
  unfold mergeField
  cases value source field with
  | none =>
    by_cases same : other = field
    · rw [if_pos same, same]
    · rw [if_neg same]
  | some measurement =>
    by_cases newer : (value target field).all (·.at_ < measurement.at_) = true
    · simp only [newer, if_true, value_setValue]
    · by_cases same : other = field
      · simp only [newer, same]
        rfl
      · simp only [newer, if_neg same]
        rfl

theorem covers_mergeField (source target : StoredUsageMeasurements) (field other : Field)
    (at_ : Rat) : Covers (mergeField source target field) other at_ ↔
      Covers target other at_ ∨ other = field ∧ Covers source other at_ := by
  unfold Covers
  rw [value_mergeField]
  by_cases same : other = field
  · subst same
    simp only [if_true, true_and]
    cases given : value source other with
    | none => simp
    | some measurement =>
      cases held : value target other with
      | none => simp
      | some before =>
        by_cases newer : before.at_ < measurement.at_
        · simp only [Option.all_some, newer, decide_true, if_true, Option.some_inj, exists_eq_left']
          exact ⟨.inr, fun either => either.elim (fun older => older.trans newer.le) id⟩
        · simp only [Option.all_some, newer, decide_false, Bool.false_eq_true, if_false,
            Option.some_inj, exists_eq_left']
          exact ⟨.inl, fun either => either.elim id fun older => older.trans (not_lt.mp newer)⟩
  · simp [same]

/-- A merged field is as late as the later of the two. -/
theorem covers_merge (target source : StoredUsageMeasurements) (field : Field) (at_ : Rat) :
    Covers (merge target source) field at_ ↔ Covers target field at_ ∨ Covers source field at_ := by
  simp only [merge, fields, List.foldl_cons, List.foldl_nil, covers_mergeField]
  cases field <;> simp

theorem accepts_spec {values : StoredUsageMeasurements} {turnId : String} {at_ : Rat} {field : Field}
    {given : Option Rat} {next : UsageMeasurement}
    (accepted : accepts values turnId at_ field given = some next) :
    next.at_ = at_ ∧ ∀ prior, value values field = some prior → prior.at_ ≤ at_ := by
  obtain ⟨parsed, fits⟩ := Option.filter_eq_some_iff.mp accepted
  obtain ⟨given, -, parsed⟩ := Option.bind_eq_some_iff.mp parsed
  unfold parseField at parsed
  split at parsed
  · cases parsed
    refine ⟨rfl, fun prior is => ?_⟩
    simp only [is, Option.all_some, Bool.not_eq_true', Bool.or_eq_false_iff,
      decide_eq_false_iff_not, not_lt] at fits
    exact fits.1
  · cases parsed

section Fields
variable {I P : Type} [DecidableEq I] (s : State I P)

@[simp] theorem buffered_setBuffered (store other : I) (thread thread' : Thread)
    (buffered : BufferedSnapshot) : (s.setBuffered store thread buffered).buffered other thread' =
      if other = store ∧ thread' = thread then buffered else s.buffered other thread' := by
  unfold State.buffered State.setBuffered
  by_cases same : other = store
  · subst same
    simp only [Function.update_self, true_and]
    rw [OrderedMap.get?_set]
    by_cases this : thread' = thread
    · rw [if_pos this, if_pos this]
      rfl
    · rw [if_neg this, if_neg this]
  · simp [same]

/-- The measurement on disk is not older. -/
def OnDisk (thread : Thread) (field : Field) (at_ : Rat) : Prop :=
  Covers ((s.files thread).disk.getD noValues) field at_

end Fields

/-- One of two tasks waits for the other. -/
def SameFile {I P : Type} (process : I → P) (task other : WriteTask I) : Prop :=
  process task.store = process other.store ∧ task.thread = other.thread

/-- The tasks of a process on a file run in the order of their calls. -/
structure Queued {I P : Type} (process : I → P) (s : State I P) : Prop where
  last : ∀ owner thread number, s.writes owner thread = some number →
    ∃ task, s.tasks[number]? = some task ∧ process task.store = owner ∧ task.thread = thread ∧
      ∀ (number' : Nat) task', s.tasks[number']? = some task' → process task'.store = owner →
        task'.thread = thread → number' ≤ number
  idle : ∀ owner thread, s.writes owner thread = none → ∀ (number : Nat) (task : WriteTask I),
    s.tasks[number]? = some task → process task.store = owner → task.thread = thread →
      task.stage.isDone = true
  first : ∀ (number : Nat) task, s.tasks[number]? = some task → task.previous = none →
    ∀ (number' : Nat) task', s.tasks[number']? = some task' → number' < number →
      SameFile process task' task → task'.stage.isDone = true
  previous : ∀ (number : Nat) task, s.tasks[number]? = some task → ∀ before, task.previous = some before →
    ∃ other, s.tasks[before]? = some other ∧ SameFile process other task ∧ before < number ∧
      ∀ (number' : Nat) task', s.tasks[number']? = some task' → number' < number →
        SameFile process task' task → number' ≤ before
  started : ∀ (number : Nat) task, s.tasks[number]? = some task → task.stage ≠ .queued →
    ∀ (number' : Nat) task', s.tasks[number']? = some task' → number' < number →
      SameFile process task' task → task'.stage.isDone = true

section Queue
variable {I P : Type} {process : I → P} {s : State I P}

theorem SameFile.symm {task other : WriteTask I} (same : SameFile process task other) :
    SameFile process other task := ⟨same.1.symm, same.2.symm⟩

theorem SameFile.trans {task other third : WriteTask I} (first : SameFile process task other)
    (second : SameFile process other third) : SameFile process task third :=
  ⟨first.1.trans second.1, first.2.trans second.2⟩

theorem Queued.frame (queued : Queued process s) {s' : State I P} (tasks : s'.tasks = s.tasks)
    (writes : s'.writes = s.writes) : Queued process s' := by
  obtain ⟨last, idle, first, previous, started⟩ := queued
  exact ⟨by rwa [tasks, writes], by rwa [tasks, writes], by rwa [tasks], by rwa [tasks],
    by rwa [tasks]⟩

/-- A task may begin once the one before it is done: then all before it are. -/
theorem Queued.ready (queued : Queued process s) {number : Nat} {task : WriteTask I}
    (here : s.tasks[number]? = some task) (due : task.previous.all s.doneTask = true) :
    ∀ (number' : Nat) task', s.tasks[number']? = some task' → number' < number →
      SameFile process task' task → task'.stage.isDone = true := by
  intro number' task' here' earlier same
  cases before : task.previous with
  | none => exact queued.first number task here before number' task' here' earlier same
  | some before' =>
    obtain ⟨other, hereOther, same', -, latest⟩ := queued.previous number task here before' before
    have done : other.stage.isDone = true := by
      simpa [before, State.doneTask, hereOther] using due
    rcases Nat.lt_or_eq_of_le (latest number' task' here' earlier same) with less | rfl
    · refine queued.started before' other hereOther ?_ number' task' here' less (same.trans same'.symm)
      intro isQueued
      rw [isQueued] at done
      cases done
    · rw [hereOther] at here'
      cases here'
      exact done

/-- Two tasks of a process under way on one file are one task. -/
theorem Queued.running_unique (queued : Queued process s) {number number' : Nat} {task task' : WriteTask I}
    (here : s.tasks[number]? = some task) (here' : s.tasks[number']? = some task')
    (same : SameFile process task task') (begun : task.stage ≠ .queued)
    (begun' : task'.stage ≠ .queued) (running : task.stage.isDone = false)
    (running' : task'.stage.isDone = false) : number = number' := by
  rcases Nat.lt_trichotomy number number' with less | equal | more
  · rw [queued.started number' task' here' begun' number task here less same] at running
    cases running
  · exact equal
  · rw [queued.started number task here begun number' task' here' more same.symm] at running'
    cases running'

/-- How the tasks of two states compare: the same calls, further on. -/
structure Further (s s' : State I P) : Prop where
  forth : ∀ (number : Nat) task, s.tasks[number]? = some task → ∃ task', s'.tasks[number]? = some task' ∧
    task'.store = task.store ∧ task'.thread = task.thread ∧ task'.previous = task.previous ∧
      (task.stage.isDone = true → task'.stage.isDone = true)
  back : ∀ (number : Nat) task', s'.tasks[number]? = some task' → ∃ task, s.tasks[number]? = some task ∧
    task'.store = task.store ∧ task'.thread = task.thread ∧ task'.previous = task.previous ∧
      (task.stage.isDone = true → task'.stage.isDone = true) ∧
      (task'.stage ≠ .queued → task.stage = .queued → task.previous.all s.doneTask = true)

theorem Further.move {number : Nat} {task moved : WriteTask I}
    (here : s.tasks[number]? = some task) (store : moved.store = task.store)
    (thread : moved.thread = task.thread) (before : moved.previous = task.previous)
    (done : task.stage.isDone = true → moved.stage.isDone = true)
    (begins : task.stage = .queued → task.previous.all s.doneTask = true) {s' : State I P}
    (tasks : s'.tasks = s.tasks.set number moved) : Further s s' := by
  have inside := (List.getElem?_eq_some_iff.mp here).1
  constructor
  · intro number' task' here'
    rw [tasks]
    by_cases this : number = number'
    · subst this
      rw [here] at here'
      cases here'
      exact ⟨moved, List.getElem?_set_self inside, store, thread, before, done⟩
    · exact ⟨task', by rw [List.getElem?_set_ne this]; exact here', rfl, rfl, rfl, id⟩
  · intro number' task' here'
    rw [tasks] at here'
    by_cases this : number = number'
    · subst this
      rw [List.getElem?_set_self inside] at here'
      cases here'
      exact ⟨task, here, store, thread, before, done, fun _ => begins⟩
    · rw [List.getElem?_set_ne this] at here'
      exact ⟨task', here', rfl, rfl, rfl, id, fun begun waits => absurd waits begun⟩

theorem Further.sameFile {a b a' b' : WriteTask I} (same : SameFile process a b)
    (storeA : a.store = a'.store) (threadA : a.thread = a'.thread) (storeB : b.store = b'.store)
    (threadB : b.thread = b'.thread) : SameFile process a' b' :=
  ⟨by rw [← storeA, ← storeB]; exact same.1, by rw [← threadA, ← threadB]; exact same.2⟩

/-- Tasks that move on stay in their order; an entry of `writes` may go when its task is done. -/
theorem Queued.move (queued : Queued process s) {s' : State I P} (further : Further s s')
    (writes : ∀ owner thread, s'.writes owner thread = s.writes owner thread ∨
      s'.writes owner thread = none ∧ ∃ number task, s.writes owner thread = some number ∧
        s'.tasks[number]? = some task ∧ task.stage.isDone = true) : Queued process s' := by
  have started : ∀ (number : Nat) task, s'.tasks[number]? = some task → task.stage ≠ .queued →
      ∀ (number' : Nat) task', s'.tasks[number']? = some task' → number' < number →
        SameFile process task' task → task'.stage.isDone = true := by
    intro m other hereOther begun m' other' hereOther' earlier same
    obtain ⟨old, hereOld, store, thread, -, -, begins⟩ := further.back m other hereOther
    obtain ⟨old', hereOld', store', thread', -, isDone, -⟩ := further.back m' other' hereOther'
    have same' := Further.sameFile same store' thread' store thread
    refine isDone ?_
    by_cases waits : old.stage = .queued
    · exact queued.ready hereOld (begins begun waits) m' old' hereOld' earlier same'
    · exact queued.started m old hereOld waits m' old' hereOld' earlier same'
  refine ⟨?_, ?_, ?_, ?_, started⟩
  · intro owner thread number written
    have before : s.writes owner thread = some number := by
      rcases writes owner thread with same | ⟨gone, -⟩
      · rw [← same]
        exact written
      · rw [gone] at written
        cases written
    obtain ⟨task, here, owned, named, latest⟩ := queued.last owner thread number before
    obtain ⟨task', here', store, thread', -, -⟩ := further.forth number task here
    refine ⟨task', here', by rw [store]; exact owned, thread'.trans named, ?_⟩
    intro m other hereOther ownedOther namedOther
    obtain ⟨old, hereOld, storeOther, threadOther, -⟩ := further.back m other hereOther
    exact latest m old hereOld (by rw [← storeOther]; exact ownedOther) (threadOther.symm.trans namedOther)
  · intro owner thread free m other hereOther owned named
    obtain ⟨old, hereOld, store, thread', -, isDone, -⟩ := further.back m other hereOther
    have ownedOld : process old.store = owner := by
      rw [← store]
      exact owned
    rcases writes owner thread with same | ⟨-, number, task, written, here, done⟩
    · exact isDone (queued.idle owner thread (by rw [← same]; exact free) m old hereOld ownedOld
        (thread'.symm.trans named))
    · obtain ⟨last, hereLast, ownedLast, namedLast, latest⟩ :=
        queued.last owner thread number written
      obtain ⟨last', hereLast', storeLast, threadLast, -⟩ := further.forth number last hereLast
      rw [here] at hereLast'
      cases hereLast'
      rcases Nat.lt_or_eq_of_le (latest m old hereOld ownedOld (thread'.symm.trans named)) with less | rfl
      · refine started number task here ?_ m other hereOther less ⟨?_, ?_⟩
        · intro waits
          rw [waits] at done
          cases done
        · rw [owned, storeLast, ownedLast]
        · rw [named, threadLast, namedLast]
      · rw [here] at hereOther
        cases hereOther
        exact done
  · intro m other hereOther absent m' other' hereOther' earlier same
    obtain ⟨old, hereOld, store, thread, before, -, -⟩ := further.back m other hereOther
    obtain ⟨old', hereOld', store', thread', -, isDone, -⟩ := further.back m' other' hereOther'
    exact isDone (queued.first m old hereOld (before.symm.trans absent) m' old' hereOld' earlier
      (Further.sameFile same store' thread' store thread))
  · intro m other hereOther k is
    obtain ⟨old, hereOld, store, thread, before, -, -⟩ := further.back m other hereOther
    obtain ⟨third, hereThird, same, earlier, latest⟩ :=
      queued.previous m old hereOld k (before.symm.trans is)
    obtain ⟨third', hereThird', storeThird, threadThird, -, -⟩ := further.forth k third hereThird
    refine ⟨third', hereThird', Further.sameFile same storeThird.symm threadThird.symm store.symm
      thread.symm, earlier, ?_⟩
    intro m' other' hereOther' less same'
    obtain ⟨old', hereOld', store', thread', -, -, -⟩ := further.back m' other' hereOther'
    exact latest m' old' hereOld' less (Further.sameFile same' store' thread' store thread)

theorem getElem?_snoc {α : Type} {xs : List α} {x y : α} {n : Nat}
    (here : (xs ++ [x])[n]? = some y) : xs[n]? = some y ∨ n = xs.length ∧ y = x := by
  rcases Nat.lt_trichotomy n xs.length with less | rfl | more
  · rw [List.getElem?_append_left less] at here
    exact .inl here
  · simp at here
    exact .inr ⟨rfl, here.symm⟩
  · rw [List.getElem?_append_right more.le] at here
    have outside : ¬ n - xs.length < [x].length := by
      simp only [List.length_singleton]
      omega
    rw [List.getElem?_eq_none (Nat.le_of_not_lt outside)] at here
    cases here

/-- A task more, after the one in `writes`. -/
theorem Queued.append [DecidableEq P] (queued : Queued process s) {task : WriteTask I} (waits : task.stage = .queued)
    (previous : task.previous = s.writes (process task.store) task.thread) {s' : State I P}
    (tasks : s'.tasks = s.tasks ++ [task])
    (writes : s'.writes = Function.update s.writes (process task.store)
      (Function.update (s.writes (process task.store)) task.thread (some s.tasks.length))) :
    Queued process s' := by
  have below : ∀ {m : Nat} {other : WriteTask I}, s.tasks[m]? = some other → m < s.tasks.length :=
    fun here => (List.getElem?_eq_some_iff.mp here).1
  have keep : ∀ {m : Nat} {other : WriteTask I}, s.tasks[m]? = some other → s'.tasks[m]? = some other := by
    intro m other here
    rw [tasks, List.getElem?_append_left (below here)]
    exact here
  have split : ∀ {m : Nat} {other : WriteTask I}, s'.tasks[m]? = some other →
      s.tasks[m]? = some other ∨ m = s.tasks.length ∧ other = task := by
    intro m other here
    rw [tasks] at here
    exact getElem?_snoc here
  have written : ∀ owner thread, s'.writes owner thread =
      if owner = process task.store ∧ thread = task.thread then some s.tasks.length
      else s.writes owner thread := by
    intro owner thread
    rw [writes]
    by_cases same : owner = process task.store
    · subst same
      by_cases this : thread = task.thread
      · subst this
        simp
      · simp [this]
    · simp [same]
  refine ⟨?_, ?_, ?_, ?_, ?_⟩
  · intro owner thread number is
    rw [written] at is
    split at is
    · next same =>
      cases is
      refine ⟨task, by rw [tasks]; simp, same.1.symm, same.2.symm, ?_⟩
      intro m other here _ _
      rcases split here with old | ⟨rfl, -⟩
      · exact (below old).le
      · exact le_rfl
    · next apart =>
      obtain ⟨last, here, owned, named, latest⟩ := queued.last owner thread number is
      refine ⟨last, keep here, owned, named, ?_⟩
      intro m other hereOther ownedOther namedOther
      rcases split hereOther with old | ⟨-, rfl⟩
      · exact latest m other old ownedOther namedOther
      · exact absurd ⟨ownedOther.symm, namedOther.symm⟩ apart
  · intro owner thread free m other here owned named
    rw [written] at free
    split at free
    · cases free
    · next apart =>
      rcases split here with old | ⟨-, rfl⟩
      · exact queued.idle owner thread free m other old owned named
      · exact absurd ⟨owned.symm, named.symm⟩ apart
  · intro m other here absent m' other' here' earlier same
    rcases split here with old | ⟨rfl, rfl⟩
    · rcases split here' with old' | ⟨rfl, -⟩
      · exact queued.first m other old absent m' other' old' earlier same
      · have := below old
        omega
    · rcases split here' with old' | ⟨rfl, -⟩
      · exact queued.idle _ _ (previous.symm.trans absent) m' other' old' same.1 same.2
      · omega
  · intro m other here k is
    rcases split here with old | ⟨rfl, rfl⟩
    · obtain ⟨third, hereThird, same, earlier, latest⟩ := queued.previous m other old k is
      refine ⟨third, keep hereThird, same, earlier, ?_⟩
      intro m' other' here' less same'
      rcases split here' with old' | ⟨rfl, -⟩
      · exact latest m' other' old' less same'
      · have := below old
        omega
    · obtain ⟨third, hereThird, owned, named, latest⟩ :=
        queued.last _ _ k (previous.symm.trans is)
      refine ⟨third, keep hereThird, ⟨owned, named⟩, below hereThird, ?_⟩
      intro m' other' here' less same'
      rcases split here' with old' | ⟨rfl, -⟩
      · exact latest m' other' old' same'.1 same'.2
      · omega
  · intro m other here begun m' other' here' earlier same
    rcases split here with old | ⟨rfl, rfl⟩
    · rcases split here' with old' | ⟨rfl, -⟩
      · exact queued.started m other old begun m' other' old' earlier same
      · have := below old
        omega
    · exact absurd waits begun

end Queue

end CodexHost.Guarantees.UsageMeasurements
