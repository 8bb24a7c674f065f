import CodexHost.Foundation.Transition
import CodexHost.Source.HostRuntime.DesktopRequestQueue

/-!
# Desktop requests of a Thread run one after the other

The entry of a Thread in the table is always its last call, or there is none and all its calls have
settled. So a call is chained on the last earlier one of its Thread that is still open, whatever
reaction removed an entry in between, and on nothing of another Thread.
-/
namespace CodexHost.Guarantees.DesktopRequests
open Foundation Source.HostRuntime
open Source.HostRuntime.DesktopRequestQueue OrderedMap List Function

variable {queue queue' : DesktopRequestQueue} {event : Event} {action : Action} {n m : Nat}

/-- What has happened to a call of this phase. -/
def past : Phase → List Action
  | .waiting => []
  | .running => [.start]
  | .finished outcome => [.start, .finish outcome]
  | .answered outcome => [.start, .finish outcome, .answer]
  | .settled outcome => [.start, .finish outcome, .answer, .settle]
  | .cleared outcome => [.start, .finish outcome, .answer, .settle, .clear]

def progress (queue : DesktopRequestQueue) (n : Nat) : Nat := (past (queue.phase n)).length

/-- An earlier call of the same Thread. -/
def Before (queue : DesktopRequestQueue) (m n : Nat) : Prop :=
  m < n ∧ (queue.threadId n).isSome = true ∧ queue.threadId m = queue.threadId n

def actionOf (n : Nat) : Event → Option Action
  | .call m action => if m = n then some action else none
  | _ => none

theorem isSettled_iff : queue.isSettled n = true ↔ 4 ≤ progress queue n := by
  unfold DesktopRequestQueue.isSettled progress
  cases queue.phase n <;> simp [Phase.isSettled, past]

theorem next_past {before after : Phase} (next : before.next action = some after) :
    past after = past before ++ [action] ∧ (past before).length ≤ 4 ∧
      (action = .clear ↔ (past before).length = 4) ∧ (action = .start ↔ (past before).length = 0) := by
  unfold Phase.next at next
  split at next <;> cases next <;> simp [past]

/-- What an event about a call can do. -/
structure Moves (queue : DesktopRequestQueue) (n : Nat) (action : Action) (queue' : DesktopRequestQueue) : Prop where
  inside : n < queue.calls
  ready : action = .start → (queue.previous n).all queue.isSettled = true
  next : ∃ phase, (queue.phase n).next action = some phase ∧ queue'.phase = update queue.phase n phase
  calls : queue'.calls = queue.calls
  threadId : queue'.threadId = queue.threadId
  previous : queue'.previous = queue.previous
  drains : queue'.drains = queue.drains
  pending : ∀ k, k ∈ queue'.pending ↔ k ∈ queue.pending ∧ ¬ (action = .clear ∧ k = n)
  /-- The reaction of a call removes the entry for that call only. -/
  threads : ∀ threadId, queue'.threads.get? threadId = (queue.threads.get? threadId).filter fun k =>
    ¬ (action = .clear ∧ queue.threadId n = some threadId ∧ k = n)

theorem get?_clear (threadId : String) : (queue.clear n).threads.get? threadId =
    (queue.threads.get? threadId).filter fun k => ¬ (queue.threadId n = some threadId ∧ k = n) := by
  unfold DesktopRequestQueue.clear
  cases queue.threadId n with
  | none => cases queue.threads.get? threadId <;> simp [Option.filter]
  | some own =>
    dsimp only
    by_cases same : own = threadId
    · subst same
      cases found : queue.threads.get? own with
      | none => simp [found]
      | some k => by_cases mine : k = n <;> simp [mine, found, Option.filter]
    · split
      · rw [get?_delete_of_ne _ (Ne.symm same)]
        cases queue.threads.get? threadId <;> simp [same, Option.filter]
      · cases queue.threads.get? threadId <;> simp [same, Option.filter]

theorem moves_of_step (moved : step queue (.call n action) = some queue') : Moves queue n action queue' := by
  change queue.advance n action = some queue' at moved
  unfold advance at moved
  split at moved
  · next possible =>
    obtain ⟨phase, next, rfl⟩ := Option.map_eq_some_iff.mp moved
    by_cases clears : action = .clear
    · simp only [if_pos clears]
      refine ⟨possible.1, possible.2, ⟨phase, next, rfl⟩, rfl, rfl, rfl, rfl, fun k => ?_, fun threadId => ?_⟩
      · simp [DesktopRequestQueue.clear, clears]
      · rw [get?_clear]
        simp [clears]
    · simp only [if_neg clears]
      exact ⟨possible.1, possible.2, ⟨phase, next, rfl⟩, rfl, rfl, rfl, rfl, fun k => by simp [clears],
        fun threadId => by cases queue.threads.get? threadId <;> simp [clears, Option.filter]⟩
  · cases moved

theorem Moves.past (moves : Moves queue n action queue') (m : Nat) :
    past (queue'.phase m) = past (queue.phase m) ++ (actionOf m (.call n action)).toList := by
  obtain ⟨phase, next, is⟩ := moves.next
  rw [is, update_apply, actionOf]
  by_cases same : m = n
  · rw [if_pos same, if_pos same.symm, same]
    exact (next_past next).1
  · rw [if_neg same, if_neg (Ne.symm same)]
    exact (append_nil _).symm

/-- What has happened to a call is what the events about it say. -/
theorem step_past (moved : step queue event = some queue') (m : Nat) :
    past (queue'.phase m) = past (queue.phase m) ++ (actionOf m event).toList := by
  have same (is : queue'.phase = queue.phase) : past (queue'.phase m) = past (queue.phase m) ++ [] := by
    rw [is, append_nil]
  cases event with
  | run threadId | drain =>
    cases moved
    exact same rfl
  | drained index =>
    obtain ⟨drain, -, moved⟩ := Option.bind_eq_some_iff.mp moved
    split at moved
    · cases moved
      exact same rfl
    · cases moved
  | call n action => exact (moves_of_step moved).past m

theorem progress_le (moved : step queue event = some queue') (m : Nat) : progress queue m ≤ progress queue' m := by
  rw [progress, progress, step_past moved, length_append]
  exact Nat.le_add_right _ _

theorem Moves.progress (moves : Moves queue n action queue') (m : Nat) :
    progress queue' m = progress queue m + if m = n then 1 else 0 := by
  rw [DesktopRequests.progress, moves.past, length_append, DesktopRequests.progress, actionOf]
  by_cases same : m = n
  · rw [if_pos same, if_pos same.symm]
    rfl
  · rw [if_neg same, if_neg (Ne.symm same)]
    rfl

theorem Moves.here (moves : Moves queue n action queue') : DesktopRequests.progress queue n ≤ 4 ∧
    (action = .clear ↔ DesktopRequests.progress queue n = 4) ∧
      (action = .start ↔ DesktopRequests.progress queue n = 0) := by
  obtain ⟨phase, next, -⟩ := moves.next
  exact (next_past next).2

structure Inv (queue : DesktopRequestQueue) : Prop where
  fresh : ∀ n, queue.calls ≤ n → queue.threadId n = none ∧ progress queue n = 0
  pending : ∀ n, n ∈ queue.pending ↔ n < queue.calls ∧ progress queue n < 5
  /-- The entry of a Thread is its last call, and is not cleared. -/
  latest : ∀ threadId n, queue.threads.get? threadId = some n → queue.threadId n = some threadId ∧
    n ∈ queue.pending ∧ ∀ m, queue.threadId m = some threadId → m ≤ n
  missing : ∀ threadId, queue.threads.get? threadId = none →
    ∀ m, queue.threadId m = some threadId → 4 ≤ progress queue m
  /-- A call is chained on one of its Thread, and on none before that is still open. -/
  chained : ∀ n < queue.calls, (∀ previous, queue.previous n = some previous → Before queue previous n) ∧
    ∀ m, Before queue m n → 4 ≤ progress queue m ∨ ∃ previous, queue.previous n = some previous ∧ m ≤ previous
  ordered : ∀ n, 0 < progress queue n → ∀ m, Before queue m n → 4 ≤ progress queue m
  drains : ∀ drain ∈ queue.drains, (∀ m < drain.calls, m ∈ drain.awaited ∨ 4 ≤ progress queue m) ∧
    (drain.resolved = true → ∀ m ∈ drain.awaited, 4 ≤ progress queue m)

theorem inv_initial : Inv initial where
  fresh _ _ := ⟨rfl, rfl⟩
  pending _ := by simp [initial]
  latest _ _ found := by cases found
  missing _ _ _ thread := by cases thread
  chained _ inside := absurd inside (Nat.not_lt_zero _)
  ordered _ moved := absurd moved (Nat.lt_irrefl 0)
  drains _ member := by cases member

section
variable (inv : Inv queue)
include inv

theorem Inv.inside (m : Nat) (thread : (queue.threadId m).isSome = true) : m < queue.calls := by
  by_contra out
  rw [(inv.fresh m (Nat.not_lt.mp out)).1] at thread
  cases thread

theorem Inv.started (m : Nat) (moved : 0 < progress queue m) : m < queue.calls := by
  by_contra out
  rw [(inv.fresh m (Nat.not_lt.mp out)).2] at moved
  exact Nat.lt_irrefl 0 moved

omit inv in
theorem thread_run (threadId : Option String) (inside : n < queue.calls) :
    (queue.run threadId).threadId n = queue.threadId n := update_of_ne (Nat.ne_of_lt inside) ..

omit inv in
theorem before_run (threadId : Option String) (inside : n < queue.calls) :
    Before (queue.run threadId) m n ↔ Before queue m n := by
  refine and_congr_right fun earlier => ?_
  rw [thread_run threadId inside, thread_run threadId (Nat.lt_trans earlier inside)]

/-- A call of a Thread is an old one, or the new one. -/
theorem Inv.thread_cases {threadId : Option String} {key : String}
    (thread : (queue.run threadId).threadId m = some key) :
    m = queue.calls ∧ threadId = some key ∨ m < queue.calls ∧ queue.threadId m = some key := by
  simp only [DesktopRequestQueue.run, update_apply] at thread
  split at thread
  · next last => exact .inl ⟨last, thread⟩
  · exact .inr ⟨inv.inside m (by rw [thread]; rfl), thread⟩

theorem Inv.run (threadId : Option String) : Inv (queue.run threadId) where
  fresh n above := by
    have past : queue.calls + 1 ≤ n := above
    obtain ⟨thread, waiting⟩ := inv.fresh n (Nat.le_of_succ_le past)
    exact ⟨(update_of_ne (Nat.ne_of_gt past) ..).trans thread, waiting⟩
  pending n := by
    show n ∈ queue.pending ++ [queue.calls] ↔ n < queue.calls + 1 ∧ progress queue n < 5
    rw [mem_append, mem_singleton, inv.pending, Nat.lt_succ_iff_lt_or_eq]
    have waiting : n = queue.calls → progress queue n = 0 := fun last => (inv.fresh n (Nat.le_of_eq last.symm)).2
    omega
  latest key n found := by
    have old (found : queue.threads.get? key = some n) (other : threadId ≠ some key) :
        (queue.run threadId).threadId n = some key ∧ n ∈ queue.pending ++ [queue.calls] ∧
          ∀ m, (queue.run threadId).threadId m = some key → m ≤ n := by
      obtain ⟨thread, open_, last⟩ := inv.latest key n found
      refine ⟨?_, mem_append_left _ open_, fun m same => ?_⟩
      · rwa [thread_run _ (inv.inside n (by rw [thread]; rfl))]
      · rcases inv.thread_cases same with ⟨-, same⟩ | ⟨-, same⟩
        · exact absurd same other
        · exact last m same
    cases threadId with
    | none => exact old found nofun
    | some threadId =>
      simp only [DesktopRequestQueue.run, get?_set] at found
      split at found
      · next same =>
        cases found
        refine ⟨by rw [same]; exact update_self .., mem_append_right _ (mem_singleton_self _), fun m same => ?_⟩
        rcases inv.thread_cases same with ⟨last, -⟩ | ⟨inside, -⟩
        · exact Nat.le_of_eq last
        · exact Nat.le_of_lt inside
      · next other => exact old found fun same => other (Option.some.inj same).symm
  missing key none m thread := by
    show 4 ≤ progress queue m
    rcases inv.thread_cases thread with ⟨-, rfl⟩ | ⟨-, thread⟩
    · simp [DesktopRequestQueue.run] at none
    · refine inv.missing key ?_ m thread
      cases threadId with
      | none => exact none
      | some threadId =>
        simp only [DesktopRequestQueue.run, get?_set] at none
        split at none
        · cases none
        · exact none
  chained n inside := by
    by_cases last : n = queue.calls
    · subst last
      have thread : (queue.run threadId).threadId queue.calls = threadId := update_self ..
      have chain : (queue.run threadId).previous queue.calls = threadId.bind queue.threads.get? := update_self ..
      rw [chain]
      refine ⟨fun previous is => ?_, fun m ⟨earlier, keyed, same⟩ => ?_⟩
      · obtain ⟨key, rfl, found⟩ := Option.bind_eq_some_iff.mp is
        obtain ⟨same, -, -⟩ := inv.latest key previous found
        have inside := inv.inside previous (by rw [same]; rfl)
        exact ⟨inside, by rw [thread]; rfl, by rw [thread, thread_run _ inside, same]⟩
      · rw [thread] at keyed same
        rw [thread_run _ earlier] at same
        obtain ⟨key, rfl⟩ := Option.isSome_iff_exists.mp keyed
        cases found : queue.threads.get? key with
        | none => exact .inl (inv.missing key found m same)
        | some previous => exact .inr ⟨previous, found, (inv.latest key previous found).2.2 m same⟩
    · have inside : n < queue.calls := Nat.lt_of_le_of_ne (Nat.lt_succ_iff.mp inside) last
      have chain : (queue.run threadId).previous n = queue.previous n := update_of_ne last ..
      obtain ⟨behind, open_⟩ := inv.chained n inside
      rw [chain]
      exact ⟨fun previous is => (before_run threadId inside).mpr (behind previous is),
        fun m before => open_ m ((before_run threadId inside).mp before)⟩
  ordered n moved m before := inv.ordered n moved m ((before_run threadId (inv.started n moved)).mp before)
  drains := inv.drains

/-- When an operation starts, every earlier one of its Thread has settled. -/
theorem Inv.ready (inside : n < queue.calls) (after : (queue.previous n).all queue.isSettled = true)
    (before : Before queue m n) : 4 ≤ progress queue m := by
  obtain ⟨behind, open_⟩ := inv.chained n inside
  rcases open_ m before with settled | ⟨previous, is, le⟩
  · exact settled
  · rw [is] at after
    have settled := isSettled_iff.mp after
    rcases Nat.lt_or_eq_of_le le with earlier | rfl
    · obtain ⟨-, keyed, same⟩ := behind previous is
      exact inv.ordered previous (by omega) m ⟨earlier, by rwa [same], before.2.2.trans same.symm⟩
    · exact settled

/-- Nothing is open of a Thread whose last call is about to be cleared. -/
theorem Inv.cleared {threadId : String} (found : queue.threads.get? threadId = some n)
    (settled : progress queue n = 4) (thread : queue.threadId m = some threadId) : 4 ≤ progress queue m := by
  obtain ⟨same, -, last⟩ := inv.latest threadId n found
  rcases Nat.lt_or_eq_of_le (last m thread) with earlier | rfl
  · exact inv.ordered n (by omega) m ⟨earlier, by rw [same]; rfl, by rw [thread, same]⟩
  · exact Nat.le_of_eq settled.symm

theorem Inv.advance (moved : step queue (.call n action) = some queue') : Inv queue' := by
  have moves := moves_of_step moved
  obtain ⟨most, clears, starts⟩ := moves.here
  have now := moves.progress
  have grown := progress_le moved
  have before {m k : Nat} : Before queue' m k ↔ Before queue m k := by simp only [Before, moves.threadId]
  refine ⟨fun k above => ?_, fun k => ?_, fun threadId k found => ?_, fun threadId none m thread => ?_,
    fun k inside => ?_, fun k started m earlier => ?_, fun drain member => ?_⟩
  · rw [moves.calls] at above
    rw [moves.threadId, now, if_neg (Nat.ne_of_gt (Nat.lt_of_lt_of_le moves.inside above))]
    exact inv.fresh k above
  · rw [moves.pending, inv.pending, moves.calls, now, clears]
    by_cases same : k = n
    · subst same
      rw [if_pos rfl]
      omega
    · simp [same]
  · rw [moves.threads, Option.filter_eq_some_iff, decide_eq_true_eq] at found
    obtain ⟨thread, open_, last⟩ := inv.latest threadId k found.1
    rw [moves.threadId, moves.pending]
    exact ⟨thread, ⟨open_, fun ⟨clear, same⟩ => found.2 ⟨clear, same ▸ thread, same⟩⟩, last⟩
  · rw [moves.threadId] at thread
    rw [moves.threads] at none
    refine Nat.le_trans ?_ (grown m)
    cases was : queue.threads.get? threadId with
    | none => exact inv.missing threadId was m thread
    | some k =>
      have mine := Option.filter_eq_none_iff.mp none k was
      simp only [decide_eq_true_eq, not_not] at mine
      obtain ⟨clear, -, rfl⟩ := mine
      exact inv.cleared was (clears.mp clear) thread
  · rw [moves.calls] at inside
    obtain ⟨behind, open_⟩ := inv.chained k inside
    rw [moves.previous]
    exact ⟨fun previous is => before.mpr (behind previous is),
      fun m earlier => (open_ m (before.mp earlier)).imp_left fun settled => Nat.le_trans settled (grown m)⟩
  · refine Nat.le_trans ?_ (grown m)
    by_cases was : 0 < progress queue k
    · exact inv.ordered k was m (before.mp earlier)
    · rw [now] at started
      split at started
      · next same =>
        subst same
        exact inv.ready moves.inside (moves.ready (starts.mpr (by omega))) (before.mp earlier)
      · exact absurd started was
  · rw [moves.drains] at member
    obtain ⟨all, resolved⟩ := inv.drains drain member
    exact ⟨fun m earlier => (all m earlier).imp_right fun settled => Nat.le_trans settled (grown m),
      fun done m member => Nat.le_trans (resolved done m member) (grown m)⟩

theorem Inv.step (moved : step queue event = some queue') : Inv queue' := by
  cases event with
  | run threadId =>
    cases moved
    exact inv.run threadId
  | call n action => exact inv.advance moved
  | drain =>
    cases moved
    refine { inv with drains := fun drain member => ?_ }
    rcases mem_append.mp member with old | new
    · exact inv.drains drain old
    · rw [mem_singleton.mp new]
      refine ⟨fun m earlier => ?_, nofun⟩
      by_cases open_ : progress queue m < 5
      · exact .inl ((inv.pending m).mpr ⟨earlier, open_⟩)
      · exact .inr (by change 4 ≤ progress queue m; omega)
  | drained index =>
    obtain ⟨drain, here, moved⟩ := Option.bind_eq_some_iff.mp moved
    split at moved
    · next all =>
      cases moved
      refine { inv with drains := fun drain' member => ?_ }
      rcases mem_or_eq_of_mem_set member with old | rfl
      · exact inv.drains drain' old
      · refine ⟨(inv.drains drain (mem_of_getElem? here)).1, fun _ m member => ?_⟩
        exact isSettled_iff.mp (List.all_eq_true.mp all m member)
    · cases moved

end

/-- Something about the call can happen: a reaction runs, or its operation settles. -/
def CanMove (queue : DesktopRequestQueue) (n : Nat) : Prop := ∃ action, (step queue (.call n action)).isSome = true

theorem start_ready (inside : n < queue.calls) (waiting : progress queue n = 0)
    (after : (queue.previous n).all queue.isSettled = true) : (step queue (.call n .start)).isSome = true := by
  have at_ : queue.phase n = .waiting := by
    unfold progress at waiting
    cases h : queue.phase n <;> simp [h, past] at waiting
    rfl
  simp [step, advance, inside, after, at_, Phase.next]

theorem canMove (inside : n < queue.calls) (open_ : progress queue n < 5)
    (after : (queue.previous n).all queue.isSettled = true) : CanMove queue n := by
  cases at_ : queue.phase n with
  | waiting => exact ⟨.start, start_ready inside (by rw [progress, at_]; rfl) after⟩
  | running => exact ⟨.finish (.ok ()), by simp [step, advance, inside, at_, Phase.next]⟩
  | finished => exact ⟨.answer, by simp [step, advance, inside, at_, Phase.next]⟩
  | answered => exact ⟨.settle, by simp [step, advance, inside, at_, Phase.next]⟩
  | settled => exact ⟨.clear, by simp [step, advance, inside, at_, Phase.next]⟩
  | cleared =>
    rw [progress, at_] at open_
    exact absurd open_ (by simp [past])

theorem Before.trans {k : Nat} (first : Before queue k m) (second : Before queue m n) : Before queue k n :=
  ⟨Nat.lt_trans first.1 second.1, second.2.1, first.2.2.trans second.2.2⟩

/-- A call that is not through waits at most for an earlier one of its Thread. -/
theorem Inv.live (inv : Inv queue) (n : Nat) (inside : n < queue.calls) (open_ : progress queue n < 5) :
    ∃ m, (m = n ∨ Before queue m n) ∧ CanMove queue m := by
  induction n using Nat.strongRecOn with
  | _ n ih =>
    by_cases after : (queue.previous n).all queue.isSettled = true
    · exact ⟨n, .inl rfl, canMove inside open_ after⟩
    · obtain ⟨previous, is, waits⟩ : ∃ previous, queue.previous n = some previous ∧ ¬ 4 ≤ progress queue previous := by
        cases is : queue.previous n with
        | none => exact absurd (by rw [is]; rfl) after
        | some previous =>
          rw [is] at after
          exact ⟨previous, rfl, fun settled => after (isSettled_iff.mpr settled)⟩
      have behind := (inv.chained n inside).1 previous is
      obtain ⟨m, earlier, moves⟩ := ih previous behind.1 (Nat.lt_trans behind.1 inside) (by omega)
      refine ⟨m, .inr ?_, moves⟩
      rcases earlier with rfl | earlier
      · exact behind
      · exact earlier.trans behind

section Runs
variable {events : List Event}

/-- The queue after these events. -/
abbrev Reached (events : List Event) (queue : DesktopRequestQueue) : Prop :=
  Run (fun queue event queue' => step queue event = some queue') initial events queue

theorem Reached.inv (reached : Reached events queue) : Inv queue :=
  reached.invariant inv_initial fun _ _ _ inv moved => inv.step moved

theorem Reached.past (reached : Reached events queue) (n : Nat) :
    events.filterMap (actionOf n) = past (queue.phase n) := by
  induction reached with
  | nil => rfl
  | snoc before last ih =>
    rw [filterMap_append, ih, step_past last]
    rename_i event
    cases is : actionOf n event <;> simp [is]

theorem mem_past (reached : Reached events queue) : .call n action ∈ events ↔ action ∈ past (queue.phase n) := by
  rw [← reached.past, mem_filterMap]
  constructor
  · exact fun member => ⟨_, member, if_pos rfl⟩
  · rintro ⟨event, member, is⟩
    cases event with
    | call m other =>
      simp only [actionOf, Option.ite_none_right_eq_some, Option.some.injEq] at is
      exact is.1 ▸ is.2 ▸ member
    | _ => cases is

/-- What the caller was told. -/
def answer : Phase → Option Outcome
  | .answered outcome | .settled outcome | .cleared outcome => some outcome
  | _ => none

/-- What holds of the requests after these events. -/
structure Ordered (events : List Event) (queue : DesktopRequestQueue) : Prop where
  /-- No operation runs twice, and nothing happens without end. -/
  once : ∀ n, (events.filterMap (actionOf n)).count .start ≤ 1 ∧ (events.filterMap (actionOf n)).length ≤ 5
  /-- An operation starts after the earlier ones of its Thread have settled. -/
  inTurn : ∀ n, (step queue (.call n .start)).isSome = true →
    ∀ m, Before queue m n → ∃ result, .call m (.finish result) ∈ events
  /-- And then as soon as the reactions to them have run, whatever other Threads do. -/
  prompt : ∀ n < queue.calls, .call n .start ∉ events →
    (∀ m, Before queue m n → queue.isSettled m = true) → (step queue (.call n .start)).isSome = true
  /-- A caller is told the outcome of its own operation. -/
  own : ∀ n result, answer (queue.phase n) = some result →
    ∀ result', .call n (.finish result') ∈ events ↔ result' = result
  /-- A `drain` is resolved after every earlier operation has settled. -/
  drained : ∀ drain ∈ queue.drains, drain.resolved = true →
    ∀ m < drain.calls, ∃ result, .call m (.finish result) ∈ events
  /-- Until a call is through, it or an earlier one of its Thread can go on. -/
  live : ∀ n < queue.calls, .call n .clear ∉ events → ∃ m, (m = n ∨ Before queue m n) ∧ CanMove queue m
  /-- Once nothing more happens to a call, all have run and were answered, and the tables are empty. -/
  emptied : (∀ n, ¬ CanMove queue n) →
    (∀ n < queue.calls, .call n .start ∈ events ∧ ∃ result, answer (queue.phase n) = some result) ∧
    queue.threads.entries = [] ∧ queue.pending = []

/-- The requests of each Thread run in their order, exactly once and on their own. -/
theorem requests_in_order (reached : Reached events queue) : Ordered events queue := by
  have inv := reached.inv
  have finished {m : Nat} (far : 4 ≤ progress queue m) : ∃ result, .call m (.finish result) ∈ events := by
    simp only [mem_past reached]
    unfold progress at far
    cases is : queue.phase m <;> simp [is, past] at far ⊢
  have through (quiet : ∀ n, ¬ CanMove queue n) (n : Nat) (inside : n < queue.calls) : 5 ≤ progress queue n := by
    by_contra open_
    obtain ⟨m, -, moves⟩ := inv.live n inside (Nat.lt_of_not_le open_)
    exact quiet m moves
  refine ⟨fun n => ?_, fun n moves m before => ?_, fun n inside fresh settled => ?_,
    fun n result is result' => ?_, fun drain member done m earlier => ?_, fun n inside open_ => ?_,
    fun quiet => ⟨fun n inside => ?_, ?_, ?_⟩⟩
  · rw [reached.past]
    cases queue.phase n <;> simp [past]
  · obtain ⟨queue', moved⟩ := Option.isSome_iff_exists.mp moves
    have moves := moves_of_step moved
    exact finished (inv.ready moves.inside (moves.ready rfl) before)
  · rw [mem_past reached] at fresh
    refine start_ready inside ?_ ?_
    · unfold progress
      cases is : queue.phase n <;> simp [is, past] at fresh ⊢
    · cases is : queue.previous n with
      | none => rfl
      | some previous => exact settled previous ((inv.chained n inside).1 previous is)
  · rw [mem_past reached]
    cases at_ : queue.phase n <;> rw [at_] at is <;> cases is <;> simp [past]
  · obtain ⟨all, resolved⟩ := inv.drains drain member
    exact finished ((all m earlier).elim (resolved done m) id)
  · rw [mem_past reached] at open_
    refine inv.live n inside ?_
    unfold progress
    cases is : queue.phase n <;> simp [is, past] at open_ ⊢
  · have far := through quiet n inside
    rw [mem_past reached]
    unfold progress at far
    cases is : queue.phase n <;> simp [is, past, answer] at far ⊢
  · refine eq_nil_iff_forall_not_mem.mpr fun ⟨threadId, n⟩ member => ?_
    obtain ⟨-, open_, -⟩ := inv.latest threadId n ((mem_entries_iff _ _ _).mp member)
    obtain ⟨inside, open_⟩ := (inv.pending n).mp open_
    exact absurd (through quiet n inside) (Nat.not_le_of_lt open_)
  · refine eq_nil_iff_forall_not_mem.mpr fun n member => ?_
    obtain ⟨inside, open_⟩ := (inv.pending n).mp member
    exact absurd (through quiet n inside) (Nat.not_le_of_lt open_)

/-- Two requests of a Thread, the first of which fails, and a `drain` in between. -/
def failedEvents : List Event :=
  [.run (some "thread"), .drain, .run (some "thread"), .call 0 .start, .call 0 (.finish (.error "routing failed")),
    .call 0 .answer, .call 0 .settle, .call 1 .start, .call 0 .clear, .drained 0]

theorem failed_in_order : ∃ queue, failedEvents.foldlM step initial = some queue ∧ Ordered failedEvents queue :=
  ⟨_, rfl, requests_in_order (.of_foldlM rfl)⟩

end Runs

end CodexHost.Guarantees.DesktopRequests
