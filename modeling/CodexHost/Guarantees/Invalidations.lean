import CodexHost.Foundation.Traces
import CodexHost.Guarantees.ClientChannel
import CodexHost.Source.WebServer.ChRealtime

/-!
# An invalidation is followed by a read

While the Thread is watched and the connection is online, an invalidation that has not been read
after has a timer, or a running read that a timer follows.
-/
namespace CodexHost.Guarantees.Invalidations
open Foundation Source.HostRuntime Source.DesktopControl List Option
open Source.WebServer Guarantees.ClientChannel
open Source.WebServer.ChRealtime hiding step Event initial

/-- The Thread is watched, and the connection is online. -/
def watching (s : ChRealtime) (id : String) : Bool := s.watched.has id && s.online && !s.closed

/-- A timer leads to the read, at once or after the read that runs. -/
def due (s : ChRealtime) (id : String) : Prop :=
  id ∈ s.timers ∨ id ∈ s.running ∧ id ∈ s.dirty

/-- The event calls for a read of the Thread. -/
def invalidates (id : String) : ChRealtime.Event → Bool
  | .update (.event (.hello _ _)) => true
  | .update (.event (.change event)) =>
    match event.change with
    | .changed threadId _ => threadId = id
    | _ => false
  | .invalidate other => other = id
  | _ => false

/-- A read of the Thread starts. -/
def startsRead (s s' : ChRealtime) (id : String) : Prop := s'.reads = s.reads ++ [id]

section Steps
variable {s s' : ChRealtime} {id : String}

/-- There are more timers and more dirty Threads. -/
structure Grows (s s' : ChRealtime) : Prop where
  online : s'.online = s.online
  closed : s'.closed = s.closed
  running : s'.running = s.running
  timers : s.timers ⊆ s'.timers
  dirty : s.dirty ⊆ s'.dirty

theorem grows_refl : Grows s s := ⟨rfl, rfl, rfl, fun _ => id, fun _ => id⟩

theorem Grows.trans {s'' : ChRealtime} (one : Grows s s') (two : Grows s' s'') : Grows s s'' :=
  ⟨two.online.trans one.online, two.closed.trans one.closed, two.running.trans one.running,
    fun _ member => two.timers (one.timers member), fun _ member => two.dirty (one.dirty member)⟩

theorem Grows.due (grows : Grows s s') (waits : due s id) : due s' id :=
  waits.imp (grows.timers ·) fun ⟨running, dirty⟩ => ⟨grows.running ▸ running, grows.dirty dirty⟩

theorem grows_schedule (other : String) : Grows s (s.schedule other) := by
  simp only [schedule]
  split
  · exact ⟨rfl, rfl, rfl, fun _ => id, fun _ => mem_insert_of_mem⟩
  · exact ⟨rfl, rfl, rfl, fun _ => mem_cons_of_mem _, fun _ => mem_insert_of_mem⟩

theorem schedule_due (online : s.online = true) (opened : s.closed = false) : due (s.schedule id) id := by
  simp only [schedule, online, opened]
  split
  · next busy =>
    simp only [Bool.not_true, Bool.false_or, Bool.or_eq_true, decide_eq_true_eq] at busy
    exact busy.symm.imp (fun timer => timer) fun running => ⟨running, mem_insert_self⟩
  · exact .inl mem_cons_self

theorem grows_scheduleAll (ids : List String) : Grows s (ids.foldl ChRealtime.schedule s) := by
  induction ids generalizing s with
  | nil => exact grows_refl
  | cons first rest ih => exact (grows_schedule first).trans ih

theorem scheduleAll_due (online : s.online = true) (opened : s.closed = false) {ids : List String}
    (member : id ∈ ids) : due (ids.foldl ChRealtime.schedule s) id := by
  induction ids generalizing s with
  | nil => cases member
  | cons first rest ih =>
    have grows := grows_schedule (s := s) first
    rcases mem_cons.mp member with rfl | later
    · exact (grows_scheduleAll rest).due (schedule_due online opened)
    · exact ih (grows.online.trans online) (grows.closed.trans opened) later

theorem grows_receiveChange (change : Change) : Grows s (s.receiveChange change) := by
  cases change with
  | changed threadId method =>
    have first : Grows s (if s.watched.has threadId then s.schedule threadId else s) := by
      split
      · exact grows_schedule threadId
      · exact grows_refl
    simp only [receiveChange]
    split
    · exact first.trans (grows_schedule "")
    · exact first
  | _ => exact grows_refl

theorem grows_settle (other : String) (failed : Bool) :
    Grows { s with running := s.running.filter (· ≠ other) } (s.settle other failed) := by
  have dirtier : s.dirty ⊆ if failed = true then s.dirty.insert other else s.dirty := by
    split
    · exact fun _ => mem_insert_of_mem
    · exact fun _ => id
  simp only [settle]
  generalize (if failed = true then s.dirty.insert other else s.dirty) = dirty at dirtier ⊢
  have first : Grows { s with running := s.running.filter (· ≠ other) }
      { s with dirty := dirty, running := s.running.filter (· ≠ other) } :=
    ⟨rfl, rfl, rfl, fun _ => id, dirtier⟩
  split
  · exact first.trans (grows_schedule other)
  · exact first

variable {event : ChRealtime.Event}

/-- The invalidation of a watched Thread sets a timer, unless its read runs. -/
theorem invalidates_due (calls : invalidates id event = true)
    (watches : watching s id = true) (moved : ChRealtime.step s event = some s') : due s' id := by
  simp only [watching, Bool.and_eq_true, Bool.not_eq_true'] at watches
  obtain ⟨⟨watched, online⟩, opened⟩ := watches
  have fresh : due (s.schedule id) id := schedule_due online opened
  cases event with
  | update update =>
    cases moved
    simp only [receive, opened, Bool.false_eq_true, if_false]
    cases update with
    | connection now => cases calls
    | event event =>
      cases event with
      | hello cursor reset =>
        obtain ⟨count, is⟩ := (OrderedMap.has_iff _ _).mp watched
        have member : id ∈ s.watched.keys :=
          (OrderedMap.mem_keys_iff _ _).mpr (by simp [is])
        exact (grows_schedule "").due (scheduleAll_due online opened member)
      | change event =>
        simp only [invalidates] at calls
        split at calls
        · next threadId method is =>
          cases decide_eq_true_eq.mp calls
          simp only [receiveChange, is, watched, if_true]
          split
          · exact (grows_schedule "").due fresh
          · exact fresh
        · cases calls
  | invalidate other =>
    cases decide_eq_true_eq.mp calls
    cases moved
    simp only [invalidate, watched, if_true]
    exact fresh
  | _ => cases calls

theorem fire_starts (watches : watching s id = true) : startsRead s (s.fire id) id := by
  simp only [watching, Bool.and_eq_true, Bool.not_eq_true'] at watches
  obtain ⟨⟨watched, online⟩, opened⟩ := watches
  simp [startsRead, fire, reconcile, watched, online, opened]

def updateOf : ChRealtime.Event → Option HostClientUpdate
  | .update update => some update
  | _ => none

/-- What a step does. -/
inductive Moves (s : ChRealtime) : ChRealtime.Event → ChRealtime → Prop where
  | grows {event : ChRealtime.Event} {s' : ChRealtime} (grows : Grows s s')
      (same : s.closed = true ∨ s.online = lastOnline ([.connection s.online] ++ (updateOf event).toList)) :
      Moves s event s'
  | connection (now : Bool) : Moves s (.update (.connection now))
      { s with online := now, timers := if now then s.timers else [] }
  | fire {other : String} (timer : other ∈ s.timers) : Moves s (.fire other) (s.fire other)
  | settle (other : String) (failed : Bool) : Moves s (.settle other failed) (s.settle other failed)
  | close : Moves s .close s.close

theorem moves_of_step (moved : ChRealtime.step s event = some s') : Moves s event s' := by
  cases event with
  | update update =>
    cases moved
    simp only [receive]
    split
    · next closed => exact .grows grows_refl (.inl closed)
    · cases update with
      | connection now => exact .connection now
      | event event =>
        cases event with
        | hello cursor reset => exact .grows ((grows_scheduleAll _).trans (grows_schedule "")) (.inr rfl)
        | change event => exact .grows (grows_receiveChange event.change) (.inr rfl)
  | invalidate other =>
    cases moved
    simp only [invalidate]
    split
    · exact .grows (grows_schedule other) (.inr rfl)
    · exact .grows grows_refl (.inr rfl)
  | follow other | unfollow other =>
    cases moved
    exact .grows ⟨rfl, rfl, rfl, fun _ => id, fun _ => id⟩ (.inr rfl)
  | fire other =>
    simp only [ChRealtime.step, ite_none_right_eq_some, some.injEq] at moved
    obtain ⟨timer, rfl⟩ := moved
    exact .fire timer
  | settle other failed =>
    simp only [ChRealtime.step, ite_none_right_eq_some, some.injEq] at moved
    obtain ⟨-, rfl⟩ := moved
    exact .settle other failed
  | close =>
    cases moved
    exact .close

theorem fire_kept (other : String) : (s.fire other).online = s.online ∧ (s.fire other).closed = s.closed ∧
    (s.fire other).timers = s.timers.filter (· ≠ other) ∧ (s.fire other).dirty = s.dirty.filter (· ≠ other) ∧
    s.running ⊆ (s.fire other).running := by
  simp only [fire, reconcile]
  split
  · exact ⟨rfl, rfl, rfl, rfl, fun _ => id⟩
  · exact ⟨rfl, rfl, rfl, rfl, fun _ => mem_insert_of_mem⟩

/-- Until the read starts it stays due, while the Thread is watched and the connection online. -/
theorem step_due (waits : due s id) (watches : watching s id = true)
    (moved : ChRealtime.step s event = some s') (still : watching s' id = true) :
    event = .fire id ∧ startsRead s s' id ∨ due s' id := by
  cases moves_of_step moved with
  | grows grows => exact .inr (grows.due waits)
  | connection now =>
    cases now with
    | true => exact .inr waits
    | false => simp [watching] at still
  | @fire other timer =>
    by_cases same : other = id
    · subst same
      exact .inl ⟨rfl, fire_starts watches⟩
    · obtain ⟨-, -, timers, dirty, running⟩ := fire_kept (s := s) other
      refine .inr (waits.imp (fun timer => ?_) (And.imp (@running _) fun was => ?_))
      · simpa [timers, Ne.symm same] using timer
      · simpa [dirty, Ne.symm same] using was
  | settle other failed =>
    refine .inr ?_
    simp only [watching, Bool.and_eq_true, Bool.not_eq_true'] at watches
    have grows := grows_settle (s := s) other failed
    by_cases same : other = id
    · -- the read has settled: what came while it ran is scheduled now
      subst same
      rcases waits with timer | ⟨-, was⟩
      · exact .inl (grows.timers timer)
      · simp only [settle]
        have dirty : other ∈ if failed = true then s.dirty.insert other else s.dirty := by
          split
          · exact mem_insert_of_mem was
          · exact was
        rw [if_pos dirty]
        exact schedule_due watches.1.2 watches.2
    · refine grows.due (waits.imp_right (And.imp_left fun running => ?_))
      exact mem_filter.mpr ⟨running, by simp [Ne.symm same]⟩
  | close => simp [watching, ChRealtime.close] at still

theorem step_timers (timer : id ∈ s.timers)
    (moved : ChRealtime.step s event = some s') (still : watching s' id = true)
    (gone : id ∉ s'.timers) : event = .fire id := by
  cases moves_of_step moved with
  | grows grows => exact (gone (grows.timers timer)).elim
  | connection now =>
    cases now with
    | true => exact (gone timer).elim
    | false => simp [watching] at still
  | @fire other _ =>
    by_cases same : other = id
    · rw [same]
    · rw [(fire_kept other).2.2.1] at gone
      exact (gone (by simp [timer, Ne.symm same])).elim
  | settle other failed => exact (gone ((grows_settle other failed).timers timer)).elim
  | close => simp [watching, ChRealtime.close] at still

theorem step_online (moved : ChRealtime.step s event = some s') :
    (s.closed = true → s'.closed = true) ∧ (s'.closed = true ∨
      s'.online = lastOnline ([.connection s.online] ++ (updateOf event).toList)) := by
  cases moves_of_step moved with
  | grows grows same =>
    rw [grows.closed, grows.online]
    exact ⟨id, same⟩
  | connection now => exact ⟨id, .inr rfl⟩
  | @fire other _ =>
    obtain ⟨online, closed, -⟩ := fire_kept (s := s) other
    rw [online, closed]
    exact ⟨id, .inr rfl⟩
  | settle other failed =>
    have grows := grows_settle (s := s) other failed
    rw [grows.closed, grows.online]
    exact ⟨id, .inr rfl⟩
  | close => exact ⟨fun _ => rfl, .inl rfl⟩

end Steps

variable {n : Nat}

section Traces

/-- The updates among the first events. -/
def received (events : Nat → ChRealtime.Event) (n : Nat) : List HostClientUpdate :=
  (List.range n).filterMap fun index => updateOf (events index)

abbrev Realtime := Trace ChRealtime.step ChRealtime.initial

variable (trace : Realtime)

/-- What it gets is what a subscriber of the client gets. -/
def Subscribed : Prop :=
  ∀ n, ∃ capacity events s, ClientChannel.Reaches capacity events s ∧ ∃ subscriber ∈ s.subscribers,
    received trace.events n <+: subscriber.updates

/-- A timer fires or is cleared in the end, and a read settles. -/
structure Fair : Prop where
  fires : ∀ n id, id ∈ (trace.states n).timers → ∃ m, n ≤ m ∧ id ∉ (trace.states m).timers
  settles : ∀ n id, id ∈ (trace.states n).running → ∃ m, n ≤ m ∧ id ∉ (trace.states m).running

/-- After the event a read of the Thread starts, unless the Thread is no longer watched, or the
connection drops, before. -/
def ReadAfter (n : Nat) (id : String) : Prop :=
  ∃ m, n < m ∧ (trace.events m = .fire id ∧ startsRead (trace.states m) (trace.states (m + 1)) id ∨
    watching (trace.states m) id = false)

variable {trace}

theorem received_succ (events : Nat → ChRealtime.Event) (n : Nat) :
    received events (n + 1) = received events n ++ (updateOf (events n)).toList := by
  simp only [received, range_succ, filterMap_append, filterMap_cons, filterMap_nil]
  cases updateOf (events n) <;> rfl

theorem Announced.of_prefix {updates all : List HostClientUpdate} (announced : Announced all)
    (part : updates <+: all) : Announced updates := by
  obtain ⟨rest, rfl⟩ := part
  intro before cursor reset after is
  refine announced before cursor reset (after ++ rest) ?_
  rw [is, append_assoc, cons_append]

theorem subscribed_announced (subscribed : Subscribed trace) (n : Nat) :
    Announced (received trace.events n) := by
  obtain ⟨capacity, events, s, reached, subscriber, member, part⟩ := subscribed n
  exact Announced.of_prefix (reaches_informed reached member).announced part

/-- Until `close` the connection is what the last update says. -/
theorem online_received (trace : Realtime) (n : Nat) : (trace.states n).closed = true ∨
      (trace.states n).online = lastOnline (received trace.events n) := by
  induction n with
  | zero =>
    rw [trace.begins]
    exact .inr rfl
  | succ n ih =>
    obtain ⟨stays, now⟩ := step_online (trace.moves n)
    rcases ih with closed | online
    · exact .inl (stays closed)
    · refine now.imp (fun closed => closed) fun is => ?_
      rw [is, received_succ, lastOnline_append, lastOnline_append, online]
      rfl

/-- A `hello` finds the connection online. -/
theorem hello_online (subscribed : Subscribed trace) {cursor : ClientChannelCursor}
    {reset : Bool} (is : trace.events n = .update (.event (.hello cursor reset)))
    (opened : (trace.states n).closed = false) : (trace.states n).online = true := by
  rcases online_received trace n with closed | online
  · simp [opened] at closed
  · rw [online]
    have announced := subscribed_announced subscribed (n + 1)
    rw [received_succ, is] at announced
    exact announced _ cursor reset [] rfl

theorem read_after (fair : Fair trace) {id : String} (calls : invalidates id (trace.events n) = true)
    (watches : watching (trace.states n) id = true) : ReadAfter trace n id := by
  by_contra never
  simp only [ReadAfter, not_exists, not_and, not_or, Bool.not_eq_false] at never
  have waits : ∀ m, n + 1 ≤ m → due (trace.states m) id := by
    intro m after
    have keeps : ∀ k, n + 1 ≤ k → due (trace.states k) id → False ∨ due (trace.states (k + 1)) id :=
      fun k later waits => (step_due waits (never k later).2 (trace.moves k)
        (never (k + 1) (by omega)).2).imp (fun ⟨fired, starts⟩ => (never k later).1 fired starts)
          (fun due => due)
    exact (goal_or_pending (invalidates_due calls watches (trace.moves n)) keeps after).resolve_left
      fun ⟨_, _, absurd⟩ => absurd
  -- a timer would fire, and start the read
  have untimed : ∀ m, n + 1 ≤ m → id ∉ (trace.states m).timers := by
    intro m after timer
    obtain ⟨last, later, goes, gone⟩ := last_step timer (fair.fires m id timer)
    have watched := (never (last + 1) (by omega)).2
    have fired := step_timers goes (trace.moves last) watched gone
    refine (never last (by omega)).1 fired ?_
    have moved := trace.moves last
    simp only [fired, ChRealtime.step, goes, if_true, some.injEq] at moved
    exact moved ▸ fire_starts (never last (by omega)).2
  have running : ∀ m, n + 1 ≤ m → id ∈ (trace.states m).running := fun m after =>
    ((waits m after).resolve_left (untimed m after)).1
  obtain ⟨m, after, settled⟩ := fair.settles (n + 1) id (running (n + 1) (Nat.le_refl _))
  exact settled (running m after)

/-- Nothing is lost between a Host and the reads. Every subscriber of the client sees what the Host
publishes, in order and without a gap since its position. An invalidation of a watched Thread that
comes while the connection is online is followed by a read, and so is the next `hello`. -/
theorem no_lost_invalidation :
    (∀ capacity events s, ClientChannel.Reaches capacity events s → ∀ subscriber ∈ s.subscribers,
      Informed s subscriber) ∧
    ∀ trace : Realtime, Subscribed trace → Fair trace → ∀ n id,
      (trace.states n).closed = false → (trace.states n).watched.has id = true →
      invalidates id (trace.events n) = true →
      ((trace.states n).online = true ∨
        ∃ cursor reset, trace.events n = .update (.event (.hello cursor reset))) →
      due (trace.states (n + 1)) id ∧ ReadAfter trace n id := by
  refine ⟨fun capacity events s reached subscriber => reaches_informed reached,
    fun trace subscribed fair n id opened watched calls arrives => ?_⟩
  have online : (trace.states n).online = true := by
    rcases arrives with online | ⟨cursor, reset, is⟩
    · exact online
    · exact hello_online subscribed is opened
  have watches : watching (trace.states n) id = true := by
    simp only [watching, watched, online, opened, Bool.not_false, Bool.and_self]
  exact ⟨invalidates_due calls watches (trace.moves n), read_after fair calls watches⟩

end Traces

/-- A Host publishes one change to a client with one subscriber. -/
def published : List Event :=
  [.connect 0 0, .receive, .subscribe none, .change 0 (.changed "t" "item/completed"), .receive]

def change : ChangeEvent := ⟨⟨0, 1⟩, .changed "t" "item/completed"⟩

/-- The Thread is followed before the change comes, and read after it. -/
def begun : List ChRealtime.Event :=
  [.follow "t", .update (.connection true), .update (.event (.hello ⟨0, 0⟩ true)), .fire "t",
    .update (.event (.change change)), .settle "t" false, .fire "t", .settle "t" false, .fire "",
    .settle "" false]

/-- The state after the first events. -/
def stateAt (n : Nat) : ChRealtime :=
  (begun.take n).foldl (fun s event => (ChRealtime.step s event).getD s) .initial

theorem stateAt_end (past : 10 ≤ n) : stateAt n = stateAt 10 := by
  simp only [stateAt]
  rw [take_of_length_le past, take_of_length_le (Nat.le_refl 10)]

theorem begun_end (past : 10 ≤ n) : begun.getD n (.invalidate "") = .invalidate "" := by
  rw [getD_eq_getElem?_getD, getElem?_eq_none past]
  rfl

/-- Then nothing happens any more. -/
def sample : Realtime where
  states := stateAt
  events n := begun.getD n (.invalidate "")
  begins := rfl
  moves n := by
    by_cases before : n < 10
    · have all : ∀ n : Fin 10, ChRealtime.step (stateAt n) (begun.getD n (.invalidate "")) =
          some (stateAt (n + 1)) := by decide
      exact all ⟨n, before⟩
    · rw [begun_end (by omega), stateAt_end (by omega : 10 ≤ n), stateAt_end (by omega : 10 ≤ n + 1)]
      rfl

theorem received_end (more : Nat) : received sample.events (10 + more) = received sample.events 10 := by
  induction more with
  | zero => rfl
  | succ more ih =>
    have idle : sample.events (10 + more) = .invalidate "" := begun_end (Nat.le_add_right 10 more)
    rw [← Nat.add_assoc, received_succ, idle, ih]
    exact append_nil _

theorem no_lost_invalidation_sample : ReadAfter sample 4 "t" := by
  have fair : Fair sample := by
    have quiet : (stateAt 10).timers = [] ∧ (stateAt 10).running = [] := by decide
    refine ⟨fun n id _ => ⟨max n 10, Nat.le_max_left .., ?_⟩,
      fun n id _ => ⟨max n 10, Nat.le_max_left .., ?_⟩⟩
    · change id ∉ (stateAt (max n 10)).timers
      rw [stateAt_end (Nat.le_max_right ..), quiet.1]
      exact not_mem_nil
    · change id ∉ (stateAt (max n 10)).running
      rw [stateAt_end (Nat.le_max_right ..), quiet.2]
      exact not_mem_nil
  have subscribed : Subscribed sample := by
    intro n
    have ran : ∃ s, published.foldlM step (initial fun _ => 512) = some s ∧
        s.subscribers.map (·.updates) = [[.connection true, .event (.hello ⟨0, 0⟩ true), .event (.change change)]] := ⟨_, rfl, rfl⟩
    obtain ⟨s, reached, updates⟩ := ran
    have all : received sample.events n <+:
        [.connection true, .event (.hello ⟨0, 0⟩ true), .event (.change change)] := by
      by_cases before : n < 10
      · have first : ∀ n : Fin 10, received sample.events n <+:
            [.connection true, .event (.hello ⟨0, 0⟩ true), .event (.change change)] := by decide
        exact first ⟨n, before⟩
      · obtain ⟨more, rfl⟩ := Nat.exists_eq_add_of_le (Nat.le_of_not_lt before)
        rw [received_end]
        decide
    obtain ⟨subscriber, member, is⟩ : ∃ subscriber ∈ s.subscribers, subscriber.updates =
        [.connection true, .event (.hello ⟨0, 0⟩ true), .event (.change change)] := by
      have first : [.connection true, .event (.hello ⟨0, 0⟩ true), .event (.change change)] ∈
          s.subscribers.map (·.updates) := by
        rw [updates]
        exact mem_singleton_self _
      exact mem_map.mp first
    exact ⟨_, _, s, Run.of_foldlM reached, subscriber, member, is ▸ all⟩
  exact (no_lost_invalidation.2 sample subscribed fair 4 "t" (by decide) (by decide) (by decide)
    (.inl (by decide))).2

end CodexHost.Guarantees.Invalidations
