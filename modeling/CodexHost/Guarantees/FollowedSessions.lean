import CodexHost.Source.SessionRuntime.FollowedLog

/-!
# What a follower of a Session knows

The snapshot of a sink and the frames after it make up the journal from the first event that the sink
got, and the assistant stream as the log has it, after every call.
-/
namespace CodexHost.Guarantees.FollowedSessions
open Source.SharedContracts Source.SessionRuntime.Followed List Option

section Numbered
variable {α : Type}

/-- The events have consecutive numbers from this one on. -/
def Numbered (first : Int) : List (WireEvent α) → Prop
  | [] => True
  | event :: events => event.seq = first ∧ Numbered (first + 1) events

theorem numbered_append {first : Int} {front back : List (WireEvent α)} : Numbered first (front ++ back) ↔
      Numbered first front ∧ Numbered (first + front.length) back := by
  induction front generalizing first with
  | nil => simp [Numbered]
  | cons event front ih =>
    have shift : first + 1 + (front.length : Int) = first + ((event :: front).length : Nat) := by
      rw [length_cons]
      omega
    rw [cons_append, Numbered, ih, Numbered, shift, and_assoc]

theorem numbered_drop {first : Int} {events : List (WireEvent α)} (numbered : Numbered first events)
    (count : Nat) (within : count ≤ events.length) : Numbered (first + count) (events.drop count) := by
  have parts := numbered
  rw [← take_append_drop count events, numbered_append, length_take, min_eq_left within] at parts
  exact parts.2

theorem numbered_renumber {first : Int} {events : List (WireEvent α)} (numbered : Numbered first events)
    (shift : Int) : Numbered (first + shift) (events.map (SessionLog.renumber shift)) := by
  induction events generalizing first with
  | nil => trivial
  | cons event events ih =>
    refine ⟨?_, ?_⟩
    · rw [← numbered.1]
      rfl
    · have later := ih numbered.2
      rwa [Int.add_right_comm] at later

/-- The events with a number from this one on. -/
def eventsFrom (first : Int) (events : List (WireEvent α)) : List (WireEvent α) :=
  events.filter (first ≤ ·.seq)

theorem eventsFrom_later {first start : Int} {events : List (WireEvent α)}
    (numbered : Numbered start events) (after : start + events.length ≤ first) :
    eventsFrom first events = [] := by
  induction events generalizing start with
  | nil => rfl
  | cons event events ih =>
    rw [length_cons] at after
    have rest := ih numbered.2 (by omega)
    have seq := numbered.1
    rw [eventsFrom, filter_cons_of_neg (by rw [decide_eq_true_eq]; omega)]
    exact rest

theorem eventsFrom_earlier {first start : Int} {events : List (WireEvent α)}
    (numbered : Numbered start events) (before : first ≤ start) : eventsFrom first events = events := by
  induction events generalizing start with
  | nil => rfl
  | cons event events ih =>
    have rest := ih numbered.2 (by omega)
    have seq := numbered.1
    rw [eventsFrom, filter_cons_of_pos (by rw [decide_eq_true_eq]; omega)]
    exact congrArg _ rest

/-- In a numbered list these are the events from an index on. -/
theorem eventsFrom_drop {start : Int} {events : List (WireEvent α)} (numbered : Numbered start events)
    (count : Nat) (within : count ≤ events.length) :
    eventsFrom (start + count) events = events.drop count := by
  have parts := numbered
  rw [← take_append_drop count events, numbered_append, length_take, min_eq_left within] at parts
  have taken : ((events.take count).length : Int) = count := by
    rw [length_take, min_eq_left within]
  have front : eventsFrom (start + count) (events.take count) = [] :=
    eventsFrom_later parts.1 (by omega)
  have back : eventsFrom (start + count) (events.drop count) = events.drop count :=
    eventsFrom_earlier parts.2 (Int.le_refl _)
  rw [eventsFrom] at front back ⊢
  conv_lhs => rw [← take_append_drop count events, filter_append, front, back]
  rfl

end Numbered

section Window
variable {α : Type}

theorem turnStart_lt {events : List (WireEvent α)} {index : Nat}
    (is : SessionLog.turnStart events = some index) : index < events.length := by
  induction events with
  | nil => cases is
  | cons event earlier ih =>
    rw [SessionLog.turnStart] at is
    split at is
    · cases is
      simp
    · have inside := ih is
      simp
      omega

theorem windowStart_le (maxMessages minMessages minTurns : Bound) (events : List (WireEvent α))
    (messages turns : Nat) :
    SessionLog.windowStart maxMessages minMessages minTurns events messages turns ≤ events.length := by
  induction events generalizing messages turns with
  | nil => exact le_rfl
  | cons event earlier ih =>
    rw [SessionLog.windowStart]
    generalize (if event.type = "turn/start" then turns + 1 else turns) = turns
    generalize (if (event.type = "user/message" ∨ event.type = "assistant/message") ∧
      event.surfaceOp = some "append" then messages + 1 else messages) = messages
    split
    · simp
    · split
      · cases is : SessionLog.turnStart (event :: earlier) with
        | none => simp
        | some index => exact (turnStart_lt is).le
      · exact (ih _ _).trans (by simp)

end Window

section Log
variable {α γ π : Type}

/-- The events of the log are numbered from its first number on, and no sink follows it twice. -/
structure Sound (log : SessionLog α γ π) : Prop where
  numbered : Numbered log.sequenceStart log.events
  once : log.followers.Nodup

theorem resumeCursor_bounds {log : SessionLog α γ π} {request : FollowRequest} {cursor : Int}
    (is : log.resumeCursor request = some cursor) :
    log.firstSeq - 1 ≤ cursor ∧ cursor ≤ log.lastSeq := by
  simp only [SessionLog.resumeCursor, bind_eq_bind, bind_eq_some_iff] at is
  obtain ⟨resume, -, asked, -, is⟩ := is
  split at is
  · next valid =>
    cases is
    exact valid.2.2
  · cases is

theorem snapshotStart_le (log : SessionLog α γ π) (request : FollowRequest) :
    log.snapshotStart request ≤ log.events.length := by
  unfold SessionLog.snapshotStart
  split
  · next cursor is =>
    have bounds := resumeCursor_bounds is
    simp only [SessionLog.firstSeq, SessionLog.lastSeq] at bounds ⊢
    omega
  · refine (windowStart_le _ _ _ _ _ _).trans ?_
    simp

/-- The frames for one sink. -/
def framesTo (sink : Nat) (pushed : List (Nat × Frame α γ π)) : List (Frame α γ π) :=
  pushed.filterMap fun push => if push.1 = sink then some push.2 else none

theorem framesTo_append (sink : Nat) (front back : List (Nat × Frame α γ π)) :
    framesTo sink (front ++ back) = framesTo sink front ++ framesTo sink back :=
  filterMap_append

theorem framesTo_push {log : SessionLog α γ π} {sink : Nat} (once : log.followers.Nodup)
    (follows : sink ∈ log.followers) (frame : Frame α γ π) :
    framesTo sink (log.push frame) = [frame] := by
  unfold SessionLog.push
  generalize log.followers = followers at once follows
  induction followers with
  | nil => cases follows
  | cons other followers ih =>
    obtain ⟨fresh, once⟩ := nodup_cons.mp once
    rw [map_cons, framesTo, filterMap_cons]
    by_cases same : other = sink
    · subst same
      have none : framesTo other (followers.map (·, frame)) = [] := by
        rw [framesTo, filterMap_eq_nil_iff]
        intro push member
        obtain ⟨sink, inside, rfl⟩ := mem_map.mp member
        have apart : ¬sink = other := fun same => fresh (same ▸ inside)
        rw [if_neg apart]
      rw [framesTo] at none
      simp [none]
    · have later := ih once ((mem_cons.mp follows).resolve_left (Ne.symm same))
      rw [framesTo] at later
      simp [same, later]

end Log

/-- What a follower makes of its frames: the journal from a number on, and the assistant stream if it
asked for that. -/
structure Replica (α γ : Type) where
  first : Int
  records : List (WireEvent α)
  assistantStream : Option (StreamBaseline γ)

section Replica
variable {α γ π : Type}

/-- The number after the last event. -/
def Replica.next (replica : Replica α γ) : Int := replica.first + replica.records.length

/-- The number that the records of the snapshot start with. -/
def opening (snapshot : Snapshot α γ π) : Int :=
  match snapshot.resumedAfter with
  | some cursor => cursor + 1
  | none => (snapshot.records.head?.map (·.seq)).getD (snapshot.cursor + 1)

/-- A snapshot replaces what the follower had. -/
def receive (replica : Option (Replica α γ)) : Frame α γ π → Option (Replica α γ)
  | .snapshot snapshot => some ⟨opening snapshot, snapshot.records, snapshot.assistantStream⟩
  | .event event => replica.map fun replica => { replica with records := replica.records ++ [event] }
  | .assistantStream frame => replica.map fun replica => { replica with
      assistantStream := replica.assistantStream.map (·.fold (replica.next - 1) frame) }

/-- What a sink makes of all that is pushed. -/
def replicaOf (sink : Nat) (pushed : List (Nat × Frame α γ π)) : Option (Replica α γ) :=
  (framesTo sink pushed).foldl receive none

/-- The log as a follower should know it. -/
def view (log : SessionLog α γ π) (first : Int) (asked : Bool) : Replica α γ :=
  ⟨first, eventsFrom first log.events, if asked then some ⟨log.revision, log.attempt⟩ else none⟩

/-- A number with which a follower can start. -/
def Start (log : SessionLog α γ π) (first : Int) : Prop :=
  log.firstSeq ≤ first ∧ first ≤ log.lastSeq + 1

theorem view_records {log : SessionLog α γ π} (sound : Sound log) {first : Int}
    (start : Start log first) (asked : Bool) :
    Numbered first (view log first asked).records ∧ (view log first asked).next = log.lastSeq + 1 := by
  obtain ⟨lower, upper⟩ := start
  simp only [SessionLog.firstSeq, SessionLog.lastSeq] at lower upper ⊢
  have is : first = log.sequenceStart + (first - log.sequenceStart).toNat := by omega
  have within : (first - log.sequenceStart).toNat ≤ log.events.length := by omega
  generalize (first - log.sequenceStart).toNat = count at is within
  subst is
  simp only [view, Replica.next, eventsFrom_drop sound.numbered count within]
  refine ⟨numbered_drop sound.numbered count within, ?_⟩
  rw [length_drop]
  omega

/-- A page that is prepended is numbered consecutively. -/
def IsPage : SessionLog.Call α γ → Prop
  | .prepend events => ∃ first, Numbered first events
  | _ => True

/-- The sink closes, or follows again. -/
def Leaves (sink : Nat) : SessionLog.Call α γ → Prop
  | .follow other _ _ => other = sink
  | .close other => other = sink
  | _ => False

theorem sound_prepend {log : SessionLog α γ π} (sound : Sound log) {events : List (WireEvent α)}
    {number : Int} (page : Numbered number events) {log' : SessionLog α γ π}
    (is : log.prepend events = .ok log') :
    Sound log' ∧ log'.followers = log.followers ∧ log'.revision = log.revision ∧
      log'.attempt = log.attempt ∧ log'.lastSeq = log.lastSeq ∧ log'.firstSeq ≤ log.firstSeq ∧
      ∃ older, log'.events = older ++ log.events ∧ Numbered log'.firstSeq older ∧
        log'.firstSeq + older.length = log.firstSeq := by
  unfold SessionLog.prepend at is
  split at is
  · cases is
    refine ⟨sound, rfl, rfl, rfl, rfl, Int.le_refl _, [], rfl, trivial, by simp⟩
  · next first events =>
    dsimp only at is
    split at is
    · cases is
    · cases is
      generalize older : (first :: events).map (SessionLog.renumber _) = pages
      have size : pages.length = (first :: events).length := by rw [← older, length_map]
      have numbered : Numbered (log.sequenceStart - (first :: events).length) pages := by
        have shifted := numbered_renumber page (log.sequenceStart - (first :: events).length - first.seq)
        have start : number + (log.sequenceStart - (first :: events).length - first.seq) =
            log.sequenceStart - (first :: events).length := by
          have seq := page.1
          omega
        rwa [start, older] at shifted
      have joins : log.sequenceStart - ((first :: events).length : Int) + pages.length =
          log.sequenceStart := by
        omega
      refine ⟨⟨?_, sound.once⟩, rfl, rfl, rfl, ?_, ?_, pages, rfl, numbered, joins⟩
      · exact numbered_append.mpr ⟨numbered, joins.symm ▸ sound.numbered⟩
      · simp only [SessionLog.lastSeq, length_append]
        omega
      · simp only [SessionLog.firstSeq]
        omega

/-- What a call does to a follower that stays. -/
structure Kept (log log' : SessionLog α γ π) (sink : Nat) (first : Int) (asked : Bool)
    (pushed : List (Nat × Frame α γ π)) : Prop where
  follows : sink ∈ log'.followers
  start : Start log' first
  view : (framesTo sink pushed).foldl receive (some (view log first asked)) =
    some (FollowedSessions.view log' first asked)

theorem sound_append {log : SessionLog α γ π} (sound : Sound log) (type : String) (data : α)
    (surfaceOp : Option String) (sources : Option (List Int)) (ignorable : Bool) (time : Int) :
    Sound (log.append type data surfaceOp sources ignorable time).1 := by
  refine ⟨?_, sound.once⟩
  exact numbered_append.mpr ⟨sound.numbered, rfl, trivial⟩

/-- The log stays sound. -/
theorem sound_call {log : SessionLog α γ π} (sound : Sound log) {call : SessionLog.Call α γ}
    (page : IsPage call) : Sound (log.call call).1 := by
  cases call with
  | prepend events =>
    obtain ⟨number, numbered⟩ := page
    cases is : log.prepend events with
    | error error => simpa only [SessionLog.call, is] using sound
    | ok log' => simpa only [SessionLog.call, is] using (sound_prepend sound numbered is).1
  | append type data surfaceOp sources ignorable time =>
    exact sound_append sound type data surfaceOp sources ignorable time
  | startAttempt turn step => exact ⟨sound.numbered, sound.once⟩
  | chunk chunk time =>
    cases is : log.attempt <;> simpa [SessionLog.call, SessionLog.chunk, is] using
      ⟨sound.numbered, sound.once⟩
  | endAttempt committed =>
    cases is : log.attempt <;> simpa [SessionLog.call, SessionLog.endAttempt, is] using
      ⟨sound.numbered, sound.once⟩
  | follow sink request hasEarlier =>
    refine ⟨sound.numbered, ?_⟩
    simp only [SessionLog.call, SessionLog.follow]
    split
    · exact sound.once
    · next fresh => exact nodup_append.mpr ⟨sound.once, by simp, by
        intro a inside b only same
        rw [mem_singleton] at only
        exact fresh (only ▸ same ▸ inside)⟩
  | close sink => exact ⟨sound.numbered, sound.once.filter _⟩

section Kept
variable {log : SessionLog α γ π} {sink : Nat} {first : Int} {asked : Bool}

variable (sound : Sound log)
include sound

variable (follows : sink ∈ log.followers)
include follows

variable (start : Start log first)
include start

theorem kept_prepend
    {events : List (WireEvent α)} (page : IsPage (.prepend events : SessionLog.Call α γ)) :
    Kept log (log.call (.prepend events)).1 sink first asked (log.call (.prepend events)).2 := by
  obtain ⟨number, numbered⟩ := page
  cases is : log.prepend events with
  | error error =>
    simp only [SessionLog.call, is]
    exact ⟨follows, start, rfl⟩
  | ok log' =>
    simp only [SessionLog.call, is]
    obtain ⟨-, sinks, revision, attempt, last, earlier, older, isEvents, page, joins⟩ :=
      sound_prepend sound numbered is
    refine ⟨sinks ▸ follows, ⟨Int.le_trans earlier start.1, last ▸ start.2⟩, ?_⟩
    have hidden : eventsFrom first older = [] := eventsFrom_later page (joins ▸ start.1)
    have same : eventsFrom first log'.events = eventsFrom first log.events := by
      rw [eventsFrom] at hidden ⊢
      rw [isEvents, filter_append, hidden]
      rfl
    simp only [view, same, revision, attempt]
    rfl

theorem kept_append
    (type : String) (data : α) (surfaceOp : Option String) (sources : Option (List Int))
    (ignorable : Bool) (time : Int) :
    Kept log (log.append type data surfaceOp sources ignorable time).1 sink first asked
      (log.append type data surfaceOp sources ignorable time).2 := by
  have upper := start.2
  simp only [SessionLog.lastSeq] at upper
  refine ⟨follows, ⟨start.1, ?_⟩, ?_⟩
  · simp only [SessionLog.append, SessionLog.lastSeq, length_append, length_singleton]
    omega
  · simp only [SessionLog.append, framesTo_push sound.once follows, foldl_cons, foldl_nil,
      receive, map_some, view, eventsFrom, filter_append]
    rw [filter_cons_of_pos (by rw [decide_eq_true_eq]; dsimp only; omega)]
    rfl

theorem kept_startAttempt (turn step : Int) :
    Kept log (log.startAttempt turn step).1 sink first asked (log.startAttempt turn step).2 := by
  have next := (view_records sound start asked).2
  refine ⟨follows, start, ?_⟩
  simp only [SessionLog.startAttempt, framesTo_push sound.once follows, foldl_cons,
    foldl_nil, receive, map_some, next]
  cases asked with
  | false => rfl
  | true =>
    have known : log.revision + 1 = (if log.revision + 1 = 1 then 0 else log.revision) + 1 := by
      split <;> omega
    simp only [view, if_true, map_some, StreamBaseline.fold, if_pos known, Int.add_sub_cancel]

theorem kept_chunk
    (chunk : γ) (time : Int) :
    Kept log (log.chunk chunk time).1 sink first asked (log.chunk chunk time).2 := by
  cases is : log.attempt with
  | none =>
    simp only [SessionLog.chunk, is]
    exact ⟨follows, start, rfl⟩
  | some attempt =>
    simp only [SessionLog.chunk, is]
    refine ⟨follows, start, ?_⟩
    simp only [framesTo_push sound.once follows, foldl_cons, foldl_nil, receive, map_some]
    cases asked with
    | false => rfl
    | true => simp [view, is, StreamBaseline.fold]

theorem kept_endAttempt
    (committed : Option (WireEvent α)) :
    Kept log (log.endAttempt committed).1 sink first asked (log.endAttempt committed).2 := by
  cases is : log.attempt with
  | none =>
    simp only [SessionLog.endAttempt, is]
    exact ⟨follows, start, rfl⟩
  | some attempt =>
    simp only [SessionLog.endAttempt, is]
    refine ⟨follows, start, ?_⟩
    simp only [framesTo_push sound.once follows, foldl_cons, foldl_nil, receive, map_some]
    cases asked <;> rfl

/-- A call by others leaves the follower with what the log is after it. -/
theorem kept_call
    {call : SessionLog.Call α γ} (page : IsPage call) (stays : ¬Leaves sink call) :
    Kept log (log.call call).1 sink first asked (log.call call).2 := by
  cases call with
  | prepend events => exact kept_prepend sound follows start page
  | append type data surfaceOp sources ignorable time =>
    exact kept_append sound follows start type data surfaceOp sources ignorable time
  | startAttempt turn step => exact kept_startAttempt sound follows start turn step
  | chunk chunk time => exact kept_chunk sound follows start chunk time
  | endAttempt committed => exact kept_endAttempt sound follows start committed
  | follow other request hasEarlier =>
    have apart : ¬other = sink := stays
    refine ⟨?_, start, ?_⟩
    · simp only [SessionLog.call, SessionLog.follow]
      split
      · exact follows
      · exact mem_append_left _ follows
    · simp only [SessionLog.call, SessionLog.follow, framesTo, filterMap_cons, if_neg apart]
      rfl
  | close other =>
    have apart : ¬sink = other := fun same => stays same.symm
    refine ⟨?_, start, rfl⟩
    exact mem_filter.mpr ⟨follows, by simpa using apart⟩

end Kept

theorem sound_run {log : SessionLog α γ π} (sound : Sound log) {calls : List (SessionLog.Call α γ)}
    (pages : ∀ call ∈ calls, IsPage call) : Sound (log.run calls).1 := by
  induction calls generalizing log with
  | nil => exact sound
  | cons call calls ih =>
    obtain ⟨page, pages⟩ := forall_mem_cons.mp pages
    exact ih (sound_call sound page) pages

/-- The follower has what the log is, over a whole run. -/
theorem kept_run {log : SessionLog α γ π} {sink : Nat} {first : Int} {asked : Bool} (sound : Sound log)
    (follows : sink ∈ log.followers) (start : Start log first) {calls : List (SessionLog.Call α γ)}
    (pages : ∀ call ∈ calls, IsPage call) (stays : ∀ call ∈ calls, ¬Leaves sink call) :
    Kept log (log.run calls).1 sink first asked (log.run calls).2 := by
  induction calls generalizing log with
  | nil => exact ⟨follows, start, rfl⟩
  | cons call calls ih =>
    obtain ⟨page, pages⟩ := forall_mem_cons.mp pages
    obtain ⟨stay, stays⟩ := forall_mem_cons.mp stays
    have one : Kept log (log.call call).1 sink first asked (log.call call).2 :=
      kept_call sound follows start page stay
    have rest := ih (sound_call sound page) one.follows one.start pages stays
    refine ⟨rest.follows, rest.start, ?_⟩
    simp only [SessionLog.run]
    rw [framesTo_append, foldl_append, one.view]
    exact rest.view

/-- The calls keep the epoch, and the numbers grow at both ends only. -/
structure Grown (log log' : SessionLog α γ π) : Prop where
  epoch : log'.epoch = log.epoch
  first : log'.firstSeq ≤ log.firstSeq
  last : log.lastSeq ≤ log'.lastSeq

theorem grown_call {log : SessionLog α γ π} (sound : Sound log) {call : SessionLog.Call α γ}
    (page : IsPage call) : Grown log (log.call call).1 := by
  have same : Grown log log := ⟨rfl, Int.le_refl _, Int.le_refl _⟩
  cases call with
  | prepend events =>
    obtain ⟨number, numbered⟩ := page
    cases is : log.prepend events with
    | error error => simpa only [SessionLog.call, is] using same
    | ok log' =>
      obtain ⟨-, -, -, -, last, earlier, -⟩ := sound_prepend sound numbered is
      have epoch : log'.epoch = log.epoch := by
        unfold SessionLog.prepend at is
        split at is
        · cases is
          rfl
        · dsimp only at is
          split at is
          · cases is
          · cases is
            rfl
      simp only [SessionLog.call, is]
      exact ⟨epoch, earlier, Int.le_of_eq last.symm⟩
  | append type data surfaceOp sources ignorable time =>
    refine ⟨rfl, Int.le_refl _, ?_⟩
    simp only [SessionLog.call, SessionLog.append, SessionLog.lastSeq, length_append, length_singleton]
    omega
  | chunk chunk time =>
    cases is : log.attempt <;> simpa [SessionLog.call, SessionLog.chunk, is] using
      ⟨same.epoch, same.first, same.last⟩
  | endAttempt committed =>
    cases is : log.attempt <;> simpa [SessionLog.call, SessionLog.endAttempt, is] using
      ⟨same.epoch, same.first, same.last⟩
  | _ => exact ⟨rfl, Int.le_refl _, Int.le_refl _⟩

theorem grown_run {log : SessionLog α γ π} (sound : Sound log) {calls : List (SessionLog.Call α γ)}
    (pages : ∀ call ∈ calls, IsPage call) : Grown log (log.run calls).1 := by
  induction calls generalizing log with
  | nil => exact ⟨rfl, Int.le_refl _, Int.le_refl _⟩
  | cons call calls ih =>
    obtain ⟨page, pages⟩ := forall_mem_cons.mp pages
    have one := grown_call sound page
    have rest := ih (sound_call sound page) pages
    exact ⟨rest.epoch.trans one.epoch, Int.le_trans rest.first one.first, Int.le_trans one.last rest.last⟩

theorem run_append (log : SessionLog α γ π) (before after : List (SessionLog.Call α γ)) :
    (log.run (before ++ after)).1 = ((log.run before).1.run after).1 := by
  induction before generalizing log with
  | nil => rfl
  | cons call before ih => exact ih _

theorem lastSeq_ge {log : SessionLog α γ π} : log.firstSeq - 1 ≤ log.lastSeq := by
  simp only [SessionLog.firstSeq, SessionLog.lastSeq]
  omega

/-- The number that a follower of the request starts with. -/
def joinsAt (log : SessionLog α γ π) (request : FollowRequest) : Int :=
  log.firstSeq + log.snapshotStart request

theorem joinsAt_start (log : SessionLog α γ π) (request : FollowRequest) :
    Start log (joinsAt log request) := by
  have within := snapshotStart_le log request
  simp only [Start, joinsAt, SessionLog.firstSeq, SessionLog.lastSeq]
  omega

theorem joinsAt_resumed {log : SessionLog α γ π} {request : FollowRequest} {cursor : Int}
    (is : log.resumeCursor request = some cursor) : joinsAt log request = cursor + 1 := by
  have bounds := resumeCursor_bounds is
  simp only [joinsAt, SessionLog.snapshotStart, is]
  omega

/-- The snapshot is the log from there on. -/
theorem follow_joins {log : SessionLog α γ π} (sound : Sound log) (sink : Nat)
    (request : FollowRequest) (hasEarlier : Bool) :
    Sound (log.follow sink request hasEarlier).1 ∧
    sink ∈ (log.follow sink request hasEarlier).1.followers ∧
    replicaOf sink (log.follow sink request hasEarlier).2 =
      some (view (log.follow sink request hasEarlier).1 (joinsAt log request) request.assistantStream) := by
  have joins : IsPage (.follow sink request hasEarlier : SessionLog.Call α γ) := trivial
  refine ⟨sound_call sound joins, ?_, ?_⟩
  · simp only [SessionLog.follow]
    split
    · next follows => exact follows
    · exact mem_append_right _ mem_cons_self
  · have within := snapshotStart_le log request
    have records := eventsFrom_drop sound.numbered _ within
    have rest := numbered_drop sound.numbered _ within
    simp only [SessionLog.follow, replicaOf, framesTo, filterMap_cons, if_true, filterMap_nil,
      foldl_cons, foldl_nil, receive, view, some.injEq, Replica.mk.injEq]
    refine ⟨?_, records.symm, trivial⟩
    cases is : log.resumeCursor request with
    | some cursor => simp only [opening, joinsAt_resumed is]
    | none =>
      cases shown : log.events.drop (log.snapshotStart request) with
      | nil =>
        have all := drop_eq_nil_iff.mp shown
        simp only [opening, joinsAt, SessionLog.firstSeq, SessionLog.lastSeq, head?_nil, map_none, getD_none]
        omega
      | cons event events =>
        rw [shown] at rest
        exact rest.1

end Replica

/-- The snapshot of a follower and the frames after it are, after any calls, the journal from the start
of its window or from its cursor, with consecutive numbers up to the last one, and the assistant stream
of the log. A cursor that the log once had resumes. -/
theorem follow_reproduces {α γ π : Type} {header : SessionHeader} {stored : List (WireEvent α)}
    {projections : π} {epoch : String} {sequenceStart : Int} (numbered : Numbered sequenceStart stored)
    (before after : List (SessionLog.Call α γ)) (pages : ∀ call ∈ before ++ after, IsPage call)
    (sink : Nat) (request : FollowRequest) (hasEarlier : Bool)
    (stays : ∀ call ∈ after, ¬Leaves sink call) :
    let new : SessionLog α γ π := .new header stored projections epoch sequenceStart
    let log := (new.run before).1
    let joined := log.follow sink request hasEarlier
    let later := (joined.1.run after).1
    ∃ replica, replicaOf sink (joined.2 ++ (joined.1.run after).2) = some replica ∧
      replica.records = later.events.filter (replica.first ≤ ·.seq) ∧
      Numbered replica.first replica.records ∧ replica.next = later.lastSeq + 1 ∧
      replica.assistantStream =
        (if request.assistantStream then some ⟨later.revision, later.attempt⟩ else none) ∧
      (log.resumeCursor request = none →
        replica.first = log.firstSeq + log.window log.events.length request.window) ∧
      (∀ cursor, log.resumeCursor request = some cursor → replica.first = cursor + 1) ∧
      ∀ earlier others, before = earlier ++ others →
        ∀ cursor, cursor = (new.run earlier).1.lastSeq → cursor.natAbs ≤ maxSafeInteger →
          request.resume = some ⟨epoch, cursor⟩ → log.resumeCursor request = some cursor := by
  intro new log joined later
  obtain ⟨pagesBefore, pagesAfter⟩ := forall_mem_append.mp pages
  have fresh : Sound new := ⟨numbered, nodup_nil⟩
  have sound : Sound log := sound_run fresh pagesBefore
  obtain ⟨soundJoined, follows, opens⟩ := follow_joins sound sink request hasEarlier
  have start : Start joined.1 (joinsAt log request) :=
    joinsAt_start log request
  have kept : Kept _ _ sink _ request.assistantStream _ :=
    kept_run soundJoined follows start pagesAfter stays
  have soundLater := sound_run soundJoined pagesAfter
  have records := view_records soundLater kept.start request.assistantStream
  refine ⟨view later (joinsAt log request) request.assistantStream, ?_, rfl, records.1, records.2, rfl,
    ?_, ?_, ?_⟩
  · rw [replicaOf, framesTo_append, foldl_append, ← replicaOf, opens]
    exact kept.view
  · intro fresh
    simp only [view, joinsAt, SessionLog.snapshotStart, fresh]
  · intro cursor resumed
    exact joinsAt_resumed resumed
  · rintro earlier others split cursor rfl safe asks
    have pagesEarlier : ∀ call ∈ earlier, IsPage call := fun call member =>
      pagesBefore call (split ▸ mem_append_left _ member)
    have pagesOthers : ∀ call ∈ others, IsPage call := fun call member =>
      pagesBefore call (split ▸ mem_append_right _ member)
    have is : log = ((new.run earlier).1.run others).1 := by
      rw [← run_append, ← split]
    have toEarlier := grown_run fresh pagesEarlier
    have toLog := grown_run (sound_run fresh pagesEarlier) pagesOthers
    rw [← is] at toLog
    have bound : (new.run earlier).1.firstSeq - 1 ≤ (new.run earlier).1.lastSeq := lastSeq_ge
    have lower := toLog.first
    have same : epoch = log.epoch := (toLog.epoch.trans toEarlier.epoch).symm
    simp only [SessionLog.resumeCursor, asks, bind_eq_bind, bind_some]
    exact if_pos ⟨same, safe, by omega, toLog.last⟩

section Sample
open SessionLog (Call)

def sampleHeader : SessionHeader := ⟨"session", 0, none, none⟩

def sampleBefore : List (Call Unit Unit) := [.append "turn/start" () none none false 0, .startAttempt 0 0]

def sampleAfter : List (Call Unit Unit) := [.chunk () 0, .append "turn/end" () none none false 0]

def sampleLog : SessionLog Unit Unit Unit := .new sampleHeader [] () "epoch" 0

def sampleRequest : FollowRequest := ⟨⟨none, none⟩, true, none⟩

theorem follow_reproduces_sample :
    let joined := (sampleLog.run sampleBefore).1.follow 0 sampleRequest false
    ∃ replica, replicaOf 0 (joined.2 ++ (joined.1.run sampleAfter).2) = some replica ∧
      replica.next = 2 ∧ replica.assistantStream = some ⟨2, some ⟨"session:1", 0, 0, 0, 1, [(0, ())]⟩⟩ := by
  have pages : ∀ call ∈ sampleBefore ++ sampleAfter, IsPage call := by
    simp [sampleBefore, sampleAfter, IsPage]
  have stays : ∀ call ∈ sampleAfter, ¬Leaves 0 call := by
    simp [sampleAfter, Leaves]
  obtain ⟨replica, is, -, -, next, stream, -⟩ :=
    @follow_reproduces Unit Unit Unit sampleHeader [] () "epoch" 0 trivial sampleBefore sampleAfter pages 0
      sampleRequest false stays
  exact ⟨replica, is, next, stream⟩

end Sample

end CodexHost.Guarantees.FollowedSessions
