import CodexHost.Source.DesktopControl.HostClientChannel

/-!
# No event of a Host is lost on the way to a subscriber

The sequence of the cursor is a position in what the Host has published. A subscriber goes on
from its position, event by event, unless a `hello` with `reset` gives it a new one.
-/
namespace CodexHost.Guarantees.ClientChannel
open Foundation Source.HostRuntime Source.DesktopControl List Option ClientChannelEvents System

/-- The position from which the events count, and the events since. -/
def follow (position : Option ClientChannelCursor × List ChangeEvent) :
    HostClientUpdate → Option ClientChannelCursor × List ChangeEvent
  | .event (.hello cursor true) => (some cursor, [])
  | .event (.change event) => (position.1, position.2 ++ [event])
  | _ => position

def followed (subscriber : Subscriber) : Option ClientChannelCursor × List ChangeEvent :=
  subscriber.updates.foldl follow (subscriber.start, [])

/-- What the last update of the connection says. -/
def lastOnline (updates : List HostClientUpdate) : Bool :=
  updates.foldl (fun now update => match update with
    | .connection online => online
    | .event _ => now) false

/-- A `hello` comes only while the connection is online. -/
def Announced (updates : List HostClientUpdate) : Prop :=
  ∀ before cursor reset after, updates = before ++ .event (.hello cursor reset) :: after →
    lastOnline before = true

/-- What each Host has published. -/
def logs (s : System) (host : Nat) : List ChangeEvent := (s.hosts host).log

/-- What a subscriber is promised in every state: since its position it has seen what the Host has
published, in order and without a gap, and all of it when nothing is on the way. -/
structure Informed (s : System) (subscriber : Subscriber) : Prop where
  announced : Announced subscriber.updates
  joined : ∀ cursor, subscriber.start = some cursor → cursor.sequence ≤ subscriber.joined cursor.epoch
  faithful : ∀ cursor, (followed subscriber).1 = some cursor →
    (followed subscriber).2 <+: (logs s cursor.epoch).drop cursor.sequence
  unstarted : (followed subscriber).1 = none → (followed subscriber).2 = []
  complete : subscriber.listening = true → ∀ connection, s.connection = some connection →
    connection.attached = true → connection.frames = [] → ∃ cursor,
      (followed subscriber).1 = some cursor ∧ cursor.epoch = connection.host ∧
        (followed subscriber).2 = (logs s connection.host).drop cursor.sequence

/-- The events of a Host have consecutive numbers. -/
def Numbered (epoch : Nat) (log : List ChangeEvent) : Prop :=
  ∀ (index : Nat) event, log[index]? = some event → event.cursor = ⟨epoch, index + 1⟩

structure HostSound (host : Nat) (events : ClientChannelEvents) : Prop where
  epoch : events.epoch = host
  sequence : events.sequence = events.log.length
  numbered : Numbered host events.log
  history : events.history <:+ events.log

/-- The client has a position in what a Host has published, and has kept what is before it. -/
def Placed (log : Nat → List ChangeEvent) (cursor : Option ClientChannelCursor)
    (history : List ChangeEvent) : Prop :=
  ∀ position, cursor = some position → position.sequence ≤ (log position.epoch).length ∧
    history <:+ (log position.epoch).take position.sequence

/-- The frames on the way go on from the position of the client, or from the one that their
`hello` gives. -/
def Streams (log : Nat → List ChangeEvent) (cursor : Option ClientChannelCursor)
    (connection : Connection) : Prop :=
  ∃ (base : Nat) (tail : List ChangeEvent), base ≤ (log connection.host).length ∧
    tail <+: (log connection.host).drop base ∧
    (connection.attached = true → tail = (log connection.host).drop base) ∧
    (connection.frames = tail.map .change ∧ cursor = some ⟨connection.host, base⟩ ∨
      ∃ hello reset, connection.frames = .hello hello reset :: tail.map .change ∧
        hello.epoch = connection.host ∧
        if reset then hello.sequence = base else cursor = some ⟨connection.host, base⟩)

/-- What holds of a subscriber. -/
structure Follows (log : Nat → List ChangeEvent) (channel : HostClientChannel)
    (subscriber : Subscriber) : Prop where
  announced : Announced subscriber.updates
  online : subscriber.listening = true → lastOnline subscriber.updates = channel.online
  joined : ∀ cursor, subscriber.start = some cursor → cursor.sequence ≤ subscriber.joined cursor.epoch
  faithful : ∀ cursor, (followed subscriber).1 = some cursor →
    (followed subscriber).2 <+: (log cursor.epoch).drop cursor.sequence
  unstarted : (followed subscriber).1 = none → (followed subscriber).2 = []
  position : subscriber.listening = true → (followed subscriber).1.map (fun cursor =>
    ⟨cursor.epoch, cursor.sequence + (followed subscriber).2.length⟩) = channel.cursor

structure Sound (s : System) : Prop where
  hosts : ∀ host, HostSound host (s.hosts host)
  placed : Placed (logs s) s.channel.cursor s.channel.history
  streams : ∀ connection, s.connection = some connection → Streams (logs s) s.channel.cursor connection
  follows : ∀ subscriber ∈ s.subscribers, Follows (logs s) s.channel subscriber

section Histories
variable {epoch : Nat} {log history : List ChangeEvent}

theorem Numbered.take (numbered : Numbered epoch log) (count : Nat) : Numbered epoch (log.take count) := by
  intro index event is
  refine numbered index event ?_
  rw [getElem?_take] at is
  split at is
  · exact is
  · cases is

/-- The events after a position that the history reaches back to. -/
theorem filter_after (numbered : Numbered epoch log) (suffix : history <:+ log)
    {after : ClientChannelCursor} (reaches : replays ⟨epoch, log.length⟩ history after = true) :
    history.filter (after.sequence < ·.cursor.sequence) = log.drop after.sequence := by
  obtain ⟨start, is⟩ : ∃ start, history = log.drop start :=
    ⟨_, suffix_iff_eq_drop.mp suffix⟩
  simp only [replays, Bool.and_eq_true, decide_eq_true_eq] at reaches
  obtain ⟨⟨-, oldest⟩, newest⟩ := reaches
  have back : start ≤ after.sequence ∨ history = [] ∧ log.length ≤ after.sequence := by
    rw [is, head?_drop] at oldest
    cases first : log[start]? with
    | none =>
      rw [first] at oldest
      refine .inr ⟨?_, ?_⟩
      · rw [is, drop_eq_nil_iff]
        exact getElem?_eq_none_iff.mp first
      · simpa using oldest
    | some event =>
      rw [first] at oldest
      simp only [map_some, getD_some, numbered start event first] at oldest
      exact .inl (by omega)
  rcases back with back | ⟨rfl, past⟩
  · have split : history = (log.drop start).take (after.sequence - start) ++ log.drop after.sequence := by
      have parts := (take_append_drop (after.sequence - start) (log.drop start)).symm
      rw [drop_drop, Nat.add_sub_cancel' back] at parts
      exact is.trans parts
    have old : ((log.drop start).take (after.sequence - start)).filter
        (after.sequence < ·.cursor.sequence) = [] := by
      refine filter_eq_nil_iff.mpr fun event member => ?_
      obtain ⟨index, found⟩ := mem_iff_getElem?.mp member
      rw [getElem?_take] at found
      split at found
      · rw [getElem?_drop] at found
        rw [numbered _ event found]
        simp only [decide_eq_true_eq]
        omega
      · cases found
    have new : (log.drop after.sequence).filter (after.sequence < ·.cursor.sequence) =
        log.drop after.sequence := by
      refine filter_eq_self.mpr fun event member => ?_
      obtain ⟨index, found⟩ := mem_iff_getElem?.mp member
      rw [getElem?_drop] at found
      rw [numbered _ event found]
      simp only [decide_eq_true_eq]
      omega
    rw [split, filter_append, old, new, nil_append]
  · rw [drop_eq_nil_of_le past]
    rfl

theorem pushBounded_suffix (capacity : Nat) (suffix : history <:+ log) (event : ChangeEvent) :
    pushBounded capacity history event <:+ log ++ [event] := by
  have longer : history ++ [event] <:+ log ++ [event] := by
    obtain ⟨front, rfl⟩ := suffix
    exact ⟨front, by rw [append_assoc]⟩
  unfold pushBounded
  split
  · exact (drop_suffix 1 _).trans longer
  · exact longer

theorem HostSound.publish {host : Nat} {events : ClientChannelEvents} (sound : HostSound host events)
    (change : Change) : HostSound host (events.publish change) := by
  have next : events.next change = ⟨⟨host, events.log.length + 1⟩, change⟩ := by
    rw [ClientChannelEvents.next, sound.epoch, sound.sequence]
  refine ⟨sound.epoch, ?_, fun index event is => ?_, pushBounded_suffix _ sound.history _⟩
  · simp [ClientChannelEvents.publish, sound.sequence]
  · simp only [ClientChannelEvents.publish, next, getElem?_append, getElem?_singleton] at is
    split at is
    · exact sound.numbered index event is
    · split at is
      · cases is
        simp only [ClientChannelCursor.mk.injEq, true_and]
        omega
      · cases is

end Histories

variable {event : ChangeEvent}

section Subscribers
variable {log log' : Nat → List ChangeEvent} {channel channel' : HostClientChannel} {subscriber : Subscriber}

theorem publish_listening (listens : subscriber.listening = true) (updates : List HostClientUpdate) :
    subscriber.publish updates = { subscriber with updates := subscriber.updates ++ updates } :=
  if_pos listens

theorem publish_left (left : subscriber.listening = false) (updates : List HostClientUpdate) :
    subscriber.publish updates = subscriber := by
  simp [Subscriber.publish, left]

theorem lastOnline_append (before after : List HostClientUpdate) :
    lastOnline (before ++ after) = after.foldl (fun now update => match update with
      | .connection online => online
      | .event _ => now) (lastOnline before) := foldl_append

variable {updates : List HostClientUpdate}

theorem announced_snoc {update : HostClientUpdate} (announced : Announced updates)
    (fresh : ∀ cursor reset, update = .event (.hello cursor reset) → lastOnline updates = true) :
    Announced (updates ++ [update]) := by
  intro before cursor reset after is
  rcases eq_nil_or_concat after with rfl | ⟨rest, last, rfl⟩
  · obtain ⟨rfl, same⟩ := append_inj' is rfl
    exact fresh cursor reset (singleton_inj.mp same)
  · rw [concat_eq_append, ← cons_append, ← append_assoc] at is
    obtain ⟨same, -⟩ := append_inj' is rfl
    exact announced before cursor reset rest same

theorem announced_changes (announced : Announced updates) (events : List ChangeEvent) :
    Announced (updates ++ events.map fun event => .event (.change event)) := by
  induction events using List.reverseRecOn with
  | nil => simpa using announced
  | append_singleton events event ih =>
    rw [map_append, map_singleton, ← append_assoc]
    exact announced_snoc ih nofun

theorem lastOnline_changes (updates : List HostClientUpdate) (events : List ChangeEvent) :
    lastOnline (updates ++ events.map fun event => .event (.change event)) = lastOnline updates := by
  induction events using List.reverseRecOn with
  | nil => simp
  | append_singleton events event ih =>
    rw [map_append, map_singleton, ← append_assoc, lastOnline_append, ih]
    rfl

theorem follow_changes (position : Option ClientChannelCursor × List ChangeEvent)
    (events : List ChangeEvent) :
    (events.map fun event => HostClientUpdate.event (.change event)).foldl follow position =
      (position.1, position.2 ++ events) := by
  induction events generalizing position with
  | nil => simp
  | cons event rest ih =>
    rw [map_cons, foldl_cons, ih]
    simp [follow]

section
variable (follows : Follows log channel subscriber)
include follows

theorem Follows.grow
    (grows : ∀ host, log host <+: log' host) : Follows log' channel subscriber where
  announced := follows.announced
  online := follows.online
  joined := follows.joined
  faithful cursor is := by
    obtain ⟨more, same⟩ := grows cursor.epoch
    rw [← same]
    refine (follows.faithful cursor is).trans ?_
    rw [drop_append]
    exact prefix_append _ _
  unstarted := follows.unstarted
  position := follows.position

theorem Follows.left
    (left : subscriber.listening = false) : Follows log channel' subscriber where
  announced := follows.announced
  online listens := by simp [left] at listens
  joined := follows.joined
  faithful := follows.faithful
  unstarted := follows.unstarted
  position listens := by simp [left] at listens

theorem Follows.leave :
    Follows log channel' { subscriber with listening := false } where
  announced := follows.announced
  online := nofun
  joined := follows.joined
  faithful := follows.faithful
  unstarted := follows.unstarted
  position := nofun

end

/-- The events since the position have brought the client to its cursor. -/
def At (log : Nat → List ChangeEvent) (cursor : Option ClientChannelCursor)
    (position : Option ClientChannelCursor × List ChangeEvent) : Prop :=
  (∀ start, position.1 = some start → position.2 <+: (log start.epoch).drop start.sequence) ∧
    (position.1 = none → position.2 = []) ∧
    position.1.map (fun start => ⟨start.epoch, start.sequence + position.2.length⟩) = cursor

section
variable (follows : Follows log channel subscriber)
include follows

theorem Follows.update
    (announced : Announced subscriber.updates → lastOnline subscriber.updates = channel.online →
      Announced (subscriber.updates ++ updates) ∧
        lastOnline (subscriber.updates ++ updates) = channel'.online)
    (moves : ∀ position, At log channel.cursor position →
      At log channel'.cursor (updates.foldl follow position)) :
    Follows log channel' (subscriber.publish updates) := by
  cases listens : subscriber.listening with
  | false =>
    rw [publish_left listens]
    exact follows.left listens
  | true =>
    rw [publish_listening listens]
    obtain ⟨told, online⟩ := announced follows.announced (follows.online listens)
    obtain ⟨faithful, unstarted, position⟩ := moves (followed subscriber)
      ⟨follows.faithful, follows.unstarted, follows.position listens⟩
    have moved : followed { subscriber with updates := subscriber.updates ++ updates } =
        updates.foldl follow (followed subscriber) := foldl_append
    exact ⟨told, fun _ => online, follows.joined, moved ▸ faithful, moved ▸ unstarted,
      fun _ => moved ▸ position⟩

/-- The connection has ended. -/
theorem Follows.offline
    (cursor : channel'.cursor = channel.cursor) (online : channel'.online = false) :
    Follows log channel' (subscriber.publish [.connection false]) := by
  refine follows.update (fun announced _ => ⟨announced_snoc announced nofun, ?_⟩)
    fun position at' => cursor ▸ at'
  rw [lastOnline_append, online]
  rfl

theorem Follows.change {cursor : ClientChannelCursor} (was : channel.cursor = some cursor)
    (next : (log cursor.epoch)[cursor.sequence]? = some event)
    (now : channel'.cursor = some ⟨cursor.epoch, cursor.sequence + 1⟩)
    (online : channel'.online = channel.online) :
    Follows log channel' (subscriber.publish [.event (.change event)]) := by
  refine follows.update (fun announced told => ⟨announced_snoc announced nofun, ?_⟩)
    fun position at' => ?_
  · rw [lastOnline_append, online, ← told]
    rfl
  · obtain ⟨faithful, unstarted, here⟩ := at'
    rw [was, map_eq_some_iff] at here
    obtain ⟨start, is, rfl⟩ := here
    have seen := prefix_iff_eq_take.mp (faithful start is)
    refine ⟨fun other same => ?_, fun none => ?_, ?_⟩
    · cases is.symm.trans same
      have here : ((log start.epoch).drop start.sequence)[position.2.length]? = some event := by
        rw [getElem?_drop]
        exact next
      have longer : position.2 ++ [event] =
          ((log start.epoch).drop start.sequence).take (position.2.length + 1) := by
        rw [take_add_one, here, ← seen]
        rfl
      change position.2 ++ [event] <+: _
      rw [longer]
      exact take_prefix _ _
    · cases is.symm.trans none
    · rw [now]
      simp [follow, is, Nat.add_assoc]

/-- A `hello` of the Host: either the client goes on, or the position is a new one. -/
theorem Follows.hello {hello : ClientChannelCursor}
    {reset : Bool} (online : channel'.online = true)
    (now : channel'.cursor = if reset then some hello else channel.cursor) :
    Follows log channel' (subscriber.publish [.connection true, .event (.hello hello reset)]) := by
  refine follows.update (fun announced _ => ?_) fun position at' => ?_
  · rw [← singleton_append, ← append_assoc]
    have told : lastOnline (subscriber.updates ++ [.connection true]) = true := by
      rw [lastOnline_append]
      rfl
    refine ⟨announced_snoc (announced_snoc announced nofun) fun _ _ _ => told, ?_⟩
    rw [lastOnline_append, told, online]
    rfl
  · cases reset with
    | false => exact now ▸ at'
    | true =>
      refine ⟨fun start _ => nil_prefix, fun _ => rfl, ?_⟩
      rw [now]
      rfl

end

end Subscribers

section Steps
variable {s s' : System}

theorem initial_sound (capacity : Nat → Nat) : Sound (initial capacity) where
  hosts _ := ⟨rfl, rfl, nofun, nil_suffix⟩
  placed := nofun
  streams := nofun
  follows := nofun

/-- What a Host sends first goes on from the position of the client. -/
theorem subscribe_streams (sound : Sound s) (host epoch : Nat) : Streams (logs s) s.channel.cursor
      ⟨host, epoch, true, (s.hosts host).subscribe s.channel.cursor⟩ := by
  obtain ⟨same, length, numbered, suffix⟩ := sound.hosts host
  unfold Streams ClientChannelEvents.subscribe greeting
  rw [ClientChannelEvents.cursor, same, length]
  cases replay : s.channel.cursor.filter (replays ⟨host, (s.hosts host).log.length⟩
      (s.hosts host).history) with
  | none =>
    exact ⟨(s.hosts host).log.length, [], Nat.le_refl _, nil_prefix,
      fun _ => drop_length.symm,
      .inr ⟨⟨host, (s.hosts host).log.length⟩, true, rfl, rfl, rfl⟩⟩
  | some after =>
    obtain ⟨is, reaches⟩ := filter_eq_some_iff.mp replay
    have here : after.epoch = host ∧ after.sequence ≤ (s.hosts host).log.length := by
      simp only [replays, Bool.and_eq_true, decide_eq_true_eq] at reaches
      exact ⟨reaches.1.1, reaches.2⟩
    refine ⟨after.sequence, (s.hosts host).log.drop after.sequence, here.2, prefix_refl _,
      fun _ => rfl, .inr ⟨⟨host, (s.hosts host).log.length⟩, false, ?_, rfl, ?_⟩⟩
    · simp only [filter_after numbered suffix reaches]
    · rw [is, ← here.1]
      rfl

variable {connection : Connection}

theorem Streams.send {log log' : Nat → List ChangeEvent} {cursor : Option ClientChannelCursor} (streams : Streams log cursor connection) {host : Nat} (own : log' host = log host ++ [event])
    (others : ∀ other, other ≠ host → log' other = log other) :
    Streams log' cursor (if connection.host = host && connection.attached then
      { connection with frames := connection.frames ++ [.change event] } else connection) := by
  obtain ⟨base, tail, within, part, whole, frames⟩ := streams
  by_cases here : connection.host = host
  · subst here
    have grown : (log' connection.host).drop base = (log connection.host).drop base ++ [event] := by
      rw [own, drop_append_of_le_length within]
    have longer : base ≤ (log' connection.host).length := by
      rw [own, length_append]
      omega
    cases attached : connection.attached with
    | false =>
      rw [if_neg (by simp)]
      refine ⟨base, tail, longer, ?_, fun is => by simp [attached] at is, frames⟩
      rw [grown]
      exact part.trans (prefix_append _ _)
    | true =>
      rw [if_pos (by simp)]
      have all : tail ++ [event] = (log' connection.host).drop base := by
        rw [grown, whole attached]
      refine ⟨base, tail ++ [event], longer, ⟨[], by rw [append_nil, all]⟩, fun _ => all, ?_⟩
      · refine frames.imp (fun ⟨is, position⟩ => ⟨?_, position⟩)
          fun ⟨hello, reset, is, epoch, position⟩ => ⟨hello, reset, ?_, epoch, position⟩
        · rw [is, map_append, map_singleton]
        · rw [is, map_append, map_singleton, cons_append]
  · rw [if_neg (by simp [here])]
    have same := others connection.host here
    exact ⟨base, tail, same ▸ within, same ▸ part, same ▸ whole, frames⟩

theorem change_sound (sound : Sound s) (host : Nat) (change : Change) :
    Sound ((s.setHost host ((s.hosts host).publish change)).send host
      (.change ((s.hosts host).next change))) := by
  have own : logs ((s.setHost host ((s.hosts host).publish change)).send host
      (.change ((s.hosts host).next change))) host = logs s host ++ [(s.hosts host).next change] := by
    simp [logs, System.send, System.setHost, ClientChannelEvents.publish]
  have others : ∀ other, other ≠ host → logs ((s.setHost host ((s.hosts host).publish change)).send host
        (.change ((s.hosts host).next change))) other = logs s other := by
    intro other different
    simp [logs, System.send, System.setHost, different]
  have grows : ∀ other, logs s other <+: logs ((s.setHost host ((s.hosts host).publish change)).send
      host (.change ((s.hosts host).next change))) other := by
    intro other
    by_cases same : other = host
    · rw [same, own]
      exact prefix_append _ _
    · exact ⟨[], by rw [append_nil, others other same]⟩
  refine ⟨fun other => ?_, fun position is => ?_, fun connection is => ?_,
    fun subscriber member => (sound.follows subscriber member).grow grows⟩
  · simp only [System.send, System.setHost]
    split
    · next same =>
      subst same
      exact (sound.hosts other).publish change
    · exact sound.hosts other
  · obtain ⟨within, kept⟩ := sound.placed position is
    obtain ⟨more, same⟩ := grows position.epoch
    rw [← same]
    refine ⟨?_, ?_⟩
    · rw [length_append]
      omega
    · rwa [take_append_of_le_length within]
  · obtain ⟨before, was, rfl⟩ := map_eq_some_iff.mp is
    exact (sound.streams before was).send own others

theorem Streams.detach {log : Nat → List ChangeEvent} {cursor : Option ClientChannelCursor} (streams : Streams log cursor connection) :
    Streams log cursor { connection with attached := false } := by
  obtain ⟨base, tail, within, part, -, frames⟩ := streams
  exact ⟨base, tail, within, part, nofun, frames⟩

section
variable (sound : Sound s)
include sound

theorem detach_sound (host : Nat) : Sound (s.detach host) := by
  refine ⟨sound.hosts, sound.placed, fun connection is => ?_, sound.follows⟩
  obtain ⟨before, was, rfl⟩ := map_eq_some_iff.mp is
  split
  · exact (sound.streams before was).detach
  · exact sound.streams before was

theorem clear_sound (host : Nat) : Sound (s.setHost host (s.hosts host).clear) := by
  have same : logs (s.setHost host (s.hosts host).clear) = logs s := by
    funext other
    simp only [logs, setHost]
    split
    · next same => rw [same]; rfl
    · rfl
  refine ⟨fun other => ?_, same ▸ sound.placed, same ▸ sound.streams, same ▸ sound.follows⟩
  simp only [setHost]
  split
  · next here =>
    subst here
    obtain ⟨epoch, sequence, numbered, -⟩ := sound.hosts other
    exact ⟨epoch, sequence, numbered, nil_suffix⟩
  · exact sound.hosts other

theorem fail_sound : Sound s.fail := by
  refine ⟨sound.hosts, sound.placed, nofun, fun subscriber member => ?_⟩
  obtain ⟨before, was, rfl⟩ := mem_map.mp member
  exact (sound.follows before was).offline rfl rfl

theorem close_sound : Sound s.close := by
  refine ⟨sound.hosts, sound.placed, nofun, fun subscriber member => ?_⟩
  obtain ⟨before, was, rfl⟩ := mem_map.mp member
  obtain ⟨first, there, rfl⟩ := mem_map.mp was
  have ended : Follows (logs s) { s.channel with stopped := true, online := false }
      (first.publish [.connection false]) := (sound.follows first there).offline rfl rfl
  exact ended.leave

/-- The `hello` of the connection: the client is online, and goes on or starts anew. -/
theorem hello_sound {hello : ClientChannelCursor}
    {reset : Bool} {rest : List ClientChannelEvent} (is : s.connection = some connection)
    (frames : connection.frames = .hello hello reset :: rest) :
    Sound (s.receive connection (.hello hello reset) rest) := by
  obtain ⟨base, tail, within, part, whole, ⟨none, -⟩ | ⟨hello', reset', is', epoch, position⟩⟩ :=
    sound.streams connection is
  · rw [frames] at none
    cases tail <;> cases none
  rw [frames] at is'
  cases is'
  unfold receive HostClientChannel.receive
  simp only
  by_cases other : hello.epoch ≠ connection.epoch
  · rw [if_pos other]
    exact fail_sound sound
  rw [if_neg other]
  cases reset with
  | true =>
    have here : hello = ⟨connection.host, base⟩ := by rw [← epoch, ← position]
    refine ⟨sound.hosts, fun cursor now => ?_, fun next now => ?_, fun subscriber member => ?_⟩
    · cases now
      refine ⟨?_, nil_suffix⟩
      rw [here]
      exact within
    · cases now
      exact ⟨base, tail, within, part, whole, .inl ⟨rfl, congrArg some here⟩⟩
    · obtain ⟨before, was, rfl⟩ := mem_map.mp member
      exact (sound.follows before was).hello rfl rfl
  | false =>
    have kept : (if (false || s.channel.cursor.isNone) = true then
        { s.channel with cursor := some hello, history := [] } else s.channel) = s.channel := by
      rw [position]
      rfl
    simp only [kept]
    refine ⟨sound.hosts, sound.placed, fun next now => ?_, fun subscriber member => ?_⟩
    · cases now
      exact ⟨base, tail, within, part, whole, .inl ⟨rfl, position⟩⟩
    · obtain ⟨before, was, rfl⟩ := mem_map.mp member
      exact (sound.follows before was).hello rfl rfl

/-- The next event of the Host is the one after the cursor. -/
theorem receive_change_sound
    {rest : List ClientChannelEvent} (is : s.connection = some connection)
    (frames : connection.frames = .change event :: rest) :
    Sound (s.receive connection (.change event) rest) := by
  obtain ⟨base, tail, within, part, whole, ⟨is', position⟩ | ⟨_, _, none, -⟩⟩ :=
    sound.streams connection is
  case inr =>
    rw [frames] at none
    cases none
  cases tail with
  | nil =>
    rw [frames] at is'
    cases is'
  | cons first tail =>
    rw [frames, List.map_cons, List.cons.injEq, ClientChannelEvent.change.injEq] at is'
    obtain ⟨rfl, rfl⟩ := is'
    have next : (logs s connection.host)[base]? = some event := by
      obtain ⟨more, same⟩ := part
      have head : ((logs s connection.host).drop base)[0]? = some event := by
        rw [← same]
        rfl
      rwa [List.getElem?_drop] at head
    have number : event.cursor = ⟨connection.host, base + 1⟩ :=
      (sound.hosts connection.host).numbered base event next
    have more : base + 1 ≤ (logs s connection.host).length := (List.getElem?_eq_some_iff.mp next).1
    obtain ⟨-, kept⟩ := sound.placed _ position
    unfold receive HostClientChannel.receive
    simp only [position, number, ne_eq, not_true_eq_false, decide_false, Bool.or_self,
      Bool.false_eq_true, if_false]
    refine ⟨sound.hosts, fun cursor now => ?_, fun after now => ?_, fun subscriber member => ?_⟩
    · cases now
      refine ⟨more, ?_⟩
      have grown : (logs s connection.host).take (base + 1) =
          (logs s connection.host).take base ++ [event] := by
        rw [List.take_add_one, next]
        rfl
      exact grown ▸ pushBounded_suffix 512 kept event
    · cases now
      have dropped : (logs s connection.host).drop base = event :: (logs s connection.host).drop (base + 1) :=
        (List.drop_eq_getElem_cons more).trans (by rw [(List.getElem?_eq_some_iff.mp next).2])
      refine ⟨base + 1, tail, more, ?_, fun attached => ?_, .inl ⟨rfl, rfl⟩⟩
      · have part' : event :: tail <+: event :: (logs s connection.host).drop (base + 1) :=
          dropped ▸ part
        exact (List.cons_prefix_cons.mp part').2
      · exact (List.cons.inj ((whole attached).trans dropped)).2
    · obtain ⟨before, was, rfl⟩ := List.mem_map.mp member
      exact (sound.follows before was).change position next rfl rfl

end

theorem announced_connection (online : Bool) : Announced [.connection online] := by
  have nothing : Announced [] := by
    intro before cursor reset after is
    cases before <;> cases is
  exact announced_snoc nothing nofun

theorem announced_hello (cursor : ClientChannelCursor) (reset : Bool) :
    Announced [.connection true, .event (.hello cursor reset)] :=
  announced_snoc (announced_connection true) fun _ _ _ => rfl

/-- A subscriber begins at the position that it asks for, or at that of the client. -/
theorem subscribe_follows (sound : Sound s) (after : Option ClientChannelCursor) :
    Follows (logs s) s.channel ⟨true, s.channel.subscribe after, s.startOf after,
      fun host => (s.hosts host).log.length⟩ := by
  unfold HostClientChannel.subscribe startOf
  cases online : s.channel.online with
  | false =>
    refine ⟨announced_connection false, fun _ => online.symm, fun cursor is => ?_,
      fun _ _ => List.nil_prefix, fun _ => rfl, fun _ => ?_⟩
    · exact (sound.placed cursor is).1
    · simp [followed, follow]
  | true =>
    cases position : s.channel.cursor with
    | none =>
      refine ⟨announced_connection true, fun _ => online.symm, nofun, nofun,
        fun _ => rfl, fun _ => ?_⟩
      simp [followed, follow, position]
    | some cursor =>
      obtain ⟨within, kept⟩ := sound.placed cursor position
      simp only [greeting]
      cases replay : after.filter (replays cursor s.channel.history) with
      | none =>
        refine ⟨announced_hello cursor true, fun _ => online.symm, fun start is => ?_,
          fun _ _ => List.nil_prefix, fun _ => rfl, fun _ => ?_⟩
        · cases is
          exact within
        · exact position.symm
      | some after =>
        obtain ⟨-, reaches⟩ := Option.filter_eq_some_iff.mp replay
        have length : ((logs s cursor.epoch).take cursor.sequence).length = cursor.sequence := by
          rw [List.length_take]
          omega
        have numbered : Numbered cursor.epoch ((logs s cursor.epoch).take cursor.sequence) :=
          (sound.hosts cursor.epoch).numbered.take cursor.sequence
        have seen := filter_after numbered kept (by rwa [length])
        have past : after.epoch = cursor.epoch ∧ after.sequence ≤ cursor.sequence := by
          simp only [replays, Bool.and_eq_true, decide_eq_true_eq] at reaches
          exact ⟨reaches.1.1, reaches.2⟩
        simp only [seen, List.map_cons, List.map_map]
        have moved : followed ⟨true, .connection true :: .event (.hello cursor false) ::
            (((logs s cursor.epoch).take cursor.sequence).drop after.sequence).map
              fun event => .event (.change event), some after,
            fun host => (s.hosts host).log.length⟩ =
            (some after, ((logs s cursor.epoch).take cursor.sequence).drop after.sequence) :=
          follow_changes (some after, []) _
        refine ⟨announced_changes (announced_hello cursor false) _, fun _ => ?_, fun start is => ?_,
          fun start is => ?_, fun absent => ?_, fun _ => ?_⟩
        · exact (lastOnline_changes [.connection true, .event (.hello cursor false)] _).trans online.symm
        · cases is
          have behind : after.sequence ≤ (logs s after.epoch).length := by
            rw [past.1]
            exact Nat.le_trans past.2 within
          exact behind
        · have here : some after = some start := (congrArg Prod.fst moved).symm.trans is
          cases here
          refine @List.IsPrefix.trans _ _ (((logs s cursor.epoch).take cursor.sequence).drop
            after.sequence) _ ⟨[], ?_⟩ ?_
          · exact (List.append_nil _).trans (congrArg Prod.snd moved)
          · rw [past.1]
            exact (List.take_prefix _ _).drop _
        · have here : some after = none := (congrArg Prod.fst moved).symm.trans absent
          cases here
        · have there : after.sequence +
              (((logs s cursor.epoch).take cursor.sequence).drop after.sequence).length =
                cursor.sequence := by
            rw [List.length_drop, length]
            omega
          refine (congrArg (fun position => position.1.map fun start : ClientChannelCursor =>
            (⟨start.epoch, start.sequence + position.2.length⟩ : ClientChannelCursor)) moved).trans ?_
          rw [position]
          simp only [Option.map_some, there, past.1]

theorem step_sound (sound : Sound s) {event : Event} (moved : step s event = some s') : Sound s' := by
  cases event with
  | change host change =>
    cases moved
    exact change_sound sound host change
  | clear host =>
    cases moved
    exact detach_sound (clear_sound sound host) host
  | detach host =>
    cases moved
    exact detach_sound sound host
  | connect host epoch =>
    simp only [step, Option.ite_none_right_eq_some, Option.some.injEq] at moved
    obtain ⟨-, rfl⟩ := moved
    refine ⟨sound.hosts, sound.placed, fun connection is => ?_, sound.follows⟩
    cases is
    exact subscribe_streams sound host epoch
  | receive =>
    simp only [step] at moved
    split at moved
    · cases moved
    · next connection is =>
      split at moved
      · cases moved
      · next frame rest frames =>
        cases moved
        cases frame with
        | hello cursor reset => exact hello_sound sound is frames
        | change event => exact receive_change_sound sound is frames
  | fail =>
    simp only [step, Option.ite_none_left_eq_some, Option.some.injEq] at moved
    obtain ⟨-, rfl⟩ := moved
    exact fail_sound sound
  | subscribe after =>
    cases moved
    refine ⟨sound.hosts, sound.placed, sound.streams, fun subscriber member => ?_⟩
    rcases List.mem_append.mp member with old | new
    · exact sound.follows subscriber old
    · cases List.mem_singleton.mp new
      exact subscribe_follows sound after
  | unsubscribe number =>
    cases moved
    refine ⟨sound.hosts, sound.placed, sound.streams, fun subscriber member => ?_⟩
    obtain ⟨index, is⟩ := List.mem_iff_getElem?.mp member
    rw [List.getElem?_modify, Option.map_eq_map, Option.map_eq_some_iff] at is
    obtain ⟨before, was, rfl⟩ := is
    have follows := sound.follows before (List.mem_of_getElem? was)
    split
    · exact follows.leave
    · exact follows
  | close =>
    cases moved
    exact close_sound sound

end Steps

section Runs
variable {capacity : Nat → Nat} {events : List Event} {s : System}

def Reaches (capacity : Nat → Nat) (events : List Event) (s : System) : Prop :=
  Run (fun s event s' => step s event = some s') (initial capacity) events s

theorem reaches_sound (reached : Reaches capacity events s) : Sound s := by
  exact reached.invariant (initial_sound capacity) fun _ _ _ sound moved => step_sound sound moved

/-- Every subscriber is informed, in every state of every run. -/
theorem reaches_informed (reached : Reaches capacity events s) {subscriber : Subscriber}
    (member : subscriber ∈ s.subscribers) : Informed s subscriber := by
  have sound := reaches_sound reached
  have follows := sound.follows subscriber member
  refine ⟨follows.announced, follows.joined, follows.faithful, follows.unstarted,
    fun listens connection is attached empty => ?_⟩
  obtain ⟨base, tail, within, -, whole, ⟨frames, position⟩ | ⟨_, _, frames, -⟩⟩ :=
    sound.streams connection is
  · have here := follows.position listens
    rw [position, map_eq_some_iff] at here
    obtain ⟨start, is', at'⟩ := here
    simp only [ClientChannelCursor.mk.injEq] at at'
    refine ⟨start, is', at'.1, ?_⟩
    have nothing : tail = [] := by simpa [empty] using frames.symm
    have all : (logs s connection.host).length = base := by
      have none := (whole attached).symm.trans nothing
      rw [drop_eq_nil_iff] at none
      omega
    have seen := prefix_iff_eq_take.mp (at'.1 ▸ follows.faithful start is')
    rw [seen]
    refine take_of_length_le ?_
    rw [length_drop]
    omega
  · rw [empty] at frames
    cases frames

end Runs

end CodexHost.Guarantees.ClientChannel
