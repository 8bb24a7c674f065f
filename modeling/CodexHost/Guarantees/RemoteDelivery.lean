import CodexHost.Source.DeepseekHarness.RemoteStream

/-!
# Remote streams deliver what they receive

The frames that the consumer was given, with the one the loop body holds and those in the inbox, are a
prefix of the frames received, and all of them while the stream listens and has not failed. Most signals
change neither side: they add an event without a frame, or empty the inbox for good.
-/
namespace CodexHost.Guarantees.RemoteDelivery
open Foundation Source.ProtocolCore Source.DeepseekHarness.RemoteConnection List Option RemoteStream

/-- The values of item frames, in their order. -/
def itemValues (frames : List FrameBody) : List (Option JsonValue) :=
  frames.filterMap fun
    | .item value => some value
    | _ => none

/-- The frames before the first terminal frame of a list. -/
def beforeTerminal (frames : List FrameBody) : List FrameBody :=
  frames.takeWhile fun frame => !frame.isTerminal

/-- Everything that came before the stream's end frame was given to the consumer. -/
def Complete (s : RemoteStream) : Prop :=
  .end_ ∈ s.received ∧ s.output = itemValues (beforeTerminal s.received)

/-- The stream is over for its consumer. -/
def Over (s : RemoteStream) (outcome : Outcome) : Prop :=
  s.phase = .done outcome ∨ ∃ awaits, s.phase = .cleaning outcome awaits

def framesOf : SocketEvent → List FrameBody
  | .frame frame => [frame.body]
  | _ => []

/-- The frames that wait in an inbox. -/
def queued (inbox : SocketInbox) : List FrameBody := inbox.items.flatMap fun item => framesOf item.1

/-- An inbox has got more frames, or it has failed and is empty. -/
structure Grown (inbox grown : SocketInbox) (frames : List FrameBody) : Prop where
  queued : queued grown = queued inbox ++ frames ∧ (frames = [] ∨ inbox.failure = none) ∨
    queued grown <+: queued inbox ∧ grown.failure ≠ none
  failure : grown.failure = none → inbox.failure = none

theorem grown_refl (inbox : SocketInbox) : Grown inbox inbox [] where
  queued := .inl ⟨(append_nil _).symm, .inl rfl⟩
  failure := id

theorem grown_fail (inbox : SocketInbox) (error : ModernRemoteConnectionError)
    (frames : List FrameBody) : Grown inbox (inbox.fail error) frames := by
  rw [SocketInbox.fail]
  split
  next failed =>
    exact ⟨.inr ⟨prefix_refl _, isSome_iff_ne_none.1 failed⟩, id⟩
  next => exact ⟨.inr ⟨List.nil_prefix, by simp⟩, by simp⟩

theorem grown_push (inbox : SocketInbox) (event : SocketEvent) (bytes : Nat) :
    Grown inbox (inbox.push event bytes) (framesOf event) := by
  rw [SocketInbox.push]
  split
  next failed => exact ⟨.inr ⟨prefix_refl _, isSome_iff_ne_none.1 failed⟩, id⟩
  next whole =>
    split
    · exact grown_fail inbox _ _
    · exact ⟨.inl ⟨by simp [queued], .inr (not_isSome_iff_eq_none.1 whole)⟩, id⟩

/-- A step that neither receives nor delivers. -/
structure Quiet (s t : RemoteStream) : Prop where
  phase : t.phase = s.phase
  output : t.output = s.output
  received : t.received = s.received
  created : t.created = s.created
  inbox : Grown s.inbox t.inbox []
  listening : t.listening = true → s.listening = true
  inTable : t.inTable = true → s.inTable = true
  aborted : s.callerAborted = true → t.callerAborted = true
  closing : s.closing = true → t.closing = true
  settled : (∀ failure, s.tracking.closePromise = some (.settled failure) → s.inTable = false) →
    ∀ failure, t.tracking.closePromise = some (.settled failure) → t.inTable = false
  silent : (s.tracking.quiescing = true → s.listening = false) → t.tracking.quiescing = true →
    t.listening = false

theorem Quiet.refl (s : RemoteStream) : Quiet s s :=
  ⟨rfl, rfl, rfl, rfl, grown_refl _, id, id, id, id, id, id⟩

theorem Grown.trans {first second third : SocketInbox} (one : Grown first second [])
    (two : Grown second third []) : Grown first third [] where
  failure none := one.failure (two.failure none)
  queued := by
    have empty := two.failure
    rcases one.queued, two.queued with ⟨⟨here, -⟩ | ⟨shrunk, failed⟩, ⟨there, -⟩ | ⟨less, broken⟩⟩
    · exact .inl ⟨by rw [there, here, append_nil, append_nil], .inl rfl⟩
    · rw [append_nil] at here
      exact .inr ⟨here ▸ less, broken⟩
    · rw [append_nil] at there
      exact .inr ⟨there ▸ shrunk, fun none => failed (empty none)⟩
    · exact .inr ⟨less.trans shrunk, broken⟩

theorem Quiet.trans {s t u : RemoteStream} (one : Quiet s t) (two : Quiet t u) : Quiet s u where
  phase := two.phase.trans one.phase
  output := two.output.trans one.output
  received := two.received.trans one.received
  created := two.created.trans one.created
  inbox := one.inbox.trans two.inbox
  listening on := one.listening (two.listening on)
  inTable there := one.inTable (two.inTable there)
  aborted already := two.aborted (one.aborted already)
  closing already := two.closing (one.closing already)
  settled before := two.settled (one.settled before)
  silent before := two.silent (one.silent before)

section
variable (s : RemoteStream)
include s

theorem quiet_push {event : SocketEvent} (bytes : Nat) (bare : framesOf event = []) :
    Quiet s (s.push event bytes) :=
  ⟨rfl, rfl, rfl, rfl, bare ▸ grown_push s.inbox event bytes, id, id, id, id, id, id⟩

theorem quiet_fail (error : ModernRemoteConnectionError) : Quiet s (s.fail error) :=
  ⟨rfl, rfl, rfl, rfl, grown_fail s.inbox error [], id, id, id, id, id, id⟩

theorem quiet_abort : Quiet s s.abort := by
  have deaf : Quiet s { s with abortListener := false } :=
    ⟨rfl, rfl, rfl, rfl, grown_refl _, id, id, id, id, id, id⟩
  rw [abort]
  split
  · exact deaf.trans (quiet_push _ 0 rfl)
  · exact Quiet.refl s

theorem quiet_callerAbort : Quiet s s.callerAbort := by
  have marked : Quiet s { s with callerAborted := true } :=
    ⟨rfl, rfl, rfl, rfl, grown_refl _, id, id, fun _ => rfl, id, id, id⟩
  exact marked.trans (quiet_abort _)

theorem quiet_publishFault (error : ModernRemoteConnectionError) :
    Quiet s (s.publishFault error) := by
  have marked : Quiet s { s with fault := some error } :=
    ⟨rfl, rfl, rfl, rfl, grown_refl _, id, id, id, id, id, id⟩
  rw [publishFault]
  split
  · exact Quiet.refl s
  · exact marked.trans (quiet_abort _)

theorem quiet_settleClosing (failure : Option ModernRemoteConnectionError) :
    Quiet s (s.settleClosing failure) :=
  ⟨rfl, rfl, rfl, rfl, grown_refl _, by simp [settleClosing, quiesce],
    by simp [settleClosing], id, id, fun _ _ _ => rfl,
    fun _ _ => rfl⟩

/-- A closing that has begun and not settled. -/
theorem quiet_progress {progress : CloseProgress} (quiescing listening timer : Bool)
    (open_ : ∀ failure, progress ≠ .settled failure) (off : listening = true → s.listening = true)
    (silent : (s.tracking.quiescing = true → s.listening = false) → quiescing = true → listening = false) :
    Quiet s { s with listening, openTimer := timer
                     tracking := { s.tracking with closePromise := some progress, quiescing } } :=
  ⟨rfl, rfl, rfl, rfl, grown_refl _, off, id, id, id,
    fun _ failure settled => absurd (Option.some.inj settled) (open_ failure), silent⟩

theorem quiet_closeTrackedSocket (closeThrows : Bool) :
    Quiet s (s.closeTrackedSocket closeThrows) := by
  have quiesced : Quiet s { s.quiesce with tracking := { s.tracking with quiescing := true } } :=
    ⟨rfl, rfl, rfl, rfl, grown_refl _, by simp [quiesce], id, id, id, id,
      fun _ _ => rfl⟩
  rw [closeTrackedSocket]
  split
  · exact Quiet.refl s
  · dsimp only
    split
    · exact quiesced.trans (quiet_settleClosing _ none)
    · exact quiet_progress s true false false (by split <;> simp) (by simp) (by simp)

theorem quiet_performClose (closeThrows : Bool) :
    Quiet s (s.performClose closeThrows) := by
  have marked : Quiet s { s with closing := true } :=
    ⟨rfl, rfl, rfl, rfl, grown_refl _, id, id, id, fun _ => rfl, id, id⟩
  rw [performClose]
  split
  · exact Quiet.refl s
  · exact (marked.trans (quiet_abort _)).trans (quiet_closeTrackedSocket _ closeThrows)

theorem quiet_waited (closed : Bool) : Quiet s (s.waited closed) := by
  rw [waited]
  split
  · exact Quiet.refl s
  · split
    · split
      · exact quiet_settleClosing s none
      · exact quiet_progress s s.tracking.quiescing s.listening s.openTimer (by simp) id id
    · split
      · exact quiet_settleClosing s none
      · exact quiet_settleClosing s _
    · exact Quiet.refl s

theorem quiet_openTimeout : Quiet s s.openTimeout := by
  have stopped : Quiet s { s with openTimer := false } :=
    ⟨rfl, rfl, rfl, rfl, grown_refl _, id, id, id, id, id, id⟩
  rw [openTimeout]
  split
  · exact Quiet.refl s
  · dsimp only
    split
    · exact stopped
    · exact stopped.trans (quiet_push _ 0 rfl)

theorem quiet_onOpen (isOpen : Bool) (sendThrows : Option Utf16) :
    Quiet s (s.onOpen isOpen sendThrows) := by
  have stopped : ∀ transportOpened openSent,
      Quiet s { s with openTimer := false, transportOpened, openSent } := fun _ _ =>
    ⟨rfl, rfl, rfl, rfl, grown_refl _, id, id, id, id, id, id⟩
  rw [onOpen]
  split
  · exact Quiet.refl s
  · dsimp only
    split
    · exact stopped _ _
    · split
      · exact (stopped _ _).trans (quiet_fail _ _)
      · split
        · exact (stopped true _).trans (quiet_fail _ _)
        · split
          · exact stopped true true
          · exact (stopped true _).trans (quiet_fail _ _)

theorem quiet_onError (error : SocketError) : Quiet s (s.onError error) := by
  rw [onError]
  split
  · exact Quiet.refl s
  · exact quiet_push s 0 rfl

theorem quiet_onUnexpectedResponse (statusCode : Option Nat) :
    Quiet s (s.onUnexpectedResponse statusCode) := by
  rw [onUnexpectedResponse]
  split
  · exact Quiet.refl s
  · exact quiet_push s 0 rfl

theorem quiet_onClose : Quiet s s.onClose := by
  have closed : Quiet s { s with tracking := { s.tracking with didClose := true } } :=
    ⟨rfl, rfl, rfl, rfl, grown_refl _, id, id, id, id, id, id⟩
  rw [onClose]
  split
  · exact Quiet.refl s
  · dsimp only
    split
    · exact closed
    · exact closed.trans (quiet_push _ 0 rfl)

end

/-- The frames received that the consumer can still be given. -/
def waiting (s : RemoteStream) : List FrameBody :=
  match s.phase with
  | .taken event => framesOf event ++ queued s.inbox
  | .cleaning .. | .done _ => []
  | _ => queued s.inbox

def delivered (s : RemoteStream) : List FrameBody := s.output.map .item ++ waiting s

structure Delivering (s : RemoteStream) : Prop where
  fresh : s.phase = .idle ∨ s.phase = .connecting → s.created = false
  empty : s.created = false → s.output = [] ∧ s.received = [] ∧ s.inTable = false ∧ s.listening = false
  given : delivered s <+: s.received
  whole : s.listening = true → s.inbox.failure = none → delivered s = s.received
  finished : ∀ outcome, Over s outcome → s.listening = false
  ended : Over s .ended →
    s.callerAborted = true ∨ s.closing = true ∨ s.output.map .item ++ [.end_] <+: s.received
  settled : ∀ failure, s.tracking.closePromise = some (.settled failure) → s.inTable = false
  silent : s.tracking.quiescing = true → s.listening = false
  released : ∀ outcome, s.phase = .done outcome ∨ s.phase = .cleaning outcome false → s.inTable = false

theorem waiting_quiet {s t : RemoteStream} (quiet : Quiet s t) :
    waiting t = waiting s ∨ waiting t <+: waiting s ∧ t.inbox.failure ≠ none := by
  have grown := quiet.inbox.queued
  rw [append_nil] at grown
  rw [waiting, waiting, quiet.phase]
  rcases grown with ⟨same, -⟩ | ⟨less, failed⟩
  · exact .inl (by rw [same])
  · refine .inr ⟨?_, failed⟩
    split
    · exact (prefix_append_right_inj _).2 less
    · exact prefix_refl _
    · exact prefix_refl _
    · exact less

theorem delivered_quiet {s t : RemoteStream} (quiet : Quiet s t) :
    delivered t = delivered s ∨ delivered t <+: delivered s ∧ t.inbox.failure ≠ none := by
  rw [delivered, delivered, quiet.output]
  rcases waiting_quiet quiet with same | ⟨less, failed⟩
  · exact .inl (by rw [same])
  · exact .inr ⟨(prefix_append_right_inj _).2 less, failed⟩

theorem off_of_mono {a b : Bool} (mono : b = true → a = true) (off : a = false) : b = false := by
  cases b with
  | false => rfl
  | true => exact absurd (mono rfl) (by simp [off])

/-- What a signal leaves of the invariant. -/
theorem Delivering.quiet {s t : RemoteStream} (before : Delivering s) (quiet : Quiet s t) : Delivering t where
  fresh young := by
    rw [quiet.created]
    exact before.fresh (quiet.phase ▸ young)
  empty unmade := by
    have ⟨output, received, inTable, listening⟩ := before.empty (quiet.created ▸ unmade)
    exact ⟨quiet.output.trans output, quiet.received.trans received,
      off_of_mono quiet.inTable inTable, off_of_mono quiet.listening listening⟩
  given := by
    rw [quiet.received]
    rcases delivered_quiet quiet with same | ⟨less, -⟩
    · exact same ▸ before.given
    · exact less.trans before.given
  whole on none := by
    rw [quiet.received]
    rcases delivered_quiet quiet with same | ⟨-, failed⟩
    · exact same.trans (before.whole (quiet.listening on) (quiet.inbox.failure none))
    · exact absurd none failed
  finished outcome finished := by
    rw [Over, quiet.phase] at finished
    exact off_of_mono quiet.listening (before.finished outcome finished)
  ended finished := by
    rw [Over, quiet.phase] at finished
    rw [quiet.output, quiet.received]
    exact (before.ended finished).imp quiet.aborted (Or.imp_left quiet.closing)
  settled := quiet.settled before.settled
  silent := quiet.silent before.silent
  released outcome gone := by
    rw [quiet.phase] at gone
    exact off_of_mono quiet.inTable (before.released outcome gone)

variable {s : RemoteStream}

section Generator

theorem quiet_cleanUp (s : RemoteStream) (closeThrows : Bool) : Quiet s (s.cleanUp closeThrows) := by
  have stopped : Quiet s ({ s with abortListener := false }.quiesce) :=
    ⟨rfl, rfl, rfl, rfl, grown_refl _, by simp [quiesce], id, id, id, id, fun _ _ => rfl⟩
  exact stopped.trans (quiet_closeTrackedSocket _ closeThrows)

theorem cleanUp_listening (s : RemoteStream) (closeThrows : Bool) :
    (s.cleanUp closeThrows).listening = false := by
  have quiet := quiet_closeTrackedSocket ({ s with abortListener := false }.quiesce) closeThrows
  exact off_of_mono quiet.listening rfl

theorem given_output (before : Delivering s) : s.output.map .item <+: s.received :=
  (prefix_append _ _).trans before.given

variable {outcome : Outcome}

section
variable (before : Delivering s)
include before

/-- A stream that listens no more may end, when the outcome has its reason. -/
theorem Delivering.cleaning (off : s.listening = false) {awaits : Bool} (gone : awaits = false → s.inTable = false)
    (reason : outcome = .ended →
      s.callerAborted = true ∨ s.closing = true ∨ s.output.map .item ++ [.end_] <+: s.received) :
    Delivering { s with phase := .cleaning outcome awaits } where
  fresh := by simp
  empty := before.empty
  given := by
    have mine := given_output before
    rwa [delivered, waiting, append_nil]
  whole on := absurd on (by simp [off])
  finished _ _ := off
  ended := by
    rintro (done | ⟨_, cleaning⟩)
    · cases done
    · cases cleaning
      exact reason rfl
  settled := before.settled
  silent := before.silent
  released := by
    rintro other (done | cleaning)
    · cases done
    · cases cleaning
      exact gone rfl

theorem Delivering.finish (reason : outcome = .ended →
      s.callerAborted = true ∨ s.closing = true ∨ s.output.map .item ++ [.end_] <+: s.received)
    (closeThrows : Bool) : Delivering (s.finish outcome closeThrows) := by
  have quiet := quiet_cleanUp s closeThrows
  refine (before.quiet quiet).cleaning (cleanUp_listening s closeThrows)
    (off_of_mono quiet.inTable) fun same => ?_
  rw [quiet.output, quiet.received]
  exact (reason same).imp quiet.aborted (Or.imp_left quiet.closing)

/-- A stream that has no socket yet may end without one. -/
theorem Delivering.done (unmade : s.created = false) (reason : outcome = .ended → s.callerAborted = true ∨ s.closing = true) :
    Delivering { s with phase := .done outcome } := by
  have ⟨output, received, inTable, listening⟩ := before.empty unmade
  exact
    { fresh := by simp
      empty := before.empty
      given := by
        have mine := given_output before
        rwa [delivered, waiting, append_nil]
      whole := fun on => absurd on (by simp [listening])
      finished := fun _ _ => listening
      ended := by
        rintro (done | ⟨_, cleaning⟩)
        · cases done
          exact (reason rfl).imp_right .inl
        · cases cleaning
      settled := before.settled
      silent := before.silent
      released := fun _ _ => inTable }

/-- The phase changes and nothing else, between phases that await the same frames. -/
theorem Delivering.moved {phase : Phase} (same : waiting { s with phase } = waiting s)
    (young : phase = .idle ∨ phase = .connecting → s.created = false)
    (running : ∀ outcome, phase ≠ .done outcome ∧ ∀ awaits, phase ≠ .cleaning outcome awaits) :
    Delivering { s with phase } where
  fresh := young
  empty := before.empty
  given := by
    rw [delivered, same]
    exact before.given
  whole on none := by
    rw [delivered, same]
    exact before.whole on none
  finished outcome finished := by
    rcases finished with done | ⟨awaits, cleaning⟩
    · exact absurd done (running outcome).1
    · exact absurd cleaning ((running outcome).2 awaits)
  ended finished := by
    rcases finished with done | ⟨awaits, cleaning⟩
    · exact absurd done (running .ended).1
    · exact absurd cleaning ((running .ended).2 awaits)
  settled := before.settled
  silent := before.silent
  released outcome gone := by
    rcases gone with done | cleaning
    · exact absurd done (running outcome).1
    · exact absurd cleaning ((running outcome).2 false)

theorem delivering_read : Delivering s.read := by
  rw [RemoteStream.read]
  split
  next idle =>
    have unmade := before.fresh (.inl idle)
    split
    · exact before.done unmade (by simp)
    · exact before.moved (by simp [waiting, idle]) (fun _ => unmade) (by simp)
  next yielded => exact before.moved (by simp [waiting, yielded]) (by simp) (by simp)
  next => exact before

theorem delivering_leave (closeThrows : Bool) : Delivering (s.leave closeThrows) := by
  rw [leave]
  split
  next idle => exact before.done (before.fresh (.inl idle)) (by simp)
  next => exact before.finish (by simp) closeThrows
  next => exact before

theorem delivering_opened (unmade : s.created = false) : Delivering s.opened := by
  have ⟨output, received, _, _⟩ := before.empty unmade
  have opened : Delivering { s with
      created := true, inTable := true, listening := true, openTimer := true
      abortListener := true, phase := .taking
      tracking := { closePromise := none, didClose := false, quiescing := false }
      inbox := { s.inbox with items := [], bytes := 0, failure := none } } :=
    { fresh := by simp
      empty := by simp
      given := by simp [delivered, waiting, queued, output, received]
      whole := by simp [delivered, waiting, queued, output, received]
      finished := by simp [Over]
      ended := by simp [Over]
      settled := by simp
      silent := by simp
      released := by simp }
  rw [RemoteStream.opened]
  split
  · exact opened.quiet (quiet_abort _)
  · exact opened

theorem delivering_connected
    (connect : Option ModernRemoteConnectionError) (createThrows : Option Utf16) :
    Delivering (s.connected connect createThrows) := by
  unfold connected
  split
  next connecting => exact before.done (before.fresh (.inr connecting)) (by simp)
  next connecting =>
    have unmade := before.fresh (.inr connecting)
    split
    next stopped => exact before.done unmade fun _ => by simpa using stopped
    next =>
      split
      · exact before.done unmade (by simp)
      · exact before.done unmade (by simp)
      · exact delivering_opened before unmade
  next => exact before

theorem delivering_take (closeThrows : Bool) :
    Delivering (s.take closeThrows) := by
  rw [RemoteStream.take]
  split
  next => exact before.finish (by simp) closeThrows
  next event bytes rest taking none items =>
    have same : waiting { s with
        phase := .taken event
        inbox := { s.inbox with items := rest, bytes := s.inbox.bytes - bytes } } = waiting s := by
      simp [waiting, taking, queued, items]
    exact
      { fresh := by simp
        empty := before.empty
        given := by
          rw [delivered, same]
          exact before.given
        whole := fun on none => by
          rw [delivered, same]
          exact before.whole on none
        finished := by simp [Over]
        ended := by simp [Over]
        settled := before.settled
        silent := before.silent
        released := by simp }
  next => exact before

end

/-- The loop body ends the stream without an error on a close that was asked for, or on the end frame. -/
theorem verdict_ended {event : SocketEvent} (notItem : ∀ id value, event ≠ .frame ⟨id, .item value⟩)
    (ended : s.verdict event = .ended) :
    s.callerAborted = true ∨ s.closing = true ∨ framesOf event = [.end_] := by
  cases event with
  | error error => cases ended
  | unexpectedResponse statusCode => cases ended
  | close =>
    by_cases stopped : (s.callerAborted || s.closing) = true
    · exact (Bool.or_eq_true _ _ ▸ stopped).imp_right .inl
    · rw [verdict, if_neg stopped] at ended
      cases ended
  | frame frame =>
    obtain ⟨id, body⟩ := frame
    cases body with
    | item value => exact absurd rfl (notItem id value)
    | error error => cases ended
    | end_ => exact .inr (.inr rfl)

theorem delivering_handle (before : Delivering s) (closeThrows : Bool) :
    Delivering (s.handle closeThrows) := by
  rw [handle]
  split
  next id value taken =>
    have same : delivered { s with phase := .yielded, output := s.output ++ [value] } = delivered s := by
      simp [delivered, waiting, taken, framesOf]
    exact
      { fresh := by simp
        empty := fun unmade => by
          have ⟨_, received, _, _⟩ := before.empty unmade
          have given := before.given
          simp [delivered, waiting, taken, framesOf, received] at given
        given := same ▸ before.given
        whole := fun on none => same.trans (before.whole on none)
        finished := by simp [Over]
        ended := by simp [Over]
        settled := before.settled
        silent := before.silent
        released := by simp }
  next event notItem taken =>
    refine before.finish (fun ended => ?_) closeThrows
    rcases verdict_ended notItem ended with
      aborted | closing | frames
    · exact .inl aborted
    · exact .inr (.inl closing)
    · have given := before.given
      rw [delivered, waiting, taken] at given
      dsimp only at given
      rw [frames, ← append_assoc] at given
      exact .inr (.inr ((prefix_append _ _).trans given))
  next => exact before

theorem delivering_cleaned (before : Delivering s) : Delivering s.cleaned := by
  have done : ∀ {first outcome : Outcome} {awaits : Bool}, s.phase = .cleaning first awaits →
      s.inTable = false → (outcome = .ended → first = .ended) →
      Delivering { s with phase := .done outcome } := by
    intro first outcome awaits cleaning gone kept
    have off := before.finished first (.inr ⟨awaits, cleaning⟩)
    exact
      { fresh := by simp
        empty := before.empty
        given := by
          have mine := given_output before
          rwa [delivered, waiting, append_nil]
        whole := fun on => absurd on (by simp [off])
        finished := fun _ _ => off
        ended := by
          rintro (done | ⟨_, other⟩)
          · cases done
            exact before.ended (.inr ⟨awaits, kept rfl ▸ cleaning⟩)
          · cases other
        settled := before.settled
        silent := before.silent
        released := fun _ _ => gone }
  rw [cleaned]
  split
  next outcome cleaning => exact done cleaning (before.released outcome (.inr cleaning)) id
  next outcome cleaning settled => exact done cleaning (before.settled none settled) id
  next error cleaning settled => exact done cleaning (before.settled _ settled) (by simp)
  next => exact before

end Generator

theorem frameOf_within {message : SocketMessage} {frame : ModernRemoteStreamFrame}
    {bytes : Nat} (accepted : s.frameOf message = .ok (frame, bytes)) :
    s.frameWithin message = [frame.body] := by
  rw [frameOf] at accepted
  split at accepted
  · cases accepted
  · split at accepted
    · cases accepted
    next text =>
      split at accepted
      · cases accepted
      · cases accepted
      next read =>
        split at accepted
        · cases accepted
        next parsed =>
          split at accepted
          · cases accepted
          next mine =>
            split at accepted
            · cases accepted
            · cases accepted
              rw [frameWithin, Bool.eq_false_iff.2 text, read]
              dsimp only
              rw [parsed]
              exact if_pos (not_not.1 mine)

/-- Frames that arrive unheard leave the consumer's part a prefix. -/
theorem Delivering.more {s : RemoteStream} (before : Delivering s)
    (deaf : s.listening = true → s.inbox.failure ≠ none) (made : s.created = true)
    (frames : List FrameBody) : Delivering { s with received := s.received ++ frames } where
  fresh := before.fresh
  empty unmade := absurd made (by simp [show s.created = false from unmade])
  given := before.given.trans (prefix_append _ _)
  whole on none := absurd none (deaf on)
  finished := before.finished
  ended finished :=
    (before.ended finished).imp_right fun shown =>
      shown.imp_right fun complete => complete.trans (prefix_append _ _)
  settled := before.settled
  silent := before.silent
  released := before.released

/-- A frame that is pushed waits behind all others, or the inbox has failed. -/
theorem waiting_push (running : ∀ outcome, ¬ Over s outcome)
    (frame : ModernRemoteStreamFrame) (bytes : Nat) (terminalQueued : Bool) (received : List FrameBody) :
    let t := { { s with terminalQueued }.push (.frame frame) bytes with received }
    waiting t = waiting s ++ [frame.body] ∧ s.inbox.failure = none ∨
      waiting t <+: waiting s ∧ t.inbox.failure ≠ none := by
  intro t
  have grown : Grown s.inbox t.inbox [frame.body] := grown_push s.inbox (.frame frame) bytes
  have phase : t.phase = s.phase := rfl
  have queued := grown.queued.imp_left fun ⟨all, whole⟩ => And.intro all (whole.resolve_left (by simp))
  rw [waiting, waiting, phase]
  split
  · rcases queued with ⟨all, whole⟩ | ⟨less, failed⟩
    · exact .inl ⟨by rw [all, append_assoc], whole⟩
    · exact .inr ⟨(prefix_append_right_inj _).2 less, failed⟩
  next outcome awaits cleaning => exact absurd (.inr ⟨awaits, cleaning⟩) (running outcome)
  next outcome done => exact absurd (.inl done) (running outcome)
  · exact queued

theorem delivering_accepted (before : Delivering s) (on : s.listening = true)
    (made : s.created = true) (frame : ModernRemoteStreamFrame) (bytes : Nat) (terminalQueued : Bool) :
    Delivering { { s with terminalQueued }.push (.frame frame) bytes with
      received := s.received ++ [frame.body] } := by
  have running : ∀ outcome, ¬ Over s outcome := fun outcome finished => by
    simpa [on] using before.finished outcome finished
  have pushed := waiting_push running frame bytes terminalQueued (s.received ++ [frame.body])
  refine
    { fresh := before.fresh
      empty := fun unmade => absurd made (by simp [show s.created = false from unmade])
      given := ?_
      whole := ?_
      finished := fun outcome finished => absurd finished (running outcome)
      ended := fun finished => absurd finished (running .ended)
      settled := before.settled
      silent := before.silent
      released := before.released }
  · rw [delivered]
    rcases pushed with ⟨all, whole⟩ | ⟨less, -⟩
    · rw [all, ← append_assoc]
      exact before.whole on whole ▸ prefix_refl _
    · exact ((prefix_append_right_inj _).2 less).trans (before.given.trans (prefix_append _ _))
  · intro _ none
    rw [delivered]
    rcases pushed with ⟨all, whole⟩ | ⟨-, failed⟩
    · rw [all, ← append_assoc]
      exact before.whole on whole ▸ rfl
    · exact absurd none failed

theorem fail_failure (s : RemoteStream) (error : ModernRemoteConnectionError) :
    (s.fail error).inbox.failure ≠ none := by
  simp only [fail, SocketInbox.fail]
  split
  next failed => exact isSome_iff_ne_none.1 failed
  next => simp

theorem delivering_message (before : Delivering s) (message : SocketMessage) :
    Delivering (s.message message) := by
  rw [RemoteStream.message]
  split
  · exact before
  next made =>
    have made : s.created = true := by simpa using made
    rw [RemoteStream.onMessage]
    split
    next deaf =>
      have off : s.listening = false := by
        rcases Bool.or_eq_true _ _ ▸ deaf with off | quiescing
        · simpa using off
        · exact before.silent quiescing
      exact before.more (fun on => absurd on (by simp [off])) made _
    next =>
      split
      next error _ =>
        exact (before.quiet (quiet_fail s _)).more (fun _ => fail_failure s _) made _
      next frame bytes accepted =>
        rw [frameOf_within accepted]
        exact delivering_accepted before (by simp_all) made frame bytes _

theorem delivering_step (before : Delivering s) (event : Event) : Delivering (step s event) := by
  cases event with
  | read => exact delivering_read before
  | leave closeThrows => exact delivering_leave before closeThrows
  | connected connect createThrows => exact delivering_connected before connect createThrows
  | take closeThrows => exact delivering_take before closeThrows
  | handle closeThrows => exact delivering_handle before closeThrows
  | cleaned => exact delivering_cleaned before
  | openTimeout => exact before.quiet (quiet_openTimeout s)
  | open_ isOpen sendThrows => exact before.quiet (quiet_onOpen s isOpen sendThrows)
  | message message => exact delivering_message before message
  | error error => exact before.quiet (quiet_onError s error)
  | unexpectedResponse statusCode => exact before.quiet (quiet_onUnexpectedResponse s statusCode)
  | close => exact before.quiet (quiet_onClose s)
  | callerAbort => exact before.quiet (quiet_callerAbort s)
  | fault error => exact before.quiet (quiet_publishFault s error)
  | connectionClose closeThrows => exact before.quiet (quiet_performClose s closeThrows)
  | waited closed => exact before.quiet (quiet_waited s closed)

theorem delivering_initial (streamId : Utf16) (maxFrames maxBytes : Nat) :
    Delivering (initial streamId maxFrames maxBytes) where
  fresh _ := rfl
  empty _ := ⟨rfl, rfl, rfl, rfl⟩
  given := prefix_refl _
  whole _ _ := rfl
  finished := by simp [Over, initial]
  ended := by simp [Over, initial]
  settled := by simp [initial]
  silent := by simp [initial]
  released := by simp [initial]

theorem delivering_after (before : Delivering s) (events : List Event) : Delivering (after s events) := by
  induction events generalizing s with
  | nil => exact before
  | cons event rest ih => exact ih (delivering_step before event)

theorem itemValues_map (output : List (Option JsonValue)) : itemValues (output.map .item) = output := by
  induction output with
  | nil => rfl
  | cons value rest ih =>
    rw [itemValues] at ih
    rw [itemValues, map_cons, filterMap_cons, ih]

theorem beforeTerminal_items (output : List (Option JsonValue)) (rest : List FrameBody) :
    beforeTerminal (output.map .item ++ .end_ :: rest) = output.map .item := by
  induction output with
  | nil => rfl
  | cons value output ih =>
    exact congrArg _ ih

/-- In every run the consumer is given the values received, in their order and each once. The stream ends
without an error only when all items before its end frame were given, or the caller has aborted or the
connection is closing; and a stream that has ended has its socket in no table. -/
theorem stream_delivered (streamId : Utf16) (maxFrames maxBytes : Nat) (events : List Event) :
    let s := after (initial streamId maxFrames maxBytes) events
    s.output <+: itemValues s.received ∧
      (Over s .ended → s.callerAborted = true ∨ s.closing = true ∨ Complete s) ∧
      ∀ outcome, s.phase = .done outcome → s.inTable = false := by
  intro s
  have now : Delivering s := delivering_after (delivering_initial streamId maxFrames maxBytes) events
  refine ⟨?_, fun finished => ?_, fun outcome done => now.released outcome (.inl done)⟩
  · have given := (given_output now).filterMap fun
      | .item value => some value
      | _ => none
    exact (itemValues_map s.output) ▸ given
  · refine (now.ended finished).imp_right (Or.imp_right fun ⟨rest, received⟩ => ?_)
    rw [append_assoc, singleton_append] at received
    rw [Complete, ← received]
    refine ⟨by simp, ?_⟩
    rw [beforeTerminal_items, itemValues_map]

/-- A frame as the peer writes it. -/
def frameMessage (members : List (String × JsonValue)) : SocketMessage where
  isBinary := false
  rawByteLength := .ok 40
  rawText := .ok (some (.object (members.map fun member => (Utf16.ofString member.1, member.2))))

/-- One value, then the end frame before the consumer looks again. -/
def shortRun : List Event :=
  [.read, .connected none none, .open_ true none,
    .message (frameMessage [("type", .string (Utf16.ofString "item")), ("streamId", .string (Utf16.ofString "s")),
      ("value", .bool true)]),
    .message (frameMessage [("type", .string (Utf16.ofString "end")), ("streamId", .string (Utf16.ofString "s"))]),
    .take false, .handle false, .read, .take false, .handle false, .close, .waited true, .cleaned]

example : (after (initial (Utf16.ofString "s") 2 80) shortRun).output = [some (.bool true)] ∧
    (after (initial (Utf16.ofString "s") 2 80) shortRun).phase = .done .ended := ⟨rfl, rfl⟩

end CodexHost.Guarantees.RemoteDelivery
