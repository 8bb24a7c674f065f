import CodexHost.Guarantees.IdleRelease

/-!
# Runs of operations, sweeps and releases
-/
namespace CodexHost.Guarantees.IdleRelease
open Foundation Source.HostRuntime.IdleRelease List Option Function State Kept

variable {id : String} {s' : State} {release : Release}

section Steps
variable {s : State}

theorem Sound.answered (sound : Sound s) {number : Nat} {thread : ExternalThread}
    (asked : s.sessions[number]? = some ⟨thread, none⟩) (answer : Except String Unit) :
    Sound { s with sessions := s.sessions.set number ⟨thread, some answer⟩ } := by
  refine ⟨sound.toAdmissions.frame rfl rfl rfl rfl, sound.candidates, ?_, ?_⟩
  · intro id release entry
    obtain ⟨named, candidate, known, is⟩ := sound.entries id release entry
    refine ⟨named, candidate, known, ?_⟩
    by_cases this : number = release.number
    · subst this
      rw [asked] at is
      simp only [getElem?_set_self' , asked]
      exact is
    · rwa [getElem?_set_ne this]
  · intro number' thread' is
    by_cases this : number = number'
    · subst this
      simp [getElem?_set_self', asked] at is
    · rw [getElem?_set_ne this] at is
      exact sound.open' number' thread' is

/-- The calls see only which Threads close, and under which numbers. -/
theorem Admissions.relabel (sound : Admissions s)
    (operations : s'.operations = s.operations) (calls : s'.calls = s.calls)
    (scheduled : s'.scheduled = s.scheduled)
    (closing : ∀ id, (s'.closing id).map (·.number) = (s.closing id).map (·.number)) :
    Admissions s' := by
  refine ⟨by rw [operations, calls]; exact sound.counted, ?_, ?_⟩
  · intro id closes
    rw [calls]
    refine sound.exclusive id ?_
    have same := congrArg Option.isSome (closing id)
    simpa [closes] using same.symm
  · rw [calls, scheduled]
    intro call member number waiting
    obtain ⟨request, id, same, rest⟩ := sound.waits call member number waiting
    refine ⟨request, id, same, ?_⟩
    rcases rest with ⟨release, entry, numbered⟩ | ⟨absent, none⟩
    · refine .inl ?_
      have labels := closing id
      rw [entry] at labels
      obtain ⟨release', entry', numbered'⟩ := map_eq_some_iff.mp labels
      exact ⟨release', entry', numbered'.trans numbered⟩
    · have labels := closing id
      rw [absent] at labels
      exact .inr ⟨by simpa using labels, none⟩

section
variable (sound : Sound s)
include sound

section
variable (entry : s.closing id = some release)
include entry

/-- The end of the race of `#close`: the Session answered, or its Thread has failed. -/
theorem Sound.settled
    (closing : s'.closing = Function.update s.closing id (some { release with settled := true }))
    (operations : s'.operations = s.operations) (calls : s'.calls = s.calls)
    (scheduled : s'.scheduled = s.scheduled) (sessions : s'.sessions = s.sessions) (kept : Kept s s')
    (closed : s.sessions[release.number]? = some ⟨release.thread, none⟩ →
      s'.failure release.thread = some CLOSE_FAILURE) : Sound s' := by
  refine ⟨sound.toAdmissions.relabel operations calls scheduled ?_, ?_, ?_, ?_⟩
  · intro key
    rw [closing]
    by_cases this : key = id
    · subst this
      simp [entry]
    · rw [update_of_ne this]
  · rw [scheduled]
    exact sound.candidates
  · intro key release' is
    rw [closing] at is
    rw [scheduled, sessions]
    by_cases this : key = id
    · subst this
      rw [update_self] at is
      cases is
      obtain ⟨named, candidate, known, asked⟩ := sound.entries key release entry
      exact ⟨named, candidate, kept.known _ known, asked⟩
    · rw [update_of_ne this] at is
      obtain ⟨named, candidate, known, asked⟩ := sound.entries key release' is
      exact ⟨named, candidate, kept.known _ known, asked⟩
  · intro number thread asked
    rw [sessions] at asked
    rw [closing]
    rcases sound.open' number thread asked with is | failed
    · by_cases this : thread.id = id
      · rw [this] at is
        rw [entry, some_inj] at is
        subst is
        exact .inr (closed asked)
      · rw [update_of_ne this]
        exact .inl is
    · exact .inr (kept.failed thread failed)

theorem Sound.released {timedOut : Bool} {answer : Except String Unit}
    (raced : s.raced release timedOut = some answer) :
    Sound ({ s with
      closing := Function.update s.closing id (some { release with settled := true })
    }.conclude release.thread answer) := by
  obtain ⟨-, -, known, -⟩ := sound.entries id release entry
  cases answer with
  | error error =>
    refine sound.settled entry rfl rfl rfl rfl rfl ?_ fun _ => ?_
    · exact Kept.of_update rfl (fun known => by simpa using known) fun before is fails => by
        rw [is]
        exact ⟨_, rfl, rfl⟩
    · rw [failure_iff]
      obtain ⟨activity, is⟩ := isSome_iff_exists.mp known
      exact ⟨{ activity with closeFailed := true }, by
        simp [State.conclude, State.retire, State.amend, is], rfl⟩
  | ok value =>
    have unanswered : s.sessions[release.number]? ≠ some ⟨release.thread, none⟩ := by
      intro asked
      simp only [State.raced, asked, bind_some] at raced
      split at raced <;> cases raced
    simp only [State.conclude, State.retire]
    split
    · next s' is =>
      split at is
      · cases is
      · split at is
        · cases is
        · cases is
          exact sound.settled entry rfl rfl rfl rfl rfl (Kept.of_eq rfl)
            fun asked => absurd asked unanswered
    · refine sound.settled entry rfl rfl rfl rfl rfl ?_ fun asked => absurd asked unanswered
      exact Kept.of_update rfl (fun known => by simpa using known) fun before is fails => by
        rw [is]
        exact ⟨_, rfl, rfl⟩

theorem Sound.unlock (settled : release.settled = true) :
    Sound { s with
      closing := Function.update s.closing id none
      scheduled := Function.update s.scheduled id none } := by
  refine ⟨⟨sound.counted, ?_, ?_⟩, ?_, ?_, ?_⟩
  · intro key closes
    by_cases this : key = id
    · subst this
      simp at closes
    · simp only [update_of_ne this] at closes
      exact sound.exclusive key closes
  · intro call member number waiting
    obtain ⟨request, key, same, rest⟩ := sound.waits call member number waiting
    refine ⟨request, key, same, ?_⟩
    by_cases this : key = id
    · subst this
      exact .inr ⟨update_self .., update_self ..⟩
    · simpa only [update_of_ne this] using rest
  · intro key thread candidate
    by_cases this : key = id
    · subst this
      simp at candidate
    · simp only [update_of_ne this] at candidate
      exact sound.candidates key thread candidate
  · intro key release' is
    by_cases this : key = id
    · subst this
      simp at is
    · simp only [update_of_ne this] at is ⊢
      exact sound.entries key release' is
  · intro number thread asked
    refine (sound.open' number thread asked).imp_left fun is => ?_
    have this : thread.id ≠ id := by
      rintro rfl
      rw [entry, some_inj] at is
      subst is
      cases settled
    simpa only [update_of_ne this] using is

end

/-- Events that leave the calls and the releases alone. -/
theorem Sound.frame (operations : s'.operations = s.operations)
    (calls : s'.calls = s.calls) (closing : s'.closing = s.closing)
    (scheduled : s'.scheduled = s.scheduled) (sessions : s'.sessions = s.sessions)
    (kept : Kept s s') : Sound s' :=
  ⟨sound.toAdmissions.frame operations calls closing scheduled,
    sound.toReleases.frame closing scheduled sessions kept⟩

theorem Sound.append {call : Operation} (fits : Fits s call) :
    Sound { s.count call.id call.stage with calls := s.calls ++ [call] } := by
  obtain ⟨-, closing, scheduled, sessions, activity⟩ := count_rest s call.id call.stage
  exact ⟨sound.toAdmissions.append fits,
    sound.toReleases.frame closing scheduled sessions (of_eq activity)⟩

theorem step_sound {event : Event} (steps : step s event = some s') : Sound s' := by
  cases event with
  | configure settings =>
    simp only [step, some_inj] at steps
    subst steps
    split
    · exact sound.frame rfl rfl rfl rfl rfl (Kept.of_eq rfl)
    · exact sound
  | touch thread =>
    cases steps
    exact sound.frame rfl rfl rfl rfl rfl (kept_touch s thread)
  | outputFailed thread =>
    cases steps
    exact sound.frame rfl rfl rfl rfl rfl (kept_outputFailed s thread)
  | clearOutputFailed thread =>
    cases steps
    have fields : (s.clearOutputFailed thread).operations = s.operations ∧
        (s.clearOutputFailed thread).calls = s.calls ∧
        (s.clearOutputFailed thread).closing = s.closing ∧
        (s.clearOutputFailed thread).scheduled = s.scheduled ∧
        (s.clearOutputFailed thread).sessions = s.sessions := by
      unfold State.clearOutputFailed
      split <;> exact ⟨rfl, rfl, rfl, rfl, rfl⟩
    obtain ⟨operations, calls, closing, scheduled, sessions⟩ := fields
    exact sound.frame operations calls closing scheduled sessions (kept_clearOutputFailed s thread)
  | run id =>
    simp only [step, some_inj] at steps
    subst steps
    have fits : Fits s ⟨id, false,
        if s.stopped then .refused "Host is shutting down" else s.admission id⟩ := by
      cases s.stopped with
      | true => exact ⟨by rintro ⟨⟩, by rintro _ ⟨⟩⟩
      | false => exact admission_fits s id
    exact sound.append fits
  | resume call =>
    simp only [step] at steps
    split at steps
    · next operation here =>
      split at steps
      · next woken =>
        cases steps
        cases waiting : operation.stage with
        | waiting number =>
          refine ⟨sound.toAdmissions.resume here waiting, ?_⟩
          obtain ⟨-, closing, scheduled, sessions, activity⟩ :=
            count_rest s operation.id (s.admission operation.id)
          exact sound.toReleases.frame closing scheduled sessions (Kept.of_eq activity)
        | admitted | finished | refused message => simp [State.woken, waiting] at woken
      · cases steps
    · cases steps
  | consume thread =>
    cases steps
    have touched : Sound (s.touch thread) :=
      sound.frame rfl rfl rfl rfl rfl (kept_touch s thread)
    exact @Sound.append (s.touch thread) touched ⟨some thread.id, true, .admitted⟩ ⟨by rintro - ⟨⟩, by rintro _ ⟨⟩⟩
  | settle call =>
    simp only [step] at steps
    split at steps
    · next operation here =>
      split at steps
      · next admitted =>
        cases steps
        refine ⟨sound.toAdmissions.settle here admitted, ?_⟩
        obtain ⟨-, closing, scheduled, sessions⟩ := leave_rest s operation.id
        obtain ⟨known, failed⟩ := kept_leave s operation.id
        exact sound.toReleases.frame closing scheduled sessions ⟨known, failed⟩
      · cases steps
    · cases steps
  | check =>
    simp only [step] at steps
    split at steps
    · cases steps
    · next idle =>
      cases steps
      exact sound.check (Bool.eq_false_iff.mpr idle)
  | release id =>
    simp only [step] at steps
    split at steps
    · next thread candidate vacant =>
      cases steps
      split
      · next eligible => exact sound.close candidate eligible
      · exact sound.unschedule vacant
    · cases steps
  | sessionClosed number answer =>
    simp only [step] at steps
    split at steps
    · next thread asked =>
      cases steps
      exact sound.answered asked answer
    · cases steps
  | released id timedOut =>
    simp only [step] at steps
    split at steps
    · next release entry =>
      split at steps
      · cases steps
      · obtain ⟨answer, raced, rfl⟩ := map_eq_some_iff.mp steps
        exact sound.released entry raced
    · cases steps
  | unlock id =>
    simp only [step] at steps
    split at steps
    · next release entry =>
      split at steps
      · next settled =>
        cases steps
        exact sound.unlock entry settled
      · cases steps
    · cases steps
  | disable | stop | threads threads | facts thread facts | clock now =>
    cases steps
    exact sound.frame rfl rfl rfl rfl rfl (Kept.of_eq rfl)

end

end Steps

section Runs
variable {threads : List ExternalThread} {facts : ExternalThread → ThreadFacts} {now : Int}
  {events : List Event} {s : State}

theorem initial_sound : Sound (initial threads facts now) :=
  ⟨⟨fun _ => rfl, nofun, nofun⟩, nofun, nofun, nofun⟩

theorem reached_sound (run : Reaches threads facts now events s) : Sound s :=
  run.invariant initial_sound fun _ _ _ sound steps => step_sound sound steps

theorem conclude_closing (thread : ExternalThread) (answer : Except String Unit) :
    (s.conclude thread answer).closing = s.closing := by
  cases answer with
  | error error => rfl
  | ok value =>
    simp only [conclude, retire]
    split
    · next s' is =>
      split at is
      · cases is
      · split at is
        · cases is
        · cases is
          rfl
    · rfl

/-- Only the job of an eligible candidate makes an entry of `#closing`. -/
theorem closing_begins {event : Event} (steps : step s event = some s')
    (vacant : s.closing id = none) (closes : (s'.closing id).isSome) :
    ∃ thread : ExternalThread, thread.id = id ∧ s.eligible thread = true := by
  have same : s'.closing = s.closing → ∃ thread : ExternalThread,
      thread.id = id ∧ s.eligible thread = true := by
    intro same
    rw [same, vacant] at closes
    cases closes
  cases event with
  | configure settings =>
    simp only [step, some_inj] at steps
    subst steps
    split at same <;> exact same rfl
  | clearOutputFailed thread =>
    cases steps
    refine same ?_
    unfold clearOutputFailed
    split <;> rfl
  | run key =>
    simp only [step, some_inj] at steps
    subst steps
    exact same (count_rest ..).2.1
  | resume call =>
    simp only [step] at steps
    split at steps
    · split at steps
      · cases steps
        exact same (count_rest ..).2.1
      · cases steps
    · cases steps
  | settle call =>
    simp only [step] at steps
    split at steps
    · split at steps
      · cases steps
        exact same (leave_rest ..).2.1
      · cases steps
    · cases steps
  | check =>
    simp only [step] at steps
    split at steps
    · cases steps
    · cases steps
      obtain ⟨scheduled, is, -⟩ := schedule_spec s.threads s
      exact same (by rw [is])
  | release key =>
    simp only [step] at steps
    split at steps
    · next thread candidate free =>
      cases steps
      split at closes
      · next eligible =>
        by_cases this : id = thread.id
        · exact ⟨thread, this.symm, eligible⟩
        · simp only [close, update_of_ne this, vacant] at closes
          cases closes
      · rw [vacant] at closes
        cases closes
    · cases steps
  | sessionClosed number answer =>
    simp only [step] at steps
    split at steps
    · cases steps
      exact same rfl
    · cases steps
  | released key timedOut =>
    simp only [step] at steps
    split at steps
    · next release entry =>
      split at steps
      · cases steps
      · obtain ⟨answer, -, rfl⟩ := map_eq_some_iff.mp steps
        have this : id ≠ key := by
          rintro rfl
          rw [vacant] at entry
          cases entry
        rw [conclude_closing] at closes
        simp only [update_of_ne this, vacant] at closes
        cases closes
    · cases steps
  | unlock key =>
    simp only [step] at steps
    split at steps
    · split at steps
      · cases steps
        by_cases this : id = key
        · subst this
          simp at closes
        · simp only [update_of_ne this, vacant] at closes
          cases closes
      · cases steps
    · cases steps
  | touch thread | outputFailed thread | consume thread | disable | stop | threads threads
  | facts thread facts | clock now =>
    cases steps
    exact same rfl

theorem release_ends (entry : s.closing id = some release) :
    if release.settled then ∃ s', step s (.unlock id) = some s' ∧ s'.closing id = none
    else ∃ timedOut s', step s (.released id timedOut) = some s' ∧
      s'.closing id = some { release with settled := true } := by
  cases settled : release.settled with
  | true =>
    refine ⟨{ s with
      closing := Function.update s.closing id none
      scheduled := Function.update s.scheduled id none }, by simp [step, entry, settled], ?_⟩
    exact update_self ..
  | false =>
    have raced : ∃ timedOut answer, s.raced release timedOut = some answer := by
      unfold raced
      split
      · next answer is => exact ⟨false, answer, rfl⟩
      · exact ⟨true, _, rfl⟩
    obtain ⟨timedOut, answer, raced⟩ := raced
    refine ⟨timedOut, ({ s with
      closing := Function.update s.closing id (some { release with settled := true })
    }.conclude release.thread answer), by simp [step, entry, settled, raced], ?_⟩
    rw [conclude_closing]
    exact update_self ..

/-- A call that waits does so for a release under way, or it is ready to go on. -/
theorem waiting_ready (sound : Sound s) {call : Nat} {operation : Operation}
    (here : s.calls[call]? = some operation) {number : Nat}
    (waiting : operation.stage = .waiting number) : ∃ id, operation.id = some id ∧
      ((∃ release, s.closing id = some release ∧ release.number = number) ∨
        ∃ s', step s (.resume call) = some s' ∧ s'.calls[call]? = some { operation with
          stage := if s.stopped then .refused "Host is shutting down" else .admitted }) := by
  obtain ⟨-, id, same, entry | ⟨absent, -⟩⟩ :=
    sound.waits operation (mem_of_getElem? here) number waiting
  · exact ⟨id, same, .inl entry⟩
  · refine ⟨id, same, .inr ?_⟩
    have woken : s.woken operation = true := by simp [woken, waiting, same, absent]
    have admission : s.admission operation.id =
        if s.stopped then .refused "Host is shutting down" else .admitted := by
      simp [admission, same, absent]
    refine ⟨(s.count operation.id (s.admission operation.id)).setStage call operation
      (s.admission operation.id), by simp only [step, here, woken, if_true], ?_⟩
    rw [setStage, (count_rest ..).1, admission]
    simp [getElem?_set_self', here]

/-- In every run: while the entry of a release is there, no operation on its Thread is admitted;
a Session whose closing outlasts its release leaves the Thread failed; a release begins only when
nothing is admitted on its Thread; and a waiting operation either waits for a release under way,
which comes to its end, or is about to be admitted, unless the Host shuts down. -/
theorem operations_exclude_release (run : Reaches threads facts now events s) :
    (∀ id, (s.closing id).isSome → ∀ call ∈ s.calls, call.id = some id → call.consumes = false →
      call.stage ≠ .admitted) ∧
    (∀ number thread, s.sessions[number]? = some ⟨thread, none⟩ →
      s.closing thread.id = some ⟨number, thread, false⟩ ∨ s.failure thread = some CLOSE_FAILURE) ∧
    (∀ event s' id, step s event = some s' → s.closing id = none → (s'.closing id).isSome →
      ∀ call ∈ s.calls, call.id = some id → call.stage ≠ .admitted) ∧
    (∀ call operation number, s.calls[call]? = some operation → operation.stage = .waiting number →
      ∃ id, operation.id = some id ∧ ((∃ release, s.closing id = some release ∧ release.number = number) ∨
          ∃ s', step s (.resume call) = some s' ∧ s'.calls[call]? = some { operation with
            stage := if s.stopped then .refused "Host is shutting down" else .admitted })) ∧
    (∀ id release, s.closing id = some release →
      if release.settled then ∃ s', step s (.unlock id) = some s' ∧ s'.closing id = none
      else ∃ timedOut s', step s (.released id timedOut) = some s' ∧
        s'.closing id = some { release with settled := true }) := by
  have sound := reached_sound run
  refine ⟨sound.exclusive, sound.open', ?_, fun call operation number here waiting =>
    waiting_ready sound here waiting, fun id release entry => release_ends entry⟩
  intro event s' id steps vacant closes call member same admitted
  obtain ⟨thread, rfl, eligible⟩ := closing_begins steps vacant closes
  have unused := (eligible_free eligible).1
  rw [sound.counted, tally] at unused
  have one : 0 < s.calls.countP (admittedOf thread.id) :=
    countP_pos_iff.mpr ⟨call, member, by simp [admittedOf, same, admitted]⟩
  rw [if_neg (Nat.pos_iff_ne_zero.mp one)] at unused
  cases unused

end Runs

/-- One idle Thread. -/
def sampleThread : ExternalThread := ⟨"thread", 0⟩

def sampleFacts (_ : ExternalThread) : ThreadFacts :=
  { subagent := false, recordState := "ready", nativeSessionRef := some "native",
    persistenceError := none, running := false, activeTurnId := none, canRelease := true }

/-- The Thread is idle for ten minutes, and its release begins. -/
def sampleStart : List Event :=
  [.touch sampleThread, .configure ⟨true, 10⟩, .clock 600000, .check, .release "thread"]

def sampleRun (events : List Event) : Option State :=
  (sampleStart ++ events).foldlM step (initial [sampleThread] sampleFacts 0)

theorem operations_exclude_release_sample : ∃ s : State,
    Reaches [sampleThread] sampleFacts 0 (sampleStart ++ [.run (some "thread")]) s ∧
      (s.closing "thread").isSome ∧ s.calls.map (·.stage) = [.waiting 0] ∧
      ∀ call ∈ s.calls, call.id = some "thread" → call.consumes = false → call.stage ≠ .admitted := by
  obtain ⟨s, is⟩ := isSome_iff_exists.mp (show (sampleRun [.run (some "thread")]).isSome = true by decide)
  have run : Reaches [sampleThread] sampleFacts 0 _ s := Run.of_foldlM is
  have closes : (s.closing "thread").isSome = true ∧ s.calls.map (·.stage) = [.waiting 0] := by
    have shown : ∀ s', sampleRun [.run (some "thread")] = some s' →
        (s'.closing "thread").isSome = true ∧ s'.calls.map (·.stage) = [.waiting 0] := by
      intro s' is'
      cases is'
      decide
    exact shown s is
  exact ⟨s, run, closes.1, closes.2, (operations_exclude_release run).1 "thread" closes.1⟩

/-- When the Host shuts down, an operation that waits for a release is refused after it; and
after the timeout of a release an operation is admitted while the Session is still closing. -/
theorem operations_after_release :
    ((sampleRun [.run (some "thread"), .stop, .sessionClosed 0 (.ok ()), .released "thread" false,
      .unlock "thread", .resume 0]).map fun s => s.calls.map (·.stage)) =
        some [.refused "Host is shutting down"] ∧
    ((sampleRun [.run (some "thread"), .released "thread" true, .unlock "thread",
      .resume 0]).map fun s => (s.calls.map (·.stage), s.sessions.map (·.answer.isNone))) =
        some ([.admitted], [true]) := by
  decide

end CodexHost.Guarantees.IdleRelease
