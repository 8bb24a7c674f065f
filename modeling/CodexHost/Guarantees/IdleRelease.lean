import CodexHost.Source.HostRuntime.ExternalThreadIdleRelease

/-!
# Operations and the release of idle Sessions

`#operations` counts the admitted calls of each Thread, so a release finds it empty exactly when
none runs, and the entry of `#closing` keeps the later ones out. A call that waits is woken by the
end of the release it waits for; the event loop resumes it before another sweep can begin.
-/
namespace CodexHost.Guarantees.IdleRelease
open Foundation Source.HostRuntime.IdleRelease List Option Function State

/-- An entry of `#operations` for so many calls. -/
def tally (n : Nat) : Option Nat := if n = 0 then none else some n

def admittedOf (id : String) (call : Operation) : Bool :=
  call.id = some id && call.stage = .admitted

section Fields
variable (s : State) (thread : ExternalThread)

@[simp] theorem enter_operations (id : Option String) (key : String) : (s.enter id).operations key =
      if id = some key then some ((s.operations key).getD 0 + 1) else s.operations key := by
  cases id with
  | none => rfl
  | some id =>
    by_cases same : id = key
    · subst same
      simp [enter]
    · simp [enter, same, update_of_ne (Ne.symm same)]

theorem touchLoaded_rest (id : String) : (s.touchLoaded id).operations = s.operations ∧
    (s.touchLoaded id).calls = s.calls ∧ (s.touchLoaded id).closing = s.closing ∧
    (s.touchLoaded id).scheduled = s.scheduled ∧ (s.touchLoaded id).sessions = s.sessions := by
  unfold touchLoaded
  split <;> exact ⟨rfl, rfl, rfl, rfl, rfl⟩

@[simp] theorem leave_operations (id : Option String) (key : String) : (s.leave id).operations key =
      if id = some key then tally ((s.operations key).getD 1 - 1) else s.operations key := by
  cases id with
  | none => rfl
  | some id =>
    simp only [leave, tally]
    split
    · by_cases same : id = key
      · simp_all
      · simp [same, update_of_ne (Ne.symm same)]
    · rw [(touchLoaded_rest _ _).1]
      by_cases same : id = key
      · simp_all
      · simp [same, update_of_ne (Ne.symm same)]

theorem enter_rest (id : Option String) : (s.enter id).calls = s.calls ∧
    (s.enter id).closing = s.closing ∧ (s.enter id).scheduled = s.scheduled ∧
    (s.enter id).sessions = s.sessions ∧ (s.enter id).activity = s.activity := by
  cases id <;> exact ⟨rfl, rfl, rfl, rfl, rfl⟩

theorem leave_rest (id : Option String) : (s.leave id).calls = s.calls ∧
    (s.leave id).closing = s.closing ∧ (s.leave id).scheduled = s.scheduled ∧
    (s.leave id).sessions = s.sessions := by
  cases id with
  | none => exact ⟨rfl, rfl, rfl, rfl⟩
  | some id =>
    simp only [leave]
    split
    · exact ⟨rfl, rfl, rfl, rfl⟩
    · exact (touchLoaded_rest _ id).2

end Fields

/-- What `#operations` and the calls have to do with `#closing`. -/
structure Admissions (s : State) : Prop where
  counted : ∀ id, s.operations id = tally (s.calls.countP (admittedOf id))
  exclusive : ∀ id, (s.closing id).isSome → ∀ call ∈ s.calls, call.id = some id →
    call.consumes = false → call.stage ≠ .admitted
  waits : ∀ call ∈ s.calls, ∀ number, call.stage = .waiting number → call.consumes = false ∧
    ∃ id, call.id = some id ∧ ((∃ release, s.closing id = some release ∧ release.number = number) ∨
      (s.closing id = none ∧ s.scheduled id = none))

variable {s' : State} {id : String}

section Admission
variable {s : State}

theorem Admissions.frame (sound : Admissions s) (operations : s'.operations = s.operations)
    (calls : s'.calls = s.calls) (closing : s'.closing = s.closing)
    (scheduled : s'.scheduled = s.scheduled) : Admissions s' := by
  obtain ⟨counted, exclusive, waits⟩ := sound
  exact ⟨by rwa [operations, calls], by rwa [closing, calls], by rwa [closing, calls, scheduled]⟩

theorem tally_add (n : Nat) : tally (n + 1) = some ((tally n).getD 0 + 1) := by
  cases n <;> rfl

theorem tally_sub {n : Nat} (positive : 0 < n) : tally ((tally n).getD 1 - 1) = tally (n - 1) := by
  have some : tally n = some n := if_neg (Nat.pos_iff_ne_zero.mp positive)
  rw [some]
  rfl

/-- A call that is new, or that is resumed, is admitted to no Thread that closes. -/
theorem admission_cases (s : State) (id : Option String) :
    (∃ release key, id = some key ∧ s.closing key = some release ∧ s.admission id = .waiting release.number) ∨
    ((∀ key, id = some key → s.closing key = none) ∧
      s.admission id = if s.stopped then .refused "Host is shutting down" else .admitted) := by
  cases id with
  | none => exact .inr ⟨fun key absent => (nomatch absent), rfl⟩
  | some id =>
    cases entry : s.closing id with
    | none =>
      refine .inr ⟨fun key same => ?_, ?_⟩
      · rw [← some_inj.mp same]
        exact entry
      · simp [admission, entry]
    | some release => exact .inl ⟨release, id, rfl, entry, by simp [admission, entry]⟩

/-- The stage that a call may take: one that fits the entries of `#closing`. -/
def Fits (s : State) (call : Operation) : Prop :=
  (call.stage = .admitted → call.consumes = false → ∀ id, call.id = some id → s.closing id = none) ∧
    ∀ number, call.stage = .waiting number → call.consumes = false ∧
      ∃ id release, call.id = some id ∧ s.closing id = some release ∧ release.number = number

theorem admission_fits (s : State) (id : Option String) : Fits s ⟨id, false, s.admission id⟩ := by
  rcases admission_cases s id with ⟨release, key, rfl, entry, waiting⟩ | ⟨open', stage⟩
  · refine ⟨fun admitted => ?_, fun number isWaiting => ?_⟩
    · rw [waiting] at admitted
      cases admitted
    · rw [waiting] at isWaiting
      cases isWaiting
      exact ⟨rfl, key, release, rfl, entry, rfl⟩
  · refine ⟨fun _ _ => open', fun number isWaiting => ?_⟩
    rw [stage] at isWaiting
    split at isWaiting <;> cases isWaiting

theorem count_admitted (s : State) (id : Option String) (stage : OperationStage) (key : String) :
    (s.count id stage).operations key =
      if stage = .admitted ∧ id = some key then some ((s.operations key).getD 0 + 1)
      else s.operations key := by
  unfold State.count
  split
  · next admitted => simp [admitted]
  · next other => simp [other]

theorem count_rest (s : State) (id : Option String) (stage : OperationStage) :
    (s.count id stage).calls = s.calls ∧ (s.count id stage).closing = s.closing ∧
      (s.count id stage).scheduled = s.scheduled ∧ (s.count id stage).sessions = s.sessions ∧
      (s.count id stage).activity = s.activity := by
  unfold State.count
  split
  · exact enter_rest s id
  · exact ⟨rfl, rfl, rfl, rfl, rfl⟩

/-- A call more. -/
theorem Admissions.append (sound : Admissions s) {call : Operation} (fits : Fits s call) :
    Admissions { s.count call.id call.stage with calls := s.calls ++ [call] } := by
  obtain ⟨-, closing, scheduled, -⟩ := count_rest s call.id call.stage
  constructor
  · intro id
    show (s.count call.id call.stage).operations id = _
    rw [count_admitted, sound.counted id, countP_append, countP_singleton]
    by_cases admitted : call.stage = .admitted ∧ call.id = some id
    · rw [if_pos admitted, if_pos (by simp [admittedOf, admitted]), tally_add]
    · rw [if_neg admitted, if_neg (by simpa [admittedOf, and_comm] using admitted), Nat.add_zero]
  · intro id closes given member
    rw [show (State.closing _) = s.closing from closing] at closes
    rcases mem_append.mp member with before | last
    · exact sound.exclusive id closes given before
    · cases mem_singleton.mp last
      intro same request admitted
      rw [fits.1 admitted request id same] at closes
      cases closes
  · intro given member number waiting
    rcases mem_append.mp member with before | last
    · obtain ⟨request, id, same, rest⟩ := sound.waits given before number waiting
      exact ⟨request, id, same, by simpa only [closing, scheduled] using rest⟩
    · cases mem_singleton.mp last
      obtain ⟨request, id, release, same, entry, numbered⟩ := fits.2 number waiting
      exact ⟨request, id, same, .inl ⟨release, by rw [closing]; exact entry, numbered⟩⟩

/-- The state of the calls after one of them moves on. -/
theorem Admissions.move (sound : Admissions s) {call : Nat} {operation : Operation}
    {stage : OperationStage} {s' : State}
    (closing : s'.closing = s.closing) (scheduled : s'.scheduled = s.scheduled)
    (calls : s'.calls = s.calls.set call { operation with stage := stage })
    (fits : Fits s { operation with stage := stage })
    (counted : ∀ id, s'.operations id = tally (s'.calls.countP (admittedOf id))) :
    Admissions s' := by
  refine ⟨counted, ?_, ?_⟩
  · intro id closes given member
    rw [closing] at closes
    rw [calls] at member
    rcases mem_or_eq_of_mem_set member with before | rfl
    · exact sound.exclusive id closes given before
    · intro same request admitted
      rw [fits.1 admitted request id same] at closes
      cases closes
  · intro given member number waiting
    rw [calls] at member
    rw [closing, scheduled]
    rcases mem_or_eq_of_mem_set member with before | rfl
    · exact sound.waits given before number waiting
    · obtain ⟨request, id, release, same, entry, numbered⟩ := fits.2 number waiting
      exact ⟨request, id, same, .inl ⟨release, entry, numbered⟩⟩

variable {call : Nat} {operation : Operation}

/-- How many calls of a Thread are admitted once one of them has another stage. -/
theorem countP_stage (calls : List Operation)
    (here : calls[call]? = some operation) (stage : OperationStage) (id : String) :
    (calls.set call { operation with stage := stage }).countP (admittedOf id) =
      calls.countP (admittedOf id) - (if admittedOf id operation then 1 else 0) +
        (if operation.id = some id ∧ stage = .admitted then 1 else 0) := by
  obtain ⟨inside, rfl⟩ := List.getElem?_eq_some_iff.mp here
  rw [List.countP_set inside]
  simp [admittedOf]

theorem countP_pos {calls : List Operation}
    (here : calls[call]? = some operation) (admitted : admittedOf id operation = true) :
    0 < calls.countP (admittedOf id) :=
  countP_pos_iff.mpr ⟨operation, mem_of_getElem? here, admitted⟩

theorem Admissions.resume (sound : Admissions s) (here : s.calls[call]? = some operation) {number : Nat}
    (waiting : operation.stage = .waiting number) :
    Admissions ((s.count operation.id (s.admission operation.id)).setStage call operation
      (s.admission operation.id)) := by
  obtain ⟨calls, closing, scheduled, -⟩ := count_rest s operation.id (s.admission operation.id)
  have moved : ((s.count operation.id (s.admission operation.id)).setStage call operation
      (s.admission operation.id)).calls =
      s.calls.set call { operation with stage := s.admission operation.id } := by
    simp only [setStage, calls]
  have fits := admission_fits s operation.id
  have request := (sound.waits _ (mem_of_getElem? here) number waiting).1
  refine sound.move closing scheduled moved ⟨?_, ?_⟩ fun id => ?_
  · intro admitted _
    exact fits.1 admitted rfl
  · intro number' waits
    exact ⟨request, (fits.2 number' waits).2⟩
  · rw [moved, countP_stage _ here, show admittedOf id operation = false by
      simp [admittedOf, waiting]]
    show (s.count operation.id (s.admission operation.id)).operations id = _
    rw [count_admitted, sound.counted id]
    simp only [Bool.false_eq_true, if_false, Nat.sub_zero]
    by_cases admitted : s.admission operation.id = .admitted ∧ operation.id = some id
    · rw [if_pos admitted, if_pos admitted.symm]
      exact (tally_add _).symm
    · rw [if_neg admitted, if_neg fun both => admitted both.symm]
      rfl

theorem Admissions.settle (sound : Admissions s)
    (here : s.calls[call]? = some operation) (admitted : operation.stage = .admitted) :
    Admissions ((s.leave operation.id).setStage call operation .finished) := by
  obtain ⟨calls, closing, scheduled, -⟩ := leave_rest s operation.id
  have moved : ((s.leave operation.id).setStage call operation .finished).calls =
      s.calls.set call { operation with stage := .finished } := by
    simp only [setStage, calls]
  refine sound.move closing scheduled moved ⟨nofun, nofun⟩ fun id => ?_
  rw [moved, countP_stage _ here]
  show (s.leave operation.id).operations id = _
  rw [leave_operations, sound.counted id]
  by_cases same : operation.id = some id
  · have isAdmitted : admittedOf id operation = true := by simp [admittedOf, same, admitted]
    rw [if_pos same, isAdmitted, tally_sub (countP_pos here isAdmitted)]
    simp
  · have other : admittedOf id operation = false := by simp [admittedOf, same]
    rw [if_neg same, other]
    simp

end Admission

/-- What the entries of `#closing` and the candidates of a sweep have to do with each other, and
a Session that does not close in time with the failure of its Thread. -/
structure Releases (s : State) : Prop where
  candidates : ∀ id thread, s.scheduled id = some thread → thread.id = id
  entries : ∀ id release, s.closing id = some release → release.thread.id = id ∧
    s.scheduled id = some release.thread ∧ (s.activity release.thread).isSome ∧
    (s.sessions[release.number]?).map (·.thread) = some release.thread
  open' : ∀ number thread, s.sessions[number]? = some ⟨thread, none⟩ →
    s.closing thread.id = some ⟨number, thread, false⟩ ∨ s.failure thread = some CLOSE_FAILURE

section Release
variable {s : State}

theorem failure_iff (s : State) (thread : ExternalThread) : s.failure thread = some CLOSE_FAILURE ↔
      ∃ activity, s.activity thread = some activity ∧ activity.closeFailed = true := by
  unfold State.failure
  cases s.activity thread <;> simp

/-- Later activity of a Thread. -/
structure Kept (s s' : State) : Prop where
  known : ∀ thread, (s.activity thread).isSome → (s'.activity thread).isSome
  failed : ∀ thread, s.failure thread = some CLOSE_FAILURE → s'.failure thread = some CLOSE_FAILURE

theorem Kept.of_eq (same : s'.activity = s.activity) : Kept s s' := by
  refine ⟨fun thread => ?_, fun thread => ?_⟩
  · rw [same]
    exact id
  · rw [failure_iff, failure_iff, same]
    exact id

/-- An update of the activity of one Thread that forgets neither it nor its failure. -/
theorem Kept.of_update {thread : ExternalThread} {activity : Option Activity}
    (updated : s'.activity = Function.update s.activity thread activity)
    (known : (s.activity thread).isSome → activity.isSome)
    (failed : ∀ before, s.activity thread = some before → before.closeFailed = true →
      ∃ after, activity = some after ∧ after.closeFailed = true) : Kept s s' := by
  refine ⟨fun other isKnown => ?_, fun other isFailed => ?_⟩
  · rw [updated]
    by_cases same : other = thread
    · subst same
      rw [update_self]
      exact known isKnown
    · rwa [update_of_ne same]
  · rw [failure_iff] at isFailed ⊢
    rw [updated]
    by_cases same : other = thread
    · subst same
      rw [update_self]
      obtain ⟨before, is, fails⟩ := isFailed
      exact failed before is fails
    · rwa [update_of_ne same]

theorem kept_touch (s : State) (thread : ExternalThread) : Kept s (s.touch thread) := by
  refine Kept.of_update rfl (fun _ => rfl) fun before is fails => ?_
  rw [is]
  exact ⟨_, rfl, fails⟩

theorem kept_amend (s : State) (thread : ExternalThread) {change : Activity → Activity}
    (keeps : ∀ activity, activity.closeFailed = true → (change activity).closeFailed = true) :
    Kept s (s.amend thread change) := by
  refine Kept.of_update rfl (fun known => by simpa using known) fun before is fails => ?_
  rw [is]
  exact ⟨_, rfl, keeps before fails⟩

theorem kept_outputFailed (s : State) (thread : ExternalThread) : Kept s (s.outputFailed thread) := by
  have touched := kept_touch s thread
  have amended : Kept (s.touch thread) ((s.touch thread).amend thread
      ({ · with outputFailed := true })) := kept_amend _ thread fun _ failed => failed
  exact ⟨fun other known => amended.known other (touched.known other known),
    fun other failed => amended.failed other (touched.failed other failed)⟩

theorem kept_clearOutputFailed (s : State) (thread : ExternalThread) :
    Kept s (s.clearOutputFailed thread) := by
  unfold clearOutputFailed
  split
  · exact kept_amend s thread fun _ failed => failed
  · exact kept_touch s thread

theorem kept_leave (s : State) (id : Option String) : Kept s (s.leave id) := by
  cases id with
  | none => exact Kept.of_eq rfl
  | some id =>
    simp only [leave]
    split
    · exact Kept.of_eq rfl
    · unfold touchLoaded
      split
      · exact Kept.of_update rfl (fun _ => rfl) fun before is fails => by
          rw [is]
          exact ⟨_, rfl, fails⟩
      · exact Kept.of_eq rfl

theorem Releases.frame (sound : Releases s) (closing : s'.closing = s.closing)
    (scheduled : s'.scheduled = s.scheduled) (sessions : s'.sessions = s.sessions)
    (kept : Kept s s') : Releases s' := by
  refine ⟨by rw [scheduled]; exact sound.candidates, ?_, ?_⟩
  · rw [closing, scheduled, sessions]
    intro id release entry
    obtain ⟨named, candidate, known, asked⟩ := sound.entries id release entry
    exact ⟨named, candidate, kept.known _ known, asked⟩
  · rw [closing, sessions]
    intro number thread asked
    exact (sound.open' number thread asked).imp_right (kept.failed thread)

end Release

/-- What `#eligible` finds. -/
theorem eligible_free {s : State} {thread : ExternalThread} (eligible : s.eligible thread = true) :
    s.operations thread.id = none ∧ s.closing thread.id = none ∧ (s.activity thread).isSome := by
  simp only [State.eligible, Bool.and_eq_true, isNone_iff_eq_none] at eligible
  obtain ⟨⟨⟨⟨⟨⟨⟨⟨⟨⟨⟨-, known⟩, -⟩, closing⟩, operations⟩, -⟩, -⟩, -⟩, -⟩, -⟩, -⟩, -⟩ := eligible
  refine ⟨operations, closing, ?_⟩
  cases activity : s.activity thread with
  | none =>
    rw [activity] at known
    cases known
  | some activity => rfl

structure Sound (s : State) : Prop extends Admissions s, Releases s

section Steps
variable {s : State}

/-- Nothing that waits and is woken is there when a sweep begins. -/
theorem not_woken_entry (sound : Admissions s) (idle : s.calls.any s.woken = false)
    {call : Operation} (member : call ∈ s.calls) {number : Nat} (waiting : call.stage = .waiting number) :
    ∃ id release, call.id = some id ∧ s.closing id = some release ∧ release.number = number := by
  obtain ⟨-, id, same, ⟨release, entry, numbered⟩ | ⟨absent, -⟩⟩ := sound.waits call member number waiting
  · exact ⟨id, release, same, entry, numbered⟩
  · have woken := any_eq_false.mp idle call member
    simp [State.woken, waiting, same, absent] at woken

theorem schedule_spec (candidates : List ExternalThread) (s : State) :
    ∃ scheduled, s.schedule candidates = { s with scheduled := scheduled } ∧
      ∀ id, scheduled id = s.scheduled id ∨ s.scheduled id = none ∧
        ∃ thread, scheduled id = some thread ∧ thread.id = id := by
  induction candidates generalizing s with
  | nil => exact ⟨s.scheduled, rfl, fun id => .inl rfl⟩
  | cons thread candidates ih =>
    by_cases skipped : ((s.scheduled thread.id).isSome || !s.eligible thread) = true
    · obtain ⟨scheduled, is, rest⟩ := ih s
      refine ⟨scheduled, ?_, rest⟩
      rw [← is, schedule, foldl_cons, if_pos skipped]
      rfl
    · obtain ⟨scheduled, is, rest⟩ :=
        ih { s with scheduled := Function.update s.scheduled thread.id (some thread) }
      refine ⟨scheduled, ?_, fun id => ?_⟩
      · rw [schedule, foldl_cons, if_neg skipped]
        exact is
      · have free : s.scheduled thread.id = none := by
          simp only [Bool.or_eq_true, not_or, isSome_iff_ne_none, ne_eq, not_not] at skipped
          exact skipped.1
        by_cases same : id = thread.id
        · subst same
          refine .inr ⟨free, thread, ?_, rfl⟩
          rcases rest thread.id with kept | ⟨absent, -⟩
          · rw [kept]
            exact update_self ..
          · simp only [update_self] at absent
            cases absent
        · simpa only [update_of_ne same] using rest id

theorem Sound.check (sound : Sound s) (idle : s.calls.any s.woken = false) :
    Sound (s.schedule s.threads) := by
  obtain ⟨scheduled, is, rest⟩ := schedule_spec s.threads s
  rw [is]
  refine ⟨⟨sound.counted, sound.exclusive, ?_⟩, ?_, ?_, sound.open'⟩
  · intro call member number waiting
    obtain ⟨id, release, same, entry, numbered⟩ :=
      not_woken_entry sound.toAdmissions idle member waiting
    exact ⟨(sound.waits call member number waiting).1, id, same, .inl ⟨release, entry, numbered⟩⟩
  · intro id thread candidate
    rcases rest id with kept | ⟨-, thread', is', named⟩
    · exact sound.candidates id thread (kept ▸ candidate)
    · simp only [is', some_inj] at candidate
      exact candidate ▸ named
  · intro id release entry
    obtain ⟨named, candidate, known, asked⟩ := sound.entries id release entry
    refine ⟨named, ?_, known, asked⟩
    rcases rest id with kept | ⟨absent, -⟩
    · rw [← candidate]
      exact kept
    · rw [absent] at candidate
      cases candidate

theorem Sound.close (sound : Sound s) {thread : ExternalThread}
    (candidate : s.scheduled id = some thread) (eligible : s.eligible thread = true) :
    Sound (s.close thread) := by
  obtain ⟨unused, vacant, known⟩ := eligible_free eligible
  have named := sound.candidates id thread candidate
  subst named
  refine ⟨⟨sound.counted, ?_, ?_⟩, sound.candidates, ?_, ?_⟩
  · intro key closes call member same request admitted
    by_cases this : key = thread.id
    · subst this
      have counted := sound.counted thread.id
      rw [unused, tally] at counted
      have none : s.calls.countP (admittedOf thread.id) = 0 := by
        by_contra some
        rw [if_neg some] at counted
        cases counted
      have isAdmitted := List.countP_eq_zero.mp none call member
      simp [admittedOf, same, admitted] at isAdmitted
    · refine sound.exclusive key ?_ call member same request admitted
      simpa only [close, Function.update_of_ne this] using closes
  · intro call member number waiting
    obtain ⟨request, key, same, rest⟩ := sound.waits call member number waiting
    refine ⟨request, key, same, ?_⟩
    by_cases this : key = thread.id
    · subst this
      rcases rest with ⟨release, entry, -⟩ | ⟨-, absent⟩
      · rw [vacant] at entry
        cases entry
      · rw [candidate] at absent
        cases absent
    · simpa only [close, Function.update_of_ne this] using rest
  · intro key release entry
    by_cases this : key = thread.id
    · subst this
      simp only [close, Function.update_self, Option.some_inj] at entry
      subst entry
      refine ⟨rfl, candidate, known, ?_⟩
      simp [close]
    · simp only [close, Function.update_of_ne this] at entry
      obtain ⟨named, scheduled, active, asked⟩ := sound.entries key release entry
      refine ⟨named, scheduled, active, ?_⟩
      have inside : release.number < s.sessions.length := by
        by_contra outside
        rw [List.getElem?_eq_none (Nat.le_of_not_lt outside)] at asked
        cases asked
      simpa only [close, List.getElem?_append_left inside] using asked
  · intro number other asked
    simp only [close] at asked
    rcases Nat.lt_or_ge number s.sessions.length with inside | outside
    · rw [List.getElem?_append_left inside] at asked
      refine (sound.open' number other asked).imp_left fun entry => ?_
      have this : other.id ≠ thread.id := by
        intro same
        rw [same, vacant] at entry
        cases entry
      simpa only [close, Function.update_of_ne this] using entry
    · rw [List.getElem?_append_right outside] at asked
      obtain ⟨at', is⟩ := List.getElem?_eq_some_iff.mp asked
      have last : number = s.sessions.length := by
        simp only [List.length_singleton] at at'
        omega
      subst last
      simp only [Nat.sub_self, List.getElem_cons_zero, SessionClose.mk.injEq] at is
      obtain ⟨rfl, -⟩ := is
      exact .inl (Function.update_self ..)

theorem Sound.unschedule (sound : Sound s) (vacant : s.closing id = none) :
    Sound { s with scheduled := Function.update s.scheduled id none } := by
  refine ⟨⟨sound.counted, sound.exclusive, ?_⟩, ?_, ?_, sound.open'⟩
  · intro call member number waiting
    obtain ⟨request, key, same, rest⟩ := sound.waits call member number waiting
    refine ⟨request, key, same, rest.imp_right fun ⟨absent, idle⟩ => ⟨absent, ?_⟩⟩
    by_cases this : key = id
    · subst this
      exact update_self ..
    · simpa only [update_of_ne this] using idle
  · intro key thread candidate
    by_cases this : key = id
    · subst this
      simp only [update_self] at candidate
      cases candidate
    · simp only [update_of_ne this] at candidate
      exact sound.candidates key thread candidate
  · intro key release entry
    have this : key ≠ id := by
      rintro rfl
      rw [vacant] at entry
      cases entry
    simpa only [update_of_ne this] using sound.entries key release entry

end Steps

end CodexHost.Guarantees.IdleRelease
