import CodexHost.Source.HostRuntime.SharedThreadOwner

/-!
# A submission is not forwarded twice

The receipt of a submission that is not answered keeps its copies back. It must not be removed
before the answer: not by a time-out or a failed write, and not by the bound on the receipts.
-/
namespace CodexHost.Guarantees.SharedSubmissions
open Foundation Source.HostRuntime OrderedMap List Option
open Source.HostRuntime.SharedThreadOwner

def answered (request : Request) : Bool :=
  match request.reply with
  | some (.answered _) => true
  | _ => false

/-- The receipts that go when this request is noted. -/
def evicted (s : State) (number : Nat) : List (String × Receipt) :=
  match s.requests[number]? with
  | none => []
  | some request =>
    match request.key, request.settled with
    | some key, some (some error) =>
      let receipts := if error then s.receipts.delete key else s.receipts
      receipts.entries.take (receipts.entries.length - RECEIPT_LIMIT)
    | _, _ => []

/-- No submission is given up before its answer, and the receipts that are evicted are of
submissions that have been noted. -/
def allowed (s : State) : Event → Bool
  | .written number ok => ok || s.stopped ||
      (s.requests[number]?).all fun request => request.key.isNone || answered request
  | .timeout number => (s.requests[number]?).all (·.key.isNone)
  | .note number =>
    s.stopped || (evicted s number).all fun entry => decide (entry.2.request ∈ number :: s.noted)
  | _ => true

/-- The runs in which every event is allowed. -/
def Reaches (events : List Event) (s : State) : Prop :=
  Run (fun s event s' => allowed s event = true ∧ step s event = some s') initial events s

/-- While the peer runs, a submission that is not noted has its receipt. -/
structure Kept (s : State) : Prop where
  bound : ∀ number ∈ s.noted, number < s.requests.length
  receipt : ∀ (number : Nat) request key, s.requests[number]? = some request → request.key = some key →
    number ∉ s.noted → ∃ fingerprint, s.receipts.get? key = some ⟨fingerprint, number⟩
  known : ∀ (number : Nat) request, s.requests[number]? = some request → request.key.isSome →
    number ∈ s.noted → answered request = true
  fate : ∀ (number : Nat) request, s.requests[number]? = some request → request.key.isSome →
    request.reply.isSome ∨ request.written = some false → answered request = true

section Steps
variable {s s' : State}

theorem answered_of_settled {request : Request}
    (fate : request.reply.isSome ∨ request.written = some false → answered request = true)
    {answer : Option Bool} (settled : request.settled = some answer) : answered request = true := by
  refine fate ?_
  unfold Request.settled at settled
  split at settled
  · next written => exact .inr written
  · next reply => exact .inl (by simp [reply])
  · next reply => exact .inl (by simp [reply])
  · cases settled

/-- A new request of the peer, with its receipt if it is a submission. -/
theorem Kept.append (sound : Kept s) {request : Request}
    (requests : s'.requests = s.requests ++ [request]) (noted : s'.noted = s.noted)
    (open' : request.reply = none ∧ request.written = none)
    (receipts : ∀ key, (s.receipts.get? key).isSome → s'.receipts.get? key = s.receipts.get? key)
    (own : ∀ key, request.key = some key →
      ∃ fingerprint, s'.receipts.get? key = some ⟨fingerprint, s.requests.length⟩) :
    Kept s' := by
  have split : ∀ (number : Nat) found, s'.requests[number]? = some found →
      s.requests[number]? = some found ∨ number = s.requests.length ∧ found = request := by
    intro number found is
    rw [requests, getElem?_append] at is
    split at is
    · exact .inl is
    · rw [getElem?_singleton] at is
      split at is
      · exact .inr ⟨by omega, (some_inj.mp is).symm⟩
      · cases is
  refine ⟨fun number member => ?_, fun number found key is isKey unnoted => ?_,
    fun number found is isKey member => ?_, fun number found is isKey past => ?_⟩
  · have old := sound.bound number (noted ▸ member)
    rw [requests, length_append]
    omega
  · rcases split number found is with old | ⟨rfl, rfl⟩
    · obtain ⟨fingerprint, has⟩ := sound.receipt number found key old isKey (noted ▸ unnoted)
      exact ⟨fingerprint, (receipts key (by simp [has])).trans has⟩
    · exact own key isKey
  · have old := sound.bound number (noted ▸ member)
    rcases split number found is with is | ⟨rfl, rfl⟩
    · exact sound.known number found is isKey (noted ▸ member)
    · omega
  · rcases split number found is with is | ⟨rfl, rfl⟩
    · exact sound.fate number found is isKey past
    · rcases past with some | false
      · rw [open'.1] at some
        cases some
      · rw [open'.2] at false
        cases false

theorem forward_running (running : s.stopped = false) (method : String) (params : Params) :
    (s.forward method params).requests = s.requests ++ [⟨method, params, true, none, none⟩] ∧
    (s.forward method params).noted = s.noted ∧
    (s.forward method params).receipts = s.receipts := by
  simp [State.forward, running]

theorem Kept.request (sound : Kept s) (running : s.stopped = false) (method : String)
    (params : Params) : Kept (s.request method params).1 := by
  obtain ⟨requests, noted, receipts⟩ := forward_running running method params
  unfold State.request
  split
  · next plain =>
    refine sound.append requests noted ⟨rfl, rfl⟩ (fun key _ => by rw [receipts])
      fun key is => ?_
    rw [Request.key, plain] at is
    cases is
  · next key isKey =>
    split
    · exact sound
    · next absent =>
      refine sound.append requests noted ⟨rfl, rfl⟩ (fun other has => ?_) fun other is => ?_
      · have different : other ≠ key := by
          rintro rfl
          rw [absent] at has
          cases has
        exact get?_set_of_ne _ _ different
      · rw [Request.key, isKey] at is
        cases is
        exact ⟨params.text, get?_set_self _ _ _⟩

/-- A change of a request that leaves its method and parameters. -/
theorem Kept.change (sound : Kept s) (number : Nat) (change : Request → Request)
    (key : ∀ request, (change request).key = request.key)
    (answers : ∀ request, s.requests[number]? = some request → request.key.isSome →
      answered request = true → answered (change request) = true)
    (fate : ∀ request, s.requests[number]? = some request → request.key.isSome →
      (change request).reply.isSome ∨ (change request).written = some false →
      answered (change request) = true) :
    Kept (s.setRequest number change) := by
  have found : ∀ (other : Nat) request, (s.setRequest number change).requests[other]? = some request →
      ∃ source, s.requests[other]? = some source ∧
        request = if number = other then change source else source := by
    intro other request is
    rw [State.setRequest, List.getElem?_modify, Option.map_eq_map, Option.map_eq_some_iff] at is
    obtain ⟨source, is, same⟩ := is
    refine ⟨source, is, ?_⟩
    split at same <;> simp_all
  obtain ⟨bound, receipt, known, fate'⟩ := sound
  refine ⟨fun other member => ?_, fun other request k is isKey unnoted => ?_,
    fun other request is isKey noted => ?_, fun other request is isKey past => ?_⟩
  · simpa [State.setRequest] using bound other member
  · obtain ⟨source, was, rfl⟩ := found other request is
    refine receipt other source k was ?_ unnoted
    split at isKey
    · rwa [key] at isKey
    · exact isKey
  · obtain ⟨source, was, rfl⟩ := found other request is
    split at isKey
    · next here =>
      subst here
      rw [key] at isKey
      rw [if_pos rfl]
      exact answers source was isKey (known number source was isKey noted)
    · next there =>
      rw [if_neg there]
      exact known other source was isKey noted
  · obtain ⟨source, was, rfl⟩ := found other request is
    split at isKey
    · next here =>
      subst here
      rw [key] at isKey
      rw [if_pos rfl] at past ⊢
      exact fate source was isKey past
    · next there =>
      rw [if_neg there] at past ⊢
      exact fate' other source was isKey past

theorem Kept.unpend (sound : Kept s) (number : Nat) : Kept (s.unpend number) :=
  ⟨sound.bound, sound.receipt, sound.known, sound.fate⟩

theorem Kept.clients (sound : Kept s) (clients : List Bool) : Kept { s with clients := clients } :=
  ⟨sound.bound, sound.receipt, sound.known, sound.fate⟩

theorem evicted_eq {number : Nat} {request : Request} {key : String} {error : Bool}
    (is : s.requests[number]? = some request) (isKey : request.key = some key)
    (settled : request.settled = some (some error)) :
    evicted s number =
      let receipts := if error then s.receipts.delete key else s.receipts
      receipts.entries.take (receipts.entries.length - RECEIPT_LIMIT) := by
  simp only [evicted, is, isKey, settled]

theorem Kept.note (sound : Kept s) {number : Nat} {request : Request} {key : String}
    {answer : Option Bool} (is : s.requests[number]? = some request) (isKey : request.key = some key)
    (settled : request.settled = some answer) (fresh : number ∉ s.noted)
    (fair : ∀ entry ∈ evicted s number, entry.2.request ∈ number :: s.noted) :
    Kept { s with
      noted := number :: s.noted
      receipts := settleReceipt s.receipts key answer } := by
  obtain ⟨bound, receipt, known, fate⟩ := sound
  refine ⟨fun other member => ?_, fun other found k isOther isK unnoted => ?_,
    fun other found isOther isK member => ?_, fate⟩
  · rcases List.mem_cons.mp member with rfl | old
    · exact (List.getElem?_eq_some_iff.mp is).1
    · exact bound other old
  · -- the receipt of another request that is not noted is neither deleted nor evicted
    simp only [List.mem_cons, not_or] at unnoted
    obtain ⟨fingerprint, has⟩ := receipt other found k isOther isK unnoted.2
    have different : k ≠ key := by
      rintro rfl
      obtain ⟨_, mine⟩ := receipt number request k is isKey fresh
      rw [has] at mine
      cases mine
      exact unnoted.1 rfl
    have kept : (s.receipts.delete key).get? k = some ⟨fingerprint, other⟩ :=
      (OrderedMap.get?_delete_of_ne _ different).trans has
    refine ⟨fingerprint, ?_⟩
    have stays : ∀ entry ∈ evicted s number, entry ≠ (k, ⟨fingerprint, other⟩) := by
      rintro entry member rfl
      exact absurd (fair _ member) (by simp [unnoted.1, unnoted.2])
    cases answer with
    | none => exact kept
    | some error =>
      cases error with
      | true =>
        refine OrderedMap.get?_dropFirst kept fun member => stays _ ?_ rfl
        rw [evicted_eq is isKey settled]
        exact member
      | false =>
        refine OrderedMap.get?_dropFirst has fun member => stays _ ?_ rfl
        rw [evicted_eq is isKey settled]
        exact member
  · rcases List.mem_cons.mp member with rfl | old
    · rw [is] at isOther
      cases isOther
      exact answered_of_settled (fate _ _ is isK) settled
    · exact known other found isOther isK old

theorem initial_kept : Kept initial :=
  ⟨nofun, nofun, nofun, nofun⟩

theorem step_stopped {event : Event} (moved : step s event = some s') (stopped : s.stopped = true) :
    s'.stopped = true := by
  have stop : s.stop.stopped = true := by simp [State.stop, stopped]
  cases event with
  | request client method params =>
    simp only [step, ite_none_right_eq_some, some.injEq] at moved
    obtain ⟨-, rfl⟩ := moved
    unfold State.request
    repeat' split
    all_goals simp [State.forward, stopped]
  | stop =>
    cases moved
    exact stop
  | close =>
    cases moved
    unfold State.close
    split
    · exact stopped
    · exact stop
  | _ =>
    simp only [step] at moved
    grind [State.setRequest, State.unpend]

theorem step_kept {event : Event} (sound : s.stopped = true ∨ Kept s)
    (permitted : allowed s event = true) (moved : step s event = some s') :
    s'.stopped = true ∨ Kept s' := by
  rcases sound with stopped | sound
  · exact .inl (step_stopped moved stopped)
  cases running : s.stopped with
  | true => exact .inl (step_stopped moved running)
  | false =>
    cases event with
    | connect =>
      cases moved
      exact .inr (sound.clients _)
    | disconnect client =>
      cases moved
      exact .inr (sound.clients _)
    | request client method params =>
      simp only [step, ite_none_right_eq_some, some.injEq] at moved
      obtain ⟨-, rfl⟩ := moved
      exact .inr (sound.request running method params)
    | written number ok =>
      simp only [step] at moved
      split at moved
      · cases moved
      · next request is =>
        have changed : Kept (s.setRequest number ({ · with written := some ok })) := by
          refine sound.change number _ (fun _ => rfl) (fun _ _ _ answers => answers)
            fun other isOther isKey past => ?_
          rw [is] at isOther
          cases isOther
          rcases past with replied | failed
          · exact sound.fate number request is isKey (.inl replied)
          · cases failed
            simp only [allowed, running, is, all_some, Bool.or_eq_true, Bool.false_or,
              Bool.or_false] at permitted
            rcases permitted with plain | answers
            · rw [isNone_iff_eq_none] at plain
              rw [plain] at isKey
              cases isKey
            · exact answers
        split at moved
        · cases moved
        · split at moved <;> cases moved
          · exact .inr changed
          · exact .inr (changed.unpend number)
    | answer number error =>
      simp only [step, ite_none_right_eq_some, some.injEq] at moved
      obtain ⟨-, rfl⟩ := moved
      refine .inr (Kept.unpend (sound.change number
        ({ · with reply := some (.answered error) }) (fun _ => rfl) ?_ ?_) number)
      · exact fun _ _ _ _ => rfl
      · exact fun _ _ _ _ => rfl
    | timeout number =>
      simp only [step, ite_none_right_eq_some, some.injEq] at moved
      obtain ⟨-, rfl⟩ := moved
      have plain : ∀ request, s.requests[number]? = some request → request.key.isSome → False := by
        intro request is isKey
        simp only [allowed, is, all_some, isNone_iff_eq_none] at permitted
        rw [permitted] at isKey
        cases isKey
      refine .inr (Kept.unpend (sound.change number
        ({ · with reply := some .timedOut }) (fun _ => rfl) ?_ ?_) number)
      · exact fun request is isKey => (plain request is isKey).elim
      · exact fun request is isKey => (plain request is isKey).elim
    | note number =>
      simp only [step] at moved
      split at moved
      · cases moved
      · next request is =>
        split at moved
        · cases moved
        · next fresh =>
          split at moved
          · next key answer isKey settled =>
            cases moved
            refine .inr (sound.note is isKey settled fresh ?_)
            simpa [allowed, running] using permitted
          · cases moved
    | stop =>
      cases moved
      exact .inl (by simp [State.stop, running])
    | close =>
      cases moved
      unfold State.close
      split
      · exact .inr sound
      · exact .inl (by simp [State.stop, running])

end Steps

section Runs
variable {s s' : State} {events : List Event}

theorem reaches_kept (reached : Reaches events s) : s.stopped = true ∨ Kept s := by
  exact reached.invariant (.inr initial_kept) fun _ _ _ sound ⟨permitted, moved⟩ =>
    step_kept sound permitted moved

/-- The requests that went to the runtime. -/
def forwarded (s : State) : List Request := s.requests.filter (·.forwarded)

/-- Nobody forwards a submission to the runtime while an earlier one of the same Thread and message
is not answered. -/
theorem submission_forwarded_once (reached : Reaches events s) {client : Nat} {params : Params}
    (moved : step s (.request client "turn/start" params) = some s') {earlier : Request}
    (there : earlier ∈ forwarded s) (submission : earlier.method = "turn/start")
    (thread : earlier.params.threadId = params.threadId) {message : String}
    (first : earlier.params.clientUserMessageId = some message)
    (second : params.clientUserMessageId = some message) (unknown : answered earlier = false) :
    forwarded s' = forwarded s := by
  simp only [step, ite_none_right_eq_some, some.injEq] at moved
  obtain ⟨-, rfl⟩ := moved
  have key : keyOf "turn/start" params = some (params.threadId ++ "\x00" ++ message) := by
    simp [keyOf, second]
  have earlierKey : earlier.key = some (params.threadId ++ "\x00" ++ message) := by
    simp [Request.key, keyOf, submission, first, thread]
  rcases reaches_kept reached with stopped | sound
  · unfold State.request
    repeat' split
    all_goals simp [forwarded, State.forward, stopped]
  · obtain ⟨number, is⟩ := mem_iff_getElem?.mp (mem_filter.mp there).1
    have unnoted : number ∉ s.noted := by
      intro noted
      rw [sound.known number earlier is (by simp [earlierKey]) noted] at unknown
      cases unknown
    obtain ⟨fingerprint, has⟩ := sound.receipt number earlier _ is earlierKey unnoted
    simp only [State.request, key, has]

end Runs

def once : Params := ⟨"t1", some "m1", "first"⟩

/-- The copy of another client comes before the answer, and again after it. -/
def copied : List Event :=
  [.connect, .connect, .request 0 "turn/start" once, .written 0 true, .disconnect 0]

/-- The calls of a run in which every event is allowed. -/
def allowedStep (s : State) (event : Event) : Option State :=
  if allowed s event then step s event else none

theorem reaches_of_foldlM (ran : events.foldlM allowedStep initial = some s) : Reaches events s :=
  (Run.of_foldlM ran).mono fun s event s' moved => by
    unfold allowedStep at moved
    split at moved
    · next permitted => exact ⟨permitted, moved⟩
    · cases moved

theorem submission_forwarded_once_sample :
    ∃ s s', Reaches copied s ∧ step s (.request 1 "turn/start" once) = some s' ∧
      (forwarded s).length = 1 ∧ forwarded s' = forwarded s := by
  have ran : ∃ s, copied.foldlM allowedStep initial = some s ∧ s.clients = [true, false] ∧
      forwarded s = [⟨"turn/start", once, true, some true, none⟩] :=
    ⟨_, rfl, rfl, rfl⟩
  obtain ⟨s, reached, clients, sent⟩ := ran
  have moved : step s (.request 1 "turn/start" once) = some (s.request "turn/start" once).1 := by
    simp [step, clients]
  refine ⟨s, _, reaches_of_foldlM reached, moved, by rw [sent]; rfl, ?_⟩
  exact submission_forwarded_once (reaches_of_foldlM reached) moved
    (by rw [sent]; exact mem_singleton_self _) rfl rfl rfl rfl rfl

/-- The request times out, its receipt goes, and the copy is forwarded. -/
theorem forwarded_after_timeout :
    ∃ s, [.connect, .request 0 "turn/start" once, .written 0 true, .timeout 0, .note 0,
        .request 0 "turn/start" once].foldlM step initial = some s ∧
      forwarded s = [⟨"turn/start", once, true, some true, some .timedOut⟩,
        ⟨"turn/start", once, true, none, none⟩] :=
  ⟨_, rfl, rfl⟩

end CodexHost.Guarantees.SharedSubmissions
