import CodexHost.Foundation.Transition
import CodexHost.Source.HostRuntime.DelegationWatch

/-!
# Which watches are active, and what is sent again

The invariant says what the answer to a send leaves behind: unless the send was rejected, the watches it
was for are gone or undeliverable, and an undeliverable watch is never pending again.
-/
namespace CodexHost.Guarantees.DelegationWatches
open Foundation Source.HostRuntime.DelegationWatch List Service

/-- The Threads of a watch. -/
def pairOf (watch : Watch) : String × String := (watch.threadId, watch.notifyThreadId)

/-- The watches that still wait for the end of their Thread. -/
def active (watches : List Watch) : List Watch := watches.filter (·.state = .watching)

/-- The send was answered with an error that proves that nothing was started. -/
def Rejected (send : Send) : Prop :=
  ∃ error, send.answer = some (.error error) ∧ deliveryFailure error = .rejected

/-- The watches of the send are not sent again. -/
def Settled (watches : List Watch) (send : Send) : Prop :=
  ∀ watch ∈ watches, watch.id ∈ send.watches → watch.state = .undeliverable

/-- Where two sends are for one watch, the first one was rejected. -/
def AfterRejection (earlier later : Send) : Prop :=
  ∀ id ∈ earlier.watches, id ∈ later.watches → Rejected earlier

/-- The watches and the answered sends. -/
structure Core (watches : List Watch) (sends : List Send) (nextWatch : Nat) : Prop where
  numbered : ∀ watch ∈ watches, watch.id < nextWatch
  distinct : (watches.map (·.id)).Nodup
  single : ((active watches).map pairOf).Nodup
  sent : ∀ send ∈ sends, ∀ id ∈ send.watches, id < nextWatch
  settled : ∀ send ∈ sends, Rejected send ∨ Settled watches send
  once : sends.Pairwise AfterRejection

section Core
variable {watches : List Watch} {sends : List Send} {nextWatch : Nat}

section
variable (core : Core watches sends nextWatch)
include core

theorem Core.filter (keep : Watch → Bool) :
    Core (watches.filter keep) sends nextWatch := by
  refine ⟨fun watch member => core.numbered watch (mem_of_mem_filter member),
    core.distinct.sublist (filter_sublist.map _), ?_, core.sent, ?_, core.once⟩
  · exact core.single.sublist ((filter_sublist.filter _).map _)
  · intro send member
    refine (core.settled send member).imp_right fun settled watch inside => ?_
    exact settled watch (mem_of_mem_filter inside)

/-- A new watch for a pair without an active one. -/
theorem Core.push {watch : Watch} (id : watch.id = nextWatch)
    (fresh : ∀ other ∈ active watches, pairOf other ≠ pairOf watch) :
    Core (watches ++ [watch]) sends (nextWatch + 1) := by
  refine ⟨?_, ?_, ?_, ?_, ?_, core.once⟩
  · intro other member
    rcases mem_append.mp member with old | new
    · have bound := core.numbered other old
      omega
    · rw [mem_singleton.mp new, id]
      omega
  · rw [map_append, nodup_append]
    refine ⟨core.distinct, by simp, ?_⟩
    rintro number old other new rfl
    obtain ⟨earlier, inside, is⟩ := mem_map.mp old
    have bound := core.numbered earlier inside
    simp only [map_cons, map_nil, mem_singleton] at new
    omega
  · unfold active
    rw [filter_append, map_append, nodup_append]
    refine ⟨core.single, ?_, ?_⟩
    · exact ((nodup_singleton (pairOf watch)).sublist (filter_sublist.map pairOf))
    · rintro pair old other new rfl
      obtain ⟨earlier, inside, is⟩ := mem_map.mp old
      obtain ⟨same, member, isNew⟩ := mem_map.mp new
      have only : same = watch := mem_singleton.mp (mem_of_mem_filter member)
      exact fresh earlier inside (by rw [is, ← isNew, only])
  · intro send member number inside
    have bound := core.sent send member number inside
    omega
  · intro send member
    refine (core.settled send member).imp_right fun settled other inside here => ?_
    rcases mem_append.mp inside with old | new
    · exact settled other old here
    · have bound := core.sent send member _ here
      rw [mem_singleton.mp new, id] at bound
      omega

/-- An update of some watches that makes none active and none deliverable. -/
theorem Core.update (ids : List Nat) (update : Watch → Watch)
    (id : ∀ watch, (update watch).id = watch.id) (pair : ∀ watch, pairOf (update watch) = pairOf watch)
    (watching : ∀ watch, (update watch).state = .watching → watch.state = .watching)
    (undeliverable : ∀ watch ∈ watches, watch.id ∈ ids → watch.state = .undeliverable →
      (update watch).state = .undeliverable) :
    Core (watches.map fun watch => if watch.id ∈ ids then update watch else watch) sends nextWatch := by
  have sameId : ∀ watch : Watch, (if watch.id ∈ ids then update watch else watch).id = watch.id := by
    intro watch
    split
    · exact id watch
    · rfl
  refine ⟨?_, ?_, ?_, core.sent, ?_, core.once⟩
  · intro watch member
    obtain ⟨old, inside, rfl⟩ := mem_map.mp member
    rw [sameId]
    exact core.numbered old inside
  · have same : (fun watch : Watch => watch.id) ∘
        (fun watch => if watch.id ∈ ids then update watch else watch) = fun watch => watch.id :=
      funext sameId
    rw [map_map, same]
    exact core.distinct
  · refine core.single.sublist ?_
    clear * - pair watching
    induction watches with
    | nil => exact List.Sublist.refl _
    | cons watch watches ih =>
      by_cases changed : watch.id ∈ ids
      · by_cases stays : (update watch).state = .watching
        · simpa [active, changed, stays, watching watch stays, pair] using ih
        · by_cases before : watch.state = .watching
          · simpa [active, changed, stays, before] using ih.cons _
          · simpa [active, changed, stays, before] using ih
      · by_cases before : watch.state = .watching
        · simpa [active, changed, before] using ih
        · simpa [active, changed, before] using ih
  · intro send member
    refine (core.settled send member).imp_right fun settled watch inside here => ?_
    obtain ⟨old, isOld, rfl⟩ := mem_map.mp inside
    rw [sameId] at here
    have state := settled old isOld here
    split
    · next changed => exact undeliverable old isOld changed state
    · exact state

/-- An answered send that was rejected or settled its watches. -/
theorem Core.send {send : Send}
    (numbered : ∀ id ∈ send.watches, id < nextWatch) (after : ∀ earlier ∈ sends, AfterRejection earlier send)
    (settled : Rejected send ∨ Settled watches send) : Core watches (sends ++ [send]) nextWatch := by
  refine ⟨core.numbered, core.distinct, core.single, ?_, ?_, ?_⟩
  · exact forall_mem_append.mpr ⟨core.sent, forall_mem_singleton.mpr numbered⟩
  · exact forall_mem_append.mpr ⟨core.settled, forall_mem_singleton.mpr settled⟩
  · rw [pairwise_append]
    refine ⟨core.once, pairwise_singleton _ _, ?_⟩
    intro earlier member later only
    rw [mem_singleton.mp only]
    exact after earlier member

end

end Core

/-- The invariant, by where the tick waits. -/
def Inv (service : Service) : Prop :=
  match service.phase with
  | .idle => Core service.watches service.sends service.nextWatch
  | .observing id _ => Core service.watches service.sends service.nextWatch ∧
      ∀ watch ∈ service.watches, watch.id = id → watch.state = .watching
  | .delivering pending _ => ∃ answered last, service.sends = answered ++ [last] ∧
      last.watches = pending ∧ Core service.watches answered service.nextWatch ∧
      (∀ earlier ∈ answered, AfterRejection earlier last) ∧ ∀ id ∈ pending, id < service.nextWatch

section Tick
variable {service : Service}

theorem schedule_cases (service : Service) :
    service.schedule = service ∨ service.schedule = { service with timer := true } := by
  unfold schedule
  split
  · exact .inl rfl
  · split
    · exact .inr rfl
    · exact .inl rfl

theorem inv_schedule (inv : Inv service) : Inv service.schedule := by
  rcases schedule_cases service with is | is
  · rwa [is]
  · rw [is]
    exact inv

theorem inv_finish (core : Core service.watches service.sends service.nextWatch) : Inv service.finish := by
  refine inv_schedule ?_
  exact core

theorem mem_pendingFor {notifyThreadId : String} {id : Nat}
    (member : id ∈ (service.pendingFor notifyThreadId).map (·.id)) :
    ∃ watch ∈ service.watches, watch.id = id ∧ watch.state = .pendingDelivery := by
  obtain ⟨watch, inside, is⟩ := mem_map.mp member
  obtain ⟨inList, pending⟩ := mem_filter.mp inside
  simp only [Bool.and_eq_true, decide_eq_true_eq] at pending
  exact ⟨watch, inList, is, pending.1⟩

section
variable (core : Core service.watches service.sends service.nextWatch)
include core

/-- A send is for watches that are pending, so the sends before it for one of them were rejected. -/
theorem inv_deliverNext
    (subscribers : List String) : Inv (service.deliverNext subscribers) := by
  cases subscribers with
  | nil => exact inv_finish core
  | cons notifyThreadId rest =>
    by_cases closed : service.closed = true
    · rw [deliverNext, if_pos closed]
      exact inv_finish core
    · rw [deliverNext, if_neg closed]
      refine ⟨service.sends, _, rfl, rfl, core, ?_, ?_⟩
      · intro earlier member id sentBefore sentNow
        obtain ⟨watch, inside, is, pending⟩ := mem_pendingFor sentNow
        rcases core.settled earlier member with rejected | settled
        · exact rejected
        · have state := settled watch inside (is ▸ sentBefore)
          rw [pending] at state
          cases state
      · intro id sentNow
        obtain ⟨watch, inside, is, -⟩ := mem_pendingFor sentNow
        exact is ▸ core.numbered watch inside

theorem inv_observeNext (ids : List Nat) :
    Inv (service.observeNext ids) := by
  induction ids with
  | nil => exact inv_deliverNext core _
  | cons id rest ih =>
    by_cases closed : service.closed = true
    · rw [observeNext, if_pos closed]
      exact inv_finish core
    · rw [observeNext, if_neg closed]
      by_cases watching : (service.watches.any fun watch => watch.id = id && watch.state = .watching) = true
      · rw [if_pos watching]
        refine ⟨core, ?_⟩
        intro watch inside is
        obtain ⟨other, isOther, state⟩ := any_eq_true.mp watching
        simp only [Bool.and_eq_true, decide_eq_true_eq] at state
        have same : watch = other := by
          refine inj_on_of_nodup_map core.distinct inside isOther ?_
          exact is.trans state.1.symm
        exact same ▸ state.2
      · rw [if_neg watching]
        exact ih

end

theorem observed_spec (read : ReadResult) (now : Int) (watch : Watch) :
    (Service.observed read now watch).id = watch.id ∧
      pairOf (Service.observed read now watch) = pairOf watch ∧
      ((Service.observed read now watch).state = watch.state ∨
        (Service.observed read now watch).state = .pendingDelivery) := by
  unfold observed
  have kept : (observe watch read now).1.id = watch.id ∧
      pairOf (observe watch read now).1 = pairOf watch ∧
      (observe watch read now).1.state = watch.state := by
    unfold observe
    split
    · split <;> exact ⟨rfl, rfl, rfl⟩
    · split
      · exact ⟨rfl, rfl, rfl⟩
      · dsimp only
        split <;> exact ⟨rfl, rfl, rfl⟩
  generalize observe watch read now = result at kept ⊢
  obtain ⟨after, outcome⟩ := result
  cases outcome with
  | none => exact ⟨kept.1, kept.2.1, .inl kept.2.2⟩
  | some outcome => exact ⟨kept.1, kept.2.1, .inr rfl⟩

theorem notDelivered_spec (error : ApiError) (now : Int) (watch : Watch) :
    (Service.notDelivered error now watch).id = watch.id ∧
      pairOf (Service.notDelivered error now watch) = pairOf watch ∧
      ((Service.notDelivered error now watch).state = .undeliverable ∨
        deliveryFailure error = .rejected ∧ Service.notDelivered error now watch = watch) := by
  unfold notDelivered
  split
  · exact ⟨rfl, rfl, .inl rfl⟩
  · next kept => exact ⟨rfl, rfl, .inr ⟨not_not.mp fun other => kept (.inl other), rfl⟩⟩

theorem inv_read {id : Nat} {rest : List Nat} (inv : Inv service)
    (phase : service.phase = .observing id rest) (read : ReadResult) (now : Int) :
    Inv ((service.updateWatches [id] (Service.observed read now)).observeNext rest) := by
  unfold Inv at inv
  rw [phase] at inv
  obtain ⟨core, watching⟩ := inv
  refine inv_observeNext (core.update [id] _ (fun watch => (observed_spec read now watch).1)
    (fun watch => (observed_spec read now watch).2.1) ?_ ?_) rest
  · intro watch stays
    rcases (observed_spec read now watch).2.2 with same | pending
    · exact same.symm.trans stays
    · rw [pending] at stays
      cases stays
  · intro watch inside changed state
    have active := watching watch inside (mem_singleton.mp changed)
    rw [state] at active
    cases active

/-- The answer to a send removes its watches, makes them undeliverable, or is a rejection. -/
theorem core_delivered {watches : List Watch} {sends : List Send} {nextWatch : Nat}
    (core : Core watches sends nextWatch) {service : Service} (isWatches : service.watches = watches)
    (pending : List Nat) (answer : Except ApiError Unit) (now : Int) :
    Core (service.delivered pending answer now).watches sends nextWatch ∧
      ((∃ error, answer = .error error ∧ deliveryFailure error = .rejected) ∨
        ∀ watch ∈ (service.delivered pending answer now).watches, watch.id ∈ pending →
          watch.state = .undeliverable) := by
  subst isWatches
  cases answer with
  | ok _ =>
    refine ⟨core.filter _, .inr fun watch member inside => ?_⟩
    have outside := (mem_filter.mp member).2
    simp only [decide_eq_true_eq] at outside
    exact absurd inside outside
  | error error =>
    have updated := core.update pending (notDelivered error now)
      (fun watch => (notDelivered_spec error now watch).1)
      (fun watch => (notDelivered_spec error now watch).2.1)
      (by
        intro watch stays
        rcases (notDelivered_spec error now watch).2.2 with state | ⟨-, same⟩
        · rw [state] at stays
          cases stays
        · rwa [same] at stays)
      (by
        intro watch _ _ state
        rcases (notDelivered_spec error now watch).2.2 with final | ⟨-, same⟩
        · exact final
        · rwa [same])
    refine ⟨updated.filter _, ?_⟩
    by_cases rejected : deliveryFailure error = .rejected
    · exact .inl ⟨error, rfl, rejected⟩
    · refine .inr fun watch member inside => ?_
      obtain ⟨old, isOld, rfl⟩ := mem_map.mp (mem_of_mem_filter member)
      by_cases changed : old.id ∈ pending
      · rw [if_pos changed]
        exact (notDelivered_spec error now old).2.2.resolve_right fun other => rejected other.1
      · rw [if_neg changed] at inside
        exact absurd inside changed

theorem inv_sendAnswered {pending : List Nat} {rest : List String} (inv : Inv service)
    (phase : service.phase = .delivering pending rest) (answer : Except ApiError Unit) (now : Int) :
    Inv (((service.answerSend answer).delivered pending answer now).deliverNext rest) := by
  unfold Inv at inv
  rw [phase] at inv
  obtain ⟨answered, last, isSends, isPending, core, after, numbered⟩ := inv
  have kept : ((service.answerSend answer).delivered pending answer now).sends =
        answered ++ [{ last with answer := some answer }] ∧
      ((service.answerSend answer).delivered pending answer now).nextWatch = service.nextWatch := by
    have sends : (service.answerSend answer).sends = answered ++ [{ last with answer := some answer }] := by
      simp [answerSend, isSends]
    cases answer <;> exact ⟨sends, rfl⟩
  obtain ⟨later, settled⟩ := @core_delivered _ _ _ core (service.answerSend answer) rfl pending answer now
  refine inv_deliverNext ?_ rest
  rw [kept.1, kept.2]
  refine later.send (isPending ▸ numbered) after ?_
  rcases settled with ⟨error, is, rejected⟩ | settled
  · exact .inl ⟨error, congrArg some is, rejected⟩
  · refine .inr fun watch member inside => ?_
    have pendingWatch : watch.id ∈ pending := isPending ▸ inside
    exact settled watch member pendingWatch

end Tick

section Request
variable {service : Service}

/-- What the invariant says of the phase stays true of more watches. -/
theorem inv_push (inv : Inv service) {watch : Watch} (id : watch.id = service.nextWatch)
    (state : watch.state = .watching)
    (fresh : ∀ other ∈ active service.watches, pairOf other ≠ pairOf watch) :
    Inv { service with watches := service.watches ++ [watch], nextWatch := service.nextWatch + 1 } := by
  unfold Inv at inv ⊢
  cases phase : service.phase with
  | idle =>
    rw [phase] at inv
    exact inv.push id fresh
  | observing observed rest =>
    rw [phase] at inv
    refine ⟨inv.1.push id fresh, ?_⟩
    exact forall_mem_append.mpr ⟨inv.2, forall_mem_singleton.mpr fun _ => state⟩
  | delivering pending rest =>
    rw [phase] at inv
    obtain ⟨answered, last, isSends, isPending, core, after, numbered⟩ := inv
    exact ⟨answered, last, isSends, isPending, core.push id fresh, after,
      fun number inside => Nat.lt_succ_of_lt (numbered number inside)⟩

theorem inv_register (inv : Inv service) (input : ThreadWatchInput) (timeoutMs : Int)
    (status : CodexHost.Source.HostRuntime.DelegationSnapshot.DelegationThreadStatus) (now : Int) :
    Inv (service.register input timeoutMs status now).2 := by
  unfold register
  split
  · exact inv
  · split
    · exact inv
    · next none =>
      split
      · exact inv
      · refine inv_schedule (inv_push inv rfl rfl ?_)
        intro other member same
        obtain ⟨inside, watching⟩ := mem_filter.mp member
        have apart := find?_eq_none.mp none other inside
        simp only [pairOf, Prod.mk.injEq] at same
        simp [watching, same.1, same.2] at apart

theorem core_empty {watches : List Watch} {sends : List Send} {nextWatch : Nat}
    (core : Core watches sends nextWatch) : Core [] sends nextWatch :=
  ⟨by simp, by simp, by simp [active], core.sent, fun send _ => .inr (by simp [Settled]), core.once⟩

theorem inv_close (inv : Inv service) : Inv service.close := by
  unfold Inv at inv ⊢
  unfold close
  cases phase : service.phase with
  | idle =>
    rw [phase] at inv
    exact core_empty inv
  | observing observed rest =>
    rw [phase] at inv
    exact ⟨core_empty inv.1, by simp⟩
  | delivering pending rest =>
    rw [phase] at inv
    obtain ⟨answered, last, isSends, isPending, core, after, numbered⟩ := inv
    exact ⟨answered, last, isSends, isPending, core_empty core, after, numbered⟩

/-- The answer to the last send may be lost. -/
theorem inv_core (inv : Inv service) : Core [] service.sends service.nextWatch := by
  unfold Inv at inv
  cases phase : service.phase with
  | idle =>
    rw [phase] at inv
    exact core_empty inv
  | observing observed rest =>
    rw [phase] at inv
    exact core_empty inv.1
  | delivering pending rest =>
    rw [phase] at inv
    obtain ⟨answered, last, isSends, isPending, core, after, numbered⟩ := inv
    rw [isSends]
    exact (core_empty core).send (isPending ▸ numbered) after (.inr (by simp [Settled]))

/-- A step of the service keeps the invariant. -/
theorem inv_step (inv : Inv service) {event : Service.Event} {next : Service}
    (step : service.step event = some next) : Inv next := by
  cases event with
  | call input =>
    simp only [Service.step] at step
    split at step
    · cases step
      exact inv
    · cases step
      exact inv
  | answered request target subscriber now =>
    obtain ⟨⟨input, timeoutMs⟩, -, is⟩ := Option.map_eq_some_iff.mp step
    have inv : Inv { service with requests := service.requests.eraseIdx request } := inv
    dsimp only at is
    split at is
    · rw [← is]
      exact inv_register inv input timeoutMs _ now
    · rw [← is]
      exact inv
  | timer =>
    simp only [Service.step] at step
    split at step
    · next idle =>
      cases step
      unfold Inv at inv
      rw [idle.2] at inv
      exact inv_observeNext inv _
    · cases step
  | read result now =>
    simp only [Service.step] at step
    split at step
    · next watch rest phase =>
      cases step
      exact inv_read inv phase result now
    · cases step
  | sendAnswered answer now =>
    simp only [Service.step] at step
    split at step
    · next pending rest phase =>
      cases step
      exact inv_sendAnswered inv phase answer now
    · cases step
  | close =>
    cases step
    exact inv_close inv
  | restart =>
    cases step
    change Core [] service.sends service.nextWatch
    exact inv_core inv

end Request

/-- A run of services, one after each restart, that all start with no watch. -/
abbrev WatchRun (events : List Service.Event) (service : Service) : Prop :=
  Run (fun service event next => service.step event = some next) (Service.new 0 []) events service

theorem inv_run {events : List Service.Event} {service : Service} (run : WatchRun events service) :
    Inv service :=
  run.invariant ⟨by simp [new], by simp [new], by simp [new, active],
    by simp [new], by simp [new], List.Pairwise.nil⟩
    fun _ _ _ inv step => inv_step inv step

theorem inv_single {service : Service} (inv : Inv service) : ((active service.watches).map pairOf).Nodup := by
  unfold Inv at inv
  cases phase : service.phase with
  | idle =>
    rw [phase] at inv
    exact inv.single
  | observing observed rest =>
    rw [phase] at inv
    exact inv.1.single
  | delivering pending rest =>
    rw [phase] at inv
    obtain ⟨answered, last, -, -, core, -⟩ := inv
    exact core.single

/-- After any events, at most one watch is active for a pair of Threads, and where two sends are for
one watch, the first was answered with a rejection before the second was made. -/
theorem watch_sent_again {events : List Service.Event} {service : Service} (run : WatchRun events service) :
    ((service.watches.filter (·.state = .watching)).map fun watch =>
      (watch.threadId, watch.notifyThreadId)).Nodup ∧
    service.sends.Pairwise fun earlier later => ∀ id ∈ earlier.watches, id ∈ later.watches →
      ∃ error, earlier.answer = some (.error error) ∧ deliveryFailure error = .rejected :=
  ⟨inv_single (inv_run run), (inv_core (inv_run run)).once⟩

/-- A child ends while its parent is busy; the notification is sent again. -/
def sampleEvents : List Service.Event :=
  [.call ⟨"child", "parent", some 60000⟩, .answered 0 (.ok ⟨.running, none⟩) (.ok ⟨.running, none⟩) 0,
    .timer, .read (.ok ⟨.completed, some "turn"⟩) 2000,
    .sendAnswered (.error (.control "THREAD_BUSY" false false "Thread is busy")) 2000,
    .timer, .sendAnswered (.ok ()) 4000]

theorem watch_sent_again_sample : ∃ service, WatchRun sampleEvents service ∧ service.sends.length = 2 ∧
    service.sends.Pairwise fun earlier later => ∀ id ∈ earlier.watches, id ∈ later.watches →
      ∃ error, earlier.answer = some (.error error) ∧ deliveryFailure error = .rejected := by
  have two : (sampleEvents.foldlM step (new 0 [])).map (·.sends.length) = some 2 := by
    decide +kernel
  obtain ⟨service, reached, sends⟩ := Option.map_eq_some_iff.mp two
  have run : WatchRun sampleEvents service := Run.of_foldlM reached
  exact ⟨service, run, sends, (watch_sent_again run).2⟩

end CodexHost.Guarantees.DelegationWatches
