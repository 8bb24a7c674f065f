import CodexHost.Guarantees.DelegationConcurrency

/-!
# The status of a delegation over its calls

The guard of `setDelegationStatus` refuses to leave the terminal statuses, but lets one
replace another. While the calls on a delegation take place one after the other, whatever
else is in flight, a terminal status stays terminal, each call that stores a record raises
its revision, and between two calls the file holds the record in memory.
-/
namespace CodexHost.Guarantees
open Foundation Source.SharedContracts Source.MappingStore OrderedMap List Option DelegationEffect DelegationEvent

/-- The calls on this delegation are status changes, and none begins while another is in
flight. -/
def SerialOn (id : HostThreadId) (s : DelegationSystem) (event : DelegationEvent) : Prop :=
  ∀ caller now call, event = .begin caller now call → call.delegationId = id →
    (∃ status, call = .setStatus id status) ∧
    ∀ other pending, s.calls.get? other = some pending → pending.call.delegationId ≠ id

/-- No call on this delegation is in flight. -/
def QuietOn (id : HostThreadId) (s : DelegationSystem) : Prop :=
  ∀ caller pending, s.calls.get? caller = some pending → pending.call.delegationId ≠ id

/-- A later record of the same delegation. -/
structure Later (d next : StoredDelegationRecordV1) : Prop where
  revision : d.revision < next.revision
  terminal : terminal d.status → terminal next.status
  status : d.status ≠ next.status

structure OneAtATime (id : HostThreadId) (s : DelegationSystem) : Prop where
  keyed : ∀ other d, s.world.store.delegations.get? other = some d → d.delegationId = other
  owned : ∀ caller pending, s.calls.get? caller = some pending →
    pending.effect.delegationId = pending.call.delegationId
  alone : ∀ caller caller' pending pending', s.calls.get? caller = some pending →
    s.calls.get? caller' = some pending' → pending.call.delegationId = id →
    pending'.call.delegationId = id → caller = caller'
  pending : ∀ caller call effect landed, s.calls.get? caller = some ⟨call, effect, landed⟩ →
    call.delegationId = id → ∃ d next, s.world.store.delegations.get? id = some d ∧
      effect = .publish next ∧ Later d next ∧
      s.world.disk.delegations.get? id = some (.json (if landed then next else d))
  quiet : QuietOn id s → s.world.disk.delegations.get? id = (s.world.store.delegations.get? id).map .json

theorem onDisk_other {effect : DelegationEffect} {disk : Disk} {id : HostThreadId}
    (hne : effect.delegationId ≠ id) :
    (effect.onDisk disk).delegations.get? id = disk.delegations.get? id := by
  cases effect with
  | publish record => exact get?_set_of_ne _ _ hne.symm
  | erase delegationId => exact get?_delete_of_ne _ hne.symm

theorem onMap_other {effect : DelegationEffect} {id : HostThreadId}
    {delegations : OrderedMap HostThreadId StoredDelegationRecordV1}
    (hne : effect.delegationId ≠ id) :
    (effect.onMap delegations).get? id = delegations.get? id := by
  cases effect with
  | publish record => exact get?_set_of_ne _ _ hne.symm
  | erase delegationId => exact get?_delete_of_ne _ hne.symm

theorem onMap_keyed {effect : DelegationEffect}
    {delegations : OrderedMap HostThreadId StoredDelegationRecordV1}
    (keyed : ∀ other d, delegations.get? other = some d → d.delegationId = other) :
    ∀ other d, (effect.onMap delegations).get? other = some d → d.delegationId = other := by
  intro other d stored
  cases effect with
  | publish record =>
    simp only [onMap, get?_set] at stored
    split at stored
    · next same =>
      cases stored
      exact same.symm
    · exact keyed other d stored
  | erase delegationId =>
    exact keyed other d (kept_of_delete stored).2

section Moves
variable {id : HostThreadId} {s : DelegationSystem} {caller : Nat} {call : DelegationCall}
  {effect : DelegationEffect}

section
variable (serial : OneAtATime id s)
include serial

theorem OneAtATime.begun {now : Timestamp}
    (free : s.calls.get? caller = none) (allowed : SerialOn id s (.begin caller now call))
    (started : call.start now s.world.store = .ok (some effect)) :
    OneAtATime id { s with calls := s.calls.set caller ⟨call, effect, false⟩ } where
  keyed := serial.keyed
  owned other p present := by
    rw [get?_set] at present
    split at present
    · cases present
      cases start_passed started with
      | create input => rfl
      | setStatus delegationId status current stored => exact serial.keyed delegationId current stored
      | remove delegationId => rfl
    · exact serial.owned other p present
  alone a b p p' present present' own own' := by
    have busy : call.delegationId = id → ∀ other q, s.calls.get? other = some q →
        q.call.delegationId ≠ id := fun mine => (allowed caller now call rfl mine).2
    rw [get?_set] at present present'
    split at present <;> split at present'
    · next ha hb => exact ha.trans hb.symm
    · cases present
      exact absurd own' (busy own b p' present')
    · cases present'
      exact absurd own (busy own' a p present)
    · exact serial.alone a b p p' present present' own own'
  pending other c e landed present own := by
    rw [get?_set] at present
    split at present
    · cases present
      obtain ⟨⟨status, rfl⟩, none_busy⟩ := allowed caller now call rfl own
      cases start_passed started with
      | setStatus _ _ current stored changes kept =>
        refine ⟨current, _, stored, rfl, ⟨Nat.lt_succ_self _, kept, changes⟩, ?_⟩
        have same := serial.quiet none_busy
        rw [stored] at same
        exact same
    · exact serial.pending other c e landed present own
  quiet silent := by
    apply serial.quiet
    intro other p present
    apply silent other p
    rw [get?_set_of_ne _ _ fun same => by rw [same, free] at present; cases present]
    exact present

theorem OneAtATime.failed
    (waiting : s.calls.get? caller = some ⟨call, effect, false⟩) :
    OneAtATime id { s with calls := s.calls.delete caller } := by
  exact {
    keyed := serial.keyed
    owned := fun other p present => serial.owned other p (kept_of_delete present).2
    alone := fun a b p p' present present' =>
      serial.alone a b p p' (kept_of_delete present).2 (kept_of_delete present').2
    pending := fun other c e l present => serial.pending other c e l (kept_of_delete present).2
    quiet := by
      intro silent
      by_cases own : call.delegationId = id
      · -- The call of this delegation failed before its file operation.
        obtain ⟨d, next, stored, -, -, file⟩ := serial.pending caller call effect false waiting own
        rw [file, stored]
        rfl
      · apply serial.quiet
        intro other p present
        by_cases same : other = caller
        · rw [same, waiting] at present
          cases present
          exact own
        · apply silent other p
          rw [get?_delete_of_ne _ same]
          exact present }

theorem OneAtATime.landed
    (waiting : s.calls.get? caller = some ⟨call, effect, false⟩) :
    OneAtATime id ⟨⟨effect.onDisk s.world.disk, s.world.store⟩, s.calls.set caller ⟨call, effect, true⟩⟩ := by
  have before : ∀ other p, (s.calls.set caller ⟨call, effect, true⟩).get? other = some p →
      ∃ landed, s.calls.get? other = some ⟨p.call, p.effect, landed⟩ := by
    intro other p present
    rw [get?_set] at present
    split at present
    · next same =>
      cases present
      exact ⟨false, same ▸ waiting⟩
    · exact ⟨p.landed, present⟩
  have owner := serial.owned caller _ waiting
  exact {
    keyed := serial.keyed
    owned := by
      intro other p present
      obtain ⟨landed, present'⟩ := before other p present
      have own := serial.owned other ⟨p.call, p.effect, landed⟩ present'
      exact own
    alone := by
      intro a b p p' present present' own own'
      obtain ⟨la, presentA⟩ := before a p present
      obtain ⟨lb, presentB⟩ := before b p' present'
      exact serial.alone a b _ _ presentA presentB own own'
    pending := by
      intro other c e landed present own
      rw [get?_set] at present
      split at present
      · cases present
        obtain ⟨d, next, stored, rfl, later, -⟩ := serial.pending caller _ _ false waiting own
        refine ⟨d, next, stored, rfl, later, ?_⟩
        have target : next.delegationId = id := owner.trans own
        simp only [onDisk, target, get?_set_self, if_true]
      · next hne =>
        obtain ⟨d, next, stored, shape, later, file⟩ := serial.pending other c e landed present own
        refine ⟨d, next, stored, shape, later, ?_⟩
        rw [onDisk_other fun mine => hne (serial.alone other caller _ _ present waiting own
          (owner.symm.trans mine))]
        exact file
    quiet := by
      intro silent
      have other : call.delegationId ≠ id :=
        silent caller ⟨call, effect, true⟩ (get?_set_self _ _ _)
      rw [onDisk_other fun mine => other (owner.symm.trans mine)]
      apply serial.quiet
      intro c p present
      by_cases same : c = caller
      · rw [same, waiting] at present
        cases present
        exact other
      · apply silent c p
        rw [get?_set_of_ne _ _ same]
        exact present }

theorem OneAtATime.settled
    (waiting : s.calls.get? caller = some ⟨call, effect, true⟩) :
    OneAtATime id ⟨⟨s.world.disk, afterEffect s.world.store effect⟩, s.calls.delete caller⟩ := by
  have owner := serial.owned caller _ waiting
  exact {
    keyed := onMap_keyed serial.keyed
    owned := fun other p present => serial.owned other p (kept_of_delete present).2
    alone := fun a b p p' present present' =>
      serial.alone a b p p' (kept_of_delete present).2 (kept_of_delete present').2
    pending := by
      intro other c e landed present own
      obtain ⟨hne, present'⟩ := kept_of_delete present
      obtain ⟨d, next, stored, shape, later, file⟩ := serial.pending other c e landed present' own
      refine ⟨d, next, ?_, shape, later, file⟩
      simp only [afterEffect]
      rw [onMap_other fun mine => hne (serial.alone other caller _ _ present' waiting own
        (owner.symm.trans mine))]
      exact stored
    quiet := by
      intro silent
      by_cases own : call.delegationId = id
      · obtain ⟨d, next, stored, rfl, later, file⟩ := serial.pending caller call effect true waiting own
        have target : next.delegationId = id := owner.trans own
        simp only [afterEffect, onMap, target, get?_set_self, file, if_true, map_some]
      · simp only [afterEffect]
        rw [onMap_other fun mine => own (owner.symm.trans mine)]
        apply serial.quiet
        intro other p present
        by_cases same : other = caller
        · rw [same, waiting] at present
          cases present
          exact own
        · apply silent other p
          rw [get?_delete_of_ne _ same]
          exact present }

end

end Moves

variable {event : DelegationEvent}

/-- The step lemma. -/
theorem OneAtATime.step {id : HostThreadId} {s s' : DelegationSystem}
    (serial : OneAtATime id s) (allowed : SerialOn id s event) (step : DelegationStep s event s') :
    OneAtATime id s' := by
  cases step_moved step with
  | answered => exact serial
  | begun caller now call effect free started => exact serial.begun free allowed started
  | landed caller call effect waiting => exact serial.landed waiting
  | failed caller call effect waiting => exact serial.failed waiting
  | settled caller call effect waiting => exact serial.settled waiting

theorem StoreSound.oneAtATime {w : StoreWorld} (sound : StoreSound w) (id : HostThreadId) :
    OneAtATime id (.idle w) where
  keyed other d stored := (sound.mirrored.delegationsParsed other d stored).1
  owned _ _ h := by cases h
  alone _ _ _ _ h := by cases h
  pending _ _ _ _ h := by cases h
  quiet _ := sound.mirrored.delegationFiles id

/-- One event leaves the stored record or replaces it by a later one, as the end of the call
that changed it. -/
theorem OneAtATime.record_step {id : HostThreadId} {s s' : DelegationSystem} (serial : OneAtATime id s) (step : DelegationStep s event s') :
    s'.world.store.delegations.get? id = s.world.store.delegations.get? id ∨
      ∃ caller d next, event = .settle caller ∧ s.world.store.delegations.get? id = some d ∧
        s'.world.store.delegations.get? id = some next ∧ Later d next := by
  cases step_moved step with
  | answered | begun | landed | failed => exact .inl rfl
  | settled caller call effect waiting =>
    have owner := serial.owned caller _ waiting
    by_cases own : call.delegationId = id
    · obtain ⟨d, next, stored, rfl, later, -⟩ := serial.pending caller call effect true waiting own
      have target : next.delegationId = id := owner.trans own
      refine .inr ⟨caller, d, next, rfl, stored, ?_, later⟩
      simp only [afterEffect, onMap, target, get?_set_self]
    · left
      exact onMap_other fun mine => own (owner.symm.trans mine)

/-- A terminal status of a stored delegation. -/
def TerminalIn (id : HostThreadId) (s : DelegationSystem) : Prop :=
  ∃ d, s.world.store.delegations.get? id = some d ∧ terminal d.status

theorem OneAtATime.terminal_step {id : HostThreadId} {s s' : DelegationSystem} (serial : OneAtATime id s) (step : DelegationStep s event s')
    (ended : TerminalIn id s) : TerminalIn id s' := by
  obtain ⟨d, stored, terminated⟩ := ended
  rcases serial.record_step step with same | ⟨caller, d', next, -, stored', after, later⟩
  · exact ⟨d, same.trans stored, terminated⟩
  · rw [stored] at stored'
    cases stored'
    exact ⟨next, after, later.terminal terminated⟩

/-- In any state at all, a call that finds a terminal status ends at once when it asks for
one that is not. -/
theorem terminal_guard {id : HostThreadId} {s s' : DelegationSystem} {caller : Nat}
    {now : Timestamp} {status : DelegationStatus} (ended : TerminalIn id s)
    (leaves : terminal status = false)
    (step : DelegationStep s (.begin caller now (.setStatus id status)) s') : s' = s := by
  obtain ⟨d, stored, terminated⟩ := ended
  cases step_moved step with
  | answered => rfl
  | begun _ _ _ effect free started =>
    cases start_passed started with
    | setStatus _ _ current stored' changes kept =>
      rw [stored] at stored'
      cases stored'
      rw [kept terminated] at leaves
      cases leaves

/-- A delegation that runs, and then completes without another call in between. -/
def runningDelegation : StoreEvent :=
  .delegation 0 none (.create { delegationInput "d1" "child" "r1" with status := some .running })

def runningWorld : StoreWorld :=
  [runningDelegation].foldl (fun w event => event.happen (fun _ => none) w) (newStore creationOrder 0)

def statusChange (caller : Nat) (status : DelegationStatus) : List DelegationEvent :=
  [.begin caller 1 (.setStatus "d1" status), .land caller, .settle caller]

end CodexHost.Guarantees
