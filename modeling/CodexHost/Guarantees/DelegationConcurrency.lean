import CodexHost.Source.MappingStore.DelegationInterleaving
import CodexHost.Guarantees.RestartFaithfulness

/-!
# Delegation calls that overlap

A call checks the delegations it finds, and publishes its record later without checking
again. Two calls that overlap can both pass: two `createDelegation` calls with one child
Thread store two delegations of that Thread, the rebuild of the second throws and leaves
the indexes half built, and no store starts over the files. While no call begins that
conflicts with one in flight, what is stored, published or about to be stays in agreement.
-/
namespace CodexHost.Guarantees
open Foundation Source.SharedContracts Source.MappingStore OrderedMap Command Option DelegationEffect DelegationEvent DelegationSystem

/-- Two records of one delegation name the same child and request; records of different
delegations share neither. -/
structure Agree (d d' : StoredDelegationRecordV1) : Prop where
  same : d.delegationId = d'.delegationId →
    d.childHostThreadId = d'.childHostThreadId ∧ d.requestId = d'.requestId
  apart : d.delegationId ≠ d'.delegationId → SeparateDelegations d d'

theorem Agree.refl (d : StoredDelegationRecordV1) : Agree d d := ⟨fun _ => ⟨rfl, rfl⟩, absurd rfl⟩

theorem Agree.symm {d d' : StoredDelegationRecordV1} (h : Agree d d') : Agree d' d where
  same keyed := ⟨(h.same keyed.symm).1.symm, (h.same keyed.symm).2.symm⟩
  apart hne := (h.apart fun keyed => hne keyed.symm).symm

/-- A record agrees with what another record of the same delegation agrees with. -/
theorem Agree.congr {d d' e : StoredDelegationRecordV1} (keyed : d.delegationId = d'.delegationId)
    (h : Agree d d') (h' : Agree d' e) : Agree d e := by
  obtain ⟨child, request⟩ := h.same keyed
  constructor
  · intro same
    rw [keyed] at same
    rw [child, request]
    exact h'.same same
  · intro hne
    rw [keyed] at hne
    have separate := h'.apart hne
    exact ⟨child ▸ separate.child, request ▸ separate.request⟩

/-- What two effects in flight may do side by side. -/
def Compatible : DelegationEffect → DelegationEffect → Prop
  | .publish record, .publish record' => Agree record record'
  | .publish record, .erase delegationId => record.delegationId ≠ delegationId
  | .erase delegationId, .publish record => record.delegationId ≠ delegationId
  | .erase _, .erase _ => True

theorem Compatible.symm {effect effect' : DelegationEffect} (h : Compatible effect effect') :
    Compatible effect' effect := by
  cases effect <;> cases effect' <;> first | exact Agree.symm h | exact h

/-- The record that the call publishes, or the ID that it erases. -/
def DoneBy : DelegationCall → DelegationEffect → Prop
  | .create input, .publish record => record.delegationId = input.delegationId ∧
      record.childHostThreadId = input.childHostThreadId ∧ record.requestId = input.requestId
  | .setStatus delegationId _, .publish record => record.delegationId = delegationId
  | .remove delegationId, .erase delegationId' => delegationId' = delegationId
  | _, _ => False

/-- Two calls that must not overlap: creations that share an identity without naming the
same delegation by all of them, and a removal beside another call on its delegation. -/
def Conflicting : DelegationCall → DelegationCall → Prop
  | .create input, .create input' =>
    (input.delegationId = input'.delegationId ∨ input.childHostThreadId = input'.childHostThreadId ∨
      ∃ requestId, input.requestId = some requestId ∧ input'.requestId = some requestId) ∧
    ¬ (input.delegationId = input'.delegationId ∧
      input.childHostThreadId = input'.childHostThreadId ∧ input.requestId = input'.requestId)
  | .create input, .remove delegationId => input.delegationId = delegationId
  | .remove delegationId, .create input => input.delegationId = delegationId
  | .setStatus delegationId _, .remove delegationId' => delegationId = delegationId'
  | .remove delegationId', .setStatus delegationId _ => delegationId = delegationId'
  | _, _ => False

/-- No call that passes its checks begins while a conflicting one is in flight. -/
def NoConflict (s : DelegationSystem) (event : DelegationEvent) : Prop :=
  ∀ caller now call effect, event = .begin caller now call →
    call.start now s.world.store = .ok (some effect) →
    ∀ other pending, s.calls.get? other = some pending → ¬ Conflicting pending.call call

/-- What holds while calls are in flight. -/
structure InFlight (s : DelegationSystem) : Prop where
  consistent : StoreConsistent s.world.store
  parsed : ParsedDelegations s.world.store.delegations
  threads : ∀ id id' r r', startRecord s.world.disk id = some r →
    startRecord s.world.disk id' = some r' → id ≠ id' → SeparateIdentities r r'
  done : ∀ caller pending, s.calls.get? caller = some pending → DoneBy pending.call pending.effect
  valid : ∀ caller call record landed, s.calls.get? caller = some ⟨call, .publish record, landed⟩ →
    storedDelegationRecordV1Schema record
  stored : ∀ caller call record landed, s.calls.get? caller = some ⟨call, .publish record, landed⟩ →
    ∀ id d, s.world.store.delegations.get? id = some d → Agree d record
  known : ∀ caller id status record landed,
    s.calls.get? caller = some ⟨.setStatus id status, .publish record, landed⟩ →
    ∃ d, s.world.store.delegations.get? id = some d
  compatible : ∀ caller caller' pending pending', caller ≠ caller' →
    s.calls.get? caller = some pending → s.calls.get? caller' = some pending' →
    Compatible pending.effect pending'.effect
  files : ∀ id content, s.world.disk.delegations.get? id = some content →
    ∃ d, content = .json d ∧ d.delegationId = id ∧ storedDelegationRecordV1Schema d ∧
      ((∃ d', s.world.store.delegations.get? id = some d' ∧ Agree d d') ∨
        ∃ caller call record, s.calls.get? caller = some ⟨call, .publish record, true⟩ ∧
          record.delegationId = id ∧ Agree d record)
  erased : ∀ caller call id, s.calls.get? caller = some ⟨call, .erase id, true⟩ →
    s.world.disk.delegations.get? id = none

variable {now : Timestamp}

/-- The record of a call that passed its checks agrees with what is stored. -/
theorem start_agrees {store : StoreState} {call : DelegationCall}
    {record : StoredDelegationRecordV1} (consistent : StoreConsistent store)
    (parsed : ParsedDelegations store.delegations)
    (started : call.start now store = .ok (some (.publish record))) :
    storedDelegationRecordV1Schema record ∧ ∀ id d, store.delegations.get? id = some d → Agree d record := by
  have separate := consistent.delegations
  rw [pairwise_values_iff fun _ _ h => h.symm] at separate
  obtain ⟨valid, apart⟩ := start_admissible consistent.projects.delegations parsed
    (fun id id' d d' h h' hne => separate id id' d d' h h' hne) started
  refine ⟨valid, fun id d stored => ⟨?_, ?_⟩⟩
  · intro keyed
    rw [(parsed id d stored).1] at keyed
    cases start_passed started with
    | create input newId =>
      have own : input.delegationId = id := keyed.symm
      rw [own, stored] at newId
      cases newId
    | setStatus delegationId status current known =>
      have own : id = delegationId := keyed.trans (parsed delegationId current known).1
      rw [own, known] at stored
      cases stored
      exact ⟨rfl, rfl⟩
  · intro hne
    rw [(parsed id d stored).1] at hne
    exact apart id d stored hne

/-- What one event did to the system. -/
inductive Moved (s : DelegationSystem) : DelegationEvent → DelegationSystem → Prop where
  | answered (caller : Nat) (now : Timestamp) (call : DelegationCall) :
      Moved s (.begin caller now call) s
  | begun (caller : Nat) (now : Timestamp) (call : DelegationCall) (effect : DelegationEffect)
      (free : s.calls.get? caller = none)
      (started : call.start now s.world.store = .ok (some effect)) :
      Moved s (.begin caller now call) { s with calls := s.calls.set caller ⟨call, effect, false⟩ }
  | landed (caller : Nat) (call : DelegationCall) (effect : DelegationEffect)
      (pending : s.calls.get? caller = some ⟨call, effect, false⟩) :
      Moved s (.land caller)
        ⟨⟨effect.onDisk s.world.disk, s.world.store⟩, s.calls.set caller ⟨call, effect, true⟩⟩
  | failed (caller : Nat) (call : DelegationCall) (effect : DelegationEffect)
      (pending : s.calls.get? caller = some ⟨call, effect, false⟩) :
      Moved s (.fail caller) { s with calls := s.calls.delete caller }
  | settled (caller : Nat) (call : DelegationCall) (effect : DelegationEffect)
      (pending : s.calls.get? caller = some ⟨call, effect, true⟩) :
      Moved s (.settle caller) ⟨⟨s.world.disk, afterEffect s.world.store effect⟩, s.calls.delete caller⟩

/-- The second synchronous stretch updates the map and leaves rebuilt indexes, also when
the rebuild throws. -/
theorem finish_after (effect : DelegationEffect) (w : StoreWorld) :
    (effect.finish.exec ⟨none, w⟩).2.state = ⟨w.disk, afterEffect w.store effect⟩ := by
  apply wp_after (P := fun w' : World => w'.state = ⟨w.disk, afterEffect w.store effect⟩)
  unfold finish rebuild
  simp only [wp_bind, wp_modifyStore, wp_readStore, wp_lift]
  exact ⟨fun _ _ => rfl, fun _ _ => rfl⟩

theorem step_moved {s s' : DelegationSystem} {event : DelegationEvent}
    (step : DelegationStep s event s') : Moved s event s' := by
  unfold DelegationStep at step
  cases event with
  | begin caller now call =>
    simp only [happen] at step
    split at step
    · cases step
    · next free =>
      split at step
      · cases step
        exact .answered caller now call
      · cases step
        exact .answered caller now call
      · next effect started =>
        cases step
        exact .begun caller now call effect ((has_eq_false_iff _ _).mp (Bool.eq_false_iff.mpr free)) started
  | land caller =>
    simp only [happen] at step
    split at step
    · next call effect pending =>
      cases step
      exact .landed caller call effect pending
    · cases step
  | fail caller =>
    simp only [happen] at step
    split at step
    · next call effect pending =>
      cases step
      exact .failed caller call effect pending
    · cases step
  | settle caller =>
    simp only [happen] at step
    split at step
    · next call effect pending =>
      cases step
      rw [finish_after]
      exact .settled caller call effect pending
    · cases step

section Moves
variable {s : DelegationSystem} {caller : Nat} {call : DelegationCall} {effect : DelegationEffect}

variable (inFlight : InFlight s)
include inFlight

/-- A call that passed its checks is compatible with every call in flight that does not
conflict with it. -/
theorem InFlight.fits
    (started : call.start now s.world.store = .ok (some effect)) {other : Nat}
    {pending : PendingCall} (present : s.calls.get? other = some pending)
    (free : ¬ Conflicting pending.call call) : Compatible pending.effect effect := by
  obtain ⟨call', effect', landed⟩ := pending
  have done' := inFlight.done other _ present
  have agrees : ∀ record, effect = .publish record → ∀ id d,
      s.world.store.delegations.get? id = some d → Agree d record := by
    rintro record rfl
    exact (start_agrees inFlight.consistent inFlight.parsed started).2
  -- A status change speaks of a delegation that is stored.
  have viaStored : ∀ id status record' record, call' = .setStatus id status →
      effect' = .publish record' → effect = .publish record → Agree record' record := by
    rintro id status record' record rfl rfl rfl
    obtain ⟨d, stored⟩ := inFlight.known other id status record' landed present
    have own : record'.delegationId = d.delegationId :=
      done'.trans (inFlight.parsed id d stored).1.symm
    exact Agree.congr own (inFlight.stored other _ record' landed present id d stored).symm
      (agrees record rfl id d stored)
  cases start_passed started with
  | create input newId =>
    cases call' with
    | create input' =>
      cases effect' with
      | erase _ => exact done'.elim
      | publish record' =>
        obtain ⟨sameId, sameChild, sameRequest⟩ := done'
        constructor
        · intro keyed
          by_contra differ
          refine free ⟨.inl (sameId.symm.trans keyed), fun same => differ ?_⟩
          exact ⟨sameChild.trans same.2.1, sameRequest.trans same.2.2⟩
        · intro hne
          have differ : ¬ (input'.delegationId = input.delegationId ∧
              input'.childHostThreadId = input.childHostThreadId ∧
              input'.requestId = input.requestId) := fun same => hne (sameId.trans same.1)
          constructor
          · intro child
            exact free ⟨.inr (.inl (sameChild.symm.trans child)), differ⟩
          · intro requestId given given'
            exact free ⟨.inr (.inr ⟨requestId, sameRequest.symm.trans given, given'⟩), differ⟩
    | setStatus id status =>
      cases effect' with
      | erase _ => exact done'.elim
      | publish record' => exact viaStored id status record' _ rfl rfl rfl
    | remove id =>
      cases effect' with
      | publish _ => exact done'.elim
      | erase id' =>
        intro same
        exact free (same.trans done')
  | setStatus delegationId status current stored =>
    have own := (inFlight.parsed delegationId current stored).1
    cases effect' with
    | publish record' =>
      -- The new record has the identities of the stored one.
      have agrees := inFlight.stored other _ record' landed present delegationId current stored
      exact Agree.symm (@Agree.congr _ current _ rfl ⟨fun _ => ⟨rfl, rfl⟩, absurd rfl⟩ agrees)
    | erase id' =>
      intro same
      cases call' with
      | create _ => exact done'.elim
      | setStatus _ _ => exact done'.elim
      | remove id =>
        exact free ((own.symm.trans same).trans done')
  | remove delegationId =>
    cases effect' with
    | erase _ => trivial
    | publish record' =>
      intro same
      cases call' with
      | create input' => exact free (done'.1.symm.trans same)
      | setStatus id status =>
        exact free (done'.symm.trans same)
      | remove _ => exact done'.elim

theorem InFlight.begun (free : s.calls.get? caller = none)
    (started : call.start now s.world.store = .ok (some effect))
    (fits : ∀ other pending, s.calls.get? other = some pending → Compatible pending.effect effect) :
    InFlight { s with calls := s.calls.set caller ⟨call, effect, false⟩ } where
  consistent := inFlight.consistent
  parsed := inFlight.parsed
  threads := inFlight.threads
  done other pending present := by
    rw [get?_set] at present
    split at present
    · cases present
      cases start_passed started with
      | create input => exact ⟨rfl, rfl, rfl⟩
      | setStatus delegationId status current stored =>
        exact (inFlight.parsed delegationId current stored).1
      | remove delegationId => rfl
    · exact inFlight.done other pending present
  valid other call' record landed present := by
    rw [get?_set] at present
    split at present
    · cases present
      exact (start_agrees inFlight.consistent inFlight.parsed started).1
    · exact inFlight.valid other call' record landed present
  stored other call' record landed present := by
    rw [get?_set] at present
    split at present
    · cases present
      exact (start_agrees inFlight.consistent inFlight.parsed started).2
    · exact inFlight.stored other call' record landed present
  known other id status record landed present := by
    rw [get?_set] at present
    split at present
    · cases present
      cases start_passed started with
      | setStatus _ _ current stored => exact ⟨current, stored⟩
    · exact inFlight.known other id status record landed present
  compatible a b pending pending' hne present present' := by
    rw [get?_set] at present present'
    split at present <;> split at present'
    · next ha hb => exact absurd (ha.trans hb.symm) hne
    · cases present
      exact (fits b pending' present').symm
    · cases present'
      exact fits a pending present
    · exact inFlight.compatible a b pending pending' hne present present'
  files id content present := by
    obtain ⟨d, json, keyed, valid, origin⟩ := inFlight.files id content present
    refine ⟨d, json, keyed, valid, origin.imp_right ?_⟩
    rintro ⟨other, call', record, pending, own, agree⟩
    refine ⟨other, call', record, ?_, own, agree⟩
    rw [get?_set_of_ne _ _ fun same => by rw [same, free] at pending; cases pending]
    exact pending
  erased other call' id present := by
    rw [get?_set] at present
    split at present
    · cases present
    · exact inFlight.erased other call' id present

section
variable (pending : s.calls.get? caller = some ⟨call, effect, false⟩)
include pending

/-- A call whose file operation failed leaves nothing behind. -/
theorem InFlight.failed :
    InFlight { s with calls := s.calls.delete caller } := by
  exact {
    consistent := inFlight.consistent
    parsed := inFlight.parsed
    threads := inFlight.threads
    done := fun other p present => inFlight.done other p (kept_of_delete present).2
    valid := fun other c r l present => inFlight.valid other c r l (kept_of_delete present).2
    stored := fun other c r l present => inFlight.stored other c r l (kept_of_delete present).2
    known := fun other id status r l present =>
      inFlight.known other id status r l (kept_of_delete present).2
    compatible := fun a b p p' hne present present' =>
      inFlight.compatible a b p p' hne (kept_of_delete present).2 (kept_of_delete present').2
    files := by
      intro id content present
      obtain ⟨d, json, keyed, valid, origin⟩ := inFlight.files id content present
      refine ⟨d, json, keyed, valid, origin.imp_right ?_⟩
      rintro ⟨other, call', record, landed, own, agree⟩
      refine ⟨other, call', record, ?_, own, agree⟩
      rw [get?_delete_of_ne _ fun same => by rw [same, pending] at landed; cases landed]
      exact landed
    erased := fun other c id present => inFlight.erased other c id (kept_of_delete present).2 }

theorem InFlight.landed :
    InFlight ⟨⟨effect.onDisk s.world.disk, s.world.store⟩, s.calls.set caller ⟨call, effect, true⟩⟩ := by
  -- The calls in flight are the same but for the flag of this one.
  have before : ∀ other p, (s.calls.set caller ⟨call, effect, true⟩).get? other = some p →
      ∃ landed, s.calls.get? other = some ⟨p.call, p.effect, landed⟩ ∧
        (other ≠ caller → landed = p.landed) := by
    intro other p present
    rw [get?_set] at present
    split at present
    · next same =>
      cases present
      exact ⟨false, same ▸ pending, fun hne => absurd same hne⟩
    · exact ⟨p.landed, present, fun _ => rfl⟩
  have stays : ∀ other p, s.calls.get? other = some p → p.landed = true →
      (s.calls.set caller ⟨call, effect, true⟩).get? other = some p := by
    intro other p present landed
    rw [get?_set_of_ne]
    · exact present
    · rintro rfl
      rw [pending] at present
      cases present
      cases landed
  exact {
    consistent := inFlight.consistent
    parsed := inFlight.parsed
    threads := by
      cases effect <;> exact inFlight.threads
    done := by
      intro other p present
      obtain ⟨landed, present', -⟩ := before other p present
      have own := inFlight.done other ⟨p.call, p.effect, landed⟩ present'
      exact own
    valid := by
      intro other c r l present
      obtain ⟨landed, present', -⟩ := before other _ present
      exact inFlight.valid other c r landed present'
    stored := by
      intro other c r l present
      obtain ⟨landed, present', -⟩ := before other _ present
      exact inFlight.stored other c r landed present'
    known := by
      intro other id status r l present
      obtain ⟨landed, present', -⟩ := before other _ present
      exact inFlight.known other id status r landed present'
    compatible := by
      intro a b p p' hne present present'
      obtain ⟨landedA, presentA, -⟩ := before a p present
      obtain ⟨landedB, presentB, -⟩ := before b p' present'
      have fits := inFlight.compatible a b ⟨p.call, p.effect, landedA⟩
        ⟨p'.call, p'.effect, landedB⟩ hne presentA presentB
      exact fits
    files := by
      intro id content present
      have old : s.world.disk.delegations.get? id = some content →
          ∃ d, content = .json d ∧ d.delegationId = id ∧ storedDelegationRecordV1Schema d ∧
            ((∃ d', s.world.store.delegations.get? id = some d' ∧ Agree d d') ∨ ∃ other c record,
                (s.calls.set caller ⟨call, effect, true⟩).get? other = some ⟨c, .publish record, true⟩ ∧
                record.delegationId = id ∧ Agree d record) := by
        intro present
        obtain ⟨d, json, keyed, valid, origin⟩ := inFlight.files id content present
        refine ⟨d, json, keyed, valid, origin.imp_right ?_⟩
        rintro ⟨other, c, record, landed, own, agree⟩
        exact ⟨other, c, record, stays other _ landed rfl, own, agree⟩
      cases effect with
      | publish record =>
        simp only [onDisk, get?_set] at present
        split at present
        · next same =>
          cases present
          refine ⟨record, rfl, same.symm, inFlight.valid caller call record false pending, ?_⟩
          exact .inr ⟨caller, call, record, get?_set_self _ _ _, same.symm, Agree.refl record⟩
        · exact old present
      | erase delegationId =>
        exact old (kept_of_delete present).2
    erased := by
      intro other c id present
      have gone : other ≠ caller → s.world.disk.delegations.get? id = none := by
        intro hne
        obtain ⟨landed, present', same⟩ := before other _ present
        rw [same hne] at present'
        exact inFlight.erased other c id present'
      cases effect with
      | publish record =>
        have hne : other ≠ caller := by
          rintro rfl
          rw [get?_set_self] at present
          cases present
        obtain ⟨landed, present', -⟩ := before other _ present
        have apart : record.delegationId ≠ id :=
          inFlight.compatible caller other _ _ hne.symm pending present'
        simp only [onDisk]
        rw [get?_set_of_ne _ _ apart.symm]
        exact gone hne
      | erase delegationId =>
        simp only [onDisk, get?_delete]
        split
        · rfl
        · next differs =>
          apply gone
          rintro rfl
          rw [get?_set_self] at present
          cases present
          exact differs rfl }

end

/-- The effect of a call in flight is still admissible when the call resumes. -/
theorem InFlight.admissible {landed : Bool}
    (pending : s.calls.get? caller = some ⟨call, effect, landed⟩) :
    AdmissibleEffect s.world.store.delegations effect := by
  cases effect with
  | publish record =>
    refine ⟨inFlight.valid caller call record landed pending, ?_⟩
    intro id d stored hne
    apply (inFlight.stored caller call record landed pending id d stored).apart
    rw [(inFlight.parsed id d stored).1]
    exact hne
  | erase delegationId => trivial

theorem InFlight.settled (pending : s.calls.get? caller = some ⟨call, effect, true⟩) :
    InFlight ⟨⟨s.world.disk, afterEffect s.world.store effect⟩, s.calls.delete caller⟩ := by
  have admissible := inFlight.admissible pending
  exact {
    consistent := (admissible.consistent inFlight.consistent).2
    parsed := admissible.parsed inFlight.parsed
    threads := inFlight.threads
    done := fun other p present => inFlight.done other p (kept_of_delete present).2
    valid := fun other c r l present => inFlight.valid other c r l (kept_of_delete present).2
    stored := by
      intro other c r l present id d stored
      obtain ⟨hne, waiting⟩ := kept_of_delete present
      have before := inFlight.stored other c r l waiting id d
      cases effect with
      | publish record =>
        simp only [afterEffect, onMap, get?_set] at stored
        split at stored
        · cases stored
          exact inFlight.compatible caller other _ _ hne.symm pending waiting
        · exact before stored
      | erase delegationId =>
        simp only [afterEffect, onMap, get?_delete] at stored
        split at stored
        · cases stored
        · exact before stored
    known := by
      intro other id status r l present
      obtain ⟨hne, waiting⟩ := kept_of_delete present
      obtain ⟨d, stored⟩ := inFlight.known other id status r l waiting
      cases effect with
      | publish record =>
        simp only [afterEffect, onMap, get?_set]
        split
        · exact ⟨record, rfl⟩
        · exact ⟨d, stored⟩
      | erase delegationId =>
        have apart : r.delegationId ≠ delegationId :=
          inFlight.compatible other caller _ _ hne waiting pending
        have own : r.delegationId = id := inFlight.done other _ waiting
        refine ⟨d, ?_⟩
        simp only [afterEffect, onMap]
        rw [get?_delete_of_ne _ (own ▸ apart)]
        exact stored
    compatible := fun a b p p' hne present present' =>
      inFlight.compatible a b p p' hne (kept_of_delete present).2 (kept_of_delete present').2
    files := by
      intro id content present
      obtain ⟨d, json, keyed, valid, origin⟩ := inFlight.files id content present
      refine ⟨d, json, keyed, valid, ?_⟩
      cases effect with
      | publish record =>
        rcases origin with ⟨d', stored, agree⟩ | ⟨other, c, r, landed, own, agree⟩
        · left
          simp only [afterEffect, onMap, get?_set]
          split
          · refine ⟨record, rfl, agree.congr ?_ ?_⟩
            · exact keyed.trans (inFlight.parsed id d' stored).1.symm
            · exact inFlight.stored caller call record true pending id d' stored
          · exact ⟨d', stored, agree⟩
        · by_cases same : other = caller
          · left
            rw [same, pending] at landed
            cases landed
            refine ⟨record, ?_, agree⟩
            simp only [afterEffect, onMap, own, get?_set_self]
          · refine .inr ⟨other, c, r, ?_, own, agree⟩
            rw [get?_delete_of_ne _ same]
            exact landed
      | erase delegationId =>
        have gone := inFlight.erased caller call delegationId pending
        rcases origin with ⟨d', stored, agree⟩ | ⟨other, c, r, landed, own, agree⟩
        · left
          refine ⟨d', ?_, agree⟩
          simp only [afterEffect, onMap]
          rw [get?_delete_of_ne _ fun same => by rw [same, gone] at present; cases present]
          exact stored
        · refine .inr ⟨other, c, r, ?_, own, agree⟩
          rw [get?_delete_of_ne _ fun same => by rw [same, pending] at landed; cases landed]
          exact landed
    erased := fun other c id present => inFlight.erased other c id (kept_of_delete present).2 }

end Moves

/-- The step lemma. -/
theorem InFlight.step {s s' : DelegationSystem} {event : DelegationEvent} (inFlight : InFlight s)
    (free : NoConflict s event) (step : DelegationStep s event s') : InFlight s' := by
  cases step_moved step with
  | answered => exact inFlight
  | begun caller now call effect available started =>
    apply inFlight.begun available started
    intro other pending present
    exact inFlight.fits started present (free caller now call effect rfl started other pending present)
  | landed caller call effect pending => exact inFlight.landed pending
  | failed caller call effect pending => exact inFlight.failed pending
  | settled caller call effect pending => exact inFlight.settled pending

theorem StoreSound.inFlight {w : StoreWorld} (sound : StoreSound w) : InFlight (.idle w) where
  consistent := sound.consistent
  parsed := sound.mirrored.delegationsParsed
  threads := (sound.mirrored.startsSeparate sound.consistent).threads
  done _ _ h := by cases h
  valid _ _ _ _ h := by cases h
  stored _ _ _ _ h := by cases h
  known _ _ _ _ _ h := by cases h
  compatible _ _ _ _ _ h := by cases h
  files id content present := by
    rw [idle, sound.mirrored.delegationFiles, map_eq_some_iff] at present
    obtain ⟨d, stored, json⟩ := present
    obtain ⟨keyed, valid⟩ := sound.mirrored.delegationsParsed id d stored
    exact ⟨d, json.symm, keyed, valid, .inl ⟨d, stored, Agree.refl d⟩⟩
  erased _ _ _ h := by cases h

/-- Two files hold records of two calls or of the memory, which are all separate. -/
theorem InFlight.files_separate {s : DelegationSystem} (inFlight : InFlight s)
    {id id' : HostThreadId} {d d' : StoredDelegationRecordV1}
    (file : s.world.disk.delegations.get? id = some (.json d))
    (file' : s.world.disk.delegations.get? id' = some (.json d')) (hne : id ≠ id') :
    SeparateDelegations d d' := by
  obtain ⟨_, json, keyed, -, origin⟩ := inFlight.files id _ file
  obtain ⟨_, json', keyed', -, origin'⟩ := inFlight.files id' _ file'
  cases json
  cases json'
  have separate := inFlight.consistent.delegations
  rw [pairwise_values_iff fun _ _ h => h.symm] at separate
  -- Each of the two agrees with a witness of its own ID; the witnesses agree with each other.
  have agree : ∃ e e', e.delegationId = id ∧ e'.delegationId = id' ∧ Agree d e ∧ Agree d' e' ∧
      Agree e e' := by
    rcases origin with ⟨e, stored, agree⟩ | ⟨a, c, e, landed, own, agree⟩ <;>
      rcases origin' with ⟨e', stored', agree'⟩ | ⟨b, c', e', landed', own', agree'⟩
    · have own := (inFlight.parsed id e stored).1
      have own' := (inFlight.parsed id' e' stored').1
      refine ⟨e, e', own, own', agree, agree', fun same => ?_, fun _ => ?_⟩
      · exact absurd (own.symm.trans (same.trans own')) hne
      · exact separate id id' e e' stored stored' hne
    · exact ⟨e, e', (inFlight.parsed id e stored).1, own', agree, agree',
        inFlight.stored b c' e' true landed' id e stored⟩
    · exact ⟨e, e', own, (inFlight.parsed id' e' stored').1, agree, agree',
        (inFlight.stored a c e true landed id' e' stored').symm⟩
    · refine ⟨e, e', own, own', agree, agree', ?_⟩
      by_cases same : a = b
      · rw [same, landed'] at landed
        cases landed
        exact Agree.refl _
      · exact inFlight.compatible a b _ _ same landed landed'
  obtain ⟨e, e', own, own', agree, agree', between⟩ := agree
  have first := agree.congr (keyed.trans own.symm) between
  have second := agree'.congr (keyed'.trans own'.symm) first.symm
  apply second.symm.apart
  rw [keyed, keyed']
  exact hne

/-- What the store promises of its delegations: unique children and requests, indexes that
project the records, and files that a new store loads. -/
structure DelegationsIntact (w : StoreWorld) : Prop where
  unique : ∀ id id' d d', w.store.delegations.get? id = some d →
    w.store.delegations.get? id' = some d' → id ≠ id' → SeparateDelegations d d'
  indexes : ProjectionOf w.store.indexes w.store.records.values w.store.delegations.values
  restarts : ∀ order now, (start order now none w.disk).1 = .ok ()

theorem InFlight.intact {s : DelegationSystem} (inFlight : InFlight s) : DelegationsIntact s.world where
  unique id id' d d' stored stored' hne := by
    have separate := inFlight.consistent.delegations
    rw [pairwise_values_iff fun _ _ h => h.symm] at separate
    exact separate id id' d d' stored stored' hne
  indexes := inFlight.consistent.projects
  restarts order now := by
    rw [start_ok_iff]
    refine ⟨inFlight.threads, ?_⟩
    have file : ∀ id d, startDelegation s.world.disk id = some d →
        s.world.disk.delegations.get? id = some (.json d) := by
      intro id d starts
      unfold startDelegation at starts
      split at starts
      · next record read =>
        cases starts
        exact (readDelegation_ok read).1
      · cases starts
    intro id id' d d' starts starts' hne
    exact inFlight.files_separate (file id d starts) (file id' d' starts') hne

def delegationInput (delegationId child : HostThreadId) (requestId : String) : CreateDelegationInput where
  delegationId := delegationId
  parentHostThreadId := "parent"
  childHostThreadId := child
  sourceHarnessId := "codex"
  targetHarnessId := "codex"
  status := none
  requestId := some requestId
  taskDigest := "0000000000000000000000000000000000000000000000000000000000000000"

/-- One call from its checks to its end. -/
def firstCreation : List DelegationEvent :=
  [.begin 0 0 (.create (delegationInput "d1" "child" "r1")), .land 0, .settle 0]

/-- Two calls for one child Thread, the second begun before the first has ended. -/
def overlappingCreations : List DelegationEvent :=
  [.begin 0 0 (.create (delegationInput "d1" "child" "r1")),
    .begin 1 0 (.create (delegationInput "d2" "child" "r2")),
    .land 0, .land 1, .settle 0, .settle 1]

end CodexHost.Guarantees
