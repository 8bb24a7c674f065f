import CodexHost.Guarantees.OperationEffects

/-!
# What a delegation call can do

A call that passed its checks is left with one effect: a record to publish or an ID to
erase. Published over the delegations it was checked against, the record shares no
identity with another one (`start_admissible`), so the rebuild that ends the call succeeds.
-/
namespace CodexHost.Guarantees
open Foundation Source.SharedContracts Source.MappingStore OrderedMap Command DelegationEffect DelegationCall

/-- Every delegation is stored under its own ID and is as the schema returned it. -/
def ParsedDelegations (delegations : OrderedMap HostThreadId StoredDelegationRecordV1) : Prop :=
  ∀ id d, delegations.get? id = some d → d.delegationId = id ∧ storedDelegationRecordV1Schema d

/-- A published record is accepted and separate from the delegations of all other IDs. -/
def AdmissibleEffect (delegations : OrderedMap HostThreadId StoredDelegationRecordV1) :
    DelegationEffect → Prop
  | .publish record => storedDelegationRecordV1Schema record ∧
      ∀ id d, delegations.get? id = some d → id ≠ record.delegationId → SeparateDelegations d record
  | .erase _ => True

theorem parseDelegation_ok {record parsed : StoredDelegationRecordV1}
    (passed : parseDelegation record = .ok parsed) :
    parsed = record ∧ storedDelegationRecordV1Schema record := by
  unfold parseDelegation at passed
  split at passed
  · next valid =>
    cases passed
    exact ⟨rfl, valid⟩
  · cases passed

/-- What a call found when it passed its checks, and the effect it is left with. -/
inductive Passed (now : Timestamp) (store : StoreState) : DelegationCall → DelegationEffect → Prop where
  | create (input : CreateDelegationInput) (newId : store.delegations.get? input.delegationId = none)
      (childFree : store.indexes.delegationChildren.has input.childHostThreadId = false)
      (requestFree : (input.requestId.filter (· ≠ "")).any store.indexes.delegationRequests.has = false)
      (valid : storedDelegationRecordV1Schema (newDelegation now input)) :
      Passed now store (.create input) (.publish (newDelegation now input))
  | setStatus (delegationId : HostThreadId) (status : DelegationStatus)
      (current : StoredDelegationRecordV1)
      (stored : store.delegations.get? delegationId = some current)
      (changes : current.status ≠ status)
      (kept : terminal current.status → terminal status)
      (valid : storedDelegationRecordV1Schema
        { current with revision := current.revision + 1, status, updatedAt := now }) :
      Passed now store (.setStatus delegationId status)
        (.publish { current with revision := current.revision + 1, status, updatedAt := now })
  | remove (delegationId : HostThreadId) :
      Passed now store (.remove delegationId) (.erase delegationId)

variable {store : StoreState} {call : DelegationCall} {effect : DelegationEffect}

theorem start_passed {now : Timestamp} (started : call.start now store = .ok (some effect)) :
    Passed now store call effect := by
  cases call with
  | create input =>
    simp only [start] at started
    split at started
    · cases started
    · next newId =>
      split at started
      · cases started
      · next childFree =>
        split at started
        · cases started
        · next requestFree =>
          cases passed : parseDelegation (newDelegation now input) with
          | error error => simp [passed, Except.map] at started
          | ok record =>
            obtain ⟨rfl, valid⟩ := parseDelegation_ok passed
            simp only [passed, Except.map, Except.ok.injEq, Option.some.injEq] at started
            subst started
            exact .create input ((has_eq_false_iff _ _).mp (Bool.eq_false_iff.mpr newId))
              (Bool.eq_false_iff.mpr childFree) (Bool.eq_false_iff.mpr requestFree) valid
  | setStatus delegationId status =>
    simp only [start] at started
    cases stored : store.delegations.get? delegationId with
    | none => simp [stored] at started
    | some current =>
      simp only [stored] at started
      split at started
      · cases started
      · next changes =>
        split at started
        · cases started
        · next kept =>
          cases passed : parseDelegation { current with
              revision := current.revision + 1, status, updatedAt := now } with
          | error error => simp [passed, Except.map] at started
          | ok next =>
            obtain ⟨rfl, valid⟩ := parseDelegation_ok passed
            simp only [passed, Except.map, Except.ok.injEq, Option.some.injEq] at started
            subst started
            simp only [Bool.and_eq_true, Bool.not_eq_true', not_and, Bool.not_eq_false] at kept
            exact .setStatus delegationId status current stored changes kept valid
  | remove delegationId =>
    simp only [start, Except.ok.injEq, Option.some.injEq] at started
    subst started
    exact .remove delegationId

/-- The checks before the first `await` make the effect admissible over the store they
were made on. -/
theorem start_admissible {now : Timestamp}
    (projects : DelegationProjection store.indexes store.delegations.values)
    (parsed : ParsedDelegations store.delegations)
    (separate : ∀ id id' d d', store.delegations.get? id = some d →
      store.delegations.get? id' = some d' → id ≠ id' → SeparateDelegations d d')
    (started : call.start now store = .ok (some effect)) :
    AdmissibleEffect store.delegations effect := by
  cases start_passed started with
  | create input newId childFree requestFree valid =>
    refine ⟨valid, ?_⟩
    intro id d stored _
    have listed : d ∈ store.delegations.values :=
      (mem_values_iff _ _).mpr ⟨id, stored⟩
    constructor
    · intro sameChild
      rw [← Bool.not_eq_true, has_iff] at childFree
      exact childFree ⟨_, (projects.delegationChildren _ _).mpr ⟨d, listed, sameChild, rfl⟩⟩
    · intro requestId known given
      have given : input.requestId = some requestId := given
      have nonEmpty : requestId ≠ "" := by
        rintro rfl
        simp only [storedDelegationRecordV1Schema, newDelegation, given, Option.all_some,
          Bool.and_eq_true] at valid
        have blank : nonBlankTextSchema 1024 "" = false := by decide
        rw [blank] at valid
        simp at valid
      rw [given, Option.filter_some, if_pos (by simpa using nonEmpty), Option.any_some,
        ← Bool.not_eq_true, has_iff] at requestFree
      exact requestFree ⟨_, (projects.delegationRequests _ _).mpr ⟨d, listed, known, rfl⟩⟩
  | setStatus delegationId status current stored _ _ valid =>
    refine ⟨valid, ?_⟩
    intro id d other hne
    have keyed := (parsed delegationId current stored).1
    have apart := separate id delegationId d current other stored
      fun same => hne (same.trans keyed.symm)
    exact ⟨apart.child, apart.request⟩
  | remove delegationId => trivial

theorem AdmissibleEffect.parsed {delegations : OrderedMap HostThreadId StoredDelegationRecordV1} (admissible : AdmissibleEffect delegations effect)
    (parsed : ParsedDelegations delegations) :
    ParsedDelegations (effect.onMap delegations) := by
  intro id d stored
  cases effect with
  | publish record =>
    simp only [onMap, get?_set] at stored
    split at stored
    · next same =>
      cases stored
      exact ⟨same.symm, admissible.1⟩
    · exact parsed id d stored
  | erase delegationId =>
    exact parsed id d (kept_of_delete stored).2

theorem AdmissibleEffect.separate {delegations : OrderedMap HostThreadId StoredDelegationRecordV1} (admissible : AdmissibleEffect delegations effect)
    (separate : delegations.values.Pairwise SeparateDelegations) :
    (effect.onMap delegations).values.Pairwise SeparateDelegations := by
  rw [pairwise_values_iff fun _ _ h => h.symm] at separate ⊢
  intro id id' d d' stored stored' hne
  cases effect with
  | publish record =>
    simp only [onMap, get?_set] at stored stored'
    split at stored <;> split at stored'
    · next h h' => exact absurd (h.trans h'.symm) hne
    · next h' =>
      cases stored
      exact (admissible.2 id' d' stored' h').symm
    · next h _ =>
      cases stored'
      exact admissible.2 id d stored h
    · exact separate id id' d d' stored stored' hne
  | erase delegationId =>
    exact separate id id' d d' (kept_of_delete stored).2 (kept_of_delete stored').2 hne

/-- The store after the effect and the rebuild that follows it. -/
def afterEffect (store : StoreState) (effect : DelegationEffect) : StoreState :=
  { store with
    delegations := effect.onMap store.delegations
    indexes := (rebuildIndexes store.records.values (effect.onMap store.delegations).values).2 }

/-- An admissible effect keeps the store consistent, and the rebuild does not throw. -/
theorem AdmissibleEffect.consistent
    (admissible : AdmissibleEffect store.delegations effect) (consistent : StoreConsistent store) :
    (rebuildIndexes store.records.values (effect.onMap store.delegations).values).1 = .ok () ∧
      StoreConsistent (afterEffect store effect) := by
  have separate := admissible.separate consistent.delegations
  obtain ⟨rebuilds, projects⟩ := consistent.records.rebuilds separate
  exact ⟨rebuilds, consistent.records, separate, projects⟩

section Body
variable {w : World} {now : Timestamp} {Q : Unit → World → Prop} {E : StoreError → World → Prop}

/-- The file operation of an effect happens as a whole or not at all. -/
theorem wp_effectWrite (returned : ∀ fuse, (fuse = none ↔ w.fuse = none) →
      Q () ⟨fuse, { w.state with disk := effect.onDisk w.state.disk }⟩)
    (failed : ∀ error, w.fuse ≠ none → E error ⟨none, w.state⟩) : effect.write.wp Q E w := by
  cases effect with
  | publish record =>
    simp only [write, wp_tryCatch, wp_bind, wp_throw]
    refine wp_writeTemporaryFile ?_ fun armed => failed _ armed
    intro fuse₁ burnt₁
    refine wp_fileStep ?_ fun armed => failed _ (burnt₁.not.mp armed)
    exact fun fuse burnt => returned fuse (burnt.trans burnt₁)
  | erase delegationId =>
    simp only [write]
    exact wp_fileStep returned fun armed => failed _ armed

/-- A whole call: rejected or answered without an effect, or one admissible effect on both
the file and the memory. -/
theorem wp_delegationBody (consistent : StoreConsistent w.state.store)
    (parsed : ParsedDelegations w.state.store.delegations)
    (unchanged : ∀ fuse, Q () ⟨fuse, w.state⟩)
    (changed : ∀ fuse effect, AdmissibleEffect w.state.store.delegations effect →
      Q () ⟨fuse, ⟨effect.onDisk w.state.disk, afterEffect w.state.store effect⟩⟩)
    (rejected : ∀ fuse error, E error ⟨fuse, w.state⟩) : (call.body now).wp Q E w := by
  unfold body
  simp only [wp_bind, wp_readStore, wp_lift]
  refine ⟨?_, fun error _ => rejected _ error⟩
  intro outcome started
  cases outcome with
  | none => exact unchanged w.fuse
  | some effect =>
    have separate := consistent.delegations
    rw [pairwise_values_iff fun _ _ h => h.symm] at separate
    have admissible := start_admissible consistent.projects.delegations parsed
      (fun id id' d d' h h' hne => separate id id' d d' h h' hne) started
    simp only [wp_bind]
    refine wp_effectWrite ?_ fun error _ => rejected none error
    intro fuse _
    unfold finish rebuild
    simp only [wp_bind, wp_modifyStore, wp_readStore, wp_lift, (admissible.consistent consistent).1]
    exact ⟨fun _ _ => changed fuse effect admissible, fun error thrown => by cases thrown⟩

end Body

end CodexHost.Guarantees
