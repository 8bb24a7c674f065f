import CodexHost.Guarantees.FileChanges
import CodexHost.Guarantees.IndexProjection

/-!
# The store in memory: one invariant and what preserves it

`StoreConsistent` is what holds of a store between two entries of its queue: records are
accepted and stored under their own ID, no two share an identity, and the indexes are the
projection of the records. Writing a record that passed validation, deleting one and
changing only measurements preserve it, and then the rebuild does not throw.
-/
namespace CodexHost.Guarantees
open Foundation Source.SharedContracts Source.MappingStore OrderedMap

/-- A record as the schema returns it, for this Thread. -/
structure Parsed (id : HostThreadId) (r : StoredThreadRecordV1) : Prop where
  keyed : r.hostThreadId = id
  accepted : r.accepted
  measurements : r.usageMeasurements.all storedUsageMeasurementsSchema

/-- Every record is stored under its own ID and is as the schema returned it. -/
def ParsedRecords (records : OrderedMap HostThreadId StoredThreadRecordV1) : Prop :=
  ∀ id r, records.get? id = some r → Parsed id r

/-- The records of a store taken alone: parsed, and no two share an identity. -/
structure SoundRecords (records : OrderedMap HostThreadId StoredThreadRecordV1) : Prop where
  parsed : ParsedRecords records
  separate : ∀ id id' r r', records.get? id = some r → records.get? id' = some r' → id ≠ id' →
    SeparateIdentities r r'

structure StoreConsistent (s : StoreState) : Prop where
  records : SoundRecords s.records
  delegations : s.delegations.values.Pairwise SeparateDelegations
  projects : ProjectionOf s.indexes s.records.values s.delegations.values

variable {id : HostThreadId} {r : StoredThreadRecordV1}

section Sound
variable {records : OrderedMap HostThreadId StoredThreadRecordV1}

theorem parsedRecords_empty : ParsedRecords .empty := by
  intro id r h
  cases h

section
variable (parsed : ParsedRecords records)
include parsed

theorem ParsedRecords.set (own : Parsed id r) : ParsedRecords (records.set id r) := by
  intro id' r' h
  rw [get?_set] at h
  split at h
  · next same => cases h; exact same ▸ own
  · exact parsed id' r' h

theorem ParsedRecords.unique :
    ∀ r ∈ records.values, UniqueMappings r.turnMappings := by
  intro r hr
  obtain ⟨id, hid⟩ := (records.mem_values_iff r).mp hr
  exact accepted_unique_mappings (parsed id r hid).accepted

theorem ParsedRecords.ids : (records.values.map (·.hostThreadId)).Nodup := by
  have same : records.values.map (·.hostThreadId) = records.keys := by
    unfold OrderedMap.values OrderedMap.keys
    rw [List.map_map]
    apply List.map_congr_left
    intro e he
    exact (parsed e.1 e.2 ((records.mem_entries_iff e.1 e.2).mp he)).keyed
  rw [same]
  exact records.keys_eq_nodup

end

theorem SoundRecords.pairwise (sound : SoundRecords records) :
    records.values.Pairwise SeparateIdentities := by
  rw [pairwise_values_iff fun _ _ h => h.symm]
  exact fun id id' r r' h h' hne => sound.separate id id' r r' h h' hne

/-- A rebuild that succeeds over parsed records shows that they are sound. -/
theorem ParsedRecords.sound_of_rebuilt (parsed : ParsedRecords records)
    {delegations : List StoredDelegationRecordV1}
    (rebuilt : (rebuildIndexes records.values delegations).1 = .ok ()) :
    SoundRecords records ∧ delegations.Pairwise SeparateDelegations := by
  obtain ⟨separateDelegations, separate⟩ :=
    (rebuildIndexes_ok_iff parsed.unique parsed.ids).mp rebuilt
  rw [pairwise_values_iff fun _ _ h => h.symm] at separate
  exact ⟨⟨parsed, fun id id' r r' h h' hne => separate id id' r r' h h' hne⟩,
    separateDelegations⟩

section
variable (sound : SoundRecords records)
include sound

/-- Over sound records and separate delegations the rebuild succeeds and projects them. -/
theorem SoundRecords.rebuilds {delegations : List StoredDelegationRecordV1}
    (separate : delegations.Pairwise SeparateDelegations) :
    (rebuildIndexes records.values delegations).1 = .ok () ∧
      ProjectionOf (rebuildIndexes records.values delegations).2 records.values delegations := by
  have rebuilt := (rebuildIndexes_ok_iff sound.parsed.unique sound.parsed.ids).mpr ⟨separate, sound.pairwise⟩
  exact ⟨rebuilt, rebuildIndexes_projects sound.parsed.unique sound.parsed.ids rebuilt⟩

theorem SoundRecords.delete (id : HostThreadId) :
    SoundRecords (records.delete id) :=
  ⟨fun id' r h => sound.parsed id' r (kept_of_delete h).2, fun a b r r' h h' =>
    sound.separate a b r r' (kept_of_delete h).2 (kept_of_delete h').2⟩

theorem SoundRecords.set (parsed : Parsed id r)
    (separate : ∀ id' r', records.get? id' = some r' → id' ≠ id → SeparateIdentities r' r) :
    SoundRecords (records.set id r) := by
  constructor
  · exact sound.parsed.set parsed
  · intro a b ra rb ha hb hne
    rw [get?_set] at ha hb
    split at ha <;> split at hb
    · next hae hbe => exact absurd (hae.trans hbe.symm) hne
    · next hbne => cases ha; exact (separate b rb hb hbne).symm
    · next hane _ => cases hb; exact separate a ra ha hane
    · exact sound.separate a b ra rb ha hb hne

end

end Sound

/-- The store after `records` replaced its records and the indexes were rebuilt. -/
def reindexed (s : StoreState) (records : OrderedMap HostThreadId StoredThreadRecordV1) : StoreState :=
  { s with records, indexes := (rebuildIndexes records.values s.delegations.values).2 }

def withRecord (s : StoreState) (id : HostThreadId) (r : StoredThreadRecordV1) : StoreState :=
  reindexed s (s.records.set id r)

def withoutRecord (s : StoreState) (id : HostThreadId) : StoreState :=
  reindexed s (s.records.delete id)

section Consistent
variable {s : StoreState}

section
variable (consistent : StoreConsistent s)
include consistent

theorem StoreConsistent.reindexed
    {records : OrderedMap HostThreadId StoredThreadRecordV1} (sound : SoundRecords records) :
    (rebuildIndexes records.values s.delegations.values).1 = .ok () ∧ StoreConsistent (reindexed s records) :=
  ⟨(sound.rebuilds consistent.delegations).1, sound, consistent.delegations,
    (sound.rebuilds consistent.delegations).2⟩

/-- A record that passes validation, as a new one or in place of its Thread's record, is
separate from the records of all other Threads. -/
theorem StoreConsistent.separate_of_passed {replacing : Option HostThreadId}
    (own : replacing = none ∨ replacing = some id)
    (passed : validateGlobal s.indexes r replacing = .ok ()) :
    ∀ id' r', s.records.get? id' = some r' → id' ≠ id → SeparateIdentities r' r := by
  intro id' r' h hne
  apply separate_of_validateGlobal consistent.projects.threads passed
  · exact (s.records.mem_values_iff r').mpr ⟨id', h⟩
  · rw [(consistent.records.parsed id' r' h).keyed]
    rcases own with rfl | rfl
    · simp
    · simpa using hne

/-- The rebuild after a validated write does not throw. -/
theorem StoreConsistent.withRecord {replacing : Option HostThreadId}
    (own : replacing = none ∨ replacing = some id) (parsed : Parsed id r)
    (passed : validateGlobal s.indexes r replacing = .ok ()) :
    (rebuildIndexes (s.records.set id r).values s.delegations.values).1 = .ok () ∧
      StoreConsistent (withRecord s id r) :=
  consistent.reindexed (consistent.records.set parsed (consistent.separate_of_passed own passed))

theorem StoreConsistent.withoutRecord (id : HostThreadId) :
    (rebuildIndexes (s.records.delete id).values s.delegations.values).1 = .ok () ∧
      StoreConsistent (withoutRecord s id) :=
  consistent.reindexed (consistent.records.delete id)

end

/-- Identities and acceptance do not depend on the measurements. -/
theorem separate_congr {r r' q : StoredThreadRecordV1}
    (same : r'.toStoredThreadCoreV1 = r.toStoredThreadCoreV1) (h : SeparateIdentities q r) :
    SeparateIdentities q r' := by
  have create : r'.createRequestId = r.createRequestId := congrArg (·.createRequestId) same
  have session : indexedSession r' = indexedSession r := by
    unfold indexedSession
    rw [congrArg (·.subagent) same, congrArg (·.nativeSessionRef) same]
  have mappings : r'.turnMappings = r.turnMappings := congrArg (·.turnMappings) same
  refine ⟨?_, ?_, ?_, ?_⟩
  · rw [create]
    exact h.createRequest
  · rw [session]
    exact h.session
  · rw [mappings]
    exact h.hostTurn
  · rw [mappings]
    exact h.nativeTurn

theorem threadProjection_congr {indexes : Indexes} {records records' : List StoredThreadRecordV1}
    (same : ∀ core : StoredThreadCoreV1, (∃ r ∈ records', r.toStoredThreadCoreV1 = core) ↔
        ∃ r ∈ records, r.toStoredThreadCoreV1 = core)
    (projects : ThreadProjection indexes records) : ThreadProjection indexes records' := by
  have transfer : ∀ p : StoredThreadCoreV1 → Prop,
      (∃ r ∈ records', p r.toStoredThreadCoreV1) ↔ ∃ r ∈ records, p r.toStoredThreadCoreV1 := by
    intro p
    constructor
    · rintro ⟨r, hr, hp⟩
      obtain ⟨r', hr', he⟩ := (same _).mp ⟨r, hr, rfl⟩
      exact ⟨r', hr', he ▸ hp⟩
    · rintro ⟨r, hr, hp⟩
      obtain ⟨r', hr', he⟩ := (same _).mpr ⟨r, hr, rfl⟩
      exact ⟨r', hr', he ▸ hp⟩
  constructor
  · intro key id
    rw [projects.createRequests]
    exact (transfer fun c => c.createRequestId = key ∧ c.hostThreadId = id).symm
  · intro key id
    rw [projects.nativeSessions]
    exact (transfer fun c => ∃ ref, (if c.subagent.isSome then none else c.nativeSessionRef) =
      some ref ∧ nativeSessionKey ref = key ∧ c.hostThreadId = id).symm
  · intro key id
    rw [projects.hostTurns]
    exact (transfer fun c => ∃ m ∈ c.turnMappings, m.hostTurnId = key ∧
      c.hostThreadId = id).symm
  · intro key turn
    rw [projects.nativeTurns]
    exact (transfer fun c => ∃ m ∈ c.turnMappings, nativeTurnKey m = key ∧
      m.hostTurnId = turn).symm

/-- `saveUsageMeasurements` changes no identity and leaves the indexes alone. -/
theorem StoreConsistent.withMeasurements (consistent : StoreConsistent s) (stored : s.records.get? id = some r)
    {usage : Option StoredUsageMeasurements} (valid : usage.all storedUsageMeasurementsSchema) :
    StoreConsistent { s with records := s.records.set id { r with usageMeasurements := usage } } where
  records := by
    have parsed := consistent.records.parsed id r stored
    refine consistent.records.set ⟨parsed.keyed, parsed.accepted, valid⟩ ?_
    intro id' r' h hne
    exact separate_congr (r := r) rfl (consistent.records.separate id' id r' r h stored hne)
  delegations := consistent.delegations
  projects := by
    refine ⟨threadProjection_congr ?_ consistent.projects.threads, consistent.projects.delegations⟩
    intro core
    constructor
    · rintro ⟨r', hr', rfl⟩
      obtain ⟨id', h⟩ := (mem_values_iff _ r').mp hr'
      rw [get?_set] at h
      split at h
      · cases h
        exact ⟨r, (s.records.mem_values_iff r).mpr ⟨id, stored⟩, rfl⟩
      · exact ⟨r', (s.records.mem_values_iff r').mpr ⟨id', h⟩, rfl⟩
    · rintro ⟨r', hr', rfl⟩
      obtain ⟨id', h⟩ := (s.records.mem_values_iff r').mp hr'
      by_cases same : id' = id
      · subst same
        rw [stored] at h
        cases h
        exact ⟨_, (mem_values_iff _ _).mpr ⟨id', get?_set_self _ _ _⟩, rfl⟩
      · refine ⟨r', (mem_values_iff _ r').mpr ⟨id', ?_⟩, rfl⟩
        rw [get?_set_of_ne _ _ same]
        exact h

end Consistent

section Rebuild
variable {Q : Unit → World → Prop} {E : StoreError → World → Prop} {w : World}

/-- The rebuild after `records` became the records of a store, where it is known to succeed. -/
theorem wp_rebuild {s : StoreState} {records : OrderedMap HostThreadId StoredThreadRecordV1}
    (store : w.state.store = { s with records })
    (succeeds : (rebuildIndexes records.values s.delegations.values).1 = .ok ())
    (returned : Q () ⟨w.fuse, { w.state with store := reindexed s records }⟩) :
    rebuild.wp Q E w := by
  unfold rebuild
  simp only [Command.wp_bind, wp_readStore, wp_modifyStore, store, succeeds, Command.wp_lift]
  exact ⟨fun _ _ => returned, fun e h => by cases h⟩

end Rebuild

end CodexHost.Guarantees
