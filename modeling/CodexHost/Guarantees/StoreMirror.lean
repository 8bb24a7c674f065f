import CodexHost.Guarantees.DelegationEffects
import CodexHost.Guarantees.StoreUniqueness

/-!
# The files mirror the memory

A record is divided over its Thread file and its metadata file. `ThreadMirror` says how
the two files of a Thread and its record in memory are related: all fields agree, except
that measurements may still stand in the Thread file (`inline`) where the metadata file
(`sidecar`) has none. Every effect and every rollback keeps this, so a start loads each
record up to measurements that only the Thread file still carries.
-/
namespace CodexHost.Guarantees
open Foundation Source.SharedContracts Source.MappingStore OrderedMap Option

abbrev Measurements := Option StoredUsageMeasurements

structure ThreadMirror (id : HostThreadId) (r : StoredThreadRecordV1) (files : ThreadFiles)
    (inline sidecar : Measurements) : Prop where
  primary : files.primary = some (.json (withoutThreadMetadata { r with usageMeasurements := inline }))
  metadata : files.metadata = (threadMetadataOf { r with usageMeasurements := sidecar }).map .json
  usage : sidecar = r.usageMeasurements ∨ sidecar = none ∧ r.usageMeasurements = inline
  valid : inline.all storedUsageMeasurementsSchema

def noFiles : ThreadFiles := ⟨none, none, none⟩

structure Mirrored (w : StoreWorld) : Prop where
  absent : ∀ id, w.store.records.get? id = none → filesOf w.disk id = noFiles
  present : ∀ id r, w.store.records.get? id = some r →
    ∃ inline sidecar, ThreadMirror id r (filesOf w.disk id) inline sidecar
  delegationFiles : ∀ id, w.disk.delegations.get? id = (w.store.delegations.get? id).map .json
  delegationsParsed : ParsedDelegations w.store.delegations

section Metadata
variable {id : HostThreadId} {r : StoredThreadRecordV1} {files : ThreadFiles} {inline sidecar : Measurements}

theorem accepted_metadataShape (accepted : r.accepted) :
    storedThreadMetadataFieldsShape r.toStoredThreadMetadataFields := by
  simp only [StoredThreadRecordV1.accepted, Bool.and_eq_true] at accepted
  exact accepted.1.2

theorem accepted_hostThreadId (accepted : r.accepted) : storedHostThreadIdSchema r.hostThreadId := by
  simp only [StoredThreadRecordV1.accepted, storedThreadCoreV1Shape, Bool.and_eq_true] at accepted
  tauto

/-- The metadata file of a parsed record parses to what was written. -/
theorem parseMetadata_own (parsed : Parsed id r) (valid : sidecar.all storedUsageMeasurementsSchema)
    {metadata : StoredThreadMetadataV1}
    (written : threadMetadataOf { r with usageMeasurements := sidecar } = some metadata) :
    parseMetadata id (.json metadata) = some metadata := by
  unfold threadMetadataOf at written
  split at written
  · cases written
  · cases written
    have shape := accepted_metadataShape parsed.accepted
    have own := accepted_hostThreadId parsed.accepted
    have caught : sidecar.filter storedUsageMeasurementsSchema = sidecar := by
      cases sidecar with
      | none => rfl
      | some usage =>
        rw [all_some] at valid
        rw [filter_some, if_pos valid]
    simp only [parseMetadata, storedThreadMetadataV1Schema]
    rw [if_pos]
    · simp only [StoredThreadMetadataFields.catchUsage, caught, filter_some,
        parsed.keyed, decide_true, if_true]
    · rw [Bool.and_eq_true]
      exact ⟨own, shape⟩

section
variable (mirror : ThreadMirror id r files inline sidecar)
include mirror

theorem ThreadMirror.sidecar_valid
    (parsed : Parsed id r) : sidecar.all storedUsageMeasurementsSchema := by
  rcases mirror.usage with h | h
  · rw [h]
    exact parsed.measurements
  · rw [h.1]
    rfl

theorem ThreadMirror.storedMetadata (parsed : Parsed id r) :
    storedMetadata id files = threadMetadataOf { r with usageMeasurements := sidecar } := by
  unfold Guarantees.storedMetadata
  rw [mirror.metadata]
  cases written : threadMetadataOf { r with usageMeasurements := sidecar } with
  | none => rfl
  | some metadata =>
    exact parseMetadata_own parsed (mirror.sidecar_valid parsed) written

theorem ThreadMirror.readable
    (parsed : Parsed id r) : MetadataReadable id files := by
  intro content present
  have stored := mirror.storedMetadata parsed
  unfold Guarantees.storedMetadata at stored
  rw [present, bind_some] at stored
  rw [mirror.metadata] at present
  cases written : threadMetadataOf { r with usageMeasurements := sidecar } with
  | none => simp [written] at present
  | some metadata => rw [stored, written]; rfl

end

theorem threadMetadataOf_unknown {metadata : StoredThreadMetadataV1}
    (written : threadMetadataOf r = some metadata) : metadata.unknown = [] := by
  unfold threadMetadataOf at written
  split at written
  · cases written
  · cases written
    rfl

variable {next : StoredThreadRecordV1}

/-- Where no unknown fields are stored, a write stores exactly the metadata it is given. -/
theorem writtenMetadata_eq (keyed : next.hostThreadId = id)
    (retained : ∀ metadata, storedMetadata id files = some metadata → metadata.unknown = []) :
    writtenMetadata id (threadMetadataOf next) files = (threadMetadataOf next).map .json := by
  have none_retained : ((storedMetadata id files).map (·.unknown)).getD [] = [] := by
    cases h : storedMetadata id files with
    | none => rfl
    | some metadata => exact retained metadata h
  unfold writtenMetadata
  rw [none_retained]
  unfold threadMetadataOf
  split
  · simp
  · simp [keyed]

theorem ThreadMirror.writes (mirror : ThreadMirror id r files inline sidecar)
    (parsed : Parsed id r) (keyed : next.hostThreadId = id) :
    writtenMetadata id (threadMetadataOf next) files = (threadMetadataOf next).map .json := by
  apply writtenMetadata_eq keyed
  intro metadata stored
  rw [mirror.storedMetadata parsed] at stored
  exact threadMetadataOf_unknown stored

theorem writes_absent (gone : files.metadata = none) (keyed : next.hostThreadId = id) :
    writtenMetadata id (threadMetadataOf next) files = (threadMetadataOf next).map .json := by
  apply writtenMetadata_eq keyed
  intro metadata stored
  unfold storedMetadata at stored
  rw [gone] at stored
  cases stored

/-- Records with the same metadata file have the same metadata fields. -/
theorem threadMetadataOf_injective {r r' : StoredThreadRecordV1}
    (same : threadMetadataOf r = threadMetadataOf r') :
    r.toStoredThreadMetadataFields = r'.toStoredThreadMetadataFields := by
  unfold threadMetadataOf at same
  split at same <;> split at same
  · next h h' => rw [h, h']
  · cases same
  · cases same
  · simp only [some.injEq, StoredThreadMetadataV1.mk.injEq] at same
    exact same.1

theorem threadMirror_published (parsed : Parsed id next)
    (primary : files.primary = some (.json (withoutThreadMetadata next)))
    (metadata : files.metadata = (threadMetadataOf next).map .json) :
    ThreadMirror id next files next.usageMeasurements next.usageMeasurements :=
  ⟨primary, metadata, .inl rfl, parsed.measurements⟩

section
variable (mirror : ThreadMirror id r files inline sidecar)
include mirror

/-- `#update` leaves a mirror whose Thread file carries the current measurements. -/
theorem ThreadMirror.updated
    (stored : Parsed id r) (parsed : Parsed id next) :
    ∃ sidecar', ThreadMirror id next (updatedFiles id r next files) next.usageMeasurements sidecar' := by
  by_cases differs : threadMetadataOf r ≠ threadMetadataOf next
  · refine ⟨_, threadMirror_published parsed rfl ?_⟩
    simp only [updatedFiles, if_pos differs]
    exact mirror.writes stored parsed.keyed
  · have fields := threadMetadataOf_injective (not_not.mp differs)
    have usage : r.usageMeasurements = next.usageMeasurements :=
      congrArg (·.usageMeasurements) fields
    refine ⟨sidecar, rfl, ?_, ?_, parsed.measurements⟩
    · simp only [updatedFiles, if_neg differs]
      rw [mirror.metadata]
      unfold threadMetadataOf
      simp only [fields, stored.keyed, parsed.keyed]
    · rcases mirror.usage with h | h
      · exact .inl (h.trans usage)
      · exact .inr ⟨h.1, rfl⟩

theorem ThreadMirror.measured
    (parsed : Parsed id r) (usage : Measurements) :
    ThreadMirror id { r with usageMeasurements := usage }
      { files with metadata :=
          writtenMetadata id (threadMetadataOf { r with usageMeasurements := usage }) files }
      inline usage where
  primary := mirror.primary
  metadata := mirror.writes parsed parsed.keyed
  usage := .inl rfl
  valid := mirror.valid

/-- A rolled back operation leaves a mirror of the same record. -/
theorem ThreadMirror.rolledBack
    (parsed : Parsed id r) {files' : ThreadFiles} (rolled : RolledBack id (some r) files files') :
    ∃ inline', ThreadMirror id r files' inline' sidecar ∧
      (inline' = inline ∨ inline' = r.usageMeasurements) := by
  have sameMetadata : files'.metadata = files.metadata := by
    rcases rolled.metadata (mirror.readable parsed) with h | ⟨h, -⟩
    · exact h
    · cases h
  rcases rolled.primary with h | ⟨current, h, restored⟩
  · exact ⟨inline, ⟨h.trans mirror.primary, sameMetadata.trans mirror.metadata, mirror.usage,
      mirror.valid⟩, .inl rfl⟩
  · cases h
    refine ⟨r.usageMeasurements, ⟨restored, sameMetadata.trans mirror.metadata, ?_,
      parsed.measurements⟩, .inr rfl⟩
    rcases mirror.usage with h | h
    · exact .inl h
    · exact .inr ⟨h.1, rfl⟩

end

end Metadata

/-- The Thread file carries measurements that memory no longer has. -/
def Stale (w : StoreWorld) (id : HostThreadId) : Prop :=
  ∃ r p, w.store.records.get? id = some r ∧ w.disk.threads.get? id = some (.json p) ∧
    r.usageMeasurements = none ∧ p.usageMeasurements ≠ none

theorem ThreadMirror.stale_iff {w : StoreWorld} {id : HostThreadId} {r : StoredThreadRecordV1}
    {inline sidecar : Measurements} (stored : w.store.records.get? id = some r)
    (mirror : ThreadMirror id r (filesOf w.disk id) inline sidecar) :
    Stale w id ↔ r.usageMeasurements = none ∧ inline ≠ none := by
  have primary : w.disk.threads.get? id =
      some (.json (withoutThreadMetadata { r with usageMeasurements := inline })) := mirror.primary
  constructor
  · intro stale
    obtain ⟨r', p, stored', primary', cleared, carried⟩ := stale
    rw [stored] at stored'
    cases stored'
    rw [primary] at primary'
    cases primary'
    exact ⟨cleared, carried⟩
  · intro h
    exact ⟨r, _, stored, primary, h.1, h.2⟩

section Preservation
variable {w w' : StoreWorld} {id : HostThreadId}

theorem Mirrored.readable (mirrored : Mirrored w) (consistent : StoreConsistent w.store) :
    AllMetadataReadable w.disk := by
  intro id
  cases stored : w.store.records.get? id with
  | none =>
    rw [mirrored.absent id stored]
    intro content present
    cases present
  | some r =>
    obtain ⟨inline, sidecar, mirror⟩ := mirrored.present id r stored
    exact mirror.readable (consistent.records.parsed id r stored)

/-- A change of one Thread keeps the mirror when that Thread's own part is a mirror. -/
theorem Mirrored.change (mirrored : Mirrored w) (only : OnlyFilesOf id w.disk w'.disk)
    (others : ∀ id', id' ≠ id → w'.store.records.get? id' = w.store.records.get? id')
    (delegations : w'.store.delegations = w.store.delegations)
    (gone : w'.store.records.get? id = none → filesOf w'.disk id = noFiles)
    (kept : ∀ r, w'.store.records.get? id = some r →
      ∃ inline sidecar, ThreadMirror id r (filesOf w'.disk id) inline sidecar) :
    Mirrored w' where
  absent id' h := by
    by_cases same : id' = id
    · subst same
      exact gone h
    · rw [only.others id' same]
      exact mirrored.absent id' ((others id' same).symm.trans h)
  present id' r h := by
    by_cases same : id' = id
    · subst same
      exact kept r h
    · rw [only.others id' same]
      exact mirrored.present id' r ((others id' same).symm.trans h)
  delegationFiles id' := by
    rw [only.delegations, delegations]
    exact mirrored.delegationFiles id'
  delegationsParsed := delegations ▸ mirrored.delegationsParsed

theorem withRecord_others {s : StoreState} {r : StoredThreadRecordV1} :
    ∀ id', id' ≠ id → (withRecord s id r).records.get? id' = s.records.get? id' :=
  fun _ hne => get?_set_of_ne _ _ hne

theorem withRecord_own {s : StoreState} {r : StoredThreadRecordV1} :
    (withRecord s id r).records.get? id = some r :=
  get?_set_self _ _ _

theorem StoreEffect.mirrored {op : QueuedOperation} (effect : StoreEffect op w w')
    (consistent : StoreConsistent w.store) (mirrored : Mirrored w) : Mirrored w' := by
  cases effect with
  | unchanged => exact mirrored
  | updated id current next stored parsed passed store only files =>
    obtain ⟨inline, sidecar, mirror⟩ := mirrored.present id current stored
    obtain ⟨sidecar', updated⟩ :=
      mirror.updated (consistent.records.parsed id current stored) parsed
    refine mirrored.change only (store ▸ withRecord_others) (store ▸ rfl) ?_ ?_
    · intro h
      rw [store, withRecord_own] at h
      cases h
    · intro r h
      rw [store, withRecord_own] at h
      cases h
      exact ⟨_, _, files ▸ updated⟩
  | created id record absent parsed passed store only files =>
    have gone := mirrored.absent id absent
    have published : ThreadMirror id record (filesOf w'.disk id) record.usageMeasurements
        record.usageMeasurements := by
      apply threadMirror_published parsed
      · rw [files]
        rfl
      · rw [files, gone]
        simp only [createdFiles]
        split
        · exact writes_absent rfl parsed.keyed
        · next bare =>
          rw [not_isSome_iff_eq_none.mp bare]
          rfl
    refine mirrored.change only (store ▸ withRecord_others) (store ▸ rfl) ?_ ?_
    · intro h
      rw [store, withRecord_own] at h
      cases h
    · intro r h
      rw [store, withRecord_own] at h
      cases h
      exact ⟨_, _, published⟩
  | measured id ref values current usage _ _ stored _ _ _ valid store only files =>
    obtain ⟨inline, sidecar, mirror⟩ := mirrored.present id current stored
    have measured := mirror.measured (consistent.records.parsed id current stored) usage
    refine mirrored.change only ?_ (store ▸ rfl) ?_ ?_
    · intro id' hne
      rw [store]
      exact get?_set_of_ne _ _ hne
    · intro h
      rw [store] at h
      simp at h
    · intro r h
      rw [store] at h
      simp only [get?_set_self, some.injEq] at h
      subst h
      exact ⟨_, _, files ▸ measured⟩
  | removed id current stored store only files =>
    refine mirrored.change only ?_ (store ▸ rfl) (fun _ => files) ?_
    · intro id' hne
      rw [store]
      exact get?_delete_of_ne _ hne
    · intro r h
      rw [store] at h
      simp [withoutRecord, reindexed] at h
  | listed records delegations indexes files delegationFiles =>
    constructor
    · intro id h
      rw [files]
      exact mirrored.absent id (records ▸ h)
    · intro id r h
      rw [files]
      exact mirrored.present id r (records ▸ h)
    · intro id
      rw [delegationFiles, delegations]
      exact mirrored.delegationFiles id
    · exact delegations ▸ mirrored.delegationsParsed

theorem StoreRollback.mirrored (rollback : StoreRollback w w')
    (consistent : StoreConsistent w.store) (mirrored : Mirrored w) : Mirrored w' := by
  rcases rollback.files with disk | ⟨id, only, rolled⟩
  · obtain ⟨disk', store'⟩ := w'
    cases disk
    cases rollback.store
    exact mirrored
  · refine mirrored.change only (fun _ _ => by rw [rollback.store]) (by rw [rollback.store]) ?_ ?_
    · intro h
      rw [rollback.store] at h
      rw [h, mirrored.absent id h] at rolled
      have primary : (filesOf w'.disk id).primary = none := by
        rcases rolled.primary with h | ⟨current, h, -⟩
        · exact h
        · cases h
      have readable : MetadataReadable id noFiles := by
        intro content present
        cases present
      have metadata : (filesOf w'.disk id).metadata = none := by
        rcases rolled.metadata readable with h | h
        · exact h
        · exact h.2
      have backup := rolled.backup rfl
      cases files : filesOf w'.disk id with
      | mk primary' backup' metadata' =>
        rw [files] at primary metadata backup
        cases primary
        cases metadata
        cases backup
        rfl
    · intro r h
      rw [rollback.store] at h
      rw [h] at rolled
      obtain ⟨inline, sidecar, mirror⟩ := mirrored.present id r h
      obtain ⟨inline', rolledMirror, -⟩ :=
        mirror.rolledBack (consistent.records.parsed id r h) rolled
      exact ⟨inline', sidecar, rolledMirror⟩

variable {other : HostThreadId}

/-- The files and the record of another Thread are untouched, and so is its staleness. -/
theorem stale_of_others (only : OnlyFilesOf id w.disk w'.disk)
    (others : ∀ id', id' ≠ id → w'.store.records.get? id' = w.store.records.get? id') (hne : other ≠ id) (stale : Stale w' other) : Stale w other := by
  obtain ⟨r, p, stored, primary, cleared, carried⟩ := stale
  refine ⟨r, p, (others other hne).symm.trans stored, ?_, cleared, carried⟩
  have same : (filesOf w'.disk other).primary = (filesOf w.disk other).primary := by
    rw [only.others other hne]
  exact same.symm.trans primary

/-- None of the measurements that the save could keep or take belongs to a Turn of the
record: neither a given one nor a stored one of the same Session. -/
def NothingRetained (r : StoredThreadRecordV1) (ref : NativeSessionRef)
    (values : UsageMeasurementsSnapshot) : Prop :=
  ∀ measurement : UsageMeasurement, (values.outputTokensPerSecond = some measurement ∨
      values.timeToFirstOutputMs = some measurement ∨
      ∃ prior, r.usageMeasurements = some prior ∧ prior.nativeSessionRef = ref ∧
        (prior.values.outputTokensPerSecond = some measurement ∨
          prior.values.timeToFirstOutputMs = some measurement)) →
    ∀ mapping ∈ r.turnMappings, mapping.hostTurnId ≠ measurement.turnId

/-- A save that clears all measurements of a Thread whose Thread file carries some. -/
def ClearsInline (w : StoreWorld) (op : QueuedOperation) : Prop :=
  ∃ id ref values r p, op = .saveUsageMeasurements id ref values ∧
    usageMeasurementsSchema values ∧ w.store.records.get? id = some r ∧
    (r.state = .ready ∧ r.nativeSessionRef = some ref) ∧
    w.disk.threads.get? id = some (.json p) ∧ p.usageMeasurements ≠ none ∧
    NothingRetained r ref values

theorem mergeMeasurement_none_iff {retained : List HostTurnId} {prior given : Option UsageMeasurement} :
    mergeMeasurement retained prior given = none ↔
      (∀ m, prior = some m → m.turnId ∉ retained) ∧ ∀ m, given = some m → m.turnId ∉ retained := by
  have dropped : ∀ o : Option UsageMeasurement,
      o.filter (·.turnId ∈ retained) = none ↔ ∀ m, o = some m → m.turnId ∉ retained := by
    intro o
    cases o <;> simp [filter_some]
  rw [← dropped prior, ← dropped given]
  unfold mergeMeasurement
  cases given.filter (·.turnId ∈ retained) with
  | none => simp
  | some value =>
    cases prior.filter (·.turnId ∈ retained) with
    | none => simp
    | some kept =>
      simp only [all_some, reduceCtorEq, and_self, iff_false]
      split <;> simp

/-- A merge leaves nothing exactly when no measurement belongs to a Turn of the record. -/
theorem mergeMeasurements_none_iff {r : StoredThreadRecordV1} {ref : NativeSessionRef}
    {values : UsageMeasurementsSnapshot} :
    mergeMeasurements r ref values = none ↔ NothingRetained r ref values := by
  have merged : mergeMeasurements r ref values = none ↔ mergeMeasurement (r.turnMappings.map (·.hostTurnId))
        (priorMeasurements r ref).outputTokensPerSecond values.outputTokensPerSecond = none ∧
      mergeMeasurement (r.turnMappings.map (·.hostTurnId))
        (priorMeasurements r ref).timeToFirstOutputMs values.timeToFirstOutputMs = none := by
    unfold mergeMeasurements
    simp only
    split
    · next empty =>
      rw [UsageMeasurementsSnapshot.mk.injEq] at empty
      simp only [empty, and_self]
    · next some =>
      rw [UsageMeasurementsSnapshot.mk.injEq] at some
      simp only [reduceCtorEq, some]
  have unmapped : ∀ m : UsageMeasurement, m.turnId ∉ r.turnMappings.map (·.hostTurnId) ↔
      ∀ mapping ∈ r.turnMappings, mapping.hostTurnId ≠ m.turnId := by
    intro m
    simp only [List.mem_map, not_exists, not_and, ne_eq]
  have prior : ∀ (field : UsageMeasurementsSnapshot → Option UsageMeasurement) m,
      field ⟨none, none⟩ = none → (field (priorMeasurements r ref) = some m ↔
        ∃ prior, r.usageMeasurements = some prior ∧ prior.nativeSessionRef = ref ∧
          field prior.values = some m) := by
    intro field m empty
    unfold priorMeasurements
    cases stored : r.usageMeasurements with
    | none => simp [empty]
    | some usage =>
      simp only [some.injEq, exists_eq_left']
      split
      · next same => simp [same]
      · next other => simp [empty, other]
  rw [merged, mergeMeasurement_none_iff, mergeMeasurement_none_iff]
  simp only [unmapped, prior (·.outputTokensPerSecond) _ rfl, prior (·.timeToFirstOutputMs) _ rfl]
  constructor
  · rintro ⟨⟨priorRate, rate⟩, priorTime, time⟩ m (h | h | ⟨p, h, session, h' | h'⟩)
    · exact rate m h
    · exact time m h
    · exact priorRate m ⟨p, h, session, h'⟩
    · exact priorTime m ⟨p, h, session, h'⟩
  · intro nothing
    refine ⟨⟨?_, ?_⟩, ?_, ?_⟩
    · rintro m ⟨p, h, session, h'⟩
      exact nothing m (.inr (.inr ⟨p, h, session, .inl h'⟩))
    · exact fun m h => nothing m (.inl h)
    · rintro m ⟨p, h, session, h'⟩
      exact nothing m (.inr (.inr ⟨p, h, session, .inr h'⟩))
    · exact fun m h => nothing m (.inr (.inl h))

/-- Only a save that clears inline measurements makes a Thread stale. -/
theorem StoreEffect.stale {op : QueuedOperation} (effect : StoreEffect op w w')
    (consistent : StoreConsistent w.store) (mirrored : Mirrored w)
    (stale : Stale w' other) : Stale w other ∨ ClearsInline w op := by
  cases effect with
  | unchanged => exact .inl stale
  | updated id current next stored parsed passed store only files =>
    by_cases same : other = id
    · subst same
      obtain ⟨inline, sidecar, mirror⟩ := mirrored.present other current stored
      obtain ⟨sidecar', updated⟩ :=
        mirror.updated (consistent.records.parsed other current stored) parsed
      rw [← files] at updated
      obtain ⟨cleared, carried⟩ := (updated.stale_iff (store ▸ withRecord_own)).mp stale
      exact absurd cleared carried
    · exact .inl (stale_of_others only (store ▸ withRecord_others) same stale)
  | created id record absent parsed passed store only files =>
    by_cases same : other = id
    · subst same
      obtain ⟨r, p, stored, primary, cleared, carried⟩ := stale
      rw [store, withRecord_own] at stored
      cases stored
      have primary' : (filesOf w'.disk other).primary = some (.json p) := primary
      rw [files] at primary'
      cases primary'
      exact absurd cleared carried
    · exact .inl (stale_of_others only (store ▸ withRecord_others) same stale)
  | measured id ref values current usage requested given stored ready merged _ _ store only files =>
    by_cases same : other = id
    · subst same
      obtain ⟨r, p, stored', primary, cleared, carried⟩ := stale
      rw [store] at stored'
      simp only [get?_set_self, some.injEq] at stored'
      subst stored'
      have primary' : (filesOf w'.disk other).primary = some (.json p) := primary
      rw [files] at primary'
      subst cleared
      exact .inr ⟨other, ref, values, current, p, requested, given, stored, ready, primary',
        carried, mergeMeasurements_none_iff.mp merged.symm⟩
    · refine .inl (stale_of_others only ?_ same stale)
      intro id' hne
      rw [store]
      exact get?_set_of_ne _ _ hne
  | removed id current stored store only files =>
    by_cases same : other = id
    · subst same
      obtain ⟨r, p, stored', -⟩ := stale
      rw [store] at stored'
      simp [withoutRecord, Guarantees.reindexed] at stored'
    · refine .inl (stale_of_others only ?_ same stale)
      intro id' hne
      rw [store]
      exact get?_delete_of_ne _ hne
  | listed records delegations indexes files delegationFiles =>
    obtain ⟨r, p, stored, primary, cleared, carried⟩ := stale
    have same : (filesOf w'.disk other).primary = (filesOf w.disk other).primary := by
      rw [files]
    exact .inl ⟨r, p, records ▸ stored, same.symm.trans primary, cleared, carried⟩

theorem StoreRollback.stale (rollback : StoreRollback w w') (stale : Stale w' other) : Stale w other := by
  obtain ⟨r, p, stored, primary, cleared, carried⟩ := stale
  rw [rollback.store] at stored
  rcases rollback.files with disk | ⟨id, only, rolled⟩
  · exact ⟨r, p, stored, disk ▸ primary, cleared, carried⟩
  · by_cases same : other = id
    · subst same
      rcases rolled.primary with h | ⟨current, h, h'⟩
      · exact ⟨r, p, stored, h.symm.trans primary, cleared, carried⟩
      · rw [stored] at h
        cases h
        have primary' : (filesOf w'.disk other).primary = some (.json p) := primary
        rw [h'] at primary'
        cases primary'
        exact absurd cleared carried
    · have kept : (filesOf w'.disk other).primary = (filesOf w.disk other).primary := by
        rw [only.others other same]
      exact ⟨r, p, stored, kept.symm.trans primary, cleared, carried⟩

end Preservation

end CodexHost.Guarantees
