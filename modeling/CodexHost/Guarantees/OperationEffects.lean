import CodexHost.Source.MappingStore.Delegations
import CodexHost.Guarantees.StoreConsistency

/-!
# What an operation of the write queue can do

One inversion result for all operations. `StoreEffect` lists what a returning operation
did to memory and to the files of the one Thread it concerns, `StoreRollback` what a
throwing one left behind; every invariant of a run is derived from these two. Only
records that passed the schema and the global validation are ever written.
-/
namespace CodexHost.Guarantees
open Foundation Source.SharedContracts Source.MappingStore Command

theorem parsed_of_schema {r next : StoredThreadRecordV1}
    (passed : storedThreadRecordV1Schema r = .ok next) : Parsed r.hostThreadId next := by
  unfold storedThreadRecordV1Schema at passed
  split at passed
  · next accepted =>
    cases passed
    refine ⟨rfl, accepted, ?_⟩
    cases h : r.usageMeasurements with
    | none => simp [StoredThreadMetadataFields.catchUsage, h]
    | some usage =>
      simp [StoredThreadMetadataFields.catchUsage, h]
  · cases passed

variable {E : StoreError → World → Prop}

theorem wp_parseRecord {r : StoredThreadRecordV1} {Q : StoredThreadRecordV1 → World → Prop} {w : World}
    (returned : ∀ next, storedThreadRecordV1Schema r = .ok next → Q next w)
    (rejected : ∀ issues, storedThreadRecordV1Schema r = .error issues → E (.zod issues) w) :
    (parseRecord r).wp Q E w := by
  unfold parseRecord
  rw [wp_lift]
  cases parses : storedThreadRecordV1Schema r with
  | error issues =>
    constructor
    · intro next passed
      cases passed
    · intro error is
      cases is
      exact rejected issues parses
  | ok parsed =>
    constructor
    · intro next passed
      cases passed
      exact returned parsed parses
    · intro error is
      cases is

/-- The Thread's files after `#update` replaced `current` by `next`. -/
def updatedFiles (id : HostThreadId) (current next : StoredThreadRecordV1) (files : ThreadFiles) :
    ThreadFiles :=
  { published next true files with
    metadata := if threadMetadataOf current ≠ threadMetadataOf next then
        writtenMetadata id (threadMetadataOf next) files
      else files.metadata }

/-- The Thread's files after `#writeNew`. -/
def createdFiles (id : HostThreadId) (record : StoredThreadRecordV1) (files : ThreadFiles) : ThreadFiles :=
  { published record false files with
    metadata := if (threadMetadataOf record).isSome then
        writtenMetadata id (threadMetadataOf record) files
      else files.metadata }

inductive StoreEffect (op : QueuedOperation) (w : StoreWorld) : StoreWorld → Prop where
  | unchanged : StoreEffect op w w
  | updated {w' : StoreWorld} (id : HostThreadId) (current next : StoredThreadRecordV1)
      (stored : w.store.records.get? id = some current) (parsed : Parsed id next)
      (passed : validateGlobal w.store.indexes next (some id) = .ok ())
      (store : w'.store = withRecord w.store id next) (only : OnlyFilesOf id w.disk w'.disk)
      (files : filesOf w'.disk id = updatedFiles id current next (filesOf w.disk id)) :
      StoreEffect op w w'
  | created {w' : StoreWorld} (id : HostThreadId) (record : StoredThreadRecordV1)
      (absent : w.store.records.get? id = none) (parsed : Parsed id record)
      (passed : validateGlobal w.store.indexes record none = .ok ())
      (store : w'.store = withRecord w.store id record) (only : OnlyFilesOf id w.disk w'.disk)
      (files : filesOf w'.disk id = createdFiles id record (filesOf w.disk id)) :
      StoreEffect op w w'
  | measured {w' : StoreWorld} (id : HostThreadId) (ref : NativeSessionRef)
      (values : UsageMeasurementsSnapshot) (current : StoredThreadRecordV1)
      (usage : Option StoredUsageMeasurements)
      (requested : op = .saveUsageMeasurements id ref values)
      (given : usageMeasurementsSchema values)
      (stored : w.store.records.get? id = some current)
      (ready : current.state = .ready ∧ current.nativeSessionRef = some ref)
      (merged : usage = mergeMeasurements current ref values)
      (changed : current.usageMeasurements ≠ usage)
      (valid : usage.all storedUsageMeasurementsSchema)
      (store : w'.store = { w.store with
        records := w.store.records.set id { current with usageMeasurements := usage } })
      (only : OnlyFilesOf id w.disk w'.disk)
      (files : filesOf w'.disk id = { filesOf w.disk id with
        metadata := writtenMetadata id
          (threadMetadataOf { current with usageMeasurements := usage }) (filesOf w.disk id) }) :
      StoreEffect op w w'
  | removed {w' : StoreWorld} (id : HostThreadId) (current : StoredThreadRecordV1)
      (stored : w.store.records.get? id = some current)
      (store : w'.store = withoutRecord w.store id) (only : OnlyFilesOf id w.disk w'.disk)
      (files : filesOf w'.disk id = ⟨none, none, none⟩) : StoreEffect op w w'
  | listed {w' : StoreWorld} (records : w'.store.records = w.store.records)
      (delegations : w'.store.delegations = w.store.delegations)
      (indexes : w'.store.indexes = w.store.indexes)
      (files : ∀ id, filesOf w'.disk id = filesOf w.disk id)
      (delegationFiles : w'.disk.delegations = w.disk.delegations) : StoreEffect op w w'

/-- The files a failed operation left: what was there, or the stored record again. -/
structure RolledBack (id : HostThreadId) (record : Option StoredThreadRecordV1)
    (files files' : ThreadFiles) : Prop where
  primary : files'.primary = files.primary ∨ ∃ current, record = some current ∧
      files'.primary = some (.json (withoutThreadMetadata current))
  metadata : MetadataReadable id files → files'.metadata = files.metadata ∨
    record = none ∧ files'.metadata = none
  backup : record = none → files'.backup = files.backup

theorem RolledBack.refl (id : HostThreadId) (record : Option StoredThreadRecordV1)
    (files : ThreadFiles) : RolledBack id record files files :=
  ⟨.inl rfl, fun _ => .inl rfl, fun _ => rfl⟩

/-- A throwing operation leaves memory alone and at most rewrites the files of one Thread. -/
structure StoreRollback (w w' : StoreWorld) : Prop where
  store : w'.store = w.store
  files : w'.disk = w.disk ∨ ∃ id, OnlyFilesOf id w.disk w'.disk ∧
    RolledBack id (w.store.records.get? id) (filesOf w.disk id) (filesOf w'.disk id)

theorem StoreRollback.refl (w : StoreWorld) : StoreRollback w w := ⟨rfl, .inl rfl⟩

variable {id : HostThreadId}

theorem StoreRollback.of_change {w w' : StoreWorld} {files : ThreadFiles} (change : FileChange id w w' files)
    (rolledBack : RolledBack id (w.store.records.get? id) (filesOf w.disk id) files) :
    StoreRollback w w' :=
  ⟨change.store, .inr ⟨id, change.only, change.files ▸ rolledBack⟩⟩

/-- Every metadata file of the disk parses. -/
def AllMetadataReadable (disk : Disk) : Prop := ∀ id, MetadataReadable id (filesOf disk id)

/-- A command that has one of the effects and, while metadata parses, no swallowed fault;
or throws and is rolled back. -/
def Settles {α : Type} (op : QueuedOperation) (c : StoreCommand α) (w : World) : Prop :=
  c.wp (fun _ w' => StoreEffect op w.state w'.state ∧
      (AllMetadataReadable w.state.disk → (w'.fuse = none ↔ w.fuse = none)))
    (fun _ w' => StoreRollback w.state w'.state) w

variable {change : Change} {preserve : Bool}

section Settles
variable {w : World} {α β : Type} {op : QueuedOperation}

theorem settles_pure (a : α) : Settles op (pure a) w :=
  ⟨StoreEffect.unchanged, fun _ => Iff.rfl⟩

theorem settles_throw (error : StoreError) : Settles op (throw error : StoreCommand α) w :=
  StoreRollback.refl w.state

/-- The result of a command is not used by what follows. -/
theorem Settles.discard {c : StoreCommand α} (h : Settles op c w) :
    Settles op (c >>= fun _ => pure ()) w := by
  unfold Settles at h ⊢
  rw [wp_bind]
  exact h

/-- `change` proposes a record for the same Thread. -/
def KeepsThread (change : Change) : Prop :=
  ∀ store r r', change store r = .ok (some r') → r'.hostThreadId = r.hostThreadId

/-- The record that `#update` parses before it saves it. -/
def revised (now : Timestamp) (preserve : Bool) (current changed : StoredThreadRecordV1) :
    StoredThreadRecordV1 :=
  { changed with
    revision := current.revision + 1
    updatedAt := if preserve then current.updatedAt else now }

/-- How `#update` of a stored Thread ends: the change is refused or leaves the record, its record is
not valid or clashes with another Thread, or it is saved, unless a file step fails. -/
inductive UpdateOutcome (now : Timestamp) (id : HostThreadId) (change : Change) (preserve : Bool)
    (current : StoredThreadRecordV1) (w : World) :
    Except StoreError StoredThreadRecordV1 → World → Prop where
  | refused (error : StoreError) (is : change w.state.store current = .error error) :
      UpdateOutcome now id change preserve current w (.error error) w
  | kept (is : change w.state.store current = .ok none) :
      UpdateOutcome now id change preserve current w (.ok current) w
  | invalid (changed : StoredThreadRecordV1) (issues : List Issue)
      (is : change w.state.store current = .ok (some changed))
      (fails : storedThreadRecordV1Schema (revised now preserve current changed) = .error issues) :
      UpdateOutcome now id change preserve current w (.error (.zod issues)) w
  | clashes (changed next : StoredThreadRecordV1) (error : StoreError)
      (is : change w.state.store current = .ok (some changed))
      (valid : storedThreadRecordV1Schema (revised now preserve current changed) = .ok next)
      (clash : validateGlobal w.state.store.indexes next (some id) = .error error) :
      UpdateOutcome now id change preserve current w (.error error) w
  | saved (changed next : StoredThreadRecordV1) (w' : World)
      (is : change w.state.store current = .ok (some changed))
      (valid : storedThreadRecordV1Schema (revised now preserve current changed) = .ok next)
      (passed : validateGlobal w.state.store.indexes next (some id) = .ok ())
      (store : w'.state.store = withRecord w.state.store id next)
      (only : OnlyFilesOf id w.state.disk w'.state.disk)
      (files : filesOf w'.state.disk id = updatedFiles id current next (filesOf w.state.disk id))
      (burnt : AllMetadataReadable w.state.disk → (w'.fuse = none ↔ w.fuse = none)) :
      UpdateOutcome now id change preserve current w (.ok next) w'
  | unsaved (changed next : StoredThreadRecordV1) (error : StoreError) (w' : World)
      (is : change w.state.store current = .ok (some changed))
      (valid : storedThreadRecordV1Schema (revised now preserve current changed) = .ok next)
      (passed : validateGlobal w.state.store.indexes next (some id) = .ok ())
      (armed : w.fuse ≠ none) (rollback : StoreRollback w.state w'.state) :
      UpdateOutcome now id change preserve current w (.error error) w'

theorem wp_update {now : Timestamp} {current : StoredThreadRecordV1} (keeps : KeepsThread change)
    (consistent : StoreConsistent w.state.store)
    (stored : w.state.store.records.get? id = some current) :
    (update now id change preserve).wp (fun next => UpdateOutcome now id change preserve current w (.ok next))
      (fun error => UpdateOutcome now id change preserve current w (.error error)) w := by
  unfold update
  simp only [wp_bind, wp_readStore, stored, wp_lift]
  refine ⟨?_, fun error is => .refused error is⟩
  intro proposed is
  cases proposed with
  | none => exact .kept is
  | some changed =>
    simp only [wp_bind]
    apply wp_parseRecord _ fun issues fails => .invalid changed issues is fails
    intro next valid
    have own : Parsed id next := by
      have same := (keeps _ _ _ is).trans (consistent.records.parsed id current stored).keyed
      have parsed := parsed_of_schema valid
      exact ⟨parsed.keyed.trans same, parsed.accepted, parsed.measurements⟩
    simp only [wp_lift]
    refine ⟨?_, fun error clash => .clashes changed next error is valid clash⟩
    intro _ passed
    obtain ⟨rebuilds, -⟩ := consistent.withRecord (.inr rfl) own passed
    apply wp_replaceFile own.keyed
    · intro w₁ burnt₁ replaced
      split
      · next differs =>
        simp only [wp_tryCatch, wp_bind]
        apply wp_writeMetadataFile
        · intro w₂ _ readable₂ written
          have both := replaced.trans written
          rw [replaced.files] at readable₂ both
          simp only [wp_modifyStore]
          refine wp_rebuild (s := w.state.store) (by rw [both.store]) rebuilds ?_
          refine .saved changed next _ is valid passed rfl both.only (both.files.trans ?_) ?_
          · rw [updatedFiles, if_pos differs]
            rfl
          · exact fun readable => (readable₂ (readable id)).trans burnt₁
        · intro w₂ error left armed₂ burnt₂ readable₂ kept
          have both := replaced.trans kept
          rw [replaced.files] at readable₂ both
          -- The one fault is spent, so the previous record is restored.
          apply wp_replaceFile (consistent.records.parsed id current stored).keyed
          · intro w₃ _ restored
            have all := both.trans restored
            rw [both.files] at all
            refine .unsaved changed next _ _ is valid passed (burnt₁.not.mp armed₂)
              (StoreRollback.of_change all ?_)
            rw [stored]
            exact ⟨.inr ⟨current, rfl, rfl⟩, fun readable => .inl (readable₂ readable),
              fun h => by cases h⟩
          · intro _ _ _ armed
            exact absurd burnt₂ armed
      · next same =>
        simp only [wp_bind, wp_modifyStore]
        refine wp_rebuild (s := w.state.store) (by rw [replaced.store]) rebuilds ?_
        refine .saved changed next _ is valid passed rfl replaced.only (replaced.files.trans ?_)
          fun _ => burnt₁
        rw [updatedFiles, if_neg same]
        rfl
    · intro w₁ error backup armed _ _ left
      refine .unsaved changed next _ _ is valid passed armed (StoreRollback.of_change left ?_)
      rw [stored]
      exact ⟨.inl rfl, fun _ => .inl rfl, fun h => by cases h⟩

theorem update_settles {now : Timestamp}
    (keeps : KeepsThread change) (consistent : StoreConsistent w.state.store) :
    Settles op (update now id change preserve) w := by
  cases stored : w.state.store.records.get? id with
  | none =>
    unfold update Settles
    simp only [wp_bind, wp_readStore, stored]
    exact settles_throw (α := StoredThreadRecordV1) _
  | some current =>
    refine wp_mono (wp_update keeps consistent stored) ?_ ?_
    · intro next w' outcome
      cases outcome with
      | kept is => exact settles_pure (α := StoredThreadRecordV1) current
      | saved changed _ _ is valid passed store only files burnt =>
        have parsed := parsed_of_schema valid
        have same := (keeps _ _ _ is).trans (consistent.records.parsed id current stored).keyed
        exact ⟨.updated id current next stored
          ⟨parsed.keyed.trans same, parsed.accepted, parsed.measurements⟩ passed store only files,
          burnt⟩
    · intro error w' outcome
      cases outcome with
      | refused _ is => exact StoreRollback.refl w.state
      | invalid _ issues is fails => exact StoreRollback.refl w.state
      | clashes changed next _ is valid clash => exact StoreRollback.refl w.state
      | unsaved changed next _ _ is valid passed armed rollback => exact rollback

/-- The record file of a new Thread is published, or its metadata is taken back. -/
theorem wp_writeNewFile {record : StoredThreadRecordV1}
    {Q : Unit → World → Prop} (keyed : record.hostThreadId = id)
    (returned : ∀ w', (w'.fuse = none ↔ w.fuse = none) →
      FileChange id w.state w'.state (published record false (filesOf w.state.disk id)) → Q () w')
    (failed : ∀ w' error, FileChange id w.state w'.state { filesOf w.state.disk id with
        metadata := if (threadMetadataOf record).isSome then none
          else (filesOf w.state.disk id).metadata } → E error w') :
    (writeNewFile record).wp Q E w := by
  unfold writeNewFile
  simp only [wp_tryCatch, keyed]
  apply wp_replaceFile keyed returned
  intro w₁ error backup _ burnt sameBackup left
  obtain rfl := sameBackup rfl
  split
  · next carried =>
    simp only [wp_bind, wp_tryCatch, wp_pure, wp_throw]
    apply wp_fileStep
    · intro fuse _
      have erased := deleteMetadata_change w₁.state id
      rw [left.files] at erased
      apply failed
      rw [if_pos carried]
      exact left.trans erased
    · exact fun armed => absurd burnt armed
  · next bare =>
    apply failed
    rw [if_neg bare]
    exact left

section
variable (consistent : StoreConsistent w.state.store)
include consistent

theorem writeNew_settles {now : Timestamp} {record : StoredThreadRecordV1} (parsed : Parsed id record)
    (absent : w.state.store.records.get? id = none) : Settles op (writeNew now record) w := by
  unfold Settles writeNew
  simp only [wp_bind, wp_readStore, wp_lift, parsed.keyed]
  refine ⟨?_, fun error _ => StoreRollback.refl w.state⟩
  intro _ passed
  obtain ⟨rebuilds, -⟩ :=
    consistent.withRecord (.inl rfl) parsed passed
  split
  · next carried =>
    simp only [wp_bind]
    apply wp_writeMetadataFile
    · intro w₁ _ readable₁ written
      apply wp_writeNewFile parsed.keyed
      · intro w₂ burnt₂ replaced
        have both := written.trans replaced
        rw [written.files] at both
        simp only [wp_modifyStore]
        refine wp_rebuild (s := w.state.store) (by rw [both.store]) rebuilds ?_
        constructor
        · refine .created id record absent parsed passed rfl both.only (both.files.trans ?_)
          rw [createdFiles, if_pos carried]
          rfl
        · exact fun readable => burnt₂.trans (readable₁ (readable id))
      · intro w₂ error left
        have both := written.trans left
        rw [written.files, if_pos carried] at both
        apply StoreRollback.of_change both
        rw [absent]
        exact ⟨.inl rfl, fun _ => .inr ⟨rfl, rfl⟩, fun _ => rfl⟩
    · intro w₁ error left _ _ readable₁ kept
      apply StoreRollback.of_change kept
      exact ⟨.inl rfl, fun readable => .inl (readable₁ readable), fun _ => rfl⟩
  · next bare =>
    simp only [wp_bind]
    apply wp_writeNewFile parsed.keyed
    · intro w₂ burnt₂ replaced
      simp only [wp_modifyStore]
      refine wp_rebuild (s := w.state.store) (by rw [replaced.store]) rebuilds ?_
      constructor
      · refine .created id record absent parsed passed rfl replaced.only (replaced.files.trans ?_)
        rw [createdFiles, if_neg bare]
        rfl
      · exact fun _ => burnt₂
    · intro w₂ error left
      rw [if_neg bare] at left
      exact StoreRollback.of_change left (RolledBack.refl id _ _)

theorem createProvisional_settles {now : Timestamp} {input : CreateProvisionalThreadInput} : Settles op (createProvisional now input) w := by
  unfold Settles createProvisional
  simp only [wp_bind, wp_readStore]
  cases requested : w.state.store.indexes.createRequests.get? input.createRequestId with
  | some existingThreadId =>
    simp only
    split
    · exact settles_throw (α := StoredThreadRecordV1) _
    · next existing _ => exact settles_pure (α := StoredThreadRecordV1) existing
  | none =>
    simp only
    split
    · exact settles_throw (α := StoredThreadRecordV1) _
    · next fresh =>
      have absent : w.state.store.records.get? input.hostThreadId = none := by
        rw [← OrderedMap.has_eq_false_iff]
        exact Bool.eq_false_iff.mpr fresh
      simp only [wp_bind]
      apply wp_parseRecord _ fun issues _ => StoreRollback.refl w.state
      intro record valid
      exact writeNew_settles consistent (parsed_of_schema valid) absent

theorem remove_settles : Settles op (remove id) w := by
  unfold Settles remove
  simp only [wp_bind, wp_readStore]
  cases stored : w.state.store.records.get? id with
  | none => exact settles_pure (α := Unit) ()
  | some current =>
    obtain ⟨rebuilds, -⟩ := consistent.withoutRecord id
    simp only [wp_bind, wp_tryCatch]
    -- A failed unlink of a later file puts the record back.
    have putBack : ∀ (w' : World) (files : ThreadFiles) (Q : Unit → World → Prop)
        (E : StoreError → World → Prop), w'.fuse = none → FileChange id w.state w'.state files →
        files.metadata = (filesOf w.state.disk id).metadata →
        (∀ w'', StoreRollback w.state w''.state → Q () w'') →
        (replaceFile id current false).wp Q E w' := by
      intro w' files Q E spent change sameMetadata rejected
      apply wp_replaceFile (consistent.records.parsed id current stored).keyed
      · intro w'' _ restored
        have all := change.trans restored
        rw [change.files] at all
        apply rejected
        apply StoreRollback.of_change all
        rw [stored]
        exact ⟨.inr ⟨current, rfl, rfl⟩, fun _ => .inl sameMetadata, fun h => by cases h⟩
      · intro _ _ _ armed
        exact absurd spent armed
    apply wp_fileStep
    · intro fuse₁ burnt₁
      have first := deleteThread_change w.state id
      apply wp_fileStep
      · intro fuse₂ burnt₂
        replace burnt₂ := burnt₂.trans burnt₁
        have second := deleteBackup_change
          { w.state with disk := { w.state.disk with threads := w.state.disk.threads.delete id } } id
        rw [first.files] at second
        replace second := first.trans second
        apply wp_fileStep
        · intro fuse₃ burnt₃
          have third := deleteMetadata_change { w.state with disk := { w.state.disk with
              threads := w.state.disk.threads.delete id
              backups := w.state.disk.backups.delete id } } id
          rw [second.files] at third
          replace third := second.trans third
          refine wp_rebuild (s := w.state.store) rfl rebuilds ?_
          exact ⟨.removed id current stored rfl third.only third.files,
            fun _ => burnt₃.trans burnt₂⟩
        · exact fun armed => putBack _ _ _ _ rfl second rfl fun _ h => h
      · exact fun armed => putBack _ _ _ _ rfl first rfl fun _ h => h
    · exact fun armed => StoreRollback.refl w.state

theorem removeProvisional_settles :
    Settles op (removeProvisional id) w := by
  unfold Settles removeProvisional
  simp only [wp_bind, wp_readStore]
  split
  · exact settles_throw (α := Unit) _
  · exact remove_settles consistent

end

/-- A merged measurement is the prior or the given one. -/
theorem mergeMeasurement_all {retained : List HostTurnId} {prior given : Option UsageMeasurement}
    {p : UsageMeasurement → Bool} (hp : prior.all p) (hg : given.all p) :
    (mergeMeasurement retained prior given).all p := by
  have kept : ∀ (o : Option UsageMeasurement) (q : UsageMeasurement → Bool), o.all p →
      (o.filter q).all p := by
    intro o q h
    cases o with
    | none => rfl
    | some value => by_cases hq : q value <;> simp_all [Option.filter]
  unfold mergeMeasurement
  have given' := kept given (·.turnId ∈ retained) hg
  have prior' := kept prior (·.turnId ∈ retained) hp
  cases h : given.filter (·.turnId ∈ retained) with
  | none => exact prior'
  | some value =>
    rw [h] at given'
    simp only
    split
    · exact given'
    · exact prior'

variable {ref : NativeSessionRef}

theorem mergeMeasurements_valid {current : StoredThreadRecordV1}
    {values : UsageMeasurementsSnapshot} (known : nativeSessionRefSchema ref)
    (prior : current.usageMeasurements.all storedUsageMeasurementsSchema)
    (given : usageMeasurementsSchema values) :
    (mergeMeasurements current ref values).all storedUsageMeasurementsSchema := by
  have old : usageMeasurementsSchema (priorMeasurements current ref) := by
    unfold priorMeasurements
    cases stored : current.usageMeasurements with
    | none => rfl
    | some usage =>
      rw [stored] at prior
      simp only [Option.all_some, storedUsageMeasurementsSchema, Bool.and_eq_true] at prior
      simp only
      split
      · exact prior.2
      · rfl
  unfold mergeMeasurements
  simp only
  split
  · rfl
  · simp only [usageMeasurementsSchema, Bool.and_eq_true] at old given
    simp only [Option.all_some, storedUsageMeasurementsSchema, usageMeasurementsSchema, Bool.and_eq_true]
    exact ⟨known, mergeMeasurement_all old.1 given.1, mergeMeasurement_all old.2 given.2⟩

theorem accepted_session {r : StoredThreadRecordV1} (accepted : r.accepted)
    (current : r.nativeSessionRef = some ref) : nativeSessionRefSchema ref := by
  simp only [StoredThreadRecordV1.accepted, storedThreadCoreV1Shape, Bool.and_eq_true,
    current, Option.all_some] at accepted
  tauto

theorem saveUsageMeasurements_settles {now : Timestamp} {values : UsageMeasurementsSnapshot}
    (consistent : StoreConsistent w.state.store) :
    Settles (.saveUsageMeasurements id ref values) (saveUsageMeasurements now id ref values) w := by
  unfold Settles saveUsageMeasurements
  split
  · next given =>
    simp only [wp_bind, wp_readStore]
    cases stored : w.state.store.records.get? id with
    | none => exact settles_throw (α := StoredThreadRecordV1) _
    | some current =>
      simp only
      split
      · exact settles_pure (α := StoredThreadRecordV1) current
      · next ready =>
        split
        · exact settles_pure (α := StoredThreadRecordV1) current
        · next changed =>
          simp only [wp_bind]
          have parsed := consistent.records.parsed id current stored
          have session : current.state = .ready ∧ current.nativeSessionRef = some ref := by
            simpa only [not_or, not_not, ne_eq] using ready
          have valid := mergeMeasurements_valid (accepted_session parsed.accepted session.2)
            parsed.measurements given
          apply wp_writeMetadataFile
          · intro w₁ _ readable₁ written
            simp only [wp_modifyStore, wp_pure]
            constructor
            · refine .measured id ref values current _ rfl given stored session rfl changed valid ?_
                written.only written.files
              rw [written.store]
            · exact fun readable => readable₁ (readable id)
          · intro w₁ error left _ _ readable₁ kept
            apply StoreRollback.of_change kept
            exact ⟨.inl rfl, fun readable => .inl (readable₁ readable), fun _ => rfl⟩
  · exact settles_throw (α := StoredThreadRecordV1) _

theorem replaceSectionPlacements_settles {placements : List StoredSectionPlacementV1} :
    Settles op (replaceSectionPlacements placements) w := by
  unfold Settles replaceSectionPlacements
  simp only [wp_bind, wp_readStore, wp_tryCatch, wp_throw]
  split
  · exact StoreRollback.refl w.state
  · simp only [wp_bind]
    refine wp_writeTemporaryFile ?_ fun _ => StoreRollback.refl w.state
    intro fuse₁ burnt₁
    refine wp_fileStep ?_ fun _ => StoreRollback.refl w.state
    intro fuse₂ burnt₂
    exact ⟨.listed rfl rfl rfl (fun _ => rfl) rfl, fun _ => burnt₂.trans burnt₁⟩

/-- Recording a superseded session returns whatever happens, so a fault in it is swallowed. -/
theorem wp_recordSuperseded {now : Timestamp} {previous : NativeSessionRef}
    {replaced : StoredThreadRecordV1} :
    (recordSuperseded now previous replaced).wp (fun _ w' => StoreEffect op w.state w'.state) E w := by
  unfold recordSuperseded
  split
  · exact StoreEffect.unchanged
  · split
    · exact StoreEffect.unchanged
    · simp only [wp_bind, wp_readStore, wp_tryCatch, wp_pure]
      split
      · exact StoreEffect.unchanged
      · simp only [wp_bind]
        refine wp_fileStep ?_ fun _ => StoreEffect.unchanged
        intro fuse₁ _
        refine wp_writeTemporaryFile ?_ fun _ => StoreEffect.unchanged
        intro fuse₂ _
        refine wp_fileStep ?_ fun _ => StoreEffect.unchanged
        intro fuse₃ _
        exact .listed rfl rfl rfl (fun _ => rfl) rfl

end Settles

section Changes
variable {store : StoreState} {r r' : StoredThreadRecordV1}

/-- No change that goes through `#update` touches the Thread ID. -/
theorem asUpdate_keepsThread {parseUrl : UrlParser} {op : QueuedOperation} (h : op.asUpdate parseUrl = some (id, change, preserve)) :
    KeepsThread change := by
  intro store r r' changed
  cases op <;> simp only [QueuedOperation.asUpdate, Option.some.injEq, Prod.mk.injEq,
    reduceCtorEq] at h <;> obtain ⟨-, rfl, -⟩ := h
  case commitReady input =>
    unfold commitReady at changed
    cases merged : mergeMappings r.turnMappings (input.turnMappings.getD []) <;>
      simp only [merged, Except.map] at changed <;> cases changed
    rfl
  case upsertTurnMappings id mappings =>
    unfold upsertTurnMappings at changed
    cases merged : mergeMappings r.turnMappings mappings <;>
      simp only [merged, Except.map] at changed <;> cases changed
    rfl
  case rebindSubagentSession input =>
    simp only [rebindSubagentSession] at changed
    repeat' split at changed
    all_goals cases changed
    all_goals rfl
  case replaceReadySession input =>
    simp only [replaceReadySession] at changed
    split at changed <;> cases changed
    rfl
  case replaceReadySessionAfterLastTurn input =>
    simp only [replaceReadySessionAfterLastTurn] at changed
    split at changed <;> cases changed
    rfl
  case reconcileTurnMappings id mappings =>
    simp only [reconcileTurnMappings] at changed
    split at changed
    · cases changed
    · cases checked : reconcileLoop (MergeState.start r.turnMappings) [] [] mappings with
      | error e => simp [checked, Except.map] at changed
      | ok u =>
        simp only [checked, Except.map, Except.ok.injEq] at changed
        split at changed <;> cases changed
        rfl
  case setTitle id title =>
    cases changed
    rfl
  case setTransportModelId id model =>
    simp only [setTransportModelId, Except.ok.injEq] at changed
    split at changed <;> cases changed
    rfl
  case setArchived id archived =>
    simp only [setArchived, Except.ok.injEq] at changed
    split at changed <;> cases changed
    rfl
  case updateMetadata id patch ifProjectId =>
    simp only [updateMetadata] at changed
    split at changed
    · cases changed
    · split at changed <;> cases changed
      rfl

end Changes

/-- Best effort by design: its faults do not reach the caller. -/
def bestEffort : QueuedOperation → Bool
  | .recordSuperseded _ _ => true
  | _ => false

section Body
variable {w : World} {parseUrl : UrlParser} {now : Timestamp}

theorem body_settles {op : QueuedOperation} (consistent : StoreConsistent w.state.store)
    (strict : bestEffort op = false) : Settles op (op.body parseUrl now) w := by
  unfold QueuedOperation.body
  cases h : op.asUpdate parseUrl with
  | some target =>
    exact (update_settles (asUpdate_keepsThread h) consistent).discard
  | none =>
    cases op with
    | createProvisional input => exact (createProvisional_settles consistent).discard
    | saveUsageMeasurements id ref values =>
      exact (saveUsageMeasurements_settles consistent).discard
    | removeProvisional id => exact removeProvisional_settles consistent
    | removeThread id => exact remove_settles consistent
    | recordSuperseded previous replaced => cases strict
    | replaceSectionPlacements placements => exact replaceSectionPlacements_settles
    | _ => simp only [QueuedOperation.asUpdate, reduceCtorEq] at h

/-- Every operation of the queue has one of the effects, or throws and is rolled back. -/
theorem body_effect {op : QueuedOperation} (consistent : StoreConsistent w.state.store) :
    (op.body parseUrl now).wp (fun _ w' => StoreEffect op w.state w'.state)
      (fun _ w' => StoreRollback w.state w'.state) w := by
  cases strict : bestEffort op with
  | false =>
    exact wp_mono (body_settles consistent strict) (fun _ _ h => h.1) fun _ _ h => h
  | true =>
    cases op <;> cases strict
    simp only [QueuedOperation.body, QueuedOperation.asUpdate]
    exact wp_recordSuperseded

end Body

theorem StoreEffect.consistent {op : QueuedOperation} {w w' : StoreWorld} (effect : StoreEffect op w w')
    (consistent : StoreConsistent w.store) : StoreConsistent w'.store := by
  cases effect with
  | unchanged => exact consistent
  | updated id current next stored parsed passed store only files =>
    rw [store]
    exact (consistent.withRecord (.inr rfl) parsed passed).2
  | created id record absent parsed passed store only files =>
    rw [store]
    exact (consistent.withRecord (.inl rfl) parsed passed).2
  | measured id ref values current usage _ _ stored _ _ _ valid store only files =>
    rw [store]
    exact consistent.withMeasurements stored valid
  | removed id current stored store only files =>
    rw [store]
    exact (consistent.withoutRecord id).2
  | listed records delegations indexes files delegationFiles =>
    exact ⟨records ▸ consistent.records, delegations ▸ consistent.delegations,
      by rw [records, delegations, indexes]; exact consistent.projects⟩

end CodexHost.Guarantees
