import CodexHost.Guarantees.StoreMirror

/-!
# Closing a store and starting a new one over its files

Over mirrored files a start without a fault returns, loads every Thread that is kept, and
leaves mirrored files again. The loaded record is the one from before, except that
measurements which only the Thread file still carries come back (`restored`).
-/
namespace CodexHost.Guarantees
open Foundation Source.SharedContracts Source.MappingStore OrderedMap Option

/-- The record as it comes back: measurements of the metadata file, else of the Thread file. -/
def restored (r : StoredThreadRecordV1) (inline sidecar : Measurements) : StoredThreadRecordV1 :=
  { r with usageMeasurements := sidecar.or inline }

section Thread
variable {id : HostThreadId} {r : StoredThreadRecordV1} {files : ThreadFiles} {inline sidecar : Measurements}

theorem restored_eq_of_fresh (usage : sidecar = r.usageMeasurements ∨
      sidecar = none ∧ r.usageMeasurements = inline)
    (fresh : ¬ (r.usageMeasurements = none ∧ inline ≠ none)) : restored r inline sidecar = r := by
  have same : sidecar.or inline = r.usageMeasurements := by
    rcases usage with h | ⟨h, h'⟩
    · subst h
      cases usage : r.usageMeasurements with
      | none =>
        by_contra carried
        exact fresh ⟨usage, carried⟩
      | some measured => rfl
    · rw [h, none_or, h']
  unfold restored
  rw [same]

/-- The Thread file of a mirrored record parses, to the record without its metadata. -/
theorem ThreadMirror.readRecord (mirror : ThreadMirror id r files inline sidecar) (parsed : Parsed id r) :
    readRecord id files.primary = .ok (withoutThreadMetadata { r with usageMeasurements := inline }) := by
  have accepted : (withoutThreadMetadata { r with usageMeasurements := inline }).accepted := by
    have whole := parsed.accepted
    simp only [StoredThreadRecordV1.accepted, Bool.and_eq_true] at whole ⊢
    exact ⟨⟨whole.1.1, rfl⟩, whole.2⟩
  have caught : inline.filter storedUsageMeasurementsSchema = inline := by
    have valid := mirror.valid
    cases inline with
    | none => rfl
    | some usage =>
      rw [all_some] at valid
      rw [filter_some, if_pos valid]
  rw [mirror.primary]
  unfold Source.MappingStore.readRecord storedThreadRecordV1Schema
  simp only [accepted, if_true]
  rw [if_pos]
  · simp only [StoredThreadMetadataFields.catchUsage, withoutThreadMetadata, caught]
  · exact parsed.keyed

/-- A start discards a mirrored record or restores it, with mirrored files. -/
theorem ThreadMirror.loaded (mirror : ThreadMirror id r files inline sidecar) (parsed : Parsed id r) :
    if discardable r then loadedThread id files = some (none, noFiles)
    else ∃ files' inline' sidecar', loadedThread id files = some (some (restored r inline sidecar), files') ∧
      ThreadMirror id (restored r inline sidecar) files' inline' sidecar' ∧
      ((restored r inline sidecar).usageMeasurements = none → inline' = none) := by
  have read := mirror.readRecord parsed
  have recovered : recoveredThread id files =
      some (withoutThreadMetadata { r with usageMeasurements := inline }, files) := by
    simp only [recoveredThread, read]
  have sameDiscard : discardable (withoutThreadMetadata { r with usageMeasurements := inline }) =
      discardable r := rfl
  simp only [loadedThread, recovered, map_some, admittedThread, sameDiscard]
  split
  · rfl
  · rw [mirror.storedMetadata parsed]
    cases written : threadMetadataOf { r with usageMeasurements := sidecar } with
    | some metadata =>
      have fields : metadata.toStoredThreadMetadataFields =
          { r.toStoredThreadMetadataFields with usageMeasurements := sidecar } := by
        unfold threadMetadataOf at written
        split at written
        · cases written
        · cases written
          rfl
      have joined : withThreadMetadata
          (withoutThreadMetadata { r with usageMeasurements := inline }) metadata =
          restored r inline sidecar := by
        simp only [withThreadMetadata, withoutThreadMetadata, restored, fields]
        cases sidecar <;> cases r.preview <;> cases r.projectId <;>
          cases r.projectlessWorkspace <;> cases r.daybreakEnabled <;> cases r.gitInfo <;> rfl
      simp only [joined]
      refine ⟨files, inline, sidecar, rfl, ⟨mirror.primary, mirror.metadata, ?_, mirror.valid⟩, ?_⟩
      · cases sidecar with
        | none => exact .inr ⟨rfl, rfl⟩
        | some usage => exact .inl rfl
      · intro cleared
        cases sidecar with
        | none => exact cleared
        | some usage => cases cleared
    | none =>
      -- Without a metadata file every field but the inline measurements is absent.
      have bare : { r.toStoredThreadMetadataFields with usageMeasurements := sidecar } =
          noThreadMetadata := by
        unfold threadMetadataOf at written
        split at written
        · next h => exact h
        · cases written
      have noSidecar : sidecar = none := congrArg (·.usageMeasurements) bare
      have whole : withoutThreadMetadata { r with usageMeasurements := inline } =
          restored r inline sidecar := by
        have preview : r.preview = none := congrArg (·.preview) bare
        have projectId : r.projectId = none := congrArg (·.projectId) bare
        have workspace : r.projectlessWorkspace = none := congrArg (·.projectlessWorkspace) bare
        have daybreak : r.daybreakEnabled = none := congrArg (·.daybreakEnabled) bare
        have gitInfo : r.gitInfo = none := congrArg (·.gitInfo) bare
        simp only [withoutThreadMetadata, restored, noSidecar, none_or, preview, projectId,
          workspace, daybreak, gitInfo]
      have restoredParsed : Parsed id (restored r inline sidecar) := by
        rw [← whole]
        refine ⟨parsed.keyed, ?_, mirror.valid⟩
        have accepted := parsed.accepted
        simp only [StoredThreadRecordV1.accepted, Bool.and_eq_true] at accepted ⊢
        exact ⟨⟨accepted.1.1, rfl⟩, accepted.2⟩
      have stripped : withoutThreadMetadata (restored r inline sidecar) = restored r inline sidecar := by
        rw [← whole]
        rfl
      simp only [whole]
      split
      · next inlined =>
        refine ⟨_, _, _, rfl, threadMirror_published restoredParsed rfl ?_, fun h => h⟩
        exact writes_absent rfl restoredParsed.keyed
      · next bareRecord =>
        have gone : threadMetadataOf (restored r inline sidecar) = none :=
          not_isSome_iff_eq_none.mp bareRecord
        refine ⟨_, _, _, rfl, threadMirror_published restoredParsed ?_ ?_, fun h => h⟩
        · rw [stripped]
          exact mirror.primary.trans (by rw [whole])
        · rw [gone]
          rfl

end Thread

section Restart
variable {w : StoreWorld}

section
variable (mirrored : Mirrored w)
include mirrored

theorem Mirrored.listed_iff (id : HostThreadId) :
    w.disk.threads.has id = true ↔ ∃ r, w.store.records.get? id = some r := by
  rw [has_iff]
  constructor
  · rintro ⟨content, present⟩
    by_contra gone
    have absent : w.store.records.get? id = none := by
      cases h : w.store.records.get? id with
      | none => rfl
      | some r => exact absurd ⟨r, h⟩ gone
    have primary : (filesOf w.disk id).primary = some content := present
    rw [mirrored.absent id absent] at primary
    cases primary
  · rintro ⟨r, stored⟩
    obtain ⟨inline, sidecar, mirror⟩ := mirrored.present id r stored
    exact ⟨_, mirror.primary⟩

/-- What a start over mirrored files loads for a Thread. -/
theorem Mirrored.starts (consistent : StoreConsistent w.store)
    {id : HostThreadId} {r : StoredThreadRecordV1} {inline sidecar : Measurements}
    (stored : w.store.records.get? id = some r)
    (mirror : ThreadMirror id r (filesOf w.disk id) inline sidecar) :
    startRecord w.disk id =
      if discardable r then none else some (restored r inline sidecar) := by
  have loaded := mirror.loaded (consistent.records.parsed id r stored)
  have listed := (mirrored.listed_iff id).mpr ⟨r, stored⟩
  unfold startRecord loadedRecord
  rw [if_pos listed]
  split at loaded
  · next discarded =>
    rw [loaded, if_pos discarded]
    rfl
  · next kept =>
    obtain ⟨files', inline', sidecar', whole, -, -⟩ := loaded
    rw [whole, if_neg kept]
    rfl

theorem Mirrored.starts_none {id : HostThreadId}
    (absent : w.store.records.get? id = none) : startRecord w.disk id = none := by
  unfold startRecord
  rw [if_neg]
  rw [mirrored.listed_iff]
  rintro ⟨r, stored⟩
  rw [absent] at stored
  cases stored

/-- A record that starts has the identities of the record in memory. -/
theorem Mirrored.starts_core (consistent : StoreConsistent w.store)
    {id : HostThreadId} {q : StoredThreadRecordV1} (starts : startRecord w.disk id = some q) :
    ∃ r, w.store.records.get? id = some r ∧ q.toStoredThreadCoreV1 = r.toStoredThreadCoreV1 := by
  cases stored : w.store.records.get? id with
  | none =>
    rw [mirrored.starts_none stored] at starts
    cases starts
  | some r =>
    obtain ⟨inline, sidecar, mirror⟩ := mirrored.present id r stored
    rw [mirrored.starts consistent stored mirror] at starts
    split at starts
    · cases starts
    · cases starts
      exact ⟨r, rfl, rfl⟩

theorem Mirrored.starts_delegation (id : HostThreadId) :
    startDelegation w.disk id = w.store.delegations.get? id := by
  unfold startDelegation
  rw [mirrored.delegationFiles id]
  cases stored : w.store.delegations.get? id with
  | none => rfl
  | some d =>
    obtain ⟨keyed, valid⟩ := mirrored.delegationsParsed id d stored
    simp [readDelegation, keyed, valid]

theorem Mirrored.startsSeparate (consistent : StoreConsistent w.store) :
    StartsSeparate w.disk where
  threads id id' q q' starts starts' hne := by
    obtain ⟨r, stored, same⟩ := mirrored.starts_core consistent starts
    obtain ⟨r', stored', same'⟩ := mirrored.starts_core consistent starts'
    have apart := consistent.records.separate id id' r r' stored stored' hne
    exact (separate_congr same (separate_congr same' apart).symm).symm
  delegations id id' d d' starts starts' hne := by
    have separate := consistent.delegations
    rw [pairwise_values_iff fun _ _ h => h.symm] at separate
    rw [mirrored.starts_delegation] at starts starts'
    exact separate id id' d d' starts starts' hne

end

/-- A start over files whose records are separate returns what it loads. -/
theorem start_of_separate (order : DirectoryOrder) (now : Timestamp) {disk : Disk}
    (separate : StartsSeparate disk) :
    (start order now none disk).1 = .ok () ∧ Started now disk (start order now none disk).2 ∧
      StoreConsistent (start order now none disk).2.store := by
  have spec : (initializeStore order now).wp
      (fun _ w' => StoreConsistent w'.state.store ∧ Started now disk w'.state)
      (fun _ _ => False) ⟨none, ⟨disk, .constructed⟩⟩ :=
    wp_initializeStore (fun _ consistent exactly => ⟨consistent, (exactly rfl).2⟩)
      fun _ _ collides => collides rfl separate
  rw [Command.wp_iff] at spec
  cases outcome : (start order now none disk).1 with
  | ok _ =>
    obtain ⟨consistent, started⟩ := spec.1 () _ (Prod.ext outcome rfl)
    exact ⟨rfl, started, consistent⟩
  | error error => exact (spec.2 error _ (Prod.ext outcome rfl)).elim

/-- A start without a fault returns exactly when what it loads is separate. -/
theorem start_ok_iff (order : DirectoryOrder) (now : Timestamp) (disk : Disk) :
    (start order now none disk).1 = .ok () ↔ StartsSeparate disk := by
  constructor
  · intro returned
    by_contra collides
    have spec : (initializeStore order now).wp
        (fun _ w' => StoreConsistent w'.state.store ∧ Started now disk w'.state)
        (fun _ _ => True) ⟨none, ⟨disk, .constructed⟩⟩ :=
      wp_initializeStore (fun _ consistent exactly => ⟨consistent, (exactly rfl).2⟩)
        fun _ _ _ => trivial
    rw [Command.wp_iff] at spec
    obtain ⟨consistent, started⟩ := spec.1 () _ (Prod.ext returned rfl)
    have delegations := consistent.delegations
    rw [pairwise_values_iff fun _ _ h => h.symm] at delegations
    apply collides
    constructor
    · intro id id' r r' starts starts' hne
      rw [← started.records] at starts starts'
      exact consistent.records.separate id id' r r' starts starts' hne
    · intro id id' d d' starts starts' hne
      rw [← started.delegations] at starts starts'
      exact delegations id id' d d' starts starts' hne
  · exact fun separate => (start_of_separate order now separate).1

/-- A restart over mirrored files: it returns, and memory and files mirror each other again. -/
theorem Mirrored.restart (mirrored : Mirrored w) (consistent : StoreConsistent w.store)
    (order : DirectoryOrder) (now : Timestamp) :
    (start order now none w.disk).1 = .ok () ∧ Started now w.disk (start order now none w.disk).2 ∧
      StoreConsistent (start order now none w.disk).2.store ∧
      Mirrored (start order now none w.disk).2 ∧
      ∀ id, ¬ Stale (start order now none w.disk).2 id := by
  obtain ⟨returned, started, consistent'⟩ :=
    start_of_separate order now (mirrored.startsSeparate consistent)
  have reloaded : ∀ id q, (start order now none w.disk).2.store.records.get? id = some q → ∃ inline sidecar,
        ThreadMirror id q (filesOf (start order now none w.disk).2.disk id) inline sidecar ∧
        (q.usageMeasurements = none → inline = none) := by
    intro id q stored'
    rw [started.records] at stored'
    obtain ⟨r, stored, -⟩ := mirrored.starts_core consistent stored'
    obtain ⟨inline, sidecar, mirror⟩ := mirrored.present id r stored
    have loaded := mirror.loaded (consistent.records.parsed id r stored)
    rw [mirrored.starts consistent stored mirror] at stored'
    split at stored'
    · cases stored'
    · next kept =>
      cases stored'
      rw [if_neg kept] at loaded
      obtain ⟨files', inline', sidecar', whole, mirror', fresh⟩ := loaded
      have listed := (mirrored.listed_iff id).mpr ⟨r, stored⟩
      rcases started.loadedFiles id listed _ _ whole with h | ⟨h, -⟩
      · rw [h]
        exact ⟨inline', sidecar', mirror', fresh⟩
      · cases h
  refine ⟨returned, started, consistent', ⟨?_, ?_, ?_, ?_⟩, ?_⟩
  · intro id gone
    rw [started.records] at gone
    cases stored : w.store.records.get? id with
    | none =>
      have unlisted : w.disk.threads.has id = false := by
        rw [Bool.eq_false_iff, ne_eq, mirrored.listed_iff]
        rintro ⟨r, h⟩
        rw [stored] at h
        cases h
      rw [started.unlistedFiles id unlisted, mirrored.absent id stored]
      rfl
    | some r =>
      obtain ⟨inline, sidecar, mirror⟩ := mirrored.present id r stored
      have loaded := mirror.loaded (consistent.records.parsed id r stored)
      rw [mirrored.starts consistent stored mirror] at gone
      split at gone
      · next discarded =>
        rw [if_pos discarded] at loaded
        have listed := (mirrored.listed_iff id).mpr ⟨r, stored⟩
        rcases started.loadedFiles id listed _ _ loaded with h | ⟨-, h⟩
        · exact h
        · rw [h]
          rfl
      · cases gone
  · intro id q stored
    obtain ⟨inline, sidecar, mirror, -⟩ := reloaded id q stored
    exact ⟨inline, sidecar, mirror⟩
  · intro id
    rw [started.delegationFiles, started.delegations]
  · intro id d stored
    rw [started.delegations, mirrored.starts_delegation] at stored
    exact mirrored.delegationsParsed id d stored
  · intro id stale
    have stale' := stale
    obtain ⟨q, p, stored, -⟩ := stale'
    obtain ⟨inline, sidecar, mirror, fresh⟩ := reloaded id q stored
    obtain ⟨cleared, carried⟩ := (mirror.stale_iff stored).mp stale
    exact carried (fresh cleared)

end Restart

end CodexHost.Guarantees
