import CodexHost.Guarantees.FailureAtomicity
import CodexHost.Guarantees.ThreadArchives

/-!
# Corruption isolation

One Thread file is replaced by content that does not read as a record of its Thread. The
next start falls back to the backup, an older version of that record: it may be the
provisional record, which a start discards with all its files, or carry a Native Session,
a Turn or a Request ID that another Thread has taken over since, and then the rebuild
throws and no Thread loads at all. Otherwise the damage stays with its Thread.
-/
namespace CodexHost.Guarantees
open Foundation Source.SharedContracts Source.MappingStore OrderedMap Option

/-- The files after the file of one Thread was overwritten. -/
def damaged (disk : Disk) (id : HostThreadId) (content : FileContent StoredThreadRecordV1) : Disk :=
  { disk with threads := disk.threads.set id content }

/-- The content is no record of this Thread: not JSON, or rejected by the schema or by the
check of the file name. -/
def Unreadable (id : HostThreadId) (content : FileContent StoredThreadRecordV1) : Prop :=
  ∃ error, readRecord id (some content) = .error error

/-- A record of the backup with the metadata of its Thread. -/
def joinedRecord (id : HostThreadId) (backup : StoredThreadRecordV1) (files : ThreadFiles) :
    StoredThreadRecordV1 :=
  match storedMetadata id files with
  | some metadata => withThreadMetadata backup metadata
  | none => backup

/-- The Thread holds the record of its backup, in memory and in its file. -/
def RestoredFromBackup (id : HostThreadId) (disk : Disk) (after : StoreWorld) : Prop :=
  ∃ backup, readRecord id (disk.backups.get? id) = .ok backup ∧
    after.store.records.get? id = some (joinedRecord id backup (filesOf disk id)) ∧
    after.disk.threads.get? id = some (.json (withoutThreadMetadata backup))

/-- The Thread is not loaded and its damaged file stands in the quarantine. -/
def Quarantined (now : Timestamp) (id : HostThreadId) (content : FileContent StoredThreadRecordV1)
    (after : StoreWorld) : Prop :=
  after.store.records.get? id = none ∧ Archived now id content after.disk

/-- A start after the damage returns, loads every other Thread as it was in memory (less
the provisional records that every start discards), and restores or quarantines this one. -/
structure Isolated (order : DirectoryOrder) (now : Timestamp) (w : StoreWorld) (id : HostThreadId)
    (content : FileContent StoredThreadRecordV1) : Prop where
  returns : (start order now none (damaged w.disk id content)).1 = .ok ()
  others : ∀ other, other ≠ id →
    (start order now none (damaged w.disk id content)).2.store.records.get? other =
      (w.store.records.get? other).filter fun r => !discardable r
  own : RestoredFromBackup id w.disk (start order now none (damaged w.disk id content)).2 ∨
    Quarantined now id content (start order now none (damaged w.disk id content)).2

/-- The backup does not read as a record, or as one that is kept and shares no identity with
a kept record of another Thread. -/
def BackupHarmless (w : StoreWorld) (id : HostThreadId) : Prop :=
  ∀ backup, readRecord id (w.disk.backups.get? id) = .ok backup → discardable backup = false ∧
    ∀ other r, other ≠ id → w.store.records.get? other = some r → discardable r = false →
      SeparateIdentities backup r

/-- No other kept Thread has a file that resurrects measurements at every start. -/
def OthersFresh (w : StoreWorld) (id : HostThreadId) : Prop :=
  ∀ other r, other ≠ id → w.store.records.get? other = some r → discardable r = false → ¬ Stale w other

section Damage
variable {w : StoreWorld} {id : HostThreadId} {content : FileContent StoredThreadRecordV1}

variable {disk : Disk} {other : HostThreadId}

theorem filesOf_damaged_other (hne : other ≠ id) :
    filesOf (damaged disk id content) other = filesOf disk other := by
  simp only [filesOf, damaged, get?_set_of_ne _ _ hne]

theorem filesOf_damaged_own :
    filesOf (damaged disk id content) id = { filesOf disk id with primary := some content } := by
  simp only [filesOf, damaged, get?_set_self]

theorem startRecord_damaged_other (hne : other ≠ id) :
    startRecord (damaged disk id content) other = startRecord disk other := by
  unfold startRecord OrderedMap.has
  rw [filesOf_damaged_other hne]
  simp only [damaged, get?_set_of_ne _ _ hne]

theorem startRecord_damaged_own : startRecord (damaged disk id content) id =
      loadedRecord id { filesOf disk id with primary := some content } := by
  unfold startRecord OrderedMap.has
  rw [filesOf_damaged_own]
  simp only [damaged, get?_set_self, isSome_some, if_true]

section Own
variable {files : ThreadFiles} {backup : StoredThreadRecordV1} (bad : Unreadable id content)
include bad

/-- With an unreadable backup nothing is loaded. -/
theorem loadedThread_lost {error : StoreError} (unread : readRecord id files.backup = .error error) :
    loadedThread id { files with primary := some content } = none := by
  obtain ⟨error', bad⟩ := bad
  simp only [loadedThread, recoveredThread, bad, unread, map_none]

variable (read : readRecord id files.backup = .ok backup)
include read

theorem loadedThread_discarded
    (discarded : discardable backup = true) :
    loadedThread id { files with primary := some content } = some (none, noFiles) := by
  obtain ⟨error', bad⟩ := bad
  simp only [loadedThread, recoveredThread, bad, read, map_some, admittedThread, discarded, if_true, noFiles]

theorem loadedThread_restored
    (kept : discardable backup = false) :
    ∃ files', loadedThread id { files with primary := some content } =
        some (some (joinedRecord id backup files), files') ∧
      files'.primary = some (.json (withoutThreadMetadata backup)) := by
  obtain ⟨error', bad⟩ := bad
  have sameMetadata : storedMetadata id (published backup false { files with primary := some content }) =
      storedMetadata id files := rfl
  simp only [loadedThread, recoveredThread, bad, read, map_some, admittedThread, kept,
    Bool.false_eq_true, if_false, sameMetadata, joinedRecord]
  cases storedMetadata id files with
  | some metadata => exact ⟨_, rfl, rfl⟩
  | none =>
    simp only
    split
    · exact ⟨_, rfl, rfl⟩
    · exact ⟨_, rfl, rfl⟩

end Own

theorem joinedRecord_core (id : HostThreadId) (backup : StoredThreadRecordV1) (files : ThreadFiles) :
    (joinedRecord id backup files).toStoredThreadCoreV1 = backup.toStoredThreadCoreV1 := by
  unfold joinedRecord
  cases storedMetadata id files <;> rfl

variable (sound : StoreSound w)
include sound

/-- A record that another Thread starts with has the identities it has in memory. -/
theorem StoreSound.other_core
    {q : StoredThreadRecordV1} (starts : startRecord w.disk other = some q) :
    ∃ r, w.store.records.get? other = some r ∧ discardable r = false ∧
      q.toStoredThreadCoreV1 = r.toStoredThreadCoreV1 := by
  obtain ⟨r, stored, same⟩ := sound.mirrored.starts_core sound.consistent starts
  refine ⟨r, stored, ?_, same⟩
  obtain ⟨inline, sidecar, mirror⟩ := sound.mirrored.present other r stored
  rw [sound.mirrored.starts sound.consistent stored mirror] at starts
  split at starts
  · cases starts
  · next kept => exact Bool.eq_false_iff.mpr kept

theorem StoreSound.other_starts
    {r : StoredThreadRecordV1} (stored : w.store.records.get? other = some r)
    (kept : discardable r = false) :
    ∃ q, startRecord w.disk other = some q ∧ q.toStoredThreadCoreV1 = r.toStoredThreadCoreV1 := by
  obtain ⟨inline, sidecar, mirror⟩ := sound.mirrored.present other r stored
  rw [sound.mirrored.starts sound.consistent stored mirror, kept]
  exact ⟨_, rfl, rfl⟩

/-- What the damaged files start is separate exactly when a backup that is restored shares
no identity with a kept record. -/
theorem StoreSound.damaged_separate (bad : Unreadable id content) :
    StartsSeparate (damaged w.disk id content) ↔
      ∀ backup, readRecord id (w.disk.backups.get? id) = .ok backup →
        discardable backup = false → ∀ other r, other ≠ id →
        w.store.records.get? other = some r → discardable r = false →
        SeparateIdentities backup r := by
  have whole := sound.mirrored.startsSeparate sound.consistent
  constructor
  · intro separate backup read kept other r hne stored keptOther
    have damaged_starts : ∀ {other}, other ≠ id →
        startRecord (damaged w.disk id content) other = startRecord w.disk other :=
      startRecord_damaged_other
    have stored' : readRecord id (filesOf w.disk id).backup = .ok backup := read
    obtain ⟨files', restored, -⟩ := loadedThread_restored bad stored' kept
    have own : startRecord (damaged w.disk id content) id =
        some (joinedRecord id backup (filesOf w.disk id)) := by
      rw [startRecord_damaged_own]
      simp only [loadedRecord, restored, bind_some]
    obtain ⟨q, starts, core⟩ := sound.other_starts stored keptOther
    rw [← damaged_starts hne] at starts
    have apart := separate.threads id other _ q own starts hne.symm
    have same := joinedRecord_core id backup (filesOf w.disk id)
    exact (separate_congr same.symm (separate_congr core.symm apart).symm).symm
  · intro harmless
    -- Of the damaged Thread at most the backup's record starts.
    have own : ∀ q, startRecord (damaged w.disk id content) id = some q →
        ∀ other r, other ≠ id → startRecord w.disk other = some r → SeparateIdentities q r := by
      intro q starts other r' hne starts'
      rw [startRecord_damaged_own] at starts
      obtain ⟨r, stored, keptOther, core⟩ := sound.other_core starts'
      cases read : readRecord id (filesOf w.disk id).backup with
      | error error =>
        simp only [loadedRecord, loadedThread_lost bad read, bind_none] at starts
        cases starts
      | ok backup =>
        cases kept : discardable backup with
        | true =>
          simp only [loadedRecord, loadedThread_discarded bad read kept, bind_some] at starts
          cases starts
        | false =>
          obtain ⟨files', restored, -⟩ := loadedThread_restored bad read kept
          simp only [loadedRecord, restored, bind_some, some.injEq] at starts
          have apart := harmless backup read kept other r hne stored keptOther
          have same := joinedRecord_core id backup (filesOf w.disk id)
          rw [starts] at same
          exact (separate_congr same (separate_congr core apart).symm).symm
    constructor
    · intro a b q q' starts starts' hne
      by_cases ha : a = id
      · subst ha
        rw [startRecord_damaged_other hne.symm] at starts'
        exact own q starts b q' hne.symm starts'
      · rw [startRecord_damaged_other ha] at starts
        by_cases hb : b = id
        · subst hb
          exact (own q' starts' a q ha starts).symm
        · rw [startRecord_damaged_other hb] at starts'
          exact whole.threads a b q q' starts starts' hne
    · exact whole.delegations

/-- Over separate files every other Thread starts as in memory exactly when none is stale. -/
theorem StoreSound.others_start_iff (id : HostThreadId) :
    (∀ other, other ≠ id → startRecord w.disk other =
      (w.store.records.get? other).filter fun r => !discardable r) ↔ OthersFresh w id := by
  constructor
  · intro loads other r hne stored kept stale
    obtain ⟨inline, sidecar, mirror⟩ := sound.mirrored.present other r stored
    have starts := loads other hne
    rw [sound.mirrored.starts sound.consistent stored mirror, stored, filter_some, kept] at starts
    have same : restored r inline sidecar = r := by simpa using starts
    obtain ⟨cleared, carried⟩ := (mirror.stale_iff stored).mp stale
    have nothing : sidecar.or inline = none := (congrArg (·.usageMeasurements) same).trans cleared
    exact carried (or_eq_none_iff.mp nothing).2
  · intro fresh other hne
    cases stored : w.store.records.get? other with
    | none => exact sound.mirrored.starts_none stored
    | some r =>
      obtain ⟨inline, sidecar, mirror⟩ := sound.mirrored.present other r stored
      rw [sound.mirrored.starts sound.consistent stored mirror, filter_some]
      cases discarded : discardable r with
      | true => rfl
      | false =>
        have current := fresh other r hne stored discarded
        rw [mirror.stale_iff stored] at current
        simp [restored_eq_of_fresh mirror.usage current]

/-- What a start makes of the damaged Thread, when it returns: discarded only as its backup. -/
theorem StoreSound.damaged_own_iff (clear : NothingSetAside w.disk)
    (bad : Unreadable id content) {now : Timestamp} {after : StoreWorld}
    (started : Started now (damaged w.disk id content) after) :
    (RestoredFromBackup id w.disk after ∨ Quarantined now id content after) ↔
      ∀ backup, readRecord id (w.disk.backups.get? id) = .ok backup → discardable backup = false := by
  have sides : SideFilesReadable (damaged w.disk id content) :=
    ⟨clear.sectionPlacements, clear.supersededSessions⟩
  have present : (damaged w.disk id content).threads.get? id = some content :=
    get?_set_self _ _ _
  have listed : (damaged w.disk id content).threads.has id = true :=
    (has_iff _ _).mpr ⟨content, present⟩
  have loads := started.records id
  rw [startRecord_damaged_own] at loads
  constructor
  · intro outcome backup read
    by_contra discarded
    rw [Bool.not_eq_false] at discarded
    have stored : readRecord id (filesOf w.disk id).backup = .ok backup := read
    have gone := loadedThread_discarded bad stored discarded
    rw [loadedRecord, gone, bind_some] at loads
    rcases outcome with ⟨_, _, restored, -⟩ | ⟨-, archive, -⟩
    · rw [loads] at restored
      cases restored
    · -- Every file was read, so nothing can stand in the quarantine.
      have readable : ∀ other, (damaged w.disk id content).threads.has other = true →
          (loadedThread other (filesOf (damaged w.disk id content) other)).isSome := by
        intro other has
        by_cases same : other = id
        · subst same
          rw [filesOf_damaged_own, gone]
          rfl
        · rw [filesOf_damaged_other same]
          apply sound.mirrored.loads sound.consistent
          simpa only [OrderedMap.has, damaged, get?_set_of_ne _ _ same] using has
      rw [started.quiet sides readable _ (.inl rfl)] at archive
      rw [show (damaged w.disk id content).quarantine = w.disk.quarantine from rfl,
        clear.archives _ (.inl rfl)] at archive
      cases archive
  · intro kept
    cases read : readRecord id (filesOf w.disk id).backup with
    | error error =>
      right
      have lost := loadedThread_lost bad read
      rw [loadedRecord, lost, bind_none] at loads
      refine ⟨loads, ?_⟩
      apply started.archived sides id _ ⟨clear.archives _ (.inl rfl), clear.archives _ (.inr rfl)⟩
        content present
      rw [filesOf_damaged_own]
      exact lost
    | ok backup =>
      left
      obtain ⟨files', restored, primary⟩ := loadedThread_restored bad read (kept backup read)
      rw [loadedRecord, restored, bind_some] at loads
      refine ⟨backup, read, loads, ?_⟩
      rw [← filesOf_damaged_own] at restored
      rcases started.loadedFiles id listed _ _ restored with same | ⟨none, -⟩
      · exact (congrArg (·.primary) same).trans primary
      · cases none

end Damage

def sessionTwo : NativeSessionRef := ⟨"codex", "s2", none⟩

def secondTurn : Turn where
  now := 0
  fault := none
  operation := .createProvisional
    { hostThreadId := "b", createRequestId := "request-b", harnessId := "codex"
      importSourceRef := none, cwd := "/work", title := none, transportModelId := "model"
      ephemeral := false, historyMode := .paginated, projectlessWorkspace := none
      forkSource := none, subagent := none }

/-- The first Thread moves from one Session to another, and the second takes the first
Session over: the backup of the first still names it. -/
def takeoverEvents : List StoreEvent :=
  [.queued firstTurn, calmTurn (.commitReady ⟨"a", sessionOne, some [turnOne]⟩),
    calmTurn (.replaceReadySessionAfterLastTurn ⟨"a", 2, sessionOne, sessionTwo, []⟩),
    .queued secondTurn,
    calmTurn (.commitReady ⟨"b", sessionOne, none⟩)]

def takeoverWorld : StoreWorld :=
  takeoverEvents.foldl (fun w event => event.happen (fun _ => none) w) (newStore creationOrder 0)

end CodexHost.Guarantees
