import CodexHost.Source.MappingStore.Initialize

/-!
# What the file commands do to the files of one Thread

One specification for each command of `Files.lean`, in terms of the three files a Thread
has: its record, its backup and its metadata. A command touches the files of one Thread
(`OnlyFilesOf`), and a command that a fault stops leaves the record and the metadata it
had not yet replaced. Each rule hands on the weakest precondition, so a longer command is
verified by applying the rules of its steps in order.
-/
namespace CodexHost.Guarantees
open Foundation Source.SharedContracts Source.MappingStore OrderedMap Command Option

structure ThreadFiles where
  primary : Option (FileContent StoredThreadRecordV1)
  backup : Option (FileContent StoredThreadRecordV1)
  metadata : Option (FileContent StoredThreadMetadataV1)
  deriving DecidableEq

def filesOf (disk : Disk) (id : HostThreadId) : ThreadFiles :=
  ⟨disk.threads.get? id, disk.backups.get? id, disk.metadata.get? id⟩

/-- Only the files of this Thread, and its own archives, may differ between the two disks. -/
structure OnlyFilesOf (id : HostThreadId) (disk disk' : Disk) : Prop where
  others : ∀ other, other ≠ id → filesOf disk' other = filesOf disk other
  archives : ∀ name, name.stem ≠ id → disk'.quarantine.get? name = disk.quarantine.get? name
  delegations : disk'.delegations = disk.delegations
  sectionPlacements : disk'.sectionPlacements = disk.sectionPlacements
  supersededSessions : disk'.supersededSessions = disk.supersededSessions

theorem OnlyFilesOf.refl (id : HostThreadId) (disk : Disk) : OnlyFilesOf id disk disk :=
  ⟨fun _ _ => rfl, fun _ _ => rfl, rfl, rfl, rfl⟩

theorem OnlyFilesOf.trans {id : HostThreadId} {disk disk' disk'' : Disk}
    (first : OnlyFilesOf id disk disk') (second : OnlyFilesOf id disk' disk'') :
    OnlyFilesOf id disk disk'' where
  others other hne := (second.others other hne).trans (first.others other hne)
  archives name hne := (second.archives name hne).trans (first.archives name hne)
  delegations := second.delegations.trans first.delegations
  sectionPlacements := second.sectionPlacements.trans first.sectionPlacements
  supersededSessions := second.supersededSessions.trans first.supersededSessions

/-- Only the files of one Thread changed, to the given ones; at most its metadata went to
the quarantine. -/
structure FileChange (id : HostThreadId) (w w' : StoreWorld) (files : ThreadFiles) : Prop where
  store : w'.store = w.store
  only : OnlyFilesOf id w.disk w'.disk
  files : filesOf w'.disk id = files
  archives : ∀ name, name.kind ≠ .invalidMetadata → w'.disk.quarantine.get? name = w.disk.quarantine.get? name

theorem FileChange.refl (id : HostThreadId) (w : StoreWorld) : FileChange id w w (filesOf w.disk id) :=
  ⟨rfl, OnlyFilesOf.refl _ _, rfl, fun _ _ => rfl⟩

theorem FileChange.trans {id : HostThreadId} {w w' w'' : StoreWorld} {files files' : ThreadFiles}
    (first : FileChange id w w' files) (second : FileChange id w' w'' files') :
    FileChange id w w'' files' where
  store := second.store.trans first.store
  only := first.only.trans second.only
  files := second.files
  archives name hne := (second.archives name hne).trans (first.archives name hne)

section
variable (w : StoreWorld)
include w

variable (id : HostThreadId)
include id

theorem setThread_change (content : FileContent StoredThreadRecordV1) :
    FileChange id w { w with disk := { w.disk with threads := w.disk.threads.set id content } }
      { filesOf w.disk id with primary := some content } where
  store := rfl
  only := ⟨fun other hne => by simp only [filesOf, get?_set_of_ne _ _ hne], fun _ _ => rfl, rfl, rfl, rfl⟩
  files := by simp only [filesOf, get?_set_self]
  archives _ _ := rfl

theorem setBackup_change (content : FileContent StoredThreadRecordV1) :
    FileChange id w { w with disk := { w.disk with backups := w.disk.backups.set id content } }
      { filesOf w.disk id with backup := some content } where
  store := rfl
  only := ⟨fun other hne => by simp only [filesOf, get?_set_of_ne _ _ hne], fun _ _ => rfl, rfl, rfl, rfl⟩
  files := by simp only [filesOf, get?_set_self]
  archives _ _ := rfl

theorem setMetadata_change
    (content : FileContent StoredThreadMetadataV1) :
    FileChange id w { w with disk := { w.disk with metadata := w.disk.metadata.set id content } }
      { filesOf w.disk id with metadata := some content } where
  store := rfl
  only := ⟨fun other hne => by simp only [filesOf, get?_set_of_ne _ _ hne], fun _ _ => rfl, rfl, rfl, rfl⟩
  files := by simp only [filesOf, get?_set_self]
  archives _ _ := rfl

theorem deleteThread_change : FileChange id w
      { w with disk := { w.disk with threads := w.disk.threads.delete id } }
      { filesOf w.disk id with primary := none } where
  store := rfl
  only := ⟨fun other hne => by simp only [filesOf, get?_delete_of_ne _ hne], fun _ _ => rfl, rfl, rfl, rfl⟩
  files := by simp only [filesOf, get?_delete_self]
  archives _ _ := rfl

theorem deleteBackup_change : FileChange id w
      { w with disk := { w.disk with backups := w.disk.backups.delete id } }
      { filesOf w.disk id with backup := none } where
  store := rfl
  only := ⟨fun other hne => by simp only [filesOf, get?_delete_of_ne _ hne], fun _ _ => rfl, rfl, rfl, rfl⟩
  files := by simp only [filesOf, get?_delete_self]
  archives _ _ := rfl

theorem deleteMetadata_change : FileChange id w
      { w with disk := { w.disk with metadata := w.disk.metadata.delete id } }
      { filesOf w.disk id with metadata := none } where
  store := rfl
  only := ⟨fun other hne => by simp only [filesOf, get?_delete_of_ne _ hne], fun _ _ => rfl, rfl, rfl, rfl⟩
  files := by simp only [filesOf, get?_delete_self]
  archives _ _ := rfl

end

section Rules
variable {Q : Unit → World → Prop} {E : StoreError → World → Prop} {w : World}

theorem wp_fileStep {effect : Disk → Disk} (returned : ∀ fuse, (fuse = none ↔ w.fuse = none) →
      Q () ⟨fuse, { w.state with disk := effect w.state.disk }⟩)
    (failed : w.fuse ≠ none → E .system ⟨none, w.state⟩) :
    (fileStep effect).wp Q E w :=
  wp_ioStep returned fun armed _ => failed armed

@[simp] theorem wp_readDisk {Q : Disk → World → Prop} : readDisk.wp Q E w ↔ Q w.state.disk w := Iff.rfl

@[simp] theorem wp_readStore {Q : StoreState → World → Prop} :
    readStore.wp Q E w ↔ Q w.state.store w := Iff.rfl

@[simp] theorem wp_modifyStore (f : StoreState → StoreState) :
    (modifyStore f).wp Q E w ↔ Q () ⟨w.fuse, { w.state with store := f w.state.store }⟩ := Iff.rfl

/-- Four steps that change no named file. -/
theorem wp_writeTemporaryFile (returned : ∀ fuse, (fuse = none ↔ w.fuse = none) → Q () ⟨fuse, w.state⟩)
    (failed : w.fuse ≠ none → E .system ⟨none, w.state⟩) :
    writeTemporaryFile.wp Q E w := by
  unfold writeTemporaryFile
  simp only [wp_bind]
  refine wp_fileStep ?_ failed
  intro fuse₁ burnt₁
  refine wp_fileStep ?_ fun armed => failed (burnt₁.not.mp armed)
  intro fuse₂ burnt₂
  replace burnt₂ := burnt₂.trans burnt₁
  refine wp_fileStep ?_ fun armed => failed (burnt₂.not.mp armed)
  intro fuse₃ burnt₃
  replace burnt₃ := burnt₃.trans burnt₂
  refine wp_fileStep ?_ fun armed => failed (burnt₃.not.mp armed)
  intro fuse₄ burnt₄
  exact returned fuse₄ (burnt₄.trans burnt₃)

/-- The backup after `backUp`. -/
def backedUp (files : ThreadFiles) : Option (FileContent StoredThreadRecordV1) :=
  files.primary.or files.backup

variable {id : HostThreadId}

theorem wp_backUp (returned : ∀ w', (w'.fuse = none ↔ w.fuse = none) → FileChange id w.state w'.state
        { filesOf w.state.disk id with backup := backedUp (filesOf w.state.disk id) } → Q () w')
    (failed : ∀ w' backup, w.fuse ≠ none → w'.fuse = none →
      FileChange id w.state w'.state { filesOf w.state.disk id with backup } → E .system w') :
    (backUp id id).wp Q E w := by
  unfold backUp
  simp only [wp_bind]
  refine wp_fileStep ?_ fun armed => failed _ _ armed rfl (FileChange.refl id w.state)
  intro fuse burnt
  simp only [wp_readDisk, id_eq]
  cases present : w.state.disk.threads.get? id with
  | none =>
    simp only [OrderedMap.has, present, isSome_none, Bool.false_eq_true, if_false, wp_pure]
    apply returned _ burnt
    have same := FileChange.refl id w.state
    simpa only [filesOf, backedUp, present, none_or] using same
  | some content =>
    simp only [OrderedMap.has, present, isSome_some, if_true]
    unfold copyToBackup
    apply wp_ioStep
    · intro fuse' burnt'
      apply returned _ (burnt'.trans burnt)
      have copied := setBackup_change w.state id content
      simpa only [filesOf, backedUp, present, some_or] using copied
    · intro armed residue
      have armed := burnt.not.mp armed
      cases residue with
      | none => exact failed _ _ armed rfl (FileChange.refl id w.state)
      | some left => exact failed _ _ armed rfl (setBackup_change w.state id left)

/-- The Thread's files after its record was replaced. -/
def published (record : StoredThreadRecordV1) (preserveBackup : Bool) (files : ThreadFiles) :
    ThreadFiles where
  primary := some (.json (withoutThreadMetadata record))
  backup := if preserveBackup then backedUp files else files.backup
  metadata := files.metadata

/-- An atomic replacement publishes the record or leaves the file as it was; at most the
backup of the Thread changes when it fails. -/
theorem wp_replaceFile {record : StoredThreadRecordV1} {target : HostThreadId}
    (keyed : record.hostThreadId = target) {preserveBackup : Bool}
    (returned : ∀ w', (w'.fuse = none ↔ w.fuse = none) →
      FileChange target w.state w'.state (published record preserveBackup (filesOf w.state.disk target)) →
      Q () w')
    (failed : ∀ w' error backup, w.fuse ≠ none → w'.fuse = none →
      (preserveBackup = false → backup = (filesOf w.state.disk target).backup) →
      FileChange target w.state w'.state { filesOf w.state.disk target with backup } → E error w') :
    (replaceFile target record preserveBackup).wp Q E w := by
  have unchanged : ∀ error, w.fuse ≠ none → E error ⟨none, w.state⟩ := by
    intro error armed
    exact failed _ _ _ armed rfl (fun _ => rfl) (FileChange.refl target w.state)
  unfold replaceFile
  simp only [wp_tryCatch, wp_bind, wp_throw, keyed]
  refine wp_fileStep ?_ (unchanged _)
  intro fuse₁ burnt₁
  refine wp_writeTemporaryFile ?_ fun armed => unchanged _ (burnt₁.not.mp armed)
  intro fuse₂ burnt₂
  replace burnt₂ := burnt₂.trans burnt₁
  cases preserveBackup with
  | false =>
    simp only [Bool.false_eq_true, if_false]
    refine wp_fileStep ?_ fun armed => unchanged _ (burnt₂.not.mp armed)
    intro fuse burnt
    exact returned _ (burnt.trans burnt₂)
      (setThread_change w.state target (.json (withoutThreadMetadata record)))
  | true =>
    simp only [if_true, wp_bind]
    apply wp_backUp
    · intro w₃ burnt₃ copied
      replace burnt₃ := burnt₃.trans burnt₂
      apply wp_fileStep
      · intro fuse burnt
        have renamed := setThread_change w₃.state target (.json (withoutThreadMetadata record))
        rw [copied.files] at renamed
        exact returned _ (burnt.trans burnt₃) (copied.trans renamed)
      · intro armed
        exact failed _ _ _ (burnt₃.not.mp armed) rfl (by simp) copied
    · intro w₃ backup armed burnt₃ copied
      exact failed _ _ _ (burnt₂.not.mp armed) burnt₃ (by simp) copied

/-- There is no metadata file, or it parses. -/
def MetadataReadable (id : HostThreadId) (files : ThreadFiles) : Prop :=
  ∀ content, files.metadata = some content → (parseMetadata id content).isSome

def storedMetadata (id : HostThreadId) (files : ThreadFiles) : Option StoredThreadMetadataV1 :=
  files.metadata.bind (parseMetadata id)

/-- Metadata that does not parse is moved away when that succeeds; the answer is what
parsed before. -/
theorem wp_readMetadata {now : Timestamp} {Q : Option StoredThreadMetadataV1 → World → Prop}
    (returned : ∀ w' metadata, (w.fuse = none → w'.fuse = none) →
      (MetadataReadable id (filesOf w.state.disk id) →
        (w'.fuse = none ↔ w.fuse = none) ∧ metadata = (filesOf w.state.disk id).metadata) →
      (¬ MetadataReadable id (filesOf w.state.disk id) → w.fuse = none → metadata = none) →
      FileChange id w.state w'.state { filesOf w.state.disk id with metadata } →
      Q (storedMetadata id (filesOf w.state.disk id)) w')
    (failed : w.fuse ≠ none → E .system ⟨none, w.state⟩) :
    (readMetadata now id).wp Q E w := by
  unfold readMetadata
  simp only [wp_bind]
  refine wp_fileStep ?_ failed
  intro fuse burnt
  simp only [wp_readDisk, id_eq]
  have same := FileChange.refl id w.state
  cases present : w.state.disk.metadata.get? id with
  | none =>
    have stored : storedMetadata id (filesOf w.state.disk id) = none := by
      simp [storedMetadata, filesOf, present]
    have readable : MetadataReadable id (filesOf w.state.disk id) := by
      simp [MetadataReadable, filesOf, present]
    rw [stored] at returned
    exact returned ⟨fuse, w.state⟩ _ burnt.mpr (fun _ => ⟨burnt, rfl⟩)
      (fun h => absurd readable h) same
  | some content =>
    cases parses : parseMetadata id content with
    | some parsed =>
      have stored : storedMetadata id (filesOf w.state.disk id) = some parsed := by
        simp [storedMetadata, filesOf, present, parses]
      have readable : MetadataReadable id (filesOf w.state.disk id) := by
        simp [MetadataReadable, filesOf, present, parses]
      rw [stored] at returned
      simp only [parses, wp_pure]
      exact returned ⟨fuse, w.state⟩ _ burnt.mpr (fun _ => ⟨burnt, rfl⟩)
        (fun h => absurd readable h) same
    | none =>
      have stored : storedMetadata id (filesOf w.state.disk id) = none := by
        simp [storedMetadata, filesOf, present, parses]
      have unreadable : ¬ MetadataReadable id (filesOf w.state.disk id) := by
        simp [MetadataReadable, filesOf, present, parses]
      rw [stored] at returned
      simp only [parses, wp_tryCatch, wp_bind, wp_pure]
      apply wp_fileStep
      · intro fuse' burnt'
        have removed := deleteMetadata_change w.state id
        exact returned ⟨fuse', _⟩ none (fun h => burnt'.mpr (burnt.mpr h))
          (fun h => absurd h unreadable) (fun _ _ => rfl)
          ⟨removed.store, ⟨removed.only.others, fun name hne => get?_set_of_ne _ _
            fun same => hne (congrArg (·.stem) same), rfl, rfl, rfl⟩, removed.files,
            fun name hne => get?_set_of_ne _ _ fun same => hne (congrArg (·.kind) same)⟩
      · intro armed
        exact returned ⟨none, w.state⟩ _ (fun _ => rfl) (fun h => absurd h unreadable)
          (fun _ unarmed => absurd (burnt.mpr unarmed) armed) same

/-- The metadata file after `writeMetadataFile`. -/
def writtenMetadata (id : HostThreadId) (metadata : Option StoredThreadMetadataV1)
    (files : ThreadFiles) : Option (FileContent StoredThreadMetadataV1) :=
  let retained := ((storedMetadata id files).map (·.unknown)).getD []
  if metadata = none ∧ retained = [] then none
  else some (.json ⟨(metadata.map (·.toStoredThreadMetadataFields)).getD noThreadMetadata, id, retained⟩)

theorem wp_writeMetadataFile {now : Timestamp} {metadata : Option StoredThreadMetadataV1}
    (returned : ∀ w', (w.fuse = none → w'.fuse = none) →
      (MetadataReadable id (filesOf w.state.disk id) → (w'.fuse = none ↔ w.fuse = none)) →
      FileChange id w.state w'.state { filesOf w.state.disk id with
          metadata := writtenMetadata id metadata (filesOf w.state.disk id) } → Q () w')
    (failed : ∀ w' error left, w.fuse ≠ none → w'.fuse = none →
      (MetadataReadable id (filesOf w.state.disk id) → left = (filesOf w.state.disk id).metadata) →
      FileChange id w.state w'.state { filesOf w.state.disk id with metadata := left } →
      E error w') :
    (writeMetadataFile now id metadata).wp Q E w := by
  unfold writeMetadataFile
  simp only [wp_tryCatch, wp_bind, wp_throw]
  apply wp_readMetadata
  · intro w₁ kept burnt₁ readable₁ _ read
    have armed₁ : ∀ fuse : Option (Nat × Residue), (fuse = none ↔ w₁.fuse = none) → fuse ≠ none → w.fuse ≠ none :=
      fun fuse h armed unarmed => armed (h.mpr (burnt₁ unarmed))
    have stops : ∀ fuse : Option (Nat × Residue), (fuse = none ↔ w₁.fuse = none) → fuse ≠ none →
        E (.mappingStore .ioError "Thread metadata atomic replacement failed") ⟨none, w₁.state⟩ :=
      fun fuse h armed => failed _ _ _ (armed₁ fuse h armed) rfl (fun h => (readable₁ h).2) read
    have ends : ∀ fuse : Option (Nat × Residue), (fuse = none ↔ w₁.fuse = none) →
        (w.fuse = none → fuse = none) ∧
        (MetadataReadable id (filesOf w.state.disk id) → (fuse = none ↔ w.fuse = none)) :=
      fun fuse h => ⟨fun unarmed => h.mpr (burnt₁ unarmed),
        fun readable => h.trans (readable₁ readable).1⟩
    split
    · next cleared =>
      apply wp_fileStep
      · intro fuse burnt
        have removed := deleteMetadata_change w₁.state id
        rw [read.files] at removed
        refine returned ⟨fuse, _⟩ (ends fuse burnt).1 (ends fuse burnt).2 ?_
        rw [writtenMetadata, if_pos cleared]
        exact read.trans removed
      · exact fun armed => stops w₁.fuse Iff.rfl armed
    · next carried =>
      simp only [wp_bind]
      refine wp_writeTemporaryFile ?_ (stops w₁.fuse Iff.rfl)
      intro fuse₂ burnt₂
      apply wp_fileStep
      · intro fuse burnt
        replace burnt := burnt.trans burnt₂
        refine returned ⟨fuse, _⟩ (ends fuse burnt).1 (ends fuse burnt).2 ?_
        rw [writtenMetadata, if_neg carried]
        have written := setMetadata_change w₁.state id
          (.json ⟨(metadata.map (·.toStoredThreadMetadataFields)).getD noThreadMetadata, id,
            ((storedMetadata id (filesOf w.state.disk id)).map (·.unknown)).getD []⟩)
        rw [read.files] at written
        exact read.trans written
      · exact fun armed => stops fuse₂ burnt₂ armed
  · intro armed
    exact failed _ _ _ armed rfl (fun _ => rfl) (FileChange.refl id w.state)

end Rules

end CodexHost.Guarantees
