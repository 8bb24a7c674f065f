import CodexHost.Guarantees.OperationEffects
import CodexHost.Source.MappingStore.Initialize

/-!
# What a start loads from the files

The Thread loop treats every Thread by itself: what it loads, and the files it leaves, are
functions of the three files of that Thread (`loadedThread`). Over any disk and with a
fault at any step the loaded records are parsed records, so a start that returns leaves a
consistent store; with no fault the records are exactly the loaded ones, and the start
returns exactly when these and the delegations are separate.
-/
namespace CodexHost.Guarantees
open Foundation Source.SharedContracts Source.MappingStore OrderedMap Command List Option StoredThreadMetadataFields

/-- The record of the Thread file or of its backup, and the files once it is restored. -/
def recoveredThread (name : HostThreadId) (files : ThreadFiles) :
    Option (StoredThreadRecordV1 × ThreadFiles) :=
  match readRecord name files.primary with
  | .ok record => some (record, files)
  | .error _ =>
    match readRecord name files.backup with
    | .ok record => some (record, published record false files)
    | .error _ => none

/-- A recovered record that is kept is joined with its metadata; inline metadata moves to
the metadata file. -/
def admittedThread (name : HostThreadId) (record : StoredThreadRecordV1) (files : ThreadFiles) :
    Option StoredThreadRecordV1 × ThreadFiles :=
  if discardable record then (none, ⟨none, none, none⟩)
  else match storedMetadata name files with
    | some metadata => (some (withThreadMetadata record metadata), files)
    | none =>
      let files := { files with metadata := none }
      if (threadMetadataOf record).isSome then
        (some record, published record false
          { files with metadata := writtenMetadata name (threadMetadataOf record) files })
      else (some record, files)

/-- What a start makes of the files of a listed Thread; none when it is unreadable. -/
def loadedThread (name : HostThreadId) (files : ThreadFiles) :
    Option (Option StoredThreadRecordV1 × ThreadFiles) :=
  (recoveredThread name files).map fun recovered =>
    admittedThread name recovered.1 recovered.2

def loadedRecord (name : HostThreadId) (files : ThreadFiles) : Option StoredThreadRecordV1 :=
  (loadedThread name files).bind (·.1)

variable {record : StoredThreadRecordV1}

theorem readRecord_parsed {name : HostThreadId} {content : Option (FileContent StoredThreadRecordV1)}
    (read : readRecord name content = .ok record) : Parsed name record := by
  unfold readRecord at read
  split at read
  · cases read
  · cases read
  · split at read
    · cases read
    · next parsed passed =>
      split at read
      · next keyed =>
        cases read
        have own := parsed_of_schema passed
        exact ⟨keyed, own.accepted, own.measurements⟩
      · cases read

theorem parseMetadata_shape {name : HostThreadId} {content : FileContent StoredThreadMetadataV1}
    {metadata : StoredThreadMetadataV1} (read : parseMetadata name content = some metadata) :
    storedThreadMetadataFieldsShape metadata.toStoredThreadMetadataFields ∧
      metadata.usageMeasurements.all storedUsageMeasurementsSchema := by
  cases content with
  | text content => cases read
  | json value =>
    simp only [parseMetadata, filter_eq_some_iff, storedThreadMetadataV1Schema] at read
    obtain ⟨passed, -⟩ := read
    split at passed
    · next shape =>
      cases passed
      simp only [Bool.and_eq_true] at shape
      refine ⟨shape.2, ?_⟩
      cases usage : value.usageMeasurements with
      | none => simp [catchUsage, usage]
      | some usage => simp [catchUsage, usage]
    · cases passed

/-- Joining metadata to a parsed record gives a parsed record. -/
theorem withThreadMetadata_parsed {name : HostThreadId}
    {content : FileContent StoredThreadMetadataV1} {metadata : StoredThreadMetadataV1}
    (parsed : Parsed name record) (read : parseMetadata name content = some metadata) :
    Parsed name (withThreadMetadata record metadata) := by
  obtain ⟨shape, valid⟩ := parseMetadata_shape read
  have accepted := parsed.accepted
  have orAll : ∀ {α : Type} (p : α → Bool) (a b : Option α), a.all p → b.all p → (a <|> b).all p := by
    intro α p a b ha hb
    cases a with
    | none => exact hb
    | some _ => exact ha
  refine ⟨parsed.keyed, ?_, orAll _ _ _ valid parsed.measurements⟩
  simp only [StoredThreadRecordV1.accepted, Bool.and_eq_true, storedThreadMetadataFieldsShape]
    at accepted shape ⊢
  obtain ⟨⟨core, -⟩, refined⟩ := accepted
  obtain ⟨⟨⟨preview, projectId⟩, workspace⟩, gitInfo⟩ := shape
  exact ⟨⟨core, ⟨⟨orAll _ _ _ preview rfl, orAll _ _ _ projectId rfl⟩,
    orAll _ _ _ workspace rfl⟩, orAll _ _ _ gitInfo rfl⟩, refined⟩

/-- No archive of this Thread bears the time of the start. -/
def ArchiveFree (now : Timestamp) (id : HostThreadId) (disk : Disk) : Prop :=
  disk.quarantine.get? ⟨id, now, .invalid⟩ = none ∧ disk.quarantine.get? ⟨id, now, .metadataCopy⟩ = none

/-- The unreadable file of the Thread stands in the quarantine and no longer in its place. -/
def Archived (now : Timestamp) (id : HostThreadId) (content : FileContent StoredThreadRecordV1)
    (disk : Disk) : Prop :=
  disk.quarantine.get? ⟨id, now, .invalid⟩ = some (.thread content) ∧ disk.threads.get? id = none

section Rules
variable {w : World} {now : Timestamp} {name : HostThreadId}

/-- The last move of `quarantineThread`, if the file is there. -/
def threadQuarantined (now : Timestamp) (name : HostThreadId) (disk : Disk) : Disk :=
  match disk.threads.get? name with
  | none => disk
  | some content =>
    { disk with
      threads := disk.threads.delete name
      quarantine := disk.quarantine.set ⟨name, now, .invalid⟩ (.thread content) }

/-- A quarantine touches only the files of its Thread and never throws. -/
theorem wp_quarantineThread {Q : Bool → World → Prop} {E : StoreError → World → Prop}
    (returned : ∀ archived w', (w.fuse = none → w'.fuse = none) →
      w'.state.store = w.state.store → OnlyFilesOf name w.state.disk w'.state.disk →
      (w.fuse = none → ArchiveFree now name w.state.disk → ∀ content,
        (filesOf w.state.disk name).primary = some content →
        Archived now name content w'.state.disk) → Q archived w') :
    (quarantineThread now name).wp Q E w := by
  unfold quarantineThread
  simp only [wp_tryCatch, wp_bind, wp_pure]
  have same := OnlyFilesOf.refl name w.state.disk
  refine wp_fileStep ?_ fun armed =>
    returned _ ⟨none, w.state⟩ (fun _ => rfl) rfl same fun h => absurd h armed
  intro fuse₁ burnt₁
  simp only [wp_readDisk, id_eq]
  split
  · next taken =>
    refine returned _ ⟨fuse₁, w.state⟩ burnt₁.mpr rfl same fun _ free => ?_
    rw [OrderedMap.has, free.1] at taken
    cases taken
  · -- The rename, after the metadata was copied or found absent.
    have moved : ∀ (fuse : Option (Nat × Residue)) (copied : Disk),
        (w.fuse = none → fuse = none) → OnlyFilesOf name w.state.disk copied →
        (filesOf copied name).primary = (filesOf w.state.disk name).primary →
        Command.wp (fileStep (threadQuarantined now name))
          (fun _ w' => Q true w') (fun _ w' => Q false w')
          ⟨fuse, ⟨copied, w.state.store⟩⟩ := by
      intro fuse copied unarmed only primary
      apply wp_fileStep
      · intro fuse' burnt'
        unfold threadQuarantined
        cases present : copied.threads.get? name with
        | none =>
          refine returned true ⟨fuse', _⟩ (fun h => burnt'.mpr (unarmed h)) rfl ?_ ?_
          · exact only
          · intro _ _ content listed
            rw [← primary] at listed
            cases present.symm.trans listed
        | some content =>
          refine returned true ⟨fuse', _⟩ (fun h => burnt'.mpr (unarmed h)) rfl ?_ ?_
          · have erased := deleteThread_change ⟨copied, w.state.store⟩ name
            exact only.trans ⟨erased.only.others, fun archive hne =>
              get?_set_of_ne _ _ fun h => hne (congrArg (·.stem) h), rfl, rfl, rfl⟩
          · intro _ _ content' listed
            rw [← primary] at listed
            cases present.symm.trans listed
            exact ⟨get?_set_self _ _ _, get?_delete_self _ _⟩
      · intro armed
        exact returned _ _ (fun _ => rfl) rfl only fun h => absurd (unarmed h) armed
    have stopped : ∀ fuse : Option (Nat × Residue), (fuse = none ↔ w.fuse = none) → fuse ≠ none →
        Q false ⟨none, w.state⟩ := fun fuse burnt armed =>
      returned _ _ (fun _ => rfl) rfl same fun h => absurd (burnt.mpr h) armed
    cases present : w.state.disk.metadata.get? name with
    | none =>
      simp only [wp_bind, wp_pure]
      refine wp_fileStep ?_ (stopped fuse₁ burnt₁)
      intro fuse₂ burnt₂
      exact moved fuse₂ w.state.disk (fun h => burnt₂.mpr (burnt₁.mpr h)) same rfl
    | some content =>
      simp only
      split
      · next taken =>
        refine returned _ ⟨fuse₁, w.state⟩ burnt₁.mpr rfl same fun _ free => ?_
        rw [OrderedMap.has, free.2] at taken
        cases taken
      · simp only [wp_bind, wp_pure]
        refine wp_fileStep ?_ (stopped fuse₁ burnt₁)
        intro fuse₂ burnt₂
        exact moved fuse₂ _ (fun h => burnt₂.mpr (burnt₁.mpr h)) ⟨fun _ _ => rfl, fun archive hne =>
          get?_set_of_ne _ _ fun h => hne (congrArg (·.stem) h), rfl, rfl, rfl⟩ rfl

theorem wp_readPrimary {Q : StoredThreadRecordV1 → World → Prop} {E : StoreError → World → Prop}
    (returned : ∀ record fuse, readRecord name (filesOf w.state.disk name).primary = .ok record →
      (fuse = none ↔ w.fuse = none) → Q record ⟨fuse, w.state⟩)
    (failed : ∀ error fuse, (w.fuse = none → fuse = none ∧
      ∃ error, readRecord name (filesOf w.state.disk name).primary = .error error) →
      E error ⟨fuse, w.state⟩) :
    (readPrimary name).wp Q E w := by
  unfold readPrimary
  simp only [wp_bind, wp_readDisk, wp_lift]
  apply wp_fileStep
  · intro fuse burnt
    constructor
    · exact fun record read => returned record fuse read burnt
    · exact fun error read => failed error fuse fun h => ⟨burnt.mpr h, error, read⟩
  · exact fun armed => failed _ none fun h => absurd h armed

theorem wp_restoreBackup {Q : StoredThreadRecordV1 → World → Prop} {E : StoreError → World → Prop}
    (returned : ∀ record w', readRecord name (filesOf w.state.disk name).backup = .ok record →
      (w'.fuse = none ↔ w.fuse = none) →
      FileChange name w.state w'.state (published record false (filesOf w.state.disk name)) →
      Q record w')
    (failed : ∀ error w', w'.state.store = w.state.store →
      (w.fuse = none → w'.fuse = none ∧ w'.state = w.state ∧
        ∃ error, readRecord name (filesOf w.state.disk name).backup = .error error) →
      E error w') :
    (restoreBackup name).wp Q E w := by
  unfold restoreBackup
  simp only [wp_bind, wp_readDisk, wp_lift, wp_pure]
  apply wp_fileStep
  · intro fuse burnt
    constructor
    · intro record read
      apply wp_replaceFile (readRecord_parsed read).keyed
      · exact fun w' burnt' restored => returned record w' read (burnt'.trans burnt) restored
      · exact fun w' error backup armed _ _ left =>
          failed error w' left.store fun h => absurd (burnt.mpr h) armed
    · exact fun error read => failed error _ rfl fun h => ⟨burnt.mpr h, rfl, error, read⟩
  · exact fun armed => failed _ _ rfl fun h => absurd h armed

theorem wp_recoverThread {Q : Except Bool StoredThreadRecordV1 → World → Prop} {E : StoreError → World → Prop}
    (kept : ∀ record w', Parsed name record → w'.state.store = w.state.store →
      (w.fuse = none → w'.fuse = none ∧ ∃ files,
        recoveredThread name (filesOf w.state.disk name) = some (record, files) ∧
        FileChange name w.state w'.state files) → Q (.ok record) w')
    (lost : ∀ archived w', w'.state.store = w.state.store → (w.fuse = none → w'.fuse = none ∧
        recoveredThread name (filesOf w.state.disk name) = none ∧
        OnlyFilesOf name w.state.disk w'.state.disk ∧
        (ArchiveFree now name w.state.disk → ∀ content, (filesOf w.state.disk name).primary = some content →
          Archived now name content w'.state.disk)) → Q (.error archived) w') :
    (recoverThread now name).wp Q E w := by
  unfold recoverThread
  simp only [wp_tryCatch, wp_bind, wp_pure]
  apply wp_readPrimary
  · intro record fuse read burnt
    refine kept record _ (readRecord_parsed read) rfl fun h => ⟨burnt.mpr h, _, ?_, .refl name _⟩
    simp only [recoveredThread, read]
  · intro _ fuse₁ unread₁
    apply wp_restoreBackup
    · intro record w₂ read burnt restored
      refine kept record w₂ (readRecord_parsed read) restored.store fun h => ?_
      obtain ⟨burnt₁, error, unread⟩ := unread₁ h
      refine ⟨burnt.mpr burnt₁, _, ?_, restored⟩
      simp only [recoveredThread, unread, read]
    · intro _ w₂ store₂ unread₂
      apply wp_quarantineThread
      intro archived w₃ unarmed store₃ only moved
      refine lost archived w₃ (store₃.trans store₂) fun h => ?_
      obtain ⟨burnt₁, error, unread⟩ := unread₁ h
      obtain ⟨burnt₂, same, error', unread'⟩ := unread₂ burnt₁
      refine ⟨unarmed burnt₂, ?_, same ▸ only, same ▸ moved burnt₂⟩
      simp only [recoveredThread, unread, unread']

/-- Admitting a recovered record stores it, discards it, or fails. -/
theorem wp_admitThread {Q : Unit → World → Prop} {E : StoreError → World → Prop} (parsed : Parsed name record)
    (admitted : ∀ w' stored, (w.fuse = none → w'.fuse = none ∧ ∃ files,
        admittedThread name record (filesOf w.state.disk name) = (stored, files) ∧
        FileChange name w.state ⟨w'.state.disk, w.state.store⟩ files) →
      (∀ r, stored = some r → Parsed name r) →
      w'.state.store = { w.state.store with
        records := stored.elim w.state.store.records (w.state.store.records.set name) } →
      Q () w')
    (failed : ∀ error w', w.fuse ≠ none → E error w') :
    (admitThread now name record).wp Q E w := by
  unfold admitThread
  simp only [parsed.keyed]
  split
  · next discarded =>
    have first := deleteThread_change w.state name
    simp only [wp_bind]
    refine wp_fileStep ?_ fun armed => failed _ _ armed
    intro fuse₁ burnt₁
    refine wp_fileStep ?_ fun armed => failed _ _ (burnt₁.not.mp armed)
    intro fuse₂ burnt₂
    replace burnt₂ := burnt₂.trans burnt₁
    have second := deleteBackup_change
      { w.state with disk := { w.state.disk with threads := w.state.disk.threads.delete name } } name
    rw [first.files] at second
    replace second := first.trans second
    refine wp_fileStep ?_ fun armed => failed _ _ (burnt₂.not.mp armed)
    intro fuse₃ burnt₃
    have third := deleteMetadata_change { w.state with disk := { w.state.disk with
        threads := w.state.disk.threads.delete name
        backups := w.state.disk.backups.delete name } } name
    rw [second.files] at third
    replace third := second.trans third
    refine admitted _ none (fun h => ⟨burnt₃.mpr (burnt₂.mpr h), _, ?_, third⟩)
      (by simp) rfl
    simp only [admittedThread, discarded, if_true]
  · next keep =>
    simp only [wp_bind]
    apply wp_readMetadata
    · intro w₁ metadata unarmed₁ readable unreadable read
      -- Without a fault, what is left of a metadata file that does not parse is nothing.
      cases stored : storedMetadata name (filesOf w.state.disk name) with
      | some known =>
        have same : MetadataReadable name (filesOf w.state.disk name) := by
          intro content present
          simp only [storedMetadata, present, bind_some] at stored
          rw [stored]
          rfl
        refine admitted _ (some (withThreadMetadata record known)) ?_ ?_ ?_
        · intro h
          refine ⟨unarmed₁ h, _, ?_, rfl, read.only, read.files, read.archives⟩
          simp only [admittedThread, keep, stored, (readable same).2]
          rfl
        · intro r hr
          cases hr
          unfold storedMetadata at stored
          cases present : (filesOf w.state.disk name).metadata with
          | none => simp [present] at stored
          | some content =>
            rw [present] at stored
            exact withThreadMetadata_parsed parsed stored
        · simp only [read.store, elim_some]
          congr 2
          exact parsed.keyed
      | none =>
        have cleared : w.fuse = none → metadata = none := by
          intro h
          by_cases same : MetadataReadable name (filesOf w.state.disk name)
          · rw [(readable same).2]
            cases present : (filesOf w.state.disk name).metadata with
            | none => rfl
            | some content =>
              have parses := same content present
              simp only [storedMetadata, present, bind_some] at stored
              rw [stored] at parses
              cases parses
          · exact unreadable same h
        have admitPlain : ∀ w' : World, w'.state.store = w.state.store →
            (w.fuse = none → w'.fuse = none ∧ ∃ files,
              admittedThread name record (filesOf w.state.disk name) = (some record, files) ∧
              FileChange name w.state ⟨w'.state.disk, w.state.store⟩ files) →
            Q () ⟨w'.fuse, { w'.state with store := { w'.state.store with
              records := w'.state.store.records.set name record } }⟩ := by
          intro w' store exact₁
          refine admitted _ (some record) (fun h => ?_) ?_ (by rw [store]; rfl)
          · obtain ⟨burnt, files, shape, change⟩ := exact₁ h
            exact ⟨burnt, files, shape, change⟩
          · intro r hr
            cases hr
            exact parsed
        simp only
        split
        · next inline =>
          simp only [wp_bind, wp_modifyStore]
          apply wp_writeMetadataFile
          · intro w₂ unarmed₂ _ written
            have both := read.trans written
            rw [read.files] at both
            apply wp_replaceFile parsed.keyed
            · intro w₃ burnt₃ replaced
              have all := both.trans replaced
              rw [both.files] at all
              refine admitPlain w₃ all.store fun h => ?_
              refine ⟨burnt₃.mpr (unarmed₂ (unarmed₁ h)), _, ?_, rfl, all.only, all.files, all.archives⟩
              simp only [admittedThread, keep, stored, inline, cleared h, if_true]
              rfl
            · intro w₃ error backup armed _ _ _
              exact failed _ _ fun h => armed (unarmed₂ (unarmed₁ h))
          · intro w₂ error left armed _ _ _
            exact failed _ _ fun h => armed (unarmed₁ h)
        · next bare =>
          simp only [wp_modifyStore]
          refine admitPlain w₁ read.store fun h => ?_
          refine ⟨unarmed₁ h, _, ?_, rfl, read.only, read.files, read.archives⟩
          simp only [admittedThread, keep, stored, bare, cleared h]
          rfl
    · exact fun armed => failed _ _ armed

end Rules

/-- What the Thread loop did with the listed names when no step of it failed. -/
structure LoadedThreads (now : Timestamp) (names : List HostThreadId) (w w' : StoreWorld) : Prop where
  unlisted : ∀ id, id ∉ names → filesOf w'.disk id = filesOf w.disk id ∧
    w'.store.records.get? id = w.store.records.get? id
  archives : ∀ name, name.stem ∉ names → w'.disk.quarantine.get? name = w.disk.quarantine.get? name
  records : ∀ id, id ∈ names → w'.store.records.get? id = loadedRecord id (filesOf w.disk id)
  files : ∀ id, id ∈ names → ∀ record files,
    loadedThread id (filesOf w.disk id) = some (record, files) → filesOf w'.disk id = files
  delegations : w'.disk.delegations = w.disk.delegations
  sectionPlacements : w'.disk.sectionPlacements = w.disk.sectionPlacements
  supersededSessions : w'.disk.supersededSessions = w.disk.supersededSessions
  archived : ∀ id, id ∈ names → loadedThread id (filesOf w.disk id) = none →
    ArchiveFree now id w.disk → ∀ content, w.disk.threads.get? id = some content →
    Archived now id content w'.disk
  quiet : (∀ id, id ∈ names → (loadedThread id (filesOf w.disk id)).isSome) →
    ∀ name, name.kind ≠ .invalidMetadata → w'.disk.quarantine.get? name = w.disk.quarantine.get? name

/-- One Thread first, then the others: they do not touch each other's files. -/
theorem LoadedThreads.cons {now : Timestamp} {name : HostThreadId} {names : List HostThreadId}
    {w w₁ w' : StoreWorld} (fresh : name ∉ names)
    (only : OnlyFilesOf name w.disk w₁.disk)
    (files : ∀ record files, loadedThread name (filesOf w.disk name) = some (record, files) →
      filesOf w₁.disk name = files)
    (archived : loadedThread name (filesOf w.disk name) = none → ArchiveFree now name w.disk →
      ∀ content, w.disk.threads.get? name = some content → Archived now name content w₁.disk)
    (quiet : (loadedThread name (filesOf w.disk name)).isSome → ∀ name, name.kind ≠ .invalidMetadata →
      w₁.disk.quarantine.get? name = w.disk.quarantine.get? name)
    (others : ∀ id, id ≠ name → w₁.store.records.get? id = w.store.records.get? id)
    (own : w₁.store.records.get? name = loadedRecord name (filesOf w.disk name))
    (rest : LoadedThreads now names w₁ w') : LoadedThreads now (name :: names) w w' where
  unlisted id hid := by
    rw [mem_cons, not_or] at hid
    obtain ⟨sameFiles, sameRecord⟩ := rest.unlisted id hid.2
    exact ⟨sameFiles.trans (only.others id hid.1), sameRecord.trans (others id hid.1)⟩
  archives archive hid := by
    rw [mem_cons, not_or] at hid
    exact (rest.archives archive hid.2).trans (only.archives archive hid.1)
  records id hid := by
    by_cases same : id = name
    · rw [same, (rest.unlisted name fresh).2, own]
    · rw [rest.records id ((mem_cons.mp hid).resolve_left same), only.others id same]
  files id hid record' files' h := by
    by_cases same : id = name
    · subst same
      rw [(rest.unlisted id fresh).1]
      exact files record' files' h
    · rw [← only.others id same] at h
      exact rest.files id ((mem_cons.mp hid).resolve_left same) record' files' h
  delegations := rest.delegations.trans only.delegations
  sectionPlacements := rest.sectionPlacements.trans only.sectionPlacements
  supersededSessions := rest.supersededSessions.trans only.supersededSessions
  archived id hid unreadable free content listed := by
    by_cases same : id = name
    · subst same
      obtain ⟨archive, moved⟩ := archived unreadable free content listed
      refine ⟨(rest.archives _ fresh).trans archive, ?_⟩
      exact (congrArg (·.primary) (rest.unlisted id fresh).1).trans moved
    · have sameFiles := only.others id same
      rw [← sameFiles] at unreadable
      apply rest.archived id ((mem_cons.mp hid).resolve_left same) unreadable
      · exact ⟨(only.archives _ same).trans free.1, (only.archives _ same).trans free.2⟩
      · exact (congrArg (·.primary) sameFiles).trans listed
  quiet readable archive hne := by
    refine (rest.quiet ?_ archive hne).trans (quiet (readable name mem_cons_self) archive hne)
    intro id hid
    rw [only.others id fun h => fresh (h ▸ hid)]
    exact readable id (mem_cons_of_mem _ hid)

section Loops
variable {w : World} {now : Timestamp}

/-- The Thread loop, by induction on the listed names. -/
theorem wp_loadThreads {names : List HostThreadId} {Q : List HostThreadId → World → Prop}
    {E : StoreError → World → Prop} (nodup : names.Nodup)
    (parsed : ParsedRecords w.state.store.records)
    (empty : ∀ id ∈ names, w.state.store.records.get? id = none)
    (returned : ∀ pending w' records, (∀ id ∈ pending, id ∈ names) → ParsedRecords records →
      w'.state.store = { w.state.store with records } →
      (w.fuse = none → w'.fuse = none ∧ LoadedThreads now names w.state w'.state) → Q pending w')
    (failed : ∀ error w', w.fuse ≠ none → E error w') :
    (loadThreads now names).wp Q E w := by
  induction names generalizing w Q with
  | nil =>
    refine returned [] w _ (by simp) parsed rfl fun h => ⟨h, ?_⟩
    exact ⟨fun _ _ => ⟨rfl, rfl⟩, fun _ _ => rfl, by simp, by simp, rfl, rfl, rfl, by simp,
      fun _ _ _ => rfl⟩
  | cons name rest ih =>
    rw [nodup_cons] at nodup
    have emptyName := empty name mem_cons_self
    unfold loadThreads
    simp only [wp_bind]
    apply wp_recoverThread
    · intro record w₁ own store₁ exact₁
      simp only [wp_bind]
      apply wp_admitThread own
      · intro w₂ stored exact₂ storedParsed store₂
        rw [store₁] at store₂
        have kept : ∀ id, id ≠ name → w₂.state.store.records.get? id = w.state.store.records.get? id := by
          intro id hne
          rw [store₂]
          cases stored with
          | none => rfl
          | some r => exact get?_set_of_ne _ _ hne
        have placed : w₂.state.store.records.get? name = stored := by
          rw [store₂]
          cases stored with
          | none => exact emptyName
          | some r => exact get?_set_self _ _ _
        apply ih nodup.2
        · rw [store₂]
          cases stored with
          | none => exact parsed
          | some r => exact parsed.set (storedParsed r rfl)
        · intro id hid
          rw [kept id fun h => nodup.1 (h ▸ hid)]
          exact empty id (mem_cons_of_mem _ hid)
        · intro pending w₃ records listed parsed₃ store₃ exact₃
          apply returned pending w₃ records (fun id hid => mem_cons_of_mem _ (listed id hid)) parsed₃
          · rw [store₃, store₂]
          · intro h
            obtain ⟨burnt₁, files, recovered, change⟩ := exact₁ h
            obtain ⟨burnt₂, files', admitted, change'⟩ := exact₂ burnt₁
            obtain ⟨burnt₃, loaded⟩ := exact₃ burnt₂
            rw [change.files] at admitted
            have whole : loadedThread name (filesOf w.state.disk name) = some (stored, files') := by
              simp only [loadedThread, recovered, map_some, admitted]
            have only : OnlyFilesOf name w.state.disk w₂.state.disk :=
              change.only.trans change'.only
            refine ⟨burnt₃, loaded.cons nodup.1 only ?_ ?_ ?_ kept ?_⟩
            · intro record' files'' h'
              rw [whole, some.injEq, Prod.mk.injEq] at h'
              rw [← h'.2]
              exact change'.files
            · intro unreadable
              rw [whole] at unreadable
              cases unreadable
            · intro _ archive hne
              exact (change'.archives archive hne).trans (change.archives archive hne)
            · rw [placed]
              simp only [loadedRecord, whole, bind_some]
        · intro error w' armed
          exact failed error w' fun h => armed (exact₂ (exact₁ h).1).1
      · intro error w' armed
        exact failed error w' fun h => armed (exact₁ h).1
    · intro archived w₁ store₁ exact₁
      simp only [wp_bind]
      apply ih nodup.2
      · rw [store₁]
        exact parsed
      · intro id hid
        rw [store₁]
        exact empty id (mem_cons_of_mem _ hid)
      · intro pending w₂ records listed parsed₂ store₂ exact₂
        refine returned _ w₂ records ?_ parsed₂ (by rw [store₂, store₁]) ?_
        · intro id hid
          split at hid
          · exact mem_cons_of_mem _ (listed id hid)
          · rcases mem_cons.mp hid with rfl | hid
            · exact mem_cons_self
            · exact mem_cons_of_mem _ (listed id hid)
        · intro h
          obtain ⟨burnt₁, unreadable, only, moved⟩ := exact₁ h
          obtain ⟨burnt₂, loaded⟩ := exact₂ burnt₁
          have whole : loadedThread name (filesOf w.state.disk name) = none := by
            simp only [loadedThread, unreadable, map_none]
          refine ⟨burnt₂, loaded.cons nodup.1 only ?_ (fun _ => moved) ?_ ?_ ?_⟩
          · intro record files h'
            rw [whole] at h'
            cases h'
          · intro readable
            rw [whole] at readable
            cases readable
          · intro id _
            rw [store₁]
          · rw [store₁, emptyName]
            simp only [loadedRecord, whole, bind_none]
      · intro error w' armed
        exact failed error w' fun h => armed (exact₁ h).1

/-- Orphan cleanup deletes metadata of Threads that did not load, and throws never. -/
theorem wp_removeOrphanMetadata {pending names : List HostThreadId} {Q : Unit → World → Prop}
    {E : StoreError → World → Prop}
    (returned : ∀ w', (w.fuse = none → w'.fuse = none) → w'.state.store = w.state.store →
      w'.state.disk = { w.state.disk with metadata := w'.state.disk.metadata } →
      (∀ id, w.state.store.records.has id = true → filesOf w'.state.disk id = filesOf w.state.disk id) →
      (∀ id, filesOf w'.state.disk id = filesOf w.state.disk id ∨
        filesOf w'.state.disk id = { filesOf w.state.disk id with metadata := none }) →
      (w.fuse = none → ∀ id ∈ names, w.state.store.records.has id = false → id ∉ pending →
        (filesOf w'.state.disk id).metadata = none) → Q () w') :
    (removeOrphanMetadata pending names).wp Q E w := by
  induction names generalizing w with
  | nil => exact returned w (fun h => h) rfl rfl (fun _ _ => rfl) (fun _ => .inl rfl) (by simp)
  | cons name rest ih =>
    unfold removeOrphanMetadata
    simp only [wp_bind, wp_readStore]
    split
    · next orphan =>
      simp only [Bool.and_eq_true, Bool.not_eq_true', decide_eq_true_eq] at orphan
      simp only [wp_bind, wp_tryCatch, wp_pure]
      apply wp_fileStep
      · intro fuse burnt
        have erased := deleteMetadata_change w.state name
        have gone : ∀ id, filesOf { w.state.disk with
            metadata := w.state.disk.metadata.delete name } id = filesOf w.state.disk id ∨
            filesOf { w.state.disk with metadata := w.state.disk.metadata.delete name } id =
              { filesOf w.state.disk id with metadata := none } := by
          intro id
          by_cases same : id = name
          · exact .inr (same ▸ erased.files)
          · exact .inl (erased.only.others id same)
        apply ih
        intro w' unarmed store disk loaded others listed
        apply returned w' (fun h => unarmed (burnt.mpr h)) store disk
        · intro id has
          rw [loaded id has]
          apply erased.only.others id
          intro same
          rw [same, orphan.1] at has
          cases has
        · intro id
          rcases others id with h | h <;> rcases gone id with h' | h' <;> rw [h, h']
          · exact .inl rfl
          · exact .inr rfl
          · exact .inr rfl
          · exact .inr rfl
        · intro h id hid absent free
          rcases mem_cons.mp hid with rfl | hid
          · have deleted : (filesOf { w.state.disk with
                metadata := w.state.disk.metadata.delete id } id).metadata = none := by
              rw [erased.files]
            rcases others id with h' | h' <;> rw [h']
            exact deleted
          · exact listed (burnt.mpr h) id hid absent free
      · intro armed
        apply ih
        intro w' unarmed store disk loaded others listed
        exact returned w' (fun h => absurd h armed) store disk loaded others
          fun h => absurd h armed
    · next keep =>
      simp only [Bool.and_eq_true, Bool.not_eq_true', decide_eq_true_eq, not_and, Decidable.not_not] at keep
      apply ih
      intro w' unarmed store disk loaded others listed
      apply returned w' unarmed store disk loaded others
      intro h id hid absent free
      rcases mem_cons.mp hid with rfl | hid
      · exact absurd (keep absent) free
      · exact listed h id hid absent free

/-- What a start loads for a delegation. -/
def startDelegation (disk : Disk) (id : HostThreadId) : Option StoredDelegationRecordV1 :=
  match readDelegation id (disk.delegations.get? id) with
  | .ok record => some record
  | .error _ => none

theorem readDelegation_ok {name : HostThreadId}
    {content : Option (FileContent StoredDelegationRecordV1)} {record : StoredDelegationRecordV1}
    (read : readDelegation name content = .ok record) :
    content = some (.json record) ∧ record.delegationId = name ∧ storedDelegationRecordV1Schema record := by
  unfold readDelegation at read
  split at read
  · cases read
  · cases read
  · split at read
    · cases read
    · next passed =>
      split at read
      · cases read
      · next keyed =>
        cases read
        exact ⟨rfl, by simpa using keyed, by simpa using passed⟩

def delegationQuarantined (now : Timestamp) (name : HostThreadId) (disk : Disk) : Disk :=
  match disk.delegations.get? name with
  | none => disk
  | some content =>
    { disk with
      delegations := disk.delegations.delete name
      quarantine := disk.quarantine.set ⟨name, now, .invalidDelegation⟩ (.delegation content) }

theorem wp_loadDelegations {names : List HostThreadId} {Q : Unit → World → Prop}
    {E : StoreError → World → Prop} (nodup : names.Nodup)
    (empty : ∀ id ∈ names, w.state.store.delegations.get? id = none)
    (returned : ∀ w' delegations, w'.state.store = { w.state.store with delegations } →
      w'.state.disk = { w.state.disk with
        delegations := w'.state.disk.delegations, quarantine := w'.state.disk.quarantine } →
      (∀ name, name.kind ≠ .invalidDelegation →
        w'.state.disk.quarantine.get? name = w.state.disk.quarantine.get? name) →
      (w.fuse = none → w'.fuse = none ∧
        (∀ id, id ∉ names → delegations.get? id = w.state.store.delegations.get? id ∧
          w'.state.disk.delegations.get? id = w.state.disk.delegations.get? id) ∧
        (∀ id, id ∈ names → delegations.get? id = startDelegation w.state.disk id ∧
          w'.state.disk.delegations.get? id = (startDelegation w.state.disk id).map .json)) →
      Q () w') :
    (loadDelegations now names).wp Q E w := by
  induction names generalizing w with
  | nil =>
    exact returned w _ rfl rfl (fun _ _ => rfl) fun h =>
      ⟨h, fun _ _ => ⟨rfl, rfl⟩, by simp⟩
  | cons name rest ih =>
    rw [nodup_cons] at nodup
    -- The rest of the loop, from a world that has dealt with `name`.
    have continued : ∀ (w₁ : World) (delegations : OrderedMap HostThreadId _),
        w₁.state.store = { w.state.store with delegations } →
        w₁.state.disk = { w.state.disk with
          delegations := w₁.state.disk.delegations, quarantine := w₁.state.disk.quarantine } →
        (∀ archive, archive.kind ≠ .invalidDelegation →
          w₁.state.disk.quarantine.get? archive = w.state.disk.quarantine.get? archive) →
        (∀ id, id ≠ name → delegations.get? id = w.state.store.delegations.get? id) →
        (w.fuse = none → w₁.fuse = none ∧ (∀ id, id ≠ name →
            w₁.state.disk.delegations.get? id = w.state.disk.delegations.get? id) ∧
          delegations.get? name = startDelegation w.state.disk name ∧
          w₁.state.disk.delegations.get? name = (startDelegation w.state.disk name).map .json) →
        (loadDelegations now rest).wp Q E w₁ := by
      intro w₁ delegations store₁ only₁ archives₁ others exact₁
      apply ih nodup.2
      · intro id hid
        rw [store₁]
        rw [others id fun h => nodup.1 (h ▸ hid)]
        exact empty id (mem_cons_of_mem _ hid)
      · intro w₂ loaded store₂ only₂ archives₂ exact₂
        rw [only₁] at only₂
        refine returned w₂ loaded (by rw [store₂, store₁]) only₂
          (fun archive hne => (archives₂ archive hne).trans (archives₁ archive hne)) fun h => ?_
        obtain ⟨burnt₁, disk₁, own, ownFile⟩ := exact₁ h
        obtain ⟨burnt₂, unlisted, listed⟩ := exact₂ burnt₁
        rw [store₁] at unlisted
        refine ⟨burnt₂, ?_, ?_⟩
        · intro id hid
          rw [mem_cons, not_or] at hid
          obtain ⟨sameRecord, sameFile⟩ := unlisted id hid.2
          exact ⟨sameRecord.trans (others id hid.1), sameFile.trans (disk₁ id hid.1)⟩
        · intro id hid
          by_cases same : id = name
          · rw [same]
            obtain ⟨sameRecord, sameFile⟩ := unlisted name nodup.1
            exact ⟨sameRecord.trans own, sameFile.trans ownFile⟩
          · have unread : startDelegation w₁.state.disk id = startDelegation w.state.disk id := by
              unfold startDelegation
              rw [disk₁ id same]
            rw [← unread]
            exact listed id ((mem_cons.mp hid).resolve_left same)
    unfold loadDelegations
    simp only [wp_bind, wp_tryCatch, wp_pure, wp_lift, wp_readDisk]
    -- A delegation file that cannot be read is moved away, or stays when that fails.
    have quarantined : ∀ w₁ : World, w₁.state = w.state → (w.fuse = none → w₁.fuse = none ∧
          startDelegation w.state.disk name = none) →
        Command.wp (fileStep (delegationQuarantined now name))
          (fun _ w₂ => (loadDelegations now rest).wp Q E w₂)
          (fun _ w₂ => (loadDelegations now rest).wp Q E w₂) w₁ := by
      intro w₁ same unread
      have emptyName := empty name mem_cons_self
      apply wp_fileStep
      · intro fuse burnt
        rw [same]
        unfold delegationQuarantined
        cases present : w.state.disk.delegations.get? name with
        | none =>
          apply continued ⟨fuse, w.state⟩ _ rfl rfl (fun _ _ => rfl) (fun _ _ => rfl)
          intro h
          rw [(unread h).2]
          exact ⟨burnt.mpr (unread h).1, fun _ _ => rfl, emptyName, present⟩
        | some content =>
          refine continued ⟨fuse, _⟩ w.state.store.delegations rfl rfl
            (fun archive hne => get?_set_of_ne _ _ fun h => hne (congrArg (·.kind) h))
            (fun _ _ => rfl) ?_
          intro h
          rw [(unread h).2]
          exact ⟨burnt.mpr (unread h).1, fun id hne => get?_delete_of_ne _ hne,
            emptyName, get?_delete_self _ _⟩
      · intro armed
        rw [same]
        exact continued ⟨none, w.state⟩ _ rfl rfl (fun _ _ => rfl) (fun _ _ => rfl)
          fun h => absurd (unread h).1 armed
    apply wp_fileStep
    · intro fuse burnt
      constructor
      · intro record read
        obtain ⟨present, keyed, -⟩ := readDelegation_ok read
        simp only [wp_modifyStore, keyed]
        refine continued ⟨fuse, _⟩ (w.state.store.delegations.set name record) rfl rfl (fun _ _ => rfl)
          (fun id hne => get?_set_of_ne _ _ hne) ?_
        intro h
        have starts : startDelegation w.state.disk name = some record := by
          have read : readDelegation name (w.state.disk.delegations.get? name) = .ok record := read
          simp only [startDelegation, read]
        rw [starts]
        exact ⟨burnt.mpr h, fun _ _ => rfl, get?_set_self _ _ _, present⟩
      · intro error read
        refine quarantined _ rfl fun h => ⟨burnt.mpr h, ?_⟩
        have read : readDelegation name (w.state.disk.delegations.get? name) = .error error := read
        simp only [startDelegation, read]
    · exact fun armed => quarantined _ rfl fun h => absurd h armed

/-- There is no side file, or it parses. -/
def SideFileReadable {α : Type} (parse : List α → Option (List α))
    (file : Option (FileContent (List α))) : Prop :=
  ∀ content, file = some content → ∃ value, content = .json value ∧ (parse value).isSome

/-- A side file that parses is read and stays; another one may be moved away. -/
def sideFileArchived {α : Type} (file : Disk → Option (FileContent (List α)))
    (archive : FileContent (List α) → Disk → Disk) (disk : Disk) : Disk :=
  match file disk with
  | none => disk
  | some content => archive content disk

theorem wp_loadSideFile {α : Type} {parse : List α → Option (List α)}
    {file : Disk → Option (FileContent (List α))}
    {archive : FileContent (List α) → Disk → Disk} {Q : List α → World → Prop}
    {E : StoreError → World → Prop}
    (archives : ∀ content disk, (∀ id, filesOf (archive content disk) id = filesOf disk id) ∧
      (archive content disk).delegations = disk.delegations)
    (returned : ∀ values w', (w.fuse = none → w'.fuse = none) → w'.state.store = w.state.store →
      (∀ id, filesOf w'.state.disk id = filesOf w.state.disk id) →
      w'.state.disk.delegations = w.state.disk.delegations →
      (w.fuse = none → SideFileReadable parse (file w.state.disk) →
        w'.state.disk = w.state.disk) → Q values w') :
    (loadSideFile parse file archive).wp Q E w := by
  unfold loadSideFile
  simp only [wp_tryCatch, wp_bind, wp_pure, wp_readDisk]
  have fallback : ∀ w₁ : World, w₁.state = w.state → (w.fuse = none → w₁.fuse = none) →
      (w.fuse = none → SideFileReadable parse (file w.state.disk) → False) →
      Command.wp (fileStep (sideFileArchived file archive))
        (fun _ w' => Q [] w') (fun _ w' => Q [] w') w₁ := by
    intro w₁ same unarmed unreadable
    apply wp_fileStep
    · intro fuse burnt
      rw [same]
      unfold sideFileArchived
      cases file w.state.disk with
      | none =>
        exact returned [] ⟨fuse, w.state⟩ (fun h => burnt.mpr (unarmed h)) rfl (fun _ => rfl) rfl
          fun _ _ => rfl
      | some content =>
        obtain ⟨files, delegations⟩ := archives content w.state.disk
        exact returned [] ⟨fuse, _⟩ (fun h => burnt.mpr (unarmed h)) rfl files delegations
          fun h readable => (unreadable h readable).elim
    · intro _
      rw [same]
      exact returned [] ⟨none, w.state⟩ (fun _ => rfl) rfl (fun _ => rfl) rfl fun _ _ => rfl
  apply wp_fileStep
  · intro fuse burnt
    have read : ∀ values, Q values ⟨fuse, w.state⟩ := fun values =>
      returned values ⟨fuse, w.state⟩ burnt.mpr rfl (fun _ => rfl) rfl fun _ _ => rfl
    split
    · exact read _
    · next text present =>
      refine fallback _ rfl burnt.mpr fun _ readable => ?_
      obtain ⟨value, json, -⟩ := readable _ present
      cases json
    · next value present =>
      split
      · next rejected =>
        refine fallback _ rfl burnt.mpr fun _ readable => ?_
        obtain ⟨value', json, parses⟩ := readable _ present
        cases json
        rw [rejected] at parses
        cases parses
      · exact read _
  · exact fun armed => fallback _ rfl (fun _ => rfl) fun h => absurd h armed

end Loops

/-- What a start loads for a Thread ID: nothing unless its file is listed. -/
def startRecord (disk : Disk) (id : HostThreadId) : Option StoredThreadRecordV1 :=
  if disk.threads.has id then loadedRecord id (filesOf disk id) else none

/-- No two Threads and no two delegations that a start would load share an identity. -/
structure StartsSeparate (disk : Disk) : Prop where
  threads : ∀ id id' r r', startRecord disk id = some r → startRecord disk id' = some r' →
    id ≠ id' → SeparateIdentities r r'
  delegations : ∀ id id' d d', startDelegation disk id = some d →
    startDelegation disk id' = some d' → id ≠ id' → SeparateDelegations d d'

structure SideFilesReadable (disk : Disk) : Prop where
  sectionPlacements : SideFileReadable parseSectionPlacements disk.sectionPlacements
  supersededSessions : SideFileReadable parseSupersededSessions disk.supersededSessions

/-- The archive of an unreadable Thread file, or of the metadata beside it. -/
def ThreadArchive (name : QuarantineName) : Prop :=
  name.kind = .invalid ∨ name.kind = .metadataCopy

/-- The store and the files after a start without a fault. -/
structure Started (now : Timestamp) (disk : Disk) (w' : StoreWorld) : Prop where
  records : ∀ id, w'.store.records.get? id = startRecord disk id
  delegations : ∀ id, w'.store.delegations.get? id = startDelegation disk id
  loadedFiles : ∀ id, disk.threads.has id = true → ∀ record files,
    loadedThread id (filesOf disk id) = some (record, files) →
    filesOf w'.disk id = files ∨ record = none ∧ filesOf w'.disk id = { files with metadata := none }
  unlistedFiles : ∀ id, disk.threads.has id = false →
    filesOf w'.disk id = { filesOf disk id with metadata := none }
  delegationFiles : ∀ id, w'.disk.delegations.get? id = (startDelegation disk id).map .json
  sideFiles : SideFilesReadable disk → w'.disk.sectionPlacements = disk.sectionPlacements ∧
    w'.disk.supersededSessions = disk.supersededSessions
  archived : SideFilesReadable disk → ∀ id, loadedThread id (filesOf disk id) = none →
    ArchiveFree now id disk → ∀ content, disk.threads.get? id = some content →
    Archived now id content w'.disk
  quiet : SideFilesReadable disk →
    (∀ id, disk.threads.has id = true → (loadedThread id (filesOf disk id)).isSome) →
    ∀ name, ThreadArchive name → w'.disk.quarantine.get? name = disk.quarantine.get? name

theorem withoutMetadata_of_none {files : ThreadFiles} (absent : files.metadata = none) :
    { files with metadata := none } = files := by
  cases files
  cases absent
  rfl

section Start
variable {order : DirectoryOrder} {now : Timestamp} {disk : Disk}
  {fuse : Option (Nat × Residue)} {Q : Unit → World → Prop} {E : StoreError → World → Prop}

theorem has_iff_mem_keys {K V : Type} [DecidableEq K] (m : OrderedMap K V) (k : K) :
    m.has k = true ↔ k ∈ m.keys := by
  rw [has_iff, mem_keys_iff]

variable (returned : ∀ w', StoreConsistent w'.state.store → (fuse = none → w'.fuse = none ∧ Started now disk w'.state) → Q () w')
include returned

variable (failed : ∀ error w', (fuse = none → ¬ StartsSeparate disk) → E error w')
include failed

/-- The start under the lock: it returns a consistent store; without a fault it returns
exactly when what it loads is separate. -/
theorem wp_load :
    (load order now).wp Q E ⟨fuse, ⟨disk, .constructed⟩⟩ := by
  unfold load
  simp only [wp_bind, wp_readDisk, wp_modifyStore]
  refine wp_fileStep ?_ fun armed => failed _ _ fun h => absurd h armed
  intro fuse₁ burnt₁
  refine wp_fileStep ?_ fun armed => failed _ _ fun h => absurd (burnt₁.mpr h) armed
  intro fuse₂ burnt₂
  replace burnt₂ : fuse = none → fuse₂ = none := fun h => burnt₂.mpr (burnt₁.mpr h)
  simp only [id_eq]
  apply wp_loadThreads
  · exact (order.perm _).nodup_iff.mpr disk.threads.keys_eq_nodup
  · exact parsedRecords_empty
  · exact fun _ _ => rfl
  · intro pending w₃ records listed parsed store₃ exact₃
    refine wp_fileStep ?_ fun armed => failed _ _ fun h => absurd (exact₃ (burnt₂ h)).1 armed
    intro fuse₄ burnt₄
    apply wp_removeOrphanMetadata
    intro w₅ unarmed₅ store₅ disk₅ loaded₅ others₅ orphans₅
    replace unarmed₅ : fuse = none → w₅.fuse = none :=
      fun h => unarmed₅ (burnt₄.mpr (exact₃ (burnt₂ h)).1)
    replace store₅ := store₅.trans store₃
    replace loaded₅ : ∀ id, w₃.state.store.records.has id = true →
        filesOf w₅.state.disk id = filesOf w₃.state.disk id := loaded₅
    replace others₅ : ∀ id, filesOf w₅.state.disk id = filesOf w₃.state.disk id ∨
        filesOf w₅.state.disk id = { filesOf w₃.state.disk id with metadata := none } := others₅
    refine wp_fileStep ?_ fun armed => failed _ _ fun h => absurd (unarmed₅ h) armed
    intro fuse₆ burnt₆
    apply wp_loadDelegations
    · exact (order.perm _).nodup_iff.mpr (keys_eq_nodup _)
    · intro id _
      rw [store₅]
      rfl
    · intro w₇ delegations store₇ disk₇ archives₇ exact₇
      rw [store₅] at store₇
      refine wp_loadSideFile (fun _ _ => ⟨fun _ => rfl, rfl⟩) ?_
      intro sectionPlacements w₈ unarmed₈ store₈ files₈ delegations₈ read₈
      refine wp_loadSideFile (fun _ _ => ⟨fun _ => rfl, rfl⟩) ?_
      intro supersededSessions w₉ unarmed₉ store₉ files₉ delegations₉ read₉
      rw [store₉, store₈, store₇]
      -- What the exact parts say together when no step fails.
      have started : fuse = none → w₉.fuse = none ∧ (∀ id, records.get? id = startRecord disk id) ∧
          (∀ id, delegations.get? id = startDelegation disk id) ∧
          ∀ w' : StoreWorld, w'.store.records = records → w'.store.delegations = delegations →
            w'.disk = w₉.state.disk → Started now disk w' := by
        intro h
        obtain ⟨burnt₃, loaded⟩ := exact₃ (burnt₂ h)
        obtain ⟨burnt₇, unlisted₇, listed₇⟩ := exact₇ (burnt₆.mpr (unarmed₅ h))
        have delegationsKept : w₅.state.disk.delegations = disk.delegations :=
          (congrArg (·.delegations) disk₅).trans loaded.delegations
        have sameStart : ∀ id, startDelegation w₅.state.disk id = startDelegation disk id := by
          intro id
          unfold startDelegation
          rw [delegationsKept]
        have recordsAre : ∀ id, records.get? id = startRecord disk id := by
          intro id
          have stored : records.get? id = w₃.state.store.records.get? id := by rw [store₃]
          unfold startRecord
          cases has : disk.threads.has id with
          | true =>
            rw [stored, if_pos rfl]
            exact loaded.records id (order.mem_arrange.mpr ((has_iff_mem_keys _ _).mp has))
          | false =>
            rw [stored, if_neg (by simp)]
            refine (loaded.unlisted id ?_).2
            intro hid
            rw [(has_iff_mem_keys _ _).mpr (order.mem_arrange.mp hid)] at has
            cases has
        have delegationsAre : ∀ id, delegations.get? id = startDelegation disk id ∧
            w₇.state.disk.delegations.get? id = (startDelegation disk id).map .json := by
          intro id
          rw [← sameStart id]
          by_cases hid : id ∈ order.arrange w₅.state.disk.delegations.keys
          · exact listed₇ id hid
          · have absent : w₅.state.disk.delegations.get? id = none := by
              rw [← has_eq_false_iff, Bool.eq_false_iff]
              exact fun has => hid (order.mem_arrange.mpr ((has_iff_mem_keys _ _).mp has))
            have nothing : startDelegation w₅.state.disk id = none := by
              simp only [startDelegation, absent, readDelegation]
            obtain ⟨sameRecord, sameFile⟩ := unlisted₇ id hid
            rw [nothing, sameRecord, sameFile, store₅]
            exact ⟨rfl, absent⟩
        have filesAre : ∀ id, filesOf w₉.state.disk id = filesOf w₅.state.disk id :=
          fun id => (files₉ id).trans ((files₈ id).trans (by rw [disk₇]; rfl))
        have placements₇ : w₇.state.disk.sectionPlacements = disk.sectionPlacements :=
          (congrArg (·.sectionPlacements) disk₇).trans
            ((congrArg (·.sectionPlacements) disk₅).trans loaded.sectionPlacements)
        have sessions₇ : w₇.state.disk.supersededSessions = disk.supersededSessions :=
          (congrArg (·.supersededSessions) disk₇).trans
            ((congrArg (·.supersededSessions) disk₅).trans loaded.supersededSessions)
        have sideFiles : SideFilesReadable disk → w₉.state.disk = w₇.state.disk := by
          intro readable
          have same₈ := read₈ burnt₇ (by rw [placements₇]; exact readable.sectionPlacements)
          have same₉ := read₉ (unarmed₈ burnt₇) (by rw [same₈, sessions₇]; exact readable.supersededSessions)
          exact same₉.trans same₈
        -- Only the Thread loop writes archives of Threads.
        have archivesAre : SideFilesReadable disk → ∀ name, ThreadArchive name →
            w₉.state.disk.quarantine.get? name = w₃.state.disk.quarantine.get? name := by
          intro readable name thread
          have notDelegation : name.kind ≠ .invalidDelegation := by
            rcases thread with h | h <;> simp [h]
          rw [sideFiles readable, archives₇ name notDelegation]
          exact congrArg (·.quarantine.get? name) disk₅
        refine ⟨unarmed₉ (unarmed₈ burnt₇), recordsAre, fun id => (delegationsAre id).1, ?_⟩
        intro w' records' delegations' disk'
        refine ⟨?_, ?_, ?_, ?_, ?_, ?_, ?_, ?_⟩
        · intro id
          rw [records']
          exact recordsAre id
        · intro id
          rw [delegations']
          exact (delegationsAre id).1
        · intro id has record files whole
          have listedId := order.mem_arrange.mpr ((has_iff_mem_keys _ _).mp has)
          have after := loaded.files id listedId record files whole
          rw [disk', filesAre]
          cases record with
          | some r =>
            left
            rw [loaded₅ id ?_, after]
            rw [store₃, has_iff]
            refine ⟨r, (recordsAre id).trans ?_⟩
            simp only [startRecord, has, if_true, loadedRecord, whole, bind_some]
          | none =>
            rcases others₅ id with same | same <;> rw [same]
            · exact .inl after
            · exact .inr ⟨rfl, by rw [after]⟩
        · intro id unlistedId
          have notIn : id ∉ order.arrange disk.threads.keys := by
            intro hid
            rw [(has_iff_mem_keys _ _).mpr (order.mem_arrange.mp hid)] at unlistedId
            cases unlistedId
          have before := (loaded.unlisted id notIn).1
          have absent : w₃.state.store.records.has id = false := by
            rw [has_eq_false_iff, (loaded.unlisted id notIn).2]
            rfl
          have cleared : (filesOf w₅.state.disk id).metadata = none := by
            by_cases hid : id ∈ order.arrange w₃.state.disk.metadata.keys
            · exact orphans₅ (burnt₄.mpr burnt₃) id hid absent fun h => notIn (listed id h)
            · have gone : (filesOf w₃.state.disk id).metadata = none := by
                unfold filesOf
                rw [← has_eq_false_iff, Bool.eq_false_iff]
                exact fun has => hid (order.mem_arrange.mpr ((has_iff_mem_keys _ _).mp has))
              rcases others₅ id with same | same <;> rw [same]
              exact gone
          rw [disk', filesAre, ← before]
          rcases others₅ id with same | same
          · rw [same] at cleared ⊢
            exact (withoutMetadata_of_none cleared).symm
          · exact same
        · intro id
          rw [disk', delegations₉, delegations₈]
          exact (delegationsAre id).2
        · intro readable
          rw [disk', sideFiles readable]
          exact ⟨placements₇, sessions₇⟩
        · intro sides id unreadable free content present
          have listedId := order.mem_arrange.mpr
            ((has_iff_mem_keys _ _).mp ((has_iff _ _).mpr ⟨content, present⟩))
          obtain ⟨archive, moved⟩ := loaded.archived id listedId unreadable free content present
          have primary : (filesOf w₉.state.disk id).primary = (filesOf w₃.state.disk id).primary := by
            rw [filesAre]
            rcases others₅ id with same | same <;> rw [same]
          rw [disk']
          exact ⟨(archivesAre sides _ (.inl rfl)).trans archive, primary.trans moved⟩
        · intro sides readable name thread
          rw [disk', archivesAre sides name thread]
          refine loaded.quiet (fun id hid => ?_) name ?_
          · exact readable id ((has_iff_mem_keys _ _).mpr (order.mem_arrange.mp hid))
          · rcases thread with h | h <;> simp [h]
      unfold rebuild
      simp only [wp_bind, wp_readStore, wp_modifyStore, wp_lift]
      constructor
      · intro _ rebuilt
        obtain ⟨sound, separate⟩ := parsed.sound_of_rebuilt rebuilt
        apply returned
        · exact ⟨sound, separate, (sound.rebuilds separate).2⟩
        · intro h
          obtain ⟨burnt, -, -, all⟩ := started h
          exact ⟨burnt, all _ rfl rfl rfl⟩
      · intro error thrown
        apply failed
        intro h separate
        obtain ⟨-, recordsAre, delegationsAre, -⟩ := started h
        have ok : (rebuildIndexes records.values delegations.values).1 = .ok () := by
          rw [rebuildIndexes_ok_iff parsed.unique parsed.ids, pairwise_values_iff fun _ _ h => h.symm,
            pairwise_values_iff fun _ _ h => h.symm]
          constructor
          · intro id id' d d' hd hd' hne
            rw [delegationsAre] at hd hd'
            exact separate.delegations id id' d d' hd hd' hne
          · intro id id' r r' hr hr' hne
            rw [recordsAre] at hr hr'
            exact separate.threads id id' r r' hr hr' hne
        rw [ok] at thrown
        cases thrown
  · exact fun error w' armed => failed _ _ fun h => absurd (burnt₂ h) armed

theorem wp_initializeStore :
    (initializeStore order now).wp Q E ⟨fuse, ⟨disk, .constructed⟩⟩ := by
  unfold initializeStore
  simp only [wp_bind, wp_readStore]
  split
  · next initialized => cases initialized
  · simp only [wp_bind, wp_tryCatch, wp_modifyStore, wp_throw]
    refine wp_fileStep ?_ fun armed => failed _ _ fun h => absurd h armed
    intro fuse₁ burnt₁
    apply wp_load
    · exact fun w' consistent started =>
        returned w' consistent fun h => started (burnt₁.mpr h)
    · intro error w' thrown
      have collides : fuse = none → ¬ StartsSeparate disk := fun h => thrown (burnt₁.mpr h)
      rw [wp_iff]
      exact ⟨fun _ _ _ => failed _ _ collides, fun _ _ _ => failed _ _ collides⟩

end Start

end CodexHost.Guarantees
