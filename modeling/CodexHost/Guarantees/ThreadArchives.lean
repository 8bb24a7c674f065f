import CodexHost.Guarantees.RestartFaithfulness

/-!
# What a store moves to its quarantine

Only a start sets a Thread file or a side file aside, and only one that it cannot read.
The operations of the queue keep every named file readable, so in a run over a new store
nothing is ever set aside and a start over damaged files finds its archive names free.
-/
namespace CodexHost.Guarantees
open Foundation Source.SharedContracts Source.MappingStore Command

/-- No Thread file was ever set aside, and the side files parse, so that none of them will
be. -/
structure NothingSetAside (disk : Disk) : Prop where
  archives : ∀ name, ThreadArchive name → disk.quarantine.get? name = none
  sectionPlacements : SideFileReadable parseSectionPlacements disk.sectionPlacements
  supersededSessions : SideFileReadable parseSupersededSessions disk.supersededSessions

/-! Operations move at most a metadata file to the quarantine. -/

abbrev KeepsClear {α : Type} (c : StoreCommand α) : Prop :=
  c.Keeps fun w => NothingSetAside w.state.disk

theorem fileStep_clear {effect : Disk → Disk}
    (clear : ∀ disk, NothingSetAside disk → NothingSetAside (effect disk)) :
    KeepsClear (fileStep effect) := by
  apply keeps_ioStep (I := fun w : StoreWorld => NothingSetAside w.disk)
  · exact fun w holds => clear w.disk holds
  · exact fun _ _ holds => holds

theorem probe_clear : KeepsClear (fileStep id) := fileStep_clear fun _ clear => clear

/-- A step on the Thread files, the backups or the metadata. -/
theorem threadStep_clear {effect : Disk → Disk}
    (quarantine : ∀ disk, (effect disk).quarantine = disk.quarantine)
    (sectionPlacements : ∀ disk, (effect disk).sectionPlacements = disk.sectionPlacements)
    (supersededSessions : ∀ disk, (effect disk).supersededSessions = disk.supersededSessions) :
    KeepsClear (fileStep effect) := by
  apply fileStep_clear
  intro disk clear
  refine ⟨?_, ?_, ?_⟩
  · rw [quarantine]
    exact clear.archives
  · rw [sectionPlacements]
    exact clear.sectionPlacements
  · rw [supersededSessions]
    exact clear.supersededSessions

theorem readDisk_clear : KeepsClear readDisk := fun _ clear => clear

theorem readStore_clear : KeepsClear readStore := fun _ clear => clear

theorem modifyStore_clear (f : StoreState → StoreState) : KeepsClear (modifyStore f) :=
  fun _ clear => clear

theorem writeTemporaryFile_clear : KeepsClear writeTemporaryFile :=
  keeps_bind probe_clear fun _ => keeps_bind probe_clear fun _ =>
    keeps_bind probe_clear fun _ => probe_clear

theorem rebuild_clear : KeepsClear rebuild :=
  keeps_bind readStore_clear fun _ =>
    keeps_bind (modifyStore_clear _) fun _ => keeps_lift _

theorem backUp_clear (target backup : HostThreadId) : KeepsClear (backUp target backup) := by
  refine keeps_bind probe_clear fun _ => keeps_bind readDisk_clear fun disk => ?_
  split
  · unfold copyToBackup
    apply keeps_ioStep (I := fun w : StoreWorld => NothingSetAside w.disk)
    · intro w clear
      simp only
      split
      · exact clear
      · exact ⟨clear.archives, clear.sectionPlacements, clear.supersededSessions⟩
    · intro residue w clear
      cases residue with
      | none => exact clear
      | some content => exact ⟨clear.archives, clear.sectionPlacements, clear.supersededSessions⟩
  · exact keeps_pure _

theorem replaceFile_clear (target : HostThreadId) (record : StoredThreadRecordV1)
    (preserveBackup : Bool) : KeepsClear (replaceFile target record preserveBackup) := by
  refine keeps_tryCatch ?_ fun _ => keeps_throw _
  refine keeps_bind probe_clear fun _ =>
    keeps_bind writeTemporaryFile_clear fun _ => ?_
  have rename : KeepsClear (fileStep fun disk => { disk with
      threads := disk.threads.set target (.json (withoutThreadMetadata record)) }) :=
    threadStep_clear (fun _ => rfl) (fun _ => rfl) fun _ => rfl
  split
  · exact keeps_bind (backUp_clear _ _) fun _ => rename
  · exact rename

theorem readMetadata_clear (now : Timestamp) (id : HostThreadId) : KeepsClear (readMetadata now id) := by
  refine keeps_bind probe_clear fun _ => keeps_bind readDisk_clear fun disk => ?_
  split
  · exact keeps_pure _
  · split
    · exact keeps_pure _
    · refine keeps_bind (keeps_tryCatch ?_ fun _ => keeps_pure _) fun _ =>
        keeps_pure _
      apply fileStep_clear
      intro disk clear
      refine ⟨fun name thread => ?_, clear.sectionPlacements, clear.supersededSessions⟩
      rw [← clear.archives name thread]
      apply OrderedMap.get?_set_of_ne
      rintro rfl
      rcases thread with h | h <;> cases h

theorem writeMetadataFile_clear (now : Timestamp) (id : HostThreadId)
    (metadata : Option StoredThreadMetadataV1) :
    KeepsClear (writeMetadataFile now id metadata) := by
  refine keeps_tryCatch ?_ fun _ => keeps_throw _
  refine keeps_bind (readMetadata_clear now id) fun existing => ?_
  simp only
  split
  · exact threadStep_clear (fun _ => rfl) (fun _ => rfl) fun _ => rfl
  · refine keeps_bind writeTemporaryFile_clear fun _ => ?_
    exact threadStep_clear (fun _ => rfl) (fun _ => rfl) fun _ => rfl

theorem update_clear (now : Timestamp) (id : HostThreadId) (change : Change)
    (preserveUpdatedAt : Bool) : KeepsClear (update now id change preserveUpdatedAt) := by
  refine keeps_bind readStore_clear fun store => ?_
  split
  · exact keeps_throw _
  · refine keeps_bind (keeps_lift _) fun changed => ?_
    split
    · exact keeps_pure _
    · refine keeps_bind (keeps_lift _) fun next =>
        keeps_bind (keeps_lift _) fun _ =>
        keeps_bind (replaceFile_clear _ _ _) fun _ => ?_
      have stores : ∀ next : StoredThreadRecordV1, KeepsClear (do
          modifyStore fun store => { store with records := store.records.set id next }
          rebuild
          return next) := fun next =>
        keeps_bind (modifyStore_clear _) fun _ =>
          keeps_bind rebuild_clear fun _ => keeps_pure _
      simp only
      split
      · refine keeps_bind (keeps_tryCatch (writeMetadataFile_clear _ _ _)
          fun _ => ?_) fun _ => stores next
        exact keeps_bind (keeps_tryCatch (replaceFile_clear _ _ _)
          fun _ => keeps_pure _) fun _ => keeps_throw _
      · exact stores next

theorem writeNew_clear (now : Timestamp) (record : StoredThreadRecordV1) :
    KeepsClear (writeNew now record) := by
  have file : KeepsClear (writeNewFile record) := by
    refine keeps_tryCatch (replaceFile_clear _ _ _) fun _ => ?_
    split
    · refine keeps_bind (keeps_tryCatch ?_ fun _ => keeps_pure _)
        fun _ => keeps_throw _
      exact threadStep_clear (fun _ => rfl) (fun _ => rfl) fun _ => rfl
    · exact keeps_throw _
  have stores : KeepsClear (do
      writeNewFile record
      modifyStore fun store =>
        { store with records := store.records.set record.hostThreadId record }
      rebuild) :=
    keeps_bind file fun _ => keeps_bind (modifyStore_clear _) fun _ => rebuild_clear
  refine keeps_bind readStore_clear fun store =>
    keeps_bind (keeps_lift _) fun _ => ?_
  split
  · exact keeps_bind (writeMetadataFile_clear _ _ _) fun _ => stores
  · exact stores

theorem remove_clear (id : HostThreadId) : KeepsClear (remove id) := by
  refine keeps_bind readStore_clear fun store => ?_
  split
  · exact keeps_pure _
  · refine keeps_bind (threadStep_clear (fun _ => rfl) (fun _ => rfl) fun _ => rfl)
      fun _ => keeps_bind (keeps_tryCatch ?_ fun _ => ?_) fun _ =>
        keeps_bind (modifyStore_clear _) fun _ => rebuild_clear
    · exact keeps_bind (threadStep_clear (fun _ => rfl) (fun _ => rfl) fun _ => rfl)
        fun _ => threadStep_clear (fun _ => rfl) (fun _ => rfl) fun _ => rfl
    · exact keeps_bind (replaceFile_clear _ _ _) fun _ => keeps_throw _

theorem parseSectionPlacements_again {placements parsed : List StoredSectionPlacementV1}
    (parses : parseSectionPlacements placements = some parsed) :
    (parseSectionPlacements parsed).isSome := by
  unfold parseSectionPlacements at parses ⊢
  split at parses
  · next valid =>
    cases parses
    rw [if_pos valid]
    rfl
  · cases parses

theorem parseSupersededSessions_again {sessions parsed : List StoredSupersededSessionV1}
    (parses : parseSupersededSessions sessions = some parsed) :
    (parseSupersededSessions parsed).isSome := by
  unfold parseSupersededSessions at parses ⊢
  split at parses
  · next valid =>
    cases parses
    rw [if_pos valid]
    rfl
  · cases parses

theorem replaceSectionPlacements_clear (placements : List StoredSectionPlacementV1) :
    KeepsClear (replaceSectionPlacements placements) := by
  refine keeps_bind readStore_clear fun store =>
    keeps_tryCatch ?_ fun _ => keeps_throw _
  split
  · exact keeps_throw _
  · next parsed parses =>
    refine keeps_bind writeTemporaryFile_clear fun _ =>
      keeps_bind ?_ fun _ => modifyStore_clear _
    apply fileStep_clear
    intro disk clear
    refine ⟨clear.archives, ?_, clear.supersededSessions⟩
    intro content present
    cases present
    exact ⟨parsed, rfl, parseSectionPlacements_again parses⟩

theorem recordSuperseded_clear (now : Timestamp) (previous : NativeSessionRef)
    (replaced : StoredThreadRecordV1) : KeepsClear (recordSuperseded now previous replaced) := by
  unfold recordSuperseded
  split
  · exact keeps_pure _
  · split
    · exact keeps_pure _
    · intro w clear
      simp only [wp_tryCatch, wp_bind, wp_readStore, wp_pure]
      generalize latestSupersededSessions _ = sessions
      split
      · exact clear
      · next parsed parses =>
        have written : KeepsClear (fileStep fun disk =>
            { disk with supersededSessions := some (.json parsed) }) := by
          apply fileStep_clear
          intro disk clear
          refine ⟨clear.archives, clear.sectionPlacements, ?_⟩
          intro content present
          cases present
          exact ⟨parsed, rfl, parseSupersededSessions_again parses⟩
        have steps := keeps_bind probe_clear fun _ =>
          keeps_bind writeTemporaryFile_clear fun _ =>
          keeps_bind written fun _ => modifyStore_clear fun store =>
            { store with supersededSessions := parsed }
        exact wp_mono (steps w clear) (fun _ _ h => h) fun _ _ h => h

theorem saveUsageMeasurements_clear (now : Timestamp) (id : HostThreadId) (ref : NativeSessionRef)
    (values : UsageMeasurementsSnapshot) :
    KeepsClear (saveUsageMeasurements now id ref values) := by
  unfold saveUsageMeasurements
  split
  · refine keeps_bind readStore_clear fun store => ?_
    split
    · exact keeps_throw _
    · split
      · exact keeps_pure _
      · simp only
        split
        · exact keeps_pure _
        · exact keeps_bind (writeMetadataFile_clear _ _ _) fun _ =>
            keeps_bind (modifyStore_clear _) fun _ => keeps_pure _
  · exact keeps_throw _

theorem createProvisional_clear (now : Timestamp) (input : CreateProvisionalThreadInput) :
    KeepsClear (createProvisional now input) := by
  refine keeps_bind readStore_clear fun store => ?_
  split
  · split
    · exact keeps_throw _
    · exact keeps_pure _
  · split
    · exact keeps_throw _
    · exact keeps_bind (keeps_lift _) fun record =>
        keeps_bind (writeNew_clear now record) fun _ => keeps_pure _

/-- No operation of the queue sets a Thread file aside. -/
theorem body_clear (parseUrl : UrlParser) (now : Timestamp) (op : QueuedOperation) :
    KeepsClear (op.body parseUrl now) := by
  unfold QueuedOperation.body
  split
  · exact keeps_bind (update_clear _ _ _ _) fun _ => keeps_pure _
  · split
    · exact keeps_bind (createProvisional_clear _ _) fun _ => keeps_pure _
    · exact keeps_bind (saveUsageMeasurements_clear _ _ _ _) fun _ => keeps_pure _
    · refine keeps_bind readStore_clear fun store => ?_
      split
      · exact keeps_throw _
      · exact remove_clear _
    · exact remove_clear _
    · exact recordSuperseded_clear _ _ _
    · exact replaceSectionPlacements_clear _
    · exact keeps_pure _

section Runs
variable {parseUrl : UrlParser} {w : StoreWorld}

theorem Mirrored.loads (mirrored : Mirrored w) (consistent : StoreConsistent w.store)
    (id : HostThreadId) (listed : w.disk.threads.has id = true) :
    (loadedThread id (filesOf w.disk id)).isSome := by
  obtain ⟨r, stored⟩ := (mirrored.listed_iff id).mp listed
  obtain ⟨inline, sidecar, mirror⟩ := mirrored.present id r stored
  have loaded := mirror.loaded (consistent.records.parsed id r stored)
  split at loaded
  · rw [loaded]
    rfl
  · obtain ⟨files', inline', sidecar', whole, -⟩ := loaded
    rw [whole]
    rfl

/-- A start over mirrored files reads every Thread, so it sets none aside. -/
theorem Mirrored.restart_clear (mirrored : Mirrored w) (consistent : StoreConsistent w.store)
    (clear : NothingSetAside w.disk) (order : DirectoryOrder) (now : Timestamp) :
    NothingSetAside (start order now none w.disk).2.disk := by
  obtain ⟨-, started, -⟩ := mirrored.restart consistent order now
  have sides : SideFilesReadable w.disk := ⟨clear.sectionPlacements, clear.supersededSessions⟩
  obtain ⟨placements, sessions⟩ := started.sideFiles sides
  refine ⟨?_, ?_, ?_⟩
  · intro name thread
    rw [started.quiet sides (mirrored.loads consistent) name thread]
    exact clear.archives name thread
  · rw [placements]
    exact clear.sectionPlacements
  · rw [sessions]
    exact clear.supersededSessions

theorem StoreSound.happen_clear (sound : StoreSound w) (clear : NothingSetAside w.disk)
    (event : StoreEvent) : NothingSetAside (event.happen parseUrl w).disk := by
  cases event with
  | queued turn =>
    exact Command.Keeps.exec (body_clear parseUrl turn.now turn.operation) (w := ⟨turn.fault, w⟩) clear
  | delegation now fault call =>
    simp only [StoreEvent.happen]
    rcases delegation_outcome sound now fault call with same | ⟨effect, -, same⟩
    · rw [same]
      exact clear
    · rw [same]
      cases effect <;> exact ⟨clear.archives, clear.sectionPlacements, clear.supersededSessions⟩
  | restart order now => exact sound.mirrored.restart_clear sound.consistent clear order now

/-- In every reachable world nothing was ever set aside. -/
theorem life_clear {order : DirectoryOrder} {now : Timestamp} {events : List StoreEvent}
    (run : Run (LifeStep parseUrl) (newStore order now) events w) : NothingSetAside w.disk := by
  have blank : NothingSetAside Disk.blank :=
    ⟨fun _ _ => rfl, fun _ h => (by cases h), fun _ h => (by cases h)⟩
  have invariant : StoreSound w ∧ NothingSetAside w.disk := by
    apply run.invariant
    · exact ⟨(newStore_sound order now).1, mirrored_blank.restart_clear constructed_consistent blank order now⟩
    · intro w event w' holds step
      rw [← step]
      exact ⟨holds.1.happen event, holds.1.happen_clear holds.2 event⟩
  exact invariant.2

end Runs

end CodexHost.Guarantees
