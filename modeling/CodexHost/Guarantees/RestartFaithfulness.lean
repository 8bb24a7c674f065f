import CodexHost.Guarantees.StoreRestart

/-!
# Restart faithfulness

`withoutThreadMetadata` leaves `usageMeasurements` in the record it writes to the Thread
file, and `saveUsageMeasurements` rewrites the metadata file only. So a save that clears
all measurements leaves the ones an earlier update put into the Thread file, and the next
start brings them back. In a run without such a save a restart yields exactly the records
that were in memory.
-/
namespace CodexHost.Guarantees
open Foundation Source.SharedContracts Source.MappingStore OrderedMap Command DelegationEffect

/-- A new store over the files holds the records of this one, less those a start discards,
and no Thread file carries a metadata field that could override or resurrect one. -/
structure RestartFaithful (w : StoreWorld) : Prop where
  returns : ∀ order now, (start order now none w.disk).1 = .ok ()
  records : ∀ order now id, (start order now none w.disk).2.store.records.get? id =
    (w.store.records.get? id).filter fun r => !discardable r
  threadFile : ∀ id r p, w.store.records.get? id = some r → w.disk.threads.get? id = some (.json p) →
    { p.toStoredThreadMetadataFields with usageMeasurements := none } = noThreadMetadata ∧
      (p.usageMeasurements ≠ none → r.usageMeasurements ≠ none)

/-- What every reachable world satisfies: memory is consistent and the files mirror it. -/
structure StoreSound (w : StoreWorld) : Prop where
  consistent : StoreConsistent w.store
  mirrored : Mirrored w

/-- A Thread that is not stale starts as the record in memory, unless it is discarded. -/
theorem StoreSound.restarts {w : StoreWorld} (sound : StoreSound w) (order : DirectoryOrder)
    (now : Timestamp) {id : HostThreadId} (fresh : ¬ Stale w id) :
    (start order now none w.disk).2.store.records.get? id =
      (w.store.records.get? id).filter fun r => !discardable r := by
  obtain ⟨-, started, -⟩ := sound.mirrored.restart sound.consistent order now
  rw [started.records]
  cases stored : w.store.records.get? id with
  | none => exact sound.mirrored.starts_none stored
  | some r =>
    obtain ⟨inline, sidecar, mirror⟩ := sound.mirrored.present id r stored
    rw [sound.mirrored.starts sound.consistent stored mirror, Option.filter_some]
    rw [mirror.stale_iff stored] at fresh
    cases discarded : discardable r with
    | true => rfl
    | false => simp [restored_eq_of_fresh mirror.usage fresh]

theorem StoreSound.faithful {w : StoreWorld} (sound : StoreSound w) (fresh : ∀ id, ¬ Stale w id) :
    RestartFaithful w where
  returns order now := (sound.mirrored.restart sound.consistent order now).1
  records order now id := sound.restarts order now (fresh id)
  threadFile id r p stored primary := by
    obtain ⟨inline, sidecar, mirror⟩ := sound.mirrored.present id r stored
    have own : w.disk.threads.get? id = _ := mirror.primary
    rw [own] at primary
    cases primary
    refine ⟨rfl, fun carried cleared => ?_⟩
    exact fresh id ((mirror.stale_iff stored).mpr ⟨cleared, carried⟩)

theorem mirrored_blank : Mirrored ⟨.blank, .constructed⟩ :=
  ⟨fun _ _ => rfl, fun _ _ h => (by cases h), fun _ => rfl, fun _ _ h => (by cases h)⟩

theorem constructed_consistent : StoreConsistent StoreState.constructed := by
  refine ⟨⟨parsedRecords_empty, by simp [StoreState.constructed]⟩, ?_,
    threadProjection_cleared, delegationProjection_cleared⟩
  exact List.Pairwise.nil

theorem newStore_sound (order : DirectoryOrder) (now : Timestamp) :
    StoreSound (newStore order now) ∧ ∀ id, ¬ Stale (newStore order now) id := by
  obtain ⟨-, -, consistent, mirrored, fresh⟩ :=
    mirrored_blank.restart constructed_consistent order now
  exact ⟨⟨consistent, mirrored⟩, fresh⟩

section Steps
variable {parseUrl : UrlParser} {w : StoreWorld}

theorem StoreSound.take (sound : StoreSound w) (turn : Turn) : StoreSound (turn.take parseUrl w).2 := by
  refine ⟨take_consistent sound.consistent, ?_⟩
  rcases take_effect parseUrl turn sound.consistent with ⟨-, effect⟩ | ⟨-, rollback⟩
  · exact effect.mirrored sound.consistent sound.mirrored
  · exact rollback.mirrored sound.consistent sound.mirrored

/-- The world after a delegation call: as before, or with one effect on file and memory. -/
theorem delegation_outcome (sound : StoreSound w) (now : Timestamp)
    (fault : Option (Nat × Residue)) (call : DelegationCall) :
    ((call.body now).exec ⟨fault, w⟩).2.state = w ∨ ∃ effect, AdmissibleEffect w.store.delegations effect ∧
        ((call.body now).exec ⟨fault, w⟩).2.state = ⟨effect.onDisk w.disk, afterEffect w.store effect⟩ := by
  have spec : (call.body now).wp
      (fun _ w' => w'.state = w ∨ ∃ effect, AdmissibleEffect w.store.delegations effect ∧
        w'.state = ⟨effect.onDisk w.disk, afterEffect w.store effect⟩)
      (fun _ w' => w'.state = w ∨ ∃ effect, AdmissibleEffect w.store.delegations effect ∧
        w'.state = ⟨effect.onDisk w.disk, afterEffect w.store effect⟩) ⟨fault, w⟩ :=
    wp_delegationBody sound.consistent sound.mirrored.delegationsParsed (fun _ => .inl rfl)
      (fun _ effect admissible => .inr ⟨effect, admissible, rfl⟩) (fun _ _ => .inl rfl)
  exact wp_after spec

theorem filesOf_onDisk (effect : DelegationEffect) (disk : Disk) (id : HostThreadId) :
    filesOf (effect.onDisk disk) id = filesOf disk id := by
  cases effect <;> rfl

theorem threads_onDisk (effect : DelegationEffect) (disk : Disk) :
    (effect.onDisk disk).threads = disk.threads := by
  cases effect <;> rfl

theorem Mirrored.delegated {effect : DelegationEffect} (mirrored : Mirrored w)
    (admissible : AdmissibleEffect w.store.delegations effect) :
    Mirrored ⟨effect.onDisk w.disk, afterEffect w.store effect⟩ where
  absent id h := by
    rw [filesOf_onDisk]
    exact mirrored.absent id h
  present id r h := by
    simp only [filesOf_onDisk]
    exact mirrored.present id r h
  delegationFiles id := by
    have before := mirrored.delegationFiles id
    cases effect with
    | publish record =>
      simp only [onDisk, afterEffect, onMap, get?_set]
      split
      · rfl
      · exact before
    | erase delegationId =>
      simp only [onDisk, afterEffect, onMap, get?_delete]
      split
      · rfl
      · exact before
  delegationsParsed := admissible.parsed mirrored.delegationsParsed

theorem StoreSound.happen (sound : StoreSound w) (event : StoreEvent) :
    StoreSound (event.happen parseUrl w) := by
  cases event with
  | queued turn => exact sound.take turn
  | delegation now fault call =>
    simp only [StoreEvent.happen]
    rcases delegation_outcome sound now fault call with same | ⟨effect, admissible, same⟩
    · rw [same]
      exact sound
    · rw [same]
      exact ⟨(admissible.consistent sound.consistent).2, sound.mirrored.delegated admissible⟩
  | restart order now =>
    obtain ⟨-, -, consistent, mirrored, -⟩ := sound.mirrored.restart sound.consistent order now
    exact ⟨consistent, mirrored⟩

/-- The save is not one that clears measurements the Thread file carries. -/
def KeepsInline (w : StoreWorld) (event : StoreEvent) : Prop :=
  ∀ turn, event = .queued turn → ¬ ClearsInline w turn.operation

/-- An event other than a clearing save makes no Thread stale. -/
theorem StoreSound.stays_fresh (sound : StoreSound w) {event : StoreEvent}
    (keeps : KeepsInline w event) (fresh : ∀ id, ¬ Stale w id) :
    ∀ id, ¬ Stale (event.happen parseUrl w) id := by
  intro id stale
  cases event with
  | queued turn =>
    rcases take_effect parseUrl turn sound.consistent with ⟨-, effect⟩ | ⟨-, rollback⟩
    · rcases effect.stale sound.consistent sound.mirrored stale with before | clears
      · exact fresh id before
      · exact keeps turn rfl clears
    · exact fresh id (rollback.stale stale)
  | delegation now fault call =>
    simp only [StoreEvent.happen] at stale
    rcases delegation_outcome sound now fault call with same | ⟨effect, -, same⟩
    · rw [same] at stale
      exact fresh id stale
    · rw [same] at stale
      obtain ⟨r, p, stored, primary, cleared, carried⟩ := stale
      rw [threads_onDisk] at primary
      exact fresh id ⟨r, p, stored, primary, cleared, carried⟩
  | restart order now =>
    obtain ⟨-, -, -, -, fresh'⟩ := sound.mirrored.restart sound.consistent order now
    exact fresh' id stale

end Steps

/-- Every run over a new store reaches only sound worlds. -/
theorem life_sound {parseUrl : UrlParser} {order : DirectoryOrder} {now : Timestamp}
    {events : List StoreEvent} {w : StoreWorld}
    (run : Run (LifeStep parseUrl) (newStore order now) events w) : StoreSound w := by
  apply run.invariant (newStore_sound order now).1
  intro w event w' sound step
  rw [← step]
  exact sound.happen event

/-- A clearing save that meets no fault leaves its Thread stale. -/
theorem clearing_stale {parseUrl : UrlParser} {w : StoreWorld}
    (fresh : ∀ id, ¬ Stale w id) {turn : Turn} (calm : turn.fault = none)
    (clears : ClearsInline w turn.operation) :
    ∃ id, Stale (turn.take parseUrl w).2 id := by
  obtain ⟨id, ref, values, r, p, requested, given, stored, ready, primary, carried, nothing⟩ :=
    clears
  refine ⟨id, ?_⟩
  obtain ⟨now, fault, operation⟩ := turn
  cases calm
  cases requested
  have measured : r.usageMeasurements ≠ none :=
    fun cleared => fresh id ⟨r, p, stored, primary, cleared, carried⟩
  have cleared := mergeMeasurements_none_iff.mpr nothing
  have spec : (saveUsageMeasurements now id ref values).wp (fun _ w' => Stale w'.state id)
      (fun _ _ => False) ⟨none, w⟩ := by
    unfold saveUsageMeasurements
    rw [if_pos given]
    simp only [wp_bind, wp_readStore, stored, ready.1, ready.2, ne_eq, not_true_eq_false,
      or_self, if_false, cleared, measured]
    apply wp_writeMetadataFile
    · intro w₁ _ _ written
      refine ⟨_, p, get?_set_self _ _ _, ?_, rfl, carried⟩
      have same : (filesOf w₁.state.disk id).primary = (filesOf w.disk id).primary := by
        rw [written.files]
      exact same.trans primary
    · exact fun _ _ _ armed => absurd rfl armed
  unfold Command.wp at spec
  simp only [Turn.take, QueuedOperation.body, QueuedOperation.asUpdate, exec_bind]
  rcases outcome : (saveUsageMeasurements now id ref values).exec ⟨none, w⟩ with ⟨result, w'⟩
  rw [outcome] at spec
  cases result with
  | ok _ => exact spec
  | error _ => exact spec.elim

/-- A stale Thread has a Thread file that can resurrect its measurements. -/
theorem stale_unfaithful {w : StoreWorld} {id : HostThreadId} (stale : Stale w id) : ¬ RestartFaithful w := by
  intro faithful
  obtain ⟨r, p, stored, primary, cleared, carried⟩ := stale
  exact (faithful.threadFile id r p stored primary).2 carried cleared

def calmTurn (operation : QueuedOperation) : StoreEvent := .queued ⟨0, none, operation⟩

def sessionOne : NativeSessionRef := ⟨"codex", "s1", none⟩

def turnOne : StoredTurnMappingV1 := ⟨"t1", ⟨"codex", "s1", "n1"⟩, none⟩

/-- A measurement is saved, an update writes it into the Thread file and drops its Turn,
and the next save clears it. -/
def clearingEvents : List StoreEvent :=
  [.queued firstTurn, calmTurn (.commitReady ⟨"a", sessionOne, some [turnOne]⟩),
    calmTurn (.saveUsageMeasurements "a" sessionOne ⟨some ⟨7, "t1", 1⟩, none⟩),
    calmTurn (.reconcileTurnMappings "a" []),
    calmTurn (.saveUsageMeasurements "a" sessionOne ⟨none, none⟩)]

def clearedWorld : StoreWorld :=
  clearingEvents.foldl (fun w event => event.happen (fun _ => none) w) (newStore creationOrder 0)

/-- Over any files, the order in which the directories are listed and the clock decide neither whether
a start returns nor what it loads. -/
theorem start_order_free (disk : Disk) (order order' : DirectoryOrder) (now now' : Timestamp) :
    ((start order now none disk).1 = .ok () ↔ (start order' now' none disk).1 = .ok ()) ∧
    ((start order now none disk).1 = .ok () → ∀ id,
      (start order now none disk).2.store.records.get? id =
        (start order' now' none disk).2.store.records.get? id ∧
      (start order now none disk).2.store.delegations.get? id =
        (start order' now' none disk).2.store.delegations.get? id) := by
  refine ⟨(start_ok_iff order now disk).trans (start_ok_iff order' now' disk).symm, fun returned id => ?_⟩
  have separate := (start_ok_iff order now disk).mp returned
  obtain ⟨-, started, -⟩ := start_of_separate order now separate
  obtain ⟨-, started', -⟩ := start_of_separate order' now' separate
  exact ⟨(started.records id).trans (started'.records id).symm,
    (started.delegations id).trans (started'.delegations id).symm⟩

theorem start_order_free_cleared : (start creationOrder 1 none clearedWorld.disk).1 = .ok () ↔
    (start creationOrder 2 none clearedWorld.disk).1 = .ok () :=
  (start_order_free clearedWorld.disk creationOrder creationOrder 1 2).1

/-- One Thread at most has another record or other files, and no delegation has. -/
structure ChangesOneThread (w w' : StoreWorld) : Prop where
  threads : ∃ id, ∀ other, other ≠ id → w'.store.records.get? other = w.store.records.get? other ∧
    filesOf w'.disk other = filesOf w.disk other
  delegations : w'.store.delegations = w.store.delegations
  files : w'.disk.delegations = w.disk.delegations

theorem OnlyFilesOf.changes {w w' : StoreWorld} {id : HostThreadId} (only : OnlyFilesOf id w.disk w'.disk)
    (delegations : w'.store.delegations = w.store.delegations)
    (records : ∀ other, other ≠ id → w'.store.records.get? other = w.store.records.get? other) :
    ChangesOneThread w w' :=
  ⟨⟨id, fun other apart => ⟨records other apart, only.others other apart⟩⟩, delegations, only.delegations⟩

theorem StoreEffect.changes {op : QueuedOperation} {w w' : StoreWorld} (effect : StoreEffect op w w') :
    ChangesOneThread w w' := by
  cases effect with
  | unchanged => exact (OnlyFilesOf.refl "" w.disk).changes rfl fun _ _ => rfl
  | updated id _ _ _ _ _ store only | created id _ _ _ _ store only =>
    rw [withRecord, reindexed] at store
    exact only.changes (by rw [store]) fun other apart => by rw [store]; exact get?_set_of_ne _ _ apart
  | measured id _ _ _ _ _ _ _ _ _ _ _ store only =>
    exact only.changes (by rw [store]) fun other apart => by rw [store]; exact get?_set_of_ne _ _ apart
  | removed id _ _ store only =>
    rw [withoutRecord, reindexed] at store
    exact only.changes (by rw [store]) fun other apart => by rw [store]; exact get?_delete_of_ne _ apart
  | listed records delegations _ files delegationFiles =>
    exact ⟨⟨"", fun other _ => ⟨by rw [records], files other⟩⟩, delegations, delegationFiles⟩

end CodexHost.Guarantees
