import CodexHost.Source.HostRuntime.ExternalThreads

/-!
# What a commit of a snapshot leaves

A store operation either changes one record or nothing. The projection after the replacement of a
record stores Subagent Threads and a preview, and keeps the rest of the record.
-/
namespace CodexHost.Guarantees.ThreadCommits
open Foundation Source.SharedContracts OrderedMap Command
open Source.MappingStore hiding update createProvisional removeProvisional remove
open Source.HostRuntime.ExternalThreads

theorem schema_core {record parsed : StoredThreadRecordV1}
    (is : storedThreadRecordV1Schema record = .ok parsed) :
    parsed.toStoredThreadCoreV1 = record.toStoredThreadCoreV1 ∧ parsed.accepted = true := by
  unfold storedThreadRecordV1Schema at is
  split at is
  · next accepted =>
    cases is
    refine ⟨rfl, ?_⟩
    exact accepted
  · cases is

theorem schema_accepts {record : StoredThreadRecordV1} (accepted : record.accepted = true)
    (issues : List Issue) : storedThreadRecordV1Schema record ≠ .error issues := by
  rw [storedThreadRecordV1Schema, if_pos accepted]
  exact nofun

theorem refineTurnMappings_congr {record record' : StoredThreadCoreV1}
    (harness : record'.harnessId = record.harnessId)
    (session : record'.nativeSessionRef = record.nativeSessionRef)
    (mappings : List StoredTurnMappingV1) (index : Nat) (hosts natives : List String) :
    refineTurnMappings record' index hosts natives mappings =
      refineTurnMappings record index hosts natives mappings := by
  induction mappings generalizing index hosts natives with
  | nil => rfl
  | cons mapping rest ih => simp only [refineTurnMappings, refineTurnRef, harness, session, ih]

/-- A record that was stored is accepted with another preview as well. -/
theorem accepted_preview {record : StoredThreadRecordV1} (accepted : record.accepted = true)
    {preview : Option String} (bounded : ∀ text, preview = some text → EcmaString.length text ≤ 4096)
    {revision : Nat} (positive : 0 < revision) (safe : revision ≤ maxSafeInteger) (at_ : Timestamp) :
    StoredThreadRecordV1.accepted { record with
      preview := preview, revision := revision, updatedAt := at_ } = true := by
  have isPreview : preview.all (fun preview => EcmaString.length preview ≤ 4096) = true := by
    cases preview with
    | none => rfl
    | some text => exact decide_eq_true (bounded text rfl)
  have isRevision : (decide (0 < revision) && decide (revision ≤ maxSafeInteger)) = true := by
    simp [positive, safe]
  have refined := @refineTurnMappings_congr record.toStoredThreadCoreV1
    { record.toStoredThreadCoreV1 with revision := revision, updatedAt := at_ } rfl rfl
    record.turnMappings 0 [] []
  simp only [StoredThreadRecordV1.accepted, storedThreadCoreV1Shape, storedThreadMetadataFieldsShape,
    refineThreadRecord, Bool.and_eq_true, decide_eq_true_eq] at accepted isRevision ⊢
  rw [refined]
  obtain ⟨⟨core, metadata⟩, issues⟩ := accepted
  refine ⟨⟨?_, ?_⟩, issues⟩
  · grind
  · grind

section Steps
variable {host : Host} {now : Timestamp} {hostThreadId : HostThreadId}

variable {E : Unit → Host → Prop}

/-- A store operation returns the record as it was, or stores the change that its schema accepts. -/
theorem wp_update {rejects preserve : Bool}
    {change : StoredThreadRecordV1 → Except StoreError (Option StoredThreadRecordV1)}
    {Q : StoredThreadRecordV1 → Host → Prop}
    (same : ∀ record, host.records.get? hostThreadId = some record → change record = .ok none → Q record host)
    (stored : ∀ current changed next, host.records.get? hostThreadId = some current →
      change current = .ok (some changed) →
      storedThreadRecordV1Schema { changed with
        revision := current.revision + 1
        updatedAt := if preserve then current.updatedAt else now } = .ok next →
      Q next { host with records := host.records.set hostThreadId next })
    (rejected : E () host) :
    (update rejects now hostThreadId change preserve).wp Q E host := by
  simp only [update, wp_bind, wp_get]
  split
  · exact rejected
  · next current found =>
    split
    · exact rejected
    · next unchanged =>
      split
      · exact rejected
      · exact same current found unchanged
    · next changed is =>
      split
      · exact rejected
      · next next accepted =>
        split
        · exact rejected
        · exact stored current changed next found is accepted

/-- What the projection of a snapshot leaves of the other records. -/
def Materialized (parent : StoredThreadRecordV1) (previous : Option StoredThreadRecordV1)
    (records records' : OrderedMap HostThreadId StoredThreadRecordV1) : Prop :=
  ∀ other, other ≠ parent.hostThreadId → records'.get? other = records.get? other ∨
    ∃ child, records'.get? other = some child ∧ child.subagent.isSome = true ∧
      (∀ record, records.get? other = some record → record.subagent = child.subagent) ∧
      (previous = none → child.subagent.any (·.parentHostThreadId = parent.hostThreadId) = true)

theorem materialize_parent (parent : StoredThreadRecordV1) (previous : Option StoredThreadRecordV1)
    (children : List StoredThreadRecordV1)
    (records : OrderedMap HostThreadId StoredThreadRecordV1) :
    (materialize parent previous children records).get? parent.hostThreadId =
      records.get? parent.hostThreadId := by
  induction children generalizing records with
  | nil => rfl
  | cons child rest ih =>
    rw [materialize, List.foldl_cons]
    split
    · next admitted =>
      simp only [materializes, Bool.and_eq_true, decide_eq_true_eq] at admitted
      exact (ih _).trans (get?_set_of_ne records child (Ne.symm admitted.1.1.1))
    · exact ih records

theorem materialized (parent : StoredThreadRecordV1) (previous : Option StoredThreadRecordV1)
    (children : List StoredThreadRecordV1)
    (records : OrderedMap HostThreadId StoredThreadRecordV1) :
    Materialized parent previous records (materialize parent previous children records) := by
  induction children generalizing records with
  | nil => exact fun _ _ => .inl rfl
  | cons child rest ih =>
    intro other ne
    rw [materialize, List.foldl_cons]
    split
    · next admitted =>
      simp only [materializes, Bool.and_eq_true, Bool.or_eq_true, decide_eq_true_eq,
        Option.all_eq_true] at admitted
      obtain ⟨⟨⟨-, isSubagent⟩, same⟩, isChild⟩ := admitted
      have here : Materialized parent previous records (records.set child.hostThreadId child) := by
        intro id _
        rw [get?_set]
        split
        · next is =>
          subst is
          refine .inr ⟨child, rfl, isSubagent, same, fun fresh => ?_⟩
          subst fresh
          simpa using isChild
        · exact .inl rfl
      rcases ih (records.set child.hostThreadId child) other ne with kept | ⟨later, is, isSome, was, below⟩
      · rcases here other ne with kept' | ⟨found, is, rest⟩
        · exact .inl (kept.trans kept')
        · exact .inr ⟨found, kept.trans is, rest⟩
      · refine .inr ⟨later, is, isSome, fun record stored => ?_, below⟩
        rcases here other ne with kept' | ⟨found, isFound, -, was', -⟩
        · exact was record (kept'.trans stored)
        · exact (was' record stored).trans (was found isFound)
    · exact ih records other ne

/-- The same Thread at another revision: everything but the metadata is kept. -/
def SameThread (record record' : StoredThreadRecordV1) : Prop :=
  record'.toStoredThreadCoreV1 = { record.toStoredThreadCoreV1 with
    revision := record'.revision, updatedAt := record'.updatedAt }

theorem SameThread.refl (record : StoredThreadRecordV1) : SameThread record record := rfl

variable {around : Surroundings} {answers : CommitAnswers} {record : StoredThreadRecordV1}
  {snapshot : HostThreadSnapshot} {previous : Option StoredThreadRecordV1}

section
variable (isStored : host.records.get? record.hostThreadId = some record)
include isStored

/-- A preview is written unless the write rejects. -/
theorem wp_updatePreview {rejects clearMissing : Bool} {turns : List ProjectedTurn}
    {Q : StoredThreadRecordV1 → Host → Prop}
    (accepted : record.accepted = true) (same : Q record host)
    (written : ∀ record', SameThread record record' →
      Q record' { host with records := host.records.set record.hostThreadId record' })
    (rejected : rejects = true ∨ maxSafeInteger ≤ record.revision → E () host) :
    (updatePreview around rejects record turns clearMissing).wp Q E host := by
  unfold updatePreview
  simp only
  split
  · exact same
  · simp only [update, wp_bind, wp_get, isStored]
    split
    · next is => cases is
    · next is =>
      split
      · next rejects => exact rejected (.inl rejects)
      · exact same
    · next changed is =>
      have isChanged : changed = { record with preview := around.firstUserMessagePreview turns } := by
        split at is
        · cases is
        · cases is
          rfl
      subst isChanged
      rcases Nat.lt_or_ge record.revision maxSafeInteger with safe | full
      case inr =>
        split
        · exact rejected (.inr full)
        · next record' parsed =>
          have core := (schema_core parsed).1
          have accepted' := (schema_core parsed).2
          have revised : record'.revision = record.revision + 1 := congrArg (·.revision) core
          simp only [StoredThreadRecordV1.accepted, storedThreadCoreV1Shape, Bool.and_eq_true,
            decide_eq_true_eq] at accepted'
          omega
      have next := accepted_preview accepted (around.preview_bounded turns)
        (Nat.succ_pos record.revision) safe record.updatedAt
      split
      · next issues refused => exact absurd refused (schema_accepts next issues)
      · next record' parsed =>
        split
        · next rejects => exact rejected (.inl rejects)
        · refine written record' ?_
          rw [SameThread, (schema_core parsed).1]

/-- The record of a Thread and its Turns after the projection of its snapshot. -/
theorem wp_projectSnapshot {Q : StoredThreadRecordV1 × List ProjectedTurn → Host → Prop}
    (accepted : record.accepted = true)
    (projected : ∀ records record', Materialized record previous host.records records →
      records.get? record.hostThreadId = some record' → SameThread record record' →
      snapshot.turns.length ≤ record.turnMappings.length →
      Q (record', List.zipWith (fun mapping turn => ⟨mapping.hostTurnId, turn⟩) record.turnMappings
        snapshot.turns) { host with records := records })
    (rejected : ∀ records, Materialized record previous host.records records →
      records.get? record.hostThreadId = some record →
      (answers.projection.rejects = true ∨ answers.updatePreview = true ∨
        record.turnMappings.length < snapshot.turns.length ∨ maxSafeInteger ≤ record.revision) →
      E () { host with records := records }) :
    (projectSnapshot around answers record snapshot previous).wp Q E host := by
  have spread := materialized record previous answers.projection.subagents host.records
  have kept := materialize_parent record previous answers.projection.subagents host.records
  simp only [projectSnapshot, projectExternalSnapshot, wp_bind, wp_modify]
  split
  · next stops =>
    refine rejected _ spread (kept.trans isStored) ?_
    simp only [Bool.or_eq_true, decide_eq_true_eq] at stops
    rcases stops with rejects | short
    · exact .inl rejects
    · exact .inr (.inr (.inl short))
  · next goes =>
    simp only [Bool.or_eq_true, decide_eq_true_eq, not_or, Nat.not_lt] at goes
    refine wp_updatePreview (kept.trans isStored) accepted ?_ (fun record' same => ?_) fun rejects => ?_
    · exact projected _ record spread (kept.trans isStored) (SameThread.refl record) goes.2
    · refine projected _ record' (fun other ne => ?_) (get?_set_self ..) same goes.2
      rw [get?_set_of_ne _ _ ne]
      exact spread other ne
    · refine rejected _ spread (kept.trans isStored) ?_
      rcases rejects with rejects | full
      · exact .inr (.inl rejects)
      · exact .inr (.inr (.inr full))

end

end Steps

end CodexHost.Guarantees.ThreadCommits
