import CodexHost.Guarantees.ThreadCommits
import CodexHost.Source.HostRuntime.ExternalThreadFork

/-!
# What a fork ends with

A fork that fails before its record is ready takes back everything that it made. What a later step
leaves when it rejects is not told here.
-/
namespace CodexHost.Guarantees.ForkOutcome
open Foundation Source.SharedContracts OrderedMap Command List Option
open Source.MappingStore hiding update createProvisional removeProvisional remove
open Source.HostRuntime.ExternalThreads
open Guarantees.ThreadCommits

/-- The Host Turns that the maps know are those of the merged mappings. -/
def Indexed (s : MergeState) : Prop :=
  ∀ hostTurnId, (s.byHost.get? hostTurnId).isSome = true → hostTurnId ∈ s.merged.map (·.hostTurnId)

theorem merge_new {s s' : MergeState} (indexed : Indexed s) {update : StoredTurnMappingV1}
    (new : update.hostTurnId ∉ s.merged.map (·.hostTurnId)) (is : s.merge update = .ok s') :
    s'.merged = s.merged ++ [update] ∧ Indexed s' := by
  have absent : s.byHost.get? update.hostTurnId = none :=
    not_isSome_iff_eq_none.mp fun known => new (indexed _ known)
  unfold MergeState.merge at is
  rw [absent] at is
  split at is
  · cases is
    refine ⟨rfl, fun hostTurnId known => ?_⟩
    simp only [MergeState.add, map_append, mem_append] at known ⊢
    rw [get?_set] at known
    split at known
    · next same => exact .inr (by simp [same])
    · exact .inl (indexed _ known)
  · next found _ => cases found
  · cases is

theorem merge_all {s s' : MergeState} (indexed : Indexed s) {updates : List StoredTurnMappingV1}
    (new : ((s.merged ++ updates).map (·.hostTurnId)).Nodup)
    (is : updates.foldlM MergeState.merge s = .ok s') : s'.merged = s.merged ++ updates := by
  induction updates generalizing s with
  | nil =>
    cases is
    rw [append_nil]
  | cons update rest ih =>
    rw [foldlM_cons] at is
    cases first : s.merge update with
    | error e =>
      rw [first] at is
      cases is
    | ok next =>
      rw [first] at is
      have absent : update.hostTurnId ∉ s.merged.map (·.hostTurnId) := by
        rw [map_append, map_cons, nodup_middle, nodup_cons] at new
        exact fun member => new.1 (mem_append_left _ member)
      obtain ⟨merged, indexed'⟩ := merge_new indexed absent first
      rw [ih indexed' (by rw [merged, append_assoc]; exact new) is, merged, append_assoc]
      rfl

/-- Mappings with Host Turns of their own are merged into none as they are. -/
theorem mergeMappings_nil {updates merged : List StoredTurnMappingV1}
    (unique : (updates.map (·.hostTurnId)).Nodup) (is : mergeMappings [] updates = .ok merged) :
    merged = updates := by
  unfold mergeMappings at is
  cases all : updates.foldlM MergeState.merge (MergeState.start []) with
  | error e =>
    rw [all] at is
    cases is
  | ok s =>
    rw [all] at is
    cases is
    have nothing : Indexed (MergeState.start []) := fun hostTurnId known => by cases known
    exact (merge_all nothing unique all).trans (nil_append _)

variable {nativeSessionRef : NativeSessionRef} {E : Unit → Host → Prop}

section Commit
variable {around : Surroundings} {host : Host}

/-- The mappings of a derived snapshot. -/
def derivedMappings (newTurnId : Nat → HostTurnId) (snapshot : HostThreadSnapshot) :
    List StoredTurnMappingV1 :=
  snapshot.turns.mapIdx fun index turn => ⟨newTurnId index, turn.nativeTurnRef, turn.checkpoint⟩

theorem derivedMappings_unique {newTurnId : Nat → HostTurnId}
    (distinct : Function.Injective newTurnId) (snapshot : HostThreadSnapshot) :
    ((derivedMappings newTurnId snapshot).map (·.hostTurnId)).Nodup := by
  have ids : (derivedMappings newTurnId snapshot).map (·.hostTurnId) =
      (List.range snapshot.turns.length).map newTurnId := by
    refine ext_getElem (by simp [derivedMappings]) fun index _ _ => ?_
    simp [derivedMappings]
  rw [ids]
  exact nodup_range.map distinct

/-- A provisional record that became ready with a snapshot. -/
def Committed (record : StoredThreadRecordV1) (nativeSessionRef : NativeSessionRef)
    (mappings : List StoredTurnMappingV1) (record' : StoredThreadRecordV1) : Prop :=
  record'.toStoredThreadCoreV1 = { record.toStoredThreadCoreV1 with
    state := .ready, nativeSessionRef := some nativeSessionRef, turnMappings := mappings
    revision := record'.revision, updatedAt := record'.updatedAt }

theorem commitReady_cases {record : StoredThreadRecordV1}
    {mappings : List StoredTurnMappingV1} (empty : record.turnMappings = [])
    (unique : (mappings.map (·.hostTurnId)).Nodup) {changed : Option StoredThreadRecordV1}
    (is : commitReady ⟨record.hostThreadId, nativeSessionRef, some mappings⟩ .constructed record =
      .ok changed) :
    changed = some { record with
      state := .ready, nativeSessionRef := some nativeSessionRef, turnMappings := mappings } := by
  unfold commitReady at is
  rw [empty, getD_some] at is
  cases merged : mergeMappings [] mappings with
  | error e =>
    rw [merged] at is
    cases is
  | ok all =>
    rw [merged] at is
    obtain rfl := mergeMappings_nil unique merged
    exact (Except.ok.inj is).symm

theorem wp_commitDerivedSnapshot {answers : CommitAnswers} {newTurnId : Nat → HostTurnId}
    {record : StoredThreadRecordV1}
    {snapshot : HostThreadSnapshot}
    {Q : StoredThreadRecordV1 × List ProjectedTurn → Host → Prop}
    (isStored : host.records.get? record.hostThreadId = some record)
    (safe : record.revision + 1 < maxSafeInteger) (distinct : Function.Injective newTurnId)
    (committed : ∀ records record' turns, Materialized record none host.records records →
      records.get? record.hostThreadId = some record' →
      Committed record nativeSessionRef (derivedMappings newTurnId snapshot) record' →
      Q (record', turns) { host with records := records })
    (refused : E () host)
    (rejected : ∀ records record', Materialized record none host.records records →
      records.get? record.hostThreadId = some record' → record'.state = .ready →
      (answers.projection.rejects = true ∨ answers.updatePreview = true) →
      E () { host with records := records }) :
    (commitDerivedSnapshot around answers newTurnId record nativeSessionRef snapshot).wp Q E host := by
  unfold commitDerivedSnapshot
  split
  · exact refused
  · next provisional =>
    rw [not_or, not_not, not_not] at provisional
    split
    · exact refused
    · simp only [wp_bind]
      have unique := derivedMappings_unique distinct snapshot
      refine wp_update (fun current found unchanged => ?_)
        (fun current changed next found is parsed => ?_) refused
      · obtain rfl : record = current := Option.some.inj (isStored.symm.trans found)
        cases commitReady_cases provisional.2 unique unchanged
      · obtain rfl : record = current := Option.some.inj (isStored.symm.trans found)
        obtain ⟨core, accepted⟩ := schema_core parsed
        cases commitReady_cases provisional.2 unique is
        have sameId : next.hostThreadId = record.hostThreadId := congrArg (·.hostThreadId) core
        have revised : next.revision = record.revision + 1 := congrArg (·.revision) core
        have spread {records : OrderedMap HostThreadId StoredThreadRecordV1}
            (grown : Materialized next none (host.records.set record.hostThreadId next) records) :
            Materialized record none host.records records := by
          intro other ne
          have := grown other (sameId.symm ▸ ne)
          rw [get?_set_of_ne _ _ ne, sameId] at this
          exact this
        refine wp_projectSnapshot (sameId.symm ▸ get?_set_self ..) accepted
          (fun records record' grown stored same _ => ?_) fun records grown stored rejects => ?_
        · refine committed records record' _ (spread grown) (sameId ▸ stored) ?_
          rw [Committed, same, core]
        · refine rejected records next (spread grown) (sameId ▸ stored) (congrArg (·.state) core) ?_
          rcases rejects with rejects | rejects | short | full
          · exact .inl rejects
          · exact .inr rejects
          · have mappings : next.turnMappings = derivedMappings newTurnId snapshot :=
              congrArg (·.turnMappings) core
            rw [mappings, derivedMappings, length_mapIdx] at short
            omega
          · omega

end Commit

variable {rejects : Bool} {opened : List Nat}

section CleanUp
variable {host : Host}

/-- A Session after a close that may reject. -/
def closed (rejects : Bool) (session : HarnessSession) (host : Host) : Host :=
  if rejects then host else { host with sessions := host.sessions.erase session.handle }

/-- A record after it was removed as provisional, which a ready record is not. -/
def unprovisioned (rejects : Bool) (hostThreadId : HostThreadId) (host : Host) : Host :=
  if (host.records.get? hostThreadId).any (·.state = .ready) || rejects then host
  else { host with records := host.records.delete hostThreadId }

theorem wp_bestEffort {command : HostCommand Unit} {Q : Unit → Host → Prop} :
    (bestEffort command).wp Q E host ↔ command.wp Q (fun _ host => Q () host) host := by
  simp only [bestEffort, wp_tryCatch, wp_pure]

theorem wp_close {session : HarnessSession} {Q : Unit → Host → Prop} :
    (bestEffort (close rejects session)).wp Q E host ↔ Q () (closed rejects session host) := by
  rw [wp_bestEffort, close, closed]
  cases rejects with
  | true => exact wp_throw ()
  | false => exact wp_modify _

theorem wp_removeProvisional {hostThreadId : HostThreadId} {Q : Unit → Host → Prop} :
    (bestEffort (removeProvisional rejects hostThreadId)).wp Q E host ↔
      Q () (unprovisioned rejects hostThreadId host) := by
  rw [wp_bestEffort, unprovisioned]
  simp only [removeProvisional, wp_bind, wp_get]
  split
  · next ready => rw [wp_throw, ready, Bool.true_or, if_pos rfl]
  · next provisional =>
    rw [Bool.eq_false_iff.mpr provisional, Bool.false_or]
    split
    · exact wp_throw ()
    · exact wp_set ..

/-- No step after the record is ready rejects. -/
def Settles (answers : ForkAnswers) : Prop :=
  answers.commit.projection.rejects = false ∧ answers.commit.updatePreview = false

/-- The record of the fork is not ready. -/
def NotReady (answers : ForkAnswers) (host : Host) : Prop :=
  ∀ record, host.records.get? answers.hostThreadId = some record → record.state ≠ .ready

/-- What a fork that fails leaves. -/
structure Failed (answers : ForkAnswers) (host host' : Host) : Prop where
  threads : ∀ other, host'.threads.get? other = host.threads.get? other
  kept : ∀ other record, host.records.get? other = some record → host'.records.get? other = some record
  sessions : answers.close = false → host'.sessions = host.sessions
  remain : ∀ handle ∈ host.sessions, handle ∈ host'.sessions
  records : answers.removeProvisional = false → Settles answers ∨ NotReady answers host' →
    ∀ other, host'.records.get? other = host.records.get? other

/-- A fork with the Sessions that it opened, before its clean-up. -/
structure Pending (answers : ForkAnswers) (opened : List Nat) (host host' : Host) : Prop where
  absent : host.records.get? answers.hostThreadId = none
  unloaded : host.threads.get? answers.hostThreadId = none
  threads : ∀ other, host'.threads.get? other = host.threads.get? other
  sessions : host'.sessions = opened ++ host.sessions
  kept : ∀ other record, host.records.get? other = some record → host'.records.get? other = some record
  records : Settles answers ∨ NotReady answers host' → NotReady answers host' ∧
    ∀ other, other ≠ answers.hostThreadId → host'.records.get? other = host.records.get? other

theorem Pending.removed {answers : ForkAnswers} {opened : List Nat} {host' : Host}
    (pending : Pending answers opened host host') :
    Pending answers opened host (host'.without answers.hostThreadId) := by
  refine ⟨pending.absent, pending.unloaded, fun other => ?_, pending.sessions, pending.kept,
    pending.records⟩
  rw [Host.without, get?_delete]
  split
  · next is => rw [is, pending.unloaded]
  · exact pending.threads other

theorem Pending.closed {answers : ForkAnswers} {session : HarnessSession} {host' : Host}
    (pending : Pending answers [session.handle] host host') :
    Pending answers (if answers.close then [session.handle] else []) host
      (closed answers.close session host') := by
  unfold ForkOutcome.closed
  cases answers.close with
  | true => exact pending
  | false =>
    refine ⟨pending.absent, pending.unloaded, pending.threads, ?_, pending.kept, pending.records⟩
    simp only [pending.sessions, singleton_append, erase_cons_head, Bool.false_eq_true, if_false, nil_append]

/-- The provisional record is the last to go. -/
theorem Pending.withdrawn {answers : ForkAnswers} {host' : Host}
    (pending : Pending answers opened host host') (closes : answers.close = false → opened = []) :
    Failed answers host (unprovisioned answers.removeProvisional answers.hostThreadId host') := by
  have rest : (unprovisioned answers.removeProvisional answers.hostThreadId host').threads =
      host'.threads ∧ (unprovisioned answers.removeProvisional answers.hostThreadId host').sessions =
      host'.sessions := by
    unfold unprovisioned
    split
    · exact ⟨rfl, rfl⟩
    · exact ⟨rfl, rfl⟩
  refine ⟨fun other => rest.1 ▸ pending.threads other, fun other record is => ?_, fun isClosed => ?_,
    fun handle isOpen => ?_, fun removes settles other => ?_⟩
  · unfold unprovisioned
    split
    · exact pending.kept other record is
    · refine (get?_delete_of_ne _ ?_).trans (pending.kept other record is)
      rintro rfl
      rw [pending.absent] at is
      cases is
  · rw [rest.2, pending.sessions, closes isClosed, nil_append]
  · rw [rest.2, pending.sessions]
    exact mem_append_right _ isOpen
  · have notReady : Settles answers ∨ NotReady answers host' := by
      refine settles.imp_right fun ends record is ready => ends record ?_ ready
      unfold unprovisioned
      rw [is, any_some, ready]
      exact is
    obtain ⟨notReady, same⟩ := pending.records notReady
    have provisional : (host'.records.get? answers.hostThreadId).any (·.state = .ready) = false := by
      cases is : host'.records.get? answers.hostThreadId with
      | none => rfl
      | some record =>
        exact decide_eq_false (notReady record is)
    unfold unprovisioned
    rw [provisional, removes]
    simp only [Bool.or_self, Bool.false_eq_true, if_false]
    rw [get?_delete]
    split
    · next is => rw [is, pending.absent]
    · next ne => exact same other ne

theorem Pending.cleaned {answers : ForkAnswers} {session : HarnessSession} {host' : Host}
    (pending : Pending answers [session.handle] host host') :
    Failed answers host (unprovisioned answers.removeProvisional answers.hostThreadId
      (ForkOutcome.closed answers.close session host')) :=
  pending.closed.withdrawn fun closes => by rw [closes]; rfl

end CleanUp

section Deriving
variable {around : Surroundings} {answers : ForkAnswers} {source : ExternalThread}
  {fork : DecodedThreadForkRequest} {host host' : Host} {record : StoredThreadRecordV1}
  {session : HarnessSession}

/-- The random ids of the fork are of nothing else. -/
structure Fresh (answers : ForkAnswers) (host : Host) : Prop where
  absent : host.records.get? answers.hostThreadId = none
  unloaded : host.threads.get? answers.hostThreadId = none
  request : ∀ record ∈ host.records.values, record.createRequestId ≠ answers.createRequestId
  parent : ∀ record ∈ host.records.values,
    record.subagent.any (·.parentHostThreadId = answers.hostThreadId) = false
  turns : Function.Injective answers.newTurnId

/-- A fork with the Sessions that it opened, while its record is provisional. -/
structure Started (answers : ForkAnswers) (source : ExternalThread) (opened : List Nat)
    (host host' : Host) (record : StoredThreadRecordV1) : Prop where
  fresh : Fresh answers host
  stored : host'.records.get? answers.hostThreadId = some record
  id : record.hostThreadId = answers.hostThreadId
  creating : record.state = .creating
  harness : record.harnessId = source.harnessId
  revision : record.revision ≤ 2
  others : ∀ other, other ≠ answers.hostThreadId → host'.records.get? other = host.records.get? other
  threads : host'.threads = host.threads
  sessions : host'.sessions = opened ++ host.sessions

theorem Started.pending (started : Started answers source opened host host' record) :
    Pending answers opened host host' := by
  refine ⟨started.fresh.absent, started.fresh.unloaded, fun other => by rw [started.threads],
    started.sessions, fun other found is => ?_, fun _ => ⟨fun found is => ?_, started.others⟩⟩
  · refine (started.others other ?_).trans is
    rintro rfl
    rw [started.fresh.absent] at is
    cases is
  · obtain rfl : record = found := Option.some.inj (started.stored.symm.trans is)
    rw [started.creating]
    exact nofun

/-- What a fork that succeeds leaves. -/
structure Succeeded (answers : ForkAnswers) (source : ExternalThread) (host host' : Host)
    (forked : Forked) : Prop where
  new : host.records.get? answers.hostThreadId = none
  stored : host'.records.get? answers.hostThreadId = some forked.derived.record
  ready : forked.derived.record.state = .ready
  derived : ∃ snapshot ref, answers.readSnapshot = .ok snapshot ∧
    forked.derived.record.turnMappings = derivedMappings answers.newTurnId snapshot ∧
    forked.derived.record.nativeSessionRef = some ref ∧
    forked.derived.session.initialState.nativeRef = some ref ∧
    source.record.nativeSessionRef.any (·.nativeSessionId ≠ ref.nativeSessionId) = true
  registered : host'.threads.get? answers.hostThreadId = some forked.derived
  opened : host'.sessions = forked.derived.session.handle :: host.sessions
  threads : ∀ other, other ≠ answers.hostThreadId → host'.threads.get? other = host.threads.get? other
  kept : ∀ other record, host.records.get? other = some record → host'.records.get? other = some record
  added : ∀ other record, other ≠ answers.hostThreadId → host'.records.get? other = some record →
    host.records.get? other = some record ∨
      record.subagent.any (·.parentHostThreadId = answers.hostThreadId) = true

theorem wp_persistEffectiveModel {snapshot : HostThreadSnapshot} {Q : StoredThreadRecordV1 → Host → Prop}
    (started : Started answers source [session.handle] host host' record) (first : record.revision ≤ 1)
    (persisted : ∀ host' record, Started answers source [session.handle] host host' record → Q record host')
    (rejected : E () host') :
    (persistEffectiveModel around answers source record snapshot).wp Q E host' := by
  unfold persistEffectiveModel
  split
  · exact rejected
  · next model selection _ _ =>
    split
    · exact persisted host' record started
    · split
      · exact rejected
      · next transportModelId _ =>
        refine wp_update (fun found is _ => ?_) (fun current changed next found is parsed => ?_) rejected
        · rw [started.id] at is
          obtain rfl : record = found := Option.some.inj (started.stored.symm.trans is)
          exact persisted host' record started
        · rw [started.id] at found
          obtain rfl : record = current := Option.some.inj (started.stored.symm.trans found)
          have isChanged : changed = { record with transportModelId := transportModelId } := by
            unfold setTransportModelId at is
            split at is
            · cases is
            · cases is
              rfl
          subst isChanged
          have core := (schema_core parsed).1
          have revised : next.revision = record.revision + 1 := congrArg (·.revision) core
          refine persisted _ next ⟨started.fresh, ?_, (congrArg (·.hostThreadId) core).trans started.id,
            (congrArg (·.state) core).trans started.creating,
            (congrArg (·.harnessId) core).trans started.harness, by omega, fun other ne => ?_,
            started.threads, started.sessions⟩
          · rw [started.id]
            exact get?_set_self ..
          · rw [started.id, get?_set_of_ne _ _ ne]
            exact started.others other ne
  · exact persisted host' record started

/-- The records that a projection over a fork keeps and adds. -/
theorem Started.spread (started : Started answers source opened host host' record)
    {records : OrderedMap HostThreadId StoredThreadRecordV1}
    (grown : Materialized record none host'.records records) :
    (∀ other found, host.records.get? other = some found → records.get? other = some found) ∧
      ∀ other found, other ≠ answers.hostThreadId → records.get? other = some found →
        host.records.get? other = some found ∨
          found.subagent.any (·.parentHostThreadId = answers.hostThreadId) = true := by
  constructor
  · intro other found is
    have ne : other ≠ answers.hostThreadId := by
      rintro rfl
      rw [started.fresh.absent] at is
      cases is
    have was := (started.others other ne).trans is
    rcases grown other (started.id.symm ▸ ne) with same | ⟨child, -, -, sameSubagent, below⟩
    · exact same.trans was
    · have isChild := below rfl
      rw [← sameSubagent found was, started.id] at isChild
      rw [started.fresh.parent found ((mem_values_iff _ _).mpr ⟨other, is⟩)] at isChild
      cases isChild
  · intro other found ne is
    rcases grown other (started.id.symm ▸ ne) with same | ⟨child, isChild, -, -, below⟩
    · exact .inl ((started.others other ne).symm.trans (same.symm.trans is))
    · obtain rfl : child = found := Option.some.inj (isChild.symm.trans is)
      exact .inr (started.id ▸ below rfl)

variable {Q : Except ExternalThreadRpcError Forked → Host → Prop}

theorem wp_deriveThread {mode : Option String}
    (started : Started answers source [session.handle] host host' record) (first : record.revision ≤ 1)
    (isSource : source.record.nativeSessionRef = some nativeSessionRef)
    (adapter : around.hasAdapter source.harnessId = true)
    (succeeded : ∀ forked host', Succeeded answers source host host' forked → Q (.ok forked) host')
    (failed : ∀ error host', Failed answers host host' → Q (.error error) host')
    (rejected : ∀ host', Pending answers [session.handle] host host' → E () host') :
    (deriveThread around answers source fork nativeSessionRef record session mode).wp Q E host' := by
  unfold deriveThread
  split
  · exact rejected host' started.pending
  · next derivedRef isRef =>
    split
    · exact rejected host' started.pending
    · next distinct =>
      simp only [wp_bind]
      cases read : answers.readSnapshot with
      | rejects => exact rejected host' started.pending
      | error error =>
        simp only [ask, wp_pure]
        simp only [wp_bind]
        rw [wp_close, wp_removeProvisional, started.id]
        exact failed _ _ started.pending.cleaned
      | ok snapshot =>
        simp only [ask, wp_pure, wp_bind]
        refine wp_persistEffectiveModel started first (fun host' record started => ?_)
          (rejected host' started.pending)
        have isStored : host'.records.get? record.hostThreadId = some record :=
          started.id.symm ▸ started.stored
        have safe : record.revision + 1 < maxSafeInteger := by
          have := started.revision
          unfold maxSafeInteger
          omega
        refine wp_commitDerivedSnapshot isStored safe started.fresh.turns
          (fun records ready turns grown stored committed => ?_) (rejected host' started.pending)
          fun records ready grown stored isReady rejects => rejected _ ?_
        · have isId : ready.hostThreadId = answers.hostThreadId :=
            (congrArg (·.hostThreadId) committed).trans started.id
          have harness : ready.harnessId = source.harnessId :=
            (congrArg (·.harnessId) committed).trans started.harness
          obtain ⟨kept, added⟩ := started.spread grown
          simp only [register, harness, adapter, wp_bind, Bool.not_true, Bool.false_eq_true,
            if_false, wp_get, wp_set, wp_pure, isId]
          refine succeeded _ _ ⟨started.fresh.absent, started.id ▸ stored,
            congrArg (·.state) committed, ⟨snapshot, derivedRef, read, congrArg (·.turnMappings) committed,
              congrArg (·.nativeSessionRef) committed, isRef, ?_⟩, get?_set_self ..,
            started.sessions, fun other ne => ?_, kept, added⟩
          · rw [isSource, any_some]
            exact decide_eq_true (Ne.symm distinct)
          · simp only [get?_set_of_ne _ _ ne, started.threads]
        · obtain ⟨kept, added⟩ := started.spread grown
          refine ⟨started.fresh.absent, started.fresh.unloaded, fun other => by rw [started.threads],
            started.sessions, kept, fun settles => ?_⟩
          rcases settles with settles | provisional
          · rcases rejects with rejects | rejects
            · cases settles.1.symm.trans rejects
            · cases settles.2.symm.trans rejects
          · exact absurd isReady (provisional ready (started.id ▸ stored))

/-- What a Session answers changes nothing of the Host. -/
theorem wp_ask {α : Type} {answer : Answer α} {Q : Except HarnessErrorCode α → Host → Prop} (answered : ∀ value, Q value host) (rejected : E () host) :
    (ask answer).wp Q E host := by
  cases answer with
  | ok value => exact answered (.ok value)
  | error error => exact answered (.error error)
  | rejects => exact rejected

theorem wp_inheritSourceModel {Q : Unit → Host → Prop}
    (inherited : Q () host) : (inheritSourceModel around answers source session).wp Q E host := by
  unfold inheritSourceModel
  split
  · exact inherited
  · rw [wp_bestEffort]
    exact (wp_bind ..).mpr (wp_ask (fun _ => inherited) inherited)

theorem wp_inheritSourcePermissionMode {Q : Option String → Host → Prop} (inherited : ∀ mode, Q mode host) :
    (inheritSourcePermissionMode answers source session).wp Q E host := by
  unfold inheritSourcePermissionMode
  split
  · exact inherited none
  · next mode _ =>
    split
    · exact inherited none
    · simp only [wp_tryCatch, wp_bind, wp_pure]
      exact wp_ask (fun _ => inherited _) (inherited none)

theorem wp_forkInto (started : Started answers source [] host host' record) (first : record.revision ≤ 1)
    (isSource : source.record.nativeSessionRef = some nativeSessionRef)
    (adapter : around.hasAdapter source.harnessId = true)
    (succeeded : ∀ forked host', Succeeded answers source host host' forked → Q (.ok forked) host')
    (failed : ∀ error host', Failed answers host host' → Q (.error error) host') :
    (forkInto around answers source fork nativeSessionRef record).wp Q E host' := by
  have withdrawn := started.pending.withdrawn fun _ => rfl
  unfold forkInto
  simp only [wp_bind, wp_tryCatch]
  cases opens : answers.opened with
  | rejects =>
    simp only [openSession, wp_throw, wp_pure, wp_bind]
    rw [wp_removeProvisional, started.id]
    exact failed _ _ withdrawn
  | error error =>
    simp only [openSession, wp_pure, wp_bind]
    rw [wp_removeProvisional, started.id]
    exact failed _ _ withdrawn
  | ok value =>
    obtain ⟨capabilities, initialState⟩ := value
    simp only [openSession, wp_pure, wp_bind, wp_get, wp_set]
    have running : Started answers source
        [(⟨host'.nextHandle, capabilities, initialState⟩ : HarnessSession).handle] host
        { host' with
          sessions := host'.nextHandle :: host'.sessions, nextHandle := host'.nextHandle + 1 }
        record := by
      refine ⟨started.fresh, started.stored, started.id, started.creating, started.harness,
        started.revision, started.others, started.threads, ?_⟩
      rw [started.sessions]
      rfl
    refine wp_inheritSourceModel (wp_inheritSourcePermissionMode fun mode => ?_)
    rw [wp_tryCatch]
    refine wp_deriveThread running first isSource adapter succeeded failed fun host' pending => ?_
    simp only [remove, wp_bind, wp_modify]
    rw [wp_close, wp_removeProvisional, started.id]
    exact failed _ _ pending.removed.cleaned

theorem wp_createProvisional {input : CreateProvisionalThreadInput} {Q : StoredThreadRecordV1 → Host → Prop}
    (fresh : ∀ record ∈ host.records.values, record.createRequestId ≠ input.createRequestId)
    (created : ∀ record, record.toStoredThreadCoreV1 =
        (provisionalRecord around.now input).toStoredThreadCoreV1 →
      Q record { host with records := host.records.set input.hostThreadId record })
    (rejected : E () host) : (createProvisional rejects around.now input).wp Q E host := by
  have unused : host.records.values.find? (·.createRequestId = input.createRequestId) = none := by
    rw [find?_eq_none]
    exact fun record member same => fresh record member (of_decide_eq_true same)
  simp only [createProvisional, wp_bind, wp_get, unused]
  split
  · exact rejected
  · split
    · exact rejected
    · split
      · exact rejected
      · next record parsed =>
        have core := (schema_core parsed).1
        have isId : record.hostThreadId = input.hostThreadId := congrArg (·.hostThreadId) core
        rw [isId]
        exact created record core

theorem forkOrigin_ok {origin : StoredTurnMappingV1 × NativeSessionRef}
    (is : forkOrigin around source fork = .ok origin) :
    source.record.nativeSessionRef = some origin.2 ∧ around.hasAdapter source.harnessId = true := by
  unfold forkOrigin at is
  grind

theorem wp_forkFrom (fresh : Fresh answers host)
    (succeeded : ∀ forked host', Succeeded answers source host host' forked → Q (.ok forked) host')
    (failed : ∀ error host', Failed answers host host' → Q (.error error) host') :
    (forkFrom around answers source fork).wp Q E host := by
  have untouched : Failed answers host host :=
    ⟨fun _ => rfl, fun _ _ is => is, fun _ => rfl, fun _ isOpen => isOpen, fun _ _ _ => rfl⟩
  unfold forkFrom
  split
  · exact failed _ _ untouched
  · next boundary nativeSessionRef is =>
    obtain ⟨isSource, adapter⟩ := forkOrigin_ok is
    simp only [wp_bind, wp_tryCatch, wp_pure]
    refine wp_createProvisional fresh.request (fun record core => ?_) (failed _ _ untouched)
    have started : Started answers source [] host
        { host with records := host.records.set answers.hostThreadId record } record := by
      refine ⟨fresh, get?_set_self .., congrArg (·.hostThreadId) core,
        congrArg (·.state) core, congrArg (·.harnessId) core, ?_, fun other ne => ?_, rfl, rfl⟩
      · rw [show record.revision = 1 from congrArg (·.revision) core]
        decide
      · exact get?_set_of_ne _ _ ne
    exact wp_forkInto started (Nat.le_of_eq (congrArg (·.revision) core)) isSource adapter succeeded failed

end Deriving

/-- What a fork starts from: the source as it is, or as a refresh leaves it. -/
def forkStart (around : Surroundings) (answers : ForkAnswers) (source : ExternalThread)
    (fork : DecodedThreadForkRequest) : HostCommand (Except ExternalThreadRpcError ExternalThread) :=
  match forkRefusal around source fork with
  | some error => return .error error
  | none => if source.running then return .ok source else refresh around answers.refresh source

/-- A refresh answers; it does not reject. -/
theorem refresh_answers (around : Surroundings) (answers : RefreshAnswers) (thread : ExternalThread)
    (host : Host) : ∃ refreshed host', (refresh around answers thread).exec host =
      (.ok refreshed, host') := by
  unfold refresh
  rw [exec_tryCatch]
  split
  · next refreshed host' _ => exact ⟨refreshed, host', rfl⟩
  · next host' _ => exact ⟨_, host', exec_pure ..⟩

theorem forkStart_answers (around : Surroundings) (answers : ForkAnswers) (source : ExternalThread)
    (fork : DecodedThreadForkRequest) (host : Host) : ∃ start host',
      (forkStart around answers source fork).exec host = (.ok start, host') ∧
        (source.running = true → host' = host) := by
  unfold forkStart
  split
  · next error _ => exact ⟨.error error, host, exec_pure .., fun _ => rfl⟩
  · split
    · exact ⟨.ok source, host, exec_pure .., fun _ => rfl⟩
    · next idle =>
      obtain ⟨start, host', is⟩ := refresh_answers around answers.refresh source host
      exact ⟨start, host', is, fun running => absurd running idle⟩

theorem fork_exec (around : Surroundings) (answers : ForkAnswers) (source : ExternalThread)
    (fork : DecodedThreadForkRequest) (host : Host) :
    (executeExternalThreadFork around answers source fork).exec host =
      match (forkStart around answers source fork).exec host with
      | (.ok (.error error), host') => (.ok (.error error), host')
      | (.ok (.ok source), host') => (forkFrom around answers source fork).exec host'
      | (.error rejection, host') => (.error rejection, host') := by
  unfold executeExternalThreadFork forkStart
  cases forkRefusal around source fork with
  | some error => rfl
  | none =>
    simp only
    split
    · rfl
    · rw [exec_bind]
      obtain ⟨refreshed, host', is⟩ := refresh_answers around answers.refresh source host
      rw [is]
      cases refreshed with
      | error error => rfl
      | ok source => rfl

/-- What a fork leaves of the Host in which it started. -/
def ForkSettles (answers : ForkAnswers) (source : ExternalThread) (host host' : Host) :
    Except ExternalThreadRpcError Forked → Prop
  | .ok forked => Succeeded answers source host host' forked
  | .error _ => Failed answers host host'

/-- The Threads and the Sessions that the Host had before stay as they were. -/
structure Undisturbed (host host' : Host) : Prop where
  records : ∀ other record, host.records.get? other = some record → host'.records.get? other = some record
  threads : ∀ other thread, host.threads.get? other = some thread → host'.threads.get? other = some thread
  sessions : ∀ handle ∈ host.sessions, handle ∈ host'.sessions

theorem ForkSettles.undisturbed {answers : ForkAnswers} {source : ExternalThread} {host host' : Host}
    {result : Except ExternalThreadRpcError Forked}
    (settles : ForkSettles answers source host host' result) (fresh : Fresh answers host) :
    Undisturbed host host' := by
  cases result with
  | error error =>
    exact ⟨settles.kept, fun other thread is => (settles.threads other).trans is, settles.remain⟩
  | ok forked =>
    refine ⟨settles.kept, fun other thread is => ?_, fun handle isOpen => ?_⟩
    · refine (settles.threads other ?_).trans is
      rintro rfl
      rw [fresh.unloaded] at is
      cases is
    · rw [settles.opened]
      exact mem_cons_of_mem _ isOpen

/-- A fork answers; only the refresh of a source that is not running touches what was there. -/
def ForkAtomic (around : Surroundings) (answers : ForkAnswers) (source : ExternalThread)
    (fork : DecodedThreadForkRequest) (host : Host) : Prop :=
  ∃ start host₀ result host', (forkStart around answers source fork).exec host = (.ok start, host₀) ∧
    (source.running = true → host₀ = host) ∧
    (executeExternalThreadFork around answers source fork).exec host = (.ok result, host') ∧
    Undisturbed host₀ host' ∧
    match start with
    | .error error => result = .error error ∧ host' = host₀
    | .ok source => ForkSettles answers source host₀ host' result

/-- A fork makes one ready Thread over a Session of its own, or, when it fails before its record is
ready and the clean-up does not reject, leaves the Host as it was after the refresh. -/
theorem fork_atomic (around : Surroundings) (answers : ForkAnswers) (source : ExternalThread)
    (fork : DecodedThreadForkRequest) (host : Host)
    (fresh : Fresh answers ((forkStart around answers source fork).exec host).2) :
    ForkAtomic around answers source fork host := by
  obtain ⟨start, host₀, isStart, unchanged⟩ := forkStart_answers around answers source fork host
  have isFork := fork_exec around answers source fork host
  rw [isStart] at fresh isFork
  cases start with
  | error error =>
    exact ⟨.error error, host₀, .error error, host₀, isStart, unchanged, isFork,
      ⟨fun _ _ is => is, fun _ _ is => is, fun _ isOpen => isOpen⟩, rfl, rfl⟩
  | ok source' =>
    have settles : (forkFrom around answers source' fork).wp
        (fun result host' => ForkSettles answers source' host₀ host' result) (fun _ _ => False) host₀ :=
      wp_forkFrom fresh (fun _ _ done => done) fun _ _ failed => failed
    unfold Command.wp at settles
    cases isRun : (forkFrom around answers source' fork).exec host₀ with
    | mk result host' =>
      rw [isRun] at settles
      cases result with
      | error rejection => exact settles.elim
      | ok result =>
        exact ⟨.ok source', host₀, result, host', isStart, unchanged, isFork.trans isRun,
          settles.undisturbed fresh, settles⟩

/-- POSIX paths, transport ids that name no selection, and histories without user messages. -/
def plainSurroundings : Surroundings where
  now := 1
  isAbsolute := fun path => "/".toList.isPrefixOf path.toList
  decodeExternalTransportSelection := fun _ _ => .ok none
  encodeExternalTransportSelection := fun _ _ => .error ()
  firstUserMessagePreview := fun _ => none
  preview_bounded := fun _ _ is => nomatch is
  hasAdapter := fun harnessId => harnessId = "test"
  subagentRunning := fun _ => false

def plainTurn (session key : String) : HostTurnSnapshot :=
  ⟨⟨"test", session, key⟩, some ⟨"test", session, key, none⟩, ""⟩

def plainRecord : StoredThreadRecordV1 where
  revision := 1
  hostThreadId := "source"
  createRequestId := "request"
  harnessId := "test"
  state := .ready
  nativeSessionRef := some ⟨"test", "native", none⟩
  importSourceRef := none
  cwd := "/work"
  title := ""
  archived := false
  transportModelId := "model"
  ephemeral := false
  historyMode := .paginated
  forkSource := none
  subagent := none
  turnMappings := [⟨"turn", ⟨"test", "native", "a"⟩, some ⟨"test", "native", "a", none⟩⟩]
  createdAt := 0
  updatedAt := 0
  unknown := []
  toStoredThreadMetadataFields := noThreadMetadata

def plainCapabilities : HarnessSessionCapabilities := ⟨true, true, true, false, true, true, true⟩

def plainState (nativeSessionId : String) : HarnessSessionState :=
  ⟨some ⟨"test", nativeSessionId, none⟩, none, none, none⟩

def plainSource : ExternalThread where
  session := ⟨0, plainCapabilities, plainState "native"⟩
  record := plainRecord
  sessionId := "source"
  state := plainState "native"
  requestedModel := none
  requestedThinkingOptionId := none
  requestedPermissionModeId := none
  transportModelId := "model"
  thread := ⟨plainRecord, [], "source", false⟩
  turns := []
  running := false
  steeredTurnIds := []

def plainHost : Host :=
  ⟨OrderedMap.empty.set "source" plainRecord, OrderedMap.empty.set "source" plainSource, .empty, [0], 1⟩

def plainTurnId (index : Nat) : HostTurnId := String.ofList (List.replicate (index + 1) 'x')

/-- Every step succeeds; the refresh reads a Turn that the record does not have. -/
def plainAnswers : ForkAnswers where
  refresh := ⟨none, none, .ok ⟨[plainTurn "native" "a", plainTurn "native" "b"], none⟩, none, .rejects,
    plainTurnId, ⟨false, ⟨[], false⟩, false⟩⟩
  hostThreadId := "fork"
  createRequestId := "fork-request"
  newTurnId := plainTurnId
  createProvisional := false
  opened := .ok (plainCapabilities, plainState "derived")
  modelSelect := .ok ()
  permissionModeSelect := .ok ()
  readSnapshot := .ok ⟨[plainTurn "derived" "a"], none⟩
  setTransportModelId := false
  commit := ⟨false, ⟨[], false⟩, false⟩
  close := false
  removeProvisional := false

def plainFork : DecodedThreadForkRequest :=
  ⟨some "turn", none, none, none, none, none, false, none, none⟩

theorem fork_atomic_plain : ForkAtomic plainSurroundings plainAnswers plainSource plainFork plainHost := by
  refine fork_atomic plainSurroundings plainAnswers plainSource plainFork plainHost
    ⟨by decide +kernel, by decide +kernel, by decide +kernel, by decide +kernel, fun index other is => ?_⟩
  have := congrArg String.length is
  simpa [plainAnswers, plainTurnId] using this

/-- The refresh of the source stores a Turn that the native history has and the record has not. -/
theorem fork_refreshes_source :
    ((executeExternalThreadFork plainSurroundings plainAnswers plainSource plainFork).exec
      plainHost).2.records.get? "source" ≠ plainHost.records.get? "source" := by
  intro same
  have := congrArg (Option.map fun record => record.turnMappings.length) same
  revert this
  decide +kernel

end CodexHost.Guarantees.ForkOutcome
