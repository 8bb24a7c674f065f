import CodexHost.Foundation.LatestValue
import CodexHost.Guarantees.TurnReconciliation

/-!
# The measurements that calls leave in a record

Each field of a Thread's measurements is the latest value of the calls for its Session, of those whose
Turn the Thread still has; the order of the calls only decides between values of one time. Nothing else
of the record changes.
-/
namespace CodexHost.Guarantees
open Foundation Source.SharedContracts Source.MappingStore Command List

inductive MeasurementField where
  | outputTokensPerSecond
  | timeToFirstOutputMs
  deriving DecidableEq, Repr

def MeasurementField.of : MeasurementField → UsageMeasurementsSnapshot → Option UsageMeasurement
  | .outputTokensPerSecond, values => values.outputTokensPerSecond
  | .timeToFirstOutputMs, values => values.timeToFirstOutputMs

def retains (record : StoredThreadRecordV1) (measurement : UsageMeasurement) : Bool :=
  measurement.turnId ∈ record.turnMappings.map (·.hostTurnId)

section Merge
variable {record : StoredThreadRecordV1} {ref : NativeSessionRef} {values : UsageMeasurementsSnapshot}

/-- The record with the merged measurements. -/
def measured (record : StoredThreadRecordV1) (ref : NativeSessionRef)
    (values : UsageMeasurementsSnapshot) : StoredThreadRecordV1 :=
  { record with usageMeasurements := mergeMeasurements record ref values }

theorem mergeMeasurement_eq (retained : List HostTurnId) (prior given : Option UsageMeasurement) :
    mergeMeasurement retained prior given = (given.filter (·.turnId ∈ retained)).toList.foldl (latest (·.at_))
        (prior.filter (·.turnId ∈ retained)) := by
  unfold mergeMeasurement
  cases given.filter (·.turnId ∈ retained) with
  | none => rfl
  | some value => rfl

/-- Each field is merged by itself. -/
theorem field_measured (field : MeasurementField) :
    field.of (priorMeasurements (measured record ref values) ref) =
      mergeMeasurement (record.turnMappings.map (·.hostTurnId))
        (field.of (priorMeasurements record ref)) (field.of values) := by
  unfold priorMeasurements measured mergeMeasurements
  simp only
  split
  · next none =>
    split at none
    · next empty =>
      rw [UsageMeasurementsSnapshot.mk.injEq] at empty
      cases field with
      | outputTokensPerSecond => exact empty.1.symm
      | timeToFirstOutputMs => exact empty.2.symm
    · cases none
  · next prior is =>
    split at is
    · cases is
    · cases is
      rw [if_pos rfl]
      cases field <;> rfl

theorem mergeMeasurement_retained {retained : List HostTurnId} {prior given : Option UsageMeasurement}
    {value : UsageMeasurement} (is : mergeMeasurement retained prior given = some value) :
    value.turnId ∈ retained := by
  have kept : ∀ {measurement : Option UsageMeasurement},
      measurement.filter (·.turnId ∈ retained) = some value → value.turnId ∈ retained :=
    fun is => by simpa using (Option.filter_eq_some_iff.mp is).2
  unfold mergeMeasurement at is
  cases isGiven : given.filter (·.turnId ∈ retained) with
  | none =>
    rw [isGiven] at is
    exact kept is
  | some newer =>
    simp only [isGiven] at is
    split at is
    · cases is
      exact kept isGiven
    · exact kept is

end Merge

/-- How a call for a stored Thread ends. -/
inductive SaveOutcome (id : HostThreadId) (ref : NativeSessionRef) (values : UsageMeasurementsSnapshot)
    (current : StoredThreadRecordV1) (w : World) : Except StoreError StoredThreadRecordV1 → World → Prop
  | invalid (error : StoreError) : SaveOutcome id ref values current w (.error error) w
  | stale (apart : current.state ≠ .ready ∨ current.nativeSessionRef ≠ some ref) :
      SaveOutcome id ref values current w (.ok current) w
  | kept (same : current = measured current ref values) :
      SaveOutcome id ref values current w (.ok current) w
  | saved (w' : World) (session : current.nativeSessionRef = some ref)
      (store : w'.state.store = { w.state.store with
        records := w.state.store.records.set id (measured current ref values) }) :
      SaveOutcome id ref values current w (.ok (measured current ref values)) w'
  | unsaved (error : StoreError) (w' : World) (session : current.nativeSessionRef = some ref)
      (store : w'.state.store = w.state.store) : SaveOutcome id ref values current w (.error error) w'

section Call
variable {id : HostThreadId} {ref : NativeSessionRef} {values : UsageMeasurementsSnapshot}
  {current : StoredThreadRecordV1} {now : Timestamp}

theorem wp_saveUsageMeasurements {w : World} (stored : w.state.store.records.get? id = some current) :
    (saveUsageMeasurements now id ref values).wp
      (fun record => SaveOutcome id ref values current w (.ok record))
      (fun error => SaveOutcome id ref values current w (.error error)) w := by
  unfold saveUsageMeasurements
  split
  · simp only [wp_bind, wp_readStore, stored]
    split
    · next apart => exact .stale apart
    · next ready =>
      rw [not_or, not_not, not_not] at ready
      split
      · next same =>
        refine .kept ?_
        unfold measured
        rw [← same]
      · simp only [wp_bind]
        apply wp_writeMetadataFile
        · intro w' _ _ written
          simp only [wp_modifyStore, wp_pure]
          refine .saved _ ready.2 ?_
          rw [written.store]
          rfl
        · intro w' error left _ _ _ kept
          exact .unsaved error w' ready.2 kept.store
  · exact .invalid _

variable {parseUrl : UrlParser} {turn : Turn} {w : StoreWorld}

section
variable (is : turn.operation = .saveUsageMeasurements id ref values)
include is

theorem take_save
    (stored : w.store.records.get? id = some current) :
    ∃ result w', SaveOutcome id ref values current ⟨turn.fault, w⟩ result w' ∧
      turn.take parseUrl w = (result.map fun _ => (), w'.state) := by
  have spec := @wp_saveUsageMeasurements id ref values current turn.now ⟨turn.fault, w⟩ stored
  unfold Turn.take
  rw [is]
  simp only [QueuedOperation.body, QueuedOperation.asUpdate, exec_bind]
  rw [wp_iff] at spec
  rcases outcome : (saveUsageMeasurements turn.now id ref values).exec ⟨turn.fault, w⟩ with
    ⟨error | record, w'⟩
  · exact ⟨.error error, w', spec.2 error w' outcome, rfl⟩
  · exact ⟨.ok record, w', spec.1 record w' outcome, rfl⟩

/-- A call with another Session than the Thread has changes nothing. -/
theorem take_stale
    (stored : w.store.records.get? id = some current) (apart : current.nativeSessionRef ≠ some ref) :
    (turn.take parseUrl w).2 = w := by
  obtain ⟨result, w', outcome, took⟩ := @take_save id ref values current parseUrl turn w is stored
  rw [took]
  cases outcome with
  | invalid | stale | kept => rfl
  | saved _ session => exact absurd session apart
  | unsaved error _ session => exact absurd session apart

theorem take_fails
    (fails : (turn.take parseUrl w).1 ≠ .ok ()) : (turn.take parseUrl w).2.store = w.store := by
  cases stored : w.store.records.get? id with
  | none =>
    have missing : (saveUsageMeasurements turn.now id ref values).wp (fun _ w' => w'.state.store = w.store)
        (fun _ w' => w'.state.store = w.store) ⟨turn.fault, w⟩ := by
      unfold saveUsageMeasurements
      split
      · simp only [wp_bind, wp_readStore, stored]
        exact rfl
      · exact rfl
    have after := wp_after missing
    unfold Turn.take
    rw [is]
    simp only [QueuedOperation.body, QueuedOperation.asUpdate, exec_bind]
    rcases outcome : (saveUsageMeasurements turn.now id ref values).exec ⟨turn.fault, w⟩ with
      ⟨error | record, w'⟩ <;> rw [outcome] at after <;> exact after
  | some current =>
    obtain ⟨result, w', outcome, took⟩ := @take_save id ref values current parseUrl turn w is stored
    rw [took] at fails ⊢
    cases outcome with
    | invalid | stale | kept => rfl
    | saved => exact absurd rfl fails
    | unsaved _ _ _ store => exact store

end

theorem take_elsewhere {other : HostThreadId} (apart : other ≠ id)
    (is : turn.operation = .saveUsageMeasurements other ref values) :
    (turn.take parseUrl w).2.store.records.get? id = w.store.records.get? id := by
  by_cases fails : (turn.take parseUrl w).1 = .ok ()
  · cases stored : w.store.records.get? other with
    | none =>
      exfalso
      revert fails
      unfold Turn.take
      rw [is]
      simp only [QueuedOperation.body, QueuedOperation.asUpdate, saveUsageMeasurements]
      split
      · simp [exec_bind, readStore, stored]
      · simp
    | some current =>
      obtain ⟨result, w', outcome, took⟩ := @take_save other ref values current parseUrl turn w is stored
      rw [took]
      cases outcome with
      | invalid | stale | kept => rfl
      | saved _ _ store =>
        rw [store]
        exact OrderedMap.get?_set_of_ne _ _ apart.symm
      | unsaved _ _ _ store => rw [store]
  · rw [take_fails is fails]

end Call

/-- Calls one after the other, for this Thread and its Session or for others, with any clock and any
failing step: the values of those for the Thread and the Session that return. -/
inductive SaveRun (parseUrl : UrlParser) (id : HostThreadId) (ref : NativeSessionRef)
    (start : StoreWorld) : List UsageMeasurementsSnapshot → StoreWorld → Prop
  | nil : SaveRun parseUrl id ref start [] start
  | call {calls : List UsageMeasurementsSnapshot} {w : StoreWorld}
      (before : SaveRun parseUrl id ref start calls w) (turn : Turn) (values : UsageMeasurementsSnapshot)
      (is : turn.operation = .saveUsageMeasurements id ref values)
      (returns : (turn.take parseUrl w).1 = .ok ()) :
      SaveRun parseUrl id ref start (calls ++ [values]) (turn.take parseUrl w).2
  | other {calls : List UsageMeasurementsSnapshot} {w : StoreWorld}
      (before : SaveRun parseUrl id ref start calls w) (turn : Turn) (otherId : HostThreadId)
      (otherRef : NativeSessionRef) (values : UsageMeasurementsSnapshot)
      (is : turn.operation = .saveUsageMeasurements otherId otherRef values)
      (apart : otherId ≠ id ∨ otherRef ≠ ref ∨ (turn.take parseUrl w).1 ≠ .ok ()) :
      SaveRun parseUrl id ref start calls (turn.take parseUrl w).2

/-- The values that count for a field: what the record had for the Session, and those of the calls,
of the Turns that the Thread still has. -/
def given (record : StoredThreadRecordV1) (ref : NativeSessionRef)
    (calls : List UsageMeasurementsSnapshot) (field : MeasurementField) : List UsageMeasurement :=
  ((field.of (priorMeasurements record ref)).toList ++ calls.filterMap field.of).filter (retains record)

section Run
variable {parseUrl : UrlParser} {id : HostThreadId} {ref : NativeSessionRef} {start w : StoreWorld}
  {calls : List UsageMeasurementsSnapshot} {record final : StoredThreadRecordV1}

theorem toList_filter {α : Type} (held : Option α) (p : α → Bool) :
    (held.filter p).toList = held.toList.filter p := by
  cases held with
  | none => rfl
  | some value => cases passes : p value <;> simp [Option.filter, passes]

theorem given_snoc (values : UsageMeasurementsSnapshot) (field : MeasurementField) :
    given record ref (calls ++ [values]) field =
      given record ref calls field ++ ((field.of values).filter (retains record)).toList := by
  unfold given
  have last : [values].filterMap field.of = (field.of values).toList := by
    cases is : field.of values <;> simp [is]
  rw [filterMap_append, ← append_assoc, filter_append, toList_filter, last]

theorem filter_of_all {α : Type} {held : Option α} {p : α → Bool} (all : held.all p) :
    held.filter p = held := by
  cases held with
  | none => rfl
  | some value =>
    rw [Option.all_some] at all
    simp [Option.filter, all]

/-- What the calls so far have left of the record. -/
structure Keeps (record : StoredThreadRecordV1) (ref : NativeSessionRef)
    (calls : List UsageMeasurementsSnapshot) (final : StoredThreadRecordV1) : Prop where
  same : final = { record with usageMeasurements := final.usageMeasurements }
  untouched : calls = [] → final = record
  latest : ∀ field : MeasurementField, IsLatest (·.at_) (given record ref calls field)
    ((field.of (priorMeasurements final ref)).filter (retains record))
  own : calls ≠ [] → (∀ usage, final.usageMeasurements = some usage → usage.nativeSessionRef = ref) ∧
    ∀ field : MeasurementField, (field.of (priorMeasurements final ref)).all (retains record)

theorem Keeps.refl (record : StoredThreadRecordV1) (ref : NativeSessionRef) : Keeps record ref [] record where
  same := rfl
  untouched := fun _ => rfl
  latest field := by
    unfold given
    rw [filterMap_nil, append_nil, ← toList_filter]
    cases (field.of (priorMeasurements record ref)).filter (retains record) with
    | none => exact rfl
    | some value => exact ⟨[], [], rfl, by simp, by simp⟩
  own := fun none => absurd rfl none

theorem Keeps.call (keeps : Keeps record ref calls final) (values : UsageMeasurementsSnapshot) :
    Keeps record ref (calls ++ [values]) (measured final ref values) := by
  have turns : final.turnMappings = record.turnMappings := by rw [keeps.same]
  have merged (field : MeasurementField) : field.of (priorMeasurements (measured final ref values) ref) =
        mergeMeasurement (record.turnMappings.map (·.hostTurnId))
          (field.of (priorMeasurements final ref)) (field.of values) := by
    rw [← turns]
    exact field_measured field
  have own (field : MeasurementField) :
      (field.of (priorMeasurements (measured final ref values) ref)).all (retains record) := by
    rw [merged, Option.all_eq_true]
    intro value is
    exact decide_eq_true (mergeMeasurement_retained is)
  refine ⟨?_, ?_, fun field => ?_, fun _ => ⟨fun usage is => ?_, own⟩⟩
  · unfold measured
    rw [keeps.same]
  · simp
  · rw [filter_of_all (own field), merged, mergeMeasurement_eq, given_snoc]
    exact (keeps.latest field).foldl _
  · unfold measured mergeMeasurements at is
    simp only at is
    split at is
    · cases is
    · cases is
      rfl

/-- Every run of calls leaves the record so. -/
theorem SaveRun.keeps (run : SaveRun parseUrl id ref start calls w)
    (stored : start.store.records.get? id = some record)
    (session : record.nativeSessionRef = some ref) (ready : record.state = .ready) :
    ∃ final, w.store.records.get? id = some final ∧ Keeps record ref calls final := by
  induction run with
  | nil => exact ⟨record, stored, Keeps.refl record ref⟩
  | call before turn values is returns ih =>
    obtain ⟨final, there, keeps⟩ := ih
    obtain ⟨result, w', outcome, took⟩ := @take_save id ref values final parseUrl turn _ is there
    rw [took] at returns ⊢
    have isReady : final.state = .ready ∧ final.nativeSessionRef = some ref := by
      rw [keeps.same]
      exact ⟨ready, session⟩
    cases outcome with
    | invalid | unsaved => cases returns
    | stale apart => exact absurd isReady (not_and_or.mpr apart)
    | kept same => exact ⟨final, there, same ▸ keeps.call values⟩
    | saved _ _ store =>
      refine ⟨measured final ref values, ?_, keeps.call values⟩
      rw [store]
      exact OrderedMap.get?_set_self _ _ _
  | other before turn otherId otherRef values is apart ih =>
    obtain ⟨final, there, keeps⟩ := ih
    refine ⟨final, ?_, keeps⟩
    by_cases elsewhere : otherId = id
    · subst elsewhere
      by_cases stale : otherRef = ref
      · rw [take_fails is ((apart.resolve_left (· rfl)).resolve_left (· stale))]
        exact there
      · rw [take_stale is there]
        · exact there
        · rw [keeps.same, session]
          exact fun same => stale (Option.some.inj same).symm
    · rw [take_elsewhere elsewhere is]
      exact there

end Run

/-- Over every sequence of calls, each field has the latest value of the calls for the Session that
return, of those whose Turn is retained; nothing else of the record has changed. A call for another
Session changes nothing. -/
theorem measurements_latest (parseUrl : UrlParser) (id : HostThreadId) (ref : NativeSessionRef)
    (start : StoreWorld) (record : StoredThreadRecordV1)
    (stored : start.store.records.get? id = some record) (ready : record.state = .ready)
    (session : record.nativeSessionRef = some ref) (calls : List UsageMeasurementsSnapshot)
    (w : StoreWorld) (run : SaveRun parseUrl id ref start calls w) :
    (∃ final, w.store.records.get? id = some final ∧
      final = { record with usageMeasurements := final.usageMeasurements } ∧
      (calls = [] → final = record) ∧
      (calls ≠ [] → (∀ usage, final.usageMeasurements = some usage → usage.nativeSessionRef = ref) ∧
        ∀ field : MeasurementField, IsLatest (·.at_) (given record ref calls field)
          (final.usageMeasurements.bind (field.of ·.values)))) ∧
    ∀ (turn : Turn) (otherRef : NativeSessionRef) (values : UsageMeasurementsSnapshot),
      turn.operation = .saveUsageMeasurements id otherRef values → otherRef ≠ ref →
        (turn.take parseUrl w).2 = w := by
  obtain ⟨final, there, keeps⟩ := run.keeps stored session ready
  refine ⟨⟨final, there, keeps.same, keeps.untouched, fun some => ?_⟩, ?_⟩
  · obtain ⟨own, all⟩ := keeps.own some
    refine ⟨own, fun field => ?_⟩
    have held : field.of (priorMeasurements final ref) =
        final.usageMeasurements.bind (field.of ·.values) := by
      unfold priorMeasurements
      cases isUsage : final.usageMeasurements with
      | none => cases field <;> rfl
      | some usage => simp [own usage isUsage]
    have latest := keeps.latest field
    rwa [filter_of_all (all field), held] at latest
  · intro turn otherRef values is apart
    refine take_stale is there ?_
    rw [keeps.same, session]
    exact fun same => apart (Option.some.inj same).symm

def lateValues : UsageMeasurementsSnapshot := ⟨some ⟨7, "t1", 2⟩, none⟩

/-- Values of an earlier time, which arrive later. -/
def earlyValues : UsageMeasurementsSnapshot := ⟨some ⟨9, "t1", 1⟩, some ⟨4, "t1", 1⟩⟩

def saveTurn (values : UsageMeasurementsSnapshot) : Turn :=
  ⟨0, none, .saveUsageMeasurements "a" sessionOne values⟩

def savedWorld : StoreWorld :=
  ((saveTurn earlyValues).take (fun _ => none)
    ((saveTurn lateValues).take (fun _ => none) readyWorld).2).2

theorem measurements_latest_sample : ∃ final, savedWorld.store.records.get? "a" = some final ∧
    ∀ field : MeasurementField, IsLatest (·.at_)
      (given readyRecord sessionOne [lateValues, earlyValues] field)
      (final.usageMeasurements.bind (field.of ·.values)) := by
  have run : SaveRun (fun _ => none) "a" sessionOne readyWorld [lateValues, earlyValues] savedWorld :=
    .call (.call .nil (saveTurn lateValues) lateValues rfl (by decide +kernel))
      (saveTurn earlyValues) earlyValues rfl (by decide +kernel)
  obtain ⟨⟨final, there, -, -, latest⟩, -⟩ := measurements_latest (fun _ => none) "a" sessionOne
    readyWorld readyRecord (by decide +kernel) (by decide +kernel) (by decide +kernel) _ _ run
  exact ⟨final, there, (latest (by simp)).2⟩

end CodexHost.Guarantees
