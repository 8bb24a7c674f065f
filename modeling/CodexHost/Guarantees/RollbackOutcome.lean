import CodexHost.Foundation.Selection
import CodexHost.Guarantees.ForkOutcome
import CodexHost.Source.HostRuntime.ExternalThreadRollback

/-!
# What a rollback ends with

A rollback that fails before the record is replaced closes the Session that it opened and changes
nothing else. Rejections that its code does not catch are not told here.
-/
namespace CodexHost.Guarantees.RollbackOutcome
open Foundation Source.SharedContracts OrderedMap Command
open Source.MappingStore hiding update createProvisional removeProvisional remove
open Source.HostRuntime.ExternalThreads
open Guarantees.ThreadCommits Guarantees.ForkOutcome

section Replacement
variable {around : Surroundings} {answers : CommitAnswers} {host : Host} {hostThreadId : HostThreadId}
  {snapshot : HostThreadSnapshot}

/-- The record moved to another native Session with these mappings. -/
structure Moved (current : StoredThreadRecordV1) (nativeSessionRef : NativeSessionRef)
    (mappings : List StoredTurnMappingV1) (record : StoredThreadRecordV1) : Prop where
  id : record.hostThreadId = current.hostThreadId
  harness : record.harnessId = current.harnessId
  ref : record.nativeSessionRef = some nativeSessionRef
  mappings : record.turnMappings = mappings

/-- The stored record of a Thread is under its own id, of a registered Harness, and its revision can
still count two changes. -/
def Replaceable (around : Surroundings) (hostThreadId : HostThreadId) (host : Host) : Prop :=
  ∀ record, host.records.get? hostThreadId = some record → record.hostThreadId = hostThreadId ∧
    around.hasAdapter record.harnessId = true ∧ record.revision + 1 < maxSafeInteger

variable {nativeSessionRef : NativeSessionRef}

theorem retained_length {record : StoredThreadRecordV1}
    (short : snapshot.turns.length ≤ record.turnMappings.length) :
    (retainedMappings record snapshot).length = snapshot.turns.length := by
  rw [retainedMappings, List.length_zipWith]
  omega

variable {record : StoredThreadRecordV1} {Q : StoredThreadRecordV1 × List ProjectedTurn → Host → Prop}
  {E : Unit → Host → Prop} (replaceable : Replaceable around record.hostThreadId host)
  (settles : answers.projection.rejects = false ∧ answers.updatePreview = false)
  (moved : ∀ current records record' turns, host.records.get? record.hostThreadId = some current →
    records.get? record.hostThreadId = some record' →
    Moved current nativeSessionRef (retainedMappings record snapshot) record' →
    Q (record', turns) { host with records := records })
  (refused : E () host)
include replaceable settles moved refused

theorem wp_moves {change : StoredThreadRecordV1 → Except StoreError (Option StoredThreadRecordV1)}
    {previous : Option StoredThreadRecordV1}
    (isChange : ∀ current changed, change current = .ok changed → ∃ forkSource, changed = some { current with
        nativeSessionRef := some nativeSessionRef, turnMappings := retainedMappings record snapshot
        forkSource := forkSource })
    (short : snapshot.turns.length ≤ record.turnMappings.length) :
    (update answers.replace around.now record.hostThreadId change false >>= fun nextRecord =>
      projectSnapshot around answers nextRecord snapshot previous).wp Q E host := by
  rw [wp_bind]
  refine wp_update (fun current _ is => ?_) (fun current changed next found is parsed => ?_) refused
  · obtain ⟨forkSource, same⟩ := isChange current none is
    cases same
  · obtain ⟨own, adapter, safe⟩ := replaceable current found
    obtain ⟨forkSource, same⟩ := isChange current _ is
    cases same
    obtain ⟨core, accepted⟩ := schema_core parsed
    have isId : next.hostThreadId = record.hostThreadId := (congrArg (·.hostThreadId) core).trans own
    have isMappings : next.turnMappings = retainedMappings record snapshot :=
      congrArg (·.turnMappings) core
    have revised : next.revision = current.revision + 1 := congrArg (·.revision) core
    refine wp_projectSnapshot (isId.symm ▸ get?_set_self ..) accepted
      (fun records record _ stored same _ => ?_) fun records _ _ rejects => ?_
    · refine moved current records record _ found (isId ▸ stored) ⟨?_, ?_, ?_, ?_⟩
      · exact (congrArg (·.hostThreadId) same).trans (congrArg (·.hostThreadId) core)
      · exact (congrArg (·.harnessId) same).trans (congrArg (·.harnessId) core)
      · exact (congrArg (·.nativeSessionRef) same).trans (congrArg (·.nativeSessionRef) core)
      · exact (congrArg (·.turnMappings) same).trans isMappings
    · rcases rejects with rejects | rejects | few | full
      · exact absurd (settles.1.symm.trans rejects) nofun
      · exact absurd (settles.2.symm.trans rejects) nofun
      · rw [isMappings, retained_length short] at few
        omega
      · omega

theorem wp_commitLastTurnRollback :
    (commitLastTurnRollback around answers record nativeSessionRef snapshot).wp Q E host := by
  unfold commitLastTurnRollback
  split
  · exact refused
  · next input is =>
    have isInput : input.turnMappings = retainedMappings record snapshot ∧
        input.nativeSessionRef = nativeSessionRef ∧
        snapshot.turns.length + 1 = record.turnMappings.length := by
      unfold lastTurnRollbackInput at is
      grind
    refine wp_moves replaceable settles moved refused
      (fun current changed changes => ⟨current.forkSource, ?_⟩) (by omega)
    unfold replaceReadySessionAfterLastTurn at changes
    split at changes
    · cases changes
    · cases changes
      rw [isInput.1, isInput.2.1]

theorem wp_commitForkRollback {source : StoredThreadRecordV1} :
    (commitForkRollback around answers record source nativeSessionRef snapshot).wp Q E host := by
  unfold commitForkRollback
  split
  · exact refused
  · next input is =>
    have isInput : input.turnMappings = retainedMappings record snapshot ∧
        input.nativeSessionRef = nativeSessionRef ∧
        snapshot.turns.length < record.turnMappings.length := by
      unfold forkRollbackInput at is
      grind
    refine wp_moves replaceable settles moved refused
      (fun current changed changes => ⟨some input.forkSource, ?_⟩) (by omega)
    unfold replaceReadySession at changes
    split at changes
    · cases changes
    · cases changes
      rw [isInput.1, isInput.2.1]

end Replacement

variable {numTurns : Nat}

section Sessions
variable {around : Surroundings} {answers : RollbackAnswers} {current : ExternalThread}
  {session : HarnessSession} {host host' : Host}

theorem retire_records (parentId : HostThreadId) (descendants : List (HostThreadId × Bool))
    (host : Host) : (descendants.foldl (Host.retire parentId) host).records = host.records := by
  induction descendants generalizing host with
  | nil => rfl
  | cons descendant rest ih =>
    rw [List.foldl_cons, ih]
    unfold Host.retire
    split
    · rfl
    · split
      · split
        · rfl
        · rfl
      · rfl

theorem closed_records (rejects : Bool) (session : HarnessSession) (host : Host) :
    (closed rejects session host).records = host.records ∧
      (closed rejects session host).threads = host.threads := by
  unfold closed
  split
  · exact ⟨rfl, rfl⟩
  · exact ⟨rfl, rfl⟩

/-- A rollback that finds its Thread loaded and idle replaces its Session. -/
theorem wp_replace {replaceAnswers : ReplaceAnswers} {record : StoredThreadRecordV1}
    {thread : ThreadValue} {turns : List ProjectedTurn} {restoredState : Option HarnessSessionState}
    {Q : ExternalThread → Host → Prop} {E : Unit → Host → Prop} (idle : current.running = false)
    (loaded : host.threads.get? current.id = some current) (isId : record.hostThreadId = current.id)
    (adapter : around.hasAdapter record.harnessId = true)
    (retires : replaceAnswers.retireSubagents = false)
    (replaced : ∀ thread host', thread.session = session → thread.record = record →
      host'.threads.get? current.id = some thread → host'.records = host.records → Q thread host') :
    (replace around replaceAnswers current record session thread turns restoredState).wp Q E host := by
  simp only [replace, wp_bind, wp_get, idle, loaded, isId, ne_eq, not_true,
    Bool.false_eq_true, or_self, if_false]
  rw [wp_close]
  simp only [wp_modify, retires, Bool.false_eq_true, if_false, register, adapter,
    Bool.not_true, wp_bind, wp_get, wp_set, wp_pure, isId]
  refine replaced _ _ rfl rfl (get?_set_self ..) ?_
  simp only [retire_records, (closed_records _ _ _).1]

/-- What a rollback that fails leaves of the Host in which it started. -/
structure Restored (answers : RollbackAnswers) (host host' : Host) : Prop where
  records : host'.records = host.records
  threads : host'.threads = host.threads
  sessions : answers.close = false → host'.sessions = host.sessions
  remain : ∀ handle ∈ host.sessions, handle ∈ host'.sessions

/-- What a rollback that replaces the Session leaves: the Thread over the new Session, whose native
Session is none of the others, with the Turns that it retains. -/
structure Replaced (answers : RollbackAnswers) (current : ExternalThread) (others : List String)
    (retainedCount : Nat) (host host' : Host) (value : ThreadValue) : Prop where
  replaced : ∃ thread snapshot ref, host'.threads.get? current.id = some thread ∧
    host'.records.get? current.id = some thread.record ∧ value.record = thread.record ∧
    thread.session.handle = host.nextHandle ∧ thread.session.initialState.nativeRef = some ref ∧
    thread.record.nativeSessionRef = some ref ∧ answers.readSnapshot = .ok snapshot ∧
    snapshot.turns.length = retainedCount ∧ retainedCount < current.record.turnMappings.length ∧
    thread.record.turnMappings = retainedMappings current.record snapshot ∧
    ref.nativeSessionId ∉ others

/-- The rejections that a rollback is not told about here: of a configuration or a read of the new
Session, and of a step after the record is replaced. -/
structure Answering (answers : RollbackAnswers) : Prop where
  model : answers.modelSelect ≠ .rejects
  thinking : answers.thinkingSelect ≠ .rejects
  permissionMode : answers.permissionModeSelect ≠ .rejects
  read : answers.readSnapshot ≠ .rejects
  projection : answers.commit.projection.rejects = false
  preview : answers.commit.updatePreview = false
  retire : answers.replace.retireSubagents = false

/-- The Host after the new Session was opened. -/
def opened (host : Host) : Host :=
  { host with sessions := host.nextHandle :: host.sessions, nextHandle := host.nextHandle + 1 }

variable {Q : Except ExternalThreadRpcError ThreadValue → Host → Prop} {E : Unit → Host → Prop}

theorem wp_abandon (isSession : session.handle = host.nextHandle) {error : ExternalThreadRpcError}
    (restored : ∀ host', Restored answers host host' → Q (.error error) host') :
    (abandon answers session error).wp Q E (opened host) := by
  simp only [abandon, wp_bind]
  rw [wp_close, wp_pure]
  refine restored _ ⟨(closed_records _ _ _).1, (closed_records _ _ _).2, fun closes => ?_,
    fun handle isOpen => ?_⟩
  · rw [closed, closes, isSession]
    simp [opened]
  · unfold closed
    split
    · exact List.mem_cons_of_mem _ isOpen
    · simpa [opened, isSession] using isOpen

theorem wp_answered {α : Type} {answer : Answer α} {Q : Except HarnessErrorCode α → Host → Prop}
    {E : Unit → Host → Prop} (answers : answer ≠ .rejects) (answered : ∀ error, Q (.error error) host)
    (valued : ∀ value, answer = .ok value → Q (.ok value) host) : (ask answer).wp Q E host := by
  cases answer with
  | ok value => exact valued value rfl
  | error error => exact answered error
  | rejects => exact absurd rfl answers

theorem wp_restorePart {isSet selects : Bool} {message : String} {answer : Answer Unit}
    {Q : Option ExternalThreadRpcError → Host → Prop} {E : Unit → Host → Prop}
    (answers : answer ≠ .rejects) (done : ∀ result, Q result host) :
    (restorePart isSet selects message answer).wp Q E host := by
  unfold restorePart
  split
  · exact done none
  · split
    · exact done _
    · simp only [wp_bind]
      exact wp_answered answers (fun _ => done _) fun _ _ => done none

theorem wp_restoreCurrentConfiguration {configuration : HarnessSessionState}
    {Q : Option ExternalThreadRpcError → Host → Prop} {E : Unit → Host → Prop}
    (answering : Answering answers) (done : ∀ result, Q result host) :
    (restoreCurrentConfiguration answers session configuration).wp Q E host := by
  simp only [restoreCurrentConfiguration, wp_bind]
  refine wp_restorePart answering.model fun result => ?_
  cases result with
  | some error => exact done _
  | none =>
    simp only [wp_bind]
    refine wp_restorePart answering.thinking fun result => ?_
    cases result with
    | some error => exact done _
    | none => exact wp_restorePart answering.permissionMode done

/-- The Thread of a rollback, loaded and idle, and its record. -/
structure Ready (around : Surroundings) (current : ExternalThread) (host : Host) : Prop where
  idle : current.running = false
  loaded : host.threads.get? current.id = some current
  replaceable : Replaceable around current.id host

/-- The native Sessions that a fork may not be. -/
def forkedFrom (derived source : ExternalThread) : List String :=
  (source.record.nativeSessionRef.toList ++ derived.record.nativeSessionRef.toList).map (·.nativeSessionId)

section Prepared
variable (answering : Answering answers) (ready : Ready around current host)
  (isSession : session.handle = host.nextHandle)
  (restored : ∀ error host', Restored answers host host' → Q (.error error) host')
include answering ready isSession restored

theorem wp_commitReplacement {others : List String} {restoredState : Option HarnessSessionState}
    {commit : HostCommand (StoredThreadRecordV1 × List ProjectedTurn)} {ref : NativeSessionRef}
    {snapshot : HostThreadSnapshot} (isRef : session.initialState.nativeRef = some ref) (read : answers.readSnapshot = .ok snapshot)
    (short : snapshot.turns.length < current.record.turnMappings.length)
    (distinct : ref.nativeSessionId ∉ others)
    (commits : ∀ {Q : StoredThreadRecordV1 × List ProjectedTurn → Host → Prop} {E : Unit → Host → Prop},
      (∀ stored records record turns, host.records.get? current.id = some stored →
        records.get? current.id = some record →
        Moved stored ref (retainedMappings current.record snapshot) record →
        Q (record, turns) { opened host with records := records }) → E () (opened host) →
      commit.wp Q E (opened host))
    (replaced : ∀ value host', Replaced answers current others snapshot.turns.length host host' value →
      Q (.ok value) host') :
    (commitReplacement around answers current session restoredState commit).wp Q E (opened host) := by
  simp only [commitReplacement, wp_bind, wp_tryCatch, wp_pure]
  refine commits (fun stored records record turns found is moved => ?_)
    (wp_abandon isSession (restored _))
  obtain ⟨own, adapter, -⟩ := ready.replaceable stored found
  refine wp_replace ready.idle ready.loaded (moved.id.trans own) (moved.harness ▸ adapter)
    answering.retire fun thread host' isThreadSession isRecord registered records => ?_
  refine replaced _ host' ⟨thread, snapshot, ref, registered, ?_, isRecord.symm, ?_, ?_, ?_, read, rfl,
    short, ?_, distinct⟩
  · rw [records, isRecord]
    exact is
  · rw [isThreadSession, isSession]
  · rw [isThreadSession, isRef]
  · rw [isRecord, moved.ref]
  · rw [isRecord, moved.mappings]

theorem wp_prepareLastTurn
    (replaced : ∀ value host', Replaced answers current [] (current.record.turnMappings.length - 1) host
      host' value → Q (.ok value) host') :
    (prepareLastTurn around answers current session).wp Q E (opened host) := by
  unfold prepareLastTurn
  split
  · exact wp_abandon isSession (restored _)
  · next finalNativeRef isRef =>
    rw [wp_bind]
    refine wp_restoreCurrentConfiguration answering fun result => ?_
    cases result with
    | some error => exact wp_abandon isSession (restored _)
    | none =>
      simp only [wp_bind]
      refine wp_answered answering.read (fun error => wp_abandon isSession (restored _))
        fun snapshot read => ?_
      simp only
      split
      · exact wp_abandon isSession (restored _)
      · next exact_ =>
        rw [ne_eq, not_not] at exact_
        split
        · exact wp_abandon isSession (restored _)
        · refine wp_commitReplacement answering ready isSession restored
            (Option.filter_eq_some_iff.mp isRef).1 read (by omega) List.not_mem_nil
            (fun moved refused => ?_) fun value host' done => ?_
          · have replaceable : Replaceable around current.record.hostThreadId (opened host) :=
              ready.replaceable
            exact wp_commitLastTurnRollback replaceable ⟨answering.projection, answering.preview⟩ moved refused
          · refine replaced value host' ?_
            rw [← exact_, Nat.add_sub_cancel]
            exact done

theorem wp_prepareFork {source : ExternalThread} {retainedCount : Nat}
    {sourceNativeRef : NativeSessionRef} (isSource : source.record.nativeSessionRef = some sourceNativeRef)
    (short : retainedCount < current.record.turnMappings.length)
    (replaced : ∀ value host',
      Replaced answers current (forkedFrom current source) retainedCount host host' value →
      Q (.ok value) host') :
    (prepareFork around answers current source retainedCount sourceNativeRef session).wp Q E
      (opened host) := by
  unfold prepareFork
  split
  · exact wp_abandon isSession (restored _)
  · next finalNativeRef isRef =>
    rw [wp_bind]
    refine wp_answered answering.read (fun error => wp_abandon isSession (restored _))
      fun snapshot read => ?_
    simp only
    split
    · exact wp_abandon isSession (restored _)
    · next exact_ =>
      rw [ne_eq, not_not] at exact_
      subst exact_
      have distinct : finalNativeRef.nativeSessionId ∉ forkedFrom current source := by
        have := (Option.filter_eq_some_iff.mp isRef).2
        rw [forkedFrom, isSource]
        cases isDerived : current.record.nativeSessionRef with
        | none => simpa [isDerived] using this
        | some derivedRef =>
          simp only [isDerived, Option.all_some, Bool.and_eq_true, decide_eq_true_eq] at this
          simpa using ⟨this.1, Ne.symm this.2⟩
      refine wp_commitReplacement answering ready isSession restored
        (Option.filter_eq_some_iff.mp isRef).1 read short distinct (fun moved refused => ?_) replaced
      have replaceable : Replaceable around current.record.hostThreadId (opened host) :=
        ready.replaceable
      exact wp_commitForkRollback replaceable ⟨answering.projection, answering.preview⟩ moved refused

end Prepared

theorem restored_refl (answers : RollbackAnswers) (host : Host) : Restored answers host host :=
  ⟨rfl, rfl, fun _ => rfl, fun _ isOpen => isOpen⟩

theorem wp_openFor {message : String}
    {prepare : HarnessSession → HostCommand (Except ExternalThreadRpcError ThreadValue)}
    (restored : ∀ error host', Restored answers host host' → Q (.error error) host')
    (prepared : ∀ session, session.handle = host.nextHandle → (prepare session).wp Q E (opened host)) :
    (openFor answers message prepare).wp Q E host := by
  simp only [openFor, wp_bind, wp_tryCatch, wp_pure]
  cases answers.opened with
  | rejects => exact restored _ host (restored_refl answers host)
  | error error => exact restored _ host (restored_refl answers host)
  | ok value =>
    exact prepared _ rfl

/-- The Thread of a route. -/
def routeThread : RollbackRoute → ExternalThread
  | .lastTurn current => current
  | .fork derived _ _ => derived

/-- The native Sessions that the new one on a route may not be. -/
def routeOthers : RollbackRoute → List String
  | .lastTurn _ => []
  | .fork derived source _ => forkedFrom derived source

/-- What a rollback on its route ends with: nothing to do, another Session, or an error. -/
inductive RollbackSettles (around : Surroundings) (answers : RollbackAnswers) (numTurns : Nat)
    (host : Host) : RollbackRoute → Except ExternalThreadRpcError ThreadValue → Host → Prop where
  | done (derived source : ExternalThread) (forkSource : ForkSource)
      (excludes : source.running = true ∨
        derived.record.turnMappings.length < source.record.turnMappings.length)
      (one : numTurns = 1) :
      RollbackSettles around answers numTurns host (.fork derived source forkSource) (.ok derived.thread) host
  | replaced (route : RollbackRoute) (value : ThreadValue) (retainedCount : Nat) (host' : Host)
      (isReplaced : Replaced answers (routeThread route) (routeOthers route) retainedCount host host' value) :
      RollbackSettles around answers numTurns host route (.ok value) host'
  | restored (route : RollbackRoute) (error : ExternalThreadRpcError) (host' : Host)
      (isRestored : Restored answers host host') :
      RollbackSettles around answers numTurns host route (.error error) host'

theorem forkPlan_cases {derived source : ExternalThread} {forkSource : ForkSource}
    (positive : 0 < numTurns) {plan : ForkPlan}
    (is : forkPlan around derived source forkSource numTurns = .ok plan) :
    match plan with
    | .done => numTurns = 1 ∧ (source.running = true ∨
        derived.record.turnMappings.length < source.record.turnMappings.length)
    | .fork retainedCount sourceNativeRef =>
      retainedCount < derived.record.turnMappings.length ∧
        source.record.nativeSessionRef = some sourceNativeRef := by
  unfold forkPlan at is
  simp only at is
  have counted : retainedCount derived source numTurns = derived.record.turnMappings.length - numTurns ∨
      (source.running = true ∨ derived.record.turnMappings.length < source.record.turnMappings.length) ∧
      retainedCount derived source numTurns = derived.record.turnMappings.length - numTurns + 1 := by
    unfold retainedCount
    simp only
    split
    · next excludes =>
      simp only [Bool.or_eq_true, decide_eq_true_eq] at excludes
      exact .inr ⟨excludes, rfl⟩
    · exact .inl (Int.add_zero _)
  split at is
  · cases is
  · split at is
    · next same =>
      cases is
      rcases counted with counted | ⟨excludes, counted⟩
      · omega
      · exact ⟨by omega, excludes⟩
    · next differs =>
      split at is
      · cases is
      · next retained =>
        simp only [Bool.or_eq_true, decide_eq_true_eq, not_or, Int.not_lt] at retained
        split at is
        · cases is
        · next isSource =>
          split at is
          · cases is
            exact ⟨by omega, isSource⟩
          · cases is

theorem wp_rollbackOn (positive : 0 < numTurns) (answering : Answering answers)
    (route : RollbackRoute) (ready : Ready around (routeThread route) host) :
    (rollbackOn around answers numTurns route).wp
      (RollbackSettles around answers numTurns host route) (fun _ _ => False) host := by
  have restored (error : ExternalThreadRpcError) (host' : Host) (is : Restored answers host host') :
      RollbackSettles around answers numTurns host route (.error error) host' := .restored _ _ _ is
  unfold rollbackOn
  cases route with
  | lastTurn current =>
    simp only [executeCurrentLastTurnRollback]
    split
    · exact restored _ _ (restored_refl answers host)
    · split
      · exact restored _ _ (restored_refl answers host)
      · refine wp_openFor restored fun session isSession =>
          wp_prepareLastTurn answering ready isSession restored fun value host' is => ?_
        exact .replaced _ _ _ _ is
  | fork derived source forkSource =>
    simp only
    split
    · exact restored _ _ (restored_refl answers host)
    · next plan =>
      obtain ⟨one, excludes⟩ := forkPlan_cases positive plan
      exact .done derived source forkSource excludes one
    · next retainedCount sourceNativeRef plan =>
      refine wp_openFor restored fun session isSession =>
        wp_prepareFork answering ready isSession restored (forkPlan_cases positive plan).2
          (forkPlan_cases positive plan).1 fun value host' is => ?_
      exact .replaced _ _ _ _ is

end Sessions

section Refresh
variable {around : Surroundings} {host : Host} {record : StoredThreadRecordV1}
  {snapshot : HostThreadSnapshot} {thread : ExternalThread}

/-- Records are stored under their own ids. -/
def Owned (records : OrderedMap HostThreadId StoredThreadRecordV1) : Prop :=
  ∀ hostThreadId record, records.get? hostThreadId = some record → record.hostThreadId = hostThreadId

theorem Owned.set {records : OrderedMap HostThreadId StoredThreadRecordV1} (owned : Owned records)
    {hostThreadId : HostThreadId} (own : record.hostThreadId = hostThreadId) :
    Owned (records.set hostThreadId record) := by
  intro other found is
  rw [get?_set] at is
  split at is
  · next same =>
    cases is
    rw [own, same]
  · exact owned other found is

theorem Owned.materialize {records : OrderedMap HostThreadId StoredThreadRecordV1}
    (owned : Owned records) (parent : StoredThreadRecordV1)
    (previous : Option StoredThreadRecordV1) (children : List StoredThreadRecordV1) :
    Owned (materialize parent previous children records) := by
  induction children generalizing records with
  | nil => exact owned
  | cons child rest ih =>
    rw [CodexHost.Source.HostRuntime.ExternalThreads.materialize, List.foldl_cons]
    split
    · exact ih (owned.set rfl)
    · exact ih owned

/-- A store operation that keeps the id of the record. -/
theorem wp_update_owned {rejects preserve : Bool} {hostThreadId : HostThreadId}
    {change : StoredThreadRecordV1 → Except StoreError (Option StoredThreadRecordV1)}
    {Q : StoredThreadRecordV1 → Host → Prop} {E : Unit → Host → Prop} (owned : Owned host.records)
    (keeps : ∀ current changed, change current = .ok (some changed) →
      changed.hostThreadId = current.hostThreadId)
    (updated : ∀ record records, record.hostThreadId = hostThreadId → Owned records →
      Q record { host with records := records })
    (rejected : E () host) :
    (update rejects around.now hostThreadId change preserve).wp Q E host := by
  refine wp_update (fun record is _ => updated record host.records (owned _ _ is) owned)
    (fun current changed next found is parsed => ?_) rejected
  have own : next.hostThreadId = hostThreadId :=
    ((congrArg (·.hostThreadId) (schema_core parsed).1).trans (keeps current changed is)).trans
      (owned _ _ found)
  exact updated next _ own (owned.set own)

theorem wp_projectSnapshot_owned {answers : CommitAnswers} {previous : Option StoredThreadRecordV1}
    {Q : StoredThreadRecordV1 × List ProjectedTurn → Host → Prop} {E : Unit → Host → Prop}
    (owned : Owned host.records)
    (projected : ∀ record' turns records, record'.hostThreadId = record.hostThreadId →
      Owned records → Q (record', turns) { host with records := records })
    (rejected : ∀ records, Owned records → E () { host with records := records }) :
    (projectSnapshot around answers record snapshot previous).wp Q E host := by
  have spread := owned.materialize record previous answers.projection.subagents
  simp only [projectSnapshot, projectExternalSnapshot, wp_bind, wp_modify]
  split
  · exact rejected _ spread
  · simp only [wp_pure, updatePreview]
    split
    · exact projected record _ _ rfl spread
    · refine wp_update_owned spread (fun current changed is => ?_)
        (fun record' records own owned => projected record' _ records own owned) (rejected _ spread)
      split at is
      · cases is
      · cases is
        rfl

theorem reconcile_id {mappings : List StoredTurnMappingV1} {current changed : StoredThreadRecordV1}
    (is : reconcileTurnMappings mappings .constructed current = .ok (some changed)) :
    changed.hostThreadId = current.hostThreadId := by
  unfold reconcileTurnMappings at is
  split at is
  · cases is
  · obtain ⟨_, _, same⟩ := map_ok.mp is
    split at same
    · cases same
    · cases same
      rfl

theorem wp_alignSnapshot {answers : CommitAnswers} {newTurnId : Nat → HostTurnId}
    {Q : StoredThreadRecordV1 × List ProjectedTurn → Host → Prop} {E : Unit → Host → Prop}
    (owned : Owned host.records)
    (aligned : ∀ record' turns records, record'.hostThreadId = record.hostThreadId →
      Owned records → Q (record', turns) { host with records := records })
    (rejected : ∀ records, Owned records → E () { host with records := records }) :
    (alignSnapshot around answers newTurnId record snapshot).wp Q E host := by
  unfold alignSnapshot
  split
  · split
    · exact aligned record [] host.records rfl owned
    · exact rejected host.records owned
  · split
    · exact rejected host.records owned
    · split
      · exact rejected host.records owned
      · simp only
        split
        · rw [wp_bind]
          refine wp_update_owned owned (fun current changed is => ?_) (fun record' records own owned => ?_)
            (rejected host.records owned)
          · exact reconcile_id is
          · exact wp_projectSnapshot_owned owned
              (fun record'' turns records own' owned => aligned record'' turns records
                (own'.trans own) owned) rejected
        · exact wp_projectSnapshot_owned owned aligned rejected

/-- What the refresh of a loaded Thread leaves. -/
structure Refreshes (thread : ExternalThread) (host : Host)
    (result : Except ExternalThreadRpcError ExternalThread) (host' : Host) : Prop where
  owned : Owned host'.records
  others : ∀ other, other ≠ thread.id → host'.threads.get? other = host.threads.get? other
  loaded : ∀ refreshed, result = .ok refreshed → refreshed.id = thread.id ∧
    refreshed.running = thread.running ∧ host'.threads.get? thread.id = some refreshed

theorem refreshes_error (owned : Owned host.records) (error : ExternalThreadRpcError) :
    Refreshes thread host (.error error) host := by
  refine ⟨owned, fun _ _ => rfl, fun _ is => ?_⟩
  cases is

theorem Refreshes.after {next : ExternalThread} {host host' host'' : Host}
    {result : Except ExternalThreadRpcError ExternalThread}
    (refreshes : Refreshes next host' result host'') (same : next.id = thread.id)
    (running : next.running = thread.running)
    (others : ∀ other, other ≠ thread.id → host'.threads.get? other = host.threads.get? other) :
    Refreshes thread host result host'' := by
  refine ⟨refreshes.owned, fun other ne => ?_, fun refreshed is => ?_⟩
  · exact (refreshes.others other (same ▸ ne)).trans (others other ne)
  · obtain ⟨isId, isRunning, loaded⟩ := refreshes.loaded refreshed is
    exact ⟨isId.trans same, isRunning.trans running, same ▸ loaded⟩

section
variable (owned : Owned host.records)
include owned

theorem wp_adoptSnapshot {answers : RefreshAnswers} {E : Unit → Host → Prop} :
    (adoptSnapshot around answers thread snapshot).wp (Refreshes thread host) E host := by
  simp only [adoptSnapshot, wp_tryCatch, wp_bind, wp_modify, wp_pure]
  refine wp_alignSnapshot owned (fun record turns records own owned => ?_) fun records owned => ?_
  · refine ⟨owned, fun other ne => get?_set_of_ne _ _ ne, fun refreshed is => ?_⟩
    cases is
    exact ⟨own, rfl, get?_set_self ..⟩
  · exact (refreshes_error owned _).after rfl rfl fun _ _ => rfl

/-- A recovery keeps the id of the Thread and whether it is running. -/
theorem wp_recover {recovered : ExternalThread} {Q : ExternalThread → Host → Prop}
    {E : Unit → Host → Prop}
    (isRecovered : ∀ next host', next.id = thread.id → next.running = thread.running → Owned host'.records →
      (∀ other, other ≠ thread.id → host'.threads.get? other = host.threads.get? other) →
      Q next host') : (recover thread recovered).wp Q E host := by
  unfold recover
  split
  · next same =>
    exact isRecovered _ _ same rfl (owned.set same) fun other ne => get?_set_of_ne _ _ ne
  · exact isRecovered thread host rfl rfl owned fun _ _ => rfl

theorem wp_readHistory {answers : RefreshAnswers} {E : Unit → Host → Prop}
    (rejected : ∀ host', Owned host'.records →
      (∀ other, other ≠ thread.id → host'.threads.get? other = host.threads.get? other) → E () host') :
    (readHistory around answers thread).wp (Refreshes thread host) E host := by
  simp only [readHistory, wp_bind]
  cases answers.readSnapshot with
  | rejects => exact rejected host owned fun _ _ => rfl
  | ok snapshot => exact wp_adoptSnapshot owned
  | error error =>
    simp only [ask, wp_pure]
    split
    · exact refreshes_error owned _
    · next recovery _ =>
      split
      · exact refreshes_error owned _
      · split
        · exact refreshes_error owned _
        · next recovered =>
          rw [wp_bind]
          refine wp_recover owned fun next host' same running owned others => ?_
          cases answers.readAgain with
          | rejects => exact rejected host' owned others
          | ok snapshot =>
            exact wp_mono (wp_adoptSnapshot owned)
              (fun _ _ refreshes => refreshes.after same running others) fun _ _ failed => failed
          | error error => exact (refreshes_error owned _).after same running others

theorem wp_refresh {answers : RefreshAnswers} {E : Unit → Host → Prop} :
    (refresh around answers thread).wp (Refreshes thread host) E host := by
  have stale (error : ExternalThreadRpcError) (host' : Host) (owned : Owned host'.records)
      (others : ∀ other, other ≠ thread.id → host'.threads.get? other = host.threads.get? other) :
      Refreshes thread host (.error error) host' := (refreshes_error owned error).after rfl rfl others
  simp only [refresh, refreshLoaded, wp_tryCatch, wp_bind, wp_get, wp_pure]
  split
  · exact refreshes_error owned _
  · split
    · exact refreshes_error owned _
    · exact refreshes_error owned _
    · rw [wp_bind]
      refine wp_recover owned fun next host' same running owned others => ?_
      refine wp_mono (wp_readHistory owned fun host'' owned others' => ?_)
        (fun _ _ refreshes => refreshes.after same running others) fun _ _ failed => failed
      exact stale _ host'' owned fun other ne => (others' other (same ▸ ne)).trans (others other ne)
    · exact wp_readHistory owned fun host' owned others => stale _ host' owned others

end

end Refresh

section Rollback
variable {around : Surroundings} {answers : RollbackAnswers} {host : Host} {derived : ExternalThread}

/-- The Thread of a rollback is loaded, and records are under their ids. -/
structure Loaded (thread : ExternalThread) (host : Host) : Prop where
  owned : Owned host.records
  loaded : host.threads.get? thread.id = some thread

theorem wp_rollbackSource {forkSource : ForkSource} {E : Unit → Host → Prop} (loaded : Loaded derived host) :
    (rollbackSource around answers derived forkSource).wp (fun _ host' => Loaded derived host') E
      host := by
  have checked (source : ExternalThread) {host : Host} (loaded : Loaded derived host) :
      Command.wp (if !supportsLineage derived source then
          return .error ⟨-32076, "External rollback source lineage is unsupported"⟩
        else if source.running then return .ok source
        else refresh around answers.refreshSource source)
        (fun _ host' => Loaded derived host') E host := by
    split
    · exact loaded
    · next supports =>
      split
      · exact loaded
      · simp only [supportsLineage, Bool.not_eq_true', Bool.not_eq_false, Bool.and_eq_true,
          decide_eq_true_eq] at supports
        refine wp_mono (wp_refresh loaded.owned) (fun _ host' refreshes => ?_)
          fun _ _ failed => failed
        exact ⟨refreshes.owned, (refreshes.others derived.id (Ne.symm supports.1.1.1)).trans loaded.loaded⟩
  simp only [rollbackSource, resolve, wp_bind, wp_get]
  split
  · exact checked _ loaded
  · next thread absent _ =>
    split
    · refine checked _ ⟨loaded.owned, (get?_set_of_ne _ _ ?_).trans loaded.loaded⟩
      intro same
      rw [← same, loaded.loaded] at absent
      cases absent
    · exact loaded
  · next answer _ _ =>
    cases answers.resolution with
    | error error => exact loaded
    | official => exact loaded
    | restored thread => exact checked thread loaded

/-- The Thread of a route is the one that is rolled back, loaded and idle. -/
theorem wp_rollbackRoute {expectedLastTurnId : Option HostTurnId}
    {E : Unit → Host → Prop} (owned : Owned host.records) :
    (rollbackRoute around answers derived numTurns expectedLastTurnId).wp
      (fun result host' => ∀ route, result = .ok route → (routeThread route).id = derived.id ∧
        (routeThread route).running = false ∧ Loaded (routeThread route) host') E host := by
  unfold rollbackRoute
  split
  · exact fun _ is => nomatch is
  · next accepted =>
    have idle : derived.running = false := by
      unfold rollbackRefusal at accepted
      grind
    rw [wp_bind]
    refine wp_mono (wp_refresh owned) (fun result host' refreshes => ?_) fun _ _ failed => failed
    cases result with
    | error error => exact fun _ is => nomatch is
    | ok refreshed =>
      obtain ⟨same, running, isLoaded⟩ := refreshes.loaded refreshed rfl
      have loaded : Loaded refreshed host' := ⟨refreshes.owned, same ▸ isLoaded⟩
      simp only
      split
      · exact fun _ is => nomatch is
      · split
        · rintro route is
          cases is
          exact ⟨same, running.trans idle, loaded⟩
        · split
          · exact fun _ is => nomatch is
          · rw [wp_bind]
            refine wp_mono (wp_rollbackSource loaded) (fun source host'' loaded => ?_)
              fun _ _ failed => failed
            cases source with
            | error error => exact fun _ is => nomatch is
            | ok source =>
              rintro route is
              cases is
              exact ⟨same, running.trans idle, loaded⟩

/-- The stored record of a Thread is of a registered Harness, and its revision can still count two
changes. -/
def Serves (around : Surroundings) (hostThreadId : HostThreadId) (host : Host) : Prop :=
  ∀ record, host.records.get? hostThreadId = some record →
    around.hasAdapter record.harnessId = true ∧ record.revision + 1 < maxSafeInteger

/-- A rollback answers on the route that its refreshes lead to. -/
def RollbackAtomic (around : Surroundings) (answers : RollbackAnswers) (derived : ExternalThread)
    (numTurns : Nat) (expectedLastTurnId : Option HostTurnId) (host : Host) : Prop :=
  ∃ host₀ result host',
    (executeExternalThreadRollback around answers derived numTurns expectedLastTurnId).exec host =
      (.ok result, host') ∧
    ((∃ error, (rollbackRoute around answers derived numTurns expectedLastTurnId).exec host =
        (.ok (.error error), host₀) ∧ result = .error error ∧ host' = host₀) ∨
      ∃ route, (rollbackRoute around answers derived numTurns expectedLastTurnId).exec host =
        (.ok (.ok route), host₀) ∧ (routeThread route).id = derived.id ∧
        RollbackSettles around answers numTurns host₀ route result host')

/-- Every step of a rollback of the last Turn succeeds. -/
def plainRollback : RollbackAnswers where
  refresh := ⟨none, none, .ok ⟨[plainTurn "native" "a"], none⟩, none, .rejects, plainTurnId,
    ⟨false, ⟨[], false⟩, false⟩⟩
  resolution := .official
  refreshSource := ⟨none, none, .rejects, none, .rejects, plainTurnId, ⟨false, ⟨[], false⟩, false⟩⟩
  opened := .ok (plainCapabilities, plainState "replacement")
  modelSelect := .ok ()
  thinkingSelect := .ok ()
  permissionModeSelect := .ok ()
  readSnapshot := .ok ⟨[], none⟩
  close := false
  commit := ⟨false, ⟨[], false⟩, false⟩
  replace := ⟨false, [], false⟩

/-- A Thread forked from a source that still runs its next Turn. -/
def forkedRecord : StoredThreadRecordV1 :=
  { plainRecord with
    hostThreadId := "fork", createRequestId := "fork-request"
    nativeSessionRef := some ⟨"test", "derived", none⟩, forkSource := some ⟨"source", "turn"⟩
    turnMappings := [⟨"forked", ⟨"test", "derived", "a"⟩, some ⟨"test", "derived", "a", none⟩⟩] }

def forkedThread : ExternalThread :=
  { plainSource with
    session := ⟨1, { plainCapabilities with rollbackLastTurn := false }, plainState "derived"⟩
    record := forkedRecord, thread := ⟨forkedRecord, [], "source", false⟩ }

def forkedHost : Host :=
  ⟨(OrderedMap.empty.set "source" plainRecord).set "fork" forkedRecord,
    (OrderedMap.empty.set "source" { plainSource with running := true }).set "fork" forkedThread,
    .empty, [0, 1], 2⟩

def forkedRollback : RollbackAnswers :=
  { plainRollback with
    refresh := ⟨none, none, .ok ⟨[plainTurn "derived" "a"], none⟩, none, .rejects, plainTurnId,
      ⟨false, ⟨[], false⟩, false⟩⟩ }

end Rollback

end CodexHost.Guarantees.RollbackOutcome
