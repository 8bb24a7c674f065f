import CodexHost.Source.MappingStore.StoreLock

/-!
# Who holds the store lock

A takeover reads the lock file, judges its owner and renames whatever then stands under
the name. The owner is written after the file is created, and another takeover may have
replaced the file since the read, so the rename can take the lock file of a live process.
As long as no rename does, a process that holds the lock is the creator of the file under
the name, and there is at most one. A rename of the very file whose owner was read never
does: the owner was judged dead.
-/
namespace CodexHost.Guarantees
open Foundation Source.SharedContracts Source.MappingStore Option Function Guarantees LockEvent

section Owners
variable {P : Type} [DecidableEq P] {machine : LockMachine} {contenders : Contenders P}
  {w w' : LockWorld P} {event : LockEvent P}

@[simp] theorem become_self (w : LockWorld P) (process : P) (stage : LockStage) :
    (w.become process stage).stage process = stage := update_self ..

theorem become_other (w : LockWorld P) {process other : P} (stage : LockStage)
    (hne : other ≠ process) : (w.become process stage).stage other = w.stage other :=
  update_of_ne hne ..

/-- A new lock file under the name. -/
def created (w : LockWorld P) (process : P) : LockWorld P :=
  { w.become process (.opened w.next) with
    lockPath := some w.next
    files := Function.update w.files w.next ⟨some process, none⟩
    next := w.next + 1 }

/-- The owner written into a lock file. -/
def recorded (contenders : Contenders P) (w : LockWorld P) (process : P) (file : Nat)
    (startedAt : Timestamp) : LockWorld P :=
  { w.become process (.written file) with
    files := Function.update w.files file
      { w.files file with owner := some (lockRecord contenders process startedAt) } }

/-- What one event did: a process that changes its stage, and in four cases the files. -/
inductive LockMoved (machine : LockMachine) (contenders : Contenders P) (w : LockWorld P) :
    LockEvent P → LockWorld P → Prop where
  | started (process : P) (was : w.stage process = .absent) :
      LockMoved machine contenders w (.start process) (w.become process .idle)
  | opened (process : P) (was : w.stage process = .idle ∨ w.stage process = .retrying)
      (free : w.lockPath = none) :
      LockMoved machine contenders w (.openExclusive process) (created w process)
  | met (process : P) (stage : LockStage) (lets : stage = .contended ∨ stage = .idle)
      (was : w.stage process = .idle ∨ w.stage process = .retrying) :
      LockMoved machine contenders w (.openExclusive process) (w.become process stage)
  | failed (process : P) (was : (w.stage process).live) :
      LockMoved machine contenders w (.attemptFails process) (w.become process .idle)
  | wrote (process : P) (startedAt : Timestamp) (file : Nat) (was : w.stage process = .opened file) :
      LockMoved machine contenders w (.writeOwner process startedAt)
        (recorded contenders w process file startedAt)
  | acquired (process : P) (file : Nat) (was : w.stage process = .written file) :
      LockMoved machine contenders w (.acquired process) (w.become process (.holding file))
  | readLock (process : P) (was : w.stage process = .contended) :
      LockMoved machine contenders w (.readLock process) (w.become process (.read w.lockPath w.ownerAt))
  | judgedLive (process : P) (identity : Option ProcessIdentity) (startedAt : Timestamp)
      (seen : Option Nat) (existing : Option LockRecord)
      (was : w.stage process = .read seen existing) :
      LockMoved machine contenders w (.judge process identity startedAt) (w.become process .idle)
  | judgedStale (process : P) (identity : Option ProcessIdentity) (startedAt : Timestamp)
      (seen : Option Nat) (existing : Option LockRecord)
      (was : w.stage process = .read seen existing)
      (verdict : existing.any (lockOwnerIsLive machine (contenders.pid process)
        (contenders.execPath process) startedAt identity) = false) :
      LockMoved machine contenders w (.judge process identity startedAt)
        (w.become process (.stale seen existing))
  | renamed (process : P) (seen : Option Nat) (existing : Option LockRecord)
      (was : w.stage process = .stale seen existing) :
      LockMoved machine contenders w (.renameAside process)
        { w.become process .retrying with lockPath := none }
  | renameFailed (process : P) (was : (w.stage process).live) :
      LockMoved machine contenders w (.renameFails process) (w.become process .retrying)
  | closed (process : P) (was : (w.stage process).live) :
      LockMoved machine contenders w (.close process) (w.become process .closing)
  | foundOwn (process : P) (file : Nat) (owner : LockRecord) (was : w.stage process = .closing)
      (there : w.lockPath = some file) (written : (w.files file).owner = some owner)
      (own : owner.instanceId = some (contenders.instanceId process)) :
      LockMoved machine contenders w (.readBack process) (w.become process (.removing file))
  | foundOther (process : P) (was : (w.stage process).live) :
      LockMoved machine contenders w (.readBack process) (w.become process .idle)
  | unlinked (process : P) (file : Nat) (was : w.stage process = .removing file) :
      LockMoved machine contenders w (.unlink process) { w.become process .idle with lockPath := none }
  | unlinkFailed (process : P) (was : (w.stage process).live) :
      LockMoved machine contenders w (.unlinkFails process) (w.become process .idle)
  | died (process : P) (was : (w.stage process).live) :
      LockMoved machine contenders w (.die process) (w.become process .dead)

theorem happen_moved (happened : event.happen machine contenders w = some w') :
    LockMoved machine contenders w event w' := by
  cases event with
  | start process =>
    simp only [happen] at happened
    split at happened
    · next was =>
      cases happened
      exact .started process was
    · cases happened
  | openExclusive process =>
    simp only [happen] at happened
    split at happened
    · next was =>
      cases happened
      split
      · exact .met process _ (.inl rfl) (.inl was)
      · next free => exact .opened process (.inl was) (by simpa using free)
    · next was =>
      cases happened
      split
      · exact .met process _ (.inr rfl) (.inr was)
      · next free => exact .opened process (.inr was) (by simpa using free)
    · cases happened
  | attemptFails process =>
    simp only [happen] at happened
    split at happened <;> cases happened <;> next was => exact .failed process (by rw [was]; rfl)
  | writeOwner process startedAt =>
    simp only [happen] at happened
    split at happened
    · next file was =>
      cases happened
      exact .wrote process startedAt file was
    · cases happened
  | acquired process =>
    simp only [happen] at happened
    split at happened
    · next file was =>
      cases happened
      exact .acquired process file was
    · cases happened
  | readLock process =>
    simp only [happen] at happened
    split at happened
    · next was =>
      cases happened
      exact .readLock process was
    · cases happened
  | judge process identity startedAt =>
    simp only [happen] at happened
    split at happened
    · next seen existing was =>
      cases happened
      split
      · exact .judgedLive process identity startedAt seen existing was
      · next verdict =>
        exact .judgedStale process identity startedAt seen existing was (Bool.eq_false_iff.mpr verdict)
    · cases happened
  | renameAside process =>
    simp only [happen] at happened
    split at happened
    · next seen existing was =>
      cases happened
      exact .renamed process seen existing was
    · cases happened
  | renameFails process =>
    simp only [happen] at happened
    split at happened
    · next was =>
      cases happened
      exact .renameFailed process (by rw [was]; rfl)
    · cases happened
  | close process =>
    simp only [happen] at happened
    split at happened <;> cases happened <;> next was => exact .closed process (by rw [was]; rfl)
  | readBack process =>
    simp only [happen] at happened
    split at happened
    · next file was there =>
      cases happened
      split
      · next own =>
        obtain ⟨owner, written, own⟩ := bind_eq_some_iff.mp own
        exact .foundOwn process file owner was there written own
      · exact .foundOther process (by rw [was]; rfl)
    · next was _ =>
      cases happened
      exact .foundOther process (by rw [was]; rfl)
    · cases happened
  | unlink process =>
    simp only [happen] at happened
    split at happened
    · next file was =>
      cases happened
      exact .unlinked process file was
    · cases happened
  | unlinkFails process =>
    simp only [happen] at happened
    split at happened
    · next was =>
      cases happened
      exact .unlinkFailed process (by rw [was]; rfl)
    · cases happened
  | die process =>
    simp only [happen] at happened
    split at happened
    · next was =>
      cases happened
      exact .died process was
    · cases happened

/-- The rename takes no lock file from a process that acquires with it, holds it or is about
to remove it. A dead process does none of these. -/
def TakesNoLiveLock (w : LockWorld P) (event : LockEvent P) : Prop :=
  ∀ process file, event = .renameAside process → w.lockPath = some file →
    ∀ owner, (w.files file).creator = some owner → (w.stage owner).file? ≠ some file

/-- A process that acquires with a lock file, holds it or is about to remove it created it,
and it stands under the name. -/
structure LockOwned (contenders : Contenders P) (w : LockWorld P) : Prop where
  owns : ∀ process file, (w.stage process).file? = some file →
    w.lockPath = some file ∧ (w.files file).creator = some process
  signed : ∀ file owner process, (w.files file).owner = some owner →
    owner.instanceId = some (contenders.instanceId process) →
    (w.files file).creator = some process

omit [DecidableEq P] in
theorem LockOwned.alone (owned : LockOwned contenders w) {process other : P} {file file' : Nat}
    (mine : (w.stage process).file? = some file) (theirs : (w.stage other).file? = some file') :
    process = other := by
  obtain ⟨there, creator⟩ := owned.owns process file mine
  obtain ⟨there', creator'⟩ := owned.owns other file' theirs
  rw [there] at there'
  cases there'
  rw [creator] at creator'
  cases creator'
  rfl

variable {process : P} {stage : LockStage}

section
variable (owned : LockOwned contenders w)
include owned

/-- A change of stage that takes up no lock file. -/
theorem LockOwned.become
    (keeps : ∀ file, stage.file? = some file → w.lockPath = some file ∧
      (w.files file).creator = some process) : LockOwned contenders (w.become process stage) where
  owns other file uses := by
    by_cases same : other = process
    · rw [same, become_self] at uses
      rw [same]
      exact keeps file uses
    · rw [become_other w stage same] at uses
      exact owned.owns other file uses
  signed := owned.signed

/-- The name is freed by the only process that could use the file under it, or when none does. -/
theorem LockOwned.freed (idle : stage.file? = none)
    (unused : ∀ other file, other ≠ process → (w.stage other).file? ≠ some file) :
    LockOwned contenders { w.become process stage with lockPath := none } where
  owns other file uses := by
    by_cases same : other = process
    · subst same
      have now : ((w.become other stage).stage other).file? = some file := uses
      rw [become_self, idle] at now
      cases now
    · have before : ((w.become process stage).stage other).file? = some file := uses
      rw [become_other w stage same] at before
      exact absurd before (unused other file same)
  signed := owned.signed

theorem LockOwned.created (process : P)
    (free : w.lockPath = none) : LockOwned contenders (created w process) where
  owns other file uses := by
    by_cases same : other = process
    · subst same
      have now : ((w.become other (.opened w.next)).stage other).file? = some file := uses
      rw [become_self] at now
      cases now
      exact ⟨rfl, by simp only [Guarantees.created, update_self]⟩
    · have before : ((w.become process (.opened w.next)).stage other).file? = some file := uses
      rw [become_other w _ same] at before
      have there := (owned.owns other file before).1
      rw [free] at there
      cases there
  signed file owner other written own := by
    simp only [Guarantees.created, update_apply] at written ⊢
    split at written
    · cases written
    · next hne =>
      rw [if_neg hne]
      exact owned.signed file owner other written own

theorem LockOwned.recorded {file : Nat}
    (was : w.stage process = .opened file) (startedAt : Timestamp) :
    LockOwned contenders (recorded contenders w process file startedAt) := by
  have mine := owned.owns process file (by rw [was]; rfl)
  have creators : ∀ f, ((Guarantees.recorded contenders w process file startedAt).files f).creator =
      (w.files f).creator := by
    intro f
    simp only [Guarantees.recorded, update_apply]
    split
    · next same => rw [same]
    · rfl
  have moved : LockOwned contenders (w.become process (.written file)) :=
    owned.become fun f uses => by
      cases uses
      exact mine
  refine ⟨fun other f uses => ?_, fun f owner other written own => ?_⟩
  · rw [creators]
    exact moved.owns other f uses
  · rw [creators]
    simp only [Guarantees.recorded, update_apply] at written
    split at written
    · next same =>
      cases written
      simp only [lockRecord, some.injEq] at own
      rw [same, mine.2, contenders.instanceId_injective own]
    · exact owned.signed f owner other written own

/-- The step lemma. -/
theorem LockOwned.step (lawful : TakesNoLiveLock w event)
    (happened : event.happen machine contenders w = some w') : LockOwned contenders w' := by
  have nothing : ∀ {process : P} {stage : LockStage}, stage.file? = none →
      LockOwned contenders (w.become process stage) := fun idle =>
    owned.become fun file uses => by rw [idle] at uses; cases uses
  cases happen_moved happened with
  | opened process _ free => exact owned.created process free
  | met process stage lets _ => rcases lets with rfl | rfl <;> exact nothing rfl
  | wrote process startedAt file was => exact owned.recorded was startedAt
  | acquired process file was =>
    apply owned.become
    intro f uses
    cases uses
    exact owned.owns process file (by rw [was]; rfl)
  | renamed process seen existing was =>
    apply owned.freed rfl
    intro other file _ uses
    obtain ⟨there, creator⟩ := owned.owns other file uses
    exact lawful process file rfl there other creator uses
  | foundOwn process file owner _ there written own =>
    apply owned.become
    intro f uses
    cases uses
    exact ⟨there, owned.signed file owner process written own⟩
  | unlinked process file was =>
    apply owned.freed rfl
    intro other f hne uses
    exact hne (owned.alone uses (by rw [was]; rfl))
  | _ => exact nothing rfl

end

/-- Readings of one start at most 2.5 seconds off it are within the tolerance of each other. -/
theorem startedElsewhere_steady {recorded actual start : Timestamp}
    (first : (recorded - start).natAbs ≤ 2500) (second : (actual - start).natAbs ≤ 2500) :
    startedElsewhere (some (some recorded)) actual = false := by
  unfold startedElsewhere
  rw [decide_eq_false_iff_not]
  omega

omit [DecidableEq P] in
/-- The lock record of a live process is judged live, whoever judges it. -/
theorem lockOwnerIsLive_of_live {judge owner : P} {recordedStart ownStart : Timestamp}
    {identity : Option ProcessIdentity}
    (recorded : (recordedStart - contenders.startedAt owner).natAbs ≤ 2500)
    (own : (ownStart - contenders.startedAt judge).natAbs ≤ 2500)
    (distinct : contenders.pid owner = contenders.pid judge → owner = judge)
    (truthful : ∃ known, identity = some known ∧
      (∀ path, known.executablePath = some path → machine.normalizeExecutablePath path =
        machine.normalizeExecutablePath (contenders.execPath owner)) ∧
      ∀ actual, known.startedAt = some actual → (actual - contenders.startedAt owner).natAbs ≤ 2500) :
    lockOwnerIsLive machine (contenders.pid judge) (contenders.execPath judge) ownStart identity
      (lockRecord contenders owner recordedStart) = true := by
  have path : (some (contenders.execPath owner)).filter (· ≠ "") = some (contenders.execPath owner) := by
    simp [contenders.execPath_nonempty owner]
  simp only [lockOwnerIsLive, lockRecord, path]
  split
  · next same =>
    obtain rfl := distinct same
    simp [startedElsewhere_steady recorded own]
  · obtain ⟨known, rfl, executable, started⟩ := truthful
    simp only
    split
    · rfl
    · have runs : runsElsewhere machine (known.executablePath.filter (· ≠ ""))
          (some (contenders.execPath owner)) = false := by
        cases running : known.executablePath with
        | none => rfl
        | some path =>
          rw [filter_some]
          split
          · simp [runsElsewhere, executable path running]
          · rfl
      rw [runs]
      cases actual : known.startedAt with
      | none => rfl
      | some actual' => simp [startedElsewhere_steady recorded (started actual' actual)]

/-- What holds in every run, takeovers of live locks included. -/
structure LockHistory (contenders : Contenders P) (w : LockWorld P) : Prop where
  pids : ∀ process other, (w.stage process).live → (w.stage other).live →
    contenders.pid process = contenders.pid other → process = other
  present : ∀ file process, (w.files file).creator = some process → w.stage process ≠ .absent
  signed : ∀ file owner process, (w.files file).owner = some owner → (w.files file).creator = some process →
    ∃ startedAt, owner = lockRecord contenders process startedAt ∧
      (startedAt - contenders.startedAt process).natAbs ≤ 2500
  fresh : ∀ file, w.lockPath = some file → file < w.next
  opened : ∀ process file, w.stage process = .opened file →
    (w.files file).owner = none ∧ (w.files file).creator = some process ∧ file < w.next
  read : ∀ process file owner, w.stage process = .read (some file) (some owner) →
    (w.files file).owner = some owner ∧ file < w.next
  stale : ∀ process file owner, w.stage process = .stale (some file) (some owner) →
    file < w.next ∧ ∀ creator, (w.files file).creator = some creator → w.stage creator = .dead

/-- A change of stage of a process that is not dead. -/
theorem LockHistory.become (history : LockHistory contenders w)
    (pids : stage.live → ∀ other, (w.stage other).live → other ≠ process →
      contenders.pid other ≠ contenders.pid process)
    (notDead : w.stage process ≠ .dead) (notAbsent : stage ≠ .absent)
    (notOpened : ∀ file, stage ≠ .opened file)
    (read : ∀ file owner, stage = .read (some file) (some owner) →
      (w.files file).owner = some owner ∧ file < w.next)
    (stale : ∀ file owner, stage = .stale (some file) (some owner) →
      file < w.next ∧ ∀ creator, (w.files file).creator = some creator → w.stage creator = .dead) :
    LockHistory contenders (w.become process stage) := by
  -- The dead stay dead.
  have remains : ∀ creator, w.stage creator = .dead → (w.become process stage).stage creator = .dead := by
    intro creator dead
    rw [become_other]
    · exact dead
    · rintro rfl
      exact notDead dead
  constructor
  · intro a b liveA liveB same
    by_cases ha : a = process <;> by_cases hb : b = process
    · exact ha.trans hb.symm
    · subst ha
      rw [become_self] at liveA
      rw [become_other w stage hb] at liveB
      exact absurd same.symm (pids liveA b liveB hb)
    · subst hb
      rw [become_self] at liveB
      rw [become_other w stage ha] at liveA
      exact absurd same (pids liveB a liveA ha)
    · rw [become_other w stage ha] at liveA
      rw [become_other w stage hb] at liveB
      exact history.pids a b liveA liveB same
  · intro file other creator
    by_cases same : other = process
    · rw [same, become_self]
      exact notAbsent
    · rw [become_other w stage same]
      exact history.present file other creator
  · exact history.signed
  · exact history.fresh
  · intro other file was
    by_cases same : other = process
    · rw [same, become_self] at was
      exact absurd was (notOpened file)
    · rw [become_other w stage same] at was
      exact history.opened other file was
  · intro other file owner was
    by_cases same : other = process
    · rw [same, become_self] at was
      exact read file owner was
    · rw [become_other w stage same] at was
      exact history.read other file owner was
  · intro other file owner was
    by_cases same : other = process
    · rw [same, become_self] at was
      obtain ⟨bound, dead⟩ := stale file owner was
      exact ⟨bound, fun creator made => remains creator (dead creator made)⟩
    · rw [become_other w stage same] at was
      obtain ⟨bound, dead⟩ := history.stale other file owner was
      exact ⟨bound, fun creator made => remains creator (dead creator made)⟩

/-- A live process moves to a stage that speaks of no lock file it read or opened. -/
theorem LockHistory.moves (history : LockHistory contenders w)
    (was : (w.stage process).live) (notAbsent : stage ≠ .absent)
    (notOpened : ∀ file, stage ≠ .opened file)
    (notRead : ∀ file owner, stage ≠ .read (some file) (some owner))
    (notStale : ∀ file owner, stage ≠ .stale (some file) (some owner)) :
    LockHistory contenders (w.become process stage) := by
  apply history.become _ _ notAbsent notOpened
  · exact fun file owner h => absurd h (notRead file owner)
  · exact fun file owner h => absurd h (notStale file owner)
  · exact fun _ other live hne same => hne (history.pids other process live was same)
  · intro dead
    rw [dead] at was
    cases was

omit [DecidableEq P] in
theorem LockHistory.freed (history : LockHistory contenders w) :
    LockHistory contenders { w with lockPath := none } :=
  ⟨history.pids, history.present, history.signed, fun _ h => (by cases h), history.opened,
    history.read, history.stale⟩

section
variable (history : LockHistory contenders w)
include history

theorem LockHistory.created
    (was : (w.stage process).live) : LockHistory contenders (created w process) := by
  have notDead : w.stage process ≠ .dead := by
    intro dead
    rw [dead] at was
    cases was
  -- Facts about older files are untouched by the new one.
  have older : ∀ file, file < w.next → (Guarantees.created w process).files file = w.files file :=
    fun file bound => update_of_ne (Nat.ne_of_lt bound) ..
  have stages : ∀ other, other ≠ process → (Guarantees.created w process).stage other = w.stage other :=
    fun other hne => update_of_ne hne ..
  have own : (Guarantees.created w process).stage process = .opened w.next :=
    update_self ..
  constructor
  · intro a b liveA liveB same
    apply history.pids a b _ _ same
    · by_cases ha : a = process
      · exact ha ▸ was
      · rwa [stages a ha] at liveA
    · by_cases hb : b = process
      · exact hb ▸ was
      · rwa [stages b hb] at liveB
  · intro file other creator
    by_cases same : other = process
    · rw [same, own]
      exact fun h => by cases h
    · rw [stages other same]
      simp only [Guarantees.created, update_apply] at creator
      split at creator
      · cases creator
        exact absurd rfl same
      · exact history.present file other creator
  · intro file owner other written creator
    simp only [Guarantees.created, update_apply] at written creator
    split at written
    · cases written
    · next hne =>
      rw [if_neg hne] at creator
      exact history.signed file owner other written creator
  · intro file there
    cases there
    exact Nat.lt_succ_self _
  · intro other file stage
    by_cases same : other = process
    · rw [same, own] at stage
      cases stage
      rw [same]
      simp only [Guarantees.created, update_self]
      exact ⟨trivial, trivial, Nat.lt_succ_self _⟩
    · rw [stages other same] at stage
      obtain ⟨empty, creator, bound⟩ := history.opened other file stage
      rw [older file bound]
      exact ⟨empty, creator, Nat.lt_succ_of_lt bound⟩
  · intro other file owner stage
    by_cases same : other = process
    · rw [same, own] at stage
      cases stage
    · rw [stages other same] at stage
      obtain ⟨written, bound⟩ := history.read other file owner stage
      rw [older file bound]
      exact ⟨written, Nat.lt_succ_of_lt bound⟩
  · intro other file owner stage
    by_cases same : other = process
    · rw [same, own] at stage
      cases stage
    · rw [stages other same] at stage
      obtain ⟨bound, dead⟩ := history.stale other file owner stage
      refine ⟨Nat.lt_succ_of_lt bound, fun creator made => ?_⟩
      rw [older file bound] at made
      have gone := dead creator made
      rw [stages creator fun h => notDead (h ▸ gone)]
      exact gone

theorem LockHistory.recorded {file : Nat}
    (was : w.stage process = .opened file) {startedAt : Timestamp}
    (steady : (startedAt - contenders.startedAt process).natAbs ≤ 2500) :
    LockHistory contenders (recorded contenders w process file startedAt) := by
  obtain ⟨empty, mine, bound⟩ := history.opened process file was
  have moved : LockHistory contenders (w.become process (.written file)) :=
    history.moves (by rw [was]; rfl) (by simp) (by simp) (by simp) (by simp)
  have creators : ∀ f, ((Guarantees.recorded contenders w process file startedAt).files f).creator =
      (w.files f).creator := by
    intro f
    simp only [Guarantees.recorded, update_apply]
    split
    · next same => rw [same]
    · rfl
  have others : ∀ f, f ≠ file →
      (Guarantees.recorded contenders w process file startedAt).files f = w.files f :=
    fun f hne => update_of_ne hne ..
  constructor
  · exact moved.pids
  · intro f other creator
    rw [creators] at creator
    exact moved.present f other creator
  · intro f owner other written creator
    rw [creators] at creator
    by_cases same : f = file
    · subst same
      rw [mine] at creator
      cases creator
      simp only [Guarantees.recorded, update_self, some.injEq] at written
      exact ⟨startedAt, written.symm, steady⟩
    · rw [others f same] at written
      exact history.signed f owner other written creator
  · exact moved.fresh
  · intro other f stage
    obtain ⟨empty', creator, bound'⟩ := moved.opened other f stage
    have apart : f ≠ file := by
      rintro rfl
      have theirs : (w.files f).creator = some other := creator
      rw [mine] at theirs
      cases theirs
      have now : (w.become process (.written f)).stage process = .opened f := stage
      rw [become_self] at now
      cases now
    rw [others f apart]
    exact ⟨empty', creator, bound'⟩
  · intro other f owner stage
    obtain ⟨written, bound'⟩ := moved.read other f owner stage
    have apart : f ≠ file := by
      rintro rfl
      have before : (w.files f).owner = some owner := written
      rw [empty] at before
      cases before
    rw [others f apart]
    exact ⟨written, bound'⟩
  · intro other f owner stage
    obtain ⟨bound', dead⟩ := moved.stale other f owner stage
    exact ⟨bound', fun creator made => dead creator (creators f ▸ made)⟩

omit [DecidableEq P] in
/-- A file whose whole owner was read and judged stale was created by a process that is dead. -/
theorem LockHistory.judged
    {identity : Option ProcessIdentity} {startedAt : Timestamp} {file : Nat} {owner : LockRecord}
    (was : w.stage process = .read (some file) (some owner))
    (truthful : (LockEvent.judge process identity startedAt).Truthful machine contenders w)
    (verdict : lockOwnerIsLive machine (contenders.pid process) (contenders.execPath process)
      startedAt identity owner = false) (creator : P)
    (made : (w.files file).creator = some creator) : w.stage creator = .dead := by
  by_contra notDead
  have live : (w.stage creator).live := by
    have present := history.present file creator made
    cases stage : w.stage creator with
    | absent => exact absurd stage present
    | dead => exact absurd stage notDead
    | _ => rfl
  obtain ⟨written, -⟩ := history.read process file owner was
  obtain ⟨recordedStart, rfl, steady⟩ := history.signed file owner creator written made
  have judge : (w.stage process).live := by rw [was]; rfl
  rw [lockOwnerIsLive_of_live steady truthful.1 (history.pids creator process live judge)
    (truthful.2 creator (some file) _ live was rfl)] at verdict
  cases verdict

/-- The step lemma. -/
theorem LockHistory.step
    (step : LockStep machine contenders w event w') : LockHistory contenders w' := by
  obtain ⟨truthful, happened⟩ := step
  cases happen_moved happened with
  | started process was =>
    apply history.become (fun _ other live hne => truthful other live hne) (by simp [was]) <;> simp
  | opened process was _ =>
    exact history.created (by rcases was with h | h <;> rw [h] <;> rfl)
  | met process stage lets was =>
    have live : (w.stage process).live := by rcases was with h | h <;> rw [h] <;> rfl
    rcases lets with rfl | rfl <;> apply history.moves live <;> simp
  | wrote process startedAt file was => exact history.recorded was truthful
  | acquired process file was => apply history.moves (by rw [was]; rfl) <;> simp
  | readLock process was =>
    have live : (w.stage process).live := by rw [was]; rfl
    apply history.become (fun _ other theirs hne same => hne (history.pids other process theirs live same))
      (by simp [was]) (by simp) (by simp)
    · intro file owner same
      simp only [LockStage.read.injEq] at same
      obtain ⟨there, owned⟩ := same
      rw [LockWorld.ownerAt, there, bind_some] at owned
      exact ⟨owned, history.fresh file there⟩
    · simp
  | judgedLive process identity startedAt seen existing was =>
    apply history.moves (by rw [was]; rfl) <;> simp
  | judgedStale process identity startedAt seen existing was verdict =>
    have live : (w.stage process).live := by rw [was]; rfl
    apply history.become (fun _ other theirs hne same => hne (history.pids other process theirs live same))
      (by simp [was]) (by simp) (by simp) (by simp)
    intro file owner same
    cases same
    exact ⟨(history.read process file owner was).2, history.judged was truthful verdict⟩
  | renamed process seen existing was =>
    apply LockHistory.freed
    apply history.moves (by rw [was]; rfl) <;> simp
  | unlinked process file was =>
    apply LockHistory.freed
    apply history.moves (by rw [was]; rfl) <;> simp
  | foundOwn process file owner was =>
    apply history.moves (by rw [was]; rfl) <;> simp
  | failed process was => apply history.moves was <;> simp
  | renameFailed process was => apply history.moves was <;> simp
  | closed process was => apply history.moves was <;> simp
  | foundOther process was => apply history.moves was <;> simp
  | unlinkFailed process was => apply history.moves was <;> simp
  | died process was => apply history.moves was <;> simp

end

omit [DecidableEq P] in
theorem initial_owned (initial : w.Initial contenders) : LockOwned contenders w where
  owns process file uses := by
    rw [initial.stage process] at uses
    cases uses
  signed file owner process written own := absurd own (initial.foreign file owner process written)

omit [DecidableEq P] in
theorem initial_history (initial : w.Initial contenders) : LockHistory contenders w where
  pids process _ live := by
    rw [initial.stage process] at live
    cases live
  present file process made := by
    rw [initial.creator file] at made
    cases made
  signed file owner process _ made := by
    rw [initial.creator file] at made
    cases made
  fresh := initial.fresh
  opened process file was := by
    rw [initial.stage process] at was
    cases was
  read process file owner was := by
    rw [initial.stage process] at was
    cases was
  stale process file owner was := by
    rw [initial.stage process] at was
    cases was

/-- A live process believes that it holds the lock. -/
def Believes (w : LockWorld P) (process : P) : Prop := ∃ file, w.stage process = .holding file

end Owners

/-- Two processes of one program. -/
def pair : Contenders Bool where
  pid process := if process then 1001 else 1000
  instanceId process := if process then "instance-1" else "instance-0"
  execPath _ := "/usr/bin/node"
  startedAt _ := 0
  instanceId_injective := by
    intro a b
    cases a <;> cases b <;> decide
  execPath_nonempty := by decide

def linux : LockMachine := ⟨.other, id⟩

/-- An empty directory. -/
def unlocked : LockWorld Bool := ⟨fun _ => .absent, none, fun _ => ⟨none, none⟩, 0⟩

theorem unlocked_initial : unlocked.Initial pair where
  stage _ := rfl
  fresh _ h := by cases h
  creator _ := rfl
  foreign _ _ _ h := by cases h

def soleAcquisition : List (LockEvent Bool) :=
  [.start false, .openExclusive false, .writeOwner false 0, .acquired false]

/-- The second process reads the lock file of the first between its creation and the write
of its owner, and both go on. -/
def unwrittenTakeover : List (LockEvent Bool) :=
  [.start false, .start true, .openExclusive false, .openExclusive true, .readLock true,
    .judge true (some ⟨none, none⟩) 0, .renameAside true, .openExclusive true,
    .writeOwner false 0, .acquired false, .writeOwner true 0, .acquired true]

def lockRun (events : List (LockEvent Bool)) : Option (LockWorld Bool) :=
  events.foldlM (LockEvent.happen linux pair) unlocked

theorem soleAcquisition_lawful : ∀ event ∈ soleAcquisition, ∀ w : LockWorld Bool,
    TakesNoLiveLock w event ∧ event.Truthful linux pair w := by
  intro event member w
  have aside : ∀ process, event ≠ .renameAside process := by
    rintro process rfl
    simp [soleAcquisition] at member
  refine ⟨fun process file same => absurd same (aside process), ?_⟩
  simp only [soleAcquisition, List.mem_cons, List.not_mem_nil, or_false] at member
  rcases member with rfl | rfl | rfl | rfl
  · intro other _ hne
    cases other with
    | false => exact absurd rfl hne
    | true => decide
  all_goals simp [LockEvent.Truthful, pair]

theorem unwrittenTakeover_truthful : ∀ event ∈ unwrittenTakeover, ∀ w : LockWorld Bool,
    event.Truthful linux pair w := by
  intro event member w
  simp only [unwrittenTakeover, List.mem_cons, List.not_mem_nil, or_false] at member
  rcases member with rfl | rfl | rfl | rfl | rfl | rfl | rfl | rfl | rfl | rfl | rfl | rfl
  · intro other _ hne
    cases other with
    | false => exact absurd rfl hne
    | true => decide
  · intro other _ hne
    cases other with
    | false => decide
    | true => exact absurd rfl hne
  all_goals simp [LockEvent.Truthful, pair]

end CodexHost.Guarantees
