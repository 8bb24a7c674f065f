import CodexHost.Source.UpdateManager.OperationLock

/-!
# The lock has one operation

Recovery reads the lock, judges what it has read, and removes by name. The lock must be the
same file from the read to the removal, and an operation whose lock was removed must not use it.
-/
namespace CodexHost.Guarantees.UpdateLock
open Foundation Source.UpdateManager List Option Function State

/-- The call has read the lock file and may still remove it. -/
def judging : Recovery → Bool
  | .read .. => true
  | .removing _ => true
  | _ => false

def quiet (s : State) : Bool :=
  (List.range s.nextRecovery).all fun number => !judging (s.recovery number)

/-- The lock file is not created or replaced while a call of `recoverUpdateOperationLock` judges
it. An operation does not use a lock that was removed, does not replace it after `release`, and
does not set the status path after the transfer. -/
def allowed (s : State) : Event → Bool
  | .acquire _ => s.lock.isSome || quiet s
  | .setStatusPath number _ =>
    !(s.operation number).lost && (s.operation number).owner = (s.operation number).pid
  | .rename number =>
    quiet s && !(s.operation number).lost && (s.operation number).phase = .held
  | .remove number => !(s.operation number).lost
  | _ => true

/-- The runs in which every event is allowed. -/
def Reaches (left : Option (Option LockRecord)) (status : Path → Option Bool) (alive : List Nat)
    (events : List Event) (s : State) : Prop :=
  Run (fun s event s' => allowed s event = true ∧ step s event = some s')
    (initial left status alive) events s

/-- The operation has the lock, its owner runs, and it has not ended. -/
def live (s : State) (number : Nat) : Bool :=
  ((s.operation number).phase = .opened || (s.operation number).phase = .held) &&
    !(s.operation number).ownerGone && !(s.operation number).ended

/-- What was removed is the file that was read, or a file of the operation. -/
def Proper (s : State) : Removal → Prop
  | .recovered read removed => removed = read
  | .released number removed => (s.inode removed).operation = some number

/-- A record of the operation. -/
def Describes (operation : Operation) (record : LockRecord) : Prop :=
  record.ownerPid = some operation.owner ∧ record.remoteUpdate = false ∧
    ∀ path, record.statusPath = some path → path ∈ operation.statusPaths

/-- The removal of its lock does no harm. -/
def past (operation : Operation) : Prop := operation.ended = true ∨ operation.ownerGone = true

/-- What holds of an operation, with the files. -/
structure Owns (s : State) (number : Nat) (operation : Operation) : Prop where
  holder : operation.phase ≠ .released → operation.lost = false →
    ∃ inode, s.lock = some inode ∧ (s.inode inode).operation = some number
  handle : operation.phase = .opened →
    operation.owner = operation.pid ∧ (s.inode operation.handle).operation = some number
  writing : ∀ inode path, operation.writing = some (inode, path) →
    (s.inode inode).operation = some number ∧ (s.lock = some inode → operation.owner = operation.pid)
  transferring : ∀ record, operation.transferring = some record →
    ∃ pid path, record = ⟨some pid, some path, false⟩ ∧ path ∈ operation.statusPaths
  statusPath : ∀ path, operation.operationStatusPath = some path → path ∈ operation.statusPaths
  ended : ∀ path ∈ operation.statusPaths, s.status path = some true → operation.ended = true
  alive : operation.ownerGone = false → s.processIsAlive operation.owner = true
  lost : operation.lost = true → past operation
  record : ∀ inode record, s.lock = some inode → (s.inode inode).operation = some number →
    (s.inode inode).content = some record → Describes operation record

/-- What holds of a call of `recoverUpdateOperationLock`. -/
def Judges (s : State) : Recovery → Prop
  | .read inode record => (∀ lock, s.lock = some lock → lock = inode) ∧
    ∀ number, (s.inode inode).operation = some number → Describes (s.operation number) record
  | .removing inode => (∀ lock, s.lock = some lock → lock = inode) ∧
    ∀ number, (s.inode inode).operation = some number → past (s.operation number)
  | _ => True

structure Sound (s : State) : Prop where
  owns : ∀ number, Owns s number (s.operation number)
  judges : ∀ number, Judges s (s.recovery number)
  owned : ∀ inode number, (s.inode inode).operation = some number →
    inode < s.nextInode ∧ number < s.nextOperation
  lock : ∀ inode, s.lock = some inode → inode < s.nextInode
  idle : ∀ number, s.nextRecovery ≤ number → s.recovery number = .done
  proper : ∀ removal ∈ s.removals, Proper s removal

section Steps
variable {s s' : State} {number : Nat} {operation : Operation}

theorem processIsAlive_congr (same : s'.alive = s.alive) (pid : Nat) :
    s'.processIsAlive pid = s.processIsAlive pid := by
  simp [processIsAlive, same]

/-- An operation whose own files have not changed. -/
theorem Owns.frame (owns : Owns s number operation)
    (kinds : ∀ inode, (s.inode inode).operation = some number → (s'.inode inode).operation = some number)
    (held : operation.phase ≠ .released → operation.lost = false → s'.lock = s.lock)
    (lock : ∀ inode, (s'.inode inode).operation = some number → s'.lock = some inode →
      s.lock = some inode ∧ s'.inode inode = s.inode inode)
    (status : s'.status = s.status) (alive : s'.alive = s.alive) : Owns s' number operation where
  holder open' kept := by
    obtain ⟨inode, is, mine⟩ := owns.holder open' kept
    exact ⟨inode, (held open' kept).trans is, kinds inode mine⟩
  handle opened := ⟨(owns.handle opened).1, kinds _ (owns.handle opened).2⟩
  writing inode path writes := by
    obtain ⟨mine, owner⟩ := owns.writing inode path writes
    exact ⟨kinds inode mine, fun is => owner (lock inode (kinds inode mine) is).1⟩
  transferring := owns.transferring
  statusPath := owns.statusPath
  ended path member terminal := owns.ended path member (status ▸ terminal)
  alive runs := (processIsAlive_congr alive _).trans (owns.alive runs)
  lost := owns.lost
  record inode record is mine content := by
    obtain ⟨was, same⟩ := lock inode mine is
    exact owns.record inode record was (same ▸ mine) (same ▸ content)

variable {record : LockRecord}

theorem Describes.mono {operation' : Operation}
    (describes : Describes operation record) (owner : operation'.owner = operation.owner)
    (paths : ∀ path ∈ operation.statusPaths, path ∈ operation'.statusPaths) :
    Describes operation' record :=
  ⟨owner ▸ describes.1, describes.2.1, fun path is => paths path (describes.2.2 path is)⟩

/-- What is known of a lock file stays while it names the same owner. -/
theorem Judges.mono {recovery : Recovery} (judges : Judges s recovery)
    (kinds : ∀ inode, (s'.inode inode).operation = (s.inode inode).operation)
    (lock : ∀ inode, s'.lock = some inode → s.lock = some inode)
    (owner : ∀ number, (s'.operation number).owner = (s.operation number).owner)
    (paths : ∀ number, ∀ path ∈ (s.operation number).statusPaths, path ∈ (s'.operation number).statusPaths)
    (over' : ∀ number, past (s.operation number) → past (s'.operation number)) :
    Judges s' recovery := by
  cases recovery with
  | read inode record =>
    refine ⟨fun found is => judges.1 found (lock found is), fun number mine => ?_⟩
    exact (judges.2 number (kinds inode ▸ mine)).mono (owner number) (paths number)
  | removing inode =>
    refine ⟨fun found is => judges.1 found (lock found is), fun number mine => ?_⟩
    exact over' number (judges.2 number (kinds inode ▸ mine))
  | found | done => trivial

theorem proper_congr {removal : Removal} (kept : ∀ inode number,
    (s.inode inode).operation = some number → (s'.inode inode).operation = some number)
    (proper : Proper s removal) : Proper s' removal := by
  cases removal with
  | recovered read removed => exact proper
  | released number removed => exact kept removed number proper

/-- An operation writes its own files only; the lock and its owner stay. -/
theorem Sound.change (sound : Sound s)
    (operations : s'.operation = Function.update s.operation number operation)
    (kinds : ∀ inode, (s'.inode inode).operation = (s.inode inode).operation)
    (contents : ∀ inode, (s.inode inode).operation ≠ some number → s'.inode inode = s.inode inode)
    (lock : s'.lock = s.lock) (status : s'.status = s.status) (alive : s'.alive = s.alive)
    (recovery : s'.recovery = s.recovery) (removals : s'.removals = s.removals)
    (next : s'.nextInode = s.nextInode ∧ s'.nextOperation = s.nextOperation ∧
      s'.nextRecovery = s.nextRecovery)
    (mine : Owns s' number operation) (owner : operation.owner = (s.operation number).owner)
    (paths : ∀ path ∈ (s.operation number).statusPaths, path ∈ operation.statusPaths)
    (over' : past (s.operation number) → past operation) : Sound s' where
  owns other := by
    rw [operations]
    by_cases same : other = number
    · subst same
      rwa [update_self]
    · rw [update_of_ne same]
      refine (sound.owns other).frame (fun inode is => (kinds inode).trans is)
        (fun _ _ => lock) (fun inode is here => ⟨lock ▸ here, contents inode ?_⟩) status alive
      rw [kinds] at is
      rw [is]
      exact fun equal => same (some_inj.mp equal)
  judges other := by
    rw [recovery]
    refine (sound.judges other).mono kinds (fun inode is => lock ▸ is) (fun n => ?_)
      (fun n => ?_) (fun n => ?_) <;> rw [operations] <;> by_cases same : n = number
    · subst same
      rwa [update_self]
    · rw [update_of_ne same]
    · subst same
      rwa [update_self]
    · rw [update_of_ne same]
      exact fun _ => id
    · subst same
      rwa [update_self]
    · rw [update_of_ne same]
      exact id
  owned inode n is := by
    rw [next.1, next.2.1]
    exact sound.owned inode n (kinds inode ▸ is)
  lock inode is := by
    rw [next.1]
    exact sound.lock inode (lock ▸ is)
  idle n above := by
    rw [recovery]
    exact sound.idle n (next.2.2 ▸ above)
  proper removal member :=
    proper_congr (fun inode _ is => (kinds inode).trans is) (sound.proper removal (removals ▸ member))

theorem judges_of_quiet (sound : Sound s) (calm : quiet s = true) (recovery : Nat) :
    Judges s' (s.recovery recovery) := by
  have idle : judging (s.recovery recovery) = false := by
    by_cases below : recovery < s.nextRecovery
    · simpa [quiet] using all_eq_true.mp calm recovery (mem_range.mpr below)
    · rw [sound.idle recovery (by omega)]
      rfl
  cases is : s.recovery recovery with
  | read inode record => simp [is, judging] at idle
  | removing inode => simp [is, judging] at idle
  | found | done => trivial

variable {content : Option LockRecord}

section
variable (sound : Sound s)
include sound

/-- A new lock file, while no call judges the old one. -/
theorem Sound.create
    (operations : s'.operation = Function.update s.operation number operation)
    (files : s'.inode = Function.update s.inode s.nextInode ⟨content, some number⟩)
    (lock : s'.lock = some s.nextInode) (status : s'.status = s.status) (alive : s'.alive = s.alive)
    (recovery : s'.recovery = s.recovery) (removals : s'.removals = s.removals)
    (next : s'.nextInode = s.nextInode + 1 ∧ s.nextOperation ≤ s'.nextOperation ∧
      number < s'.nextOperation ∧ s'.nextRecovery = s.nextRecovery)
    (calm : quiet s = true)
    (unheld : ∀ inode, s.lock = some inode → (s.inode inode).operation = some number)
    (mine : Owns s' number operation) : Sound s' := by
  have old : ∀ inode n, (s.inode inode).operation = some n → s'.inode inode = s.inode inode := by
    intro inode n is
    rw [files, update_of_ne]
    have := (sound.owned inode n is).1
    omega
  have new : s'.inode s.nextInode = ⟨content, some number⟩ := by
    rw [files, update_self]
  refine ⟨fun other => ?_, fun other => ?_, fun inode n is => ?_, fun inode is => ?_,
    fun n above => ?_, fun removal member => ?_⟩
  · rw [operations]
    by_cases same : other = number
    · subst same
      rwa [update_self]
    · rw [update_of_ne same]
      refine (sound.owns other).frame (fun inode is => (old inode other is).symm ▸ is)
        (fun open' kept => ?_) (fun inode is here => ?_) status alive
      · obtain ⟨inode, is, held⟩ := (sound.owns other).holder open' kept
        rw [unheld inode is] at held
        exact (same (some_inj.mp held).symm).elim
      · rw [lock, some_inj] at here
        subst here
        rw [new] at is
        exact (same (some_inj.mp is).symm).elim
  · rw [recovery]
    exact judges_of_quiet sound calm other
  · by_cases last : inode = s.nextInode
    · subst last
      rw [new] at is
      cases is
      exact ⟨by omega, next.2.2.1⟩
    · rw [files, update_of_ne last] at is
      have := sound.owned inode n is
      omega
  · rw [lock, some_inj] at is
    omega
  · rw [recovery]
    exact sound.idle n (next.2.2.2 ▸ above)
  · exact proper_congr (fun inode n is => (old inode n is).symm ▸ is)
      (sound.proper removal (removals ▸ member))

/-- A call of `recoverUpdateOperationLock` goes on. -/
theorem Sound.setRecovery {recovery : Recovery} (judges : Judges s recovery)
    (known : recovery = .done ∨ number < s.nextRecovery) : Sound (s.setRecovery number recovery) where
  owns other := (sound.owns other).frame (fun _ is => is) (fun _ _ => rfl)
    (fun _ _ is => ⟨is, rfl⟩) rfl rfl
  judges other := by
    have moved : (s.setRecovery number recovery).recovery other =
        if other = number then recovery else s.recovery other := by
      simp [State.setRecovery, update_apply]
    rw [moved]
    split
    · exact judges.mono (fun _ => rfl) (fun _ is => is) (fun _ => rfl) (fun _ _ => id) (fun _ => id)
    · exact (sound.judges other).mono (fun _ => rfl) (fun _ is => is) (fun _ => rfl)
        (fun _ _ => id) (fun _ => id)
  owned := sound.owned
  lock := sound.lock
  idle n above := by
    have idle := sound.idle n above
    simp only [State.setRecovery, update_apply]
    split
    · next same =>
      rcases known with done | below
      · exact done
      · have : s.nextRecovery ≤ n := above
        omega
    · exact idle
  proper removal member := proper_congr (fun _ _ is => is) (sound.proper removal member)

/-- The lock file goes: the operation whose lock it is has released it, or is past. -/
theorem Sound.removed
    (operations : ∀ other, (∀ inode, s.lock = some inode → (s.inode inode).operation ≠ some other) →
      s'.operation other = s.operation other)
    (holder : ∀ inode other, s.lock = some inode → (s.inode inode).operation = some other →
      Owns s' other (s'.operation other))
    (files : s'.inode = s.inode) (lock : s'.lock = none) (status : s'.status = s.status)
    (alive : s'.alive = s.alive) (recovery : s'.recovery = s.recovery)
    (next : s'.nextInode = s.nextInode ∧ s'.nextOperation = s.nextOperation ∧
      s'.nextRecovery = s.nextRecovery)
    (owner : ∀ n, (s'.operation n).owner = (s.operation n).owner ∧
      (s'.operation n).statusPaths = (s.operation n).statusPaths ∧
      (past (s.operation n) → past (s'.operation n)))
    (proper : ∀ removal ∈ s'.removals, Proper s removal) : Sound s' := by
  refine ⟨fun other => ?_, fun other => ?_, fun inode n is => ?_, fun inode is => ?_,
    fun n above => ?_, fun removal member => ?_⟩
  · by_cases held : ∀ inode, s.lock = some inode → (s.inode inode).operation ≠ some other
    · rw [operations other held]
      refine (sound.owns other).frame (fun _ is => files ▸ is) (fun open' kept => ?_)
        (fun inode _ is => ?_) status alive
      · obtain ⟨inode, is, mine⟩ := (sound.owns other).holder open' kept
        exact (held inode is mine).elim
      · rw [lock] at is
        cases is
    · simp only [not_forall, not_not] at held
      obtain ⟨inode, is, mine⟩ := held
      exact holder inode other is mine
  · rw [recovery]
    refine (sound.judges other).mono (fun _ => by rw [files]) (fun inode is => ?_)
      (fun n => (owner n).1) (fun n path member => (owner n).2.1 ▸ member) (fun n => (owner n).2.2)
    rw [lock] at is
    cases is
  · rw [next.1, next.2.1]
    exact sound.owned inode n (files ▸ is)
  · rw [lock] at is
    cases is
  · rw [recovery]
    exact sound.idle n (next.2.2 ▸ above)
  · exact proper_congr (fun _ _ is => files ▸ is) (proper removal member)

theorem exit_sound (pid : Nat) : Sound (s.exit pid) where
  owns other := by
    have owns := sound.owns other
    refine ⟨owns.holder, owns.handle, owns.writing, owns.transferring, owns.statusPath, owns.ended,
      fun runs => ?_, fun lost => ?_, owns.record⟩
    · simp only [exit, Bool.or_eq_false_iff, decide_eq_false_iff_not] at runs
      have alive := owns.alive runs.1
      simpa [processIsAlive, exit, runs.2] using alive
    · exact (owns.lost lost).imp id fun gone => by simp [exit, gone]
  judges other := (sound.judges other).mono (fun _ => rfl) (fun _ is => is) (fun _ => rfl)
    (fun _ _ => id) fun _ over' => over'.imp id fun gone => by simp [exit, gone]
  owned := sound.owned
  lock := sound.lock
  idle := sound.idle
  proper removal member := proper_congr (fun _ _ is => is) (sound.proper removal member)

theorem writeStatus_sound (path : Path) (terminal : Option Bool) :
    Sound (s.writeStatus path terminal) where
  owns other := by
    have owns := sound.owns other
    refine ⟨owns.holder, owns.handle, owns.writing, owns.transferring, owns.statusPath,
      fun found member is => ?_, owns.alive, fun lost => ?_, owns.record⟩
    · simp only [writeStatus, update_apply, Bool.or_eq_true] at is member ⊢
      split at is
      · next same => exact .inr (by simp [is, ← same, member])
      · exact .inl (owns.ended found member is)
    · exact (owns.lost lost).imp (fun ended => by simp [writeStatus, ended]) id
  judges other := (sound.judges other).mono (fun _ => rfl) (fun _ is => is) (fun _ => rfl)
    (fun _ _ => id) fun _ over' => over'.imp (fun ended => by simp [writeStatus, ended]) id
  owned := sound.owned
  lock := sound.lock
  idle := sound.idle
  proper removal member := proper_congr (fun _ _ is => is) (sound.proper removal member)

theorem acquire_sound {pid : Nat} (alive : s.processIsAlive pid = true)
    (permitted : s.lock.isSome = true ∨ quiet s = true) : Sound (s.acquire pid) := by
  unfold acquire
  split
  · exact sound
  · next free =>
    have calm : quiet s = true := permitted.resolve_left free
    rw [Bool.not_eq_true, isSome_eq_false_iff, isNone_iff_eq_none] at free
    refine sound.create rfl rfl rfl rfl rfl rfl rfl ⟨rfl, Nat.le_succ _, Nat.lt_succ_self _, rfl⟩
      calm (fun inode is => ?_) ?_
    · rw [free] at is
      cases is
    · have new : ((s.createLock none s.nextOperation).inode s.nextInode) =
          ⟨none, some s.nextOperation⟩ := update_self _ _ _
      refine ⟨fun _ _ => ⟨s.nextInode, rfl, congrArg Inode.operation new⟩,
        fun _ => ⟨rfl, congrArg Inode.operation new⟩, nofun, nofun, nofun, nofun, fun _ => alive,
        nofun, fun inode record is _ content => ?_⟩
      cases is
      cases (congrArg Inode.content new).symm.trans content

end

variable {inode : Nat}

theorem writeInode_sound (sound : Sound s) (own : (s.inode inode).operation = some number)
    (mine : Owns (s.writeInode inode content) number operation)
    (owner : operation.owner = (s.operation number).owner)
    (paths : ∀ path ∈ (s.operation number).statusPaths, path ∈ operation.statusPaths)
    (over' : past (s.operation number) → past operation) :
    Sound ((s.writeInode inode content).setOperation number operation) := by
  refine sound.change rfl (fun other => ?_) (fun other foreign => ?_) rfl rfl rfl rfl rfl
    ⟨rfl, rfl, rfl⟩ ?_ owner paths over'
  · simp only [setOperation, writeInode, update_apply]
    split
    · next same => rw [same]
    · rfl
  · simp only [setOperation, writeInode, update_apply]
    split
    · next same => exact (foreign (same ▸ own)).elim
    · rfl
  · exact mine.frame (fun _ is => is) (fun _ _ => rfl) (fun _ _ is => ⟨is, rfl⟩) rfl rfl

theorem writeInode_operation (inode other : Nat) (content : Option LockRecord) :
    ((s.writeInode inode content).inode other).operation = (s.inode other).operation := by
  simp only [writeInode, update_apply]
  split
  · next same => rw [same]
  · rfl

/-- What the lock file says of the operation after a write. -/
theorem writeInode_content {inode other : Nat}
    (is : ((s.writeInode inode content).inode other).content = some record) :
    other = inode ∧ content = some record ∨ (s.inode other).content = some record := by
  simp only [writeInode, update_apply] at is
  split at is
  · next same => exact .inl ⟨same, is⟩
  · exact .inr is

theorem write_sound (sound : Sound s) (opened : (s.operation number).phase = .opened) :
    Sound (s.write number) := by
  have owns := sound.owns number
  have handle := owns.handle opened
  have same : ∀ other, ((s.writeInode (s.operation number).handle
      (some ⟨some (s.operation number).pid, none, false⟩)).inode other).operation =
        (s.inode other).operation := fun other => writeInode_operation _ other _
  refine writeInode_sound sound handle.2 ⟨fun _ kept => ?_, nofun, fun inode path writes => ?_,
    owns.transferring, owns.statusPath, owns.ended, owns.alive, owns.lost,
    fun inode record is mine content => ?_⟩ rfl (fun _ => id) id
  · obtain ⟨inode, is, mine⟩ := owns.holder (by rw [opened]; nofun) kept
    exact ⟨inode, is, (same inode).trans mine⟩
  · obtain ⟨mine, owner⟩ := owns.writing inode path writes
    exact ⟨(same inode).trans mine, owner⟩
  · rcases writeInode_content content with ⟨-, written⟩ | old
    · cases written
      exact ⟨congrArg some handle.1.symm, rfl, nofun⟩
    · exact owns.record inode record is ((same inode).symm.trans mine) old

variable {path : Path}

section
variable (sound : Sound s)
include sound

theorem setStatusPath_sound
    (held : (s.operation number).phase = .held) (kept : (s.operation number).lost = false)
    (owner : (s.operation number).owner = (s.operation number).pid) :
    Sound (s.setStatusPath number path) := by
  have owns := sound.owns number
  obtain ⟨lock, is, mine⟩ := owns.holder (by rw [held]; nofun) kept
  have same : ∀ other, ((s.writeInode lock none).inode other).operation =
      (s.inode other).operation := fun other => writeInode_operation _ other _
  have opened : s.openLock number = (s.writeInode lock none, lock) := by
    simp only [openLock, is]
  rw [setStatusPath, opened]
  refine writeInode_sound sound mine ⟨fun _ _ => ⟨lock, is, (same lock).trans mine⟩,
    fun opened => ?_, fun inode path writes => ?_, owns.transferring, owns.statusPath, owns.ended,
    owns.alive, owns.lost, fun inode record here mine content => ?_⟩ rfl (fun _ => id) id
  · obtain ⟨_, handle⟩ := owns.handle opened
    exact ⟨owner, (same _).trans handle⟩
  · cases writes
    exact ⟨(same lock).trans mine, fun _ => owner⟩
  · rcases writeInode_content content with ⟨-, written⟩ | old
    · cases written
    · exact owns.record inode record here ((same inode).symm.trans mine) old

theorem writeStatusPath_sound (writes : (s.operation number).writing = some (inode, path)) :
    Sound (s.writeStatusPath number inode path) := by
  have owns := sound.owns number
  obtain ⟨mine, owner⟩ := owns.writing inode path writes
  have same : ∀ other, ((s.writeInode inode
      (some ⟨some (s.operation number).pid, some path, false⟩)).inode other).operation =
        (s.inode other).operation := fun other => writeInode_operation _ other _
  -- the write does not change the owner: it was the process itself if this is the lock file
  have owner' : (if s.lock = some inode then (s.operation number).pid
      else (s.operation number).owner) = (s.operation number).owner := by
    split
    · next here => exact (owner here).symm
    · rfl
  have gone : (if (decide (s.lock = some inode) &&
        decide ((s.operation number).owner ≠ (s.operation number).pid)) = true then
      !s.processIsAlive (s.operation number).pid else (s.operation number).ownerGone) =
        (s.operation number).ownerGone := by
    refine if_neg ?_
    simp only [Bool.and_eq_true, decide_eq_true_eq, not_and, not_not]
    exact owner
  unfold writeStatusPath
  simp only [owner', gone]
  refine writeInode_sound sound mine ⟨fun open' kept => ?_, fun opened => ?_, nofun,
    fun record transfers => ?_, fun found is => ?_, fun found member is => ?_, owns.alive,
    fun lost => ?_, fun other record here mine content => ?_⟩ rfl
    (fun _ => mem_cons_of_mem _) ?_
  · obtain ⟨lock, is, mine⟩ := owns.holder open' kept
    exact ⟨lock, is, (same lock).trans mine⟩
  · exact ⟨(owns.handle opened).1, (same _).trans (owns.handle opened).2⟩
  · obtain ⟨pid, found, is, member⟩ := owns.transferring record transfers
    exact ⟨pid, found, is, mem_cons_of_mem _ member⟩
  · cases is
    exact mem_cons_self
  · rw [Bool.or_eq_true, decide_eq_true_eq]
    rcases mem_cons.mp member with rfl | old
    · exact .inr is
    · exact .inl (owns.ended found old is)
  · exact (owns.lost lost).imp (fun ended => by simp [ended]) id
  · rcases writeInode_content content with ⟨rfl, written⟩ | old
    · cases written
      exact ⟨congrArg some (owner here).symm, rfl, by simp⟩
    · refine (owns.record other record here ((same other).symm.trans mine) old).mono rfl
        fun _ => mem_cons_of_mem _
  · exact fun over' => over'.imp (fun ended => by simp [ended]) id

theorem rename_sound (transfers : (s.operation number).transferring = some record)
    (calm : quiet s = true) (kept : (s.operation number).lost = false)
    (held : (s.operation number).phase = .held) : Sound (s.rename number record) := by
  have owns := sound.owns number
  obtain ⟨lock, is, mine⟩ := owns.holder (by rw [held]; nofun) kept
  obtain ⟨pid, path, rfl, member⟩ := owns.transferring _ transfers
  have old : ∀ inode n, (s.inode inode).operation = some n →
      (s.createLock (some ⟨some pid, some path, false⟩) number).inode inode = s.inode inode := by
    intro inode n is
    have := (sound.owned inode n is).1
    exact update_of_ne (by omega) _ _
  have new : (s.createLock (some ⟨some pid, some path, false⟩) number).inode s.nextInode =
      ⟨some ⟨some pid, some path, false⟩, some number⟩ := update_self _ _ _
  refine sound.create rfl rfl rfl rfl rfl rfl rfl
    ⟨rfl, Nat.le_refl _, (sound.owned lock number mine).2, rfl⟩ calm (fun inode here => ?_)
    ⟨fun _ _ => ⟨s.nextInode, rfl, congrArg Inode.operation new⟩, fun opened => ?_,
      fun inode path writes => ?_, nofun, owns.statusPath, owns.ended, fun runs => ?_,
      fun lost => ?_, fun inode record here _ content => ?_⟩
  · rw [is] at here
    cases here
    exact mine
  · rw [held] at opened
    cases opened
  · obtain ⟨mine, _⟩ := owns.writing inode path writes
    refine ⟨(congrArg Inode.operation (old inode number mine)).trans mine, fun here => ?_⟩
    have := (sound.owned inode number mine).1
    cases here
    omega
  · have alive : s.processIsAlive pid = true := by simpa using runs
    exact alive
  · exact absurd lost (by simp [kept])
  · cases here
    cases (congrArg Inode.content new).symm.trans content
    exact ⟨rfl, rfl, by simp [member]⟩

/-- A change of one operation that touches no file and keeps its owner. -/
theorem setOperation_sound (mine : Owns s number operation)
    (owner : operation.owner = (s.operation number).owner)
    (paths : operation.statusPaths = (s.operation number).statusPaths)
    (over' : past (s.operation number) → past operation) :
    Sound (s.setOperation number operation) :=
  sound.change rfl (fun _ => rfl) (fun _ _ => rfl) rfl rfl rfl rfl rfl ⟨rfl, rfl, rfl⟩
    (mine.frame (fun _ is => is) (fun _ _ => rfl) (fun _ _ is => ⟨is, rfl⟩) rfl rfl) owner
    (fun _ member => paths ▸ member) over'

theorem transferTo_sound {pid : Nat}
    (is : (s.operation number).operationStatusPath = some path) :
    Sound (s.setOperation number { s.operation number with
      transferring := some ⟨some pid, some path, false⟩ }) := by
  have owns := sound.owns number
  refine setOperation_sound sound ⟨owns.holder, owns.handle, owns.writing, fun record transfers => ?_,
    owns.statusPath, owns.ended, owns.alive, owns.lost, owns.record⟩ rfl rfl id
  cases transfers
  exact ⟨pid, path, rfl, owns.statusPath path is⟩

theorem release_sound (held : (s.operation number).phase = .held) :
    Sound (s.setOperation number { s.operation number with phase := .releasing }) := by
  have owns := sound.owns number
  exact setOperation_sound sound ⟨fun _ => owns.holder (by rw [held]; nofun), nofun, owns.writing,
    owns.transferring, owns.statusPath, owns.ended, owns.alive, owns.lost, owns.record⟩ rfl rfl id

theorem remove_sound (releasing : (s.operation number).phase = .releasing)
    (kept : (s.operation number).lost = false) :
    Sound ((s.remove (.released number)).setOperation number
      { s.operation number with phase := .released }) := by
  have owns := sound.owns number
  obtain ⟨lock, is, mine⟩ := owns.holder (by rw [releasing]; nofun) kept
  have only : ∀ inode other, s.lock = some inode → (s.inode inode).operation = some other →
      other = number := by
    intro inode other here held
    rw [is] at here
    cases here
    rw [mine] at held
    exact (some_inj.mp held).symm
  have removed : s.remove (.released number) =
      { s with lock := none, removals := s.removals ++ [.released number lock] } := by
    simp only [remove, is]
  rw [removed]
  refine sound.removed (fun other free => ?_) (fun inode other here held => ?_) rfl rfl rfl rfl rfl
    ⟨rfl, rfl, rfl⟩ (fun n => ?_) fun removal member => ?_
  · have different : other ≠ number := by
      rintro rfl
      exact free lock is mine
    exact update_of_ne different _ _
  · cases only inode other here held
    have moved : ∀ t : State, (t.setOperation number
        { s.operation number with phase := .released }).operation number =
          { s.operation number with phase := .released } := fun _ => update_self _ _ _
    rw [moved]
    exact ⟨fun open' => absurd rfl open', nofun, fun inode path writes =>
      ⟨(owns.writing inode path writes).1, nofun⟩, owns.transferring, owns.statusPath, owns.ended,
      owns.alive, owns.lost, nofun⟩
  · simp only [setOperation, update_apply]
    split
    · next same =>
      subst same
      exact ⟨rfl, rfl, id⟩
    · exact ⟨rfl, rfl, id⟩
  · rcases mem_append.mp member with old | new
    · exact sound.proper removal old
    · cases mem_singleton.mp new
      exact mine

theorem removeLock_sound {recovery inode : Nat}
    (removing : s.recovery recovery = .removing inode) :
    Sound (s.loseLock.remove (.recovered inode)) := by
  have judges := sound.judges recovery
  rw [removing] at judges
  obtain ⟨only, over'⟩ := judges
  cases is : s.lock with
  | none =>
    have gone : s.loseLock.remove (.recovered inode) = s := by
      simp [loseLock, remove, is]
    rwa [gone]
  | some lock =>
    cases only lock is
    have proper : ∀ removal ∈ s.removals ++ [.recovered inode inode], Proper s removal := by
      intro removal member
      rcases mem_append.mp member with old | new
      · exact sound.proper removal old
      · cases mem_singleton.mp new
        exact rfl
    cases mine : (s.inode inode).operation with
    | none =>
      have removed : s.loseLock.remove (.recovered inode) =
          { s with lock := none, removals := s.removals ++ [.recovered inode inode] } := by
        simp [loseLock, remove, is, mine]
      rw [removed]
      refine sound.removed (fun _ _ => rfl) (fun found other here held => ?_) rfl rfl rfl rfl rfl
        ⟨rfl, rfl, rfl⟩ (fun _ => ⟨rfl, rfl, id⟩) proper
      rw [is] at here
      cases here
      rw [mine] at held
      cases held
    | some number =>
      have owns := sound.owns number
      have removed : s.loseLock.remove (.recovered inode) =
          { s.setOperation number { s.operation number with lost := true } with
            lock := none
            removals := s.removals ++ [.recovered inode inode] } := by
        simp [loseLock, remove, is, mine, setOperation]
      rw [removed]
      refine sound.removed (fun other free => ?_) (fun found other here held => ?_) rfl rfl rfl rfl
        rfl ⟨rfl, rfl, rfl⟩ (fun n => ?_) proper
      · have different : other ≠ number := by
          rintro rfl
          exact free inode is mine
        exact update_of_ne different _ _
      · rw [is] at here
        cases here
        rw [mine] at held
        cases held
        have moved : (s.setOperation number { s.operation number with lost := true }).operation number =
              { s.operation number with lost := true } := update_self _ _ _
        simp only [moved]
        exact ⟨nofun, owns.handle, fun inode path writes =>
          ⟨(owns.writing inode path writes).1, nofun⟩, owns.transferring, owns.statusPath,
          owns.ended, owns.alive, fun _ => over' number mine, nofun⟩
      · simp only [setOperation, update_apply]
        split
        · next same =>
          subst same
          exact ⟨rfl, rfl, id⟩
        · exact ⟨rfl, rfl, id⟩

end

theorem processIsAlive_of_all {s : State} {owner : Option Nat} {pid : Nat} (is : owner = some pid)
    (dead : (owner.all fun pid => !s.processIsAlive pid) = true) : s.processIsAlive pid = false := by
  simpa [is] using dead

theorem judge_judges (sound : Sound s) : Judges s s.judge := by
  unfold judge
  split
  · trivial
  · next inode is =>
    have only : ∀ lock, s.lock = some lock → lock = inode := by
      intro lock here
      rw [is] at here
      exact (some_inj.mp here).symm
    split
    · trivial
    · next record content =>
      have describes : ∀ number, (s.inode inode).operation = some number →
          Describes (s.operation number) record := fun number mine =>
        (sound.owns number).record inode record is mine content
      split
      · next remote =>
        refine ⟨only, fun number mine => ?_⟩
        rw [(describes number mine).2.1] at remote
        cases remote
      · split
        · exact ⟨only, describes⟩
        · trivial

theorem judgeStatus_judges (sound : Sound s)
    (judges : Judges s (.read inode record)) : Judges s (s.judgeStatus inode record) := by
  unfold judgeStatus
  split
  · trivial
  · next terminal is =>
    split
    · next stale =>
      refine ⟨judges.1, fun number mine => ?_⟩
      obtain ⟨owner, -, paths⟩ := judges.2 number mine
      have owns := sound.owns number
      rcases (Bool.or_eq_true _ _).mp stale with rfl | dead
      · obtain ⟨path, named, status⟩ := bind_eq_some_iff.mp is
        exact .inl (owns.ended path (paths path named) status)
      · -- the owner that the record names is still the owner, and it does not run
        refine .inr ?_
        have gone := processIsAlive_of_all owner dead
        cases runs : (s.operation number).ownerGone with
        | true => rfl
        | false =>
          rw [owns.alive runs] at gone
          cases gone
    · trivial

theorem nextRecovery_of_judging (sound : Sound s) {recovery : Nat}
    (begun : s.recovery recovery ≠ .done) : recovery < s.nextRecovery := by
  by_contra above
  exact begun (sound.idle recovery (by omega))

theorem step_sound (sound : Sound s) {event : Event} (permitted : allowed s event = true)
    (moved : step s event = some s') : Sound s' := by
  cases event with
  | start pid =>
    cases moved
    refine ⟨fun other => ?_, fun other => ?_, sound.owned, sound.lock, sound.idle, fun removal member =>
      proper_congr (fun _ _ is => is) (sound.proper removal member)⟩
    · have owns := sound.owns other
      refine ⟨owns.holder, owns.handle, owns.writing, owns.transferring, owns.statusPath, owns.ended,
        fun runs => ?_, owns.lost, owns.record⟩
      have alive := owns.alive runs
      simp only [processIsAlive, Bool.and_eq_true, decide_eq_true_eq, mem_cons] at alive ⊢
      exact ⟨alive.1, .inr alive.2⟩
    · exact (sound.judges other).mono (fun _ => rfl) (fun _ is => is) (fun _ => rfl) (fun _ _ => id)
        (fun _ => id)
  | exit pid =>
    cases moved
    exact exit_sound sound pid
  | status path terminal =>
    cases moved
    exact writeStatus_sound sound path terminal
  | acquire pid =>
    simp only [step, ite_none_right_eq_some, some.injEq] at moved
    obtain ⟨alive, rfl⟩ := moved
    exact acquire_sound sound alive (by simpa [allowed] using permitted)
  | write number =>
    simp only [step, ite_none_right_eq_some, some.injEq] at moved
    obtain ⟨opened, rfl⟩ := moved
    exact write_sound sound opened
  | setStatusPath number path =>
    simp only [step, ite_none_right_eq_some, some.injEq, Bool.and_eq_true, decide_eq_true_eq] at moved
    obtain ⟨⟨⟨held, -⟩, -⟩, rfl⟩ := moved
    simp only [allowed, Bool.and_eq_true, Bool.not_eq_true', decide_eq_true_eq] at permitted
    exact setStatusPath_sound sound held permitted.1 permitted.2
  | statusPathWritten number =>
    obtain ⟨writing, is, rfl⟩ := map_eq_some_iff.mp moved
    exact writeStatusPath_sound sound is
  | transferTo number pid =>
    simp only [step, ite_none_right_eq_some] at moved
    obtain ⟨path, is, rfl⟩ := map_eq_some_iff.mp moved.2
    exact transferTo_sound sound is
  | rename number =>
    obtain ⟨record, transfers, rfl⟩ := map_eq_some_iff.mp moved
    simp only [allowed, Bool.and_eq_true, Bool.not_eq_true', decide_eq_true_eq] at permitted
    exact rename_sound sound transfers permitted.1.1 permitted.1.2 permitted.2
  | release number =>
    simp only [step, ite_none_right_eq_some, some.injEq] at moved
    obtain ⟨held, rfl⟩ := moved
    exact release_sound sound held
  | remove number =>
    simp only [step, ite_none_right_eq_some, some.injEq] at moved
    obtain ⟨releasing, rfl⟩ := moved
    exact remove_sound sound releasing (by simpa [allowed] using permitted)
  | recover =>
    simp only [step, some.injEq] at moved
    subst moved
    split
    · have begun : Sound { s with nextRecovery := s.nextRecovery + 1 } := by
        refine ⟨fun other => ?_, fun other => ?_, sound.owned, sound.lock, fun n above => ?_,
          fun removal member => proper_congr (fun _ _ is => is) (sound.proper removal member)⟩
        · exact (sound.owns other).frame (fun _ is => is) (fun _ _ => rfl) (fun _ _ is => ⟨is, rfl⟩)
            rfl rfl
        · exact (sound.judges other).mono (fun _ => rfl) (fun _ is => is) (fun _ => rfl)
            (fun _ _ => id) (fun _ => id)
        · exact sound.idle n (Nat.le_of_succ_le above)
      exact begun.setRecovery trivial (.inr (Nat.lt_succ_self _))
    · exact sound
  | readLock recovery =>
    simp only [step, ite_none_right_eq_some, some.injEq] at moved
    obtain ⟨found, rfl⟩ := moved
    exact sound.setRecovery (judge_judges sound)
      (.inr (nextRecovery_of_judging sound (by simp [found])))
  | readStatus recovery =>
    simp only [step] at moved
    split at moved
    · next inode record is =>
      cases moved
      have judges := sound.judges recovery
      rw [is] at judges
      exact sound.setRecovery (judgeStatus_judges sound judges)
        (.inr (nextRecovery_of_judging sound (by simp [is])))
    · cases moved
  | removeLock recovery =>
    simp only [step] at moved
    split at moved
    · next inode is =>
      cases moved
      exact (removeLock_sound sound is).setRecovery trivial (.inl rfl)
    · cases moved
  | abandon recovery =>
    cases moved
    exact sound.setRecovery trivial (.inl rfl)

theorem initial_sound (left : Option (Option LockRecord)) (status : Path → Option Bool)
    (alive : List Nat) : Sound (initial left status alive) where
  owns _ := ⟨fun open' => absurd rfl open', nofun, nofun, nofun, nofun, nofun, nofun, nofun, nofun⟩
  judges _ := trivial
  owned := nofun
  lock inode is := by
    simp only [initial, map_eq_some_iff] at is
    obtain ⟨_, -, rfl⟩ := is
    exact Nat.zero_lt_one
  idle _ _ := rfl
  proper := nofun

end Steps

section Runs
variable {left : Option (Option LockRecord)} {status : Path → Option Bool} {alive : List Nat}
  {events : List Event} {s : State}

theorem reaches_sound (reached : Reaches left status alive events s) : Sound s := by
  exact reached.invariant (initial_sound left status alive) fun _ _ _ sound ⟨permitted, moved⟩ =>
    step_sound sound permitted moved

theorem live_holds (sound : Sound s) {number : Nat} (lives : live s number = true) :
    ∃ inode, s.lock = some inode ∧ (s.inode inode).operation = some number := by
  simp only [live, Bool.and_eq_true, Bool.or_eq_true, decide_eq_true_eq, Bool.not_eq_true'] at lives
  obtain ⟨⟨phase, runs⟩, going⟩ := lives
  have owns := sound.owns number
  refine owns.holder (by rcases phase with is | is <;> rw [is] <;> nofun) ?_
  cases lost : (s.operation number).lost with
  | false => rfl
  | true =>
    rcases owns.lost lost with ended | gone
    · simp [going] at ended
    · simp [runs] at gone

/-- At most one live operation has the lock, and nothing but the lock that was read, or the own
one, is removed. -/
theorem lock_exclusive (reached : Reaches left status alive events s) :
    (∀ number other, live s number = true → live s other = true → number = other) ∧
      ∀ removal ∈ s.removals, Proper s removal := by
  have sound := reaches_sound reached
  refine ⟨fun number other first second => ?_, sound.proper⟩
  obtain ⟨inode, is, mine⟩ := live_holds sound first
  obtain ⟨lock, here, held⟩ := live_holds sound second
  rw [is] at here
  cases here
  rw [mine] at held
  exact some_inj.mp held

end Runs

def statusPath : Path := ⟨"/state/update-1/status.json", true⟩

/-- The status file that the recovery of a lock reads. -/
def installed (path : Path) : Option Bool := if path = statusPath then some true else none

/-- An update is handed over and ends; its lock is recovered, and the next update begins. -/
def handedOver : List Event :=
  [.acquire 1, .write 0, .setStatusPath 0 statusPath, .statusPathWritten 0, .transferTo 0 2,
    .rename 0, .exit 1, .status statusPath (some true), .recover, .readLock 0, .readStatus 0,
    .removeLock 0, .acquire 3, .write 1]

/-- The calls of a run in which every event is allowed. -/
def allowedStep (s : State) (event : Event) : Option State :=
  if allowed s event then step s event else none

theorem reaches_of_foldlM {left : Option (Option LockRecord)} {status : Path → Option Bool}
    {alive : List Nat} {events : List Event} {s : State}
    (ran : events.foldlM allowedStep (initial left status alive) = some s) :
    Reaches left status alive events s :=
  (Run.of_foldlM ran).mono fun s event s' moved => by
    unfold allowedStep at moved
    split at moved
    · next permitted => exact ⟨permitted, moved⟩
    · cases moved

theorem lock_exclusive_sample : ∃ s, Reaches none (fun _ => none) [1, 2, 3] handedOver s ∧ live s 1 = true ∧
      s.removals = [.recovered 2 2] ∧ ∀ number, live s number = true → number = 1 := by
  have ran : ∃ s, handedOver.foldlM allowedStep (initial none (fun _ => none) [1, 2, 3]) = some s ∧
      live s 1 = true ∧ s.removals = [.recovered 2 2] := ⟨_, rfl, rfl, rfl⟩
  obtain ⟨s, reached, lives, removals⟩ := ran
  have exclusive := lock_exclusive (reaches_of_foldlM reached)
  exact ⟨s, reaches_of_foldlM reached, lives, removals, fun number other =>
    exclusive.1 number 1 other lives⟩

/-- Two calls read the same stale lock. The second removes the lock of the update that has begun
after the first, and another update begins beside it. -/
theorem two_live_operations :
    ∃ s, [.recover, .recover, .readLock 0, .readStatus 0, .readLock 1, .readStatus 1,
        .removeLock 0, .acquire 1, .write 0, .removeLock 1, .acquire 2, .write 1].foldlM step
        (initial (some (some ⟨some 9, some statusPath, false⟩)) installed [1, 2]) = some s ∧
      live s 0 = true ∧ live s 1 = true ∧ s.removals = [.recovered 0 0, .recovered 0 1] ∧
      (s.inode 1).operation = some 0 :=
  ⟨_, rfl, rfl, rfl, rfl, rfl⟩

end CodexHost.Guarantees.UpdateLock
