import CodexHost.Guarantees.OfficialWork
import CodexHost.Guarantees.OfficialRuntimes

/-!
# Runs of the official owner

As long as no failed send meets an entry of another operation, the tokens of the gate are those
of the operations under way and of the registered requests. What belongs to a closed client or to
a stopped owner awaits nothing but its connection.
-/
namespace CodexHost.Guarantees.OfficialWork
open Foundation Source.HostRuntime.OfficialRuntimeOwner List Option State Nat

variable {c : Nat}

section Steps
variable {s s' : State} {n : Nat} {operation : Operation}

/-- The failed send that goes on meets no entry of another operation under its request ID. -/
def undisturbed (s : State) : Event → Bool
  | .resume n =>
    match s.operation n with
    | some ⟨client, some id, _, _, .send _ (some false)⟩ =>
      ((s.client client).pending.get? id).all (·.token = n)
    | _ => true
  | _ => true

variable {id : RequestId}

theorem no_entry (accounts : Accounts s) (is : s.operation n = some operation)
    (holding : holds operation) {pending : Pending}
    (present : (s.client c).pending.get? id = some pending) : pending.token ≠ n := by
  intro token
  rw [(accounts.own_entry is present token).2.2.2] at holding
  cases holding

/-- The entry of a request that was not refused is at a runtime that lives. -/
theorem sent_runtimes (runtimes : Runtimes s) (is : s.operation n = some operation)
    (sent : ∀ runtime, operation.stage ≠ .send runtime (some false)) {stage : Stage}
    (of : StageOf s operation.client stage) : Runtimes (s.setStage n stage) := by
  refine setStage_runtimes runtimes is of ?_
  rintro c id pending present rfl
  refine .inl ((runtimes.entry c id pending present).resolve_right ?_)
  rintro ⟨other, runtime, is', failed⟩
  rw [is] at is'
  cases is'
  exact sent runtime failed

theorem finish_sound (accounts : Accounts s) (runtimes : Runtimes s)
    (is : s.operation n = some operation) (holding : holds operation) :
    Kept s (s.finish n) ∧ Runtimes (s.finish n) := by
  refine ⟨finish_kept accounts is holding, ?_⟩
  refine setStage_runtimes (release_runtimes runtimes n) is trivial fun c id pending present => ?_
  exact fun token => absurd token (no_entry accounts is holding present)

variable {runtime : Nat}

section
variable (accounts : Accounts s)
include accounts

section
variable (runtimes : Runtimes s)
include runtimes

variable (is : s.operation n = some operation)
include is

variable (holding : holds operation)
include holding

theorem stage_runtimes {stage : Stage} (of : StageOf s operation.client stage) :
    Runtimes (s.setStage n stage) :=
  setStage_runtimes runtimes is of fun _ _ _ present token => absurd token (no_entry accounts is holding present)

section
variable (of : RuntimeOf s runtime operation.client)
include of

theorem proceed_sound :
    Kept s (s.proceed n operation runtime) ∧ Runtimes (s.proceed n operation runtime) := by
  have same := restore_same s operation.client runtime operation.method operation.thread
  obtain ⟨restored, extended, promised⟩ :=
    restore_runtimes runtimes of operation.method operation.thread
  have kept := same.kept accounts
  have is' := (congrFun same.operation n).trans is
  refine ⟨kept.trans (setStage_kept kept.accounts is' holding.symm nofun), ?_⟩
  exact stage_runtimes kept.accounts restored is' holding ⟨extended.runtime _ _ of, promised⟩

/-- A request is registered; its runtime lives, or has refused it already. -/
theorem register_runtimes (id : RequestId) (pending : Pending)
    (token : pending.token = n) :
    Runtimes ((s.setClient operation.client (fun client => { client with
      pending := client.pending.set id pending })).setStage n (.send runtime
        (if (s.runtime runtime).closing then some false else none))) := by
  have sent : Runtimes (s.setStage n (.send runtime
      (if (s.runtime runtime).closing then some false else none))) :=
    stage_runtimes accounts runtimes is holding of
  have staged : (s.setStage n (.send runtime
      (if (s.runtime runtime).closing then some false else none))).operation n =
      some { operation with
        stage := .send runtime (if (s.runtime runtime).closing then some false else none) } := by
    simp [setStage, is]
  refine changePending_runtimes sent operation.client (·.set id pending) fun id' pending' found => ?_
  rw [OrderedMap.get?_set] at found
  split at found
  · cases found
    rw [token]
    refine .inr ?_
    by_cases closing : (s.runtime runtime).closing = true
    · exact .inr ⟨_, runtime, staged, by simp [closing]⟩
    · have closing : (s.runtime runtime).closing = false := by simpa using closing
      refine .inl ⟨runtime, ?_, closing⟩
      have has := (runtimes.alive runtime of.1 closing).2.2
      rw [of.2] at has
      exact has
  · exact .inl found

theorem transmit_sound :
    Kept s (s.transmit n operation runtime) ∧ Runtimes (s.transmit n operation runtime) := by
  unfold transmit
  split
  · exact ⟨setStage_kept accounts is holding.symm nofun, stage_runtimes accounts runtimes is holding of⟩
  · next id key =>
    split
    · exact finish_sound accounts runtimes is holding
    · next free =>
      exact ⟨register_kept accounts is holding key (by simpa using free) _ rfl runtime _,
        register_runtimes accounts runtimes is holding of id _ rfl⟩

end

theorem settle_sound (runtime : Nat)
    (response : Response) :
    Kept s (s.settle n operation runtime response) ∧ Runtimes (s.settle n operation runtime response) := by
  unfold settle
  split
  · have same := remember_same s operation.client operation.method operation.thread response
    have kept := same.kept accounts
    have remembered := remember_runtimes runtimes operation.client operation.method operation.thread response
    obtain ⟨kept', ended⟩ := finish_sound kept.accounts remembered
      ((congrFun same.operation n).trans is) holding
    exact ⟨kept.trans kept', ended⟩
  · exact finish_sound accounts runtimes is holding

end

/-- The operation leaves its entry, and has no other. -/
theorem remove_entry (is : s.operation n = some operation) (key : operation.id = some id) {id' : RequestId}
    {pending : Pending}
    (present : ((s.setClient operation.client (fun client => { client with
      pending := client.pending.delete id })).client c).pending.get? id' = some pending) :
    pending.token ≠ n := by
  rintro rfl
  rw [setClient_pending_delete] at present
  split at present
  · cases present
  · next apart =>
    obtain ⟨-, client, key', -⟩ := accounts.own_entry is present rfl
    exact apart ⟨client.symm, some_inj.mp (key'.symm.trans key)⟩

end

theorem remove_runtimes (runtimes : Runtimes s) (c : Nat) (id : RequestId) :
    Runtimes (s.setClient c (fun client => { client with
      pending := client.pending.delete id })) := by
  exact changePending_runtimes runtimes c (·.delete id) fun id' pending found =>
    .inl (OrderedMap.kept_of_delete found).2

theorem unsent_sound (accounts : Accounts s) (runtimes : Runtimes s)
    (is : s.operation n = some operation) (idle : holds operation = false)
    (key : operation.id = some id)
    (own : ∀ pending, (s.client operation.client).pending.get? id = some pending → pending.token = n) :
    Kept s (s.unsent n operation id) ∧ Runtimes (s.unsent n operation id) := by
  have removed := remove_kept accounts is idle key own
  have left : ((s.setClient operation.client (fun client => { client with
      pending := client.pending.delete id })).release n).operation n = some operation := is
  refine ⟨removed.trans (setStage_kept removed.accounts left idle.symm nofun), ?_⟩
  refine setStage_runtimes (release_runtimes (remove_runtimes runtimes _ id) n) left trivial ?_
  exact fun c id' pending present token => absurd token (remove_entry accounts is key present)

/-- What a continuation does. -/
inductive Resumes (s : State) (n : Nat) (operation : Operation) : State → Prop where
  | finish (holding : holds operation) : Resumes s n operation (s.finish n)
  | proceed (runtime : Nat) (wait : ConnectionWait) (stage : operation.stage = .connection wait)
      (given : wait = .runtime runtime ∨
        ∃ promise, wait = .promise promise ∧ (s.connecting promise).outcome = some (some runtime)) :
      Resumes s n operation (s.proceed n operation runtime)
  | transmit (runtime : Nat) (restoring : Option Nat) (stage : operation.stage = .restore runtime restoring) :
      Resumes s n operation (s.transmit n operation runtime)
  | settle (runtime : Nat) (response : Response)
      (stage : operation.stage = .request runtime (some (some response))) :
      Resumes s n operation (s.settle n operation runtime response)
  | sent (runtime : Nat) (stage : operation.stage = .send runtime (some true)) :
      Resumes s n operation (s.setStage n .done)
  | unsent (runtime : Nat) (id : RequestId) (stage : operation.stage = .send runtime (some false))
      (key : operation.id = some id) : Resumes s n operation (s.unsent n operation id)

theorem resumes_of (resumes : s.resume n operation = some s') : Resumes s n operation s' := by
  unfold resume at resumes
  split at resumes
  · next stage =>
    cases resumes
    exact .finish (by simp [holds, stage])
  · next runtime stage =>
    cases resumes
    exact .proceed runtime _ stage (.inl rfl)
  · next promise stage =>
    split at resumes
    · cases resumes
    · cases resumes
      exact .finish (by simp [holds, stage])
    · next runtime outcome =>
      cases resumes
      exact .proceed runtime _ stage (.inr ⟨promise, rfl, outcome⟩)
  · next runtime stage =>
    cases resumes
    exact .transmit runtime _ stage
  · next runtime promise stage =>
    split at resumes
    · cases resumes
    · cases resumes
      exact .finish (by simp [holds, stage])
    · cases resumes
      exact .transmit runtime _ stage
  · next stage =>
    split at resumes
    · cases resumes
      exact .finish (by simp [holds, stage])
    · cases resumes
  · next stage =>
    cases resumes
    exact .finish (by simp [holds, stage])
  · next runtime response stage =>
    cases resumes
    exact .settle runtime response stage
  · cases resumes
  · next runtime stage =>
    cases resumes
    exact .sent runtime stage
  · next runtime stage =>
    split at resumes
    · cases resumes
    · next id key =>
      cases resumes
      exact .unsent runtime id stage key
  · cases resumes

theorem resume_sound (accounts : Accounts s) (runtimes : Runtimes s)
    (is : s.operation n = some operation) (allowed : undisturbed s (.resume n))
    (resumes : s.resume n operation = some s') : Kept s s' ∧ Runtimes s' := by
  have of := runtimes.references.operation n operation is
  cases resumes_of resumes with
  | finish holding => exact finish_sound accounts runtimes is holding
  | proceed runtime wait stage given =>
    rw [stage] at of
    refine proceed_sound accounts runtimes is (by simp [holds, stage]) ?_
    rcases given with rfl | ⟨promise, rfl, outcome⟩
    · exact of
    · have connected := runtimes.references.connected promise runtime outcome
      rwa [of.2] at connected
  | transmit runtime restoring stage =>
    rw [stage] at of
    exact transmit_sound accounts runtimes is (by simp [holds, stage]) of.1
  | settle runtime response stage =>
    exact settle_sound accounts runtimes is (by simp [holds, stage]) runtime response
  | sent runtime stage =>
    have idle : holds operation = false := by simp [holds, stage]
    exact ⟨setStage_kept accounts is idle.symm nofun, sent_runtimes runtimes is (by simp [stage]) trivial⟩
  | unsent runtime id stage key =>
    refine unsent_sound accounts runtimes is (by simp [holds, stage]) key fun pending found => ?_
    obtain ⟨client, _, method, thread, _⟩ := operation
    cases stage
    cases key
    simp only [undisturbed, is, found, all_some, decide_eq_true_eq] at allowed
    exact allowed

/-- Runtimes do not depend on when an active owner is starting or running. -/
theorem phase_runtimes (runtimes : Runtimes s) (phase : Phase)
    (same : (decide (phase = .starting) || decide (phase = .running)) = s.active) :
    Runtimes { s with phase := phase } :=
  { runtimes with
    references := { runtimes.references with }
    alive := fun runtime below lives => (runtimes.alive runtime below lives).imp_left same.trans
    backend := fun active => runtimes.backend (same.symm.trans active) }

theorem attach_runtimes (runtimes : Runtimes s) :
    Runtimes { s with clients := s.clients ++ [s.clientCount], clientCount := s.clientCount + 1 } := by
  refine { runtimes with
    references := { runtimes.references with }
    attached := fun c member => ?_
    distinct := nodup_append.mpr ⟨runtimes.distinct, nodup_singleton _, ?_⟩
    alive := fun runtime below lives => ?_ }
  · rcases mem_append.mp member with before | new
    · exact Nat.lt_succ_of_lt (runtimes.attached c before)
    · rw [mem_singleton.mp new]
      exact Nat.lt_succ_self _
  · rintro c member c' new rfl
    have below := runtimes.attached c member
    rw [mem_singleton.mp new] at below
    exact Nat.lt_irrefl _ below
  · exact (runtimes.alive runtime below lives).imp_right (·.imp_left (mem_append_left _))

/-- The backend of a new generation has no promises yet. -/
theorem start_runtimes (runtimes : Runtimes s) (stopped : s.phase = .stopped) : Runtimes { s with
      phase := .starting
      backend := some (s.generation + 1)
      generation := s.generation + 1
      starting := true } := by
  have closing := runtimes.closing (by simp [State.active, stopped])
  refine { runtimes with
    references := { runtimes.references with }
    alive := fun runtime below lives => ?_
    backend := fun _ => rfl
    generation := ⟨fun backend is => ?_, fun promise below => ?_⟩
    open' := fun promise below pending same => ?_ }
  · cases (closing runtime below).symm.trans lives
  · cases is
    exact Nat.le_refl _
  · exact Nat.le_succ_of_le (runtimes.generation.2 promise below)
  · have before := runtimes.generation.2 promise below
    have same : s.generation + 1 = (s.connecting promise).backend := some_inj.mp same
    omega

theorem admit_runtimes (accounts : Accounts s) (runtimes : Runtimes s)
    {id : Option RequestId} {method : String} {thread : Option String}
    (admitted : s.admit c id method thread = some s') : Runtimes s' := by
  unfold State.admit at admitted
  split at admitted
  · cases admitted
  · cases admitted
    obtain ⟨sound, -, of⟩ := connection_runtimes runtimes c
    have same := (connection_same s c).operation
    refine { sound with
      references := { sound.references with operation := fun m other is => ?_ }
      entry := fun c' id' pending is => ?_ }
    · simp only [Function.update_apply] at is
      split at is
      · cases is
        exact of
      · exact sound.references.operation m other (by rwa [same])
    · refine (sound.entry c' id' pending is).imp_right ?_
      rintro ⟨other, runtime', is', failed⟩
      refine ⟨other, runtime', ?_, failed⟩
      rw [same] at is'
      have old : pending.token ≠ s.operationCount := by
        intro eq
        rw [eq, accounts.fresh _ (Nat.le_refl _)] at is'
        cases is'
      simp only [Function.update_apply]
      rwa [if_neg old]

end Steps

section Step
variable {s s' s'' : State}

/-- `start` and `stop` stand where they stood. -/
structure SameOwner (s s' : State) : Prop where
  stopping : s'.stopping = s.stopping
  phase : s'.phase = s.phase
  starting : s'.starting = s.starting

theorem SameOwner.refl (s : State) : SameOwner s s := ⟨rfl, rfl, rfl⟩

theorem SameOwner.trans (first : SameOwner s s') (second : SameOwner s' s'') : SameOwner s s'' :=
  ⟨second.stopping.trans first.stopping, second.phase.trans first.phase, second.starting.trans first.starting⟩

theorem connection_owner (s : State) (c : Nat) : SameOwner s (s.connection c).1 := by
  unfold connection
  split
  · exact .refl s
  · split
    · exact .refl s
    · split <;> exact ⟨rfl, rfl, rfl⟩

theorem connected_owner (s : State) (number : Nat) (ok : Bool) : SameOwner s (s.connected number ok) := by
  unfold connected
  simp only
  split <;> exact ⟨rfl, rfl, rfl⟩

theorem restore_owner (s : State) (c runtime : Nat) (method : String) (thread : Option String) :
    SameOwner s (s.restore c runtime method thread).1 := by
  unfold restore
  repeat' split
  all_goals exact ⟨rfl, rfl, rfl⟩

theorem remember_owner (s : State) (c : Nat) (method : String) (thread : Option String)
    (response : Response) : SameOwner s (s.remember c method thread response) := by
  have forgot : SameOwner s (s.forgetThread c method thread) := by
    unfold forgetThread
    repeat' split
    all_goals exact ⟨rfl, rfl, rfl⟩
  unfold remember
  repeat' split
  all_goals first | exact .refl s | exact forgot.trans ⟨rfl, rfl, rfl⟩

theorem admit_owner {id : Option RequestId} {method : String} {thread : Option String}
    (admitted : s.admit c id method thread = some s') : SameOwner s s' := by
  unfold State.admit at admitted
  split at admitted
  · cases admitted
  · cases admitted
    exact (connection_owner s c).trans ⟨rfl, rfl, rfl⟩

theorem resume_owner {n : Nat} {operation : Operation}
    (resumes : s.resume n operation = some s') : SameOwner s s' := by
  cases resumes_of resumes with
  | finish | sent | unsent => exact ⟨rfl, rfl, rfl⟩
  | proceed runtime =>
    exact (restore_owner s operation.client runtime operation.method operation.thread).trans ⟨rfl, rfl, rfl⟩
  | transmit runtime =>
    unfold transmit
    repeat' split
    all_goals exact ⟨rfl, rfl, rfl⟩
  | settle runtime response =>
    unfold settle
    split
    · exact (remember_owner s operation.client operation.method operation.thread response).trans
        ⟨rfl, rfl, rfl⟩
    · exact ⟨rfl, rfl, rfl⟩

/-- While `stop` waits for the backend, no start is under way. -/
def Halts (s : State) : Prop := s.stopping = some .backend → s.phase = .stopping ∧ s.starting = false

theorem Halts.frame (halts : Halts s) (owner : SameOwner s s') : Halts s' := by
  unfold Halts
  rw [owner.stopping, owner.phase, owner.starting]
  exact halts

structure Sound (s : State) : Prop where
  accounts : Accounts s
  runtimes : Runtimes s
  halts : Halts s

theorem Runtimes.stopBackend (runtimes : Runtimes s) : Runtimes s.stopBackend := by
  unfold State.stopBackend
  split
  · next absent =>
    have inactive : s.active = false := by
      cases active : s.active with
      | false => rfl
      | true =>
        have present := runtimes.backend active
        rw [absent] at present
        cases present
    have given := phase_runtimes runtimes .stopped inactive.symm
    exact given.rest _ _ _ _ _ _
  · have given := retireAll_runtimes runtimes .stopping ⟨nofun, nofun⟩ false
    exact given.rest _ _ _ _ _ _

/-- Every client is retired; the rest of the change is not the ledger's. -/
theorem retired_kept (accounts : Accounts s) (retired : List Nat)
    (same : SameLedger (s.retire retired) s') : Kept s s' := by
  have kept := retire_kept accounts retired
  exact kept.trans (same.kept kept.accounts)

variable (sound : Sound s)
include sound

theorem stopBackend_sound (settled : s.starting = false) :
    Kept s s.stopBackend ∧ Sound s.stopBackend := by
  have kept : Kept s s.stopBackend ∧ Halts s.stopBackend := by
    unfold stopBackend
    split
    · have same : SameLedger s { s with phase := .stopped, stopping := none } :=
        ⟨rfl, rfl, rfl, fun _ => rfl⟩
      exact ⟨same.kept sound.accounts, nofun⟩
    · exact ⟨retired_kept sound.accounts s.clients ⟨rfl, rfl, rfl, fun _ => rfl⟩,
        fun _ => ⟨rfl, settled⟩⟩
  exact ⟨kept.1, kept.1.accounts, sound.runtimes.stopBackend, kept.2⟩

theorem stop_sound : Kept s s.stop ∧ Sound s.stop := by
  have same : Kept s s := (SameLedger.refl s).kept sound.accounts
  unfold stop
  split
  · exact ⟨same, sound⟩
  · split
    · have same : SameLedger s { s with stopping := some .starting } :=
        ⟨rfl, rfl, rfl, fun _ => rfl⟩
      exact ⟨same.kept sound.accounts, (same.kept sound.accounts).accounts,
        sound.runtimes.rest _ _ _ _ _ _, nofun⟩
    · next settled => exact stopBackend_sound sound (by simpa using settled)

theorem unavailable_sound (running : s.phase ≠ .stopping) :
    Kept s s.unavailable ∧ Sound s.unavailable := by
  have kept : Kept s s.unavailable :=
    retired_kept sound.accounts s.clients ⟨rfl, rfl, rfl, fun _ => rfl⟩
  exact ⟨kept, kept.accounts, unavailable_runtimes sound.runtimes,
    fun waits => absurd (sound.halts waits).1 running⟩

theorem step_sound {event : Event} (allowed : undisturbed s event)
    (steps : step s event = some s') : Kept s s' ∧ Sound s' := by
  have quiet : ∀ {s' : State}, SameLedger s s' → Runtimes s' → SameOwner s s' →
      Kept s s' ∧ Sound s' := fun same runtimes owner =>
    have kept := same.kept sound.accounts
    ⟨kept, kept.accounts, runtimes, sound.halts.frame owner⟩
  have idle : Kept s s ∧ Sound s := ⟨(SameLedger.refl s).kept sound.accounts, sound⟩
  obtain ⟨accounts, runtimes, halts⟩ := id sound
  cases event with
  | attach =>
    cases steps
    exact quiet ⟨rfl, rfl, rfl, fun _ => rfl⟩ (attach_runtimes runtimes) ⟨rfl, rfl, rfl⟩
  | close c =>
    cases steps
    have kept : Kept s { s.retire [c] with clients := s.clients.erase c } :=
      retired_kept accounts [c] ⟨rfl, rfl, rfl, fun _ => rfl⟩
    exact ⟨kept, kept.accounts, close_runtimes runtimes c, halts⟩
  | connect c =>
    cases steps
    exact quiet (connection_same s c) (connection_runtimes runtimes c).1 (connection_owner s c)
  | connected number ok =>
    simp only [step] at steps
    split at steps
    · next pending =>
      cases steps
      exact quiet (connected_same s number ok) (connected_runtimes runtimes pending ok)
        (connected_owner s number ok)
    · cases steps
  | forget number =>
    simp only [step] at steps
    split at steps
    · next past =>
      cases steps
      simp only [Bool.and_eq_true, decide_eq_true_eq] at past
      exact quiet (setClient_same s _ _ fun _ => rfl) (forget_runtimes runtimes past.1 past.2)
        ⟨rfl, rfl, rfl⟩
    · cases steps
  | start created =>
    simp only [step] at steps
    split at steps
    · cases steps
      exact idle
    · next free =>
      cases steps
      simp only [Bool.or_eq_true, not_or, ne_eq, decide_not, Bool.not_eq_true',
        decide_eq_false_iff_not, not_not] at free
      have same : SameLedger s { s with
          phase := .starting
          backend := some (s.generation + 1)
          generation := s.generation + 1
          starting := true } := ⟨rfl, rfl, rfl, fun _ => rfl⟩
      refine ⟨same.kept accounts, (same.kept accounts).accounts,
        start_runtimes runtimes free.1.2, fun waits => ?_⟩
      have stopping := (halts waits).1
      rw [free.1.2] at stopping
      cases stopping
  | started ok =>
    simp only [step] at steps
    split at steps
    · next starting =>
      have halted : s.stopping ≠ some .backend := by
        intro waits
        rw [(halts waits).2] at starting
        cases starting
      split at steps
      · next proceeds =>
        cases steps
        simp only [Bool.and_eq_true, decide_eq_true_eq] at proceeds
        have begun := proceeds.2
        have same : SameLedger s { s with phase := .running, starting := false } :=
          ⟨rfl, rfl, rfl, fun _ => rfl⟩
        have given := phase_runtimes runtimes .running (by simp [active, begun])
        exact ⟨same.kept accounts, (same.kept accounts).accounts, given.rest _ _ _ _ _ _,
          fun waits => absurd waits halted⟩
      · cases steps
        have kept : Kept s { s.unavailable with starting := false } :=
          retired_kept accounts s.clients ⟨rfl, rfl, rfl, fun _ => rfl⟩
        exact ⟨kept, kept.accounts, (unavailable_runtimes runtimes).rest _ _ _ _ _ _,
          fun waits => absurd waits halted⟩
    · cases steps
  | stop =>
    cases steps
    exact stop_sound sound
  | stopWaited =>
    simp only [step] at steps
    split at steps
    · next due =>
      cases steps
      simp only [Bool.and_eq_true, Bool.not_eq_true'] at due
      exact stopBackend_sound sound due.2
    · cases steps
  | stopped ok =>
    simp only [step] at steps
    split at steps
    · next waits =>
      cases steps
      have inactive : s.active = false := by simp [active, (halts waits).1]
      have kept : Kept s (s.stopped ok) ∧ Halts (s.stopped ok) := by
        unfold stopped
        split
        · refine ⟨SameLedger.kept ⟨rfl, rfl, rfl, fun c => ?_⟩ accounts, by rintro ⟨⟩⟩
          simp only
          split <;> rfl
        · exact ⟨retired_kept accounts s.clients ⟨rfl, rfl, rfl, fun _ => rfl⟩, by rintro ⟨⟩⟩
      exact ⟨kept.1, kept.1.accounts, stopped_runtimes runtimes inactive ok, kept.2⟩
    · cases steps
  | backendClosed backend =>
    simp only [step] at steps
    split at steps
    · cases steps
      exact idle
    · next failed =>
      cases steps
      simp only [Bool.or_eq_true, decide_eq_true_eq, not_or] at failed
      obtain ⟨kept, sound'⟩ := unavailable_sound sound failed.2
      obtain ⟨kept', sound''⟩ := stop_sound sound'
      exact ⟨kept.trans kept', sound''⟩
  | runtimeClosed number =>
    simp only [step] at steps
    split at steps
    · next failed =>
      cases steps
      simp only [Bool.and_eq_true, decide_eq_true_eq, ne_eq, decide_not, Bool.not_eq_true',
        decide_eq_false_iff_not] at failed
      exact unavailable_sound sound failed.2
    · cases steps
      exact idle
  | gateInitialized =>
    cases steps
    split
    · exact quiet ⟨rfl, rfl, rfl, fun _ => rfl⟩ (runtimes.rest _ _ _ _ _ _) ⟨rfl, rfl, rfl⟩
    · exact idle
  | gateUnavailable =>
    cases steps
    exact quiet ⟨rfl, rfl, rfl, fun _ => rfl⟩ (runtimes.rest _ _ _ _ _ _) ⟨rfl, rfl, rfl⟩
  | request c method thread | send c _ method thread =>
    have kept := admit_kept accounts c _ method thread steps
    exact ⟨kept, kept.accounts, admit_runtimes accounts runtimes steps, halts.frame (admit_owner steps)⟩
  | resume n =>
    obtain ⟨operation, is, resumes⟩ := bind_eq_some_iff.mp steps
    obtain ⟨kept, runtimes'⟩ := resume_sound accounts runtimes is allowed resumes
    exact ⟨kept, kept.accounts, runtimes', halts.frame (resume_owner resumes)⟩
  | restoreAnswered number ok =>
    simp only [step] at steps
    split at steps
    · cases steps
      exact quiet ⟨rfl, rfl, rfl, fun _ => rfl⟩ (setRestoring_runtimes runtimes number _ _)
        ⟨rfl, rfl, rfl⟩
    · cases steps
  | restoreResumed number =>
    simp only [step] at steps
    split at steps
    · cases steps
    · split at steps
      · cases steps
        exact quiet (restored_same s number _) (restored_runtimes runtimes number _) ⟨rfl, rfl, rfl⟩
      · split at steps
        · cases steps
          exact quiet (restored_same s number _) (restored_runtimes runtimes number _) ⟨rfl, rfl, rfl⟩
        · cases steps
  | restoreForgotten number =>
    simp only [step] at steps
    split at steps
    · cases steps
      exact quiet (restoreForgotten_same s number) (restoreForgotten_runtimes runtimes number) ⟨rfl, rfl, rfl⟩
    · cases steps
  | answered n response =>
    simp only [step] at steps
    split at steps
    · next runtime stage =>
      obtain ⟨operation, is, stage⟩ := map_eq_some_iff.mp stage
      have holding : holds operation = true := by simp [holds, stage]
      have of := runtimes.references.operation n operation is
      rw [stage] at of
      split at steps
      · cases steps
      · cases steps
        have kept : Kept s (s.setStage n (.request runtime (some response))) :=
          setStage_kept accounts is holding.symm (by rintro _ _ ⟨⟩)
        exact ⟨kept, kept.accounts, stage_runtimes accounts runtimes is holding of, halts⟩
    · cases steps
  | written n ok =>
    simp only [step] at steps
    split at steps
    · next runtime stage =>
      obtain ⟨operation, is, sent⟩ := map_eq_some_iff.mp stage
      have idle : holds operation = false := by simp [holds, sent]
      have of := runtimes.references.operation n operation is
      rw [sent] at of
      cases steps
      have kept : Kept s (s.setStage n (.send runtime (some ok))) :=
        setStage_kept accounts is idle.symm
          fun _ _ _ => accounts.sends n operation is runtime none sent
      exact ⟨kept, kept.accounts, sent_runtimes runtimes is (by simp [sent]) of, halts⟩
    · cases steps
  | response number id response =>
    simp only [step] at steps
    split at steps
    · cases steps
      exact idle
    · split at steps
      · cases steps
        exact idle
      · next pending found =>
        cases steps
        obtain ⟨operation, is, client, key, idle⟩ := (accounts.entry _ _ _ found).2
        have same := remember_same s (s.runtime number).client pending.method pending.thread response
        have kept := same.kept accounts
        have removed := remove_kept kept.accounts ((congrFun same.operation _).trans is) idle key (by
            intro other found'
            rw [same.pending, client, found] at found'
            rw [some_inj.mp found'])
        rw [client] at removed
        have remembered := remember_runtimes runtimes (s.runtime number).client pending.method
          pending.thread response
        exact ⟨kept.trans removed, removed.accounts, release_runtimes (remove_runtimes remembered _ id) _,
          halts.frame ((remember_owner s _ _ _ _).trans ⟨rfl, rfl, rfl⟩)⟩

end Step

section Runs
variable {s s' : State} {events events' : List Event}

/-- The runs in which no failed send meets an entry of another operation. -/
def Undisturbed (start : State) (events : List Event) (s : State) : Prop :=
  Run (fun s event s' => undisturbed s event = true ∧ step s event = some s') start events s

theorem initial_sound : Sound initial where
  accounts := ⟨nodup_nil, fun _ _ => rfl, nofun, fun c id pending present => by
    simp [initial, Client.new] at present, nofun, nofun⟩
  runtimes := ⟨⟨nofun, nofun, nofun, nofun, nofun⟩, nofun, nodup_nil, nofun, nofun,
    ⟨nofun, nofun⟩, nofun, fun _ _ => nofun, fun c id pending present => by
      simp [initial, Client.new] at present⟩
  halts := nofun

theorem undisturbed_sound (run : Undisturbed initial events s) : Sound s :=
  run.invariant initial_sound fun _ _ _ sound steps => (step_sound sound steps.1 steps.2).2

theorem undisturbed_kept (sound : Sound s) (run : Undisturbed s events s') : Kept s s' ∧ Sound s' := by
  induction run with
  | nil => exact ⟨(SameLedger.refl s).kept sound.accounts, sound⟩
  | snoc before last ih =>
    obtain ⟨kept, sound'⟩ := ih
    obtain ⟨kept', sound''⟩ := step_sound sound' last.1 last.2
    exact ⟨kept.trans kept', sound''⟩

/-- The continuation of the operation is due, or that of the restoration it awaits. -/
def Due (s : State) (n : Nat) (operation : Operation) : Prop :=
  (step s (.resume n)).isSome ∨ ∃ runtime restoring, operation.stage = .restore runtime (some restoring) ∧
      (step s (.restoreResumed restoring)).isSome

/-- The operation awaits `backend.connect()`. -/
def Connects (s : State) (operation : Operation) : Prop :=
  ∃ promise, operation.stage = .connection (.promise promise) ∧ (s.connecting promise).outcome = none

/-- How many continuations an operation still has at most. -/
def remaining : Stage → Nat
  | .connection _ => 3
  | .restore .. => 2
  | .request .. | .send .. => 1
  | .done => 0

/-- A runtime of a closed client, or of an owner that is not active, is closing. -/
theorem Runtimes.dead (runtimes : Runtimes s) {c runtime : Nat} (of : RuntimeOf s runtime c)
    (gone : c ∉ s.clients ∨ s.active = false) : (s.runtime runtime).closing = true := by
  cases closing : (s.runtime runtime).closing with
  | true => rfl
  | false =>
    obtain ⟨active, member, -⟩ := runtimes.alive runtime of.1 closing
    rcases gone with closed | inactive
    · rw [of.2] at member
      exact absurd member closed
    · rw [inactive] at active
      cases active

theorem due_of_resume {n : Nat} {operation : Operation} (is : s.operation n = some operation)
    (resumes : (s.resume n operation).isSome) : Due s n operation := by
  refine .inl ?_
  simp only [step, is, bind_some]
  exact resumes

/-- What belongs to a closed client or to an owner that is not active goes on, or connects. -/
theorem gone_due (sound : Sound s) {n : Nat} (member : n ∈ s.requests) {operation : Operation}
    (is : s.operation n = some operation)
    (gone : operation.client ∉ s.clients ∨ s.active = false) :
    Connects s operation ∨ Due s n operation := by
  obtain ⟨accounts, runtimes, -⟩ := sound
  have of := runtimes.references.operation n operation is
  obtain ⟨other, is', how⟩ := accounts.owner n member
  rw [is] at is'
  cases is'
  rcases how with holding | ⟨id, pending, found, token⟩
  · cases stage : operation.stage with
    | connection wait =>
      cases wait with
      | rejected => exact .inr (due_of_resume is (by simp [resume, stage]))
      | runtime runtime => exact .inr (due_of_resume is (by simp [resume, stage]))
      | promise promise =>
        cases outcome : (s.connecting promise).outcome with
        | none => exact .inl ⟨promise, stage, outcome⟩
        | some result =>
          refine .inr (due_of_resume is ?_)
          cases result <;> simp [resume, stage, outcome]
    | restore runtime restoring =>
      cases restoring with
      | none => exact .inr (due_of_resume is (by simp [resume, stage]))
      | some promise =>
        cases outcome : (s.restoring promise).outcome with
        | some result =>
          refine .inr (due_of_resume is ?_)
          cases result <;> simp [resume, stage, outcome]
        | none =>
          rw [stage] at of
          have closing := runtimes.dead (of.2 promise rfl).2.2 gone
          refine .inr (.inr ⟨runtime, promise, stage, ?_⟩)
          cases answer : (s.restoring promise).answer <;> simp [step, outcome, answer, closing]
    | request runtime answer =>
      rw [stage] at of
      have closing := runtimes.dead of gone
      refine .inr (due_of_resume is ?_)
      rcases answer with _ | _ | response <;> simp [resume, stage, closing]
    | send runtime written =>
      simp [holds, stage] at holding
    | done => simp [holds, stage] at holding
  · rcases runtimes.entry _ id pending found with ⟨runtime, has, lives⟩ | ⟨other, runtime, is', failed⟩
    · rw [runtimes.dead (runtimes.references.runtime _ runtime has) gone] at lives
      cases lives
    · rw [token, is] at is'
      cases is'
      obtain ⟨id, key⟩ := isSome_iff_exists.mp (accounts.sends n operation is _ _ failed)
      exact .inr (due_of_resume is (by simp [resume, failed, key]))

/-- A continuation brings its operation nearer to its end. -/
theorem resume_remaining {n : Nat} {operation : Operation} (is : s.operation n = some operation)
    (resumes : step s (.resume n) = some s') :
    ∃ after, s'.operation n = some after ∧ remaining after.stage < remaining operation.stage := by
  simp only [step, is, bind_some] at resumes
  have staged : ∀ (s : State) stage, s.operation n = some operation →
      (s.setStage n stage).operation n = some { operation with stage := stage } := by
    intro s stage is
    simp [State.setStage, is]
  have finish : ∀ s : State, s.operation n = some operation →
      (s.finish n).operation n = some { operation with stage := .done } := fun s is => staged (s.release n) .done is
  cases resumes_of resumes with
  | finish holding =>
    refine ⟨_, finish s is, ?_⟩
    cases stage : operation.stage <;> simp [holds, stage, remaining] at holding ⊢
  | proceed runtime wait stage =>
    rw [stage]
    exact ⟨_, staged _ _ ((congrFun (restore_same s ..).operation n).trans is), Nat.lt_succ_self 2⟩
  | transmit runtime restoring stage =>
    rw [stage]
    unfold State.transmit
    split
    · exact ⟨_, staged _ _ is, Nat.lt_succ_self 1⟩
    · split
      · exact ⟨_, finish s is, Nat.zero_lt_two⟩
      · exact ⟨_, staged _ _ is, Nat.lt_succ_self 1⟩
  | settle runtime response stage =>
    rw [stage]
    unfold State.settle
    split
    · exact ⟨_, finish _ ((congrFun (remember_same s ..).operation n).trans is), Nat.zero_lt_one⟩
    · exact ⟨_, finish s is, Nat.zero_lt_one⟩
  | sent runtime stage =>
    rw [stage]
    exact ⟨_, staged s _ is, Nat.zero_lt_one⟩
  | unsent runtime id stage =>
    rw [stage]
    exact ⟨_, finish (s.setClient _ _) is, Nat.zero_lt_one⟩

/-- A request that `#send` has registered and nobody has answered yet. -/
def Registered (s : State) (n : Nat) (operation : Operation) : Prop :=
  ∃ id pending, (s.client operation.client).pending.get? id = some pending ∧ pending.token = n

/-- The gate holds the token of an operation as long as the operation has not come to its
`finish`, or its request is registered; a token that was released never comes back; and a token of
a closed client, or of an owner that stops, is stopped or has failed, belongs to an operation
whose continuation is due, one of at most three, or that awaits `backend.connect()`. -/
theorem work_accounted (run : Undisturbed initial events s) : s.requests.Nodup ∧
    (∀ n, n ∈ s.requests ↔ ∃ operation, s.operation n = some operation ∧
      (holds operation ∨ Registered s n operation)) ∧
    (∀ n operation, n ∈ s.requests → s.operation n = some operation →
      operation.client ∉ s.clients ∨ s.active = false → Connects s operation ∨ Due s n operation) ∧
    (∀ n operation s', s.operation n = some operation → step s (.resume n) = some s' →
      ∃ after, s'.operation n = some after ∧ remaining after.stage < remaining operation.stage) ∧
    (∀ events' s', Undisturbed s events' s' → ∀ n < s.operationCount, n ∉ s.requests → n ∉ s'.requests) := by
  have sound := undisturbed_sound run
  refine ⟨sound.accounts.nodup, fun n => ⟨sound.accounts.owner n, ?_⟩, ?_, ?_, ?_⟩
  · rintro ⟨operation, is, holding | ⟨id, pending, found, token⟩⟩
    · exact sound.accounts.held n operation is holding
    · rw [← token]
      exact (sound.accounts.entry _ id pending found).1
  · exact fun n operation member is gone => gone_due sound member is gone
  · exact fun n operation s' is resumes => resume_remaining is resumes
  · intro events' s' later n below released member
    rcases (undisturbed_kept sound later).1.requests n member with before | new
    · exact released before
    · omega

theorem remember_others (c : Nat) (method : String) (thread : Option String) (response : Response)
    {c' : Nat} (apart : c' ≠ c) : (s.remember c method thread response).client c' = s.client c' := by
  unfold remember forgetThread
  (repeat' split) <;> simp [setThread, setClient, Function.update_of_ne apart]

/-- The steps of an undisturbed run. -/
def undisturbedStep (s : State) (event : Event) : Option State :=
  if undisturbed s event then step s event else none

theorem undisturbed_of_foldlM (ran : events.foldlM undisturbedStep initial = some s) :
    Undisturbed initial events s :=
  (Run.of_foldlM ran).mono fun s event s' steps => by
    unfold undisturbedStep at steps
    split at steps
    · next allowed => exact ⟨allowed, steps⟩
    · cases steps

end Runs

/-- One request is answered, one waits for its answer when the client closes, and one of another
client waits for its connection when the owner stops. -/
def sampleEvents : List Event :=
  [.attach, .attach, .start true, .connect 0, .connected 0 true, .started true, .gateInitialized,
    .send 0 (.number 1) "account/read" none, .resume 0, .resume 0, .written 0 true,
    .response 0 (.number 1) ⟨false, none⟩, .send 0 (.number 2) "account/read" none, .resume 1,
    .resume 1, .close 0, .request 1 "account/read" none, .stop]

theorem work_accounted_sample : ∃ s : State, s.requests = [2] ∧ s.phase = .stopping ∧
    ∃ operation, s.operation 2 = some operation ∧ (Connects s operation ∨ Due s 2 operation) := by
  have ran : (sampleEvents.foldlM undisturbedStep initial).isSome := by decide
  obtain ⟨s, reached⟩ := isSome_iff_exists.mp ran
  have seen : (sampleEvents.foldlM undisturbedStep initial).map
      (fun s => (s.requests, s.phase, s.active)) = some ([2], .stopping, false) := by decide
  simp only [reached, map_some, some_inj, Prod.mk.injEq] at seen
  obtain ⟨requests, phase, inactive⟩ := seen
  obtain ⟨-, accounted, gone, -⟩ := work_accounted (undisturbed_of_foldlM reached)
  have member : 2 ∈ s.requests := by simp [requests]
  obtain ⟨operation, is, -⟩ := (accounted 2).mp member
  exact ⟨s, requests, phase, operation, is, gone 2 operation member is (.inr inactive)⟩

/-- Two clients have each sent a request under the same ID. -/
def twoClients : List Event :=
  [.attach, .attach, .start true, .connect 0, .connect 1, .connected 0 true, .connected 1 true,
    .started true, .gateInitialized, .send 0 (.number 1) "account/read" none, .resume 0, .resume 0,
    .send 1 (.number 1) "account/read" none, .resume 1, .resume 1]

/-- A request that waits for its connection holds its token after `stop`, and after the client has
closed; and a send that fails late takes the entry of a newer request with its ID, whose token
stays in the gate when all is over. -/
theorem token_outlives_stop :
    ([Event.attach, .start true, .started true, .gateInitialized, .request 0 "account/read" none,
      .stop, .stopped true, .close 0].foldlM step initial).map
        (fun s => (s.phase, s.clients, s.requests)) = some (.stopped, [], [0]) ∧
    ([Event.attach, .start true, .connect 0, .connected 0 true, .started true, .gateInitialized,
      .send 0 (.number 1) "account/read" none, .resume 0, .resume 0,
      .response 0 (.number 1) ⟨false, none⟩, .send 0 (.number 1) "account/read" none, .resume 1,
      .resume 1, .written 1 true, .resume 1, .written 0 false, .resume 0,
      .response 0 (.number 1) ⟨false, none⟩, .stop, .stopped true, .close 0].foldlM step initial).map
        (fun s => (s.phase, s.clients, s.requests,
          [0, 1].map fun n => (s.operation n).map (·.stage))) =
        some (.stopped, [], [1], [some .done, some .done]) := by
  decide

end CodexHost.Guarantees.OfficialWork
