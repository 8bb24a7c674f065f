import CodexHost.Source.HostRuntime.OfficialRuntimeOwner

/-!
# Runtimes of the official owner

A runtime that is not closing is the one of an attached client while the owner is active: closing
the client, stopping and every failure retire it first. So what an operation of a closed client or
a stopped owner still awaits of a runtime has been rejected.
-/
namespace CodexHost.Guarantees.OfficialWork
open Foundation Source.HostRuntime.OfficialRuntimeOwner Option Function State

section References
variable (s : State)

def RuntimeOf (runtime c : Nat) : Prop :=
  runtime < s.runtimeCount ∧ (s.runtime runtime).client = c

def ConnectingOf (promise c : Nat) : Prop :=
  promise < s.connectingCount ∧ (s.connecting promise).client = c

def RestoringOf (promise c : Nat) : Prop :=
  promise < s.restoringCount ∧ (s.restoring promise).client = c ∧ RuntimeOf s (s.restoring promise).runtime c

def StageOf (c : Nat) : Stage → Prop
  | .connection .rejected | .done => True
  | .connection (.runtime runtime) => RuntimeOf s runtime c
  | .connection (.promise promise) => ConnectingOf s promise c
  | .restore runtime restoring =>
    RuntimeOf s runtime c ∧ ∀ promise, restoring = some promise → RestoringOf s promise c
  | .request runtime _ | .send runtime _ => RuntimeOf s runtime c

/-- What the objects of a client refer to belongs to it. -/
structure References : Prop where
  runtime : ∀ c runtime, (s.client c).runtime = some runtime → RuntimeOf s runtime c
  connecting : ∀ c promise, (s.client c).connecting = some promise → ConnectingOf s promise c
  connected : ∀ promise runtime, (s.connecting promise).outcome = some (some runtime) →
    RuntimeOf s runtime (s.connecting promise).client
  thread : ∀ c id subscription promise, (s.client c).threads id = some subscription →
    subscription.restoring = some promise → RestoringOf s promise c
  operation : ∀ n operation, s.operation n = some operation → StageOf s operation.client operation.stage

/-- The client has a runtime that is not closing. -/
def Lives (c : Nat) : Prop :=
  ∃ runtime, (s.client c).runtime = some runtime ∧ (s.runtime runtime).closing = false

structure Runtimes : Prop where
  references : References s
  attached : ∀ c ∈ s.clients, c < s.clientCount
  distinct : s.clients.Nodup
  alive : ∀ runtime < s.runtimeCount, (s.runtime runtime).closing = false → s.active = true ∧
    (s.runtime runtime).client ∈ s.clients ∧ (s.client (s.runtime runtime).client).runtime = some runtime
  backend : s.active = true → s.backend.isSome
  generation : (∀ backend, s.backend = some backend → backend ≤ s.generation) ∧
    ∀ promise < s.connectingCount, (s.connecting promise).backend ≤ s.generation
  open' : ∀ promise < s.connectingCount, (s.connecting promise).outcome = none →
    s.backend = some (s.connecting promise).backend →
      (s.client (s.connecting promise).client).connecting = some promise ∧
        (s.client (s.connecting promise).client).runtime = none
  unborn : ∀ promise, s.connectingCount ≤ promise → (s.connecting promise).outcome ≠ none
  entry : ∀ c id pending, (s.client c).pending.get? id = some pending → Lives s c ∨
    ∃ operation runtime, s.operation pending.token = some operation ∧
      operation.stage = .send runtime (some false)

end References

section Steps
variable {s s' : State}

/-- Objects only come to be, and never change hands. -/
structure Extends (s s' : State) : Prop where
  runtime : ∀ runtime c, RuntimeOf s runtime c → RuntimeOf s' runtime c
  connecting : ∀ promise c, ConnectingOf s promise c → ConnectingOf s' promise c
  restoring : ∀ promise c, RestoringOf s promise c → RestoringOf s' promise c

theorem StageOf.mono (extended : Extends s s') {c : Nat} {stage : Stage}
    (of : StageOf s c stage) : StageOf s' c stage := by
  cases stage with
  | connection wait =>
    cases wait with
    | rejected => trivial
    | runtime runtime => exact extended.runtime _ _ of
    | promise promise => exact extended.connecting _ _ of
  | restore runtime restoring =>
    exact ⟨extended.runtime _ _ of.1, fun promise is => extended.restoring _ _ (of.2 promise is)⟩
  | request runtime answer => exact extended.runtime _ _ of
  | send runtime written => exact extended.runtime _ _ of
  | done => trivial

theorem closeRuntimes_client (s : State) (closing : List Nat) (runtime : Nat) :
    ((s.closeRuntimes closing).runtime runtime).client = (s.runtime runtime).client := by
  simp only [closeRuntimes]
  split <;> rfl

theorem closeRuntimes_extends (s : State) (closing : List Nat) : Extends s (s.closeRuntimes closing) :=
  ⟨fun runtime _ of => ⟨of.1, (closeRuntimes_client s closing runtime).trans of.2⟩, fun _ _ of => of,
    fun _ _ of => ⟨of.1, of.2.1, of.2.2.1, (closeRuntimes_client s closing _).trans of.2.2.2⟩⟩

theorem setClient_apply (s : State) (c : Nat) (change : Client → Client) (c' : Nat) :
    (s.setClient c change).client c' = if c' = c then change (s.client c) else s.client c' := by
  simp only [setClient, update_apply]

/-- What the change of a client keeps is kept of every client. -/
theorem setClient_field (s : State) (c : Nat) (change : Client → Client) {β : Type} (field : Client → β)
    (keeps : field (change (s.client c)) = field (s.client c)) (c' : Nat) :
    field ((s.setClient c change).client c') = field (s.client c') := by
  rw [setClient_apply]
  split
  · next eq => rw [eq, keeps]
  · rfl

section
variable (sound : Runtimes s)
include sound

/-- An operation goes on; its entry, if it has one, stays registered at a runtime that lives. -/
theorem setStage_runtimes {n : Nat} {operation : Operation}
    (is : s.operation n = some operation) {stage : Stage} (of : StageOf s operation.client stage)
    (entered : ∀ c id pending, (s.client c).pending.get? id = some pending →
      pending.token = n → Lives s c ∨ ∃ runtime, stage = .send runtime (some false)) :
    Runtimes (s.setStage n stage) := by
  have at' : (s.setStage n stage).operation n = some { operation with stage := stage } := by
    simp [setStage, is]
  have off : ∀ m, m ≠ n → (s.setStage n stage).operation m = s.operation m := fun m other => by
    simp [setStage, update_of_ne other]
  refine { sound with
    references := { sound.references with operation := fun m other present => ?_ }
    entry := fun c id pending present => ?_ }
  · by_cases eq : m = n
    · subst eq
      rw [at'] at present
      cases present
      exact of
    · rw [off m eq] at present
      exact sound.references.operation m other present
  · by_cases eq : pending.token = n
    · refine (entered c id pending present eq).imp_right ?_
      rintro ⟨runtime, failed⟩
      exact ⟨_, runtime, by rw [eq]; exact at', failed⟩
    · refine (sound.entry c id pending present).imp_right ?_
      rintro ⟨other, runtime, present', failed⟩
      exact ⟨other, runtime, by rwa [off _ eq], failed⟩

/-- A client that keeps its runtime, and its connection while that is open. -/
theorem setClient_runtimes (c : Nat) (change : Client → Client)
    (runtime : (change (s.client c)).runtime = (s.client c).runtime)
    (connecting : ∀ promise, (change (s.client c)).connecting = some promise →
      (s.client c).connecting = some promise)
    (open' : ∀ promise, (s.client c).connecting = some promise → (s.connecting promise).outcome = none →
      (change (s.client c)).connecting = some promise)
    (thread : ∀ id subscription promise, (change (s.client c)).threads id = some subscription →
      subscription.restoring = some promise → RestoringOf s promise c)
    (entry : ∀ id pending, (change (s.client c)).pending.get? id = some pending →
      (s.client c).pending.get? id = some pending ∨ Lives s c ∨
        ∃ operation runtime, s.operation pending.token = some operation ∧
          operation.stage = .send runtime (some false)) :
    Runtimes (s.setClient c change) := by
  have at' := setClient_apply s c change
  have keeps := setClient_field s c change (·.runtime) runtime
  refine { sound with
    references := { sound.references with
      runtime := fun c' => ?_
      connecting := fun c' promise is => ?_
      thread := fun c' id object promise is => ?_ }
    alive := fun runtime => ?_
    open' := fun promise below pending same => ?_
    entry := fun c' id pending is => ?_ }
  · rw [keeps]
    exact sound.references.runtime c'
  · rw [at'] at is
    split at is
    · next eq =>
      rw [eq]
      exact sound.references.connecting c promise (connecting promise is)
    · exact sound.references.connecting c' promise is
  · rw [at'] at is
    split at is
    · next eq =>
      rw [eq]
      exact thread id object promise is
    · exact sound.references.thread c' id object promise is
  · rw [keeps]
    exact sound.alive runtime
  · obtain ⟨is, free⟩ := sound.open' promise below pending same
    refine ⟨?_, (keeps _).trans free⟩
    rw [at']
    split
    · next eq => exact open' promise (eq ▸ is) pending
    · exact is
  · unfold Lives
    rw [keeps]
    rw [at'] at is
    split at is
    · next eq =>
      rw [eq]
      exact (entry id pending is).elim (sound.entry c id pending) fun now => now
    · exact sound.entry c' id pending is

theorem setThread_runtimes (c : Nat) (thread : String)
    (subscription : Option Subscription)
    (of : ∀ object promise, subscription = some object → object.restoring = some promise →
      RestoringOf s promise c) : Runtimes (s.setThread c thread subscription) := by
  refine setClient_runtimes sound c _ rfl (fun _ => id) (fun _ is _ => is)
    (fun id object promise present => ?_) fun _ _ => .inl
  simp only [update_apply] at present
  split at present
  · exact of object promise present
  · exact sound.references.thread c id object promise present

theorem Runtimes.extends {restoring : Nat → Restoring} {count : Nat}
    (extended : Extends s { s with restoring := restoring, restoringCount := count }) :
    Runtimes { s with restoring := restoring, restoringCount := count } :=
  { sound with
    references := { sound.references with
      thread := fun c id subscription promise present restoring =>
        extended.restoring _ _ (sound.references.thread c id subscription promise present restoring)
      operation := fun n operation present => (sound.references.operation n operation present).mono extended } }

theorem setRestoring_runtimes (number : Nat) (answer outcome : Option Bool) :
    Runtimes (s.setRestoring number { s.restoring number with answer := answer, outcome := outcome }) := by
  refine sound.extends ⟨fun _ _ of => of, fun _ _ of => of, fun promise c => ?_⟩
  by_cases eq : promise = number
  · subst eq
    simp [RestoringOf, RuntimeOf]
  · simp [RestoringOf, RuntimeOf, update_of_ne eq]

/-- What the runtimes have nothing to do with. -/
theorem Runtimes.rest (ready : Bool) (requests : List Nat) (starting : Bool)
    (stopping : Option Stopping) (subscriptionCount operationCount : Nat) :
    Runtimes { s with
      ready := ready
      requests := requests
      starting := starting
      stopping := stopping
      subscriptionCount := subscriptionCount
      operationCount := operationCount } :=
  { sound with references := { sound.references with } }

theorem release_runtimes (token : Nat) : Runtimes (s.release token) :=
  sound.rest s.ready _ s.starting s.stopping s.subscriptionCount s.operationCount

theorem forgetThread_runtimes (c : Nat) (method : String)
    (thread : Option String) : Runtimes (s.forgetThread c method thread) := by
  unfold forgetThread
  split
  · split
    · exact setThread_runtimes sound c _ none nofun
    · exact sound
  · exact sound

theorem remember_runtimes (c : Nat) (method : String)
    (thread : Option String) (response : Response) :
    Runtimes (s.remember c method thread response) := by
  unfold remember
  have forgot := forgetThread_runtimes sound c method thread
  split
  · exact sound
  · split
    · split
      · next id _ _ =>
        have new := setThread_runtimes forgot c id (some ⟨(s.forgetThread c method thread).subscriptionCount,
              (s.forgetThread c method thread).generation, none⟩) (by
          rintro object promise is restoring
          cases is
          cases restoring)
        exact new.rest _ _ _ _ _ _
      · exact forgot
    · exact forgot

theorem restored_runtimes (number : Nat) (ok : Bool) :
    Runtimes (s.restored number ok) := by
  refine setRestoring_runtimes (s := s.setThread _ _ _) (setThread_runtimes sound _ _ _ ?_) number _ _
  intro object promise is restoring
  simp only [map_eq_some_iff] at is
  obtain ⟨before, present, settled⟩ := is
  have same : before.restoring = object.restoring := by
    rw [← settled]
    split <;> rfl
  exact sound.references.thread _ _ before promise present (same.trans restoring)

theorem restoreForgotten_runtimes (number : Nat) :
    Runtimes (s.restoreForgotten number) := by
  refine setThread_runtimes sound _ _ _ ?_
  intro object promise is restoring
  simp only [map_eq_some_iff] at is
  obtain ⟨before, present, forgotten⟩ := is
  split at forgotten
  · rw [← forgotten] at restoring
    cases restoring
  · rw [← forgotten] at restoring
    exact sound.references.thread _ _ before promise present restoring

/-- The promise of `#restore` belongs to the client, as its runtime does. -/
theorem restore_runtimes {c runtime : Nat} (of : RuntimeOf s runtime c)
    (method : String) (thread : Option String) :
    Runtimes (s.restore c runtime method thread).1 ∧ Extends s (s.restore c runtime method thread).1 ∧
      (∀ promise, (s.restore c runtime method thread).2 = some promise →
        RestoringOf (s.restore c runtime method thread).1 promise c) := by
  have idle : Runtimes s ∧ Extends s s ∧
      (∀ promise, (none : Option Nat) = some promise → RestoringOf s promise c) :=
    ⟨sound, ⟨fun _ _ of => of, fun _ _ of => of, fun _ _ of => of⟩, nofun⟩
  unfold restore
  split
  · exact idle
  · split
    · exact idle
    · split
      · exact idle
      · next subscription present =>
        split
        · exact idle
        · split
          · next promise restoring =>
            refine ⟨idle.1, idle.2.1, fun other is => ?_⟩
            cases is
            exact sound.references.thread _ _ subscription promise present restoring
          · next id _ _ _ _ _ =>
            have extended : Extends s { s with
                restoring := Function.update s.restoring s.restoringCount
                  ⟨c, runtime, id, subscription.object, none, none⟩
                restoringCount := s.restoringCount + 1 } := by
              refine ⟨fun _ _ of => of, fun _ _ of => of, fun promise c' of => ?_⟩
              have other : promise ≠ s.restoringCount := Nat.ne_of_lt of.1
              simp only [RestoringOf, RuntimeOf, update_of_ne other] at of ⊢
              exact ⟨by omega, of.2⟩
            have new : RestoringOf { s with
                restoring := Function.update s.restoring s.restoringCount
                  ⟨c, runtime, id, subscription.object, none, none⟩
                restoringCount := s.restoringCount + 1 } s.restoringCount c := by
              simp only [RestoringOf, RuntimeOf, update_self]
              exact ⟨Nat.lt_succ_self _, trivial, of⟩
            refine ⟨setThread_runtimes (sound.extends extended) c id _ ?_, ?_, ?_⟩
            · rintro object promise is restoring
              cases is
              cases restoring
              exact new
            · exact ⟨extended.runtime, extended.connecting, extended.restoring⟩
            · rintro promise is
              cases is
              exact new

theorem forget_runtimes {number : Nat}
    (past : (s.connecting number).outcome.isSome) {c : Nat}
    (is : (s.client c).connecting = some number) :
    Runtimes (s.setClient c ({ · with connecting := none })) := by
  refine setClient_runtimes sound c _ rfl nofun (fun promise same pending => ?_)
    (sound.references.thread c) fun _ _ => .inl
  cases is.symm.trans same
  rw [pending] at past
  cases past

/-- `#connection` calls `backend.connect()`. -/
theorem connect_runtimes {c backend : Nat}
    (present : s.backend = some backend) (idle : (s.client c).runtime = none)
    (free : (s.client c).connecting = none) :
    Runtimes (s.connect c backend) ∧ Extends s (s.connect c backend) := by
  have extended : Extends s (s.connect c backend) := by
    refine ⟨fun _ _ of => of, fun promise c' of => ?_, fun _ _ of => of⟩
    have below := of.1
    have other : promise ≠ s.connectingCount := by omega
    simp only [ConnectingOf, connect, update_of_ne other] at of ⊢
    exact ⟨by omega, of.2⟩
  have keeps {β : Type} (field : Client → β) : field { s.client c with connecting := some s.connectingCount } =
      field (s.client c) → ∀ c', field ((s.connect c backend).client c') = field (s.client c') :=
    setClient_field s c ({ · with connecting := some s.connectingCount }) field
  have runtimes := keeps (·.runtime) rfl
  refine ⟨{ sound with
    references := ⟨fun c' => ?_, fun c' promise is => ?_, fun promise runtime is => ?_,
      fun c' => ?_, fun n operation is => (sound.references.operation n operation is).mono extended⟩
    alive := fun runtime => ?_
    generation := ⟨sound.generation.1, fun promise below => ?_⟩
    open' := fun promise below pending same => ?_
    unborn := fun promise above => ?_
    entry := fun c' => ?_ }, extended⟩
  · rw [runtimes]
    exact sound.references.runtime c'
  · simp only [connect, setClient_apply] at is
    split at is
    · next eq =>
      cases is
      rw [eq]
      simp [ConnectingOf, connect]
    · exact extended.connecting _ _ (sound.references.connecting c' promise is)
  · simp only [connect, update_apply] at is ⊢
    split at is
    · cases is
    · next other =>
      rw [if_neg other]
      exact sound.references.connected promise runtime is
  · rw [keeps (·.threads) rfl]
    exact sound.references.thread c'
  · rw [runtimes]
    exact sound.alive runtime
  · have below : promise < s.connectingCount + 1 := below
    simp only [connect, update_apply]
    split
    · exact sound.generation.1 backend present
    · exact sound.generation.2 promise (by omega)
  · have below : promise < s.connectingCount + 1 := below
    simp only [connect, update_apply, setClient_apply] at pending same ⊢
    split
    · next eq => simpa [eq] using idle
    · next other =>
      rw [if_neg other] at pending same
      obtain ⟨connecting, unused⟩ := sound.open' promise (by omega) pending same
      have apart : (s.connecting promise).client ≠ c := by
        intro eq
        rw [eq, free] at connecting
        cases connecting
      rw [if_neg apart]
      exact ⟨connecting, unused⟩
  · have above : s.connectingCount + 1 ≤ promise := above
    have other : promise ≠ s.connectingCount := by omega
    simp only [connect, update_of_ne other]
    exact sound.unborn promise (by omega)
  · unfold Lives
    rw [runtimes, keeps (·.pending) rfl]
    exact sound.entry c'

/-- What `#connection` returns belongs to the client. -/
theorem connection_runtimes (c : Nat) :
    Runtimes (s.connection c).1 ∧ Extends s (s.connection c).1 ∧
      StageOf (s.connection c).1 c (.connection (s.connection c).2) := by
  have same : Extends s s := ⟨fun _ _ of => of, fun _ _ of => of, fun _ _ of => of⟩
  unfold connection
  split
  · exact ⟨sound, same, trivial⟩
  · next backend present =>
    split
    · exact ⟨sound, same, trivial⟩
    · split
      · next runtime is => exact ⟨sound, same, sound.references.runtime c runtime is⟩
      · next promise _ is => exact ⟨sound, same, sound.references.connecting c promise is⟩
      · next idle free =>
        obtain ⟨sound', extended⟩ := connect_runtimes sound present idle free
        refine ⟨sound', extended, ?_⟩
        simp [StageOf, ConnectingOf, connect]

theorem connectionOver_runtimes (number : Nat) (outcome : Option Nat)
    (of : ∀ runtime, outcome = some runtime → RuntimeOf s runtime (s.connecting number).client) :
    Runtimes (s.connectionOver number outcome) := by
  have at' : (s.connectionOver number outcome).connecting number =
      { s.connecting number with outcome := some outcome } := by
    simp [connectionOver]
  have off : ∀ promise, promise ≠ number →
      (s.connectionOver number outcome).connecting promise = s.connecting promise :=
    fun promise other => update_of_ne other ..
  have extended : Extends s (s.connectionOver number outcome) := by
    refine ⟨fun _ _ of => of, fun promise c of => ⟨of.1, ?_⟩, fun _ _ of => of⟩
    by_cases eq : promise = number
    · rw [eq, at']
      rw [eq] at of
      exact of.2
    · rw [off promise eq]
      exact of.2
  refine { sound with
    references := { sound.references with
      connecting := fun c promise is => extended.connecting _ _ (sound.references.connecting c promise is)
      connected := fun promise runtime is => ?_
      operation := fun n operation is => (sound.references.operation n operation is).mono extended }
    generation := ⟨sound.generation.1, fun promise below => ?_⟩
    open' := fun promise below pending same => ?_
    unborn := fun promise above => ?_ }
  all_goals by_cases eq : promise = number
  · rw [eq, at'] at is ⊢
    exact of runtime (some_inj.mp is)
  · rw [off promise eq] at is ⊢
    exact sound.references.connected promise runtime is
  · rw [eq] at below
    rw [eq, at']
    exact sound.generation.2 number below
  · rw [off promise eq]
    exact sound.generation.2 promise below
  · rw [eq, at'] at pending
    cases pending
  · rw [off promise eq] at pending same ⊢
    exact sound.open' promise below pending same
  · rw [eq, at']
    nofun
  · rw [off promise eq]
    exact sound.unborn promise above

/-- A new runtime of an attached client that has none. -/
theorem newRuntime_runtimes {c : Nat} (generation : Nat)
    (active : s.active = true) (member : c ∈ s.clients) (idle : (s.client c).runtime = none)
    (settled : ∀ promise < s.connectingCount, (s.connecting promise).client = c →
      (s.connecting promise).outcome = none → s.backend ≠ some (s.connecting promise).backend) :
    Runtimes (s.newRuntime c generation) ∧ RuntimeOf (s.newRuntime c generation) s.runtimeCount c := by
  have extended : Extends s (s.newRuntime c generation) := by
    have runtimes : ∀ runtime c', RuntimeOf s runtime c' →
        RuntimeOf (s.newRuntime c generation) runtime c' := by
      intro runtime c' of
      have below := of.1
      have other : runtime ≠ s.runtimeCount := by omega
      simp only [RuntimeOf, newRuntime, update_of_ne other] at of ⊢
      exact ⟨by omega, of.2⟩
    exact ⟨runtimes, fun _ _ of => of, fun _ _ of => ⟨of.1, of.2.1, runtimes _ _ of.2.2⟩⟩
  have new : RuntimeOf (s.newRuntime c generation) s.runtimeCount c := by
    simp [RuntimeOf, newRuntime]
  have client : ∀ c', (s.newRuntime c generation).client c' = if c' = c then
      { s.client c with runtime := some s.runtimeCount } else s.client c' :=
    setClient_apply s c ({ · with runtime := some s.runtimeCount })
  have keeps {β : Type} (field : Client → β) : field { s.client c with runtime := some s.runtimeCount } =
      field (s.client c) → ∀ c', field ((s.newRuntime c generation).client c') = field (s.client c') :=
    setClient_field s c ({ · with runtime := some s.runtimeCount }) field
  have connections := keeps (·.connecting) rfl
  refine ⟨{ sound with
    references := ⟨fun c' runtime is => ?_, fun c' promise is => ?_,
      fun promise runtime is => extended.runtime _ _ (sound.references.connected promise runtime is),
      fun c' id subscription promise is restoring => ?_,
      fun n operation is => (sound.references.operation n operation is).mono extended⟩
    alive := fun runtime below lives => ?_
    open' := fun promise below pending same => ?_
    entry := fun c' id pending is => ?_ }, new⟩
  · rw [client] at is
    split at is
    · next eq =>
      cases is
      rw [eq]
      exact new
    · exact extended.runtime _ _ (sound.references.runtime c' runtime is)
  · rw [connections] at is
    exact extended.connecting _ _ (sound.references.connecting c' promise is)
  · rw [keeps (·.threads) rfl] at is
    exact extended.restoring _ _ (sound.references.thread c' id subscription promise is restoring)
  · have below : runtime < s.runtimeCount + 1 := below
    by_cases eq : runtime = s.runtimeCount
    · have owner : ((s.newRuntime c generation).runtime runtime).client = c := by
        rw [eq]
        exact new.2
      rw [owner, client, if_pos rfl, eq]
      exact ⟨active, member, rfl⟩
    · have same : (s.newRuntime c generation).runtime runtime = s.runtime runtime :=
        update_of_ne eq ..
      rw [same] at lives ⊢
      obtain ⟨_, attached', is⟩ := sound.alive runtime (by omega) lives
      refine ⟨active, attached', ?_⟩
      rw [client, if_neg]
      · exact is
      · intro eq
        rw [eq, idle] at is
        cases is
  · obtain ⟨connecting, unused⟩ := sound.open' promise below pending same
    refine ⟨(connections _).trans connecting, ?_⟩
    have apart : (s.connecting promise).client ≠ c := fun eq => settled promise below eq pending same
    have at' := client (s.connecting promise).client
    rw [if_neg apart] at at'
    exact (congrArg Client.runtime at').trans unused
  · have at' := client c'
    by_cases eq : c' = c
    · rw [if_pos eq] at at'
      refine .inl ⟨s.runtimeCount, congrArg Client.runtime at', ?_⟩
      simp [newRuntime]
    · rw [if_neg eq] at at'
      rw [at'] at is
      refine (sound.entry c' id pending is).imp_left ?_
      rintro ⟨runtime, has, lives⟩
      have below := (sound.references.runtime c' runtime has).1
      have other : runtime ≠ s.runtimeCount := by omega
      refine ⟨runtime, (congrArg Client.runtime at').trans has, ?_⟩
      simp only [newRuntime, update_of_ne other]
      exact lives

theorem connected_runtimes {number : Nat}
    (pending : (s.connecting number).outcome = none) (ok : Bool) :
    Runtimes (s.connected number ok) := by
  have below : number < s.connectingCount := by
    by_contra above
    exact sound.unborn number (by omega) pending
  unfold connected
  simp only
  split
  · next proceeds =>
    simp only [Bool.and_eq_true, decide_eq_true_eq] at proceeds
    obtain ⟨⟨⟨-, same⟩, member⟩, active⟩ := proceeds
    have ended := connectionOver_runtimes sound number none nofun
    have off : ∀ promise, promise ≠ number →
        (s.connectionOver number none).connecting promise = s.connecting promise :=
      fun promise other => update_of_ne other ..
    have mine := sound.open' number below pending same
    obtain ⟨created, new⟩ := newRuntime_runtimes ended (s.connecting number).backend active member mine.2 (by
        intro promise below' owner open' same'
        by_cases eq : promise = number
        · subst eq
          simp [connectionOver] at open'
        · rw [off promise eq] at owner open' same'
          have other := (sound.open' promise below' open' same').1
          rw [owner, mine.1] at other
          exact eq (some_inj.mp other).symm)
    have swap : (s.connectionOver number (some s.runtimeCount)).newRuntime
        (s.connecting number).client (s.connecting number).backend =
        ((s.connectionOver number none).newRuntime (s.connecting number).client
          (s.connecting number).backend).connectionOver number (some s.runtimeCount) := by
      simp [connectionOver, newRuntime, setClient]
    rw [swap]
    refine connectionOver_runtimes created number _ fun runtime is => ?_
    cases is
    simpa [connectionOver, newRuntime, setClient] using new
  · exact connectionOver_runtimes sound number none nofun

/-- Runtimes that close; every one of an attached client may. -/
theorem retire_runtimes (retired : List Nat) :
    Runtimes (s.retire retired) ∧ ∀ runtime < s.runtimeCount,
      ((s.retire retired).runtime runtime).closing = false →
        (s.runtime runtime).closing = false ∧ (s.runtime runtime).client ∉ retired := by
  have runtimes : ∀ runtime, (s.retire retired).runtime runtime =
      if runtime ∈ retired.filterMap fun c => (s.client c).runtime then
        { s.runtime runtime with closing := true } else s.runtime runtime := fun _ => rfl

  have fields : ∀ c, ((s.retire retired).client c).runtime = (s.client c).runtime ∧
      ((s.retire retired).client c).connecting = (s.client c).connecting := by
    intro c
    simp only [retire]
    split <;> exact ⟨rfl, rfl⟩
  have extended : Extends s (s.retire retired) := { closeRuntimes_extends s _ with }
  have open_ : ∀ runtime < s.runtimeCount, ((s.retire retired).runtime runtime).closing = false →
        (s.runtime runtime).closing = false ∧ (s.runtime runtime).client ∉ retired := by
    intro runtime below lives
    rw [runtimes] at lives
    split at lives
    · cases lives
    · next apart =>
      refine ⟨lives, fun inside => apart ?_⟩
      exact List.mem_filterMap.mpr ⟨_, inside, (sound.alive runtime below lives).2.2⟩
  refine ⟨{ sound with
    references := ⟨fun c runtime is => ?_, fun c promise is => ?_,
      fun promise runtime is => extended.runtime _ _ (sound.references.connected promise runtime is),
      fun c id subscription promise is restoring => ?_,
      fun n operation is => (sound.references.operation n operation is).mono extended⟩
    alive := fun runtime below lives => ?_
    open' := fun promise below pending same => ?_
    entry := fun c id pending is => ?_ }, open_⟩
  · rw [(fields c).1] at is
    exact extended.runtime _ _ (sound.references.runtime c runtime is)
  · rw [(fields c).2] at is
    exact extended.connecting _ _ (sound.references.connecting c promise is)
  · simp only [retire] at is
    split at is
    · obtain ⟨before, -, forgot⟩ := map_eq_some_iff.mp is
      rw [← forgot] at restoring
      cases restoring
    · exact extended.restoring _ _ (sound.references.thread c id subscription promise is restoring)
  · have same : ((s.retire retired).runtime runtime).client = (s.runtime runtime).client :=
      closeRuntimes_client s _ runtime
    rw [same, (fields _).1]
    exact sound.alive runtime below (open_ runtime below lives).1
  · rw [(fields _).1, (fields _).2]
    exact sound.open' promise below pending same
  · by_cases inside : c ∈ retired
    · simp [retire, inside] at is
    · have same : ((s.retire retired).client c).pending = (s.client c).pending := by
        simp only [retire, if_neg inside]
      rw [same] at is
      refine (sound.entry c id pending is).imp_left ?_
      rintro ⟨runtime, has, lives⟩
      refine ⟨runtime, (fields c).1.trans has, ?_⟩
      rw [runtimes, if_neg]
      · exact lives
      · intro closes
        obtain ⟨c', inside', has'⟩ := List.mem_filterMap.mp closes
        have mine := (sound.references.runtime c runtime has).2
        rw [(sound.references.runtime c' runtime has').2] at mine
        exact inside (mine ▸ inside')

/-- The owner gives up: every runtime closes, whatever phase follows. -/
theorem retireAll_runtimes (phase : Phase)
    (inactive : phase ≠ .starting ∧ phase ≠ .running) (ready : Bool) :
    Runtimes { s.retire s.clients with phase := phase, ready := ready } := by
  obtain ⟨sound', closes⟩ := retire_runtimes sound s.clients
  refine { sound' with
    references := { sound'.references with }
    alive := fun runtime below lives => ?_
    backend := fun active => ?_ }
  · obtain ⟨lives, outside⟩ := closes runtime below lives
    exact absurd (sound.alive runtime below lives).2.1 outside
  · simp [State.active, inactive.1, inactive.2] at active

theorem unavailable_runtimes : Runtimes s.unavailable :=
  retireAll_runtimes sound .unavailable ⟨nofun, nofun⟩ false

theorem close_runtimes (c : Nat) :
    Runtimes { s.retire [c] with clients := s.clients.erase c } := by
  obtain ⟨sound', closes⟩ := retire_runtimes sound [c]
  refine { sound' with
    references := { sound'.references with }
    attached := fun c' member => sound'.attached c' (List.mem_of_mem_erase member)
    distinct := sound'.distinct.erase c
    alive := fun runtime below lives => ?_ }
  obtain ⟨active, member, has⟩ := sound'.alive runtime below lives
  refine ⟨active, (List.mem_erase_of_ne ?_).mpr member, has⟩
  have same : ((s.retire [c]).runtime runtime).client = (s.runtime runtime).client :=
    closeRuntimes_client s _ runtime
  rw [same]
  simpa using (closes runtime below lives).2

/-- While the owner is not active every runtime closes. -/
theorem Runtimes.closing (inactive : s.active = false) (runtime : Nat)
    (below : runtime < s.runtimeCount) : (s.runtime runtime).closing = true := by
  cases closing : (s.runtime runtime).closing with
  | true => rfl
  | false =>
    have active := (sound.alive runtime below closing).1
    rw [inactive] at active
    cases active

/-- `stop` is done: the attached clients have neither runtime nor connection. -/
theorem stopped_runtimes (inactive : s.active = false) (ok : Bool) :
    Runtimes (s.stopped ok) := by
  unfold stopped
  split
  · have closing := sound.closing inactive
    have extended : Extends s (s.stopped true) := { closeRuntimes_extends s _ with }
    refine { sound with
      references := ⟨fun c runtime is => ?_, fun c promise is => ?_,
        fun promise runtime is => extended.runtime _ _ (sound.references.connected promise runtime is),
        fun c id subscription promise is restoring => ?_,
        fun n operation is => (sound.references.operation n operation is).mono extended⟩
      alive := fun runtime below lives => ?_
      backend := nofun
      generation := ⟨nofun, sound.generation.2⟩
      open' := nofun
      entry := fun c id pending is => ?_ }
    · simp only at is
      split at is
      · cases is
      · exact extended.runtime _ _ (sound.references.runtime c runtime is)
    · simp only at is
      split at is
      · cases is
      · exact extended.connecting _ _ (sound.references.connecting c promise is)
    · simp only at is
      split at is <;>
        exact extended.restoring _ _ (sound.references.thread c id subscription promise is restoring)
    · simp only [closeRuntimes] at lives
      split at lives
      · cases lives
      · rw [closing runtime below] at lives
        cases lives
    · have same : ((s.stopped true).client c).pending = (s.client c).pending := by
        simp only [stopped, if_true]
        split <;> rfl
      have is : (s.client c).pending.get? id = some pending := by
        rw [← same]
        simpa [stopped] using is
      refine (sound.entry c id pending is).elim ?_ .inr
      rintro ⟨runtime, has, lives⟩
      rw [closing runtime (sound.references.runtime c runtime has).1] at lives
      cases lives
  · exact (unavailable_runtimes sound).rest _ _ _ _ _ _

theorem changePending_runtimes (c : Nat)
    (change : OrderedMap RequestId Pending → OrderedMap RequestId Pending)
    (entered : ∀ id pending, (change (s.client c).pending).get? id = some pending →
      (s.client c).pending.get? id = some pending ∨ Lives s c ∨
        ∃ operation runtime, s.operation pending.token = some operation ∧
          operation.stage = .send runtime (some false)) :
    Runtimes (s.setClient c (fun client => { client with pending := change client.pending })) :=
  setClient_runtimes sound c _ rfl (fun _ => id) (fun _ is _ => is) (sound.references.thread c) entered

end

end Steps

end CodexHost.Guarantees.OfficialWork
