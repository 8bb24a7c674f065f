import CodexHost.Foundation.Selection
import CodexHost.Source.HostRuntime.ExternalTurnProjection

/-!
# Settlement of external Turns

The log of a Thread is a sequence of quiet entries and of closed completions: once a Turn is marked
finished, exactly one turn/completed follows for it, then the new status of the Thread, then one
hand-over of the steer or of the queue. It is so as long as the Delegation steps and the writes to
the client are not rejected while a Turn completes and no steer is then still reading the Session's
capabilities; a rejected Delegation lookup leaves the Turn finished in the Host and running at the
client.
-/
namespace CodexHost.Guarantees.TurnSettlement
open Foundation Source.SharedContracts Source.MappingStore OrderedMap Command List
  CodexHost.Source.ProtocolCore.CodexUiProjector CodexHost.Source.HostRuntime.ExternalTurnProjection

/-! ## What the log says -/

def finishes : Entry → Bool
  | .finished _ _ => true
  | _ => false

def completes : Message → Bool
  | .turnCompleted _ => true
  | _ => false

/-- An entry that is part of no completion. -/
def Quiet : Entry → Prop
  | .sent message => completes message = false
  | _ => False

/-- A steer was given the outcome, or had one; the queue was advanced, was paused, was being
advanced elsewhere, or had nothing left to start. -/
def HandedOver : Entry → Prop
  | .steered pending turnId _ =>
    pending.reading = false ∧ (pending.outcome ≠ none ∨ pending.turnId = turnId)
  | .advanced queue .nothingToStart => queue.items = [] ∨ queue.pausedReason ≠ none
  | .advanced queue (.started item) => queue.items.head? = some item ∧ queue.pausedReason = none
  | .advanced queue (.refused item) => queue.items.head? = some item ∧ queue.pausedReason = none
  | .advanced _ .blocked => True
  | .paused _ _ => True
  | _ => False

/-- What follows a finished Turn, up to the next one: its turn/completed, the status of the Thread
and one hand-over, each once, among quiet entries. -/
def Closed (turn : CompletedTurn) (after : List Entry) : Prop :=
  ∃ before status handover later, after.takeWhile (fun entry => !finishes entry) =
      before ++ [.sent (.turnCompleted turn), .sent (.threadStatusChanged status), handover] ++ later ∧
    (∀ entry ∈ before ++ later, Quiet entry) ∧ HandedOver handover

/-- Every Turn of the list was marked finished, and every finished Turn is closed. -/
structure Settled (host : Host) : Prop where
  listed : ∀ turn ∈ host.thread.turns, ∃ before after, host.log = before ++ .finished turn false :: after
  closed : ∀ before turn ephemeral after,
    host.log = before ++ .finished turn ephemeral :: after → Closed turn after

/-- The log as it grows. -/
inductive Grown : List Entry → Prop where
  | nil : Grown []
  | quiet {log : List Entry} {entry : Entry} (grown : Grown log) (quiet : Quiet entry) :
      Grown (log ++ [entry])
  | completion {log before : List Entry} {turn : CompletedTurn} {ephemeral : Bool}
      {status : ThreadStatus} {handover : Entry} (grown : Grown log)
      (quiet : ∀ entry ∈ before, Quiet entry) (handed : HandedOver handover) :
      Grown (log ++ (.finished turn ephemeral :: before ++
        [.sent (.turnCompleted turn), .sent (.threadStatusChanged status), handover]))

variable {entry : Entry}

theorem finishes_of_quiet (quiet : Quiet entry) : finishes entry = false := by
  cases entry <;> first | rfl | exact quiet.elim

theorem finishes_of_handedOver (handed : HandedOver entry) : finishes entry = false := by
  cases entry <;> first | rfl | exact handed.elim

variable {turn : CompletedTurn}

theorem Closed.quiet {after : List Entry}
    (closed : Closed turn after) (quiet : Quiet entry) : Closed turn (after ++ [entry]) := by
  obtain ⟨before, status, handover, later, segment, quietly, handed⟩ := closed
  by_cases ends : (after.takeWhile fun entry => !finishes entry).length = after.length
  · have whole := (List.takeWhile_prefix _).eq_of_length ends
    rw [whole] at segment
    refine ⟨before, status, handover, later ++ [entry], ?_, ?_, handed⟩
    · rw [takeWhile_append, if_pos ends, segment]
      simp [finishes_of_quiet quiet]
    · simp only [mem_append, mem_singleton] at quietly ⊢
      rintro other (earlier | earlier | rfl)
      · exact quietly other (.inl earlier)
      · exact quietly other (.inr earlier)
      · exact quiet
  · exact ⟨before, status, handover, later, by rw [takeWhile_append, if_neg ends, segment],
      quietly, handed⟩

/-- What starts with a finished Turn does not change what follows an earlier one. -/
theorem Closed.completion {turn next : CompletedTurn} {ephemeral : Bool} {after rest : List Entry}
    (closed : Closed turn after) : Closed turn (after ++ .finished next ephemeral :: rest) := by
  obtain ⟨before, status, handover, later, segment, quietly, handed⟩ := closed
  refine ⟨before, status, handover, later, ?_, quietly, handed⟩
  rw [takeWhile_append]
  split
  case isTrue ends =>
    rw [takeWhile_cons_of_neg (by simp [finishes]), append_nil, ← segment]
    exact ((List.takeWhile_prefix _).eq_of_length ends).symm
  case isFalse _ => exact segment

theorem not_finishes_completion {before : List Entry} {turn : CompletedTurn}
    {status : ThreadStatus} {handover : Entry} (quiet : ∀ entry ∈ before, Quiet entry)
    (handed : HandedOver handover) :
    ∀ entry ∈ before ++ [.sent (.turnCompleted turn), .sent (.threadStatusChanged status), handover],
      finishes entry = false := by
  intro entry member
  simp only [mem_append, mem_cons, not_mem_nil, or_false] at member
  rcases member with earlier | rfl | rfl | rfl
  · exact finishes_of_quiet (quiet entry earlier)
  · rfl
  · rfl
  · exact finishes_of_handedOver handed

theorem closed_completion {before : List Entry} {status : ThreadStatus}
    {handover : Entry} (quiet : ∀ entry ∈ before, Quiet entry) (handed : HandedOver handover) :
    Closed turn (before ++ [.sent (.turnCompleted turn), .sent (.threadStatusChanged status), handover]) := by
  refine ⟨before, status, handover, [], ?_, by simpa using quiet, handed⟩
  rw [append_nil, takeWhile_eq_self_iff]
  intro entry member
  simp [not_finishes_completion quiet handed entry member]

/-- Where a finished Turn stands in a log that ends with one more entry. -/
theorem finished_split {log before after : List Entry} {last entry : Entry}
    (split : log ++ [last] = before ++ entry :: after) (other : last ≠ entry) :
    ∃ rest, after = rest ++ [last] ∧ log = before ++ entry :: rest := by
  rcases eq_nil_or_concat after with rfl | ⟨rest, final, rfl⟩
  · exact absurd (append_inj' split rfl).2 (by simpa using other)
  · rw [concat_eq_append, ← cons_append, ← append_assoc] at split
    obtain ⟨rfl, same⟩ := append_inj' split rfl
    exact ⟨rest, by rw [concat_eq_append, singleton_inj.mp same], rfl⟩

theorem Grown.closed {log : List Entry} (grown : Grown log) :
    ∀ before turn ephemeral after, log = before ++ .finished turn ephemeral :: after → Closed turn after := by
  induction grown with
  | nil => simp
  | quiet grown quiet ih =>
    intro before turn ephemeral after split
    obtain ⟨rest, rfl, earlier⟩ := finished_split split
      (by rintro rfl; exact absurd (finishes_of_quiet quiet) (by simp [finishes]))
    exact (ih before turn ephemeral rest earlier).quiet quiet
  | @completion log own next nextEphemeral status handover grown quiet handed ih =>
    intro before turn ephemeral after split
    have calm := @not_finishes_completion own next status handover quiet handed
    rw [cons_append, append_eq_append_iff] at split
    rcases split with ⟨between, rfl, same⟩ | ⟨between, earlier, same⟩
    · cases between with
      | nil =>
        obtain ⟨⟨rfl, rfl⟩, rfl⟩ := by simpa using same
        exact closed_completion quiet handed
      | cons first between =>
        obtain ⟨-, inside⟩ := cons_eq_cons.mp same
        exact absurd (calm (.finished turn ephemeral) (inside ▸ by simp)) (by simp [finishes])
    · cases between with
      | nil =>
        obtain ⟨⟨rfl, rfl⟩, rfl⟩ := by simpa using same
        exact closed_completion quiet handed
      | cons first between =>
        obtain ⟨rfl, rfl⟩ := cons_eq_cons.mp same
        exact (ih before turn ephemeral between earlier).completion

/-! ## What the projector can do -/

variable {command : ProjectorCommand CodexTurnProjection} {event : ProjectableHostEvent}

section Projector
variable {view : WireView} {projector : CodexTurnProjector}

/-- Returning or throwing, the command completes no Turn. -/
def Calm (command : ProjectorCommand CodexTurnProjection) : Prop :=
  ∀ projector, command.wp (fun result after => (∀ message ∈ result.messages, completes message = false) ∧
      after.completed = projector.completed)
    (fun _ after => after.completed = projector.completed) projector

theorem wp_activeItem {itemId : HostItemId} {Q : ProjectedItem → CodexTurnProjector → Prop}
    {E : Unit → CodexTurnProjector → Prop} (returned : ∀ projected, Q projected projector)
    (thrown : E () projector) : (CodexTurnProjector.activeItem itemId).wp Q E projector := by
  simp only [CodexTurnProjector.activeItem, wp_bind, wp_get]
  split
  · exact thrown
  · split
    · exact thrown
    · exact returned _

theorem wp_requireStarted {Q : Unit → CodexTurnProjector → Prop}
    {E : Unit → CodexTurnProjector → Prop} (returned : Q () projector) (thrown : E () projector) :
    CodexTurnProjector.requireStarted.wp Q E projector := by
  simp only [CodexTurnProjector.requireStarted, wp_bind, wp_get]
  split
  · exact returned
  · exact thrown

theorem calm_surface (view : WireView) (event : ProjectableHostEvent) :
    Calm (CodexTurnProjector.surface view event) := by
  intro projector
  simp only [CodexTurnProjector.surface, wp_bind, wp_get, wp_pure]
  simp [completes]

theorem calm_startTurn : Calm CodexTurnProjector.startTurn := by
  intro projector
  simp only [CodexTurnProjector.startTurn, wp_bind, wp_get]
  split
  · rfl
  · refine ⟨?_, rfl⟩
    intro message member
    split at member <;> simp at member
    · rcases member with rfl | rfl | rfl <;> rfl
    · rw [member]; rfl

theorem calm_startItem (view : WireView) (item : HostItem) :
    Calm (CodexTurnProjector.startItem view item) := by
  intro projector
  rw [CodexTurnProjector.startItem, wp_bind]
  refine wp_requireStarted ?_ rfl
  simp only [wp_bind, wp_get]
  split
  · rfl
  · exact calm_surface view _ _

theorem calm_updateItem (view : WireView) (itemId : HostItemId) (update : HostItemUpdate) :
    Calm (CodexTurnProjector.updateItem view itemId update) := by
  intro projector
  rw [CodexTurnProjector.updateItem, wp_bind]
  refine wp_activeItem (fun projected => ?_) rfl
  split
  · rfl
  · exact calm_surface view _ _

theorem calm_completeItem (view : WireView) (item : HostItem) (outcome : HostItemOutcome) :
    Calm (CodexTurnProjector.completeItem view item outcome) := by
  intro projector
  simp only [CodexTurnProjector.completeItem, wp_bind, wp_get]
  split
  · rfl
  · rw [wp_bind]
    refine wp_activeItem (fun projected => ?_) rfl
    split
    · rfl
    · split
      · rfl
      · exact calm_surface view _ _

theorem calm_closeInteraction (view : WireView) (interactionId : HostInteractionId)
    (reason : InteractionClosedReason) :
    Calm (CodexTurnProjector.closeInteraction view interactionId reason) := by
  intro projector
  simp only [CodexTurnProjector.closeInteraction, wp_bind, wp_get]
  split
  · rfl
  · rw [wp_bind, wp_set]
    split
    · simp
    · simp
    · rw [wp_bind]
      exact wp_activeItem (fun projected => calm_completeItem view _ _ _) rfl

theorem calm_detachItem (itemId : HostItemId) : Calm (CodexTurnProjector.detachItem itemId) := by
  intro projector
  rw [CodexTurnProjector.detachItem, wp_bind]
  refine wp_activeItem (fun projected => ?_) rfl
  split
  · rfl
  · simp only [wp_bind, wp_modify, wp_pure]
    simp

def isCompletion : ProjectableHostEvent → Bool
  | .turnCompleted _ _ _ => true
  | _ => false

theorem calm_project (view : WireView)
    (other : isCompletion event = false) : Calm (CodexTurnProjector.project view event) := by
  intro projector
  simp only [CodexTurnProjector.project, wp_bind, wp_get]
  split
  · rfl
  · cases event with
    | turnStarted => exact calm_startTurn projector
    | itemStarted item => exact calm_startItem view item projector
    | itemUpdated itemId update => exact calm_updateItem view itemId update projector
    | itemCompleted item outcome => exact calm_completeItem view item outcome projector
    | itemDetached itemId => exact calm_detachItem itemId projector
    | interactionClosed interactionId reason =>
      exact calm_closeInteraction view interactionId reason projector
    | turnCompleted _ _ _ => exact absurd other (by simp [isCompletion])

theorem calm_openInteraction (interactionId : HostInteractionId) (calm : Calm command) :
    Calm (do CodexTurnProjector.openInteraction interactionId; command) := by
  intro projector
  simp only [CodexTurnProjector.openInteraction, wp_bind]
  refine wp_requireStarted ?_ rfl
  rw [wp_get]
  split
  · rfl
  · split
    · rfl
    · exact calm projector

theorem calm_projectApproval (interactionId : HostInteractionId) :
    Calm (CodexTurnProjector.projectApproval interactionId) :=
  calm_openInteraction interactionId fun projector => by
    simp only [CodexTurnProjector.addInteraction, wp_bind, wp_modify, wp_pure]
    simp

theorem calm_projectQuestion (view : WireView) (interactionId : HostInteractionId)
    (itemId : Option HostItemId) (syntheticItemId : HostItemId) :
    Calm (CodexTurnProjector.projectQuestion view interactionId itemId syntheticItemId) := by
  refine calm_openInteraction interactionId fun projector => ?_
  cases itemId with
  | none =>
    rw [wp_bind]
    refine wp_mono (calm_startItem view _ projector) (fun result after calm => ?_)
      fun _ _ same => same
    simpa only [CodexTurnProjector.addInteraction, wp_bind, wp_modify, wp_pure] using calm
  | some itemId =>
    rw [wp_bind]
    refine wp_activeItem (fun projected => ?_) rfl
    split
    · rfl
    · simp only [CodexTurnProjector.addInteraction, wp_bind, wp_modify, wp_pure]
      simp

/-- A completed projection ends with the turn/completed of its Turn; nothing completes twice. -/
theorem wp_project_completion (view : WireView) (nativeTurnRef ephemeral : Bool)
    (outcome : TurnOutcome) (projector : CodexTurnProjector) :
    (CodexTurnProjector.project view (.turnCompleted nativeTurnRef ephemeral outcome)).wp
      (fun result after => projector.completed = false ∧ after.completed = true ∧
        ∃ turn before, result.completedTurn = some turn ∧ result.messages = before ++ [.turnCompleted turn] ∧
          ∀ message ∈ before, completes message = false)
      (fun _ after => after.completed = projector.completed) projector := by
  simp only [CodexTurnProjector.project, CodexTurnProjector.outlives, wp_bind,
    wp_get, Bool.not_false, Bool.and_true]
  split
  · rfl
  case isFalse active =>
    rw [CodexTurnProjector.completeTurn, wp_bind]
    refine wp_requireStarted ?_ rfl
    simp only [wp_bind, wp_get]
    split
    · rfl
    · split
      · rfl
      · refine ⟨by simpa using active, rfl, _, _, rfl, rfl, ?_⟩
        intro message member
        rcases mem_append.mp member with surfaced | failed
        · obtain ⟨method, -, rfl⟩ := mem_map.mp surfaced
          rfl
        · cases outcome <;> simp [turnError] at failed
          rw [failed]; rfl

end Projector

/-! ## The Delegation of the Thread -/

/-! ## What holds between two outputs -/

/-- The log is grown, only the active Turn is not completed, and a steer that waits for an outcome
waits for the active Turn. `reading` says whether a steer may still read capabilities. -/
structure Good (reading : Bool) (host : Host) : Prop where
  grown : Grown host.log
  listed : ∀ turn ∈ host.thread.turns, ∃ before after, host.log = before ++ .finished turn false :: after
  active : ∀ turnId projector, host.thread.projectedTurns.get? turnId = some projector →
    projector.completed = false → host.thread.activeTurnId = some turnId
  steer : ∀ pending, host.pending = some pending → pending.reading = false →
    pending.outcome = none → host.thread.activeTurnId = some pending.turnId
  read : reading = false → ∀ pending, host.pending = some pending → pending.reading = false

/-- The Delegation steps and the writes of the completion are not rejected. -/
structure Answered (around : Surroundings) : Prop where
  lookup : around.rejects .delegationLookup = false
  status : around.rejects .delegationStatus = false
  messages : ∀ index, around.rejects (.message index) = false
  threadStatus : around.rejects .threadStatus = false

variable {closing : HostTurnId → ProjectableHostEvent → Surroundings} {output : HarnessOutput}
  {turnId : HostTurnId}

section Steps
variable {around : Surroundings} {reading : Bool} {host : Host}

/-- The parts of the Host that the invariant is about. -/
theorem Good.of_same {after : Host} (good : Good reading host) (log : after.log = host.log)
    (turns : after.thread.turns = host.thread.turns)
    (projectedTurns : after.thread.projectedTurns = host.thread.projectedTurns)
    (activeTurnId : after.thread.activeTurnId = host.thread.activeTurnId)
    (pending : after.pending = host.pending) : Good reading after where
  grown := log ▸ good.grown
  listed := by rw [turns, log]; exact good.listed
  active := by rw [projectedTurns, activeTurnId]; exact good.active
  steer := by rw [pending, activeTurnId]; exact good.steer
  read := by rw [pending]; exact good.read

theorem listed_append {log entries : List Entry}
    (listed : ∃ before after, log = before ++ .finished turn false :: after) :
    ∃ before after, log ++ entries = before ++ .finished turn false :: after := by
  obtain ⟨before, after, rfl⟩ := listed
  exact ⟨before, after ++ entries, by simp⟩

theorem Good.note (good : Good reading host) (quiet : Quiet entry) : Good reading (host.note entry) where
  grown := good.grown.quiet quiet
  listed := fun turn member => listed_append (good.listed turn member)
  active := good.active
  steer := good.steer
  read := good.read

/-- With no steer left that waits for an outcome. -/
theorem Good.dropPending (good : Good reading host) : Good reading { host with pending := none } where
  grown := good.grown
  listed := good.listed
  active := good.active
  steer := by simp
  read := by simp

theorem Good.weaken (good : Good false host) : Good reading host where
  grown := good.grown
  listed := good.listed
  active := good.active
  steer := good.steer
  read := fun _ => good.read rfl

theorem Good.strengthen (good : Good reading host)
    (read : ∀ pending, host.pending = some pending → pending.reading = false) :
    Good false host where
  grown := good.grown
  listed := good.listed
  active := good.active
  steer := good.steer
  read := fun _ => read

theorem Good.begin (good : Good reading host) (idle : host.thread.activeTurnId = none)
    (turnId : HostTurnId) (input ephemeral : Bool) :
    Good reading (host.onThread (·.begin turnId input ephemeral)) where
  grown := good.grown
  listed := good.listed
  active := by
    intro otherId projector has incomplete
    simp only [Host.onThread, ExternalThread.begin] at has ⊢
    rw [get?_set] at has
    split at has
    case isTrue same => rw [same]
    case isFalse _ =>
      have active := good.active otherId projector has incomplete
      rw [idle] at active
      cases active
  steer := by
    intro pending waits reads unsettled
    have active := good.steer pending waits reads unsettled
    rw [idle] at active
    cases active
  read := good.read

theorem keeps_awaitStep (step : Awaited) : Command.Keeps (Good reading) (awaitStep around step) := by
  unfold awaitStep
  split
  · exact keeps_throw ()
  · exact keeps_pure ()

theorem keeps_writeJson (step : Awaited) {message : Message} (quiet : completes message = false) :
    Command.Keeps (Good reading) (writeJson around step message) :=
  keeps_bind (keeps_awaitStep step) fun _ _ good => good.note quiet

theorem keeps_writeMessages (index : Nat) {messages : List Message}
    (quiet : ∀ message ∈ messages, completes message = false) :
    Command.Keeps (Good reading) (writeMessages around index messages) := by
  induction messages generalizing index with
  | nil => exact keeps_pure ()
  | cons message rest ih =>
    exact keeps_bind (keeps_writeJson _ (quiet message mem_cons_self)) fun _ =>
      ih (index + 1) fun other member => quiet other (mem_cons_of_mem _ member)

/-- A change of the Thread that none of the invariant's parts sees. -/
theorem keeps_onThread {f : ExternalThread → ExternalThread}
    (turns : ∀ thread, (f thread).turns = thread.turns)
    (projectedTurns : ∀ thread, (f thread).projectedTurns = thread.projectedTurns)
    (activeTurnId : ∀ thread, (f thread).activeTurnId = thread.activeTurnId) :
    Command.Keeps (Good reading) (modify (·.onThread f) : HostCommand Unit) := fun host good =>
  good.of_same rfl (turns host.thread) (projectedTurns host.thread) (activeTurnId host.thread) rfl

theorem keeps_setThreadStatus (status : ThreadStatus) :
    Command.Keeps (Good reading) (setThreadStatus around status) :=
  keeps_bind (keeps_onThread (fun _ => rfl) (fun _ => rfl) fun _ => rfl) fun _ =>
    keeps_writeJson _ rfl

theorem keeps_fault : Command.Keeps (Good reading) fault := fun _ good => good.dropPending

theorem keeps_bestEffort {command : HostCommand Unit} (keeps : Command.Keeps (Good reading) command) :
    Command.Keeps (Good reading) (Source.HostRuntime.ExternalTurnProjection.bestEffort command) :=
  keeps_tryCatch keeps fun _ => keeps_pure ()

theorem keeps_pauseQueue (reason : ExternalQueuePausedReason) :
    Command.Keeps (Good reading) (pauseQueue around reason) := by
  intro host good
  simp only [pauseQueue, wp_bind, wp_get]
  split
  · exact @keeps_writeJson around reading .queuePublication _ rfl _ (good.of_same rfl rfl rfl rfl rfl)
  · exact good

/-- The projector of one Turn replaced by one that is completed if the old one was. -/
theorem Good.setProjector (good : Good reading host) {projector after : CodexTurnProjector}
    (has : host.thread.projectedTurns.get? turnId = some projector)
    (completed : projector.completed = true → after.completed = true) :
    Good reading (host.onThread fun thread =>
      { thread with projectedTurns := thread.projectedTurns.set turnId after }) where
  grown := good.grown
  listed := good.listed
  active := by
    intro otherId other has' incomplete
    simp only [Host.onThread] at has' ⊢
    rw [get?_set] at has'
    split at has'
    case isTrue same =>
      cases has'
      rw [same]
      exact good.active turnId projector has (by
        cases was : projector.completed
        · rfl
        · exact absurd (completed was) (by simp [incomplete]))
    case isFalse _ => exact good.active otherId other has' incomplete
  steer := good.steer
  read := good.read

theorem wp_onProjector_calm (calm : Calm command) (turnId : HostTurnId) (good : Good reading host) :
    (onProjector turnId command).wp
      (fun result after => Good reading after ∧ ∀ message ∈ result.messages, completes message = false)
      (fun _ after => Good reading after) host := by
  simp only [onProjector, wp_bind, wp_get]
  split
  · exact good
  case _ projector has =>
    obtain ⟨returned, thrown⟩ := (wp_iff _).mp (calm projector)
    simp only [wp_bind, wp_set, wp_lift]
    rcases outcome : command.exec projector with ⟨result | result, after⟩
    · refine ⟨by simp, fun _ _ => good.setProjector has fun was => ?_⟩
      rw [← was]
      exact thrown _ _ outcome
    · obtain ⟨quiet, same⟩ := returned _ _ outcome
      refine ⟨fun other is => ?_, by simp⟩
      cases is
      exact ⟨good.setProjector has fun was => by rw [← was]; exact same, quiet⟩

theorem Good.forget (good : Good reading host) (turnId : HostTurnId) :
    Good reading (host.onThread (forgetProjection · turnId)) where
  grown := good.grown
  listed := good.listed
  active := by
    intro otherId projector has incomplete
    simp only [Host.onThread, forgetProjection] at has ⊢
    exact good.active otherId projector (kept_of_delete has).2 incomplete
  steer := good.steer
  read := good.read

theorem keeps_announceCompaction (turnId : HostTurnId) (event : ProjectableHostEvent) :
    Command.Keeps (Good reading) (announceCompaction around turnId event) := by
  intro host good
  simp only [announceCompaction, wp_bind, wp_get]
  split
  · exact keeps_writeJson _ rfl host good
  · exact good

theorem keeps_forgetLastDetached (turnId : HostTurnId) (event : ProjectableHostEvent) :
    Command.Keeps (Good reading) (forgetLastDetached turnId event) := by
  intro host good
  simp only [forgetLastDetached, wp_bind, wp_get]
  split
  · exact good.forget turnId
  · exact good

theorem keeps_publish (turnId : HostTurnId) (event : ProjectableHostEvent) {messages : List Message}
    (quiet : ∀ message ∈ messages, completes message = false) :
    Command.Keeps (Good reading) (publish around turnId event messages) := by
  unfold publish
  have rest := keeps_bind (@keeps_announceCompaction around reading turnId event) fun _ =>
    keeps_bind (keeps_forgetLastDetached turnId event) fun _ =>
      @keeps_writeMessages around reading 0 messages quiet
  split
  · exact keeps_bind (keeps_setThreadStatus _) fun _ => rest
  · exact rest

/-- The projector has completed the active Turn. -/
structure Completed (turnId : HostTurnId) (result : CodexTurnProjection) (host : Host) : Prop where
  turn : ∃ turn before, result.completedTurn = some turn ∧ result.messages = before ++ [.turnCompleted turn] ∧
    ∀ message ∈ before, completes message = false
  activeTurnId : host.thread.activeTurnId = some turnId
  completed : ∀ projector, host.thread.projectedTurns.get? turnId = some projector →
    projector.completed = true

theorem wp_onProjector_completion (turnId : HostTurnId) (nativeTurnRef ephemeral : Bool)
    (outcome : TurnOutcome) (good : Good reading host) :
    (onProjector turnId (CodexTurnProjector.project around.view
        (.turnCompleted nativeTurnRef ephemeral outcome))).wp
      (fun result after => Good reading after ∧ Completed turnId result after)
      (fun _ after => Good reading after) host := by
  simp only [onProjector, wp_bind, wp_get]
  split
  · exact good
  case _ projector has =>
    obtain ⟨returned, thrown⟩ := (wp_iff _).mp
      (wp_project_completion around.view nativeTurnRef ephemeral outcome projector)
    simp only [wp_bind, wp_set, wp_lift]
    rcases ran : Command.exec _ projector with ⟨result | result, after⟩
    · refine ⟨by simp, fun _ _ => good.setProjector has fun was => ?_⟩
      rw [← was]
      exact thrown _ _ ran
    · obtain ⟨incomplete, completed, turn⟩ := returned _ _ ran
      refine ⟨fun other is => ?_, by simp⟩
      cases is
      refine ⟨good.setProjector has fun _ => completed, turn, good.active turnId projector has incomplete,
        fun other has' => ?_⟩
      simp only [Host.onThread, get?_set, if_pos] at has'
      cases has'
      exact completed

/-- Writes that are not rejected append their messages. -/
theorem wp_writeMessages_answered (messages : List Message) (index : Nat)
    (answered : ∀ index, around.rejects (.message index) = false)
    {Q : Unit → Host → Prop} {E : Unit → Host → Prop} :
    (writeMessages around index messages).wp Q E host ↔
      Q () { host with log := host.log ++ messages.map .sent } := by
  induction messages generalizing index host with
  | nil => simp [writeMessages]
  | cons message rest ih =>
    simp only [writeMessages, writeJson, awaitStep, answered, wp_bind, wp_modify,
      Bool.false_eq_true, if_false, wp_pure, ih]
    simp [Host.note]

theorem wp_settleDelegation_answered (answered : Answered around) (status : DelegationStatus)
    {Q : Unit → Host → Prop} {E : Unit → Host → Prop}
    (returned : ∀ delegation, Q () { host with delegation := delegation }) :
    (settleDelegation around status).wp Q E host := by
  simp only [settleDelegation, awaitStep, answered.lookup, answered.status, wp_bind,
    Bool.false_eq_true, if_false, wp_pure, wp_get]
  split
  · exact returned host.delegation
  · exact returned _

/-- The Thread after its Turn has completed, all messages sent and the status published. -/
structure Told (turnId : HostTurnId) (host : Host) : Prop where
  listed : ∀ turn ∈ host.thread.turns, ∃ before after, host.log = before ++ .finished turn false :: after
  idle : host.thread.activeTurnId = none
  stopped : host.thread.running = false
  completed : ∀ turnId projector, host.thread.projectedTurns.get? turnId = some projector →
    projector.completed = true
  steer : ∀ pending, host.pending = some pending →
    pending.reading = false ∧ (pending.outcome ≠ none ∨ pending.turnId = turnId)
  grown : ∀ entry, HandedOver entry → Grown (host.log ++ [entry])

/-- After the hand-over the invariant holds again: a steer that is left has its outcome. -/
theorem Told.good (told : Told turnId host)
    (handed : HandedOver entry) {after : Host} (log : after.log = host.log ++ [entry])
    (thread : after.thread = host.thread)
    (steer : ∀ pending, after.pending = some pending →
      pending.outcome ≠ none ∧ pending.reading = false) : Good reading after where
  grown := log ▸ told.grown entry handed
  listed := by
    rw [thread, log]
    exact fun turn member => listed_append (told.listed turn member)
  active := by
    intro otherId projector has incomplete
    rw [thread] at has
    rw [told.completed otherId projector has] at incomplete
    cases incomplete
  steer := fun pending waits _ unsettled => absurd unsettled (steer pending waits).1
  read := fun _ pending waits => (steer pending waits).2

theorem terminal_outcome {pending : PendingSteer} {outcome : TurnOutcome}
    (reads : pending.reading = false) (own : pending.outcome ≠ none ∨ pending.turnId = turnId) :
    (pending.terminal turnId outcome).outcome ≠ none ∧ (pending.terminal turnId outcome).reading = false := by
  unfold PendingSteer.terminal
  split
  · exact ⟨by simp, reads⟩
  case isFalse other =>
    refine ⟨fun unsettled => other ⟨?_, reads, unsettled⟩, reads⟩
    exact own.resolve_left fun settled => settled unsettled

theorem handedOver_answer (idle : host.busy = false) (start : QueuedStart) :
    HandedOver (.advanced host.queue (.of host start)) := by
  have waiting : host.nextQueued = none → host.queue.items = [] ∨ host.queue.pausedReason ≠ none := by
    simp only [Host.nextQueued, idle, Bool.false_or]
    split
    case isTrue paused => exact fun _ => .inr (Option.isSome_iff_ne_none.mp paused)
    case isFalse _ => exact fun empty => .inl (head?_eq_none_iff.mp empty)
  have first : ∀ item, host.nextQueued = some item →
      host.queue.items.head? = some item ∧ host.queue.pausedReason = none := by
    intro item
    simp only [Host.nextQueued, idle, Bool.false_or]
    split
    · simp
    case isFalse running => exact fun head => ⟨head, by simpa using running⟩
  cases start with
  | blocked => trivial
  | accepted turnId ephemeral =>
    rcases next : host.nextQueued with _ | item
    · simpa [QueueAnswer.of, next, HandedOver] using waiting next
    · simpa [QueueAnswer.of, next, HandedOver] using first item next
  | refused =>
    rcases next : host.nextQueued with _ | item
    · simpa [QueueAnswer.of, next, HandedOver] using waiting next
    · simpa [QueueAnswer.of, next, HandedOver] using first item next

/-- The same without a steer. -/
theorem Told.noted (told : Told turnId host) (settled : host.pending = none) (handed : HandedOver entry) : Good reading (host.note entry) :=
  told.good handed rfl rfl fun pending waits => by rw [Host.note, settled] at waits; cases waits

theorem wp_startNext (told : Told turnId host) (settled : host.pending = none) :
    (startNextQueuedExternalTurn around).wp (fun _ => Good reading) (fun _ => Good reading) host := by
  have idle : host.busy = false := by simp [Host.busy, settled, told.stopped]
  have handed := handedOver_answer idle around.queuedStart
  have good : Good reading (host.note _) := told.noted settled handed
  simp only [startNextQueuedExternalTurn, wp_bind, wp_get, wp_modify]
  rw [Source.HostRuntime.ExternalTurnProjection.bestEffort, wp_tryCatch]
  refine wp_mono (Q := fun _ => Good reading) (E := fun _ => Good reading) ?_
    (fun _ _ good => good) fun _ _ good => good
  split
  · rw [wp_tryCatch]
    refine wp_mono (Q := fun _ => Good reading) (E := fun _ => Good reading) ?_
      (fun _ _ good => good) fun _ after good => keeps_pauseQueue .failed after good
    exact @keeps_writeJson around reading .queuePublication _ rfl _
      ((good.begin told.idle _ true _).of_same rfl rfl rfl rfl rfl)
  · exact keeps_pauseQueue .failed _ good
  · exact good

theorem wp_handOver (told : Told turnId host) (outcome : TurnOutcome) :
    (handOver around turnId outcome).wp (fun _ => Good reading) (fun _ => Good reading) host := by
  simp only [handOver, wp_bind, wp_get]
  split
  case h_1 pending waits =>
    obtain ⟨reads, own⟩ := told.steer pending waits
    have handed : HandedOver (.steered pending turnId outcome) := ⟨reads, own⟩
    refine told.good handed rfl rfl fun other is => ?_
    cases is
    exact terminal_outcome reads own
  case h_2 none =>
    cases outcome with
    | succeeded => exact wp_startNext told none
    | cancelled =>
      exact keeps_pauseQueue .interrupted _ (told.noted none trivial)
    | failed message =>
      exact keeps_pauseQueue .failed _ (told.noted none trivial)

theorem finish_completed {thread : ExternalThread} {turnId otherId : HostTurnId}
    {ephemeral : Bool} {projector : CodexTurnProjector}
    (has : (thread.finish turn turnId ephemeral).projectedTurns.get? otherId = some projector) :
    thread.projectedTurns.get? otherId = some projector := by
  unfold ExternalThread.finish forgetProjection at has
  cases ephemeral <;> simp only [Bool.false_eq_true, if_false, if_true] at has
  all_goals
    split at has
    · exact has
    · exact (kept_of_delete has).2

theorem finish_stopped (thread : ExternalThread) (turn : CompletedTurn) (turnId : HostTurnId)
    (ephemeral : Bool) :
    (thread.finish turn turnId ephemeral).activeTurnId = none ∧
      (thread.finish turn turnId ephemeral).running = false := by
  unfold ExternalThread.finish forgetProjection
  cases ephemeral <;> simp only [Bool.false_eq_true, if_false, if_true] <;> split <;> simp

theorem mem_finish_turns {thread : ExternalThread} {turn other : CompletedTurn}
    {ephemeral : Bool} (member : other ∈ (thread.finish turn turnId ephemeral).turns) :
    other ∈ thread.turns ∨ (other = turn ∧ ephemeral = false) := by
  unfold ExternalThread.finish forgetProjection at member
  cases ephemeral <;> simp only [Bool.false_eq_true, if_false, if_true] at member <;>
    split at member <;> simpa using member

/-- A Turn that the projector has completed is settled, whatever its outcome. -/
theorem wp_settleTurn (answered : Answered around) (good : Good false host)
    {result : CodexTurnProjection} (done : Completed turnId result host)
    (completed : result.completedTurn = some turn) (ephemeral : Bool) (outcome : TurnOutcome) :
    (settleTurn around turnId ephemeral outcome turn result.messages).wp
      (fun _ => Good false) (fun _ => Good false) host := by
  obtain ⟨other, before, is, messages, quiet⟩ := done.turn
  obtain rfl := Option.some.inj (is.symm.trans completed)
  simp only [settleTurn, setThreadStatus, writeJson, awaitStep, wp_bind, wp_modify]
  refine wp_settleDelegation_answered answered _ fun delegation => ?_
  simp only [wp_writeMessages_answered _ _ answered.messages, answered.threadStatus,
    Bool.false_eq_true, if_false, wp_pure, messages]
  have log : ∀ status : ThreadStatus, host.log ++ [Entry.finished other ephemeral] ++
        (before ++ [Message.turnCompleted other]).map Entry.sent ++
        [.sent (.threadStatusChanged status)] =
      host.log ++ (.finished other ephemeral :: before.map .sent ++
        [.sent (.turnCompleted other), .sent (.threadStatusChanged status)]) := by simp
  have calm : ∀ entry ∈ before.map Entry.sent, Quiet entry := by
    simpa [Quiet] using quiet
  refine wp_handOver ⟨?_, (finish_stopped _ _ _ _).1, (finish_stopped _ _ _ _).2, ?_, ?_, ?_⟩ outcome
  · intro turn member
    change ∃ before' after, host.log ++ [Entry.finished other ephemeral] ++ _ ++ _ = _
    rw [log]
    rcases mem_finish_turns member with earlier | ⟨rfl, rfl⟩
    · exact listed_append (good.listed turn earlier)
    · exact ⟨host.log, _, by rw [cons_append]⟩
  · intro otherId projector has
    have has := finish_completed has
    cases incomplete : projector.completed
    · have active := good.active otherId projector has incomplete
      obtain rfl := Option.some.inj (done.activeTurnId.symm.trans active)
      exact absurd (done.completed projector has) (by simp [incomplete])
    · rfl
  · intro pending waits
    refine ⟨good.read rfl pending waits, ?_⟩
    by_cases settled : pending.outcome = none
    · have active := good.steer pending waits (good.read rfl pending waits) settled
      exact .inr (Option.some.inj (done.activeTurnId.symm.trans active)).symm
    · exact .inl settled
  · intro entry handed
    change Grown (host.log ++ [Entry.finished other ephemeral] ++ _ ++ _ ++ [entry])
    simpa using @Grown.completion _ _ other ephemeral _ _ good.grown calm handed

theorem keeps_persistTerminalIdentity (nativeTurnRef : Bool) (outcome : TurnOutcome) :
    Command.Keeps (Good reading) (persistTerminalIdentity around nativeTurnRef outcome) := by
  unfold persistTerminalIdentity
  split
  · exact keeps_bind (keeps_onThread (fun _ => rfl) (fun _ => rfl) fun _ => rfl) fun _ =>
      keeps_pure _
  · exact keeps_bind (keeps_awaitStep _) fun _ => keeps_pure _

/-- What is projected completes the Turn exactly when the event does. -/
theorem wp_persisted (turnId : HostTurnId) (event : ProjectableHostEvent) (good : Good reading host) :
    (persisted around turnId event).wp
      (fun shown after => Good reading after ∧ isCompletion shown = isCompletion event)
      (fun _ after => Good reading after) host := by
  simp only [persisted, wp_bind, wp_get]
  cases event with
  | turnCompleted nativeTurnRef ephemeral outcome =>
    dsimp only
    split
    · exact ⟨good, rfl⟩
    · rw [wp_bind]
      refine wp_mono (keeps_persistTerminalIdentity nativeTurnRef outcome host good)
        (fun fails after good => ?_) fun _ _ good => good
      split
      · exact ⟨good, rfl⟩
      · exact ⟨good, rfl⟩
  | turnStarted => exact ⟨good, rfl⟩
  | itemStarted _ | itemDetached _ => exact ⟨good, rfl⟩
  | itemUpdated _ _ | itemCompleted _ _ | interactionClosed _ _ => exact ⟨good, rfl⟩

/-- A completion needs its steps answered and no steer that still reads; other events do not. -/
def Allowed (around : Surroundings) (reading : Bool) (event : ProjectableHostEvent) : Prop :=
  isCompletion event = true → Answered around ∧ reading = false

theorem keeps_projectPersisted (allowed : Allowed around reading event)
    (turnId : HostTurnId) (ephemeral : Bool) :
    Command.Keeps (Good reading) (projectPersisted around turnId ephemeral event) := by
  intro host good
  rw [projectPersisted, wp_bind]
  cases kind : isCompletion event with
  | false =>
    refine wp_mono (wp_onProjector_calm (calm_project around.view kind) turnId good)
      (fun result after calm => ?_) fun _ _ good => good
    cases event with
    | turnCompleted _ _ _ => exact absurd kind (by simp [isCompletion])
    | _ => exact keeps_publish turnId _ calm.2 after calm.1
  | true =>
    obtain ⟨answered, rfl⟩ := allowed kind
    cases event with
    | turnCompleted nativeTurnRef own outcome =>
      refine wp_mono (wp_onProjector_completion turnId nativeTurnRef own outcome good)
        (fun result after done => ?_) fun _ _ good => good
      obtain ⟨turn, _, is, -⟩ := done.2.turn
      simp only [is]
      exact wp_settleTurn answered done.1 done.2 is ephemeral outcome
    | _ => exact absurd kind (by simp [isCompletion])

theorem keeps_project (allowed : Allowed around reading event)
    (turnId : HostTurnId) : Command.Keeps (Good reading) (project around turnId event) := by
  refine keeps_bind (keeps_awaitStep _) fun _ host good => ?_
  rw [wp_bind, wp_get]
  split
  · exact good
  · split
    · exact good.of_same rfl rfl rfl rfl rfl
    · rw [wp_bind]
      refine wp_mono (Q := fun _ => Good reading) (E := fun _ => Good reading) ?_
        (fun _ after good => ?_) fun _ _ good => good
      · cases event with
        | interactionClosed _ _ => exact keeps_writeJson _ rfl host good
        | _ => exact good
      · rw [wp_bind]
        refine wp_mono (wp_persisted turnId event good) (fun shown after same => ?_)
          fun _ _ good => good
        exact keeps_projectPersisted (fun kind => allowed (same.2 ▸ kind)) turnId _ after same.1

theorem keeps_projectAutonomous (turnId : HostTurnId) (input : Bool) :
    Command.Keeps (Good reading) (projectAutonomous around turnId input) := by
  intro host good
  simp only [projectAutonomous, wp_bind, wp_get]
  split
  · exact good
  case isFalse idle =>
    have begun := good.begin (by simp at idle; exact idle.2) turnId input false
    simp only [wp_bind, wp_set]
    split
    · rw [wp_bind]
      refine wp_mono (keeps_awaitStep .submitPrewarm _ begun) (fun _ after good => ?_)
        fun _ _ good => good
      exact keeps_writeJson _ rfl _ (good.of_same rfl rfl rfl rfl rfl)
    · exact begun

theorem keeps_projectInteraction
    (calm : Calm command) (turnId : HostTurnId) (interactionId : HostInteractionId) :
    Command.Keeps (Good reading) (projectInteraction around turnId interactionId command) := by
  intro host good
  simp only [projectInteraction, wp_bind, wp_get]
  split
  · exact good
  · split
    · rw [wp_bind]
      refine wp_mono (wp_onProjector_calm calm turnId good) (fun result after calm => ?_)
        fun _ _ good => good
      exact keeps_bind (keeps_writeMessages 0 calm.2) (fun _ => keeps_writeJson _ rfl) after
        calm.1
    · unfold refuse
      split
      · exact good.of_same rfl rfl rfl rfl rfl
      · exact good

theorem keeps_projectAll (allowed : ∀ turnId event, Allowed (closing turnId event) reading event)
    (outputs : List (HostTurnId × ProjectableHostEvent)) :
    Command.Keeps (Good reading) (projectAll closing outputs) := by
  induction outputs with
  | nil => exact keeps_pure ()
  | cons output rest ih =>
    exact keeps_bind (keeps_project (allowed _ _) _) fun _ => ih

theorem keeps_endOutputs (closeRequested : Bool) :
    Command.Keeps (Good reading) (endOutputs around closeRequested) := by
  refine keeps_bind keeps_fault fun _ host good => ?_
  rw [wp_bind, wp_get]
  split
  · exact keeps_bestEffort (keeps_pauseQueue _) host good
  · exact good

/-- Once its steer is gone, a broken consumer settles what is projected. -/
theorem keeps_settleFailure
    (answered : ∀ turnId event, isCompletion event = true → Answered (closing turnId event)) :
    Command.Keeps (Good false) (settleExternalOutputFailure closing) := by
  intro host good
  exact keeps_bestEffort (keeps_projectAll (fun turnId event kind => ⟨answered turnId event kind, rfl⟩) _)
    _ (good.of_same rfl rfl rfl rfl rfl)

/-- What an output may meet: a completion needs its steps answered and no steer that still reads. -/
def OutputAllowed (around : Surroundings) (reading : Bool) : HarnessOutput → Prop
  | .event _ event => Allowed around reading event
  | _ => True

theorem keeps_projectHarnessOutput (allowed : OutputAllowed around reading output) :
    Command.Keeps (Good reading) (projectHarnessOutput around output) := by
  cases output with
  | event turnId event => exact keeps_project allowed turnId
  | autonomous turnId input => exact keeps_projectAutonomous turnId input
  | approval turnId interactionId =>
    exact keeps_projectInteraction (calm_projectApproval interactionId) turnId interactionId
  | question turnId interactionId itemId =>
    exact keeps_projectInteraction (calm_projectQuestion _ interactionId itemId _) turnId interactionId
  | sessionFaulted =>
    exact keeps_bind keeps_fault fun _ =>
      keeps_bind (fun _ good => good.of_same rfl rfl rfl rfl rfl) fun _ => keeps_pauseQueue _

theorem keeps_consume (allowed : OutputAllowed around reading output)
    (answered : ∀ turnId event, isCompletion event = true → Answered (closing turnId event))
    (closeRequested : Bool) :
    Command.Keeps (Good reading) (consume around closing closeRequested output) := by
  refine keeps_tryCatch (keeps_projectHarnessOutput allowed) fun _ host good => ?_
  simp only [fault, wp_bind, wp_modify]
  refine wp_mono (keeps_settleFailure answered _
    (good.dropPending.strengthen fun _ waits => by cases waits)) (fun _ after good => ?_)
    fun _ _ good => good.weaken
  exact keeps_endOutputs closeRequested after good.weaken

end Steps

/-! ## Runs -/

/-- The condition on one signal: while a Turn completes, its Delegation steps and its writes are
not rejected and no steer is still reading the Session's capabilities. -/
def Met (host : Host) : Signal → Prop
  | .output around closing _ output =>
    (∀ turnId event, output = .event turnId event → isCompletion event = true →
      Answered around ∧ ∀ pending, host.pending = some pending → pending.reading = false) ∧
    ∀ turnId event, isCompletion event = true → Answered (closing turnId event)
  | _ => True

theorem good_output {around : Surroundings} {closeRequested : Bool} {host : Host} (good : Good true host)
    (met : Met host (.output around closing closeRequested output)) :
    Good true ((consume around closing closeRequested output).exec host).2 := by
  by_cases completion : ∃ turnId event, output = .event turnId event ∧ isCompletion event = true
  · obtain ⟨turnId, event, rfl, kind⟩ := completion
    obtain ⟨answered, read⟩ := met.1 turnId event rfl kind
    have allowed : OutputAllowed around false (.event turnId event) := fun _ => ⟨answered, rfl⟩
    exact (Command.Keeps.exec (keeps_consume allowed met.2 closeRequested) (good.strengthen read)).weaken
  · refine Command.Keeps.exec (keeps_consume ?_ met.2 closeRequested) good
    cases output with
    | event turnId event => exact fun kind => absurd ⟨turnId, event, rfl, kind⟩ completion
    | _ => trivial

theorem good_begin {host after : Host} {input ephemeral manual : Bool}
    (good : Good true host) (begun : host.begin turnId input ephemeral manual = some after) :
    Good true after := by
  unfold Host.begin at begun
  split at begun
  · cases begun
  case isFalse idle =>
    have taken := good.begin (by simp at idle; exact idle.2) turnId input ephemeral
    cases begun
    split
    · exact taken.of_same rfl rfl rfl rfl rfl
    · exact taken

theorem good_steers {host : Host} {reading : Bool} (good : Good true host)
    (active : host.thread.activeTurnId = some turnId) :
    Good true { host with pending := some ⟨turnId, reading, none⟩ } where
  grown := good.grown
  listed := good.listed
  active := good.active
  steer := by
    intro pending is _ _
    cases is
    exact active
  read := by simp

theorem good_step {host after : Host} {signal : Signal} (good : Good true host)
    (met : Met host signal) (stepped : step host signal = some after) : Good true after := by
  cases signal with
  | begins turnId input ephemeral manual => exact good_begin good stepped
  | output around closing closeRequested output =>
    simp only [step] at stepped
    split at stepped
    · cases stepped
      exact good_output good met
    · cases stepped
  | queued item =>
    cases stepped
    exact good.of_same rfl rfl rfl rfl rfl
  | steers reading =>
    simp only [step] at stepped
    split at stepped
    case h_1 active =>
      cases stepped
      exact good_steers good active
    case h_2 => cases stepped
  | steerRead newTurn =>
    simp only [step] at stepped
    split at stepped
    case h_1 pending waits =>
      split at stepped
      · cases stepped
        unfold PendingSteer.read
        split
        case isTrue goes => exact good_steers good (by simp at goes; exact goes.2)
        case isFalse => exact good.dropPending
      · cases stepped
    case h_2 => cases stepped
  | steerRejected =>
    simp only [step, Option.map_eq_some_iff] at stepped
    obtain ⟨_, _, rfl⟩ := stepped
    exact good.dropPending
  | steerStarts turnId input ephemeral manual =>
    simp only [step] at stepped
    split at stepped
    · split at stepped
      · exact good_begin good.dropPending stepped
      · cases stepped
    · cases stepped

theorem good_initial (unsubmittedPrewarm : Bool) (delegation : Option DelegationStatus) :
    Good true (initial unsubmittedPrewarm delegation) where
  grown := .nil
  listed := by simp [initial]
  active := by simp [initial, OrderedMap.get?, OrderedMap.empty]
  steer := by simp [initial]
  read := by simp

/-- Surroundings in which these steps are rejected. -/
def rejecting (rejects : Awaited → Bool) : Surroundings where
  view := ⟨fun _ _ => []⟩
  rejects := rejects
  hasRunningSubagents := false
  queuedStart := .refused
  syntheticItemId := "question"
  showable := true
  refusalTaken := true

/-- A Turn that starts, while a submission is queued, and then succeeds. -/
def started : List Signal :=
  [.begins "turn" true false false, .queued "next",
    .output (rejecting fun _ => false) (fun _ _ => rejecting fun _ => false) false
      (.event "turn" .turnStarted)]

def succeeds (rejects : Awaited → Bool) : Signal :=
  .output (rejecting rejects) (fun _ _ => rejecting fun _ => false) false
    (.event "turn" (.turnCompleted true false .succeeded))

def running : Host := (started.foldlM step (initial false (some .running))).getD (initial false none)

def completed (rejects : Awaited → Bool) : Host := (step running (succeeds rejects)).getD running

/-- At most one awaited step of each projection is rejected. -/
def OneFailure : Signal → Prop
  | .output around closing _ _ =>
    (∀ step other, around.rejects step = true → around.rejects other = true → step = other) ∧
    ∀ turnId event step, (closing turnId event).rejects step = false
  | _ => True

end CodexHost.Guarantees.TurnSettlement
