import CodexHost.Foundation.Selection
import CodexHost.Foundation.Transition
import CodexHost.Source.ClaudeCode.TurnItems

/-!
# The lifecycles follow the accumulator

The accumulator alone keeps the preconditions of the three lifecycles: what a lifecycle has open is
what the accumulator has open of its kind, so no event that the accumulator emits makes one throw.
The induction is on the events of one message, against the accumulator as it was after each of them.
-/
namespace CodexHost.Guarantees.LiveItems
open Foundation Source.ClaudeCode OrderedMap List Option TurnAccumulator WorkflowLifecycle TurnItems SubagentLifecycle ToolLifecycle

variable {readings : NativeReadings} {cancelled : Bool} {a : TurnAccumulator} {items : TurnItems}
  {begins : TurnItems} {c c' : Consumed}

/-- A tool that the tool lifecycle has. -/
def plain (tool : ActiveNativeTool) : Bool := !tool.subagent && !tool.workflow

/-- What the lifecycles have of one call, against what the accumulator has of it. -/
structure At (tool : Option ActiveNativeTool) (completed : Prop) (active : Option ActiveTool)
    (delegation : Option SubagentDelegation) (run : Option WorkflowRun) : Prop where
  tools : active.map (·.nativeName) = (tool.filter plain).map (·.name)
  subagents : delegation.isSome = tool.any fun tool => !tool.workflow && tool.subagent
  workflows : run.isSome = true → tool.any (·.workflow) = true ∨ completed
  apart : completed → tool = none

/-- What is open in the lifecycles is open in the accumulator, each kind at its place; a run may
outlast its tool. -/
def InStep (a : TurnAccumulator) (items : TurnItems) : Prop :=
  ∀ id, At (a.tools.get? id) (id ∈ a.completedToolIds) (items.tools.tools.get? id)
    (items.subagents.delegations.get? id) (items.workflows.runs.get? id)

theorem InStep.congr {other : TurnAccumulator} (inStep : InStep a items) (tools : other.tools = a.tools)
    (completed : other.completedToolIds = a.completedToolIds) : InStep other items := by
  intro id
  rw [tools, completed]
  exact inStep id

section Lifecycles

theorem update_isSome {l : SubagentLifecycle} (callId : String) (status : HostSubagentStatus)
    (native : Option String) (id : String) :
    ((l.update callId status native).delegations.get? id).isSome = (l.delegations.get? id).isSome := by
  unfold SubagentLifecycle.update
  split
  · rfl
  · next active found =>
    simp only [get?_set]
    split
    · next same =>
      rw [same, found]
      rfl
    · rfl

/-- The runs are runs that were there before. -/
def Within (l l' : WorkflowLifecycle) : Prop :=
  ∀ id run, l'.runs.get? id = some run → ∃ run, l.runs.get? id = some run

theorem within_set {l l' : WorkflowLifecycle} {callId : String} {new : WorkflowRun}
    (found : ∃ run, l.runs.get? callId = some run) (runs : l'.runs = l.runs.set callId new) :
    Within l l' := by
  intro id other is
  rw [runs, get?_set] at is
  split at is
  · next same => exact same ▸ found
  · exact ⟨other, is⟩

theorem has_set (runs : OrderedMap String WorkflowRun) (callId : String) (run : WorkflowRun) :
    ∃ found, (runs.set callId run).get? callId = some found :=
  ⟨run, get?_set_self _ _ _⟩

theorem within_trans {l l' l'' : WorkflowLifecycle} (first : Within l l') (second : Within l' l'') :
    Within l l'' := by
  intro id run is
  obtain ⟨run, is⟩ := second id run is
  exact first id run is

variable {l : WorkflowLifecycle}

theorem within_complete (callId : String) (run : WorkflowRun) : Within l (l.complete callId run) := by
  intro id other is
  rw [WorkflowLifecycle.complete, get?_delete] at is
  split at is
  · cases is
  · exact ⟨other, is⟩

theorem within_update (callId : String) (taskId : Option String)
    (agents : List ClaudeWorkflowAgent) : Within l (l.update callId taskId agents) := by
  unfold WorkflowLifecycle.update
  split
  · exact fun id run is => ⟨run, is⟩
  · next run found =>
    simp only
    split
    · exact within_trans (within_set ⟨run, found⟩ rfl) (within_set (has_set _ _ _) rfl)
    · split
      · exact within_set ⟨run, found⟩ rfl
      · exact within_set ⟨run, found⟩ rfl

theorem within_launched (callId : String) (background : Bool) (taskId : Option String) (cancelled : Bool) :
    Within l (l.launched callId background taskId cancelled) := by
  unfold launched
  split
  · exact fun id run is => ⟨run, is⟩
  · next run found =>
    cases opened : run.item with
    | none =>
      split
      · exact within_trans (within_set ⟨run, found⟩ rfl) (within_set (has_set _ _ _) rfl)
      · exact within_trans (within_set ⟨run, found⟩ rfl) (within_complete _ _)
    | some itemId =>
      split
      · exact within_set ⟨run, found⟩ rfl
      · exact within_complete _ _

theorem within_settle (settlement : Settlement) : Within l (l.settle settlement) := by
  unfold settle
  simp only
  split
  · exact fun id run is => ⟨run, is⟩
  · exact within_complete _ _

end Lifecycles

variable {event : ClaudeNativeEvent}

/-- An event that opens and closes nothing in the accumulator. -/
def Mild (a : TurnAccumulator) : ClaudeNativeEvent → Prop
  | .toolStarted _ _ _ | .toolCompleted _ _ _ | .subagentStarted _ _ _ _ | .subagentCompleted _ _ _ _
  | .workflowStarted _ | .workflowLaunched _ _ _ _ => False
  | .toolProgress callId _ => (a.tools.get? callId).any plain = true
  | _ => True

theorem inStep_within {next : WorkflowLifecycle} (inStep : InStep a items)
    (within : Within items.workflows next) : InStep a { items with workflows := next } := by
  intro id
  refine ⟨(inStep id).tools, (inStep id).subagents, fun running => ?_, (inStep id).apart⟩
  obtain ⟨run, is⟩ := isSome_iff_exists.mp running
  obtain ⟨run, is⟩ := within id run is
  exact (inStep id).workflows (isSome_iff_exists.mpr ⟨run, is⟩)

theorem handle_mild (inStep : InStep a items) (mild : Mild a event) :
    ∃ next, items.handle cancelled event = .ok next ∧ InStep a next ∧ next.tools = items.tools := by
  cases event with
  | toolProgress callId elapsedMs =>
    have known := (inStep callId).tools
    obtain ⟨tool, found, isPlain⟩ := any_eq_true _ _ |>.mp mild
    rw [found, filter_some, if_pos isPlain, map_eq_some_iff.mpr ⟨tool, rfl, rfl⟩] at known
    obtain ⟨active, has, -⟩ := map_eq_some_iff.mp known
    have progressed : items.tools.progress callId = .ok items.tools :=
      if_pos ((has_iff _ _).mpr ⟨active, has⟩)
    exact ⟨items, by simp only [handle, progressed]; rfl, inStep, rfl⟩
  | subagentUpdated callId status native =>
    refine ⟨_, rfl, fun id => ⟨(inStep id).tools, ?_, (inStep id).workflows, (inStep id).apart⟩, rfl⟩
    exact (update_isSome callId status native id).trans (inStep id).subagents
  | subagentSettled settlement =>
    exact ⟨_, rfl, inStep_within inStep (within_settle settlement), rfl⟩
  | workflowUpdated callId taskId agents =>
    exact ⟨_, rfl, inStep_within inStep (within_update callId taskId agents), rfl⟩
  | toolStarted | toolCompleted | subagentStarted | subagentCompleted | workflowStarted
  | workflowLaunched => exact mild.elim
  | segmentStarted | subagentsLive | textDelta | reasoningDelta | reasoningCompleted
  | messageCompleted | subagentTranscriptChanged | workflowActivity =>
    exact ⟨items, rfl, inStep, rfl⟩

/-- The flags of a new tool. -/
def toolOf (name : String) : ActiveNativeTool :=
  ⟨name, name ∈ CLAUDE_SUBAGENT_TOOLS, name = CLAUDE_WORKFLOW_TOOL⟩

/-- A name that the tool lifecycle gets. -/
def plainName (name : String) : Bool := plain (toolOf name)

/-- A new call: its lifecycle opens it. -/
theorem handle_start {id : String} (name : String) (input : JsonValue) (inStep : InStep a items)
    (unknown : a.tools.get? id = none) (fresh : id ∉ a.completedToolIds) :
    ∃ next, items.handle cancelled (TurnAccumulator.startEvent readings id name input) = .ok next ∧
      InStep { a with tools := a.tools.set id (toolOf name) } next ∧
      (if plainName name then items.tools.start id name input = .ok next.tools
        else next.tools = items.tools) := by
  have here := inStep id
  rw [unknown] at here
  have elsewhere (other : String) (ne : other ≠ id) :
      (a.tools.set id (toolOf name)).get? other = a.tools.get? other := get?_set_of_ne _ _ ne
  unfold TurnAccumulator.startEvent
  split
  · next workflow =>
    have flags : toolOf name = ⟨name, false, true⟩ := by rw [workflow]; decide
    have closed : items.workflows.runs.has id = false := by
      rw [has_eq_false_iff, ← not_isSome_iff_eq_none]
      exact fun running => (here.workflows running).elim Bool.noConfusion fresh
    refine ⟨{ items with workflows := { items.workflows with
      runs := items.workflows.runs.set id ⟨none, none, .empty, false⟩ } }, ?_, fun other => ?_, ?_⟩
    · simp only [TurnItems.handle, WorkflowLifecycle.start, closed]
      rfl
    · by_cases same : other = id
      · subst same
        rw [get?_set_self, get?_set_self, flags]
        exact ⟨here.tools, here.subagents, fun _ => .inl rfl, fun completed => (fresh completed).elim⟩
      · rw [elsewhere other same, get?_set_of_ne _ _ same]
        exact inStep other
    · rw [if_neg (by rw [plainName, flags]; exact Bool.false_ne_true)]
  · next notWorkflow =>
    split
    · next subagent =>
      have flags : toolOf name = ⟨name, true, false⟩ := by simp [toolOf, subagent, notWorkflow]
      have closed : items.subagents.delegations.has id = false := here.subagents
      refine ⟨_, by simp only [TurnItems.handle, SubagentLifecycle.start, closed]; rfl,
        fun other => ?_, ?_⟩
      · by_cases same : other = id
        · subst same
          rw [get?_set_self, get?_set_self, flags]
          exact ⟨here.tools, rfl, fun running => (here.workflows running).imp Bool.noConfusion id,
            fun completed => (fresh completed).elim⟩
        · rw [elsewhere other same, get?_set_of_ne _ _ same]
          exact inStep other
      · rw [if_neg (by rw [plainName, flags]; exact Bool.false_ne_true)]
    · next notSubagent =>
      have flags : toolOf name = ⟨name, false, false⟩ := by simp [toolOf, notSubagent, notWorkflow]
      have closed : items.tools.tools.has id = false := by
        rw [has_eq_false_iff]
        exact map_eq_none_iff.mp here.tools
      have starts : ∃ tools, items.tools.start id name input = .ok tools ∧
          tools.tools = items.tools.tools.set id
            ⟨ToolLifecycle.itemOf (claudeTranscriptItemId items.tools.nativeTurnKey .tool
              (items.tools.toolOrdinal + 1)) name input, name⟩ := by
        simp only [ToolLifecycle.start, closed]
        exact ⟨_, rfl, rfl⟩
      obtain ⟨tools, started, has⟩ := starts
      refine ⟨{ items with tools := tools }, ?_, fun other => ?_, ?_⟩
      · simp only [TurnItems.handle, started]
        rfl
      · by_cases same : other = id
        · subst same
          rw [has, get?_set_self, get?_set_self, flags]
          exact ⟨rfl, here.subagents, fun running => (here.workflows running).imp Bool.noConfusion id,
            fun completed => (fresh completed).elim⟩
        · rw [has, elsewhere other same, get?_set_of_ne _ _ same]
          exact inStep other
      · rw [if_pos (by rw [plainName, flags]; rfl)]
        exact started

/-- Nothing is started in the tool lifecycle. -/
def SameStarts (items next : TurnItems) : Prop :=
  next.tools.started = items.tools.started ∧ next.tools.toolOrdinal = items.tools.toolOrdinal ∧
    next.tools.nativeTurnKey = items.tools.nativeTurnKey

/-- A call that ends: its lifecycle closes it. -/
theorem handle_completion {id : String} {tool : ActiveNativeTool} (nativeResult : Option JsonValue)
    (result : ToolResult) (inStep : InStep a items) (found : a.tools.get? id = some tool) :
    ∃ next, items.handle cancelled
        (TurnAccumulator.completionEvent readings id tool nativeResult result) = .ok next ∧
      InStep { a with
        tools := a.tools.delete id, completedToolIds := a.completedToolIds ++ [id] } next ∧
      SameStarts items next := by
  have here := inStep id
  rw [found] at here
  have elsewhere {other : String} (ne : other ≠ id) :
      other ∈ a.completedToolIds ++ [id] ↔ other ∈ a.completedToolIds := by simp [ne]
  unfold TurnAccumulator.completionEvent
  simp only
  split
  · next workflow =>
    refine ⟨_, rfl, fun other => ?_, rfl, rfl, rfl⟩
    by_cases same : other = id
    · subst same
      rw [get?_delete_self]
      refine ⟨?_, ?_, fun _ => .inr (mem_append_right _ (mem_singleton_self _)),
        fun _ => rfl⟩
      · exact here.tools.trans (by simp [filter_some, plain, workflow])
      · exact here.subagents.trans (by simp [workflow])
    · rw [get?_delete_of_ne _ same, elsewhere same]
      refine ⟨(inStep other).tools, (inStep other).subagents, fun running => ?_, (inStep other).apart⟩
      obtain ⟨run, is⟩ := isSome_iff_exists.mp running
      obtain ⟨run, is⟩ := within_launched _ _ _ _ other run is
      exact (inStep other).workflows (isSome_iff_exists.mpr ⟨run, is⟩)
  · next notWorkflow =>
    split
    · next subagent =>
      obtain ⟨active, has⟩ := isSome_iff_exists.mp (here.subagents.trans (by simp [subagent, notWorkflow]))
      have completes : ∃ subagents, items.subagents.complete id = .ok subagents ∧
          subagents.delegations = items.subagents.delegations.delete id := by
        simp only [SubagentLifecycle.complete, has]
        exact ⟨_, rfl, rfl⟩
      obtain ⟨subagents, completes, delegations⟩ := completes
      refine ⟨{ items with subagents := subagents }, by simp only [TurnItems.handle, completes]; rfl,
        fun other => ?_, rfl, rfl, rfl⟩
      rw [delegations]
      by_cases same : other = id
      · subst same
        rw [get?_delete_self, get?_delete_self]
        refine ⟨?_, rfl, fun _ => .inr (mem_append_right _ (mem_singleton_self _)),
          fun _ => rfl⟩
        exact here.tools.trans (by simp [filter_some, plain, subagent])
      · rw [get?_delete_of_ne _ same, elsewhere same, get?_delete_of_ne _ same]
        exact inStep other
    · next notSubagent =>
      have named : (items.tools.tools.get? id).map (·.nativeName) = some tool.name :=
        here.tools.trans (by simp [filter_some, plain, notSubagent, notWorkflow])
      obtain ⟨active, has, name⟩ := map_eq_some_iff.mp named
      have completes : items.tools.complete id tool.name =
          .ok { items.tools with tools := items.tools.tools.delete id } := by
        simp [ToolLifecycle.complete, has, name]
      refine ⟨{ items with tools := { items.tools with tools := items.tools.tools.delete id } },
        by simp only [TurnItems.handle, completes]; rfl, fun other => ?_, rfl, rfl, rfl⟩
      by_cases same : other = id
      · subst same
        rw [get?_delete_self, get?_delete_self]
        refine ⟨rfl, ?_, fun _ => .inr (mem_append_right _ (mem_singleton_self _)),
          fun _ => rfl⟩
        exact here.subagents.trans (by simp [notSubagent])
      · rw [get?_delete_of_ne _ same, elsewhere same, get?_delete_of_ne _ same]
        exact inStep other

section Consumes

/-- The lifecycles after the events of a message so far stand in this relation to the accumulator. -/
def Follows (cancelled : Bool) (begins : TurnItems) (R : TurnAccumulator → TurnItems → Prop)
    (c : Consumed) : Prop :=
  ∃ items, c.2.foldlM (TurnItems.handle cancelled) begins = .ok items ∧ R c.1 items

/-- Mild events and the other members of the accumulator do not touch the relation. -/
structure Stable (cancelled : Bool) (R : TurnAccumulator → TurnItems → Prop) : Prop where
  mild : ∀ a items event, R a items → Mild a event →
    ∃ next, items.handle cancelled event = .ok next ∧ R a next
  congr : ∀ a b items, R a items → b.tools = a.tools → b.completedToolIds = a.completedToolIds →
    b.completed = a.completed → R b items

/-- Only mild events were added, and no call was opened or closed. -/
structure Mildly (c c' : Consumed) : Prop where
  tools : c'.1.tools = c.1.tools
  completed : c'.1.completedToolIds = c.1.completedToolIds
  done : c'.1.completed = c.1.completed
  events : ∃ more, c'.2 = c.2 ++ more ∧ ∀ event ∈ more, Mild c.1 event

variable {b : TurnAccumulator}

theorem mild_congr (tools : b.tools = a.tools) (mild : Mild b event) : Mild a event := by
  cases event with
  | toolProgress =>
    rw [Mild, ← tools]
    exact mild
  | _ => exact mild

theorem Mildly.trans {c'' : Consumed} (first : Mildly c c') (second : Mildly c' c'') : Mildly c c'' := by
  obtain ⟨more, events, mild⟩ := first.events
  obtain ⟨others, events', mild'⟩ := second.events
  refine ⟨second.tools.trans first.tools, second.completed.trans first.completed,
    second.done.trans first.done, more ++ others, by rw [events', events, append_assoc], ?_⟩
  exact forall_mem_append.mpr ⟨mild, fun event member => mild_congr first.tools (mild' event member)⟩

theorem mildly_refl (c : Consumed) : Mildly c c :=
  ⟨rfl, rfl, rfl, [], (append_nil _).symm, by simp⟩

/-- Other members of the accumulator change, and these events are added. -/
theorem mildly_state {events more : List ClaudeNativeEvent}
    (tools : b.tools = a.tools) (completed : b.completedToolIds = a.completedToolIds)
    (done : b.completed = a.completed) (mild : ∀ event ∈ more, Mild a event) :
    Mildly (a, events) (b, events ++ more) :=
  ⟨tools, completed, done, more, rfl, mild⟩

theorem mildly_same {events : List ClaudeNativeEvent}
    (tools : b.tools = a.tools) (completed : b.completedToolIds = a.completedToolIds)
    (done : b.completed = a.completed) : Mildly (a, events) (b, events) :=
  ⟨tools, completed, done, [], (append_nil _).symm, by simp⟩

variable {R : TurnAccumulator → TurnItems → Prop}

theorem follows_event {R' : TurnAccumulator → TurnItems → Prop} {events : List ClaudeNativeEvent}
    (follows : Follows cancelled begins R (a, events))
    (handles : ∀ items, R a items → ∃ next, items.handle cancelled event = .ok next ∧ R' b next) :
    Follows cancelled begins R' (b, events ++ [event]) := by
  obtain ⟨items, folded, holds⟩ := follows
  obtain ⟨next, handled, holds⟩ := handles items holds
  refine ⟨next, ?_, holds⟩
  rw [foldlM_append, bind_ok]
  exact ⟨items, folded, by rw [foldlM_cons, handled]; rfl⟩

theorem follows_mildly (stable : Stable cancelled R) (follows : Follows cancelled begins R c)
    (mildly : Mildly c c') : Follows cancelled begins R c' := by
  obtain ⟨more, events, mild⟩ := mildly.events
  have all : Follows cancelled begins R (c.1, c.2 ++ more) := by
    clear events
    induction more using List.reverseRecOn with
    | nil => simpa using follows
    | append_singleton before last ih =>
      rw [forall_mem_append] at mild
      rw [← append_assoc]
      exact follows_event (ih mild.1) fun items holds =>
        stable.mild _ items last holds (mild.2 last (mem_singleton_self _))
  obtain ⟨items, folded, holds⟩ := all
  exact ⟨items, events ▸ folded, stable.congr _ _ items holds mildly.tools mildly.completed mildly.done⟩

theorem messageIdFor_same (named : Option String) : (a.messageIdFor named).2.tools = a.tools ∧
      (a.messageIdFor named).2.completedToolIds = a.completedToolIds ∧
      (a.messageIdFor named).2.completed = a.completed := by
  unfold messageIdFor
  split
  · exact ⟨rfl, rfl, rfl⟩
  · exact ⟨rfl, rfl, rfl⟩

theorem mildly_stream (uuid : Option String) (event : StreamEvent) (c : Consumed) :
    Mildly c (TurnAccumulator.consumeStreamEvent uuid event c) := by
  obtain ⟨tools, completed, done⟩ := messageIdFor_same (a := c.1) (nonEmpty uuid)
  cases event with
  | messageStart id =>
    simp only [consumeStreamEvent]
    split
    · exact mildly_same rfl rfl rfl
    · exact mildly_refl c
  | textDelta text =>
    simp only [consumeStreamEvent]
    split
    · exact mildly_state tools completed done (by simp)
    · split
      · exact mildly_state tools completed done (by simp)
      · exact mildly_state tools completed done (by simp [Mild])
  | thinkingDelta thinking =>
    simp only [consumeStreamEvent]
    split
    · exact mildly_state tools completed done (by simp)
    · split
      · exact mildly_state tools completed done (by simp)
      · exact mildly_state tools completed done (by simp [Mild])
  | other => exact mildly_refl c

theorem mildly_text (messageId : String) (content : MessageContent) (c : Consumed) :
    Mildly c (TurnAccumulator.consumeText messageId content c) := by
  unfold consumeText
  simp only
  split
  · exact mildly_refl c
  · split
    · exact mildly_refl c
    · split
      · split
        · exact mildly_refl c
        · exact mildly_state rfl rfl rfl (by simp [Mild])
      · exact mildly_same rfl rfl rfl

theorem mildly_localCommand (uuid : Option String) (content : Utf16) (c : Consumed) :
    Mildly c (TurnAccumulator.consumeLocalCommandOutput uuid content c) := by
  unfold consumeLocalCommandOutput
  split
  · exact mildly_refl c
  · simp only
    split
    · split
      · exact mildly_same rfl rfl rfl
      · exact mildly_state rfl rfl rfl (by simp [Mild])
    · split
      · exact mildly_same rfl rfl rfl
      · exact mildly_state rfl rfl rfl (by simp [Mild])

theorem mildly_progress (toolUseId : Option String) (elapsedMs : Option Nat) (c : Consumed) :
    Mildly c (TurnAccumulator.consumeToolProgress toolUseId elapsedMs c) := by
  unfold consumeToolProgress
  split
  · split
    · next tool found =>
      split
      · exact mildly_refl c
      · next isPlain =>
        refine mildly_state rfl rfl rfl ?_
        simp only [mem_singleton, forall_eq, Mild, found, any_some, plain]
        simpa using isPlain
    · exact mildly_refl c
  · exact mildly_refl c

theorem activity_mild (parent : Option String) : ∀ event ∈ a.activity parent, Mild a event := by
  unfold activity
  split
  · split
    · simp [Mild]
    · split
      · simp [Mild]
      · simp
  · simp

theorem taskEvents_mild (frame : TaskFrame) : ∀ event ∈ a.taskEvents frame, Mild a event := by
  unfold taskEvents workflowTaskEvents
  simp only
  split
  · split
    · simp [Mild]
    · split
      · simp [Mild]
      · simp [Mild]
    · simp
  · split
    · split
      · simp [Mild]
      · simp
    · split
      · simp
      · split
        · simp [Mild]
        · simp [Mild]
        · simp [Mild]
        · simp

theorem mildly_system (uuid : Option String) (nested : Bool) (frame : SystemFrame) :
    Mildly (a, []) (a.consumeSystem uuid nested frame) := by
  unfold consumeSystem
  split
  · exact mildly_state rfl rfl rfl (by simp [Mild])
  · exact mildly_state rfl rfl rfl (by simp [Mild])
  · split
    · exact mildly_refl _
    · exact mildly_localCommand _ _ _
  · exact mildly_state rfl rfl rfl (by simp [Mild])
  · exact mildly_state rfl rfl rfl (taskEvents_mild _)
  · exact mildly_refl _

variable (stable : Stable cancelled R)

include stable in
theorem follows_results {message : UserMessage} {ignoreUnknown : Bool}
    (completes : ∀ a items id tool nativeResult result, R a items → a.tools.get? id = some tool →
      ∃ next, items.handle cancelled
          (TurnAccumulator.completionEvent readings id tool nativeResult result) = .ok next ∧
        R { a with tools := a.tools.delete id, completedToolIds := a.completedToolIds ++ [id] } next)
    (follows : Follows cancelled begins R c) :
    Follows cancelled begins R (consumeToolResults readings message ignoreUnknown c) := by
  unfold consumeToolResults
  simp only
  split
  · exact follows
  · generalize (message.content.array.getD []).filterMap ContentBlock.result = results
    generalize (if results.length = 1 then message.nativeResult else none) = nativeResult
    have begun : Follows cancelled begins R
        (if (results.length > 1 && message.nativeResult.isSome) = true then
          { c.1 with protocolConflict := true } else c.1, c.2) := by
      split
      · exact follows_mildly stable follows (mildly_same rfl rfl rfl)
      · exact follows
    revert begun
    generalize (if (results.length > 1 && message.nativeResult.isSome) = true then
      { c.1 with protocolConflict := true } else c.1, c.2) = start
    intro begun
    induction results generalizing start with
    | nil => exact begun
    | cons result rest ih =>
      refine ih _ ?_
      have conflict : Follows cancelled begins R ({ start.1 with protocolConflict := true }, start.2) :=
        follows_mildly stable begun (mildly_same rfl rfl rfl)
      unfold consumeToolResult
      split
      · exact conflict
      · split
        · split
          · exact begun
          · exact conflict
        · next tool found =>
          split
          · split
            · exact begun
            · exact conflict
          · split
            · exact conflict
            · exact follows_event begun fun items holds =>
                completes start.1 items _ tool nativeResult result holds found

/-- A root assistant message, by what its tool uses do. -/
theorem follows_assistant {R' : TurnAccumulator → TurnItems → Prop} (stable : Stable cancelled R)
    (stable' : Stable cancelled R') {message : AssistantMessage}
    (blocks : ∀ ignoreKnownIds c, Follows cancelled begins R c → Follows cancelled begins R'
      (TurnAccumulator.consumeToolUseBlocks readings ignoreKnownIds message.content c))
    (follows : Follows cancelled begins R c) :
    Follows cancelled begins R' (TurnAccumulator.consumeAssistantMessage readings message c) := by
  unfold consumeAssistantMessage
  simp only
  have same := messageIdFor_same (a := c.1)
    ((nonEmpty message.nativeId).orElse fun _ => nonEmpty message.uuid)
  revert same
  generalize c.1.messageIdFor ((nonEmpty message.nativeId).orElse fun _ => nonEmpty message.uuid) =
    named
  obtain ⟨messageId, b⟩ := named
  rintro ⟨tools, completed, done⟩
  have begun (reasoned : List ClaudeNativeEvent)
      (events : reasoned = c.2 ∨ reasoned = c.2 ++ [.reasoningCompleted messageId]) :
      Mildly c ({ b with messages := b.messages.set messageId (b.messageState messageId) }, reasoned) := by
    rcases events with rfl | rfl
    · exact mildly_same tools completed done
    · exact mildly_state tools completed done (by simp [Mild])
  split
  · exact blocks _ _ (follows_mildly stable follows (begun _ (.inl rfl)))
  · have reasoned := follows_mildly stable follows ((begun (if (b.messageState messageId).reasoning = []
      then c.2 else c.2 ++ [.reasoningCompleted messageId]) (by split <;> simp)).trans
        (mildly_text messageId message.content _))
    have used := blocks false _ reasoned
    revert used
    generalize consumeToolUseBlocks readings false message.content _ = after
    intro used
    refine follows_mildly stable' used ⟨rfl, rfl, rfl, if after.1.protocolConflict || after.1.textConflict
      then [] else [.messageCompleted messageId (nonEmpty message.uuid)], ?_, ?_⟩
    · simp only
      split
      · exact (append_nil _).symm
      · rfl
    · split
      · simp
      · simp [Mild]

end Consumes

/-- The live path takes a message whose events the lifecycles take. -/
theorem receive_follows {R : TurnAccumulator → TurnItems → Prop} {live : LiveTurn}
    {message : NativeMessage} (follows : ∀ cancelled, Follows cancelled live.items R
      (live.accumulator.consume readings message).1) :
    ∃ received, live.receive readings message = .ok received ∧ R received.accumulator received.items := by
  obtain ⟨items, handled, holds⟩ :=
    follows (live.accumulator.consume readings message).1.1.cancelRequested
  refine ⟨⟨_, items, live.terminal.orElse fun _ => (live.accumulator.consume readings message).2,
    live.emitted ++ (live.accumulator.consume readings message).1.2⟩, ?_, holds⟩
  rw [LiveTurn.receive, bind_ok]
  exact ⟨items, handled, rfl⟩

end CodexHost.Guarantees.LiveItems
