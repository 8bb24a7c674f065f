import CodexHost.Foundation.SuccessorOrder
import CodexHost.Source.MappingStore.SectionPlacements

/-!
# Thread sections across Thread owners

`packages/host-runtime/src/external-thread-sections.ts`. The official app-server, which owns the
section definitions and the order of official Threads, is the one of its tests: it lists in pages,
and takes a moved Thread out of its section before it puts it before its anchor.
-/
namespace CodexHost.Source.HostRuntime
open Foundation Source.MappingStore Source.SharedContracts

def MAX_OFFICIAL_PAGES : Nat := 256
def OFFICIAL_PAGE_SIZE : Nat := 100

/-- The error of an answer. -/
structure RpcError where
  code : Int
  message : String
  deriving DecidableEq, Repr

structure DecodedThreadSectionMoveRequest where
  threadId : String
  sectionId : Option String
  beforeThreadId : Option String
  deriving DecidableEq, Repr

/-- `order.indexOf(before)` and the `splice` there. -/
def placeBefore (order : List String) (before id : String) : List String :=
  insertBefore order (some before) id

/-- The loop over the pending placements, with the order, the Threads still waiting and the
placements it defers. -/
def placePending : List String → List String → List StoredSectionPlacementV1 →
    List String × List StoredSectionPlacementV1
  | order, _, [] => (order, [])
  | order, waiting, placement :: pending =>
    let id := placement.hostThreadId
    match placement.beforeThreadId with
    | some before =>
      if before ∈ order then
        placePending (placeBefore order before id) (waiting.filter (· ≠ id)) pending
      else if before ≠ id ∧ before ∈ waiting then
        let (order', deferred) := placePending order waiting pending
        (order', placement :: deferred)
      else placePending (order ++ [id]) (waiting.filter (· ≠ id)) pending
    | none => placePending (order ++ [id]) (waiting.filter (· ≠ id)) pending

/-- The loop while placements are pending; every round but the last places one. -/
def placeRounds : Nat → List String → List StoredSectionPlacementV1 → List String
  | 0, order, _ => order
  | rounds + 1, order, pending =>
    if pending = [] then order
    else
      let (order', deferred) := placePending order (pending.map (·.hostThreadId)) pending
      if deferred.length = pending.length then order' ++ deferred.map (·.hostThreadId)
      else placeRounds rounds order' deferred

/-- The loop while placements are pending, without a bound on its rounds: the runs that end, with the
order they end with. -/
inductive MergeLoop : List String → List StoredSectionPlacementV1 → List String → Prop
  | merged (order : List String) : MergeLoop order [] order
  | stuck {order order' : List String} {pending deferred : List StoredSectionPlacementV1}
      (left : pending ≠ [])
      (round : placePending order (pending.map (·.hostThreadId)) pending = (order', deferred))
      (all : deferred.length = pending.length) :
      MergeLoop order pending (order' ++ deferred.map (·.hostThreadId))
  | round {order order' result : List String} {pending deferred : List StoredSectionPlacementV1}
      (left : pending ≠ [])
      (round : placePending order (pending.map (·.hostThreadId)) pending = (order', deferred))
      (placed : deferred.length ≠ pending.length) (later : MergeLoop order' deferred result) :
      MergeLoop order pending result

/-- Merges External placements into one section's official order. -/
def mergeSectionOrder (officialIds : List String) (placements : List StoredSectionPlacementV1) :
    List String :=
  let externalIds := placements.map (·.hostThreadId)
  placeRounds placements.length (officialIds.filter (· ∉ externalIds)) placements

structure SectionMovePlan where
  placements : List StoredSectionPlacementV1
  /-- For an official Thread: the official Thread it must precede in the official order. -/
  officialBeforeThreadId : Option String
  deriving DecidableEq

/-- The closure `reanchor` of `planSectionMove`. -/
def reanchor (sectionId : String) (order : List String)
    (placements : List StoredSectionPlacementV1) : List StoredSectionPlacementV1 :=
  placements.map fun placement =>
    if placement.section.id = sectionId ∧ placement.hostThreadId ∈ order then
      { placement with beforeThreadId := successor order placement.hostThreadId }
    else placement

/-- Why a move ends early: a `ThreadSectionError`, an error answer of the official app-server, or
another error, which the caller of `moveThreadSection` gets. -/
inductive SectionFailure where
  | section (message : String)
  | official (error : RpcError)
  | other (message : String)
  deriving DecidableEq, Repr

structure PlanSectionMoveInput where
  move : DecodedThreadSectionMoveRequest
  movingExternal : Bool
  currentSectionId : Option String
  destination : Option StoredThreadSection
  orders : String → List String
  placements : List StoredSectionPlacementV1
  isExternal : String → Bool
  now : Timestamp

/-- The placement of a moved External Thread. -/
def enteredPlacement (input : PlanSectionMoveInput) (destination : StoredThreadSection) :
    StoredSectionPlacementV1 where
  hostThreadId := input.move.threadId
  «section» := destination
  enteredAt :=
    match input.placements.find? (·.hostThreadId = input.move.threadId) with
    | some previous => if previous.section.id = destination.id then previous.enteredAt else input.now
    | none => input.now
  beforeThreadId := none

/-- The closure `without` of `planSectionMove`. -/
def PlanSectionMoveInput.without (input : PlanSectionMoveInput) (sectionId : String) : List String :=
  (input.orders sectionId).filter (· ≠ input.move.threadId)

/-- The other placements, anchored anew in the section that the Thread leaves. -/
def leftPlacements (input : PlanSectionMoveInput) : List StoredSectionPlacementV1 :=
  let others := input.placements.filter (·.hostThreadId ≠ input.move.threadId)
  match input.currentSectionId with
  | some current =>
    if some current ≠ input.destination.map (·.id) then
      reanchor current (input.without current) others
    else others
  | none => others

def planSectionMove (input : PlanSectionMoveInput) : Except SectionFailure SectionMovePlan :=
  let placements := leftPlacements input
  match input.destination with
  | none => .ok ⟨placements, none⟩
  | some destination =>
    let base := input.without destination.id
    if input.move.beforeThreadId.any (· ∉ base) then
      .error (.section ("before thread " ++ input.move.beforeThreadId.getD "" ++ " is not in section " ++
          destination.id))
    else
      let index := input.move.beforeThreadId.elim base.length base.idxOf
      let intended := base.take index ++ input.move.threadId :: base.drop index
      let placed := if input.movingExternal then placements ++ [enteredPlacement input destination]
        else placements
      .ok ⟨reanchor destination.id intended placed,
        (intended.drop (index + 1)).find? fun id => !input.isExternal id⟩

/-- The official app-server: its section definitions, its Threads and the order of each section. -/
structure OfficialSections where
  definitions : List StoredThreadSection
  threads : List String
  order : String → List String

/-- A page of a list, with the offset of the next page. -/
def officialPage {α : Type} (rows : List α) (offset : Nat) : List α × Option Nat :=
  ((rows.drop offset).take OFFICIAL_PAGE_SIZE,
    if offset + OFFICIAL_PAGE_SIZE < rows.length then some (offset + OFFICIAL_PAGE_SIZE) else none)

/-- `listAllOfficialRows`, with the pages that may still be requested. -/
def listAllOfficialRows (order : List String) : Nat → Nat → Except SectionFailure (List String)
  | 0, _ => .error (.other "Official thread/list pagination exceeded its request bound")
  | pages + 1, offset =>
    match officialPage order offset with
    | (data, none) => .ok data
    | (data, some next) => do return data ++ (← listAllOfficialRows order pages next)

/-- Current merged order of one section. -/
def sectionOrder (official : OfficialSections) (placements : List StoredSectionPlacementV1)
    (sectionId : String) : Except SectionFailure (List String) := do
  let rows ← listAllOfficialRows (official.order sectionId) MAX_OFFICIAL_PAGES 0
  return mergeSectionOrder rows (placements.filter (·.section.id = sectionId))

/-- The official definition of a section, with the pages that may still be requested. -/
def findOfficialSection (definitions : List StoredThreadSection) (sectionId : String) :
    Nat → Nat → Except SectionFailure StoredThreadSection
  | 0, _ => .error (.section s!"section {sectionId} does not exist")
  | pages + 1, offset =>
    match (officialPage definitions offset).1.find? (·.id = sectionId) with
    | some definition => .ok definition
    | none =>
      match (officialPage definitions offset).2 with
      | none => .error (.section s!"section {sectionId} does not exist")
      | some next => findOfficialSection definitions sectionId pages next

/-- `thread/read`: the section of a Thread. -/
def OfficialSections.read (official : OfficialSections) (threadId : String) :
    Except SectionFailure (Option String) :=
  if threadId ∉ official.threads then .error (.official ⟨-32600, s!"thread {threadId} not found"⟩)
  else .ok ((official.definitions.find? fun definition =>
    threadId ∈ official.order definition.id).map (·.id))

/-- `thread/section/move` -/
def OfficialSections.move (official : OfficialSections) (threadId : String)
    (sectionId beforeThreadId : Option String) : Except SectionFailure OfficialSections :=
  let without (sectionId : String) := (official.order sectionId).filter (· ≠ threadId)
  if threadId ∉ official.threads then .error (.official ⟨-32600, s!"thread {threadId} not found"⟩)
  else match sectionId with
  | none => .ok { official with order := without }
  | some sectionId =>
    if sectionId ∉ official.definitions.map (·.id) then
      .error (.official ⟨-32600, s!"section {sectionId} does not exist"⟩)
    else if beforeThreadId.any (· ∉ without sectionId) then
      .error (.official ⟨-32600,
        ("before thread " ++ beforeThreadId.getD "" ++ " is not in section " ++ sectionId)⟩)
    else .ok { official with
      order := fun other =>
        if other = sectionId then insertBefore (without sectionId) beforeThreadId threadId
        else without other }

/-- The official app-server and the Host's store. -/
structure SectionHost where
  official : OfficialSections
  world : World

def SectionHost.store (host : SectionHost) : StoreState := host.world.state.store

/-- The section that a Thread is in: of an External Thread by its placement. -/
def currentSection (official : OfficialSections) (placements : List StoredSectionPlacementV1)
    (movingExternal : Bool) (threadId : String) : Except SectionFailure (Option String) :=
  if movingExternal then
    .ok ((placements.find? (·.hostThreadId = threadId)).map (·.section.id))
  else official.read threadId

/-- The section that an External Thread moves to has to exist; the official app-server validates
its own section. -/
def moveDestination (official : OfficialSections) (movingExternal : Bool) :
    Option String → Except SectionFailure (Option StoredThreadSection)
  | none => .ok none
  | some sectionId =>
    if movingExternal then
      some <$> findOfficialSection official.definitions sectionId MAX_OFFICIAL_PAGES 0
    else .ok (some ⟨sectionId, "", none⟩)

/-- The merged order of a section of the move, if there is one. -/
def orderOf (official : OfficialSections) (placements : List StoredSectionPlacementV1) :
    Option String → Except SectionFailure (List String)
  | none => .ok []
  | some sectionId => sectionOrder official placements sectionId

/-- The call of `planSectionMove`. -/
def planInput (host : SectionHost) (move : DecodedThreadSectionMoveRequest) (movingExternal : Bool)
    (now : Timestamp) (currentSectionId : Option String) (destination : Option StoredThreadSection)
    (current target : List String) : PlanSectionMoveInput where
  move
  movingExternal
  currentSectionId
  destination
  orders := fun sectionId =>
    if currentSectionId = some sectionId then current
    else if move.sectionId = some sectionId then target else []
  placements := listSectionPlacements host.store
  isExternal := host.store.records.has
  now

/-- The part of `moveThreadSection` that reads and plans. -/
def planThreadMove (host : SectionHost) (move : DecodedThreadSectionMoveRequest)
    (movingExternal : Bool) (now : Timestamp) : Except SectionFailure SectionMovePlan := do
  let placements := listSectionPlacements host.store
  let currentSectionId ← currentSection host.official placements movingExternal move.threadId
  let destination ← moveDestination host.official movingExternal move.sectionId
  let current ← orderOf host.official placements currentSectionId
  let target ← orderOf host.official placements move.sectionId
  planSectionMove (planInput host move movingExternal now currentSectionId destination current target)

/-- The error that Desktop gets: the Host answers an error that `moveThreadSection` throws. -/
def SectionFailure.error : SectionFailure → RpcError
  | .section message => ⟨-32600, message⟩
  | .official error => error
  | .other _ => ⟨-32081, "Thread section could not be moved"⟩

/-- How a `thread/section/move` of Desktop ends. -/
inductive SectionMoveOutcome where
  | moved
  /-- The anchors could not be saved: an official move applied, an External one is an error. -/
  | unsaved (error : Option RpcError)
  | failed (error : RpcError)
  deriving DecidableEq, Repr

/-- The saving of the planned placements. -/
def savePlacements (host : SectionHost) (placements : List StoredSectionPlacementV1) : Bool × SectionHost :=
  match (replaceSectionPlacements placements).exec host.world with
  | (.ok _, world) => (true, { host with world })
  | (.error _, world) => (false, { host with world })

/-- `moveThreadSection` for a Thread of this owner, the official request of an official move
included when it is forwarded unchanged. -/
def moveThreadSection (host : SectionHost) (move : DecodedThreadSectionMoveRequest)
    (now : Timestamp) : SectionMoveOutcome × SectionHost :=
  let isExternal := host.store.records.has
  let movingExternal := isExternal move.threadId
  if !movingExternal && (listSectionPlacements host.store).isEmpty &&
      !(move.beforeThreadId.any isExternal) then
    match host.official.move move.threadId move.sectionId move.beforeThreadId with
    | .error failure => (.failed failure.error, host)
    | .ok official => (.moved, { host with official })
  else
    match planThreadMove host move movingExternal now with
    | .error failure => (.failed failure.error, host)
    | .ok plan =>
      if movingExternal then
        match savePlacements host plan.placements with
        | (true, host) => (.moved, host)
        | (false, host) =>
          (.unsaved (SectionFailure.other "Section placements could not be persisted").error, host)
      else
        match host.official.move move.threadId move.sectionId plan.officialBeforeThreadId with
        | .error failure => (.failed failure.error, host)
        | .ok official =>
          match savePlacements { host with official } plan.placements with
          | (true, host) => (.moved, host)
          | (false, host) => (.unsaved none, host)

/-- `removeThread` of the store. -/
def removeThread (host : SectionHost) (threadId : HostThreadId) : Bool × SectionHost :=
  match (remove threadId).exec host.world with
  | (.ok _, world) => (true, { host with world })
  | (.error _, world) => (false, { host with world })

end CodexHost.Source.HostRuntime
