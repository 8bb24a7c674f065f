import CodexHost.Guarantees.SectionOrder

/-!
# Runs of moves and removals
-/
namespace CodexHost.Guarantees.Sections
open Foundation Source.MappingStore Source.HostRuntime List Sections Bool
open Source.SharedContracts

section Moves
variable {external : String → Prop} {host host' : SectionHost} {move : DecodedThreadSectionMoveRequest}

section
variable (sound : Sound external host)
include sound

theorem Sound.officialMoved {official' : OfficialSections}
    (moved : OfficialMoved host.official move official') :
    Sound external { host with official := official' } := by
  refine ⟨sound.once, sound.placed, sound.records, ?_, ?_, ?_, ?_, ?_⟩
  · intro id member
    rw [moved.threads] at member
    exact sound.threads id member
  · intro sectionId
    rw [moved.orders]
    exact movedOrder_nodup (sound.distinct sectionId)
  · intro sectionId id member
    rw [moved.orders, mem_movedOrder] at member
    rw [moved.threads]
    rcases member with ⟨-, here⟩ | ⟨rfl, -⟩
    · exact sound.listed sectionId id here
    · exact moved.known
  · intro sectionId sectionId' id first second
    rw [moved.orders, mem_movedOrder] at first second
    rcases first with ⟨apart, here⟩ | ⟨same, target⟩
    · rcases second with ⟨-, there⟩ | ⟨same, -⟩
      · exact sound.single _ _ id here there
      · exact absurd same apart
    · rcases second with ⟨apart, -⟩ | ⟨-, target'⟩
      · exact absurd same apart
      · exact Option.some_inj.mp (target.symm.trans target')
  · intro sectionId id member
    rw [moved.orders, mem_movedOrder] at member
    rw [moved.definitions]
    rcases member with ⟨-, here⟩ | ⟨-, target⟩
    · exact sound.defined sectionId id here
    · exact moved.target sectionId target

theorem Sound.saved {placements : List StoredSectionPlacementV1}
    (once : (ids placements).Nodup)
    (live : ∀ placement ∈ placements, host.store.records.has placement.hostThreadId = true)
    (official : host'.official = host.official)
    (store : host'.store = { host.store with sectionPlacements := placements }) :
    Sound external host' := by
  obtain ⟨-, -, records, threads, distinct, listed, single, defined⟩ := sound
  rw [← official] at threads distinct listed single defined
  refine ⟨by rwa [store], ?_, by rwa [store], threads, distinct, listed, single, defined⟩
  rw [store]
  intro id member
  obtain ⟨placement, here, rfl⟩ := mem_map.mp member
  exact records _ (live placement here)

theorem Sound.same (official : host'.official = host.official)
    (store : host'.store = host.store) : Sound external host' := by
  obtain ⟨once, placed, records, threads, distinct, listed, single, defined⟩ := sound
  rw [← official] at threads distinct listed single defined
  rw [← store] at once placed records
  exact ⟨once, placed, records, threads, distinct, listed, single, defined⟩

end

theorem Settled.same (settled : Settled external host) (official : host'.official = host.official)
    (store : host'.store = host.store) : Settled external host' := by
  refine ⟨settled.toSound.same official store, ?_⟩
  rw [official, store]
  exact settled.anchored

theorem order_same (official : host'.official = host.official) (store : host'.store = host.store)
    (sectionId : String) : order host' sectionId = order host sectionId := by
  rw [order, official, store]
  rfl

/-- What a move does to the orders, by how it ends. -/
def MoveDone (external : String → Prop) (host : SectionHost) (move : DecodedThreadSectionMoveRequest) :
    SectionMoveOutcome × SectionHost → Prop
  | (.moved, host') => (∀ sectionId, order host' sectionId =
      movedOrder move sectionId (order host sectionId)) ∧ Sound external host' ∧
        (Settled external host → Settled external host')
  | (.unsaved error, host') => Sound external host' ∧
      (error.isSome → host'.official = host.official ∧ host'.store = host.store)
  | (.failed _, host') => host' = host

section
variable (sound : Sound external host)
include sound

/-- Saving a plan finishes a move. -/
theorem plan_saved {input : PlanSectionMoveInput}
    {plan : SectionMovePlan} (planning : Planning host move input) (planned : Planned input plan)
    (sound' : Sound external host') (records : host'.store = host.store)
    (official : ∀ sectionId, (host'.official.order sectionId).filter
        (· ∉ ids (inSection sectionId plan.placements)) =
      (movedOrder move sectionId (order host sectionId)).filter
        (· ∉ ids (inSection sectionId plan.placements)))
    (elsewhere : ∀ sectionId, move.threadId ∉ host.official.order sectionId →
      move.sectionId ≠ some sectionId → host'.official.order sectionId = host.official.order sectionId) :
    ((savePlacements host' plan.placements).1 = true →
      MoveDone external host move (.moved, (savePlacements host' plan.placements).2)) ∧
    ((savePlacements host' plan.placements).1 = false →
      (savePlacements host' plan.placements).2.official = host'.official ∧
        (savePlacements host' plan.placements).2.store = host'.store) := by
  have live : ∀ placement ∈ plan.placements, host'.store.records.has placement.hostThreadId = true := by
    rw [records]
    exact planned_live planning planned
  obtain ⟨sameOfficial, store⟩ := savePlacements_spec live
  constructor
  · intro isSaved
    rw [isSaved, if_pos rfl] at store
    have saved : MoveSaved host move plan (savePlacements host' plan.placements).2 := by
      refine ⟨by rw [store, records], ?_, ?_⟩
      · intro sectionId
        rw [sameOfficial]
        exact official sectionId
      · intro sectionId away target
        rw [sameOfficial]
        exact elsewhere sectionId away target
    have orders := moveSaved_order sound planning planned saved
    have sound'' := sound'.saved (planned_once sound planning planned) live sameOfficial store
    exact ⟨fun sectionId => (orders sectionId).1, sound'', fun settled =>
      ⟨sound'', .inl fun sectionId => (orders sectionId).2 (settled.listed_anchored sectionId)⟩⟩
  · intro unsaved
    rw [unsaved] at store
    exact ⟨sameOfficial, store⟩

theorem forward_done {official' : OfficialSections}
    (none : listSectionPlacements host.store = [])
    (moved : OfficialMoved host.official move official') :
    MoveDone external host move (.moved, { host with official := official' }) := by
  have whole : ∀ (given : SectionHost), Sound external given →
      listSectionPlacements given.store = [] → ∀ sectionId,
        order given sectionId = given.official.order sectionId := by
    intro given isSound empty sectionId
    rw [order, empty]
    exact (anchored_none (isSound.distinct sectionId)).merge
  have sound' := sound.officialMoved moved
  refine ⟨fun sectionId => ?_, sound', fun settled => ⟨sound', .inr fun id member => ?_⟩⟩
  · rw [whole _ sound' none, whole host sound none, moved.orders]
  · rw [← not_eq_true]
    intro live
    have listed : id ∈ ids (listSectionPlacements host.store) := by
      rw [listSectionPlacements_ids]
      exact mem_filter.mpr ⟨member, live⟩
    rw [none] at listed
    cases listed

theorem moveThreadSection_done (now : Timestamp) :
    MoveDone external host move (moveThreadSection host move now) := by
  unfold moveThreadSection
  simp only
  split
  · next forward =>
    simp only [and_eq_true, not_eq_true', List.isEmpty_iff] at forward
    split
    · rfl
    · next official' ran => exact forward_done sound forward.1.2 (official_moved move ran)
  · split
    · rfl
    · next plan ran =>
      obtain ⟨input, planning, planned⟩ := planThreadMove_planned sound ran
      cases owner : host.store.records.has move.threadId with
      | true =>
        obtain ⟨done, undone⟩ := plan_saved sound planning planned sound rfl
          (planned_external sound planning planned owner) fun _ _ _ => rfl
        rcases saving : savePlacements host plan.placements with ⟨saved, host'⟩
        rw [saving] at done undone
        cases saved with
        | true => exact done rfl
        | false =>
          obtain ⟨official, store⟩ := undone rfl
          exact ⟨sound.same official store, fun _ => ⟨official, store⟩⟩
      | false =>
        simp only [false_eq_true, if_false]
        split
        · rfl
        · next official' moves =>
          have moved := official_moved { move with beforeThreadId := plan.officialBeforeThreadId } moves
          have sound' := sound.officialMoved moved
          obtain ⟨done, undone⟩ := @plan_saved external host { host with official := official' } move
            sound input plan planning planned sound' rfl (planned_official sound planning planned owner moved) (by
              intro sectionId away target
              show official'.order sectionId = host.official.order sectionId
              rw [moved.orders, movedOrder, if_neg target]
              refine List.filter_eq_self.mpr fun id member => decide_eq_true ?_
              rintro rfl
              exact away member)
          rcases saving : savePlacements { host with official := official' } plan.placements with
            ⟨saved, host'⟩
          rw [saving] at done undone
          cases saved with
          | true => exact done rfl
          | false =>
            obtain ⟨official, store⟩ := undone rfl
            exact ⟨sound'.same official store, fun none => by cases none⟩

end

/-- A move of a known Thread, to a section that is defined and before a Thread of it, with lists
within the bounds of the requests. -/
structure ValidMove (host : SectionHost) (move : DecodedThreadSectionMoveRequest) : Prop where
  known : host.store.records.has move.threadId = true ∨ move.threadId ∈ host.official.threads
  target : ∀ sectionId, move.sectionId = some sectionId →
    ∃ definition ∈ host.official.definitions, definition.id = sectionId
  anchor : ∀ sectionId before, move.sectionId = some sectionId → move.beforeThreadId = some before →
    before ∈ (order host sectionId).filter (· ≠ move.threadId)
  definitions : host.official.definitions.length ≤ MAX_OFFICIAL_PAGES * OFFICIAL_PAGE_SIZE
  rows : ∀ sectionId, (host.official.order sectionId).length ≤ MAX_OFFICIAL_PAGES * OFFICIAL_PAGE_SIZE

section
variable (valid : ValidMove host move)
include valid

theorem orderOf_ok (sectionId : Option String) :
    ∃ all, orderOf host.official (listSectionPlacements host.store) sectionId = .ok all ∧
      ∀ given, sectionId = some given → all = order host given := by
  cases sectionId with
  | none => exact ⟨[], rfl, fun _ none => by cases none⟩
  | some sectionId =>
    refine ⟨_, sectionOrder_ok (valid.rows sectionId), ?_⟩
    rintro given ⟨⟩
    rfl

theorem moveDestination_ok (movingExternal : Bool) :
    ∃ destination, moveDestination host.official movingExternal move.sectionId = .ok destination := by
  cases target : move.sectionId with
  | none => exact ⟨none, rfl⟩
  | some sectionId =>
    rw [moveDestination]
    cases movingExternal with
    | false => exact ⟨_, rfl⟩
    | true =>
      obtain ⟨found, ran⟩ := findOfficialSection_ok MAX_OFFICIAL_PAGES 0
        (by rw [Nat.zero_add]; exact valid.definitions) (valid.target sectionId target)
      rw [ran]
      exact ⟨_, rfl⟩

theorem planThreadMove_ok (now : Timestamp) :
    ∃ plan, planThreadMove host move (host.store.records.has move.threadId) now = .ok plan := by
  have reads : ∃ current, currentSection host.official (listSectionPlacements host.store)
      (host.store.records.has move.threadId) move.threadId = .ok current := by
    unfold currentSection OfficialSections.read
    split
    · exact ⟨_, rfl⟩
    · next isOfficial =>
      have known := valid.known.resolve_left isOfficial
      rw [if_neg (not_not.mpr known)]
      exact ⟨_, rfl⟩
  obtain ⟨currentSectionId, isCurrent⟩ := reads
  obtain ⟨destination, isDestination⟩ :=
    moveDestination_ok valid (host.store.records.has move.threadId)
  obtain ⟨current, isCurrentOrder, currentOrder⟩ := orderOf_ok valid currentSectionId
  obtain ⟨target, isTargetOrder, targetOrder⟩ := orderOf_ok valid move.sectionId
  have isId := moveDestination_id isDestination
  unfold planThreadMove
  simp only [isCurrent, isDestination, isCurrentOrder, isTargetOrder, bind, Except.bind]
  cases destination with
  | none =>
    exact ⟨_, (@planSectionMove_none (planInput host move (host.store.records.has move.threadId) now
      currentSectionId none current target) rfl isId.symm).1⟩
  | some destination =>
    obtain ⟨plan, made, -⟩ := @planSectionMove_some (planInput host move
      (host.store.records.has move.threadId) now currentSectionId (some destination) current target)
        destination rfl isId.symm (by
          intro before isBefore
          have inside := valid.anchor destination.id before isId.symm isBefore
          have orders : (planInput host move (host.store.records.has move.threadId) now
              currentSectionId (some destination) current target).orders destination.id =
                order host destination.id := by
            show (if currentSectionId = some destination.id then current
              else if move.sectionId = some destination.id then target else []) = _
            split
            · next here => exact currentOrder _ here
            · rw [if_pos (show move.sectionId = some destination.id from isId.symm)]
              exact targetOrder _ isId.symm
          rw [PlanSectionMoveInput.without, orders]
          exact inside)
    exact ⟨plan, made⟩

end

theorem official_move_ok (known : move.threadId ∈ host.official.threads)
    (target : ∀ sectionId, move.sectionId = some sectionId → sectionId ∈ host.official.definitions.map (·.id))
    (anchor : ∀ sectionId before, move.sectionId = some sectionId → move.beforeThreadId = some before →
        before ∈ (host.official.order sectionId).filter (· ≠ move.threadId)) :
    ∃ official', host.official.move move.threadId move.sectionId move.beforeThreadId = .ok official' := by
  unfold OfficialSections.move
  rw [if_neg (not_not.mpr known)]
  cases isTarget : move.sectionId with
  | none => exact ⟨_, rfl⟩
  | some sectionId =>
    simp only
    rw [if_neg (not_not.mpr (target sectionId isTarget)), if_neg]
    · exact ⟨_, rfl⟩
    · rw [Option.any_eq_true]
      rintro ⟨before, isBefore, out⟩
      exact of_decide_eq_true out (anchor sectionId before isTarget isBefore)

/-- A valid move is not refused. -/
theorem moveThreadSection_valid (sound : Sound external host) (valid : ValidMove host move)
    (now : Timestamp) (error : RpcError) : (moveThreadSection host move now).1 ≠ .failed error := by
  have target : ∀ sectionId, move.sectionId = some sectionId →
      sectionId ∈ host.official.definitions.map (·.id) := by
    intro sectionId isTarget
    obtain ⟨definition, known, isId⟩ := valid.target sectionId isTarget
    exact List.mem_map.mpr ⟨definition, known, isId⟩
  unfold moveThreadSection
  simp only
  split
  · next forward =>
    simp only [and_eq_true, not_eq_true', List.isEmpty_iff] at forward
    obtain ⟨⟨isOfficial, none⟩, -⟩ := forward
    have known := valid.known.resolve_left (by simp [isOfficial])
    obtain ⟨official', ran⟩ := official_move_ok known target (by
      intro sectionId before isTarget isBefore
      have inside := valid.anchor sectionId before isTarget isBefore
      rw [order, none] at inside
      rwa [show mergeSectionOrder (host.official.order sectionId) (inSection sectionId []) =
        host.official.order sectionId from (anchored_none (sound.distinct sectionId)).merge] at inside)
    rw [ran]
    exact fun same => by cases same
  · obtain ⟨plan, ran⟩ := planThreadMove_ok valid now
    obtain ⟨input, planning, planned⟩ := planThreadMove_planned sound ran
    rw [ran]
    cases owner : host.store.records.has move.threadId with
    | true =>
      simp only [if_true]
      split <;> exact fun same => by cases same
    | false =>
      have known := valid.known.resolve_left (by simp [owner])
      obtain ⟨official', moves⟩ := @official_move_ok host
        { move with beforeThreadId := plan.officialBeforeThreadId } known target (by
          intro sectionId before isTarget isBefore
          have isFound : plan.officialBeforeThreadId = some before := isBefore
          rw [planned.official sectionId (by rwa [planning.request]), planning.external] at isFound
          have member := List.mem_of_mem_drop (List.mem_of_find?_eq_some isFound)
          rw [PlanSectionMoveInput.without, planning.request,
            planning.orders sectionId (.inr isTarget)] at member
          obtain ⟨inside, apart⟩ := List.mem_filter.mp member
          refine List.mem_filter.mpr ⟨(mem_order.mp inside).resolve_left fun listed => ?_, apart⟩
          obtain ⟨given, isListed, same⟩ := List.mem_map.mp (mem_ids_of_inSection listed)
          have live := listSectionPlacements_live isListed
          have gone := List.find?_some isFound
          rw [same] at live
          simp [live] at gone)
      simp only [false_eq_true, if_false]
      rw [moves]
      simp only
      split <;> exact fun same => by cases same

end Moves

section Runs

/-- The host with this step to fail. -/
def armed (host : SectionHost) (fuse : Option (Nat × Residue)) : SectionHost :=
  { host with world := { host.world with fuse } }

inductive SectionEvent where
  | move (fuse : Option (Nat × Residue)) (request : DecodedThreadSectionMoveRequest)
      (now : Timestamp)
  | remove (fuse : Option (Nat × Residue)) (threadId : HostThreadId)

def SectionEvent.apply (host : SectionHost) : SectionEvent → SectionHost
  | .move fuse request now => (moveThreadSection (armed host fuse) request now).2
  | .remove fuse threadId => (removeThread (armed host fuse) threadId).2

/-- The event left no anchors unsaved. -/
def SectionEvent.saved (host : SectionHost) : SectionEvent → Prop
  | .move fuse request now =>
    ∀ error, (moveThreadSection (armed host fuse) request now).1 ≠ .unsaved error
  | .remove _ _ => True

def run (host : SectionHost) (events : List SectionEvent) : SectionHost :=
  events.foldl SectionEvent.apply host

def AllSaved (host : SectionHost) : List SectionEvent → Prop
  | [] => True
  | event :: events => event.saved host ∧ AllSaved (event.apply host) events

variable {external : String → Prop} {host : SectionHost}

theorem Sound.armed (sound : Sound external host) (fuse : Option (Nat × Residue)) :
    Sound external (armed host fuse) := sound.same rfl rfl

theorem Settled.armed (settled : Settled external host) (fuse : Option (Nat × Residue)) :
    Settled external (Sections.armed host fuse) := settled.same rfl rfl

/-- What a removal does. -/
theorem removeThread_spec (host : SectionHost) (threadId : HostThreadId) :
    (removeThread host threadId).2.official = host.official ∧
      (Removed threadId host.store (removeThread host threadId).2.store ∨
        ((removeThread host threadId).1 = false ∧ (removeThread host threadId).2.store = host.store)) := by
  have removal := @remove_store host.world threadId
  unfold Command.wp at removal
  unfold removeThread
  split
  · next ran =>
    rw [ran] at removal
    exact ⟨rfl, .inl removal⟩
  · next ran =>
    rw [ran] at removal
    exact ⟨rfl, removal.symm.imp id fun same => ⟨rfl, same⟩⟩

theorem Sound.apply (sound : Sound external host) (event : SectionEvent) :
    Sound external (event.apply host) := by
  cases event with
  | move fuse move now =>
    have done := @moveThreadSection_done external (Sections.armed host fuse) move (sound.armed fuse) now
    show Sound external (moveThreadSection (Sections.armed host fuse) move now).2
    rcases outcome : moveThreadSection (Sections.armed host fuse) move now with ⟨_ | _ | _, host'⟩ <;>
      rw [outcome] at done
    · exact done.2.1
    · exact done.1
    · rw [show host' = Sections.armed host fuse from done]
      exact sound.armed fuse
  | remove fuse threadId =>
    show Sound external (removeThread (Sections.armed host fuse) threadId).2
    obtain ⟨official, removed | ⟨-, same⟩⟩ := removeThread_spec (Sections.armed host fuse) threadId
    · exact (sound.armed fuse).removed official removed
    · exact (sound.armed fuse).same official same

theorem Settled.apply (settled : Settled external host) {event : SectionEvent}
    (saved : event.saved host) : Settled external (event.apply host) := by
  cases event with
  | move fuse move now =>
    have done := @moveThreadSection_done external (Sections.armed host fuse) move
      (settled.toSound.armed fuse) now
    have anchors : ∀ error,
      (moveThreadSection (Sections.armed host fuse) move now).1 ≠ .unsaved error := saved
    show Settled external (moveThreadSection (Sections.armed host fuse) move now).2
    rcases outcome : moveThreadSection (Sections.armed host fuse) move now with ⟨_ | _ | _, host'⟩ <;>
      rw [outcome] at done anchors
    · exact done.2.2 (settled.armed fuse)
    · exact absurd rfl (anchors _)
    · rw [show host' = Sections.armed host fuse from done]
      exact settled.armed fuse
  | remove fuse threadId =>
    show Settled external (removeThread (Sections.armed host fuse) threadId).2
    obtain ⟨official, removed | ⟨-, same⟩⟩ := removeThread_spec (Sections.armed host fuse) threadId
    · exact (settled.armed fuse).removed official removed
    · exact (settled.armed fuse).same official same

theorem Sound.run (sound : Sound external host) (events : List SectionEvent) :
    Sound external (run host events) := by
  induction events generalizing host with
  | nil => exact sound
  | cons event events ih => exact ih (sound.apply event)

theorem Settled.run (events : List SectionEvent) : ∀ {host : SectionHost}, Settled external host →
    AllSaved host events → Settled external (run host events) := by
  induction events with
  | nil =>
    intro host settled _
    exact settled
  | cons event events ih =>
    intro host settled saved
    exact ih (settled.apply saved.1) saved.2

/-- No Thread is placed yet, and every official Thread is in at most one section, which is defined. -/
structure SectionStart (host : SectionHost) : Prop where
  fresh : host.store.sectionPlacements = []
  apart : ∀ id ∈ host.official.threads, host.store.records.has id = false
  distinct : ∀ sectionId, (host.official.order sectionId).Nodup
  listed : ∀ sectionId, ∀ id ∈ host.official.order sectionId, id ∈ host.official.threads
  single : ∀ sectionId sectionId' id, id ∈ host.official.order sectionId →
    id ∈ host.official.order sectionId' → sectionId = sectionId'
  defined : ∀ sectionId, ∀ id ∈ host.official.order sectionId,
    sectionId ∈ host.official.definitions.map (·.id)

theorem SectionStart.settled (start : SectionStart host) :
    Settled (fun id => host.store.records.has id = true) host := by
  refine ⟨⟨?_, ?_, fun _ known => known, ?_, start.distinct, start.listed, start.single,
    start.defined⟩, .inr ?_⟩
  · rw [start.fresh]
    exact nodup_nil
  · rw [start.fresh]
    exact fun _ none => by cases none
  · intro id official
    simp [start.apart id official]
  · rw [start.fresh]
    exact fun _ none => by cases none

/-- What the next move or removal after these events does to the orders of all sections. -/
structure KeepsOrder (start : SectionHost) (events : List SectionEvent) : Prop where
  moved : ∀ fuse move now host',
    moveThreadSection (armed (run start events) fuse) move now = (.moved, host') →
      ∀ sectionId, order host' sectionId = movedOrder move sectionId (order (run start events) sectionId)
  rejected : ∀ fuse move now error host',
    (moveThreadSection (armed (run start events) fuse) move now = (.failed error, host') ∨
      moveThreadSection (armed (run start events) fuse) move now = (.unsaved (some error), host')) →
        ∀ sectionId, order host' sectionId = order (run start events) sectionId
  valid : ∀ fuse move now error, ValidMove (run start events) move →
    (moveThreadSection (armed (run start events) fuse) move now).1 ≠ .failed error
  removed : AllSaved start events → ∀ fuse threadId host',
    (run start events).store.records.has threadId = true →
      removeThread (armed (run start events) fuse) threadId = (true, host') →
        ∀ sectionId, order host' sectionId = (order (run start events) sectionId).filter (· ≠ threadId)

end Runs

/-- The section "pinned" with two official Threads, and two External Threads. -/
def sampleHost : SectionHost where
  official :=
    { definitions := [⟨"pinned", "Pinned", none⟩]
      threads := ["a", "b"]
      order := fun sectionId => if sectionId = "pinned" then ["a", "b"] else [] }
  world :=
    { fuse := none
      state :=
        { disk := .blank
          store := { StoreState.constructed with
            initialized := true
            records := (["e", "f"] : List HostThreadId).foldl (fun records id =>
              records.set id (provisionalRecord 0 ⟨id, id, "claude", none, "/work", none, "model", false,
                .legacy, none, none, none⟩)) .empty } } }

theorem sampleHost_start : SectionStart sampleHost := by
  have orders : ∀ sectionId, ∀ id ∈ sampleHost.official.order sectionId,
      sectionId = "pinned" ∧ id ∈ ["a", "b"] := by
    intro sectionId id member
    by_cases here : sectionId = "pinned"
    · rw [here] at member
      exact ⟨here, member⟩
    · simp [sampleHost, here] at member
  refine ⟨rfl, by decide, ?_, fun sectionId id member => (orders sectionId id member).2, ?_, ?_⟩
  · intro sectionId
    by_cases here : sectionId = "pinned"
    · rw [here]
      decide
    · simp [sampleHost, here]
  · intro sectionId sectionId' id first second
    rw [(orders sectionId id first).1, (orders sectionId' id second).1]
  · intro sectionId id member
    rw [(orders sectionId id member).1]
    decide

def sampleMoves : List SectionEvent :=
  [.move none ⟨"e", some "pinned", some "b"⟩ 0, .move none ⟨"f", some "pinned", some "e"⟩ 0,
    .move none ⟨"b", some "pinned", some "f"⟩ 0, .remove none "f"]

/-- The External Thread before the second official one. -/
def pinnedHost : SectionHost := run sampleHost [.move none ⟨"e", some "pinned", some "b"⟩ 0]

def unsavedMove : DecodedThreadSectionMoveRequest := ⟨"b", some "pinned", some "a"⟩

end CodexHost.Guarantees.Sections
