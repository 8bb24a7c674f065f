import CodexHost.Guarantees.SectionMoves

/-!
# The order of a section over moves and removals

After every move that is saved, each section shows its previous order with the Thread taken out of
it, and put before its anchor in the section it moved to. After every removal it shows its previous
order without the Thread.
-/
namespace CodexHost.Guarantees.Sections
open Foundation Source.MappingStore Source.HostRuntime List
open Source.SharedContracts

/-- Threads are official or External, and in at most one section that is defined. -/
structure Sound (external : String → Prop) (host : SectionHost) : Prop where
  once : (ids host.store.sectionPlacements).Nodup
  placed : ∀ id ∈ ids host.store.sectionPlacements, external id
  records : ∀ id, host.store.records.has id = true → external id
  threads : ∀ id ∈ host.official.threads, ¬ external id
  distinct : ∀ sectionId, (host.official.order sectionId).Nodup
  listed : ∀ sectionId, ∀ id ∈ host.official.order sectionId, id ∈ host.official.threads
  single : ∀ sectionId sectionId' id, id ∈ host.official.order sectionId →
    id ∈ host.official.order sectionId' → sectionId = sectionId'
  defined : ∀ sectionId, ∀ id ∈ host.official.order sectionId,
    sectionId ∈ host.official.definitions.map (·.id)

section Plans
variable {external : String → Prop} {host : SectionHost}

theorem Sound.listed_external (sound : Sound external host) {id : String}
    (member : id ∈ ids (listSectionPlacements host.store)) : external id := by
  rw [listSectionPlacements_ids] at member
  exact sound.placed id (mem_of_mem_filter member)

variable {sectionId id : String}

theorem mem_ids_of_inSection {placements : List StoredSectionPlacementV1}
    (member : id ∈ ids (inSection sectionId placements)) : id ∈ ids placements :=
  (filter_sublist.map _).subset member

theorem Sound.official_external (sound : Sound external host)
    (member : id ∈ host.official.order sectionId) : ¬ external id :=
  sound.threads id (sound.listed sectionId id member)

/-- A Thread of a section is placed there or official. -/
theorem mem_order : id ∈ order host sectionId ↔
    id ∈ ids (inSection sectionId (listSectionPlacements host.store)) ∨
      id ∈ host.official.order sectionId := mem_mergeSectionOrder

section
variable (sound : Sound external host)
include sound

theorem Sound.order_nodup (sectionId : String) : (order host sectionId).Nodup :=
  mergeSectionOrder_nodup (sound.distinct sectionId)
    ((listSectionPlacements_once sound.once).sublist (filter_sublist.map _))

theorem Sound.order_official (sectionId : String) :
    (order host sectionId).filter (· ∉ ids (inSection sectionId (listSectionPlacements host.store))) =
      host.official.order sectionId := by
  rw [order, mergeSectionOrder_official]
  refine filter_eq_self.mpr fun id official => decide_eq_true fun placed => ?_
  exact sound.official_external official (sound.listed_external (mem_ids_of_inSection placed))

/-- The current section of a move is the one the Thread is in. -/
theorem Sound.currentSection {threadId : String} {current : Option String}
    (ran : currentSection host.official (listSectionPlacements host.store)
      (host.store.records.has threadId) threadId = .ok current) {sectionId : String}
    (member : threadId ∈ order host sectionId) : current = some sectionId := by
  unfold Source.HostRuntime.currentSection at ran
  split at ran
  · next isExternal =>
    cases ran
    have apart : threadId ∉ host.official.order sectionId := fun official =>
      sound.official_external official (sound.records threadId isExternal)
    obtain ⟨placement, here, same⟩ := mem_map.mp ((mem_order.mp member).resolve_right apart)
    obtain ⟨known, isSection⟩ := mem_filter.mp here
    cases found : (listSectionPlacements host.store).find? (·.hostThreadId = threadId) with
    | none =>
      rw [find?_eq_none] at found
      exact absurd (decide_eq_true same) (found placement known)
    | some other =>
      have isOther : other.hostThreadId = threadId := by simpa using find?_some found
      have equal := once_unique (listSectionPlacements_once sound.once)
        (mem_of_find?_eq_some found) known (isOther.trans same.symm)
      rw [equal, Option.map_some, of_decide_eq_true isSection]
  · next isOfficial =>
    unfold OfficialSections.read at ran
    split at ran
    · cases ran
    · next known =>
      cases ran
      rw [not_not] at known
      have here : threadId ∈ host.official.order sectionId := by
        refine (mem_order.mp member).resolve_left fun placed => ?_
        exact sound.threads threadId known (sound.listed_external (mem_ids_of_inSection placed))
      obtain ⟨definition, isDefinition, isId⟩ :=
        mem_map.mp (sound.defined sectionId threadId here)
      cases found : host.official.definitions.find? fun definition =>
          threadId ∈ host.official.order definition.id with
      | none =>
        rw [find?_eq_none] at found
        refine absurd ?_ (found definition isDefinition)
        rw [isId]
        exact decide_eq_true here
      | some other =>
        have inside : threadId ∈ host.official.order other.id := by simpa using find?_some found
        rw [Option.map_some, sound.single _ _ _ inside here]

end

theorem bind_ok {ε α β : Type} {x : Except ε α} {f : α → Except ε β} {b : β}
    (ran : (x >>= f) = .ok b) : ∃ a, x = .ok a ∧ f a = .ok b := by
  cases x with
  | error e => cases ran
  | ok a => exact ⟨a, rfl, ran⟩

/-- The input of a plan is what the host shows. -/
structure Planning (host : SectionHost) (move : DecodedThreadSectionMoveRequest)
    (input : PlanSectionMoveInput) : Prop where
  request : input.move = move
  owner : input.movingExternal = host.store.records.has move.threadId
  placements : input.placements = listSectionPlacements host.store
  external : input.isExternal = host.store.records.has
  orders : ∀ sectionId, input.currentSectionId = some sectionId ∨ move.sectionId = some sectionId →
    input.orders sectionId = order host sectionId
  current : ∀ sectionId, move.threadId ∈ order host sectionId → input.currentSectionId = some sectionId
  destination : input.destination.map (·.id) = move.sectionId

theorem orderOf_eq {sectionId : Option String} {all : List String}
    (ran : orderOf host.official (listSectionPlacements host.store) sectionId = .ok all) :
    ∀ given, sectionId = some given → all = order host given := by
  rintro given rfl
  exact sectionOrder_eq ran

theorem moveDestination_id {movingExternal : Bool} {sectionId : Option String}
    {destination : Option StoredThreadSection}
    (ran : moveDestination host.official movingExternal sectionId = .ok destination) :
    destination.map (·.id) = sectionId := by
  cases sectionId with
  | none =>
    cases ran
    rfl
  | some sectionId =>
    rw [moveDestination] at ran
    cases movingExternal
    · cases ran
      rfl
    · cases found : findOfficialSection host.official.definitions sectionId MAX_OFFICIAL_PAGES 0 with
      | error failure =>
        rw [found] at ran
        cases ran
      | ok definition =>
        rw [found] at ran
        cases ran
        rw [Option.map_some, (findOfficialSection_id _ found).2]

/-- What a plan that is made says. -/
theorem planThreadMove_planned (sound : Sound external host) {move : DecodedThreadSectionMoveRequest}
    {now : Timestamp} {plan : SectionMovePlan}
    (ran : planThreadMove host move (host.store.records.has move.threadId) now = .ok plan) :
    ∃ input, Planning host move input ∧ Planned input plan := by
  obtain ⟨currentSectionId, isCurrent, ran⟩ := bind_ok ran
  obtain ⟨destination, isDestination, ran⟩ := bind_ok ran
  obtain ⟨current, isCurrentOrder, ran⟩ := bind_ok ran
  obtain ⟨target, isTargetOrder, ran⟩ := bind_ok ran
  have isId := moveDestination_id isDestination
  refine ⟨planInput host move (host.store.records.has move.threadId) now currentSectionId destination
    current target, ⟨rfl, rfl, rfl, rfl, ?_,
      fun sectionId member => sound.currentSection isCurrent member, isId⟩, ?_⟩
  · intro sectionId touched
    show (if currentSectionId = some sectionId then current
      else if move.sectionId = some sectionId then target else []) = order host sectionId
    split
    · next here => exact orderOf_eq isCurrentOrder sectionId here
    · next away =>
      have toward := touched.resolve_left away
      rw [if_pos toward]
      exact orderOf_eq isTargetOrder sectionId toward
  · cases destination with
    | none =>
      obtain ⟨made, planned⟩ := @planSectionMove_none (planInput host move
        (host.store.records.has move.threadId) now currentSectionId none current target) rfl isId.symm
      cases ran
      exact planned
    | some destination =>
      obtain ⟨plan', made, planned⟩ := @planSectionMove_some (planInput host move
        (host.store.records.has move.threadId) now currentSectionId (some destination) current target)
          destination rfl isId.symm (planSectionMove_anchored rfl ran)
      rw [made] at ran
      cases ran
      exact planned

theorem mem_movedOrder {move : DecodedThreadSectionMoveRequest}
    {given : List String} : id ∈ movedOrder move sectionId given ↔
      (id ≠ move.threadId ∧ id ∈ given) ∨ (id = move.threadId ∧ move.sectionId = some sectionId) := by
  unfold movedOrder
  by_cases target : move.sectionId = some sectionId
  · simp [target, mem_insertBefore, and_comm, or_comm]
  · simp [target, and_comm]

theorem movedOrder_nodup {move : DecodedThreadSectionMoveRequest} {sectionId : String}
    {given : List String} (nodup : given.Nodup) : (movedOrder move sectionId given).Nodup := by
  unfold movedOrder
  split
  · exact insertBefore_nodup (nodup.filter _) (by simp)
  · exact nodup.filter _

theorem movedOrder_filter_ne (move : DecodedThreadSectionMoveRequest) (sectionId : String)
    (given : List String) : (movedOrder move sectionId given).filter (· ≠ move.threadId) =
      given.filter (· ≠ move.threadId) := by
  have twice : (given.filter (· ≠ move.threadId)).filter (· ≠ move.threadId) =
      given.filter (· ≠ move.threadId) := by
    simp
  unfold movedOrder
  split
  · rw [filter_insertBefore_neg (by simp), twice]
  · exact twice

variable {move : DecodedThreadSectionMoveRequest} {input : PlanSectionMoveInput} {plan : SectionMovePlan}

/-- The placements of a section after a move, and their Threads. -/
theorem planned_members (planning : Planning host move input) (planned : Planned input plan) : id ∈ ids (inSection sectionId plan.placements) ↔
      (id ≠ move.threadId ∧ id ∈ ids (inSection sectionId (listSectionPlacements host.store))) ∨
        (id = move.threadId ∧ host.store.records.has move.threadId = true ∧
          move.sectionId = some sectionId) := by
  rw [planned.members, planning.request, planning.owner, planning.placements]

theorem planned_once (sound : Sound external host) (planning : Planning host move input)
    (planned : Planned input plan) : (ids plan.placements).Nodup := by
  rw [planned.names, planning.placements, nodup_append]
  refine ⟨(listSectionPlacements_once sound.once).filter _, ?_, ?_⟩
  · split <;> simp
  · intro id staying other entering
    split at entering
    · rintro rfl
      rw [mem_singleton] at entering
      simp [entering] at staying
    · cases entering

theorem planned_live (planning : Planning host move input) (planned : Planned input plan) :
    ∀ placement ∈ plan.placements, host.store.records.has placement.hostThreadId = true := by
  intro placement member
  have here : placement.hostThreadId ∈ ids (inSection placement.section.id plan.placements) :=
    mem_map_of_mem (mem_filter.mpr ⟨member, decide_eq_true rfl⟩)
  rcases (planned_members planning planned).mp here with ⟨-, listed⟩ | ⟨same, live, -⟩
  · obtain ⟨given, known, same⟩ := mem_map.mp (mem_ids_of_inSection listed)
    rw [← same]
    exact listSectionPlacements_live known
  · rw [same]
    exact live

section
variable (sound : Sound external host)
include sound

variable (planning : Planning host move input)
include planning

variable (planned : Planned input plan)
include planned

/-- A planned section is anchored in its moved order, when that has the official part. -/
theorem planned_anchored {sectionId : String}
    (touched : input.currentSectionId = some sectionId ∨ move.sectionId = some sectionId)
    {officialIds : List String}
    (official : officialIds.filter (· ∉ ids (inSection sectionId plan.placements)) =
      (movedOrder move sectionId (order host sectionId)).filter
        (· ∉ ids (inSection sectionId plan.placements))) :
    Anchored (movedOrder move sectionId (order host sectionId)) officialIds
      (inSection sectionId plan.placements) := by
  refine ⟨movedOrder_nodup (sound.order_nodup sectionId),
    (planned_once sound planning planned).sublist (filter_sublist.map _), official, ?_⟩
  intro placement member
  have inside : placement.hostThreadId ∈ movedOrder move sectionId (order host sectionId) := by
    rw [mem_movedOrder]
    rcases (planned_members planning planned).mp (mem_map_of_mem member) with
      ⟨apart, listed⟩ | ⟨same, -, target⟩
    · exact .inl ⟨apart, mem_order.mpr (.inl listed)⟩
    · exact .inr ⟨same, target⟩
  have anchors := planned.anchors sectionId (by rwa [planning.request]) placement member
  rw [planning.request, planning.orders sectionId touched] at anchors
  exact ⟨inside, anchors inside⟩

/-- The other official Threads of a section keep their order. -/
theorem planned_rest (sectionId : String) :
    ((order host sectionId).filter (· ≠ move.threadId)).filter
        (· ∉ ids (inSection sectionId plan.placements)) =
      (host.official.order sectionId).filter (· ≠ move.threadId) := by
  rw [← sound.order_official sectionId, filter_filter, filter_filter]
  refine filter_congr fun id _ => ?_
  rw [Bool.eq_iff_iff, Bool.and_eq_true, Bool.and_eq_true, decide_eq_true_iff, decide_eq_true_iff,
    decide_eq_true_iff, planned_members planning planned]
  tauto

theorem official_unplaced {sectionId sectionId' id : String}
    (member : id ∈ host.official.order sectionId) :
    id ∉ ids (inSection sectionId' plan.placements) := by
  intro placed
  obtain ⟨given, known, same⟩ := mem_map.mp (mem_ids_of_inSection placed)
  refine sound.official_external member (sound.records id ?_)
  rw [← same]
  exact planned_live planning planned given known

/-- Moving an External Thread leaves the official part alone. -/
theorem planned_external (isExternal : host.store.records.has move.threadId = true)
    (sectionId : String) :
    (host.official.order sectionId).filter (· ∉ ids (inSection sectionId plan.placements)) =
      (movedOrder move sectionId (order host sectionId)).filter
        (· ∉ ids (inSection sectionId plan.placements)) := by
  have without : (movedOrder move sectionId (order host sectionId)).filter
      (· ∉ ids (inSection sectionId plan.placements)) =
        ((order host sectionId).filter (· ≠ move.threadId)).filter
          (· ∉ ids (inSection sectionId plan.placements)) := by
    unfold movedOrder
    split
    · next target =>
      have placed : move.threadId ∈ ids (inSection sectionId plan.placements) :=
        (planned_members planning planned).mpr (.inr ⟨rfl, isExternal, target⟩)
      exact filter_insertBefore_neg (by simp [placed])
    · rfl
  rw [without, planned_rest sound planning planned]
  refine filter_congr fun id member => ?_
  have unplaced := @official_unplaced _ _ _ _ _ sound planning planned sectionId sectionId id member
  have apart : id ≠ move.threadId := by
    rintro rfl
    exact sound.official_external member (sound.records _ isExternal)
  simp [unplaced, apart]

end

/-- What an official move does. -/
structure OfficialMoved (official : OfficialSections) (move : DecodedThreadSectionMoveRequest)
    (official' : OfficialSections) : Prop where
  definitions : official'.definitions = official.definitions
  threads : official'.threads = official.threads
  known : move.threadId ∈ official.threads
  target : ∀ sectionId, move.sectionId = some sectionId → sectionId ∈ official.definitions.map (·.id)
  orders : ∀ sectionId, official'.order sectionId = movedOrder move sectionId (official.order sectionId)

theorem official_moved {official official' : OfficialSections} (move : DecodedThreadSectionMoveRequest)
    (ran : official.move move.threadId move.sectionId move.beforeThreadId = .ok official') :
    OfficialMoved official move official' := by
  unfold OfficialSections.move at ran
  simp only at ran
  split at ran
  · cases ran
  · next known =>
    rw [not_not] at known
    split at ran
    · next nowhere =>
      cases ran
      refine ⟨rfl, rfl, known, by simp [nowhere], fun sectionId => ?_⟩
      rw [movedOrder, if_neg (by simp [nowhere])]
    · next target isTarget =>
      split at ran
      · cases ran
      · next defined =>
        rw [not_not] at defined
        split at ran
        · cases ran
        · cases ran
          refine ⟨rfl, rfl, known, ?_, fun sectionId => ?_⟩
          · intro sectionId same
            rw [isTarget] at same
            cases same
            exact defined
          · rw [movedOrder, isTarget]
            by_cases here : sectionId = target
            · simp [here]
            · simp [here, Ne.symm here]

/-- The official move of a plan gives the official part of the moved order. -/
theorem planned_official (sound : Sound external host) (planning : Planning host move input)
    (planned : Planned input plan) (isOfficial : host.store.records.has move.threadId = false)
    {official' : OfficialSections}
    (moved : OfficialMoved host.official { move with beforeThreadId := plan.officialBeforeThreadId }
      official') (sectionId : String) :
    (official'.order sectionId).filter (· ∉ ids (inSection sectionId plan.placements)) =
      (movedOrder move sectionId (order host sectionId)).filter
        (· ∉ ids (inSection sectionId plan.placements)) := by
  have unplacedHere : move.threadId ∉ ids (inSection sectionId plan.placements) := by
    rw [planned_members planning planned]
    rintro (⟨apart, -⟩ | ⟨-, isExternal, -⟩)
    · exact apart rfl
    · rw [isOfficial] at isExternal
      cases isExternal
  have unplaced := fun id => @official_unplaced _ _ _ _ _ sound planning planned sectionId sectionId id
  have whole : (official'.order sectionId).filter (· ∉ ids (inSection sectionId plan.placements)) =
      official'.order sectionId := by
    refine filter_eq_self.mpr fun id member => decide_eq_true ?_
    rw [moved.orders, mem_movedOrder] at member
    rcases member with ⟨-, here⟩ | ⟨rfl, -⟩
    · exact unplaced id here
    · exact unplacedHere
  have rest := planned_rest sound planning planned sectionId
  rw [whole, moved.orders]
  by_cases target : move.sectionId = some sectionId
  · let shown := movedOrder move sectionId (order host sectionId)
    let keep : String → Bool := (· ∉ ids (inSection sectionId plan.placements))
    have nodup : shown.Nodup := movedOrder_nodup (sound.order_nodup sectionId)
    have here : move.threadId ∈ shown.filter keep := by
      refine mem_filter.mpr ⟨mem_movedOrder.mpr (.inr ⟨rfl, target⟩), ?_⟩
      exact decide_eq_true unplacedHere
    have grown := @filter_insert String _ (shown.filter keep) (nodup.filter keep) move.threadId here
      (· ≠ move.threadId) (fun _ => true) (by simp) rfl (fun other _ apart => by simp [apart])
      fun before next => by simpa using successor_ne (nodup.filter keep) here next
    have all : (shown.filter keep).filter (fun _ => true) = shown.filter keep :=
      filter_eq_self.mpr fun _ _ => rfl
    have front : (shown.filter keep).filter (· ≠ move.threadId) =
        (host.official.order sectionId).filter (· ≠ move.threadId) := by
      rw [← rest, ← movedOrder_filter_ne move sectionId (order host sectionId), filter_filter, filter_filter]
      exact filter_congr fun id _ => Bool.and_comm _ _
    have next : successor (shown.filter keep) move.threadId = plan.officialBeforeThreadId := by
      rw [planned.official sectionId (by rwa [planning.request]), PlanSectionMoveInput.without,
        planning.request, planning.orders sectionId (.inr target), planning.external]
      have split : shown = insertBefore ((order host sectionId).filter (· ≠ move.threadId))
          move.beforeThreadId move.threadId := if_pos target
      have apart : move.threadId ∉ ((order host sectionId).filter (· ≠ move.threadId)).take
          (move.beforeThreadId.elim ((order host sectionId).filter (· ≠ move.threadId)).length
            ((order host sectionId).filter (· ≠ move.threadId)).idxOf) := by
        intro member
        simpa using (mem_filter.mp (mem_of_mem_take member)).2
      rw [split, insertBefore_take_drop, successor_filter apart (decide_eq_true unplacedHere),
        ← head?_filter, ← head?_filter]
      congr 1
      refine filter_congr fun id member => ?_
      obtain ⟨inside, out⟩ := mem_filter.mp (mem_of_mem_drop member)
      have apart : id ≠ move.threadId := by simpa using out
      rw [Bool.eq_iff_iff, decide_eq_true_iff, planned_members planning planned, Bool.not_eq_true']
      rcases mem_order.mp inside with listed | official
      · obtain ⟨given, isListed, same⟩ := mem_map.mp (mem_ids_of_inSection listed)
        have live := listSectionPlacements_live isListed
        rw [same] at live
        simp [apart, listed, live]
      · have gone : host.store.records.has id = false := by
          rw [← Bool.not_eq_true]
          exact fun isExternal => sound.official_external official (sound.records id isExternal)
        have notListed : id ∉ ids (inSection sectionId (listSectionPlacements host.store)) :=
          fun listed => sound.official_external official
            (sound.listed_external (mem_ids_of_inSection listed))
        simp [apart, gone, notListed]
    rw [all, front, next] at grown
    rw [movedOrder, if_pos target]
    exact grown.symm
  · rw [movedOrder, if_neg target, movedOrder, if_neg target]
    exact rest.symm

end Plans

section Steps
variable {external : String → Prop} {host host' : SectionHost}

/-- Besides, the placements are anchored in an order of their section, or all their Threads are
gone. -/
structure Settled (external : String → Prop) (host : SectionHost) : Prop extends Sound external host where
  anchored : (∀ sectionId, ∃ whole, Anchored whole (host.official.order sectionId)
      (inSection sectionId host.store.sectionPlacements)) ∨
    ∀ id ∈ ids host.store.sectionPlacements, host.store.records.has id = false

theorem listed_none {store : StoreState}
    (gone : ∀ id ∈ ids store.sectionPlacements, store.records.has id = false) :
    listSectionPlacements store = [] := by
  have none : ids (listSectionPlacements store) = [] := by
    rw [listSectionPlacements_ids, filter_eq_nil_iff]
    intro id member
    simp [gone id member]
  exact map_eq_nil_iff.mp none

theorem anchored_none {officialIds : List String} (nodup : officialIds.Nodup) :
    Anchored officialIds officialIds [] := by
  refine ⟨nodup, nodup_nil, rfl, fun _ none => by cases none⟩

/-- What is listed is anchored. -/
theorem Settled.listed_anchored (settled : Settled external host) (sectionId : String) :
    ∃ whole, Anchored whole (host.official.order sectionId)
      (inSection sectionId (listSectionPlacements host.store)) := by
  rcases settled.anchored with each | gone
  · obtain ⟨whole, anchored⟩ := each sectionId
    exact ⟨_, Sections.listed_anchored settled.once
      (fun id official placed => settled.official_external official (settled.placed id placed)) anchored⟩
  · rw [listed_none gone]
    exact ⟨_, anchored_none (settled.distinct sectionId)⟩

/-- Removing an External Thread takes it out of the order of its section. -/
theorem order_removed (settled : Settled external host) {id : HostThreadId}
    (isExternal : host.store.records.has id = true) (official : host'.official = host.official)
    (removed : Removed id host.store host'.store) (sectionId : String) :
    order host' sectionId = (order host sectionId).filter (· ≠ id) := by
  obtain ⟨placements, records⟩ := removed
  have apart : ∀ store : StoreState, store.sectionPlacements = host.store.sectionPlacements →
      ∀ other ∈ host.official.order sectionId, other ∉ ids store.sectionPlacements := by
    intro store same other member placed
    rw [same] at placed
    exact settled.official_external member (settled.placed other placed)
  rcases settled.anchored with each | gone
  · obtain ⟨whole, anchored⟩ := each sectionId
    have before := (listed_anchored settled.once (apart host.store rfl) anchored).merge
    have once' := settled.once
    have anchored' := anchored
    rw [← placements] at once' anchored'
    have after := (listed_anchored once' (apart host'.store placements) anchored').merge
    rw [order, official, after, order, before, filter_filter]
    refine filter_congr fun other member => ?_
    rw [kept, kept, placements, records]
    by_cases same : other = id
    · subst same
      have placed : other ∈ ids host.store.sectionPlacements := by
        by_contra out
        have here : other ∈ (host.official.order sectionId).filter
            (· ∉ ids (inSection sectionId host.store.sectionPlacements)) := by
          rw [anchored.official]
          refine mem_filter.mpr ⟨member, decide_eq_true fun inside => out ?_⟩
          exact mem_ids_of_inSection inside
        exact settled.official_external (mem_of_mem_filter here) (settled.records other isExternal)
      simp [placed]
    · simp [same]
  · have gone' : ∀ other ∈ ids host'.store.sectionPlacements, host'.store.records.has other = false := by
      intro other member
      rw [placements] at member
      rw [records, gone other member, Bool.false_and]
    rw [order, order, official, listed_none gone, listed_none gone']
    have whole : mergeSectionOrder (host.official.order sectionId) (inSection sectionId []) =
        host.official.order sectionId := (anchored_none (settled.distinct sectionId)).merge
    rw [whole]
    refine (filter_eq_self.mpr fun other member => decide_eq_true ?_).symm
    rintro rfl
    exact settled.official_external member (settled.records other isExternal)

theorem Sound.removed (sound : Sound external host) {id : HostThreadId}
    (official : host'.official = host.official) (removed : Removed id host.store host'.store) :
    Sound external host' := by
  obtain ⟨placements, records⟩ := removed
  obtain ⟨once, placed, known, threads, distinct, listed, single, defined⟩ := sound
  rw [← placements] at once placed
  rw [← official] at threads distinct listed single defined
  refine ⟨once, placed, fun other isExternal => ?_, threads, distinct, listed, single, defined⟩
  rw [records, Bool.and_eq_true] at isExternal
  exact known other isExternal.1

theorem Settled.removed (settled : Settled external host) {id : HostThreadId}
    (official : host'.official = host.official) (removed : Removed id host.store host'.store) :
    Settled external host' := by
  refine ⟨settled.toSound.removed official removed, ?_⟩
  obtain ⟨placements, records⟩ := removed
  rw [official, placements]
  rcases settled.anchored with each | gone
  · exact .inl each
  · refine .inr fun other member => ?_
    rw [records, gone other member, Bool.false_and]

theorem savePlacements_spec {placements : List StoredSectionPlacementV1}
    (live : ∀ placement ∈ placements, host.store.records.has placement.hostThreadId = true) :
    (savePlacements host placements).2.official = host.official ∧ (savePlacements host placements).2.store =
        if (savePlacements host placements).1 then
          { host.store with sectionPlacements := placements }
        else host.store := by
  have saved := @replaceSectionPlacements_store host.world placements live
  unfold Command.wp at saved
  unfold savePlacements
  split <;> next ran => rw [ran] at saved; exact ⟨rfl, saved⟩

/-- What a saved move makes of the host. -/
structure MoveSaved (host : SectionHost) (move : DecodedThreadSectionMoveRequest)
    (plan : SectionMovePlan) (host' : SectionHost) : Prop where
  store : host'.store = { host.store with sectionPlacements := plan.placements }
  official : ∀ sectionId,
    (host'.official.order sectionId).filter (· ∉ ids (inSection sectionId plan.placements)) =
      (movedOrder move sectionId (order host sectionId)).filter
        (· ∉ ids (inSection sectionId plan.placements))
  elsewhere : ∀ sectionId, move.threadId ∉ host.official.order sectionId →
    move.sectionId ≠ some sectionId → host'.official.order sectionId = host.official.order sectionId

variable {move : DecodedThreadSectionMoveRequest} {input : PlanSectionMoveInput} {plan : SectionMovePlan}

/-- A section that a move does not touch keeps its placements. -/
theorem planned_untouched (planning : Planning host move input) (planned : Planned input plan)
    {sectionId : String} (left : input.currentSectionId ≠ some sectionId)
    (target : move.sectionId ≠ some sectionId) :
    inSection sectionId plan.placements = inSection sectionId (listSectionPlacements host.store) := by
  rw [planned.untouched sectionId left (by rwa [planning.request]), others, planning.request,
    planning.placements, inSection, inSection, filter_filter]
  refine filter_congr fun placement member => ?_
  by_cases here : placement.section.id = sectionId
  · have apart : placement.hostThreadId ≠ move.threadId := by
      intro same
      refine left (planning.current sectionId (mem_order.mpr (.inl ?_)))
      rw [← same]
      exact mem_map_of_mem (mem_filter.mpr ⟨member, decide_eq_true here⟩)
    simp [here, apart]
  · simp [here]

/-- After a saved move every section shows its moved order, and its placements are anchored. -/
theorem moveSaved_order (sound : Sound external host) (planning : Planning host move input)
    (planned : Planned input plan) (saved : MoveSaved host move plan host') (sectionId : String) :
    order host' sectionId = movedOrder move sectionId (order host sectionId) ∧
      ((∃ whole, Anchored whole (host.official.order sectionId)
          (inSection sectionId (listSectionPlacements host.store))) →
        ∃ whole, Anchored whole (host'.official.order sectionId)
          (inSection sectionId host'.store.sectionPlacements)) := by
  have live : ∀ placement ∈ host'.store.sectionPlacements,
      host'.store.records.has placement.hostThreadId = true := by
    rw [saved.store]
    exact planned_live planning planned
  have listed := listSectionPlacements_all live
  have isSaved : host'.store.sectionPlacements = plan.placements := by rw [saved.store]
  rw [order, listed, isSaved]
  by_cases touched : input.currentSectionId = some sectionId ∨ move.sectionId = some sectionId
  · have anchored := planned_anchored sound planning planned touched (saved.official sectionId)
    exact ⟨anchored.merge, fun _ => ⟨_, anchored⟩⟩
  · rw [not_or] at touched
    have away : move.threadId ∉ order host sectionId := fun member =>
      touched.1 (planning.current sectionId member)
    have same := saved.elsewhere sectionId (fun official => away (mem_order.mpr (.inr official)))
      touched.2
    rw [planned_untouched planning planned touched.1 touched.2, same]
    refine ⟨?_, fun anchored => anchored⟩
    rw [movedOrder, if_neg touched.2]
    refine (filter_eq_self.mpr fun id member => decide_eq_true ?_).symm
    rintro rfl
    exact away member

end Steps

end CodexHost.Guarantees.Sections
