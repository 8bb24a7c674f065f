import CodexHost.Guarantees.SectionListing

/-!
# Moves of Threads between and within sections

A planned move anchors the placements of the sections it touches in the intended orders, and its
official move gives the official part of them.
-/
namespace CodexHost.Guarantees.Sections
open Foundation Source.MappingStore Source.HostRuntime List Option
open Source.SharedContracts

variable {sectionId : String}

theorem officialPage_data {α : Type} {rows : List α} {offset : Nat}
    (last : (officialPage rows offset).2 = none) :
    (officialPage rows offset).1 = rows.drop offset := by
  simp only [officialPage] at last ⊢
  split at last
  · cases last
  · refine take_of_length_le ?_
    rw [length_drop]
    omega

theorem listAllOfficialRows_eq {rows : List String} (pages : Nat) : ∀ {offset : Nat} {all : List String},
    listAllOfficialRows rows pages offset = .ok all → all = rows.drop offset := by
  induction pages with
  | zero =>
    intro offset all ran
    cases ran
  | succ pages ih =>
    intro offset all ran
    rw [listAllOfficialRows] at ran
    cases next : (officialPage rows offset).2 with
    | none =>
      rw [show officialPage rows offset = (rows.drop offset, none) from
        Prod.ext (officialPage_data next) next] at ran
      cases ran
      rfl
    | some following =>
      rw [show officialPage rows offset = ((officialPage rows offset).1, some following) from
        Prod.ext rfl next] at ran
      simp only at ran
      cases later : listAllOfficialRows rows pages following with
      | error failure =>
        rw [later] at ran
        cases ran
      | ok others =>
        rw [later] at ran
        cases ran
        simp only [officialPage] at next
        split at next
        · cases next
          rw [ih later, officialPage, ← drop_drop]
          exact take_append_drop _ _
        · cases next

theorem listAllOfficialRows_ok {rows : List String} (pages : Nat) : ∀ (offset : Nat),
    rows.length ≤ offset + pages * OFFICIAL_PAGE_SIZE → 0 < pages →
      ∃ all, listAllOfficialRows rows pages offset = .ok all := by
  induction pages with
  | zero =>
    intro offset _ none
    cases none
  | succ pages ih =>
    intro offset enough _
    rw [listAllOfficialRows]
    by_cases more : offset + OFFICIAL_PAGE_SIZE < rows.length
    · simp only [officialPage, if_pos more]
      rw [Nat.succ_mul] at enough
      have left : 0 < pages := by
        rcases Nat.eq_zero_or_pos pages with none | some
        · rw [none] at enough
          omega
        · exact some
      obtain ⟨others, ran⟩ := ih (offset + OFFICIAL_PAGE_SIZE) (by omega) left
      rw [ran]
      exact ⟨_, rfl⟩
    · simp only [officialPage, if_neg more]
      exact ⟨_, rfl⟩

theorem sectionOrder_eq {host : SectionHost} {all : List String}
    (ran : sectionOrder host.official (listSectionPlacements host.store) sectionId = .ok all) :
    all = order host sectionId := by
  rw [sectionOrder] at ran
  cases rows : listAllOfficialRows (host.official.order sectionId) MAX_OFFICIAL_PAGES 0 with
  | error failure =>
    rw [rows] at ran
    cases ran
  | ok official =>
    rw [rows] at ran
    cases ran
    rw [listAllOfficialRows_eq _ rows]
    rfl

theorem sectionOrder_ok {host : SectionHost}
    (bounded : (host.official.order sectionId).length ≤ MAX_OFFICIAL_PAGES * OFFICIAL_PAGE_SIZE) :
    sectionOrder host.official (listSectionPlacements host.store) sectionId =
      .ok (order host sectionId) := by
  obtain ⟨all, ran⟩ := listAllOfficialRows_ok MAX_OFFICIAL_PAGES 0 (by rwa [Nat.zero_add]) (by decide)
  rw [sectionOrder, ran, listAllOfficialRows_eq _ ran]
  rfl

theorem findOfficialSection_id {definitions : List StoredThreadSection}
    (pages : Nat) : ∀ {offset : Nat} {found : StoredThreadSection},
    findOfficialSection definitions sectionId pages offset = .ok found →
      found ∈ definitions ∧ found.id = sectionId := by
  induction pages with
  | zero =>
    intro offset found ran
    cases ran
  | succ pages ih =>
    intro offset found ran
    rw [findOfficialSection] at ran
    split at ran
    · next definition here =>
      cases ran
      have member := mem_of_find?_eq_some here
      refine ⟨mem_of_mem_drop (mem_of_mem_take member), ?_⟩
      simpa using find?_some here
    · split at ran
      · cases ran
      · exact ih ran

theorem findOfficialSection_ok {definitions : List StoredThreadSection}
    (pages : Nat) : ∀ (offset : Nat), definitions.length ≤ offset + pages * OFFICIAL_PAGE_SIZE →
      (∃ definition ∈ definitions.drop offset, definition.id = sectionId) →
      ∃ found, findOfficialSection definitions sectionId pages offset = .ok found := by
  induction pages with
  | zero =>
    rintro offset enough ⟨definition, member, -⟩
    rw [drop_eq_nil_of_le (by omega)] at member
    cases member
  | succ pages ih =>
    rintro offset enough ⟨definition, member, isId⟩
    rw [findOfficialSection]
    rw [Nat.succ_mul] at enough
    split
    · exact ⟨_, rfl⟩
    · next absent =>
      rw [find?_eq_none] at absent
      have later : definition ∈ definitions.drop (offset + OFFICIAL_PAGE_SIZE) := by
        rw [← take_append_drop OFFICIAL_PAGE_SIZE (definitions.drop offset), mem_append, drop_drop] at member
        rcases member with here | later
        · exact absurd (by simpa using isId) (absent definition here)
        · exact later
      have more : offset + OFFICIAL_PAGE_SIZE < definitions.length := by
        by_contra short
        rw [drop_eq_nil_of_le (by omega)] at later
        cases later
      simp only [officialPage, if_pos more]
      exact ih _ (by omega) ⟨definition, later, isId⟩

theorem ids_reanchor (sectionId : String) (order : List String) (placements : List StoredSectionPlacementV1) :
    ids (reanchor sectionId order placements) = ids placements := by
  rw [ids, ids, reanchor, List.map_map]
  refine List.map_congr_left fun placement _ => ?_
  rw [Function.comp_apply]
  split <;> rfl

theorem reanchor_cons (sectionId : String) (order : List String)
    (placement : StoredSectionPlacementV1) (placements : List StoredSectionPlacementV1) :
    ∃ placement', reanchor sectionId order (placement :: placements) =
        placement' :: reanchor sectionId order placements ∧
      placement'.hostThreadId = placement.hostThreadId ∧ placement'.section = placement.section ∧
      (placement.section.id ≠ sectionId → placement' = placement) ∧
      (placement.section.id = sectionId → placement.hostThreadId ∈ order →
        placement'.beforeThreadId = successor order placement.hostThreadId) := by
  refine ⟨_, map_cons, ?_⟩
  by_cases touched : placement.section.id = sectionId ∧ placement.hostThreadId ∈ order
  · simp [touched]
  · rw [if_neg touched]
    exact ⟨rfl, rfl, fun _ => rfl, fun here member => absurd ⟨here, member⟩ touched⟩

theorem inSection_cons (sectionId : String) (placement : StoredSectionPlacementV1)
    (placements : List StoredSectionPlacementV1) :
    inSection sectionId (placement :: placements) =
      if placement.section.id = sectionId then placement :: inSection sectionId placements
      else inSection sectionId placements := by
  simp [inSection, filter_cons]

theorem inSection_reanchor_ne {sectionId other : String} (apart : other ≠ sectionId)
    (order : List String) (placements : List StoredSectionPlacementV1) :
    inSection other (reanchor sectionId order placements) = inSection other placements := by
  induction placements with
  | nil => rfl
  | cons placement placements ih =>
    obtain ⟨placement', isCons, -, isSection, same, -⟩ :=
      reanchor_cons sectionId order placement placements
    rw [isCons, inSection_cons, inSection_cons, isSection, ih]
    by_cases here : placement.section.id = other
    · rw [if_pos here, if_pos here, same fun touched => apart (here.symm.trans touched)]
    · rw [if_neg here, if_neg here]

theorem ids_inSection_reanchor (sectionId other : String) (order : List String)
    (placements : List StoredSectionPlacementV1) :
    ids (inSection other (reanchor sectionId order placements)) = ids (inSection other placements) := by
  induction placements with
  | nil => rfl
  | cons placement placements ih =>
    obtain ⟨placement', isCons, isId, isSection, -, -⟩ :=
      reanchor_cons sectionId order placement placements
    rw [isCons, inSection_cons, inSection_cons, isSection]
    by_cases here : placement.section.id = other
    · rw [if_pos here, if_pos here, ids, map_cons, ids, map_cons, isId]
      exact congrArg (placement.hostThreadId :: ·) ih
    · rw [if_neg here, if_neg here, ih]

theorem reanchor_anchor {order : List String}
    {placements : List StoredSectionPlacementV1} {placement : StoredSectionPlacementV1}
    (member : placement ∈ inSection sectionId (reanchor sectionId order placements))
    (inside : placement.hostThreadId ∈ order) :
    placement.beforeThreadId = successor order placement.hostThreadId := by
  obtain ⟨here, isSection⟩ := mem_filter.mp member
  obtain ⟨given, -, rfl⟩ := mem_map.mp here
  by_cases touched : given.section.id = sectionId ∧ given.hostThreadId ∈ order
  · rw [if_pos touched]
  · rw [if_neg touched] at isSection inside
    exact absurd ⟨of_decide_eq_true isSection, inside⟩ touched

/-- The order of a section after a move. -/
def movedOrder (move : DecodedThreadSectionMoveRequest) (sectionId : String) (order : List String) :
    List String :=
  let without := order.filter (· ≠ move.threadId)
  if move.sectionId = some sectionId then insertBefore without move.beforeThreadId move.threadId
  else without

/-- The Threads of a section that stay. -/
theorem mem_ids_inSection_filter {sectionId threadId id : String}
    {placements : List StoredSectionPlacementV1} :
    id ∈ ids (inSection sectionId (placements.filter (·.hostThreadId ≠ threadId))) ↔
      id ≠ threadId ∧ id ∈ ids (inSection sectionId placements) := by
  simp only [ids, inSection, List.mem_map, mem_filter, decide_eq_true_eq]
  constructor
  · rintro ⟨placement, ⟨⟨member, apart⟩, here⟩, rfl⟩
    exact ⟨by simpa using apart, placement, ⟨member, here⟩, rfl⟩
  · rintro ⟨apart, placement, ⟨member, here⟩, rfl⟩
    exact ⟨placement, ⟨⟨member, by simpa using apart⟩, here⟩, rfl⟩

section Plan
variable {input : PlanSectionMoveInput}

def others (input : PlanSectionMoveInput) : List StoredSectionPlacementV1 :=
  input.placements.filter (·.hostThreadId ≠ input.move.threadId)

theorem leftPlacements_ids : ids (leftPlacements input) = ids (others input) := by
  unfold leftPlacements
  cases input.currentSectionId with
  | none => rfl
  | some current =>
    simp only
    split
    · exact ids_reanchor _ _ _
    · rfl

theorem leftPlacements_inSection_ids (sectionId : String) :
    ids (inSection sectionId (leftPlacements input)) = ids (inSection sectionId (others input)) := by
  unfold leftPlacements
  cases input.currentSectionId with
  | none => rfl
  | some current =>
    simp only
    split
    · exact ids_inSection_reanchor _ _ _ _
    · rfl

theorem leftPlacements_others (elsewhere : input.currentSectionId ≠ some sectionId) :
    inSection sectionId (leftPlacements input) = inSection sectionId (others input) := by
  unfold leftPlacements
  cases current : input.currentSectionId with
  | none => rfl
  | some given =>
    simp only
    split
    · refine inSection_reanchor_ne ?_ _ _
      rintro rfl
      exact elsewhere current
    · rfl

theorem leftPlacements_anchor (left : input.currentSectionId = some sectionId)
    (target : input.destination.map (·.id) ≠ some sectionId) {placement : StoredSectionPlacementV1}
    (member : placement ∈ inSection sectionId (leftPlacements input))
    (inside : placement.hostThreadId ∈ input.without sectionId) :
    placement.beforeThreadId = successor (input.without sectionId) placement.hostThreadId := by
  unfold leftPlacements at member
  rw [left] at member
  simp only [if_pos target.symm] at member
  exact reanchor_anchor member inside

/-- What a plan says of the placements and of the official move. -/
structure Planned (input : PlanSectionMoveInput) (plan : SectionMovePlan) : Prop where
  names : ids plan.placements = (ids input.placements).filter (· ≠ input.move.threadId) ++
    if input.movingExternal ∧ input.destination.isSome then [input.move.threadId] else []
  members : ∀ sectionId id, id ∈ ids (inSection sectionId plan.placements) ↔
    (id ≠ input.move.threadId ∧ id ∈ ids (inSection sectionId input.placements)) ∨
      (id = input.move.threadId ∧ input.movingExternal = true ∧ input.move.sectionId = some sectionId)
  anchors : ∀ sectionId, input.currentSectionId = some sectionId ∨ input.move.sectionId = some sectionId →
    ∀ placement ∈ inSection sectionId plan.placements,
      placement.hostThreadId ∈ movedOrder input.move sectionId (input.orders sectionId) →
      placement.beforeThreadId =
        successor (movedOrder input.move sectionId (input.orders sectionId)) placement.hostThreadId
  untouched : ∀ sectionId, input.currentSectionId ≠ some sectionId → input.move.sectionId ≠ some sectionId →
      inSection sectionId plan.placements = inSection sectionId (others input)
  official : ∀ sectionId, input.move.sectionId = some sectionId → plan.officialBeforeThreadId =
    ((input.without sectionId).drop (input.move.beforeThreadId.elim (input.without sectionId).length
      (input.without sectionId).idxOf)).find? fun id => !input.isExternal id

theorem ids_others : ids (others input) = (ids input.placements).filter (· ≠ input.move.threadId) := by
  rw [others, ids, ids, List.filter_map]
  rfl

theorem movedOrder_out (elsewhere : input.move.sectionId ≠ some sectionId) :
    movedOrder input.move sectionId (input.orders sectionId) = input.without sectionId :=
  if_neg elsewhere

theorem movedOrder_in (target : input.move.sectionId = some sectionId) :
    movedOrder input.move sectionId (input.orders sectionId) =
      insertBefore (input.without sectionId) input.move.beforeThreadId input.move.threadId :=
  if_pos target

theorem planSectionMove_none (nowhere : input.destination = none) (target : input.move.sectionId = none) :
    planSectionMove input = .ok ⟨leftPlacements input, none⟩ ∧
      Planned input ⟨leftPlacements input, none⟩ := by
  refine ⟨by rw [planSectionMove, nowhere], ?_, ?_, ?_, ?_, ?_⟩
  · rw [leftPlacements_ids, ids_others, nowhere]
    simp
  · intro sectionId id
    rw [leftPlacements_inSection_ids, others, mem_ids_inSection_filter, target]
    simp
  · intro sectionId touched placement member inside
    have elsewhere : input.move.sectionId ≠ some sectionId := by simp [target]
    rw [movedOrder_out elsewhere] at inside ⊢
    refine leftPlacements_anchor (touched.resolve_right elsewhere) ?_ member inside
    simp [nowhere]
  · exact fun sectionId left _ => leftPlacements_others left
  · intro sectionId isTarget
    rw [target] at isTarget
    cases isTarget

theorem planSectionMove_some {destination : StoredThreadSection}
    (given : input.destination = some destination)
    (target : input.move.sectionId = some destination.id)
    (anchored : ∀ before, input.move.beforeThreadId = some before → before ∈ input.without destination.id) :
    ∃ plan, planSectionMove input = .ok plan ∧ Planned input plan := by
  have allowed : ¬ (input.move.beforeThreadId.any (· ∉ input.without destination.id)) = true := by
    rw [Option.any_eq_true]
    rintro ⟨before, isBefore, out⟩
    exact of_decide_eq_true out (anchored before isBefore)
  let intended := insertBefore (input.without destination.id) input.move.beforeThreadId input.move.threadId
  have split := insertBefore_take_drop (input.without destination.id) input.move.beforeThreadId
    input.move.threadId
  let placed := if input.movingExternal then
    leftPlacements input ++ [enteredPlacement input destination] else leftPlacements input
  have ran : planSectionMove input = .ok ⟨reanchor destination.id intended placed,
      ((input.without destination.id).drop (input.move.beforeThreadId.elim
        (input.without destination.id).length (input.without destination.id).idxOf)).find?
          fun id => !input.isExternal id⟩ := by
    rw [planSectionMove, given]
    have past : ∀ index, index ≤ (input.without destination.id).length →
        ((input.without destination.id).take index ++
          input.move.threadId :: (input.without destination.id).drop index).drop (index + 1) =
          (input.without destination.id).drop index := by
      intro index inside
      have size := List.length_take_of_le inside
      rw [List.drop_append, size, List.drop_eq_nil_of_le (by omega), Nat.add_sub_cancel_left]
      rfl
    simp only [if_neg allowed, intended, split, past _ (idxOf_le_length _ _)]
    rfl
  have placed_ids : ids placed = ids (others input) ++
      if input.movingExternal then [input.move.threadId] else [] := by
    simp only [placed]
    cases input.movingExternal
    · simp only [Bool.false_eq_true, if_false, List.append_nil]
      exact leftPlacements_ids
    · simp only [if_true]
      rw [ids, List.map_append]
      exact congrArg (· ++ [input.move.threadId]) leftPlacements_ids
  have placed_inSection : ∀ sectionId, inSection sectionId placed =
      inSection sectionId (leftPlacements input) ++
        if input.movingExternal ∧ destination.id = sectionId then
          [enteredPlacement input destination] else [] := by
    intro sectionId
    simp only [placed]
    cases input.movingExternal
    · simp
    · simp only [if_true, true_and]
      have apart : inSection sectionId [enteredPlacement input destination] =
          if destination.id = sectionId then [enteredPlacement input destination] else [] :=
        inSection_cons sectionId _ []
      rw [← apart]
      exact List.filter_append _ _
  refine ⟨_, ran, ?_, ?_, ?_, ?_, ?_⟩
  · rw [ids_reanchor, placed_ids, ids_others, given]
    simp
  · intro sectionId id
    have entered : ids (if input.movingExternal ∧ destination.id = sectionId then
        [enteredPlacement input destination] else []) =
          if input.movingExternal ∧ destination.id = sectionId then [input.move.threadId] else [] := by
      split <;> rfl
    rw [ids_inSection_reanchor, placed_inSection, ids, List.map_append, List.mem_append]
    refine or_congr ?_ ?_
    · show id ∈ ids (inSection sectionId (leftPlacements input)) ↔ _
      rw [leftPlacements_inSection_ids, others, mem_ids_inSection_filter]
    · show id ∈ ids _ ↔ _
      rw [entered, target, Option.some_inj]
      split
      · next both => simp [both]
      · next out => simpa using fun _ => out
  · intro sectionId touched placement member inside
    by_cases isTarget : destination.id = sectionId
    · subst isTarget
      rw [movedOrder_in target] at inside ⊢
      exact reanchor_anchor member inside
    · have elsewhere : input.move.sectionId ≠ some sectionId := by
        rw [target, ne_eq, Option.some_inj]
        exact isTarget
      rw [movedOrder_out elsewhere] at inside ⊢
      rw [inSection_reanchor_ne (Ne.symm isTarget), placed_inSection,
        if_neg fun both => isTarget both.2, List.append_nil] at member
      refine leftPlacements_anchor (touched.resolve_right elsewhere) ?_ member inside
      rw [given, Option.map_some, ne_eq, Option.some_inj]
      exact isTarget
  · intro sectionId left elsewhere
    have apart : ¬ destination.id = sectionId := by
      rintro rfl
      exact elsewhere target
    rw [inSection_reanchor_ne (Ne.symm apart), placed_inSection, if_neg fun both => apart both.2,
      List.append_nil]
    exact leftPlacements_others left
  · intro sectionId isTarget
    rw [target] at isTarget
    cases isTarget
    rfl

/-- A plan needs the anchor in the section. -/
theorem planSectionMove_anchored {destination : StoredThreadSection} {plan : SectionMovePlan}
    (given : input.destination = some destination) (ran : planSectionMove input = .ok plan) :
    ∀ before, input.move.beforeThreadId = some before → before ∈ input.without destination.id := by
  intro before isBefore
  rw [planSectionMove, given] at ran
  simp only at ran
  by_contra out
  rw [if_pos] at ran
  · cases ran
  · rw [isBefore, any_some]
    exact decide_eq_true out

end Plan

end CodexHost.Guarantees.Sections
