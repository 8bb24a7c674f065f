import CodexHost.Source.HostRuntime.ExternalThreadSections

/-!
# Merging External placements into an official order

Whatever the anchors, the merge keeps the official order and shows every placement once. When every
placement is anchored to its successor in an order whose official part is the given one, the merge is
that order.
-/
namespace CodexHost.Guarantees.Sections
open Foundation Source.MappingStore Source.HostRuntime List MergeLoop Nat

def ids (placements : List StoredSectionPlacementV1) : List String :=
  placements.map (·.hostThreadId)

/-- One round places some of the pending placements and defers the others. -/
structure Round (order order' : List String) (pending deferred : List StoredSectionPlacementV1) : Prop where
  kept : order.Sublist order'
  later : deferred.Sublist pending
  shown : ∃ placed, order'.Perm (placed ++ order) ∧ (ids pending).Perm (placed ++ ids deferred)

variable {placement : StoredSectionPlacementV1}

theorem Round.place {order first order' : List String}
    {pending deferred : List StoredSectionPlacementV1} (kept : order.Sublist first)
    (shown : first.Perm (placement.hostThreadId :: order)) (round : Round first order' pending deferred) :
    Round order order' (placement :: pending) deferred := by
  obtain ⟨placed, perm, split⟩ := round.shown
  refine ⟨kept.trans round.kept, round.later.cons placement, placement.hostThreadId :: placed, ?_, ?_⟩
  · calc order'.Perm (placed ++ first) := perm
      _ |>.Perm (placed ++ placement.hostThreadId :: order) := shown.append_left placed
      _ |>.Perm (placement.hostThreadId :: (placed ++ order)) := perm_middle
  · exact split.cons placement.hostThreadId

theorem placePending_round (pending : List StoredSectionPlacementV1) :
    ∀ order waiting, Round order (placePending order waiting pending).1 pending
      (placePending order waiting pending).2 := by
  induction pending with
  | nil =>
    intro order waiting
    exact ⟨List.Sublist.refl _, List.Sublist.refl _, [], List.Perm.refl _, List.Perm.refl _⟩
  | cons placement pending ih =>
    intro order waiting
    have last : order.Sublist (order ++ [placement.hostThreadId]) := sublist_append_left _ _
    have shown : (order ++ [placement.hostThreadId]).Perm (placement.hostThreadId :: order) :=
      perm_append_singleton _ _
    rw [placePending]
    cases placement.beforeThreadId with
    | none => exact (ih _ _).place last shown
    | some before =>
      simp only
      split
      · exact (ih _ _).place (sublist_insertBefore _ _ _) (insertBefore_perm _ _ _)
      · split
        · obtain ⟨kept, later, placed, perm, split⟩ := ih order waiting
          refine ⟨kept, later.cons_cons placement, placed, perm, ?_⟩
          exact (split.cons placement.hostThreadId).trans perm_middle.symm
        · exact (ih _ _).place last shown

/-- All rounds: the order is kept, and every placement is shown. -/
theorem placeRounds_shown (rounds : Nat) : ∀ order (pending : List StoredSectionPlacementV1),
    pending.length ≤ rounds → order.Sublist (placeRounds rounds order pending) ∧
      (placeRounds rounds order pending).Perm (ids pending ++ order) := by
  induction rounds with
  | zero =>
    intro order pending none
    rw [length_eq_zero_iff.mp (le_zero.mp none)]
    exact ⟨List.Sublist.refl _, List.Perm.refl _⟩
  | succ rounds ih =>
    intro order pending enough
    rw [placeRounds]
    split
    · next none =>
      rw [none]
      exact ⟨List.Sublist.refl _, List.Perm.refl _⟩
    · obtain ⟨kept, later, placed, perm, split⟩ :=
        placePending_round pending order (pending.map (·.hostThreadId))
      let round := placePending order (pending.map (·.hostThreadId)) pending
      have together : (ids round.2 ++ round.1).Perm (ids pending ++ order) := by
        have moved : (ids round.2 ++ (placed ++ order)).Perm (placed ++ ids round.2 ++ order) := by
          rw [← append_assoc]
          exact perm_append_comm.append_right order
        exact (perm.append_left _).trans (moved.trans (split.symm.append_right order))
      have shorter := later.length_le
      simp only
      split
      · exact ⟨kept.trans (sublist_append_left _ _), perm_append_comm.trans together⟩
      · next fewer =>
        obtain ⟨keptLater, shownLater⟩ := ih round.1 round.2
          (le_of_lt_succ ((lt_of_le_of_ne shorter fewer).trans_le enough))
        exact ⟨kept.trans keptLater, shownLater.trans together⟩

variable {officialIds : List String} {placements : List StoredSectionPlacementV1}

/-- The merge shows every placement, and the official Threads in their order. -/
theorem mergeSectionOrder_shown :
    (officialIds.filter (· ∉ ids placements)).Sublist (mergeSectionOrder officialIds placements) ∧
      (mergeSectionOrder officialIds placements).Perm
        (ids placements ++ officialIds.filter (· ∉ ids placements)) :=
  placeRounds_shown placements.length _ placements (le_refl _)

variable {id : String}

theorem mem_mergeSectionOrder :
    id ∈ mergeSectionOrder officialIds placements ↔ id ∈ ids placements ∨ id ∈ officialIds := by
  rw [mergeSectionOrder_shown.2.mem_iff, mem_append, mem_filter]
  by_cases placed : id ∈ ids placements <;> simp [placed]

theorem mergeSectionOrder_nodup (nodup : officialIds.Nodup) (once : (ids placements).Nodup) :
    (mergeSectionOrder officialIds placements).Nodup := by
  rw [mergeSectionOrder_shown.2.nodup_iff, nodup_append]
  refine ⟨once, nodup.filter _, ?_⟩
  rintro id placed _ official rfl
  have apart := (mem_filter.mp official).2
  simp [placed] at apart

theorem mergeSectionOrder_official : (mergeSectionOrder officialIds placements).filter (· ∉ ids placements) =
      officialIds.filter (· ∉ ids placements) := by
  obtain ⟨kept, shown⟩ := @mergeSectionOrder_shown officialIds placements
  have inside := kept.filter (· ∉ ids placements)
  have same := (shown.filter (· ∉ ids placements)).length_eq
  have none : (ids placements).filter (· ∉ ids placements) = [] := by simp
  rw [filter_append, none, nil_append] at same
  rw [filter_filter] at inside same
  simp only [Bool.and_self] at inside same
  exact (inside.eq_of_length same.symm).symm

/-- The placements in the merge: each is there as often as it is stored. -/
theorem mergeSectionOrder_placed :
    ((mergeSectionOrder officialIds placements).filter (· ∈ ids placements)).Perm (ids placements) := by
  have placed := (@mergeSectionOrder_shown officialIds placements).2.filter (· ∈ ids placements)
  have all : (ids placements).filter (· ∈ ids placements) = ids placements :=
    filter_eq_self.mpr fun id member => decide_eq_true member
  have none : (officialIds.filter (· ∉ ids placements)).filter (· ∈ ids placements) = [] := by simp
  rwa [filter_append, all, none, append_nil] at placed

/-- Every round that does not end the loop leaves fewer placements, so that one round for each
placement is enough. -/
theorem mergeLoop_placeRounds (rounds : Nat) : ∀ order (pending : List StoredSectionPlacementV1),
    pending.length ≤ rounds → MergeLoop order pending (placeRounds rounds order pending) := by
  induction rounds with
  | zero =>
    intro order pending none
    rw [length_eq_zero_iff.mp (le_zero.mp none)]
    exact merged order
  | succ rounds ih =>
    intro order pending enough
    rw [placeRounds]
    split
    · next none =>
      rw [none]
      exact merged order
    · next left =>
      have fewer := (placePending_round pending order (pending.map (·.hostThreadId))).later.length_le
      simp only
      split
      · next all => exact stuck left rfl all
      · next some =>
        exact round left rfl some (ih _ _ (by omega))

variable {pending : List StoredSectionPlacementV1}

theorem mergeLoop_unique {order result other : List String}
    (run : MergeLoop order pending result) (again : MergeLoop order pending other) :
    result = other := by
  induction run generalizing other with
  | merged order =>
    cases again with
    | merged => rfl
    | stuck left | round left => exact absurd rfl left
  | stuck left round all =>
    cases again with
    | merged => exact absurd rfl left
    | stuck _ same =>
      cases round.symm.trans same
      rfl
    | round _ same some =>
      cases round.symm.trans same
      exact absurd all some
  | round left round some _ ih =>
    cases again with
    | merged => exact absurd rfl left
    | stuck _ same all =>
      cases round.symm.trans same
      exact absurd all some
    | round _ same _ later =>
      cases round.symm.trans same
      exact ih later

/-- The loop ends for all anchors, with one result. It has the official Threads that are not placed
as they were, and every placement once. -/
theorem mergeSectionOrder_total (officialIds : List String) (placements : List StoredSectionPlacementV1) :
    (∀ result, MergeLoop (officialIds.filter (· ∉ ids placements)) placements result ↔
      result = mergeSectionOrder officialIds placements) ∧
    (mergeSectionOrder officialIds placements).filter (· ∉ ids placements) =
      officialIds.filter (· ∉ ids placements) ∧
    ((mergeSectionOrder officialIds placements).filter (· ∈ ids placements)).Perm (ids placements) := by
  have ends : MergeLoop (officialIds.filter (· ∉ ids placements)) placements
      (mergeSectionOrder officialIds placements) :=
    mergeLoop_placeRounds placements.length _ placements (le_refl _)
  refine ⟨fun result => ⟨fun run => mergeLoop_unique run ends, ?_⟩, mergeSectionOrder_official,
    mergeSectionOrder_placed⟩
  rintro rfl
  exact ends

/-- Every placement is anchored to its successor in an order with these official Threads. -/
structure Anchored (order officialIds : List String) (placements : List StoredSectionPlacementV1) : Prop where
  nodup : order.Nodup
  once : (ids placements).Nodup
  official : officialIds.filter (· ∉ ids placements) = order.filter (· ∉ ids placements)
  placed : ∀ placement ∈ placements, placement.hostThreadId ∈ order ∧
    placement.beforeThreadId = successor order placement.hostThreadId

/-- A round over anchored placements shows the part of the order that does not wait any more; the
anchors of what it defers were waiting. -/
structure AnchoredRound (order waiting : List String) (pending : List StoredSectionPlacementV1)
    (result : List String × List StoredSectionPlacementV1) : Prop where
  shown : ∃ keep : String → Bool, result.1 = order.filter keep ∧
    ∀ id, keep id = true ↔ id ∉ waiting ∨ (id ∈ ids pending ∧ id ∉ ids result.2)
  anchors : ∀ placement ∈ result.2, ∃ before,
    successor order placement.hostThreadId = some before ∧ before ∈ waiting

theorem mem_ids_cons : id ∈ ids (placement :: pending) ↔ id = placement.hostThreadId ∨ id ∈ ids pending :=
  mem_cons

/-- The step of a round that places the first placement. -/
theorem AnchoredRound.place {order waiting : List String} {result : List String × List StoredSectionPlacementV1}
    (once : placement.hostThreadId ∉ ids pending) (later : result.2.Sublist pending)
    (round : AnchoredRound order (waiting.filter (· ≠ placement.hostThreadId)) pending result) :
    AnchoredRound order waiting (placement :: pending) result := by
  obtain ⟨keep, isShown, kept⟩ := round.shown
  refine ⟨⟨keep, isShown, fun id => ?_⟩, ?_⟩
  · rw [kept, mem_filter, mem_ids_cons]
    by_cases same : id = placement.hostThreadId
    · have out : placement.hostThreadId ∉ ids result.2 := fun deferred =>
        once ((later.map _).subset deferred)
      simp [same, out]
    · simp [same]
  · intro other member
    obtain ⟨before, next, still⟩ := round.anchors other member
    exact ⟨before, next, (mem_filter.mp still).1⟩

/-- The step of a round that defers the first placement. -/
theorem AnchoredRound.defer {order waiting before : _} {result : List String × List StoredSectionPlacementV1}
    (once : placement.hostThreadId ∉ ids pending) (waits : placement.hostThreadId ∈ waiting)
    (next : successor order placement.hostThreadId = some before) (still : before ∈ waiting)
    (round : AnchoredRound order waiting pending result) :
    AnchoredRound order waiting (placement :: pending) (result.1, placement :: result.2) := by
  obtain ⟨keep, isShown, kept⟩ := round.shown
  refine ⟨⟨keep, isShown, fun id => ?_⟩, ?_⟩
  · rw [kept, mem_ids_cons, mem_ids_cons]
    by_cases same : id = placement.hostThreadId
    · simp [same, once, waits]
    · simp [same]
  · intro other member
    rcases mem_cons.mp member with rfl | later
    · exact ⟨before, next, still⟩
    · exact round.anchors other later

variable {order : List String}

theorem successor_ne (nodup : order.Nodup) {id before : String}
    (member : id ∈ order) (next : successor order id = some before) : before ≠ id := by
  obtain ⟨front, back, rfl, notFront, notBack⟩ := split_of_mem nodup member
  rw [successor_split notFront] at next
  rintro rfl
  exact notBack (mem_of_mem_head? next)

/-- The order grows by a placement whose anchor does not wait. -/
theorem shown_grows {order shown waiting : List String} (nodup : order.Nodup)
    (member : id ∈ order) (waits : id ∈ waiting) (isShown : shown = order.filter (· ∉ waiting))
    (ready : ∀ before, successor order id = some before → before ∉ waiting) :
    insertBefore shown (successor order id) id = order.filter (· ∉ waiting.filter (· ≠ id)) := by
  rw [isShown]
  refine (filter_insert nodup member (by simp [waits]) (by simp) ?_ ?_).symm
  · intro other _ apart
    simp [apart]
  · intro before next
    simpa using ready before next

theorem placePending_anchored (nodup : order.Nodup)
    (pending : List StoredSectionPlacementV1) : ∀ (shown waiting : List String),
    (ids pending).Nodup → (∀ placement ∈ pending, placement.hostThreadId ∈ order ∧
      placement.beforeThreadId = successor order placement.hostThreadId) →
    (∀ id ∈ ids pending, id ∈ waiting) → shown = order.filter (· ∉ waiting) →
    AnchoredRound order waiting pending (placePending shown waiting pending) := by
  induction pending with
  | nil =>
    intro shown waiting _ _ _ isShown
    refine ⟨⟨(· ∉ waiting), isShown, fun id => ?_⟩, fun _ none => by cases none⟩
    simp [ids]
  | cons placement pending ih =>
    intro shown waiting once anchored waits isShown
    obtain ⟨fresh, once'⟩ := nodup_cons.mp once
    obtain ⟨here, anchor⟩ := anchored placement mem_cons_self
    have anchored' := fun other (member : other ∈ pending) =>
      anchored other (mem_cons_of_mem placement member)
    have waitsHere := waits placement.hostThreadId mem_cons_self
    have waits' := fun other (member : other ∈ ids pending) => waits other (mem_cons_of_mem _ member)
    let rest := waiting.filter (· ≠ placement.hostThreadId)
    have waitsRest : ∀ other ∈ ids pending, other ∈ rest := by
      intro other member
      refine mem_filter.mpr ⟨waits' other member, ?_⟩
      have apart : other ≠ placement.hostThreadId := by
        rintro rfl
        exact fresh member
      simpa using apart
    have place : (∀ before, successor order placement.hostThreadId = some before → before ∉ waiting) →
        AnchoredRound order waiting (placement :: pending) (placePending
          (insertBefore shown (successor order placement.hostThreadId) placement.hostThreadId) rest
          pending) := fun ready =>
      AnchoredRound.place fresh (placePending_round pending _ _).later
        (ih _ rest once' anchored' waitsRest (shown_grows nodup here waitsHere isShown ready))
    rw [placePending, anchor]
    cases next : successor order placement.hostThreadId with
    | none =>
      rw [next, insertBefore_none] at place
      exact place fun _ absent => by cases absent
    | some before =>
      rw [next] at place
      have waitsOr : before ∈ shown ↔ before ∉ waiting := by
        rw [isShown, mem_filter]
        simp [successor_mem next]
      simp only
      by_cases isHere : before ∈ shown
      · rw [if_pos isHere]
        refine place fun other same => ?_
        cases same
        exact waitsOr.mp isHere
      · have still : before ∈ waiting := not_not.mp (mt waitsOr.mpr isHere)
        rw [if_neg isHere, if_pos ⟨successor_ne nodup here next, still⟩]
        exact (ih shown waiting once' anchored' waits' isShown).defer fresh waitsHere next still

theorem placePending_progress {order shown : List String} (nodup : order.Nodup) (filled : pending ≠ [])
    (anchored : ∀ placement ∈ pending, placement.hostThreadId ∈ order ∧
      placement.beforeThreadId = successor order placement.hostThreadId)
    (round : AnchoredRound order (ids pending) pending (placePending shown (ids pending) pending)) :
    (placePending shown (ids pending) pending).2.length < pending.length := by
  have later := (placePending_round pending shown (ids pending)).later
  refine lt_of_le_of_ne later.length_le fun all => ?_
  have same := later.eq_of_length all
  obtain ⟨placement, member⟩ := exists_mem_of_ne_nil pending filled
  have someWaits : ∃ id ∈ order, id ∈ ids pending :=
    ⟨placement.hostThreadId, (anchored placement member).1, mem_map_of_mem member⟩
  obtain ⟨id, -, waits, last⟩ := exists_last nodup someWaits
  obtain ⟨deferred, here, rfl⟩ := mem_map.mp waits
  obtain ⟨before, next, still⟩ := round.anchors deferred (by rwa [same])
  exact last before next still

theorem placeRounds_anchored (nodup : order.Nodup) (rounds : Nat) :
    ∀ (shown : List String) (pending : List StoredSectionPlacementV1), pending.length ≤ rounds →
      (ids pending).Nodup → (∀ placement ∈ pending, placement.hostThreadId ∈ order ∧
        placement.beforeThreadId = successor order placement.hostThreadId) →
      shown = order.filter (· ∉ ids pending) → placeRounds rounds shown pending = order := by
  induction rounds with
  | zero =>
    intro shown pending none _ _ isShown
    rw [length_eq_zero_iff.mp (Nat.le_zero.mp none)] at isShown
    rw [placeRounds, isShown]
    exact filter_eq_self.mpr fun id _ => by simp [ids]
  | succ rounds ih =>
    intro shown pending enough once anchored isShown
    rw [placeRounds]
    split
    · next none =>
      rw [isShown, none]
      exact filter_eq_self.mpr fun id _ => by simp [ids]
    · next filled =>
      have round := placePending_anchored nodup pending shown (ids pending) once anchored
        (fun _ member => member) isShown
      have fewer := placePending_progress nodup filled anchored round
      have later := (placePending_round pending shown (ids pending)).later
      have within := fun placement member => anchored placement (later.subset member)
      obtain ⟨keep, isKept, kept⟩ := round.shown
      have next := ih (placePending shown (ids pending) pending).1 _
        (Nat.le_of_lt_succ (fewer.trans_le enough)) (once.sublist (later.map _))
        within (by
          rw [isKept]
          refine filter_congr fun id _ => ?_
          rw [Bool.eq_iff_iff, kept, decide_eq_true_iff]
          have subset : id ∈ ids (placePending shown (ids pending) pending).2 → id ∈ ids pending :=
            fun member => (later.map _).subset member
          tauto)
      exact (if_neg (Nat.ne_of_lt fewer)).trans next

/-- The merge of anchored placements is the order they are anchored in. -/
theorem Anchored.merge (anchored : Anchored order officialIds placements) :
    mergeSectionOrder officialIds placements = order :=
  placeRounds_anchored anchored.nodup _ _ _ (le_refl _) anchored.once anchored.placed anchored.official

end CodexHost.Guarantees.Sections
